import Mathlib.Logic.Basic

/-
  This file defines regular expressions over any kind of
  sign, what they match, and how that is decided by taking
  one sign after the other away.

  Key definitions include:
    * `Regex`
    * `Regex.Matches`
    * `Regex.fullmatch`

  Key theorems include:
    * `Regex.fullmatch_iff`
-/

inductive Regex (α : Type) where
| never
| nothing
| sign (p : α → Bool)
| seq (r s : Regex α)
| either (r s : Regex α)
| many (r : Regex α)

namespace Regex

variable {α : Type}

------------------------------------------------------------
-- Matching
------------------------------------------------------------

/- What is matched from beginning to end. -/
inductive Matches : Regex α → List α → Prop where
| nothing : Matches .nothing []
| sign {p : α → Bool} {a : α} (h : p a = true) :
    Matches (.sign p) [a]
| seq {r s : Regex α} {v w : List α}
    (hLeft : Matches r v) (hRight : Matches s w) :
    Matches (.seq r s) (v ++ w)
| left {r s : Regex α} {v : List α} (h : Matches r v) :
    Matches (.either r s) v
| right {r s : Regex α} {v : List α} (h : Matches s v) :
    Matches (.either r s) v
| done {r : Regex α} : Matches (.many r) []
| more {r : Regex α} {v w : List α}
    (hOne : Matches r v) (hRest : Matches (.many r) w) :
    Matches (.many r) (v ++ w)

def nullable : Regex α → Bool
| .never => false
| .nothing => true
| .sign _ => false
| .seq r s => r.nullable && s.nullable
| .either r s => r.nullable || s.nullable
| .many _ => true

/- What is left to match after one sign. -/
def after (a : α) : Regex α → Regex α
| .never => .never
| .nothing => .never
| .sign p => if p a then .nothing else .never
| .seq r s =>
    if r.nullable then .either (.seq (r.after a) s) (s.after a)
    else .seq (r.after a) s
| .either r s => .either (r.after a) (s.after a)
| .many r => .seq (r.after a) (.many r)

/- `re.fullmatch` -/
def fullmatch (r : Regex α) : List α → Bool
| [] => r.nullable
| a :: v => (r.after a).fullmatch v

------------------------------------------------------------
-- Combinations
------------------------------------------------------------

/- `r?` -/
def opt (r : Regex α) : Regex α :=
  .either r .nothing

/- `r+` -/
def some (r : Regex α) : Regex α :=
  .seq r (.many r)

/- `r{1,n + 1}`, or `r{0,n}` with the last made optional. -/
def upTo (r : Regex α) : Nat → Regex α
| 0 => .nothing
| n + 1 => opt (.seq r (upTo r n))

/- The signs of a text, one after the other. -/
def word [BEq α] : List α → Regex α
| [] => .nothing
| a :: v => .seq (.sign (· == a)) (word v)

/- One of several. -/
def oneOf : List (Regex α) → Regex α
| [] => .never
| [r] => r
| r :: rs => .either r (oneOf rs)

------------------------------------------------------------
-- Correctness
------------------------------------------------------------

theorem nullable_iff (r : Regex α) :
    r.nullable = true ↔ Matches r [] := by
  induction r with
  | never =>
      exact iff_of_false Bool.false_ne_true (fun h => (nomatch h))
  | nothing => exact iff_of_true rfl .nothing
  | sign p =>
      exact iff_of_false Bool.false_ne_true (fun h => (nomatch h))
  | seq r s ihr ihs =>
      rw [nullable, Bool.and_eq_true, ihr, ihs]
      constructor
      · exact fun h => .seq (v := []) (w := []) h.1 h.2
      · intro h
        generalize hNil : ([] : List α) = v at h
        cases h with
        | seq hLeft hRight =>
            rcases List.append_eq_nil_iff.mp hNil.symm with
              ⟨rfl, rfl⟩
            exact ⟨hLeft, hRight⟩
  | either r s ihr ihs =>
      rw [nullable, Bool.or_eq_true, ihr, ihs]
      constructor
      · rintro (h | h)
        · exact .left h
        · exact .right h
      · intro h
        cases h with
        | left h => exact Or.inl h
        | right h => exact Or.inr h
  | many r ih => exact iff_of_true rfl .done

/- A repetition that matches something begins with one. -/
theorem matches_many_cons
    {r : Regex α}
    {a : α}
    {v : List α}
    (h : Matches (.many r) (a :: v)) :
    ∃ x y, v = x ++ y ∧ Matches r (a :: x) ∧
      Matches (.many r) y := by
  generalize hMany : Regex.many r = s at h
  generalize hText : a :: v = t at h
  induction h with
  | @more _ w rest hOne hRest _ ih =>
      cases hMany
      cases w with
      | nil => exact ih rfl hText
      | cons b x =>
          rcases List.cons.inj hText with ⟨rfl, rfl⟩
          exact ⟨x, rest, rfl, hOne, hRest⟩
  | done => cases hText
  | _ => cases hMany

theorem after_iff
    (r : Regex α)
    (a : α)
    (v : List α) :
    Matches (r.after a) v ↔ Matches r (a :: v) := by
  induction r generalizing v with
  | never =>
      exact iff_of_false (fun h => (nomatch h))
        (fun h => (nomatch h))
  | nothing =>
      exact iff_of_false (fun h => (nomatch h))
        (fun h => (nomatch h))
  | sign p =>
      rw [after]
      split
      · rename_i hSign
        constructor
        · intro h
          cases h
          exact .sign hSign
        · intro h
          cases h
          exact .nothing
      · rename_i hSign
        refine iff_of_false (fun h => (nomatch h)) ?_
        intro h
        cases h with
        | sign h => exact hSign h
  | seq r s ihr ihs =>
      have hSplit : Matches (.seq r s) (a :: v) ↔
          Matches (.seq (r.after a) s) v ∨
            (r.nullable = true ∧ Matches (s.after a) v) := by
        rw [nullable_iff, ihs]
        constructor
        · intro h
          generalize hText : a :: v = t at h
          cases h with
          | seq hLeft hRight =>
              rename_i x y
              cases x with
              | nil =>
                  subst hText
                  exact Or.inr ⟨hLeft, hRight⟩
              | cons b x =>
                  rcases List.cons.inj hText with ⟨rfl, rfl⟩
                  exact Or.inl (.seq ((ihr x).mpr hLeft) hRight)
        · rintro (h | ⟨hLeft, hRight⟩)
          · cases h with
            | seq hLeft hRight =>
                exact .seq ((ihr _).mp hLeft) hRight
          · exact .seq (v := []) hLeft hRight
      rw [hSplit, after]
      split
      · rename_i hNull
        constructor
        · intro h
          cases h with
          | left h => exact Or.inl h
          | right h => exact Or.inr ⟨hNull, h⟩
        · rintro (h | ⟨_, h⟩)
          · exact .left h
          · exact .right h
      · rename_i hNull
        exact ⟨Or.inl, fun h => h.resolve_right
          (fun hBoth => hNull hBoth.1)⟩
  | either r s ihr ihs =>
      rw [after]
      constructor
      · intro h
        cases h with
        | left h => exact .left ((ihr v).mp h)
        | right h => exact .right ((ihs v).mp h)
      · intro h
        cases h with
        | left h => exact .left ((ihr v).mpr h)
        | right h => exact .right ((ihs v).mpr h)
  | many r ih =>
      rw [after]
      constructor
      · intro h
        cases h with
        | seq hLeft hRight =>
            exact .more ((ih _).mp hLeft) hRight
      · intro h
        rcases matches_many_cons h with
          ⟨x, y, rfl, hOne, hRest⟩
        exact .seq ((ih x).mpr hOne) hRest

/- The test finds exactly what is matched. -/
theorem fullmatch_iff
    (r : Regex α)
    (v : List α) :
    r.fullmatch v = true ↔ Matches r v := by
  induction v generalizing r with
  | nil => exact nullable_iff r
  | cons a v ih => rw [fullmatch, ih, after_iff]

end Regex
