import DcInventory.Library.ThreeValued
import Mathlib.Data.List.Infix

/-
  This file defines the patterns of LIKE in SQL and proves
  what an escaped text matches, by itself and beside
  wildcards.

  Key definitions include:
    * `Sql.Wildcard`
    * `Sql.parsePattern`
    * `Sql.matchesPattern`
    * `Sql.escaped`
    * `Sql.like`
    * `Sql.ilike`

  Key theorems include:
    * `Sql.parsePattern_escaped`
    * `Sql.matches_exactly`
    * `Sql.matches_start`
    * `Sql.matches_infix`
-/

namespace Sql

------------------------------------------------------------
-- Matching
------------------------------------------------------------

/- One sign of a pattern. -/
inductive Wildcard where
| char (c : Char)
| one
| many
deriving DecidableEq, Repr

/- `\` takes the next sign as it is; it may not be the last. -/
def parsePattern : List Char → Option (List Wildcard)
| [] => some []
| '\\' :: [] => none
| '\\' :: c :: cs => (parsePattern cs).map (.char c :: ·)
| '%' :: cs => (parsePattern cs).map (.many :: ·)
| '_' :: cs => (parsePattern cs).map (.one :: ·)
| c :: cs => (parsePattern cs).map (.char c :: ·)

/- The whole text is matched. -/
def matchesPattern : List Wildcard → List Char → Bool
| [], v => v.isEmpty
| .char _ :: _, [] => false
| .char c :: ps, d :: v => c == d && matchesPattern ps v
| .one :: _, [] => false
| .one :: ps, _ :: v => matchesPattern ps v
| .many :: ps, v => v.tails.any (matchesPattern ps)

/- Signs that mean something else than themselves. -/
def isSpecial (c : Char) : Bool :=
  c == '\\' || c == '%' || c == '_'

/- A text in which no sign is special. -/
def escaped (v : List Char) : List Char :=
  v.flatMap (fun c => if isSpecial c then ['\\', c] else [c])

------------------------------------------------------------
-- Escaped Texts
------------------------------------------------------------

theorem parsePattern_plain
    {c : Char}
    {cs : List Char}
    (hPlain : isSpecial c = false) :
    parsePattern (c :: cs) =
      (parsePattern cs).map (.char c :: ·) := by
  simp only [isSpecial, Bool.or_eq_false_iff, beq_eq_false_iff_ne]
    at hPlain
  rcases hPlain with ⟨⟨hEscape, hMany⟩, hOne⟩
  rw [parsePattern]
  · rintro rfl _
    exact hEscape rfl
  · intro d ds hd _
    exact hEscape hd
  · exact hMany
  · exact hOne

theorem parsePattern_special (c : Char) (cs : List Char) :
    parsePattern ('\\' :: c :: cs) =
      (parsePattern cs).map (.char c :: ·) := by
  rw [parsePattern]

/- An escaped text stands for itself. -/
theorem parsePattern_escaped (v p : List Char) :
    parsePattern (escaped v ++ p) =
      (parsePattern p).map (v.map Wildcard.char ++ ·) := by
  induction v with
  | nil =>
      cases h : parsePattern p <;> simp [escaped, h]
  | cons c cs ih =>
      have hStep : parsePattern (escaped (c :: cs) ++ p) =
          (parsePattern (escaped cs ++ p)).map
            (.char c :: ·) := by
        cases hSpecial : isSpecial c with
        | true =>
            have hCons : escaped (c :: cs) =
                '\\' :: c :: escaped cs := by
              simp [escaped, hSpecial]
            rw [hCons, List.cons_append, List.cons_append]
            exact parsePattern_special c _
        | false =>
            have hCons : escaped (c :: cs) =
                c :: escaped cs := by
              simp [escaped, hSpecial]
            rw [hCons, List.cons_append]
            exact parsePattern_plain hSpecial
      rw [hStep, ih, Option.map_map]
      rfl

/- Characters are matched one after the other. -/
theorem matches_chars
    (t : List Char)
    (ps : List Wildcard)
    (v : List Char) :
    matchesPattern (t.map Wildcard.char ++ ps) v = true ↔
      ∃ w, v = t ++ w ∧ matchesPattern ps w = true := by
  induction t generalizing v with
  | nil => simp
  | cons c cs ih =>
      cases v with
      | nil => simp [matchesPattern]
      | cons d v =>
          simp only [List.map_cons, List.cons_append,
            matchesPattern, Bool.and_eq_true, beq_iff_eq, ih]
          constructor
          · rintro ⟨rfl, w, rfl, hRest⟩
            exact ⟨w, rfl, hRest⟩
          · rintro ⟨w, hEq, hRest⟩
            cases hEq
            exact ⟨rfl, w, rfl, hRest⟩

theorem matches_many_end (v : List Char) :
    matchesPattern [.many] v = true := by
  rw [matchesPattern, List.any_eq_true]
  exact ⟨[], (List.mem_tails _ _).mpr List.nil_suffix, rfl⟩

/- A text by itself is matched by itself only. -/
theorem matches_exactly (t v : List Char) :
    matchesPattern (t.map Wildcard.char) v = true ↔ v = t := by
  have hChars := matches_chars t [] v
  rw [List.append_nil] at hChars
  rw [hChars]
  constructor
  · rintro ⟨w, rfl, hEmpty⟩
    rw [matchesPattern, List.isEmpty_iff] at hEmpty
    rw [hEmpty, List.append_nil]
  · rintro rfl
    exact ⟨[], (List.append_nil v).symm, rfl⟩

/- Before a wildcard, it is matched by what begins with it. -/
theorem matches_start (t v : List Char) :
    matchesPattern (t.map Wildcard.char ++ [.many]) v = true ↔
      t <+: v := by
  rw [matches_chars]
  constructor
  · rintro ⟨w, rfl, _⟩
    exact List.prefix_append t w
  · rintro ⟨w, rfl⟩
    exact ⟨w, rfl, matches_many_end w⟩

/- Between wildcards, by what has it anywhere. -/
theorem matches_infix (t v : List Char) :
    matchesPattern (.many :: (t.map Wildcard.char ++ [.many]))
      v = true ↔ t <:+: v := by
  rw [matchesPattern, List.any_eq_true]
  simp only [matches_start, List.mem_tails]
  constructor
  · rintro ⟨w, hSuffix, hPrefix⟩
    exact hPrefix.isInfix.trans hSuffix.isInfix
  · rintro ⟨before, after, rfl⟩
    refine ⟨t ++ after, ?_, List.prefix_append t after⟩
    rw [List.append_assoc]
    exact List.suffix_append before _

/- `v LIKE p` -/
def like (v : Option (List Char)) (p : List Char) : Truth :=
  match v, parsePattern p with
  | some v, some ps => some (matchesPattern ps v)
  | _, _ => none

/- `v ILIKE p`: both are mapped to small letters. -/
def ilike
    (lower : Char → Char)
    (v : Option (List Char))
    (p : List Char) : Truth :=
  like (v.map (List.map lower)) (p.map lower)

@[simp]
theorem holds_like_escaped
    (v : Option (List Char))
    (t : List Char) :
    (like v (escaped t)).Holds ↔ v = some t := by
  have hParse := parsePattern_escaped t []
  rw [List.append_nil] at hParse
  cases v with
  | none => simp [like, Truth.Holds]
  | some v =>
      have hMatches := matches_exactly t v
      simp [like, hParse, parsePattern, hMatches]

@[simp]
theorem holds_like_start
    (v : Option (List Char))
    (t : List Char) :
    (like v (escaped t ++ ['%'])).Holds ↔
      ∃ w, v = some w ∧ t <+: w := by
  cases v with
  | none => simp [like, Truth.Holds]
  | some v =>
      have hMatches := matches_start t v
      simp [like, parsePattern_escaped, parsePattern, hMatches]

@[simp]
theorem holds_like_infix
    (v : Option (List Char))
    (t : List Char) :
    (like v ('%' :: (escaped t ++ ['%']))).Holds ↔
      ∃ w, v = some w ∧ t <:+: w := by
  cases v with
  | none => simp [like, Truth.Holds]
  | some v =>
      have hMatches := matches_infix t v
      simp [like, parsePattern_escaped, parsePattern, hMatches]

------------------------------------------------------------
-- Letters
------------------------------------------------------------

/- A map of letters that keeps the special signs apart. -/
structure KeepsSpecial (lower : Char → Char) : Prop where
  special : ∀ c, isSpecial c = true → lower c = c
  plain : ∀ c, isSpecial c = false →
    isSpecial (lower c) = false

/- Escaping and mapping letters can be done in any order. -/
theorem map_escaped
    {lower : Char → Char}
    (h : KeepsSpecial lower)
    (v : List Char) :
    (escaped v).map lower = escaped (v.map lower) := by
  have hEscape : lower '\\' = '\\' := h.special '\\' (by decide)
  induction v with
  | nil => rfl
  | cons c cs ih =>
      cases hSpecial : isSpecial c with
      | true =>
          have hSame := h.special c hSpecial
          have hLower : isSpecial (lower c) = true := by
            rw [hSame, hSpecial]
          have hCons : escaped (c :: cs) =
              '\\' :: c :: escaped cs := by
            simp [escaped, hSpecial]
          have hCons' : escaped ((c :: cs).map lower) =
              '\\' :: lower c :: escaped (cs.map lower) := by
            simp [escaped, hLower]
          rw [hCons, hCons', ← ih, List.map_cons,
            List.map_cons, hEscape]
      | false =>
          have hPlain := h.plain c hSpecial
          have hCons : escaped (c :: cs) = c :: escaped cs := by
            simp [escaped, hSpecial]
          have hCons' : escaped ((c :: cs).map lower) =
              lower c :: escaped (cs.map lower) := by
            simp [escaped, hPlain]
          rw [hCons, hCons', ← ih, List.map_cons]

end Sql
