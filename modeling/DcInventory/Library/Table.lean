import Mathlib.Algebra.BigOperators.Group.List.Basic

/-
  This file defines tables as lists of rows with a key.

  Key definitions include:
    * `Table.find`
    * `Table.put`
    * `Table.erase`
    * `Table.rewrite`

  Key theorems include:
    * `Table.sum_join`
-/

namespace Table

variable {K R : Type} [DecidableEq K]

/- The first row with the given key. -/
def find (key : R → K) (k : K) (rows : List R) : Option R :=
  rows.find? (fun r => key r = k)

/- Replace the first row with the key of `r`, or append. -/
def put (key : R → K) (r : R) : List R → List R
| [] => [r]
| x :: xs =>
    if key x = key r then r :: xs else x :: put key r xs

/- Delete the rows with the given key. -/
def erase (key : R → K) (k : K) (rows : List R) : List R :=
  rows.filter (fun r => key r ≠ k)

/- Apply `f` to the rows with the given key. -/
def rewrite
    (key : R → K)
    (k : K)
    (f : R → R)
    (rows : List R) : List R :=
  rows.map (fun r => if key r = k then f r else r)

variable {key : R → K}

/- A row found by its key is a row of the table. -/
theorem mem_of_find
    {k : K}
    {rows : List R}
    {r : R}
    (h : find key k rows = some r) :
    r ∈ rows :=
  List.mem_of_find?_eq_some h

/- A row found by its key has that key. -/
theorem key_of_find
    {k : K}
    {rows : List R}
    {r : R}
    (h : find key k rows = some r) :
    key r = k := by
  simpa using List.find?_some h

/- Nothing is found exactly when no row has the key. -/
theorem find_eq_none_iff
    {k : K}
    {rows : List R} :
    find key k rows = none ↔ ∀ r ∈ rows, key r ≠ k := by
  simp [find]

/- With unique keys, a row is what its key finds. -/
theorem find_of_mem
    {rows : List R}
    {r : R}
    (hUnique : (rows.map key).Nodup)
    (hMem : r ∈ rows) :
    find key (key r) rows = some r := by
  induction rows with
  | nil => cases hMem
  | cons x xs ih =>
      rw [List.map_cons, List.nodup_cons] at hUnique
      rcases List.mem_cons.mp hMem with rfl | hTail
      · simp [find]
      · have hNe : key x ≠ key r := by
          intro hEq
          exact hUnique.1
            (hEq ▸ List.mem_map_of_mem hTail)
        simpa [find, hNe] using ih hUnique.2 hTail

@[simp]
theorem find_nil (k : K) :
    find key k ([] : List R) = none :=
  rfl

theorem find_append_of_none
    {k : K}
    {rows rows' : List R}
    (h : find key k rows = none) :
    find key k (rows ++ rows') = find key k rows' := by
  unfold find at h ⊢
  simp [List.find?_append, h]

theorem find_append_of_some
    {k : K}
    {rows rows' : List R}
    {r : R}
    (h : find key k rows = some r) :
    find key k (rows ++ rows') = some r := by
  unfold find at h ⊢
  simp [List.find?_append, h]

@[simp]
theorem find_put_self
    (r : R)
    (rows : List R) :
    find key (key r) (put key r rows) = some r := by
  induction rows with
  | nil => simp [put, find]
  | cons x xs ih =>
      unfold put
      split
      · simp [find]
      · rename_i hNe
        simpa [find, hNe] using ih

theorem find_put_of_ne
    {k : K}
    {r : R}
    (rows : List R)
    (h : key r ≠ k) :
    find key k (put key r rows) = find key k rows := by
  induction rows with
  | nil => simp [put, find, h]
  | cons x xs ih =>
      unfold put
      split
      · rename_i hEq
        have hx : key x ≠ k := by
          rw [hEq]
          exact h
        simp [find, h, hx]
      · by_cases hx : key x = k
        · simp [find, hx]
        · simpa [find, hx] using ih

@[simp]
theorem find_erase_self
    (k : K)
    (rows : List R) :
    find key k (erase key k rows) = none := by
  simp [find, erase]

theorem find_erase_of_ne
    {k k' : K}
    (rows : List R)
    (h : k' ≠ k) :
    find key k' (erase key k rows) = find key k' rows := by
  induction rows with
  | nil => rfl
  | cons x xs ih =>
      unfold find erase at ih ⊢
      by_cases hx : key x = k
      · subst hx
        simpa [h.symm] using ih
      · by_cases hx' : key x = k'
        · subst hx'
          simp [h]
        · simpa [hx, hx'] using ih

/- Rows are found as before when their keys are kept. -/
theorem find_rewrite
    {k k' : K}
    {f : R → R}
    (hKey : ∀ r, key (f r) = key r)
    (rows : List R) :
    find key k' (rewrite key k f rows) =
      (find key k' rows).map
        (fun r => if key r = k then f r else r) := by
  induction rows with
  | nil => rfl
  | cons x xs ih =>
      unfold find rewrite at ih ⊢
      by_cases hx : key x = k
      · by_cases hx' : k = k'
        · simp [hx, hx', hKey]
        · simpa [hx, hx', hKey] using ih
      · by_cases hx' : key x = k'
        · have hNe : k' ≠ k := fun hEq => hx (hx'.trans hEq)
          simp [hx', hNe]
        · simpa [hx, hx'] using ih

/- Rewriting keeps the keys when the rows keep theirs. -/
theorem map_key_rewrite
    {k : K}
    {f : R → R}
    (hKey : ∀ r, key (f r) = key r)
    (rows : List R) :
    (rewrite key k f rows).map key = rows.map key := by
  unfold rewrite
  rw [List.map_map]
  apply List.map_congr_left
  intro r _
  rw [Function.comp_apply]
  split
  · exact hKey r
  · rfl

/- With unique keys only the row with the key is rewritten. -/
theorem rewrite_of_mem
    {f : R → R}
    {rows : List R}
    {r : R}
    (hUnique : (rows.map key).Nodup)
    (hMem : r ∈ rows) :
    rewrite key (key r) f rows =
      rewrite key (key r) (fun _ => f r) rows := by
  apply List.map_congr_left
  intro x hx
  by_cases hKey : key x = key r
  · have hSame : x = r := by
      have hFind := find_of_mem hUnique hx
      rw [hKey, find_of_mem hUnique hMem] at hFind
      exact (Option.some.inj hFind).symm
    rw [hSame]
  · rw [if_neg hKey, if_neg hKey]

/- Rewriting a row twice is rewriting it once. -/
theorem rewrite_rewrite
    {k : K}
    {f g : R → R}
    (hKey : ∀ r, key (f r) = key r)
    (rows : List R) :
    rewrite key k g (rewrite key k f rows) =
      rewrite key k (g ∘ f) rows := by
  unfold rewrite
  rw [List.map_map]
  apply List.map_congr_left
  intro r _
  by_cases h : key r = k
  · simp [h, hKey]
  · simp [h]

/- A rewritten row that is filtered out before and after. -/
theorem filter_rewrite
    {k : K}
    {f : R → R}
    {p : R → Bool}
    {rows : List R}
    (hOut : ∀ r ∈ rows, key r = k →
      p r = false ∧ p (f r) = false) :
    (rewrite key k f rows).filter p = rows.filter p := by
  induction rows with
  | nil => rfl
  | cons x xs ih =>
      have hTail := ih fun r hr =>
        hOut r (List.mem_cons_of_mem x hr)
      unfold rewrite at hTail ⊢
      rw [List.map_cons, List.filter_cons, List.filter_cons,
        hTail]
      by_cases h : key x = k
      · rcases hOut x List.mem_cons_self h with ⟨hOld, hNew⟩
        rw [if_pos h, hOld, hNew]
        rfl
      · rw [if_neg h]

theorem mem_rewrite
    {k : K}
    {f : R → R}
    {rows : List R}
    {x : R} :
    x ∈ rewrite key k f rows ↔
      (x ∈ rows ∧ key x ≠ k) ∨
        ∃ r ∈ rows, key r = k ∧ f r = x := by
  simp only [rewrite, List.mem_map]
  constructor
  · rintro ⟨r, hr, rfl⟩
    by_cases h : key r = k
    · exact Or.inr ⟨r, hr, h, by rw [if_pos h]⟩
    · rw [if_neg h]
      exact Or.inl ⟨hr, h⟩
  · rintro (⟨hx, hKey⟩ | ⟨r, hr, hKey, rfl⟩)
    · exact ⟨x, hx, if_neg hKey⟩
    · exact ⟨r, hr, if_pos hKey⟩

/- A rewritten table has the rewritten row, or `r`. -/
theorem mem_put
    {r x : R}
    {rows : List R}
    (h : x ∈ put key r rows) :
    x = r ∨ (x ∈ rows) := by
  induction rows with
  | nil => exact Or.inl (by simpa [put] using h)
  | cons y ys ih =>
      unfold put at h
      split at h
      · rcases List.mem_cons.mp h with rfl | hTail
        · exact Or.inl rfl
        · exact Or.inr (List.mem_cons_of_mem y hTail)
      · rcases List.mem_cons.mp h with rfl | hTail
        · exact Or.inr List.mem_cons_self
        · rcases ih hTail with hEq | hOld
          · exact Or.inl hEq
          · exact Or.inr (List.mem_cons_of_mem y hOld)

/- Keys stay unique when a row is put. -/
theorem nodup_put
    {rows : List R}
    (r : R)
    (h : (rows.map key).Nodup) :
    ((put key r rows).map key).Nodup := by
  induction rows with
  | nil => simp [put]
  | cons x xs ih =>
      rw [List.map_cons, List.nodup_cons] at h
      unfold put
      split
      · rename_i hEq
        rw [List.map_cons, List.nodup_cons, ← hEq]
        exact h
      · rename_i hNe
        rw [List.map_cons, List.nodup_cons]
        refine ⟨?_, ih h.2⟩
        intro hMem
        rcases List.mem_map.mp hMem with ⟨y, hy, hKey⟩
        rcases mem_put hy with rfl | hOld
        · exact hNe hKey.symm
        · exact h.1 (hKey ▸ List.mem_map_of_mem hOld)

/- Keys stay unique when rows are erased. -/
theorem nodup_erase
    {rows : List R}
    (k : K)
    (h : (rows.map key).Nodup) :
    ((erase key k rows).map key).Nodup :=
  h.sublist (List.filter_sublist.map key)

/- A filter that keeps the rows of a key keeps what is found. -/
theorem find_filter
    {p : R → Bool}
    {k : K}
    {rows : List R}
    (h : ∀ r ∈ rows, key r = k → p r = true) :
    find key k (rows.filter p) = find key k rows := by
  induction rows with
  | nil => rfl
  | cons r rows ih =>
      have hRest := ih fun r' hr' =>
        h r' (List.mem_cons_of_mem r hr')
      unfold find at hRest ⊢
      by_cases hKey : key r = k
      · have hKept := h r List.mem_cons_self hKey
        simp [hKept, hKey]
      · by_cases hKept : p r = true
        · simpa [hKept, hKey] using hRest
        · simpa [hKept, hKey] using hRest

------------------------------------------------------------
-- Sums Over Joined Rows
------------------------------------------------------------

/- A sum over a filtered list. -/
theorem sum_map_filter
    {A M : Type} [AddCommMonoid M]
    (p : A → Bool)
    (f : A → M)
    (xs : List A) :
    ((xs.filter p).map f).sum =
      (xs.map (fun a => if p a then f a else 0)).sum := by
  induction xs with
  | nil => rfl
  | cons x xs ih =>
      by_cases hp : p x <;> simp [hp, ih]

/- Only the row that is found counts. -/
theorem sum_map_ite_key
    {M : Type} [AddCommMonoid M]
    {rows : List R}
    (hUnique : (rows.map key).Nodup)
    (k : K)
    (f : R → M) :
    (rows.map (fun r => if key r = k then f r else 0)).sum =
      ((find key k rows).map f).getD 0 := by
  induction rows with
  | nil => rfl
  | cons x xs ih =>
      rw [List.map_cons, List.nodup_cons] at hUnique
      rw [List.map_cons, List.sum_cons, ih hUnique.2]
      by_cases hx : key x = k
      · have hNone : find key k xs = none := by
          rw [find_eq_none_iff]
          intro r hr hEq
          exact hUnique.1
            (hx.trans hEq.symm ▸ List.mem_map_of_mem hr)
        rw [hNone]
        simp [find, hx]
      · simp [find, hx]

/-
  A sum over lines joined with the rows they refer to is a
  sum over the rows, each with its own lines.
-/
theorem sum_join
    {L M : Type} [AddCommMonoid M]
    {rows : List R}
    (hUnique : (rows.map key).Nodup)
    (ref : L → K)
    (g : R → L → M)
    (lines : List L) :
    ((lines.filterMap (fun l =>
      (find key (ref l) rows).map (fun r => (r, l)))).map
        (fun p => g p.1 p.2)).sum =
      (rows.map (fun r =>
        ((lines.filter (fun l => ref l = key r)).map
          (g r)).sum)).sum := by
  induction lines with
  | nil => simp
  | cons l lines ih =>
      have hSplit : ∀ r, (((l :: lines).filter
          (fun l => ref l = key r)).map (g r)).sum =
          (if key r = ref l then g r l else 0) +
            ((lines.filter (fun l => ref l = key r)).map
              (g r)).sum := by
        intro r
        by_cases hr : ref l = key r
        · simp [hr]
        · simp [hr, Ne.symm hr]
      simp only [hSplit, List.sum_map_add]
      rw [sum_map_ite_key hUnique (ref l) (fun r => g r l),
        ← ih]
      cases hFind : find key (ref l) rows with
      | none => simp [hFind]
      | some r => simp [hFind]

end Table
