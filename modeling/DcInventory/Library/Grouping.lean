import DcInventory.Library.Table
import Mathlib.Data.List.FinRange

/-
  This file defines how records are grouped by a key: the
  first record of a group stands for it, and every other one
  is added to it.

  Key definitions include:
    * `Grouping.add`
    * `Grouping.groups`
    * `Grouping.combined`

  Key theorems include:
    * `Grouping.find_groups`
    * `Grouping.nodup_groups`
    * `Grouping.sum_groups`
    * `Grouping.exists_home`
    * `Grouping.groups_perm`
-/

namespace Grouping

variable {K R M : Type}
variable [DecidableEq K]
variable (key : R → K)
variable (combine : R → R → R)

/- A record, put into its group. -/
def add (grouped : List R) (r : R) : List R :=
  match Table.find key (key r) grouped with
  | none => Table.put key r grouped
  | some g => Table.put key (combine g r) grouped

def groups (records : List R) : List R :=
  records.foldl (add key combine) []

/- The group that records make together. -/
def combined : List R → Option R
| [] => none
| r :: records => some (records.foldl combine r)

variable {key combine}
variable (hKey : ∀ g r, key (combine g r) = key g)
include hKey

theorem find_add_self (grouped : List R) (r : R) :
    Table.find key (key r) (add key combine grouped r) =
      some (match Table.find key (key r) grouped with
        | none => r
        | some g => combine g r) := by
  unfold add
  cases hFind : Table.find key (key r) grouped with
  | none => exact Table.find_put_self r grouped
  | some g =>
      have hGroup : key (combine g r) = key r := by
        rw [hKey, Table.key_of_find hFind]
      simp only
      rw [← hGroup]
      exact Table.find_put_self (combine g r) grouped

theorem find_add_of_ne
    {k : K}
    (grouped : List R)
    {r : R}
    (hNe : key r ≠ k) :
    Table.find key k (add key combine grouped r) =
      Table.find key k grouped := by
  unfold add
  cases hFind : Table.find key (key r) grouped with
  | none => exact Table.find_put_of_ne grouped hNe
  | some g =>
      apply Table.find_put_of_ne grouped
      rw [hKey, Table.key_of_find hFind]
      exact hNe

/- Records go on with the group of their key. -/
theorem find_foldl_add
    (k : K)
    (grouped records : List R) :
    Table.find key k (records.foldl (add key combine) grouped) =
      match Table.find key k grouped with
      | none =>
          combined combine (records.filter (fun r => key r = k))
      | some g =>
          some ((records.filter (fun r => key r = k)).foldl
            combine g) := by
  induction records generalizing grouped with
  | nil =>
      cases hFind : Table.find key k grouped with
      | none => exact hFind
      | some g => exact hFind
  | cons r records ih =>
      rw [List.foldl_cons, ih]
      by_cases hSame : key r = k
      · subst hSame
        rw [find_add_self hKey, List.filter_cons_of_pos (by simp)]
        cases Table.find key (key r) grouped with
        | none => rfl
        | some g => rfl
      · rw [find_add_of_ne hKey grouped hSame,
          List.filter_cons_of_neg (by simpa using hSame)]

/- A group is made of the records with its key. -/
theorem find_groups (k : K) (records : List R) :
    Table.find key k (groups key combine records) =
      combined combine
        (records.filter (fun r => key r = k)) :=
  find_foldl_add hKey k [] records

omit hKey in
theorem nodup_foldl_add
    {grouped : List R}
    (records : List R)
    (h : (grouped.map key).Nodup) :
    ((records.foldl (add key combine) grouped).map
      key).Nodup := by
  induction records generalizing grouped with
  | nil => exact h
  | cons r records ih =>
      apply ih
      unfold add
      split
      · exact Table.nodup_put _ h
      · exact Table.nodup_put _ h

omit hKey in
theorem nodup_groups (records : List R) :
    ((groups key combine records).map key).Nodup :=
  nodup_foldl_add records List.nodup_nil

------------------------------------------------------------
-- Sums
------------------------------------------------------------

section Sums

variable [AddCommMonoid M]
variable {measure : R → M}
variable (hAdd : ∀ g r,
  measure (combine g r) = measure g + measure r)

omit hKey in
theorem sum_put_of_none
    {grouped : List R}
    {r : R}
    (h : Table.find key (key r) grouped = none) :
    ((Table.put key r grouped).map measure).sum =
      (grouped.map measure).sum + measure r := by
  induction grouped with
  | nil => simp [Table.put]
  | cons x xs ih =>
      rw [Table.find_eq_none_iff] at h
      have hHead : key x ≠ key r := h x List.mem_cons_self
      have hTail : Table.find key (key r) xs = none :=
        Table.find_eq_none_iff.mpr
          (fun y hy => h y (List.mem_cons_of_mem x hy))
      rw [Table.put, if_neg hHead, List.map_cons, List.sum_cons,
        ih hTail, List.map_cons, List.sum_cons, add_assoc]

include hAdd

theorem sum_put_of_some
    {grouped : List R}
    {g r : R}
    (h : Table.find key (key r) grouped = some g) :
    ((Table.put key (combine g r) grouped).map measure).sum =
      (grouped.map measure).sum + measure r := by
  have hGroup : key (combine g r) = key r := by
    rw [hKey, Table.key_of_find h]
  induction grouped with
  | nil => cases h
  | cons x xs ih =>
      by_cases hHead : key x = key r
      · have hFirst : x = g := by
          simpa [Table.find, hHead] using h
        subst hFirst
        rw [Table.put, if_pos (hHead.trans hGroup.symm),
          List.map_cons, List.sum_cons, hAdd, List.map_cons,
          List.sum_cons, add_assoc, add_assoc,
          add_comm (measure r)]
      · have hTail : Table.find key (key r) xs = some g := by
          simpa [Table.find, hHead] using h
        rw [Table.put, if_neg (by rw [hGroup]; exact hHead),
          List.map_cons, List.sum_cons, ih hTail,
          List.map_cons, List.sum_cons, add_assoc]

theorem sum_add (grouped : List R) (r : R) :
    ((add key combine grouped r).map measure).sum =
      (grouped.map measure).sum + measure r := by
  unfold add
  cases hFind : Table.find key (key r) grouped with
  | none => exact sum_put_of_none hFind
  | some g => exact sum_put_of_some hKey hAdd hFind

/- Nothing is lost and nothing is counted twice. -/
theorem sum_groups (records : List R) :
    ((groups key combine records).map measure).sum =
      (records.map measure).sum := by
  have hFold : ∀ grouped : List R,
      ((records.foldl (add key combine) grouped).map
        measure).sum =
      (grouped.map measure).sum + (records.map measure).sum := by
    induction records with
    | nil => intro grouped; simp
    | cons r records ih =>
        intro grouped
        rw [List.foldl_cons, ih, sum_add hKey hAdd,
          List.map_cons, List.sum_cons, add_assoc]
  have hAll := hFold []
  rw [List.map_nil, List.sum_nil, zero_add] at hAll
  exact hAll

end Sums

------------------------------------------------------------
-- Members
------------------------------------------------------------

theorem mem_groups_iff
    {g : R}
    {records : List R} :
    g ∈ groups key combine records ↔
      combined combine
        (records.filter (fun r => key r = key g)) = some g := by
  rw [← find_groups hKey]
  constructor
  · exact Table.find_of_mem (nodup_groups records)
  · exact Table.mem_of_find

theorem exists_group
    {records : List R}
    {r : R}
    (h : r ∈ records) :
    ∃ g ∈ groups key combine records, key g = key r := by
  have hFind := find_groups hKey (key r) records
  cases hRest : records.filter (fun x => key x = key r) with
  | nil =>
      have hMem : r ∈ records.filter
          (fun x => key x = key r) :=
        List.mem_filter.mpr ⟨h, decide_eq_true rfl⟩
      rw [hRest] at hMem
      cases hMem
  | cons x xs =>
      rw [hRest] at hFind
      exact ⟨_, Table.mem_of_find hFind, Table.key_of_find hFind⟩

omit hKey in
/- A group keeps what its first record has. -/
theorem same_of_combined
    {β : Type}
    {f : R → β}
    (hSame : ∀ g r, f (combine g r) = f g)
    {records : List R}
    {g : R}
    (h : combined combine records = some g) :
    ∃ r ∈ records, f g = f r := by
  cases records with
  | nil => cases h
  | cons r records =>
      cases h
      refine ⟨r, List.mem_cons_self, ?_⟩
      induction records generalizing r with
      | nil => rfl
      | cons x xs ih =>
          rw [List.foldl_cons, ih (combine r x), hSame]

omit hKey in
/- And of what is joined it has all. -/
theorem append_of_combined
    {β : Type}
    {f : R → List β}
    (hJoin : ∀ g r, f (combine g r) = f g ++ f r)
    {records : List R}
    {g : R}
    (h : combined combine records = some g) :
    f g = records.flatMap f := by
  cases records with
  | nil => cases h
  | cons r records =>
      cases h
      induction records generalizing r with
      | nil => exact (List.append_nil _).symm
      | cons x xs ih =>
          rw [List.foldl_cons, ih (combine r x),
            List.flatMap_cons, hJoin, List.append_assoc]
          rfl

/-
  Each record is in one group: those of a group are combined
  to it.
-/
theorem exists_home
    {X : Type}
    {f : X → R}
    {xs : List X}
    {gs : List R}
    (h : gs.Perm (groups key combine (xs.map f))) :
    ∃ home : Fin xs.length → Fin gs.length,
      (∀ i j, home i = j ↔
        key (f (xs.get i)) = key (gs.get j)) ∧
      ∀ j, combined combine
        (((List.finRange xs.length).filter
          (fun i => home i = j)).map (fun i => f (xs.get i))) =
            some (gs.get j) := by
  have hNodup : (gs.map key).Nodup :=
    (h.map key).nodup_iff.mpr (nodup_groups _)
  have hEach : ∀ i, ∃ j, key (gs.get j) =
      key (f (xs.get i)) := by
    intro i
    rcases exists_group hKey
      (List.mem_map_of_mem (f := f) (List.get_mem xs i)) with
        ⟨g, hMem, hSame⟩
    rcases List.mem_iff_get.mp (h.mem_iff.mpr hMem) with
      ⟨j, hAt⟩
    exact ⟨j, hAt ▸ hSame⟩
  choose home hHome using hEach
  have hIff : ∀ i j, home i = j ↔
      key (f (xs.get i)) = key (gs.get j) := by
    intro i j
    constructor
    · rintro rfl
      exact (hHome i).symm
    · intro hEq
      have hSame := (hHome i).trans hEq
      exact List.nodup_iff_injective_get.mp
        (List.Nodup.of_map key hNodup)
          (List.inj_on_of_nodup_map hNodup (List.get_mem gs _)
            (List.get_mem gs _) hSame)
  refine ⟨home, hIff, fun j => ?_⟩
  have hRecords : (List.finRange xs.length).map
      (fun i => f (xs.get i)) = xs.map f := by
    have hAll := congrArg (List.map f) (List.map_get_finRange xs)
    rw [List.map_map] at hAll
    exact hAll
  rw [← (mem_groups_iff hKey).mp
    (h.mem_iff.mp (List.get_mem gs j)), ← hRecords,
    List.filter_map]
  congr 2
  exact List.filter_congr fun i _ => decide_eq_decide.mpr
    (hIff i j)

------------------------------------------------------------
-- Orders
------------------------------------------------------------

section Orders

variable {I : Type}
variable [AddCommMonoid M]
variable {measure : R → M}
variable {ident : R → I}

/- What does not depend on the order of the records. -/
def summary
    (key : R → K)
    (measure : R → M)
    (ident : R → I)
    (r : R) : K × M × I :=
  (key r, measure r, ident r)

omit hKey in
theorem sum_of_combined
    (hAdd : ∀ g r, measure (combine g r) =
      measure g + measure r)
    {records : List R}
    {g : R}
    (h : combined combine records = some g) :
    measure g = (records.map measure).sum := by
  cases records with
  | nil => cases h
  | cons r records =>
      cases h
      induction records generalizing r with
      | nil => simp
      | cons x xs ih =>
          rw [List.foldl_cons, ih (combine r x), List.map_cons,
            List.sum_cons, hAdd, List.map_cons, List.sum_cons,
            List.map_cons, List.sum_cons, add_assoc]

theorem mem_summaries_iff
    (hAdd : ∀ g r, measure (combine g r) =
      measure g + measure r)
    (hSame : ∀ g r, ident (combine g r) = ident g)
    {records : List R}
    (hConst : ∀ r ∈ records, ∀ r' ∈ records,
      key r = key r' → ident r = ident r')
    {k : K}
    {m : M}
    {i : I} :
    (k, m, i) ∈ (groups key combine records).map
        (summary key measure ident) ↔
      (∃ r ∈ records, key r = k ∧ ident r = i) ∧
        m = ((records.filter (fun r => key r = k)).map
          measure).sum := by
  rw [List.mem_map]
  constructor
  · rintro ⟨g, hMem, hEq⟩
    cases hEq
    have hGroup := (mem_groups_iff hKey).mp hMem
    rcases same_of_combined hSame hGroup with ⟨r, hr, hIdent⟩
    rcases List.mem_filter.mp hr with ⟨hIn, hr⟩
    exact ⟨⟨r, hIn, of_decide_eq_true hr, hIdent.symm⟩,
      sum_of_combined hAdd hGroup⟩
  · rintro ⟨⟨r, hr, rfl, rfl⟩, rfl⟩
    rcases exists_group hKey hr with
      ⟨g, hMem, hEq⟩
    have hGroup := (mem_groups_iff hKey).mp hMem
    rw [hEq] at hGroup
    rcases same_of_combined hSame hGroup with ⟨r', hr', hIdent⟩
    rcases List.mem_filter.mp hr' with ⟨hIn, hr'⟩
    refine ⟨g, hMem, ?_⟩
    unfold summary
    rw [hEq, sum_of_combined hAdd hGroup, hIdent,
      hConst r' hIn r hr (of_decide_eq_true hr')]

/- The order of the records changes no group. -/
theorem groups_perm
    (hAdd : ∀ g r, measure (combine g r) =
      measure g + measure r)
    (hSame : ∀ g r, ident (combine g r) = ident g)
    {records records' : List R}
    (hConst : ∀ r ∈ records, ∀ r' ∈ records,
      key r = key r' → ident r = ident r')
    (h : (records'.map (summary key measure ident)).Perm
      (records.map (summary key measure ident))) :
    ((groups key combine records').map
        (summary key measure ident)).Perm
      ((groups key combine records).map
        (summary key measure ident)) := by
  have hSome : ∀ {k : K} {i : I} {rs : List R},
      (∃ r ∈ rs, key r = k ∧ ident r = i) ↔
        ∃ x ∈ rs.map (summary key measure ident),
          x.1 = k ∧ x.2.2 = i := by
    intro k i rs
    simp only [List.mem_map, exists_exists_and_eq_and, summary]
  have hSum : ∀ {k : K} {rs : List R},
      (rs.filter (fun r => key r = k)).map measure =
        ((rs.map (summary key measure ident)).filter
          (fun x => x.1 = k)).map (fun x => x.2.1) := by
    intro k rs
    rw [List.filter_map, List.map_map]
    rfl
  have hConst' : ∀ r ∈ records', ∀ r' ∈ records',
      key r = key r' → ident r = ident r' := by
    intro r hr r' hr' hEq
    rcases List.mem_map.mp (h.mem_iff.mp
      (List.mem_map_of_mem (f := summary key measure ident)
        hr)) with ⟨x, hx, hX⟩
    rcases List.mem_map.mp (h.mem_iff.mp
      (List.mem_map_of_mem (f := summary key measure ident)
        hr')) with ⟨y, hy, hY⟩
    simp only [summary, Prod.mk.injEq] at hX hY
    rw [← hX.2.2, ← hY.2.2]
    apply hConst x hx y hy
    rw [hX.1, hY.1, hEq]
  have hNodup : ∀ rs : List R, ((groups key combine rs).map
      (summary key measure ident)).Nodup := by
    intro rs
    apply List.Nodup.of_map Prod.fst
    rw [List.map_map]
    exact nodup_groups rs
  rw [List.perm_ext_iff_of_nodup (hNodup _) (hNodup _)]
  rintro ⟨k, m, i⟩
  rw [mem_summaries_iff hKey hAdd hSame hConst',
    mem_summaries_iff hKey hAdd hSame hConst, hSome, hSome,
    hSum, hSum]
  have hMem : ∀ x, x ∈ records'.map
      (summary key measure ident) ↔
        x ∈ records.map (summary key measure ident) :=
    fun _ => h.mem_iff
  simp only [hMem]
  rw [((h.filter (fun x => decide (x.1 = k))).map
    (fun x => x.2.1)).sum_eq]

end Orders

end Grouping
