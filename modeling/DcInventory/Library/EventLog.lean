import DcInventory.Library.Table
import Mathlib.Data.List.Nodup

/-
  This file is about records that are kept beside a log: an
  entry of the log belongs to one record, and entries are only
  appended. What a record has to do with its own entries is
  kept by every step, whatever becomes of the other records.

  Key definitions include:
    * `EventLog.of`
    * `EventLog.Agrees`

  Key theorems include:
    * `EventLog.find_turned_self`
    * `EventLog.Agrees.create`
    * `EventLog.Agrees.turn`
-/

namespace EventLog

variable {R E K : Type}
variable [DecidableEq K]
variable {key : R → K}
variable {owner : E → K}

/- The entries of one record, in their order. -/
def of (owner : E → K) (k : K) (log : List E) : List E :=
  log.filter (fun e => owner e = k)

/- Records with unique keys agree with their own entries. -/
structure Agrees
    (key : R → K)
    (owner : E → K)
    (P : R → List E → Prop)
    (records : List R)
    (log : List E) : Prop where
  keys : (records.map key).Nodup
  owned : ∀ e ∈ log, ∃ r ∈ records, key r = owner e
  told : ∀ r ∈ records, P r (of owner (key r) log)

theorem of_append
    (k : K)
    (log added : List E) :
    of owner k (log ++ added) =
      of owner k log ++ of owner k added :=
  List.filter_append log added

theorem of_eq_self
    {k : K}
    {log : List E}
    (h : ∀ e ∈ log, owner e = k) :
    of owner k log = log :=
  List.filter_eq_self.mpr fun e he => decide_eq_true (h e he)

theorem of_eq_nil
    {k : K}
    {log : List E}
    (h : ∀ e ∈ log, owner e ≠ k) :
    of owner k log = [] :=
  List.filter_eq_nil_iff.mpr fun e he hEq =>
    h e he (of_decide_eq_true hEq)

/- The entries of others say nothing of a record. -/
theorem of_append_of_ne
    {k k' : K}
    {log added : List E}
    (hOwn : ∀ e ∈ added, owner e = k')
    (hNe : k' ≠ k) :
    of owner k (log ++ added) = of owner k log := by
  have hNone : of owner k added = [] :=
    of_eq_nil fun e he hEq => hNe ((hOwn e he).symm.trans hEq)
  rw [of_append, hNone, List.append_nil]

theorem of_append_own
    {k : K}
    {log added : List E}
    (hOwn : ∀ e ∈ added, owner e = k) :
    of owner k (log ++ added) = of owner k log ++ added := by
  rw [of_append, of_eq_self hOwn]

/- A record that turned is found in its new form. -/
theorem find_turned_self
    {records : List R}
    {old new : R}
    (h : Table.find key (key new) records = some old) :
    Table.find key (key new) (Table.rewrite key (key new)
      (fun _ => new) records) = some new := by
  induction records with
  | nil => cases h
  | cons r rs ih =>
      unfold Table.find Table.rewrite at *
      rw [List.map_cons, List.find?_cons]
      by_cases hKey : key r = key new
      · rw [if_pos hKey, decide_eq_true rfl]
      · rw [if_neg hKey, decide_eq_false hKey]
        rw [List.find?_cons, decide_eq_false hKey] at h
        exact ih h

theorem find_turned_of_ne
    {records : List R}
    {new : R}
    {k : K}
    (h : k ≠ key new) :
    Table.find key k (Table.rewrite key (key new)
      (fun _ => new) records) = Table.find key k records := by
  induction records with
  | nil => rfl
  | cons r rs ih =>
      unfold Table.find Table.rewrite at *
      rw [List.map_cons, List.find?_cons, List.find?_cons, ih]
      by_cases hKey : key r = key new
      · rw [if_pos hKey, decide_eq_false h.symm,
          decide_eq_false fun hEq => h (hEq.symm.trans hKey)]
      · rw [if_neg hKey]

section Steps

variable {P : R → List E → Prop}
variable {records : List R}
variable {log added : List E}

theorem Agrees.empty : Agrees key owner P [] [] where
  keys := List.nodup_nil
  owned := List.forall_mem_nil _
  told := List.forall_mem_nil _

/- A new record begins with the entries that come with it. -/
theorem Agrees.create
    {r : R}
    (h : Agrees key owner P records log)
    (hFresh : ∀ x ∈ records, key x ≠ key r)
    (hOwn : ∀ e ∈ added, owner e = key r)
    (hNew : P r added) :
    Agrees key owner P (records ++ [r]) (log ++ added) where
  keys := by
    rw [List.map_append, List.map_singleton,
      List.nodup_append]
    refine ⟨h.keys, List.nodup_singleton _, ?_⟩
    intro k hk k' hk' hSame
    rw [List.mem_singleton.mp hk'] at hSame
    rcases List.mem_map.mp hk with ⟨x, hx, hEq⟩
    exact hFresh x hx (hEq.trans hSame)
  owned := by
    intro e he
    rcases List.mem_append.mp he with hOld | hLast
    · rcases h.owned e hOld with ⟨x, hx, hKey⟩
      exact ⟨x, List.mem_append_left _ hx, hKey⟩
    · exact ⟨r, List.mem_append_right _
        (List.mem_singleton_self r), (hOwn e hLast).symm⟩
  told := by
    intro x hx
    rcases List.mem_append.mp hx with hOld | hLast
    · rw [of_append_of_ne hOwn (hFresh x hOld).symm]
      exact h.told x hOld
    · have hNone : of owner (key r) log = [] := by
        refine of_eq_nil fun e he hEq => ?_
        rcases h.owned e he with ⟨y, hy, hKey⟩
        exact hFresh y hy (hKey.trans hEq)
      rw [List.mem_singleton.mp hLast, of_append_own hOwn,
        hNone]
      exact hNew

/- A record turns with the entries that are appended. -/
theorem Agrees.turn
    {old new : R}
    (h : Agrees key owner P records log)
    (hFound : old ∈ records)
    (hKey : key new = key old)
    (hOwn : ∀ e ∈ added, owner e = key old)
    (hTurn : P old (of owner (key old) log) →
      P new (of owner (key old) log ++ added)) :
    Agrees key owner P
      (Table.rewrite key (key new) (fun _ => new) records)
      (log ++ added) where
  keys := by
    have hSame : (Table.rewrite key (key new) (fun _ => new)
        records).map key = records.map key := by
      unfold Table.rewrite
      rw [List.map_map]
      apply List.map_congr_left
      intro x _
      rw [Function.comp_apply]
      split
      · rename_i hEq
        exact hEq.symm
      · rfl
    rw [hSame]
    exact h.keys
  owned := by
    intro e he
    have hOwner : ∃ r ∈ records, key r = owner e := by
      rcases List.mem_append.mp he with hOld | hLast
      · exact h.owned e hOld
      · exact ⟨old, hFound, (hOwn e hLast).symm⟩
    rcases hOwner with ⟨r, hr, hEq⟩
    by_cases hSame : key r = key new
    · exact ⟨new, Table.mem_rewrite.mpr
        (.inr ⟨r, hr, hSame, rfl⟩), hSame.symm.trans hEq⟩
    · exact ⟨r, Table.mem_rewrite.mpr (.inl ⟨hr, hSame⟩), hEq⟩
  told := by
    intro x hx
    rcases Table.mem_rewrite.mp hx with
      ⟨hOld, hNe⟩ | ⟨_, _, _, rfl⟩
    · rw [hKey] at hNe
      rw [of_append_of_ne hOwn hNe.symm]
      exact h.told x hOld
    · rw [hKey, of_append_own hOwn]
      exact hTurn (h.told old hFound)

end Steps

end EventLog
