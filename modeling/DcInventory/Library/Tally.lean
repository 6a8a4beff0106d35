import DcInventory.Library.Table
import Mathlib.Algebra.GroupWithZero.Nat
import Mathlib.Data.List.Nodup

/-
  This file defines the totals of amounts by key, and proves
  that the totals of all keys are the sum of the amounts.

  Key definitions include:
    * `Tally.total`

  Key theorems include:
    * `Tally.total_perm`
    * `Tally.sum_totals`
-/

namespace Tally

variable {K : Type}
variable [DecidableEq K]

/- The sum of the amounts of a key. -/
def total (k : K) (entries : List (K × Nat)) : Nat :=
  ((entries.filter (fun e => e.1 = k)).map Prod.snd).sum

@[simp]
theorem total_nil (k : K) : total k [] = 0 :=
  rfl

theorem total_cons
    (k : K)
    (e : K × Nat)
    (entries : List (K × Nat)) :
    total k (e :: entries) =
      (if e.1 = k then e.2 else 0) + total k entries := by
  unfold total
  by_cases hKey : e.1 = k
  · simp [hKey]
  · simp [hKey]

/- The order of the amounts does not matter. -/
theorem total_perm
    {entries entries' : List (K × Nat)}
    (h : entries.Perm entries')
    (k : K) :
    total k entries = total k entries' :=
  ((h.filter _).map _).sum_eq

/- A key that occurs has its amounts, others have none. -/
theorem total_eq_zero
    {k : K}
    {entries : List (K × Nat)}
    (h : ∀ e ∈ entries, e.1 ≠ k) :
    total k entries = 0 := by
  have hNone : entries.filter (fun e => e.1 = k) = [] := by
    rw [List.filter_eq_nil_iff]
    intro e he hKey
    exact h e he (of_decide_eq_true hKey)
  unfold total
  rw [hNone]
  rfl

/- An entry with a key of its own is the total of the key. -/
theorem total_of_nodup
    {k : K}
    {n : Nat}
    {entries : List (K × Nat)}
    (hNodup : (entries.map Prod.fst).Nodup)
    (hMem : (k, n) ∈ entries) :
    total k entries = n := by
  induction entries with
  | nil => cases hMem
  | cons e entries ih =>
      rw [List.map_cons, List.nodup_cons] at hNodup
      rw [total_cons]
      rcases List.mem_cons.mp hMem with rfl | hMem
      · rw [if_pos rfl, total_eq_zero, Nat.add_zero]
        intro e' he' hEq
        exact hNodup.1 (List.mem_map.mpr ⟨e', he', hEq⟩)
      · rw [if_neg, Nat.zero_add, ih hNodup.2 hMem]
        rintro rfl
        exact hNodup.1 (List.mem_map.mpr ⟨_, hMem, rfl⟩)

/- The totals of all keys are the sum of the amounts. -/
theorem sum_totals
    {ks : List K}
    {entries : List (K × Nat)}
    (hNodup : ks.Nodup)
    (hKeys : ∀ e ∈ entries, e.1 ∈ ks) :
    (ks.map (fun k => total k entries)).sum =
      (entries.map Prod.snd).sum := by
  induction entries with
  | nil => simp
  | cons e entries ih =>
      have hRest := ih fun e' he' =>
        hKeys e' (List.mem_cons_of_mem e he')
      have hOne : (ks.map (fun k =>
          if e.1 = k then e.2 else 0)).sum = e.2 := by
        have hIn := hKeys e List.mem_cons_self
        rw [List.sum_map_eq_nsmul_single e.1
          (fun k => if e.1 = k then e.2 else 0)
          (fun k hNe _ => if_neg hNe.symm),
          List.count_eq_one_of_mem hNodup hIn, one_nsmul,
          if_pos rfl]
      simp only [total_cons, List.sum_map_add, List.map_cons,
        List.sum_cons, hOne, hRest]

end Tally
