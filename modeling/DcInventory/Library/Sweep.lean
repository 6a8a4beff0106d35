import Mathlib.Data.List.Sort
import Mathlib.Logic.Function.Iterate

/-
  This file defines runs that delete rows of a store in
  batches: a run asks for the keys of a batch, then it takes
  the rows one after the other, whatever others commit in
  between, and deletes what it has taken when it commits.

  Key definitions include:
    * `Sweeper`
    * `Swept.Step`
    * `Swept.Spares`
    * `Sweeper.Finishes`

  Key theorems include:
    * `Swept.Spares.deleted`
    * `Sweeper.Finishes.eq`
    * `Sweeper.repeats_eq`
    * `iterate_sweepRows`
-/

------------------------------------------------------------
-- Sweepers
------------------------------------------------------------

/-
  Stores `σ` whose rows have keys `κ`. A run is started with
  an input `ι` and asks queries for keys, each of which sees
  what the run itself has deleted. Others commit changes `γ`
  and wait for rows that a run has taken.
-/
structure Sweeper (σ κ ι γ : Type) where
  present : κ → σ → Prop
  remove : List κ → σ → σ
  queries : ι → List (σ → List κ)
  commits : γ → σ → σ → Prop
  sameRow : κ → σ → σ → Prop
  remove_nil : ∀ s, remove [] s = s
  remove_remove : ∀ ks js s,
    remove ks (remove js s) = remove (ks ++ js) s
  remove_congr : ∀ {ks js} s, (∀ k, k ∈ ks ↔ k ∈ js) →
    remove ks s = remove js s
  remove_absent : ∀ {k} ks {s}, ¬ present k s →
    remove (k :: ks) s = remove ks s

/- A run: what it has still to ask, to take, and has taken. -/
structure Sweep (σ κ ι : Type) where
  input : ι
  queries : List (σ → List κ)
  pending : List κ
  taken : List κ

/- A store, and the run that is in progress, if any. -/
structure Swept (σ κ ι : Type) where
  store : σ
  run : Option (Sweep σ κ ι)

namespace Swept

inductive Act (κ ι γ : Type) where
| commit (change : γ)
| start (input : ι)
| ask
| delete (input : ι) (key : κ)
| skip (key : κ)
| finish
| abort

variable {σ κ ι γ : Type}
variable [DecidableEq κ]

/- One step of the run or of others. -/
inductive Step (P : Sweeper σ κ ι γ) :
    Swept σ κ ι → Act κ ι γ → Swept σ κ ι → Prop where
| commit {s s' run change} :
    P.commits change s s' →
    (∀ r, run = some r → ∀ k ∈ r.taken, P.sameRow k s s') →
    Step P ⟨s, run⟩ (.commit change) ⟨s', run⟩
| start {s input} :
    Step P ⟨s, none⟩ (.start input)
      ⟨s, some ⟨input, P.queries input, [], []⟩⟩
| ask {s input q qs taken} :
    Step P ⟨s, some ⟨input, q :: qs, [], taken⟩⟩ .ask
      ⟨s, some ⟨input, qs, q (P.remove taken s), taken⟩⟩
| delete {s input qs pending taken k} :
    k ∈ pending →
    P.present k s →
    Step P ⟨s, some ⟨input, qs, pending, taken⟩⟩
      (.delete input k)
      ⟨s, some ⟨input, qs, pending.erase k, k :: taken⟩⟩
| skip {s input qs pending taken k} :
    k ∈ pending →
    ¬ P.present k s →
    Step P ⟨s, some ⟨input, qs, pending, taken⟩⟩ (.skip k)
      ⟨s, some ⟨input, qs, pending.erase k, taken⟩⟩
| finish {s input taken} :
    Step P ⟨s, some ⟨input, [], [], taken⟩⟩ .finish
      ⟨P.remove taken s, none⟩
| abort {s r} :
    Step P ⟨s, some r⟩ .abort ⟨s, none⟩

/- What steps lead to that are all permitted. -/
inductive Reachable
    (P : Sweeper σ κ ι γ)
    (permit : Swept σ κ ι → Act κ ι γ → Prop)
    (start : σ → Prop) : Swept σ κ ι → Prop where
| start {s} : start s → Reachable P permit start ⟨s, none⟩
| step {S a S'} :
    Reachable P permit start S →
    permit S a →
    Step P S a S' →
    Reachable P permit start S'

------------------------------------------------------------
-- What Is Deleted
------------------------------------------------------------

/-
  A property that the queries ask for, that deletions of
  other rows do not bring about, and that no permitted commit
  takes from a row that the run is about to take.
-/
structure Spares
    (P : Sweeper σ κ ι γ)
    (permit : Swept σ κ ι → Act κ ι γ → Prop)
    (dead : ι → κ → σ → Prop) : Prop where
  asked : ∀ i, ∀ q ∈ P.queries i, ∀ s, ∀ k ∈ q s, dead i k s
  kept : ∀ i ks k s, dead i k (P.remove ks s) → dead i k s
  stable : ∀ {s s' r change}, permit ⟨s, some r⟩
      (.commit change) →
    P.commits change s s' →
    ∀ k ∈ r.pending, dead r.input k s → dead r.input k s'

variable {P : Sweeper σ κ ι γ}
variable {permit : Swept σ κ ι → Act κ ι γ → Prop}
variable {dead : ι → κ → σ → Prop}
variable {start : σ → Prop}
variable {S S' : Swept σ κ ι}

/- What a run will take has the property until it is taken. -/
structure Sound
    (P : Sweeper σ κ ι γ)
    (dead : ι → κ → σ → Prop)
    (s : σ)
    (r : Sweep σ κ ι) : Prop where
  queries : ∀ q ∈ r.queries, q ∈ P.queries r.input
  pending : ∀ k ∈ r.pending, dead r.input k s

theorem Spares.step
    (h : Spares P permit dead)
    {a : Act κ ι γ}
    (hSound : ∀ r, S.run = some r → Sound P dead S.store r)
    (hPermit : permit S a)
    (hStep : Step P S a S') :
    ∀ r, S'.run = some r → Sound P dead S'.store r := by
  intro r hRun
  cases hStep with
  | @commit s s' run change hCommit hTaken =>
      rcases hSound r hRun with ⟨hQueries, hPending⟩
      refine ⟨hQueries, fun k hk => ?_⟩
      change run = some r at hRun
      subst hRun
      exact h.stable hPermit hCommit k hk (hPending k hk)
  | start =>
      cases hRun
      exact ⟨fun _ hq => hq, fun _ hk => absurd hk (by simp)⟩
  | @ask s input q qs taken =>
      rcases hSound _ rfl with ⟨hQueries, _⟩
      cases hRun
      refine ⟨fun p hp => hQueries p (by simp [hp]), ?_⟩
      intro k hk
      exact h.kept _ taken k s (h.asked input q
        (hQueries q (by simp)) _ k hk)
  | delete hMem _ =>
      rcases hSound _ rfl with ⟨hQueries, hPending⟩
      cases hRun
      exact ⟨hQueries, fun k hk =>
        hPending k (List.mem_of_mem_erase hk)⟩
  | skip hMem _ =>
      rcases hSound _ rfl with ⟨hQueries, hPending⟩
      cases hRun
      exact ⟨hQueries, fun k hk =>
        hPending k (List.mem_of_mem_erase hk)⟩
  | finish => cases hRun
  | abort => cases hRun

theorem Spares.reachable
    (h : Spares P permit dead)
    (hReach : Reachable P permit start S) :
    ∀ r, S.run = some r → Sound P dead S.store r := by
  induction hReach with
  | start _ =>
      intro r hRun
      cases hRun
  | step _ hPermit hStep ih => exact h.step ih hPermit hStep

/- Whatever is deleted has the property when it is taken. -/
theorem Spares.deleted
    (h : Spares P permit dead)
    (hReach : Reachable P permit start S)
    {i : ι}
    {k : κ}
    (hStep : Step P S (.delete i k) S') :
    dead i k S.store := by
  have hSound := h.reachable hReach
  cases hStep with
  | delete hMem _ => exact (hSound _ rfl).pending k hMem

end Swept

------------------------------------------------------------
-- Runs Without Others
------------------------------------------------------------

namespace Sweeper

variable {σ κ ι γ : Type}
variable [DecidableEq κ]

/- The run goes on to its commit while nobody else does. -/
inductive Finishes
    (P : Sweeper σ κ ι γ) :
    σ → Sweep σ κ ι → σ → Prop where
| finish {s r S'} :
    Swept.Step P ⟨s, some r⟩ .finish S' →
    Finishes P s r S'.store
| step {s r a s' r' s''} :
    Swept.Step P ⟨s, some r⟩ a ⟨s', some r'⟩ →
    (∀ change, a ≠ .commit change) →
    Finishes P s' r' s'' →
    Finishes P s r s''

/- The run is repeated `n` times, and nobody else commits. -/
inductive Repeats
    (P : Sweeper σ κ ι γ)
    (i : ι) : Nat → σ → σ → Prop where
| none {s} : Repeats P i 0 s s
| more {n s s' s''} :
    Finishes P s ⟨i, P.queries i, [], []⟩ s' →
    Repeats P i n s' s'' →
    Repeats P i (n + 1) s s''

/- All batches of these queries, one after the other. -/
def sweepAll
    (P : Sweeper σ κ ι γ)
    (s : σ)
    (queries : List (σ → List κ)) : σ :=
  queries.foldl (fun s q => P.remove (q s) s) s

variable {P : Sweeper σ κ ι γ}
variable {i : ι}
variable {s s' : σ}

/- The order in which rows are taken does not matter. -/
theorem Finishes.eq
    {r : Sweep σ κ ι}
    (h : P.Finishes s r s') :
    s' = P.sweepAll (P.remove (r.pending ++ r.taken) s)
      r.queries := by
  induction h with
  | finish hStep =>
      cases hStep
      rfl
  | @step s r a s' r' s'' hStep hOwn _ ih =>
      rw [ih]
      cases hStep with
      | commit _ _ => exact absurd rfl (hOwn _)
      | ask =>
          rw [sweepAll, sweepAll, List.foldl_cons,
            List.nil_append, P.remove_remove]
      | @delete _ input qs pending taken k hMem _ =>
          simp only
          congr 1
          apply P.remove_congr
          intro j
          have hErase := List.perm_cons_erase hMem
          simp [hErase.mem_iff, or_left_comm, or_assoc]
      | @skip _ input qs pending taken k hMem hAbsent =>
          simp only
          congr 1
          rw [← P.remove_absent (pending.erase k ++ taken)
            hAbsent]
          apply P.remove_congr
          intro j
          have hErase := List.perm_cons_erase hMem
          simp [hErase.mem_iff, or_assoc]

/- A run that nobody disturbs can take all of its batch. -/
theorem finishes_pending
    {input : ι}
    {queries : List (σ → List κ)}
    {pending taken : List κ}
    (hRest : ∀ taken, ∃ s',
      P.Finishes s ⟨input, queries, [], taken⟩ s') :
    ∃ s', P.Finishes s ⟨input, queries, pending, taken⟩
      s' := by
  induction pending generalizing taken with
  | nil => exact hRest taken
  | cons k ks ih =>
      by_cases hPresent : P.present k s
      · rcases @ih (k :: taken) with ⟨s', hFinishes⟩
        refine ⟨s', .step (.delete List.mem_cons_self hPresent)
          (by simp) ?_⟩
        rwa [List.erase_cons_head]
      · rcases @ih taken with ⟨s', hFinishes⟩
        refine ⟨s', .step (.skip List.mem_cons_self hPresent)
          (by simp) ?_⟩
        rwa [List.erase_cons_head]

theorem finishes_exists
    {input : ι}
    {queries : List (σ → List κ)}
    {pending taken : List κ} :
    ∃ s', P.Finishes s ⟨input, queries, pending, taken⟩
      s' := by
  induction queries generalizing pending taken with
  | nil =>
      apply finishes_pending
      exact fun taken => ⟨_, .finish .finish⟩
  | cons q qs ih =>
      apply finishes_pending
      intro taken
      rcases @ih (q (P.remove taken s)) taken with
        ⟨s', hFinishes⟩
      exact ⟨s', .step .ask (by simp) hFinishes⟩

/- What repeating the run alone leaves. -/
theorem repeats_eq
    {n : Nat}
    (h : P.Repeats i n s s') :
    s' = (fun s => P.sweepAll s (P.queries i))^[n] s := by
  induction h with
  | none => rfl
  | more hFinishes _ ih =>
      rw [ih, hFinishes.eq, Function.iterate_succ_apply,
        List.nil_append, P.remove_nil]

theorem repeats_exists
    (n : Nat) :
    ∃ s', P.Repeats i n s s' := by
  induction n generalizing s with
  | zero => exact ⟨s, .none⟩
  | succ n ih =>
      rcases finishes_exists (P := P) (s := s) with
        ⟨s₁, hFinishes⟩
      rcases @ih s₁ with ⟨s', hRepeats⟩
      exact ⟨s', .more hFinishes hRepeats⟩

end Sweeper

------------------------------------------------------------
-- Batches Of One Table
------------------------------------------------------------

section Batches

variable {ρ κ : Type}
variable [DecidableEq κ]
variable {key : ρ → κ}
variable {p : ρ → Bool}
variable {before : ρ → ρ → Prop}
variable [DecidableRel before]
variable {n : Nat}
variable {rows : List ρ}

/- The first rows that satisfy the condition. -/
def batchOf
    (p : ρ → Bool)
    (before : ρ → ρ → Prop)
    [DecidableRel before]
    (n : Nat)
    (rows : List ρ) : List ρ :=
  ((rows.filter p).insertionSort before).take n

/- The table without a batch of it. -/
def sweepRows
    (key : ρ → κ)
    (p : ρ → Bool)
    (before : ρ → ρ → Prop)
    [DecidableRel before]
    (n : Nat)
    (rows : List ρ) : List ρ :=
  rows.filter (fun r =>
    key r ∉ (batchOf p before n rows).map key)

theorem mem_batchOf
    {r : ρ}
    (h : r ∈ batchOf p before n rows) :
    r ∈ rows ∧ p r := by
  have hSorted := List.mem_of_mem_take h
  rw [List.mem_insertionSort] at hSorted
  exact List.mem_filter.mp hSorted

omit [DecidableEq κ] in
/- A row with a key of the batch is in the batch. -/
theorem mem_batchOf_of_key
    (hKeys : (rows.map key).Nodup)
    {r : ρ}
    (hMem : r ∈ rows)
    (h : key r ∈ (batchOf p before n rows).map key) :
    r ∈ batchOf p before n rows := by
  rcases List.mem_map.mp h with ⟨r', hBatch, hKey⟩
  have hSame : r' = r := List.inj_on_of_nodup_map hKeys
    (mem_batchOf hBatch).1 hMem hKey
  exact hSame ▸ hBatch

/- Rows that do not satisfy the condition stay. -/
theorem filter_not_sweepRows
    (hKeys : (rows.map key).Nodup) :
    (sweepRows key p before n rows).filter (fun r => ¬ p r) =
      rows.filter (fun r => ¬ p r) := by
  rw [sweepRows, List.filter_filter]
  apply List.filter_congr
  intro r hr
  by_cases hp : p r
  · simp [hp]
  · have hNot : key r ∉ (batchOf p before n rows).map key := by
      intro hKey
      exact hp (mem_batchOf (mem_batchOf_of_key hKeys hr
        hKey)).2
    simp [hp, hNot]

/- The batch is taken from the rows that satisfy it. -/
theorem length_sweepRows
    (hKeys : (rows.map key).Nodup) :
    ((sweepRows key p before n rows).filter p).length =
      (rows.filter p).length - n := by
  let sorted := (rows.filter p).insertionSort before
  have hPerm : sorted.Perm (rows.filter p) :=
    List.perm_insertionSort before _
  have hNodup : (sorted.map key).Nodup :=
    (hPerm.map key).nodup_iff.mpr
      (hKeys.sublist (List.filter_sublist.map key))
  have hRest : sorted.filter (fun r =>
      key r ∉ (sorted.take n).map key) = sorted.drop n := by
    have hSplit := List.take_append_drop n sorted
    have hDisjoint : ∀ r ∈ sorted.drop n,
        key r ∉ (sorted.take n).map key := by
      intro r hr hKey
      rw [← hSplit, List.map_append, List.nodup_append]
        at hNodup
      exact hNodup.2.2 _ hKey _ (List.mem_map_of_mem hr) rfl
    conv_lhs =>
      rw [← hSplit, List.filter_append]
    rw [hSplit]
    rw [List.filter_eq_nil_iff.mpr, List.filter_eq_self.mpr]
    · rfl
    · exact fun r hr => decide_eq_true (hDisjoint r hr)
    · intro r hr
      simp only [not_not, decide_not, Bool.not_eq_true',
        decide_eq_false_iff_not]
      exact List.mem_map_of_mem hr
  have hLength := congrArg List.length hRest
  rw [List.length_drop] at hLength
  rw [sweepRows, List.filter_filter, ← hPerm.length_eq,
    ← hLength]
  have hSame := (hPerm.filter (fun r =>
    key r ∉ (sorted.take n).map key)).length_eq
  rw [hSame, List.filter_filter]
  congr 1
  apply List.filter_congr
  intro r _
  exact Bool.and_comm _ _

/- Batches until no row is left that satisfies it. -/
theorem iterate_sweepRows
    (hBatch : 0 < n)
    (hKeys : (rows.map key).Nodup)
    {m : Nat}
    (hMany : (rows.filter p).length ≤ m) :
    (sweepRows key p before n)^[m] rows =
      rows.filter (fun r => ¬ p r) := by
  induction m generalizing rows with
  | zero =>
      have hNone : rows.filter p = [] :=
        List.eq_nil_of_length_eq_zero (by omega)
      symm
      rw [Function.iterate_zero, id, List.filter_eq_self]
      intro r hr
      have hNot := List.filter_eq_nil_iff.mp hNone r hr
      simpa using hNot
  | succ m ih =>
      have hLength :
          ((sweepRows key p before n rows).filter p).length =
            (rows.filter p).length - n :=
        length_sweepRows hKeys
      rw [Function.iterate_succ_apply, ih, filter_not_sweepRows
        hKeys]
      · exact hKeys.sublist (List.filter_sublist.map key)
      · omega

end Batches
