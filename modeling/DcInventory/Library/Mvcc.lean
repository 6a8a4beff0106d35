import Mathlib.Data.List.Dedup
import Mathlib.Logic.Relation
import Mathlib.Order.MinMax

/-
  This file defines a table that rows are only added to, as a
  database with versions keeps it: each row names the
  transaction that inserted it, and a statement sees the rows
  of the transactions that have committed. A snapshot tells
  which transactions were over when it was taken.

  Whatever transactions do later, the rows that are committed
  and in the snapshot are those that were committed when it
  was taken.

  Key definitions include:
    * `Mvcc.Store`
    * `Mvcc.Step`
    * `Mvcc.Store.currentSnapshot`
    * `Mvcc.Snapshot.visible`
    * `Mvcc.Snapshot.text`
    * `Mvcc.Store.Valid`
    * `Mvcc.Later`

  Key theorems include:
    * `Mvcc.visible_iff`
    * `Mvcc.later_of_run`
    * `Mvcc.filter_visible`
    * `Mvcc.ofText_currentSnapshot`
-/

namespace Mvcc

------------------------------------------------------------
-- Stores
------------------------------------------------------------

/- A row with the transaction that inserted it. -/
structure Tuple (R : Type) where
  xmin : Nat
  row : R
deriving DecidableEq, Repr

/-
  Transactions are numbered in the order they begin; the
  latest that is over is kept for snapshots.
-/
structure Store (R : Type) where
  nextXid : Nat
  latestCompleted : Nat
  running : List Nat
  committed : List Nat
  tuples : List (Tuple R)

/- A snapshot: what was running, between two bounds. -/
structure Snapshot where
  xmin : Nat
  xmax : Nat
  xip : List Nat
deriving DecidableEq, Repr

inductive Status where
| inProgress
| committed
| aborted
deriving DecidableEq, Repr

variable {R K : Type}

namespace Store

/- A table without rows, before the first transaction. -/
def empty (first : Nat) : Store R where
  nextXid := first
  latestCompleted := first - 1
  running := []
  committed := []
  tuples := []

/- The running transactions are kept in ascending order. -/
def currentSnapshot (s : Store R) : Snapshot :=
  let xmax := s.latestCompleted + 1
  let xip := s.running.filter (· < xmax)
  ⟨xip.head?.getD xmax, xmax, xip⟩

/- What has become of a transaction, if it has begun. -/
def status (s : Store R) (x : Nat) : Option Status :=
  if x ∈ s.running then some .inProgress
  else if x ∈ s.committed then some .committed
  else if x < s.nextXid then some .aborted
  else none

/- What a statement sees. -/
def visible (s : Store R) : List (Tuple R) :=
  s.tuples.filter (fun t => t.xmin ∈ s.committed)

def rows (s : Store R) : List R :=
  s.visible.map Tuple.row

end Store

/- Whether a transaction was over when this was taken. -/
def Snapshot.visible (snapshot : Snapshot) (x : Nat) : Bool :=
  if x < snapshot.xmin then true
  else if snapshot.xmax ≤ x then false
  else decide (x ∉ snapshot.xip)

/- Any transactions run; a key is given to one row only. -/
inductive Step (key : R → K) : Store R → Store R → Prop where
| begin (s : Store R) :
    Step key s { s with
      nextXid := s.nextXid + 1
      running := s.running ++ [s.nextXid] }
| insert (s : Store R) (t : Tuple R) :
    t.xmin ∈ s.running →
    (∀ u ∈ s.tuples, key u.row ≠ key t.row) →
    Step key s { s with tuples := s.tuples ++ [t] }
| commit (s : Store R) (x : Nat) :
    x ∈ s.running →
    Step key s { s with
      running := s.running.filter (· ≠ x)
      committed := s.committed ++ [x]
      latestCompleted := max s.latestCompleted x }
| abort (s : Store R) (x : Nat) :
    x ∈ s.running →
    Step key s { s with
      running := s.running.filter (· ≠ x)
      latestCompleted := max s.latestCompleted x }

/- Any number of steps. -/
abbrev Run (key : R → K) : Store R → Store R → Prop :=
  Relation.ReflTransGen (Step key)

------------------------------------------------------------
-- Validity
------------------------------------------------------------

structure Store.Valid (key : R → K) (s : Store R) : Prop where
  positive : 0 < s.nextXid
  ordered : s.running.Pairwise (· < ·)
  ahead : ∀ x ∈ s.running, 0 < x ∧ x < s.nextXid
  completed : s.latestCompleted < s.nextXid
  later : ∀ x, s.latestCompleted < x → x < s.nextXid →
    x ∈ s.running
  ended : ∀ x ∈ s.committed, x ∉ s.running ∧ x < s.nextXid
  began : ∀ t ∈ s.tuples, t.xmin < s.nextXid
  keys : (s.tuples.map (fun t => key t.row)).Nodup

variable {key : R → K}
variable {s s' s'' : Store R}

theorem valid_empty
    {first : Nat}
    (hFirst : 0 < first) :
    (Store.empty first : Store R).Valid key where
  positive := hFirst
  ordered := List.Pairwise.nil
  ahead := by simp [Store.empty]
  completed := by
    simp only [Store.empty]
    omega
  later := by
    simp only [Store.empty]
    omega
  ended := by simp [Store.empty]
  began := by simp [Store.empty]
  keys := by simp [Store.empty]

private theorem mem_without
    {running : List Nat}
    {x y : Nat} :
    y ∈ running.filter (· ≠ x) ↔ y ∈ running ∧ y ≠ x := by
  simp

/- One transaction is over. -/
private theorem Store.Valid.complete
    (hValid : s.Valid key)
    {x : Nat}
    {committed : List Nat}
    (hRunning : x ∈ s.running)
    (hCommitted : ∀ y ∈ committed, y ∈ s.committed ∨ y = x) :
    Store.Valid key { s with
      running := s.running.filter (· ≠ x)
      committed := committed
      latestCompleted := max s.latestCompleted x } where
  positive := hValid.positive
  ordered := hValid.ordered.filter _
  ahead := fun y hy =>
    hValid.ahead y (mem_without.mp hy).1
  completed := max_lt hValid.completed
    (hValid.ahead x hRunning).2
  later := by
    intro y hLate hBegun
    have hLater := max_lt_iff.mp hLate
    exact mem_without.mpr
      ⟨hValid.later y hLater.1 hBegun, by omega⟩
  ended := by
    intro y hy
    rcases hCommitted y hy with hOld | rfl
    · exact ⟨fun hRun => (hValid.ended y hOld).1
        (mem_without.mp hRun).1, (hValid.ended y hOld).2⟩
    · exact ⟨fun hRun => (mem_without.mp hRun).2 rfl,
        (hValid.ahead y hRunning).2⟩
  began := hValid.began
  keys := hValid.keys

theorem Store.Valid.step
    (hValid : s.Valid key)
    (hStep : Step key s s') :
    s'.Valid key := by
  cases hStep with
  | begin =>
      refine ⟨Nat.succ_pos _, ?_, ?_, ?_, ?_, ?_, ?_,
        hValid.keys⟩
      · refine List.pairwise_append.mpr
          ⟨hValid.ordered, List.pairwise_singleton _ _, ?_⟩
        intro x hx y hy
        rw [List.mem_singleton.mp hy]
        exact (hValid.ahead x hx).2
      · intro x hx
        rcases List.mem_append.mp hx with hOld | hNew
        · exact ⟨(hValid.ahead x hOld).1,
            Nat.lt_succ_of_lt (hValid.ahead x hOld).2⟩
        · rw [List.mem_singleton.mp hNew]
          exact ⟨hValid.positive, Nat.lt_succ_self _⟩
      · exact Nat.lt_succ_of_lt hValid.completed
      · intro x hLate hBegun
        rcases Nat.lt_succ_iff_lt_or_eq.mp hBegun with
          hOld | rfl
        · exact List.mem_append_left _
            (hValid.later x hLate hOld)
        · exact List.mem_append_right _
            (List.mem_singleton.mpr rfl)
      · intro x hx
        rcases hValid.ended x hx with ⟨hNot, hBegun⟩
        refine ⟨?_, Nat.lt_succ_of_lt hBegun⟩
        intro hRun
        rcases List.mem_append.mp hRun with hOld | hNew
        · exact hNot hOld
        · exact absurd (List.mem_singleton.mp hNew) (by omega)
      · exact fun t ht => Nat.lt_succ_of_lt (hValid.began t ht)
  | insert t hRunning hFresh =>
      refine ⟨hValid.positive, hValid.ordered, hValid.ahead,
        hValid.completed, hValid.later, hValid.ended, ?_, ?_⟩
      · intro u hu
        rcases List.mem_append.mp hu with hOld | hNew
        · exact hValid.began u hOld
        · rw [List.mem_singleton.mp hNew]
          exact (hValid.ahead _ hRunning).2
      · rw [List.map_append, List.nodup_append]
        refine ⟨hValid.keys, by simp, ?_⟩
        intro k hOld k' hNew hEq
        rcases List.mem_map.mp hOld with ⟨u, hu, rfl⟩
        rw [List.map_singleton, List.mem_singleton] at hNew
        exact hFresh u hu (hEq.trans hNew)
  | commit x hRunning =>
      refine hValid.complete hRunning fun y hy => ?_
      simpa using hy
  | abort x hRunning =>
      exact hValid.complete hRunning fun y hy => Or.inl hy

theorem Store.Valid.run
    (hValid : s.Valid key)
    (hRun : Run key s s') :
    s'.Valid key := by
  induction hRun with
  | refl => exact hValid
  | tail _ hStep ih => exact ih.step hStep

------------------------------------------------------------
-- Snapshots
------------------------------------------------------------

private theorem mem_xip {x : Nat} :
    x ∈ s.currentSnapshot.xip ↔
      x ∈ s.running ∧ x < s.currentSnapshot.xmax := by
  simp [Store.currentSnapshot]

/- The lower bound is the oldest that runs, or the upper. -/
private theorem xmin_cases (s : Store R) :
    (∃ x xs, s.currentSnapshot.xip = x :: xs ∧
        s.currentSnapshot.xmin = x) ∨
      s.currentSnapshot.xip = [] ∧
        s.currentSnapshot.xmin = s.currentSnapshot.xmax := by
  unfold Store.currentSnapshot
  simp only
  cases s.running.filter (· < s.latestCompleted + 1) with
  | nil => exact Or.inr ⟨rfl, rfl⟩
  | cons x xs => exact Or.inl ⟨x, xs, rfl, rfl⟩

private theorem xip_ordered
    (hValid : s.Valid key) :
    s.currentSnapshot.xip.Pairwise (· < ·) :=
  hValid.ordered.filter _

private theorem xmin_le_of_mem
    (hValid : s.Valid key)
    {x : Nat}
    (hMem : x ∈ s.currentSnapshot.xip) :
    s.currentSnapshot.xmin ≤ x := by
  have hOrdered := xip_ordered hValid
  rcases xmin_cases s with ⟨y, ys, hxip, hMin⟩ | ⟨hNil, _⟩
  · rw [hxip] at hMem hOrdered
    rw [hMin]
    rcases List.mem_cons.mp hMem with rfl | hMem
    · exact le_refl _
    · exact le_of_lt ((List.pairwise_cons.mp hOrdered).1 x hMem)
  · rw [hNil] at hMem
    cases hMem

private theorem xmin_le_xmax (s : Store R) :
    s.currentSnapshot.xmin ≤ s.currentSnapshot.xmax := by
  rcases xmin_cases s with ⟨y, ys, hxip, hMin⟩ | ⟨_, hMin⟩
  · rw [hMin]
    refine le_of_lt (mem_xip.mp ?_).2
    rw [hxip]
    exact List.mem_cons_self
  · exact le_of_eq hMin

/- A snapshot shows the transactions that are over. -/
theorem visible_iff
    (hValid : s.Valid key)
    (x : Nat) :
    s.currentSnapshot.visible x = true ↔
      x < s.nextXid ∧ x ∉ s.running := by
  have hCompleted := hValid.completed
  have hBound := xmin_le_xmax s
  have hMax : s.currentSnapshot.xmax =
      s.latestCompleted + 1 := rfl
  unfold Snapshot.visible
  split_ifs with hBelow hAbove
  · refine iff_of_true rfl ⟨by omega, fun hRunning => ?_⟩
    have hLow := xmin_le_of_mem hValid
      (mem_xip.mpr ⟨hRunning, by omega⟩)
    omega
  · refine iff_of_false (by simp) ?_
    rintro ⟨hBegun, hNot⟩
    exact hNot (hValid.later x (by omega) hBegun)
  · rw [decide_eq_true_iff, mem_xip]
    constructor
    · exact fun hNot => ⟨by omega,
        fun hRunning => hNot ⟨hRunning, by omega⟩⟩
    · exact fun h hRunning => h.2 hRunning.1

/- What later steps leave as it was. -/
structure Later (s s' : Store R) : Prop where
  next : s.nextXid ≤ s'.nextXid
  running : ∀ x ∈ s'.running, x ∈ s.running ∨ s.nextXid ≤ x
  settled : ∀ x, x < s.nextXid → x ∉ s.running →
    (x ∈ s'.committed ↔ x ∈ s.committed)
  grows : ∃ new, s'.tuples = s.tuples ++ new ∧
    ∀ t ∈ new, t.xmin ∈ s.running ∨ s.nextXid ≤ t.xmin

theorem Later.refl (s : Store R) : Later s s where
  next := le_refl _
  running := fun _ hx => Or.inl hx
  settled := fun _ _ _ => Iff.rfl
  grows := ⟨[], (List.append_nil _).symm, by simp⟩

/- A step does nothing to what is over. -/
theorem Later.step
    (hLater : Later s s')
    (hStep : Step key s' s'') :
    Later s s'' := by
  cases hStep with
  | begin =>
      refine ⟨Nat.le_succ_of_le hLater.next, ?_,
        hLater.settled, hLater.grows⟩
      intro x hx
      rcases List.mem_append.mp hx with hOld | hNew
      · exact hLater.running x hOld
      · rw [List.mem_singleton.mp hNew]
        exact Or.inr hLater.next
  | insert t hRunning hFresh =>
      rcases hLater.grows with ⟨new, hTuples, hNew⟩
      refine ⟨hLater.next, hLater.running, hLater.settled,
        new ++ [t], ?_, ?_⟩
      · simp only [hTuples, List.append_assoc]
      · intro u hu
        rcases List.mem_append.mp hu with hOld | hLast
        · exact hNew u hOld
        · rw [List.mem_singleton.mp hLast]
          exact hLater.running _ hRunning
  | commit x hRunning =>
      refine ⟨hLater.next, ?_, ?_, hLater.grows⟩
      · exact fun y hy =>
          hLater.running y (List.mem_filter.mp hy).1
      · intro y hBegun hNot
        rw [← hLater.settled y hBegun hNot]
        refine Iff.trans List.mem_append (or_iff_left ?_)
        intro hLast
        rw [List.mem_singleton.mp hLast] at hBegun hNot
        rcases hLater.running x hRunning with hOld | hAhead
        · exact hNot hOld
        · omega
  | abort x hRunning =>
      exact ⟨hLater.next, fun y hy =>
        hLater.running y (List.mem_filter.mp hy).1,
        hLater.settled, hLater.grows⟩

theorem later_of_run
    (hRun : Run key s s') :
    Later s s' := by
  induction hRun with
  | refl => exact Later.refl s
  | tail _ hStep ih => exact ih.step hStep

/-
  What is committed later and was over in the snapshot is
  what was committed when it was taken.
-/
theorem filter_visible
    (hValid : s.Valid key)
    (hLater : Later s s') :
    s'.visible.filter
        (fun t => s.currentSnapshot.visible t.xmin) =
      s.visible := by
  rcases hLater.grows with ⟨new, hTuples, hNew⟩
  have hHidden : new.filter (fun t =>
      s.currentSnapshot.visible t.xmin &&
        decide (t.xmin ∈ s'.committed)) = [] := by
    refine List.filter_eq_nil_iff.mpr ?_
    intro t ht hShown
    have hOver := (visible_iff hValid _).mp
      (Bool.and_eq_true_iff.mp hShown).1
    rcases hNew t ht with hRunning | hAhead
    · exact hOver.2 hRunning
    · omega
  have hKept : s.tuples.filter (fun t =>
      s.currentSnapshot.visible t.xmin &&
        decide (t.xmin ∈ s'.committed)) =
      s.tuples.filter (fun t => t.xmin ∈ s.committed) := by
    refine List.filter_congr fun t ht => ?_
    have hBegun := hValid.began t ht
    rw [Bool.eq_iff_iff, Bool.and_eq_true, visible_iff hValid,
      decide_eq_true_iff, decide_eq_true_iff]
    constructor
    · rintro ⟨⟨_, hNot⟩, hCommitted⟩
      exact (hLater.settled _ hBegun hNot).mp hCommitted
    · intro hCommitted
      have hNot := (hValid.ended _ hCommitted).1
      exact ⟨⟨hBegun, hNot⟩,
        (hLater.settled _ hBegun hNot).mpr hCommitted⟩
  unfold Store.visible
  rw [List.filter_filter, hTuples, List.filter_append, hHidden,
    hKept, List.append_nil]

/- Nothing that a statement sees is still in progress. -/
theorem status_of_visible
    (hValid : s.Valid key)
    {t : Tuple R}
    (hMem : t ∈ s.visible) :
    s.status t.xmin = some .committed := by
  have hCommitted : t.xmin ∈ s.committed :=
    of_decide_eq_true (List.mem_filter.mp hMem).2
  unfold Store.status
  rw [if_neg (hValid.ended _ hCommitted).1, if_pos hCommitted]

/- The bounds, and what was running between them. -/
def Snapshot.text (s : Snapshot) : List Char :=
  Nat.toDigits 10 s.xmin ++ ':' ::
    (Nat.toDigits 10 s.xmax ++ ':' ::
      [','].intercalate (s.xip.map (Nat.toDigits 10)))

def number? (v : List Char) : Option Nat :=
  if v ≠ [] ∧ v.all Char.isDigit = true then
    some (Nat.ofDigitChars 10 v 0)
  else none

/- What a snapshot must be to be read. -/
def Snapshot.Sane (s : Snapshot) : Prop :=
  0 < s.xmin ∧ s.xmin ≤ s.xmax ∧
    s.xip.Pairwise (· ≤ ·) ∧
    ∀ x ∈ s.xip, s.xmin ≤ x ∧ x < s.xmax

instance (s : Snapshot) : Decidable s.Sane := by
  unfold Snapshot.Sane
  infer_instance

def running? (v : List Char) : Option (List Nat) :=
  if v = [] then some [] else (v.splitOn ',').mapM number?

/- Repetitions are passed over. -/
def Snapshot.ofText? (v : List Char) : Option Snapshot :=
  match v.splitOn ':' with
  | [low, high, between] => do
      let xmin ← number? low
      let xmax ← number? high
      let xip ← running? between
      if Snapshot.Sane ⟨xmin, xmax, xip⟩ then
        some ⟨xmin, xmax, xip.dedup⟩
      else none
  | _ => none

theorem number_toDigits (n : Nat) :
    number? (Nat.toDigits 10 n) = some n := by
  have hDigits : (Nat.toDigits 10 n).all Char.isDigit =
      true := List.all_eq_true.mpr fun c hc =>
    Nat.isDigit_of_mem_toDigits (by decide) (by decide) hc
  rw [number?, if_pos ⟨Nat.toDigits_ne_nil, hDigits⟩,
    Nat.ofDigitChars_ten_toDigits]

private theorem not_mem_toDigits
    {c : Char}
    (hOther : c.isDigit = false)
    (n : Nat) :
    c ∉ Nat.toDigits 10 n := by
  intro hMem
  have hDigit := Nat.isDigit_of_mem_toDigits
    (by decide) (by decide) hMem
  rw [hOther] at hDigit
  cases hDigit

private theorem mapM_numbers (xs : List Nat) :
    (xs.map (Nat.toDigits 10)).mapM number? = some xs := by
  induction xs with
  | nil => rfl
  | cons x xs ih =>
      rw [List.map_cons, List.mapM_cons, number_toDigits, ih]
      rfl

private theorem splitOn_numbers
    {xs : List Nat}
    (hSome : xs ≠ []) :
    ([','].intercalate (xs.map (Nat.toDigits 10))).splitOn ',' =
      xs.map (Nat.toDigits 10) := by
  apply List.splitOn_intercalate
  · intro v hv
    rcases List.mem_map.mp hv with ⟨x, _, rfl⟩
    exact not_mem_toDigits rfl x
  · simpa using hSome

private theorem intercalate_ne_nil
    {xs : List Nat}
    (hSome : xs ≠ []) :
    [','].intercalate (xs.map (Nat.toDigits 10)) ≠ [] := by
  intro hNil
  have hSplit := splitOn_numbers hSome
  rw [hNil, List.splitOn_nil] at hSplit
  cases xs with
  | nil => exact hSome rfl
  | cons x xs =>
      injection hSplit with hHead
      exact Nat.toDigits_ne_nil hHead.symm

private theorem colon_not_mem (xs : List Nat) :
    ':' ∉ [','].intercalate (xs.map (Nat.toDigits 10)) := by
  induction xs with
  | nil => simp
  | cons x xs ih =>
      have hDigits : ':' ∉ Nat.toDigits 10 x :=
        not_mem_toDigits rfl x
      cases xs with
      | nil => simpa using hDigits
      | cons y ys =>
          rw [List.map_cons, List.map_cons,
            List.intercalate_cons_cons]
          simp only [List.mem_append, not_or]
          exact ⟨⟨hDigits, by decide⟩, ih⟩

/- A snapshot is read as it was written. -/
theorem ofText_text
    {s : Snapshot}
    (hSane : s.Sane)
    (hDistinct : s.xip.Nodup) :
    Snapshot.ofText? s.text = some s := by
  have hParts : s.text.splitOn ':' =
      [Nat.toDigits 10 s.xmin, Nat.toDigits 10 s.xmax,
        [','].intercalate (s.xip.map (Nat.toDigits 10))] := by
    unfold Snapshot.text
    rw [List.splitOn_append_cons_self_of_not_mem
        (not_mem_toDigits rfl s.xmin),
      List.splitOn_append_cons_self_of_not_mem
        (not_mem_toDigits rfl s.xmax),
      List.splitOn_eq_singleton (colon_not_mem s.xip)]
  have hBetween : running? ([','].intercalate
      (s.xip.map (Nat.toDigits 10))) = some s.xip := by
    unfold running?
    by_cases hNil : s.xip = []
    · rw [hNil]
      rfl
    · rw [if_neg (intercalate_ne_nil hNil),
        splitOn_numbers hNil, mapM_numbers]
  unfold Snapshot.ofText?
  rw [hParts]
  simp only [number_toDigits, hBetween, Option.bind_eq_bind,
    Option.bind_some]
  rw [if_pos hSane, hDistinct.dedup]

/- A snapshot of a valid store can be read back. -/
theorem ofText_currentSnapshot
    (hValid : s.Valid key) :
    Snapshot.ofText? s.currentSnapshot.text =
      some s.currentSnapshot := by
  have hOrdered := xip_ordered hValid
  refine ofText_text ⟨?_, xmin_le_xmax s,
    hOrdered.imp le_of_lt, ?_⟩ (hOrdered.imp ne_of_lt)
  · rcases xmin_cases s with ⟨x, xs, hxip, hMin⟩ | ⟨_, hMin⟩
    · rw [hMin]
      refine (hValid.ahead x (mem_xip.mp ?_).1).1
      rw [hxip]
      exact List.mem_cons_self
    · rw [hMin]
      exact Nat.succ_pos _
  · exact fun x hx =>
      ⟨xmin_le_of_mem hValid hx, (mem_xip.mp hx).2⟩

end Mvcc
