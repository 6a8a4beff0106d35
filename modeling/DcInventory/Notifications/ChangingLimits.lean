import DcInventory.Library.ChangingLimits
import DcInventory.Notifications.Protocol

/-
  This file proves when every pending row of the outboxes can
  be claimed again, although each call may have another limit
  of attempts.

  Key definitions include:
    * `OutboxCopy.Run`
    * `OutboxCopy.Serves`
    * `OutboxCopy.LowersPastWaiting`

  Key theorems include:
    * `OutboxCopy.Refines.serves_iff`
    * `outbox_rows_return_iff`
-/

------------------------------------------------------------
-- Runs With Changing Limits
------------------------------------------------------------

/-
  A step of a run: the limit before it, the settings that
  are in force in it, and the states on both sides.
-/
structure Moment (ρ γ ω : Type) where
  previous : Nat
  settings : ClaimSettings
  before : OutboxSystem ρ γ ω
  after : OutboxSystem ρ γ ω

namespace OutboxCopy

variable {ρ χ γ ω : Type}
variable [DecidableEq ω]

/-
  The runs from an empty table, with the limit now in force.
  Every step may come with other settings.
-/
inductive Run (C : OutboxCopy ρ χ γ) :
    List (Moment ρ γ ω) → Nat → OutboxSystem ρ γ ω → Prop where
| start {clock limit} :
    Run C [] limit ⟨clock, [], fun _ => [], []⟩
| step {ms limit S settings a S'} :
    Run C ms limit S →
    0 < settings.maxAttempts →
    C.Step settings S a S' →
    Run C (ms ++ [⟨limit, settings, S, S'⟩])
      settings.maxAttempts S'

/- Every pending row can be claimed at some later time. -/
def Serves
    (C : OutboxCopy ρ χ γ)
    (m : Moment ρ γ ω) : Prop :=
  ∀ row ∈ m.after.rows, (C.delivery row).status = .pending →
    ∃ t, ∀ now, t ≤ now → C.claimable m.settings now row

/-
  The limit is lowered to what a row has used that waits for
  its next attempt, or below it.
-/
def LowersPastWaiting
    (C : OutboxCopy ρ χ γ)
    (m : Moment ρ γ ω) : Prop :=
  m.settings.maxAttempts < m.previous ∧
    ∃ row ∈ m.before.rows,
      (C.delivery row).Stuck m.settings.maxAttempts

variable {C : OutboxCopy ρ χ γ}
variable {ms : List (Moment ρ γ ω)}
variable {limit : Nat}
variable {S : OutboxSystem ρ γ ω}

------------------------------------------------------------
-- Which Runs Serve Every Row
------------------------------------------------------------

theorem Refines.run_plain
    (hC : C.Refines)
    (hRun : C.Run ms limit S) :
    (C.board S).Plain := by
  induction hRun with
  | start =>
      exact ⟨List.nodup_nil, List.forall_mem_nil _⟩
  | step _ _ hStep ih => exact ih.step (hC.step ih.ids hStep)

omit [DecidableEq ω] in
/- A row is served unless its attempts are used up. -/
theorem Refines.serves_of_free
    (hC : C.Refines)
    {m : Moment ρ γ ω} :
    C.Serves m ↔ ∀ d ∈ (C.board m.after).jobs,
      ¬ d.Stuck m.settings.maxAttempts := by
  constructor
  · intro hServes d hMem hStuck
    rcases List.mem_map.mp hMem with ⟨row, hRow, rfl⟩
    have hPending := hStuck.waiting.pending
    rcases hServes row hRow hPending with ⟨t, hLater⟩
    exact hStuck.not_claimable
      ((hC.claimable m.settings t row).mp (hLater t (le_refl t)))
  · intro hFree row hRow hPending
    have hReturns := (Delivery.returns_iff hPending
      m.settings.maxAttempts
      (seconds m.settings.claimTtlSeconds)).mpr
      (hFree _ (List.mem_map_of_mem hRow))
    rcases hReturns with ⟨t, hLater⟩
    exact ⟨t, fun now hNow =>
      (hC.claimable m.settings now row).mpr (hLater now hNow)⟩

/-
  While no limit is lowered past a waiting row, the rows that
  wait have attempts left.
-/
theorem Refines.waiting_of_run
    (hC : C.Refines)
    (hRun : C.Run ms limit S)
    (hNever : ∀ m ∈ ms, ¬ C.LowersPastWaiting m) :
    (∀ d ∈ (C.board S).jobs, ¬ d.Stuck limit) ∧
      ∀ m ∈ ms, C.Serves m := by
  induction hRun with
  | start => exact ⟨List.forall_mem_nil _, List.forall_mem_nil _⟩
  | @step ms limit S settings a S' hRun hLimit hStep ih =>
      have hPlain := hC.run_plain hRun
      rcases ih (fun m hMem =>
        hNever m (List.mem_append_left _ hMem)) with
        ⟨hOld, hServed⟩
      have hBefore : ∀ d ∈ (C.board S).jobs,
          ¬ d.Stuck settings.maxAttempts := by
        intro d hMem hStuck
        by_cases hLower : settings.maxAttempts < limit
        · rcases List.mem_map.mp hMem with ⟨row, hRow, rfl⟩
          exact hNever _ (List.mem_append_right _
            (List.mem_singleton.mpr rfl))
            ⟨hLower, row, hRow, hStuck⟩
        · exact hOld d hMem ⟨hStuck.waiting,
            (Nat.le_of_not_lt hLower).trans hStuck.used⟩
      have hAfter : ∀ d ∈ (C.board S').jobs,
          ¬ d.Stuck settings.maxAttempts := by
        intro d hMem hStuck
        rcases (hC.step hPlain.ids hStep).waiting hLimit hMem
          hStuck.waiting with hWaited | hLeft
        · exact hBefore d hWaited hStuck
        · exact absurd hStuck.used (Nat.not_le_of_lt hLeft)
      refine ⟨hAfter, fun m hMem => ?_⟩
      rcases List.mem_append.mp hMem with hEarlier | hLast
      · exact hServed m hEarlier
      · rw [List.mem_singleton.mp hLast]
        exact hC.serves_of_free.mpr hAfter

/- A row that is passed by the limit is never claimed again. -/
theorem Refines.not_serves_of_lowers
    (hC : C.Refines)
    (hRun : C.Run ms limit S)
    {m : Moment ρ γ ω}
    (hMem : m ∈ ms)
    (hLowers : C.LowersPastWaiting m) :
    ¬ C.Serves m := by
  induction hRun with
  | start => cases hMem
  | @step ms limit S settings a S' hRun _ hStep ih =>
      rcases List.mem_append.mp hMem with hEarlier | hLast
      · exact ih hEarlier
      · rw [List.mem_singleton.mp hLast] at hLowers ⊢
        rcases hLowers with ⟨_, row, hRow, hStuck⟩
        have hPlain := hC.run_plain hRun
        have hStays := (hC.step hPlain.ids hStep).stuck hPlain
          (List.mem_map_of_mem hRow) hStuck
        intro hServes
        exact hC.serves_of_free.mp hServes _ hStays hStuck

theorem Refines.serves_iff
    (hC : C.Refines)
    (hRun : C.Run ms limit S) :
    (∀ m ∈ ms, C.Serves m) ↔
      ∀ m ∈ ms, ¬ C.LowersPastWaiting m := by
  constructor
  · exact fun hServes m hMem hLowers =>
      hC.not_serves_of_lowers hRun hMem hLowers
        (hServes m hMem)
  · exact fun hNever => (hC.waiting_of_run hRun hNever).2

/- A limit that is never lowered strands no row. -/
theorem Refines.serves_of_rising
    (hC : C.Refines)
    (hRun : C.Run ms limit S)
    (hRising : ∀ m ∈ ms, m.previous ≤ m.settings.maxAttempts) :
    ∀ m ∈ ms, C.Serves m :=
  (hC.serves_iff hRun).mpr (fun m hMem hLowers =>
    absurd hLowers.1 (Nat.not_lt_of_le (hRising m hMem)))

/- In every run: no row is stranded unless a limit does it. -/
def ReturnsUnlessLowered
    (C : OutboxCopy ρ χ γ)
    (ω : Type)
    [DecidableEq ω] : Prop :=
  ∀ (ms : List (Moment ρ γ ω)) (limit : Nat)
    (S : OutboxSystem ρ γ ω),
    C.Run ms limit S →
    ((∀ m ∈ ms, C.Serves m) ↔
      ∀ m ∈ ms, ¬ C.LowersPastWaiting m)

end OutboxCopy

/-
  In both outboxes all rows return exactly if no limit is
  lowered past a row that waits for its next attempt.
-/
theorem outbox_rows_return_iff
    (ω : Type)
    [DecidableEq ω] :
    telegramOutbox.ReturnsUnlessLowered ω ∧
      emailOutbox.ReturnsUnlessLowered ω :=
  ⟨fun _ _ _ hRun => telegramOutbox_refines.serves_iff hRun,
    fun _ _ _ hRun => emailOutbox_refines.serves_iff hRun⟩

------------------------------------------------------------
-- A Limit That Is Lowered
------------------------------------------------------------

namespace LoweredLimit

def call : TelegramCall :=
  ⟨"sendMessage".toList, .null, "key".toList, none, false⟩

def rowId : Uuid := ⟨1⟩

def token : Uuid := ⟨2⟩

/- The row after it was enqueued, claimed and missed once. -/
def row : NotificationOutbox := newNotification rowId 0 call

def claimedRow : NotificationOutbox := row.claimed 0 0 8 token

def missedRow : NotificationOutbox :=
  { row with
    attempts := 1
    availableAt := seconds 1
    lastError := some "down".toList }

def claim : ClaimedNotification := claimedRow.toClaim token

abbrev Telegram :=
  OutboxSystem NotificationOutbox ClaimedNotification Unit

def empty : Telegram := ⟨0, [], fun _ => [], []⟩

def enqueued : Telegram := ⟨0, [row], fun _ => [], []⟩

def taken : Telegram :=
  ⟨0, [claimedRow], Function.update (fun _ => []) ()
    [⟨claim, 0⟩], [(rowId, token)]⟩

def missed : Telegram :=
  ⟨0, [missedRow], telegramOutbox.dropped taken () ⟨claim, 0⟩,
    [(rowId, token)]⟩

def many : ClaimSettings := ⟨20, 60, 8⟩

def few : ClaimSettings := ⟨20, 60, 1⟩

def moments : List (Moment NotificationOutbox
    ClaimedNotification Unit) :=
  [⟨8, many, empty, enqueued⟩, ⟨8, many, enqueued, taken⟩,
    ⟨8, many, taken, missed⟩, ⟨8, few, missed, missed⟩]

theorem enqueue_step :
    telegramOutbox.Step many empty (.enqueue false) enqueued := by
  have hRows : telegramOutbox.enqueue rowId 0 call [] =
      .ok [row] := rfl
  exact OutboxCopy.Step.enqueue (S := empty) (le_refl 0) hRows

theorem claim_step :
    telegramOutbox.Step many enqueued (.claim ()) taken := by
  have hClaims : telegramOutbox.claimBatch many 0 []
      (fun _ => token) [row] = ([claim], [claimedRow]) := rfl
  have hDrawn : (([claim].map telegramOutbox.key).map
      Prod.snd).Nodup := List.nodup_singleton _
  exact OutboxCopy.Step.claim (S := enqueued) (le_refl 0)
    hClaims hDrawn (fun _ _ => List.not_mem_nil)

theorem failed_step :
    telegramOutbox.Step many taken
      (.failed () (telegramOutbox.held ⟨claim, 0⟩)) missed := by
  have hHeld : (⟨claim, 0⟩ : Outstanding ClaimedNotification) ∈
      taken.hands () := List.mem_singleton.mpr rfl
  have hRows : telegramOutbox.markFailed claim "down".toList
      many.maxAttempts 0 taken.rows = [missedRow] := rfl
  have hStep : telegramOutbox.Step many taken
      (.failed () (telegramOutbox.held ⟨claim, 0⟩))
      { taken with
        rows := telegramOutbox.markFailed claim "down".toList
          many.maxAttempts 0 taken.rows
        hands := telegramOutbox.dropped taken () ⟨claim, 0⟩ } :=
    .failed hHeld
  rw [hRows] at hStep
  exact hStep

theorem run_moments : telegramOutbox.Run moments 1 missed := by
  have hStart : telegramOutbox.Run [] 8 empty := .start
  have hFew : telegramOutbox.Step few missed .tick missed :=
    .tick (le_refl 0)
  exact (((hStart.step (by decide) enqueue_step).step
    (by decide) claim_step).step (by decide) failed_step).step
      (by decide) hFew

end LoweredLimit

open LoweredLimit in
/-
  A row failed once while eight attempts were allowed. Under
  a limit of one it waits and is never claimed again.
-/
theorem lowered_limit_strands_row :
    ¬ ∀ (ms : List (Moment NotificationOutbox
        ClaimedNotification Unit)) (limit : Nat) (S : Telegram),
      telegramOutbox.Run ms limit S →
      ∀ m ∈ ms, telegramOutbox.Serves m := by
  intro hAlways
  have hServes := hAlways moments 1 missed run_moments
    ⟨8, few, missed, missed⟩ (by simp [moments])
  have hStuck : missedRow.delivery.Stuck few.maxAttempts :=
    ⟨⟨rfl, rfl⟩, Nat.le_refl 1⟩
  exact telegramOutbox_refines.serves_of_free.mp hServes _
    (List.mem_singleton.mpr rfl) hStuck
