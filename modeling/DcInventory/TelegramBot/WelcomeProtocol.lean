import DcInventory.Notifications.Evolution
import DcInventory.Notifications.Worker
import Mathlib.Order.Bounds.Basic

/-
  This file defines the runs of starts and notification
  workers, each of whose steps is one transaction or one call
  of Telegram, and proves which dedupe keys the rows of the
  outbox can have.

  Key definitions include:
    * `WelcomeSystem`
    * `WelcomeSystem.Step`
    * `WelcomeSystem.Accounted`
    * `RowFits`

  Key theorems include:
    * `startWelcomeContext_startWelcomeDedupeKey`
    * `Evolves.rowFits`
-/

------------------------------------------------------------
-- The System
------------------------------------------------------------

/- What a worker is doing; `since` is when it had sent. -/
inductive Worker where
| idle
| claimed (claim : ClaimedNotification)
| superseded (claim : ClaimedNotification)
| sending
    (claim : ClaimedNotification)
    (context : Option (Int × Int))
| failed (claim : ClaimedNotification) (error : Text)
| delivered (claim : ClaimedNotification)
| welcomed
    (claim : ClaimedNotification)
    (updateId chatId messageId : Int)
    (since : Time)
| cleaning (chatId messageId : Int)

/- A start that was processed, and the time that it read. -/
structure Start where
  chatId : Int
  updateId : Int
  processedAt : Time

/- A welcome message that a call has sent. -/
structure SentWelcome where
  chatId : Int
  updateId : Int
  messageId : Int

/-
  The database and the workers, with the history of starts,
  of welcome messages that were sent, and of messages whose
  deletion a worker has attempted.
-/
structure WelcomeSystem (ω : Type) where
  clock : Time
  db : Db
  workers : ω → Worker
  starts : List Start
  sent : List SentWelcome
  attempted : List (Int × Int)

/- Calls of the access workflow. -/
def Unrelated
    (sha256 : Text → Text)
    (call : TelegramCall) : Prop :=
  ∃ kind parts,
    (kind = "access-request".toList ∨
      kind = "callback".toList) ∧
    call.dedupeKey = notificationDedupeKey sha256 (kind :: parts)

namespace WelcomeSystem

inductive Act (ω : Type) where
| tick
| start (command : StartCommand) (currentTime : Time)
| other
| claim (w : ω)
| check (w : ω)
| send (w : ω) (result : Json)
| fail (w : ω)
| finish (w : ω)
| finalize (w : ω)
| clean (w : ω)
| crash (w : ω)

/- Whether the start of a claimed welcome is the latest. -/
def checked
    (claim : ClaimedNotification)
    (rows : List TelegramChatState) : Worker :=
  match startWelcomeContext claim with
  | none => .sending claim none
  | some (updateId, chatId) =>
      if isCurrentStart chatId updateId rows
      then .sending claim (some (updateId, chatId))
      else .superseded claim

/- What a call that succeeded has sent. -/
def welcomeOf
    (context : Option (Int × Int))
    (result : Json) : Option SentWelcome :=
  match context, telegramMessageId result with
  | some (updateId, chatId), some messageId =>
      some ⟨chatId, updateId, messageId⟩
  | _, _ => none

/- The worker after a call that succeeded. -/
def afterSend
    (claim : ClaimedNotification)
    (context : Option (Int × Int))
    (result : Json)
    (now : Time) : Worker :=
  match welcomeOf context result with
  | some x =>
      .welcomed claim x.updateId x.chatId x.messageId now
  | none => .delivered claim

variable {ω : Type}
variable [DecidableEq ω]

/-
  One step of webhooks and workers. Each transaction is one
  step: what it reads it has locked. Clocks are read before
  the transaction ends.
-/
inductive Step
    (settings : TelegramSettings)
    (limits : ClaimSettings)
    (S : WelcomeSystem ω) :
    Act ω → WelcomeSystem ω → Prop where
| tick {now} :
    S.clock ≤ now →
    Step settings limits S .tick { S with clock := now }
| start {ids times command processedAt processed db} :
    -- the webhook refuses other updates
    0 ≤ command.updateId →
    times.currentTime ≤ S.clock →
    telegramStartUpdate settings ids times command processedAt
      S.db = .ok (processed, db) →
    Step settings limits S (.start command times.currentTime)
      { S with
        db := db
        starts :=
          if processed then
            ⟨command.chatId, command.updateId,
              times.currentTime⟩ :: S.starts
          else S.starts }
| other {id now call rows} :
    Unrelated settings.sha256 call →
    enqueueTelegramCall id now call S.db.notificationOutbox =
      .ok rows →
    Step settings limits S .other
      { S with db := { S.db with notificationOutbox := rows } }
| claim {w now locked newToken claim rows} :
    S.workers w = .idle →
    claimNotificationBatch { limits with batchSize := 1 } now
      locked newToken S.db.notificationOutbox =
        ([claim], rows) →
    Step settings limits S (.claim w)
      { S with
        db := { S.db with notificationOutbox := rows }
        workers :=
          Function.update S.workers w (.claimed claim) }
| check {w claim} :
    S.workers w = .claimed claim →
    Step settings limits S (.check w)
      { S with
        workers := Function.update S.workers w
          (checked claim S.db.telegramChatStates) }
| send {w claim context result} :
    S.workers w = .sending claim context →
    Step settings limits S (.send w result)
      { S with
        workers := Function.update S.workers w
          (afterSend claim context result S.clock)
        sent := (welcomeOf context result).toList ++ S.sent }
| fail {w claim context error} :
    S.workers w = .sending claim context →
    Step settings limits S (.fail w)
      { S with
        workers :=
          Function.update S.workers w (.failed claim error) }
| finishSuccess {w claim now} :
    S.workers w = .superseded claim ∨
      S.workers w = .delivered claim →
    Step settings limits S (.finish w)
      { S with
        db := finalizeSuccess claim now S.db
        workers := Function.update S.workers w .idle }
| finishFailure {w claim error now} :
    S.workers w = .failed claim error →
    Step settings limits S (.finish w)
      { S with
        db := finalizeFailure claim error limits.maxAttempts
          now S.db
        workers := Function.update S.workers w .idle }
| finalize {w claim updateId chatId messageId since sentAt now
    isCurrent db} :
    S.workers w =
      .welcomed claim updateId chatId messageId since →
    since ≤ now →
    now ≤ S.clock →
    finalizeStartWelcomeSuccess claim chatId updateId messageId
      sentAt now S.db = (isCurrent, db) →
    Step settings limits S (.finalize w)
      { S with
        db := db
        workers := Function.update S.workers w
          (if isCurrent then .idle
            else .cleaning chatId messageId) }
| clean {w chatId messageId} :
    S.workers w = .cleaning chatId messageId →
    Step settings limits S (.clean w)
      { S with
        workers := Function.update S.workers w .idle
        attempted := (chatId, messageId) :: S.attempted }
| crash {w} :
    Step settings limits S (.crash w)
      { S with workers := Function.update S.workers w .idle }

/- A system in which nothing has happened. -/
def initial (ω : Type) (clock : Time) : WelcomeSystem ω where
  clock := clock
  db := .empty
  workers _ := .idle
  starts := []
  sent := []
  attempted := []

/- The states that runs of permitted steps lead to. -/
inductive Reachable
    (settings : TelegramSettings)
    (limits : ClaimSettings)
    (permits : WelcomeSystem ω → Act ω → Prop) :
    WelcomeSystem ω → Prop where
| start {clock} :
    Reachable settings limits permits (initial ω clock)
| step {S a S'} :
    Reachable settings limits permits S →
    permits S a →
    Step settings limits S a S' →
    Reachable settings limits permits S'

/- The states that permitted steps lead to from a state. -/
inductive Steps
    (settings : TelegramSettings)
    (limits : ClaimSettings)
    (permits : WelcomeSystem ω → Act ω → Prop)
    (S : WelcomeSystem ω) : WelcomeSystem ω → Prop where
| refl : Steps settings limits permits S S
| step {S' a S''} :
    Steps settings limits permits S S' →
    permits S' a →
    Step settings limits S' a S'' →
    Steps settings limits permits S S''

end WelcomeSystem

------------------------------------------------------------
-- Where Messages Are
------------------------------------------------------------

/- The row of the chat records the message. -/
def Recorded
    (chatId messageId : Int)
    (rows : List TelegramChatState) : Prop :=
  ∃ row ∈ rows, row.chatId = chatId ∧
    row.lastWelcomeMessageId = some messageId

/- A deletion of the message was enqueued. -/
def DeleteEnqueued
    (chatId messageId : Int)
    (rows : List NotificationOutbox) : Prop :=
  ∃ row ∈ rows, row.method = "deleteMessage".toList ∧
    row.payload = deleteMessagePayload chatId messageId

/- The worker has sent the message, and is not through. -/
def Worker.Holds (chatId messageId : Int) : Worker → Prop
| .welcomed _ _ c m _ => c = chatId ∧ m = messageId
| .cleaning c m => c = chatId ∧ m = messageId
| _ => False

namespace WelcomeSystem

variable {ω : Type}

/- Where a message that was sent can be. -/
def Accounted
    (S : WelcomeSystem ω)
    (chatId messageId : Int) : Prop :=
  Recorded chatId messageId S.db.telegramChatStates ∨
    (∃ w, (S.workers w).Holds chatId messageId) ∨
    DeleteEnqueued chatId messageId S.db.notificationOutbox ∨
    (chatId, messageId) ∈ S.attempted

/- The starts of a chat that were processed. -/
def startsOf
    (S : WelcomeSystem ω)
    (chatId : Int) : Set Int :=
  { u | ∃ s ∈ S.starts, s.chatId = chatId ∧ s.updateId = u }

end WelcomeSystem

------------------------------------------------------------
-- Keys
------------------------------------------------------------

theorem joinParts_cons
    (part : Text)
    (parts : List Text) :
    ∃ rest, joinParts (part :: parts) = part ++ rest := by
  cases parts with
  | nil => exact ⟨[], (List.append_nil part).symm⟩
  | cons p ps => exact ⟨_, rfl⟩

/- Keys of parts that begin with other characters differ. -/
theorem dedupeKey_ne
    {sha256 : Text → Text}
    (hSha : Function.Injective sha256)
    {n : Nat}
    {part part' : Text}
    {parts parts' : List Text}
    (hLong : n < part.length)
    (hLong' : n < part'.length)
    (hOther : part[n]? ≠ part'[n]?) :
    notificationDedupeKey sha256 (part :: parts) ≠
      notificationDedupeKey sha256 (part' :: parts') := by
  intro hEq
  have hJoined := hSha hEq
  rcases joinParts_cons part parts with ⟨rest, hPart⟩
  rcases joinParts_cons part' parts' with ⟨rest', hPart'⟩
  rw [hPart, hPart'] at hJoined
  have hChar := congrArg (fun t => t[n]?) hJoined
  simp only [List.getElem?_append_left hLong,
    List.getElem?_append_left hLong'] at hChar
  exact hOther hChar

private theorem pipe_not_digit
    (rest : Text) :
    ∀ c, ('|' :: rest).head? = some c →
      c.isDigit = false := by
  intro c hc
  cases hc
  decide

theorem deletePreviousKey_inj
    {sha256 : Text → Text}
    (hSha : Function.Injective sha256)
    {chatId messageId chatId' messageId' : Int}
    (hEq : deletePreviousKey sha256 chatId messageId =
      deletePreviousKey sha256 chatId' messageId') :
    chatId = chatId' ∧ messageId = messageId' := by
  have hJoined := hSha hEq
  simp only [joinParts] at hJoined
  have hTail := List.cons.inj
    (List.append_cancel_left hJoined)
  rcases intText_append_inj (pipe_not_digit _)
    (pipe_not_digit _) hTail.2 with ⟨hChat, hRest⟩
  rcases intText_append_inj (pipe_not_digit _)
    (pipe_not_digit _) (List.cons.inj hRest).2 with
      ⟨hMessage, _⟩
  exact ⟨hChat, hMessage⟩

theorem not_colon_of_mem_intText
    {n : Int} :
    ':' ∉ intText n := by
  intro hMem
  rcases mem_intText hMem with hDash | hDigit
  · exact absurd hDash (by decide)
  · exact absurd hDigit (by decide)

theorem partitionColon_append
    {before : Text}
    (hBefore : ':' ∉ before)
    (after : Text) :
    partitionColon (before ++ ':' :: after) =
      some (before, after) := by
  have hNone : ∀ c ∈ before, decide (c ≠ ':') = true := by
    intro c hc
    exact decide_eq_true fun hEq => hBefore (hEq ▸ hc)
  rw [partitionColon, List.dropWhile_append_of_pos hNone,
    List.takeWhile_append_of_pos hNone]
  simp

/- What the worker reads from the key of a welcome message. -/
theorem startWelcomeContext_of_key
    {claim : ClaimedNotification}
    {updateId chatId : Int}
    (hKey : claim.dedupeKey =
      startWelcomeDedupeKey updateId chatId) :
    startWelcomeContext claim =
      if updateId < 0 then none
      else some (updateId, chatId) := by
  have hPrefix : startWelcomeDedupePrefix.isPrefixOf
      claim.dedupeKey = true := by
    rw [hKey, List.isPrefixOf_iff_prefix]
    exact List.prefix_append _ _
  have hSuffix : claim.dedupeKey.drop
      startWelcomeDedupePrefix.length =
        intText updateId ++ ':' :: intText chatId := by
    rw [hKey]
    exact List.drop_left
  rw [startWelcomeContext, if_pos hPrefix, hSuffix,
    partitionColon_append not_colon_of_mem_intText]
  simp only [parseInt_intText]

/- The key of a welcome message tells its start. -/
theorem startWelcomeContext_startWelcomeDedupeKey
    {claim : ClaimedNotification}
    {updateId chatId : Int}
    (hKey : claim.dedupeKey =
      startWelcomeDedupeKey updateId chatId)
    (hUpdate : 0 ≤ updateId) :
    startWelcomeContext claim = some (updateId, chatId) := by
  rw [startWelcomeContext_of_key hKey, if_neg (by omega)]

/- A key without a colon is the key of no welcome message. -/
theorem startWelcomeContext_of_noColon
    {claim : ClaimedNotification}
    (hKey : ':' ∉ claim.dedupeKey) :
    startWelcomeContext claim = none := by
  rw [startWelcomeContext, if_neg]
  intro hPrefix
  rw [List.isPrefixOf_iff_prefix] at hPrefix
  exact hKey (hPrefix.subset (by decide))

------------------------------------------------------------
-- Rows
------------------------------------------------------------

/-
  What a row can be: the welcome message of a start, or a
  call with a digest as its key, which deletes a message if
  the key is the one of its deletion.
-/
def RowFits
    (sha256 : Text → Text)
    (starts : List Start)
    (r : NotificationOutbox) : Prop :=
  (∃ s ∈ starts, r.dedupeKey =
    startWelcomeDedupeKey s.updateId s.chatId) ∨
  (':' ∉ r.dedupeKey ∧ ∀ chatId messageId,
    r.dedupeKey = deletePreviousKey sha256 chatId messageId →
      r.method = "deleteMessage".toList ∧
        r.payload = deleteMessagePayload chatId messageId)

variable {sha256 : Text → Text}
variable {starts starts' : List Start}
variable {rows rows' : List NotificationOutbox}
variable {calls : List TelegramCall}

theorem RowFits.mono
    {r : NotificationOutbox}
    (hMore : ∀ s ∈ starts, s ∈ starts')
    (h : RowFits sha256 starts r) :
    RowFits sha256 starts' r := by
  rcases h with ⟨s, hs, hKey⟩ | hDigest
  · exact .inl ⟨s, hMore s hs, hKey⟩
  · exact .inr hDigest

theorem RowFits.keeps
    {r r' : NotificationOutbox}
    (hKeeps : r.Keeps r')
    (h : RowFits sha256 starts r) :
    RowFits sha256 starts r' := by
  unfold RowFits
  rw [hKeeps.dedupeKey, hKeeps.method, hKeeps.payload]
  exact h

/- A row with the key of a deletion deletes the message. -/
theorem RowFits.deletes
    (hHex : ∀ t, ':' ∉ sha256 t)
    {r : NotificationOutbox}
    {chatId messageId : Int}
    (h : RowFits sha256 starts r)
    (hKey : r.dedupeKey =
      deletePreviousKey sha256 chatId messageId) :
    r.method = "deleteMessage".toList ∧
      r.payload = deleteMessagePayload chatId messageId := by
  rcases h with ⟨s, _, hStart⟩ | ⟨_, hDelete⟩
  · have hColon : ':' ∈ r.dedupeKey := by
      rw [hStart]
      simp [startWelcomeDedupeKey]
    rw [hKey] at hColon
    exact absurd hColon (hHex _)
  · exact hDelete chatId messageId hKey

/- Rows fit when those of the calls do. -/
theorem Evolves.rowFits
    (h : Evolves calls rows rows')
    (hCalls : ∀ id now, ∀ call ∈ calls,
      RowFits sha256 starts (newNotification id now call))
    (hRows : ∀ r ∈ rows, RowFits sha256 starts r) :
    ∀ r ∈ rows', RowFits sha256 starts r := by
  intro r' hr'
  rcases h.comes r' hr' with ⟨r, hKeeps, hOld | hMade⟩
  · exact (hRows r hOld).keeps hKeeps
  · rcases hMade with ⟨id, now, call, hCall, rfl⟩
    exact (hCalls id now call hCall).keeps hKeeps

theorem Evolves.deleteEnqueued
    {chatId messageId : Int}
    (h : Evolves calls rows rows')
    (hDelete : DeleteEnqueued chatId messageId rows) :
    DeleteEnqueued chatId messageId rows' := by
  rcases hDelete with ⟨r, hr, hMethod, hPayload⟩
  rcases h.stays r hr with ⟨r', hr', hKeeps⟩
  exact ⟨r', hr', hKeeps.method.trans hMethod,
    hKeeps.payload.trans hPayload⟩

/- Digests of parts of another kind delete no welcome. -/
theorem rowFits_of_digest
    (hSha : Function.Injective sha256)
    (hHex : ∀ t, ':' ∉ sha256 t)
    {kind : Text}
    {parts : List Text}
    {r : NotificationOutbox}
    {n : Nat}
    (hKey : r.dedupeKey =
      notificationDedupeKey sha256 (kind :: parts))
    (hLong : n < kind.length)
    (hShort : n < "telegram-start".toList.length)
    (hOther : kind[n]? ≠ "telegram-start".toList[n]?) :
    RowFits sha256 starts r := by
  refine .inr ⟨hKey ▸ hHex _, ?_⟩
  intro chatId messageId hDelete
  exact absurd (hKey.symm.trans hDelete)
    (dedupeKey_ne hSha hLong hShort hOther)

theorem Unrelated.rowFits
    (hSha : Function.Injective sha256)
    (hHex : ∀ t, ':' ∉ sha256 t)
    {call : TelegramCall}
    (h : Unrelated sha256 call)
    (id : Uuid)
    (now : Time) :
    RowFits sha256 starts (newNotification id now call) := by
  rcases h with ⟨kind, parts, rfl | rfl, hKey⟩
  · exact rowFits_of_digest hSha hHex hKey (n := 0)
      (by decide) (by decide) (by decide)
  · exact rowFits_of_digest hSha hHex hKey (n := 0)
      (by decide) (by decide) (by decide)

section Calls

variable {settings : TelegramSettings}
variable {command : StartCommand}

/- The rows of the calls of a start fit. -/
theorem rowFits_deleteStart
    (hSha : Function.Injective settings.sha256)
    (hHex : ∀ t, ':' ∉ settings.sha256 t)
    (id : Uuid)
    (now currentTime : Time) :
    RowFits settings.sha256 starts (newNotification id now
      (deleteStartCall settings currentTime command)) :=
  rowFits_of_digest hSha hHex rfl (n := 9)
    (by decide) (by decide) (by decide)

theorem rowFits_deletePrevious
    (hSha : Function.Injective settings.sha256)
    (hHex : ∀ t, ':' ∉ settings.sha256 t)
    (id : Uuid)
    (now currentTime : Time)
    (chatId messageId : Int) :
    RowFits settings.sha256 starts (newNotification id now
      (deletePreviousCall settings currentTime chatId
        messageId)) := by
  refine .inr ⟨hHex _, ?_⟩
  intro chatId' messageId' hKey
  rcases deletePreviousKey_inj hSha hKey with ⟨rfl, rfl⟩
  exact ⟨rfl, rfl⟩

theorem rowFits_startWelcome
    {s : Start}
    (id : Uuid)
    (now currentTime : Time)
    (hMem : s ∈ starts)
    (hUpdate : s.updateId = command.updateId)
    (hChat : s.chatId = command.chatId) :
    RowFits settings.sha256 starts (newNotification id now
      (startWelcomeCall settings currentTime command)) := by
  refine .inl ⟨s, hMem, ?_⟩
  rw [hUpdate, hChat]
  rfl

end Calls
