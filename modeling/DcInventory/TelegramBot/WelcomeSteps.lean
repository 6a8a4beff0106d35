import DcInventory.TelegramBot.WelcomeProtocol

/-
  This file proves what the steps of starts and workers do to
  the tables, and what none of them takes back.

  Key definitions include:
    * `Started`
    * `WelcomeSystem.Later`
    * `WelcomeSystem.Inv`

  Key theorems include:
    * `WelcomeSystem.Step.cases`
    * `WelcomeSystem.Step.later`
-/

------------------------------------------------------------
-- Starts
------------------------------------------------------------

theorem ok_of_bind
    {ε α β : Type}
    {x : Except ε α}
    {f : α → Except ε β}
    {b : β}
    (h : (x >>= f) = .ok b) :
    ∃ a, x = .ok a ∧ f a = .ok b := by
  cases x with
  | error e => cases h
  | ok a => exact ⟨a, rfl, h⟩

section Starts

variable {chatId updateId : Int}
variable {rows : List TelegramChatState}

/- What registering a start does to each chat. -/
theorem mem_registerLatestStart
    {row : TelegramChatState}
    (hMem : row ∈ (registerLatestStart chatId updateId
      rows).2) :
    (row ∈ rows ∧ row.chatId ≠ chatId) ∨
      (∃ old ∈ rows, old.chatId = chatId ∧
        row = old.started updateId) ∨
      (row = ⟨chatId, updateId, none, none⟩ ∧
        ∀ old ∈ rows, old.chatId ≠ chatId) := by
  unfold registerLatestStart at hMem
  split at hMem
  · rename_i hNone
    rw [Table.find_eq_none_iff] at hNone
    rcases List.mem_append.mp hMem with hOld | hNew
    · exact .inl ⟨hOld, hNone row hOld⟩
    · exact .inr (.inr ⟨List.mem_singleton.mp hNew, hNone⟩)
  · rcases Table.mem_rewrite.mp hMem with
      hOld | ⟨old, hOld, hChat, rfl⟩
    · exact .inl hOld
    · exact .inr (.inl ⟨old, hOld, hChat, rfl⟩)

/- Chats stay, with what was recorded of them. -/
theorem registerLatestStart_stays
    {row : TelegramChatState}
    (hMem : row ∈ rows) :
    ∃ row' ∈ (registerLatestStart chatId updateId rows).2,
      row'.chatId = row.chatId ∧
        row.latestStartUpdateId ≤ row'.latestStartUpdateId ∧
        row'.lastWelcomeMessageId =
          row.lastWelcomeMessageId := by
  unfold registerLatestStart
  split
  · exact ⟨row, List.mem_append_left _ hMem, rfl, le_rfl, rfl⟩
  · by_cases hChat : row.chatId = chatId
    · refine ⟨row.started updateId, Table.mem_rewrite.mpr
        (.inr ⟨row, hMem, hChat, rfl⟩), rfl, ?_, rfl⟩
      exact le_max_left _ _
    · exact ⟨row, Table.mem_rewrite.mpr (.inl ⟨hMem, hChat⟩),
        rfl, le_rfl, rfl⟩

/- The returned row is the one of the chat. -/
theorem registerLatestStart_state :
    (registerLatestStart chatId updateId rows).1 ∈
        (registerLatestStart chatId updateId rows).2 ∧
      (registerLatestStart chatId updateId rows).1.chatId =
        chatId := by
  unfold registerLatestStart
  split
  · exact ⟨by simp, rfl⟩
  · rename_i row hFind
    have hChat : row.chatId = chatId :=
      Table.key_of_find hFind
    exact ⟨Table.mem_rewrite.mpr (.inr ⟨row,
      Table.mem_of_find hFind, hChat, rfl⟩), hChat⟩

theorem registerLatestStart_chatIds
    (hIds : (rows.map TelegramChatState.chatId).Nodup) :
    ((registerLatestStart chatId updateId rows).2.map
      TelegramChatState.chatId).Nodup := by
  unfold registerLatestStart
  split
  · rename_i hNone
    rw [Table.find_eq_none_iff] at hNone
    rw [List.map_append, List.map_singleton]
    refine List.nodup_append.mpr ⟨hIds, by simp, ?_⟩
    intro a ha b hb hEq
    rcases List.mem_map.mp ha with ⟨row, hRow, rfl⟩
    rw [List.mem_singleton] at hb
    exact hNone row hRow (hEq.trans hb)
  · have hKey : ∀ row : TelegramChatState,
        (row.started updateId).chatId = row.chatId :=
      fun _ => rfl
    rw [Table.map_key_rewrite hKey]
    exact hIds

variable {settings : TelegramSettings}
variable {ids : StartIds}
variable {times : StartTimes}
variable {command : StartCommand}
variable {processedAt : Time}
variable {db db' : Db}

/- What a start that is processed does. -/
structure Started
    (settings : TelegramSettings)
    (times : StartTimes)
    (command : StartCommand)
    (db db' : Db) : Prop where
  states : db'.telegramChatStates =
    (registerLatestStart command.chatId command.updateId
      db.telegramChatStates).2
  outbox : ∃ calls, Evolves calls db.notificationOutbox
      db'.notificationOutbox ∧
    ∀ call ∈ calls,
      call = deleteStartCall settings times.currentTime
          command ∨
        (∃ messageId, call = deletePreviousCall settings
          times.currentTime command.chatId messageId) ∨
        call = startWelcomeCall settings times.currentTime
          command
  -- a start that wins has the recorded message deleted
  previous :
    let state := (registerLatestStart command.chatId
      command.updateId db.telegramChatStates).1
    state.latestStartUpdateId = command.updateId →
    ∀ messageId,
      state.previousWelcome times.currentTime =
        some messageId →
      ∃ row ∈ db'.notificationOutbox, row.dedupeKey =
        deletePreviousKey settings.sha256 command.chatId
          messageId

theorem evolves_deletePrevious
    {id : Uuid}
    {previous : Option Int}
    {outbox outbox' : List NotificationOutbox}
    (hIds : (outbox.map NotificationOutbox.id).Nodup)
    (hOk : enqueueDeletePrevious settings id times chatId
      previous outbox = .ok outbox') :
    (∃ calls, Evolves calls outbox outbox' ∧
      ∀ call ∈ calls, ∃ messageId, call =
        deletePreviousCall settings times.currentTime chatId
          messageId) ∧
      ∀ messageId, previous = some messageId →
        ∃ row ∈ outbox', row.dedupeKey =
          deletePreviousKey settings.sha256 chatId
            messageId := by
  cases previous with
  | none =>
      cases hOk
      exact ⟨⟨[], .refl outbox, fun _ h => absurd h (by simp)⟩,
        fun _ h => nomatch h⟩
  | some messageId =>
      rcases evolves_enqueue hIds hOk with ⟨hEvolves, hRow⟩
      refine ⟨⟨_, hEvolves, ?_⟩, ?_⟩
      · intro call hCall
        exact ⟨messageId, List.mem_singleton.mp hCall⟩
      · intro messageId' hEq
        cases hEq
        exact hRow

theorem started_of_enqueue
    (hIds : (db.notificationOutbox.map
      NotificationOutbox.id).Nodup)
    (hOk : enqueueStartMessage settings ids times command db =
      .ok db') :
    db'.telegramUpdates = db.telegramUpdates ∧
      Started settings times command db db' := by
  unfold enqueueStartMessage at hOk
  rcases ok_of_bind hOk with ⟨outbox, hDelete, hOk⟩
  rcases evolves_enqueue hIds hDelete with ⟨hFirst, _⟩
  dsimp only at hOk
  split at hOk
  · rename_i hOlder
    cases hOk
    refine ⟨rfl, rfl, ⟨_, hFirst, ?_⟩,
      fun hLatest => absurd hLatest hOlder⟩
    intro call hCall
    exact .inl (List.mem_singleton.mp hCall)
  · rcases ok_of_bind hOk with ⟨outbox', hPrevious, hOk⟩
    rcases ok_of_bind hOk with ⟨outbox'', hWelcome, hOk⟩
    cases hOk
    rcases evolves_deletePrevious (hFirst.ids hIds) hPrevious
      with ⟨⟨calls, hSecond, hCalls⟩, hRow⟩
    have hIds' := hSecond.ids (hFirst.ids hIds)
    rcases evolves_enqueue hIds' hWelcome with ⟨hThird, _⟩
    refine ⟨rfl, rfl, ⟨_,
      (hFirst.trans hSecond).trans hThird, ?_⟩, ?_⟩
    · intro call hCall
      rcases List.mem_append.mp hCall with hCall | hCall
      · rcases List.mem_append.mp hCall with hCall | hCall
        · exact .inl (List.mem_singleton.mp hCall)
        · exact .inr (.inl (hCalls call hCall))
      · exact .inr (.inr (List.mem_singleton.mp hCall))
    · intro state _ messageId hSome
      rcases hRow messageId hSome with ⟨row, hMem, hKey⟩
      rcases hThird.stays row hMem with ⟨row', hMem', hKeeps⟩
      exact ⟨row', hMem', hKeeps.dedupeKey.trans hKey⟩

/- An update that is known is dropped. -/
theorem dropped_of_update
    (hOk : telegramStartUpdate settings ids times command
      processedAt db = .ok (false, db')) :
    db' = db := by
  unfold telegramStartUpdate at hOk
  split at hOk
  · cases hOk
    rfl
  · rcases ok_of_bind hOk with ⟨_, _, hOk⟩
    cases hOk

/- Updates that were registered stay so. -/
theorem updates_of_update
    (hOk : telegramStartUpdate settings ids times command
      processedAt db = .ok (true, db'))
    (hIds : (db.notificationOutbox.map
      NotificationOutbox.id).Nodup) :
    (∀ row ∈ db.telegramUpdates,
      row.updateId ≠ command.updateId) ∧
      db'.telegramUpdates.map TelegramUpdate.updateId =
        db.telegramUpdates.map TelegramUpdate.updateId ++
          [command.updateId] ∧
      Started settings times command db db' := by
  unfold telegramStartUpdate at hOk
  split at hOk
  · cases hOk
  · rename_i updates hRegister
    rcases ok_of_bind hOk with ⟨db'', hStart, hOk⟩
    cases hOk
    rcases started_of_enqueue (by exact hIds) hStart with
      ⟨hUpdates, hStarted⟩
    unfold registerTelegramUpdate at hRegister
    split at hRegister
    · cases hRegister
    rename_i hNone
    cases hRegister
    refine ⟨Table.find_eq_none_iff.mp hNone, ?_,
      ⟨hStarted.states, hStarted.outbox, hStarted.previous⟩⟩
    have hKey : ∀ row : TelegramUpdate,
        ({ row with processedAt := some processedAt } :
          TelegramUpdate).updateId = row.updateId :=
      fun _ => rfl
    rw [hUpdates]
    unfold markTelegramUpdateProcessed
    rw [Table.map_key_rewrite hKey, List.map_append]
    rfl

end Starts

------------------------------------------------------------
-- Steps
------------------------------------------------------------

namespace WelcomeSystem

variable {ω : Type}
variable [DecidableEq ω]
variable {settings : TelegramSettings}
variable {limits : ClaimSettings}
variable {S S' : WelcomeSystem ω}
variable {a : Act ω}

/- What no step takes back. -/
structure Later
    (sha256 : Text → Text)
    (S S' : WelcomeSystem ω) : Prop where
  clock : S.clock ≤ S'.clock
  starts : ∀ s ∈ S.starts, s ∈ S'.starts
  fresh : ∀ s' ∈ S'.starts, s' ∈ S.starts ∨
    ∀ s ∈ S.starts, s.updateId ≠ s'.updateId
  sent : ∀ x ∈ S.sent, x ∈ S'.sent
  attempted : ∀ p ∈ S.attempted, p ∈ S'.attempted
  outbox : ∃ calls, Evolves calls S.db.notificationOutbox
      S'.db.notificationOutbox ∧
    ∀ id now, ∀ call ∈ calls, RowFits sha256 S'.starts
      (newNotification id now call)

/- The row that the claim was made of is there. -/
def ClaimFits
    (S : WelcomeSystem ω)
    (claim : ClaimedNotification) : Prop :=
  ∃ r ∈ S.db.notificationOutbox,
    r.id = claim.id ∧ r.dedupeKey = claim.dedupeKey

/- The start was processed before the time. -/
def ProcessedBy
    (S : WelcomeSystem ω)
    (updateId : Int)
    (t : Time) : Prop :=
  ∀ s ∈ S.starts, s.updateId = updateId → s.processedAt ≤ t

def WorkerFits (S : WelcomeSystem ω) : Worker → Prop
| .claimed claim => S.ClaimFits claim
| .sending claim context =>
    S.ClaimFits claim ∧
      ∀ x, context = some x →
        startWelcomeContext claim = some x
| .welcomed claim updateId chatId messageId since =>
    S.ClaimFits claim ∧
      startWelcomeContext claim = some (updateId, chatId) ∧
      ⟨chatId, updateId, messageId⟩ ∈ S.sent ∧
      S.ProcessedBy updateId since
| _ => True

/- What is known of the recorded message of a chat. -/
structure Records
    (S : WelcomeSystem ω)
    (row : TelegramChatState)
    (messageId updateId : Int)
    (sentAt : Time) : Prop where
  recordedAt : row.lastWelcomeSentAt = some sentAt
  sent : ⟨row.chatId, updateId, messageId⟩ ∈ S.sent
  latest : updateId ≤ row.latestStartUpdateId
  -- no worker can record another message of the start
  done : ∃ r ∈ S.db.notificationOutbox, r.dedupeKey =
    startWelcomeDedupeKey updateId row.chatId ∧
      r.status = .sent
  processed : S.ProcessedBy updateId sentAt
  deleted : updateId < row.latestStartUpdateId →
    DeleteEnqueued row.chatId messageId
      S.db.notificationOutbox

/- The rows of the database and the starts agree. -/
structure Agrees
    (sha256 : Text → Text)
    (S : WelcomeSystem ω) : Prop where
  ids : (S.db.notificationOutbox.map
    NotificationOutbox.id).Nodup
  keys : (S.db.notificationOutbox.map
    NotificationOutbox.dedupeKey).Nodup
  fits : ∀ r ∈ S.db.notificationOutbox,
    RowFits sha256 S.starts r
  updates : ∀ s ∈ S.starts,
    s.updateId ∈ S.db.telegramUpdates.map
      TelegramUpdate.updateId
  once : ∀ s ∈ S.starts, ∀ s' ∈ S.starts,
    s.updateId = s'.updateId → s = s'
  natural : ∀ s ∈ S.starts, 0 ≤ s.updateId
  times : ∀ s ∈ S.starts, s.processedAt ≤ S.clock
  chatIds : (S.db.telegramChatStates.map
    TelegramChatState.chatId).Nodup
  latest : ∀ row ∈ S.db.telegramChatStates,
    IsGreatest (S.startsOf row.chatId)
      row.latestStartUpdateId
  known : ∀ s ∈ S.starts,
    ∃ row ∈ S.db.telegramChatStates, row.chatId = s.chatId

/- The invariant of runs. -/
structure Inv
    (sha256 : Text → Text)
    (S : WelcomeSystem ω) : Prop where
  agrees : S.Agrees sha256
  workers : ∀ w, S.WorkerFits (S.workers w)
  sentStart : ∀ x ∈ S.sent, ∃ s ∈ S.starts,
    s.updateId = x.updateId ∧ s.chatId = x.chatId
  sentOnce : ∀ x ∈ S.sent, ∀ x' ∈ S.sent,
    x.chatId = x'.chatId → x.messageId = x'.messageId →
      x.updateId = x'.updateId
  recorded : ∀ row ∈ S.db.telegramChatStates, ∀ messageId,
    row.lastWelcomeMessageId = some messageId →
      ∃ updateId sentAt,
        S.Records row messageId updateId sentAt
  accounted : ∀ x ∈ S.sent, S.Accounted x.chatId x.messageId

/- A start that was processed. -/
structure StartStep
    (settings : TelegramSettings)
    (S : WelcomeSystem ω)
    (command : StartCommand)
    (times : StartTimes)
    (S' : WelcomeSystem ω) : Prop where
  natural : 0 ≤ command.updateId
  time : times.currentTime ≤ S.clock
  fresh : ∀ row ∈ S.db.telegramUpdates,
    row.updateId ≠ command.updateId
  updates : S'.db.telegramUpdates.map
      TelegramUpdate.updateId =
    S.db.telegramUpdates.map TelegramUpdate.updateId ++
      [command.updateId]
  started : Started settings times command S.db S'.db
  clock : S'.clock = S.clock
  workers : S'.workers = S.workers
  starts : S'.starts = ⟨command.chatId, command.updateId,
    times.currentTime⟩ :: S.starts
  sent : S'.sent = S.sent
  attempted : S'.attempted = S.attempted

/- A welcome message that was recorded. -/
structure RecordStep
    (S : WelcomeSystem ω)
    (w : ω)
    (claim : ClaimedNotification)
    (updateId chatId messageId : Int)
    (S' : WelcomeSystem ω) : Prop where
  worker : ∃ since, S.workers w =
      .welcomed claim updateId chatId messageId since ∧
    ∃ now, since ≤ now ∧
      S'.db.telegramChatStates =
        Table.rewrite TelegramChatState.chatId chatId
          (TelegramChatState.welcomed messageId now)
          S.db.telegramChatStates
  latest : ∃ row ∈ S.db.telegramChatStates,
    row.chatId = chatId ∧
      row.latestStartUpdateId = updateId
  outbox : ∃ sentAt, markNotificationSent claim sentAt
    S.db.notificationOutbox = (true, S'.db.notificationOutbox)
  clock : S'.clock = S.clock
  workers : S'.workers = Function.update S.workers w .idle
  updates : S'.db.telegramUpdates = S.db.telegramUpdates
  starts : S'.starts = S.starts
  sent : S'.sent = S.sent
  attempted : S'.attempted = S.attempted

/- Neither starts nor chats change. -/
structure Quiet (S S' : WelcomeSystem ω) : Prop where
  starts : S'.starts = S.starts
  updates : S'.db.telegramUpdates = S.db.telegramUpdates
  states : S'.db.telegramChatStates = S.db.telegramChatStates

theorem recordWelcomeIfCurrent_false
    {chatId updateId messageId : Int}
    {now : Time}
    {rows : List TelegramChatState}
    (h : (recordWelcomeIfCurrent chatId updateId messageId now
      rows).1 = false) :
    (recordWelcomeIfCurrent chatId updateId messageId now
      rows).2 = rows := by
  unfold recordWelcomeIfCurrent at h ⊢
  split
  · rfl
  · rename_i row hFind
    rw [hFind] at h
    dsimp only at h
    split at h
    · rename_i hOther
      rw [if_pos hOther]
    · cases h

theorem recordWelcomeIfCurrent_true
    {chatId updateId messageId : Int}
    {now : Time}
    {rows : List TelegramChatState}
    (h : (recordWelcomeIfCurrent chatId updateId messageId now
      rows).1 = true) :
    (∃ row ∈ rows, row.chatId = chatId ∧
      row.latestStartUpdateId = updateId) ∧
    (recordWelcomeIfCurrent chatId updateId messageId now
      rows).2 = Table.rewrite TelegramChatState.chatId chatId
        (TelegramChatState.welcomed messageId now) rows := by
  unfold recordWelcomeIfCurrent at h ⊢
  split
  · rename_i hFind
    rw [hFind] at h
    cases h
  · rename_i row hFind
    rw [hFind] at h
    dsimp only at h
    split at h
    · cases h
    rename_i hSame
    rw [if_neg hSame]
    exact ⟨⟨row, Table.mem_of_find hFind,
      Table.key_of_find hFind, not_not.mp hSame⟩, rfl⟩

/- A finalization records the message, or changes no chat. -/
theorem finalized_cases
    {claim : ClaimedNotification}
    {chatId updateId messageId : Int}
    {sentAt now : Time}
    {isCurrent : Bool}
    {db db' : Db}
    (hOk : finalizeStartWelcomeSuccess claim chatId updateId
      messageId sentAt now db = (isCurrent, db')) :
    (isCurrent = false ∧ db'.telegramUpdates =
        db.telegramUpdates ∧
      db'.telegramChatStates = db.telegramChatStates ∧
      db'.notificationOutbox = (markNotificationSent claim
        sentAt db.notificationOutbox).2) ∨
    (isCurrent = true ∧ db'.telegramUpdates =
        db.telegramUpdates ∧
      (∃ row ∈ db.telegramChatStates, row.chatId = chatId ∧
        row.latestStartUpdateId = updateId) ∧
      db'.telegramChatStates =
        Table.rewrite TelegramChatState.chatId chatId
          (TelegramChatState.welcomed messageId now)
          db.telegramChatStates ∧
      markNotificationSent claim sentAt db.notificationOutbox =
        (true, db'.notificationOutbox)) := by
  unfold finalizeStartWelcomeSuccess at hOk
  cases hMark : markNotificationSent claim sentAt
      db.notificationOutbox with
  | mk marked outbox =>
      rw [hMark] at hOk
      cases marked with
      | false =>
          cases hOk
          refine .inl ⟨rfl, rfl, rfl, ?_⟩
          unfold markNotificationSent at hMark
          split at hMark
          · cases hMark
            rfl
          · cases hMark
      | true =>
          cases hOk
          cases hCurrent : (recordWelcomeIfCurrent chatId
              updateId messageId now
              db.telegramChatStates).1 with
          | false =>
              exact .inl ⟨rfl, rfl,
                recordWelcomeIfCurrent_false hCurrent, rfl⟩
          | true =>
              rcases recordWelcomeIfCurrent_true hCurrent with
                ⟨hRow, hRows⟩
              exact .inr ⟨rfl, rfl, hRow, hRows, rfl⟩

/- What a step does to starts and chats. -/
theorem Step.cases
    (hIds : (S.db.notificationOutbox.map
      NotificationOutbox.id).Nodup)
    (hStep : Step settings limits S a S') :
    S.Quiet S' ∨
      (∃ command times, a = .start command times.currentTime ∧
        S.StartStep settings command times S') ∨
      ∃ w claim updateId chatId messageId,
        S.RecordStep w claim updateId chatId messageId S' := by
  cases hStep with
  | @start ids times command processedAt processed db
      hNatural hTime hOk =>
      cases processed with
      | false =>
          rw [dropped_of_update hOk]
          exact .inl ⟨rfl, rfl, rfl⟩
      | true =>
          rcases updates_of_update hOk hIds with
            ⟨hFresh, hUpdates, hStarted⟩
          exact .inr (.inl ⟨command, times, rfl, hNatural,
            hTime, hFresh, hUpdates, hStarted, rfl, rfl, rfl,
            rfl, rfl⟩)
  | @finalize w claim updateId chatId messageId since sentAt
      now isCurrent db hWorker hSince hNow hOk =>
      rcases finalized_cases hOk with
        ⟨rfl, hUpdates, hStates, _⟩ |
        ⟨rfl, hUpdates, hRow, hStates, hMark⟩
      · exact .inl ⟨rfl, hUpdates, hStates⟩
      · exact .inr (.inr ⟨w, claim, updateId, chatId,
          messageId, ⟨since, hWorker, now, hSince, hStates⟩,
          hRow, ⟨sentAt, hMark⟩, rfl, rfl, hUpdates, rfl, rfl,
          rfl⟩)
  | _ => exact .inl ⟨rfl, rfl, rfl⟩

end WelcomeSystem

------------------------------------------------------------
-- What Is Kept
------------------------------------------------------------

namespace WelcomeSystem

variable {ω : Type}
variable [DecidableEq ω]
variable {settings : TelegramSettings}
variable {limits : ClaimSettings}
variable {sha256 : Text → Text}
variable {S S' : WelcomeSystem ω}
variable {a : Act ω}

namespace Later

omit [DecidableEq ω] in
/- A step that only works on the outbox and the histories. -/
theorem of_outbox
    (hClock : S'.clock = S.clock)
    (hStarts : S'.starts = S.starts)
    (hSent : ∀ x ∈ S.sent, x ∈ S'.sent)
    (hAttempted : ∀ p ∈ S.attempted, p ∈ S'.attempted)
    {calls : List TelegramCall}
    (hOutbox : Evolves calls S.db.notificationOutbox
      S'.db.notificationOutbox)
    (hFits : ∀ id now, ∀ call ∈ calls,
      RowFits sha256 S'.starts (newNotification id now call)) :
    Later sha256 S S' where
  clock := hClock.ge
  starts _ hs := hStarts ▸ hs
  fresh _ hs := .inl (hStarts ▸ hs)
  sent := hSent
  attempted := hAttempted
  outbox := ⟨calls, hOutbox, hFits⟩

omit [DecidableEq ω] in
theorem of_started
    (hSha : Function.Injective settings.sha256)
    (hHex : ∀ t, ':' ∉ settings.sha256 t)
    {command : StartCommand}
    {times : StartTimes}
    (hInv : S.Agrees settings.sha256)
    (h : S.StartStep settings command times S') :
    Later settings.sha256 S S' where
  clock := h.clock.ge
  starts s hs := by
    rw [h.starts]
    exact List.mem_cons_of_mem _ hs
  fresh s' hs' := by
    rw [h.starts] at hs'
    rcases List.mem_cons.mp hs' with rfl | hOld
    · refine .inr fun s hs hSame => ?_
      rcases List.mem_map.mp (hInv.updates s hs) with
        ⟨row, hRow, hUpdate⟩
      exact h.fresh row hRow (hUpdate.trans hSame)
    · exact .inl hOld
  sent x hx := h.sent ▸ hx
  attempted p hp := h.attempted ▸ hp
  outbox := by
    rcases h.started.outbox with ⟨calls, hEvolves, hCalls⟩
    refine ⟨calls, hEvolves, ?_⟩
    intro id now call hCall
    rcases hCalls call hCall with rfl | ⟨messageId, rfl⟩ | rfl
    · exact rowFits_deleteStart hSha hHex id now _
    · exact rowFits_deletePrevious hSha hHex id now _ _ _
    · exact rowFits_startWelcome id now _
        (h.starts ▸ List.mem_cons_self) rfl rfl

end Later

/- No step takes back what was done. -/
theorem Step.later
    (hSha : Function.Injective settings.sha256)
    (hHex : ∀ t, ':' ∉ settings.sha256 t)
    (hInv : S.Agrees settings.sha256)
    (hStep : Step settings limits S a S') :
    Later settings.sha256 S S' := by
  have hNone : ∀ {starts}, ∀ id now,
      ∀ call ∈ ([] : List TelegramCall),
        RowFits settings.sha256 starts
          (newNotification id now call) :=
    fun _ _ _ h => absurd h (by simp)
  have hSame := fun rows => Evolves.refl rows
  cases hStep with
  | tick hLater =>
      exact ⟨hLater, fun _ h => h, fun _ h => .inl h,
        fun _ h => h, fun _ h => h, [], hSame _, hNone⟩
  | @start ids times command processedAt processed db
      hNatural hTime hOk =>
      cases processed with
      | false =>
          rw [dropped_of_update hOk]
          exact .of_outbox rfl rfl (fun _ h => h)
            (fun _ h => h) (hSame _) hNone
      | true =>
          rcases updates_of_update hOk hInv.ids with
            ⟨hFresh, hUpdates, hStarted⟩
          exact .of_started hSha hHex hInv ⟨hNatural, hTime,
            hFresh, hUpdates, hStarted, rfl, rfl, rfl, rfl,
            rfl⟩
  | @other id now call rows hUnrelated hOk =>
      refine .of_outbox rfl rfl (fun _ h => h) (fun _ h => h)
        (evolves_enqueue hInv.ids hOk).1 ?_
      intro id now call' hCall
      rw [List.mem_singleton.mp hCall]
      exact hUnrelated.rowFits hSha hHex id now
  | claim _ hClaim =>
      exact .of_outbox rfl rfl (fun _ h => h) (fun _ h => h)
        (evolves_claim hClaim).1 hNone
  | send _ =>
      exact .of_outbox rfl rfl
        (fun _ h => List.mem_append_right _ h) (fun _ h => h)
        (hSame _) hNone
  | finishSuccess _ =>
      exact .of_outbox rfl rfl (fun _ h => h) (fun _ h => h)
        (evolves_sent hInv.ids) hNone
  | finishFailure _ =>
      exact .of_outbox rfl rfl (fun _ h => h) (fun _ h => h)
        (evolves_failed hInv.ids) hNone
  | @finalize w claim updateId chatId messageId since sentAt
      now isCurrent db _ _ _ hOk =>
      have hEvolves : Evolves [] S.db.notificationOutbox
          db.notificationOutbox := by
        have hMarked : Evolves [] S.db.notificationOutbox
            (markNotificationSent claim sentAt
              S.db.notificationOutbox).2 :=
          evolves_sent hInv.ids
        rcases finalized_cases hOk with
          ⟨_, _, _, hOutbox⟩ | ⟨_, _, _, _, hMark⟩
        · rw [hOutbox]
          exact hMarked
        · rw [hMark] at hMarked
          exact hMarked
      exact .of_outbox rfl rfl (fun _ h => h) (fun _ h => h)
        hEvolves hNone
  | clean _ =>
      exact .of_outbox rfl rfl (fun _ h => h)
        (fun _ h => List.mem_cons_of_mem _ h) (hSame _) hNone
  | check _ =>
      exact .of_outbox rfl rfl (fun _ h => h) (fun _ h => h)
        (hSame _) hNone
  | fail _ =>
      exact .of_outbox rfl rfl (fun _ h => h) (fun _ h => h)
        (hSame _) hNone
  | crash =>
      exact .of_outbox rfl rfl (fun _ h => h) (fun _ h => h)
        (hSame _) hNone

namespace Later

omit [DecidableEq ω] in
theorem claimFits
    (h : Later sha256 S S')
    {claim : ClaimedNotification}
    (hFits : S.ClaimFits claim) :
    S'.ClaimFits claim := by
  rcases h.outbox with ⟨_, hEvolves, _⟩
  rcases hFits with ⟨r, hr, hId, hKey⟩
  rcases hEvolves.stays r hr with ⟨r', hr', hKeeps⟩
  exact ⟨r', hr', hKeeps.id.trans hId,
    hKeeps.dedupeKey.trans hKey⟩

omit [DecidableEq ω] in
/- A start that was processed is not processed again. -/
theorem processedBy
    (h : Later sha256 S S')
    {updateId : Int}
    {t : Time}
    (hKnown : ∃ s ∈ S.starts, s.updateId = updateId)
    (hBy : S.ProcessedBy updateId t) :
    S'.ProcessedBy updateId t := by
  intro s' hs' hSame
  rcases h.fresh s' hs' with hOld | hNew
  · exact hBy s' hOld hSame
  · rcases hKnown with ⟨s, hs, hUpdate⟩
    exact absurd (hUpdate.trans hSame.symm) (hNew s hs)

omit [DecidableEq ω] in
theorem workerFits
    (h : Later sha256 S S')
    (hSent : ∀ x ∈ S.sent, ∃ s ∈ S.starts,
      s.updateId = x.updateId ∧ s.chatId = x.chatId)
    {worker : Worker}
    (hFits : S.WorkerFits worker) :
    S'.WorkerFits worker := by
  cases worker with
  | claimed claim => exact h.claimFits hFits
  | sending claim context =>
      exact ⟨h.claimFits hFits.1, hFits.2⟩
  | welcomed claim updateId chatId messageId since =>
      rcases hFits with ⟨hClaim, hContext, hMem, hBy⟩
      refine ⟨h.claimFits hClaim, hContext, h.sent _ hMem,
        h.processedBy ?_ hBy⟩
      rcases hSent _ hMem with ⟨s, hs, hUpdate, _⟩
      exact ⟨s, hs, hUpdate⟩
  | _ => trivial

omit [DecidableEq ω] in
theorem deleteEnqueued
    (h : Later sha256 S S')
    {chatId messageId : Int}
    (hDelete : DeleteEnqueued chatId messageId
      S.db.notificationOutbox) :
    DeleteEnqueued chatId messageId
      S'.db.notificationOutbox := by
  rcases h.outbox with ⟨_, hEvolves, _⟩
  exact hEvolves.deleteEnqueued hDelete

omit [DecidableEq ω] in
/- The recorded message of a row that stays as it is. -/
theorem records
    (h : Later sha256 S S')
    (hSent : ∀ x ∈ S.sent, ∃ s ∈ S.starts,
      s.updateId = x.updateId ∧ s.chatId = x.chatId)
    {row : TelegramChatState}
    {messageId updateId : Int}
    {sentAt : Time}
    (hRecords : S.Records row messageId updateId sentAt) :
    S'.Records row messageId updateId sentAt where
  recordedAt := hRecords.recordedAt
  sent := h.sent _ hRecords.sent
  latest := hRecords.latest
  done := by
    rcases h.outbox with ⟨_, hEvolves, _⟩
    rcases hRecords.done with ⟨r, hr, hKey, hStatus⟩
    rcases hEvolves.stays r hr with ⟨r', hr', hKeeps⟩
    exact ⟨r', hr', hKeeps.dedupeKey.trans hKey,
      hKeeps.sent hStatus⟩
  processed := by
    rcases hSent _ hRecords.sent with ⟨s, hs, hUpdate, _⟩
    exact h.processedBy ⟨s, hs, hUpdate⟩ hRecords.processed
  deleted hOlder := h.deleteEnqueued (hRecords.deleted hOlder)

end Later

end WelcomeSystem
