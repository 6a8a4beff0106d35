import DcInventory.TelegramBot.WelcomeSteps

/-
  This file proves that the invariant of starts and workers
  is kept by every step, when no worker dies before it has
  cleaned up, and every start that overtakes the others does
  so within 48 hours.

  The invariant says of the recorded message that its row in
  the outbox was sent, so that no worker can record another
  one for the same start.

  Key definitions include:
    * `Answers`
    * `CleansAlive`
    * `OvertakesInTime`

  Key theorems include:
    * `WelcomeSystem.Inv.step`
-/

namespace WelcomeSystem

variable {ω : Type}
variable [DecidableEq ω]
variable {settings : TelegramSettings}
variable {limits : ClaimSettings}
variable {sha256 : Text → Text}
variable {S S' : WelcomeSystem ω}
variable {a : Act ω}

------------------------------------------------------------
-- The Tables
------------------------------------------------------------

omit [DecidableEq ω] in
theorem startsOf_congr
    (h : S'.starts = S.starts)
    (chatId : Int) :
    S'.startsOf chatId = S.startsOf chatId := by
  unfold startsOf
  rw [h]

omit [DecidableEq ω] in
theorem startsOf_cons_of_ne
    {s : Start}
    {chatId : Int}
    (h : S'.starts = s :: S.starts)
    (hOther : s.chatId ≠ chatId) :
    S'.startsOf chatId = S.startsOf chatId := by
  ext u
  simp [startsOf, h, hOther]

omit [DecidableEq ω] in
theorem startsOf_cons_self
    {s : Start}
    (h : S'.starts = s :: S.starts) :
    S'.startsOf s.chatId =
      insert s.updateId (S.startsOf s.chatId) := by
  ext u
  simp [startsOf, h, eq_comm]

omit [DecidableEq ω] in
/- The latest update of a chat is that of the last start. -/
theorem latest_of_started
    {command : StartCommand}
    {times : StartTimes}
    (hAgrees : S.Agrees sha256)
    (h : S.StartStep settings command times S') :
    ∀ row ∈ S'.db.telegramChatStates,
      IsGreatest (S'.startsOf row.chatId)
        row.latestStartUpdateId := by
  intro row hRow
  rw [h.started.states] at hRow
  rcases mem_registerLatestStart hRow with
    ⟨hOld, hOther⟩ | ⟨old, hOld, hChat, rfl⟩ | ⟨rfl, hNew⟩
  · rw [startsOf_cons_of_ne h.starts (Ne.symm hOther)]
    exact hAgrees.latest row hOld
  · have hStarts := startsOf_cons_self h.starts
    rw [← hChat] at hStarts
    change IsGreatest (S'.startsOf old.chatId)
      (max old.latestStartUpdateId command.updateId)
    rw [hStarts, max_comm]
    exact (hAgrees.latest old hOld).insert _
  · rw [startsOf_cons_self h.starts]
    -- a chat without a row has had no start
    have hNone : S.startsOf command.chatId = ∅ := by
      rw [Set.eq_empty_iff_forall_notMem]
      intro u hu
      rcases hu with ⟨s, hs, hChat, _⟩
      rcases hAgrees.known s hs with ⟨old, hOld, hSame⟩
      exact hNew old hOld (hSame.trans hChat)
    rw [hNone, insert_empty_eq]
    exact isGreatest_singleton

omit [DecidableEq ω] in
/- The parts of the agreement that only need the outbox. -/
theorem Agrees.of_later
    (hAgrees : S.Agrees sha256)
    (hLater : Later sha256 S S') :
    (S'.db.notificationOutbox.map
        NotificationOutbox.id).Nodup ∧
      (S'.db.notificationOutbox.map
        NotificationOutbox.dedupeKey).Nodup ∧
      ∀ r ∈ S'.db.notificationOutbox,
        RowFits sha256 S'.starts r := by
  rcases hLater.outbox with ⟨calls, hEvolves, hCalls⟩
  exact ⟨hEvolves.ids hAgrees.ids, hEvolves.keys hAgrees.keys,
    hEvolves.rowFits hCalls fun r hr =>
      (hAgrees.fits r hr).mono hLater.starts⟩

omit [DecidableEq ω] in
theorem Agrees.quiet
    (hAgrees : S.Agrees sha256)
    (hLater : Later sha256 S S')
    (h : S.Quiet S') :
    S'.Agrees sha256 := by
  rcases hAgrees.of_later hLater with ⟨hIds, hKeys, hFits⟩
  refine ⟨hIds, hKeys, hFits, ?_, ?_, ?_, ?_, ?_, ?_, ?_⟩
  · rw [h.starts, h.updates]
    exact hAgrees.updates
  · rw [h.starts]
    exact hAgrees.once
  · rw [h.starts]
    exact hAgrees.natural
  · rw [h.starts]
    exact fun s hs => (hAgrees.times s hs).trans hLater.clock
  · rw [h.states]
    exact hAgrees.chatIds
  · rw [h.states]
    intro row hRow
    rw [startsOf_congr h.starts]
    exact hAgrees.latest row hRow
  · rw [h.starts, h.states]
    exact hAgrees.known

omit [DecidableEq ω] in
theorem Agrees.started
    {command : StartCommand}
    {times : StartTimes}
    (hAgrees : S.Agrees sha256)
    (hLater : Later sha256 S S')
    (h : S.StartStep settings command times S') :
    S'.Agrees sha256 := by
  rcases hAgrees.of_later hLater with ⟨hIds, hKeys, hFits⟩
  refine ⟨hIds, hKeys, hFits, ?_, ?_, ?_, ?_, ?_,
    latest_of_started hAgrees h, ?_⟩
  · rw [h.starts, h.updates]
    intro s hs
    rcases List.mem_cons.mp hs with rfl | hOld
    · exact List.mem_append_right _ List.mem_cons_self
    · exact List.mem_append_left _ (hAgrees.updates s hOld)
  · have hNew : ∀ s ∈ S.starts,
        s.updateId ≠ command.updateId := by
      intro s hs hSame
      rcases List.mem_map.mp (hAgrees.updates s hs) with
        ⟨row, hRow, hUpdate⟩
      exact h.fresh row hRow (hUpdate.trans hSame)
    rw [h.starts]
    intro s hs s' hs' hSame
    rcases List.mem_cons.mp hs with rfl | hOld
    · rcases List.mem_cons.mp hs' with rfl | hOld'
      · rfl
      · exact absurd hSame.symm (hNew s' hOld')
    · rcases List.mem_cons.mp hs' with rfl | hOld'
      · exact absurd hSame (hNew s hOld)
      · exact hAgrees.once s hOld s' hOld' hSame
  · rw [h.starts]
    exact List.forall_mem_cons.mpr
      ⟨h.natural, hAgrees.natural⟩
  · rw [h.starts, h.clock]
    exact List.forall_mem_cons.mpr ⟨h.time, hAgrees.times⟩
  · rw [h.started.states]
    exact registerLatestStart_chatIds hAgrees.chatIds
  · rw [h.starts, h.started.states]
    refine List.forall_mem_cons.mpr
      ⟨⟨_, registerLatestStart_state⟩, ?_⟩
    intro s hs
    rcases hAgrees.known s hs with ⟨row, hRow, hChat⟩
    rcases registerLatestStart_stays hRow with
      ⟨row', hRow', hSame, _⟩
    exact ⟨row', hRow', hSame.trans hChat⟩

omit [DecidableEq ω] in
/- A row with its welcome message recorded is the same row. -/
theorem mem_welcomed
    {chatId messageId : Int}
    {now : Time}
    {rows : List TelegramChatState}
    {row' : TelegramChatState}
    (hMem : row' ∈ Table.rewrite TelegramChatState.chatId
      chatId (TelegramChatState.welcomed messageId now) rows) :
    ∃ row ∈ rows, row'.chatId = row.chatId ∧
      row'.latestStartUpdateId = row.latestStartUpdateId := by
  rcases Table.mem_rewrite.mp hMem with
    ⟨hOld, _⟩ | ⟨row, hOld, _, rfl⟩
  · exact ⟨row', hOld, rfl, rfl⟩
  · exact ⟨row, hOld, rfl, rfl⟩

theorem welcomed_stays
    {chatId messageId : Int}
    {now : Time}
    {rows : List TelegramChatState}
    {row : TelegramChatState}
    (hMem : row ∈ rows) :
    ∃ row' ∈ Table.rewrite TelegramChatState.chatId chatId
        (TelegramChatState.welcomed messageId now) rows,
      row'.chatId = row.chatId ∧
        row'.latestStartUpdateId =
          row.latestStartUpdateId := by
  by_cases hChat : row.chatId = chatId
  · exact ⟨row.welcomed messageId now, Table.mem_rewrite.mpr
      (.inr ⟨row, hMem, hChat, rfl⟩), rfl, rfl⟩
  · exact ⟨row, Table.mem_rewrite.mpr (.inl ⟨hMem, hChat⟩),
      rfl, rfl⟩

theorem Agrees.recorded
    {w : ω}
    {claim : ClaimedNotification}
    {updateId chatId messageId : Int}
    (hAgrees : S.Agrees sha256)
    (hLater : Later sha256 S S')
    (h : S.RecordStep w claim updateId chatId messageId S') :
    S'.Agrees sha256 := by
  rcases hAgrees.of_later hLater with ⟨hIds, hKeys, hFits⟩
  rcases h.worker with ⟨_, _, now, _, hStates⟩
  refine ⟨hIds, hKeys, hFits, ?_, ?_, ?_, ?_, ?_, ?_, ?_⟩
  · rw [h.starts, h.updates]
    exact hAgrees.updates
  · rw [h.starts]
    exact hAgrees.once
  · rw [h.starts]
    exact hAgrees.natural
  · rw [h.starts, h.clock]
    exact hAgrees.times
  · have hKey : ∀ row : TelegramChatState,
        (row.welcomed messageId now).chatId = row.chatId :=
      fun _ => rfl
    rw [hStates, Table.map_key_rewrite hKey]
    exact hAgrees.chatIds
  · rw [hStates]
    intro row' hRow'
    rcases mem_welcomed hRow' with ⟨row, hRow, hChat, hLatest⟩
    rw [startsOf_congr h.starts, hChat, hLatest]
    exact hAgrees.latest row hRow
  · rw [h.starts, hStates]
    intro s hs
    rcases hAgrees.known s hs with ⟨row, hRow, hChat⟩
    rcases welcomed_stays hRow with ⟨row', hRow', hSame, _⟩
    exact ⟨row', hRow', hSame.trans hChat⟩

end WelcomeSystem

------------------------------------------------------------
-- Assumptions
------------------------------------------------------------

section Assumptions

variable {ω : Type}

/-
  Welcome messages that are sent are answered with a positive
  id that no other welcome message of the chat has.
-/
def Answers
    (S : WelcomeSystem ω) : WelcomeSystem.Act ω → Prop
| .send w result => ∀ claim updateId chatId,
    S.workers w = .sending claim (some (updateId, chatId)) →
    ∃ messageId, telegramMessageId result = some messageId ∧
      ∀ x ∈ S.sent, x.chatId = chatId →
        x.messageId ≠ messageId
| _ => True

/- Nor before it has tried to clean up after it. -/
def CleansAlive
    (S : WelcomeSystem ω) : WelcomeSystem.Act ω → Prop
| .crash w => ∀ chatId messageId,
    ¬ (S.workers w).Holds chatId messageId
| _ => True

/- Starts of a chat come within 48 hours of the one before. -/
def FollowsInTime
    (S : WelcomeSystem ω) : WelcomeSystem.Act ω → Prop
| .start command currentTime => ∀ s,
    S.starts.find? (fun s => s.chatId = command.chatId) =
      some s →
    currentTime < s.processedAt + startWelcomeDeleteWindow
| _ => True

/- So do starts that overtake, of the one they overtake. -/
def OvertakesInTime
    (S : WelcomeSystem ω) : WelcomeSystem.Act ω → Prop
| .start command currentTime => ∀ s ∈ S.starts,
    s.chatId = command.chatId →
    IsGreatest (S.startsOf command.chatId) s.updateId →
    s.updateId < command.updateId →
    currentTime < s.processedAt + startWelcomeDeleteWindow
| _ => True

end Assumptions

------------------------------------------------------------
-- Workers
------------------------------------------------------------

namespace WelcomeSystem

variable {ω : Type}
variable [DecidableEq ω]
variable {settings : TelegramSettings}
variable {limits : ClaimSettings}
variable {sha256 : Text → Text}
variable {S S' : WelcomeSystem ω}
variable {a : Act ω}

omit [DecidableEq ω] in
/- The start of a welcome message that was claimed. -/
theorem Agrees.start_of_claim
    (hAgrees : S.Agrees sha256)
    {claim : ClaimedNotification}
    {updateId chatId : Int}
    (hFits : S.ClaimFits claim)
    (hContext : startWelcomeContext claim =
      some (updateId, chatId)) :
    claim.dedupeKey = startWelcomeDedupeKey updateId chatId ∧
      ∃ s ∈ S.starts,
        s.updateId = updateId ∧ s.chatId = chatId := by
  rcases hFits with ⟨r, hr, _, hKey⟩
  rcases hAgrees.fits r hr with ⟨s, hs, hStart⟩ | ⟨hNone, _⟩
  · rw [hKey] at hStart
    rw [startWelcomeContext_startWelcomeDedupeKey hStart
      (hAgrees.natural s hs)] at hContext
    cases hContext
    exact ⟨hStart, s, hs, rfl, rfl⟩
  · rw [hKey] at hNone
    rw [startWelcomeContext_of_noColon hNone] at hContext
    cases hContext

theorem context_of_welcomeOf
    {context : Option (Int × Int)}
    {result : Json}
    {x : SentWelcome}
    (h : welcomeOf context result = some x) :
    context = some (x.updateId, x.chatId) ∧
      telegramMessageId result = some x.messageId := by
  unfold welcomeOf at h
  split at h
  · rename_i hMessage
    cases h
    exact ⟨rfl, hMessage⟩
  · cases h

/- Each worker still fits, and so does the one that moved. -/
theorem workerFits_update
    (hInv : S.Inv sha256)
    (hLater : Later sha256 S S')
    {w : ω}
    {worker : Worker}
    (hFits : S'.WorkerFits worker)
    (w' : ω) :
    S'.WorkerFits (Function.update S.workers w worker w') := by
  rcases eq_or_ne w' w with rfl | hOther
  · rw [Function.update_self]
    exact hFits
  · rw [Function.update_of_ne hOther]
    exact hLater.workerFits hInv.sentStart (hInv.workers w')

theorem workerFits_step
    (hInv : S.Inv sha256)
    (hLater : Later sha256 S S')
    (hStep : Step settings limits S a S')
    (w : ω) :
    S'.WorkerFits (S'.workers w) := by
  have hStays := fun w => hLater.workerFits hInv.sentStart
    (hInv.workers w)
  have hMoved : ∀ {w} {worker : Worker},
      S'.WorkerFits worker → ∀ w', S'.WorkerFits
        (Function.update S.workers w worker w') :=
    fun h w' => workerFits_update hInv hLater h w'
  cases hStep with
  | claim _ hClaim =>
      apply hMoved
      rcases evolves_claim hClaim with ⟨hEvolves, hRows⟩
      rcases hRows _ List.mem_cons_self with
        ⟨r, hr, hId, hKey⟩
      rcases hEvolves.stays r hr with ⟨r', hr', hKeeps⟩
      exact ⟨r', hr', hKeeps.id.trans hId,
        hKeeps.dedupeKey.trans hKey⟩
  | @check w claim hWorker =>
      apply hMoved
      have hFits := hInv.workers w
      rw [hWorker] at hFits
      unfold checked
      split
      · exact ⟨hLater.claimFits hFits, fun _ h => nomatch h⟩
      · rename_i updateId chatId hContext
        split
        · refine ⟨hLater.claimFits hFits, ?_⟩
          intro x hx
          cases hx
          exact hContext
        · trivial
  | @send w claim context result hWorker =>
      apply hMoved
      have hFits := hInv.workers w
      rw [hWorker] at hFits
      unfold afterSend
      split
      · rename_i x hSent
        refine ⟨hLater.claimFits hFits.1, hFits.2 _
          (context_of_welcomeOf hSent).1, ?_, ?_⟩
        · simp [hSent]
        · exact fun s hs _ => hInv.agrees.times s hs
      · trivial
  | finalize _ _ _ _ =>
      apply hMoved
      split <;> trivial
  | fail _ | finishSuccess _ | finishFailure _ | clean _
  | crash =>
      apply hMoved
      trivial
  | _ => exact hStays w

------------------------------------------------------------
-- Messages
------------------------------------------------------------

/- The messages that a step has sent. -/
theorem Step.sent_cases
    (hStep : Step settings limits S a S') :
    S'.sent = S.sent ∨
      ∃ w claim context result x,
        a = .send w result ∧
        S.workers w = .sending claim context ∧
        welcomeOf context result = some x ∧
        S'.workers w = .welcomed claim x.updateId x.chatId
          x.messageId S.clock ∧
        S'.starts = S.starts ∧
        S'.sent = x :: S.sent := by
  cases hStep with
  | @send w claim context result hWorker =>
      cases hSent : welcomeOf context result with
      | none => exact .inl rfl
      | some x =>
          refine .inr ⟨w, claim, context, result, x, rfl,
            hWorker, hSent, ?_, rfl, rfl⟩
          simp [afterSend, hSent]
  | _ => exact .inl rfl

theorem sentStart_step
    (hInv : S.Inv sha256)
    (hLater : Later sha256 S S')
    (hStep : Step settings limits S a S') :
    ∀ x ∈ S'.sent, ∃ s ∈ S'.starts,
      s.updateId = x.updateId ∧ s.chatId = x.chatId := by
  have hOld : ∀ x ∈ S.sent, ∃ s ∈ S'.starts,
      s.updateId = x.updateId ∧ s.chatId = x.chatId := by
    intro x hx
    rcases hInv.sentStart x hx with ⟨s, hs, hSame⟩
    exact ⟨s, hLater.starts s hs, hSame⟩
  rcases hStep.sent_cases with hSame |
    ⟨w, claim, context, result, x, _, hWorker, hSent, _,
      hStarts, hMore⟩
  · rw [hSame]
    exact hOld
  · rw [hMore]
    refine List.forall_mem_cons.mpr ⟨?_, hOld⟩
    have hFits := hInv.workers w
    rw [hWorker] at hFits
    rw [hStarts]
    exact (hInv.agrees.start_of_claim hFits.1 (hFits.2 _
      (context_of_welcomeOf hSent).1)).2

/- Two messages of a chat with one id are one message. -/
theorem sentOnce_step
    (hInv : S.Inv sha256)
    (hAnswers : Answers S a)
    (hStep : Step settings limits S a S') :
    ∀ x ∈ S'.sent, ∀ x' ∈ S'.sent, x.chatId = x'.chatId →
      x.messageId = x'.messageId →
        x.updateId = x'.updateId := by
  rcases hStep.sent_cases with hSame |
    ⟨w, claim, context, result, x, rfl, hWorker, hSent, _,
      _, hMore⟩
  · rw [hSame]
    exact hInv.sentOnce
  · rcases context_of_welcomeOf hSent with
      ⟨rfl, hMessage⟩
    rcases hAnswers claim x.updateId x.chatId hWorker with
      ⟨messageId, hAnswer, hNew⟩
    rw [hMessage] at hAnswer
    cases hAnswer
    rw [hMore]
    intro y hy y' hy' hChat hId
    rcases List.mem_cons.mp hy with rfl | hOld
    · rcases List.mem_cons.mp hy' with rfl | hOld'
      · rfl
      · exact absurd hId.symm (hNew y' hOld' hChat.symm)
    · rcases List.mem_cons.mp hy' with rfl | hOld'
      · exact absurd hId (hNew y hOld hChat)
      · exact hInv.sentOnce y hOld y' hOld' hChat hId

------------------------------------------------------------
-- Recorded Messages
------------------------------------------------------------

/- What a start finds of the message before. -/
theorem previousWelcome_started
    {row : TelegramChatState}
    {messageId updateId : Int}
    {sentAt now : Time}
    (hMessage : row.lastWelcomeMessageId = some messageId)
    (hSentAt : row.lastWelcomeSentAt = some sentAt)
    (hSoon : now < sentAt + startWelcomeDeleteWindow) :
    (row.started updateId).previousWelcome now =
      some messageId := by
  unfold TelegramChatState.previousWelcome
    TelegramChatState.started
  simp only [hMessage, hSentAt]
  exact if_pos hSoon

omit [DecidableEq ω] in
/- The message that a start overtakes can still be deleted. -/
theorem overtaken_soon
    {command : StartCommand}
    {currentTime : Time}
    {row : TelegramChatState}
    {messageId updateId : Int}
    {sentAt : Time}
    (hInv : S.Inv sha256)
    (hTime : OvertakesInTime S (.start command currentTime))
    (hRow : row ∈ S.db.telegramChatStates)
    (hChat : row.chatId = command.chatId)
    (hRecords : S.Records row messageId updateId sentAt)
    (hLatest : updateId = row.latestStartUpdateId)
    (hWins : row.latestStartUpdateId < command.updateId) :
    currentTime < sentAt + startWelcomeDeleteWindow := by
  rcases hInv.sentStart _ hRecords.sent with
    ⟨s, hs, hUpdate, hSame⟩
  have hStart : s.updateId = row.latestStartUpdateId :=
    hUpdate.trans hLatest
  have hGreatest := hInv.agrees.latest row hRow
  rw [hChat, ← hStart] at hGreatest
  have hSoon := hTime s hs (hSame.trans hChat) hGreatest
    (hStart.trans_lt hWins)
  have hBefore := hRecords.processed s hs hUpdate
  exact hSoon.trans_le (Nat.add_le_add_right hBefore _)

omit [DecidableEq ω] in
/-
  A start that wins has the message before it deleted: it was
  recorded after the start that is overtaken.
-/
theorem records_started
    (hHex : ∀ t, ':' ∉ settings.sha256 t)
    {command : StartCommand}
    {times : StartTimes}
    (hInv : S.Inv settings.sha256)
    (hAgrees : S'.Agrees settings.sha256)
    (hLater : Later settings.sha256 S S')
    (hTime : OvertakesInTime S
      (.start command times.currentTime))
    (h : S.StartStep settings command times S') :
    ∀ row ∈ S'.db.telegramChatStates, ∀ messageId,
      row.lastWelcomeMessageId = some messageId →
        ∃ updateId sentAt,
          S'.Records row messageId updateId sentAt := by
  intro row' hRow' messageId hMessage
  rw [h.started.states] at hRow'
  rcases mem_registerLatestStart hRow' with
    ⟨hOld, _⟩ | ⟨row, hRow, hChat, rfl⟩ | ⟨rfl, _⟩
  · rcases hInv.recorded row' hOld messageId hMessage with
      ⟨updateId, sentAt, hRecords⟩
    exact ⟨updateId, sentAt,
      hLater.records hInv.sentStart hRecords⟩
  · rcases hInv.recorded row hRow messageId hMessage with
      ⟨updateId, sentAt, hRecords⟩
    have hKept := hLater.records hInv.sentStart hRecords
    refine ⟨updateId, sentAt, hKept.recordedAt, hKept.sent,
      hKept.latest.trans (le_max_left _ _), hKept.done,
      hKept.processed, ?_⟩
    intro hOlder
    rcases hRecords.latest.lt_or_eq with hBefore | hLatest
    · exact hKept.deleted hBefore
    · have hWins : row.latestStartUpdateId <
          command.updateId := by
        have hMax : updateId < max row.latestStartUpdateId
          command.updateId := hOlder
        rw [hLatest] at hMax
        exact (lt_max_iff.mp hMax).resolve_left (lt_irrefl _)
      have hState : (registerLatestStart command.chatId
          command.updateId S.db.telegramChatStates).1 =
            row.started command.updateId := by
        have hFind := Table.find_of_mem hInv.agrees.chatIds
          hRow
        rw [hChat] at hFind
        unfold registerLatestStart
        rw [hFind]
      have hPrevious := h.started.previous
      rw [hState] at hPrevious
      rcases hPrevious (max_eq_right hWins.le) messageId
        (previousWelcome_started hMessage hRecords.recordedAt
          (overtaken_soon hInv hTime hRow hChat hRecords
            hLatest hWins)) with ⟨r, hr, hKey⟩
      have hDelete := (hAgrees.fits r hr).deletes hHex hKey
      exact ⟨r, hr, by rw [hDelete.1],
        by rw [hDelete.2, ← hChat]; rfl⟩
  · cases hMessage

/- Other chats keep their message when one is recorded. -/
theorem records_recorded
    {w : ω}
    {claim : ClaimedNotification}
    {updateId chatId messageId : Int}
    (hInv : S.Inv sha256)
    (hLater : Later sha256 S S')
    (h : S.RecordStep w claim updateId chatId messageId S') :
    ∀ row ∈ S'.db.telegramChatStates, ∀ messageId,
      row.lastWelcomeMessageId = some messageId →
        ∃ updateId sentAt,
          S'.Records row messageId updateId sentAt := by
  intro row' hRow' messageId' hMessage
  rcases h.worker with ⟨since, hWorker, now, hSince, hStates⟩
  rw [hStates] at hRow'
  rcases Table.mem_rewrite.mp hRow' with
    ⟨hOld, _⟩ | ⟨row, hRow, hChat, rfl⟩
  · rcases hInv.recorded row' hOld messageId' hMessage with
      ⟨updateId', sentAt, hRecords⟩
    exact ⟨updateId', sentAt,
      hLater.records hInv.sentStart hRecords⟩
  · cases hMessage
    have hFits := hInv.workers w
    rw [hWorker] at hFits
    rcases hFits with ⟨hClaim, hContext, hSent, hBefore⟩
    rcases hInv.agrees.start_of_claim hClaim hContext with
      ⟨hKey, s, hs, hUpdate, _⟩
    have hLatest : row.latestStartUpdateId = updateId := by
      rcases h.latest with ⟨row', hRow', hChat', hSame⟩
      have hEq : row = row' := List.inj_on_of_nodup_map
        hInv.agrees.chatIds hRow hRow'
        (hChat.trans hChat'.symm)
      rw [hEq]
      exact hSame
    refine ⟨updateId, now, rfl, ?_, hLatest.ge, ?_, ?_, ?_⟩
    · change ⟨row.chatId, updateId, messageId⟩ ∈ S'.sent
      rw [hChat, h.sent]
      exact hSent
    · rcases h.outbox with ⟨sentAt, hMark⟩
      rcases hLater.claimFits hClaim with ⟨r, hr, hId, hSame⟩
      refine ⟨r, hr, ?_, (row_of_sent hMark).2 r hr hId⟩
      change r.dedupeKey =
        startWelcomeDedupeKey updateId row.chatId
      rw [hChat]
      exact hSame.trans hKey
    · apply hLater.processedBy ⟨s, hs, hUpdate⟩
      exact fun s hs hSame => (hBefore s hs hSame).trans hSince
    · intro hOlder
      exact absurd (hLatest ▸ hOlder) (lt_irrefl _)

/- A message that is overwritten was to be deleted. -/
theorem deleted_of_overwritten
    {w : ω}
    {claim : ClaimedNotification}
    {updateId chatId messageId old : Int}
    (hInv : S.Inv sha256)
    (h : S.RecordStep w claim updateId chatId messageId S')
    (hOld : Recorded chatId old S.db.telegramChatStates) :
    DeleteEnqueued chatId old S.db.notificationOutbox := by
  rcases hOld with ⟨row, hRow, rfl, hMessage⟩
  rcases hInv.recorded row hRow old hMessage with
    ⟨updateId', sentAt, hRecords⟩
  rcases h.latest with ⟨row', hRow', hChat, hLatest⟩
  have hEq : row' = row := List.inj_on_of_nodup_map
    hInv.agrees.chatIds hRow' hRow hChat
  rw [hEq] at hLatest
  rcases hRecords.latest.lt_or_eq with hBefore | hSame
  · exact hRecords.deleted hBefore
  · -- then its row would be pending, and was sent
    exfalso
    rcases h.worker with ⟨since, hWorker, _⟩
    have hFits := hInv.workers w
    rw [hWorker] at hFits
    have hKey := (hInv.agrees.start_of_claim hFits.1
      hFits.2.1).1
    rcases h.outbox with ⟨sentAt', hMark⟩
    rcases (row_of_sent hMark).1 with
      ⟨r, hr, hId, hPending⟩
    rcases hFits.1 with ⟨r', hr', hId', hKey'⟩
    have hRowEq : r = r' := List.inj_on_of_nodup_map
      hInv.agrees.ids hr hr' (hId.trans hId'.symm)
    rcases hRecords.done with ⟨d, hd, hDone, hStatus⟩
    have hRowEq' : d = r' := by
      apply List.inj_on_of_nodup_map hInv.agrees.keys hd hr'
      rw [hDone, hKey', hKey, hSame, hLatest]
    rw [hRowEq, ← hRowEq', hStatus] at hPending
    cases hPending

------------------------------------------------------------
-- Messages Stay Accounted For
------------------------------------------------------------

/- A recorded message stays so, or is to be deleted. -/
theorem recorded_step
    (hInv : S.Inv settings.sha256)
    (hLater : Later settings.sha256 S S')
    (hStep : Step settings limits S a S')
    {chatId messageId : Int}
    (hRecorded : Recorded chatId messageId
      S.db.telegramChatStates) :
    Recorded chatId messageId S'.db.telegramChatStates ∨
      DeleteEnqueued chatId messageId
        S'.db.notificationOutbox := by
  rcases hStep.cases hInv.agrees.ids with
    hQuiet | ⟨command, times, _, hStart⟩ |
    ⟨w, claim, updateId, chatId', messageId', hRecord⟩
  · rw [hQuiet.states]
    exact .inl hRecorded
  · rcases hRecorded with ⟨row, hRow, hChat, hMessage⟩
    rcases registerLatestStart_stays hRow with
      ⟨row', hRow', hSame, _, hKept⟩
    exact .inl ⟨row', hStart.started.states ▸ hRow',
      hSame.trans hChat, hKept.trans hMessage⟩
  · by_cases hChat : chatId' = chatId
    · rw [hChat] at hRecord
      exact .inr (hLater.deleteEnqueued
        (deleted_of_overwritten hInv hRecord hRecorded))
    · rcases hRecorded with ⟨row, hRow, rfl, hMessage⟩
      rcases hRecord.worker with ⟨_, _, now, _, hStates⟩
      rw [hStates]
      exact .inl ⟨row, Table.mem_rewrite.mpr
        (.inl ⟨hRow, Ne.symm hChat⟩), rfl, hMessage⟩

/- A held message stays so, or is recorded or cleaned up. -/
theorem held_step
    (hAlive : CleansAlive S a)
    (hStep : Step settings limits S a S')
    {chatId messageId : Int}
    {w : ω}
    (hHolds : (S.workers w).Holds chatId messageId) :
    S'.Accounted chatId messageId := by
  have hOther : ∀ {w'} {worker : Worker},
      ¬ (S.workers w').Holds chatId messageId →
      (Function.update S.workers w' worker w).Holds chatId
        messageId := by
    intro w' worker hIdle
    rcases eq_or_ne w w' with rfl | hNe
    · exact absurd hHolds hIdle
    · rw [Function.update_of_ne hNe]
      exact hHolds
  have hIdle : ∀ {w'} {worker : Worker},
      S.workers w' = worker →
      ¬ worker.Holds chatId messageId →
      ¬ (S.workers w').Holds chatId messageId := by
    intro w' worker hWorker hNot
    rw [hWorker]
    exact hNot
  cases hStep with
  | tick _ | other _ _ | start _ _ _ =>
      exact .inr (.inl ⟨w, hHolds⟩)
  | claim hWorker _ | check hWorker | send hWorker
  | fail hWorker | finishFailure hWorker =>
      exact .inr (.inl ⟨w, hOther (hIdle hWorker id)⟩)
  | finishSuccess hWorker =>
      refine .inr (.inl ⟨w, hOther ?_⟩)
      rcases hWorker with hWorker | hWorker
      · exact hIdle hWorker id
      · exact hIdle hWorker id
  | crash =>
      exact .inr (.inl ⟨w, hOther (hAlive chatId messageId)⟩)
  | @clean w' chatId' messageId' hWorker =>
      rcases eq_or_ne w w' with rfl | hNe
      · rw [hWorker] at hHolds
        rcases hHolds with ⟨rfl, rfl⟩
        exact .inr (.inr (.inr List.mem_cons_self))
      · refine .inr (.inl ⟨w, ?_⟩)
        dsimp only
        rw [Function.update_of_ne hNe]
        exact hHolds
  | @finalize w' claim updateId chatId' messageId' since
      sentAt now isCurrent db hWorker _ _ hOk =>
      rcases eq_or_ne w w' with rfl | hNe
      · rw [hWorker] at hHolds
        rcases hHolds with ⟨rfl, rfl⟩
        rcases finalized_cases hOk with
          ⟨rfl, _⟩ | ⟨rfl, _, ⟨row, hRow, hChat, _⟩, hStates, _⟩
        · refine .inr (.inl ⟨w, ?_⟩)
          simp [Worker.Holds]
        · refine .inl ⟨row.welcomed messageId' now, ?_, hChat,
            rfl⟩
          dsimp only
          rw [hStates]
          exact Table.mem_rewrite.mpr
            (.inr ⟨row, hRow, hChat, rfl⟩)
      · refine .inr (.inl ⟨w, ?_⟩)
        dsimp only
        rw [Function.update_of_ne hNe]
        exact hHolds

theorem accounted_step
    (hInv : S.Inv settings.sha256)
    (hLater : Later settings.sha256 S S')
    (hAlive : CleansAlive S a)
    (hStep : Step settings limits S a S') :
    ∀ x ∈ S'.sent, S'.Accounted x.chatId x.messageId := by
  have hOld : ∀ x ∈ S.sent,
      S'.Accounted x.chatId x.messageId := by
    intro x hx
    rcases hInv.accounted x hx with
      hRecorded | ⟨w, hHolds⟩ | hDelete | hAttempted
    · rcases recorded_step hInv hLater hStep hRecorded with
        hStays | hDelete
      · exact .inl hStays
      · exact .inr (.inr (.inl hDelete))
    · exact held_step hAlive hStep hHolds
    · exact .inr (.inr (.inl (hLater.deleteEnqueued hDelete)))
    · exact .inr (.inr (.inr (hLater.attempted _ hAttempted)))
  rcases hStep.sent_cases with hSame |
    ⟨w, claim, context, result, x, _, _, _, hWorker, _, hMore⟩
  · rw [hSame]
    exact hOld
  · rw [hMore]
    refine List.forall_mem_cons.mpr ⟨?_, hOld⟩
    refine .inr (.inl ⟨w, ?_⟩)
    rw [hWorker]
    exact ⟨rfl, rfl⟩

/- What every step of a permitted run preserves. -/
theorem Inv.step
    (hSha : Function.Injective settings.sha256)
    (hHex : ∀ t, ':' ∉ settings.sha256 t)
    (hInv : S.Inv settings.sha256)
    (hAnswers : Answers S a)
    (hAlive : CleansAlive S a)
    (hTime : OvertakesInTime S a)
    (hStep : Step settings limits S a S') :
    S'.Inv settings.sha256 := by
  have hLater := hStep.later hSha hHex hInv.agrees
  have hRest : S'.Agrees settings.sha256 ∧
      ∀ row ∈ S'.db.telegramChatStates, ∀ messageId,
        row.lastWelcomeMessageId = some messageId →
          ∃ updateId sentAt,
            S'.Records row messageId updateId sentAt := by
    rcases hStep.cases hInv.agrees.ids with
      hQuiet | ⟨command, times, rfl, hStart⟩ |
      ⟨w, claim, updateId, chatId, messageId, hRecord⟩
    · refine ⟨hInv.agrees.quiet hLater hQuiet, ?_⟩
      rw [hQuiet.states]
      intro row hRow messageId hMessage
      rcases hInv.recorded row hRow messageId hMessage with
        ⟨updateId, sentAt, hRecords⟩
      exact ⟨updateId, sentAt,
        hLater.records hInv.sentStart hRecords⟩
    · have hAgrees := hInv.agrees.started hLater hStart
      exact ⟨hAgrees, records_started hHex hInv hAgrees hLater
        hTime hStart⟩
    · exact ⟨hInv.agrees.recorded hLater hRecord,
        records_recorded hInv hLater hRecord⟩
  exact ⟨hRest.1, workerFits_step hInv hLater hStep,
    sentStart_step hInv hLater hStep,
    sentOnce_step hInv hAnswers hStep, hRest.2,
    accounted_step hInv hLater hAlive hStep⟩

omit [DecidableEq ω] in
theorem inv_initial (clock : Time) :
    (initial ω clock).Inv sha256 where
  agrees := by
    refine ⟨?_, ?_, ?_, ?_, ?_, ?_, ?_, ?_, ?_, ?_⟩ <;>
      simp [initial, Db.empty]
  workers _ := trivial
  sentStart _ h := absurd h (by simp [initial])
  sentOnce _ h := absurd h (by simp [initial])
  recorded _ h := absurd h (by simp [initial, Db.empty])
  accounted _ h := absurd h (by simp [initial])

end WelcomeSystem
