import DcInventory.Access.Decisions
import DcInventory.Library.Framing
import DcInventory.Library.Signatures
import DcInventory.Notifications.MessageLimits
import DcInventory.TelegramBot.WelcomeProtocol

/-
  This file proves that the dedupe keys of calls tell what
  they notify of: calls of different places, or of one place
  with other arguments, have different keys, so that the
  outbox drops a call only when it repeats another.

  Key definitions include:
    * `Notification`
    * `Notification.key`
    * `Notification.EnqueuedAs`
    * `OutboxRun`

  Key theorems include:
    * `Notification.hashedText_inj`
    * `Notification.key_inj`
    * `OutboxRun.row_of_done`
    * `only_repetitions_are_dropped`
-/

/- The digest is 64 hexadecimal digits. -/
structure HexDigest (sha256 : Text → Text) : Prop where
  length : ∀ text, (sha256 text).length = 64
  digits : ∀ text, ∀ c ∈ sha256 text,
    c ∈ "0123456789abcdef".toList

------------------------------------------------------------
-- Notifications
------------------------------------------------------------

/-
  What a call notifies of: the place that enqueues it, with
  the arguments of its dedupe key.
-/
inductive Notification where
| accessRequestAdmin (accessRequestId : Uuid)
| accessDecisionUser (accessRequestId : Uuid)
| callbackAnswer (callbackQueryId : Text)
| accessButtonsClear (callbackQueryId : Text)
| deleteStart (updateId : Int)
| deletePrevious (chatId messageId : Int)
| procurement (eventId userId : Uuid)
| inventoryIssue (movementId : Uuid)
| startWelcome (updateId chatId : Int)
deriving DecidableEq

namespace Notification

/- The first and the last part of a key that is hashed. -/
def tags : Notification → Option (Text × Text)
| .accessRequestAdmin _ =>
    some ("access-request".toList, "admin".toList)
| .accessDecisionUser _ =>
    some ("access-request".toList, "user-decision".toList)
| .callbackAnswer _ =>
    some ("callback".toList, "answer".toList)
| .accessButtonsClear _ =>
    some ("callback".toList, "clear-buttons".toList)
| .deleteStart _ =>
    some ("telegram-update".toList, "delete-start".toList)
| .deletePrevious _ _ =>
    some ("telegram-start".toList, "delete-previous".toList)
| .procurement _ _ =>
    some ("procurement".toList, "telegram".toList)
| .inventoryIssue _ =>
    some ("inventory-issue".toList, "admin".toList)
| .startWelcome _ _ => none

/- The arguments, as they are written into the key. -/
def arguments : Notification → List Text
| .accessRequestAdmin accessRequestId => [accessRequestId.str]
| .accessDecisionUser accessRequestId => [accessRequestId.str]
| .callbackAnswer callbackQueryId => [callbackQueryId]
| .accessButtonsClear callbackQueryId => [callbackQueryId]
| .deleteStart updateId => [intText updateId]
| .deletePrevious chatId messageId =>
    [intText chatId, intText messageId]
| .procurement eventId userId => [eventId.str, userId.str]
| .inventoryIssue movementId => [movementId.str]
| .startWelcome updateId chatId =>
    [intText updateId, intText chatId]

/- The text that is hashed, if any. -/
def hashedText (n : Notification) : Option Text :=
  n.tags.map (fun tags =>
    joinParts (tags.1 :: (n.arguments ++ [tags.2])))

/- The dedupe key. -/
def key (sha256 : Text → Text) : Notification → Text
| .startWelcome updateId chatId =>
    startWelcomeDedupeKey updateId chatId
| n => sha256 (n.hashedText.getD [])

/- The calls that are enqueued for a notification. -/
inductive EnqueuedAs (settings : TelegramSettings) :
    Notification → TelegramCall → Prop where
| accessRequestAdmin
    {notificationId accessRequestId identity approve reject} :
    EnqueuedAs settings (.accessRequestAdmin accessRequestId)
      (accessRequestAdminCall settings notificationId
        accessRequestId identity approve reject)
| accessDecisionUser
    {accessRequestId targetIdentity status} :
    EnqueuedAs settings (.accessDecisionUser accessRequestId)
      (accessDecisionUserCall settings accessRequestId
        targetIdentity status)
| callbackAnswer {callbackQueryId text} :
    EnqueuedAs settings (.callbackAnswer callbackQueryId)
      (callbackAnswerCall settings callbackQueryId text)
| accessButtonsClear
    {callbackQueryId messageChatId messageId} :
    EnqueuedAs settings (.accessButtonsClear callbackQueryId)
      (accessButtonsClearCall settings callbackQueryId
        messageChatId messageId)
| deleteStart {currentTime command} :
    EnqueuedAs settings (.deleteStart command.updateId)
      (deleteStartCall settings currentTime command)
| deletePrevious {currentTime chatId messageId} :
    EnqueuedAs settings (.deletePrevious chatId messageId)
      (deletePreviousCall settings currentTime chatId
        messageId)
| procurement {eventId text recipient} :
    EnqueuedAs settings (.procurement eventId recipient.1)
      (Procurement.procurementCall settings.sha256 eventId text
        recipient)
| inventoryIssue {record call} :
    issueAdminCall settings record = some call →
    EnqueuedAs settings (.inventoryIssue record.movement.id)
      call
| startWelcome {currentTime command} :
    EnqueuedAs settings
      (.startWelcome command.updateId command.chatId)
      (startWelcomeCall settings currentTime command)

variable {settings : TelegramSettings}
variable {sha256 : Text → Text}
variable {n n' : Notification}
variable {call call' : TelegramCall}

/- The key of a call is that of what it notifies of. -/
theorem EnqueuedAs.dedupeKey
    (h : n.EnqueuedAs settings call) :
    call.dedupeKey = n.key settings.sha256 := by
  cases h with
  | inventoryIssue hCall =>
      unfold issueAdminCall at hCall
      split at hCall
      · cases hCall
      · split at hCall
        · cases hCall
        · cases hCall
          rfl
  | accessRequestAdmin => rfl
  | accessDecisionUser => rfl
  | callbackAnswer => rfl
  | accessButtonsClear => rfl
  | deleteStart => rfl
  | deletePrevious => rfl
  | procurement => rfl
  | startWelcome => rfl

------------------------------------------------------------
-- Texts
------------------------------------------------------------

theorem not_pipe_of_mem_tags
    {tags : Text × Text}
    (h : n.tags = some tags) :
    '|' ∉ tags.1 ∧ '|' ∉ tags.2 := by
  cases n <;> cases h <;> decide

theorem arguments_ne_nil (n : Notification) :
    n.arguments ≠ [] := by
  cases n <;> exact List.cons_ne_nil _ _

theorem joinParts_append
    {parts : List Text}
    (hSome : parts ≠ [])
    (last : Text) :
    joinParts (parts ++ [last]) =
      joinParts parts ++ '|' :: last := by
  induction parts with
  | nil => exact absurd rfl hSome
  | cons part parts ih =>
      cases parts with
      | nil => rfl
      | cons p ps =>
          change part ++ '|' :: joinParts (p :: ps ++ [last]) =
            (part ++ '|' :: joinParts (p :: ps)) ++ '|' :: last
          rw [ih (List.cons_ne_nil p ps), List.append_assoc,
            List.cons_append]

/- The text that is hashed is a frame of its arguments. -/
theorem hashedText_eq
    {tags : Text × Text}
    (h : n.tags = some tags) :
    n.hashedText = some (Framing.frame '|' tags.1
      (joinParts n.arguments) tags.2) := by
  have hJoin := joinParts_append n.arguments_ne_nil tags.2
  unfold hashedText Framing.frame
  rw [h, Option.map_some, ← hJoin]
  cases hParts : n.arguments ++ [tags.2] with
  | nil => simp at hParts
  | cons p ps => rfl

private theorem pipe_is_no_digit
    (rest : Text) :
    ∀ c, ('|' :: rest).head? = some c →
      c.isDigit = false := by
  intro c hc
  cases hc
  decide

theorem intText_injective {a b : Int}
    (h : intText a = intText b) :
    a = b := by
  have hNone : ∀ c, ([] : Text).head? = some c →
      c.isDigit = false := by
    intro c hc
    cases hc
  have hAppend : intText a ++ [] = intText b ++ [] := by
    rw [h]
  exact (intText_append_inj hNone hNone hAppend).1

/- Notifications of one place with one text are the same. -/
theorem eq_of_arguments
    (hTags : n.tags = n'.tags)
    (hSome : n.tags.isSome)
    (hText : joinParts n.arguments = joinParts n'.arguments) :
    n = n' := by
  cases n <;> cases n' <;>
    first
    | (simp [tags] at hTags; done)
    | skip
  case accessRequestAdmin.accessRequestAdmin =>
    rw [Uuid.str_injective hText]
  case accessDecisionUser.accessDecisionUser =>
    rw [Uuid.str_injective hText]
  case callbackAnswer.callbackAnswer =>
    exact congrArg callbackAnswer hText
  case accessButtonsClear.accessButtonsClear =>
    exact congrArg accessButtonsClear hText
  case deleteStart.deleteStart =>
    rw [intText_injective hText]
  case deletePrevious.deletePrevious =>
    rcases intText_append_inj (pipe_is_no_digit _)
      (pipe_is_no_digit _) hText with ⟨hChat, hRest⟩
    rw [hChat, intText_injective (List.cons.inj hRest).2]
  case procurement.procurement =>
    have hParts := List.append_inj hText (by
      rw [Uuid.str_length, Uuid.str_length])
    rw [Uuid.str_injective hParts.1,
      Uuid.str_injective (List.cons.inj hParts.2).2]
  case inventoryIssue.inventoryIssue =>
    rw [Uuid.str_injective hText]
  case startWelcome.startWelcome => cases hSome

/-
  The text that is hashed tells its notification, whatever is
  in the id of a callback query.
-/
theorem hashedText_inj
    {text : Text}
    (h : n.hashedText = some text)
    (h' : n'.hashedText = some text) :
    n = n' := by
  cases hTags : n.tags with
  | none =>
      rw [hashedText, hTags] at h
      cases h
  | some tags =>
      cases hTags' : n'.tags with
      | none =>
          rw [hashedText, hTags'] at h'
          cases h'
      | some tags' =>
          rw [hashedText_eq hTags] at h
          rw [hashedText_eq hTags', ← h] at h'
          -- what is outside the outer separators has none
          have hPipes := not_pipe_of_mem_tags hTags
          have hPipes' := not_pipe_of_mem_tags hTags'
          rcases Framing.frame_inj hPipes.1 hPipes'.1 hPipes.2
            hPipes'.2 (Option.some.inj h').symm with
              ⟨hFirst, hMiddle, hLast⟩
          apply eq_of_arguments _ _ hMiddle
          · rw [hTags, hTags', Prod.ext hFirst hLast]
          · rw [hTags]
            rfl

------------------------------------------------------------
-- Keys
------------------------------------------------------------

theorem not_colon_of_digest
    (h : HexDigest sha256)
    (text : Text) :
    ':' ∉ sha256 text := by
  intro hMem
  exact absurd (h.digits text ':' hMem) (by decide)

/- A key is a digest, or the raw key of a welcome message. -/
theorem key_cases (sha256 : Text → Text) (n : Notification) :
    (∃ text, n.hashedText = some text ∧
        n.key sha256 = sha256 text) ∨
      ∃ updateId chatId, n = .startWelcome updateId chatId := by
  cases n with
  | startWelcome updateId chatId =>
      exact .inr ⟨updateId, chatId, rfl⟩
  | accessRequestAdmin => exact .inl ⟨_, rfl, rfl⟩
  | accessDecisionUser => exact .inl ⟨_, rfl, rfl⟩
  | callbackAnswer => exact .inl ⟨_, rfl, rfl⟩
  | accessButtonsClear => exact .inl ⟨_, rfl, rfl⟩
  | deleteStart => exact .inl ⟨_, rfl, rfl⟩
  | deletePrevious => exact .inl ⟨_, rfl, rfl⟩
  | procurement => exact .inl ⟨_, rfl, rfl⟩
  | inventoryIssue => exact .inl ⟨_, rfl, rfl⟩

theorem colon_mem_startWelcome
    (updateId chatId : Int) :
    ':' ∈ startWelcomeDedupeKey updateId chatId := by
  simp [startWelcomeDedupeKey]

theorem startWelcomeDedupeKey_inj
    {updateId chatId updateId' chatId' : Int}
    (h : startWelcomeDedupeKey updateId chatId =
      startWelcomeDedupeKey updateId' chatId') :
    updateId = updateId' ∧ chatId = chatId' := by
  have hParts := Framing.before_inj not_colon_of_mem_intText
    not_colon_of_mem_intText (List.append_cancel_left h)
  exact ⟨intText_injective hParts.1,
    intText_injective hParts.2⟩

/- The texts that are hashed for notifications. -/
def hashedTexts (ns : List Notification) : List Text :=
  ns.filterMap hashedText

theorem mem_hashedTexts
    {ns : List Notification}
    {text : Text}
    (hMem : n ∈ ns)
    (h : n.hashedText = some text) :
    text ∈ hashedTexts ns :=
  List.mem_filterMap.mpr ⟨n, hMem, h⟩

/- A key tells its notification, if no digests collide. -/
theorem key_inj
    (hHex : HexDigest sha256)
    {ns : List Notification}
    (hFree : CollisionFree sha256 (hashedTexts ns))
    (hn : n ∈ ns)
    (hn' : n' ∈ ns)
    (h : n.key sha256 = n'.key sha256) :
    n = n' := by
  rcases key_cases sha256 n with
    ⟨text, hText, hKey⟩ | ⟨updateId, chatId, rfl⟩
  · rcases key_cases sha256 n' with
      ⟨text', hText', hKey'⟩ | ⟨updateId, chatId, rfl⟩
    · rw [hKey, hKey'] at h
      have hSame := hFree text (mem_hashedTexts hn hText) text'
        (mem_hashedTexts hn' hText') h
      subst hSame
      exact hashedText_inj hText hText'
    · have hColon := colon_mem_startWelcome updateId chatId
      rw [hKey] at h
      change sha256 text = startWelcomeDedupeKey _ _ at h
      rw [← h] at hColon
      exact absurd hColon (not_colon_of_digest hHex text)
  · rcases key_cases sha256 n' with
      ⟨text', hText', hKey'⟩ | ⟨updateId', chatId', rfl⟩
    · have hColon := colon_mem_startWelcome updateId chatId
      rw [hKey'] at h
      change startWelcomeDedupeKey _ _ = sha256 text' at h
      rw [h] at hColon
      exact absurd hColon (not_colon_of_digest hHex text')
    · rcases startWelcomeDedupeKey_inj h with ⟨rfl, rfl⟩
      rfl

/-
  The ids of a welcome message are in the columns of
  `telegram_updates` and `telegram_chat_states` before its key
  is made.
-/
def InColumns : Notification → Prop
| .startWelcome updateId chatId =>
    0 ≤ updateId ∧ InBigInt updateId ∧ InBigInt chatId
| _ => True

theorem length_key_le
    (hHex : HexDigest sha256)
    (h : n.InColumns) :
    (n.key sha256).length ≤ 128 := by
  rcases key_cases sha256 n with
    ⟨text, hText, hKey⟩ | ⟨updateId, chatId, rfl⟩
  · rw [hKey, hHex.length]
    decide
  · have hUpdate := length_dumpInt_of_inBigInt h.2.1
    have hChat := length_dumpInt_of_inBigInt h.2.2
    have hHead : startWelcomeDedupePrefix.length = 23 := rfl
    change (startWelcomeDedupeKey updateId chatId).length ≤ 128
    unfold startWelcomeDedupeKey
    rw [List.length_append, hHead, List.length_append,
      List.length_cons, intText_eq_dumpInt, intText_eq_dumpInt]
    omega

/- The worker reads back the ids of welcome messages only. -/
theorem startWelcomeContext_iff
    (hHex : HexDigest sha256)
    {claim : ClaimedNotification}
    (hKey : claim.dedupeKey = n.key sha256)
    (updateId chatId : Int) :
    startWelcomeContext claim = some (updateId, chatId) ↔
      n = .startWelcome updateId chatId ∧ 0 ≤ updateId := by
  rcases key_cases sha256 n with
    ⟨text, hText, hDigest⟩ | ⟨updateId', chatId', rfl⟩
  · have hNone : startWelcomeContext claim = none := by
      apply startWelcomeContext_of_noColon
      rw [hKey, hDigest]
      exact not_colon_of_digest hHex text
    rw [hNone]
    constructor
    · intro h
      cases h
    · rintro ⟨rfl, -⟩
      cases hText
  · rw [startWelcomeContext_of_key hKey]
    split
    · rename_i hNegative
      constructor
      · intro h
        cases h
      · rintro ⟨hSame, hUpdate⟩
        cases hSame
        omega
    · rename_i hUpdate
      constructor
      · intro h
        cases h
        exact ⟨rfl, not_lt.mp hUpdate⟩
      · rintro ⟨hSame, -⟩
        cases hSame
        rfl

end Notification

------------------------------------------------------------
-- Runs
------------------------------------------------------------

/-
  Runs of the outbox from the empty table, with what calls
  were enqueued for, the last one first. Between the calls
  rows are changed as the worker changes them, or removed.
-/
inductive OutboxRun (settings : TelegramSettings) :
    List Notification → List NotificationOutbox → Prop where
| empty : OutboxRun settings [] []
| enqueue {ns rows n id now call rows'} :
    OutboxRun settings ns rows →
    n.EnqueuedAs settings call →
    enqueueTelegramCall id now call rows = .ok rows' →
    OutboxRun settings (n :: ns) rows'
| change {ns rows rows'} :
    OutboxRun settings ns rows →
    Evolves [] rows rows' →
    OutboxRun settings ns rows'
| remove {ns rows rows'} :
    OutboxRun settings ns rows →
    rows'.Sublist rows →
    OutboxRun settings ns rows'

section Runs

variable {settings : TelegramSettings}
variable {ns : List Notification}
variable {rows rows' : List NotificationOutbox}
variable {n : Notification}
variable {call : TelegramCall}
variable {id : Uuid}
variable {now : Time}

/- A call is added, or a row has its key already. -/
theorem enqueue_cases
    (hOk : enqueueTelegramCall id now call rows = .ok rows') :
    call.dedupeKey.length ≤ 128 ∧
      (rows' = rows ++ [newNotification id now call] ∨
        (∃ r ∈ rows, r.dedupeKey = call.dedupeKey) ∧
          ∀ r' ∈ rows', ∃ r ∈ rows,
            r'.dedupeKey = r.dedupeKey) := by
  unfold enqueueTelegramCall at hOk
  split at hOk
  · cases hOk
  split at hOk
  · cases hOk
  rename_i hMethod hLength
  refine ⟨by omega, ?_⟩
  unfold upsertNotification at hOk
  split at hOk
  · rename_i row hFind
    have hRow : ∃ r ∈ rows, r.dedupeKey = call.dedupeKey :=
      ⟨row, Table.mem_of_find hFind, Table.key_of_find hFind⟩
    refine .inr ⟨hRow, ?_⟩
    split at hOk
    · cases hOk
      intro r' hr'
      rcases List.mem_map.mp hr' with ⟨r, hr, rfl⟩
      refine ⟨r, hr, ?_⟩
      split
      · rfl
      · rfl
    · cases hOk
      exact fun r hr => ⟨r, hr, rfl⟩
  · split at hOk
    · cases hOk
    · cases hOk
      exact .inl rfl

/- Every row has the key of what a call was enqueued for. -/
theorem OutboxRun.row_of_done
    (h : OutboxRun settings ns rows) :
    ∀ r ∈ rows, ∃ n ∈ ns,
      r.dedupeKey = n.key settings.sha256 := by
  induction h with
  | empty =>
      intro r hr
      cases hr
  | @enqueue ns rows n _ _ _ _ _ hCall hOk ih =>
      have hOld : ∀ r ∈ rows, ∃ m ∈ n :: ns,
          r.dedupeKey = m.key settings.sha256 := by
        intro r hr
        rcases ih r hr with ⟨m, hm, hKey⟩
        exact ⟨m, List.mem_cons_of_mem n hm, hKey⟩
      intro r' hr'
      rcases (enqueue_cases hOk).2 with rfl | ⟨_, hKeys⟩
      · rcases List.mem_append.mp hr' with hr | hNew
        · exact hOld r' hr
        · rw [List.mem_singleton.mp hNew]
          exact ⟨_, List.mem_cons_self, hCall.dedupeKey⟩
      · rcases hKeys r' hr' with ⟨r, hr, hSame⟩
        rw [hSame]
        exact hOld r hr
  | change _ hEvolves ih =>
      intro r' hr'
      rcases hEvolves.comes r' hr' with
        ⟨r, hKeeps, hr | ⟨_, _, _, hNone, _⟩⟩
      · rw [hKeeps.dedupeKey]
        exact ih r hr
      · cases hNone
  | remove _ hSublist ih =>
      exact fun r hr => ih r (hSublist.subset hr)

/-
  Among notifications whose digests do not collide, the key
  of a call tells what it notifies of. A key has at most 128
  characters and tells the worker the ids of a welcome message
  exactly if it is the key of one; and in every run a call is
  dropped only if one for the same notification was enqueued.
-/
theorem only_repetitions_are_dropped
    (hHex : HexDigest settings.sha256)
    {all : List Notification}
    (hFree : CollisionFree settings.sha256
      (Notification.hashedTexts all))
    (hn : n ∈ all)
    (hCall : n.EnqueuedAs settings call) :
    (∀ n' ∈ all, ∀ call', n'.EnqueuedAs settings call' →
      call.dedupeKey = call'.dedupeKey → n = n') ∧
    (n.InColumns → call.dedupeKey.length ≤ 128) ∧
    (∀ claim : ClaimedNotification,
      claim.dedupeKey = call.dedupeKey →
      ∀ updateId chatId,
        startWelcomeContext claim = some (updateId, chatId) ↔
          n = .startWelcome updateId chatId ∧ 0 ≤ updateId) ∧
    (∀ ns rows, OutboxRun settings ns rows → ns ⊆ all →
      ∀ id now rows',
        enqueueTelegramCall id now call rows = .ok rows' →
          call.dedupeKey.length ≤ 128 ∧
            (rows' = rows ++ [newNotification id now call] ∨
              n ∈ ns)) := by
  have hKey := hCall.dedupeKey
  refine ⟨?_, ?_, ?_, ?_⟩
  · intro n' hn' call' hCall' hSame
    rw [hKey, hCall'.dedupeKey] at hSame
    exact Notification.key_inj hHex hFree hn hn' hSame
  · intro hColumns
    rw [hKey]
    exact Notification.length_key_le hHex hColumns
  · intro claim hClaim updateId chatId
    exact Notification.startWelcomeContext_iff hHex
      (hClaim.trans hKey) updateId chatId
  · intro ns rows hRun hAll id now rows' hOk
    rcases enqueue_cases hOk with ⟨hLength, hCases⟩
    refine ⟨hLength, ?_⟩
    rcases hCases with hAdded | ⟨⟨r, hr, hRow⟩, _⟩
    · exact .inl hAdded
    · rcases hRun.row_of_done r hr with ⟨n', hn', hDone⟩
      have hSame : n.key settings.sha256 =
          n'.key settings.sha256 := by
        rw [← hKey, ← hRow, hDone]
      rw [Notification.key_inj hHex hFree hn (hAll hn') hSame]
      exact .inr hn'

end Runs

/- Settings whose digests of two answers are the real ones. -/
def callbackSettings : TelegramSettings where
  sha256 text :=
    if text = "callback|a|b|answer".toList then
      ("480d7f49bfa71e745d9daaccbcdc3db0" ++
        "371cdc675fef44c835f803f39a925994").toList
    else if text = "callback|a|answer".toList then
      ("9f29bbb407e8dd03fc5533a4fdbb5741" ++
        "72e021e523007667e24e4b746e00b93b").toList
    else List.replicate 64 '0'
  notificationTelegramUserId := none
  telegramWebAppUrl := []
  supportTelegramUsername := []

theorem hexDigest_callbackSettings :
    HexDigest callbackSettings.sha256 where
  length text := by
    dsimp only [callbackSettings]
    split
    · rfl
    · split
      · rfl
      · exact List.length_replicate
  digits text c hc := by
    have hAll : ∀ v : Text, v.all (fun c =>
        decide (c ∈ "0123456789abcdef".toList)) = true →
        ∀ c ∈ v, c ∈ "0123456789abcdef".toList :=
      fun v h c hc =>
        of_decide_eq_true (List.all_eq_true.mp h c hc)
    dsimp only [callbackSettings] at hc
    split at hc
    · exact hAll _ (by decide +kernel) c hc
    · split at hc
      · exact hAll _ (by decide +kernel) c hc
      · rw [List.eq_of_mem_replicate hc]
        exact hAll ['0'] (by decide) '0' List.mem_cons_self

/- A separator in an id does not make it another id. -/
theorem callback_ids_with_separators_are_kept_apart :
    (callbackAnswerCall callbackSettings "a|b".toList
        []).dedupeKey ≠
      (callbackAnswerCall callbackSettings "a".toList
        []).dedupeKey := by
  let one := Notification.callbackAnswer "a|b".toList
  let other := Notification.callbackAnswer "a".toList
  have hFree : CollisionFree callbackSettings.sha256
      (Notification.hashedTexts [one, other]) := by
    have hTexts : Notification.hashedTexts [one, other] =
        ["callback|a|b|answer".toList,
          "callback|a|answer".toList] := by
      decide
    rw [hTexts]
    unfold CollisionFree
    decide
  have hOne : one.EnqueuedAs callbackSettings
      (callbackAnswerCall callbackSettings "a|b".toList []) :=
    .callbackAnswer
  have hOther : other.EnqueuedAs callbackSettings
      (callbackAnswerCall callbackSettings "a".toList []) :=
    .callbackAnswer
  have hApart := (only_repetitions_are_dropped
    hexDigest_callbackSettings hFree List.mem_cons_self hOne).1
  intro hSame
  have hEqual := hApart other
    (List.mem_cons_of_mem one List.mem_cons_self) _ hOther hSame
  exact absurd hEqual (by decide)
