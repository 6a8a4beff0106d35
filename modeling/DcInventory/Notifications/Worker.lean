import DcInventory.TelegramBot.StartMessage

/-
  This file defines what the notification worker does around
  the call of a claimed notification, in particular for the
  welcome messages of the start command.

  Key definitions include:
    * `startWelcomeContext`
    * `isCurrentStart`
    * `finalizeStartWelcomeSuccess`
-/

------------------------------------------------------------
-- Welcome Messages
------------------------------------------------------------

/- `value.partition(":")`, `none` without a separator. -/
def partitionColon (value : Text) : Option (Text × Text) :=
  match value.dropWhile (fun c => c ≠ ':') with
  | [] => none
  | _ :: after => some (value.takeWhile (fun c => c ≠ ':'), after)

/- The update and the chat of a welcome message. -/
def startWelcomeContext
    (claim : ClaimedNotification) : Option (Int × Int) :=
  if startWelcomeDedupePrefix.isPrefixOf claim.dedupeKey then
    match partitionColon (claim.dedupeKey.drop
        startWelcomeDedupePrefix.length) with
    | none => none
    | some (updateRaw, chatRaw) =>
        match parseInt updateRaw, parseInt chatRaw with
        | some updateId, some chatId =>
            if updateId < 0 then none
            else some (updateId, chatId)
        | _, _ => none
  else none

/- `fields.get(key)`, where the last of equal keys counts. -/
def getField (key : Text) : JsonFields → Option Json
| .nil => none
| .cons k value rest =>
    match getField key rest with
    | some found => some found
    | none => if k = key then some value else none

/- `_telegram_message_id` -/
def telegramMessageId : Json → Option Int
| .obj fields =>
    match getField "message_id".toList fields with
    | some (.int messageId) =>
        if messageId ≤ 0 then none else some messageId
    | _ => none
| _ => none

/- `_is_current_start` -/
def isCurrentStart
    (chatId updateId : Int)
    (rows : List TelegramChatState) : Bool :=
  (Table.find TelegramChatState.chatId chatId rows).any
    (fun row => row.latestStartUpdateId = updateId)

/- The row with its welcome message recorded. -/
def TelegramChatState.welcomed
    (messageId : Int)
    (currentTime : Time)
    (row : TelegramChatState) : TelegramChatState :=
  { row with
    lastWelcomeMessageId := some messageId
    lastWelcomeSentAt := some currentTime }

/- `_record_welcome_if_current_in_session` -/
def recordWelcomeIfCurrent
    (chatId updateId messageId : Int)
    (currentTime : Time)
    (rows : List TelegramChatState) :
    Bool × List TelegramChatState :=
  match Table.find TelegramChatState.chatId chatId rows with
  | none => (false, rows)
  | some row =>
      if row.latestStartUpdateId ≠ updateId then (false, rows)
      else (true, Table.rewrite TelegramChatState.chatId chatId
        (TelegramChatState.welcomed messageId currentTime) rows)

/- `_finalize_start_welcome_success`, one transaction. -/
def finalizeStartWelcomeSuccess
    (claim : ClaimedNotification)
    (chatId updateId messageId : Int)
    (sentAt currentTime : Time)
    (db : Db) : Bool × Db :=
  match markNotificationSent claim sentAt
      db.notificationOutbox with
  | (false, _) => (false, db)
  | (true, outbox) =>
      let recorded := recordWelcomeIfCurrent chatId updateId
        messageId currentTime db.telegramChatStates
      (recorded.1, { db with
        notificationOutbox := outbox
        telegramChatStates := recorded.2 })

------------------------------------------------------------
-- Other Calls
------------------------------------------------------------

/- `_finalize_success` -/
def finalizeSuccess
    (claim : ClaimedNotification)
    (sentAt : Time)
    (db : Db) : Db :=
  { db with notificationOutbox :=
      (markNotificationSent claim sentAt
        db.notificationOutbox).2 }

/- `_finalize_failure` -/
def finalizeFailure
    (claim : ClaimedNotification)
    (error : Text)
    (maxAttempts : Nat)
    (currentTime : Time)
    (db : Db) : Db :=
  { db with notificationOutbox :=
      (markNotificationFailed claim error maxAttempts
        currentTime db.notificationOutbox).2 }
