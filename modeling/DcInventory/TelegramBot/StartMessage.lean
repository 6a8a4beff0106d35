import DcInventory.TelegramBot.Calls
import DcInventory.TelegramBot.Updates

/-
  This file defines what an update with the start command
  does: it registers the update, removes the command and the
  welcome message before it, and enqueues a new one.

  Key definitions include:
    * `startWelcomeDedupeKey`
    * `registerLatestStart`
    * `enqueueStartMessage`
    * `telegramStartUpdate`
-/

------------------------------------------------------------
-- Texts
------------------------------------------------------------

/- `html.escape(value)` -/
def htmlEscape (value : Text) : Text :=
  value.flatMap (fun c =>
    if c = '&' then "&amp;".toList
    else if c = '<' then "&lt;".toList
    else if c = '>' then "&gt;".toList
    else if c = '"' then "&quot;".toList
    else if c.toNat = 39 then "&#x27;".toList
    else [c])

/- `value.rstrip("/")` -/
def rstripSlash (value : Text) : Text :=
  (value.reverse.dropWhile (fun c => c = '/')).reverse

/- `START_WELCOME_DEDUPE_PREFIX` -/
def startWelcomeDedupePrefix : Text :=
  "telegram-start-welcome:".toList

/- `_start_welcome_dedupe_key` -/
def startWelcomeDedupeKey (updateId chatId : Int) : Text :=
  startWelcomeDedupePrefix ++
    (intText updateId ++ ':' :: intText chatId)

/- `_START_WELCOME_DELETE_WINDOW`, of 48 hours -/
def startWelcomeDeleteWindow : Time := seconds (48 * 3600)

/- `_START_WELCOME_SEND_DELAY`, of 150 milliseconds -/
def startWelcomeSendDelay : Time := 150000

/- `_start_welcome_text` -/
def startWelcomeText
    (settings : TelegramSettings)
    (firstName : Text) : Text :=
  let stripped := Text.strip firstName
  let safeName := htmlEscape
    (if stripped = [] then "коллега".toList else stripped)
  let safeSupport := htmlEscape settings.supportTelegramUsername
  "<tg-emoji emoji-id=\"5444965061749644170\">".toList ++
    "👨‍💻</tg-emoji> <b>Привет, ".toList ++ safeName ++
    "! 👋</b>\n\n".toList ++
    ("Добро пожаловать в <b>Spikatel Inventory</b> — " ++
      "внутреннюю систему учёта оборудования ЦОД.\n\n" ++
      "Здесь можно найти оборудование, проверить остатки " ++
      "по площадкам, работать с выдачей и возвратом, а " ++
      "также смотреть историю движений.\n\n" ++
      "По вопросам доступа и работы сервиса — <b>@").toList ++
    safeSupport ++ "</b>.".toList

------------------------------------------------------------
-- Calls
------------------------------------------------------------

/- The arguments of `enqueue_start_message`. -/
structure StartCommand where
  chatId : Int
  commandMessageId : Int
  firstName : Text
  updateId : Int
deriving DecidableEq

/- The payload of a `deleteMessage`. -/
def deleteMessagePayload (chatId messageId : Int) : Json :=
  Json.ofFields [("chat_id".toList, .int chatId),
    ("message_id".toList, .int messageId)]

/- The call that deletes the message of the command. -/
def deleteStartCall
    (settings : TelegramSettings)
    (currentTime : Time)
    (command : StartCommand) : TelegramCall where
  method := "deleteMessage".toList
  payload := deleteMessagePayload command.chatId
    command.commandMessageId
  dedupeKey := notificationDedupeKey settings.sha256
    ["telegram-update".toList, intText command.updateId,
      "delete-start".toList]
  availableAt := some currentTime
  requeueDead := false

/- The dedupe key of the deletion of a welcome message. -/
def deletePreviousKey
    (sha256 : Text → Text)
    (chatId messageId : Int) : Text :=
  notificationDedupeKey sha256
    ["telegram-start".toList, intText chatId,
      intText messageId, "delete-previous".toList]

/- The call that deletes the welcome message before. -/
def deletePreviousCall
    (settings : TelegramSettings)
    (currentTime : Time)
    (chatId messageId : Int) : TelegramCall where
  method := "deleteMessage".toList
  payload := deleteMessagePayload chatId messageId
  dedupeKey :=
    deletePreviousKey settings.sha256 chatId messageId
  availableAt := some currentTime
  requeueDead := false

/- The call that sends the welcome message. -/
def startWelcomeCall
    (settings : TelegramSettings)
    (currentTime : Time)
    (command : StartCommand) : TelegramCall where
  method := "sendPhoto".toList
  payload := Json.ofFields
    [("chat_id".toList, .int command.chatId),
      ("photo".toList, .str
        (rstripSlash settings.telegramWebAppUrl ++
          "/telegram/start-welcome.png".toList)),
      ("caption".toList, .str
        (startWelcomeText settings command.firstName)),
      ("parse_mode".toList, .lit "HTML"),
      ("message_effect_id".toList,
        .lit "5046509860389126442"),
      ("reply_markup".toList, Json.oneButton
        [("text".toList, .lit "Открыть приложение"),
          ("web_app".toList, Json.ofFields
            [("url".toList, .str settings.telegramWebAppUrl)])])]
  dedupeKey :=
    startWelcomeDedupeKey command.updateId command.chatId
  availableAt := some (currentTime + startWelcomeSendDelay)
  requeueDead := false

------------------------------------------------------------
-- Starts
------------------------------------------------------------

/- `GREATEST(latest_start_update_id, excluded)` -/
def TelegramChatState.started
    (updateId : Int)
    (row : TelegramChatState) : TelegramChatState :=
  { row with
    latestStartUpdateId :=
      max row.latestStartUpdateId updateId }

/- `_register_latest_start`, with the row it returns. -/
def registerLatestStart
    (chatId updateId : Int)
    (rows : List TelegramChatState) :
    TelegramChatState × List TelegramChatState :=
  match Table.find TelegramChatState.chatId chatId rows with
  | none =>
      (⟨chatId, updateId, none, none⟩,
        rows ++ [⟨chatId, updateId, none, none⟩])
  | some row =>
      (row.started updateId,
        Table.rewrite TelegramChatState.chatId chatId
          (TelegramChatState.started updateId) rows)

/- The recorded message, when it can still be deleted. -/
def TelegramChatState.previousWelcome
    (currentTime : Time)
    (row : TelegramChatState) : Option Int :=
  match row.lastWelcomeMessageId, row.lastWelcomeSentAt with
  | some messageId, some sentAt =>
      if currentTime < sentAt + startWelcomeDeleteWindow
      then some messageId
      else none
  | _, _ => none

/- The ids that the inserted rows draw. -/
structure StartIds where
  deleteStart : Uuid
  deletePrevious : Uuid
  welcome : Uuid

/- The clocks that a start reads: of the database and its own. -/
structure StartTimes where
  dbNow : Time
  currentTime : Time

def enqueueDeletePrevious
    (settings : TelegramSettings)
    (id : Uuid)
    (times : StartTimes)
    (chatId : Int)
    (previous : Option Int)
    (rows : List NotificationOutbox) :
    Except Error (List NotificationOutbox) :=
  match previous with
  | none => .ok rows
  | some messageId =>
      enqueueTelegramCall id times.dbNow
        (deletePreviousCall settings times.currentTime chatId
          messageId) rows

def enqueueStartMessage
    (settings : TelegramSettings)
    (ids : StartIds)
    (times : StartTimes)
    (command : StartCommand)
    (db : Db) : Except Error Db := do
  let outbox ← enqueueTelegramCall ids.deleteStart times.dbNow
    (deleteStartCall settings times.currentTime command)
    db.notificationOutbox
  let (state, states) := registerLatestStart command.chatId
    command.updateId db.telegramChatStates
  if state.latestStartUpdateId ≠ command.updateId then
    -- an older start enqueues no welcome message
    .ok { db with
      notificationOutbox := outbox
      telegramChatStates := states }
  else
    let outbox ← enqueueDeletePrevious settings
      ids.deletePrevious times command.chatId
      (state.previousWelcome times.currentTime) outbox
    let outbox ← enqueueTelegramCall ids.welcome times.dbNow
      (startWelcomeCall settings times.currentTime command)
      outbox
    .ok { db with
      notificationOutbox := outbox
      telegramChatStates := states }

/-
  `telegram_webhook` for an update with the start command. It
  tells whether the update was processed.
-/
def telegramStartUpdate
    (settings : TelegramSettings)
    (ids : StartIds)
    (times : StartTimes)
    (command : StartCommand)
    (processedAt : Time)
    (db : Db) : Except Error (Bool × Db) :=
  match registerTelegramUpdate command.updateId times.dbNow
      db.telegramUpdates with
  | (false, _) => .ok (false, db)
  | (true, updates) => do
      let db ← enqueueStartMessage settings ids times command
        { db with telegramUpdates := updates }
      .ok (true, { db with
        telegramUpdates := markTelegramUpdateProcessed
          command.updateId processedAt db.telegramUpdates })
