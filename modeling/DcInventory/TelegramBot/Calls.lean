import DcInventory.Core.Idempotency
import DcInventory.Core.Numbers
import DcInventory.Notifications.Service

/-
  This file defines the Telegram calls of the access
  workflow, with their dedupe keys.

  Key definitions include:
    * `accessRequestAdminCall`
    * `accessDecisionUserCall`
    * `callbackAnswerCall`
-/

/- The settings that the texts of calls depend on. -/
structure TelegramSettings where
  sha256 : Text → Text
  notificationTelegramUserId : Option Int
  telegramWebAppUrl : Text
  supportTelegramUsername : Text

namespace TelegramSettings

def supportTelegramUrl (settings : TelegramSettings) : Text :=
  "https://t.me/".toList ++ settings.supportTelegramUsername

end TelegramSettings

namespace Json

/- A string literal. -/
def lit (s : String) : Json :=
  .str s.toList

/- One row with one button. -/
def oneButton (fields : List (Text × Json)) : Json :=
  ofFields [("inline_keyboard".toList,
    ofItems [ofItems [ofFields fields]])]

/- `{"inline_keyboard": []}` -/
def noButtons : Json :=
  ofFields [("inline_keyboard".toList, ofItems [])]

end Json

/- The button that opens the application. -/
def openApplicationButton
    (settings : TelegramSettings) : Json :=
  Json.oneButton
    [("text".toList, .lit "Открыть приложение"),
      ("web_app".toList, Json.ofFields
        [("url".toList, .str settings.telegramWebAppUrl)])]

------------------------------------------------------------
-- Access Requests
------------------------------------------------------------

/- The parts of names that are not empty, after each other. -/
def fullName (identity : TelegramIdentity) : Text :=
  Text.joinWords
    ([identity.firstName, identity.lastName.getD []].filter
      (fun part => part ≠ []))

/- `_display_identity` -/
def displayIdentity (identity : TelegramIdentity) : Text :=
  let username := match identity.username with
    | some (c :: cs) => '@' :: c :: cs
    | _ => "без username".toList
  fullName identity ++ "\n".toList ++ username ++
    "\nTelegram ID: ".toList ++
    intText identity.telegramUserId

/- `CALLBACK_PREFIX` and the token. -/
def accessCallbackData (token : Text) : Text :=
  "access:".toList ++ token

/- The length of a text in UTF-8. -/
def utf8Length (text : Text) : Nat :=
  (text.map Char.utf8Size).sum

/- `enqueue_access_request_admin_notification` -/
def accessRequestAdminCall
    (settings : TelegramSettings)
    (notificationId : Int)
    (accessRequestId : Uuid)
    (identity : TelegramIdentity)
    (approve reject : Text) : TelegramCall where
  method := "sendMessage".toList
  payload := Json.ofFields
    [("chat_id".toList, .int notificationId),
      ("text".toList, .str
        ("🔐 Новый запрос доступа к Spik Inventory\n\n".toList ++
          displayIdentity identity)),
      ("reply_markup".toList, Json.ofFields
        [("inline_keyboard".toList, Json.ofItems [Json.ofItems
          [Json.ofFields
            [("text".toList, .lit "✅ Разрешить"),
              ("callback_data".toList,
                .str (accessCallbackData approve))],
            Json.ofFields
              [("text".toList, .lit "❌ Отклонить"),
                ("callback_data".toList,
                  .str (accessCallbackData reject))]]])])]
  dedupeKey := notificationDedupeKey settings.sha256
    ["access-request".toList, accessRequestId.str,
      "admin".toList]
  availableAt := none
  requeueDead := true

/- The text and the buttons that tell a user the decision. -/
def accessDecisionPayload
    (settings : TelegramSettings)
    (status : AccessRequestStatus) : Text × Json :=
  if status = .approved then
    ("✅ Доступ предоставлен.".toList,
      openApplicationButton settings)
  else
    ("❌ Запрос доступа отклонён.\n\nПо вопросам доступа: @".toList
        ++ settings.supportTelegramUsername,
      Json.oneButton
        [("text".toList,
            .str ('@' :: settings.supportTelegramUsername)),
          ("url".toList, .str settings.supportTelegramUrl)])

/- The dedupe key of what a user is told of a request. -/
def accessDecisionKey
    (settings : TelegramSettings)
    (accessRequestId : Uuid) : Text :=
  notificationDedupeKey settings.sha256
    ["access-request".toList, accessRequestId.str,
      "user-decision".toList]

/- `enqueue_access_decision_user_notification` -/
def accessDecisionUserCall
    (settings : TelegramSettings)
    (accessRequestId : Uuid)
    (targetIdentity : TelegramIdentity)
    (status : AccessRequestStatus) : TelegramCall where
  method := "sendMessage".toList
  payload := Json.ofFields
    [("chat_id".toList, .int targetIdentity.telegramUserId),
      ("text".toList,
        .str (accessDecisionPayload settings status).1),
      ("reply_markup".toList,
        (accessDecisionPayload settings status).2)]
  dedupeKey := accessDecisionKey settings accessRequestId
  availableAt := none
  requeueDead := false

------------------------------------------------------------
-- Callbacks
------------------------------------------------------------

/- `_enqueue_callback_answer` -/
def callbackAnswerCall
    (settings : TelegramSettings)
    (callbackQueryId : Text)
    (text : Text) : TelegramCall where
  method := "answerCallbackQuery".toList
  payload := Json.ofFields
    [("callback_query_id".toList, .str callbackQueryId),
      ("text".toList, .str text)]
  dedupeKey := notificationDedupeKey settings.sha256
    ["callback".toList, callbackQueryId, "answer".toList]
  availableAt := none
  requeueDead := false

/- `_enqueue_access_buttons_clear`, for a known message. -/
def accessButtonsClearCall
    (settings : TelegramSettings)
    (callbackQueryId : Text)
    (messageChatId messageId : Int) : TelegramCall where
  method := "editMessageReplyMarkup".toList
  payload := Json.ofFields
    [("chat_id".toList, .int messageChatId),
      ("message_id".toList, .int messageId),
      ("reply_markup".toList, Json.noButtons)]
  dedupeKey := notificationDedupeKey settings.sha256
    ["callback".toList, callbackQueryId,
      "clear-buttons".toList]
  availableAt := none
  requeueDead := false

/- The label of an answer: `"Уже решено: "` and lower case. -/
def decisionLabel
    (status : AccessRequestStatus)
    (changed : Bool) : Text :=
  match decide (status = .approved), changed with
  | true, true => "Доступ разрешён".toList
  | false, true => "Запрос отклонён".toList
  | true, false => "Уже решено: доступ разрешён".toList
  | false, false => "Уже решено: запрос отклонён".toList
