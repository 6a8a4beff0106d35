import DcInventory.Inventory.IssueNotification
import DcInventory.Notifications.Gateway
import DcInventory.Procurement.Statements

/-
  This file proves which notifications can be delivered: how
  long the text of each is, and that the gateway accepts the
  body of every one whose text Telegram accepts.

  Key definitions include:
    * `Message`
    * `Deliverable`
    * `issueLength`
    * `procurementLength`

  Key theorems include:
    * `length_issueText`
    * `length_notificationText`
    * `deliverable_iff`
-/

------------------------------------------------------------
-- Messages
------------------------------------------------------------

/- The notifications that are sent as messages. -/
inductive Message where
| issue (record : MovementRecord)
| procurement
    (requestId eventId : Uuid)
    (requestNumber action : Text)
    (lines : List ProcurementRevisionLine)
    (recipient : Uuid × Int)
| accessRequest
    (accessRequestId : Uuid)
    (identity : TelegramIdentity)
    (approve reject : Text)
| accessDecision
    (accessRequestId : Uuid)
    (identity : TelegramIdentity)
    (status : AccessRequestStatus)

/- The call that is enqueued for the notification, if any. -/
def Message.call
    (settings : TelegramSettings) :
    Message → Option TelegramCall
| .issue record => issueAdminCall settings record
| .procurement requestId eventId requestNumber action lines
    recipient =>
    (Procurement.procurementDeepLink settings.telegramWebAppUrl
      requestId).toOption.map (fun link =>
        Procurement.procurementCall settings.sha256 eventId
          (Procurement.notificationText requestNumber action
            lines link) recipient)
| .accessRequest accessRequestId identity approve reject =>
    settings.notificationTelegramUserId.map
      (fun notificationId => accessRequestAdminCall settings
        notificationId accessRequestId identity approve reject)
| .accessDecision accessRequestId identity status =>
    some (accessDecisionUserCall settings accessRequestId
      identity status)

/- The longest text of a message that Telegram accepts. -/
def maxMessageLength : Nat := 4096

/-
  Telegram accepts the text, and the gateway reads the body
  whole, in whichever chunks it arrives.
-/
structure Deliverable (payload : Json) : Prop where
  text : ∃ text,
    Procurement.jsonField "text".toList payload =
        some (.str text) ∧
      text ≠ [] ∧ text.length ≤ maxMessageLength
  body : ∀ contentLength chunks,
    (∀ n ∈ contentLength,
      n = (gatewayBody payload).length) →
    chunks.flatten = gatewayBody payload →
    readBodyLimited maxBodyBytes contentLength (some chunks) =
      ⟨200, some payload.dumps⟩

------------------------------------------------------------
-- Lengths
------------------------------------------------------------

theorem Text.length_joinWords (words : List Text) :
    (Text.joinWords words).length =
      (words.map List.length).sum + (words.length - 1) := by
  induction words with
  | nil => rfl
  | cons word words ih =>
      cases words with
      | nil => simp [Text.joinWords]
      | cons next words =>
          have hJoin : Text.joinWords (word :: next :: words) =
              word ++ ' ' :: Text.joinWords (next :: words) :=
            rfl
          rw [hJoin, List.length_append, List.length_cons, ih]
          simp only [List.map_cons, List.sum_cons,
            List.length_cons]
          omega

theorem length_intercalate_newline (lines : List Text) :
    (['\n'].intercalate lines).length =
      (lines.map List.length).sum + (lines.length - 1) := by
  induction lines with
  | nil => rfl
  | cons line lines ih =>
      cases lines with
      | nil => simp [List.intercalate]
      | cons next lines =>
          rw [List.intercalate_cons_cons, List.length_append,
            List.length_append, ih]
          simp only [List.map_cons, List.sum_cons,
            List.length_cons, List.length_nil]
          omega

/- The digits of a quantity. -/
def digitsLength (n : Nat) : Nat :=
  (Nat.toDigits 10 n).length

theorem length_intText (n : Nat) :
    (intText n).length = digitsLength n := by
  rw [intText_eq_dumpInt]
  rfl

/- A text that is left out where it is empty. -/
def partLength (extra : Nat) : Option Text → Nat
| some (c :: cs) => (c :: cs).length + extra
| _ => 0

def issueLineLength (line : MovementLine) : Nat :=
  line.itemNameSnapshot.length +
    partLength 1 line.manufacturerNameSnapshot +
      partLength 3 line.modelSnapshot +
        digitsLength line.quantity + 9

def issueLocationLength (movement : Movement) : Nat :=
  match movement.sourceLocationNameSnapshot,
    movement.sourceLocationCodeSnapshot with
  | some (c :: cs), _ => (c :: cs).length
  | _, some (c :: cs) => (c :: cs).length
  | _, _ => 10

/- The length of the text that tells of an issue. -/
def issueLength (record : MovementRecord) : Nat :=
  45 + record.movement.actorDisplayNameSnapshot.length +
    issueLocationLength record.movement +
      (record.lines.map issueLineLength).sum +
        (record.lines.length - 1)

theorem length_issueLine (line : MovementLine) :
    (issueLine line).length = issueLineLength line := by
  have hTitle : (issueTitle line).length =
      line.itemNameSnapshot.length +
        partLength 1 line.manufacturerNameSnapshot +
          partLength 3 line.modelSnapshot := by
    rcases line with ⟨_, _, _, _, name, model, manufacturer⟩
    rcases manufacturer with _ | _ | ⟨m, ms⟩ <;>
      rcases model with _ | _ | ⟨c, cs⟩ <;>
      simp [issueTitle, partLength] <;>
      omega
  unfold issueLine issueLineLength
  rw [List.length_append, List.length_append,
    List.length_append, List.length_append, hTitle,
    length_intText]
  have hBullet : "• ".toList.length = 2 := rfl
  have hDash : " — ".toList.length = 3 := rfl
  have hPieces : " шт.".toList.length = 4 := rfl
  omega

theorem length_issueText (record : MovementRecord) :
    (issueText record).length = issueLength record := by
  have hLocation : (issueLocation record.movement).length =
      issueLocationLength record.movement := by
    unfold issueLocation issueLocationLength
    generalize record.movement.sourceLocationNameSnapshot =
      name
    generalize record.movement.sourceLocationCodeSnapshot =
      code
    rcases name with _ | _ | ⟨_, _⟩ <;>
      rcases code with _ | _ | ⟨_, _⟩ <;>
      rfl
  have hLines : (record.lines.map issueLine).map List.length =
      record.lines.map issueLineLength := by
    rw [List.map_map]
    exact List.map_congr_left fun line _ =>
      length_issueLine line
  have hHead : "📦 Выдача оборудования\n\n".toList.length =
      23 := rfl
  have hActor : "Сотрудник: ".toList.length = 11 := rfl
  have hFrom : "\nОткуда: ".toList.length = 9 := rfl
  have hBreak : "\n\n".toList.length = 2 := rfl
  unfold issueText issueLength
  simp only [List.length_append]
  rw [hLocation, length_intercalate_newline, hLines,
    List.length_map]
  omega

------------------------------------------------------------
-- Lengths Of Procurement
------------------------------------------------------------

namespace Procurement

/- The parts of a title that are there. -/
def titleParts (line : ProcurementRevisionLine) : List Text :=
  [snapshotText "manufacturer_name" line.displaySnapshot,
    snapshotText "name" line.displaySnapshot,
    snapshotText "model" line.displaySnapshot].filter
      (fun value => value ≠ [])

def titleLength (line : ProcurementRevisionLine) : Nat :=
  if titleParts line = [] then 15
  else ((titleParts line).map List.length).sum +
    ((titleParts line).length - 1)

/- The length of the lines that are listed. -/
def summaryLength
    (lines : List ProcurementRevisionLine) : Nat :=
  ((lines.take 5).map (fun line =>
    titleLength line + digitsLength line.quantity + 9)).sum +
  (if 5 < lines.length then
    5 + (13 + digitsLength (lines.length - 5))
  else lines.length - 1)

/- The length of the text that tells of a request. -/
def procurementLength
    (requestNumber action : Text)
    (lines : List ProcurementRevisionLine)
    (link : Text) : Nat :=
  22 + requestNumber.length + action.length +
    summaryLength lines + link.length

theorem length_lineTitle (line : ProcurementRevisionLine) :
    (lineTitle line).length = titleLength line := by
  change (if titleParts line = [] then _ else _ : Text).length =
    _
  unfold titleLength
  split
  · rfl
  · exact Text.length_joinWords _

theorem length_compositionSummary
    (lines : List ProcurementRevisionLine) :
    (compositionSummary lines).length =
      summaryLength lines := by
  have hBullet : "• ".toList.length = 2 := rfl
  have hDash : " — ".toList.length = 3 := rfl
  have hPieces : " шт.".toList.length = 4 := rfl
  have hMore : "• и ещё ".toList.length = 8 := rfl
  have hRows : " поз.".toList.length = 5 := rfl
  have hVisible (line : ProcurementRevisionLine) :
      ("• ".toList ++ lineTitle line ++ " — ".toList ++
        intText line.quantity ++ " шт.".toList).length =
        titleLength line + digitsLength line.quantity + 9 := by
    simp only [List.length_append]
    rw [length_lineTitle, length_intText]
    omega
  have hLines : ((lines.take 5).map (fun line =>
      "• ".toList ++ lineTitle line ++ " — ".toList ++
        intText line.quantity ++ " шт.".toList)).map
          List.length =
      (lines.take 5).map (fun line =>
        titleLength line + digitsLength line.quantity + 9) := by
    rw [List.map_map]
    exact List.map_congr_left fun line _ => hVisible line
  unfold compositionSummary summaryLength joinLines
  dsimp only
  rw [length_intercalate_newline]
  split
  · rename_i hLong
    rw [List.map_append, List.sum_append, hLines,
      List.map_singleton, List.sum_singleton]
    simp only [List.length_append, List.length_singleton,
      List.length_map, List.length_take]
    rw [length_intText]
    omega
  · rename_i hShort
    rw [hLines, List.length_map, List.length_take]
    omega

theorem length_notificationText
    (requestNumber action : Text)
    (lines : List ProcurementRevisionLine)
    (link : Text) :
    (notificationText requestNumber action lines link).length =
      procurementLength requestNumber action lines link := by
  have hHead : "Закупка ".toList.length = 8 := rfl
  have hLine : "\n".toList.length = 1 := rfl
  have hBreak : "\n\n".toList.length = 2 := rfl
  have hOpen : "\n\nОткрыть: ".toList.length = 11 := rfl
  unfold notificationText procurementLength
  simp only [List.length_append]
  rw [length_compositionSummary]
  omega

end Procurement

------------------------------------------------------------
-- Bodies
------------------------------------------------------------

/- The numbers of a column `BIGINT`. -/
def InBigInt (n : Int) : Prop :=
  -2 ^ 63 ≤ n ∧ n < 2 ^ 63

theorem length_dumpInt_of_inBigInt
    {n : Int}
    (h : InBigInt n) :
    (Json.dumpInt n).length ≤ 20 := by
  rcases h with ⟨hLow, hHigh⟩
  exact Json.length_dumpInt_le (by decide) (by omega)

/- An object that has a text is delivered where both fit. -/
theorem deliverable_ofFields_iff
    {fields : List (Text × Json)}
    {text : Text}
    (hText : Procurement.jsonField "text".toList
      (Json.ofFields fields) = some (.str text))
    (hSome : text ≠ [])
    (hBody : text.length ≤ maxMessageLength →
      (Json.ofFields fields).sizeBound ≤ maxBodyBytes) :
    Deliverable (Json.ofFields fields) ↔
      text.length ≤ maxMessageLength := by
  constructor
  · intro h
    rcases h.text with ⟨text', hText', _, hFits⟩
    rw [hText] at hText'
    cases hText'
    exact hFits
  · intro hFits
    refine ⟨⟨text, hText, hSome, hFits⟩, ?_⟩
    intro contentLength chunks hLength hChunks
    exact (readBodyLimited_eq_ok_iff maxBodyBytes _ hLength
      hChunks).mpr
        ((Json.length_encode_dumps_le _).trans (hBody hFits))

------------------------------------------------------------
-- Delivery
------------------------------------------------------------

/- The settings, as they are checked when they are read. -/
structure TelegramSettings.Checked
    (settings : TelegramSettings) : Prop where
  notification : ∀ id,
    settings.notificationTelegramUserId = some id →
      0 < id ∧ id ≤ 2 ^ 52
  support : settings.supportTelegramUsername.length ≤ 32
  webApp : settings.telegramWebAppUrl.length ≤ 200

/- An identity, as its columns bound it. -/
structure TelegramIdentity.InColumns
    (identity : TelegramIdentity) : Prop where
  firstName : identity.firstName.length ≤ 255
  lastName : (identity.lastName.getD []).length ≤ 255
  username : (identity.username.getD []).length ≤ 64
  telegramUserId : InBigInt identity.telegramUserId

/- The rows that a message is made of are in their columns. -/
def Message.InColumns : Message → Prop
| .issue _ => True
| .procurement _ _ _ _ _ recipient => InBigInt recipient.2
| .accessRequest _ identity approve reject =>
    identity.InColumns ∧ approve.length ≤ 48 ∧
      reject.length ≤ 48
| .accessDecision _ identity _ => identity.InColumns

/- The text of the message is not too long. -/
def Message.Fits
    (settings : TelegramSettings) : Message → Prop
| .issue record => issueLength record ≤ maxMessageLength
| .procurement requestId _ requestNumber action lines _ =>
    ∀ link, Procurement.procurementDeepLink
        settings.telegramWebAppUrl requestId = .ok link →
      Procurement.procurementLength requestNumber action lines
        link ≤ maxMessageLength
| .accessRequest _ _ _ _ => True
| .accessDecision _ _ _ => True

section Settings

variable {settings : TelegramSettings}

theorem deliverable_issue_iff
    (hSettings : settings.Checked)
    {record : MovementRecord}
    {call : TelegramCall}
    (hCall : issueAdminCall settings record = some call) :
    Deliverable call.payload ↔
      issueLength record ≤ maxMessageLength := by
  unfold issueAdminCall at hCall
  cases hId : settings.notificationTelegramUserId with
  | none =>
      rw [hId] at hCall
      cases hCall
  | some id =>
      rw [hId] at hCall
      dsimp only at hCall
      split at hCall
      · cases hCall
      · cases hCall
        rcases hSettings.notification id hId with
          ⟨hLow, hHigh⟩
        have hDigits : (Json.dumpInt id).length ≤ 20 :=
          length_dumpInt_of_inBigInt (by
            unfold InBigInt
            omega)
        rw [← length_issueText]
        refine deliverable_ofFields_iff rfl ?_ fun hFits => ?_
        · exact List.cons_ne_nil _ _
        · have hChat : Json.strBound "chat_id".toList = 44 :=
            rfl
          have hText : Json.strBound "text".toList = 26 := rfl
          unfold maxMessageLength at hFits
          simp only [Json.ofFields, JsonFields.ofList,
            Json.sizeBound, Json.fieldsBound, hChat, hText]
          unfold Json.strBound maxBodyBytes
          omega

theorem deliverable_procurement_iff
    {sha256 : Text → Text}
    {eventId : Uuid}
    {requestNumber action link : Text}
    {lines : List ProcurementRevisionLine}
    {recipient : Uuid × Int}
    (hRecipient : InBigInt recipient.2) :
    Deliverable (Procurement.procurementCall sha256 eventId
        (Procurement.notificationText requestNumber action lines
          link) recipient).payload ↔
      Procurement.procurementLength requestNumber action lines
        link ≤ maxMessageLength := by
  have hDigits := length_dumpInt_of_inBigInt hRecipient
  rw [← Procurement.length_notificationText]
  refine deliverable_ofFields_iff rfl ?_ fun hFits => ?_
  · exact List.cons_ne_nil _ _
  · have hChat : Json.strBound "chat_id".toList = 44 := rfl
    have hText : Json.strBound "text".toList = 26 := rfl
    have hPreview : Json.strBound
        "disable_web_page_preview".toList = 146 := rfl
    unfold maxMessageLength at hFits
    simp only [Json.ofFields, JsonFields.ofList,
      Json.sizeBound, Json.fieldsBound, hChat, hText, hPreview]
    unfold Json.strBound maxBodyBytes
    omega

theorem length_displayIdentity_le
    {identity : TelegramIdentity}
    (hIdentity : identity.InColumns) :
    (displayIdentity identity).length ≤ 700 := by
  rcases hIdentity with ⟨hFirst, hLast, hUsername, hId⟩
  have hDigits := length_dumpInt_of_inBigInt hId
  have hName : (fullName identity).length ≤ 511 := by
    unfold fullName
    rw [Text.length_joinWords]
    by_cases hF : identity.firstName = [] <;>
      by_cases hL : identity.lastName.getD [] = [] <;>
      simp [hF, hL] <;>
      omega
  have hLabel : "\nTelegram ID: ".toList.length = 14 := rfl
  have hNone : "без username".toList.length = 12 := rfl
  have hBreak : "\n".toList.length = 1 := rfl
  unfold displayIdentity
  simp only [List.length_append]
  rw [intText_eq_dumpInt]
  rcases hUser : identity.username with _ | _ | ⟨c, cs⟩
  · dsimp only
    omega
  · dsimp only
    omega
  · rw [hUser] at hUsername
    simp only [Option.getD_some, List.length_cons] at hUsername
    simp only [List.length_cons]
    omega

theorem deliverable_accessRequest
    (hSettings : settings.Checked)
    {notificationId : Int}
    (hId : settings.notificationTelegramUserId =
      some notificationId)
    (accessRequestId : Uuid)
    {identity : TelegramIdentity}
    (hIdentity : identity.InColumns)
    {approve reject : Text}
    (hApprove : approve.length ≤ 48)
    (hReject : reject.length ≤ 48) :
    Deliverable (accessRequestAdminCall settings notificationId
      accessRequestId identity approve reject).payload := by
  rcases hSettings.notification _ hId with ⟨hLow, hHigh⟩
  have hDigits : (Json.dumpInt notificationId).length ≤ 20 :=
    length_dumpInt_of_inBigInt (by
      unfold InBigInt
      omega)
  have hDisplay := length_displayIdentity_le hIdentity
  have hHead : ("🔐 Новый запрос доступа к Spik Inventory\n\n" :
      String).toList.length = 41 := rfl
  have hFits : (("🔐 Новый запрос доступа к Spik Inventory\n\n" :
      String).toList ++ displayIdentity identity).length ≤
        maxMessageLength := by
    rw [List.length_append, hHead]
    unfold maxMessageLength
    omega
  refine (deliverable_ofFields_iff rfl ?_ fun _ => ?_).mpr hFits
  · exact List.cons_ne_nil _ _
  · have hChat : Json.strBound "chat_id".toList = 44 := rfl
    have hText : Json.strBound "text".toList = 26 := rfl
    have hMarkup : Json.strBound "reply_markup".toList = 74 :=
      rfl
    have hKeyboard : Json.strBound
        "inline_keyboard".toList = 92 := rfl
    have hData : Json.strBound "callback_data".toList = 80 :=
      rfl
    have hYes : Json.strBound "✅ Разрешить".toList = 68 := rfl
    have hNo : Json.strBound "❌ Отклонить".toList = 68 := rfl
    have hToken (token : Text) : (accessCallbackData
        token).length = 7 + token.length := by
      unfold accessCallbackData
      rw [List.length_append]
      rfl
    simp only [Json.ofFields, Json.ofItems, Json.lit,
      JsonFields.ofList, JsonItems.ofList, Json.sizeBound,
      Json.itemsBound, Json.fieldsBound, hChat, hText, hMarkup,
      hKeyboard, hData, hYes, hNo]
    unfold Json.strBound maxBodyBytes
    rw [List.length_append, hHead, hToken, hToken]
    clear hFits hHead hToken hChat hText hMarkup hKeyboard hData
      hYes hNo
    omega

theorem length_accessDecisionText_le
    (hSettings : settings.Checked)
    (status : AccessRequestStatus) :
    (accessDecisionPayload settings status).1 ≠ [] ∧
      (accessDecisionPayload settings status).1.length ≤ 100 := by
  have hSupport := hSettings.support
  have hGranted : "✅ Доступ предоставлен.".toList.length =
    22 := rfl
  have hDenied :
      "❌ Запрос доступа отклонён.\n\nПо вопросам доступа: @".toList.length
        = 50 := rfl
  unfold accessDecisionPayload
  split
  · refine ⟨List.cons_ne_nil _ _, ?_⟩
    rw [hGranted]
    omega
  · refine ⟨List.cons_ne_nil _ _, ?_⟩
    rw [List.length_append, hDenied]
    omega

theorem sizeBound_accessDecisionButtons_le
    (hSettings : settings.Checked)
    (status : AccessRequestStatus) :
    (accessDecisionPayload settings status).2.sizeBound ≤
      2000 := by
  have hSupport := hSettings.support
  have hWebApp := hSettings.webApp
  have hText : Json.strBound "text".toList = 26 := rfl
  have hKeyboard : Json.strBound
      "inline_keyboard".toList = 92 := rfl
  have hApp : Json.strBound "web_app".toList = 44 := rfl
  have hUrl : Json.strBound "url".toList = 20 := rfl
  have hOpen : Json.strBound "Открыть приложение".toList =
    110 := rfl
  have hLink : "https://t.me/".toList.length = 13 := rfl
  unfold accessDecisionPayload openApplicationButton
    TelegramSettings.supportTelegramUrl
  split
  · simp only [Json.oneButton, Json.ofFields, Json.ofItems,
      Json.lit, JsonFields.ofList, JsonItems.ofList,
      Json.sizeBound, Json.itemsBound, Json.fieldsBound, hText,
      hKeyboard, hApp, hUrl, hOpen]
    unfold Json.strBound
    omega
  · simp only [Json.oneButton, Json.ofFields, Json.ofItems,
      JsonFields.ofList, JsonItems.ofList, Json.sizeBound,
      Json.itemsBound, Json.fieldsBound, hText, hKeyboard,
      hUrl]
    unfold Json.strBound
    rw [List.length_append, hLink, List.length_cons]
    omega

theorem deliverable_accessDecision
    (hSettings : settings.Checked)
    (accessRequestId : Uuid)
    {identity : TelegramIdentity}
    (hIdentity : identity.InColumns)
    (status : AccessRequestStatus) :
    Deliverable (accessDecisionUserCall settings accessRequestId
      identity status).payload := by
  have hDigits :=
    length_dumpInt_of_inBigInt hIdentity.telegramUserId
  have hButtons := sizeBound_accessDecisionButtons_le hSettings
    status
  rcases length_accessDecisionText_le hSettings status with
    ⟨hSome, hLength⟩
  refine (deliverable_ofFields_iff rfl hSome fun _ => ?_).mpr
    (hLength.trans (by decide))
  have hChat : Json.strBound "chat_id".toList = 44 := rfl
  have hText : Json.strBound "text".toList = 26 := rfl
  have hMarkup : Json.strBound "reply_markup".toList = 74 := rfl
  simp only [Json.ofFields, JsonFields.ofList, Json.sizeBound,
    Json.fieldsBound, hChat, hText, hMarkup]
  unfold Json.strBound maxBodyBytes
  omega

/- Notifications are delivered exactly where they are short. -/
theorem deliverable_iff
    (hSettings : settings.Checked)
    {m : Message}
    (hColumns : m.InColumns)
    {call : TelegramCall}
    (hCall : m.call settings = some call) :
    Deliverable call.payload ↔ m.Fits settings := by
  cases m with
  | issue record => exact deliverable_issue_iff hSettings hCall
  | procurement requestId eventId requestNumber action lines
      recipient =>
      unfold Message.call at hCall
      unfold Message.Fits
      dsimp only at hCall ⊢
      cases hLink : Procurement.procurementDeepLink
          settings.telegramWebAppUrl requestId with
      | error e =>
          rw [hLink] at hCall
          cases hCall
      | ok link =>
          rw [hLink] at hCall
          cases hCall
          rw [deliverable_procurement_iff hColumns]
          simp
  | accessRequest accessRequestId identity approve reject =>
      unfold Message.call at hCall
      dsimp only at hCall
      rcases Option.map_eq_some_iff.mp hCall with
        ⟨notificationId, hId, rfl⟩
      exact iff_of_true (deliverable_accessRequest hSettings hId
        _ hColumns.1 hColumns.2.1 hColumns.2.2) trivial
  | accessDecision accessRequestId identity status =>
      cases hCall
      exact iff_of_true
        (deliverable_accessDecision hSettings _ hColumns _)
        trivial

end Settings

------------------------------------------------------------
-- A Long Issue
------------------------------------------------------------

/- Six items with long names are received and issued. -/
namespace LongIssue

/- The longest text that a name may have. -/
def longText : Text :=
  List.replicate 255 'a'

def settings : TelegramSettings where
  sha256 := id
  notificationTelegramUserId := some 1
  telegramWebAppUrl := "https://app.spik-inventory.ru".toList
  supportTelegramUsername := "Humoristttt".toList

def env (movementId : Uuid) : PostEnv where
  movement := ⟨id, [], movementId, 1⟩
  settings := settings
  mutationsEnabled := true
  now := 1
  notificationId _ := ⟨90⟩

def admin : User where
  id := ⟨1⟩
  role := .admin
  accessStatus := .approved
  approvedAt := some 0
  approvedByUserId := none

def identity : TelegramIdentity where
  userId := ⟨1⟩
  telegramUserId := 7
  username := none
  firstName := "A".toList
  lastName := none

def manufacturer : Manufacturer :=
  ⟨⟨2⟩, longText, longText⟩

def location : Location where
  id := ⟨3⟩
  code := "S".toList
  name := "Storage".toList
  locationType := .warehouse
  address := none
  status := .active
  archivedAt := none

def item (n : Nat) : Item where
  id := ⟨BitVec.ofNat 128 (10 + n)⟩
  categoryId := ⟨4⟩
  manufacturerId := some ⟨2⟩
  name := longText
  normalizedName := longText
  model := some longText
  normalizedModel := some longText
  status := .active
  identitySignature := intText n
  archivedAt := none
  updatedAt := 0

/- A database without movements. -/
def start : Db :=
  { Db.empty with
    users := [admin]
    telegramIdentities := [identity]
    manufacturers := [manufacturer]
    locations := [location]
    items := (List.range 6).map item }

def lines : List MovementLineCreate :=
  (List.range 6).map (fun n =>
    ⟨(item n).id, 1, by decide, by decide⟩)

def receipt : MovementCreate where
  movementType := .receipt
  sourceLocationId := none
  destinationLocationId := some ⟨3⟩
  originalMovementId := none
  clientRequestId := "receipt".toList
  lines := lines
  key_nonempty := by decide
  key_length := by decide
  lines_nonempty := by decide
  lines_length := by decide

def issue : MovementCreate :=
  { receipt with
    movementType := .issue
    sourceLocationId := some ⟨3⟩
    destinationLocationId := none
    clientRequestId := "issue".toList
    key_nonempty := by decide
    key_length := by decide }

theorem settings_checked : settings.Checked where
  notification := by
    intro id hId
    cases hId
    decide
  support := by decide
  webApp := by decide

set_option maxRecDepth 8000 in
theorem issued :
    ∃ s₁ r s₂ record call,
      (postMovement (env ⟨31⟩) admin identity receipt).run
        start = .ok (r, s₁) ∧
      (postMovement (env ⟨32⟩) admin identity issue).run s₁ =
        .ok (record, s₂) ∧
      issueAdminCall settings record = some call ∧
      s₂.notificationOutbox.map NotificationOutbox.payload =
        [call.payload] ∧
      issueLength record = 4732 :=
  ⟨_, _, _, _, _, rfl, rfl, rfl, rfl, rfl⟩

end LongIssue

/-
  Nothing limits the lines that an issue is told with: six of
  them are too long together.
-/
theorem long_issue_not_delivered :
    ∃ s₁ r s₂ record call,
      (postMovement (LongIssue.env ⟨31⟩) LongIssue.admin
        LongIssue.identity LongIssue.receipt).run
          LongIssue.start = .ok (r, s₁) ∧
      (postMovement (LongIssue.env ⟨32⟩) LongIssue.admin
        LongIssue.identity LongIssue.issue).run s₁ =
          .ok (record, s₂) ∧
      issueAdminCall LongIssue.settings record = some call ∧
      s₂.notificationOutbox.map NotificationOutbox.payload =
        [call.payload] ∧
      ¬ Deliverable call.payload := by
  rcases LongIssue.issued with
    ⟨s₁, r, s₂, record, call, hReceipt, hIssue, hCall, hOutbox,
      hLength⟩
  refine ⟨s₁, r, s₂, record, call, hReceipt, hIssue, hCall,
    hOutbox, ?_⟩
  rw [deliverable_issue_iff LongIssue.settings_checked hCall,
    hLength]
  decide

/- A user is told that access was granted. -/
theorem deliverable_iff_granted :
    Deliverable (accessDecisionUserCall LongIssue.settings ⟨5⟩
      LongIssue.identity .approved).payload := by
  have hColumns : (Message.accessDecision ⟨5⟩
      LongIssue.identity .approved).InColumns := by
    refine ⟨by decide, by decide, by decide, ?_⟩
    constructor <;> decide
  have hCall : (Message.accessDecision ⟨5⟩ LongIssue.identity
      .approved).call LongIssue.settings =
        some (accessDecisionUserCall LongIssue.settings ⟨5⟩
          LongIssue.identity .approved) := rfl
  exact (deliverable_iff LongIssue.settings_checked hColumns
    hCall).mpr trivial
