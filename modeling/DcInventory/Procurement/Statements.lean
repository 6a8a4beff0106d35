import DcInventory.Core.Urls
import DcInventory.Inventory.Service
import DcInventory.Procurement.Records

/-
  This file defines the statements by which procurement
  commands write, with the triggers and constraints they pass,
  and the notifications that commands enqueue.

  Key definitions include:
    * `ProcurementEnv`
    * `ProcurementWrite`
    * `updateRequest`
    * `compositionSummary`
    * `enqueueProcurementNotifications`
-/

namespace Procurement

------------------------------------------------------------
-- Environment
------------------------------------------------------------

/- What the environment supplies to a command. -/
structure ProcurementEnv where
  catalog : Catalog.CatalogEnv
  telegramWebAppUrl : Text
  now : Time
  clock : Time
  year : Text
  requestNumber : Nat
  requestId : Uuid
  revisionId : Uuid
  lineId : Nat → Uuid
  eventId : Uuid
  itemId : Uuid
  movementId : Uuid
  notificationId : Text → Uuid

namespace ProcurementEnv

def sha256 (env : ProcurementEnv) : Text → Text :=
  env.catalog.sha256

/- What is supplied to the movement of an acceptance. -/
def movement (env : ProcurementEnv) : MovementEnv where
  sha256 := env.catalog.sha256
  session := []
  movementId := env.movementId
  clock := env.clock

end ProcurementEnv

------------------------------------------------------------
-- Writes
------------------------------------------------------------

inductive ProcurementWrite where
| newRequest (request : ProcurementRequest)
| setRequest (request : ProcurementRequest)
| newRevision (revision : ProcurementRevision)
| newLine (line : ProcurementRevisionLine)
| newBinding (binding : ProcurementLineCatalogBinding)
| newEvent (event : ProcurementEvent)
| notify (id : Uuid) (now : Time) (call : TelegramCall)

def ProcurementWrite.apply : ProcurementWrite → Db → Db
| .newRequest request, db =>
    { db with
      procurementRequests := db.procurementRequests ++ [request] }
| .setRequest request, db =>
    { db with
      procurementRequests := Table.rewrite ProcurementRequest.id
        request.id (fun _ => request) db.procurementRequests }
| .newRevision revision, db =>
    { db with
      procurementRevisions :=
        db.procurementRevisions ++ [revision] }
| .newLine line, db =>
    { db with
      procurementRevisionLines :=
        db.procurementRevisionLines ++ [line] }
| .newBinding binding, db =>
    { db with
      procurementBindings := db.procurementBindings ++ [binding] }
| .newEvent event, db =>
    { db with
      procurementEvents := db.procurementEvents ++ [event] }
| .notify id now call, db =>
    { db with
      notificationOutbox := (upsertNotification id now call
        db.notificationOutbox).toOption.getD
          db.notificationOutbox }

def execute (w : ProcurementWrite) : Op Unit :=
  .update w.apply

------------------------------------------------------------
-- Requests
------------------------------------------------------------

/- `protect_procurement_final_movement_binding` -/
def protectFinalMovementBinding
    (old : Option ProcurementRequest)
    (new : ProcurementRequest) : Op Unit := do
  .require
    (∀ o ∈ old, o.status = .completed →
      new.status = o.status ∧
        new.finalMovementId = o.finalMovementId ∧
          new.completedAt = o.completedAt)
    (raise .completedReceiptBinding)
  match new.finalMovementId with
  | none => pure ()
  | some movementId =>
      if old.bind ProcurementRequest.finalMovementId =
          some movementId then pure ()
      else do
        .acquire (.exclusive (.receiptBinding movementId))
        let adjusted ← .query (fun db =>
          db.movements.any (fun m =>
            m.originalMovementId = some movementId ∧
              isLinked m.movementType))
        .require (¬ adjusted) (raise .finalMovementBinding)

/- The check `completion_state`. -/
def completionState (request : ProcurementRequest) : Bool :=
  if request.status = .completed then
    request.finalMovementId.isSome ∧ request.completedAt.isSome
  else
    request.finalMovementId.isNone ∧ request.completedAt.isNone

/- No other request has the final movement. -/
def finalMovementFree
    (request : ProcurementRequest)
    (db : Db) : Bool :=
  request.finalMovementId.all (fun movementId =>
    db.procurementRequests.all (fun r => r.id = request.id ∨
      r.finalMovementId ≠ some movementId))

def insertRequest (new : ProcurementRequest) : Op Unit := do
  protectFinalMovementBinding none new
  .require (completionState new) (raise .completionState)
  .acquire (.exclusive (.requestPkey new.id))
  let sameId ← .query (fun db => db.findRequest new.id)
  .require sameId.isNone (raise .procurementRequestsPkey)
  .acquire (.exclusive (.requestInitiatorKey
    new.initiatorUserId new.creationClientRequestId))
  let sameKey ← .query (fun db =>
    db.procurementRequests.any (fun r =>
      r.initiatorUserId = new.initiatorUserId ∧
        r.creationClientRequestId =
          new.creationClientRequestId))
  .require (¬ sameKey) (raise .procurementRequestsInitiatorKey)
  let free ← .query (finalMovementFree new)
  .require free (raise .procurementRequestsFinalMovement)
  execute (.newRequest new)

def updateRequest (new : ProcurementRequest) : Op Unit := do
  let old ← .query (fun db => db.findRequest new.id)
  protectFinalMovementBinding old new
  .require (completionState new) (raise .completionState)
  let free ← .query (finalMovementFree new)
  .require free (raise .procurementRequestsFinalMovement)
  execute (.setRequest new)

/- `validate_procurement_current_revision`, at the commit. -/
def checkCurrentRevision (requestId : Uuid) : Op Unit := do
  let found ← .query (fun db => (db.findRequest requestId).all
    (fun request => db.procurementRevisions.any (fun r =>
      r.id = request.currentRevisionId ∧
        r.requestId = request.id)))
  .require found (raise .currentRevision)

------------------------------------------------------------
-- Revisions, Bindings And Events
------------------------------------------------------------

def insertRevision (new : ProcurementRevision) : Op Unit := do
  .acquire (.exclusive (.revisionPkey new.id))
  let sameId ← .query (fun db =>
    db.procurementRevisions.any (fun r => r.id = new.id))
  .require (¬ sameId) (raise .procurementRevisionsPkey)
  execute (.newRevision new)

/- The events by which a revision is published. -/
def publishes (eventType : ProcurementEventType) : Bool :=
  eventType ∈ [.requestCreated, .revisionSubmitted]

/- Past `protect_procurement_revision_line_insert`. -/
def insertLine (new : ProcurementRevisionLine) : Op Unit := do
  .acquire (.exclusive (.revisionSeal new.revisionId))
  let sealed_ ← .query (fun db =>
    db.procurementEvents.any (fun e =>
      e.revisionId = some new.revisionId ∧
        publishes e.eventType))
  .require (¬ sealed_) (raise .procurementRevisionSealed)
  let sameId ← .query (fun db =>
    db.procurementRevisionLines.any (fun l => l.id = new.id))
  .require (¬ sameId) (raise .procurementRevisionLinesPkey)
  execute (.newLine new)

def insertLines : List ProcurementRevisionLine → Op Unit
| [] => pure ()
| line :: lines => do
    insertLine line
    insertLines lines

def insertBinding
    (new : ProcurementLineCatalogBinding) : Op Unit := do
  let sameId ← .query (fun db =>
    db.procurementBindings.any (fun b =>
      b.revisionLineId = new.revisionLineId))
  .require (¬ sameId) (raise .procurementBindingsPkey)
  execute (.newBinding new)

def insertBinding? :
    Option ProcurementLineCatalogBinding → Op Unit
| none => pure ()
| some new => insertBinding new

/- `validate_procurement_revision_publication` -/
def validatePublication (new : ProcurementEvent) : Op Unit :=
  match new.revisionId with
  | none => pure ()
  | some revisionId =>
      if publishes new.eventType then do
        .acquire (.exclusive (.revisionSeal revisionId))
        let found ← .query (fun db =>
          Table.find ProcurementRevision.id revisionId
            db.procurementRevisions)
        let revision ← .getOrFail
          (raise .procurementRevisionUnknown) found
        let count ← .query (fun db =>
          (db.procurementRevisionLines.filter (fun l =>
            l.revisionId = revisionId)).length)
        .require (count = revision.lineCount)
          (raise .procurementRevisionLineCount)
      else pure ()

def insertEvent (new : ProcurementEvent) : Op Unit := do
  validatePublication new
  let sameId ← .query (fun db =>
    db.procurementEvents.any (fun e => e.id = new.id))
  .require (¬ sameId) (raise .procurementEventsPkey)
  let sameKey ← .query (fun db =>
    db.procurementEvents.any (fun e =>
      e.requestId = new.requestId ∧
        e.actorUserId = new.actorUserId ∧
          e.clientRequestId = new.clientRequestId))
  .require (¬ sameKey) (raise .procurementEventsKey)
  execute (.newEvent new)

------------------------------------------------------------
-- Notifications
------------------------------------------------------------

/- The value of a field of a JSON object. -/
def jsonField (key : Text) : Json → Option Json
| .obj fields => go fields
| _ => none
where
  go : JsonFields → Option Json
  | .nil => none
  | .cons k value rest =>
      if k = key then some value else go rest

/- A text of a snapshot that is there and not empty. -/
def snapshotText (key : String) (snapshot : Json) : Text :=
  match jsonField key.toList snapshot with
  | some (.str value) => value
  | _ => []

/- `_line_title` -/
def lineTitle (line : ProcurementRevisionLine) : Text :=
  let parts := [
    snapshotText "manufacturer_name" line.displaySnapshot,
    snapshotText "name" line.displaySnapshot,
    snapshotText "model" line.displaySnapshot].filter
      (fun value => value ≠ [])
  if parts = [] then "Позиция закупки".toList
  else Text.joinWords parts

/- `"\n".join(lines)` -/
def joinLines (lines : List Text) : Text :=
  ['\n'].intercalate lines

def compositionSummary
    (lines : List ProcurementRevisionLine) : Text :=
  let visible := (lines.take 5).map (fun line =>
    "• ".toList ++ lineTitle line ++ " — ".toList ++
      intText line.quantity ++ " шт.".toList)
  joinLines (if 5 < lines.length then
    visible ++ ["• и ещё ".toList ++
      intText ((lines.length - 5 : Nat)) ++ " поз.".toList]
    else visible)

def procurementDeepLink
    (telegramWebAppUrl : Text)
    (requestId : Uuid) : Except Error Text :=
  let base := ((Text.strip telegramWebAppUrl).reverse.dropWhile
    (fun c => c = '/')).reverse ++ ['/']
  let parsed := urlsplit base
  if parsed.scheme ∉ ["http".toList, "https".toList] ∨
      parsed.hostname = none then
    .error (.valueError "invalid Telegram Web App URL")
  else
    .ok (urljoinPath base
      ("procurement/".toList ++ requestId.str))

/- `telegram_user_ids_for_users` -/
def telegramUserIdsForUsers
    (userIds : List Uuid)
    (db : Db) : List (Uuid × Int) :=
  db.telegramIdentities.filterMap (fun identity =>
    if identity.userId ∈ userIds ∧
        (db.findUser identity.userId).any
          (mayAct [.procurementRead]) then
      some (identity.userId, identity.telegramUserId)
    else none)

/- `technical_recipient_user_ids` -/
def technicalRecipientUserIds (db : Db) : List Uuid :=
  (db.users.filter (fun u => u.accessStatus = .approved ∧
    u.role ∈ [.seniorEngineer, .admin, .owner])).map User.id

/- The text of a notification. -/
def notificationText
    (requestNumber action : Text)
    (lines : List ProcurementRevisionLine)
    (link : Text) : Text :=
  "Закупка ".toList ++ requestNumber ++ "\n".toList ++
    action ++ "\n\n".toList ++ compositionSummary lines ++
      "\n\nОткрыть: ".toList ++ link

def procurementCall
    (sha256 : Text → Text)
    (eventId : Uuid)
    (text : Text)
    (recipient : Uuid × Int) : TelegramCall where
  method := "sendMessage".toList
  payload := .ofFields [
    ("chat_id".toList, .int recipient.2),
    ("text".toList, .str text),
    ("disable_web_page_preview".toList, .bool true)]
  dedupeKey := notificationDedupeKey sha256
    ["procurement".toList, eventId.str, recipient.1.str,
      "telegram".toList]
  availableAt := none
  requeueDead := false

/-
  Enqueue a call: the INSERT waits for the entries of its key
  and of its id.
-/
def enqueueCall
    (env : ProcurementEnv)
    (call : TelegramCall) : Op Unit := do
  let id := env.notificationId call.dedupeKey
  .acquire (.exclusive (.notification call.dedupeKey))
  .acquire (.exclusive (.notificationPkey id))
  let rows ← .query Db.notificationOutbox
  let _ ← .ofExcept (enqueueTelegramCall id env.now call rows)
  execute (.notify id env.now call)

def enqueueCalls (env : ProcurementEnv) :
    List TelegramCall → Op Unit
| [] => pure ()
| call :: calls => do
    enqueueCall env call
    enqueueCalls env calls

def enqueueProcurementNotifications
    (env : ProcurementEnv)
    (requestId : Uuid)
    (requestNumber : Text)
    (eventId : Uuid)
    (action : Text)
    (lines : List ProcurementRevisionLine)
    (recipientUserIds : List Uuid) : Op Unit := do
  let recipients ← .query
    (telegramUserIdsForUsers recipientUserIds)
  if recipients = [] then pure ()
  else do
    let link ← .ofExcept
      (procurementDeepLink env.telegramWebAppUrl requestId)
    enqueueCalls env (recipients.map (procurementCall
      env.sha256 eventId
        (notificationText requestNumber action lines link)))

end Procurement
