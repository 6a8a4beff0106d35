import DcInventory.Identity.AdminService
import DcInventory.Procurement.Schemas

/-
  This file defines the records of procurement requests, how
  they are loaded, and how requests are locked and checked
  before a command is carried out.

  Key definitions include:
    * `ProcurementRecord`
    * `transitionAllowed`
    * `getRequestRecord`
    * `lockAndRequireActorCapabilities`
    * `lockAndValidateExpected`
-/

namespace Procurement

------------------------------------------------------------
-- Errors
------------------------------------------------------------

def procurementValidationError
    (message : String)
    (code : String) : Error :=
  .procurement .validation message code

def procurementNotFoundError
    (message : String)
    (code : String) : Error :=
  .procurement .notFound message code

def procurementConflictError
    (message : String)
    (code : String) : Error :=
  .procurement .conflict message code

def procurementForbiddenError (message : String) : Error :=
  .procurement .forbidden message "procurement_forbidden"

------------------------------------------------------------
-- Statuses
------------------------------------------------------------

/- `ACTIVE_PROCUREMENT_STATUSES` -/
def activeProcurementStatuses : List ProcurementStatus :=
  [.agreementPendingManager, .agreementRevisionRequired,
    .purchasing, .awaitingAcceptance]

/- `ALLOWED_TRANSITIONS` -/
def allowedTransitions :
    ProcurementStatus → List ProcurementStatus
| .agreementPendingManager =>
    [.agreementRevisionRequired, .purchasing]
| .agreementRevisionRequired => [.agreementPendingManager]
| .purchasing => [.awaitingAcceptance]
| .awaitingAcceptance =>
    [.agreementRevisionRequired, .completed]
| .completed => []

def transitionAllowed
    (current target : ProcurementStatus) : Bool :=
  target ∈ allowedTransitions current

------------------------------------------------------------
-- Texts
------------------------------------------------------------

def normalizeClientRequestId
    (value : Text) : Except Error Text :=
  let normalized := normalizeIdempotencyKey value
  if normalized = [] then
    .error (procurementValidationError
      "client_request_id must not be blank"
      "client_request_id_required")
  else if 128 < normalized.length then
    .error (procurementValidationError
      "client_request_id exceeds 128 characters"
      "client_request_id_too_long")
  else .ok normalized

/- `_normalize_comment(value)` -/
def normalizeComment (value : Option Text) : Option Text :=
  (value.map Text.strip).filter (fun v => v ≠ [])

/- `_normalize_comment(value, required=True)` -/
def normalizeRequiredComment
    (value : Text) : Except Error (Option Text) :=
  match normalizeComment (some value) with
  | some comment => .ok (some comment)
  | none =>
      .error (procurementValidationError
        "comment is required" "comment_required")

/- `_display_name` -/
def displayName
    (identity : Option TelegramIdentity)
    (userId : Uuid) : Text :=
  match identity with
  | none => userId.str
  | some identity =>
      let name := Text.strip (fullName identity)
      match identity.username with
      | some (c :: cs) =>
          if name = [] then '@' :: c :: cs
          else name ++ " (@".toList ++ (c :: cs) ++ [')']
      | _ => if name = [] then userId.str else name

/- `_actor_snapshot` -/
def actorSnapshot (userId : Uuid) : Op Text := do
  let identity ← .query (identityOf userId)
  pure (displayName identity userId)

------------------------------------------------------------
-- Records
------------------------------------------------------------

structure LineRecord where
  line : ProcurementRevisionLine
  binding : Option ProcurementLineCatalogBinding

structure RevisionRecord where
  revision : ProcurementRevision
  lines : List LineRecord

structure ProcurementRecord where
  request : ProcurementRequest
  revisions : List RevisionRecord
  events : List ProcurementEvent
  displayNames : List (Uuid × Text)

/- `_bound_item_id` -/
def LineRecord.boundItemId (line : LineRecord) : Option Uuid :=
  match line.line.catalogItemId with
  | some itemId => some itemId
  | none =>
      line.binding.map ProcurementLineCatalogBinding.itemId

/- A line of a proposed item that has no item yet. -/
def LineRecord.isUnbound (line : LineRecord) : Bool :=
  line.line.lineType = .proposedItem ∧ line.binding.isNone

namespace ProcurementRecord

/- `current_revision` -/
def currentRevision
    (record : ProcurementRecord) :
    Except Error RevisionRecord :=
  match record.revisions.find? (fun r =>
      r.revision.id = record.request.currentRevisionId) with
  | some revision => .ok revision
  | none =>
      .error (.runtime
        "procurement current revision was not loaded")

/- `record.current_revision.lines` -/
def currentLines
    (record : ProcurementRecord) :
    Except Error (List LineRecord) :=
  record.currentRevision.map RevisionRecord.lines

end ProcurementRecord

------------------------------------------------------------
-- Loading
------------------------------------------------------------

def revisionsOf
    (requestId : Uuid)
    (db : Db) : List ProcurementRevision :=
  (db.procurementRevisions.filter (fun r =>
    r.requestId = requestId)).insertionSort
      (fun a b => a.revisionNumber ≤ b.revisionNumber)

/- The lines of revisions, in the order of their numbers. -/
def revisionLinesOf
    (revisionIds : List Uuid)
    (db : Db) : List ProcurementRevisionLine :=
  (db.procurementRevisionLines.filter (fun l =>
    l.revisionId ∈ revisionIds)).insertionSort
      (fun a b => a.lineNo ≤ b.lineNo)

def bindingsOf
    (lineIds : List Uuid)
    (db : Db) : List ProcurementLineCatalogBinding :=
  db.procurementBindings.filter (fun b =>
    b.revisionLineId ∈ lineIds)

def eventsOfRequest
    (requestId : Uuid)
    (db : Db) : List ProcurementEvent :=
  db.procurementEvents.filter (fun e =>
    e.requestId = requestId)

/- `_display_names` -/
def displayNamesOf
    (userIds : List Uuid)
    (db : Db) : List (Uuid × Text) :=
  (db.users.filter (fun u => u.id ∈ userIds)).map (fun u =>
    (u.id, displayName (identityOf u.id db) u.id))

/- Lines with their bindings. -/
def lineRecords
    (lines : List ProcurementRevisionLine)
    (bindings : List ProcurementLineCatalogBinding) :
    List LineRecord :=
  lines.map (fun l => ⟨l, Table.find
    ProcurementLineCatalogBinding.revisionLineId l.id
      bindings⟩)

/- Revisions with their lines. -/
def revisionRecords
    (revisions : List ProcurementRevision)
    (lines : List LineRecord) : List RevisionRecord :=
  revisions.map (fun r => ⟨r, lines.filter (fun l =>
    l.line.revisionId = r.id)⟩)

/- What is loaded with a request, a statement a table. -/
def loadRecord
    (request : ProcurementRequest) : Op ProcurementRecord := do
  let revisions ← .query (revisionsOf request.id)
  let lines ← .query (revisionLinesOf
    (revisions.map ProcurementRevision.id))
  let bindings ← .query (bindingsOf
    (lines.map ProcurementRevisionLine.id))
  let events ← .query (eventsOfRequest request.id)
  let names ← .query (displayNamesOf
    (request.initiatorUserId :: request.assignedManagerUserId ::
      revisions.map ProcurementRevision.submittedByUserId ++
        events.map ProcurementEvent.actorUserId))
  pure ⟨request,
    revisionRecords revisions (lineRecords lines bindings),
    events, names⟩

/- `get_request_record`, with `lock` -/
def getRequestRecord
    (requestId : Uuid)
    (lock : Bool) : Op ProcurementRecord := do
  .acquireAll (if lock then
    [.exclusive (.requestRow requestId)] else [])
  let found ← .query (fun db => db.findRequest requestId)
  let request ← .getOrFail
    (procurementNotFoundError "procurement request not found"
      "procurement_not_found") found
  loadRecord request

/- The revisions of a request with their lines, as stored. -/
def storedRevisions
    (requestId : Uuid)
    (db : Db) : List RevisionRecord :=
  let revisions := revisionsOf requestId db
  let lines := revisionLinesOf
    (revisions.map ProcurementRevision.id) db
  revisionRecords revisions (lineRecords lines
    (bindingsOf (lines.map ProcurementRevisionLine.id) db))

theorem loadRecord_run
    (request : ProcurementRequest)
    (db : Db) :
    ∃ record, record.request = request ∧
      record.revisions = storedRevisions request.id db ∧
        (loadRecord request).run db = .ok (record, db) :=
  ⟨_, rfl, rfl, rfl⟩

/- The record of a request has the rows that are stored. -/
theorem findRequest_of_getRequestRecord
    {requestId : Uuid}
    {record : ProcurementRecord}
    {lock : Bool}
    {db db' : Db}
    (h : (getRequestRecord requestId lock).run db =
      .ok (record, db')) :
    db' = db ∧
      db.findRequest requestId = some record.request ∧
        record.revisions =
          storedRevisions record.request.id db := by
  unfold getRequestRecord at h
  rw [Txn.run_acquireAll_bind, Txn.run_query_bind] at h
  cases hFind : db.findRequest requestId with
  | none =>
      rw [hFind, Txn.run_getOrFail_none] at h
      cases h
  | some request =>
      rw [hFind, Txn.run_getOrFail_some] at h
      rcases loadRecord_run request db with
        ⟨record', rfl, hRevisions, hLoad⟩
      rw [hLoad] at h
      cases h
      exact ⟨rfl, rfl, hRevisions⟩

------------------------------------------------------------
-- Guards
------------------------------------------------------------

/- `_validate_manager` -/
def validateManager (userId : Uuid) : Op User := do
  .acquire (.exclusive (.userRow userId))
  let found ← .query (fun db => db.findUser userId)
  let manager ← .getOrFail
    (procurementNotFoundError "manager not found"
      "manager_not_found") found
  .require
    (manager.role = .manager ∧
      manager.accessStatus = .approved)
    (procurementValidationError
      "assigned user must be an active Manager"
      "manager_not_active")
  pure manager

def capabilityLost : Error :=
  procurementForbiddenError
    "required procurement capability is no longer available"

/- The user is approved and has all of the capabilities. -/
def mayAct
    (capabilities : List Capability)
    (actor : User) : Bool :=
  actor.accessStatus = .approved ∧
    ∀ c ∈ capabilities, hasCapability actor.role c

def lockAndRequireActorCapabilities
    (actorUserId : Uuid)
    (capabilities : List Capability) : Op Unit := do
  .acquire (.exclusive (.userRow actorUserId))
  let actor ← .query (fun db => db.findUser actorUserId)
  .require (actor.any (mayAct capabilities)) capabilityLost

/- What a command knows of its request. -/
structure Expected where
  record : ProcurementRecord
  key : Text
  fingerprint : Text
  replay : Option ProcurementEvent

def lockAndValidateExpected
    (sha256 : Text → Text)
    (requestId : Uuid)
    (payload : ExpectedStateMutation)
    (serialized : Text)
    (actorUserId : Uuid)
    (eventType : ProcurementEventType) : Op Expected := do
  let record ← getRequestRecord requestId true
  let key ← .ofExcept
    (normalizeClientRequestId payload.clientRequestId)
  let fingerprint := sha256 serialized
  let previous ← .query (fun db =>
    db.procurementEvents.find? (fun e =>
      e.requestId = requestId ∧
        e.actorUserId = actorUserId ∧
          e.clientRequestId = key))
  match previous with
  | some event => do
      .require (event.eventType = eventType)
        (procurementConflictError
          ("idempotency key was used for another " ++
            "procurement action")
          "idempotency_action_conflict")
      .require (event.requestFingerprint = fingerprint)
        (procurementConflictError
          "idempotency key was used with another payload"
          "idempotency_payload_conflict")
      pure ⟨record, key, fingerprint, some event⟩
  | none => do
      .require
        (record.request.stateVersion =
            payload.expectedStateVersion ∧
          record.request.currentRevisionId =
            payload.expectedRevisionId)
        (procurementConflictError
          "procurement state is stale; refresh and retry"
          "stale_state")
      pure ⟨record, key, fingerprint, none⟩

def invalidTransition (message : String) : Error :=
  procurementConflictError message "invalid_transition"

/- `_require_status` -/
def requireStatus
    (request : ProcurementRequest)
    (expected : List ProcurementStatus) : Except Error Unit :=
  if request.status ∈ expected then .ok ()
  else .error (invalidTransition
    ("request status is " ++ request.status.value))

/- The request after `_set_status`. -/
def setStatus
    (request : ProcurementRequest)
    (target : ProcurementStatus) :
    Except Error ProcurementRequest :=
  if transitionAllowed request.status target then
    .ok { request with
      status := target
      stateVersion := request.stateVersion + 1 }
  else .error (invalidTransition
    "invalid procurement transition")

end Procurement
