import DcInventory.Procurement.Lines

/-
  This file defines the commands of procurement, and which
  actions a record offers to an actor.

  Key definitions include:
    * `createRequest`
    * `managerAccept`
    * `returnForCorrection`
    * `submitRevision`
    * `changeAssignment`
    * `transferToAcceptance`
    * `bindLine`
    * `createAndBindLine`
    * `reportDiscrepancy`
    * `completeAcceptance`
    * `availableActions`
    * `ProcurementCommand`
-/

namespace Procurement

------------------------------------------------------------
-- Events
------------------------------------------------------------

/- What the caller of `_add_event` says of the event. -/
structure EventFields where
  fromStatus : Option ProcurementStatus
  toStatus : Option ProcurementStatus
  revisionId : Option Uuid
  comment : Option Text
  metadata : Option Json

/- The event of a command that its key identifies. -/
def newEvent
    (env : ProcurementEnv)
    (requestId : Uuid)
    (eventType : ProcurementEventType)
    (actorUserId : Uuid)
    (snapshot key fingerprint : Text)
    (fields : EventFields) : ProcurementEvent where
  id := env.eventId
  requestId := requestId
  eventType := eventType
  actorUserId := actorUserId
  actorDisplayNameSnapshot := snapshot
  clientRequestId := key
  requestFingerprint := fingerprint
  fromStatus := fields.fromStatus
  toStatus := fields.toStatus
  revisionId := fields.revisionId
  comment := fields.comment
  metadata := fields.metadata

/- The event of a change from one status to another. -/
def statusFields
    (old new : ProcurementRequest)
    (comment : Option Text)
    (metadata : Option Json) : EventFields where
  fromStatus := some old.status
  toStatus := some new.status
  revisionId := some new.currentRevisionId
  comment := comment
  metadata := metadata

/- The event of a change that keeps the status. -/
def quietFields
    (request : ProcurementRequest)
    (comment : Option Text)
    (metadata : Option Json) : EventFields where
  fromStatus := none
  toStatus := none
  revisionId := some request.currentRevisionId
  comment := comment
  metadata := metadata

/- What is checked before any command changes a request. -/
def startCommand
    (env : ProcurementEnv)
    (requestId : Uuid)
    (payload : ExpectedStateMutation)
    (serialized : Text)
    (actorUserId : Uuid)
    (eventType : ProcurementEventType)
    (capabilities : List Capability) : Op Expected := do
  let expected ← lockAndValidateExpected env.sha256 requestId
    payload serialized actorUserId eventType
  lockAndRequireActorCapabilities actorUserId capabilities
  pure expected

/-
  Write the changed request, a binding if there is one, and
  the event of the command: the query for the name of the
  actor flushes what is pending.
-/
def recordCommand
    (env : ProcurementEnv)
    (expected : Expected)
    (changed : ProcurementRequest)
    (binding : Option ProcurementLineCatalogBinding)
    (eventType : ProcurementEventType)
    (actorUserId : Uuid)
    (fields : Except Error EventFields) : Op Unit := do
  updateRequest changed
  insertBinding? binding
  let snapshot ← actorSnapshot actorUserId
  let fields ← .ofExcept fields
  insertEvent (newEvent env changed.id eventType actorUserId
    snapshot expected.key expected.fingerprint fields)

/- Tell users of a request. -/
def tell
    (env : ProcurementEnv)
    (request : ProcurementRequest)
    (action : String)
    (lines : List ProcurementRevisionLine)
    (recipients : List Uuid) : Op Unit :=
  enqueueProcurementNotifications env request.id
    request.requestNumber env.eventId action.toList lines
      recipients

/- The request with its version raised. -/
def touched (request : ProcurementRequest) :
    ProcurementRequest :=
  { request with stateVersion := request.stateVersion + 1 }

------------------------------------------------------------
-- Creation
------------------------------------------------------------

/- `f"PR-{row[0]}-{int(row[1]):06d}"` -/
def requestNumberText (env : ProcurementEnv) : Text :=
  let digits := Nat.toDigits 10 env.requestNumber
  "PR-".toList ++ env.year ++ ['-'] ++
    List.replicate (6 - digits.length) '0' ++ digits

def createRequest
    (env : ProcurementEnv)
    (payload : ProcurementRequestCreate)
    (actorUserId : Uuid) : Op ProcurementRecord := do
  lockAndRequireActorCapabilities actorUserId
    [.procurementCreate]
  let key ← .ofExcept
    (normalizeClientRequestId payload.clientRequestId)
  let fingerprint := env.sha256 payload.serialized
  .acquire (.exclusive (.procurementCreate actorUserId key))
  let existing ← .query (fun db =>
    db.procurementRequests.find? (fun r =>
      r.initiatorUserId = actorUserId ∧
        r.creationClientRequestId = key))
  match existing with
  | some request => do
      .require (request.requestFingerprint = fingerprint)
        (procurementConflictError
          "idempotency key was used with another payload"
          "idempotency_payload_conflict")
      getRequestRecord request.id false
  | none => do
      let _ ← validateManager payload.assignedManagerUserId
      let lines ← prepareLines env payload.lines
      let snapshot ← actorSnapshot actorUserId
      let request : ProcurementRequest := {
        id := env.requestId
        requestNumber := requestNumberText env
        status := .agreementPendingManager
        initiatorUserId := actorUserId
        assignedManagerUserId := payload.assignedManagerUserId
        creationClientRequestId := key
        requestFingerprint := fingerprint
        currentRevisionId := env.revisionId
        finalMovementId := none
        stateVersion := 1
        completedAt := none }
      insertRequest request
      insertRevision {
        id := env.revisionId
        requestId := env.requestId
        revisionNumber := 1
        submittedByUserId := actorUserId
        submittedByDisplayNameSnapshot := snapshot
        generalComment := normalizeComment payload.generalComment
        lineCount := lines.length }
      insertLines lines
      insertEvent (newEvent env env.requestId .requestCreated
        actorUserId snapshot key fingerprint {
          fromStatus := none
          toStatus := some request.status
          revisionId := some env.revisionId
          comment := none
          metadata := none })
      tell env request
        "Новая заявка. Ожидает обработки менеджером." lines
        [request.assignedManagerUserId]
      let record ← getRequestRecord env.requestId false
      checkCurrentRevision env.requestId
      pure record

------------------------------------------------------------
-- Agreement
------------------------------------------------------------

def managerAccept
    (env : ProcurementEnv)
    (requestId : Uuid)
    (payload : ExpectedStateMutation)
    (actorUserId : Uuid) : Op ProcurementRecord := do
  let expected ← startCommand env requestId payload
    payload.serialized actorUserId .managerAccepted
      [.procurementManage]
  if expected.replay.isSome then pure expected.record
  else do
    let request := expected.record.request
    let changed ← .ofExcept (setStatus request .purchasing)
    recordCommand env expected changed none .managerAccepted
      actorUserId (.ok (statusFields request changed none none))
    getRequestRecord requestId false

/- `_proposal_metadata` -/
def proposalMetadata
    (lines : List ProcurementRevisionLine) : Json :=
  .ofFields [("alternative_proposal".toList,
    .ofItems (lines.map (fun line => .ofFields [
      ("line_type".toList, .str line.lineType.value),
      ("quantity".toList, .int line.quantity),
      ("catalog_item_id".toList, .ofUuid? line.catalogItemId),
      ("display_snapshot".toList, line.displaySnapshot)])))]

/- The rows of an alternative proposal, which are not kept. -/
def prepareProposal
    (env : ProcurementEnv) :
    Option (List ProcurementLineCreate) →
      Op (List ProcurementRevisionLine)
| none => pure []
| some payloads => prepareLines env payloads

def returnForCorrection
    (env : ProcurementEnv)
    (requestId : Uuid)
    (payload : CorrectionRequest)
    (actorUserId : Uuid) : Op ProcurementRecord := do
  let expected ← startCommand env requestId
    payload.toExpectedStateMutation payload.serialized
      actorUserId .correctionRequested [.procurementManage]
  if expected.replay.isSome then pure expected.record
  else do
    let request := expected.record.request
    .ofExcept (requireStatus request
      [.agreementPendingManager, .awaitingAcceptance])
    let proposal ← prepareProposal env
      payload.alternativeProposal
    let changed ← .ofExcept
      (setStatus request .agreementRevisionRequired)
    let metadata := if proposal = [] then none
      else some (proposalMetadata proposal)
    recordCommand env expected changed none
      .correctionRequested actorUserId
        ((normalizeRequiredComment payload.comment).map
          (fun comment =>
            statusFields request changed comment metadata))
    let lines ← .ofExcept expected.record.currentLines
    tell env changed "Менеджер вернул заявку на корректировку."
      (lines.map LineRecord.line) [changed.initiatorUserId]
    getRequestRecord requestId false

def submitRevision
    (env : ProcurementEnv)
    (requestId : Uuid)
    (payload : RevisionCreate)
    (actorUserId : Uuid) : Op ProcurementRecord := do
  let expected ← startCommand env requestId
    payload.toExpectedStateMutation payload.serialized
      actorUserId .revisionSubmitted [.procurementCreate]
  if expected.replay.isSome then pure expected.record
  else do
    let request := expected.record.request
    .require (request.initiatorUserId = actorUserId)
      (procurementForbiddenError
        "only the initiator may submit a revision")
    .ofExcept (requireStatus request
      [.agreementRevisionRequired])
    let lines ← prepareLines env payload.lines
    let last ← .getOrFail
      (.valueError "max() iterable argument is empty")
      (expected.record.revisions.map (fun r =>
        r.revision.revisionNumber)).max?
    let number := last + 1
    let snapshot ← actorSnapshot actorUserId
    insertRevision {
      id := env.revisionId
      requestId := requestId
      revisionNumber := number
      submittedByUserId := actorUserId
      submittedByDisplayNameSnapshot := snapshot
      generalComment := normalizeComment payload.generalComment
      lineCount := lines.length }
    insertLines lines
    let moved ← .ofExcept
      (setStatus request .agreementPendingManager)
    let changed :=
      { moved with currentRevisionId := env.revisionId }
    updateRequest changed
    insertEvent (newEvent env requestId .revisionSubmitted
      actorUserId snapshot expected.key expected.fingerprint
        (statusFields request changed none none))
    tell env changed
      ("Отправлена новая редакция №" ++ toString number ++ ".")
      lines [changed.assignedManagerUserId]
    let record ← getRequestRecord requestId false
    checkCurrentRevision requestId
    pure record

------------------------------------------------------------
-- Assignment
------------------------------------------------------------

/- `_change_assignment` -/
def changeAssignment
    (env : ProcurementEnv)
    (requestId : Uuid)
    (payload : AssignmentMutation)
    (serialized : Text)
    (actorUserId targetUserId : Uuid)
    (eventType : ProcurementEventType) :
    Op ProcurementRecord := do
  let expected ← startCommand env requestId
    payload.toExpectedStateMutation serialized actorUserId
      eventType [.procurementManage]
  if expected.replay.isSome then pure expected.record
  else do
    let request := expected.record.request
    .require (request.status ∈ activeProcurementStatuses)
      (procurementConflictError
        "completed request cannot be reassigned"
        "procurement_conflict")
    .require
      (request.assignedManagerUserId =
        payload.expectedAssignedManagerUserId)
      (procurementConflictError "manager assignment is stale"
        "stale_assignment")
    let _ ← validateManager targetUserId
    .require (request.assignedManagerUserId ≠ targetUserId)
      (procurementConflictError "manager is already assigned"
        "assignment_unchanged")
    let changed := { touched request with
      assignedManagerUserId := targetUserId }
    recordCommand env expected changed none eventType
      actorUserId (.ok (quietFields changed none
        (some (.ofFields [
          ("from_manager_user_id".toList,
            .str request.assignedManagerUserId.str),
          ("to_manager_user_id".toList,
            .str targetUserId.str)]))))
    let lines ← .ofExcept expected.record.currentLines
    tell env changed "Вы назначены ответственным менеджером."
      (lines.map LineRecord.line) [targetUserId]
    getRequestRecord requestId false

def takeOwnership
    (env : ProcurementEnv)
    (requestId : Uuid)
    (payload : AssignmentMutation)
    (actorUserId : Uuid) : Op ProcurementRecord :=
  changeAssignment env requestId payload payload.serialized
    actorUserId actorUserId .assignmentTaken

def transferManager
    (env : ProcurementEnv)
    (requestId : Uuid)
    (payload : ManagerTransfer)
    (actorUserId : Uuid) : Op ProcurementRecord :=
  changeAssignment env requestId payload.toAssignmentMutation
    payload.serialized actorUserId payload.managerUserId
      .assignmentTransferred

def transferToAcceptance
    (env : ProcurementEnv)
    (requestId : Uuid)
    (payload : ExpectedStateMutation)
    (actorUserId : Uuid) : Op ProcurementRecord := do
  let expected ← startCommand env requestId payload
    payload.serialized actorUserId .transferredToAcceptance
      [.procurementManage]
  if expected.replay.isSome then pure expected.record
  else do
    let request := expected.record.request
    let changed ← .ofExcept
      (setStatus request .awaitingAcceptance)
    recordCommand env expected changed none
      .transferredToAcceptance actorUserId
        (.ok (statusFields request changed none none))
    let recipients ← .query technicalRecipientUserIds
    let lines ← .ofExcept expected.record.currentLines
    tell env changed
      "Поставка передана на техническую приёмку."
      (lines.map LineRecord.line) recipients
    getRequestRecord requestId false

------------------------------------------------------------
-- Binding
------------------------------------------------------------

/- The proposed line that a command may bind. -/
def unboundLine
    (record : ProcurementRecord)
    (lineId : Uuid) : Except Error LineRecord := do
  if record.request.status = .completed then
    .error (procurementConflictError
      "completed request cannot be changed"
      "procurement_conflict")
  else
    let lines ← record.currentLines
    match lines.find? (fun l => l.line.id = lineId) with
    | none =>
        .error (procurementNotFoundError
          "current revision line not found" "line_not_found")
    | some line =>
        if line.line.lineType ≠ .proposedItem then
          .error (procurementValidationError
            "existing item line is already bound"
            "procurement_validation_error")
        else if line.binding.isSome then
          .error (procurementConflictError
            "proposed line is already bound"
            "line_already_bound")
        else .ok line

/- Write a binding and its event. -/
def bindTo
    (env : ProcurementEnv)
    (expected : Expected)
    (lineId itemId actorUserId : Uuid)
    (metadata : List (Text × Json)) : Op Unit := do
  let changed := touched expected.record.request
  recordCommand env expected changed
    (some ⟨lineId, itemId, actorUserId⟩) .lineBound actorUserId
      (.ok (quietFields changed none (some (.ofFields (
        [("line_id".toList, .str lineId.str),
          ("item_id".toList, .str itemId.str)] ++
            metadata)))))

def bindLine
    (env : ProcurementEnv)
    (requestId : Uuid)
    (payload : LineBindingCreate)
    (actorUserId : Uuid) : Op ProcurementRecord := do
  let expected ← startCommand env requestId
    payload.toExpectedStateMutation payload.serialized
      actorUserId .lineBound [.procurementAccept]
  if expected.replay.isSome then pure expected.record
  else do
    let line ← .ofExcept
      (unboundLine expected.record payload.lineId)
    .acquire (.exclusive (.itemRow payload.itemId))
    let found ← .query (fun db => db.findItem payload.itemId)
    let item ← .getOrFail
      (procurementNotFoundError "catalog item not found"
        "catalog_item_not_found") found
    .require (item.status = .active)
      (procurementConflictError
        "archived item cannot be bound"
        "catalog_item_archived")
    .require
      (item.identitySignature =
        line.line.expectedIdentitySignature)
      (procurementConflictError
        ("catalog item identity does not match approved " ++
          "procurement line") "item_identity_mismatch")
    let lines ← .ofExcept expected.record.currentLines
    let _ ← .ofExcept (validateAggregatedItemQuantities
      (some (line.line.id, item.id)) lines)
    bindTo env expected line.line.id item.id actorUserId []
    getRequestRecord requestId false

def createAndBindLine
    (env : ProcurementEnv)
    (requestId : Uuid)
    (payload : ProposedItemCreateAndBind)
    (actorUserId : Uuid) : Op ProcurementRecord := do
  let expected ← startCommand env requestId
    payload.toExpectedStateMutation payload.serialized
      actorUserId .lineBound
        [.procurementAccept, .catalogManage]
  if expected.replay.isSome then pure expected.record
  else do
    let line ← .ofExcept
      (unboundLine expected.record payload.lineId)
    let db ← .query id
    let validated ← .ofExcept
      (Catalog.validateItemCreatePayload env.catalog db
        payload.item)
    .require
      (validated.identitySignature =
        line.line.expectedIdentitySignature)
      (procurementConflictError
        ("created catalog identity does not match approved " ++
          "procurement line") "item_identity_mismatch")
    let itemId ← Catalog.createItem env.catalog env.itemId
      env.now payload.item
    bindTo env expected line.line.id itemId actorUserId
      [("item_created".toList, .bool true)]
    getRequestRecord requestId false

------------------------------------------------------------
-- Acceptance
------------------------------------------------------------

def reportDiscrepancy
    (env : ProcurementEnv)
    (requestId : Uuid)
    (payload : DiscrepancyCreate)
    (actorUserId : Uuid) : Op ProcurementRecord := do
  let expected ← startCommand env requestId
    payload.toExpectedStateMutation payload.serialized
      actorUserId .discrepancyReported [.procurementAccept]
  if expected.replay.isSome then pure expected.record
  else do
    let request := expected.record.request
    .ofExcept (requireStatus request [.awaitingAcceptance])
    let changed := touched request
    recordCommand env expected changed none
      .discrepancyReported actorUserId
        ((normalizeRequiredComment payload.comment).map
          (fun comment => quietFields changed comment none))
    let lines ← .ofExcept expected.record.currentLines
    tell env changed "На приёмке обнаружены расхождения."
      (lines.map LineRecord.line)
      [changed.assignedManagerUserId]
    getRequestRecord requestId false

/- The items that the lines are bound to, in their order. -/
def acceptanceItemIds (lines : List LineRecord) : List Uuid :=
  sortedIds (lines.filterMap LineRecord.boundItemId)

/- The checks of the items of the lines, line by line. -/
def checkAcceptedItems
    (items : List Item) : List LineRecord → Except Error Unit
| [] => .ok ()
| line :: lines =>
    match line.boundItemId with
    | none => checkAcceptedItems items lines
    | some itemId =>
        match Table.find Item.id itemId items with
        | none => .error (.runtime "KeyError")
        | some item =>
            if item.status ≠ .active then
              .error (procurementConflictError
                "archived item cannot be accepted"
                "catalog_item_archived")
            else if item.identitySignature ≠
                line.line.expectedIdentitySignature then
              .error (procurementConflictError
                ("catalog item identity changed after " ++
                  "procurement approval")
                "item_identity_mismatch")
            else checkAcceptedItems items lines

/- `sorted(quantities.items())` -/
def sortedQuantities
    (quantities : Dictionary Uuid Nat) : List (Uuid × Nat) :=
  quantities.entries.insertionSort (fun a b => a.1 ≤ b.1)

/- The receipt of an acceptance. -/
def receiptCall
    (requestId receivingLocationId actorUserId : Uuid)
    (actorDisplayName : Text)
    (quantities : Dictionary Uuid Nat) : Option MovementCall :=
  (MovementCreate.build .receipt none
    (some receivingLocationId) none
    ("procurement:".toList ++ requestId.str)
    (sortedQuantities quantities)).map (fun payload =>
      ⟨payload, actorUserId, actorDisplayName, none⟩)

/- The events whose actors are told of an acceptance. -/
def participates (eventType : ProcurementEventType) : Bool :=
  eventType ∈ [.managerAccepted, .correctionRequested,
    .assignmentTaken, .assignmentTransferred,
    .transferredToAcceptance]

def participants (record : ProcurementRecord) : List Uuid :=
  record.request.initiatorUserId ::
    record.request.assignedManagerUserId ::
      (record.events.filter (fun e =>
        participates e.eventType)).map
          ProcurementEvent.actorUserId

/- The quantities of the items that may be accepted. -/
def acceptedQuantities
    (lines : List LineRecord) : Op (Dictionary Uuid Nat) := do
  let ids := acceptanceItemIds lines
  let items ← lockRows .itemRow Db.findItem ids
  .require (items.length = ids.length)
    (procurementConflictError "catalog item no longer exists"
      "catalog_item_not_found")
  .ofExcept (checkAcceptedItems items lines)
  .require (∀ line ∈ lines, line.boundItemId ≠ none)
    (procurementConflictError "all proposed lines must be bound"
      "unbound_procurement_line")
  .ofExcept (validateAggregatedItemQuantities none lines)

def completeAcceptance
    (env : ProcurementEnv)
    (requestId : Uuid)
    (payload : ProcurementAcceptanceCreate)
    (actorUserId : Uuid) : Op ProcurementRecord := do
  let expected ← startCommand env requestId
    payload.toExpectedStateMutation payload.serialized
      actorUserId .completed [.procurementAccept]
  if expected.replay.isSome then pure expected.record
  else do
    let request := expected.record.request
    .ofExcept (requireStatus request [.awaitingAcceptance])
    let lines ← .ofExcept expected.record.currentLines
    let quantities ← acceptedQuantities lines
    let snapshot ← actorSnapshot actorUserId
    let call ← .getOrFail (.runtime "ValidationError")
      (receiptCall requestId payload.receivingLocationId
        actorUserId snapshot quantities)
    let movement ← createMovement env.movement call
    .require (¬ movement.replayed)
      (procurementConflictError
        "warehouse receipt already exists for request"
        "receipt_already_exists")
    let moved ← .ofExcept (setStatus request .completed)
    let changed := { moved with
      finalMovementId := some movement.record.movement.id
      completedAt := some env.now }
    recordCommand env expected changed none .completed
      actorUserId (.ok (statusFields request changed none
        (some (.ofFields [
          ("movement_id".toList,
            .str movement.record.movement.id.str),
          ("receiving_location_id".toList,
            .str payload.receivingLocationId.str)]))))
    tell env changed
      "Техническая приёмка завершена, оборудование оприходовано."
      (lines.map LineRecord.line)
      (participants expected.record)
    let record ← getRequestRecord requestId false
    checkLineCount movement
    pure record

------------------------------------------------------------
-- Commands
------------------------------------------------------------

/- A command on a request, with its payload. -/
inductive ProcurementCommand where
| takeOwnership (payload : AssignmentMutation)
| transferManager (payload : ManagerTransfer)
| managerAccept (payload : ExpectedStateMutation)
| returnForCorrection (payload : CorrectionRequest)
| transferToAcceptance (payload : ExpectedStateMutation)
| submitRevision (payload : RevisionCreate)
| bindLine (payload : LineBindingCreate)
| createAndBindLine (payload : ProposedItemCreateAndBind)
| reportDiscrepancy (payload : DiscrepancyCreate)
| completeAcceptance (payload : ProcurementAcceptanceCreate)

namespace ProcurementCommand

/- What the command expects of the request. -/
def expects : ProcurementCommand → ExpectedStateMutation
| takeOwnership payload => payload.toExpectedStateMutation
| transferManager payload => payload.toExpectedStateMutation
| managerAccept payload => payload
| returnForCorrection payload =>
    payload.toExpectedStateMutation
| transferToAcceptance payload => payload
| submitRevision payload => payload.toExpectedStateMutation
| bindLine payload => payload.toExpectedStateMutation
| createAndBindLine payload => payload.toExpectedStateMutation
| reportDiscrepancy payload => payload.toExpectedStateMutation
| completeAcceptance payload =>
    payload.toExpectedStateMutation

/- The transaction of the command. -/
def program
    (env : ProcurementEnv)
    (requestId actorUserId : Uuid) :
    ProcurementCommand → Op ProcurementRecord
| takeOwnership payload =>
    Procurement.takeOwnership env requestId payload actorUserId
| transferManager payload =>
    Procurement.transferManager env requestId payload
      actorUserId
| managerAccept payload =>
    Procurement.managerAccept env requestId payload actorUserId
| returnForCorrection payload =>
    Procurement.returnForCorrection env requestId payload
      actorUserId
| transferToAcceptance payload =>
    Procurement.transferToAcceptance env requestId payload
      actorUserId
| submitRevision payload =>
    Procurement.submitRevision env requestId payload actorUserId
| bindLine payload =>
    Procurement.bindLine env requestId payload actorUserId
| createAndBindLine payload =>
    Procurement.createAndBindLine env requestId payload
      actorUserId
| reportDiscrepancy payload =>
    Procurement.reportDiscrepancy env requestId payload
      actorUserId
| completeAcceptance payload =>
    Procurement.completeAcceptance env requestId payload
      actorUserId

end ProcurementCommand

------------------------------------------------------------
-- Actions
------------------------------------------------------------

/- The actions that a record offers. -/
inductive ProcurementAction where
| takeOwnership
| transferManager
| managerAccept
| returnForCorrection
| transferToAcceptance
| submitRevision
| bindLines
| reportDiscrepancy
| completeAcceptance
deriving DecidableEq, Repr

/- The actions of a manager. -/
def managerActions
    (request : ProcurementRequest)
    (actor : User) : List ProcurementAction :=
  if hasCapability actor.role .procurementManage ∧
      request.status ∈ activeProcurementStatuses then
    (if request.assignedManagerUserId ≠ actor.id
      then [.takeOwnership] else []) ++
    [.transferManager] ++
    (match request.status with
      | .agreementPendingManager =>
          [.managerAccept, .returnForCorrection]
      | .purchasing => [.transferToAcceptance]
      | .awaitingAcceptance => [.returnForCorrection]
      | _ => [])
  else []

/- The action of the initiator. -/
def initiatorActions
    (request : ProcurementRequest)
    (actor : User) : List ProcurementAction :=
  if hasCapability actor.role .procurementCreate ∧
      actor.id = request.initiatorUserId ∧
        request.status = .agreementRevisionRequired then
    [.submitRevision]
  else []

/- The actions of those who accept deliveries. -/
def technicalActions
    (record : ProcurementRecord)
    (actor : User) : Except Error (List ProcurementAction) :=
  let request := record.request
  if ¬ hasCapability actor.role .procurementAccept then .ok []
  else do
    let binds ←
      if request.status ≠ .completed then
        record.currentLines.map (fun lines =>
          lines.any LineRecord.isUnbound)
      else .ok false
    .ok ((if binds then [.bindLines] else []) ++
      (if request.status = .awaitingAcceptance
        then [.reportDiscrepancy, .completeAcceptance]
        else []))

def availableActions
    (record : ProcurementRecord)
    (actor : User) :
    Except Error (List ProcurementAction) := do
  let technical ← technicalActions record actor
  .ok (managerActions record.request actor ++
    initiatorActions record.request actor ++ technical)

end Procurement
