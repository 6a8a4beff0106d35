import DcInventory.Identity.Locking
import DcInventory.Inventory.Guards
import DcInventory.Inventory.Projection
import DcInventory.Inventory.Schemas

/-
  This file defines the creation and reversal of movements.

  `sha256` is the digest of `canonical_fingerprint`. `session`
  holds the users that the transaction has loaded before: a
  later SELECT returns them as they were loaded.

  Key definitions include:
    * `validatePositions`
    * `checkOriginal`
    * `quantityLoop`
    * `createMovementUnchecked`
    * `createMovement`
    * `reverseMovement`
-/

------------------------------------------------------------
-- Errors And Texts
------------------------------------------------------------

def inventoryValidationError
    (message : String)
    (code : String) : Error :=
  .inventory .validation message code

def inventoryNotFoundError
    (message : String)
    (code : String) : Error :=
  .inventory .notFound message code

def inventoryConflictError
    (message : String)
    (code : String) : Error :=
  .inventory .conflict message code

/- The normalised text, not blank and not too long. -/
def normalizeInlineText
    (value : Text)
    (field : String)
    (maxLength : Nat) : Except Error Text :=
  let normalized := normalizeIdempotencyKey value
  if normalized = [] then
    .error (inventoryValidationError
      (field ++ " must not be blank") (field ++ "_required"))
  else if normalized.length > maxLength then
    .error (inventoryValidationError
      (field ++ " exceeds " ++ toString maxLength ++
        " characters") (field ++ "_too_long"))
  else .ok normalized

------------------------------------------------------------
-- Records
------------------------------------------------------------

structure MovementRecord where
  movement : Movement
  lines : List MovementLine
deriving DecidableEq

structure MovementResult where
  record : MovementRecord
  replayed : Bool
deriving DecidableEq

/- The movement and its lines, read by two statements. -/
def getMovementRecord
    (movementId : Uuid) : Op MovementRecord := do
  let found ← .query (fun db => db.findMovement movementId)
  let movement ← .getOrFail
    (inventoryNotFoundError "movement not found"
      "movement_not_found") found
  let lines ← .query (fun db => db.linesOf movementId)
  pure ⟨movement, lines⟩

------------------------------------------------------------
-- Checks
------------------------------------------------------------

/- Custody is only for the actor's own issue or return. -/
def checkCustodyArguments
    (payload : MovementCreate)
    (actorUserId : Uuid)
    (custodyUserId : Option Uuid) : Except Error Unit :=
  if payload.movementType = .reversal then .ok ()
  else if custodyUserId ≠ none ∧
      payload.movementType ∉ [.issue, .return_] then
    .error (inventoryValidationError
      "custody is only valid for issue or return"
      "custody_movement_type_invalid")
  else if custodyUserId ≠ none ∧
      custodyUserId ≠ some actorUserId then
    .error (inventoryValidationError
      "custody user must match movement actor"
      "custody_actor_mismatch")
  else .ok ()

/- Which of source and destination each type has. -/
def allowedShapes : MovementType → List (Bool × Bool)
| .receipt => [(false, true)]
| .return_ => [(false, true)]
| .issue => [(true, false)]
| .writeOff => [(true, false)]
| .transfer => [(true, true)]
| .correction => [(true, false), (false, true), (true, true)]
| .reversal => [(true, false), (false, true), (true, true)]

/- A correction or reversal refers to another movement. -/
def isLinked (t : MovementType) : Bool :=
  t = .correction ∨ t = .reversal

def validatePositions
    (payload : MovementCreate) : Except Error Unit :=
  if payload.sourceLocationId ≠ none ∧
      payload.sourceLocationId =
        payload.destinationLocationId then
    .error (inventoryValidationError
      "source and destination must differ" "same_location")
  else if (payload.sourceLocationId.isSome,
        payload.destinationLocationId.isSome) ∉
      allowedShapes payload.movementType then
    .error (inventoryValidationError
      "invalid movement locations"
      "movement_positions_invalid")
  else if isLinked payload.movementType ≠
      payload.originalMovementId.isSome then
    .error (inventoryValidationError
      "invalid original movement relationship"
      "inventory_validation_error")
  else .ok ()

/- Lock the holder; except in a reversal, it must be one. -/
def lockCustodyUser
    (session : List User)
    (movementType : MovementType) :
    Option Uuid → Op (Option User)
| none => pure none
| some custodyUserId => do
    .acquire (.exclusive (.userRow custodyUserId))
    let row ← .query (fun db => db.findUser custodyUserId)
    let user ← .getOrFail
      (inventoryNotFoundError "custody user not found"
        "custody_user_not_found")
      (loadedUser session row)
    .require
      (movementType = .reversal ∨ mayHoldCustody user)
      (inventoryConflictError
        "custody user is not an approved user"
        "custody_user_not_approved")
    pure (some user)

/- `_custody_delta` -/
def custodyDelta
    (movementType : MovementType)
    (original : Option MovementRecord) : Int :=
  Movement.custodySign movementType
    (original.map (fun r => r.movement.movementType))

/- The movement a correction or reversal refers to. -/
def checkOriginal
    (payload : MovementCreate)
    (custodyUserId : Option Uuid)
    (custodyUser : Option User) :
    Option Uuid → Op (Option MovementRecord)
| none => pure none
| some originalId => do
    .acquire
      (.exclusive (.warehouseOriginalMovement originalId))
    let protectedRequest ← .query (fun db =>
      db.procurementRequests.find? (fun r =>
        r.finalMovementId = some originalId))
    .require (protectedRequest.isNone)
      (inventoryConflictError
        "procurement receipt cannot be generically adjusted"
        "procurement_movement_protected")
    let original ← getMovementRecord originalId
    .require (original.movement.movementType ≠ .reversal)
      (inventoryValidationError
        "invalid correction/reversal target"
        "inventory_validation_error")
    .require
      (¬ (payload.movementType = .correction ∧
        original.movement.custodyUserId ≠ none))
      (inventoryValidationError
        "correction of a custody movement is forbidden"
        "custody_correction_forbidden")
    .require
      (¬ (payload.movementType = .reversal ∧
        custodyUserId ≠ original.movement.custodyUserId))
      (inventoryValidationError
        "reversal custody must match original movement"
        "reversal_custody_mismatch")
    if payload.movementType = .reversal then do
      let reversal ← .query (fun db =>
        db.movements.find? (fun m =>
          m.originalMovementId = some originalId ∧
            m.movementType = .reversal))
      .require (reversal.isNone)
        (inventoryConflictError "movement already reversed"
          "movement_already_reversed")
      -- reversing a RETURN gives custody back to its holder
      .require
        (¬ (custodyUserId ≠ none ∧
          0 < custodyDelta payload.movementType
            (some original) ∧
          ¬ (custodyUser.any
            (fun u => mayHoldCustody u))))
        (inventoryConflictError
          "custody user is not an approved user"
          "custody_user_not_approved")
      pure (some original)
    else pure (some original)

/- `SELECT ... WHERE id IN (ids) ORDER BY id FOR UPDATE` -/
def lockRows {R : Type}
    (resource : Uuid → Resource)
    (find : Db → Uuid → Option R) :
    List Uuid → Op (List R)
| [] => pure []
| id :: ids => do
    .acquire (.exclusive (resource id))
    let row ← .query (fun db => find db id)
    let rows ← lockRows resource find ids
    pure (row.toList ++ rows)

/- The distinct identifiers in ascending order. -/
def sortedIds (ids : List Uuid) : List Uuid :=
  ids.dedup.insertionSort (fun a b => a ≤ b)

def locationIds (payload : MovementCreate) : List Uuid :=
  sortedIds (payload.sourceLocationId.toList ++
    payload.destinationLocationId.toList)

def itemIds (payload : MovementCreate) : List Uuid :=
  sortedIds
    (payload.lines.map MovementLineCreate.itemId)

def lockLocations
    (payload : MovementCreate) : Op (List Location) := do
  let locations ← lockRows .locationRow Db.findLocation
    (locationIds payload)
  .require
    (∀ id ∈ locationIds payload,
      ∃ l ∈ locations, l.id = id)
    (inventoryNotFoundError "location not found"
      "inventory_not_found")
  .require (∀ l ∈ locations, l.status = .active)
    (inventoryConflictError
      "archived location cannot be used"
      "location_archived")
  pure locations

def lockItems
    (payload : MovementCreate) : Op (List Item) := do
  .require
    ((payload.lines.map MovementLineCreate.itemId).Nodup)
    (inventoryValidationError
      "each item must occur once per movement"
      "inventory_validation_error")
  let items ← lockRows .itemRow Db.findItem (itemIds payload)
  .require
    (∀ id ∈ itemIds payload, ∃ i ∈ items, i.id = id)
    (inventoryNotFoundError "item not found"
      "inventory_not_found")
  .require
    (¬ (payload.movementType ∈ [.receipt, .issue] ∧
      ∃ i ∈ items, i.status ≠ .active))
    (inventoryConflictError
      "archived item cannot be received or issued"
      "inventory_conflict")
  pure items

/- A correction stays with its original. -/
def correctionConcernsOriginal
    (payload : MovementCreate)
    (original : MovementRecord) : Prop :=
  (∃ id ∈ locationIds payload,
    original.movement.sourceLocationId = some id ∨
      original.movement.destinationLocationId = some id) ∧
  ∀ id ∈ itemIds payload,
    ∃ l ∈ original.lines, l.itemId = id

instance
    (payload : MovementCreate)
    (original : MovementRecord) :
    Decidable
      (correctionConcernsOriginal payload original) := by
  unfold correctionConcernsOriginal
  infer_instance

------------------------------------------------------------
-- Quantities
------------------------------------------------------------

/- Balances and names read for the lines of a movement. -/
structure Balances where
  manufacturers : List Manufacturer
  stock : List StockBalance
  custody : List UserItemCustodyBalance

def readBalances
    (payload : MovementCreate)
    (custodyUserId : Option Uuid)
    (items : List Item) : Op Balances := do
  let manufacturers ← .query (fun db =>
    db.manufacturers.filter (fun m =>
      ∃ i ∈ items, i.manufacturerId = some m.id))
  let stock ← .query (fun db =>
    db.stockBalances.filter (fun b =>
      b.itemId ∈ itemIds payload ∧
        b.locationId ∈ locationIds payload))
  match custodyUserId with
  | none => pure ⟨manufacturers, stock, []⟩
  | some user => do
      let custody ← .query (fun db =>
        db.userItemCustodyBalances.filter (fun b =>
          b.userId = user ∧ b.itemId ∈ itemIds payload))
      pure ⟨manufacturers, stock, custody⟩

/- A quantity that stays in the supported range. -/
def checkQuantity
    (quantity : Int)
    (message code : String) : Except Error Unit :=
  if quantity < 0 then
    .error (inventoryConflictError message code)
  else if quantity > maxQuantity then
    .error (inventoryConflictError
      "quantity exceeds supported range" "quantity_overflow")
  else .ok ()

/- The stock of one position after the line. -/
def checkPosition
    (balances : Balances)
    (line : MovementLineCreate)
    (delta : Int) : Option Uuid → Except Error Unit
| none => .ok ()
| some location =>
    let balance :=
      Table.find (fun b => (b.itemId, b.locationId))
        (line.itemId, location) balances.stock
    checkQuantity
      (((balance.map StockBalance.quantity).getD 0 : Nat) +
        delta)
      "insufficient stock" "insufficient_stock"

/- The custody of the holder after the line. -/
def checkCustody
    (balances : Balances)
    (line : MovementLineCreate)
    (delta : Int)
    (custodyUserId : Option Uuid) : Except Error Unit :=
  if custodyUserId ≠ none ∧ delta ≠ 0 then
    let balance := Table.find UserItemCustodyBalance.itemId
      line.itemId balances.custody
    checkQuantity
      (((balance.map
        UserItemCustodyBalance.quantity).getD 0 : Nat) +
        delta)
      "insufficient user custody" "insufficient_custody"
  else .ok ()

/- The checks that the loop makes for one line. -/
def checkLine
    (payload : MovementCreate)
    (custodyUserId : Option Uuid)
    (original : Option MovementRecord)
    (balances : Balances)
    (line : MovementLineCreate) : Except Error Unit := do
  checkPosition balances line (-line.quantity)
    payload.sourceLocationId
  checkPosition balances line line.quantity
    payload.destinationLocationId
  checkCustody balances line
    (custodyDelta payload.movementType original *
      line.quantity)
    custodyUserId

/- The row of one line. -/
def movementLineRow
    (movementId : Uuid)
    (items : List Item)
    (balances : Balances)
    (number : Nat)
    (line : MovementLineCreate) : Except Error MovementLine :=
  match Table.find Item.id line.itemId items with
  | none => .error (.runtime "KeyError")
  | some item => .ok {
      movementId := movementId
      lineNo := number
      itemId := item.id
      quantity := line.quantity
      itemNameSnapshot := item.name
      modelSnapshot := item.model
      manufacturerNameSnapshot :=
        (item.manufacturerId.bind (fun id =>
          Table.find Manufacturer.id id
            balances.manufacturers)).map Manufacturer.name }

/- The loop over the lines, numbered from `number`. -/
def quantityLoop
    (payload : MovementCreate)
    (custodyUserId : Option Uuid)
    (original : Option MovementRecord)
    (items : List Item)
    (balances : Balances)
    (movementId : Uuid) :
    Nat → List MovementLineCreate →
      Except Error (List MovementLine)
| _, [] => .ok []
| number, line :: rest => do
    checkLine payload custodyUserId original balances line
    let row ← movementLineRow movementId items balances
      number line
    let rows ← quantityLoop payload custodyUserId original
      items balances movementId (number + 1) rest
    pure (row :: rows)

------------------------------------------------------------
-- Inserts
------------------------------------------------------------

/- The rows that a guard passes, or its exception. -/
def enforce (x : Except DatabaseGuard Unit) : Op Unit :=
  .ofExcept (x.mapError raise)

/- `protect_procurement_receipt_movement` -/
def protectProcurementReceiptMovement
    (new : Movement) : Op Unit :=
  match new.originalMovementId with
  | none => pure ()
  | some originalId =>
      if isLinked new.movementType then do
        .acquire (.exclusive (.receiptBinding originalId))
        let receipt ← .query (fun db =>
          db.procurementRequests.find? (fun r =>
            r.finalMovementId = some originalId))
        .require (receipt.isNone) (raise .procurementReceipt)
      else pure ()

/- The entries of the unique indexes of movements. -/
def uniqueMovement (new : Movement) : Op Unit := do
  .acquire (.exclusive (.movementPkey new.id))
  let sameId ← .query (fun db => db.findMovement new.id)
  .require (sameId.isNone) (raise .movementsPkey)
  .acquire (.exclusive
    (.movementActorKey new.actorUserId new.clientRequestId))
  let sameKey ← .query (fun db =>
    db.movements.find? (fun m =>
      m.actorUserId = new.actorUserId ∧
        m.clientRequestId = new.clientRequestId))
  .require (sameKey.isNone)
    (raise .movementsActorClientRequest)
  match new.movementType, new.originalMovementId with
  | .reversal, some originalId => do
      .acquire (.exclusive (.movementReversal originalId))
      let sameOriginal ← .query (fun db =>
        db.movements.find? (fun m =>
          m.originalMovementId = some originalId ∧
            m.movementType = .reversal))
      .require (sameOriginal.isNone)
        (raise .movementsOriginalReversal)
  | _, _ => pure ()

/- Insert the header, past its triggers and constraints. -/
def insertMovement (new : Movement) : Op Unit := do
  protectProcurementReceiptMovement new
  let original ← .query (fun db => db.originalOf new)
  enforce (validateWarehouseCorrectionHeader new original)
  let actor ← .query (fun db => db.findUser new.actorUserId)
  let original' ← .query (fun db => db.originalOf new)
  enforce (validateMovementCustody new
    (actor.map User.role) original')
  enforce (movementChecks new)
  uniqueMovement new
  .update (fun db =>
    { db with movements := db.movements ++ [new] })

/- Insert one line, past its trigger. -/
def insertMovementLine
    (header : Movement)
    (new : MovementLine) : Op Unit := do
  let originalLines ← .query (fun db =>
    header.originalMovementId.elim [] db.linesOf)
  enforce (validateWarehouseCorrectionLine header
    originalLines new)
  .update (fun db =>
    { db with movementLines := db.movementLines ++ [new] })

def insertMovementLines
    (header : Movement) : List MovementLine → Op Unit
| [] => pure ()
| l :: ls => do
    insertMovementLine header l
    insertMovementLines header ls

/- Refresh the projections, once for each line. -/
def refreshLines
    (movementId : Uuid) : List MovementLine → Op Unit
| [] => pure ()
| l :: ls => do
    refreshWarehouseProjection movementId l.itemId
    refreshLines movementId ls

------------------------------------------------------------
-- Operations
------------------------------------------------------------

/- Who asks for a movement, and what the call is given. -/
structure MovementCall where
  payload : MovementCreate
  actorUserId : Uuid
  actorDisplayName : Text
  custodyUserId : Option Uuid

/- What the environment supplies to a call. -/
structure MovementEnv where
  sha256 : Text → Text
  session : List User
  movementId : Uuid
  clock : Time

def fingerprintOf
    (env : MovementEnv)
    (call : MovementCall)
    (requestId : Text) : Text :=
  canonicalFingerprint env.sha256
    (call.payload.canonical requestId call.custodyUserId)

/- The movement that already has the key, if any. -/
def existingIdempotentResult
    (actorUserId : Uuid)
    (clientRequestId requestFingerprint : Text) :
    Op (Option MovementResult) := do
  let found ← .query (fun db =>
    db.movements.find? (fun m =>
      m.actorUserId = actorUserId ∧
        m.clientRequestId = clientRequestId))
  match found with
  | none => pure none
  | some movement => do
      let lines ← .query (fun db => db.linesOf movement.id)
      .require
        (movement.requestFingerprint = requestFingerprint)
        (inventoryConflictError
          ("idempotency key was already used " ++
            "with a different payload")
          "idempotency_payload_conflict")
      pure (some ⟨⟨movement, lines⟩, true⟩)

/- The header row. -/
def movementRow
    (env : MovementEnv)
    (call : MovementCall)
    (requestId actorSnapshot : Text)
    (locations : List Location) : Movement :=
  let source := call.payload.sourceLocationId.bind (fun id =>
    Table.find Location.id id locations)
  let destination := call.payload.destinationLocationId.bind
    (fun id => Table.find Location.id id locations)
  { id := env.movementId
    movementType := call.payload.movementType
    lineCount := call.payload.lines.length
    actorUserId := call.actorUserId
    custodyUserId := call.custodyUserId
    actorDisplayNameSnapshot := actorSnapshot
    sourceLocationId := call.payload.sourceLocationId
    destinationLocationId := call.payload.destinationLocationId
    sourceLocationCodeSnapshot := source.map Location.code
    sourceLocationNameSnapshot := source.map Location.name
    destinationLocationCodeSnapshot :=
      destination.map Location.code
    destinationLocationNameSnapshot :=
      destination.map Location.name
    originalMovementId := call.payload.originalMovementId
    clientRequestId := requestId
    requestFingerprint := fingerprintOf env call requestId
    occurredAt := env.clock }

/- What is known when the rows are about to be written. -/
structure Prepared where
  original : Option MovementRecord
  locations : List Location
  items : List Item
  balances : Balances

/- Everything between the key lookup and the first insert. -/
def prepareMovement
    (env : MovementEnv)
    (call : MovementCall) : Op Prepared := do
  let payload := call.payload
  let custodyUser ← lockCustodyUser env.session
    payload.movementType call.custodyUserId
  .ofExcept (validatePositions payload)
  let original ← checkOriginal payload call.custodyUserId
    custodyUser payload.originalMovementId
  let locations ← lockLocations payload
  let items ← lockItems payload
  .require
    (payload.movementType = .correction →
      ∀ o ∈ original, correctionConcernsOriginal payload o)
    (inventoryValidationError
      ("correction must concern an original item " ++
        "and location") "inventory_validation_error")
  let balances ← readBalances payload call.custodyUserId items
  pure ⟨original, locations, items, balances⟩

/- Write the movement, its lines and the projections. -/
def writeMovement
    (env : MovementEnv)
    (call : MovementCall)
    (requestId : Text)
    (prepared : Prepared) : Op MovementRecord := do
  let actorSnapshot ← .ofExcept
    (normalizeInlineText call.actorDisplayName "actor" 579)
  let movement := movementRow env call requestId
    actorSnapshot prepared.locations
  insertMovement movement
  let lines ← .ofExcept
    (quantityLoop call.payload call.custodyUserId
      prepared.original prepared.items prepared.balances
      movement.id 1 call.payload.sortedLines)
  insertMovementLines movement lines
  refreshLines movement.id lines
  pure ⟨movement, lines⟩

/- `_create_movement` -/
def createMovementUnchecked
    (env : MovementEnv)
    (call : MovementCall) : Op MovementResult := do
  .ofExcept (checkCustodyArguments call.payload
    call.actorUserId call.custodyUserId)
  let requestId ← .ofExcept
    (normalizeInlineText call.payload.clientRequestId
      "client_request_id" 128)
  .acquire (.exclusive
    (.warehouseIdempotency call.actorUserId requestId))
  let existing ← existingIdempotentResult call.actorUserId
    requestId (fingerprintOf env call requestId)
  match existing with
  | some result => pure result
  | none => do
      let prepared ← prepareMovement env call
      let record ← writeMovement env call requestId prepared
      pure ⟨record, false⟩

def createMovement
    (env : MovementEnv)
    (call : MovementCall) : Op MovementResult :=
  if call.payload.movementType = .reversal then
    .fail (inventoryValidationError
      "use the reversal endpoint"
      "inventory_validation_error")
  else createMovementUnchecked env call

/- The call by which a movement is reversed. -/
def reversalCall
    (original : MovementRecord)
    (payload : MovementReversalCreate)
    (actorUserId : Uuid)
    (actorDisplayName : Text) : Option MovementCall :=
  (MovementCreate.build .reversal
    original.movement.destinationLocationId
    original.movement.sourceLocationId
    (some original.movement.id) payload.clientRequestId
    (original.lines.map (fun l => (l.itemId, l.quantity)))).map
    (fun p => ⟨p, actorUserId, actorDisplayName,
      original.movement.custodyUserId⟩)

def reverseMovement
    (env : MovementEnv)
    (originalMovementId : Uuid)
    (payload : MovementReversalCreate)
    (actorUserId : Uuid)
    (actorDisplayName : Text) : Op MovementResult := do
  let original ← getMovementRecord originalMovementId
  let call ← .getOrFail (.runtime "ValidationError")
    (reversalCall original payload actorUserId
      actorDisplayName)
  createMovementUnchecked env call

/- The deferred trigger of the rows a call inserted. -/
def checkLineCount (result : MovementResult) : Op Unit :=
  if result.replayed then pure ()
  else do
    let lines ← .query (fun db =>
      db.linesOf result.record.movement.id)
    enforce (validateWarehouseMovementLineCount
      result.record.movement lines)

/-
  The transaction of a request: the deferred triggers run at
  the commit.
-/
def transaction
    (p : Op MovementResult) : Op MovementResult := do
  let result ← p
  checkLineCount result
  pure result

/- The custody user that `post_movement` chooses. -/
def custodyChoice
    (role : UserRole)
    (movementType : MovementType)
    (actorUserId : Uuid) : Option Uuid :=
  if role ∈ custodyRoles ∧
      movementType ∈ [.issue, .return_] then
    some actorUserId
  else none

/- A request of a client for a new movement. -/
inductive MovementRequest where
| create (call : MovementCall)
| reverse
    (originalMovementId : Uuid)
    (payload : MovementReversalCreate)
    (actorUserId : Uuid)
    (actorDisplayName : Text)

/- The transaction of the request. -/
def MovementRequest.program
    (env : MovementEnv) : MovementRequest → Op MovementResult
| .create call => transaction (createMovement env call)
| .reverse originalMovementId payload actorUserId
    actorDisplayName =>
    transaction (reverseMovement env originalMovementId payload
      actorUserId actorDisplayName)
