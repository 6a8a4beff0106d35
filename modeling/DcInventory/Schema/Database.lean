import DcInventory.Library.Table
import DcInventory.Library.Transaction
import DcInventory.Schema.Rows

/-
  This file defines the database, the locks its clients take
  and the errors they can meet.

  Key definitions include:
    * `Db`
    * `Lock`
    * `Lock.modes`
    * `Error`
    * `Op`
-/

------------------------------------------------------------
-- Tables
------------------------------------------------------------

structure Db where
  users : List User
  telegramIdentities : List TelegramIdentity
  accessRequests : List AccessRequest
  userAccessEvents : List UserAccessEvent
  userRoleEvents : List UserRoleEvent
  authSessions : List AuthSession
  accessDecisionCallbacks : List AccessDecisionCallback
  locations : List Location
  manufacturers : List Manufacturer
  categories : List Category
  categoryAttributes : List CategoryAttribute
  items : List Item
  itemAttributeValues : List ItemAttributeValue
  movements : List Movement
  movementLines : List MovementLine
  stockBalances : List StockBalance
  userItemCustodyBalances : List UserItemCustodyBalance
  procurementRequests : List ProcurementRequest
  procurementRevisions : List ProcurementRevision
  procurementRevisionLines : List ProcurementRevisionLine
  procurementBindings : List ProcurementLineCatalogBinding
  procurementEvents : List ProcurementEvent
  notificationOutbox : List NotificationOutbox
  emailOutbox : List EmailOutbox
  telegramUpdates : List TelegramUpdate
  telegramChatStates : List TelegramChatState

namespace Db

/- A database without rows. -/
def empty : Db where
  users := []
  telegramIdentities := []
  accessRequests := []
  userAccessEvents := []
  userRoleEvents := []
  authSessions := []
  accessDecisionCallbacks := []
  locations := []
  manufacturers := []
  categories := []
  categoryAttributes := []
  items := []
  itemAttributeValues := []
  movements := []
  movementLines := []
  stockBalances := []
  userItemCustodyBalances := []
  procurementRequests := []
  procurementRevisions := []
  procurementRevisionLines := []
  procurementBindings := []
  procurementEvents := []
  notificationOutbox := []
  emailOutbox := []
  telegramUpdates := []
  telegramChatStates := []

def findUser (db : Db) (id : Uuid) : Option User :=
  Table.find User.id id db.users

def findLocation (db : Db) (id : Uuid) : Option Location :=
  Table.find Location.id id db.locations

def findItem (db : Db) (id : Uuid) : Option Item :=
  Table.find Item.id id db.items

def findManufacturer
    (db : Db) (id : Uuid) : Option Manufacturer :=
  Table.find Manufacturer.id id db.manufacturers

def findMovement (db : Db) (id : Uuid) : Option Movement :=
  Table.find Movement.id id db.movements

def findAccessRequest
    (db : Db) (id : Uuid) : Option AccessRequest :=
  Table.find AccessRequest.id id db.accessRequests

def findRequest
    (db : Db) (id : Uuid) : Option ProcurementRequest :=
  Table.find ProcurementRequest.id id db.procurementRequests

/- The lines of a movement, in the order of their numbers. -/
def linesOf (db : Db) (id : Uuid) : List MovementLine :=
  db.movementLines.filter (fun l => l.movementId = id)

def findStockBalance
    (db : Db)
    (itemId locationId : Uuid) : Option StockBalance :=
  Table.find (fun b => (b.itemId, b.locationId))
    (itemId, locationId) db.stockBalances

def findCustodyBalance
    (db : Db)
    (userId itemId : Uuid) :
    Option UserItemCustodyBalance :=
  Table.find (fun b => (b.userId, b.itemId))
    (userId, itemId) db.userItemCustodyBalances

end Db

------------------------------------------------------------
-- Locks
------------------------------------------------------------

/-
  What can be locked: advisory keys, rows, and entries of
  unique indexes, which an insert holds until it commits.
-/
inductive Resource where
| identityManagement
| telegramUser (telegramUserId : Int)
| warehouseIdempotency (actor : Uuid) (key : Text)
| warehouseOriginalMovement (movement : Uuid)
| procurementCreate (actor : Uuid) (key : Text)
| receiptBinding (movement : Uuid)
| custodyHolder (user : Uuid)
| userRow (user : Uuid)
| telegramIdentityRow (user : Uuid)
| accessRequestRow (request : Uuid)
| callbackRow (token : Text)
| callbackPair (request : Uuid)
| notification (dedupeKey : Text)
| notificationPkey (notification : Uuid)
| locationRow (location : Uuid)
| itemRow (item : Uuid)
| requestRow (request : Uuid)
| movementPkey (movement : Uuid)
| movementActorKey (actor : Uuid) (key : Text)
| movementReversal (original : Uuid)
| ownerRole
| accessRequestPkey (request : Uuid)
| pendingAccessRequest (user : Uuid)
| requestPkey (request : Uuid)
| requestInitiatorKey (initiator : Uuid) (key : Text)
| revisionPkey (revision : Uuid)
| revisionSeal (revision : Uuid)
deriving DecidableEq, Repr

/- A lock on a resource, exclusive unless it is shared. -/
structure Lock where
  resource : Resource
  shared : Bool
deriving DecidableEq, Repr

namespace Lock

def exclusive (r : Resource) : Lock := ⟨r, false⟩

def share (r : Resource) : Lock := ⟨r, true⟩

/- Two locks exclude each other unless both are shared. -/
def modes : LockModes Lock where
  conflict k k' := k.resource = k'.resource ∧
    ¬ (k.shared = true ∧ k'.shared = true)
  symm := by
    rintro k k' ⟨hSame, hMode⟩
    exact ⟨hSame.symm, fun h => hMode ⟨h.2, h.1⟩⟩

instance : DecidableRel modes.conflict := by
  intro k k'
  unfold modes
  infer_instance

/- An exclusive lock conflicts with every lock. -/
theorem conflict_exclusive
    {r : Resource}
    {k : Lock}
    (h : k.resource = r) :
    modes.conflict (exclusive r) k :=
  ⟨h.symm, fun hShared => by
    simpa [exclusive] using hShared.1⟩

end Lock

------------------------------------------------------------
-- Errors
------------------------------------------------------------

/- Constraints and triggers of the database. -/
inductive DatabaseGuard where
| movementsPkey
| movementsActorClientRequest
| movementsOriginalReversal
| positionsDistinct
| operationPositions
| custodyMovementType
| lineCountRange
| sourceLocationSnapshot
| destinationLocationSnapshot
| originalRelationship
| originalNotSelf
| procurementReceipt
| warehouseCorrectionHeader (message : String)
| warehouseCorrectionLine
| movementCustody (message : String)
| warehouseMovementLineCount
| projectionMovement (message : String)
| stockRange
| custodyRange
| custodyHolderEligibility
| userCustodyEligibility
| userAccessAudit
| userRoleAudit
| ownerMustBeApproved
| usersSingletonOwner
| accessRequestsPkey
| accessRequestsUserPending
| accessDecisionCallbacksPkey
| accessDecisionCallbacksRequestAction
| procurementRequestsPkey
| procurementRequestsInitiatorKey
| procurementRequestsFinalMovement
| completedReceiptBinding
| finalMovementBinding
| completionState
| procurementRevisionsPkey
| procurementRevisionSealed
| procurementRevisionLineCount
| procurementRevisionUnknown
| procurementRevisionLinesPkey
| procurementBindingsPkey
| procurementEventsPkey
| procurementEventsKey
| currentRevision
| notificationOutboxPkey
| emailOutboxPkey
| manufacturersPkey
| itemsPkey
| itemsIdentitySignature
| itemAttributeValueOutOfRange
| itemAttributeValueDataType
| itemRequiredAttributes
| itemIdentity (message : String)
deriving DecidableEq, Repr

inductive CatalogErrorKind where
| validation
| notFound
| conflict
| itemInUse
| schema
deriving DecidableEq, Repr

inductive InventoryErrorKind where
| validation
| notFound
| conflict
deriving DecidableEq, Repr

inductive ProcurementErrorKind where
| validation
| notFound
| conflict
| forbidden
deriving DecidableEq, Repr

inductive AdminUserErrorKind where
| notFound
| invalidAccessTransition
| pendingAccessRequestNotFound
| forbidden
| recoveryAdminInvariant
| outstandingCustodyInvariant
| activeProcurementResponsibilityInvariant
deriving DecidableEq, Repr

inductive Error where
| inventory
    (kind : InventoryErrorKind) (message code : String)
| procurement
    (kind : ProcurementErrorKind) (message code : String)
| catalog (kind : CatalogErrorKind) (code message : Text)
| adminUser (kind : AdminUserErrorKind) (message : String)
| accountResetIdentityMismatch (message : String)
| accountResetActiveProcurement (message : String)
| accessAlreadyApproved
| accessBlocked
| recoveryOwnerConflict (message : String)
| recoveryOwnerRotation (message : String)
| invalidAccessCallback (message : String)
| telegramAccessManagerAuthorization (message : String)
| http (status : Nat) (detail : String)
| runtime (message : String)
| valueError (message : String)
| decimalOverflow
| unsupportedTelegramMethod (method : Text)
| database (guard : DatabaseGuard)
deriving DecidableEq, Repr

/- Raise a guard of the database in a transaction. -/
def raise (g : DatabaseGuard) : Error :=
  .database g

/- One database transaction of the application. -/
abbrev Op := Txn Db Lock Error
