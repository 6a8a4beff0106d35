import DcInventory.Library.Delivery
import DcInventory.Library.Json
import DcInventory.Schema.Enums

/-
  This file defines the rows of the tables that the modelled
  operations read and write.

  Times are counted in microseconds.
-/

abbrev Time := Nat

/- `timedelta(seconds=n)` -/
def seconds (n : Nat) : Time := 1000000 * n

/- The largest quantity of a balance: `2**53 - 1`. -/
def maxQuantity : Nat := 2 ^ 53 - 1

------------------------------------------------------------
-- Identity
------------------------------------------------------------

structure User where
  id : Uuid
  role : UserRole
  accessStatus : UserAccessStatus
  approvedAt : Option Time
  approvedByUserId : Option Uuid
deriving DecidableEq, Repr

structure TelegramIdentity where
  userId : Uuid
  telegramUserId : Int
  username : Option Text
  firstName : Text
  lastName : Option Text
deriving DecidableEq, Repr

structure AccessRequest where
  id : Uuid
  userId : Uuid
  status : AccessRequestStatus
  requestedAt : Time
  decidedAt : Option Time
  decidedByUserId : Option Uuid
  decisionNote : Option String
deriving DecidableEq, Repr

structure UserAccessEvent where
  id : Uuid
  actorUserId : Uuid
  targetUserId : Uuid
  beforeAccessStatus : UserAccessStatus
  afterAccessStatus : UserAccessStatus
  occurredAt : Time
  dbTransactionId : Nat
deriving DecidableEq, Repr

structure UserRoleEvent where
  id : Uuid
  actorUserId : Uuid
  targetUserId : Uuid
  beforeRole : UserRole
  afterRole : UserRole
  occurredAt : Time
  dbTransactionId : Nat
deriving DecidableEq, Repr

structure AuthSession where
  id : Uuid
  userId : Uuid
  tokenHash : Text
  createdAt : Time
  expiresAt : Time
  revokedAt : Option Time
deriving DecidableEq, Repr

inductive CallbackAction where
| approve
| reject
deriving DecidableEq, Repr

structure AccessDecisionCallback where
  token : Text
  accessRequestId : Uuid
  action : CallbackAction
  createdAt : Time
deriving DecidableEq, Repr

------------------------------------------------------------
-- Catalog And Inventory
------------------------------------------------------------

structure Location where
  id : Uuid
  code : Text
  name : Text
  locationType : LocationType
  address : Option Text
  status : LocationStatus
  archivedAt : Option Time
deriving DecidableEq, Repr

structure Category where
  id : Uuid
  key : Text
  displayName : Text
  sortOrder : Nat
  parentId : Option Uuid
deriving DecidableEq, Repr

/-
  An entry of the validation metadata, as it is read from its
  column; a float is given by its text.
-/
inductive MetadataValue where
| null
| str (value : Text)
| int (value : Int)
| float (text : Text)
| bool (value : Bool)
| other
deriving DecidableEq, Repr

structure CategoryAttribute where
  id : Uuid
  categoryId : Uuid
  key : Text
  label : Text
  dataType : AttributeDataType
  unit : Option Text
  required : Bool
  filterable : Bool
  searchable : Bool
  sortOrder : Nat
  filterType : FilterType
  allowedValues : Option (List MetadataValue)
  validationMetadata : Option (List (Text × MetadataValue))
deriving DecidableEq, Repr

structure Manufacturer where
  id : Uuid
  name : Text
  normalizedName : Text
deriving DecidableEq, Repr

structure Item where
  id : Uuid
  categoryId : Uuid
  manufacturerId : Option Uuid
  name : Text
  normalizedName : Text
  model : Option Text
  normalizedModel : Option Text
  status : ItemStatus
  identitySignature : Text
  archivedAt : Option Time
  updatedAt : Time
deriving DecidableEq, Repr

/- A value of a column `Numeric(30, 10)`. -/
structure Numeric where
  unscaled : Int
  fits : unscaled.natAbs < 10 ^ 30
deriving DecidableEq, Repr

structure ItemAttributeValue where
  itemId : Uuid
  categoryAttributeId : Uuid
  categoryId : Uuid
  textValue : Option Text
  integerValue : Option Int
  decimalValue : Option Numeric
  booleanValue : Option Bool
  enumValue : Option Text
deriving DecidableEq, Repr

structure Movement where
  id : Uuid
  movementType : MovementType
  lineCount : Nat
  actorUserId : Uuid
  custodyUserId : Option Uuid
  actorDisplayNameSnapshot : Text
  sourceLocationId : Option Uuid
  destinationLocationId : Option Uuid
  sourceLocationCodeSnapshot : Option Text
  sourceLocationNameSnapshot : Option Text
  destinationLocationCodeSnapshot : Option Text
  destinationLocationNameSnapshot : Option Text
  originalMovementId : Option Uuid
  clientRequestId : Text
  requestFingerprint : Text
  occurredAt : Time
deriving DecidableEq, Repr

structure MovementLine where
  movementId : Uuid
  lineNo : Nat
  itemId : Uuid
  quantity : Nat
  itemNameSnapshot : Text
  modelSnapshot : Option Text
  manufacturerNameSnapshot : Option Text
deriving DecidableEq, Repr

structure StockBalance where
  itemId : Uuid
  locationId : Uuid
  quantity : Nat
deriving DecidableEq, Repr

structure UserItemCustodyBalance where
  userId : Uuid
  itemId : Uuid
  quantity : Nat
deriving DecidableEq, Repr

------------------------------------------------------------
-- Procurement
------------------------------------------------------------

structure ProcurementRequest where
  id : Uuid
  requestNumber : Text
  status : ProcurementStatus
  initiatorUserId : Uuid
  assignedManagerUserId : Uuid
  creationClientRequestId : Text
  requestFingerprint : Text
  currentRevisionId : Uuid
  finalMovementId : Option Uuid
  stateVersion : Nat
  completedAt : Option Time
deriving DecidableEq, Repr

structure ProcurementRevision where
  id : Uuid
  requestId : Uuid
  revisionNumber : Nat
  submittedByUserId : Uuid
  submittedByDisplayNameSnapshot : Text
  generalComment : Option Text
  lineCount : Nat
deriving DecidableEq, Repr

structure ProcurementRevisionLine where
  id : Uuid
  revisionId : Uuid
  lineNo : Nat
  lineType : ProcurementLineType
  catalogItemId : Option Uuid
  displaySnapshot : Json
  expectedIdentitySignature : Text
  quantity : Nat

structure ProcurementLineCatalogBinding where
  revisionLineId : Uuid
  itemId : Uuid
  boundByUserId : Uuid
deriving DecidableEq, Repr

structure ProcurementEvent where
  id : Uuid
  requestId : Uuid
  eventType : ProcurementEventType
  actorUserId : Uuid
  actorDisplayNameSnapshot : Text
  clientRequestId : Text
  requestFingerprint : Text
  fromStatus : Option ProcurementStatus
  toStatus : Option ProcurementStatus
  revisionId : Option Uuid
  comment : Option Text
  metadata : Option Json

------------------------------------------------------------
-- Outboxes And Telegram
------------------------------------------------------------

structure NotificationOutbox where
  id : Uuid
  method : Text
  payload : Json
  dedupeKey : Text
  status : DeliveryStatus
  attempts : Nat
  availableAt : Time
  claimedAt : Option Time
  claimToken : Option Uuid
  sentAt : Option Time
  lastError : Option Text
  createdAt : Time
  updatedAt : Time

structure EmailOutbox where
  id : Uuid
  requestId : Uuid
  toAddresses : List Text
  ccAddresses : List Text
  subject : Text
  textBody : Text
  htmlBody : Text
  dedupeKey : Text
  status : DeliveryStatus
  attempts : Nat
  availableAt : Time
  claimedAt : Option Time
  claimToken : Option Uuid
  sentAt : Option Time
  lastError : Option Text
  createdAt : Time
  updatedAt : Time

structure TelegramUpdate where
  updateId : Int
  receivedAt : Time
  processedAt : Option Time
deriving DecidableEq, Repr

structure TelegramChatState where
  chatId : Int
  latestStartUpdateId : Int
  lastWelcomeMessageId : Option Int
  lastWelcomeSentAt : Option Time
deriving DecidableEq, Repr
