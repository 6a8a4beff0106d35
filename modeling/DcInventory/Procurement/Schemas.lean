import DcInventory.Catalog.Service
import DcInventory.Core.Idempotency
import DcInventory.Core.Numbers

/-
  This file defines the payloads of procurement commands and
  the texts that their fingerprints are taken of. A payload
  carries the bounds that its schema checks.

  Key definitions include:
    * `ProcurementLineCreate`
    * `ProcurementRequestCreate`
    * `ExpectedStateMutation`
-/

namespace Procurement

------------------------------------------------------------
-- Lines
------------------------------------------------------------

/- The value of an attribute of a proposed item. -/
inductive ProcurementScalar where
| str (value : Text)
| int (value : Int)
| decimal (value : Decimal)
| bool (value : Bool)
deriving DecidableEq

namespace ProcurementScalar

/- The value as the catalog takes it. -/
def raw : ProcurementScalar → RawValue
| .str value => .str value
| .int value => .int value
| .decimal value => .decimal (.finite value)
| .bool value => .bool value

def json : ProcurementScalar → Json
| .str value => .str value
| .int value => .int value
| .decimal value => .str value.str
| .bool value => .bool value

end ProcurementScalar

structure ExistingItemLineCreate where
  itemId : Uuid
  quantity : Nat
  quantity_pos : 0 < quantity
  quantity_le : quantity ≤ maxQuantity

structure ProposedItemLineCreate where
  categoryKey : Text
  manufacturerId : Option Uuid
  name : Text
  model : Option Text
  attributes : Dictionary Text ProcurementScalar
  quantity : Nat
  categoryKey_nonempty : 1 ≤ categoryKey.length
  categoryKey_length : categoryKey.length ≤ 64
  name_nonempty : 1 ≤ name.length
  name_length : name.length ≤ 255
  model_length : ∀ m, model = some m → m.length ≤ 255
  quantity_pos : 0 < quantity
  quantity_le : quantity ≤ maxQuantity

/- The union that `line_type` discriminates. -/
inductive ProcurementLineCreate where
| existing (line : ExistingItemLineCreate)
| proposed (line : ProposedItemLineCreate)

/- The draft of the item that is proposed. -/
def ProposedItemLineCreate.itemCreate
    (line : ProposedItemLineCreate) : Catalog.ItemCreate where
  categoryKey := line.categoryKey
  manufacturerId := line.manufacturerId
  name := line.name
  model := line.model
  attributes := line.attributes.mapValues ProcurementScalar.raw
  categoryKeyLength := line.categoryKey_length
  nameLength := line.name_length
  modelLength := line.model_length

namespace ProcurementLineCreate

def lineType : ProcurementLineCreate → ProcurementLineType
| .existing _ => .existingItem
| .proposed _ => .proposedItem

def quantity : ProcurementLineCreate → Nat
| .existing line => line.quantity
| .proposed line => line.quantity

end ProcurementLineCreate

------------------------------------------------------------
-- Payloads
------------------------------------------------------------

structure ProcurementRequestCreate where
  assignedManagerUserId : Uuid
  generalComment : Option Text
  clientRequestId : Text
  lines : List ProcurementLineCreate
  comment_length :
    ∀ c, generalComment = some c → c.length ≤ 4000
  key_nonempty : 1 ≤ clientRequestId.length
  key_length : clientRequestId.length ≤ 128
  lines_nonempty : 1 ≤ lines.length
  lines_length : lines.length ≤ 500

structure ExpectedStateMutation where
  expectedStateVersion : Nat
  expectedRevisionId : Uuid
  clientRequestId : Text
  version_pos : 1 ≤ expectedStateVersion
  key_nonempty : 1 ≤ clientRequestId.length
  key_length : clientRequestId.length ≤ 128

structure CorrectionRequest
    extends ExpectedStateMutation where
  comment : Text
  alternativeProposal : Option (List ProcurementLineCreate)
  comment_nonempty : 1 ≤ comment.length
  comment_length : comment.length ≤ 4000
  proposal_length : ∀ lines,
    alternativeProposal = some lines →
      1 ≤ lines.length ∧ lines.length ≤ 500

structure RevisionCreate extends ExpectedStateMutation where
  generalComment : Option Text
  lines : List ProcurementLineCreate
  comment_length :
    ∀ c, generalComment = some c → c.length ≤ 4000
  lines_nonempty : 1 ≤ lines.length
  lines_length : lines.length ≤ 500

structure AssignmentMutation
    extends ExpectedStateMutation where
  expectedAssignedManagerUserId : Uuid

structure ManagerTransfer extends AssignmentMutation where
  managerUserId : Uuid

structure LineBindingCreate
    extends ExpectedStateMutation where
  itemId : Uuid
  lineId : Uuid

structure ProposedItemCreateAndBind
    extends ExpectedStateMutation where
  lineId : Uuid
  item : Catalog.ItemCreate

structure DiscrepancyCreate
    extends ExpectedStateMutation where
  comment : Text
  comment_nonempty : 1 ≤ comment.length
  comment_length : comment.length ≤ 4000

structure ProcurementAcceptanceCreate
    extends ExpectedStateMutation where
  receivingLocationId : Uuid

------------------------------------------------------------
-- Serialization
------------------------------------------------------------

/-
  The text of an object whose values are texts already, with
  its keys in the order that `sort_keys` puts them in.
-/
def dumpTexts : List (Text × Text) → Text
| [] => ['\x7b', '\x7d']
| (key, value) :: fields =>
    '\x7b' :: (Json.dumpStr key ++ ':' :: (value ++
      (fields.flatMap (fun field =>
        ',' :: (Json.dumpStr field.1 ++ ':' ::
          field.2)) ++ ['\x7d'])))

def dumpObject (fields : List (String × Text)) : Text :=
  dumpTexts (fields.map (fun field =>
    (field.1.toList, field.2)))

/- A text or nothing. -/
def textOrNull (value : Option Text) : Json :=
  value.elim .null .str

def idText (id : Uuid) : Text :=
  (Json.str id.str).dumps

def lineJson : ProcurementLineCreate → Json
| .existing line => .ofFields [
    ("item_id".toList, .str line.itemId.str),
    ("line_type".toList,
      .str ProcurementLineType.existingItem.value),
    ("quantity".toList, .int line.quantity)]
| .proposed line => .ofFields [
    ("attributes".toList, .ofFields (sortKeys
      (line.attributes.mapValues
        ProcurementScalar.json).entries)),
    ("category_key".toList, .str line.categoryKey),
    ("line_type".toList,
      .str ProcurementLineType.proposedItem.value),
    ("manufacturer_id".toList, .ofUuid? line.manufacturerId),
    ("model".toList, textOrNull line.model),
    ("name".toList, .str line.name),
    ("quantity".toList, .int line.quantity)]

def linesText (lines : List ProcurementLineCreate) : Text :=
  (Json.ofItems (lines.map lineJson)).dumps

/- The value of an attribute; floats are written as they are. -/
def rawText : RawValue → Text
| .str value => (Json.str value).dumps
| .int value => (Json.int value).dumps
| .decimal (.finite value) => (Json.str value.str).dumps
| .decimal .special => (Json.str "NaN".toList).dumps
| .float text _ => text
| .bool value => (Json.bool value).dumps

/- `model_dump(mode="json")` of a draft, as a text. -/
def itemText (item : Catalog.ItemCreate) : Text :=
  dumpObject [
    ("attributes", dumpTexts (sortKeys
      (item.attributes.mapValues rawText).entries)),
    ("category_key", (Json.str item.categoryKey).dumps),
    ("manufacturer_id",
      (Json.ofUuid? item.manufacturerId).dumps),
    ("model", (textOrNull item.model).dumps),
    ("name", (Json.str item.name).dumps)]

def ProcurementRequestCreate.serialized
    (payload : ProcurementRequestCreate) : Text :=
  dumpObject [
    ("assigned_manager_user_id",
      idText payload.assignedManagerUserId),
    ("client_request_id",
      (Json.str payload.clientRequestId).dumps),
    ("general_comment",
      (textOrNull payload.generalComment).dumps),
    ("lines", linesText payload.lines)]

namespace ExpectedStateMutation

def keyText (payload : ExpectedStateMutation) : Text :=
  (Json.str payload.clientRequestId).dumps

def versionText (payload : ExpectedStateMutation) : Text :=
  (Json.int payload.expectedStateVersion).dumps

def serialized (payload : ExpectedStateMutation) : Text :=
  dumpObject [
    ("client_request_id", payload.keyText),
    ("expected_revision_id",
      idText payload.expectedRevisionId),
    ("expected_state_version", payload.versionText)]

end ExpectedStateMutation

def CorrectionRequest.serialized
    (payload : CorrectionRequest) : Text :=
  dumpObject [
    ("alternative_proposal",
      payload.alternativeProposal.elim Json.null.dumps
        linesText),
    ("client_request_id", payload.keyText),
    ("comment", (Json.str payload.comment).dumps),
    ("expected_revision_id",
      idText payload.expectedRevisionId),
    ("expected_state_version", payload.versionText)]

def RevisionCreate.serialized
    (payload : RevisionCreate) : Text :=
  dumpObject [
    ("client_request_id", payload.keyText),
    ("expected_revision_id",
      idText payload.expectedRevisionId),
    ("expected_state_version", payload.versionText),
    ("general_comment",
      (textOrNull payload.generalComment).dumps),
    ("lines", linesText payload.lines)]

def AssignmentMutation.serialized
    (payload : AssignmentMutation) : Text :=
  dumpObject [
    ("client_request_id", payload.keyText),
    ("expected_assigned_manager_user_id",
      idText payload.expectedAssignedManagerUserId),
    ("expected_revision_id",
      idText payload.expectedRevisionId),
    ("expected_state_version", payload.versionText)]

def ManagerTransfer.serialized
    (payload : ManagerTransfer) : Text :=
  dumpObject [
    ("client_request_id", payload.keyText),
    ("expected_assigned_manager_user_id",
      idText payload.expectedAssignedManagerUserId),
    ("expected_revision_id",
      idText payload.expectedRevisionId),
    ("expected_state_version", payload.versionText),
    ("manager_user_id", idText payload.managerUserId)]

def LineBindingCreate.serialized
    (payload : LineBindingCreate) : Text :=
  dumpObject [
    ("client_request_id", payload.keyText),
    ("expected_revision_id",
      idText payload.expectedRevisionId),
    ("expected_state_version", payload.versionText),
    ("item_id", idText payload.itemId),
    ("line_id", idText payload.lineId)]

def ProposedItemCreateAndBind.serialized
    (payload : ProposedItemCreateAndBind) : Text :=
  dumpObject [
    ("client_request_id", payload.keyText),
    ("expected_revision_id",
      idText payload.expectedRevisionId),
    ("expected_state_version", payload.versionText),
    ("item", itemText payload.item),
    ("line_id", idText payload.lineId)]

def DiscrepancyCreate.serialized
    (payload : DiscrepancyCreate) : Text :=
  dumpObject [
    ("client_request_id", payload.keyText),
    ("comment", (Json.str payload.comment).dumps),
    ("expected_revision_id",
      idText payload.expectedRevisionId),
    ("expected_state_version", payload.versionText)]

def ProcurementAcceptanceCreate.serialized
    (payload : ProcurementAcceptanceCreate) : Text :=
  dumpObject [
    ("client_request_id", payload.keyText),
    ("expected_revision_id",
      idText payload.expectedRevisionId),
    ("expected_state_version", payload.versionText),
    ("receiving_location_id",
      idText payload.receivingLocationId)]

end Procurement
