import DcInventory.Procurement.Statements

/-
  This file defines how the lines of a request are prepared:
  what a line shows of its item, which identity it expects,
  and how much of each item all lines ask for.

  Key definitions include:
    * `Catalog.ItemCreateValidationContext.validate`
    * `displaySnapshot`
    * `validateAggregatedItemQuantities`
    * `prepareLines`
-/

------------------------------------------------------------
-- Drafts
------------------------------------------------------------

namespace Catalog

structure ValidatedItemDraft where
  category : Category
  manufacturer : Option Manufacturer
  name : Text
  model : Option Text
  attributes : Dictionary Text AttributeValue
  identitySignature : Text

def ItemCreateValidationContext.validate
    (env : CatalogEnv)
    (context : ItemCreateValidationContext)
    (payload : ItemCreate) :
    Except Error ValidatedItemDraft := do
  let prepared ← prepareIdentity env.unicode env.sha256
    context payload
  let name ← normalizeInlineText payload.name "name" 255
  let model ← normalizeOptionalInlineText "model" 255
    payload.model
  .ok {
    category := prepared.category
    manufacturer := prepared.manufacturer
    name := name
    model := model
    attributes := Dictionary.ofList
      (normalizedAttributes prepared.values)
    identitySignature := prepared.identitySignature }

/- `validate_item_create_payload` -/
def validateItemCreatePayload
    (env : CatalogEnv)
    (db : Db)
    (payload : ItemCreate) :
    Except Error ValidatedItemDraft := do
  let context ← loadItemCreateValidationContext env.unicode db
    [payload]
  context.validate env payload

end Catalog

namespace Procurement

------------------------------------------------------------
-- Snapshots
------------------------------------------------------------

/- `str(value) if isinstance(value, Decimal) else value` -/
def snapshotValue : AttributeValue → Json
| .text value => .str value
| .integer value => .int value
| .decimal value => .str value.str
| .boolean value => .bool value

def displaySnapshot
    (category : Category)
    (manufacturer : Option Manufacturer)
    (name : Text)
    (model : Option Text)
    (attributes : Dictionary Text AttributeValue) : Json :=
  .ofFields [
    ("category_key".toList, .str category.key),
    ("category_name".toList, .str category.displayName),
    ("manufacturer_id".toList,
      .ofUuid? (manufacturer.map Manufacturer.id)),
    ("manufacturer_name".toList,
      textOrNull (manufacturer.map Manufacturer.name)),
    ("name".toList, .str name),
    ("model".toList, textOrNull model),
    ("attributes".toList, .ofFields
      (attributes.mapValues snapshotValue).entries)]

------------------------------------------------------------
-- Items
------------------------------------------------------------

/- A locked item with what is loaded with it. -/
structure LockedItem where
  item : Item
  category : Option Category
  manufacturer : Option Manufacturer

def loadItem (id : Uuid) (db : Db) : Option LockedItem :=
  (db.findItem id).map (fun item => {
    item := item
    category :=
      Table.find Category.id item.categoryId db.categories
    manufacturer :=
      item.manufacturerId.bind db.findManufacturer })

/- The attributes of items. -/
def loadAttributesForItems
    (db : Db)
    (itemIds : List Uuid) :
    Except Error
      (List (Uuid × Dictionary Text AttributeValue)) :=
  itemIds.mapM (fun id => do
    let attributes ← Catalog.loadAttributes db id
    .ok (id, attributes))

/- The items that lines name, each once, in their order. -/
def existingItemIds
    (payloads : List ProcurementLineCreate) : List Uuid :=
  sortedIds (payloads.filterMap (fun payload =>
    match payload with
    | .existing line => some line.itemId
    | .proposed _ => none))

/- The drafts of the proposed items, in their order. -/
def proposedPayloads
    (payloads : List ProcurementLineCreate) :
    List Catalog.ItemCreate :=
  payloads.filterMap (fun payload =>
    match payload with
    | .existing _ => none
    | .proposed line => some line.itemCreate)

------------------------------------------------------------
-- Quantities
------------------------------------------------------------

/- `MAX_AGGREGATED_ITEM_QUANTITY` -/
def maxAggregatedItemQuantity : Nat := 2 ^ 53 - 1

/- The item of a line, where one line is about to be bound. -/
def pendingItemId
    (pending : Option (Uuid × Uuid))
    (line : LineRecord) : Option Uuid :=
  match pending with
  | some (lineId, itemId) =>
      if line.line.id = lineId then some itemId
      else line.boundItemId
  | none => line.boundItemId

/- The loop over the lines, with the quantities so far. -/
def aggregateFrom
    (pending : Option (Uuid × Uuid)) :
    Dictionary Uuid Nat → List LineRecord →
      Except Error (Dictionary Uuid Nat)
| quantities, [] => .ok quantities
| quantities, line :: lines =>
    match pendingItemId pending line with
    | none => aggregateFrom pending quantities lines
    | some itemId =>
        let quantity := (quantities.get? itemId).getD 0 +
          line.line.quantity
        if maxAggregatedItemQuantity < quantity then
          .error (procurementValidationError
            "aggregated item quantity is too large"
            "aggregated_item_quantity_too_large")
        else
          aggregateFrom pending
            (quantities.set itemId quantity) lines

def validateAggregatedItemQuantities
    (pending : Option (Uuid × Uuid))
    (lines : List LineRecord) :
    Except Error (Dictionary Uuid Nat) :=
  aggregateFrom pending Dictionary.empty lines

------------------------------------------------------------
-- Preparation
------------------------------------------------------------

/- What the loop over the payloads has read before. -/
structure Preparation where
  items : List LockedItem
  attributes : List (Uuid × Dictionary Text AttributeValue)
  proposed : List Catalog.ItemCreate
  context : Catalog.ItemCreateValidationContext

/- The row of a line with an item of the catalog. -/
def existingRow
    (env : ProcurementEnv)
    (prepared : Preparation)
    (lineNo : Nat)
    (line : ExistingItemLineCreate) :
    Except Error ProcurementRevisionLine := do
  match Table.find (fun i => i.item.id) line.itemId
      prepared.items with
  | none =>
      .error (procurementConflictError
        "catalog item not found" "catalog_item_not_found")
  | some locked =>
      if locked.item.status ≠ .active then
        .error (procurementConflictError
          "archived item cannot be procured"
          "catalog_item_archived")
      else
        match locked.category, Table.find Prod.fst
            locked.item.id prepared.attributes with
        | some category, some (_, attributes) => .ok {
            id := env.lineId lineNo
            revisionId := env.revisionId
            lineNo := lineNo
            lineType := .existingItem
            catalogItemId := some locked.item.id
            displaySnapshot := displaySnapshot category
              locked.manufacturer locked.item.name
                locked.item.model attributes
            expectedIdentitySignature :=
              locked.item.identitySignature
            quantity := line.quantity }
        | _, _ => .error (.runtime "KeyError")

/- The row of a line with the draft at this index. -/
def proposedRow
    (env : ProcurementEnv)
    (prepared : Preparation)
    (lineNo proposedIndex : Nat)
    (line : ProposedItemLineCreate) :
    Except Error ProcurementRevisionLine := do
  match prepared.proposed[proposedIndex]? with
  | none => .error (.runtime "IndexError")
  | some payload => do
      let validated ←
        prepared.context.validate env.catalog payload
      .ok {
        id := env.lineId lineNo
        revisionId := env.revisionId
        lineNo := lineNo
        lineType := .proposedItem
        catalogItemId := none
        displaySnapshot := displaySnapshot validated.category
          validated.manufacturer validated.name
            validated.model validated.attributes
        expectedIdentitySignature :=
          validated.identitySignature
        quantity := line.quantity }

/- The loop over the payloads. -/
def prepareRows
    (env : ProcurementEnv)
    (prepared : Preparation) :
    Nat → Nat → List ProcurementLineCreate →
      Except Error (List ProcurementRevisionLine)
| _, _, [] => .ok []
| lineNo, proposedIndex, .existing line :: payloads => do
    let row ← existingRow env prepared lineNo line
    let rows ← prepareRows env prepared (lineNo + 1)
      proposedIndex payloads
    .ok (row :: rows)
| lineNo, proposedIndex, .proposed line :: payloads => do
    let row ← proposedRow env prepared lineNo proposedIndex
      line
    let rows ← prepareRows env prepared (lineNo + 1)
      (proposedIndex + 1) payloads
    .ok (row :: rows)

/- A row that is not bound yet. -/
def unboundRecord
    (line : ProcurementRevisionLine) : LineRecord :=
  ⟨line, none⟩

/- `_prepare_lines`, for the revision of the environment -/
def prepareLines
    (env : ProcurementEnv)
    (payloads : List ProcurementLineCreate) :
    Op (List ProcurementRevisionLine) := do
  let items ← lockRows .itemRow (fun db id => loadItem id db)
    (existingItemIds payloads)
  let db ← .query id
  let attributes ← .ofExcept (loadAttributesForItems db
    (items.map (fun i => i.item.id)))
  let db ← .query id
  let context ← .ofExcept
    (Catalog.loadItemCreateValidationContext
      env.catalog.unicode db (proposedPayloads payloads))
  let rows ← .ofExcept (prepareRows env
    ⟨items, attributes, proposedPayloads payloads, context⟩
      1 0 payloads)
  let _ ← .ofExcept (validateAggregatedItemQuantities none
    (rows.map unboundRecord))
  pure rows

end Procurement
