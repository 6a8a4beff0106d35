import DcInventory.Catalog.Guards
import DcInventory.Library.Transaction

/-
  This file defines how items are validated, created and
  edited.

  Key definitions include:
    * `ItemCreate`
    * `ItemCreateValidationContext`
    * `prepareIdentity`
    * `createManufacturer`
    * `createItem`
    * `updateItem`
    * `setItemArchived`
    * `checkDuplicateCandidates`
-/

namespace Catalog

------------------------------------------------------------
-- Configuration
------------------------------------------------------------

/- The keys of `LEAVES`. -/
def leaves : List Text :=
  ["transceiver_ethernet".toList, "transceiver_fc".toList,
    "optical_patch_cord".toList, "optical_splitter".toList,
    "ethernet_patch_cord".toList, "network_ethernet".toList,
    "network_fc".toList, "ssd".toList, "hdd".toList,
    "ram".toList, "pcie_adapter".toList,
    "power_cable".toList]

def manufacturedLeaves : List Text :=
  ["transceiver_ethernet".toList, "transceiver_fc".toList,
    "network_ethernet".toList, "network_fc".toList,
    "ssd".toList, "hdd".toList, "ram".toList,
    "pcie_adapter".toList]

------------------------------------------------------------
-- Requests
------------------------------------------------------------

structure ItemCreate where
  categoryKey : Text
  manufacturerId : Option Uuid
  name : Text
  model : Option Text
  attributes : Dictionary Text RawValue
  categoryKeyLength : categoryKey.length ≤ 64
  nameLength : name.length ≤ 255
  modelLength : ∀ m, model = some m → m.length ≤ 255

/- The fields that are set, some of them to nothing. -/
structure ItemPatch where
  categoryKey : Option (Option Text)
  manufacturerId : Option (Option Uuid)
  name : Option (Option Text)
  model : Option (Option Text)
  attributes : Option (Option (Dictionary Text RawValue))

------------------------------------------------------------
-- Texts
------------------------------------------------------------

/- `f"{field} exceeds {max_length} characters"` -/
def tooLong
    (field middle : String) (maxLength : Nat) : Error :=
  CatalogError.validation (field ++ "_too_long")
    (field ++ middle ++ toString maxLength ++ " characters")

def normalizeInlineText
    (value : Text)
    (field : String)
    (maxLength : Nat) : Except Error Text :=
  let normalized := Text.normalize value
  if normalized = [] then
    .error (CatalogError.validation (field ++ "_required")
      (field ++ " must not be blank"))
  else if maxLength < normalized.length then
    .error (tooLong field " exceeds " maxLength)
  else .ok normalized

def normalizeOptionalInlineText
    (field : String)
    (maxLength : Nat) :
    Option Text → Except Error (Option Text)
| none => .ok none
| some value =>
    let normalized := Text.normalize value
    if normalized = [] then .ok none
    else if maxLength < normalized.length then
      .error (tooLong field " exceeds " maxLength)
    else .ok (some normalized)

section Validation

variable (U : Unicode)

def normalizeComparison
    (value : Text)
    (field : String)
    (maxLength : Nat) : Except Error Text :=
  let normalized := U.casefold (Text.normalize value)
  if maxLength < normalized.length then
    .error (tooLong field " normalized value exceeds "
      maxLength)
  else .ok normalized

/- `normalize_comparison`, nothing for a missing text. -/
def normalizeOptionalComparison
    (field : String)
    (maxLength : Nat) :
    Option Text → Except Error (Option Text)
| none | some [] => .ok none
| some value =>
    (normalizeComparison U value field maxLength).map some

def normalizeCategoryKey
    (value : Text) : Except Error Text :=
  (normalizeInlineText value "category_key" 64).map U.casefold

------------------------------------------------------------
-- Drafts
------------------------------------------------------------

structure ItemCreateValidationContext where
  categoriesByKey : Dictionary Text Category
  manufacturersById : Dictionary Uuid Manufacturer
  attributesByCategoryId :
    Dictionary Uuid (List CategoryAttribute)

structure PreparedItemIdentity where
  category : Category
  manufacturer : Option Manufacturer
  values : List PreparedAttributeValue
  identitySignature : Text

/- The attributes of a transceiver, with `reach_m`. -/
def deriveReach
    (attributes : Dictionary Text RawValue) :
    Except Error (Dictionary Text RawValue) :=
  let reach : Except ReachError Int := do
    let text ←
      match attributes.get? "reach".toList with
      | none => .ok []
      | some raw => raw.str?
    normalizeReach U text
  match reach with
  | .error (.value message) =>
      .error (.catalog .validation "reach_invalid".toList
        message)
  | .error .overflow => .error .decimalOverflow
  | .ok derived =>
      match attributes.get? "reach_m".toList with
      | some raw =>
          if raw.equals derived then
            .ok (attributes.set "reach_m".toList (.int derived))
          else
            .error (CatalogError.validation "reach_mismatch"
              "normalized reach contradicts display value")
      | none =>
          .ok (attributes.set "reach_m".toList (.int derived))

/- The attributes that are validated for a category. -/
def derivedAttributes
    (category : Category)
    (attributes : Dictionary Text RawValue) :
    Except Error (Dictionary Text RawValue) :=
  if "transceiver_".toList.isPrefixOf category.key then
    deriveReach U attributes
  else .ok attributes

/- The values by the keys of their attributes. -/
def normalizedAttributes
    (values : List PreparedAttributeValue) :
    List (Text × AttributeValue) :=
  values.filterMap (fun value =>
    value.value?.map (fun v => (value.attr.key, v)))

def leafCategory
    (context : ItemCreateValidationContext)
    (categoryKey : Text) : Except Error Category := do
  let key ← normalizeCategoryKey U categoryKey
  match context.categoriesByKey.get? key with
  | none => .error (CatalogError.notFound "category not found")
  | some category =>
      if category.parentId = none ∨ category.key ∉ leaves then
        .error (CatalogError.validation "leaf_category_required"
          "items require a fixed leaf category")
      else .ok category

def draftManufacturer
    (context : ItemCreateValidationContext) :
    Option Uuid → Except Error (Option Manufacturer)
| none => .ok none
| some id =>
    match context.manufacturersById.get? id with
    | none =>
        .error (CatalogError.notFound "manufacturer not found")
    | some manufacturer => .ok (some manufacturer)

/- A manufacturer and a model where the leaf needs them. -/
def requireIdentity
    (category : Category)
    (manufacturer : Option Manufacturer)
    (model : Option Text) : Except Error Unit :=
  if category.key ∈ manufacturedLeaves ∧
      (manufacturer = none ∨ Text.strip (model.getD []) = [])
  then
    .error (CatalogError.validation "identity_required"
      "manufacturer and model are required")
  else .ok ()

def prepareIdentity
    (sha256 : Text → Text)
    (context : ItemCreateValidationContext)
    (payload : ItemCreate) :
    Except Error PreparedItemIdentity := do
  let category ← leafCategory U context payload.categoryKey
  let manufacturer ←
    draftManufacturer context payload.manufacturerId
  requireIdentity category manufacturer payload.model
  let attributes ←
    derivedAttributes U category payload.attributes
  let values ← validateAttributeValues U category.id
    ((context.attributesByCategoryId.get?
      category.id).getD []) attributes
  .ok {
    category := category
    manufacturer := manufacturer
    values := values
    identitySignature := itemSignature U sha256 category.key
      (manufacturer.map Manufacturer.name) payload.model
      (normalizedAttributes values) }

end Validation

------------------------------------------------------------
-- Loading
------------------------------------------------------------

section Loading

variable (U : Unicode)

/- The definitions of a category, in their order. -/
def definitionsOfCategory
    (db : Db) (categoryId : Uuid) : List CategoryAttribute :=
  (db.categoryAttributes.filter (fun a =>
    a.categoryId = categoryId)).insertionSort
      CategoryAttribute.before

def loadItemCreateValidationContext
    (db : Db)
    (payloads : List ItemCreate) :
    Except Error ItemCreateValidationContext := do
  let keys ← payloads.mapM (fun payload =>
    normalizeCategoryKey U payload.categoryKey)
  let manufacturerIds :=
    payloads.filterMap ItemCreate.manufacturerId
  let categories := db.categories.filter (fun c =>
    c.key ∈ keys)
  let manufacturers := db.manufacturers.filter (fun m =>
    m.id ∈ manufacturerIds)
  .ok {
    categoriesByKey := Dictionary.ofList
      (categories.map (fun c => (c.key, c)))
    manufacturersById := Dictionary.ofList
      (manufacturers.map (fun m => (m.id, m)))
    attributesByCategoryId := Dictionary.ofList
      (categories.map (fun c =>
        (c.id, definitionsOfCategory db c.id))) }

/- `_prepare_identity` -/
def prepareStoredIdentity
    (sha256 : Text → Text)
    (db : Db)
    (payload : ItemCreate) :
    Except Error PreparedItemIdentity := do
  let context ← loadItemCreateValidationContext U db [payload]
  prepareIdentity U sha256 context payload

/- The value of a row in the column of its type. -/
def storedAttributeValue
    (attr : CategoryAttribute)
    (row : ItemAttributeValue) :
    Except Error AttributeValue :=
  let value :=
    match attr.dataType with
    | .text => row.textValue.map .text
    | .integer => row.integerValue.map .integer
    | .decimal => row.decimalValue.map (fun n =>
        .decimal n.toDecimal)
    | .boolean => row.booleanValue.map .boolean
    | .enum => row.enumValue.map .text
  match value with
  | some v => .ok v
  | none =>
      .error (CatalogError.schema
        "stored item attribute value does not match metadata")

/- The rows of an item, each with its definition. -/
def joinedRows
    (db : Db)
    (itemId : Uuid) :
    List (CategoryAttribute × ItemAttributeValue) :=
  db.categoryAttributes.flatMap (fun a =>
    (db.itemAttributeValues.filter (fun row =>
      row.itemId = itemId ∧
        row.categoryAttributeId = a.id)).map (fun row =>
          (a, row)))

/- The rows in the order of their definitions. -/
def attributeRows
    (db : Db)
    (itemId : Uuid) :
    List (CategoryAttribute × ItemAttributeValue) :=
  (joinedRows db itemId).insertionSort (fun x y =>
    x.1.before y.1)

/- `load_attributes_for_items` of one item. -/
def loadAttributes
    (db : Db)
    (itemId : Uuid) :
    Except Error (Dictionary Text AttributeValue) := do
  let entries ← (attributeRows db itemId).mapM (fun x => do
    let value ← storedAttributeValue x.1 x.2
    .ok (x.1.key, value))
  .ok (Dictionary.ofList entries)

end Loading

------------------------------------------------------------
-- Storing
------------------------------------------------------------

/- What a runtime provides. -/
structure CatalogEnv where
  unicode : Unicode
  sha256 : Text → Text

section Storing

variable (env : CatalogEnv)

/- `_item_attribute_rows`, flushed. -/
def insertAttributeRows
    (itemId categoryId : Uuid)
    (values : List PreparedAttributeValue) : Op Unit := do
  let rows ← .getOrFail (raise .itemAttributeValueOutOfRange)
    (values.mapM (itemAttributeRow itemId categoryId))
  let db ← .query id
  .require (∀ row ∈ rows, validateItemAttributeValueDataType
    db.categoryAttributes row = true)
    (raise .itemAttributeValueDataType)
  .update (fun db => { db with
    itemAttributeValues := db.itemAttributeValues ++ rows })

def createManufacturer
    (newId : Uuid)
    (name : Text) : Op Manufacturer := do
  let name ← .ofExcept
    (normalizeInlineText name "manufacturer_name" 255)
  let normalizedName ← .ofExcept
    (normalizeComparison env.unicode name "manufacturer_name"
      255)
  let db ← .query id
  .require (∀ m ∈ db.manufacturers,
    m.normalizedName ≠ normalizedName)
    (CatalogError.conflict "manufacturer already exists")
  .require (∀ m ∈ db.manufacturers, m.id ≠ newId)
    (raise .manufacturersPkey)
  let manufacturer : Manufacturer :=
    ⟨newId, name, normalizedName⟩
  .update (fun db => { db with
    manufacturers := db.manufacturers ++ [manufacturer] })
  pure manufacturer

def createItem
    (newId : Uuid)
    (now : Time)
    (payload : ItemCreate) : Op Uuid := do
  let db ← .query id
  let prepared ← .ofExcept
    (prepareStoredIdentity env.unicode env.sha256 db payload)
  let name ← .ofExcept
    (normalizeInlineText payload.name "name" 255)
  let normalizedName ← .ofExcept
    (normalizeComparison env.unicode payload.name "name" 255)
  let model ← .ofExcept
    (normalizeOptionalInlineText "model" 255 payload.model)
  let normalizedModel ← .ofExcept
    (normalizeOptionalComparison env.unicode "model" 255
      payload.model)
  let item : Item := {
    id := newId
    categoryId := prepared.category.id
    manufacturerId := payload.manufacturerId
    name := name
    normalizedName := normalizedName
    model := model
    normalizedModel := normalizedModel
    status := .active
    identitySignature := prepared.identitySignature
    archivedAt := none
    updatedAt := now }
  let db ← .query id
  .require (∀ other ∈ db.items, other.id ≠ newId)
    (raise .itemsPkey)
  .require (∀ other ∈ db.items,
    other.identitySignature ≠ item.identitySignature)
    (raise .itemsIdentitySignature)
  .update (fun db => { db with items := db.items ++ [item] })
  insertAttributeRows newId prepared.category.id prepared.values
  pure newId

/- `ItemCreate.model_validate(data)` -/
def ItemCreate.modelValidate
    (categoryKey : Text)
    (manufacturerId : Option Uuid)
    (name : Text)
    (model : Option Text)
    (attributes : Dictionary Text RawValue) :
    Except Error ItemCreate :=
  if h : categoryKey.length ≤ 64 ∧ name.length ≤ 255 ∧
      ∀ m ∈ model, m.length ≤ 255 then
    .ok ⟨categoryKey, manufacturerId, name, model, attributes,
      h.1, h.2.1, fun m hm => h.2.2 m hm⟩
  else .error (.valueError "validation error for ItemCreate")

/- The stored attributes, or those of the patch. -/
def mergedAttributes
    (stored : Dictionary Text AttributeValue) :
    Option (Option (Dictionary Text RawValue)) →
    Except Error (Dictionary Text RawValue)
| none =>
    .ok ((stored.mapValues AttributeValue.raw).erase
      "reach_m".toList)
| some none =>
    .error (CatalogError.validation "attributes_required"
      "attributes must be an object")
| some (some attributes) => .ok attributes

/- The item with the fields that the patch sets. -/
def mergePatch
    (category : Category)
    (item : Item)
    (stored : Dictionary Text AttributeValue)
    (patch : ItemPatch) : Except Error ItemCreate := do
  let attributes ← mergedAttributes stored patch.attributes
  ItemCreate.modelValidate category.key
    (patch.manufacturerId.getD item.manufacturerId)
    ((patch.name.getD (some item.name)).getD [])
    (patch.model.getD item.model) attributes

def updateItem
    (now : Time)
    (itemId : Uuid)
    (patch : ItemPatch) : Op Uuid := do
  .acquire (Lock.exclusive (.itemRow itemId))
  let db ← .query id
  let item ← .getOrFail (CatalogError.notFound "item not found")
    (db.findItem itemId)
  .require (patch.categoryKey = none)
    (CatalogError.validation "category_immutable"
      "item category cannot be changed")
  .require (patch.name ≠ some none)
    (CatalogError.validation "name_required"
      "item name must not be null")
  let stored ← .ofExcept (loadAttributes db itemId)
  let category ← .getOrFail (.runtime "category")
    (Table.find Category.id item.categoryId db.categories)
  let merged ← .ofExcept (mergePatch category item stored patch)
  let prepared ← .ofExcept
    (prepareStoredIdentity env.unicode env.sha256 db merged)
  let name ← .ofExcept
    (normalizeInlineText merged.name "name" 255)
  let normalizedName ← .ofExcept
    (normalizeComparison env.unicode name "name" 255)
  let model ← .ofExcept
    (normalizeOptionalInlineText "model" 255 merged.model)
  let normalizedModel ← .ofExcept
    (normalizeOptionalComparison env.unicode "model" 255 model)
  .require (∀ other ∈ db.items, other.id ≠ itemId →
    other.identitySignature ≠ prepared.identitySignature)
    (raise .itemsIdentitySignature)
  .update (fun db => { db with
    items := Table.rewrite Item.id itemId (fun item =>
      { item with
        manufacturerId := merged.manufacturerId
        name := name
        normalizedName := normalizedName
        model := model
        normalizedModel := normalizedModel
        identitySignature := prepared.identitySignature
        updatedAt := now }) db.items
    itemAttributeValues := Table.erase
      ItemAttributeValue.itemId itemId
        db.itemAttributeValues })
  insertAttributeRows itemId prepared.category.id
    prepared.values
  pure itemId

/- The item after it is archived or taken back. -/
def archivedItem
    (now : Time)
    (archived : Bool)
    (item : Item) : Item :=
  { item with
    status := if archived then .archived else .active
    archivedAt := if archived then some now else none
    updatedAt := now }

def setItemArchived
    (now : Time)
    (itemId : Uuid)
    (archived : Bool) : Op Uuid := do
  .acquire (Lock.exclusive (.itemRow itemId))
  let item ← .getOrFail (CatalogError.notFound "item not found")
    (← .query (fun db => db.findItem itemId))
  if item.status = (archivedItem now archived item).status then
    pure itemId
  else do
    .update (fun db => { db with
      items := Table.rewrite Item.id itemId
        (archivedItem now archived) db.items })
    pure itemId

/- The items with the signature of a draft. -/
def checkDuplicateCandidates
    (payload : ItemCreate)
    (excludeItemId : Option Uuid) : Op (List Item) := do
  let db ← .query id
  let prepared ← .ofExcept
    (prepareStoredIdentity env.unicode env.sha256 db payload)
  pure (db.items.filter (fun item =>
    item.identitySignature = prepared.identitySignature ∧
      some item.id ≠ excludeItemId))

end Storing

end Catalog
