import DcInventory.Catalog.Service
import DcInventory.Core.Numbers
import DcInventory.Frontend.CatalogQuery

/-
  This file defines the form for items: what the interface
  returns to it, which drafts it is filled with, what it
  accepts and what it sends.

  Key definitions include:
    * `ItemForm.Browser`
    * `ItemForm.categoryDetail`
    * `ItemForm.validateDraftAttributes`
    * `ItemForm.itemDraft`
    * `ItemForm.submit`
-/

namespace ItemForm

open CatalogView (isBlank trim)
open Catalog (manufacturedLeaves)

------------------------------------------------------------
-- Returned Values
------------------------------------------------------------

/- A value of a JSON document that the interface returns. -/
inductive CatalogScalar where
| str (value : Text)
| number (value : Int)
| bool (value : Bool)
deriving DecidableEq

/-
  How the response model returns a float, and what `String`
  makes of an integer that a number does not hold exactly.
-/
structure Browser where
  floatOut : Text → Option CatalogScalar
  farText : Int → Text

/- `String(value)` of a number. -/
def Browser.numberText
    (browser : Browser)
    (n : Int) : Text :=
  if minSafeInteger ≤ n ∧ n ≤ maxSafeInteger then intText n
  else browser.farText n

/- A stored value in a response. -/
def scalarOf : AttributeValue → CatalogScalar
| .text value => .str value
| .integer value => .number value
| .decimal value => .str value.str
| .boolean value => .bool value

/- A value of a request body as it is received. -/
def CatalogScalar.raw : CatalogScalar → RawValue
| .str value => .str value
| .number value => .int value
| .bool value => .bool value

structure CategoryAttributeOut where
  key : Text
  dataType : AttributeDataType
  unit : Option Text
  required : Bool
  allowedValues : Option (List Text)
  validationMetadata : Option (List (Text × CatalogScalar))
deriving DecidableEq

/- `attribute.validation_metadata?.[key]` -/
def CategoryAttributeOut.metadata?
    (attr : CategoryAttributeOut)
    (key : String) : Option CatalogScalar :=
  (Table.find Prod.fst key.toList
    (attr.validationMetadata.getD [])).map Prod.snd

/- `str | int | Decimal | bool` -/
def metadataOut
    (browser : Browser) : MetadataValue → Option CatalogScalar
| .str value => some (.str value)
| .int n => some (.number n)
| .float text => browser.floatOut text
| .bool value => some (.bool value)
| .null | .other => none

def metadataEntryOut
    (browser : Browser)
    (entry : Text × MetadataValue) :
    Option (Text × CatalogScalar) :=
  (metadataOut browser entry.2).map (fun value =>
    (entry.1, value))

/- `list[str]` -/
def allowedValueOut : MetadataValue → Option Text
| .str value => some value
| _ => none

/- `dict[str, MetadataValue] | None` -/
def validationMetadataOut
    (browser : Browser) :
    Option (List (Text × MetadataValue)) →
    Option (Option (List (Text × CatalogScalar)))
| none => some none
| some entries =>
    (entries.mapM (metadataEntryOut browser)).map some

/- `list[str] | None` -/
def allowedValuesOut :
    Option (List MetadataValue) → Option (Option (List Text))
| none => some none
| some values => (values.mapM allowedValueOut).map some

/- `_category_attribute`, nothing if the model refuses it. -/
def categoryAttributeOut
    (browser : Browser)
    (attr : CategoryAttribute) :
    Option CategoryAttributeOut := do
  let allowed ← allowedValuesOut attr.allowedValues
  let metadata ←
    validationMetadataOut browser attr.validationMetadata
  some {
    key := attr.key
    dataType := attr.dataType
    unit := attr.unit
    required := attr.required
    allowedValues := allowed
    validationMetadata := metadata }

/- The attributes of `get_category`, by the normalized key. -/
def categoryDetail
    (browser : Browser)
    (db : Db)
    (categoryKey : Text) :
    Option (List CategoryAttributeOut) := do
  let category ← Table.find Category.key categoryKey
    db.categories
  (Catalog.definitionsOfCategory db category.id).mapM
    (categoryAttributeOut browser)

/- `get_category` -/
def getCategory
    (U : Unicode)
    (browser : Browser)
    (db : Db)
    (categoryKey : Text) :
    Option (List CategoryAttributeOut) :=
  match Catalog.normalizeCategoryKey U categoryKey with
  | .error _ => none
  | .ok key => categoryDetail browser db key

structure CatalogItem where
  categoryKey : Text
  manufacturerId : Option Uuid
  name : Text
  model : Option Text
  attributes : Dictionary Text CatalogScalar

/- `_item_out` -/
def itemOut
    (category : Category)
    (item : Item)
    (attributes : Dictionary Text AttributeValue) :
    CatalogItem where
  categoryKey := category.key
  manufacturerId := item.manufacturerId
  name := item.name
  model := item.model
  attributes := attributes.mapValues scalarOf

------------------------------------------------------------
-- Numbers
------------------------------------------------------------

/- `/^[+-]?(?:\d+(?:\.\d*)?|\.\d+)$/` -/
def isDecimalText (value : Text) : Bool :=
  let (whole, rest) := (readSign value).2.span Char.isDigit
  match rest with
  | [] => whole ≠ []
  | c :: fraction =>
      c = '.' && (whole ≠ [] || fraction ≠ []) &&
        fraction.all Char.isDigit

/- `/^[+-]?\d+$/` -/
def isIntegerText (value : Text) : Bool :=
  let digits := (readSign value).2
  digits ≠ [] && digits.all Char.isDigit

structure ComparableDecimal where
  coefficient : Int
  scale : Nat
deriving DecidableEq

/- A natural number with the sign that was read. -/
def signed (negative : Bool) (n : Nat) : Int :=
  if negative then -n else n

def decimalParts (value : Text) : Option ComparableDecimal :=
  let trimmed := trim value
  if isDecimalText trimmed then
    let (negative, digits) := readSign trimmed
    let (whole, rest) := digits.span Char.isDigit
    let fraction := rest.drop 1
    some {
      coefficient := signed negative
        (Nat.ofDigitChars 10 (whole ++ fraction) 0)
      scale := fraction.length }
  else none

def compareDecimals
    (left right : Text) : Option Ordering := do
  let l ← decimalParts left
  let r ← decimalParts right
  let scale := max l.scale r.scale
  some (compare (l.coefficient * 10 ^ (scale - l.scale))
    (r.coefficient * 10 ^ (scale - r.scale)))

/- `BigInt(value)` of a text that the pattern admits. -/
def bigInt (value : Text) : Int :=
  signed (readSign value).1
    (Nat.ofDigitChars 10 (readSign value).2 0)

example :
    compareDecimals "+1.50".toList " 1.5 ".toList = some .eq ∧
      compareDecimals ".5".toList "-3".toList = some .gt ∧
      compareDecimals "1E-7".toList "0".toList = none := by
  decide +kernel

------------------------------------------------------------
-- Attributes
------------------------------------------------------------

/- A field of the form: a text, or whether it is checked. -/
inductive DraftValue where
| text (value : Text)
| flag (value : Bool)
deriving DecidableEq

abbrev AttributeDraft := Dictionary Text DraftValue

/-
  `object[key] = value`, which is ignored for the key that
  names the prototype.
-/
def assign
    {V : Type}
    (key : Text)
    (value : V)
    (object : Dictionary Text V) : Dictionary Text V :=
  if key = "__proto__".toList then object
  else object.set key value

section Attributes

variable (browser : Browser)

def metadataString
    (attr : CategoryAttributeOut)
    (key : String) : Option Text :=
  match attr.metadata? key with
  | some (.number n) => some (browser.numberText n)
  | some (.str value) => some value
  | _ => none

/- `attribute.unit ? " " + attribute.unit : ""` -/
def unitSuffix (attr : CategoryAttributeOut) : Text :=
  match attr.unit with
  | none | some [] => []
  | some unit => ' ' :: unit

/- The message of a bound that the text is beyond. -/
def boundError
    (attr : CategoryAttributeOut)
    (rawValue : Text)
    (key message : String)
    (beyond : Ordering) : Option Text :=
  match metadataString browser attr key with
  | none => none
  | some bound =>
      if compareDecimals rawValue bound = some beyond then
        some (message.toList ++ bound ++ unitSuffix attr)
      else none

def validateBounds
    (attr : CategoryAttributeOut)
    (rawValue : Text) : Option Text :=
  boundError browser attr rawValue "min"
      "Минимальное значение: " .lt <|>
    boundError browser attr rawValue "max"
      "Максимальное значение: " .gt

/- `typeof value === "boolean" ? value : String(value)` -/
def draftValue : CatalogScalar → DraftValue
| .str value => .text value
| .number n => .text (browser.numberText n)
| .bool value => .flag value

def draftAttributesFromItem
    (item : CatalogItem) : AttributeDraft :=
  item.attributes.mapValues (draftValue browser)

/- `value.length`, in code units. -/
def codeUnits : Text → Nat
| [] => 0
| c :: cs => (if c.toNat < 0x10000 then 1 else 2) + codeUnits cs

/- `text.trim().replace(/\s+/g, " ")` -/
def collapsed (value : Text) : Text :=
  Words.collapse isBlank ' ' false (trim value)

/- What becomes of a field. -/
inductive Entry where
| nothing
| value (v : CatalogScalar)
| error (message : Text)
deriving DecidableEq

def required (attr : CategoryAttributeOut) (message : String) :
    Entry :=
  if attr.required then .error message.toList else .nothing

def textEntry
    (attr : CategoryAttributeOut)
    (text : Text) : Entry :=
  let normalizedText :=
    if attr.metadata? "preserve_whitespace" = some (.bool true)
    then trim text
    else collapsed text
  match attr.metadata? "max_length" with
  | some (.number maxLength) =>
      if maxLength < codeUnits normalizedText then
        .error ("Не более ".toList ++
          browser.numberText maxLength ++ " символов".toList)
      else .value (.str normalizedText)
  | _ => .value (.str normalizedText)

def enumEntry
    (attr : CategoryAttributeOut)
    (trimmed : Text) : Entry :=
  if trimmed ∈ attr.allowedValues.getD [] then
    .value (.str trimmed)
  else .error "Выберите значение из списка".toList

def integerEntry
    (attr : CategoryAttributeOut)
    (trimmed : Text) : Entry :=
  if isIntegerText trimmed then
    let integer := bigInt trimmed
    if integer < minSafeInteger ∨ maxSafeInteger < integer then
      .error
        "Число слишком велико для безопасной отправки".toList
    else
      match validateBounds browser attr trimmed with
      | some message => .error message
      | none => .value (.number integer)
  else .error "Введите целое число".toList

def decimalEntry
    (attr : CategoryAttributeOut)
    (trimmed : Text) : Entry :=
  if isDecimalText trimmed then
    match validateBounds browser attr trimmed with
    | some message => .error message
    | none => .value (.str trimmed)
  else
    .error "Введите точное десятичное число через точку".toList

/- The text of a field that is none of a checked one. -/
def fieldText : Option DraftValue → Text
| some (.text value) => value
| _ => []

/- The body of the loop over the definitions. -/
def attributeEntry
    (attr : CategoryAttributeOut)
    (raw : Option DraftValue) : Entry :=
  if attr.dataType = .boolean then
    match raw with
    | some (.flag value) => .value (.bool value)
    | _ => required attr "Укажите значение"
  else
    let text := fieldText raw
    let trimmed := trim text
    if trimmed = [] then required attr "Обязательное поле"
    else
      match attr.dataType with
      | .text => textEntry browser attr text
      | .enum => enumEntry attr trimmed
      | .integer => integerEntry browser attr trimmed
      | .decimal => decimalEntry browser attr trimmed
      | .boolean => .nothing

structure AttributeValidation where
  values : Dictionary Text CatalogScalar
  errors : Dictionary Text Text

def AttributeValidation.add
    (key : Text)
    (result : AttributeValidation) :
    Entry → AttributeValidation
| .nothing => result
| .value v =>
    { result with values := assign key v result.values }
| .error message =>
    { result with errors := assign key message result.errors }

def validateDraftAttributes
    (definitions : List CategoryAttributeOut)
    (draft : AttributeDraft) : AttributeValidation :=
  definitions.foldl (fun result attr =>
    result.add attr.key
      (attributeEntry browser attr (draft.get? attr.key)))
    ⟨.empty, .empty⟩

------------------------------------------------------------
-- Pages
------------------------------------------------------------

/- The fields of the page; no manufacturer is an empty one. -/
structure Draft where
  category : Text
  manufacturer : Option Uuid
  model : Text
  name : Text
  attributes : AttributeDraft

def itemDraft (item : CatalogItem) : Draft where
  category := item.categoryKey
  manufacturer := item.manufacturerId
  model := item.model.getD []
  name := item.name
  attributes := draftAttributesFromItem browser item

/- `requires_manufacturer_model` of the selected category. -/
def identityRequired
    (categories : List Category)
    (categoryKey : Text) : Bool :=
  match Table.find Category.key categoryKey categories with
  | some category => category.key ∈ manufacturedLeaves
  | none => false

/- The attributes that the page has fields for. -/
def formDefinitions
    (attributes : List CategoryAttributeOut) :
    List CategoryAttributeOut :=
  attributes.filter (fun attr => attr.key ≠ "reach_m".toList)

structure ItemWritePayload where
  categoryKey : Text
  manufacturerId : Option Uuid
  model : Option Text
  name : Text
  attributes : Dictionary Text CatalogScalar

/- `value || null` -/
def orNull (value : Text) : Option Text :=
  if value = [] then none else some value

/- An error on a condition. -/
def addError
    (condition : Bool)
    (key message : String)
    (errors : Dictionary Text Text) : Dictionary Text Text :=
  if condition then errors.set key.toList message.toList
  else errors

/- The errors that `onSubmit` shows. -/
def submitErrors
    (definitions : List CategoryAttributeOut)
    (needsIdentity : Bool)
    (draft : Draft) : Dictionary Text Text :=
  let next := (validateDraftAttributes browser definitions
    draft.attributes).errors
  let next := addError (draft.category = []) "category"
    "Выберите категорию" next
  let next := addError (trim draft.name = []) "name"
    "Укажите название" next
  addError (needsIdentity && (draft.manufacturer = none ||
      trim draft.model = [])) "identity"
    "Укажите производителя и модель" next

/- `onSubmit`, once the page has loaded what it needs. -/
def submit
    (definitions : List CategoryAttributeOut)
    (needsIdentity : Bool)
    (draft : Draft) : Option ItemWritePayload :=
  if (submitErrors browser definitions needsIdentity
      draft).entries ≠ [] then none
  else
    some {
      categoryKey := draft.category
      manufacturerId :=
        if needsIdentity then draft.manufacturer else none
      model :=
        if needsIdentity then orNull (trim draft.model)
        else none
      name := trim draft.name
      attributes := (validateDraftAttributes browser definitions
        draft.attributes).values }

end Attributes

/- The body of the request that changes an item. -/
def ItemWritePayload.patch
    (payload : ItemWritePayload) : Catalog.ItemPatch where
  categoryKey := none
  manufacturerId := some payload.manufacturerId
  name := some (some payload.name)
  model := some payload.model
  attributes := some (some
    (payload.attributes.mapValues CatalogScalar.raw))

end ItemForm
