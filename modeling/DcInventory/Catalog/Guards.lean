import DcInventory.Catalog.Attributes

/-
  This file defines how the database checks the values of an
  item's attributes against the definitions of its category.

  Key definitions include:
    * `itemAttributeRow`
    * `validateItemAttributeValueDataType`
    * `enforceItemRequiredAttributes`
-/

/- A value as it is stored, unless a number overflows. -/
def itemAttributeRow
    (itemId categoryId : Uuid)
    (value : PreparedAttributeValue) :
    Option ItemAttributeValue :=
  let row (n : Option Numeric) : ItemAttributeValue := {
    itemId := itemId
    categoryAttributeId := value.attr.id
    categoryId := categoryId
    textValue := value.textValue
    integerValue := value.integerValue
    decimalValue := n
    booleanValue := value.booleanValue
    enumValue := value.enumValue }
  match value.decimalValue with
  | none => some (row none)
  | some d => (Numeric.ofDecimal? d).map (fun n => row (some n))

/- `allowed_values ? value`; a missing list allows it. -/
def CategoryAttribute.allows
    (attr : CategoryAttribute) (value : Text) : Bool :=
  match attr.allowedValues with
  | none => true
  | some values => values.contains (.str value)

/- Whether the trigger accepts the row. -/
def validateItemAttributeValueDataType
    (attrs : List CategoryAttribute)
    (row : ItemAttributeValue) : Bool :=
  match attrs.find? (fun a => a.id = row.categoryAttributeId ∧
    a.categoryId = row.categoryId) with
  | none => true
  | some a =>
      match a.dataType with
      | .text => row.textValue.isSome
      | .integer => row.integerValue.isSome
      | .decimal => row.decimalValue.isSome
      | .boolean => row.booleanValue.isSome
      | .enum => row.enumValue.any a.allows

/- Whether the trigger accepts an item of the category. -/
def enforceItemRequiredAttributes
    (attrs : List CategoryAttribute)
    (rows : List ItemAttributeValue)
    (itemId categoryId : Uuid) : Bool :=
  attrs.all (fun a =>
    !(decide (a.categoryId = categoryId) && a.required) ||
      rows.any (fun row => row.itemId = itemId ∧
        row.categoryAttributeId = a.id))

/- The columns of a row, one of which is set. -/
def ItemAttributeValue.exactlyOneTypedValue
    (row : ItemAttributeValue) : Bool :=
  row.textValue.toList.length +
    row.integerValue.toList.length +
    row.decimalValue.toList.length +
    row.booleanValue.toList.length +
    row.enumValue.toList.length = 1
