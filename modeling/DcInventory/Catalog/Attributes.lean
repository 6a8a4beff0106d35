import DcInventory.Catalog.Normalization
import DcInventory.Library.Dictionary
import DcInventory.Schema.Database

/-
  This file defines how the values of attributes are
  validated against the definitions of a category.

  Key definitions include:
    * `RawValue`
    * `PreparedAttributeValue`
    * `prepareAttributeValue`
    * `validateAttributeValues`
    * `Numeric.ofDecimal?`
-/

def maxDecimalPrecision : Nat := 30

def maxDecimalScale : Nat := 10

def maxDecimalIntegralDigits : Nat :=
  maxDecimalPrecision - maxDecimalScale

def minSafeInteger : Int := -(2 ^ 53 - 1)

def maxSafeInteger : Int := 2 ^ 53 - 1

------------------------------------------------------------
-- Values
------------------------------------------------------------

/-
  A value as it is supplied; a float is given by its text and
  by its value, if that is finite.
-/
inductive RawValue where
| str (value : Text)
| int (value : Int)
| decimal (value : PyDecimal)
| float (text : Text) (value : Option ℚ)
| bool (value : Bool)
deriving DecidableEq

/- The value of one attribute in the column of its type. -/
structure PreparedAttributeValue where
  attr : CategoryAttribute
  textValue : Option Text
  integerValue : Option Int
  decimalValue : Option Decimal
  booleanValue : Option Bool
  enumValue : Option Text
deriving DecidableEq

namespace PreparedAttributeValue

/- No column is set. -/
def blank (attr : CategoryAttribute) :
    PreparedAttributeValue :=
  ⟨attr, none, none, none, none, none⟩

/- The first column that is set. -/
def value? (p : PreparedAttributeValue) :
    Option AttributeValue :=
  p.textValue.map .text <|>
    p.integerValue.map .integer <|>
    p.decimalValue.map .decimal <|>
    p.booleanValue.map .boolean <|>
    p.enumValue.map .text

end PreparedAttributeValue

------------------------------------------------------------
-- Errors
------------------------------------------------------------

namespace CatalogError

def validation (code message : String) : Error :=
  .catalog .validation code.toList message.toList

def schema (message : String) : Error :=
  .catalog .schema "catalog_schema_invalid".toList
    message.toList

def notFound (message : String) : Error :=
  .catalog .notFound "catalog_not_found".toList
    message.toList

def conflict (message : String) : Error :=
  .catalog .conflict "catalog_conflict".toList message.toList

end CatalogError

namespace CategoryAttribute

/- `attribute {key} ...` -/
def invalid
    (attr : CategoryAttribute)
    (code message : String) : Error :=
  .catalog .validation code.toList
    ("attribute ".toList ++ attr.key ++ message.toList)

def missing (attr : CategoryAttribute) : Error :=
  .catalog .validation "required_attribute_missing".toList
    ("required attribute ".toList ++ attr.key ++
      " must not be blank".toList)

def misconfigured
    (attr : CategoryAttribute)
    (message : String) : Error :=
  .catalog .schema "catalog_schema_invalid".toList
    ("attribute ".toList ++ attr.key ++ message.toList)

/- Definitions are listed by their order and their keys. -/
def before (a b : CategoryAttribute) : Prop :=
  a.sortOrder < b.sortOrder ∨
    (a.sortOrder = b.sortOrder ∧ Text.le a.key b.key = true)

instance : DecidableRel before := fun a b =>
  inferInstanceAs (Decidable (a.sortOrder < b.sortOrder ∨
    (a.sortOrder = b.sortOrder ∧ Text.le a.key b.key = true)))

/- `metadata.get(key)` -/
def metadata?
    (attr : CategoryAttribute)
    (key : String) : Option MetadataValue :=
  (Table.find Prod.fst key.toList
    (attr.validationMetadata.getD [])).map Prod.snd

end CategoryAttribute

------------------------------------------------------------
-- Numbers
------------------------------------------------------------

/- `str(value)`, which fails for more than 4300 digits. -/
def intStr (n : Int) : Except Error Text :=
  if 4300 < (Nat.toDigits 10 n.natAbs).length then
    .error (.valueError ("Exceeds the limit (4300 digits) " ++
      "for integer string conversion; use " ++
      "sys.set_int_max_str_digits() to increase the limit"))
  else .ok (Json.dumpInt n)

/- `str(value)` -/
def RawValue.str? : RawValue → Except ReachError Text
| .str value => .ok value
| .int n =>
    match intStr n with
    | .ok text => .ok text
    | .error (.valueError message) =>
        .error (.value message.toList)
    | .error _ => .ok []
| .decimal (.finite d) => .ok d.str
| .decimal .special => .ok "NaN".toList
| .float text _ => .ok text
| .bool true => .ok "True".toList
| .bool false => .ok "False".toList

/- Whether a value equals an integer. -/
def RawValue.equals (n : Int) : RawValue → Bool
| .int m => m = n
| .decimal (.finite d) => d.value = n
| .float _ (some q) => q = n
| .bool b => (if b then 1 else 0) = n
| _ => false

/- A stored value as it is supplied again. -/
def AttributeValue.raw : AttributeValue → RawValue
| .text value => .str value
| .integer value => .int value
| .decimal value => .decimal (.finite value)
| .boolean value => .bool value

section Validation

variable (U : Unicode)

/- `Decimal(str(raw))` of a metadata value. -/
def metadataDecimal :
    MetadataValue → Except Error (Option PyDecimal)
| .str value => .ok (decimalOfText U value)
| .float text => .ok (decimalOfText U text)
| .int n => do
    let _ ← intStr n
    .ok (some (.finite (Decimal.ofInt n)))
| _ => .ok none

def numericMetadata
    (attr : CategoryAttribute)
    (key : String) : Except Error (Option Decimal) :=
  match attr.metadata? key with
  | none => .ok none
  | some raw => do
      match ← metadataDecimal U raw with
      | none =>
          .error (attr.misconfigured
            (" has invalid " ++ key ++ " metadata"))
      | some .special =>
          .error (attr.misconfigured
            (" has non-finite " ++ key ++ " metadata"))
      | some (.finite d) => .ok (some d)

def validateMinimum
    (attr : CategoryAttribute)
    (value : Decimal) : Option Decimal → Except Error Unit
| none => .ok ()
| some minimum =>
    if value.value < minimum.value then
      .error (attr.invalid "attribute_below_minimum"
        (" must be at least " ++ String.ofList minimum.str))
    else .ok ()

def validateMaximum
    (attr : CategoryAttribute)
    (value : Decimal) : Option Decimal → Except Error Unit
| none => .ok ()
| some maximum =>
    if maximum.value < value.value then
      .error (attr.invalid "attribute_above_maximum"
        (" must be at most " ++ String.ofList maximum.str))
    else .ok ()

def validateNumericBounds
    (attr : CategoryAttribute)
    (value : Decimal) : Except Error Unit := do
  let minimum ← numericMetadata U attr "min"
  let maximum ← numericMetadata U attr "max"
  let _ ← validateMinimum attr value minimum
  validateMaximum attr value maximum

/- The digits after the point. -/
def Decimal.fractionalDigits (value : Decimal) : Int :=
  max (-value.exponent) 0

/- The digits before the point, none for zero. -/
def Decimal.integerDigits (value : Decimal) : Int :=
  if value.coefficient = 0 then 0
  else max (value.digitCount + value.exponent) 0

def validateDecimalStorage
    (attr : CategoryAttribute)
    (value : Decimal) : Except Error Unit :=
  if (maxDecimalScale : Int) < value.fractionalDigits then
    .error (attr.invalid "decimal_scale_exceeded"
      " supports at most 10 decimal places")
  else if (maxDecimalIntegralDigits : Int) <
      value.integerDigits then
    .error (attr.invalid "decimal_precision_exceeded"
      " supports at most 20 integral digits")
  else .ok ()

------------------------------------------------------------
-- One Value
------------------------------------------------------------

/- A text is required or left out where it is blank. -/
def blankValue
    (attr : CategoryAttribute) :
    Except Error (Option PreparedAttributeValue) :=
  if attr.required then .error attr.missing
  else .ok none

/- The text of a value with the white space it may have. -/
def preservedText
    (attr : CategoryAttribute)
    (raw : Text) : Except Error Text :=
  match attr.metadata? "preserve_whitespace" with
  | none | some (.bool false) => .ok (Text.normalize raw)
  | some (.bool true) => .ok (Text.strip raw)
  | some _ =>
      .error (attr.misconfigured
        " has invalid preserve_whitespace metadata")

def validateTextLength
    (attr : CategoryAttribute)
    (value : Text) : Except Error Unit :=
  match attr.metadata? "max_length" with
  | none | some .null => .ok ()
  | some (.int n) =>
      if n < value.length then
        .error (.catalog .validation
          "attribute_too_long".toList
          ("attribute ".toList ++ attr.key ++
            " exceeds ".toList ++ Json.dumpInt n ++
            " characters".toList))
      else .ok ()
  | some _ =>
      .error (attr.misconfigured
        " has invalid max_length metadata")

def prepareText
    (attr : CategoryAttribute) :
    RawValue → Except Error (Option PreparedAttributeValue)
| .str raw => do
    let value ← preservedText attr raw
    if value = [] then blankValue attr
    else
      validateTextLength attr value
      .ok (some { PreparedAttributeValue.blank attr with
        textValue := some value })
| _ =>
    .error (attr.invalid "attribute_type_mismatch"
      " requires TEXT")

def prepareInteger
    (attr : CategoryAttribute) :
    RawValue → Except Error (Option PreparedAttributeValue)
| .int value =>
    if minSafeInteger ≤ value ∧ value ≤ maxSafeInteger then do
      validateNumericBounds U attr (Decimal.ofInt value)
      .ok (some { PreparedAttributeValue.blank attr with
        integerValue := some value })
    else
      .error (attr.invalid "integer_out_of_range"
        " is outside the exact JSON integer range")
| _ =>
    .error (attr.invalid "attribute_type_mismatch"
      " requires INTEGER")

/- A number that is stored as a decimal. -/
def prepareFinite
    (attr : CategoryAttribute) :
    Option PyDecimal →
    Except Error (Option PreparedAttributeValue)
| none =>
    .error (attr.invalid "attribute_type_mismatch"
      " requires DECIMAL")
| some .special =>
    .error (attr.invalid "attribute_type_mismatch"
      " requires a finite DECIMAL")
| some (.finite value) => do
    validateDecimalStorage attr value
    validateNumericBounds U attr value
    .ok (some { PreparedAttributeValue.blank attr with
      decimalValue := some value })

def prepareDecimal
    (attr : CategoryAttribute) :
    RawValue → Except Error (Option PreparedAttributeValue)
| .bool _ | .float _ _ =>
    .error (attr.invalid "attribute_type_mismatch"
      " requires an exact decimal string or integer")
| .str raw =>
    if Text.strip raw = [] then blankValue attr
    else
      prepareFinite U attr
        (decimalOfText U (Text.strip raw))
| .int n => do
    let _ ← intStr n
    prepareFinite U attr
      (some (.finite (Decimal.ofInt n)))
| .decimal d => prepareFinite U attr (some d)

def prepareBoolean
    (attr : CategoryAttribute) :
    RawValue → Except Error (Option PreparedAttributeValue)
| .bool value =>
    .ok (some { PreparedAttributeValue.blank attr with
      booleanValue := some value })
| _ =>
    .error (attr.invalid "attribute_type_mismatch"
      " requires BOOLEAN")

/- The texts that an ENUM may be, if it has some. -/
def CategoryAttribute.allowedTexts?
    (attr : CategoryAttribute) : Option (List Text) :=
  match attr.allowedValues with
  | none | some [] => none
  | some values => values.mapM (fun
      | .str value => some value
      | _ => none)

def prepareEnum
    (attr : CategoryAttribute) :
    RawValue → Except Error (Option PreparedAttributeValue)
| .str raw =>
    let value := Text.normalize raw
    if value = [] then blankValue attr
    else
      match attr.allowedTexts? with
      | none =>
          .error (attr.misconfigured
            " has invalid ENUM allowed_values")
      | some allowed =>
          if value ∈ allowed then
            .ok (some
              { PreparedAttributeValue.blank attr with
                enumValue := some value })
          else
            .error (attr.invalid "attribute_enum_invalid"
              " must be one of its allowed values")
| _ =>
    .error (attr.invalid "attribute_type_mismatch"
      " requires ENUM")

/- `_prepare_attribute_value` -/
def prepareAttributeValue
    (attr : CategoryAttribute)
    (raw : RawValue) :
    Except Error (Option PreparedAttributeValue) :=
  match attr.dataType with
  | .text => prepareText attr raw
  | .integer => prepareInteger U attr raw
  | .decimal => prepareDecimal U attr raw
  | .boolean => prepareBoolean attr raw
  | .enum => prepareEnum attr raw

------------------------------------------------------------
-- All Values
------------------------------------------------------------

/- `", ".join(keys)` -/
def commaSeparated : List Text → Text
| [] => []
| [key] => key
| key :: keys => key ++ ", ".toList ++ commaSeparated keys

/- Keys without repetitions, in their order. -/
def sortedKeys (keys : List Text) : List Text :=
  keys.dedup.insertionSort (fun a b => Text.le a b = true)

/- The last definition with a key. -/
def definitionOf
    (definitions : List CategoryAttribute)
    (key : Text) : Option CategoryAttribute :=
  Table.find CategoryAttribute.key key definitions.reverse

/- Prepare the supplied values one after the other. -/
def prepareAll
    (definitions : List CategoryAttribute) :
    List (Text × RawValue) →
    Except Error (List PreparedAttributeValue)
| [] => .ok []
| (key, raw) :: rest =>
    match definitionOf definitions key with
    | none => .error (.runtime "KeyError")
    | some attr => do
        let value ← prepareAttributeValue U attr raw
        let values ← prepareAll definitions rest
        .ok (value.toList ++ values)

def validateAttributeValues
    (categoryId : Uuid)
    (definitions : List CategoryAttribute)
    (supplied : Dictionary Text RawValue) :
    Except Error (List PreparedAttributeValue) :=
  match definitions.find? (fun a =>
    a.categoryId ≠ categoryId) with
  | some attr =>
      .error (attr.invalid "cross_category_attribute"
        " belongs to another category")
  | none =>
      let unknown := supplied.keys.filter (fun key =>
        !definitions.any (fun a => a.key = key))
      let missing := (definitions.filter (fun a =>
        a.required && !decide (a.key ∈ supplied.keys))).map
          CategoryAttribute.key
      if unknown ≠ [] then
        .error (.catalog .validation
          "unknown_attribute".toList
          ("unknown category attributes: ".toList ++
            commaSeparated (sortedKeys unknown)))
      else if missing ≠ [] then
        .error (.catalog .validation
          "required_attribute_missing".toList
          ("missing required attributes: ".toList ++
            commaSeparated (missing.insertionSort
              (fun a b => Text.le a b = true))))
      else prepareAll U definitions supplied.entries

end Validation

------------------------------------------------------------
-- Storage
------------------------------------------------------------

namespace Numeric

/- The value of a stored number. -/
def value (n : Numeric) : ℚ :=
  n.unscaled / 10 ^ maxDecimalScale

/- A stored number as it is read back. -/
def toDecimal (n : Numeric) : Decimal :=
  Decimal.scaled n.unscaled maxDecimalScale

/- `m / 10 ^ k`, rounded half away from zero. -/
def roundHalfUp (m k : Nat) : Nat :=
  (2 * m + 10 ^ k) / (2 * 10 ^ k)

/- The digits that are stored for a decimal. -/
def unscaledOf (d : Decimal) : Int :=
  let n :=
    if -(maxDecimalScale : Int) ≤ d.exponent then
      d.coefficient *
        10 ^ (d.exponent + maxDecimalScale).toNat
    else
      roundHalfUp d.coefficient
        (-(d.exponent + maxDecimalScale)).toNat
  if d.negative then -n else n

/- The stored number, nothing if it overflows its column. -/
def ofDecimal? (d : Decimal) : Option Numeric :=
  if h : (unscaledOf d).natAbs < 10 ^ 30 then
    some ⟨unscaledOf d, h⟩
  else none

end Numeric
