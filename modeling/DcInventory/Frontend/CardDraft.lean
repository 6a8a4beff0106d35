import DcInventory.Frontend.ItemForm
import DcInventory.Procurement.Lines

/-
  This file defines what the form for an item is filled with
  when it is opened for a line of a request, and as what the
  server receives the item that the form sends.

  Key definitions include:
    * `Uuid.ofText?`
    * `ItemForm.procurementDraft`
    * `ItemForm.ItemWritePayload.create`

  Key theorems include:
    * `Uuid.ofText?_str`
    * `ItemForm.procurementDraft_displaySnapshot`
-/

------------------------------------------------------------
-- Identifiers
------------------------------------------------------------

namespace Uuid

/- The value of a hexadecimal digit. -/
def hexDigit? (c : Char) : Option Nat :=
  if c.isDigit then some (c.toNat - 48)
  else if 97 ≤ c.toNat ∧ c.toNat ≤ 102 then
    some (c.toNat - 87)
  else if 65 ≤ c.toNat ∧ c.toNat ≤ 70 then
    some (c.toNat - 55)
  else none

/- The number whose last digits are these. -/
def readHex : Nat → Text → Option Nat
| n, [] => some n
| n, c :: cs =>
    (hexDigit? c).bind (fun d => readHex (16 * n + d) cs)

/- The identifier of 32 digits, with or without hyphens. -/
def ofText? (v : Text) : Option Uuid :=
  let digits := v.filter (fun c => c ≠ '-')
  if digits.length = 32 then
    (readHex 0 digits).map (fun n => ⟨BitVec.ofNat 128 n⟩)
  else none

theorem readHex_append
    (n : Nat)
    (v w : Text) :
    readHex n (v ++ w) =
      (readHex n v).bind (fun m => readHex m w) := by
  induction v generalizing n with
  | nil => rfl
  | cons c cs ih =>
      rw [List.cons_append, readHex, readHex]
      cases hexDigit? c with
      | none => rfl
      | some d => exact ih _

private theorem hexDigit?_digitChar :
    ∀ d < 16, hexDigit? (Nat.digitChar d) = some d := by
  decide

/- Digits are read as the number they are written for. -/
theorem readHex_hexDigits
    (width n : Nat) :
    readHex 0 (hexDigits width n) =
      some (n % 16 ^ width) := by
  induction width generalizing n with
  | zero =>
      rw [pow_zero, Nat.mod_one]
      rfl
  | succ width ih =>
      rw [hexDigits, readHex_append, ih, Option.bind_some,
        readHex, hexDigit?_digitChar _
          (Nat.mod_lt n (by decide)), Option.bind_some,
        readHex, pow_succ', Nat.mod_mul, Nat.add_comm]

private theorem digitChar_ne_hyphen :
    ∀ d < 16, Nat.digitChar d ≠ '-' := by
  decide

theorem hyphen_not_mem_hexDigits
    (width n : Nat) :
    '-' ∉ hexDigits width n := by
  induction width generalizing n with
  | zero => exact List.not_mem_nil
  | succ width ih =>
      rw [hexDigits, List.mem_append, not_or]
      refine ⟨ih _, ?_⟩
      rw [List.mem_singleton]
      exact (digitChar_ne_hyphen _
        (Nat.mod_lt n (by decide))).symm

/- Without its hyphens, a text is its digits. -/
theorem filter_str (id : Uuid) :
    id.str.filter (fun c => c ≠ '-') =
      hexDigits 32 id.bits.toNat := by
  have hKept : ∀ v : Text, (∀ c ∈ v, c ∈ hexDigits 32
      id.bits.toNat) → v.filter (fun c => c ≠ '-') = v := by
    intro v hv
    apply List.filter_eq_self.mpr
    intro c hc
    apply decide_eq_true
    rintro rfl
    exact hyphen_not_mem_hexDigits _ _ (hv _ hc)
  have hTake : ∀ m k : Nat, ∀ c ∈ ((hexDigits 32
      id.bits.toNat).drop m).take k,
        c ∈ hexDigits 32 id.bits.toNat :=
    fun m k c hc => List.mem_of_mem_drop (List.mem_of_mem_take hc)
  have hCut : ∀ (m k : Nat) (v : Text),
      (v.drop m).take k ++ v.drop (m + k) = v.drop m := by
    intro m k v
    rw [← List.drop_drop]
    exact List.take_append_drop k (v.drop m)
  have hHyphen : ∀ v : Text,
      ('-' :: v).filter (fun c => c ≠ '-') =
        v.filter (fun c => c ≠ '-') :=
    fun v => List.filter_cons_of_neg (by decide)
  unfold str
  simp only [List.filter_append, hHyphen]
  rw [hKept _ (hTake 8 4), hKept _ (hTake 12 4),
    hKept _ (hTake 16 4), hKept _ (fun c hc =>
      List.mem_of_mem_take hc), hKept _ (fun c hc =>
        List.mem_of_mem_drop hc), hCut 16 4, hCut 12 4,
    hCut 8 4, List.take_append_drop]

/- Identifiers are read from their texts. -/
theorem ofText?_str (id : Uuid) : ofText? id.str = some id := by
  unfold ofText?
  have hBound : id.bits.toNat < 16 ^ 32 := id.bits.isLt
  simp only [filter_str, hexDigits_length, if_true,
    readHex_hexDigits, Nat.mod_eq_of_lt hBound,
    Option.map_some, BitVec.ofNat_toNat, BitVec.setWidth_eq]

end Uuid

namespace ItemForm

open Procurement (jsonField displaySnapshot snapshotValue)

------------------------------------------------------------
-- Snapshots
------------------------------------------------------------

section Snapshots

variable (browser : Browser)

mutual

/- `String(value)` -/
def jsString : Json → Text
| .null => "null".toList
| .bool true => "true".toList
| .bool false => "false".toList
| .int n => browser.numberText n
| .str value => value
| .arr items => jsJoined items
| .obj _ => "[object Object]".toList

/- The items of an array with commas between them. -/
def jsJoined : JsonItems → Text
| .nil => []
| .cons .null .nil => []
| .cons item .nil => jsString item
| .cons .null rest => ',' :: jsJoined rest
| .cons item rest => jsString item ++ ',' :: jsJoined rest

end

/- `String(value ?? "")` -/
def stringOf : Option Json → Text
| none | some .null => []
| some value => jsString browser value

/- `typeof value === "string" ? value : ""` -/
def stringOnly : Option Json → Text
| some (.str value) => value
| _ => []

/- `Object.entries(value ?? {})` of an object. -/
def objectEntries : Option Json → List (Text × Json)
| some (.obj fields) => go fields
| _ => []
where
  go : JsonFields → List (Text × Json)
  | .nil => []
  | .cons key value rest => (key, value) :: go rest

/- `typeof value === "boolean" ? value : String(value)` -/
def jsonDraftValue : Json → DraftValue
| .bool value => .flag value
| value => .text (jsString browser value)

/- The draft of the form that is opened for a line. -/
def procurementDraft (snapshot : Json) : Draft where
  category :=
    stringOf browser (jsonField "category_key".toList snapshot)
  manufacturer := Uuid.ofText?
    (stringOnly (jsonField "manufacturer_id".toList snapshot))
  model := stringOnly (jsonField "model".toList snapshot)
  name := stringOf browser (jsonField "name".toList snapshot)
  attributes := Dictionary.ofList
    ((objectEntries
      (jsonField "attributes".toList snapshot)).map
        (fun e => (e.1, jsonDraftValue browser e.2)))

end Snapshots

/- The item of a request body, if the schema accepts it. -/
def ItemWritePayload.create
    (payload : ItemWritePayload) :
    Except Error Catalog.ItemCreate :=
  Catalog.ItemCreate.modelValidate payload.categoryKey
    payload.manufacturerId payload.name payload.model
    (payload.attributes.mapValues CatalogScalar.raw)

------------------------------------------------------------
-- Drafts Of Lines
------------------------------------------------------------

section Lines

variable {browser : Browser}
variable {category : Category}
variable {manufacturer : Option Manufacturer}
variable {name : Text}
variable {model : Option Text}
variable {attributes : Dictionary Text AttributeValue}

theorem objectEntries_ofFields
    (fields : List (Text × Json)) :
    objectEntries (some (.ofFields fields)) = fields := by
  change objectEntries.go (JsonFields.ofList fields) = fields
  induction fields with
  | nil => rfl
  | cons e es ih => exact congrArg (e :: ·) ih

/- The form shows a value of a line as that of an item. -/
theorem jsonDraftValue_snapshotValue (v : AttributeValue) :
    jsonDraftValue browser (snapshotValue v) =
      draftValue browser (scalarOf v) := by
  cases v <;> rfl

theorem stringOnly_textOrNull (v : Option Text) :
    stringOnly (some (Procurement.textOrNull v)) =
      v.getD [] := by
  cases v <;> rfl

theorem ofText?_ofUuid? (id : Option Uuid) :
    Uuid.ofText? (stringOnly (some (.ofUuid? id))) = id := by
  cases id with
  | none => rfl
  | some id => exact Uuid.ofText?_str id

/- The form is filled with what the line shows. -/
theorem procurementDraft_displaySnapshot :
    let draft := procurementDraft browser (displaySnapshot
      category manufacturer name model attributes)
    draft.category = category.key ∧
      draft.manufacturer =
        manufacturer.map Manufacturer.id ∧
      draft.model = model.getD [] ∧
      draft.name = name ∧
      ∀ key, draft.attributes.get? key =
        (attributes.get? key).map (fun v =>
          draftValue browser (scalarOf v)) := by
  refine ⟨rfl, ofText?_ofUuid? _, stringOnly_textOrNull _, rfl,
    ?_⟩
  intro key
  have hFields : objectEntries (jsonField "attributes".toList
      (displaySnapshot category manufacturer name model
        attributes)) =
      (attributes.mapValues snapshotValue).entries :=
    objectEntries_ofFields _
  have hGet : ((attributes.mapValues snapshotValue).mapValues
      (jsonDraftValue browser)).get? key =
      (attributes.get? key).map (fun v =>
        draftValue browser (scalarOf v)) := by
    rw [Dictionary.get?_mapValues, Dictionary.get?_mapValues,
      Option.map_map]
    congr 1
    exact funext jsonDraftValue_snapshotValue
  rw [← hGet]
  change (Dictionary.ofList (List.map _ (objectEntries
    (jsonField _ (displaySnapshot _ _ _ _ _))))).get? key = _
  rw [hFields]
  apply Option.ext
  intro w
  have hKeys := ((attributes.mapValues snapshotValue).mapValues
    (jsonDraftValue browser)).nodup
  exact (Dictionary.get?_ofList hKeys).trans
    Dictionary.mem_entries

end Lines

end ItemForm
