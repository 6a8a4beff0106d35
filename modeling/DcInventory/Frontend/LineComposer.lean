import DcInventory.Frontend.ItemForm
import DcInventory.Procurement.Schemas

/-
  This file defines how a user composes the lines of a
  request: the events of the composer while it proposes
  items, and the lines that it adds.

  Key definitions include:
    * `LineComposer.Composer`
    * `LineComposer.addedLine`
    * `LineComposer.step`
    * `LineComposer.Run`
-/

namespace LineComposer

open CatalogView (trim)
open ItemForm (Browser CatalogScalar CategoryAttributeOut
  DraftValue AttributeDraft getCategory formDefinitions
  validateDraftAttributes assign orNull)

------------------------------------------------------------
-- Lines
------------------------------------------------------------

structure ProposedLineInput where
  categoryKey : Text
  manufacturerId : Option Uuid
  name : Text
  model : Option Text
  attributes : Dictionary Text CatalogScalar
  quantity : Nat

inductive ProcurementLineInput where
| existing
    (itemId : Uuid)
    (displayName : Option Text)
    (quantity : Nat)
| proposed (line : ProposedLineInput)

/- `MAX_PROCUREMENT_LINES` -/
def maxProcurementLines : Nat := 500

/- A positive number that is exact in the browser. -/
def quantity (value : Text) : Option Nat :=
  if value ≠ [] ∧ value.all Char.isDigit then
    let parsed := Nat.ofDigitChars 10 value 0
    if (parsed : Int) ≤ maxSafeInteger ∧ 0 < parsed then
      some parsed
    else none
  else none

/- A scalar of the line as it is received. -/
def scalar : CatalogScalar → Procurement.ProcurementScalar
| .str value => .str value
| .number value => .int value
| .bool value => .bool value

/- The line as it is received, if the schema accepts it. -/
def ProposedLineInput.received
    (line : ProposedLineInput) :
    Option Procurement.ProposedItemLineCreate :=
  if h : (1 ≤ line.categoryKey.length ∧
      line.categoryKey.length ≤ 64) ∧
      (1 ≤ line.name.length ∧ line.name.length ≤ 255) ∧
      (∀ m ∈ line.model, m.length ≤ 255) ∧
      0 < line.quantity ∧
        line.quantity ≤ maxQuantity then
    some {
      categoryKey := line.categoryKey
      manufacturerId := line.manufacturerId
      name := line.name
      model := line.model
      attributes := line.attributes.mapValues scalar
      quantity := line.quantity
      categoryKey_nonempty := h.1.1
      categoryKey_length := h.1.2
      name_nonempty := h.2.1.1
      name_length := h.2.1.2
      model_length := fun m hm => h.2.2.1 m hm
      quantity_pos := h.2.2.2.1
      quantity_le := h.2.2.2.2 }
  else none

------------------------------------------------------------
-- States
------------------------------------------------------------

/- What the composer holds; no category is an empty key. -/
structure Composer where
  lines : List ProcurementLineInput
  qty : Text
  category : Text
  manufacturerId : Option Uuid
  manufacturerSearch : Text
  name : Text
  model : Text
  attributes : AttributeDraft
  error : Text

/- The composer as it is opened for the lines of a request. -/
def Composer.initial
    (lines : List ProcurementLineInput) : Composer where
  lines := lines
  qty := "1".toList
  category := []
  manufacturerId := none
  manufacturerSearch := []
  name := []
  model := []
  attributes := .empty
  error := []

/- The categories without others below them. -/
def leaves (categories : List Category) : List Category :=
  categories.filter (fun entry =>
    categories.all (fun other =>
      decide (other.parentId ≠ some entry.id)))

def identityRequired (db : Db) (s : Composer) : Bool :=
  ItemForm.identityRequired (leaves db.categories) s.category

/- The fields of the category, once they are loaded. -/
def definitions
    (U : Unicode)
    (browser : Browser)
    (db : Db)
    (loaded : Bool)
    (s : Composer) : List CategoryAttributeOut :=
  if loaded then
    formDefinitions
      ((getCategory U browser db s.category).getD [])
  else []

------------------------------------------------------------
-- Adding
------------------------------------------------------------

section Adding

variable (U : Unicode)
variable (browser : Browser)
variable (db : Db)

/- The line that is added, or the error that is shown. -/
def addedLine
    (loaded : Bool)
    (s : Composer) : Except Text ProposedLineInput :=
  if maxProcurementLines ≤ s.lines.length then
    .error
      "В одной заявке может быть не более 500 позиций.".toList
  else
    match quantity s.qty with
    | none =>
        .error ("Количество должно быть " ++
          "положительным целым числом.").toList
    | some amount =>
        let validation := validateDraftAttributes browser
          (definitions U browser db loaded s) s.attributes
        if s.category = [] ∨ trim s.name = [] ∨
            validation.errors.entries ≠ [] then
          .error ("Заполните категорию, название и " ++
            "обязательные характеристики.").toList
        else if identityRequired db s ∧
            (s.manufacturerId = none ∨ trim s.model = []) then
          .error ("Для этой категории нужны " ++
            "производитель и модель.").toList
        else .ok {
          categoryKey := s.category
          manufacturerId := s.manufacturerId
          name := trim s.name
          model := orNull (trim s.model)
          attributes := validation.values
          quantity := amount }

def Composer.add
    (loaded : Bool)
    (s : Composer) : Composer :=
  match addedLine U browser db loaded s with
  | .error message => { s with error := message }
  | .ok line =>
      { s with
        lines := s.lines ++ [.proposed line]
        name := []
        model := []
        attributes := .empty
        qty := "1".toList
        error := [] }

------------------------------------------------------------
-- Events
------------------------------------------------------------

/- What the user does while items are proposed. -/
inductive Event where
| category (key : Text)
| searchManufacturer (value : Text)
| manufacturer (id : Option Uuid)
| name (value : Text)
| model (value : Text)
| setAttribute (key : Text) (value : Option DraftValue)
| quantity (value : Text)
| remove (index : Nat)
| add (loaded : Bool)

/- Whether the control of an event is there. -/
def Offered (s : Composer) : Event → Prop
| .category key =>
    key = [] ∨ ∃ entry ∈ leaves db.categories, entry.key = key
| .searchManufacturer _ | .model _ =>
    identityRequired db s = true
| .manufacturer id =>
    identityRequired db s = true ∧ ∀ m ∈ id,
      ∃ entry ∈ db.manufacturers, entry.id = m
| .setAttribute key _ =>
    ∃ a ∈ definitions U browser db true s, a.key = key
| .add _ => s.lines.length < maxProcurementLines
| .name _ | .quantity _ | .remove _ => True

instance (s : Composer) :
    (e : Event) → Decidable (Offered U browser db s e)
| .category _ => inferInstanceAs (Decidable (_ ∨ _))
| .searchManufacturer _ | .model _ =>
    inferInstanceAs (Decidable (_ = _))
| .manufacturer _ => inferInstanceAs (Decidable (_ ∧ _))
| .setAttribute _ _ =>
    inferInstanceAs (Decidable (∃ _ ∈ _, _ = _))
| .add _ => inferInstanceAs (Decidable (_ < _))
| .name _ | .quantity _ | .remove _ =>
    inferInstanceAs (Decidable True)

def step (s : Composer) : Event → Composer
| .category key =>
    { s with
      category := key
      manufacturerId := none
      manufacturerSearch := []
      attributes := .empty }
| .searchManufacturer value =>
    { s with
      manufacturerSearch := value
      manufacturerId := none }
| .manufacturer id => { s with manufacturerId := id }
| .name value => { s with name := value }
| .model value => { s with model := value }
| .setAttribute key none =>
    { s with attributes := s.attributes.erase key }
| .setAttribute key (some value) =>
    { s with attributes := assign key value s.attributes }
| .quantity value => { s with qty := value }
| .remove index => { s with lines := s.lines.eraseIdx index }
| .add loaded => s.add U browser db loaded

/-
  A run of the composer: the states in which the events
  happened, with the events, and the state after them.
-/
inductive Run :
    List (Composer × Event) → Composer → Prop where
| start (lines : List ProcurementLineInput) :
    Run [] (Composer.initial lines)
| event {trace s}
    (hBefore : Run trace s)
    (e : Event)
    (hOffered : Offered U browser db s e) :
    Run (trace ++ [(s, e)]) (step U browser db s e)

end Adding

end LineComposer
