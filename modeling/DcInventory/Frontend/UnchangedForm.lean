import DcInventory.Catalog.Editing
import DcInventory.Catalog.ReachUnits
import DcInventory.Frontend.FormFields

/-
  This file proves when the form for an item can be saved as
  it was opened, and what the item then keeps.

  Key definitions include:
    * `ItemForm.SavedUnchanged`
    * `ItemForm.Reeditable`

  Key theorems include:
    * `ItemForm.Kept.saved`
    * `ItemForm.unchanged_form_is_saved_iff`
-/

namespace ItemForm

open CatalogView (trim)
open Catalog (manufacturedLeaves ItemCreate
  PreparedItemIdentity)

------------------------------------------------------------
-- Opened Forms
------------------------------------------------------------

section Opened

variable {env : Catalog.CatalogEnv}
variable {browser : Browser}
variable {s : Db}
variable {item : Item}
variable {category : Category}
variable {stored : Dictionary Text AttributeValue}
variable {definitions : List CategoryAttributeOut}

/- What the form for an item is opened with. -/
structure Opened
    (browser : Browser)
    (s : Db)
    (item : Item)
    (category : Category)
    (stored : Dictionary Text AttributeValue)
    (definitions : List CategoryAttributeOut) : Prop where
  inCategory : Table.find Category.id item.categoryId
    s.categories = some category
  loads : Catalog.loadAttributes s item.id = .ok stored
  returned : categoryDetail browser s category.key =
    some definitions

/- What the form sends when nothing was changed. -/
def submitted
    (browser : Browser)
    (s : Db)
    (item : Item)
    (category : Category)
    (stored : Dictionary Text AttributeValue)
    (definitions : List CategoryAttributeOut) :
    Option ItemWritePayload :=
  submit browser (formDefinitions definitions)
    (identityRequired s.categories category.key)
    (openedDraft browser item category stored)

/- The item has the names, the identity and the values. -/
structure KeepsItem
    (item : Item)
    (stored : Dictionary Text AttributeValue)
    (s' : Db)
    (item' : Item) : Prop where
  found : s'.findItem item.id = some item'
  name : item'.name = item.name
  model : item'.model = item.model
  manufacturer : item'.manufacturerId = item.manufacturerId
  signature : item'.identitySignature = item.identitySignature
  attributes : Catalog.loadAttributes s' item.id = .ok stored

/-
  The form shows no error at an attribute, and what it sends
  is accepted and changes nothing of the item.
-/
def SavedUnchanged
    (env : Catalog.CatalogEnv)
    (browser : Browser)
    (now : Time)
    (s : Db)
    (item : Item) : Prop :=
  ∃ category stored definitions,
    Opened browser s item category stored definitions ∧
    (validateDraftAttributes browser
      (formDefinitions definitions)
      (openedDraft browser item category
        stored).attributes).errors.entries = [] ∧
    ∃ payload, submitted browser s item category stored
        definitions = some payload ∧
      ∃ r s' item', (Catalog.updateItemRequest env now item.id
          payload.patch).run s = .ok (r, s') ∧
        KeepsItem item stored s' item'

/-
  What the form can keep: names that the browser does not
  trim, a manufacturer and a model only where the category
  requires them, no distance in metres that is not derived,
  nothing under the key of prototypes, and values that are
  read back.
-/
structure KeptByForm
    (browser : Browser)
    (item : Item)
    (category : Category)
    (stored : Dictionary Text AttributeValue)
    (definitions : List CategoryAttributeOut) : Prop where
  name : BareEnds item.name
  model : category.key ∈ manufacturedLeaves →
    ∀ m, item.model = some m → BareEnds m
  plain : category.key ∉ manufacturedLeaves →
    item.manufacturerId = none ∧ item.model = none
  metres : ¬ "transceiver_".toList.isPrefixOf category.key →
    stored.get? "reach_m".toList = none
  prototype : stored.get? "__proto__".toList = none
  values : ∀ a ∈ formDefinitions definitions, ∀ v,
    stored.get? a.key = some v → ReadsAgain browser a v

def Reeditable
    (browser : Browser)
    (s : Db)
    (item : Item) : Prop :=
  ∃ category stored definitions,
    Opened browser s item category stored definitions ∧
      KeptByForm browser item category stored definitions

end Opened

------------------------------------------------------------
-- Unchanged Forms
------------------------------------------------------------

section Unchanged

variable {env : Catalog.CatalogEnv}
variable {browser : Browser}
variable {s : Db}
variable {item : Item}
variable {payload : ItemCreate}
variable {attributes : Dictionary Text RawValue}
variable {p : PreparedItemIdentity}
variable {rows : List ItemAttributeValue}
variable {category : Category}
variable {stored : Dictionary Text AttributeValue}
variable {definitions : List CategoryAttributeOut}

/- An item that was stored, and what is read back of it. -/
structure Kept
    (env : Catalog.CatalogEnv)
    (s : Db)
    (item : Item)
    (payload : ItemCreate)
    (attributes : Dictionary Text RawValue)
    (p : PreparedItemIdentity)
    (rows : List ItemAttributeValue)
    (stored : Dictionary Text AttributeValue) : Prop where
  keys : Catalog.CatalogKeys s
  recorded : Catalog.Recorded env s item payload p rows
  draft : Catalog.Draft env.unicode env.sha256 s payload
    attributes p
  back : Catalog.ReadsBack item.id p.category.id p.values stored

/- Forms are opened with what was stored. -/
theorem Opened.kept
    (hInv : Catalog.CatalogInv env s)
    (hMem : item ∈ s.items)
    (h : Opened browser s item category stored definitions) :
    ∃ payload attributes p rows, category = p.category ∧
      Kept env s item payload attributes p rows stored := by
  rcases hInv.recorded item hMem with ⟨payload, p, rows, hRec⟩
  rcases (Catalog.prepareStoredIdentity_iff hInv.keys).mp
    hRec.prepares with ⟨attributes, hDraft⟩
  rcases hRec.loads hInv.keys with ⟨d, hLoads, hBack⟩
  have hFound := hRec.category_found hInv.keys
  rw [h.inCategory] at hFound
  rw [h.loads] at hLoads
  cases hLoads
  exact ⟨payload, attributes, p, rows, Option.some.inj hFound,
    hInv.keys, hRec, hDraft, hBack⟩

theorem Kept.categoryByKey
    (h : Kept env s item payload attributes p rows stored) :
    Table.find Category.key p.category.key s.categories =
      some p.category :=
  Table.find_of_mem h.keys.categoryKeys h.draft.category

theorem Kept.returned
    (h : Kept env s item payload attributes p rows stored)
    (hOpened : Opened browser s item p.category stored
      definitions) :
    List.Forall₂ (fun a out =>
      categoryAttributeOut browser a = some out)
      (Catalog.definitionsOfCategory s p.category.id)
      definitions :=
  (categoryDetail_eq_some_iff h.categoryByKey).mp
    hOpened.returned

theorem Kept.definitionKeys
    (h : Kept env s item payload attributes p rows stored)
    (hOpened : Opened browser s item p.category stored
      definitions) :
    ((formDefinitions definitions).map
      CategoryAttributeOut.key).Nodup := by
  apply keys_formDefinitions
  rw [keys_of_returned (h.returned hOpened)]
  exact Catalog.definitionsOfCategory_keys h.keys _

/- Whether the page asks for a manufacturer and a model. -/
theorem Kept.identityRequired
    (h : Kept env s item payload attributes p rows stored) :
    ItemForm.identityRequired s.categories p.category.key =
      decide (p.category.key ∈ manufacturedLeaves) := by
  unfold ItemForm.identityRequired
  rw [h.categoryByKey]

/- An item has what its category requires. -/
theorem Kept.identity
    (h : Kept env s item payload attributes p rows stored)
    (hLeaf : p.category.key ∈ manufacturedLeaves) :
    item.manufacturerId ≠ none ∧ ∃ m, item.model = some m ∧
      Text.normalize m = m ∧ m ≠ [] := by
  have hIdentity := h.draft.identity
  rw [Catalog.requireIdentity_stored h.recorded.model]
    at hIdentity
  unfold Catalog.requireIdentity at hIdentity
  split at hIdentity
  · cases hIdentity
  · rename_i hNot
    rw [not_and_or] at hNot
    have hHas := hNot.resolve_left (not_not_intro hLeaf)
    rw [not_or] at hHas
    rcases hHas with ⟨hMaker, hModel⟩
    constructor
    · rw [h.recorded.manufacturer]
      intro hNone
      have hDraftMaker := h.draft.manufacturer
      unfold Catalog.DraftManufacturer at hDraftMaker
      rw [hNone] at hDraftMaker
      exact hMaker hDraftMaker
    · cases hCase : item.model with
      | none =>
          rw [hCase] at hModel
          exact absurd rfl hModel
      | some m =>
          rw [hCase] at hModel
          refine ⟨m, rfl, ?_, ?_⟩
          · have hStored :=
              Catalog.normalizeOptionalInlineText_eq_ok
                h.recorded.model
            rw [hCase] at hStored
            rcases Option.filter_eq_some_iff.mp hStored.symm
              with ⟨hMap, _⟩
            rcases Option.map_eq_some_iff.mp hMap with ⟨w, _, rfl⟩
            exact Text.normalize_normalize w
          · rintro rfl
            exact hModel rfl

theorem Kept.name
    (h : Kept env s item payload attributes p rows stored) :
    Text.normalize item.name = item.name ∧ item.name ≠ [] := by
  rcases Catalog.normalizeInlineText_eq_ok h.recorded.name with
    ⟨hName, hNe⟩
  refine ⟨?_, hNe⟩
  rw [hName]
  exact Text.normalize_normalize _

section Keeping

variable (h : Kept env s item payload attributes p rows stored)
variable (hOpened : Opened browser s item p.category stored
  definitions)
variable (hForm : KeptByForm browser item p.category stored
  definitions)

include h hOpened hForm

theorem Kept.shows :
    Shows browser (formDefinitions definitions) (openedDraft
      browser item p.category stored).attributes stored :=
  fun _ hOut => attributeEntry_opened h.keys h.draft h.back
    (h.returned hOpened) hForm.values p.category hOut

/- The values that are sent are those that are stored. -/
theorem Kept.values
    (key : Text) :
    (validateDraftAttributes browser
      (formDefinitions definitions)
      (openedDraft browser item p.category
        stored).attributes).values.get? key =
      if key = "reach_m".toList then none
      else (stored.get? key).map scalarOf := by
  refine (h.shows hOpened hForm).values
    (h.definitionKeys hOpened)
    (fun _ hOut => (mem_formDefinitions.mp hOut).2) ?_ key
  intro key v hOther hGet
  rcases exists_storedAs h.draft h.back hGet with
    ⟨x, _, rfl, hMem, _⟩
  rcases (h.returned hOpened).exists_right hMem with
    ⟨out, hOut, hX⟩
  have hKey := (categoryAttributeOut_eq_some hX).1
  refine ⟨?_, out, ?_, hKey⟩
  · intro hProto
    rw [hProto, hForm.prototype] at hGet
    cases hGet
  · rw [mem_formDefinitions, hKey]
    exact ⟨hOut, hOther⟩

/- The form is sent with what the item has. -/
theorem Kept.submitted :
    ItemForm.submitted browser s item p.category stored
        definitions =
      some {
        categoryKey := p.category.key
        manufacturerId := item.manufacturerId
        model := item.model
        name := item.name
        attributes := (validateDraftAttributes browser
          (formDefinitions definitions)
          (openedDraft browser item p.category
            stored).attributes).values } := by
  rcases h.name with ⟨hName, hNamed⟩
  have hTrim : trim item.name = item.name := by
    apply (trim_eq_self_iff ?_).mpr hForm.name
    rw [← hName]
    exact Text.strip_normalize _
  have hCategory : p.category.key ≠ [] := by
    intro hNil
    have hLeaf := h.draft.leaf.2
    rw [hNil] at hLeaf
    exact absurd hLeaf (by decide)
  have hModel : p.category.key ∈ manufacturedLeaves →
      item.manufacturerId ≠ none ∧
      trim (item.model.getD []) ≠ [] ∧
      orNull (trim (item.model.getD [])) = item.model := by
    intro hLeaf
    rcases h.identity hLeaf with ⟨hMaker, m, hM, hNormal, hNe⟩
    have hSame : trim m = m := by
      apply (trim_eq_self_iff ?_).mpr (hForm.model hLeaf m hM)
      rw [← hNormal]
      exact Text.strip_normalize _
    rw [hM, Option.getD_some, hSame]
    exact ⟨hMaker, hNe, if_neg hNe⟩
  unfold ItemForm.submitted submit
  rw [h.identityRequired]
  have hNone : (submitErrors browser
      (formDefinitions definitions)
      (decide (p.category.key ∈ manufacturedLeaves))
      (openedDraft browser item p.category stored)).entries =
        [] := by
    apply submitErrors_eq_nil
      (h.shows hOpened hForm).errors hCategory
    · change trim item.name ≠ []
      rw [hTrim]
      exact hNamed
    · intro hNeeds
      rcases hModel (of_decide_eq_true hNeeds) with
        ⟨hMaker, hNe, _⟩
      exact ⟨hMaker, hNe⟩
  rw [if_neg (not_not_intro hNone)]
  by_cases hLeaf : p.category.key ∈ manufacturedLeaves
  · rcases hModel hLeaf with ⟨_, _, hKept⟩
    rw [decide_eq_true hLeaf, if_pos rfl, if_pos rfl]
    have hName' : trim (openedDraft browser item p.category
        stored).name = item.name := hTrim
    have hModel' : orNull (trim (openedDraft browser item
        p.category stored).model) = item.model := hKept
    rw [hName', hModel']
    rfl
  · rcases hForm.plain hLeaf with ⟨hMaker, hNoModel⟩
    have hName' : trim (openedDraft browser item p.category
        stored).name = item.name := hTrim
    rw [decide_eq_false hLeaf, hMaker, hNoModel, hName']
    rfl

/- What is sent supplies each value again. -/
theorem Kept.resupplies
    (hU : env.unicode.Lawful)
    (hApart : env.unicode.FoldsApart)
    {sent : Dictionary Text RawValue}
    (hSent : ∀ key, sent.get? key =
      if key = "reach_m".toList then none
      else (stored.get? key).map (fun v => (scalarOf v).raw)) :
    ∃ derived, Catalog.derivedAttributes env.unicode p.category
        sent = .ok derived ∧
      Catalog.Resupplies env.unicode p.values derived := by
  have hMetres : sent.get? "reach_m".toList = none := by
    rw [hSent, if_pos rfl]
  have hOther : ∀ {key raw}, key ≠ "reach_m".toList →
      (sent.get? key = some raw ↔ ∃ v,
        stored.get? key = some v ∧ (scalarOf v).raw = raw) := by
    intro key raw hNe
    rw [hSent, if_neg hNe, Option.map_eq_some_iff]
  -- what is read back is stored again in the same way
  have hAgain : ∀ key v, key ≠ "reach_m".toList →
      stored.get? key = some v → ∃ x ∈ p.values,
        x.attr.key = key ∧ ∃ x', Catalog.Rereads env.unicode x
          (scalarOf v).raw x' := by
    intro key v hNe hGet
    rcases exists_storedAs h.draft h.back hGet with
      ⟨x, hx, rfl, hMem, raw, _, hAs, x', hReads⟩
    rcases (h.returned hOpened).exists_right hMem with
      ⟨out, hOut, hX⟩
    have hKey := (categoryAttributeOut_eq_some hX).1
    have hField : out ∈ formDefinitions definitions := by
      rw [mem_formDefinitions, hKey]
      exact ⟨hOut, hNe⟩
    have hValue := hForm.values out hField v (by rw [hKey, hGet])
    refine ⟨x, hx, rfl, x', ?_, hReads.definition, hReads.row,
      hReads.identity⟩
    rw [prepare_scalarOf hAs hValue]
    exact hReads.prepares
  refine h.draft.resupplies h.keys hMetres ?_ ?_ ?_ ?_
  · intro hTransceiver
    rcases h.draft.keepsReach hU hApart h.keys hTransceiver
      h.back with ⟨text, n, hText, hReach, hDerived⟩
    exact ⟨text, n, (hOther (by decide)).mpr ⟨_, hText, rfl⟩,
      hReach, hDerived⟩
  · intro hTransceiver x hx hEq
    rcases exists_stored h.keys h.draft h.back hx with
      ⟨v, hGet⟩
    rw [hEq, hForm.metres hTransceiver] at hGet
    cases hGet
  · intro key raw hRaw
    have hKey : key ≠ "reach_m".toList := by
      rintro rfl
      rw [hMetres] at hRaw
      cases hRaw
    rcases (hOther hKey).mp hRaw with ⟨v, hGet, rfl⟩
    exact hAgain key v hKey hGet
  · intro x hx hKey
    rcases exists_stored h.keys h.draft h.back hx with
      ⟨v, hGet⟩
    exact ⟨_, (hOther hKey).mpr ⟨v, hGet, rfl⟩⟩

/- Saving the form again changes nothing. -/
theorem Kept.saved
    (hU : env.unicode.Lawful)
    (hFold : env.unicode.FoldsSmall)
    (hApart : env.unicode.FoldsApart)
    (hInv : Catalog.CatalogInv env s)
    (hChecked : Catalog.Checked env s)
    (hMem : item ∈ s.items)
    {sending : ItemWritePayload}
    (hSending : ItemForm.submitted browser s item p.category
      stored definitions = some sending)
    (now : Time) :
    ∃ s', (Catalog.updateItemRequest env now item.id
        sending.patch).run s = .ok (item.id, s') ∧
      Catalog.Unchanged s s' := by
  rw [h.submitted hOpened hForm] at hSending
  cases hSending
  let sent := (validateDraftAttributes browser
    (formDefinitions definitions) (openedDraft browser item
      p.category stored).attributes).values.mapValues
        CatalogScalar.raw
  have hSent : ∀ key, sent.get? key =
      if key = "reach_m".toList then none
      else (stored.get? key).map (fun v =>
        (scalarOf v).raw) := by
    intro key
    rw [Dictionary.get?_mapValues, h.values hOpened hForm]
    split
    · rfl
    · rw [Option.map_map]
      rfl
  rcases h.resupplies hOpened hForm hU hApart hSent with
    ⟨derived, hDerived, hAgain⟩
  have hDefs := Catalog.Draft.definitionsOf h.keys p.category.id
  rcases Catalog.validateAttributeValues_again hDefs
    h.draft.validates hAgain with ⟨values, hValues, hSame⟩
  rcases Catalog.normalizeInlineText_again h.recorded.name with
    ⟨hName, hNameLength⟩
  rcases Catalog.normalizeOptionalInlineText_again
    h.recorded.model with ⟨hModel, hModelLength⟩
  let merged : ItemCreate := ⟨p.category.key,
    item.manufacturerId, item.name, item.model, sent,
    Catalog.leaves_length _ h.draft.leaf.2, hNameLength,
    hModelLength⟩
  have hFound : s.findItem item.id = some item :=
    Table.find_of_mem hInv.itemIds hMem
  have hMergedKey : merged.categoryKey = p.category.key := rfl
  rcases h.draft.again_of_values hU hFold h.keys
    h.recorded.model hMergedKey h.recorded.manufacturer hModel
    hDerived hValues hSame with
      ⟨q, hDraft, hCategory, hSignature, hSameValues⟩
  refine h.recorded.edit_of_same hInv hChecked hMem ?_ hName
    hModel h.recorded.manufacturer hDraft hCategory hSignature
    hSameValues now
  refine ⟨hFound, rfl, ?_, stored, p.category, hOpened.loads,
    hOpened.inCategory, Catalog.mergePatch_eq_ok_iff.mpr
      ⟨rfl, rfl, rfl, rfl, rfl⟩⟩
  intro hNone
  cases hNone

end Keeping

/- What is unchanged is kept. -/
theorem keepsItem_of_unchanged
    {s' : Db}
    (hFound : s.findItem item.id = some item)
    (hLoads : Catalog.loadAttributes s item.id = .ok stored)
    (h : Catalog.Unchanged s s') :
    ∃ item', KeepsItem item stored s' item' := by
  have hIds : ∀ items : List Item,
      (Table.find Item.id item.id items).map Catalog.timeless =
        Table.find Item.id item.id
          (items.map Catalog.timeless) := by
    intro items
    unfold Table.find
    rw [List.find?_map]
    rfl
  have hSame := hIds s'.items
  rw [h.items, ← hIds s.items] at hSame
  change (s'.findItem item.id).map _ =
    (s.findItem item.id).map _ at hSame
  rw [hFound] at hSame
  rcases Option.map_eq_some_iff.mp hSame with
    ⟨item', hFound', hTimeless⟩
  have hField : ∀ {β : Type} (f : Item → β),
      f (Catalog.timeless item') = f (Catalog.timeless item) :=
    fun f => congrArg f hTimeless
  refine ⟨item', hFound', hField Item.name, hField Item.model,
    hField Item.manufacturerId, hField Item.identitySignature,
    ?_⟩
  rw [h.attributes]
  exact hLoads

/- What is sent. -/
theorem submitted_eq_some
    {sending : ItemWritePayload}
    (h : submitted browser s item category stored definitions =
      some sending) :
    sending = {
      categoryKey := category.key
      manufacturerId :=
        if identityRequired s.categories category.key then
          item.manufacturerId
        else none
      model :=
        if identityRequired s.categories category.key then
          orNull (trim (item.model.getD []))
        else none
      name := trim item.name
      attributes := (validateDraftAttributes browser
        (formDefinitions definitions)
        (openedDraft browser item category
          stored).attributes).values } := by
  unfold submitted submit at h
  split at h
  · cases h
  · exact (Option.some.inj h).symm

/- What the item is edited to. -/
structure Resent
    (env : Catalog.CatalogEnv)
    (s : Db)
    (item : Item)
    (p : PreparedItemIdentity)
    (stored : Dictionary Text AttributeValue)
    (sending : ItemWritePayload)
    (merged : ItemCreate)
    (derived : Dictionary Text RawValue)
    (q : PreparedItemIdentity) : Prop where
  draft : Catalog.Draft env.unicode env.sha256 s merged derived q
  category : q.category = p.category
  back : Catalog.ReadsBack item.id q.category.id q.values stored
  attributes : merged.attributes =
    sending.attributes.mapValues CatalogScalar.raw
  manufacturer : sending.manufacturerId = item.manufacturerId
  name : Catalog.normalizeInlineText sending.name "name" 255 =
    .ok item.name
  model : Catalog.normalizeOptionalInlineText "model" 255
    sending.model = .ok item.model

theorem Kept.resent
    (hFold : env.unicode.FoldsSmall)
    (h : Kept env s item payload attributes p rows stored)
    (hFound : s.findItem item.id = some item)
    {sending : ItemWritePayload}
    {now : Time}
    {r : Uuid}
    {s' : Db}
    (hRun : (Catalog.updateItemRequest env now item.id
      sending.patch).run s = .ok (r, s'))
    {item' : Item}
    (hKept : KeepsItem item stored s' item') :
    ∃ merged derived q,
      Resent env s item p stored sending merged derived q := by
  rcases Catalog.updateItem_run_iff.mp
    (Catalog.updateItemRequest_run_iff.mp hRun).1 with
      ⟨_, old, merged, q, columns, rows', hEdits⟩
  have hOld := hEdits.reads.found
  rw [hFound] at hOld
  cases hOld
  have hItem' := hEdits.found
  rw [hKept.found] at hItem'
  cases hItem'
  have hCategory := hEdits.category hFold h.keys h.recorded
  have hRec := hEdits.recorded h.keys (by
    rw [hCategory]
    exact h.recorded.category)
  have hKeys' : Catalog.CatalogKeys s' := by
    rw [hEdits.result]
    exact ⟨h.keys.categories, h.keys.categoryKeys,
      h.keys.manufacturers, h.keys.attributes,
      h.keys.attributeKeys⟩
  rcases hRec.loads hKeys' with ⟨d, hLoads, hBack⟩
  have hLoads' : Catalog.loadAttributes s' item.id = .ok d :=
    hLoads
  rw [hKept.attributes] at hLoads'
  cases hLoads'
  rcases (Catalog.prepareStoredIdentity_iff h.keys).mp
    hEdits.prepares with ⟨derived, hDraft⟩
  rcases hEdits.reads.merges with
    ⟨stored', category, _, _, hMerged⟩
  rcases Catalog.mergePatch_eq_ok_iff.mp hMerged with
    ⟨hAttributes, _, hMaker, hName, hModel⟩
  refine ⟨merged, derived, q, hDraft, hCategory, hBack,
    (Except.ok.inj hAttributes).symm, ?_, ?_, ?_⟩
  · exact hMaker.symm.trans hKept.manufacturer
  · have hText := hRec.name
    rw [hName] at hText
    rw [← hKept.name]
    exact hText
  · have hText := hRec.model
    rw [hModel] at hText
    rw [← hKept.model]
    exact hText

/- An attribute that was sent comes from its field. -/
theorem Resent.field
    {sending : ItemWritePayload}
    {merged : ItemCreate}
    {derived : Dictionary Text RawValue}
    {q : PreparedItemIdentity}
    (hKept : Kept env s item payload attributes p rows stored)
    (hOpened : Opened browser s item p.category stored
      definitions)
    (h : Resent env s item p stored sending merged derived q)
    (hSending : ItemForm.submitted browser s item p.category
      stored definitions = some sending)
    {key : Text}
    {v : AttributeValue}
    (hGet : stored.get? key = some v)
    (hSent : key ≠ "reach_m".toList ∨
      ¬ "transceiver_".toList.isPrefixOf p.category.key) :
    key ≠ "__proto__".toList ∧
      ∃ out ∈ formDefinitions definitions, out.key = key ∧
        ∃ w, attributeEntry browser out
            (some (draftValue browser (scalarOf v))) =
              .value w ∧
          ∃ a ∈ Catalog.definitionsOfCategory s p.category.id,
            a.key = key ∧ StoredAs env.unicode a w.raw v := by
  rcases exists_storedAs h.draft h.back hGet with
    ⟨x, _, hX, hMem, raw, hRaw, hAs, _⟩
  rw [h.category] at hMem
  have hDerives := h.draft.derives
  rw [h.category, h.attributes] at hDerives
  have hGiven : (sending.attributes.mapValues
      CatalogScalar.raw).get? key = some raw := by
    unfold Catalog.derivedAttributes at hDerives
    split at hDerives
    · rename_i hTransceiver
      rcases Catalog.deriveReach_eq_ok_iff.mp hDerives with
        ⟨_, _, _, _, _, rfl⟩
      have hNe := hSent.resolve_right (not_not_intro hTransceiver)
      rw [Dictionary.get?_set, if_neg hNe] at hRaw
      exact hRaw
    · cases hDerives
      exact hRaw
  rw [Dictionary.get?_mapValues] at hGiven
  rcases Option.map_eq_some_iff.mp hGiven with ⟨w, hW, rfl⟩
  rw [submitted_eq_some hSending] at hW
  rcases (values_validated (hKept.definitionKeys hOpened)).mp hW
    with ⟨hProto, out, hOut, rfl, hEntry⟩
  rw [get?_openedDraft, hGet] at hEntry
  exact ⟨hProto, out, hOut, rfl, w, hEntry, x.attr, hMem, hX,
    hAs⟩

/- What was sent and kept is what the form can keep. -/
theorem Resent.keptByForm
    {sending : ItemWritePayload}
    {merged : ItemCreate}
    {derived : Dictionary Text RawValue}
    {q : PreparedItemIdentity}
    (hKept : Kept env s item payload attributes p rows stored)
    (hOpened : Opened browser s item p.category stored
      definitions)
    (h : Resent env s item p stored sending merged derived q)
    (hSending : ItemForm.submitted browser s item p.category
      stored definitions = some sending) :
    KeptByForm browser item p.category stored definitions := by
  have hSent := submitted_eq_some hSending
  rw [hKept.identityRequired] at hSent
  constructor
  · have hName := h.name
    rw [hSent] at hName
    rcases Catalog.normalizeInlineText_eq_ok hName with
      ⟨hText, _⟩
    apply bareEnds_of_stored length_normalize_le _ hText.symm
    rw [← hKept.name.1]
    exact Text.strip_normalize _
  · intro hLeaf m hM
    rcases hKept.identity hLeaf with ⟨_, m', hM', hNormal, _⟩
    rw [hM] at hM'
    cases hM'
    have hModel := h.model
    rw [hSent, hM] at hModel
    simp only [decide_eq_true hLeaf, if_true, Option.getD_some]
      at hModel
    have hText := Catalog.normalizeOptionalInlineText_eq_ok
      hModel
    rcases Option.filter_eq_some_iff.mp hText.symm with
      ⟨hMap, _⟩
    rcases Option.map_eq_some_iff.mp hMap with ⟨w, hW, hSame⟩
    unfold orNull at hW
    split at hW
    · cases hW
    · cases hW
      apply bareEnds_of_stored length_normalize_le _ hSame
      rw [← hNormal]
      exact Text.strip_normalize _
  · intro hOther
    have hMaker := h.manufacturer
    have hModel := h.model
    rw [hSent] at hMaker hModel
    simp only [decide_eq_false hOther, Bool.false_eq_true,
      if_false] at hMaker hModel
    exact ⟨hMaker.symm, (Except.ok.inj hModel).symm⟩
  · intro hOther
    cases hGet : stored.get? "reach_m".toList with
    | none => rfl
    | some v =>
        rcases h.field hKept hOpened hSending hGet (.inr hOther)
          with ⟨_, out, hOut, hKey, _⟩
        exact absurd hKey (mem_formDefinitions.mp hOut).2
  · cases hGet : stored.get? "__proto__".toList with
    | none => rfl
    | some v =>
        have hField := h.field hKept hOpened hSending hGet
          (.inl (by decide))
        exact absurd rfl hField.1
  · intro out hOut v hGet
    rcases h.field hKept hOpened hSending hGet
      (.inl (mem_formDefinitions.mp hOut).2) with
        ⟨_, out', hOut', hKey, w, hEntry, a, ha, hA, hAgain⟩
    have hSame := List.inj_on_of_nodup_map
      (hKept.definitionKeys hOpened) hOut' hOut hKey
    subst hSame
    rcases exists_storedAs hKept.draft hKept.back hGet with
      ⟨x, _, hX, hMem, raw, _, hAs, _⟩
    have hDefinition : x.attr = a := definition_eq_of_key
      hKept.keys hMem ha (hX.trans hA.symm)
    rw [hDefinition] at hAs
    rcases exists_definition (hKept.returned hOpened)
      (mem_formDefinitions.mp hOut').1 with ⟨b, hb, hB⟩
    have hReturned : b = a := definition_eq_of_key hKept.keys hb
      ha ((categoryAttributeOut_eq_some hB).1.symm.trans
        hA.symm)
    rw [hReturned] at hB
    exact readsAgain_of_stored_again hB hAs hEntry hAgain


end Unchanged

------------------------------------------------------------
-- Saving Unchanged Forms
------------------------------------------------------------

/-
  The form for a stored item is saved as it was opened, and
  the item keeps what it has, just where the form can keep it.
-/
theorem unchanged_form_is_saved_iff
    {env : Catalog.CatalogEnv}
    (hU : env.unicode.Lawful)
    (hFold : env.unicode.FoldsSmall)
    (hApart : env.unicode.FoldsApart)
    {s : Db}
    (hHistory : Catalog.CatalogHistory env s)
    {item : Item}
    (hMem : item ∈ s.items)
    (browser : Browser)
    (now : Time) :
    SavedUnchanged env browser now s item ↔
      Reeditable browser s item := by
  have hInv := hHistory.inv hFold
  have hChecked := hHistory.checked hFold
  constructor
  · rintro ⟨category, stored, definitions, hOpened, _, sending,
      hSending, r, s', item', hRun, hKept⟩
    rcases hOpened.kept hInv hMem with
      ⟨payload, attributes, p, rows, rfl, h⟩
    rcases h.resent hFold
      (Table.find_of_mem hInv.itemIds hMem) hRun hKept with
        ⟨merged, derived, q, hResent⟩
    exact ⟨p.category, stored, definitions, hOpened,
      hResent.keptByForm h hOpened hSending⟩
  · rintro ⟨category, stored, definitions, hOpened, hForm⟩
    rcases hOpened.kept hInv hMem with
      ⟨payload, attributes, p, rows, rfl, h⟩
    have hSending := h.submitted hOpened hForm
    rcases h.saved hOpened hForm hU hFold hApart hInv hChecked
      hMem hSending now with ⟨s', hRun, hUnchanged⟩
    rcases keepsItem_of_unchanged
      (Table.find_of_mem hInv.itemIds hMem) hOpened.loads
        hUnchanged with ⟨item', hKept⟩
    exact ⟨p.category, stored, definitions, hOpened,
      (h.shows hOpened hForm).errors, _, hSending, item.id, s',
      item', hRun, hKept⟩

------------------------------------------------------------
-- A Short Cable
------------------------------------------------------------

namespace ShortCable

open Catalog (BlankCable.start BlankCable.env)

/- Floats are returned as the texts of decimals. -/
def browser : Browser where
  floatOut text := some (.str (text.map Char.toUpper))
  farText := intText

/- A cable of a tenth of a micrometre. -/
def payload : ItemCreate :=
  { Catalog.Cable.payload with
    attributes := Catalog.Cable.payload.attributes.set
      "length_m".toList (.str "0.0000001".toList) }

def created : Db :=
  (Catalog.createItemRequest BlankCable.env ⟨9⟩ 0
    payload).settle BlankCable.start

/- The errors that the form shows when it is opened. -/
def openedErrors
    (browser : Browser)
    (s : Db)
    (item : Item) : Option (List (Text × Text)) := do
  let category ← Table.find Category.id item.categoryId
    s.categories
  let stored ← (Catalog.loadAttributes s item.id).toOption
  let definitions ← categoryDetail browser s category.key
  some (validateDraftAttributes browser
    (formDefinitions definitions)
    (openedDraft browser item category
      stored).attributes).errors.entries

theorem run_created :
    (Catalog.createItemRequest BlankCable.env ⟨9⟩ 0
      payload).run BlankCable.start = .ok (⟨9⟩, created) := by
  have hOk : ((Catalog.createItemRequest BlankCable.env ⟨9⟩ 0
      payload).run BlankCable.start).toOption.isSome =
        true := by
    decide +kernel
  unfold created Txn.settle
  cases hRun : (Catalog.createItemRequest BlankCable.env ⟨9⟩ 0
      payload).run BlankCable.start with
  | error e =>
      rw [hRun] at hOk
      cases hOk
  | ok result =>
      rcases Catalog.createItem_run_iff.mp
        (Catalog.createItemRequest_run_iff.mp hRun).1 with
          ⟨hId, _⟩
      exact congrArg Except.ok (Prod.ext hId rfl)

theorem history_created :
    Catalog.CatalogHistory BlankCable.env created :=
  .step (.start ⟨by decide, by decide, by decide, by decide,
    by decide⟩ rfl rfl) (.createItem run_created)

/- Its length is returned as `1.000E-7`, which is refused. -/
theorem short_cable_is_not_saved :
    Catalog.CatalogHistory BlankCable.env created ∧
      ∃ item, created.findItem ⟨9⟩ = some item ∧
        openedErrors browser created item = some
          [("length_m".toList,
            ("Введите точное десятичное " ++
              "число через точку").toList)] ∧
        ∀ now, ¬ SavedUnchanged BlankCable.env browser now
          created item := by
  have hErrors : (created.findItem ⟨9⟩).bind
      (openedErrors browser created) = some
        [("length_m".toList, ("Введите точное десятичное " ++
          "число через точку").toList)] := by
    decide +kernel
  rcases Option.bind_eq_some_iff.mp hErrors with
    ⟨item, hFound, hShown⟩
  refine ⟨history_created, item, hFound, hShown, ?_⟩
  rintro now ⟨category, stored, definitions,
    ⟨hCategory, hLoads, hReturned⟩, hNone, _⟩
  unfold openedErrors at hShown
  rw [hCategory, hLoads] at hShown
  change (categoryDetail browser created category.key).bind _ =
    _ at hShown
  rw [hReturned] at hShown
  have hEntries := Option.some.inj hShown
  rw [hNone] at hEntries
  cases hEntries

/- The cable of one and a half metres. -/
theorem cable_is_saved_iff :
    ∃ item, Catalog.Cable.created.findItem ⟨9⟩ = some item ∧
      (SavedUnchanged BlankCable.env browser 1
          Catalog.Cable.created item ↔
        Reeditable browser Catalog.Cable.created item) := by
  have hHistory : Catalog.CatalogHistory BlankCable.env
      Catalog.Cable.created :=
    .step (.start ⟨by decide, by decide, by decide, by decide,
      by decide⟩ rfl rfl)
      (.createItem Catalog.Cable.run_created)
  have hSome : (Catalog.Cable.created.findItem ⟨9⟩).isSome =
      true := by
    decide +kernel
  rcases Option.isSome_iff_exists.mp hSome with ⟨item, hFound⟩
  exact ⟨item, hFound, unchanged_form_is_saved_iff
    Unicode.lawful_ascii Unicode.foldsSmall_ascii
    Unicode.foldsApart_ascii hHistory (Table.mem_of_find hFound)
    browser 1⟩

end ShortCable

end ItemForm
