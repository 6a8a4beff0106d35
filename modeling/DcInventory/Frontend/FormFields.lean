import DcInventory.Catalog.Restating
import DcInventory.Frontend.FormValues

/-
  This file proves what the fields of a form become, and what
  they hold when the form is opened for an item.

  Key definitions include:
    * `ItemForm.Shows`
    * `ItemForm.openedDraft`

  Key theorems include:
    * `ItemForm.values_validated`
    * `ItemForm.errors_validated`
    * `ItemForm.Shows.values`
    * `ItemForm.attributeEntry_opened`
-/

namespace ItemForm

open CatalogView (trim)
open Catalog (ItemCreate PreparedItemIdentity)

------------------------------------------------------------
-- Fields
------------------------------------------------------------

section Fields

variable {browser : Browser}
variable {definitions : List CategoryAttributeOut}
variable {draft : AttributeDraft}

theorem validateDraftAttributes_append
    (a : CategoryAttributeOut) :
    validateDraftAttributes browser (definitions ++ [a]) draft =
      (validateDraftAttributes browser definitions draft).add
        a.key (attributeEntry browser a (draft.get? a.key)) := by
  unfold validateDraftAttributes
  rw [List.foldl_append]
  rfl

/- The prototype is no entry of its own. -/
theorem get?_assign
    {V : Type}
    (key key' : Text)
    (v : V)
    (object : Dictionary Text V) :
    (assign key v object).get? key' =
      if key' = key ∧ key ≠ "__proto__".toList then some v
      else object.get? key' := by
  unfold assign
  by_cases hProto : key = "__proto__".toList
  · rw [if_pos hProto, if_neg fun h => h.2 hProto]
  · rw [if_neg hProto, Dictionary.get?_set]
    by_cases hSame : key' = key
    · rw [if_pos hSame, if_pos ⟨hSame, hProto⟩]
    · rw [if_neg hSame, if_neg fun h => hSame h.1]

/- What is sent are the fields that hold a value. -/
theorem values_validated
    (hKeys : (definitions.map CategoryAttributeOut.key).Nodup)
    {key : Text}
    {w : CatalogScalar} :
    (validateDraftAttributes browser definitions
        draft).values.get? key = some w ↔
      key ≠ "__proto__".toList ∧ ∃ a ∈ definitions,
        a.key = key ∧ attributeEntry browser a
          (draft.get? a.key) = .value w := by
  induction definitions using List.reverseRecOn with
  | nil =>
      constructor
      · intro h
        cases h
      · rintro ⟨_, a, ha, _⟩
        cases ha
  | append_singleton definitions a ih =>
      rw [List.map_append, List.nodup_append] at hKeys
      have hOther : ∀ b ∈ definitions, b.key ≠ a.key :=
        fun b hb => hKeys.2.2 b.key (List.mem_map_of_mem hb)
          a.key (List.mem_singleton.mpr rfl)
      rw [validateDraftAttributes_append]
      have hRest : (key ≠ a.key ∨
          ∀ v, attributeEntry browser a (draft.get? a.key) ≠
            .value v) →
          ((∃ b ∈ definitions, b.key = key ∧
            attributeEntry browser b (draft.get? b.key) =
              .value w) ↔
          ∃ b ∈ definitions ++ [a], b.key = key ∧
            attributeEntry browser b (draft.get? b.key) =
              .value w) := by
        intro hNot
        constructor
        · rintro ⟨b, hb, hEntry⟩
          exact ⟨b, List.mem_append_left _ hb, hEntry⟩
        · rintro ⟨b, hb, hKey, hEntry⟩
          rcases List.mem_append.mp hb with hb | hb
          · exact ⟨b, hb, hKey, hEntry⟩
          · rw [List.mem_singleton.mp hb] at hKey hEntry
            rcases hNot with hNe | hNone
            · exact absurd hKey.symm hNe
            · exact absurd hEntry (hNone w)
      cases hEntry : attributeEntry browser a
          (draft.get? a.key) with
      | nothing =>
          rw [hEntry] at hRest
          change (validateDraftAttributes browser definitions
            draft).values.get? key = some w ↔ _
          rw [ih hKeys.1, hRest (.inr fun v hv => by cases hv)]
      | error message =>
          rw [hEntry] at hRest
          change (validateDraftAttributes browser definitions
            draft).values.get? key = some w ↔ _
          rw [ih hKeys.1, hRest (.inr fun v hv => by cases hv)]
      | value v =>
          change (assign a.key v (validateDraftAttributes
            browser definitions draft).values).get? key =
              some w ↔ _
          rw [get?_assign]
          by_cases hSame : key = a.key
          · subst hSame
            by_cases hProto : a.key = "__proto__".toList
            · rw [if_neg fun h => h.2 hProto, ih hKeys.1]
              constructor
              · exact fun h => absurd hProto h.1
              · exact fun h => absurd hProto h.1
            · rw [if_pos ⟨rfl, hProto⟩]
              constructor
              · intro hEq
                cases hEq
                exact ⟨hProto, a, List.mem_append_right _
                  (List.mem_singleton.mpr rfl), rfl, hEntry⟩
              · rintro ⟨_, b, hb, hKey, hValue⟩
                rcases List.mem_append.mp hb with hb | hb
                · exact absurd hKey (hOther b hb)
                · rw [List.mem_singleton.mp hb, hEntry]
                    at hValue
                  cases hValue
                  rfl
          · rw [if_neg fun h => hSame h.1, ih hKeys.1,
              hRest (.inl hSame)]

/- No error is shown where no field has one. -/
theorem errors_validated :
    (validateDraftAttributes browser definitions
        draft).errors.entries = [] ↔
      ∀ a ∈ definitions, a.key ≠ "__proto__".toList →
        ∀ message, attributeEntry browser a
          (draft.get? a.key) ≠ .error message := by
  induction definitions using List.reverseRecOn with
  | nil =>
      constructor
      · intro _ a ha
        cases ha
      · exact fun _ => rfl
  | append_singleton definitions a ih =>
      rw [validateDraftAttributes_append]
      have hAll : ∀ {P : CategoryAttributeOut → Prop},
          (∀ b ∈ definitions ++ [a], P b) ↔
            (∀ b ∈ definitions, P b) ∧ P a := by
        intro P
        simp only [List.mem_append, List.mem_singleton]
        constructor
        · exact fun h => ⟨fun b hb => h b (.inl hb),
            h a (.inr rfl)⟩
        · rintro ⟨hAll, hOne⟩ b (hb | rfl)
          · exact hAll b hb
          · exact hOne
      rw [hAll, ← ih]
      cases hEntry : attributeEntry browser a
          (draft.get? a.key) with
      | nothing =>
          constructor
          · exact fun h => ⟨h, fun _ m hm => by cases hm⟩
          · exact fun h => h.1
      | value v =>
          constructor
          · exact fun h => ⟨h, fun _ m hm => by cases hm⟩
          · exact fun h => h.1
      | error message =>
          change (assign a.key message (validateDraftAttributes
            browser definitions draft).errors).entries = [] ↔ _
          unfold assign
          by_cases hProto : a.key = "__proto__".toList
          · rw [if_pos hProto]
            constructor
            · exact fun h => ⟨h, fun hNe => absurd hProto hNe⟩
            · exact fun h => h.1
          · rw [if_neg hProto]
            constructor
            · intro hNil
              have hGet := Dictionary.get?_set
                (validateDraftAttributes browser definitions
                  draft).errors a.key a.key message
              rw [if_pos rfl] at hGet
              have hMem := Dictionary.mem_entries.mpr hGet
              rw [hNil] at hMem
              cases hMem
            · exact fun h => absurd rfl (h.2 hProto message)

/- Nothing is missing that the form asks for. -/
theorem submitErrors_eq_nil
    {needsIdentity : Bool}
    {draft : Draft}
    (hErrors : (validateDraftAttributes browser definitions
      draft.attributes).errors.entries = [])
    (hCategory : draft.category ≠ [])
    (hName : trim draft.name ≠ [])
    (hIdentity : needsIdentity = true →
      draft.manufacturer ≠ none ∧ trim draft.model ≠ []) :
    (submitErrors browser definitions needsIdentity
      draft).entries = [] := by
  have hNone : (needsIdentity &&
      (decide (draft.manufacturer = none) ||
        decide (trim draft.model = []))) = false := by
    cases needsIdentity with
    | false => rfl
    | true =>
        rcases hIdentity rfl with ⟨hMaker, hModel⟩
        rw [decide_eq_false hMaker, decide_eq_false hModel]
        rfl
  unfold submitErrors addError
  rw [decide_eq_false hCategory, decide_eq_false hName, hNone]
  exact hErrors

------------------------------------------------------------
-- Fields Of Shown Values
------------------------------------------------------------

/- Each field holds what is shown, or nothing. -/
def Shows
    (browser : Browser)
    (definitions : List CategoryAttributeOut)
    (draft : AttributeDraft)
    (shown : Dictionary Text AttributeValue) : Prop :=
  ∀ a ∈ definitions,
    attributeEntry browser a (draft.get? a.key) =
      match shown.get? a.key with
      | none => .nothing
      | some v => .value (scalarOf v)

variable {shown : Dictionary Text AttributeValue}

theorem Shows.errors
    (h : Shows browser definitions draft shown) :
    (validateDraftAttributes browser definitions
      draft).errors.entries = [] := by
  rw [errors_validated]
  intro a ha _ message hError
  rw [h a ha] at hError
  split at hError
  · cases hError
  · cases hError

/- The values that are sent are those that are shown. -/
theorem Shows.values
    (h : Shows browser definitions draft shown)
    (hKeys : (definitions.map CategoryAttributeOut.key).Nodup)
    (hOther : ∀ a ∈ definitions, a.key ≠ "reach_m".toList)
    (hFields : ∀ key v, key ≠ "reach_m".toList →
      shown.get? key = some v → key ≠ "__proto__".toList ∧
        ∃ a ∈ definitions, a.key = key)
    (key : Text) :
    (validateDraftAttributes browser definitions
      draft).values.get? key =
        if key = "reach_m".toList then none
        else (shown.get? key).map scalarOf := by
  apply Option.ext
  intro w
  rw [values_validated hKeys]
  constructor
  · rintro ⟨_, a, ha, rfl, hEntry⟩
    rw [if_neg (hOther a ha)]
    rw [h a ha] at hEntry
    split at hEntry
    · cases hEntry
    · rename_i v hGet
      cases hEntry
      rw [hGet]
      rfl
  · intro hEq
    split at hEq
    · cases hEq
    · rename_i hNe
      rcases Option.map_eq_some_iff.mp hEq with ⟨v, hGet, rfl⟩
      rcases hFields key v hNe hGet with ⟨hProto, a, ha, rfl⟩
      refine ⟨hProto, a, ha, rfl, ?_⟩
      rw [h a ha, hGet]

end Fields

------------------------------------------------------------
-- Definitions
------------------------------------------------------------

section Definitions

variable {browser : Browser}
variable {s : Db}
variable {categoryKey : Text}
variable {definitions : List CategoryAttributeOut}

/- The definitions of a category that is returned. -/
theorem categoryDetail_eq_some_iff
    {category : Category}
    (hFound : Table.find Category.key categoryKey s.categories =
      some category) :
    categoryDetail browser s categoryKey = some definitions ↔
      List.Forall₂ (fun a out =>
        categoryAttributeOut browser a = some out)
        (Catalog.definitionsOfCategory s category.id)
        definitions := by
  unfold categoryDetail
  rw [hFound]
  exact Option.mapM_eq_some_iff

theorem mem_formDefinitions
    {a : CategoryAttributeOut} :
    a ∈ formDefinitions definitions ↔
      a ∈ definitions ∧ a.key ≠ "reach_m".toList := by
  unfold formDefinitions
  rw [List.mem_filter, decide_eq_true_eq]

theorem keys_of_returned
    {attributes : List CategoryAttribute}
    (h : List.Forall₂ (fun a out =>
      categoryAttributeOut browser a = some out)
        attributes definitions) :
    definitions.map CategoryAttributeOut.key =
      attributes.map CategoryAttribute.key := by
  induction h with
  | nil => rfl
  | cons hHead _ ih =>
      rw [List.map_cons, List.map_cons, ih,
        (categoryAttributeOut_eq_some hHead).1]

theorem keys_formDefinitions
    (hKeys : (definitions.map CategoryAttributeOut.key).Nodup) :
    ((formDefinitions definitions).map
      CategoryAttributeOut.key).Nodup :=
  hKeys.sublist ((List.filter_sublist).map _)

end Definitions

------------------------------------------------------------
-- Fields Of Stored Values
------------------------------------------------------------

section Stored

variable {U : Unicode}
variable {sha256 : Text → Text}
variable {browser : Browser}
variable {s : Db}
variable {item : Item}
variable {payload : ItemCreate}
variable {attributes : Dictionary Text RawValue}
variable {p : PreparedItemIdentity}
variable {stored : Dictionary Text AttributeValue}
variable {definitions : List CategoryAttributeOut}

/- A value that is read back was stored for a definition. -/
theorem exists_storedAs
    (hDraft : Catalog.Draft U sha256 s payload attributes p)
    (hBack : Catalog.ReadsBack item.id p.category.id p.values
      stored)
    {key : Text}
    {v : AttributeValue}
    (h : stored.get? key = some v) :
    ∃ x ∈ p.values, x.attr.key = key ∧
      x.attr ∈ Catalog.definitionsOfCategory s p.category.id ∧
      ∃ raw, attributes.get? key = some raw ∧
        StoredAs U x.attr raw v ∧
        ∃ x', Catalog.Rereads U x v.raw x' := by
  rcases (hBack key v).mp h with
    ⟨x, hx, hKey, row, hRow, hRead⟩
  rcases Catalog.prepared_of_validated hDraft.validates hx with
    ⟨hMem, raw, hRaw, hPrepared⟩
  rw [hKey] at hRaw
  rcases Catalog.rereads_of_prepared hPrepared hRow with
    ⟨v', x', hRead', hAgain⟩
  rw [hRead] at hRead'
  cases hRead'
  exact ⟨x, hx, hKey, hMem, raw, hRaw,
    storedAs_of_prepared hPrepared hRow hRead, x', hAgain⟩

/- Every value is read back. -/
theorem exists_stored
    (hKeys : Catalog.CatalogKeys s)
    (hDraft : Catalog.Draft U sha256 s payload attributes p)
    (hBack : Catalog.ReadsBack item.id p.category.id p.values
      stored)
    {x : PreparedAttributeValue}
    (hx : x ∈ p.values) :
    ∃ v, stored.get? x.attr.key = some v := by
  rcases (hDraft.stored hKeys).rows item.id with ⟨rows, hMap, _⟩
  rcases (Option.mapM_eq_some_iff.mp hMap).exists_right hx with
    ⟨row, _, hRow⟩
  rcases (Catalog.prepared_of_validated hDraft.validates
    hx).2 with ⟨raw, _, hPrepared⟩
  rcases Catalog.rereads_of_prepared hPrepared hRow with
    ⟨v, _, hRead, _⟩
  exact ⟨v, (hBack x.attr.key v).mpr
    ⟨x, hx, rfl, row, hRow, hRead⟩⟩

/- A returned definition and the one that it is made of. -/
theorem exists_definition
    (hReturned : List.Forall₂ (fun a out =>
      categoryAttributeOut browser a = some out)
      (Catalog.definitionsOfCategory s p.category.id)
      definitions)
    {out : CategoryAttributeOut}
    (h : out ∈ definitions) :
    ∃ a ∈ Catalog.definitionsOfCategory s p.category.id,
      categoryAttributeOut browser a = some out :=
  hReturned.exists_left h

/- Definitions of one key are the same. -/
theorem definition_eq_of_key
    (hKeys : Catalog.CatalogKeys s)
    {a b : CategoryAttribute}
    (ha : a ∈ Catalog.definitionsOfCategory s p.category.id)
    (hb : b ∈ Catalog.definitionsOfCategory s p.category.id)
    (hKey : a.key = b.key) :
    a = b :=
  List.inj_on_of_nodup_map
    (Catalog.definitionsOfCategory_keys hKeys p.category.id)
      ha hb hKey

/- The draft that the form begins with. -/
def openedDraft
    (browser : Browser)
    (item : Item)
    (category : Category)
    (stored : Dictionary Text AttributeValue) : Draft :=
  itemDraft browser (itemOut category item stored)

/- What the form shows of a stored value. -/
theorem get?_openedDraft
    (category : Category)
    (key : Text) :
    (openedDraft browser item category
        stored).attributes.get? key =
      (stored.get? key).map (fun v =>
        draftValue browser (scalarOf v)) := by
  change ((stored.mapValues scalarOf).mapValues
    (draftValue browser)).get? key = _
  rw [Dictionary.get?_mapValues, Dictionary.get?_mapValues,
    Option.map_map]
  rfl

/- The field of a definition without a value. -/
theorem attributeEntry_none
    {a : CategoryAttributeOut}
    (hOptional : a.required = false) :
    attributeEntry browser a none = .nothing := by
  unfold attributeEntry required fieldText
  rw [hOptional]
  split
  · rfl
  · rfl

/- Each field holds what is stored, or nothing. -/
theorem attributeEntry_opened
    (hKeys : Catalog.CatalogKeys s)
    (hDraft : Catalog.Draft U sha256 s payload attributes p)
    (hBack : Catalog.ReadsBack item.id p.category.id p.values
      stored)
    (hReturned : List.Forall₂ (fun a out =>
      categoryAttributeOut browser a = some out)
      (Catalog.definitionsOfCategory s p.category.id)
      definitions)
    (hValues : ∀ a ∈ formDefinitions definitions, ∀ v,
      stored.get? a.key = some v → ReadsAgain browser a v)
    (category : Category)
    {out : CategoryAttributeOut}
    (hOut : out ∈ formDefinitions definitions) :
    attributeEntry browser out ((openedDraft browser item
      category stored).attributes.get? out.key) =
        match stored.get? out.key with
        | none => .nothing
        | some v => .value (scalarOf v) := by
  rcases exists_definition hReturned
    (mem_formDefinitions.mp hOut).1 with ⟨a, ha, hA⟩
  have hKey := (categoryAttributeOut_eq_some hA).1
  rw [get?_openedDraft]
  cases hGet : stored.get? out.key with
  | none =>
      apply attributeEntry_none
      rw [(categoryAttributeOut_eq_some hA).2.2.1]
      rw [Bool.eq_false_iff]
      intro hRequired
      rcases (hDraft.stored hKeys).required a ha hRequired with
        ⟨x, hx, rfl⟩
      rcases exists_stored hKeys hDraft hBack hx with ⟨v, hSome⟩
      rw [← hKey, hGet] at hSome
      cases hSome
  | some v =>
      rcases exists_storedAs hDraft hBack hGet with
        ⟨x, _, hX, hMem, raw, _, hAs, _⟩
      have hSame : x.attr = a := definition_eq_of_key hKeys hMem
        ha (hX.trans hKey)
      rw [hSame] at hAs
      exact attributeEntry_stored hA hAs (hValues out hOut v hGet)

end Stored

end ItemForm
