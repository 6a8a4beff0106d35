import DcInventory.Catalog.Editing
import DcInventory.Frontend.CardDraft
import DcInventory.Frontend.LineComposer
import DcInventory.Frontend.ReshownValues
import DcInventory.Procurement.FaithfulLines

/-
  This file proves what the form for an item is filled with
  and sends, when it is opened for a line that the composer
  added and that was accepted.

  Key definitions include:
    * `LineComposer.CleanAdd`
    * `LineComposer.Approved`

  Key theorems include:
    * `LineComposer.Run.composed`
    * `LineComposer.Approved.submitted`
    * `LineComposer.Approved.accepted`
-/

namespace LineComposer

open CatalogView (trim)
open Catalog (manufacturedLeaves PreparedItemIdentity)
open ItemForm (Browser CatalogScalar CategoryAttributeOut
  DraftValue BareEnds Reshown getCategory formDefinitions
  validateDraftAttributes attributeEntry draftValue scalarOf
  procurementDraft submitErrors submit)

------------------------------------------------------------
-- Runs
------------------------------------------------------------

section Runs

variable {U : Unicode}
variable {browser : Browser}
variable {db : Db}
variable {trace : List (Composer × Event)}
variable {s : Composer}

/- A manufacturer is chosen only where one is asked for. -/
def Composed (db : Db) (s : Composer) : Prop :=
  identityRequired db s = false → s.manufacturerId = none

theorem Composed.step
    {e : Event}
    (h : Composed db s)
    (hOffered : Offered U browser db s e) :
    Composed db (step U browser db s e) := by
  cases e with
  | category key => exact fun _ => rfl
  | searchManufacturer value => exact fun _ => rfl
  | manufacturer id =>
      intro hPlain
      have hNeeds := hOffered.1
      change identityRequired db s = false at hPlain
      rw [hNeeds] at hPlain
      cases hPlain
  | name value => exact h
  | model value => exact h
  | setAttribute key value => cases value <;> exact h
  | quantity value => exact h
  | remove index => exact h
  | add loaded =>
      change Composed db (s.add U browser db loaded)
      unfold Composer.add
      split
      · exact h
      · exact h

theorem Run.composed
    (h : Run U browser db trace s) :
    Composed db s ∧ ∀ x ∈ trace, Composed db x.1 := by
  induction h with
  | start lines =>
      refine ⟨fun _ => rfl, ?_⟩
      intro x hx
      cases hx
  | event hBefore e hOffered ih =>
      refine ⟨ih.1.step hOffered, ?_⟩
      intro x hx
      rcases List.mem_append.mp hx with hx | hx
      · exact ih.2 x hx
      · rw [List.mem_singleton.mp hx]
        exact ih.1

end Runs

------------------------------------------------------------
-- Lines
------------------------------------------------------------

section Lines

variable {U : Unicode}
variable {browser : Browser}
variable {db : Db}
variable {loaded : Bool}
variable {s : Composer}
variable {line : ProposedLineInput}

/- What is checked of a line, and what it says. -/
theorem addedLine_eq_ok
    (h : addedLine U browser db loaded s = .ok line) :
    trim s.name ≠ [] ∧
      line.categoryKey = s.category ∧
      line.manufacturerId = s.manufacturerId ∧
      line.name = trim s.name ∧
      line.model = ItemForm.orNull (trim s.model) ∧
      line.attributes = (validateDraftAttributes browser
        (definitions U browser db loaded s)
          s.attributes).values := by
  unfold addedLine at h
  split at h
  · cases h
  · split at h
    · cases h
    · simp only at h
      split at h
      · cases h
      · rename_i hNot
        split at h
        · cases h
        · cases h
          rw [not_or, not_or] at hNot
          exact ⟨hNot.2.1, rfl, rfl, rfl, rfl, rfl⟩

/- What a line is received as. -/
theorem ProposedLineInput.received_eq_some
    {proposed : Procurement.ProposedItemLineCreate}
    (h : line.received = some proposed) :
    proposed.itemCreate.categoryKey = line.categoryKey ∧
      proposed.itemCreate.manufacturerId =
        line.manufacturerId ∧
      proposed.itemCreate.name = line.name ∧
      proposed.itemCreate.model = line.model ∧
      ∀ key, proposed.itemCreate.attributes.get? key =
        (line.attributes.get? key).map CatalogScalar.raw := by
  unfold ProposedLineInput.received at h
  split at h
  · cases h
    refine ⟨rfl, rfl, rfl, rfl, fun key => ?_⟩
    change ((line.attributes.mapValues scalar).mapValues
      Procurement.ProcurementScalar.raw).get? key = _
    rw [Dictionary.get?_mapValues, Dictionary.get?_mapValues,
      Option.map_map]
    congr 1
    funext value
    cases value <;> rfl
  · cases h

/-
  A line that can become a card: its category can be
  returned, a model is left only where one is asked for, the
  names are not lost when they are trimmed, and the values are
  taken again as they are shown.
-/
structure CleanAdd
    (U : Unicode)
    (browser : Browser)
    (db : Db)
    (loaded : Bool)
    (s : Composer) : Prop where
  returned : (getCategory U browser db s.category).isSome
  plain : identityRequired db s = false →
    Text.normalize (trim s.model) = []
  model : identityRequired db s = true →
    BareEnds (Text.normalize (trim s.model))
  name : trim (Text.normalize (trim s.name)) ≠ []
  values : ∀ a ∈ definitions U browser db loaded s,
    Reshown a (s.attributes.get? a.key)

/- Whatever is added in the run can become a card. -/
def Clean
    (U : Unicode)
    (browser : Browser)
    (db : Db)
    (trace : List (Composer × Event)) : Prop :=
  ∀ s loaded, (s, Event.add loaded) ∈ trace →
    CleanAdd U browser db loaded s

theorem Clean.event
    {trace : List (Composer × Event)}
    (h : Clean U browser db trace)
    {e : Event}
    (hAdd : ∀ loaded, e = .add loaded →
      CleanAdd U browser db loaded s) :
    Clean U browser db (trace ++ [(s, e)]) := by
  intro s' loaded hMem
  rcases List.mem_append.mp hMem with hOld | hLast
  · exact h s' loaded hOld
  · cases List.mem_singleton.mp hLast
    exact hAdd loaded rfl

end Lines

------------------------------------------------------------
-- Approved Lines
------------------------------------------------------------

/- What is left of a name when it is trimmed is a name. -/
theorem normalizeInlineText_trim
    {value w : Text}
    {field : String}
    {n : Nat}
    (h : Catalog.normalizeInlineText value field n = .ok w)
    (hNe : trim w ≠ []) :
    (trim w).length ≤ n ∧ ∃ w',
      Catalog.normalizeInlineText (trim w) field n =
        .ok w' := by
  have hShort : (trim w).length ≤ n :=
    (Words.strip_sublist w).length_le.trans
      (Catalog.normalizeInlineText_again h).2
  rcases Catalog.normalizeInlineText_eq_ok h with ⟨rfl, _⟩
  have hSome : Text.normalize (trim (Text.normalize value)) ≠
      [] := by
    intro hNil
    apply hNe
    apply Words.strip_eq_nil_iff.mpr
    intro c hc
    rcases Text.mem_normalize hc with rfl | ⟨_, hSolid⟩
    · decide
    · by_contra hBlank
      have hIn := ItemForm.mem_trim_of_solid hc
        (Bool.eq_false_iff.mpr hBlank)
      rw [Text.normalize_eq_nil_iff.mp hNil c hIn] at hSolid
      cases hSolid
  have hFits := (ItemForm.length_normalize_le
    (trim (Text.normalize value))).trans hShort
  refine ⟨hShort,
    Text.normalize (trim (Text.normalize value)), ?_⟩
  unfold Catalog.normalizeInlineText
  simp only [if_neg hSome, if_neg (Nat.not_lt.mpr hFits)]

section Approved

variable {env : Catalog.CatalogEnv}
variable {browser : Browser}
variable {db : Db}
variable {loaded : Bool}
variable {s : Composer}
variable {payload : Catalog.ItemCreate}
variable {attributes : Dictionary Text RawValue}
variable {p : PreparedItemIdentity}
variable {name : Text}
variable {model : Option Text}
variable {detail : List CategoryAttributeOut}

/- A line that was accepted, and the form it came from. -/
structure Approved
    (env : Catalog.CatalogEnv)
    (browser : Browser)
    (db : Db)
    (loaded : Bool)
    (s : Composer)
    (payload : Catalog.ItemCreate)
    (attributes : Dictionary Text RawValue)
    (p : PreparedItemIdentity)
    (name : Text)
    (model : Option Text)
    (detail : List CategoryAttributeOut) : Prop where
  keys : Catalog.CatalogKeys db
  composed : Composed db s
  clean : CleanAdd env.unicode browser db loaded s
  returned : getCategory env.unicode browser db s.category =
    some detail
  categoryKey : payload.categoryKey = s.category
  manufacturerId : payload.manufacturerId = s.manufacturerId
  nameSent : payload.name = trim s.name
  modelSent : payload.model = ItemForm.orNull (trim s.model)
  sent : ∀ key, payload.attributes.get? key =
    ((validateDraftAttributes browser
      (definitions env.unicode browser db loaded s)
        s.attributes).values.get? key).map CatalogScalar.raw
  draft : Catalog.Draft env.unicode env.sha256 db payload
    attributes p
  name : Catalog.normalizeInlineText payload.name "name" 255 =
    .ok name
  model : Catalog.normalizeOptionalInlineText "model" 255
    payload.model = .ok model

section Facts

variable (h : Approved env browser db loaded s payload
  attributes p name model detail)

include h

theorem Approved.categoryByKey :
    Table.find Category.key p.category.key db.categories =
      some p.category :=
  Table.find_of_mem h.keys.categoryKeys h.draft.category

/- The form asks the application for the line's category. -/
theorem Approved.categoryDetail :
    ItemForm.categoryDetail browser db p.category.key =
      some detail := by
  have hReturned := h.returned
  have hKey := h.draft.categoryKey
  rw [h.categoryKey] at hKey
  unfold getCategory at hReturned
  rw [hKey] at hReturned
  exact hReturned

theorem Approved.forall₂ :
    List.Forall₂ (fun a out =>
      ItemForm.categoryAttributeOut browser a = some out)
      (Catalog.definitionsOfCategory db p.category.id)
      detail :=
  (ItemForm.categoryDetail_eq_some_iff h.categoryByKey).mp
    h.categoryDetail

theorem Approved.definitionKeys :
    ((formDefinitions detail).map
      CategoryAttributeOut.key).Nodup := by
  apply ItemForm.keys_formDefinitions
  rw [ItemForm.keys_of_returned h.forall₂]
  exact Catalog.definitionsOfCategory_keys h.keys _

/- Both forms ask for a manufacturer, or neither does. -/
theorem Approved.needs
    (hFold : env.unicode.FoldsSmall) :
    identityRequired db s =
      decide (p.category.key ∈ manufacturedLeaves) := by
  have hKey := h.draft.categoryKey
  rw [h.categoryKey] at hKey
  by_cases hNeeds : identityRequired db s = true
  · have hLeaf : s.category ∈ manufacturedLeaves := by
      unfold identityRequired ItemForm.identityRequired
        at hNeeds
      split at hNeeds
      · rename_i c hFound
        rw [← Table.key_of_find hFound]
        exact of_decide_eq_true hNeeds
      · cases hNeeds
    have hSub : ∀ key ∈ manufacturedLeaves,
        key ∈ Catalog.leaves := by
      decide
    rw [Catalog.normalizeCategoryKey_leaf hFold
      (hSub _ hLeaf)] at hKey
    rw [hNeeds, ← Except.ok.inj hKey, decide_eq_true hLeaf]
  · have hPlain := Bool.eq_false_iff.mpr hNeeds
    rw [hPlain]
    refine (decide_eq_false fun hLeaf => ?_).symm
    have hMaker := h.draft.manufacturer
    rw [h.manufacturerId, h.composed hPlain] at hMaker
    have hIdentity := h.draft.identity
    unfold Catalog.requireIdentity at hIdentity
    rw [if_pos ⟨hLeaf, .inl hMaker⟩] at hIdentity
    cases hIdentity

/- What is sent comes from a field of the form. -/
theorem Approved.field
    {key : Text}
    {raw : RawValue}
    (hSent : payload.attributes.get? key = some raw) :
    key ≠ "__proto__".toList ∧
      ∃ out ∈ formDefinitions detail, out.key = key ∧
        Reshown out (s.attributes.get? key) ∧
        ∃ w, w.raw = raw ∧ attributeEntry browser out
          (s.attributes.get? key) = .value w := by
  rw [h.sent] at hSent
  rcases Option.map_eq_some_iff.mp hSent with ⟨w, hW, rfl⟩
  have hValues := h.clean.values
  have hDefinitions : definitions env.unicode browser db loaded
      s = if loaded then formDefinitions detail else [] := by
    unfold definitions
    rw [h.returned]
    rfl
  rw [hDefinitions] at hW hValues
  cases loaded with
  | false => cases hW
  | true =>
      rcases (ItemForm.values_validated h.definitionKeys).mp hW
        with ⟨hProto, out, hOut, rfl, hEntry⟩
      exact ⟨hProto, out, hOut, rfl, hValues out hOut, w, rfl,
        hEntry⟩

/- Only the distance in metres is derived. -/
theorem Approved.given
    {key : Text}
    {raw : RawValue}
    (hRaw : attributes.get? key = some raw)
    (hOther : key ≠ "reach_m".toList ∨
      ¬ "transceiver_".toList.isPrefixOf p.category.key =
        true) :
    payload.attributes.get? key = some raw := by
  have hDerives := h.draft.derives
  unfold Catalog.derivedAttributes at hDerives
  split at hDerives
  · rename_i hTransceiver
    rcases Catalog.deriveReach_eq_ok_iff.mp hDerives with
      ⟨_, _, _, _, _, rfl⟩
    have hNe := hOther.resolve_right
      (not_not_intro hTransceiver)
    rw [Dictionary.get?_set, if_neg hNe] at hRaw
    exact hRaw
  · cases hDerives
    exact hRaw

theorem Approved.noMetres
    (hOther : ¬ "transceiver_".toList.isPrefixOf
      p.category.key = true)
    {x : PreparedAttributeValue}
    (hx : x ∈ p.values) :
    x.attr.key ≠ "reach_m".toList := by
  rcases (Catalog.prepared_of_validated h.draft.validates
    hx).2 with ⟨raw, hRaw, _⟩
  rcases h.field (h.given hRaw (.inr hOther)) with
    ⟨_, out, hOut, hKey, _⟩
  rw [← hKey]
  exact (ItemForm.mem_formDefinitions.mp hOut).2

theorem Approved.hasValue
    {x : PreparedAttributeValue}
    (hx : x ∈ p.values) :
    ∃ v, x.value? = some v := by
  rcases (h.draft.stored h.keys).only x hx with
    ⟨_, _, _, hRepresents⟩
  rcases Catalog.value_of_represents hRepresents with ⟨v, hV, _⟩
  exact ⟨v, hV⟩

/- A value that the form takes again as it is shown. -/
theorem Approved.value
    {x : PreparedAttributeValue}
    (hx : x ∈ p.values)
    (hOther : x.attr.key ≠ "reach_m".toList) :
    x.attr.key ≠ "__proto__".toList ∧
      ∃ out ∈ formDefinitions detail, out.key = x.attr.key ∧
        ∃ v, x.value? = some v ∧
          attributeEntry browser out
            (some (draftValue browser (scalarOf v))) =
              .value (scalarOf v) ∧
          prepareAttributeValue env.unicode x.attr
            (scalarOf v).raw = .ok (some x) := by
  rcases Catalog.prepared_of_validated h.draft.validates hx
    with ⟨hMem, raw, hRaw, hPrepared⟩
  rcases h.field (h.given hRaw (.inl hOther)) with
    ⟨hProto, out, hOut, hKey, hShown, w, rfl, hEntry⟩
  rcases h.forall₂.exists_left
    (ItemForm.mem_formDefinitions.mp hOut).1 with ⟨a, ha, hA⟩
  have hSame : a = x.attr := by
    apply ItemForm.definition_eq_of_key h.keys ha hMem
    rw [← (ItemForm.categoryAttributeOut_eq_some hA).1, hKey]
  rw [hSame] at hA
  rcases h.hasValue hx with ⟨v, hV⟩
  rcases ItemForm.attributeEntry_reshown hA hEntry hPrepared hV
    hShown with ⟨hAgain, hSameValue⟩
  exact ⟨hProto, out, hOut, hKey, v, hV, hAgain, hSameValue⟩

------------------------------------------------------------
-- What Is Shown
------------------------------------------------------------

/- The attributes of the row are the values of the line. -/
theorem Approved.shown_iff
    {key : Text}
    {v : AttributeValue} :
    (Dictionary.ofList
        (Catalog.normalizedAttributes p.values)).get? key =
          some v ↔
      ∃ x ∈ p.values, x.attr.key = key ∧
        x.value? = some v := by
  rw [Dictionary.get?_ofList
    ((h.draft.stored h.keys).distinct.sublist
      (Catalog.normalizedAttributes_keys p.values))]
  exact Catalog.mem_normalizedAttributes

/- The fields of the form show the values of the line. -/
theorem Approved.shows
    {draft : ItemForm.AttributeDraft}
    (hDraft : ∀ key, draft.get? key =
      ((Dictionary.ofList
        (Catalog.normalizedAttributes p.values)).get? key).map
          (fun v => draftValue browser (scalarOf v))) :
    ItemForm.Shows browser (formDefinitions detail) draft
      (.ofList (Catalog.normalizedAttributes p.values)) := by
  intro out hOut
  rcases h.forall₂.exists_left
    (ItemForm.mem_formDefinitions.mp hOut).1 with ⟨a, ha, hA⟩
  have hOther := (ItemForm.mem_formDefinitions.mp hOut).2
  have hKey := (ItemForm.categoryAttributeOut_eq_some hA).1
  rw [hDraft]
  cases hShown : (Dictionary.ofList
      (Catalog.normalizedAttributes p.values)).get? out.key with
  | none =>
      apply ItemForm.attributeEntry_none
      rw [(ItemForm.categoryAttributeOut_eq_some hA).2.2.1,
        Bool.eq_false_iff]
      intro hRequired
      rcases (h.draft.stored h.keys).required a ha hRequired
        with ⟨x, hx, rfl⟩
      rcases h.hasValue hx with ⟨v, hV⟩
      rw [h.shown_iff.mpr ⟨x, hx, hKey.symm, hV⟩] at hShown
      cases hShown
  | some v =>
      rcases h.shown_iff.mp hShown with ⟨x, hx, hX, hV⟩
      rw [← hX] at hOther
      rcases h.value hx hOther with
        ⟨_, out', hOut', hSame, v', hV', hEntry, _⟩
      rw [hV] at hV'
      cases hV'
      have hOut_eq : out' = out := List.inj_on_of_nodup_map
        h.definitionKeys hOut' hOut (hSame.trans hX)
      rw [← hOut_eq]
      exact hEntry

/- What is sent supplies each value of the line again. -/
theorem Approved.resupplies
    (hU : env.unicode.Lawful)
    (hApart : env.unicode.FoldsApart)
    {draft : ItemForm.AttributeDraft}
    (hShows : ItemForm.Shows browser (formDefinitions detail)
      draft (.ofList
        (Catalog.normalizedAttributes p.values))) :
    ∃ derived, Catalog.derivedAttributes env.unicode p.category
        ((validateDraftAttributes browser
          (formDefinitions detail) draft).values.mapValues
            CatalogScalar.raw) = .ok derived ∧
      Catalog.Resupplies env.unicode p.values derived := by
  have hFields : ∀ key v, key ≠ "reach_m".toList →
      (Dictionary.ofList
        (Catalog.normalizedAttributes p.values)).get? key =
          some v →
        key ≠ "__proto__".toList ∧
          ∃ out ∈ formDefinitions detail, out.key = key := by
    intro key v hOther hGet
    rcases h.shown_iff.mp hGet with ⟨x, hx, rfl, _⟩
    rcases h.value hx hOther with ⟨hProto, out, hOut, hKey, _⟩
    exact ⟨hProto, out, hOut, hKey⟩
  have hValues := hShows.values h.definitionKeys
    (fun _ hOut => (ItemForm.mem_formDefinitions.mp hOut).2)
      hFields
  generalize hSent : (validateDraftAttributes browser
    (formDefinitions detail) draft).values.mapValues
      CatalogScalar.raw = sent
  have hGet : ∀ key, sent.get? key =
      if key = "reach_m".toList then none
      else ((Dictionary.ofList
        (Catalog.normalizedAttributes p.values)).get? key).map
          (fun v => (scalarOf v).raw) := by
    intro key
    rw [← hSent, Dictionary.get?_mapValues, hValues]
    split
    · rfl
    · rw [Option.map_map]
      rfl
  have hMetres : sent.get? "reach_m".toList = none := by
    rw [hGet, if_pos rfl]
  have hSupplied : ∀ x ∈ p.values, ∀ v,
      x.attr.key ≠ "reach_m".toList → x.value? = some v →
        sent.get? x.attr.key = some (scalarOf v).raw := by
    intro x hx v hOther hV
    rw [hGet, if_neg hOther,
      h.shown_iff.mpr ⟨x, hx, rfl, hV⟩]
    rfl
  refine h.draft.resupplies h.keys hMetres ?_
    (fun hOther x hx => h.noMetres hOther hx) ?_ ?_
  · intro hTransceiver
    rcases h.draft.reachValue hU hApart h.keys hTransceiver with
      ⟨x, hx, n, hKey, ⟨text, hText, hReach, _⟩, hDerived⟩
    refine ⟨text, n, ?_, hReach, hDerived⟩
    rw [← hKey]
    refine hSupplied x hx _ ?_ hText
    rw [hKey]
    decide
  · intro key raw hRaw
    rw [hGet] at hRaw
    split at hRaw
    · cases hRaw
    · rename_i hOther
      rcases Option.map_eq_some_iff.mp hRaw with ⟨v, hV, rfl⟩
      rcases h.shown_iff.mp hV with ⟨x, hx, rfl, hX⟩
      rcases h.value hx hOther with
        ⟨_, _, _, _, v', hV', _, hPrepared⟩
      rw [hX] at hV'
      cases hV'
      exact ⟨x, hx, rfl, x, Catalog.Rereads.same hPrepared⟩
  · intro x hx hOther
    rcases h.hasValue hx with ⟨v, hV⟩
    exact ⟨_, hSupplied x hx v hOther hV⟩

------------------------------------------------------------
-- Manufacturers And Models
------------------------------------------------------------

theorem Approved.manufacturerShown :
    p.manufacturer.map Manufacturer.id =
      payload.manufacturerId := by
  have hMaker := h.draft.manufacturer
  unfold Catalog.DraftManufacturer at hMaker
  split at hMaker
  · rename_i hNone
    rw [hMaker, hNone]
    rfl
  · rename_i id hSome
    rcases hMaker with ⟨m, _, rfl, hM⟩
    rw [hM, hSome]
    rfl

/- Where they are asked for, the line has both of them. -/
theorem Approved.identified
    (hFold : env.unicode.FoldsSmall)
    (hLeaf : p.category.key ∈ manufacturedLeaves) :
    payload.manufacturerId ≠ none ∧ ∃ m, model = some m ∧
      trim m = m ∧ m ≠ [] := by
  have hNeeds := h.needs hFold
  rw [decide_eq_true hLeaf] at hNeeds
  have hIdentity := h.draft.identity
  rw [Catalog.requireIdentity_stored h.model] at hIdentity
  unfold Catalog.requireIdentity at hIdentity
  split at hIdentity
  · cases hIdentity
  · rename_i hNot
    rw [not_and, not_or] at hNot
    rcases hNot hLeaf with ⟨hMaker, hStrip⟩
    have hText := Catalog.normalizeOptionalInlineText_eq_ok
      h.model
    cases hModel : model with
    | none =>
        rw [hModel] at hStrip
        exact absurd rfl hStrip
    | some m =>
        rw [hModel] at hText
        rcases Option.filter_eq_some_iff.mp hText.symm with
          ⟨hMap, hNe⟩
        rcases Option.map_eq_some_iff.mp hMap with
          ⟨w, hW, rfl⟩
        rw [h.modelSent] at hW
        unfold ItemForm.orNull at hW
        split at hW
        · cases hW
        · cases hW
          refine ⟨?_, _, rfl, ?_, of_decide_eq_true hNe⟩
          · rw [← h.manufacturerShown]
            intro hNone
            exact hMaker (Option.map_eq_none_iff.mp hNone)
          · exact (ItemForm.trim_eq_self_iff
              (Text.strip_normalize _)).mpr
                (h.clean.model hNeeds)

/- Where they are not, it has neither. -/
theorem Approved.unidentified
    (hFold : env.unicode.FoldsSmall)
    (hLeaf : p.category.key ∉ manufacturedLeaves) :
    payload.manufacturerId = none ∧ model = none := by
  have hNeeds := h.needs hFold
  rw [decide_eq_false hLeaf] at hNeeds
  refine ⟨?_, ?_⟩
  · rw [h.manufacturerId]
    exact h.composed hNeeds
  · have hBlank := h.clean.plain hNeeds
    rw [Catalog.normalizeOptionalInlineText_eq_ok h.model,
      h.modelSent]
    unfold ItemForm.orNull
    split
    · rfl
    · rw [Option.map_some, hBlank]
      rfl

------------------------------------------------------------
-- What Is Sent
------------------------------------------------------------

/- The form shows no error, and sends what it shows. -/
theorem Approved.submitted
    (hFold : env.unicode.FoldsSmall)
    {draft : ItemForm.Draft}
    (hCategory : draft.category = p.category.key)
    (hMaker : draft.manufacturer =
      p.manufacturer.map Manufacturer.id)
    (hModel : draft.model = model.getD [])
    (hName : draft.name = name)
    (hShows : ItemForm.Shows browser (formDefinitions detail)
      draft.attributes (.ofList
        (Catalog.normalizedAttributes p.values))) :
    let needed := decide (p.category.key ∈ manufacturedLeaves)
    (submitErrors browser (formDefinitions detail) needed
        draft).entries = [] ∧
      submit browser (formDefinitions detail) needed draft =
        some {
          categoryKey := p.category.key
          manufacturerId := payload.manufacturerId
          model := model
          name := trim name
          attributes := (validateDraftAttributes browser
            (formDefinitions detail)
              draft.attributes).values } := by
  have hNamed : trim name ≠ [] := by
    rcases Catalog.normalizeInlineText_eq_ok h.name with
      ⟨rfl, _⟩
    rw [h.nameSent]
    exact h.clean.name
  have hKey : draft.category ≠ [] := by
    intro hNil
    have hLeaf := h.draft.leaf.2
    rw [← hCategory, hNil] at hLeaf
    exact absurd hLeaf (by decide)
  rw [h.manufacturerShown] at hMaker
  have hIdentity : decide (p.category.key ∈
      manufacturedLeaves) = true →
        draft.manufacturer ≠ none ∧ trim draft.model ≠ [] ∧
          ItemForm.orNull (trim draft.model) = model := by
    intro hNeeds
    rcases h.identified hFold (of_decide_eq_true hNeeds) with
      ⟨hSome, m, rfl, hTrim, hNe⟩
    rw [hMaker, hModel, Option.getD_some, hTrim]
    exact ⟨hSome, hNe, if_neg hNe⟩
  have hNone := ItemForm.submitErrors_eq_nil hShows.errors hKey
    (by rw [hName]; exact hNamed)
    (fun hNeeds => ⟨(hIdentity hNeeds).1,
      (hIdentity hNeeds).2.1⟩)
  refine ⟨hNone, ?_⟩
  unfold submit
  rw [if_neg (not_not_intro hNone), hCategory, hName]
  by_cases hLeaf : p.category.key ∈ manufacturedLeaves
  · have hNeeds := decide_eq_true hLeaf
    rw [hNeeds, if_pos rfl, if_pos rfl, hMaker,
      (hIdentity hNeeds).2.2]
  · rcases h.unidentified hFold hLeaf with ⟨hNoMaker, hNoModel⟩
    rw [decide_eq_false hLeaf, hNoMaker, hNoModel]
    rfl

/- What is sent is accepted with the signature of the line. -/
theorem Approved.accepted
    (hU : env.unicode.Lawful)
    (hFold : env.unicode.FoldsSmall)
    (hApart : env.unicode.FoldsApart)
    {t : Db}
    (hSame : Catalog.SameMetadata db t)
    {draft : ItemForm.AttributeDraft}
    (hShows : ItemForm.Shows browser (formDefinitions detail)
      draft (.ofList
        (Catalog.normalizedAttributes p.values))) :
    ∃ item validated,
      ({
        categoryKey := p.category.key
        manufacturerId := payload.manufacturerId
        model := model
        name := trim name
        attributes := (validateDraftAttributes browser
          (formDefinitions detail) draft).values } :
        ItemForm.ItemWritePayload).create = .ok item ∧
      Catalog.validateItemCreatePayload env t item =
        .ok validated ∧
      validated.identitySignature = p.identitySignature := by
  have hNamed : trim name ≠ [] := by
    rcases Catalog.normalizeInlineText_eq_ok h.name with
      ⟨rfl, _⟩
    rw [h.nameSent]
    exact h.clean.name
  rcases normalizeInlineText_trim h.name hNamed with
    ⟨hNameLength, name', hName⟩
  rcases Catalog.normalizeOptionalInlineText_again h.model with
    ⟨hModel, hModelLength⟩
  rcases h.resupplies hU hApart hShows with
    ⟨derived, hDerived, hAgain⟩
  rcases Catalog.validateAttributeValues_again
    (Catalog.Draft.definitionsOf h.keys p.category.id)
      h.draft.validates hAgain with ⟨values, hValues, hSameValues⟩
  let item : Catalog.ItemCreate := ⟨p.category.key,
    payload.manufacturerId, trim name, model,
    (validateDraftAttributes browser (formDefinitions detail)
      draft).values.mapValues CatalogScalar.raw,
    Catalog.leaves_length _ h.draft.leaf.2, hNameLength,
    hModelLength⟩
  have hItemKey : item.categoryKey = p.category.key := rfl
  rcases h.draft.again_of_values hU hFold h.keys h.model hItemKey
    rfl hModel hDerived hValues hSameValues with
      ⟨q, hDraft, _, hSignature, _⟩
  have hPrepared := (Catalog.prepareStoredIdentity_iff
    h.keys).mpr ⟨derived, hDraft⟩
  rw [← Catalog.prepareStoredIdentity_congr hSame.categories
    hSame.attributes hSame.manufacturers] at hPrepared
  refine ⟨item, _, ?_,
    Procurement.validateItemCreatePayload_eq_ok_iff.mpr
      ⟨q, hPrepared, name', model, hName, hModel, rfl⟩,
    hSignature⟩
  unfold ItemForm.ItemWritePayload.create
    Catalog.ItemCreate.modelValidate
  exact dif_pos ⟨Catalog.leaves_length _ h.draft.leaf.2,
    hNameLength, fun m hm => hModelLength m hm⟩

end Facts

end Approved

end LineComposer
