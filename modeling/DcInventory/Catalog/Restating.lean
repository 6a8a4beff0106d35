import DcInventory.Catalog.Configuration
import DcInventory.Catalog.Readback

/-
  This file proves that a draft that states again what an item
  has is accepted, and changes nothing.

  Key definitions include:
    * `Catalog.StoresReach`
    * `Catalog.RestatesAttributes`
    * `Catalog.Restates`

  Key theorems include:
    * `Catalog.Draft.storesReach`
    * `Catalog.Draft.attributes_again`
    * `Catalog.Draft.again`
-/

namespace Catalog

------------------------------------------------------------
-- Distances
------------------------------------------------------------

section Reach

variable {U : Unicode}
variable {sha256 : Text → Text}
variable {s : Db}
variable {payload : ItemCreate}
variable {attributes : Dictionary Text RawValue}
variable {p : PreparedItemIdentity}
variable {itemId categoryId : Uuid}
variable {d : Dictionary Text AttributeValue}

/- White space has no distance. -/
theorem normalizeReach_blank
    (hU : U.Lawful)
    {v : Text}
    (hBlank : Text.strip v = [])
    (n : Int) :
    normalizeReach U v ≠ .ok n := by
  have hWords : Words.split Text.isSpace v =
      Words.split Text.isSpace [] := by
    rw [Words.split_eq_nil_iff.mpr
      (Text.strip_eq_nil_iff.mp hBlank)]
    rfl
  rw [normalizeReach_congr hU hWords]
  intro hOk
  cases hOk

/- White space that is not kept does not matter. -/
theorem normalizeReach_keptText
    (hU : U.Lawful)
    (attr : CategoryAttribute)
    (v : Text) :
    normalizeReach U (keptText attr v) =
      normalizeReach U v := by
  apply normalizeReach_congr hU
  unfold keptText
  split
  · exact Words.split_strip v
  · exact Text.words_normalize v

/- The text that the distance of a transceiver is read from. -/
def reachText
    (attributes : Dictionary Text RawValue) :
    Except ReachError Text :=
  match attributes.get? "reach".toList with
  | none => .ok []
  | some raw => raw.str?

/- The distance that is derived, and what becomes of it. -/
theorem deriveReach_eq :
    deriveReach U attributes =
      match reachText attributes >>= normalizeReach U with
      | .error (.value message) =>
          .error (.catalog .validation "reach_invalid".toList
            message)
      | .error .overflow => .error .decimalOverflow
      | .ok n =>
          match attributes.get? "reach_m".toList with
          | some raw =>
              if raw.equals n then
                .ok (attributes.set "reach_m".toList (.int n))
              else
                .error (CatalogError.validation "reach_mismatch"
                  "normalized reach contradicts display value")
          | none =>
              .ok (attributes.set "reach_m".toList
                (.int n)) := by
  unfold deriveReach reachText
  cases attributes.get? "reach".toList with
  | none => rfl
  | some raw => rfl

theorem deriveReach_eq_ok_iff
    {attributes' : Dictionary Text RawValue} :
    deriveReach U attributes = .ok attributes' ↔
      ∃ text n, reachText attributes = .ok text ∧
        normalizeReach U text = .ok n ∧
        (∀ raw, attributes.get? "reach_m".toList = some raw →
          raw.equals n = true) ∧
        attributes' =
          attributes.set "reach_m".toList (.int n) := by
  rw [deriveReach_eq]
  constructor
  · intro h
    split at h
    · cases h
    · cases h
    · rename_i n hReach
      rcases Except.bind_eq_ok_iff.mp hReach with
        ⟨text, hText, hOk⟩
      refine ⟨text, n, hText, hOk, ?_⟩
      split at h
      · rename_i raw hRaw
        split at h
        · rename_i hEquals
          cases h
          refine ⟨?_, rfl⟩
          intro raw' hRaw'
          rw [hRaw] at hRaw'
          cases hRaw'
          exact hEquals
        · cases h
      · rename_i hNone
        cases h
        refine ⟨?_, rfl⟩
        intro raw hRaw
        rw [hNone] at hRaw
        cases hRaw
  · rintro ⟨text, n, hText, hOk, hEquals, rfl⟩
    rw [hText, Except.ok_bind, hOk]
    simp only
    cases hRaw : attributes.get? "reach_m".toList with
    | none => rfl
    | some raw => simp only [hEquals raw hRaw, if_true]

/- The distance of a transceiver in its attributes. -/
def StoresReach
    (U : Unicode)
    (d : Dictionary Text AttributeValue) : Prop :=
  ∃ text n, d.get? "reach".toList = some (.text text) ∧
    normalizeReach U text = .ok n ∧
    d.get? "reach_m".toList = some (.integer n)

/- What is read back for a definition that is supplied. -/
theorem ReadsBack.get?_of_supplied
    {attrs definitions : List CategoryAttribute}
    {values : List PreparedAttributeValue}
    (hBack : ReadsBack itemId categoryId values d)
    (hStored : StoredExactly U attrs definitions categoryId
      attributes values)
    {a : CategoryAttribute}
    {raw : RawValue}
    (ha : a ∈ definitions)
    (hRaw : attributes.get? a.key = some raw)
    (hBlank : ¬ BlankFor a raw) :
    ∃ x row, x.attr = a ∧ Represents U raw x ∧
      itemAttributeRow itemId categoryId x = some row ∧
      ∀ v, storedAttributeValue a row = .ok v →
        d.get? a.key = some v := by
  rcases hStored.single a ha raw hRaw hBlank with
    ⟨x, hx, rfl, hRep⟩
  rcases hStored.rows itemId with ⟨rows, hMap, _⟩
  rcases (Option.mapM_eq_some_iff.mp hMap).exists_right hx with
    ⟨row, _, hRow⟩
  exact ⟨x, row, rfl, hRep, hRow, fun v hv =>
    (hBack x.attr.key v).mpr ⟨x, hx, rfl, row, hRow, hv⟩⟩

/- A transceiver has the distance that its text says. -/
theorem Draft.storesReach
    (hU : U.Lawful)
    (hKeys : CatalogKeys s)
    (hConfigured : Configured s)
    (h : Draft U sha256 s payload attributes p)
    (hTransceiver :
      "transceiver_".toList.isPrefixOf p.category.key = true)
    (hBack : ReadsBack itemId p.category.id p.values d) :
    StoresReach U d := by
  have hStored := h.stored hKeys
  have hDerives := h.derives
  unfold derivedAttributes at hDerives
  rw [if_pos hTransceiver] at hDerives
  rcases deriveReach_eq_ok_iff.mp hDerives with
    ⟨text, n, hText, hReach, _, rfl⟩
  have hDefinition : ∀ key raw,
      (payload.attributes.set "reach_m".toList
        (.int n)).get? key = some raw →
      ∃ a ∈ definitionsOfCategory s p.category.id,
        a.key = key := by
    intro key raw hRaw
    exact hStored.known key (Dictionary.mem_keys.mpr ⟨raw, hRaw⟩)
  have hMetres : (payload.attributes.set "reach_m".toList
      (.int n)).get? "reach_m".toList = some (.int n) := by
    rw [Dictionary.get?_set, if_pos rfl]
  have hOther : (payload.attributes.set "reach_m".toList
      (.int n)).get? "reach".toList =
        payload.attributes.get? "reach".toList := by
    rw [Dictionary.get?_set, if_neg (by decide)]
  -- the text of the distance
  have hShown : ∃ v, d.get? "reach".toList = some (.text v) ∧
      normalizeReach U v = .ok n := by
    cases hRaw : payload.attributes.get? "reach".toList with
    | none =>
        unfold reachText at hText
        rw [hRaw] at hText
        cases hText
        exact absurd hReach (normalizeReach_blank hU rfl n)
    | some raw =>
        rw [hRaw] at hOther
        rcases hDefinition _ _ hOther with ⟨a, ha, hKey⟩
        have hType := hConfigured.reachText
          (mem_definitionsOfCategory.mp ha).1 hKey
        have hBlank : ¬ BlankFor a raw := by
          rintro ⟨v, rfl, hNil, _⟩
          unfold reachText at hText
          rw [hRaw] at hText
          cases hText
          exact normalizeReach_blank hU hNil n hReach
        rw [← hKey] at hOther
        rcases hBack.get?_of_supplied hStored ha hOther hBlank
          with ⟨x, row, rfl, hRep, hRow, hGet⟩
        unfold Represents at hRep
        simp only [hType] at hRep
        rcases hRep with ⟨v, rfl, _, hx⟩
        unfold reachText at hText
        rw [hRaw] at hText
        have hSame : v = text := Except.ok.inj hText
        subst hSame
        refine ⟨keptText x.attr v, ?_, ?_⟩
        · rw [← hKey]
          apply hGet
          have hColumn := (itemAttributeRow_eq hRow).2.2.2.1
          unfold storedAttributeValue
          rw [hx] at hColumn
          simp only [hType, hColumn, Option.map_some]
        · rw [normalizeReach_keptText hU]
          exact hReach
  rcases hShown with ⟨v, hv, hOk⟩
  refine ⟨v, n, hv, hOk, ?_⟩
  rcases hDefinition _ _ hMetres with ⟨a, ha, hKey⟩
  have hType := (hConfigured.reach
    (mem_definitionsOfCategory.mp ha).1 hKey).1
  have hBlank : ¬ BlankFor a (.int n) := by
    rintro ⟨w, hw, _⟩
    cases hw
  have hSupplied : (payload.attributes.set "reach_m".toList
      (.int n)).get? a.key = some (.int n) := by
    rw [hKey]
    exact hMetres
  rcases hBack.get?_of_supplied hStored ha hSupplied hBlank with
    ⟨x, row, rfl, hRep, hRow, hGet⟩
  unfold Represents at hRep
  simp only [hType] at hRep
  rcases hRep with ⟨m, hm, hx⟩
  cases hm
  rw [← hKey]
  apply hGet
  have hColumn := (itemAttributeRow_eq hRow).2.2.2.2.1
  unfold storedAttributeValue
  rw [hx] at hColumn
  simp only [hType, hColumn, Option.map_some]

end Reach

------------------------------------------------------------
-- Attributes
------------------------------------------------------------

section Attributes

variable {U : Unicode}
variable {sha256 : Text → Text}
variable {s : Db}
variable {payload : ItemCreate}
variable {attributes : Dictionary Text RawValue}
variable {p : PreparedItemIdentity}
variable {itemId : Uuid}
variable {stored : Dictionary Text AttributeValue}

/-
  The attributes as they were supplied, or as they are stored,
  with or without the distance that is derived.
-/
inductive RestatesAttributes
    (supplied : Dictionary Text RawValue)
    (stored : Dictionary Text AttributeValue) :
    Dictionary Text RawValue → Prop where
| supplied : RestatesAttributes supplied stored supplied
| stored : RestatesAttributes supplied stored
    (stored.mapValues AttributeValue.raw)
| merged : RestatesAttributes supplied stored
    ((stored.mapValues AttributeValue.raw).erase
      "reach_m".toList)

theorem Draft.definitionsOf
    (hKeys : CatalogKeys s)
    (categoryId : Uuid) :
    DefinitionsOf s.categoryAttributes
      (definitionsOfCategory s categoryId) categoryId :=
  ⟨hKeys.attributes,
    definitionsOfCategory_keys hKeys categoryId,
    fun _ => mem_definitionsOfCategory⟩

/- Only a transceiver stores a distance in metres. -/
theorem Draft.reach_absent
    (hKeys : CatalogKeys s)
    (hConfigured : Configured s)
    (h : Draft U sha256 s payload attributes p)
    (hOther : ¬ "transceiver_".toList.isPrefixOf
      p.category.key = true)
    (hBack : ReadsBack itemId p.category.id p.values stored) :
    stored.get? "reach_m".toList = none := by
  cases hGet : stored.get? "reach_m".toList with
  | none => rfl
  | some v =>
      rcases (hBack _ v).mp hGet with ⟨x, hx, hKey, _⟩
      have hDef := ((h.stored hKeys).only x hx).1
      rcases mem_definitionsOfCategory.mp hDef with
        ⟨hAttr, hCategory⟩
      rcases (hConfigured.reach hAttr hKey).2 with
        ⟨c, hc, hId, hPrefix⟩
      have hSame := List.inj_on_of_nodup_map hKeys.categories
        hc h.category (hId.trans hCategory)
      rw [hSame] at hPrefix
      exact absurd hPrefix hOther

/- The distance that is derived again is the one stored. -/
theorem Draft.derives_again
    (hU : U.Lawful)
    (hKeys : CatalogKeys s)
    (hConfigured : Configured s)
    (h : Draft U sha256 s payload attributes p)
    (hBack : ReadsBack itemId p.category.id p.values stored)
    {given : Dictionary Text RawValue}
    (hGiven : ∀ key, given.get? key =
        (stored.mapValues AttributeValue.raw).get? key ∨
      (key = "reach_m".toList ∧ given.get? key = none)) :
    ∃ derived, derivedAttributes U p.category given =
        .ok derived ∧
      ∀ key, derived.get? key =
        (stored.mapValues AttributeValue.raw).get? key := by
  unfold derivedAttributes
  by_cases hTransceiver :
      "transceiver_".toList.isPrefixOf p.category.key = true
  · rcases h.storesReach hU hKeys hConfigured hTransceiver hBack
      with ⟨text, n, hText, hReach, hMetres⟩
    have hShown : given.get? "reach".toList =
        some (.str text) := by
      rcases hGiven "reach".toList with hSame | ⟨hEq, _⟩
      · rw [hSame, Dictionary.get?_mapValues, hText]
        rfl
      · exact absurd hEq (by decide)
    have hRead : reachText given = .ok text := by
      unfold reachText
      rw [hShown]
      rfl
    rw [if_pos hTransceiver]
    refine ⟨given.set "reach_m".toList (.int n),
      deriveReach_eq_ok_iff.mpr
        ⟨text, n, hRead, hReach, ?_, rfl⟩, ?_⟩
    · intro raw hRaw
      rcases hGiven "reach_m".toList with hSame | ⟨_, hNone⟩
      · rw [hSame, Dictionary.get?_mapValues, hMetres] at hRaw
        cases hRaw
        exact decide_eq_true rfl
      · rw [hNone] at hRaw
        cases hRaw
    · intro key
      rw [Dictionary.get?_set]
      split
      · rename_i hKey
        rw [hKey, Dictionary.get?_mapValues, hMetres]
        rfl
      · rename_i hKey
        rcases hGiven key with hSame | ⟨hEq, _⟩
        · exact hSame
        · exact absurd hEq hKey
  · rw [if_neg hTransceiver]
    refine ⟨given, rfl, ?_⟩
    intro key
    rcases hGiven key with hSame | ⟨rfl, hNone⟩
    · exact hSame
    · rw [hNone, Dictionary.get?_mapValues,
        h.reach_absent hKeys hConfigured hTransceiver hBack]
      rfl

/- Attributes that are stated again are accepted again. -/
theorem Draft.attributes_again
    (hU : U.Lawful)
    (hKeys : CatalogKeys s)
    (hConfigured : Configured s)
    (h : Draft U sha256 s payload attributes p)
    (hBack : ReadsBack itemId p.category.id p.values stored)
    {given : Dictionary Text RawValue}
    (hGiven : RestatesAttributes payload.attributes stored
      given) :
    ∃ derived values,
      derivedAttributes U p.category given = .ok derived ∧
      validateAttributeValues U p.category.id
        (definitionsOfCategory s p.category.id) derived =
          .ok values ∧
      SameValues U p.values values := by
  have hDefs := Draft.definitionsOf hKeys p.category.id
  have hAgain : (∀ key, given.get? key =
        (stored.mapValues AttributeValue.raw).get? key ∨
      (key = "reach_m".toList ∧ given.get? key = none)) →
      ∃ derived values,
        derivedAttributes U p.category given = .ok derived ∧
        validateAttributeValues U p.category.id
          (definitionsOfCategory s p.category.id) derived =
            .ok values ∧
        SameValues U p.values values := by
    intro hSame
    rcases h.derives_again hU hKeys hConfigured hBack hSame with
      ⟨derived, hDerived, hGet⟩
    have hResupplies := (hBack.resupplies hDefs
      h.validates).congr hGet
    rcases validateAttributeValues_again hDefs h.validates
      hResupplies with ⟨values, hValues, hSameValues⟩
    exact ⟨derived, values, hDerived, hValues, hSameValues⟩
  cases hGiven with
  | supplied =>
      exact ⟨attributes, p.values, h.derives, h.validates,
        SameValues.refl hDefs h.validates⟩
  | stored => exact hAgain fun key => Or.inl rfl
  | merged =>
      apply hAgain
      intro key
      rw [Dictionary.get?_erase]
      split
      · rename_i hKey
        exact Or.inr ⟨hKey, rfl⟩
      · exact Or.inl rfl

end Attributes

------------------------------------------------------------
-- Drafts
------------------------------------------------------------

section Drafts

/- A text that was normalised is normalised again. -/
theorem normalizeInlineText_again
    {value w : Text}
    {field : String}
    {n : Nat}
    (h : normalizeInlineText value field n = .ok w) :
    normalizeInlineText w field n = .ok w ∧ w.length ≤ n := by
  rcases normalizeInlineText_eq_ok h with ⟨rfl, hNe⟩
  have hLength : (Text.normalize value).length ≤ n := by
    unfold normalizeInlineText at h
    simp only [if_neg hNe] at h
    split at h
    · cases h
    · omega
  refine ⟨?_, hLength⟩
  unfold normalizeInlineText
  simp only [Text.normalize_normalize, if_neg hNe,
    if_neg (Nat.not_lt.mpr hLength)]

theorem normalizeOptionalInlineText_again
    {value w : Option Text}
    {field : String}
    {n : Nat}
    (h : normalizeOptionalInlineText field n value = .ok w) :
    normalizeOptionalInlineText field n w = .ok w ∧
      ∀ v, w = some v → v.length ≤ n := by
  cases value with
  | none =>
      cases h
      exact ⟨rfl, fun v hv => by cases hv⟩
  | some v =>
      unfold normalizeOptionalInlineText at h
      simp only at h
      split at h
      · cases h
        exact ⟨rfl, fun v hv => by cases hv⟩
      · rename_i hNe
        split at h
        · cases h
        · rename_i hLength
          cases h
          refine ⟨?_, ?_⟩
          · unfold normalizeOptionalInlineText
            simp only [Text.normalize_normalize, if_neg hNe,
              if_neg hLength]
          · intro w hw
            cases hw
            omega

/- A model has the identity of what is stored for it. -/
theorem identityOfModel_stored
    {U : Unicode}
    (hU : U.Lawful)
    {value w : Option Text}
    {field : String}
    {n : Nat}
    (h : normalizeOptionalInlineText field n value = .ok w) :
    identityOfModel U value = identityOfModel U w := by
  have hStored := normalizeOptionalInlineText_eq_ok h
  cases value with
  | none =>
      rw [hStored]
      rfl
  | some v =>
      by_cases hNil : Text.normalize v = []
      · rw [hStored]
        simp [Option.filter, hNil, identityOfModel,
          Text.normalize_eq_nil_iff_strip.mp hNil]
      · have hStrip : Text.strip v ≠ [] := fun hEq =>
          hNil (Text.normalize_eq_nil_iff_strip.mpr hEq)
        have hSome : w = some (Text.normalize v) := by
          rw [hStored]
          simp [Option.filter, hNil]
        rw [hSome, identityOfModel, if_neg hStrip,
          identityOfModel, if_neg (by
            rw [Text.strip_normalize]
            exact hNil),
          identityText_normalize hU]

/- What identity requires of a model, it has when stored. -/
theorem requireIdentity_stored
    {category : Category}
    {manufacturer : Option Manufacturer}
    {value w : Option Text}
    {field : String}
    {n : Nat}
    (h : normalizeOptionalInlineText field n value = .ok w) :
    requireIdentity category manufacturer value =
      requireIdentity category manufacturer w := by
  have hBlank : Text.strip (value.getD []) = [] ↔
      Text.strip (w.getD []) = [] := by
    rw [normalizeOptionalInlineText_eq_ok h]
    cases value with
    | none => rfl
    | some v =>
        by_cases hNil : Text.normalize v = []
        · have hStrip := Text.normalize_eq_nil_iff_strip.mp hNil
          simp [Option.filter, hNil, hStrip]
          rfl
        · have hStrip : Text.strip v ≠ [] := fun hEq =>
            hNil (Text.normalize_eq_nil_iff_strip.mpr hEq)
          simp [Option.filter, hNil, hStrip]
  unfold requireIdentity
  simp only [hBlank]

variable {U : Unicode}
variable {sha256 : Text → Text}
variable {s : Db}
variable {payload given : ItemCreate}
variable {attributes : Dictionary Text RawValue}
variable {p : PreparedItemIdentity}
variable {itemId : Uuid}
variable {stored : Dictionary Text AttributeValue}
variable {model : Option Text}

/- A draft that states again what another one has stored. -/
structure Restates
    (payload : ItemCreate)
    (category : Category)
    (model : Option Text)
    (stored : Dictionary Text AttributeValue)
    (given : ItemCreate) : Prop where
  categoryKey : given.categoryKey = category.key
  manufacturer : given.manufacturerId = payload.manufacturerId
  model : normalizeOptionalInlineText "model" 255 given.model =
    .ok model
  attributes : RestatesAttributes payload.attributes stored
    given.attributes

/- A draft with the same values has the same identity. -/
theorem Draft.again_of_values
    (hU : U.Lawful)
    (hFold : U.FoldsSmall)
    (hKeys : CatalogKeys s)
    (h : Draft U sha256 s payload attributes p)
    (hModel : normalizeOptionalInlineText "model" 255
      payload.model = .ok model)
    (hCategory : given.categoryKey = p.category.key)
    (hManufacturer :
      given.manufacturerId = payload.manufacturerId)
    (hGiven : normalizeOptionalInlineText "model" 255
      given.model = .ok model)
    {derived : Dictionary Text RawValue}
    (hDerived : derivedAttributes U p.category given.attributes =
      .ok derived)
    {values : List PreparedAttributeValue}
    (hValues : validateAttributeValues U p.category.id
      (definitionsOfCategory s p.category.id) derived =
        .ok values)
    (hSame : SameValues U p.values values) :
    ∃ q, Draft U sha256 s given derived q ∧
      q.category = p.category ∧
      q.identitySignature = p.identitySignature ∧
      SameValues U p.values q.values := by
  let q : PreparedItemIdentity :=
    ⟨p.category, p.manufacturer, values,
      itemSignature U sha256 p.category.key
        (p.manufacturer.map Manufacturer.name) given.model
        (normalizedAttributes values)⟩
  have hDraft : Draft U sha256 s given derived q := by
    refine ⟨h.category, ?_, h.leaf, ?_, ?_, hDerived, hValues,
      rfl⟩
    · rw [hCategory]
      exact normalizeCategoryKey_leaf hFold h.leaf.2
    · rw [hManufacturer]
      exact h.manufacturer
    · change requireIdentity p.category p.manufacturer
        given.model = _
      rw [requireIdentity_stored hGiven,
        ← requireIdentity_stored hModel]
      exact h.identity
  refine ⟨q, hDraft, rfl, ?_, hSame⟩
  have hIdentity : identityOfModel U given.model =
      identityOfModel U payload.model := by
    rw [identityOfModel_stored hU hGiven,
      identityOfModel_stored hU hModel]
  have hFields := hSame.signedFields (h.stored hKeys).distinct
  rw [hDraft.signature_eq hU hKeys, h.signature_eq hU hKeys]
  simp only [identityOf, hIdentity]
  rw [← hFields]

/- It is prepared to the same identity and the same values. -/
theorem Draft.again
    (hU : U.Lawful)
    (hFold : U.FoldsSmall)
    (hKeys : CatalogKeys s)
    (hConfigured : Configured s)
    (h : Draft U sha256 s payload attributes p)
    (hModel : normalizeOptionalInlineText "model" 255
      payload.model = .ok model)
    (hBack : ReadsBack itemId p.category.id p.values stored)
    (hGiven : Restates payload p.category model stored given) :
    ∃ derived q, Draft U sha256 s given derived q ∧
      q.category = p.category ∧
      q.identitySignature = p.identitySignature ∧
      SameValues U p.values q.values := by
  rcases h.attributes_again hU hKeys hConfigured hBack
    hGiven.attributes with ⟨derived, values, hDerived, hValues,
      hSame⟩
  exact ⟨derived, h.again_of_values hU hFold hKeys hModel
    hGiven.categoryKey hGiven.manufacturer hGiven.model hDerived
    hValues hSame⟩

end Drafts

end Catalog
