import DcInventory.Catalog.CanonicalNames
import DcInventory.Catalog.Drafts
import DcInventory.Core.UnicodeWords

/-
  This file proves that the signatures of two drafts are
  equal exactly if the drafts describe the same equipment.

  Key definitions include:
    * `Catalog.IdentityValue`
    * `Catalog.EquipmentIdentity`
    * `Catalog.identityOf`

  Key theorems include:
    * `Catalog.sortKeys_eq_iff`
    * `Catalog.signature_eq_iff`
    * `Catalog.equipment_identity_is_exact`
-/

------------------------------------------------------------
-- Sorted Fields
------------------------------------------------------------

section Sorting

variable {α : Type}

theorem mem_sortKeys
    {x : Text × α}
    {fields : List (Text × α)} :
    x ∈ sortKeys fields ↔ x ∈ fields :=
  List.mem_insertionSort _

theorem sortKeys_perm (fields : List (Text × α)) :
    (sortKeys fields).Perm fields :=
  List.perm_insertionSort _ fields

/- Fields with different keys are sorted in one way only. -/
theorem sortKeys_eq_of_perm
    {fields fields' : List (Text × α)}
    (hKeys : (fields.map Prod.fst).Nodup)
    (hPerm : fields.Perm fields') :
    sortKeys fields = sortKeys fields' := by
  have hTrans : IsTrans (Text × α)
      (fun a b => Text.le a.1 b.1 = true) :=
    ⟨fun _ _ _ => Text.le_trans⟩
  have hTotal : Std.Total
      (fun a b : Text × α => Text.le a.1 b.1 = true) :=
    ⟨fun a b => Text.le_total a.1 b.1⟩
  apply @List.Perm.eq_of_pairwise _
    (fun a b : Text × α => Text.le a.1 b.1 = true)
  · intro a b ha hb hab hba
    have hEq : a.1 = b.1 := Text.le_antisymm hab hba
    exact List.inj_on_of_nodup_map hKeys
      (mem_sortKeys.mp ha)
      (hPerm.mem_iff.mpr (mem_sortKeys.mp hb)) hEq
  · exact List.pairwise_insertionSort _ _
  · exact List.pairwise_insertionSort _ _
  · exact (sortKeys_perm fields).trans
      (hPerm.trans (sortKeys_perm fields').symm)

/- Sorted fields are equal if the fields are the same. -/
theorem sortKeys_eq_iff
    {fields fields' : List (Text × α)}
    (hKeys : (fields.map Prod.fst).Nodup)
    (hKeys' : (fields'.map Prod.fst).Nodup) :
    sortKeys fields = sortKeys fields' ↔
      ∀ x, x ∈ fields ↔ x ∈ fields' := by
  constructor
  · intro h x
    rw [← mem_sortKeys, h, mem_sortKeys]
  · intro h
    apply sortKeys_eq_of_perm hKeys
    rw [List.perm_ext_iff_of_nodup (List.Nodup.of_map _ hKeys)
      (List.Nodup.of_map _ hKeys')]
    exact h

end Sorting

namespace Catalog

------------------------------------------------------------
-- Identities
------------------------------------------------------------

/- A value up to the way it is written. -/
inductive IdentityValue where
| text (value : Text)
| integer (value : Int)
| decimal (value : ℚ)
| boolean (value : Bool)

/-
  What a draft describes: texts by their identity texts,
  decimals by their values.
-/
structure EquipmentIdentity where
  categoryKey : Text
  manufacturer : Text
  model : Text
  attributes : Text → Option IdentityValue

def identityOfValue
    (U : Unicode) : AttributeValue → IdentityValue
| .text value => .text (identityText U value)
| .integer value => .integer value
| .decimal value => .decimal value.value
| .boolean value => .boolean value

/- The value of an attribute among the prepared values. -/
def attributeOf
    (values : List PreparedAttributeValue)
    (key : Text) : Option AttributeValue :=
  (Table.find Prod.fst key (normalizedAttributes values)).map
    Prod.snd

/- The identity text of a manufacturer, empty for none. -/
def identityOfManufacturer
    (U : Unicode) : Option Manufacturer → Text
| none => []
| some m => identityText U m.name

/- The identity text of a model, empty for a blank one. -/
def identityOfModel (U : Unicode) : Option Text → Text
| none => []
| some model =>
    if Text.strip model = [] then []
    else identityText U model

/- The equipment that an accepted draft describes. -/
def identityOf
    (U : Unicode)
    (model : Option Text)
    (p : PreparedItemIdentity) : EquipmentIdentity where
  categoryKey := p.category.key
  manufacturer := identityOfManufacturer U p.manufacturer
  model := identityOfModel U model
  attributes key :=
    (attributeOf p.values key).map (identityOfValue U)

/- A blank text has an empty identity text. -/
theorem identityText_blank
    {U : Unicode}
    (hU : U.Lawful)
    {value : Text}
    (hBlank : Text.strip value = []) :
    identityText U value = [] := by
  rw [identityText, hU.normalize_nfkc_blank hBlank]
  rfl

theorem identityOfManufacturer_eq
    {U : Unicode}
    (hU : U.Lawful)
    (m : Option Manufacturer) :
    identityText U ((m.map Manufacturer.name).getD []) =
      identityOfManufacturer U m := by
  cases m with
  | none => exact identityText_blank hU rfl
  | some m => rfl

theorem identityOfModel_eq
    {U : Unicode}
    (hU : U.Lawful)
    (model : Option Text) :
    identityText U (model.getD []) =
      identityOfModel U model := by
  cases model with
  | none => exact identityText_blank hU rfl
  | some m =>
      rw [identityOfModel]
      split
      · rename_i hBlank
        exact identityText_blank hU hBlank
      · rfl

------------------------------------------------------------
-- Values
------------------------------------------------------------

section Values

variable {U : Unicode}

/- The type of a value. -/
def IsOfType
    (dataType : AttributeDataType)
    (v : AttributeValue) : Prop :=
  match dataType with
  | .text | .enum => ∃ t, v = .text t ∧ t ≠ []
  | .integer => ∃ n, v = .integer n
  | .decimal => ∃ d, v = .decimal d
  | .boolean => ∃ b, v = .boolean b

/- An accepted value is of the type of its definition. -/
theorem value_of_represents
    {raw : RawValue}
    {p : PreparedAttributeValue}
    (h : Represents U raw p) :
    ∃ v, p.value? = some v ∧ IsOfType p.attr.dataType v := by
  unfold Represents at h
  unfold IsOfType
  cases hType : p.attr.dataType
  all_goals
    simp only [hType] at h ⊢
  · rcases h with ⟨t, _, hNe, hEq⟩
    refine ⟨.text (keptText p.attr t), ?_, _, rfl, hNe⟩
    rw [hEq]
    rfl
  · rcases h with ⟨n, _, hEq⟩
    refine ⟨.integer n, ?_, n, rfl⟩
    rw [hEq]
    rfl
  · rcases h with ⟨d, _, hEq⟩
    refine ⟨.decimal d, ?_, d, rfl⟩
    rw [hEq]
    rfl
  · rcases h with ⟨b, _, hEq⟩
    refine ⟨.boolean b, ?_, b, rfl⟩
    rw [hEq]
    rfl
  · rcases h with ⟨t, _, hNe, hEq⟩
    refine ⟨.text (Text.normalize t), ?_, _, rfl, hNe⟩
    rw [hEq]
    rfl

/- Values that are the same stand for the same text. -/
theorem identityValue_of_eq
    {v v' : AttributeValue}
    (h : identityOfValue U v = identityOfValue U v') :
    identityValue U v = identityValue U v' := by
  cases v <;> cases v' <;>
    simp only [identityOfValue, IdentityValue.text.injEq,
      IdentityValue.integer.injEq, IdentityValue.decimal.injEq,
      IdentityValue.boolean.injEq, reduceCtorEq] at h
  · simp only [identityValue, h]
  · simp only [identityValue, h]
  · simp only [identityValue,
      (Decimal.canonical_eq_iff _ _).mpr h]
  · simp only [identityValue, h]

/- Values of one type are told apart by their texts. -/
theorem identityValue_eq_iff
    {dataType : AttributeDataType}
    {v v' : AttributeValue}
    (hv : IsOfType dataType v)
    (hv' : IsOfType dataType v') :
    identityValue U v = identityValue U v' ↔
      identityOfValue U v = identityOfValue U v' := by
  refine ⟨?_, identityValue_of_eq⟩
  intro h
  cases dataType
  case text | enum =>
    rcases hv with ⟨t, rfl, _⟩
    rcases hv' with ⟨t', rfl, _⟩
    exact congrArg IdentityValue.text (Json.str.inj h)
  case integer =>
    rcases hv with ⟨n, rfl⟩
    rcases hv' with ⟨n', rfl⟩
    exact congrArg IdentityValue.integer (Json.int.inj h)
  case decimal =>
    rcases hv with ⟨d, rfl⟩
    rcases hv' with ⟨d', rfl⟩
    exact congrArg IdentityValue.decimal
      ((Decimal.canonical_eq_iff d d').mp (Json.str.inj h))
  case boolean =>
    rcases hv with ⟨b, rfl⟩
    rcases hv' with ⟨b', rfl⟩
    exact congrArg IdentityValue.boolean (Json.bool.inj h)

end Values

------------------------------------------------------------
-- Drafts
------------------------------------------------------------

section Drafts

variable {U : Unicode}
variable {sha256 : Text → Text}
variable {db : Db}

/- The keys of attributes are those of their values. -/
theorem normalizedAttributes_keys
    (values : List PreparedAttributeValue) :
    ((normalizedAttributes values).map Prod.fst).Sublist
      (values.map (fun p => p.attr.key)) := by
  induction values with
  | nil => exact List.Sublist.slnil
  | cons p ps ih =>
      unfold normalizedAttributes at ih ⊢
      rw [List.filterMap_cons]
      cases p.value? with
      | none => exact List.Sublist.cons _ ih
      | some v => exact List.Sublist.cons_cons _ ih

theorem mem_normalizedAttributes
    {values : List PreparedAttributeValue}
    {key : Text}
    {v : AttributeValue} :
    (key, v) ∈ normalizedAttributes values ↔
      ∃ p ∈ values, p.attr.key = key ∧ p.value? = some v := by
  unfold normalizedAttributes
  rw [List.mem_filterMap]
  constructor
  · rintro ⟨p, hp, hEq⟩
    rcases Option.map_eq_some_iff.mp hEq with ⟨v', hv, hPair⟩
    cases hPair
    exact ⟨p, hp, rfl, hv⟩
  · rintro ⟨p, hp, rfl, hv⟩
    exact ⟨p, hp, by rw [hv]; rfl⟩

/- The attributes that the signature of a draft covers. -/
def signedFields
    (U : Unicode)
    (values : List PreparedAttributeValue) :
    List (Text × Json) :=
  (normalizedAttributes values).map (fun f =>
    (f.1, identityValue U f.2))

/- Values of a draft have different keys and their types. -/
structure Typed
    (definitions : List CategoryAttribute)
    (values : List PreparedAttributeValue) : Prop where
  keys : ((normalizedAttributes values).map Prod.fst).Nodup
  types : ∀ key v, (key, v) ∈ normalizedAttributes values →
    ∃ a ∈ definitions, a.key = key ∧ IsOfType a.dataType v

theorem Draft.typed
    (hKeys : CatalogKeys db)
    {payload : ItemCreate}
    {attributes : Dictionary Text RawValue}
    {p : PreparedItemIdentity}
    (h : Draft U sha256 db payload attributes p) :
    Typed (definitionsOfCategory db p.category.id)
      p.values := by
  have hStored := h.stored hKeys
  constructor
  · exact hStored.distinct.sublist
      (normalizedAttributes_keys p.values)
  · intro key v hMem
    rcases mem_normalizedAttributes.mp hMem with
      ⟨x, hx, rfl, hv⟩
    rcases hStored.only x hx with ⟨hDef, raw, _, hRaw⟩
    rcases value_of_represents hRaw with ⟨v', hv', hType⟩
    rw [hv] at hv'
    cases hv'
    exact ⟨x.attr, hDef, rfl, hType⟩

/- No value of a draft is an empty text. -/
theorem Typed.filter
    {definitions : List CategoryAttribute}
    {values : List PreparedAttributeValue}
    (h : Typed definitions values) :
    (normalizedAttributes values).filter (fun field =>
      decide (field.2 ≠ .text [])) =
        normalizedAttributes values := by
  rw [List.filter_eq_self]
  rintro ⟨key, v⟩ hMem
  rcases h.types key v hMem with ⟨a, _, _, hType⟩
  rw [decide_eq_true_eq]
  rintro rfl
  unfold IsOfType at hType
  cases hData : a.dataType
  all_goals
    simp only [hData] at hType
  case text | enum =>
    rcases hType with ⟨t, hEq, hNe⟩
    cases hEq
    exact hNe rfl
  all_goals
    rcases hType with ⟨x, hEq⟩
    cases hEq

/- What a draft's signature is the digest of. -/
theorem Draft.signature_eq
    (hU : U.Lawful)
    (hKeys : CatalogKeys db)
    {payload : ItemCreate}
    {attributes : Dictionary Text RawValue}
    {p : PreparedItemIdentity}
    (h : Draft U sha256 db payload attributes p) :
    p.identitySignature = sha256 (Json.dumps (.ofItems
      [.str p.category.key,
        .str (identityOf U payload.model p).manufacturer,
        .str (identityOf U payload.model p).model,
        .ofFields (sortKeys (signedFields U p.values))])) := by
  rw [h.signature, itemSignature]
  simp only [(h.typed hKeys).filter,
    identityOfManufacturer_eq hU, identityOfModel_eq hU]
  rfl

theorem signedFields_keys
    {definitions : List CategoryAttribute}
    {values : List PreparedAttributeValue}
    (h : Typed definitions values) :
    ((signedFields U values).map Prod.fst).Nodup := by
  unfold signedFields
  rw [List.map_map]
  exact h.keys

/- An attribute is found by its key. -/
theorem attributeOf_eq_some_iff
    {definitions : List CategoryAttribute}
    {values : List PreparedAttributeValue}
    (h : Typed definitions values)
    {key : Text}
    {v : AttributeValue} :
    attributeOf values key = some v ↔
      (key, v) ∈ normalizedAttributes values := by
  unfold attributeOf
  constructor
  · intro hFind
    rcases Option.map_eq_some_iff.mp hFind with
      ⟨⟨k, v'⟩, hPair, rfl⟩
    have hKey := Table.key_of_find hPair
    cases hKey
    exact Table.mem_of_find hPair
  · intro hMem
    have hFind := Table.find_of_mem h.keys hMem
    rw [hFind]
    rfl

/- Two maps of values with the same signed fields. -/
theorem signedFields_iff
    {definitions : List CategoryAttribute}
    (hDefs :
      (definitions.map CategoryAttribute.key).Nodup)
    {values values' : List PreparedAttributeValue}
    (h : Typed definitions values)
    (h' : Typed definitions values') :
    (∀ x, x ∈ signedFields U values ↔
      x ∈ signedFields U values') ↔
    ∀ key, (attributeOf values key).map (identityOfValue U) =
      (attributeOf values' key).map (identityOfValue U) := by
  -- one inclusion of fields, for either direction
  have hHalf : ∀ {ws ws' : List PreparedAttributeValue},
      Typed definitions ws → Typed definitions ws' →
      (∀ x, x ∈ signedFields U ws →
        x ∈ signedFields U ws') →
      ∀ key v, attributeOf ws key = some v →
        ∃ v', attributeOf ws' key = some v' ∧
          identityOfValue U v = identityOfValue U v' := by
    intro ws ws' hTyped hTyped' hSub key v hv
    have hMem := (attributeOf_eq_some_iff hTyped).mp hv
    have hField : (key, identityValue U v) ∈
        signedFields U ws' :=
      hSub _ (List.mem_map.mpr ⟨(key, v), hMem, rfl⟩)
    rcases List.mem_map.mp hField with ⟨⟨k, v'⟩, hMem', hEq⟩
    rcases Prod.mk.inj hEq with ⟨hName, hJson⟩
    have hName' : k = key := hName
    subst hName'
    refine ⟨v', (attributeOf_eq_some_iff hTyped').mpr hMem', ?_⟩
    rcases hTyped.types _ _ hMem with ⟨a, ha, hKey, hType⟩
    rcases hTyped'.types _ _ hMem' with
      ⟨a', ha', hKey', hType'⟩
    have hSame : a = a' := List.inj_on_of_nodup_map hDefs ha ha'
      (hKey.trans hKey'.symm)
    subst hSame
    exact (identityValue_eq_iff hType hType').mp hJson.symm
  constructor
  · intro hAll key
    cases hv : attributeOf values key with
    | some v =>
        rcases hHalf h h' (fun x hx => (hAll x).mp hx) key v hv
          with ⟨v', hv', hEq⟩
        rw [hv']
        exact congrArg some hEq
    | none =>
        cases hv' : attributeOf values' key with
        | none => rfl
        | some v' =>
            rcases hHalf h' h (fun x hx => (hAll x).mpr hx) key
              v' hv' with ⟨v, hSome, _⟩
            rw [hv] at hSome
            cases hSome
  · intro hAll
    have hSub : ∀ {ws ws' : List PreparedAttributeValue},
        Typed definitions ws → Typed definitions ws' →
        (∀ key, (attributeOf ws key).map (identityOfValue U) =
          (attributeOf ws' key).map (identityOfValue U)) →
        ∀ x, x ∈ signedFields U ws →
          x ∈ signedFields U ws' := by
      intro ws ws' hTyped hTyped' hEq x hx
      rcases List.mem_map.mp hx with ⟨⟨key, v⟩, hMem, rfl⟩
      have hv := (attributeOf_eq_some_iff hTyped).mpr hMem
      have hKey := hEq key
      rw [hv] at hKey
      rcases Option.map_eq_some_iff.mp hKey.symm with
        ⟨v', hv', hSame⟩
      rw [← identityValue_of_eq hSame]
      exact List.mem_map.mpr ⟨(key, v'),
        (attributeOf_eq_some_iff hTyped').mp hv', rfl⟩
    exact fun x => ⟨hSub h h' hAll x,
      hSub h' h (fun key => (hAll key).symm) x⟩

/- Definitions are those of the category with a key. -/
theorem category_eq_of_key
    (hKeys : CatalogKeys db)
    {c c' : Category}
    (hc : c ∈ db.categories)
    (hc' : c' ∈ db.categories)
    (hSame : c.key = c'.key) :
    c = c' :=
  List.inj_on_of_nodup_map hKeys.categoryKeys hc hc' hSame

/- Signatures are equal for the same equipment only. -/
theorem signature_eq_iff
    (hU : U.Lawful)
    (hSha : Function.Injective sha256)
    (hKeys : CatalogKeys db)
    {payload payload' : ItemCreate}
    {attributes attributes' : Dictionary Text RawValue}
    {p p' : PreparedItemIdentity}
    (h : Draft U sha256 db payload attributes p)
    (h' : Draft U sha256 db payload' attributes' p') :
    p.identitySignature = p'.identitySignature ↔
      identityOf U payload.model p =
        identityOf U payload'.model p' := by
  have hTyped := h.typed hKeys
  have hTyped' := h'.typed hKeys
  rw [h.signature_eq hU hKeys, h'.signature_eq hU hKeys]
  constructor
  · intro hEq
    have hItems := Json.ofItems_injective
      (Json.dumps_injective (hSha hEq))
    simp only [List.cons.injEq, Json.str.injEq, and_true]
      at hItems
    rcases hItems with ⟨hKey, hMaker, hModel, hFields⟩
    have hSame := category_eq_of_key hKeys h.category
      h'.category hKey
    have hDefs := definitionsOfCategory_keys hKeys
      p.category.id
    rw [← hSame] at hTyped'
    have hSorted := Json.ofFields_injective hFields
    rw [sortKeys_eq_iff (signedFields_keys hTyped)
      (signedFields_keys hTyped'),
      signedFields_iff hDefs hTyped hTyped'] at hSorted
    unfold identityOf at hMaker hModel ⊢
    simp only [EquipmentIdentity.mk.injEq]
    exact ⟨hKey, hMaker, hModel, funext hSorted⟩
  · intro hEq
    have hKey := congrArg EquipmentIdentity.categoryKey hEq
    have hAttributes := congrArg EquipmentIdentity.attributes
      hEq
    change p.category.key = p'.category.key at hKey
    have hSame := category_eq_of_key hKeys h.category
      h'.category hKey
    have hDefs := definitionsOfCategory_keys hKeys
      p.category.id
    rw [← hSame] at hTyped'
    have hFields : sortKeys (signedFields U p.values) =
        sortKeys (signedFields U p'.values) := by
      rw [sortKeys_eq_iff (signedFields_keys hTyped)
        (signedFields_keys hTyped'),
        signedFields_iff hDefs hTyped hTyped']
      exact congrFun hAttributes
    rw [hKey, hEq, hFields]

end Drafts

------------------------------------------------------------
-- Described Equipment
------------------------------------------------------------

section Described

variable {U : Unicode}
variable {sha256 : Text → Text}
variable {db : Db}

/-
  What a supplied value stands for: nothing where it is
  blank.
-/
def identityOfRaw
    (U : Unicode)
    (dataType : AttributeDataType)
    (raw : RawValue) : Option IdentityValue :=
  match dataType, raw with
  | .text, .str v | .enum, .str v =>
      if Text.strip v = [] then none
      else some (.text (identityText U v))
  | .integer, .int n => some (.integer n)
  | .decimal, raw =>
      match rawDecimal? U raw with
      | some (.finite d) => some (.decimal d.value)
      | _ => none
  | .boolean, .bool b => some (.boolean b)
  | _, _ => none

/- The attributes of a draft, `reach_m` derived. -/
def suppliedAttributes
    (U : Unicode)
    (category : Category)
    (payload : ItemCreate) : Dictionary Text RawValue :=
  ((derivedAttributes U category
    payload.attributes).toOption).getD payload.attributes

/- The equipment that a draft describes as it is written. -/
def equipmentOf
    (U : Unicode)
    (db : Db)
    (payload : ItemCreate)
    (p : PreparedItemIdentity) : EquipmentIdentity where
  categoryKey := p.category.key
  manufacturer := identityOfManufacturer U p.manufacturer
  model := identityOfModel U payload.model
  attributes key := do
    let a ← definitionOf
      (definitionsOfCategory db p.category.id) key
    let raw ←
      (suppliedAttributes U p.category payload).get? key
    identityOfRaw U a.dataType raw

/- White space that is not kept does not matter. -/
theorem identityText_keptText
    (hU : U.Lawful)
    (attr : CategoryAttribute)
    (v : Text) :
    identityText U (keptText attr v) = identityText U v := by
  unfold identityText
  congr 1
  apply hU.normalize_nfkc_congr
  unfold keptText
  split
  · exact Words.split_strip v
  · exact Text.words_normalize v

theorem identityText_normalize
    (hU : U.Lawful)
    (v : Text) :
    identityText U (Text.normalize v) = identityText U v := by
  unfold identityText
  congr 1
  exact hU.normalize_nfkc_congr (Text.words_normalize v)

/- A prepared value stands for what was supplied. -/
theorem identityOfRaw_eq
    (hU : U.Lawful)
    {raw : RawValue}
    {p : PreparedAttributeValue}
    (h : Represents U raw p) :
    identityOfRaw U p.attr.dataType raw =
      p.value?.map (identityOfValue U) := by
  unfold Represents at h
  cases hType : p.attr.dataType
  all_goals
    simp only [hType] at h ⊢
  · rcases h with ⟨v, rfl, hNe, hEq⟩
    have hSome : Text.strip v ≠ [] :=
      fun hNil => hNe (keptText_eq_nil_iff.mpr hNil)
    have hValue : p.value? =
        some (.text (keptText p.attr v)) := by
      rw [hEq]
      rfl
    rw [hValue]
    simp only [identityOfRaw, if_neg hSome, Option.map_some,
      identityOfValue, identityText_keptText hU]
  · rcases h with ⟨n, rfl, hEq⟩
    rw [hEq]
    rfl
  · rcases h with ⟨d, hRaw, hEq⟩
    have hValue : p.value? = some (.decimal d) := by
      rw [hEq]
      rfl
    rw [hValue]
    simp only [identityOfRaw, hRaw, Option.map_some,
      identityOfValue]
  · rcases h with ⟨b, rfl, hEq⟩
    rw [hEq]
    rfl
  · rcases h with ⟨v, rfl, hNe, hEq⟩
    have hSome : Text.strip v ≠ [] :=
      fun hNil => hNe (Text.normalize_eq_nil_iff_strip.mpr hNil)
    have hValue : p.value? =
        some (.text (Text.normalize v)) := by
      rw [hEq]
      rfl
    rw [hValue]
    simp only [identityOfRaw, if_neg hSome, Option.map_some,
      identityOfValue, identityText_normalize hU]

theorem identityOfRaw_blank
    {attr : CategoryAttribute}
    {raw : RawValue}
    (h : BlankFor attr raw) :
    identityOfRaw U attr.dataType raw = none := by
  rcases h with ⟨v, rfl, hNil, hInteger, hBoolean⟩
  cases hType : attr.dataType
  case text | enum =>
    simp only [identityOfRaw, if_pos hNil]
  case integer => exact absurd hType hInteger
  case boolean => exact absurd hType hBoolean
  case decimal =>
    have hNone : rawDecimal? U (.str v) = none := by
      rw [rawDecimal?, hNil]
      rfl
    simp only [identityOfRaw, hNone]

theorem Draft.suppliedAttributes_eq
    {payload : ItemCreate}
    {attributes : Dictionary Text RawValue}
    {p : PreparedItemIdentity}
    (h : Draft U sha256 db payload attributes p) :
    suppliedAttributes U p.category payload = attributes := by
  rw [suppliedAttributes, h.derives]
  rfl

/- The prepared values are those of the supplied map. -/
theorem Draft.attributeOf_eq
    (hU : U.Lawful)
    (hKeys : CatalogKeys db)
    {payload : ItemCreate}
    {attributes : Dictionary Text RawValue}
    {p : PreparedItemIdentity}
    (h : Draft U sha256 db payload attributes p)
    (key : Text) :
    (attributeOf p.values key).map (identityOfValue U) =
      (equipmentOf U db payload p).attributes key := by
  have hStored := h.stored hKeys
  have hTyped := h.typed hKeys
  have hDefKeys := definitionsOfCategory_keys hKeys
    p.category.id
  -- a value that is there stands for the supplied one
  have hFound : ∀ v, attributeOf p.values key = some v →
      (equipmentOf U db payload p).attributes key =
        some (identityOfValue U v) := by
    intro v hv
    have hMem := (attributeOf_eq_some_iff hTyped).mp hv
    rcases mem_normalizedAttributes.mp hMem with
      ⟨x, hx, rfl, hValue⟩
    rcases hStored.only x hx with ⟨hDef, raw, hRaw, hRep⟩
    unfold equipmentOf
    simp only [definitionOf_of_mem hDefKeys hDef,
      h.suppliedAttributes_eq, hRaw, Option.bind_eq_bind,
      Option.bind_some, identityOfRaw_eq hU hRep, hValue,
      Option.map_some]
  cases hv : attributeOf p.values key with
  | some v => rw [hFound v hv, Option.map_some]
  | none =>
      rw [Option.map_none]
      unfold equipmentOf
      simp only [h.suppliedAttributes_eq, Option.bind_eq_bind]
      cases hDef : definitionOf
          (definitionsOfCategory db p.category.id) key with
      | none => rfl
      | some a =>
          rcases definitionOf_some hDef with ⟨ha, rfl⟩
          rw [Option.bind_some]
          cases hRaw : attributes.get? a.key with
          | none => rfl
          | some raw =>
              rw [Option.bind_some]
              by_cases hBlank : BlankFor a raw
              · exact (identityOfRaw_blank hBlank).symm
              · rcases hStored.single a ha raw hRaw hBlank with
                  ⟨x, hx, hAttr, hRep⟩
                rcases value_of_represents hRep with
                  ⟨v, hValue, _⟩
                have hSome := (attributeOf_eq_some_iff
                  hTyped).mpr (mem_normalizedAttributes.mpr
                    ⟨x, hx, congrArg CategoryAttribute.key hAttr,
                      hValue⟩)
                rw [hv] at hSome
                cases hSome

theorem Draft.equipmentOf_eq
    (hU : U.Lawful)
    (hKeys : CatalogKeys db)
    {payload : ItemCreate}
    {attributes : Dictionary Text RawValue}
    {p : PreparedItemIdentity}
    (h : Draft U sha256 db payload attributes p) :
    equipmentOf U db payload p =
      identityOf U payload.model p := by
  unfold identityOf
  simp only [h.attributeOf_eq hU hKeys]
  rfl

end Described

------------------------------------------------------------
-- Duplicates
------------------------------------------------------------

section Duplicates

variable {env : CatalogEnv}
variable {s s' : Db}

/- An item with the signature of a draft that describes it. -/
def Describes
    (env : CatalogEnv)
    (s : Db)
    (item : Item)
    (equipment : EquipmentIdentity) : Prop :=
  ∃ payload p, prepareStoredIdentity env.unicode env.sha256 s
      payload = .ok p ∧
    item.identitySignature = p.identitySignature ∧
    equipment = equipmentOf env.unicode s payload p

/- The drafts of a database depend on its catalog only. -/
theorem prepareStoredIdentity_congr
    {U : Unicode}
    {sha256 : Text → Text}
    (hCategories : s'.categories = s.categories)
    (hAttributes : s'.categoryAttributes =
      s.categoryAttributes)
    (hManufacturers : s'.manufacturers = s.manufacturers)
    (payload : ItemCreate) :
    prepareStoredIdentity U sha256 s' payload =
      prepareStoredIdentity U sha256 s payload := by
  unfold prepareStoredIdentity
    loadItemCreateValidationContext definitionsOfCategory
  rw [hCategories, hAttributes, hManufacturers]

theorem Describes.eq_iff
    (hU : env.unicode.Lawful)
    (hSha : Function.Injective env.sha256)
    (hKeys : CatalogKeys s)
    {item : Item}
    {equipment : EquipmentIdentity}
    (h : Describes env s item equipment)
    {payload : ItemCreate}
    {p : PreparedItemIdentity}
    (hPrepared : prepareStoredIdentity env.unicode env.sha256 s
      payload = .ok p) :
    item.identitySignature = p.identitySignature ↔
      equipment = equipmentOf env.unicode s payload p := by
  rcases h with ⟨payload', q, hOther, hItem, rfl⟩
  rcases (prepareStoredIdentity_iff hKeys).mp hPrepared with
    ⟨as, hDraft⟩
  rcases (prepareStoredIdentity_iff hKeys).mp hOther with
    ⟨bs, hDraft'⟩
  rw [hItem, hDraft.equipmentOf_eq hU hKeys,
    hDraft'.equipmentOf_eq hU hKeys]
  exact signature_eq_iff hU hSha hKeys hDraft' hDraft

/- The candidates of a draft are the items it describes. -/
theorem checkDuplicateCandidates_run
    {payload : ItemCreate}
    {p : PreparedItemIdentity}
    (hPrepared : prepareStoredIdentity env.unicode env.sha256 s
      payload = .ok p)
    (exclude : Option Uuid) :
    (checkDuplicateCandidates env payload exclude).run s =
      .ok (s.items.filter (fun item =>
        item.identitySignature = p.identitySignature ∧
          some item.id ≠ exclude), s) := by
  unfold checkDuplicateCandidates
  simp only [Txn.run_bind, Txn.run_query, Txn.run_pure, id,
    hPrepared]
  rfl

theorem insertAttributeRows_not_duplicate
    (itemId categoryId : Uuid)
    (values : List PreparedAttributeValue)
    (s : Db) :
    (insertAttributeRows itemId categoryId values).run s ≠
      .error (raise .itemsIdentitySignature) := by
  unfold insertAttributeRows
  simp only [Txn.run_bind, Txn.run_getOrFail, Txn.run_query,
    Txn.run_require, Txn.run_update, id]
  intro h
  split at h
  · rename_i hRows
    split at hRows
    · cases hRows
    · cases hRows
      cases h
  · split at h
    · rename_i hValid
      split at hValid
      · cases hValid
      · cases hValid
        cases h
    · cases h

/- A draft fails as a duplicate if its signature is taken. -/
theorem createItem_duplicate_iff
    {newId : Uuid}
    {now : Time}
    {payload : ItemCreate}
    {p : PreparedItemIdentity}
    {columns : ItemColumns}
    (hPrepared : prepareStoredIdentity env.unicode env.sha256 s
      payload = .ok p)
    (hColumns : CreatedColumns env payload p columns)
    (hFresh : ∀ other ∈ s.items, other.id ≠ newId) :
    (createItem env newId now payload).run s =
        .error (raise .itemsIdentitySignature) ↔
      ∃ other ∈ s.items,
        other.identitySignature = p.identitySignature := by
  unfold createItem
  simp only [Txn.run_bind, Txn.run_query, Txn.run_ofExcept,
    Txn.run_require, Txn.run_update, Txn.run_pure, id,
    hPrepared, hColumns.name, hColumns.normalizedName,
    hColumns.model, hColumns.normalizedModel, Except.map,
    if_pos hFresh]
  by_cases hTaken : ∃ other ∈ s.items,
      other.identitySignature = p.identitySignature
  · have hNot : ¬ ∀ other ∈ s.items,
        other.identitySignature ≠ p.identitySignature := by
      simpa using hTaken
    simp only [if_neg hNot, hTaken]
  · have hAll : ∀ other ∈ s.items,
        other.identitySignature ≠ p.identitySignature := by
      simpa using hTaken
    simp only [if_pos hAll, hTaken, iff_false]
    intro h
    split at h
    · rename_i e hRun
      cases h
      exact insertAttributeRows_not_duplicate _ _ _ _ hRun
    · cases h

/- A created item is described by its draft. -/
theorem Creates.describes
    {newId : Uuid}
    {now : Time}
    {payload : ItemCreate}
    {p : PreparedItemIdentity}
    {columns : ItemColumns}
    {rows : List ItemAttributeValue}
    (h : Creates env newId now payload p columns rows s s') :
    Describes env s'
      (newItem newId now payload p.category columns)
      (equipmentOf env.unicode s payload p) := by
  refine ⟨payload, p, ?_, h.derives.signature, ?_⟩
  · rw [← h.prepares, h.result]
    exact prepareStoredIdentity_congr rfl rfl rfl payload
  · rw [h.result]
    rfl

/- An edited item is described by the merged draft. -/
theorem Edits.describes
    {now : Time}
    {itemId : Uuid}
    {patch : ItemPatch}
    {item : Item}
    {merged : ItemCreate}
    {p : PreparedItemIdentity}
    {columns : ItemColumns}
    {rows : List ItemAttributeValue}
    (h : Edits env now itemId patch item merged p columns rows
      s s') :
    Describes env s' (editedItem now merged columns item)
      (equipmentOf env.unicode s merged p) := by
  refine ⟨merged, p, ?_, h.derives.signature, ?_⟩
  · rw [← h.prepares, h.result]
    exact prepareStoredIdentity_congr rfl rfl rfl merged
  · rw [h.result]
    rfl

/-
  Drafts have the same signature exactly if they describe the
  same equipment; the duplicates of a draft, and the items
  that keep it from being created, are the items that the
  same equipment describes.
-/
theorem equipment_identity_is_exact
    (hU : env.unicode.Lawful)
    (hSha : Function.Injective env.sha256)
    (hKeys : CatalogKeys s) :
    (∀ payloads payloads' context context' a b p q,
      loadItemCreateValidationContext env.unicode s payloads =
        .ok context →
      loadItemCreateValidationContext env.unicode s payloads' =
        .ok context' →
      a ∈ payloads → b ∈ payloads' →
      prepareIdentity env.unicode env.sha256 context a =
        .ok p →
      prepareIdentity env.unicode env.sha256 context' b =
        .ok q →
      (p.identitySignature = q.identitySignature ↔
        equipmentOf env.unicode s a p =
          equipmentOf env.unicode s b q)) ∧
    (∀ a p, prepareStoredIdentity env.unicode env.sha256 s a =
        .ok p →
      (∀ exclude, ∃ found,
        (checkDuplicateCandidates env a exclude).run s =
          .ok (found, s) ∧
        ∀ item equipment, Describes env s item equipment →
          (item ∈ found ↔ item ∈ s.items ∧
            some item.id ≠ exclude ∧
            equipment = equipmentOf env.unicode s a p)) ∧
      ((∀ item ∈ s.items, ∃ equipment,
          Describes env s item equipment) →
        ∀ newId now columns, CreatedColumns env a p columns →
        (∀ other ∈ s.items, other.id ≠ newId) →
        ((createItem env newId now a).run s =
            .error (raise .itemsIdentitySignature) ↔
          ∃ item ∈ s.items, Describes env s item
            (equipmentOf env.unicode s a p)))) ∧
    (∀ newId now a id' s',
      (createItem env newId now a).run s = .ok (id', s') →
      ∃ p item, prepareStoredIdentity env.unicode env.sha256 s
          a = .ok p ∧ s'.findItem newId = some item ∧
        Describes env s' item
          (equipmentOf env.unicode s a p)) := by
  refine ⟨?_, ?_, ?_⟩
  · intro payloads payloads' context context' a b p q hLoad
      hLoad' ha hb hp hq
    rcases (prepareIdentity_iff (contextOf_load hKeys hLoad)
      ha).mp hp with ⟨as, hDraft⟩
    rcases (prepareIdentity_iff (contextOf_load hKeys hLoad')
      hb).mp hq with ⟨bs, hDraft'⟩
    rw [hDraft.equipmentOf_eq hU hKeys,
      hDraft'.equipmentOf_eq hU hKeys]
    exact signature_eq_iff hU hSha hKeys hDraft hDraft'
  · intro a p hp
    constructor
    · intro exclude
      refine ⟨_, checkDuplicateCandidates_run hp exclude, ?_⟩
      intro item equipment hItem
      have hSame := hItem.eq_iff hU hSha hKeys hp
      rw [List.mem_filter, decide_eq_true_eq, hSame]
      tauto
    · intro hAll newId now columns hColumns hFresh
      rw [createItem_duplicate_iff hp hColumns hFresh]
      constructor
      · rintro ⟨item, hMem, hSignature⟩
        rcases hAll item hMem with ⟨equipment, hItem⟩
        have hSame := (hItem.eq_iff hU hSha hKeys hp).mp
          hSignature
        exact ⟨item, hMem, hSame ▸ hItem⟩
      · rintro ⟨item, hMem, hItem⟩
        exact ⟨item, hMem,
          (hItem.eq_iff hU hSha hKeys hp).mpr rfl⟩
  · intro newId now a id' s' hRun
    rcases createItem_run_iff.mp hRun with
      ⟨_, p, columns, rows, h⟩
    exact ⟨p, _, h.prepares, h.found, h.describes⟩

end Duplicates

/- A cable without a model is described by its draft. -/
theorem equipment_identity_of_cable :
    ∃ p item, prepareStoredIdentity BlankCable.env.unicode
        BlankCable.env.sha256 BlankCable.start
        BlankCable.payload = .ok p ∧
      BlankCable.created.findItem ⟨9⟩ = some item ∧
      Describes BlankCable.env BlankCable.created item
        (equipmentOf BlankCable.env.unicode BlankCable.start
          BlankCable.payload p) := by
  have hKeys : CatalogKeys BlankCable.start :=
    ⟨by decide, by decide, by decide, by decide, by decide⟩
  exact (@equipment_identity_is_exact BlankCable.env _
    Unicode.lawful_ascii Function.injective_id hKeys).2.2
      ⟨9⟩ 0 BlankCable.payload ⟨9⟩ BlankCable.created
      BlankCable.run_created

end Catalog
