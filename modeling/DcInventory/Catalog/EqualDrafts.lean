import DcInventory.Catalog.EquipmentIdentity

/-
  This file proves that drafts with equal fields have one
  identity, in whatever order their attributes are written.

  Key definitions include:
    * `Catalog.EqualFields`
    * `Catalog.SameMetadata`

  Key theorems include:
    * `Catalog.Draft.equalFields`
-/

namespace Catalog

/- The maps have the same entries. -/
def SameEntries (d d' : Dictionary Text RawValue) : Prop :=
  ∀ key, d'.get? key = d.get? key

/- The fields are equal, the attributes as maps. -/
structure EqualFields (a b : ItemCreate) : Prop where
  categoryKey : b.categoryKey = a.categoryKey
  manufacturerId : b.manufacturerId = a.manufacturerId
  name : b.name = a.name
  model : b.model = a.model
  attributes : SameEntries a.attributes b.attributes

/- The tables that decide which drafts are accepted. -/
structure SameMetadata (s s' : Db) : Prop where
  categories : s'.categories = s.categories
  attributes : s'.categoryAttributes = s.categoryAttributes
  manufacturers : s'.manufacturers = s.manufacturers

theorem SameMetadata.keys
    {s s' : Db}
    (h : SameMetadata s s')
    (hKeys : CatalogKeys s) :
    CatalogKeys s' := by
  constructor
  · rw [h.categories]
    exact hKeys.categories
  · rw [h.categories]
    exact hKeys.categoryKeys
  · rw [h.manufacturers]
    exact hKeys.manufacturers
  · rw [h.attributes]
    exact hKeys.attributes
  · rw [h.attributes]
    exact hKeys.attributeKeys

variable {U : Unicode}
variable {sha256 : Text → Text}
variable {s s' : Db}
variable {d d' : Dictionary Text RawValue}

------------------------------------------------------------
-- Maps
------------------------------------------------------------

theorem SameEntries.mem
    (h : SameEntries d d')
    {e : Text × RawValue} :
    e ∈ d'.entries ↔ e ∈ d.entries := by
  rcases e with ⟨key, raw⟩
  rw [Dictionary.mem_entries, Dictionary.mem_entries, h]

theorem SameEntries.mem_keys
    (h : SameEntries d d')
    {key : Text} :
    key ∈ d'.keys ↔ key ∈ d.keys := by
  rw [Dictionary.mem_keys, Dictionary.mem_keys, h]

theorem SameEntries.set
    (h : SameEntries d d')
    (key : Text)
    (raw : RawValue) :
    SameEntries (d.set key raw) (d'.set key raw) := by
  intro k
  rw [Dictionary.get?_set, Dictionary.get?_set, h]

theorem SameEntries.derives
    (h : SameEntries d d')
    {category : Category}
    {as : Dictionary Text RawValue}
    (hDerives : derivedAttributes U category d = .ok as) :
    ∃ bs, derivedAttributes U category d' = .ok bs ∧
      SameEntries as bs := by
  unfold derivedAttributes at hDerives ⊢
  split at hDerives
  · rename_i hPrefix
    rw [if_pos hPrefix]
    unfold deriveReach at hDerives ⊢
    rw [h]
    dsimp only at hDerives ⊢
    split at hDerives
    · cases hDerives
    · cases hDerives
    · rename_i derived hReach
      rw [h]
      split at hDerives
      · split at hDerives
        · rename_i hEquals
          cases hDerives
          rw [if_pos hEquals]
          exact ⟨_, rfl, h.set _ _⟩
        · cases hDerives
      · cases hDerives
        exact ⟨_, rfl, h.set _ _⟩
  · rename_i hPrefix
    cases hDerives
    rw [if_neg hPrefix]
    exact ⟨d', rfl, h⟩

/- Every element has a partner. -/
theorem exists_forall₂
    {α β : Type}
    {R : α → β → Prop}
    {xs : List α}
    (h : ∀ x ∈ xs, ∃ y, R x y) :
    ∃ ys, List.Forall₂ R xs ys := by
  induction xs with
  | nil => exact ⟨[], .nil⟩
  | cons x xs ih =>
      rcases h x List.mem_cons_self with ⟨y, hy⟩
      rcases ih (fun z hz => h z (List.mem_cons_of_mem x hz))
        with ⟨ys, hys⟩
      exact ⟨y :: ys, .cons hy hys⟩

/- Values with different keys. -/
def DistinctKeys (values : List PreparedAttributeValue) : Prop :=
  (values.map (fun p => p.attr.key)).Nodup

/- Equal maps have the same values. -/
theorem SameEntries.validates
    (h : SameEntries d d')
    {categoryId : Uuid}
    {definitions : List CategoryAttribute}
    {values : List PreparedAttributeValue}
    (hValid : validateAttributeValues U categoryId definitions
      d = .ok values) :
    ∃ values', validateAttributeValues U categoryId
        definitions d' = .ok values' ∧
      DistinctKeys values ∧ DistinctKeys values' ∧
        ∀ p, p ∈ values' ↔ p ∈ values := by
  rcases validateAttributeValues_eq_ok_iff.mp hValid with
    ⟨hCategory, hKnown, hRequired, hAll⟩
  rcases prepareAll_eq_ok_iff.mp hAll with ⟨outs, hOuts, rfl⟩
  have hPrepared : ∀ e ∈ d'.entries,
      ∃ out, Prepares U definitions e out := by
    intro e he
    rcases hOuts.exists_right (h.mem.mp he) with ⟨out, _, hOut⟩
    exact ⟨out, hOut⟩
  rcases exists_forall₂ hPrepared with ⟨outs', hOuts'⟩
  refine ⟨outs'.reduceOption,
    validateAttributeValues_eq_ok_iff.mpr ⟨hCategory, ?_, ?_,
      prepareAll_eq_ok_iff.mpr ⟨outs', hOuts', rfl⟩⟩,
    d.nodup.sublist (keys_prepareAll hOuts),
    d'.nodup.sublist (keys_prepareAll hOuts'), ?_⟩
  · intro key hKey
    exact hKnown key (h.mem_keys.mp hKey)
  · intro a ha hTrue
    exact h.mem_keys.mpr (hRequired a ha hTrue)
  · intro p
    rw [mem_prepareAll hOuts, mem_prepareAll hOuts']
    simp only [h.mem]

------------------------------------------------------------
-- Signatures
------------------------------------------------------------

/- The order of the values is not in the signature. -/
theorem itemSignature_of_same
    {values values' : List PreparedAttributeValue}
    (hKeys : DistinctKeys values)
    (hKeys' : DistinctKeys values')
    (h : ∀ p, p ∈ values' ↔ p ∈ values)
    (categoryKey : Text)
    (manufacturer model : Option Text) :
    itemSignature U sha256 categoryKey manufacturer model
        (normalizedAttributes values') =
      itemSignature U sha256 categoryKey manufacturer model
        (normalizedAttributes values) := by
  have hSigned {vs : List PreparedAttributeValue}
      (hvs : DistinctKeys vs) :
      ((((normalizedAttributes vs).filter (fun field =>
        field.2 ≠ .text [])).map (fun field =>
          (field.1, identityValue U field.2))).map
            Prod.fst).Nodup := by
    rw [List.map_map]
    refine List.Nodup.sublist
      (List.filter_sublist.map Prod.fst) ?_
    exact hvs.sublist (normalizedAttributes_keys vs)
  have hFields : ∀ x, x ∈ normalizedAttributes values' ↔
      x ∈ normalizedAttributes values := by
    rintro ⟨key, v⟩
    rw [mem_normalizedAttributes, mem_normalizedAttributes]
    simp only [h]
  unfold itemSignature
  dsimp only
  rw [(sortKeys_eq_iff (hSigned hKeys') (hSigned hKeys)).mpr]
  intro x
  simp only [List.mem_map, List.mem_filter, hFields]

/- Equal drafts are accepted alike, with one signature. -/
theorem Draft.equalFields
    {a b : ItemCreate}
    (hEqual : EqualFields a b)
    {attributes : Dictionary Text RawValue}
    {p : PreparedItemIdentity}
    (h : Draft U sha256 s a attributes p) :
    ∃ attributes' p', Draft U sha256 s b attributes' p' ∧
      p'.identitySignature = p.identitySignature := by
  rcases hEqual.attributes.derives h.derives with
    ⟨attributes', hDerives, hSame⟩
  rcases hSame.validates h.validates with
    ⟨values', hValid, hKeys, hKeys', hMem⟩
  refine ⟨attributes', { p with values := values' }, ?_, rfl⟩
  exact {
    category := h.category
    categoryKey := hEqual.categoryKey ▸ h.categoryKey
    leaf := h.leaf
    manufacturer := hEqual.manufacturerId ▸ h.manufacturer
    identity := hEqual.model ▸ h.identity
    derives := hDerives
    validates := hValid
    signature := by
      rw [hEqual.model, itemSignature_of_same hKeys hKeys' hMem]
      exact h.signature }

end Catalog
