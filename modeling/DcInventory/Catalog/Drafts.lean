import DcInventory.Catalog.Outcomes
import DcInventory.Catalog.StoredValues
import Mathlib.Data.List.Nodup

/-
  This file proves which drafts of items are accepted for the
  categories and manufacturers of a database.

  Key definitions include:
    * `Catalog.CatalogKeys`
    * `Catalog.Draft`

  Key theorems include:
    * `Catalog.prepareIdentity_iff`
    * `Catalog.prepareStoredIdentity_iff`
    * `Catalog.Draft.stored`
-/

namespace Catalog

variable {U : Unicode}
variable {sha256 : Text → Text}
variable {db : Db}

/- The unique keys of the tables of the catalog. -/
structure CatalogKeys (db : Db) : Prop where
  categories : (db.categories.map Category.id).Nodup
  categoryKeys : (db.categories.map Category.key).Nodup
  manufacturers : (db.manufacturers.map Manufacturer.id).Nodup
  attributes :
    (db.categoryAttributes.map CategoryAttribute.id).Nodup
  attributeKeys : (db.categoryAttributes.map (fun a =>
    (a.categoryId, a.key))).Nodup

------------------------------------------------------------
-- Definitions
------------------------------------------------------------

theorem mem_definitionsOfCategory
    {categoryId : Uuid}
    {a : CategoryAttribute} :
    a ∈ definitionsOfCategory db categoryId ↔
      a ∈ db.categoryAttributes ∧
        a.categoryId = categoryId := by
  unfold definitionsOfCategory
  rw [List.mem_insertionSort, List.mem_filter]
  simp

/- The definitions of a category have different keys. -/
theorem definitionsOfCategory_keys
    (hKeys : CatalogKeys db)
    (categoryId : Uuid) :
    ((definitionsOfCategory db categoryId).map
      CategoryAttribute.key).Nodup := by
  have hPerm := List.perm_insertionSort
    CategoryAttribute.before (db.categoryAttributes.filter
      (fun a => a.categoryId = categoryId))
  unfold definitionsOfCategory
  rw [(hPerm.map CategoryAttribute.key).nodup_iff]
  apply List.Nodup.map_on
  · intro a ha b hb hEq
    rw [List.mem_filter] at ha hb
    have hCategory : a.categoryId = b.categoryId := by
      simp only [decide_eq_true_eq] at ha hb
      rw [ha.2, hb.2]
    exact List.inj_on_of_nodup_map hKeys.attributeKeys ha.1
      hb.1 (Prod.ext hCategory hEq)
  · exact (List.Nodup.of_map _ hKeys.attributes).filter _

------------------------------------------------------------
-- Contexts
------------------------------------------------------------

/- A row is loaded by its key if the key is asked for. -/
theorem get?_ofList_rows
    {K R : Type} [DecidableEq K]
    {key : R → K}
    {rows : List R}
    (hRows : (rows.map key).Nodup)
    (p : R → Bool)
    {k : K}
    {r : R} :
    (Dictionary.ofList ((rows.filter p).map
        (fun r => (key r, r)))).get? k = some r ↔
      r ∈ rows ∧ p r = true ∧ key r = k := by
  rw [Dictionary.get?_ofList]
  · rw [List.mem_map]
    constructor
    · rintro ⟨x, hx, hEq⟩
      cases hEq
      rw [List.mem_filter] at hx
      exact ⟨hx.1, hx.2, rfl⟩
    · rintro ⟨hMem, hp, rfl⟩
      exact ⟨r, List.mem_filter.mpr ⟨hMem, hp⟩, rfl⟩
  · rw [List.map_map]
    change ((rows.filter p).map key).Nodup
    exact hRows.sublist (List.filter_sublist.map key)

/- A context that is loaded for some drafts. -/
structure ContextOf
    (U : Unicode)
    (db : Db)
    (payloads : List ItemCreate)
    (context : ItemCreateValidationContext) : Prop where
  category : ∀ payload ∈ payloads, ∀ key,
    normalizeCategoryKey U payload.categoryKey = .ok key →
    ∀ c, context.categoriesByKey.get? key = some c ↔
      c ∈ db.categories ∧ c.key = key
  manufacturer : ∀ payload ∈ payloads, ∀ id,
    payload.manufacturerId = some id →
    ∀ m, context.manufacturersById.get? id = some m ↔
      m ∈ db.manufacturers ∧ m.id = id
  definitions : ∀ key c,
    context.categoriesByKey.get? key = some c →
    context.attributesByCategoryId.get? c.id =
      some (definitionsOfCategory db c.id)

theorem contextOf_load
    (hKeys : CatalogKeys db)
    {payloads : List ItemCreate}
    {context : ItemCreateValidationContext}
    (hLoad : loadItemCreateValidationContext U db payloads =
      .ok context) :
    ContextOf U db payloads context := by
  rcases Except.bind_eq_ok_iff.mp hLoad with
    ⟨keys, hNames, hEq⟩
  cases hEq
  have hForall := Except.mapM_eq_ok_iff.mp hNames
  constructor
  · intro payload hMem key hKey c
    rw [get?_ofList_rows hKeys.categoryKeys]
    rcases hForall.exists_right hMem with ⟨key', hIn, hKey'⟩
    rw [hKey] at hKey'
    cases hKey'
    constructor
    · rintro ⟨hc, _, hEq⟩
      exact ⟨hc, hEq⟩
    · rintro ⟨hc, rfl⟩
      exact ⟨hc, by simpa using hIn, rfl⟩
  · intro payload hMem id hId m
    rw [get?_ofList_rows hKeys.manufacturers]
    constructor
    · rintro ⟨hm, _, hEq⟩
      exact ⟨hm, hEq⟩
    · rintro ⟨hm, rfl⟩
      refine ⟨hm, ?_, rfl⟩
      simp only [decide_eq_true_eq, List.mem_filterMap]
      exact ⟨payload, hMem, hId⟩
  · intro key c hc
    rw [get?_ofList_rows hKeys.categoryKeys] at hc
    rw [Dictionary.get?_ofList]
    · rw [List.mem_map]
      exact ⟨c, List.mem_filter.mpr ⟨hc.1, hc.2.1⟩, rfl⟩
    · rw [List.map_map]
      change ((db.categories.filter _).map Category.id).Nodup
      exact hKeys.categories.sublist
        (List.filter_sublist.map Category.id)

------------------------------------------------------------
-- Drafts
------------------------------------------------------------

/- The manufacturer of a draft. -/
def DraftManufacturer
    (db : Db)
    (manufacturerId : Option Uuid)
    (manufacturer : Option Manufacturer) : Prop :=
  match manufacturerId with
  | none => manufacturer = none
  | some id => ∃ m ∈ db.manufacturers,
      m.id = id ∧ manufacturer = some m

/- What an accepted draft is prepared to. -/
structure Draft
    (U : Unicode)
    (sha256 : Text → Text)
    (db : Db)
    (payload : ItemCreate)
    (attributes : Dictionary Text RawValue)
    (p : PreparedItemIdentity) : Prop where
  category : p.category ∈ db.categories
  categoryKey : normalizeCategoryKey U payload.categoryKey =
    .ok p.category.key
  leaf : p.category.parentId ≠ none ∧ p.category.key ∈ leaves
  manufacturer : DraftManufacturer db payload.manufacturerId
    p.manufacturer
  identity : requireIdentity p.category p.manufacturer
    payload.model = .ok ()
  derives : derivedAttributes U p.category payload.attributes =
    .ok attributes
  validates : validateAttributeValues U p.category.id
    (definitionsOfCategory db p.category.id) attributes =
      .ok p.values
  signature : p.identitySignature = itemSignature U sha256
    p.category.key (p.manufacturer.map Manufacturer.name)
    payload.model (normalizedAttributes p.values)

theorem leafCategory_eq_ok_iff
    {payloads : List ItemCreate}
    {context : ItemCreateValidationContext}
    {payload : ItemCreate}
    (hContext : ContextOf U db payloads context)
    (hMem : payload ∈ payloads)
    {c : Category} :
    leafCategory U context payload.categoryKey = .ok c ↔
      normalizeCategoryKey U payload.categoryKey =
        .ok c.key ∧ c ∈ db.categories ∧
      c.parentId ≠ none ∧ c.key ∈ leaves := by
  unfold leafCategory
  rw [Except.bind_eq_ok_iff]
  constructor
  · rintro ⟨key, hKey, hRest⟩
    cases hGet : context.categoriesByKey.get? key with
    | none =>
        rw [hGet] at hRest
        cases hRest
    | some c' =>
        rw [hGet] at hRest
        rcases (hContext.category payload hMem key hKey c').mp
          hGet with ⟨hIn, hSame⟩
        simp only at hRest
        split at hRest
        · cases hRest
        · rename_i hLeaf
          cases hRest
          rw [not_or, not_not] at hLeaf
          exact ⟨hSame ▸ hKey, hIn, hLeaf⟩
  · rintro ⟨hKey, hIn, hParent, hLeaf⟩
    refine ⟨c.key, hKey, ?_⟩
    rw [(hContext.category payload hMem c.key hKey c).mpr
      ⟨hIn, rfl⟩]
    simp only
    rw [if_neg]
    rw [not_or, not_not]
    exact ⟨hParent, hLeaf⟩

theorem draftManufacturer_eq_ok_iff
    {payloads : List ItemCreate}
    {context : ItemCreateValidationContext}
    {payload : ItemCreate}
    (hContext : ContextOf U db payloads context)
    (hMem : payload ∈ payloads)
    {m : Option Manufacturer} :
    draftManufacturer context payload.manufacturerId = .ok m ↔
      DraftManufacturer db payload.manufacturerId m := by
  unfold DraftManufacturer
  cases hId : payload.manufacturerId with
  | none =>
      constructor
      · intro h
        cases h
        rfl
      · rintro rfl
        rfl
  | some id =>
      have hFinds := hContext.manufacturer payload hMem id hId
      cases hGet : context.manufacturersById.get? id with
      | none =>
          simp only [draftManufacturer, hGet]
          constructor
          · intro h
            cases h
          · rintro ⟨m', hIn, hSame, _⟩
            have hSome := (hFinds m').mpr ⟨hIn, hSame⟩
            rw [hGet] at hSome
            cases hSome
      | some m' =>
          rcases (hFinds m').mp hGet with ⟨hIn, hSame⟩
          simp only [draftManufacturer, hGet]
          constructor
          · intro h
            cases h
            exact ⟨m', hIn, hSame, rfl⟩
          · rintro ⟨m'', hIn', hSame', rfl⟩
            have hSome := (hFinds m'').mpr ⟨hIn', hSame'⟩
            rw [hGet] at hSome
            cases hSome
            rfl

/- Drafts are accepted for what the database has. -/
theorem prepareIdentity_iff
    {payloads : List ItemCreate}
    {context : ItemCreateValidationContext}
    {payload : ItemCreate}
    (hContext : ContextOf U db payloads context)
    (hMem : payload ∈ payloads)
    {p : PreparedItemIdentity} :
    prepareIdentity U sha256 context payload = .ok p ↔
      ∃ attributes, Draft U sha256 db payload attributes p := by
  have hDefs : ∀ c, leafCategory U context
      payload.categoryKey = .ok c →
      (context.attributesByCategoryId.get? c.id).getD [] =
        definitionsOfCategory db c.id := by
    intro c hLeaf
    rcases (leafCategory_eq_ok_iff hContext hMem).mp hLeaf with
      ⟨hKey, hIn, _⟩
    have hGet := (hContext.category payload hMem c.key hKey
      c).mpr ⟨hIn, rfl⟩
    rw [hContext.definitions c.key c hGet]
    rfl
  unfold prepareIdentity
  constructor
  · intro h
    rcases Except.bind_eq_ok_iff.mp h with ⟨c, hLeaf, h⟩
    rcases Except.bind_eq_ok_iff.mp h with ⟨m, hMaker, h⟩
    rcases Except.bind_eq_ok_iff.mp h with ⟨_, hRequired, h⟩
    rcases Except.bind_eq_ok_iff.mp h with ⟨as, hDerives, h⟩
    rcases Except.bind_eq_ok_iff.mp h with ⟨vs, hValid, h⟩
    rw [hDefs c hLeaf] at hValid
    cases h
    rcases (leafCategory_eq_ok_iff hContext hMem).mp hLeaf with
      ⟨hKey, hIn, hParent, hKnown⟩
    exact ⟨as, hIn, hKey, ⟨hParent, hKnown⟩,
      (draftManufacturer_eq_ok_iff hContext hMem).mp hMaker,
      hRequired, hDerives, hValid, rfl⟩
  · rintro ⟨as, h⟩
    have hLeaf : leafCategory U context payload.categoryKey =
        .ok p.category :=
      (leafCategory_eq_ok_iff hContext hMem).mpr
        ⟨h.categoryKey, h.category, h.leaf⟩
    have hMaker := (draftManufacturer_eq_ok_iff hContext
      hMem).mpr h.manufacturer
    rw [hLeaf, Except.ok_bind, hMaker, Except.ok_bind,
      h.identity, Except.ok_bind, h.derives, Except.ok_bind,
      hDefs _ hLeaf, h.validates, Except.ok_bind,
      ← h.signature]

theorem prepareStoredIdentity_iff
    (hKeys : CatalogKeys db)
    {payload : ItemCreate}
    {p : PreparedItemIdentity} :
    prepareStoredIdentity U sha256 db payload = .ok p ↔
      ∃ attributes, Draft U sha256 db payload attributes p := by
  unfold prepareStoredIdentity
  rw [Except.bind_eq_ok_iff]
  constructor
  · rintro ⟨context, hLoad, h⟩
    exact (prepareIdentity_iff (contextOf_load hKeys hLoad)
      List.mem_cons_self).mp h
  · rintro ⟨attributes, h⟩
    have hLoad : ∃ context, loadItemCreateValidationContext U
        db [payload] = .ok context := by
      unfold loadItemCreateValidationContext
      have hNames : [payload].mapM (fun payload =>
          normalizeCategoryKey U payload.categoryKey) =
            .ok [p.category.key] :=
        Except.mapM_eq_ok_iff.mpr
          (List.Forall₂.cons h.categoryKey List.Forall₂.nil)
      rw [hNames]
      exact ⟨_, rfl⟩
    rcases hLoad with ⟨context, hLoad⟩
    exact ⟨context, hLoad, (prepareIdentity_iff
      (contextOf_load hKeys hLoad) List.mem_cons_self).mpr
        ⟨attributes, h⟩⟩

/- The values of a draft are stored as they are. -/
theorem Draft.stored
    (hKeys : CatalogKeys db)
    {payload : ItemCreate}
    {attributes : Dictionary Text RawValue}
    {p : PreparedItemIdentity}
    (h : Draft U sha256 db payload attributes p) :
    StoredExactly U db.categoryAttributes
      (definitionsOfCategory db p.category.id) p.category.id
      attributes p.values :=
  storedExactly ⟨hKeys.attributes,
    definitionsOfCategory_keys hKeys p.category.id,
    fun _ => mem_definitionsOfCategory⟩ h.validates

end Catalog
