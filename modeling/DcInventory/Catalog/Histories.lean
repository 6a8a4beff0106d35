import DcInventory.Catalog.EquipmentIdentity
import DcInventory.Catalog.StoredItems

/-
  This file defines the histories of a catalog, and proves
  what every item has that was stored in one.

  Key definitions include:
    * `Catalog.createItemRequest`
    * `Catalog.updateItemRequest`
    * `Catalog.CatalogStep`
    * `Catalog.CatalogHistory`
    * `Catalog.Recorded`

  Key theorems include:
    * `Catalog.CatalogInv.step`
    * `Catalog.CatalogHistory.inv`
-/

namespace Catalog

------------------------------------------------------------
-- Requests
------------------------------------------------------------

section Requests

variable (env : CatalogEnv)

/- The checks of an item that are deferred to the commit. -/
def deferredChecks (itemId : Uuid) : Op Unit := do
  let db ← .query id
  .require (∀ item, db.findItem itemId = some item →
    enforceItemRequiredAttributes db.categoryAttributes
      db.itemAttributeValues itemId item.categoryId = true)
    (raise .itemRequiredAttributes)
  .ofExcept (assertCatalogItemIdentity env db itemId)

/- Create an item and commit. -/
def createItemRequest
    (newId : Uuid)
    (now : Time)
    (payload : ItemCreate) : Op Uuid := do
  let itemId ← createItem env newId now payload
  deferredChecks env itemId
  pure itemId

/- Edit an item and commit. -/
def updateItemRequest
    (now : Time)
    (itemId : Uuid)
    (patch : ItemPatch) : Op Uuid := do
  let itemId ← updateItem env now itemId patch
  deferredChecks env itemId
  pure itemId

end Requests

/- Remove an item and the rows of its values. -/
def deleteItem (itemId : Uuid) (s : Db) : Db :=
  { s with
    items := Table.erase Item.id itemId s.items
    itemAttributeValues := Table.erase
      ItemAttributeValue.itemId itemId
        s.itemAttributeValues }

/- The catalog is the same. -/
structure SameCatalog (s s' : Db) : Prop where
  categories : s'.categories = s.categories
  attributes : s'.categoryAttributes = s.categoryAttributes
  manufacturers : s'.manufacturers = s.manufacturers
  items : s'.items = s.items
  rows : s'.itemAttributeValues = s.itemAttributeValues

/- What may happen to a catalog. -/
inductive CatalogStep
    (env : CatalogEnv) (s s' : Db) : Prop where
| createManufacturer {newId name m}
    (h : (createManufacturer env newId name).run s =
      .ok (m, s'))
| createItem {newId now payload r}
    (h : (createItemRequest env newId now payload).run s =
      .ok (r, s'))
| updateItem {now itemId patch r}
    (h : (updateItemRequest env now itemId patch).run s =
      .ok (r, s'))
| setItemArchived {now itemId archived r}
    (h : (setItemArchived now itemId archived).run s =
      .ok (r, s'))
| deleteItem {itemId} (h : s' = deleteItem itemId s)
| other (h : SameCatalog s s')

/- The states of a catalog that began without items. -/
inductive CatalogHistory (env : CatalogEnv) : Db → Prop where
| start {s}
    (hKeys : CatalogKeys s)
    (hItems : s.items = [])
    (hRows : s.itemAttributeValues = []) :
    CatalogHistory env s
| step {s s'}
    (hBefore : CatalogHistory env s)
    (hStep : CatalogStep env s s') :
    CatalogHistory env s'

variable {env : CatalogEnv}
variable {s s' : Db}

theorem deferredChecks_run_iff
    {itemId : Uuid}
    {u : Unit} :
    (deferredChecks env itemId).run s = .ok (u, s') ↔
      s' = s ∧ assertCatalogItemIdentity env s itemId =
        .ok () ∧
      ∀ item, s.findItem itemId = some item →
        enforceItemRequiredAttributes s.categoryAttributes
          s.itemAttributeValues itemId item.categoryId =
            true := by
  unfold deferredChecks
  simp only [Txn.run_bind_eq_ok_iff, Txn.run_query_eq_ok_iff,
    Txn.run_require_eq_ok_iff, Txn.run_ofExcept_eq_ok_iff, id]
  constructor
  · rintro ⟨_, _, ⟨rfl, rfl⟩, _, _, ⟨hRequired, rfl⟩, hIdentity,
      rfl⟩
    exact ⟨rfl, hIdentity, hRequired⟩
  · rintro ⟨rfl, hIdentity, hRequired⟩
    exact ⟨_, _, ⟨rfl, rfl⟩, (), _, ⟨hRequired, rfl⟩,
      hIdentity, rfl⟩

theorem createItemRequest_run_iff
    {newId r : Uuid}
    {now : Time}
    {payload : ItemCreate} :
    (createItemRequest env newId now payload).run s =
        .ok (r, s') ↔
      (createItem env newId now payload).run s =
        .ok (r, s') ∧
      (deferredChecks env newId).run s' = .ok ((), s') := by
  unfold createItemRequest
  simp only [Txn.run_bind_eq_ok_iff, Txn.run_pure_eq_ok_iff]
  constructor
  · rintro ⟨id, t, hRun, _, t', hChecks, rfl, rfl⟩
    have hId := (createItem_run_iff.mp hRun).1
    have hSame := (deferredChecks_run_iff.mp hChecks).1
    subst hId hSame
    exact ⟨hRun, hChecks⟩
  · rintro ⟨hRun, hChecks⟩
    have hId := (createItem_run_iff.mp hRun).1
    subst hId
    exact ⟨_, _, hRun, (), _, hChecks, rfl, rfl⟩

theorem updateItemRequest_run_iff
    {itemId r : Uuid}
    {now : Time}
    {patch : ItemPatch} :
    (updateItemRequest env now itemId patch).run s =
        .ok (r, s') ↔
      (updateItem env now itemId patch).run s =
        .ok (r, s') ∧
      (deferredChecks env itemId).run s' = .ok ((), s') := by
  unfold updateItemRequest
  simp only [Txn.run_bind_eq_ok_iff, Txn.run_pure_eq_ok_iff]
  constructor
  · rintro ⟨id, t, hRun, _, t', hChecks, rfl, rfl⟩
    have hId := (updateItem_run_iff.mp hRun).1
    have hSame := (deferredChecks_run_iff.mp hChecks).1
    subst hId hSame
    exact ⟨hRun, hChecks⟩
  · rintro ⟨hRun, hChecks⟩
    have hId := (updateItem_run_iff.mp hRun).1
    subst hId
    exact ⟨_, _, hRun, (), _, hChecks, rfl, rfl⟩

theorem createManufacturer_run_iff
    {newId : Uuid}
    {name : Text}
    {m : Manufacturer} :
    (createManufacturer env newId name).run s = .ok (m, s') ↔
      normalizeInlineText name "manufacturer_name" 255 =
        .ok m.name ∧
      normalizeComparison env.unicode m.name
        "manufacturer_name" 255 = .ok m.normalizedName ∧
      (∀ other ∈ s.manufacturers,
        other.normalizedName ≠ m.normalizedName) ∧
      (∀ other ∈ s.manufacturers, other.id ≠ newId) ∧
      m.id = newId ∧
      s' = { s with
        manufacturers := s.manufacturers ++ [m] } := by
  unfold createManufacturer
  simp only [Txn.run_bind_eq_ok_iff,
    Txn.run_ofExcept_eq_ok_iff, Txn.run_query_eq_ok_iff,
    Txn.run_require_eq_ok_iff, Txn.run_update_eq_ok_iff,
    Txn.run_pure_eq_ok_iff, id]
  constructor
  · rintro ⟨name', _, ⟨hName, rfl⟩, nName, _, ⟨hNName, rfl⟩,
      _, _, ⟨rfl, rfl⟩, _, _, ⟨hUnique, rfl⟩, _, _,
      ⟨hFresh, rfl⟩, _, _, rfl, rfl, rfl⟩
    exact ⟨hName, hNName, hUnique, hFresh, rfl, rfl⟩
  · rintro ⟨hName, hNName, hUnique, hFresh, rfl, rfl⟩
    exact ⟨_, _, ⟨hName, rfl⟩, _, _, ⟨hNName, rfl⟩,
      _, _, ⟨rfl, rfl⟩, (), _, ⟨hUnique, rfl⟩, (), _,
      ⟨hFresh, rfl⟩, (), _, rfl, rfl, rfl⟩

------------------------------------------------------------
-- Items
------------------------------------------------------------

/- An item with the same names and the same identity. -/
structure SameItem (item item' : Item) : Prop where
  id : item'.id = item.id
  category : item'.categoryId = item.categoryId
  manufacturer : item'.manufacturerId = item.manufacturerId
  name : item'.name = item.name
  normalizedName : item'.normalizedName = item.normalizedName
  model : item'.model = item.model
  normalizedModel : item'.normalizedModel =
    item.normalizedModel
  signature : item'.identitySignature =
    item.identitySignature

theorem SameItem.refl (item : Item) : SameItem item item :=
  ⟨rfl, rfl, rfl, rfl, rfl, rfl, rfl, rfl⟩

theorem sameItem_archivedItem
    (now : Time)
    (archived : Bool)
    (item : Item) :
    SameItem item (archivedItem now archived item) :=
  ⟨rfl, rfl, rfl, rfl, rfl, rfl, rfl, rfl⟩

theorem setItemArchived_run
    {now : Time}
    {itemId r : Uuid}
    {archived : Bool}
    (h : (setItemArchived now itemId archived).run s =
      .ok (r, s')) :
    s' = s ∨ s' = { s with
      items := Table.rewrite Item.id itemId
        (archivedItem now archived) s.items } := by
  unfold setItemArchived at h
  simp only [Txn.run_bind_eq_ok_iff,
    Txn.run_acquire_eq_ok_iff, Txn.run_query_eq_ok_iff,
    Txn.run_getOrFail_eq_ok_iff] at h
  rcases h with ⟨_, _, rfl, _, _, ⟨rfl, rfl⟩, item, _, ⟨_, rfl⟩,
    hRest⟩
  split at hRest
  · rw [Txn.run_pure_eq_ok_iff] at hRest
    exact Or.inl hRest.2
  · simp only [Txn.run_bind_eq_ok_iff, Txn.run_update_eq_ok_iff,
      Txn.run_pure_eq_ok_iff] at hRest
    rcases hRest with ⟨_, _, rfl, _, rfl⟩
    exact Or.inr rfl

/-
  What a stored item has: an accepted draft, from which its
  columns and its rows were made.
-/
structure Recorded
    (env : CatalogEnv)
    (s : Db)
    (item : Item)
    (payload : ItemCreate)
    (p : PreparedItemIdentity)
    (rows : List ItemAttributeValue) : Prop where
  prepares : prepareStoredIdentity env.unicode env.sha256 s
    payload = .ok p
  category : item.categoryId = p.category.id
  manufacturer : item.manufacturerId = payload.manufacturerId
  name : normalizeInlineText payload.name "name" 255 =
    .ok item.name
  normalizedName : normalizeComparison env.unicode item.name
    "name" 255 = .ok item.normalizedName
  model : normalizeOptionalInlineText "model" 255
    payload.model = .ok item.model
  normalizedModel : normalizeOptionalComparison env.unicode
    "model" 255 item.model = .ok item.normalizedModel
  signature : item.identitySignature = p.identitySignature
  holds : Holds s item.id p.category.id p.values rows

/- What is not changed of an item's catalog and its rows. -/
theorem Recorded.frame
    {item item' : Item}
    {payload : ItemCreate}
    {p : PreparedItemIdentity}
    {rows : List ItemAttributeValue}
    (h : Recorded env s item payload p rows)
    (hSame : SameItem item item')
    (hPrepares : prepareStoredIdentity env.unicode env.sha256 s'
      payload = .ok p)
    (hAttributes : s'.categoryAttributes =
      s.categoryAttributes)
    (hOwn : s'.itemAttributeValues.filter (fun row =>
        row.itemId = item.id) =
      s.itemAttributeValues.filter (fun row =>
        row.itemId = item.id)) :
    Recorded env s' item' payload p rows where
  prepares := hPrepares
  category := hSame.category.trans h.category
  manufacturer := hSame.manufacturer.trans h.manufacturer
  name := by rw [hSame.name]; exact h.name
  normalizedName := by
    rw [hSame.name, hSame.normalizedName]
    exact h.normalizedName
  model := by rw [hSame.model]; exact h.model
  normalizedModel := by
    rw [hSame.model, hSame.normalizedModel]
    exact h.normalizedModel
  signature := hSame.signature.trans h.signature
  holds := by
    rw [hSame.id]
    exact ⟨h.holds.stored, hOwn.trans h.holds.own, by
      rw [hAttributes]; exact h.holds.known, h.holds.keys⟩

/- Comparison does not see white space that is normalised. -/
theorem normalizeComparison_normalize
    (U : Unicode)
    (value : Text)
    (field : String)
    (n : Nat) :
    normalizeComparison U (Text.normalize value) field n =
      normalizeComparison U value field n := by
  unfold normalizeComparison
  rw [Text.normalize_normalize]

/- A created item is recorded once its names are checked. -/
theorem Creates.recorded
    (hKeys : CatalogKeys s)
    (hOwned : RowsOfItems s)
    {newId : Uuid}
    {now : Time}
    {payload : ItemCreate}
    {p : PreparedItemIdentity}
    {columns : ItemColumns}
    {rows : List ItemAttributeValue}
    (h : Creates env newId now payload p columns rows s s')
    (hNames : CanonicalNames env.unicode
      (newItem newId now payload p.category columns)) :
    Recorded env s'
      (newItem newId now payload p.category columns)
      payload p rows := by
  rcases normalizeInlineText_eq_ok h.derives.name with
    ⟨hName, _⟩
  have hModel := normalizeOptionalInlineText_eq_ok
    h.derives.model
  constructor
  · rw [← h.prepares, h.result]
    exact prepareStoredIdentity_congr rfl rfl rfl payload
  · rfl
  · rfl
  · exact h.derives.name
  · change normalizeComparison env.unicode columns.name _ _ = _
    rw [hName, normalizeComparison_normalize]
    exact h.derives.normalizedName
  · exact h.derives.model
  · change normalizeOptionalComparison env.unicode _ _
      columns.model = .ok columns.normalizedModel
    have hNorm := h.derives.normalizedModel
    have hCanonical : columns.normalizedModel =
      columns.model.map _ := hNames.2
    cases hCase : columns.model with
    | none =>
        rw [hCanonical, hCase]
        rfl
    | some m =>
        rw [hCase] at hModel
        rcases Option.filter_eq_some_iff.mp hModel.symm with
          ⟨hMap, hNe⟩
        rcases Option.map_eq_some_iff.mp hMap with ⟨w, hw, rfl⟩
        have hNil : Text.normalize w ≠ [] := by simpa using hNe
        have hText : ∀ v : Text, v ≠ [] →
            normalizeOptionalComparison env.unicode "model" 255
              (some v) = (normalizeComparison env.unicode v
                "model" 255).map some := by
          intro v hv
          cases v with
          | nil => exact absurd rfl hv
          | cons c cs => rfl
        rw [hw, hText w (fun hEq => hNil (by rw [hEq]; rfl))]
          at hNorm
        rw [hText _ hNil, normalizeComparison_normalize]
        exact hNorm
  · exact h.derives.signature
  · exact h.holds hKeys hOwned

/- An edited item is recorded. -/
theorem Edits.recorded
    (hKeys : CatalogKeys s)
    {now : Time}
    {itemId : Uuid}
    {patch : ItemPatch}
    {item : Item}
    {merged : ItemCreate}
    {p : PreparedItemIdentity}
    {columns : ItemColumns}
    {rows : List ItemAttributeValue}
    (h : Edits env now itemId patch item merged p columns rows
      s s')
    (hCategory : item.categoryId = p.category.id) :
    Recorded env s' (editedItem now merged columns item)
      merged p rows := by
  have hId : item.id = itemId :=
    Table.key_of_find h.reads.found
  constructor
  · rw [← h.prepares, h.result]
    exact prepareStoredIdentity_congr rfl rfl rfl merged
  · exact hCategory
  · rfl
  · exact h.derives.name
  · exact h.derives.normalizedName
  · exact h.derives.model
  · exact h.derives.normalizedModel
  · exact h.derives.signature
  · change Holds s' item.id _ _ _
    rw [hId]
    exact h.holds hKeys

------------------------------------------------------------
-- Categories
------------------------------------------------------------

theorem leaves_small :
    ∀ key ∈ leaves, ∀ c ∈ key, Unicode.isSmall c = true := by
  have hAll : leaves.all (fun key =>
      key.all Unicode.isSmall) = true := by
    decide
  intro key hKey
  exact List.all_eq_true.mp
    (List.all_eq_true.mp hAll key hKey)

/- The key of a leaf is in its normal form. -/
theorem normalizeCategoryKey_leaf
    {U : Unicode}
    (hFold : U.FoldsSmall)
    {key : Text}
    (hLeaf : key ∈ leaves) :
    normalizeCategoryKey U key = .ok key := by
  have hText : ∀ key ∈ leaves,
      normalizeInlineText key "category_key" 64 =
        .ok key := by
    decide
  have hFolded : ∀ v : Text,
      (∀ c ∈ v, Unicode.isSmall c = true) →
      U.casefold v = v := by
    intro v hv
    unfold Unicode.casefold
    induction v with
    | nil => rfl
    | cons c cs ih =>
        rw [List.flatMap_cons, hFold c (hv c List.mem_cons_self),
          ih fun d hd => hv d (List.mem_cons_of_mem c hd)]
        rfl
  unfold normalizeCategoryKey
  rw [hText key hLeaf]
  exact congrArg Except.ok
    (hFolded key (leaves_small key hLeaf))

/- An edit prepares a draft of the item's own category. -/
theorem Edits.category
    (hFold : env.unicode.FoldsSmall)
    (hKeys : CatalogKeys s)
    {now : Time}
    {itemId : Uuid}
    {patch : ItemPatch}
    {item : Item}
    {merged payload : ItemCreate}
    {p q : PreparedItemIdentity}
    {columns : ItemColumns}
    {rows rows' : List ItemAttributeValue}
    (h : Edits env now itemId patch item merged p columns rows
      s s')
    (hItem : Recorded env s item payload q rows') :
    p.category = q.category := by
  rcases (prepareStoredIdentity_iff hKeys).mp h.prepares with
    ⟨attributes, hDraft⟩
  rcases (prepareStoredIdentity_iff hKeys).mp
    hItem.prepares with ⟨attributes', hDraft'⟩
  rcases h.reads.merges with
    ⟨stored, category, _, hCategory, hMerged⟩
  have hFind := Table.find_of_mem hKeys.categories
    hDraft'.category
  rw [← hItem.category, hCategory] at hFind
  cases hFind
  have hKey := hDraft.categoryKey
  rw [(mergePatch_eq_ok_iff.mp hMerged).2.1,
    normalizeCategoryKey_leaf hFold hDraft'.leaf.2] at hKey
  exact category_eq_of_key hKeys hDraft.category
    hDraft'.category (Except.ok.inj hKey).symm

------------------------------------------------------------
-- Invariants
------------------------------------------------------------

/- What holds of a catalog at all times. -/
structure CatalogInv (env : CatalogEnv) (s : Db) : Prop where
  keys : CatalogKeys s
  owned : RowsOfItems s
  itemIds : (s.items.map Item.id).Nodup
  signatures : (s.items.map Item.identitySignature).Nodup
  recorded : ∀ item ∈ s.items, ∃ payload p rows,
    Recorded env s item payload p rows

theorem SameCatalog.catalogKeys
    (h : SameCatalog s s')
    (hKeys : CatalogKeys s) :
    CatalogKeys s' where
  categories := by rw [h.categories]; exact hKeys.categories
  categoryKeys := by
    rw [h.categories]
    exact hKeys.categoryKeys
  manufacturers := by
    rw [h.manufacturers]
    exact hKeys.manufacturers
  attributes := by rw [h.attributes]; exact hKeys.attributes
  attributeKeys := by
    rw [h.attributes]
    exact hKeys.attributeKeys

/- Items whose catalog and rows are kept stay recorded. -/
theorem Recorded.keep
    {item item' : Item}
    {payload : ItemCreate}
    {p : PreparedItemIdentity}
    {rows : List ItemAttributeValue}
    (h : Recorded env s item payload p rows)
    (hSame : SameItem item item')
    (hCategories : s'.categories = s.categories)
    (hAttributes : s'.categoryAttributes =
      s.categoryAttributes)
    (hManufacturers : s'.manufacturers = s.manufacturers)
    (hOwn : s'.itemAttributeValues.filter (fun row =>
        row.itemId = item.id) =
      s.itemAttributeValues.filter (fun row =>
        row.itemId = item.id)) :
    Recorded env s' item' payload p rows := by
  apply h.frame hSame _ hAttributes hOwn
  rw [prepareStoredIdentity_congr hCategories hAttributes
    hManufacturers]
  exact h.prepares

theorem CatalogInv.other
    (h : CatalogInv env s)
    (hSame : SameCatalog s s') :
    CatalogInv env s' where
  keys := hSame.catalogKeys h.keys
  owned := by
    unfold RowsOfItems
    rw [hSame.rows, hSame.items]
    exact h.owned
  itemIds := by rw [hSame.items]; exact h.itemIds
  signatures := by rw [hSame.items]; exact h.signatures
  recorded := by
    rw [hSame.items]
    intro item hItem
    rcases h.recorded item hItem with ⟨payload, p, rows, hRec⟩
    exact ⟨payload, p, rows, hRec.keep (SameItem.refl item)
      hSame.categories hSame.attributes hSame.manufacturers
      (by rw [hSame.rows])⟩

/- A new manufacturer changes no draft that is accepted. -/
theorem CatalogInv.manufacturer
    (h : CatalogInv env s)
    {m : Manufacturer}
    (hFresh : ∀ other ∈ s.manufacturers, other.id ≠ m.id) :
    CatalogInv env { s with
      manufacturers := s.manufacturers ++ [m] } := by
  have hKeys : CatalogKeys { s with
      manufacturers := s.manufacturers ++ [m] } := by
    refine ⟨h.keys.categories, h.keys.categoryKeys, ?_,
      h.keys.attributes, h.keys.attributeKeys⟩
    rw [List.map_append, List.nodup_append]
    refine ⟨h.keys.manufacturers, by simp, ?_⟩
    intro id hOld id' hNew hEq
    rcases List.mem_map.mp hOld with ⟨other, hOther, rfl⟩
    rw [List.map_singleton, List.mem_singleton] at hNew
    exact hFresh other hOther (hEq.trans hNew)
  refine ⟨hKeys, h.owned, h.itemIds, h.signatures, ?_⟩
  intro item hItem
  rcases h.recorded item hItem with ⟨payload, p, rows, hRec⟩
  refine ⟨payload, p, rows, hRec.frame (SameItem.refl item) ?_
    rfl rfl⟩
  rcases (prepareStoredIdentity_iff h.keys).mp hRec.prepares
    with ⟨attributes, hDraft⟩
  refine (prepareStoredIdentity_iff hKeys).mpr ⟨attributes,
    hDraft.category, hDraft.categoryKey, hDraft.leaf, ?_,
    hDraft.identity, hDraft.derives, hDraft.validates,
    hDraft.signature⟩
  have hMaker := hDraft.manufacturer
  unfold DraftManufacturer at hMaker ⊢
  cases hId : payload.manufacturerId with
  | none =>
      rw [hId] at hMaker
      exact hMaker
  | some id =>
      rw [hId] at hMaker
      rcases hMaker with ⟨x, hx, hEq⟩
      exact ⟨x, List.mem_append_left _ hx, hEq⟩

/- Rewriting an item with what it had keeps the invariant. -/
theorem CatalogInv.archived
    (h : CatalogInv env s)
    {itemId : Uuid}
    {f : Item → Item}
    (hSame : ∀ item, SameItem item (f item)) :
    CatalogInv env { s with
      items := Table.rewrite Item.id itemId f s.items } := by
  have hIds := Table.map_key_rewrite (fun r => (hSame r).id)
    s.items (k := itemId)
  have hSignatures : (Table.rewrite Item.id itemId f
      s.items).map Item.identitySignature =
        s.items.map Item.identitySignature := by
    unfold Table.rewrite
    rw [List.map_map]
    apply List.map_congr_left
    intro r _
    rw [Function.comp_apply]
    split
    · exact (hSame r).signature
    · rfl
  constructor
  · exact ⟨h.keys.categories, h.keys.categoryKeys,
      h.keys.manufacturers, h.keys.attributes,
      h.keys.attributeKeys⟩
  · intro row hRow
    rcases h.owned row hRow with ⟨item, hItem, hId⟩
    have hMem : row.itemId ∈ (Table.rewrite Item.id itemId f
        s.items).map Item.id := by
      rw [hIds, ← hId]
      exact List.mem_map_of_mem hItem
    rcases List.mem_map.mp hMem with ⟨item', hItem', hId'⟩
    exact ⟨item', hItem', hId'⟩
  · change ((Table.rewrite Item.id itemId f s.items).map
      Item.id).Nodup
    rw [hIds]
    exact h.itemIds
  · change ((Table.rewrite Item.id itemId f s.items).map
      Item.identitySignature).Nodup
    rw [hSignatures]
    exact h.signatures
  · intro item hItem
    rcases Table.mem_rewrite.mp hItem with
      ⟨hOld, _⟩ | ⟨old, hOld, _, rfl⟩
    · rcases h.recorded item hOld with ⟨payload, p, rows, hRec⟩
      exact ⟨payload, p, rows, hRec.keep (SameItem.refl item)
        rfl rfl rfl rfl⟩
    · rcases h.recorded old hOld with ⟨payload, p, rows, hRec⟩
      exact ⟨payload, p, rows, hRec.keep (hSame old)
        rfl rfl rfl rfl⟩

theorem CatalogInv.deleted
    (h : CatalogInv env s)
    (itemId : Uuid) :
    CatalogInv env (deleteItem itemId s) := by
  constructor
  · exact ⟨h.keys.categories, h.keys.categoryKeys,
      h.keys.manufacturers, h.keys.attributes,
      h.keys.attributeKeys⟩
  · intro row hRow
    rcases List.mem_filter.mp hRow with ⟨hOld, hNe⟩
    rcases h.owned row hOld with ⟨item, hItem, hId⟩
    refine ⟨item, List.mem_filter.mpr ⟨hItem, ?_⟩, hId⟩
    rw [hId]
    exact hNe
  · exact Table.nodup_erase itemId h.itemIds
  · exact h.signatures.sublist (List.filter_sublist.map _)
  · intro item hItem
    rcases List.mem_filter.mp hItem with ⟨hOld, hNe⟩
    rw [decide_eq_true_eq] at hNe
    rcases h.recorded item hOld with ⟨payload, p, rows, hRec⟩
    refine ⟨payload, p, rows, hRec.keep (SameItem.refl item)
      rfl rfl rfl ?_⟩
    change (List.filter _ (List.filter _ _)) = _
    rw [List.filter_filter]
    apply List.filter_congr
    intro row _
    by_cases hRow : row.itemId = item.id
    · simp [hRow, hNe]
    · simp [hRow]

theorem CatalogInv.created
    (h : CatalogInv env s)
    {newId : Uuid}
    {now : Time}
    {payload : ItemCreate}
    {p : PreparedItemIdentity}
    {columns : ItemColumns}
    {rows : List ItemAttributeValue}
    (hCreates : Creates env newId now payload p columns rows
      s s')
    (hNames : CanonicalNames env.unicode
      (newItem newId now payload p.category columns)) :
    CatalogInv env s' := by
  have hOwned := hCreates.rowsOfItems h.owned
  have hNew := hCreates.recorded h.keys h.owned hNames
  have hOwn := itemId_of_rows
    (Option.mapM_eq_some_iff.mp hCreates.stores.1)
  rw [hCreates.result] at hOwned hNew ⊢
  refine ⟨⟨h.keys.categories, h.keys.categoryKeys,
    h.keys.manufacturers, h.keys.attributes,
    h.keys.attributeKeys⟩, hOwned, ?_, ?_, ?_⟩
  · rw [List.map_append, List.nodup_append]
    refine ⟨h.itemIds, by simp, ?_⟩
    intro id hOld id' hNewId hEq
    rcases List.mem_map.mp hOld with ⟨other, hOther, rfl⟩
    rw [List.map_singleton, List.mem_singleton] at hNewId
    exact hCreates.fresh other hOther (hEq.trans hNewId)
  · rw [List.map_append, List.nodup_append]
    refine ⟨h.signatures, by simp, ?_⟩
    intro x hOld y hNewSignature hEq
    rcases List.mem_map.mp hOld with ⟨other, hOther, rfl⟩
    rw [List.map_singleton, List.mem_singleton]
      at hNewSignature
    exact hCreates.unique other hOther
      (hEq.trans hNewSignature)
  · intro item hItem
    rcases List.mem_append.mp hItem with hOld | hSelf
    · rcases h.recorded item hOld with ⟨old, q, rows', hRec⟩
      refine ⟨old, q, rows', hRec.keep (SameItem.refl item)
        rfl rfl rfl ?_⟩
      change List.filter _ (_ ++ rows) = _
      rw [List.filter_append]
      have hNone : rows.filter (fun row =>
          decide (row.itemId = item.id)) = [] := by
        rw [List.filter_eq_nil_iff]
        intro row hRow
        rw [decide_eq_true_eq, hOwn row hRow]
        exact Ne.symm (hCreates.fresh item hOld)
      rw [hNone, List.append_nil]
    · rw [List.mem_singleton.mp hSelf]
      exact ⟨payload, p, rows, hNew⟩

theorem CatalogInv.edited
    (hFold : env.unicode.FoldsSmall)
    (h : CatalogInv env s)
    {now : Time}
    {itemId : Uuid}
    {patch : ItemPatch}
    {item : Item}
    {merged : ItemCreate}
    {p : PreparedItemIdentity}
    {columns : ItemColumns}
    {rows : List ItemAttributeValue}
    (hEdits : Edits env now itemId patch item merged p columns
      rows s s') :
    CatalogInv env s' := by
  have hMem := Table.mem_of_find hEdits.reads.found
  have hId : item.id = itemId :=
    Table.key_of_find hEdits.reads.found
  rcases h.recorded item hMem with ⟨payload, q, old, hRec⟩
  have hCategory := hEdits.category hFold h.keys hRec
  have hNew := hEdits.recorded h.keys
    (hRec.category.trans (congrArg Category.id hCategory.symm))
  have hOwn := itemId_of_rows
    (Option.mapM_eq_some_iff.mp hEdits.stores.1)
  have hIds : (Table.rewrite Item.id itemId
      (editedItem now merged columns) s.items).map Item.id =
        s.items.map Item.id := by
    apply Table.map_key_rewrite
    exact fun _ => rfl
  have hOnly : ∀ other ∈ s.items, other.id = itemId →
      other = item := fun other hOther hSame =>
    List.inj_on_of_nodup_map h.itemIds hOther hMem
      (hSame.trans hId.symm)
  rw [hEdits.result] at hNew ⊢
  refine ⟨⟨h.keys.categories, h.keys.categoryKeys,
    h.keys.manufacturers, h.keys.attributes,
    h.keys.attributeKeys⟩, ?_, ?_, ?_, ?_⟩
  · intro row hRow
    have hSome : row.itemId ∈ s.items.map Item.id := by
      rcases List.mem_append.mp hRow with hOld | hNewRow
      · rcases h.owned row (List.mem_filter.mp hOld).1 with
          ⟨other, hOther, hEq⟩
        rw [← hEq]
        exact List.mem_map_of_mem hOther
      · rw [hOwn row hNewRow, ← hId]
        exact List.mem_map_of_mem hMem
    rw [← hIds] at hSome
    rcases List.mem_map.mp hSome with ⟨other, hOther, hEq⟩
    exact ⟨other, hOther, hEq⟩
  · change ((Table.rewrite _ _ _ _).map Item.id).Nodup
    rw [hIds]
    exact h.itemIds
  · change ((Table.rewrite Item.id itemId
      (editedItem now merged columns) s.items).map
        Item.identitySignature).Nodup
    unfold Table.rewrite
    rw [List.map_map]
    apply List.Nodup.map_on _ (List.Nodup.of_map _ h.itemIds)
    intro a ha b hb hEq
    simp only [Function.comp_apply] at hEq
    by_cases hA : a.id = itemId
    · by_cases hB : b.id = itemId
      · rw [hOnly a ha hA, hOnly b hb hB]
      · rw [if_pos hA, if_neg hB] at hEq
        exact absurd hEq.symm (hEdits.unique b hb hB)
    · by_cases hB : b.id = itemId
      · rw [if_neg hA, if_pos hB] at hEq
        exact absurd hEq (hEdits.unique a ha hA)
      · rw [if_neg hA, if_neg hB] at hEq
        exact List.inj_on_of_nodup_map h.signatures ha hb hEq
  · intro other hOther
    rcases Table.mem_rewrite.mp hOther with
      ⟨hOld, hNe⟩ | ⟨old', hOld, hSame, rfl⟩
    · rcases h.recorded other hOld with ⟨payload', q', rows', hKept⟩
      refine ⟨payload', q', rows', hKept.keep
        (SameItem.refl other) rfl rfl rfl ?_⟩
      change List.filter _ (List.filter _ _ ++ rows) = _
      rw [List.filter_append, List.filter_filter]
      have hNone : rows.filter (fun row =>
          decide (row.itemId = other.id)) = [] := by
        rw [List.filter_eq_nil_iff]
        intro row hRow
        rw [decide_eq_true_eq, hOwn row hRow]
        exact Ne.symm hNe
      rw [hNone, List.append_nil]
      apply List.filter_congr
      intro row _
      by_cases hRow : row.itemId = other.id
      · simp [hRow, hNe]
      · simp [hRow]
    · rw [hOnly old' hOld hSame]
      exact ⟨merged, p, rows, hNew⟩

/- Every step keeps the invariant. -/
theorem CatalogInv.step
    (hFold : env.unicode.FoldsSmall)
    (h : CatalogInv env s)
    (hStep : CatalogStep env s s') :
    CatalogInv env s' := by
  cases hStep with
  | createManufacturer hRun =>
      rcases createManufacturer_run_iff.mp hRun with
        ⟨_, _, _, hFresh, hId, rfl⟩
      apply h.manufacturer
      rw [hId]
      exact hFresh
  | @createItem newId now payload r hRun =>
      rcases createItemRequest_run_iff.mp hRun with
        ⟨hCreate, hChecks⟩
      rcases createItem_run_iff.mp hCreate with
        ⟨_, p, columns, rows, hCreates⟩
      exact h.created hCreates (assertCatalogItemIdentity_names
        hCreates.found (deferredChecks_run_iff.mp hChecks).2.1)
  | updateItem hRun =>
      rcases updateItemRequest_run_iff.mp hRun with
        ⟨hUpdate, _⟩
      rcases updateItem_run_iff.mp hUpdate with
        ⟨_, item, merged, p, columns, rows, hEdits⟩
      exact h.edited hFold hEdits
  | setItemArchived hRun =>
      rcases setItemArchived_run hRun with rfl | rfl
      · exact h
      · exact h.archived (sameItem_archivedItem _ _)
  | deleteItem hDelete =>
      rw [hDelete]
      exact h.deleted _
  | other hSame => exact h.other hSame

theorem CatalogHistory.inv
    (hFold : env.unicode.FoldsSmall)
    (h : CatalogHistory env s) :
    CatalogInv env s := by
  induction h with
  | start hKeys hItems hRows =>
      refine ⟨hKeys, ?_, ?_, ?_, ?_⟩
      · intro row hRow
        rw [hRows] at hRow
        cases hRow
      · rw [hItems]
        exact List.nodup_nil
      · rw [hItems]
        exact List.nodup_nil
      · intro item hItem
        rw [hItems] at hItem
        cases hItem
  | step _ hStep ih => exact ih.step hFold hStep

end Catalog
