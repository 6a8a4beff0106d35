import DcInventory.Catalog.Service
import DcInventory.Library.Fallible

/-
  This file proves what creating and editing an item do, and
  when they succeed.

  Key definitions include:
    * `Catalog.Creates`
    * `Catalog.Edits`

  Key theorems include:
    * `Catalog.mergePatch_eq_ok_iff`
    * `Catalog.createItem_run_iff`
    * `Catalog.updateItem_run_iff`
-/

namespace Catalog

variable {env : CatalogEnv}

------------------------------------------------------------
-- Columns
------------------------------------------------------------

/- The columns of an item that its writers derive. -/
structure ItemColumns where
  name : Text
  normalizedName : Text
  model : Option Text
  normalizedModel : Option Text
  identitySignature : Text

/- The new item of a draft. -/
def newItem
    (newId : Uuid)
    (now : Time)
    (payload : ItemCreate)
    (category : Category)
    (columns : ItemColumns) : Item where
  id := newId
  categoryId := category.id
  manufacturerId := payload.manufacturerId
  name := columns.name
  normalizedName := columns.normalizedName
  model := columns.model
  normalizedModel := columns.normalizedModel
  status := .active
  identitySignature := columns.identitySignature
  archivedAt := none
  updatedAt := now

/- The item after an edit. -/
def editedItem
    (now : Time)
    (merged : ItemCreate)
    (columns : ItemColumns)
    (item : Item) : Item :=
  { item with
    manufacturerId := merged.manufacturerId
    name := columns.name
    normalizedName := columns.normalizedName
    model := columns.model
    normalizedModel := columns.normalizedModel
    identitySignature := columns.identitySignature
    updatedAt := now }

/- The rows of values that the database accepts. -/
def StoresRows
    (db : Db)
    (itemId categoryId : Uuid)
    (values : List PreparedAttributeValue)
    (rows : List ItemAttributeValue) : Prop :=
  values.mapM (itemAttributeRow itemId categoryId) =
      some rows ∧
    ∀ row ∈ rows, validateItemAttributeValueDataType
      db.categoryAttributes row = true

theorem insertAttributeRows_run_iff
    {itemId categoryId : Uuid}
    {values : List PreparedAttributeValue}
    {s s' : Db}
    {u : Unit} :
    (insertAttributeRows itemId categoryId values).run s =
        .ok (u, s') ↔
      ∃ rows, StoresRows s itemId categoryId values rows ∧
        s' = { s with
          itemAttributeValues :=
            s.itemAttributeValues ++ rows } := by
  unfold insertAttributeRows StoresRows
  simp only [Txn.run_bind_eq_ok_iff,
    Txn.run_getOrFail_eq_ok_iff, Txn.run_query_eq_ok_iff,
    Txn.run_require_eq_ok_iff, Txn.run_update_eq_ok_iff, id]
  constructor
  · rintro ⟨rows, _, ⟨hRows, rfl⟩, _, _, ⟨rfl, rfl⟩, _, _,
      ⟨hValid, rfl⟩, rfl⟩
    exact ⟨rows, ⟨hRows, hValid⟩, rfl⟩
  · rintro ⟨rows, ⟨hRows, hValid⟩, rfl⟩
    exact ⟨rows, s, ⟨hRows, rfl⟩, s, s, ⟨rfl, rfl⟩, (), s,
      ⟨hValid, rfl⟩, rfl⟩

------------------------------------------------------------
-- Creation
------------------------------------------------------------

/- The columns that `create_item` derives from a draft. -/
structure CreatedColumns
    (env : CatalogEnv)
    (payload : ItemCreate)
    (prepared : PreparedItemIdentity)
    (columns : ItemColumns) : Prop where
  name : normalizeInlineText payload.name "name" 255 =
    .ok columns.name
  normalizedName : normalizeComparison env.unicode payload.name
    "name" 255 = .ok columns.normalizedName
  model : normalizeOptionalInlineText "model" 255
    payload.model = .ok columns.model
  normalizedModel : normalizeOptionalComparison env.unicode
    "model" 255 payload.model = .ok columns.normalizedModel
  signature : columns.identitySignature =
    prepared.identitySignature

/- What a successful creation does to the database. -/
structure Creates
    (env : CatalogEnv)
    (newId : Uuid)
    (now : Time)
    (payload : ItemCreate)
    (prepared : PreparedItemIdentity)
    (columns : ItemColumns)
    (rows : List ItemAttributeValue)
    (s s' : Db) : Prop where
  prepares : prepareStoredIdentity env.unicode env.sha256 s
    payload = .ok prepared
  derives : CreatedColumns env payload prepared columns
  fresh : ∀ other ∈ s.items, other.id ≠ newId
  unique : ∀ other ∈ s.items,
    other.identitySignature ≠ columns.identitySignature
  stores : StoresRows s newId prepared.category.id
    prepared.values rows
  result : s' = { s with
    items := s.items ++
      [newItem newId now payload prepared.category columns]
    itemAttributeValues := s.itemAttributeValues ++ rows }

theorem createItem_run_iff
    {newId id' : Uuid}
    {now : Time}
    {payload : ItemCreate}
    {s s' : Db} :
    (createItem env newId now payload).run s = .ok (id', s') ↔
      id' = newId ∧ ∃ prepared columns rows,
        Creates env newId now payload prepared columns rows
          s s' := by
  unfold createItem
  simp only [Txn.run_bind_eq_ok_iff,
    Txn.run_ofExcept_eq_ok_iff, Txn.run_query_eq_ok_iff,
    Txn.run_require_eq_ok_iff, Txn.run_update_eq_ok_iff,
    Txn.run_pure_eq_ok_iff, insertAttributeRows_run_iff, id]
  constructor
  · rintro ⟨_, _, ⟨rfl, rfl⟩, prepared, _, ⟨hPrepared, rfl⟩,
      name, _, ⟨hName, rfl⟩, nName, _, ⟨hNName, rfl⟩,
      model, _, ⟨hModel, rfl⟩, nModel, _, ⟨hNModel, rfl⟩,
      _, _, ⟨rfl, rfl⟩, _, _, ⟨hFresh, rfl⟩, _, _,
      ⟨hUnique, rfl⟩, _, _, rfl,
      _, _, ⟨rows, hRows, rfl⟩, rfl, rfl⟩
    refine ⟨rfl, prepared, ⟨name, nName, model, nModel,
      prepared.identitySignature⟩, rows, hPrepared,
      ⟨hName, hNName, hModel, hNModel, rfl⟩, hFresh, hUnique,
      hRows, rfl⟩
  · rintro ⟨rfl, prepared, ⟨name, nName, model, nModel,
      signature⟩, rows, h⟩
    rcases h with ⟨hPrepared, hColumns, hFresh, hUnique, hRows,
      rfl⟩
    have hSignature := hColumns.signature
    subst hSignature
    exact ⟨_, _, ⟨rfl, rfl⟩, prepared, _, ⟨hPrepared, rfl⟩,
      name, _, ⟨hColumns.name, rfl⟩, nName, _,
      ⟨hColumns.normalizedName, rfl⟩, model, _,
      ⟨hColumns.model, rfl⟩, nModel, _,
      ⟨hColumns.normalizedModel, rfl⟩, _, _, ⟨rfl, rfl⟩, (), _,
      ⟨hFresh, rfl⟩, (), _, ⟨hUnique, rfl⟩, (), _, rfl, (), _,
      ⟨rows, hRows, rfl⟩, rfl, rfl⟩

------------------------------------------------------------
-- Editing
------------------------------------------------------------

/- The columns that `update_item` derives from a draft. -/
structure EditedColumns
    (env : CatalogEnv)
    (merged : ItemCreate)
    (prepared : PreparedItemIdentity)
    (columns : ItemColumns) : Prop where
  name : normalizeInlineText merged.name "name" 255 =
    .ok columns.name
  normalizedName : normalizeComparison env.unicode columns.name
    "name" 255 = .ok columns.normalizedName
  model : normalizeOptionalInlineText "model" 255
    merged.model = .ok columns.model
  normalizedModel : normalizeOptionalComparison env.unicode
    "model" 255 columns.model = .ok columns.normalizedModel
  signature : columns.identitySignature =
    prepared.identitySignature

/- The item that an edit validates. -/
theorem mergePatch_eq_ok_iff
    {category : Category}
    {item : Item}
    {stored : Dictionary Text AttributeValue}
    {patch : ItemPatch}
    {merged : ItemCreate} :
    mergePatch category item stored patch = .ok merged ↔
      mergedAttributes stored patch.attributes =
        .ok merged.attributes ∧
      merged.categoryKey = category.key ∧
      merged.manufacturerId =
        patch.manufacturerId.getD item.manufacturerId ∧
      merged.name =
        (patch.name.getD (some item.name)).getD [] ∧
      merged.model = patch.model.getD item.model := by
  unfold mergePatch
  rw [Except.bind_eq_ok_iff]
  unfold ItemCreate.modelValidate
  constructor
  · rintro ⟨attributes, hAttributes, hValid⟩
    split at hValid
    · cases hValid
      exact ⟨hAttributes, rfl, rfl, rfl, rfl⟩
    · cases hValid
  · rintro ⟨hAttributes, hKey, hMaker, hName, hModel⟩
    refine ⟨merged.attributes, hAttributes, ?_⟩
    rw [← hKey, ← hMaker, ← hName, ← hModel]
    exact dif_pos ⟨merged.categoryKeyLength,
      merged.nameLength, merged.modelLength⟩

/- What a successful edit reads. -/
structure Reads
    (itemId : Uuid)
    (patch : ItemPatch)
    (merged : ItemCreate)
    (item : Item)
    (s : Db) : Prop where
  found : s.findItem itemId = some item
  sameCategory : patch.categoryKey = none
  named : patch.name ≠ some none
  merges : ∃ stored category, loadAttributes s itemId =
      .ok stored ∧
    Table.find Category.id item.categoryId s.categories =
      some category ∧
    mergePatch category item stored patch = .ok merged

/- What a successful edit does to the database. -/
structure Edits
    (env : CatalogEnv)
    (now : Time)
    (itemId : Uuid)
    (patch : ItemPatch)
    (item : Item)
    (merged : ItemCreate)
    (prepared : PreparedItemIdentity)
    (columns : ItemColumns)
    (rows : List ItemAttributeValue)
    (s s' : Db) : Prop where
  reads : Reads itemId patch merged item s
  prepares : prepareStoredIdentity env.unicode env.sha256 s
    merged = .ok prepared
  derives : EditedColumns env merged prepared columns
  unique : ∀ other ∈ s.items, other.id ≠ itemId →
    other.identitySignature ≠ columns.identitySignature
  stores : StoresRows s itemId prepared.category.id
    prepared.values rows
  result : s' = { s with
    items := Table.rewrite Item.id itemId
      (editedItem now merged columns) s.items
    itemAttributeValues := Table.erase
      ItemAttributeValue.itemId itemId
        s.itemAttributeValues ++ rows }

theorem updateItem_run_iff
    {itemId id' : Uuid}
    {now : Time}
    {patch : ItemPatch}
    {s s' : Db} :
    (updateItem env now itemId patch).run s =
        .ok (id', s') ↔
      id' = itemId ∧ ∃ item merged prepared columns rows,
        Edits env now itemId patch item merged prepared
          columns rows s s' := by
  unfold updateItem
  simp only [Txn.run_bind_eq_ok_iff,
    Txn.run_ofExcept_eq_ok_iff, Txn.run_query_eq_ok_iff,
    Txn.run_require_eq_ok_iff, Txn.run_update_eq_ok_iff,
    Txn.run_pure_eq_ok_iff, Txn.run_acquire_eq_ok_iff,
    Txn.run_getOrFail_eq_ok_iff,
    insertAttributeRows_run_iff, id]
  constructor
  · rintro ⟨_, _, rfl, _, _, ⟨rfl, rfl⟩, item, _, ⟨hFound, rfl⟩,
      _, _, ⟨hCategoryKey, rfl⟩, _, _, ⟨hNamed, rfl⟩,
      stored, _, ⟨hStored, rfl⟩, category, _, ⟨hCategory, rfl⟩,
      merged, _, ⟨hMerged, rfl⟩, prepared, _, ⟨hPrepared, rfl⟩,
      name, _, ⟨hName, rfl⟩, nName, _, ⟨hNName, rfl⟩,
      model, _, ⟨hModel, rfl⟩, nModel, _, ⟨hNModel, rfl⟩,
      _, _, ⟨hUnique, rfl⟩, _, _, rfl,
      _, _, ⟨rows, hRows, rfl⟩, rfl, rfl⟩
    refine ⟨rfl, item, merged, prepared, ⟨name, nName, model,
      nModel, prepared.identitySignature⟩, rows, ?_, hPrepared,
      ⟨hName, hNName, hModel, hNModel, rfl⟩, hUnique, hRows,
      rfl⟩
    exact ⟨hFound, hCategoryKey, hNamed, stored, category,
      hStored, hCategory, hMerged⟩
  · rintro ⟨rfl, item, merged, prepared, ⟨name, nName, model,
      nModel, signature⟩, rows, h⟩
    rcases h with ⟨hReads, hPrepared, hColumns, hUnique, hRows,
      rfl⟩
    rcases hReads.merges with ⟨stored, category, hStored,
      hCategory, hMerged⟩
    have hSignature := hColumns.signature
    subst hSignature
    exact ⟨(), _, rfl, _, _, ⟨rfl, rfl⟩, item, _,
      ⟨hReads.found, rfl⟩, (), _, ⟨hReads.sameCategory, rfl⟩,
      (), _, ⟨hReads.named, rfl⟩, stored, _, ⟨hStored, rfl⟩,
      category, _, ⟨hCategory, rfl⟩, merged, _,
      ⟨hMerged, rfl⟩, prepared, _, ⟨hPrepared, rfl⟩,
      name, _, ⟨hColumns.name, rfl⟩, nName, _,
      ⟨hColumns.normalizedName, rfl⟩, model, _,
      ⟨hColumns.model, rfl⟩, nModel, _,
      ⟨hColumns.normalizedModel, rfl⟩, (), _, ⟨hUnique, rfl⟩,
      (), _, rfl, (), _, ⟨rows, hRows, rfl⟩, rfl, rfl⟩

end Catalog
