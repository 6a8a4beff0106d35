import DcInventory.Catalog.CheckedItems
import DcInventory.Catalog.Restating

/-
  This file proves that editing an item is idempotent and
  local: what is stated again is kept, a second edit changes
  nothing, and only the fields of a patch change.

  Key definitions include:
    * `Catalog.Unchanged`
    * `Catalog.PatchRestates`
    * `Catalog.ChangesOnly`

  Key theorems include:
    * `Catalog.Recorded.edit_restates`
    * `Catalog.Edits.changesOnly`
    * `Catalog.editing_is_idempotent_and_local`
-/

namespace Catalog

variable {env : CatalogEnv}
variable {s s' : Db}

------------------------------------------------------------
-- Unchanged States
------------------------------------------------------------

/- An item apart from the time of its last change. -/
def timeless (item : Item) : Item :=
  { item with updatedAt := 0 }

/-
  The items and their attributes are the same, apart from the
  times of their last changes.
-/
structure Unchanged (s s' : Db) : Prop where
  items : s'.items.map timeless = s.items.map timeless
  attributes : ∀ itemId,
    loadAttributes s' itemId = loadAttributes s itemId
  rest : { s' with
      items := s.items
      itemAttributeValues := s.itemAttributeValues } = s

theorem loadAttributes_of_joined
    {itemId : Uuid}
    (h : joinedRows s' itemId = joinedRows s itemId) :
    loadAttributes s' itemId = loadAttributes s itemId := by
  unfold loadAttributes attributeRows
  rw [h]

------------------------------------------------------------
-- Patches
------------------------------------------------------------

/-
  A patch whose fields are those of the draft that was stored,
  or those that are stored.
-/
structure PatchRestates
    (payload : ItemCreate)
    (item : Item)
    (stored : Dictionary Text AttributeValue)
    (patch : ItemPatch) : Prop where
  categoryKey : patch.categoryKey = none
  manufacturer : ∀ m, patch.manufacturerId = some m →
    m = item.manufacturerId
  name : ∀ n, patch.name = some n →
    n = some payload.name ∨ n = some item.name
  model : ∀ m, patch.model = some m →
    m = payload.model ∨ m = item.model
  attributes : ∀ d, patch.attributes = some d →
    d = some payload.attributes ∨
      d = some (stored.mapValues AttributeValue.raw)

theorem leaves_length :
    ∀ key ∈ leaves, key.length ≤ 64 := by
  decide

section Restating

variable {item : Item}
variable {payload : ItemCreate}
variable {p : PreparedItemIdentity}
variable {rows : List ItemAttributeValue}
variable {stored : Dictionary Text AttributeValue}
variable {patch : ItemPatch}

/- The category of a recorded item. -/
theorem Recorded.category_found
    (hKeys : CatalogKeys s)
    (hRec : Recorded env s item payload p rows) :
    Table.find Category.id item.categoryId s.categories =
      some p.category := by
  rcases (prepareStoredIdentity_iff hKeys).mp hRec.prepares
    with ⟨attributes, hDraft⟩
  rw [hRec.category]
  exact Table.find_of_mem hKeys.categories hDraft.category

/- Its attributes are loaded from its rows. -/
theorem Recorded.loads
    (hKeys : CatalogKeys s)
    (hRec : Recorded env s item payload p rows) :
    ∃ d, loadAttributes s item.id = .ok d ∧
      ReadsBack item.id p.category.id p.values d := by
  rcases (prepareStoredIdentity_iff hKeys).mp hRec.prepares
    with ⟨attributes, hDraft⟩
  exact hRec.holds.loadAttributes hKeys.attributes
    hDraft.validates

/- What is merged with such a patch states the item again. -/
theorem PatchRestates.merges
    (hKeys : CatalogKeys s)
    (hFound : s.findItem item.id = some item)
    (hRec : Recorded env s item payload p rows)
    (hLoads : loadAttributes s item.id = .ok stored)
    (h : PatchRestates payload item stored patch) :
    ∃ merged, Reads item.id patch merged item s ∧
      normalizeInlineText merged.name "name" 255 =
        .ok item.name ∧
      Restates payload p.category item.model stored merged := by
  rcases (prepareStoredIdentity_iff hKeys).mp hRec.prepares
    with ⟨attributes, hDraft⟩
  rcases normalizeInlineText_again hRec.name with
    ⟨hNameAgain, hNameLength⟩
  rcases normalizeOptionalInlineText_again hRec.model with
    ⟨hModelAgain, hModelLength⟩
  have hNamed : patch.name ≠ some none := by
    intro hNone
    rcases h.name none hNone with hEq | hEq <;> cases hEq
  -- the name, the model and the attributes that are merged
  have hName : ∃ n, n = (patch.name.getD
        (some item.name)).getD [] ∧ n.length ≤ 255 ∧
      normalizeInlineText n "name" 255 = .ok item.name := by
    refine ⟨_, rfl, ?_⟩
    cases hCase : patch.name with
    | none => exact ⟨hNameLength, hNameAgain⟩
    | some n =>
        rcases h.name n hCase with rfl | rfl
        · exact ⟨payload.nameLength, hRec.name⟩
        · exact ⟨hNameLength, hNameAgain⟩
  have hModel : ∃ m, m = patch.model.getD item.model ∧
      (∀ v, m = some v → v.length ≤ 255) ∧
      normalizeOptionalInlineText "model" 255 m =
        .ok item.model := by
    refine ⟨_, rfl, ?_⟩
    cases hCase : patch.model with
    | none => exact ⟨hModelLength, hModelAgain⟩
    | some m =>
        rcases h.model m hCase with rfl | rfl
        · exact ⟨payload.modelLength, hRec.model⟩
        · exact ⟨hModelLength, hModelAgain⟩
  have hAttributes : ∃ d, mergedAttributes stored
        patch.attributes = .ok d ∧
      RestatesAttributes payload.attributes stored d := by
    cases hCase : patch.attributes with
    | none => exact ⟨_, rfl, .merged⟩
    | some d =>
        rcases h.attributes d hCase with rfl | rfl
        · exact ⟨_, rfl, .supplied⟩
        · exact ⟨_, rfl, .stored⟩
  rcases hName with ⟨n, hN, hNLength, hNText⟩
  rcases hModel with ⟨m, hM, hMLength, hMText⟩
  rcases hAttributes with ⟨d, hD, hDRestates⟩
  have hMaker : patch.manufacturerId.getD item.manufacturerId =
      item.manufacturerId := by
    cases hCase : patch.manufacturerId with
    | none => rfl
    | some x => exact h.manufacturer x hCase
  let merged : ItemCreate := ⟨p.category.key,
    item.manufacturerId, n, m, d,
    leaves_length _ hDraft.leaf.2, hNLength, hMLength⟩
  refine ⟨merged, ⟨hFound, h.categoryKey, hNamed, stored,
    p.category, hLoads, hRec.category_found hKeys,
    mergePatch_eq_ok_iff.mpr
      ⟨hD, rfl, hMaker.symm, hN, hM⟩⟩, hNText, rfl,
    hRec.manufacturer, hMText, hDRestates⟩

/-
  Editing an item to a draft of the same identity and values
  changes nothing.
-/
theorem Recorded.edit_of_same
    (hInv : CatalogInv env s)
    (hChecked : Checked env s)
    (hMem : item ∈ s.items)
    (hRec : Recorded env s item payload p rows)
    {merged : ItemCreate}
    (hReads : Reads item.id patch merged item s)
    (hName : normalizeInlineText merged.name "name" 255 =
      .ok item.name)
    (hModel : normalizeOptionalInlineText "model" 255
      merged.model = .ok item.model)
    (hManufacturer :
      merged.manufacturerId = payload.manufacturerId)
    {derived : Dictionary Text RawValue}
    {q : PreparedItemIdentity}
    (hDraft' : Draft env.unicode env.sha256 s merged derived q)
    (hCategory : q.category = p.category)
    (hSignature : q.identitySignature = p.identitySignature)
    (hSame : SameValues env.unicode p.values q.values)
    (now : Time) :
    ∃ s', (updateItemRequest env now item.id patch).run s =
        .ok (item.id, s') ∧
      Unchanged s s' := by
  rcases (prepareStoredIdentity_iff hInv.keys).mp hRec.prepares
    with ⟨attributes, hDraft⟩
  have hRows : p.values.mapM (itemAttributeRow item.id
      p.category.id) = some rows :=
    Option.mapM_eq_some_iff.mpr hRec.holds.stored
  have hStored := hDraft.stored hInv.keys
  have hStored' := hDraft'.stored hInv.keys
  rw [hCategory] at hStored'
  rcases hSame.storedRows hStored hStored' hRows with
    ⟨rows', hMap, hPerm, hValid⟩
  let columns : ItemColumns := ⟨item.name, item.normalizedName,
    item.model, item.normalizedModel, item.identitySignature⟩
  let after : Db := { s with
    items := Table.rewrite Item.id item.id
      (editedItem now merged columns) s.items
    itemAttributeValues := Table.erase
      ItemAttributeValue.itemId item.id
        s.itemAttributeValues ++ rows' }
  have hEdits : Edits env now item.id patch item merged q
      columns rows' s after := by
    refine ⟨hReads, (prepareStoredIdentity_iff hInv.keys).mpr
      ⟨derived, hDraft'⟩, ⟨hName, hRec.normalizedName,
        hModel, hRec.normalizedModel, ?_⟩, ?_,
      ⟨by rw [hCategory]; exact hMap, hValid⟩, rfl⟩
    · rw [hSignature]
      exact hRec.signature
    · intro other hOther hNe hEq
      exact hNe (congrArg Item.id (List.inj_on_of_nodup_map
        hInv.signatures hOther hMem hEq))
  have hKept : editedItem now merged columns item =
      { item with updatedAt := now } := by
    unfold editedItem
    rw [hManufacturer, ← hRec.manufacturer]
  have hOwn : ownRows after item.id = rows' := by
    have hRows' := itemId_of_rows
      (Option.mapM_eq_some_iff.mp hMap)
    change List.filter _ (Table.erase _ _ _ ++ rows') = rows'
    have hNone : (Table.erase ItemAttributeValue.itemId item.id
        s.itemAttributeValues).filter (fun row =>
          decide (row.itemId = item.id)) = [] := by
      rw [List.filter_eq_nil_iff]
      intro row hRow
      have hNe := (List.mem_filter.mp hRow).2
      simpa using hNe
    have hAll : rows'.filter (fun row =>
        decide (row.itemId = item.id)) = rows' := by
      rw [List.filter_eq_self]
      intro row hRow
      simpa using hRows' row hRow
    rw [List.filter_append, hNone, hAll, List.nil_append]
  have hOld : ownRows s item.id = rows := hRec.holds.own
  have hIds : ((ownRows s item.id).map
      ItemAttributeValue.categoryAttributeId).Nodup := by
    rcases hStored.rows item.id with ⟨rows₀, hMap₀, hIds₀, _⟩
    rw [hRows] at hMap₀
    cases hMap₀
    rw [hOld]
    exact hIds₀
  have hAttributes : after.categoryAttributes =
      s.categoryAttributes := rfl
  have hJoined : joinedRows after item.id =
      joinedRows s item.id := by
    apply joinedRows_of_perm hAttributes _ hIds
    rw [hOwn, hOld]
    exact hPerm
  have hFoundAfter : after.findItem item.id =
      some (editedItem now merged columns item) := hEdits.found
  have hOnly : ∀ other ∈ s.items, other.id = item.id →
      other = item := fun other hOther hId =>
    List.inj_on_of_nodup_map hInv.itemIds hOther hMem hId
  have hChecks : (deferredChecks env item.id).run after =
      .ok ((), after) := by
    refine deferredChecks_run_iff.mpr ⟨rfl, ?_, ?_⟩
    · have hSame : SameIdentity s after item
          (editedItem now merged columns item) := by
        refine ⟨hReads.found, hFoundAfter, ?_, rfl, rfl,
        hJoined⟩
        rw [hKept]
        exact ⟨rfl, rfl, rfl, rfl, rfl, rfl, rfl, rfl⟩
      have hCongr : assertCatalogItemIdentity env after
          item.id = assertCatalogItemIdentity env s item.id :=
        assertCatalogItemIdentity_congr hSame
      rw [hCongr]
      exact hChecked item hMem
    · intro other hOther
      rw [hFoundAfter] at hOther
      cases hOther
      rcases hStored'.rows item.id with ⟨rows₁, hMap₁, _, _, hAll⟩
      rw [hMap] at hMap₁
      cases hMap₁
      have hItemCategory : (editedItem now merged columns
          item).categoryId = p.category.id := hRec.category
      rw [hItemCategory]
      exact hAll _
  refine ⟨after, updateItemRequest_run_iff.mpr
    ⟨updateItem_run_iff.mpr ⟨rfl, item, merged, q, columns,
      rows', hEdits⟩, hChecks⟩, ?_, ?_, rfl⟩
  · change (Table.rewrite _ _ _ _).map timeless = _
    unfold Table.rewrite
    rw [List.map_map]
    apply List.map_congr_left
    intro other hOther
    rw [Function.comp_apply]
    split
    · rename_i hId
      rw [hOnly other hOther hId, hKept]
      rfl
    · rfl
  · intro itemId
    apply loadAttributes_of_joined
    by_cases hId : itemId = item.id
    · rw [hId]
      exact hJoined
    · apply joinedRows_of_own hAttributes
      change List.filter _ (_ ++ rows') = _
      rw [ownRows_append]
      · exact ownRows_erase hId _
      · intro row hRow hEq
        rw [itemId_of_rows (Option.mapM_eq_some_iff.mp hMap) row
          hRow] at hEq
        exact hId hEq.symm

/-
  Stating again what an item has is accepted, and changes
  nothing.
-/
theorem Recorded.edit_restates
    (hU : env.unicode.Lawful)
    (hFold : env.unicode.FoldsSmall)
    (hInv : CatalogInv env s)
    (hChecked : Checked env s)
    (hConfigured : Configured s)
    (hMem : item ∈ s.items)
    (hRec : Recorded env s item payload p rows)
    (hLoads : loadAttributes s item.id = .ok stored)
    (h : PatchRestates payload item stored patch)
    (now : Time) :
    ∃ s', (updateItemRequest env now item.id patch).run s =
        .ok (item.id, s') ∧
      Unchanged s s' := by
  have hFound : s.findItem item.id = some item :=
    Table.find_of_mem hInv.itemIds hMem
  rcases h.merges hInv.keys hFound hRec hLoads with
    ⟨merged, hReads, hName, hRestates⟩
  rcases (prepareStoredIdentity_iff hInv.keys).mp hRec.prepares
    with ⟨attributes, hDraft⟩
  rcases hRec.loads hInv.keys with ⟨d, hD, hBack⟩
  rw [hLoads] at hD
  cases hD
  rcases hDraft.again hU hFold hInv.keys hConfigured hRec.model
    hBack hRestates with ⟨derived, q, hDraft', hCategory,
      hSignature, hSame⟩
  exact hRec.edit_of_same hInv hChecked hMem hReads hName
    hRestates.model hRestates.manufacturer hDraft' hCategory
    hSignature hSame now

end Restating

------------------------------------------------------------
-- Changes
------------------------------------------------------------

/- What an edit of an item with a patch changes. -/
structure ChangesOnly
    (itemId : Uuid)
    (patch : ItemPatch)
    (s s' : Db) : Prop where
  others : ∀ id, id ≠ itemId →
    s'.findItem id = s.findItem id ∧
      loadAttributes s' id = loadAttributes s id
  own : ∃ item item', s.findItem itemId = some item ∧
    s'.findItem itemId = some item' ∧
    item'.categoryId = item.categoryId ∧
    item'.status = item.status ∧
    item'.archivedAt = item.archivedAt ∧
    (patch.manufacturerId = none →
      item'.manufacturerId = item.manufacturerId) ∧
    (patch.name = none → item'.name = item.name ∧
      item'.normalizedName = item.normalizedName) ∧
    (patch.model = none → item'.model = item.model ∧
      item'.normalizedModel = item.normalizedModel)
  attributes : patch.attributes = none →
    loadAttributes s' itemId = loadAttributes s itemId
  rest : { s' with
      items := s.items
      itemAttributeValues := s.itemAttributeValues } = s

section Changes

variable {now : Time}
variable {itemId : Uuid}
variable {patch : ItemPatch}
variable {item : Item}
variable {merged payload : ItemCreate}
variable {p q : PreparedItemIdentity}
variable {columns : ItemColumns}
variable {rows rows' : List ItemAttributeValue}

/- Attributes that are not named keep their rows. -/
theorem Edits.joinedRows_unnamed
    (hU : env.unicode.Lawful)
    (hFold : env.unicode.FoldsSmall)
    (hInv : CatalogInv env s)
    (hConfigured : Configured s)
    (h : Edits env now itemId patch item merged p columns rows
      s s')
    (hRec : Recorded env s item payload q rows')
    (hUnnamed : patch.attributes = none) :
    joinedRows s' itemId = joinedRows s itemId := by
  have hId : item.id = itemId :=
    Table.key_of_find h.reads.found
  subst hId
  have hCategory := h.category hFold hInv.keys hRec
  rcases (prepareStoredIdentity_iff hInv.keys).mp hRec.prepares
    with ⟨attributes, hDraft⟩
  rcases (prepareStoredIdentity_iff hInv.keys).mp h.prepares
    with ⟨attributes', hDraft'⟩
  rcases hRec.loads hInv.keys with ⟨stored, hLoads, hBack⟩
  rcases h.reads.merges with
    ⟨stored', category, hLoads', _, hMerged⟩
  rw [hLoads] at hLoads'
  cases hLoads'
  have hGiven := (mergePatch_eq_ok_iff.mp hMerged).1
  rw [hUnnamed] at hGiven
  have hMergedAttributes := Except.ok.inj hGiven
  have hRestated : RestatesAttributes payload.attributes stored
      merged.attributes := by
    rw [← hMergedAttributes]
    exact .merged
  rcases hDraft.attributes_again hU hInv.keys hConfigured hBack
    hRestated with ⟨derived, values, hDerived, hValues, hSame⟩
  have hDerives := hDraft'.derives
  rw [hCategory, hDerived] at hDerives
  cases hDerives
  have hValidates := hDraft'.validates
  rw [hCategory, hValues] at hValidates
  cases hValidates
  have hStored' := hDraft'.stored hInv.keys
  have hStored := hDraft.stored hInv.keys
  rw [hCategory] at hStored'
  have hRows : q.values.mapM (itemAttributeRow item.id
      q.category.id) = some rows' :=
    Option.mapM_eq_some_iff.mpr hRec.holds.stored
  rcases hSame.storedRows hStored hStored' hRows with
    ⟨rows₁, hMap, hPerm, _⟩
  have hNewRows := h.stores.1
  rw [hCategory, hMap] at hNewRows
  cases hNewRows
  have hHolds := h.holds hInv.keys
  have hOld : ownRows s item.id = rows' := hRec.holds.own
  have hNew : ownRows s' item.id = rows := hHolds.own
  apply joinedRows_of_perm (by rw [h.result])
  · rw [hNew, hOld]
    exact hPerm
  · rcases hStored.rows item.id with ⟨rows₀, hMap₀, hIds₀, _⟩
    rw [hRows] at hMap₀
    cases hMap₀
    rw [hOld]
    exact hIds₀

/- An edit changes the fields of its patch only. -/
theorem Edits.changesOnly
    (hU : env.unicode.Lawful)
    (hFold : env.unicode.FoldsSmall)
    (hInv : CatalogInv env s)
    (hConfigured : Configured s)
    (h : Edits env now itemId patch item merged p columns rows
      s s') :
    ChangesOnly itemId patch s s' := by
  have hMem := Table.mem_of_find h.reads.found
  rcases hInv.recorded item hMem with
    ⟨payload, q, rows', hRec⟩
  rcases h.reads.merges with
    ⟨stored, category, _, _, hMerged⟩
  rcases mergePatch_eq_ok_iff.mp hMerged with
    ⟨_, _, hMaker, hName, hModel⟩
  have hOwn := itemId_of_rows
    (Option.mapM_eq_some_iff.mp h.stores.1)
  constructor
  · intro id hNe
    constructor
    · rw [h.result]
      change Table.find Item.id id (Table.rewrite Item.id itemId
        (editedItem now merged columns) s.items) = _
      rw [Table.find_rewrite (f := editedItem now merged columns)
        fun _ => rfl]
      cases hFind : Table.find Item.id id s.items with
      | none =>
          exact hFind.symm
      | some other =>
          have hOther := Table.key_of_find hFind
          rw [Option.map_some, if_neg (by rw [hOther]; exact hNe)]
          exact hFind.symm
    · apply loadAttributes_of_joined
      apply joinedRows_of_own (by rw [h.result])
      rw [h.result]
      change List.filter _ (_ ++ rows) = _
      rw [ownRows_append]
      · exact ownRows_erase hNe _
      · intro row hRow hEq
        exact hNe (hEq.symm.trans (hOwn row hRow))
  · refine ⟨item, _, h.reads.found, h.found, rfl, rfl, rfl,
      ?_, ?_, ?_⟩
    · intro hNone
      rw [hNone] at hMaker
      exact hMaker
    · intro hNone
      rw [hNone] at hName
      have hSame : merged.name = item.name := hName
      have hColumn := h.derives.name
      rw [hSame, (normalizeInlineText_again hRec.name).1]
        at hColumn
      have hText := Except.ok.inj hColumn
      have hFolded := h.derives.normalizedName
      rw [← hText, hRec.normalizedName] at hFolded
      exact ⟨hText.symm, (Except.ok.inj hFolded).symm⟩
    · intro hNone
      rw [hNone] at hModel
      have hSame : merged.model = item.model := hModel
      have hColumn := h.derives.model
      rw [hSame, (normalizeOptionalInlineText_again
        hRec.model).1] at hColumn
      have hText := Except.ok.inj hColumn
      have hFolded := h.derives.normalizedModel
      rw [← hText, hRec.normalizedModel] at hFolded
      exact ⟨hText.symm, (Except.ok.inj hFolded).symm⟩
  · intro hUnnamed
    exact loadAttributes_of_joined (h.joinedRows_unnamed hU
      hFold hInv hConfigured hRec hUnnamed)
  · rw [h.result]

end Changes

------------------------------------------------------------
-- Editing
------------------------------------------------------------

/- A patch of the values that an item has. -/
def CurrentValues
    (item : Item)
    (stored : Dictionary Text AttributeValue)
    (patch : ItemPatch) : Prop :=
  (∀ m, patch.manufacturerId = some m →
    m = item.manufacturerId) ∧
  (∀ n, patch.name = some n → n = some item.name) ∧
  (∀ m, patch.model = some m → m = item.model) ∧
  ∀ d, patch.attributes = some d →
    d = some (stored.mapValues AttributeValue.raw)

/- Whether an item is a transceiver. -/
def IsTransceiver (s : Db) (item : Item) : Prop :=
  ∃ c ∈ s.categories, c.id = item.categoryId ∧
    "transceiver_".toList.isPrefixOf c.key = true

/- The draft of an edit is stated again by its patch. -/
theorem Edits.patchRestates
    {now : Time}
    {itemId : Uuid}
    {patch : ItemPatch}
    {item : Item}
    {merged : ItemCreate}
    {p : PreparedItemIdentity}
    {columns : ItemColumns}
    {rows : List ItemAttributeValue}
    (h : Edits env now itemId patch item merged p columns rows
      s s')
    (stored : Dictionary Text AttributeValue) :
    PatchRestates merged (editedItem now merged columns item)
      stored patch := by
  rcases h.reads.merges with ⟨_, category, _, _, hMerged⟩
  rcases mergePatch_eq_ok_iff.mp hMerged with
    ⟨hAttributes, _, hMaker, hName, hModel⟩
  constructor
  · exact h.reads.sameCategory
  · intro m hm
    rw [hm] at hMaker
    exact hMaker.symm
  · intro n hn
    rw [hn] at hName
    cases n with
    | none => exact absurd hn h.reads.named
    | some n => exact Or.inl (congrArg some hName.symm)
  · intro m hm
    rw [hm] at hModel
    exact Or.inl hModel.symm
  · intro d hd
    rw [hd] at hAttributes
    cases d with
    | none => cases hAttributes
    | some d =>
        exact Or.inl (congrArg some (Except.ok.inj hAttributes))

/- What is applied again changes nothing. -/
theorem Edits.applied_again
    (hU : env.unicode.Lawful)
    (hFold : env.unicode.FoldsSmall)
    (hInv : CatalogInv env s)
    (hInv' : CatalogInv env s')
    (hChecked' : Checked env s')
    (hConfigured : Configured s)
    {now : Time}
    {itemId : Uuid}
    {patch : ItemPatch}
    {item : Item}
    {merged : ItemCreate}
    {p : PreparedItemIdentity}
    {columns : ItemColumns}
    {rows : List ItemAttributeValue}
    (h : Edits env now itemId patch item merged p columns rows
      s s')
    (later : Time) :
    ∃ s'', (updateItemRequest env later itemId patch).run s' =
        .ok (itemId, s'') ∧
      Unchanged s' s'' := by
  have hId : item.id = itemId :=
    Table.key_of_find h.reads.found
  rcases hInv.recorded item (Table.mem_of_find h.reads.found)
    with ⟨payload, q, rows', hRec⟩
  have hCategory := h.category hFold hInv.keys hRec
  have hNew := h.recorded hInv.keys
    (hRec.category.trans (congrArg Category.id hCategory.symm))
  have hConfigured' : Configured s' := by
    rw [h.result]
    exact hConfigured
  rcases hNew.loads hInv'.keys with ⟨stored, hLoads, _⟩
  subst hId
  exact hNew.edit_restates hU hFold hInv' hChecked' hConfigured'
    (Table.mem_of_find h.found) hLoads
    (h.patchRestates stored) later

/-
  Supplying current values again is accepted and changes
  nothing, or is rejected for the category; an accepted patch
  changes its own fields only, and nothing when it is applied
  again; a transceiver always has the distance that its text
  says; a rejected patch changes nothing.
-/
theorem editing_is_idempotent_and_local
    {env : CatalogEnv}
    {s : Db}
    (hU : env.unicode.Lawful)
    (hFold : env.unicode.FoldsSmall)
    (hConfigured : Configured s)
    (hHistory : CatalogHistory env s) :
    (∀ item ∈ s.items, ∃ stored,
      loadAttributes s item.id = .ok stored ∧
      (IsTransceiver s item → StoresReach env.unicode stored) ∧
      ∀ now patch, CurrentValues item stored patch →
        (patch.categoryKey = none →
          ∃ s', (updateItemRequest env now item.id patch).run
              s = .ok (item.id, s') ∧
            Unchanged s s') ∧
        (patch.categoryKey ≠ none →
          ∃ e, (updateItemRequest env now item.id patch).run
            s = .error e)) ∧
    (∀ now itemId patch r s',
      (updateItemRequest env now itemId patch).run s =
        .ok (r, s') →
      ChangesOnly itemId patch s s' ∧
      ∀ later, ∃ s'',
        (updateItemRequest env later itemId patch).run s' =
          .ok (itemId, s'') ∧
        Unchanged s' s'') ∧
    (∀ now itemId patch e,
      (updateItemRequest env now itemId patch).run s =
        .error e →
      (updateItemRequest env now itemId patch).settle s =
        s) := by
  have hInv := hHistory.inv hFold
  have hChecked := hHistory.checked hFold
  refine ⟨?_, ?_, ?_⟩
  · intro item hMem
    rcases hInv.recorded item hMem with
      ⟨payload, p, rows, hRec⟩
    rcases hRec.loads hInv.keys with ⟨stored, hLoads, hBack⟩
    refine ⟨stored, hLoads, ?_, ?_⟩
    · rintro ⟨c, hc, hId, hPrefix⟩
      rcases (prepareStoredIdentity_iff hInv.keys).mp
        hRec.prepares with ⟨attributes, hDraft⟩
      have hSame := List.inj_on_of_nodup_map
        hInv.keys.categories hc hDraft.category
        (hId.trans hRec.category)
      rw [hSame] at hPrefix
      exact hDraft.storesReach hU hInv.keys hConfigured hPrefix
        hBack
    · rintro now patch ⟨hMaker, hName, hModel, hAttributes⟩
      constructor
      · intro hNone
        exact hRec.edit_restates hU hFold hInv hChecked
          hConfigured hMem hLoads
          ⟨hNone, hMaker, fun n hn => Or.inr (hName n hn),
            fun m hm => Or.inr (hModel m hm),
            fun d hd => Or.inr (hAttributes d hd)⟩ now
      · intro hSome
        cases hRun : (updateItemRequest env now item.id
            patch).run s with
        | error e => exact ⟨e, rfl⟩
        | ok x =>
            rcases updateItem_run_iff.mp
              (updateItemRequest_run_iff.mp hRun).1 with
                ⟨_, _, _, _, _, _, hEdits⟩
            exact absurd hEdits.reads.sameCategory hSome
  · intro now itemId patch r s' hRun
    rcases updateItem_run_iff.mp
      (updateItemRequest_run_iff.mp hRun).1 with
        ⟨_, item, merged, p, columns, rows, hEdits⟩
    have hAfter : CatalogHistory env s' :=
      .step hHistory (.updateItem hRun)
    exact ⟨hEdits.changesOnly hU hFold hInv hConfigured,
      hEdits.applied_again hU hFold hInv (hAfter.inv hFold)
        (hAfter.checked hFold) hConfigured⟩
  · intro now itemId patch e hRun
    unfold Txn.settle
    rw [hRun]

------------------------------------------------------------
-- A Cable
------------------------------------------------------------

namespace Cable

open BlankCable (start textAttribute)

/- The cable, with no model. -/
def payload : ItemCreate :=
  { BlankCable.payload with
    model := none
    modelLength := SeparatedCable.payload.modelLength }

def created : Db :=
  (createItemRequest BlankCable.env ⟨9⟩ 0 payload).settle
    start

theorem run_created :
    (createItemRequest BlankCable.env ⟨9⟩ 0 payload).run
      start = .ok (⟨9⟩, created) := by
  have hOk : ((createItemRequest BlankCable.env ⟨9⟩ 0
      payload).run start).toOption.isSome = true := by
    decide +kernel
  unfold created Txn.settle
  cases hRun : (createItemRequest BlankCable.env ⟨9⟩ 0
      payload).run start with
  | error e =>
      rw [hRun] at hOk
      cases hOk
  | ok result =>
      rcases createItem_run_iff.mp
        (createItemRequest_run_iff.mp hRun).1 with ⟨hId, _⟩
      exact congrArg Except.ok (Prod.ext hId rfl)

theorem configured_text (n : BitVec 128) (key : String) :
    ConfiguredAs (.text key) (textAttribute n key) :=
  ⟨rfl, rfl, rfl, rfl, rfl, rfl, rfl, rfl⟩

theorem configured_start : Configured start := by
  have hLength : ConfiguredAs (.decimal "length_m")
      BlankCable.lengthAttribute :=
    ⟨rfl, rfl, rfl, rfl, rfl, rfl, rfl, rfl⟩
  intro a ha
  refine ⟨BlankCable.category, List.mem_cons_self, ?_,
    ("power_cable".toList, "power".toList,
      [.text "type", .text "connector_a", .text "connector_b",
        .decimal "length_m", .text "rating", .text "color"]),
    by decide, rfl, ?_⟩
  · have hAll : ∀ a ∈ start.categoryAttributes,
        BlankCable.category.id = a.categoryId := by
      decide
    exact hAll a ha
  · simp only [start, List.mem_cons, List.not_mem_nil,
      or_false] at ha
    rcases ha with rfl | rfl | rfl | rfl | rfl | rfl
    · exact ⟨_, by decide, configured_text 0 "type"⟩
    · exact ⟨_, by decide, configured_text 1 "connector_a"⟩
    · exact ⟨_, by decide, configured_text 2 "connector_b"⟩
    · exact ⟨_, by decide, hLength⟩
    · exact ⟨_, by decide, configured_text 4 "rating"⟩
    · exact ⟨_, by decide, configured_text 5 "color"⟩

/- The patch without fields. -/
def emptyPatch : ItemPatch :=
  ⟨none, none, none, none, none⟩

/- The cable of one and a half metres can be edited. -/
theorem cable_edit_is_idempotent :
    ∃ item ∈ created.items, item.id = ⟨9⟩ ∧
      ∃ s', (updateItemRequest BlankCable.env 1 item.id
          emptyPatch).run created = .ok (item.id, s') ∧
        Unchanged created s' := by
  have hStart : CatalogHistory BlankCable.env start :=
    .start ⟨by decide, by decide, by decide, by decide,
      by decide⟩ rfl rfl
  have hHistory : CatalogHistory BlankCable.env created :=
    .step hStart (.createItem run_created)
  rcases createItem_run_iff.mp
    (createItemRequest_run_iff.mp run_created).1 with
      ⟨_, p, columns, rows, hCreates⟩
  have hConfigured : Configured created := by
    rw [hCreates.result]
    exact configured_start
  have hItem : newItem ⟨9⟩ 0 payload p.category columns ∈
      created.items := by
    rw [hCreates.result]
    exact List.mem_append_right _ List.mem_cons_self
  rcases (editing_is_idempotent_and_local
    Unicode.lawful_ascii Unicode.foldsSmall_ascii hConfigured
      hHistory).1 _ hItem with ⟨stored, _, _, hAgain⟩
  have hCurrent : CurrentValues
      (newItem ⟨9⟩ 0 payload p.category columns) stored
      emptyPatch := by
    refine ⟨?_, ?_, ?_, ?_⟩
    all_goals
      intro x hx
      cases hx
  exact ⟨_, hItem, rfl, (hAgain 1 emptyPatch hCurrent).1 rfl⟩

end Cable

end Catalog
