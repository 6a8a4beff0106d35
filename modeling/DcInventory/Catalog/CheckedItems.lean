import DcInventory.Catalog.Histories

/-
  This file proves that every item of a catalog passes the
  check of its identity at all times.

  Key definitions include:
    * `Catalog.Checked`
    * `Catalog.SameIdentity`

  Key theorems include:
    * `Catalog.joinedRows_of_perm`
    * `Catalog.assertCatalogItemIdentity_congr`
    * `Catalog.CatalogHistory.checked`
-/

namespace Catalog

variable {env : CatalogEnv}
variable {s s' : Db}

------------------------------------------------------------
-- Rows
------------------------------------------------------------

/- The rows of the values of one item. -/
def ownRows
    (s : Db) (itemId : Uuid) : List ItemAttributeValue :=
  s.itemAttributeValues.filter (fun row => row.itemId = itemId)

/- Rows are joined from those of the item. -/
theorem joinedRows_eq (itemId : Uuid) :
    joinedRows s itemId = s.categoryAttributes.flatMap (fun a =>
      ((ownRows s itemId).filter (fun row =>
        row.categoryAttributeId = a.id)).map (Prod.mk a)) := by
  unfold joinedRows ownRows
  congr 1
  funext a
  rw [List.filter_filter]
  congr 2
  funext row
  rw [Bool.decide_and, Bool.and_comm]

theorem joinedRows_of_own
    {itemId : Uuid}
    (hAttributes : s'.categoryAttributes =
      s.categoryAttributes)
    (hOwn : ownRows s' itemId = ownRows s itemId) :
    joinedRows s' itemId = joinedRows s itemId := by
  rw [joinedRows_eq, joinedRows_eq, hAttributes, hOwn]

/- The order of rows of different attributes does not matter. -/
theorem joinedRows_of_perm
    {itemId : Uuid}
    (hAttributes : s'.categoryAttributes =
      s.categoryAttributes)
    (hOwn : (ownRows s' itemId).Perm (ownRows s itemId))
    (hIds : ((ownRows s itemId).map
      ItemAttributeValue.categoryAttributeId).Nodup) :
    joinedRows s' itemId = joinedRows s itemId := by
  rw [joinedRows_eq, joinedRows_eq, hAttributes]
  congr 1
  funext a
  have hPerm := hOwn.filter (fun row =>
    decide (row.categoryAttributeId = a.id))
  cases hRows : (ownRows s itemId).filter (fun row =>
      decide (row.categoryAttributeId = a.id)) with
  | nil =>
      rw [hRows] at hPerm
      rw [hPerm.eq_nil]
  | cons x xs =>
      have hOne : xs = [] := by
        cases xs with
        | nil => rfl
        | cons y ys =>
            have hSub := (List.filter_sublist (p := fun row =>
              decide (row.categoryAttributeId = a.id))
              (l := ownRows s itemId)).map
                ItemAttributeValue.categoryAttributeId
            have hNodup := hIds.sublist hSub
            have hx : x ∈ (ownRows s itemId).filter (fun row =>
                decide (row.categoryAttributeId = a.id)) := by
              rw [hRows]
              exact List.mem_cons_self
            have hy : y ∈ (ownRows s itemId).filter (fun row =>
                decide (row.categoryAttributeId = a.id)) := by
              rw [hRows]
              exact List.mem_cons_of_mem x List.mem_cons_self
            have hxId : x.categoryAttributeId = a.id := by
              simpa using (List.mem_filter.mp hx).2
            have hyId : y.categoryAttributeId = a.id := by
              simpa using (List.mem_filter.mp hy).2
            rw [hRows] at hNodup
            simp [hxId, hyId] at hNodup
      subst hOne
      rw [hRows] at hPerm
      rw [List.perm_singleton.mp hPerm]

------------------------------------------------------------
-- Checks
------------------------------------------------------------

/- What the check of an item reads is the same. -/
structure SameIdentity
    (s s' : Db) (item item' : Item) : Prop where
  found : s.findItem item.id = some item
  found' : s'.findItem item.id = some item'
  same : SameItem item item'
  category : Table.find Category.id item.categoryId
      s'.categories =
    Table.find Category.id item.categoryId s.categories
  manufacturer : item.manufacturerId.bind s'.findManufacturer =
    item.manufacturerId.bind s.findManufacturer
  rows : joinedRows s' item.id = joinedRows s item.id

theorem assertCatalogItemIdentity_congr
    {item item' : Item}
    (h : SameIdentity s s' item item') :
    assertCatalogItemIdentity env s' item.id =
      assertCatalogItemIdentity env s item.id := by
  have hSignature : catalogItemSignature env s' item.id =
      catalogItemSignature env s item.id := by
    unfold catalogItemSignature attributesJson
    rw [h.found, h.found', h.rows]
    simp only [Option.bind_eq_bind, Option.bind_some,
      h.same.category, h.same.manufacturer, h.same.model,
      h.category, h.manufacturer]
  unfold assertCatalogItemIdentity
  rw [h.found, h.found', hSignature]
  simp only [h.same.normalizedName, h.same.name,
    h.same.normalizedModel, h.same.model, h.same.signature]

/- Every item passes its check. -/
def Checked (env : CatalogEnv) (s : Db) : Prop :=
  ∀ item ∈ s.items,
    assertCatalogItemIdentity env s item.id = .ok ()

/- Items are kept with what their check reads. -/
structure KeepsIdentity
    (s s' : Db) (item item' : Item) : Prop where
  found' : s'.findItem item.id = some item'
  same : SameItem item item'
  category : s'.categories = s.categories
  attributes : s'.categoryAttributes = s.categoryAttributes
  manufacturer : item.manufacturerId.bind s'.findManufacturer =
    item.manufacturerId.bind s.findManufacturer
  own : ownRows s' item.id = ownRows s item.id

theorem KeepsIdentity.passes
    (hChecked : Checked env s)
    (hIds : (s.items.map Item.id).Nodup)
    {item item' : Item}
    (hMem : item ∈ s.items)
    (h : KeepsIdentity s s' item item') :
    assertCatalogItemIdentity env s' item.id = .ok () := by
  rw [assertCatalogItemIdentity_congr
    ⟨Table.find_of_mem hIds hMem, h.found', h.same,
      by rw [h.category], h.manufacturer,
      joinedRows_of_own h.attributes h.own⟩]
  exact hChecked item hMem

/- The manufacturer of an item is in the table. -/
theorem CatalogInv.manufacturer_found
    (h : CatalogInv env s)
    {item : Item}
    (hMem : item ∈ s.items)
    {id : Uuid}
    (hId : item.manufacturerId = some id) :
    ∃ m, s.findManufacturer id = some m := by
  rcases h.recorded item hMem with ⟨payload, p, rows, hRec⟩
  rcases (prepareStoredIdentity_iff h.keys).mp hRec.prepares
    with ⟨attributes, hDraft⟩
  have hMaker := hDraft.manufacturer
  unfold DraftManufacturer at hMaker
  rw [← hRec.manufacturer, hId] at hMaker
  rcases hMaker with ⟨m, hm, rfl, _⟩
  exact ⟨m, Table.find_of_mem h.keys.manufacturers hm⟩

theorem ownRows_append
    {itemId : Uuid}
    {rows : List ItemAttributeValue}
    (hOther : ∀ row ∈ rows, row.itemId ≠ itemId)
    (old : List ItemAttributeValue) :
    (old ++ rows).filter (fun row => row.itemId = itemId) =
      old.filter (fun row => row.itemId = itemId) := by
  have hNone : rows.filter (fun row =>
      decide (row.itemId = itemId)) = [] := by
    rw [List.filter_eq_nil_iff]
    intro row hRow
    simpa using hOther row hRow
  rw [List.filter_append, hNone, List.append_nil]

/- Erasing another item's rows keeps those of an item. -/
theorem ownRows_erase
    {itemId other : Uuid}
    (hNe : itemId ≠ other)
    (rows : List ItemAttributeValue) :
    (Table.erase ItemAttributeValue.itemId other rows).filter
        (fun row => row.itemId = itemId) =
      rows.filter (fun row => row.itemId = itemId) := by
  unfold Table.erase
  rw [List.filter_filter]
  apply List.filter_congr
  intro row _
  by_cases hRow : row.itemId = itemId
  · simp [hRow, hNe]
  · simp [hRow]

/- Every step keeps the checks of all items. -/
theorem Checked.step
    (hInv : CatalogInv env s)
    (h : Checked env s)
    (hStep : CatalogStep env s s') :
    Checked env s' := by
  cases hStep with
  | createManufacturer hRun =>
      rcases createManufacturer_run_iff.mp hRun with
        ⟨_, _, _, _, _, rfl⟩
      intro item hItem
      refine KeepsIdentity.passes h hInv.itemIds hItem
        ⟨Table.find_of_mem hInv.itemIds hItem,
          SameItem.refl item, rfl, rfl, ?_, rfl⟩
      cases hId : item.manufacturerId with
      | none => rfl
      | some id =>
          rcases hInv.manufacturer_found hItem hId with ⟨m, hm⟩
          change Table.find Manufacturer.id id (_ ++ _) =
            s.findManufacturer id
          rw [hm]
          exact Table.find_append_of_some hm
  | createItem hRun =>
      rcases createItemRequest_run_iff.mp hRun with
        ⟨hCreate, hChecks⟩
      rcases createItem_run_iff.mp hCreate with
        ⟨_, p, columns, rows, hCreates⟩
      have hOwn := itemId_of_rows
        (Option.mapM_eq_some_iff.mp hCreates.stores.1)
      have hSelf := (deferredChecks_run_iff.mp hChecks).2.1
      intro item hItem
      have hResult := hCreates.result
      rw [hResult] at hItem
      rcases List.mem_append.mp hItem with hOld | hNew
      · rw [hResult]
        refine KeepsIdentity.passes h hInv.itemIds hOld
          ⟨Table.find_append_of_some
            (Table.find_of_mem hInv.itemIds hOld),
            SameItem.refl item, rfl, rfl, rfl, ?_⟩
        apply ownRows_append
        intro row hRow hEq
        exact hCreates.fresh item hOld
          (hEq.symm.trans (hOwn row hRow))
      · rw [List.mem_singleton.mp hNew]
        exact hSelf
  | @updateItem now itemId patch r hRun =>
      rcases updateItemRequest_run_iff.mp hRun with
        ⟨hUpdate, hChecks⟩
      rcases updateItem_run_iff.mp hUpdate with
        ⟨_, old, merged, p, columns, rows, hEdits⟩
      have hOwn := itemId_of_rows
        (Option.mapM_eq_some_iff.mp hEdits.stores.1)
      have hSelf := (deferredChecks_run_iff.mp hChecks).2.1
      intro item hItem
      have hResult := hEdits.result
      rw [hResult] at hItem
      rcases Table.mem_rewrite.mp hItem with
        ⟨hOld, hNe⟩ | ⟨old', _, hId, rfl⟩
      · rw [hResult]
        refine KeepsIdentity.passes h hInv.itemIds hOld
          ⟨?_, SameItem.refl item, rfl, rfl, rfl, ?_⟩
        · change Table.find Item.id item.id
            (Table.rewrite Item.id itemId _ s.items) = _
          rw [Table.find_rewrite
            (f := editedItem now merged columns) fun _ => rfl,
            Table.find_of_mem hInv.itemIds hOld,
            Option.map_some, if_neg hNe]
        · change List.filter _ (_ ++ rows) = _
          rw [ownRows_append]
          · exact ownRows_erase hNe _
          · intro row hRow hEq
            exact hNe (hEq.symm.trans (hOwn row hRow))
      · have hSame : (editedItem now merged columns old').id =
            itemId := hId
        rw [hSame]
        exact hSelf
  | @setItemArchived now itemId archived r hRun =>
      rcases setItemArchived_run hRun with rfl | rfl
      · exact h
      · intro item hItem
        rcases Table.mem_rewrite.mp hItem with
          ⟨hOld, hNe⟩ | ⟨old, hOld, hId, rfl⟩
        · refine KeepsIdentity.passes h hInv.itemIds hOld
            ⟨?_, SameItem.refl item, rfl, rfl, rfl, rfl⟩
          change Table.find Item.id item.id
            (Table.rewrite Item.id itemId _ s.items) = _
          rw [Table.find_rewrite
            (f := archivedItem now archived) fun _ => rfl,
            Table.find_of_mem hInv.itemIds hOld,
            Option.map_some, if_neg hNe]
        · change assertCatalogItemIdentity env _ old.id = _
          refine KeepsIdentity.passes h hInv.itemIds hOld
            ⟨?_, sameItem_archivedItem now archived old, rfl,
              rfl, rfl, rfl⟩
          change Table.find Item.id old.id
            (Table.rewrite Item.id itemId _ s.items) = _
          rw [Table.find_rewrite
            (f := archivedItem now archived) fun _ => rfl,
            Table.find_of_mem hInv.itemIds hOld,
            Option.map_some, if_pos hId]
  | @deleteItem itemId hDelete =>
      rw [hDelete]
      intro item hItem
      rcases List.mem_filter.mp hItem with ⟨hOld, hNe⟩
      rw [decide_eq_true_eq] at hNe
      refine KeepsIdentity.passes h hInv.itemIds hOld
        ⟨?_, SameItem.refl item, rfl, rfl, rfl,
          ownRows_erase hNe _⟩
      change Table.find Item.id item.id
        (Table.erase Item.id itemId s.items) = _
      rw [Table.find_erase_of_ne _ hNe]
      exact Table.find_of_mem hInv.itemIds hOld
  | other hSame =>
      intro item hItem
      rw [hSame.items] at hItem
      refine KeepsIdentity.passes h hInv.itemIds hItem
        ⟨?_, SameItem.refl item, hSame.categories,
          hSame.attributes, ?_, ?_⟩
      · unfold Db.findItem
        rw [hSame.items]
        exact Table.find_of_mem hInv.itemIds hItem
      · unfold Db.findManufacturer
        rw [hSame.manufacturers]
      · unfold ownRows
        rw [hSame.rows]

theorem CatalogHistory.checked
    (hFold : env.unicode.FoldsSmall)
    (h : CatalogHistory env s) :
    Checked env s := by
  induction h with
  | start _ hItems _ =>
      intro item hItem
      rw [hItems] at hItem
      cases hItem
  | step hBefore hStep ih =>
      exact ih.step (hBefore.inv hFold) hStep

end Catalog
