import DcInventory.Catalog.CanonicalNames
import DcInventory.Catalog.Drafts

/-
  This file proves which rows a stored item has, and which
  values are read back from them.

  Key definitions include:
    * `Catalog.RowsOfItems`
    * `Catalog.Holds`

  Key theorems include:
    * `Catalog.Creates.holds`
    * `Catalog.Edits.holds`
    * `Catalog.Holds.mem_joinedRows`
    * `Catalog.Holds.nodup_joinedRows`
-/

namespace Catalog

variable {env : CatalogEnv}
variable {s s' : Db}

/- The foreign key of the rows of values. -/
def RowsOfItems (s : Db) : Prop :=
  ∀ row ∈ s.itemAttributeValues,
    ∃ item ∈ s.items, item.id = row.itemId

/- The rows of an item are those of the given values. -/
structure Holds
    (s : Db)
    (itemId categoryId : Uuid)
    (values : List PreparedAttributeValue)
    (rows : List ItemAttributeValue) : Prop where
  stored : List.Forall₂ (fun p row =>
    itemAttributeRow itemId categoryId p = some row)
      values rows
  own : s.itemAttributeValues.filter (fun row =>
    row.itemId = itemId) = rows
  known : ∀ p ∈ values, p.attr ∈ s.categoryAttributes
  keys : (values.map (fun p => p.attr.key)).Nodup

------------------------------------------------------------
-- Writing
------------------------------------------------------------

theorem itemId_of_rows
    {itemId categoryId : Uuid}
    {values : List PreparedAttributeValue}
    {rows : List ItemAttributeValue}
    (h : List.Forall₂ (fun p row =>
      itemAttributeRow itemId categoryId p = some row)
        values rows) :
    ∀ row ∈ rows, row.itemId = itemId := by
  intro row hRow
  rcases h.exists_left hRow with ⟨p, _, hEq⟩
  exact (itemAttributeRow_eq hEq).1

/- New rows are the only ones of an item without rows. -/
theorem holds_of_rows
    {payload : ItemCreate}
    {p : PreparedItemIdentity}
    {itemId : Uuid}
    {rows others : List ItemAttributeValue}
    (hKeys : CatalogKeys s)
    (hPrepared : prepareStoredIdentity env.unicode env.sha256 s
      payload = .ok p)
    (hStores : StoresRows s itemId p.category.id p.values rows)
    (hOthers : ∀ row ∈ others, row.itemId ≠ itemId)
    (hRows : s'.itemAttributeValues = others ++ rows)
    (hAttributes : s'.categoryAttributes =
      s.categoryAttributes) :
    Holds s' itemId p.category.id p.values rows := by
  rcases (prepareStoredIdentity_iff hKeys).mp hPrepared with
    ⟨attributes, hDraft⟩
  have hStored := hDraft.stored hKeys
  have hForall := Option.mapM_eq_some_iff.mp hStores.1
  have hOwn := itemId_of_rows hForall
  refine ⟨hForall, ?_, ?_, hStored.distinct⟩
  · rw [hRows, List.filter_append]
    have hNone : others.filter (fun row =>
        decide (row.itemId = itemId)) = [] := by
      rw [List.filter_eq_nil_iff]
      intro row hRow
      simpa using hOthers row hRow
    have hAll : rows.filter (fun row =>
        decide (row.itemId = itemId)) = rows := by
      rw [List.filter_eq_self]
      intro row hRow
      simpa using hOwn row hRow
    rw [hNone, hAll, List.nil_append]
  · intro x hx
    rw [hAttributes]
    exact (mem_definitionsOfCategory.mp
      (hStored.only x hx).1).1

/- A created item has the rows of its draft. -/
theorem Creates.holds
    (hKeys : CatalogKeys s)
    (hOwned : RowsOfItems s)
    {newId : Uuid}
    {now : Time}
    {payload : ItemCreate}
    {p : PreparedItemIdentity}
    {columns : ItemColumns}
    {rows : List ItemAttributeValue}
    (h : Creates env newId now payload p columns rows s s') :
    Holds s' newId p.category.id p.values rows := by
  have hOthers : ∀ row ∈ s.itemAttributeValues,
      row.itemId ≠ newId := by
    intro row hRow hSame
    rcases hOwned row hRow with ⟨item, hItem, hId⟩
    exact h.fresh item hItem (hId.trans hSame)
  exact holds_of_rows hKeys h.prepares h.stores hOthers
    (by rw [h.result]) (by rw [h.result])

/- An edited item has the rows of the merged draft. -/
theorem Edits.holds
    (hKeys : CatalogKeys s)
    {now : Time}
    {itemId : Uuid}
    {patch : ItemPatch}
    {item : Item}
    {merged : ItemCreate}
    {p : PreparedItemIdentity}
    {columns : ItemColumns}
    {rows : List ItemAttributeValue}
    (h : Edits env now itemId patch item merged p columns rows
      s s') :
    Holds s' itemId p.category.id p.values rows := by
  have hOthers : ∀ row ∈ Table.erase ItemAttributeValue.itemId
      itemId s.itemAttributeValues, row.itemId ≠ itemId := by
    intro row hRow
    rw [Table.erase, List.mem_filter, decide_eq_true_eq] at hRow
    exact hRow.2
  exact holds_of_rows hKeys h.prepares h.stores hOthers
    (by rw [h.result]) (by rw [h.result])

/- Items keep owning the rows. -/
theorem Creates.rowsOfItems
    (hOwned : RowsOfItems s)
    {newId : Uuid}
    {now : Time}
    {payload : ItemCreate}
    {p : PreparedItemIdentity}
    {columns : ItemColumns}
    {rows : List ItemAttributeValue}
    (h : Creates env newId now payload p columns rows s s') :
    RowsOfItems s' := by
  have hOwn := itemId_of_rows
    (Option.mapM_eq_some_iff.mp h.stores.1)
  rw [h.result]
  intro row hRow
  rcases List.mem_append.mp hRow with hOld | hNew
  · rcases hOwned row hOld with ⟨item, hItem, hId⟩
    exact ⟨item, List.mem_append_left _ hItem, hId⟩
  · exact ⟨_, List.mem_append_right _ List.mem_cons_self,
      (hOwn row hNew).symm⟩

------------------------------------------------------------
-- Joining
------------------------------------------------------------

theorem mem_joinedRows
    {itemId : Uuid}
    {a : CategoryAttribute}
    {row : ItemAttributeValue} :
    (a, row) ∈ joinedRows s itemId ↔
      a ∈ s.categoryAttributes ∧
      row ∈ s.itemAttributeValues ∧ row.itemId = itemId ∧
      row.categoryAttributeId = a.id := by
  unfold joinedRows
  simp only [List.mem_flatMap, List.mem_map, List.mem_filter,
    decide_eq_true_eq, Prod.mk.injEq]
  constructor
  · rintro ⟨a', ha, row', ⟨hMem, hItem, hAttr⟩, rfl, rfl⟩
    exact ⟨ha, hMem, hItem, hAttr⟩
  · rintro ⟨ha, hMem, hItem, hAttr⟩
    exact ⟨a, ha, row, ⟨hMem, hItem, hAttr⟩, rfl, rfl⟩

section Joining

variable {itemId categoryId : Uuid}
variable {values : List PreparedAttributeValue}
variable {rows : List ItemAttributeValue}

/- The rows of an item are joined with their definitions. -/
theorem Holds.mem_joinedRows
    (hIds : (s.categoryAttributes.map
      CategoryAttribute.id).Nodup)
    (h : Holds s itemId categoryId values rows)
    {a : CategoryAttribute}
    {row : ItemAttributeValue} :
    (a, row) ∈ joinedRows s itemId ↔
      ∃ p ∈ values, p.attr = a ∧
        itemAttributeRow itemId categoryId p = some row := by
  rw [Catalog.mem_joinedRows]
  have hMem : row ∈ rows ↔
      row ∈ s.itemAttributeValues ∧ row.itemId = itemId := by
    rw [← h.own, List.mem_filter, decide_eq_true_eq]
  constructor
  · rintro ⟨ha, hRow, hItem, hAttr⟩
    rcases h.stored.exists_left (hMem.mpr ⟨hRow, hItem⟩) with
      ⟨p, hp, hEq⟩
    refine ⟨p, hp, ?_, hEq⟩
    have hId := (itemAttributeRow_eq hEq).2.2.1
    exact List.inj_on_of_nodup_map hIds (h.known p hp) ha
      (hId.symm.trans hAttr)
  · rintro ⟨p, hp, rfl, hEq⟩
    rcases h.stored.exists_right hp with ⟨row', hRow, hEq'⟩
    rw [hEq] at hEq'
    cases hEq'
    rcases hMem.mp hRow with ⟨hIn, hItem⟩
    exact ⟨h.known p hp, hIn, hItem,
      (itemAttributeRow_eq hEq).2.2.1⟩

/- No row is joined twice. -/
theorem Holds.nodup_joinedRows
    (hIds : (s.categoryAttributes.map
      CategoryAttribute.id).Nodup)
    (h : Holds s itemId categoryId values rows) :
    (joinedRows s itemId).Nodup := by
  have hRowIds : (rows.map
      ItemAttributeValue.categoryAttributeId).Nodup := by
    rw [ids_of_rows h.stored]
    apply List.Nodup.map_on
    · intro p hp q hq hId
      have hAttr := List.inj_on_of_nodup_map hIds
        (h.known p hp) (h.known q hq) hId
      exact List.inj_on_of_nodup_map h.keys hp hq
        (congrArg CategoryAttribute.key hAttr)
    · exact List.Nodup.of_map _ h.keys
  have hRows : rows.Nodup := List.Nodup.of_map _ hRowIds
  unfold joinedRows
  rw [List.nodup_flatMap]
  constructor
  · intro a _
    have hFilter : s.itemAttributeValues.filter (fun row =>
        decide (row.itemId = itemId ∧
          row.categoryAttributeId = a.id)) =
        rows.filter (fun row =>
          decide (row.categoryAttributeId = a.id)) := by
      rw [← h.own, List.filter_filter]
      congr 1
      funext row
      simp [Bool.and_comm]
    rw [hFilter]
    exact (hRows.filter _).map (Prod.mk_right_injective a)
  · have hAttrs : s.categoryAttributes.Nodup :=
      List.Nodup.of_map _ hIds
    refine hAttrs.imp ?_
    intro a b hNe x hx hy
    rcases List.mem_map.mp hx with ⟨_, _, rfl⟩
    rcases List.mem_map.mp hy with ⟨_, _, hEq⟩
    exact hNe (congrArg Prod.fst hEq).symm

/- The keys of joined rows are different. -/
theorem Holds.keys_joinedRows
    (hIds : (s.categoryAttributes.map
      CategoryAttribute.id).Nodup)
    (h : Holds s itemId categoryId values rows) :
    ((joinedRows s itemId).map (fun x => x.1.key)).Nodup := by
  apply List.Nodup.map_on
  · rintro ⟨a, row⟩ hx ⟨b, row'⟩ hy hKey
    rcases (h.mem_joinedRows hIds).mp hx with
      ⟨p, hp, rfl, hRow⟩
    rcases (h.mem_joinedRows hIds).mp hy with
      ⟨q, hq, rfl, hRow'⟩
    have hSame := List.inj_on_of_nodup_map h.keys hp hq hKey
    subst hSame
    rw [hRow] at hRow'
    cases hRow'
    rfl
  · exact h.nodup_joinedRows hIds

end Joining

end Catalog
