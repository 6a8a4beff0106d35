import DcInventory.Bootstrap.CleanRuns
import DcInventory.Library.Json
import DcInventory.Library.Signatures
import Mathlib.Algebra.Order.BigOperators.Group.List

/-
  This file proves that a workbook which is read without an
  error is accounted for: each data row is counted in exactly
  one item, and neither the order of the rows nor that of the
  sheets matters.

  Key definitions include:
    * `Bootstrap.Accounted`
    * `Bootstrap.Permuted`

  Key theorems include:
    * `Bootstrap.accounted_of_clean`
    * `Bootstrap.sameSheet_of_moved_rows`
    * `Bootstrap.workbook_is_accounted_for`
-/

namespace Bootstrap

open Xml (Element)

------------------------------------------------------------
-- Items
------------------------------------------------------------

section Items

variable (env : Env)
variable (allowZero : Bool)

/- What a row that gets through is read as. -/
def DataRow.item (r : DataRow) : Equipment :=
  (r.item? env allowZero).getD ⟨[], none, none, [], 0, [], []⟩

/- The signature that `normalize_row` gives to a row. -/
def DataRow.signature? (r : DataRow) : Option Text :=
  (r.item? env allowZero).map Equipment.signature

/- The attributes of an item as identity values. -/
def identityAttributes
    (U : Unicode)
    (item : Equipment) : List (Text × Json) :=
  sortKeys ((item.attributes.filter (fun field =>
    field.2 ≠ .text [])).map (fun field =>
      (field.1, identityValue U field.2)))

/- The text whose digest is the signature of an item. -/
def identityJson
    (U : Unicode)
    (item : Equipment) : Text :=
  Json.dumps (.ofItems [.str item.category,
    .str (identityText U (item.manufacturer.getD [])),
    .str (identityText U (item.model.getD [])),
    .ofFields (identityAttributes U item)])

/- The texts whose digests are the signatures of the rows. -/
def identityTexts (rows : List DataRow) : List Text :=
  rows.map (fun r =>
    identityJson env.unicode (r.item env allowZero))

end Items

section Rows

variable {env : Env}
variable {allowZero : Bool}

theorem DataRow.Reads.item_eq
    {r : DataRow}
    {item : Equipment}
    (h : r.Reads env allowZero item) :
    r.item env allowZero = item ∧
      r.signature? env allowZero = some item.signature := by
  unfold DataRow.item DataRow.signature?
  rw [DataRow.item_eq_some_iff.mpr h]
  exact ⟨rfl, rfl⟩

/- What is known of a row that gets through. -/
theorem RowFine.spec
    {r : DataRow}
    (h : RowFine env allowZero r) :
    r.item? env allowZero = some (r.item env allowZero) ∧
      r.signature? env allowZero =
        some (r.item env allowZero).signature ∧
      r.cellQuantity env allowZero =
        (r.item env allowZero).quantity ∧
      (r.item env allowZero).sources = [r.source] ∧
      (r.item env allowZero).signature = env.sha256
        (identityJson env.unicode (r.item env allowZero)) := by
  rcases h with ⟨item, hReads⟩
  rcases hReads.item_eq with ⟨hItem, hSignature⟩
  rcases hReads.spec with ⟨hQuantity, hSources, hSigned⟩
  rw [hItem]
  exact ⟨DataRow.item_eq_some_iff.mpr hReads, hSignature,
    hQuantity, hSources, hSigned⟩

------------------------------------------------------------
-- Accounts
------------------------------------------------------------

/-
  The totals of a workbook, and in which item each of its
  rows is counted.
-/
structure Accounted
    (env : Env)
    (allowZero : Bool)
    (rows : List DataRow)
    (v : Validation) : Prop where
  rawRows : v.rawRows = rows.length
  cells : v.sourceQuantity =
    (rows.map (DataRow.cellQuantity env allowZero)).sum
  items : v.sourceQuantity =
    (v.items.map Equipment.quantity).sum
  distinct : (v.items.map Equipment.signature).Nodup
  counted : ∃ home : Fin rows.length → Fin v.items.length,
    (∀ i i', home i = home i' ↔
      (rows.get i).signature? env allowZero =
        (rows.get i').signature? env allowZero) ∧
    (∀ i, (rows.get i).signature? env allowZero =
      some (v.items.get (home i)).signature) ∧
    ∀ j,
      let own := (List.finRange rows.length).filter
        (fun i => home i = j)
      own ≠ [] ∧
      (v.items.get j).quantity = (own.map (fun i =>
        (rows.get i).cellQuantity env allowZero)).sum ∧
      (v.items.get j).sources = own.map (fun i =>
        (rows.get i).source)

theorem signature_join (g r : Equipment) :
    (g.join r).signature = g.signature := rfl

theorem quantity_join (g r : Equipment) :
    (g.join r).quantity = g.quantity + r.quantity := rfl

/- All rows of a workbook that is read get through. -/
theorem ContentFine.rows
    {content : Content}
    (h : ContentFine env allowZero content) :
    ∀ r ∈ dataRows env content, RowFine env allowZero r := by
  intro r hr
  rcases List.mem_flatMap.mp hr with ⟨element, hIn, hRow⟩
  rcases h.sheets element hIn with
    ⟨sheet, rows, hSheet, _, hFine⟩
  rw [hSheet.sheetRows_eq] at hRow
  rcases List.mem_map.mp hRow with ⟨p, hp, rfl⟩
  exact hFine p hp

/- The items are the groups of what the rows are read as. -/
theorem items_perm
    {rows : List DataRow}
    (hFine : ∀ r ∈ rows, RowFine env allowZero r)
    {s : Reading}
    {names : List Text}
    (h : Tally env allowZero Reading.start s names rows) :
    s.finish.items.Perm (Grouping.groups Equipment.signature
      Equipment.join
        (rows.map (DataRow.item env allowZero))) := by
  have hItems : rows.filterMap (DataRow.item? env allowZero) =
      rows.map (DataRow.item env allowZero) := by
    rw [← List.filterMap_eq_map]
    exact List.filterMap_congr fun r hr => (hFine r hr).spec.1
  have hGrouped : s.grouped = Grouping.groups
      Equipment.signature Equipment.join
        (rows.map (DataRow.item env allowZero)) := by
    rw [h.grouped, hItems]
    rfl
  rw [← hGrouped]
  exact List.perm_insertionSort _ _

theorem accounted_of_clean
    {rows : List DataRow}
    (hFine : ∀ r ∈ rows, RowFine env allowZero r)
    {s : Reading}
    {names : List Text}
    (h : Tally env allowZero Reading.start s names rows) :
    Accounted env allowZero rows s.finish := by
  have hPerm := items_perm hFine h
  have hCells : s.sourceQuantity =
      (rows.map (DataRow.cellQuantity env allowZero)).sum := by
    rw [h.sourceQuantity]
    exact zero_add _
  have hSame : rows.map (DataRow.cellQuantity env allowZero) =
      (rows.map (DataRow.item env allowZero)).map
        Equipment.quantity := by
    rw [List.map_map]
    exact List.map_congr_left fun r hr => (hFine r hr).spec.2.2.1
  rcases Grouping.exists_home signature_join hPerm with
    ⟨home, hHome, hGroup⟩
  refine ⟨?_, hCells, ?_, ?_, home, ?_, ?_, ?_⟩
  · change s.rawRows = rows.length
    rw [h.rawRows]
    exact Nat.zero_add _
  · change s.sourceQuantity = _
    rw [hCells, hSame, (hPerm.map Equipment.quantity).sum_eq,
      Grouping.sum_groups signature_join quantity_join]
  · exact (hPerm.map Equipment.signature).nodup_iff.mpr
      (Grouping.nodup_groups _)
  · intro i i'
    rw [hHome, (hFine _ (List.get_mem rows i)).spec.2.1,
      (hFine _ (List.get_mem rows i')).spec.2.1,
      ← (hHome i' _).mp rfl, Option.some.injEq]
  · intro i
    rw [(hFine _ (List.get_mem rows i)).spec.2.1,
      (hHome i _).mp rfl]
  · intro j
    have hOwn := hGroup j
    refine ⟨?_, ?_, ?_⟩
    · intro hNil
      rw [hNil] at hOwn
      cases hOwn
    · rw [Grouping.sum_of_combined quantity_join hOwn,
        List.map_map]
      congr 1
      exact List.map_congr_left fun i _ =>
        (hFine _ (List.get_mem rows i)).spec.2.2.1.symm
    · rw [Grouping.append_of_combined
        (f := Equipment.sources) (fun _ _ => rfl) hOwn,
        List.flatMap_map, List.map_eq_flatMap]
      exact List.flatMap_congr fun i _ =>
        (hFine _ (List.get_mem rows i)).spec.2.2.2.1

------------------------------------------------------------
-- Other Orders
------------------------------------------------------------

/- The number of a row is in its source only. -/
theorem normalizeRow_source
    (sheet : Sheet)
    (row : Row)
    (source source' : Text) :
    normalizeRow env.unicode env.sha256 allowZero sheet row
        source' =
      (normalizeRow env.unicode env.sha256 allowZero sheet row
        source).map (fun item =>
          { item with sources := [source'] }) := by
  unfold normalizeRow
  cases layoutOf env.unicode sheet row with
  | error e => rfl
  | ok layout =>
      simp only [Except.ok_bind]
      cases readAttributes env.unicode layout.category row
          (layout.keys.zip layout.headers) with
      | error e => rfl
      | ok read =>
          simp only [Except.ok_bind]
          cases withReach env.unicode layout.category read with
          | error e => rfl
          | ok attributes =>
              simp only [Except.ok_bind]
              cases row.at quantityHeader with
              | error e => rfl
              | ok cell =>
                  simp only [Except.ok_bind]
                  cases quantityInteger env.unicode allowZero
                      cell with
                  | error e => rfl
                  | ok quantity => rfl

/- A row with the same cells is read as the same item. -/
theorem item?_of_cells
    {r r' : DataRow}
    (hSheet : r'.sheet = r.sheet)
    (hCells : r'.cells = r.cells) :
    r'.item? env allowZero = (r.item? env allowZero).map
      (fun item => { item with sources := [r'.source] }) := by
  have hRow : r'.row = r.row := by
    unfold DataRow.row
    rw [hSheet, hCells]
  unfold DataRow.item? DataRow.outcome rowOutcome
  rw [hRow, hSheet, hCells,
    normalizeRow_source r.sheet r.row r.source r'.source]
  cases (r.row.at quantityHeader).bind
      (quantityInteger env.unicode allowZero) with
  | error e => rfl
  | ok quantity =>
      simp only
      split_ifs
      · rfl
      · rfl
      · cases normalizeRow env.unicode env.sha256 allowZero
            r.sheet r.row r.source with
        | error e => rfl
        | ok item => rfl

theorem rowFine_of_cells
    {r r' : DataRow}
    (hSheet : r'.sheet = r.sheet)
    (hCells : r'.cells = r.cells)
    (h : RowFine env allowZero r) :
    RowFine env allowZero r' := by
  rcases h with ⟨item, hReads⟩
  refine ⟨{ item with sources := [r'.source] },
    DataRow.item_eq_some_iff.mp ?_⟩
  rw [item?_of_cells hSheet hCells,
    DataRow.item_eq_some_iff.mpr hReads]
  rfl

/- A row without its number. -/
def DataRow.content (r : DataRow) : Sheet × Cells :=
  (r.sheet, r.cells)

/-
  The worksheet of the second element has the header of that
  of the first one, and its data rows in some order.
-/
def SameSheet
    (env : Env)
    (content content' : Content)
    (element element' : Element) : Prop :=
  ∀ sheet rows, Worksheet env content element sheet rows →
    ∃ rows', Worksheet env content' element' sheet rows' ∧
      headerOf rows' = headerOf rows ∧
      (rows'.tail.map Prod.snd).Perm (rows.tail.map Prod.snd)

/- The same sheets in some order, each with its rows in one. -/
def Permuted
    (env : Env)
    (content content' : Content) : Prop :=
  ∃ elements, elements.Perm content'.sheets ∧
    List.Forall₂ (SameSheet env content content')
      content.sheets elements

/- A sheet in another order is as fine, and has its rows. -/
theorem SameSheet.fine
    {content content' : Content}
    {element element' : Element}
    (h : SameSheet env content content' element element')
    (hFine : SheetFine env allowZero content element) :
    SheetFine env allowZero content' element' ∧
      sheetNames element' = sheetNames element ∧
      ((sheetRows env content' element').map
        DataRow.content).Perm
          ((sheetRows env content element).map
            DataRow.content) := by
  rcases hFine with ⟨sheet, rows, hSheet, hHeader, hRows⟩
  rcases h sheet rows hSheet with
    ⟨rows', hSheet', hSame, hPerm⟩
  refine ⟨⟨sheet, rows', hSheet', hSame ▸ hHeader, ?_⟩, ?_, ?_⟩
  · intro p' hp'
    rcases List.mem_map.mp (hPerm.mem_iff.mp
      (List.mem_map_of_mem (f := Prod.snd) hp')) with
        ⟨p, hp, hCells⟩
    have hOther : (dataRow sheet p').cells =
        (dataRow sheet p).cells := hCells.symm
    exact @rowFine_of_cells env allowZero (dataRow sheet p)
      (dataRow sheet p') rfl hOther (hRows p hp)
  · rw [hSheet'.sheetNames_eq, hSheet.sheetNames_eq]
  · rw [hSheet'.sheetRows_eq, hSheet.sheetRows_eq]
    have hMap := hPerm.map (fun cells => (sheet, cells))
    simp only [List.map_map] at hMap ⊢
    exact hMap

/- So is a workbook. -/
theorem Permuted.fine
    {content content' : Content}
    (h : Permuted env content content')
    (hFine : ContentFine env allowZero content) :
    ContentFine env allowZero content' ∧
      ((dataRows env content').map DataRow.content).Perm
        ((dataRows env content).map DataRow.content) := by
  rcases h with ⟨elements, hPerm, hSheets⟩
  have hAll : ∀ {es es' : List Element},
      List.Forall₂ (SameSheet env content content') es es' →
      (∀ e ∈ es, SheetFine env allowZero content e) →
        (∀ e ∈ es', SheetFine env allowZero content' e) ∧
        es'.flatMap sheetNames = es.flatMap sheetNames ∧
        ((es'.flatMap (sheetRows env content')).map
          DataRow.content).Perm
            ((es.flatMap (sheetRows env content)).map
              DataRow.content) := by
    intro es es' hPairs
    induction hPairs with
    | nil =>
        exact fun _ => ⟨List.forall_mem_nil _, rfl, .nil⟩
    | cons hHead _ ih =>
        intro hEach
        rcases List.forall_mem_cons.mp hEach with
          ⟨hFirst, hRest⟩
        rcases hHead.fine hFirst with ⟨hOk, hName, hRow⟩
        rcases ih hRest with ⟨hOks, hNames, hRows⟩
        refine ⟨List.forall_mem_cons.mpr ⟨hOk, hOks⟩, ?_, ?_⟩
        · rw [List.flatMap_cons, List.flatMap_cons, hName,
            hNames]
        · rw [List.flatMap_cons, List.flatMap_cons,
            List.map_append, List.map_append]
          exact hRow.append hRows
  rcases hAll hSheets hFine.sheets with ⟨hOks, hNames, hRows⟩
  refine ⟨⟨fun e he => hOks e (hPerm.mem_iff.mpr he), ?_⟩, ?_⟩
  · rw [← hFine.present, ← hNames]
    have hMem : ∀ name, name ∈ content'.sheets.flatMap
        sheetNames ↔ name ∈ elements.flatMap sheetNames := by
      intro name
      simp only [List.mem_flatMap, hPerm.mem_iff]
    unfold missingSheets
    simp only [hMem]
  · exact ((hPerm.symm.flatMap_right _).map _).trans hRows

/- Rows of one signature have the same identity values. -/
theorem identityAttributes_of_signature
    {rows : List DataRow}
    (hFine : ∀ r ∈ rows, RowFine env allowZero r)
    (hFree : CollisionFree env.sha256
      (identityTexts env allowZero rows))
    {x y : Equipment}
    (hx : x ∈ rows.map (DataRow.item env allowZero))
    (hy : y ∈ rows.map (DataRow.item env allowZero))
    (h : x.signature = y.signature) :
    identityAttributes env.unicode x =
      identityAttributes env.unicode y := by
  rcases List.mem_map.mp hx with ⟨r, hr, rfl⟩
  rcases List.mem_map.mp hy with ⟨r', hr', rfl⟩
  rw [(hFine r hr).spec.2.2.2.2, (hFine r' hr').spec.2.2.2.2]
    at h
  have hTexts := hFree _ (List.mem_map_of_mem hr) _
    (List.mem_map_of_mem hr') h
  have hItems := Json.ofItems_injective
    (Json.dumps_injective hTexts)
  simp only [List.cons.injEq, and_true] at hItems
  exact Json.ofFields_injective hItems.2.2.2

/-
  Rows in another order make items with the same signatures
  and quantities, and the same of whatever is the same for
  all rows of a signature.
-/
theorem summaries_perm
    {I : Type}
    {ident : Equipment → I}
    (hJoin : ∀ g r, ident (Equipment.join g r) = ident g)
    (hSources : ∀ (item : Equipment) found,
      ident { item with sources := found } = ident item)
    {rows rows' : List DataRow}
    (hFine : ∀ r ∈ rows, RowFine env allowZero r)
    (hConst : ∀ x ∈ rows.map (DataRow.item env allowZero),
      ∀ y ∈ rows.map (DataRow.item env allowZero),
        x.signature = y.signature → ident x = ident y)
    (hPerm : (rows'.map DataRow.content).Perm
      (rows.map DataRow.content))
    {s s' : Reading}
    {names names' : List Text}
    (h : Tally env allowZero Reading.start s names rows)
    (h' : Tally env allowZero Reading.start s' names' rows') :
    (s'.finish.items.map (Grouping.summary Equipment.signature
        Equipment.quantity ident)).Perm
      (s.finish.items.map (Grouping.summary Equipment.signature
        Equipment.quantity ident)) := by
  have hFine' : ∀ r ∈ rows', RowFine env allowZero r := by
    intro r' hr'
    rcases List.mem_map.mp (hPerm.mem_iff.mp
      (List.mem_map_of_mem (f := DataRow.content) hr')) with
        ⟨r, hr, hSame⟩
    rcases Prod.mk.inj hSame with ⟨hSheet, hCells⟩
    exact rowFine_of_cells hSheet.symm hCells.symm (hFine r hr)
  -- what a row says without its number
  let alone (c : Sheet × Cells) : DataRow := ⟨c.1, 0, c.2⟩
  have hSummary : ∀ rs : List DataRow,
      (∀ r ∈ rs, RowFine env allowZero r) →
      (rs.map (DataRow.item env allowZero)).map
          (Grouping.summary Equipment.signature
            Equipment.quantity ident) =
        (rs.map DataRow.content).map (fun c =>
          Grouping.summary Equipment.signature
            Equipment.quantity ident
              ((alone c).item env allowZero)) := by
    intro rs hRs
    rw [List.map_map, List.map_map]
    apply List.map_congr_left
    intro r hr
    have hItem := (hRs r hr).spec.1
    have hAlone := @item?_of_cells env allowZero
      r (alone r.content) rfl rfl
    rw [hItem] at hAlone
    change Grouping.summary Equipment.signature
        Equipment.quantity ident (r.item env allowZero) =
      Grouping.summary Equipment.signature Equipment.quantity
        ident ((alone r.content).item env allowZero)
    generalize hHere : r.item env allowZero = item at hAlone ⊢
    unfold DataRow.item Grouping.summary
    rw [hAlone, Option.map_some, Option.getD_some]
    exact congrArg (fun i => (item.signature, item.quantity, i))
      (hSources item _).symm
  have hRows : ((rows'.map (DataRow.item env allowZero)).map
      (Grouping.summary Equipment.signature Equipment.quantity
        ident)).Perm
      ((rows.map (DataRow.item env allowZero)).map
        (Grouping.summary Equipment.signature
          Equipment.quantity ident)) := by
    rw [hSummary rows hFine, hSummary rows' hFine']
    exact hPerm.map _
  have hGroups := Grouping.groups_perm signature_join
    quantity_join hJoin hConst hRows
  exact (((items_perm hFine' h').map _).trans hGroups).trans
    ((items_perm hFine h).map _).symm

/- The totals are those of the rows in any order. -/
theorem totals_of_perm
    {rows rows' : List DataRow}
    (hPerm : (rows'.map DataRow.content).Perm
      (rows.map DataRow.content))
    {s s' : Reading}
    {names names' : List Text}
    (h : Tally env allowZero Reading.start s names rows)
    (h' : Tally env allowZero Reading.start s' names' rows') :
    s'.finish.rawRows = s.finish.rawRows ∧
      s'.finish.sourceQuantity = s.finish.sourceQuantity := by
  have hLength : rows'.length = rows.length := by
    have hEq := hPerm.length_eq
    rwa [List.length_map, List.length_map] at hEq
  have hQuantity : ∀ rs : List DataRow,
      rs.map (DataRow.cellQuantity env allowZero) =
        (rs.map DataRow.content).map (fun c =>
          (DataRow.mk c.1 0 c.2).cellQuantity env
            allowZero) := by
    intro rs
    rw [List.map_map]
    rfl
  constructor
  · change s'.rawRows = s.rawRows
    rw [h'.rawRows, h.rawRows, hLength]
  · change s'.sourceQuantity = s.sourceQuantity
    rw [h'.sourceQuantity, h.sourceQuantity, hQuantity,
      hQuantity, (hPerm.map _).sum_eq]

------------------------------------------------------------
-- Moved Rows
------------------------------------------------------------

/- Rows are read one by one, and those with cells are kept. -/
theorem readRows_eq_ok_iff
    {strings : List Text}
    {name : Text}
    {elements : List Element}
    {rows : List (Int × Cells)} :
    readRows env.unicode strings name elements =
        ([], .ok rows) ↔
      ∃ found, List.Forall₂ (fun element row =>
          readRow env.unicode strings name element =
            ([], .ok row)) elements found ∧
        rows = found.flatMap Option.toList := by
  induction elements generalizing rows with
  | nil =>
      constructor
      · intro h
        cases h
        exact ⟨[], .nil, rfl⟩
      · rintro ⟨found, hFound, rfl⟩
        cases hFound
        rfl
  | cons element elements ih =>
      rw [readRows]
      constructor
      · intro h
        split at h
        · cases h
        · rename_i problems row hRow
          rcases hRest : readRows env.unicode strings name
            elements with ⟨more, result⟩
          rw [hRest] at h
          rcases Prod.mk.inj h with ⟨hProblems, hResult⟩
          rcases List.append_eq_nil_iff.mp hProblems with
            ⟨rfl, rfl⟩
          cases result with
          | error e => cases hResult
          | ok rest =>
              rcases ih.mp hRest with ⟨found, hFound, rfl⟩
              cases hResult
              exact ⟨row :: found, .cons hRow hFound, rfl⟩
      · rintro ⟨found, hFound, rfl⟩
        cases hFound with
        | cons hRow hRest =>
            rw [hRow]
            simp only
            rw [ih.mpr ⟨_, hRest, rfl⟩]
            rfl

/- The header is found in the first row. -/
theorem headerOf_cons
    (p : Int × Cells)
    (rows : List (Int × Cells)) :
    headerOf (p :: rows) = headerOf [p] := by
  unfold headerOf
  split
  · rename_i cells _ hFirst
    cases hFirst
    rfl
  · rename_i hNot
    split
    · rename_i cells _ hFirst
      cases hFirst
      exact absurd rfl (hNot cells rows)
    · rfl

/- Rows that are moved below the header are in that relation. -/
theorem sameSheet_of_moved_rows
    {content content' : Content}
    {element element' root root' first : Element}
    {rest rest' : List Element}
    (hStrings : content'.strings = content.strings)
    (hName : attr element' "name".toList =
      attr element "name".toList)
    (hRoot : sheetRoot content element = .ok root)
    (hRoot' : sheetRoot content' element' = .ok root')
    (hRows : rowElements root = first :: rest)
    (hRows' : rowElements root' = first :: rest')
    (hHeader : ∀ name,
      (readRow env.unicode content.strings name first).2 ≠
        .ok none)
    (hPerm : rest'.Perm rest) :
    SameSheet env content content' element element' := by
  intro sheet rows hSheet
  rcases hSheet.rows with ⟨known, hKnown, hRead⟩
  rw [hRoot] at hKnown
  cases hKnown
  rw [hRows] at hRead
  rcases readRows_eq_ok_iff.mp hRead with ⟨found, hFound, rfl⟩
  cases hFound with
  | @cons _ header _ found hFirst hRest =>
      rcases List.perm_comp_forall₂ hPerm hRest with
        ⟨found', hFound', hOther⟩
      cases header with
      | none =>
          have hNone := hHeader sheet.name
          rw [hFirst] at hNone
          exact absurd rfl hNone
      | some header =>
          refine ⟨header :: found'.flatMap Option.toList,
            ⟨hName.trans hSheet.name, root', hRoot', ?_⟩,
              ?_, ?_⟩
          · rw [hRows', hStrings]
            exact readRows_eq_ok_iff.mpr
              ⟨some header :: found', .cons hFirst hFound', rfl⟩
          · exact (headerOf_cons header _).trans
              (headerOf_cons header _).symm
          · exact (hOther.flatMap_right Option.toList).map
              Prod.snd

------------------------------------------------------------
-- Workbooks
------------------------------------------------------------

/-
  A workbook that is read without an error is accounted for,
  and so is every one with the same rows in another order,
  with the same totals and the same items.
-/
theorem workbook_is_accounted_for
    {source : Option SourceFile}
    {v : Validation}
    (h : readWorkbook env allowZero source = some v)
    (hErrors : v.errors = []) :
    ∃ file content, source = some file ∧
      openContent file = .ok content ∧
      Accounted env allowZero (dataRows env content) v ∧
      ∀ file' content', openContent file' = .ok content' →
        Permuted env content content' →
        ∃ v', readWorkbook env allowZero (some file') =
            some v' ∧
          v'.errors = [] ∧
          v'.rawRows = v.rawRows ∧
          v'.sourceQuantity = v.sourceQuantity ∧
          (v'.items.map (fun item =>
            (item.signature, item.quantity))).Perm
              (v.items.map (fun item =>
                (item.signature, item.quantity))) ∧
          (CollisionFree env.sha256 (identityTexts env
              allowZero (dataRows env content)) →
            (v'.items.map (Grouping.summary
              Equipment.signature Equipment.quantity
                (identityAttributes env.unicode))).Perm
              (v.items.map (Grouping.summary
                Equipment.signature Equipment.quantity
                  (identityAttributes env.unicode)))) := by
  unfold readWorkbook at h
  cases source with
  | none =>
      cases h
      cases hErrors
  | some file =>
      simp only at h
      cases hOpen : openContent file with
      | error failure =>
          rw [hOpen] at h
          cases h
          cases hErrors
      | ok content =>
          rw [hOpen] at h
          rcases readContent_clean h hErrors with
            ⟨hFine, s, rfl, hTally⟩
          refine ⟨file, content, rfl, hOpen,
            accounted_of_clean hFine.rows hTally, ?_⟩
          intro file' content' hOpen' hPermuted
          rcases hPermuted.fine hFine with ⟨hFine', hRows⟩
          rcases readContent_of_fine hFine' with
            ⟨s', hRead, hTally'⟩
          rcases totals_of_perm hRows hTally hTally' with
            ⟨hCount, hTotal⟩
          refine ⟨s'.finish, ?_, hTally'.errors, hCount, hTotal,
            ?_, ?_⟩
          · unfold readWorkbook
            simp only
            rw [hOpen']
            exact hRead
          · have hPairs := (@summaries_perm env allowZero
              Unit (fun _ => ()) (fun _ _ => rfl)
              (fun _ _ => rfl) _ _ hFine.rows
              (fun _ _ _ _ _ => rfl) hRows _ _ _ _ hTally
              hTally').map (fun x => (x.1, x.2.1))
            rw [List.map_map, List.map_map] at hPairs
            exact hPairs
          · intro hFree
            exact summaries_perm (fun _ _ => rfl)
              (fun _ _ => rfl) hFine.rows
              (fun _ hx _ hy hEq =>
                identityAttributes_of_signature hFine.rows hFree
                  hx hy hEq) hRows hTally hTally'

end Rows

------------------------------------------------------------
-- A Workbook With Two Cables
------------------------------------------------------------

namespace CableBook

def env : Env := ⟨.ascii, id⟩

/- The cell of a column in a numbered row. -/
def cell (number column : Nat) (text : Text) : Element :=
  .mk (qualified "c") [("r".toList,
    Char.ofNat (65 + column) :: Nat.toDigits 10 number)]
    none none [.mk (qualified "v") [] (some text) none []]

def xmlRow (number : Nat) (texts : List Text) : Element :=
  .mk (qualified "row")
    [("r".toList, Nat.toDigits 10 number)] none none
    (texts.zipIdx.map (fun p => cell number p.2 p.1))

def worksheet (rows : List (List Text)) : Element :=
  .mk [] [] none none [.mk (qualified "sheetData") [] none none
    (rows.zipIdx.map (fun p => xmlRow (p.2 + 1) p.1))]

/- The same cable twice, in small and in capital letters. -/
def cables : Sheet → List (List Text)
| .powerCables =>
    [texts ["C13-C14", "C13", "C14", "1.5 м", "10A", "black",
        "2"],
      texts ["c13-c14", "c13", "c14", "1,50 м", "10a", "BLACK",
        "3"]]
| _ => []

/- The identifier of a sheet, which names its member as well. -/
def idOf (n : Nat) : Text := 's' :: Nat.toDigits 10 n

def workbook : Element :=
  .mk [] [] none none [.mk (qualified "sheets") [] none none
    (sheets.zipIdx.map (fun p => .mk (qualified "sheet")
      [("name".toList, p.1.name),
        (relationAttribute, idOf p.2)] none none []))]

def relationships : Element :=
  .mk [] [] none none (sheets.zipIdx.map (fun p =>
    .mk [] [("Id".toList, idOf p.2),
      ("Target".toList, idOf p.2)] none none []))

/- The members of the archive with their roots. -/
def roots : List (Text × Element) :=
  [(relationshipsName, relationships),
    (workbookName, workbook)] ++
    sheets.zipIdx.map (fun p => ("xl/".toList ++ idOf p.2,
      worksheet (p.1.headers :: cables p.1)))

def file : SourceFile where
  size := 1
  archive := some {
    members := roots.map (fun p => ⟨p.1, 1, false⟩)
    read := fun name => (Table.find Prod.fst name roots).map
      (fun p => ⟨1, some p.2⟩) }

end CableBook

/- Both cables are one item of five pieces. -/
theorem workbook_is_accounted_for_cables :
    ∃ v content, readWorkbook CableBook.env false
        (some CableBook.file) = some v ∧
      v.rawRows = 2 ∧ v.sourceQuantity = 5 ∧
      v.items.length = 1 ∧
      openContent CableBook.file = .ok content ∧
      Accounted CableBook.env false
        (dataRows CableBook.env content) v := by
  have hRead : (readWorkbook CableBook.env false
      (some CableBook.file)).map (fun v => (v.errors, v.rawRows,
        v.sourceQuantity, v.items.length)) =
          some ([], 2, 5, 1) := by
    decide +kernel
  rcases Option.map_eq_some_iff.mp hRead with ⟨v, hV, hFound⟩
  simp only [Prod.mk.injEq] at hFound
  rcases hFound with ⟨hErrors, hRows, hQuantity, hItems⟩
  rcases workbook_is_accounted_for hV hErrors with
    ⟨file, content, hFile, hOpen, hAccounted, _⟩
  cases hFile
  exact ⟨v, content, hV, hRows, hQuantity, hItems, hOpen,
    hAccounted⟩

end Bootstrap
