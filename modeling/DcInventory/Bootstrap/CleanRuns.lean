import DcInventory.Bootstrap.InventoryWorkbook
import DcInventory.Library.Fallible

/-
  This file says what a reading of the workbook that reports
  no error has found: every data row was read, and all of
  them are tallied.

  Key definitions include:
    * `Bootstrap.DataRow`
    * `Bootstrap.Tally`
    * `Bootstrap.SheetFine`

  Key theorems include:
    * `Bootstrap.readAll_clean`
    * `Bootstrap.readSheet_clean`
    * `Bootstrap.readContent_clean`
    * `Bootstrap.readContent_of_fine`
-/

namespace Bootstrap

open Xml (Element)

------------------------------------------------------------
-- Data Rows
------------------------------------------------------------

/- A row with cells below the header of a worksheet. -/
structure DataRow where
  sheet : Sheet
  number : Int
  cells : Cells

namespace DataRow

def row (r : DataRow) : Row := rowOf r.sheet r.cells

def source (r : DataRow) : Text := sourceOf r.sheet r.number

section Items

variable (env : Env)
variable (allowZero : Bool)

def outcome (r : DataRow) : RowOutcome :=
  rowOutcome env allowZero r.sheet r.row r.cells r.source

/- The row gets through, with its quantity and its item. -/
def Reads (r : DataRow) (item : Equipment) : Prop :=
  ∃ quantity, r.outcome env allowZero = .fine quantity item

def item? (r : DataRow) : Option Equipment :=
  match r.outcome env allowZero with
  | .fine _ item => some item
  | _ => none

/- The number in the quantity cell. -/
def cellQuantity (r : DataRow) : Int :=
  match (r.row.at quantityHeader).bind
      (quantityInteger env.unicode allowZero) with
  | .ok quantity => quantity
  | .error _ => 0

variable {env}
variable {allowZero}

theorem item_eq_some_iff
    {r : DataRow}
    {item : Equipment} :
    r.item? env allowZero = some item ↔
      r.Reads env allowZero item := by
  unfold item? Reads
  constructor
  · intro h
    split at h
    · rename_i quantity found hOutcome
      cases h
      exact ⟨quantity, hOutcome⟩
    · cases h
  · rintro ⟨quantity, hOutcome⟩
    rw [hOutcome]

end Items

end DataRow

section Runs

variable {env : Env}
variable {allowZero : Bool}

/- What a row that is read without a failure consists of. -/
theorem normalizeRow_ok
    {sheet : Sheet}
    {row : Row}
    {source : Text}
    {item : Equipment}
    (h : normalizeRow env.unicode env.sha256 allowZero sheet row
      source = .ok item) :
    (row.at quantityHeader).bind
        (quantityInteger env.unicode allowZero) =
        .ok item.quantity ∧
      item.sources = [source] ∧
      item.signature = itemSignature env.unicode env.sha256
        item.category item.manufacturer item.model
        item.attributes := by
  unfold normalizeRow at h
  rcases Except.bind_eq_ok_iff.mp h with ⟨layout, _, h⟩
  rcases Except.bind_eq_ok_iff.mp h with ⟨read, _, h⟩
  rcases Except.bind_eq_ok_iff.mp h with ⟨attributes, _, h⟩
  rcases Except.bind_eq_ok_iff.mp h with ⟨cell, hCell, h⟩
  rcases Except.bind_eq_ok_iff.mp h with ⟨quantity, hValue, h⟩
  cases h
  refine ⟨?_, rfl, rfl⟩
  rw [hCell]
  exact hValue

theorem rowOutcome_fine
    {sheet : Sheet}
    {row : Row}
    {cells : Cells}
    {source : Text}
    {quantity : Int}
    {item : Equipment}
    (h : rowOutcome env allowZero sheet row cells source =
      .fine quantity item) :
    (row.at quantityHeader).bind
        (quantityInteger env.unicode allowZero) =
        .ok quantity ∧
      normalizeRow env.unicode env.sha256 allowZero sheet row
        source = .ok item := by
  unfold rowOutcome at h
  split at h
  · cases h
  · rename_i found hQuantity
    split at h
    · cases h
    · split at h
      · cases h
      · split at h
        · cases h
        · rename_i read hRow
          cases h
          exact ⟨hQuantity, hRow⟩

theorem DataRow.Reads.spec
    {r : DataRow}
    {item : Equipment}
    (h : r.Reads env allowZero item) :
    r.cellQuantity env allowZero = item.quantity ∧
      item.sources = [r.source] ∧
      item.signature = itemSignature env.unicode env.sha256
        item.category item.manufacturer item.model
        item.attributes := by
  rcases h with ⟨quantity, hOutcome⟩
  rcases rowOutcome_fine hOutcome with ⟨_, hRow⟩
  rcases normalizeRow_ok hRow with ⟨hCell, hSources, hSigned⟩
  refine ⟨?_, hSources, hSigned⟩
  unfold DataRow.cellQuantity
  rw [hCell]

------------------------------------------------------------
-- Tallies
------------------------------------------------------------

/-
  From one reading to a later one: these sheets and rows were
  counted, and no error was reported.
-/
structure Tally
    (env : Env)
    (allowZero : Bool)
    (s s' : Reading)
    (names : List Text)
    (rows : List DataRow) : Prop where
  sheets : s'.sheets = s.sheets ++ names
  rawRows : s'.rawRows = s.rawRows + rows.length
  sourceQuantity : s'.sourceQuantity = s.sourceQuantity +
    (rows.map (DataRow.cellQuantity env allowZero)).sum
  grouped : s'.grouped =
    (rows.filterMap (DataRow.item? env allowZero)).foldl
      (Grouping.add Equipment.signature Equipment.join) s.grouped
  errors : s'.errors = s.errors

theorem Tally.refl (s : Reading) :
    Tally env allowZero s s [] [] :=
  ⟨(List.append_nil _).symm, rfl, (add_zero _).symm, rfl, rfl⟩

theorem Tally.trans
    {s s' s'' : Reading}
    {names names' : List Text}
    {rows rows' : List DataRow}
    (h : Tally env allowZero s s' names rows)
    (h' : Tally env allowZero s' s'' names' rows') :
    Tally env allowZero s s'' (names ++ names')
      (rows ++ rows') where
  sheets := by
    rw [h'.sheets, h.sheets, List.append_assoc]
  rawRows := by
    rw [h'.rawRows, h.rawRows, List.length_append, add_assoc]
  sourceQuantity := by
    rw [h'.sourceQuantity, h.sourceQuantity, List.map_append,
      List.sum_append, add_assoc]
  grouped := by
    rw [h'.grouped, h.grouped, List.filterMap_append,
      List.foldl_append]
  errors := h'.errors.trans h.errors

------------------------------------------------------------
-- Steps And Runs
------------------------------------------------------------

section Steps

variable {α : Type}
variable {step : Reading → α → Reading × Outcome}
variable (Fine : α → Prop)
variable (names : α → List Text)
variable (rows : α → List DataRow)

theorem readAll_grows
    (hGrow : ∀ s x, s.errors <+: (step s x).1.errors)
    (s : Reading)
    (xs : List α) :
    s.errors <+: (readAll step s xs).1.errors := by
  induction xs generalizing s with
  | nil => exact List.prefix_rfl
  | cons x xs ih =>
      have hFirst := hGrow s x
      rw [readAll]
      rcases hStep : step s x with ⟨s', outcome⟩
      rw [hStep] at hFirst
      cases outcome with
      | next => exact hFirst.trans (ih s')
      | invalid failure => exact hFirst
      | crash => exact hFirst

/- A run that reports nothing consists of such steps. -/
theorem readAll_clean
    (hGrow : ∀ s x, s.errors <+: (step s x).1.errors)
    (hClean : ∀ s x s', step s x = (s', .next) →
      s'.errors = s.errors →
      Fine x ∧ Tally env allowZero s s' (names x) (rows x))
    {s s' : Reading}
    {xs : List α}
    (hRun : readAll step s xs = (s', .next))
    (hErrors : s'.errors = s.errors) :
    (∀ x ∈ xs, Fine x) ∧
      Tally env allowZero s s' (xs.flatMap names)
        (xs.flatMap rows) := by
  induction xs generalizing s with
  | nil =>
      cases hRun
      exact ⟨List.forall_mem_nil _, Tally.refl _⟩
  | cons x xs ih =>
      have hFirst := hGrow s x
      rw [readAll] at hRun
      rcases hStep : step s x with ⟨next, outcome⟩
      rw [hStep] at hFirst hRun
      cases outcome with
      | invalid failure => cases hRun
      | crash => cases hRun
      | next =>
          have hLater := readAll_grows hGrow next xs
          change readAll step next xs = (s', .next) at hRun
          rw [hRun, hErrors] at hLater
          have hSame : next.errors = s.errors :=
            hLater.eq_of_length_le hFirst.length_le
          rcases hClean s x next hStep hSame with
            ⟨hFine, hTally⟩
          rcases ih hRun (hErrors.trans hSame.symm) with
            ⟨hRest, hTallies⟩
          exact ⟨List.forall_mem_cons.mpr ⟨hFine, hRest⟩,
            hTally.trans hTallies⟩

/- Where every step goes through, the run does. -/
theorem readAll_of_fine
    (hFine : ∀ s x, Fine x → ∃ s', step s x = (s', .next) ∧
      Tally env allowZero s s' (names x) (rows x))
    (s : Reading)
    {xs : List α}
    (h : ∀ x ∈ xs, Fine x) :
    ∃ s', readAll step s xs = (s', .next) ∧
      Tally env allowZero s s' (xs.flatMap names)
        (xs.flatMap rows) := by
  induction xs generalizing s with
  | nil => exact ⟨s, rfl, Tally.refl s⟩
  | cons x xs ih =>
      rcases List.forall_mem_cons.mp h with ⟨hHead, hTail⟩
      rcases hFine s x hHead with ⟨next, hStep, hTally⟩
      rcases ih next hTail with ⟨s', hRun, hTallies⟩
      refine ⟨s', ?_, hTally.trans hTallies⟩
      rw [readAll, hStep]
      exact hRun

end Steps

------------------------------------------------------------
-- Rows
------------------------------------------------------------

/- A row number and cells, as a data row of a sheet. -/
def dataRow (sheet : Sheet) (p : Int × Cells) : DataRow :=
  ⟨sheet, p.1, p.2⟩

def RowFine
    (env : Env)
    (allowZero : Bool)
    (r : DataRow) : Prop :=
  ∃ item, r.Reads env allowZero item

theorem report_grows (s : Reading) (problems : List Problem) :
    s.errors <+: (s.report problems).errors :=
  List.prefix_append _ _

theorem raised_grows
    {s before : Reading}
    (hSame : s.errors = before.errors)
    (source : Text)
    (failure : RowFailure) :
    before.errors <+: (raised s source failure).1.errors := by
  rw [← hSame]
  cases failure with
  | value message => exact report_grows s _
  | key name => exact List.prefix_rfl
  | invalidOperation => exact report_grows s _
  | overflow => exact List.prefix_rfl

/- A failure of a row is reported or ends the reading. -/
theorem raised_not_clean
    {s before s' : Reading}
    (hStart : s.errors = before.errors)
    {source : Text}
    {failure : RowFailure}
    (h : raised s source failure = (s', .next)) :
    s'.errors ≠ before.errors := by
  rw [← hStart]
  intro hSame
  have hLength := congrArg List.length hSame
  cases failure with
  | value message =>
      cases h
      simp [Reading.report] at hLength
  | key name => cases h
  | invalidOperation =>
      cases h
      simp [Reading.report] at hLength
  | overflow => cases h

theorem readDataRow_grows
    (sheet : Sheet)
    (s : Reading)
    (p : Int × Cells) :
    s.errors <+:
      (readDataRow env allowZero sheet s p).1.errors := by
  unfold readDataRow
  simp only
  split
  · exact raised_grows (by rfl) _ _
  · exact raised_grows (by rfl) _ _
  · exact report_grows _ _
  · exact List.prefix_rfl

theorem readDataRow_clean
    {sheet : Sheet}
    {s s' : Reading}
    {p : Int × Cells}
    (h : readDataRow env allowZero sheet s p = (s', .next))
    (hErrors : s'.errors = s.errors) :
    RowFine env allowZero (dataRow sheet p) ∧
      Tally env allowZero s s' [] [dataRow sheet p] := by
  unfold readDataRow at h
  simp only at h
  split at h
  · exact absurd hErrors (raised_not_clean (by rfl) h)
  · exact absurd hErrors (raised_not_clean (by rfl) h)
  · cases h
    have hLength := congrArg List.length hErrors
    simp [Reading.report] at hLength
  · rename_i quantity item hOutcome
    have hReads : (dataRow sheet p).Reads env allowZero item :=
      ⟨quantity, hOutcome⟩
    have hCell : (dataRow sheet p).cellQuantity env allowZero =
        quantity := by
      exact hReads.spec.1.trans (Except.ok.inj
        ((normalizeRow_ok (rowOutcome_fine hOutcome).2).1.symm.trans
          (rowOutcome_fine hOutcome).1))
    refine ⟨⟨item, hReads⟩, ?_⟩
    cases h
    constructor
    · exact (List.append_nil _).symm
    · rfl
    · rw [List.map_singleton, List.sum_singleton, hCell]
    · rw [List.filterMap_cons, DataRow.item_eq_some_iff.mpr
        hReads]
      rfl
    · rfl

theorem readDataRow_of_fine
    {sheet : Sheet}
    (s : Reading)
    {p : Int × Cells}
    (h : RowFine env allowZero (dataRow sheet p)) :
    ∃ s', readDataRow env allowZero sheet s p = (s', .next) ∧
      Tally env allowZero s s' [] [dataRow sheet p] := by
  rcases h with ⟨item, quantity, hOutcome⟩
  have hStep : (readDataRow env allowZero sheet s p).2 =
      .next ∧ (readDataRow env allowZero sheet s p).1.errors =
        s.errors := by
    unfold readDataRow
    unfold DataRow.outcome dataRow DataRow.row DataRow.source
      at hOutcome
    simp only at hOutcome ⊢
    rw [hOutcome]
    exact ⟨rfl, rfl⟩
  rcases hRun : readDataRow env allowZero sheet s p with
    ⟨s', outcome⟩
  rw [hRun] at hStep
  rcases hStep with ⟨rfl, hErrors⟩
  exact ⟨s', rfl, (readDataRow_clean hRun hErrors).2⟩

------------------------------------------------------------
-- Sheets
------------------------------------------------------------

/- The rows with cells of the worksheet of an element. -/
structure Worksheet
    (env : Env)
    (content : Content)
    (element : Element)
    (sheet : Sheet)
    (rows : List (Int × Cells)) : Prop where
  name : attr element "name".toList = .ok sheet.name
  rows : ∃ root, sheetRoot content element = .ok root ∧
    readRows env.unicode content.strings sheet.name
      (rowElements root) = ([], .ok rows)

theorem sheetOf_eq_some_iff
    {name : Text}
    {sheet : Sheet} :
    sheetOf name = some sheet ↔ name = sheet.name := by
  constructor
  · intro h
    exact (Table.key_of_find h).symm
  · rintro rfl
    cases sheet <;> rfl

theorem Sheet.name_injective : Function.Injective Sheet.name := by
  intro sheet sheet' h
  have hSheet : sheetOf sheet.name = some sheet :=
    sheetOf_eq_some_iff.mpr rfl
  rw [h, sheetOf_eq_some_iff.mpr rfl] at hSheet
  exact (Option.some.inj hSheet).symm

theorem Worksheet.unique
    {content : Content}
    {element : Element}
    {sheet sheet' : Sheet}
    {rows rows' : List (Int × Cells)}
    (h : Worksheet env content element sheet rows)
    (h' : Worksheet env content element sheet' rows') :
    sheet' = sheet ∧ rows' = rows := by
  have hName := h'.name
  rw [h.name] at hName
  have hSheet := Sheet.name_injective (Except.ok.inj hName)
  subst hSheet
  rcases h.rows with ⟨root, hRoot, hRows⟩
  rcases h'.rows with ⟨root', hRoot', hRows'⟩
  rw [hRoot] at hRoot'
  cases hRoot'
  rw [hRows] at hRows'
  cases hRows'
  exact ⟨rfl, rfl⟩

/- The data rows of a sheet; none if it cannot be read. -/
def sheetRows
    (env : Env)
    (content : Content)
    (element : Element) : List DataRow :=
  let found : Except Failure (List DataRow) := do
    let name ← attr element "name".toList
    match sheetOf name with
    | none => .ok []
    | some sheet =>
        let root ← sheetRoot content element
        let rows ← (readRows env.unicode content.strings name
          (rowElements root)).2
        .ok (rows.tail.map (dataRow sheet))
  match found with
  | .ok rows => rows
  | .error _ => []

/- The names of a sheet, as the reader collects them. -/
def sheetNames (element : Element) : List Text :=
  (element.get "name".toList).toList

theorem Worksheet.sheetRows_eq
    {content : Content}
    {element : Element}
    {sheet : Sheet}
    {rows : List (Int × Cells)}
    (h : Worksheet env content element sheet rows) :
    sheetRows env content element =
      rows.tail.map (dataRow sheet) := by
  rcases h.rows with ⟨root, hRoot, hRows⟩
  have hSheet : sheetOf sheet.name = some sheet :=
    sheetOf_eq_some_iff.mpr rfl
  unfold sheetRows
  simp only [h.name, bind, Except.bind, hSheet, hRoot, hRows]

theorem Worksheet.sheetNames_eq
    {content : Content}
    {element : Element}
    {sheet : Sheet}
    {rows : List (Int × Cells)}
    (h : Worksheet env content element sheet rows) :
    sheetNames element = [sheet.name] := by
  have hName := h.name
  unfold attr at hName
  unfold sheetNames
  split at hName
  · rename_i name hGet
    cases hName
    rw [hGet]
    rfl
  · cases hName

/-
  The worksheet of an element can be read, its header is the
  expected one, and all its data rows get through.
-/
def SheetFine
    (env : Env)
    (allowZero : Bool)
    (content : Content)
    (element : Element) : Prop :=
  ∃ sheet rows, Worksheet env content element sheet rows ∧
    sameCells (completeHeader sheet (headerOf rows))
      (expectedHeader sheet.headers) = true ∧
    ∀ p ∈ rows.tail, RowFine env allowZero (dataRow sheet p)

@[simp]
theorem warn_errors
    (s : Reading)
    (sheet : Sheet)
    (header : Cells) :
    (s.warn sheet header).errors = s.errors := by
  unfold Reading.warn
  split <;> rfl

/- A warning counts nothing. -/
theorem tally_warn
    (s : Reading)
    (sheet : Sheet)
    (header : Cells) :
    Tally env allowZero s (s.warn sheet header) [] [] := by
  unfold Reading.warn
  split
  · exact ⟨(List.append_nil _).symm, rfl, (add_zero _).symm,
      rfl, rfl⟩
  · exact Tally.refl s

theorem readTable_grows
    (sheet : Sheet)
    (s : Reading)
    (rows : List (Int × Cells)) :
    s.errors <+:
      (readTable env allowZero sheet s rows).1.errors := by
  rw [← warn_errors s sheet (headerOf rows)]
  unfold readTable
  simp only
  split
  · exact report_grows _ _
  · exact readAll_grows (readDataRow_grows sheet) _ _

theorem flatMap_nothing
    {α β : Type}
    (xs : List α) :
    xs.flatMap (fun _ => ([] : List β)) = [] := by
  rw [List.flatMap_eq_nil_iff]
  exact fun _ _ => rfl

/- A table that reports nothing was read to its end. -/
theorem readTable_clean
    {sheet : Sheet}
    {s s' : Reading}
    {rows : List (Int × Cells)}
    (h : readTable env allowZero sheet s rows = (s', .next))
    (hErrors : s'.errors = s.errors) :
    sameCells (completeHeader sheet (headerOf rows))
        (expectedHeader sheet.headers) = true ∧
      (∀ p ∈ rows.tail,
        RowFine env allowZero (dataRow sheet p)) ∧
      Tally env allowZero s s' []
        (rows.tail.map (dataRow sheet)) := by
  rw [← warn_errors s sheet (headerOf rows)] at hErrors
  unfold readTable at h
  simp only at h
  split at h
  · cases h
    have hLength := congrArg List.length hErrors
    simp [Reading.report] at hLength
  · rename_i hHeader
    rcases readAll_clean
      (fun p => RowFine env allowZero (dataRow sheet p))
      (fun _ => []) (fun p => [dataRow sheet p])
      (readDataRow_grows sheet)
      (fun _ _ _ hStep hSame => readDataRow_clean hStep hSame)
      h hErrors with ⟨hFine, hTally⟩
    rw [flatMap_nothing, ← List.map_eq_flatMap] at hTally
    exact ⟨Bool.not_eq_false _ ▸ hHeader, hFine,
      (tally_warn s sheet (headerOf rows)).trans hTally⟩

theorem readTable_of_fine
    {sheet : Sheet}
    (s : Reading)
    {rows : List (Int × Cells)}
    (hHeader : sameCells (completeHeader sheet (headerOf rows))
      (expectedHeader sheet.headers) = true)
    (hFine : ∀ p ∈ rows.tail,
      RowFine env allowZero (dataRow sheet p)) :
    ∃ s', readTable env allowZero sheet s rows = (s', .next) ∧
      Tally env allowZero s s' []
        (rows.tail.map (dataRow sheet)) := by
  rcases readAll_of_fine
    (fun p => RowFine env allowZero (dataRow sheet p))
    (fun _ => []) (fun p => [dataRow sheet p])
    (fun t _ hRow => readDataRow_of_fine t hRow)
    (s.warn sheet (headerOf rows)) hFine with
    ⟨s', hRun, hTally⟩
  rw [flatMap_nothing, ← List.map_eq_flatMap] at hTally
  refine ⟨s', ?_,
    (tally_warn s sheet (headerOf rows)).trans hTally⟩
  unfold readTable
  simp only
  rw [if_neg (by rw [hHeader]; decide)]
  exact hRun

theorem readSheet_grows
    (content : Content)
    (s : Reading)
    (element : Element) :
    s.errors <+:
      (readSheet env allowZero content s element).1.errors := by
  unfold readSheet
  split
  · exact List.prefix_rfl
  · simp only
    split
    · exact report_grows _ _
    · split
      · exact List.prefix_rfl
      · split
        · exact report_grows _ _
        · refine List.IsPrefix.trans ?_ (readTable_grows _ _ _)
          exact report_grows _ _

/- The name of a sheet is collected. -/
theorem tally_name
    (s : Reading)
    (name : Text) :
    Tally env allowZero s
      (Reading.report { s with sheets := s.sheets ++ [name] } [])
      [name] [] :=
  ⟨rfl, rfl, (add_zero _).symm, rfl, List.append_nil _⟩

theorem readSheet_clean
    {content : Content}
    {s s' : Reading}
    {element : Element}
    (h : readSheet env allowZero content s element =
      (s', .next))
    (hErrors : s'.errors = s.errors) :
    SheetFine env allowZero content element ∧
      Tally env allowZero s s' (sheetNames element)
        (sheetRows env content element) := by
  unfold readSheet at h
  split at h
  · cases h
  · rename_i name hName
    simp only at h
    split at h
    · cases h
      have hLength := congrArg List.length hErrors
      simp [Reading.report] at hLength
    · rename_i sheet hSheet
      rw [sheetOf_eq_some_iff] at hSheet
      subst hSheet
      split at h
      · cases h
      · rename_i root hRoot
        split at h
        · cases h
        · rename_i problems rows hRows
          have hGrow : _ <+: (readTable env allowZero sheet
              (Reading.report
                { s with sheets := s.sheets ++ [sheet.name] }
                problems) rows).1.errors :=
            readTable_grows sheet _ rows
          rw [h, hErrors] at hGrow
          have hNone : problems = [] := by
            have hLength := hGrow.length_le
            simp only [Reading.report,
              List.length_append] at hLength
            exact List.length_eq_zero_iff.mp (by omega)
          subst hNone
          have hSheet : Worksheet env content element sheet
              rows := ⟨hName, root, hRoot, hRows⟩
          have hStart : Tally env allowZero s _ [sheet.name] [] :=
            tally_name s sheet.name
          rcases readTable_clean h
            (hErrors.trans hStart.errors.symm) with
            ⟨hHeader, hFine, hTally⟩
          refine ⟨⟨sheet, rows, hSheet, hHeader, hFine⟩, ?_⟩
          rw [hSheet.sheetNames_eq, hSheet.sheetRows_eq]
          exact hStart.trans hTally

theorem readSheet_of_fine
    {content : Content}
    (s : Reading)
    {element : Element}
    (h : SheetFine env allowZero content element) :
    ∃ s', readSheet env allowZero content s element =
        (s', .next) ∧
      Tally env allowZero s s' (sheetNames element)
        (sheetRows env content element) := by
  rcases h with ⟨sheet, rows, hSheet, hHeader, hFine⟩
  rcases hSheet.rows with ⟨root, hRoot, hRows⟩
  rcases readTable_of_fine
    (Reading.report
      { s with sheets := s.sheets ++ [sheet.name] } [])
    hHeader hFine with ⟨s', hTable, hTally⟩
  have hKnown : sheetOf sheet.name = some sheet :=
    sheetOf_eq_some_iff.mpr rfl
  refine ⟨s', ?_, ?_⟩
  · unfold readSheet
    rw [hSheet.name]
    simp only
    rw [hKnown]
    simp only
    rw [hRoot]
    simp only
    rw [hRows]
    exact hTable
  · rw [hSheet.sheetNames_eq, hSheet.sheetRows_eq]
    exact (tally_name s sheet.name).trans hTally

------------------------------------------------------------
-- Workbooks
------------------------------------------------------------

/- All sheets can be read, and none is missing. -/
structure ContentFine
    (env : Env)
    (allowZero : Bool)
    (content : Content) : Prop where
  sheets : ∀ element ∈ content.sheets,
    SheetFine env allowZero content element
  present : missingSheets
    (content.sheets.flatMap sheetNames) = []

/- All data rows, in the order in which they are read. -/
def dataRows (env : Env) (content : Content) : List DataRow :=
  content.sheets.flatMap (sheetRows env content)

theorem finish_errors (s : Reading) :
    s.finish.errors = s.errors := rfl

theorem readContent_clean
    {content : Content}
    {v : Validation}
    (h : readContent env allowZero content = some v)
    (hErrors : v.errors = []) :
    ContentFine env allowZero content ∧
      ∃ s, v = s.finish ∧
        Tally env allowZero Reading.start s
          (content.sheets.flatMap sheetNames)
          (dataRows env content) := by
  unfold readContent at h
  split at h
  · rename_i s hRun
    cases h
    rw [finish_errors] at hErrors
    rcases List.append_eq_nil_iff.mp hErrors with
      ⟨hNone, hPresent⟩
    rw [List.map_eq_nil_iff] at hPresent
    rcases readAll_clean
      (SheetFine env allowZero content) sheetNames
      (sheetRows env content) (readSheet_grows content)
      (fun _ _ _ hStep hSame => readSheet_clean hStep hSame)
      hRun hNone with ⟨hFine, hTally⟩
    have hNames : s.sheets =
        content.sheets.flatMap sheetNames := by
      rw [hTally.sheets]
      rfl
    refine ⟨⟨hFine, hNames ▸ hPresent⟩,
      s.report ((missingSheets s.sheets).map
        Problem.missingWorksheet), rfl, ?_⟩
    refine ⟨hTally.sheets, hTally.rawRows,
      hTally.sourceQuantity, hTally.grouped, ?_⟩
    rw [hPresent]
    exact (List.append_nil _).trans hTally.errors
  · cases h
    have hLength := congrArg List.length hErrors
    simp [Reading.report, Reading.finish] at hLength
  · cases h

theorem readContent_of_fine
    {content : Content}
    (h : ContentFine env allowZero content) :
    ∃ s, readContent env allowZero content =
        some s.finish ∧
      Tally env allowZero Reading.start s
        (content.sheets.flatMap sheetNames)
        (dataRows env content) := by
  rcases readAll_of_fine
    (SheetFine env allowZero content) sheetNames
    (sheetRows env content)
    (fun t _ hSheet => readSheet_of_fine t hSheet)
    Reading.start h.sheets with ⟨s, hRun, hTally⟩
  have hNames : s.sheets =
      content.sheets.flatMap sheetNames := by
    rw [hTally.sheets]
    rfl
  refine ⟨s.report [], ?_, hTally.sheets, hTally.rawRows,
    hTally.sourceQuantity, hTally.grouped,
    (List.append_nil _).trans hTally.errors⟩
  unfold readContent
  have hRun' : readAll (readSheet env allowZero content)
      Reading.start content.sheets = (s, .next) := hRun
  rw [hRun']
  simp only
  rw [hNames, h.present]
  rfl

end Runs

end Bootstrap
