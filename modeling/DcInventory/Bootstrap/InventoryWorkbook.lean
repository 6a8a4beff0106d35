import DcInventory.Bootstrap.Rows
import DcInventory.Core.Numbers
import DcInventory.Library.Grouping
import DcInventory.Library.Lines
import DcInventory.Library.Xml

/-
  This file defines how the workbook is read: the members of
  its archive, the cells of its worksheets, and the rows that
  are grouped into pieces of equipment.

  Every function says what it adds to the errors, and whether
  it raised an exception.

  Key definitions include:
    * `Bootstrap.Archive`
    * `Bootstrap.readRow`
    * `Bootstrap.readSheet`
    * `Bootstrap.readWorkbook`
-/

namespace Bootstrap

open Xml (Element)

------------------------------------------------------------
-- Results
------------------------------------------------------------

/- Why the whole workbook is invalid. -/
inductive Failure where
| value (message : Text)
| key (name : Text)
| parse
| archive
deriving DecidableEq, Repr

/- What is reported, with the values that the text names. -/
inductive Problem where
| sourceFileMissing
| unknownWorksheet (name : Text)
| formula (name ref : Text)
| headersDiffer
    (name : Text)
    (expected : List Text)
    (found : List (Nat × Text))
| row (source : Text) (failure : RowFailure)
| blankFields (source : Text) (missing : List Text)
| missingWorksheet (name : Text)
| invalidWorkbook (failure : Failure)
deriving DecidableEq, Repr

structure Validation where
  sheets : List Text
  rawRows : Nat
  sourceQuantity : Int
  items : List Equipment
  errors : List Problem
  warnings : List Text
deriving DecidableEq, Repr

def failed {α : Type} (message : String) : Except Failure α :=
  .error (.value message.toList)

------------------------------------------------------------
-- Archives
------------------------------------------------------------

structure Member where
  filename : Text
  fileSize : Nat
  encrypted : Bool
deriving DecidableEq, Repr

/-
  A member unpacked: its bytes are counted, and the parser of
  the runtime has found its root element. There is none in a
  text that is not well formed or has a document type.
-/
structure Unpacked where
  size : Nat
  root : Option Element

/- The directory of an archive, and its members by name. -/
structure Archive where
  members : List Member
  read : Text → Option Unpacked

/- A file; no archive is in it if it is no ZIP file. -/
structure SourceFile where
  size : Nat
  archive : Option Archive

def maxWorkbookBytes : Nat := 16 * 1024 * 1024

def maxArchiveMembers : Nat := 256

def maxUncompressedBytes : Nat := 32 * 1024 * 1024

def maxXmlBytes : Nat := 4 * 1024 * 1024

def maxXmlNodes : Nat := 100000

def maxXmlDepth : Nat := 64

/- The tables of the runtime and its digest. -/
structure Env where
  unicode : Unicode
  sha256 : Text → Text

/- `_read_xml` -/
def readXml
    (archive : Archive)
    (member : Text) : Except Failure Element :=
  match archive.read member with
  | none => .error .archive
  | some unpacked =>
      if maxXmlBytes < unpacked.size then
        failed "XML member exceeds resource limit"
      else
        match unpacked.root with
        | none => .error .parse
        | some root =>
            if maxXmlNodes < root.count ∨
                maxXmlDepth < root.depth then
              failed "XML structure exceeds resource limit"
            else .ok root

def checkArchive
    (file : SourceFile) : Except Failure Archive := do
  if maxWorkbookBytes < file.size then
    failed "workbook exceeds resource limit"
  else
    match file.archive with
    | none => .error .archive
    | some archive =>
        let sizes := archive.members.map Member.fileSize
        if maxArchiveMembers < archive.members.length ∨
            maxUncompressedBytes < sizes.sum then
          failed "ZIP exceeds resource limit"
        else if ¬ (archive.members.map
            Member.filename).Nodup then
          failed "duplicate ZIP members"
        else if archive.members.any Member.encrypted then
          failed "encrypted ZIP members are not supported"
        else .ok archive

/- The namespace `s` before a name. -/
def qualified (name : String) : Text :=
  ("\x7bhttp://schemas.openxmlformats.org/" ++
    "spreadsheetml/2006/main\x7d" ++ name).toList

def relationAttribute : Text :=
  ("\x7bhttp://schemas.openxmlformats.org/officeDocument/" ++
    "2006/relationships\x7did").toList

/- `element.attrib[name]` -/
def attr (e : Element) (name : Text) : Except Failure Text :=
  match e.get name with
  | some value => .ok value
  | none => .error (.key name)

/- What the sheets refer to. -/
structure Content where
  strings : List Text
  relationships : List (Text × Text)
  sheets : List Element
  root : Text → Except Failure Element

def sharedStringsName : Text := "xl/sharedStrings.xml".toList

def relationshipsName : Text :=
  "xl/_rels/workbook.xml.rels".toList

def workbookName : Text := "xl/workbook.xml".toList

def readStrings
    (archive : Archive) : Except Failure (List Text) :=
  if sharedStringsName ∈ archive.members.map
      Member.filename then do
    let root ← readXml archive sharedStringsName
    .ok (root.children.map Element.itertext)
  else .ok []

/- A relationship with an identifier that is there twice. -/
def relationshipsOf :
    List (Text × Text) → List Element →
      Except Failure (List (Text × Text))
| relationships, [] => .ok relationships
| relationships, node :: nodes => do
    let id ← attr node "Id".toList
    let target ← attr node "Target".toList
    relationshipsOf
      (Table.put Prod.fst (id, target) relationships) nodes

def openContent
    (file : SourceFile) : Except Failure Content := do
  let archive ← checkArchive file
  let strings ← readStrings archive
  let rels ← readXml archive relationshipsName
  let relationships ← relationshipsOf [] rels.children
  let workbook ← readXml archive workbookName
  .ok ⟨strings, relationships,
    (workbook.findall (qualified "sheets")).flatMap
      (fun e => e.findall (qualified "sheet")),
    readXml archive⟩

------------------------------------------------------------
-- Paths
------------------------------------------------------------

/- The parts of a path, with the ones before in reverse. -/
def normalizeParts : List Text → List Text → List Text
| before, [] => before.reverse
| before, part :: parts =>
    if part = [] ∨ part = ['.'] then normalizeParts before parts
    else if part ≠ "..".toList ∨ before = [] ∨
        before.head? = some "..".toList then
      normalizeParts (part :: before) parts
    else normalizeParts before.tail parts

/- `posixpath.normpath` of a relative path. -/
def normpath (path : Text) : Text :=
  let normal := Words.join '/'
    (normalizeParts [] (Lines.cut '/' path))
  if normal = [] then ['.'] else normal

def memberOf (target : Text) : Text :=
  if target.head? = some '/' then target.dropWhile (· = '/')
  else normpath ("xl/".toList ++ target)

------------------------------------------------------------
-- Cells
------------------------------------------------------------

def upperLetter : Regex Char :=
  .sign (fun c => decide (65 ≤ c.toNat) && decide (c.toNat ≤ 90))

/- `[0-9]` -/
def asciiDigitSign : Regex Char := .sign Char.isDigit

/- `([A-Z]{1,3})[1-9][0-9]{0,6}` -/
def referencePattern : Regex Char :=
  .seq (.seq upperLetter (Regex.upTo upperLetter 2))
    (.seq (.sign (fun c => c.isDigit && c != '0'))
      (Regex.upTo asciiDigitSign 6))

/- The letters in front of a reference. -/
def lettersOf (ref : Text) : Text :=
  ref.takeWhile (fun c => !c.isDigit)

/- `col * 26 + ord(char) - 64` for every letter. -/
def columnOf (letters : Text) : Nat :=
  letters.foldl (fun col c => col * 26 + (c.toNat - 64)) 0

/- The row that a reference names. -/
def rowNamed (ref : Text) : Nat :=
  Nat.ofDigitChars 10 (ref.dropWhile (fun c => !c.isDigit)) 0

/- The cells of a row by their columns. -/
abbrev Cells := List (Nat × Text)

section Cells

variable (U : Unicode)
variable (strings : List Text)

/- The text of a cell, shared, inline or in its value. -/
def cellText (cell : Element) : Except Failure Text :=
  let text := match cell.find (qualified "v") with
    | some value => value.text.getD []
    | none => []
  if cell.get "t".toList = some "s".toList then
    match U.readInt text with
    | none => failed "invalid literal for int()"
    | some index =>
        if 0 ≤ index ∧ index < strings.length then
          .ok (strings.getD index.toNat [])
        else failed "invalid shared string index"
  else if cell.get "t".toList = some "inlineStr".toList then
    match cell.find (qualified "is") with
    | none => failed "missing inline string"
    | some inline => .ok inline.itertext
  else .ok text

/- A formula is reported before anything else is read. -/
def formulaProblems
    (name : Text) (cell : Element) : List Problem :=
  match cell.get "r".toList with
  | none => []
  | some ref =>
      if (cell.find (qualified "f")).isSome then
        [.formula name ref]
      else []

/- The reference of a cell and its text. -/
def readCell (cell : Element) :
    Except Failure (Text × Text) := do
  let ref ← attr cell "r".toList
  if referencePattern.fullmatch ref = false then
    failed "invalid cell reference"
  else
    let text ← cellText U strings cell
    .ok (ref, text)

/- `cells[col] = clean_text(text)`, unless it is blank. -/
def putCell (cells : Cells) (found : Text × Text) : Cells :=
  if Text.strip found.2 = [] then cells
  else
    Table.put Prod.fst
      (columnOf (lettersOf found.1), cleanText found.2) cells

/-
  The cells of a row element: what is reported until the
  end or the first exception, and the cells.
-/
def readCells (name : Text) :
    Cells → List Element → List Problem × Except Failure Cells
| cells, [] => ([], .ok cells)
| cells, cell :: rest =>
    let problems := formulaProblems name cell
    match readCell U strings cell with
    | .error failure => (problems, .error failure)
    | .ok found =>
        let (more, result) :=
          readCells name (putCell cells found) rest
        (problems ++ more, result)

/- A row with cells has its number. -/
def numbered (row : Element) (cells : Cells) :
    Except Failure (Option (Int × Cells)) :=
  if cells = [] then .ok none
  else do
    let r ← attr row "r".toList
    match U.readInt r with
    | none => failed "invalid literal for int()"
    | some number => .ok (some (number, cells))

def readRow (name : Text) (row : Element) :
    List Problem × Except Failure (Option (Int × Cells)) :=
  let (problems, result) :=
    readCells U strings name [] (row.findall (qualified "c"))
  (problems, result.bind (numbered U row))

/- The rows of a sheet that have cells. -/
def readRows (name : Text) :
    List Element →
      List Problem × Except Failure (List (Int × Cells))
| [] => ([], .ok [])
| row :: rest =>
    match readRow U strings name row with
    | (problems, .error failure) => (problems, .error failure)
    | (problems, .ok found) =>
        let (more, result) := readRows name rest
        (problems ++ more,
          result.map (fun rows => found.toList ++ rows))

end Cells

------------------------------------------------------------
-- Rows
------------------------------------------------------------

/- `dict(enumerate(headers, 1))` -/
def expectedHeader (headers : List Text) : Cells :=
  headers.zipIdx.map (fun p => (p.2 + 1, p.1))

/- Two dictionaries with the same keys and values. -/
def sameCells (a b : Cells) : Bool :=
  a.length == b.length &&
    a.all (fun p => Table.find Prod.fst p.1 b == some p)

def headerOf (rows : List (Int × Cells)) : Cells :=
  match rows with
  | (1, cells) :: _ => cells
  | _ => []

def colorColumn : Nat := 8

/- An optional column is mapped where it is missing. -/
def lacksColor (sheet : Sheet) (header : Cells) : Bool :=
  sheet == .opticalCords &&
    (Table.find Prod.fst colorColumn header).isNone

def completeHeader (sheet : Sheet) (header : Cells) : Cells :=
  if lacksColor sheet header then
    Table.put Prod.fst (colorColumn, colorHeader) header
  else header

/- `{label: cells.get(index, "")}` -/
def rowOf (sheet : Sheet) (cells : Cells) : Row :=
  (expectedHeader sheet.headers).map (fun p => (p.2,
    ((Table.find Prod.fst p.1 cells).map Prod.snd).getD []))

/- What the reader has found so far. -/
structure Reading where
  sheets : List Text
  rawRows : Nat
  sourceQuantity : Int
  grouped : List Equipment
  errors : List Problem
  warnings : List Text
deriving DecidableEq, Repr

def Reading.start : Reading := ⟨[], 0, 0, [], [], []⟩

def Reading.report
    (s : Reading) (problems : List Problem) : Reading :=
  { s with errors := s.errors ++ problems }

/- A header without the optional column is worth a warning. -/
def Reading.warn
    (s : Reading)
    (sheet : Sheet)
    (header : Cells) : Reading :=
  if lacksColor sheet header then
    { s with warnings := s.warnings ++ [sheet.name ++
      ("!H1: missing optional Цвет header; explicitly " ++
        "mapped column H").toList] }
  else s

/- `f"{name}!{number}"` -/
def sourceOf (sheet : Sheet) (number : Int) : Text :=
  sheet.name ++ '!' :: intText number

/- The quantity and sources of a row join those of a group. -/
def Equipment.join (g r : Equipment) : Equipment :=
  { g with
    quantity := g.quantity + r.quantity
    sources := g.sources ++ r.sources }

section Rows

variable (env : Env)
variable (allowZero : Bool)

/- The required fields that are blank. -/
def missingFields (sheet : Sheet) (row : Row) : List Text :=
  (row.filter (fun p => p.2 = [] ∧
    ¬ (sheet = .opticalCords ∧ p.1 = colorHeader))).map Prod.fst

/- The body of the `try` statement for one row. -/
inductive RowOutcome where
| fine (quantity : Int) (item : Equipment)
| early (failure : RowFailure)
| late (quantity : Int) (failure : RowFailure)
| blank (quantity : Int) (missing : List Text)

def rowOutcome
    (sheet : Sheet)
    (row : Row)
    (cells : Cells)
    (source : Text) : RowOutcome :=
  match (row.at quantityHeader).bind
      (quantityInteger env.unicode allowZero) with
  | .error failure => .early failure
  | .ok quantity =>
      if cells.any (fun p =>
          sheet.headers.length < p.1 || p.1 == 0) then
        .late quantity (.value
          "unmapped nonempty columns".toList)
      else if missingFields sheet row ≠ [] then
        .blank quantity (missingFields sheet row)
      else
        match normalizeRow env.unicode env.sha256 allowZero
            sheet row source with
        | .error failure => .late quantity failure
        | .ok item => .fine quantity item

/-
  How reading a row or a sheet ends: it goes on, the workbook
  is invalid, or an exception leaves the reader.
-/
inductive Outcome where
| next
| invalid (failure : Failure)
| crash
deriving DecidableEq, Repr

/- A `KeyError` is caught outside, an `Overflow` is not. -/
def raised (s : Reading) (source : Text) :
    RowFailure → Reading × Outcome
| .value message =>
    (s.report [.row source (.value message)], .next)
| .invalidOperation =>
    (s.report [.row source .invalidOperation], .next)
| .key name => (s, .invalid (.key name))
| .overflow => (s, .crash)

def readDataRow
    (sheet : Sheet)
    (s : Reading)
    (numberedRow : Int × Cells) : Reading × Outcome :=
  let (number, cells) := numberedRow
  let source := sourceOf sheet number
  let s := { s with rawRows := s.rawRows + 1 }
  let counted (quantity : Int) : Reading :=
    { s with sourceQuantity := s.sourceQuantity + quantity }
  match rowOutcome env allowZero sheet (rowOf sheet cells)
      cells source with
  | .early failure => raised s source failure
  | .late quantity failure =>
      raised (counted quantity) source failure
  | .blank quantity missing =>
      ((counted quantity).report [.blankFields source missing],
        .next)
  | .fine quantity item =>
      ({ counted quantity with
        grouped := Grouping.add Equipment.signature
          Equipment.join s.grouped item }, .next)

/- One step after the other, up to one that does not go on. -/
def readAll {α : Type}
    (step : Reading → α → Reading × Outcome) :
    Reading → List α → Reading × Outcome
| s, [] => (s, .next)
| s, x :: xs =>
    match step s x with
    | (s, .next) => readAll step s xs
    | (s, outcome) => (s, outcome)

/- The rows of a sheet, the first of which is its header. -/
def readTable
    (sheet : Sheet)
    (s : Reading)
    (rows : List (Int × Cells)) : Reading × Outcome :=
  let header := completeHeader sheet (headerOf rows)
  let s := s.warn sheet (headerOf rows)
  if sameCells header (expectedHeader sheet.headers) = false then
    (s.report [.headersDiffer sheet.name sheet.headers header],
      .next)
  else
    readAll (readDataRow env allowZero sheet) s rows.tail

------------------------------------------------------------
-- Sheets
------------------------------------------------------------

/- The root of the member that a sheet refers to. -/
def sheetRoot
    (content : Content)
    (sheet : Element) : Except Failure Element := do
  let relation ← attr sheet relationAttribute
  match Table.find Prod.fst relation content.relationships with
  | none => .error (.key relation)
  | some (_, target) => content.root (memberOf target)

/- The row elements of a worksheet. -/
def rowElements (root : Element) : List Element :=
  (root.findall (qualified "sheetData")).flatMap
    (fun e => e.findall (qualified "row"))

def readSheet
    (content : Content)
    (s : Reading)
    (element : Element) : Reading × Outcome :=
  match attr element "name".toList with
  | .error failure => (s, .invalid failure)
  | .ok name =>
      let s := { s with sheets := s.sheets ++ [name] }
      match sheetOf name with
      | none => (s.report [.unknownWorksheet name], .next)
      | some sheet =>
          match sheetRoot content element with
          | .error failure => (s, .invalid failure)
          | .ok root =>
              match readRows env.unicode content.strings name
                  (rowElements root) with
              | (problems, .error failure) =>
                  (s.report problems, .invalid failure)
              | (problems, .ok rows) =>
                  readTable env allowZero sheet
                    (s.report problems) rows

/- `sorted(set(SHEETS) - set(result.sheets))` -/
def missingSheets (found : List Text) : List Text :=
  ((sheets.map Sheet.name).filter (· ∉ found)).insertionSort
    (fun a b => Text.le a b = true)

/- By the category, and by the signature in a category. -/
def inOrder (x y : Equipment) : Bool :=
  if x.category = y.category then Text.le x.signature y.signature
  else Text.le x.category y.category

def Reading.finish (s : Reading) : Validation where
  sheets := s.sheets
  rawRows := s.rawRows
  sourceQuantity := s.sourceQuantity
  items := s.grouped.insertionSort (fun x y => inOrder x y = true)
  errors := s.errors
  warnings := s.warnings

def readContent
    (content : Content) : Option Validation :=
  match readAll (readSheet env allowZero content)
      Reading.start content.sheets with
  | (s, .next) =>
      some (s.report ((missingSheets s.sheets).map
        Problem.missingWorksheet)).finish
  | (s, .invalid failure) =>
      some (s.report [.invalidWorkbook failure]).finish
  | (_, .crash) => none

/- Nothing is returned if an exception leaves the reader. -/
def readWorkbook
    (source : Option SourceFile) : Option Validation :=
  match source with
  | none =>
      some (Reading.start.report [.sourceFileMissing]).finish
  | some file =>
      match openContent file with
      | .error failure =>
          some (Reading.start.report
            [.invalidWorkbook failure]).finish
      | .ok content => readContent env allowZero content

end Rows

end Bootstrap
