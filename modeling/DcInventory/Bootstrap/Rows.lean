import DcInventory.Catalog.Configuration
import DcInventory.Library.Regex

/-
  This file defines how a row of the workbook is turned into
  a piece of equipment: the layout of its worksheet, its
  attributes, its quantity and its signature.

  Key definitions include:
    * `Bootstrap.Sheet`
    * `Bootstrap.Equipment`
    * `Bootstrap.quantityInteger`
    * `Bootstrap.normalizeRow`
-/

namespace Bootstrap

------------------------------------------------------------
-- Worksheets
------------------------------------------------------------

inductive Sheet where
| transceivers
| controllers
| networkCards
| drives
| opticalCords
| memory
| powerCables
| splitters
| ethernetCords
deriving DecidableEq, Repr

/- The worksheets in the order of `SHEETS`. -/
def sheets : List Sheet :=
  [.transceivers, .controllers, .networkCards, .drives,
    .opticalCords, .memory, .powerCables, .splitters,
    .ethernetCords]

def Sheet.name : Sheet → Text
| .transceivers => "SFP модули".toList
| .controllers => "Контроллеры и PCIe-адаптеры".toList
| .networkCards => "Сетевые карты".toList
| .drives => "SSD  Накопители".toList
| .opticalCords => "Оптические патч-корды".toList
| .memory => "Оперативная память (RAM)".toList
| .powerCables => "Кабели питания".toList
| .splitters => "Оптические сплиттеры  делители".toList
| .ethernetCords => "Ethernet патч-корды".toList

def sheetOf (name : Text) : Option Sheet :=
  Table.find Sheet.name name sheets

def manufacturerHeader : Text := "Производитель".toList

def modelHeader : Text := "Модель".toList

def quantityHeader : Text := "Количество".toList

def colorHeader : Text := "Цвет".toList

/- `SHEETS[sheet]` -/
def Sheet.headers : Sheet → List Text
| .transceivers =>
    [manufacturerHeader, modelHeader, "Скорость".toList,
      "Длина волны".toList, "Дальность".toList,
      "Форм-фактор".toList, "Волокно".toList,
      "Разъём".toList, quantityHeader]
| .controllers =>
    [manufacturerHeader, modelHeader, "Интерфейс".toList,
      "Порты".toList, "Назначение".toList,
      "Особенности".toList, quantityHeader]
| .networkCards =>
    [manufacturerHeader, modelHeader, "Интерфейс".toList,
      "Порты".toList, "Скорость".toList,
      "Тип портов".toList, "Назначение".toList,
      quantityHeader]
| .drives =>
    [manufacturerHeader, modelHeader, "Форм-фактор".toList,
      "Интерфейс".toList, "Объём".toList,
      "Скорость интерфейса".toList,
      "Скорость вращения".toList, "Тип".toList,
      quantityHeader]
| .opticalCords =>
    ["Тип волокна".toList, "Категория".toList,
      "Разъём A".toList, "Разъём B".toList, "Длина".toList,
      "Исполнение".toList, quantityHeader, colorHeader]
| .memory =>
    [manufacturerHeader, modelHeader, "Объём".toList,
      "Тип".toList, "Скорость".toList,
      "Организация".toList, "ECC".toList, quantityHeader]
| .powerCables =>
    ["Тип".toList, "Разъём A".toList, "Разъём B".toList,
      "Длина".toList, "Номинал".toList, colorHeader,
      quantityHeader]
| .splitters =>
    ["Тип".toList, "Конфигурация".toList, "Волокно".toList,
      "Рабочие длины волн".toList, "Разъёмы".toList,
      "Деление".toList, "Исполнение".toList, quantityHeader]
| .ethernetCords =>
    ["Категория".toList, "Разъём A".toList,
      "Разъём B".toList, "Длина".toList,
      "Экранирование".toList, colorHeader, quantityHeader]

theorem headers_nodup (sheet : Sheet) :
    sheet.headers.Nodup := by
  cases sheet <;> decide

theorem sheets_names_nodup :
    (sheets.map Sheet.name).Nodup := by
  decide

------------------------------------------------------------
-- Values
------------------------------------------------------------

structure Equipment where
  category : Text
  manufacturer : Option Text
  model : Option Text
  attributes : List (Text × AttributeValue)
  quantity : Int
  signature : Text
  sources : List Text
deriving DecidableEq, Repr

/-
  `ValueError` with its text, `KeyError` with the key,
  `InvalidOperation` and `Overflow`.
-/
inductive RowFailure where
| value (message : Text)
| key (name : Text)
| invalidOperation
| overflow
deriving DecidableEq, Repr

def valueError {α : Type} (message : String) :
    Except RowFailure α :=
  .error (.value message.toList)

/- `row: dict[str, str]` -/
abbrev Row := List (Text × Text)

def Row.get (row : Row) (header : Text) : Option Text :=
  (Table.find Prod.fst header row).map Prod.snd

/- `row[header]` -/
def Row.at (row : Row) (header : Text) :
    Except RowFailure Text :=
  match row.get header with
  | some value => .ok value
  | none => .error (.key header)

section Reading

variable (U : Unicode)

/-
  An integer between two bounds, however it is written;
  nothing if it is none of them.
-/
def integerWithin
    (lower : Int)
    (number : PyDecimal) : Option Int :=
  match number with
  | .special => none
  | .finite d =>
      if d.value.den = 1 ∧ (lower : ℚ) ≤ d.value ∧
          d.value ≤ 2 ^ 53 - 1 then
        some d.value.num
      else none

/- `Decimal(value)` -/
def readDecimal (value : Text) : Except RowFailure PyDecimal :=
  match decimalOfText U value with
  | some number => .ok number
  | none => .error .invalidOperation

def positiveInteger (value : Text) : Except RowFailure Int := do
  let number ← readDecimal U value
  match integerWithin 1 number with
  | some n => .ok n
  | none =>
      valueError ("value must be a positive integer within " ++
        "the supported range")

def quantityInteger
    (allowZero : Bool)
    (value : Text) : Except RowFailure Int := do
  let number ← readDecimal U value
  match integerWithin (if allowZero then 0 else 1) number with
  | some n => .ok n
  | none =>
      let qualifier :=
        if allowZero then "non-negative" else "positive"
      valueError ("quantity must be a " ++ qualifier ++
        " integer within the supported range")

------------------------------------------------------------
-- Patterns
------------------------------------------------------------

/- `\d` -/
def digitSign : Regex Char := .sign U.isDigit

/- `\s*` -/
def spaces : Regex Char := .many (.sign Text.isSpace)

def wordPattern (v : String) : Regex Char :=
  Regex.word v.toList

/- `[...]` -/
def signOf (v : String) : Regex Char :=
  .sign (fun c => v.toList.contains c)

/- `\d+(?:[.,]\d+)?` -/
def numberPattern : Regex Char :=
  .seq (Regex.some (digitSign U))
    (Regex.opt (.seq (signOf ".,")
      (Regex.some (digitSign U))))

/- `[\d,./]+\s*(?:Гбит/с|Мбит/с|G FC)` -/
def speedPattern : Regex Char :=
  .seq (Regex.some (.either (digitSign U) (signOf ",./")))
    (.seq spaces (Regex.oneOf [wordPattern "Гбит/с",
      wordPattern "Мбит/с", wordPattern "G FC"]))

/- `(?:2[.,]5|3[.,]5)\s*[″\"]?|M\.2|U\.[23]` -/
def formFactorPattern : Regex Char :=
  let inches (v : String) : Regex Char :=
    .seq (wordPattern v) (.seq (signOf ".,") (wordPattern "5"))
  Regex.oneOf [
    .seq (.either (inches "2") (inches "3"))
      (.seq spaces (Regex.opt (signOf "″\""))),
    wordPattern "M.2",
    .seq (wordPattern "U.") (signOf "23")]

/- `(?:SATA|SAS|NVMe)` -/
def interfacePattern : Regex Char :=
  Regex.oneOf [wordPattern "SATA", wordPattern "SAS",
    wordPattern "NVMe"]

/- A number and one of some units. -/
def measurePattern (units : List String) : Regex Char :=
  .seq (numberPattern U)
    (.seq spaces (Regex.oneOf (units.map wordPattern)))

/- `\d+(?:[.,]\d+)?\s*(?:ГБ|ТБ)` -/
def capacityPattern : Regex Char := measurePattern U ["ГБ", "ТБ"]

/- `\d+(?:[.,]\d+)?\s*Гбит/с` -/
def interfaceSpeedPattern : Regex Char :=
  measurePattern U ["Гбит/с"]

/- `(\d+(?:[.,]\d+)?)\s*м` -/
def lengthPattern : Regex Char := measurePattern U ["м"]

/- `[\d ]+\s*RPM` -/
def rotationPattern : Regex Char :=
  .seq (Regex.some (.either (digitSign U) (signOf " ")))
    (.seq spaces (wordPattern "RPM"))

/- `([\d ]+) RPM` -/
def rpmPattern : Regex Char :=
  .seq (Regex.some (.either (digitSign U) (signOf " ")))
    (wordPattern " RPM")

------------------------------------------------------------
-- Layouts
------------------------------------------------------------

/- Which attributes the columns of a row stand for. -/
structure Layout where
  category : Text
  keys : List Text
  headers : List Text
deriving DecidableEq, Repr

def texts (names : List String) : List Text :=
  names.map String.toList

/- The headers that stand for attributes. -/
def Sheet.attributeHeaders (sheet : Sheet) : List Text :=
  sheet.headers.filter (fun h => h ≠ manufacturerHeader ∧
    h ≠ modelHeader ∧ h ≠ quantityHeader)

/- A sheet whose attributes are those of a leaf. -/
def leafLayout (sheet : Sheet) (category : String) : Layout :=
  let keys := match Table.find Prod.fst category.toList
      Catalog.leafAttributes with
    | some (_, _, attributes) =>
        attributes.map Catalog.Attribute.key
    | none => []
  ⟨category.toList, keys, sheet.attributeHeaders⟩

def transceiverLayout (row : Row) :
    Except RowFailure Layout := do
  let speed ← row.at "Скорость".toList
  if (speedPattern U).fullmatch speed = false then
    valueError "unsupported transceiver speed/protocol"
  else
    let fc := "G FC".toList.isSuffixOf speed
    .ok ⟨(if fc then "transceiver_fc"
        else "transceiver_ethernet").toList,
      texts ["speed", "wavelength", "reach", "form_factor",
        "fiber", "connector"],
      Sheet.transceivers.attributeHeaders⟩

def networkLayout (row : Row) : Except RowFailure Layout := do
  let application ← row.at "Назначение".toList
  let keys := texts ["interface", "ports", "speed",
    "port_type", "application"]
  let headers := Sheet.networkCards.attributeHeaders
  if "Fibre Channel HBA".toList.isPrefixOf application then
    .ok ⟨"network_fc".toList, keys, headers⟩
  else if application = "Ethernet NIC".toList then
    .ok ⟨"network_ethernet".toList, keys, headers⟩
  else valueError "unknown network adapter category"

/- A cell of a drive that must match a pattern. -/
def checkDrive
    (row : Row)
    (header : String)
    (pattern : Regex Char)
    (message : String) : Except RowFailure Unit := do
  let value ← row.at header.toList
  if pattern.fullmatch value then .ok ()
  else valueError message

def driveLayout (row : Row) : Except RowFailure Layout := do
  let type ← row.at "Тип".toList
  if type ≠ "Enterprise SSD".toList ∧
      type ≠ "Enterprise HDD".toList then
    valueError "unknown drive type"
  else
    checkDrive row "Форм-фактор" formFactorPattern
      "unsupported drive form factor"
    checkDrive row "Интерфейс" interfacePattern
      "unsupported drive interface"
    checkDrive row "Объём" (capacityPattern U)
      "unsupported drive capacity"
    checkDrive row "Скорость интерфейса"
      (interfaceSpeedPattern U)
      "unsupported drive interface speed"
    let rotation ← row.at "Скорость вращения".toList
    if type = "Enterprise SSD".toList then
      if rotation ∉ texts ["—", "-", "–"] then
        valueError "SSD rotation speed must be empty marker"
      else
        .ok ⟨"ssd".toList,
          texts ["form_factor", "interface", "capacity",
            "interface_speed", "type"],
          texts ["Форм-фактор", "Интерфейс", "Объём",
            "Скорость интерфейса", "Тип"]⟩
    else if (rotationPattern U).fullmatch rotation = false then
      valueError "HDD speed must be RPM"
    else
      .ok ⟨"hdd".toList,
        texts ["form_factor", "interface", "capacity",
          "interface_speed", "rpm", "type"],
        texts ["Форм-фактор", "Интерфейс", "Объём",
          "Скорость интерфейса", "Скорость вращения", "Тип"]⟩

def layoutOf (sheet : Sheet) (row : Row) :
    Except RowFailure Layout :=
  match sheet with
  | .transceivers => transceiverLayout U row
  | .networkCards => networkLayout row
  | .drives => driveLayout U row
  | .ethernetCords =>
      .ok ⟨"ethernet_patch_cord".toList,
        texts ["cable_category", "connector_a", "connector_b",
          "length_m", "shielding", "color"],
        sheet.attributeHeaders⟩
  | .controllers => .ok (leafLayout sheet "pcie_adapter")
  | .opticalCords => .ok (leafLayout sheet "optical_patch_cord")
  | .memory => .ok (leafLayout sheet "ram")
  | .powerCables => .ok (leafLayout sheet "power_cable")
  | .splitters => .ok (leafLayout sheet "optical_splitter")

------------------------------------------------------------
-- Attributes
------------------------------------------------------------

/- `match[1]`, with a point for the comma. -/
def lengthNumber (value : Text) : Text :=
  (value.takeWhile (fun c => U.isDigit c || c == '.' ||
    c == ',')).map (fun c => if c = ',' then '.' else c)

def readLength (value : Text) :
    Except RowFailure AttributeValue := do
  if (lengthPattern U).fullmatch value = false then
    valueError "unsupported cable length"
  else
    match ← readDecimal U (lengthNumber U value) with
    | .special => .error .invalidOperation
    | .finite length =>
        if length.value ≤ 0 then
          valueError "cable length must be positive"
        else .ok (.decimal length)

/- `match[1].replace(" ", "")` -/
def rpmNumber (value : Text) : Text :=
  (value.take (value.length - 4)).filter (· ≠ ' ')

def readRpm (value : Text) :
    Except RowFailure AttributeValue := do
  if (rpmPattern U).fullmatch value = false then
    valueError "HDD speed must be RPM"
  else
    let n ← positiveInteger U (rpmNumber value)
    .ok (.integer n)

def readEcc (value : Text) : Except RowFailure AttributeValue :=
  if value = "Да".toList then .ok (.boolean true)
  else if value = "Нет".toList then .ok (.boolean false)
  else valueError "ECC must be Да or Нет"

def readAttribute
    (category key value : Text) :
    Except RowFailure AttributeValue :=
  if key = "length_m".toList then readLength U value
  else if key = "ports".toList ∧
      "network_".toList.isPrefixOf category then do
    let n ← positiveInteger U value
    .ok (.integer n)
  else if key = "rpm".toList then readRpm U value
  else if key = "ecc".toList then readEcc value
  else .ok (.text value)

/- The columns one after the other; a color may be left out. -/
def readAttributes
    (category : Text)
    (row : Row) :
    List (Text × Text) →
      Except RowFailure (List (Text × AttributeValue))
| [] => .ok []
| (key, header) :: rest =>
    let value := (row.get header).getD []
    if value = [] ∧ key = "color".toList ∧
        category = "optical_patch_cord".toList then
      readAttributes category row rest
    else do
      let first ← readAttribute U category key value
      let attributes ← readAttributes category row rest
      .ok ((key, first) :: attributes)

/- `str(attributes["reach"])` -/
def reachText (attributes : List (Text × AttributeValue)) :
    Except RowFailure Text :=
  match Table.find Prod.fst "reach".toList attributes with
  | some (_, .text value) => .ok value
  | _ => .error (.key "reach".toList)

def reachFailure : ReachError → RowFailure
| .value message => .value message
| .overflow => .overflow

/- Transceivers have their distance in metres as well. -/
def withReach
    (category : Text)
    (attributes : List (Text × AttributeValue)) :
    Except RowFailure (List (Text × AttributeValue)) :=
  if "transceiver_".toList.isPrefixOf category then do
    let reach ← reachText attributes
    let metres ← (normalizeReach U reach).mapError reachFailure
    .ok (Table.put Prod.fst
      ("reach_m".toList, .integer metres) attributes)
  else .ok attributes

def normalizeRow
    (sha256 : Text → Text)
    (allowZero : Bool)
    (sheet : Sheet)
    (row : Row)
    (source : Text) : Except RowFailure Equipment := do
  let layout ← layoutOf U sheet row
  let read ← readAttributes U layout.category row
    (layout.keys.zip layout.headers)
  let attributes ← withReach U layout.category read
  let cell ← row.at quantityHeader
  let quantity ← quantityInteger U allowZero cell
  let manufacturer := row.get manufacturerHeader
  let model := row.get modelHeader
  .ok ⟨layout.category, manufacturer, model, attributes,
    quantity, itemSignature U sha256 layout.category
      manufacturer model attributes, [source]⟩

end Reading

end Bootstrap
