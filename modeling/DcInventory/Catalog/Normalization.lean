import DcInventory.Core.DecimalText
import DcInventory.Core.Whitespace
import DcInventory.Library.Json
import Mathlib.Data.List.Sort

/-
  This file defines the technical identity of an item: the
  normal forms of texts and distances, and the signature.

  Key definitions include:
    * `identityText`
    * `normalizeReach`
    * `AttributeValue`
    * `itemSignature`
-/

------------------------------------------------------------
-- Texts
------------------------------------------------------------

namespace Text

/- The characters at which `str.splitlines` ends a line. -/
def isLineBreak (c : Char) : Bool :=
  let n := c.toNat
  (10 ≤ n && n ≤ 13) || (28 ≤ n && n ≤ 30) || n == 0x85 ||
    n == 0x2028 || n == 0x2029

/- `splitlines`, with the line read so far in reverse. -/
def splitlinesFrom (line : Text) : Text → List Text
| [] => if line = [] then [] else [line.reverse]
| '\r' :: '\n' :: cs => line.reverse :: splitlinesFrom [] cs
| c :: cs =>
    if isLineBreak c then line.reverse :: splitlinesFrom [] cs
    else splitlinesFrom (c :: line) cs

/- `value.splitlines()` -/
def splitlines (value : Text) : List Text :=
  splitlinesFrom [] value

end Text

def cleanText (value : Text) : Text :=
  Words.join '\n'
    ((Text.splitlines (Text.strip value)).map Text.normalize)

def identityText (U : Unicode) (value : Text) : Text :=
  U.casefold (Text.normalize (U.nfkc value))

------------------------------------------------------------
-- Distances
------------------------------------------------------------

/- A distance: its digits, and whether it is in kilometres. -/
structure Distance where
  whole : Text
  fraction : Text
  kilometres : Bool
deriving DecidableEq, Repr

section Reading

variable (U : Unicode)

/- `\d` -/
def Unicode.isDigit (c : Char) : Bool :=
  (U.digit c).isSome

/- `\b` before `next`, after `prev`. -/
def Unicode.isBoundary (prev next : Option Char) : Bool :=
  prev.any U.word != next.any U.word

/- The digits after a point or a comma, if there are any. -/
def readDistanceFraction : Text → Text × Text
| [] => ([], [])
| c :: cs =>
    let (digits, rest) := cs.span U.isDigit
    if (c = '.' ∨ c = ',') ∧ digits ≠ [] then (digits, rest)
    else ([], c :: cs)

/- The unit of a distance, kilometres or metres. -/
def readDistanceUnit : Text → Option (Bool × Text)
| 'к' :: 'м' :: cs =>
    if U.isBoundary (some 'м') cs.head? then some (true, cs)
    else none
| 'м' :: cs =>
    if U.isBoundary (some 'м') cs.head? then some (false, cs)
    else none
| _ => none

/- `(\d+(?:[.,]\d+)?)\s*(км|м)\b` at the beginning. -/
def readDistance (v : Text) : Option (Distance × Text) :=
  let (whole, rest) := v.span U.isDigit
  let (fraction, rest) := readDistanceFraction U rest
  if whole = [] then none
  else
    match readDistanceUnit U (rest.dropWhile Text.isSpace) with
    | none => none
    | some (kilometres, rest) =>
        some (⟨whole, fraction, kilometres⟩, rest)

/- The distances of a text, and the text without them. -/
def scanDistancesFrom :
    Nat → Text → List Distance × Text
| 0, v => ([], v)
| _ + 1, [] => ([], [])
| fuel + 1, c :: cs =>
    match readDistance U (c :: cs) with
    | some (distance, rest) =>
        let (found, remainder) := scanDistancesFrom fuel rest
        (distance :: found, remainder)
    | none =>
        let (found, remainder) := scanDistancesFrom fuel cs
        (found, c :: remainder)

def scanDistances (v : Text) : List Distance × Text :=
  scanDistancesFrom U v.length v

/- The words that may stand beside distances. -/
def reachQualifiers : List Text :=
  ["om1".toList, "om2".toList, "om3".toList, "om4".toList,
    "om5".toList, "mmf".toList, "smf".toList,
    "rs-fec".toList, "до".toList, "без".toList, "с".toList,
    "по".toList]

/- A qualifier at the beginning, up to the end of a word. -/
def readQualifier (v : Text) : Option (Text × Text) :=
  (reachQualifiers.find? (fun q =>
    q.isPrefixOf v &&
      U.isBoundary q.getLast? (v.drop q.length).head?)).map
    (fun q => (q, v.drop q.length))

/- The text without qualifiers, after the character `prev`. -/
def removeQualifiersFrom :
    Nat → Option Char → Text → Text
| 0, _, v => v
| _ + 1, _, [] => []
| fuel + 1, prev, c :: cs =>
    match
      if U.isBoundary prev (some c) then
        readQualifier U (c :: cs)
      else none
    with
    | some (q, rest) =>
        removeQualifiersFrom fuel q.getLast? rest
    | none => c :: removeQualifiersFrom fuel (some c) cs

def removeQualifiers (v : Text) : Text :=
  removeQualifiersFrom U v.length none v

/- `[\s:/;(),—–-]` -/
def isReachPunctuation (c : Char) : Bool :=
  Text.isSpace c || c ∈ ":/;(),—–-".toList

/- `ValueError` and `decimal.Overflow`. -/
inductive ReachError where
| value (message : Text)
| overflow
deriving DecidableEq, Repr

/- The number that the digits of a distance stand for. -/
def Distance.number (distance : Distance) : Decimal :=
  let digits := (distance.whole ++ distance.fraction).map
    (fun c => (U.digit c).getD 0)
  ⟨false, digits.foldl (fun n d => 10 * n + d) 0,
    -(distance.fraction.length : Int)⟩

/- A distance in metres, in the precision of the context. -/
def Distance.metres
    (distance : Distance) : Except ReachError ℚ :=
  let number := distance.number U
  let factor := if distance.kilometres then 1000 else 1
  let product := { number with
    coefficient := number.coefficient * factor }.rounded 28
  if product.coefficient ≠ 0 ∧
      (999999 : Int) <
        product.exponent + product.digitCount - 1 then
    .error .overflow
  else .ok product.value

/-
  The largest distance of a text that consists of distances,
  qualifiers and punctuation.
-/
def reachOf (text : Text) : Except ReachError Int := do
  let (found, remainder) := scanDistances U text
  if found = [] then
    .error (.value "reach contains no supported distance".toList)
  else if !(removeQualifiers U remainder).all
      isReachPunctuation then
    .error (.value ("reach contains an unsupported or " ++
      "ambiguous clause").toList)
  else
    let metres ← found.mapM (Distance.metres U)
    if metres.any (fun v => v ≤ 0 || v.den != 1) then
      .error (.value
        "reach must resolve to positive integer metres".toList)
    else .ok (metres.foldl max 0).num

def normalizeReach (value : Text) : Except ReachError Int :=
  reachOf U (U.casefold (cleanText value))

end Reading

example :
    (normalizeReach .ascii
      " 0,55 км (OM4) / 2\n м".toList).toOption =
      some 550 := by
  decide +kernel

------------------------------------------------------------
-- Signatures
------------------------------------------------------------

/- The value of an attribute: `str | int | Decimal | bool`. -/
inductive AttributeValue where
| text (value : Text)
| integer (value : Int)
| decimal (value : Decimal)
| boolean (value : Bool)
deriving DecidableEq, Repr

/- The keys in the order of their code points. -/
def sortKeys {α : Type} (fields : List (Text × α)) :
    List (Text × α) :=
  fields.insertionSort (fun a b => Text.le a.1 b.1 = true)

/- What stands for a value in the signature. -/
def identityValue (U : Unicode) : AttributeValue → Json
| .text value => .str (identityText U value)
| .integer value => .int value
| .decimal value => .str value.canonical
| .boolean value => .bool value

/-
  `sha256` stands for the hexadecimal digest of the UTF-8
  text.
-/
def itemSignature
    (U : Unicode)
    (sha256 : Text → Text)
    (categoryKey : Text)
    (manufacturer model : Option Text)
    (attributes : List (Text × AttributeValue)) : Text :=
  let normalized := (attributes.filter (fun field =>
    field.2 ≠ .text [])).map (fun field =>
      (field.1, identityValue U field.2))
  sha256 (Json.dumps (.ofItems [.str categoryKey,
    .str (identityText U (manufacturer.getD [])),
    .str (identityText U (model.getD [])),
    .ofFields (sortKeys normalized)]))
