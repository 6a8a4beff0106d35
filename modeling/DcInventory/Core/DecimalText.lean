import DcInventory.Core.Unicode
import DcInventory.Library.Decimals

/-
  This file defines how decimals are read from texts and
  written as texts.

  Key definitions include:
    * `PyDecimal`
    * `decimalOfText`
    * `Decimal.str`
    * `Decimal.rounded`
-/

/- A decimal of the application's runtime. -/
inductive PyDecimal where
| finite (d : Decimal)
| special
deriving DecidableEq, Repr

------------------------------------------------------------
-- Reading
------------------------------------------------------------

/-
  The ASCII text of a number: underscores are dropped,
  decimal digits of any script are replaced.
-/
def numericAsAscii (U : Unicode) : Text → Option Text
| [] => some []
| c :: cs =>
    if c = '_' then numericAsAscii U cs
    else if 0 < c.toNat ∧ c.toNat ≤ 127 then
      (numericAsAscii U cs).map (c :: ·)
    else if Text.isSpace c then
      (numericAsAscii U cs).map (' ' :: ·)
    else
      match U.digit c with
      | none => none
      | some d =>
          (numericAsAscii U cs).map (Nat.digitChar d :: ·)

/- Whether the text is `inf`, `infinity` or a NaN. -/
def isSpecialText (v : Text) : Bool :=
  let lower := v.map Char.toLower
  lower = "inf".toList || lower = "infinity".toList ||
    ("nan".toList.isPrefixOf lower &&
      (lower.drop 3).all Char.isDigit) ||
    ("snan".toList.isPrefixOf lower &&
      (lower.drop 4).all Char.isDigit)

/- A sign and the text after it. -/
def readSign : Text → Bool × Text
| '-' :: cs => (true, cs)
| '+' :: cs => (false, cs)
| cs => (false, cs)

/- An exponent, if there is one, up to the end. -/
def readExponent : Text → Option Int
| [] => some 0
| c :: cs =>
    let (negative, digits) := readSign cs
    if (c = 'e' ∨ c = 'E') ∧ digits ≠ [] ∧
        digits.all Char.isDigit then
      some ((if negative then -1 else 1) *
        Nat.ofDigitChars 10 digits 0)
    else none

/- The digits after a point, and the rest. -/
def readFraction : Text → Text × Text
| '.' :: cs => cs.span Char.isDigit
| cs => ([], cs)

def readUnsigned
    (negative : Bool) (v : Text) : Option Decimal :=
  let (whole, rest) := v.span Char.isDigit
  let (fraction, rest) := readFraction rest
  if whole ++ fraction = [] then none
  else (readExponent rest).map (fun exponent =>
    ⟨negative, Nat.ofDigitChars 10 (whole ++ fraction) 0,
      exponent - fraction.length⟩)

/- The largest exponent of a decimal. -/
def maxEmax : Int := 999999999999999999

/- The smallest exponent of a decimal. -/
def minEtiny : Int := -1999999999999999997

/- Decimals that are represented without rounding. -/
def Decimal.representable (d : Decimal) : Bool :=
  decide (minEtiny ≤ d.exponent) &&
    if d.coefficient = 0 then decide (d.exponent ≤ maxEmax)
    else decide (d.exponent + d.digitCount - 1 ≤ maxEmax)

/- `Decimal(value)`, nothing for an invalid operation. -/
def decimalOfText
    (U : Unicode) (value : Text) : Option PyDecimal :=
  match numericAsAscii U (Text.strip value) with
  | none => none
  | some text =>
      let (negative, v) := readSign text
      if isSpecialText v then some .special
      else
        match readUnsigned negative v with
        | none => none
        | some d =>
            if d.representable then some (.finite d) else none

example :
    decimalOfText .ascii " -1_0.50e+3\n".toList =
      some (.finite ⟨true, 1050, 1⟩) := by
  decide +kernel

------------------------------------------------------------
-- Writing
------------------------------------------------------------

namespace Decimal

/- The text of an exponent. -/
def exponentText (n : Int) : Text :=
  'E' :: (if n < 0 then '-' else '+') ::
    Nat.toDigits 10 n.natAbs

/- The text with one digit before the point. -/
def scientificText (digits : Text) : Text :=
  match digits with
  | [] => []
  | [d] => [d]
  | d :: ds => d :: '.' :: ds

/- `str(value)` -/
def str (d : Decimal) : Text :=
  let digits := Nat.toDigits 10 d.coefficient
  let left := d.exponent + digits.length
  signText d.negative ++
    if d.exponent ≤ 0 ∧ -6 < left then
      if d.exponent = 0 then digits
      else pointText d.coefficient (-d.exponent).toNat
    else scientificText digits ++ exponentText (left - 1)

------------------------------------------------------------
-- Rounding
------------------------------------------------------------

/- `m / 10 ^ k`, rounded half to even. -/
def roundHalfEven (m k : Nat) : Nat :=
  let q := m / 10 ^ k
  let r := m % 10 ^ k
  if 2 * r < 10 ^ k ∨ (2 * r = 10 ^ k ∧ q % 2 = 0) then q
  else q + 1

/- The number with at most `precision` digits. -/
def rounded (precision : Nat) (d : Decimal) : Decimal :=
  let excess := d.digitCount - precision
  { d with
    coefficient := roundHalfEven d.coefficient excess
    exponent := d.exponent + excess }

end Decimal
