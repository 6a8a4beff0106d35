import DcInventory.Core.Text
import DcInventory.Library.Decimals

/-
  This file defines dates with times, at a fixed distance from
  UTC or without one: their ISO text, the instant they name,
  and how a date is replaced. What reads such texts is a
  parameter, of which only is known that it reads back what
  was written.

  Key definitions include:
    * `Datetime`
    * `Datetime.isoformat`
    * `Datetime.instant`
    * `Datetime.replaceDate`
    * `IsoReader`
    * `readIsoformat`

  Key theorems include:
    * `readIsoformat_isoformat`
-/

------------------------------------------------------------
-- Dates
------------------------------------------------------------

def isLeap (year : Nat) : Bool :=
  year % 4 = 0 && (year % 100 ≠ 0 || year % 400 = 0)

/- `calendar.monthrange(year, month)[1]` -/
def monthrange (year month : Nat) : Nat :=
  if month = 2 then if isLeap year then 29 else 28
  else if month ∈ [4, 6, 9, 11] then 30
  else 31

/- The days of the first months. -/
def daysOfMonths (year : Nat) : Nat → Nat
| 0 => 0
| m + 1 => daysOfMonths year m + monthrange year (m + 1)

/- The number of a day. -/
def toordinal (year month day : Nat) : Nat :=
  let years := year - 1
  years * 365 + years / 4 - years / 100 + years / 400 +
    daysOfMonths year (month - 1) + day

/- Microseconds. -/
def microsecondsOf (days hours minutes seconds : Int) : Int :=
  (((days * 24 + hours) * 60 + minutes) * 60 + seconds) *
    1000000

/- What the parts of a date with a time can be. -/
structure Datetime.InRange
    (year month day hour minute second microsecond : Nat)
    (offset : Option Int) : Prop where
  hYear : 1 ≤ year ∧ year ≤ 9999
  hMonth : 1 ≤ month ∧ month ≤ 12
  hDay : 1 ≤ day ∧ day ≤ monthrange year month
  hHour : hour < 24
  hMinute : minute < 60
  hSecond : second < 60
  hMicrosecond : microsecond < 1000000
  hOffset : ∀ o ∈ offset, o.natAbs < 86400000000

/-
  A date with a time. The offset from UTC is counted in
  microseconds; without one it is no instant.
-/
structure Datetime where
  year : Nat
  month : Nat
  day : Nat
  hour : Nat
  minute : Nat
  second : Nat
  microsecond : Nat
  offset : Option Int
  inRange : Datetime.InRange year month day hour minute
    second microsecond offset

namespace Datetime

instance
    (year month day hour minute second microsecond : Nat)
    (offset : Option Int) :
    Decidable (InRange year month day hour minute second
      microsecond offset) :=
  decidable_of_iff
    ((1 ≤ year ∧ year ≤ 9999) ∧ (1 ≤ month ∧ month ≤ 12) ∧
      (1 ≤ day ∧ day ≤ monthrange year month) ∧ hour < 24 ∧
      minute < 60 ∧ second < 60 ∧ microsecond < 1000000 ∧
      ∀ o ∈ offset, o.natAbs < 86400000000)
    ⟨fun ⟨a, b, c, d, e, f, g, h⟩ => ⟨a, b, c, d, e, f, g, h⟩,
      fun h => ⟨h.hYear, h.hMonth, h.hDay, h.hHour,
        h.hMinute, h.hSecond, h.hMicrosecond, h.hOffset⟩⟩

def make?
    (year month day hour minute second microsecond : Nat)
    (offset : Option Int) : Option Datetime :=
  if h : InRange year month day hour minute second
      microsecond offset then
    some ⟨year, month, day, hour, minute, second, microsecond,
      offset, h⟩
  else none

/- Microseconds since the epoch. -/
def instant (d : Datetime) : Int :=
  microsecondsOf
    ((toordinal d.year d.month d.day : Int) - 719163)
    d.hour d.minute d.second + d.microsecond -
      d.offset.getD 0

/- `d.replace(year=..., month=..., day=...)` -/
def replaceDate
    (d : Datetime)
    (year month day : Nat) : Option Datetime :=
  make? year month day d.hour d.minute d.second d.microsecond
    d.offset

------------------------------------------------------------
-- Texts
------------------------------------------------------------

/- Microseconds, which are left out if there are none. -/
def fractionText (microsecond : Nat) : Text :=
  if microsecond = 0 then []
  else '.' :: Digits.pad 6 microsecond

/- Seconds of an offset, with their fraction. -/
def secondsText (second microsecond : Nat) : Text :=
  if second = 0 ∧ microsecond = 0 then []
  else ':' :: (Digits.pad 2 second ++ fractionText microsecond)

def offsetText : Option Int → Text
| none => []
| some offset =>
    let span := offset.natAbs
    (if offset < 0 then '-' else '+') ::
      (Digits.pad 2 (span / 3600000000) ++ ':' ::
        (Digits.pad 2 (span / 60000000 % 60) ++
          secondsText (span / 1000000 % 60) (span % 1000000)))

def isoformat (d : Datetime) : Text :=
  Digits.pad 4 d.year ++ '-' ::
  (Digits.pad 2 d.month ++ '-' ::
  (Digits.pad 2 d.day ++ 'T' ::
  (Digits.pad 2 d.hour ++ ':' ::
  (Digits.pad 2 d.minute ++ ':' ::
  (Digits.pad 2 d.second ++
    (fractionText d.microsecond ++ offsetText d.offset))))))

end Datetime

/-
  `datetime.fromisoformat`: whatever other texts it reads, it
  reads the texts of dates.
-/
structure IsoReader where
  read : List Nat → Option Datetime
  reads : ∀ d : Datetime,
    read (d.isoformat.map Char.toNat) = some d

------------------------------------------------------------
-- Reading
------------------------------------------------------------

namespace Iso

/- A number of so many digits, and the rest. -/
def digitsFrom :
    Nat → Nat → List Nat → Option (Nat × List Nat)
| 0, n, v => some (n, v)
| _ + 1, _, [] => none
| k + 1, n, c :: v =>
    if 48 ≤ c ∧ c ≤ 57 then
      digitsFrom k (10 * n + (c - 48)) v
    else none

def sign? (c : Char) : List Nat → Option (List Nat)
| [] => none
| d :: v => if d = c.toNat then some v else none

def fraction? : List Nat → Option (Nat × List Nat)
| 46 :: v => digitsFrom 6 0 v
| v => some (0, v)

/- Seconds with their fraction, or the end. -/
def seconds? : List Nat → Option (Nat × Nat)
| [] => some (0, 0)
| c :: v => do
    let v ← sign? ':' (c :: v)
    let (second, v) ← digitsFrom 2 0 v
    let (microsecond, v) ← fraction? v
    if v = [] then some (second, microsecond) else none

def span? (v : List Nat) : Option Nat := do
  let (hour, v) ← digitsFrom 2 0 v
  let v ← sign? ':' v
  let (minute, v) ← digitsFrom 2 0 v
  let (second, microsecond) ← seconds? v
  some (((hour * 60 + minute) * 60 + second) * 1000000 +
    microsecond)

def offset? : List Nat → Option (Option Int)
| [] => some none
| c :: v =>
    if c = 43 then (span? v).map (fun n => some (Int.ofNat n))
    else if c = 45 then
      (span? v).map (fun n => some (-Int.ofNat n))
    else none

end Iso

open Iso in
/- The texts with every part, and nothing else. -/
def readIsoformat (v : List Nat) : Option Datetime := do
  let (year, v) ← digitsFrom 4 0 v
  let v ← sign? '-' v
  let (month, v) ← digitsFrom 2 0 v
  let v ← sign? '-' v
  let (day, v) ← digitsFrom 2 0 v
  let v ← sign? 'T' v
  let (hour, v) ← digitsFrom 2 0 v
  let v ← sign? ':' v
  let (minute, v) ← digitsFrom 2 0 v
  let v ← sign? ':' v
  let (second, v) ← digitsFrom 2 0 v
  let (microsecond, v) ← fraction? v
  let offset ← offset? v
  Datetime.make? year month day hour minute second microsecond
    offset

namespace Iso

theorem digitsFrom_add
    (k m n : Nat)
    (v : List Nat) :
    digitsFrom (k + m) n v =
      (digitsFrom k n v).bind
        (fun p => digitsFrom m p.1 p.2) := by
  induction k generalizing n v with
  | zero =>
      rw [Nat.zero_add]
      rfl
  | succ k ih =>
      rw [Nat.succ_add]
      cases v with
      | nil => rfl
      | cons c v =>
          rw [digitsFrom, digitsFrom]
          split_ifs with hDigit
          · exact ih _ v
          · rfl

private theorem digitChar_code :
    ∀ n < 10, (Nat.digitChar n).toNat = 48 + n := by
  decide

theorem digitsFrom_pad
    (k n init : Nat)
    (r : List Nat) :
    digitsFrom k init ((Digits.pad k n).map Char.toNat ++ r) =
      some (init * 10 ^ k + n % 10 ^ k, r) := by
  induction k generalizing n init r with
  | zero => simp [digitsFrom, Digits.pad, Nat.mod_one]
  | succ k ih =>
      have hLast := digitChar_code (n % 10)
        (Nat.mod_lt n (by omega))
      have hDigit : n % 10 < 10 := Nat.mod_lt n (by omega)
      have hSplit : n % 10 ^ (k + 1) =
          10 * (n / 10 % 10 ^ k) + n % 10 := by
        rw [Nat.pow_succ, Nat.mul_comm (10 ^ k) 10,
          Nat.mod_mul]
        omega
      rw [digitsFrom_add, Digits.pad, List.map_append,
        List.append_assoc, ih]
      simp only [Option.bind_some, List.map_cons,
        List.map_nil, List.cons_append, List.nil_append,
        digitsFrom, hLast]
      rw [if_pos (by omega), hSplit, Nat.pow_succ]
      congr 2
      rw [← Nat.mul_assoc, Nat.mul_comm (init * 10 ^ k) 10]
      omega

/- A padded number that fits is read as it is. -/
theorem digitsFrom_of_lt
    {k n : Nat}
    (hFits : n < 10 ^ k)
    (r : List Nat) :
    digitsFrom k 0 ((Digits.pad k n).map Char.toNat ++ r) =
      some (n, r) := by
  rw [digitsFrom_pad, Nat.zero_mul, Nat.zero_add,
    Nat.mod_eq_of_lt hFits]

theorem sign_self
    (c : Char)
    (r : List Nat) :
    sign? c (c.toNat :: r) = some r :=
  if_pos rfl

/- What stands behind a fraction begins with no point. -/
theorem fraction_fractionText
    {n : Nat}
    (hFits : n < 1000000)
    {r : List Nat}
    (hNext : r.head? ≠ some 46) :
    fraction? ((Datetime.fractionText n).map Char.toNat ++ r) =
      some (n, r) := by
  unfold Datetime.fractionText
  split_ifs with hZero
  · subst hZero
    rw [List.map_nil, List.nil_append]
    unfold fraction?
    split
    · exact absurd rfl hNext
    · rfl
  · rw [List.map_cons, List.cons_append]
    exact digitsFrom_of_lt hFits r

theorem seconds_secondsText
    {second microsecond : Nat}
    (hSecond : second < 60)
    (hMicrosecond : microsecond < 1000000) :
    seconds? ((Datetime.secondsText second microsecond).map
      Char.toNat) = some (second, microsecond) := by
  unfold Datetime.secondsText
  split_ifs with hZero
  · rcases hZero with ⟨rfl, rfl⟩
    rfl
  · have hFraction := fraction_fractionText hMicrosecond
      (r := []) (by simp)
    rw [List.append_nil] at hFraction
    rw [List.map_cons, List.map_append, seconds?, sign_self]
    simp only [Option.bind_eq_bind, Option.bind_some]
    rw [digitsFrom_of_lt (by omega)]
    simp only [Option.bind_some, hFraction, if_true]

theorem offset_offsetText
    {offset : Option Int}
    (hRange : ∀ o ∈ offset, o.natAbs < 86400000000) :
    offset? ((Datetime.offsetText offset).map Char.toNat) =
      some offset := by
  cases offset with
  | none => rfl
  | some o =>
      have hBound := hRange o rfl
      have hSpan : span? ((Digits.pad 2 (o.natAbs / 3600000000) ++
          ':' :: (Digits.pad 2 (o.natAbs / 60000000 % 60) ++
            Datetime.secondsText (o.natAbs / 1000000 % 60)
              (o.natAbs % 1000000))).map Char.toNat) =
          some o.natAbs := by
        rw [span?, List.map_append, List.map_cons,
          List.map_append, digitsFrom_of_lt (by omega)]
        simp only [Option.bind_eq_bind, Option.bind_some,
          sign_self]
        rw [digitsFrom_of_lt (by omega)]
        simp only [Option.bind_some]
        rw [seconds_secondsText (by omega) (by omega)]
        simp only [Option.bind_some, Option.some.injEq]
        omega
      rw [Datetime.offsetText, List.map_cons, offset?, hSpan]
      by_cases hNeg : o < 0
      · have hValue : -Int.ofNat o.natAbs = o :=
          (congrArg (- ·) (Int.ofNat_natAbs_of_nonpos
            (Int.le_of_lt hNeg))).trans (Int.neg_neg o)
        have hSign : '-'.toNat = 45 := rfl
        rw [if_pos hNeg, if_neg (by decide), if_pos hSign,
          Option.map_some, hValue]
      · have hValue : Int.ofNat o.natAbs = o :=
          Int.natAbs_of_nonneg (Int.not_lt.mp hNeg)
        have hSign : '+'.toNat = 43 := rfl
        rw [if_neg hNeg, if_pos hSign, Option.map_some, hValue]

theorem head_offsetText (offset : Option Int) :
    ((Datetime.offsetText offset).map Char.toNat).head? ≠
      some 46 := by
  cases offset with
  | none => simp [Datetime.offsetText]
  | some o =>
      rw [Datetime.offsetText, List.map_cons, List.head?_cons]
      split_ifs <;> decide

end Iso

theorem monthrange_lt (year month : Nat) :
    monthrange year month < 100 := by
  unfold monthrange
  split_ifs <;> decide

/- The text of a date is read back. -/
theorem readIsoformat_isoformat (d : Datetime) :
    readIsoformat (d.isoformat.map Char.toNat) = some d := by
  have h := d.inRange
  have hYear := h.hYear
  have hMonth := h.hMonth
  have hDay := h.hDay
  have hHour := h.hHour
  have hMinute := h.hMinute
  have hSecond := h.hSecond
  have hDays : d.day < 100 :=
    Nat.lt_of_le_of_lt hDay.2 (monthrange_lt d.year d.month)
  have hNext := Iso.head_offsetText d.offset
  unfold readIsoformat Datetime.isoformat
  simp only [List.map_append, List.map_cons]
  rw [Iso.digitsFrom_of_lt (by omega)]
  simp only [Option.bind_eq_bind, Option.bind_some,
    Iso.sign_self]
  rw [Iso.digitsFrom_of_lt (by omega)]
  simp only [Option.bind_some, Iso.sign_self]
  rw [Iso.digitsFrom_of_lt (by omega)]
  simp only [Option.bind_some, Iso.sign_self]
  rw [Iso.digitsFrom_of_lt (by omega)]
  simp only [Option.bind_some, Iso.sign_self]
  rw [Iso.digitsFrom_of_lt (by omega)]
  simp only [Option.bind_some, Iso.sign_self]
  rw [Iso.digitsFrom_of_lt (by omega)]
  simp only [Option.bind_some]
  rw [Iso.fraction_fractionText h.hMicrosecond hNext]
  simp only [Option.bind_some]
  rw [Iso.offset_offsetText h.hOffset]
  simp only [Option.bind_some]
  exact dif_pos h

/- A reader of these texts. -/
def IsoReader.complete : IsoReader where
  read := readIsoformat
  reads := readIsoformat_isoformat
