import DcInventory.Library.Json
import DcInventory.Library.Words
import Mathlib.Algebra.Order.Field.Basic
import Mathlib.Algebra.Order.Field.Rat
import Mathlib.Algebra.Order.Ring.Abs
import Mathlib.Data.Nat.Log
import Mathlib.Tactic.FieldSimp
import Mathlib.Tactic.Linarith
import Mathlib.Tactic.Ring

/-
  This file defines exact decimal numbers and their canonical
  texts, and proves that two numbers have the same canonical
  text exactly if they have the same value.

  Key definitions include:
    * `Decimal`
    * `Decimal.value`
    * `Decimal.fixed`
    * `Decimal.canonical`
    * `Decimal.plainText`

  Key theorems include:
    * `Decimal.canonical_eq_plainText`
    * `Decimal.plainText_injective`
    * `Decimal.canonical_eq_iff`
-/

------------------------------------------------------------
-- Digits
------------------------------------------------------------

namespace Digits

/- The last `k` decimal digits of a number. -/
def pad : Nat → Nat → List Char
| 0, _ => []
| k + 1, n => pad k (n / 10) ++ [Nat.digitChar (n % 10)]

@[simp]
theorem length_pad (k n : Nat) : (pad k n).length = k := by
  induction k generalizing n with
  | zero => rfl
  | succ k ih => simp [pad, ih]

private theorem digitChar_inj :
    ∀ a < 10, ∀ b < 10,
      Nat.digitChar a = Nat.digitChar b → a = b := by
  decide

private theorem digitChar_isDigit :
    ∀ a < 10, (Nat.digitChar a).isDigit = true := by
  decide

/- Padded digits are digits. -/
theorem isDigit_of_mem_pad
    {k n : Nat}
    {c : Char}
    (h : c ∈ pad k n) :
    c.isDigit = true := by
  induction k generalizing n with
  | zero => cases h
  | succ k ih =>
      rcases List.mem_append.mp h with h | h
      · exact ih h
      · rw [List.mem_singleton.mp h]
        exact digitChar_isDigit _ (Nat.mod_lt n (by decide))

/- Digits determine a number that has no more of them. -/
theorem pad_injective
    {k n n' : Nat}
    (hn : n < 10 ^ k)
    (hn' : n' < 10 ^ k)
    (h : pad k n = pad k n') :
    n = n' := by
  induction k generalizing n n' with
  | zero =>
      simp at hn hn'
      omega
  | succ k ih =>
      have hParts := List.append_inj' h rfl
      have hLow : n % 10 = n' % 10 :=
        digitChar_inj _ (Nat.mod_lt n (by decide)) _
          (Nat.mod_lt n' (by decide)) (by simpa using hParts.2)
      have hHigh : n / 10 = n' / 10 := by
        apply ih _ _ hParts.1
        · rw [pow_succ] at hn
          omega
        · rw [pow_succ] at hn'
          omega
      omega

end Digits

------------------------------------------------------------
-- Decimal Numbers
------------------------------------------------------------

/-
  A finite decimal: a sign, the digits of a coefficient, and
  an exponent.
-/
structure Decimal where
  negative : Bool
  coefficient : Nat
  exponent : Int
deriving DecidableEq, Repr

namespace Decimal

/- The number. -/
def value (d : Decimal) : ℚ :=
  (if d.negative then -1 else 1) * d.coefficient *
    (10 : ℚ) ^ d.exponent

/- The number of digits of the coefficient. -/
def digitCount (d : Decimal) : Nat :=
  (Nat.toDigits 10 d.coefficient).length

/- An integer. -/
def ofInt (n : Int) : Decimal :=
  ⟨decide (n < 0), n.natAbs, 0⟩

/- `n / 10 ^ scale`, with `scale` digits after the point. -/
def scaled (n : Int) (scale : Nat) : Decimal :=
  ⟨decide (n < 0), n.natAbs, -scale⟩

theorem value_scaled
    (n : Int)
    (scale : Nat) :
    (scaled n scale).value = n / 10 ^ scale := by
  unfold value scaled
  simp only [zpow_neg, zpow_natCast, div_eq_mul_inv,
    decide_eq_true_eq]
  congr 1
  have hAbs : ((n.natAbs : Nat) : ℚ) = |(n : ℚ)| := by
    rw [Nat.cast_natAbs, Int.cast_abs]
  rw [hAbs]
  split
  · rename_i hNeg
    have hCast : (n : ℚ) < 0 := by exact_mod_cast hNeg
    rw [abs_of_neg hCast]
    ring
  · rename_i hNonneg
    have hCast : (0 : ℚ) ≤ n := by
      exact_mod_cast not_lt.mp hNonneg
    rw [abs_of_nonneg hCast]
    ring

theorem value_ofInt (n : Int) : (ofInt n).value = n := by
  have hScaled := value_scaled n 0
  simpa [scaled, ofInt] using hScaled

------------------------------------------------------------
-- Texts
------------------------------------------------------------

/- The sign of a text. -/
def signText (negative : Bool) : List Char :=
  if negative then ['-'] else []

/- `m / 10 ^ k` with `k` digits after the point. -/
def pointText (m k : Nat) : List Char :=
  Nat.toDigits 10 (m / 10 ^ k) ++
    '.' :: Digits.pad k (m % 10 ^ k)

/- The text without an exponent and with all its zeros. -/
def fixed (d : Decimal) : List Char :=
  signText d.negative ++
    if 0 ≤ d.exponent then
      Nat.toDigits 10
        (d.coefficient * 10 ^ d.exponent.toNat)
    else pointText d.coefficient (-d.exponent).toNat

/- `rstrip` of one character. -/
def rstrip (c : Char) (v : List Char) : List Char :=
  v.rdropWhile (fun d => decide (d = c))

/-
  The fixed text without zeros at the end of a fraction, and
  without a sign of zero.
-/
def canonical (d : Decimal) : List Char :=
  let result :=
    if '.' ∈ d.fixed then rstrip '.' (rstrip '0' d.fixed)
    else d.fixed
  if result = [] ∨ result = ['-', '0'] then ['0'] else result

/- `m / 10 ^ k` without zeros at the end of its fraction. -/
def reduce (m : Nat) : Nat → Nat × Nat
| 0 => (m, 0)
| k + 1 =>
    if m % 10 = 0 then reduce (m / 10) k else (m, k + 1)

/- No zero ends the fraction. -/
def Reduced (m k : Nat) : Prop :=
  k = 0 ∨ m % 10 ≠ 0

/- The unsigned text of `m / 10 ^ k`. -/
def unsignedText (m k : Nat) : List Char :=
  if k = 0 then Nat.toDigits 10 m else pointText m k

/- The text of a number in its normal form. -/
def plainText (negative : Bool) (p : Nat × Nat) : List Char :=
  signText (negative && p.1 != 0) ++ unsignedText p.1 p.2

/- The normal form of the absolute value. -/
def normal (d : Decimal) : Nat × Nat :=
  if 0 ≤ d.exponent then
    (d.coefficient * 10 ^ d.exponent.toNat, 0)
  else reduce d.coefficient (-d.exponent).toNat

theorem reduced_reduce
    (m k : Nat) :
    Reduced (reduce m k).1 (reduce m k).2 := by
  induction k generalizing m with
  | zero => exact Or.inl rfl
  | succ k ih =>
      rw [reduce]
      split
      · exact ih (m / 10)
      · rename_i hDigit
        exact Or.inr hDigit

theorem reduced_normal (d : Decimal) :
    Reduced d.normal.1 d.normal.2 := by
  unfold normal
  split
  · exact Or.inl rfl
  · exact reduced_reduce _ _

/- Reducing keeps the quotient. -/
theorem reduce_value
    (m k : Nat) :
    (reduce m k).1 * 10 ^ k = m * 10 ^ (reduce m k).2 := by
  induction k generalizing m with
  | zero => simp [reduce]
  | succ k ih =>
      rw [reduce]
      split
      · rename_i hZero
        have hTen : m / 10 * 10 = m := by omega
        rw [pow_succ, ← mul_assoc, ih (m / 10)]
        calc m / 10 * 10 ^ (reduce (m / 10) k).2 * 10
            = m / 10 * 10 * 10 ^ (reduce (m / 10) k).2 := by
              ring
          _ = m * 10 ^ (reduce (m / 10) k).2 := by rw [hTen]
      · rfl

/- The value of a number is that of its normal form. -/
theorem value_eq_normal (d : Decimal) :
    d.value = (if d.negative then -1 else 1) *
      ((d.normal.1 : ℚ) / 10 ^ d.normal.2) := by
  unfold value normal
  rw [mul_assoc]
  congr 1
  split
  · rename_i hExp
    have hNat : ((d.exponent.toNat : Nat) : Int) =
        d.exponent := Int.toNat_of_nonneg hExp
    rw [← hNat, zpow_natCast, Int.toNat_natCast]
    push_cast
    simp
  · rename_i hExp
    have hNat : (((-d.exponent).toNat : Nat) : Int) =
        -d.exponent := Int.toNat_of_nonneg (by omega)
    have hZpow : (10 : ℚ) ^ d.exponent =
        1 / 10 ^ (-d.exponent).toNat := by
      rw [← zpow_natCast, hNat, zpow_neg]
      simp
    have hReduce := reduce_value d.coefficient
      (-d.exponent).toNat
    have hCast : (((reduce d.coefficient
        (-d.exponent).toNat).1 : Nat) : ℚ) *
          10 ^ (-d.exponent).toNat =
        d.coefficient * 10 ^ (reduce d.coefficient
          (-d.exponent).toNat).2 := by
      exact_mod_cast hReduce
    rw [hZpow, mul_one_div, div_eq_div_iff (by positivity)
      (by positivity)]
    exact hCast.symm

------------------------------------------------------------
-- The Canonical Text
------------------------------------------------------------

theorem digits_ne_nil (n : Nat) :
    Nat.toDigits 10 n ≠ [] :=
  Nat.toDigits_ne_nil

theorem isDigit_of_mem_digits
    {n : Nat}
    {c : Char}
    (h : c ∈ Nat.toDigits 10 n) :
    c.isDigit = true :=
  Nat.isDigit_of_mem_toDigits (by decide) (by decide) h

/- A point is no digit. -/
theorem point_not_mem_digits (n : Nat) :
    '.' ∉ Nat.toDigits 10 n := by
  intro h
  have hDigit := isDigit_of_mem_digits h
  exact absurd hDigit (by decide)

/- What ends otherwise is not stripped. -/
theorem rstrip_append_ne
    {c d : Char}
    (hNe : d ≠ c)
    (v : List Char) :
    rstrip c (v ++ [d]) = v ++ [d] :=
  List.rdropWhile_concat_neg _ _ _ (by simpa using hNe)

theorem rstrip_append_self
    (c : Char)
    (v : List Char) :
    rstrip c (v ++ [c]) = rstrip c v :=
  List.rdropWhile_concat_pos _ _ _ (by simp)

/- A number ends with a digit. -/
theorem rstrip_digits
    (v : List Char)
    (n : Nat) :
    rstrip '.' (v ++ Nat.toDigits 10 n) =
      v ++ Nat.toDigits 10 n := by
  rcases List.eq_nil_or_concat (Nat.toDigits 10 n) with
    hNil | ⟨ds, c, hDigits⟩
  · exact absurd hNil (digits_ne_nil n)
  · rw [hDigits, List.concat_eq_append, ← List.append_assoc]
    apply rstrip_append_ne
    rintro rfl
    exact point_not_mem_digits n (by
      rw [hDigits]
      simp)

/- Stripping zeros and the point reduces the fraction. -/
theorem rstrip_pointText
    (v : List Char)
    (m k : Nat) :
    rstrip '.' (rstrip '0' (v ++ pointText m k)) =
      v ++ unsignedText (reduce m k).1 (reduce m k).2 := by
  induction k generalizing m with
  | zero =>
      have hText : v ++ pointText m 0 =
          (v ++ Nat.toDigits 10 m) ++ ['.'] := by
        simp [pointText, Digits.pad]
      rw [hText, rstrip_append_ne (by decide),
        rstrip_append_self, rstrip_digits]
      rfl
  | succ k ih =>
      have hDigit : m % 10 ^ (k + 1) % 10 = m % 10 :=
        Nat.mod_mod_of_dvd m (Dvd.intro_left (10 ^ k) rfl)
      have hInt : m / 10 / 10 ^ k = m / 10 ^ (k + 1) := by
        rw [Nat.div_div_eq_div_mul, pow_succ, Nat.mul_comm]
      have hFrac : m % 10 ^ (k + 1) / 10 =
          m / 10 % 10 ^ k := by
        rw [pow_succ, Nat.mul_comm, Nat.mod_mul_right_div_self]
      have hText : v ++ pointText m (k + 1) =
          (v ++ pointText (m / 10) k) ++
            [Nat.digitChar (m % 10)] := by
        simp only [pointText, Digits.pad, hDigit, hInt, hFrac]
        simp
      rw [hText, reduce]
      by_cases hZero : m % 10 = 0
      · rw [if_pos hZero, hZero]
        have hChar : Nat.digitChar 0 = '0' := rfl
        rw [hChar, rstrip_append_self]
        exact ih (m / 10)
      · rw [if_neg hZero]
        have hNe : ∀ a < 10, a ≠ 0 →
            Nat.digitChar a ≠ '0' ∧
              Nat.digitChar a ≠ '.' := by
          decide
        have hLast := hNe (m % 10)
          (Nat.mod_lt m (by decide)) hZero
        rw [rstrip_append_ne hLast.1, rstrip_append_ne hLast.2,
          ← hText]
        rfl

/- A text is zero only for the number zero. -/
theorem unsignedText_eq_zero_iff
    {m k : Nat}
    (hReduced : Reduced m k) :
    unsignedText m k = ['0'] ↔ m = 0 := by
  constructor
  · intro hText
    unfold unsignedText at hText
    split at hText
    · have hDigits : Nat.toDigits 10 m ++ [] =
          Nat.toDigits 10 0 ++ [] := by
        rw [hText]
        rfl
      have hNil : Json.Delimited [] := by
        rintro c ⟨⟩
      exact (Json.toDigits_inj hNil hNil hDigits).1
    · have hPoint : '.' ∈ ['0'] := by
        rw [← hText]
        simp [pointText]
      exact absurd hPoint (by decide)
  · rintro rfl
    rcases hReduced with rfl | hNe
    · rfl
    · exact absurd rfl hNe

theorem unsignedText_ne_nil (m k : Nat) :
    unsignedText m k ≠ [] := by
  unfold unsignedText pointText
  split
  · exact digits_ne_nil m
  · simp

/- A text without a sign begins with a digit. -/
theorem head_unsignedText
    {m k : Nat}
    {c : Char}
    {r : List Char}
    (h : unsignedText m k = c :: r) :
    c.isDigit = true := by
  have hHead : ∀ (n : Nat) (s : List Char),
      Nat.toDigits 10 n ++ s = c :: r → c.isDigit = true := by
    intro n s hText
    cases hDigits : Nat.toDigits 10 n with
    | nil => exact absurd hDigits (digits_ne_nil n)
    | cons d ds =>
        rw [hDigits] at hText
        cases hText
        apply isDigit_of_mem_digits (n := n)
        rw [hDigits]
        exact List.mem_cons_self
  unfold unsignedText at h
  split at h
  · exact hHead m [] (by simpa using h)
  · exact hHead _ _ h

/- The canonical text is the text of the normal form. -/
theorem canonical_eq_plainText (d : Decimal) :
    d.canonical = plainText d.negative d.normal := by
  have hStripped :
      (if '.' ∈ d.fixed then rstrip '.' (rstrip '0' d.fixed)
        else d.fixed) =
      signText d.negative ++
        unsignedText d.normal.1 d.normal.2 := by
    unfold fixed normal
    split
    · rename_i hExp
      rw [if_neg]
      · rfl
      · intro hPoint
        rcases List.mem_append.mp hPoint with h | h
        · unfold signText at h
          split at h
          · exact absurd h (by decide)
          · cases h
        · exact point_not_mem_digits _ h
    · rw [if_pos (by simp [pointText])]
      exact rstrip_pointText _ _ _
  have hZero := unsignedText_eq_zero_iff (reduced_normal d)
  unfold canonical plainText
  simp only [hStripped]
  cases hNegative : d.negative with
  | false =>
      rw [if_neg]
      · rfl
      · rintro (hNil | hSign)
        · exact unsignedText_ne_nil _ _ hNil
        · exact absurd (head_unsignedText hSign) (by decide)
  | true =>
      by_cases hm : d.normal.1 = 0
      · have hText := hZero.mpr hm
        rw [hText]
        simp [signText, hm]
      · have hText : unsignedText d.normal.1 d.normal.2 ≠
            ['0'] := fun h => hm (hZero.mp h)
        simp [signText, hText, hm]

------------------------------------------------------------
-- Texts And Values
------------------------------------------------------------

/- The unsigned text determines the normal form. -/
theorem unsignedText_injective
    {m m' k k' : Nat}
    (h : unsignedText m k = unsignedText m' k') :
    m = m' ∧ k = k' := by
  have hPoint : ∀ m k, '.' ∈ unsignedText m k ↔ k ≠ 0 := by
    intro m k
    unfold unsignedText
    split
    · rename_i hk
      simp [hk, point_not_mem_digits]
    · rename_i hk
      simp [hk, pointText]
  have hDelimited : ∀ r : List Char,
      Json.Delimited ('.' :: r) := by
    rintro r c ⟨⟩
    rfl
  by_cases hk : k = 0
  · have hk' : k' = 0 := by
      by_contra hNe
      have hMem := (hPoint m' k').mpr hNe
      rw [← h, hPoint m k] at hMem
      exact hMem hk
    subst hk hk'
    have hNil : Json.Delimited [] := by
      rintro c ⟨⟩
    have hDigits : Nat.toDigits 10 m ++ [] =
        Nat.toDigits 10 m' ++ [] := by
      simpa [unsignedText] using h
    exact ⟨(Json.toDigits_inj hNil hNil hDigits).1, rfl⟩
  · have hk' : k' ≠ 0 := by
      rw [← hPoint m' k', ← h, hPoint m k]
      exact hk
    simp only [unsignedText, if_neg hk, if_neg hk',
      pointText] at h
    rcases Json.toDigits_inj (hDelimited _) (hDelimited _) h
      with ⟨hInt, hRest⟩
    have hFrac := (List.cons.inj hRest).2
    have hLength := congrArg List.length hFrac
    simp only [Digits.length_pad] at hLength
    subst hLength
    have hMod := Digits.pad_injective
      (Nat.mod_lt m (by positivity))
      (Nat.mod_lt m' (by positivity)) hFrac
    refine ⟨?_, rfl⟩
    rw [← Nat.div_add_mod m (10 ^ k), hInt, hMod,
      Nat.div_add_mod]

/- The text of a normal form determines it and its sign. -/
theorem plainText_injective
    {negative negative' : Bool}
    {p p' : Nat × Nat}
    (h : plainText negative p = plainText negative' p') :
    p = p' ∧ (negative && p.1 != 0) =
      (negative' && p'.1 != 0) := by
  have hSign : ∀ (m k : Nat) (v : List Char),
      unsignedText m k ≠ '-' :: v := by
    intro m k v hText
    exact absurd (head_unsignedText hText) (by decide)
  unfold plainText at h
  cases hLeft : (negative && p.1 != 0) <;>
    cases hRight : (negative' && p'.1 != 0) <;>
    rw [hLeft, hRight] at h
  · have hParts := unsignedText_injective h
    exact ⟨Prod.ext hParts.1 hParts.2, rfl⟩
  · exact absurd h (hSign _ _ _)
  · exact absurd h.symm (hSign _ _ _)
  · have hParts := unsignedText_injective
      (List.cons.inj h).2
    exact ⟨Prod.ext hParts.1 hParts.2, rfl⟩

/- A reduced quotient is determined by its value. -/
theorem reduced_unique
    {m m' k k' : Nat}
    (h : Reduced m k)
    (h' : Reduced m' k')
    (hValue : m * 10 ^ k' = m' * 10 ^ k) :
    m = m' ∧ k = k' := by
  have hLess : ∀ {m m' k k' : Nat}, Reduced m' k' →
      m * 10 ^ k' = m' * 10 ^ k → ¬ k < k' := by
    intro m m' k k' hReduced hEq hLt
    have hPow : 10 ^ k' = 10 ^ k * 10 ^ (k' - k) := by
      rw [← pow_add]
      congr 1
      omega
    have hFactor : m * 10 ^ (k' - k) = m' := by
      have hPos : 0 < 10 ^ k := by positivity
      apply Nat.eq_of_mul_eq_mul_right hPos
      rw [← hEq, hPow]
      ring
    have hTen : m' % 10 = 0 := by
      have hSucc : k' - k = (k' - k - 1) + 1 := by omega
      rw [← hFactor, hSucc, pow_succ, ← mul_assoc]
      exact Nat.mul_mod_left _ _
    rcases hReduced with rfl | hNe
    · omega
    · exact hNe hTen
  have hk : k = k' := by
    have hOne := hLess h' hValue
    have hTwo := hLess h hValue.symm
    omega
  subst hk
  exact ⟨Nat.eq_of_mul_eq_mul_right (by positivity) hValue, rfl⟩

/-
  Numbers have the same canonical text exactly if they have
  the same value.
-/
theorem canonical_eq_iff (d d' : Decimal) :
    d.canonical = d'.canonical ↔ d.value = d'.value := by
  rw [canonical_eq_plainText, canonical_eq_plainText,
    value_eq_normal, value_eq_normal]
  have hPos : ∀ k : Nat, (0 : ℚ) < 10 ^ k :=
    fun k => by positivity
  constructor
  · intro hText
    rcases plainText_injective hText with ⟨hNormal, hSign⟩
    rw [← hNormal] at hSign ⊢
    by_cases hZero : d.normal.1 = 0
    · simp [hZero]
    · have hNonzero : (d.normal.1 != 0) = true := by
        simpa using hZero
      rw [hNonzero, Bool.and_true, Bool.and_true] at hSign
      rw [hSign]
  · intro hValue
    have hAbs := congrArg (fun q : ℚ => |q|) hValue
    have hUnit : ∀ b : Bool,
        |(if b then (-1 : ℚ) else 1)| = 1 := by
      intro b
      cases b <;> simp
    simp only [abs_mul, hUnit, one_mul, abs_div, Nat.abs_cast,
      abs_pow] at hAbs
    have hTen : |(10 : ℚ)| = 10 := by norm_num
    rw [hTen, div_eq_div_iff (hPos _).ne' (hPos _).ne']
      at hAbs
    have hNat : d.normal.1 * 10 ^ d'.normal.2 =
        d'.normal.1 * 10 ^ d.normal.2 := by
      exact_mod_cast hAbs
    have hParts := reduced_unique (reduced_normal d)
      (reduced_normal d') hNat
    have hNormal : d.normal = d'.normal :=
      Prod.ext hParts.1 hParts.2
    rw [hNormal] at hValue ⊢
    by_cases hZero : d'.normal.1 = 0
    · simp [plainText, hZero]
    · have hNonzero : ((d'.normal.1 : Nat) : ℚ) /
          10 ^ d'.normal.2 ≠ 0 := by
        apply div_ne_zero _ (hPos _).ne'
        exact_mod_cast hZero
      have hSign := mul_right_cancel₀ hNonzero hValue
      have hSame : d.negative = d'.negative := by
        cases hLeft : d.negative <;>
          cases hRight : d'.negative <;>
          rw [hLeft, hRight] at hSign <;>
          first
          | rfl
          | (norm_num at hSign)
      rw [hSame]

end Decimal
