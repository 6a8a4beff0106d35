import DcInventory.Core.DecimalText

/-
  This file proves what rounding to a number of digits does
  to a number that is not negative.

  Key definitions include:
    * `Decimal.Fits`

  Key theorems include:
    * `Decimal.rounded_le`
    * `Decimal.rounded_eq`
    * `Decimal.fits_rounded`
    * `Decimal.rounded_den`
-/

namespace Decimal

------------------------------------------------------------
-- Coefficients
------------------------------------------------------------

/- Rounding stays below the integers above. -/
theorem roundHalfEven_le
    {m k n : Nat}
    (h : m ≤ n * 10 ^ k) :
    roundHalfEven m k ≤ n := by
  have hPow : 0 < 10 ^ k := Nat.pow_pos (by decide)
  have hDiv : m / 10 ^ k ≤ n :=
    Nat.div_le_of_le_mul (by rwa [Nat.mul_comm])
  unfold roundHalfEven
  simp only
  split
  · exact hDiv
  · rename_i hUp
    -- There is a remainder, so the quotient is less than `n`.
    have hRest : 0 < m % 10 ^ k := by
      by_contra hZero
      exact hUp (Or.inl (by omega))
    have hSplit := Nat.div_add_mod m (10 ^ k)
    have hLess : 10 ^ k * (m / 10 ^ k) < 10 ^ k * n := by
      rw [Nat.mul_comm (10 ^ k) n]
      omega
    exact Nat.lt_of_mul_lt_mul_left hLess

theorem div_le_roundHalfEven (m k : Nat) :
    m / 10 ^ k ≤ roundHalfEven m k := by
  unfold roundHalfEven
  simp only
  split
  · exact Nat.le_refl _
  · exact Nat.le_succ _

theorem roundHalfEven_mul (n k : Nat) :
    roundHalfEven (n * 10 ^ k) k = n := by
  have hPow : 0 < 10 ^ k := Nat.pow_pos (by decide)
  apply Nat.le_antisymm
  · exact roundHalfEven_le (Nat.le_refl _)
  · have hDiv := div_le_roundHalfEven (n * 10 ^ k) k
    rwa [Nat.mul_div_cancel n hPow] at hDiv

------------------------------------------------------------
-- Numbers
------------------------------------------------------------

/- A number of at most `precision` digits. -/
def Fits (precision : Nat) (x : ℚ) : Prop :=
  ∃ (m : Nat) (e : Int), m < 10 ^ precision ∧
    x = m * (10 : ℚ) ^ e

theorem value_of_nonneg
    {d : Decimal}
    (hSign : d.negative = false) :
    d.value = d.coefficient * (10 : ℚ) ^ d.exponent := by
  unfold value
  rw [hSign]
  simp

theorem value_pos_iff
    {d : Decimal}
    (hSign : d.negative = false) :
    0 < d.value ↔ 0 < d.coefficient := by
  have hPow : (0 : ℚ) < 10 ^ d.exponent :=
    zpow_pos (by norm_num) _
  rw [value_of_nonneg hSign, mul_pos_iff_of_pos_right hPow]
  exact Nat.cast_pos

/- A coefficient has as many digits as it needs. -/
theorem lt_pow_digitCount (d : Decimal) :
    d.coefficient < 10 ^ d.digitCount :=
  (Nat.length_toDigits_le_iff (by decide)
    Nat.length_toDigits_pos).mp (Nat.le_refl _)

theorem pow_digitCount_le
    {d : Decimal}
    {n : Nat}
    (hPos : 0 < n)
    (hCount : n < d.digitCount) :
    10 ^ n ≤ d.coefficient := by
  by_contra hLess
  have hLe := (Nat.length_toDigits_le_iff
    (b := 10) (by decide) hPos).mpr (not_le.mp hLess)
  unfold digitCount at hCount
  omega

variable {d : Decimal}
variable {p : Nat}

/- The digits that rounding to `p` digits takes away. -/
def excess (p : Nat) (d : Decimal) : Nat :=
  d.digitCount - p

theorem rounded_sign :
    (d.rounded p).negative = d.negative := by
  rfl

theorem rounded_of_short
    (hShort : d.digitCount ≤ p) :
    d.rounded p = d := by
  have hNone : d.digitCount - p = 0 := by omega
  have hSame := roundHalfEven_mul d.coefficient 0
  rw [pow_zero, Nat.mul_one] at hSame
  unfold rounded
  simp only [hNone, hSame]
  simp

/-
  A short number that is not less than `d` is a multiple of
  the last digit that rounding keeps.
-/
theorem exponent_le
    (hp : 0 < p)
    (hSign : d.negative = false)
    (hLong : p < d.digitCount)
    {m : Nat}
    {e : Int}
    (hm : m < 10 ^ p)
    (hLe : d.value ≤ m * (10 : ℚ) ^ e) :
    d.exponent + excess p d ≤ e := by
  have hTen : (1 : ℚ) < 10 := by norm_num
  have hDigits : (10 : ℚ) ^ (d.digitCount - 1 : Nat) ≤
      d.coefficient := by
    exact_mod_cast pow_digitCount_le (by omega) (by omega)
  have hPow : (0 : ℚ) < 10 ^ d.exponent :=
    zpow_pos (by norm_num) _
  have hPow' : (0 : ℚ) < 10 ^ e := zpow_pos (by norm_num) _
  have hm' : (m : ℚ) < 10 ^ p := by exact_mod_cast hm
  have hChain : (10 : ℚ) ^
      (((d.digitCount - 1 : Nat) : Int) + d.exponent) <
        10 ^ ((p : Int) + e) := by
    rw [zpow_add₀ (by norm_num), zpow_add₀ (by norm_num),
      zpow_natCast, zpow_natCast]
    calc (10 : ℚ) ^ (d.digitCount - 1) * 10 ^ d.exponent
        ≤ d.coefficient * 10 ^ d.exponent :=
          mul_le_mul_of_nonneg_right hDigits hPow.le
      _ = d.value := (value_of_nonneg hSign).symm
      _ ≤ m * 10 ^ e := hLe
      _ < 10 ^ p * 10 ^ e :=
          mul_lt_mul_of_pos_right hm' hPow'
  have hExponents := (zpow_lt_zpow_iff_right₀ hTen).mp hChain
  unfold excess
  omega

/- The multiple, in units of the last digit kept. -/
theorem coefficient_le
    (hSign : d.negative = false)
    {m : Nat}
    {e : Int}
    {k : Nat}
    (hExponent : d.exponent + k ≤ e)
    (hLe : d.value ≤ m * (10 : ℚ) ^ e) :
    d.coefficient ≤
      m * 10 ^ (e - d.exponent - k).toNat * 10 ^ k := by
  have hTen : (10 : ℚ) ≠ 0 := by norm_num
  have hPow : (0 : ℚ) < 10 ^ d.exponent :=
    zpow_pos (by norm_num) _
  have hUnits : (10 : ℚ) ^ e =
      10 ^ (e - d.exponent - k).toNat * 10 ^ k *
        10 ^ d.exponent := by
    rw [← zpow_natCast, ← zpow_natCast, ← zpow_add₀ hTen,
      ← zpow_add₀ hTen]
    congr 1
    omega
  rw [value_of_nonneg hSign, hUnits, ← mul_assoc] at hLe
  have hCancel := le_of_mul_le_mul_right hLe hPow
  rw [← mul_assoc] at hCancel
  exact_mod_cast hCancel

theorem value_rounded
    (hSign : d.negative = false) :
    (d.rounded p).value =
      roundHalfEven d.coefficient (excess p d) *
        (10 : ℚ) ^ (d.exponent + excess p d) :=
  value_of_nonneg hSign

/- What is not above a short number is not rounded above it. -/
theorem rounded_le
    (hp : 0 < p)
    (hSign : d.negative = false)
    {x : ℚ}
    (hFits : Fits p x)
    (hLe : d.value ≤ x) :
    (d.rounded p).value ≤ x := by
  by_cases hShort : d.digitCount ≤ p
  · rw [rounded_of_short hShort]
    exact hLe
  rcases hFits with ⟨m, e, hm, rfl⟩
  have hExponent := exponent_le hp hSign (not_le.mp hShort)
    hm hLe
  have hRound := roundHalfEven_le
    (coefficient_le hSign hExponent hLe)
  have hTen : (10 : ℚ) ≠ 0 := by norm_num
  have hPow : (0 : ℚ) < 10 ^ (d.exponent + excess p d) :=
    zpow_pos (by norm_num) _
  rw [value_rounded hSign]
  calc (roundHalfEven d.coefficient (excess p d) : ℚ) *
        10 ^ (d.exponent + excess p d)
      ≤ (m * 10 ^ (e - d.exponent - excess p d).toNat : Nat) *
        (10 : ℚ) ^ (d.exponent + excess p d) :=
        mul_le_mul_of_nonneg_right
          (by exact_mod_cast hRound) hPow.le
    _ = m * 10 ^ e := by
        rw [Nat.cast_mul, Nat.cast_pow, Nat.cast_ofNat,
          mul_assoc, ← zpow_natCast, ← zpow_add₀ hTen]
        congr 2
        omega

/- Short numbers are not rounded. -/
theorem rounded_eq
    (hp : 0 < p)
    (hSign : d.negative = false)
    (hFits : Fits p d.value) :
    (d.rounded p).value = d.value := by
  by_cases hShort : d.digitCount ≤ p
  · rw [rounded_of_short hShort]
  apply le_antisymm (rounded_le hp hSign hFits le_rfl)
  rcases hFits with ⟨m, e, hm, hEq⟩
  have hExponent := exponent_le hp hSign (not_le.mp hShort)
    hm hEq.le
  have hTen : (10 : ℚ) ≠ 0 := by norm_num
  have hPow : (0 : ℚ) < 10 ^ d.exponent :=
    zpow_pos (by norm_num) _
  -- The digits taken away are zeros.
  have hUnits : (10 : ℚ) ^ e =
      10 ^ (e - d.exponent - excess p d).toNat *
        10 ^ excess p d * 10 ^ d.exponent := by
    rw [← zpow_natCast, ← zpow_natCast, ← zpow_add₀ hTen,
      ← zpow_add₀ hTen]
    congr 1
    omega
  have hCoefficient : d.coefficient =
      m * 10 ^ (e - d.exponent - excess p d).toNat *
        10 ^ excess p d := by
    rw [value_of_nonneg hSign, hUnits, ← mul_assoc] at hEq
    have hCancel := mul_right_cancel₀ hPow.ne' hEq
    rw [← mul_assoc] at hCancel
    exact_mod_cast hCancel
  rw [value_rounded hSign, value_of_nonneg hSign]
  rw [zpow_add₀ hTen, zpow_natCast]
  have hRound := roundHalfEven_mul
    (m * 10 ^ (e - d.exponent - excess p d).toNat)
    (excess p d)
  rw [← hCoefficient] at hRound
  rw [hRound]
  have hCast : (d.coefficient : ℚ) =
      (m * 10 ^ (e - d.exponent - excess p d).toNat : Nat) *
        10 ^ excess p d := by
    exact_mod_cast hCoefficient
  rw [hCast]
  exact le_of_eq (by ring)

/- A rounded number is short. -/
theorem fits_rounded
    (hp : 0 < p)
    (hSign : d.negative = false) :
    Fits p (d.rounded p).value := by
  have hBound : roundHalfEven d.coefficient (excess p d) ≤
      10 ^ p := by
    apply roundHalfEven_le
    have hPow : 10 ^ d.digitCount ≤
        10 ^ p * 10 ^ excess p d := by
      rw [← pow_add]
      apply Nat.pow_le_pow_right (by decide)
      unfold excess
      omega
    exact (lt_pow_digitCount d).le.trans hPow
  rw [value_rounded hSign]
  rcases Nat.lt_or_eq_of_le hBound with hLess | hEq
  · exact ⟨_, _, hLess, rfl⟩
  · -- All digits are nines, and there is a carry.
    refine ⟨1, d.exponent + excess p d + p, ?_, ?_⟩
    · exact Nat.one_lt_pow hp.ne' (by decide)
    · rw [hEq, zpow_add₀ (by norm_num) (d.exponent + _)]
      rw [zpow_natCast]
      push_cast
      ring

theorem rounded_pos_iff
    (hp : 0 < p)
    (hSign : d.negative = false) :
    0 < (d.rounded p).value ↔ 0 < d.value := by
  rw [value_pos_iff hSign, value_pos_iff (d := d.rounded p)
    hSign]
  change 0 < roundHalfEven d.coefficient (excess p d) ↔ _
  constructor
  · intro hPos
    by_contra hZero
    have hNone : d.coefficient = 0 := by omega
    have hLe : roundHalfEven d.coefficient (excess p d) ≤ 0 :=
      roundHalfEven_le (by rw [hNone]; exact Nat.zero_le _)
    omega
  · intro hPos
    have hDiv := div_le_roundHalfEven d.coefficient
      (excess p d)
    by_cases hShort : d.digitCount ≤ p
    · have hNone : excess p d = 0 := by
        unfold excess
        omega
      rw [hNone, pow_zero, Nat.div_one] at hDiv
      rw [hNone]
      omega
    · have hDigits : 10 ^ excess p d ≤ d.coefficient := by
        apply pow_digitCount_le
        · unfold excess
          omega
        · unfold excess
          omega
      have hQuotient : 0 < d.coefficient / 10 ^ excess p d :=
        Nat.div_pos hDigits (Nat.pow_pos (by decide))
      omega

/- A whole number is rounded to a whole number. -/
theorem rounded_den
    (hSign : d.negative = false)
    (hWhole : d.value.den = 1) :
    (d.rounded p).value.den = 1 := by
  have hTen : (10 : ℚ) ≠ 0 := by norm_num
  by_cases hUnits : 0 ≤ d.exponent + excess p d
  · rcases Int.eq_ofNat_of_zero_le hUnits with ⟨e, he⟩
    have hNat : (d.rounded p).value =
        (roundHalfEven d.coefficient (excess p d) * 10 ^ e :
          Nat) := by
      rw [value_rounded hSign, he, zpow_natCast]
      push_cast
      rfl
    rw [hNat]
    rfl
  · -- The digits taken away are zeros after the point.
    have hNonneg : 0 ≤ d.value := by
      rw [value_of_nonneg hSign]
      exact mul_nonneg (Nat.cast_nonneg _)
        (zpow_nonneg (by norm_num) _)
    have hInt : ((d.value.num.toNat : Nat) : ℚ) = d.value := by
      have hNum : (d.value.num : ℚ) = d.value :=
        Rat.coe_int_num_of_den_eq_one hWhole
      rw [← hNum]
      exact_mod_cast Int.toNat_of_nonneg
        (Rat.num_nonneg.mpr hNonneg)
    have hPow : (10 : ℚ) ^ (-d.exponent).toNat *
        10 ^ d.exponent = 1 := by
      rw [← zpow_natCast, ← zpow_add₀ hTen,
        ← zpow_zero (10 : ℚ)]
      congr 1
      omega
    have hCoefficient : d.coefficient = d.value.num.toNat *
        10 ^ (-d.exponent).toNat := by
      have hEq : (d.coefficient : ℚ) =
          d.value.num.toNat * 10 ^ (-d.exponent).toNat := by
        rw [hInt, value_of_nonneg hSign, mul_assoc,
          mul_comm (10 ^ d.exponent), hPow, mul_one]
      exact_mod_cast hEq
    have hSplit : (10 : ℕ) ^ (-d.exponent).toNat =
        10 ^ ((-d.exponent).toNat - excess p d) *
          10 ^ excess p d := by
      rw [← pow_add]
      congr 1
      omega
    have hRound := roundHalfEven_mul (d.value.num.toNat *
      10 ^ ((-d.exponent).toNat - excess p d)) (excess p d)
    rw [mul_assoc, ← hSplit, ← hCoefficient] at hRound
    have hCast : (roundHalfEven d.coefficient (excess p d) : ℚ) *
        10 ^ excess p d = d.coefficient := by
      rw [hRound]
      rw [hSplit, ← mul_assoc] at hCoefficient
      exact_mod_cast hCoefficient.symm
    rw [value_rounded hSign, add_comm, zpow_add₀ hTen,
      zpow_natCast, ← mul_assoc, hCast,
      ← value_of_nonneg hSign]
    exact hWhole

end Decimal
