import DcInventory.Catalog.SignatureAgreement
import DcInventory.Core.DecimalReading
import DcInventory.Core.Rounding

/-
  This file proves that the identity text of a decimal stands
  for its value: numbers have one text exactly if they are
  equal, and the text is read as the number.

  Key definitions include:
    * `Decimal.plain`
    * `Catalog.decimalIdentityText`

  Key theorems include:
    * `Decimal.representable_plain`
    * `Decimal.minus_mem_canonical_iff`
    * `Catalog.decimalIdentityText_complete`
-/

------------------------------------------------------------
-- Sizes
------------------------------------------------------------

namespace Decimal

theorem abs_value (d : Decimal) :
    |d.value| = d.coefficient * (10 : ℚ) ^ d.exponent := by
  have hPow : (0 : ℚ) < 10 ^ d.exponent :=
    zpow_pos (by norm_num) _
  unfold value
  rw [abs_mul, abs_mul, Nat.abs_cast, abs_of_pos hPow]
  cases d.negative <;> simp

/- The digits of a number bound it by a power of ten. -/
theorem abs_value_lt_iff
    {d : Decimal}
    (hSome : d.coefficient ≠ 0)
    (n : Int) :
    |d.value| < (10 : ℚ) ^ n ↔
      d.exponent + d.digitCount ≤ n := by
  have hPow : (0 : ℚ) < 10 ^ d.exponent :=
    zpow_pos (by norm_num) _
  have hCount := d.digitCount_pos
  rw [abs_value]
  constructor
  · intro hLess
    by_contra hLong
    -- the leading digit alone reaches the power
    have hLead : 10 ^ (d.digitCount - 1) ≤ d.coefficient := by
      rcases Nat.eq_zero_or_pos (d.digitCount - 1) with
        hOne | hMore
      · rw [hOne, pow_zero]
        omega
      · exact pow_digitCount_le hMore (by omega)
    have hCast : (10 : ℚ) ^ (d.digitCount - 1) ≤
        d.coefficient := by
      exact_mod_cast hLead
    have hReach : (10 : ℚ) ^ n ≤
        d.coefficient * 10 ^ d.exponent := by
      calc (10 : ℚ) ^ n
          ≤ 10 ^ (((d.digitCount - 1 : Nat) : Int) +
              d.exponent) :=
            zpow_le_zpow_right₀ (by norm_num) (by omega)
        _ = 10 ^ (d.digitCount - 1) * 10 ^ d.exponent := by
            rw [zpow_add₀ (by norm_num), zpow_natCast]
        _ ≤ d.coefficient * 10 ^ d.exponent :=
            mul_le_mul_of_nonneg_right hCast hPow.le
    exact absurd hLess (not_lt.mpr hReach)
  · intro hShort
    have hCast : (d.coefficient : ℚ) < 10 ^ d.digitCount := by
      exact_mod_cast d.lt_pow_digitCount
    calc d.coefficient * (10 : ℚ) ^ d.exponent
        < 10 ^ d.digitCount * 10 ^ d.exponent :=
          mul_lt_mul_of_pos_right hCast hPow
      _ = 10 ^ ((d.digitCount : Int) + d.exponent) := by
          rw [zpow_add₀ (by norm_num), zpow_natCast]
      _ ≤ 10 ^ n :=
          zpow_le_zpow_right₀ (by norm_num) (by omega)

theorem value_eq_zero_iff (d : Decimal) :
    d.value = 0 ↔ d.coefficient = 0 := by
  have hPow : (10 : ℚ) ^ d.exponent ≠ 0 :=
    zpow_ne_zero _ (by norm_num)
  rw [← abs_eq_zero, abs_value, mul_eq_zero_iff_right hPow,
    Nat.cast_eq_zero]

/-
  What is represented does not depend on the digits that a
  number is written with, apart from its exponent.
-/
theorem representable_of_value
    {d d' : Decimal}
    (hValue : d'.value = d.value)
    (hLow : minEtiny ≤ d'.exponent)
    (hHigh : d'.exponent ≤ maxEmax)
    (hFits : d.representable = true) :
    d'.representable = true := by
  have hZero : d'.coefficient = 0 ↔ d.coefficient = 0 := by
    rw [← value_eq_zero_iff, hValue, value_eq_zero_iff]
  unfold representable at hFits ⊢
  by_cases hNone : d.coefficient = 0
  · have hNone' := hZero.mpr hNone
    simp [hNone', hLow, hHigh]
  · have hSome' : d'.coefficient ≠ 0 := fun h =>
      hNone (hZero.mp h)
    rw [if_neg hNone] at hFits
    rw [if_neg hSome']
    simp only [Bool.and_eq_true, decide_eq_true_eq] at hFits ⊢
    have hBound := (abs_value_lt_iff hNone (maxEmax + 1)).mpr
      (by omega)
    rw [← hValue, abs_value_lt_iff hSome'] at hBound
    exact ⟨hLow, by omega⟩

------------------------------------------------------------
-- The Plain Form
------------------------------------------------------------

/- The number with the digits of its canonical text. -/
def plain (d : Decimal) : Decimal where
  negative := d.negative && d.normal.1 != 0
  coefficient := d.normal.1
  exponent := -(d.normal.2 : Int)

theorem canonical_eq (d : Decimal) :
    d.canonical = signText d.plain.negative ++
      unsignedText d.normal.1 d.normal.2 :=
  canonical_eq_plainText d

theorem value_plain (d : Decimal) :
    d.plain.value = d.value := by
  rw [value_eq_normal d]
  unfold value plain
  simp only [zpow_neg, zpow_natCast]
  by_cases hZero : d.normal.1 = 0
  · simp [hZero]
  · have hNonzero : (d.normal.1 != 0) = true := by
      simpa using hZero
    rw [hNonzero, Bool.and_true, mul_assoc, div_eq_mul_inv]

theorem reduce_snd_le (m k : Nat) :
    (reduce m k).2 ≤ k := by
  induction k generalizing m with
  | zero => exact Nat.le_refl 0
  | succ k ih =>
      rw [reduce]
      split
      · exact (ih (m / 10)).trans (Nat.le_succ k)
      · exact Nat.le_refl _

/- The plain form of what is represented is represented. -/
theorem representable_plain
    {d : Decimal}
    (hFits : d.representable = true) :
    d.plain.representable = true := by
  have hExponent : minEtiny ≤ d.exponent := by
    unfold representable at hFits
    simp only [Bool.and_eq_true, decide_eq_true_eq] at hFits
    exact hFits.1
  have hLow : minEtiny ≤ d.plain.exponent := by
    change minEtiny ≤ -(d.normal.2 : Int)
    unfold normal
    split
    · change minEtiny ≤ -((0 : Nat) : Int)
      decide
    · have hLe := reduce_snd_le d.coefficient
        (-d.exponent).toNat
      omega
  have hHigh : d.plain.exponent ≤ maxEmax := by
    have hMax : (0 : Int) ≤ maxEmax := by decide
    have hNonpos : d.plain.exponent ≤ 0 := by
      change -(d.normal.2 : Int) ≤ 0
      omega
    exact hNonpos.trans hMax
  exact representable_of_value d.value_plain hLow hHigh hFits

------------------------------------------------------------
-- The Canonical Text
------------------------------------------------------------

theorem exists_digit_unsignedText (m k : Nat) :
    ∃ c cs, unsignedText m k = c :: cs ∧ c.isDigit = true := by
  cases hText : unsignedText m k with
  | nil => exact absurd hText (unsignedText_ne_nil m k)
  | cons c cs => exact ⟨c, cs, rfl, head_unsignedText hText⟩

/- A canonical text has no exponent. -/
theorem mem_canonical
    {d : Decimal}
    {c : Char}
    (hc : c ∈ d.canonical) :
    c = '-' ∨ c = '.' ∨ c.isDigit = true := by
  rw [canonical_eq] at hc
  exact mem_signed (fun _ hPart => mem_unsignedText hPart) hc

/- Only a number below zero has a sign. -/
theorem minus_mem_canonical_iff (d : Decimal) :
    '-' ∈ d.canonical ↔ d.value < 0 := by
  have hPlain : '-' ∈ d.canonical ↔
      d.plain.negative = true := by
    rw [canonical_eq]
    unfold signText
    cases d.plain.negative with
    | true => simp
    | false =>
        have hNone : '-' ∉ unsignedText d.normal.1
            d.normal.2 := by
          intro hMem
          rcases mem_unsignedText hMem with hPoint | hDigit
          · exact absurd hPoint (by decide)
          · exact absurd hDigit (by decide)
        simp [hNone]
  rw [hPlain, ← value_plain]
  have hPow : (0 : ℚ) < 10 ^ d.plain.exponent :=
    zpow_pos (by norm_num) _
  have hNonneg : (0 : ℚ) ≤
      d.plain.coefficient * 10 ^ d.plain.exponent := by
    positivity
  constructor
  · intro hNegative
    have hSome : d.normal.1 ≠ 0 := by
      unfold plain at hNegative
      simp only [Bool.and_eq_true, bne_iff_ne] at hNegative
      exact hNegative.2
    have hPos : (0 : ℚ) <
        d.plain.coefficient * 10 ^ d.plain.exponent := by
      apply mul_pos _ hPow
      exact_mod_cast Nat.pos_of_ne_zero hSome
    unfold value
    rw [hNegative, if_pos rfl, mul_assoc]
    linarith
  · intro hLess
    by_contra hNegative
    unfold value at hLess
    rw [if_neg hNegative, one_mul] at hLess
    exact absurd hLess (not_lt.mpr hNonneg)

/- The last digit after the point is not zero. -/
theorem getLast_canonical
    {d : Decimal}
    (hPoint : '.' ∈ d.canonical) :
    ∃ c, d.canonical.getLast? = some c ∧
      c.isDigit = true ∧ c ≠ '0' := by
  have hNonzero : ∀ a < 10, a ≠ 0 →
      (Nat.digitChar a).isDigit = true ∧
        Nat.digitChar a ≠ '0' := by
    decide
  rw [canonical_eq] at hPoint ⊢
  have hFraction : d.normal.2 ≠ 0 := by
    intro hNone
    rw [unsignedText, if_pos hNone] at hPoint
    rcases List.mem_append.mp hPoint with hSign | hDigits
    · unfold signText at hSign
      split at hSign
      · exact absurd hSign (by decide)
      · cases hSign
    · exact point_not_mem_digits _ hDigits
  obtain ⟨k, hk⟩ := Nat.exists_eq_succ_of_ne_zero hFraction
  have hReduced : d.normal.1 % 10 ≠ 0 := by
    rcases reduced_normal d with hNone | hNe
    · exact absurd hNone hFraction
    · exact hNe
  have hLast : d.normal.1 % 10 ^ (k + 1) % 10 =
      d.normal.1 % 10 :=
    Nat.mod_mod_of_dvd _ (Dvd.intro_left (10 ^ k) rfl)
  refine ⟨Nat.digitChar (d.normal.1 % 10), ?_,
    hNonzero _ (Nat.mod_lt _ (by decide)) hReduced⟩
  rw [unsignedText, if_neg hFraction, hk, pointText,
    Nat.succ_eq_add_one, Digits.pad, hLast,
    ← List.cons_append, ← List.append_assoc,
    ← List.append_assoc, List.getLast?_concat]

end Decimal

------------------------------------------------------------
-- Identity Texts
------------------------------------------------------------

namespace Catalog

variable {U : Unicode}

/- `decimal_identity_text` -/
def decimalIdentityText : PyDecimal → Except Error Text
| .special =>
    .error (.valueError
      "decimal identity requires a finite value")
| .finite d => .ok d.canonical

/- What is read from the canonical text is the plain form. -/
theorem readUnsigned_canonical (d : Decimal) :
    readUnsigned (readSign d.canonical).1
      (readSign d.canonical).2 = some d.plain := by
  rcases Decimal.exists_digit_unsignedText d.normal.1
    d.normal.2 with ⟨c, cs, hText, hDigit⟩
  have hSign : readSign d.canonical = (d.plain.negative,
      Decimal.unsignedText d.normal.1 d.normal.2) := by
    rw [Decimal.canonical_eq, hText]
    exact readSign_signText hDigit
  rw [hSign]
  exact readUnsigned_unsignedText _ _ _

theorem decimalOfText_canonical
    {d : Decimal}
    (hFits : d.representable = true) :
    decimalOfText U d.canonical = some (.finite d.plain) := by
  rw [Decimal.canonical_eq]
  exact decimalOfText_signed
    (Decimal.exists_digit_unsignedText _ _)
    (fun _ hc => mem_unsignedText hc)
    (readUnsigned_unsignedText _ _ _)
    (Decimal.representable_plain hFits)

/-
  The identity text of a finite decimal exists and stands for
  its value. It is written without an exponent, without zeros
  at the end of a fraction and with a sign only below zero; it
  is read as a number of the same value, and it is the text
  that the database has for every stored number of that value.
-/
theorem decimalIdentityText_complete
    (U : Unicode)
    (a : Decimal) :
    ∃ text, decimalIdentityText (.finite a) = .ok text ∧
      (∀ b, decimalIdentityText (.finite b) = .ok text ↔
        a.value = b.value) ∧
      (∀ c ∈ text,
        c = '-' ∨ c = '.' ∨ c.isDigit = true) ∧
      ('.' ∈ text → ∃ c, text.getLast? = some c ∧
        c.isDigit = true ∧ c ≠ '0') ∧
      ('-' ∈ text ↔ a.value < 0) ∧
      (∃ d, readUnsigned (readSign text).1 (readSign text).2 =
          some d ∧ d.value = a.value ∧
        (a.representable = true →
          decimalOfText U text = some (.finite d))) ∧
      ∀ n : Numeric, n.value = a.value →
        catalogDecimalIdentity n = text := by
  refine ⟨a.canonical, rfl, ?_, ?_, ?_, ?_, ?_, ?_⟩
  · intro b
    have hEqual := Decimal.canonical_eq_iff b a
    unfold decimalIdentityText
    rw [Except.ok.injEq, hEqual]
    exact eq_comm
  · exact fun c hc => Decimal.mem_canonical hc
  · exact Decimal.getLast_canonical
  · exact Decimal.minus_mem_canonical_iff a
  · exact ⟨a.plain, readUnsigned_canonical a, a.value_plain,
      decimalOfText_canonical⟩
  · exact fun n hn => catalogDecimalIdentity_eq hn

/- Minus zero, written with an exponent. -/
theorem minus_zero_has_the_text_of_zero :
    ∃ text, decimalIdentityText (.finite ⟨true, 0, -7⟩) =
        .ok text ∧
      text = ['0'] ∧
      decimalOfText .ascii text =
        some (.finite ⟨false, 0, 0⟩) := by
  rcases decimalIdentityText_complete .ascii ⟨true, 0, -7⟩ with
    ⟨text, hText, -, -, -, -, ⟨d, hRead, -, hDecimal⟩, -⟩
  have hOk := hDecimal (by decide)
  have hZero : text = ['0'] := by
    have hCanonical : Except.ok (ε := Error) text =
        .ok ['0'] := by
      rw [← hText]
      decide
    exact Except.ok.inj hCanonical
  subst hZero
  have hd : some d = some ⟨false, 0, 0⟩ := by
    rw [← hRead]
    decide
  cases hd
  exact ⟨_, hText, rfl, hOk⟩

end Catalog
