import DcInventory.Catalog.Readback
import DcInventory.Core.DecimalReading
import DcInventory.Frontend.ItemForm

/-
  This file proves which stored numbers the form reads, and
  what it compares them with.

  Key definitions include:
    * `ItemForm.ComparableDecimal.value`
    * `ItemForm.KeepsIn`

  Key theorems include:
    * `ItemForm.compareDecimals_eq_some_iff`
    * `ItemForm.validateBounds_eq_none_iff`
    * `ItemForm.decimalParts_str`
-/

namespace ItemForm

open CatalogView (isBlank trim)

------------------------------------------------------------
-- Comparing
------------------------------------------------------------

def ComparableDecimal.value (d : ComparableDecimal) : ℚ :=
  d.coefficient / 10 ^ d.scale

theorem compare_scaled
    (l r : ComparableDecimal) :
    compare
        (l.coefficient * 10 ^ (max l.scale r.scale - l.scale))
        (r.coefficient * 10 ^ (max l.scale r.scale - r.scale)) =
      compare l.value r.value := by
  have hScaled : ∀ d : ComparableDecimal,
      d.scale ≤ max l.scale r.scale →
      ((d.coefficient *
        10 ^ (max l.scale r.scale - d.scale) : Int) : ℚ) =
          d.value * 10 ^ max l.scale r.scale := by
    intro d hd
    have hPower : (10 : ℚ) ^ max l.scale r.scale =
        10 ^ d.scale *
          10 ^ (max l.scale r.scale - d.scale) := by
      rw [← pow_add, Nat.add_sub_cancel' hd]
    unfold ComparableDecimal.value
    rw [hPower]
    push_cast
    field_simp
  have hl := hScaled l (le_max_left _ _)
  have hr := hScaled r (le_max_right _ _)
  have hPos : (0 : ℚ) < 10 ^ max l.scale r.scale := by
    positivity
  rcases lt_trichotomy l.value r.value with hLt | hEq | hGt
  · rw [compare_lt_iff_lt.mpr hLt, compare_lt_iff_lt]
    rw [← @Int.cast_lt ℚ, hl, hr]
    exact mul_lt_mul_of_pos_right hLt hPos
  · rw [compare_eq_iff_eq.mpr hEq, compare_eq_iff_eq]
    rw [← @Int.cast_inj ℚ, hl, hr, hEq]
  · rw [compare_gt_iff_gt.mpr hGt, compare_gt_iff_gt]
    rw [← @Int.cast_lt ℚ, hl, hr]
    exact mul_lt_mul_of_pos_right hGt hPos

/- Texts are compared as the numbers that they are. -/
theorem compareDecimals_eq_some_iff
    {left right : Text}
    {o : Ordering} :
    compareDecimals left right = some o ↔
      ∃ l r, decimalParts left = some l ∧
        decimalParts right = some r ∧
        compare l.value r.value = o := by
  unfold compareDecimals
  simp only [Option.bind_eq_bind, Option.bind_eq_some_iff,
    Option.some.injEq, compare_scaled]
  constructor
  · rintro ⟨l, hl, r, hr, rfl⟩
    exact ⟨l, r, hl, hr, rfl⟩
  · rintro ⟨l, r, hl, hr, rfl⟩
    exact ⟨l, hl, r, hr, rfl⟩

section Bounds

variable {browser : Browser}
variable {attr : CategoryAttributeOut}

/- No bound that the form can read excludes the number. -/
def KeepsIn
    (browser : Browser)
    (attr : CategoryAttributeOut)
    (x : ℚ) : Prop :=
  (∀ bound parts,
    metadataString browser attr "min" = some bound →
    decimalParts bound = some parts → parts.value ≤ x) ∧
  (∀ bound parts,
    metadataString browser attr "max" = some bound →
    decimalParts bound = some parts → x ≤ parts.value)

theorem boundError_eq_none_iff
    {rawValue : Text}
    {key message : String}
    {beyond : Ordering}
    {d : ComparableDecimal}
    (hRaw : decimalParts rawValue = some d) :
    boundError browser attr rawValue key message beyond =
        none ↔
      ∀ bound parts,
        metadataString browser attr key = some bound →
        decimalParts bound = some parts →
        compare d.value parts.value ≠ beyond := by
  unfold boundError
  cases hBound : metadataString browser attr key with
  | none => simp
  | some bound =>
      have hCompare : compareDecimals rawValue bound =
          some beyond ↔ ∃ parts, decimalParts bound =
            some parts ∧ compare d.value parts.value =
              beyond := by
        rw [compareDecimals_eq_some_iff]
        constructor
        · rintro ⟨l, r, hl, hr, hEq⟩
          rw [hRaw] at hl
          cases hl
          exact ⟨r, hr, hEq⟩
        · rintro ⟨r, hr, hEq⟩
          exact ⟨d, r, hRaw, hr, hEq⟩
      simp only [hCompare]
      constructor
      · intro hNone text parts hText hParts hBeyond
        cases hText
        rw [if_pos ⟨parts, hParts, hBeyond⟩] at hNone
        cases hNone
      · intro hAll
        rw [if_neg]
        rintro ⟨parts, hParts, hBeyond⟩
        exact hAll bound parts rfl hParts hBeyond

/- A number is accepted that no readable bound excludes. -/
theorem validateBounds_eq_none_iff
    {rawValue : Text}
    {d : ComparableDecimal}
    (hRaw : decimalParts rawValue = some d) :
    validateBounds browser attr rawValue = none ↔
      KeepsIn browser attr d.value := by
  have hBoth : ∀ a b : Option Text,
      (a <|> b) = none ↔ a = none ∧ b = none := by
    intro a b
    cases a <;> simp
  unfold validateBounds KeepsIn
  rw [hBoth, boundError_eq_none_iff hRaw,
    boundError_eq_none_iff hRaw]
  simp only [ne_eq, compare_lt_iff_lt, compare_gt_iff_gt,
    gt_iff_lt, not_lt]

end Bounds

------------------------------------------------------------
-- Integers
------------------------------------------------------------

/- Digits, signs and points are not trimmed. -/
theorem trim_of_numeric
    {v : Text}
    (h : ∀ c ∈ v, c = '-' ∨ c = '.' ∨ c.isDigit = true) :
    trim v = v := by
  have hSolid : ∀ c ∈ v, isBlank c = false := by
    intro c hc
    rcases h c hc with rfl | rfl | hDigit
    · decide
    · decide
    · have hCode := code_of_isDigit hDigit
      simp only [isBlank, Bool.or_eq_false_iff,
        Bool.and_eq_false_iff, decide_eq_false_iff_not,
        beq_eq_false_iff_ne]
      omega
  apply Words.strip_of_trimmed
  exact ⟨fun c hc => hSolid c (List.mem_of_head? hc),
    fun c hc => hSolid c (List.mem_of_getLast? hc)⟩

theorem signed_natAbs (n : Int) :
    signed (decide (n < 0)) n.natAbs = n := by
  unfold signed
  by_cases hNegative : n < 0
  · rw [if_pos (by simpa using hNegative)]
    omega
  · rw [if_neg (by simpa using hNegative)]
    omega

theorem intText_eq (n : Int) :
    intText n = Decimal.signText (decide (n < 0)) ++
      Nat.toDigits 10 n.natAbs := by
  rw [intText_eq_dumpInt]
  cases n with
  | ofNat m => rfl
  | negSucc m =>
      have hNegative : decide (Int.negSucc m < 0) = true :=
        decide_eq_true (Int.negSucc_lt_zero m)
      rw [hNegative]
      rfl

theorem readSign_intText (n : Int) :
    readSign (intText n) =
      (decide (n < 0), Nat.toDigits 10 n.natAbs) := by
  rw [intText_eq]
  cases hDigits : Nat.toDigits 10 n.natAbs with
  | nil => exact absurd hDigits (Decimal.digits_ne_nil _)
  | cons c cs =>
      apply readSign_signText
      apply Decimal.isDigit_of_mem_digits
      rw [hDigits]
      exact List.mem_cons_self

theorem trim_intText (n : Int) : trim (intText n) = intText n :=
  trim_of_numeric fun c hc => by
    rcases mem_intText hc with hSign | hDigit
    · exact .inl hSign
    · exact .inr (.inr hDigit)

theorem isIntegerText_intText (n : Int) :
    isIntegerText (intText n) = true := by
  unfold isIntegerText
  rw [readSign_intText]
  simp only [Bool.and_eq_true, decide_eq_true_eq,
    List.all_eq_true]
  exact ⟨Decimal.digits_ne_nil _,
    fun c hc => Decimal.isDigit_of_mem_digits hc⟩

theorem bigInt_intText (n : Int) : bigInt (intText n) = n := by
  unfold bigInt
  rw [readSign_intText]
  simp only [Nat.ofDigitChars_ten_toDigits]
  exact signed_natAbs n

theorem span_toDigits (n : Nat) :
    (Nat.toDigits 10 n).span Char.isDigit =
      (Nat.toDigits 10 n, []) := by
  have hSpan := @Digits.span_digits (Nat.toDigits 10 n) []
    (fun c hc => Decimal.isDigit_of_mem_digits hc)
    (fun c hc => by cases hc)
  rwa [List.append_nil] at hSpan

/- A printed integer is read as it is. -/
theorem decimalParts_intText (n : Int) :
    decimalParts (intText n) = some ⟨n, 0⟩ := by
  have hText : isDecimalText (intText n) = true := by
    unfold isDecimalText
    simp only [readSign_intText, span_toDigits]
    exact decide_eq_true (Decimal.digits_ne_nil _)
  unfold decimalParts
  simp only [trim_intText, hText, if_true, readSign_intText,
    span_toDigits, List.drop_nil, List.append_nil,
    Nat.ofDigitChars_ten_toDigits, signed_natAbs,
    List.length_nil]

------------------------------------------------------------
-- Decimals
------------------------------------------------------------

theorem span_pointText (m k : Nat) :
    (Decimal.pointText m k).span Char.isDigit =
      (Nat.toDigits 10 (m / 10 ^ k),
        '.' :: Digits.pad k (m % 10 ^ k)) := by
  apply Digits.span_digits
  · exact fun c hc => Decimal.isDigit_of_mem_digits hc
  · intro c hc
    cases hc
    rfl

theorem readSign_pointText
    (negative : Bool)
    (m k : Nat) :
    readSign (Decimal.signText negative ++
      Decimal.pointText m k) =
        (negative, Decimal.pointText m k) := by
  rcases exists_digit_pointText m k with ⟨c, cs, hText, hDigit⟩
  rw [hText]
  exact readSign_signText hDigit

theorem isDecimalText_pointText
    (negative : Bool)
    (m k : Nat) :
    isDecimalText (Decimal.signText negative ++
      Decimal.pointText m k) = true := by
  unfold isDecimalText
  simp only [readSign_pointText, span_pointText,
    decide_true, Bool.true_and, Bool.and_eq_true,
    Bool.or_eq_true, decide_eq_true_eq, List.all_eq_true]
  exact ⟨.inl (Decimal.digits_ne_nil _),
    fun c hc => Digits.isDigit_of_mem_pad hc⟩

theorem trim_pointText
    (negative : Bool)
    (m k : Nat) :
    trim (Decimal.signText negative ++
      Decimal.pointText m k) =
        Decimal.signText negative ++ Decimal.pointText m k :=
  trim_of_numeric fun _ hc =>
    mem_signed (fun _ hPart => mem_pointText hPart) hc

/- What is printed without an exponent is read as it is. -/
theorem decimalParts_pointText
    (negative : Bool)
    (m k : Nat) :
    decimalParts (Decimal.signText negative ++
      Decimal.pointText m k) =
        some ⟨signed negative m, k⟩ := by
  unfold decimalParts
  simp only [trim_pointText, isDecimalText_pointText, if_true,
    readSign_pointText, span_pointText, List.drop_succ_cons,
    List.drop_zero, Digits.ofDigitChars_pointText,
    Digits.length_pad]

/- Decimal texts have digits, signs and points only. -/
theorem mem_of_isDecimalText
    {v : Text}
    {c : Char}
    (h : isDecimalText v = true)
    (hc : c ∈ v) :
    c = '-' ∨ c = '+' ∨ c = '.' ∨ c.isDigit = true := by
  unfold isDecimalText at h
  rw [List.span_eq_takeWhile_dropWhile] at h
  have hUnsigned : ∀ d ∈ (readSign v).2,
      d = '.' ∨ d.isDigit = true := by
    intro d hd
    rw [← List.takeWhile_append_dropWhile
      (p := Char.isDigit) (l := (readSign v).2)] at hd
    rcases List.mem_append.mp hd with hWhole | hRest
    · exact .inr (List.mem_takeWhile_imp hWhole)
    · simp only at h
      split at h
      · rename_i hNil
        rw [hNil] at hRest
        cases hRest
      · rename_i e fraction hCons
        rw [hCons] at hRest
        simp only [Bool.and_eq_true, decide_eq_true_eq,
          List.all_eq_true] at h
        rcases List.mem_cons.mp hRest with rfl | hMem
        · exact .inl h.1.1
        · exact .inr (h.2 d hMem)
  have hSign : c = '-' ∨ c = '+' ∨ c ∈ (readSign v).2 := by
    unfold readSign
    split
    · rcases List.mem_cons.mp hc with rfl | hMem
      · exact .inl rfl
      · exact .inr (.inr hMem)
    · rcases List.mem_cons.mp hc with rfl | hMem
      · exact .inr (.inl rfl)
      · exact .inr (.inr hMem)
    · exact .inr (.inr hc)
  rcases hSign with hMinus | hPlus | hMem
  · exact .inl hMinus
  · exact .inr (.inl hPlus)
  · exact .inr (.inr (hUnsigned c hMem))

/- A stored number is printed with or without an exponent. -/
theorem str_toDecimal
    {n : Numeric}
    (h : 10 ^ 4 ≤ n.unscaled.natAbs) :
    n.toDecimal.str =
      Decimal.signText (decide (n.unscaled < 0)) ++
        Decimal.pointText n.unscaled.natAbs 10 := by
  have hDigits : 4 <
      (Nat.toDigits 10 n.unscaled.natAbs).length := by
    by_contra hFew
    have hLt := (Nat.length_toDigits_le_iff (by decide)
      (by decide)).mp (Nat.not_lt.mp hFew)
    omega
  have hLeft : (-10 : Int) ≤ 0 ∧
      -6 < -10 + ((Nat.toDigits 10
        n.unscaled.natAbs).length : Int) := by
    omega
  unfold Decimal.str
  change Decimal.signText _ ++ (if (-10 : Int) ≤ 0 ∧
    -6 < -10 + ((Nat.toDigits 10 n.unscaled.natAbs).length :
      Int) then _ else _) = _
  rw [if_pos hLeft]
  rfl

theorem exponent_mem_str
    {n : Numeric}
    (h : n.unscaled.natAbs < 10 ^ 4) :
    'E' ∈ n.toDecimal.str := by
  have hDigits : (Nat.toDigits 10
      n.unscaled.natAbs).length ≤ 4 :=
    (Nat.length_toDigits_le_iff (by decide) (by decide)).mpr h
  have hLeft : ¬ ((-10 : Int) ≤ 0 ∧
      -6 < -10 + ((Nat.toDigits 10
        n.unscaled.natAbs).length : Int)) := by
    omega
  unfold Decimal.str
  change 'E' ∈ Decimal.signText _ ++ (if (-10 : Int) ≤ 0 ∧
    -6 < -10 + ((Nat.toDigits 10 n.unscaled.natAbs).length :
      Int) then _ else _)
  rw [if_neg hLeft]
  apply List.mem_append_right
  apply List.mem_append_right
  exact List.mem_cons_self

/- A number of less than five digits is not read. -/
theorem not_isDecimalText_str
    {n : Numeric}
    (h : n.unscaled.natAbs < 10 ^ 4)
    {v : Text}
    (hMem : ∀ c ∈ n.toDecimal.str, isBlank c = false →
      c ∈ v) :
    isDecimalText v = false := by
  refine Bool.eq_false_iff.mpr fun hText => ?_
  have hIn := hMem 'E' (exponent_mem_str h) (by decide)
  rcases mem_of_isDecimalText hText hIn with
    hEq | hEq | hEq | hEq
  all_goals exact absurd hEq (by decide)

end ItemForm
