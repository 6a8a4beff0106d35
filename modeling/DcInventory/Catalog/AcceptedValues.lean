import DcInventory.Catalog.Guards
import DcInventory.Library.Fallible
import Mathlib.Data.List.ReduceOption

/-
  This file proves which values of attributes are accepted,
  and what they are prepared to.

  Key definitions include:
    * `BlankFor`
    * `Represents`
    * `Accepted`
    * `WithinBounds`

  Key theorems include:
    * `Numeric.ofDecimal?_exact`
    * `Numeric.validateDecimalStorage_of_fits`
    * `prepareAttributeValue_some`
    * `validateAttributeValues_eq_ok_iff`
-/

------------------------------------------------------------
-- Results Of Validations
------------------------------------------------------------

section Prepared

variable {U : Unicode}

/- A blank text where a text may be left out. -/
def BlankFor
    (attr : CategoryAttribute)
    (raw : RawValue) : Prop :=
  ∃ v, raw = .str v ∧ Text.strip v = [] ∧
    attr.dataType ≠ .integer ∧ attr.dataType ≠ .boolean

/- The decimal that a value stands for. -/
def rawDecimal? (U : Unicode) : RawValue → Option PyDecimal
| .str v => decimalOfText U (Text.strip v)
| .int n => some (.finite (Decimal.ofInt n))
| .decimal d => some d
| _ => none

/- The text of an attribute after its white space. -/
def keptText
    (attr : CategoryAttribute)
    (v : Text) : Text :=
  if attr.metadata? "preserve_whitespace" =
      some (.bool true) then
    Text.strip v
  else Text.normalize v

/-
  The value is that of the type of its definition, and only
  the column of that type is set.
-/
def Represents
    (U : Unicode)
    (raw : RawValue)
    (p : PreparedAttributeValue) : Prop :=
  let blank := PreparedAttributeValue.blank p.attr
  match p.attr.dataType with
  | .text => ∃ v, raw = .str v ∧ keptText p.attr v ≠ [] ∧
      p = { blank with textValue := some (keptText p.attr v) }
  | .integer => ∃ n, raw = .int n ∧
      p = { blank with integerValue := some n }
  | .decimal => ∃ d, rawDecimal? U raw = some (.finite d) ∧
      p = { blank with decimalValue := some d }
  | .boolean => ∃ b, raw = .bool b ∧
      p = { blank with booleanValue := some b }
  | .enum => ∃ v, raw = .str v ∧ Text.normalize v ≠ [] ∧
      p = { blank with enumValue := some (Text.normalize v) }

/- A setting of the white space that is a boolean. -/
def ConfiguresSpace (attr : CategoryAttribute) : Prop :=
  attr.metadata? "preserve_whitespace" = none ∨
    ∃ b, attr.metadata? "preserve_whitespace" =
      some (.bool b)

theorem preservedText_eq_ok_iff
    {attr : CategoryAttribute}
    {v w : Text} :
    preservedText attr v = .ok w ↔
      ConfiguresSpace attr ∧ w = keptText attr v := by
  unfold preservedText ConfiguresSpace keptText
  constructor
  · intro h
    split at h
    · rename_i hNone
      cases h
      exact ⟨Or.inl hNone, by rw [hNone]; rfl⟩
    · rename_i hFalse
      cases h
      exact ⟨Or.inr ⟨false, hFalse⟩, by rw [hFalse]; rfl⟩
    · rename_i hTrue
      cases h
      exact ⟨Or.inr ⟨true, hTrue⟩, by rw [hTrue]; rfl⟩
    · cases h
  · rintro ⟨hNone | ⟨b, hBool⟩, rfl⟩
    · rw [hNone]
      rfl
    · rw [hBool]
      cases b <;> rfl

/- A text is blank where nothing of it is kept. -/
theorem keptText_eq_nil_iff
    {attr : CategoryAttribute}
    {v : Text} :
    keptText attr v = [] ↔ Text.strip v = [] := by
  unfold keptText
  split
  · rfl
  · exact Text.normalize_eq_nil_iff_strip

/- The texts that are accepted, and what they become. -/
theorem prepareText_eq_some_iff
    {attr : CategoryAttribute}
    {raw : RawValue}
    {p : PreparedAttributeValue} :
    prepareText attr raw = .ok (some p) ↔
      ∃ v, raw = .str v ∧ ConfiguresSpace attr ∧
        keptText attr v ≠ [] ∧
        validateTextLength attr (keptText attr v) = .ok () ∧
        p = { PreparedAttributeValue.blank attr with
          textValue := some (keptText attr v) } := by
  cases raw with
  | str v =>
      rw [prepareText, Except.bind_eq_ok_iff]
      constructor
      · rintro ⟨w, hText, hRest⟩
        rcases preservedText_eq_ok_iff.mp hText with
          ⟨hSpace, rfl⟩
        split at hRest
        · unfold blankValue at hRest
          split at hRest <;> cases hRest
        · rename_i hNe
          rcases Except.bind_eq_ok_iff.mp hRest with
            ⟨_, hLength, hEq⟩
          cases hEq
          exact ⟨v, rfl, hSpace, hNe, hLength, rfl⟩
      · rintro ⟨v', hEq, hSpace, hNe, hLength, rfl⟩
        cases hEq
        refine ⟨keptText attr v,
          preservedText_eq_ok_iff.mpr ⟨hSpace, rfl⟩, ?_⟩
        rw [if_neg hNe, hLength]
        rfl
  | int _ | decimal _ | float _ _ | bool _ =>
      constructor
      · intro h
        cases h
      · rintro ⟨v, hEq, _⟩
        cases hEq

/- Blank texts are left out where they are not required. -/
theorem prepareText_eq_none_iff
    {attr : CategoryAttribute}
    {raw : RawValue} :
    prepareText attr raw = .ok none ↔
      ∃ v, raw = .str v ∧ ConfiguresSpace attr ∧
        Text.strip v = [] ∧ attr.required = false := by
  cases raw with
  | str v =>
      rw [prepareText, Except.bind_eq_ok_iff]
      constructor
      · rintro ⟨w, hText, hRest⟩
        rcases preservedText_eq_ok_iff.mp hText with
          ⟨hSpace, rfl⟩
        split at hRest
        · rename_i hNil
          unfold blankValue at hRest
          split at hRest
          · cases hRest
          · rename_i hOptional
            exact ⟨v, rfl, hSpace, keptText_eq_nil_iff.mp hNil,
              by simpa using hOptional⟩
        · rcases Except.bind_eq_ok_iff.mp hRest with
            ⟨_, _, hEq⟩
          cases hEq
      · rintro ⟨v', hEq, hSpace, hNil, hOptional⟩
        cases hEq
        refine ⟨keptText attr v,
          preservedText_eq_ok_iff.mpr ⟨hSpace, rfl⟩, ?_⟩
        rw [if_pos (keptText_eq_nil_iff.mpr hNil), blankValue,
          hOptional]
        rfl
  | int _ | decimal _ | float _ _ | bool _ =>
      constructor
      · intro h
        cases h
      · rintro ⟨v, hEq, _⟩
        cases hEq

theorem prepareInteger_eq_ok_iff
    {attr : CategoryAttribute}
    {raw : RawValue}
    {out : Option PreparedAttributeValue} :
    prepareInteger U attr raw = .ok out ↔
      ∃ n, raw = .int n ∧ minSafeInteger ≤ n ∧
        n ≤ maxSafeInteger ∧
        validateNumericBounds U attr (Decimal.ofInt n) =
          .ok () ∧
        out = some { PreparedAttributeValue.blank attr with
          integerValue := some n } := by
  cases raw with
  | int n =>
      rw [prepareInteger]
      constructor
      · intro h
        split at h
        · rename_i hRange
          rcases Except.bind_eq_ok_iff.mp h with
            ⟨_, hBounds, hEq⟩
          cases hEq
          exact ⟨n, rfl, hRange.1, hRange.2, hBounds, rfl⟩
        · cases h
      · rintro ⟨n', hEq, hMin, hMax, hBounds, rfl⟩
        cases hEq
        rw [if_pos ⟨hMin, hMax⟩, hBounds]
        rfl
  | str _ | decimal _ | float _ _ | bool _ =>
      constructor
      · intro h
        cases h
      · rintro ⟨n, hEq, _⟩
        cases hEq

theorem prepareFinite_eq_ok_iff
    {attr : CategoryAttribute}
    {d? : Option PyDecimal}
    {out : Option PreparedAttributeValue} :
    prepareFinite U attr d? = .ok out ↔
      ∃ d, d? = some (.finite d) ∧
        validateDecimalStorage attr d = .ok () ∧
        validateNumericBounds U attr d = .ok () ∧
        out = some { PreparedAttributeValue.blank attr with
          decimalValue := some d } := by
  rcases d? with _ | d | _
  · constructor
    · intro h
      cases h
    · rintro ⟨d, hEq, _⟩
      cases hEq
  · rw [prepareFinite, Except.bind_eq_ok_iff]
    constructor
    · rintro ⟨_, hStorage, hRest⟩
      rcases Except.bind_eq_ok_iff.mp hRest with
        ⟨_, hBounds, hEq⟩
      cases hEq
      exact ⟨d, rfl, hStorage, hBounds, rfl⟩
    · rintro ⟨d', hEq, hStorage, hBounds, rfl⟩
      cases hEq
      refine ⟨(), hStorage, ?_⟩
      rw [hBounds]
      rfl
  · constructor
    · intro h
      cases h
    · rintro ⟨d, hEq, _⟩
      cases hEq

/- The decimals that are accepted. -/
theorem prepareDecimal_eq_some
    {attr : CategoryAttribute}
    {raw : RawValue}
    {p : PreparedAttributeValue}
    (h : prepareDecimal U attr raw = .ok (some p)) :
    ∃ d, rawDecimal? U raw = some (.finite d) ∧
      validateDecimalStorage attr d = .ok () ∧
      validateNumericBounds U attr d = .ok () ∧
      p = { PreparedAttributeValue.blank attr with
        decimalValue := some d } := by
  cases raw with
  | str v =>
      rw [prepareDecimal] at h
      split at h
      · unfold blankValue at h
        split at h <;> cases h
      · rcases prepareFinite_eq_ok_iff.mp h with
          ⟨d, hText, hStorage, hBounds, hEq⟩
        exact ⟨d, hText, hStorage, hBounds,
          Option.some.inj hEq⟩
  | int n =>
      rcases Except.bind_eq_ok_iff.mp h with ⟨_, _, hRest⟩
      rcases prepareFinite_eq_ok_iff.mp hRest with
        ⟨d, hInt, hStorage, hBounds, hEq⟩
      exact ⟨d, hInt, hStorage, hBounds, Option.some.inj hEq⟩
  | decimal d =>
      rcases prepareFinite_eq_ok_iff.mp h with
        ⟨d', hValue, hStorage, hBounds, hEq⟩
      exact ⟨d', hValue, hStorage, hBounds,
        Option.some.inj hEq⟩
  | float _ _ | bool _ => cases h

theorem prepareDecimal_eq_none
    {attr : CategoryAttribute}
    {raw : RawValue}
    (h : prepareDecimal U attr raw = .ok none) :
    ∃ v, raw = .str v ∧ Text.strip v = [] ∧
      attr.required = false := by
  cases raw with
  | str v =>
      rw [prepareDecimal] at h
      split at h
      · rename_i hNil
        unfold blankValue at h
        split at h
        · cases h
        · rename_i hOptional
          exact ⟨v, rfl, hNil, by simpa using hOptional⟩
      · rcases prepareFinite_eq_ok_iff.mp h with
          ⟨d, _, _, _, hEq⟩
        cases hEq
  | int n =>
      rcases Except.bind_eq_ok_iff.mp h with ⟨_, _, hRest⟩
      rcases prepareFinite_eq_ok_iff.mp hRest with
        ⟨d, _, _, _, hEq⟩
      cases hEq
  | decimal d =>
      rcases prepareFinite_eq_ok_iff.mp h with
        ⟨d', _, _, _, hEq⟩
      cases hEq
  | float _ _ | bool _ => cases h

theorem prepareBoolean_eq_ok_iff
    {attr : CategoryAttribute}
    {raw : RawValue}
    {out : Option PreparedAttributeValue} :
    prepareBoolean attr raw = .ok out ↔
      ∃ b, raw = .bool b ∧
        out = some { PreparedAttributeValue.blank attr with
          booleanValue := some b } := by
  cases raw with
  | bool b =>
      rw [prepareBoolean]
      constructor
      · intro h
        cases h
        exact ⟨b, rfl, rfl⟩
      · rintro ⟨b', hEq, rfl⟩
        cases hEq
        rfl
  | str _ | int _ | decimal _ | float _ _ =>
      constructor
      · intro h
        cases h
      · rintro ⟨b, hEq, _⟩
        cases hEq

theorem prepareEnum_eq_some_iff
    {attr : CategoryAttribute}
    {raw : RawValue}
    {p : PreparedAttributeValue} :
    prepareEnum attr raw = .ok (some p) ↔
      ∃ v allowed, raw = .str v ∧ Text.normalize v ≠ [] ∧
        attr.allowedTexts? = some allowed ∧
        Text.normalize v ∈ allowed ∧
        p = { PreparedAttributeValue.blank attr with
          enumValue := some (Text.normalize v) } := by
  cases raw with
  | str v =>
      rw [prepareEnum]
      constructor
      · intro h
        simp only at h
        split at h
        · unfold blankValue at h
          split at h <;> cases h
        · rename_i hNe
          split at h
          · cases h
          · rename_i allowed hAllowed
            split at h
            · rename_i hMem
              cases h
              exact ⟨v, allowed, rfl, hNe, hAllowed, hMem,
                rfl⟩
            · cases h
      · rintro ⟨v', allowed, hEq, hNe, hAllowed, hMem, rfl⟩
        cases hEq
        simp only [if_neg hNe, hAllowed, if_pos hMem]
  | int _ | decimal _ | float _ _ | bool _ =>
      constructor
      · intro h
        cases h
      · rintro ⟨v, allowed, hEq, _⟩
        cases hEq

theorem prepareEnum_eq_none_iff
    {attr : CategoryAttribute}
    {raw : RawValue} :
    prepareEnum attr raw = .ok none ↔
      ∃ v, raw = .str v ∧ Text.strip v = [] ∧
        attr.required = false := by
  cases raw with
  | str v =>
      rw [prepareEnum]
      constructor
      · intro h
        simp only at h
        split at h
        · rename_i hNil
          unfold blankValue at h
          split at h
          · cases h
          · rename_i hOptional
            exact ⟨v, rfl,
              Text.normalize_eq_nil_iff_strip.mp hNil,
              by simpa using hOptional⟩
        · split at h
          · cases h
          · split at h <;> cases h
      · rintro ⟨v', hEq, hNil, hOptional⟩
        cases hEq
        have hBlank := Text.normalize_eq_nil_iff_strip.mpr hNil
        simp only [if_pos hBlank, blankValue, hOptional]
        rfl
  | int _ | decimal _ | float _ _ | bool _ =>
      constructor
      · intro h
        cases h
      · rintro ⟨v, hEq, _⟩
        cases hEq

end Prepared

------------------------------------------------------------
-- Stored Numbers
------------------------------------------------------------

namespace Decimal

/- The coefficient has no more digits than it needs. -/
theorem digitCount_le_iff
    {d : Decimal}
    {k : Nat}
    (hk : 0 < k) :
    d.digitCount ≤ k ↔ d.coefficient < 10 ^ k :=
  Nat.length_toDigits_le_iff (by decide) hk

theorem digitCount_pos (d : Decimal) : 0 < d.digitCount :=
  Nat.length_toDigits_pos

/- Zeros at the end of the fraction could be left out. -/
def Superfluous (d : Decimal) : Prop :=
  d.exponent < 0 ∧ d.coefficient % 10 = 0

end Decimal

theorem validateDecimalStorage_eq_ok_iff
    {attr : CategoryAttribute}
    {d : Decimal} :
    validateDecimalStorage attr d = .ok () ↔
      -10 ≤ d.exponent ∧
        (d.coefficient ≠ 0 →
          (d.digitCount : Int) + d.exponent ≤ 20) := by
  have hScale : (maxDecimalScale : Int) = 10 := rfl
  have hWhole : (maxDecimalIntegralDigits : Int) = 20 := rfl
  unfold validateDecimalStorage Decimal.fractionalDigits
    Decimal.integerDigits
  rw [hScale, hWhole]
  constructor
  · intro h
    by_cases hFraction : (10 : Int) < max (-d.exponent) 0
    · rw [if_pos hFraction] at h
      cases h
    · rw [if_neg hFraction] at h
      refine ⟨by omega, ?_⟩
      intro hNe
      rw [if_neg hNe] at h
      split at h
      · cases h
      · omega
  · rintro ⟨hFraction, hInteger⟩
    rw [if_neg (by omega), if_neg]
    by_cases hZero : d.coefficient = 0
    · rw [if_pos hZero]
      decide
    · have hDigits := hInteger hZero
      rw [if_neg hZero]
      omega

namespace Numeric

/- No digit is lost where ten digits follow the point. -/
theorem unscaledOf_eq
    {d : Decimal}
    (h : -10 ≤ d.exponent) :
    ((unscaledOf d : Int) : ℚ) =
      d.value * 10 ^ maxDecimalScale := by
  have hScale : (maxDecimalScale : Int) = 10 := rfl
  unfold unscaledOf Decimal.value
  rw [hScale, if_pos h]
  have hNat : ((d.exponent + 10).toNat : Int) =
      d.exponent + 10 := Int.toNat_of_nonneg (by omega)
  have hPower : (10 : ℚ) ^ d.exponent * 10 ^ maxDecimalScale =
      10 ^ (d.exponent + 10).toNat := by
    rw [← zpow_natCast, ← zpow_natCast (10 : ℚ)
      (d.exponent + 10).toNat, hNat, ← zpow_add₀ (by norm_num)]
    rfl
  rw [mul_assoc, hPower]
  cases d.negative
  · push_cast
    simp
  · push_cast
    simp

theorem natAbs_unscaledOf
    {d : Decimal}
    (h : -10 ≤ d.exponent) :
    (unscaledOf d).natAbs =
      d.coefficient * 10 ^ (d.exponent + 10).toNat := by
  have hScale : (maxDecimalScale : Int) = 10 := rfl
  unfold unscaledOf
  rw [hScale, if_pos h]
  cases d.negative
  · rfl
  · exact Int.natAbs_neg _

/- Accepted decimals fit into their column. -/
theorem natAbs_unscaledOf_lt
    {attr : CategoryAttribute}
    {d : Decimal}
    (h : validateDecimalStorage attr d = .ok ()) :
    (unscaledOf d).natAbs < 10 ^ 30 := by
  rcases validateDecimalStorage_eq_ok_iff.mp h with
    ⟨hScale, hDigits⟩
  rw [natAbs_unscaledOf hScale]
  by_cases hZero : d.coefficient = 0
  · rw [hZero, Nat.zero_mul]
    norm_num
  · have hLt := (Decimal.digitCount_le_iff
      (Decimal.digitCount_pos d)).mp le_rfl
    have hSum : d.digitCount + (d.exponent + 10).toNat ≤ 30 := by
      have := hDigits hZero
      omega
    calc d.coefficient * 10 ^ (d.exponent + 10).toNat
        < 10 ^ d.digitCount * 10 ^ (d.exponent + 10).toNat :=
          Nat.mul_lt_mul_of_pos_right hLt (by positivity)
      _ = 10 ^ (d.digitCount + (d.exponent + 10).toNat) :=
          (pow_add 10 _ _).symm
      _ ≤ 10 ^ 30 := Nat.pow_le_pow_right (by decide) hSum

theorem value_toDecimal (n : Numeric) :
    n.toDecimal.value = n.value :=
  Decimal.value_scaled n.unscaled maxDecimalScale

/- Accepted decimals are stored without rounding. -/
theorem ofDecimal?_exact
    {attr : CategoryAttribute}
    {d : Decimal}
    (h : validateDecimalStorage attr d = .ok ()) :
    ∃ n, ofDecimal? d = some n ∧ n.value = d.value := by
  have hLt := natAbs_unscaledOf_lt h
  have hScale := (validateDecimalStorage_eq_ok_iff.mp h).1
  refine ⟨⟨unscaledOf d, hLt⟩, dif_pos hLt, ?_⟩
  change ((unscaledOf d : Int) : ℚ) / 10 ^ maxDecimalScale = _
  rw [unscaledOf_eq hScale]
  exact mul_div_cancel_right₀ _ (by positivity)

/- What a column can hold is accepted as it is written. -/
theorem validateDecimalStorage_of_fits
    {attr : CategoryAttribute}
    {d : Decimal}
    {n : Numeric}
    (hPlain : ¬ d.Superfluous)
    (hValue : n.value = d.value) :
    validateDecimalStorage attr d = .ok () := by
  have hFits := n.fits
  have hAbs : ((n.unscaled.natAbs : Nat) : ℚ) =
      d.coefficient * 10 ^ (d.exponent + 10) := by
    have hScaled : (n.unscaled : ℚ) =
        d.value * 10 ^ maxDecimalScale := by
      have hScale : (10 : ℚ) ^ maxDecimalScale ≠ 0 := by
        positivity
      rw [← hValue, value]
      exact (div_mul_cancel₀ _ hScale).symm
    rw [Nat.cast_natAbs, Int.cast_abs, hScaled, Decimal.value,
      abs_mul, abs_mul, abs_mul, zpow_add₀ (by norm_num)]
    have hSign : |(if d.negative = true then (-1 : ℚ) else 1)| =
        1 := by
      split <;> norm_num
    have hPower : |(10 : ℚ) ^ d.exponent| =
        10 ^ d.exponent :=
      abs_of_pos (zpow_pos (by norm_num) d.exponent)
    have hScale : |(10 : ℚ) ^ maxDecimalScale| =
        10 ^ (10 : Int) := by
      rw [abs_of_pos (by positivity)]
      rfl
    rw [hSign, hPower, hScale, Nat.abs_cast]
    ring
  have hExponent : -10 ≤ d.exponent := by
    by_contra hSmall
    -- the last digit would be a superfluous zero
    apply hPlain
    refine ⟨by omega, ?_⟩
    have hNat : ((-(d.exponent + 10)).toNat : Int) =
        -(d.exponent + 10) := Int.toNat_of_nonneg (by omega)
    have hCast : ((n.unscaled.natAbs *
        10 ^ (-(d.exponent + 10)).toNat : Nat) : ℚ) =
          d.coefficient := by
      push_cast
      rw [hAbs, ← zpow_natCast, hNat, mul_assoc,
        ← zpow_add₀ (by norm_num)]
      simp
    have hEq : n.unscaled.natAbs *
        10 ^ (-(d.exponent + 10)).toNat = d.coefficient := by
      exact_mod_cast hCast
    have hSucc : (-(d.exponent + 10)).toNat =
        (-(d.exponent + 10)).toNat - 1 + 1 := by omega
    rw [← hEq, hSucc, pow_succ, ← mul_assoc]
    exact Nat.mul_mod_left _ 10
  apply validateDecimalStorage_eq_ok_iff.mpr
  refine ⟨hExponent, ?_⟩
  intro hNe
  have hNat : ((d.exponent + 10).toNat : Int) =
      d.exponent + 10 := Int.toNat_of_nonneg (by omega)
  have hEq : n.unscaled.natAbs =
      d.coefficient * 10 ^ (d.exponent + 10).toNat := by
    have hCast : ((n.unscaled.natAbs : Nat) : ℚ) =
        ((d.coefficient *
          10 ^ (d.exponent + 10).toNat : Nat) : ℚ) := by
      push_cast
      rw [hAbs, ← zpow_natCast, hNat]
    exact_mod_cast hCast
  by_contra hLong
  have hSome := d.digitCount_pos
  have hDigits : ¬ d.digitCount ≤
      30 - (d.exponent + 10).toNat := by omega
  by_cases hRoom : 0 < 30 - (d.exponent + 10).toNat
  · rw [Decimal.digitCount_le_iff hRoom, not_lt] at hDigits
    have hBig : 10 ^ 30 ≤ n.unscaled.natAbs := by
      rw [hEq]
      calc 10 ^ 30
          = 10 ^ (30 - (d.exponent + 10).toNat) *
            10 ^ (d.exponent + 10).toNat := by
              rw [← pow_add]
              congr 1
              omega
        _ ≤ _ := Nat.mul_le_mul_right _ hDigits
    omega
  · have hBig : 10 ^ 30 ≤ n.unscaled.natAbs := by
      rw [hEq]
      calc 10 ^ 30
          ≤ 10 ^ (d.exponent + 10).toNat :=
            Nat.pow_le_pow_right (by decide) (by omega)
        _ ≤ _ := Nat.le_mul_of_pos_left _ (by omega)
    omega

end Numeric

------------------------------------------------------------
-- Single Values
------------------------------------------------------------

section Values

variable {U : Unicode}

/- A value between the bounds of its definition. -/
def WithinBounds
    (U : Unicode)
    (attr : CategoryAttribute)
    (d : Decimal) : Prop :=
  ∃ lower upper, numericMetadata U attr "min" = .ok lower ∧
    numericMetadata U attr "max" = .ok upper ∧
    (∀ b, lower = some b → b.value ≤ d.value) ∧
    (∀ b, upper = some b → d.value ≤ b.value)

theorem validateMinimum_eq_ok_iff
    {attr : CategoryAttribute}
    {d : Decimal}
    {lower : Option Decimal} :
    validateMinimum attr d lower = .ok () ↔
      ∀ b, lower = some b → b.value ≤ d.value := by
  cases lower with
  | none => simp [validateMinimum]
  | some b =>
      rw [validateMinimum]
      by_cases hLow : d.value < b.value
      · simp [hLow]
      · simp [hLow, not_lt.mp hLow]

theorem validateMaximum_eq_ok_iff
    {attr : CategoryAttribute}
    {d : Decimal}
    {upper : Option Decimal} :
    validateMaximum attr d upper = .ok () ↔
      ∀ b, upper = some b → d.value ≤ b.value := by
  cases upper with
  | none => simp [validateMaximum]
  | some b =>
      rw [validateMaximum]
      by_cases hHigh : b.value < d.value
      · simp [hHigh]
      · simp [hHigh, not_lt.mp hHigh]

theorem validateNumericBounds_eq_ok_iff
    {attr : CategoryAttribute}
    {d : Decimal} :
    validateNumericBounds U attr d = .ok () ↔
      WithinBounds U attr d := by
  unfold validateNumericBounds WithinBounds
  simp only [Except.bind_eq_ok_iff,
    ← @validateMinimum_eq_ok_iff attr,
    ← @validateMaximum_eq_ok_iff attr]
  constructor
  · rintro ⟨lower, hLower, upper, hUpper, _, hMin, hMax⟩
    exact ⟨lower, upper, hLower, hUpper, hMin, hMax⟩
  · rintro ⟨lower, upper, hLower, hUpper, hMin, hMax⟩
    exact ⟨lower, hLower, upper, hUpper, (), hMin, hMax⟩

/- What is known of a value that is accepted. -/
structure Accepted
    (U : Unicode)
    (attr : CategoryAttribute)
    (raw : RawValue)
    (p : PreparedAttributeValue) : Prop where
  definition : p.attr = attr
  represents : Represents U raw p
  integer : ∀ n, p.integerValue = some n →
    minSafeInteger ≤ n ∧ n ≤ maxSafeInteger
  decimal : ∀ d, p.decimalValue = some d →
    validateDecimalStorage attr d = .ok ()
  enum : ∀ v, p.enumValue = some v →
    ∃ allowed, attr.allowedTexts? = some allowed ∧
      v ∈ allowed

theorem prepareAttributeValue_some
    {attr : CategoryAttribute}
    {raw : RawValue}
    {p : PreparedAttributeValue}
    (h : prepareAttributeValue U attr raw = .ok (some p)) :
    Accepted U attr raw p := by
  unfold prepareAttributeValue at h
  split at h
  · rename_i hType
    rcases prepareText_eq_some_iff.mp h with
      ⟨v, rfl, _, hNe, _, rfl⟩
    constructor
    · rfl
    · unfold Represents
      simp only [PreparedAttributeValue.blank, hType]
      exact ⟨v, rfl, hNe, rfl⟩
    all_goals
      intro x hx
      cases hx
  · rename_i hType
    rcases prepareInteger_eq_ok_iff.mp h with
      ⟨n, rfl, hMin, hMax, _, hEq⟩
    cases hEq
    constructor
    · rfl
    · unfold Represents
      simp only [PreparedAttributeValue.blank, hType]
      exact ⟨n, rfl, rfl⟩
    · intro n' hn
      cases hn
      exact ⟨hMin, hMax⟩
    all_goals
      intro x hx
      cases hx
  · rename_i hType
    rcases prepareDecimal_eq_some h with
      ⟨d, hRaw, hStorage, _, rfl⟩
    constructor
    · rfl
    · unfold Represents
      simp only [PreparedAttributeValue.blank, hType]
      exact ⟨d, hRaw, rfl⟩
    · intro n hn
      cases hn
    · intro d' hd
      cases hd
      exact hStorage
    · intro v hv
      cases hv
  · rename_i hType
    rcases prepareBoolean_eq_ok_iff.mp h with ⟨b, rfl, hEq⟩
    cases hEq
    constructor
    · rfl
    · unfold Represents
      simp only [PreparedAttributeValue.blank, hType]
      exact ⟨b, rfl, rfl⟩
    all_goals
      intro x hx
      cases hx
  · rename_i hType
    rcases prepareEnum_eq_some_iff.mp h with
      ⟨v, allowed, rfl, hNe, hAllowed, hMem, rfl⟩
    constructor
    · rfl
    · unfold Represents
      simp only [PreparedAttributeValue.blank, hType]
      exact ⟨v, rfl, hNe, rfl⟩
    · intro n hn
      cases hn
    · intro d hd
      cases hd
    · intro v' hv
      cases hv
      exact ⟨allowed, hAllowed, hMem⟩

theorem prepareAttributeValue_none
    {attr : CategoryAttribute}
    {raw : RawValue}
    (h : prepareAttributeValue U attr raw = .ok none) :
    BlankFor attr raw ∧ attr.required = false := by
  unfold prepareAttributeValue at h
  split at h
  · rename_i hType
    rcases prepareText_eq_none_iff.mp h with
      ⟨v, hRaw, _, hNil, hOptional⟩
    exact ⟨⟨v, hRaw, hNil, by simp [hType], by simp [hType]⟩,
      hOptional⟩
  · rcases prepareInteger_eq_ok_iff.mp h with
      ⟨n, _, _, _, _, hEq⟩
    cases hEq
  · rename_i hType
    rcases prepareDecimal_eq_none h with
      ⟨v, hRaw, hNil, hOptional⟩
    exact ⟨⟨v, hRaw, hNil, by simp [hType], by simp [hType]⟩,
      hOptional⟩
  · rcases prepareBoolean_eq_ok_iff.mp h with ⟨b, _, hEq⟩
    cases hEq
  · rename_i hType
    rcases prepareEnum_eq_none_iff.mp h with
      ⟨v, hRaw, hNil, hOptional⟩
    exact ⟨⟨v, hRaw, hNil, by simp [hType], by simp [hType]⟩,
      hOptional⟩

/- Integers that a column can hold have few digits. -/
theorem intStr_of_storage
    {attr : CategoryAttribute}
    {n : Int}
    (h : validateDecimalStorage attr (Decimal.ofInt n) =
      .ok ()) :
    intStr n = .ok (Json.dumpInt n) := by
  have hDigits := (validateDecimalStorage_eq_ok_iff.mp h).2
  unfold intStr
  apply if_neg
  by_cases hZero : (Decimal.ofInt n).coefficient = 0
  · have hAbs : n.natAbs = 0 := hZero
    rw [hAbs]
    decide
  · have hFew := hDigits hZero
    change ((Nat.toDigits 10 n.natAbs).length : Int) + 0 ≤ 20
      at hFew
    omega

/- A decimal is accepted as it is written. -/
theorem prepareDecimal_of_finite
    {attr : CategoryAttribute}
    {raw : RawValue}
    {d : Decimal}
    (hRaw : rawDecimal? U raw = some (.finite d))
    (hStorage : validateDecimalStorage attr d = .ok ())
    (hBounds : validateNumericBounds U attr d = .ok ()) :
    prepareDecimal U attr raw =
      .ok (some { PreparedAttributeValue.blank attr with
        decimalValue := some d }) := by
  have hFinite : prepareFinite U attr (some (.finite d)) = _ :=
    prepareFinite_eq_ok_iff.mpr
      ⟨d, rfl, hStorage, hBounds, rfl⟩
  cases raw with
  | str v =>
      have hText : decimalOfText U (Text.strip v) =
          some (.finite d) := hRaw
      have hNe : Text.strip v ≠ [] := by
        intro hNil
        rw [hNil] at hText
        cases hText
      rw [prepareDecimal, if_neg hNe, hText]
      exact hFinite
  | int n =>
      cases hRaw
      rw [prepareDecimal, intStr_of_storage hStorage]
      exact hFinite
  | decimal d' =>
      cases hRaw
      exact hFinite
  | float _ _ | bool _ => cases hRaw

end Values

------------------------------------------------------------
-- Maps Of Values
------------------------------------------------------------

section Maps

variable {U : Unicode}
variable {definitions : List CategoryAttribute}

theorem definitionOf_some
    {key : Text}
    {a : CategoryAttribute}
    (h : definitionOf definitions key = some a) :
    a ∈ definitions ∧ a.key = key :=
  ⟨List.mem_reverse.mp (Table.mem_of_find h),
    Table.key_of_find h⟩

theorem definitionOf_of_mem
    (hKeys : (definitions.map CategoryAttribute.key).Nodup)
    {a : CategoryAttribute}
    (ha : a ∈ definitions) :
    definitionOf definitions a.key = some a := by
  apply Table.find_of_mem
  · rw [List.map_reverse]
    exact List.nodup_reverse.mpr hKeys
  · exact List.mem_reverse.mpr ha

/- What an entry of the supplied map is prepared to. -/
def Prepares
    (U : Unicode)
    (definitions : List CategoryAttribute)
    (entry : Text × RawValue)
    (out : Option PreparedAttributeValue) : Prop :=
  ∃ a, definitionOf definitions entry.1 = some a ∧
    prepareAttributeValue U a entry.2 = .ok out

/- Every entry is prepared, in the order of the map. -/
theorem prepareAll_eq_ok_iff
    {entries : List (Text × RawValue)}
    {values : List PreparedAttributeValue} :
    prepareAll U definitions entries = .ok values ↔
      ∃ outs, List.Forall₂ (Prepares U definitions)
        entries outs ∧ values = outs.reduceOption := by
  induction entries generalizing values with
  | nil =>
      constructor
      · intro h
        cases h
        exact ⟨[], List.Forall₂.nil, rfl⟩
      · rintro ⟨outs, hAll, rfl⟩
        cases hAll
        rfl
  | cons e es ih =>
      rcases e with ⟨key, raw⟩
      rw [prepareAll]
      constructor
      · intro h
        split at h
        · cases h
        · rename_i a hDef
          rcases Except.bind_eq_ok_iff.mp h with
            ⟨out, hOut, hRest⟩
          rcases Except.bind_eq_ok_iff.mp hRest with
            ⟨others, hOthers, hEq⟩
          rcases ih.mp hOthers with ⟨outs, hAll, rfl⟩
          refine ⟨out :: outs,
            List.Forall₂.cons ⟨a, hDef, hOut⟩ hAll, ?_⟩
          cases hEq
          cases out <;> rfl
      · rintro ⟨outs, hAll, rfl⟩
        cases hAll with
        | @cons _ out _ others hHead hTail =>
            rcases hHead with ⟨a, hDef, hOut⟩
            rw [hDef]
            simp only [hOut, Except.ok_bind,
              ih.mpr ⟨others, hTail, rfl⟩]
            cases out <;> rfl

/- Values come from entries, and entries give values. -/
theorem mem_prepareAll
    {entries : List (Text × RawValue)}
    {outs : List (Option PreparedAttributeValue)}
    (h : List.Forall₂ (Prepares U definitions) entries outs)
    {p : PreparedAttributeValue} :
    p ∈ outs.reduceOption ↔
      ∃ e ∈ entries, Prepares U definitions e (some p) := by
  rw [List.reduceOption_mem_iff]
  induction h with
  | nil => simp
  | @cons e out es outs hHead _ ih =>
      rw [List.mem_cons, ih]
      constructor
      · rintro (rfl | ⟨e', he', hPrep⟩)
        · exact ⟨e, List.mem_cons_self, hHead⟩
        · exact ⟨e', List.mem_cons_of_mem e he', hPrep⟩
      · rintro ⟨e', he', hPrep⟩
        rcases List.mem_cons.mp he' with rfl | hTail
        · rcases hHead with ⟨a, hDef, hOut⟩
          rcases hPrep with ⟨a', hDef', hOut'⟩
          rw [hDef] at hDef'
          cases hDef'
          rw [hOut] at hOut'
          cases hOut'
          exact Or.inl rfl
        · exact Or.inr ⟨e', hTail, hPrep⟩

/- The value of an entry has the key of the entry. -/
theorem Prepares.accepted
    {e : Text × RawValue}
    {p : PreparedAttributeValue}
    (h : Prepares U definitions e (some p)) :
    p.attr ∈ definitions ∧ p.attr.key = e.1 ∧
      Accepted U p.attr e.2 p := by
  rcases h with ⟨a, hDef, hOut⟩
  have hAccepted := prepareAttributeValue_some hOut
  rcases definitionOf_some hDef with ⟨hMem, hKey⟩
  rw [hAccepted.definition]
  exact ⟨hMem, hKey, hAccepted⟩

/- The keys of the values are keys of the map, in order. -/
theorem keys_prepareAll
    {entries : List (Text × RawValue)}
    {outs : List (Option PreparedAttributeValue)}
    (h : List.Forall₂ (Prepares U definitions) entries outs) :
    (outs.reduceOption.map (fun p => p.attr.key)).Sublist
      (entries.map Prod.fst) := by
  induction h with
  | nil => exact List.Sublist.slnil
  | @cons e out es outs hHead _ ih =>
      cases out with
      | none => exact List.Sublist.cons _ ih
      | some p =>
          rw [List.reduceOption_cons_of_some, List.map_cons,
            List.map_cons, hHead.accepted.2.1]
          exact List.Sublist.cons_cons _ ih

/- A map is accepted entry by entry. -/
theorem validateAttributeValues_eq_ok_iff
    {categoryId : Uuid}
    {supplied : Dictionary Text RawValue}
    {values : List PreparedAttributeValue} :
    validateAttributeValues U categoryId definitions
        supplied = .ok values ↔
      (∀ a ∈ definitions, a.categoryId = categoryId) ∧
      (∀ key ∈ supplied.keys,
        ∃ a ∈ definitions, a.key = key) ∧
      (∀ a ∈ definitions, a.required = true →
        a.key ∈ supplied.keys) ∧
      prepareAll U definitions supplied.entries =
        .ok values := by
  unfold validateAttributeValues
  cases hCross : definitions.find? (fun a =>
      a.categoryId ≠ categoryId) with
  | some a =>
      have hMem := List.mem_of_find?_eq_some hCross
      have hNe : a.categoryId ≠ categoryId := by
        simpa using List.find?_some hCross
      constructor
      · intro h
        cases h
      · rintro ⟨hSame, _⟩
        exact absurd (hSame a hMem) hNe
  | none =>
      have hSame : ∀ a ∈ definitions,
          a.categoryId = categoryId := by
        simpa using hCross
      simp only
      rw [and_iff_right hSame]
      constructor
      · intro h
        split at h
        · cases h
        · rename_i hKnown
          split at h
          · cases h
          · rename_i hRequired
            refine ⟨?_, ?_, h⟩
            · simpa using hKnown
            · simpa using hRequired
      · rintro ⟨hKnown, hRequired, h⟩
        rw [if_neg, if_neg]
        · exact h
        · simpa using hRequired
        · simpa using hKnown

end Maps
