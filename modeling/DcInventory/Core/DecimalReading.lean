import DcInventory.Core.DecimalText
import DcInventory.Core.Numbers

/-
  This file proves that a decimal which is written without an
  exponent is read as it was.

  Key theorems include:
    * `Digits.ofDigitChars_pointText`
    * `Digits.span_digits`
    * `decimalOfText_pointText`
-/

------------------------------------------------------------
-- Digits
------------------------------------------------------------

namespace Digits

theorem ofDigitChars_pad
    (k n init : Nat) :
    Nat.ofDigitChars 10 (pad k n) init =
      init * 10 ^ k + n % 10 ^ k := by
  induction k generalizing n with
  | zero => simp [pad, Nat.mod_one]
  | succ k ih =>
      have hLast : n % 10 < 10 := Nat.mod_lt n (by decide)
      have hSplit := Nat.mod_mul (x := n) (a := 10) (b := 10 ^ k)
      rw [pad, Nat.ofDigitChars_append, ih,
        Nat.ofDigitChars_cons_digitChar_of_lt_ten hLast,
        Nat.ofDigitChars_nil, Nat.pow_succ',
        hSplit]
      ring

/- The digits on both sides of the point are those of `m`. -/
theorem ofDigitChars_pointText (m k : Nat) :
    Nat.ofDigitChars 10 (Nat.toDigits 10 (m / 10 ^ k) ++
      pad k (m % 10 ^ k)) 0 = m := by
  rw [Nat.ofDigitChars_append, Nat.ofDigitChars_ten_toDigits,
    ofDigitChars_pad, Nat.mod_mod]
  exact Nat.div_add_mod' m (10 ^ k)

/- Digits are read up to what is none. -/
theorem span_digits
    {ds rest : List Char}
    (hDigits : ∀ c ∈ ds, c.isDigit = true)
    (hRest : ∀ c, rest.head? = some c → c.isDigit = false) :
    (ds ++ rest).span Char.isDigit = (ds, rest) := by
  rw [List.span_eq_takeWhile_dropWhile,
    List.takeWhile_append_of_pos hDigits,
    List.dropWhile_append_of_pos hDigits]
  cases rest with
  | nil => simp
  | cons c cs =>
      have hHead := hRest c rfl
      simp [hHead]

end Digits

------------------------------------------------------------
-- Signs
------------------------------------------------------------

/- Before a digit there is the sign that was written. -/
theorem readSign_signText
    {negative : Bool}
    {c : Char}
    {cs : Text}
    (hDigit : c.isDigit = true) :
    readSign (Decimal.signText negative ++ c :: cs) =
      (negative, c :: cs) := by
  cases negative with
  | true => rfl
  | false =>
      change readSign (c :: cs) = _
      unfold readSign
      split
      · rename_i h
        rw [(List.cons.inj h).1] at hDigit
        exact absurd hDigit (by decide)
      · rename_i h
        rw [(List.cons.inj h).1] at hDigit
        exact absurd hDigit (by decide)
      · rfl

/- A digit begins the whole part. -/
theorem exists_digit_pointText (m k : Nat) :
    ∃ c cs, Decimal.pointText m k = c :: cs ∧
      c.isDigit = true := by
  unfold Decimal.pointText
  cases hDigits : Nat.toDigits 10 (m / 10 ^ k) with
  | nil => exact absurd hDigits (Decimal.digits_ne_nil _)
  | cons c cs =>
      refine ⟨c, _, rfl, ?_⟩
      apply Decimal.isDigit_of_mem_digits
      rw [hDigits]
      exact List.mem_cons_self

/- What a number without an exponent is written with. -/
theorem mem_pointText
    {m k : Nat}
    {c : Char}
    (hc : c ∈ Decimal.pointText m k) :
    c = '.' ∨ c.isDigit = true := by
  unfold Decimal.pointText at hc
  rcases List.mem_append.mp hc with hWhole | hFraction
  · exact .inr (Decimal.isDigit_of_mem_digits hWhole)
  · rcases List.mem_cons.mp hFraction with rfl | hPad
    · exact .inl rfl
    · exact .inr (Digits.isDigit_of_mem_pad hPad)

theorem mem_unsignedText
    {m k : Nat}
    {c : Char}
    (hc : c ∈ Decimal.unsignedText m k) :
    c = '.' ∨ c.isDigit = true := by
  unfold Decimal.unsignedText at hc
  split at hc
  · exact .inr (Decimal.isDigit_of_mem_digits hc)
  · exact mem_pointText hc

theorem mem_signed
    {negative : Bool}
    {v : Text}
    (hChars : ∀ c ∈ v, c = '.' ∨ c.isDigit = true)
    {c : Char}
    (hc : c ∈ Decimal.signText negative ++ v) :
    c = '-' ∨ c = '.' ∨ c.isDigit = true := by
  rcases List.mem_append.mp hc with hSign | hPart
  · cases negative with
    | true => exact .inl (List.mem_singleton.mp hSign)
    | false => cases hSign
  · exact .inr (hChars c hPart)

------------------------------------------------------------
-- Reading
------------------------------------------------------------

section Reading

variable {U : Unicode}

/- ASCII without underscores is read as it is. -/
theorem numericAsAscii_ascii
    {v : Text}
    (h : ∀ c ∈ v, 0 < c.toNat ∧ c.toNat ≤ 127 ∧ c ≠ '_') :
    numericAsAscii U v = some v := by
  induction v with
  | nil => rfl
  | cons c cs ih =>
      rcases h c List.mem_cons_self with ⟨hLow, hHigh, hNe⟩
      have hTail := ih fun d hd =>
        h d (List.mem_cons_of_mem c hd)
      rw [numericAsAscii, if_neg hNe, if_pos ⟨hLow, hHigh⟩,
        hTail]
      rfl

theorem code_of_isDigit
    {c : Char}
    (h : c.isDigit = true) :
    48 ≤ c.toNat ∧ c.toNat ≤ 57 := by
  simpa [Char.isDigit, UInt32.le_iff_toNat_le] using h

theorem toLower_of_isDigit
    {c : Char}
    (h : c.isDigit = true) :
    c.toLower = c := by
  have hCode := code_of_isDigit h
  unfold Char.toLower
  split
  · rename_i hUpper
    have hLow : 65 ≤ c.toNat := by
      simpa [UInt32.le_iff_toNat_le] using hUpper.1
    omega
  · rfl

/- No special value begins with a digit. -/
theorem isSpecialText_digit
    {c : Char}
    {cs : Text}
    (h : c.isDigit = true) :
    isSpecialText (c :: cs) = false := by
  have hNe : ∀ d : Char, d.isDigit = false → c ≠ d := by
    rintro d hd rfl
    rw [h] at hd
    cases hd
  have hi := hNe 'i' (by decide)
  have hn := hNe 'n' (by decide)
  have hs := hNe 's' (by decide)
  simp [isSpecialText, toLower_of_isDigit h, hi, Ne.symm hn,
    Ne.symm hs]

theorem readUnsigned_pointText
    (negative : Bool)
    (m k : Nat) :
    readUnsigned negative (Decimal.pointText m k) =
      some ⟨negative, m, -k⟩ := by
  have hWhole : (Decimal.pointText m k).span Char.isDigit =
      (Nat.toDigits 10 (m / 10 ^ k),
        '.' :: Digits.pad k (m % 10 ^ k)) := by
    apply Digits.span_digits
    · exact fun c hc => Decimal.isDigit_of_mem_digits hc
    · intro c hc
      cases hc
      rfl
  have hFraction : (Digits.pad k (m % 10 ^ k)).span
      Char.isDigit = (Digits.pad k (m % 10 ^ k), []) := by
    have hSpan := @Digits.span_digits
      (Digits.pad k (m % 10 ^ k)) []
      (fun c hc => Digits.isDigit_of_mem_pad hc)
      (fun c hc => by cases hc)
    rwa [List.append_nil] at hSpan
  have hSome : Nat.toDigits 10 (m / 10 ^ k) ++
      Digits.pad k (m % 10 ^ k) ≠ [] := by
    simp [Decimal.digits_ne_nil]
  unfold readUnsigned
  simp only [hWhole, readFraction, hFraction, if_neg hSome,
    readExponent, Option.map_some, Digits.length_pad,
    Digits.ofDigitChars_pointText, zero_sub]

/- A whole number is read as it was. -/
theorem readUnsigned_digits
    (negative : Bool)
    (m : Nat) :
    readUnsigned negative (Nat.toDigits 10 m) =
      some ⟨negative, m, 0⟩ := by
  have hWhole : (Nat.toDigits 10 m).span Char.isDigit =
      (Nat.toDigits 10 m, []) := by
    have hSpan := @Digits.span_digits (Nat.toDigits 10 m) []
      (fun c hc => Decimal.isDigit_of_mem_digits hc)
      (fun c hc => by cases hc)
    rwa [List.append_nil] at hSpan
  unfold readUnsigned
  simp only [hWhole, readFraction, List.append_nil,
    if_neg (Decimal.digits_ne_nil m), readExponent,
    Option.map_some, Nat.ofDigitChars_ten_toDigits,
    List.length_nil, Nat.cast_zero, sub_zero]

theorem readUnsigned_unsignedText
    (negative : Bool)
    (m k : Nat) :
    readUnsigned negative (Decimal.unsignedText m k) =
      some ⟨negative, m, -k⟩ := by
  unfold Decimal.unsignedText
  split
  · rename_i hk
    subst hk
    exact readUnsigned_digits negative m
  · exact readUnsigned_pointText negative m k

theorem not_isSpace_signed
    {negative : Bool}
    {v : Text}
    (hChars : ∀ c ∈ v, c = '.' ∨ c.isDigit = true) :
    ∀ c ∈ Decimal.signText negative ++ v,
      Text.isSpace c = false := by
  intro c hc
  rcases mem_signed hChars hc with rfl | rfl | hDigit
  · decide
  · decide
  · exact Text.not_isSpace_of_isDigit hDigit

/-
  What digits and a point stand for is read with the sign
  before them.
-/
theorem decimalOfText_signed
    {negative : Bool}
    {v : Text}
    {d : Decimal}
    (hHead : ∃ c cs, v = c :: cs ∧ c.isDigit = true)
    (hChars : ∀ c ∈ v, c = '.' ∨ c.isDigit = true)
    (hRead : readUnsigned negative v = some d)
    (hFits : d.representable = true) :
    decimalOfText U (Decimal.signText negative ++ v) =
      some (.finite d) := by
  have hAscii : ∀ c ∈ Decimal.signText negative ++ v,
      0 < c.toNat ∧ c.toNat ≤ 127 ∧ c ≠ '_' := by
    intro c hc
    rcases mem_signed hChars hc with rfl | rfl | hDigit
    · decide
    · decide
    · have hCode := code_of_isDigit hDigit
      refine ⟨by omega, by omega, ?_⟩
      rintro rfl
      exact absurd hDigit (by decide)
  rcases hHead with ⟨c, cs, hText, hDigit⟩
  have hSign : readSign (Decimal.signText negative ++ v) =
      (negative, v) := by
    rw [hText]
    exact readSign_signText hDigit
  have hPlain : isSpecialText v = false := by
    rw [hText]
    exact isSpecialText_digit hDigit
  unfold decimalOfText
  rw [Text.strip_of_solid (not_isSpace_signed hChars),
    numericAsAscii_ascii hAscii]
  simp only [hSign, hPlain, hRead, hFits, Bool.false_eq_true,
    if_false, if_true]

/- What is written without an exponent is read as it was. -/
theorem decimalOfText_pointText
    {negative : Bool}
    {m k : Nat}
    (hFits : (⟨negative, m, -k⟩ : Decimal).representable =
      true) :
    decimalOfText U (Decimal.signText negative ++
      Decimal.pointText m k) =
        some (.finite ⟨negative, m, -k⟩) :=
  decimalOfText_signed (exists_digit_pointText m k)
    (fun _ hc => mem_pointText hc)
    (readUnsigned_pointText negative m k) hFits

end Reading
