import DcInventory.Catalog.ReachUnits
import DcInventory.Frontend.FormFields
import Mathlib.Algebra.Order.BigOperators.Group.List

/-
  This file proves which values the form for an item takes
  again, after they were accepted from it and prepared.

  Key definitions include:
    * `ItemForm.Reshown`

  Key theorems include:
    * `ItemForm.decimalOfText_of_isDecimalText`
    * `ItemForm.attributeEntry_reshown`
-/

namespace ItemForm

open CatalogView (isBlank trim)

------------------------------------------------------------
-- Decimals
------------------------------------------------------------

theorem exists_digit_unsignedText (m k : Nat) :
    ∃ c cs, Decimal.unsignedText m k = c :: cs ∧
      c.isDigit = true := by
  unfold Decimal.unsignedText
  split
  · cases hDigits : Nat.toDigits 10 m with
    | nil => exact absurd hDigits (Decimal.digits_ne_nil _)
    | cons c cs =>
        refine ⟨c, cs, rfl, ?_⟩
        apply Decimal.isDigit_of_mem_digits
        rw [hDigits]
        exact List.mem_cons_self
  · exact exists_digit_pointText m k

theorem readSign_unsignedText
    (negative : Bool)
    (m k : Nat) :
    readSign (Decimal.signText negative ++
      Decimal.unsignedText m k) =
        (negative, Decimal.unsignedText m k) := by
  rcases exists_digit_unsignedText m k with
    ⟨c, cs, hText, hDigit⟩
  rw [hText]
  exact readSign_signText hDigit

theorem trim_unsignedText
    (negative : Bool)
    (m k : Nat) :
    trim (Decimal.signText negative ++
      Decimal.unsignedText m k) =
        Decimal.signText negative ++ Decimal.unsignedText m k :=
  trim_of_numeric fun _ hc =>
    mem_signed (fun _ hPart => mem_unsignedText hPart) hc

/- What is printed without an exponent is read as it is. -/
theorem decimalParts_unsignedText
    (negative : Bool)
    (m k : Nat) :
    isDecimalText (Decimal.signText negative ++
        Decimal.unsignedText m k) = true ∧
      decimalParts (Decimal.signText negative ++
        Decimal.unsignedText m k) =
          some ⟨signed negative m, k⟩ := by
  by_cases hk : k = 0
  · subst hk
    have hText : isDecimalText (Decimal.signText negative ++
        Decimal.unsignedText m 0) = true := by
      unfold isDecimalText
      rw [readSign_unsignedText]
      have hSpan : (Decimal.unsignedText m 0).span Char.isDigit =
          (Nat.toDigits 10 m, []) := span_toDigits m
      simp only [hSpan]
      exact decide_eq_true (Decimal.digits_ne_nil _)
    refine ⟨hText, ?_⟩
    unfold decimalParts
    have hSpan : (Decimal.unsignedText m 0).span Char.isDigit =
        (Nat.toDigits 10 m, []) := span_toDigits m
    simp only [trim_unsignedText, hText, if_true,
      readSign_unsignedText, hSpan, List.drop_nil,
      List.append_nil, Nat.ofDigitChars_ten_toDigits,
      List.length_nil]
  · have hSame : Decimal.unsignedText m k =
        Decimal.pointText m k := if_neg hk
    rw [hSame]
    exact ⟨isDecimalText_pointText negative m k,
      decimalParts_pointText negative m k⟩

/- A number that is not too small is printed so. -/
theorem str_eq_unsignedText
    {negative : Bool}
    {m k : Nat}
    (h : k < (Nat.toDigits 10 m).length + 6) :
    (⟨negative, m, -k⟩ : Decimal).str =
      Decimal.signText negative ++
        Decimal.unsignedText m k := by
  have hPlain : (-(k : Int)) ≤ 0 ∧
      -6 < -(k : Int) + (Nat.toDigits 10 m).length := by
    omega
  unfold Decimal.str Decimal.unsignedText
  simp only [if_pos hPlain, neg_eq_zero, Nat.cast_eq_zero,
    neg_neg, Int.toNat_natCast]

/- The parts of a text that the form accepts. -/
structure HasParts
    (t : Text)
    (negative : Bool)
    (whole fraction : Text) : Prop where
  wholeDigits : ∀ c ∈ whole, c.isDigit = true
  fractionDigits : ∀ c ∈ fraction, c.isDigit = true
  nonempty : whole ++ fraction ≠ []
  parts : (readSign t = (negative, whole) ∧ fraction = []) ∨
    readSign t = (negative, whole ++ '.' :: fraction)

theorem exists_parts
    {t : Text}
    (h : isDecimalText t = true) :
    ∃ negative whole fraction,
      HasParts t negative whole fraction := by
  unfold isDecimalText at h
  rw [List.span_eq_takeWhile_dropWhile] at h
  have hSplit := List.takeWhile_append_dropWhile
    (p := Char.isDigit) (l := (readSign t).2)
  have hWhole : ∀ c ∈ (readSign t).2.takeWhile Char.isDigit,
      c.isDigit = true :=
    fun c hc => List.mem_takeWhile_imp hc
  simp only at h
  split at h
  · rename_i hNil
    rw [hNil, List.append_nil] at hSplit
    have hNone : ∀ c ∈ ([] : Text), c.isDigit = true := by
      intro c hc
      cases hc
    refine ⟨(readSign t).1, _, [], hWhole, hNone, ?_,
      .inl ⟨?_, rfl⟩⟩
    · rw [List.append_nil]
      exact of_decide_eq_true h
    · rw [hSplit]
  · rename_i c fraction hCons
    simp only [Bool.and_eq_true, Bool.or_eq_true,
      decide_eq_true_eq, List.all_eq_true] at h
    rcases h with ⟨⟨hPoint, hSome⟩, hDigits⟩
    rw [hCons, hPoint] at hSplit
    refine ⟨(readSign t).1, _, fraction, hWhole, hDigits, ?_,
      .inr ?_⟩
    · intro hNil
      rcases List.append_eq_nil_iff.mp hNil with ⟨hw, hf⟩
      rcases hSome with hNe | hNe
      · exact hNe hw
      · exact hNe hf
    · rw [hSplit]

theorem HasParts.span
    {t whole fraction : Text}
    {negative : Bool}
    (h : HasParts t negative whole fraction) :
    (readSign t).1 = negative ∧
      ((readSign t).2.span Char.isDigit).1 = whole ∧
      ((readSign t).2.span Char.isDigit).2.drop 1 = fraction := by
  rcases h.parts with ⟨hSign, hNil⟩ | hSign
  · have hSpan := @Digits.span_digits whole [] h.wholeDigits
      (fun c hc => by cases hc)
    rw [List.append_nil] at hSpan
    rw [hSign, hSpan, hNil]
    exact ⟨rfl, rfl, rfl⟩
  · have hSpan := @Digits.span_digits whole ('.' :: fraction)
      h.wholeDigits (fun c hc => by
        cases hc
        rfl)
    rw [hSign, hSpan]
    exact ⟨rfl, rfl, rfl⟩

/- No special value begins with a digit or a point. -/
theorem not_isSpecialText
    {v : Text}
    (h : ∀ c ∈ v, c = '.' ∨ c.isDigit = true) :
    isSpecialText v = false := by
  cases v with
  | nil => decide
  | cons c cs =>
      rcases h c List.mem_cons_self with rfl | hDigit
      · have hLower : ('.' : Char).toLower = '.' := by
          decide
        simp [isSpecialText, hLower]
      · exact isSpecialText_digit hDigit

theorem HasParts.reads
    {t whole fraction : Text}
    {negative : Bool}
    (h : HasParts t negative whole fraction) :
    readUnsigned negative (readSign t).2 =
      some ⟨negative, Nat.ofDigitChars 10 (whole ++ fraction) 0,
        -(fraction.length : Int)⟩ := by
  unfold readUnsigned
  rcases h.parts with ⟨hSign, hNil⟩ | hSign
  · have hSpan := @Digits.span_digits whole [] h.wholeDigits
      (fun c hc => by cases hc)
    rw [List.append_nil] at hSpan
    have hSome := h.nonempty
    subst hNil
    simp only [hSign, hSpan, readFraction, if_neg hSome,
      readExponent, Option.map_some, zero_sub]
  · have hSpan := @Digits.span_digits whole ('.' :: fraction)
      h.wholeDigits (fun c hc => by
        cases hc
        rfl)
    have hFraction := @Digits.span_digits fraction []
      h.fractionDigits (fun c hc => by cases hc)
    rw [List.append_nil] at hFraction
    simp only [hSign, hSpan, readFraction, hFraction,
      if_neg h.nonempty, readExponent, Option.map_some, zero_sub]

theorem isBlank_of_isDigit
    {c : Char}
    (h : c.isDigit = true) :
    isBlank c = false := by
  have hCode := code_of_isDigit h
  simp only [isBlank, Bool.or_eq_false_iff,
    Bool.and_eq_false_iff, decide_eq_false_iff_not,
    beq_eq_false_iff_ne]
  omega

/- What the form accepts, the application reads alike. -/
theorem decimalOfText_of_isDecimalText
    {U : Unicode}
    {t : Text}
    (hText : isDecimalText t = true)
    {x : PyDecimal}
    (hRead : decimalOfText U t = some x) :
    ∃ (negative : Bool) (m k : Nat),
      x = .finite ⟨negative, m, -k⟩ ∧
        (⟨negative, m, -k⟩ : Decimal).representable = true ∧
        decimalParts t = some ⟨signed negative m, k⟩ := by
  rcases exists_parts hText with
    ⟨negative, whole, fraction, h⟩
  rcases h.span with ⟨hSign, hWhole, hFraction⟩
  have hNumeric : ∀ c ∈ t, isBlank c = false ∧
      Text.isSpace c = false ∧
      0 < c.toNat ∧ c.toNat ≤ 127 ∧ c ≠ '_' := by
    intro c hc
    rcases mem_of_isDecimalText hText hc with
      rfl | rfl | rfl | hDigit
    · decide
    · decide
    · decide
    · have hCode := code_of_isDigit hDigit
      refine ⟨isBlank_of_isDigit hDigit,
        Text.not_isSpace_of_isDigit hDigit, by omega, by omega,
        ?_⟩
      rintro rfl
      exact absurd hDigit (by decide)
  have hTrim : trim t = t :=
    Words.strip_of_trimmed
      ⟨fun c hc => (hNumeric c (List.mem_of_head? hc)).1,
        fun c hc => (hNumeric c (List.mem_of_getLast? hc)).1⟩
  have hDigits : ∀ c ∈ (readSign t).2,
      c = '.' ∨ c.isDigit = true := by
    intro c hc
    rcases h.parts with ⟨hEq, _⟩ | hEq
    · rw [hEq] at hc
      exact .inr (h.wholeDigits c hc)
    · rw [hEq] at hc
      rcases List.mem_append.mp hc with hc | hc
      · exact .inr (h.wholeDigits c hc)
      · rcases List.mem_cons.mp hc with rfl | hc
        · exact .inl rfl
        · exact .inr (h.fractionDigits c hc)
  have hNumber := h.reads
  unfold decimalOfText at hRead
  rw [Text.strip_of_solid fun c hc => (hNumeric c hc).2.1,
    numericAsAscii_ascii fun c hc => (hNumeric c hc).2.2]
    at hRead
  simp only [not_isSpecialText hDigits, Bool.false_eq_true,
    if_false, hSign, hNumber] at hRead
  split at hRead
  · rename_i hFits
    refine ⟨negative, _, _, (Option.some.inj hRead).symm, hFits,
      ?_⟩
    unfold decimalParts
    simp only [hTrim, hText, if_true, hSign, hWhole, hFraction]
  · cases hRead

------------------------------------------------------------
-- Texts
------------------------------------------------------------

/- The code units of a character. -/
def unitsOf (c : Char) : Nat :=
  if c.toNat < 0x10000 then 1 else 2

theorem codeUnits_eq (v : Text) :
    codeUnits v = (v.map unitsOf).sum := by
  induction v with
  | nil => rfl
  | cons c cs ih =>
      rw [codeUnits, ih]
      rfl

/- What is normalised or stripped has no more code units. -/
theorem codeUnits_normalize_le (v : Text) :
    codeUnits (Text.normalize v) ≤ codeUnits v := by
  rw [codeUnits_eq, codeUnits_eq, Text.normalize_eq]
  apply Words.weight_join_split_le
  intro c _
  have hBlank : unitsOf ' ' = 1 := by
    decide
  rw [hBlank]
  unfold unitsOf
  split
  · exact Nat.le_refl 1
  · exact Nat.le_succ 1

theorem codeUnits_strip_le (v : Text) :
    codeUnits (Text.strip v) ≤ codeUnits v := by
  rw [codeUnits_eq, codeUnits_eq]
  have hSub : (Text.strip v).Sublist v := Words.strip_sublist v
  exact (hSub.map unitsOf).sum_le_sum fun _ _ => Nat.zero_le _

/- Collapsed texts have no byte order marks. -/
theorem not_mem_collapsed (v : Text) :
    mark ∉ collapsed v := by
  intro hMem
  rcases Words.mem_collapse hMem with hSep | ⟨_, hSolid⟩
  · exact absurd hSep (by decide)
  · exact absurd hSolid (by decide)

------------------------------------------------------------
-- Values
------------------------------------------------------------

section Values

variable {U : Unicode}
variable {browser : Browser}
variable {a : CategoryAttribute}
variable {out : CategoryAttributeOut}

/-
  What the form takes again: texts whose ends are no byte
  order marks once the application has stripped them, and
  decimals that are not printed with an exponent.
-/
def Reshown
    (out : CategoryAttributeOut)
    (raw : Option DraftValue) : Prop :=
  let typed := trim (fieldText raw)
  match out.dataType with
  | .text => out.preserves → BareEnds (Text.strip typed)
  | .enum => BareEnds (Text.normalize typed)
  | .decimal => ∀ parts, decimalParts typed = some parts →
      parts.scale <
        (Nat.toDigits 10 parts.coefficient.natAbs).length + 6
  | .integer | .boolean => True

theorem natAbs_signed
    (negative : Bool)
    (m : Nat) :
    (signed negative m).natAbs = m := by
  unfold signed
  cases negative <;> simp

/- What is accepted is the text that was typed. -/
theorem attributeEntry_eq_value
    {raw : Option DraftValue}
    {w : CatalogScalar}
    (h : attributeEntry browser out raw = .value w) :
    let typed := trim (fieldText raw)
    match out.dataType with
    | .boolean => ∃ b, w = .bool b
    | .text => textEntry browser out (fieldText raw) = .value w
    | .enum => w = .str typed ∧
        typed ∈ out.allowedValues.getD []
    | .integer => w = .number (bigInt typed) ∧
        isIntegerText typed = true ∧
        validateBounds browser out typed = none
    | .decimal => w = .str typed ∧
        isDecimalText typed = true ∧
        validateBounds browser out typed = none := by
  unfold attributeEntry at h
  split at h
  · rename_i hType
    rw [hType]
    split at h
    · cases h
      exact ⟨_, rfl⟩
    · exact absurd h (required_ne_value _ _)
  · simp only at h
    split at h
    · exact absurd h (required_ne_value _ _)
    · cases hType : out.dataType
      all_goals
        simp only [hType] at h ⊢
      · exact h
      · unfold integerEntry at h
        split at h
        · rename_i hText
          simp only at h
          split at h
          · cases h
          · split at h
            · cases h
            · rename_i hBounds
              cases h
              exact ⟨rfl, hText, hBounds⟩
        · cases h
      · unfold decimalEntry at h
        split at h
        · rename_i hText
          split at h
          · cases h
          · rename_i hBounds
            cases h
            exact ⟨rfl, hText, hBounds⟩
        · cases h
      · cases h
      · unfold enumEntry at h
        split at h
        · rename_i hMem
          cases h
          exact ⟨rfl, hMem⟩
        · cases h

/- An integer text is a decimal text without a fraction. -/
theorem decimalParts_of_isIntegerText
    {t : Text}
    (h : isIntegerText t = true) :
    isDecimalText t = true ∧
      decimalParts t = some ⟨bigInt t, 0⟩ := by
  unfold isIntegerText at h
  simp only [Bool.and_eq_true, decide_eq_true_eq,
    List.all_eq_true] at h
  have hSpan := @Digits.span_digits (readSign t).2 [] h.2
    (fun c hc => by cases hc)
  rw [List.append_nil] at hSpan
  have hText : isDecimalText t = true := by
    unfold isDecimalText
    simp only [hSpan]
    exact decide_eq_true h.1
  have hTrim : trim t = t := by
    have hSolid : ∀ c ∈ t, isBlank c = false := by
      intro c hc
      rcases mem_of_isDecimalText hText hc with
        rfl | rfl | rfl | hDigit
      · decide
      · decide
      · decide
      · exact isBlank_of_isDigit hDigit
    exact Words.strip_of_trimmed
      ⟨fun c hc => hSolid c (List.mem_of_head? hc),
        fun c hc => hSolid c (List.mem_of_getLast? hc)⟩
  refine ⟨hText, ?_⟩
  unfold decimalParts bigInt
  simp only [hTrim, hText, if_true, hSpan, List.drop_nil,
    List.append_nil, List.length_nil]

/-
  A value that was accepted from the form and prepared is
  taken again from what the form shows of it, and prepared to
  the same.
-/
theorem attributeEntry_reshown
    (hOut : categoryAttributeOut browser a = some out)
    {raw : Option DraftValue}
    {w : CatalogScalar}
    (hEntry : attributeEntry browser out raw = .value w)
    {x : PreparedAttributeValue}
    (hPrepared : prepareAttributeValue U a w.raw = .ok (some x))
    {v : AttributeValue}
    (hValue : x.value? = some v)
    (hShown : Reshown out raw) :
    attributeEntry browser out
        (some (draftValue browser (scalarOf v))) =
          .value (scalarOf v) ∧
      prepareAttributeValue U a (scalarOf v).raw =
        .ok (some x) := by
  have hData := (categoryAttributeOut_eq_some hOut).2.1
  have hTyped := attributeEntry_eq_value hEntry
  unfold Reshown at hShown
  unfold prepareAttributeValue at hPrepared ⊢
  cases hType : a.dataType
  all_goals
    rw [hType] at hData
    simp only [hData, hType] at hTyped hShown hPrepared ⊢
  · rcases textEntry_eq_value_iff.mp hTyped with
      ⟨rfl, hLength⟩
    rcases prepareText_eq_some_iff.mp hPrepared with
      ⟨t, hRaw, hSpace, hNe, hShort, rfl⟩
    have hSame : (if out.preserves then trim (fieldText raw)
        else collapsed (fieldText raw)) = t :=
      RawValue.str.inj hRaw
    rw [hSame] at hLength
    cases hValue
    change attributeEntry browser out
        (some (.text (keptText a t))) =
          .value (.str (keptText a t)) ∧
      prepareText a (.str (keptText a t)) = _
    have hBare : BareEnds (keptText a t) ∧
        (if out.preserves then trim (keptText a t)
          else collapsed (keptText a t)) = keptText a t ∧
        codeUnits (keptText a t) ≤ codeUnits t := by
      rw [keptText_preserved hOut hSpace]
      by_cases hPreserves : out.preserves
      · simp only [if_pos hPreserves] at hSame ⊢
        have hKept := hShown hPreserves
        rw [hSame] at hKept
        exact ⟨hKept, (trim_eq_self_iff
          (Text.strip_strip t)).mpr hKept, codeUnits_strip_le t⟩
      · simp only [if_neg hPreserves] at hSame ⊢
        have hNone : mark ∉ Text.normalize t := by
          intro hMem
          rcases Text.mem_normalize hMem with hSep | ⟨hIn, _⟩
          · exact absurd hSep (by decide)
          · rw [← hSame] at hIn
            exact not_mem_collapsed _ hIn
        exact ⟨bareEnds_of_not_mem hNone,
          (collapsed_eq_self_iff
            (Text.normalize_normalize t)).mpr hNone,
          codeUnits_normalize_le t⟩
    rcases hBare with ⟨hEnds, hForm, hUnits⟩
    have hStrip : Text.strip (keptText a t) = keptText a t := by
      unfold keptText
      split
      · exact Text.strip_strip t
      · exact Text.strip_normalize t
    have hTrim := (trim_eq_self_iff hStrip).mpr hEnds
    refine ⟨?_, ?_⟩
    · rw [attributeEntry_text (by rw [hData]; decide),
        if_neg (trim_keeps hNe hTrim), hData]
      apply textEntry_eq_value_iff.mpr
      rw [hForm]
      exact ⟨rfl, fun n hn => (Int.ofNat_le.mpr hUnits).trans
        (hLength n hn)⟩
    · apply prepareText_eq_some_iff.mpr
      refine ⟨_, rfl, hSpace, ?_, ?_, ?_⟩
      · rw [Catalog.keptText_keptText]
        exact hNe
      · rw [Catalog.keptText_keptText]
        exact hShort
      · rw [Catalog.keptText_keptText]
  · rcases hTyped with ⟨rfl, hText, hBounds⟩
    generalize trim (fieldText raw) = t
      at hPrepared hText hBounds ⊢
    generalize hNumber : bigInt t = n at hPrepared ⊢
    have hInteger := hPrepared
    rcases prepareInteger_eq_ok_iff.mp hPrepared with
      ⟨m, hRaw, hMin, hMax, _, hX⟩
    cases hRaw
    cases hX
    cases hValue
    rw [validateBounds_eq_none_iff
      (decimalParts_of_isIntegerText hText).2, hNumber]
      at hBounds
    have hShow : browser.numberText n = intText n :=
      if_pos ⟨hMin, hMax⟩
    have hNe : ¬ trim (intText n) = [] := by
      rw [trim_intText, intText_eq]
      simp
    have hSafe : ¬ (n < minSafeInteger ∨ maxSafeInteger < n) :=
      by omega
    refine ⟨?_, hInteger⟩
    change attributeEntry browser out
      (some (.text (browser.numberText n))) =
        .value (.number n)
    rw [hShow, attributeEntry_text (by rw [hData]; decide),
      if_neg hNe, hData]
    simp only [integerEntry, trim_intText,
      isIntegerText_intText, if_true, bigInt_intText,
      if_neg hSafe, (validateBounds_eq_none_iff
        (decimalParts_intText n)).mpr hBounds]
  · rcases hTyped with ⟨rfl, hText, hBounds⟩
    generalize trim (fieldText raw) = t
      at hPrepared hText hBounds hShown ⊢
    rcases prepareDecimal_eq_some hPrepared with
      ⟨d, hRaw, hStorage, hWithin, rfl⟩
    cases hValue
    have hRead : decimalOfText U t = some (.finite d) := by
      have hStrip : Text.strip t = t := by
        apply Text.strip_of_solid
        intro c hc
        rcases mem_of_isDecimalText hText hc with
          rfl | rfl | rfl | hDigit
        · decide
        · decide
        · decide
        · exact Text.not_isSpace_of_isDigit hDigit
      rw [← hStrip]
      exact hRaw
    rcases decimalOfText_of_isDecimalText hText hRead with
      ⟨negative, m, k, hD, hFits, hParts⟩
    cases hD
    have hPlain := hShown _ hParts
    rw [natAbs_signed] at hPlain
    have hStr := @str_eq_unsignedText negative m k hPlain
    rcases decimalParts_unsignedText negative m k with
      ⟨hAgain, hPartsAgain⟩
    have hNe : ¬ trim (Decimal.signText negative ++
        Decimal.unsignedText m k) = [] := by
      rw [trim_unsignedText]
      rcases exists_digit_unsignedText m k with ⟨c, cs, hU, _⟩
      rw [hU]
      simp
    have hNone : validateBounds browser out
        (Decimal.signText negative ++
          Decimal.unsignedText m k) = none := by
      rw [validateBounds_eq_none_iff hPartsAgain]
      exact (validateBounds_eq_none_iff hParts).mp hBounds
    refine ⟨?_, ?_⟩
    · change attributeEntry browser out
        (some (.text (Decimal.str _))) =
          .value (.str (Decimal.str _))
      rw [hStr, attributeEntry_text (by rw [hData]; decide),
        if_neg hNe, hData]
      simp only [decimalEntry, trim_unsignedText, hAgain,
        if_true, hNone]
    · apply prepareDecimal_of_finite _ hStorage hWithin
      change decimalOfText U (Text.strip (Decimal.str _)) = _
      rw [hStr, Text.strip_of_solid (not_isSpace_signed
        fun _ hc => mem_unsignedText hc)]
      exact decimalOfText_signed (exists_digit_unsignedText m k)
        (fun _ hc => mem_unsignedText hc)
        (readUnsigned_unsignedText negative m k) hFits
  · rcases hTyped with ⟨b, rfl⟩
    have hAgain := hPrepared
    rcases prepareBoolean_eq_ok_iff.mp hPrepared with
      ⟨b', hRaw, hX⟩
    cases hRaw
    cases hX
    cases hValue
    refine ⟨?_, hAgain⟩
    change attributeEntry browser out (some (.flag b)) =
      .value (.bool b)
    unfold attributeEntry
    rw [if_pos hData]
  · rcases hTyped with ⟨rfl, _⟩
    generalize trim (fieldText raw) = t at hPrepared hShown ⊢
    rcases prepareEnum_eq_some_iff.mp hPrepared with
      ⟨t', allowed, hRaw, hNe, hAllowed, hMem, rfl⟩
    cases hRaw
    cases hValue
    have hTrim := (trim_eq_self_iff
      (Text.strip_normalize t)).mpr hShown
    refine ⟨?_, ?_⟩
    · change attributeEntry browser out
        (some (.text (Text.normalize t))) =
          .value (.str (Text.normalize t))
      rw [attributeEntry_text (by rw [hData]; decide),
        if_neg (trim_keeps hNe hTrim), hData]
      simp only [enumEntry, hTrim,
        allowedValues_out hOut hAllowed, Option.getD_some,
        if_pos hMem]
    · apply prepareEnum_eq_some_iff.mpr
      refine ⟨_, allowed, rfl, ?_, hAllowed, ?_, ?_⟩
      · rw [Text.normalize_normalize]
        exact hNe
      · rw [Text.normalize_normalize]
        exact hMem
      · rw [Text.normalize_normalize]

end Values

end ItemForm
