import DcInventory.Frontend.FormNumbers
import DcInventory.Frontend.FormTexts

/-
  This file proves which stored values the form reads back as
  they are stored.

  Key definitions include:
    * `ItemForm.StoredAs`
    * `ItemForm.ReadsAgain`

  Key theorems include:
    * `ItemForm.attributeEntry_stored`
    * `ItemForm.readsAgain_of_stored_again`
    * `ItemForm.prepare_scalarOf`
-/

namespace ItemForm

open CatalogView (isBlank trim)

variable {U : Unicode}
variable {browser : Browser}
variable {a : CategoryAttribute}
variable {out : CategoryAttributeOut}

------------------------------------------------------------
-- Returned Definitions
------------------------------------------------------------

theorem categoryAttributeOut_eq_some
    (h : categoryAttributeOut browser a = some out) :
    out.key = a.key ∧ out.dataType = a.dataType ∧
      out.required = a.required ∧
      allowedValuesOut a.allowedValues =
        some out.allowedValues ∧
      validationMetadataOut browser a.validationMetadata =
        some out.validationMetadata := by
  unfold categoryAttributeOut at h
  simp only [Option.bind_eq_bind, Option.bind_eq_some_iff,
    Option.some.injEq] at h
  rcases h with ⟨allowed, hAllowed, metadata, hMetadata, rfl⟩
  exact ⟨rfl, rfl, rfl, hAllowed, hMetadata⟩

/- Metadata that is returned is found under the same keys. -/
theorem find_metadataOut
    {entries : List (Text × MetadataValue)}
    {outs : List (Text × CatalogScalar)}
    (h : List.Forall₂ (fun entry out =>
      metadataEntryOut browser entry = some out) entries outs)
    (key : Text) :
    (Table.find Prod.fst key outs).map Prod.snd =
      ((Table.find Prod.fst key entries).map Prod.snd).bind
        (metadataOut browser) := by
  induction h with
  | nil => rfl
  | @cons entry out entries outs hHead _ ih =>
      rcases Option.map_eq_some_iff.mp hHead with
        ⟨value, hValue, rfl⟩
      unfold Table.find at ih ⊢
      rw [List.find?_cons, List.find?_cons]
      by_cases hKey : entry.1 = key
      · simp [hKey, hValue]
      · simpa [hKey] using ih

theorem metadata?_out
    (h : categoryAttributeOut browser a = some out)
    (key : String) :
    out.metadata? key =
      (a.metadata? key).bind (metadataOut browser) := by
  have hMetadata :=
    (categoryAttributeOut_eq_some h).2.2.2.2
  unfold CategoryAttributeOut.metadata?
    CategoryAttribute.metadata?
  cases hEntries : a.validationMetadata with
  | none =>
      rw [hEntries] at hMetadata
      have hNone : out.validationMetadata = none :=
        (Option.some.inj hMetadata).symm
      rw [hNone]
      rfl
  | some entries =>
      rw [hEntries] at hMetadata
      rcases Option.map_eq_some_iff.mp hMetadata with
        ⟨outs, hOuts, hSome⟩
      rw [← hSome]
      exact find_metadataOut (Option.mapM_eq_some_iff.mp hOuts)
        key.toList

/- The texts of an ENUM are returned as they are. -/
theorem allowedValues_out
    (h : categoryAttributeOut browser a = some out)
    {allowed : List Text}
    (hAllowed : a.allowedTexts? = some allowed) :
    out.allowedValues = some allowed := by
  have hValues := (categoryAttributeOut_eq_some h).2.2.2.1
  unfold CategoryAttribute.allowedTexts? at hAllowed
  cases hEntries : a.allowedValues with
  | none =>
      rw [hEntries] at hAllowed
      cases hAllowed
  | some values =>
      rw [hEntries] at hAllowed hValues
      cases values with
      | nil => cases hAllowed
      | cons v vs =>
          have hEq : (v :: vs).mapM allowedValueOut =
              some allowed := hAllowed
          have hMap : ((v :: vs).mapM allowedValueOut).map some =
              some out.allowedValues := hValues
          rw [hEq] at hMap
          exact (Option.some.inj hMap).symm

/- The form preserves white space, as the definition says. -/
def CategoryAttributeOut.preserves
    (attr : CategoryAttributeOut) : Prop :=
  attr.metadata? "preserve_whitespace" = some (.bool true)

instance (attr : CategoryAttributeOut) :
    Decidable attr.preserves :=
  inferInstanceAs (Decidable (_ = _))

theorem preserves_iff
    (h : categoryAttributeOut browser a = some out)
    (hSpace : ConfiguresSpace a) :
    out.preserves ↔
      a.metadata? "preserve_whitespace" =
        some (.bool true) := by
  unfold CategoryAttributeOut.preserves
  rw [metadata?_out h]
  rcases hSpace with hNone | ⟨b, hBool⟩
  · rw [hNone]
    simp
  · rw [hBool]
    simp [metadataOut]

------------------------------------------------------------
-- Stored Values
------------------------------------------------------------

/- What is stored for an attribute when a value is supplied. -/
def StoredAs
    (U : Unicode)
    (a : CategoryAttribute)
    (raw : RawValue)
    (v : AttributeValue) : Prop :=
  match a.dataType with
  | .text => ∃ t, raw = .str t ∧ ConfiguresSpace a ∧
      keptText a t ≠ [] ∧
      validateTextLength a (keptText a t) = .ok () ∧
      v = .text (keptText a t)
  | .integer => ∃ n, raw = .int n ∧ minSafeInteger ≤ n ∧
      n ≤ maxSafeInteger ∧ v = .integer n
  | .decimal => ∃ d n,
      rawDecimal? U raw = some (.finite d) ∧
      validateDecimalStorage a d = .ok () ∧
      validateNumericBounds U a d = .ok () ∧
      Numeric.ofDecimal? d = some n ∧
      v = .decimal n.toDecimal
  | .boolean => ∃ b, raw = .bool b ∧ v = .boolean b
  | .enum => ∃ t allowed, raw = .str t ∧
      Text.normalize t ≠ [] ∧
      a.allowedTexts? = some allowed ∧
      Text.normalize t ∈ allowed ∧
      v = .text (Text.normalize t)

theorem storedAs_of_prepared
    {raw : RawValue}
    {p : PreparedAttributeValue}
    {itemId categoryId : Uuid}
    {row : ItemAttributeValue}
    {v : AttributeValue}
    (h : prepareAttributeValue U a raw = .ok (some p))
    (hRow : itemAttributeRow itemId categoryId p = some row)
    (hRead : Catalog.storedAttributeValue a row = .ok v) :
    StoredAs U a raw v := by
  rcases itemAttributeRow_eq hRow with
    ⟨_, _, _, hText, hInteger, _, hBoolean, hEnum⟩
  unfold prepareAttributeValue at h
  unfold Catalog.storedAttributeValue at hRead
  unfold StoredAs
  cases hType : a.dataType
  all_goals
    simp only [hType] at h hRead ⊢
  · rcases prepareText_eq_some_iff.mp h with
      ⟨t, rfl, hSpace, hNe, hLength, rfl⟩
    simp only [hText, Option.map_some] at hRead
    cases hRead
    exact ⟨t, rfl, hSpace, hNe, hLength, rfl⟩
  · rcases prepareInteger_eq_ok_iff.mp h with
      ⟨n, rfl, hMin, hMax, _, hEq⟩
    cases hEq
    simp only [hInteger, Option.map_some] at hRead
    cases hRead
    exact ⟨n, rfl, hMin, hMax, rfl⟩
  · rcases prepareDecimal_eq_some h with
      ⟨d, hRaw, hStorage, hBounds, rfl⟩
    rcases Numeric.ofDecimal?_exact hStorage with ⟨n, hn, _⟩
    have hStored : row.decimalValue = some n := by
      have hSome : (Numeric.ofDecimal? d).map (fun n =>
          ({ itemId := itemId, categoryAttributeId := a.id,
             categoryId := categoryId, textValue := none,
             integerValue := none, decimalValue := some n,
             booleanValue := none, enumValue := none } :
            ItemAttributeValue)) = some row := hRow
      rw [hn] at hSome
      cases hSome
      rfl
    simp only [hStored, Option.map_some] at hRead
    cases hRead
    exact ⟨d, n, hRaw, hStorage, hBounds, hn, rfl⟩
  · rcases prepareBoolean_eq_ok_iff.mp h with ⟨b, rfl, hEq⟩
    cases hEq
    simp only [hBoolean, Option.map_some] at hRead
    cases hRead
    exact ⟨b, rfl, rfl⟩
  · rcases prepareEnum_eq_some_iff.mp h with
      ⟨t, allowed, rfl, hNe, hAllowed, hMem, rfl⟩
    simp only [hEnum, Option.map_some] at hRead
    cases hRead
    exact ⟨t, allowed, rfl, hNe, hAllowed, hMem, rfl⟩

------------------------------------------------------------
-- Values That Are Read Back
------------------------------------------------------------

/-
  What the form keeps: texts without byte order marks where
  it would drop them, and no longer than the definition says
  when their code units are counted; numbers that no bound
  excludes as it is printed; decimals that are printed
  without an exponent.
-/
def ReadsAgain
    (browser : Browser)
    (attr : CategoryAttributeOut) : AttributeValue → Prop
| .text t =>
    if attr.dataType = .enum then BareEnds t
    else
      (if attr.preserves then BareEnds t else mark ∉ t) ∧
        ∀ n, attr.metadata? "max_length" = some (.number n) →
          codeUnits t ≤ n
| .integer n => KeepsIn browser attr n
| .decimal d => 1 / 10 ^ 6 ≤ |d.value| ∧
    KeepsIn browser attr d.value
| .boolean _ => True

theorem abs_value_toDecimal (n : Numeric) :
    1 / 10 ^ 6 ≤ |n.toDecimal.value| ↔
      10 ^ 4 ≤ n.unscaled.natAbs := by
  have hAbs : |n.toDecimal.value| =
      (n.unscaled.natAbs : ℚ) / 10 ^ 10 := by
    rw [Numeric.value_toDecimal]
    unfold Numeric.value
    rw [abs_div, Nat.cast_natAbs, Int.cast_abs,
      abs_of_pos (show (0 : ℚ) < 10 ^ maxDecimalScale by
        positivity)]
    rfl
  have hFour : (1 / 10 ^ 6 * 10 ^ 10 : ℚ) = (10 ^ 4 : Nat) := by
    norm_num
  rw [hAbs, le_div_iff₀ (by positivity), hFour, Nat.cast_le]

theorem representable_toDecimal (n : Numeric) :
    n.toDecimal.representable = true := by
  have hDigits : n.toDecimal.digitCount ≤ 30 := by
    rw [Decimal.digitCount_le_iff (by decide)]
    exact n.fits
  have hExponent : n.toDecimal.exponent = -10 := rfl
  unfold Decimal.representable minEtiny maxEmax
  rw [hExponent]
  split
  · decide
  · simp only [Bool.and_eq_true, decide_eq_true_eq]
    omega

theorem keptText_preserved
    (h : categoryAttributeOut browser a = some out)
    (hSpace : ConfiguresSpace a)
    (t : Text) :
    keptText a t =
      if out.preserves then Text.strip t
      else Text.normalize t := by
  unfold keptText
  simp only [preserves_iff h hSpace]

/- What the form makes of a text that is not dropped. -/
theorem textEntry_eq_value_iff
    {t : Text}
    {w : CatalogScalar} :
    textEntry browser out t = .value w ↔
      w = .str (if out.preserves then trim t
        else collapsed t) ∧
      ∀ n, out.metadata? "max_length" = some (.number n) →
        codeUnits (if out.preserves then trim t
          else collapsed t) ≤ n := by
  have hKept : (if out.metadata? "preserve_whitespace" =
      some (.bool true) then trim t else collapsed t) =
        if out.preserves then trim t else collapsed t := rfl
  unfold textEntry
  simp only [hKept]
  generalize (if out.preserves then trim t
    else collapsed t) = kept
  have hOther : out.metadata? "max_length" = none ∨
      (∃ n, out.metadata? "max_length" = some (.number n)) ∨
      (∃ s, out.metadata? "max_length" = some (.str s)) ∨
      ∃ b, out.metadata? "max_length" = some (.bool b) := by
    rcases out.metadata? "max_length" with _ | s | n | b
    · exact .inl rfl
    · exact .inr (.inr (.inl ⟨s, rfl⟩))
    · exact .inr (.inl ⟨n, rfl⟩)
    · exact .inr (.inr (.inr ⟨b, rfl⟩))
  rcases hOther with hMax | ⟨n, hMax⟩ | ⟨s, hMax⟩ | ⟨b, hMax⟩
  all_goals
    simp only [hMax]
  · simp [eq_comm]
  · split
    · rename_i hLong
      simp [hLong]
    · rename_i hShort
      rw [not_lt] at hShort
      simp [hShort, eq_comm]
  · simp [eq_comm]
  · simp [eq_comm]

/- A field with a text, for a definition that has texts. -/
theorem attributeEntry_text
    {t : Text}
    (hType : out.dataType ≠ .boolean) :
    attributeEntry browser out (some (.text t)) =
      if trim t = [] then required out "Обязательное поле"
      else
        match out.dataType with
        | .text => textEntry browser out t
        | .enum => enumEntry out (trim t)
        | .integer => integerEntry browser out (trim t)
        | .decimal => decimalEntry browser out (trim t)
        | .boolean => .nothing := by
  unfold attributeEntry
  rw [if_neg hType]
  rfl

theorem required_ne_value
    (message : String)
    (w : CatalogScalar) :
    required out message ≠ .value w := by
  unfold required
  split
  · exact fun h => Entry.noConfusion h
  · exact fun h => Entry.noConfusion h

theorem trim_keeps
    {t : Text}
    (hNe : t ≠ [])
    (hSame : trim t = t) :
    ¬ trim t = [] := by
  rw [hSame]
  exact hNe

theorem bareEnds_of_not_mem
    {t : Text}
    (h : mark ∉ t) :
    BareEnds t :=
  ⟨fun hHead => h (List.mem_of_head? hHead),
    fun hLast => h (List.mem_of_getLast? hLast)⟩

section Stored

variable {raw : RawValue}
variable {v : AttributeValue}

/- The form reads such a value as it is stored. -/
theorem attributeEntry_stored
    (hOut : categoryAttributeOut browser a = some out)
    (hStored : StoredAs U a raw v)
    (h : ReadsAgain browser out v) :
    attributeEntry browser out
      (some (draftValue browser (scalarOf v))) =
        .value (scalarOf v) := by
  have hData := (categoryAttributeOut_eq_some hOut).2.1
  unfold StoredAs at hStored
  cases hType : a.dataType
  all_goals
    rw [hType] at hData
    simp only [hType] at hStored
  · rcases hStored with ⟨t, rfl, hSpace, hNe, _, rfl⟩
    simp only [ReadsAgain, hData] at h
    rw [if_neg (by decide)] at h
    rcases h with ⟨hEnds, hLength⟩
    rw [keptText_preserved hOut hSpace] at hEnds hLength hNe ⊢
    change attributeEntry browser out (some (.text _)) = _
    rw [attributeEntry_text (by rw [hData]; decide), hData]
    simp only
    by_cases hPreserves : out.preserves
    · simp only [if_pos hPreserves] at hEnds hLength hNe ⊢
      have hSame := (trim_eq_self_iff
        (Text.strip_strip t)).mpr hEnds
      rw [if_neg (trim_keeps hNe hSame)]
      apply textEntry_eq_value_iff.mpr
      rw [if_pos hPreserves, hSame]
      exact ⟨rfl, hLength⟩
    · simp only [if_neg hPreserves] at hEnds hLength hNe ⊢
      have hSame := (trim_eq_self_iff
        (Text.strip_normalize t)).mpr
          (bareEnds_of_not_mem hEnds)
      have hCollapsed := (collapsed_eq_self_iff
        (Text.normalize_normalize t)).mpr hEnds
      rw [if_neg (trim_keeps hNe hSame)]
      apply textEntry_eq_value_iff.mpr
      rw [if_neg hPreserves, hCollapsed]
      exact ⟨rfl, hLength⟩
  · rcases hStored with ⟨n, rfl, hMin, hMax, rfl⟩
    have hText : browser.numberText n = intText n :=
      if_pos ⟨hMin, hMax⟩
    change attributeEntry browser out
      (some (.text (browser.numberText n))) = _
    have hNe : ¬ trim (intText n) = [] := by
      rw [trim_intText, intText_eq]
      simp
    have hBounds : validateBounds browser out (intText n) =
        none := by
      rw [validateBounds_eq_none_iff (decimalParts_intText n)]
      simpa [ComparableDecimal.value, ReadsAgain] using h
    have hSafe : ¬ (n < minSafeInteger ∨ maxSafeInteger < n) :=
      by omega
    rw [hText, attributeEntry_text (by rw [hData]; decide),
      if_neg hNe, hData]
    simp only [integerEntry, trim_intText,
      isIntegerText_intText, if_true, bigInt_intText,
      if_neg hSafe, hBounds]
    rfl
  · rcases hStored with ⟨d, n, _, _, _, _, rfl⟩
    rcases h with ⟨hLarge, hKeeps⟩
    have hDigits := (abs_value_toDecimal n).mp hLarge
    have hStr := str_toDecimal hDigits
    change attributeEntry browser out
      (some (.text n.toDecimal.str)) = .value (.str
        n.toDecimal.str)
    have hNe : ¬ trim (Decimal.signText
        (decide (n.unscaled < 0)) ++
          Decimal.pointText n.unscaled.natAbs 10) = [] := by
      rw [trim_pointText]
      simp [Decimal.pointText]
    have hBounds : validateBounds browser out
        (Decimal.signText (decide (n.unscaled < 0)) ++
          Decimal.pointText n.unscaled.natAbs 10) = none := by
      rw [validateBounds_eq_none_iff
        (decimalParts_pointText _ _ _)]
      have hValue : (⟨signed (decide (n.unscaled < 0))
          n.unscaled.natAbs, 10⟩ : ComparableDecimal).value =
          n.toDecimal.value := by
        rw [Numeric.value_toDecimal]
        unfold ComparableDecimal.value Numeric.value
        rw [signed_natAbs]
        rfl
      rw [hValue]
      exact hKeeps
    rw [hStr, attributeEntry_text (by rw [hData]; decide),
      if_neg hNe, hData]
    simp only [decimalEntry, trim_pointText,
      isDecimalText_pointText, if_true, hBounds]
  · rcases hStored with ⟨b, rfl, rfl⟩
    change attributeEntry browser out (some (.flag b)) = _
    unfold attributeEntry
    rw [if_pos hData]
    rfl
  · rcases hStored with ⟨t, allowed, rfl, hNe, hAllowed, hMem,
      rfl⟩
    simp only [ReadsAgain, hData, if_true] at h
    have hSame := (trim_eq_self_iff
      (Text.strip_normalize t)).mpr h
    change attributeEntry browser out (some (.text _)) = _
    rw [attributeEntry_text (by rw [hData]; decide),
      if_neg (trim_keeps hNe hSame), hData]
    simp only [enumEntry, hSame,
      allowedValues_out hOut hAllowed, Option.getD_some,
      if_pos hMem]
    rfl

/- A value that is stored again is one that the form keeps. -/
theorem readsAgain_of_stored_again
    (hOut : categoryAttributeOut browser a = some out)
    (hStored : StoredAs U a raw v)
    {w : CatalogScalar}
    (hEntry : attributeEntry browser out
      (some (draftValue browser (scalarOf v))) = .value w)
    (hAgain : StoredAs U a w.raw v) :
    ReadsAgain browser out v := by
  have hData := (categoryAttributeOut_eq_some hOut).2.1
  unfold StoredAs at hStored hAgain
  cases hType : a.dataType
  all_goals
    rw [hType] at hData
    simp only [hType] at hStored hAgain
  · rcases hStored with ⟨t, rfl, hSpace, _, _, rfl⟩
    change attributeEntry browser out (some (.text _)) = _
      at hEntry
    rw [attributeEntry_text (by rw [hData]; decide), hData]
      at hEntry
    simp only at hEntry
    split at hEntry
    · exact absurd hEntry (required_ne_value _ _)
    · rcases textEntry_eq_value_iff.mp hEntry with
        ⟨rfl, hLength⟩
      rcases hAgain with ⟨t', hRaw, _, _, _, hValue⟩
      have hText : t' = if out.preserves then trim (keptText a t)
          else collapsed (keptText a t) :=
        (RawValue.str.inj hRaw).symm
      have hKept : keptText a t = keptText a t' :=
        AttributeValue.text.inj hValue
      simp only [ReadsAgain, hData]
      rw [if_neg (by decide)]
      rw [keptText_preserved hOut hSpace t'] at hKept
      by_cases hPreserves : out.preserves
      · simp only [if_pos hPreserves] at hText hKept hLength ⊢
        have hStrip : Text.strip (keptText a t) =
            keptText a t := by
          rw [keptText_preserved hOut hSpace, if_pos hPreserves]
          exact Text.strip_strip t
        rw [hText] at hKept
        have hEnds := bareEnds_of_stored
          (fun w => (Words.strip_sublist w).length_le) hStrip
          hKept.symm
        refine ⟨hEnds, ?_⟩
        rw [(trim_eq_self_iff hStrip).mpr hEnds] at hLength
        exact hLength
      · simp only [if_neg hPreserves] at hText hKept hLength ⊢
        have hNormal : Text.normalize (keptText a t) =
            keptText a t := by
          rw [keptText_preserved hOut hSpace, if_neg hPreserves]
          exact Text.normalize_normalize t
        rw [hText] at hKept
        have hNone := not_mem_of_stored hKept.symm
        refine ⟨hNone, ?_⟩
        rw [(collapsed_eq_self_iff hNormal).mpr hNone]
          at hLength
        exact hLength
  · rcases hStored with ⟨n, rfl, hMin, hMax, rfl⟩
    have hText : browser.numberText n = intText n :=
      if_pos ⟨hMin, hMax⟩
    change attributeEntry browser out
      (some (.text (browser.numberText n))) = _ at hEntry
    have hSafe : ¬ (n < minSafeInteger ∨ maxSafeInteger < n) :=
      by omega
    rw [hText, attributeEntry_text (by rw [hData]; decide),
      hData] at hEntry
    simp only [integerEntry, trim_intText,
      isIntegerText_intText, if_true, bigInt_intText,
      if_neg hSafe] at hEntry
    split at hEntry
    · exact absurd hEntry (required_ne_value _ _)
    · split at hEntry
      · cases hEntry
      · rename_i hBounds
        rw [validateBounds_eq_none_iff
          (decimalParts_intText n)] at hBounds
        simpa [ComparableDecimal.value, ReadsAgain] using hBounds
  · rcases hStored with ⟨d, n, _, _, _, _, rfl⟩
    change attributeEntry browser out
      (some (.text n.toDecimal.str)) = _ at hEntry
    rw [attributeEntry_text (by rw [hData]; decide), hData]
      at hEntry
    simp only at hEntry
    split at hEntry
    · exact absurd hEntry (required_ne_value _ _)
    · rename_i hNe
      have hDigits : 10 ^ 4 ≤ n.unscaled.natAbs := by
        by_contra hFew
        have hNone : isDecimalText (trim n.toDecimal.str) =
            false := by
          apply not_isDecimalText_str (Nat.not_le.mp hFew)
          intro c hc hSolid
          exact mem_trim_of_solid hc hSolid
        unfold decimalEntry at hEntry
        rw [hNone] at hEntry
        cases hEntry
      have hStr := str_toDecimal hDigits
      rw [hStr] at hEntry
      simp only [decimalEntry, trim_pointText,
        isDecimalText_pointText, if_true] at hEntry
      split at hEntry
      · cases hEntry
      · rename_i hBounds
        rw [validateBounds_eq_none_iff
          (decimalParts_pointText _ _ _)] at hBounds
        have hValue : (⟨signed (decide (n.unscaled < 0))
            n.unscaled.natAbs, 10⟩ : ComparableDecimal).value =
            n.toDecimal.value := by
          rw [Numeric.value_toDecimal]
          unfold ComparableDecimal.value Numeric.value
          rw [signed_natAbs]
          rfl
        rw [hValue] at hBounds
        exact ⟨(abs_value_toDecimal n).mpr hDigits, hBounds⟩
  · rcases hStored with ⟨b, rfl, rfl⟩
    trivial
  · rcases hStored with ⟨t, allowed, rfl, hNe, hAllowed, hMem,
      rfl⟩
    change attributeEntry browser out (some (.text _)) = _
      at hEntry
    rw [attributeEntry_text (by rw [hData]; decide), hData]
      at hEntry
    simp only [enumEntry] at hEntry
    simp only [ReadsAgain, hData, if_true]
    split at hEntry
    · exact absurd hEntry (required_ne_value _ _)
    · split at hEntry
      · cases hEntry
        rcases hAgain with ⟨t', _, hRaw, _, _, _, hValue⟩
        cases hRaw
        exact bareEnds_of_stored length_normalize_le
          (Text.strip_normalize t)
          (AttributeValue.text.inj hValue).symm
      · cases hEntry

/- What the form sends is prepared as what is stored. -/
theorem prepare_scalarOf
    (hStored : StoredAs U a raw v)
    (h : ReadsAgain browser out v) :
    prepareAttributeValue U a (scalarOf v).raw =
      prepareAttributeValue U a v.raw := by
  cases v with
  | text t => rfl
  | integer n => rfl
  | boolean b => rfl
  | decimal d =>
      unfold StoredAs at hStored
      cases hType : a.dataType
      all_goals
        simp only [hType] at hStored
      · rcases hStored with ⟨_, _, _, _, _, hEq⟩
        cases hEq
      · rcases hStored with ⟨_, _, _, _, hEq⟩
        cases hEq
      · rcases hStored with ⟨d, n, _, hStorage, hBounds, hn, hEq⟩
        cases hEq
        have hDigits := (abs_value_toDecimal n).mp h.1
        have hBounds' : validateNumericBounds U a n.toDecimal =
            .ok () := by
          rcases Numeric.ofDecimal?_exact hStorage with
            ⟨m, hm, hValue⟩
          rw [hn] at hm
          cases hm
          rw [validateNumericBounds_eq_ok_iff] at hBounds ⊢
          unfold WithinBounds at hBounds ⊢
          rw [n.value_toDecimal.trans hValue]
          exact hBounds
        have hFinite : ∀ {raw : RawValue},
            rawDecimal? U raw = some (.finite n.toDecimal) →
            prepareAttributeValue U a raw =
              .ok (some { PreparedAttributeValue.blank a with
                decimalValue := some n.toDecimal }) := by
          intro raw hRaw
          rw [prepareAttributeValue, hType]
          exact prepareDecimal_of_finite hRaw
            (Numeric.validateDecimalStorage_toDecimal a n)
            hBounds'
        have hRead : rawDecimal? U (.str n.toDecimal.str) =
            some (.finite n.toDecimal) := by
          change decimalOfText U (Text.strip n.toDecimal.str) = _
          rw [str_toDecimal hDigits, Text.strip_of_solid
            (not_isSpace_signed fun _ hc => mem_pointText hc)]
          exact decimalOfText_pointText
            (representable_toDecimal n)
        exact (hFinite hRead).trans (hFinite rfl).symm
      · rcases hStored with ⟨_, _, hEq⟩
        cases hEq
      · rcases hStored with ⟨_, _, _, _, _, _, hEq⟩
        cases hEq

end Stored

end ItemForm
