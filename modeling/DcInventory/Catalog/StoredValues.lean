import DcInventory.Catalog.AcceptedValues

/-
  This file proves that the values which the validation of
  attributes accepts are stored as they are.

  Key definitions include:
    * `StoredExactly`

  Key theorems include:
    * `attribute_values_are_stored_exactly`
-/

------------------------------------------------------------
-- Rows
------------------------------------------------------------

section Rows

variable {U : Unicode}

theorem itemAttributeRow_eq
    {itemId categoryId : Uuid}
    {p : PreparedAttributeValue}
    {row : ItemAttributeValue}
    (h : itemAttributeRow itemId categoryId p = some row) :
    row.itemId = itemId ∧ row.categoryId = categoryId ∧
      row.categoryAttributeId = p.attr.id ∧
      row.textValue = p.textValue ∧
      row.integerValue = p.integerValue ∧
      row.decimalValue.isSome = p.decimalValue.isSome ∧
      row.booleanValue = p.booleanValue ∧
      row.enumValue = p.enumValue := by
  unfold itemAttributeRow at h
  cases hDecimal : p.decimalValue with
  | none =>
      rw [hDecimal] at h
      cases h
      exact ⟨rfl, rfl, rfl, rfl, rfl, rfl, rfl, rfl⟩
  | some d =>
      rw [hDecimal] at h
      rcases Option.map_eq_some_iff.mp h with ⟨n, _, rfl⟩
      exact ⟨rfl, rfl, rfl, rfl, rfl, rfl, rfl, rfl⟩

/- An accepted value has a row. -/
theorem itemAttributeRow_isSome
    {attr : CategoryAttribute}
    {raw : RawValue}
    {p : PreparedAttributeValue}
    (h : Accepted U attr raw p)
    (itemId categoryId : Uuid) :
    ∃ row, itemAttributeRow itemId categoryId p =
      some row := by
  unfold itemAttributeRow
  cases hDecimal : p.decimalValue with
  | none => exact ⟨_, rfl⟩
  | some d =>
      rcases Numeric.ofDecimal?_exact (h.decimal d hDecimal)
        with ⟨n, hn, _⟩
      simp only [hn, Option.map_some]
      exact ⟨_, rfl⟩

/- The columns of a value that represents another. -/
theorem Represents.columns
    {raw : RawValue}
    {p : PreparedAttributeValue}
    (h : Represents U raw p) :
    match p.attr.dataType with
    | .text => p.textValue.isSome = true
    | .integer => p.integerValue.isSome = true
    | .decimal => p.decimalValue.isSome = true
    | .boolean => p.booleanValue.isSome = true
    | .enum => p.enumValue.isSome = true := by
  unfold Represents at h
  cases hType : p.attr.dataType
  all_goals
    simp only [hType] at h ⊢
  · rcases h with ⟨v, _, _, hEq⟩
    rw [hEq]
    rfl
  · rcases h with ⟨n, _, hEq⟩
    rw [hEq]
    rfl
  · rcases h with ⟨d, _, hEq⟩
    rw [hEq]
    rfl
  · rcases h with ⟨b, _, hEq⟩
    rw [hEq]
    rfl
  · rcases h with ⟨v, _, _, hEq⟩
    rw [hEq]
    rfl

/- Exactly one column of a row of an accepted value is set. -/
theorem Represents.exactlyOne
    {raw : RawValue}
    {p : PreparedAttributeValue}
    {itemId categoryId : Uuid}
    {row : ItemAttributeValue}
    (h : Represents U raw p)
    (hRow : itemAttributeRow itemId categoryId p = some row) :
    row.exactlyOneTypedValue = true := by
  rcases itemAttributeRow_eq hRow with
    ⟨_, _, _, hText, hInteger, hDecimal, hBoolean, hEnum⟩
  have hLength : row.decimalValue.toList.length =
      p.decimalValue.toList.length := by
    cases hStored : row.decimalValue with
    | none =>
        rw [hStored] at hDecimal
        rw [Option.isSome_eq_false_iff.mp hDecimal.symm
          |> Option.isNone_iff_eq_none.mp]
        rfl
    | some n =>
        rw [hStored] at hDecimal
        rcases Option.isSome_iff_exists.mp hDecimal.symm with
          ⟨d, hd⟩
        rw [hd]
        rfl
  unfold ItemAttributeValue.exactlyOneTypedValue
  rw [hText, hInteger, hLength, hBoolean, hEnum]
  unfold Represents at h
  split at h
  · rcases h with ⟨v, _, _, hEq⟩
    rw [hEq]
    rfl
  · rcases h with ⟨n, _, hEq⟩
    rw [hEq]
    rfl
  · rcases h with ⟨d, _, hEq⟩
    rw [hEq]
    rfl
  · rcases h with ⟨b, _, hEq⟩
    rw [hEq]
    rfl
  · rcases h with ⟨v, _, _, hEq⟩
    rw [hEq]
    rfl

theorem ids_of_rows
    {itemId categoryId : Uuid}
    {ps : List PreparedAttributeValue}
    {rows : List ItemAttributeValue}
    (h : List.Forall₂ (fun p row =>
      itemAttributeRow itemId categoryId p = some row)
        ps rows) :
    rows.map ItemAttributeValue.categoryAttributeId =
      ps.map (fun p => p.attr.id) := by
  induction h with
  | nil => rfl
  | cons hHead _ ih =>
      rw [List.map_cons, List.map_cons, ih,
        (itemAttributeRow_eq hHead).2.2.1]

theorem allows_of_allowedTexts
    {attr : CategoryAttribute}
    {allowed : List Text}
    {v : Text}
    (hAllowed : attr.allowedTexts? = some allowed)
    (hMem : v ∈ allowed) :
    attr.allows v = true := by
  unfold CategoryAttribute.allowedTexts? at hAllowed
  unfold CategoryAttribute.allows
  cases hValues : attr.allowedValues with
  | none => rfl
  | some values =>
      rw [hValues] at hAllowed
      cases values with
      | nil => cases hAllowed
      | cons x xs =>
          simp only at hAllowed ⊢
          rw [List.contains_iff_mem]
          have hAll := Option.mapM_eq_some_iff.mp hAllowed
          rcases hAll.exists_left hMem with ⟨y, hy, hText⟩
          split at hText
          · cases hText
            exact hy
          · cases hText

/- The trigger accepts the rows of accepted values. -/
theorem Accepted.validRow
    {attrs : List CategoryAttribute}
    {raw : RawValue}
    {p : PreparedAttributeValue}
    {itemId : Uuid}
    {row : ItemAttributeValue}
    (hIds : (attrs.map CategoryAttribute.id).Nodup)
    (hMem : p.attr ∈ attrs)
    (h : Accepted U p.attr raw p)
    (hRow : itemAttributeRow itemId p.attr.categoryId p =
      some row) :
    validateItemAttributeValueDataType attrs row = true := by
  rcases itemAttributeRow_eq hRow with
    ⟨_, hCategory, hId, hText, hInteger, hDecimal, hBoolean,
      hEnum⟩
  unfold validateItemAttributeValueDataType
  split
  · rfl
  · rename_i a hFind
    have hKey : a.id = row.categoryAttributeId ∧
        a.categoryId = row.categoryId := by
      simpa using List.find?_some hFind
    have hSame : a = p.attr := by
      apply List.inj_on_of_nodup_map hIds
        (List.mem_of_find?_eq_some hFind) hMem
      rw [hKey.1, hId]
    subst hSame
    have hColumns := h.represents.columns
    cases hType : p.attr.dataType
    all_goals
      simp only [hType] at hColumns ⊢
    · rw [hText]
      exact hColumns
    · rw [hInteger]
      exact hColumns
    · rw [hDecimal]
      exact hColumns
    · rw [hBoolean]
      exact hColumns
    · rw [hEnum]
      rcases Option.isSome_iff_exists.mp hColumns with ⟨v, hv⟩
      rcases h.enum v hv with ⟨allowed, hAllowed, hIn⟩
      rw [hv]
      exact allows_of_allowedTexts hAllowed hIn

end Rows

------------------------------------------------------------
-- Accepted Maps
------------------------------------------------------------

section Exactness

variable {U : Unicode}

/-
  What an accepted map of values is stored as: one value for
  each key that is not blank, a value for each required
  definition, and rows that the database accepts.
-/
structure StoredExactly
    (U : Unicode)
    (attrs definitions : List CategoryAttribute)
    (categoryId : Uuid)
    (supplied : Dictionary Text RawValue)
    (values : List PreparedAttributeValue) : Prop where
  known : ∀ key ∈ supplied.keys,
    ∃ a ∈ definitions, a.key = key
  distinct : (values.map (fun p => p.attr.key)).Nodup
  single : ∀ a ∈ definitions, ∀ raw,
    supplied.get? a.key = some raw → ¬ BlankFor a raw →
    ∃ p ∈ values, p.attr = a ∧ Represents U raw p
  only : ∀ p ∈ values, p.attr ∈ definitions ∧
    ∃ raw, supplied.get? p.attr.key = some raw ∧
      Represents U raw p
  required : ∀ a ∈ definitions, a.required = true →
    ∃ p ∈ values, p.attr = a
  integers : ∀ p ∈ values, ∀ n, p.integerValue = some n →
    minSafeInteger ≤ n ∧ n ≤ maxSafeInteger
  decimals : ∀ p ∈ values, ∀ d, p.decimalValue = some d →
    ∃ n, Numeric.ofDecimal? d = some n ∧
      n.value = d.value ∧ n.toDecimal.value = d.value
  rows : ∀ itemId, ∃ rows,
    values.mapM (itemAttributeRow itemId categoryId) =
      some rows ∧
    (rows.map
      ItemAttributeValue.categoryAttributeId).Nodup ∧
    (∀ row ∈ rows,
      validateItemAttributeValueDataType attrs row = true ∧
        row.exactlyOneTypedValue = true) ∧
    ∀ others, enforceItemRequiredAttributes attrs
      (others ++ rows) itemId categoryId = true

/- The definitions that the database has for a category. -/
structure DefinitionsOf
    (attrs definitions : List CategoryAttribute)
    (categoryId : Uuid) : Prop where
  ids : (attrs.map CategoryAttribute.id).Nodup
  keys : (definitions.map CategoryAttribute.key).Nodup
  all : ∀ a, a ∈ definitions ↔
    a ∈ attrs ∧ a.categoryId = categoryId

variable {attrs definitions : List CategoryAttribute}
variable {categoryId : Uuid}
variable {supplied : Dictionary Text RawValue}
variable {values : List PreparedAttributeValue}

/- Every required definition has a value. -/
theorem required_of_accepted
    (hKeys : (definitions.map CategoryAttribute.key).Nodup)
    {outs : List (Option PreparedAttributeValue)}
    (hOuts : List.Forall₂ (Prepares U definitions)
      supplied.entries outs)
    {a : CategoryAttribute}
    (ha : a ∈ definitions)
    (hRequired : a.required = true)
    (hSupplied : a.key ∈ supplied.keys) :
    ∃ p ∈ outs.reduceOption, p.attr = a := by
  rcases List.mem_map.mp hSupplied with ⟨e, he, hKey⟩
  rcases hOuts.exists_right he with ⟨out, hOut, a', hDef, hPrep⟩
  rw [hKey, definitionOf_of_mem hKeys ha] at hDef
  cases hDef
  cases out with
  | none =>
      have hOptional := (prepareAttributeValue_none hPrep).2
      rw [hRequired] at hOptional
      cases hOptional
  | some p =>
      exact ⟨p, List.reduceOption_mem_iff.mpr hOut,
        (prepareAttributeValue_some hPrep).definition⟩

theorem storedExactly
    (hDefs : DefinitionsOf attrs definitions categoryId)
    (h : validateAttributeValues U categoryId definitions
      supplied = .ok values) :
    StoredExactly U attrs definitions categoryId supplied
      values := by
  rcases validateAttributeValues_eq_ok_iff.mp h with
    ⟨hSame, hKnown, hRequired, hAll⟩
  rcases prepareAll_eq_ok_iff.mp hAll with ⟨outs, hOuts, rfl⟩
  have hAccepted : ∀ p ∈ outs.reduceOption,
      p.attr ∈ definitions ∧ ∃ raw,
        supplied.get? p.attr.key = some raw ∧
          Accepted U p.attr raw p := by
    intro p hp
    rcases (mem_prepareAll hOuts).mp hp with
      ⟨⟨key, raw⟩, he, hPrep⟩
    rcases hPrep.accepted with ⟨hMem, hKey, hOk⟩
    refine ⟨hMem, raw, ?_, hOk⟩
    rw [hKey]
    exact Dictionary.mem_entries.mp he
  have hDistinct : (outs.reduceOption.map
      (fun p => p.attr.key)).Nodup :=
    supplied.nodup.sublist (keys_prepareAll hOuts)
  have hAttrs : ∀ p ∈ outs.reduceOption,
      p.attr ∈ attrs ∧ p.attr.categoryId = categoryId :=
    fun p hp => (hDefs.all _).mp (hAccepted p hp).1
  have hNeeded : ∀ a ∈ definitions, a.required = true →
      ∃ p ∈ outs.reduceOption, p.attr = a :=
    fun a ha hNeed => required_of_accepted hDefs.keys hOuts ha
      hNeed (hRequired a ha hNeed)
  refine ⟨hKnown, hDistinct, ?_, ?_, hNeeded, ?_, ?_, ?_⟩
  · intro a ha raw hRaw hText
    rcases hOuts.exists_right (Dictionary.mem_entries.mpr hRaw)
      with ⟨out, hOut, a', hDef, hPrep⟩
    rw [definitionOf_of_mem hDefs.keys ha] at hDef
    cases hDef
    cases out with
    | none =>
        exact absurd (prepareAttributeValue_none hPrep).1 hText
    | some p =>
        have hOk := prepareAttributeValue_some hPrep
        exact ⟨p, List.reduceOption_mem_iff.mpr hOut,
          hOk.definition, hOk.represents⟩
  · intro p hp
    rcases hAccepted p hp with ⟨hMem, raw, hRaw, hOk⟩
    exact ⟨hMem, raw, hRaw, hOk.represents⟩
  · intro p hp n hn
    rcases hAccepted p hp with ⟨_, raw, _, hOk⟩
    exact hOk.integer n hn
  · intro p hp d hd
    rcases hAccepted p hp with ⟨_, raw, _, hOk⟩
    rcases Numeric.ofDecimal?_exact (hOk.decimal d hd) with
      ⟨n, hn, hValue⟩
    exact ⟨n, hn, hValue, n.value_toDecimal.trans hValue⟩
  · intro itemId
    -- every accepted value has a row
    have hRows : ∃ rows, outs.reduceOption.mapM
        (itemAttributeRow itemId categoryId) = some rows := by
      have hSome : ∀ ps : List PreparedAttributeValue,
          (∀ p ∈ ps, p ∈ outs.reduceOption) →
          ∃ rows, List.Forall₂ (fun p row =>
            itemAttributeRow itemId categoryId p = some row)
              ps rows := by
        intro ps
        induction ps with
        | nil => exact fun _ => ⟨[], List.Forall₂.nil⟩
        | cons p ps ih =>
            intro hps
            rcases ih fun q hq =>
              hps q (List.mem_cons_of_mem p hq) with
                ⟨rows, hTail⟩
            rcases hAccepted p (hps p List.mem_cons_self) with
              ⟨_, raw, _, hOk⟩
            rcases itemAttributeRow_isSome hOk itemId categoryId
              with ⟨row, hRow⟩
            exact ⟨row :: rows, List.Forall₂.cons hRow hTail⟩
      rcases hSome _ fun p hp => hp with ⟨rows, hAllRows⟩
      exact ⟨rows, Option.mapM_eq_some_iff.mpr hAllRows⟩
    rcases hRows with ⟨rows, hMap⟩
    have hPairs := Option.mapM_eq_some_iff.mp hMap
    refine ⟨rows, hMap, ?_, ?_, ?_⟩
    · have hIds : rows.map
          ItemAttributeValue.categoryAttributeId =
            outs.reduceOption.map (fun p => p.attr.id) :=
        ids_of_rows hPairs
      rw [hIds]
      apply List.Nodup.map_on
      · intro p hp q hq hEq
        have hSameAttr : p.attr = q.attr :=
          List.inj_on_of_nodup_map hDefs.ids (hAttrs p hp).1
            (hAttrs q hq).1 hEq
        apply List.inj_on_of_nodup_map hDistinct hp hq
        rw [hSameAttr]
      · exact List.Nodup.of_map _ hDistinct
    · intro row hRow
      rcases hPairs.exists_left hRow with ⟨p, hp, hEq⟩
      rcases hAccepted p hp with ⟨_, raw, _, hOk⟩
      have hCategory := (hAttrs p hp).2
      subst hCategory
      exact ⟨hOk.validRow hDefs.ids (hAttrs p hp).1 hEq,
        hOk.represents.exactlyOne hEq⟩
    · intro others
      unfold enforceItemRequiredAttributes
      rw [List.all_eq_true]
      intro a ha
      by_cases hNeed : a.categoryId = categoryId ∧
          a.required = true
      · rcases hNeeded a ((hDefs.all a).mpr ⟨ha, hNeed.1⟩)
          hNeed.2 with ⟨p, hp, rfl⟩
        rcases hPairs.exists_right hp with ⟨row, hRow, hEq⟩
        have hColumns := itemAttributeRow_eq hEq
        rw [Bool.or_eq_true]
        right
        rw [List.any_eq_true]
        refine ⟨row, List.mem_append_right others hRow, ?_⟩
        simp [hColumns.1, hColumns.2.2.1]
      · rw [Bool.or_eq_true]
        left
        simpa [not_and_or] using not_and_or.mp hNeed

/-
  An accepted map is stored as it is; and a decimal is
  accepted that is written without superfluous zeros, fits
  into its column and lies between its bounds.
-/
theorem attribute_values_are_stored_exactly
    (hDefs : DefinitionsOf attrs definitions categoryId) :
    (∀ supplied values,
      validateAttributeValues U categoryId definitions
        supplied = .ok values →
      StoredExactly U attrs definitions categoryId supplied
        values) ∧
    (∀ supplied : Dictionary Text RawValue,
      (∃ values, validateAttributeValues U categoryId
        definitions supplied = .ok values) ↔
      (∀ key ∈ supplied.keys,
        ∃ a ∈ definitions, a.key = key) ∧
      (∀ a ∈ definitions, a.required = true →
        a.key ∈ supplied.keys) ∧
      ∀ a ∈ definitions, ∀ raw,
        supplied.get? a.key = some raw →
        ∃ out, prepareAttributeValue U a raw = .ok out) ∧
    (∀ a ∈ definitions, ∀ raw d, a.dataType = .decimal →
      rawDecimal? U raw = some (.finite d) →
      ¬ d.Superfluous → (∃ n : Numeric, n.value = d.value) →
      WithinBounds U a d →
      prepareAttributeValue U a raw =
        .ok (some { PreparedAttributeValue.blank a with
          decimalValue := some d })) := by
  refine ⟨fun supplied values h => storedExactly hDefs h,
    ?_, ?_⟩
  · intro supplied
    constructor
    · rintro ⟨values, h⟩
      rcases validateAttributeValues_eq_ok_iff.mp h with
        ⟨_, hKnown, hRequired, hAll⟩
      rcases prepareAll_eq_ok_iff.mp hAll with ⟨outs, hOuts, _⟩
      refine ⟨hKnown, hRequired, ?_⟩
      intro a ha raw hRaw
      rcases hOuts.exists_right
        (Dictionary.mem_entries.mpr hRaw) with
          ⟨out, _, a', hDef, hPrep⟩
      rw [definitionOf_of_mem hDefs.keys ha] at hDef
      cases hDef
      exact ⟨out, hPrep⟩
    · rintro ⟨hKnown, hRequired, hEach⟩
      have hOuts : ∀ es : List (Text × RawValue),
          (∀ e ∈ es, e ∈ supplied.entries) →
          ∃ outs, List.Forall₂ (Prepares U definitions) es
            outs := by
        intro es
        induction es with
        | nil => exact fun _ => ⟨[], List.Forall₂.nil⟩
        | cons e es ih =>
            intro hes
            have hMem := hes e List.mem_cons_self
            rcases ih fun x hx =>
              hes x (List.mem_cons_of_mem e hx) with
                ⟨outs, hTail⟩
            rcases hKnown e.1 (List.mem_map_of_mem hMem) with
              ⟨a, ha, hKey⟩
            rcases hEach a ha e.2 (by
              rw [hKey]
              exact Dictionary.mem_entries.mp hMem) with
                ⟨out, hPrep⟩
            refine ⟨out :: outs, List.Forall₂.cons ?_ hTail⟩
            refine ⟨a, ?_, hPrep⟩
            rw [← hKey]
            exact definitionOf_of_mem hDefs.keys ha
      rcases hOuts _ fun e he => he with ⟨outs, hAll⟩
      refine ⟨outs.reduceOption,
        validateAttributeValues_eq_ok_iff.mpr
          ⟨fun a ha => ((hDefs.all a).mp ha).2, hKnown,
            hRequired,
            prepareAll_eq_ok_iff.mpr ⟨outs, hAll, rfl⟩⟩⟩
  · rintro a _ raw d hType hRaw hPlain ⟨n, hValue⟩ hBounds
    rw [prepareAttributeValue, hType]
    exact prepareDecimal_of_finite hRaw
      (Numeric.validateDecimalStorage_of_fits hPlain hValue)
      (validateNumericBounds_eq_ok_iff.mpr hBounds)

/- A length of one and a half metres. -/
def lengthAttribute : CategoryAttribute :=
  ⟨⟨1⟩, ⟨2⟩, "length_m".toList, "Length".toList, .decimal,
    none, true, true, true, 0, .range, none,
    some [("min".toList, .float "1e-10".toList)]⟩

theorem attribute_values_are_stored_exactly_length :
    StoredExactly .ascii [lengthAttribute] [lengthAttribute]
      ⟨2⟩ ⟨[("length_m".toList, .str " +1_5.00E-1".toList)],
        by decide⟩
      [{ PreparedAttributeValue.blank lengthAttribute with
        decimalValue := some ⟨false, 1500, -3⟩ }] :=
  have hDefs : DefinitionsOf [lengthAttribute]
      [lengthAttribute] ⟨2⟩ :=
    ⟨by decide, by decide, by simp [lengthAttribute]⟩
  (attribute_values_are_stored_exactly hDefs).1 _ _
    (by decide +kernel)

end Exactness
