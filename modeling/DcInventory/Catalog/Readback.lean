import DcInventory.Catalog.SignatureAgreement
import DcInventory.Catalog.ReachText

/-
  This file proves that stored values are accepted again, and
  that they are stored as the same rows.

  Key definitions include:
    * `Catalog.Rereads`
    * `Catalog.ReadsBack`

  Key theorems include:
    * `Catalog.rereads_of_prepared`
    * `Catalog.Holds.loadAttributes`
    * `Catalog.validateAttributeValues_again`
-/

namespace Numeric

/- A number that was stored can be stored again. -/
theorem validateDecimalStorage_toDecimal
    (attr : CategoryAttribute)
    (n : Numeric) :
    validateDecimalStorage attr n.toDecimal = .ok () := by
  apply validateDecimalStorage_eq_ok_iff.mpr
  have hExponent : n.toDecimal.exponent = -10 := rfl
  refine ⟨by rw [hExponent], ?_⟩
  intro _
  have hDigits : n.toDecimal.digitCount ≤ 30 := by
    rw [Decimal.digitCount_le_iff (by decide)]
    exact n.fits
  rw [hExponent]
  omega

theorem ofDecimal?_toDecimal (n : Numeric) :
    ofDecimal? n.toDecimal = some n := by
  have hUnscaled : unscaledOf n.toDecimal = n.unscaled := by
    change (if decide (n.unscaled < 0) then
      -((n.unscaled.natAbs * 10 ^ 0 : Nat) : Int)
      else ((n.unscaled.natAbs * 10 ^ 0 : Nat) : Int)) = _
    rw [pow_zero, Nat.mul_one]
    by_cases hNegative : n.unscaled < 0
    · rw [if_pos (by simpa using hNegative)]
      omega
    · rw [if_neg (by simpa using hNegative)]
      omega
  have hFits : (unscaledOf n.toDecimal).natAbs < 10 ^ 30 := by
    rw [hUnscaled]
    exact n.fits
  unfold ofDecimal?
  rw [dif_pos hFits]
  cases n
  simp only [hUnscaled]

end Numeric

namespace Catalog

------------------------------------------------------------
-- Single Values
------------------------------------------------------------

section Values

variable {U : Unicode}

/- A value is prepared again from what was read back. -/
structure Rereads
    (U : Unicode)
    (p : PreparedAttributeValue)
    (raw : RawValue)
    (p' : PreparedAttributeValue) : Prop where
  prepares : prepareAttributeValue U p.attr raw =
    .ok (some p')
  definition : p'.attr = p.attr
  row : ∀ itemId categoryId,
    itemAttributeRow itemId categoryId p' =
      itemAttributeRow itemId categoryId p
  identity : p'.value?.map (identityValue U) =
    p.value?.map (identityValue U)

theorem keptText_keptText
    (attr : CategoryAttribute)
    (v : Text) :
    keptText attr (keptText attr v) = keptText attr v := by
  unfold keptText
  split
  · exact Text.strip_strip v
  · exact Text.normalize_normalize v

/- What is prepared in the same way is not changed. -/
theorem Rereads.same
    {p : PreparedAttributeValue}
    {raw : RawValue}
    (h : prepareAttributeValue U p.attr raw = .ok (some p)) :
    Rereads U p raw p :=
  ⟨h, rfl, fun _ _ => rfl, rfl⟩

/- A stored value is read back, and prepared again. -/
theorem rereads_of_prepared
    {a : CategoryAttribute}
    {raw : RawValue}
    {p : PreparedAttributeValue}
    (h : prepareAttributeValue U a raw = .ok (some p))
    {itemId categoryId : Uuid}
    {row : ItemAttributeValue}
    (hRow : itemAttributeRow itemId categoryId p = some row) :
    ∃ v p', storedAttributeValue a row = .ok v ∧
      Rereads U p v.raw p' := by
  rcases itemAttributeRow_eq hRow with
    ⟨_, _, _, hText, hInteger, _, hBoolean, hEnum⟩
  unfold prepareAttributeValue at h
  cases hType : a.dataType
  all_goals
    simp only [hType] at h
  · rcases prepareText_eq_some_iff.mp h with
      ⟨v, rfl, hSpace, hNe, hLength, rfl⟩
    refine ⟨.text (keptText a v), _, ?_, Rereads.same ?_⟩
    · unfold storedAttributeValue
      simp only [hType, hText, Option.map_some]
    · change prepareAttributeValue U a _ = _
      rw [prepareAttributeValue, hType]
      apply prepareText_eq_some_iff.mpr
      refine ⟨_, rfl, hSpace, ?_, ?_, ?_⟩
      · rw [keptText_keptText]
        exact hNe
      · rw [keptText_keptText]
        exact hLength
      · rw [keptText_keptText]
  · rcases prepareInteger_eq_ok_iff.mp h with
      ⟨n, rfl, hMin, hMax, hBounds, hEq⟩
    cases hEq
    refine ⟨.integer n, _, ?_, Rereads.same ?_⟩
    · unfold storedAttributeValue
      simp only [hType, hInteger, Option.map_some]
    · change prepareAttributeValue U a _ = _
      rw [prepareAttributeValue, hType]
      exact prepareInteger_eq_ok_iff.mpr
        ⟨n, rfl, hMin, hMax, hBounds, rfl⟩
  · rcases prepareDecimal_eq_some h with
      ⟨d, hRaw, hStorage, hBounds, rfl⟩
    rcases Numeric.ofDecimal?_exact hStorage with
      ⟨n, hn, hValue⟩
    have hNumber : n.toDecimal.value = d.value :=
      n.value_toDecimal.trans hValue
    have hStored : row.decimalValue = some n := by
      have hSome : (Numeric.ofDecimal? d).map (fun n =>
          ({ itemId := itemId, categoryAttributeId := a.id,
             categoryId := categoryId, textValue := none,
             integerValue := none, decimalValue := some n,
             booleanValue := none, enumValue := none } :
            ItemAttributeValue)) = some row := hRow
      rw [hn] at hSome
      cases hSome
      rfl
    refine ⟨.decimal n.toDecimal,
      { PreparedAttributeValue.blank a with
        decimalValue := some n.toDecimal }, ?_, ?_, rfl, ?_, ?_⟩
    · unfold storedAttributeValue
      simp only [hType, hStored, Option.map_some]
    · change prepareAttributeValue U a _ = _
      rw [prepareAttributeValue, hType]
      apply prepareDecimal_of_finite rfl
      · exact Numeric.validateDecimalStorage_toDecimal a n
      · rw [validateNumericBounds_eq_ok_iff] at hBounds ⊢
        unfold WithinBounds at hBounds ⊢
        rw [hNumber]
        exact hBounds
    · intro itemId categoryId
      change (Numeric.ofDecimal? n.toDecimal).map _ =
        (Numeric.ofDecimal? d).map _
      rw [Numeric.ofDecimal?_toDecimal, hn]
    · change some (Json.str n.toDecimal.canonical) =
        some (Json.str d.canonical)
      rw [(Decimal.canonical_eq_iff _ _).mpr hNumber]
  · rcases prepareBoolean_eq_ok_iff.mp h with ⟨b, rfl, hEq⟩
    cases hEq
    refine ⟨.boolean b, _, ?_, Rereads.same ?_⟩
    · unfold storedAttributeValue
      simp only [hType, hBoolean, Option.map_some]
    · change prepareAttributeValue U a _ = _
      rw [prepareAttributeValue, hType]
      exact prepareBoolean_eq_ok_iff.mpr ⟨b, rfl, rfl⟩
  · rcases prepareEnum_eq_some_iff.mp h with
      ⟨v, allowed, rfl, hNe, hAllowed, hMem, rfl⟩
    refine ⟨.text (Text.normalize v), _, ?_, Rereads.same ?_⟩
    · unfold storedAttributeValue
      simp only [hType, hEnum, Option.map_some]
    · change prepareAttributeValue U a _ = _
      rw [prepareAttributeValue, hType]
      apply prepareEnum_eq_some_iff.mpr
      refine ⟨_, allowed, rfl, ?_, hAllowed, ?_, ?_⟩
      · rw [Text.normalize_normalize]
        exact hNe
      · rw [Text.normalize_normalize]
        exact hMem
      · rw [Text.normalize_normalize]

end Values

------------------------------------------------------------
-- Loading
------------------------------------------------------------

section Loading

variable {U : Unicode}
variable {s : Db}
variable {itemId categoryId : Uuid}
variable {definitions : List CategoryAttribute}
variable {supplied : Dictionary Text RawValue}
variable {values : List PreparedAttributeValue}
variable {rows : List ItemAttributeValue}

/- Every value was prepared from what was supplied for it. -/
theorem prepared_of_validated
    (h : validateAttributeValues U categoryId definitions
      supplied = .ok values)
    {p : PreparedAttributeValue}
    (hp : p ∈ values) :
    p.attr ∈ definitions ∧ ∃ raw,
      supplied.get? p.attr.key = some raw ∧
        prepareAttributeValue U p.attr raw = .ok (some p) := by
  have hAll := (validateAttributeValues_eq_ok_iff.mp h).2.2.2
  rcases prepareAll_eq_ok_iff.mp hAll with ⟨outs, hOuts, rfl⟩
  rcases (mem_prepareAll hOuts).mp hp with ⟨e, he, hPrep⟩
  rcases hPrep.accepted with ⟨hMem, hKey, _⟩
  rcases hPrep with ⟨a, hDef, hOk⟩
  have hAttr := (prepareAttributeValue_some hOk).definition
  subst hAttr
  refine ⟨hMem, e.2, ?_, hOk⟩
  rw [hKey]
  exact Dictionary.mem_entries.mp he

/- What is read back from the rows of the values. -/
def ReadsBack
    (itemId categoryId : Uuid)
    (values : List PreparedAttributeValue)
    (d : Dictionary Text AttributeValue) : Prop :=
  ∀ key v, d.get? key = some v ↔
    ∃ p ∈ values, p.attr.key = key ∧ ∃ row,
      itemAttributeRow itemId categoryId p = some row ∧
        storedAttributeValue p.attr row = .ok v

/- The attributes of an item can be loaded. -/
theorem Holds.loadAttributes
    (hIds : (s.categoryAttributes.map
      CategoryAttribute.id).Nodup)
    (h : Holds s itemId categoryId values rows)
    (hValues : validateAttributeValues U categoryId definitions
      supplied = .ok values) :
    ∃ d, loadAttributes s itemId = .ok d ∧
      ReadsBack itemId categoryId values d := by
  have hMem : ∀ x, x ∈ attributeRows s itemId ↔
      x ∈ joinedRows s itemId :=
    fun x => List.mem_insertionSort _
  have hKeys : ((attributeRows s itemId).map
      (fun x => x.1.key)).Nodup :=
    ((List.perm_insertionSort _ _).map _).nodup_iff.mpr
      (h.keys_joinedRows hIds)
  have hEach : ∀ x ∈ attributeRows s itemId, ∃ v,
      storedAttributeValue x.1 x.2 = .ok v := by
    rintro ⟨a, row⟩ hx
    rcases (h.mem_joinedRows hIds).mp ((hMem _).mp hx) with
      ⟨p, hp, rfl, hRow⟩
    rcases (prepared_of_validated hValues hp).2 with
      ⟨raw, _, hOk⟩
    rcases rereads_of_prepared hOk hRow with ⟨v, _, hv, _⟩
    exact ⟨v, hv⟩
  let entry (x : CategoryAttribute × ItemAttributeValue) :
      Except Error (Text × AttributeValue) := do
    let value ← storedAttributeValue x.1 x.2
    .ok (x.1.key, value)
  have hLoads : ∃ es, (attributeRows s itemId).mapM entry =
      .ok es := by
    apply Except.exists_mapM
    intro x hx
    rcases hEach x hx with ⟨v, hv⟩
    refine ⟨(x.1.key, v), ?_⟩
    change storedAttributeValue x.1 x.2 >>= _ = _
    rw [hv]
    rfl
  rcases hLoads with ⟨es, hLoads⟩
  have hForall := Except.mapM_eq_ok_iff.mp hLoads
  have hEntry : ∀ {x e}, entry x = .ok e ↔
      x.1.key = e.1 ∧ storedAttributeValue x.1 x.2 =
        .ok e.2 := by
    intro x e
    change storedAttributeValue x.1 x.2 >>= _ = _ ↔ _
    rw [Except.bind_eq_ok_iff]
    constructor
    · rintro ⟨v, hv, hEq⟩
      cases hEq
      exact ⟨rfl, hv⟩
    · rintro ⟨hKey, hv⟩
      exact ⟨e.2, hv, congrArg Except.ok
        (Prod.ext hKey rfl)⟩
  have hEntryKeys : es.map Prod.fst =
      (attributeRows s itemId).map (fun x => x.1.key) := by
    have hAll : ∀ (xs : List (CategoryAttribute ×
        ItemAttributeValue)) (es : List (Text × AttributeValue)),
        List.Forall₂ (fun x e => entry x = .ok e) xs es →
        es.map Prod.fst = xs.map (fun x => x.1.key) := by
      intro xs es hxs
      induction hxs with
      | nil => rfl
      | cons hHead _ ih =>
          rw [List.map_cons, List.map_cons, ih,
            (hEntry.mp hHead).1]
    exact hAll _ _ hForall
  refine ⟨Dictionary.ofList es, ?_, ?_⟩
  · change (attributeRows s itemId).mapM entry >>= _ = _
    rw [hLoads]
    rfl
  · intro key v
    rw [Dictionary.get?_ofList (by rw [hEntryKeys]; exact hKeys)]
    constructor
    · intro hIn
      rcases hForall.exists_left hIn with ⟨⟨a, row⟩, hx, hEq⟩
      rcases (h.mem_joinedRows hIds).mp ((hMem _).mp hx) with
        ⟨p, hp, rfl, hRow⟩
      rcases hEntry.mp hEq with ⟨hKey, hv⟩
      exact ⟨p, hp, hKey, row, hRow, hv⟩
    · rintro ⟨p, hp, rfl, row, hRow, hv⟩
      have hx := (hMem _).mpr ((h.mem_joinedRows hIds).mpr
        ⟨p, hp, rfl, hRow⟩)
      rcases hForall.exists_right hx with ⟨e, he, hEq⟩
      rcases hEntry.mp hEq with ⟨hKey, hv'⟩
      rw [hv] at hv'
      cases hv'
      rw [hKey]
      exact he

------------------------------------------------------------
-- Validating Again
------------------------------------------------------------

variable {attrs : List CategoryAttribute}
variable {supplied' : Dictionary Text RawValue}

/- The same values, written in other ways. -/
structure SameValues
    (U : Unicode)
    (values values' : List PreparedAttributeValue) : Prop where
  forth : ∀ p ∈ values, ∃ p' ∈ values', ∃ raw,
    Rereads U p raw p'
  back : ∀ p' ∈ values', ∃ p ∈ values, ∃ raw,
    Rereads U p raw p'
  keys : (values'.map (fun p => p.attr.key)).Nodup

/- Each value is supplied again, and nothing else is. -/
structure Resupplies
    (U : Unicode)
    (values : List PreparedAttributeValue)
    (supplied : Dictionary Text RawValue) : Prop where
  only : ∀ key raw, supplied.get? key = some raw →
    ∃ p ∈ values, p.attr.key = key ∧ ∃ p', Rereads U p raw p'
  all : ∀ p ∈ values, ∃ raw,
    supplied.get? p.attr.key = some raw

/- Values that are supplied again are accepted again. -/
theorem validateAttributeValues_again
    (hDefs : DefinitionsOf attrs definitions categoryId)
    (h : validateAttributeValues U categoryId definitions
      supplied = .ok values)
    (hAgain : Resupplies U values supplied') :
    ∃ values', validateAttributeValues U categoryId definitions
        supplied' = .ok values' ∧
      SameValues U values values' := by
  have hStored := storedExactly hDefs h
  have hEntry : ∀ e ∈ supplied'.entries, ∃ out,
      Prepares U definitions e (some out) ∧
        ∃ p ∈ values, p.attr.key = e.1 ∧
          Rereads U p e.2 out := by
    rintro ⟨key, raw⟩ he
    rcases hAgain.only key raw (Dictionary.mem_entries.mp he)
      with ⟨p, hp, rfl, p', hReads⟩
    refine ⟨p', ⟨p.attr, ?_, hReads.prepares⟩, p, hp, rfl,
      hReads⟩
    exact definitionOf_of_mem hDefs.keys (hStored.only p hp).1
  have hOuts : ∀ es : List (Text × RawValue),
      (∀ e ∈ es, e ∈ supplied'.entries) →
      ∃ outs, List.Forall₂ (fun e out =>
        Prepares U definitions e out) es outs := by
    intro es
    induction es with
    | nil => exact fun _ => ⟨[], List.Forall₂.nil⟩
    | cons e es ih =>
        intro hes
        rcases ih fun x hx =>
          hes x (List.mem_cons_of_mem e hx) with ⟨outs, hTail⟩
        rcases hEntry e (hes e List.mem_cons_self) with
          ⟨out, hPrep, _⟩
        exact ⟨some out :: outs, List.Forall₂.cons hPrep hTail⟩
  rcases hOuts _ fun e he => he with ⟨outs, hAll⟩
  have hUnique : ∀ {e out out'}, Prepares U definitions e out →
      Prepares U definitions e out' → out = out' := by
    rintro e out out' ⟨a, hDef, hOut⟩ ⟨a', hDef', hOut'⟩
    rw [hDef] at hDef'
    cases hDef'
    rw [hOut] at hOut'
    exact Except.ok.inj hOut'
  refine ⟨outs.reduceOption,
    validateAttributeValues_eq_ok_iff.mpr
      ⟨fun a ha => ((hDefs.all a).mp ha).2, ?_, ?_,
        prepareAll_eq_ok_iff.mpr ⟨outs, hAll, rfl⟩⟩, ?_, ?_, ?_⟩
  · intro key hKey
    rcases Dictionary.mem_keys.mp hKey with ⟨raw, hRaw⟩
    rcases hAgain.only key raw hRaw with ⟨p, hp, hEq, _⟩
    exact ⟨p.attr, (hStored.only p hp).1, hEq⟩
  · intro a ha hRequired
    rcases hStored.required a ha hRequired with ⟨p, hp, rfl⟩
    exact Dictionary.mem_keys.mpr (hAgain.all p hp)
  · intro p hp
    rcases hAgain.all p hp with ⟨raw, hRaw⟩
    have he := Dictionary.mem_entries.mpr hRaw
    rcases hEntry _ he with ⟨out, hPrep, q, hq, hKey, hReads⟩
    have hSame := List.inj_on_of_nodup_map hStored.distinct hq
      hp hKey
    subst hSame
    exact ⟨out, (mem_prepareAll hAll).mpr ⟨_, he, hPrep⟩, raw,
      hReads⟩
  · intro p' hp'
    rcases (mem_prepareAll hAll).mp hp' with ⟨e, he, hPrep⟩
    rcases hEntry e he with ⟨out, hPrep', q, hq, _, hReads⟩
    cases hUnique hPrep hPrep'
    exact ⟨q, hq, e.2, hReads⟩
  · exact supplied'.nodup.sublist (keys_prepareAll hAll)

/- Values of a map are the same as themselves. -/
theorem SameValues.refl
    (hDefs : DefinitionsOf attrs definitions categoryId)
    (h : validateAttributeValues U categoryId definitions
      supplied = .ok values) :
    SameValues U values values := by
  have hEach : ∀ p ∈ values, ∃ raw, Rereads U p raw p := by
    intro p hp
    rcases (prepared_of_validated h hp).2 with ⟨raw, _, hOk⟩
    exact ⟨raw, Rereads.same hOk⟩
  exact ⟨fun p hp => ⟨p, hp, hEach p hp⟩,
    fun p hp => ⟨p, hp, hEach p hp⟩,
    (storedExactly hDefs h).distinct⟩

/- The same values have the same rows. -/
theorem SameValues.storedRows
    {values' : List PreparedAttributeValue}
    (hSame : SameValues U values values')
    (hStored : StoredExactly U attrs definitions categoryId
      supplied values)
    (hStored' : StoredExactly U attrs definitions categoryId
      supplied' values')
    (hRows : values.mapM (itemAttributeRow itemId categoryId) =
      some rows) :
    ∃ rows', values'.mapM
        (itemAttributeRow itemId categoryId) = some rows' ∧
      rows'.Perm rows ∧
      ∀ row ∈ rows',
        validateItemAttributeValueDataType attrs row = true := by
  rcases hStored.rows itemId with ⟨rows₀, hMap, hIds, _⟩
  rw [hRows] at hMap
  cases hMap
  rcases hStored'.rows itemId with
    ⟨rows', hMap', hIds', hValid, _⟩
  have hForall := Option.mapM_eq_some_iff.mp hRows
  have hForall' := Option.mapM_eq_some_iff.mp hMap'
  refine ⟨rows', hMap', ?_, fun row hRow => (hValid row hRow).1⟩
  rw [List.perm_ext_iff_of_nodup (List.Nodup.of_map _ hIds')
    (List.Nodup.of_map _ hIds)]
  intro row
  constructor
  · intro hRow
    rcases hForall'.exists_left hRow with ⟨p', hp', hEq⟩
    rcases hSame.back p' hp' with ⟨p, hp, raw, hReads⟩
    rcases hForall.exists_right hp with ⟨row', hRow', hEq'⟩
    rw [hReads.row, hEq'] at hEq
    cases hEq
    exact hRow'
  · intro hRow
    rcases hForall.exists_left hRow with ⟨p, hp, hEq⟩
    rcases hSame.forth p hp with ⟨p', hp', raw, hReads⟩
    rcases hForall'.exists_right hp' with ⟨row', hRow', hEq'⟩
    rw [hReads.row, hEq] at hEq'
    cases hEq'
    exact hRow'

/- The same values are signed alike. -/
theorem SameValues.signedFields
    {values' : List PreparedAttributeValue}
    (hSame : SameValues U values values')
    (hKeys : (values.map (fun p => p.attr.key)).Nodup) :
    sortKeys (signedFields U values') =
      sortKeys (signedFields U values) := by
  have hNodup : ∀ vs : List PreparedAttributeValue,
      (vs.map (fun p => p.attr.key)).Nodup →
      ((Catalog.signedFields U vs).map Prod.fst).Nodup := by
    intro vs hvs
    unfold Catalog.signedFields
    rw [List.map_map]
    exact hvs.sublist (normalizedAttributes_keys vs)
  rw [sortKeys_eq_iff (hNodup _ hSame.keys) (hNodup _ hKeys)]
  intro field
  rw [mem_signedFields, mem_signedFields]
  constructor
  · rintro ⟨p', hp', v, hv, rfl⟩
    rcases hSame.back p' hp' with ⟨p, hp, raw, hReads⟩
    have hIdentity := hReads.identity
    rw [hv, Option.map_some] at hIdentity
    rcases Option.map_eq_some_iff.mp hIdentity.symm with
      ⟨w, hw, hEq⟩
    exact ⟨p, hp, w, hw, by rw [hReads.definition, hEq]⟩
  · rintro ⟨p, hp, v, hv, rfl⟩
    rcases hSame.forth p hp with ⟨p', hp', raw, hReads⟩
    have hIdentity := hReads.identity
    rw [hv, Option.map_some] at hIdentity
    rcases Option.map_eq_some_iff.mp hIdentity with
      ⟨w, hw, hEq⟩
    exact ⟨p', hp', w, hw, by rw [hReads.definition, hEq]⟩

/- Only what is found under the keys matters. -/
theorem Resupplies.congr
    {supplied'' : Dictionary Text RawValue}
    (h : Resupplies U values supplied')
    (hSame : ∀ key, supplied''.get? key =
      supplied'.get? key) :
    Resupplies U values supplied'' := by
  constructor
  · intro key raw hRaw
    rw [hSame] at hRaw
    exact h.only key raw hRaw
  · intro p hp
    rw [hSame]
    exact h.all p hp

/- What was read back supplies each value again. -/
theorem ReadsBack.resupplies
    {d : Dictionary Text AttributeValue}
    (h : ReadsBack itemId categoryId values d)
    (hDefs : DefinitionsOf attrs definitions categoryId)
    (hValues : validateAttributeValues U categoryId definitions
      supplied = .ok values) :
    Resupplies U values (d.mapValues AttributeValue.raw) := by
  have hStored := storedExactly hDefs hValues
  rcases hStored.rows itemId with ⟨rows, hMap, _⟩
  have hForall := Option.mapM_eq_some_iff.mp hMap
  constructor
  · intro key raw hRaw
    rw [Dictionary.get?_mapValues] at hRaw
    rcases Option.map_eq_some_iff.mp hRaw with ⟨v, hv, rfl⟩
    rcases (h key v).mp hv with ⟨p, hp, hKey, row, hRow, hRead⟩
    rcases (prepared_of_validated hValues hp).2 with
      ⟨raw, _, hOk⟩
    rcases rereads_of_prepared hOk hRow with
      ⟨v', p', hRead', hReads⟩
    rw [hRead] at hRead'
    cases hRead'
    exact ⟨p, hp, hKey, p', hReads⟩
  · intro p hp
    rcases hForall.exists_right hp with ⟨row, _, hRow⟩
    rcases (prepared_of_validated hValues hp).2 with
      ⟨raw, _, hOk⟩
    rcases rereads_of_prepared hOk hRow with ⟨v, p', hRead, _⟩
    refine ⟨v.raw, ?_⟩
    rw [Dictionary.get?_mapValues,
      (h p.attr.key v).mpr ⟨p, hp, rfl, row, hRow, hRead⟩]
    rfl

end Loading

end Catalog
