import DcInventory.Catalog.Restating
import DcInventory.Core.DecimalReading
import DcInventory.Core.Numbers

/-
  This file proves that the distance of a transceiver is
  stored as a text, whatever its category is configured to:
  numbers have no units.

  Key definitions include:
    * `Unicode.FoldsApart`
    * `Catalog.ReadsReach`
    * `Catalog.KeepsReach`

  Key theorems include:
    * `exists_metre_of_reach`
    * `Catalog.Draft.reachValue`
    * `Catalog.Draft.keepsReach`
    * `Catalog.Draft.resupplies`
-/

------------------------------------------------------------
-- Units
------------------------------------------------------------

/- What numbers are written with is folded to no unit. -/
def Unicode.FoldsApart (U : Unicode) : Prop :=
  ∀ c, c.toNat ≤ 127 ∨ U.digit c ≠ none → 'м' ∉ U.fold c

theorem Unicode.foldsApart_ascii :
    Unicode.ascii.FoldsApart := by
  intro c hc hMem
  have hLower : 'м' = c.toLower := List.mem_singleton.mp hMem
  have hSmall : c.toNat ≤ 127 := by
    rcases hc with hSmall | hDigit
    · exact hSmall
    · have hNumber : c.isDigit = true := by
        by_contra hOther
        exact hDigit (if_neg hOther)
      have hCode := code_of_isDigit hNumber
      omega
  have hCode := congrArg Char.toNat hLower
  rw [Unicode.toNat_toLower] at hCode
  have hUnit : 'м'.toNat = 1084 := rfl
  rw [hUnit] at hCode
  split at hCode
  · omega
  · omega

section Reading

variable {U : Unicode}

/- Every unit ends in the letter of metres. -/
theorem metre_of_unit
    {v rest : Text}
    {kilometres : Bool}
    (h : readDistanceUnit U v = some (kilometres, rest)) :
    'м' ∈ v := by
  unfold readDistanceUnit at h
  split at h
  · exact List.mem_cons_of_mem _ List.mem_cons_self
  · exact List.mem_cons_self
  · cases h

theorem readDistanceFraction_suffix (v : Text) :
    (readDistanceFraction U v).2 <:+ v := by
  cases v with
  | nil => exact List.suffix_refl []
  | cons c cs =>
      rw [readDistanceFraction_cons]
      split
      · exact (List.dropWhile_suffix U.isDigit).trans
          (List.suffix_cons c cs)
      · exact List.suffix_refl _

theorem metre_of_distance
    {v rest : Text}
    {distance : Distance}
    (h : readDistance U v = some (distance, rest)) :
    'м' ∈ v := by
  rw [readDistance_eq] at h
  split at h
  · cases h
  · rcases Option.map_eq_some_iff.mp h with ⟨x, hUnit, _⟩
    have hMem := metre_of_unit hUnit
    have hRest := (List.dropWhile_suffix Text.isSpace).subset
      hMem
    have hFraction :=
      (readDistanceFraction_suffix _).subset hRest
    exact (List.dropWhile_suffix U.isDigit).subset hFraction

theorem metre_of_scan
    {v : Text}
    (h : (scanDistances U v).1 ≠ []) :
    'м' ∈ v := by
  induction v with
  | nil => exact absurd rfl h
  | cons c cs ih =>
      cases hRead : readDistance U (c :: cs) with
      | none =>
          rw [scanDistances_none hRead] at h
          exact List.mem_cons_of_mem c (ih h)
      | some x => exact metre_of_distance hRead

/- A text with a distance has a letter that is folded to it. -/
theorem exists_metre_of_reach
    (hU : U.Lawful)
    {v : Text}
    {n : Int}
    (h : normalizeReach U v = .ok n) :
    ∃ c ∈ v, 'м' ∈ U.fold c := by
  have hFound : (scanDistances U
      (U.casefold (cleanText v))).1 ≠ [] := by
    intro hNone
    unfold normalizeReach reachOf at h
    simp only [hNone, if_true] at h
    cases h
  rcases List.mem_flatMap.mp (metre_of_scan hFound) with
    ⟨c, hc, hFold⟩
  have hSolid : Text.isSpace c = false := by
    rw [Bool.eq_false_iff]
    intro hSpace
    rw [hU.fold_space c hSpace] at hFold
    rw [← List.mem_singleton.mp hFold] at hSpace
    exact absurd hSpace (by decide)
  have hWord := @Words.mem_join_split_of_solid _ Text.isSpace
    ' ' c _ hSolid hc
  rw [words_cleanText] at hWord
  rcases Words.mem_join_split hWord with hSep | ⟨hMem, _⟩
  · rw [hSep] at hSolid
    exact absurd hSolid (by decide)
  · exact ⟨c, hMem, hFold⟩

------------------------------------------------------------
-- Numbers
------------------------------------------------------------

/- What a text of a number consists of. -/
theorem mem_numericAsAscii
    {v w : Text}
    (h : numericAsAscii U v = some w)
    {c : Char}
    (hc : c ∈ v) :
    c.toNat ≤ 127 ∨ Text.isSpace c = true ∨
      U.digit c ≠ none := by
  induction v generalizing w with
  | nil => cases hc
  | cons d ds ih =>
      unfold numericAsAscii at h
      rcases List.mem_cons.mp hc with rfl | hTail
      · split at h
        · rename_i hLine
          rw [hLine]
          exact .inl (by decide)
        · split at h
          · rename_i hAscii
            exact .inl hAscii.2
          · split at h
            · rename_i hSpace
              exact .inr (.inl hSpace)
            · split at h
              · cases h
              · rename_i hDigit
                exact .inr (.inr (by simp [hDigit]))
      · split at h
        · exact ih h hTail
        · split at h
          · rcases Option.map_eq_some_iff.mp h with ⟨x, hx, _⟩
            exact ih hx hTail
          · split at h
            · rcases Option.map_eq_some_iff.mp h with
                ⟨x, hx, _⟩
              exact ih hx hTail
            · split at h
              · cases h
              · rcases Option.map_eq_some_iff.mp h with
                  ⟨x, hx, _⟩
                exact ih hx hTail

/- A number is no distance. -/
theorem reach_ne_of_number
    (hU : U.Lawful)
    (hApart : U.FoldsApart)
    {v : Text}
    {d : PyDecimal}
    (hNumber : decimalOfText U (Text.strip v) = some d)
    (n : Int) :
    normalizeReach U v ≠ .ok n := by
  intro hReach
  rw [normalizeReach_congr hU
    (Words.split_strip v).symm] at hReach
  change normalizeReach U (Text.strip v) = .ok n at hReach
  rcases exists_metre_of_reach hU hReach with ⟨c, hc, hFold⟩
  unfold decimalOfText at hNumber
  rw [Text.strip_strip] at hNumber
  split at hNumber
  · cases hNumber
  · rename_i text hText
    rcases mem_numericAsAscii hText hc with
      hAscii | hSpace | hDigit
    · exact hApart c (.inl hAscii) hFold
    · rw [hU.fold_space c hSpace] at hFold
      rw [← List.mem_singleton.mp hFold] at hSpace
      exact absurd hSpace (by decide)
    · exact hApart c (.inr hDigit) hFold

theorem toNat_le_of_all
    {v : Text}
    (h : v.all (fun c => decide (c.toNat ≤ 127)) = true)
    (c : Char)
    (hc : c ∈ v) :
    c.toNat ≤ 127 :=
  of_decide_eq_true (List.all_eq_true.mp h c hc)

/- Nor is a text of ASCII characters. -/
theorem reach_ne_of_ascii
    (hU : U.Lawful)
    (hApart : U.FoldsApart)
    {v : Text}
    (hAscii : ∀ c ∈ v, c.toNat ≤ 127)
    (n : Int) :
    normalizeReach U v ≠ .ok n := by
  intro hReach
  rcases exists_metre_of_reach hU hReach with ⟨c, hc, hFold⟩
  exact hApart c (.inl (hAscii c hc)) hFold

theorem toNat_le_of_numeric
    {c : Char}
    (h : c = '-' ∨ c.isDigit = true) :
    c.toNat ≤ 127 := by
  rcases h with rfl | hDigit
  · decide
  · have hCode := code_of_isDigit hDigit
    omega

/- Decimals are printed in ASCII. -/
theorem Decimal.toNat_le_of_mem_str
    {d : Decimal}
    {c : Char}
    (hc : c ∈ d.str) :
    c.toNat ≤ 127 := by
  have hDigits : ∀ {m : Nat}, c ∈ Nat.toDigits 10 m →
      c.toNat ≤ 127 := fun h =>
    toNat_le_of_numeric (.inr (Decimal.isDigit_of_mem_digits h))
  unfold Decimal.str at hc
  rcases List.mem_append.mp hc with hSign | hNumber
  · unfold Decimal.signText at hSign
    split at hSign
    · rw [List.mem_singleton.mp hSign]
      decide
    · cases hSign
  · split at hNumber
    · split at hNumber
      · exact hDigits hNumber
      · rcases mem_pointText hNumber with rfl | hDigit
        · decide
        · exact toNat_le_of_numeric (.inr hDigit)
    · rcases List.mem_append.mp hNumber with hMantissa | hPower
      · unfold scientificText at hMantissa
        split at hMantissa
        · cases hMantissa
        · rename_i e hOne
          rw [← hOne] at hMantissa
          exact hDigits hMantissa
        · rename_i e es _ hMany
          have hSome : c = '.' ∨
              c ∈ Nat.toDigits 10 d.coefficient := by
            rw [hMany]
            rcases List.mem_cons.mp hMantissa with rfl | hTail
            · exact .inr List.mem_cons_self
            · rcases List.mem_cons.mp hTail with rfl | hRest
              · exact .inl rfl
              · exact .inr (List.mem_cons_of_mem e hRest)
          rcases hSome with rfl | hDigit
          · decide
          · exact hDigits hDigit
      · unfold exponentText at hPower
        rcases List.mem_cons.mp hPower with rfl | hTail
        · decide
        · rcases List.mem_cons.mp hTail with hSign | hDigit
          · rw [hSign]
            split <;> decide
          · exact hDigits hDigit

end Reading

------------------------------------------------------------
-- Transceivers
------------------------------------------------------------

namespace Catalog

variable {U : Unicode}
variable {sha256 : Text → Text}
variable {s : Db}
variable {payload : ItemCreate}
variable {attributes : Dictionary Text RawValue}
variable {p : PreparedItemIdentity}
variable {itemId : Uuid}
variable {d : Dictionary Text AttributeValue}

/- What is accepted for an attribute is no other distance. -/
theorem str_of_reach
    (hU : U.Lawful)
    (hApart : U.FoldsApart)
    {a : CategoryAttribute}
    {raw : RawValue}
    {x : PreparedAttributeValue}
    (hPrepared : prepareAttributeValue U a raw = .ok (some x))
    {text : Text}
    {n : Int}
    (hText : raw.str? = .ok text)
    (hReach : normalizeReach U text = .ok n) :
    raw = .str text ∧
      (a.dataType = .text ∨ a.dataType = .enum) := by
  cases raw with
  | str v =>
      have hSame : v = text := Except.ok.inj hText
      subst hSame
      refine ⟨rfl, ?_⟩
      unfold prepareAttributeValue at hPrepared
      cases hType : a.dataType
      all_goals
        simp only [hType] at hPrepared
      · exact .inl rfl
      · rcases prepareInteger_eq_ok_iff.mp hPrepared with
          ⟨_, hRaw, _⟩
        cases hRaw
      · rcases prepareDecimal_eq_some hPrepared with
          ⟨_, hRaw, _⟩
        exact absurd hReach
          (reach_ne_of_number hU hApart hRaw n)
      · rcases prepareBoolean_eq_ok_iff.mp hPrepared with
          ⟨_, hRaw, _⟩
        cases hRaw
      · exact .inr rfl
  | int m =>
      refine absurd hReach (reach_ne_of_ascii hU hApart ?_ n)
      unfold RawValue.str? intStr at hText
      simp only at hText
      split at hText
      · rename_i t ht
        split at ht
        · cases ht
        · cases ht
          cases hText
          rw [← intText_eq_dumpInt]
          exact fun c hc =>
            toNat_le_of_numeric (mem_intText hc)
      · cases hText
      · cases hText
        exact fun c hc => by cases hc
  | decimal e =>
      cases e with
      | finite e =>
          cases hText
          exact absurd hReach (reach_ne_of_ascii hU hApart
            (fun c hc => Decimal.toNat_le_of_mem_str hc) n)
      | special =>
          cases hText
          exact absurd hReach (reach_ne_of_ascii hU hApart
            (toNat_le_of_all (by decide)) n)
  | float t q =>
      unfold prepareAttributeValue at hPrepared
      cases hType : a.dataType
      all_goals
        simp only [hType] at hPrepared
        cases hPrepared
  | bool b =>
      refine absurd hReach (reach_ne_of_ascii hU hApart ?_ n)
      cases b with
      | false =>
          cases hText
          exact toNat_le_of_all (by decide)
      | true =>
          cases hText
          exact toNat_le_of_all (by decide)

/- A distance is read from the text that is prepared. -/
def ReadsReach
    (U : Unicode)
    (x : PreparedAttributeValue)
    (n : Int) : Prop :=
  ∃ text, x.value? = some (.text text) ∧
    normalizeReach U text = .ok n ∧
    ∀ itemId categoryId row,
      itemAttributeRow itemId categoryId x = some row →
        storedAttributeValue x.attr row = .ok (.text text)

/- The distance of a transceiver is prepared as a text. -/
theorem Draft.reachValue
    (hU : U.Lawful)
    (hApart : U.FoldsApart)
    (hKeys : CatalogKeys s)
    (h : Draft U sha256 s payload attributes p)
    (hTransceiver :
      "transceiver_".toList.isPrefixOf p.category.key = true) :
    ∃ x ∈ p.values, ∃ n, x.attr.key = "reach".toList ∧
      ReadsReach U x n ∧
      attributes.get? "reach_m".toList = some (.int n) := by
  have hStored := h.stored hKeys
  have hDerives := h.derives
  unfold derivedAttributes at hDerives
  rw [if_pos hTransceiver] at hDerives
  rcases deriveReach_eq_ok_iff.mp hDerives with
    ⟨text, n, hText, hReach, _, rfl⟩
  have hMetres : (payload.attributes.set "reach_m".toList
      (.int n)).get? "reach_m".toList = some (.int n) := by
    rw [Dictionary.get?_set, if_pos rfl]
  have hOther : (payload.attributes.set "reach_m".toList
      (.int n)).get? "reach".toList =
        payload.attributes.get? "reach".toList := by
    rw [Dictionary.get?_set, if_neg (by decide)]
  unfold reachText at hText
  cases hRaw : payload.attributes.get? "reach".toList with
  | none =>
      rw [hRaw] at hText
      cases hText
      exact absurd hReach (normalizeReach_blank hU rfl n)
  | some raw =>
      rw [hRaw] at hOther hText
      simp only at hText
      rcases hStored.known "reach".toList
        (Dictionary.mem_keys.mpr ⟨raw, hOther⟩) with
          ⟨a, ha, hKey⟩
      have hBlank : ¬ BlankFor a raw := by
        rintro ⟨v, rfl, hNil, _⟩
        cases hText
        exact normalizeReach_blank hU hNil n hReach
      rw [← hKey] at hOther
      rcases hStored.single a ha raw hOther hBlank with
        ⟨x, hx, rfl, _⟩
      rcases (prepared_of_validated h.validates hx).2 with
        ⟨raw', hRaw', hPrepared⟩
      rw [hOther] at hRaw'
      cases hRaw'
      rcases str_of_reach hU hApart hPrepared hText hReach with
        ⟨rfl, hType⟩
      refine ⟨x, hx, n, hKey, ?_, hMetres⟩
      unfold ReadsReach storedAttributeValue
      unfold prepareAttributeValue at hPrepared
      rcases hType with hType | hType
      all_goals
        simp only [hType] at hPrepared ⊢
      · rcases prepareText_eq_some_iff.mp hPrepared with
          ⟨v, hv, _, _, _, hX⟩
        cases hv
        refine ⟨keptText x.attr text, by rw [hX]; rfl, ?_, ?_⟩
        · rw [normalizeReach_keptText hU]
          exact hReach
        · intro itemId categoryId row hRow
          have hColumn := (itemAttributeRow_eq hRow).2.2.2.1
          rw [hX] at hColumn
          rw [hColumn]
          rfl
      · rcases prepareEnum_eq_some_iff.mp hPrepared with
          ⟨v, _, hv, _, _, _, hX⟩
        cases hv
        refine ⟨Text.normalize text, by rw [hX]; rfl, ?_, ?_⟩
        · rw [normalizeReach_congr hU (Text.words_normalize text)]
          exact hReach
        · intro itemId categoryId row hRow
          rcases itemAttributeRow_eq hRow with
            ⟨_, _, _, _, _, _, _, hEnum⟩
          rw [hX] at hEnum
          rw [hEnum]
          rfl

/-
  The distance of a transceiver is stored as a text that it
  is read from again, and as a number.
-/
def KeepsReach
    (U : Unicode)
    (attributes : Dictionary Text RawValue)
    (d : Dictionary Text AttributeValue) : Prop :=
  ∃ text n, d.get? "reach".toList = some (.text text) ∧
    normalizeReach U text = .ok n ∧
    attributes.get? "reach_m".toList = some (.int n)

theorem Draft.keepsReach
    (hU : U.Lawful)
    (hApart : U.FoldsApart)
    (hKeys : CatalogKeys s)
    (h : Draft U sha256 s payload attributes p)
    (hTransceiver :
      "transceiver_".toList.isPrefixOf p.category.key = true)
    (hBack : ReadsBack itemId p.category.id p.values d) :
    KeepsReach U attributes d := by
  rcases h.reachValue hU hApart hKeys hTransceiver with
    ⟨x, hx, n, hKey, ⟨text, _, hReach, hRead⟩, hMetres⟩
  rcases (h.stored hKeys).rows itemId with ⟨rows, hMap, _⟩
  rcases (Option.mapM_eq_some_iff.mp hMap).exists_right hx with
    ⟨row, _, hRow⟩
  exact ⟨text, n, (hBack _ _).mpr
    ⟨x, hx, hKey, row, hRow, hRead _ _ row hRow⟩, hReach,
    hMetres⟩

/-
  What is sent without the distance in metres supplies each
  value again, once the distance is derived.
-/
theorem Draft.resupplies
    (hKeys : CatalogKeys s)
    (h : Draft U sha256 s payload attributes p)
    {sent : Dictionary Text RawValue}
    (hMetres : sent.get? "reach_m".toList = none)
    (hReach :
      "transceiver_".toList.isPrefixOf p.category.key = true →
        ∃ text n, sent.get? "reach".toList =
            some (.str text) ∧
          normalizeReach U text = .ok n ∧
          attributes.get? "reach_m".toList = some (.int n))
    (hPlain :
      ¬ "transceiver_".toList.isPrefixOf p.category.key =
        true →
      ∀ x ∈ p.values, x.attr.key ≠ "reach_m".toList)
    (hOnly : ∀ key raw, sent.get? key = some raw →
      ∃ x ∈ p.values, x.attr.key = key ∧
        ∃ x', Rereads U x raw x')
    (hAll : ∀ x ∈ p.values, x.attr.key ≠ "reach_m".toList →
      ∃ raw, sent.get? x.attr.key = some raw) :
    ∃ derived, derivedAttributes U p.category sent =
        .ok derived ∧
      Resupplies U p.values derived := by
  unfold derivedAttributes
  by_cases hTransceiver :
      "transceiver_".toList.isPrefixOf p.category.key = true
  · rcases hReach hTransceiver with
      ⟨text, n, hText, hRead, hDerived⟩
    rw [if_pos hTransceiver]
    refine ⟨sent.set "reach_m".toList (.int n),
      deriveReach_eq_ok_iff.mpr ⟨text, n, ?_, hRead, ?_, rfl⟩,
        ?_, ?_⟩
    · unfold reachText
      rw [hText]
      rfl
    · intro raw hRaw
      rw [hMetres] at hRaw
      cases hRaw
    · intro key raw hRaw
      rw [Dictionary.get?_set] at hRaw
      split at hRaw
      · rename_i hKey
        cases hRaw
        have hStored := h.stored hKeys
        rcases hStored.known "reach_m".toList
          (Dictionary.mem_keys.mpr ⟨_, hDerived⟩) with
            ⟨a, ha, hA⟩
        rw [← hA] at hDerived
        rcases hStored.single a ha _ hDerived (by
          rintro ⟨w, hw, _⟩
          cases hw) with ⟨x, hx, rfl, _⟩
        rcases (prepared_of_validated h.validates hx).2 with
          ⟨raw', hRaw', hPrepared⟩
        rw [hDerived] at hRaw'
        cases hRaw'
        exact ⟨x, hx, hA.trans hKey.symm, x,
          Rereads.same hPrepared⟩
      · exact hOnly key raw hRaw
    · intro x hx
      rw [Dictionary.get?_set]
      split
      · exact ⟨_, rfl⟩
      · rename_i hKey
        exact hAll x hx hKey
  · rw [if_neg hTransceiver]
    exact ⟨sent, rfl, hOnly,
      fun x hx => hAll x hx (hPlain hTransceiver x hx)⟩

end Catalog
