import DcInventory.Catalog.Histories

/-
  This file proves when the signature of a stored item is the
  one that the database computes from its rows.

  Key definitions include:
    * `Catalog.HasSeparator`
    * `Catalog.StoresSeparator`

  Key theorems include:
    * `Catalog.catalogIdentityText_eq_iff`
    * `Catalog.signature_agrees_iff`
    * `Catalog.signatures_agree_iff`
-/

namespace Catalog

variable {U : Unicode}

------------------------------------------------------------
-- Texts
------------------------------------------------------------

/- One of U+001C to U+001F is in a text. -/
def HasSeparator (value : Text) : Prop :=
  ∃ c ∈ value, Unicode.isSeparator c = true

theorem not_hasSeparator_normalize (value : Text) :
    ¬ HasSeparator (Text.normalize value) := by
  rintro ⟨c, hc, hSep⟩
  rw [isSeparator_normalize hc] at hSep
  cases hSep

/- Normalisation keeps separators. -/
theorem hasSeparator_nfkc_iff
    (hU : U.Lawful)
    {value : Text} :
    HasSeparator (U.nfkc value) ↔ HasSeparator value := by
  constructor
  · rintro ⟨c, hc, hSep⟩
    exact ⟨c, hU.nfkc_separator value c hc hSep, hSep⟩
  · rintro ⟨c, hc, hSep⟩
    have hSpace := isSpace_of_isSeparator hSep
    rcases List.append_of_mem hc with ⟨v, w, rfl⟩
    rcases hU.nfkc_space c hSpace with ⟨d, hd, _, hKind⟩
    refine ⟨d, ?_, hKind.trans hSep⟩
    rw [hU.nfkc_append c hSpace, hd]
    simp

/- Folding neither makes nor loses separators. -/
theorem hasSeparator_casefold_iff
    (hU : U.Lawful)
    {value : Text} :
    HasSeparator (U.casefold value) ↔ HasSeparator value := by
  unfold HasSeparator Unicode.casefold
  constructor
  · rintro ⟨d, hd, hSep⟩
    rcases List.mem_flatMap.mp hd with ⟨c, hc, hFold⟩
    have hSpace := isSpace_of_isSeparator hSep
    cases hSolid : Text.isSpace c with
    | true =>
        rw [hU.fold_space c hSolid, List.mem_singleton] at hFold
        subst hFold
        exact ⟨d, hc, hSep⟩
    | false =>
        rw [hU.fold_solid c hSolid d hFold] at hSpace
        cases hSpace
  · rintro ⟨c, hc, hSep⟩
    refine ⟨c, List.mem_flatMap.mpr ⟨c, hc, ?_⟩, hSep⟩
    rw [hU.fold_space c (isSpace_of_isSeparator hSep)]
    exact List.mem_singleton_self c

theorem hasSeparator_squeeze
    {value : Text}
    (h : HasSeparator value) :
    HasSeparator (squeeze value) := by
  rcases h with ⟨c, hc, hSep⟩
  refine ⟨c, ?_, hSep⟩
  rw [squeeze_eq]
  apply Words.mem_join_split_of_solid _ hc
  simp [isSqlSpace, hSep]

/- The runtimes agree on texts without separators only. -/
theorem catalogIdentityText_eq_iff
    (hU : U.Lawful)
    {value : Text} :
    catalogIdentityText U value = identityText U value ↔
      ¬ HasSeparator value := by
  unfold catalogIdentityText identityText
  constructor
  · intro hEq hSep
    have hLeft : HasSeparator
        (U.casefold (squeeze (U.nfkc value))) :=
      (hasSeparator_casefold_iff hU).mpr (hasSeparator_squeeze
        ((hasSeparator_nfkc_iff hU).mpr hSep))
    rw [hEq, hasSeparator_casefold_iff hU] at hLeft
    exact not_hasSeparator_normalize _ hLeft
  · intro hNone
    rw [squeeze_eq_normalize]
    intro c hc
    by_contra hSep
    rw [Bool.not_eq_false] at hSep
    exact hNone ((hasSeparator_nfkc_iff hU).mp ⟨c, hc, hSep⟩)

theorem catalogIdentityText_normalize
    (hU : U.Lawful)
    (value : Text) :
    catalogIdentityText U (Text.normalize value) =
      identityText U value := by
  rw [(catalogIdentityText_eq_iff hU).mpr
    (not_hasSeparator_normalize value),
    identityText_normalize hU]

------------------------------------------------------------
-- Values
------------------------------------------------------------

/- What stands for the value of a row. -/
def storedIdentity
    (U : Unicode) (row : ItemAttributeValue) : Json :=
  match row.textValue, row.integerValue, row.decimalValue,
    row.booleanValue, row.enumValue with
  | some value, _, _, _, _ =>
      .str (catalogIdentityText U value)
  | none, some value, _, _, _ => .int value
  | none, none, some value, _, _ =>
      .str (catalogDecimalIdentity value)
  | none, none, none, some value, _ => .bool value
  | none, none, none, none, some value =>
      .str (catalogIdentityText U value)
  | none, none, none, none, none => .null

theorem rowJson_eq
    (U : Unicode)
    (row : ItemAttributeValue) :
    rowJson U row = Json.dumps (storedIdentity U row) := by
  unfold rowJson storedIdentity
  cases row.textValue with
  | some value => exact toJson_eq _
  | none =>
      cases row.integerValue with
      | some value => rfl
      | none =>
          cases row.decimalValue with
          | some value => exact toJson_eq _
          | none =>
              cases row.booleanValue with
              | some value => cases value <;> rfl
              | none =>
                  cases row.enumValue with
                  | some value => exact toJson_eq _
                  | none => rfl

/- A stored decimal is written as the decimal it stands for. -/
theorem catalogDecimalIdentity_eq
    {n : Numeric}
    {d : Decimal}
    (h : n.value = d.value) :
    catalogDecimalIdentity n = d.canonical := by
  have hText : catalogDecimalIdentity n =
      n.toDecimal.canonical := by
    rw [Decimal.canonical_eq_plainText]
    rfl
  rw [hText, Decimal.canonical_eq_iff, Numeric.value_toDecimal,
    h]

/- A value that is kept with a separator. -/
def KeepsSeparator (p : PreparedAttributeValue) : Prop :=
  ∃ value, p.textValue = some value ∧ HasSeparator value

/- The row of a value stands for the value. -/
theorem storedIdentity_eq_iff
    (hU : U.Lawful)
    {itemId categoryId : Uuid}
    {raw : RawValue}
    {p : PreparedAttributeValue}
    {row : ItemAttributeValue}
    (h : Represents U raw p)
    (hRow : itemAttributeRow itemId categoryId p = some row)
    (hExact : ∀ d n, p.decimalValue = some d →
      Numeric.ofDecimal? d = some n → n.value = d.value) :
    ∃ v, p.value? = some v ∧
      (storedIdentity U row = identityValue U v ↔
        ¬ KeepsSeparator p) := by
  unfold Represents at h
  cases hType : p.attr.dataType
  all_goals
    simp only [hType] at h
  · rcases h with ⟨w, _, _, hp⟩
    rw [hp] at hRow ⊢
    cases hRow
    refine ⟨.text (keptText p.attr w), rfl, ?_⟩
    change (Json.str (catalogIdentityText U _) =
      Json.str (identityText U _)) ↔ _
    rw [Json.str.injEq, catalogIdentityText_eq_iff hU]
    simp [KeepsSeparator]
  · rcases h with ⟨n, _, hp⟩
    rw [hp] at hRow ⊢
    cases hRow
    refine ⟨.integer n, rfl, ?_⟩
    simp [KeepsSeparator, storedIdentity, identityValue,
      PreparedAttributeValue.blank]
  · rcases h with ⟨d, _, hp⟩
    have hDecimal : p.decimalValue = some d := by
      rw [hp]
    have hStored := hRow
    rw [hp] at hStored
    rcases Option.map_eq_some_iff.mp hStored with
      ⟨n, hn, hEq⟩
    have hValue := hExact d n hDecimal hn
    refine ⟨.decimal d, by rw [hp]; rfl, ?_⟩
    have hText : p.textValue = none := by
      rw [hp]
      rfl
    rw [← hEq]
    simp [KeepsSeparator, storedIdentity, identityValue,
      PreparedAttributeValue.blank, hText,
      catalogDecimalIdentity_eq hValue]
  · rcases h with ⟨b, _, hp⟩
    rw [hp] at hRow ⊢
    cases hRow
    refine ⟨.boolean b, rfl, ?_⟩
    simp [KeepsSeparator, storedIdentity, identityValue,
      PreparedAttributeValue.blank]
  · rcases h with ⟨w, _, _, hp⟩
    rw [hp] at hRow ⊢
    cases hRow
    refine ⟨.text (Text.normalize w), rfl, ?_⟩
    simp [KeepsSeparator, storedIdentity, identityValue,
      PreparedAttributeValue.blank,
      (catalogIdentityText_eq_iff hU).mpr
        (not_hasSeparator_normalize w)]

------------------------------------------------------------
-- Signed Texts
------------------------------------------------------------

/- The fields of an object, as the database joins them. -/
theorem dumps_ofFields
    (fields : List (Text × Json)) :
    Json.dumps (.ofFields fields) =
      '\x7b' :: (commaJoin (fields.map (fun field =>
        toJson field.1 ++ ':' :: Json.dumps field.2)) ++
          ['\x7d']) := by
  have hRest : ∀ rest : List (Text × Json),
      Json.dumpFields (JsonFields.ofList rest) =
        (rest.flatMap (fun field => ',' :: (toJson field.1 ++
          ':' :: Json.dumps field.2))) ++ ['\x7d'] := by
    intro rest
    induction rest with
    | nil => rfl
    | cons field rest ih =>
        rw [List.flatMap_cons, List.append_assoc, ← ih,
          toJson_eq]
        simp [JsonFields.ofList, Json.dumpFields]
  have hJoin : ∀ (part : Text) (parts : List Text),
      commaJoin (part :: parts) =
        part ++ parts.flatMap (fun x => ',' :: x) := by
    intro part parts
    induction parts generalizing part with
    | nil => simp [commaJoin]
    | cons x xs ih =>
        rw [List.flatMap_cons]
        have hTail := ih x
        unfold commaJoin at hTail ⊢
        rw [List.intersperse_cons_cons, List.flatten_cons,
          List.flatten_cons, hTail]
        simp
  cases fields with
  | nil => rfl
  | cons field rest =>
      rw [List.map_cons, hJoin, List.flatMap_map,
        List.append_assoc]
      have hDumps : Json.dumps (.ofFields (field :: rest)) =
          '\x7b' :: (Json.dumpStr field.1 ++ ':' ::
            (Json.dumps field.2 ++
              Json.dumpFields (JsonFields.ofList rest))) :=
        rfl
      rw [hDumps, hRest, toJson_eq]
      simp

section Fields

variable {s : Db}

/- The attributes of an item as the database signs them. -/
def storedFields
    (U : Unicode)
    (s : Db)
    (itemId : Uuid) : List (Text × Json) :=
  (joinedRows s itemId).map (fun x =>
    (x.1.key, storedIdentity U x.2))

theorem attributesJson_eq
    (itemId : Uuid) :
    '\x7b' :: (attributesJson U s itemId ++ ['\x7d']) =
      Json.dumps (.ofFields
        (sortKeys (storedFields U s itemId))) := by
  rw [dumps_ofFields]
  unfold attributesJson storedFields
  have hSort : (joinedRows s itemId).map (fun x =>
      (x.1.key, rowJson U x.2)) =
      ((joinedRows s itemId).map (fun x =>
        (x.1.key, storedIdentity U x.2))).map (fun field =>
          (field.1, Json.dumps field.2)) := by
    rw [List.map_map]
    apply List.map_congr_left
    intro x _
    exact Prod.ext rfl (rowJson_eq U x.2)
  rw [hSort]
  unfold sortKeys
  have hMap := List.map_insertionSort
    (fun a b : Text × Json => Text.le a.1 b.1 = true)
    (fun a b : Text × Text => Text.le a.1 b.1 = true)
    (fun field => (field.1, Json.dumps field.2))
    ((joinedRows s itemId).map (fun x =>
      (x.1.key, storedIdentity U x.2)))
    (fun _ _ _ _ => Iff.rfl)
  rw [← hMap, List.map_map]
  rfl

variable {itemId categoryId : Uuid}
variable {attrs definitions : List CategoryAttribute}
variable {supplied : Dictionary Text RawValue}
variable {values : List PreparedAttributeValue}
variable {rows : List ItemAttributeValue}

theorem mem_storedFields
    (hIds : (s.categoryAttributes.map
      CategoryAttribute.id).Nodup)
    (h : Holds s itemId categoryId values rows)
    {field : Text × Json} :
    field ∈ storedFields U s itemId ↔
      ∃ p ∈ values, ∃ row,
        itemAttributeRow itemId categoryId p = some row ∧
        field = (p.attr.key, storedIdentity U row) := by
  unfold storedFields
  rw [List.mem_map]
  constructor
  · rintro ⟨⟨a, row⟩, hMem, rfl⟩
    rcases (h.mem_joinedRows hIds).mp hMem with
      ⟨p, hp, rfl, hRow⟩
    exact ⟨p, hp, row, hRow, rfl⟩
  · rintro ⟨p, hp, row, hRow, rfl⟩
    exact ⟨(p.attr, row),
      (h.mem_joinedRows hIds).mpr ⟨p, hp, rfl, hRow⟩, rfl⟩

theorem mem_signedFields
    {field : Text × Json} :
    field ∈ signedFields U values ↔
      ∃ p ∈ values, ∃ v, p.value? = some v ∧
        field = (p.attr.key, identityValue U v) := by
  unfold signedFields
  rw [List.mem_map]
  constructor
  · rintro ⟨⟨key, v⟩, hMem, rfl⟩
    rcases mem_normalizedAttributes.mp hMem with
      ⟨p, hp, rfl, hv⟩
    exact ⟨p, hp, v, hv, rfl⟩
  · rintro ⟨p, hp, v, hv, rfl⟩
    exact ⟨(p.attr.key, v),
      mem_normalizedAttributes.mpr ⟨p, hp, rfl, hv⟩, rfl⟩

/- Each value has a row, which may stand for it. -/
theorem Holds.identities
    (hU : U.Lawful)
    (h : Holds s itemId categoryId values rows)
    (hStored : StoredExactly U attrs definitions categoryId
      supplied values)
    {p : PreparedAttributeValue}
    (hp : p ∈ values) :
    ∃ row v, itemAttributeRow itemId categoryId p = some row ∧
      p.value? = some v ∧
      (storedIdentity U row = identityValue U v ↔
        ¬ KeepsSeparator p) := by
  rcases h.stored.exists_right hp with ⟨row, _, hRow⟩
  rcases (hStored.only p hp).2 with ⟨raw, _, hRaw⟩
  have hExact : ∀ d n, p.decimalValue = some d →
      Numeric.ofDecimal? d = some n → n.value = d.value := by
    intro d n hd hn
    rcases hStored.decimals p hp d hd with ⟨n', hn', hValue, _⟩
    rw [hn] at hn'
    cases hn'
    exact hValue
  rcases storedIdentity_eq_iff hU hRaw hRow hExact with
    ⟨v, hv, hIff⟩
  exact ⟨row, v, hRow, hv, hIff⟩

/- The fields agree if no value is kept with a separator. -/
theorem storedFields_eq_iff
    (hU : U.Lawful)
    (hIds : (s.categoryAttributes.map
      CategoryAttribute.id).Nodup)
    (h : Holds s itemId categoryId values rows)
    (hStored : StoredExactly U attrs definitions categoryId
      supplied values) :
    sortKeys (storedFields U s itemId) =
        sortKeys (signedFields U values) ↔
      ∀ p ∈ values, ¬ KeepsSeparator p := by
  have hStoredKeys :
      ((storedFields U s itemId).map Prod.fst).Nodup := by
    unfold storedFields
    rw [List.map_map]
    exact h.keys_joinedRows hIds
  have hSignedKeys :
      ((signedFields U values).map Prod.fst).Nodup := by
    unfold signedFields
    rw [List.map_map]
    exact hStored.distinct.sublist
      (normalizedAttributes_keys values)
  rw [sortKeys_eq_iff hStoredKeys hSignedKeys]
  constructor
  · intro hAll p hp
    rcases h.identities hU hStored hp with
      ⟨row, v, hRow, hv, hIff⟩
    have hMem := (hAll _).mp
      ((mem_storedFields hIds h).mpr ⟨p, hp, row, hRow, rfl⟩)
    rcases mem_signedFields.mp hMem with ⟨q, hq, v', hv', hEq⟩
    rcases Prod.mk.inj hEq with ⟨hKey, hJson⟩
    have hSame := List.inj_on_of_nodup_map h.keys hp hq hKey
    subst hSame
    rw [hv] at hv'
    cases hv'
    exact hIff.mp hJson
  · intro hNone field
    rw [mem_storedFields hIds h, mem_signedFields]
    constructor
    · rintro ⟨p, hp, row, hRow, rfl⟩
      rcases h.identities hU hStored hp with
        ⟨row', v, hRow', hv, hIff⟩
      rw [hRow] at hRow'
      cases hRow'
      exact ⟨p, hp, v, hv,
        Prod.ext rfl (hIff.mpr (hNone p hp))⟩
    · rintro ⟨p, hp, v, hv, rfl⟩
      rcases h.identities hU hStored hp with
        ⟨row, v', hRow, hv', hIff⟩
      rw [hv] at hv'
      cases hv'
      exact ⟨p, hp, row, hRow,
        Prod.ext rfl (hIff.mpr (hNone p hp)).symm⟩

end Fields

------------------------------------------------------------
-- Items
------------------------------------------------------------

section Items

variable {env : CatalogEnv}
variable {s : Db}
variable {payload : ItemCreate}
variable {attributes : Dictionary Text RawValue}
variable {p : PreparedItemIdentity}

theorem dumps_ofItems (a b c : Text) (d : Json) :
    Json.dumps (.ofItems [.str a, .str b, .str c, d]) =
      '[' :: (toJson a ++ ',' :: (toJson b ++ ',' ::
        (toJson c ++ ',' :: (Json.dumps d ++ [']'])))) := by
  simp [toJson_eq, Json.ofItems, JsonItems.ofList, Json.dumps,
    Json.dumpItems]

/- The manufacturer of a draft is found by its identifier. -/
theorem Draft.findManufacturer
    {sha256 : Text → Text}
    (hKeys : CatalogKeys s)
    (h : Draft U sha256 s payload attributes p) :
    payload.manufacturerId.bind s.findManufacturer =
      p.manufacturer := by
  have hMaker := h.manufacturer
  unfold DraftManufacturer at hMaker
  cases hId : payload.manufacturerId with
  | none =>
      rw [hId] at hMaker
      exact hMaker.symm
  | some id =>
      rw [hId] at hMaker
      rcases hMaker with ⟨m, hm, rfl, hEq⟩
      rw [hEq]
      exact Table.find_of_mem hKeys.manufacturers hm

/- Manufacturers agree if there is no separator in a name. -/
theorem catalogIdentityText_manufacturer_iff
    (hU : U.Lawful)
    (m : Option Manufacturer) :
    identityOfManufacturer U m = catalogIdentityText U
        ((m.map Manufacturer.name).getD []) ↔
      ∀ x, m = some x → ¬ HasSeparator x.name := by
  rw [← identityOfManufacturer_eq hU, eq_comm,
    catalogIdentityText_eq_iff hU]
  cases m with
  | none => simp [HasSeparator]
  | some x => simp

/- The stored model stands for the model of the draft. -/
theorem catalogIdentityText_model
    (hU : U.Lawful)
    {model stored : Option Text}
    (h : normalizeOptionalInlineText "model" 255 model =
      .ok stored) :
    catalogIdentityText U (stored.getD []) =
      identityOfModel U model := by
  have hNil : catalogIdentityText U [] = [] := by
    rw [(catalogIdentityText_eq_iff hU).mpr (by
      simp [HasSeparator])]
    exact identityText_blank hU rfl
  rw [normalizeOptionalInlineText_eq_ok h]
  cases model with
  | none => exact hNil
  | some m =>
      rw [identityOfModel]
      by_cases hBlank : Text.strip m = []
      · have hEmpty := Text.normalize_eq_nil_iff_strip.mpr
          hBlank
        simpa [hBlank, Option.filter, hEmpty] using hNil
      · have hSolid : Text.normalize m ≠ [] := fun hEmpty =>
          hBlank (Text.normalize_eq_nil_iff_strip.mp hEmpty)
        simp [hBlank, Option.filter, hSolid,
          catalogIdentityText_normalize hU]

/- The item's signature, and that of its rows. -/
theorem signature_agrees_iff
    (hU : env.unicode.Lawful)
    (hSha : Function.Injective env.sha256)
    (hKeys : CatalogKeys s)
    (hDraft : Draft env.unicode env.sha256 s payload attributes
      p)
    {item : Item}
    {rows : List ItemAttributeValue}
    (hFound : s.findItem item.id = some item)
    (hCategory : item.categoryId = p.category.id)
    (hMaker : item.manufacturerId = payload.manufacturerId)
    (hModel : normalizeOptionalInlineText "model" 255
      payload.model = .ok item.model)
    (hSignature : item.identitySignature =
      p.identitySignature)
    (hHolds : Holds s item.id p.category.id p.values rows) :
    some item.identitySignature =
        catalogItemSignature env s item.id ↔
      (∀ m, p.manufacturer = some m →
        ¬ HasSeparator m.name) ∧
      ∀ x ∈ p.values, ¬ KeepsSeparator x := by
  have hCategories := Table.find_of_mem hKeys.categories
    hDraft.category
  have hStored : catalogItemSignature env s item.id =
      some (env.sha256 (Json.dumps (.ofItems
        [.str p.category.key,
          .str (catalogIdentityText env.unicode
            ((p.manufacturer.map Manufacturer.name).getD [])),
          .str (catalogIdentityText env.unicode
            (item.model.getD [])),
          .ofFields (sortKeys (storedFields env.unicode s
            item.id))]))) := by
    unfold catalogItemSignature
    rw [hFound]
    simp only [Option.bind_eq_bind, Option.bind_some, hCategory,
      hCategories, hMaker, hDraft.findManufacturer hKeys]
    rw [dumps_ofItems, ← attributesJson_eq]
    simp
  rw [hStored, hSignature, hDraft.signature_eq hU hKeys]
  rw [Option.some_inj, hSha.eq_iff, Json.dumps_injective.eq_iff,
    Json.ofItems_injective.eq_iff]
  simp only [List.cons.injEq, Json.str.injEq, and_true,
    true_and, Json.ofFields_injective.eq_iff]
  rw [catalogIdentityText_model hU hModel]
  unfold identityOf
  simp only [true_and]
  rw [catalogIdentityText_manufacturer_iff hU, eq_comm,
    storedFields_eq_iff hU hKeys.attributes hHolds
      (hDraft.stored hKeys)]

/- A text of a draft that is kept with a separator inside. -/
def PreservesSeparator
    (definitions : List CategoryAttribute)
    (attributes : Dictionary Text RawValue) : Prop :=
  ∃ a ∈ definitions, a.dataType = .text ∧
    a.metadata? "preserve_whitespace" = some (.bool true) ∧
    ∃ v, attributes.get? a.key = some (.str v) ∧
      HasSeparator (Text.strip v)

/-
  A draft has a separator that is stored: in the name of its
  manufacturer, or in a text whose white space is kept.
-/
def StoresSeparator
    (U : Unicode)
    (s : Db)
    (payload : ItemCreate) : Prop :=
  (∃ m ∈ s.manufacturers, payload.manufacturerId = some m.id ∧
    HasSeparator m.name) ∨
  ∃ c ∈ s.categories,
    normalizeCategoryKey U payload.categoryKey = .ok c.key ∧
    PreservesSeparator (definitionsOfCategory s c.id)
      payload.attributes

/- Deriving the reach keeps the texts of a draft. -/
theorem derivedAttributes_str_iff
    {category : Category}
    {supplied derived : Dictionary Text RawValue}
    (h : derivedAttributes U category supplied = .ok derived)
    {key v : Text} :
    derived.get? key = some (.str v) ↔
      supplied.get? key = some (.str v) := by
  unfold derivedAttributes at h
  split at h
  · unfold deriveReach at h
    simp only at h
    split at h
    · cases h
    · cases h
    · rename_i reach _
      have hSet : ∀ raw, supplied.get? "reach_m".toList = raw →
          (∀ w, raw ≠ some (.str w)) →
          ((supplied.set "reach_m".toList (.int reach)).get? key =
            some (.str v) ↔
          supplied.get? key = some (.str v)) := by
        intro raw hRaw hNot
        rw [Dictionary.get?_set]
        split
        · rename_i hKey
          rw [hKey, hRaw]
          simp [hNot v]
        · rfl
      split at h
      · rename_i raw hRaw
        split at h
        · rename_i hEquals
          cases h
          apply hSet _ hRaw
          rintro w hEq
          cases hEq
          cases hEquals
        · cases h
      · rename_i hRaw
        cases h
        exact hSet _ hRaw (by simp)
  · cases h
    rfl

/- The separators of the values of a draft. -/
theorem Draft.keepsSeparator_iff
    {sha256 : Text → Text}
    (hKeys : CatalogKeys s)
    (h : Draft U sha256 s payload attributes p) :
    (∃ x ∈ p.values, KeepsSeparator x) ↔
      PreservesSeparator (definitionsOfCategory s
        p.category.id) payload.attributes := by
  have hStored := h.stored hKeys
  constructor
  · rintro ⟨x, hx, w, hText, hSep⟩
    rcases hStored.only x hx with ⟨hDef, raw, hRaw, hRep⟩
    have hCase : x.attr.dataType = .text ∧ ∃ v, raw = .str v ∧
        w = keptText x.attr v := by
      unfold Represents at hRep
      cases hType : x.attr.dataType
      all_goals
        simp only [hType] at hRep
      case text =>
        rcases hRep with ⟨v, hEq, _, hx'⟩
        rw [hx'] at hText
        cases hText
        exact ⟨rfl, v, hEq, rfl⟩
      case enum =>
        rcases hRep with ⟨v, _, _, hx'⟩
        rw [hx'] at hText
        cases hText
      all_goals
        rcases hRep with ⟨v, _, hx'⟩
        rw [hx'] at hText
        cases hText
    rcases hCase with ⟨hType, v, rfl, rfl⟩
    unfold keptText at hSep
    split at hSep
    · rename_i hKeeps
      exact ⟨x.attr, hDef, hType, hKeeps, v,
        (derivedAttributes_str_iff h.derives).mp hRaw, hSep⟩
    · exact absurd hSep (not_hasSeparator_normalize v)
  · rintro ⟨a, ha, hType, hKeeps, v, hRaw, hSep⟩
    have hDerived :=
      (derivedAttributes_str_iff h.derives).mpr hRaw
    have hSolid : Text.strip v ≠ [] := by
      rcases hSep with ⟨c, hc, _⟩
      exact List.ne_nil_of_mem hc
    have hNotBlank : ¬ BlankFor a (.str v) := by
      rintro ⟨w, hEq, hNil, _⟩
      cases hEq
      exact hSolid hNil
    rcases hStored.single a ha _ hDerived hNotBlank with
      ⟨x, hx, rfl, hRep⟩
    refine ⟨x, hx, keptText x.attr v, ?_, ?_⟩
    · unfold Represents at hRep
      simp only [hType] at hRep
      rcases hRep with ⟨w, hEq, _, hx'⟩
      cases hEq
      rw [hx']
      rfl
    · rw [keptText, if_pos hKeeps]
      exact hSep

theorem Draft.storesSeparator_iff
    {sha256 : Text → Text}
    (hKeys : CatalogKeys s)
    (h : Draft U sha256 s payload attributes p) :
    ¬ StoresSeparator U s payload ↔
      (∀ m, p.manufacturer = some m →
        ¬ HasSeparator m.name) ∧
      ∀ x ∈ p.values, ¬ KeepsSeparator x := by
  have hMaker : (∃ m ∈ s.manufacturers,
      payload.manufacturerId = some m.id ∧
        HasSeparator m.name) ↔
      ∃ m, p.manufacturer = some m ∧ HasSeparator m.name := by
    have hFind := h.manufacturer
    unfold DraftManufacturer at hFind
    cases hId : payload.manufacturerId with
    | none =>
        rw [hId] at hFind
        simp [hFind]
    | some id =>
        rw [hId] at hFind
        rcases hFind with ⟨m, hm, rfl, hEq⟩
        rw [hEq]
        constructor
        · rintro ⟨m', hm', hSame, hSep⟩
          have hSelf := List.inj_on_of_nodup_map
            hKeys.manufacturers hm hm' (Option.some.inj hSame)
          exact ⟨m, rfl, hSelf ▸ hSep⟩
        · rintro ⟨m', hSame, hSep⟩
          cases hSame
          exact ⟨m, hm, rfl, hSep⟩
  have hTexts : (∃ c ∈ s.categories,
      normalizeCategoryKey U payload.categoryKey = .ok c.key ∧
      PreservesSeparator (definitionsOfCategory s c.id)
        payload.attributes) ↔
      ∃ x ∈ p.values, KeepsSeparator x := by
    rw [h.keepsSeparator_iff hKeys]
    constructor
    · rintro ⟨c, hc, hKey, hSep⟩
      rw [h.categoryKey] at hKey
      have hSame := category_eq_of_key hKeys h.category hc
        (Except.ok.inj hKey)
      rw [hSame]
      exact hSep
    · intro hSep
      exact ⟨p.category, h.category, h.categoryKey, hSep⟩
  unfold StoresSeparator
  rw [hMaker, hTexts]
  push Not
  rfl

variable {s' : Db}

theorem Creates.signature_agrees_iff
    (hU : env.unicode.Lawful)
    (hSha : Function.Injective env.sha256)
    (hInv : CatalogInv env s)
    {newId : Uuid}
    {now : Time}
    {columns : ItemColumns}
    {rows : List ItemAttributeValue}
    (h : Creates env newId now payload p columns rows s s') :
    some columns.identitySignature =
        catalogItemSignature env s' newId ↔
      ¬ StoresSeparator env.unicode s payload := by
  rcases (prepareStoredIdentity_iff hInv.keys).mp h.prepares
    with ⟨attributes, hDraft⟩
  have hFound := h.found
  have hHolds := h.holds hInv.keys hInv.owned
  rw [hDraft.storesSeparator_iff hInv.keys]
  have hKeys : CatalogKeys s' := by
    rw [h.result]
    exact ⟨hInv.keys.categories, hInv.keys.categoryKeys,
      hInv.keys.manufacturers, hInv.keys.attributes,
      hInv.keys.attributeKeys⟩
  have hPrepares : prepareStoredIdentity env.unicode env.sha256
      s' payload = .ok p := by
    rw [← h.prepares, h.result]
    exact prepareStoredIdentity_congr rfl rfl rfl payload
  rcases (prepareStoredIdentity_iff hKeys).mp hPrepares with
    ⟨attributes', hDraft'⟩
  let item := newItem newId now payload p.category columns
  change some item.identitySignature =
    catalogItemSignature env s' item.id ↔ _
  exact Catalog.signature_agrees_iff hU hSha hKeys hDraft'
    hFound rfl rfl h.derives.model h.derives.signature hHolds

theorem Edits.signature_agrees_iff
    (hU : env.unicode.Lawful)
    (hFold : env.unicode.FoldsSmall)
    (hSha : Function.Injective env.sha256)
    (hInv : CatalogInv env s)
    {now : Time}
    {itemId : Uuid}
    {patch : ItemPatch}
    {item : Item}
    {merged : ItemCreate}
    {columns : ItemColumns}
    {rows : List ItemAttributeValue}
    (h : Edits env now itemId patch item merged p columns rows
      s s') :
    some columns.identitySignature =
        catalogItemSignature env s' itemId ↔
      ¬ StoresSeparator env.unicode s merged := by
  have hId : item.id = itemId :=
    Table.key_of_find h.reads.found
  rcases hInv.recorded item (Table.mem_of_find h.reads.found)
    with ⟨old, q, rows', hRec⟩
  have hCategory := h.category hFold hInv.keys hRec
  have hNew := h.recorded hInv.keys
    (hRec.category.trans (congrArg Category.id hCategory.symm))
  have hKeys := (hInv.edited hFold h).keys
  rcases (prepareStoredIdentity_iff hInv.keys).mp h.prepares
    with ⟨attributes, hDraft⟩
  rcases (prepareStoredIdentity_iff hKeys).mp hNew.prepares
    with ⟨attributes', hDraft'⟩
  rw [hDraft.storesSeparator_iff hInv.keys]
  have hFound := h.found
  subst hId
  exact Catalog.signature_agrees_iff hU hSha hKeys hDraft'
    hFound hNew.category rfl hNew.model hNew.signature
      hNew.holds

end Items

/-
  The signature of a stored item is the one that the database
  computes, unless a separator is stored: in a text whose
  white space is kept, or in the name of the manufacturer.
-/
theorem signatures_agree_iff
    {env : CatalogEnv}
    {s : Db}
    (hU : env.unicode.Lawful)
    (hFold : env.unicode.FoldsSmall)
    (hSha : Function.Injective env.sha256)
    (hHistory : CatalogHistory env s) :
    (∀ newId now payload r s',
      (createItem env newId now payload).run s =
        .ok (r, s') →
      ∃ item, s'.findItem newId = some item ∧
        (some item.identitySignature =
            catalogItemSignature env s' newId ↔
          ¬ StoresSeparator env.unicode s payload)) ∧
    (∀ now itemId patch r s',
      (updateItem env now itemId patch).run s =
        .ok (r, s') →
      ∃ old payload item, Reads itemId patch payload old s ∧
        s'.findItem itemId = some item ∧
        (some item.identitySignature =
            catalogItemSignature env s' itemId ↔
          ¬ StoresSeparator env.unicode s payload)) := by
  have hInv := hHistory.inv hFold
  constructor
  · intro newId now payload r s' hRun
    rcases createItem_run_iff.mp hRun with
      ⟨_, p, columns, rows, h⟩
    exact ⟨_, h.found, h.signature_agrees_iff hU hSha hInv⟩
  · intro now itemId patch r s' hRun
    rcases updateItem_run_iff.mp hRun with
      ⟨_, item, merged, p, columns, rows, h⟩
    exact ⟨item, merged, _, h.reads, h.found,
      h.signature_agrees_iff hU hFold hSha hInv⟩

------------------------------------------------------------
-- A Separated Cable
------------------------------------------------------------

namespace SeparatedCable

/- The colour keeps its white space. -/
def colour : CategoryAttribute :=
  { BlankCable.textAttribute 5 "color" with
    validationMetadata := some
      [("max_length".toList, .int 2000),
        ("preserve_whitespace".toList, .bool true)] }

def start : Db :=
  { BlankCable.start with
    categoryAttributes := [BlankCable.textAttribute 0 "type",
      BlankCable.textAttribute 1 "connector_a",
      BlankCable.textAttribute 2 "connector_b",
      BlankCable.lengthAttribute,
      BlankCable.textAttribute 4 "rating", colour] }

/- A cable of two colours with U+001C between them. -/
def payload : ItemCreate where
  categoryKey := "power_cable".toList
  manufacturerId := none
  name := "Cable".toList
  model := none
  attributes := ⟨[("type".toList, .str "C13-C14".toList),
    ("connector_a".toList, .str "C13".toList),
    ("connector_b".toList, .str "C14".toList),
    ("length_m".toList, .str "1.5".toList),
    ("rating".toList, .str "10A".toList),
    ("color".toList, .str "red\x1cblack".toList)], by decide⟩
  categoryKeyLength := BlankCable.payload.categoryKeyLength
  nameLength := BlankCable.payload.nameLength
  modelLength := by decide

def created : Db :=
  (createItem BlankCable.env ⟨9⟩ 0 payload).settle start

/- The cable is created, and rejected when it is committed. -/
theorem separated_cable_has_another_signature :
    ((createItem BlankCable.env ⟨9⟩ 0 payload).run
        start).toOption.map Prod.fst = some ⟨9⟩ ∧
      (created.findItem ⟨9⟩).map Item.identitySignature ≠
        catalogItemSignature BlankCable.env created ⟨9⟩ ∧
      assertCatalogItemIdentity BlankCable.env created ⟨9⟩ =
        .error (raise (.itemIdentity
          ("items.identity_signature " ++
            "diverges from canonical Item/EAV identity"))) := by
  refine ⟨?_, ?_, ?_⟩
  · decide +kernel
  · decide +kernel
  · decide +kernel

/- A cable without separators has the signature of its rows. -/
theorem cable_signatures_agree :
    ∃ item, BlankCable.created.findItem ⟨9⟩ = some item ∧
      (some item.identitySignature = catalogItemSignature
          BlankCable.env BlankCable.created ⟨9⟩ ↔
        ¬ StoresSeparator BlankCable.env.unicode
          BlankCable.start BlankCable.payload) := by
  have hHistory : CatalogHistory BlankCable.env
      BlankCable.start :=
    .start ⟨by decide, by decide, by decide, by decide,
      by decide⟩ rfl rfl
  exact (@signatures_agree_iff BlankCable.env _
    Unicode.lawful_ascii Unicode.foldsSmall_ascii
    Function.injective_id hHistory).1 _ _ _ _ _
      BlankCable.run_created

end SeparatedCable

end Catalog
