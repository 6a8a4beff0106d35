import DcInventory.Catalog.Service

/-
  This file defines the identity of an item as the database
  computes it from the stored rows.

  Key definitions include:
    * `Catalog.catalogNormalizeComparison`
    * `Catalog.catalogIdentityText`
    * `Catalog.catalogItemSignature`
    * `Catalog.assertCatalogItemIdentity`

  Key theorems include:
    * `Catalog.squeeze_eq`
    * `Catalog.toJson_eq`
-/

namespace Catalog

------------------------------------------------------------
-- Texts
------------------------------------------------------------

/-
  `[[:space:]]`: the characters with the Unicode property
  White_Space.
-/
def isSqlSpace (c : Char) : Bool :=
  Text.isSpace c && !Unicode.isSeparator c

/-
  `btrim` of the text with each run of white space replaced
  by a blank.
-/
def squeeze (value : Text) : Text :=
  Words.strip (fun c => decide (c = ' '))
    (Words.collapse isSqlSpace ' ' false value)

def catalogNormalizeComparison
    (U : Unicode) (value : Text) : Text :=
  U.casefold (squeeze value)

def catalogIdentityText
    (U : Unicode) (value : Text) : Text :=
  U.casefold (squeeze (U.nfkc value))

/- The normal form of a text with other white space. -/
theorem squeeze_eq (value : Text) :
    squeeze value =
      Words.join ' ' (Words.split isSqlSpace value) :=
  Words.strip_collapse (by decide) value

/- Without separators both runtimes see the same words. -/
theorem squeeze_eq_normalize
    {value : Text}
    (h : ∀ c ∈ value, Unicode.isSeparator c = false) :
    squeeze value = Text.normalize value := by
  rw [squeeze_eq, Text.normalize_eq]
  congr 1
  apply Words.split_congr
  intro c hc
  simp [isSqlSpace, h c hc]

theorem isSpace_of_isSeparator
    {c : Char}
    (h : Unicode.isSeparator c = true) :
    Text.isSpace c = true := by
  unfold Unicode.isSeparator at h
  unfold Text.isSpace
  simp only [Bool.and_eq_true, decide_eq_true_eq] at h
  simp only [Bool.or_eq_true, Bool.and_eq_true,
    decide_eq_true_eq]
  omega

/- A normal form has no separators. -/
theorem isSeparator_normalize
    {value : Text}
    {c : Char}
    (hc : c ∈ Text.normalize value) :
    Unicode.isSeparator c = false := by
  rcases Text.mem_normalize hc with rfl | ⟨_, hSolid⟩
  · decide
  · by_contra hSep
    rw [Bool.not_eq_false] at hSep
    rw [isSpace_of_isSeparator hSep] at hSolid
    cases hSolid

theorem squeeze_normalize (value : Text) :
    squeeze (Text.normalize value) = Text.normalize value := by
  rw [squeeze_eq_normalize, Text.normalize_normalize]
  exact fun c hc => isSeparator_normalize hc

------------------------------------------------------------
-- JSON
------------------------------------------------------------

/- One character as `to_json` writes it. -/
def toJsonChar (c : Char) : Text :=
  if c = '\x08' then ['\\', 'b']
  else if c = '\x0c' then ['\\', 'f']
  else if c = '\n' then ['\\', 'n']
  else if c = '\r' then ['\\', 'r']
  else if c = '\t' then ['\\', 't']
  else if c = '"' then ['\\', '"']
  else if c = '\\' then ['\\', '\\']
  else if c.toNat < 32 then
    ['\\', 'u', '0', '0', Nat.digitChar (c.toNat / 16),
      Nat.digitChar (c.toNat % 16)]
  else [c]

/- `to_json(value)::text` -/
def toJson (value : Text) : Text :=
  '"' :: (value.flatMap toJsonChar ++ ['"'])

theorem toJsonChar_eq (c : Char) :
    toJsonChar c = Json.escape c := by
  unfold toJsonChar Json.escape
  split_ifs <;> simp_all

/- Both runtimes escape alike. -/
theorem toJson_eq (value : Text) :
    toJson value = Json.dumpStr value := by
  unfold toJson Json.dumpStr
  congr 1
  induction value with
  | nil => rfl
  | cons c cs ih =>
      rw [List.flatMap_cons, List.append_assoc, ih,
        toJsonChar_eq]
      rfl

------------------------------------------------------------
-- Signatures
------------------------------------------------------------

/- `trim_scale(value)::text` -/
def catalogDecimalIdentity (value : Numeric) : Text :=
  Decimal.plainText (decide (value.unscaled < 0))
    (Decimal.reduce value.unscaled.natAbs maxDecimalScale)

/- What stands for the value of a row. -/
def rowJson (U : Unicode) (row : ItemAttributeValue) : Text :=
  match row.textValue, row.integerValue, row.decimalValue,
    row.booleanValue, row.enumValue with
  | some value, _, _, _, _ =>
      toJson (catalogIdentityText U value)
  | none, some value, _, _, _ => Json.dumpInt value
  | none, none, some value, _, _ =>
      toJson (catalogDecimalIdentity value)
  | none, none, none, some true, _ => "true".toList
  | none, none, none, some false, _ => "false".toList
  | none, none, none, none, some value =>
      toJson (catalogIdentityText U value)
  | none, none, none, none, none => "null".toList

/- `string_agg(..., ',')` -/
def commaJoin (parts : List Text) : Text :=
  (parts.intersperse [',']).flatten

/- The attributes of an item in the order of their keys. -/
def attributesJson
    (U : Unicode) (db : Db) (itemId : Uuid) : Text :=
  commaJoin ((sortKeys ((joinedRows db itemId).map (fun x =>
    (x.1.key, rowJson U x.2)))).map (fun field =>
      toJson field.1 ++ ':' :: field.2))

def catalogItemSignature
    (env : CatalogEnv)
    (db : Db)
    (itemId : Uuid) : Option Text := do
  let item ← db.findItem itemId
  let category ←
    Table.find Category.id item.categoryId db.categories
  let manufacturer := item.manufacturerId.bind
    db.findManufacturer
  let identity (value : Text) : Text :=
    toJson (catalogIdentityText env.unicode value)
  some (env.sha256 ('[' :: (toJson category.key ++ ',' ::
    (identity ((manufacturer.map Manufacturer.name).getD []) ++
      ',' :: (identity (item.model.getD []) ++ ',' :: '\x7b' ::
        (attributesJson env.unicode db itemId ++
          ['\x7d', ']']))))))

/- The check of an item at the end of a transaction. -/
def assertCatalogItemIdentity
    (env : CatalogEnv)
    (db : Db)
    (itemId : Uuid) : Except Error Unit :=
  match db.findItem itemId with
  | none => .ok ()
  | some item =>
      if item.normalizedName ≠
          catalogNormalizeComparison env.unicode item.name then
        .error (raise (.itemIdentity
          "items.normalized_name diverges from canonical name"))
      else if item.normalizedModel ≠ item.model.map
          (catalogNormalizeComparison env.unicode) then
        .error (raise (.itemIdentity ("items.normalized_model " ++
          "diverges from canonical model")))
      else if some item.identitySignature ≠
          catalogItemSignature env db itemId then
        .error (raise (.itemIdentity ("items.identity_signature " ++
          "diverges from canonical Item/EAV identity")))
      else .ok ()

end Catalog
