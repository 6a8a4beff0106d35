import DcInventory.Catalog.DatabaseIdentity
import DcInventory.Catalog.Outcomes

/-
  This file proves when the normalised columns of a stored
  item are those that the database expects.

  Key definitions include:
    * `Catalog.CanonicalNames`
    * `Catalog.BlankModel`

  Key theorems include:
    * `Catalog.canonicalNames_of_edit`
    * `Catalog.stored_names_are_canonical_iff`
-/

namespace Catalog

section Stored

variable {env : CatalogEnv}

/- The normalised columns that the database computes. -/
def CanonicalNames (U : Unicode) (item : Item) : Prop :=
  item.normalizedName =
      catalogNormalizeComparison U item.name ∧
    item.normalizedModel =
      item.model.map (catalogNormalizeComparison U)

/- A model that is not empty but has white space only. -/
def BlankModel (payload : ItemCreate) : Prop :=
  ∃ m, payload.model = some m ∧ m ≠ [] ∧
    ∀ c ∈ m, Text.isSpace c = true

------------------------------------------------------------
-- Columns
------------------------------------------------------------

theorem normalizeInlineText_eq_ok
    {value w : Text}
    {field : String}
    {n : Nat}
    (h : normalizeInlineText value field n = .ok w) :
    w = Text.normalize value ∧ w ≠ [] := by
  unfold normalizeInlineText at h
  simp only at h
  split at h
  · cases h
  · rename_i hNe
    split at h
    · cases h
    · cases h
      exact ⟨rfl, hNe⟩

theorem normalizeComparison_eq_ok
    {U : Unicode}
    {value w : Text}
    {field : String}
    {n : Nat}
    (h : normalizeComparison U value field n = .ok w) :
    w = U.casefold (Text.normalize value) := by
  unfold normalizeComparison at h
  simp only at h
  split at h
  · cases h
  · cases h
    rfl

/- A blank text is kept as nothing. -/
theorem normalizeOptionalInlineText_eq_ok
    {value w : Option Text}
    {field : String}
    {n : Nat}
    (h : normalizeOptionalInlineText field n value = .ok w) :
    w = (value.map Text.normalize).filter
      (fun v => decide (v ≠ [])) := by
  cases value with
  | none =>
      cases h
      rfl
  | some v =>
      unfold normalizeOptionalInlineText at h
      simp only at h
      split at h
      · rename_i hNil
        cases h
        simp [Option.filter, hNil]
      · rename_i hNe
        split at h
        · cases h
        · cases h
          simp [Option.filter, hNe]

/- Only an empty text is kept as nothing. -/
theorem normalizeOptionalComparison_eq_ok
    {U : Unicode}
    {value w : Option Text}
    {field : String}
    {n : Nat}
    (h : normalizeOptionalComparison U field n value =
      .ok w) :
    w = (value.filter (fun v => decide (v ≠ []))).map
      (fun v => U.casefold (Text.normalize v)) := by
  match value, h with
  | none, h =>
      cases h
      rfl
  | some [], h =>
      cases h
      rfl
  | some (c :: cs), h =>
      change (normalizeComparison U (c :: cs) field n).map some =
        .ok w at h
      cases hText : normalizeComparison U (c :: cs) field n with
      | error e =>
          rw [hText] at h
          cases h
      | ok v =>
          rw [hText] at h
          cases h
          rw [normalizeComparison_eq_ok hText]
          rfl

/- The database normalises a normal form to itself. -/
theorem catalogNormalizeComparison_normalize
    (U : Unicode)
    (value : Text) :
    catalogNormalizeComparison U (Text.normalize value) =
      U.casefold (Text.normalize value) := by
  rw [catalogNormalizeComparison, squeeze_normalize]

------------------------------------------------------------
-- Items
------------------------------------------------------------

/- Every edit leaves canonical columns. -/
theorem canonicalNames_of_edit
    {now : Time}
    {merged : ItemCreate}
    {prepared : PreparedItemIdentity}
    {columns : ItemColumns}
    (h : EditedColumns env merged prepared columns)
    (item : Item) :
    CanonicalNames env.unicode
      (editedItem now merged columns item) := by
  rcases normalizeInlineText_eq_ok h.name with ⟨hName, _⟩
  have hModel := normalizeOptionalInlineText_eq_ok h.model
  constructor
  · change columns.normalizedName =
      catalogNormalizeComparison env.unicode columns.name
    rw [normalizeComparison_eq_ok h.normalizedName, hName,
      Text.normalize_normalize,
      catalogNormalizeComparison_normalize]
  · change columns.normalizedModel = columns.model.map _
    rw [normalizeOptionalComparison_eq_ok h.normalizedModel,
      hModel]
    cases merged.model with
    | none => rfl
    | some m =>
        by_cases hNil : Text.normalize m = []
        · simp [Option.filter, hNil]
        · simp [Option.filter, hNil,
            catalogNormalizeComparison_normalize]

/- Only a blank model is not stored canonically. -/
theorem canonicalNames_newItem_iff
    {newId : Uuid}
    {now : Time}
    {payload : ItemCreate}
    {prepared : PreparedItemIdentity}
    {columns : ItemColumns}
    (h : CreatedColumns env payload prepared columns)
    (category : Category) :
    CanonicalNames env.unicode
        (newItem newId now payload category columns) ↔
      ¬ BlankModel payload := by
  rcases normalizeInlineText_eq_ok h.name with ⟨hName, _⟩
  have hModel := normalizeOptionalInlineText_eq_ok h.model
  have hNorm := normalizeOptionalComparison_eq_ok
    h.normalizedModel
  have hNameOk : columns.normalizedName =
      catalogNormalizeComparison env.unicode columns.name := by
    rw [normalizeComparison_eq_ok h.normalizedName, hName,
      catalogNormalizeComparison_normalize]
  unfold CanonicalNames BlankModel
  change (columns.normalizedName =
    catalogNormalizeComparison env.unicode columns.name ∧
    columns.normalizedModel = columns.model.map _) ↔ _
  rw [and_iff_right hNameOk, hNorm, hModel]
  cases payload.model with
  | none => simp
  | some m =>
      by_cases hEmpty : m = []
      · subst hEmpty
        have hNil : Text.normalize [] = [] := rfl
        simp [Option.filter, hNil]
      · have hBlank := Text.normalize_eq_nil_iff (v := m)
        by_cases hNil : Text.normalize m = []
        · have hSpaces := hBlank.mp hNil
          constructor
          · intro hAbsurd
            simp [Option.filter, hNil, hEmpty] at hAbsurd
          · intro hNot
            exact absurd ⟨m, rfl, hEmpty, hSpaces⟩ hNot
        · have hSolid := fun hSpaces =>
            hNil (hBlank.mpr hSpaces)
          constructor
          · rintro _ ⟨m', hEq, _, hSpaces⟩
            cases hEq
            exact hSolid hSpaces
          · intro _
            simp [Option.filter, hNil, hEmpty,
              catalogNormalizeComparison_normalize]

/- The checks of an item's names. -/
theorem assertCatalogItemIdentity_names
    {s : Db}
    {itemId : Uuid}
    {item : Item}
    (hFound : s.findItem itemId = some item)
    (hAccepted : assertCatalogItemIdentity env s itemId =
      .ok ()) :
    CanonicalNames env.unicode item := by
  unfold assertCatalogItemIdentity at hAccepted
  rw [hFound] at hAccepted
  simp only at hAccepted
  split at hAccepted
  · cases hAccepted
  · rename_i hName
    split at hAccepted
    · cases hAccepted
    · rename_i hModel
      exact ⟨not_not.mp hName, not_not.mp hModel⟩

/- The new item is found by its identifier. -/
theorem Creates.found
    {newId : Uuid}
    {now : Time}
    {payload : ItemCreate}
    {prepared : PreparedItemIdentity}
    {columns : ItemColumns}
    {rows : List ItemAttributeValue}
    {s s' : Db}
    (h : Creates env newId now payload prepared columns rows
      s s') :
    s'.findItem newId = some
      (newItem newId now payload prepared.category columns) := by
  rw [h.result]
  have hNone : Table.find Item.id newId s.items = none :=
    Table.find_eq_none_iff.mpr h.fresh
  change Table.find Item.id newId (s.items ++ _) = _
  rw [Table.find_append_of_none hNone]
  simp [Table.find, newItem]

/- The edited item is found by its identifier. -/
theorem Edits.found
    {now : Time}
    {itemId : Uuid}
    {patch : ItemPatch}
    {item : Item}
    {merged : ItemCreate}
    {prepared : PreparedItemIdentity}
    {columns : ItemColumns}
    {rows : List ItemAttributeValue}
    {s s' : Db}
    (h : Edits env now itemId patch item merged prepared
      columns rows s s') :
    s'.findItem itemId = some
      (editedItem now merged columns item) := by
  have hFound := h.reads.found
  have hId : item.id = itemId := Table.key_of_find hFound
  rw [h.result]
  unfold Db.findItem at hFound ⊢
  change Table.find Item.id itemId (Table.rewrite Item.id itemId
    (editedItem now merged columns) s.items) = _
  rw [Table.find_rewrite (f := editedItem now merged columns)
    fun _ => rfl, hFound, Option.map_some, if_pos hId]

/-
  A created item has canonical columns unless its model is
  white space only; an edited item has them always.
-/
theorem stored_names_are_canonical_iff
    (env : CatalogEnv) :
    (∀ newId now payload id' s s',
      (createItem env newId now payload).run s =
        .ok (id', s') →
      ∃ item, s'.findItem newId = some item ∧
        (CanonicalNames env.unicode item ↔
          ¬ BlankModel payload)) ∧
    (∀ now itemId patch id' s s',
      (updateItem env now itemId patch).run s =
        .ok (id', s') →
      ∃ item, s'.findItem itemId = some item ∧
        CanonicalNames env.unicode item) := by
  constructor
  · intro newId now payload id' s s' hRun
    rcases createItem_run_iff.mp hRun with
      ⟨_, prepared, columns, rows, h⟩
    exact ⟨_, h.found,
      canonicalNames_newItem_iff h.derives prepared.category⟩
  · intro now itemId patch id' s s' hRun
    rcases updateItem_run_iff.mp hRun with
      ⟨_, item, merged, prepared, columns, rows, h⟩
    exact ⟨_, h.found, canonicalNames_of_edit h.derives item⟩

end Stored

------------------------------------------------------------
-- A Cable Without A Model
------------------------------------------------------------

namespace BlankCable

def env : CatalogEnv := ⟨.ascii, id⟩

def category : Category :=
  ⟨⟨1⟩, "power_cable".toList, "Cables".toList, 0, some ⟨2⟩⟩

def textAttribute (n : BitVec 128) (key : String) :
    CategoryAttribute :=
  ⟨⟨n⟩, ⟨1⟩, key.toList, key.toList, .text, none, true, true,
    true, n.toNat, .exact, none,
    some [("max_length".toList, .int 2000)]⟩

def lengthAttribute : CategoryAttribute :=
  ⟨⟨3⟩, ⟨1⟩, "length_m".toList, "length_m".toList, .decimal,
    none, true, true, true, 3, .range, none,
    some [("min".toList, .float "1e-10".toList)]⟩

def start : Db :=
  { Db.empty with
    categories := [category]
    categoryAttributes := [textAttribute 0 "type",
      textAttribute 1 "connector_a",
      textAttribute 2 "connector_b", lengthAttribute,
      textAttribute 4 "rating", textAttribute 5 "color"] }

/- A cable whose model is one blank. -/
def payload : ItemCreate where
  categoryKey := "power_cable".toList
  manufacturerId := none
  name := "Cable".toList
  model := some " ".toList
  attributes := ⟨[("type".toList, .str "C13-C14".toList),
    ("connector_a".toList, .str "C13".toList),
    ("connector_b".toList, .str "C14".toList),
    ("length_m".toList, .str "1.5".toList),
    ("rating".toList, .str "10A".toList),
    ("color".toList, .str "black".toList)], by decide⟩
  categoryKeyLength := by decide
  nameLength := by decide
  modelLength := by decide

/- The database with the cable. -/
def created : Db :=
  (createItem env ⟨9⟩ 0 payload).settle start

theorem run_created :
    (createItem env ⟨9⟩ 0 payload).run start =
      .ok (⟨9⟩, created) := by
  have hOk : ((createItem env ⟨9⟩ 0 payload).run
      start).toOption.isSome = true := by
    decide +kernel
  unfold created Txn.settle
  cases hRun : (createItem env ⟨9⟩ 0 payload).run start with
  | error e =>
      rw [hRun] at hOk
      cases hOk
  | ok result =>
      rcases createItem_run_iff.mp hRun with ⟨hId, _⟩
      exact congrArg Except.ok (Prod.ext hId rfl)

/- The cable is created, and rejected when it is committed. -/
theorem blank_model_is_not_canonical :
    ((createItem env ⟨9⟩ 0 payload).run start).toOption.map
        Prod.fst = some ⟨9⟩ ∧
      (created.findItem ⟨9⟩).any (fun item =>
        item.model = none ∧
          item.normalizedModel = some []) = true ∧
      assertCatalogItemIdentity env created ⟨9⟩ =
        .error (raise (.itemIdentity ("items.normalized_model "
          ++ "diverges from canonical model"))) := by
  refine ⟨?_, ?_, ?_⟩
  · decide +kernel
  · decide +kernel
  · decide +kernel

end BlankCable

end Catalog
