import DcInventory.Catalog.Query
import DcInventory.Catalog.Histories

/-
  This file proves when the two conditions on the equipment
  of a category, that of the catalog and that of the journal
  of movements, are the same.

  Key definitions include:
    * `Catalog.OneScope`
    * `Catalog.journalMovements`

  Key theorems include:
    * `Catalog.SpecOf.of_build`
    * `Catalog.scopes_agree_iff`
    * `Catalog.scope_is_one`
-/

namespace Catalog

------------------------------------------------------------
-- Tables Of The Runtime
------------------------------------------------------------

/- A capital letter of ASCII, or an underscore. -/
def isCapital (c : Char) : Bool :=
  (65 ≤ c.toNat && c.toNat ≤ 90) || c == '_'

/- Letters of ASCII are left alone that have the case. -/
structure QueryEnv.Lawful (env : QueryEnv) : Prop where
  folds : env.unicode.FoldsSmall
  upper : ∀ v : Text, (∀ c ∈ v, isCapital c = true) →
    env.upperText v = v
  lower : ∀ v : Text, (∀ c ∈ v, Unicode.isSmall c = true) →
    env.lowerText v = v

section Scopes

variable (env : QueryEnv)
variable (db : Db)

------------------------------------------------------------
-- Scopes
------------------------------------------------------------

/- An item passes every condition. -/
def Passes
    (conditions : List ItemCondition)
    (item : Item) : Prop :=
  ∀ condition ∈ conditions, (condition item).Holds

/- The movements of some of these items. -/
def movementsOf (items : List Item) : List Movement :=
  db.movements.filter (fun m => db.movementLines.any (fun l =>
    decide (l.movementId = m.id) &&
      items.any (fun item => decide (item.id = l.itemId))))

/- `list_movements` with a category and no other filter. -/
def journalMovements
    (categoryKey : Option Text)
    (longRange : Bool) : Except Error (List Movement) := do
  if categoryKey.getD [] ≠ [] ∨ longRange then
    let scope ←
      equipmentScope env db categoryKey longRange false
    .ok (movementsOf db (itemsThat db scope))
  else .ok db.movements

/-
  The catalog and the journal mean the same equipment by a
  key, and the view of RJ45 is accepted wherever the key
  resolves to the transceivers.
-/
structure OneScope (key : Text) : Prop where
  same : ∀ request spec, request.categoryKey = some key →
    buildCatalogQuerySpec env db request = .ok spec →
    ∃ scope, equipmentScope env db (some key)
        request.longRange request.rj45 = .ok scope ∧
      ∀ item ∈ db.items, Passes scope item ↔
        Passes (scopePredicates env db spec) item
  journal : ∀ request spec, request.categoryKey = some key →
    request.rj45 = false →
    buildCatalogQuerySpec env db request = .ok spec →
    journalMovements env db (some key) request.longRange =
      .ok (movementsOf db
        (itemsThat db (scopePredicates env db spec)))
  view : ∀ category,
    getCategoryByKey env db key = .ok category →
    category.key = transceiverEthernet →
    ∃ spec, buildCatalogQuerySpec env db
      { QueryRequest.default with
        categoryKey := some key
        rj45 := true } = .ok spec

/- What a specification keeps of its request. -/
structure SpecOf
    (request : QueryRequest)
    (category : Option Category)
    (spec : CatalogQuerySpec) : Prop where
  resolves : requestedCategory env db request.categoryKey =
    .ok category
  view : checkTransceiverView request = .ok ()
  key : spec.categoryKey = category.map Category.key
  ids : spec.categoryIds =
    (category.map (scopeCategoryIds db)).getD []
  longRange : spec.longRange = request.longRange
  rj45 : spec.rj45 = request.rj45

variable {env : QueryEnv}
variable {db : Db}
variable {key : Text}
variable {category : Category}
variable {request : QueryRequest}
variable {spec : CatalogQuerySpec}

theorem SpecOf.of_build
    (h : buildCatalogQuerySpec env db request = .ok spec) :
    ∃ category, SpecOf env db request category spec := by
  unfold buildCatalogQuerySpec at h
  rcases Except.bind_eq_ok_iff.mp h with ⟨tokens, _, h⟩
  rcases Except.bind_eq_ok_iff.mp h with ⟨_, hView, h⟩
  rcases Except.bind_eq_ok_iff.mp h with ⟨_, _, h⟩
  rcases Except.bind_eq_ok_iff.mp h with ⟨category, hCategory, h⟩
  simp only at h
  split at h
  · cases h
  · rcases Except.bind_eq_ok_iff.mp h with ⟨_, _, h⟩
    rcases Except.bind_eq_ok_iff.mp h with ⟨_, _, h⟩
    rcases Except.bind_eq_ok_iff.mp h with ⟨_, _, h⟩
    rcases Except.bind_eq_ok_iff.mp h with ⟨_, _, h⟩
    cases h
    exact ⟨category, hCategory, hView, rfl, rfl, rfl, rfl⟩

/- A key that resolves is the key of its category, folded. -/
theorem getCategoryByKey_eq_ok_iff :
    getCategoryByKey env db key = .ok category ↔
      ∃ normalizedKey,
        normalizeCategoryKey env.unicode key =
          .ok normalizedKey ∧
        Table.find Category.key normalizedKey db.categories =
          some category := by
  unfold getCategoryByKey
  rw [Except.bind_eq_ok_iff]
  apply exists_congr
  intro normalizedKey
  apply and_congr_right
  intro _
  cases Table.find Category.key normalizedKey db.categories with
  | none =>
      exact iff_of_false (fun h => (nomatch h))
        (fun h => (nomatch h))
  | some found =>
      exact ⟨fun h => congrArg some (Except.ok.inj h),
        fun h => congrArg _ (Option.some.inj h)⟩

theorem key_ne_nil
    (h : getCategoryByKey env db key = .ok category) :
    key ≠ [] := by
  rintro rfl
  rcases getCategoryByKey_eq_ok_iff.mp h with ⟨_, hKey, _⟩
  cases hKey

theorem requestedCategory_some
    (h : getCategoryByKey env db key = .ok category) :
    requestedCategory env db (some key) =
      .ok (some category) := by
  change (getCategoryByKey env db key).map some = _
  rw [h]
  rfl

/- The journal's scope of a key that resolves. -/
theorem equipmentScope_eq
    (h : getCategoryByKey env db key = .ok category)
    (longRange rj45 : Bool) :
    equipmentScope env db (some key) longRange rj45 =
      .ok (inCategories (scopeCategoryIds db category) ::
        viewPredicates env db longRange rj45 (some key)) := by
  unfold equipmentScope
  rw [requestedCategory_some h]
  simp only [bind, Except.bind, Option.map_some, Option.getD_some]
  rw [if_pos (key_ne_nil h)]
  rfl

/- The catalog's scope of the same request. -/
theorem scopePredicates_eq
    (h : getCategoryByKey env db key = .ok category)
    (hKey : request.categoryKey = some key)
    (hBuild : buildCatalogQuerySpec env db request = .ok spec) :
    scopePredicates env db spec =
      inCategories (scopeCategoryIds db category) ::
        viewPredicates env db request.longRange request.rj45
          (some category.key) := by
  rcases SpecOf.of_build hBuild with ⟨found, hSpec⟩
  have hFound := hSpec.resolves
  rw [hKey, requestedCategory_some h] at hFound
  cases hFound
  unfold scopePredicates
  rw [hSpec.key, hSpec.ids, hSpec.longRange, hSpec.rj45]
  rfl

/- Only whether the key is that of the transceivers matters. -/
theorem viewPredicates_congr
    {key key' : Text}
    (h : key = transceiverEthernet ↔ key' = transceiverEthernet)
    (longRange rj45 : Bool) :
    viewPredicates env db longRange rj45 (some key) =
      viewPredicates env db longRange rj45 (some key') := by
  unfold viewPredicates
  simp only [Option.some_inj, h]

/- The raw key and the resolved one name the same view. -/
theorem sameView_of_holds
    (hEnv : env.Lawful)
    (h : getCategoryByKey env db key = .ok category)
    (hHolds : key = transceiverEthernet ∨
      category.key ≠ transceiverEthernet) :
    key = transceiverEthernet ↔
      category.key = transceiverEthernet := by
  constructor
  · rintro rfl
    rcases getCategoryByKey_eq_ok_iff.mp h with
      ⟨normalizedKey, hKey, hFind⟩
    have hLeaf : normalizeCategoryKey env.unicode
        transceiverEthernet = .ok transceiverEthernet :=
      normalizeCategoryKey_leaf hEnv.folds (by decide)
    rw [hLeaf] at hKey
    rw [Table.key_of_find hFind, ← Except.ok.inj hKey]
  · intro hCategory
    exact hHolds.resolve_right fun hNe => hNe hCategory

theorem holds_hasItemId
    (ids : List Uuid)
    (item : Item) :
    (hasItemId ids item).Holds ↔ item.id ∈ ids := by
  unfold hasItemId
  rw [Sql.inList_some_map, Sql.Truth.holds_some,
    decide_eq_true_eq]

/- Membership of an identifier is never unknown. -/
theorem holds_not_hasItemId
    (ids : List Uuid)
    (item : Item) :
    (hasItemId ids item).not.Holds ↔
      ¬ (hasItemId ids item).Holds := by
  unfold hasItemId
  rw [Sql.inList_some_map]
  simp [Sql.Truth.not]

theorem holds_inCategories
    (ids : List Uuid)
    (item : Item) :
    (inCategories ids item).Holds ↔ item.categoryId ∈ ids := by
  unfold inCategories
  rw [Sql.inList_some_map, Sql.Truth.holds_some,
    decide_eq_true_eq]

------------------------------------------------------------
-- Where They Differ
------------------------------------------------------------

/-
  The two scopes agree on all items exactly if the key is
  compared as the category's own, or no item of the category
  is in another view.
-/
theorem scopes_agree_iff
    (hEnv : env.Lawful)
    (h : getCategoryByKey env db key = .ok category)
    (hKey : request.categoryKey = some key)
    (hBuild : buildCatalogQuerySpec env db request = .ok spec) :
    (∀ item ∈ db.items,
      Passes (inCategories (scopeCategoryIds db category) ::
        viewPredicates env db request.longRange request.rj45
          (some key)) item ↔
      Passes (scopePredicates env db spec) item) ↔
      (key = transceiverEthernet ∨
        category.key ≠ transceiverEthernet ∨
        request.rj45 = true ∨ request.longRange = true ∨
        ∀ item ∈ db.items,
          item.categoryId ∈ scopeCategoryIds db category →
          ¬ (longRangePredicate db item).Holds ∧
            ¬ (rj45TransceiverPredicate env db item).Holds) := by
  rw [scopePredicates_eq h hKey hBuild]
  by_cases hSame : key = transceiverEthernet ∨
      category.key ≠ transceiverEthernet
  · rw [viewPredicates_congr (sameView_of_holds hEnv h hSame)]
    refine iff_of_true (fun item _ => Iff.rfl) ?_
    exact hSame.imp_right Or.inl
  rcases not_or.mp hSame with ⟨hRaw, hResolved⟩
  rw [not_not] at hResolved
  cases hRj45 : request.rj45 with
  | true =>
      refine iff_of_true (fun item _ => ?_) (by simp)
      rfl
  | false =>
      cases hLong : request.longRange with
      | true =>
          refine iff_of_true (fun item _ => ?_) (by simp)
          rfl
      | false =>
          have hRawView : viewPredicates env db false false
              (some key) = [] := by
            unfold viewPredicates
            simp [hRaw]
          have hView : viewPredicates env db false false
              (some category.key) =
              [fun item => (longRangePredicate db item).not,
                fun item =>
                  (rj45TransceiverPredicate env db item).not] := by
            unfold viewPredicates
            simp [hResolved]
          have hPasses : ∀ item, Passes
              [fun item => (longRangePredicate db item).not,
                fun item =>
                  (rj45TransceiverPredicate env db item).not]
              item ↔
              ¬ (longRangePredicate db item).Holds ∧
                ¬ (rj45TransceiverPredicate env db
                  item).Holds := by
            intro item
            unfold Passes
            rw [List.forall_mem_cons, List.forall_mem_singleton]
            exact and_congr (holds_not_hasItemId _ item)
              (holds_not_hasItemId _ item)
          rw [hRawView, hView]
          unfold Passes at hPasses ⊢
          simp only [List.forall_mem_cons,
            holds_inCategories] at hPasses ⊢
          simp only [hRaw, hResolved, hPasses, ne_eq,
            not_true_eq_false, Bool.false_eq_true, false_or]
          apply forall₂_congr
          intro item _
          constructor
          · intro hIff hMem
            exact (hIff.mp ⟨hMem, List.forall_mem_nil _⟩).2
          · intro hNot
            exact ⟨fun hMem => ⟨hMem.1, hNot hMem.1⟩,
              fun hMem => ⟨hMem.1, List.forall_mem_nil _⟩⟩

------------------------------------------------------------
-- One Scope
------------------------------------------------------------

/- The view of RJ45 of the key as it is stored is accepted. -/
theorem build_rj45
    (hEnv : env.Lawful)
    (h : getCategoryByKey env db transceiverEthernet =
      .ok category) :
    ∃ spec, buildCatalogQuerySpec env db
      { QueryRequest.default with
        categoryKey := some transceiverEthernet
        rj45 := true } = .ok spec := by
  have hAvailability : env.upperText (Text.strip
      QueryRequest.default.availability) = "ANY".toList := by
    have hStrip : Text.strip
        QueryRequest.default.availability = "ANY".toList := by
      decide
    rw [hStrip]
    exact hEnv.upper _ (Words.forall_of_all (by decide))
  have hSort : env.lowerText (Text.strip
      QueryRequest.default.sort) = "name".toList := by
    have hStrip : Text.strip QueryRequest.default.sort =
        "name".toList := by
      decide
    rw [hStrip]
    exact hEnv.lower _ (Words.forall_of_all (by decide))
  have hOrder : env.lowerText (Text.strip
      QueryRequest.default.order) = "asc".toList := by
    have hStrip : Text.strip QueryRequest.default.order =
        "asc".toList := by
      decide
    rw [hStrip]
    exact hEnv.lower _ (Words.forall_of_all (by decide))
  unfold buildCatalogQuerySpec
  simp only [hAvailability, hSort, hOrder,
    requestedCategory_some h]
  exact ⟨_, rfl⟩

theorem oneScope_of_holds
    (hEnv : env.Lawful)
    (h : getCategoryByKey env db key = .ok category)
    (hHolds : key = transceiverEthernet ∨
      category.key ≠ transceiverEthernet) :
    OneScope env db key := by
  have hView := sameView_of_holds hEnv h hHolds
  have hSame : ∀ request spec,
      request.categoryKey = some key →
      buildCatalogQuerySpec env db request = .ok spec →
      equipmentScope env db (some key) request.longRange
        request.rj45 = .ok (scopePredicates env db spec) := by
    intro request spec hKey hBuild
    rw [equipmentScope_eq h, scopePredicates_eq h hKey hBuild,
      viewPredicates_congr hView]
  refine ⟨?_, ?_, ?_⟩
  · intro request spec hKey hBuild
    exact ⟨_, hSame request spec hKey hBuild,
      fun item _ => Iff.rfl⟩
  · intro request spec hKey hRj45 hBuild
    have hScope := hSame request spec hKey hBuild
    rw [hRj45] at hScope
    have hNamed : (some key).getD [] ≠ [] ∨
        request.longRange = true := Or.inl (key_ne_nil h)
    unfold journalMovements
    rw [if_pos hNamed, hScope]
    rfl
  · intro found hFound hTransceivers
    rw [h] at hFound
    cases hFound
    have hKey := hView.mpr hTransceivers
    subst hKey
    exact build_rj45 hEnv h

/-
  There is one scope exactly if the key is spelled as it is
  stored, or is not the key of the Ethernet transceivers.
-/
theorem scope_is_one
    (hEnv : env.Lawful)
    (h : getCategoryByKey env db key = .ok category) :
    OneScope env db key ↔
      (key = transceiverEthernet ∨
        category.key ≠ transceiverEthernet) := by
  constructor
  · intro hOne
    by_contra hNot
    rcases not_or.mp hNot with ⟨hRaw, hResolved⟩
    rw [not_not] at hResolved
    rcases hOne.view category h hResolved with ⟨spec, hBuild⟩
    rcases SpecOf.of_build hBuild with ⟨found, hSpec⟩
    have hView := hSpec.view
    unfold checkTransceiverView at hView
    rw [if_neg (by simp [QueryRequest.default]), if_pos] at hView
    · cases hView
    · exact ⟨rfl, fun hEq => hRaw (Option.some.inj hEq)⟩
  · exact oneScope_of_holds hEnv h

end Scopes

------------------------------------------------------------
-- Another Spelling
------------------------------------------------------------

namespace Spelling

/- A runtime restricted to ASCII. -/
def env : QueryEnv where
  unicode := Unicode.ascii
  upperText := List.map Char.toUpper
  lowerText := List.map Char.toLower
  lower := Char.toLower
  before := Text.le

theorem lawful : env.Lawful where
  folds := Unicode.foldsSmall_ascii
  upper v hv := by
    change v.map Char.toUpper = v
    have hSame : ∀ c ∈ v, c.toUpper = c := by
      intro c hc
      have hRange := hv c hc
      unfold isCapital at hRange
      simp only [Bool.or_eq_true, Bool.and_eq_true,
        decide_eq_true_eq, beq_iff_eq] at hRange
      unfold Char.toUpper
      rw [dif_neg]
      rintro ⟨hLow, hHigh⟩
      have hSmall : 97 ≤ c.toNat :=
        UInt32.le_iff_toNat_le.mp hLow
      have hNoMark : c ≠ '_' := by
        rintro rfl
        exact absurd hSmall (by decide)
      rcases hRange with hCapital | hMark
      · omega
      · exact hNoMark hMark
    calc v.map Char.toUpper = v.map id :=
          List.map_congr_left hSame
      _ = v := List.map_id v
  lower v hv := by
    change v.map Char.toLower = v
    have hSame : ∀ c ∈ v, c.toLower = c := by
      intro c hc
      have hFold := Unicode.foldsSmall_ascii c (hv c hc)
      exact (List.cons.inj hFold).1
    calc v.map Char.toLower = v.map id :=
          List.map_congr_left hSame
      _ = v := List.map_id v

def family : Category :=
  ⟨⟨1⟩, "transceivers".toList, "Family".toList, 0, none⟩

def leaf : Category :=
  ⟨⟨2⟩, transceiverEthernet, "Leaf".toList, 0, some ⟨1⟩⟩

def reach : CategoryAttribute :=
  ⟨⟨3⟩, ⟨2⟩, "reach_m".toList, "Reach".toList, .integer, none,
    false, true, false, 0, .range, none, none⟩

/- A transceiver of ten kilometres. -/
def far : Item :=
  ⟨⟨4⟩, ⟨2⟩, none, "Far".toList, "far".toList, none, none,
    .active, "signature".toList, none, 0⟩

def db : Db :=
  { Db.empty with
    categories := [family, leaf]
    categoryAttributes := [reach]
    items := [far]
    itemAttributeValues :=
      [⟨⟨4⟩, ⟨3⟩, ⟨2⟩, none, some 10000, none, none, none⟩] }

/- The key in another spelling. -/
def key : Text := "Transceiver_Ethernet".toList

/- The identifiers of the items in the journal's scope. -/
def journalIds (key : Text) : Except Error (List Uuid) :=
  (equipmentScope env db (some key) false false).map
    (fun scope => (itemsThat db scope).map Item.id)

/- The identifiers of the items in the catalog's scope. -/
def catalogIds (key : Text) : Except Error (List Uuid) :=
  (buildCatalogQuerySpec env db
    { QueryRequest.default with categoryKey := some key }).map
    (fun spec => (itemsThat db
      (scopePredicates env db spec)).map Item.id)

end Spelling

theorem scope_is_one_as_stored :
    OneScope Spelling.env Spelling.db transceiverEthernet ↔
      (transceiverEthernet = transceiverEthernet ∨
        Spelling.leaf.key ≠ transceiverEthernet) :=
  scope_is_one Spelling.lawful (by rfl)

/-
  In another spelling the journal shows a transceiver that
  the catalog does not, and the view of RJ45 is refused.
-/
theorem scope_depends_on_spelling :
    Spelling.journalIds Spelling.key = .ok [⟨4⟩] ∧
      Spelling.catalogIds Spelling.key = .ok [] ∧
      buildCatalogQuerySpec Spelling.env Spelling.db
        { QueryRequest.default with
          categoryKey := some Spelling.key
          rj45 := true } =
        .error (CatalogError.validation "rj45_category_invalid"
          ("rj45 view requires transceiver_ethernet " ++
            "category")) ∧
      getCategoryByKey Spelling.env Spelling.db Spelling.key =
        .ok Spelling.leaf ∧
      ¬ OneScope Spelling.env Spelling.db Spelling.key := by
  have hFound : getCategoryByKey Spelling.env Spelling.db
      Spelling.key = .ok Spelling.leaf := by
    rfl
  refine ⟨by decide +kernel, by decide +kernel, by rfl,
    hFound, fun hOne => ?_⟩
  rcases hOne.view Spelling.leaf hFound rfl with ⟨spec, hBuild⟩
  have hRefused : buildCatalogQuerySpec Spelling.env Spelling.db
      { QueryRequest.default with
        categoryKey := some Spelling.key
        rj45 := true } ≠ .ok spec := by
    intro hEq
    cases hEq
  exact hRefused hBuild

end Catalog
