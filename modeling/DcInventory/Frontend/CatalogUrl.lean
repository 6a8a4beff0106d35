import DcInventory.Frontend.CatalogQuery

/-
  This file proves when the address of a catalog page keeps
  its view.

  Key definitions include:
    * `CatalogView.NormalForm`
    * `CatalogView.KeepsView`
    * `CatalogView.Kept`

  Key theorems include:
    * `CatalogView.parseAttributeFilter_expression`
    * `CatalogView.normalForm_read`
    * `CatalogView.readCatalogViewState_written`
    * `CatalogView.url_keeps_view_iff`
-/

namespace CatalogView

open Catalog (Availability ItemSort SortOrder FilterOperator)

------------------------------------------------------------
-- Sorted Lists
------------------------------------------------------------

theorem eraseDups_of_nodup
    {values : List Text}
    (h : values.Nodup) :
    values.eraseDups = values := by
  induction values with
  | nil => rfl
  | cons v vs ih =>
      rw [List.nodup_cons] at h
      have hKeep : vs.filter (fun w => !w == v) = vs := by
        rw [List.filter_eq_self]
        intro w hw
        have hNe : w ≠ v := fun hEq => h.1 (hEq ▸ hw)
        simpa using hNe
      rw [List.eraseDups_cons, hKeep, ih h.2]

theorem nodup_eraseDups (values : List Text) :
    values.eraseDups.Nodup := by
  induction hLength : values.length using Nat.strong_induction_on
    generalizing values with
  | _ n ih =>
      cases values with
      | nil => exact List.nodup_nil
      | cons v vs =>
          have hShort := List.length_filter_le
            (fun w => !w == v) vs
          rw [List.length_cons] at hLength
          rw [List.eraseDups_cons, List.nodup_cons]
          refine ⟨?_, ih _ (by omega) _ rfl⟩
          rw [List.mem_eraseDups, List.mem_filter]
          simp

section Sorting

variable (collation : Collation)

/- The order in which texts are listed. -/
def Before (v w : Text) : Prop :=
  collation.le v w = true

instance : DecidableRel (Before collation) := fun v w =>
  inferInstanceAs (Decidable (collation.le v w = true))

theorem pairwise_uniqueSorted (values : List Text) :
    (uniqueSorted collation values).Pairwise
      (Before collation) := by
  have : Std.Total (Before collation) := ⟨collation.total⟩
  have : IsTrans Text (Before collation) := ⟨collation.trans⟩
  exact List.pairwise_insertionSort (Before collation) _

theorem nodup_uniqueSorted (values : List Text) :
    (uniqueSorted collation values).Nodup :=
  (List.perm_insertionSort _ _).nodup_iff.mpr
    (nodup_eraseDups values)

theorem uniqueSorted_of_normal
    {values : List Text}
    (hNodup : values.Nodup)
    (hSorted : values.Pairwise (Before collation)) :
    uniqueSorted collation values = values := by
  unfold uniqueSorted
  rw [eraseDups_of_nodup hNodup]
  exact List.Pairwise.insertionSort_eq hSorted

/- The order in which filters are listed. -/
def FilterBefore (f g : CatalogAttributeFilter) : Prop :=
  Before collation f.expression g.expression

instance : DecidableRel (FilterBefore collation) := fun f g =>
  inferInstanceAs
    (Decidable (Before collation f.expression g.expression))

theorem pairwise_sortedFilters
    (filters : List CatalogAttributeFilter) :
    (sortedFilters collation filters).Pairwise
      (FilterBefore collation) := by
  have : Std.Total (FilterBefore collation) :=
    ⟨fun f g => collation.total f.expression g.expression⟩
  have : IsTrans CatalogAttributeFilter
      (FilterBefore collation) :=
    ⟨fun _ _ _ hfg hgh => collation.trans _ _ _ hfg hgh⟩
  exact List.pairwise_insertionSort (FilterBefore collation) _

theorem sortedFilters_of_normal
    {filters : List CatalogAttributeFilter}
    (hSorted : filters.Pairwise (FilterBefore collation)) :
    sortedFilters collation filters = filters :=
  List.Pairwise.insertionSort_eq hSorted

end Sorting

------------------------------------------------------------
-- Filters
------------------------------------------------------------

/- A filter that can be written as an expression. -/
structure NormalFilter (f : CatalogAttributeFilter) : Prop where
  trimmed : trim f.key = f.key
  key : f.key ≠ []
  noColon : ':' ∉ f.key
  value : f.value ≠ []

theorem span_noColon
    {v : Text}
    (hNoColon : ':' ∉ v)
    (rest : Text) :
    (v ++ ':' :: rest).span (· ≠ ':') = (v, ':' :: rest) := by
  have hAll : ∀ c ∈ v, decide (c ≠ ':') = true := by
    intro c hc
    rw [decide_eq_true_eq]
    rintro rfl
    exact hNoColon hc
  rw [List.span_eq_takeWhile_dropWhile,
    List.takeWhile_append_of_pos hAll,
    List.dropWhile_append_of_pos hAll]
  simp

theorem splitExpression_append
    {key operator : Text}
    (hKey : ':' ∉ key)
    (hOperator : ':' ∉ operator)
    (value : Text) :
    Catalog.splitExpression
      (key ++ ':' :: (operator ++ ':' :: value)) =
        some (key, operator, value) := by
  unfold Catalog.splitExpression
  rw [span_noColon hKey]
  simp only
  rw [span_noColon hOperator]

theorem operatorText_solid (operator : FilterOperator) :
    ':' ∉ operatorText operator ∧
      operatorText operator ≠ [] ∧
      Table.find Prod.fst (operatorText operator)
        Catalog.filterOperators =
          some (operatorText operator, operator) := by
  cases operator with
  | eq => decide
  | gte => decide
  | lte => decide

/- A filter is read from its expression. -/
theorem parseAttributeFilter_expression
    {f : CatalogAttributeFilter}
    (h : NormalFilter f) :
    parseAttributeFilter f.expression = some f := by
  rcases operatorText_solid f.operator with
    ⟨hSolid, hSome, hFind⟩
  unfold parseAttributeFilter CatalogAttributeFilter.expression
  rw [splitExpression_append h.noColon hSolid]
  simp only
  rw [if_neg (by simp [h.key, hSome]), h.trimmed,
    if_neg (by simp [h.key, h.value]), hFind]
  rfl

theorem mem_of_splitExpression
    {expression key operator value : Text}
    (h : Catalog.splitExpression expression =
      some (key, operator, value)) :
    ':' ∉ key := by
  unfold Catalog.splitExpression at h
  rw [List.span_eq_takeWhile_dropWhile] at h
  cases hRest : expression.dropWhile (· ≠ ':') with
  | nil =>
      rw [hRest] at h
      cases h
  | cons c rest =>
      rw [hRest] at h
      simp only at h
      cases hSpan : rest.span (· ≠ ':') with
      | mk before after =>
          rw [hSpan] at h
          cases after with
          | nil => cases h
          | cons d after =>
              simp only [Option.some.injEq, Prod.mk.injEq] at h
              intro hMem
              rw [← h.1] at hMem
              simpa using List.mem_takeWhile_imp hMem

/- What is read as a filter can be written again. -/
theorem normalFilter_of_parse
    {expression : Text}
    {f : CatalogAttributeFilter}
    (h : parseAttributeFilter expression = some f) :
    NormalFilter f := by
  unfold parseAttributeFilter at h
  cases hSplit : Catalog.splitExpression expression with
  | none =>
      rw [hSplit] at h
      cases h
  | some parts =>
      rcases parts with ⟨rawKey, rawOperator, value⟩
      rw [hSplit] at h
      simp only at h
      split at h
      · cases h
      · split at h
        · cases h
        · rename_i hParts
          rcases not_or.mp hParts with ⟨hKey, hValue⟩
          rcases Option.map_eq_some_iff.mp h with ⟨_, _, rfl⟩
          refine ⟨Words.strip_strip rawKey, hKey, ?_,
            hValue⟩
          intro hMem
          apply mem_of_splitExpression hSplit
          exact (List.dropWhile_sublist _).mem
            ((List.rdropWhile_prefix _ _).sublist.mem hMem)

------------------------------------------------------------
-- Normal Form
------------------------------------------------------------

section Views

variable (collation : Collation)

/- A view that can be read from an address. -/
structure NormalForm (s : CatalogViewState) : Prop where
  q : trim s.q = s.q
  manufacturers : s.manufacturerIds.Nodup
  manufacturersSorted :
    s.manufacturerIds.Pairwise (Before collation)
  locations : s.locationIds.Nodup
  locationsSorted : s.locationIds.Pairwise (Before collation)
  filters : ∀ f ∈ s.filters, NormalFilter f
  filtersSorted : s.filters.Pairwise (FilterBefore collation)

/- Every address is read as a view in normal form. -/
theorem normalForm_read
    (params : SearchParams)
    (d : CatalogSortState) :
    NormalForm collation
      (readCatalogViewState collation params d) where
  q := Words.strip_strip _
  manufacturers := nodup_uniqueSorted collation _
  manufacturersSorted := pairwise_uniqueSorted collation _
  locations := nodup_uniqueSorted collation _
  locationsSorted := pairwise_uniqueSorted collation _
  filters := by
    intro f hf
    have hMem := (List.mem_insertionSort _).mp hf
    rcases List.mem_filterMap.mp hMem with ⟨_, _, hParse⟩
    exact normalFilter_of_parse hParse
  filtersSorted := pairwise_sortedFilters collation _

------------------------------------------------------------
-- What Is Written
------------------------------------------------------------

/- One value, if the condition holds. -/
def valueIf (condition : Bool) (value : Text) : List Text :=
  if condition then [value] else []

/- The values of the names, in the order of writing. -/
def fieldsOf
    (s : CatalogViewState)
    (d : CatalogSortState) : List (Text × List Text) := [
  (qName, valueIf (trim s.q ≠ []) (trim s.q)),
  (statusName, valueIf (s.status ≠ .active)
    (statusText s.status)),
  (manufacturerName, uniqueSorted collation s.manufacturerIds),
  (availabilityName, valueIf (s.availability ≠ .any)
    (availabilityText s.availability)),
  (locationName, uniqueSorted collation s.locationIds),
  (filterName, (sortedFilters collation s.filters).map
    CatalogAttributeFilter.expression),
  (sortName, valueIf (s.sort ≠ d.sort) (sortText s.sort)),
  (orderName, valueIf (s.order ≠ implicitOrder s d)
    (orderText s.order))]

theorem setIf_written
    {fields : List (Text × List Text)}
    {name : Text}
    (h : decide (name ∈ fields.map Prod.fst) = false)
    (condition : Bool)
    (value : Text) :
    setIf condition name value (SearchParams.written fields) =
      SearchParams.written
        (fields ++ [(name, valueIf condition value)]) := by
  rw [← SearchParams.written_concat]
  unfold setIf valueIf
  cases condition with
  | false => simp [SearchParams.entries]
  | true =>
      exact SearchParams.set_of_absent
        (SearchParams.lacks_written (of_decide_eq_false h)) value

theorem foldl_written
    (fields : List (Text × List Text))
    (name : Text)
    (values : List Text) :
    values.foldl (fun params value =>
      SearchParams.append params name value)
        (SearchParams.written fields) =
      SearchParams.written (fields ++ [(name, values)]) := by
  rw [SearchParams.foldl_append, SearchParams.written_concat]

theorem toSearchParams_eq
    (s : CatalogViewState)
    (d : CatalogSortState) :
    catalogViewStateToSearchParams collation s d =
      SearchParams.written (fieldsOf collation s d) := by
  have hNil : ([] : SearchParams) =
      SearchParams.written [] := rfl
  have hFilters : ∀ params : SearchParams,
      (sortedFilters collation s.filters).foldl
        (fun params f => params.append filterName f.expression)
        params =
      ((sortedFilters collation s.filters).map
        CatalogAttributeFilter.expression).foldl
        (fun params value => params.append filterName value)
        params := by
    intro params
    rw [List.foldl_map]
  unfold catalogViewStateToSearchParams
  simp only
  rw [hNil, setIf_written rfl, setIf_written rfl,
    foldl_written, setIf_written rfl, foldl_written,
    hFilters, foldl_written, setIf_written rfl,
    setIf_written rfl]
  rfl

theorem fieldsOf_keys
    (s : CatalogViewState)
    (d : CatalogSortState) :
    ((fieldsOf collation s d).map Prod.fst).Nodup := by
  have hKeys : (fieldsOf collation s d).map Prod.fst =
      [qName, statusName, manufacturerName, availabilityName,
        locationName, filterName, sortName, orderName] := rfl
  rw [hKeys]
  decide

theorem getAll_written
    {s : CatalogViewState}
    {d : CatalogSortState}
    {name : Text}
    {values : List Text}
    (hFind : Table.find Prod.fst name (fieldsOf collation s d) =
      some (name, values)) :
    (catalogViewStateToSearchParams collation s d).getAll name =
      values := by
  rw [toSearchParams_eq]
  exact SearchParams.getAll_written
    (fieldsOf_keys collation s d) (Table.mem_of_find hFind)

theorem get_written
    {s : CatalogViewState}
    {d : CatalogSortState}
    {name : Text}
    {values : List Text}
    (hFind : Table.find Prod.fst name (fieldsOf collation s d) =
      some (name, values)) :
    (catalogViewStateToSearchParams collation s d).get name =
      values.head? := by
  rw [SearchParams.get_eq_head, getAll_written collation hFind]

------------------------------------------------------------
-- Reading It Back
------------------------------------------------------------

theorem head_valueIf (condition : Bool) (value : Text) :
    (valueIf condition value).head? =
      if condition then some value else none := by
  unfold valueIf
  cases condition <;> rfl

theorem readSort_valueIf (condition : Bool) (sort : ItemSort) :
    readSort (valueIf condition (sortText sort)).head? =
      if condition then some sort else none := by
  rw [head_valueIf]
  cases condition with
  | false => rfl
  | true => cases sort <;> rfl

theorem readOrder_valueIf (condition : Bool) (order : SortOrder) :
    readOrder (valueIf condition (orderText order)).head? =
      if condition then some order else none := by
  rw [head_valueIf]
  cases condition with
  | false => rfl
  | true => cases order <;> rfl

theorem readStatus_valueIf (status : ItemStatus) :
    (if (valueIf (status ≠ .active) (statusText status)).head? =
        some "ARCHIVED".toList then ItemStatus.archived
      else .active) = status := by
  cases status <;> rfl

theorem readAvailability_valueIf (availability : Availability) :
    readAvailability (valueIf (availability ≠ .any)
      (availabilityText availability)).head? = availability := by
  cases availability <;> rfl

theorem trim_valueIf
    {q : Text}
    (h : trim q = q) :
    trim ((valueIf (trim q ≠ []) (trim q)).head?.getD []) =
      q := by
  rw [h, head_valueIf]
  by_cases hNil : q = []
  · rw [hNil]
    rfl
  · simp only [hNil, ne_eq, not_false_eq_true, decide_true,
      if_true, Option.getD_some]
    exact h

theorem filterMap_expressions
    {filters : List CatalogAttributeFilter}
    (h : ∀ f ∈ filters, NormalFilter f) :
    (filters.map CatalogAttributeFilter.expression).filterMap
      parseAttributeFilter = filters := by
  induction filters with
  | nil => rfl
  | cons f fs ih =>
      rcases List.forall_mem_cons.mp h with ⟨hFirst, hRest⟩
      rw [List.map_cons, List.filterMap_cons,
        parseAttributeFilter_expression hFirst, ih hRest]

/- The order that is read where `s` was written. -/
def sortBack
    (s : CatalogViewState)
    (d : CatalogSortState) : CatalogSortState :=
  if s.sort ≠ d.sort then ⟨s.sort, s.order⟩
  else
    ⟨(implicitSort s.q d).sort,
      if s.order ≠ d.order then s.order
      else (implicitSort s.q d).order⟩

/- All but the order is read as it was written. -/
theorem readCatalogViewState_written
    {s : CatalogViewState}
    (h : NormalForm collation s)
    (d : CatalogSortState) :
    readCatalogViewState collation
      (catalogViewStateToSearchParams collation s d) d =
      { s with
        sort := (sortBack s d).sort
        order := (sortBack s d).order } := by
  have hManufacturers := uniqueSorted_of_normal collation
    h.manufacturers h.manufacturersSorted
  have hLocations := uniqueSorted_of_normal collation
    h.locations h.locationsSorted
  have hFilters := sortedFilters_of_normal collation
    h.filtersSorted
  unfold readCatalogViewState
  simp only
  rw [@get_written collation s d qName _ rfl,
    @get_written collation s d statusName _ rfl,
    @getAll_written collation s d manufacturerName _ rfl,
    @get_written collation s d availabilityName _ rfl,
    @getAll_written collation s d locationName _ rfl,
    @getAll_written collation s d filterName _ rfl,
    @get_written collation s d sortName _ rfl,
    @get_written collation s d orderName _ rfl,
    trim_valueIf h.q, readStatus_valueIf,
    readAvailability_valueIf, readSort_valueIf,
    readOrder_valueIf, hManufacturers, hManufacturers,
    hLocations, hLocations, hFilters,
    filterMap_expressions h.filters, hFilters]
  unfold sortBack implicitOrder
  by_cases hSort : s.sort = d.sort
  · by_cases hOrder : s.order = d.order
    · simp [hSort, hOrder]
    · simp [hSort, hOrder]
  · cases hOrder : s.order with
    | asc => simp [hSort]
    | desc => simp [hSort]

------------------------------------------------------------
-- Keeping The View
------------------------------------------------------------

/-
  A search keeps the default sort only if that is relevance,
  and the default order only if that is descending.
-/
def Kept (s : CatalogViewState) (d : CatalogSortState) : Prop :=
  s.q ≠ [] → s.sort = d.sort →
    s.sort = .relevance ∧ (s.order = d.order → s.order = .desc)

instance (s : CatalogViewState) (d : CatalogSortState) :
    Decidable (Kept s d) := by
  unfold Kept
  infer_instance

/-
  A view is read back from its own address, also after an
  update that changes nothing, and from a link to it.
-/
structure KeepsView
    (s : CatalogViewState)
    (d : CatalogSortState) : Prop where
  readBack : readCatalogViewState collation
    (catalogViewStateToSearchParams collation s d) d = s
  updated : ∀ params,
    readCatalogViewState collation params d = s →
    readCatalogViewState collation
      (updateViewState collation d id params) d = s
  reloaded : viewState collation d (UrlEncoded.serialize
    (catalogViewStateToSearchParams collation s d)) = some s

theorem sortBack_eq_iff
    (s : CatalogViewState)
    (d : CatalogSortState) :
    ((sortBack s d).sort = s.sort ∧
      (sortBack s d).order = s.order) ↔ Kept s d := by
  unfold sortBack implicitSort Kept
  by_cases hSort : s.sort = d.sort
  · by_cases hQ : s.q = []
    · by_cases hOrder : s.order = d.order
      · simp [hSort, hQ, hOrder]
      · simp [hSort, hQ, hOrder]
    · by_cases hOrder : s.order = d.order
      · simp [hSort, hQ, hOrder, eq_comm]
      · simp [hSort, hQ, hOrder, eq_comm]
  · simp [hSort]

/- The flags of a page are no part of its view. -/
theorem read_keepFlag
    {name : Text}
    (hName : name = longRangeName ∨ name = rj45Name)
    (current next : SearchParams)
    (d : CatalogSortState) :
    readCatalogViewState collation
      (keepFlag current name next) d =
      readCatalogViewState collation next d := by
  have hGet : ∀ value other : Text,
      other ∈ [qName, statusName, manufacturerName,
        availabilityName, locationName, filterName, sortName,
        orderName] →
      (SearchParams.set name value next).getAll other =
        next.getAll other := by
    intro value other hOther
    apply SearchParams.getAll_set_of_ne
    rintro rfl
    rcases hName with rfl | rfl
    · exact absurd hOther (by decide)
    · exact absurd hOther (by decide)
  unfold keepFlag setIf
  split
  · unfold readCatalogViewState
    simp only [SearchParams.get_eq_head]
    rw [hGet _ qName (by decide), hGet _ statusName (by decide),
      hGet _ manufacturerName (by decide),
      hGet _ availabilityName (by decide),
      hGet _ locationName (by decide),
      hGet _ filterName (by decide), hGet _ sortName (by decide),
      hGet _ orderName (by decide)]
  · rfl

theorem read_updateViewState
    (d : CatalogSortState)
    (update : CatalogViewState → CatalogViewState)
    (params : SearchParams) :
    readCatalogViewState collation
      (updateViewState collation d update params) d =
      readCatalogViewState collation
        (catalogViewStateToSearchParams collation
          (update (readCatalogViewState collation params d)) d)
        d := by
  unfold updateViewState
  rw [read_keepFlag collation (Or.inr rfl),
    read_keepFlag collation (Or.inl rfl)]

variable {collation}

theorem url_keeps_view_iff
    {s : CatalogViewState}
    (h : NormalForm collation s)
    (d : CatalogSortState) :
    KeepsView collation s d ↔ Kept s d := by
  have hBack := readCatalogViewState_written collation h d
  constructor
  · intro hKeeps
    rw [← sortBack_eq_iff]
    have hSame := hBack.symm.trans hKeeps.readBack
    exact ⟨congrArg CatalogViewState.sort hSame,
      congrArg CatalogViewState.order hSame⟩
  · intro hKept
    rcases (sortBack_eq_iff s d).mpr hKept with ⟨hSort, hOrder⟩
    rw [hSort, hOrder] at hBack
    refine ⟨hBack, ?_, ?_⟩
    · intro params hRead
      rw [read_updateViewState, hRead]
      exact hBack
    · unfold viewState
      rw [UrlEncoded.parse_serialize, Option.map_some, hBack]

end Views

------------------------------------------------------------
-- A Search In The Default Order
------------------------------------------------------------

namespace DefaultOrder

/- The order of code points. -/
def collation : Collation where
  le := Text.le
  total := Text.le_total
  trans _ _ _ := Text.le_trans

def search (sort : ItemSort) : CatalogViewState where
  q := "sfp 25".toList
  status := .active
  manufacturerIds := ["a".toList, "b".toList]
  availability := .inStock
  locationIds := []
  filters := [⟨"form".toList, .eq, "a:b&c=ю".toList⟩]
  sort := sort
  order := .asc

theorem normalForm (sort : ItemSort) :
    NormalForm collation (search sort) where
  q := by
    change trim "sfp 25".toList = "sfp 25".toList
    decide +kernel
  manufacturers := by
    change ["a".toList, "b".toList].Nodup
    decide +kernel
  manufacturersSorted := by
    change ["a".toList, "b".toList].Pairwise (Before collation)
    decide +kernel
  locations := List.nodup_nil
  locationsSorted := List.Pairwise.nil
  filters := by
    intro f hf
    rw [List.mem_singleton.mp hf]
    exact ⟨by decide +kernel, by decide, by decide, by decide⟩
  filtersSorted := List.pairwise_singleton _ _

end DefaultOrder

theorem url_keeps_view_iff_speed :
    KeepsView DefaultOrder.collation
      (DefaultOrder.search .speed) defaultCatalogSort ↔
      Kept (DefaultOrder.search .speed) defaultCatalogSort :=
  url_keeps_view_iff (DefaultOrder.normalForm .speed)
    defaultCatalogSort

/- The default order that was chosen becomes relevance. -/
theorem url_loses_default_order :
    readCatalogViewState DefaultOrder.collation
      (catalogViewStateToSearchParams DefaultOrder.collation
        (DefaultOrder.search .name) defaultCatalogSort)
      defaultCatalogSort =
        { DefaultOrder.search .name with
          sort := .relevance
          order := .desc } ∧
      NormalForm DefaultOrder.collation
        (DefaultOrder.search .name) ∧
      ¬ KeepsView DefaultOrder.collation
        (DefaultOrder.search .name) defaultCatalogSort := by
  have hBack : readCatalogViewState DefaultOrder.collation
      (catalogViewStateToSearchParams DefaultOrder.collation
        (DefaultOrder.search .name) defaultCatalogSort)
      defaultCatalogSort =
        { DefaultOrder.search .name with
          sort := .relevance
          order := .desc } := by
    decide +kernel
  refine ⟨hBack, DefaultOrder.normalForm .name, ?_⟩
  intro hKeeps
  have hSame := hBack.symm.trans hKeeps.readBack
  cases congrArg CatalogViewState.sort hSame

end CatalogView
