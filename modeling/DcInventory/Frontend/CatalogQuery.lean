import DcInventory.Catalog.Query
import DcInventory.Library.SearchParams
import DcInventory.Library.UrlEncoded

/-
  This file defines how the view of a catalog page is read
  from the parameters of its address and written to them.

  Key definitions include:
    * `CatalogView.Collation`
    * `CatalogView.CatalogViewState`
    * `CatalogView.readCatalogViewState`
    * `CatalogView.catalogViewStateToSearchParams`
    * `CatalogView.updateViewState`
-/

namespace CatalogView

open Catalog (Availability ItemSort SortOrder FilterOperator)

------------------------------------------------------------
-- Texts Of The Browser
------------------------------------------------------------

/- `left.localeCompare(right) <= 0` in the user's locale. -/
structure Collation where
  le : Text → Text → Bool
  total : ∀ v w, le v w = true ∨ le w v = true
  trans : ∀ u v w, le u v = true → le v w = true →
    le u w = true

/- White space and line ends, as `trim` takes them. -/
def isBlank (c : Char) : Bool :=
  (9 ≤ c.toNat && c.toNat ≤ 13) || c.toNat == 32 ||
    c.toNat == 160 || c.toNat == 5760 ||
    (8192 ≤ c.toNat && c.toNat ≤ 8202) || c.toNat == 8232 ||
    c.toNat == 8233 || c.toNat == 8239 || c.toNat == 8287 ||
    c.toNat == 12288 || c.toNat == 65279

def trim (value : Text) : Text :=
  Words.strip isBlank value

------------------------------------------------------------
-- Views
------------------------------------------------------------

def statusText : ItemStatus → Text
| .active => "ACTIVE".toList
| .archived => "ARCHIVED".toList

def availabilityText : Availability → Text
| .any => "ANY".toList
| .inStock => "IN_STOCK".toList
| .outOfStock => "OUT_OF_STOCK".toList

def sortText : ItemSort → Text
| .name => "name".toList
| .relevance => "relevance".toList
| .manufacturer => "manufacturer".toList
| .available => "available".toList
| .total => "total".toList
| .speed => "speed".toList

def orderText : SortOrder → Text
| .asc => "asc".toList
| .desc => "desc".toList

def operatorText : FilterOperator → Text
| .eq => "eq".toList
| .gte => "gte".toList
| .lte => "lte".toList

structure CatalogAttributeFilter where
  key : Text
  operator : FilterOperator
  value : Text
deriving DecidableEq

structure CatalogSortState where
  sort : ItemSort
  order : SortOrder
deriving DecidableEq

structure CatalogViewState where
  q : Text
  status : ItemStatus
  manufacturerIds : List Text
  availability : Availability
  locationIds : List Text
  filters : List CatalogAttributeFilter
  sort : ItemSort
  order : SortOrder
deriving DecidableEq

def defaultCatalogSort : CatalogSortState where
  sort := .name
  order := .asc

/- The names of the parameters. -/
def qName : Text := "q".toList

def statusName : Text := "status".toList

def manufacturerName : Text := "manufacturer_id".toList

def availabilityName : Text := "availability".toList

def locationName : Text := "location_id".toList

def filterName : Text := "filter".toList

def sortName : Text := "sort".toList

def orderName : Text := "order".toList

def longRangeName : Text := "long_range".toList

def rj45Name : Text := "rj45".toList

/- `${key}:${operator}:${value}` -/
def CatalogAttributeFilter.expression
    (f : CatalogAttributeFilter) : Text :=
  f.key ++ ':' :: (operatorText f.operator ++ ':' :: f.value)

def parseAttributeFilter
    (expression : Text) : Option CatalogAttributeFilter :=
  match Catalog.splitExpression expression with
  | none => none
  | some (rawKey, rawOperator, value) =>
      if rawKey = [] ∨ rawOperator = [] then none
      else
        let key := trim rawKey
        if key = [] ∨ value = [] then none
        else
          (Table.find Prod.fst rawOperator
            Catalog.filterOperators).map (fun found =>
              ⟨key, found.2, value⟩)

section Views

variable (collation : Collation)

def uniqueSorted (values : List Text) : List Text :=
  values.eraseDups.insertionSort
    (fun v w => collation.le v w = true)

/- Filters in the order of their expressions. -/
def sortedFilters
    (filters : List CatalogAttributeFilter) :
    List CatalogAttributeFilter :=
  filters.insertionSort (fun f g =>
    collation.le f.expression g.expression = true)

/- The order that a search or its absence implies. -/
def implicitSort
    (q : Text)
    (defaultSort : CatalogSortState) : CatalogSortState :=
  if q ≠ [] then ⟨.relevance, .desc⟩ else defaultSort

def readAvailability : Option Text → Availability
| none => .any
| some value =>
    if value = "IN_STOCK".toList then .inStock
    else if value = "OUT_OF_STOCK".toList then .outOfStock
    else .any

def readSort (value : Option Text) : Option ItemSort :=
  value.bind (fun value =>
    (Table.find Prod.fst value Catalog.itemSorts).map Prod.snd)

def readOrder (value : Option Text) : Option SortOrder :=
  value.bind (fun value =>
    (Table.find Prod.fst value Catalog.sortOrders).map Prod.snd)

def readCatalogViewState
    (params : SearchParams)
    (defaultSort : CatalogSortState) : CatalogViewState :=
  let q := trim ((params.get qName).getD [])
  let sort := readSort (params.get sortName)
  let implicit := implicitSort q defaultSort
  {
    q := q
    status :=
      if params.get statusName = some "ARCHIVED".toList then
        .archived
      else .active
    manufacturerIds :=
      uniqueSorted collation (params.getAll manufacturerName)
    availability :=
      readAvailability (params.get availabilityName)
    locationIds :=
      uniqueSorted collation (params.getAll locationName)
    filters := sortedFilters collation
      ((params.getAll filterName).filterMap parseAttributeFilter)
    sort := sort.getD implicit.sort
    order := (readOrder (params.get orderName)).getD
      (if sort.isSome then .asc else implicit.order) }

/- A parameter that is set only on a condition. -/
def setIf
    (condition : Bool)
    (name value : Text)
    (params : SearchParams) : SearchParams :=
  if condition then params.set name value else params

/- The order that is not written. -/
def implicitOrder
    (state : CatalogViewState)
    (defaultSort : CatalogSortState) : SortOrder :=
  if state.sort = defaultSort.sort then defaultSort.order
  else .asc

def catalogViewStateToSearchParams
    (state : CatalogViewState)
    (defaultSort : CatalogSortState) : SearchParams :=
  let q := trim state.q
  let params := setIf (q ≠ []) qName q []
  let params := setIf (state.status ≠ .active) statusName
    (statusText state.status) params
  let params := (uniqueSorted collation
    state.manufacturerIds).foldl (fun params id =>
      params.append manufacturerName id) params
  let params := setIf (state.availability ≠ .any)
    availabilityName (availabilityText state.availability) params
  let params := (uniqueSorted collation
    state.locationIds).foldl (fun params id =>
      params.append locationName id) params
  let params := (sortedFilters collation state.filters).foldl
    (fun params f => params.append filterName f.expression)
    params
  let params := setIf (state.sort ≠ defaultSort.sort) sortName
    (sortText state.sort) params
  setIf (state.order ≠ implicitOrder state defaultSort)
    orderName (orderText state.order) params

/- The views of transceivers stay as they are. -/
def keepFlag
    (current : SearchParams)
    (name : Text)
    (next : SearchParams) : SearchParams :=
  setIf (current.get name = some "true".toList) name
    "true".toList next

def updateViewState
    (defaultSort : CatalogSortState)
    (update : CatalogViewState → CatalogViewState)
    (current : SearchParams) : SearchParams :=
  let next := catalogViewStateToSearchParams collation
    (update (readCatalogViewState collation current
      defaultSort)) defaultSort
  keepFlag current rj45Name (keepFlag current longRangeName next)

/- What is shown at an address with these parameters. -/
def viewState
    (defaultSort : CatalogSortState)
    (search : Text) : Option CatalogViewState :=
  (UrlEncoded.parse search).map (fun params =>
    readCatalogViewState collation params defaultSort)

end Views

end CatalogView
