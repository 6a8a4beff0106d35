import DcInventory.Catalog.Service
import DcInventory.Library.Patterns

/-
  This file defines the queries of the catalog: how a request
  is read into a specification, and the conditions on items
  that a specification stands for.

  Key definitions include:
    * `Catalog.QueryEnv`
    * `Catalog.CatalogQuerySpec`
    * `Catalog.buildCatalogQuerySpec`
    * `Catalog.equipmentScope`
    * `Catalog.itemPredicates`
-/

namespace Catalog

------------------------------------------------------------
-- Enumerations
------------------------------------------------------------

inductive Availability where
| any
| inStock
| outOfStock
deriving DecidableEq, Repr

inductive ItemSort where
| name
| relevance
| manufacturer
| available
| total
| speed
deriving DecidableEq, Repr

inductive SortOrder where
| asc
| desc
deriving DecidableEq, Repr

/- The values of `Availability`. -/
def availabilities : List (Text × Availability) :=
  [("ANY".toList, .any), ("IN_STOCK".toList, .inStock),
    ("OUT_OF_STOCK".toList, .outOfStock)]

/- The values of `ItemSort`. -/
def itemSorts : List (Text × ItemSort) :=
  [("name".toList, .name), ("relevance".toList, .relevance),
    ("manufacturer".toList, .manufacturer),
    ("available".toList, .available),
    ("total".toList, .total), ("speed".toList, .speed)]

/- The values of `SortOrder`. -/
def sortOrders : List (Text × SortOrder) :=
  [("asc".toList, .asc), ("desc".toList, .desc)]

inductive FilterOperator where
| eq
| gte
| lte
deriving DecidableEq, Repr

def filterOperators : List (Text × FilterOperator) :=
  [("eq".toList, .eq), ("gte".toList, .gte),
    ("lte".toList, .lte)]

------------------------------------------------------------
-- Specifications
------------------------------------------------------------

/-
  What the runtime and the database provide: `str.upper` and
  `str.lower` of the runtime, `lower` of one character and
  the order of texts in the database.
-/
structure QueryEnv where
  unicode : Unicode
  upperText : Text → Text
  lowerText : Text → Text
  lower : Char → Char
  before : Text → Text → Bool

structure AttributeFilter where
  attributeId : Uuid
  key : Text
  dataType : AttributeDataType
  filterType : FilterType
  operator : FilterOperator
  value : AttributeValue
deriving DecidableEq

structure CatalogQuerySpec where
  tokens : List Text
  categoryId : Option Uuid
  categoryIds : List Uuid
  definitions : List CategoryAttribute
  longRange : Bool
  rj45 : Bool
  categoryKey : Option Text
  status : ItemStatus
  manufacturerIds : List Uuid
  availability : Availability
  locationIds : List Uuid
  attributeFilters : List AttributeFilter
  sort : ItemSort
  order : SortOrder

/- The arguments of `build_catalog_query_spec`. -/
structure QueryRequest where
  q : Option Text
  categoryKey : Option Text
  longRange : Bool
  rj45 : Bool
  itemStatus : ItemStatus
  manufacturerIds : List Uuid
  availability : Text
  locationIds : List Uuid
  sort : Text
  order : Text
  filterExpressions : List Text

/- The defaults of its arguments. -/
def QueryRequest.default : QueryRequest where
  q := none
  categoryKey := none
  longRange := false
  rj45 := false
  itemStatus := .active
  manufacturerIds := []
  availability := "ANY".toList
  locationIds := []
  sort := "name".toList
  order := "asc".toList
  filterExpressions := []

def maxSearchTokens : Nat := 12

def maxQueryValues : Nat := 50

def maxFilterExpressionLength : Nat := 2048

section Building

variable (env : QueryEnv)

/- `_parse_controlled_enum`, after its text is put in case. -/
def parseControlledEnum {α : Type}
    (values : List (Text × α))
    (value : Text)
    (code field : String) : Except Error α :=
  match Table.find Prod.fst value values with
  | some found => .ok found.2
  | none =>
      .error (CatalogError.validation code ("invalid " ++ field))

/- `normalize_comparison` without a bound on its length. -/
def comparisonText (U : Unicode) (value : Text) : Text :=
  U.casefold (Text.normalize value)

def normalizeQueryTokens :
    Option Text → Except Error (List Text)
| none => .ok []
| some q =>
    let normalized := Text.normalize q
    if 200 < normalized.length then
      .error (CatalogError.validation "search_too_long"
        "q exceeds 200 characters")
    else
      let tokens := ((Text.split normalized).map
        (comparisonText env.unicode)).eraseDups
      if maxSearchTokens < tokens.length then
        .error (CatalogError.validation "search_too_complex"
          "q exceeds 12 distinct tokens")
      else .ok tokens

/- `get_category_by_key` -/
def getCategoryByKey
    (db : Db)
    (categoryKey : Text) : Except Error Category := do
  let normalizedKey ←
    normalizeCategoryKey env.unicode categoryKey
  match Table.find Category.key normalizedKey db.categories with
  | none => .error (CatalogError.notFound "category not found")
  | some category => .ok category

/- A leaf by itself, or the leaves of a family. -/
def scopeCategoryIds
    (db : Db)
    (category : Category) : List Uuid :=
  if category.parentId ≠ none then [category.id]
  else (db.categories.filter (fun c =>
    c.parentId = some category.id)).map Category.id

/- `key:operator:value`, cut at the first two colons. -/
def splitExpression
    (expression : Text) : Option (Text × Text × Text) :=
  match expression.span (· ≠ ':') with
  | (_, []) => none
  | (key, _ :: rest) =>
      match rest.span (· ≠ ':') with
      | (_, []) => none
      | (operator, _ :: value) => some (key, operator, value)

/- The integer that an optional sign and digits stand for. -/
def readInteger? (U : Unicode) (v : Text) : Option Int :=
  let (negative, digits) := readSign v
  if digits = [] ∨ !digits.all U.isDigit ∨
      4300 < digits.length then none
  else
    let n := digits.foldl
      (fun n c => 10 * n + (U.digit c).getD 0) 0
    some (if negative then -(n : Int) else n)

def prepareAttributeFilterValue
    (attr : CategoryAttribute)
    (rawValue : Text) : Except Error AttributeValue := do
  let candidate : RawValue ←
    match attr.dataType with
    | .integer =>
        match readInteger? env.unicode
          (Text.strip rawValue) with
        | some n => Except.ok (RawValue.int n)
        | none =>
            .error (attr.invalid "attribute_type_mismatch"
              " requires INTEGER")
    | .boolean =>
        let normalized :=
          env.unicode.casefold (Text.strip rawValue)
        if normalized = "true".toList then
          .ok (.bool true)
        else if normalized = "false".toList then
          .ok (.bool false)
        else
          .error (attr.invalid "attribute_type_mismatch"
            " requires true or false")
    | _ => .ok (.str rawValue)
  let prepared ←
    prepareAttributeValue env.unicode attr candidate
  match prepared.bind PreparedAttributeValue.value? with
  | some value => .ok value
  | none =>
      .error (attr.invalid "attribute_type_mismatch"
        " requires a value")

/- A validation error of a filter's value, under its code. -/
def filterValueError : Error → Error
| .catalog .validation _ message =>
    .catalog .validation "filter_value_invalid".toList message
| error => error

/- Whether a filter may use the operator. -/
def checkFilterOperator
    (attr : CategoryAttribute)
    (key operator : Text) : Except Error FilterOperator := do
  let notAllowed : Error :=
    .catalog .validation "filter_operator_not_allowed".toList
      ("operator ".toList ++ operator ++
        " is not allowed for attribute ".toList ++ key)
  match Table.find Prod.fst operator filterOperators with
  | none => .error notAllowed
  | some (_, parsed) =>
      if attr.filterType = .exact ∧ parsed ≠ .eq then
        .error notAllowed
      else if parsed ≠ .eq ∧ attr.dataType ≠ .integer ∧
          attr.dataType ≠ .decimal then
        .error (.catalog .validation
          "filter_operator_not_allowed".toList
          ("operator ".toList ++ operator ++
            " requires a numeric attribute".toList))
      else .ok parsed

/- One filter; `boundaries` are the bounds that are set. -/
def parseFilter
    (definitions : List CategoryAttribute)
    (boundaries : List (Text × FilterOperator))
    (expression : Text) : Except Error AttributeFilter := do
  let malformed : Error :=
    CatalogError.validation "filter_malformed"
      "filter must use <attribute_key>:<operator>:<value>"
  match splitExpression expression with
  | none => .error malformed
  | some (rawKey, rawOperator, rawValue) =>
      if Text.strip rawKey = [] ∨ Text.strip rawOperator = []
      then .error malformed
      else
        let key := env.unicode.casefold (Text.strip rawKey)
        let operator := env.lowerText (Text.strip rawOperator)
        match definitionOf definitions key with
        | none =>
            .error (.catalog .validation
              "filter_unknown_attribute".toList
              ("unknown category attribute: ".toList ++ key))
        | some attr =>
            if !attr.filterable || attr.filterType = .none_
            then
              .error (.catalog .validation
                "filter_not_filterable".toList
                ("attribute ".toList ++ key ++
                  " is not filterable".toList))
            else do
              let parsed ← checkFilterOperator attr key operator
              if parsed ≠ .eq ∧ (key, parsed) ∈ boundaries then
                .error (.catalog .validation
                  "filter_range_boundary_conflict".toList
                  ("duplicate ".toList ++ operator ++
                    " boundary for attribute ".toList ++ key))
              else
                let value ←
                  (prepareAttributeFilterValue env attr
                    rawValue).mapError filterValueError
                .ok ⟨attr.id, attr.key, attr.dataType,
                  attr.filterType, parsed, value⟩

/- All filters, one after the other. -/
def parseFilters
    (definitions : List CategoryAttribute) :
    List (Text × FilterOperator) → List Text →
    Except Error (List AttributeFilter)
| _, [] => .ok []
| boundaries, expression :: rest => do
    let parsed ←
      parseFilter env definitions boundaries expression
    let boundaries :=
      if parsed.operator = .eq then boundaries
      else (parsed.key, parsed.operator) :: boundaries
    let filters ← parseFilters definitions boundaries rest
    .ok (parsed :: filters)

/- The limits on the lengths of lists and expressions. -/
def checkQuerySize (request : QueryRequest) :
    Except Error Unit :=
  let tooMany (field : String) : Error :=
    CatalogError.validation "query_too_complex"
      (field ++ " exceeds 50 values")
  if maxQueryValues < request.manufacturerIds.length then
    .error (tooMany "manufacturer_ids")
  else if maxQueryValues < request.locationIds.length then
    .error (tooMany "location_ids")
  else if maxQueryValues < request.filterExpressions.length then
    .error (tooMany "filter_expressions")
  else if request.filterExpressions.any (fun expression =>
      maxFilterExpressionLength < expression.length) then
    .error (CatalogError.validation "filter_too_long"
      "filter exceeds 2048 characters")
  else .ok ()

/- The key of the leaf that is shown in several views. -/
def transceiverEthernet : Text :=
  "transceiver_ethernet".toList

/- The views of transceivers exclude each other. -/
def checkTransceiverView (request : QueryRequest) :
    Except Error Unit :=
  if request.rj45 ∧ request.longRange then
    .error (CatalogError.validation "transceiver_view_conflict"
      "rj45 and long_range cannot be combined")
  else if request.rj45 ∧
      request.categoryKey ≠ some transceiverEthernet then
    .error (CatalogError.validation "rj45_category_invalid"
      "rj45 view requires transceiver_ethernet category")
  else .ok ()

/- The definitions of several categories, by their keys. -/
def scopeDefinitions
    (db : Db)
    (categoryIds : List Uuid) : List CategoryAttribute :=
  (db.categoryAttributes.filter (fun a =>
    a.categoryId ∈ categoryIds)).insertionSort
      (fun a b => env.before a.key b.key = true)

/- Identifiers without repetitions, in the order of texts. -/
def sortedIds (ids : List Uuid) : List Uuid :=
  ids.dedup.insertionSort
    (fun a b => Text.le a.str b.str = true)

/- The category of a request, if it names one. -/
def requestedCategory
    (db : Db) :
    Option Text → Except Error (Option Category)
| none => .ok none
| some key => (getCategoryByKey env db key).map some

def buildCatalogQuerySpec
    (db : Db)
    (request : QueryRequest) :
    Except Error CatalogQuerySpec := do
  let tokens ← normalizeQueryTokens env request.q
  checkTransceiverView request
  checkQuerySize request
  let category ← requestedCategory env db request.categoryKey
  let categoryIds :=
    (category.map (scopeCategoryIds db)).getD []
  let definitions := scopeDefinitions env db categoryIds
  if request.filterExpressions ≠ [] ∧ category = none then
    .error (CatalogError.validation "filter_category_required"
      ("category is required when attribute filters " ++
        "are supplied"))
  else
    let availability ← parseControlledEnum availabilities
      (env.upperText (Text.strip request.availability))
      "availability_invalid" "availability"
    let sort ← parseControlledEnum itemSorts
      (env.lowerText (Text.strip request.sort))
      "sort_invalid" "sort"
    let order ← parseControlledEnum sortOrders
      (env.lowerText (Text.strip request.order))
      "order_invalid" "order"
    let attributeFilters ← parseFilters env definitions []
      request.filterExpressions
    .ok {
      tokens := tokens
      categoryId := category.map Category.id
      categoryIds := categoryIds
      definitions := definitions
      longRange := request.longRange
      rj45 := request.rj45
      categoryKey := category.map Category.key
      status := request.itemStatus
      manufacturerIds := sortedIds request.manufacturerIds
      availability := availability
      locationIds := sortedIds request.locationIds
      attributeFilters := attributeFilters
      sort := sort
      order := order }

end Building

------------------------------------------------------------
-- Views Of Transceivers
------------------------------------------------------------

/- A condition in a WHERE clause on items. -/
abbrev ItemCondition := Item → Sql.Truth

/- `Item.id IN (SELECT item_id ...)` -/
def hasItemId (ids : List Uuid) : ItemCondition :=
  fun item => Sql.inList (some item.id) (ids.map some)

section Conditions

variable (env : QueryEnv)
variable (db : Db)

/-
  The items with a value of an attribute that belongs to the
  category with the key.
-/
def itemsWith
    (categoryKey attributeKey : Text)
    (condition : ItemAttributeValue → Sql.Truth) :
    List Uuid :=
  (db.itemAttributeValues.filter (fun row =>
    db.categoryAttributes.any (fun a =>
      a.id = row.categoryAttributeId ∧ a.key = attributeKey ∧
        db.categories.any (fun c =>
          c.id = a.categoryId ∧ c.key = categoryKey)) ∧
      (condition row).Holds)).map ItemAttributeValue.itemId

/- `a >= b` -/
def atLeast (a : Option Int) (b : Int) : Sql.Truth :=
  a.map (fun n => decide (b ≤ n))

def longRangePredicate : ItemCondition :=
  hasItemId (itemsWith db transceiverEthernet "reach_m".toList
    (fun row => atLeast row.integerValue 2000))

/- A letter or a digit of ASCII, no capital one. -/
def isConnectorSign (c : Char) : Bool :=
  (97 ≤ c.toNat && c.toNat ≤ 122) ||
    (48 ≤ c.toNat && c.toNat ≤ 57)

/- `regexp_replace(lower(...), '[^a-z0-9]+', '', 'g')` -/
def normalizedConnector (text : Text) : Text :=
  (text.map env.lower).filter isConnectorSign

def rj45TransceiverPredicate : ItemCondition :=
  hasItemId (itemsWith db transceiverEthernet
    "connector".toList (fun row =>
      Sql.like (row.textValue.map (normalizedConnector env))
        "rj45%".toList))

/- The conditions of the view that the flags and a key name. -/
def viewPredicates
    (longRange rj45 : Bool)
    (key : Option Text) : List ItemCondition :=
  if rj45 then [rj45TransceiverPredicate env db]
  else if longRange then [longRangePredicate db]
  else if key = some transceiverEthernet then
    [fun item => (longRangePredicate db item).not,
      fun item => (rj45TransceiverPredicate env db item).not]
  else []

/- `Item.category_id IN (ids)` -/
def inCategories (ids : List Uuid) : ItemCondition :=
  fun item => Sql.inList (some item.categoryId) (ids.map some)

/-
  The conditions on the items whose movements are listed. The
  key is compared as it is given.
-/
def equipmentScope
    (key : Option Text)
    (longRange rj45 : Bool) :
    Except Error (List ItemCondition) := do
  let category ← requestedCategory env db key
  let ids := (category.map (scopeCategoryIds db)).getD []
  let inScope : List ItemCondition :=
    if key.getD [] ≠ [] then [inCategories ids] else []
  .ok (inScope ++ viewPredicates env db longRange rj45 key)

------------------------------------------------------------
-- Searches
------------------------------------------------------------

/- `value.replace(c, "\\c")` -/
def replaceSign (c : Char) (value : Text) : Text :=
  value.flatMap (fun d => if d = c then ['\\', d] else [d])

def escapedLikeFragment (value : Text) : Text :=
  replaceSign '_' (replaceSign '%' (replaceSign '\\' value))

def escapedContainsPattern (value : Text) : Text :=
  '%' :: (escapedLikeFragment value ++ ['%'])

def escapedPrefixPattern (value : Text) : Text :=
  escapedLikeFragment value ++ ['%']

def safeIntegerToken (token : Text) : Option Int :=
  (readInteger? env.unicode token).filter (fun value =>
    decide (minSafeInteger ≤ value) &&
      decide (value ≤ maxSafeInteger))

def safeDecimalToken (token : Text) : Option Decimal :=
  match decimalOfText env.unicode token with
  | some (.finite value) =>
      if (maxDecimalScale : Int) < value.fractionalDigits ∨
          (maxDecimalIntegralDigits : Int) <
            value.integerDigits then none
      else some value
  | _ => none

/- `token == "true"`, if it is a truth value. -/
def booleanToken (token : Text) : Option Bool :=
  if token = "true".toList then some true
  else if token = "false".toList then some false
  else none

/- `decimal_value = d` -/
def equalsDecimal (n : Option Numeric) (d : Decimal) :
    Sql.Truth :=
  n.map (fun n => decide (n.value = d.value))

/- The definition that a value belongs to is searchable. -/
def isSearchable (row : ItemAttributeValue) : Bool :=
  db.categoryAttributes.any (fun a =>
    a.id = row.categoryAttributeId ∧ a.searchable)

/- A condition on the number or truth value of a row, if any. -/
def typedConditions
    (token : Text)
    (row : ItemAttributeValue) : List Sql.Truth :=
  ((safeIntegerToken env token).map (fun n =>
    Sql.eq row.integerValue (some n))).toList ++
  ((safeDecimalToken env token).map (fun d =>
    equalsDecimal row.decimalValue d)).toList ++
  ((booleanToken token).map (fun b =>
    some (decide (row.booleanValue = some b)))).toList

/- The conditions on the two texts of a row. -/
def textConditions
    (pattern : Text)
    (row : ItemAttributeValue) : List Sql.Truth :=
  [Sql.ilike env.lower row.textValue pattern,
    Sql.ilike env.lower row.enumValue pattern]

def searchPredicate (token : Text) : ItemCondition :=
  fun item =>
    let pattern := escapedContainsPattern token
    let common := Sql.anyOf [
      Sql.like (some item.normalizedName) pattern,
      Sql.like item.normalizedModel pattern,
      Sql.existsRow db.manufacturers (fun m =>
        (Sql.eq (some m.id) item.manufacturerId).and
          (Sql.like (some m.normalizedName) pattern))]
    let searchableAttribute :=
      Sql.existsRow db.itemAttributeValues (fun row =>
        Sql.allOf [some (decide (row.itemId = item.id)),
          some (isSearchable db row),
          Sql.anyOf (textConditions env pattern row ++
            typedConditions env token row)])
    common.or searchableAttribute

------------------------------------------------------------
-- Filters
------------------------------------------------------------

/- Whether the column of its type has the value. -/
def columnEquals
    (row : ItemAttributeValue) : AttributeValue → Sql.Truth
| .text value => Sql.eq row.enumValue (some value)
| .integer value => Sql.eq row.integerValue (some value)
| .decimal value => equalsDecimal row.decimalValue value
| .boolean value => Sql.eq row.booleanValue (some value)

/- Whether a numeric column is at least the value. -/
def columnAtLeast
    (row : ItemAttributeValue) : AttributeValue → Sql.Truth
| .integer value => atLeast row.integerValue value
| .decimal value => row.decimalValue.map (fun n =>
    decide (value.value ≤ n.value))
| _ => none

/- Whether a numeric column is at most the value. -/
def columnAtMost
    (row : ItemAttributeValue) : AttributeValue → Sql.Truth
| .integer value => row.integerValue.map (fun n =>
    decide (n ≤ value))
| .decimal value => row.decimalValue.map (fun n =>
    decide (n.value ≤ value.value))
| _ => none

/- A filter on one of several values of an attribute. -/
def equalsValue
    (dataType : AttributeDataType)
    (row : ItemAttributeValue)
    (value : AttributeValue) : Sql.Truth :=
  match dataType, value with
  | .text, .text text =>
      Sql.ilike env.lower row.textValue
        (escapedLikeFragment text)
  | _, value => columnEquals row value

/- The filters of one attribute: alternatives and bounds. -/
def attributeFilterPredicate
    (key : Text)
    (dataType : AttributeDataType)
    (filters : List AttributeFilter) : ItemCondition :=
  fun item =>
    let valuesOf (operator : FilterOperator) :=
      (filters.filter (fun f => f.operator = operator)).map
        AttributeFilter.value
    Sql.existsRow db.itemAttributeValues (fun row =>
      Sql.allOf ([some (decide (row.itemId = item.id)),
        some (db.categoryAttributes.any (fun a =>
          a.id = row.categoryAttributeId ∧ a.key = key))] ++
        (if valuesOf .eq = [] then []
          else [Sql.anyOf ((valuesOf .eq).map
            (equalsValue env dataType row))]) ++
        (valuesOf .gte).map (columnAtLeast row) ++
        (valuesOf .lte).map (columnAtMost row)))

/- The filters of the attributes that are not excluded. -/
def attributePredicates
    (filters : List AttributeFilter)
    (isExcluded : Text → Bool) : List ItemCondition :=
  let kept := filters.filter (fun f => !isExcluded f.key)
  (kept.map AttributeFilter.key).eraseDups.filterMap (fun key =>
    let ofKey := kept.filter (fun f => f.key = key)
    ofKey.head?.map (fun first =>
      attributeFilterPredicate env db first.key first.dataType
        ofKey))

------------------------------------------------------------
-- All Conditions
------------------------------------------------------------

/- There is some of the item somewhere. -/
def inStock : ItemCondition :=
  fun item => Sql.existsRow db.stockBalances (fun b =>
    some (decide (b.itemId = item.id ∧ 0 < b.quantity)))

/- The parts of a specification that a facet leaves out. -/
inductive FacetKey where
| category
| manufacturer
| availability
| location
| attribute_ (key : Text)
deriving DecidableEq, Repr

/- The category and the view of a specification. -/
def scopePredicates (spec : CatalogQuerySpec) :
    List ItemCondition :=
  (if spec.categoryKey ≠ none then
    [inCategories spec.categoryIds] else []) ++
  viewPredicates env db spec.longRange spec.rj45
    spec.categoryKey

/- `_item_predicates`; a category is never left out. -/
def itemPredicates
    (spec : CatalogQuerySpec)
    (exclude : List FacetKey) : List ItemCondition :=
  [fun item => some (decide (item.status = spec.status))] ++
  scopePredicates env db spec ++
  (if spec.manufacturerIds ≠ [] ∧ .manufacturer ∉ exclude then
    [fun item => Sql.inList item.manufacturerId
      (spec.manufacturerIds.map some)] else []) ++
  (if spec.availability ≠ .any ∧ .availability ∉ exclude then
    [if spec.availability = .inStock then inStock db
      else fun item => (inStock db item).not] else []) ++
  (if spec.locationIds ≠ [] ∧ .location ∉ exclude then
    [fun item => Sql.existsRow db.stockBalances (fun b =>
      some (decide (b.itemId = item.id ∧
        b.locationId ∈ spec.locationIds)))] else []) ++
  spec.tokens.map (searchPredicate env db) ++
  attributePredicates env db spec.attributeFilters
    (fun key => decide (.attribute_ key ∈ exclude))

/- The items that pass all conditions. -/
def itemsThat
    (conditions : List ItemCondition) : List Item :=
  db.items.filter (fun item =>
    decide (∀ condition ∈ conditions, (condition item).Holds))

end Conditions

end Catalog
