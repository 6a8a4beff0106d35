import DcInventory.Catalog.Relevance
import DcInventory.Catalog.Scope

/-
  This file proves that the scores of a search agree with its
  conditions: a token adds to the score of an item exactly if
  the item matches it, and closer matches add more.

  Key definitions include:
    * `Catalog.rowCloseness`
    * `Catalog.RanksMatches`

  Key theorems include:
    * `Catalog.normalizedTextRelevance_eq`
    * `Catalog.rowRelevance_eq`
    * `Catalog.tokenRelevance_pos_iff`
    * `Catalog.ranking_agrees_with_matching`
-/

namespace Catalog

------------------------------------------------------------
-- Fields
------------------------------------------------------------

theorem closeness_exact (token value : Text) :
    3 ≤ closeness token value ↔ value = token := by
  unfold closeness
  split
  · rename_i h
    exact iff_of_true (le_refl 3) h
  · rename_i h
    refine iff_of_false ?_ h
    split
    · decide
    · split
      · decide
      · decide

theorem closeness_prefixed (token value : Text) :
    2 ≤ closeness token value ↔ token <+: value := by
  unfold closeness
  split
  · rename_i h
    exact iff_of_true (by decide) (h ▸ List.prefix_rfl)
  · split
    · rename_i h
      exact iff_of_true (le_refl 2) h
    · rename_i h
      refine iff_of_false ?_ h
      split
      · decide
      · decide

theorem closeness_contains (token value : Text) :
    1 ≤ closeness token value ↔ token <:+: value := by
  unfold closeness
  split
  · rename_i h
    exact iff_of_true (by decide) (h ▸ List.infix_rfl)
  · split
    · rename_i h
      exact iff_of_true (by decide) h.isInfix
    · split
      · rename_i h
        exact iff_of_true (le_refl 1) h
      · rename_i h
        exact iff_of_false (by decide) h

/- Tests in the order of their weights grade a match. -/
theorem caseOf_eq_score
    {exact prefixed contains : Sql.Truth}
    {n : Nat}
    (w : Weights)
    (hLe : n ≤ 3)
    (hExact : exact.Holds ↔ 3 ≤ n)
    (hPrefixed : prefixed.Holds ↔ 2 ≤ n)
    (hContains : contains.Holds ↔ 1 ≤ n) :
    Sql.caseOf [(exact, w.exact), (prefixed, w.prefixed),
      (contains, w.contains)] = w.score n := by
  have hCases : n = 0 ∨ n = 1 ∨ n = 2 ∨ n = 3 := by omega
  simp only [Sql.caseOf, hExact, hPrefixed, hContains]
  rcases hCases with rfl | rfl | rfl | rfl <;>
    simp [Weights.score]

/- How closely a column matches; NULL does not. -/
def columnCloseness
    (token : Text) : Option Text → Nat
| none => 0
| some value => closeness token value

theorem columnCloseness_le
    (token : Text)
    (v : Option Text) :
    columnCloseness token v ≤ 3 := by
  cases v with
  | none => exact Nat.zero_le 3
  | some value => exact closeness_le token value

theorem le_columnCloseness_iff
    {p : Text → Prop}
    {token : Text}
    {k : Nat}
    (hPos : 0 < k)
    (h : ∀ value, k ≤ closeness token value ↔ p value)
    (v : Option Text) :
    k ≤ columnCloseness token v ↔
      ∃ value, v = some value ∧ p value := by
  cases v with
  | none =>
      refine iff_of_false (by simpa [columnCloseness] using
        Nat.pos_iff_ne_zero.mp hPos) ?_
      rintro ⟨value, hValue, _⟩
      cases hValue
  | some value => simpa [columnCloseness] using h value

theorem normalizedTextRelevance_eq
    (column : Option Text)
    (token : Text)
    (w : Weights) :
    normalizedTextRelevance column token w =
      w.score (columnCloseness token column) := by
  apply caseOf_eq_score w (columnCloseness_le token column)
  · rw [le_columnCloseness_iff (by decide)
      (closeness_exact token), Sql.holds_eq]
    simp
  · rw [le_columnCloseness_iff (by decide)
      (closeness_prefixed token), holds_prefixed]
  · rw [le_columnCloseness_iff (by decide)
      (closeness_contains token), holds_contains]

/- A number is zero, or large and then a condition holds. -/
def Worth (n : Int) (p : Prop) : Prop :=
  (n = 0 ∧ ¬ p) ∨ (45 ≤ n ∧ p)

namespace Worth

variable {m n : Int}
variable {p q : Prop}

theorem congr_right
    (h : Worth n p)
    (hIff : p ↔ q) :
    Worth n q := by
  unfold Worth at h ⊢
  rw [← hIff]
  exact h

/- Numbers add up as their conditions do. -/
theorem add
    (hm : Worth m p)
    (hn : Worth n q) :
    Worth (m + n) (p ∨ q) := by
  rcases hm with ⟨hm, hp⟩ | ⟨hm, hp⟩
  · rcases hn with ⟨hn, hq⟩ | ⟨hn, hq⟩
    · exact Or.inl ⟨by omega, not_or.mpr ⟨hp, hq⟩⟩
    · exact Or.inr ⟨by omega, Or.inr hq⟩
  · refine Or.inr ⟨?_, Or.inl hp⟩
    rcases hn with ⟨hn, _⟩ | ⟨hn, _⟩
    · omega
    · omega

theorem le_of_holds
    (h : Worth n p)
    (hp : p) :
    45 ≤ n := by
  rcases h with ⟨_, hNot⟩ | ⟨hLe, _⟩
  · exact absurd hp hNot
  · exact hLe

theorem pos_iff (h : Worth n p) : p ↔ 0 < n := by
  rcases h with ⟨hZero, hNot⟩ | ⟨hLe, hHolds⟩
  · exact iff_of_false hNot (by omega)
  · exact iff_of_true hHolds (by omega)

end Worth

theorem Weights.score_worth
    (w : Weights)
    (n : Nat) :
    Worth (w.score n) (1 ≤ n) := by
  rcases w.ordered with ⟨hInner, hPrefix, hExact⟩
  match n with
  | 0 => exact Or.inl ⟨rfl, by decide⟩
  | 1 => exact Or.inr ⟨hInner, le_refl 1⟩
  | 2 =>
      refine Or.inr ⟨?_, by decide⟩
      change 45 ≤ w.prefixed
      omega
  | k + 3 =>
      refine Or.inr ⟨?_, by omega⟩
      change 45 ≤ w.exact
      omega

------------------------------------------------------------
-- Values
------------------------------------------------------------

section Values

variable (env : QueryEnv)
variable (token : Text)
variable (row : ItemAttributeValue)

/- How closely a text matches in any case of letters. -/
def foldedCloseness (v : Option Text) : Nat :=
  columnCloseness (token.map env.lower)
    (v.map (List.map env.lower))

/- The closer one of the two texts of a row. -/
def rowCloseness : Nat :=
  max (foldedCloseness env token row.textValue)
    (foldedCloseness env token row.enumValue)

/- The token is the number or the truth value of the row. -/
def TypedMatch : Prop :=
  ∃ t ∈ typedConditions env token row, t.Holds

/- What one row is worth. -/
def rowRelevance : Int :=
  Sql.caseOf (weightedMatches env token row)

theorem rowCloseness_le : rowCloseness env token row ≤ 3 :=
  max_le (columnCloseness_le _ _) (columnCloseness_le _ _)

/- The typed conditions stand first, worth the same. -/
theorem weightedMatches_eq :
    weightedMatches env token row =
      (typedConditions env token row).map
        (fun t => (t, attributeWeights.exact)) ++ [
      ((Sql.ilike env.lower row.textValue
          (escapedLikeFragment token)).or
        (Sql.ilike env.lower row.enumValue
          (escapedLikeFragment token)),
        attributeWeights.exact),
      ((Sql.ilike env.lower row.textValue
          (escapedPrefixPattern token)).or
        (Sql.ilike env.lower row.enumValue
          (escapedPrefixPattern token)),
        attributeWeights.prefixed),
      ((Sql.ilike env.lower row.textValue
          (escapedContainsPattern token)).or
        (Sql.ilike env.lower row.enumValue
          (escapedContainsPattern token)),
        attributeWeights.contains)] := by
  unfold weightedMatches typedConditions booleanToken
  simp only [List.map_append, Option.toList_map]
  congr 1
  congr 1
  · congr 1
    · simp [attributeWeights]
    · simp [attributeWeights]
  · by_cases hTrue : token = "true".toList
    · simp [hTrue, attributeWeights]
    · by_cases hFalse : token = "false".toList
      · simp [hFalse, attributeWeights]
      · rw [if_neg (not_or.mpr ⟨hTrue, hFalse⟩), if_neg hTrue,
          if_neg hFalse]
        rfl

/- Branches of one weight are passed over, or one is taken. -/
theorem caseOf_append
    (ts : List Sql.Truth)
    (k : Int)
    (rest : List (Sql.Truth × Int)) :
    ((∃ t ∈ ts, t.Holds) → Sql.caseOf
      (ts.map (fun t => (t, k)) ++ rest) = k) ∧
    ((¬ ∃ t ∈ ts, t.Holds) → Sql.caseOf
      (ts.map (fun t => (t, k)) ++ rest) = Sql.caseOf rest) := by
  induction ts with
  | nil =>
      exact ⟨fun ⟨_, h, _⟩ => (nomatch h), fun _ => rfl⟩
  | cons t ts ih =>
      rw [List.map_cons, List.cons_append, Sql.caseOf,
        List.exists_mem_cons_iff]
      by_cases hTaken : t.Holds
      · rw [if_pos hTaken]
        exact ⟨fun _ => rfl,
          fun hNot => absurd (Or.inl hTaken) hNot⟩
      · rw [if_neg hTaken]
        exact ⟨fun h => ih.1 (h.resolve_left hTaken),
          fun hNot => ih.2 fun h => hNot (Or.inr h)⟩

/- The patterns of a row grade its closer text. -/
theorem holds_row_iff
    {pattern : Text}
    {p : Text → Text → Prop}
    {k : Nat}
    (hPos : 0 < k)
    (hClose : ∀ token value,
      k ≤ closeness token value ↔ p token value)
    (hPattern : ∀ v : Option Text,
      (Sql.ilike env.lower v pattern).Holds ↔
        ∃ w, v = some w ∧
          p (token.map env.lower) (w.map env.lower)) :
    ((Sql.ilike env.lower row.textValue pattern).or
        (Sql.ilike env.lower row.enumValue pattern)).Holds ↔
      k ≤ rowCloseness env token row := by
  have hOne : ∀ v : Option Text,
      (Sql.ilike env.lower v pattern).Holds ↔
        k ≤ foldedCloseness env token v := by
    intro v
    unfold foldedCloseness
    rw [hPattern, le_columnCloseness_iff hPos (hClose _)]
    cases v <;> simp
  unfold rowCloseness
  rw [Sql.Truth.holds_or, hOne, hOne, le_max_iff]

section Folding

variable (h : Sql.KeepsSpecial env.lower)
include h

theorem holds_row_contains :
    ((Sql.ilike env.lower row.textValue
        (escapedContainsPattern token)).or
      (Sql.ilike env.lower row.enumValue
        (escapedContainsPattern token))).Holds ↔
      1 ≤ rowCloseness env token row :=
  holds_row_iff env token row (by decide) closeness_contains
    fun v => holds_contains_folded v token h

theorem rowRelevance_eq :
    (TypedMatch env token row →
      rowRelevance env token row = attributeWeights.exact) ∧
    (¬ TypedMatch env token row →
      rowRelevance env token row =
        attributeWeights.score (rowCloseness env token row)) := by
  have hSplit := caseOf_append (typedConditions env token row)
    attributeWeights.exact
  unfold rowRelevance TypedMatch
  rw [weightedMatches_eq]
  refine ⟨fun hTyped => (hSplit _).1 hTyped, fun hNot => ?_⟩
  rw [(hSplit _).2 hNot]
  apply caseOf_eq_score attributeWeights
    (rowCloseness_le env token row)
  · exact holds_row_iff env token row (by decide) closeness_exact
      fun v => holds_exact_folded v token h
  · exact holds_row_iff env token row (by decide)
      closeness_prefixed
      fun v => holds_prefixed_folded v token h
  · exact holds_row_contains env token row h

/- The conditions of a search on one row. -/
theorem holds_row_conditions :
    (Sql.anyOf (textConditions env
      (escapedContainsPattern token) row ++
        typedConditions env token row)).Holds ↔
      TypedMatch env token row ∨
        1 ≤ rowCloseness env token row := by
  unfold textConditions TypedMatch
  rw [← holds_row_contains env token row h]
  simp only [Sql.holds_anyOf, Sql.Truth.holds_or,
    List.mem_append, or_and_right, exists_or,
    List.exists_mem_cons_iff]
  simp [or_comm]

/- A row is worth something exactly if it is searched for. -/
theorem rowRelevance_worth :
    Worth (rowRelevance env token row)
      (Sql.anyOf (textConditions env
        (escapedContainsPattern token) row ++
          typedConditions env token row)).Holds := by
  have hHolds := holds_row_conditions env token row h
  rcases rowRelevance_eq env token row h with ⟨hExact, hScore⟩
  by_cases hTyped : TypedMatch env token row
  · rw [hExact hTyped]
    exact Or.inr ⟨by decide, hHolds.mpr (Or.inl hTyped)⟩
  · rw [hScore hTyped]
    refine (attributeWeights.score_worth
      (rowCloseness env token row)).congr_right ?_
    rw [hHolds]
    exact (or_iff_right hTyped).symm

end Folding

end Values

------------------------------------------------------------
-- Items
------------------------------------------------------------

section Items

variable (env : QueryEnv)
variable (db : Db)
variable (token : Text)
variable (item : Item)

/- The rows that a search looks at. -/
def searchedRows : List ItemAttributeValue :=
  db.itemAttributeValues.filter (fun row =>
    decide (row.itemId = item.id) && isSearchable db row)

/- What a token is worth in each of the four places. -/
def relevanceParts : List Int := [
  normalizedTextRelevance item.normalizedModel token
    modelWeights,
  normalizedTextRelevance (some item.normalizedName) token
    nameWeights,
  normalizedTextRelevance ((joinedManufacturer db item).map
    Manufacturer.normalizedName) token manufacturerWeights,
  searchableAttributeRelevance env db token item]

/- No part is NULL, so the score is a number. -/
theorem addRelevance_some (n : Int) :
    addRelevance env db item (some n) token =
      some (n + (relevanceParts env db token item).sum) := by
  unfold addRelevance relevanceParts
  simp only [Sql.plus, List.sum_cons, List.sum_nil, add_zero,
    add_assoc]

theorem tokenRelevance_eq :
    tokenRelevance env db token item =
      some (relevanceParts env db token item).sum := by
  unfold tokenRelevance
  rw [addRelevance_some, zero_add]

theorem searchRelevanceScore_eq (tokens : List Text) :
    searchRelevanceScore env db tokens item =
      some ((tokens.map (fun token =>
        (relevanceParts env db token item).sum)).sum) := by
  have hFold : ∀ n : Int,
      tokens.foldl (addRelevance env db item) (some n) =
        some (n + (tokens.map (fun token =>
          (relevanceParts env db token item).sum)).sum) := by
    induction tokens with
    | nil => simp
    | cons t ts ih =>
        intro n
        rw [List.foldl_cons, addRelevance_some, ih,
          List.map_cons, List.sum_cons, add_assoc]
  unfold searchRelevanceScore
  rw [hFold, zero_add]

/- A column is worth something exactly if it contains it. -/
theorem normalizedTextRelevance_worth
    (column : Option Text)
    (w : Weights) :
    Worth (normalizedTextRelevance column token w)
      (Sql.like column (escapedContainsPattern token)).Holds := by
  rw [normalizedTextRelevance_eq]
  refine (w.score_worth _).congr_right ?_
  rw [holds_contains]
  exact le_columnCloseness_iff (by decide)
    (closeness_contains token) column

/- The joined manufacturer is the one that is searched. -/
theorem holds_manufacturer_iff
    (hIds : (db.manufacturers.map Manufacturer.id).Nodup)
    (pattern : Text) :
    (Sql.existsRow db.manufacturers (fun m =>
      (Sql.eq (some m.id) item.manufacturerId).and
        (Sql.like (some m.normalizedName) pattern))).Holds ↔
      (Sql.like ((joinedManufacturer db item).map
        Manufacturer.normalizedName) pattern).Holds := by
  rw [Sql.holds_existsRow]
  simp only [Sql.Truth.holds_and, Sql.holds_eq]
  unfold joinedManufacturer
  constructor
  · rintro ⟨m, hm, ⟨id, hId, hItem⟩, hLike⟩
    cases hId
    rw [hItem, Option.bind_some, Table.find_of_mem hIds hm]
    exact hLike
  · intro hLike
    cases hItem : item.manufacturerId with
    | none =>
        rw [hItem] at hLike
        cases hLike
    | some id =>
        rw [hItem, Option.bind_some] at hLike
        cases hFind : Table.find Manufacturer.id id
          db.manufacturers with
        | none =>
            rw [hFind] at hLike
            cases hLike
        | some m =>
            rw [hFind] at hLike
            refine ⟨m, Table.mem_of_find hFind,
              ⟨id, ?_, rfl⟩, hLike⟩
            rw [Table.key_of_find hFind]

/- A searchable value of the item matches. -/
def valueSearched : Sql.Truth :=
  Sql.existsRow db.itemAttributeValues (fun row =>
    Sql.allOf [some (decide (row.itemId = item.id)),
      some (isSearchable db row),
      Sql.anyOf (textConditions env
        (escapedContainsPattern token) row ++
          typedConditions env token row)])

theorem holds_valueSearched_iff :
    (valueSearched env db token item).Holds ↔
      ∃ row ∈ searchedRows db item, (Sql.anyOf
        (textConditions env (escapedContainsPattern token) row ++
          typedConditions env token row)).Holds := by
  simp [valueSearched, searchedRows, and_assoc]

variable (h : Sql.KeepsSpecial env.lower)
include h

/- The best row is worth something if one is searched for. -/
theorem searchableAttributeRelevance_worth :
    Worth (searchableAttributeRelevance env db token item)
      (valueSearched env db token item).Holds := by
  have hSearched := holds_valueSearched_iff env db token item
  have hBest : searchableAttributeRelevance env db token item =
      Sql.maximumOrZero ((searchedRows db item).map
        (rowRelevance env token)) := rfl
  rw [hBest]
  by_cases hSome : (valueSearched env db token item).Holds
  · refine Or.inr ⟨?_, hSome⟩
    rcases hSearched.mp hSome with ⟨row, hRow, hHolds⟩
    have hWorth :=
      (rowRelevance_worth env token row h).le_of_holds hHolds
    exact hWorth.trans (Sql.maximumOrZero_of_mem
      (List.mem_map_of_mem hRow))
  · refine Or.inl ⟨?_, hSome⟩
    rcases Sql.maximumOrZero_cases ((searchedRows db item).map
      (rowRelevance env token)) with hZero | hMem
    · exact hZero
    · rcases List.mem_map.mp hMem with ⟨row, hRow, hEq⟩
      rw [← hEq]
      rcases rowRelevance_worth env token row h with
        ⟨hZero, _⟩ | ⟨_, hHolds⟩
      · exact hZero
      · exact absurd (hSearched.mpr ⟨row, hRow, hHolds⟩) hSome

variable (hIds : (db.manufacturers.map Manufacturer.id).Nodup)
include hIds

/- A token is worth something exactly if the item matches. -/
theorem relevanceParts_worth :
    Worth (relevanceParts env db token item).sum
      (searchPredicate env db token item).Holds := by
  have hModel := normalizedTextRelevance_worth token
    item.normalizedModel modelWeights
  have hName := normalizedTextRelevance_worth token
    (some item.normalizedName) nameWeights
  have hMaker := normalizedTextRelevance_worth token
    ((joinedManufacturer db item).map
      Manufacturer.normalizedName) manufacturerWeights
  have hValues :=
    searchableAttributeRelevance_worth env db token item h
  have hSum := hModel.add (hName.add (hMaker.add hValues))
  simp only [relevanceParts, List.sum_cons, List.sum_nil,
    add_zero]
  refine hSum.congr_right ?_
  unfold searchPredicate
  simp only [Sql.Truth.holds_or, Sql.holds_anyOf,
    List.exists_mem_cons_iff, List.not_mem_nil, false_and,
    exists_false, or_false, holds_manufacturer_iff db item hIds]
  unfold valueSearched
  rw [or_left_comm]
  simp only [or_assoc]

theorem tokenRelevance_pos_iff :
    (searchPredicate env db token item).Holds ↔
      ∃ n, tokenRelevance env db token item = some n ∧
        0 < n := by
  rw [tokenRelevance_eq,
    (relevanceParts_worth env db token item h hIds).pos_iff]
  simp

/- An item that matches all tokens is worth 45 for each. -/
theorem le_score_of_matches
    (tokens : List Text)
    (hMatches : ∀ token ∈ tokens,
      (searchPredicate env db token item).Holds) :
    45 * (tokens.length : Int) ≤ (tokens.map (fun token =>
      (relevanceParts env db token item).sum)).sum := by
  induction tokens with
  | nil => exact le_refl 0
  | cons t ts ih =>
      rcases List.forall_mem_cons.mp hMatches with
        ⟨hFirst, hRest⟩
      have hLe := (relevanceParts_worth env db t item h
        hIds).le_of_holds hFirst
      have hTail := ih hRest
      rw [List.map_cons, List.sum_cons, List.length_cons]
      push_cast
      omega

end Items

------------------------------------------------------------
-- Ranking And Matching
------------------------------------------------------------

/- The patterns of a token match it literally. -/
structure PatternsAreLiteral
    (lower : Char → Char)
    (token : Text) : Prop where
  exact : ∀ v, (Sql.ilike lower v
    (escapedLikeFragment token)).Holds ↔
      ∃ w, v = some w ∧ w.map lower = token.map lower
  prefixed : ∀ v, (Sql.like v
    (escapedPrefixPattern token)).Holds ↔
      ∃ w, v = some w ∧ token <+: w
  prefixedFolded : ∀ v, (Sql.ilike lower v
    (escapedPrefixPattern token)).Holds ↔
      ∃ w, v = some w ∧ token.map lower <+: w.map lower
  contains : ∀ v, (Sql.like v
    (escapedContainsPattern token)).Holds ↔
      ∃ w, v = some w ∧ token <:+: w
  containsFolded : ∀ v, (Sql.ilike lower v
    (escapedContainsPattern token)).Holds ↔
      ∃ w, v = some w ∧ token.map lower <:+: w.map lower

/- Closer matches of a field are worth more. -/
structure RanksCloser
    (env : QueryEnv)
    (token : Text) : Prop where
  columns : ∀ (w : Weights) v v',
    columnCloseness token v < columnCloseness token v' →
    normalizedTextRelevance v token w <
      normalizedTextRelevance v' token w
  rows : ∀ row row', ¬ TypedMatch env token row →
    ¬ TypedMatch env token row' →
    rowCloseness env token row < rowCloseness env token row' →
    rowRelevance env token row < rowRelevance env token row'
  typed : ∀ row row', TypedMatch env token row →
    rowRelevance env token row' ≤ rowRelevance env token row

/- The scores of a search agree with its conditions. -/
structure RanksMatches
    (env : QueryEnv)
    (db : Db)
    (tokens : List Text) : Prop where
  literal : ∀ token ∈ tokens,
    PatternsAreLiteral env.lower token
  closer : ∀ token ∈ tokens, RanksCloser env token
  agrees : ∀ token ∈ tokens, ∀ item,
    (searchPredicate env db token item).Holds ↔
      ∃ n, tokenRelevance env db token item = some n ∧ 0 < n
  adds : ∀ item, ∃ worth : Text → Int,
    (∀ token ∈ tokens, tokenRelevance env db token item =
      some (worth token)) ∧
    searchRelevanceScore env db tokens item =
      some (tokens.map worth).sum
  listed : ∀ spec : CatalogQuerySpec, spec.tokens = tokens →
    ∀ item ∈ itemsThat db (itemPredicates env db spec []),
      ∃ n, searchRelevanceScore env db spec.tokens item =
        some n ∧ 45 * (tokens.length : Int) ≤ n

section Agreement

variable {env : QueryEnv}
/- A listed item matches every token. -/
theorem matches_of_listed
    {db : Db}
    {spec : CatalogQuerySpec}
    {item : Item}
    (hListed :
      item ∈ itemsThat db (itemPredicates env db spec [])) :
    ∀ token ∈ spec.tokens,
      (searchPredicate env db token item).Holds := by
  have hAll := (List.mem_filter.mp hListed).2
  rw [decide_eq_true_eq] at hAll
  intro token hToken
  apply hAll
  have hMem : searchPredicate env db token ∈
      spec.tokens.map (searchPredicate env db) :=
    List.mem_map_of_mem hToken
  unfold itemPredicates
  exact List.mem_append_left _ (List.mem_append_right _ hMem)

variable (h : Sql.KeepsSpecial env.lower)
include h

theorem patternsAreLiteral (token : Text) :
    PatternsAreLiteral env.lower token where
  exact v := holds_exact_folded v token h
  prefixed v := holds_prefixed v token
  prefixedFolded v := holds_prefixed_folded v token h
  contains v := holds_contains v token
  containsFolded v := holds_contains_folded v token h

theorem ranksCloser (token : Text) :
    RanksCloser env token where
  columns w v v' hLess := by
    rw [normalizedTextRelevance_eq, normalizedTextRelevance_eq]
    exact w.score_lt hLess (columnCloseness_le token v')
  rows row row' hNot hNot' hLess := by
    rw [(rowRelevance_eq env token row h).2 hNot,
      (rowRelevance_eq env token row' h).2 hNot']
    exact attributeWeights.score_lt hLess
      (rowCloseness_le env token row')
  typed row row' hTyped := by
    rw [(rowRelevance_eq env token row h).1 hTyped]
    by_cases hOther : TypedMatch env token row'
    · rw [(rowRelevance_eq env token row' h).1 hOther]
    · rw [(rowRelevance_eq env token row' h).2 hOther]
      rcases Nat.lt_or_eq_of_le
        (rowCloseness_le env token row') with hLess | hEq
      · exact (attributeWeights.score_lt hLess
          (le_refl 3)).le
      · rw [hEq]
        exact le_refl _

theorem ranking_agrees_with_matching
    {db : Db}
    (hIds : (db.manufacturers.map Manufacturer.id).Nodup)
    (tokens : List Text) :
    RanksMatches env db tokens where
  literal token _ := patternsAreLiteral h token
  closer token _ := ranksCloser h token
  agrees token _ item :=
    tokenRelevance_pos_iff env db token item h hIds
  adds item := ⟨fun token =>
      (relevanceParts env db token item).sum,
    fun token _ => tokenRelevance_eq env db token item,
    searchRelevanceScore_eq env db item tokens⟩
  listed spec hTokens item hListed := by
    subst hTokens
    exact ⟨_, searchRelevanceScore_eq env db item spec.tokens,
      le_score_of_matches env db item h hIds spec.tokens
        (matches_of_listed hListed)⟩

end Agreement

/- Letters of ASCII stay apart from the special signs. -/
theorem keepsSpecial_toLower :
    Sql.KeepsSpecial Char.toLower where
  special c hSpecial := by
    unfold Sql.isSpecial at hSpecial
    simp only [Bool.or_eq_true, beq_iff_eq] at hSpecial
    rcases hSpecial with (rfl | rfl) | rfl <;> decide
  plain c hPlain := by
    by_contra hSpecial
    rw [Bool.not_eq_false] at hSpecial
    have hCode : c.toLower.toNat = 92 ∨ c.toLower.toNat = 37 ∨
        c.toLower.toNat = 95 := by
      unfold Sql.isSpecial at hSpecial
      simp only [Bool.or_eq_true, beq_iff_eq] at hSpecial
      rcases hSpecial with (hEq | hEq) | hEq <;> rw [hEq] <;> decide
    unfold Char.toLower at hSpecial hCode
    split at hCode
    · rename_i hRange
      have hLow : 65 ≤ c.val.toNat :=
        UInt32.le_iff_toNat_le.mp hRange.1
      have hHigh : c.val.toNat ≤ 90 :=
        UInt32.le_iff_toNat_le.mp hRange.2
      have hMoved : (c.val + ('a'.val - 'A'.val)).toNat =
          c.val.toNat + 32 := by
        rw [UInt32.toNat_add]
        exact Nat.mod_eq_of_lt (by
          change c.val.toNat + 32 < 2 ^ 32
          omega)
      change (c.val + ('a'.val - 'A'.val)).toNat = 92 ∨
        (c.val + ('a'.val - 'A'.val)).toNat = 37 ∨
        (c.val + ('a'.val - 'A'.val)).toNat = 95 at hCode
      omega
    · rename_i hRange
      rw [dif_neg hRange, hPlain] at hSpecial
      cases hSpecial

namespace Searching

def maker : Manufacturer :=
  ⟨⟨5⟩, "100% Fibre".toList, "100% fibre".toList⟩

/- A module without a model, of a known manufacturer. -/
def item : Item :=
  ⟨⟨4⟩, ⟨2⟩, some ⟨5⟩, "Far".toList, "far".toList, none, none,
    .active, "signature".toList, none, 0⟩

def db : Db :=
  { Spelling.db with
    manufacturers := [maker]
    items := [item] }

end Searching

theorem ranking_agrees_with_matching_percent :
    RanksMatches Spelling.env Searching.db
      ["100%".toList, "a\\_".toList] :=
  ranking_agrees_with_matching keepsSpecial_toLower
    (by decide) ["100%".toList, "a\\_".toList]

/- The sign of per cent stands for itself. -/
example : searchRelevanceScore Spelling.env Searching.db
    ["100%".toList] Searching.item = some 90 := by
  decide +kernel

end Catalog
