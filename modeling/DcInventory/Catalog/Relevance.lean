import DcInventory.Catalog.Query

/-
  This file defines the scores that items are listed by, and
  what the patterns in them match.

  Key definitions include:
    * `Catalog.Weights`
    * `Catalog.searchRelevanceScore`
    * `Catalog.tokenRelevance`
    * `Catalog.closeness`

  Key theorems include:
    * `Catalog.Weights.score_lt`
    * `Catalog.holds_contains`
    * `Catalog.holds_contains_folded`
-/

namespace Catalog

------------------------------------------------------------
-- Scores
------------------------------------------------------------

/- What the kinds of matches in a field are worth. -/
structure Weights where
  exact : Int
  prefixed : Int
  contains : Int
  ordered : 45 ≤ contains ∧ contains < prefixed ∧
    prefixed < exact

def modelWeights : Weights := ⟨160, 120, 80, by decide⟩

def nameWeights : Weights := ⟨150, 110, 70, by decide⟩

def manufacturerWeights : Weights := ⟨120, 90, 60, by decide⟩

def attributeWeights : Weights := ⟨100, 75, 45, by decide⟩

section Scores

variable (env : QueryEnv)
variable (db : Db)

def normalizedTextRelevance
    (column : Option Text)
    (token : Text)
    (weights : Weights) : Int :=
  Sql.caseOf [
    (Sql.eq column (some token), weights.exact),
    (Sql.like column (escapedPrefixPattern token),
      weights.prefixed),
    (Sql.like column (escapedContainsPattern token),
      weights.contains)]

/- What the value of one row is worth. -/
def weightedMatches
    (token : Text)
    (row : ItemAttributeValue) : List (Sql.Truth × Int) :=
  let integerMatch := (safeIntegerToken env token).map
    (fun n => (Sql.eq row.integerValue (some n), (100 : Int)))
  let decimalMatch := (safeDecimalToken env token).map
    (fun d => (equalsDecimal row.decimalValue d, (100 : Int)))
  let booleanMatch : Option (Sql.Truth × Int) :=
    if token = "true".toList ∨ token = "false".toList then
      some (some (decide (row.booleanValue =
        some (decide (token = "true".toList)))), 100)
    else none
  integerMatch.toList ++ decimalMatch.toList ++
    booleanMatch.toList ++ [
      ((Sql.ilike env.lower row.textValue
          (escapedLikeFragment token)).or
        (Sql.ilike env.lower row.enumValue
          (escapedLikeFragment token)),
        attributeWeights.exact),
      ((Sql.ilike env.lower row.textValue
          (escapedPrefixPattern token)).or
        (Sql.ilike env.lower row.enumValue
          (escapedPrefixPattern token)),
        attributeWeights.prefixed),
      ((Sql.ilike env.lower row.textValue
          (escapedContainsPattern token)).or
        (Sql.ilike env.lower row.enumValue
          (escapedContainsPattern token)),
        attributeWeights.contains)]

/- The best searchable value of an item, or zero. -/
def searchableAttributeRelevance
    (token : Text)
    (item : Item) : Int :=
  Sql.maximumOrZero ((db.itemAttributeValues.filter (fun row =>
    decide (row.itemId = item.id) && isSearchable db row)).map
      (fun row => Sql.caseOf (weightedMatches env token row)))

/- The row of the outer join with the manufacturers. -/
def joinedManufacturer (item : Item) : Option Manufacturer :=
  item.manufacturerId.bind (fun id =>
    Table.find Manufacturer.id id db.manufacturers)

/- The score, with what one more token is worth. -/
def addRelevance
    (item : Item)
    (score : Option Int)
    (token : Text) : Option Int :=
  Sql.plus (Sql.plus (Sql.plus (Sql.plus score
    (some (normalizedTextRelevance item.normalizedModel token
      modelWeights)))
    (some (normalizedTextRelevance (some item.normalizedName)
      token nameWeights)))
    (some (normalizedTextRelevance
      ((joinedManufacturer db item).map
        Manufacturer.normalizedName)
      token manufacturerWeights)))
    (some (searchableAttributeRelevance env db token item))

def searchRelevanceScore
    (tokens : List Text)
    (item : Item) : Option Int :=
  tokens.foldl (addRelevance env db item) (some 0)

/- What one token contributes to the score. -/
def tokenRelevance (token : Text) (item : Item) : Option Int :=
  addRelevance env db item (some 0) token

end Scores

------------------------------------------------------------
-- Kinds Of Matches
------------------------------------------------------------

/- How well a text matches: as a whole, at the beginning,
   inside, or not at all. -/
def closeness (token value : Text) : Nat :=
  if value = token then 3
  else if token <+: value then 2
  else if token <:+: value then 1
  else 0

/- What a match is worth. -/
def Weights.score (w : Weights) : Nat → Int
| 0 => 0
| 1 => w.contains
| 2 => w.prefixed
| _ => w.exact

theorem closeness_le (token value : Text) :
    closeness token value ≤ 3 := by
  unfold closeness
  split
  · decide
  · split
    · decide
    · split
      · decide
      · decide

/- Closer matches are worth more. -/
theorem Weights.score_lt
    (w : Weights)
    {m n : Nat}
    (hLess : m < n)
    (hLe : n ≤ 3) :
    w.score m < w.score n := by
  rcases w.ordered with ⟨hInner, hPrefix, hExact⟩
  have hm : m = 0 ∨ m = 1 ∨ m = 2 := by omega
  have hn : n = 1 ∨ n = 2 ∨ n = 3 := by omega
  rcases hm with rfl | rfl | rfl <;>
    rcases hn with rfl | rfl | rfl <;>
      simp only [Weights.score] <;> omega

/- Escaping one sign after the other escapes all of them. -/
theorem escapedLikeFragment_eq (value : Text) :
    escapedLikeFragment value = Sql.escaped value := by
  induction value with
  | nil => rfl
  | cons c cs ih =>
      have hSplit : ∀ d, escapedLikeFragment (d :: cs) =
          escapedLikeFragment [d] ++ escapedLikeFragment cs := by
        intro d
        unfold escapedLikeFragment replaceSign
        rw [← List.singleton_append, List.flatMap_append,
          List.flatMap_append, List.flatMap_append]
      have hCons : Sql.escaped (c :: cs) =
          Sql.escaped [c] ++ Sql.escaped cs := by
        unfold Sql.escaped
        rw [← List.singleton_append, List.flatMap_append]
      have hOne : escapedLikeFragment [c] = Sql.escaped [c] := by
        by_cases hEscape : c = '\\'
        · subst hEscape
          decide
        by_cases hMany : c = '%'
        · subst hMany
          decide
        by_cases hOne : c = '_'
        · subst hOne
          decide
        have hPlain : Sql.isSpecial c = false := by
          simp [Sql.isSpecial, hEscape, hMany, hOne]
        simp [escapedLikeFragment, replaceSign, Sql.escaped,
          hPlain, hEscape, hMany, hOne]
      rw [hSplit, hCons, hOne, ih]

section Patterns

variable (v : Option Text)
variable (token : Text)

theorem holds_contains :
    (Sql.like v (escapedContainsPattern token)).Holds ↔
      ∃ w, v = some w ∧ token <:+: w := by
  unfold escapedContainsPattern
  rw [escapedLikeFragment_eq]
  exact Sql.holds_like_infix v token

theorem holds_prefixed :
    (Sql.like v (escapedPrefixPattern token)).Holds ↔
      ∃ w, v = some w ∧ token <+: w := by
  unfold escapedPrefixPattern
  rw [escapedLikeFragment_eq]
  exact Sql.holds_like_start v token

variable {lower : Char → Char}
variable (h : Sql.KeepsSpecial lower)
include h

theorem map_escapedLikeFragment :
    (escapedLikeFragment token).map lower =
      escapedLikeFragment (token.map lower) := by
  rw [escapedLikeFragment_eq, escapedLikeFragment_eq,
    Sql.map_escaped h]

theorem holds_contains_folded :
    (Sql.ilike lower v (escapedContainsPattern token)).Holds ↔
      ∃ w, v = some w ∧ token.map lower <:+: w.map lower := by
  have hMany : lower '%' = '%' := h.special '%' (by decide)
  have hPattern : (escapedContainsPattern token).map lower =
      escapedContainsPattern (token.map lower) := by
    unfold escapedContainsPattern
    rw [List.map_cons, List.map_append,
      map_escapedLikeFragment token h, hMany, List.map_singleton,
      hMany]
  unfold Sql.ilike
  rw [hPattern, holds_contains]
  cases v <;> simp

theorem holds_prefixed_folded :
    (Sql.ilike lower v (escapedPrefixPattern token)).Holds ↔
      ∃ w, v = some w ∧ token.map lower <+: w.map lower := by
  have hMany : lower '%' = '%' := h.special '%' (by decide)
  have hPattern : (escapedPrefixPattern token).map lower =
      escapedPrefixPattern (token.map lower) := by
    unfold escapedPrefixPattern
    rw [List.map_append, map_escapedLikeFragment token h,
      List.map_singleton, hMany]
  unfold Sql.ilike
  rw [hPattern, holds_prefixed]
  cases v <;> simp

theorem holds_exact_folded :
    (Sql.ilike lower v (escapedLikeFragment token)).Holds ↔
      ∃ w, v = some w ∧ w.map lower = token.map lower := by
  unfold Sql.ilike
  rw [map_escapedLikeFragment token h, escapedLikeFragment_eq,
    Sql.holds_like_escaped]
  cases v <;> simp

end Patterns

end Catalog
