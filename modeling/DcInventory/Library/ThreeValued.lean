import Mathlib.Data.Option.Basic

/-
  This file defines the three truth values of SQL and the
  operators that the guards of a database are written with.
  `none` is NULL, both as a value and as a truth value.

  Key definitions include:
    * `Sql.Truth`
    * `Sql.Truth.Holds`
    * `Sql.Truth.Passes`
    * `Sql.eq`
    * `Sql.inList`
    * `Sql.isDistinctFrom`
    * `Sql.anyOf`
    * `Sql.allOf`
    * `Sql.existsRow`
    * `Sql.caseOf`
    * `Sql.maximumOrZero`
-/

namespace Sql

/- True, false or unknown. -/
abbrev Truth := Option Bool

namespace Truth

/- An `IF` branch is taken only when its test is true. -/
def Holds (t : Truth) : Prop :=
  t = some true

/- A `CHECK` fails only when it is false. -/
def Passes (t : Truth) : Prop :=
  t ≠ some false

instance (t : Truth) : Decidable t.Holds := by
  unfold Holds
  infer_instance

instance (t : Truth) : Decidable t.Passes := by
  unfold Passes
  infer_instance

/- Negation leaves unknown unknown. -/
def not : Truth → Truth
| some b => some !b
| none => none

/- False as soon as one side is false. -/
def and : Truth → Truth → Truth
| some false, _ => some false
| _, some false => some false
| some true, some true => some true
| _, _ => none

/- True as soon as one side is true. -/
def or : Truth → Truth → Truth
| some true, _ => some true
| _, some true => some true
| some false, some false => some false
| _, _ => none

/- `coalesce(t, b)` -/
def orElse (t : Truth) (b : Bool) : Truth :=
  some (t.getD b)

@[simp]
theorem holds_some (b : Bool) :
    Holds (some b) ↔ b = true := by
  simp [Holds]

@[simp]
theorem passes_some (b : Bool) :
    Passes (some b) ↔ b = true := by
  simp [Passes]

@[simp]
theorem holds_and (t u : Truth) :
    (t.and u).Holds ↔ t.Holds ∧ u.Holds := by
  rcases t with _ | _ | _ <;>
    rcases u with _ | _ | _ <;> simp [and, Holds]

@[simp]
theorem holds_or (t u : Truth) :
    (t.or u).Holds ↔ t.Holds ∨ u.Holds := by
  rcases t with _ | _ | _ <;>
    rcases u with _ | _ | _ <;> simp [or, Holds]

@[simp]
theorem passes_and (t u : Truth) :
    (t.and u).Passes ↔ t.Passes ∧ u.Passes := by
  rcases t with _ | _ | _ <;>
    rcases u with _ | _ | _ <;> simp [and, Passes]

@[simp]
theorem passes_or (t u : Truth) :
    (t.or u).Passes ↔ t.Passes ∨ u.Passes := by
  rcases t with _ | _ | _ <;>
    rcases u with _ | _ | _ <;> simp [or, Passes]

@[simp]
theorem holds_not_orElse_false (t : Truth) :
    (t.orElse false).not.Holds ↔ ¬ t.Holds := by
  rcases t with _ | _ | _ <;> simp [orElse, not, Holds]

end Truth

variable {A : Type}

/- `a IS NULL` -/
def isNull (a : Option A) : Truth :=
  some a.isNone

/- `a IS NOT NULL` -/
def isNotNull (a : Option A) : Truth :=
  some a.isSome

@[simp]
theorem holds_isNull (a : Option A) :
    (isNull a).Holds ↔ a = none := by
  cases a <;> simp [isNull]

@[simp]
theorem holds_isNotNull (a : Option A) :
    (isNotNull a).Holds ↔ a ≠ none := by
  cases a <;> simp [isNotNull]

@[simp]
theorem passes_isNull (a : Option A) :
    (isNull a).Passes ↔ a = none := by
  cases a <;> simp [isNull]

@[simp]
theorem passes_isNotNull (a : Option A) :
    (isNotNull a).Passes ↔ a ≠ none := by
  cases a <;> simp [isNotNull]

variable [DecidableEq A]

/- `a = b` -/
def eq : Option A → Option A → Truth
| some a, some b => some (a = b)
| _, _ => none

/- `a <> b` -/
def ne (a b : Option A) : Truth :=
  (eq a b).not

/- `a IS DISTINCT FROM b` -/
def isDistinctFrom (a b : Option A) : Truth :=
  some (a ≠ b)

/- `a IN (xs)` -/
def inList (a : Option A) (xs : List (Option A)) : Truth :=
  xs.foldr (fun x t => (eq a x).or t) (some false)

/- `a NOT IN (xs)` -/
def notInList
    (a : Option A)
    (xs : List (Option A)) : Truth :=
  (inList a xs).not

@[simp]
theorem holds_isDistinctFrom (a b : Option A) :
    (isDistinctFrom a b).Holds ↔ a ≠ b := by
  simp [isDistinctFrom]

@[simp]
theorem holds_eq_some (a b : A) :
    (eq (some a) (some b)).Holds ↔ a = b := by
  simp [eq]

@[simp]
theorem holds_eq (a b : Option A) :
    (eq a b).Holds ↔ ∃ x, a = some x ∧ b = some x := by
  cases a with
  | none => simp [eq, Truth.Holds]
  | some x =>
      cases b with
      | none => simp [eq, Truth.Holds]
      | some y => simp [eq, eq_comm]

@[simp]
theorem holds_ne_some (a b : A) :
    (ne (some a) (some b)).Holds ↔ a ≠ b := by
  simp [ne, eq, Truth.not]

/- Membership is true only of a value that is listed. -/
theorem holds_inList
    (a : Option A)
    (xs : List (Option A)) :
    (inList a xs).Holds ↔ ∃ x, a = some x ∧ some x ∈ xs := by
  induction xs with
  | nil => simp [inList]
  | cons y ys ih =>
      have hStep : inList a (y :: ys) =
          (eq a y).or (inList a ys) := rfl
      rw [hStep, Truth.holds_or, ih, holds_eq]
      constructor
      · rintro (⟨x, rfl, rfl⟩ | ⟨x, rfl, hx⟩)
        · exact ⟨x, rfl, by simp⟩
        · exact ⟨x, rfl, by simp [hx]⟩
      · rintro ⟨x, rfl, hx⟩
        rcases List.mem_cons.mp hx with rfl | hx
        · exact Or.inl ⟨x, rfl, rfl⟩
        · exact Or.inr ⟨x, rfl, hx⟩

/- A listed value is in the list whatever else is. -/
theorem inList_some_map
    (a : A)
    (xs : List A) :
    inList (some a) (xs.map some) = some (decide (a ∈ xs)) := by
  induction xs with
  | nil => rfl
  | cons y ys ih =>
      have hStep : inList (some a) ((y :: ys).map some) =
          (eq (some a) (some y)).or
            (inList (some a) (ys.map some)) := rfl
      rw [hStep, ih]
      by_cases hy : a = y <;> by_cases hys : a ∈ ys <;>
        simp [eq, hy, hys, Truth.or]

------------------------------------------------------------
-- Lists Of Conditions
------------------------------------------------------------

/- `t1 OR t2 OR ...` -/
def anyOf (ts : List Truth) : Truth :=
  ts.foldr Truth.or (some false)

/- `t1 AND t2 AND ...` -/
def allOf (ts : List Truth) : Truth :=
  ts.foldr Truth.and (some true)

@[simp]
theorem holds_anyOf (ts : List Truth) :
    (anyOf ts).Holds ↔ ∃ t ∈ ts, t.Holds := by
  induction ts with
  | nil => simp [anyOf]
  | cons t ts ih =>
      have hStep : anyOf (t :: ts) = t.or (anyOf ts) := rfl
      rw [hStep, Truth.holds_or, ih]
      simp

@[simp]
theorem holds_allOf (ts : List Truth) :
    (allOf ts).Holds ↔ ∀ t ∈ ts, t.Holds := by
  induction ts with
  | nil => simp [allOf]
  | cons t ts ih =>
      have hStep : allOf (t :: ts) = t.and (allOf ts) := rfl
      rw [hStep, Truth.holds_and, ih, List.forall_mem_cons]

/- `EXISTS (...)`, which is never unknown. -/
def existsRow {B : Type} (rows : List B)
    (p : B → Truth) : Truth :=
  some (rows.any (fun row => decide (p row).Holds))

@[simp]
theorem holds_existsRow
    {B : Type}
    (rows : List B)
    (p : B → Truth) :
    (existsRow rows p).Holds ↔ ∃ row ∈ rows, (p row).Holds := by
  simp [existsRow]

------------------------------------------------------------
-- Numbers
------------------------------------------------------------

/- `CASE WHEN t1 THEN n1 ... ELSE 0 END` -/
def caseOf : List (Truth × Int) → Int
| [] => 0
| (t, n) :: rest => if t.Holds then n else caseOf rest

/- `a + b`, unknown if one of them is. -/
def plus : Option Int → Option Int → Option Int
| some a, some b => some (a + b)
| _, _ => none

/- `coalesce(max(n), 0)` of a column without NULL. -/
def maximumOrZero (ns : List Int) : Int :=
  ns.max?.getD 0

/- A branch that is taken is worth its number. -/
theorem caseOf_eq_zero_or_le
    {branches : List (Truth × Int)}
    {k : Int}
    (hWorth : ∀ b ∈ branches, k ≤ b.2) :
    (caseOf branches = 0 ∧ ∀ b ∈ branches, ¬ b.1.Holds) ∨
      (k ≤ caseOf branches ∧ ∃ b ∈ branches, b.1.Holds) := by
  induction branches with
  | nil => exact Or.inl ⟨rfl, List.forall_mem_nil _⟩
  | cons b rest ih =>
      rcases List.forall_mem_cons.mp hWorth with ⟨hFirst, hRest⟩
      by_cases hTaken : b.1.Holds
      · refine Or.inr ⟨?_, b, List.mem_cons_self, hTaken⟩
        rw [caseOf, if_pos hTaken]
        exact hFirst
      · rw [caseOf, if_neg hTaken]
        rcases ih hRest with ⟨hZero, hNone⟩ | ⟨hLe, c, hc, hHolds⟩
        · exact Or.inl ⟨hZero,
            List.forall_mem_cons.mpr ⟨hTaken, hNone⟩⟩
        · exact Or.inr ⟨hLe, c, List.mem_cons_of_mem b hc,
            hHolds⟩

theorem maximumOrZero_of_mem
    {ns : List Int}
    {n : Int}
    (hMem : n ∈ ns) :
    n ≤ maximumOrZero ns := by
  unfold maximumOrZero
  cases hMax : ns.max? with
  | none =>
      rw [List.max?_eq_none_iff] at hMax
      rw [hMax] at hMem
      cases hMem
  | some m => exact (List.max?_eq_some_iff.mp hMax).2 n hMem

theorem maximumOrZero_cases (ns : List Int) :
    maximumOrZero ns = 0 ∨ maximumOrZero ns ∈ ns := by
  unfold maximumOrZero
  cases hMax : ns.max? with
  | none => exact Or.inl rfl
  | some m => exact Or.inr (List.max?_eq_some_iff.mp hMax).1

end Sql
