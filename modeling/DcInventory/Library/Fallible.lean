import Mathlib.Data.List.Forall2

/-
  This file proves when computations that may fail return a
  result.

  Key theorems include:
    * `Except.bind_eq_ok_iff`
    * `Except.mapM_eq_ok_iff`
    * `Option.mapM_eq_some_iff`
-/

namespace Except

variable {ε α β : Type}

/- A sequence returns what its second part returns. -/
theorem bind_eq_ok_iff
    {x : Except ε α}
    {f : α → Except ε β}
    {b : β} :
    (x >>= f) = .ok b ↔ ∃ a, x = .ok a ∧ f a = .ok b := by
  cases x with
  | error e =>
      constructor
      · intro h
        cases h
      · rintro ⟨a, h, _⟩
        cases h
  | ok a =>
      constructor
      · intro h
        exact ⟨a, rfl, h⟩
      · rintro ⟨a', hEq, h⟩
        cases hEq
        exact h

@[simp]
theorem ok_bind
    (a : α)
    (f : α → Except ε β) :
    ((.ok a : Except ε α) >>= f) = f a :=
  rfl

@[simp]
theorem error_bind
    (e : ε)
    (f : α → Except ε β) :
    ((.error e : Except ε α) >>= f) = .error e :=
  rfl

/- A list returns one result for each of its elements. -/
theorem mapM_eq_ok_iff
    {f : α → Except ε β}
    {xs : List α}
    {ys : List β} :
    xs.mapM f = .ok ys ↔
      List.Forall₂ (fun x y => f x = .ok y) xs ys := by
  induction xs generalizing ys with
  | nil =>
      rw [List.mapM_nil, List.forall₂_nil_left_iff]
      constructor
      · intro h
        cases h
        rfl
      · rintro rfl
        rfl
  | cons x xs ih =>
      rw [List.mapM_cons, bind_eq_ok_iff]
      constructor
      · rintro ⟨y, hHead, hRest⟩
        rcases bind_eq_ok_iff.mp hRest with ⟨zs, hTail, hEq⟩
        cases hEq
        exact List.Forall₂.cons hHead (ih.mp hTail)
      · intro h
        cases h with
        | cons hHead hTail =>
            refine ⟨_, hHead, ?_⟩
            rw [ih.mpr hTail]
            rfl

/- A list has results if each of its elements has one. -/
theorem exists_mapM
    {f : α → Except ε β}
    {xs : List α}
    (h : ∀ x ∈ xs, ∃ y, f x = .ok y) :
    ∃ ys, xs.mapM f = .ok ys := by
  have hAll : ∃ ys, List.Forall₂ (fun x y => f x = .ok y)
      xs ys := by
    induction xs with
    | nil => exact ⟨[], List.Forall₂.nil⟩
    | cons x xs ih =>
        rcases h x List.mem_cons_self with ⟨y, hHead⟩
        rcases ih fun z hz => h z (List.mem_cons_of_mem x hz)
          with ⟨ys, hTail⟩
        exact ⟨y :: ys, List.Forall₂.cons hHead hTail⟩
  rcases hAll with ⟨ys, hAll⟩
  exact ⟨ys, mapM_eq_ok_iff.mpr hAll⟩

end Except

namespace Option

variable {α β : Type}

/- A list has one value for each of its elements. -/
theorem mapM_eq_some_iff
    {f : α → Option β}
    {xs : List α}
    {ys : List β} :
    xs.mapM f = some ys ↔
      List.Forall₂ (fun x y => f x = some y) xs ys := by
  induction xs generalizing ys with
  | nil =>
      rw [List.mapM_nil, List.forall₂_nil_left_iff]
      constructor
      · intro h
        cases h
        rfl
      · rintro rfl
        rfl
  | cons x xs ih =>
      rw [List.mapM_cons]
      constructor
      · intro h
        rcases Option.bind_eq_some_iff.mp h with
          ⟨y, hHead, hRest⟩
        rcases Option.bind_eq_some_iff.mp hRest with
          ⟨zs, hTail, hEq⟩
        cases hEq
        exact List.Forall₂.cons hHead (ih.mp hTail)
      · intro h
        cases h with
        | cons hHead hTail =>
            rw [hHead]
            change (xs.mapM f >>= _) = _
            rw [ih.mpr hTail]
            rfl

end Option

/- Related lists have related elements. -/
theorem List.Forall₂.exists_left
    {α β : Type}
    {R : α → β → Prop}
    {xs : List α}
    {ys : List β}
    (h : List.Forall₂ R xs ys)
    {y : β}
    (hy : y ∈ ys) :
    ∃ x ∈ xs, R x y := by
  induction h with
  | nil => cases hy
  | @cons x y' xs ys hHead _ ih =>
      rcases List.mem_cons.mp hy with rfl | hTail
      · exact ⟨x, List.mem_cons_self, hHead⟩
      · rcases ih hTail with ⟨x', hx', hR⟩
        exact ⟨x', List.mem_cons_of_mem x hx', hR⟩

theorem List.Forall₂.exists_right
    {α β : Type}
    {R : α → β → Prop}
    {xs : List α}
    {ys : List β}
    (h : List.Forall₂ R xs ys)
    {x : α}
    (hx : x ∈ xs) :
    ∃ y ∈ ys, R x y :=
  h.flip.exists_left hx
