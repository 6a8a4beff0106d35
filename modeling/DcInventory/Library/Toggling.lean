import Mathlib.Order.ConditionallyCompleteLattice.Basic
import Mathlib.Order.SymmDiff
import Mathlib.Data.Set.Lattice

/-
  This file is about switches that stand for parts of a set,
  where only the union of the parts that are switched on is
  kept: a switch counts as on if its part is in the union.

  Key definitions include:
    * `Toggling.union`
    * `Toggling.on`
    * `Toggling.toggle`
    * `Toggling.Separated`

  Key theorems include:
    * `Toggling.toggle_eq_iff`
    * `Toggling.on_union`
    * `Toggling.toggle_toggle_union`
-/

namespace Toggling

variable {α β : Type}
variable (parts : β → Set α)

/- What is in the parts of some switches. -/
def union (T : Set β) : Set α :=
  {a | ∃ b ∈ T, a ∈ parts b}

/- The switches whose parts are there as a whole. -/
def on (V : Set α) : Set β :=
  {b | (parts b).Nonempty ∧ parts b ⊆ V}

/- The union after one switch was pressed. -/
def toggle (b : β) (V : Set α) : Set α :=
  union parts (symmDiff (on parts V) {b})

variable {parts}

theorem union_on_subset (V : Set α) :
    union parts (on parts V) ⊆ V := by
  rintro a ⟨b, hOn, hMem⟩
  exact hOn.2 hMem

/- Pressing has no effect if nothing is lost without it. -/
theorem toggle_eq_iff
    {b : β}
    (hSome : (parts b).Nonempty)
    (V : Set α) :
    toggle parts b V = V ↔
      b ∈ on parts V ∧ V ⊆ union parts (on parts V \ {b}) := by
  unfold toggle
  constructor
  · intro hSame
    have hOn : b ∈ on parts V := by
      by_contra hOff
      apply hOff
      refine ⟨hSome, fun a hMem => ?_⟩
      rw [← hSame]
      exact ⟨b, Or.inr ⟨rfl, hOff⟩, hMem⟩
    refine ⟨hOn, fun a hMem => ?_⟩
    rw [← hSame] at hMem
    rcases hMem with ⟨c, hSwitch, hPart⟩
    rcases hSwitch with hOther | ⟨rfl, hOff⟩
    · exact ⟨c, hOther, hPart⟩
    · exact absurd hOn hOff
  · rintro ⟨hOn, hRest⟩
    apply Set.Subset.antisymm
    · rintro a ⟨c, hSwitch, hPart⟩
      rcases hSwitch with hOther | ⟨rfl, hOff⟩
      · exact hOther.1.2 hPart
      · exact absurd hOn hOff
    · intro a hMem
      rcases hRest hMem with ⟨c, hOther, hPart⟩
      exact ⟨c, Or.inl hOther, hPart⟩

/- Every part that is not empty has something of its own. -/
def Separated (parts : β → Set α) : Prop :=
  ∀ b, (parts b).Nonempty →
    ∃ a ∈ parts b, ∀ c, a ∈ parts c → c = b

/- The switches can be read off the union of their parts. -/
theorem on_union
    (hOwn : Separated parts)
    {T : Set β}
    (hSome : ∀ b ∈ T, (parts b).Nonempty) :
    on parts (union parts T) = T := by
  ext b
  constructor
  · rintro ⟨hNonempty, hSubset⟩
    rcases hOwn b hNonempty with ⟨a, hMem, hOnly⟩
    rcases hSubset hMem with ⟨c, hSwitch, hPart⟩
    rw [← hOnly c hPart]
    exact hSwitch
  · intro hSwitch
    exact ⟨hSome b hSwitch, fun a hMem => ⟨b, hSwitch, hMem⟩⟩

theorem toggle_union
    (hOwn : Separated parts)
    {T : Set β}
    (hSome : ∀ b ∈ T, (parts b).Nonempty)
    (b : β) :
    toggle parts b (union parts T) =
      union parts (symmDiff T {b}) := by
  unfold toggle
  rw [on_union hOwn hSome]

theorem nonempty_of_toggled
    {T : Set β}
    (hSome : ∀ b ∈ T, (parts b).Nonempty)
    {b : β}
    (hPart : (parts b).Nonempty) :
    ∀ c ∈ symmDiff T {b}, (parts c).Nonempty := by
  rintro c (hOld | ⟨rfl, _⟩)
  · exact hSome c hOld.1
  · exact hPart

/- Pressing a switch twice leaves the union as it was. -/
theorem toggle_toggle_union
    (hOwn : Separated parts)
    {T : Set β}
    (hSome : ∀ b ∈ T, (parts b).Nonempty)
    {b : β}
    (hPart : (parts b).Nonempty) :
    toggle parts b (toggle parts b (union parts T)) =
      union parts T := by
  rw [toggle_union hOwn hSome,
    toggle_union hOwn (nonempty_of_toggled hSome hPart),
    symmDiff_assoc, symmDiff_self, symmDiff_bot]

/- Pressing a switch changes it and no other one. -/
theorem on_toggle_union
    (hOwn : Separated parts)
    {T : Set β}
    (hSome : ∀ b ∈ T, (parts b).Nonempty)
    {b : β}
    (hPart : (parts b).Nonempty) :
    on parts (toggle parts b (union parts T)) =
      symmDiff (on parts (union parts T)) {b} := by
  rw [toggle_union hOwn hSome, on_union hOwn hSome,
    on_union hOwn (nonempty_of_toggled hSome hPart)]

end Toggling
