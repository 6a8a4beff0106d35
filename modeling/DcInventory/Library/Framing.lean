import Mathlib.Data.List.Basic

/-
  This file proves that lists with separators between their
  parts are read back: the first and the last part have no
  separator, and whatever is between them may have some.

  Key definitions include:
    * `Framing.frame`

  Key theorems include:
    * `Framing.before_inj`
    * `Framing.after_inj`
    * `Framing.frame_inj`
-/

namespace Framing

variable {α : Type}
variable {sep : α}
variable {a a' b b' c c' : List α}

/- A first part, the middle, and a last part. -/
def frame (sep : α) (a b c : List α) : List α :=
  a ++ sep :: (b ++ sep :: c)

/- The first separator ends a part that has none. -/
theorem before_inj
    (ha : sep ∉ a)
    (ha' : sep ∉ a')
    (h : a ++ sep :: b = a' ++ sep :: b') :
    a = a' ∧ b = b' := by
  induction a generalizing a' with
  | nil =>
      cases a' with
      | nil => exact ⟨rfl, (List.cons.inj h).2⟩
      | cons x xs =>
          have hHead := (List.cons.inj h).1
          rw [hHead] at ha'
          exact absurd List.mem_cons_self ha'
  | cons x xs ih =>
      cases a' with
      | nil =>
          have hHead := (List.cons.inj h).1
          rw [← hHead] at ha
          exact absurd List.mem_cons_self ha
      | cons y ys =>
          rcases List.cons.inj h with ⟨hHead, hTail⟩
          have hParts := ih
            (fun hMem => ha (List.mem_cons_of_mem x hMem))
            (fun hMem => ha' (List.mem_cons_of_mem y hMem))
            hTail
          exact ⟨by rw [hHead, hParts.1], hParts.2⟩

/- The last separator begins a part that has none. -/
theorem after_inj
    (hc : sep ∉ c)
    (hc' : sep ∉ c')
    (h : b ++ sep :: c = b' ++ sep :: c') :
    b = b' ∧ c = c' := by
  have hReverse := congrArg List.reverse h
  simp only [List.reverse_append, List.reverse_cons,
    List.append_assoc, List.singleton_append] at hReverse
  have hParts := before_inj
    (fun hMem => hc (List.mem_reverse.mp hMem))
    (fun hMem => hc' (List.mem_reverse.mp hMem)) hReverse
  exact ⟨List.reverse_injective hParts.2,
    List.reverse_injective hParts.1⟩

/- A frame tells its parts, whatever the middle is. -/
theorem frame_inj
    (ha : sep ∉ a)
    (ha' : sep ∉ a')
    (hc : sep ∉ c)
    (hc' : sep ∉ c')
    (h : frame sep a b c = frame sep a' b' c') :
    a = a' ∧ b = b' ∧ c = c' := by
  rcases before_inj ha ha' h with ⟨hFirst, hRest⟩
  rcases after_inj hc hc' hRest with ⟨hMiddle, hLast⟩
  exact ⟨hFirst, hMiddle, hLast⟩

end Framing
