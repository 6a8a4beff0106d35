import Mathlib.Data.List.Basic

/-
  This file states what is relied on of keyed digests and of
  digests: that nobody else makes them, and that they do not
  collide. Both are stated of what occurs in a run.

  Key definitions include:
    * `Unforged`
    * `CollisionFree`
-/

variable {K M T : Type}

/-
  The tag that is presented with a message was not made
  without the key: if it is the right one, the message is one
  of those that were signed.
-/
def Unforged
    (mac : K → M → T)
    (key : K)
    (signed : List M)
    (message : M)
    (tag : T) : Prop :=
  mac key message = tag → message ∈ signed

/- No two of the messages have the same digest. -/
def CollisionFree (digest : M → T) (messages : List M) : Prop :=
  ∀ m ∈ messages, ∀ m' ∈ messages, digest m = digest m' → m = m'
