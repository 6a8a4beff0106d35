import DcInventory.Schema.Database
import Mathlib.Algebra.BigOperators.Group.List.Basic

/-
  This file defines what the journal says the balances are.

  Key definitions include:
    * `Db.journal`
    * `Db.journalStock`
    * `Db.journalCustody`
    * `Movement.stockEffect`
    * `Movement.custodyEffect`
-/

------------------------------------------------------------
-- Effects
------------------------------------------------------------

namespace Movement

/- What one line of the movement adds to a location. -/
def stockChange
    (m : Movement)
    (location : Uuid)
    (l : MovementLine) : Int :=
  (if m.destinationLocationId = some location
    then (l.quantity : Int) else 0) -
  (if m.sourceLocationId = some location
    then (l.quantity : Int) else 0)

/-
  The sign of custody: ISSUE gives, RETURN takes, and a
  REVERSAL undoes what its original did.
-/
def custodySign
    (movementType : MovementType)
    (originalType : Option MovementType) : Int :=
  match movementType, originalType with
  | .issue, _ => 1
  | .return_, _ => -1
  | .reversal, some .issue => -1
  | .reversal, some .return_ => 1
  | _, _ => 0

/- What one line of the movement adds to its holder. -/
def custodyChange
    (m : Movement)
    (original : Option Movement)
    (l : MovementLine) : Int :=
  custodySign m.movementType
    (original.map Movement.movementType) * l.quantity

/- What the lines add to the stock of an item. -/
def stockEffect
    (m : Movement)
    (lines : List MovementLine)
    (item location : Uuid) : Int :=
  ((lines.filter (fun l => l.itemId = item)).map
    (m.stockChange location)).sum

/- What the lines add to what a user holds of an item. -/
def custodyEffect
    (m : Movement)
    (original : Option Movement)
    (lines : List MovementLine)
    (user item : Uuid) : Int :=
  if m.custodyUserId = some user then
    ((lines.filter (fun l => l.itemId = item)).map
      (m.custodyChange original)).sum
  else 0

end Movement

------------------------------------------------------------
-- Sums Over The Journal
------------------------------------------------------------

namespace Db

/- `movement_lines JOIN movements` -/
def journal (db : Db) : List (Movement × MovementLine) :=
  db.movementLines.filterMap (fun l =>
    (db.findMovement l.movementId).map (fun m => (m, l)))

/- The original of a linked movement. -/
def originalOf
    (db : Db)
    (m : Movement) : Option Movement :=
  m.originalMovementId.bind db.findMovement

/- The journal's stock of an item at a location. -/
def journalStock
    (db : Db)
    (item location : Uuid) : Int :=
  ((db.journal.filter (fun r => r.2.itemId = item)).map
    (fun r => r.1.stockChange location r.2)).sum

/- The journal's custody of an item by a user. -/
def journalCustody
    (db : Db)
    (user item : Uuid) : Int :=
  ((db.journal.filter (fun r =>
      r.2.itemId = item ∧ r.1.custodyUserId = some user)).map
    (fun r => r.1.custodyChange (db.originalOf r.1) r.2)).sum

/- The quantity of a stock row, zero without one. -/
def stockQuantity
    (db : Db)
    (item location : Uuid) : Nat :=
  match db.findStockBalance item location with
  | some b => b.quantity
  | none => 0

/- The quantity of a custody row, zero without one. -/
def custodyQuantity
    (db : Db)
    (user item : Uuid) : Nat :=
  match db.findCustodyBalance user item with
  | some b => b.quantity
  | none => 0

end Db
