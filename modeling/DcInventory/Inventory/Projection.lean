import DcInventory.Identity.Policy
import DcInventory.Inventory.Journal

/-
  This file defines `refresh_warehouse_projection`, the only
  writer of the two balance tables.

  Key definitions include:
    * `refreshStock`
    * `refreshCustody`
    * `refreshWarehouseProjection`
-/

------------------------------------------------------------
-- Expected Quantities
------------------------------------------------------------

namespace Db

/- The stock query of the refresh, with its `WHERE`. -/
def expectedQuantity
    (db : Db)
    (item location : Uuid) : Int :=
  ((db.journal.filter (fun r => r.2.itemId = item ∧
      (r.1.sourceLocationId = some location ∨
        r.1.destinationLocationId = some location))).map
    (fun r => r.1.stockChange location r.2)).sum

/- Delete the stock row at zero, else insert or update it. -/
def writeStock
    (item location : Uuid)
    (quantity : Int)
    (db : Db) : Db :=
  { db with
    stockBalances :=
      if quantity = 0 then
        Table.erase (fun b => (b.itemId, b.locationId))
          (item, location) db.stockBalances
      else
        Table.put (fun b => (b.itemId, b.locationId))
          ⟨item, location, quantity.toNat⟩
          db.stockBalances }

/- Delete the custody row at zero, else write it. -/
def writeCustody
    (user item : Uuid)
    (quantity : Int)
    (db : Db) : Db :=
  { db with
    userItemCustodyBalances :=
      if quantity = 0 then
        Table.erase (fun b => (b.userId, b.itemId))
          (user, item) db.userItemCustodyBalances
      else
        Table.put (fun b => (b.userId, b.itemId))
          ⟨user, item, quantity.toNat⟩
          db.userItemCustodyBalances }

end Db

------------------------------------------------------------
-- Refresh
------------------------------------------------------------

/- `enforce_custody_holder_eligibility` -/
def enforceCustodyHolderEligibility
    (user : Uuid) : Op Unit := do
  .acquire (.exclusive (.custodyHolder user))
  let row ← .query (fun db => db.findUser user)
  .require
    (row.any (fun u => u.accessStatus = .approved ∧
      u.role ∈ custodyRoles))
    (raise .custodyHolderEligibility)

/- The stock of one location, derived from the journal. -/
def refreshStock (item location : Uuid) : Op Unit := do
  let expected ← .query (fun db =>
    db.expectedQuantity item location)
  .require (0 ≤ expected ∧ expected ≤ maxQuantity)
    (raise .stockRange)
  .update (Db.writeStock item location expected)

/- The custody of one user, derived from the journal. -/
def refreshCustody (user item : Uuid) : Op Unit := do
  let expected ← .query (fun db =>
    db.journalCustody user item)
  .require (0 ≤ expected ∧ expected ≤ maxQuantity)
    (raise .custodyRange)
  if expected = 0 then
    .update (Db.writeCustody user item expected)
  else do
    enforceCustodyHolderEligibility user
    .update (Db.writeCustody user item expected)

/- Refresh a location when the movement has one there. -/
def refreshPosition
    (item : Uuid) : Option Uuid → Op Unit
| none => pure ()
| some location => refreshStock item location

/- Refresh the holder when the movement has one. -/
def refreshHolder
    (item : Uuid) : Option Uuid → Op Unit
| none => pure ()
| some user => refreshCustody user item

def refreshWarehouseProjection
    (movementId itemId : Uuid) : Op Unit := do
  let found ← .query (fun db => db.findMovement movementId)
  let header ← .getOrFail
    (raise (.projectionMovement
      ("warehouse projection refresh requires " ++
        "an existing movement"))) found
  let line ← .query (fun db =>
    (db.linesOf movementId).any (fun l => l.itemId = itemId))
  .require line
    (raise (.projectionMovement
      ("warehouse projection refresh requires " ++
        "an existing movement line")))
  refreshPosition itemId header.sourceLocationId
  refreshPosition itemId
    (if header.destinationLocationId =
        header.sourceLocationId then none
      else header.destinationLocationId)
  refreshHolder itemId header.custodyUserId
