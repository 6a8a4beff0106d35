import DcInventory.Inventory.Service

/-
  This file defines the changes of locations.

  Key definitions include:
    * `updateLocation`
    * `setLocationArchived`
    * `LocationRequest`
-/

------------------------------------------------------------
-- Statements
------------------------------------------------------------

/- `normalize_optional_text` -/
def normalizeOptionalText
    (value : Option Text) : Option Text :=
  value.bind (fun v =>
    if Text.strip v = [] then none else some (Text.strip v))

/- `SELECT ... WHERE id = location_id FOR UPDATE` -/
def lockLocation (locationId : Uuid) : Op Location := do
  .acquire (.exclusive (.locationRow locationId))
  let found ← .query (fun db => db.findLocation locationId)
  .getOrFail
    (inventoryNotFoundError "location not found"
      "inventory_not_found") found

/- `UPDATE locations SET ... WHERE id = location_id` -/
def Db.writeLocation
    (locationId : Uuid)
    (change : Location → Location)
    (db : Db) : Db :=
  { db with
    locations :=
      Table.rewrite Location.id locationId change
        db.locations }

------------------------------------------------------------
-- Operations
------------------------------------------------------------

structure LocationPatch where
  name : Text
  locationType : LocationType
  address : Option Text

/- The columns that `update_location` sets. -/
def LocationPatch.apply
    (payload : LocationPatch)
    (name : Text)
    (location : Location) : Location :=
  { location with
    name := name
    locationType := payload.locationType
    address := normalizeOptionalText payload.address }

def updateLocation
    (locationId : Uuid)
    (payload : LocationPatch) : Op Location := do
  let location ← lockLocation locationId
  let name ← .ofExcept
    (normalizeInlineText payload.name "name" 255)
  .update (Db.writeLocation locationId (payload.apply name))
  pure (payload.apply name location)

/- The columns that `set_location_archived` sets. -/
def Location.setArchived
    (archived : Bool)
    (now : Time)
    (location : Location) : Location :=
  { location with
    status := if archived then .archived else .active
    archivedAt := if archived then some now else none }

/- A location to be archived has no row of stock. -/
def requireEmpty
    (locationId : Uuid)
    (archived : Bool) : Op Unit :=
  if archived then do
    let balance ← .query (fun db =>
      db.stockBalances.find? (fun b =>
        b.locationId = locationId))
    .require (balance.isNone)
      (inventoryConflictError
        "location with stock cannot be archived"
        "location_not_empty")
  else pure ()

def setLocationArchived
    (locationId : Uuid)
    (archived : Bool)
    (now : Time) : Op Location := do
  let location ← lockLocation locationId
  requireEmpty locationId archived
  .update (Db.writeLocation locationId
    (Location.setArchived archived now))
  pure (Location.setArchived archived now location)

/- A request of an administrator to change a location. -/
inductive LocationRequest where
| patch (locationId : Uuid) (payload : LocationPatch)
| archive (locationId : Uuid) (now : Time)
| unarchive (locationId : Uuid) (now : Time)

/- The transaction of the request. -/
def LocationRequest.program : LocationRequest → Op Location
| .patch locationId payload =>
    updateLocation locationId payload
| .archive locationId now =>
    setLocationArchived locationId true now
| .unarchive locationId now =>
    setLocationArchived locationId false now
