import DcInventory.Identity.Policy
import DcInventory.Schema.Database

/-
  This file defines how identity transactions lock users.

  A session keeps the instances it has loaded: a later SELECT
  that does not ask for fresh values, with or without FOR
  UPDATE, returns them as they were first loaded.

  Key definitions include:
    * `loadedUser`
    * `lockUserRow`
    * `lockIdentityActorAndTarget`
-/

------------------------------------------------------------
-- Sessions
------------------------------------------------------------

/- The instance that a SELECT of a user row returns. -/
def loadedUser
    (session : List User)
    (row : Option User) : Option User :=
  row.map (fun u => (Table.find User.id u.id session).getD u)

/- The instance that a SELECT of a request row returns. -/
def loadedRequest
    (session : List AccessRequest)
    (row : AccessRequest) : AccessRequest :=
  (Table.find AccessRequest.id row.id session).getD row

/- The instances that a session has loaded before. -/
structure Session where
  users : List User
  accessRequests : List AccessRequest

/- A session that has loaded nothing. -/
def Session.fresh : Session :=
  ⟨[], []⟩

/- The user is approved and may hold equipment. -/
def mayHoldCustody (u : User) : Prop :=
  u.role ∈ custodyRoles ∧ u.accessStatus = .approved

instance : DecidablePred mayHoldCustody := by
  intro u
  unfold mayHoldCustody
  infer_instance

------------------------------------------------------------
-- Locks
------------------------------------------------------------

def acquireIdentityManagementSharedBarrier : Op Unit :=
  .acquire (.share .identityManagement)

def acquireIdentityManagementExclusiveBarrier : Op Unit :=
  .acquire (.exclusive .identityManagement)

/- `SELECT ... FOR UPDATE`, or `FOR SHARE` when shared. -/
def lockUserRow
    (session : Session)
    (shared : Bool)
    (id : Uuid) : Op (Option User) := do
  .acquire ⟨.userRow id, shared⟩
  let row ← .query (fun db => db.findUser id)
  pure (loadedUser session.users row)

/- The actor FOR SHARE and the target FOR UPDATE, by id. -/
def lockIdentityActorAndTarget
    (session : Session)
    (actorUserId targetUserId : Uuid) :
    Op (Option User × Option User) :=
  if actorUserId = targetUserId then do
    let target ← lockUserRow session false targetUserId
    pure (target, target)
  else if actorUserId ≤ targetUserId then do
    let actor ← lockUserRow session true actorUserId
    let target ← lockUserRow session false targetUserId
    pure (actor, target)
  else do
    let target ← lockUserRow session false targetUserId
    let actor ← lockUserRow session true actorUserId
    pure (actor, target)
