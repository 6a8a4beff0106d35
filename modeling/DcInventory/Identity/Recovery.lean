import DcInventory.Identity.AccessLifecycle

/-
  This file defines how the owner comes to be: the recovery
  identity is made owner when it authenticates, and ownership
  is rotated to another identity.

  Key definitions include:
    * `reconcileRecoveryOwner`
    * `rotateRecoveryOwnerTransaction`
-/

------------------------------------------------------------
-- Reconciliation
------------------------------------------------------------

/- The instance with a time and an author of its approval. -/
def withApproval
    (env : IdentityEnv)
    (user : User)
    (approvedBy : Uuid) : User :=
  { user with
    approvedAt := some (user.approvedAt.getD env.now)
    approvedByUserId :=
      some (user.approvedByUserId.getD approvedBy) }

/- A request that is approved on the way. -/
def approvedRequest
    (env : IdentityEnv)
    (request : AccessRequest)
    (decidedBy : Uuid)
    (note : String) : AccessRequest :=
  { request with
    status := .approved
    decidedAt := some env.now
    decidedByUserId := some decidedBy
    decisionNote := some note }

/- Flush the approval of a pending request, if any. -/
def approvePending
    (env : IdentityEnv)
    (decidedBy : Uuid)
    (note : String) : Option AccessRequest → Op Unit
| none => pure ()
| some request => flushRequest request
    (approvedRequest env request decidedBy note)

/- A proper owner without a pending request. -/
def isReconciled (user : User) : Prop :=
  user.role = .owner ∧ user.accessStatus = .approved ∧
    user.approvedAt ≠ none ∧ user.approvedByUserId ≠ none

instance (user : User) : Decidable (isReconciled user) := by
  unfold isReconciled
  infer_instance

/-
  The instance that `reconcile_recovery_owner` makes of the
  locked one, and its access event.
-/
def reconciled
    (env : IdentityEnv)
    (user : User) : User × Option UserAccessEvent :=
  let moved := transitionUserAccess env
    { user with role := .owner } user.id .approved
  if moved.2.isSome then moved
  else if user.approvedAt = none ∨
      user.approvedByUserId = none then
    ({ moved.1 with
        approvedAt := some env.now
        approvedByUserId := some user.id }, none)
  else moved

/- Reconcile under the exclusive barrier. -/
def reconcileLocked
    (env : IdentityEnv)
    (session : Session)
    (userId : Uuid) : Op (Flushed (Option User)) := do
  acquireIdentityManagementExclusiveBarrier
  let locked ← lockUserRow session false userId
  let user ← .getOrFail
    (.runtime "configured recovery user no longer exists")
    locked
  let other ← .query (fun db =>
    db.users.find? (fun u => u.role = .owner ∧ u.id ≠ user.id))
  .require other.isNone
    (.recoveryOwnerConflict
      ("configured recovery identity conflicts with " ++
        "existing owner"))
  let made := reconciled env user
  let updates ← flushUser user made.1
  if user.role ≠ .owner then
    execute (.roleEvent (userRoleEvent env user user.id .owner))
  else pure ()
  flushAccessEvent made.2
  let pending ← lockPendingAccessRequests session user.id
  approvePending env user.id "configured recovery owner"
    pending.head?
  if made.1 = user ∧ pending.head? = none then
    pure ⟨none, updates⟩
  else pure ⟨some made.1, updates⟩

/-
  `reconcile_recovery_owner`: the instance as it was changed,
  or nothing where it was not.
-/
def reconcileRecoveryOwner
    (env : IdentityEnv)
    (session : Session)
    (user : User)
    (identity : TelegramIdentity) :
    Op (Flushed (Option User)) :=
  if env.recoveryTelegramUserId ≠
      some identity.telegramUserId then
    pure ⟨none, []⟩
  else if isReconciled user then do
    let pending ← .query (fun db =>
      db.accessRequests.any (fun r => r.isPendingOf user.id))
    if pending then reconcileLocked env session user.id
    else pure ⟨none, []⟩
  else reconcileLocked env session user.id

------------------------------------------------------------
-- Rotation
------------------------------------------------------------

def rotationError (message : String) : Error :=
  .recoveryOwnerRotation message

/- The identity that has this Telegram ID. -/
def identityWithTelegramId
    (telegramUserId : Int)
    (db : Db) : Option TelegramIdentity :=
  db.telegramIdentities.find? (fun i =>
    i.telegramUserId = telegramUserId)

/- `SELECT ... WHERE id IN (a, b) ORDER BY id FOR UPDATE` -/
def lockTwoUsers
    (a b : Uuid) : Op (Option User × Option User) :=
  if a ≤ b then do
    let first ← lockUserRow .fresh false a
    let second ← lockUserRow .fresh false b
    pure (first, second)
  else do
    let second ← lockUserRow .fresh false b
    let first ← lockUserRow .fresh false a
    pure (first, second)

/- `SELECT id ... WHERE role = 'OWNER' FOR UPDATE` -/
def lockOwners : Op (List Uuid) := do
  let found ← .query (fun db =>
    (db.users.filter (fun u => u.role = .owner)).map User.id)
  .acquireAll (found.map (fun id =>
    .exclusive (.userRow id)))
  .query (fun db =>
    (db.users.filter (fun u =>
      u.role = .owner ∧ u.id ∈ found)).map User.id)

/- The target as an approved user, before it is owner. -/
def approvedTarget
    (env : IdentityEnv)
    (target : User)
    (owner : Uuid) : User × Option UserAccessEvent :=
  if target.accessStatus ≠ .approved then
    transitionUserAccess env target owner .approved
  else (withApproval env target owner, none)

/- The users whose roles a rotation has changed. -/
structure Rotation where
  oldOwner : Uuid
  newOwner : Uuid

/- Its statements, once the two users are locked and checked. -/
def exchangeOwner
    (env : IdentityEnv)
    (owner target : User) : Op (Flushed Rotation) := do
  -- the old owner steps down before the new one is made
  let stepped := { owner with role := .admin }
  let updates₁ ← flushUser owner stepped
  execute (.roleEvent
    (userRoleEvent env owner owner.id .admin))
  let approved := approvedTarget env target owner.id
  let updates₂ ← flushUser target approved.1
  flushAccessEvent approved.2
  let pending ← lockPendingAccessRequests .fresh target.id
  let made := { approved.1 with role := .owner }
  let updates₃ ← flushUser approved.1 made
  approvePending env owner.id "recovery OWNER rotation"
    pending.head?
  execute (.roleEvent
    (userRoleEvent env target owner.id .owner))
  execute (.revokeSessions [owner.id, target.id] env.now)
  let resulting ← .query (fun db =>
    (db.users.filter (fun u => u.role = .owner)).map User.id)
  .require (resulting = [target.id])
    (rotationError
      "post-rotation singleton OWNER verification failed")
  pure ⟨⟨owner.id, target.id⟩, updates₁ ++ updates₂ ++ updates₃⟩

/- `rotate_recovery_owner_transaction` -/
def rotateRecoveryOwnerTransaction
    (env : IdentityEnv)
    (configuredRecoveryTelegramUserId : Int)
    (targetTelegramUserId : Int)
    (confirmedTargetUserId : Uuid) :
    Op (Flushed Rotation) := do
  .require
    (configuredRecoveryTelegramUserId ≠ targetTelegramUserId)
    (rotationError
      "current and target recovery identities must differ")
  acquireIdentityManagementExclusiveBarrier
  let foundCurrent ← .query
    (identityWithTelegramId configuredRecoveryTelegramUserId)
  let currentIdentity ← .getOrFail
    (rotationError
      "configured recovery Telegram identity not found")
    foundCurrent
  let foundTarget ← .query
    (identityWithTelegramId targetTelegramUserId)
  let targetIdentity ← .getOrFail
    (rotationError
      ("target Telegram identity not found; target must " ++
        "authenticate in the Mini App before rotation"))
    foundTarget
  .require (targetIdentity.userId = confirmedTargetUserId)
    (rotationError
      ("confirmed target user UUID does not match target " ++
        "Telegram identity"))
  .require (currentIdentity.userId ≠ targetIdentity.userId)
    (rotationError
      ("current and target recovery identities resolve to " ++
        "the same user"))
  let locked ← lockTwoUsers currentIdentity.userId
    targetIdentity.userId
  let owner ← .getOrFail
    (rotationError
      ("recovery rotation user disappeared while " ++
        "acquiring locks")) locked.1
  let target ← .getOrFail
    (rotationError
      ("recovery rotation user disappeared while " ++
        "acquiring locks")) locked.2
  let owners ← lockOwners
  .require (owners = [owner.id])
    (rotationError
      ("configured recovery identity is not the unique " ++
        "current OWNER"))
  .require (owner.accessStatus = .approved)
    (rotationError "current OWNER is not APPROVED")
  .require (target.role ≠ .owner)
    (rotationError "target user is already OWNER")
  refuseWhenCustody target.id
  exchangeOwner env owner target
where
  /- The target may not hold equipment. -/
  refuseWhenCustody (target : Uuid) : Op Unit := do
    let custody ← .query (hasCustody target)
    .require (¬ custody)
      (rotationError "target has outstanding equipment custody")
