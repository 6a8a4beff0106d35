import DcInventory.Identity.AccessLifecycle

/-
  This file defines how administrators change other users:
  their access, their role, and the reset of their account.

  Key definitions include:
    * `lockActorAndTarget`
    * `updateUserAccess`
    * `decidePendingAccessRequest`
    * `updateUserRole`
    * `resetUserAccount`
-/

------------------------------------------------------------
-- Checks
------------------------------------------------------------

def adminUserForbidden (message : String) : Error :=
  .adminUser .forbidden message

/- The user is approved and may manage users. -/
def managesUsers (u : User) : Bool :=
  u.accessStatus = .approved ∧
    hasCapability u.role .accessManageUsers

/- `_lock_actor_and_target` -/
def lockActorAndTarget
    (session : Session)
    (actorUserId targetUserId : Uuid) : Op (User × User) := do
  acquireIdentityManagementSharedBarrier
  let locked ← lockIdentityActorAndTarget session actorUserId
    targetUserId
  let actor ← .getOrFail
    (adminUserForbidden
      "approved user-management capability required")
    (locked.1.filter managesUsers)
  let target ← .getOrFail (.adminUser .notFound "") locked.2
  pure (actor, target)

/- The user is the owner or the recovery identity. -/
def isOwnerOrRecovery
    (env : IdentityEnv)
    (user : User) : Op Bool :=
  if user.role = .owner then pure true
  else isRecoveryIdentity env user.id

/- Where the condition holds, nothing may be found. -/
def refuseWhen
    (c : Prop) [Decidable c]
    (found : Db → Bool)
    (e : Error) : Op Unit :=
  if c then do
    let some ← .query found
    .require (¬ some) e
  else pure ()

/- `_has_active_procurement_create_responsibility` -/
def hasActiveProcurementCreateResponsibility
    (user : Uuid)
    (db : Db) : Bool :=
  db.procurementRequests.any (fun r =>
    r.initiatorUserId = user ∧
      r.status ∈ [ProcurementStatus.agreementPendingManager,
        .agreementRevisionRequired])

/- An unfinished request depends on the user. -/
def hasUnfinishedProcurement
    (user : Uuid)
    (db : Db) : Bool :=
  db.procurementRequests.any (fun r =>
    r.status ≠ .completed ∧
      (r.initiatorUserId = user ∨
        r.assignedManagerUserId = user))

def activeProcurementResponsibility : Error :=
  .adminUser .activeProcurementResponsibilityInvariant
    ("active Procurement requires this user to retain " ++
      "procurement.create")

------------------------------------------------------------
-- Access
------------------------------------------------------------

/- The changes of `update_user_access`. -/
def allowedAccessChanges :
    List (UserAccessStatus × UserAccessStatus) :=
  [(.approved, .blocked), (.blocked, .approved)]

def updateUserAccess
    (env : IdentityEnv)
    (session : Session)
    (actorUserId targetUserId : Uuid)
    (accessStatus : UserAccessStatus) :
    Op (Flushed (User × Option UserAccessEvent)) := do
  let locked ← lockActorAndTarget session actorUserId
    targetUserId
  let actor := locked.1
  let target := locked.2
  if accessStatus = target.accessStatus then
    pure ⟨(target, none), []⟩
  else do
    .require
      ((target.accessStatus, accessStatus) ∈
        allowedAccessChanges)
      (.adminUser .invalidAccessTransition
        ("access lifecycle only supports APPROVED <-> " ++
          "BLOCKED; pending/rejected users use the " ++
          "access-request workflow"))
    let isProtected ← isOwnerOrRecovery env target
    .require (¬ isProtected)
      (.adminUser .recoveryAdminInvariant
        "owner/recovery identity cannot be changed")
    .require
      (target.role = .admin →
        hasCapability actor.role .accessAssignAdmin)
      (adminUserForbidden
        "only owner may manage administrator access")
    .require (actor.id ≠ target.id)
      (adminUserForbidden "self access mutation is forbidden")
    refuseWhen
      (target.accessStatus = .approved ∧
        accessStatus = .blocked)
      (hasCustody target.id)
      (.adminUser .outstandingCustodyInvariant
        ("user with outstanding equipment custody " ++
          "cannot be blocked"))
    refuseWhen
      (target.accessStatus = .approved ∧
        accessStatus = .blocked ∧
        hasCapability target.role .procurementCreate)
      (hasActiveProcurementCreateResponsibility target.id)
      activeProcurementResponsibility
    let moved := transitionUserAccess env target actorUserId
      accessStatus
    let updates ← flushUser target moved.1
    flushAccessEvent moved.2
    if accessStatus = .blocked then
      execute (.revokeSessions [target.id] env.now)
    else pure ()
    pure ⟨moved, updates⟩

/- What `decide_pending_access_request` returns. -/
structure AccessDecision where
  target : User
  request : AccessRequest
  event : UserAccessEvent

def decidePendingAccessRequest
    (env : IdentityEnv)
    (session : Session)
    (actorUserId targetUserId : Uuid)
    (decision : AccessRequestStatus) :
    Op (Flushed AccessDecision) := do
  .require (decision ∈ [AccessRequestStatus.approved, .rejected])
    (.adminUser .invalidAccessTransition
      "access request decision must be APPROVED or REJECTED")
  let locked ← lockActorAndTarget session actorUserId
    targetUserId
  let actor := locked.1
  let target := locked.2
  .require (actor.id ≠ target.id)
    (adminUserForbidden "self access mutation is forbidden")
  let isProtected ← isOwnerOrRecovery env target
  .require (¬ isProtected)
    (.adminUser .recoveryAdminInvariant
      "owner/recovery identity cannot be changed")
  .require
    (target.role = .admin →
      hasCapability actor.role .accessAssignAdmin)
    (adminUserForbidden
      "only owner may manage administrator access")
  .require (target.accessStatus = .pending)
    (.adminUser .invalidAccessTransition
      "only a pending user access request can be decided")
  let pending ← lockPendingAccessRequests session target.id
  let accessRequest ← .getOrFail
    (.adminUser .pendingAccessRequestNotFound
      "pending access request not found") pending.head?
  let moved := transitionUserAccess env target actor.id
    (if decision = .approved then .approved else .rejected)
  let event ← .getOrFail
    (.runtime
      "pending access decision did not change user state")
    moved.2
  let decided := { accessRequest with
    status := decision
    decidedAt := some env.now
    decidedByUserId := some actor.id
    decisionNote := some "Access management web console" }
  let updates ← flushUser target moved.1
  flushRequest accessRequest decided
  flushAccessEvent (some event)
  pure ⟨⟨moved.1, decided, event⟩, updates⟩

------------------------------------------------------------
-- Roles
------------------------------------------------------------

/- The actor may give the role to somebody. -/
def canAssign (actor : User) (role : UserRole) : Prop :=
  (role ∈ standardAssignableRoles ∧
    hasCapability actor.role .accessAssignStandardRoles) ∨
  (role = .admin ∧
    hasCapability actor.role .accessAssignAdmin)

instance
    (actor : User)
    (role : UserRole) : Decidable (canAssign actor role) := by
  unfold canAssign
  infer_instance

def updateUserRole
    (env : IdentityEnv)
    (session : Session)
    (actorUserId targetUserId : Uuid)
    (role : UserRole) :
    Op (Flushed (User × Option UserRoleEvent)) := do
  let locked ← lockActorAndTarget session actorUserId
    targetUserId
  let actor := locked.1
  let target := locked.2
  .require (actor.id ≠ target.id)
    (adminUserForbidden "self role mutation is forbidden")
  .require (role ≠ .owner)
    (adminUserForbidden "owner role cannot be assigned")
  let isProtected ← isOwnerOrRecovery env target
  .require (¬ isProtected)
    (.adminUser .recoveryAdminInvariant
      "owner/recovery identity role cannot be changed")
  .require
    (target.role = .admin →
      hasCapability actor.role .accessAssignAdmin)
    (adminUserForbidden
      "only owner may change administrator membership")
  .require (canAssign actor role)
    (adminUserForbidden "requested role cannot be assigned")
  if role = target.role then pure ⟨(target, none), []⟩
  else do
    refuseWhen (role ∉ custodyRoles) (hasCustody target.id)
      (.adminUser .outstandingCustodyInvariant
        ("outstanding equipment custody must be returned " ++
          "before role change"))
    refuseWhen
      (hasCapability target.role .procurementCreate ∧
        ¬ hasCapability role .procurementCreate)
      (hasActiveProcurementCreateResponsibility target.id)
      activeProcurementResponsibility
    let event := userRoleEvent env target actor.id role
    let changed := { target with role := role }
    let updates ← flushUser target changed
    execute (.roleEvent event)
    pure ⟨(changed, some event), updates⟩

------------------------------------------------------------
-- Reset
------------------------------------------------------------

/- The Telegram identity of a user. -/
def identityOf
    (user : Uuid)
    (db : Db) : Option TelegramIdentity :=
  db.telegramIdentities.find? (fun i => i.userId = user)

def noActiveTelegramAccount : Error :=
  .adminUser .notFound "user has no active Telegram account"

def telegramIdMismatch : Error :=
  .accountResetIdentityMismatch
    "Telegram ID confirmation mismatch"

/- Take the notification about each request back. -/
def silenceNotifications
    (env : IdentityEnv) : List AccessRequest → Op Unit
| [] => pure ()
| request :: requests => do
    let key := notificationDedupeKey env.telegram.sha256
      ["access-request".toList, request.id.str,
        "admin".toList]
    .acquire (.exclusive (.notification key))
    execute (.silence key env.now)
    silenceNotifications env requests

def resetUserAccount
    (env : IdentityEnv)
    (session : Session)
    (actorUserId targetUserId : Uuid)
    (expectedTelegramUserId : Int) : Op (Flushed Unit) := do
  let first ← .query (identityOf targetUserId)
  let initial ← .getOrFail noActiveTelegramAccount first
  .require (initial.telegramUserId = expectedTelegramUserId)
    telegramIdMismatch
  .acquire (.exclusive (.telegramUser initial.telegramUserId))
  let locked ← lockActorAndTarget session actorUserId
    targetUserId
  let actor := locked.1
  let target := locked.2
  .require (actor.id ≠ target.id)
    (adminUserForbidden "self account reset is forbidden")
  .acquire (.exclusive (.telegramIdentityRow target.id))
  let second ← .query (identityOf target.id)
  let identity ← .getOrFail noActiveTelegramAccount second
  .require (identity.telegramUserId = expectedTelegramUserId)
    telegramIdMismatch
  .require
    (¬ (target.role = .owner ∨
      env.recoveryTelegramUserId =
        some identity.telegramUserId))
    (.adminUser .recoveryAdminInvariant
      "owner/recovery identity cannot be reset")
  .require
    (target.role = .admin →
      hasCapability actor.role .accessAssignAdmin)
    (adminUserForbidden
      "only owner may reset administrator accounts")
  refuseWhen True (hasCustody target.id)
    (.adminUser .outstandingCustodyInvariant
      ("return outstanding equipment before resetting " ++
        "this account"))
  refuseWhen True (hasUnfinishedProcurement target.id)
    (.accountResetActiveProcurement
      ("finish or reassign active procurement before " ++
        "account reset"))
  execute (.revokeSessions [target.id] env.now)
  let pending ← lockPendingAccessRequests session target.id
  silenceNotifications env pending
  execute (.deletePending target.id)
  let moved := transitionUserAccess env target actor.id .blocked
  let changed := { moved.1 with role := .engineer }
  let updates ← flushUser target changed
  flushAccessEvent moved.2
  if target.role ≠ .engineer then
    execute (.roleEvent
      (userRoleEvent env target actor.id .engineer))
  else pure ()
  execute (.deleteIdentity target.id)
  pure ⟨(), updates⟩
