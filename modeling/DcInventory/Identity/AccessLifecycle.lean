import DcInventory.Identity.Locking
import DcInventory.TelegramBot.Calls
import Mathlib.Data.List.Sort

/-
  This file defines how identity transactions change users,
  their requests for access and their events, and the guards
  of the database on such changes.

  Key definitions include:
    * `IdentityWrite`
    * `transitionUserAccess`
    * `flushUser`
    * `checkUserUpdate`
    * `enqueue`
    * `identityTransaction`
-/

------------------------------------------------------------
-- Statements
------------------------------------------------------------

/- The attributes that the flush of a changed instance sets. -/
def User.updated (loaded changed row : User) : User where
  id := row.id
  role :=
    if changed.role = loaded.role then row.role
    else changed.role
  accessStatus :=
    if changed.accessStatus = loaded.accessStatus
    then row.accessStatus
    else changed.accessStatus
  approvedAt :=
    if changed.approvedAt = loaded.approvedAt
    then row.approvedAt
    else changed.approvedAt
  approvedByUserId :=
    if changed.approvedByUserId = loaded.approvedByUserId
    then row.approvedByUserId
    else changed.approvedByUserId

/- The same for a request for access. -/
def AccessRequest.updated
    (loaded changed row : AccessRequest) :
    AccessRequest where
  id := row.id
  userId := row.userId
  status :=
    if changed.status = loaded.status then row.status
    else changed.status
  requestedAt := row.requestedAt
  decidedAt :=
    if changed.decidedAt = loaded.decidedAt
    then row.decidedAt
    else changed.decidedAt
  decidedByUserId :=
    if changed.decidedByUserId = loaded.decidedByUserId
    then row.decidedByUserId
    else changed.decidedByUserId
  decisionNote :=
    if changed.decisionNote = loaded.decisionNote
    then row.decisionNote
    else changed.decisionNote

/- A pending request of the user. -/
def AccessRequest.isPendingOf
    (user : Uuid)
    (r : AccessRequest) : Bool :=
  r.userId = user ∧ r.status = .pending

/- The statements that write identity tables. -/
inductive IdentityWrite where
| user (loaded changed : User)
| accessEvent (e : UserAccessEvent)
| roleEvent (e : UserRoleEvent)
| newRequest (r : AccessRequest)
| request (loaded changed : AccessRequest)
| deletePending (owner : Uuid)
| deleteIdentity (owner : Uuid)
| revokeSessions (users : List Uuid) (now : Time)
| notify (id : Uuid) (now : Time) (call : TelegramCall)
| silence (dedupeKey : Text) (now : Time)
| newCallbacks (approve reject : AccessDecisionCallback)

/- A notification that an account reset takes back. -/
def silenced
    (dedupeKey : Text)
    (now : Time)
    (row : NotificationOutbox) : NotificationOutbox :=
  if row.dedupeKey = dedupeKey ∧ row.status = .pending ∧
      row.claimedAt = none then
    { row with
      status := .dead
      lastError := some "account reset".toList
      updatedAt := now }
  else row

namespace IdentityWrite

/-
  What a statement does. Callbacks go with the requests that
  they refer to.
-/
def apply : IdentityWrite → Db → Db
| .user loaded changed, db =>
    { db with
      users := Table.rewrite User.id loaded.id
        (User.updated loaded changed) db.users }
| .accessEvent e, db =>
    { db with userAccessEvents := db.userAccessEvents ++ [e] }
| .roleEvent e, db =>
    { db with userRoleEvents := db.userRoleEvents ++ [e] }
| .newRequest r, db =>
    { db with accessRequests := db.accessRequests ++ [r] }
| .request loaded changed, db =>
    { db with
      accessRequests := Table.rewrite AccessRequest.id
        loaded.id (AccessRequest.updated loaded changed)
        db.accessRequests }
| .deletePending owner, db =>
    { db with
      accessRequests := db.accessRequests.filter
        (fun r => ¬ r.isPendingOf owner)
      accessDecisionCallbacks :=
        db.accessDecisionCallbacks.filter (fun c =>
          ¬ ∃ r ∈ db.accessRequests,
            r.isPendingOf owner ∧ r.id = c.accessRequestId) }
| .deleteIdentity owner, db =>
    { db with
      telegramIdentities := db.telegramIdentities.filter
        (fun i => i.userId ≠ owner) }
| .revokeSessions users now, db =>
    { db with
      authSessions := db.authSessions.map (fun a =>
        if a.userId ∈ users ∧ a.revokedAt = none
        then { a with revokedAt := some now } else a) }
| .notify id now call, db =>
    { db with
      notificationOutbox := (upsertNotification id now call
        db.notificationOutbox).toOption.getD
          db.notificationOutbox }
| .silence dedupeKey now, db =>
    { db with
      notificationOutbox :=
        db.notificationOutbox.map (silenced dedupeKey now) }
| .newCallbacks approve reject, db =>
    { db with
      accessDecisionCallbacks :=
        db.accessDecisionCallbacks ++ [approve, reject] }

end IdentityWrite

/- Run one statement. -/
def execute (w : IdentityWrite) : Op Unit :=
  .update w.apply

------------------------------------------------------------
-- Lifecycle
------------------------------------------------------------

/-
  What the environment supplies to a transaction: the clock,
  the settings, and what it draws at random. A transaction
  writes one access event at most, and one role event for a
  user.
-/
structure IdentityEnv where
  now : Time
  transactionId : Nat
  recoveryTelegramUserId : Option Int
  newRequestId : Uuid
  accessEventId : Uuid
  roleEventId : Uuid → Uuid
  telegram : TelegramSettings
  notificationId : Text → Uuid
  approveToken : Text
  rejectToken : Text

/-
  The instance after the transition, and its event. The two
  are pending until the session is flushed.
-/
def transitionUserAccess
    (env : IdentityEnv)
    (user : User)
    (actorUserId : Uuid)
    (accessStatus : UserAccessStatus) :
    User × Option UserAccessEvent :=
  if user.accessStatus = accessStatus then (user, none)
  else
    ({ user with
        accessStatus := accessStatus
        approvedAt :=
          if accessStatus = .approved then some env.now
          else none
        approvedByUserId :=
          if accessStatus = .approved then some actorUserId
          else none },
      some {
        id := env.accessEventId
        actorUserId := actorUserId
        targetUserId := user.id
        beforeAccessStatus := user.accessStatus
        afterAccessStatus := accessStatus
        occurredAt := env.now
        dbTransactionId := env.transactionId })

def userRoleEvent
    (env : IdentityEnv)
    (user : User)
    (actorUserId : Uuid)
    (role : UserRole) : UserRoleEvent where
  id := env.roleEventId user.id
  actorUserId := actorUserId
  targetUserId := user.id
  beforeRole := user.role
  afterRole := role
  occurredAt := env.now
  dbTransactionId := env.transactionId

------------------------------------------------------------
-- Flushes And Guards
------------------------------------------------------------

/- A row before and after an UPDATE. -/
structure UserUpdate where
  old : User
  new : User

/- The unique index on the row of the owner. -/
def uniqueOwner (new : User) : Op Unit :=
  if new.role = .owner then do
    .acquire (.exclusive .ownerRole)
    let other ← .query (fun db =>
      db.users.find? (fun u =>
        u.role = .owner ∧ u.id ≠ new.id))
    .require other.isNone (raise .usersSingletonOwner)
  else pure ()

/- Flush a changed instance: nothing, or one UPDATE. -/
def flushUser
    (loaded changed : User) : Op (List UserUpdate) :=
  if changed = loaded then pure []
  else do
    .acquire (.exclusive (.userRow loaded.id))
    let row ← .query (fun db => db.findUser loaded.id)
    let old ← .getOrFail (.runtime "StaleDataError") row
    let new := User.updated loaded changed old
    .require (new.role = .owner → new.accessStatus = .approved)
      (raise .ownerMustBeApproved)
    uniqueOwner new
    execute (.user loaded changed)
    pure [⟨old, new⟩]

/- Insert a pending event of a transition, if any. -/
def flushAccessEvent : Option UserAccessEvent → Op Unit
| none => pure ()
| some e => execute (.accessEvent e)

/- Flush a changed request: nothing, or one UPDATE. -/
def flushRequest
    (loaded changed : AccessRequest) : Op Unit :=
  if changed = loaded then pure ()
  else do
    .acquire (.exclusive (.accessRequestRow loaded.id))
    execute (.request loaded changed)

/- Insert a request, past its unique indexes. -/
def insertRequest (new : AccessRequest) : Op Unit := do
  .acquire (.exclusive (.accessRequestPkey new.id))
  let sameId ← .query (fun db => db.findAccessRequest new.id)
  .require sameId.isNone (raise .accessRequestsPkey)
  .acquire (.exclusive (.pendingAccessRequest new.userId))
  let pending ← .query (fun db =>
    db.accessRequests.any (fun r => r.isPendingOf new.userId))
  .require (¬ pending) (raise .accessRequestsUserPending)
  execute (.newRequest new)

/-
  Enqueue a call: the INSERT waits for the entries of its key
  and of its id, or for the row that has the key.
-/
def enqueue
    (env : IdentityEnv)
    (call : TelegramCall) : Op Unit := do
  let id := env.notificationId call.dedupeKey
  .acquire (.exclusive (.notification call.dedupeKey))
  .acquire (.exclusive (.notificationPkey id))
  let rows ← .query Db.notificationOutbox
  let _ ← .ofExcept (enqueueTelegramCall id env.now call rows)
  execute (.notify id env.now call)

/- A user holds equipment. -/
def hasCustody (user : Uuid) (db : Db) : Bool :=
  db.userItemCustodyBalances.any (fun b => b.userId = user)

/- `enforce_user_access_audit_coupling` -/
def enforceUserAccessAuditCoupling
    (env : IdentityEnv)
    (u : UserUpdate) : Op Unit :=
  if u.old.accessStatus = u.new.accessStatus then pure ()
  else do
    let audited ← .query (fun db =>
      db.userAccessEvents.any (fun e =>
        e.targetUserId = u.new.id ∧
          e.beforeAccessStatus = u.old.accessStatus ∧
          e.afterAccessStatus = u.new.accessStatus ∧
          e.dbTransactionId = env.transactionId))
    .require audited (raise .userAccessAudit)

/- `enforce_user_role_audit_coupling` -/
def enforceUserRoleAuditCoupling
    (env : IdentityEnv)
    (u : UserUpdate) : Op Unit :=
  if u.old.role = u.new.role then pure ()
  else do
    let audited ← .query (fun db =>
      db.userRoleEvents.any (fun e =>
        e.targetUserId = u.new.id ∧
          e.beforeRole = u.old.role ∧
          e.afterRole = u.new.role ∧
          e.dbTransactionId = env.transactionId))
    .require audited (raise .userRoleAudit)

/- `enforce_user_custody_eligibility` -/
def enforceUserCustodyEligibility
    (u : UserUpdate) : Op Unit :=
  if u.old.role = u.new.role ∧
      u.old.accessStatus = u.new.accessStatus then pure ()
  else do
    .acquire (.exclusive (.custodyHolder u.new.id))
    let custody ← .query (hasCustody u.new.id)
    .require
      (¬ ((u.new.accessStatus ≠ .approved ∨
        u.new.role ∉ custodyRoles) ∧ custody))
      (raise .userCustodyEligibility)

/- The deferred triggers of one UPDATE. -/
def checkUserUpdate
    (env : IdentityEnv)
    (u : UserUpdate) : Op Unit := do
  enforceUserAccessAuditCoupling env u
  enforceUserRoleAuditCoupling env u
  enforceUserCustodyEligibility u

def checkUserUpdates
    (env : IdentityEnv) : List UserUpdate → Op Unit
| [] => pure ()
| u :: us => do
    checkUserUpdate env u
    checkUserUpdates env us

/- A result, and the UPDATEs whose triggers are deferred. -/
structure Flushed (α : Type) where
  value : α
  updates : List UserUpdate

/-
  The transaction of a request: the deferred triggers run at
  the commit.
-/
def identityTransaction {α : Type}
    (env : IdentityEnv)
    (p : Op (Flushed α)) : Op α := do
  let flushed ← p
  checkUserUpdates env flushed.updates
  pure flushed.value

/- The pending requests of a user, the latest first. -/
def pendingAccessRequests
    (user : Uuid)
    (db : Db) : List AccessRequest :=
  (db.accessRequests.filter
    (fun r => r.isPendingOf user)).insertionSort
      (fun a b => b.requestedAt ≤ a.requestedAt)

/- `SELECT ... FOR UPDATE` of the pending requests. -/
def lockPendingAccessRequests
    (session : Session)
    (user : Uuid) : Op (List AccessRequest) := do
  let found ← .query (pendingAccessRequests user)
  .acquireAll (found.map (fun r =>
    .exclusive (.accessRequestRow r.id)))
  let rows ← .query (fun db =>
    (pendingAccessRequests user db).filter (fun r =>
      r.id ∈ found.map AccessRequest.id))
  pure (rows.map (loadedRequest session.accessRequests))

/- The user logs in as the configured recovery identity. -/
def isRecoveryIdentity
    (env : IdentityEnv)
    (user : Uuid) : Op Bool :=
  match env.recoveryTelegramUserId with
  | none => pure false
  | some recovery => .query (fun db =>
      db.telegramIdentities.any (fun i =>
        i.userId = user ∧ i.telegramUserId = recovery))
