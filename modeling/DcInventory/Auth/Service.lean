import DcInventory.Identity.AdminService
import DcInventory.Identity.Recovery

/-
  This file defines how a request is authenticated. The user
  is loaded into the session here, before anything is locked.

  Key definitions include:
    * `issueAuthSession`
    * `loadAuthContext`
    * `getAuthenticatedContext`
    * `requireManageUsers`
-/

------------------------------------------------------------
-- Sessions
------------------------------------------------------------

/- `MAX_ACTIVE_SESSIONS_PER_USER` -/
def maxActiveSessionsPerUser : Nat := 5

namespace AuthSession

/- The filter of the sessions that can be used. -/
def active
    (user : Uuid)
    (now : Time)
    (a : AuthSession) : Bool :=
  a.userId = user ∧ a.revokedAt = none ∧ now < a.expiresAt

/- The ORDER BY clause of the oldest sessions. -/
def comesBefore (a b : AuthSession) : Prop :=
  a.createdAt < b.createdAt ∨
    (a.createdAt = b.createdAt ∧ a.id ≤ b.id)

instance : DecidableRel comesBefore := by
  intro a b
  unfold comesBefore
  infer_instance

end AuthSession

/-
  `issue_auth_session`, after its user is locked. The oldest
  sessions above the limit are revoked.
-/
def issueAuthSession
    (user : Uuid)
    (id : Uuid)
    (tokenHash : Text)
    (ttlSeconds : Nat)
    (now : Time)
    (sessions : List AuthSession) : List AuthSession :=
  let active := sessions.filter (AuthSession.active user now)
  let revokeCount :=
    active.length + 1 - maxActiveSessionsPerUser
  let oldest := (active.insertionSort
    AuthSession.comesBefore).take revokeCount
  sessions.map (fun a =>
    if a.id ∈ oldest.map AuthSession.id
    then { a with revokedAt := some now } else a) ++
  [⟨id, user, tokenHash, now, now + seconds ttlSeconds, none⟩]

/- `revoke_auth_session` of the session with this id. -/
def revokeAuthSession
    (id : Uuid)
    (now : Time)
    (sessions : List AuthSession) : List AuthSession :=
  sessions.map (fun a =>
    if a.id = id then { a with revokedAt := some now } else a)

------------------------------------------------------------
-- Authentication
------------------------------------------------------------

structure AuthenticatedContext where
  session : AuthSession
  user : User
  identity : TelegramIdentity

/-
  `load_auth_context`: one statement joins the session, its
  user and the identity of the user.
-/
def loadAuthContext
    (env : IdentityEnv)
    (tokenHash : Text)
    (db : Db) : Option AuthenticatedContext := do
  let session ← db.authSessions.find? (fun a =>
    a.tokenHash = tokenHash ∧ a.revokedAt = none ∧
      env.now < a.expiresAt)
  let user ← db.findUser session.userId
  let identity ← identityOf user.id db
  pure ⟨session, user, identity⟩

/- The context, and the user where recovery changed it. -/
structure Authenticated where
  context : AuthenticatedContext
  recovered : Option User

/-
  `get_authenticated_context`: where the recovery owner was
  reconciled the transaction is committed at once.
-/
def getAuthenticatedContext
    (env : IdentityEnv)
    (tokenHash : Text) : Op (Flushed Authenticated) := do
  let found ← .query (loadAuthContext env tokenHash)
  let context ← .getOrFail
    (.http 401 "invalid or expired session") found
  let recovery ← reconcileRecoveryOwner env
    ⟨[context.user], []⟩ context.user context.identity
  pure ⟨⟨context, recovery.value⟩, recovery.updates⟩

/- `get_manage_users_context` -/
def requireManageUsers (user : User) : Op Unit := do
  .require (user.accessStatus = .approved)
    (.http 403 "access approval required")
  .require (hasCapability user.role .accessManageUsers)
    (.http 403 "required capability missing")
