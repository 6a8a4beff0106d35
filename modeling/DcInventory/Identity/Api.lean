import DcInventory.Access.Service
import DcInventory.Auth.Service

/-
  This file defines the transactions of the requests that
  change identities.

  A request is authenticated first: the session holds the
  user as it was then. Where authentication reconciles the
  recovery owner it commits, and the request goes on in a
  transaction of its own with the instance it has.

  Key definitions include:
    * `AdminMutation`
    * `IdentityRequest`
    * `IdentityRequest.program`
-/

------------------------------------------------------------
-- Mutations
------------------------------------------------------------

/- The mutations that administrators ask for. -/
inductive AdminMutation where
| access (accessStatus : UserAccessStatus)
| decide (decision : AccessRequestStatus)
| role (newRole : UserRole)
| reset (expectedTelegramUserId : Int)

/- A user with the Telegram identity that the web shows. -/
structure ManagedUser where
  user : User
  identity : TelegramIdentity
deriving DecidableEq, Repr

/- `get_admin_user` -/
def getAdminUser
    (userId : Uuid)
    (db : Db) : Option ManagedUser :=
  (db.findUser userId).bind (fun u =>
    (identityOf userId db).map (fun i => ⟨u, i⟩))

/-
  What the web adds to a decision: the user is read again,
  with an identity, and told.
-/
def notifyDecision
    (env : IdentityEnv)
    (target : Uuid)
    (request : AccessRequest) : Op ManagedUser := do
  let found ← .query (getAdminUser target)
  let managed ← .getOrFail
    (.runtime "managed user disappeared during access decision")
    found
  enqueue env (accessDecisionUserCall env.telegram request.id
    managed.identity request.status)
  pure managed

/-
  The mutation by this instance of the actor, and whether it
  has changed the target.
-/
def AdminMutation.perform
    (env : IdentityEnv)
    (actor : User)
    (target : Uuid) : AdminMutation → Op (Flushed Bool)
| .access accessStatus => do
    let done ← updateUserAccess env ⟨[actor], []⟩ actor.id
      target accessStatus
    pure ⟨done.value.2.isSome, done.updates⟩
| .decide decision => do
    let done ← decidePendingAccessRequest env ⟨[actor], []⟩
      actor.id target decision
    let _ ← notifyDecision env target done.value.request
    pure ⟨true, done.updates⟩
| .role newRole => do
    let done ← updateUserRole env ⟨[actor], []⟩ actor.id
      target newRole
    pure ⟨done.value.2.isSome, done.updates⟩
| .reset expectedTelegramUserId => do
    let done ← resetUserAccount env ⟨[actor], []⟩ actor.id
      target expectedTelegramUserId
    pure ⟨true, done.updates⟩

------------------------------------------------------------
-- Requests
------------------------------------------------------------

/- How the session of a request got its user. -/
inductive SessionStart where
| token (tokenHash : Text)
| resumed (user : User) (identity : TelegramIdentity)

/- The user of the session, and what recovery made of it. -/
structure SessionUser where
  user : User
  identity : TelegramIdentity
  recovered : Option User

def SessionStart.load
    (env : IdentityEnv) :
    SessionStart → Op (Flushed SessionUser)
| .token tokenHash => do
    let done ← getAuthenticatedContext env tokenHash
    pure ⟨⟨done.value.context.user,
      done.value.context.identity, done.value.recovered⟩,
      done.updates⟩
| .resumed user identity => pure ⟨⟨user, identity, none⟩, []⟩

/- A mutation that an administrator has made. -/
structure ManagedResult where
  actor : User
  target : Uuid
  mutation : AdminMutation
  changed : Bool

/- What a request has committed. -/
inductive IdentityResult where
| recovered (loaded made : User)
| managed (result : ManagedResult)
| requested (loaded : User) (result : AccessRequestResult)
| decided
    (loaded : AccessRequest)
    (result : AccessDecisionResult)
| rotated (result : Rotation)

/- A request that changes identities. -/
inductive IdentityRequest where
| manage
    (start : SessionStart)
    (target : Uuid)
    (mutation : AdminMutation)
| requestAccess (start : SessionStart)
| press (callback : AccessCallback)
| rotate
    (configuredRecoveryTelegramUserId : Int)
    (targetTelegramUserId : Int)
    (confirmedTargetUserId : Uuid)

/- What is done before the commit. -/
def IdentityRequest.body
    (env : IdentityEnv) :
    IdentityRequest → Op (Flushed IdentityResult)
| .manage start target mutation => do
    let session ← start.load env
    match session.value.recovered with
    | some made =>
        pure ⟨.recovered session.value.user made,
          session.updates⟩
    | none => do
        requireManageUsers session.value.user
        let done ← mutation.perform env session.value.user
          target
        pure ⟨.managed ⟨session.value.user, target, mutation,
          done.value⟩, session.updates ++ done.updates⟩
| .requestAccess start => do
    let session ← start.load env
    match session.value.recovered with
    | some made =>
        pure ⟨.recovered session.value.user made,
          session.updates⟩
    | none => do
        let done ← createOrGetAccessRequest env
          ⟨[session.value.user], []⟩ session.value.user.id
        enqueueAccessRequestAdminNotification env
          done.value.request session.value.identity
        pure ⟨.requested session.value.user done.value,
          session.updates ++ done.updates⟩
| .press callback => do
    let done ← applyAccessDecision env callback
    pure ⟨.decided done.value.loaded done.value.result,
      done.updates⟩
| .rotate configured target confirmed => do
    let done ← rotateRecoveryOwnerTransaction env configured
      target confirmed
    pure ⟨.rotated done.value, done.updates⟩

/- The transaction of the request. -/
def IdentityRequest.program
    (env : IdentityEnv)
    (request : IdentityRequest) : Op IdentityResult :=
  identityTransaction env (request.body env)
