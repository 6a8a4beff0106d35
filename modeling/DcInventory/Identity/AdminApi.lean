import DcInventory.Identity.Api

/-
  This file defines the calls by which administrators change
  other users from the web, with the responses that they end
  in.

  A call runs one transaction with the instance of the
  administrator that authentication loaded. Two of the three
  read the user again after the commit, for the response.

  Key definitions include:
    * `Reply`
    * `patchUser`
    * `postAccessRequestDecision`
    * `patchUserRole`
-/

------------------------------------------------------------
-- Responses
------------------------------------------------------------

/- `AdminUserOut`, without the time stamps of the row. -/
structure AdminUserOut where
  id : Uuid
  telegramUserId : Int
  username : Option Text
  firstName : Text
  lastName : Option Text
  role : UserRole
  accessStatus : UserAccessStatus
  approvedAt : Option Time
  isRecoveryIdentity : Bool
deriving DecidableEq, Repr

/- The detail of an `HTTPException`. -/
inductive ErrorDetail where
| text (message : String)
| coded (code message : String)
deriving DecidableEq, Repr

/-
  How a call ends: with a body, with an `HTTPException`, or
  with an exception that nobody catches.
-/
inductive Reply where
| response (body : AdminUserOut)
| httpException (statusCode : Nat) (detail : ErrorDetail)
| raised (e : Error)
deriving DecidableEq, Repr

/- `_user_out` -/
def userOut
    (env : IdentityEnv)
    (managed : ManagedUser) : AdminUserOut where
  id := managed.user.id
  telegramUserId := managed.identity.telegramUserId
  username := managed.identity.username
  firstName := managed.identity.firstName
  lastName := managed.identity.lastName
  role := managed.user.role
  accessStatus := managed.user.accessStatus
  approvedAt := managed.user.approvedAt
  isRecoveryIdentity := env.recoveryTelegramUserId =
    some managed.identity.telegramUserId

------------------------------------------------------------
-- Errors
------------------------------------------------------------

/- The codes of `_admin_error_detail`. -/
def adminErrorCode : AdminUserErrorKind → String
| .outstandingCustodyInvariant =>
    "admin_user_outstanding_custody"
| .recoveryAdminInvariant => "admin_user_recovery_invariant"
| .invalidAccessTransition =>
    "admin_user_invalid_access_transition"
| .pendingAccessRequestNotFound =>
    "admin_user_pending_access_request_not_found"
| .forbidden => "admin_user_forbidden"
| .notFound => "admin_user_not_found"
| .activeProcurementResponsibilityInvariant =>
    "admin_user_error"

/-
  `_admin_error_detail`. The messages have no blanks at their
  ends.
-/
def adminErrorDetail
    (kind : AdminUserErrorKind)
    (message : String) : ErrorDetail :=
  .coded (adminErrorCode kind)
    (if message = "" then adminErrorCode kind else message)

/-
  The `except` clauses of a call: the two that all calls
  have, and one for the errors that the call lists.
-/
def exceptClauses
    (conflicts : List AdminUserErrorKind) : Error → Reply
| .adminUser .notFound _ =>
    .httpException 404 (.text "user not found")
| .adminUser .forbidden message =>
    .httpException 403 (adminErrorDetail .forbidden message)
| .adminUser kind message =>
    if kind ∈ conflicts then
      .httpException 409 (adminErrorDetail kind message)
    else .raised (.adminUser kind message)
| e => .raised e

------------------------------------------------------------
-- Calls
------------------------------------------------------------

/- The response of a call that has committed. -/
def respond
    (env : IdentityEnv)
    (userId : Uuid)
    (db : Db) : Reply :=
  match getAdminUser userId db with
  | none => .raised (.runtime
      "managed user disappeared after committed update")
  | some managed => .response (userOut env managed)

/- `patch_user`, and the state that it leaves. -/
def patchUser
    (env : IdentityEnv)
    (admin : User)
    (userId : Uuid)
    (accessStatus : UserAccessStatus)
    (db : Db) : Reply × Db :=
  match (identityTransaction env (updateUserAccess env
      ⟨[admin], []⟩ admin.id userId accessStatus)).run db with
  | .ok (_, committed) =>
      (respond env userId committed, committed)
  | .error e =>
      (exceptClauses [.invalidAccessTransition,
        .outstandingCustodyInvariant,
        .recoveryAdminInvariant] e, db)

/- The field of `AdminUserAccessRequestDecision`. -/
inductive RequestDecision where
| approve
| reject
deriving DecidableEq, Repr

def RequestDecision.status :
    RequestDecision → AccessRequestStatus
| .approve => .approved
| .reject => .rejected

/- What a decision does before it commits. -/
def decideAndNotify
    (env : IdentityEnv)
    (admin : User)
    (userId : Uuid)
    (decision : AccessRequestStatus) :
    Op (Flushed ManagedUser) := do
  let done ← decidePendingAccessRequest env ⟨[admin], []⟩
    admin.id userId decision
  let managed ← notifyDecision env userId done.value.request
  pure ⟨managed, done.updates⟩

/- `post_access_request_decision` -/
def postAccessRequestDecision
    (env : IdentityEnv)
    (admin : User)
    (userId : Uuid)
    (decision : RequestDecision)
    (db : Db) : Reply × Db :=
  match (identityTransaction env (decideAndNotify env admin
      userId decision.status)).run db with
  | .ok (managed, committed) =>
      (.response (userOut env managed), committed)
  | .error e =>
      (exceptClauses [.invalidAccessTransition,
        .pendingAccessRequestNotFound,
        .recoveryAdminInvariant] e, db)

/-
  `patch_user_role`. It lists `InvalidRoleTransitionError`
  too, which nothing raises.
-/
def patchUserRole
    (env : IdentityEnv)
    (admin : User)
    (userId : Uuid)
    (role : UserRole)
    (db : Db) : Reply × Db :=
  match (identityTransaction env (updateUserRole env
      ⟨[admin], []⟩ admin.id userId role)).run db with
  | .ok (_, committed) =>
      (respond env userId committed, committed)
  | .error e =>
      (exceptClauses [.outstandingCustodyInvariant,
        .recoveryAdminInvariant] e, db)

/- A call and its payload. -/
inductive AdminCall where
| access (accessStatus : UserAccessStatus)
| decide (decision : RequestDecision)
| role (newRole : UserRole)
deriving DecidableEq, Repr

def AdminCall.run
    (env : IdentityEnv)
    (admin : User)
    (userId : Uuid) : AdminCall → Db → Reply × Db
| .access accessStatus =>
    patchUser env admin userId accessStatus
| .decide decision =>
    postAccessRequestDecision env admin userId decision
| .role newRole => patchUserRole env admin userId newRole
