import DcInventory.Identity.AdminService
import DcInventory.Identity.Recovery

/-
  This file defines how a user asks for access, and how the
  request is decided from a Telegram chat.

  Key definitions include:
    * `createOrGetAccessRequest`
    * `applyAccessDecision`
-/

------------------------------------------------------------
-- Asking
------------------------------------------------------------

structure AccessRequestResult where
  request : AccessRequest
  accessStatus : UserAccessStatus
  created : Bool

/- The row of a new request. -/
def newAccessRequest
    (env : IdentityEnv)
    (user : Uuid) : AccessRequest where
  id := env.newRequestId
  userId := user
  status := .pending
  requestedAt := env.now
  decidedAt := none
  decidedByUserId := none
  decisionNote := none

/- The instance after the user has asked, and its event. -/
def asked
    (env : IdentityEnv)
    (user : User) : User × Option UserAccessEvent :=
  if user.accessStatus = .rejected then
    transitionUserAccess env user user.id .pending
  else (user, none)

def createOrGetAccessRequest
    (env : IdentityEnv)
    (session : Session)
    (userId : Uuid) :
    Op (Flushed AccessRequestResult) := do
  let locked ← lockUserRow session false userId
  let user ← .getOrFail
    (.runtime "authenticated user no longer exists") locked
  .require (user.accessStatus ≠ .approved)
    .accessAlreadyApproved
  .require (user.accessStatus ≠ .blocked) .accessBlocked
  let moved := asked env user
  let updates ← flushUser user moved.1
  flushAccessEvent moved.2
  let pending ← .query (pendingAccessRequests user.id)
  match pending.head? with
  | some existing =>
      pure ⟨⟨existing, moved.1.accessStatus, false⟩, updates⟩
  | none => do
      let new := newAccessRequest env user.id
      insertRequest new
      pure ⟨⟨new, moved.1.accessStatus, true⟩, updates⟩

------------------------------------------------------------
-- Deciding From Telegram
------------------------------------------------------------

/- The decision that a button of the message makes. -/
def CallbackAction.decision :
    CallbackAction → AccessRequestStatus
| .approve => .approved
| .reject => .rejected

/- What the press of a button sends, and the setting. -/
structure AccessCallback where
  token : Text
  callbackQueryId : Text
  actorTelegramUserId : Int
  message : Option (Int × Int)
  accessCallbackTtlSeconds : Nat

/- What `apply_access_decision` returns. -/
structure AccessDecisionResult where
  status : AccessRequestStatus
  changed : Bool

/- The request as it was first loaded, and the result. -/
structure CallbackOutcome where
  loaded : AccessRequest
  result : AccessDecisionResult

/- Domain errors that the callback turns into its own. -/
def callbackError : Error → Error
| .adminUser .forbidden message =>
    .telegramAccessManagerAuthorization message
| .adminUser .invalidAccessTransition message =>
    .invalidAccessCallback message
| .adminUser .pendingAccessRequestNotFound message =>
    .invalidAccessCallback message
| .adminUser .recoveryAdminInvariant message =>
    .invalidAccessCallback message
| e => e

/- `_enqueue_access_buttons_clear` -/
def enqueueAccessButtonsClear
    (env : IdentityEnv)
    (press : AccessCallback) : Op Unit :=
  match press.message with
  | none => pure ()
  | some (chatId, messageId) =>
      enqueue env (accessButtonsClearCall env.telegram
        press.callbackQueryId chatId messageId)

/- `_enqueue_callback_answer` -/
def enqueueCallbackAnswer
    (env : IdentityEnv)
    (press : AccessCallback)
    (text : Text) : Op Unit :=
  enqueue env (callbackAnswerCall env.telegram
    press.callbackQueryId text)

/- `apply_access_decision` -/
def applyAccessDecision
    (env : IdentityEnv)
    (press : AccessCallback) :
    Op (Flushed CallbackOutcome) := do
  acquireIdentityManagementSharedBarrier
  let resolved ← .query
    (identityWithTelegramId press.actorTelegramUserId)
  let identity ← .getOrFail
    (.telegramAccessManagerAuthorization "") resolved
  .acquire (.exclusive (.callbackRow press.token))
  let found ← .query (fun db =>
    db.accessDecisionCallbacks.find? (fun c =>
      c.token = press.token))
  let callback ← .getOrFail
    (.invalidAccessCallback "unknown callback") found
  .require
    (env.now < callback.createdAt +
      seconds press.accessCallbackTtlSeconds)
    (.invalidAccessCallback "expired callback")
  -- the request is loaded here, before it is locked
  let unlocked ← .query (fun db =>
    db.findAccessRequest callback.accessRequestId)
  let loaded ← .getOrFail
    (.invalidAccessCallback "access request no longer exists")
    unlocked
  let locked ← lockIdentityActorAndTarget .fresh
    identity.userId loaded.userId
  let actor ← .getOrFail
    (.telegramAccessManagerAuthorization "")
    (locked.1.filter managesUsers)
  let target ← .getOrFail
    (.runtime "access request user no longer exists") locked.2
  .acquire (.exclusive (.accessRequestRow loaded.id))
  let again ← .query (fun db => db.findAccessRequest loaded.id)
  let row ← .getOrFail
    (.invalidAccessCallback "access request no longer exists")
    again
  let accessRequest := loadedRequest [loaded] row
  .require
    (¬ (accessRequest.status = .pending ∧
      target.accessStatus ≠ .pending))
    (.invalidAccessCallback
      "user access state is already terminal")
  let foundIdentity ← .query (identityOf target.id)
  let targetIdentity ← .getOrFail
    (.runtime "access request Telegram identity is missing")
    foundIdentity
  if accessRequest.status = .pending then do
    let decided ← .mapError callbackError
      (decidePendingAccessRequest env
        ⟨[actor, target], [loaded]⟩ actor.id target.id
        callback.action.decision)
    let request := decided.value.request
    flushRequest request { request with
      decisionNote := some "Telegram inline callback" }
    enqueue env (accessDecisionUserCall env.telegram
      request.id targetIdentity request.status)
    enqueueAccessButtonsClear env press
    enqueueCallbackAnswer env press
      (decisionLabel request.status true)
    pure ⟨⟨loaded, ⟨request.status, true⟩⟩, decided.updates⟩
  else do
    enqueueAccessButtonsClear env press
    enqueueCallbackAnswer env press
      (decisionLabel accessRequest.status false)
    pure ⟨⟨loaded, ⟨accessRequest.status, false⟩⟩, []⟩

------------------------------------------------------------
-- Telling The Administrators
------------------------------------------------------------

/- Insert two buttons, past their unique indexes. -/
def createAccessDecisionCallbacks
    (env : IdentityEnv)
    (accessRequestId : Uuid) :
    Op (AccessDecisionCallback × AccessDecisionCallback) := do
  let approve : AccessDecisionCallback :=
    ⟨env.approveToken, accessRequestId, .approve, env.now⟩
  let reject : AccessDecisionCallback :=
    ⟨env.rejectToken, accessRequestId, .reject, env.now⟩
  .acquire (.exclusive (.callbackRow approve.token))
  .acquire (.exclusive (.callbackRow reject.token))
  .acquire (.exclusive (.callbackPair accessRequestId))
  let known ← .query Db.accessDecisionCallbacks
  .require
    (approve.token ≠ reject.token ∧ ∀ c ∈ known,
      c.token ≠ approve.token ∧ c.token ≠ reject.token)
    (raise .accessDecisionCallbacksPkey)
  .require (∀ c ∈ known, c.accessRequestId ≠ accessRequestId)
    (raise .accessDecisionCallbacksRequestAction)
  execute (.newCallbacks approve reject)
  pure (approve, reject)

/- `get_or_create_access_decision_callbacks` -/
def getOrCreateAccessDecisionCallbacks
    (env : IdentityEnv)
    (accessRequestId : Uuid) :
    Op (AccessDecisionCallback × AccessDecisionCallback) := do
  let existing ← .query (fun db =>
    db.accessDecisionCallbacks.filter (fun c =>
      c.accessRequestId = accessRequestId))
  if existing = [] then
    createAccessDecisionCallbacks env accessRequestId
  else do
    let incomplete : Error :=
      .runtime "access decision callback pair is incomplete"
    let approve ← .getOrFail incomplete
      (existing.find? (fun c => c.action = .approve))
    let reject ← .getOrFail incomplete
      (existing.find? (fun c => c.action = .reject))
    .require (existing.length = 2) incomplete
    pure (approve, reject)

/- `enqueue_access_request_admin_notification` -/
def enqueueAccessRequestAdminNotification
    (env : IdentityEnv)
    (accessRequest : AccessRequest)
    (identity : TelegramIdentity) : Op Unit := do
  let notificationId ← .getOrFail
    (.http 503 "access notification unavailable")
    env.telegram.notificationTelegramUserId
  let callbacks ← getOrCreateAccessDecisionCallbacks env
    accessRequest.id
  .require
    (utf8Length (accessCallbackData callbacks.1.token) ≤ 64 ∧
      utf8Length (accessCallbackData callbacks.2.token) ≤ 64)
    (.valueError "callback_data exceeds Telegram limit")
  enqueue env (accessRequestAdminCall env.telegram
    notificationId accessRequest.id identity
    callbacks.1.token callbacks.2.token)
