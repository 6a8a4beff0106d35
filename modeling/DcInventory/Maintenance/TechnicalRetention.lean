import DcInventory.Identity.Lifecycle
import DcInventory.Library.Sweep
import DcInventory.Procurement.Email
import DcInventory.TelegramBot.Updates

/-
  This file defines the deletion of technical rows that are
  old enough, and what else is committed meanwhile.

  A DELETE reads its candidates from the snapshot of the
  statement. It then waits for rows that are locked, and
  deletes the newest version of a row with the id of a
  candidate: the conditions on candidates are not read again.

  Key definitions include:
    * `retentionStatements`
    * `retention`
    * `Traffic`
    * `Commits`
-/

------------------------------------------------------------
-- Settings
------------------------------------------------------------

/- `timedelta(days=n)` -/
def days (n : Nat) : Time := 24 * 60 * 60 * seconds n

/- The settings of retention, within their bounds. -/
structure RetentionSettings where
  maintenanceRetentionBatchSize : Nat
  authSessionRetentionDays : Nat
  telegramUpdateRetentionDays : Nat
  notificationOutboxRetentionDays : Nat
  emailOutboxRetentionDays : Nat
  accessCallbackRetentionDays : Nat
  batchSize_pos : 1 ≤ maintenanceRetentionBatchSize

/- The settings and the time of one run. -/
structure RetentionInput where
  settings : RetentionSettings
  now : Time

------------------------------------------------------------
-- Keys Of Rows
------------------------------------------------------------

/- The primary keys of the tables that retention works on. -/
inductive RowKey where
| authSession (id : Uuid)
| telegramUpdate (updateId : Int)
| notification (id : Uuid)
| email (id : Uuid)
| accessCallback (token : Text)
deriving DecidableEq

namespace AuthSession

def rowKey (a : AuthSession) : RowKey := .authSession a.id

end AuthSession

namespace TelegramUpdate

def rowKey (u : TelegramUpdate) : RowKey :=
  .telegramUpdate u.updateId

end TelegramUpdate

namespace NotificationOutbox

def rowKey (n : NotificationOutbox) : RowKey :=
  .notification n.id

end NotificationOutbox

namespace EmailOutbox

def rowKey (e : EmailOutbox) : RowKey := .email e.id

end EmailOutbox

namespace AccessDecisionCallback

def rowKey (c : AccessDecisionCallback) : RowKey :=
  .accessCallback c.token

end AccessDecisionCallback

namespace Db

/- The rows of the five tables that have other keys. -/
def removeRows (keys : List RowKey) (db : Db) : Db :=
  { db with
    authSessions := db.authSessions.filter
      (fun a => a.rowKey ∉ keys)
    telegramUpdates := db.telegramUpdates.filter
      (fun u => u.rowKey ∉ keys)
    notificationOutbox := db.notificationOutbox.filter
      (fun n => n.rowKey ∉ keys)
    emailOutbox := db.emailOutbox.filter
      (fun e => e.rowKey ∉ keys)
    accessDecisionCallbacks :=
      db.accessDecisionCallbacks.filter
        (fun c => c.rowKey ∉ keys) }

/- A row of the five tables has the key. -/
def HasRow : RowKey → Db → Prop
| .authSession id, db => ∃ a ∈ db.authSessions, a.id = id
| .telegramUpdate updateId, db =>
    ∃ u ∈ db.telegramUpdates, u.updateId = updateId
| .notification id, db =>
    ∃ n ∈ db.notificationOutbox, n.id = id
| .email id, db => ∃ e ∈ db.emailOutbox, e.id = id
| .accessCallback token, db =>
    ∃ c ∈ db.accessDecisionCallbacks, c.token = token

/- The row with the key, if any, is the same in both. -/
def SameRow : RowKey → Db → Db → Prop
| .authSession id, db, db' =>
    Table.find AuthSession.id id db'.authSessions =
      Table.find AuthSession.id id db.authSessions
| .telegramUpdate updateId, db, db' =>
    Table.find TelegramUpdate.updateId updateId
        db'.telegramUpdates =
      Table.find TelegramUpdate.updateId updateId
        db.telegramUpdates
| .notification id, db, db' =>
    Table.find NotificationOutbox.id id
        db'.notificationOutbox =
      Table.find NotificationOutbox.id id
        db.notificationOutbox
| .email id, db, db' =>
    Table.find EmailOutbox.id id db'.emailOutbox =
      Table.find EmailOutbox.id id db.emailOutbox
| .accessCallback token, db, db' =>
    Table.find AccessDecisionCallback.token token
        db'.accessDecisionCallbacks =
      Table.find AccessDecisionCallback.token token
        db.accessDecisionCallbacks

end Db

------------------------------------------------------------
-- Candidates
------------------------------------------------------------

/- `x < cutoff`, false for NULL. -/
def isBefore (cutoff : Time) (x : Option Time) : Bool :=
  x.any (fun t => t < cutoff)

/- `ORDER BY x, key` -/
def orderedBy {ρ κ : Type} [LT κ] [DecidableEq κ]
    (x : ρ → Time)
    (key : ρ → κ)
    (a b : ρ) : Prop :=
  x a < x b ∨ (x a = x b ∧ (key a < key b ∨ key a = key b))

instance {ρ κ : Type} [LT κ] [DecidableLT κ] [DecidableEq κ]
    (x : ρ → Time)
    (key : ρ → κ) : DecidableRel (orderedBy x key) := by
  intro a b
  unfold orderedBy
  infer_instance

namespace AuthSession

def candidate (cutoff : Time) (a : AuthSession) : Bool :=
  a.expiresAt < cutoff ∨
    (a.revokedAt.isSome ∧ isBefore cutoff a.revokedAt)

/- LEAST(expires_at, COALESCE(revoked_at, expires_at)) -/
def endedAt (a : AuthSession) : Time :=
  min a.expiresAt (a.revokedAt.getD a.expiresAt)

end AuthSession

namespace TelegramUpdate

def candidate (cutoff : Time) (u : TelegramUpdate) : Bool :=
  u.processedAt.isSome ∧ isBefore cutoff u.processedAt

end TelegramUpdate

/- The WHERE clause of both outboxes. -/
def outboxCandidate
    (cutoff : Time)
    (status : DeliveryStatus)
    (updatedAt : Time)
    (claimedAt : Option Time)
    (claimToken : Option Uuid) : Bool :=
  (status = .sent ∨ status = .dead) ∧ updatedAt < cutoff ∧
    claimedAt = none ∧ claimToken = none

namespace NotificationOutbox

def candidate (cutoff : Time) (n : NotificationOutbox) : Bool :=
  outboxCandidate cutoff n.status n.updatedAt n.claimedAt
    n.claimToken

end NotificationOutbox

namespace EmailOutbox

def candidate (cutoff : Time) (e : EmailOutbox) : Bool :=
  outboxCandidate cutoff e.status e.updatedAt e.claimedAt
    e.claimToken

end EmailOutbox

namespace AccessDecisionCallback

/- The request that the callback is joined with. -/
def joined
    (requests : List AccessRequest)
    (c : AccessDecisionCallback) : Option AccessRequest :=
  Table.find AccessRequest.id c.accessRequestId requests

def candidate
    (requests : List AccessRequest)
    (cutoff : Time)
    (c : AccessDecisionCallback) : Bool :=
  (c.joined requests).any (fun r =>
    (r.status = .approved ∨ r.status = .rejected) ∧
      r.decidedAt.isSome ∧ isBefore cutoff r.decidedAt)

/- `request.decided_at` -/
def decidedAt
    (requests : List AccessRequest)
    (c : AccessDecisionCallback) : Time :=
  ((c.joined requests).bind AccessRequest.decidedAt).getD 0

end AccessDecisionCallback

------------------------------------------------------------
-- Statements
------------------------------------------------------------

/- A table of rows, with the condition and order of them. -/
structure RetentionStatement (ρ : Type) where
  rowKey : ρ → RowKey
  candidate : ρ → Bool
  before : ρ → ρ → Prop
  [decidableBefore : DecidableRel before]

attribute [instance] RetentionStatement.decidableBefore

/- The keys of the candidates of one batch. -/
def RetentionStatement.candidates {ρ : Type}
    (statement : RetentionStatement ρ)
    (batchSize : Nat)
    (rows : List ρ) : List RowKey :=
  (batchOf statement.candidate statement.before batchSize
    rows).map statement.rowKey

def authSessionsDelete
    (cutoff : Time) : RetentionStatement AuthSession where
  rowKey := AuthSession.rowKey
  candidate := AuthSession.candidate cutoff
  before := orderedBy AuthSession.endedAt
    (fun a => a.id.bits)

def telegramUpdatesDelete
    (cutoff : Time) : RetentionStatement TelegramUpdate where
  rowKey := TelegramUpdate.rowKey
  candidate := TelegramUpdate.candidate cutoff
  before := orderedBy (fun u => u.processedAt.getD 0)
    TelegramUpdate.updateId

def notificationOutboxDelete
    (cutoff : Time) : RetentionStatement NotificationOutbox where
  rowKey := NotificationOutbox.rowKey
  candidate := NotificationOutbox.candidate cutoff
  before := orderedBy NotificationOutbox.updatedAt
    (fun n => n.id.bits)

def emailOutboxDelete
    (cutoff : Time) : RetentionStatement EmailOutbox where
  rowKey := EmailOutbox.rowKey
  candidate := EmailOutbox.candidate cutoff
  before := orderedBy EmailOutbox.updatedAt
    (fun e => e.id.bits)

def accessCallbacksDelete
    (requests : List AccessRequest)
    (cutoff : Time) :
    RetentionStatement AccessDecisionCallback where
  rowKey := AccessDecisionCallback.rowKey
  candidate := AccessDecisionCallback.candidate requests cutoff
  before := orderedBy
    (AccessDecisionCallback.decidedAt requests)
    AccessDecisionCallback.token

namespace RetentionInput

/- `current_time - timedelta(days=...)` -/
def cutoff (i : RetentionInput) (retentionDays : Nat) : Time :=
  i.now - days retentionDays

def authSessions (i : RetentionInput) :
    RetentionStatement AuthSession :=
  authSessionsDelete
    (i.cutoff i.settings.authSessionRetentionDays)

def telegramUpdates (i : RetentionInput) :
    RetentionStatement TelegramUpdate :=
  telegramUpdatesDelete
    (i.cutoff i.settings.telegramUpdateRetentionDays)

def notificationOutbox (i : RetentionInput) :
    RetentionStatement NotificationOutbox :=
  notificationOutboxDelete
    (i.cutoff i.settings.notificationOutboxRetentionDays)

def emailOutbox (i : RetentionInput) :
    RetentionStatement EmailOutbox :=
  emailOutboxDelete
    (i.cutoff i.settings.emailOutboxRetentionDays)

def accessCallbacks
    (i : RetentionInput)
    (requests : List AccessRequest) :
    RetentionStatement AccessDecisionCallback :=
  accessCallbacksDelete requests
    (i.cutoff i.settings.accessCallbackRetentionDays)

end RetentionInput

/-
  The statements of `run_technical_retention_once`, in order,
  once it has the advisory lock.
-/
def retentionStatements
    (i : RetentionInput) : List (Db → List RowKey) :=
  let batchSize := i.settings.maintenanceRetentionBatchSize
  [fun db => i.authSessions.candidates batchSize
      db.authSessions,
    fun db => i.telegramUpdates.candidates batchSize
      db.telegramUpdates,
    fun db => i.notificationOutbox.candidates batchSize
      db.notificationOutbox,
    fun db => i.emailOutbox.candidates batchSize
      db.emailOutbox,
    fun db => (i.accessCallbacks db.accessRequests).candidates
      batchSize db.accessDecisionCallbacks]

structure RetentionCounts where
  authSessions : Nat
  telegramUpdates : Nat
  notificationOutbox : Nat
  emailOutbox : Nat
  accessDecisionCallbacks : Nat

namespace RetentionCounts

def total (c : RetentionCounts) : Nat :=
  c.authSessions + c.telegramUpdates + c.notificationOutbox +
    c.emailOutbox + c.accessDecisionCallbacks

/- The rows that were returned by the five statements. -/
def ofTaken (taken : List RowKey) : RetentionCounts where
  authSessions := taken.countP
    (fun | .authSession _ => true | _ => false)
  telegramUpdates := taken.countP
    (fun | .telegramUpdate _ => true | _ => false)
  notificationOutbox := taken.countP
    (fun | .notification _ => true | _ => false)
  emailOutbox := taken.countP
    (fun | .email _ => true | _ => false)
  accessDecisionCallbacks := taken.countP
    (fun | .accessCallback _ => true | _ => false)

end RetentionCounts

/-
  What `run_technical_retention_once` returns: where another
  run has the advisory lock nothing is deleted.
-/
def retentionResult :
    Option (List RowKey) → RetentionCounts
| none => ⟨0, 0, 0, 0, 0⟩
| some taken => .ofTaken taken

------------------------------------------------------------
-- Requests And Workers
------------------------------------------------------------

/- What else writes the five tables, beside identities. -/
inductive Traffic where
| issueSession (user id : Uuid) (tokenHash : Text)
    (ttlSeconds : Nat) (now : Time)
| revokeSession (id : Uuid) (now : Time)
| registerUpdate (updateId : Int) (now : Time)
| updateProcessed (updateId : Int) (now : Time)
| enqueue (id : Uuid) (now : Time) (call : TelegramCall)
| claimNotifications (settings : ClaimSettings) (now : Time)
    (locked : List Uuid) (newToken : Uuid → Uuid)
| notificationSent (claim : ClaimedNotification) (now : Time)
| notificationFailed (claim : ClaimedNotification)
    (error : Text) (maxAttempts : Nat) (now : Time)
| enqueueEmail (id : Uuid) (now : Time) (values : EmailValues)
| claimEmails (settings : ClaimSettings) (now : Time)
    (locked : List Uuid) (newToken : Uuid → Uuid)
| emailFinished (claim : ClaimedEmail) (error : Option Text)
    (maxAttempts : Nat) (now : Time)

namespace Traffic

def apply (db : Db) : Traffic → Except Error Db
| issueSession user id tokenHash ttlSeconds now =>
    .ok { db with
      authSessions := issueAuthSession user id tokenHash
        ttlSeconds now db.authSessions }
| revokeSession id now =>
    .ok { db with
      authSessions := revokeAuthSession id now
        db.authSessions }
| registerUpdate updateId now =>
    .ok { db with
      telegramUpdates := (registerTelegramUpdate updateId now
        db.telegramUpdates).2 }
| updateProcessed updateId now =>
    .ok { db with
      telegramUpdates := markTelegramUpdateProcessed updateId
        now db.telegramUpdates }
| enqueue id now call =>
    (enqueueTelegramCall id now call
      db.notificationOutbox).map (fun rows =>
        { db with notificationOutbox := rows })
| claimNotifications settings now locked newToken =>
    .ok { db with
      notificationOutbox := (claimNotificationBatch settings
        now locked newToken db.notificationOutbox).2 }
| notificationSent claim now =>
    .ok { db with
      notificationOutbox := (markNotificationSent claim now
        db.notificationOutbox).2 }
| notificationFailed claim error maxAttempts now =>
    .ok { db with
      notificationOutbox := (markNotificationFailed claim error
        maxAttempts now db.notificationOutbox).2 }
| enqueueEmail id now values =>
    (insertEmail id now values db.emailOutbox).map (fun rows =>
      { db with emailOutbox := rows })
| claimEmails settings now locked newToken =>
    .ok { db with
      emailOutbox := (claimEmailBatch settings now locked
        newToken db.emailOutbox).2 }
| emailFinished claim error maxAttempts now =>
    .ok { db with
      emailOutbox := (finalizeEmail claim error maxAttempts now
        db.emailOutbox).2 }

end Traffic

/- A commit: of an identity request, or other traffic. -/
inductive Change where
| identity (ws : List IdentityWrite)
| traffic (statement : Traffic)

/- The calls that a commit enqueues. -/
def Change.calls : Change → List TelegramCall
| .identity ws => ws.filterMap (fun
    | .notify _ _ call => some call
    | _ => none)
| .traffic (.enqueue _ _ call) => [call]
| .traffic _ => []

/- Primary keys, and the unique index of pending requests. -/
structure KeysValid (db : Db) : Prop where
  authSessions : (db.authSessions.map AuthSession.id).Nodup
  telegramUpdates :
    (db.telegramUpdates.map TelegramUpdate.updateId).Nodup
  notificationOutbox :
    (db.notificationOutbox.map NotificationOutbox.id).Nodup
  emailOutbox : (db.emailOutbox.map EmailOutbox.id).Nodup
  accessCallbacks : (db.accessDecisionCallbacks.map
    AccessDecisionCallback.token).Nodup
  requests : RequestsValid db

/-
  What others commit. A transaction that does several of
  these things is seen as several commits: each of the five
  tables sees the same changes.
-/
inductive Commits : Change → Db → Db → Prop where
| identity {D env held result ws s} :
    FixesRequests D →
    Wrote D env held s result ws →
    KeysValid s →
    KeysValid (IdentityWrite.applyAll ws s) →
    Commits (.identity ws) s (IdentityWrite.applyAll ws s)
| traffic {statement s s'} :
    Traffic.apply s statement = .ok s' →
    KeysValid s →
    KeysValid s' →
    Commits (.traffic statement) s s'
