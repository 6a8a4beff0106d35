import DcInventory.Schema.Database
import Mathlib.Data.List.Sort

/-
  This file defines the outbox of Telegram calls. Each
  function is one transaction on the table: the rows it
  selects FOR UPDATE are read as they are when their locks
  are granted, and stay so until the commit.

  Key definitions include:
    * `enqueueTelegramCall`
    * `claimNotificationBatch`
    * `markNotificationSent`
    * `markNotificationFailed`
-/

/- `"|".join(str(part) for part in parts)` -/
def joinParts : List Text → Text
| [] => []
| [part] => part
| part :: parts => part ++ '|' :: joinParts parts

/- `sha256` is the hexadecimal digest, as for fingerprints. -/
def notificationDedupeKey
    (sha256 : Text → Text)
    (parts : List Text) : Text :=
  sha256 (joinParts parts)

------------------------------------------------------------
-- Enqueueing
------------------------------------------------------------

def allowedTelegramMethods : List Text :=
  ["sendMessage".toList, "sendPhoto".toList,
    "deleteMessage".toList, "editMessageText".toList,
    "editMessageReplyMarkup".toList,
    "answerCallbackQuery".toList]

/- The arguments of `enqueue_telegram_call`. -/
structure TelegramCall where
  method : Text
  payload : Json
  dedupeKey : Text
  availableAt : Option Time
  requeueDead : Bool

/- The row that the INSERT makes. -/
def newNotification
    (id : Uuid)
    (now : Time)
    (call : TelegramCall) : NotificationOutbox where
  id := id
  method := call.method
  payload := call.payload
  dedupeKey := call.dedupeKey
  status := .pending
  attempts := 0
  availableAt := call.availableAt.getD now
  claimedAt := none
  claimToken := none
  sentAt := none
  lastError := none
  createdAt := now
  updatedAt := now

/- What ON CONFLICT DO UPDATE sets. -/
def requeuedNotification
    (now : Time)
    (row : NotificationOutbox) : NotificationOutbox :=
  { row with
    status := .pending
    attempts := 0
    availableAt := now
    claimedAt := none
    claimToken := none
    lastError := none
    updatedAt := now }

/- INSERT ... ON CONFLICT (dedupe_key) -/
def upsertNotification
    (id : Uuid)
    (now : Time)
    (call : TelegramCall)
    (rows : List NotificationOutbox) :
    Except Error (List NotificationOutbox) :=
  match Table.find NotificationOutbox.dedupeKey
      call.dedupeKey rows with
  | some row =>
      if call.requeueDead ∧ row.status = .dead then
        .ok (Table.rewrite NotificationOutbox.id row.id
          (requeuedNotification now) rows)
      else .ok rows
  | none =>
      if (Table.find NotificationOutbox.id id rows).isSome
      then .error (raise .notificationOutboxPkey)
      else .ok (rows ++ [newNotification id now call])

def enqueueTelegramCall
    (id : Uuid)
    (now : Time)
    (call : TelegramCall)
    (rows : List NotificationOutbox) :
    Except Error (List NotificationOutbox) :=
  if call.method ∉ allowedTelegramMethods then
    .error (.unsupportedTelegramMethod call.method)
  else if call.dedupeKey = [] ∨
      128 < call.dedupeKey.length then
    .error (.valueError "invalid outbox dedupe key")
  else upsertNotification id now call rows

------------------------------------------------------------
-- Claiming
------------------------------------------------------------

structure ClaimedNotification where
  id : Uuid
  claimToken : Uuid
  method : Text
  payload : Json
  dedupeKey : Text
  attempts : Nat

/- The settings of a claim. -/
structure ClaimSettings where
  batchSize : Nat
  claimTtlSeconds : Nat
  maxAttempts : Nat

/- `claimed_at < stale_before`, false for NULL. -/
def claimedBefore
    (staleBefore : Time)
    (claimedAt : Option Time) : Bool :=
  claimedAt.any (fun t => t < staleBefore)

namespace NotificationOutbox

/- The WHERE clause of a claim. -/
def claimable
    (currentTime staleBefore : Time)
    (maxAttempts : Nat)
    (row : NotificationOutbox) : Bool :=
  row.status = .pending ∧
    row.availableAt ≤ currentTime ∧
    (row.attempts < maxAttempts ∨
      (maxAttempts ≤ row.attempts ∧ row.claimedAt.isSome ∧
        claimedBefore staleBefore row.claimedAt)) ∧
    (row.claimedAt = none ∨
      claimedBefore staleBefore row.claimedAt)

/- The ORDER BY clause of a claim. -/
def comesBefore (a b : NotificationOutbox) : Prop :=
  a.availableAt < b.availableAt ∨
    (a.availableAt = b.availableAt ∧
      (a.createdAt < b.createdAt ∨
        (a.createdAt = b.createdAt ∧ a.id ≤ b.id)))

instance : DecidableRel comesBefore := by
  intro a b
  unfold comesBefore
  infer_instance

/- The row after its claim. -/
def claimed
    (currentTime staleBefore : Time)
    (maxAttempts : Nat)
    (token : Uuid)
    (row : NotificationOutbox) : NotificationOutbox :=
  let wasStaleFinalAttempt :=
    maxAttempts ≤ row.attempts ∧ row.claimedAt.isSome ∧
      claimedBefore staleBefore row.claimedAt
  { row with
    claimedAt := some currentTime
    claimToken := some token
    attempts :=
      if wasStaleFinalAttempt then row.attempts
      else row.attempts + 1
    updatedAt := currentTime }

/- What the worker is told of a claimed row. -/
def toClaim
    (token : Uuid)
    (row : NotificationOutbox) : ClaimedNotification where
  id := row.id
  claimToken := token
  method := row.method
  payload := row.payload
  dedupeKey := row.dedupeKey
  attempts := row.attempts

end NotificationOutbox

/-
  `locked` are the rows that others have locked, which SKIP
  LOCKED leaves out; `newToken` draws the token of a row.
-/
def claimNotificationBatch
    (settings : ClaimSettings)
    (currentTime : Time)
    (locked : List Uuid)
    (newToken : Uuid → Uuid)
    (rows : List NotificationOutbox) :
    List ClaimedNotification × List NotificationOutbox :=
  let staleBefore :=
    currentTime - seconds settings.claimTtlSeconds
  let selected := ((rows.filter (fun r =>
    r.id ∉ locked ∧ r.claimable currentTime staleBefore
      settings.maxAttempts)).insertionSort
        NotificationOutbox.comesBefore).take settings.batchSize
  let claimed := fun r : NotificationOutbox =>
    r.claimed currentTime staleBefore settings.maxAttempts
      (newToken r.id)
  (selected.map (fun r => (claimed r).toClaim (newToken r.id)),
    rows.map (fun r =>
      if r.id ∈ selected.map NotificationOutbox.id
      then claimed r else r))

------------------------------------------------------------
-- Finishing
------------------------------------------------------------

/- The pending row that still has the token of the claim. -/
def claimedRow
    (claim : ClaimedNotification)
    (rows : List NotificationOutbox) :
    Option NotificationOutbox :=
  rows.find? (fun r => r.id = claim.id ∧
    r.claimToken = some claim.claimToken ∧
    r.status = .pending)

def markNotificationSent
    (claim : ClaimedNotification)
    (now : Time)
    (rows : List NotificationOutbox) :
    Bool × List NotificationOutbox :=
  match claimedRow claim rows with
  | none => (false, rows)
  | some row =>
      (true, Table.rewrite NotificationOutbox.id row.id
        (fun r =>
          { r with
            status := .sent
            sentAt := some now
            claimedAt := none
            claimToken := none
            lastError := none
            updatedAt := now }) rows)

def retryDelaySeconds (attempts : Nat) : Nat :=
  min 300 (2 ^ min (attempts - 1) 8)

def markNotificationFailed
    (claim : ClaimedNotification)
    (error : Text)
    (maxAttempts : Nat)
    (currentTime : Time)
    (rows : List NotificationOutbox) :
    Bool × List NotificationOutbox :=
  match claimedRow claim rows with
  | none => (false, rows)
  | some row =>
      (true, Table.rewrite NotificationOutbox.id row.id
        (fun r =>
          let r :=
            { r with
              claimedAt := none
              claimToken := none
              lastError := some (error.take 1000)
              updatedAt := currentTime }
          if maxAttempts ≤ r.attempts then
            { r with status := .dead }
          else
            { r with
              availableAt := currentTime +
                seconds (retryDelaySeconds r.attempts) })
        rows)
