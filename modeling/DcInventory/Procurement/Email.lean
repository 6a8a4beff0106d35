import DcInventory.Notifications.Service

/-
  This file defines the outbox of emails.

  Key definitions include:
    * `insertEmail`
    * `claimEmailBatch`
    * `finalizeEmail`
-/

------------------------------------------------------------
-- Enqueueing
------------------------------------------------------------

/- The values of the INSERT of an email. -/
structure EmailValues where
  requestId : Uuid
  toAddresses : List Text
  ccAddresses : List Text
  subject : Text
  textBody : Text
  htmlBody : Text
  dedupeKey : Text

def newEmail
    (id : Uuid)
    (now : Time)
    (values : EmailValues) : EmailOutbox where
  id := id
  requestId := values.requestId
  toAddresses := values.toAddresses
  ccAddresses := values.ccAddresses
  subject := values.subject
  textBody := values.textBody
  htmlBody := values.htmlBody
  dedupeKey := values.dedupeKey
  status := .pending
  attempts := 0
  availableAt := now
  claimedAt := none
  claimToken := none
  sentAt := none
  lastError := none
  createdAt := now
  updatedAt := now

/-
  The INSERT of `enqueue_procurement_email`: ON CONFLICT
  (dedupe_key) DO NOTHING.
-/
def insertEmail
    (id : Uuid)
    (now : Time)
    (values : EmailValues)
    (rows : List EmailOutbox) :
    Except Error (List EmailOutbox) :=
  match Table.find EmailOutbox.dedupeKey values.dedupeKey
      rows with
  | some _ => .ok rows
  | none =>
      if (Table.find EmailOutbox.id id rows).isSome
      then .error (raise .emailOutboxPkey)
      else .ok (rows ++ [newEmail id now values])

------------------------------------------------------------
-- Claiming
------------------------------------------------------------

structure ClaimedEmail where
  id : Uuid
  claimToken : Uuid
  to_ : List Text
  cc : List Text
  subject : Text
  textBody : Text
  htmlBody : Text
  attempts : Nat

namespace EmailOutbox

/- The WHERE clause of a claim. -/
def claimable
    (current stale : Time)
    (maxAttempts : Nat)
    (row : EmailOutbox) : Bool :=
  row.status = .pending ∧
    row.availableAt ≤ current ∧
    (row.attempts < maxAttempts ∨
      (maxAttempts ≤ row.attempts ∧ row.claimedAt.isSome ∧
        claimedBefore stale row.claimedAt)) ∧
    (row.claimedAt = none ∨
      claimedBefore stale row.claimedAt)

/- The ORDER BY clause of a claim. -/
def comesBefore (a b : EmailOutbox) : Prop :=
  a.availableAt < b.availableAt ∨
    (a.availableAt = b.availableAt ∧
      (a.createdAt < b.createdAt ∨
        (a.createdAt = b.createdAt ∧ a.id ≤ b.id)))

instance : DecidableRel comesBefore := by
  intro a b
  unfold comesBefore
  infer_instance

/- The row after its claim. -/
def claimed
    (current stale : Time)
    (maxAttempts : Nat)
    (token : Uuid)
    (row : EmailOutbox) : EmailOutbox :=
  let wasStaleFinalAttempt :=
    maxAttempts ≤ row.attempts ∧ row.claimedAt.isSome ∧
      claimedBefore stale row.claimedAt
  { row with
    claimedAt := some current
    claimToken := some token
    attempts :=
      if wasStaleFinalAttempt then row.attempts
      else row.attempts + 1
    updatedAt := current }

/- What the worker is told of a claimed row. -/
def toClaim
    (token : Uuid)
    (row : EmailOutbox) : ClaimedEmail where
  id := row.id
  claimToken := token
  to_ := row.toAddresses
  cc := row.ccAddresses
  subject := row.subject
  textBody := row.textBody
  htmlBody := row.htmlBody
  attempts := row.attempts

end EmailOutbox

def claimEmailBatch
    (settings : ClaimSettings)
    (current : Time)
    (locked : List Uuid)
    (newToken : Uuid → Uuid)
    (rows : List EmailOutbox) :
    List ClaimedEmail × List EmailOutbox :=
  let stale := current - seconds settings.claimTtlSeconds
  let selected := ((rows.filter (fun r =>
    r.id ∉ locked ∧ r.claimable current stale
      settings.maxAttempts)).insertionSort
        EmailOutbox.comesBefore).take settings.batchSize
  let claimed := fun r : EmailOutbox =>
    r.claimed current stale settings.maxAttempts
      (newToken r.id)
  (selected.map (fun r => (claimed r).toClaim (newToken r.id)),
    rows.map (fun r =>
      if r.id ∈ selected.map EmailOutbox.id
      then claimed r else r))

------------------------------------------------------------
-- Finishing
------------------------------------------------------------

/- With an error the email is tried again, or given up. -/
def finalizeEmail
    (claim : ClaimedEmail)
    (error : Option Text)
    (maxAttempts : Nat)
    (now : Time)
    (rows : List EmailOutbox) : Bool × List EmailOutbox :=
  match rows.find? (fun r => r.id = claim.id ∧
      r.claimToken = some claim.claimToken ∧
      r.status = .pending) with
  | none => (false, rows)
  | some row =>
      (true, Table.rewrite EmailOutbox.id row.id
        (fun r =>
          let r :=
            { r with
              claimedAt := none
              claimToken := none
              updatedAt := now }
          match error with
          | none =>
              { r with
                status := .sent
                sentAt := some now
                lastError := none }
          | some error =>
              let r :=
                { r with lastError := some (error.take 1000) }
              if maxAttempts ≤ r.attempts then
                { r with status := .dead }
              else
                { r with
                  availableAt := now + seconds
                    (min 300
                      (2 ^ min (r.attempts - 1) 8)) })
        rows)
