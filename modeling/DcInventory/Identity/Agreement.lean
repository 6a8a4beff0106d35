import DcInventory.Identity.AccessLocks
import DcInventory.Identity.Authorization

/-
  This file proves when the statuses of users, their requests
  for access and their access events agree.

  A user who asks for access, and the recovery identity, are
  changed through the instance that authentication loaded.
  The events that they write start from its status, which the
  row need not have any more.

  Key definitions include:
    * `Chain`
    * `Agrees`
    * `Undisturbed`

  Key theorems include:
    * `Turned.agrees`
    * `access_lifecycle_agrees`
    * `stale_request_breaks_chain`
-/

open IdentityWrite

------------------------------------------------------------
-- Chains
------------------------------------------------------------

/- Each event starts where the one before it ended. -/
def Chain
    (before : UserAccessStatus) :
    List UserAccessEvent → UserAccessStatus → Prop
| [], after => before = after
| e :: es, after =>
    e.beforeAccessStatus = before ∧
      Chain e.afterAccessStatus es after

theorem Chain.append
    {a b c : UserAccessStatus}
    {es fs : List UserAccessEvent}
    (h : Chain a es b)
    (h' : Chain b fs c) :
    Chain a (es ++ fs) c := by
  induction es generalizing a with
  | nil => exact (show a = b from h) ▸ h'
  | cons e es ih => exact ⟨h.1, ih h.2⟩

/- The events of a user, in the order of their commits. -/
def eventsOf (user : Uuid) (db : Db) : List UserAccessEvent :=
  db.userAccessEvents.filter (fun e => e.targetUserId = user)

/-
  Each user has at most one pending request and is pending
  while there is one, and the events lead from the initial
  status to the current one.
-/
structure Agrees
    (initial : Uuid → UserAccessStatus)
    (db : Db) : Prop where
  valid : RequestsValid db
  pending : ∀ r ∈ db.accessRequests, r.status = .pending →
    ∀ u, db.findUser r.userId = some u →
      u.accessStatus = .pending
  chain : ∀ id u, db.findUser id = some u →
    Chain (initial id) (eventsOf id db) u.accessStatus

/-
  Where a session changes its own user, the row has still the
  status that the session loaded, or the change needs none.
-/
def Undisturbed (result : IdentityResult) (s : Db) : Prop :=
  match result with
  | .requested loaded _ =>
      (loaded.accessStatus = .pending ∧
        ∃ r ∈ s.accessRequests, r.isPendingOf loaded.id) ∨
      ∀ row, s.findUser loaded.id = some row →
        row.accessStatus = loaded.accessStatus
  | .recovered loaded _ =>
      loaded.accessStatus = .approved ∨
      ∀ row, s.findUser loaded.id = some row →
        row.accessStatus = loaded.accessStatus
  | _ => True

------------------------------------------------------------
-- One Commit
------------------------------------------------------------

section Commit

variable {initial : Uuid → UserAccessStatus}
variable {s : Db}
variable {held : List Lock}
variable {ws : List IdentityWrite}
variable {owner : User}
variable {after : UserAccessStatus}
variable {requests : List AccessRequest}
variable {events : List UserAccessEvent}

/- Events of one user are not those of another. -/
theorem Moves.filter_events
    {user before_ : Uuid}
    {before : UserAccessStatus}
    (h : Moves before_ before after events) :
    events.filter (fun e => e.targetUserId = user) =
      if before_ = user then events else [] := by
  cases h with
  | stays => split <;> rfl
  | moves hTarget _ _ =>
      split
      · rename_i hSame
        simp [hTarget, hSame]
      · rename_i hOther
        simp [hTarget, hOther]

theorem Moves.chain
    {user : Uuid}
    {before : UserAccessStatus}
    (h : Moves user before after events) :
    Chain before events after := by
  cases h with
  | stays => rfl
  | moves _ hBefore hAfter => exact ⟨hBefore, hAfter⟩

/- A turn that starts from the row keeps all chains. -/
theorem Turn.chain
    (hAgrees : Agrees initial s)
    (h : Turn held s ws owner after requests events)
    (hMoves : Moves owner.id owner.accessStatus after events) :
    ∀ id u, (applyAll ws s).findUser id = some u →
      Chain (initial id) (eventsOf id (applyAll ws s))
        u.accessStatus := by
  intro id u hFind
  rw [IdentityWrite.findUser_applyAll] at hFind
  rcases Option.map_eq_some_iff.mp hFind with ⟨row, hRow, rfl⟩
  have hOld := hAgrees.chain id row hRow
  have hId : row.id = id := Table.key_of_find hRow
  rw [eventsOf, IdentityWrite.userAccessEvents_applyAll,
    List.filter_append, h.events, hMoves.filter_events]
  by_cases hSame : owner.id = id
  · have hOwner : row = owner := by
      have hFound := h.row
      rw [hSame, hRow] at hFound
      exact Option.some.inj hFound
    rw [if_pos hSame, hOwner, h.status]
    rw [hOwner] at hOld
    exact hOld.append hMoves.chain
  · rw [if_neg hSame, List.append_nil,
      h.spared row (hId.symm ▸ hRow)
        (fun hEq => hSame (hEq.symm.trans hId))]
    exact hOld

/- A turn keeps pending requests with pending users. -/
theorem Turn.pending
    (hAgrees : Agrees initial s)
    (h : Turn held s ws owner after requests events)
    (hOwn : ∀ r ∈ requests, r.isPendingOf owner.id →
      after = .pending)
    (hOld : ∀ r ∈ requests, r.status = .pending →
      r.userId ≠ owner.id → r ∈ s.accessRequests) :
    ∀ r ∈ (applyAll ws s).accessRequests,
      r.status = .pending →
      ∀ u, (applyAll ws s).findUser r.userId = some u →
        u.accessStatus = .pending := by
  intro r hr hStatus u hFind
  rw [IdentityWrite.accessRequests_applyAll, h.requests] at hr
  rw [IdentityWrite.findUser_applyAll] at hFind
  rcases Option.map_eq_some_iff.mp hFind with ⟨row, hRow, rfl⟩
  have hId : row.id = r.userId := Table.key_of_find hRow
  by_cases hSame : r.userId = owner.id
  · have hOwner : row = owner := by
      have hFound := h.row
      rw [← hSame, hRow] at hFound
      exact Option.some.inj hFound
    rw [hOwner, h.status]
    apply hOwn r hr
    simp [AccessRequest.isPendingOf, hSame, hStatus]
  · rw [h.spared row (hId.symm ▸ hRow)
      (fun hEq => hSame (hId.symm.trans hEq))]
    exact hAgrees.pending r (hOld r hr hStatus hSame) hStatus
      row hRow

/- A turn after which no request of the user is pending. -/
theorem Turn.agrees_of_clears
    (hAgrees : Agrees initial s)
    (hValid : RequestsValid (applyAll ws s))
    (h : Turn held s ws owner after requests events)
    (hMoves : Moves owner.id owner.accessStatus after events)
    (hClears : Clears s owner.id requests) :
    Agrees initial (applyAll ws s) where
  valid := hValid
  pending := by
    apply h.pending hAgrees
    · intro r hr hPending
      exact absurd hPending
        (hClears.none_pending hAgrees.valid r hr)
    · intro r hr hStatus _
      exact hClears.was_pending hAgrees.valid hr hStatus
  chain := h.chain hAgrees hMoves

/- The status of the row of a user with a pending request. -/
theorem Agrees.status_of_pending
    (hAgrees : Agrees initial s)
    (hRow : s.findUser owner.id = some owner)
    {r : AccessRequest}
    (hMem : r ∈ s.accessRequests)
    (hPending : r.isPendingOf owner.id) :
    owner.accessStatus = .pending := by
  rcases pending_of_isPendingOf hPending with ⟨hUser, hStatus⟩
  rw [← hUser] at hRow
  exact hAgrees.pending r hMem hStatus owner hRow

/- What is inserted belongs to the user who asks. -/
theorem Inserts.isPendingOf
    {user : Uuid}
    {inserted : List AccessRequest}
    (h : Inserts held s user inserted) :
    ∀ r ∈ inserted, r.isPendingOf user := by
  cases h with
  | nothing _ _ => simp
  | new _ _ _ hPending => simpa using hPending

/- One undisturbed commit keeps users and requests agreed. -/
theorem Turned.agrees
    {result : IdentityResult}
    (hAgrees : Agrees initial s)
    (hPermit : Undisturbed result s)
    (h : Turned held s ws result) :
    Agrees initial (applyAll ws s) := by
  have hValid := h.valid hAgrees.valid
  cases h with
  | nothing hStatus hSpares =>
      refine ⟨hValid, ?_, ?_⟩
      · intro r hr hPending u hFind
        rw [IdentityWrite.accessRequests_applyAll,
          hSpares.requests] at hr
        rw [IdentityWrite.findUser_applyAll] at hFind
        rcases Option.map_eq_some_iff.mp hFind with
          ⟨row, hRow, rfl⟩
        have hId : row.id = r.userId := Table.key_of_find hRow
        rw [hStatus row (hId.symm ▸ hRow)]
        exact hAgrees.pending r hr hPending row hRow
      · intro id u hFind
        rw [IdentityWrite.findUser_applyAll] at hFind
        rcases Option.map_eq_some_iff.mp hFind with
          ⟨row, hRow, rfl⟩
        have hId : row.id = id := Table.key_of_find hRow
        rw [hStatus row (hId.symm ▸ hRow), eventsOf,
          IdentityWrite.userAccessEvents_applyAll,
          hSpares.events, List.append_nil]
        exact hAgrees.chain id row hRow
  | access hTurn hMoves hBefore _ =>
      refine ⟨hValid, ?_, hTurn.chain hAgrees hMoves⟩
      apply hTurn.pending hAgrees
      · intro r hr hPending
        exact absurd (hAgrees.status_of_pending hTurn.row hr
          hPending) hBefore
      · exact fun r hr _ _ => hr
  | cleared hTurn hMoves hClears =>
      exact hTurn.agrees_of_clears hAgrees hValid hMoves hClears
  | @recovered owner loaded made after events requests hId
      hTurn hMoved hClears =>
      have hMoves : Moves owner.id owner.accessStatus after
          events := by
        rcases hMoved with ⟨_, rfl, rfl⟩ | ⟨hNe, rfl, hMoves⟩
        · exact .stays
        · rcases hPermit with hApproved | hSame
          · exact absurd hApproved hNe
          · rw [hSame owner (hId ▸ hTurn.row)]
            exact hMoves
      exact hTurn.agrees_of_clears hAgrees hValid hMoves hClears
  | @asked owner loaded answer after events inserted hId hTurn
      hMoved hInserts =>
      have hBoth : Moves owner.id owner.accessStatus after
          events ∧ ((∃ r ∈ s.accessRequests ++ inserted,
            r.isPendingOf owner.id) → after = .pending) := by
        rcases hMoved with
          ⟨hLoaded, rfl, rfl⟩ | ⟨hNe, rfl, hMoves⟩
        · refine ⟨.stays, fun _ => ?_⟩
          rcases hPermit with ⟨_, r, hr, hPending⟩ | hSame
          · exact hAgrees.status_of_pending hTurn.row hr
              (hId ▸ hPending)
          · rw [hSame owner (hId ▸ hTurn.row)]
            exact hLoaded
        · refine ⟨?_, fun _ => rfl⟩
          rcases hPermit with ⟨hLoaded, _⟩ | hSame
          · exact absurd hLoaded hNe
          · rw [hSame owner (hId ▸ hTurn.row)]
            exact hMoves
      refine ⟨hValid, ?_, hTurn.chain hAgrees hBoth.1⟩
      apply hTurn.pending hAgrees
      · exact fun r hr hPending => hBoth.2 ⟨r, hr, hPending⟩
      · intro r hr _ hOther
        rcases List.mem_append.mp hr with hr | hr
        · exact hr
        · exact absurd (pending_of_isPendingOf
            (hInserts.isPendingOf r hr)).1 hOther

end Commit

------------------------------------------------------------
-- Runs
------------------------------------------------------------

/- Identity requests that are undisturbed can be interleaved. -/
theorem identity_program_agrees
    {initial : Uuid → UserAccessStatus}
    {p : Op IdentityResult}
    (hProgram : IsIdentityProgram p) :
    (accessLocks (Agrees initial)).Safe Undisturbed
      (fun _ _ _ => True) p := by
  rcases hProgram with ⟨env, request, rfl⟩
  intro s hInv
  apply wlp_program fixesUsers_accessLocks
    (fun _ h => h.valid.users) hInv
  · intro e held own s'
    trivial
  · intro result ws held s' hReach hWrote hPermit
    have hAgrees := hReach.inv
    refine ⟨hWrote.accessCommits hAgrees.valid ?_, trivial⟩
    exact (hWrote.turned fixesRequests_accessLocks
      hAgrees.valid).agrees hAgrees hPermit

/-
  In every interleaved run in which no session changes its own
  user after the row has got another status than the session
  loaded: each user has at most one pending request, is
  pending while there is one, and has events that lead from
  the initial status to the current one.
-/
theorem access_lifecycle_agrees
    {τ : Type} [DecidableEq τ]
    {initial : Uuid → UserAccessStatus}
    {S : System τ Db Lock Error IdentityResult}
    (hReach : System.Reachable Lock.modes IsIdentityProgram
      Undisturbed (Agrees initial) S) :
    (∀ r ∈ S.committed.accessRequests,
      ∀ r' ∈ S.committed.accessRequests,
        r.status = .pending → r'.status = .pending →
          r.userId = r'.userId → r = r') ∧
    (∀ r ∈ S.committed.accessRequests, r.status = .pending →
      ∀ u, S.committed.findUser r.userId = some u →
        u.accessStatus = .pending) ∧
    ∀ id u, S.committed.findUser id = some u →
      Chain (initial id) (eventsOf id S.committed)
        u.accessStatus := by
  have hAgrees : Agrees initial S.committed :=
    Discipline.invariant_of_reachable
      (D := accessLocks (Agrees initial))
      (fun _ hProgram => identity_program_agrees hProgram)
      (fun _ h => h) hReach
  exact ⟨hAgrees.valid.single, hAgrees.pending, hAgrees.chain⟩

------------------------------------------------------------
-- A User Who Asks Twice At Once
------------------------------------------------------------

namespace AskedTwice

def guest : User :=
  ⟨⟨4⟩, .engineer, .rejected, none, none⟩

def start : Db :=
  { Db.empty with
    users := [Demotion.owner, guest]
    telegramIdentities := [Demotion.identity guest 14]
    authSessions := [Demotion.session guest "guest".toList] }

def env (transactionId : Nat) : IdentityEnv :=
  { Demotion.env transactionId with
    newRequestId := ⟨20 + transactionId⟩ }

/- The statuses at the start. -/
def initial (id : Uuid) : UserAccessStatus :=
  if id = guest.id then .rejected else .approved

def asks : IdentityRequest :=
  .requestAccess (.token "guest".toList)

/- The event that either of the requests writes. -/
def event (transactionId : Nat) : UserAccessEvent where
  id := ⟨BitVec.ofNat 128 (100 + transactionId)⟩
  actorUserId := guest.id
  targetUserId := guest.id
  beforeAccessStatus := .rejected
  afterAccessStatus := .pending
  occurredAt := 1
  dbTransactionId := transactionId

def begun : System Bool Db Lock Error IdentityResult :=
  ((System.initial start).begin true
    (asks.program (env 1))).begin false
      (asks.program (env 2))

/-
  Both requests are authenticated, the second one commits,
  then the first one goes on with the rejected user.
-/
def done : System Bool Db Lock Error IdentityResult :=
  begun.played Lock.modes ([true] ++
    List.replicate 27 false ++ List.replicate 13 true)

theorem start_agrees : Agrees initial start := by
  have hUsers : ∀ id u, start.findUser id = some u →
      u ∈ start.users ∧ u.id = id :=
    fun id u hFind => ⟨Table.mem_of_find hFind,
      Table.key_of_find hFind⟩
  refine ⟨⟨?_, List.nodup_nil, ?_⟩, ?_, ?_⟩
  · simp [DistinctUsers, start, Demotion.owner, guest]
  · intro r hr
    cases hr
  · intro r hr
    cases hr
  · intro id u hFind
    rcases hUsers id u hFind with ⟨hMem, rfl⟩
    simp only [start, List.mem_cons, List.not_mem_nil,
      or_false] at hMem
    rcases hMem with rfl | rfl <;> rfl

theorem done_reachable :
    System.Reachable Lock.modes IsIdentityProgram
      (fun _ _ => True) (Agrees initial) done := by
  refine ⟨start, start_agrees, ?_⟩
  have hFirst : System.Steps Lock.modes IsIdentityProgram
      (fun _ _ => True) (System.initial start)
      ((System.initial start).begin true
        (asks.program (env 1))) :=
    System.begin_steps rfl ⟨env 1, asks, rfl⟩
  have hSecond : System.Steps Lock.modes IsIdentityProgram
      (fun _ _ => True)
      ((System.initial start).begin true
        (asks.program (env 1))) begun :=
    System.begin_steps rfl ⟨env 2, asks, rfl⟩
  exact (hFirst.trans hSecond).trans System.played_steps

end AskedTwice

/-
  A rejected user asks for access in two sessions at once: the
  second session writes an event from REJECTED although the
  user is pending by then.
-/
theorem stale_request_breaks_chain :
    ∃ S : System Bool Db Lock Error IdentityResult,
      System.Reachable Lock.modes IsIdentityProgram
        (fun _ _ => True) (Agrees AskedTwice.initial) S ∧
      ∃ u, S.committed.findUser AskedTwice.guest.id = some u ∧
        ¬ Chain (AskedTwice.initial AskedTwice.guest.id)
          (eventsOf AskedTwice.guest.id S.committed)
          u.accessStatus := by
  have hRow : AskedTwice.done.committed.findUser
      AskedTwice.guest.id = some
        { AskedTwice.guest with accessStatus := .pending } := by
    rfl
  have hEvents : eventsOf AskedTwice.guest.id
      AskedTwice.done.committed =
        [AskedTwice.event 2, AskedTwice.event 1] := by
    rfl
  refine ⟨_, AskedTwice.done_reachable, _, hRow, ?_⟩
  rw [hEvents]
  intro hChain
  cases hChain.2.1

/- Asked once, the guest is pending after one event. -/
theorem access_lifecycle_agrees_once :
    ∃ s, (∃ u, s.findUser AskedTwice.guest.id = some u ∧
        u.accessStatus = .pending) ∧
      ∀ id u, s.findUser id = some u →
        Chain (AskedTwice.initial id) (eventsOf id s)
          u.accessStatus := by
  have hRun : ∃ answer s', (AskedTwice.asks.program
      (AskedTwice.env 1)).run AskedTwice.start =
        .ok (.requested AskedTwice.guest answer, s') ∧
      s'.findUser AskedTwice.guest.id = some
        { AskedTwice.guest with accessStatus := .pending } :=
    ⟨_, _, rfl, rfl⟩
  rcases hRun with ⟨answer, s', hRun, hRow⟩
  have hPermit : Undisturbed (.requested AskedTwice.guest
      answer) AskedTwice.start := by
    right
    intro row hFind
    have hSame : AskedTwice.start.findUser
        AskedTwice.guest.id = some AskedTwice.guest := by rfl
    rw [hSame] at hFind
    cases hFind
    rfl
  have hProgram : IsIdentityProgram
      (AskedTwice.asks.program (AskedTwice.env 1)) :=
    ⟨_, _, rfl⟩
  have hQuiet : ∃ S : System Bool Db Lock Error IdentityResult,
      S.committed = AskedTwice.start ∧
      System.Executes Lock.modes IsIdentityProgram Undisturbed
        true (AskedTwice.asks.program (AskedTwice.env 1))
        (.ok (.requested AskedTwice.guest answer))
        (System.initial AskedTwice.start) S
        (System.initial s') :=
    System.executes_of_run
      (S := System.initial AskedTwice.start) (fun _ => rfl)
      true hProgram hRun hPermit
  rcases hQuiet with ⟨S, _, hExec⟩
  rcases hExec.start with ⟨S₁, hStart, hDuring⟩
  have hReach : System.Reachable Lock.modes IsIdentityProgram
      Undisturbed (Agrees AskedTwice.initial)
      (System.initial s' :
        System Bool Db Lock Error IdentityResult) :=
    ⟨AskedTwice.start, AskedTwice.start_agrees,
      ((System.Steps.refl.step hStart).trans
        hDuring.steps).step hExec.finish⟩
  exact ⟨s', ⟨_, hRow, rfl⟩,
    (access_lifecycle_agrees hReach).2.2⟩
