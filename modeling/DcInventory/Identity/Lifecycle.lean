import DcInventory.Identity.Effects

/-
  This file proves what the transactions of identity requests
  make of requests for access and of access events, for the
  one user whose access they concern.

  Key definitions include:
    * `FixesRequests`
    * `Turn`
    * `Turned`

  Key theorems include:
    * `SawPending.eq`
    * `Wrote.turned`
-/

------------------------------------------------------------
-- Statements On Requests And Events
------------------------------------------------------------

namespace IdentityWrite

/- What a statement does to requests for access. -/
def onRequests :
    IdentityWrite → List AccessRequest → List AccessRequest
| .newRequest r, rows => rows ++ [r]
| .request loaded changed, rows =>
    Table.rewrite AccessRequest.id loaded.id
      (AccessRequest.updated loaded changed) rows
| .deletePending owner, rows =>
    rows.filter (fun r => ¬ r.isPendingOf owner)
| _, rows => rows

/- What statements in a row do to them. -/
def onRequestsAll :
    List IdentityWrite → List AccessRequest →
      List AccessRequest
| [], rows => rows
| w :: ws, rows => onRequestsAll ws (w.onRequests rows)

@[simp]
theorem onRequestsAll_append
    (ws vs : List IdentityWrite)
    (rows : List AccessRequest) :
    onRequestsAll (ws ++ vs) rows =
      onRequestsAll vs (onRequestsAll ws rows) := by
  induction ws generalizing rows with
  | nil => rfl
  | cons w ws ih => exact ih (w.onRequests rows)

/- Requests after statements in a row. -/
theorem accessRequests_applyAll
    (ws : List IdentityWrite)
    (db : Db) :
    (applyAll ws db).accessRequests =
      onRequestsAll ws db.accessRequests := by
  induction ws generalizing db with
  | nil => rfl
  | cons w ws ih =>
      rw [applyAll, ih, onRequestsAll]
      cases w <;> rfl

/- The access event that a statement inserts. -/
def accessEvent? : IdentityWrite → Option UserAccessEvent
| .accessEvent e => some e
| _ => none

/- Events after statements in a row. -/
theorem userAccessEvents_applyAll
    (ws : List IdentityWrite)
    (db : Db) :
    (applyAll ws db).userAccessEvents =
      db.userAccessEvents ++ ws.filterMap accessEvent? := by
  induction ws generalizing db with
  | nil => exact (List.append_nil _).symm
  | cons w ws ih =>
      rw [applyAll, ih]
      cases w with
      | accessEvent e => exact List.append_assoc _ [e] _
      | _ => rfl

end IdentityWrite

namespace AccessRequest

/- An instance that was not changed updates nothing. -/
@[simp]
theorem updated_same
    (loaded row : AccessRequest) :
    updated loaded loaded row = row := by
  simp [updated]

end AccessRequest

open IdentityWrite

/- A flush rewrites the row that has the id. -/
theorem onRequestsAll_requestWrites
    (loaded changed : AccessRequest)
    (rows : List AccessRequest) :
    onRequestsAll (requestWrites loaded changed) rows =
      Table.rewrite AccessRequest.id loaded.id
        (AccessRequest.updated loaded changed) rows := by
  unfold requestWrites
  split
  · rename_i hSame
    subst hSame
    simp [Table.rewrite, onRequestsAll]
  · rfl

/- The statements leave requests and events alone. -/
structure SparesAccess (ws : List IdentityWrite) : Prop where
  requests : ∀ rows, onRequestsAll ws rows = rows
  events : ws.filterMap accessEvent? = []

theorem SparesAccess.append
    {ws vs : List IdentityWrite}
    (h : SparesAccess ws)
    (h' : SparesAccess vs) :
    SparesAccess (ws ++ vs) where
  requests rows := by
    rw [onRequestsAll_append, h.requests, h'.requests]
  events := by
    rw [List.filterMap_append, h.events, h'.events]
    rfl

/- Statements that spare both one by one spare both. -/
theorem sparesAccess_of_forall
    {ws : List IdentityWrite}
    (h : ∀ w ∈ ws, (∀ rows, w.onRequests rows = rows) ∧
      w.accessEvent? = none) :
    SparesAccess ws where
  requests := by
    induction ws with
    | nil => exact fun _ => rfl
    | cons w ws ih =>
        intro rows
        rw [onRequestsAll, (h w List.mem_cons_self).1]
        exact ih (fun v hv => h v (List.mem_cons_of_mem _ hv))
          rows
  events := by
    rw [List.filterMap_eq_nil_iff]
    exact fun w hw => (h w hw).2

------------------------------------------------------------
-- Requests Of A User
------------------------------------------------------------

/- The requests of a user. -/
def requestsOf (user : Uuid) (db : Db) : List AccessRequest :=
  db.accessRequests.filter (fun r => r.userId = user)

theorem pendingAccessRequests_eq
    (user : Uuid)
    (db : Db) :
    pendingAccessRequests user db =
      ((requestsOf user db).filter
        (fun r => r.status = .pending)).insertionSort
          (fun a b => b.requestedAt ≤ a.requestedAt) := by
  unfold pendingAccessRequests requestsOf
  rw [List.filter_filter]
  congr 2
  funext r
  simp [AccessRequest.isPendingOf, and_comm]

theorem mem_pendingAccessRequests
    {user : Uuid}
    {db : Db}
    {r : AccessRequest} :
    r ∈ pendingAccessRequests user db ↔
      r ∈ db.accessRequests ∧ r.isPendingOf user := by
  unfold pendingAccessRequests
  rw [List.mem_insertionSort, List.mem_filter]

/-
  Whoever holds a lock on a user sees the same requests, and
  whoever holds the entry of an id sees it stay free.
-/
structure FixesRequests (D : Discipline Db Lock) : Prop where
  ofUser : ∀ {held : List Lock} {s s' : Db} {user : Uuid}
    {shared : Bool},
    D.Reach held s s' → ⟨.userRow user, shared⟩ ∈ held →
      requestsOf user s' = requestsOf user s
  free : ∀ {held : List Lock} {s s' : Db} {request : Uuid},
    D.Reach held s s' →
      .exclusive (.accessRequestPkey request) ∈ held →
      s.findAccessRequest request = none →
      s'.findAccessRequest request = none

/- Each request once, and one pending request for a user. -/
structure RequestsValid (db : Db) : Prop where
  users : DistinctUsers db
  ids : (db.accessRequests.map AccessRequest.id).Nodup
  single : ∀ r ∈ db.accessRequests, ∀ r' ∈ db.accessRequests,
    r.status = .pending → r'.status = .pending →
      r.userId = r'.userId → r = r'

/- What an exclusive lock showed is still so. -/
theorem Saw.pending
    {D : Discipline Db Lock}
    {s : Db}
    {owner : Uuid}
    {P : List AccessRequest → Prop}
    (hD : FixesRequests D)
    (h : Saw D (.exclusive (.userRow owner)) s
      (fun s₁ => P (pendingAccessRequests owner s₁))) :
    P (pendingAccessRequests owner s) := by
  rcases h with ⟨s₁, hReach, hP⟩
  have hHeld : (⟨.userRow owner, false⟩ : Lock) ∈
      [Lock.exclusive (.userRow owner)] := List.mem_cons_self
  have hSame := hD.ofUser hReach hHeld
  rwa [pendingAccessRequests_eq, hSame,
    ← pendingAccessRequests_eq]

/- The pending requests are as they were found. -/
theorem SawPending.eq
    {D : Discipline Db Lock}
    {s : Db}
    {session : Session}
    {owner : Uuid}
    {pending : List AccessRequest}
    (hD : FixesRequests D)
    (h : SawPending D session owner pending s) :
    pending = (pendingAccessRequests owner s).map
      (loadedRequest session.accessRequests) := by
  rcases h.seen with ⟨found, rows, hFound, hRows, rfl⟩
  have hFound' := hFound.pending hD
  have hRows' := Saw.pending (P := fun ps => rows = ps.filter
    (fun r => r.id ∈ found.map AccessRequest.id)) hD hRows
  rw [hRows', hFound', List.filter_eq_self.mpr]
  intro r hr
  exact decide_eq_true (List.mem_map_of_mem hr)

------------------------------------------------------------
-- Turns
------------------------------------------------------------

/- How a status and the events of a transaction fit. -/
inductive Moves
    (owner : Uuid)
    (before : UserAccessStatus) :
    UserAccessStatus → List UserAccessEvent → Prop where
| stays : Moves owner before before []
| moves {after : UserAccessStatus} {e : UserAccessEvent} :
    e.targetUserId = owner →
    e.beforeAccessStatus = before →
    e.afterAccessStatus = after →
    Moves owner before after [e]

theorem Moves.of_single
    {owner : Uuid}
    {before after : UserAccessStatus}
    {e : UserAccessEvent}
    (h : Moves owner before after [e]) :
    e.targetUserId = owner ∧ e.beforeAccessStatus = before ∧
      e.afterAccessStatus = after := by
  cases h with
  | moves hTarget hBefore hAfter =>
      exact ⟨hTarget, hBefore, hAfter⟩

/- What a commit makes of the access of one user. -/
structure Turn
    (held : List Lock)
    (s : Db)
    (ws : List IdentityWrite)
    (owner : User)
    (after : UserAccessStatus)
    (requests : List AccessRequest)
    (events : List UserAccessEvent) : Prop where
  row : s.findUser owner.id = some owner
  locked : .exclusive (.userRow owner.id) ∈ held
  status : (onUserAll ws owner).accessStatus = after
  spared : ∀ row, s.findUser row.id = some row →
    row.id ≠ owner.id →
      (onUserAll ws row).accessStatus = row.accessStatus
  requests : onRequestsAll ws s.accessRequests = requests
  events : ws.filterMap accessEvent? = events

/- A pending request of the user, and what is made of it. -/
structure Settles
    (s : Db)
    (owner : Uuid)
    (r r' : AccessRequest)
    (requests : List AccessRequest) : Prop where
  mem : r ∈ s.accessRequests
  pending : r.isPendingOf owner
  id : r'.id = r.id
  userId : r'.userId = r.userId
  decided : r'.status ≠ .pending
  requests : requests = Table.rewrite AccessRequest.id r.id
    (fun _ => r') s.accessRequests

/- Ways in which no pending request of the user is left. -/
inductive Clears
    (s : Db)
    (owner : Uuid) : List AccessRequest → Prop where
| nothing :
    (∀ r ∈ s.accessRequests, ¬ r.isPendingOf owner) →
    Clears s owner s.accessRequests
| settled {r r' requests} :
    Settles s owner r r' requests →
    Clears s owner requests
| deleted :
    Clears s owner (s.accessRequests.filter
      (fun r => ¬ r.isPendingOf owner))

/- What a request that asks for access inserts. -/
inductive Inserts
    (held : List Lock)
    (s : Db)
    (owner : Uuid) : List AccessRequest → Prop where
| nothing {r : AccessRequest} :
    r ∈ s.accessRequests →
    r.isPendingOf owner →
    Inserts held s owner []
| new {r : AccessRequest} :
    (∀ r' ∈ s.accessRequests, ¬ r'.isPendingOf owner) →
    s.findAccessRequest r.id = none →
    .exclusive (.accessRequestPkey r.id) ∈ held →
    r.isPendingOf owner →
    Inserts held s owner [r]

/-
  What a transaction makes of access. The status that it
  moves from is the one that its session has loaded; in the
  last two kinds that need not be the status of the row.
-/
inductive Turned
    (held : List Lock)
    (s : Db)
    (ws : List IdentityWrite) : IdentityResult → Prop where
| nothing {result} :
    (∀ row, s.findUser row.id = some row →
      (onUserAll ws row).accessStatus = row.accessStatus) →
    SparesAccess ws →
    Turned held s ws result
| access {result owner after events} :
    Turn held s ws owner after s.accessRequests events →
    Moves owner.id owner.accessStatus after events →
    owner.accessStatus ≠ .pending →
    after ≠ .pending →
    Turned held s ws result
| cleared {result owner after events requests} :
    Turn held s ws owner after requests events →
    Moves owner.id owner.accessStatus after events →
    Clears s owner.id requests →
    Turned held s ws result
| asked {owner loaded answer after events inserted} :
    loaded.id = owner.id →
    Turn held s ws owner after
      (s.accessRequests ++ inserted) events →
    (loaded.accessStatus = .pending ∧
        after = owner.accessStatus ∧ events = []) ∨
      (loaded.accessStatus ≠ .pending ∧ after = .pending ∧
        Moves owner.id loaded.accessStatus .pending events) →
    Inserts held s owner.id inserted →
    Turned held s ws (.requested loaded answer)
| recovered {owner loaded made after events requests} :
    loaded.id = owner.id →
    Turn held s ws owner after requests events →
    (loaded.accessStatus = .approved ∧
        after = owner.accessStatus ∧ events = []) ∨
      (loaded.accessStatus ≠ .approved ∧ after = .approved ∧
        Moves owner.id loaded.accessStatus .approved events) →
    Clears s owner.id requests →
    Turned held s ws (.recovered loaded made)

------------------------------------------------------------
-- Turns Of Transactions
------------------------------------------------------------

section Turns

variable {D : Discipline Db Lock}
variable {s : Db}
variable {held : List Lock}
variable {env : IdentityEnv}
variable {actor loaded owner target : User}
variable {ws vs : List IdentityWrite}
variable {updates : List UserUpdate}

/- A transition of a row moves from its status. -/
theorem moves_transition
    (env : IdentityEnv)
    (user : User)
    (actorId : Uuid)
    (after : UserAccessStatus) :
    Moves user.id user.accessStatus after
      ((accessEventWrites (transitionUserAccess env user actorId
        after).2).filterMap accessEvent?) := by
  unfold transitionUserAccess
  split
  · rename_i hSame
    subst hSame
    exact .stays
  · exact .moves rfl rfl rfl

theorem sparesAccess_roles
    (h : ∀ w ∈ ws, ∃ e, w = IdentityWrite.roleEvent e) :
    SparesAccess ws := by
  apply sparesAccess_of_forall
  intro w hw
  rcases h w hw with ⟨e, rfl⟩
  exact ⟨fun _ => rfl, rfl⟩

theorem sparesAccess_silences
    (h : Silences ws) :
    SparesAccess ws := by
  apply sparesAccess_of_forall
  intro w hw
  rcases h w hw with ⟨_, _, rfl⟩
  exact ⟨fun _ => rfl, rfl⟩

theorem sparesAccess_answerWrites
    {press : AccessCallback}
    {text : Text} :
    SparesAccess (answerWrites env press text) := by
  unfold answerWrites
  split <;> exact ⟨fun _ => rfl, rfl⟩

theorem Announces.sparesAccess
    {request : AccessRequest}
    (h : Announces env request ws) :
    SparesAccess ws := by
  cases h <;> exact ⟨fun _ => rfl, rfl⟩

/- Events write no requests. -/
theorem onRequestsAll_accessEventWrites
    (event : Option UserAccessEvent)
    (rows : List AccessRequest) :
    onRequestsAll (accessEventWrites event) rows = rows := by
  cases event <;> rfl

/- Requests write no events. -/
theorem accessEvents_requestWrites
    (request changed : AccessRequest) :
    (requestWrites request changed).filterMap accessEvent? =
      [] := by
  unfold requestWrites
  split <;> rfl

/- A pending row, decided through an instance of it. -/
theorem Settles.of_updated
    {user : Uuid}
    {r instance_ : AccessRequest}
    {f : AccessRequest → AccessRequest}
    (hValid : RequestsValid s)
    (hMem : r ∈ s.accessRequests)
    (hPending : r.isPendingOf user)
    (hInstance : instance_.id = r.id)
    (hId : (f r).id = r.id)
    (hUser : (f r).userId = r.userId)
    (hDecided : (f r).status ≠ .pending) :
    Settles s user r (f r) (Table.rewrite AccessRequest.id
      instance_.id f s.accessRequests) where
  mem := hMem
  pending := hPending
  id := hId
  userId := hUser
  decided := hDecided
  requests := by
    rw [hInstance]
    exact Table.rewrite_of_mem hValid.ids hMem

/- A flush among statements that spare users. -/
theorem Turn.of_flush
    {flush : List IdentityWrite}
    {after : UserAccessStatus}
    {requests : List AccessRequest}
    {events : List UserAccessEvent}
    (hRow : s.findUser owner.id = some owner)
    (hHeld : .exclusive (.userRow owner.id) ∈ held)
    (hOwn : (onUserAll flush owner).accessStatus = after)
    (hOthers : ∀ row : User, row.id ≠ owner.id →
      onUserAll flush row = row)
    (hBefore : SparesUsers vs)
    (hAfter : SparesUsers ws)
    (hRequests : onRequestsAll (vs ++ flush ++ ws)
      s.accessRequests = requests)
    (hEvents : (vs ++ flush ++ ws).filterMap accessEvent? =
      events) :
    Turn held s (vs ++ flush ++ ws) owner after requests
      events where
  row := hRow
  locked := hHeld
  status := by
    rw [onUserAll_append, onUserAll_append, hBefore, hAfter]
    exact hOwn
  spared row _ hOther := by
    rw [onUserAll_append, onUserAll_append, hBefore, hAfter,
      hOthers row hOther]
  requests := hRequests
  events := hEvents

/- What the head of the locked pending requests stands for. -/
theorem SawPending.head_none
    {session : Session}
    {user : Uuid}
    {pending : List AccessRequest}
    (hD : FixesRequests D)
    (h : SawPending D session user pending s)
    (hHead : pending.head? = none) :
    ∀ r ∈ s.accessRequests, ¬ r.isPendingOf user := by
  intro r hr hPending
  have hMem : r ∈ pendingAccessRequests user s :=
    mem_pendingAccessRequests.mpr ⟨hr, hPending⟩
  rw [h.eq hD, List.head?_eq_none_iff, List.map_eq_nil_iff]
    at hHead
  rw [hHead] at hMem
  cases hMem

theorem SawPending.head_some
    {session : Session}
    {user : Uuid}
    {pending : List AccessRequest}
    {found : AccessRequest}
    (hD : FixesRequests D)
    (h : SawPending D session user pending s)
    (hHead : pending.head? = some found) :
    ∃ r ∈ s.accessRequests, r.isPendingOf user ∧
      found = loadedRequest session.accessRequests r := by
  have hMem : found ∈ pending := List.mem_of_mem_head? hHead
  rw [h.eq hD] at hMem
  rcases List.mem_map.mp hMem with ⟨r, hr, rfl⟩
  rcases mem_pendingAccessRequests.mp hr with ⟨hRow, hPending⟩
  exact ⟨r, hRow, hPending, rfl⟩

/- An instance has the id of its row. -/
theorem loadedRequest_id
    (session : List AccessRequest)
    (r : AccessRequest) :
    (loadedRequest session r).id = r.id := by
  unfold loadedRequest
  cases hFind : Table.find AccessRequest.id r.id session with
  | none => rfl
  | some x => exact Table.key_of_find hFind

theorem loadedRequest_pending
    {session : List AccessRequest}
    {r : AccessRequest}
    (hSession : ∀ x ∈ session, x.status = .pending)
    (hPending : r.status = .pending) :
    (loadedRequest session r).status = .pending := by
  unfold loadedRequest
  cases hFind : Table.find AccessRequest.id r.id session with
  | none => exact hPending
  | some x => exact hSession x (Table.mem_of_find hFind)

theorem pending_of_isPendingOf
    {user : Uuid}
    {r : AccessRequest}
    (h : r.isPendingOf user) :
    r.userId = user ∧ r.status = .pending := by
  simpa [AccessRequest.isPendingOf] using h

/- The flush of a decision over a pending row decides it. -/
theorem status_updated
    {instance_ changed row : AccessRequest}
    (hInstance : instance_.status = .pending)
    (hChanged : changed.status ≠ .pending) :
    (AccessRequest.updated instance_ changed row).status =
      changed.status := by
  simp only [AccessRequest.updated]
  rw [if_neg]
  rw [hInstance]
  exact hChanged

/- What a decision makes of the request it has found. -/
theorem Decided.settles
    {session : Session}
    {decision : AccessRequestStatus}
    {done : Flushed AccessDecision}
    (noted : AccessRequest)
    (hD : FixesRequests D)
    (hValid : RequestsValid s)
    (hSession : ∀ x ∈ session.accessRequests,
      x.status = .pending)
    (h : Decided D env session actor target decision done ws
      held s)
    (hStatus : noted.status = done.value.request.status)
    (hRest : SparesAccess vs) :
    ∃ r r', Settles s target.id r r' (onRequestsAll
        (ws ++ requestWrites done.value.request noted ++ vs)
          s.accessRequests) ∧
      done.value.request.id = r.id ∧
      r'.status = decision ∧
      done.value.request.status = decision := by
  rcases h.request with ⟨found, rest, hSaw, hRequest, rfl⟩
  rcases hSaw.head_some hD rfl with
    ⟨r, hMem, hPending, hFound⟩
  have hId : found.id = r.id := by
    rw [hFound]
    exact loadedRequest_id _ r
  have hInstance : found.status = .pending := by
    rw [hFound]
    exact loadedRequest_pending hSession
      (pending_of_isPendingOf hPending).2
  have hDecision : decision ≠ .pending := by
    rcases h.choice with rfl | rfl <;> simp
  have hDecided : done.value.request.status = decision := by
    rw [hRequest]
    rfl
  have hSame : done.value.request.id = found.id := by
    rw [hRequest]
    rfl
  let f := AccessRequest.updated done.value.request noted ∘
    AccessRequest.updated found done.value.request
  have hStatus' : (f r).status = decision := by
    simp only [f, Function.comp_apply, AccessRequest.updated,
      hStatus, if_true]
    rw [if_neg]
    · exact hDecided
    · rw [hDecided, hInstance]
      exact hDecision
  refine ⟨r, f r, ?_, hSame.trans hId, hStatus', hDecided⟩
  have hRows : onRequestsAll ([.user target
      (transitionUserAccess env target actor.id
        (decidedStatus decision)).1] ++
      requestWrites found done.value.request ++
      [.accessEvent done.value.event] ++
      requestWrites done.value.request noted ++ vs)
        s.accessRequests =
      Table.rewrite AccessRequest.id found.id f
        s.accessRequests := by
    rw [onRequestsAll_append, hRest.requests,
      onRequestsAll_append, onRequestsAll_append,
      onRequestsAll_append, onRequestsAll_requestWrites,
      onRequestsAll_requestWrites, hSame]
    apply Table.rewrite_rewrite
    intro _
    rfl
  rw [hRows]
  exact .of_updated hValid hMem hPending hId rfl rfl
    (hStatus' ▸ hDecision)

theorem Decided.turn
    {session : Session}
    {decision : AccessRequestStatus}
    {done : Flushed AccessDecision}
    (noted : AccessRequest)
    (h : Decided D env session actor target decision done ws
      held s)
    (hUsers : SparesUsers vs)
    (hRest : SparesAccess vs) :
    Turn held s
      (ws ++ requestWrites done.value.request noted ++ vs)
      target (decidedStatus decision)
      (onRequestsAll
        (ws ++ requestWrites done.value.request noted ++ vs)
          s.accessRequests) [done.value.event] := by
  rcases h.request with ⟨found, rest, _, _, hWrites⟩
  have hSpares : SparesUsers
      (requestWrites found done.value.request ++
        [.accessEvent done.value.event] ++
        requestWrites done.value.request noted ++ vs) :=
    ((sparesUsers_requestWrites.append fun _ => rfl).append
      sparesUsers_requestWrites).append hUsers
  have hEvents : (ws ++ requestWrites done.value.request noted ++
      vs).filterMap accessEvent? = [done.value.event] := by
    rw [hWrites]
    simp only [List.filterMap_append, hRest.events,
      accessEvents_requestWrites]
    rfl
  have hSplit : ws ++ requestWrites done.value.request noted ++
      vs = [] ++ [.user target (transitionUserAccess env target
        actor.id (decidedStatus decision)).1] ++
      (requestWrites found done.value.request ++
        [.accessEvent done.value.event] ++
        requestWrites done.value.request noted ++ vs) := by
    rw [hWrites]
    simp only [List.append_assoc, List.nil_append]
  rw [hSplit] at hEvents ⊢
  apply Turn.of_flush h.changes.row h.changes.held ?_ ?_
    (fun _ => rfl) hSpares rfl hEvents
  · simp only [onUserAll, IdentityWrite.onUser, if_true]
    rw [User.updated_self h.changes.id]
    exact transitionUserAccess_accessStatus
  · intro row hOther
    exact if_neg hOther

/- The event of a decision moves from the pending status. -/
theorem Decided.moves
    {session : Session}
    {decision : AccessRequestStatus}
    {done : Flushed AccessDecision}
    (h : Decided D env session actor target decision done ws
      held s) :
    Moves target.id target.accessStatus
      (decidedStatus decision) [done.value.event] := by
  have hMoves := moves_transition env target actor.id
    (decidedStatus decision)
  rw [h.event] at hMoves
  exact hMoves

/- The flush of a row makes the status of the instance. -/
theorem FlushesRow.turn
    {changed : User}
    {flush : List IdentityWrite}
    {requests : List AccessRequest}
    {events : List UserAccessEvent}
    (h : FlushesRow target changed flush updates)
    (hRow : s.findUser target.id = some target)
    (hHeld : .exclusive (.userRow target.id) ∈ held)
    (hId : changed.id = target.id)
    (hBefore : SparesUsers vs)
    (hAfter : SparesUsers ws)
    (hRequests : onRequestsAll (vs ++ flush ++ ws)
      s.accessRequests = requests)
    (hEvents : (vs ++ flush ++ ws).filterMap accessEvent? =
      events) :
    Turn held s (vs ++ flush ++ ws) target
      changed.accessStatus requests events :=
  .of_flush hRow hHeld (by rw [h.onUserAll hId])
    (fun _ hOther => h.spares hOther) hBefore hAfter hRequests
    hEvents

theorem FlushesRow.sparesAccess
    {changed : User}
    (h : FlushesRow target changed ws updates) :
    SparesAccess ws := by
  rcases h.cases with ⟨_, rfl, _⟩ | ⟨_, rfl, _⟩ <;>
    exact ⟨fun _ => rfl, rfl⟩

theorem FlushesOver.sparesAccess
    {row changed : User}
    (h : FlushesOver row loaded changed ws updates) :
    SparesAccess ws := by
  rcases h.cases with ⟨_, rfl, _⟩ | ⟨_, rfl, _⟩ <;>
    exact ⟨fun _ => rfl, rfl⟩

/- The flush of an instance over a row that may differ. -/
theorem FlushesOver.turn
    {row changed : User}
    {requests : List AccessRequest}
    {events : List UserAccessEvent}
    (h : FlushesOver row loaded changed vs updates)
    (hRow : s.findUser loaded.id = some row)
    (hHeld : .exclusive (.userRow loaded.id) ∈ held)
    (hAfter : SparesUsers ws)
    (hRequests : onRequestsAll (vs ++ ws)
      s.accessRequests = requests)
    (hEvents : (vs ++ ws).filterMap accessEvent? = events) :
    Turn held s (vs ++ ws) row
      (if changed.accessStatus = loaded.accessStatus
        then row.accessStatus else changed.accessStatus)
      requests events := by
  have hId : row.id = loaded.id := Table.key_of_find hRow
  rw [← hId] at hRow hHeld
  rw [← List.nil_append vs] at hRequests hEvents ⊢
  refine Turn.of_flush hRow hHeld ?_ ?_ (fun _ => rfl) hAfter
    hRequests hEvents
  · rcases h.cases with ⟨rfl, rfl, _⟩ | ⟨_, rfl, _⟩
    · rw [if_pos rfl]
      rfl
    · simp only [onUserAll, IdentityWrite.onUser, hId, if_true,
        User.updated]
  · intro other hOther
    rcases h.onUser other with hSame | ⟨hSame, _⟩
    · exact hSame
    · exact absurd (hSame.trans hId.symm) hOther

/- The approval of the head leaves no pending request. -/
theorem clears_approval
    {session : Session}
    {user decidedBy : Uuid}
    {note : String}
    {pending : List AccessRequest}
    (hD : FixesRequests D)
    (hValid : RequestsValid s)
    (hSession : session.accessRequests = [])
    (h : SawPending D session user pending s) :
    Clears s user (onRequestsAll
      (approvalWrites env decidedBy note pending.head?)
      s.accessRequests) := by
  cases hHead : pending.head? with
  | none => exact .nothing (h.head_none hD hHead)
  | some found =>
      rcases h.head_some hD hHead with
        ⟨r, hMem, hPending, hFound⟩
      rw [hSession] at hFound
      change found = r at hFound
      subst hFound
      have hStatus := (pending_of_isPendingOf hPending).2
      rw [approvalWrites, onRequestsAll_requestWrites]
      apply Clears.settled
      apply Settles.of_updated hValid hMem hPending rfl rfl rfl
      rw [status_updated hStatus (by simp [approvedRequest])]
      simp [approvedRequest]

theorem accessEvents_approvalWrites
    {decidedBy : Uuid}
    {note : String}
    (request : Option AccessRequest) :
    (approvalWrites env decidedBy note request).filterMap
      accessEvent? = [] := by
  cases request with
  | none => rfl
  | some r => exact accessEvents_requestWrites r _

/- The event of a reconciliation is that of a transition. -/
theorem reconciled_event :
    (reconciled env loaded).2 =
      (transitionUserAccess env { loaded with role := .owner }
        loaded.id .approved).2 := by
  unfold reconciled
  dsimp only
  split
  · rfl
  · rename_i hNone
    rw [Bool.not_eq_true, Option.isSome_eq_false_iff,
      Option.isNone_iff_eq_none] at hNone
    split
    · exact hNone.symm
    · rfl

theorem Reconciled.turned
    (hD : FixesRequests D)
    (hValid : RequestsValid s)
    (h : Reconciled D env loaded ws updates held s) :
    Turned held s ws
      (.recovered loaded (reconciled env loaded).1) := by
  rcases h.writes with
    ⟨row, flush, roles, pending, hRow, hFlush, hRoles, hSaw,
      rfl⟩
  have hMade := (reconciled_sets env loaded).2
  have hSpares : SparesUsers (roles ++ (accessEventWrites
      (reconciled env loaded).2 ++ approvalWrites env loaded.id
        "configured recovery owner" pending.head?)) :=
    (sparesUsers_roles hRoles.roleEvents).append
      (sparesUsers_accessEvent.append
        sparesUsers_approvalWrites)
  have hRequests : onRequestsAll (flush ++ (roles ++
      (accessEventWrites (reconciled env loaded).2 ++
        approvalWrites env loaded.id
          "configured recovery owner" pending.head?)))
      s.accessRequests = onRequestsAll (approvalWrites env
        loaded.id "configured recovery owner" pending.head?)
          s.accessRequests := by
    rw [onRequestsAll_append, hFlush.sparesAccess.requests,
      onRequestsAll_append,
      (sparesAccess_roles hRoles.roleEvents).requests,
      onRequestsAll_append, onRequestsAll_accessEventWrites]
  have hEvents : (flush ++ (roles ++ (accessEventWrites
      (reconciled env loaded).2 ++ approvalWrites env loaded.id
        "configured recovery owner" pending.head?))).filterMap
        accessEvent? = (accessEventWrites
          (reconciled env loaded).2).filterMap
            accessEvent? := by
    simp only [List.filterMap_append,
      hFlush.sparesAccess.events,
      (sparesAccess_roles hRoles.roleEvents).events,
      accessEvents_approvalWrites, List.nil_append,
      List.append_nil]
  have hId : row.id = loaded.id := Table.key_of_find hRow
  have hTurn := hFlush.turn hRow h.locked hSpares hRequests
    hEvents
  rw [hMade] at hTurn
  rw [List.append_assoc, List.append_assoc]
  have hClears : Clears s row.id (onRequestsAll
      (approvalWrites env loaded.id "configured recovery owner"
        pending.head?) s.accessRequests) := by
    rw [hId]
    exact clears_approval hD hValid rfl hSaw
  refine .recovered hId.symm hTurn ?_ hClears
  by_cases hApproved : loaded.accessStatus = .approved
  · refine Or.inl ⟨hApproved, if_pos hApproved.symm, ?_⟩
    rw [reconciled_event, transitionUserAccess_of_eq
      (by exact hApproved)]
    rfl
  · refine Or.inr ⟨hApproved, if_neg (Ne.symm hApproved), ?_⟩
    rw [hId, reconciled_event]
    exact moves_transition env
      { loaded with role := .owner } loaded.id .approved

/- What a reset makes of access. -/
theorem Reset.turned
    {result : IdentityResult}
    (h : Reset D env actor target ws updates held s) :
    Turned held s ws result := by
  rcases h.writes with
    ⟨quiet, flush, roles, hQuiet, hFlush, hRoles, rfl⟩
  let first : List IdentityWrite :=
    [.revokeSessions [target.id] env.now] ++ quiet ++
      [.deletePending target.id]
  let last : List IdentityWrite := accessEventWrites
    (transitionUserAccess env target actor.id .blocked).2 ++
      (roles ++ [.deleteIdentity target.id])
  have hSilent := sparesAccess_silences hQuiet
  have hRoles' := sparesAccess_roles hRoles.roleEvents
  have hFirst : SparesUsers first :=
    (SparesUsers.append (fun _ => rfl) fun _ =>
      onUserAll_of_silences hQuiet).append fun _ => rfl
  have hLast : SparesUsers last :=
    sparesUsers_accessEvent.append
      ((sparesUsers_roles hRoles.roleEvents).append fun _ => rfl)
  have hRequests : onRequestsAll (first ++ flush ++ last)
      s.accessRequests = s.accessRequests.filter
        (fun r => ¬ r.isPendingOf target.id) := by
    simp only [first, last, onRequestsAll_append,
      onRequestsAll_accessEventWrites, hSilent.requests,
      hRoles'.requests, hFlush.sparesAccess.requests]
    rfl
  have hEvents : (first ++ flush ++ last).filterMap
      accessEvent? = (accessEventWrites (transitionUserAccess
        env target actor.id .blocked).2).filterMap
          accessEvent? := by
    simp only [first, last, List.filterMap_append,
      hSilent.events, hRoles'.events,
      hFlush.sparesAccess.events, List.nil_append,
      List.append_nil]
    exact List.append_nil _
  have hTurn := hFlush.turn h.changes.row h.changes.held
    h.changes.id hFirst hLast hRequests hEvents
  rw [show (resetUser env target actor.id).accessStatus =
    .blocked from transitionUserAccess_accessStatus] at hTurn
  rw [List.append_assoc, List.append_assoc]
  exact .cleared hTurn (moves_transition env target actor.id
    .blocked) .deleted

/- What a mutation makes of access. -/
theorem Mutated.turned
    {targetUserId : Uuid}
    {mutation : AdminMutation}
    {changed : Bool}
    {result : IdentityResult}
    (hD : FixesRequests D)
    (hValid : RequestsValid s)
    (h : Mutated D env actor targetUserId held s mutation ws
      updates changed) :
    Turned held s ws result := by
  cases h with
  | accessSame _ =>
      exact .nothing (fun _ _ => rfl) ⟨fun _ => rfl, rfl⟩
  | @access accessStatus target changed event hId hMoved
      hAllowed hChanges =>
      have hStatus : changed.accessStatus = accessStatus := by
        have hSame : (transitionUserAccess env target actor.id
            accessStatus).1.accessStatus = accessStatus :=
          transitionUserAccess_accessStatus
        rwa [hMoved] at hSame
      have hMoves := moves_transition env target
        actor.id accessStatus
      rw [hMoved] at hMoves
      have hRest : SparesUsers (.accessEvent event ::
          if accessStatus = .blocked then
            [.revokeSessions [target.id] env.now]
          else []) := by
        intro row
        split <;> rfl
      have hTurn : Turn held s ([] ++ [.user target changed] ++
          (.accessEvent event :: if accessStatus = .blocked then
            [.revokeSessions [target.id] env.now] else []))
          target accessStatus s.accessRequests [event] := by
        refine Turn.of_flush hChanges.row hChanges.held ?_ ?_
          (fun _ => rfl) hRest ?_ ?_
        · simp only [onUserAll, IdentityWrite.onUser, if_true]
          rw [User.updated_self hChanges.id]
          exact hStatus
        · intro row hOther
          exact if_neg hOther
        · split <;> rfl
        · split <;> rfl
      have hBoth : target.accessStatus ≠ .pending ∧
          accessStatus ≠ .pending := by
        simp only [allowedAccessChanges, List.mem_cons,
          Prod.mk.injEq, List.not_mem_nil, or_false]
          at hAllowed
        rcases hAllowed with ⟨h₁, h₂⟩ | ⟨h₁, h₂⟩ <;>
          simp [h₁, h₂]
      exact .access hTurn hMoves hBoth.1 hBoth.2
  | @decide decision target done _ identity hId hDecided _ =>
      have hSame : ∀ vs : List IdentityWrite,
          requestWrites done.value.request
            done.value.request ++ vs = vs := by
        intro vs
        rw [requestWrites, if_pos rfl, List.nil_append]
      have hRest : ∀ call, SparesAccess [notice env call] :=
        fun call => ⟨fun _ => rfl, rfl⟩
      rcases hDecided.settles done.value.request hD hValid
          (by simp) rfl (hRest _) with
        ⟨r, r', hSettles, _⟩
      have hTurn := hDecided.turn done.value.request
        (sparesUsers_notice _)
        (hRest (accessDecisionUserCall env.telegram
          done.value.request.id identity
          done.value.request.status))
      rw [List.append_assoc, hSame] at hTurn hSettles
      exact .cleared hTurn hDecided.moves (.settled hSettles)
  | roleSame _ =>
      exact .nothing (fun _ _ => rfl) ⟨fun _ => rfl, rfl⟩
  | @role newRole target hId _ _ _ hChanges =>
      refine .nothing ?_ ⟨fun _ => rfl, rfl⟩
      intro row hFind
      rcases onUserAll_user [] [.roleEvent (userRoleEvent env
          target actor.id newRole)] (fun _ => rfl)
          (fun _ => rfl) hFind hChanges.row hChanges.id with
        ⟨rfl, hRow⟩ | ⟨_, hRow⟩
      · have hStatus := congrArg User.accessStatus hRow
        exact hStatus
      · have hStatus := congrArg User.accessStatus hRow
        exact hStatus
  | @reset expected target _ _ hId hReset =>
      exact hReset.turned

/- A request is inserted where none is pending. -/
theorem AsksFor.inserts
    {user : Uuid}
    {request : AccessRequest}
    (hD : FixesRequests D)
    (h : AsksFor D env user held s request ws) :
    ∃ inserted, Inserts held s user inserted ∧
      onRequestsAll ws s.accessRequests =
        s.accessRequests ++ inserted ∧
      ws.filterMap accessEvent? = [] := by
  cases h with
  | existing hSaw =>
      rename_i rest
      have hPending := Saw.pending (P := fun ps =>
        ps = request :: rest) hD hSaw
      have hMem := mem_pendingAccessRequests.mp
        (hPending ▸ List.mem_cons_self)
      exact ⟨[], .nothing hMem.1 hMem.2,
        (List.append_nil _).symm, rfl⟩
  | new hSaw hPkey hNew =>
      have hPending := Saw.pending (P := fun ps => ps = [])
        hD hSaw
      rcases hNew with ⟨s₁, hReach, hFree⟩
      refine ⟨[newAccessRequest env user], .new ?_
        (hD.free hReach List.mem_cons_self hFree) hPkey ?_,
        rfl, rfl⟩
      · intro r hr hOwner
        have hMem := mem_pendingAccessRequests.mpr
          ⟨hr, hOwner⟩
        rw [hPending] at hMem
        cases hMem
      · simp [newAccessRequest, AccessRequest.isPendingOf]

/- What is made of access when a user asks for it. -/
theorem Requested.turned
    {answer : AccessRequestResult}
    (hD : FixesRequests D)
    (h : Requested D env loaded answer ws updates held s)
    (hUsers : SparesUsers vs)
    (hRest : SparesAccess vs) :
    Turned held s (ws ++ vs) (.requested loaded answer) := by
  rcases h.writes with
    ⟨row, flush, asks, hRow, hFlush, hAsks, rfl⟩
  have hId : row.id = loaded.id := Table.key_of_find hRow
  rcases hAsks.inserts hD with
    ⟨inserted, hInserts, hRows, hNone⟩
  rw [← hId] at hInserts
  have hSpares : SparesUsers (accessEventWrites
      (asked env loaded).2 ++ (asks ++ vs)) :=
    sparesUsers_accessEvent.append
      (hAsks.sparesUsers.append hUsers)
  have hRequests : onRequestsAll (flush ++ (accessEventWrites
      (asked env loaded).2 ++ (asks ++ vs)))
        s.accessRequests = s.accessRequests ++ inserted := by
    rw [onRequestsAll_append, hFlush.sparesAccess.requests,
      onRequestsAll_append, onRequestsAll_accessEventWrites,
      onRequestsAll_append, hRest.requests, hRows]
  have hEvents : (flush ++ (accessEventWrites
      (asked env loaded).2 ++ (asks ++ vs))).filterMap
        accessEvent? = (accessEventWrites
          (asked env loaded).2).filterMap accessEvent? := by
    simp only [List.filterMap_append,
      hFlush.sparesAccess.events, hNone, hRest.events,
      List.nil_append, List.append_nil]
  have hTurn := hFlush.turn hRow h.locked hSpares hRequests
    hEvents
  rw [List.append_assoc, List.append_assoc]
  refine .asked hId.symm hTurn ?_ hInserts
  rcases h.status with hPending | hRejected
  · have hAsked : asked env loaded = (loaded, none) := by
      rw [asked, if_neg]
      simp [hPending]
    left
    rw [hAsked]
    exact ⟨hPending, if_pos rfl, rfl⟩
  · have hAsked : asked env loaded = transitionUserAccess env
        loaded loaded.id .pending := by
      rw [asked, if_pos hRejected]
    have hNe : loaded.accessStatus ≠ .pending := by
      simp [hRejected]
    right
    rw [hAsked, transitionUserAccess_accessStatus, hId]
    exact ⟨hNe, if_neg (Ne.symm hNe),
      moves_transition env loaded loaded.id .pending⟩

theorem Pressed.turned
    {press : AccessCallback}
    {outcome : CallbackOutcome}
    {result : IdentityResult}
    (hD : FixesRequests D)
    (hValid : RequestsValid s)
    (h : Pressed D env press held s outcome ws updates) :
    Turned held s ws result := by
  cases h with
  | unchanged _ _ _ =>
      exact .nothing (fun row _ => by
        rw [sparesUsers_answerWrites row])
        sparesAccess_answerWrites
  | @decided loaded actor target action done _ identity
      hStatus _ hDecided _ _ =>
      let rest := notice env (accessDecisionUserCall
          env.telegram done.value.request.id identity
          done.value.request.status) ::
        answerWrites env press
          (decisionLabel done.value.request.status true)
      have hRest : SparesAccess rest :=
        (show SparesAccess [notice env _] from
          ⟨fun _ => rfl, rfl⟩).append sparesAccess_answerWrites
      have hUsers : SparesUsers rest :=
        (sparesUsers_notice _).append sparesUsers_answerWrites
      rcases hDecided.settles (annotated done.value.request) hD
          hValid (by simpa using hStatus) rfl hRest with
        ⟨r, r', hSettles, _⟩
      have hTurn := hDecided.turn
        (annotated done.value.request) hUsers hRest
      rw [List.append_assoc _ [notice env _]]
      exact .cleared hTurn hDecided.moves (.settled hSettles)

/- What a rotation makes of access. -/
theorem Rotated.turned
    {result : IdentityResult}
    (hD : FixesRequests D)
    (hValid : RequestsValid s)
    (h : Rotated D env owner target ws updates held s) :
    Turned held s ws result := by
  have hOnUser : ∀ row, s.findUser row.id = some row → _ :=
    fun _ hFind => h.onUser hFind
  rcases h.writes with
    ⟨flush, approved, pending, hFlush, hSaw, hWrites, _⟩
  have hMoves : Moves target.id target.accessStatus .approved
      ((accessEventWrites (approvedTarget env target
        owner.id).2).filterMap accessEvent?) := by
    unfold approvedTarget
    split
    · exact moves_transition env target owner.id .approved
    · rename_i hApproved
      rw [not_not.mp hApproved]
      exact .stays
  have hRequests : onRequestsAll ws s.accessRequests =
      onRequestsAll (approvalWrites env owner.id
        "recovery OWNER rotation" pending.head?)
          s.accessRequests := by
    rw [hWrites]
    simp only [onRequestsAll_append,
      onRequestsAll_accessEventWrites, onRequestsAll,
      onRequests, hFlush.sparesAccess.requests]
  have hEvents : ws.filterMap accessEvent? =
      (accessEventWrites (approvedTarget env target
        owner.id).2).filterMap accessEvent? := by
    rw [hWrites]
    simp only [List.filterMap_append,
      hFlush.sparesAccess.events, accessEvents_approvalWrites,
      List.append_assoc]
    exact List.append_nil _
  have hClears : Clears s target.id (onRequestsAll
      (approvalWrites env owner.id "recovery OWNER rotation"
        pending.head?) s.accessRequests) :=
    clears_approval hD hValid rfl hSaw
  rw [← hRequests] at hClears
  have hTurn : Turn held s ws target .approved
      (onRequestsAll ws s.accessRequests)
      ((accessEventWrites (approvedTarget env target
        owner.id).2).filterMap accessEvent?) := by
    refine ⟨h.users.targetRow, h.users.heldTarget, ?_, ?_, rfl,
      hEvents⟩
    · rcases hOnUser target h.users.targetRow with
        ⟨hNe, _⟩ | ⟨hOwner, _⟩ | ⟨_, hRow⟩
      · exact absurd rfl hNe.1
      · exact absurd (congrArg User.id hOwner).symm
          h.users.other
      · rw [hRow]
        exact approvedTarget_accessStatus
    · intro row hFind hOther
      rcases hOnUser row hFind with
        ⟨_, hSame⟩ | ⟨rfl, hRow⟩ | ⟨rfl, _⟩
      · rw [hSame]
      · rw [hRow]
      · exact absurd rfl hOther
  exact .cleared hTurn hMoves hClears

/- What a transaction makes of access. -/
theorem Wrote.turned
    {result : IdentityResult}
    (hD : FixesRequests D)
    (hValid : RequestsValid s)
    (h : Wrote D env held s result ws) :
    Turned held s ws result := by
  cases h with
  | recovered hReconciled =>
      exact hReconciled.turned hD hValid
  | managed _ hMutated => exact hMutated.turned hD hValid
  | requested hRequested hAnnounces _ =>
      exact hRequested.turned hD hAnnounces.sparesUsers
        hAnnounces.sparesAccess
  | decided hPressed => exact hPressed.turned hD hValid
  | rotated hRotated => exact hRotated.turned hD hValid

end Turns
