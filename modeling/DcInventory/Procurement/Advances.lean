import DcInventory.Procurement.StoredLines

/-
  This file says what a command of procurement has committed
  when it returns: nothing, if it repeats a command that was
  accepted before, and otherwise one change of the header of
  its request, with one event that records it.

  Key definitions include:
    * `ProcurementCommand.eventType`
    * `Started`
    * `Turns`
    * `Writes`
    * `Accepted`

  Key theorems include:
    * `command_cases`
    * `createRequest_cases`
-/

namespace Procurement

------------------------------------------------------------
-- Commands
------------------------------------------------------------

namespace ProcurementCommand

/- The event that the command records. -/
def eventType : ProcurementCommand → ProcurementEventType
| takeOwnership _ => .assignmentTaken
| transferManager _ => .assignmentTransferred
| managerAccept _ => .managerAccepted
| returnForCorrection _ => .correctionRequested
| transferToAcceptance _ => .transferredToAcceptance
| submitRevision _ => .revisionSubmitted
| bindLine _ => .lineBound
| createAndBindLine _ => .lineBound
| reportDiscrepancy _ => .discrepancyReported
| completeAcceptance _ => .completed

/- The text that the fingerprint of the command is taken of. -/
def serialized : ProcurementCommand → Text
| takeOwnership payload => payload.serialized
| transferManager payload => payload.serialized
| managerAccept payload => payload.serialized
| returnForCorrection payload => payload.serialized
| transferToAcceptance payload => payload.serialized
| submitRevision payload => payload.serialized
| bindLine payload => payload.serialized
| createAndBindLine payload => payload.serialized
| reportDiscrepancy payload => payload.serialized
| completeAcceptance payload => payload.serialized

def capabilities : ProcurementCommand → List Capability
| takeOwnership _ => [.procurementManage]
| transferManager _ => [.procurementManage]
| managerAccept _ => [.procurementManage]
| returnForCorrection _ => [.procurementManage]
| transferToAcceptance _ => [.procurementManage]
| submitRevision _ => [.procurementCreate]
| bindLine _ => [.procurementAccept]
| createAndBindLine _ => [.procurementAccept, .catalogManage]
| reportDiscrepancy _ => [.procurementAccept]
| completeAcceptance _ => [.procurementAccept]

end ProcurementCommand

------------------------------------------------------------
-- Starts
------------------------------------------------------------

/- The event was recorded with the key of an actor. -/
def HasKey
    (requestId actorUserId : Uuid)
    (key : Text)
    (event : ProcurementEvent) : Prop :=
  event.requestId = requestId ∧
    event.actorUserId = actorUserId ∧
      event.clientRequestId = key

instance
    (requestId actorUserId : Uuid)
    (key : Text)
    (event : ProcurementEvent) :
    Decidable (HasKey requestId actorUserId key event) :=
  inferInstanceAs (Decidable (_ ∧ _ ∧ _))

/- What is known when a command has been let through. -/
structure Started
    (env : ProcurementEnv)
    (s : Db)
    (requestId actorUserId : Uuid)
    (command : ProcurementCommand)
    (expected : Expected) : Prop where
  loaded : (getRequestRecord requestId true).run s =
    .ok (expected.record, s)
  key : normalizeClientRequestId
    command.expects.clientRequestId = .ok expected.key
  fingerprint : expected.fingerprint =
    env.sha256 command.serialized
  actor : (s.findUser actorUserId).any
    (mayAct command.capabilities) = true
  repeats : ∀ event, expected.replay = some event →
    s.procurementEvents.find? (fun e =>
        HasKey requestId actorUserId expected.key e) =
      some event ∧
    event.eventType = command.eventType ∧
    event.requestFingerprint = expected.fingerprint
  fresh : expected.replay = none →
    (∀ event ∈ s.procurementEvents,
      ¬ HasKey requestId actorUserId expected.key event) ∧
    expected.record.request.stateVersion =
      command.expects.expectedStateVersion ∧
    expected.record.request.currentRevisionId =
      command.expects.expectedRevisionId

section Starts

variable {env : ProcurementEnv}
variable {s s' : Db}
variable {requestId actorUserId : Uuid}
variable {command : ProcurementCommand}
variable {record : ProcurementRecord}

theorem Started.found
    {expected : Expected}
    (h : Started env s requestId actorUserId command expected) :
    s.findRequest requestId = some expected.record.request :=
  (findRequest_of_getRequestRecord h.loaded).2.1

theorem started_of_run
    {expected : Expected}
    (h : (startCommand env requestId command.expects
      command.serialized actorUserId command.eventType
        command.capabilities).run s = .ok (expected, s')) :
    s' = s ∧
      Started env s requestId actorUserId command expected := by
  unfold startCommand at h
  rcases Txn.run_bind_eq_ok_iff.mp h with
    ⟨found, s₁, hExpected, hRest⟩
  unfold lockAndRequireActorCapabilities at hRest
  simp only [Txn.run_bind_eq_ok_iff, Txn.run_acquire_eq_ok_iff,
    Txn.run_query_eq_ok_iff, Txn.run_require_eq_ok_iff,
    Txn.run_pure_eq_ok_iff] at hRest
  rcases hRest with ⟨_, _, ⟨_, _, rfl, _, _, ⟨rfl, rfl⟩, hActor,
    rfl⟩, rfl, rfl⟩
  unfold lockAndValidateExpected at hExpected
  rcases Txn.run_bind_eq_ok_iff.mp hExpected with
    ⟨record, s₁, hLoad, hAfter⟩
  rcases findRequest_of_getRequestRecord hLoad with ⟨rfl, _⟩
  rcases Txn.run_bind_eq_ok_iff.mp hAfter with
    ⟨key, s₂, hNormal, hReplay⟩
  rcases Txn.run_ofExcept_eq_ok_iff.mp hNormal with ⟨hKey, rfl⟩
  dsimp only at hReplay
  rcases Txn.run_bind_eq_ok_iff.mp hReplay with
    ⟨previous, s₃, hQuery, hResult⟩
  rcases Txn.run_query_eq_ok_iff.mp hQuery with
    ⟨hPrevious, rfl⟩
  cases previous with
  | none =>
      simp only [Txn.run_bind_eq_ok_iff,
        Txn.run_require_eq_ok_iff, Txn.run_pure_eq_ok_iff]
        at hResult
      rcases hResult with ⟨_, _, ⟨hCurrent, rfl⟩, rfl, rfl⟩
      refine ⟨rfl, hLoad, hKey, rfl, hActor, ?_, fun _ =>
        ⟨fun event hMem hUsed => ?_, hCurrent⟩⟩
      · intro event hEvent
        cases hEvent
      · have hNone := List.find?_eq_none.mp hPrevious.symm
          event hMem
        exact hNone (decide_eq_true hUsed)
  | some event =>
      simp only [Txn.run_bind_eq_ok_iff,
        Txn.run_require_eq_ok_iff, Txn.run_pure_eq_ok_iff]
        at hResult
      rcases hResult with
        ⟨_, _, ⟨hType, rfl⟩, _, _, ⟨hPrint, rfl⟩, rfl, rfl⟩
      refine ⟨rfl, hLoad, hKey, rfl, hActor, ?_, ?_⟩
      · intro found hFound
        cases hFound
        exact ⟨hPrevious.symm, hType, hPrint⟩
      · intro hNone
        cases hNone

/- A command found the event of an earlier one with its key. -/
structure Repeated
    (env : ProcurementEnv)
    (s s' : Db)
    (requestId actorUserId : Uuid)
    (command : ProcurementCommand) : Prop where
  same : s' = s
  started : ∃ expected,
    Started env s requestId actorUserId command expected ∧
      expected.replay.isSome = true

/- A command repeats an earlier one, or carries itself out. -/
theorem run_command_cases
    (command : ProcurementCommand)
    {body : Expected → Op ProcurementRecord}
    (hRun : (do
      let expected ← startCommand env requestId command.expects
        command.serialized actorUserId command.eventType
          command.capabilities
      if expected.replay.isSome then pure expected.record
      else body expected).run s = .ok (record, s')) :
    Repeated env s s' requestId actorUserId command ∨
      ∃ expected,
        Started env s requestId actorUserId command expected ∧
        expected.replay = none ∧
          (body expected).run s = .ok (record, s') := by
  rcases Txn.run_bind_eq_ok_iff.mp hRun with
    ⟨expected, s₁, hStart, hRest⟩
  rcases started_of_run hStart with ⟨rfl, hStarted⟩
  split at hRest
  · rename_i hReplay
    rcases Txn.run_pure_eq_ok_iff.mp hRest with ⟨rfl, rfl⟩
    exact .inl ⟨rfl, expected, hStarted, hReplay⟩
  · rename_i hFresh
    exact .inr ⟨expected, hStarted,
      Option.not_isSome_iff_eq_none.mp hFresh, hRest⟩

end Starts

------------------------------------------------------------
-- Changes
------------------------------------------------------------

/- The metadata of an event that assigns a manager. -/
def assignmentMetadata (before after : Uuid) : Json :=
  .ofFields [("from_manager_user_id".toList, .str before.str),
    ("to_manager_user_id".toList, .str after.str)]

/- The metadata of the event of an acceptance. -/
def receiptMetadata (movementId locationId : Uuid) : Json :=
  .ofFields [("movement_id".toList, .str movementId.str),
    ("receiving_location_id".toList, .str locationId.str)]

/- The fields of an event that keeps the status. -/
structure Quiet
    (old : ProcurementRequest)
    (event : ProcurementEvent) : Prop where
  fromStatus : event.fromStatus = none
  toStatus : event.toStatus = none
  revisionId : event.revisionId = some old.currentRevisionId
  active : old.status ≠ .completed

/- The fields of an event that changes the status. -/
structure Moves
    (old : ProcurementRequest)
    (target : ProcurementStatus)
    (revisionId : Uuid)
    (event : ProcurementEvent) : Prop where
  fromStatus : event.fromStatus = some old.status
  toStatus : event.toStatus = some target
  revisionId : event.revisionId = some revisionId
  allowed : transitionAllowed old.status target = true

/- How a command turns a header, and what its event says. -/
inductive Turns (old : ProcurementRequest) :
    ProcurementRequest → ProcurementEvent → Prop
| moved {target event}
    (hType : event.eventType ∈ [.managerAccepted,
      .correctionRequested, .transferredToAcceptance])
    (hTarget : target ≠ .completed)
    (hMoves : Moves old target old.currentRevisionId event) :
    Turns old { old with
      status := target
      stateVersion := old.stateVersion + 1 } event
| submitted {revisionId event}
    (hType : event.eventType = .revisionSubmitted)
    (hMoves : Moves old .agreementPendingManager revisionId
      event) :
    Turns old { old with
      status := .agreementPendingManager
      currentRevisionId := revisionId
      stateVersion := old.stateVersion + 1 } event
| assigned {manager event}
    (hType : event.eventType ∈
      [.assignmentTaken, .assignmentTransferred])
    (hQuiet : Quiet old event)
    (hOther : old.assignedManagerUserId ≠ manager)
    (hMetadata : event.metadata = some
      (assignmentMetadata old.assignedManagerUserId manager)) :
    Turns old { old with
      assignedManagerUserId := manager
      stateVersion := old.stateVersion + 1 } event
| noted {event}
    (hType : event.eventType ∈
      [.lineBound, .discrepancyReported])
    (hQuiet : Quiet old event) :
    Turns old { old with
      stateVersion := old.stateVersion + 1 } event
| completed {movementId locationId now event}
    (hType : event.eventType = .completed)
    (hMoves : Moves old .completed old.currentRevisionId event)
    (hMetadata : event.metadata = some
      (receiptMetadata movementId locationId)) :
    Turns old { old with
      status := .completed
      stateVersion := old.stateVersion + 1
      finalMovementId := some movementId
      completedAt := some now } event

/- The rows that are inserted beside the event. -/
structure Additions where
  revisions : List ProcurementRevision
  lines : List ProcurementRevisionLine
  bindings : List ProcurementLineCatalogBinding

def Additions.none : Additions := ⟨[], [], []⟩

/- The tables of procurement after an accepted command. -/
structure Writes
    (s s' : Db)
    (new : ProcurementRequest)
    (event : ProcurementEvent)
    (added : Additions) : Prop where
  requests : s'.procurementRequests =
    Table.rewrite ProcurementRequest.id new.id (fun _ => new)
      s.procurementRequests
  revisions : s'.procurementRevisions =
    s.procurementRevisions ++ added.revisions
  lines : s'.procurementRevisionLines =
    s.procurementRevisionLines ++ added.lines
  bindings : s'.procurementBindings =
    s.procurementBindings ++ added.bindings
  events : s'.procurementEvents =
    s.procurementEvents ++ [event]

section Statements

variable {env : ProcurementEnv}
variable {s s' s'' : Db}

theorem SameProcurement.refl (s : Db) : SameProcurement s s :=
  ⟨rfl, rfl, rfl, rfl, rfl⟩

theorem SameProcurement.trans
    (h : SameProcurement s s')
    (h' : SameProcurement s' s'') :
    SameProcurement s s'' where
  requests := h'.requests.trans h.requests
  revisions := h'.revisions.trans h.revisions
  lines := h'.lines.trans h.lines
  bindings := h'.bindings.trans h.bindings
  events := h'.events.trans h.events

/- Only other tables are written. -/
def SparesProcurement {α : Type} (p : Op α) : Prop :=
  p.WritesOnly (fun change => ∀ s, SameProcurement s (change s))

theorem SparesProcurement.same
    {α : Type}
    {p : Op α}
    {r : α}
    (h : SparesProcurement p)
    (hRun : p.run s = .ok (r, s')) :
    SameProcurement s s' :=
  (Txn.WritesOnly.keeps (P := fun t => SameProcurement s t) h
    (fun _ hChange t hSame => hSame.trans (hChange t))) s r s'
      (.refl s) hRun

theorem tell_spares
    (request : ProcurementRequest)
    (action : String)
    (lines : List ProcurementRevisionLine)
    (recipients : List Uuid) :
    SparesProcurement
      (tell env request action lines recipients) := by
  have hCalls : ∀ calls,
      SparesProcurement (enqueueCalls env calls) := by
    intro calls
    induction calls with
    | nil => trivial
    | cons call calls ih =>
        refine .bind ?_ fun _ => ih
        refine .bind (by simp) fun _ => ?_
        refine .bind (by simp) fun _ => ?_
        refine .bind (by simp) fun _ => ?_
        refine .bind (by simp) fun _ => ?_
        exact (Txn.writesOnly_update _).mpr fun s =>
          ⟨rfl, rfl, rfl, rfl, rfl⟩
  refine .bind (by simp) fun found => ?_
  split
  · trivial
  · exact .bind (by simp) fun _ => hCalls _

theorem createItem_spares
    (env : Catalog.CatalogEnv)
    (newId : Uuid)
    (now : Time)
    (payload : Catalog.ItemCreate) :
    SparesProcurement
      (Catalog.createItem env newId now payload) := by
  refine .bind (by simp) fun _ => ?_
  refine .bind (by simp) fun _ => ?_
  refine .bind (by simp) fun _ => ?_
  refine .bind (by simp) fun _ => ?_
  refine .bind (by simp) fun _ => ?_
  refine .bind (by simp) fun _ => ?_
  refine .bind (by simp) fun _ => ?_
  refine .bind (by simp) fun _ => ?_
  refine .bind (by simp) fun _ => ?_
  refine .bind ((Txn.writesOnly_update _).mpr fun s =>
    ⟨rfl, rfl, rfl, rfl, rfl⟩) fun _ => ?_
  refine .bind ?_ fun _ => by simp
  refine .bind (by simp) fun _ => ?_
  refine .bind (by simp) fun _ => ?_
  refine .bind (by simp) fun _ => ?_
  exact (Txn.writesOnly_update _).mpr fun s =>
    ⟨rfl, rfl, rfl, rfl, rfl⟩

theorem createMovement_spares
    (env : MovementEnv)
    (call : MovementCall) :
    SparesProcurement (createMovement env call) := by
  refine (createMovement_writesOnly env call).mono ?_
  intro change hChange s
  have hOnly : change s = { s with
      movements := (change s).movements
      movementLines := (change s).movementLines
      stockBalances := (change s).stockBalances
      userItemCustodyBalances :=
        (change s).userItemCustodyBalances } :=
    hChange s
  exact {
    requests := by rw [hOnly]
    revisions := by rw [hOnly]
    lines := by rw [hOnly]
    bindings := by rw [hOnly]
    events := by rw [hOnly] }

theorem updateRequest_run
    {new : ProcurementRequest}
    {u : Unit}
    (h : (updateRequest new).run s = .ok (u, s')) :
    s' = (ProcurementWrite.setRequest new).apply s ∧
      completionState new = true ∧
      finalMovementFree new s = true := by
  unfold updateRequest at h
  rcases Txn.run_bind_eq_ok_iff.mp h with
    ⟨old, s₁, hOld, hGuarded⟩
  rcases Txn.run_query_eq_ok_iff.mp hOld with ⟨_, rfl⟩
  rcases Txn.run_bind_eq_ok_iff.mp hGuarded with
    ⟨_, s₂, hGuard, hRest⟩
  have hSame := run_readsOnly
    (protectFinalMovementBinding_readsOnly old new) hGuard
  subst hSame
  unfold execute at hRest
  simp only [Txn.run_bind_eq_ok_iff, Txn.run_query_eq_ok_iff,
    Txn.run_require_eq_ok_iff, Txn.run_update_eq_ok_iff]
    at hRest
  rcases hRest with ⟨_, _, ⟨hState, rfl⟩, _, _, ⟨rfl, rfl⟩, _,
    _, ⟨hFree, rfl⟩, rfl⟩
  exact ⟨rfl, hState, hFree⟩

theorem insertRevision_run
    {new : ProcurementRevision}
    {u : Unit}
    (h : (insertRevision new).run s = .ok (u, s')) :
    s' = (ProcurementWrite.newRevision new).apply s ∧
      ∀ r ∈ s.procurementRevisions, r.id ≠ new.id := by
  unfold insertRevision execute at h
  simp only [Txn.run_bind_eq_ok_iff, Txn.run_acquire_eq_ok_iff,
    Txn.run_query_eq_ok_iff, Txn.run_require_eq_ok_iff,
    Txn.run_update_eq_ok_iff] at h
  rcases h with ⟨_, _, rfl, _, _, ⟨rfl, rfl⟩, _, _,
    ⟨hNew, rfl⟩, rfl⟩
  refine ⟨rfl, fun r hMem hEq => hNew ?_⟩
  rw [List.any_eq_true]
  exact ⟨r, hMem, decide_eq_true hEq⟩

/- Lines are inserted into revisions that are not published. -/
def Published (revisionId : Uuid) (s : Db) : Prop :=
  ∃ event ∈ s.procurementEvents,
    event.revisionId = some revisionId ∧
      publishes event.eventType = true

theorem insertLines_run
    {lines : List ProcurementRevisionLine}
    {u : Unit}
    (h : (insertLines lines).run s = .ok (u, s')) :
    s' = { s with
      procurementRevisionLines :=
        s.procurementRevisionLines ++ lines } ∧
      ∀ line ∈ lines, ¬ Published line.revisionId s := by
  induction lines generalizing s with
  | nil =>
      cases h
      exact ⟨by rw [List.append_nil], fun _ hMem => nomatch hMem⟩
  | cons line lines ih =>
      rcases Txn.run_bind_eq_ok_iff.mp h with
        ⟨_, s₁, hLine, hRest⟩
      unfold insertLine execute at hLine
      simp only [Txn.run_bind_eq_ok_iff,
        Txn.run_acquire_eq_ok_iff, Txn.run_query_eq_ok_iff,
        Txn.run_require_eq_ok_iff, Txn.run_update_eq_ok_iff]
        at hLine
      rcases hLine with ⟨_, _, rfl, _, _, ⟨rfl, rfl⟩, _, _,
        ⟨hOpen, rfl⟩, _, _, ⟨rfl, rfl⟩, _, _, ⟨_, rfl⟩, rfl⟩
      rcases ih hRest with ⟨rfl, hOthers⟩
      refine ⟨?_, ?_⟩
      · simp only [ProcurementWrite.apply, List.append_assoc,
          List.singleton_append]
      · intro other hMem
        rcases List.mem_cons.mp hMem with rfl | hMem
        · rintro ⟨event, hEvent, hSealed⟩
          apply hOpen
          rw [List.any_eq_true]
          exact ⟨event, hEvent, decide_eq_true hSealed⟩
        · exact hOthers other hMem

theorem insertBinding?_run
    {binding : Option ProcurementLineCatalogBinding}
    {u : Unit}
    (h : (insertBinding? binding).run s = .ok (u, s')) :
    s' = { s with
      procurementBindings :=
        s.procurementBindings ++ binding.toList } := by
  cases binding with
  | none =>
      cases h
      simp
  | some new =>
      unfold insertBinding? insertBinding execute at h
      simp only [Txn.run_bind_eq_ok_iff,
        Txn.run_query_eq_ok_iff, Txn.run_require_eq_ok_iff,
        Txn.run_update_eq_ok_iff] at h
      rcases h with ⟨_, _, ⟨rfl, rfl⟩, _, _, ⟨_, rfl⟩, rfl⟩
      rfl

/- The revision of a published event has all of its lines. -/
def Complete (revisionId : Uuid) (s : Db) : Prop :=
  ∃ revision, Table.find ProcurementRevision.id revisionId
      s.procurementRevisions = some revision ∧
    (s.procurementRevisionLines.filter (fun l =>
      l.revisionId = revisionId)).length = revision.lineCount

theorem validatePublication_run
    {new : ProcurementEvent}
    {u : Unit}
    (h : (validatePublication new).run s = .ok (u, s'))
    {revisionId : Uuid}
    (hRevision : new.revisionId = some revisionId)
    (hPublishes : publishes new.eventType = true) :
    Complete revisionId s := by
  unfold validatePublication at h
  rw [hRevision] at h
  simp only at h
  rw [if_pos hPublishes] at h
  simp only [Txn.run_bind_eq_ok_iff, Txn.run_acquire_eq_ok_iff,
    Txn.run_query_eq_ok_iff, Txn.run_getOrFail_eq_ok_iff,
    Txn.run_require_eq_ok_iff] at h
  rcases h with ⟨_, _, rfl, _, _, ⟨rfl, rfl⟩, revision, _,
    ⟨hFound, rfl⟩, _, _, ⟨rfl, rfl⟩, hCount, rfl⟩
  exact ⟨revision, hFound, hCount⟩

theorem insertEvent_run
    {new : ProcurementEvent}
    {u : Unit}
    (h : (insertEvent new).run s = .ok (u, s')) :
    s' = (ProcurementWrite.newEvent new).apply s ∧
      (∀ event ∈ s.procurementEvents, event.id ≠ new.id) ∧
      ∀ revisionId, new.revisionId = some revisionId →
        publishes new.eventType = true →
          Complete revisionId s := by
  unfold insertEvent at h
  rcases Txn.run_bind_eq_ok_iff.mp h with
    ⟨_, s₁, hGuard, hRest⟩
  have hSame := run_readsOnly (validatePublication_readsOnly new)
    hGuard
  subst hSame
  unfold execute at hRest
  simp only [Txn.run_bind_eq_ok_iff, Txn.run_query_eq_ok_iff,
    Txn.run_require_eq_ok_iff, Txn.run_update_eq_ok_iff]
    at hRest
  rcases hRest with ⟨_, _, ⟨rfl, rfl⟩, _, _, ⟨hId, rfl⟩, _, _,
    ⟨rfl, rfl⟩, _, _, ⟨_, rfl⟩, rfl⟩
  refine ⟨rfl, fun event hMem hSame => hId ?_,
    fun _ => validatePublication_run hGuard⟩
  rw [List.any_eq_true]
  exact ⟨event, hMem, decide_eq_true hSame⟩

end Statements

------------------------------------------------------------
-- Accepted Commands
------------------------------------------------------------

/- The rows that a command inserts beside its event. -/
inductive Adds
    (env : ProcurementEnv)
    (s : Db)
    (requestId : Uuid) :
    ProcurementCommand → ProcurementEvent → Additions → Prop
| nothing {command event}
    (hType : command.eventType ∉ [.revisionSubmitted,
      .lineBound]) :
    Adds env s requestId command event .none
| revision {payload event number lines revision}
    (hLast : ((revisionsOf requestId s).map
      ProcurementRevision.revisionNumber).max? = some number)
    (hPrepared : (prepareLines env payload.lines).run s =
      .ok (lines, s))
    (hId : event.revisionId = some revision.id)
    (hEnv : revision.id = env.revisionId)
    (hRequest : revision.requestId = requestId)
    (hNumber : revision.revisionNumber = number + 1)
    (hCount : revision.lineCount = lines.length)
    (hNew : ∀ r ∈ s.procurementRevisions, r.id ≠ revision.id) :
    Adds env s requestId (.submitRevision payload) event
      ⟨[revision], lines, []⟩
| binding {command event binding}
    (hType : command.eventType = .lineBound) :
    Adds env s requestId command event ⟨[], [], [binding]⟩

/- A command was accepted and recorded by the event. -/
structure Accepted
    (env : ProcurementEnv)
    (s s' : Db)
    (requestId actorUserId : Uuid)
    (command : ProcurementCommand)
    (old new : ProcurementRequest)
    (event : ProcurementEvent)
    (added : Additions) : Prop where
  found : s.findRequest requestId = some old
  version : old.stateVersion =
    command.expects.expectedStateVersion
  revision : old.currentRevisionId =
    command.expects.expectedRevisionId
  key : normalizeClientRequestId
    command.expects.clientRequestId = .ok event.clientRequestId
  recorded : event.requestId = requestId ∧
    event.actorUserId = actorUserId
  unused : ∀ e ∈ s.procurementEvents,
    ¬ HasKey requestId actorUserId event.clientRequestId e
  type : event.eventType = command.eventType
  fingerprint : event.requestFingerprint =
    env.sha256 command.serialized
  turns : Turns old new event
  free : finalMovementFree new s = true
  ids : ∀ e ∈ s.procurementEvents, e.id ≠ event.id
  writes : Writes s s' new event added
  added : Adds env s requestId command event added
  published : ∀ revisionId, event.revisionId = some revisionId →
    publishes event.eventType = true → Complete revisionId s'

section Commands

variable {env : ProcurementEnv}
variable {s s' s'' : Db}
variable {requestId actorUserId : Uuid}
variable {command : ProcurementCommand}
variable {expected : Expected}
variable {record : ProcurementRecord}
variable {new : ProcurementRequest}
variable {event : ProcurementEvent}
variable {added : Additions}

theorem Turns.id_eq
    {old : ProcurementRequest}
    (h : Turns old new event) :
    new.id = old.id := by
  cases h <;> rfl

theorem Writes.before
    (h : Writes s' s'' new event added)
    (hSame : SameProcurement s s') :
    Writes s s'' new event added where
  requests := by rw [h.requests, hSame.requests]
  revisions := by rw [h.revisions, hSame.revisions]
  lines := by rw [h.lines, hSame.lines]
  bindings := by rw [h.bindings, hSame.bindings]
  events := by rw [h.events, hSame.events]

theorem Writes.after
    (h : Writes s s' new event added)
    (hSame : SameProcurement s' s'') :
    Writes s s'' new event added where
  requests := by rw [hSame.requests, h.requests]
  revisions := by rw [hSame.revisions, h.revisions]
  lines := by rw [hSame.lines, h.lines]
  bindings := by rw [hSame.bindings, h.bindings]
  events := by rw [hSame.events, h.events]

/- What `recordCommand` has written. -/
structure Recorded
    (env : ProcurementEnv)
    (s s' : Db)
    (actorUserId : Uuid)
    (expected : Expected)
    (eventType : ProcurementEventType)
    (fields : Except Error EventFields)
    (new : ProcurementRequest)
    (event : ProcurementEvent)
    (added : Additions) : Prop where
  hasFields : ∃ snapshot f, fields = .ok f ∧
    event = newEvent env new.id eventType actorUserId snapshot
      expected.key expected.fingerprint f
  free : finalMovementFree new s = true
  ids : ∀ e ∈ s.procurementEvents, e.id ≠ event.id
  writes : Writes s s' new event added

theorem recordCommand_run
    {binding : Option ProcurementLineCatalogBinding}
    {eventType : ProcurementEventType}
    {fields : Except Error EventFields}
    {u : Unit}
    (h : (recordCommand env expected new binding eventType
      actorUserId fields).run s = .ok (u, s')) :
    ∃ event, Recorded env s s' actorUserId expected eventType
      fields new event ⟨[], [], binding.toList⟩ := by
  unfold recordCommand at h
  rcases Txn.run_bind_eq_ok_iff.mp h with
    ⟨_, s₁, hUpdate, hBind⟩
  rcases updateRequest_run hUpdate with ⟨rfl, _, hFree⟩
  rcases Txn.run_bind_eq_ok_iff.mp hBind with
    ⟨_, s₂, hBinding, hActor⟩
  have hBound := insertBinding?_run hBinding
  subst hBound
  rcases Txn.run_bind_eq_ok_iff.mp hActor with
    ⟨snapshot, s₃, hSnapshot, hFields⟩
  have hSame := run_readsOnly (actorSnapshot_readsOnly _)
    hSnapshot
  subst hSame
  rcases Txn.run_bind_eq_ok_iff.mp hFields with
    ⟨f, s₄, hField, hEvent⟩
  rcases Txn.run_ofExcept_eq_ok_iff.mp hField with ⟨hOk, rfl⟩
  rcases insertEvent_run hEvent with ⟨rfl, hIds, _⟩
  refine ⟨_, ⟨snapshot, f, hOk, rfl⟩, hFree, hIds, ?_⟩
  exact ⟨rfl, (List.append_nil _).symm,
    (List.append_nil _).symm, rfl, rfl⟩

theorem Recorded.before
    {eventType : ProcurementEventType}
    {fields : Except Error EventFields}
    (h : Recorded env s' s'' actorUserId expected eventType
      fields new event added)
    (hSame : SameProcurement s s') :
    Recorded env s s'' actorUserId expected eventType fields new
      event added where
  hasFields := h.hasFields
  free := by
    have hFree := h.free
    unfold finalMovementFree at hFree ⊢
    rw [hSame.requests] at hFree
    exact hFree
  ids := by
    have hIds := h.ids
    rw [hSame.events] at hIds
    exact hIds
  writes := h.writes.before hSame

/- What is recorded of a command that was let through. -/
theorem Started.accepted
    {fields : Except Error EventFields}
    (h : Started env s requestId actorUserId command expected)
    (hFresh : expected.replay = none)
    (hRecorded : Recorded env s s' actorUserId expected
      command.eventType fields new event added)
    (hTurns : Turns expected.record.request new event)
    (hAdds : Adds env s requestId command event added)
    (hSilent : publishes command.eventType = false) :
    Accepted env s s' requestId actorUserId command
      expected.record.request new event added := by
  rcases h.fresh hFresh with ⟨hUnused, hVersion, hRevision⟩
  rcases hRecorded.hasFields with ⟨snapshot, f, _, rfl⟩
  have hId : new.id = requestId :=
    hTurns.id_eq.trans (Table.key_of_find h.found)
  exact {
    found := h.found
    version := hVersion
    revision := hRevision
    key := h.key
    recorded := ⟨hId, rfl⟩
    unused := hUnused
    type := rfl
    fingerprint := h.fingerprint
    turns := hTurns
    free := hRecorded.free
    ids := hRecorded.ids
    writes := hRecorded.writes
    added := hAdds
    published := by
      intro _ _ hPublishes
      rw [show (newEvent env new.id command.eventType actorUserId
        snapshot expected.key expected.fingerprint f).eventType =
          command.eventType from rfl, hSilent] at hPublishes
      cases hPublishes }

theorem Accepted.after
    {old : ProcurementRequest}
    (hSame : SameProcurement s' s'')
    (h : Accepted env s s' requestId actorUserId command old new
      event added) :
    Accepted env s s'' requestId actorUserId command old new
      event added :=
  { h with
    writes := h.writes.after hSame
    published := by
      intro revisionId hRevision hPublishes
      unfold Complete
      rw [hSame.revisions, hSame.lines]
      exact h.published revisionId hRevision hPublishes }

------------------------------------------------------------
-- One Command After The Other
------------------------------------------------------------

/- The outcome of a command that was let through. -/
def Ends
    (env : ProcurementEnv)
    (s s' : Db)
    (requestId actorUserId : Uuid)
    (command : ProcurementCommand)
    (old : ProcurementRequest) : Prop :=
  ∃ new event added, Accepted env s s' requestId actorUserId
    command old new event added

/- A command repeats an earlier one, or is accepted. -/
def Outcome
    (env : ProcurementEnv)
    (s s' : Db)
    (requestId actorUserId : Uuid)
    (command : ProcurementCommand) : Prop :=
  Repeated env s s' requestId actorUserId command ∨
    ∃ old, Ends env s s' requestId actorUserId command old

/- A status that may be reached is entered. -/
theorem moves_of_setStatus
    {old : ProcurementRequest}
    {target : ProcurementStatus}
    (h : setStatus old target = .ok new) :
    transitionAllowed old.status target = true ∧
      new = { old with
        status := target
        stateVersion := old.stateVersion + 1 } := by
  refine ⟨?_, setStatus_eq_ok h⟩
  unfold setStatus at h
  split at h
  · assumption
  · cases h

/-
  A command that records its event, and writes only other
  tables before and after that.
-/
theorem Started.ends
    {α : Type}
    {t : Db}
    {fields : Except Error EventFields}
    {binding : Option ProcurementLineCatalogBinding}
    {rest : Op α}
    {r : α}
    (h : Started env s requestId actorUserId command expected)
    (hFresh : expected.replay = none)
    (hSame : SameProcurement s t)
    (hSpares : SparesProcurement rest)
    (hSilent : publishes command.eventType = false)
    (hTurns : ∀ event, (∃ snapshot f, fields = .ok f ∧
      event = newEvent env new.id command.eventType actorUserId
        snapshot expected.key expected.fingerprint f) →
          Turns expected.record.request new event)
    (hAdds : ∀ event, Adds env s requestId command event
      ⟨[], [], binding.toList⟩)
    (hRun : (recordCommand env expected new binding
      command.eventType actorUserId fields >>=
        fun _ => rest).run t = .ok (r, s')) :
    Ends env s s' requestId actorUserId command
      expected.record.request := by
  rcases Txn.run_bind_eq_ok_iff.mp hRun with
    ⟨_, s₁, hRecord, hRest⟩
  rcases recordCommand_run hRecord with ⟨event, hRecorded⟩
  exact ⟨_, _, _, .after (hSpares.same hRest) (h.accepted hFresh
    (hRecorded.before hSame) (hTurns event hRecorded.hasFields)
      (hAdds event) hSilent)⟩

theorem managerAccept_ends
    {payload : ExpectedStateMutation}
    (hRun : (managerAccept env requestId payload
      actorUserId).run s = .ok (record, s')) :
    Outcome env s s' requestId actorUserId
      (.managerAccept payload) := by
  rcases run_command_cases (.managerAccept payload) hRun with
    hRepeated | ⟨expected, hStarted, hFresh, hBody⟩
  · exact .inl hRepeated
  · rcases Txn.run_bind_eq_ok_iff.mp hBody with
      ⟨new, s₁, hStatus, hRecord⟩
    rcases Txn.run_ofExcept_eq_ok_iff.mp hStatus with ⟨hSet, rfl⟩
    rcases moves_of_setStatus hSet with ⟨hAllowed, rfl⟩
    refine .inr ⟨_, hStarted.ends hFresh (.refl _)
      (getRequestRecord_readsOnly _ _).writesOnly rfl ?_
        (fun _ => .nothing (by simp [
          ProcurementCommand.eventType])) hRecord⟩
    rintro _ ⟨snapshot, f, hFields, rfl⟩
    cases hFields
    exact .moved (by simp [newEvent,
      ProcurementCommand.eventType]) (by simp)
        ⟨rfl, rfl, rfl, hAllowed⟩

theorem transferToAcceptance_ends
    {payload : ExpectedStateMutation}
    (hRun : (transferToAcceptance env requestId payload
      actorUserId).run s = .ok (record, s')) :
    Outcome env s s' requestId actorUserId
      (.transferToAcceptance payload) := by
  rcases run_command_cases (.transferToAcceptance payload)
    hRun with
    hRepeated | ⟨expected, hStarted, hFresh, hBody⟩
  · exact .inl hRepeated
  · rcases Txn.run_bind_eq_ok_iff.mp hBody with
      ⟨new, s₁, hStatus, hRecord⟩
    rcases Txn.run_ofExcept_eq_ok_iff.mp hStatus with ⟨hSet, rfl⟩
    rcases moves_of_setStatus hSet with ⟨hAllowed, rfl⟩
    refine .inr ⟨_, hStarted.ends hFresh (.refl _) ?_ rfl ?_
        (fun _ => .nothing (by simp [
          ProcurementCommand.eventType])) hRecord⟩
    · refine .bind (by simp) fun _ => ?_
      refine .bind (by simp) fun _ => ?_
      exact .bind (tell_spares _ _ _ _) fun _ =>
        (getRequestRecord_readsOnly _ _).writesOnly
    · rintro _ ⟨snapshot, f, hFields, rfl⟩
      cases hFields
      exact .moved (by simp [newEvent,
        ProcurementCommand.eventType]) (by simp)
          ⟨rfl, rfl, rfl, hAllowed⟩

theorem returnForCorrection_ends
    {payload : CorrectionRequest}
    (hRun : (returnForCorrection env requestId payload
      actorUserId).run s = .ok (record, s')) :
    Outcome env s s' requestId actorUserId
      (.returnForCorrection payload) := by
  rcases run_command_cases (.returnForCorrection payload)
    hRun with
    hRepeated | ⟨expected, hStarted, hFresh, hBody⟩
  · exact .inl hRepeated
  · rcases Txn.run_bind_eq_ok_iff.mp hBody with
      ⟨_, s₁, hGuard, hProposing⟩
    rcases Txn.run_ofExcept_eq_ok_iff.mp hGuard with ⟨_, rfl⟩
    rcases Txn.run_bind_eq_ok_iff.mp hProposing with
      ⟨proposal, s₂, hProposal, hSetting⟩
    have hSame : s₂ = s₁ := by
      refine run_readsOnly ?_ hProposal
      unfold prepareProposal
      split
      · simp
      · exact prepareLines_readsOnly _ _
    subst hSame
    rcases Txn.run_bind_eq_ok_iff.mp hSetting with
      ⟨new, s₃, hStatus, hRecord⟩
    rcases Txn.run_ofExcept_eq_ok_iff.mp hStatus with ⟨hSet, rfl⟩
    rcases moves_of_setStatus hSet with ⟨hAllowed, rfl⟩
    refine .inr ⟨_, hStarted.ends hFresh (.refl _) ?_ rfl ?_
        (fun _ => .nothing (by simp [
          ProcurementCommand.eventType])) hRecord⟩
    · refine .bind (by simp) fun _ => ?_
      exact .bind (tell_spares _ _ _ _) fun _ =>
        (getRequestRecord_readsOnly _ _).writesOnly
    · rintro _ ⟨snapshot, f, hFields, rfl⟩
      cases hComment : normalizeRequiredComment
        payload.comment with
      | error e =>
          rw [hComment] at hFields
          cases hFields
      | ok comment =>
          rw [hComment] at hFields
          cases hFields
          exact .moved (by simp [newEvent,
            ProcurementCommand.eventType]) (by simp)
              ⟨rfl, rfl, rfl, hAllowed⟩

theorem changeAssignment_ends
    (command : ProcurementCommand)
    {payload : AssignmentMutation}
    {targetUserId : Uuid}
    (hExpects : command.expects = payload.toExpectedStateMutation)
    (hType : command.eventType ∈
      [.assignmentTaken, .assignmentTransferred])
    (hCapabilities : command.capabilities = [.procurementManage])
    (hRun : (changeAssignment env requestId payload
      command.serialized actorUserId targetUserId
        command.eventType).run s = .ok (record, s')) :
    Outcome env s s' requestId actorUserId command := by
  unfold changeAssignment at hRun
  rw [← hExpects, ← hCapabilities] at hRun
  rcases run_command_cases command hRun with
    hRepeated | ⟨expected, hStarted, hFresh, hBody⟩
  · exact .inl hRepeated
  · rcases Txn.run_bind_eq_ok_iff.mp hBody with
      ⟨_, s₁, hOpen, hAssigned⟩
    rcases Txn.run_require_eq_ok_iff.mp hOpen with
      ⟨hActive, rfl⟩
    rcases Txn.run_bind_eq_ok_iff.mp hAssigned with
      ⟨_, s₂, hStale, hManager⟩
    rcases Txn.run_require_eq_ok_iff.mp hStale with ⟨_, rfl⟩
    rcases Txn.run_bind_eq_ok_iff.mp hManager with
      ⟨_, s₃, hValid, hOther⟩
    have hSame := run_readsOnly (validateManager_readsOnly _)
      hValid
    subst hSame
    rcases Txn.run_bind_eq_ok_iff.mp hOther with
      ⟨_, s₄, hChanges, hRecord⟩
    rcases Txn.run_require_eq_ok_iff.mp hChanges with
      ⟨hNe, rfl⟩
    refine .inr ⟨_, hStarted.ends hFresh (.refl _) ?_ ?_ ?_
      (fun _ => .nothing ?_) hRecord⟩
    · refine .bind (by simp) fun _ => ?_
      exact .bind (tell_spares _ _ _ _) fun _ =>
        (getRequestRecord_readsOnly _ _).writesOnly
    · rcases List.mem_pair.mp hType with h | h <;> rw [h] <;> rfl
    · rintro _ ⟨snapshot, f, hFields, rfl⟩
      cases hFields
      refine .assigned hType ⟨rfl, rfl, rfl, ?_⟩ hNe rfl
      intro hCompleted
      rw [hCompleted] at hActive
      exact absurd hActive (by decide)
    · rcases List.mem_pair.mp hType with h | h <;> rw [h] <;>
        decide

theorem reportDiscrepancy_ends
    {payload : DiscrepancyCreate}
    (hRun : (reportDiscrepancy env requestId payload
      actorUserId).run s = .ok (record, s')) :
    Outcome env s s' requestId actorUserId
      (.reportDiscrepancy payload) := by
  rcases run_command_cases (.reportDiscrepancy payload) hRun with
    hRepeated | ⟨expected, hStarted, hFresh, hBody⟩
  · exact .inl hRepeated
  · rcases Txn.run_bind_eq_ok_iff.mp hBody with
      ⟨_, s₁, hGuard, hRecord⟩
    rcases Txn.run_ofExcept_eq_ok_iff.mp hGuard with
      ⟨hAwaiting, rfl⟩
    refine .inr ⟨_, hStarted.ends hFresh (.refl _) ?_ rfl ?_
        (fun _ => .nothing (by simp [
          ProcurementCommand.eventType])) hRecord⟩
    · refine .bind (by simp) fun _ => ?_
      exact .bind (tell_spares _ _ _ _) fun _ =>
        (getRequestRecord_readsOnly _ _).writesOnly
    · rintro _ ⟨snapshot, f, hFields, rfl⟩
      cases hComment : normalizeRequiredComment
        payload.comment with
      | error e =>
          rw [hComment] at hFields
          cases hFields
      | ok comment =>
          rw [hComment] at hFields
          cases hFields
          refine .noted (by simp [newEvent,
            ProcurementCommand.eventType]) ⟨rfl, rfl, rfl, ?_⟩
          intro hCompleted
          unfold requireStatus at hAwaiting
          rw [hCompleted] at hAwaiting
          cases hAwaiting

/- A line is only bound while its request is active. -/
theorem active_of_unboundLine
    {lineId : Uuid}
    {line : LineRecord}
    (h : unboundLine record lineId = .ok line) :
    record.request.status ≠ .completed := by
  unfold unboundLine at h
  split at h
  · cases h
  · assumption

theorem bindTo_ends
    {α : Type}
    {t : Db}
    {lineId itemId : Uuid}
    {metadata : List (Text × Json)}
    {rest : Op α}
    {r : α}
    (h : Started env s requestId actorUserId command expected)
    (hFresh : expected.replay = none)
    (hType : command.eventType = .lineBound)
    (hActive : expected.record.request.status ≠ .completed)
    (hSame : SameProcurement s t)
    (hSpares : SparesProcurement rest)
    (hRun : (bindTo env expected lineId itemId actorUserId
      metadata >>= fun _ => rest).run t = .ok (r, s')) :
    Ends env s s' requestId actorUserId command
      expected.record.request := by
  unfold bindTo at hRun
  rw [← hType] at hRun
  refine h.ends hFresh hSame hSpares (by rw [hType]; rfl) ?_
    (fun _ => .binding hType) hRun
  rintro _ ⟨snapshot, f, hFields, rfl⟩
  cases hFields
  exact .noted (by simp [newEvent, hType])
    ⟨rfl, rfl, rfl, hActive⟩

theorem bindLine_ends
    {payload : LineBindingCreate}
    (hRun : (bindLine env requestId payload actorUserId).run s =
      .ok (record, s')) :
    Outcome env s s' requestId actorUserId
      (.bindLine payload) := by
  rcases run_command_cases (.bindLine payload) hRun with
    hRepeated | ⟨expected, hStarted, hFresh, hBody⟩
  · exact .inl hRepeated
  · rcases Txn.run_bind_eq_ok_iff.mp hBody with
      ⟨line, s₁, hUnbound, hItem⟩
    rcases Txn.run_ofExcept_eq_ok_iff.mp hUnbound with
      ⟨hLine, rfl⟩
    simp only [Txn.run_bind_eq_ok_iff, Txn.run_acquire_eq_ok_iff,
      Txn.run_query_eq_ok_iff, Txn.run_getOrFail_eq_ok_iff,
      Txn.run_require_eq_ok_iff, Txn.run_ofExcept_eq_ok_iff]
      at hItem
    rcases hItem with ⟨_, _, rfl, _, _, ⟨rfl, rfl⟩, item, _,
      ⟨_, rfl⟩, _, _, ⟨_, rfl⟩, _, _, ⟨_, rfl⟩, lines, _,
      ⟨_, rfl⟩, _, _, ⟨_, rfl⟩, u, t, hBind, hLoad⟩
    exact .inr ⟨_, bindTo_ends hStarted hFresh rfl
      (active_of_unboundLine hLine) (.refl _)
      (getRequestRecord_readsOnly _ _).writesOnly
      (Txn.run_bind_eq_ok_iff.mpr ⟨u, t, hBind, hLoad⟩)⟩

theorem createAndBindLine_ends
    {payload : ProposedItemCreateAndBind}
    (hRun : (createAndBindLine env requestId payload
      actorUserId).run s = .ok (record, s')) :
    Outcome env s s' requestId actorUserId
      (.createAndBindLine payload) := by
  rcases run_command_cases (.createAndBindLine payload) hRun with
    hRepeated | ⟨expected, hStarted, hFresh, hBody⟩
  · exact .inl hRepeated
  · rcases Txn.run_bind_eq_ok_iff.mp hBody with
      ⟨line, s₁, hUnbound, hItem⟩
    rcases Txn.run_ofExcept_eq_ok_iff.mp hUnbound with
      ⟨hLine, rfl⟩
    rcases Txn.run_bind_eq_ok_iff.mp hItem with
      ⟨db, s₂, hDb, hDraft⟩
    rcases Txn.run_query_eq_ok_iff.mp hDb with ⟨_, rfl⟩
    rcases Txn.run_bind_eq_ok_iff.mp hDraft with
      ⟨draft, s₃, hValid, hIdentity⟩
    rcases Txn.run_ofExcept_eq_ok_iff.mp hValid with ⟨_, rfl⟩
    rcases Txn.run_bind_eq_ok_iff.mp hIdentity with
      ⟨_, s₄, hSame, hCreate⟩
    rcases Txn.run_require_eq_ok_iff.mp hSame with ⟨_, rfl⟩
    rcases Txn.run_bind_eq_ok_iff.mp hCreate with
      ⟨itemId, s₅, hCreated, hBind⟩
    exact .inr ⟨_, bindTo_ends hStarted hFresh rfl
      (active_of_unboundLine hLine)
      ((createItem_spares _ _ _ _).same hCreated)
      (getRequestRecord_readsOnly _ _).writesOnly hBind⟩

theorem completeAcceptance_ends
    {payload : ProcurementAcceptanceCreate}
    (hRun : (completeAcceptance env requestId payload
      actorUserId).run s = .ok (record, s')) :
    Outcome env s s' requestId actorUserId
      (.completeAcceptance payload) := by
  rcases run_command_cases (.completeAcceptance payload) hRun with
    hRepeated | ⟨expected, hStarted, hFresh, hBody⟩
  · exact .inl hRepeated
  · rcases Txn.run_bind_eq_ok_iff.mp hBody with
      ⟨_, s₁, hGuard, hLoading⟩
    rcases Txn.run_ofExcept_eq_ok_iff.mp hGuard with ⟨_, rfl⟩
    rcases Txn.run_bind_eq_ok_iff.mp hLoading with
      ⟨lines, s₂, hLines, hAccepting⟩
    rcases Txn.run_ofExcept_eq_ok_iff.mp hLines with ⟨_, rfl⟩
    rcases Txn.run_bind_eq_ok_iff.mp hAccepting with
      ⟨quantities, s₃, hQuantities, hActor⟩
    have hSame := run_readsOnly (acceptedQuantities_readsOnly _)
      hQuantities
    subst hSame
    rcases Txn.run_bind_eq_ok_iff.mp hActor with
      ⟨snapshot, s₄, hSnapshot, hCalling⟩
    have hSame := run_readsOnly (actorSnapshot_readsOnly _)
      hSnapshot
    subst hSame
    rcases Txn.run_bind_eq_ok_iff.mp hCalling with
      ⟨call, s₅, hCall, hMoving⟩
    rcases Txn.run_getOrFail_eq_ok_iff.mp hCall with ⟨_, rfl⟩
    rcases Txn.run_bind_eq_ok_iff.mp hMoving with
      ⟨movement, s₆, hMovement, hReceipt⟩
    rcases Txn.run_bind_eq_ok_iff.mp hReceipt with
      ⟨_, s₇, hNew, hSetting⟩
    rcases Txn.run_require_eq_ok_iff.mp hNew with ⟨_, rfl⟩
    rcases Txn.run_bind_eq_ok_iff.mp hSetting with
      ⟨new, s₈, hStatus, hRecord⟩
    rcases Txn.run_ofExcept_eq_ok_iff.mp hStatus with ⟨hSet, rfl⟩
    rcases moves_of_setStatus hSet with ⟨hAllowed, rfl⟩
    refine .inr ⟨_, hStarted.ends hFresh
      ((createMovement_spares _ _).same hMovement) ?_ rfl ?_
        (fun _ => .nothing (by simp [
          ProcurementCommand.eventType])) hRecord⟩
    · refine .bind (tell_spares _ _ _ _) fun _ => ?_
      refine .bind (getRequestRecord_readsOnly _ _).writesOnly
        fun _ => ?_
      exact .bind (checkLineCount_readsOnly _).writesOnly
        fun _ => by simp
    · rintro _ ⟨snapshot, f, hFields, rfl⟩
      cases hFields
      exact .completed rfl ⟨rfl, rfl, rfl, hAllowed⟩ rfl

/- What follows the event of a new revision. -/
theorem announce_spares
    (request : ProcurementRequest)
    (action : String)
    (lines : List ProcurementRevisionLine)
    (recipients : List Uuid) :
    SparesProcurement (do
      tell env request action lines recipients
      let record ← getRequestRecord requestId false
      checkCurrentRevision requestId
      pure record) := by
  refine .bind (tell_spares _ _ _ _) fun _ => ?_
  refine .bind (getRequestRecord_readsOnly _ _).writesOnly
    fun _ => ?_
  exact .bind (checkCurrentRevision_readsOnly _).writesOnly
    fun _ => by simp

/- The numbers of the revisions that a record has. -/
theorem revisionNumbers_of_loaded
    {lock : Bool}
    (h : (getRequestRecord requestId lock).run s =
      .ok (record, s')) :
    record.revisions.map (fun r => r.revision.revisionNumber) =
      (revisionsOf requestId s).map
        ProcurementRevision.revisionNumber := by
  rcases findRequest_of_getRequestRecord h with
    ⟨_, hFind, hRevisions⟩
  have hId : record.request.id = requestId :=
    Table.key_of_find hFind
  rw [hRevisions, hId]
  unfold storedRevisions revisionRecords
  rw [List.map_map]
  rfl

theorem submitRevision_ends
    {payload : RevisionCreate}
    (hRun : (submitRevision env requestId payload
      actorUserId).run s = .ok (record, s')) :
    Outcome env s s' requestId actorUserId
      (.submitRevision payload) := by
  rcases run_command_cases (.submitRevision payload) hRun with
    hRepeated | ⟨expected, hStarted, hFresh, hBody⟩
  · exact .inl hRepeated
  · rcases Txn.run_bind_eq_ok_iff.mp hBody with
      ⟨_, s₁, hActor, hGuarded⟩
    rcases Txn.run_require_eq_ok_iff.mp hActor with ⟨_, rfl⟩
    rcases Txn.run_bind_eq_ok_iff.mp hGuarded with
      ⟨_, s₂, hGuard, hPreparing⟩
    rcases Txn.run_ofExcept_eq_ok_iff.mp hGuard with ⟨_, rfl⟩
    rcases Txn.run_bind_eq_ok_iff.mp hPreparing with
      ⟨lines, s₃, hPrepared, hNumbering⟩
    have hSame := run_readsOnly (prepareLines_readsOnly _ _)
      hPrepared
    subst hSame
    rcases Txn.run_bind_eq_ok_iff.mp hNumbering with
      ⟨last, s₄, hLast, hNaming⟩
    rcases Txn.run_getOrFail_eq_ok_iff.mp hLast with
      ⟨hNumber, rfl⟩
    rcases Txn.run_bind_eq_ok_iff.mp hNaming with
      ⟨snapshot, s₅, hSnapshot, hRevising⟩
    have hSame := run_readsOnly (actorSnapshot_readsOnly _)
      hSnapshot
    subst hSame
    rcases Txn.run_bind_eq_ok_iff.mp hRevising with
      ⟨_, s₆, hRevision, hLining⟩
    rcases insertRevision_run hRevision with ⟨rfl, hNew⟩
    rcases Txn.run_bind_eq_ok_iff.mp hLining with
      ⟨_, s₇, hLines, hSetting⟩
    rcases insertLines_run hLines with ⟨rfl, _⟩
    rcases Txn.run_bind_eq_ok_iff.mp hSetting with
      ⟨moved, s₈, hStatus, hUpdating⟩
    rcases Txn.run_ofExcept_eq_ok_iff.mp hStatus with ⟨hSet, rfl⟩
    rcases moves_of_setStatus hSet with ⟨hAllowed, rfl⟩
    rcases Txn.run_bind_eq_ok_iff.mp hUpdating with
      ⟨_, s₉, hUpdate, hRecording⟩
    rcases updateRequest_run hUpdate with ⟨rfl, _, hFree⟩
    rcases Txn.run_bind_eq_ok_iff.mp hRecording with
      ⟨_, t, hEvent, hTelling⟩
    rcases insertEvent_run hEvent with ⟨rfl, hIds, hComplete⟩
    rw [revisionNumbers_of_loaded hStarted.loaded] at hNumber
    rcases hStarted.fresh hFresh with
      ⟨hUnused, hVersion, hCurrent⟩
    have hTold := (announce_spares _ _ _ _).same hTelling
    exact .inr ⟨_, _, _, _, .after hTold {
      found := hStarted.found
      version := hVersion
      revision := hCurrent
      key := hStarted.key
      recorded := ⟨rfl, rfl⟩
      unused := hUnused
      type := rfl
      fingerprint := hStarted.fingerprint
      turns := .submitted rfl ⟨rfl, rfl, rfl, hAllowed⟩
      free := hFree
      ids := hIds
      writes := ⟨rfl, rfl, rfl, (List.append_nil _).symm, rfl⟩
      added := .revision hNumber hPrepared rfl rfl rfl rfl rfl
        hNew
      published := hComplete }⟩

theorem command_cases
    (hRun : (command.program env requestId actorUserId).run s =
      .ok (record, s')) :
    Outcome env s s' requestId actorUserId command := by
  cases command with
  | takeOwnership payload =>
      exact changeAssignment_ends (.takeOwnership payload) rfl
        (by simp [ProcurementCommand.eventType]) rfl hRun
  | transferManager payload =>
      exact changeAssignment_ends (.transferManager payload) rfl
        (by simp [ProcurementCommand.eventType]) rfl hRun
  | managerAccept payload => exact managerAccept_ends hRun
  | returnForCorrection payload =>
      exact returnForCorrection_ends hRun
  | transferToAcceptance payload =>
      exact transferToAcceptance_ends hRun
  | submitRevision payload => exact submitRevision_ends hRun
  | bindLine payload => exact bindLine_ends hRun
  | createAndBindLine payload =>
      exact createAndBindLine_ends hRun
  | reportDiscrepancy payload =>
      exact reportDiscrepancy_ends hRun
  | completeAcceptance payload =>
      exact completeAcceptance_ends hRun

end Commands

------------------------------------------------------------
-- Creation
------------------------------------------------------------

/- A request was created with its first revision. -/
structure Created
    (env : ProcurementEnv)
    (s s' : Db)
    (payload : ProcurementRequestCreate)
    (actorUserId : Uuid)
    (request : ProcurementRequest)
    (revision : ProcurementRevision)
    (lines : List ProcurementRevisionLine)
    (event : ProcurementEvent) : Prop where
  status : request.status = .agreementPendingManager
  initiator : request.initiatorUserId = actorUserId
  manager : request.assignedManagerUserId =
    payload.assignedManagerUserId
  version : request.stateVersion = 1
  current : request.currentRevisionId = revision.id
  open_ : request.finalMovementId = none ∧
    request.completedAt = none
  key : normalizeClientRequestId payload.clientRequestId =
    .ok request.creationClientRequestId
  number : revision.revisionNumber = 1
  owner : revision.requestId = request.id
  count : revision.lineCount = lines.length
  ids : revision.id = env.revisionId
  prepared : (prepareLines env payload.lines).run s =
    .ok (lines, s)
  recorded : event.requestId = request.id ∧
    event.eventType = .requestCreated ∧
    event.fromStatus = none ∧
    event.toStatus = some request.status ∧
    event.revisionId = some revision.id
  sealed_ : event.actorUserId = actorUserId ∧
    event.clientRequestId = request.creationClientRequestId ∧
    event.requestFingerprint = env.sha256 payload.serialized
  fresh : ∀ r ∈ s.procurementRequests, r.id ≠ request.id
  freshRevision : ∀ r ∈ s.procurementRevisions,
    r.id ≠ revision.id
  freshEvent : ∀ e ∈ s.procurementEvents, e.id ≠ event.id
  requests : s'.procurementRequests =
    s.procurementRequests ++ [request]
  revisions : s'.procurementRevisions =
    s.procurementRevisions ++ [revision]
  rows : s'.procurementRevisionLines =
    s.procurementRevisionLines ++ lines
  bindings : s'.procurementBindings = s.procurementBindings
  events : s'.procurementEvents =
    s.procurementEvents ++ [event]
  published : Complete revision.id s'

section Creation

variable {env : ProcurementEnv}
variable {s s' s'' : Db}
variable {actorUserId : Uuid}
variable {payload : ProcurementRequestCreate}
variable {record : ProcurementRecord}

theorem insertRequest_run
    {new : ProcurementRequest}
    {u : Unit}
    (h : (insertRequest new).run s = .ok (u, s')) :
    s' = (ProcurementWrite.newRequest new).apply s ∧
      ∀ r ∈ s.procurementRequests, r.id ≠ new.id := by
  unfold insertRequest at h
  rcases Txn.run_bind_eq_ok_iff.mp h with
    ⟨_, s₁, hGuard, hRest⟩
  have hSame := run_readsOnly
    (protectFinalMovementBinding_readsOnly none new) hGuard
  subst hSame
  unfold execute at hRest
  simp only [Txn.run_bind_eq_ok_iff, Txn.run_acquire_eq_ok_iff,
    Txn.run_query_eq_ok_iff, Txn.run_require_eq_ok_iff,
    Txn.run_update_eq_ok_iff] at hRest
  rcases hRest with ⟨_, _, ⟨_, rfl⟩, _, _, rfl, _, _, ⟨rfl, rfl⟩,
    _, _, ⟨hNew, rfl⟩, _, _, rfl, _, _, ⟨_, rfl⟩, _, _,
    ⟨_, rfl⟩, _, _, ⟨_, rfl⟩, _, _, ⟨_, rfl⟩, rfl⟩
  exact ⟨rfl, Table.find_eq_none_iff.mp
    (Option.isNone_iff_eq_none.mp hNew)⟩

theorem Created.after
    {request : ProcurementRequest}
    {revision : ProcurementRevision}
    {lines : List ProcurementRevisionLine}
    {event : ProcurementEvent}
    (hSame : SameProcurement s' s'')
    (h : Created env s s' payload actorUserId request revision
      lines event) :
    Created env s s'' payload actorUserId request revision lines
      event :=
  { h with
    requests := hSame.requests.trans h.requests
    revisions := hSame.revisions.trans h.revisions
    rows := hSame.lines.trans h.rows
    bindings := hSame.bindings.trans h.bindings
    events := hSame.events.trans h.events
    published := by
      unfold Complete
      rw [hSame.revisions, hSame.lines]
      exact h.published }

/- A call finds its request, or creates it. -/
theorem createRequest_cases
    (hRun : (createRequest env payload actorUserId).run s =
      .ok (record, s')) :
    s' = s ∨ ∃ request revision lines event,
      Created env s s' payload actorUserId request revision
        lines event := by
  unfold createRequest at hRun
  rcases Txn.run_bind_eq_ok_iff.mp hRun with
    ⟨_, s₁, hActor, hCreate⟩
  have hSame : s₁ = s := by
    refine run_readsOnly ?_ hActor
    refine .bind (by simp) fun _ => ?_
    exact .bind (by simp) fun _ => by simp
  subst hSame
  rcases Txn.run_bind_eq_ok_iff.mp hCreate with
    ⟨key, s₂, hNormal, hLocked⟩
  rcases Txn.run_ofExcept_eq_ok_iff.mp hNormal with ⟨hKey, rfl⟩
  rw [Txn.run_acquire_bind, Txn.run_query_bind] at hLocked
  split at hLocked
  · exact .inl (run_readsOnly (.bind (by simp) fun _ =>
      getRequestRecord_readsOnly _ _) hLocked)
  · rcases Txn.run_bind_eq_ok_iff.mp hLocked with
      ⟨_, s₃, hManager, hPreparing⟩
    have hSame := run_readsOnly (validateManager_readsOnly _)
      hManager
    subst hSame
    rcases Txn.run_bind_eq_ok_iff.mp hPreparing with
      ⟨lines, s₄, hPrepared, hNaming⟩
    have hSame := run_readsOnly (prepareLines_readsOnly _ _)
      hPrepared
    subst hSame
    rcases Txn.run_bind_eq_ok_iff.mp hNaming with
      ⟨snapshot, s₅, hSnapshot, hRequesting⟩
    have hSame := run_readsOnly (actorSnapshot_readsOnly _)
      hSnapshot
    subst hSame
    rcases Txn.run_bind_eq_ok_iff.mp hRequesting with
      ⟨_, s₆, hRequest, hRevising⟩
    rcases insertRequest_run hRequest with ⟨rfl, hFresh⟩
    rcases Txn.run_bind_eq_ok_iff.mp hRevising with
      ⟨_, s₇, hRevision, hLining⟩
    rcases insertRevision_run hRevision with ⟨rfl, hNew⟩
    rcases Txn.run_bind_eq_ok_iff.mp hLining with
      ⟨_, s₈, hLines, hRecording⟩
    rcases insertLines_run hLines with ⟨rfl, _⟩
    rcases Txn.run_bind_eq_ok_iff.mp hRecording with
      ⟨_, t, hEvent, hTelling⟩
    rcases insertEvent_run hEvent with ⟨rfl, hIds, hComplete⟩
    have hTold := (announce_spares _ _ _ _).same hTelling
    exact .inr ⟨_, _, _, _, .after hTold {
      status := rfl
      initiator := rfl
      manager := rfl
      version := rfl
      current := rfl
      open_ := ⟨rfl, rfl⟩
      key := hKey
      number := rfl
      owner := rfl
      count := rfl
      ids := rfl
      prepared := hPrepared
      recorded := ⟨rfl, rfl, rfl, rfl, rfl⟩
      sealed_ := ⟨rfl, rfl, rfl⟩
      fresh := hFresh
      freshRevision := hNew
      freshEvent := hIds
      requests := rfl
      revisions := rfl
      rows := rfl
      bindings := rfl
      events := rfl
      published := hComplete _ rfl rfl }⟩

end Creation

end Procurement
