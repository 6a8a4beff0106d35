import DcInventory.Library.EventLog
import DcInventory.Procurement.Advances

/-
  This file proves that the events of a request tell what its
  header is: each event starts where the ones before it ended,
  takes an allowed step, and the last one ends at the header.

  Key definitions include:
    * `ProcurementSteps`
    * `Header`
    * `Follows`
    * `Told`
    * `Numbered`

  Key theorems include:
    * `Turns.header`
    * `ProcurementLog.step`
    * `history_replays_to_header`
-/

namespace Procurement

------------------------------------------------------------
-- Histories
------------------------------------------------------------

/- There are no requests, and nothing of any. -/
structure NoProcurement (s : Db) : Prop where
  requests : s.procurementRequests = []
  revisions : s.procurementRevisions = []
  lines : s.procurementRevisionLines = []
  bindings : s.procurementBindings = []
  events : s.procurementEvents = []

/- One thing after the other happens to the requests. -/
inductive ProcurementSteps (s : Db) : Db → Prop where
| refl : ProcurementSteps s s
| step {t t'}
    (hBefore : ProcurementSteps s t)
    (hStep : ProcurementStep t t') :
    ProcurementSteps s t'

/- What became of the tables in one step. -/
inductive ProcurementChange (s s' : Db) : Prop where
| same (h : SameProcurement s s')
| created {env payload actorUserId request revision lines event}
    (h : Created env s s' payload actorUserId request revision
      lines event)
| accepted {env requestId actorUserId command old new event
      added}
    (h : Accepted env s s' requestId actorUserId command old new
      event added)

theorem ProcurementStep.change
    {s s' : Db}
    (h : ProcurementStep s s') :
    ProcurementChange s s' := by
  cases h with
  | create hRun =>
      rcases createRequest_cases hRun with
        rfl | ⟨_, _, _, _, hCreated⟩
      · exact .same (.refl _)
      · exact .created hCreated
  | command command hRun =>
      rcases command_cases hRun with
        ⟨rfl, _⟩ | ⟨_, _, _, _, hAccepted⟩
      · exact .same (.refl _)
      · exact .accepted hAccepted
  | other hSame => exact .same hSame

------------------------------------------------------------
-- Headers
------------------------------------------------------------

/- What the events of a request tell of it. -/
structure Header where
  status : ProcurementStatus
  revisionId : Uuid
  manager : Text
  movement : Option Text
  version : Nat
deriving DecidableEq, Repr

def headerOf (request : ProcurementRequest) : Header where
  status := request.status
  revisionId := request.currentRevisionId
  manager := request.assignedManagerUserId.str
  movement := request.finalMovementId.map Uuid.str
  version := request.stateVersion

/- A text in the metadata of an event. -/
def metadataText (key : String) (event : ProcurementEvent) :
    Text :=
  snapshotText key (event.metadata.getD .null)

/- The events that assign a manager. -/
def assigns (eventType : ProcurementEventType) : Bool :=
  eventType ∈ [.assignmentTaken, .assignmentTransferred]

namespace Header

/- The header after an event. -/
def after (h : Header) (event : ProcurementEvent) : Header where
  status := event.toStatus.getD h.status
  revisionId := if publishes event.eventType then
      event.revisionId.getD h.revisionId
    else h.revisionId
  manager := if assigns event.eventType then
      metadataText "to_manager_user_id" event
    else h.manager
  movement := if event.eventType = .completed then
      some (metadataText "movement_id" event)
    else h.movement
  version := h.version + 1

/- The event may be recorded of a request with the header. -/
structure Follows (h : Header) (event : ProcurementEvent) :
    Prop where
  active : h.status ≠ .completed
  step : event.fromStatus = none ∧ event.toStatus = none ∨
    event.fromStatus = some h.status ∧
      ∃ target, event.toStatus = some target ∧
        transitionAllowed h.status target = true
  manager : assigns event.eventType = true →
    metadataText "from_manager_user_id" event = h.manager
  publishing : publishes event.eventType = false →
    event.revisionId = some h.revisionId

/- The events lead from one header to another. -/
def LeadsTo : Header → List ProcurementEvent → Header → Prop
| h, [], h' => h = h'
| h, event :: events, h' =>
    h.Follows event ∧ (h.after event).LeadsTo events h'

theorem LeadsTo.concat
    {h h' : Header}
    {events : List ProcurementEvent}
    {event : ProcurementEvent}
    (hLeads : h.LeadsTo events h')
    (hFollows : h'.Follows event) :
    h.LeadsTo (events ++ [event]) (h'.after event) := by
  induction events generalizing h with
  | nil =>
      cases hLeads
      exact ⟨hFollows, rfl⟩
  | cons e es ih => exact ⟨hLeads.1, ih hLeads.2⟩

/- Each event raises the version by one. -/
theorem LeadsTo.version
    {h h' : Header}
    {events : List ProcurementEvent}
    (hLeads : h.LeadsTo events h') :
    h'.version = h.version + events.length := by
  induction events generalizing h with
  | nil =>
      cases hLeads
      rfl
  | cons e es ih =>
      rw [ih hLeads.2, List.length_cons]
      change h.version + 1 + es.length = _
      omega

end Header

/- Statuses with a way out are not the last one. -/
theorem not_completed_of_allowed
    {status target : ProcurementStatus}
    (h : transitionAllowed status target = true) :
    status ≠ .completed := by
  rintro rfl
  cases target <;> cases h

theorem Quiet.follows
    {old : ProcurementRequest}
    {event : ProcurementEvent}
    (h : Quiet old event)
    (hManager : assigns event.eventType = true →
      metadataText "from_manager_user_id" event =
        old.assignedManagerUserId.str) :
    (headerOf old).Follows event where
  active := h.active
  step := .inl ⟨h.fromStatus, h.toStatus⟩
  manager := hManager
  publishing := fun _ => h.revisionId

theorem Moves.follows
    {old : ProcurementRequest}
    {target : ProcurementStatus}
    {revisionId : Uuid}
    {event : ProcurementEvent}
    (h : Moves old target revisionId event)
    (hManager : assigns event.eventType = false)
    (hRevision : publishes event.eventType = false →
      revisionId = old.currentRevisionId) :
    (headerOf old).Follows event where
  active := not_completed_of_allowed h.allowed
  step := .inr ⟨h.fromStatus, target, h.toStatus, h.allowed⟩
  manager := by
    intro hAssigns
    rw [hManager] at hAssigns
    cases hAssigns
  publishing := fun hSilent => by
    rw [h.revisionId, hRevision hSilent]
    rfl

/- An accepted command turns the header as its event says. -/
theorem Turns.header
    {old new : ProcurementRequest}
    {event : ProcurementEvent}
    (h : Turns old new event) :
    (headerOf old).Follows event ∧
      (headerOf old).after event = headerOf new := by
  cases h with
  | moved hType hTarget hMoves =>
      have hKinds : assigns event.eventType = false ∧
          publishes event.eventType = false ∧
          event.eventType ≠ .completed := by
        simp only [List.mem_cons, List.not_mem_nil, or_false]
          at hType
        rcases hType with h | h | h <;> rw [h] <;> decide
      rcases hKinds with ⟨hAssigns, hPublishes, hDone⟩
      refine ⟨hMoves.follows hAssigns fun _ => rfl, ?_⟩
      simp [Header.after, headerOf, hMoves.toStatus, hAssigns,
        hPublishes, hDone]
  | submitted hType hMoves =>
      refine ⟨hMoves.follows (by rw [hType]; rfl) ?_, ?_⟩
      · intro hSilent
        rw [hType] at hSilent
        cases hSilent
      · simp [Header.after, headerOf, hMoves.toStatus,
          hMoves.revisionId, hType, assigns, publishes]
  | assigned hType hQuiet hOther hMetadata =>
      have hKinds : assigns event.eventType = true ∧
          publishes event.eventType = false ∧
          event.eventType ≠ .completed := by
        rcases List.mem_pair.mp hType with h | h <;> rw [h] <;>
          decide
      rcases hKinds with ⟨hAssigns, hPublishes, hDone⟩
      refine ⟨hQuiet.follows fun _ => ?_, ?_⟩
      · unfold metadataText
        rw [hMetadata]
        rfl
      · simp only [Header.after, hQuiet.toStatus, hAssigns,
          hPublishes, hDone, metadataText, hMetadata]
        rfl
  | noted hType hQuiet =>
      have hKinds : assigns event.eventType = false ∧
          publishes event.eventType = false ∧
          event.eventType ≠ .completed := by
        rcases List.mem_pair.mp hType with h | h <;> rw [h] <;>
          decide
      rcases hKinds with ⟨hAssigns, hPublishes, hDone⟩
      refine ⟨hQuiet.follows fun hTrue => ?_, ?_⟩
      · rw [hAssigns] at hTrue
        cases hTrue
      · simp [Header.after, headerOf, hQuiet.toStatus, hAssigns,
          hPublishes, hDone]
  | completed hType hMoves hMetadata =>
      refine ⟨hMoves.follows (by rw [hType]; rfl)
        fun _ => rfl, ?_⟩
      simp only [Header.after, hMoves.toStatus, hType,
        metadataText, hMetadata]
      rfl

------------------------------------------------------------
-- Logs
------------------------------------------------------------

/- The events of a request tell what it is. -/
structure Told
    (request : ProcurementRequest)
    (events : List ProcurementEvent) : Prop where
  told : ∃ first rest manager,
    events = first :: rest ∧
      first.eventType = .requestCreated ∧
      first.toStatus = some .agreementPendingManager ∧
      (∃ revisionId, first.revisionId = some revisionId ∧
        Header.LeadsTo ⟨.agreementPendingManager, revisionId,
          Uuid.str manager, none, 1⟩ rest (headerOf request))
  completed : request.status = .completed ↔
    request.finalMovementId.isSome = true
  closed : request.finalMovementId.isSome =
    request.completedAt.isSome

/- The revisions of a request are numbered from one on. -/
def Numbered
    (request : ProcurementRequest)
    (revisions : List ProcurementRevision) : Prop :=
  ∃ n, revisions.map ProcurementRevision.revisionNumber =
      List.range' 1 (n + 1) ∧
    ∃ last, revisions.getLast? = some last ∧
      last.id = request.currentRevisionId

/- What holds of the requests and their logs at all times. -/
structure ProcurementLog (s : Db) : Prop where
  events : EventLog.Agrees ProcurementRequest.id
    ProcurementEvent.requestId Told s.procurementRequests
      s.procurementEvents
  revisions : EventLog.Agrees ProcurementRequest.id
    ProcurementRevision.requestId Numbered s.procurementRequests
      s.procurementRevisions

section Logs

variable {s s' : Db}

theorem Turns.told
    {old new : ProcurementRequest}
    {event : ProcurementEvent}
    {events : List ProcurementEvent}
    (h : Turns old new event)
    (hTold : Told old events) :
    Told new (events ++ [event]) := by
  rcases h.header with ⟨hFollows, hAfter⟩
  rcases hTold.told with ⟨first, rest, manager, rfl, hType,
    hStatus, revisionId, hRevision, hLeads⟩
  refine ⟨⟨first, rest ++ [event], manager, rfl, hType, hStatus,
    revisionId, hRevision, ?_⟩, ?_, ?_⟩
  · rw [← hAfter]
    exact hLeads.concat hFollows
  · have hOpen : old.status ≠ .completed := hFollows.active
    have hNone : ¬ old.finalMovementId.isSome = true :=
      fun hSome => hOpen (hTold.completed.mpr hSome)
    cases h with
    | moved _ hTarget _ => exact iff_of_false hTarget hNone
    | submitted =>
        exact iff_of_false (fun hEq => nomatch hEq) hNone
    | assigned => exact hTold.completed
    | noted => exact hTold.completed
    | completed => exact iff_of_true rfl rfl
  · cases h with
    | completed => rfl
    | _ => exact hTold.closed

theorem Created.told
    {env : ProcurementEnv}
    {payload : ProcurementRequestCreate}
    {actorUserId : Uuid}
    {request : ProcurementRequest}
    {revision : ProcurementRevision}
    {lines : List ProcurementRevisionLine}
    {event : ProcurementEvent}
    (h : Created env s s' payload actorUserId request revision
      lines event) :
    Told request [event] := by
  rcases h.recorded with ⟨_, hType, _, hTo, hRevision⟩
  rcases h.open_ with ⟨hMovement, hClosed⟩
  refine ⟨⟨event, [], request.assignedManagerUserId, rfl, hType,
    ?_, revision.id, hRevision, ?_⟩, ?_, ?_⟩
  · rw [hTo, h.status]
  · change _ = _
    unfold headerOf
    rw [h.status, h.current, hMovement, h.version]
    rfl
  · rw [h.status, hMovement]
    exact iff_of_false (by decide) (by decide)
  · rw [hMovement, hClosed]
    rfl

/- Only what publishes a revision makes it the current one. -/
theorem Turns.keepsRevision
    {old new : ProcurementRequest}
    {event : ProcurementEvent}
    (h : Turns old new event)
    (hSilent : publishes event.eventType = false) :
    new.currentRevisionId = old.currentRevisionId := by
  have hAfter := congrArg Header.revisionId h.header.2
  simp only [Header.after, hSilent] at hAfter
  exact hAfter.symm

theorem Turns.revision
    {old new : ProcurementRequest}
    {event : ProcurementEvent}
    {revisionId : Uuid}
    (h : Turns old new event)
    (hPublishes : publishes event.eventType = true)
    (hRevision : event.revisionId = some revisionId) :
    new.currentRevisionId = revisionId := by
  have hAfter := congrArg Header.revisionId h.header.2
  simp only [Header.after, hPublishes, hRevision] at hAfter
  exact hAfter.symm

/- The last number is the one of the last revision. -/
theorem last_revisionNumber
    {requestId : Uuid}
    {revisions : List ProcurementRevision}
    {n number : Nat}
    (hOwn : revisions = EventLog.of ProcurementRevision.requestId
      requestId s.procurementRevisions)
    (hNumbers : revisions.map
      ProcurementRevision.revisionNumber = List.range' 1 (n + 1))
    (hMax : ((revisionsOf requestId s).map
      ProcurementRevision.revisionNumber).max? = some number) :
    number = n + 1 := by
  have hPerm : (revisionsOf requestId s).Perm revisions := by
    rw [hOwn]
    exact List.perm_insertionSort _ _
  have hMem (k : Nat) : k ∈ (revisionsOf requestId s).map
      ProcurementRevision.revisionNumber ↔
        1 ≤ k ∧ k < 1 + (n + 1) := by
    rw [(hPerm.map _).mem_iff, hNumbers, List.mem_range'_1]
  rcases List.max?_eq_some_iff.mp hMax with ⟨hIn, hLargest⟩
  have hHigh := (hMem number).mp hIn
  have hLow := hLargest (n + 1) ((hMem _).mpr (by omega))
  omega

/- The revisions that a command adds are of its request. -/
theorem Adds.owned
    {env : ProcurementEnv}
    {requestId : Uuid}
    {command : ProcurementCommand}
    {event : ProcurementEvent}
    {added : Additions}
    (h : Adds env s requestId command event added) :
    ∀ v ∈ added.revisions, v.requestId = requestId := by
  cases h with
  | nothing => exact List.forall_mem_nil _
  | binding => exact List.forall_mem_nil _
  | revision _ _ _ _ hRequest =>
      intro v hv
      rw [List.mem_singleton.mp hv]
      exact hRequest

/- A command adds one revision, or none. -/
theorem Accepted.numbered
    {env : ProcurementEnv}
    {requestId actorUserId : Uuid}
    {command : ProcurementCommand}
    {old new : ProcurementRequest}
    {event : ProcurementEvent}
    {added : Additions}
    {revisions : List ProcurementRevision}
    (h : Accepted env s s' requestId actorUserId command old new
      event added)
    (hOwn : revisions = EventLog.of ProcurementRevision.requestId
      requestId s.procurementRevisions)
    (hNumbered : Numbered old revisions) :
    Numbered new (revisions ++ added.revisions) := by
  rcases hNumbered with ⟨n, hNumbers, last, hLast, hCurrent⟩
  have hAdded := h.added
  have hType := h.type
  cases hAdded with
  | nothing hNone =>
      have hSilent : publishes event.eventType = false := by
        rw [hType]
        cases command <;> first
          | rfl
          | exact absurd List.mem_cons_self hNone
      rw [Additions.none, List.append_nil]
      exact ⟨n, hNumbers, last, hLast,
        hCurrent.trans (h.turns.keepsRevision hSilent).symm⟩
  | binding hBound =>
      have hSilent : publishes event.eventType = false := by
        rw [hType, hBound]
        rfl
      rw [List.append_nil]
      exact ⟨n, hNumbers, last, hLast,
        hCurrent.trans (h.turns.keepsRevision hSilent).symm⟩
  | @revision payload _ number lines revision hMax _ hId _ _
      hNumber =>
      have hCount : number = n + 1 :=
        last_revisionNumber hOwn hNumbers hMax
      refine ⟨n + 1, ?_, revision, List.getLast?_concat, ?_⟩
      · rw [List.map_append, hNumbers, List.map_singleton,
          hNumber, hCount, List.range'_1_concat (n := n + 1),
          Nat.add_comm 1]
      · refine (h.turns.revision ?_ hId).symm
        rw [hType]
        rfl

theorem Created.numbered
    {env : ProcurementEnv}
    {payload : ProcurementRequestCreate}
    {actorUserId : Uuid}
    {request : ProcurementRequest}
    {revision : ProcurementRevision}
    {lines : List ProcurementRevisionLine}
    {event : ProcurementEvent}
    (h : Created env s s' payload actorUserId request revision
      lines event) :
    Numbered request [revision] :=
  ⟨0, by rw [List.map_singleton, h.number]; rfl, revision, rfl,
    h.current.symm⟩

/- In the order of their numbers they are as they were made. -/
theorem Numbered.sorted
    {request : ProcurementRequest}
    (h : Numbered request (EventLog.of
      ProcurementRevision.requestId request.id
        s.procurementRevisions)) :
    ∃ n, (revisionsOf request.id s).map
        ProcurementRevision.revisionNumber =
          List.range' 1 (n + 1) ∧
      ∃ last ∈ revisionsOf request.id s,
        last.id = request.currentRevisionId ∧
          last.revisionNumber = n + 1 := by
  rcases h with ⟨n, hNumbers, last, hLast, hCurrent⟩
  have hSorted : (EventLog.of ProcurementRevision.requestId
      request.id s.procurementRevisions).Pairwise (fun a b =>
        a.revisionNumber ≤ b.revisionNumber) := by
    rw [← List.pairwise_map (f :=
      ProcurementRevision.revisionNumber), hNumbers]
    exact List.pairwise_le_range'
  have hSame : revisionsOf request.id s = EventLog.of
      ProcurementRevision.requestId request.id
        s.procurementRevisions :=
    hSorted.insertionSort_eq
  rw [hSame]
  refine ⟨n, hNumbers, last, List.mem_of_getLast? hLast,
    hCurrent, ?_⟩
  have hAt := congrArg List.getLast? hNumbers
  rw [List.getLast?_map, hLast, List.getLast?_range'] at hAt
  simpa using hAt

theorem ProcurementLog.start (h : NoProcurement s) :
    ProcurementLog s where
  events := by
    rw [h.requests, h.events]
    exact .empty
  revisions := by
    rw [h.requests, h.revisions]
    exact .empty

theorem ProcurementLog.step
    (h : ProcurementLog s)
    (hStep : ProcurementStep s s') :
    ProcurementLog s' := by
  cases hStep.change with
  | same hSame =>
      constructor
      · rw [hSame.requests, hSame.events]
        exact h.events
      · rw [hSame.requests, hSame.revisions]
        exact h.revisions
  | created hCreated =>
      constructor
      · rw [hCreated.requests, hCreated.events]
        refine h.events.create hCreated.fresh ?_ hCreated.told
        intro e he
        rw [List.mem_singleton.mp he]
        exact hCreated.recorded.1
      · rw [hCreated.requests, hCreated.revisions]
        refine h.revisions.create hCreated.fresh ?_
          hCreated.numbered
        intro v hv
        rw [List.mem_singleton.mp hv]
        exact hCreated.owner
  | @accepted env requestId actorUserId command old new event
      added hAccepted =>
      have hOld : old ∈ s.procurementRequests :=
        Table.mem_of_find hAccepted.found
      have hId : old.id = requestId :=
        Table.key_of_find hAccepted.found
      constructor
      · rw [hAccepted.writes.requests, hAccepted.writes.events]
        refine h.events.turn hOld hAccepted.turns.id_eq ?_
          hAccepted.turns.told
        intro e he
        rw [List.mem_singleton.mp he, hId]
        exact hAccepted.recorded.1
      · rw [hAccepted.writes.requests,
          hAccepted.writes.revisions]
        have hNumbered := hAccepted.numbered rfl
          (hId ▸ h.revisions.told old hOld)
        refine h.revisions.turn hOld hAccepted.turns.id_eq ?_
          fun _ => hId ▸ hNumbered
        rw [hId]
        exact hAccepted.added.owned

theorem ProcurementSteps.log
    {s₀ : Db}
    (hSteps : ProcurementSteps s₀ s)
    (h : ProcurementLog s₀) :
    ProcurementLog s := by
  induction hSteps with
  | refl => exact h
  | step _ hStep ih => exact ih.step hStep

/- What was completed stays as it is. -/
structure Closed
    (s s' : Db)
    (request : ProcurementRequest) : Prop where
  stays : request ∈ s'.procurementRequests
  events : eventsOfRequest request.id s' =
    eventsOfRequest request.id s
  revisions : revisionsOf request.id s' =
    revisionsOf request.id s

/- What is appended for others leaves a request alone. -/
theorem Closed.append
    {request : ProcurementRequest}
    {k : Uuid}
    {events : List ProcurementEvent}
    {revisions : List ProcurementRevision}
    {t : Db}
    (h : Closed s t request)
    (hStays : request ∈ s'.procurementRequests)
    (hNe : k ≠ request.id)
    (hEvents : s'.procurementEvents =
      t.procurementEvents ++ events)
    (hRevisions : s'.procurementRevisions =
      t.procurementRevisions ++ revisions)
    (hOwnEvents : ∀ e ∈ events, e.requestId = k)
    (hOwnRevisions : ∀ v ∈ revisions, v.requestId = k) :
    Closed s s' request where
  stays := hStays
  events := by
    rw [← h.events]
    unfold eventsOfRequest
    rw [hEvents]
    exact EventLog.of_append_of_ne hOwnEvents hNe
  revisions := by
    rw [← h.revisions]
    unfold revisionsOf
    rw [hRevisions]
    exact congrArg _ (EventLog.of_append_of_ne hOwnRevisions hNe)

theorem ProcurementSteps.closed
    {request : ProcurementRequest}
    (h : ProcurementLog s)
    (hSteps : ProcurementSteps s s')
    (hMem : request ∈ s.procurementRequests)
    (hCompleted : request.status = .completed) :
    Closed s s' request := by
  induction hSteps with
  | refl => exact ⟨hMem, rfl, rfl⟩
  | @step t t' hBefore hStep ih =>
      have hLog := hBefore.log h
      cases hStep.change with
      | same hSame =>
          refine ⟨?_, ?_, ?_⟩
          · rw [hSame.requests]
            exact ih.stays
          · rw [← ih.events]
            unfold eventsOfRequest
            rw [hSame.events]
          · rw [← ih.revisions]
            unfold revisionsOf
            rw [hSame.revisions]
      | created hCreated =>
          refine ih.append ?_
            (hCreated.fresh request ih.stays).symm
            hCreated.events hCreated.revisions ?_ ?_
          · rw [hCreated.requests]
            exact List.mem_append_left _ ih.stays
          · intro e he
            rw [List.mem_singleton.mp he]
            exact hCreated.recorded.1
          · intro v hv
            rw [List.mem_singleton.mp hv]
            exact hCreated.owner
      | @accepted _ requestId _ _ old new event _ hAccepted =>
          have hNe : requestId ≠ request.id := by
            intro hEq
            have hFound := hAccepted.found
            unfold Db.findRequest at hFound
            rw [hEq, Table.find_of_mem hLog.events.keys
              ih.stays] at hFound
            cases hFound
            exact hAccepted.turns.header.1.active hCompleted
          refine ih.append ?_ hNe hAccepted.writes.events
            hAccepted.writes.revisions ?_ hAccepted.added.owned
          · rw [hAccepted.writes.requests]
            refine Table.mem_rewrite.mpr (.inl ⟨ih.stays, ?_⟩)
            rw [hAccepted.turns.id_eq,
              Table.key_of_find hAccepted.found]
            exact hNe.symm
          · intro e he
            rw [List.mem_singleton.mp he]
            exact hAccepted.recorded.1

end Logs

namespace FirstRequest

end FirstRequest

end Procurement
