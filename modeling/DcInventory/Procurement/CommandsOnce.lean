import DcInventory.Library.Signatures
import DcInventory.Procurement.OfferedActions
import DcInventory.Procurement.Replay

/-
  This file proves that a command of procurement is accepted
  once for each actor and key, whatever is accepted between
  its repetitions, and that no two commands are accepted on
  one version of a request.

  Key definitions include:
    * `SameKey`
    * `Knows`

  Key theorems include:
    * `startCommand_repeated`
    * `ProcurementSteps.knows`
    * `commands_are_accepted_once`
-/

namespace Procurement

section Once

variable {env env' : ProcurementEnv}
variable {s s' s₁ s₂ : Db}
variable {requestId actorUserId : Uuid}
variable {command other : ProcurementCommand}
variable {record : ProcurementRecord}

------------------------------------------------------------
-- Repetitions
------------------------------------------------------------

/- The keys of two commands are the same when normalised. -/
def SameKey (command other : ProcurementCommand) : Prop :=
  normalizeClientRequestId other.expects.clientRequestId =
    normalizeClientRequestId command.expects.clientRequestId

def actionConflict : Error :=
  procurementConflictError
    "idempotency key was used for another procurement action"
    "idempotency_action_conflict"

def payloadConflict : Error :=
  procurementConflictError
    "idempotency key was used with another payload"
    "idempotency_payload_conflict"

/- What is found of a command whose key has an event. -/
theorem expected_repeated
    {record : ProcurementRecord}
    {key serialized : Text}
    {payload : ExpectedStateMutation}
    {eventType : ProcurementEventType}
    {event : ProcurementEvent}
    (hRecord : (getRequestRecord requestId true).run s =
      .ok (record, s))
    (hKey : normalizeClientRequestId payload.clientRequestId =
      .ok key)
    (hPrevious : s.procurementEvents.find? (fun e =>
      HasKey requestId actorUserId key e) = some event) :
    (lockAndValidateExpected env.sha256 requestId payload
      serialized actorUserId eventType).run s =
      if event.eventType = eventType then
        if event.requestFingerprint = env.sha256 serialized then
          .ok (⟨record, key, env.sha256 serialized,
            some event⟩, s)
        else .error payloadConflict
      else .error actionConflict := by
  have hFirst : s.procurementEvents.find? (fun e =>
      e.requestId = requestId ∧ e.actorUserId = actorUserId ∧
        e.clientRequestId = key) = some event := hPrevious
  unfold lockAndValidateExpected
  rw [Txn.run_bind, hRecord]
  dsimp only
  rw [hKey]
  change (Txn.query _ >>= _).run s = _
  rw [Txn.run_query_bind, hFirst]
  dsimp only
  rw [Txn.run_require_bind, Txn.run_require_bind]
  rfl

/- How a command starts whose key has an event already. -/
theorem startCommand_repeated
    (env : ProcurementEnv)
    {request : ProcurementRequest}
    {key : Text}
    {event : ProcurementEvent}
    (hFound : s.findRequest requestId = some request)
    (hKey : normalizeClientRequestId
      command.expects.clientRequestId = .ok key)
    (hPrevious : s.procurementEvents.find? (fun e =>
      HasKey requestId actorUserId key e) = some event) :
    ∃ expected : Expected,
      expected.record.request = request ∧
      expected.replay = some event ∧
      (startCommand env requestId command.expects
        command.serialized actorUserId command.eventType
          command.capabilities).run s =
        if event.eventType = command.eventType then
          if event.requestFingerprint =
              env.sha256 command.serialized then
            if (s.findUser actorUserId).any
                (mayAct command.capabilities) then
              .ok (expected, s)
            else .error capabilityLost
          else .error payloadConflict
        else .error actionConflict := by
  rcases loadRecord_run request s with
    ⟨record, hRequest, _, hLoad⟩
  refine ⟨⟨record, key, env.sha256 command.serialized,
    some event⟩, hRequest, rfl, ?_⟩
  have hRecord : (getRequestRecord requestId true).run s =
      .ok (record, s) := by
    unfold getRequestRecord
    rw [Txn.run_acquireAll_bind, Txn.run_query_bind, hFound,
      Txn.run_getOrFail_some]
    exact hLoad
  unfold startCommand
  rw [Txn.run_bind, expected_repeated hRecord hKey hPrevious]
  by_cases hType : event.eventType = command.eventType
  · rw [if_pos hType, if_pos hType]
    by_cases hPrint : event.requestFingerprint =
        env.sha256 command.serialized
    · rw [if_pos hPrint, if_pos hPrint]
      dsimp only
      unfold lockAndRequireActorCapabilities
      rw [Txn.bind_assoc_eq, Txn.run_acquire_bind,
        Txn.bind_assoc_eq, Txn.run_query_bind,
        Txn.run_require_bind]
      rfl
    · rw [if_neg hPrint, if_neg hPrint]
  · rw [if_neg hType, if_neg hType]

/- Every command starts in the same way. -/
theorem program_eq
    (env : ProcurementEnv)
    (requestId actorUserId : Uuid)
    (command : ProcurementCommand) :
    ∃ body : Expected → Op ProcurementRecord,
      command.program env requestId actorUserId = (do
        let expected ← startCommand env requestId
          command.expects command.serialized actorUserId
            command.eventType command.capabilities
        if expected.replay.isSome then pure expected.record
        else body expected) := by
  cases command <;> exact ⟨_, rfl⟩

/- A command that is repeated ends as it started. -/
theorem program_repeated
    (env : ProcurementEnv)
    {request : ProcurementRequest}
    {key : Text}
    {event : ProcurementEvent}
    (hFound : s.findRequest requestId = some request)
    (hKey : normalizeClientRequestId
      command.expects.clientRequestId = .ok key)
    (hPrevious : s.procurementEvents.find? (fun e =>
      HasKey requestId actorUserId key e) = some event) :
    ∃ record : ProcurementRecord, record.request = request ∧
      (command.program env requestId actorUserId).run s =
        if event.eventType = command.eventType then
          if event.requestFingerprint =
              env.sha256 command.serialized then
            if (s.findUser actorUserId).any
                (mayAct command.capabilities) then
              .ok (record, s)
            else .error capabilityLost
          else .error payloadConflict
        else .error actionConflict := by
  rcases startCommand_repeated env hFound hKey hPrevious with
    ⟨expected, hRequest, hReplay, hStart⟩
  rcases program_eq env requestId actorUserId command with
    ⟨body, hProgram⟩
  refine ⟨expected.record, hRequest, ?_⟩
  rw [hProgram, Txn.run_bind, hStart]
  by_cases hType : event.eventType = command.eventType
  · rw [if_pos hType, if_pos hType]
    by_cases hPrint : event.requestFingerprint =
        env.sha256 command.serialized
    · rw [if_pos hPrint, if_pos hPrint]
      by_cases hActor : (s.findUser actorUserId).any
          (mayAct command.capabilities) = true
      · rw [if_pos hActor, if_pos hActor]
        dsimp only
        rw [hReplay]
        rfl
      · rw [if_neg hActor, if_neg hActor]
    · rw [if_neg hPrint, if_neg hPrint]
  · rw [if_neg hType, if_neg hType]

------------------------------------------------------------
-- Later States
------------------------------------------------------------

/- The event of a call that returned is found by its key. -/
structure Knows
    (env : ProcurementEnv)
    (s : Db)
    (requestId actorUserId : Uuid)
    (command : ProcurementCommand) : Prop where
  request : ∃ request, s.findRequest requestId = some request
  event : ∃ key event,
    normalizeClientRequestId command.expects.clientRequestId =
      .ok key ∧
    s.procurementEvents.find? (fun e =>
      HasKey requestId actorUserId key e) = some event ∧
    event.eventType = command.eventType ∧
    event.requestFingerprint = env.sha256 command.serialized

/- The request has at least the version. -/
def AtLeast (requestId : Uuid) (version : Nat) (s : Db) : Prop :=
  ∃ request, s.findRequest requestId = some request ∧
    version ≤ request.stateVersion

theorem findRequest_append
    {requests : List ProcurementRequest}
    {request : ProcurementRequest}
    (hFound : s.findRequest requestId = some request)
    (hRequests : s'.procurementRequests =
      s.procurementRequests ++ requests) :
    s'.findRequest requestId = some request := by
  unfold Db.findRequest at hFound ⊢
  rw [hRequests]
  exact Table.find_append_of_some hFound

/- A written request is found with at least its version. -/
theorem Accepted.atLeast
    {old new : ProcurementRequest}
    {event : ProcurementEvent}
    {added : Additions}
    {version : Nat}
    {id : Uuid}
    (h : Accepted env s s' requestId actorUserId command old new
      event added)
    (hAt : AtLeast id version s) :
    AtLeast id version s' := by
  rcases hAt with ⟨request, hFound, hVersion⟩
  have hNewId : new.id = requestId :=
    h.turns.id_eq.trans (Table.key_of_find h.found)
  by_cases hSame : id = new.id
  · subst hSame
    have hOld : old = request := by
      have hFoundOld := h.found
      rw [← hNewId, hFound] at hFoundOld
      exact (Option.some.inj hFoundOld).symm
    subst hOld
    have hRaised : old.stateVersion ≤ new.stateVersion := by
      have hHeader := congrArg Header.version h.turns.header.2
      change old.stateVersion + 1 = new.stateVersion at hHeader
      omega
    refine ⟨new, ?_, hVersion.trans hRaised⟩
    unfold Db.findRequest
    rw [h.writes.requests]
    exact EventLog.find_turned_self hFound
  · refine ⟨request, ?_, hVersion⟩
    unfold Db.findRequest
    rw [h.writes.requests, EventLog.find_turned_of_ne hSame]
    exact hFound

theorem ProcurementStep.atLeast
    {version : Nat}
    {id : Uuid}
    (h : ProcurementStep s s')
    (hAt : AtLeast id version s) :
    AtLeast id version s' := by
  cases h.change with
  | same hSame =>
      rcases hAt with ⟨request, hFound, hVersion⟩
      refine ⟨request, ?_, hVersion⟩
      unfold Db.findRequest at hFound ⊢
      rw [hSame.requests]
      exact hFound
  | created hCreated =>
      rcases hAt with ⟨request, hFound, hVersion⟩
      exact ⟨request, findRequest_append hFound
        hCreated.requests, hVersion⟩
  | accepted hAccepted => exact hAccepted.atLeast hAt

/- Events are only appended. -/
theorem ProcurementStep.events_grow
    (h : ProcurementStep s s') :
    s.procurementEvents <+: s'.procurementEvents := by
  cases h.change with
  | same hSame => rw [hSame.events]
  | created hCreated =>
      rw [hCreated.events]
      exact List.prefix_append _ _
  | accepted hAccepted =>
      rw [hAccepted.writes.events]
      exact List.prefix_append _ _

theorem ProcurementSteps.atLeast
    {version : Nat}
    {id : Uuid}
    (h : ProcurementSteps s s')
    (hAt : AtLeast id version s) :
    AtLeast id version s' := by
  induction h with
  | refl => exact hAt
  | step _ hStep ih => exact hStep.atLeast ih

theorem ProcurementSteps.events_grow
    (h : ProcurementSteps s s') :
    s.procurementEvents <+: s'.procurementEvents := by
  induction h with
  | refl => exact List.prefix_rfl
  | step _ hStep ih => exact ih.trans hStep.events_grow

/- A call that returned is known in every later state. -/
theorem ProcurementSteps.knows
    (h : ProcurementSteps s s')
    (hKnows : Knows env s requestId actorUserId command) :
    Knows env s' requestId actorUserId command := by
  rcases hKnows.request with ⟨request, hFound⟩
  rcases hKnows.event with ⟨key, event, hKey, hEvent, hSame⟩
  rcases h.atLeast ⟨request, hFound, Nat.zero_le _⟩ with
    ⟨request', hFound', _⟩
  rcases h.events_grow with ⟨later, hLater⟩
  refine ⟨⟨request', hFound'⟩, key, event, hKey, ?_, hSame⟩
  rw [← hLater, List.find?_append, hEvent]
  rfl

/- A call that returned is known from then on. -/
theorem knows_of_run
    (hRun : (command.program env requestId actorUserId).run s =
      .ok (record, s')) :
    Knows env s' requestId actorUserId command := by
  rcases command_cases hRun with
    ⟨rfl, expected, hStarted, hReplay⟩ |
      ⟨old, new, event, added, hAccepted⟩
  · rcases Option.isSome_iff_exists.mp hReplay with
      ⟨event, hEvent⟩
    rcases hStarted.repeats event hEvent with
      ⟨hFind, hType, hPrint⟩
    exact ⟨⟨_, hStarted.found⟩, _, event, hStarted.key, hFind,
      hType, hPrint.trans hStarted.fingerprint⟩
  · rcases hAccepted.atLeast
      ⟨old, hAccepted.found, Nat.zero_le _⟩ with
      ⟨request, hFound, _⟩
    refine ⟨⟨request, hFound⟩, _, event, hAccepted.key, ?_,
      hAccepted.type, hAccepted.fingerprint⟩
    have hNone : s.procurementEvents.find? (fun e =>
        HasKey requestId actorUserId event.clientRequestId e) =
          none := by
      rw [List.find?_eq_none]
      intro e hMem hHas
      exact hAccepted.unused e hMem (of_decide_eq_true hHas)
    have hOwn : HasKey requestId actorUserId
        event.clientRequestId event :=
      ⟨hAccepted.recorded.1, hAccepted.recorded.2, rfl⟩
    rw [hAccepted.writes.events, List.find?_append, hNone,
      Option.none_or]
    exact List.find?_cons_of_pos (decide_eq_true hOwn)

/- An accepted command leaves a version that is past its own. -/
theorem Accepted.passed
    {old new : ProcurementRequest}
    {event : ProcurementEvent}
    {added : Additions}
    (h : Accepted env s s' requestId actorUserId command old new
      event added) :
    AtLeast requestId
      (command.expects.expectedStateVersion + 1) s' := by
  have hHeader := congrArg Header.version h.turns.header.2
  change old.stateVersion + 1 = new.stateVersion at hHeader
  have hNewId : new.id = requestId :=
    h.turns.id_eq.trans (Table.key_of_find h.found)
  refine ⟨new, ?_, ?_⟩
  · have hOld : Table.find ProcurementRequest.id new.id
        s.procurementRequests = some old := by
      rw [hNewId]
      exact h.found
    unfold Db.findRequest
    rw [h.writes.requests, ← hNewId]
    exact EventLog.find_turned_self hOld
  · rw [← h.version, hHeader]

------------------------------------------------------------
-- Later Commands
------------------------------------------------------------

/-
  What becomes of a command in a state where the key of an
  earlier one is known: nothing is ever written, and which
  answer is given depends on what was sent before.
-/
theorem answer_of_knows
    {sent : ProcurementCommand}
    (hDigest : env'.sha256 = env.sha256)
    (hKnows : Knows env s requestId actorUserId command)
    (hKey : SameKey command sent) :
    ∃ record : ProcurementRecord,
      s.findRequest requestId = some record.request ∧
      (sent.program env' requestId actorUserId).run s =
        if command.eventType = sent.eventType then
          if env.sha256 command.serialized =
              env.sha256 sent.serialized then
            if (s.findUser actorUserId).any
                (mayAct sent.capabilities) then
              .ok (record, s)
            else .error capabilityLost
          else .error payloadConflict
        else .error actionConflict := by
  rcases hKnows.request with ⟨request, hFound⟩
  rcases hKnows.event with
    ⟨key, event, hNormal, hEvent, hType, hPrint⟩
  rcases program_repeated env' hFound (hKey.trans hNormal)
    hEvent with ⟨record, hRequest, hAnswer⟩
  refine ⟨record, by rw [hRequest, hFound], ?_⟩
  rw [hAnswer, hType, hPrint, hDigest]

/-
  A command whose call returned is not carried out again by a
  later call with its key, whatever was committed since: the
  same command gets the request as it is now, another action
  or another payload is a conflict, and nothing is written. A
  command that is accepted later expects a later version.
-/
theorem commands_are_accepted_once
    (hRun : (command.program env requestId actorUserId).run s =
      .ok (record, s₁))
    (hSteps : ProcurementSteps s₁ s₂)
    (hDigest : env'.sha256 = env.sha256) :
    (∀ sent, SameKey command sent →
      (∀ answer s₃,
        (sent.program env' requestId actorUserId).run s₂ =
          .ok (answer, s₃) →
        s₃ = s₂ ∧
          s₂.findRequest requestId = some answer.request ∧
          sent.eventType = command.eventType) ∧
      (sent.eventType = command.eventType →
        sent.serialized = command.serialized →
        (s₂.findUser actorUserId).any
          (mayAct sent.capabilities) = true →
        ∃ answer,
          (sent.program env' requestId actorUserId).run s₂ =
            .ok (answer, s₂)) ∧
      (sent.eventType ≠ command.eventType →
        (sent.program env' requestId actorUserId).run s₂ =
          .error actionConflict) ∧
      (sent.eventType = command.eventType →
        sent.serialized ≠ command.serialized →
        CollisionFree env.sha256
          [command.serialized, sent.serialized] →
        (sent.program env' requestId actorUserId).run s₂ =
          .error payloadConflict)) ∧
    (∀ (sent : ProcurementCommand) otherUserId answer s₃,
      s₁ ≠ s →
      (sent.program env' requestId otherUserId).run s₂ =
        .ok (answer, s₃) →
      s₃ ≠ s₂ →
      command.expects.expectedStateVersion <
        sent.expects.expectedStateVersion) := by
  have hKnows := hSteps.knows (knows_of_run hRun)
  refine ⟨fun sent hKey => ?_, ?_⟩
  · rcases answer_of_knows hDigest hKnows hKey with
      ⟨record, hNow, hAnswer⟩
    refine ⟨fun answer s₃ hDone => ?_, fun hType hText hMay => ?_,
      fun hType => ?_, fun hType hText hFree => ?_⟩
    · rw [hAnswer] at hDone
      split_ifs at hDone with hType
      cases hDone
      exact ⟨rfl, hNow, hType.symm⟩
    · exact ⟨record, by
        rw [hAnswer, if_pos hType.symm, hText, if_pos rfl,
          if_pos hMay]⟩
    · rw [hAnswer, if_neg (Ne.symm hType)]
    · rw [hAnswer, if_pos hType.symm, if_neg]
      intro hEq
      exact hText (hFree _ (by simp) _ (by simp) hEq).symm
  · intro sent otherUserId answer s₃ hNew hDone hLater
    rcases command_cases hRun with
      ⟨hSame, _⟩ | ⟨old, new, event, added, hFirst⟩
    · exact absurd hSame hNew
    rcases command_cases hDone with
      ⟨hSame, _⟩ | ⟨old', new', event', added', hSecond⟩
    · exact absurd hSame hLater
    rcases hSteps.atLeast hFirst.passed with
      ⟨request, hFound, hVersion⟩
    have hRequest : request = old' := by
      have hOld := hSecond.found
      rw [hFound] at hOld
      exact Option.some.inj hOld
    rw [hRequest, hSecond.version] at hVersion
    exact hVersion

end Once

namespace FirstRequest

def laterEnv : ProcurementEnv := { env with eventId := ⟨26⟩ }

def acceptance : ProcurementCommand := .managerAccept mutation

theorem accepted :
    ∃ record₀ s₀ record s',
      (createRequest env payload owner.id).run start =
        .ok (record₀, s₀) ∧
      (acceptance.program laterEnv ⟨20⟩ manager.id).run s₀ =
        .ok (record, s') ∧
      s'.users = [owner, manager] :=
  ⟨_, _, _, _, rfl, rfl, rfl⟩

end FirstRequest

/- A manager who accepts twice accepts once. -/
theorem commands_are_accepted_once_first :
    ∃ s, (∃ answer, (FirstRequest.acceptance.program
        FirstRequest.laterEnv ⟨20⟩ FirstRequest.manager.id).run
          s = .ok (answer, s)) ∧
      ((ProcurementCommand.transferToAcceptance
        FirstRequest.mutation).program FirstRequest.laterEnv
          ⟨20⟩ FirstRequest.manager.id).run s =
        .error actionConflict := by
  rcases FirstRequest.accepted with
    ⟨_, s, record, s', _, hRun, hUsers⟩
  have hOnce := (commands_are_accepted_once hRun .refl rfl).1
  refine ⟨s', (hOnce FirstRequest.acceptance rfl).2.1 rfl rfl ?_,
    (hOnce (.transferToAcceptance FirstRequest.mutation)
      rfl).2.2.1 (by decide)⟩
  unfold Db.findUser
  rw [hUsers]
  rfl

end Procurement
