import DcInventory.Procurement.Histories
import DcInventory.Procurement.Refusals

/-
  This file proves that a record offers an actor exactly the
  actions whose commands are not refused.

  Key definitions include:
    * `Current`
    * `permits`
    * `ProcurementCommand.action`
    * `ProcurementCommand.Suitable`

  Key theorems include:
    * `startCommand_run`
    * `mem_availableActions_iff`
    * `refused_iff`
-/

open Txn (raises_ofExcept raises_getOrFail raises_require
  raises_query raises_acquire raises_pure)

namespace Procurement

------------------------------------------------------------
-- The Start Of A Command
------------------------------------------------------------

/-
  The actor has read the record just now, and has not used the
  key for this request before.
-/
structure Current
    (db : Db)
    (requestId : Uuid)
    (record : ProcurementRecord)
    (actor : User)
    (payload : ExpectedStateMutation) : Prop where
  loaded : (getRequestRecord requestId false).run db =
    .ok (record, db)
  known : db.findUser actor.id = some actor
  version : record.request.stateVersion =
    payload.expectedStateVersion
  revision : record.request.currentRevisionId =
    payload.expectedRevisionId
  fresh : ∃ key,
    normalizeClientRequestId payload.clientRequestId = .ok key ∧
      ∀ e ∈ db.procurementEvents,
        e.requestId = requestId → e.actorUserId = actor.id →
          e.clientRequestId ≠ key

variable {env : ProcurementEnv}
variable {db : Db}
variable {requestId : Uuid}
variable {record : ProcurementRecord}
variable {actor : User}
variable {payload : ExpectedStateMutation}

theorem getRequestRecord_lock :
    (getRequestRecord requestId true).run db =
      (getRequestRecord requestId false).run db := by
  unfold getRequestRecord
  rw [Txn.run_acquireAll_bind, Txn.run_acquireAll_bind]

/- A command that is current begins with its capabilities. -/
theorem startCommand_run
    (hCurrent : Current db requestId record actor payload)
    (serialized : Text)
    (eventType : ProcurementEventType)
    (capabilities : List Capability) :
    ∃ expected : Expected,
      expected.record = record ∧ expected.replay = none ∧
        (startCommand env requestId payload serialized actor.id
          eventType capabilities).run db =
            if mayAct capabilities actor then .ok (expected, db)
            else .error capabilityLost := by
  rcases hCurrent.fresh with ⟨key, hKey, hFresh⟩
  have hNone : db.procurementEvents.find? (fun e =>
      e.requestId = requestId ∧ e.actorUserId = actor.id ∧
        e.clientRequestId = key) = none := by
    rw [List.find?_eq_none]
    intro e hMem hEq
    have hSame := of_decide_eq_true hEq
    exact hFresh e hMem hSame.1 hSame.2.1 hSame.2.2
  refine ⟨⟨record, key, env.sha256 serialized, none⟩, rfl, rfl,
    ?_⟩
  have hExpected : (lockAndValidateExpected env.sha256 requestId
      payload serialized actor.id eventType).run db =
        .ok (⟨record, key, env.sha256 serialized, none⟩, db) := by
    unfold lockAndValidateExpected
    rw [Txn.run_bind, getRequestRecord_lock, hCurrent.loaded]
    dsimp only
    rw [hKey]
    change (Txn.query _ >>= _).run db = _
    rw [Txn.run_query_bind, hNone]
    rw [Txn.run_require_bind,
      if_pos ⟨hCurrent.version, hCurrent.revision⟩]
    rfl
  unfold startCommand
  rw [Txn.run_bind, hExpected]
  dsimp only
  unfold lockAndRequireActorCapabilities
  rw [Txn.bind_assoc_eq, Txn.run_acquire_bind,
    Txn.bind_assoc_eq, Txn.run_query_bind,
    Txn.run_require_bind, hCurrent.known]
  rfl

/-
  A command is refused unless its actor has its capabilities
  and what it asks passes its own guard.
-/
theorem refused_command_iff
    (hCurrent : Current db requestId record actor payload)
    {serialized : Text}
    {eventType : ProcurementEventType}
    {capabilities : List Capability}
    {body : Expected → Op ProcurementRecord}
    {guard : Prop}
    (hBody : mayAct capabilities actor = true →
      ∀ expected, expected.record = record →
        (Refused (body expected) db ↔ ¬ guard)) :
    Refused (do
      let expected ← startCommand env requestId payload
        serialized actor.id eventType capabilities
      if expected.replay.isSome then pure expected.record
      else body expected) db ↔
        ¬ (mayAct capabilities actor = true ∧ guard) := by
  rcases @startCommand_run env _ _ _ _ _ hCurrent serialized
    eventType capabilities with
    ⟨expected, hRecord, hReplay, hRun⟩
  by_cases hMay : mayAct capabilities actor = true
  · rw [if_pos hMay] at hRun
    rw [refused_bind_of_run hRun, hReplay]
    simpa [hMay] using hBody hMay expected hRecord
  · rw [if_neg hMay] at hRun
    exact iff_of_true (refused_fail_bind hRun rfl)
      (fun h => hMay h.1)

------------------------------------------------------------
-- Guards
------------------------------------------------------------

variable {α : Type}
variable {request : ProcurementRequest}
variable {target : ProcurementStatus}

theorem setStatus_raises
    (h : transitionAllowed request.status target = true) :
    (setStatus request target).Raises NotRefusal := by
  unfold setStatus
  rw [if_pos h]
  exact Except.raises_ok _

/- A step that the status may not take is refused. -/
theorem refused_setStatus_iff
    {f : ProcurementRequest → Op α}
    (hNext : ∀ changed, (f changed).Raises NotRefusal) :
    Refused (.ofExcept (setStatus request target) >>= f) db ↔
      ¬ transitionAllowed request.status target = true := by
  by_cases h : transitionAllowed request.status target = true
  · refine iff_of_false (not_refused ?_) (not_not.mpr h)
    exact (raises_ofExcept (setStatus_raises h)).bind hNext
  · refine iff_of_true (refused_fail_bind
      (e := invalidTransition "invalid procurement transition")
      ?_ rfl) h
    unfold setStatus
    rw [if_neg h]
    rfl

theorem refused_requireStatus_iff
    {statuses : List ProcurementStatus}
    {f : Unit → Op α} :
    Refused (.ofExcept (requireStatus request statuses) >>= f)
        db ↔
      request.status ∉ statuses ∨ Refused (f ()) db := by
  unfold requireStatus
  by_cases h : request.status ∈ statuses
  · rw [if_pos h]
    change Refused (f ()) db ↔ _
    simp [h]
  · rw [if_neg h]
    exact iff_of_true ⟨_, rfl, rfl⟩ (.inl h)

------------------------------------------------------------
-- Commands Of Managers
------------------------------------------------------------

theorem refused_managerAccept_iff
    (hCurrent : Current db requestId record actor payload) :
    Refused (managerAccept env requestId payload actor.id) db ↔
      ¬ (mayAct [.procurementManage] actor = true ∧
        transitionAllowed record.request.status .purchasing =
          true) := by
  refine refused_command_iff hCurrent ?_
  rintro - expected rfl
  refine refused_setStatus_iff fun changed => ?_
  exact (recordCommand_raises notRefusal_of_notProcurement
    _ _ _ _ _ _ (Except.raises_ok _)).bind fun _ =>
      getRequestRecord_raises (by rfl) _ _

theorem refused_transferToAcceptance_iff
    (hCurrent : Current db requestId record actor payload) :
    Refused (transferToAcceptance env requestId payload
        actor.id) db ↔
      ¬ (mayAct [.procurementManage] actor = true ∧
        transitionAllowed record.request.status
          .awaitingAcceptance = true) := by
  refine refused_command_iff hCurrent ?_
  rintro - expected rfl
  refine refused_setStatus_iff fun changed => ?_
  exact (recordCommand_raises notRefusal_of_notProcurement
    _ _ _ _ _ _ (Except.raises_ok _)).bind fun _ =>
      (raises_query _).bind fun _ =>
      (raises_ofExcept (currentLines_raises _)).bind fun _ =>
      (tell_raises _ _ _ _ _).bind fun _ =>
        getRequestRecord_raises (by rfl) _ _

/- The statuses from which a request may be returned. -/
theorem transitionAllowed_of_returnable
    {status : ProcurementStatus}
    (h : status ∈ [ProcurementStatus.agreementPendingManager,
      .awaitingAcceptance]) :
    transitionAllowed status .agreementRevisionRequired =
      true := by
  revert h
  cases status <;> decide

theorem refused_returnForCorrection_iff
    {payload : CorrectionRequest}
    (hCurrent : Current db requestId record actor
      payload.toExpectedStateMutation) :
    Refused (returnForCorrection env requestId payload
        actor.id) db ↔
      ¬ (mayAct [.procurementManage] actor = true ∧
        record.request.status ∈
          [ProcurementStatus.agreementPendingManager,
            .awaitingAcceptance]) := by
  refine refused_command_iff hCurrent ?_
  rintro - expected rfl
  rw [refused_requireStatus_iff]
  by_cases hStatus : expected.record.request.status ∈
      [ProcurementStatus.agreementPendingManager,
        .awaitingAcceptance]
  · refine iff_of_false ?_ (not_not.mpr hStatus)
    refine not_or.mpr ⟨not_not.mpr hStatus, not_refused ?_⟩
    refine (prepareProposal_raises _ _).bind fun proposal =>
      (raises_ofExcept (setStatus_raises
        (transitionAllowed_of_returnable hStatus))).bind
          fun changed => ?_
    exact (recordCommand_raises notRefusal_of_notProcurement
      _ _ _ _ _ _
        ((normalizeRequiredComment_raises _).map _)).bind
        fun _ =>
        (raises_ofExcept (currentLines_raises _)).bind fun _ =>
        (tell_raises _ _ _ _ _).bind fun _ =>
          getRequestRecord_raises (by rfl) _ _
  · exact iff_of_true (.inl hStatus) hStatus

/- Only managers manage procurement. -/
theorem role_of_procurementManage
    {role : UserRole}
    (h : hasCapability role .procurementManage = true) :
    role = .manager := by
  revert h
  cases role <;> decide

theorem validateManager_run
    (hActor : db.findUser actor.id = some actor)
    (hMay : mayAct [.procurementManage] actor = true) :
    (validateManager actor.id).run db = .ok (actor, db) := by
  have hBoth := of_decide_eq_true hMay
  have hRole : actor.role = .manager :=
    role_of_procurementManage (hBoth.2 _ (by simp))
  unfold validateManager
  rw [Txn.run_acquire_bind, Txn.run_query_bind, hActor,
    Txn.run_getOrFail_some, Txn.run_require_bind,
    if_pos ⟨hRole, hBoth.1⟩]
  rfl

/-
  An assignment is refused for a completed request, and to the
  manager who has it already.
-/
theorem refused_changeAssignment_iff
    {payload : AssignmentMutation}
    (hCurrent : Current db requestId record actor
      payload.toExpectedStateMutation)
    (hAssigned : record.request.assignedManagerUserId =
      payload.expectedAssignedManagerUserId)
    {serialized : Text}
    {targetUserId : Uuid}
    {eventType : ProcurementEventType}
    (hTarget : targetUserId = actor.id ∨
      record.request.assignedManagerUserId ≠ targetUserId) :
    Refused (changeAssignment env requestId payload serialized
        actor.id targetUserId eventType) db ↔
      ¬ (mayAct [.procurementManage] actor = true ∧
        record.request.status ∈ activeProcurementStatuses ∧
        record.request.assignedManagerUserId ≠
          targetUserId) := by
  refine refused_command_iff hCurrent ?_
  rintro hMay expected rfl
  have hStale : (Txn.require
      (expected.record.request.assignedManagerUserId =
        payload.expectedAssignedManagerUserId)
      (procurementConflictError "manager assignment is stale"
        "stale_assignment") : Op Unit).run db = .ok ((), db) :=
    Txn.run_require_eq_ok_iff.mpr ⟨hAssigned, rfl⟩
  rw [refused_require_iff rfl, refused_bind_of_run hStale,
    not_and_or]
  refine or_congr_right ?_
  by_cases hSame :
      expected.record.request.assignedManagerUserId =
        targetUserId
  · refine iff_of_true ?_ (not_not.mpr hSame)
    have hSelf : targetUserId = actor.id :=
      hTarget.resolve_right (not_not.mpr hSame)
    subst hSelf
    rw [refused_bind_of_run
      (validateManager_run hCurrent.known hMay)]
    exact (refused_require_iff rfl).mpr (.inl (not_not.mpr hSame))
  · refine iff_of_false ?_ (not_not.mpr hSame)
    refine not_refused_bind (validateManager_raises _)
      fun _ db' => ?_
    rw [refused_require_iff rfl]
    refine not_or.mpr ⟨not_not.mpr hSame, not_refused ?_⟩
    exact (recordCommand_raises notRefusal_of_notProcurement
      _ _ _ _ _ _ (Except.raises_ok _)).bind fun _ =>
        (raises_ofExcept (currentLines_raises _)).bind fun _ =>
        (tell_raises _ _ _ _ _).bind fun _ =>
          getRequestRecord_raises (by rfl) _ _

------------------------------------------------------------
-- Commands Of Others
------------------------------------------------------------

/- A revision is submitted by the initiator, where asked. -/
theorem refused_submitRevision_iff
    {payload : RevisionCreate}
    (hCurrent : Current db requestId record actor
      payload.toExpectedStateMutation) :
    Refused (submitRevision env requestId payload actor.id)
        db ↔
      ¬ (mayAct [.procurementCreate] actor = true ∧
        actor.id = record.request.initiatorUserId ∧
        record.request.status = .agreementRevisionRequired) := by
  refine refused_command_iff hCurrent ?_
  rintro - expected rfl
  rw [refused_require_iff rfl, refused_requireStatus_iff,
    not_and_or, eq_comm]
  refine or_congr_right ?_
  rw [List.mem_singleton]
  by_cases hStatus : expected.record.request.status =
      .agreementRevisionRequired
  · refine iff_of_false ?_ (not_not.mpr hStatus)
    refine not_or.mpr ⟨not_not.mpr hStatus, not_refused ?_⟩
    refine (prepareLines_raises _ _).bind fun lines =>
      (raises_getOrFail (by rfl)).bind fun last =>
      (actorSnapshot_raises _).bind fun snapshot =>
      (insertRevision_raises _).bind fun _ =>
      (insertLines_raises _).bind fun _ =>
      (raises_ofExcept (setStatus_raises ?_)).bind fun moved =>
      ((updateRequest_raises _).mono
        notRefusal_of_notProcurement).bind fun _ =>
      ((insertEvent_raises _).mono
        notRefusal_of_notProcurement).bind fun _ =>
      (tell_raises _ _ _ _ _).bind fun _ =>
      (getRequestRecord_raises (by rfl) _ _).bind fun _ =>
      (checkCurrentRevision_raises _).bind fun _ =>
        raises_pure _
    rw [hStatus]
    rfl
  · exact iff_of_true (.inl hStatus) hStatus

theorem refused_reportDiscrepancy_iff
    {payload : DiscrepancyCreate}
    (hCurrent : Current db requestId record actor
      payload.toExpectedStateMutation) :
    Refused (reportDiscrepancy env requestId payload actor.id)
        db ↔
      ¬ (mayAct [.procurementAccept] actor = true ∧
        record.request.status = .awaitingAcceptance) := by
  refine refused_command_iff hCurrent ?_
  rintro - expected rfl
  rw [refused_requireStatus_iff, List.mem_singleton,
    or_iff_left]
  refine not_refused ((recordCommand_raises
    notRefusal_of_notProcurement _ _ _ _ _ _
      ((normalizeRequiredComment_raises _).map _)).bind fun _ =>
        ?_)
  exact (raises_ofExcept (currentLines_raises _)).bind fun _ =>
    (tell_raises _ _ _ _ _).bind fun _ =>
      getRequestRecord_raises (by rfl) _ _

theorem refused_completeAcceptance_iff
    {payload : ProcurementAcceptanceCreate}
    (hCurrent : Current db requestId record actor
      payload.toExpectedStateMutation) :
    Refused (completeAcceptance env requestId payload actor.id)
        db ↔
      ¬ (mayAct [.procurementAccept] actor = true ∧
        record.request.status = .awaitingAcceptance) := by
  refine refused_command_iff hCurrent ?_
  rintro - expected rfl
  rw [refused_requireStatus_iff, List.mem_singleton]
  by_cases hStatus : expected.record.request.status =
      .awaitingAcceptance
  · refine iff_of_false ?_ (not_not.mpr hStatus)
    refine not_or.mpr ⟨not_not.mpr hStatus, not_refused ?_⟩
    refine (raises_ofExcept (currentLines_raises _)).bind
        fun lines =>
      (acceptedQuantities_raises _).bind fun quantities =>
      (actorSnapshot_raises _).bind fun snapshot =>
      (raises_getOrFail (by rfl)).bind fun call =>
      ((createMovement_raises _ _).mono
        notRefusal_of_notProcurement).bind fun movement =>
      (raises_require (by rfl)).bind fun _ =>
      (raises_ofExcept (setStatus_raises ?_)).bind fun moved =>
      (recordCommand_raises notRefusal_of_notProcurement
        _ _ _ _ _ _ (Except.raises_ok _)).bind fun _ =>
      (tell_raises _ _ _ _ _).bind fun _ =>
      (getRequestRecord_raises (by rfl) _ _).bind fun _ =>
      ((checkLineCount_raises _).mono
        notRefusal_of_notProcurement).bind fun _ =>
        raises_pure _
    rw [hStatus]
    rfl
  · exact iff_of_true (.inl hStatus) hStatus

------------------------------------------------------------
-- Binding
------------------------------------------------------------

/- The line that a command names is one to be bound. -/
def bindable
    (lines : List LineRecord)
    (lineId : Uuid) : Prop :=
  ∃ line, lines.find? (fun l => l.line.id = lineId) =
    some line ∧ line.isUnbound = true

section Lines

variable {lines : List LineRecord}
variable {lineId : Uuid}

theorem unboundLine_eq_ok
    (hLines : record.currentLines = .ok lines)
    (hOpen : record.request.status ≠ .completed)
    {line : LineRecord}
    (hFind : lines.find? (fun l => l.line.id = lineId) =
      some line)
    (hUnbound : line.isUnbound = true) :
    unboundLine record lineId = .ok line := by
  have hBoth := of_decide_eq_true hUnbound
  have hSome : ¬ line.binding.isSome = true := by
    rw [Option.not_isSome_iff_eq_none]
    exact Option.isNone_iff_eq_none.mp hBoth.2
  unfold unboundLine
  rw [if_neg hOpen, hLines, Except.ok_bind, hFind]
  dsimp only
  rw [if_neg (not_not.mpr hBoth.1), if_neg hSome]

theorem unboundLine_refuses
    (hLines : record.currentLines = .ok lines)
    (h : ¬ (record.request.status ≠ .completed ∧
      bindable lines lineId)) :
    ∃ e, unboundLine record lineId = .error e ∧
      isRefusal e = true := by
  unfold unboundLine
  by_cases hOpen : record.request.status = .completed
  · rw [if_pos hOpen]
    exact ⟨_, rfl, rfl⟩
  rw [if_neg hOpen, hLines, Except.ok_bind]
  cases hFind : lines.find? (fun l => l.line.id = lineId) with
  | none => exact ⟨_, rfl, rfl⟩
  | some line =>
      dsimp only
      by_cases hType : line.line.lineType = .proposedItem
      · rw [if_neg (not_not.mpr hType)]
        have hBound : line.binding.isSome = true := by
          by_contra hNone
          rw [Option.not_isSome_iff_eq_none] at hNone
          exact h ⟨hOpen, line, hFind, decide_eq_true
            ⟨hType, Option.isNone_iff_eq_none.mpr hNone⟩⟩
        rw [if_pos hBound]
        exact ⟨_, rfl, rfl⟩
      · rw [if_pos hType]
        exact ⟨_, rfl, rfl⟩

/- A line is found to be bound, or the command is refused. -/
theorem refused_unboundLine_iff
    (hLines : record.currentLines = .ok lines)
    {f : LineRecord → Op α}
    (hNext : ∀ line, (f line).Raises NotRefusal) :
    Refused (.ofExcept (unboundLine record lineId) >>= f) db ↔
      ¬ (record.request.status ≠ .completed ∧
        bindable lines lineId) := by
  by_cases h : record.request.status ≠ .completed ∧
      bindable lines lineId
  · rcases h.2 with ⟨line, hFind, hUnbound⟩
    rw [unboundLine_eq_ok hLines h.1 hFind hUnbound]
    exact iff_of_false (not_refused (hNext line))
      (not_not.mpr h)
  · rcases unboundLine_refuses hLines h with ⟨e, hError, hE⟩
    rw [hError]
    exact iff_of_true ⟨e, rfl, hE⟩ h

theorem bindTo_raises
    {ok : Error → Prop}
    (hOk : ∀ e, NotProcurement e → ok e)
    (env : ProcurementEnv)
    (expected : Expected)
    (lineId itemId actorUserId : Uuid)
    (metadata : List (Text × Json)) :
    (bindTo env expected lineId itemId actorUserId
      metadata).Raises ok :=
  recordCommand_raises hOk _ _ _ _ _ _ (Except.raises_ok _)

theorem refused_bindLine_iff
    {payload : LineBindingCreate}
    (hCurrent : Current db requestId record actor
      payload.toExpectedStateMutation)
    (hLines : record.currentLines = .ok lines) :
    Refused (bindLine env requestId payload actor.id) db ↔
      ¬ (mayAct [.procurementAccept] actor = true ∧
        record.request.status ≠ .completed ∧
        bindable lines payload.lineId) := by
  refine refused_command_iff hCurrent ?_
  rintro - expected rfl
  refine refused_unboundLine_iff hLines fun line => ?_
  exact (raises_acquire _).bind fun _ =>
    (raises_query _).bind fun _ =>
    (raises_getOrFail (by rfl)).bind fun item =>
    (raises_require (by rfl)).bind fun _ =>
    (raises_require (by rfl)).bind fun _ =>
    (raises_ofExcept (currentLines_raises _)).bind fun _ =>
    (raises_ofExcept
      (validateAggregatedItemQuantities_raises _ _)).bind
      fun _ =>
    (bindTo_raises notRefusal_of_notProcurement
      _ _ _ _ _ _).bind fun _ =>
      getRequestRecord_raises (by rfl) _ _

theorem refused_createAndBindLine_iff
    {payload : ProposedItemCreateAndBind}
    (hCurrent : Current db requestId record actor
      payload.toExpectedStateMutation)
    (hLines : record.currentLines = .ok lines) :
    Refused (createAndBindLine env requestId payload actor.id)
        db ↔
      ¬ (mayAct [.procurementAccept, .catalogManage] actor =
          true ∧
        record.request.status ≠ .completed ∧
        bindable lines payload.lineId) := by
  refine refused_command_iff hCurrent ?_
  rintro - expected rfl
  refine refused_unboundLine_iff hLines fun line => ?_
  exact (raises_query _).bind fun db =>
    (raises_ofExcept
      ((Catalog.validateItemCreatePayload_raises _ db _).mono
        notRefusal_of_notProcurement)).bind fun _ =>
    (raises_require (by rfl)).bind fun _ =>
    ((Catalog.createItem_raises _ _ _ _).mono
      notRefusal_of_notProcurement).bind fun _ =>
    (bindTo_raises notRefusal_of_notProcurement
      _ _ _ _ _ _).bind fun _ =>
      getRequestRecord_raises (by rfl) _ _

end Lines

------------------------------------------------------------
-- Actions
------------------------------------------------------------

/- What must be so for an action of the actor. -/
def permits
    (request : ProcurementRequest)
    (lines : List LineRecord)
    (actor : User) : ProcurementAction → Prop
| .takeOwnership =>
    hasCapability actor.role .procurementManage = true ∧
      request.status ∈ activeProcurementStatuses ∧
      request.assignedManagerUserId ≠ actor.id
| .transferManager =>
    hasCapability actor.role .procurementManage = true ∧
      request.status ∈ activeProcurementStatuses
| .managerAccept =>
    hasCapability actor.role .procurementManage = true ∧
      request.status = .agreementPendingManager
| .returnForCorrection =>
    hasCapability actor.role .procurementManage = true ∧
      request.status ∈
        [ProcurementStatus.agreementPendingManager,
          .awaitingAcceptance]
| .transferToAcceptance =>
    hasCapability actor.role .procurementManage = true ∧
      request.status = .purchasing
| .submitRevision =>
    hasCapability actor.role .procurementCreate = true ∧
      actor.id = request.initiatorUserId ∧
      request.status = .agreementRevisionRequired
| .bindLines =>
    hasCapability actor.role .procurementAccept = true ∧
      request.status ≠ .completed ∧
      ∃ line ∈ lines, line.isUnbound = true
| .reportDiscrepancy | .completeAcceptance =>
    hasCapability actor.role .procurementAccept = true ∧
      request.status = .awaitingAcceptance

theorem mem_managerActions_iff
    {lines : List LineRecord}
    {action : ProcurementAction} :
    action ∈ managerActions request actor ↔
      hasCapability actor.role .procurementManage = true ∧
        action ∈ [ProcurementAction.takeOwnership,
          .transferManager, .managerAccept,
          .returnForCorrection, .transferToAcceptance] ∧
        permits request lines actor action := by
  unfold managerActions
  by_cases hCapability :
      hasCapability actor.role .procurementManage = true
  · cases hStatus : request.status <;>
      by_cases hAssigned :
        request.assignedManagerUserId = actor.id <;>
      cases action <;>
      simp [hCapability, hStatus, hAssigned, permits,
        activeProcurementStatuses]
  · simp [hCapability]

theorem mem_initiatorActions_iff
    {lines : List LineRecord}
    {action : ProcurementAction} :
    action ∈ initiatorActions request actor ↔
      action = .submitRevision ∧
        permits request lines actor action := by
  unfold initiatorActions
  split
  · rename_i h
    rw [List.mem_singleton]
    exact ⟨fun hAction => ⟨hAction, hAction ▸ h⟩, And.left⟩
  · rename_i h
    refine iff_of_false List.not_mem_nil ?_
    rintro ⟨rfl, hPermits⟩
    exact h hPermits

theorem mem_technicalActions_iff
    {lines : List LineRecord}
    (hLines : record.currentLines = .ok lines) :
    ∃ actions, technicalActions record actor = .ok actions ∧
      ∀ action, action ∈ actions ↔
        action ∈ [ProcurementAction.bindLines,
          .reportDiscrepancy, .completeAcceptance] ∧
        permits record.request lines actor action := by
  unfold technicalActions
  dsimp only
  by_cases hCapability :
      hasCapability actor.role .procurementAccept = true
  · rw [if_neg (not_not.mpr hCapability)]
    cases hStatus : record.request.status <;>
      rw [hLines] <;>
      refine ⟨_, rfl, fun action => ?_⟩ <;>
      cases action <;>
      simp [permits, hCapability, hStatus]
  · rw [if_pos hCapability]
    refine ⟨[], rfl, fun action => ?_⟩
    cases action <;> simp [permits, hCapability]

/- The actions that a record offers are those permitted. -/
theorem mem_availableActions_iff
    {lines : List LineRecord}
    (hLines : record.currentLines = .ok lines) :
    ∃ actions, availableActions record actor = .ok actions ∧
      ∀ action, action ∈ actions ↔
        permits record.request lines actor action := by
  rcases @mem_technicalActions_iff record actor _ hLines with
    ⟨technical, hTechnical, hMem⟩
  refine ⟨managerActions record.request actor ++
    initiatorActions record.request actor ++ technical, ?_,
    fun action => ?_⟩
  · unfold availableActions
    rw [hTechnical]
    rfl
  · rw [List.mem_append, List.mem_append, hMem,
      @mem_managerActions_iff _ _ lines,
      @mem_initiatorActions_iff _ _ lines]
    cases action <;> simp [permits]

------------------------------------------------------------
-- Commands
------------------------------------------------------------

namespace ProcurementCommand

/- The action that offers the command. -/
def action : ProcurementCommand → ProcurementAction
| takeOwnership _ => .takeOwnership
| transferManager _ => .transferManager
| managerAccept _ => .managerAccept
| returnForCorrection _ => .returnForCorrection
| transferToAcceptance _ => .transferToAcceptance
| submitRevision _ => .submitRevision
| bindLine _ => .bindLines
| createAndBindLine _ => .bindLines
| reportDiscrepancy _ => .reportDiscrepancy
| completeAcceptance _ => .completeAcceptance

/- The assignment that the command expects is current. -/
def Assigned
    (request : ProcurementRequest) :
    ProcurementCommand → Prop
| takeOwnership payload | transferManager ⟨payload, _⟩ =>
    request.assignedManagerUserId =
      payload.expectedAssignedManagerUserId
| _ => True

/-
  The other arguments suit the request: it is transferred to
  another user, and a line is bound that is not bound yet, if
  there is one.
-/
def Suitable
    (request : ProcurementRequest)
    (lines : List LineRecord) : ProcurementCommand → Prop
| transferManager payload =>
    request.assignedManagerUserId ≠ payload.managerUserId
| bindLine payload =>
    (∃ line ∈ lines, line.isUnbound = true) →
      bindable lines payload.lineId
| createAndBindLine payload =>
    (∃ line ∈ lines, line.isUnbound = true) →
      bindable lines payload.lineId
| _ => True

end ProcurementCommand

/- An approved user may act who has the capability. -/
theorem mayAct_singleton_iff
    (hApproved : actor.accessStatus = .approved)
    {capability : Capability} :
    mayAct [capability] actor = true ↔
      hasCapability actor.role capability = true := by
  simp [mayAct, hApproved]

/- Who accepts deliveries manages the catalog. -/
theorem catalogManage_of_procurementAccept
    {role : UserRole}
    (h : hasCapability role .procurementAccept = true) :
    hasCapability role .catalogManage = true := by
  revert h
  cases role <;> decide

theorem mayAct_accept_iff
    (hApproved : actor.accessStatus = .approved) :
    mayAct [.procurementAccept, .catalogManage] actor = true ↔
      hasCapability actor.role .procurementAccept = true := by
  have hBoth : mayAct [.procurementAccept, .catalogManage]
      actor = true ↔
      hasCapability actor.role .procurementAccept = true ∧
        hasCapability actor.role .catalogManage = true := by
    simp [mayAct, hApproved]
  rw [hBoth]
  exact and_iff_left_of_imp catalogManage_of_procurementAccept

/- A line that may be bound is there exactly if one is. -/
theorem bindable_iff
    {lines : List LineRecord}
    {lineId : Uuid}
    (hSuitable : (∃ line ∈ lines, line.isUnbound = true) →
      bindable lines lineId) :
    bindable lines lineId ↔
      ∃ line ∈ lines, line.isUnbound = true := by
  refine ⟨?_, hSuitable⟩
  rintro ⟨line, hFind, hUnbound⟩
  exact ⟨line, List.mem_of_find?_eq_some hFind, hUnbound⟩

/- A suitable command is refused unless it is permitted. -/
theorem refused_iff
    {lines : List LineRecord}
    (hLines : record.currentLines = .ok lines)
    (hApproved : actor.accessStatus = .approved)
    {c : ProcurementCommand}
    (hCurrent : Current db requestId record actor c.expects)
    (hAssigned : c.Assigned record.request)
    (hSuitable : c.Suitable record.request lines) :
    Refused (c.program env requestId actor.id) db ↔
      ¬ permits record.request lines actor c.action := by
  have hPurchasing (status : ProcurementStatus) :
      transitionAllowed status .purchasing = true ↔
        status = .agreementPendingManager := by
    cases status <;> decide
  have hAwaiting (status : ProcurementStatus) :
      transitionAllowed status .awaitingAcceptance = true ↔
        status = .purchasing := by
    cases status <;> decide
  cases c with
  | takeOwnership payload =>
      refine (refused_changeAssignment_iff hCurrent hAssigned
        (.inl rfl)).trans (not_congr ?_)
      rw [mayAct_singleton_iff hApproved]
      rfl
  | transferManager payload =>
      refine (refused_changeAssignment_iff hCurrent hAssigned
        (.inr hSuitable)).trans (not_congr ?_)
      rw [mayAct_singleton_iff hApproved]
      exact and_congr_right fun _ =>
        and_iff_left_of_imp fun _ => hSuitable
  | managerAccept payload =>
      refine (refused_managerAccept_iff hCurrent).trans
        (not_congr ?_)
      rw [mayAct_singleton_iff hApproved, hPurchasing]
      rfl
  | returnForCorrection payload =>
      refine (refused_returnForCorrection_iff hCurrent).trans
        (not_congr ?_)
      rw [mayAct_singleton_iff hApproved]
      rfl
  | transferToAcceptance payload =>
      refine (refused_transferToAcceptance_iff hCurrent).trans
        (not_congr ?_)
      rw [mayAct_singleton_iff hApproved, hAwaiting]
      rfl
  | submitRevision payload =>
      refine (refused_submitRevision_iff hCurrent).trans
        (not_congr ?_)
      rw [mayAct_singleton_iff hApproved]
      rfl
  | bindLine payload =>
      refine (refused_bindLine_iff hCurrent hLines).trans
        (not_congr ?_)
      rw [mayAct_singleton_iff hApproved,
        bindable_iff hSuitable]
      rfl
  | createAndBindLine payload =>
      refine (refused_createAndBindLine_iff hCurrent
        hLines).trans (not_congr ?_)
      rw [mayAct_accept_iff hApproved, bindable_iff hSuitable]
      rfl
  | reportDiscrepancy payload =>
      refine (refused_reportDiscrepancy_iff hCurrent).trans
        (not_congr ?_)
      rw [mayAct_singleton_iff hApproved]
      rfl
  | completeAcceptance payload =>
      refine (refused_completeAcceptance_iff hCurrent).trans
        (not_congr ?_)
      rw [mayAct_singleton_iff hApproved]
      rfl

/- For every action there is a command that may suit. -/
theorem exists_suitable
    (request : ProcurementRequest)
    {lines : List LineRecord}
    (hUnique : (lines.map (fun l => l.line.id)).Nodup)
    (payload : ExpectedStateMutation)
    (action : ProcurementAction) :
    ∃ c : ProcurementCommand, c.action = action ∧
      c.expects = payload ∧ c.Assigned request ∧
        c.Suitable request lines := by
  have hOther : ∃ userId : Uuid,
      request.assignedManagerUserId ≠ userId := by
    refine ⟨⟨request.assignedManagerUserId.bits + 1⟩,
      fun h => ?_⟩
    have hBits := congrArg Uuid.bits h
    dsimp only at hBits
    bv_omega
  have hLine : ∃ lineId : Uuid,
      (∃ line ∈ lines, line.isUnbound = true) →
        bindable lines lineId := by
    by_cases h : ∃ line ∈ lines, line.isUnbound = true
    · rcases h with ⟨line, hMem, hUnbound⟩
      exact ⟨line.line.id, fun _ =>
        ⟨line, Table.find_of_mem hUnique hMem, hUnbound⟩⟩
    · exact ⟨⟨0⟩, fun hSome => (h hSome).elim⟩
  rcases hOther with ⟨userId, hUser⟩
  rcases hLine with ⟨lineId, hLineId⟩
  cases action with
  | takeOwnership =>
      exact ⟨.takeOwnership
        ⟨payload, request.assignedManagerUserId⟩,
        rfl, rfl, rfl, trivial⟩
  | transferManager =>
      exact ⟨.transferManager
        ⟨⟨payload, request.assignedManagerUserId⟩, userId⟩,
        rfl, rfl, rfl, hUser⟩
  | managerAccept =>
      exact ⟨.managerAccept payload, rfl, rfl, trivial, trivial⟩
  | returnForCorrection =>
      exact ⟨.returnForCorrection ⟨payload, ".".toList, none,
        by decide, by decide, by simp⟩,
        rfl, rfl, trivial, trivial⟩
  | transferToAcceptance =>
      exact ⟨.transferToAcceptance payload,
        rfl, rfl, trivial, trivial⟩
  | submitRevision =>
      exact ⟨.submitRevision ⟨payload, none,
        [.existing ⟨⟨0⟩, 1, by decide, by decide⟩],
        by simp, by decide, by decide⟩,
        rfl, rfl, trivial, trivial⟩
  | bindLines =>
      exact ⟨.bindLine ⟨payload, ⟨0⟩, lineId⟩,
        rfl, rfl, trivial, hLineId⟩
  | reportDiscrepancy =>
      exact ⟨.reportDiscrepancy ⟨payload, ".".toList,
        by decide, by decide⟩, rfl, rfl, trivial, trivial⟩
  | completeAcceptance =>
      exact ⟨.completeAcceptance ⟨payload, ⟨0⟩⟩,
        rfl, rfl, trivial, trivial⟩

/-
  In every history, a record that an approved actor has read
  offers exactly the actions whose commands are not refused,
  whichever suitable arguments they are called with.
-/
theorem offered_actions_are_permitted
    (env : ProcurementEnv)
    {db : Db}
    (hHistory : ProcurementHistory db)
    {requestId : Uuid}
    {record : ProcurementRecord}
    {actor : User}
    (hApproved : actor.accessStatus = .approved)
    {payload : ExpectedStateMutation}
    (hCurrent : Current db requestId record actor payload) :
    ∃ lines actions, record.currentLines = .ok lines ∧
      availableActions record actor = .ok actions ∧
      ∀ action,
        (∃ c : ProcurementCommand, c.action = action ∧
          c.expects = payload ∧ c.Assigned record.request ∧
            c.Suitable record.request lines) ∧
        ∀ c : ProcurementCommand, c.action = action →
          c.expects = payload → c.Assigned record.request →
          c.Suitable record.request lines →
            (action ∈ actions ↔
              ¬ Refused (c.program env requestId actor.id)
                db) := by
  rcases hHistory.inv.currentLines hCurrent.loaded with
    ⟨lines, hLines, hUnique⟩
  rcases @mem_availableActions_iff record actor _ hLines with
    ⟨actions, hActions, hMem⟩
  refine ⟨lines, actions, hLines, hActions, fun action =>
    ⟨exists_suitable record.request hUnique payload action, ?_⟩⟩
  rintro c rfl rfl hAssigned hSuitable
  rw [hMem, refused_iff hLines hApproved hCurrent hAssigned
    hSuitable, not_not]

/- What the manager of a first request expects of it. -/
def FirstRequest.mutation : ExpectedStateMutation where
  expectedStateVersion := 1
  expectedRevisionId := ⟨21⟩
  clientRequestId := "accept".toList
  version_pos := by decide
  key_nonempty := by decide
  key_length := by decide

/- The manager of a first request may accept it, and more. -/
theorem offered_actions_are_permitted_first :
    ∃ db record actions, ProcurementHistory db ∧
      (getRequestRecord ⟨20⟩ false).run db =
        .ok (record, db) ∧
      availableActions record FirstRequest.manager =
        .ok actions ∧
      ∀ c : ProcurementCommand,
        c.expects = FirstRequest.mutation →
        c.Assigned record.request →
        c.Suitable record.request
          (record.currentLines.toOption.getD []) →
        (c.action ∈ actions ↔
          ¬ Refused (c.program FirstRequest.env ⟨20⟩
            FirstRequest.manager.id) db) := by
  rcases FirstRequest.created with ⟨record, db, hRun, hLoad,
    hVersion, hRevision, hUsers, hEvents⟩
  have hHistory : ProcurementHistory db :=
    .step (.start rfl rfl) (.create hRun)
  have hKnown : db.findUser FirstRequest.manager.id =
      some FirstRequest.manager := by
    unfold Db.findUser
    rw [hUsers]
    rfl
  have hCurrent : Current db ⟨20⟩ record FirstRequest.manager
      FirstRequest.mutation := by
    refine ⟨hLoad, hKnown, hVersion, hRevision, _, rfl, ?_⟩
    intro e hMem _ hActor
    have hOwner : e.actorUserId ∈ [FirstRequest.owner.id] := by
      rw [← hEvents]
      exact List.mem_map_of_mem hMem
    rw [List.mem_singleton.mp hOwner] at hActor
    cases hActor
  rcases offered_actions_are_permitted FirstRequest.env
    hHistory rfl hCurrent with
    ⟨lines, actions, hLines, hActions, hAll⟩
  refine ⟨db, record, actions, hHistory, hLoad, hActions,
    fun c hExpects hAssigned hSuitable => ?_⟩
  rw [hLines] at hSuitable
  exact (hAll c.action).2 c rfl hExpects hAssigned hSuitable

end Procurement
