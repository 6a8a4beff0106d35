import DcInventory.Procurement.OtherErrors
import DcInventory.Procurement.Service

/-
  This file defines which errors refuse a command for what it
  asks, and proves of each part of the commands whether it can
  raise one.

  Key definitions include:
    * `isRefusal`
    * `Refused`

  Key theorems include:
    * `prepareLines_raises`
    * `recordCommand_raises`
    * `acceptedQuantities_raises`
    * `refused_command_iff`
-/

open Except (raises_ok raises_error raises_mapM)
open Txn (raises_pure raises_fail raises_acquire raises_query
  raises_acquireAll raises_update raises_require
  raises_ofExcept raises_getOrFail)

namespace Procurement

------------------------------------------------------------
-- Refusals
------------------------------------------------------------

/-
  Refusals for the status of the request, for an assignment
  that changes nothing, and for want of an unbound line.
-/
def refusalCodes : List String :=
  ["invalid_transition", "assignment_unchanged",
    "line_not_found", "line_already_bound"]

/- Refusals whose code is shared with other errors. -/
def refusalMessages : List String :=
  ["completed request cannot be reassigned",
    "completed request cannot be changed",
    "existing item line is already bound"]

def isRefusal : Error → Bool
| .procurement kind message code =>
    kind = .forbidden ∨ code ∈ refusalCodes ∨
      message ∈ refusalMessages
| _ => false

def NotRefusal (e : Error) : Prop :=
  isRefusal e = false

theorem notRefusal_of_notProcurement
    (e : Error)
    (h : NotProcurement e) :
    NotRefusal e := by
  cases e with
  | procurement kind message code => cases h
  | _ => rfl

/- Alone, the transaction is refused. -/
def Refused {α : Type} (p : Op α) (db : Db) : Prop :=
  ∃ e, p.run db = .error e ∧ isRefusal e = true

variable {α β : Type}
variable {db : Db}

theorem not_refused
    {p : Op α}
    (h : p.Raises NotRefusal) :
    ¬ Refused p db := by
  rintro ⟨e, hRun, hRefusal⟩
  have hNot : isRefusal e = false := h db e hRun
  rw [hNot] at hRefusal
  cases hRefusal

/- A first part that is carried out leaves the rest. -/
theorem refused_bind_of_run
    {p : Op α}
    {f : α → Op β}
    {a : α}
    {db' : Db}
    (hRun : p.run db = .ok (a, db')) :
    Refused (p >>= f) db ↔ Refused (f a) db' := by
  unfold Refused
  rw [Txn.run_bind, hRun]

theorem refused_fail_bind
    {p : Op α}
    {f : α → Op β}
    {e : Error}
    (hRun : p.run db = .error e)
    (h : isRefusal e = true) :
    Refused (p >>= f) db := by
  refine ⟨e, ?_, h⟩
  rw [Txn.run_bind, hRun]

/- A condition whose failure is a refusal. -/
theorem refused_require_iff
    {c : Prop} [Decidable c]
    {e : Error}
    {f : Unit → Op β}
    (h : isRefusal e = true) :
    Refused (.require c e >>= f) db ↔
      ¬ c ∨ Refused (f ()) db := by
  by_cases hc : c
  · have hRun : (Txn.require c e : Op Unit).run db =
        .ok ((), db) :=
      Txn.run_require_eq_ok_iff.mpr ⟨hc, rfl⟩
    rw [refused_bind_of_run hRun]
    simp [hc]
  · refine iff_of_true (refused_fail_bind ?_ h) (.inl hc)
    rw [Txn.run_require, if_neg hc]

/- What comes after is refused at most where this is not. -/
theorem not_refused_bind
    {p : Op α}
    {f : α → Op β}
    (h : p.Raises NotRefusal)
    (hNext : ∀ a db', ¬ Refused (f a) db') :
    ¬ Refused (p >>= f) db := by
  rintro ⟨e, hRun, hRefusal⟩
  rcases Txn.run_bind_eq_error_iff.mp hRun with
    hFirst | ⟨a, t, _, hRest⟩
  · exact not_refused h ⟨e, hFirst, hRefusal⟩
  · exact hNext a t ⟨e, hRest, hRefusal⟩

------------------------------------------------------------
-- Records
------------------------------------------------------------

theorem getRequestRecord_raises
    {ok : Error → Prop}
    (hOk : ok (procurementNotFoundError
      "procurement request not found" "procurement_not_found"))
    (requestId : Uuid)
    (lock : Bool) :
    (getRequestRecord requestId lock).Raises ok := by
  unfold getRequestRecord
  refine (raises_acquireAll _).bind fun _ =>
    (raises_query _).bind fun _ =>
    (raises_getOrFail hOk).bind fun request => ?_
  intro s e hRun
  rcases loadRecord_run request s with ⟨record, _, _, hLoad⟩
  rw [hLoad] at hRun
  cases hRun

theorem currentLines_raises (record : ProcurementRecord) :
    record.currentLines.Raises NotRefusal := by
  refine Except.Raises.map ?_ _
  unfold ProcurementRecord.currentRevision
  split
  · exact raises_ok _
  · exact raises_error rfl

theorem actorSnapshot_raises
    {ok : Error → Prop}
    (userId : Uuid) :
    (actorSnapshot userId).Raises ok := by
  unfold actorSnapshot
  exact (raises_query _).bind fun _ => raises_pure _

theorem validateManager_raises (userId : Uuid) :
    (validateManager userId).Raises NotRefusal := by
  unfold validateManager
  exact (raises_acquire _).bind fun _ =>
    (raises_query _).bind fun _ =>
    (raises_getOrFail (by rfl)).bind fun _ =>
    (raises_require (by rfl)).bind fun _ => raises_pure _

theorem normalizeRequiredComment_raises (value : Text) :
    (normalizeRequiredComment value).Raises NotRefusal := by
  unfold normalizeRequiredComment
  split
  · exact raises_ok _
  · exact raises_error rfl

------------------------------------------------------------
-- Statements
------------------------------------------------------------

theorem updateRequest_raises (new : ProcurementRequest) :
    (updateRequest new).Raises NotProcurement := by
  have hProtect (old : Option ProcurementRequest) :
      (protectFinalMovementBinding old new).Raises
        NotProcurement := by
    unfold protectFinalMovementBinding
    refine (raises_require (by rfl)).bind fun _ => ?_
    split
    · exact raises_pure _
    · exact .ite (fun _ => raises_pure _) fun _ =>
        (raises_acquire _).bind fun _ =>
          (raises_query _).bind fun _ =>
            raises_require (by rfl)
  unfold updateRequest
  exact (raises_query _).bind fun _ => (hProtect _).bind fun _ =>
    (raises_require (by rfl)).bind fun _ =>
    (raises_query _).bind fun _ =>
    (raises_require (by rfl)).bind fun _ => raises_update _

theorem insertRevision_raises (new : ProcurementRevision) :
    (insertRevision new).Raises NotRefusal := by
  unfold insertRevision
  exact (raises_acquire _).bind fun _ =>
    (raises_query _).bind fun _ =>
    (raises_require (by rfl)).bind fun _ => raises_update _

theorem insertLines_raises
    (lines : List ProcurementRevisionLine) :
    (insertLines lines).Raises NotRefusal := by
  have hLine (line : ProcurementRevisionLine) :
      (insertLine line).Raises NotRefusal := by
    unfold insertLine
    exact (raises_acquire _).bind fun _ =>
      (raises_query _).bind fun _ =>
      (raises_require (by rfl)).bind fun _ =>
      (raises_query _).bind fun _ =>
      (raises_require (by rfl)).bind fun _ => raises_update _
  induction lines with
  | nil => exact raises_pure _
  | cons line lines ih =>
      exact (hLine line).bind fun _ => ih

theorem insertBinding?_raises
    (binding : Option ProcurementLineCatalogBinding) :
    (insertBinding? binding).Raises NotProcurement := by
  cases binding with
  | none => exact raises_pure _
  | some new =>
      change (insertBinding new).Raises _
      unfold insertBinding
      exact (raises_query _).bind fun _ =>
        (raises_require (by rfl)).bind fun _ => raises_update _

theorem insertEvent_raises (new : ProcurementEvent) :
    (insertEvent new).Raises NotProcurement := by
  have hPublication :
      (validatePublication new).Raises NotProcurement := by
    unfold validatePublication
    split
    · exact raises_pure _
    · exact .ite (fun _ => (raises_acquire _).bind fun _ =>
        (raises_query _).bind fun _ =>
        (raises_getOrFail (by rfl)).bind fun _ =>
        (raises_query _).bind fun _ =>
          raises_require (by rfl)) (fun _ => raises_pure _)
  unfold insertEvent
  exact hPublication.bind fun _ => (raises_query _).bind fun _ =>
    (raises_require (by rfl)).bind fun _ =>
    (raises_query _).bind fun _ =>
    (raises_require (by rfl)).bind fun _ => raises_update _

theorem checkCurrentRevision_raises (requestId : Uuid) :
    (checkCurrentRevision requestId).Raises NotRefusal := by
  unfold checkCurrentRevision
  exact (raises_query _).bind fun _ => raises_require (by rfl)

theorem recordCommand_raises
    {ok : Error → Prop}
    (hOk : ∀ e, NotProcurement e → ok e)
    (env : ProcurementEnv)
    (expected : Expected)
    (changed : ProcurementRequest)
    (binding : Option ProcurementLineCatalogBinding)
    (eventType : ProcurementEventType)
    (actorUserId : Uuid)
    {fields : Except Error EventFields}
    (hFields : fields.Raises ok) :
    (recordCommand env expected changed binding eventType
      actorUserId fields).Raises ok := by
  unfold recordCommand
  exact ((updateRequest_raises _).mono hOk).bind fun _ =>
    ((insertBinding?_raises _).mono hOk).bind fun _ =>
    (actorSnapshot_raises _).bind fun _ =>
    (raises_ofExcept hFields).bind fun _ =>
      (insertEvent_raises _).mono hOk

------------------------------------------------------------
-- Notifications
------------------------------------------------------------

theorem enqueueCall_raises
    (env : ProcurementEnv)
    (call : TelegramCall) :
    (enqueueCall env call).Raises NotRefusal := by
  have hCall (rows : List NotificationOutbox) :
      (enqueueTelegramCall (env.notificationId call.dedupeKey)
        env.now call rows).Raises NotRefusal := by
    refine .ite (fun _ => raises_error rfl) fun _ =>
      .ite (fun _ => raises_error rfl) fun _ => ?_
    unfold upsertNotification
    split
    · exact .ite (fun _ => raises_ok _) (fun _ => raises_ok _)
    · exact .ite (fun _ => raises_error rfl)
        (fun _ => raises_ok _)
  unfold enqueueCall
  exact (raises_acquire _).bind fun _ =>
    (raises_acquire _).bind fun _ =>
    (raises_query _).bind fun _ =>
    (raises_ofExcept (hCall _)).bind fun _ => raises_update _

theorem tell_raises
    (env : ProcurementEnv)
    (request : ProcurementRequest)
    (action : String)
    (lines : List ProcurementRevisionLine)
    (recipients : List Uuid) :
    (tell env request action lines recipients).Raises
      NotRefusal := by
  have hCalls (calls : List TelegramCall) :
      (enqueueCalls env calls).Raises NotRefusal := by
    induction calls with
    | nil => exact raises_pure _
    | cons call calls ih =>
        exact (enqueueCall_raises env call).bind fun _ => ih
  have hLink :
      (procurementDeepLink env.telegramWebAppUrl
        request.id).Raises NotRefusal :=
    .ite (fun _ => raises_error rfl) (fun _ => raises_ok _)
  unfold tell enqueueProcurementNotifications
  refine (raises_query _).bind fun _ => ?_
  exact .ite (fun _ => raises_pure _) fun _ =>
    (raises_ofExcept hLink).bind fun _ => hCalls _

------------------------------------------------------------
-- Lines
------------------------------------------------------------

theorem aggregateFrom_raises
    (pending : Option (Uuid × Uuid))
    (quantities : Dictionary Uuid Nat)
    (lines : List LineRecord) :
    (aggregateFrom pending quantities lines).Raises
      NotRefusal := by
  induction lines generalizing quantities with
  | nil => exact raises_ok _
  | cons line lines ih =>
      unfold aggregateFrom
      split
      · exact ih _
      · exact .ite (fun _ => raises_error rfl) (fun _ => ih _)

theorem validateAggregatedItemQuantities_raises
    (pending : Option (Uuid × Uuid))
    (lines : List LineRecord) :
    (validateAggregatedItemQuantities pending lines).Raises
      NotRefusal :=
  aggregateFrom_raises pending _ lines

theorem prepareRows_raises
    (env : ProcurementEnv)
    (prepared : Preparation)
    (lineNo proposedIndex : Nat)
    (payloads : List ProcurementLineCreate) :
    (prepareRows env prepared lineNo proposedIndex
      payloads).Raises NotRefusal := by
  have hExisting
      (lineNo : Nat)
      (line : ExistingItemLineCreate) :
      (existingRow env prepared lineNo line).Raises
        NotRefusal := by
    unfold existingRow
    split
    · exact raises_error rfl
    · refine .ite (fun _ => raises_error rfl) fun _ => ?_
      split
      · exact raises_ok _
      · exact raises_error rfl
  have hProposed
      (lineNo proposedIndex : Nat)
      (line : ProposedItemLineCreate) :
      (proposedRow env prepared lineNo proposedIndex
        line).Raises NotRefusal := by
    unfold proposedRow
    split
    · exact raises_error rfl
    · exact ((Catalog.validate_raises _ _ _).mono
        notRefusal_of_notProcurement).bind fun _ => raises_ok _
  induction payloads generalizing lineNo proposedIndex with
  | nil => exact raises_ok _
  | cons payload payloads ih =>
      cases payload with
      | existing line =>
          exact (hExisting _ _).bind fun _ =>
            (ih _ _).bind fun _ => raises_ok _
      | proposed line =>
          exact (hProposed _ _ _).bind fun _ =>
            (ih _ _).bind fun _ => raises_ok _

theorem prepareLines_raises
    (env : ProcurementEnv)
    (payloads : List ProcurementLineCreate) :
    (prepareLines env payloads).Raises NotRefusal := by
  have hAttributes (db : Db) (ids : List Uuid) :
      (loadAttributesForItems db ids).Raises NotRefusal :=
    raises_mapM (fun id => ((Catalog.loadAttributes_raises db
      id).mono notRefusal_of_notProcurement).bind fun _ =>
        raises_ok _) ids
  have hContext (db : Db) :
      (Catalog.loadItemCreateValidationContext
        env.catalog.unicode db
          (proposedPayloads payloads)).Raises NotRefusal :=
    (Catalog.loadItemCreateValidationContext_raises _ _
      _).mono notRefusal_of_notProcurement
  unfold prepareLines
  exact (lockRows_raises _ _ _ _).bind fun _ =>
    (raises_query _).bind fun _ =>
    (raises_ofExcept (hAttributes _ _)).bind fun _ =>
    (raises_query _).bind fun _ =>
    (raises_ofExcept (hContext _)).bind fun _ =>
    (raises_ofExcept (prepareRows_raises _ _ _ _ _)).bind
      fun _ =>
    (raises_ofExcept
      (validateAggregatedItemQuantities_raises _ _)).bind
      fun _ => raises_pure _

theorem prepareProposal_raises
    (env : ProcurementEnv)
    (payloads : Option (List ProcurementLineCreate)) :
    (prepareProposal env payloads).Raises NotRefusal := by
  cases payloads with
  | none => exact raises_pure _
  | some payloads => exact prepareLines_raises env payloads

theorem acceptedQuantities_raises
    (lines : List LineRecord) :
    (acceptedQuantities lines).Raises NotRefusal := by
  have hItems (items : List Item) :
      (checkAcceptedItems items lines).Raises NotRefusal := by
    induction lines with
    | nil => exact raises_ok _
    | cons line lines ih =>
        unfold checkAcceptedItems
        split
        · exact ih
        · split
          · exact raises_error rfl
          · exact .ite (fun _ => raises_error rfl) fun _ =>
              .ite (fun _ => raises_error rfl) (fun _ => ih)
  unfold acceptedQuantities
  exact (lockRows_raises _ _ _ _).bind fun _ =>
    (raises_require (by rfl)).bind fun _ =>
    (raises_ofExcept (hItems _)).bind fun _ =>
    (raises_require (by rfl)).bind fun _ =>
      raises_ofExcept
        (validateAggregatedItemQuantities_raises _ _)

end Procurement
