import DcInventory.Inventory.Frame
import DcInventory.Library.Outcomes
import DcInventory.Procurement.Service

/-
  This file defines the histories of procurement, and proves
  what the requests and the lines of every state have.

  Key definitions include:
    * `ProcurementStep`
    * `ProcurementHistory`
    * `Kept`

  Key theorems include:
    * `ProcurementHistory.inv`
-/

namespace Procurement

------------------------------------------------------------
-- Histories
------------------------------------------------------------

/- The tables of procurement are the same. -/
structure SameProcurement (s s' : Db) : Prop where
  requests : s'.procurementRequests = s.procurementRequests
  revisions : s'.procurementRevisions = s.procurementRevisions
  lines :
    s'.procurementRevisionLines = s.procurementRevisionLines
  bindings : s'.procurementBindings = s.procurementBindings
  events : s'.procurementEvents = s.procurementEvents

/- What may happen to the requests. -/
inductive ProcurementStep (s s' : Db) : Prop where
| create {env payload actorUserId record}
    (h : (createRequest env payload actorUserId).run s =
      .ok (record, s'))
| command {env requestId actorUserId record}
    (command : ProcurementCommand)
    (h : (command.program env requestId actorUserId).run s =
      .ok (record, s'))
| other (h : SameProcurement s s')

/- The states of a database that began without requests. -/
inductive ProcurementHistory : Db → Prop where
| start {s}
    (hRequests : s.procurementRequests = [])
    (hLines : s.procurementRevisionLines = []) :
    ProcurementHistory s
| step {s s'}
    (hBefore : ProcurementHistory s)
    (hStep : ProcurementStep s s') :
    ProcurementHistory s'

------------------------------------------------------------
-- Invariants
------------------------------------------------------------

/- The request has the revision. -/
def HasRevision (requestId revisionId : Uuid) (s : Db) : Prop :=
  ∃ v ∈ s.procurementRevisions,
    v.id = revisionId ∧ v.requestId = requestId

/-
  Identifiers are unique, requests have their current
  revisions except those that are `open_`, and the revisions
  that were seen are still there.
-/
structure Kept
    (open_ : ProcurementRequest → Prop)
    (seen : List (Uuid × Uuid))
    (s : Db) : Prop where
  requestIds :
    (s.procurementRequests.map ProcurementRequest.id).Nodup
  lineIds : (s.procurementRevisionLines.map
    ProcurementRevisionLine.id).Nodup
  current : ∀ r ∈ s.procurementRequests,
    open_ r ∨ HasRevision r.id r.currentRevisionId s
  seen : ∀ p ∈ seen, HasRevision p.1 p.2 s

/- What holds of the requests at all times. -/
abbrev ProcurementInv (s : Db) : Prop :=
  Kept (fun _ => False) [] s

variable {open_ : ProcurementRequest → Prop}
variable {seen : List (Uuid × Uuid)}
variable {s s' : Db}

theorem Kept.same
    (h : Kept open_ seen s)
    (hSame : SameProcurement s s') :
    Kept open_ seen s' where
  requestIds := by rw [hSame.requests]; exact h.requestIds
  lineIds := by rw [hSame.lines]; exact h.lineIds
  current := by
    unfold HasRevision
    rw [hSame.requests, hSame.revisions]
    exact h.current
  seen := by
    unfold HasRevision
    rw [hSame.revisions]
    exact h.seen

------------------------------------------------------------
-- Statements
------------------------------------------------------------

/- Other tables may be written as one likes. -/
theorem keeps_of_same
    {α : Type}
    {p : Op α}
    (h : p.WritesOnly (fun change =>
      ∀ s, SameProcurement s (change s))) :
    p.Keeps (Kept open_ seen) :=
  Txn.WritesOnly.keeps h fun _ hChange s hKept =>
    hKept.same (hChange s)

theorem execute_keeps
    {w : ProcurementWrite}
    (h : ∀ s, Kept open_ seen s →
      Kept open_ seen (w.apply s)) :
    (execute w).Keeps (Kept open_ seen) := by
  intro s u s' hKept hRun
  rw [Txn.run_update_eq_ok_iff.mp hRun]
  exact h s hKept

theorem insertRevision_keeps (new : ProcurementRevision) :
    (insertRevision new).Keeps (Kept open_ seen) := by
  unfold insertRevision
  refine .bind (Txn.ReadsOnly.keeps (by simp)) fun _ => ?_
  refine .bind (Txn.ReadsOnly.keeps (by simp)) fun _ => ?_
  refine .bind (Txn.ReadsOnly.keeps (by simp)) fun _ => ?_
  refine execute_keeps fun s h => ?_
  have hGrows {requestId revisionId : Uuid}
      (hHas : HasRevision requestId revisionId s) :
      HasRevision requestId revisionId
        ((ProcurementWrite.newRevision new).apply s) := by
    rcases hHas with ⟨v, hMem, hV⟩
    exact ⟨v, List.mem_append_left _ hMem, hV⟩
  exact {
    requestIds := h.requestIds
    lineIds := h.lineIds
    current := fun r hr => (h.current r hr).imp_right hGrows
    seen := fun p hp => hGrows (h.seen p hp) }

/- Lines are inserted only with new identifiers. -/
theorem insertLines_keeps
    (lines : List ProcurementRevisionLine) :
    (insertLines lines).Keeps (Kept open_ seen) := by
  have hLine (new : ProcurementRevisionLine) :
      (insertLine new).Keeps (Kept open_ seen) := by
    intro s u s' hKept hRun
    unfold insertLine execute at hRun
    simp only [Txn.run_bind_eq_ok_iff,
      Txn.run_acquire_eq_ok_iff, Txn.run_query_eq_ok_iff,
      Txn.run_require_eq_ok_iff, Txn.run_update_eq_ok_iff]
      at hRun
    rcases hRun with ⟨_, _, rfl, _, _, ⟨rfl, rfl⟩, _, _,
      ⟨_, rfl⟩, _, _, ⟨rfl, rfl⟩, _, _, ⟨hNew, rfl⟩, rfl⟩
    refine ⟨hKept.requestIds, ?_, hKept.current, hKept.seen⟩
    change ((_ ++ [new]).map _).Nodup
    rw [List.map_append, List.map_singleton,
      List.nodup_append]
    refine ⟨hKept.lineIds, List.nodup_singleton _, ?_⟩
    intro id hId id' hId' hSame
    rw [List.mem_singleton.mp hId'] at hSame
    rcases List.mem_map.mp hId with ⟨l, hl, hEq⟩
    apply hNew
    rw [List.any_eq_true]
    exact ⟨l, hl, decide_eq_true (hEq.trans hSame)⟩
  induction lines with
  | nil => exact Txn.ReadsOnly.keeps (by simp [insertLines])
  | cons line lines ih =>
      exact .bind (hLine line) fun _ => ih

theorem insertBinding?_keeps
    (binding : Option ProcurementLineCatalogBinding) :
    (insertBinding? binding).Keeps (Kept open_ seen) := by
  cases binding with
  | none => exact Txn.ReadsOnly.keeps (by simp [insertBinding?])
  | some new =>
      refine .bind (Txn.ReadsOnly.keeps (by simp)) fun _ => ?_
      refine .bind (Txn.ReadsOnly.keeps (by simp)) fun _ => ?_
      exact execute_keeps fun s h =>
        ⟨h.requestIds, h.lineIds, h.current, h.seen⟩

theorem validatePublication_readsOnly
    (new : ProcurementEvent) :
    (validatePublication new).ReadsOnly := by
  unfold validatePublication
  split
  · trivial
  · split
    · refine .bind (by simp) fun _ => ?_
      refine .bind (by simp) fun _ => ?_
      refine .bind (by simp) fun _ => ?_
      exact .bind (by simp) fun _ => by simp
    · trivial

theorem insertEvent_keeps (new : ProcurementEvent) :
    (insertEvent new).Keeps (Kept open_ seen) := by
  refine .bind (validatePublication_readsOnly new).keeps
    fun _ => ?_
  refine .bind (Txn.ReadsOnly.keeps (by simp)) fun _ => ?_
  refine .bind (Txn.ReadsOnly.keeps (by simp)) fun _ => ?_
  refine .bind (Txn.ReadsOnly.keeps (by simp)) fun _ => ?_
  refine .bind (Txn.ReadsOnly.keeps (by simp)) fun _ => ?_
  exact execute_keeps fun s h =>
    ⟨h.requestIds, h.lineIds, h.current, h.seen⟩

theorem protectFinalMovementBinding_readsOnly
    (old : Option ProcurementRequest)
    (new : ProcurementRequest) :
    (protectFinalMovementBinding old new).ReadsOnly := by
  refine .bind (by simp) fun _ => ?_
  split
  · trivial
  · split
    · trivial
    · refine .bind (by simp) fun _ => ?_
      exact .bind (by simp) fun _ => by simp

/- A request is rewritten that is open or has its revision. -/
theorem updateRequest_keeps
    {new : ProcurementRequest}
    (h : ∀ s, Kept open_ seen s →
      open_ new ∨ HasRevision new.id new.currentRevisionId s) :
    (updateRequest new).Keeps (Kept open_ seen) := by
  refine .bind (Txn.ReadsOnly.keeps (by simp)) fun old => ?_
  refine .bind (protectFinalMovementBinding_readsOnly old
    new).keeps fun _ => ?_
  refine .bind (Txn.ReadsOnly.keeps (by simp)) fun _ => ?_
  refine .bind (Txn.ReadsOnly.keeps (by simp)) fun _ => ?_
  refine .bind (Txn.ReadsOnly.keeps (by simp)) fun _ => ?_
  refine execute_keeps fun s hKept => ?_
  refine ⟨?_, hKept.lineIds, ?_, hKept.seen⟩
  · have hIds : (Table.rewrite ProcurementRequest.id new.id
        (fun _ => new) s.procurementRequests).map
          ProcurementRequest.id =
        s.procurementRequests.map ProcurementRequest.id := by
      unfold Table.rewrite
      rw [List.map_map]
      apply List.map_congr_left
      intro r _
      rw [Function.comp_apply]
      split
      · rename_i hEq
        exact hEq.symm
      · rfl
    change ((Table.rewrite _ _ _ _).map _).Nodup
    rw [hIds]
    exact hKept.requestIds
  · intro r hr
    rcases Table.mem_rewrite.mp hr with
      ⟨hOld, _⟩ | ⟨_, _, _, rfl⟩
    · exact hKept.current r hOld
    · exact h s hKept

/- A new request is open until its revision is inserted. -/
theorem insertRequest_keeps
    {new : ProcurementRequest}
    (hOpen : open_ new) :
    (insertRequest new).Keeps (Kept open_ seen) := by
  intro s u s' hKept hRun
  unfold insertRequest at hRun
  rcases Txn.run_bind_eq_ok_iff.mp hRun with
    ⟨_, s₁, hProtect, hRest⟩
  have hSame :=
    (protectFinalMovementBinding_readsOnly none new).keeps
      (P := fun t => t = s) s _ s₁ rfl hProtect
  subst hSame
  unfold execute at hRest
  simp only [Txn.run_bind_eq_ok_iff, Txn.run_acquire_eq_ok_iff,
    Txn.run_query_eq_ok_iff, Txn.run_require_eq_ok_iff,
    Txn.run_update_eq_ok_iff] at hRest
  rcases hRest with ⟨_, _, ⟨_, rfl⟩, _, _, rfl, _, _, ⟨rfl, rfl⟩,
    _, _, ⟨hNew, rfl⟩, _, _, rfl, _, _, ⟨_, rfl⟩, _, _,
    ⟨_, rfl⟩, _, _, ⟨_, rfl⟩, _, _, ⟨_, rfl⟩, rfl⟩
  refine ⟨?_, hKept.lineIds, ?_, hKept.seen⟩
  · change ((_ ++ [new]).map _).Nodup
    rw [List.map_append, List.map_singleton,
      List.nodup_append]
    refine ⟨hKept.requestIds, List.nodup_singleton _, ?_⟩
    intro id hId id' hId' hSame
    rw [List.mem_singleton.mp hId'] at hSame
    rcases List.mem_map.mp hId with ⟨r, hr, hEq⟩
    exact Table.find_eq_none_iff.mp
      (Option.isNone_iff_eq_none.mp hNew) r hr
        (hEq.trans hSame)
  · intro r hr
    rcases List.mem_append.mp hr with hOld | hLast
    · exact hKept.current r hOld
    · rw [List.mem_singleton.mp hLast]
      exact .inl hOpen

------------------------------------------------------------
-- Parts Of Commands
------------------------------------------------------------

theorem getRequestRecord_readsOnly
    (requestId : Uuid)
    (lock : Bool) :
    (getRequestRecord requestId lock).ReadsOnly := by
  refine .bind (by simp) fun _ => ?_
  refine .bind (by simp) fun _ => ?_
  refine .bind (by simp) fun request => ?_
  refine .bind (by simp) fun _ => ?_
  refine .bind (by simp) fun _ => ?_
  refine .bind (by simp) fun _ => ?_
  refine .bind (by simp) fun _ => ?_
  exact .bind (by simp) fun _ => by simp

theorem actorSnapshot_readsOnly (userId : Uuid) :
    (actorSnapshot userId).ReadsOnly :=
  .bind (by simp) fun _ => by simp

theorem validateManager_readsOnly (userId : Uuid) :
    (validateManager userId).ReadsOnly := by
  refine .bind (by simp) fun _ => ?_
  refine .bind (by simp) fun _ => ?_
  refine .bind (by simp) fun _ => ?_
  exact .bind (by simp) fun _ => by simp

theorem prepareLines_readsOnly
    (env : ProcurementEnv)
    (payloads : List ProcurementLineCreate) :
    (prepareLines env payloads).ReadsOnly := by
  refine .bind (lockRows_readsOnly _ _ _) fun _ => ?_
  refine .bind (by simp) fun _ => ?_
  refine .bind (by simp) fun _ => ?_
  refine .bind (by simp) fun _ => ?_
  refine .bind (by simp) fun _ => ?_
  refine .bind (by simp) fun _ => ?_
  exact .bind (by simp) fun _ => by simp

theorem acceptedQuantities_readsOnly
    (lines : List LineRecord) :
    (acceptedQuantities lines).ReadsOnly := by
  refine .bind (lockRows_readsOnly _ _ _) fun _ => ?_
  refine .bind (by simp) fun _ => ?_
  refine .bind (by simp) fun _ => ?_
  exact .bind (by simp) fun _ => by simp

theorem lockAndValidateExpected_readsOnly
    (sha256 : Text → Text)
    (requestId : Uuid)
    (payload : ExpectedStateMutation)
    (serialized : Text)
    (actorUserId : Uuid)
    (eventType : ProcurementEventType) :
    (lockAndValidateExpected sha256 requestId payload serialized
      actorUserId eventType).ReadsOnly := by
  refine .bind (getRequestRecord_readsOnly _ _) fun _ => ?_
  refine .bind (by simp) fun _ => ?_
  refine .bind (by simp) fun previous => ?_
  cases previous with
  | none => exact .bind (by simp) fun _ => by simp
  | some event =>
      refine .bind (by simp) fun _ => ?_
      exact .bind (by simp) fun _ => by simp

theorem enqueueCalls_keeps
    (env : ProcurementEnv)
    (calls : List TelegramCall) :
    (enqueueCalls env calls).Keeps (Kept open_ seen) := by
  induction calls with
  | nil => exact Txn.ReadsOnly.keeps (by simp [enqueueCalls])
  | cons call calls ih =>
      refine .bind (keeps_of_same ?_) fun _ => ih
      refine .bind (by simp) fun _ => ?_
      refine .bind (by simp) fun _ => ?_
      refine .bind (by simp) fun _ => ?_
      refine .bind (by simp) fun _ => ?_
      exact (Txn.writesOnly_update _).mpr fun s =>
        ⟨rfl, rfl, rfl, rfl, rfl⟩

theorem tell_keeps
    (env : ProcurementEnv)
    (request : ProcurementRequest)
    (action : String)
    (lines : List ProcurementRevisionLine)
    (recipients : List Uuid) :
    (tell env request action lines recipients).Keeps
      (Kept open_ seen) := by
  refine .bind (Txn.ReadsOnly.keeps (by simp)) fun found => ?_
  split
  · exact Txn.ReadsOnly.keeps (by simp)
  · exact .bind (Txn.ReadsOnly.keeps (by simp)) fun _ =>
      enqueueCalls_keeps env _

theorem createItem_keeps
    (env : Catalog.CatalogEnv)
    (newId : Uuid)
    (now : Time)
    (payload : Catalog.ItemCreate) :
    (Catalog.createItem env newId now payload).Keeps
      (Kept open_ seen) := by
  refine keeps_of_same ?_
  refine .bind (by simp) fun _ => ?_
  refine .bind (by simp) fun _ => ?_
  refine .bind (by simp) fun _ => ?_
  refine .bind (by simp) fun _ => ?_
  refine .bind (by simp) fun _ => ?_
  refine .bind (by simp) fun _ => ?_
  refine .bind (by simp) fun _ => ?_
  refine .bind (by simp) fun _ => ?_
  refine .bind (by simp) fun _ => ?_
  refine .bind ((Txn.writesOnly_update _).mpr fun s =>
    ⟨rfl, rfl, rfl, rfl, rfl⟩) fun _ => ?_
  refine .bind ?_ fun _ => by simp
  refine .bind (by simp) fun _ => ?_
  refine .bind (by simp) fun _ => ?_
  refine .bind (by simp) fun _ => ?_
  exact (Txn.writesOnly_update _).mpr fun s =>
    ⟨rfl, rfl, rfl, rfl, rfl⟩

theorem createMovement_keeps
    (env : MovementEnv)
    (call : MovementCall) :
    (createMovement env call).Keeps (Kept open_ seen) := by
  refine keeps_of_same
    ((createMovement_writesOnly env call).mono ?_)
  intro change hChange s
  have hOnly : change s = { s with
      movements := (change s).movements
      movementLines := (change s).movementLines
      stockBalances := (change s).stockBalances
      userItemCustodyBalances :=
        (change s).userItemCustodyBalances } :=
    hChange s
  exact {
    requests := by rw [hOnly]
    revisions := by rw [hOnly]
    lines := by rw [hOnly]
    bindings := by rw [hOnly]
    events := by rw [hOnly] }

/- The command records a request whose revision was seen. -/
theorem recordCommand_keeps
    (env : ProcurementEnv)
    (expected : Expected)
    {changed : ProcurementRequest}
    (hSeen : (changed.id, changed.currentRevisionId) ∈ seen)
    (binding : Option ProcurementLineCatalogBinding)
    (eventType : ProcurementEventType)
    (actorUserId : Uuid)
    (fields : Except Error EventFields) :
    (recordCommand env expected changed binding eventType
      actorUserId fields).Keeps (Kept open_ seen) := by
  refine .bind (updateRequest_keeps fun s h =>
    .inr (h.seen _ hSeen)) fun _ => ?_
  refine .bind (insertBinding?_keeps _) fun _ => ?_
  refine .bind (actorSnapshot_readsOnly _).keeps fun _ => ?_
  refine .bind (Txn.ReadsOnly.keeps (by simp)) fun _ => ?_
  exact insertEvent_keeps _

------------------------------------------------------------
-- Commands
------------------------------------------------------------

/- A status changes nothing else but the version. -/
theorem setStatus_eq_ok
    {request changed : ProcurementRequest}
    {target : ProcurementStatus}
    (h : setStatus request target = .ok changed) :
    changed = { request with
      status := target
      stateVersion := request.stateVersion + 1 } := by
  unfold setStatus at h
  split at h
  · exact (Except.ok.inj h).symm
  · cases h

/- The rest of a command after a step of the status. -/
theorem bind_setStatus_ensures
    {α : Type}
    {request : ProcurementRequest}
    {target : ProcurementStatus}
    {f : ProcurementRequest → Op α}
    {P Q : Db → Prop}
    (h : ∀ changed,
      changed.id = request.id →
      changed.currentRevisionId = request.currentRevisionId →
        (f changed).Ensures P Q) :
    (Txn.ofExcept (setStatus request target) >>= f).Ensures
      P Q := by
  cases hStatus : setStatus request target with
  | error e =>
      intro s a s' hP hRun
      cases hRun
  | ok changed =>
      have hChanged := setStatus_eq_ok hStatus
      exact h changed (by rw [hChanged]) (by rw [hChanged])

theorem bind_setStatus_keeps
    {α : Type}
    {request : ProcurementRequest}
    {target : ProcurementStatus}
    {f : ProcurementRequest → Op α}
    {P : Db → Prop}
    (h : ∀ changed,
      changed.id = request.id →
      changed.currentRevisionId = request.currentRevisionId →
        (f changed).Keeps P) :
    (Txn.ofExcept (setStatus request target) >>= f).Keeps P :=
  bind_setStatus_ensures h

/- The revision that a command finds the request with. -/
def seenBy (expected : Expected) : List (Uuid × Uuid) :=
  [(expected.record.request.id,
    expected.record.request.currentRevisionId)]

/- A command starts with the request as it is stored. -/
theorem startCommand_eq_ok
    {env : ProcurementEnv}
    {requestId : Uuid}
    {payload : ExpectedStateMutation}
    {serialized : Text}
    {actorUserId : Uuid}
    {eventType : ProcurementEventType}
    {capabilities : List Capability}
    {expected : Expected}
    (h : (startCommand env requestId payload serialized
      actorUserId eventType capabilities).run s =
        .ok (expected, s')) :
    s' = s ∧ (getRequestRecord requestId true).run s =
      .ok (expected.record, s) := by
  unfold startCommand at h
  rcases Txn.run_bind_eq_ok_iff.mp h with
    ⟨expected', s₁, hExpected, hRest⟩
  rcases Txn.run_bind_eq_ok_iff.mp hRest with
    ⟨_, s₂, hActor, hPure⟩
  rcases Txn.run_pure_eq_ok_iff.mp hPure with ⟨rfl, rfl⟩
  have hUnchanged : (lockAndRequireActorCapabilities actorUserId
      capabilities).ReadsOnly := by
    refine .bind (by simp) fun _ => ?_
    exact .bind (by simp) fun _ => by simp
  have hSame : s' = s₁ :=
    hUnchanged.keeps (P := fun t => t = s₁) s₁ _ s' rfl hActor
  subst hSame
  unfold lockAndValidateExpected at hExpected
  rcases Txn.run_bind_eq_ok_iff.mp hExpected with
    ⟨record, s₁, hLoad, hAfter⟩
  rcases findRequest_of_getRequestRecord hLoad with ⟨rfl, _⟩
  rcases Txn.run_bind_eq_ok_iff.mp hAfter with
    ⟨key, s₂, hKey, hReplay⟩
  rcases Txn.run_ofExcept_eq_ok_iff.mp hKey with ⟨_, rfl⟩
  dsimp only at hReplay
  rcases Txn.run_bind_eq_ok_iff.mp hReplay with
    ⟨previous, s₃, hPrevious, hResult⟩
  rcases Txn.run_query_eq_ok_iff.mp hPrevious with ⟨_, rfl⟩
  cases previous with
  | none =>
      simp only [Txn.run_bind_eq_ok_iff,
        Txn.run_require_eq_ok_iff, Txn.run_pure_eq_ok_iff]
        at hResult
      rcases hResult with ⟨_, _, ⟨_, rfl⟩, rfl, rfl⟩
      exact ⟨rfl, hLoad⟩
  | some event =>
      simp only [Txn.run_bind_eq_ok_iff,
        Txn.run_require_eq_ok_iff, Txn.run_pure_eq_ok_iff]
        at hResult
      rcases hResult with
        ⟨_, _, ⟨_, rfl⟩, _, _, ⟨_, rfl⟩, rfl, rfl⟩
      exact ⟨rfl, hLoad⟩

theorem Kept.mono
    {open' : ProcurementRequest → Prop}
    {seen' : List (Uuid × Uuid)}
    (h : Kept open_ seen s)
    (hOpen : ∀ r, open_ r → open' r)
    (hSeen : seen' ⊆ seen) :
    Kept open' seen' s where
  requestIds := h.requestIds
  lineIds := h.lineIds
  current := fun r hr => (h.current r hr).imp_left (hOpen r)
  seen := fun p hp => h.seen p (hSeen hp)

/- A request is seen with the revision that it has. -/
theorem Kept.see
    {requestId : Uuid}
    {expected : Expected}
    (h : ProcurementInv s)
    (hFind : s.findRequest requestId =
      some expected.record.request) :
    Kept (fun _ => False) (seenBy expected) s where
  requestIds := h.requestIds
  lineIds := h.lineIds
  current := h.current
  seen := by
    intro p hp
    rw [List.mem_singleton.mp hp]
    exact (h.current _ (Table.mem_of_find hFind)).resolve_left id

section Commands

variable {env : ProcurementEnv}
variable {requestId actorUserId : Uuid}
variable {record : ProcurementRecord}

/- A command keeps what its own part keeps. -/
theorem ProcurementInv.command
    {payload : ExpectedStateMutation}
    {serialized : Text}
    {eventType : ProcurementEventType}
    {capabilities : List Capability}
    {body : Expected → Op ProcurementRecord}
    (h : ProcurementInv s)
    (hBody : ∀ expected,
      s.findRequest requestId = some expected.record.request →
        (body expected).Ensures
          (Kept (fun _ => False) (seenBy expected))
            ProcurementInv)
    (hRun : (do
      let expected ← startCommand env requestId payload
        serialized actorUserId eventType capabilities
      if expected.replay.isSome then pure expected.record
      else body expected).run s = .ok (record, s')) :
    ProcurementInv s' := by
  rcases Txn.run_bind_eq_ok_iff.mp hRun with
    ⟨expected, s₁, hStart, hRest⟩
  rcases startCommand_eq_ok hStart with ⟨rfl, hLoad⟩
  have hFind := (findRequest_of_getRequestRecord hLoad).2.1
  split at hRest
  · rcases Txn.run_pure_eq_ok_iff.mp hRest with ⟨_, rfl⟩
    exact h
  · exact hBody expected hFind s₁ record s' (h.see hFind) hRest

/- A command that keeps the revision it was called with. -/
theorem ProcurementInv.quiet
    {payload : ExpectedStateMutation}
    {serialized : Text}
    {eventType : ProcurementEventType}
    {capabilities : List Capability}
    {body : Expected → Op ProcurementRecord}
    (h : ProcurementInv s)
    (hBody : ∀ expected, (body expected).Keeps
      (Kept (fun _ => False) (seenBy expected)))
    (hRun : (do
      let expected ← startCommand env requestId payload
        serialized actorUserId eventType capabilities
      if expected.replay.isSome then pure expected.record
      else body expected).run s = .ok (record, s')) :
    ProcurementInv s' := by
  refine h.command (fun expected _ t r t' hT hRest => ?_) hRun
  exact (hBody expected t r t' hT hRest).mono (fun _ => id)
    (List.nil_subset _)

theorem mem_seenBy
    {expected : Expected}
    {changed : ProcurementRequest}
    (hId : changed.id = expected.record.request.id)
    (hRevision : changed.currentRevisionId =
      expected.record.request.currentRevisionId) :
    (changed.id, changed.currentRevisionId) ∈
      seenBy expected := by
  rw [hId, hRevision]
  exact List.mem_singleton_self _

theorem managerAccept_inv
    {payload : ExpectedStateMutation}
    (h : ProcurementInv s)
    (hRun : (managerAccept env requestId payload
      actorUserId).run s = .ok (record, s')) :
    ProcurementInv s' := by
  refine h.quiet (fun expected => ?_) hRun
  refine bind_setStatus_keeps fun changed hId hRevision => ?_
  exact .bind (recordCommand_keeps _ _
    (mem_seenBy hId hRevision) _ _ _ _) fun _ =>
      (getRequestRecord_readsOnly _ _).keeps

theorem transferToAcceptance_inv
    {payload : ExpectedStateMutation}
    (h : ProcurementInv s)
    (hRun : (transferToAcceptance env requestId payload
      actorUserId).run s = .ok (record, s')) :
    ProcurementInv s' := by
  refine h.quiet (fun expected => ?_) hRun
  refine bind_setStatus_keeps fun changed hId hRevision => ?_
  refine .bind (recordCommand_keeps _ _
    (mem_seenBy hId hRevision) _ _ _ _) fun _ => ?_
  refine .bind (Txn.ReadsOnly.keeps (by simp)) fun _ => ?_
  refine .bind (Txn.ReadsOnly.keeps (by simp)) fun _ => ?_
  exact .bind (tell_keeps _ _ _ _ _) fun _ =>
    (getRequestRecord_readsOnly _ _).keeps

theorem returnForCorrection_inv
    {payload : CorrectionRequest}
    (h : ProcurementInv s)
    (hRun : (returnForCorrection env requestId payload
      actorUserId).run s = .ok (record, s')) :
    ProcurementInv s' := by
  refine h.quiet (fun expected => ?_) hRun
  refine .bind (Txn.ReadsOnly.keeps (by simp)) fun _ => ?_
  refine .bind ?_ fun proposal => ?_
  · unfold prepareProposal
    split
    · exact Txn.ReadsOnly.keeps (by simp)
    · exact (prepareLines_readsOnly _ _).keeps
  refine bind_setStatus_keeps fun changed hId hRevision => ?_
  refine .bind (recordCommand_keeps _ _
    (mem_seenBy hId hRevision) _ _ _ _) fun _ => ?_
  refine .bind (Txn.ReadsOnly.keeps (by simp)) fun _ => ?_
  exact .bind (tell_keeps _ _ _ _ _) fun _ =>
    (getRequestRecord_readsOnly _ _).keeps

theorem changeAssignment_inv
    {payload : AssignmentMutation}
    {serialized : Text}
    {targetUserId : Uuid}
    {eventType : ProcurementEventType}
    (h : ProcurementInv s)
    (hRun : (changeAssignment env requestId payload serialized
      actorUserId targetUserId eventType).run s =
        .ok (record, s')) :
    ProcurementInv s' := by
  refine h.quiet (fun expected => ?_) hRun
  refine .bind (Txn.ReadsOnly.keeps (by simp)) fun _ => ?_
  refine .bind (Txn.ReadsOnly.keeps (by simp)) fun _ => ?_
  refine .bind (validateManager_readsOnly _).keeps
    fun _ => ?_
  refine .bind (Txn.ReadsOnly.keeps (by simp)) fun _ => ?_
  refine .bind (recordCommand_keeps _ _
    (mem_seenBy (by rfl) (by rfl)) _ _ _ _) fun _ => ?_
  refine .bind (Txn.ReadsOnly.keeps (by simp)) fun _ => ?_
  exact .bind (tell_keeps _ _ _ _ _) fun _ =>
    (getRequestRecord_readsOnly _ _).keeps

theorem bindTo_keeps
    (expected : Expected)
    (lineId itemId : Uuid)
    (metadata : List (Text × Json)) :
    (bindTo env expected lineId itemId actorUserId
      metadata).Keeps
        (Kept (fun _ => False) (seenBy expected)) :=
  recordCommand_keeps _ _ (mem_seenBy (by rfl) (by rfl)) _ _ _ _

theorem bindLine_inv
    {payload : LineBindingCreate}
    (h : ProcurementInv s)
    (hRun : (bindLine env requestId payload actorUserId).run s =
      .ok (record, s')) :
    ProcurementInv s' := by
  refine h.quiet (fun expected => ?_) hRun
  refine .bind (Txn.ReadsOnly.keeps (by simp)) fun _ => ?_
  refine .bind (Txn.ReadsOnly.keeps (by simp)) fun _ => ?_
  refine .bind (Txn.ReadsOnly.keeps (by simp)) fun _ => ?_
  refine .bind (Txn.ReadsOnly.keeps (by simp)) fun _ => ?_
  refine .bind (Txn.ReadsOnly.keeps (by simp)) fun _ => ?_
  refine .bind (Txn.ReadsOnly.keeps (by simp)) fun _ => ?_
  refine .bind (Txn.ReadsOnly.keeps (by simp)) fun _ => ?_
  refine .bind (Txn.ReadsOnly.keeps (by simp)) fun _ => ?_
  exact .bind (bindTo_keeps _ _ _ _) fun _ =>
    (getRequestRecord_readsOnly _ _).keeps

theorem createAndBindLine_inv
    {payload : ProposedItemCreateAndBind}
    (h : ProcurementInv s)
    (hRun : (createAndBindLine env requestId payload
      actorUserId).run s = .ok (record, s')) :
    ProcurementInv s' := by
  refine h.quiet (fun expected => ?_) hRun
  refine .bind (Txn.ReadsOnly.keeps (by simp)) fun _ => ?_
  refine .bind (Txn.ReadsOnly.keeps (by simp)) fun _ => ?_
  refine .bind (Txn.ReadsOnly.keeps (by simp)) fun _ => ?_
  refine .bind (Txn.ReadsOnly.keeps (by simp)) fun _ => ?_
  refine .bind (createItem_keeps _ _ _ _) fun _ => ?_
  exact .bind (bindTo_keeps _ _ _ _) fun _ =>
    (getRequestRecord_readsOnly _ _).keeps

theorem reportDiscrepancy_inv
    {payload : DiscrepancyCreate}
    (h : ProcurementInv s)
    (hRun : (reportDiscrepancy env requestId payload
      actorUserId).run s = .ok (record, s')) :
    ProcurementInv s' := by
  refine h.quiet (fun expected => ?_) hRun
  refine .bind (Txn.ReadsOnly.keeps (by simp)) fun _ => ?_
  refine .bind (recordCommand_keeps _ _
    (mem_seenBy (by rfl) (by rfl)) _ _ _ _) fun _ => ?_
  refine .bind (Txn.ReadsOnly.keeps (by simp)) fun _ => ?_
  exact .bind (tell_keeps _ _ _ _ _) fun _ =>
    (getRequestRecord_readsOnly _ _).keeps

theorem completeAcceptance_inv
    {payload : ProcurementAcceptanceCreate}
    (h : ProcurementInv s)
    (hRun : (completeAcceptance env requestId payload
      actorUserId).run s = .ok (record, s')) :
    ProcurementInv s' := by
  refine h.quiet (fun expected => ?_) hRun
  refine .bind (Txn.ReadsOnly.keeps (by simp)) fun _ => ?_
  refine .bind (Txn.ReadsOnly.keeps (by simp)) fun _ => ?_
  refine .bind (acceptedQuantities_readsOnly _).keeps
    fun _ => ?_
  refine .bind (actorSnapshot_readsOnly _).keeps fun _ => ?_
  refine .bind (Txn.ReadsOnly.keeps (by simp)) fun call => ?_
  refine .bind (createMovement_keeps _ _) fun movement => ?_
  refine .bind (Txn.ReadsOnly.keeps (by simp)) fun _ => ?_
  refine bind_setStatus_keeps fun changed hId hRevision => ?_
  refine .bind (recordCommand_keeps _ _
    (mem_seenBy (by exact hId) (by exact hRevision)) _ _ _ _)
      fun _ => ?_
  refine .bind (tell_keeps _ _ _ _ _) fun _ => ?_
  refine .bind (getRequestRecord_readsOnly _ _).keeps
    fun _ => ?_
  exact .bind (checkLineCount_readsOnly _).keeps fun _ =>
    Txn.ReadsOnly.keeps (by simp)

/- The commit checks the revision of an open request. -/
theorem checkCurrentRevision_ensures :
    (do
      checkCurrentRevision requestId
      pure record : Op ProcurementRecord).Ensures
        (Kept (fun r => r.id = requestId) []) ProcurementInv := by
  intro s r s' h hRun
  unfold checkCurrentRevision at hRun
  simp only [Txn.run_bind_eq_ok_iff, Txn.run_query_eq_ok_iff,
    Txn.run_require_eq_ok_iff, Txn.run_pure_eq_ok_iff] at hRun
  rcases hRun with ⟨_, _, ⟨_, _, ⟨rfl, rfl⟩, hFound, rfl⟩, _,
    rfl⟩
  refine ⟨h.requestIds, h.lineIds, fun r hr => .inr ?_, h.seen⟩
  rcases h.current r hr with hOpen | hHas
  · have hFind : s'.findRequest requestId = some r := by
      have hSelf := Table.find_of_mem h.requestIds hr
      rw [hOpen] at hSelf
      exact hSelf
    rw [hFind, Option.all_some, List.any_eq_true] at hFound
    rcases hFound with ⟨v, hMem, hV⟩
    exact ⟨v, hMem, of_decide_eq_true hV⟩
  · exact hHas

theorem submitRevision_inv
    {payload : RevisionCreate}
    (h : ProcurementInv s)
    (hRun : (submitRevision env requestId payload
      actorUserId).run s = .ok (record, s')) :
    ProcurementInv s' := by
  refine h.command
    (fun expected hFind t r t' hT hRest => ?_) hRun
  have hOpen : Kept (fun r => r.id = requestId) [] t :=
    hT.mono (fun _ hFalse => hFalse.elim) (List.nil_subset _)
  have hId : expected.record.request.id = requestId :=
    Table.key_of_find hFind
  refine Txn.Keeps.bind_ensures ?_ (fun _ => ?_) t r t' hOpen
    hRest
  · exact Txn.ReadsOnly.keeps (by simp)
  refine Txn.Keeps.bind_ensures ?_ fun _ => ?_
  · exact Txn.ReadsOnly.keeps (by simp)
  refine (prepareLines_readsOnly _ _).keeps.bind_ensures
    fun lines => ?_
  refine Txn.Keeps.bind_ensures ?_ fun last => ?_
  · exact Txn.ReadsOnly.keeps (by simp)
  refine (actorSnapshot_readsOnly _).keeps.bind_ensures
    fun snapshot => ?_
  refine (insertRevision_keeps _).bind_ensures fun _ => ?_
  refine (insertLines_keeps _).bind_ensures fun _ => ?_
  refine bind_setStatus_ensures fun moved hMoved _ => ?_
  refine (updateRequest_keeps fun t _ => .inl
    (by exact hMoved.trans hId)).bind_ensures fun _ => ?_
  refine (insertEvent_keeps _).bind_ensures fun _ => ?_
  refine (tell_keeps _ _ _ _ _).bind_ensures fun _ => ?_
  exact (getRequestRecord_readsOnly _ _).keeps.bind_ensures
    fun _ => checkCurrentRevision_ensures

theorem createRequest_inv
    {payload : ProcurementRequestCreate}
    (h : ProcurementInv s)
    (hRun : (createRequest env payload actorUserId).run s =
      .ok (record, s')) :
    ProcurementInv s' := by
  have hActor : (lockAndRequireActorCapabilities actorUserId
      [.procurementCreate]).ReadsOnly := by
    refine .bind (by simp) fun _ => ?_
    exact .bind (by simp) fun _ => by simp
  have hCreate : (createRequest env payload
      actorUserId).Ensures ProcurementInv ProcurementInv := by
    refine hActor.keeps.bind_ensures fun _ => ?_
    refine Txn.Keeps.bind_ensures ?_ fun key => ?_
    · exact Txn.ReadsOnly.keeps (by simp)
    refine Txn.Keeps.bind_ensures ?_ fun _ => ?_
    · exact Txn.ReadsOnly.keeps (by simp)
    refine Txn.Keeps.bind_ensures ?_ fun existing => ?_
    · exact Txn.ReadsOnly.keeps (by simp)
    cases existing with
    | some request =>
        refine Txn.Keeps.bind_ensures ?_ fun _ => ?_
        · exact Txn.ReadsOnly.keeps (by simp)
        · exact (getRequestRecord_readsOnly _ _).keeps
    | none =>
        -- from here on the new request may lack its revision
        intro t r t' hT hRest
        have hOpen : Kept (fun r => r.id = env.requestId) []
            t :=
          hT.mono (fun _ hFalse => hFalse.elim)
            (List.nil_subset _)
        refine Txn.Keeps.bind_ensures ?_ (fun _ => ?_) t r t'
          hOpen hRest
        · exact (validateManager_readsOnly _).keeps
        refine (prepareLines_readsOnly _ _).keeps.bind_ensures
          fun lines => ?_
        refine (actorSnapshot_readsOnly _).keeps.bind_ensures
          fun snapshot => ?_
        refine (insertRequest_keeps (by rfl)).bind_ensures
          fun _ => ?_
        refine (insertRevision_keeps _).bind_ensures
          fun _ => ?_
        refine (insertLines_keeps _).bind_ensures fun _ => ?_
        refine (insertEvent_keeps _).bind_ensures fun _ => ?_
        refine (tell_keeps _ _ _ _ _).bind_ensures
          fun _ => ?_
        exact (getRequestRecord_readsOnly _ _).keeps.bind_ensures
          fun _ => checkCurrentRevision_ensures
  exact hCreate s record s' h hRun

end Commands

------------------------------------------------------------
-- Runs
------------------------------------------------------------

theorem ProcurementInv.step
    (h : ProcurementInv s)
    (hStep : ProcurementStep s s') :
    ProcurementInv s' := by
  cases hStep with
  | create hRun => exact createRequest_inv h hRun
  | command command hRun =>
      cases command with
      | takeOwnership payload =>
          exact changeAssignment_inv h hRun
      | transferManager payload =>
          exact changeAssignment_inv h hRun
      | managerAccept payload => exact managerAccept_inv h hRun
      | returnForCorrection payload =>
          exact returnForCorrection_inv h hRun
      | transferToAcceptance payload =>
          exact transferToAcceptance_inv h hRun
      | submitRevision payload =>
          exact submitRevision_inv h hRun
      | bindLine payload => exact bindLine_inv h hRun
      | createAndBindLine payload =>
          exact createAndBindLine_inv h hRun
      | reportDiscrepancy payload =>
          exact reportDiscrepancy_inv h hRun
      | completeAcceptance payload =>
          exact completeAcceptance_inv h hRun
  | other hSame => exact h.same hSame

theorem ProcurementHistory.inv
    (h : ProcurementHistory s) :
    ProcurementInv s := by
  induction h with
  | start hRequests hLines =>
      exact {
        requestIds := by rw [hRequests]; exact List.nodup_nil
        lineIds := by rw [hLines]; exact List.nodup_nil
        current := by
          rw [hRequests]
          intro r hr
          cases hr
        seen := by
          intro p hp
          cases hp }
  | step hBefore hStep ih => exact ih.step hStep

------------------------------------------------------------
-- Records
------------------------------------------------------------

/- The lines of a record are as unique as they are stored. -/
theorem nodup_lineRecords
    (h : (s.procurementRevisionLines.map
      ProcurementRevisionLine.id).Nodup)
    (revisionIds : List Uuid)
    (bindings : List ProcurementLineCatalogBinding)
    (p : LineRecord → Bool) :
    (((lineRecords (revisionLinesOf revisionIds s)
      bindings).filter p).map (fun l => l.line.id)).Nodup := by
  have hStored : ((revisionLinesOf revisionIds s).map
      ProcurementRevisionLine.id).Nodup := by
    unfold revisionLinesOf
    refine (((List.perm_insertionSort _ _).map _).nodup_iff).mpr
      ?_
    exact h.sublist (List.filter_sublist.map _)
  have hAll : ((lineRecords (revisionLinesOf revisionIds s)
      bindings).map (fun l => l.line.id)) =
      (revisionLinesOf revisionIds s).map
        ProcurementRevisionLine.id := by
    unfold lineRecords
    rw [List.map_map]
    rfl
  refine List.Nodup.sublist (List.filter_sublist.map _) ?_
  rw [hAll]
  exact hStored

/- The lines of a record are stored lines. -/
theorem mem_of_currentLines
    {requestId : Uuid}
    {record : ProcurementRecord}
    {lock : Bool}
    (hLoad : (getRequestRecord requestId lock).run s =
      .ok (record, s'))
    {lines : List LineRecord}
    (hLines : record.currentLines = .ok lines)
    {line : LineRecord}
    (hMem : line ∈ lines) :
    line.line ∈ s.procurementRevisionLines := by
  rcases findRequest_of_getRequestRecord hLoad with
    ⟨_, _, hRevisions⟩
  unfold ProcurementRecord.currentLines
    ProcurementRecord.currentRevision at hLines
  split at hLines
  · rename_i revision hFind
    cases hLines
    have hIn := List.mem_of_find?_eq_some hFind
    rw [hRevisions] at hIn
    rcases List.mem_map.mp hIn with ⟨v, _, rfl⟩
    rcases List.mem_map.mp (List.mem_of_mem_filter hMem) with
      ⟨l, hl, rfl⟩
    unfold revisionLinesOf at hl
    rw [List.mem_insertionSort] at hl
    exact List.mem_of_mem_filter hl
  · cases hLines

/- A record has the lines of its current revision. -/
theorem ProcurementInv.currentLines
    {requestId : Uuid}
    {record : ProcurementRecord}
    {lock : Bool}
    (h : ProcurementInv s)
    (hLoad : (getRequestRecord requestId lock).run s =
      .ok (record, s')) :
    ∃ lines, record.currentLines = .ok lines ∧
      (lines.map (fun l => l.line.id)).Nodup := by
  rcases findRequest_of_getRequestRecord hLoad with
    ⟨rfl, hFind, hRevisions⟩
  have hHas := (h.current _
    (Table.mem_of_find hFind)).resolve_left id
  rcases hHas with ⟨v, hMem, hId, hRequest⟩
  have hSome : (record.revisions.find? (fun r =>
      r.revision.id =
        record.request.currentRevisionId)).isSome = true := by
    rw [List.find?_isSome, hRevisions]
    refine ⟨_, List.mem_map.mpr ⟨v, ?_, rfl⟩,
      decide_eq_true hId⟩
    unfold revisionsOf
    rw [List.mem_insertionSort, List.mem_filter]
    exact ⟨hMem, decide_eq_true hRequest⟩
  rcases Option.isSome_iff_exists.mp hSome with ⟨r, hR⟩
  refine ⟨r.lines, ?_, ?_⟩
  · unfold ProcurementRecord.currentLines
      ProcurementRecord.currentRevision
    rw [hR]
    rfl
  · have hIn := List.mem_of_find?_eq_some hR
    rw [hRevisions] at hIn
    rcases List.mem_map.mp hIn with ⟨w, _, rfl⟩
    exact nodup_lineRecords h.lineIds _ _ _

------------------------------------------------------------
-- A First Request
------------------------------------------------------------

/- An owner asks a manager for two pieces of an item. -/
namespace FirstRequest

def env : ProcurementEnv where
  catalog := ⟨.ascii, id⟩
  telegramWebAppUrl := []
  now := 1
  clock := 1
  year := "2026".toList
  requestNumber := 1
  requestId := ⟨20⟩
  revisionId := ⟨21⟩
  lineId n := ⟨BitVec.ofNat 128 (30 + n)⟩
  eventId := ⟨22⟩
  itemId := ⟨23⟩
  movementId := ⟨24⟩
  notificationId _ := ⟨25⟩

def owner : User where
  id := ⟨1⟩
  role := .owner
  accessStatus := .approved
  approvedAt := some 0
  approvedByUserId := none

def manager : User where
  id := ⟨2⟩
  role := .manager
  accessStatus := .approved
  approvedAt := some 0
  approvedByUserId := some ⟨1⟩

def category : Category where
  id := ⟨3⟩
  key := "power_cable".toList
  displayName := "Кабели питания".toList
  sortOrder := 1
  parentId := some ⟨4⟩

def item : Item where
  id := ⟨5⟩
  categoryId := ⟨3⟩
  manufacturerId := none
  name := "C13".toList
  normalizedName := "c13".toList
  model := none
  normalizedModel := none
  status := .active
  identitySignature := "signature".toList
  archivedAt := none
  updatedAt := 0

/- The database before the request. -/
def start : Db :=
  { Db.empty with
    users := [owner, manager]
    categories := [category]
    items := [item] }

def payload : ProcurementRequestCreate where
  assignedManagerUserId := ⟨2⟩
  generalComment := none
  clientRequestId := "key".toList
  lines := [.existing ⟨⟨5⟩, 2, by decide, by decide⟩]
  comment_length := by simp
  key_nonempty := by decide
  key_length := by decide
  lines_nonempty := by decide
  lines_length := by decide

theorem created :
    ∃ record s', (createRequest env payload owner.id).run
        start = .ok (record, s') ∧
      (getRequestRecord ⟨20⟩ false).run s' =
        .ok (record, s') ∧
      record.request.stateVersion = 1 ∧
      record.request.currentRevisionId = ⟨21⟩ ∧
      s'.users = [owner, manager] ∧
      s'.procurementEvents.map ProcurementEvent.actorUserId =
        [owner.id] := by
  refine ⟨_, _, rfl, rfl, rfl, rfl, rfl, rfl⟩

end FirstRequest

end Procurement
