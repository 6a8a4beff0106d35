import DcInventory.Procurement.Acceptance
import Mathlib.Logic.Relation

/-
  This file follows requests and the warehouse together. In
  every run the receipt of a completed request is what was
  approved for it, it belongs to no other request, and nobody
  corrects or reverses it.

  Key definitions include:
    * `SystemStep`
    * `approvedLines`
    * `Received`
    * `SystemInv`

  Key theorems include:
    * `SystemStep.keepsReceipts`
    * `SystemRun.inv`
    * `acceptance_receives_what_was_approved`
    * `receipts_match_approved_revisions`
-/

namespace Procurement

------------------------------------------------------------
-- Runs
------------------------------------------------------------

/-
  A movement is requested, a command of procurement is carried
  out, or something happens that is neither.
-/
inductive SystemStep (s s' : Db) : Prop where
| movement {env result}
    (request : MovementRequest)
    (h : (request.program env).run s = .ok (result, s'))
| create {env payload actorUserId record}
    (h : (createRequest env payload actorUserId).run s =
      .ok (record, s'))
| command {env requestId actorUserId record}
    (command : ProcurementCommand)
    (h : (command.program env requestId actorUserId).run s =
      .ok (record, s'))
| elsewhere
    (hWarehouse : SameWarehouse s s')
    (hProcurement : SameProcurement s s')

abbrev SystemRun : Db → Db → Prop :=
  Relation.ReflTransGen SystemStep

section Steps

variable {s s' s₀ : Db}

/- A movement changes nothing of a request. -/
theorem request_spares
    (env : MovementEnv)
    (request : MovementRequest) :
    SparesProcurement (request.program env) := by
  refine (request_writesOnly env request).mono ?_
  intro change hChange t
  have hOnly : change t = { t with
      movements := (change t).movements
      movementLines := (change t).movementLines
      stockBalances := (change t).stockBalances
      userItemCustodyBalances :=
        (change t).userItemCustodyBalances } :=
    hChange t
  exact {
    requests := by rw [hOnly]
    revisions := by rw [hOnly]
    lines := by rw [hOnly]
    bindings := by rw [hOnly]
    events := by rw [hOnly] }

theorem SystemStep.procurement (h : SystemStep s s') :
    ProcurementStep s s' := by
  cases h with
  | movement request hRun =>
      exact .other ((request_spares _ request).same hRun)
  | create hRun => exact .create hRun
  | command command hRun => exact .command command hRun
  | elsewhere _ hProcurement => exact .other hProcurement

theorem SystemRun.procurement (h : SystemRun s s') :
    ProcurementSteps s s' := by
  induction h with
  | refl => exact .refl
  | tail _ hStep ih => exact ih.step hStep.procurement

/- Whatever happens, the warehouse stays valid. -/
theorem SystemStep.valid
    (hValid : WarehouseValid s)
    (h : SystemStep s s') :
    WarehouseValid s' := by
  cases h with
  | movement request hRun =>
      rcases request_books hValid hRun with ⟨call, _, hBooking⟩
      cases hBooking with
      | booked hBooks => exact hBooks.valid
      | replayed => exact hValid
  | create hRun =>
      exact ((createRequest_sparesWarehouse _).same hRun).valid
        hValid
  | command command hRun =>
      by_cases hType : command.eventType = .completed
      · cases command with
        | completeAcceptance payload =>
            rcases completeAcceptance_receives hValid hRun with
              hRepeated | ⟨_, _, _, _, _, _, _, _, hReceives, _⟩
            · rw [hRepeated.same]
              exact hValid
            · exact hReceives.valid
        | _ => cases hType
      · exact ((program_sparesWarehouse hType).same hRun).valid
          hValid
  | elsewhere hWarehouse _ => exact hWarehouse.valid hValid

end Steps

------------------------------------------------------------
-- Approved Lines
------------------------------------------------------------

/- The lines of the current revision, with their bindings. -/
def approvedLines
    (s : Db)
    (request : ProcurementRequest) : List LineRecord :=
  (s.procurementRevisionLines.filter (fun l =>
    l.revisionId = request.currentRevisionId)).map (fun l =>
      ⟨l, Table.find ProcurementLineCatalogBinding.revisionLineId
        l.id s.procurementBindings⟩)

/- What matters of a line for its receipt. -/
def LineRecord.bound
    (line : LineRecord) : ProcurementRevisionLine × Option Uuid :=
  (line.line, line.boundItemId)

/- The same lines, bound to the same items, in some order. -/
def SameLines (lines lines' : List LineRecord) : Prop :=
  (lines.map LineRecord.bound).Perm (lines'.map LineRecord.bound)

section Lines

variable {s s' : Db}
variable {lines lines' : List LineRecord}
variable {request : ProcurementRequest}

theorem SameLines.pairs
    (h : SameLines lines lines') :
    (boundPairs lines).Perm (boundPairs lines') := by
  have hPairs : ∀ ls : List LineRecord, boundPairs ls =
      (ls.map LineRecord.bound).filterMap (fun p =>
        p.2.map (fun itemId => (itemId, p.1.quantity))) := by
    intro ls
    rw [List.filterMap_map]
    rfl
  rw [hPairs, hPairs]
  exact h.filterMap _

theorem SameLines.exists_bound
    (h : SameLines lines lines')
    (itemId : Option Uuid) :
    (∃ line ∈ lines, line.boundItemId = itemId) ↔
      ∃ line ∈ lines', line.boundItemId = itemId := by
  have hIds := (h.map Prod.snd).mem_iff (a := itemId)
  simpa [LineRecord.bound] using hIds

theorem SameLines.quantities
    (h : SameLines lines lines') :
    (lines.map (fun line => line.line.quantity)).sum =
      (lines'.map (fun line => line.line.quantity)).sum := by
  have hSum := (h.map (fun p => p.1.quantity)).sum_eq
  rwa [List.map_map, List.map_map] at hSum

/- A record has the lines that are stored. -/
theorem sameLines_of_loaded
    {requestId : Uuid}
    {record : ProcurementRecord}
    {lock : Bool}
    (hLoad : (getRequestRecord requestId lock).run s =
      .ok (record, s'))
    (hLines : record.currentLines = .ok lines) :
    SameLines lines (approvedLines s record.request) := by
  rcases findRequest_of_getRequestRecord hLoad with
    ⟨_, _, hRevisions⟩
  unfold ProcurementRecord.currentLines
    ProcurementRecord.currentRevision at hLines
  split at hLines
  · rename_i revision hFind
    cases hLines
    have hIn := List.mem_of_find?_eq_some hFind
    have hCurrent : revision.revision.id =
        record.request.currentRevisionId := by
      have hFound := List.find?_some hFind
      exact of_decide_eq_true hFound
    rw [hRevisions] at hIn
    rcases List.mem_map.mp hIn with ⟨v, hv, rfl⟩
    have hKeys : v.id ∈ (revisionsOf record.request.id s).map
        ProcurementRevision.id :=
      List.mem_map_of_mem hv
    change v.id = _ at hCurrent
    rw [hCurrent] at hKeys
    unfold SameLines approvedLines lineRecords
    dsimp only
    rw [List.filter_map, List.map_map, List.map_map, hCurrent]
    refine List.Perm.trans (.of_eq (List.map_congr_left
      fun l hl => ?_)) (List.Perm.map _ ?_)
    · have hMem := List.mem_of_mem_filter hl
      unfold LineRecord.bound LineRecord.boundItemId
      dsimp only [Function.comp_apply]
      rw [bindingsOf, Table.find_filter fun b _ hKey => ?_]
      rw [hKey]
      exact decide_eq_true (List.mem_map_of_mem hMem)
    · unfold revisionLinesOf
      refine ((List.perm_insertionSort _ _).filter _).trans ?_
      rw [List.filter_filter]
      refine .of_eq (List.filter_congr fun l _ => ?_)
      by_cases hOwn : l.revisionId =
          record.request.currentRevisionId
      · simp [hOwn, hKeys]
      · simp [hOwn]
  · cases hLines

end Lines

------------------------------------------------------------
-- What Every Step Keeps
------------------------------------------------------------

/- Movements stay, and receipts are not adjusted. -/
structure KeepsMovements (s s' : Db) : Prop where
  stored : ∀ m ∈ s.movements, m ∈ s'.movements
  lines : ∀ m ∈ s.movements, s'.linesOf m.id = s.linesOf m.id
  unadjusted : ∀ m ∈ s'.movements, m ∈ s.movements ∨
    ∀ o, m.originalMovementId = some o → ¬ IsReceipt s o

/- Revisions keep their lines, and lines their bindings. -/
structure KeepsApproval (s s' : Db) : Prop where
  lines : ∀ v ∈ s.procurementRevisions,
    s'.procurementRevisionLines.filter (fun l =>
        l.revisionId = v.id) =
      s.procurementRevisionLines.filter (fun l =>
        l.revisionId = v.id)
  bindings : s.procurementBindings <+: s'.procurementBindings

section Kept

variable {env : ProcurementEnv}
variable {s s' : Db}

theorem keepsMovements_of_same (h : SameWarehouse s s') :
    KeepsMovements s s' where
  stored := by
    rw [h.movements]
    exact fun _ hMem => hMem
  lines := fun m _ => h.linesOf m.id
  unadjusted := by
    rw [h.movements]
    exact fun _ hMem => .inl hMem

/- Lines of a fresh movement are not those of old ones. -/
theorem linesOf_of_appended
    {m : Movement}
    {rows : List MovementLine}
    (hLines : s'.movementLines = s.movementLines ++ rows)
    (hHeader : ∀ row ∈ rows, row.movementId = m.id)
    (hFresh : s.findMovement m.id = none)
    {m' : Movement}
    (hMem : m' ∈ s.movements) :
    s'.linesOf m'.id = s.linesOf m'.id := by
  have hNe : m.id ≠ m'.id := fun hEq =>
    Table.find_eq_none_iff.mp hFresh m' hMem hEq.symm
  have hSame : s'.linesOf m'.id =
      (s.withMovement m rows).linesOf m'.id := by
    unfold Db.linesOf Db.withMovement
    rw [hLines]
  rw [hSame]
  exact Db.linesOf_withMovement_of_ne hHeader hNe

theorem SystemStep.keepsMovements
    (hValid : WarehouseValid s)
    (h : SystemStep s s') :
    KeepsMovements s s' := by
  cases h with
  | movement request hRun =>
      rcases request_books hValid hRun with ⟨call, _, hBooking⟩
      cases hBooking with
      | replayed =>
          exact keepsMovements_of_same (sameWarehouse_refl s)
      | @booked _ m rows hBooks =>
          refine ⟨fun _ => hBooks.mem_of_mem,
            fun _ => hBooks.linesOf_of_mem hValid, ?_⟩
          rw [hBooks.movements]
          intro m' hMem
          rcases List.mem_append.mp hMem with hOld | hLast
          · exact .inl hOld
          · rw [List.mem_singleton.mp hLast]
            exact .inr hBooks.notReceipt
  | create hRun =>
      exact keepsMovements_of_same
        ((createRequest_sparesWarehouse _).same hRun)
  | command command hRun =>
      by_cases hType : command.eventType = .completed
      · cases command with
        | completeAcceptance payload =>
            rcases completeAcceptance_receives hValid hRun with
              hRepeated | ⟨_, _, m, rows, _, _, _, _,
                hReceives, _⟩
            · rw [hRepeated.same]
              exact keepsMovements_of_same (sameWarehouse_refl s)
            · refine ⟨?_, fun _ => linesOf_of_appended
                hReceives.movementLines hReceives.header
                  hReceives.fresh, ?_⟩ <;>
                rw [hReceives.movements]
              · exact fun _ => List.mem_append_left _
              · intro m' hMem
                rcases List.mem_append.mp hMem with hOld | hLast
                · exact .inl hOld
                · rw [List.mem_singleton.mp hLast,
                    hReceives.apart.1]
                  exact .inr fun _ hEq => nomatch hEq
        | _ => cases hType
      · exact keepsMovements_of_same
          ((program_sparesWarehouse hType).same hRun)
  | elsewhere hWarehouse _ =>
      exact keepsMovements_of_same hWarehouse

/- The rows of a revision are prepared for it. -/
theorem prepareRows_revision
    {prepared : Preparation}
    {number index : Nat}
    {payloads : List ProcurementLineCreate}
    {rows : List ProcurementRevisionLine}
    (h : prepareRows env prepared number index payloads =
      .ok rows) :
    ∀ row ∈ rows, row.revisionId = env.revisionId := by
  induction payloads generalizing number index rows with
  | nil =>
      cases h
      exact List.forall_mem_nil _
  | cons payload payloads ih =>
      cases payload with
      | existing line =>
          rcases Except.bind_eq_ok_iff.mp h with
            ⟨row, hRow, hRest⟩
          rcases Except.bind_eq_ok_iff.mp hRest with
            ⟨rows', hRows, hAll⟩
          cases hAll
          refine List.forall_mem_cons.mpr ⟨?_, ih hRows⟩
          unfold existingRow at hRow
          split at hRow
          · cases hRow
          · split at hRow
            · cases hRow
            · split at hRow
              · cases hRow
                rfl
              · cases hRow
      | proposed line =>
          rcases Except.bind_eq_ok_iff.mp h with
            ⟨row, hRow, hRest⟩
          rcases Except.bind_eq_ok_iff.mp hRest with
            ⟨rows', hRows, hAll⟩
          cases hAll
          refine List.forall_mem_cons.mpr ⟨?_, ih hRows⟩
          unfold proposedRow at hRow
          split at hRow
          · cases hRow
          · rcases Except.bind_eq_ok_iff.mp hRow with
              ⟨validated, _, hOk⟩
            cases hOk
            rfl

theorem prepareLines_revision
    {payloads : List ProcurementLineCreate}
    {rows : List ProcurementRevisionLine}
    (h : (prepareLines env payloads).run s = .ok (rows, s')) :
    ∀ row ∈ rows, row.revisionId = env.revisionId := by
  unfold prepareLines at h
  rw [Txn.run_bind, lockRows_run] at h
  simp only [Txn.run_bind_eq_ok_iff, Txn.run_query_eq_ok_iff,
    Txn.run_ofExcept_eq_ok_iff, Txn.run_pure_eq_ok_iff] at h
  rcases h with ⟨_, _, ⟨rfl, rfl⟩, _, _, ⟨_, rfl⟩, _, _,
    ⟨rfl, rfl⟩, _, _, ⟨_, rfl⟩, _, _, ⟨hRows, rfl⟩, _, _,
    ⟨_, rfl⟩, rfl, rfl⟩
  exact prepareRows_revision hRows

/- Lines of a new revision are not those of old ones. -/
theorem filter_of_appended
    {lines added : List ProcurementRevisionLine}
    {revisionId : Uuid}
    {v : ProcurementRevision}
    (hOwn : ∀ l ∈ added, l.revisionId = revisionId)
    (hNe : v.id ≠ revisionId) :
    (lines ++ added).filter (fun l => l.revisionId = v.id) =
      lines.filter (fun l => l.revisionId = v.id) :=
  EventLog.of_append_of_ne hOwn hNe.symm

theorem ProcurementStep.keepsApproval
    (h : ProcurementStep s s') :
    KeepsApproval s s' := by
  cases h.change with
  | same hSame =>
      constructor
      · rw [hSame.lines]
        exact fun _ _ => rfl
      · rw [hSame.bindings]
  | created hCreated =>
      constructor
      · intro v hv
        rw [hCreated.rows]
        refine filter_of_appended (prepareLines_revision
          hCreated.prepared) ?_
        rw [← hCreated.ids]
        exact hCreated.freshRevision v hv
      · rw [hCreated.bindings]
  | accepted hAccepted =>
      have hWrites := hAccepted.writes
      cases hAccepted.added with
      | nothing =>
          constructor
          · rw [hWrites.lines, Additions.none, List.append_nil]
            exact fun _ _ => rfl
          · rw [hWrites.bindings]
            exact List.prefix_append _ _
      | binding =>
          constructor
          · rw [hWrites.lines, List.append_nil]
            exact fun _ _ => rfl
          · rw [hWrites.bindings]
            exact List.prefix_append _ _
      | revision _ hPrepared _ hEnv _ _ _ hNew =>
          constructor
          · intro v hv
            rw [hWrites.lines]
            refine filter_of_appended (prepareLines_revision
              hPrepared) ?_
            rw [← hEnv]
            exact hNew v hv
          · rw [hWrites.bindings]
            exact List.prefix_append _ _

end Kept

------------------------------------------------------------
-- Receipts
------------------------------------------------------------

/- The movement is the receipt of what was approved. -/
structure Received
    (s : Db)
    (request : ProcurementRequest)
    (m : Movement) : Prop where
  id : request.finalMovementId = some m.id
  stored : m ∈ s.movements
  movementType : m.movementType = .receipt
  positions : m.sourceLocationId = none ∧
    m.destinationLocationId.isSome = true
  apart : m.originalMovementId = none ∧ m.custodyUserId = none
  bound : ∀ line ∈ approvedLines s request,
    line.boundItemId ≠ none
  distinct : ((s.linesOf m.id).map MovementLine.itemId).Nodup
  received : ∀ itemId,
    itemId ∈ (s.linesOf m.id).map MovementLine.itemId ↔
      ∃ line ∈ approvedLines s request,
        line.boundItemId = some itemId
  quantity : ∀ row ∈ s.linesOf m.id, row.quantity =
    Tally.total row.itemId (boundPairs (approvedLines s request))
  total : ((s.linesOf m.id).map MovementLine.quantity).sum =
    ((approvedLines s request).map (fun line =>
      line.line.quantity)).sum
  unadjusted : ∀ m' ∈ s.movements,
    m'.originalMovementId ≠ some m.id

section Receipts

variable {s s' s₀ : Db}
variable {request : ProcurementRequest}
variable {m : Movement}

/- Lines that are bound stay as they are. -/
theorem KeepsApproval.sameLines
    (h : KeepsApproval s s')
    (hRevision : ∃ v ∈ s.procurementRevisions,
      v.id = request.currentRevisionId)
    (hBound : ∀ line ∈ approvedLines s request,
      line.boundItemId ≠ none) :
    SameLines (approvedLines s' request)
      (approvedLines s request) := by
  rcases hRevision with ⟨v, hv, hCurrent⟩
  have hLines := h.lines v hv
  rw [hCurrent] at hLines
  unfold SameLines
  refine .of_eq ?_
  unfold approvedLines at hBound ⊢
  rw [hLines, List.map_map, List.map_map]
  refine List.map_congr_left fun l hl => ?_
  have hOwn := hBound _ (List.mem_map_of_mem hl)
  unfold LineRecord.bound LineRecord.boundItemId at *
  dsimp only [Function.comp_apply] at *
  cases hItem : l.catalogItemId with
  | some itemId => rfl
  | none =>
      rw [hItem] at hOwn
      dsimp only at hOwn ⊢
      rcases h.bindings with ⟨later, hLater⟩
      cases hBinding : Table.find
          ProcurementLineCatalogBinding.revisionLineId l.id
            s.procurementBindings with
      | none =>
          rw [hBinding] at hOwn
          exact absurd rfl hOwn
      | some binding =>
          rw [← hLater, Table.find_append_of_some hBinding]

/- What was received stays received. -/
theorem Received.kept
    (hMoves : KeepsMovements s s')
    (hApproval : KeepsApproval s s')
    (hMem : request ∈ s.procurementRequests)
    (hRevision : ∃ v ∈ s.procurementRevisions,
      v.id = request.currentRevisionId)
    (h : Received s request m) :
    Received s' request m := by
  have hSame := hApproval.sameLines hRevision h.bound
  have hLines := hMoves.lines m h.stored
  exact {
    id := h.id
    stored := hMoves.stored m h.stored
    movementType := h.movementType
    positions := h.positions
    apart := h.apart
    bound := by
      intro line hLine hNone
      rcases (hSame.exists_bound none).mp
        ⟨line, hLine, hNone⟩ with ⟨old, hOld, hOldNone⟩
      exact h.bound old hOld hOldNone
    distinct := by
      rw [hLines]
      exact h.distinct
    received := by
      intro itemId
      rw [hLines, h.received, hSame.exists_bound]
    quantity := by
      rw [hLines]
      intro row hRow
      rw [h.quantity row hRow, Tally.total_perm hSame.pairs]
    total := by
      rw [hLines, h.total, hSame.quantities]
    unadjusted := by
      intro m' hm' hAdjusts
      rcases hMoves.unadjusted m' hm' with hOld | hNew
      · exact h.unadjusted m' hOld hAdjusts
      · exact hNew m.id hAdjusts ⟨request, hMem, h.id⟩ }

/- What an acceptance received is the receipt of its request. -/
theorem Receives.received_by
    {locationId : Uuid}
    {lines : List LineRecord}
    {rows : List MovementLine}
    (hValid : WarehouseValid s)
    (h : Receives s s' locationId lines m rows)
    (hSame : SameLines lines (approvedLines s' request))
    (hId : request.finalMovementId = some m.id) :
    Received s' request m := by
  have hOwn : s'.linesOf m.id = rows := by
    have hLines : s'.linesOf m.id =
        (s.withMovement m rows).linesOf m.id := by
      unfold Db.linesOf Db.withMovement
      rw [h.movementLines]
    rw [hLines]
    exact Db.linesOf_withMovement_self hValid.journal h.fresh
      h.header
  exact {
    id := hId
    stored := by
      rw [h.movements]
      exact List.mem_append_right _ (List.mem_singleton_self m)
    movementType := h.movementType
    positions := ⟨h.positions.1, by rw [h.positions.2]; rfl⟩
    apart := h.apart
    bound := by
      intro line hLine hNone
      rcases (hSame.exists_bound none).mpr
        ⟨line, hLine, hNone⟩ with ⟨old, hOld, hOldNone⟩
      rcases h.items old hOld with ⟨item, hItem, _⟩
      rw [hOldNone] at hItem
      cases hItem
    distinct := by
      rw [hOwn]
      exact h.distinct
    received := by
      intro itemId
      rw [hOwn, h.received, hSame.exists_bound]
    quantity := by
      rw [hOwn]
      intro row hRow
      rw [h.quantity row hRow, Tally.total_perm hSame.pairs]
    total := by
      rw [hOwn, h.total, hSame.quantities]
    unadjusted := by
      intro m' hm' hAdjusts
      rw [h.movements] at hm'
      rcases List.mem_append.mp hm' with hOld | hLast
      · rcases hValid.journal.links m' hOld m.id hAdjusts with
          ⟨original, hOriginal, hSameId, _⟩
        exact Table.find_eq_none_iff.mp h.fresh original
          hOriginal hSameId
      · rw [List.mem_singleton.mp hLast, h.apart.1] at hAdjusts
        cases hAdjusts }

end Receipts

------------------------------------------------------------
-- Invariants
------------------------------------------------------------

/- What holds of requests and the warehouse at all times. -/
structure SystemInv (s : Db) : Prop where
  warehouse : WarehouseValid s
  log : ProcurementLog s
  receipts : ∀ request ∈ s.procurementRequests,
    request.finalMovementId.isSome = true →
      ∃ m, Received s request m
  apart : ∀ r ∈ s.procurementRequests,
    ∀ r' ∈ s.procurementRequests, ∀ movementId,
      r.finalMovementId = some movementId →
        r'.finalMovementId = some movementId → r = r'

section Invariants

variable {s s' s₀ : Db}
variable {request : ProcurementRequest}

theorem SystemInv.start
    (hEmpty : WarehouseEmpty s)
    (hNone : NoProcurement s) :
    SystemInv s where
  warehouse := hEmpty.valid
  log := .start hNone
  receipts := by
    rw [hNone.requests]
    exact List.forall_mem_nil _
  apart := by
    rw [hNone.requests]
    exact List.forall_mem_nil _

/- A request has its current revision. -/
theorem ProcurementLog.current
    (h : ProcurementLog s)
    (hMem : request ∈ s.procurementRequests) :
    ∃ v ∈ s.procurementRevisions,
      v.id = request.currentRevisionId := by
  rcases h.revisions.told request hMem with
    ⟨n, _, last, hLast, hCurrent⟩
  exact ⟨last, List.mem_of_mem_filter
    (List.mem_of_getLast? hLast), hCurrent⟩

/- A request that was given a receipt in a step. -/
def FirstReceived
    (s s' : Db)
    (request : ProcurementRequest) : Prop :=
  ∃ m, Received s' request m ∧ s.findMovement m.id = none

/- An accepted command gives a receipt where it completes. -/
theorem SystemInv.accepted
    {env : ProcurementEnv}
    {requestId actorUserId : Uuid}
    {record : ProcurementRecord}
    {command : ProcurementCommand}
    {old new : ProcurementRequest}
    {event : ProcurementEvent}
    {added : Additions}
    (h : SystemInv s)
    (hRun : (command.program env requestId actorUserId).run s =
      .ok (record, s'))
    (hAccepted : Accepted env s s' requestId actorUserId command
      old new event added)
    (hSome : new.finalMovementId.isSome = true) :
    FirstReceived s s' new := by
  have hOldMem : old ∈ s.procurementRequests :=
    Table.mem_of_find hAccepted.found
  have hOpen : old.finalMovementId.isSome ≠ true := by
    intro hOld
    exact hAccepted.turns.header.1.active
      ((h.log.events.told old hOldMem).completed.mpr hOld)
  have hNewId : new.id = requestId :=
    hAccepted.turns.id_eq.trans
      (Table.key_of_find hAccepted.found)
  have hNew : s'.findRequest requestId = some new := by
    rw [← hNewId]
    have hOldFound : s.findRequest new.id = some old :=
      hNewId ▸ hAccepted.found
    exact hAccepted.writes.found hOldFound
  have hStep : ProcurementStep s s' := .command command hRun
  have hKept := hStep.keepsApproval
  have hType := hAccepted.type
  cases hAccepted.turns with
  | moved => exact absurd hSome hOpen
  | submitted => exact absurd hSome hOpen
  | assigned => exact absurd hSome hOpen
  | noted => exact absurd hSome hOpen
  | completed hCompleted =>
      cases command with
      | completeAcceptance payload =>
          rcases completeAcceptance_receives h.warehouse hRun with
            hRepeated | ⟨expected, lines, m, rows, new', hStarted,
              _, hLines, hReceives, hDone⟩
          · have hSame := hAccepted.writes.events
            rw [hRepeated.same] at hSame
            exact absurd hSame (by simp)
          · have hRequest : expected.record.request = old := by
              have hFound := hStarted.found
              rw [hAccepted.found] at hFound
              exact (Option.some.inj hFound).symm
            have hSameLines := sameLines_of_loaded
              hStarted.loaded hLines
            rw [hRequest] at hSameLines
            have hBound : ∀ line ∈ approvedLines s old,
                line.boundItemId ≠ none := by
              intro line hLine hNone
              rcases (hSameLines.exists_bound none).mpr
                ⟨line, hLine, hNone⟩ with ⟨l, hl, hlNone⟩
              rcases hReceives.items l hl with ⟨item, hItem, _⟩
              rw [hlNone] at hItem
              cases hItem
            have hStays := hKept.sameLines
              (h.log.current hOldMem) hBound
            have hFinal := hDone.found
            rw [hNew] at hFinal
            cases hFinal
            exact ⟨m, hReceives.received_by h.warehouse
              (hSameLines.trans hStays.symm) hDone.movement,
                hReceives.fresh⟩
      | _ => rw [hType] at hCompleted; cases hCompleted

/- Receipts of a step are old, or of one request. -/
theorem SystemInv.origin
    (h : SystemInv s)
    (hStep : SystemStep s s') :
    ∃ requestId, ∀ r ∈ s'.procurementRequests,
      r.finalMovementId.isSome = true →
        r ∈ s.procurementRequests ∨
          r.id = requestId ∧ FirstReceived s s' r := by
  have hSame : SameProcurement s s' → ∀ r ∈
      s'.procurementRequests, r.finalMovementId.isSome = true →
        r ∈ s.procurementRequests ∨
          r.id = ⟨0⟩ ∧ FirstReceived s s' r := by
    intro hSame r hr _
    rw [hSame.requests] at hr
    exact .inl hr
  cases hStep with
  | movement request hRun =>
      exact ⟨⟨0⟩, hSame ((request_spares _ request).same hRun)⟩
  | create hRun =>
      rcases createRequest_cases hRun with
        rfl | ⟨new, _, _, _, hCreated⟩
      · exact ⟨⟨0⟩, hSame (.refl s')⟩
      · refine ⟨⟨0⟩, fun r hr hSome => ?_⟩
        rw [hCreated.requests] at hr
        rcases List.mem_append.mp hr with hOld | hLast
        · exact .inl hOld
        · rw [List.mem_singleton.mp hLast,
            hCreated.open_.1] at hSome
          cases hSome
  | @command env requestId actorUserId record command hRun =>
      rcases command_cases hRun with
        hRepeated | ⟨old, new, event, added, hAccepted⟩
      · refine ⟨⟨0⟩, hSame ?_⟩
        rw [hRepeated.same]
        exact .refl s
      · refine ⟨new.id, fun r hr hSome => ?_⟩
        rw [hAccepted.writes.requests] at hr
        rcases Table.mem_rewrite.mp hr with
          ⟨hOld, _⟩ | ⟨_, _, _, rfl⟩
        · exact .inl hOld
        · exact .inr ⟨rfl, h.accepted hRun hAccepted hSome⟩
  | elsewhere _ hProcurement => exact ⟨⟨0⟩, hSame hProcurement⟩

theorem SystemInv.step
    (h : SystemInv s)
    (hStep : SystemStep s s') :
    SystemInv s' := by
  have hLog := h.log.step hStep.procurement
  have hMoves := hStep.keepsMovements h.warehouse
  have hApproval := hStep.procurement.keepsApproval
  rcases h.origin hStep with ⟨requestId, hOrigin⟩
  have hKept : ∀ r ∈ s.procurementRequests, ∀ m,
      Received s r m → Received s' r m :=
    fun r hr m hReceived => hReceived.kept hMoves hApproval hr
      (h.log.current hr)
  have hApart : ∀ r ∈ s.procurementRequests,
      ∀ r', FirstReceived s s' r' → ∀ movementId,
        r.finalMovementId = some movementId →
          r'.finalMovementId = some movementId → False := by
    rintro r hr r' ⟨m', hReceived', hFresh⟩ movementId hId hId'
    rcases h.receipts r hr (by rw [hId]; rfl) with
      ⟨m, hReceived⟩
    rw [hReceived.id] at hId
    rw [hReceived'.id, ← hId] at hId'
    exact Table.find_eq_none_iff.mp hFresh m hReceived.stored
      (Option.some.inj hId').symm
  exact {
    warehouse := hStep.valid h.warehouse
    log := hLog
    receipts := by
      intro r hr hSome
      rcases hOrigin r hr hSome with hOld | ⟨_, m, hFirst, _⟩
      · rcases h.receipts r hOld hSome with ⟨m, hReceived⟩
        exact ⟨m, hKept r hOld m hReceived⟩
      · exact ⟨m, hFirst⟩
    apart := by
      intro r hr r' hr' movementId hId hId'
      have hSome : r.finalMovementId.isSome = true := by
        rw [hId]
        rfl
      have hSome' : r'.finalMovementId.isSome = true := by
        rw [hId']
        rfl
      rcases hOrigin r hr hSome with hOld | ⟨hKey, hFirst⟩
      · rcases hOrigin r' hr' hSome' with hOld' | ⟨_, hFirst'⟩
        · exact h.apart r hOld r' hOld' movementId hId hId'
        · exact (hApart r hOld r' hFirst' movementId hId
            hId').elim
      · rcases hOrigin r' hr' hSome' with hOld' | ⟨hKey', _⟩
        · exact (hApart r' hOld' r hFirst movementId hId'
            hId).elim
        · exact List.inj_on_of_nodup_map hLog.events.keys hr hr'
            (hKey.trans hKey'.symm) }

theorem SystemRun.inv
    (h : SystemRun s s')
    (hInv : SystemInv s) :
    SystemInv s' := by
  induction h with
  | refl => exact hInv
  | tail _ hStep ih => exact ih.step hStep

/- What was received stays received in every later state. -/
theorem SystemRun.received
    {m : Movement}
    (h : SystemRun s s')
    (hInv : SystemInv s)
    (hMem : request ∈ s.procurementRequests)
    (hCompleted : request.status = .completed)
    (hReceived : Received s request m) :
    Received s' request m := by
  induction h with
  | refl => exact hReceived
  | @tail t t' hRun hStep ih =>
      have hInv' := SystemRun.inv hRun hInv
      have hStays := (SystemRun.procurement hRun).closed hInv.log
        hMem hCompleted
      exact ih.kept (hStep.keepsMovements hInv'.warehouse)
        hStep.procurement.keepsApproval hStays.stays
          (hInv'.log.current hStays.stays)

------------------------------------------------------------
-- Results
------------------------------------------------------------

/-
  In every state of every run an acceptance that changes
  anything books one receipt: the items that are bound to the
  approved lines, each once, in the quantity that the lines
  ask for, and it changes no other balance.
-/
theorem acceptance_receives_what_was_approved
    {env : ProcurementEnv}
    {requestId actorUserId : Uuid}
    {payload : ProcurementAcceptanceCreate}
    {record : ProcurementRecord}
    (hEmpty : WarehouseEmpty s₀)
    (hNone : NoProcurement s₀)
    (hRun : SystemRun s₀ s)
    (hAccepts : (completeAcceptance env requestId payload
      actorUserId).run s = .ok (record, s'))
    (hChanges : s' ≠ s) :
    ∃ old lines m rows new,
      s.findRequest requestId = some old ∧
      SameLines lines (approvedLines s old) ∧
      Receives s s' payload.receivingLocationId lines m rows ∧
      (rows.map MovementLine.quantity).sum =
        ((approvedLines s old).map (fun line =>
          line.line.quantity)).sum ∧
      Accomplished s' requestId m new := by
  have hInv := hRun.inv (.start hEmpty hNone)
  rcases completeAcceptance_receives hInv.warehouse hAccepts with
    hRepeated | ⟨expected, lines, m, rows, new, hStarted, _,
      hLines, hReceives, hDone⟩
  · exact absurd hRepeated.same hChanges
  · have hSame := sameLines_of_loaded hStarted.loaded hLines
    exact ⟨_, lines, m, rows, new, hStarted.found, hSame,
      hReceives, hReceives.total.trans hSame.quantities, hDone⟩

end Invariants

------------------------------------------------------------
-- A First Receipt
------------------------------------------------------------

/- The first request is accepted, delivered and received. -/
namespace FirstRequest

def stocked : Db :=
  { start with locations := [FirstReceipt.location] }

def mutationAt
    (version : Nat)
    (h : 1 ≤ version) : ExpectedStateMutation where
  expectedStateVersion := version
  expectedRevisionId := ⟨21⟩
  clientRequestId :=
    "key ".toList ++ [Char.ofNat (48 + version)]
  version_pos := h
  key_nonempty := by simp
  key_length := by simp

def envAt (event : Nat) : ProcurementEnv :=
  { env with eventId := ⟨BitVec.ofNat 128 event⟩ }

def receiving : ProcurementAcceptanceCreate :=
  ⟨mutationAt 3 (by decide), FirstReceipt.location.id⟩

theorem received :
    ∃ r₀ s₀ r₁ s₁ r₂ s₂ r₃ s₃,
      (createRequest env payload owner.id).run stocked =
        .ok (r₀, s₀) ∧
      ((ProcurementCommand.managerAccept
        (mutationAt 1 (by decide))).program (envAt 26) ⟨20⟩
          manager.id).run s₀ = .ok (r₁, s₁) ∧
      ((ProcurementCommand.transferToAcceptance
        (mutationAt 2 (by decide))).program (envAt 27) ⟨20⟩
          manager.id).run s₁ = .ok (r₂, s₂) ∧
      (completeAcceptance (envAt 28) ⟨20⟩ receiving
        owner.id).run s₂ = .ok (r₃, s₃) ∧
      s₃.procurementRequests.map ProcurementRequest.status =
        [.completed] ∧
      s₂.movements.length = 0 ∧ s₃.movements.length = 1 :=
  ⟨_, _, _, _, _, _, _, _, rfl, rfl, rfl, rfl, rfl, rfl, rfl⟩

theorem stocked_empty : WarehouseEmpty stocked :=
  ⟨rfl, rfl, rfl, rfl⟩

theorem stocked_noProcurement : NoProcurement stocked :=
  ⟨rfl, rfl, rfl, rfl, rfl⟩

end FirstRequest

/- The two pieces that were approved are received. -/
theorem acceptance_receives_what_was_approved_first :
    ∃ s s' lines m rows, SystemRun FirstRequest.stocked s ∧
      Receives s s' FirstReceipt.location.id lines m rows := by
  rcases FirstRequest.received with ⟨_, s₀, _, s₁, _, s, _, s',
    hCreate, hAccept, hTransfer, hReceive, _, hNone, hOne⟩
  have hRun : SystemRun FirstRequest.stocked s :=
    ((Relation.ReflTransGen.single (.create hCreate)).tail
      (.command _ hAccept)).tail (.command _ hTransfer)
  have hChanges : s' ≠ s := by
    rintro rfl
    rw [hNone] at hOne
    cases hOne
  rcases acceptance_receives_what_was_approved
    FirstRequest.stocked_empty FirstRequest.stocked_noProcurement
      hRun hReceive hChanges with
    ⟨_, lines, m, rows, _, _, _, hReceives, _⟩
  exact ⟨s, s', lines, m, rows, hRun, hReceives⟩

end Procurement
