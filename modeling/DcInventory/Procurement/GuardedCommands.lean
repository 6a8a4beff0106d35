import DcInventory.Procurement.GuardedStatements
import DcInventory.Procurement.Receipts

/-
  This file proves that what the triggers of procurement
  protect stays so however transactions are interleaved: those
  of the application, and any others that insert rows into the
  same tables past the same triggers.

  Key definitions include:
    * `Insertion`
    * `Direct`
    * `GuardedClient`
    * `GuardedReachable`

  Key theorems include:
    * `program_triple`
    * `guardedClient_safe`
    * `receipts_stay_protected`
    * `published_revisions_stay_sealed`
-/

namespace Procurement

open Guarding

------------------------------------------------------------
-- Commands
------------------------------------------------------------

section Commands

variable {ids : List Uuid}
variable {env : ProcurementEnv}
variable {requestId actorUserId : Uuid}

theorem loadRecord_readsOnly (request : ProcurementRequest) :
    (loadRecord request).ReadsOnly := by
  refine .bind (by simp) fun _ => ?_
  refine .bind (by simp) fun _ => ?_
  refine .bind (by simp) fun _ => ?_
  refine .bind (by simp) fun _ => ?_
  exact .bind (by simp) fun _ => by simp

theorem loadRecord_returns (request : ProcurementRequest) :
    (loadRecord request).Returns
      (fun record => record.request = request) := by
  refine .bind _ fun _ => ?_
  refine .bind _ fun _ => ?_
  refine .bind _ fun _ => ?_
  refine .bind _ fun _ => ?_
  exact .bind _ fun _ => rfl

/- A record that is loaded with a lock holds its row. -/
theorem lockedRecord_triple :
    tables.Triple (Rows ids) (getRequestRecord requestId true)
      (fun record held t => record.request.id = requestId ∧
        Rows (requestId :: ids) held t) := by
  have hSeen : ∀ found : Option ProcurementRequest,
      tables.Stable (fun held t =>
        (∀ r, found = some r → r.id = requestId ∧
          ∃ r', t.findRequest requestId = some r') ∧
        .exclusive (.requestRow requestId) ∈ held ∧
          Rows ids held t) := by
    refine fun found => Stable.and (stable_follows ?_)
      ((stable_held _).and stable_rows)
    intro t t' hFollows h r hr
    rcases h r hr with ⟨hId, r', hFind⟩
    rcases hFollows (.request requestId) r' hFind with
      ⟨r'', hFind', _⟩
    exact ⟨hId, r'', hFind'⟩
  refine Triple.bind (B := fun _ held t =>
    .exclusive (.requestRow requestId) ∈ held ∧
      Rows ids held t) (Triple.acquire stable_rows _)
        fun _ => ?_
  refine Triple.bind (Triple.query
    ((stable_held _).and stable_rows) hSeen ?_) fun found => ?_
  · exact fun held t _ h => ⟨fun r hr =>
      ⟨Table.key_of_find hr, r, hr⟩, h⟩
  refine Triple.bind (B := fun request held t =>
    request.id = requestId ∧ Rows (requestId :: ids) held t)
      ?_ fun request => ?_
  · cases found with
    | none => exact Triple.fail _
    | some r =>
        refine (Triple.pure (hSeen (some r)) r).imp
          (fun _ _ _ h => h) ?_
        rintro _ held t ⟨rfl, hFound, hHeld, hRows⟩
        rcases hFound _ rfl with ⟨hId, hThere⟩
        refine ⟨hId, fun id hMem => ?_⟩
        rcases List.mem_cons.mp hMem with rfl | hMem
        · exact ⟨hHeld, hThere⟩
        · exact hRows id hMem
  · have hStable : tables.Stable (fun held t =>
        request.id = requestId ∧
          Rows (requestId :: ids) held t) :=
      ⟨fun h hSub hSees =>
        ⟨h.1, stable_rows.later h.2 hSub hSees⟩⟩
    refine (Triple.harmless hStable
      (loadRecord_readsOnly request).writesOnly
        (loadRecord_returns request)).imp
          (fun _ _ _ h => h) ?_
    rintro record held t ⟨rfl, h⟩
    exact h

/- A command that goes on holds the row of its request. -/
theorem startCommand_triple
    (payload : ExpectedStateMutation)
    (serialized : Text)
    (eventType : ProcurementEventType)
    (capabilities : List Capability) :
    tables.Triple (Rows ids) (startCommand env requestId payload
      serialized actorUserId eventType capabilities)
      (fun expected held t =>
        expected.record.request.id = requestId ∧
          Rows (requestId :: ids) held t) := by
  have hKept : ∀ {α : Type} {p : Op α} {Q : α → Prop},
      p.ReadsOnly → p.Returns Q →
        tables.Triple (Rows (requestId :: ids)) p
          (fun a held t =>
            Q a ∧ Rows (requestId :: ids) held t) :=
    fun hReads hReturns => Triple.harmless stable_rows
      hReads.writesOnly hReturns
  refine Triple.bind (B := fun expected held t =>
    expected.record.request.id = requestId ∧
      Rows (requestId :: ids) held t) ?_ fun expected => ?_
  · refine Triple.bind lockedRecord_triple fun record => ?_
    by_cases hId : record.request.id = requestId
    swap
    · intro held own s _ _ hStart
      exact absurd hStart.1 hId
    refine (hKept (Q := fun expected : Expected =>
      expected.record.request.id = requestId) ?_ ?_).imp
        (fun _ _ _ h => h.2) fun _ _ _ h => h
    · refine .bind (by simp) fun _ => ?_
      refine .bind (by simp) fun previous => ?_
      cases previous with
      | none => exact .bind (by simp) fun _ => by simp
      | some event =>
          refine .bind (by simp) fun _ => ?_
          exact .bind (by simp) fun _ => by simp
    · refine .bind _ fun _ => .bind _ fun previous => ?_
      cases previous with
      | none => exact .bind _ fun _ => hId
      | some event => exact .bind _ fun _ => .bind _ fun _ => hId
  · by_cases hId : expected.record.request.id = requestId
    swap
    · intro held own s _ _ hStart
      exact absurd hStart.1 hId
    refine (hKept (Q := fun expected : Expected =>
      expected.record.request.id = requestId) ?_ ?_).imp
        (fun _ _ _ h => h.2) fun _ _ _ h => h
    · refine .bind ?_ fun _ => by simp
      refine .bind (by simp) fun _ => ?_
      exact .bind (by simp) fun _ => by simp
    · exact .bind _ fun _ => hId

/- What a command does after it was let through. -/
theorem command_triple
    {payload : ExpectedStateMutation}
    {serialized : Text}
    {eventType : ProcurementEventType}
    {capabilities : List Capability}
    {body : Expected → Op ProcurementRecord}
    (hBody : ∀ expected,
      expected.record.request.id = requestId →
        tables.Triple (Rows [requestId]) (body expected)
          (fun _ => Rows [requestId])) :
    tables.Triple (Rows []) (do
      let expected ← startCommand env requestId payload
        serialized actorUserId eventType capabilities
      if expected.replay.isSome then pure expected.record
      else body expected) (fun _ => Rows [requestId]) := by
  refine Triple.bind (startCommand_triple _ _ _ _)
    fun expected => ?_
  by_cases hId : expected.record.request.id = requestId
  swap
  · intro held own s _ _ hStart
    exact absurd hStart.1 hId
  refine Triple.imp (A := Rows [requestId]) ?_
    (fun _ _ _ h => h.2) fun _ _ _ h => h
  split
  · exact reads_triple (by simp)
  · exact hBody expected hId

theorem setStatus_triple
    (request : ProcurementRequest)
    (target : ProcurementStatus) :
    tables.Triple (Rows ids)
      (.ofExcept (setStatus request target))
      (fun changed held t => changed.id = request.id ∧
        Rows ids held t) := by
  refine Triple.harmless stable_rows
    (Txn.writesOnly_ofExcept _) ?_
  unfold setStatus
  split
  · exact rfl
  · trivial

/- A fact about a value that the precondition states. -/
theorem triple_of_fact
    {α : Type}
    {c : Prop}
    {p : Op α}
    (h : c → tables.Triple (Rows ids) p (fun _ => Rows ids)) :
    tables.Triple (fun held t => c ∧ Rows ids held t) p
      (fun _ => Rows ids) :=
  fun held own s hInv hPending hStart =>
    h hStart.1 held own s hInv hPending hStart.2

theorem recordCommand_triple
    (expected : Expected)
    (changed : ProcurementRequest)
    (binding : Option ProcurementLineCatalogBinding)
    (eventType : ProcurementEventType)
    (fields : Except Error EventFields)
    (hId : changed.id ∈ ids) :
    tables.Triple (Rows ids) (recordCommand env expected changed
      binding eventType actorUserId fields)
      (fun _ => Rows ids) := by
  refine Triple.bind (updateRequest_triple changed hId)
    fun _ => ?_
  refine Triple.bind (spares_triple ?_) fun _ => ?_
  · cases binding with
    | none => simp [insertBinding?]
    | some new =>
        refine .bind (by simp) fun _ => ?_
        refine .bind (by simp) fun _ => ?_
        exact (Txn.writesOnly_update _).mpr fun s =>
          ⟨rfl, rfl, rfl, rfl, rfl⟩
  refine Triple.bind (reads_triple (actorSnapshot_readsOnly _))
    fun _ => ?_
  exact Triple.bind (reads_triple (by simp)) fun _ =>
    insertEvent_triple _

theorem tell_triple
    (request : ProcurementRequest)
    (action : String)
    (lines : List ProcurementRevisionLine)
    (recipients : List Uuid) :
    tables.Triple (Rows ids)
      (tell env request action lines recipients)
      (fun _ => Rows ids) :=
  spares_triple (tell_writes
    (fun _ _ _ _ => ⟨rfl, rfl, rfl, rfl, rfl⟩) _ _ _ _)

theorem createItem_triple
    (catalog : Catalog.CatalogEnv)
    (newId : Uuid)
    (now : Time)
    (payload : Catalog.ItemCreate) :
    tables.Triple (Rows ids)
      (Catalog.createItem catalog newId now payload)
      (fun _ => Rows ids) :=
  spares_triple (createItem_writes
    (fun _ _ => ⟨rfl, rfl, rfl, rfl, rfl⟩)
    (fun _ _ => ⟨rfl, rfl, rfl, rfl, rfl⟩) _ _ _ _)

/- To end with a notification and the record. -/
theorem tellAndLoad_triple
    (lines : Except Error (List LineRecord))
    (request : ProcurementRequest)
    (action : String)
    (recipients : List Uuid) :
    tables.Triple (Rows ids) (do
      let lines ← .ofExcept lines
      tell env request action (lines.map LineRecord.line)
        recipients
      getRequestRecord requestId false) (fun _ => Rows ids) := by
  refine Triple.bind (reads_triple (by simp)) fun _ => ?_
  exact Triple.bind (tell_triple _ _ _ _) fun _ =>
    reads_triple (getRequestRecord_readsOnly _ _)

theorem changeAssignment_triple
    (payload : AssignmentMutation)
    (serialized : Text)
    (targetUserId : Uuid)
    (eventType : ProcurementEventType) :
    tables.Triple (Rows []) (changeAssignment env requestId
      payload serialized actorUserId targetUserId eventType)
      (fun _ => Rows [requestId]) := by
  refine command_triple fun expected hId => ?_
  dsimp only
  refine Triple.bind (reads_triple (by simp)) fun _ => ?_
  refine Triple.bind (reads_triple (by simp)) fun _ => ?_
  refine Triple.bind (reads_triple (validateManager_readsOnly _))
    fun _ => ?_
  refine Triple.bind (reads_triple (by simp)) fun _ => ?_
  refine Triple.bind (recordCommand_triple _ _ _ _ _
    (List.mem_singleton.mpr hId)) fun _ => ?_
  exact tellAndLoad_triple _ _ _ _

/- Whatever a command writes, its triggers allow. -/
theorem program_triple (command : ProcurementCommand) :
    tables.Triple (Rows [])
      (command.program env requestId actorUserId)
      (fun _ => Rows [requestId]) := by
  cases command with
  | takeOwnership payload =>
      exact changeAssignment_triple _ _ _ _
  | transferManager payload =>
      exact changeAssignment_triple _ _ _ _
  | managerAccept payload =>
      refine command_triple fun expected hId => ?_
      dsimp only
      refine Triple.bind (setStatus_triple _ _)
        fun changed => triple_of_fact fun hChanged => ?_
      exact Triple.bind (recordCommand_triple _ _ _ _ _
        (List.mem_singleton.mpr (hChanged.trans hId)))
          fun _ => reads_triple (getRequestRecord_readsOnly _ _)
  | returnForCorrection payload =>
      refine command_triple fun expected hId => ?_
      dsimp only
      refine Triple.bind (reads_triple (by simp)) fun _ => ?_
      refine Triple.bind (reads_triple ?_) fun proposal => ?_
      · unfold prepareProposal
        split
        · simp
        · exact prepareLines_readsOnly _ _
      refine Triple.bind (setStatus_triple _ _)
        fun changed => triple_of_fact fun hChanged => ?_
      refine Triple.bind (recordCommand_triple _ _ _ _ _
        (List.mem_singleton.mpr (hChanged.trans hId)))
          fun _ => ?_
      exact tellAndLoad_triple _ _ _ _
  | transferToAcceptance payload =>
      refine command_triple fun expected hId => ?_
      dsimp only
      refine Triple.bind (setStatus_triple _ _)
        fun changed => triple_of_fact fun hChanged => ?_
      refine Triple.bind (recordCommand_triple _ _ _ _ _
        (List.mem_singleton.mpr (hChanged.trans hId)))
          fun _ => ?_
      refine Triple.bind (reads_triple (by simp)) fun _ => ?_
      exact tellAndLoad_triple _ _ _ _
  | submitRevision payload =>
      refine command_triple fun expected hId => ?_
      dsimp only
      refine Triple.bind (reads_triple (by simp)) fun _ => ?_
      refine Triple.bind (reads_triple (by simp)) fun _ => ?_
      refine Triple.bind (reads_triple
        (prepareLines_readsOnly _ _)) fun _ => ?_
      refine Triple.bind (reads_triple (by simp)) fun _ => ?_
      refine Triple.bind (reads_triple
        (actorSnapshot_readsOnly _)) fun _ => ?_
      refine Triple.bind (insertRevision_triple _) fun _ => ?_
      refine Triple.bind (insertLines_triple _) fun _ => ?_
      refine Triple.bind (setStatus_triple _ _)
        fun changed => triple_of_fact fun hChanged => ?_
      refine Triple.bind (updateRequest_triple _
        (List.mem_singleton.mpr (hChanged.trans hId)))
          fun _ => ?_
      refine Triple.bind (insertEvent_triple _) fun _ => ?_
      refine Triple.bind (tell_triple _ _ _ _) fun _ => ?_
      refine Triple.bind (reads_triple
        (getRequestRecord_readsOnly _ _)) fun _ => ?_
      exact Triple.bind (reads_triple
        (checkCurrentRevision_readsOnly _))
          fun _ => reads_triple (by simp)
  | bindLine payload =>
      refine command_triple fun expected hId => ?_
      refine Triple.bind (reads_triple (by simp)) fun _ => ?_
      refine Triple.bind (reads_triple (by simp)) fun _ => ?_
      refine Triple.bind (reads_triple (by simp)) fun _ => ?_
      refine Triple.bind (reads_triple (by simp)) fun _ => ?_
      refine Triple.bind (reads_triple (by simp)) fun _ => ?_
      refine Triple.bind (reads_triple (by simp)) fun _ => ?_
      refine Triple.bind (reads_triple (by simp)) fun _ => ?_
      refine Triple.bind (reads_triple (by simp)) fun _ => ?_
      exact Triple.bind (recordCommand_triple _ _ _ _ _
        (List.mem_singleton.mpr hId))
          fun _ => reads_triple (getRequestRecord_readsOnly _ _)
  | createAndBindLine payload =>
      refine command_triple fun expected hId => ?_
      refine Triple.bind (reads_triple (by simp)) fun _ => ?_
      refine Triple.bind (reads_triple (by simp)) fun _ => ?_
      refine Triple.bind (reads_triple (by simp)) fun _ => ?_
      refine Triple.bind (reads_triple (by simp)) fun _ => ?_
      refine Triple.bind (createItem_triple _ _ _ _)
        fun _ => ?_
      exact Triple.bind (recordCommand_triple _ _ _ _ _
        (List.mem_singleton.mpr hId))
          fun _ => reads_triple (getRequestRecord_readsOnly _ _)
  | reportDiscrepancy payload =>
      refine command_triple fun expected hId => ?_
      dsimp only
      refine Triple.bind (reads_triple (by simp)) fun _ => ?_
      refine Triple.bind (recordCommand_triple _ _ _ _ _
        (List.mem_singleton.mpr hId)) fun _ => ?_
      exact tellAndLoad_triple _ _ _ _
  | completeAcceptance payload =>
      refine command_triple fun expected hId => ?_
      dsimp only
      refine Triple.bind (reads_triple (by simp)) fun _ => ?_
      refine Triple.bind (reads_triple (by simp)) fun _ => ?_
      refine Triple.bind (reads_triple
        (acceptedQuantities_readsOnly _)) fun _ => ?_
      refine Triple.bind (reads_triple
        (actorSnapshot_readsOnly _)) fun _ => ?_
      refine Triple.bind (reads_triple (by simp))
        fun call => ?_
      refine Triple.bind (createMovement_triple _ call)
        fun movement => ?_
      refine Triple.bind (reads_triple (by simp)) fun _ => ?_
      refine Triple.bind (setStatus_triple _ _)
        fun changed => triple_of_fact fun hChanged => ?_
      refine Triple.bind (recordCommand_triple _ _ _ _ _
        (List.mem_singleton.mpr (hChanged.trans hId)))
          fun _ => ?_
      refine Triple.bind (tell_triple _ _ _ _) fun _ => ?_
      refine Triple.bind (reads_triple
        (getRequestRecord_readsOnly _ _)) fun _ => ?_
      exact Triple.bind (reads_triple
        (checkLineCount_readsOnly movement))
          fun _ => reads_triple (by simp)

theorem createRequest_triple
    (payload : ProcurementRequestCreate) :
    tables.Triple (Rows []) (createRequest env payload
      actorUserId) (fun _ => Rows []) := by
  refine Triple.bind (reads_triple ?_) fun _ => ?_
  · refine .bind (by simp) fun _ => ?_
    exact .bind (by simp) fun _ => by simp
  refine Triple.bind (reads_triple (by simp)) fun _ => ?_
  dsimp only
  refine Triple.bind (reads_triple (by simp)) fun _ => ?_
  refine Triple.bind (reads_triple (by simp)) fun existing => ?_
  cases existing with
  | some request =>
      exact Triple.bind (reads_triple (by simp)) fun _ =>
        reads_triple (getRequestRecord_readsOnly _ _)
  | none =>
      refine Triple.bind (reads_triple
        (validateManager_readsOnly _)) fun _ => ?_
      refine Triple.bind (reads_triple
        (prepareLines_readsOnly _ _)) fun _ => ?_
      refine Triple.bind (reads_triple
        (actorSnapshot_readsOnly _)) fun _ => ?_
      refine Triple.bind (insertRequest_triple _) fun _ => ?_
      refine Triple.bind (insertRevision_triple _) fun _ => ?_
      refine Triple.bind (insertLines_triple _) fun _ => ?_
      refine Triple.bind (insertEvent_triple _) fun _ => ?_
      refine Triple.bind (tell_triple _ _ _ _) fun _ => ?_
      refine Triple.bind (reads_triple
        (getRequestRecord_readsOnly _ _)) fun _ => ?_
      exact Triple.bind (reads_triple
        (checkCurrentRevision_readsOnly _))
          fun _ => reads_triple (by simp)

end Commands

------------------------------------------------------------
-- Direct Statements
------------------------------------------------------------

/-
  A statement that writes to a table that is watched, past
  its triggers; an UPDATE waits for the row and reads it.
-/
inductive Insertion where
| movement (new : Movement)
| request (new : ProcurementRequest)
| update
    (requestId : Uuid)
    (change : ProcurementRequest → ProcurementRequest)
| revision (new : ProcurementRevision)
| line (new : ProcurementRevisionLine)
| event (new : ProcurementEvent)

def Insertion.program : Insertion → Op Unit
| movement new => insertMovement new
| request new => insertRequest new
| update requestId change => do
    .acquire (.exclusive (.requestRow requestId))
    let found ← .query (fun db => db.findRequest requestId)
    match found with
    | none => pure ()
    | some old =>
        updateRequest { change old with id := requestId }
| revision new => insertRevision new
| line new => insertLine new
| event new => insertEvent new

theorem insertion_triple
    {ids : List Uuid}
    (insertion : Insertion) :
    tables.Triple (Rows ids) insertion.program
      (fun _ => Rows ids) := by
  cases insertion with
  | movement new => exact insertMovement_triple new
  | request new => exact insertRequest_triple new
  | revision new => exact insertRevision_triple new
  | line new => exact insertLine_triple new
  | event new => exact insertEvent_triple new
  | update requestId change =>
      have hSeen : ∀ found : Option ProcurementRequest,
          tables.Stable (fun held t =>
            (found.isSome = true →
              ∃ r, t.findRequest requestId = some r) ∧
            .exclusive (.requestRow requestId) ∈ held ∧
              Rows ids held t) := by
        refine fun found => Stable.and (stable_follows ?_)
          ((stable_held _).and stable_rows)
        intro t t' hFollows h hSome
        rcases h hSome with ⟨r, hFind⟩
        rcases hFollows (.request requestId) r hFind with
          ⟨r', hFind', _⟩
        exact ⟨r', hFind'⟩
      refine Triple.bind (Triple.acquire stable_rows _)
        fun _ => ?_
      refine Triple.bind (Triple.query
        ((stable_held _).and stable_rows) hSeen ?_)
          fun found => ?_
      · exact fun held t _ h =>
          ⟨fun hSome => Option.isSome_iff_exists.mp hSome, h⟩
      cases found with
      | none =>
          exact (reads_triple (by simp)).imp
            (fun _ _ _ h => h.2.2) fun _ _ _ h => h
      | some old =>
          have hLocked : requestId ∈ requestId :: ids :=
            List.mem_cons_self
          refine (updateRequest_triple _ hLocked).imp ?_ ?_
          · rintro held t _ ⟨hFound, hHeld, hRows⟩ id hMem
            rcases List.mem_cons.mp hMem with rfl | hMem
            · exact ⟨hHeld, hFound rfl⟩
            · exact hRows id hMem
          · exact fun _ _ _ h id hMem =>
              h id (List.mem_cons_of_mem _ hMem)

/-
  A transaction of statements, each of which may depend on
  what the earlier ones returned: insertions, and any others
  that leave the watched tables alone.
-/
inductive Direct : Op Unit → Prop where
| done : Direct (pure ())
| insertion (i : Insertion) {rest : Op Unit} :
    Direct rest →
    Direct (i.program >>= fun _ => rest)
| other {α : Type} {p : Op α} {rest : α → Op Unit} :
    p.WritesOnly (fun change => ∀ s,
      SameTables s (change s)) →
    (∀ a, Direct (rest a)) →
    Direct (p >>= rest)

theorem direct_triple
    {p : Op Unit}
    (h : Direct p) :
    tables.Triple (Rows []) p (fun _ => Rows []) := by
  induction h with
  | done => exact reads_triple (by simp)
  | insertion i _ ih =>
      exact Triple.bind (insertion_triple i) fun _ => ih
  | other hWrites _ ih =>
      exact Triple.bind (spares_triple hWrites) ih

------------------------------------------------------------
-- Runs
------------------------------------------------------------

/- The transactions of the application, and direct ones. -/
inductive GuardedClient : Op Unit → Prop where
| movement (env : MovementEnv) (request : MovementRequest) :
    GuardedClient (request.program env >>= fun _ => pure ())
| creation
    (env : ProcurementEnv)
    (payload : ProcurementRequestCreate)
    (actorUserId : Uuid) :
    GuardedClient (createRequest env payload actorUserId >>=
      fun _ => pure ())
| command
    (env : ProcurementEnv)
    (requestId actorUserId : Uuid)
    (command : ProcurementCommand) :
    GuardedClient (command.program env requestId actorUserId >>=
      fun _ => pure ())
| direct {p : Op Unit} :
    Direct p →
    GuardedClient p

theorem guardedClient_safe
    {p : Op Unit}
    (h : GuardedClient p) :
    tables.discipline.Safe (fun _ _ => True)
      (fun _ _ _ => True) p := by
  have hEnds : ∀ {α : Type} {p : Op α} {ids : List Uuid},
      tables.Triple (Rows []) p (fun _ => Rows ids) →
        tables.Triple (Rows []) (p >>= fun _ => pure ())
          (fun _ => Rows ids) :=
    fun h => Triple.bind h fun _ => reads_triple (by simp)
  have hTriple : ∃ ids, tables.Triple (Rows []) p
      (fun _ => Rows ids) := by
    cases h with
    | movement env request =>
        exact ⟨_, hEnds (movementRequest_triple env request)⟩
    | creation env payload actorUserId =>
        exact ⟨_, hEnds (createRequest_triple payload)⟩
    | command env requestId actorUserId command =>
        exact ⟨_, hEnds (program_triple command)⟩
    | direct h => exact ⟨_, direct_triple h⟩
  rcases hTriple with ⟨ids, hTriple⟩
  exact Triple.safe (hTriple.imp
    (fun _ _ _ _ id hId => absurd hId List.not_mem_nil)
      fun _ _ _ h => h)

section Runs

variable {τ : Type}
variable [DecidableEq τ]

abbrev GuardedSystem (τ : Type) :=
  System τ Db Lock Error Unit

/- A state that some run of these transactions leads to. -/
def GuardedReachable (S : GuardedSystem τ) : Prop :=
  System.Reachable Lock.modes GuardedClient
    (fun _ _ => True) TablesValid S

abbrev GuardedSteps (S S' : GuardedSystem τ) : Prop :=
  System.Steps Lock.modes GuardedClient (fun _ _ => True) S S'

variable {S : GuardedSystem τ}

theorem guarded_systemInv (hReach : GuardedReachable S) :
    tables.discipline.SystemInv (fun _ _ => True)
      (fun _ _ _ => True) S :=
  Discipline.systemInv_of_reachable
    (fun _ h => guardedClient_safe h) (fun _ h => h) hReach

theorem guarded_follows
    (hReach : GuardedReachable S)
    {S' : GuardedSystem τ}
    (hSteps : GuardedSteps S S') :
    tables.Follows S.committed S'.committed :=
  ((guarded_systemInv hReach).reach_of_steps
    (fun _ h => guardedClient_safe h) hSteps).always

/-
  A completed request has a receipt of its own for ever, and
  nothing corrects or reverses it.
-/
theorem receipts_stay_protected
    (hReach : GuardedReachable S) :
    (∀ r ∈ S.committed.procurementRequests,
      (r.status = .completed ↔
        r.finalMovementId.isSome = true) ∧
      ∀ o, r.finalMovementId = some o →
        (∀ m ∈ S.committed.movements,
          isLinked m.movementType = true →
            m.originalMovementId ≠ some o) ∧
        ∀ r' ∈ S.committed.procurementRequests,
          r'.finalMovementId = some o → r' = r) ∧
    ∀ S', GuardedSteps S S' →
      ∀ r ∈ S.committed.procurementRequests,
        r.status = .completed →
        ∃ r' ∈ S'.committed.procurementRequests,
          r'.id = r.id ∧ r'.status = .completed ∧
            r'.finalMovementId = r.finalMovementId ∧
              r'.completedAt = r.completedAt := by
  have hValid : TablesValid S.committed :=
    (guarded_systemInv hReach).inv
  refine ⟨fun r hr => ⟨?_, fun o ho => ⟨?_, ?_⟩⟩, ?_⟩
  · have hState := hValid.state r hr
    unfold completionState at hState
    split at hState
    · rename_i hCompleted
      exact iff_of_true hCompleted (of_decide_eq_true hState).1
    · rename_i hOpen
      refine iff_of_false hOpen ?_
      have hNone := (of_decide_eq_true hState).1
      rw [Option.isNone_iff_eq_none.mp hNone]
      exact Bool.false_ne_true
  · exact fun m hm hLinked hOriginal => hValid.unadjusted o
      ⟨r, hr, ho⟩ ⟨m, hm, hLinked, hOriginal⟩
  · exact fun r' hr' ho' => hValid.single r' hr' r hr o ho' ho
  · intro S' hSteps r hr hCompleted
    have hFind := Table.find_of_mem hValid.ids hr
    rcases guarded_follows hReach hSteps (.request r.id) r
      hFind with ⟨r', hFind', hBinds⟩
    exact ⟨r', Table.mem_of_find hFind',
      Table.key_of_find hFind', hBinds hCompleted⟩

/-
  A published revision has as many lines as it says, and
  neither it nor they change any more.
-/
theorem published_revisions_stay_sealed
    (hReach : GuardedReachable S)
    {revisionId : Uuid}
    (hPublished : Published revisionId S.committed) :
    ∃ revision,
      findRevision revisionId S.committed = some revision ∧
      (linesOfRevision revisionId S.committed).length =
        revision.lineCount ∧
      ∀ S', GuardedSteps S S' →
        findRevision revisionId S'.committed = some revision ∧
          linesOfRevision revisionId S'.committed =
            linesOfRevision revisionId S.committed := by
  have hValid : TablesValid S.committed :=
    (guarded_systemInv hReach).inv
  rcases hValid.counted revisionId hPublished with
    ⟨revision, hFind, hCount⟩
  refine ⟨revision, hFind, hCount, fun S' hSteps => ?_⟩
  have hFollows := guarded_follows hReach hSteps
  exact ⟨hFollows (.header revisionId) revision hFind,
    (hFollows (.lines revisionId) hPublished).2⟩

/- What commits alone commits in a quiet system. -/
theorem guarded_of_run
    {α : Type}
    {p : Op α}
    (t : τ)
    (hClient : GuardedClient (p >>= fun _ => pure ()))
    {s s' : Db}
    {a : α}
    (hReach : GuardedReachable
      (System.initial s : GuardedSystem τ))
    (hRun : p.run s = .ok (a, s')) :
    GuardedReachable (System.initial s' : GuardedSystem τ) := by
  have hEnds : (p >>= fun _ => (pure () : Op Unit)).run
      (System.initial s : GuardedSystem τ).committed =
        .ok ((), s') :=
    Txn.run_bind_eq_ok_iff.mpr ⟨a, s', hRun, rfl⟩
  have hExec : ∃ S₁ : GuardedSystem τ,
      S₁.committed = s ∧ System.Executes Lock.modes
        GuardedClient (fun _ _ => True) t
          (p >>= fun _ => (pure () : Op Unit)) (.ok ())
            (System.initial s) S₁ (System.initial s') :=
    System.executes_of_run (fun _ => rfl) t hClient hEnds
      trivial
  rcases hExec with ⟨S₁, _, hExec⟩
  rcases hReach with ⟨s₀, hStart, hSteps⟩
  exact ⟨s₀, hStart, hSteps.trans hExec.steps⟩

end Runs

------------------------------------------------------------
-- A First Request
------------------------------------------------------------

namespace FirstRequest

theorem stocked_valid : TablesValid stocked where
  ids := List.nodup_nil
  state _ h := absurd h List.not_mem_nil
  single _ h := absurd h List.not_mem_nil
  unadjusted _ h := by
    rcases h with ⟨_, h, _⟩
    exact absurd h List.not_mem_nil
  counted _ h := by
    rcases h with ⟨_, h, _⟩
    exact absurd h List.not_mem_nil

/- The states after the creation and after the acceptance. -/
theorem guarded :
    ∃ s₀ s₃ : Db,
      GuardedReachable
        (System.initial s₀ : GuardedSystem Unit) ∧
      GuardedReachable
        (System.initial s₃ : GuardedSystem Unit) ∧
      Published ⟨21⟩ s₀ ∧
      s₃.procurementRequests.map ProcurementRequest.status =
        [.completed] := by
  have hRun : ∃ r₀ s₀ r₁ s₁ r₂ s₂ r₃ s₃,
      (createRequest env payload owner.id).run stocked =
        .ok (r₀, s₀) ∧
      ((ProcurementCommand.managerAccept
        (mutationAt 1 (by decide))).program (envAt 26) ⟨20⟩
          manager.id).run s₀ = .ok (r₁, s₁) ∧
      ((ProcurementCommand.transferToAcceptance
        (mutationAt 2 (by decide))).program (envAt 27) ⟨20⟩
          manager.id).run s₁ = .ok (r₂, s₂) ∧
      ((ProcurementCommand.completeAcceptance receiving).program
        (envAt 28) ⟨20⟩ owner.id).run s₂ = .ok (r₃, s₃) ∧
      s₃.procurementRequests.map ProcurementRequest.status =
        [.completed] ∧
      s₀.procurementEvents.map (fun e =>
        (e.eventType, e.revisionId)) =
          [(.requestCreated, some ⟨21⟩)] :=
    ⟨_, _, _, _, _, _, _, _, rfl, rfl, rfl, rfl, rfl, rfl⟩
  rcases hRun with ⟨r₀, s₀, r₁, s₁, r₂, s₂, r₃, s₃, hCreate,
    hAccept, hTransfer, hComplete, hStatus, hEvents⟩
  have h₀ : GuardedReachable
      (System.initial stocked : GuardedSystem Unit) :=
    ⟨stocked, stocked_valid, .refl⟩
  have h₁ := guarded_of_run () (.creation _ _ _) h₀ hCreate
  have h₂ := guarded_of_run () (.command _ _ _ _) h₁ hAccept
  have h₃ := guarded_of_run () (.command _ _ _ _) h₂ hTransfer
  have h₄ := guarded_of_run () (.command _ _ _ _) h₃ hComplete
  refine ⟨s₀, s₃, h₁, h₄, ?_, hStatus⟩
  have hMem : (ProcurementEventType.requestCreated,
      some (⟨21⟩ : Uuid)) ∈ s₀.procurementEvents.map (fun e =>
        (e.eventType, e.revisionId)) := by
    rw [hEvents]
    exact List.mem_singleton_self _
  rcases List.mem_map.mp hMem with ⟨e, he, hEq⟩
  have hType : e.eventType = .requestCreated :=
    congrArg Prod.fst hEq
  refine ⟨e, he, congrArg Prod.snd hEq, ?_⟩
  rw [hType]
  rfl

theorem receipts_stay_protected_first :
    ∃ S : GuardedSystem Unit, GuardedReachable S ∧
      ∃ r ∈ S.committed.procurementRequests,
        r.status = .completed ∧
          r.finalMovementId.isSome = true := by
  rcases guarded with ⟨_, s₃, _, hReach, _, hStatus⟩
  have hMem : ProcurementStatus.completed ∈
      s₃.procurementRequests.map ProcurementRequest.status := by
    rw [hStatus]
    exact List.mem_singleton_self _
  rcases List.mem_map.mp hMem with ⟨r, hr, hCompleted⟩
  exact ⟨_, hReach, r, hr, hCompleted,
    ((receipts_stay_protected hReach).1 r hr).1.mp hCompleted⟩

theorem published_revisions_stay_sealed_first :
    ∃ S : GuardedSystem Unit, GuardedReachable S ∧
      ∃ revision,
        findRevision ⟨21⟩ S.committed = some revision ∧
        (linesOfRevision ⟨21⟩ S.committed).length =
          revision.lineCount := by
  rcases guarded with ⟨_, _, hReach, _, hPublished, _⟩
  rcases published_revisions_stay_sealed hReach hPublished with
    ⟨revision, hFind, hCount, _⟩
  exact ⟨_, hReach, revision, hFind, hCount⟩

end FirstRequest

end Procurement
