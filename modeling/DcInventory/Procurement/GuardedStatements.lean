import DcInventory.Inventory.Frame
import DcInventory.Procurement.GuardedTables

/-
  This file proves that each statement writes to the tables
  that are watched only what it may: what its trigger has
  checked under a lock stays so until the commit.

  Key definitions include:
    * `Rows`
    * `MayAdjust`
    * `MayReceive`
    * `MayPublish`

  Key theorems include:
    * `insertMovement_triple`
    * `insertRequest_triple`
    * `updateRequest_triple`
    * `insertLine_triple`
    * `insertEvent_triple`
-/

namespace Procurement

open Guarding

------------------------------------------------------------
-- Rows That Are Held
------------------------------------------------------------

/- These requests are there, and their rows are locked. -/
def Rows (ids : List Uuid) : Assertion Db Lock :=
  fun held t => ∀ id ∈ ids,
    .exclusive (.requestRow id) ∈ held ∧
      ∃ r, t.findRequest id = some r

section Statements

variable {ids : List Uuid}
variable {held held' : List Lock}
variable {t t' : Db}
variable {A : Assertion Db Lock}
variable {α : Type}

theorem Rows.later
    (h : Rows ids held t)
    (hSub : ∀ k ∈ held, k ∈ held')
    (hFollows : tables.Follows t t') :
    Rows ids held' t' := by
  intro id hId
  rcases h id hId with ⟨hHeld, r, hFind⟩
  rcases hFollows (.request id) r hFind with ⟨r', hFind', _⟩
  exact ⟨hSub _ hHeld, r', hFind'⟩

theorem stable_rows : tables.Stable (Rows ids) :=
  ⟨fun h hSub hSees => h.later hSub hSees.follows⟩

/- A row that is locked is guarded by its lock. -/
theorem Rows.locked
    (h : Rows ids held t)
    {id : Uuid}
    (hId : id ∈ ids) :
    .request id ∈ tables.locked held t := by
  rcases h id hId with ⟨hHeld, r, hFind⟩
  change Place.guard (.request id) (t.findRequest id) ∈ held
  rw [hFind]
  exact hHeld

/- A write that knows what it has to know keeps the rows. -/
theorem write_triple
    {f : Db → Db}
    (hA : ∀ held t, A held t → Rows ids held t)
    (hChanges : ∀ held t, TablesValid t → A held t →
      ∃ T, tables.Changes T f t ∧
        ∀ i ∈ T, i ∈ tables.locked held t) :
    tables.Triple A (.update f : Op Unit)
      (fun _ => Rows ids) := by
  refine Triple.write stable_rows hChanges ?_
  intro held t hInv hStart
  rcases hChanges held t hInv hStart with ⟨T, hChange, _⟩
  exact (hA held t hStart).later (fun _ hk => hk)
    (hChange.follows hInv)

/- A part of a program that only reads. -/
theorem reads_triple
    {p : Op α}
    (h : p.ReadsOnly) :
    tables.Triple (Rows ids) p (fun _ => Rows ids) :=
  Triple.kept stable_rows h.writesOnly

theorem spares_triple
    {p : Op α}
    (h : p.WritesOnly (fun change => ∀ s,
      SameTables s (change s))) :
    tables.Triple (Rows ids) p (fun _ => Rows ids) :=
  Triple.kept stable_rows
    (h.mono fun _ => harmless_of_sameTables)

------------------------------------------------------------
-- Movements
------------------------------------------------------------

/- The movement adjusts no receipt, and none can become one. -/
def MayAdjust (new : Movement) : Assertion Db Lock :=
  fun held t => ∀ o, adjusts new = some o →
    .receipt o ∈ tables.locked held t ∧ ¬ IsReceipt t o

theorem stable_mayAdjust
    (new : Movement) :
    tables.Stable (MayAdjust new) := by
  refine Stable.all fun o => Stable.imp fun _ => ?_
  exact stable_look (G := tables) (.receipt o)
    (fun seen : Prop × Prop => ¬ seen.1)

theorem protectReceipt_triple
    (new : Movement) :
    tables.Triple (Rows ids)
      (protectProcurementReceiptMovement new)
      (fun _ held t => MayAdjust new held t ∧
        Rows ids held t) := by
  have hNone : adjusts new = none →
      tables.Triple (Rows ids) (pure () : Op Unit)
        (fun _ held t => MayAdjust new held t ∧
          Rows ids held t) := by
    intro hAdjusts
    refine (reads_triple (by simp)).imp (fun _ _ _ h => h)
      fun _ held t h => ⟨fun o ho => ?_, h⟩
    cases hAdjusts.symm.trans ho
  unfold protectProcurementReceiptMovement
  cases hOriginal : new.originalMovementId with
  | none =>
      refine hNone ?_
      unfold adjusts
      rw [hOriginal, ite_self]
  | some o =>
      change tables.Triple (Rows ids) (if _ then _ else _) _
      split
      · rename_i hLinked
        have hAdjusts : adjusts new = some o :=
          adjusts_iff.mpr ⟨hLinked, hOriginal⟩
        have hSeen : ∀ receipt : Option ProcurementRequest,
            tables.Stable (fun held t =>
              (.receipt o ∈ tables.locked held t ∧
                (receipt.isNone = true →
                  ¬ IsReceipt t o)) ∧
              Rows ids held t) := fun receipt =>
          (stable_look (G := tables) (.receipt o)
            (fun seen : Prop × Prop =>
              receipt.isNone = true → ¬ seen.1)).and
                stable_rows
        refine Triple.bind (Triple.acquire stable_rows _)
          fun _ => ?_
        refine Triple.bind (Triple.query
          ((stable_held _).and stable_rows) hSeen ?_)
          fun receipt => ?_
        · rintro held t _ ⟨hHeld, hRows⟩
          refine ⟨⟨hHeld, ?_⟩, hRows⟩
          rintro hFind ⟨r, hr, hFinal⟩
          exact List.find?_eq_none.mp
            (Option.isNone_iff_eq_none.mp hFind) r hr
              (decide_eq_true hFinal)
        · refine (Triple.require (hSeen receipt)).imp
            (fun _ _ _ h => h) ?_
          rintro _ held t ⟨hFree, ⟨hLocked, hNot⟩, hRows⟩
          refine ⟨fun o' ho' => ?_, hRows⟩
          cases hAdjusts.symm.trans ho'
          exact ⟨hLocked, hNot hFree⟩
      · rename_i hLinked
        refine hNone ?_
        unfold adjusts
        exact if_neg hLinked

theorem uniqueMovement_readsOnly (new : Movement) :
    (uniqueMovement new).ReadsOnly := by
  refine .bind (by simp) fun _ => ?_
  refine .bind (by simp) fun _ => ?_
  refine .bind (by simp) fun _ => ?_
  refine .bind (by simp) fun _ => ?_
  refine .bind (by simp) fun _ => ?_
  refine .bind (by simp) fun _ => ?_
  split
  · refine .bind (by simp) fun _ => ?_
    exact .bind (by simp) fun _ => by simp
  · trivial

/- A movement is inserted past its trigger. -/
theorem insertMovement_triple
    (new : Movement) :
    tables.Triple (Rows ids) (insertMovement new)
      (fun _ => Rows ids) := by
  have hStable : tables.Stable (fun held t =>
      MayAdjust new held t ∧ Rows ids held t) :=
    (stable_mayAdjust new).and stable_rows
  have hReads : ∀ {β : Type} {p : Op β}, p.ReadsOnly →
      tables.Triple (fun held t => MayAdjust new held t ∧
        Rows ids held t) p (fun _ held t =>
          MayAdjust new held t ∧ Rows ids held t) :=
    fun h => Triple.kept hStable h.writesOnly
  refine Triple.bind (protectReceipt_triple new) fun _ => ?_
  refine Triple.bind (hReads (by simp)) fun _ => ?_
  refine Triple.bind (hReads (enforce_readsOnly _)) fun _ => ?_
  refine Triple.bind (hReads (by simp)) fun _ => ?_
  refine Triple.bind (hReads (by simp)) fun _ => ?_
  refine Triple.bind (hReads (enforce_readsOnly _)) fun _ => ?_
  refine Triple.bind (hReads (enforce_readsOnly _)) fun _ => ?_
  refine Triple.bind (hReads (uniqueMovement_readsOnly new))
    fun _ => ?_
  refine write_triple (f := newMovement new)
    (fun _ _ h => h.2) ?_
  rintro held t _ ⟨hMay, _⟩
  refine ⟨movementPlaces new, newMovement_changes
    (fun o ho => (hMay o ho).2), ?_⟩
  rintro i ⟨o, ho, rfl⟩
  exact (hMay o ho).1

theorem createMovementUnchecked_triple
    (env : MovementEnv)
    (call : MovementCall) :
    tables.Triple (Rows ids) (createMovementUnchecked env call)
      (fun _ => Rows ids) := by
  refine Triple.bind (reads_triple (by simp)) fun _ => ?_
  refine Triple.bind (reads_triple (by simp)) fun requestId => ?_
  refine Triple.bind (reads_triple (by simp)) fun _ => ?_
  refine Triple.bind (reads_triple
    (existingIdempotentResult_readsOnly _ _ _))
      fun existing => ?_
  cases existing with
  | some result => exact reads_triple (by simp)
  | none =>
      refine Triple.bind (reads_triple
        (prepareMovement_readsOnly env call)) fun _ => ?_
      refine Triple.bind ?_ fun _ => reads_triple (by simp)
      refine Triple.bind (reads_triple (by simp)) fun _ => ?_
      refine Triple.bind (insertMovement_triple _) fun _ => ?_
      refine Triple.bind (reads_triple (by simp)) fun _ => ?_
      refine Triple.bind (spares_triple
        (insertMovementLines_writes _ _
          fun _ _ => ⟨rfl, rfl, rfl, rfl, rfl⟩)) fun _ => ?_
      refine Triple.bind (spares_triple
        (refreshLines_writes _ _
          (fun _ _ _ _ => ⟨rfl, rfl, rfl, rfl, rfl⟩)
          (fun _ _ _ _ => ⟨rfl, rfl, rfl, rfl, rfl⟩)))
        fun _ => reads_triple (by simp)

theorem createMovement_triple
    (env : MovementEnv)
    (call : MovementCall) :
    tables.Triple (Rows ids) (createMovement env call)
      (fun _ => Rows ids) := by
  unfold createMovement
  split
  · exact reads_triple (by simp)
  · exact createMovementUnchecked_triple env call

/- A request of a client for a movement. -/
theorem movementRequest_triple
    (env : MovementEnv)
    (request : MovementRequest) :
    tables.Triple (Rows ids) (request.program env)
      (fun _ => Rows ids) := by
  have hTransaction : ∀ {p : Op MovementResult},
      tables.Triple (Rows ids) p (fun _ => Rows ids) →
        tables.Triple (Rows ids) (transaction p)
          (fun _ => Rows ids) :=
    fun h => Triple.bind h fun result => Triple.bind
      (reads_triple (checkLineCount_readsOnly result))
        fun _ => reads_triple (by simp)
  cases request with
  | create call =>
      exact hTransaction (createMovement_triple env call)
  | reverse o payload actor name =>
      refine hTransaction ?_
      refine Triple.bind (reads_triple
        (getMovementRecord_readsOnly o)) fun _ => ?_
      exact Triple.bind (reads_triple (by simp)) fun _ =>
        createMovementUnchecked_triple env _

------------------------------------------------------------
-- Requests
------------------------------------------------------------

/-
  The final movement of the request, where it is new, is not
  adjusted, and cannot be from now on.
-/
def MayReceive
    (old : Option ProcurementRequest)
    (new : ProcurementRequest) : Assertion Db Lock :=
  fun held t => ∀ o, new.finalMovementId = some o →
    old.bind ProcurementRequest.finalMovementId ≠ some o →
      .receipt o ∈ tables.locked held t ∧ ¬ Adjusted t o

theorem stable_mayReceive
    (old : Option ProcurementRequest)
    (new : ProcurementRequest) :
    tables.Stable (MayReceive old new) := by
  refine Stable.all fun o => Stable.imp fun _ =>
    Stable.imp fun _ => ?_
  exact stable_look (G := tables) (.receipt o)
    (fun seen : Prop × Prop => ¬ seen.2)

/- What the trigger has checked of both states. -/
def KeepsBinding
    (old : Option ProcurementRequest)
    (new : ProcurementRequest) : Prop :=
  ∀ o ∈ old, o.status = .completed →
    new.status = o.status ∧
      new.finalMovementId = o.finalMovementId ∧
        new.completedAt = o.completedAt

theorem protectBinding_triple
    (hA : tables.Stable A)
    (old : Option ProcurementRequest)
    (new : ProcurementRequest) :
    tables.Triple A (protectFinalMovementBinding old new)
      (fun _ held t => KeepsBinding old new ∧
        MayReceive old new held t ∧ A held t) := by
  refine Triple.bind (Triple.require hA) fun _ => ?_
  have hStable : tables.Stable (fun held t =>
      KeepsBinding old new ∧ A held t) :=
    ⟨fun h hSub hSees => ⟨h.1, hA.later h.2 hSub hSees⟩⟩
  have hDone : ∀ {p : Op Unit}, p.ReadsOnly →
      (∀ held t, MayReceive old new held t) →
      tables.Triple (fun held t => KeepsBinding old new ∧
        A held t) p (fun _ held t => KeepsBinding old new ∧
          MayReceive old new held t ∧ A held t) :=
    fun h hMay => (Triple.kept hStable h.writesOnly).imp
      (fun _ _ _ h => h)
      fun _ held t h => ⟨h.1, hMay held t, h.2⟩
  split
  · rename_i hFinal
    refine hDone (by simp) fun held t o ho => ?_
    cases hFinal.symm.trans ho
  · rename_i movementId hFinal
    split
    · rename_i hBound
      refine hDone (by simp) fun held t o ho hNe => ?_
      cases hFinal.symm.trans ho
      exact absurd hBound hNe
    · have hSeen : ∀ adjusted : Bool,
          tables.Stable (fun held t =>
            (.receipt movementId ∈ tables.locked held t ∧
              (Adjusted t movementId →
                adjusted = true)) ∧
            KeepsBinding old new ∧ A held t) :=
        fun adjusted => (stable_look (G := tables)
          (.receipt movementId) (fun seen : Prop × Prop =>
            seen.2 → adjusted = true)).and hStable
      refine Triple.bind (Triple.acquire hStable _)
        fun _ => ?_
      refine Triple.bind (Triple.query
        ((stable_held _).and hStable) hSeen ?_)
        fun adjusted => ?_
      · rintro held t _ ⟨hHeld, hRest⟩
        refine ⟨⟨hHeld, ?_⟩, hRest⟩
        rintro ⟨m, hm, hLinked, hOriginal⟩
        exact List.any_eq_true.mpr
          ⟨m, hm, decide_eq_true ⟨hOriginal, hLinked⟩⟩
      · refine (Triple.require (hSeen adjusted)).imp
          (fun _ _ _ h => h) ?_
        rintro _ held t ⟨hNot, ⟨hLocked, hSees⟩, hKeeps, hAt⟩
        refine ⟨hKeeps, fun o ho _ => ?_, hAt⟩
        cases hFinal.symm.trans ho
        exact ⟨hLocked, fun hAdjusted =>
          hNot (hSees hAdjusted)⟩

/- The request as it was is seen, and its row is locked. -/
def OldRow
    (old : Option ProcurementRequest)
    (id : Uuid) : Assertion Db Lock :=
  fun held t => .request id ∈ tables.locked held t ∧
    t.findRequest id = old

theorem stable_oldRow
    (old : Option ProcurementRequest)
    (id : Uuid) :
    tables.Stable (OldRow old id) :=
  stable_look (G := tables) (.request id)
    (fun seen : Option ProcurementRequest => seen = old)

/- The final movement of the request is free, where new. -/
def FinalFree
    (free : Bool)
    (old : Option ProcurementRequest)
    (new : ProcurementRequest) : Assertion Db Lock :=
  fun held t => ∀ o, new.finalMovementId = some o →
    old.bind ProcurementRequest.finalMovementId ≠ some o →
      .receipt o ∈ tables.locked held t ∧
        (¬ Adjusted t o ∧ (free = true → ¬ IsReceipt t o))

theorem stable_finalFree
    (free : Bool)
    (old : Option ProcurementRequest)
    (new : ProcurementRequest) :
    tables.Stable (FinalFree free old new) := by
  refine Stable.all fun o => Stable.imp fun _ =>
    Stable.imp fun _ => ?_
  exact stable_look (G := tables) (.receipt o)
    (fun seen : Prop × Prop =>
      ¬ seen.2 ∧ (free = true → ¬ seen.1))

/- Nobody else has a final movement that is free. -/
theorem finalFree_of_query
    {old : Option ProcurementRequest}
    {new : ProcurementRequest}
    (hInv : TablesValid t)
    (hFind : t.findRequest new.id = old)
    (hMay : MayReceive old new held t) :
    FinalFree (finalMovementFree new t) old new held t := by
  intro o ho hNe
  rcases hMay o ho hNe with ⟨hLocked, hNot⟩
  refine ⟨hLocked, hNot, ?_⟩
  rintro hFree ⟨r, hr, hFinal⟩
  unfold finalMovementFree at hFree
  rw [ho, Option.all_some, List.all_eq_true] at hFree
  rcases of_decide_eq_true (hFree r hr) with hId | hOther
  · have hSame := Table.find_of_mem hInv.ids hr
    rw [hId] at hSame
    have hOld : old = some r :=
      hFind.symm.trans hSame
    rw [hOld] at hNe
    exact hNe hFinal
  · exact hOther hFinal

/- A request is updated whose row is locked. -/
theorem updateRequest_triple
    (new : ProcurementRequest)
    (hId : new.id ∈ ids) :
    tables.Triple (Rows ids) (updateRequest new)
      (fun _ => Rows ids) := by
  have hOldRow : ∀ old, tables.Stable (fun held t =>
      OldRow old new.id held t ∧ Rows ids held t) :=
    fun old => (stable_oldRow old new.id).and stable_rows
  refine Triple.bind (Triple.query stable_rows hOldRow
    fun held t _ hRows => ⟨⟨hRows.locked hId, rfl⟩, hRows⟩)
      fun old => ?_
  refine Triple.bind (protectBinding_triple (hOldRow old) old
    new) fun _ => ?_
  have hKnown : tables.Stable (fun held t =>
      KeepsBinding old new ∧ MayReceive old new held t ∧
        OldRow old new.id held t ∧ Rows ids held t) :=
    ⟨fun h hSub hSees => ⟨h.1, ((stable_mayReceive old new).and
      (hOldRow old)).later h.2 hSub hSees⟩⟩
  refine Triple.bind (Triple.require hKnown) fun _ => ?_
  have hAll : ∀ free, tables.Stable (fun held t =>
      (completionState new = true ∧ KeepsBinding old new) ∧
        FinalFree free old new held t ∧
          OldRow old new.id held t ∧ Rows ids held t) :=
    fun free => ⟨fun h hSub hSees => ⟨h.1,
      ((stable_finalFree free old new).and
        (hOldRow old)).later h.2 hSub hSees⟩⟩
  refine Triple.bind (Triple.query ?_ hAll ?_) fun free => ?_
  · exact ⟨fun h hSub hSees =>
      ⟨h.1, hKnown.later h.2 hSub hSees⟩⟩
  · rintro held t hInv ⟨hState, hKeeps, hMay, hOld, hRows⟩
    exact ⟨⟨hState, hKeeps⟩,
      finalFree_of_query hInv hOld.2 hMay, hOld, hRows⟩
  refine Triple.bind (Triple.require (hAll free)) fun _ => ?_
  refine write_triple (fun _ _ h => h.2.2.2.2) ?_
  rintro held t hInv
    ⟨hFree, ⟨hState, hKeeps⟩, hFinal, ⟨hLocked, hFind⟩, hRows⟩
  rcases hRows new.id hId with ⟨_, r, hRow⟩
  cases hFind.symm.trans hRow
  have hMem := Table.mem_of_find hRow
  have hNew : ∀ o, new.finalMovementId = some o →
      ¬ IsReceipt t o → r.finalMovementId ≠ some o :=
    fun o _ hNot hBound => hNot ⟨r, hMem, hBound⟩
  have hBinds : Place.Binds r new := by
    intro hCompleted
    rcases hKeeps r rfl hCompleted with ⟨hStatus, hRest⟩
    exact ⟨hStatus.trans hCompleted, hRest⟩
  refine ⟨requestPlaces new t, setRequest_changes hRow
    (hInv.state r hMem) hBinds hState
    (fun o ho hNe => (hFinal o ho hNe).2.2 hFree)
    (fun o ho hNot => (hFinal o ho (hNew o ho hNot)).2.1), ?_⟩
  rintro i (rfl | ⟨o, ho, hNot, rfl⟩)
  · exact hLocked
  · exact (hFinal o ho (hNew o ho hNot)).1

/- The id is free, and nobody else can take it. -/
def NewRow
    (found : Option ProcurementRequest)
    (id : Uuid) : Assertion Db Lock :=
  fun held t => found.isNone = true → OldRow none id held t

theorem stable_newRow
    (found : Option ProcurementRequest)
    (id : Uuid) :
    tables.Stable (NewRow found id) :=
  Stable.imp fun _ => stable_oldRow none id

theorem insertRequest_triple
    (new : ProcurementRequest) :
    tables.Triple (Rows ids) (insertRequest new)
      (fun _ => Rows ids) := by
  refine Triple.bind (protectBinding_triple stable_rows none
    new) fun _ => ?_
  have hMay : tables.Stable (fun held t =>
      MayReceive none new held t ∧ Rows ids held t) :=
    (stable_mayReceive none new).and stable_rows
  refine Triple.bind ((Triple.require hMay).imp
    (fun _ _ _ h => h.2) fun _ _ _ h => h) fun _ => ?_
  have hState : tables.Stable (fun held t =>
      completionState new = true ∧ MayReceive none new held t ∧
        Rows ids held t) :=
    ⟨fun h hSub hSees => ⟨h.1, hMay.later h.2 hSub hSees⟩⟩
  refine Triple.bind (Triple.acquire hState _) fun _ => ?_
  have hSeen : ∀ found, tables.Stable (fun held t =>
      NewRow found new.id held t ∧ completionState new = true ∧
        MayReceive none new held t ∧ Rows ids held t) :=
    fun found => (stable_newRow found new.id).and hState
  refine Triple.bind (Triple.query
    ((stable_held _).and hState) hSeen ?_) fun found => ?_
  · rintro held t _ ⟨hHeld, hRest⟩
    refine ⟨fun hNone => ?_, hRest⟩
    have hFind := Option.isNone_iff_eq_none.mp hNone
    refine ⟨?_, hFind⟩
    change Place.guard (.request new.id)
      (t.findRequest new.id) ∈ held
    rw [hFind]
    exact hHeld
  refine Triple.bind ((Triple.require (hSeen found)).imp
    (fun _ _ _ h => h) fun _ held t h =>
      (⟨h.2.1 h.1, h.2.2⟩ : OldRow none new.id held t ∧
        completionState new = true ∧
          MayReceive none new held t ∧ Rows ids held t))
    fun _ => ?_
  have hKnown : tables.Stable (fun held t =>
      OldRow none new.id held t ∧ completionState new = true ∧
        MayReceive none new held t ∧ Rows ids held t) :=
    (stable_oldRow none new.id).and hState
  have hReads : ∀ {β : Type} {p : Op β}, p.ReadsOnly →
      tables.Triple _ p (fun _ => _) :=
    fun h => Triple.kept hKnown h.writesOnly
  refine Triple.bind (hReads (by simp)) fun _ => ?_
  refine Triple.bind (hReads (by simp)) fun _ => ?_
  refine Triple.bind (hReads (by simp)) fun _ => ?_
  have hAll : ∀ free, tables.Stable (fun held t =>
      FinalFree free none new held t ∧
        OldRow none new.id held t ∧ completionState new = true ∧
          MayReceive none new held t ∧ Rows ids held t) :=
    fun free => (stable_finalFree free none new).and hKnown
  refine Triple.bind (Triple.query hKnown hAll ?_)
    fun free => ?_
  · rintro held t hInv h
    exact ⟨finalFree_of_query hInv h.1.2 h.2.2.1, h⟩
  refine Triple.bind (Triple.require (hAll free)) fun _ => ?_
  refine write_triple (fun _ _ h => h.2.2.2.2.2) ?_
  rintro held t _
    ⟨hFree, hFinal, ⟨hLocked, hNone⟩, hState, _⟩
  have hBound : ∀ o, new.finalMovementId = some o →
      .receipt o ∈ tables.locked held t ∧
        ¬ Adjusted t o ∧ (free = true → ¬ IsReceipt t o) :=
    fun o ho => hFinal o ho (by simp)
  refine ⟨requestPlaces new t, newRequest_changes hNone hState
    (fun o ho => (hBound o ho).2.2 hFree)
    (fun o ho _ => (hBound o ho).2.1), ?_⟩
  rintro i (rfl | ⟨o, ho, _, rfl⟩)
  · exact hLocked
  · exact (hBound o ho).1

------------------------------------------------------------
-- Revisions
------------------------------------------------------------

theorem insertRevision_triple
    (new : ProcurementRevision) :
    tables.Triple (Rows ids) (insertRevision new)
      (fun _ => Rows ids) := by
  have hSeen : ∀ taken : Bool, tables.Stable (fun held t =>
      (.header new.id ∈ tables.locked held t ∧
        (taken = true ∨ findRevision new.id t = none)) ∧
      Rows ids held t) :=
    fun taken => (stable_look (G := tables) (.header new.id)
      (fun seen : Option ProcurementRevision =>
        taken = true ∨ seen = none)).and stable_rows
  refine Triple.bind (Triple.acquire stable_rows _) fun _ => ?_
  refine Triple.bind (Triple.query
    ((stable_held _).and stable_rows) hSeen ?_) fun taken => ?_
  · rintro held t _ ⟨hHeld, hRows⟩
    refine ⟨⟨hHeld, ?_⟩, hRows⟩
    refine or_iff_not_imp_left.mpr fun hFree => ?_
    refine Table.find_eq_none_iff.mpr fun r hr hId => hFree ?_
    exact List.any_eq_true.mpr ⟨r, hr, decide_eq_true hId⟩
  refine Triple.bind (Triple.require (hSeen taken)) fun _ => ?_
  refine write_triple (fun _ _ h => h.2.2) ?_
  rintro held t _ ⟨hNot, ⟨hLocked, hNone⟩, _⟩
  refine ⟨_, newRevision_changes (hNone.resolve_left hNot), ?_⟩
  rintro i rfl
  exact hLocked

/- A line is inserted past its trigger. -/
theorem insertLine_triple
    (new : ProcurementRevisionLine) :
    tables.Triple (Rows ids) (insertLine new)
      (fun _ => Rows ids) := by
  have hSeen : ∀ sealed_ : Bool, tables.Stable (fun held t =>
      (.lines new.revisionId ∈ tables.locked held t ∧
        (Published new.revisionId t → sealed_ = true)) ∧
      Rows ids held t) :=
    fun sealed_ => (stable_look (G := tables)
      (.lines new.revisionId)
      (fun seen : Prop × List ProcurementRevisionLine =>
        seen.1 → sealed_ = true)).and stable_rows
  refine Triple.bind (Triple.acquire stable_rows _) fun _ => ?_
  refine Triple.bind (Triple.query
    ((stable_held _).and stable_rows) hSeen ?_)
      fun sealed_ => ?_
  · rintro held t _ ⟨hHeld, hRows⟩
    refine ⟨⟨hHeld, ?_⟩, hRows⟩
    rintro ⟨e, he, hRevision, hPublishes⟩
    exact List.any_eq_true.mpr
      ⟨e, he, decide_eq_true ⟨hRevision, hPublishes⟩⟩
  have hOpen : tables.Stable (fun held t =>
      ¬ sealed_ = true ∧
        (.lines new.revisionId ∈ tables.locked held t ∧
          (Published new.revisionId t → sealed_ = true)) ∧
        Rows ids held t) :=
    ⟨fun h hSub hSees =>
      ⟨h.1, (hSeen sealed_).later h.2 hSub hSees⟩⟩
  have hReads : ∀ {β : Type} {p : Op β}, p.ReadsOnly →
      tables.Triple _ p (fun _ => _) :=
    fun h => Triple.kept hOpen h.writesOnly
  refine Triple.bind (Triple.require (hSeen sealed_))
    fun _ => ?_
  refine Triple.bind (hReads (by simp)) fun _ => ?_
  refine Triple.bind (hReads (by simp)) fun _ => ?_
  refine write_triple (fun _ _ h => h.2.2) ?_
  rintro held t _ ⟨hNot, ⟨hLocked, hSealed⟩, _⟩
  refine ⟨_, newLine_changes fun h => hNot (hSealed h), ?_⟩
  rintro i rfl
  exact hLocked

theorem insertLines_triple
    (lines : List ProcurementRevisionLine) :
    tables.Triple (Rows ids) (insertLines lines)
      (fun _ => Rows ids) := by
  induction lines with
  | nil => exact reads_triple (by simp [insertLines])
  | cons line lines ih =>
      exact Triple.bind (insertLine_triple line) fun _ => ih

/- The revision that the event publishes has all its lines. -/
def MayPublish (new : ProcurementEvent) : Assertion Db Lock :=
  fun held t => ∀ id, PublishedBy new id →
    .lines id ∈ tables.locked held t ∧
      ∃ revision, findRevision id t = some revision ∧
        (linesOfRevision id t).length = revision.lineCount

theorem stable_mayPublish
    (new : ProcurementEvent) :
    tables.Stable (MayPublish new) := by
  refine Stable.all fun id => Stable.imp fun _ => ⟨?_⟩
  rintro held held' t t' ⟨hLocked, revision, hFind, hCount⟩
    hSub hSees
  have hLines := (stable_look (G := tables) (.lines id)
    (fun seen : Prop × List ProcurementRevisionLine =>
      seen.2.length = revision.lineCount)).later
        ⟨hLocked, hCount⟩ hSub hSees
  exact ⟨hLines.1, revision,
    hSees.follows (.header id) revision hFind, hLines.2⟩

theorem validatePublication_triple
    (new : ProcurementEvent) :
    tables.Triple (Rows ids) (validatePublication new)
      (fun _ held t => MayPublish new held t ∧
        Rows ids held t) := by
  have hDone : (∀ id, ¬ PublishedBy new id) →
      tables.Triple (Rows ids) (pure () : Op Unit)
        (fun _ held t => MayPublish new held t ∧
          Rows ids held t) :=
    fun hNone => (reads_triple (by simp)).imp
      (fun _ _ _ h => h)
      fun _ _ _ h => ⟨fun id hId => absurd hId (hNone id), h⟩
  unfold validatePublication
  split
  · rename_i hRevision
    refine hDone fun id hId => ?_
    cases hRevision.symm.trans hId.1
  rename_i revisionId hRevision
  split
  swap
  · rename_i hNot
    exact hDone fun id hId => hNot hId.2
  have hHeld : tables.Stable (fun held t =>
      .exclusive (.revisionSeal revisionId) ∈ held ∧
        Rows ids held t) :=
    (stable_held _).and stable_rows
  have hFound : ∀ found : Option ProcurementRevision,
      tables.Stable (fun held t =>
        (∀ r, found = some r →
          findRevision revisionId t = some r) ∧
        .exclusive (.revisionSeal revisionId) ∈ held ∧
          Rows ids held t) := by
    refine fun found => Stable.and (stable_follows ?_) hHeld
    exact fun hFollows h r hr =>
      hFollows (.header revisionId) r (h r hr)
  refine Triple.bind (Triple.acquire stable_rows _) fun _ => ?_
  refine Triple.bind (Triple.query hHeld hFound
    fun held t _ h => ⟨fun r hr => hr, h⟩) fun found => ?_
  have hRevisions : ∀ revision : ProcurementRevision,
      tables.Stable (fun held t =>
        findRevision revisionId t = some revision ∧
        .exclusive (.revisionSeal revisionId) ∈ held ∧
          Rows ids held t) := by
    refine fun revision => Stable.and (stable_follows ?_) hHeld
    exact fun hFollows h =>
      hFollows (.header revisionId) revision h
  refine Triple.bind (B := fun revision held t =>
    findRevision revisionId t = some revision ∧
      .exclusive (.revisionSeal revisionId) ∈ held ∧
        Rows ids held t) ?_ fun revision => ?_
  · cases found with
    | none => exact Triple.fail _
    | some r =>
        refine (Triple.pure (hRevisions r) r).imp
          (fun _ _ _ h => ⟨h.1 r rfl, h.2⟩) ?_
        rintro _ held t ⟨rfl, h⟩
        exact h
  have hCounts : ∀ count : Nat, tables.Stable (fun held t =>
      (.lines revisionId ∈ tables.locked held t ∧
        (linesOfRevision revisionId t).length = count) ∧
      findRevision revisionId t = some revision ∧
        .exclusive (.revisionSeal revisionId) ∈ held ∧
          Rows ids held t) :=
    fun count => (stable_look (G := tables) (.lines revisionId)
      (fun seen : Prop × List ProcurementRevisionLine =>
        seen.2.length = count)).and (hRevisions revision)
  refine Triple.bind (Triple.query (hRevisions revision) hCounts
    fun held t _ h => ⟨⟨h.2.1, rfl⟩, h⟩) fun count => ?_
  refine (Triple.require (hCounts count)).imp
    (fun _ _ _ h => h) ?_
  rintro _ held t ⟨hCount, ⟨hLocked, hLines⟩, hFind, _, hRows⟩
  refine ⟨fun id hId => ?_, hRows⟩
  cases hRevision.symm.trans hId.1
  exact ⟨hLocked, revision, hFind, hLines.trans hCount⟩

/- An event is inserted past its trigger. -/
theorem insertEvent_triple
    (new : ProcurementEvent) :
    tables.Triple (Rows ids) (insertEvent new)
      (fun _ => Rows ids) := by
  have hMay : tables.Stable (fun held t =>
      MayPublish new held t ∧ Rows ids held t) :=
    (stable_mayPublish new).and stable_rows
  have hReads : ∀ {β : Type} {p : Op β}, p.ReadsOnly →
      tables.Triple _ p (fun _ => _) :=
    fun h => Triple.kept hMay h.writesOnly
  refine Triple.bind (validatePublication_triple new)
    fun _ => ?_
  refine Triple.bind (hReads (by simp)) fun _ => ?_
  refine Triple.bind (hReads (by simp)) fun _ => ?_
  refine Triple.bind (hReads (by simp)) fun _ => ?_
  refine Triple.bind (hReads (by simp)) fun _ => ?_
  refine write_triple (fun _ _ h => h.2) ?_
  rintro held t _ ⟨hPublish, _⟩
  refine ⟨eventPlaces new, newEvent_changes
    fun id hId => (hPublish id hId).2, ?_⟩
  rintro i ⟨id, hId, rfl⟩
  exact (hPublish id hId).1

end Statements

end Procurement
