import DcInventory.Procurement.FaithfulLines

/-
  This file proves that the lines that are stored for a
  request are those that were prepared for it.

  Key definitions include:
    * `AddsLines`
    * `Stores`

  Key theorems include:
    * `createRequest_lines`
    * `submitRevision_lines`
    * `Stores.rowOf`
-/

namespace Procurement

variable {s s' : Db}
variable {rows : List ProcurementRevisionLine}

------------------------------------------------------------
-- Statements
------------------------------------------------------------

/- Of the lines of requests, no others are written. -/
def AddsLines
    (rows : List ProcurementRevisionLine)
    (change : Db → Db) : Prop :=
  ∀ t, ∀ row ∈ (change t).procurementRevisionLines,
    row ∈ t.procurementRevisionLines ∨ row ∈ rows

theorem addsLines_of_same
    {change : Db → Db}
    (h : ∀ t, (change t).procurementRevisionLines =
      t.procurementRevisionLines) :
    AddsLines rows change := by
  intro t row hRow
  rw [h] at hRow
  exact .inl hRow

theorem execute_addsLines
    {w : ProcurementWrite}
    (h : AddsLines rows w.apply) :
    (execute w).WritesOnly (AddsLines rows) :=
  (Txn.writesOnly_update _).mpr h

theorem insertRequest_addsLines (new : ProcurementRequest) :
    (insertRequest new).WritesOnly (AddsLines rows) := by
  refine .bind (protectFinalMovementBinding_readsOnly none
    new).writesOnly fun _ => ?_
  refine .bind (by simp) fun _ => ?_
  refine .bind (by simp) fun _ => ?_
  refine .bind (by simp) fun _ => ?_
  refine .bind (by simp) fun _ => ?_
  refine .bind (by simp) fun _ => ?_
  refine .bind (by simp) fun _ => ?_
  refine .bind (by simp) fun _ => ?_
  refine .bind (by simp) fun _ => ?_
  refine .bind (by simp) fun _ => ?_
  exact execute_addsLines (addsLines_of_same fun _ => rfl)

theorem updateRequest_addsLines (new : ProcurementRequest) :
    (updateRequest new).WritesOnly (AddsLines rows) := by
  refine .bind (by simp) fun old => ?_
  refine .bind (protectFinalMovementBinding_readsOnly old
    new).writesOnly fun _ => ?_
  refine .bind (by simp) fun _ => ?_
  refine .bind (by simp) fun _ => ?_
  refine .bind (by simp) fun _ => ?_
  exact execute_addsLines (addsLines_of_same fun _ => rfl)

theorem insertRevision_addsLines (new : ProcurementRevision) :
    (insertRevision new).WritesOnly (AddsLines rows) := by
  refine .bind (by simp) fun _ => ?_
  refine .bind (by simp) fun _ => ?_
  refine .bind (by simp) fun _ => ?_
  exact execute_addsLines (addsLines_of_same fun _ => rfl)

theorem insertLines_addsLines
    {lines : List ProcurementRevisionLine}
    (h : ∀ line ∈ lines, line ∈ rows) :
    (insertLines lines).WritesOnly (AddsLines rows) := by
  induction lines with
  | nil => trivial
  | cons line lines ih =>
      refine .bind ?_ fun _ =>
        ih fun l hl => h l (List.mem_cons_of_mem line hl)
      refine .bind (by simp) fun _ => ?_
      refine .bind (by simp) fun _ => ?_
      refine .bind (by simp) fun _ => ?_
      refine .bind (by simp) fun _ => ?_
      refine .bind (by simp) fun _ => ?_
      refine execute_addsLines fun t row hRow => ?_
      rcases List.mem_append.mp hRow with hOld | hLast
      · exact .inl hOld
      · rw [List.mem_singleton.mp hLast]
        exact .inr (h line List.mem_cons_self)

theorem insertEvent_addsLines (new : ProcurementEvent) :
    (insertEvent new).WritesOnly (AddsLines rows) := by
  refine .bind (validatePublication_readsOnly new).writesOnly
    fun _ => ?_
  refine .bind (by simp) fun _ => ?_
  refine .bind (by simp) fun _ => ?_
  refine .bind (by simp) fun _ => ?_
  refine .bind (by simp) fun _ => ?_
  exact execute_addsLines (addsLines_of_same fun _ => rfl)

theorem tell_addsLines
    (env : ProcurementEnv)
    (request : ProcurementRequest)
    (action : String)
    (lines : List ProcurementRevisionLine)
    (recipients : List Uuid) :
    (tell env request action lines recipients).WritesOnly
      (AddsLines rows) := by
  have hCalls : ∀ calls, (enqueueCalls env calls).WritesOnly
      (AddsLines rows) := by
    intro calls
    induction calls with
    | nil => trivial
    | cons call calls ih =>
        refine .bind ?_ fun _ => ih
        refine .bind (by simp) fun _ => ?_
        refine .bind (by simp) fun _ => ?_
        refine .bind (by simp) fun _ => ?_
        refine .bind (by simp) fun _ => ?_
        exact (Txn.writesOnly_update _).mpr
          (addsLines_of_same fun _ => rfl)
  refine .bind (by simp) fun found => ?_
  split
  · trivial
  · exact .bind (by simp) fun _ => hCalls _

theorem checkCurrentRevision_readsOnly (requestId : Uuid) :
    (checkCurrentRevision requestId).ReadsOnly :=
  .bind (by simp) fun _ => by simp

theorem lines_of_writes
    {α : Type}
    {p : Op α}
    {r : α}
    (h : p.WritesOnly (AddsLines rows))
    (hRun : p.run s = .ok (r, s'))
    {row : ProcurementRevisionLine}
    (hRow : row ∈ s'.procurementRevisionLines) :
    row ∈ s.procurementRevisionLines ∨ row ∈ rows := by
  have hKeeps : p.Keeps (fun t =>
      ∀ row ∈ t.procurementRevisionLines,
        row ∈ s.procurementRevisionLines ∨ row ∈ rows) :=
    h.keeps fun _ hChange t ht row hRow =>
      (hChange t row hRow).elim (ht row) .inr
  exact hKeeps s r s' (fun _ => .inl) hRun row hRow

theorem run_readsOnly
    {α : Type}
    {p : Op α}
    {r : α}
    (h : p.ReadsOnly)
    (hRun : p.run s = .ok (r, s')) :
    s' = s :=
  h.keeps (P := fun t => t = s) s r s' rfl hRun

------------------------------------------------------------
-- Requests
------------------------------------------------------------

section Requests

variable {env : ProcurementEnv}
variable {actorUserId : Uuid}
variable {record : ProcurementRecord}
variable {row : ProcurementRevisionLine}

theorem createRequest_lines
    {payload : ProcurementRequestCreate}
    (hRun : (createRequest env payload actorUserId).run s =
      .ok (record, s'))
    (hRow : row ∈ s'.procurementRevisionLines) :
    row ∈ s.procurementRevisionLines ∨ ∃ rows,
      (prepareLines env payload.lines).run s = .ok (rows, s) ∧
        row ∈ rows := by
  unfold createRequest at hRun
  rcases Txn.run_bind_eq_ok_iff.mp hRun with
    ⟨_, s₁, hActor, hCreate⟩
  have hSame : s₁ = s := by
    refine run_readsOnly ?_ hActor
    refine .bind (by simp) fun _ => ?_
    exact .bind (by simp) fun _ => by simp
  subst hSame
  rcases Txn.run_bind_eq_ok_iff.mp hCreate with
    ⟨key, s₂, hKey, hLocked⟩
  rcases Txn.run_ofExcept_eq_ok_iff.mp hKey with ⟨_, rfl⟩
  rw [Txn.run_acquire_bind, Txn.run_query_bind] at hLocked
  split at hLocked
  · have hReads := run_readsOnly
      (.bind (by simp) fun _ => getRequestRecord_readsOnly _ _)
        hLocked
    subst hReads
    exact .inl hRow
  · rcases Txn.run_bind_eq_ok_iff.mp hLocked with
      ⟨_, s₃, hManager, hLines⟩
    have hSame := run_readsOnly (validateManager_readsOnly _)
      hManager
    subst hSame
    rcases Txn.run_bind_eq_ok_iff.mp hLines with
      ⟨rows, s₄, hPrepared, hWrites⟩
    have hSame := run_readsOnly (prepareLines_readsOnly _ _)
      hPrepared
    subst hSame
    refine (lines_of_writes ?_ hWrites hRow).imp_right
      fun hMem => ⟨rows, hPrepared, hMem⟩
    refine .bind (actorSnapshot_readsOnly _).writesOnly
      fun snapshot => ?_
    refine .bind (insertRequest_addsLines _) fun _ => ?_
    refine .bind (insertRevision_addsLines _) fun _ => ?_
    refine .bind (insertLines_addsLines fun _ h => h)
      fun _ => ?_
    refine .bind (insertEvent_addsLines _) fun _ => ?_
    refine .bind (tell_addsLines _ _ _ _ _) fun _ => ?_
    refine .bind (getRequestRecord_readsOnly _ _).writesOnly
      fun _ => ?_
    exact .bind (checkCurrentRevision_readsOnly _).writesOnly
      fun _ => by simp

theorem submitRevision_lines
    {requestId : Uuid}
    {payload : RevisionCreate}
    (hRun : (submitRevision env requestId payload
      actorUserId).run s = .ok (record, s'))
    (hRow : row ∈ s'.procurementRevisionLines) :
    row ∈ s.procurementRevisionLines ∨ ∃ rows,
      (prepareLines env payload.lines).run s = .ok (rows, s) ∧
        row ∈ rows := by
  unfold submitRevision at hRun
  rcases Txn.run_bind_eq_ok_iff.mp hRun with
    ⟨expected, s₁, hStart, hCommand⟩
  rcases startCommand_eq_ok hStart with ⟨rfl, _⟩
  split at hCommand
  · rcases Txn.run_pure_eq_ok_iff.mp hCommand with ⟨_, rfl⟩
    exact .inl hRow
  · rcases Txn.run_bind_eq_ok_iff.mp hCommand with
      ⟨_, s₂, hActor, hChecked⟩
    rcases Txn.run_require_eq_ok_iff.mp hActor with ⟨_, rfl⟩
    rcases Txn.run_bind_eq_ok_iff.mp hChecked with
      ⟨_, s₃, hStatus, hLines⟩
    rcases Txn.run_ofExcept_eq_ok_iff.mp hStatus with ⟨_, rfl⟩
    rcases Txn.run_bind_eq_ok_iff.mp hLines with
      ⟨rows, s₄, hPrepared, hWrites⟩
    have hSame := run_readsOnly (prepareLines_readsOnly _ _)
      hPrepared
    subst hSame
    refine (lines_of_writes ?_ hWrites hRow).imp_right
      fun hMem => ⟨rows, hPrepared, hMem⟩
    refine .bind (by simp) fun last => ?_
    refine .bind (actorSnapshot_readsOnly _).writesOnly
      fun snapshot => ?_
    refine .bind (insertRevision_addsLines _) fun _ => ?_
    refine .bind (insertLines_addsLines fun _ h => h)
      fun _ => ?_
    refine .bind (by simp) fun moved => ?_
    refine .bind (updateRequest_addsLines _) fun _ => ?_
    refine .bind (insertEvent_addsLines _) fun _ => ?_
    refine .bind (tell_addsLines _ _ _ _ _) fun _ => ?_
    refine .bind (getRequestRecord_readsOnly _ _).writesOnly
      fun _ => ?_
    exact .bind (checkCurrentRevision_readsOnly _).writesOnly
      fun _ => by simp

/-
  A call that was accepted stores the row for one of the
  lines that it was given.
-/
inductive Stores
    (env : ProcurementEnv)
    (db : Db)
    (line : ProcurementLineCreate)
    (row : ProcurementRevisionLine) : Prop where
| created
    {payload : ProcurementRequestCreate}
    {actorUserId : Uuid}
    {record : ProcurementRecord}
    {db' : Db}
    {i : Nat}
    (hRun : (createRequest env payload actorUserId).run db =
      .ok (record, db'))
    (hLine : payload.lines[i]? = some line)
    (hStored : row ∈ db'.procurementRevisionLines)
    (hNew : row ∉ db.procurementRevisionLines)
    (hNumber : row.lineNo = i + 1)
| revised
    {requestId : Uuid}
    {payload : RevisionCreate}
    {actorUserId : Uuid}
    {record : ProcurementRecord}
    {db' : Db}
    {i : Nat}
    (hRun : (submitRevision env requestId payload
      actorUserId).run db = .ok (record, db'))
    (hLine : payload.lines[i]? = some line)
    (hStored : row ∈ db'.procurementRevisionLines)
    (hNew : row ∉ db.procurementRevisionLines)
    (hNumber : row.lineNo = i + 1)

/- Rows are told apart by their numbers. -/
theorem rowOf_of_number
    {db db' : Db}
    (hKeys : Catalog.CatalogKeys db)
    {payloads : List ProcurementLineCreate}
    (hRun : (prepareLines env payloads).run db =
      .ok (rows, db'))
    (hRow : row ∈ rows)
    {i : Nat}
    {line : ProcurementLineCreate}
    (hLine : payloads[i]? = some line)
    (hNumber : row.lineNo = i + 1) :
    RowOf env db (i + 1) line row := by
  rcases prepareLines_faithful hKeys hRun with
    ⟨hLength, hEach⟩
  rcases List.mem_iff_getElem?.mp hRow with ⟨j, hAt⟩
  have hj : j < payloads.length := by
    rw [← hLength]
    exact (List.getElem?_eq_some_iff.mp hAt).1
  rcases hEach j _ (List.getElem?_eq_getElem hj) with
    ⟨row', hAt', hOf⟩
  rw [hAt] at hAt'
  cases hAt'
  have hSame : j = i := by
    have hThis := hOf.lineNo_eq
    omega
  subst hSame
  rw [List.getElem?_eq_getElem hj] at hLine
  cases hLine
  exact hOf

theorem Stores.rowOf
    {db : Db}
    {line : ProcurementLineCreate}
    (hKeys : Catalog.CatalogKeys db)
    (h : Stores env db line row) :
    ∃ lineNo, RowOf env db lineNo line row := by
  cases h with
  | created hRun hLine hStored hNew hNumber =>
      rcases createRequest_lines hRun hStored with
        hOld | ⟨rows, hPrepared, hMem⟩
      · exact absurd hOld hNew
      · exact ⟨_, rowOf_of_number hKeys hPrepared hMem hLine
          hNumber⟩
  | revised hRun hLine hStored hNew hNumber =>
      rcases submitRevision_lines hRun hStored with
        hOld | ⟨rows, hPrepared, hMem⟩
      · exact absurd hOld hNew
      · exact ⟨_, rowOf_of_number hKeys hPrepared hMem hLine
          hNumber⟩

end Requests

end Procurement
