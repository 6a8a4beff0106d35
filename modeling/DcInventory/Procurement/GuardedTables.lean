import DcInventory.Inventory.Interleaving
import DcInventory.Library.EventLog
import DcInventory.Library.Guarding
import DcInventory.Procurement.Advances

/-
  This file defines what the triggers of procurement watch,
  under which lock each place may change, and proves of each
  statement what it has to know before it writes.

  Key definitions include:
    * `Place`
    * `TablesValid`
    * `tables`
    * `adjusts`

  Key theorems include:
    * `newMovement_changes`
    * `newRequest_changes`
    * `setRequest_changes`
    * `newRevision_changes`
    * `newLine_changes`
    * `newEvent_changes`
-/

namespace Procurement

------------------------------------------------------------
-- Places
------------------------------------------------------------

/- A correction or a reversal of the movement exists. -/
def Adjusted (db : Db) (movementId : Uuid) : Prop :=
  ∃ m ∈ db.movements, isLinked m.movementType = true ∧
    m.originalMovementId = some movementId

/- The event publishes the revision. -/
def PublishedBy
    (event : ProcurementEvent)
    (revisionId : Uuid) : Prop :=
  event.revisionId = some revisionId ∧
    publishes event.eventType = true

/- The lines of a revision, as they were inserted. -/
def linesOfRevision
    (revisionId : Uuid)
    (db : Db) : List ProcurementRevisionLine :=
  db.procurementRevisionLines.filter (fun l =>
    l.revisionId = revisionId)

def findRevision
    (revisionId : Uuid)
    (db : Db) : Option ProcurementRevision :=
  Table.find ProcurementRevision.id revisionId
    db.procurementRevisions

/- What the triggers of procurement look at. -/
inductive Place where
| receipt (movementId : Uuid)
| request (requestId : Uuid)
| header (revisionId : Uuid)
| lines (revisionId : Uuid)
deriving DecidableEq

namespace Place

def Seen : Place → Type
| receipt _ => Prop × Prop
| request _ => Option ProcurementRequest
| header _ => Option ProcurementRevision
| lines _ => Prop × List ProcurementRevisionLine

def look : (place : Place) → Db → place.Seen
| receipt movementId, db =>
    (IsReceipt db movementId, Adjusted db movementId)
| request requestId, db => db.findRequest requestId
| header revisionId, db => findRevision revisionId db
| lines revisionId, db =>
    (Published revisionId db, linesOfRevision revisionId db)

/- A new row has an index entry, an old one a row lock. -/
def guard : (place : Place) → place.Seen → Lock
| receipt movementId, _ =>
    .exclusive (.receiptBinding movementId)
| request requestId, none =>
    .exclusive (.requestPkey requestId)
| request requestId, some _ =>
    .exclusive (.requestRow requestId)
| header revisionId, _ =>
    .exclusive (.revisionPkey revisionId)
| lines revisionId, _ =>
    .exclusive (.revisionSeal revisionId)

/- A completed request keeps its binding. -/
def Binds (old new : ProcurementRequest) : Prop :=
  old.status = .completed →
    new.status = .completed ∧
      new.finalMovementId = old.finalMovementId ∧
        new.completedAt = old.completedAt

def moves : (place : Place) → place.Seen → place.Seen → Prop
| receipt _, _, _ => True
| request _, old, new => ∀ r, old = some r →
    ∃ r', new = some r' ∧ Binds r r'
| header _, old, new => ∀ r, old = some r → new = some r
| lines _, old, new => old.1 → new.1 ∧ new.2 = old.2

theorem Binds.trans
    {r r' r'' : ProcurementRequest}
    (h : Binds r r')
    (h' : Binds r' r'') :
    Binds r r'' := by
  intro hCompleted
  rcases h hCompleted with ⟨hStatus, hFinal, hAt⟩
  rcases h' hStatus with ⟨hStatus', hFinal', hAt'⟩
  exact ⟨hStatus', hFinal'.trans hFinal, hAt'.trans hAt⟩

theorem moves_refl
    (place : Place)
    (o : place.Seen) :
    place.moves o o := by
  cases place with
  | receipt _ => trivial
  | request _ => exact fun r h => ⟨r, h, fun h => ⟨h, rfl, rfl⟩⟩
  | header _ => exact fun _ h => h
  | lines _ => exact fun h => ⟨h, rfl⟩

theorem moves_trans
    {place : Place}
    {o o' o'' : place.Seen}
    (h : place.moves o o')
    (h' : place.moves o' o'') :
    place.moves o o'' := by
  cases place with
  | receipt _ => trivial
  | request _ =>
      intro r hr
      rcases h r hr with ⟨r', hr', hBinds⟩
      rcases h' r' hr' with ⟨r'', hr'', hBinds'⟩
      exact ⟨r'', hr'', hBinds.trans hBinds'⟩
  | header _ => exact fun r hr => h' r (h r hr)
  | lines _ =>
      intro hPublished
      rcases h hPublished with ⟨hStill, hLines⟩
      rcases h' hStill with ⟨hStill', hLines'⟩
      exact ⟨hStill', hLines'.trans hLines⟩

end Place

/-
  Receipts are not adjusted and not shared, and published
  revisions have all their lines.
-/
structure TablesValid (db : Db) : Prop where
  ids : (db.procurementRequests.map
    ProcurementRequest.id).Nodup
  state : ∀ r ∈ db.procurementRequests,
    completionState r = true
  single : ∀ r ∈ db.procurementRequests,
    ∀ r' ∈ db.procurementRequests, ∀ o,
      r.finalMovementId = some o →
        r'.finalMovementId = some o → r = r'
  unadjusted : ∀ o, IsReceipt db o → ¬ Adjusted db o
  counted : ∀ revisionId, Published revisionId db →
    ∃ revision, findRevision revisionId db = some revision ∧
      (linesOfRevision revisionId db).length =
        revision.lineCount

/- The places, guarded by their locks. -/
def tables : Guarding Db Lock Place where
  modes := Lock.modes
  Seen := Place.Seen
  look := Place.look
  guard := Place.guard
  moves := Place.moves
  inv := TablesValid
  moves_refl := Place.moves_refl
  moves_trans := Place.moves_trans
  exclusive i o := by
    have hExclusive : ∃ r, i.guard o = .exclusive r := by
      cases i with
      | request _ => cases o <;> exact ⟨_, rfl⟩
      | receipt _ => exact ⟨_, rfl⟩
      | header _ => exact ⟨_, rfl⟩
      | lines _ => exact ⟨_, rfl⟩
    rcases hExclusive with ⟨r, hGuard⟩
    rw [hGuard]
    exact Lock.conflict_exclusive rfl

/- The tables that are watched are the same. -/
structure SameTables (s s' : Db) : Prop where
  movements : s'.movements = s.movements
  requests : s'.procurementRequests = s.procurementRequests
  revisions : s'.procurementRevisions = s.procurementRevisions
  lines : s'.procurementRevisionLines =
    s.procurementRevisionLines
  events : s'.procurementEvents = s.procurementEvents

section Same

variable {s s' : Db}

theorem SameTables.isReceipt
    (h : SameTables s s')
    (o : Uuid) :
    IsReceipt s' o ↔ IsReceipt s o := by
  simp only [IsReceipt, h.requests]

theorem SameTables.adjusted
    (h : SameTables s s')
    (o : Uuid) :
    Adjusted s' o ↔ Adjusted s o := by
  simp only [Adjusted, h.movements]

theorem SameTables.published
    (h : SameTables s s')
    (revisionId : Uuid) :
    Published revisionId s' ↔ Published revisionId s := by
  simp only [Published, h.events]

theorem SameTables.linesOfRevision
    (h : SameTables s s')
    (revisionId : Uuid) :
    linesOfRevision revisionId s' =
      linesOfRevision revisionId s := by
  simp only [Procurement.linesOfRevision, h.lines]

theorem SameTables.findRevision
    (h : SameTables s s')
    (revisionId : Uuid) :
    findRevision revisionId s' = findRevision revisionId s := by
  simp only [Procurement.findRevision, h.revisions]

/- What is seen of a receipt, said of the store. -/
theorem look_receipt_iff {o : Uuid} :
    tables.look (.receipt o) s' = tables.look (.receipt o) s ↔
      (IsReceipt s' o ↔ IsReceipt s o) ∧
        (Adjusted s' o ↔ Adjusted s o) := by
  constructor
  · intro hSame
    exact ⟨iff_of_eq (congrArg Prod.fst hSame),
      iff_of_eq (congrArg Prod.snd hSame)⟩
  · rintro ⟨hReceipt, hAdjusted⟩
    exact Prod.ext (propext hReceipt) (propext hAdjusted)

theorem look_lines_iff {id : Uuid} :
    tables.look (.lines id) s' = tables.look (.lines id) s ↔
      (Published id s' ↔ Published id s) ∧
        Procurement.linesOfRevision id s' =
          Procurement.linesOfRevision id s := by
  constructor
  · intro hSame
    exact ⟨iff_of_eq (congrArg Prod.fst hSame),
      congrArg Prod.snd hSame⟩
  · rintro ⟨hPublished, hLines⟩
    exact Prod.ext (propext hPublished) hLines

theorem SameTables.valid
    (h : SameTables s s')
    (hValid : TablesValid s) :
    TablesValid s' where
  ids := by
    rw [h.requests]
    exact hValid.ids
  state := by
    rw [h.requests]
    exact hValid.state
  single := by
    rw [h.requests]
    exact hValid.single
  unadjusted o hReceipt := by
    rw [h.adjusted]
    exact hValid.unadjusted o ((h.isReceipt o).mp hReceipt)
  counted revisionId hPublished := by
    rw [h.findRevision, h.linesOfRevision]
    exact hValid.counted revisionId
      ((h.published revisionId).mp hPublished)

theorem harmless_of_sameTables
    {f : Db → Db}
    (h : ∀ s, SameTables s (f s)) :
    tables.Harmless f where
  look i s := by
    cases i with
    | receipt o =>
        exact look_receipt_iff.mpr
          ⟨(h s).isReceipt o, (h s).adjusted o⟩
    | request id =>
        change (f s).findRequest id = s.findRequest id
        rw [Db.findRequest, (h s).requests, Db.findRequest]
    | header id => exact (h s).findRevision id
    | lines id =>
        exact look_lines_iff.mpr
          ⟨(h s).published id, (h s).linesOfRevision id⟩
  inv s hValid := (h s).valid hValid

end Same

------------------------------------------------------------
-- Movements
------------------------------------------------------------

section Writes

variable {t : Db}

/- The movement that a new one corrects or reverses. -/
def adjusts (new : Movement) : Option Uuid :=
  if isLinked new.movementType then new.originalMovementId
  else none

theorem adjusts_iff
    {new : Movement}
    {o : Uuid} :
    adjusts new = some o ↔
      isLinked new.movementType = true ∧
        new.originalMovementId = some o := by
  unfold adjusts
  split
  · rename_i hLinked
    exact ⟨fun h => ⟨hLinked, h⟩, fun h => h.2⟩
  · rename_i hLinked
    constructor
    · intro h
      cases h
    · exact fun h => absurd h.1 hLinked

def newMovement (new : Movement) (db : Db) : Db :=
  { db with movements := db.movements ++ [new] }

theorem adjusted_newMovement
    {new : Movement}
    {o : Uuid} :
    Adjusted (newMovement new t) o ↔
      Adjusted t o ∨ adjusts new = some o := by
  constructor
  · rintro ⟨m, hm, hLinked, hOriginal⟩
    rcases List.mem_append.mp hm with hm | hm
    · exact .inl ⟨m, hm, hLinked, hOriginal⟩
    · cases List.mem_singleton.mp hm
      exact .inr (adjusts_iff.mpr ⟨hLinked, hOriginal⟩)
  · rintro (⟨m, hm, hAdjusts⟩ | hNew)
    · exact ⟨m, List.mem_append_left _ hm, hAdjusts⟩
    · exact ⟨new, List.mem_append_right _
        (List.mem_singleton_self _), adjusts_iff.mp hNew⟩

/- The places that a new movement changes. -/
def movementPlaces (new : Movement) : Set Place :=
  {i | ∃ o, adjusts new = some o ∧ i = .receipt o}

/- No movement is inserted that adjusts a receipt. -/
theorem newMovement_changes
    {new : Movement}
    (hFree : ∀ o, adjusts new = some o → ¬ IsReceipt t o) :
    tables.Changes (movementPlaces new)
      (newMovement new) t := by
  have hLook : ∀ t' i, i ∉ movementPlaces new →
      tables.look i (newMovement new t') = tables.look i t' := by
    intro t' i hi
    cases i with
    | receipt o =>
        refine look_receipt_iff.mpr ⟨Iff.rfl, ?_⟩
        rw [adjusted_newMovement]
        exact or_iff_left fun hNew => hi ⟨o, hNew, rfl⟩
    | request id => rfl
    | header id => rfl
    | lines id => rfl
  constructor
  · intro t' hLater
    refine ⟨hLater.inv.ids, hLater.inv.state,
      hLater.inv.single, fun o hReceipt hAdjusted => ?_,
      hLater.inv.counted⟩
    rcases adjusted_newMovement.mp hAdjusted with hOld | hNew
    · exact hLater.inv.unadjusted o hReceipt hOld
    · have hSame := look_receipt_iff.mp
        (hLater.same (.receipt o) ⟨o, hNew, rfl⟩)
      exact hFree o hNew (hSame.1.mp hReceipt)
  · exact fun t' _ i hi => hLook t' i hi
  · rintro t' hLater i ⟨o, hNew, rfl⟩
    have hSame := look_receipt_iff.mp
      (hLater.same (.receipt o) ⟨o, hNew, rfl⟩)
    have hAdjusted : ∀ db, Adjusted (newMovement new db) o :=
      fun db => adjusted_newMovement.mpr (.inr hNew)
    exact look_receipt_iff.mpr
      ⟨hSame.1, iff_of_true (hAdjusted t') (hAdjusted t)⟩
  · rintro i ⟨o, _, rfl⟩
    trivial

------------------------------------------------------------
-- Requests
------------------------------------------------------------

/- The places that a new state of a request changes. -/
def requestPlaces
    (new : ProcurementRequest)
    (t : Db) : Set Place :=
  {i | i = .request new.id ∨ ∃ o,
    new.finalMovementId = some o ∧ ¬ IsReceipt t o ∧
      i = .receipt o}

theorem mem_newRequest
    {new : ProcurementRequest}
    {o : Uuid} :
    IsReceipt ((ProcurementWrite.newRequest new).apply t) o ↔
      IsReceipt t o ∨ new.finalMovementId = some o := by
  constructor
  · rintro ⟨r, hr, hFinal⟩
    rcases List.mem_append.mp hr with hr | hr
    · exact .inl ⟨r, hr, hFinal⟩
    · cases List.mem_singleton.mp hr
      exact .inr hFinal
  · rintro (⟨r, hr, hFinal⟩ | hNew)
    · exact ⟨r, List.mem_append_left _ hr, hFinal⟩
    · exact ⟨new, List.mem_append_right _
        (List.mem_singleton_self _), hNew⟩

/- What is known of the receipt of a new state. -/
def Receivable
    (new : ProcurementRequest)
    (t : Db) : Prop :=
  ∀ o, new.finalMovementId = some o → ¬ IsReceipt t o →
    ¬ Adjusted t o

theorem findRequest_newRequest
    {new : ProcurementRequest}
    (hNone : t.findRequest new.id = none)
    (id : Uuid) :
    ((ProcurementWrite.newRequest new).apply t).findRequest id =
      if id = new.id then some new else t.findRequest id := by
  change Table.find ProcurementRequest.id id
    (t.procurementRequests ++ [new]) = _
  by_cases hId : id = new.id
  · subst hId
    rw [Table.find_append_of_none hNone, if_pos rfl]
    simp [Table.find]
  · rw [if_neg hId]
    cases hFind : t.findRequest id with
    | some r => exact Table.find_append_of_some hFind
    | none =>
        rw [Table.find_append_of_none hFind]
        simp [Table.find, Ne.symm hId]

/- A new request does not take the receipt of another. -/
theorem newRequest_changes
    {new : ProcurementRequest}
    (hNone : t.findRequest new.id = none)
    (hState : completionState new = true)
    (hFree : ∀ o, new.finalMovementId = some o →
      ¬ IsReceipt t o)
    (hReceivable : Receivable new t) :
    tables.Changes (requestPlaces new t)
      (ProcurementWrite.newRequest new).apply t := by
  have hReceipt : ∀ t', tables.Later (requestPlaces new t)
      t t' → ∀ o, new.finalMovementId = some o →
        ¬ IsReceipt t' o ∧ ¬ Adjusted t' o := by
    intro t' hLater o ho
    have hSame := look_receipt_iff.mp (hLater.same (.receipt o)
      (.inr ⟨o, ho, hFree o ho, rfl⟩))
    rw [hSame.1, hSame.2]
    exact ⟨hFree o ho, hReceivable o ho (hFree o ho)⟩
  have hNone' : ∀ t', tables.Later (requestPlaces new t)
      t t' → t'.findRequest new.id = none :=
    fun t' hLater => (hLater.same (.request new.id)
      (.inl rfl)).trans hNone
  constructor
  · intro t' hLater
    have hOld := hLater.inv
    refine ⟨?_, ?_, ?_, ?_, hOld.counted⟩
    · change ((_ ++ [new]).map _).Nodup
      rw [List.map_append, List.map_singleton,
        List.nodup_append]
      refine ⟨hOld.ids, List.nodup_singleton _, ?_⟩
      intro id hId id' hId' hSame
      rw [List.mem_singleton.mp hId'] at hSame
      rcases List.mem_map.mp hId with ⟨r, hr, hEq⟩
      exact Table.find_eq_none_iff.mp (hNone' t' hLater) r hr
        (hEq.trans hSame)
    · intro r hr
      rcases List.mem_append.mp hr with hr | hr
      · exact hOld.state r hr
      · rw [List.mem_singleton.mp hr]
        exact hState
    · have hApart : ∀ r ∈ t'.procurementRequests, ∀ o,
          r.finalMovementId = some o →
            new.finalMovementId ≠ some o :=
        fun r hr o ho hNew =>
          (hReceipt t' hLater o hNew).1 ⟨r, hr, ho⟩
      intro r hr r' hr' o ho ho'
      rcases List.mem_append.mp hr with hr | hr <;>
        rcases List.mem_append.mp hr' with hr' | hr'
      · exact hOld.single r hr r' hr' o ho ho'
      · cases List.mem_singleton.mp hr'
        exact absurd ho' (hApart r hr o ho)
      · cases List.mem_singleton.mp hr
        exact absurd ho (hApart r' hr' o ho')
      · rw [List.mem_singleton.mp hr, List.mem_singleton.mp hr']
    · intro o ho hAdjusted
      rcases mem_newRequest.mp ho with hBefore | hNew
      · exact hOld.unadjusted o hBefore hAdjusted
      · exact (hReceipt t' hLater o hNew).2 hAdjusted
  · intro t' hLater i hi
    cases i with
    | receipt o =>
        refine look_receipt_iff.mpr ⟨?_, Iff.rfl⟩
        rw [mem_newRequest]
        exact or_iff_left fun hNew =>
          hi (.inr ⟨o, hNew, hFree o hNew, rfl⟩)
    | request id =>
        change Db.findRequest _ id = t'.findRequest id
        rw [findRequest_newRequest (hNone' t' hLater), if_neg]
        rintro rfl
        exact hi (.inl rfl)
    | header id => rfl
    | lines id => rfl
  · rintro t' hLater i (rfl | ⟨o, ho, hNot, rfl⟩)
    · change Db.findRequest _ _ = Db.findRequest _ _
      rw [findRequest_newRequest (hNone' t' hLater),
        findRequest_newRequest hNone, if_pos rfl, if_pos rfl]
    · have hSame := look_receipt_iff.mp (hLater.same
        (.receipt o) (.inr ⟨o, ho, hNot, rfl⟩))
      exact look_receipt_iff.mpr
        ⟨iff_of_true (mem_newRequest.mpr (.inr ho))
          (mem_newRequest.mpr (.inr ho)), hSame.2⟩
  · rintro i (rfl | ⟨o, _, _, rfl⟩)
    · intro r hr
      cases hNone.symm.trans hr
    · trivial

/- A table of requests with one of them in a new state. -/
theorem mem_setRequest
    {new old r : ProcurementRequest}
    (hOld : t.findRequest new.id = some old) :
    r ∈ ((ProcurementWrite.setRequest new).apply
      t).procurementRequests ↔
        r = new ∨ (r ∈ t.procurementRequests ∧ r ≠ old ∧
          r.id ≠ new.id) := by
  have hMem := Table.mem_of_find hOld
  have hId : old.id = new.id := Table.key_of_find hOld
  constructor
  · intro hr
    rcases Table.mem_rewrite.mp hr with
      ⟨hr, hNe⟩ | ⟨_, _, _, rfl⟩
    · refine .inr ⟨hr, ?_, hNe⟩
      rintro rfl
      exact hNe hId
    · exact .inl rfl
  · rintro (rfl | ⟨hr, _, hNe⟩)
    · exact Table.mem_rewrite.mpr
        (.inr ⟨old, hMem, hId, rfl⟩)
    · exact Table.mem_rewrite.mpr (.inl ⟨hr, hNe⟩)

theorem findRequest_setRequest
    {new old : ProcurementRequest}
    (hOld : t.findRequest new.id = some old)
    (id : Uuid) :
    ((ProcurementWrite.setRequest new).apply t).findRequest id =
      if id = new.id then some new else t.findRequest id := by
  change Table.find ProcurementRequest.id id
    (Table.rewrite ProcurementRequest.id new.id (fun _ => new)
      t.procurementRequests) = _
  by_cases hId : id = new.id
  · subst hId
    rw [if_pos rfl]
    exact EventLog.find_turned_self hOld
  · rw [if_neg hId]
    exact EventLog.find_turned_of_ne hId

/- Whose final movement it is, after a change of state. -/
theorem isReceipt_setRequest
    {new old : ProcurementRequest}
    (hIds : (t.procurementRequests.map
      ProcurementRequest.id).Nodup)
    (hOld : t.findRequest new.id = some old)
    (hKeeps : old.finalMovementId = none ∨
      new.finalMovementId = old.finalMovementId)
    {o : Uuid} :
    IsReceipt ((ProcurementWrite.setRequest new).apply t) o ↔
      IsReceipt t o ∨ new.finalMovementId = some o := by
  constructor
  · rintro ⟨r, hr, hFinal⟩
    rcases (mem_setRequest hOld).mp hr with
      rfl | ⟨hr, _, _⟩
    · exact .inr hFinal
    · exact .inl ⟨r, hr, hFinal⟩
  · rintro (⟨r, hr, hFinal⟩ | hNew)
    · by_cases hId : r.id = new.id
      · have hSame : r = old := by
          have hFind := Table.find_of_mem hIds hr
          rw [hId] at hFind
          exact Option.some.inj (hFind.symm.trans hOld)
        subst hSame
        rcases hKeeps with hNone | hKept
        · cases hNone.symm.trans hFinal
        · exact ⟨new, (mem_setRequest hOld).mpr (.inl rfl),
            hKept.trans hFinal⟩
      · refine ⟨r, (mem_setRequest hOld).mpr
          (.inr ⟨hr, ?_, hId⟩), hFinal⟩
        rintro rfl
        exact hId (Table.key_of_find hOld)
    · exact ⟨new, (mem_setRequest hOld).mpr (.inl rfl),
        hNew⟩

/- A request in a new state keeps its binding. -/
theorem setRequest_changes
    {new old : ProcurementRequest}
    (hOld : t.findRequest new.id = some old)
    (hOldState : completionState old = true)
    (hBinds : Place.Binds old new)
    (hState : completionState new = true)
    (hFree : ∀ o, new.finalMovementId = some o →
      old.finalMovementId ≠ some o → ¬ IsReceipt t o)
    (hReceivable : Receivable new t) :
    tables.Changes (requestPlaces new t)
      (ProcurementWrite.setRequest new).apply t := by
  have hKeeps : old.finalMovementId = none ∨
      new.finalMovementId = old.finalMovementId := by
    by_cases hCompleted : old.status = .completed
    · exact .inr (hBinds hCompleted).2.1
    · unfold completionState at hOldState
      rw [if_neg hCompleted] at hOldState
      simp only [decide_eq_true_eq, Option.isNone_iff_eq_none]
        at hOldState
      exact .inl hOldState.1
  have hFound : ∀ t', tables.Later (requestPlaces new t)
      t t' → t'.findRequest new.id = some old :=
    fun t' hLater => (hLater.same (.request new.id)
      (.inl rfl)).trans hOld
  have hReceipt : ∀ t', tables.Later (requestPlaces new t)
      t t' → ∀ o, new.finalMovementId = some o →
        (old.finalMovementId = some o ∨
          ¬ IsReceipt t' o) ∧ ¬ Adjusted t' o := by
    intro t' hLater o ho
    by_cases hBound : old.finalMovementId = some o
    · have hIs : IsReceipt t' o :=
        ⟨old, Table.mem_of_find (hFound t' hLater), hBound⟩
      exact ⟨.inl hBound, hLater.inv.unadjusted o hIs⟩
    · have hNot := hFree o ho hBound
      have hSame := look_receipt_iff.mp (hLater.same
        (.receipt o) (.inr ⟨o, ho, hNot, rfl⟩))
      rw [hSame.1, hSame.2]
      exact ⟨.inr hNot, hReceivable o ho hNot⟩
  constructor
  · intro t' hLater
    have hInv := hLater.inv
    have hMem := fun r =>
      @mem_setRequest t' new old r (hFound t' hLater)
    have hOldMem := Table.mem_of_find (hFound t' hLater)
    have hApart : ∀ r ∈ t'.procurementRequests, r ≠ old →
        ∀ o, r.finalMovementId = some o →
          new.finalMovementId ≠ some o := by
      intro r hr hNe o ho hNew
      rcases (hReceipt t' hLater o hNew).1 with hBound | hNot
      · exact hNe (hInv.single r hr old hOldMem o ho hBound)
      · exact hNot ⟨r, hr, ho⟩
    refine ⟨?_, ?_, ?_, ?_, hInv.counted⟩
    · have hIds : (Table.rewrite ProcurementRequest.id new.id
          (fun _ => new) t'.procurementRequests).map
            ProcurementRequest.id =
          t'.procurementRequests.map ProcurementRequest.id := by
        unfold Table.rewrite
        rw [List.map_map]
        apply List.map_congr_left
        intro r _
        rw [Function.comp_apply]
        split
        · rename_i hEq
          exact hEq.symm
        · rfl
      change ((Table.rewrite _ _ _ _).map _).Nodup
      rw [hIds]
      exact hInv.ids
    · intro r hr
      rcases (hMem r).mp hr with rfl | ⟨hr, _⟩
      · exact hState
      · exact hInv.state r hr
    · intro r hr r' hr' o ho ho'
      rcases (hMem r).mp hr with hNew | ⟨hOldMem, hNe, _⟩ <;>
        rcases (hMem r').mp hr' with
          hNew' | ⟨hOldMem', hNe', _⟩
      · rw [hNew, hNew']
      · rw [hNew] at ho
        exact absurd ho (hApart r' hOldMem' hNe' o ho')
      · rw [hNew'] at ho'
        exact absurd ho' (hApart r hOldMem hNe o ho)
      · exact hInv.single r hOldMem r' hOldMem' o ho ho'
    · intro o ho hAdjusted
      rcases (isReceipt_setRequest hInv.ids (hFound t' hLater)
          hKeeps).mp ho with hBefore | hNew
      · exact hInv.unadjusted o hBefore hAdjusted
      · exact (hReceipt t' hLater o hNew).2 hAdjusted
  · intro t' hLater i hi
    cases i with
    | receipt o =>
        refine look_receipt_iff.mpr ⟨?_, Iff.rfl⟩
        rw [isReceipt_setRequest hLater.inv.ids
          (hFound t' hLater) hKeeps]
        refine or_iff_left_of_imp fun hNew => ?_
        by_cases hBound : old.finalMovementId = some o
        · exact ⟨old, Table.mem_of_find (hFound t' hLater),
            hBound⟩
        · exact absurd (.inr ⟨o, hNew, hFree o hNew hBound,
            rfl⟩) hi
    | request id =>
        change Db.findRequest _ id = t'.findRequest id
        rw [findRequest_setRequest (hFound t' hLater), if_neg]
        rintro rfl
        exact hi (.inl rfl)
    | header id => rfl
    | lines id => rfl
  · rintro t' hLater i (rfl | ⟨o, ho, hNot, rfl⟩)
    · change Db.findRequest _ _ = Db.findRequest _ _
      rw [findRequest_setRequest (hFound t' hLater),
        findRequest_setRequest hOld, if_pos rfl, if_pos rfl]
    · have hSame := look_receipt_iff.mp (hLater.same
        (.receipt o) (.inr ⟨o, ho, hNot, rfl⟩))
      have hNow : ∀ db : Db, new ∈ ((ProcurementWrite.setRequest
          new).apply db).procurementRequests →
            IsReceipt ((ProcurementWrite.setRequest new).apply
              db) o :=
        fun db hNew => ⟨new, hNew, ho⟩
      have hMem : ∀ db : Db, db.findRequest new.id = some old →
          new ∈ ((ProcurementWrite.setRequest
            new).apply db).procurementRequests :=
        fun db hFind => Table.mem_rewrite.mpr (.inr ⟨old,
          Table.mem_of_find hFind, Table.key_of_find hFind,
            rfl⟩)
      exact look_receipt_iff.mpr
        ⟨iff_of_true (hNow t' (hMem t' (hFound t' hLater)))
          (hNow t (hMem t hOld)), hSame.2⟩
  · rintro i (rfl | ⟨o, _, _, rfl⟩)
    · intro r hr
      have hSame : r = old :=
        Option.some.inj (hr.symm.trans hOld)
      refine ⟨new, ?_, hSame ▸ hBinds⟩
      exact (findRequest_setRequest hOld new.id).trans
        (if_pos rfl)
    · trivial

------------------------------------------------------------
-- Revisions
------------------------------------------------------------

/- A revision is inserted under an id that is free. -/
theorem newRevision_changes
    {new : ProcurementRevision}
    (hNone : findRevision new.id t = none) :
    tables.Changes {.header new.id}
      (ProcurementWrite.newRevision new).apply t := by
  have hFind : ∀ t', findRevision new.id t' = none →
      ∀ id, findRevision id
        ((ProcurementWrite.newRevision new).apply t') =
          if id = new.id then some new
          else findRevision id t' := by
    intro t' hNone' id
    change Table.find ProcurementRevision.id id
      (t'.procurementRevisions ++ [new]) = _
    by_cases hId : id = new.id
    · subst hId
      rw [Table.find_append_of_none hNone', if_pos rfl]
      simp [Table.find]
    · rw [if_neg hId]
      cases hOld : findRevision id t' with
      | some r => exact Table.find_append_of_some hOld
      | none =>
          rw [Table.find_append_of_none hOld]
          simp [Table.find, Ne.symm hId]
  have hNone' : ∀ t', tables.Later {.header new.id} t t' →
      findRevision new.id t' = none :=
    fun t' hLater => (hLater.same (.header new.id) rfl).trans
      hNone
  constructor
  · intro t' hLater
    have hInv := hLater.inv
    refine ⟨hInv.ids, hInv.state, hInv.single,
      hInv.unadjusted, fun id hPublished => ?_⟩
    rcases hInv.counted id hPublished with
      ⟨revision, hOld, hCount⟩
    refine ⟨revision, ?_, hCount⟩
    rw [hFind t' (hNone' t' hLater), if_neg]
    · exact hOld
    · rintro rfl
      cases (hNone' t' hLater).symm.trans hOld
  · intro t' hLater i hi
    cases i with
    | header id =>
        refine (hFind t' (hNone' t' hLater) id).trans
          (if_neg ?_)
        rintro rfl
        exact hi rfl
    | receipt o => rfl
    | request id => rfl
    | lines id => rfl
  · rintro t' hLater i rfl
    change findRevision _ _ = findRevision _ _
    rw [hFind t' (hNone' t' hLater), hFind t hNone, if_pos rfl,
      if_pos rfl]
  · rintro i rfl r hr
    cases hNone.symm.trans hr

/- No line is added to a published revision. -/
theorem newLine_changes
    {new : ProcurementRevisionLine}
    (hOpen : ¬ Published new.revisionId t) :
    tables.Changes {.lines new.revisionId}
      (ProcurementWrite.newLine new).apply t := by
  have hLines : ∀ t' id, linesOfRevision id
      ((ProcurementWrite.newLine new).apply t') =
        linesOfRevision id t' ++
          if new.revisionId = id then [new] else [] := by
    intro t' id
    unfold linesOfRevision
    change (t'.procurementRevisionLines ++ [new]).filter _ = _
    rw [List.filter_append, List.filter_singleton]
    simp
  have hOpen' : ∀ t', tables.Later {.lines new.revisionId}
      t t' → ¬ Published new.revisionId t' :=
    fun t' hLater => (look_lines_iff.mp
      (hLater.same (.lines new.revisionId) rfl)).1.not.mpr hOpen
  constructor
  · intro t' hLater
    have hInv := hLater.inv
    refine ⟨hInv.ids, hInv.state, hInv.single,
      hInv.unadjusted, fun id hPublished => ?_⟩
    have hNe : new.revisionId ≠ id := by
      rintro rfl
      exact hOpen' t' hLater hPublished
    rw [hLines, if_neg hNe, List.append_nil]
    exact hInv.counted id hPublished
  · intro t' hLater i hi
    cases i with
    | lines id =>
        refine look_lines_iff.mpr ⟨Iff.rfl, ?_⟩
        rw [hLines, if_neg, List.append_nil]
        rintro rfl
        exact hi rfl
    | receipt o => rfl
    | request id => rfl
    | header id => rfl
  · rintro t' hLater i rfl
    have hSame := look_lines_iff.mp
      (hLater.same (.lines new.revisionId) rfl)
    refine look_lines_iff.mpr ⟨hSame.1, ?_⟩
    rw [hLines, hLines, hSame.2]
  · rintro i rfl hPublished
    exact absurd hPublished hOpen

/- The places that a new event changes. -/
def eventPlaces (new : ProcurementEvent) : Set Place :=
  {i | ∃ id, PublishedBy new id ∧ i = .lines id}

theorem published_newEvent
    {new : ProcurementEvent}
    {id : Uuid} :
    Published id ((ProcurementWrite.newEvent new).apply t) ↔
      Published id t ∨ PublishedBy new id := by
  constructor
  · rintro ⟨e, he, hBy⟩
    rcases List.mem_append.mp he with he | he
    · exact .inl ⟨e, he, hBy⟩
    · cases List.mem_singleton.mp he
      exact .inr hBy
  · rintro (⟨e, he, hBy⟩ | hNew)
    · exact ⟨e, List.mem_append_left _ he, hBy⟩
    · exact ⟨new, List.mem_append_right _
        (List.mem_singleton_self _), hNew⟩

/- A revision is published when it has all its lines. -/
theorem newEvent_changes
    {new : ProcurementEvent}
    (hCounted : ∀ id, PublishedBy new id →
      ∃ revision, findRevision id t = some revision ∧
        (linesOfRevision id t).length = revision.lineCount) :
    tables.Changes (eventPlaces new)
      (ProcurementWrite.newEvent new).apply t := by
  constructor
  · intro t' hLater
    have hInv := hLater.inv
    refine ⟨hInv.ids, hInv.state, hInv.single,
      hInv.unadjusted, fun id hPublished => ?_⟩
    rcases published_newEvent.mp hPublished with hOld | hNew
    · exact hInv.counted id hOld
    · rcases hCounted id hNew with ⟨revision, hFind, hCount⟩
      have hSame := look_lines_iff.mp
        (hLater.same (.lines id) ⟨id, hNew, rfl⟩)
      refine ⟨revision,
        hLater.follows (.header id) revision hFind, ?_⟩
      change (linesOfRevision id t').length = _
      rw [hSame.2]
      exact hCount
  · intro t' hLater i hi
    cases i with
    | lines id =>
        refine look_lines_iff.mpr ⟨?_, rfl⟩
        rw [published_newEvent]
        exact or_iff_left fun hNew => hi ⟨id, hNew, rfl⟩
    | receipt o => rfl
    | request id => rfl
    | header id => rfl
  · rintro t' hLater i ⟨id, hNew, rfl⟩
    have hSame := look_lines_iff.mp
      (hLater.same (.lines id) ⟨id, hNew, rfl⟩)
    exact look_lines_iff.mpr
      ⟨iff_of_true (published_newEvent.mpr (.inr hNew))
        (published_newEvent.mpr (.inr hNew)), hSame.2⟩
  · rintro i ⟨id, hNew, rfl⟩ _
    exact ⟨published_newEvent.mpr (.inr hNew), rfl⟩

end Writes

end Procurement
