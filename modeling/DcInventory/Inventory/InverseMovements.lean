import DcInventory.Inventory.Bookings
import DcInventory.Inventory.ExactlyOnce

/-
  This file proves that a reversal takes back exactly what its
  original did, whoever else is active: when it commits, it
  changes each balance by the opposite, and from then on the
  balances are as if neither of the two had been made.

  Key definitions include:
    * `Db.stockWithout`
    * `Db.custodyWithout`
    * `UndoneBy`

  Key theorems include:
    * `undoneBy_of_valid`
    * `reversal_books`
    * `reversals_are_exact_inverses`
-/

------------------------------------------------------------
-- Balances Without A Pair
------------------------------------------------------------

namespace Db

/- The movements except for two of them. -/
def without
    (db : Db)
    (r m : Movement) : List Movement :=
  db.movements.filter (fun x => x.id ≠ r.id ∧ x.id ≠ m.id)

/- The stock if two movements had not been made. -/
def stockWithout
    (db : Db)
    (r m : Movement)
    (item location : Uuid) : Int :=
  ((db.without r m).map (fun x =>
    db.stockShare x item location)).sum

def custodyWithout
    (db : Db)
    (r m : Movement)
    (user item : Uuid) : Int :=
  ((db.without r m).map (fun x =>
    db.custodyShare x user item)).sum

end Db

/-
  The movement is undone by its one reversal, which nothing
  adjusts; the balances are as if there had been neither.
-/
structure UndoneBy
    (db : Db)
    (m r : Movement) : Prop where
  opposes : Opposes db r m
  original : m.movementType ≠ .reversal
  only : ∀ r' ∈ db.movements, r'.movementType = .reversal →
    r'.originalMovementId = some m.id → r' = r
  final : ∀ r' ∈ db.movements, r'.originalMovementId ≠ some r.id
  noReceipt : ¬ IsReceipt db m.id
  stock : ∀ item location,
    (db.stockQuantity item location : Int) =
      db.stockWithout r m item location
  custody : ∀ user item,
    (db.custodyQuantity user item : Int) =
      db.custodyWithout r m user item

section Undone

variable {db : Db}
variable {r m : Movement}

/- A sum over movements, split at two of them. -/
theorem sum_without
    (hIds : (db.movements.map Movement.id).Nodup)
    (hr : r ∈ db.movements)
    (hm : m ∈ db.movements)
    (hNe : r.id ≠ m.id)
    (f : Movement → Int) :
    (db.movements.map f).sum =
      f r + f m + ((db.without r m).map f).sum := by
  have hOne : ∀ x ∈ db.movements,
      (db.movements.map (fun y =>
        if y.id = x.id then f y else 0)).sum = f x := by
    intro x hx
    rw [Table.sum_map_ite_key hIds x.id f,
      Table.find_of_mem hIds hx]
    rfl
  have hSplit : ∀ x : Movement, f x =
      (if x.id = r.id then f x else 0) +
        (if x.id = m.id then f x else 0) +
          (if x.id ≠ r.id ∧ x.id ≠ m.id then f x else 0) := by
    intro x
    by_cases hR : x.id = r.id
    · simp [hR, hNe]
    · by_cases hM : x.id = m.id
      · simp [hM, Ne.symm hNe]
      · simp [hR, hM]
  have hRest : ((db.without r m).map f).sum =
      (db.movements.map (fun x =>
        if x.id ≠ r.id ∧ x.id ≠ m.id then f x else 0)).sum := by
    unfold Db.without
    rw [Table.sum_map_filter]
    simp only [decide_eq_true_eq]
  rw [List.map_congr_left fun x _ => hSplit x,
    List.sum_map_add, List.sum_map_add, hOne r hr, hOne m hm,
    hRest]

/- In a valid warehouse a reversal undoes its original. -/
theorem undoneBy_of_valid
    (hInv : warehouse.inv db)
    (hr : r ∈ db.movements)
    (hm : m ∈ db.movements)
    (hType : r.movementType = .reversal)
    (hOriginal : r.originalMovementId = some m.id) :
    UndoneBy db m r := by
  have hValid := hInv.1
  have hJournal := hValid.journal
  have hOpposes := hJournal.opposes_of_reversal hr hm hType
    hOriginal
  have hTarget : ∀ x ∈ db.movements, ∀ y ∈ db.movements,
      x.originalMovementId = some y.id →
        y.movementType ≠ .reversal := by
    intro x hx y hy hLinked
    rcases hJournal.links x hx y.id hLinked with
      ⟨original, hMem, hId, hLink⟩
    rw [← List.inj_on_of_nodup_map hJournal.ids hMem hy hId]
    exact hLink.target
  have hNe : r.id ≠ m.id := by
    intro hEq
    have hSame := List.inj_on_of_nodup_map hJournal.ids hr hm hEq
    exact hTarget r hr m hm hOriginal (hSame ▸ hType)
  exact {
    opposes := hOpposes
    original := hTarget r hr m hm hOriginal
    only := fun r' hr' hType' hOriginal' =>
      hJournal.reversals r' hr' r hr hType' hType
        (hOriginal'.trans hOriginal.symm)
    final := fun r' hr' hLinked =>
      hTarget r' hr' r hr hLinked hType
    noReceipt := fun hReceipt =>
      hInv.2.unadjusted m.id hReceipt r hr hOriginal
    stock := by
      intro item location
      rw [hValid.balances.stock, hJournal.journalStock_eq_sum,
        sum_without hJournal.ids hr hm hNe,
        hOpposes.stock item location]
      unfold Db.stockWithout
      omega
    custody := by
      intro user item
      rw [hValid.balances.custody,
        hJournal.journalCustody_eq_sum,
        sum_without hJournal.ids hr hm hNe,
        hOpposes.custody user item]
      unfold Db.custodyWithout
      omega }

end Undone

------------------------------------------------------------
-- Reversals
------------------------------------------------------------

section Reversals

variable {τ : Type}
variable [DecidableEq τ]
variable {sha256 : Text → Text}
variable {S S₁ S₂ : WarehouseSystem τ}
variable {t : τ}
variable {env : MovementEnv}

theorem warehouse_systemInv
    (hReach : WarehouseReachable sha256 S) :
    warehouse.SystemInv (fun _ _ => True) (fun _ _ _ => True)
      S :=
  Discipline.systemInv_of_reachable
    (fun _ h => warehouseClient_safe h) (fun _ h => h) hReach

/- A request that commits has booked its movement. -/
theorem executes_books
    {request : MovementRequest}
    {record : MovementRecord}
    (hReach : WarehouseReachable sha256 S)
    (hExec : RequestExecutes sha256 t env request
      (.ok (some ⟨record, false⟩)) S S₁ S₂) :
    WarehouseValid S₁.committed ∧
    ∃ call, request.CallIn S₁.committed call ∧
      Books S₁.committed S₂.committed env call record.movement
        record.lines := by
  have hInv := warehouse_systemInv hReach
  have hWlp : (some <$> request.program env).wlp warehouse
      (fun r held own s => ∃ r', r = r'.map some ∧
        RequestPost warehouse S.committed env request r' held
          own s) [] id S.committed :=
    Txn.wlp_map (Txn.wlp_imp
      (fun r _ _ _ _ h => ⟨r, rfl, h⟩)
      (wlp_request governs_warehouse hInv.inv env request))
  rcases Discipline.outcome_of_wlp
      (fun _ h => warehouseClient_safe h) hInv hExec hWlp with
    ⟨held, own, ⟨r', hResult, hPost⟩, hCommitted⟩
  cases r' with
  | error e => cases hResult
  | ok result =>
      cases hResult
      rcases hPost with ⟨hReach₁, call, hCall, hOutcome⟩
      cases hOutcome with
      | written hWritten =>
          change S₂.committed = bookedWith _ _ _ _
            at hCommitted
          rw [hCommitted]
          exact ⟨hReach₁.inv.1, call, hCall,
            hWritten.books hReach₁.inv.1⟩

theorem originalOf_eq
    {db : Db}
    {m r : Movement}
    (hJournal : JournalValid db)
    (hMem : m ∈ db.movements)
    (hOriginal : r.originalMovementId = some m.id) :
    db.originalOf r = some m := by
  unfold Db.originalOf
  rw [hOriginal]
  exact hJournal.find_of_mem hMem

/- Old movements keep their originals. -/
theorem Books.originalOf_kept
    {s s' : Db}
    {call : MovementCall}
    {new m : Movement}
    {rows : List MovementLine}
    (h : Books s s' env call new rows)
    (hValid : WarehouseValid s)
    (hMem : m ∈ s.movements) :
    s'.originalOf m = s.originalOf m := by
  cases hLinked : m.originalMovementId with
  | none =>
      unfold Db.originalOf
      rw [hLinked]
      rfl
  | some o =>
      rcases hValid.journal.links m hMem o hLinked with
        ⟨original, hOld, rfl, _⟩
      rw [originalOf_eq hValid.journal hOld hLinked,
        originalOf_eq h.valid.journal (h.mem_of_mem hOld) hLinked]

/- The movement that a reversal takes back. -/
structure TakesBack
    (s s' : Db)
    (m r : Movement) : Prop where
  mem : m ∈ s.movements
  new : r ∉ s.movements
  booked : r ∈ s'.movements
  kept : ∀ x ∈ s.movements, x ∈ s'.movements
  reversal : r.movementType = .reversal
  original : r.originalMovementId = some m.id
  stock : ∀ item location,
    (s'.stockQuantity item location : Int) =
      s.stockQuantity item location - s.stockShare m item location
  custody : ∀ user item,
    (s'.custodyQuantity user item : Int) =
      s.custodyQuantity user item - s.custodyShare m user item

/- A reversal that commits takes its original back. -/
theorem reversal_books
    {originalMovementId : Uuid}
    {payload : MovementReversalCreate}
    {actorUserId : Uuid}
    {actorDisplayName : Text}
    {record : MovementRecord}
    (hReach : WarehouseReachable sha256 S)
    (hExec : RequestExecutes sha256 t env
      (.reverse originalMovementId payload actorUserId
        actorDisplayName) (.ok (some ⟨record, false⟩)) S S₁
          S₂) :
    ∃ m, m.id = originalMovementId ∧
      TakesBack S₁.committed S₂.committed m record.movement := by
  rcases executes_books hReach hExec with
    ⟨hValid, call, ⟨m, hFind, hCall⟩, hBooks⟩
  have hFields := reversalFields_of_reversalCall hCall
  have hMem := Table.mem_of_find hFind
  have hAfter := hBooks.valid.journal
  have hKept : ∀ x ∈ S₁.committed.movements,
      x ∈ S₂.committed.movements :=
    fun _ hx => hBooks.mem_of_mem hx
  have hNew : record.movement ∈ S₂.committed.movements := by
    rw [hBooks.movements]
    exact List.mem_append_right _ (List.mem_singleton_self _)
  have hType : record.movement.movementType = .reversal :=
    hBooks.movementType.trans hFields.built.movementType
  have hOriginal : record.movement.originalMovementId =
      some m.id :=
    hBooks.original.trans hFields.built.original
  have hOpposes := hAfter.opposes_of_reversal hNew (hKept m hMem)
    hType hOriginal
  have hLines := hBooks.linesOf_of_mem hValid hMem
  exact ⟨m, Table.key_of_find hFind, {
    mem := hMem
    new := fun hOld => Table.find_eq_none_iff.mp hBooks.fresh
      record.movement hOld rfl
    booked := hNew
    kept := hKept
    reversal := hType
    original := hOriginal
    stock := by
      intro item location
      have hShare := hOpposes.stock item location
      unfold Db.stockShare at hShare ⊢
      rw [hBooks.own, hLines] at hShare
      rw [hBooks.stock, hShare, sub_eq_add_neg]
    custody := by
      intro user item
      have hShare := hOpposes.custody user item
      unfold Db.custodyShare at hShare ⊢
      rw [hBooks.own, hLines, hBooks.originalOf_kept hValid hMem,
        originalOf_eq hAfter (hKept m hMem) hOriginal] at hShare
      rw [hBooks.custody, originalOf_eq hValid.journal hMem
        hOriginal, hShare, sub_eq_add_neg] }⟩

/-
  However clients are interleaved, every reversal undoes its
  original: the balances are as if there had been neither of
  them. When one commits it changes each balance by the
  opposite of what its original did, whatever was committed
  in between, and the two stay as they are.
-/
theorem reversals_are_exact_inverses
    (hReach : WarehouseReachable sha256 S) :
    (∀ r ∈ S.committed.movements, ∀ m ∈ S.committed.movements,
      r.movementType = .reversal →
        r.originalMovementId = some m.id →
          UndoneBy S.committed m r) ∧
    ∀ t env originalMovementId payload actorUserId
        actorDisplayName record S₁ S₂,
      RequestExecutes sha256 t env
        (.reverse originalMovementId payload actorUserId
          actorDisplayName) (.ok (some ⟨record, false⟩)) S S₁
            S₂ →
      ∃ m, m.id = originalMovementId ∧
        TakesBack S₁.committed S₂.committed m record.movement ∧
        ∀ S₃, WarehouseSteps sha256 S₂ S₃ →
          UndoneBy S₃.committed m record.movement := by
  refine ⟨fun r hr m hm hType hOriginal =>
    undoneBy_of_valid (warehouse_systemInv hReach).inv hr hm
      hType hOriginal, ?_⟩
  intro t env o payload actor name record S₁ S₂ hExec
  rcases reversal_books hReach hExec with ⟨m, hId, hBack⟩
  refine ⟨m, hId, hBack, fun S₃ hSteps => ?_⟩
  have hInv₂ := warehouse_systemInv (hReach.steps hExec.steps)
  have hInv₃ := hInv₂.steps
    (fun _ h => warehouseClient_safe h) hSteps
  have hAppends := (hInv₂.reach_of_steps
    (fun _ h => warehouseClient_safe h) hSteps).always
  exact undoneBy_of_valid hInv₃.inv
    (hAppends.movements _ hBack.booked)
    (hAppends.movements _ (hBack.kept m hBack.mem))
    hBack.reversal hBack.original

end Reversals

------------------------------------------------------------
-- A First Reversal
------------------------------------------------------------

namespace FirstReceipt

/- The request that takes the first receipt back. -/
def reversal : MovementRequest :=
  .reverse env.movementId
    ⟨"second key".toList, by decide, by decide⟩
    storekeeper.id "Storekeeper".toList

def reversalEnv : MovementEnv :=
  { env with movementId := ⟨5⟩ }

end FirstReceipt

/- The first receipt is taken back. -/
theorem reversals_are_exact_inverses_receipt :
    ∃ S₁ S₂ record m,
      RequestExecutes id () FirstReceipt.reversalEnv
        FirstReceipt.reversal (.ok (some ⟨record, false⟩))
        (FirstReceipt.quiet FirstReceipt.received) S₁ S₂ ∧
      UndoneBy S₂.committed m record.movement := by
  have hRun : ∃ record s', (FirstReceipt.reversal.program
      FirstReceipt.reversalEnv).run FirstReceipt.received =
        .ok (⟨record, false⟩, s') := ⟨_, _, rfl⟩
  rcases hRun with ⟨record, s', hRun⟩
  rcases FirstReceipt.receipt_executes with ⟨S₀, hFirst⟩
  rcases request_executes () hRun with ⟨S₁, hExec⟩
  have hReach := FirstReceipt.start_reachable.steps hFirst.steps
  rcases (reversals_are_exact_inverses hReach).2 () _ _ _ _ _ _ _
    _ hExec with ⟨m, _, _, hStays⟩
  exact ⟨S₁, _, record, m, hExec, hStays _ .refl⟩
