import DcInventory.Inventory.Projections
import DcInventory.Inventory.Reversal
import DcInventory.Library.Tally
import Mathlib.Algebra.BigOperators.Ring.Finset

/-
  This file says what a movement that was booked alone has
  done to the journal and to the balances.

  Key definitions include:
    * `Books`

  Key theorems include:
    * `Books.stock_of_receipt`
    * `createMovement_books`
    * `request_books`
-/

variable {s s' : Db}
variable {env : MovementEnv}
variable {call : MovementCall}
variable {m : Movement}
variable {rows : List MovementLine}

------------------------------------------------------------
-- Booked Movements
------------------------------------------------------------

/- The movement of a call was booked with its lines. -/
structure Books
    (s s' : Db)
    (env : MovementEnv)
    (call : MovementCall)
    (m : Movement)
    (rows : List MovementLine) : Prop where
  id : m.id = env.movementId
  movementType : m.movementType = call.payload.movementType
  source : m.sourceLocationId = call.payload.sourceLocationId
  destination : m.destinationLocationId =
    call.payload.destinationLocationId
  original : m.originalMovementId =
    call.payload.originalMovementId
  holder : m.custodyUserId = call.custodyUserId
  actor : m.actorUserId = call.actorUserId
  pairs : (linePairs rows).Perm
    (call.payload.lines.map MovementLineCreate.pair)
  distinct : (rows.map MovementLine.itemId).Nodup
  fresh : s.findMovement m.id = none
  notReceipt : ∀ o, m.originalMovementId = some o →
    ¬ IsReceipt s o
  movements : s'.movements = s.movements ++ [m]
  lines : s'.movementLines = s.movementLines ++ rows
  header : ∀ l ∈ rows, l.movementId = m.id
  own : s'.linesOf m.id = rows
  valid : WarehouseValid s'
  stock : ∀ item location,
    (s'.stockQuantity item location : Int) =
      s.stockQuantity item location +
        m.stockEffect rows item location
  custody : ∀ user item,
    (s'.custodyQuantity user item : Int) =
      s.custodyQuantity user item +
        m.custodyEffect (s.originalOf m) rows user item

theorem Written.books
    {requestId : Text}
    {prepared : Prepared}
    {ws : List BalanceWrite}
    {held : List Lock}
    (h : Written env call requestId prepared m rows ws held s)
    (hValid : WarehouseValid s) :
    Books s (bookedWith m rows ws s) env call m rows := by
  have hAdmissible := h.booked.admissible
  have hAfter := h.valid hValid
  have hPlaced := h.booked.placed
  have hRows := h.booked.rowsOk
  rcases h.booked.row with ⟨actorSnapshot, hRow⟩
  have hLink : ∀ o, m.originalMovementId = some o →
      ∃ original, s.findMovement o = some original :=
    fun o ho => by
      rcases hAdmissible.link o ho with ⟨original, hFind, _⟩
      exact ⟨original, hFind⟩
  refine {
    id := by rw [hRow]; rfl
    movementType := by rw [hRow]; rfl
    source := by rw [hRow]; rfl
    destination := by rw [hRow]; rfl
    original := by rw [hRow]; rfl
    holder := by rw [hRow]; rfl
    actor := by rw [hRow]; rfl
    pairs := hRows.perm
    distinct := hAdmissible.rows.distinct
    fresh := hAdmissible.freshId
    notReceipt := ?_
    movements := movements_bookedWith
    lines := ?_
    header := hAdmissible.rows.header
    own := ?_
    valid := hAfter
    stock := ?_
    custody := ?_ }
  · intro o ho
    rw [hRow] at ho
    exact hPlaced.noReceipt o ho
  · rw [bookedWith, BalanceWrite.movementLines_applyAll]
    rfl
  · rw [bookedWith, BalanceWrite.linesOf_applyAll]
    exact Db.linesOf_withMovement_self hValid.journal
      hAdmissible.freshId hAdmissible.rows.header
  · intro item location
    rw [hAfter.balances.stock, hValid.balances.stock,
      bookedWith, BalanceWrite.journalStock_applyAll]
    exact Db.journalStock_withMovement hValid.journal
      hAdmissible.freshId hAdmissible.rows.header item location
  · intro user item
    rw [hAfter.balances.custody, hValid.balances.custody,
      bookedWith, BalanceWrite.journalCustody_applyAll]
    exact Db.journalCustody_withMovement hValid.journal
      hAdmissible.freshId hAdmissible.rows.header hLink user item

namespace Books

/- What was there before is there still. -/
theorem mem_of_mem
    (h : Books s s' env call m rows)
    {m' : Movement}
    (hMem : m' ∈ s.movements) :
    m' ∈ s'.movements := by
  rw [h.movements]
  exact List.mem_append_left _ hMem

theorem linesOf_of_mem
    (h : Books s s' env call m rows)
    (hValid : WarehouseValid s)
    {m' : Movement}
    (hMem : m' ∈ s.movements) :
    s'.linesOf m'.id = s.linesOf m'.id := by
  have hNe : m.id ≠ m'.id := by
    intro hEq
    have hFind := hValid.journal.find_of_mem hMem
    rw [← hEq, h.fresh] at hFind
    cases hFind
  have hLines : s'.linesOf m'.id =
      (s.withMovement m rows).linesOf m'.id := by
    unfold Db.linesOf Db.withMovement
    rw [h.lines]
  rw [hLines]
  exact Db.linesOf_withMovement_of_ne h.header hNe

/- A receipt adds its quantities where it goes. -/
theorem stock_of_receipt
    (h : Books s s' env call m rows)
    {locationId : Uuid}
    (hSource : call.payload.sourceLocationId = none)
    (hDestination : call.payload.destinationLocationId =
      some locationId)
    (item location : Uuid) :
    s'.stockQuantity item location =
      s.stockQuantity item location +
        if location = locationId then
          Tally.total item (call.payload.lines.map
            MovementLineCreate.pair)
        else 0 := by
  have hStock := h.stock item location
  have hChange : ∀ l : MovementLine, m.stockChange location l =
      ((if location = locationId then l.quantity else 0 : Nat) :
        Int) := by
    intro l
    unfold Movement.stockChange
    rw [h.source, h.destination, hSource, hDestination]
    by_cases hLocation : location = locationId
    · simp [hLocation]
    · simp [hLocation, Ne.symm hLocation]
  have hEffect : m.stockEffect rows item location =
      ((if location = locationId then
        Tally.total item (linePairs rows) else 0 : Nat) :
          Int) := by
    unfold Movement.stockEffect Tally.total linePairs
    rw [List.filter_map, List.map_map, List.map_congr_left
      (fun l _ => hChange l)]
    by_cases hLocation : location = locationId
    · simp [hLocation, Nat.cast_list_sum, Function.comp_def]
    · simp [hLocation]
  rw [hEffect, Tally.total_perm h.pairs] at hStock
  exact_mod_cast hStock

/- What has no holder changes nobody's custody. -/
theorem custody_of_nobody
    (h : Books s s' env call m rows)
    (hNobody : call.custodyUserId = none)
    (user item : Uuid) :
    s'.custodyQuantity user item =
      s.custodyQuantity user item := by
  have hCustody := h.custody user item
  unfold Movement.custodyEffect at hCustody
  rw [h.holder, hNobody, if_neg (fun hEq => nomatch hEq),
    add_zero] at hCustody
  exact_mod_cast hCustody

end Books

------------------------------------------------------------
-- Runs
------------------------------------------------------------

/- What a call has done when it returned. -/
inductive Booking
    (env : MovementEnv)
    (call : MovementCall)
    (s : Db) : MovementResult → Db → Prop where
| booked
    {t : Db}
    {m : Movement}
    {rows : List MovementLine}
    (h : Books s t env call m rows) :
    Booking env call s ⟨⟨m, rows⟩, false⟩ t
| replayed
    {m : Movement}
    (h : Replays env call m s) :
    Booking env call s ⟨⟨m, s.linesOf m.id⟩, true⟩ s

theorem Outcome.booking
    {result : MovementResult}
    {held : List Lock}
    {own : Db → Db}
    (hValid : WarehouseValid s)
    (h : Outcome env call result held own s) :
    Booking env call s result (own s) := by
  cases h with
  | written hWritten => exact .booked (hWritten.books hValid)
  | replayed hReplays => exact .replayed hReplays

/- A call books its movement, or returns what it booked. -/
theorem createMovement_books
    {result : MovementResult}
    (hValid : WarehouseValid s)
    (hRun : (createMovement env call).run s =
      .ok (result, s')) :
    Booking env call s result s' := by
  have hD : Governs (Discipline.alone WarehouseValid) :=
    governs_alone fun _ h => h
  have hWlp : (createMovement env call).wlp
      (Discipline.alone WarehouseValid)
      (RequestPost (Discipline.alone WarehouseValid) s env
        (.create call)) [] id s := by
    by_cases hType : call.payload.movementType = .reversal
    · unfold createMovement
      rw [if_pos hType]
      apply Txn.wlp_fail
      rintro _ _ g ⟨⟩
    · have hCall : (MovementRequest.create call).CallIn s call :=
        ⟨rfl, hType⟩
      have hPure : createMovement env call =
          createMovement env call >>= pure :=
        (bind_pure _).symm
      rw [hPure]
      apply wlp_createMovement hD
        (allowed_requestPost (.refl hValid) hCall) (.refl hValid)
      · intro prepared m rows ws held s₁ h₁ hSub hWritten
        apply Txn.wlp_pure
        intro s₂ h₂
        exact ⟨h₁.trans (h₂.weaken fun _ hk => nomatch hk), call,
          ⟨rfl, hType⟩, .written (hWritten.stable hD h₁.inv h₂
            fun _ hk => hk)⟩
      · intro m held s₁ h₁ hSub hReplays
        apply Txn.wlp_pure
        intro s₂ h₂
        have hEq := Discipline.eq_of_reach_alone h₂
        subst hEq
        exact ⟨h₁, call, ⟨rfl, hType⟩, .replayed hReplays⟩
  have hEnds := Txn.wlp_run hValid hWlp
  rw [id_eq, hRun] at hEnds
  rcases hEnds with ⟨held, own, ⟨_, call', hCall, hOutcome⟩, rfl⟩
  rcases hCall with ⟨rfl, _⟩
  exact hOutcome.booking hValid

/- So does a request of a client, for the call it makes. -/
theorem request_books
    {request : MovementRequest}
    {result : MovementResult}
    (hValid : WarehouseValid s)
    (hRun : (request.program env).run s = .ok (result, s')) :
    ∃ call, request.CallIn s call ∧
      Booking env call s result s' := by
  have hEnds := request_run hValid env request
  rw [hRun] at hEnds
  rcases hEnds with ⟨held, own, ⟨_, call, hCall, hOutcome⟩, rfl⟩
  exact ⟨call, hCall, hOutcome.booking hValid⟩
