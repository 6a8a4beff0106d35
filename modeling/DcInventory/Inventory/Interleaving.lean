import DcInventory.Inventory.GuardAgreement

/-
  This file proves that warehouse transactions keep their
  side of the agreement, so that they can be interleaved.

  Key definitions include:
    * `KeepsWarehouse`
    * `Elsewhere`

  Key theorems include:
    * `Written.commits`
    * `Outcome.commits`
    * `elsewhere_safe`
    * `request_safe`
-/

------------------------------------------------------------
-- Booked Movements
------------------------------------------------------------

section Commit

variable {env : MovementEnv}
variable {call : MovementCall}
variable {requestId : Text}
variable {prepared : Prepared}
variable {rows : List MovementLine}
variable {m : Movement}
variable {ws : List BalanceWrite}
variable {held : List Lock}
variable {s : Db}

@[simp]
theorem movements_bookedWith :
    (bookedWith m rows ws s).movements = s.movements ++ [m] := by
  rw [bookedWith, BalanceWrite.movements_applyAll]
  rfl

@[simp]
theorem procurementRequests_bookedWith :
    (bookedWith m rows ws s).procurementRequests =
      s.procurementRequests := by
  rw [bookedWith, BalanceWrite.applyAll_eq]
  rfl

theorem isReceipt_bookedWith
    {o : Uuid} :
    IsReceipt (bookedWith m rows ws s) o ↔ IsReceipt s o := by
  unfold IsReceipt
  rw [procurementRequests_bookedWith]

/- A booked movement leaves what was there. -/
theorem Written.appends
    (hValid : WarehouseValid s)
    (h : Written env call requestId prepared m rows ws held
      s) :
    Appends s (bookedWith m rows ws s) where
  movements m' hm' := by
    rw [movements_bookedWith]
    exact List.mem_append_left _ hm'
  lines m' hm' := by
    have hAdmissible := h.booked.admissible
    rw [bookedWith, BalanceWrite.linesOf_applyAll]
    apply Db.linesOf_withMovement_of_ne hAdmissible.rows.header
    intro hEq
    have hFind := hValid.journal.find_of_mem hm'
    rw [← hEq, hAdmissible.freshId] at hFind
    cases hFind
  receipts _ _ hReceipt := isReceipt_bookedWith.mp hReceipt

/- Items without a line are left alone. -/
theorem Written.itemFixed
    (hValid : WarehouseValid s)
    (h : Written env call requestId prepared m rows ws held s)
    {item : Uuid}
    (hNone : ∀ l ∈ rows, l.itemId ≠ item) :
    ItemFixed item s (bookedWith m rows ws s) := by
  have hAdmissible := h.booked.admissible
  have hLink : ∀ o, m.originalMovementId = some o →
      ∃ original, s.findMovement o = some original := by
    intro o ho
    rcases hAdmissible.link o ho with ⟨original, hFind, _⟩
    exact ⟨original, hFind⟩
  constructor
  · intro location
    rw [bookedWith, BalanceWrite.journalStock_applyAll,
      Db.journalStock_withMovement hValid.journal
        hAdmissible.freshId hAdmissible.rows.header,
      Movement.stockEffect_eq_zero, add_zero]
    exact fun l hl hItem => absurd hItem (hNone l hl)
  · intro user
    rw [bookedWith, BalanceWrite.journalCustody_applyAll,
      Db.journalCustody_withMovement hValid.journal
        hAdmissible.freshId hAdmissible.rows.header hLink,
      Movement.custodyEffect_eq_zero, add_zero]
    exact fun l hl hItem => absurd hItem (hNone l hl)
  · intro location
    rw [bookedWith, BalanceWrite.stockQuantity_of_untouched]
    · rfl
    · intro q hq
      rcases h.refreshed.items _ hq with ⟨l, hl, hItem⟩
      exact hNone l hl hItem
  · intro user
    rw [bookedWith, BalanceWrite.custodyQuantity_of_untouched]
    · rfl
    · intro q hq
      rcases h.refreshed.items _ hq with ⟨l, hl, hItem⟩
      exact hNone l hl hItem

/- Only the booked movement is new. -/
theorem noneNew_bookedWith
    {P : Movement → Prop}
    (hNot : ¬ P m) :
    NoneNew P s (bookedWith m rows ws s) := by
  intro m' hm' hP
  rw [movements_bookedWith] at hm'
  rcases List.mem_append.mp hm' with hOld | hNew
  · exact hOld
  · rw [List.mem_singleton.mp hNew] at hP
    exact absurd hP hNot

/- A lock that is held excludes that of another. -/
theorem conflict_of_held
    {k : Lock}
    {r : Resource}
    (hShared : k.shared = false)
    (hResource : k.resource = r)
    (hFree : ∀ k' ∈ held, ¬ Lock.modes.conflict k k')
    (hHeld : .exclusive r ∈ held) :
    False := by
  apply hFree _ hHeld
  refine ⟨hResource, ?_⟩
  simp [hShared]

/- A booked movement respects what others have locked. -/
theorem Written.protects
    (hValid : WarehouseValid s)
    (h : Written env call requestId prepared m rows ws held s)
    {k : Lock}
    (hFree : ∀ k' ∈ held, ¬ Lock.modes.conflict k k') :
    warehouse.protects k s (bookedWith m rows ws s) := by
  intro hShared
  rcases h.booked.row with ⟨actorSnapshot, hRow⟩
  have hPlaced := h.booked.placed
  cases hResource : k.resource with
  | itemRow item =>
      apply h.itemFixed hValid
      rintro l hl rfl
      exact conflict_of_held hShared hResource hFree
        (h.booked.heldItem hl)
  | warehouseIdempotency actor key =>
      apply noneNew_bookedWith
      rintro ⟨hActor, hKey⟩
      subst hRow
      cases hActor
      cases hKey
      exact conflict_of_held hShared hResource hFree
        hPlaced.ready.heldKey
  | warehouseOriginalMovement o =>
      apply noneNew_bookedWith
      rintro ⟨hOriginal, _⟩
      subst hRow
      exact conflict_of_held hShared hResource hFree
        (hPlaced.ready.original.lock o hOriginal)
  | movementPkey id =>
      apply noneNew_bookedWith
      intro hId
      subst hRow
      cases hId
      exact conflict_of_held hShared hResource hFree
        hPlaced.heldPkey
  | _ => trivial

/- Receipts stay unadjusted. -/
theorem Written.receiptsProtected
    (hReceipts : ReceiptsProtected s)
    (h : Written env call requestId prepared m rows ws held
      s) :
    ReceiptsProtected (bookedWith m rows ws s) where
  exist o hReceipt := by
    rw [movements_bookedWith]
    rcases hReceipts.exist o (isReceipt_bookedWith.mp hReceipt)
      with ⟨m', hm', hId⟩
    exact ⟨m', List.mem_append_left _ hm', hId⟩
  unadjusted o hReceipt m' hm' hOriginal := by
    have hOld := isReceipt_bookedWith.mp hReceipt
    rw [movements_bookedWith] at hm'
    rcases List.mem_append.mp hm' with hm' | hm'
    · exact hReceipts.unadjusted o hOld m' hm' hOriginal
    · rcases h.booked.row with ⟨actorSnapshot, hRow⟩
      rw [List.mem_singleton.mp hm', hRow] at hOriginal
      exact h.booked.placed.noReceipt o hOriginal hOld

/- A booked movement may be committed. -/
theorem Written.commits
    (hInv : warehouse.inv s)
    (h : Written env call requestId prepared m rows ws held
      s) :
    warehouse.Commits held s (bookedWith m rows ws s) where
  inv := ⟨h.valid hInv.1, h.receiptsProtected hInv.2⟩
  always := h.appends hInv.1
  protects _ hFree := h.protects hInv.1 hFree

/- What a request has done may be committed. -/
theorem Outcome.commits
    {result : MovementResult}
    {own : Db → Db}
    (hInv : warehouse.inv s)
    (h : Outcome env call result held own s) :
    warehouse.Commits held s (own s) := by
  cases h with
  | written hWritten => exact hWritten.commits hInv
  | replayed _ => exact .refl hInv

end Commit

------------------------------------------------------------
-- Transactions Elsewhere
------------------------------------------------------------

/- The warehouse and the receipts are left alone. -/
structure KeepsWarehouse (s s' : Db) : Prop where
  same : SameWarehouse s s'
  receipts : ∀ o, IsReceipt s' o ↔ IsReceipt s o

/-
  A transaction of another part of the application: it may
  read and lock what it wants, and write other tables.
-/
def Elsewhere {α : Type} (p : Op α) : Prop :=
  p.WritesOnly (fun change =>
    ∀ s, KeepsWarehouse s (change s))

theorem KeepsWarehouse.trans
    {s s' s'' : Db}
    (h : KeepsWarehouse s s')
    (h' : KeepsWarehouse s' s'') :
    KeepsWarehouse s s'' where
  same := {
    movements :=
      h'.same.movements.trans h.same.movements
    lines := h'.same.lines.trans h.same.lines
    stock := h'.same.stock.trans h.same.stock
    custody := h'.same.custody.trans h.same.custody }
  receipts o := (h'.receipts o).trans (h.receipts o)

/- Leaving the warehouse alone may be committed. -/
theorem KeepsWarehouse.commits
    {held : List Lock}
    {s s' : Db}
    (hInv : warehouse.inv s)
    (h : KeepsWarehouse s s') :
    warehouse.Commits held s s' where
  inv := by
    refine ⟨h.same.valid hInv.1, ?_, ?_⟩
    · intro o hReceipt
      rw [h.same.movements]
      exact hInv.2.exist o ((h.receipts o).mp hReceipt)
    · intro o hReceipt
      rw [h.same.movements]
      exact hInv.2.unadjusted o ((h.receipts o).mp hReceipt)
  always := by
    refine ⟨?_, ?_, ?_⟩
    · rw [h.same.movements]
      exact fun _ hm => hm
    · exact fun m _ => h.same.linesOf m.id
    · exact fun m _ => (h.receipts m.id).mp
  protects k _ _ := by
    have hNone : ∀ P, NoneNew P s s' := by
      intro P m hm _
      rwa [h.same.movements] at hm
    cases k.resource with
    | itemRow item =>
        exact ⟨h.same.journalStock item,
          fun user => h.same.journalCustody user item,
          h.same.stockQuantity item,
          fun user => h.same.custodyQuantity user item⟩
    | warehouseIdempotency actor key => exact hNone _
    | warehouseOriginalMovement o => exact hNone _
    | movementPkey id => exact hNone _
    | _ => trivial

/- Transactions elsewhere can be interleaved. -/
theorem elsewhere_safe
    {α : Type}
    {p : Op α}
    (h : Elsewhere p) :
    warehouse.Safe (fun _ _ => True) (fun _ _ _ => True) p := by
  intro s hInv
  have hComp : ∀ f g : Db → Db,
      (∀ s, KeepsWarehouse s (f s)) →
      (∀ s, KeepsWarehouse s (g s)) →
      ∀ s, KeepsWarehouse s ((f ∘ g) s) :=
    fun f g hf hg s => (hg s).trans (hf (g s))
  have hId : ∀ s : Db, KeepsWarehouse s (id s) :=
    fun s => ⟨⟨rfl, rfl, rfl, rfl⟩, fun _ => Iff.rfl⟩
  refine Txn.wlp_imp ?_ (Txn.wlp_of_writesOnly hComp h hId)
  intro r held own s' hInv' hOwn
  cases r with
  | ok a => exact fun _ => ⟨(hOwn s').commits hInv', trivial⟩
  | error e => trivial

/- Requests for movements can be interleaved. -/
theorem request_safe
    (env : MovementEnv)
    (request : MovementRequest) :
    warehouse.Safe (fun _ _ => True) (fun _ _ _ => True)
      (request.program env) := by
  intro s hInv
  refine Txn.wlp_imp ?_
    (wlp_request governs_warehouse hInv env request)
  intro r held own s' hInv' hPost
  cases r with
  | error e => trivial
  | ok result =>
      rcases hPost with ⟨_, call, _, hOutcome⟩
      exact fun _ => ⟨hOutcome.commits hInv', trivial⟩
