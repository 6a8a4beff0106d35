import DcInventory.Inventory.Bookings
import DcInventory.Procurement.Replay

/-
  This file proves that an acceptance receives what was
  approved: each item that is bound to the lines of the
  current revision, in the quantity that the lines ask for.

  Key definitions include:
    * `SparesWarehouse`
    * `boundPairs`
    * `Receives`

  Key theorems include:
    * `aggregateFrom_total`
    * `program_sparesWarehouse`
    * `completeAcceptance_receives`
-/

namespace Procurement

------------------------------------------------------------
-- The Warehouse Left Alone
------------------------------------------------------------

/- No movement is booked, and no balance is written. -/
def SparesWarehouse {α : Type} (p : Op α) : Prop :=
  p.WritesOnly (fun change => ∀ s, SameWarehouse s (change s))

section Spares

variable {env : ProcurementEnv}
variable {s s' s'' : Db}
variable {requestId actorUserId : Uuid}
variable {record : ProcurementRecord}

theorem sameWarehouse_refl (s : Db) : SameWarehouse s s :=
  ⟨rfl, rfl, rfl, rfl⟩

theorem sameWarehouse_trans
    (h : SameWarehouse s s')
    (h' : SameWarehouse s' s'') :
    SameWarehouse s s'' where
  movements := h'.movements.trans h.movements
  lines := h'.lines.trans h.lines
  stock := h'.stock.trans h.stock
  custody := h'.custody.trans h.custody

theorem SparesWarehouse.same
    {α : Type}
    {p : Op α}
    {r : α}
    (h : SparesWarehouse p)
    (hRun : p.run s = .ok (r, s')) :
    SameWarehouse s s' :=
  (Txn.WritesOnly.keeps (P := fun t => SameWarehouse s t) h
    (fun _ hChange t hSame =>
      sameWarehouse_trans hSame (hChange t))) s r s'
        (sameWarehouse_refl s) hRun

theorem execute_sparesWarehouse (w : ProcurementWrite) :
    SparesWarehouse (execute w) := by
  refine (Txn.writesOnly_update _).mpr fun s => ?_
  cases w <;> exact ⟨rfl, rfl, rfl, rfl⟩

theorem insertRequest_sparesWarehouse
    (new : ProcurementRequest) :
    SparesWarehouse (insertRequest new) := by
  refine .bind (protectFinalMovementBinding_readsOnly none
    new).writesOnly fun _ => ?_
  refine .bind (by simp) fun _ => ?_
  refine .bind (by simp) fun _ => ?_
  refine .bind (by simp) fun _ => ?_
  refine .bind (by simp) fun _ => ?_
  refine .bind (by simp) fun _ => ?_
  refine .bind (by simp) fun _ => ?_
  refine .bind (by simp) fun _ => ?_
  refine .bind (by simp) fun _ => ?_
  refine .bind (by simp) fun _ => ?_
  exact execute_sparesWarehouse _

theorem updateRequest_sparesWarehouse
    (new : ProcurementRequest) :
    SparesWarehouse (updateRequest new) := by
  refine .bind (by simp) fun old => ?_
  refine .bind (protectFinalMovementBinding_readsOnly old
    new).writesOnly fun _ => ?_
  refine .bind (by simp) fun _ => ?_
  refine .bind (by simp) fun _ => ?_
  refine .bind (by simp) fun _ => ?_
  exact execute_sparesWarehouse _

theorem insertRevision_sparesWarehouse
    (new : ProcurementRevision) :
    SparesWarehouse (insertRevision new) := by
  refine .bind (by simp) fun _ => ?_
  refine .bind (by simp) fun _ => ?_
  refine .bind (by simp) fun _ => ?_
  exact execute_sparesWarehouse _

theorem insertLines_sparesWarehouse
    (lines : List ProcurementRevisionLine) :
    SparesWarehouse (insertLines lines) := by
  induction lines with
  | nil => trivial
  | cons line lines ih =>
      refine .bind ?_ fun _ => ih
      refine .bind (by simp) fun _ => ?_
      refine .bind (by simp) fun _ => ?_
      refine .bind (by simp) fun _ => ?_
      refine .bind (by simp) fun _ => ?_
      refine .bind (by simp) fun _ => ?_
      exact execute_sparesWarehouse _

theorem insertBinding?_sparesWarehouse
    (binding : Option ProcurementLineCatalogBinding) :
    SparesWarehouse (insertBinding? binding) := by
  cases binding with
  | none => trivial
  | some new =>
      refine .bind (by simp) fun _ => ?_
      refine .bind (by simp) fun _ => ?_
      exact execute_sparesWarehouse _

theorem insertEvent_sparesWarehouse (new : ProcurementEvent) :
    SparesWarehouse (insertEvent new) := by
  refine .bind (validatePublication_readsOnly new).writesOnly
    fun _ => ?_
  refine .bind (by simp) fun _ => ?_
  refine .bind (by simp) fun _ => ?_
  refine .bind (by simp) fun _ => ?_
  refine .bind (by simp) fun _ => ?_
  exact execute_sparesWarehouse _

theorem recordCommand_sparesWarehouse
    (expected : Expected)
    (new : ProcurementRequest)
    (binding : Option ProcurementLineCatalogBinding)
    (eventType : ProcurementEventType)
    (fields : Except Error EventFields) :
    SparesWarehouse (recordCommand env expected new binding
      eventType actorUserId fields) := by
  refine .bind (updateRequest_sparesWarehouse new) fun _ => ?_
  refine .bind (insertBinding?_sparesWarehouse binding)
    fun _ => ?_
  refine .bind (actorSnapshot_readsOnly _).writesOnly
    fun _ => ?_
  exact .bind (by simp) fun _ => insertEvent_sparesWarehouse _

/- To tell of a request is to enqueue calls. -/
theorem tell_writes
    {ok : (Db → Db) → Prop}
    (hNotify : ∀ id now call,
      ok (ProcurementWrite.notify id now call).apply)
    (request : ProcurementRequest)
    (action : String)
    (lines : List ProcurementRevisionLine)
    (recipients : List Uuid) :
    (tell env request action lines recipients).WritesOnly
      ok := by
  have hCalls : ∀ calls,
      (enqueueCalls env calls).WritesOnly ok := by
    intro calls
    induction calls with
    | nil => trivial
    | cons call calls ih =>
        refine .bind ?_ fun _ => ih
        refine .bind (by simp) fun _ => ?_
        refine .bind (by simp) fun _ => ?_
        refine .bind (by simp) fun _ => ?_
        refine .bind (by simp) fun _ => ?_
        exact (Txn.writesOnly_update _).mpr (hNotify _ _ _)
  refine .bind (by simp) fun found => ?_
  split
  · trivial
  · exact .bind (by simp) fun _ => hCalls _

theorem tell_sparesWarehouse
    (request : ProcurementRequest)
    (action : String)
    (lines : List ProcurementRevisionLine)
    (recipients : List Uuid) :
    SparesWarehouse
      (tell env request action lines recipients) :=
  tell_writes (fun _ _ _ _ => ⟨rfl, rfl, rfl, rfl⟩) _ _ _ _

/- An item is created in the tables of the catalog. -/
theorem createItem_writes
    {ok : (Db → Db) → Prop}
    (hItem : ∀ new, ok (fun db =>
      { db with items := db.items ++ [new] }))
    (hValues : ∀ rows, ok (fun db =>
      { db with itemAttributeValues :=
          db.itemAttributeValues ++ rows }))
    (catalog : Catalog.CatalogEnv)
    (newId : Uuid)
    (now : Time)
    (payload : Catalog.ItemCreate) :
    (Catalog.createItem catalog newId now payload).WritesOnly
      ok := by
  refine .bind (by simp) fun _ => ?_
  refine .bind (by simp) fun _ => ?_
  refine .bind (by simp) fun _ => ?_
  refine .bind (by simp) fun _ => ?_
  refine .bind (by simp) fun _ => ?_
  refine .bind (by simp) fun _ => ?_
  refine .bind (by simp) fun _ => ?_
  refine .bind (by simp) fun _ => ?_
  refine .bind (by simp) fun _ => ?_
  refine .bind ((Txn.writesOnly_update _).mpr (hItem _))
    fun _ => ?_
  refine .bind ?_ fun _ => by simp
  refine .bind (by simp) fun _ => ?_
  refine .bind (by simp) fun _ => ?_
  refine .bind (by simp) fun _ => ?_
  exact (Txn.writesOnly_update _).mpr (hValues _)

theorem createItem_sparesWarehouse
    (catalog : Catalog.CatalogEnv)
    (newId : Uuid)
    (now : Time)
    (payload : Catalog.ItemCreate) :
    SparesWarehouse
      (Catalog.createItem catalog newId now payload) :=
  createItem_writes (fun _ _ => ⟨rfl, rfl, rfl, rfl⟩)
    (fun _ _ => ⟨rfl, rfl, rfl, rfl⟩) _ _ _ _

/- What a command does after it was let through. -/
theorem startCommand_readsOnly
    (payload : ExpectedStateMutation)
    (serialized : Text)
    (eventType : ProcurementEventType)
    (capabilities : List Capability) :
    (startCommand env requestId payload serialized actorUserId
      eventType capabilities).ReadsOnly := by
  refine .bind (lockAndValidateExpected_readsOnly _ _ _ _ _ _)
    fun _ => ?_
  refine .bind ?_ fun _ => by simp
  refine .bind (by simp) fun _ => ?_
  exact .bind (by simp) fun _ => by simp

theorem command_sparesWarehouse
    {payload : ExpectedStateMutation}
    {serialized : Text}
    {eventType : ProcurementEventType}
    {capabilities : List Capability}
    {body : Expected → Op ProcurementRecord}
    (hBody : ∀ expected, SparesWarehouse (body expected)) :
    SparesWarehouse (do
      let expected ← startCommand env requestId payload
        serialized actorUserId eventType capabilities
      if expected.replay.isSome then pure expected.record
      else body expected) := by
  refine .bind (startCommand_readsOnly _ _ _ _).writesOnly
    fun expected => ?_
  split
  · trivial
  · exact hBody expected

theorem changeAssignment_sparesWarehouse
    (payload : AssignmentMutation)
    (serialized : Text)
    (targetUserId : Uuid)
    (eventType : ProcurementEventType) :
    SparesWarehouse (changeAssignment env requestId payload
      serialized actorUserId targetUserId eventType) := by
  refine command_sparesWarehouse fun expected => ?_
  refine .bind (by simp) fun _ => ?_
  refine .bind (by simp) fun _ => ?_
  refine .bind (validateManager_readsOnly _).writesOnly
    fun _ => ?_
  refine .bind (by simp) fun _ => ?_
  refine .bind (recordCommand_sparesWarehouse _ _ _ _ _)
    fun _ => ?_
  refine .bind (by simp) fun _ => ?_
  exact .bind (tell_sparesWarehouse _ _ _ _) fun _ =>
    (getRequestRecord_readsOnly _ _).writesOnly

/- Only an acceptance books a movement. -/
theorem program_sparesWarehouse
    {command : ProcurementCommand}
    (hType : command.eventType ≠ .completed) :
    SparesWarehouse
      (command.program env requestId actorUserId) := by
  cases command with
  | takeOwnership payload =>
      exact changeAssignment_sparesWarehouse _ _ _ _
  | transferManager payload =>
      exact changeAssignment_sparesWarehouse _ _ _ _
  | managerAccept payload =>
      refine command_sparesWarehouse fun expected => ?_
      refine .bind (by simp) fun _ => ?_
      exact .bind (recordCommand_sparesWarehouse _ _ _ _ _)
        fun _ => (getRequestRecord_readsOnly _ _).writesOnly
  | returnForCorrection payload =>
      refine command_sparesWarehouse fun expected => ?_
      refine .bind (by simp) fun _ => ?_
      refine .bind (Txn.ReadsOnly.writesOnly ?_) fun _ => ?_
      · unfold prepareProposal
        split
        · simp
        · exact prepareLines_readsOnly _ _
      refine .bind (by simp) fun _ => ?_
      refine .bind (recordCommand_sparesWarehouse _ _ _ _ _)
        fun _ => ?_
      refine .bind (by simp) fun _ => ?_
      exact .bind (tell_sparesWarehouse _ _ _ _) fun _ =>
        (getRequestRecord_readsOnly _ _).writesOnly
  | transferToAcceptance payload =>
      refine command_sparesWarehouse fun expected => ?_
      refine .bind (by simp) fun _ => ?_
      refine .bind (recordCommand_sparesWarehouse _ _ _ _ _)
        fun _ => ?_
      refine .bind (by simp) fun _ => ?_
      refine .bind (by simp) fun _ => ?_
      exact .bind (tell_sparesWarehouse _ _ _ _) fun _ =>
        (getRequestRecord_readsOnly _ _).writesOnly
  | submitRevision payload =>
      refine command_sparesWarehouse fun expected => ?_
      refine .bind (by simp) fun _ => ?_
      refine .bind (by simp) fun _ => ?_
      refine .bind (prepareLines_readsOnly _ _).writesOnly
        fun _ => ?_
      refine .bind (by simp) fun _ => ?_
      refine .bind (actorSnapshot_readsOnly _).writesOnly
        fun _ => ?_
      refine .bind (insertRevision_sparesWarehouse _)
        fun _ => ?_
      refine .bind (insertLines_sparesWarehouse _) fun _ => ?_
      refine .bind (by simp) fun _ => ?_
      refine .bind (updateRequest_sparesWarehouse _)
        fun _ => ?_
      refine .bind (insertEvent_sparesWarehouse _) fun _ => ?_
      refine .bind (tell_sparesWarehouse _ _ _ _) fun _ => ?_
      refine .bind (getRequestRecord_readsOnly _ _).writesOnly
        fun _ => ?_
      exact .bind (checkCurrentRevision_readsOnly _).writesOnly
        fun _ => by simp
  | bindLine payload =>
      refine command_sparesWarehouse fun expected => ?_
      refine .bind (by simp) fun _ => ?_
      refine .bind (by simp) fun _ => ?_
      refine .bind (by simp) fun _ => ?_
      refine .bind (by simp) fun _ => ?_
      refine .bind (by simp) fun _ => ?_
      refine .bind (by simp) fun _ => ?_
      refine .bind (by simp) fun _ => ?_
      refine .bind (by simp) fun _ => ?_
      exact .bind (recordCommand_sparesWarehouse _ _ _ _ _)
        fun _ => (getRequestRecord_readsOnly _ _).writesOnly
  | createAndBindLine payload =>
      refine command_sparesWarehouse fun expected => ?_
      refine .bind (by simp) fun _ => ?_
      refine .bind (by simp) fun _ => ?_
      refine .bind (by simp) fun _ => ?_
      refine .bind (by simp) fun _ => ?_
      refine .bind (createItem_sparesWarehouse _ _ _ _)
        fun _ => ?_
      exact .bind (recordCommand_sparesWarehouse _ _ _ _ _)
        fun _ => (getRequestRecord_readsOnly _ _).writesOnly
  | reportDiscrepancy payload =>
      refine command_sparesWarehouse fun expected => ?_
      refine .bind (by simp) fun _ => ?_
      refine .bind (recordCommand_sparesWarehouse _ _ _ _ _)
        fun _ => ?_
      refine .bind (by simp) fun _ => ?_
      exact .bind (tell_sparesWarehouse _ _ _ _) fun _ =>
        (getRequestRecord_readsOnly _ _).writesOnly
  | completeAcceptance payload => exact absurd rfl hType

theorem createRequest_sparesWarehouse
    (payload : ProcurementRequestCreate) :
    SparesWarehouse (createRequest env payload actorUserId) := by
  refine .bind ?_ fun _ => ?_
  · refine .bind (by simp) fun _ => ?_
    exact .bind (by simp) fun _ => by simp
  refine .bind (by simp) fun _ => ?_
  refine .bind (by simp) fun _ => ?_
  refine .bind (by simp) fun existing => ?_
  cases existing with
  | some request =>
      exact .bind (by simp) fun _ =>
        (getRequestRecord_readsOnly _ _).writesOnly
  | none =>
      refine .bind (validateManager_readsOnly _).writesOnly
        fun _ => ?_
      refine .bind (prepareLines_readsOnly _ _).writesOnly
        fun _ => ?_
      refine .bind (actorSnapshot_readsOnly _).writesOnly
        fun _ => ?_
      refine .bind (insertRequest_sparesWarehouse _)
        fun _ => ?_
      refine .bind (insertRevision_sparesWarehouse _)
        fun _ => ?_
      refine .bind (insertLines_sparesWarehouse _) fun _ => ?_
      refine .bind (insertEvent_sparesWarehouse _) fun _ => ?_
      refine .bind (tell_sparesWarehouse _ _ _ _) fun _ => ?_
      refine .bind (getRequestRecord_readsOnly _ _).writesOnly
        fun _ => ?_
      exact .bind (checkCurrentRevision_readsOnly _).writesOnly
        fun _ => by simp

end Spares

------------------------------------------------------------
-- Quantities
------------------------------------------------------------

/- The items that lines are bound to, and what they ask for. -/
def boundPairs (lines : List LineRecord) : List (Uuid × Nat) :=
  lines.filterMap (fun line => line.boundItemId.map (fun itemId =>
    (itemId, line.line.quantity)))

theorem boundPairs_cons
    (line : LineRecord)
    (lines : List LineRecord) :
    boundPairs (line :: lines) =
      (line.boundItemId.map (fun itemId =>
        (itemId, line.line.quantity))).toList ++
          boundPairs lines := by
  unfold boundPairs
  rw [List.filterMap_cons]
  cases line.boundItemId <;> rfl

theorem mem_boundPairs
    {lines : List LineRecord}
    {itemId : Uuid} :
    (∃ e ∈ boundPairs lines, e.1 = itemId) ↔
      ∃ line ∈ lines, line.boundItemId = some itemId := by
  unfold boundPairs
  constructor
  · rintro ⟨e, hMem, rfl⟩
    rcases List.mem_filterMap.mp hMem with ⟨line, hLine, hPair⟩
    rcases Option.map_eq_some_iff.mp hPair with
      ⟨itemId, hItem, rfl⟩
    exact ⟨line, hLine, hItem⟩
  · rintro ⟨line, hLine, hItem⟩
    refine ⟨(itemId, line.line.quantity),
      List.mem_filterMap.mpr ⟨line, hLine, ?_⟩, rfl⟩
    rw [hItem]
    rfl

/- The loop adds up what the lines ask for, item by item. -/
theorem aggregateFrom_total
    {lines : List LineRecord}
    {counted quantities : Dictionary Uuid Nat}
    (h : aggregateFrom none counted lines = .ok quantities)
    (itemId : Uuid) :
    (quantities.get? itemId).getD 0 =
        (counted.get? itemId).getD 0 +
          Tally.total itemId (boundPairs lines) ∧
      ((quantities.get? itemId).isSome = true ↔
        (counted.get? itemId).isSome = true ∨
          ∃ line ∈ lines, line.boundItemId = some itemId) := by
  induction lines generalizing counted with
  | nil =>
      cases h
      simp [boundPairs]
  | cons line lines ih =>
      have hPending : pendingItemId none line =
          line.boundItemId := rfl
      rw [aggregateFrom, hPending] at h
      rw [boundPairs_cons]
      cases hItem : line.boundItemId with
      | none =>
          rw [hItem] at h
          simpa [hItem] using ih h
      | some id =>
          rw [hItem] at h
          dsimp only at h
          split at h
          · cases h
          · have hRest := ih h
            rw [Dictionary.get?_set] at hRest
            rw [Option.map_some, Option.toList_some,
              List.singleton_append, Tally.total_cons]
            by_cases hSame : itemId = id
            · subst hSame
              rw [if_pos rfl, Option.getD_some] at hRest
              refine ⟨?_, ?_⟩
              · rw [hRest.1, if_pos rfl, Nat.add_assoc]
              · rw [hRest.2]
                simp [hItem]
            · rw [if_neg hSame] at hRest
              refine ⟨?_, ?_⟩
              · rw [hRest.1, if_neg (Ne.symm hSame),
                  Nat.zero_add]
              · rw [hRest.2]
                simp [hItem, Ne.symm hSame]

/- The entries are the items of the lines with their totals. -/
theorem quantities_entries
    {lines : List LineRecord}
    {quantities : Dictionary Uuid Nat}
    (h : validateAggregatedItemQuantities none lines =
      .ok quantities)
    {itemId : Uuid}
    {quantity : Nat} :
    (itemId, quantity) ∈ quantities.entries ↔
      (∃ line ∈ lines, line.boundItemId = some itemId) ∧
        quantity = Tally.total itemId (boundPairs lines) := by
  have hTotal := aggregateFrom_total h itemId
  rw [Dictionary.get?_empty, Option.getD_none,
    Nat.zero_add] at hTotal
  simp only [Option.isSome_none, Bool.false_eq_true,
    false_or] at hTotal
  rw [Dictionary.mem_entries, ← hTotal.2, ← hTotal.1]
  cases quantities.get? itemId with
  | none => simp
  | some n => simp [eq_comm]

/- Bound lines ask for as much as all of them together. -/
theorem sum_boundPairs
    {lines : List LineRecord}
    (hBound : ∀ line ∈ lines, line.boundItemId ≠ none) :
    ((boundPairs lines).map Prod.snd).sum =
      (lines.map (fun line => line.line.quantity)).sum := by
  induction lines with
  | nil => rfl
  | cons line lines ih =>
      rcases Option.ne_none_iff_exists'.mp
        (hBound line List.mem_cons_self) with ⟨id, hItem⟩
      rw [boundPairs_cons, hItem, Option.map_some,
        Option.toList_some, List.singleton_append,
        List.map_cons, List.sum_cons, List.map_cons,
        List.sum_cons, ih fun l hl =>
          hBound l (List.mem_cons_of_mem line hl)]

------------------------------------------------------------
-- Acceptance
------------------------------------------------------------

/- The items of lines may be received for them. -/
def MayBeReceived (s : Db) (line : LineRecord) : Prop :=
  ∃ item, line.boundItemId = some item.id ∧
    s.findItem item.id = some item ∧ item.status = .active ∧
      item.identitySignature =
        line.line.expectedIdentitySignature

/- The lines were received at a location by a movement. -/
structure Receives
    (s s' : Db)
    (locationId : Uuid)
    (lines : List LineRecord)
    (m : Movement)
    (rows : List MovementLine) : Prop where
  movementType : m.movementType = .receipt
  positions : m.sourceLocationId = none ∧
    m.destinationLocationId = some locationId
  apart : m.originalMovementId = none ∧ m.custodyUserId = none
  movements : s'.movements = s.movements ++ [m]
  movementLines : s'.movementLines = s.movementLines ++ rows
  fresh : s.findMovement m.id = none
  header : ∀ row ∈ rows, row.movementId = m.id
  items : ∀ line ∈ lines, MayBeReceived s line
  distinct : (rows.map MovementLine.itemId).Nodup
  received : ∀ itemId, itemId ∈ rows.map MovementLine.itemId ↔
    ∃ line ∈ lines, line.boundItemId = some itemId
  quantity : ∀ row ∈ rows,
    row.quantity = Tally.total row.itemId (boundPairs lines)
  stock : ∀ itemId location,
    s'.stockQuantity itemId location =
      s.stockQuantity itemId location +
        if location = locationId then
          Tally.total itemId (boundPairs lines)
        else 0
  custody : ∀ userId itemId,
    s'.custodyQuantity userId itemId =
      s.custodyQuantity userId itemId
  valid : WarehouseValid s'

section Acceptance

variable {env : ProcurementEnv}
variable {s s' s'' : Db}
variable {requestId actorUserId locationId : Uuid}
variable {lines : List LineRecord}
variable {record : ProcurementRecord}
variable {m : Movement}
variable {rows : List MovementLine}

/- As much is received as the lines ask for. -/
theorem Receives.total
    (h : Receives s s' locationId lines m rows) :
    (rows.map MovementLine.quantity).sum =
      (lines.map (fun line => line.line.quantity)).sum := by
  have hBound : ∀ line ∈ lines, line.boundItemId ≠ none := by
    intro line hLine
    rcases h.items line hLine with ⟨item, hItem, _⟩
    rw [hItem]
    exact fun hEq => nomatch hEq
  have hKeys : ∀ e ∈ boundPairs lines,
      e.1 ∈ rows.map MovementLine.itemId :=
    fun e he => (h.received e.1).mpr
      (mem_boundPairs.mp ⟨e, he, rfl⟩)
  rw [← sum_boundPairs hBound,
    ← Tally.sum_totals h.distinct hKeys, List.map_map]
  exact congrArg List.sum (List.map_congr_left h.quantity)

/- What follows that leaves the warehouse alone. -/
theorem Receives.after
    (hSame : SameWarehouse s' s'')
    (h : Receives s s' locationId lines m rows) :
    Receives s s'' locationId lines m rows :=
  { h with
    movements := hSame.movements.trans h.movements
    movementLines := hSame.lines.trans h.movementLines
    stock := by
      intro itemId location
      rw [hSame.stockQuantity]
      exact h.stock itemId location
    custody := by
      intro userId itemId
      rw [hSame.custodyQuantity]
      exact h.custody userId itemId
    valid := hSame.valid h.valid }

/- The checks of the items, line by line. -/
theorem checkAcceptedItems_ok
    {ids : List Uuid}
    (h : checkAcceptedItems (ids.filterMap s.findItem) lines =
      .ok ())
    (hBound : ∀ line ∈ lines, line.boundItemId ≠ none) :
    ∀ line ∈ lines, MayBeReceived s line := by
  induction lines with
  | nil => exact List.forall_mem_nil _
  | cons line lines ih =>
      rcases Option.ne_none_iff_exists'.mp
        (hBound line List.mem_cons_self) with ⟨id, hItem⟩
      rw [checkAcceptedItems, hItem] at h
      dsimp only at h
      split at h
      · cases h
      · rename_i item hFind
        split at h
        · cases h
        · rename_i hActive
          split at h
          · cases h
          · rename_i hSignature
            have hId : item.id = id := Table.key_of_find hFind
            rcases List.mem_filterMap.mp
              (Table.mem_of_find hFind) with
              ⟨id', _, hStored⟩
            have hStoredId : item.id = id' :=
              Table.key_of_find hStored
            intro l hl
            rcases List.mem_cons.mp hl with rfl | hl
            · refine ⟨item, by rw [hItem, hId], ?_,
                not_not.mp hActive, not_not.mp hSignature⟩
              rw [hStoredId]
              exact hStored
            · exact ih h (fun l' hl' => hBound l'
                (List.mem_cons_of_mem line hl')) l hl

/- What may be accepted, and how much of it. -/
theorem acceptedQuantities_run
    {quantities : Dictionary Uuid Nat}
    (h : (acceptedQuantities lines).run s =
      .ok (quantities, s')) :
    (∀ line ∈ lines, MayBeReceived s line) ∧
      validateAggregatedItemQuantities none lines =
        .ok quantities := by
  unfold acceptedQuantities at h
  rw [Txn.run_bind, lockRows_run] at h
  simp only [Txn.run_bind_eq_ok_iff, Txn.run_require_eq_ok_iff,
    Txn.run_ofExcept_eq_ok_iff] at h
  rcases h with ⟨_, _, ⟨_, rfl⟩, _, _, ⟨hChecked, rfl⟩, _, _,
    ⟨hBound, rfl⟩, hQuantities, rfl⟩
  exact ⟨checkAcceptedItems_ok hChecked hBound, hQuantities⟩

/- The movement of a receipt of these quantities. -/
theorem receives_of_books
    {call : MovementCall}
    {snapshot : Text}
    {quantities : Dictionary Uuid Nat}
    (hItems : ∀ line ∈ lines, MayBeReceived s line)
    (hQuantities : validateAggregatedItemQuantities none lines =
      .ok quantities)
    (hCall : receiptCall requestId locationId actorUserId
      snapshot quantities = some call)
    (hBooks : Books s s' env.movement call m rows) :
    Receives s s' locationId lines m rows := by
  rcases Option.map_eq_some_iff.mp hCall with
    ⟨payload, hBuild, rfl⟩
  have hBuilt := MovementCreate.builtFrom_of_build hBuild
  have hPairs : (linePairs rows).Perm quantities.entries := by
    refine hBooks.pairs.trans ?_
    rw [hBuilt.lines]
    exact List.perm_insertionSort _ _
  have hKeys : (rows.map MovementLine.itemId).Perm
      (quantities.entries.map Prod.fst) := by
    have hFst := hPairs.map Prod.fst
    rwa [linePairs, List.map_map] at hFst
  refine {
    movementType := hBooks.movementType.trans hBuilt.movementType
    positions := ⟨hBooks.source.trans hBuilt.source,
      hBooks.destination.trans hBuilt.destination⟩
    apart := ⟨hBooks.original.trans hBuilt.original,
      hBooks.holder⟩
    movements := hBooks.movements
    movementLines := hBooks.lines
    fresh := hBooks.fresh
    header := hBooks.header
    items := hItems
    distinct := hBooks.distinct
    received := ?_
    quantity := ?_
    stock := ?_
    custody := hBooks.custody_of_nobody rfl
    valid := hBooks.valid }
  · intro itemId
    rw [hKeys.mem_iff]
    constructor
    · intro hMem
      rcases List.mem_map.mp hMem with ⟨⟨k, n⟩, he, rfl⟩
      exact ((quantities_entries hQuantities).mp he).1
    · intro hLine
      exact List.mem_map.mpr ⟨(itemId, _),
        (quantities_entries hQuantities).mpr ⟨hLine, rfl⟩, rfl⟩
  · intro row hRow
    have hMem : (row.itemId, row.quantity) ∈
        quantities.entries :=
      hPairs.mem_iff.mp (List.mem_map.mpr ⟨row, hRow, rfl⟩)
    exact ((quantities_entries hQuantities).mp hMem).2
  · intro itemId location
    have hSorted : (sortedQuantities quantities).Perm
        quantities.entries :=
      List.perm_insertionSort _ _
    rw [hBooks.stock_of_receipt hBuilt.source hBuilt.destination,
      hBuilt.lines, Tally.total_perm hSorted]
    congr 2
    by_cases hLine : ∃ line ∈ lines,
        line.boundItemId = some itemId
    · exact Tally.total_of_nodup quantities.nodup
        ((quantities_entries hQuantities).mpr ⟨hLine, rfl⟩)
    · rw [Tally.total_eq_zero, Tally.total_eq_zero]
      · intro e he hEq
        exact hLine (mem_boundPairs.mp ⟨e, he, hEq⟩)
      · rintro ⟨k, n⟩ he rfl
        exact hLine ((quantities_entries hQuantities).mp he).1

/- The header of a request whose acceptance is complete. -/
structure Accomplished
    (s : Db)
    (requestId : Uuid)
    (m : Movement)
    (new : ProcurementRequest) : Prop where
  found : s.findRequest requestId = some new
  status : new.status = .completed
  movement : new.finalMovementId = some m.id
  closed : new.completedAt.isSome = true

/- The new header is found in the place of the old one. -/
theorem Writes.found
    {old new : ProcurementRequest}
    {event : ProcurementEvent}
    {added : Additions}
    (h : Writes s s' new event added)
    (hOld : s.findRequest new.id = some old) :
    s'.findRequest new.id = some new := by
  unfold Db.findRequest
  rw [h.requests]
  exact EventLog.find_turned_self hOld

/- What follows the event of an acceptance. -/
theorem finish_writesOnly
    {ok : (Db → Db) → Prop}
    {told : Op Unit}
    {movement : MovementResult}
    (h : told.WritesOnly ok) :
    (do
      told
      let record ← getRequestRecord requestId false
      checkLineCount movement
      pure record : Op ProcurementRecord).WritesOnly ok := by
  refine .bind h fun _ => ?_
  refine .bind (getRequestRecord_readsOnly _ _).writesOnly
    fun _ => ?_
  exact .bind (checkLineCount_readsOnly _).writesOnly
    fun _ => by simp

/- An acceptance that is carried out receives the lines. -/
theorem completeAcceptance_receives
    {payload : ProcurementAcceptanceCreate}
    (hValid : WarehouseValid s)
    (hRun : (completeAcceptance env requestId payload
      actorUserId).run s = .ok (record, s')) :
    Repeated env s s' requestId actorUserId
        (.completeAcceptance payload) ∨
      ∃ expected lines m rows new,
        Started env s requestId actorUserId
          (.completeAcceptance payload) expected ∧
        expected.replay = none ∧
        expected.record.currentLines = .ok lines ∧
        Receives s s' payload.receivingLocationId lines m rows ∧
        Accomplished s' requestId m new := by
  rcases run_command_cases (.completeAcceptance payload)
    hRun with
    hRepeated | ⟨expected, hStarted, hFresh, hBody⟩
  · exact .inl hRepeated
  rcases Txn.run_bind_eq_ok_iff.mp hBody with
    ⟨_, s₁, hGuard, hLoading⟩
  rcases Txn.run_ofExcept_eq_ok_iff.mp hGuard with ⟨_, rfl⟩
  rcases Txn.run_bind_eq_ok_iff.mp hLoading with
    ⟨lines, s₂, hLines, hAccepting⟩
  rcases Txn.run_ofExcept_eq_ok_iff.mp hLines with
    ⟨hCurrent, rfl⟩
  rcases Txn.run_bind_eq_ok_iff.mp hAccepting with
    ⟨quantities, s₃, hAccepted, hActor⟩
  have hSame := run_readsOnly (acceptedQuantities_readsOnly _)
    hAccepted
  subst hSame
  rcases acceptedQuantities_run hAccepted with
    ⟨hItems, hQuantities⟩
  rcases Txn.run_bind_eq_ok_iff.mp hActor with
    ⟨snapshot, s₄, hSnapshot, hCalling⟩
  have hSame := run_readsOnly (actorSnapshot_readsOnly _)
    hSnapshot
  subst hSame
  rcases Txn.run_bind_eq_ok_iff.mp hCalling with
    ⟨call, s₅, hCall, hMoving⟩
  rcases Txn.run_getOrFail_eq_ok_iff.mp hCall with
    ⟨hReceipt, rfl⟩
  rcases Txn.run_bind_eq_ok_iff.mp hMoving with
    ⟨movement, t, hMovement, hRest⟩
  rcases Txn.run_bind_eq_ok_iff.mp hRest with
    ⟨_, t₁, hNew, hSetting⟩
  rcases Txn.run_require_eq_ok_iff.mp hNew with
    ⟨hNotReplayed, rfl⟩
  have hSpared := (createMovement_spares _ _).same hMovement
  have hBooking := createMovement_books hValid hMovement
  cases hBooking with
  | replayed => exact absurd rfl hNotReplayed
  | @booked t m rows hBooks =>
      have hReceives := receives_of_books hItems hQuantities
        hReceipt hBooks
      rcases Txn.run_bind_eq_ok_iff.mp hSetting with
        ⟨new, t₂, hStatus, hRecording⟩
      rcases Txn.run_ofExcept_eq_ok_iff.mp hStatus with
        ⟨hSet, rfl⟩
      rcases moves_of_setStatus hSet with ⟨_, rfl⟩
      rcases Txn.run_bind_eq_ok_iff.mp hRecording with
        ⟨_, t₃, hRecord, hTelling⟩
      have hQuiet := (recordCommand_sparesWarehouse _ _ _ _
        _).same hRecord
      rcases recordCommand_run hRecord with
        ⟨event, hRecorded⟩
      have hTold := SparesProcurement.same
        (finish_writesOnly (tell_spares _ _ _ _)) hTelling
      have hUntouched := SparesWarehouse.same
        (finish_writesOnly (tell_sparesWarehouse _ _ _ _))
          hTelling
      have hWrites := (hRecorded.writes.before hSpared).after
        hTold
      have hOld := hStarted.found
      have hId : expected.record.request.id = requestId :=
        Table.key_of_find hOld
      rw [← hId] at hOld
      have hFound := hWrites.found hOld
      exact .inr ⟨expected, lines, m, rows, _, hStarted, hFresh,
        hCurrent, hReceives.after
          (sameWarehouse_trans hQuiet hUntouched),
        ⟨by rw [← hId]; exact hFound, rfl, rfl, rfl⟩⟩

end Acceptance

end Procurement
