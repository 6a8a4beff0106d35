import DcInventory.Inventory.Acceptance

/-
  This file proves that the checks of the loop over the lines
  and the range checks of the refresh are the same checks.

  Key definitions include:
    * `InRange`
    * `LineInRange`

  Key theorems include:
    * `checkLine_ok_iff`
    * `inRange_of_rowsOk`
-/

------------------------------------------------------------
-- Effects On One Item
------------------------------------------------------------

/- A movement has one line for an item. -/
theorem LinesValid.filter_item
    {m : Movement}
    {lines : List MovementLine}
    (h : LinesValid m lines)
    {l : MovementLine}
    (hl : l ∈ lines) :
    lines.filter (fun l' => l'.itemId = l.itemId) = [l] := by
  have hDistinct := h.distinct
  clear h
  induction lines with
  | nil => cases hl
  | cons l' rest ih =>
      rw [List.map_cons, List.nodup_cons] at hDistinct
      rcases List.mem_cons.mp hl with rfl | hRest
      · have hNone : rest.filter
            (fun l' => l'.itemId = l.itemId) = [] := by
          rw [List.filter_eq_nil_iff]
          intro l'' hl'' hEq
          apply hDistinct.1
          rw [← (by simpa using hEq : l''.itemId = l.itemId)]
          exact List.mem_map_of_mem hl''
        simp [hNone]
      · have hNe : l'.itemId ≠ l.itemId := by
          intro hEq
          apply hDistinct.1
          rw [hEq]
          exact List.mem_map_of_mem hRest
        simp [hNe, ih hRest hDistinct.2]

/- The effect on the stock of the item of a line. -/
theorem LinesValid.stockEffect_line
    {m : Movement}
    {lines : List MovementLine}
    (h : LinesValid m lines)
    {l : MovementLine}
    (hl : l ∈ lines)
    (location : Uuid) :
    m.stockEffect lines l.itemId location =
      m.stockChange location l := by
  simp [Movement.stockEffect, h.filter_item hl]

/- The effect on the custody of the item of a line. -/
theorem LinesValid.custodyEffect_line
    {m : Movement}
    {lines : List MovementLine}
    (h : LinesValid m lines)
    {l : MovementLine}
    (hl : l ∈ lines)
    (original : Option Movement)
    {user : Uuid}
    (hUser : m.custodyUserId = some user) :
    m.custodyEffect original lines user l.itemId =
      m.custodyChange original l := by
  simp [Movement.custodyEffect, h.filter_item hl, hUser]

------------------------------------------------------------
-- Ranges
------------------------------------------------------------

/- The balances of one line stay in the supported range. -/
structure LineInRange
    (db : Db)
    (m : Movement)
    (lines : List MovementLine)
    (l : MovementLine) : Prop where
  stock : ∀ location, AtPosition m location →
    0 ≤ (db.withMovement m lines).journalStock l.itemId
      location ∧
    (db.withMovement m lines).journalStock l.itemId
      location ≤ maxQuantity
  custody : ∀ user, m.custodyUserId = some user →
    0 ≤ (db.withMovement m lines).journalCustody user
      l.itemId ∧
    (db.withMovement m lines).journalCustody user
      l.itemId ≤ maxQuantity

/- A quantity passes its check exactly when in range. -/
theorem checkQuantity_ok_iff
    {quantity : Int}
    {message code : String} :
    checkQuantity quantity message code = .ok () ↔
      0 ≤ quantity ∧ quantity ≤ maxQuantity := by
  unfold checkQuantity
  split
  · rename_i hNegative
    simp only [reduceCtorEq, false_iff, not_and]
    omega
  split
  · rename_i hLarge
    simp only [reduceCtorEq, false_iff, not_and]
    omega
  · simp only [true_iff]
    omega

/- A row of checks passes when each of them does. -/
theorem except_bind_eq_ok
    {ε : Type}
    {x : Except ε Unit}
    {f : Unit → Except ε Unit} :
    (x >>= f) = .ok () ↔ x = .ok () ∧ f () = .ok () := by
  cases x with
  | error e => simp [Bind.bind, Except.bind]
  | ok a => simp [Bind.bind, Except.bind]

section Check

variable {env : MovementEnv}
variable {call : MovementCall}
variable {requestId actorSnapshot : Text}
variable {locations : List Location}
variable {prepared : Prepared}
variable {rows : List MovementLine}
variable {held : List Lock}
variable {s : Db}
variable {line : MovementLineCreate}
variable {row : MovementLine}

/- The check of one position, in terms of the journal. -/
theorem checkPosition_ok_iff
    (hBalances : BalancesReady call prepared.balances s)
    (hLine : line ∈ call.payload.lines)
    {position : Option Uuid}
    (hPosition : position = call.payload.sourceLocationId ∨
      position = call.payload.destinationLocationId)
    {delta : Int} :
    checkPosition prepared.balances line delta position =
      .ok () ↔
    ∀ location, position = some location →
      0 ≤ (s.stockQuantity line.itemId location : Int) +
        delta ∧
      (s.stockQuantity line.itemId location : Int) +
        delta ≤ maxQuantity := by
  cases position with
  | none => simp [checkPosition]
  | some location =>
      have hAt : call.payload.sourceLocationId =
            some location ∨
          call.payload.destinationLocationId =
            some location :=
        hPosition.imp Eq.symm Eq.symm
      simp only [checkPosition, checkQuantity_ok_iff,
        hBalances.stock line hLine location hAt,
        Option.some.injEq, forall_eq']

/- The check of the holder, in terms of the journal. -/
theorem checkCustody_ok_iff
    (hBalances : BalancesReady call prepared.balances s)
    (hLine : line ∈ call.payload.lines)
    {delta : Int} :
    checkCustody prepared.balances line delta
      call.custodyUserId = .ok () ↔
    ∀ user, call.custodyUserId = some user → delta ≠ 0 →
      0 ≤ (s.custodyQuantity user line.itemId : Int) +
        delta ∧
      (s.custodyQuantity user line.itemId : Int) +
        delta ≤ maxQuantity := by
  unfold checkCustody
  cases hUser : call.custodyUserId with
  | none => simp
  | some user =>
      by_cases hDelta : delta = 0
      · simp [hDelta]
      · simp only [ne_eq, reduceCtorEq, not_false_eq_true,
          hDelta, and_self, if_true, checkQuantity_ok_iff,
          hBalances.custody user hUser line hLine,
          Option.some.injEq, forall_eq', forall_const]

/- The original read is the one the journal has. -/
theorem originalType_eq
    (hReady : Ready call requestId prepared held s) :
    prepared.original.map (fun r => r.movement.movementType) =
      (s.originalOf (movementRow env call requestId
        actorSnapshot locations)).map
          Movement.movementType := by
  rw [originalOf_movementRow]
  cases ho : call.payload.originalMovementId with
  | none => simp [hReady.original.unlinked ho]
  | some o =>
      rcases hReady.original.linked o ho with
        ⟨m, hRecord, hFind, _⟩
      simp [hRecord, hFind]

/- The originals of linked movements are found. -/
theorem originalFound
    (hReady : Ready call requestId prepared held s) :
    ∀ o, call.payload.originalMovementId = some o →
      ∃ original, s.findMovement o = some original := by
  intro o ho
  rcases hReady.original.linked o ho with ⟨m, _, hFind, _⟩
  exact ⟨m, hFind⟩

/- The journal's stock after a row, with all rows in place. -/
theorem journalStock_row
    (hValid : WarehouseValid s)
    (hFresh : s.findMovement env.movementId = none)
    (hRows : LinesValid (movementRow env call requestId
      actorSnapshot locations) rows)
    (hRow : row ∈ rows)
    (location : Uuid) :
    (s.withMovement (movementRow env call requestId
        actorSnapshot locations) rows).journalStock row.itemId
          location =
      (s.stockQuantity row.itemId location : Int) +
        (movementRow env call requestId actorSnapshot
          locations).stockChange location row := by
  rw [Db.journalStock_withMovement hValid.journal hFresh
    hRows.header, hRows.stockEffect_line hRow,
    hValid.balances.stock]

/- The journal's custody after a row. -/
theorem journalCustody_row
    (hValid : WarehouseValid s)
    (hReady : Ready call requestId prepared held s)
    (hFresh : s.findMovement env.movementId = none)
    (hRows : LinesValid (movementRow env call requestId
      actorSnapshot locations) rows)
    (hRow : row ∈ rows)
    {user : Uuid}
    (hUser : call.custodyUserId = some user) :
    (s.withMovement (movementRow env call requestId
        actorSnapshot locations) rows).journalCustody user
          row.itemId =
      (s.custodyQuantity user row.itemId : Int) +
        custodyDelta call.payload.movementType
          prepared.original * row.quantity := by
  rw [Db.journalCustody_withMovement hValid.journal hFresh
    hRows.header (originalFound hReady),
    hRows.custodyEffect_line hRow _ hUser,
    hValid.balances.custody, Movement.custodyChange,
    ← originalType_eq hReady]
  rfl

/-
  The loop accepts a line exactly when the refresh of its row
  finds every balance in range.
-/
theorem checkLine_ok_iff
    (hValid : WarehouseValid s)
    (hReady : Ready call requestId prepared held s)
    (hFresh : s.findMovement env.movementId = none)
    (hRows : LinesValid (movementRow env call requestId
      actorSnapshot locations) rows)
    (hLine : line ∈ call.payload.lines)
    (hRow : row ∈ rows)
    (hPair : (row.itemId, row.quantity) = line.pair) :
    checkLine call.payload call.custodyUserId
        prepared.original prepared.balances line = .ok () ↔
      LineInRange s (movementRow env call requestId
        actorSnapshot locations) rows row := by
  have hItem : row.itemId = line.itemId :=
    congrArg Prod.fst hPair
  have hQuantity : row.quantity = line.quantity :=
    congrArg Prod.snd hPair
  have hStock : ∀ location, _ := fun location =>
    journalStock_row hValid hFresh hRows hRow location
  have hCustody : ∀ user, call.custodyUserId = some user → _ :=
    fun user hUser => journalCustody_row hValid hReady hFresh
      hRows hRow hUser
  have hPositions : call.payload.sourceLocationId ≠ none →
      call.payload.sourceLocationId ≠
        call.payload.destinationLocationId := by
    have hOk := hReady.positions
    unfold validatePositions at hOk
    split at hOk
    · cases hOk
    · rename_i hSame
      exact fun hSource hEq => hSame ⟨hSource, hEq⟩
  simp only [checkLine, except_bind_eq_ok,
    checkPosition_ok_iff hReady.balances hLine (.inl rfl),
    checkPosition_ok_iff hReady.balances hLine (.inr rfl),
    checkCustody_ok_iff hReady.balances hLine,
    ← hItem, ← hQuantity]
  constructor
  · rintro ⟨hSource, hDestination, hHolder⟩
    refine ⟨?_, ?_⟩
    · intro location hAt
      rw [hStock location]
      simp only [Movement.stockChange, movementRow]
      by_cases hIsSource :
          call.payload.sourceLocationId = some location
      · have hNot : call.payload.destinationLocationId ≠
            some location := by
          intro hEq
          exact hPositions (by simp [hIsSource])
            (hIsSource.trans hEq.symm)
        have hBounds := hSource location hIsSource
        simp only [hIsSource, hNot, if_true, if_false]
        omega
      · have hIsDestination := hAt.resolve_left hIsSource
        have hBounds := hDestination location hIsDestination
        simp only [movementRow] at hIsDestination
        simp only [hIsSource, hIsDestination, if_true,
          if_false]
        omega
    · intro user hUser
      rw [hCustody user hUser]
      by_cases hZero : custodyDelta call.payload.movementType
          prepared.original * (row.quantity : Int) = 0
      · have hBound :=
          hValid.balances.custodyRange user row.itemId
        rw [hZero]
        omega
      · exact hHolder user hUser hZero
  · intro hRange
    refine ⟨?_, ?_, ?_⟩
    · intro location hIsSource
      have hBounds := hRange.stock location (.inl hIsSource)
      have hNot : call.payload.destinationLocationId ≠
          some location := by
        intro hEq
        exact hPositions (by simp [hIsSource])
          (hIsSource.trans hEq.symm)
      rw [hStock location] at hBounds
      simp only [Movement.stockChange, movementRow,
        hIsSource, hNot, if_true, if_false] at hBounds
      omega
    · intro location hIsDestination
      have hBounds := hRange.stock location
        (.inr hIsDestination)
      have hNot : call.payload.sourceLocationId ≠
          some location := by
        intro hEq
        exact hPositions (by simp [hEq])
          (hEq.trans hIsDestination.symm)
      rw [hStock location] at hBounds
      simp only [Movement.stockChange, movementRow,
        hIsDestination, hNot, if_true, if_false] at hBounds
      omega
    · intro user hUser _
      have hBounds := hRange.custody user hUser
      rw [hCustody user hUser] at hBounds
      exact hBounds

/- Rows that passed the loop are in range. -/
theorem inRange_of_rowsOk
    (hValid : WarehouseValid s)
    (hReady : Ready call requestId prepared held s)
    (hFresh : s.findMovement env.movementId = none)
    (hRows : RowsOk env call prepared rows)
    (hRow : row ∈ rows) :
    LineInRange s (movementRow env call requestId
      actorSnapshot locations) rows row := by
  rcases hRows.line_of_row hRow with ⟨l, hl, hPair⟩
  have hSorted : l ∈ call.payload.sortedLines :=
    call.payload.sortedLines_perm.mem_iff.mpr hl
  exact (checkLine_ok_iff hValid hReady hFresh
    (hRows.linesValid hReady.distinct) hl hRow
    hPair.symm).mp (hRows.checked l hSorted)

end Check
