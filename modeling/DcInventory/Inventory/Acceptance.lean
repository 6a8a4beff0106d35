import DcInventory.Inventory.Preparation

/-
  This file proves that the guards of the database accept the
  rows that the checks of the service let through.

  Key definitions include:
    * `MirrorsCommitted`
    * `CallOk`
    * `CustodyFits`
    * `RowsOk`

  Key theorems include:
    * `movementChecks_movementRow`
    * `correctionHeader_movementRow`
    * `movementCustody_movementRow`
    * `correctionLine_row`
    * `quantityLoop_ok`
-/

------------------------------------------------------------
-- The Header Row
------------------------------------------------------------

/-
  A reversal asks for the mirror image of its original, as
  `reverse_movement` does.
-/
def MirrorsCommitted
    (call : MovementCall)
    (s : Db) : Prop :=
  call.payload.movementType = .reversal →
    ∀ o, call.payload.originalMovementId = some o →
      ∃ m, s.findMovement o = some m ∧
        call.payload.sourceLocationId =
          m.destinationLocationId ∧
        call.payload.destinationLocationId =
          m.sourceLocationId ∧
        call.payload.lines.map MovementLineCreate.pair =
          linePairs (s.linesOf o)

theorem MirrorsCommitted.stable
    {D : Discipline Db Lock}
    {call : MovementCall}
    {held : List Lock}
    {s s' : Db}
    (hD : Governs D)
    (h : MirrorsCommitted call s)
    (hReach : D.Reach held s s') :
    MirrorsCommitted call s' := by
  intro hType o ho
  rcases h hType o ho with
    ⟨m, hFind, hSource, hDestination, hPairs⟩
  refine ⟨m, hD.find_stable hReach hFind, hSource,
    hDestination, ?_⟩
  rw [hD.lines_stable hReach hFind]
  exact hPairs

/- What the arguments of a call must satisfy at once. -/
structure CallOk (call : MovementCall) : Prop where
  custody : checkCustodyArguments call.payload
    call.actorUserId call.custodyUserId = .ok ()
  positions : validatePositions call.payload = .ok ()

namespace CallOk

variable {call : MovementCall}

theorem distinct
    (h : CallOk call)
    (hSource : call.payload.sourceLocationId ≠ none) :
    call.payload.sourceLocationId ≠
      call.payload.destinationLocationId := by
  have hPositions := h.positions
  unfold validatePositions at hPositions
  split at hPositions
  · cases hPositions
  · rename_i hSame
    exact fun hEq => hSame ⟨hSource, hEq⟩

theorem shape (h : CallOk call) :
    (call.payload.sourceLocationId.isSome,
      call.payload.destinationLocationId.isSome) ∈
        allowedShapes call.payload.movementType := by
  have hPositions := h.positions
  unfold validatePositions at hPositions
  split at hPositions
  · cases hPositions
  split at hPositions
  · cases hPositions
  · rename_i hShape
    simpa using hShape

theorem linked (h : CallOk call) :
    (call.payload.movementType = .correction ∨
      call.payload.movementType = .reversal) ↔
    call.payload.originalMovementId ≠ none := by
  have hLinked := linked_of_validatePositions h.positions
  rw [← Option.isSome_iff_ne_none, ← hLinked]
  simp [isLinked]

theorem custodyType
    (h : CallOk call)
    (hCustody : call.custodyUserId ≠ none) :
    call.payload.movementType ∈
      [MovementType.issue, .return_, .reversal] := by
  have hArguments := h.custody
  unfold checkCustodyArguments at hArguments
  split at hArguments
  · rename_i hType
    simp [hType]
  split at hArguments
  · cases hArguments
  · rename_i hType
    have hIn : call.payload.movementType ∈
        [MovementType.issue, .return_] := by
      by_contra hOut
      exact hType ⟨hCustody, hOut⟩
    simp only [List.mem_cons, List.not_mem_nil, or_false]
      at hIn ⊢
    rcases hIn with hIssue | hReturn
    · exact Or.inl hIssue
    · exact Or.inr (Or.inl hReturn)

end CallOk

section Header

variable {env : MovementEnv}
variable {call : MovementCall}
variable {requestId actorSnapshot : Text}
variable {locations : List Location}

/- The header row has the shape of a valid movement. -/
theorem shapeValid_movementRow (h : CallOk call) :
    ShapeValid (movementRow env call requestId actorSnapshot
      locations) :=
  ⟨h.distinct, h.custodyType, h.linked⟩

private theorem snapshot_isSome
    {R : Type}
    {position : Option Uuid}
    (hFound : ∀ id, position = some id →
      ∃ l ∈ locations, l.id = id)
    (f : Location → R) :
    ((position.bind (fun id =>
      Table.find Location.id id locations)).map f).isSome =
      position.isSome := by
  cases position with
  | none => rfl
  | some id =>
      rcases hFound id rfl with ⟨l, hl, hId⟩
      cases hFind : Table.find Location.id id locations with
      | none =>
          exact absurd hId
            (Table.find_eq_none_iff.mp hFind l hl)
      | some l' => simp [hFind]

open Sql in
private theorem positionsDistinct_passes
    {m : Movement}
    (h : ShapeValid m) :
    m.positionsDistinct.Passes := by
  unfold Movement.positionsDistinct
  rw [Truth.passes_or, passes_isNull]
  cases hSource : m.sourceLocationId with
  | none => exact Or.inl rfl
  | some a =>
      right
      have hNe := h.positions (by simp [hSource])
      rw [Truth.passes_or, passes_isNull]
      cases hDestination : m.destinationLocationId with
      | none => exact Or.inl rfl
      | some b =>
          right
          rw [hSource, hDestination] at hNe
          have hab : a ≠ b := fun hEq => hNe (by rw [hEq])
          simp [ne, eq, Truth.not, hab]

private theorem operationPositions_passes
    {m : Movement}
    (h : (m.sourceLocationId.isSome,
      m.destinationLocationId.isSome) ∈
        allowedShapes m.movementType) :
    m.operationPositions.Passes := by
  cases hType : m.movementType <;>
    rw [hType] at h <;>
    cases hSource : m.sourceLocationId <;>
    cases hDestination : m.destinationLocationId <;>
    simp_all [allowedShapes, Movement.operationPositions,
      Movement.typeIn]

private theorem custodyMovementType_passes
    {m : Movement}
    (h : ShapeValid m) :
    m.custodyMovementType.Passes := by
  unfold Movement.custodyMovementType Movement.typeIn
  rw [Sql.Truth.passes_or, Sql.passes_isNull]
  by_cases hNone : m.custodyUserId = none
  · exact Or.inl hNone
  · exact Or.inr (by simpa using h.custody hNone)

open Sql in
private theorem snapshot_passes
    {position : Option Uuid}
    {code name : Option Text}
    (hCode : code.isSome = position.isSome)
    (hName : name.isSome = position.isSome) :
    ((eq (isNull position) (isNull code)).and
      (eq (isNull position) (isNull name))).Passes := by
  cases position <;> cases code <;> cases name <;>
    simp_all [eq, isNull]

private theorem originalRelationship_passes
    {m : Movement}
    (h : ShapeValid m) :
    m.originalRelationship.Passes := by
  have hLinked := h.linked
  cases hType : m.movementType <;>
    cases hOriginal : m.originalMovementId <;>
    simp_all [Movement.originalRelationship,
      Movement.typeIn, Sql.Truth.not]

private theorem originalNotSelf_passes
    {m : Movement}
    (h : m.originalMovementId ≠ some m.id) :
    m.originalNotSelf.Passes := by
  cases hOriginal : m.originalMovementId with
  | none => simp [Movement.originalNotSelf, hOriginal]
  | some o =>
      rw [hOriginal] at h
      simp_all [Movement.originalNotSelf, Sql.ne, Sql.eq,
        Sql.Truth.not]

/-
  The `CHECK` constraints accept the header row, unless its
  new id is the one of its original.
-/
theorem movementChecks_movementRow
    (h : CallOk call)
    (hFound : ∀ id ∈ locationIds call.payload,
      ∃ l ∈ locations, l.id = id)
    {g : DatabaseGuard}
    (hRaise : movementChecks (movementRow env call requestId
      actorSnapshot locations) = .error g) :
    g = .originalNotSelf ∧
      call.payload.originalMovementId =
        some env.movementId := by
  have hShape : ShapeValid (movementRow env call requestId
      actorSnapshot locations) := shapeValid_movementRow h
  have hSource : ∀ id,
      call.payload.sourceLocationId = some id →
        ∃ l ∈ locations, l.id = id := by
    intro id hId
    exact hFound id (mem_sortedIds.mpr (by simp [hId]))
  have hDestination : ∀ id,
      call.payload.destinationLocationId = some id →
        ∃ l ∈ locations, l.id = id := by
    intro id hId
    exact hFound id (mem_sortedIds.mpr (by simp [hId]))
  have hRange : 1 ≤ call.payload.lines.length ∧
      call.payload.lines.length ≤ 500 :=
    ⟨call.payload.lines_nonempty, call.payload.lines_length⟩
  have hLineCount : (movementRow env call requestId
      actorSnapshot locations).lineCountRange.Passes := by
    simpa [Movement.lineCountRange, movementRow] using hRange
  simp only [movementChecks, raiseIf_bind_eq_error,
    raiseIf_eq_error] at hRaise
  rcases hRaise with ⟨hNot, _⟩ | ⟨_, ⟨hNot, _⟩ | ⟨_,
    ⟨hNot, _⟩ | ⟨_, ⟨hNot, _⟩ | ⟨_, ⟨hNot, _⟩ | ⟨_,
    ⟨hNot, _⟩ | ⟨_, ⟨hNot, _⟩ | ⟨_, hNot, rfl⟩⟩⟩⟩⟩⟩⟩
  · exact absurd (positionsDistinct_passes hShape) hNot
  · exact absurd (operationPositions_passes h.shape) hNot
  · exact absurd (custodyMovementType_passes hShape) hNot
  · exact absurd hLineCount hNot
  · exact absurd (snapshot_passes (snapshot_isSome hSource _)
      (snapshot_isSome hSource _)) hNot
  · exact absurd
      (snapshot_passes (snapshot_isSome hDestination _)
        (snapshot_isSome hDestination _)) hNot
  · exact absurd (originalRelationship_passes hShape) hNot
  · refine ⟨rfl, ?_⟩
    by_contra hSelf
    exact hNot (originalNotSelf_passes hSelf)

/- The original of the header row is that of the call. -/
theorem originalOf_movementRow (s : Db) :
    s.originalOf (movementRow env call requestId actorSnapshot
      locations) =
      call.payload.originalMovementId.bind s.findMovement :=
  rfl

variable {prepared : Prepared}
variable {held : List Lock}
variable {s : Db}

/- `validate_warehouse_correction_header` accepts the row. -/
theorem correctionHeader_movementRow
    (hJournal : JournalValid s)
    (h : Ready call requestId prepared held s)
    (hMirror : MirrorsCommitted call s) :
    validateWarehouseCorrectionHeader
      (movementRow env call requestId actorSnapshot locations)
      (call.payload.originalMovementId.bind s.findMovement) =
        .ok () := by
  have hRow : (movementRow env call requestId actorSnapshot
      locations).movementType =
        call.payload.movementType := rfl
  unfold validateWarehouseCorrectionHeader
  rw [hRow]
  by_cases hType : call.payload.movementType ∈
      [MovementType.correction, .reversal]
  swap
  · rw [if_pos hType]
  have hSome : call.payload.originalMovementId ≠ none := by
    have hLinked := linked_of_validatePositions h.positions
    rw [← Option.isSome_iff_ne_none, ← hLinked]
    simpa [isLinked] using hType
  rcases Option.ne_none_iff_exists'.mp hSome with ⟨o, ho⟩
  rcases h.original.linked o ho with
    ⟨m, hRecord, hFind, hTarget, _, _⟩
  rw [if_neg (not_not.mpr hType), ho, Option.bind_some, hFind]
  simp only [raiseIf_bind_eq_ok, hTarget, not_false_eq_true,
    true_and]
  by_cases hReversal :
      call.payload.movementType = .reversal
  · rcases hMirror hReversal o ho with
      ⟨m', hFind', hSource, hDestination, hPairs⟩
    rw [hFind] at hFind'
    cases hFind'
    -- the mirror image has as many lines
    have hCount : call.payload.lines.length =
        m.lineCount := by
      have hLines := hJournal.lines m (Table.mem_of_find hFind)
      have hId : m.id = o := Table.key_of_find hFind
      have hLength := congrArg List.length hPairs
      rw [hId] at hLines
      rw [List.length_map, linePairs, List.length_map,
        hLines.count] at hLength
      exact hLength
    rw [if_pos hReversal]
    simp only [raiseIf_bind_eq_ok, raiseIf_eq_ok, not_not]
    exact ⟨hCount, by simp [movementRow, hSource,
      hDestination]⟩
  · have hCorrection :
        call.payload.movementType = .correction := by
      simp only [List.mem_cons, List.not_mem_nil,
        or_false] at hType
      exact hType.resolve_right hReversal
    rw [if_neg hReversal, raiseIf_eq_ok]
    rcases (h.correction hCorrection _ hRecord).1 with
      ⟨id, hId, hAt⟩
    have hPosition := mem_sortedIds.mp hId
    rw [Sql.Truth.holds_not_orElse_false, not_not,
      Sql.Truth.holds_or, Sql.holds_inList, Sql.holds_inList]
    simp only [List.mem_append, Option.mem_toList]
      at hPosition
    -- the position of the row that the original has too
    rcases hPosition with hSource | hDestination
    · left
      exact ⟨id, hSource, by simpa [eq_comm] using hAt⟩
    · right
      exact ⟨id, hDestination, by simpa [eq_comm] using hAt⟩

/- The custody of the call is the one the role requires. -/
structure CustodyFits
    (call : MovementCall)
    (role : Option UserRole) : Prop where
  holder : call.payload.movementType ∈
      [MovementType.issue, .return_] →
    ∀ r, role = some r → r ∈ custodyRoles →
      call.custodyUserId = some call.actorUserId
  administrator : call.payload.movementType ∈
      [MovementType.issue, .return_] →
    ∀ r, role = some r → r ∈ [UserRole.admin, .owner] →
      call.custodyUserId = none

open Sql in
/- `validate_movement_custody` only objects to the role. -/
theorem movementCustody_movementRow
    (hCall : CallOk call)
    (hJournal : JournalValid s)
    (h : Ready call requestId prepared held s)
    {role : Option UserRole}
    (hFits : CustodyFits call role) :
    validateMovementCustody
      (movementRow env call requestId actorSnapshot locations)
      role
      (call.payload.originalMovementId.bind
        s.findMovement) = .ok () := by
  have hShape : ShapeValid (movementRow env call requestId
      actorSnapshot locations) := shapeValid_movementRow hCall
  simp only [validateMovementCustody, raiseIf_bind_eq_ok,
    raiseIf_eq_ok]
  refine ⟨?_, ?_, ?_, ?_, ?_, ?_, ?_⟩
  · rintro hHolds
    rw [Truth.holds_and, holds_isNotNull] at hHolds
    have hIn := hShape.custody hHolds.1
    exact absurd hHolds.2 (by
      simp [Movement.typeIn, Truth.not, hIn])
  · rintro ⟨hType, hHolds⟩
    rw [Truth.holds_and, holds_inList,
      holds_isDistinctFrom] at hHolds
    rcases hHolds with ⟨⟨r, hRole, hIn⟩, hNe⟩
    exact hNe (hFits.holder hType r hRole (by
      simpa using hIn))
  · rintro ⟨hType, hHolds⟩
    rw [Truth.holds_and, holds_inList,
      holds_isNotNull] at hHolds
    rcases hHolds with ⟨⟨r, hRole, hIn⟩, hNe⟩
    exact hNe (hFits.administrator hType r hRole (by
      simpa using hIn))
  · rintro ⟨hType, hHolds⟩
    rw [holds_isNotNull] at hHolds
    cases ho : call.payload.originalMovementId with
    | none => simp [ho] at hHolds
    | some o =>
        rcases h.original.linked o ho with
          ⟨m, _, hFind, _, hCorrection, _⟩
        simp [ho, hFind, hCorrection hType] at hHolds
  · rintro ⟨hType, hNone⟩
    have hSome := hCall.linked.mp (Or.inr hType)
    rcases Option.ne_none_iff_exists'.mp hSome with ⟨o, ho⟩
    rcases h.original.linked o ho with ⟨m, _, hFind, _⟩
    simp [ho, hFind] at hNone
  · rintro ⟨hType, hHolds⟩
    have hSome := hCall.linked.mp (Or.inr hType)
    rcases Option.ne_none_iff_exists'.mp hSome with ⟨o, ho⟩
    rcases h.original.linked o ho with
      ⟨m, _, hFind, _, _, hReversal⟩
    rw [holds_isDistinctFrom] at hHolds
    apply hHolds
    rw [ho, Option.bind_some, hFind]
    exact (hReversal hType).1
  · rintro ⟨hType, hHolds⟩
    have hSome := hCall.linked.mp (Or.inr hType)
    rcases Option.ne_none_iff_exists'.mp hSome with ⟨o, ho⟩
    rcases h.original.linked o ho with
      ⟨m, _, hFind, hTarget, _, hReversal⟩
    rw [Truth.holds_and, holds_isNotNull] at hHolds
    -- only issues and returns have custody to give back
    have hCustody : m.custodyUserId ≠ none := by
      rw [← (hReversal hType).1]
      exact hHolds.1
    have hIn := (hJournal.shapes m
      (Table.mem_of_find hFind)).custody hCustody
    simp only [List.mem_cons, List.not_mem_nil,
      or_false] at hIn
    have hNot := hHolds.2
    rw [ho, Option.bind_some, hFind, Option.map_some,
      notInList] at hNot
    have hList := inList_some_map m.movementType
      [MovementType.issue, .return_]
    simp only [List.map_cons, List.map_nil] at hList
    rw [hList] at hNot
    rcases hIn with hIssue | hReturn | hRev
    · simp [hIssue, Truth.not] at hNot
    · simp [hReturn, Truth.not] at hNot
    · exact hTarget hRev

/- A guard on custody means that the role does not fit. -/
theorem custodyFits_of_movementCustody
    (hCall : CallOk call)
    (hJournal : JournalValid s)
    (h : Ready call requestId prepared held s)
    {role : Option UserRole}
    {g : DatabaseGuard}
    (hRaise : validateMovementCustody
      (movementRow env call requestId actorSnapshot locations)
      role
      (call.payload.originalMovementId.bind
        s.findMovement) = .error g) :
    ¬ CustodyFits call role := by
  intro hFits
  rw [movementCustody_movementRow hCall hJournal h hFits]
    at hRaise
  cases hRaise

end Header

------------------------------------------------------------
-- The Line Rows
------------------------------------------------------------

/- The rows of the lines, in the order of their items. -/
structure RowsOf
    (env : MovementEnv)
    (call : MovementCall)
    (rows : List MovementLine) : Prop where
  pairs : linePairs rows =
    call.payload.sortedLines.map MovementLineCreate.pair
  header : ∀ l ∈ rows, l.movementId = env.movementId

/-
  The rows are numbered from one, and every line passed the
  checks of the loop.
-/
structure RowsOk
    (env : MovementEnv)
    (call : MovementCall)
    (prepared : Prepared)
    (rows : List MovementLine) : Prop
    extends RowsOf env call rows where
  numbers : rows.map MovementLine.lineNo =
    List.range' 1 rows.length
  checked : ∀ l ∈ call.payload.sortedLines,
    checkLine call.payload call.custodyUserId
      prepared.original prepared.balances l = .ok ()

section Lines

variable {env : MovementEnv}
variable {call : MovementCall}
variable {requestId actorSnapshot : Text}
variable {locations : List Location}
variable {prepared : Prepared}
variable {rows : List MovementLine}
variable {held : List Lock}
variable {s : Db}

/- The row of a line has its item and its quantity. -/
theorem movementLineRow_ok
    {movementId : Uuid}
    {items : List Item}
    {balances : Balances}
    {number : Nat}
    {line : MovementLineCreate}
    {row : MovementLine}
    (h : movementLineRow movementId items balances number
      line = .ok row) :
    (row.itemId, row.quantity) = line.pair ∧
      row.movementId = movementId ∧ row.lineNo = number := by
  unfold movementLineRow at h
  split at h
  · cases h
  · rename_i item hFind
    cases h
    have hItem : item.id = line.itemId :=
      Table.key_of_find hFind
    exact ⟨by simp [MovementLineCreate.pair, hItem],
      rfl, rfl⟩

/- What the loop returns. -/
private theorem quantityLoop_rows
    {payload : MovementCreate}
    {custodyUserId : Option Uuid}
    {original : Option MovementRecord}
    {items : List Item}
    {balances : Balances}
    {movementId : Uuid}
    {number : Nat}
    {lines : List MovementLineCreate}
    (h : quantityLoop payload custodyUserId original items
      balances movementId number lines = .ok rows) :
    linePairs rows = lines.map MovementLineCreate.pair ∧
      (∀ l ∈ rows, l.movementId = movementId) ∧
      rows.map MovementLine.lineNo =
        List.range' number rows.length ∧
      ∀ l ∈ lines, checkLine payload custodyUserId original
        balances l = .ok () := by
  induction lines generalizing number rows with
  | nil =>
      cases h
      exact ⟨rfl, by simp, rfl, by simp⟩
  | cons line rest ih =>
      unfold quantityLoop at h
      cases hCheck : checkLine payload custodyUserId original
          balances line with
      | error e => simp [hCheck, Bind.bind, Except.bind] at h
      | ok _ =>
      cases hRow : movementLineRow movementId items balances
          number line with
      | error e =>
          simp [hCheck, hRow, Bind.bind, Except.bind] at h
      | ok row =>
      cases hRest : quantityLoop payload custodyUserId
          original items balances movementId (number + 1)
          rest with
      | error e =>
          simp [hCheck, hRow, hRest, Bind.bind,
            Except.bind] at h
      | ok rows' =>
          simp only [hCheck, hRow, hRest, Bind.bind,
            Except.bind, Pure.pure, Except.pure,
            Except.ok.injEq] at h
          subst h
          rcases ih hRest with
            ⟨hPairs, hHeader, hNumbers, hChecked⟩
          rcases movementLineRow_ok hRow with
            ⟨hPair, hId, hNumber⟩
          refine ⟨?_, ?_, ?_, ?_⟩
          · simp only [linePairs, List.map_cons] at hPairs ⊢
            rw [hPair, hPairs]
          · simpa [hId] using hHeader
          · simp [hNumber, hNumbers, List.range'_succ]
          · simpa [hCheck] using hChecked

theorem quantityLoop_ok
    (h : quantityLoop call.payload call.custodyUserId
      prepared.original prepared.items prepared.balances
      env.movementId 1 call.payload.sortedLines =
        .ok rows) :
    RowsOk env call prepared rows := by
  rcases quantityLoop_rows h with
    ⟨hPairs, hHeader, hNumbers, hChecked⟩
  exact ⟨⟨hPairs, hHeader⟩, hNumbers, hChecked⟩

namespace RowsOf

/- The rows are the lines of the payload, reordered. -/
theorem perm (h : RowsOf env call rows) :
    (linePairs rows).Perm
      (call.payload.lines.map MovementLineCreate.pair) := by
  rw [h.pairs]
  exact call.payload.sortedLines_perm.map _

theorem length (h : RowsOf env call rows) :
    rows.length = call.payload.lines.length := by
  simpa [linePairs] using h.perm.length_eq

/- Each row is one of the lines. -/
theorem line_of_row
    (h : RowsOf env call rows)
    {row : MovementLine}
    (hRow : row ∈ rows) :
    ∃ l ∈ call.payload.lines, l.pair =
      (row.itemId, row.quantity) := by
  have hPair : (row.itemId, row.quantity) ∈
      call.payload.sortedLines.map MovementLineCreate.pair := by
    rw [← h.pairs]
    exact List.mem_map_of_mem hRow
  rcases List.mem_map.mp hPair with ⟨l, hl, hEq⟩
  have hMem : l ∈ call.payload.lines :=
    (call.payload.sortedLines_perm.mem_iff).mp hl
  exact ⟨l, hMem, hEq⟩

/- The rows are those of a valid movement. -/
theorem linesValid
    (h : RowsOf env call rows)
    (hDistinct : (call.payload.lines.map
      MovementLineCreate.itemId).Nodup) :
    LinesValid (movementRow env call requestId actorSnapshot
      locations) rows where
  header := h.header
  distinct := by
    have hItems : (rows.map MovementLine.itemId).Perm
        (call.payload.lines.map
          MovementLineCreate.itemId) := by
      simpa [linePairs, List.map_map, Function.comp_def,
        MovementLineCreate.pair] using h.perm.map Prod.fst
    exact hItems.nodup_iff.mpr hDistinct
  count := h.length
  range := ⟨call.payload.lines_nonempty,
    call.payload.lines_length⟩
  quantity row hRow := by
    rcases h.line_of_row hRow with ⟨l, _, hPair⟩
    have hQuantity : l.quantity = row.quantity :=
      congrArg Prod.snd hPair
    rw [← hQuantity]
    exact ⟨l.quantity_pos, l.quantity_le⟩

end RowsOf

namespace RowsOk

/- `validate_warehouse_correction_line` accepts each row. -/
theorem correctionLine
    (h : RowsOk env call prepared rows)
    (hReady : Ready call requestId prepared held s)
    (hMirror : MirrorsCommitted call s)
    {row : MovementLine}
    (hRow : row ∈ rows) :
    validateWarehouseCorrectionLine
      (movementRow env call requestId actorSnapshot locations)
      (call.payload.originalMovementId.elim [] s.linesOf)
      row = .ok () := by
  unfold validateWarehouseCorrectionLine
  rw [raiseIf_eq_ok, not_and, not_not]
  intro hType
  have hLinked := linked_of_validatePositions hReady.positions
  have hSome : call.payload.originalMovementId.isSome := by
    rw [← hLinked]
    simpa [isLinked, movementRow] using hType
  rcases Option.isSome_iff_exists.mp hSome with ⟨o, ho⟩
  rcases hReady.original.linked o ho with ⟨m, hRecord, _⟩
  rcases h.line_of_row hRow with ⟨l, hl, hRowPair⟩
  have hItem : l.itemId = row.itemId :=
    congrArg Prod.fst hRowPair
  rw [ho, Option.elim_some]
  by_cases hReversal :
      call.payload.movementType = .reversal
  · rcases hMirror hReversal o ho with ⟨_, _, _, _, hPairs⟩
    have hPair : l.pair ∈ linePairs (s.linesOf o) := by
      rw [← hPairs]
      exact List.mem_map_of_mem hl
    rcases List.mem_map.mp hPair with ⟨l', hl', hEq⟩
    have hBoth := hEq.trans hRowPair
    exact ⟨l', hl', congrArg Prod.fst hBoth,
      Or.inr (congrArg Prod.snd hBoth)⟩
  · have hCorrection :
        call.payload.movementType = .correction := by
      simp only [movementRow, List.mem_cons,
        List.not_mem_nil, or_false] at hType
      exact hType.resolve_right hReversal
    have hItems := (hReady.correction hCorrection _
      hRecord).2
    rcases hItems l.itemId (mem_sortedIds.mpr
      (List.mem_map_of_mem hl)) with ⟨l', hl', hEq⟩
    exact ⟨l', hl', hEq.trans hItem, Or.inl hCorrection⟩

/- The deferred count of the lines accepts the rows. -/
theorem lineCount
    (h : RowsOk env call prepared rows) :
    validateWarehouseMovementLineCount
      (movementRow env call requestId actorSnapshot locations)
      rows = .ok () := by
  have hCount : (movementRow env call requestId actorSnapshot
      locations).lineCount = rows.length := h.length.symm
  have hPos : 1 ≤ rows.length := by
    rw [h.length]
    exact call.payload.lines_nonempty
  unfold validateWarehouseMovementLineCount
  rw [raiseIf_eq_ok, h.numbers]
  have hMin : (List.range' 1 rows.length).min? = some 1 := by
    rw [List.min?_eq_some_iff]
    exact ⟨by simp [List.mem_range'_1]; omega,
      fun b hb => (List.mem_range'_1.mp hb).1⟩
  have hMax : (List.range' 1 rows.length).max? =
      some rows.length := by
    rw [List.max?_eq_some_iff]
    exact ⟨by simp [List.mem_range'_1]; omega,
      fun b hb => by
        have := List.mem_range'_1.mp hb
        omega⟩
  simp [hMin, hMax, hCount]

end RowsOk

end Lines
