import DcInventory.Identity.Policy
import DcInventory.Library.ThreeValued
import DcInventory.Schema.Database

/-
  This file defines the guards of the database on rows of the
  journal, with the truth values of SQL.

  Key definitions include:
    * `movementChecks`
    * `validateWarehouseCorrectionHeader`
    * `validateWarehouseCorrectionLine`
    * `validateMovementCustody`
    * `validateWarehouseMovementLineCount`
-/

/- Raise the guard when the condition holds. -/
def raiseIf
    (c : Prop) [Decidable c]
    (g : DatabaseGuard) : Except DatabaseGuard Unit :=
  if c then .error g else .ok ()

@[simp]
theorem raiseIf_eq_ok
    (c : Prop) [Decidable c]
    (g : DatabaseGuard) :
    raiseIf c g = .ok () ↔ ¬ c := by
  unfold raiseIf
  split <;> simp_all

/- Guards in a row pass when each of them does. -/
@[simp]
theorem raiseIf_bind_eq_ok
    (c : Prop) [Decidable c]
    (g : DatabaseGuard)
    (f : Unit → Except DatabaseGuard Unit) :
    (raiseIf c g >>= f) = .ok () ↔ ¬ c ∧ f () = .ok () := by
  unfold raiseIf
  split
  · simp_all [Bind.bind, Except.bind]
  · simp_all [Bind.bind, Except.bind]

theorem raiseIf_eq_error
    (c : Prop) [Decidable c]
    (g e : DatabaseGuard) :
    raiseIf c g = .error e ↔ c ∧ g = e := by
  unfold raiseIf
  split <;> simp_all

/- Of guards in a row one objects. -/
theorem raiseIf_bind_eq_error
    (c : Prop) [Decidable c]
    (g e : DatabaseGuard)
    (f : Unit → Except DatabaseGuard Unit) :
    (raiseIf c g >>= f) = .error e ↔
      (c ∧ g = e) ∨ (¬ c ∧ f () = .error e) := by
  unfold raiseIf
  split
  · simp_all [Bind.bind, Except.bind]
  · simp_all [Bind.bind, Except.bind]

------------------------------------------------------------
-- Checks Of The Movements Table
------------------------------------------------------------

namespace Movement

open Sql

def typeIn
    (m : Movement)
    (types : List MovementType) : Truth :=
  some (m.movementType ∈ types)

/- `positions_distinct` -/
def positionsDistinct (m : Movement) : Truth :=
  (isNull m.sourceLocationId).or
    ((isNull m.destinationLocationId).or
      (ne m.sourceLocationId m.destinationLocationId))

/- `operation_positions` -/
def operationPositions (m : Movement) : Truth :=
  ((m.typeIn [.receipt, .return_]).and
    ((isNull m.sourceLocationId).and
      (isNotNull m.destinationLocationId))).or
  (((m.typeIn [.issue, .writeOff]).and
    ((isNotNull m.sourceLocationId).and
      (isNull m.destinationLocationId))).or
  (((m.typeIn [.transfer]).and
    ((isNotNull m.sourceLocationId).and
      (isNotNull m.destinationLocationId))).or
  ((m.typeIn [.correction, .reversal]).and
    (some (m.sourceLocationId.isSome ||
      m.destinationLocationId.isSome)))))

/- `custody_movement_type` -/
def custodyMovementType (m : Movement) : Truth :=
  (isNull m.custodyUserId).or
    (m.typeIn [.issue, .return_, .reversal])

/- `line_count_range` -/
def lineCountRange (m : Movement) : Truth :=
  some (1 ≤ m.lineCount ∧ m.lineCount ≤ 500)

/- `source_location_snapshot` -/
def sourceLocationSnapshot (m : Movement) : Truth :=
  (eq (isNull m.sourceLocationId)
    (isNull m.sourceLocationCodeSnapshot)).and
  (eq (isNull m.sourceLocationId)
    (isNull m.sourceLocationNameSnapshot))

/- `destination_location_snapshot` -/
def destinationLocationSnapshot (m : Movement) : Truth :=
  (eq (isNull m.destinationLocationId)
    (isNull m.destinationLocationCodeSnapshot)).and
  (eq (isNull m.destinationLocationId)
    (isNull m.destinationLocationNameSnapshot))

/- `original_relationship` -/
def originalRelationship (m : Movement) : Truth :=
  ((m.typeIn [.correction, .reversal]).and
    (isNotNull m.originalMovementId)).or
  ((m.typeIn [.correction, .reversal]).not.and
    (isNull m.originalMovementId))

/- `original_not_self` -/
def originalNotSelf (m : Movement) : Truth :=
  (isNull m.originalMovementId).or
    (ne m.originalMovementId (some m.id))

end Movement

/- The `CHECK` constraints of the movements table. -/
def movementChecks
    (m : Movement) : Except DatabaseGuard Unit := do
  raiseIf (¬ m.positionsDistinct.Passes) .positionsDistinct
  raiseIf (¬ m.operationPositions.Passes) .operationPositions
  raiseIf (¬ m.custodyMovementType.Passes)
    .custodyMovementType
  raiseIf (¬ m.lineCountRange.Passes) .lineCountRange
  raiseIf (¬ m.sourceLocationSnapshot.Passes)
    .sourceLocationSnapshot
  raiseIf (¬ m.destinationLocationSnapshot.Passes)
    .destinationLocationSnapshot
  raiseIf (¬ m.originalRelationship.Passes)
    .originalRelationship
  raiseIf (¬ m.originalNotSelf.Passes) .originalNotSelf

------------------------------------------------------------
-- Triggers
------------------------------------------------------------

open Sql in
/-
  `validate_warehouse_correction_header`; `original` is what
  it selects by `NEW.original_movement_id`.
-/
def validateWarehouseCorrectionHeader
    (new : Movement)
    (original : Option Movement) :
    Except DatabaseGuard Unit :=
  if new.movementType ∉ [.correction, .reversal] then .ok ()
  else match original with
  | none => .error (.warehouseCorrectionHeader
      "invalid correction/reversal target")
  | some original => do
      raiseIf (original.movementType = .reversal)
        (.warehouseCorrectionHeader
          "invalid correction/reversal target")
      if new.movementType = .reversal then do
        raiseIf (new.lineCount ≠ original.lineCount)
          (.warehouseCorrectionHeader
            "reversal must include every original line")
        raiseIf
          ((isDistinctFrom new.sourceLocationId
              original.destinationLocationId).or
            (isDistinctFrom new.destinationLocationId
              original.sourceLocationId)).Holds
          (.warehouseCorrectionHeader
            "reversal must invert original locations")
      else
        raiseIf
          (((inList new.sourceLocationId
              [original.sourceLocationId,
                original.destinationLocationId]).or
            (inList new.destinationLocationId
              [original.sourceLocationId,
                original.destinationLocationId])).orElse
            false).not.Holds
          (.warehouseCorrectionHeader
            "correction must concern original location")

/-
  `validate_warehouse_correction_line`; `originalLines` are
  the lines of the header's original movement.
-/
def validateWarehouseCorrectionLine
    (header : Movement)
    (originalLines : List MovementLine)
    (new : MovementLine) : Except DatabaseGuard Unit :=
  raiseIf
    (header.movementType ∈ [.correction, .reversal] ∧
      ¬ ∃ l ∈ originalLines, l.itemId = new.itemId ∧
        (header.movementType = .correction ∨
          l.quantity = new.quantity))
    .warehouseCorrectionLine

open Sql in
/-
  `validate_movement_custody`; `actorRole` and `original` are
  what it selects by the actor and the original movement.
-/
def validateMovementCustody
    (new : Movement)
    (actorRole : Option UserRole)
    (original : Option Movement) :
    Except DatabaseGuard Unit := do
  raiseIf
    ((isNotNull new.custodyUserId).and
      (new.typeIn [.issue, .return_, .reversal]).not).Holds
    (.movementCustody
      "custody is only valid for issue, return, or reversal")
  raiseIf
    (new.movementType ∈ [.issue, .return_] ∧
      ((inList actorRole (custodyRoles.map some)).and
        (isDistinctFrom new.custodyUserId
          (some new.actorUserId))).Holds)
    (.movementCustody
      "user issue/return custody must match movement actor")
  raiseIf
    (new.movementType ∈ [.issue, .return_] ∧
      ((inList actorRole [some .admin, some .owner]).and
        (isNotNull new.custodyUserId)).Holds)
    (.movementCustody
      "admin issue/return must not carry custody")
  raiseIf
    (new.movementType = .correction ∧
      (isNotNull
        (original.bind Movement.custodyUserId)).Holds)
    (.movementCustody
      "correction of custody movement is forbidden")
  raiseIf (new.movementType = .reversal ∧ original = none)
    (.movementCustody "reversal original movement not found")
  raiseIf
    (new.movementType = .reversal ∧
      (isDistinctFrom new.custodyUserId
        (original.bind Movement.custodyUserId)).Holds)
    (.movementCustody
      "reversal custody must match original movement")
  raiseIf
    (new.movementType = .reversal ∧
      ((isNotNull new.custodyUserId).and
        (notInList (original.map Movement.movementType)
          [some .issue, some .return_])).Holds)
    (.movementCustody
      "custody reversal requires issue or return original")

/- Every objection of this trigger is one on custody. -/
theorem validateMovementCustody_error
    {new : Movement}
    {actorRole : Option UserRole}
    {original : Option Movement}
    {g : DatabaseGuard}
    (h : validateMovementCustody new actorRole original =
      .error g) :
    ∃ message, g = .movementCustody message := by
  simp only [validateMovementCustody, raiseIf_bind_eq_error,
    raiseIf_eq_error] at h
  rcases h with h | ⟨_, h | ⟨_, h | ⟨_, h | ⟨_, h | ⟨_, h |
    ⟨_, h⟩⟩⟩⟩⟩⟩
  all_goals exact ⟨_, h.2.symm⟩

/-
  `validate_warehouse_movement_line_count`, deferred to the
  commit.
-/
def validateWarehouseMovementLineCount
    (header : Movement)
    (lines : List MovementLine) :
    Except DatabaseGuard Unit :=
  raiseIf
    (lines.length ≠ header.lineCount ∨
      (lines.map MovementLine.lineNo).min? ≠ some 1 ∨
      (lines.map MovementLine.lineNo).max? ≠
        some header.lineCount)
    .warehouseMovementLineCount
