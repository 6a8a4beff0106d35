import DcInventory.Core.Idempotency
import DcInventory.Schema.Rows
import Mathlib.Data.List.Sort

/-
  This file defines the payloads of warehouse operations and
  their canonical form. A payload carries the bounds that its
  schema checks.

  Key definitions include:
    * `MovementCreate`
    * `MovementCreate.build`
    * `MovementCreate.canonical`

  Key theorems include:
    * `MovementCreate.canonical_eq_iff`
-/

------------------------------------------------------------
-- Payloads
------------------------------------------------------------

structure MovementLineCreate where
  itemId : Uuid
  quantity : Nat
  quantity_pos : 0 < quantity
  quantity_le : quantity ≤ maxQuantity
deriving DecidableEq

structure MovementCreate where
  movementType : MovementType
  sourceLocationId : Option Uuid
  destinationLocationId : Option Uuid
  originalMovementId : Option Uuid
  clientRequestId : Text
  lines : List MovementLineCreate
  key_nonempty : 1 ≤ clientRequestId.length
  key_length : clientRequestId.length ≤ 128
  lines_nonempty : 1 ≤ lines.length
  lines_length : lines.length ≤ 500

structure MovementReversalCreate where
  clientRequestId : Text
  key_nonempty : 1 ≤ clientRequestId.length
  key_length : clientRequestId.length ≤ 128

namespace MovementLineCreate

/- The item and the quantity of a line. -/
def pair (l : MovementLineCreate) : Uuid × Nat :=
  (l.itemId, l.quantity)

theorem pair_injective : Function.Injective pair := by
  rintro ⟨i, q, _, _⟩ ⟨i', q', _, _⟩ h
  cases h
  rfl

/- A line from unchecked values. -/
def build
    (itemId : Uuid)
    (quantity : Nat) : Option MovementLineCreate :=
  if h : 0 < quantity ∧ quantity ≤ maxQuantity then
    some ⟨itemId, quantity, h.1, h.2⟩
  else none

/- Lines from unchecked values. -/
def buildAll :
    List (Uuid × Nat) → Option (List MovementLineCreate)
| [] => some []
| (itemId, quantity) :: rest =>
    match build itemId quantity, buildAll rest with
    | some line, some lines => some (line :: lines)
    | _, _ => none

theorem pair_of_build
    {itemId : Uuid}
    {quantity : Nat}
    {line : MovementLineCreate}
    (h : build itemId quantity = some line) :
    line.pair = (itemId, quantity) := by
  unfold build at h
  split at h
  · cases h
    rfl
  · cases h

theorem pairs_of_buildAll
    {pairs : List (Uuid × Nat)}
    {lines : List MovementLineCreate}
    (h : buildAll pairs = some lines) :
    lines.map pair = pairs := by
  induction pairs generalizing lines with
  | nil =>
      cases h
      rfl
  | cons p rest ih =>
      unfold buildAll at h
      split at h
      · rename_i line lines' hLine hLines
        cases h
        rw [List.map_cons, pair_of_build hLine, ih hLines]
      · cases h

/- Quantities in range make lines. -/
theorem buildAll_isSome
    {pairs : List (Uuid × Nat)}
    (h : ∀ p ∈ pairs, 0 < p.2 ∧ p.2 ≤ maxQuantity) :
    ∃ lines, buildAll pairs = some lines := by
  induction pairs with
  | nil => exact ⟨[], rfl⟩
  | cons p rest ih =>
      rcases ih (fun q hq => h q (List.mem_cons_of_mem p hq))
        with ⟨lines, hLines⟩
      have hBounds := h p List.mem_cons_self
      exact ⟨⟨p.1, p.2, hBounds.1, hBounds.2⟩ :: lines, by
        simp [buildAll, build, hBounds, hLines]⟩

end MovementLineCreate

namespace MovementCreate

/- A payload from unchecked values. -/
def build
    (movementType : MovementType)
    (sourceLocationId destinationLocationId : Option Uuid)
    (originalMovementId : Option Uuid)
    (clientRequestId : Text)
    (pairs : List (Uuid × Nat)) : Option MovementCreate :=
  match MovementLineCreate.buildAll pairs with
  | none => none
  | some lines =>
      if h : (1 ≤ clientRequestId.length ∧
          clientRequestId.length ≤ 128) ∧
          (1 ≤ lines.length ∧ lines.length ≤ 500) then
        some ⟨movementType, sourceLocationId,
          destinationLocationId, originalMovementId,
          clientRequestId, lines, h.1.1, h.1.2, h.2.1, h.2.2⟩
      else none

/- What was given is what the payload has. -/
structure BuiltFrom
    (payload : MovementCreate)
    (movementType : MovementType)
    (sourceLocationId destinationLocationId : Option Uuid)
    (originalMovementId : Option Uuid)
    (clientRequestId : Text)
    (pairs : List (Uuid × Nat)) : Prop where
  movementType : payload.movementType = movementType
  source : payload.sourceLocationId = sourceLocationId
  destination :
    payload.destinationLocationId = destinationLocationId
  original : payload.originalMovementId = originalMovementId
  key : payload.clientRequestId = clientRequestId
  lines :
    payload.lines.map MovementLineCreate.pair = pairs

theorem builtFrom_of_build
    {movementType : MovementType}
    {sourceLocationId destinationLocationId : Option Uuid}
    {originalMovementId : Option Uuid}
    {clientRequestId : Text}
    {pairs : List (Uuid × Nat)}
    {payload : MovementCreate}
    (h : build movementType sourceLocationId
      destinationLocationId originalMovementId
      clientRequestId pairs = some payload) :
    payload.BuiltFrom movementType sourceLocationId
      destinationLocationId originalMovementId
      clientRequestId pairs := by
  unfold build at h
  split at h
  · cases h
  · rename_i lines hLines
    split at h
    · cases h
      exact ⟨rfl, rfl, rfl, rfl, rfl,
        MovementLineCreate.pairs_of_buildAll hLines⟩
    · cases h

/- Values in range make a payload. -/
theorem build_isSome
    {movementType : MovementType}
    {sourceLocationId destinationLocationId : Option Uuid}
    {originalMovementId : Option Uuid}
    {clientRequestId : Text}
    {pairs : List (Uuid × Nat)}
    (hKey : 1 ≤ clientRequestId.length ∧
      clientRequestId.length ≤ 128)
    (hLines : 1 ≤ pairs.length ∧ pairs.length ≤ 500)
    (hQuantities : ∀ p ∈ pairs,
      0 < p.2 ∧ p.2 ≤ maxQuantity) :
    ∃ payload, build movementType sourceLocationId
      destinationLocationId originalMovementId
      clientRequestId pairs = some payload := by
  rcases MovementLineCreate.buildAll_isSome hQuantities with
    ⟨lines, hBuild⟩
  have hLength : lines.length = pairs.length := by
    rw [← MovementLineCreate.pairs_of_buildAll hBuild,
      List.length_map]
  have hBounds : (1 ≤ clientRequestId.length ∧
      clientRequestId.length ≤ 128) ∧
      (1 ≤ lines.length ∧ lines.length ≤ 500) :=
    ⟨hKey, by omega⟩
  refine ⟨⟨movementType, sourceLocationId,
    destinationLocationId, originalMovementId,
    clientRequestId, lines, hBounds.1.1, hBounds.1.2,
    hBounds.2.1, hBounds.2.2⟩, ?_⟩
  simp only [build, hBuild, dif_pos hBounds]

end MovementCreate

------------------------------------------------------------
-- Canonical Form
------------------------------------------------------------

namespace MovementCreate

/- `sorted(payload.lines, key=lambda x: x.item_id)` -/
def sortedLines
    (payload : MovementCreate) : List MovementLineCreate :=
  payload.lines.insertionSort
    (fun a b => a.itemId ≤ b.itemId)

theorem sortedLines_perm (payload : MovementCreate) :
    payload.sortedLines.Perm payload.lines :=
  List.perm_insertionSort _ _

/- The JSON form of one line. -/
def lineJson (l : MovementLineCreate) : Json :=
  .ofFields [
    ("item_id".toList, .str l.itemId.str),
    ("quantity".toList, .int l.quantity)]

theorem lineJson_injective :
    Function.Injective lineJson := by
  intro a b h
  have hFields := Json.ofFields_injective h
  simp only [List.cons.injEq, Prod.mk.injEq, true_and,
    and_true, Json.str.injEq, Json.int.injEq,
    Nat.cast_inj] at hFields
  apply MovementLineCreate.pair_injective
  exact Prod.ext (Uuid.str_injective hFields.1) hFields.2

/-
  The payload of a fingerprint: the request with its
  normalised key and its custody user, and lines by item.
-/
def canonical
    (payload : MovementCreate)
    (requestId : Text)
    (custodyUserId : Option Uuid) : Json :=
  .ofFields [
    ("client_request_id".toList, .str requestId),
    ("custody_user_id".toList, .ofUuid? custodyUserId),
    ("destination_location_id".toList,
      .ofUuid? payload.destinationLocationId),
    ("lines".toList,
      .ofItems (payload.sortedLines.map lineJson)),
    ("movement_type".toList,
      .str payload.movementType.value),
    ("original_movement_id".toList,
      .ofUuid? payload.originalMovementId),
    ("source_location_id".toList,
      .ofUuid? payload.sourceLocationId)]

/-
  Two calls with the same fields and custody user, keys equal
  up to whitespace runs and lines equal up to order.
-/
structure SameForm
    (payload payload' : MovementCreate)
    (custodyUserId custodyUserId' : Option Uuid) : Prop where
  movementType :
    payload.movementType = payload'.movementType
  source :
    payload.sourceLocationId = payload'.sourceLocationId
  destination : payload.destinationLocationId =
    payload'.destinationLocationId
  original : payload.originalMovementId =
    payload'.originalMovementId
  key : normalizeIdempotencyKey payload.clientRequestId =
    normalizeIdempotencyKey payload'.clientRequestId
  custody : custodyUserId = custodyUserId'
  lines : payload.lines.Perm payload'.lines

/- Lines with distinct items have one sorted order. -/
theorem sortedLines_eq_of_perm
    {payload payload' : MovementCreate}
    (hDistinct :
      (payload.lines.map MovementLineCreate.itemId).Nodup)
    (h : payload.lines.Perm payload'.lines) :
    payload.sortedLines = payload'.sortedLines := by
  have hSorted : ∀ p : MovementCreate,
      p.sortedLines.Pairwise
        (fun a b => a.itemId ≤ b.itemId) := by
    intro p
    have : Std.Total
        (fun a b : MovementLineCreate =>
          a.itemId ≤ b.itemId) :=
      ⟨fun a b => Uuid.le_total a.itemId b.itemId⟩
    have : IsTrans MovementLineCreate
        (fun a b => a.itemId ≤ b.itemId) :=
      ⟨fun _ _ _ hab hbc => Uuid.le_trans hab hbc⟩
    exact List.pairwise_insertionSort _ p.lines
  have hPerm : payload.sortedLines.Perm
      payload'.sortedLines :=
    (payload.sortedLines_perm.trans h).trans
      payload'.sortedLines_perm.symm
  have hNodup : (payload.sortedLines.map
      MovementLineCreate.itemId).Nodup :=
    ((payload.sortedLines_perm.map _).nodup_iff).mpr
      hDistinct
  refine hPerm.eq_of_pairwise ?_ (hSorted payload)
    (hSorted payload')
  intro a b ha hb hab hba
  -- equal items of one movement are one line
  exact List.inj_on_of_nodup_map hNodup ha
    (hPerm.mem_iff.mpr hb) (Uuid.le_antisymm hab hba)

/-
  Canonical forms agree exactly when the calls have the same
  form, for a payload whose items are distinct.
-/
theorem canonical_eq_iff
    {payload payload' : MovementCreate}
    {custodyUserId custodyUserId' : Option Uuid}
    (hDistinct :
      (payload.lines.map MovementLineCreate.itemId).Nodup) :
    payload.canonical
        (normalizeIdempotencyKey payload.clientRequestId)
        custodyUserId =
      payload'.canonical
        (normalizeIdempotencyKey payload'.clientRequestId)
        custodyUserId' ↔
    payload.SameForm payload' custodyUserId
      custodyUserId' := by
  constructor
  · intro h
    have hFields := Json.ofFields_injective h
    simp only [List.cons.injEq, Prod.mk.injEq, true_and,
      and_true, Json.str.injEq] at hFields
    rcases hFields with ⟨hKey, hCustody, hDestination, hLines,
      hType, hOriginal, hSource⟩
    have hSorted : payload.sortedLines =
        payload'.sortedLines :=
      lineJson_injective.list_map
        (Json.ofItems_injective hLines)
    exact {
      movementType := MovementType.value_injective hType
      source := Json.ofUuid?_injective hSource
      destination := Json.ofUuid?_injective hDestination
      original := Json.ofUuid?_injective hOriginal
      key := hKey
      custody := Json.ofUuid?_injective hCustody
      lines := payload.sortedLines_perm.symm.trans
        (hSorted ▸ payload'.sortedLines_perm) }
  · intro h
    simp only [canonical, h.movementType, h.source,
      h.destination, h.original, h.key, h.custody,
      sortedLines_eq_of_perm hDistinct h.lines]

end MovementCreate
