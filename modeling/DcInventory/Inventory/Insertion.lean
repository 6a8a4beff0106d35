import DcInventory.Inventory.Journal
import DcInventory.Inventory.Projection
import Mathlib.Data.List.Nodup
import Mathlib.Data.List.Perm.Basic

/-
  This file defines when the journal is well formed, and
  proves what inserting one movement does to it.

  Key definitions include:
    * `JournalValid`
    * `Admissible`
    * `Db.withMovement`

  Key theorems include:
    * `Db.journalStock_withMovement`
    * `Db.journalCustody_withMovement`
    * `JournalValid.withMovement`
-/

------------------------------------------------------------
-- Well-Formed Journals
------------------------------------------------------------

/- The items and quantities of movement lines. -/
def linePairs (lines : List MovementLine) : List (Uuid × Nat) :=
  lines.map (fun l => (l.itemId, l.quantity))

/-
  A reversal has the positions of its original swapped, the
  same custody user, and the same items and quantities.
-/
structure Mirrors
    (m : Movement)
    (lines : List MovementLine)
    (original : Movement)
    (originalLines : List MovementLine) : Prop where
  source :
    m.sourceLocationId = original.destinationLocationId
  destination :
    m.destinationLocationId = original.sourceLocationId
  custody : m.custodyUserId = original.custodyUserId
  lines : (linePairs lines).Perm (linePairs originalLines)

/- Which positions, custody and original a type allows. -/
structure ShapeValid (m : Movement) : Prop where
  positions : m.sourceLocationId ≠ none →
    m.sourceLocationId ≠ m.destinationLocationId
  custody : m.custodyUserId ≠ none →
    m.movementType ∈
      [MovementType.issue, .return_, .reversal]
  linked :
    (m.movementType = .correction ∨
      m.movementType = .reversal) ↔
    m.originalMovementId ≠ none

/- The lines that one movement may have. -/
structure LinesValid
    (m : Movement)
    (lines : List MovementLine) : Prop where
  header : ∀ l ∈ lines, l.movementId = m.id
  distinct : (lines.map MovementLine.itemId).Nodup
  count : lines.length = m.lineCount
  range : 1 ≤ m.lineCount ∧ m.lineCount ≤ 500
  quantity : ∀ l ∈ lines,
    0 < l.quantity ∧ l.quantity ≤ maxQuantity

/- What a linked movement may be linked to. -/
structure LinkValid
    (m : Movement)
    (lines : List MovementLine)
    (original : Movement)
    (originalLines : List MovementLine) : Prop where
  target : original.movementType ≠ .reversal
  correction : m.movementType = .correction →
    original.custodyUserId = none
  reversal : m.movementType = .reversal →
    Mirrors m lines original originalLines

/- The journal as all transactions leave it. -/
structure JournalValid (db : Db) : Prop where
  ids : (db.movements.map Movement.id).Nodup
  keys : (db.movements.map
    (fun m => (m.actorUserId, m.clientRequestId))).Nodup
  headers : ∀ l ∈ db.movementLines,
    ∃ m ∈ db.movements, m.id = l.movementId
  shapes : ∀ m ∈ db.movements, ShapeValid m
  lines : ∀ m ∈ db.movements, LinesValid m (db.linesOf m.id)
  links : ∀ m ∈ db.movements, ∀ o,
    m.originalMovementId = some o →
      ∃ original ∈ db.movements, original.id = o ∧
        LinkValid m (db.linesOf m.id) original
          (db.linesOf o)
  reversals : ∀ m ∈ db.movements, ∀ m' ∈ db.movements,
    m.movementType = .reversal → m'.movementType = .reversal →
      m.originalMovementId = m'.originalMovementId → m = m'

namespace JournalValid

variable {db : Db}

/- A movement of the journal is found by its id. -/
theorem find_of_mem
    (h : JournalValid db)
    {m : Movement}
    (hm : m ∈ db.movements) :
    db.findMovement m.id = some m :=
  Table.find_of_mem h.ids hm

/- A linked movement finds its original. -/
theorem find_original
    (h : JournalValid db)
    {m : Movement}
    (hm : m ∈ db.movements)
    {o : Uuid}
    (ho : m.originalMovementId = some o) :
    ∃ original, db.findMovement o = some original := by
  rcases h.links m hm o ho with ⟨original, hMem, rfl, _⟩
  exact ⟨original, h.find_of_mem hMem⟩

/- The header of a line is found. -/
theorem find_header
    (h : JournalValid db)
    {l : MovementLine}
    (hl : l ∈ db.movementLines) :
    ∃ m, db.findMovement l.movementId = some m ∧
      m ∈ db.movements := by
  rcases h.headers l hl with ⟨m, hm, hId⟩
  exact ⟨m, hId ▸ h.find_of_mem hm, hm⟩

end JournalValid

------------------------------------------------------------
-- Inserting A Movement
------------------------------------------------------------

namespace Db

/- The database with one more movement and its lines. -/
def withMovement
    (db : Db)
    (m : Movement)
    (lines : List MovementLine) : Db :=
  { db with
    movements := db.movements ++ [m]
    movementLines := db.movementLines ++ lines }

end Db

/- A movement that may be added to a journal. -/
structure Admissible
    (db : Db)
    (m : Movement)
    (lines : List MovementLine) : Prop where
  freshId : db.findMovement m.id = none
  freshKey : ∀ m' ∈ db.movements,
    ¬ (m'.actorUserId = m.actorUserId ∧
      m'.clientRequestId = m.clientRequestId)
  shape : ShapeValid m
  rows : LinesValid m lines
  link : ∀ o, m.originalMovementId = some o →
    ∃ original, db.findMovement o = some original ∧
      LinkValid m lines original (db.linesOf o)
  firstReversal : m.movementType = .reversal →
    ∀ m' ∈ db.movements, m'.movementType = .reversal →
      m'.originalMovementId ≠ m.originalMovementId

namespace Db

variable {db : Db}
variable {m : Movement}
variable {lines : List MovementLine}

/- Old movements are found as before. -/
theorem findMovement_withMovement_of_some
    {id : Uuid}
    {m' : Movement}
    (h : db.findMovement id = some m') :
    (db.withMovement m lines).findMovement id = some m' :=
  Table.find_append_of_some h

/- The new movement is found. -/
theorem findMovement_withMovement_self
    (h : db.findMovement m.id = none) :
    (db.withMovement m lines).findMovement m.id =
      some m := by
  have hFind : (db.withMovement m lines).findMovement m.id =
      Table.find Movement.id m.id [m] :=
    Table.find_append_of_none h
  rw [hFind]
  simp [Table.find]

/- Nothing but the new movement is found in addition. -/
theorem findMovement_withMovement_of_ne
    {id : Uuid}
    (h : m.id ≠ id) :
    (db.withMovement m lines).findMovement id =
      db.findMovement id := by
  cases hOld : db.findMovement id with
  | some m' => exact findMovement_withMovement_of_some hOld
  | none =>
      have hFind :
          (db.withMovement m lines).findMovement id =
            Table.find Movement.id id [m] :=
        Table.find_append_of_none hOld
      rw [hFind]
      simp [Table.find, h]

/- The journal has no line of an unknown movement. -/
theorem linesOf_eq_nil
    (hValid : JournalValid db)
    {id : Uuid}
    (h : db.findMovement id = none) :
    db.linesOf id = [] := by
  rw [linesOf, List.filter_eq_nil_iff]
  intro l hl hEq
  rcases hValid.find_header hl with ⟨m', hFind, _⟩
  have hId : l.movementId = id := by simpa using hEq
  rw [hId, h] at hFind
  cases hFind

/- The lines of the new movement. -/
theorem linesOf_withMovement_self
    (hValid : JournalValid db)
    (hFresh : db.findMovement m.id = none)
    (hHeader : ∀ l ∈ lines, l.movementId = m.id) :
    (db.withMovement m lines).linesOf m.id = lines := by
  have hOld := linesOf_eq_nil hValid hFresh
  unfold linesOf at hOld ⊢
  rw [withMovement, List.filter_append, hOld,
    List.nil_append, List.filter_eq_self]
  intro l hl
  simpa using hHeader l hl

/- The lines of other movements. -/
theorem linesOf_withMovement_of_ne
    {id : Uuid}
    (hHeader : ∀ l ∈ lines, l.movementId = m.id)
    (h : m.id ≠ id) :
    (db.withMovement m lines).linesOf id =
      db.linesOf id := by
  have hNew : lines.filter (fun l => l.movementId = id) =
      [] := by
    rw [List.filter_eq_nil_iff]
    intro l hl hEq
    exact h ((hHeader l hl).symm.trans (by simpa using hEq))
  unfold linesOf
  rw [withMovement, List.filter_append, hNew,
    List.append_nil]

/- The journal grows by the lines of the new movement. -/
theorem journal_withMovement
    (hValid : JournalValid db)
    (hFresh : db.findMovement m.id = none)
    (hHeader : ∀ l ∈ lines, l.movementId = m.id) :
    (db.withMovement m lines).journal =
      db.journal ++ lines.map (fun l => (m, l)) := by
  have hOld : ∀ l ∈ db.movementLines,
      (db.withMovement m lines).findMovement l.movementId =
        db.findMovement l.movementId := by
    intro l hl
    rcases hValid.find_header hl with ⟨m', hFind, _⟩
    rw [hFind]
    exact findMovement_withMovement_of_some hFind
  have hNew : ∀ l ∈ lines,
      (db.withMovement m lines).findMovement l.movementId =
        some m := by
    intro l hl
    rw [hHeader l hl]
    exact findMovement_withMovement_self hFresh
  unfold journal
  rw [show (db.withMovement m lines).movementLines =
    db.movementLines ++ lines from rfl,
    List.filterMap_append]
  congr 1
  · apply List.filterMap_congr
    intro l hl
    rw [hOld l hl]
  · rw [← List.filterMap_eq_map']
    apply List.filterMap_congr
    intro l hl
    simp [hNew l hl]

/- Stock grows by the effect of the new movement. -/
theorem journalStock_withMovement
    (hValid : JournalValid db)
    (hFresh : db.findMovement m.id = none)
    (hHeader : ∀ l ∈ lines, l.movementId = m.id)
    (item location : Uuid) :
    (db.withMovement m lines).journalStock item location =
      db.journalStock item location +
        m.stockEffect lines item location := by
  unfold journalStock Movement.stockEffect
  rw [journal_withMovement hValid hFresh hHeader,
    List.filter_append, List.map_append, List.sum_append]
  congr 2
  rw [List.filter_map, List.map_map]
  rfl

/- Old movements keep their originals. -/
theorem originalOf_withMovement
    (hValid : JournalValid db)
    {m' : Movement}
    (hMem : m' ∈ db.movements) :
    (db.withMovement m lines).originalOf m' =
      db.originalOf m' := by
  unfold originalOf
  cases ho : m'.originalMovementId with
  | none => rfl
  | some o =>
      rcases hValid.find_original hMem ho with
        ⟨original, hFind⟩
      simp only [Option.bind_some]
      rw [hFind]
      exact findMovement_withMovement_of_some hFind

/- The rows of the journal have their movements. -/
theorem mem_movements_of_journal
    {r : Movement × MovementLine}
    (h : r ∈ db.journal) :
    r.1 ∈ db.movements ∧ r.2 ∈ db.movementLines ∧
      r.1.id = r.2.movementId := by
  rcases List.mem_filterMap.mp h with ⟨l, hl, hRow⟩
  cases hFind : db.findMovement l.movementId with
  | none => simp [hFind] at hRow
  | some m' =>
      rw [hFind] at hRow
      cases hRow
      exact ⟨Table.mem_of_find hFind, hl,
        Table.key_of_find hFind⟩

/- Custody grows by the effect of the new movement. -/
theorem journalCustody_withMovement
    (hValid : JournalValid db)
    (hFresh : db.findMovement m.id = none)
    (hHeader : ∀ l ∈ lines, l.movementId = m.id)
    (hLink : ∀ o, m.originalMovementId = some o →
      ∃ original, db.findMovement o = some original)
    (user item : Uuid) :
    (db.withMovement m lines).journalCustody user item =
      db.journalCustody user item +
        m.custodyEffect (db.originalOf m) lines user
          item := by
  have hOriginal : (db.withMovement m lines).originalOf m =
      db.originalOf m := by
    unfold originalOf
    cases ho : m.originalMovementId with
    | none => rfl
    | some o =>
        rcases hLink o ho with ⟨original, hFind⟩
        simp only [Option.bind_some]
        rw [hFind]
        exact findMovement_withMovement_of_some hFind
  unfold journalCustody Movement.custodyEffect
  rw [journal_withMovement hValid hFresh hHeader,
    List.filter_append, List.map_append, List.sum_append]
  congr 1
  · congr 1
    apply List.map_congr_left
    intro r hr
    have hMem := mem_movements_of_journal
      (List.mem_of_mem_filter hr)
    rw [originalOf_withMovement hValid hMem.1]
  · rw [List.filter_map, List.map_map]
    by_cases hUser : m.custodyUserId = some user
    · rw [if_pos hUser]
      congr 1
      simp only [Function.comp_def, hUser, and_true,
        hOriginal]
    · rw [if_neg hUser]
      simp [Function.comp_def, hUser]

end Db

------------------------------------------------------------
-- The Journal Stays Well Formed
------------------------------------------------------------

/- An admissible movement keeps the journal well formed. -/
theorem JournalValid.withMovement
    {db : Db}
    {m : Movement}
    {lines : List MovementLine}
    (hValid : JournalValid db)
    (h : Admissible db m lines) :
    JournalValid (db.withMovement m lines) := by
  have hNotOld : ∀ m' ∈ db.movements, m.id ≠ m'.id := by
    intro m' hm' hEq
    exact Table.find_eq_none_iff.mp h.freshId m' hm' hEq.symm
  have hSelf := Db.linesOf_withMovement_self hValid h.freshId
    h.rows.header
  have hOther : ∀ m' ∈ db.movements,
      (db.withMovement m lines).linesOf m'.id =
        db.linesOf m'.id := fun m' hm' =>
    Db.linesOf_withMovement_of_ne h.rows.header
      (hNotOld m' hm')
  have hCases : ∀ m' ∈ (db.withMovement m lines).movements,
      m' ∈ db.movements ∨ m' = m := by
    intro m' hm'
    simpa [Db.withMovement] using hm'
  have hOld : ∀ m' ∈ db.movements,
      m' ∈ (db.withMovement m lines).movements :=
    fun m' hm' => List.mem_append_left _ hm'
  refine ⟨?_, ?_, ?_, ?_, ?_, ?_, ?_⟩
  · -- ids
    rw [Db.withMovement, List.map_append, List.nodup_append]
    refine ⟨hValid.ids, List.nodup_singleton _, ?_⟩
    intro a ha b hb hEq
    rcases List.mem_map.mp ha with ⟨m', hm', rfl⟩
    have hb' : b = m.id := by simpa using hb
    exact hNotOld m' hm' (hb' ▸ hEq.symm)
  · -- keys
    rw [Db.withMovement, List.map_append, List.nodup_append]
    refine ⟨hValid.keys, List.nodup_singleton _, ?_⟩
    intro a ha b hb hEq
    rcases List.mem_map.mp ha with ⟨m', hm', rfl⟩
    have hb' : b = (m.actorUserId, m.clientRequestId) := by
      simpa using hb
    rw [hb'] at hEq
    exact h.freshKey m' hm'
      ⟨congrArg Prod.fst hEq, congrArg Prod.snd hEq⟩
  · -- headers
    intro l hl
    rcases List.mem_append.mp hl with hl | hl
    · rcases hValid.headers l hl with ⟨m', hm', hId⟩
      exact ⟨m', hOld m' hm', hId⟩
    · exact ⟨m, List.mem_append_right _ (by simp),
        (h.rows.header l hl).symm⟩
  · -- shapes
    intro m' hm'
    rcases hCases m' hm' with hm' | rfl
    · exact hValid.shapes m' hm'
    · exact h.shape
  · -- lines
    intro m' hm'
    rcases hCases m' hm' with hm' | rfl
    · rw [hOther m' hm']
      exact hValid.lines m' hm'
    · rw [hSelf]
      exact h.rows
  · -- links
    intro m' hm' o ho
    rcases hCases m' hm' with hm' | rfl
    · rcases hValid.links m' hm' o ho with
        ⟨original, hMem, hId, hLink⟩
      refine ⟨original, hOld original hMem, hId, ?_⟩
      rw [hOther m' hm', ← hId, hOther original hMem, hId]
      exact hLink
    · rcases h.link o ho with ⟨original, hFind, hLink⟩
      have hMem := Table.mem_of_find hFind
      have hId : original.id = o := Table.key_of_find hFind
      refine ⟨original, hOld original hMem, hId, ?_⟩
      rw [hSelf, ← hId, hOther original hMem, hId]
      exact hLink
  · -- reversals
    intro a ha b hb hta htb hEq
    rcases hCases a ha with hOldA | rfl
    · rcases hCases b hb with hOldB | rfl
      · exact hValid.reversals a hOldA b hOldB hta htb hEq
      · exact absurd hEq (h.firstReversal htb a hOldA hta)
    · rcases hCases b hb with hOldB | rfl
      · exact absurd hEq.symm
          (h.firstReversal hta b hOldB htb)
      · rfl
