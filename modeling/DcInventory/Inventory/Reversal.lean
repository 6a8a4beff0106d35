import DcInventory.Inventory.Interleaving

/-
  This file proves that a reversal undoes its original: what
  the two add to the balances sums to zero.

  Each balance is the sum of the shares that the movements
  have in it. A reversal has the opposite of its original's
  share, so the pair can be left out of the sum.

  Key definitions include:
    * `Db.stockShare`
    * `Db.custodyShare`
    * `Opposes`

  Key theorems include:
    * `JournalValid.journalStock_eq_sum`
    * `JournalValid.journalCustody_eq_sum`
    * `JournalValid.opposes_of_reversal`
-/

------------------------------------------------------------
-- Shares
------------------------------------------------------------

namespace Db

/- What a movement adds to the stock of an item. -/
def stockShare
    (db : Db)
    (m : Movement)
    (item location : Uuid) : Int :=
  m.stockEffect (db.linesOf m.id) item location

/- What a movement adds to what a user holds of an item. -/
def custodyShare
    (db : Db)
    (m : Movement)
    (user item : Uuid) : Int :=
  m.custodyEffect (db.originalOf m) (db.linesOf m.id) user item

end Db

namespace JournalValid

variable {db : Db}

/- Stock is the sum of the shares. -/
theorem journalStock_eq_sum
    (h : JournalValid db)
    (item location : Uuid) :
    db.journalStock item location =
      (db.movements.map (fun m =>
        db.stockShare m item location)).sum := by
  have hJoin := Table.sum_join h.ids MovementLine.movementId
    (fun m l => if l.itemId = item
      then m.stockChange location l else 0) db.movementLines
  have hJournal : db.journalStock item location =
      (db.journal.map (fun r => if r.2.itemId = item
        then r.1.stockChange location r.2 else 0)).sum := by
    unfold Db.journalStock
    rw [Table.sum_map_filter]
    simp only [decide_eq_true_eq]
  rw [hJournal]
  refine hJoin.trans ?_
  congr 1
  apply List.map_congr_left
  intro m _
  have hItem := Table.sum_map_filter
    (fun l : MovementLine => decide (l.itemId = item))
    (m.stockChange location) (db.linesOf m.id)
  simp only [decide_eq_true_eq] at hItem
  exact hItem.symm

/- Custody is the sum of the shares. -/
theorem journalCustody_eq_sum
    (h : JournalValid db)
    (user item : Uuid) :
    db.journalCustody user item =
      (db.movements.map (fun m =>
        db.custodyShare m user item)).sum := by
  have hJoin := Table.sum_join h.ids MovementLine.movementId
    (fun m l => if l.itemId = item ∧
        m.custodyUserId = some user
      then m.custodyChange (db.originalOf m) l else 0)
    db.movementLines
  have hJournal : db.journalCustody user item =
      (db.journal.map (fun r => if r.2.itemId = item ∧
          r.1.custodyUserId = some user
        then r.1.custodyChange (db.originalOf r.1) r.2
        else 0)).sum := by
    unfold Db.journalCustody
    rw [Table.sum_map_filter]
    simp only [decide_eq_true_eq]
  rw [hJournal]
  refine hJoin.trans ?_
  congr 1
  apply List.map_congr_left
  intro m _
  unfold Db.custodyShare Movement.custodyEffect
  by_cases hUser : m.custodyUserId = some user
  · have hItem := Table.sum_map_filter
      (fun l : MovementLine => decide (l.itemId = item))
      (m.custodyChange (db.originalOf m)) (db.linesOf m.id)
    simp only [decide_eq_true_eq] at hItem
    simp only [hUser, and_true, if_true]
    exact hItem.symm
  · simp [hUser]

end JournalValid

------------------------------------------------------------
-- Opposite Movements
------------------------------------------------------------

/-
  One movement undoes the other: the same items, quantities
  and holder, and opposite shares in every balance.
-/
structure Opposes
    (db : Db)
    (r m : Movement) : Prop where
  lines : (linePairs (db.linesOf r.id)).Perm
    (linePairs (db.linesOf m.id))
  holder : r.custodyUserId = m.custodyUserId
  stock : ∀ item location,
    db.stockShare r item location =
      - db.stockShare m item location
  custody : ∀ user item,
    db.custodyShare r user item =
      - db.custodyShare m user item

/- A share depends on the items and quantities only. -/
theorem sum_of_linePairs
    {lines lines' : List MovementLine}
    (h : (linePairs lines).Perm (linePairs lines'))
    (item : Uuid)
    (f : Nat → Int) :
    ((lines.filter (fun l => l.itemId = item)).map
        (fun l => f l.quantity)).sum =
      ((lines'.filter (fun l => l.itemId = item)).map
        (fun l => f l.quantity)).sum := by
  have hPairs : ∀ ls : List MovementLine,
      ((ls.filter (fun l => l.itemId = item)).map
        (fun l => f l.quantity)).sum =
      (((linePairs ls).filter (fun p => p.1 = item)).map
        (fun p => f p.2)).sum := by
    intro ls
    rw [linePairs, List.filter_map, List.map_map]
    rfl
  rw [hPairs, hPairs]
  exact ((h.filter _).map _).sum_eq

/- Swapped positions make the opposite change. -/
theorem stockEffect_of_mirrors
    {r m : Movement}
    {rLines mLines : List MovementLine}
    (h : Mirrors r rLines m mLines)
    (item location : Uuid) :
    r.stockEffect rLines item location =
      - m.stockEffect mLines item location := by
  have hChange : ∀ l : MovementLine,
      r.stockChange location l =
        - m.stockChange location l := by
    intro l
    unfold Movement.stockChange
    rw [h.source, h.destination, neg_sub]
  let change : Nat → Int := fun q =>
    (if m.destinationLocationId = some location
      then (q : Int) else 0) -
    (if m.sourceLocationId = some location
      then (q : Int) else 0)
  have hSum := sum_of_linePairs h.lines item
    (fun q => - change q)
  have hNeg := List.sum_neg
    ((mLines.filter (fun l => l.itemId = item)).map
      (m.stockChange location))
  unfold Movement.stockEffect
  rw [hNeg, List.map_map, funext hChange]
  exact hSum

/- A reversal takes back what its original gave. -/
theorem custodySign_reversal
    {t : MovementType}
    (h : t ≠ .reversal)
    (originalType : Option MovementType) :
    Movement.custodySign .reversal (some t) =
      - Movement.custodySign t originalType := by
  cases t <;> first | rfl | exact absurd rfl h

/- The same holder, and the opposite change. -/
theorem custodyEffect_of_mirrors
    {r m : Movement}
    {rLines mLines : List MovementLine}
    (h : Mirrors r rLines m mLines)
    (hReversal : r.movementType = .reversal)
    (hTarget : m.movementType ≠ .reversal)
    (original : Option Movement)
    (user item : Uuid) :
    r.custodyEffect (some m) rLines user item =
      - m.custodyEffect original mLines user item := by
  unfold Movement.custodyEffect
  rw [h.custody]
  by_cases hUser : m.custodyUserId = some user
  · rw [if_pos hUser, if_pos hUser, List.sum_neg,
      List.map_map]
    have hChange : ∀ l : MovementLine,
        r.custodyChange (some m) l =
          - m.custodyChange original l := by
      intro l
      unfold Movement.custodyChange
      rw [hReversal, Option.map_some,
        custodySign_reversal hTarget
          (original.map Movement.movementType), neg_mul]
    rw [funext hChange]
    exact sum_of_linePairs h.lines item (fun q =>
      - (Movement.custodySign m.movementType
        (original.map Movement.movementType) * q))
  · rw [if_neg hUser, if_neg hUser, neg_zero]

/- A committed reversal opposes its original. -/
theorem JournalValid.opposes_of_reversal
    {db : Db}
    (h : JournalValid db)
    {r m : Movement}
    (hr : r ∈ db.movements)
    (hm : m ∈ db.movements)
    (hType : r.movementType = .reversal)
    (hOriginal : r.originalMovementId = some m.id) :
    Opposes db r m := by
  rcases h.links r hr m.id hOriginal with
    ⟨original, hMem, hId, hLink⟩
  have hSame : original = m :=
    List.inj_on_of_nodup_map h.ids hMem hm hId
  subst hSame
  have hMirrors := hLink.reversal hType
  have hOriginalOf : db.originalOf r = some original := by
    unfold Db.originalOf
    rw [hOriginal]
    exact h.find_of_mem hm
  refine ⟨hMirrors.lines, hMirrors.custody, ?_, ?_⟩
  · exact stockEffect_of_mirrors hMirrors
  · intro user item
    unfold Db.custodyShare
    rw [hOriginalOf]
    exact custodyEffect_of_mirrors hMirrors hType
      hLink.target _ user item
