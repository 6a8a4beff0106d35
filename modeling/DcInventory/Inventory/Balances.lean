import DcInventory.Inventory.Insertion

/-
  This file defines when the balance tables agree with the
  journal, and proves that a refresh of every position and
  holder of a new movement restores the agreement.

  Key definitions include:
    * `ProjectionsAgree`
    * `BalanceWrite`
    * `Refreshed`
    * `Covers`

  Key theorems include:
    * `Db.expectedQuantity_eq_journalStock`
    * `ProjectionsAgree.refresh`
-/

------------------------------------------------------------
-- Agreement
------------------------------------------------------------

/- The key of a stock row. -/
def stockKey (b : StockBalance) : Uuid × Uuid :=
  (b.itemId, b.locationId)

/- The key of a custody row. -/
def custodyKey (b : UserItemCustodyBalance) : Uuid × Uuid :=
  (b.userId, b.itemId)

/-
  Every balance is what the journal says, in the supported
  range, and no row is kept at zero.
-/
structure ProjectionsAgree (db : Db) : Prop where
  stock : ∀ item location,
    (db.stockQuantity item location : Int) =
      db.journalStock item location
  custody : ∀ user item,
    (db.custodyQuantity user item : Int) =
      db.journalCustody user item
  stockRange : ∀ item location,
    db.stockQuantity item location ≤ maxQuantity
  custodyRange : ∀ user item,
    db.custodyQuantity user item ≤ maxQuantity
  stockKeys : (db.stockBalances.map stockKey).Nodup
  custodyKeys :
    (db.userItemCustodyBalances.map custodyKey).Nodup
  stockPos : ∀ b ∈ db.stockBalances, 0 < b.quantity
  custodyPos : ∀ b ∈ db.userItemCustodyBalances,
    0 < b.quantity

/- The stock query need not look past the location. -/
theorem Db.expectedQuantity_eq_journalStock
    (db : Db)
    (item location : Uuid) :
    db.expectedQuantity item location =
      db.journalStock item location := by
  unfold Db.expectedQuantity Db.journalStock
  induction db.journal with
  | nil => rfl
  | cons r rest ih =>
      simp only [Bool.decide_and, Bool.decide_or] at ih ⊢
      by_cases hItem : r.2.itemId = item
      · by_cases hSource : r.1.sourceLocationId =
            some location
        · simp [hItem, hSource, ih]
        · by_cases hDestination :
              r.1.destinationLocationId = some location
          · simp [hItem, hDestination, ih]
          · -- a line elsewhere contributes nothing
            have hZero : r.1.stockChange location r.2 = 0 := by
              simp [Movement.stockChange, hSource,
                hDestination]
            simp [hItem, hSource, hDestination, hZero, ih]
      · simp [hItem, ih]

------------------------------------------------------------
-- Writes Of The Refresh
------------------------------------------------------------

/- One upsert or delete of a balance row. -/
inductive BalanceWrite where
| stock (item location : Uuid) (quantity : Int)
| custody (user item : Uuid) (quantity : Int)

namespace BalanceWrite

def apply : BalanceWrite → Db → Db
| .stock item location quantity =>
    Db.writeStock item location quantity
| .custody user item quantity =>
    Db.writeCustody user item quantity

/- The item whose balance is written. -/
def item : BalanceWrite → Uuid
| .stock item _ _ => item
| .custody _ item _ => item

/- The writes one after the other. -/
def applyAll : List BalanceWrite → Db → Db
| [], db => db
| w :: ws, db => applyAll ws (w.apply db)

theorem applyAll_append
    (ws : List BalanceWrite)
    (w : BalanceWrite)
    (db : Db) :
    applyAll (ws ++ [w]) db = w.apply (applyAll ws db) := by
  induction ws generalizing db with
  | nil => rfl
  | cons v vs ih => exact ih (v.apply db)

/- Only the two balance tables are written. -/
theorem applyAll_eq
    (ws : List BalanceWrite)
    (db : Db) :
    applyAll ws db = { db with
      stockBalances := (applyAll ws db).stockBalances
      userItemCustodyBalances :=
        (applyAll ws db).userItemCustodyBalances } := by
  induction ws generalizing db with
  | nil => rfl
  | cons w ws ih =>
      have hHead : w.apply db = { db with
          stockBalances := (w.apply db).stockBalances
          userItemCustodyBalances :=
            (w.apply db).userItemCustodyBalances } := by
        cases w <;> rfl
      have hTail := ih (w.apply db)
      unfold applyAll
      rw [hTail, hHead]

@[simp]
theorem movements_applyAll
    (ws : List BalanceWrite)
    (db : Db) :
    (applyAll ws db).movements = db.movements := by
  rw [applyAll_eq]

@[simp]
theorem movementLines_applyAll
    (ws : List BalanceWrite)
    (db : Db) :
    (applyAll ws db).movementLines = db.movementLines := by
  rw [applyAll_eq]

@[simp]
theorem findMovement_applyAll
    (ws : List BalanceWrite)
    (db : Db)
    (id : Uuid) :
    (applyAll ws db).findMovement id = db.findMovement id := by
  rw [applyAll_eq]
  rfl

@[simp]
theorem linesOf_applyAll
    (ws : List BalanceWrite)
    (db : Db)
    (id : Uuid) :
    (applyAll ws db).linesOf id = db.linesOf id := by
  rw [applyAll_eq]
  rfl

@[simp]
theorem findUser_applyAll
    (ws : List BalanceWrite)
    (db : Db)
    (id : Uuid) :
    (applyAll ws db).findUser id = db.findUser id := by
  rw [applyAll_eq]
  rfl

@[simp]
theorem journalStock_applyAll
    (ws : List BalanceWrite)
    (db : Db)
    (item location : Uuid) :
    (applyAll ws db).journalStock item location =
      db.journalStock item location := by
  rw [applyAll_eq]
  rfl

@[simp]
theorem journalCustody_applyAll
    (ws : List BalanceWrite)
    (db : Db)
    (user item : Uuid) :
    (applyAll ws db).journalCustody user item =
      db.journalCustody user item := by
  rw [applyAll_eq]
  rfl

end BalanceWrite

------------------------------------------------------------
-- Balances After Writes
------------------------------------------------------------

namespace Db

variable {db : Db}

theorem stockQuantity_writeStock_self
    {item location : Uuid}
    {quantity : Int}
    (h : 0 ≤ quantity) :
    ((db.writeStock item location quantity).stockQuantity
      item location : Int) = quantity := by
  unfold stockQuantity findStockBalance writeStock
  by_cases hZero : quantity = 0
  · simp [hZero]
  · have hFind : Table.find
        (fun b : StockBalance => (b.itemId, b.locationId))
        (item, location)
        (Table.put (fun b => (b.itemId, b.locationId))
          ⟨item, location, quantity.toNat⟩
          db.stockBalances) =
        some ⟨item, location, quantity.toNat⟩ :=
      Table.find_put_self ⟨item, location, quantity.toNat⟩
        db.stockBalances
    simp only [hZero, if_false]
    rw [hFind]
    exact Int.toNat_of_nonneg h

theorem stockQuantity_writeStock_of_ne
    {item location item' location' : Uuid}
    {quantity : Int}
    (h : (item, location) ≠ (item', location')) :
    (db.writeStock item location quantity).stockQuantity
        item' location' =
      db.stockQuantity item' location' := by
  unfold stockQuantity findStockBalance writeStock
  by_cases hZero : quantity = 0
  · simp only [hZero, if_true]
    rw [Table.find_erase_of_ne db.stockBalances h.symm]
  · simp only [hZero, if_false]
    rw [Table.find_put_of_ne db.stockBalances h]

theorem custodyQuantity_writeCustody_self
    {user item : Uuid}
    {quantity : Int}
    (h : 0 ≤ quantity) :
    ((db.writeCustody user item quantity).custodyQuantity
      user item : Int) = quantity := by
  unfold custodyQuantity findCustodyBalance writeCustody
  by_cases hZero : quantity = 0
  · simp [hZero]
  · have hFind : Table.find
        (fun b : UserItemCustodyBalance =>
          (b.userId, b.itemId))
        (user, item)
        (Table.put (fun b => (b.userId, b.itemId))
          ⟨user, item, quantity.toNat⟩
          db.userItemCustodyBalances) =
        some ⟨user, item, quantity.toNat⟩ :=
      Table.find_put_self ⟨user, item, quantity.toNat⟩
        db.userItemCustodyBalances
    simp only [hZero, if_false]
    rw [hFind]
    exact Int.toNat_of_nonneg h

theorem custodyQuantity_writeCustody_of_ne
    {user item user' item' : Uuid}
    {quantity : Int}
    (h : (user, item) ≠ (user', item')) :
    (db.writeCustody user item quantity).custodyQuantity
        user' item' =
      db.custodyQuantity user' item' := by
  unfold custodyQuantity findCustodyBalance writeCustody
  by_cases hZero : quantity = 0
  · simp only [hZero, if_true]
    rw [Table.find_erase_of_ne db.userItemCustodyBalances
      h.symm]
  · simp only [hZero, if_false]
    rw [Table.find_put_of_ne db.userItemCustodyBalances h]

end Db

namespace BalanceWrite

/- A stock row that is not written keeps its quantity. -/
theorem stockQuantity_of_untouched
    {ws : List BalanceWrite}
    {db : Db}
    {item location : Uuid}
    (h : ∀ q, BalanceWrite.stock item location q ∉ ws) :
    (applyAll ws db).stockQuantity item location =
      db.stockQuantity item location := by
  induction ws generalizing db with
  | nil => rfl
  | cons w ws ih =>
      have hTail : ∀ q,
          BalanceWrite.stock item location q ∉ ws :=
        fun q hq => h q (List.mem_cons_of_mem w hq)
      rw [applyAll, ih hTail]
      cases w with
      | stock item' location' q =>
          apply Db.stockQuantity_writeStock_of_ne
          intro hEq
          cases hEq
          exact h q List.mem_cons_self
      | custody user item' q => rfl

/- A custody row that is not written keeps its quantity. -/
theorem custodyQuantity_of_untouched
    {ws : List BalanceWrite}
    {db : Db}
    {user item : Uuid}
    (h : ∀ q, BalanceWrite.custody user item q ∉ ws) :
    (applyAll ws db).custodyQuantity user item =
      db.custodyQuantity user item := by
  induction ws generalizing db with
  | nil => rfl
  | cons w ws ih =>
      have hTail : ∀ q,
          BalanceWrite.custody user item q ∉ ws :=
        fun q hq => h q (List.mem_cons_of_mem w hq)
      rw [applyAll, ih hTail]
      cases w with
      | stock item' location' q => rfl
      | custody user' item' q =>
          apply Db.custodyQuantity_writeCustody_of_ne
          intro hEq
          cases hEq
          exact h q List.mem_cons_self

/- A stock row written consistently has what was written. -/
theorem stockQuantity_of_touched
    {ws : List BalanceWrite}
    {db : Db}
    {item location : Uuid}
    {value : Int}
    (hSame : ∀ q, BalanceWrite.stock item location q ∈ ws →
      q = value ∧ 0 ≤ q)
    (hSome : ∃ q, BalanceWrite.stock item location q ∈ ws) :
    ((applyAll ws db).stockQuantity item location : Int) =
      value := by
  induction ws generalizing db with
  | nil =>
      rcases hSome with ⟨q, hq⟩
      cases hq
  | cons w ws ih =>
      have hTail : ∀ q,
          BalanceWrite.stock item location q ∈ ws →
            q = value ∧ 0 ≤ q :=
        fun q hq => hSame q (List.mem_cons_of_mem w hq)
      by_cases hLater : ∃ q,
          BalanceWrite.stock item location q ∈ ws
      · exact ih hTail hLater
      · -- the last write of the row is the first of the list
        rcases hSome with ⟨q, hq⟩
        have hHead : w = .stock item location q := by
          rcases List.mem_cons.mp hq with hEq | hMem
          · exact hEq.symm
          · exact absurd ⟨q, hMem⟩ hLater
        rcases hSame q hq with ⟨rfl, hNonneg⟩
        rw [applyAll, stockQuantity_of_untouched
          (fun q' hq' => hLater ⟨q', hq'⟩), hHead]
        exact Db.stockQuantity_writeStock_self hNonneg

/- A custody row written consistently has what was written. -/
theorem custodyQuantity_of_touched
    {ws : List BalanceWrite}
    {db : Db}
    {user item : Uuid}
    {value : Int}
    (hSame : ∀ q, BalanceWrite.custody user item q ∈ ws →
      q = value ∧ 0 ≤ q)
    (hSome : ∃ q, BalanceWrite.custody user item q ∈ ws) :
    ((applyAll ws db).custodyQuantity user item : Int) =
      value := by
  induction ws generalizing db with
  | nil =>
      rcases hSome with ⟨q, hq⟩
      cases hq
  | cons w ws ih =>
      have hTail : ∀ q,
          BalanceWrite.custody user item q ∈ ws →
            q = value ∧ 0 ≤ q :=
        fun q hq => hSame q (List.mem_cons_of_mem w hq)
      by_cases hLater : ∃ q,
          BalanceWrite.custody user item q ∈ ws
      · exact ih hTail hLater
      · rcases hSome with ⟨q, hq⟩
        have hHead : w = .custody user item q := by
          rcases List.mem_cons.mp hq with hEq | hMem
          · exact hEq.symm
          · exact absurd ⟨q, hMem⟩ hLater
        rcases hSame q hq with ⟨rfl, hNonneg⟩
        rw [applyAll, custodyQuantity_of_untouched
          (fun q' hq' => hLater ⟨q', hq'⟩), hHead]
        exact Db.custodyQuantity_writeCustody_self hNonneg

/- The rows of both tables keep what a refresh guarantees. -/
structure TablesValid (db : Db) : Prop where
  stockKeys : (db.stockBalances.map stockKey).Nodup
  custodyKeys :
    (db.userItemCustodyBalances.map custodyKey).Nodup
  stockPos : ∀ b ∈ db.stockBalances, 0 < b.quantity
  custodyPos : ∀ b ∈ db.userItemCustodyBalances,
    0 < b.quantity

theorem tablesValid_apply
    {w : BalanceWrite}
    {db : Db}
    (hNonneg : match w with
      | .stock _ _ q => 0 ≤ q
      | .custody _ _ q => 0 ≤ q)
    (h : TablesValid db) :
    TablesValid (w.apply db) := by
  cases w with
  | stock item location q =>
      refine ⟨?_, h.custodyKeys, ?_, h.custodyPos⟩
      · simp only [apply, Db.writeStock]
        split
        · exact Table.nodup_erase _ h.stockKeys
        · exact Table.nodup_put _ h.stockKeys
      · intro b hb
        simp only [apply, Db.writeStock] at hb
        split at hb
        · exact h.stockPos b (List.mem_of_mem_filter hb)
        · rcases Table.mem_put hb with rfl | hb
          · change 0 < q.toNat
            simp only at hNonneg
            omega
          · exact h.stockPos b hb
  | custody user item q =>
      refine ⟨h.stockKeys, ?_, h.stockPos, ?_⟩
      · simp only [apply, Db.writeCustody]
        split
        · exact Table.nodup_erase _ h.custodyKeys
        · exact Table.nodup_put _ h.custodyKeys
      · intro b hb
        simp only [apply, Db.writeCustody] at hb
        split at hb
        · exact h.custodyPos b (List.mem_of_mem_filter hb)
        · rcases Table.mem_put hb with rfl | hb
          · change 0 < q.toNat
            simp only at hNonneg
            omega
          · exact h.custodyPos b hb

theorem tablesValid_applyAll
    {ws : List BalanceWrite}
    {db : Db}
    (hNonneg : ∀ w ∈ ws, match w with
      | .stock _ _ q => 0 ≤ q
      | .custody _ _ q => 0 ≤ q)
    (h : TablesValid db) :
    TablesValid (applyAll ws db) := by
  induction ws generalizing db with
  | nil => exact h
  | cons w ws ih =>
      apply ih (fun v hv => hNonneg v
        (List.mem_cons_of_mem w hv))
      exact tablesValid_apply
        (hNonneg w List.mem_cons_self) h

end BalanceWrite

------------------------------------------------------------
-- A Complete Refresh
------------------------------------------------------------

/- The writes have the journal's quantities, in range. -/
structure Refreshed
    (db : Db)
    (m : Movement)
    (lines : List MovementLine)
    (ws : List BalanceWrite) : Prop where
  stock : ∀ item location q,
    BalanceWrite.stock item location q ∈ ws →
      q = (db.withMovement m lines).journalStock item
        location ∧ 0 ≤ q ∧ q ≤ maxQuantity
  custody : ∀ user item q,
    BalanceWrite.custody user item q ∈ ws →
      q = (db.withMovement m lines).journalCustody user
        item ∧ 0 ≤ q ∧ q ≤ maxQuantity
  items : ∀ w ∈ ws, ∃ l ∈ lines, l.itemId = w.item

/- The movement touches this position. -/
def AtPosition (m : Movement) (location : Uuid) : Prop :=
  m.sourceLocationId = some location ∨
    m.destinationLocationId = some location

/- Each line has its positions and its holder written. -/
structure Covers
    (m : Movement)
    (lines : List MovementLine)
    (ws : List BalanceWrite) : Prop where
  stock : ∀ l ∈ lines, ∀ location, AtPosition m location →
    ∃ q, BalanceWrite.stock l.itemId location q ∈ ws
  custody : ∀ l ∈ lines, ∀ user,
    m.custodyUserId = some user →
      ∃ q, BalanceWrite.custody user l.itemId q ∈ ws

namespace Movement

/- Elsewhere the movement has no effect. -/
theorem stockEffect_eq_zero
    {m : Movement}
    {lines : List MovementLine}
    {item location : Uuid}
    (h : ∀ l ∈ lines, l.itemId = item →
      ¬ AtPosition m location) :
    m.stockEffect lines item location = 0 := by
  unfold stockEffect
  apply List.sum_eq_zero
  intro x hx
  rcases List.mem_map.mp hx with ⟨l, hl, rfl⟩
  have hItem : l.itemId = item := by
    simpa using List.of_mem_filter hl
  have hAway := h l (List.mem_of_mem_filter hl) hItem
  simp only [AtPosition, not_or] at hAway
  simp [stockChange, hAway.1, hAway.2]

/- Without a line for the holder there is no effect. -/
theorem custodyEffect_eq_zero
    {m : Movement}
    {original : Option Movement}
    {lines : List MovementLine}
    {user item : Uuid}
    (h : ∀ l ∈ lines, l.itemId = item →
      m.custodyUserId ≠ some user) :
    m.custodyEffect original lines user item = 0 := by
  unfold custodyEffect
  split
  · rename_i hUser
    have hNone :
        lines.filter (fun l => l.itemId = item) = [] := by
      rw [List.filter_eq_nil_iff]
      intro l hl hItem
      exact h l hl (by simpa using hItem) hUser
    rw [hNone]
    rfl
  · rfl

end Movement

/-
  After an admissible movement and a complete refresh the
  balances agree with the journal again: a row that is not
  rewritten is one the movement does not change.
-/
theorem ProjectionsAgree.refresh
    {db : Db}
    {m : Movement}
    {lines : List MovementLine}
    {ws : List BalanceWrite}
    (hValid : JournalValid db)
    (h : ProjectionsAgree db)
    (hAdmissible : Admissible db m lines)
    (hRefreshed : Refreshed db m lines ws)
    (hCovers : Covers m lines ws) :
    ProjectionsAgree
      (BalanceWrite.applyAll ws
        (db.withMovement m lines)) := by
  have hStock : ∀ item location,
      ((BalanceWrite.applyAll ws
        (db.withMovement m lines)).stockQuantity item
          location : Int) =
        (db.withMovement m lines).journalStock item
          location := by
    intro item location
    by_cases hTouched : ∃ q,
        BalanceWrite.stock item location q ∈ ws
    · apply BalanceWrite.stockQuantity_of_touched _ hTouched
      intro q hq
      have hWrite := hRefreshed.stock item location q hq
      exact ⟨hWrite.1, hWrite.2.1⟩
    · rw [BalanceWrite.stockQuantity_of_untouched
        (fun q hq => hTouched ⟨q, hq⟩),
        Db.journalStock_withMovement hValid
          hAdmissible.freshId hAdmissible.rows.header,
        Movement.stockEffect_eq_zero, add_zero]
      · exact h.stock item location
      · rintro l hl rfl hAt
        exact hTouched (hCovers.stock l hl location hAt)
  have hCustody : ∀ user item,
      ((BalanceWrite.applyAll ws
        (db.withMovement m lines)).custodyQuantity user
          item : Int) =
        (db.withMovement m lines).journalCustody user
          item := by
    intro user item
    by_cases hTouched : ∃ q,
        BalanceWrite.custody user item q ∈ ws
    · apply BalanceWrite.custodyQuantity_of_touched _ hTouched
      intro q hq
      have hWrite := hRefreshed.custody user item q hq
      exact ⟨hWrite.1, hWrite.2.1⟩
    · have hLink : ∀ o, m.originalMovementId = some o →
          ∃ original, db.findMovement o = some original :=
        fun o ho => by
          rcases hAdmissible.link o ho with
            ⟨original, hFind, _⟩
          exact ⟨original, hFind⟩
      rw [BalanceWrite.custodyQuantity_of_untouched
        (fun q hq => hTouched ⟨q, hq⟩),
        Db.journalCustody_withMovement hValid
          hAdmissible.freshId hAdmissible.rows.header hLink,
        Movement.custodyEffect_eq_zero, add_zero]
      · exact h.custody user item
      · rintro l hl rfl hUser
        exact hTouched (hCovers.custody l hl user hUser)
  have hTables : BalanceWrite.TablesValid
      (BalanceWrite.applyAll ws
        (db.withMovement m lines)) := by
    apply BalanceWrite.tablesValid_applyAll
    · intro w hw
      cases w with
      | stock item location q =>
          exact (hRefreshed.stock item location q hw).2.1
      | custody user item q =>
          exact (hRefreshed.custody user item q hw).2.1
    · exact ⟨h.stockKeys, h.custodyKeys, h.stockPos,
        h.custodyPos⟩
  refine ⟨?_, ?_, ?_, ?_, hTables.stockKeys,
    hTables.custodyKeys, hTables.stockPos,
    hTables.custodyPos⟩
  · intro item location
    rw [BalanceWrite.journalStock_applyAll]
    exact hStock item location
  · intro user item
    rw [BalanceWrite.journalCustody_applyAll]
    exact hCustody user item
  · intro item location
    by_cases hTouched : ∃ q,
        BalanceWrite.stock item location q ∈ ws
    · rcases hTouched with ⟨q, hq⟩
      have hWrite := hRefreshed.stock item location q hq
      have hValue := hStock item location
      omega
    · rw [BalanceWrite.stockQuantity_of_untouched
        (fun q hq => hTouched ⟨q, hq⟩)]
      exact h.stockRange item location
  · intro user item
    by_cases hTouched : ∃ q,
        BalanceWrite.custody user item q ∈ ws
    · rcases hTouched with ⟨q, hq⟩
      have hWrite := hRefreshed.custody user item q hq
      have hValue := hCustody user item
      omega
    · rw [BalanceWrite.custodyQuantity_of_untouched
        (fun q hq => hTouched ⟨q, hq⟩)]
      exact h.custodyRange user item
