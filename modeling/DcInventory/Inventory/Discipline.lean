import DcInventory.Inventory.Balances
import DcInventory.Inventory.Service
import DcInventory.Library.Interference

/-
  This file defines what transactions on the warehouse leave
  alone: committed movements, and whatever the locks of the
  others guard.

  Key definitions include:
    * `WarehouseValid`
    * `SameWarehouse`
    * `Appends`
    * `ItemFixed`
    * `Governs`
    * `warehouse`

  Key theorems include:
    * `governs_alone`
    * `governs_warehouse`
-/

------------------------------------------------------------
-- What Is Left Alone
------------------------------------------------------------

/- The journal is well formed and the balances agree. -/
structure WarehouseValid (db : Db) : Prop where
  journal : JournalValid db
  balances : ProjectionsAgree db

/- The four tables of the warehouse are the same. -/
structure SameWarehouse (s s' : Db) : Prop where
  movements : s'.movements = s.movements
  lines : s'.movementLines = s.movementLines
  stock : s'.stockBalances = s.stockBalances
  custody : s'.userItemCustodyBalances =
    s.userItemCustodyBalances

namespace SameWarehouse

variable {s s' : Db}

theorem findMovement
    (h : SameWarehouse s s')
    (id : Uuid) :
    s'.findMovement id = s.findMovement id := by
  rw [Db.findMovement, h.movements, Db.findMovement]

theorem linesOf
    (h : SameWarehouse s s')
    (id : Uuid) :
    s'.linesOf id = s.linesOf id := by
  rw [Db.linesOf, h.lines, Db.linesOf]

theorem journal (h : SameWarehouse s s') :
    s'.journal = s.journal := by
  simp only [Db.journal, h.lines, h.findMovement]

theorem journalStock
    (h : SameWarehouse s s')
    (item location : Uuid) :
    s'.journalStock item location =
      s.journalStock item location := by
  simp only [Db.journalStock, h.journal]

theorem journalCustody
    (h : SameWarehouse s s')
    (user item : Uuid) :
    s'.journalCustody user item =
      s.journalCustody user item := by
  have hOriginal : ∀ m, s'.originalOf m = s.originalOf m := by
    intro m
    have hFind : s'.findMovement = s.findMovement :=
      funext h.findMovement
    rw [Db.originalOf, hFind, Db.originalOf]
  simp only [Db.journalCustody, h.journal, hOriginal]

theorem stockQuantity
    (h : SameWarehouse s s')
    (item location : Uuid) :
    s'.stockQuantity item location =
      s.stockQuantity item location := by
  simp only [Db.stockQuantity, Db.findStockBalance, h.stock]

theorem custodyQuantity
    (h : SameWarehouse s s')
    (user item : Uuid) :
    s'.custodyQuantity user item =
      s.custodyQuantity user item := by
  simp only [Db.custodyQuantity, Db.findCustodyBalance,
    h.custody]

/- What the other tables hold does not matter here. -/
theorem valid
    (h : SameWarehouse s s')
    (hValid : WarehouseValid s) :
    WarehouseValid s' where
  journal := by
    have hJournal := hValid.journal
    refine ⟨?_, ?_, ?_, ?_, ?_, ?_, ?_⟩
    · rw [h.movements]
      exact hJournal.ids
    · rw [h.movements]
      exact hJournal.keys
    · rw [h.movements, h.lines]
      exact hJournal.headers
    · rw [h.movements]
      exact hJournal.shapes
    · simp only [h.movements, h.linesOf]
      exact hJournal.lines
    · simp only [h.movements, h.linesOf]
      exact hJournal.links
    · rw [h.movements]
      exact hJournal.reversals
  balances := by
    have hBalances := hValid.balances
    refine ⟨?_, ?_, ?_, ?_, ?_, ?_, ?_, ?_⟩
    · simp only [h.stockQuantity, h.journalStock]
      exact hBalances.stock
    · simp only [h.custodyQuantity, h.journalCustody]
      exact hBalances.custody
    · simp only [h.stockQuantity]
      exact hBalances.stockRange
    · simp only [h.custodyQuantity]
      exact hBalances.custodyRange
    · rw [h.stock]
      exact hBalances.stockKeys
    · rw [h.custody]
      exact hBalances.custodyKeys
    · rw [h.stock]
      exact hBalances.stockPos
    · rw [h.custody]
      exact hBalances.custodyPos

end SameWarehouse

/- A movement is the receipt of a procurement request. -/
def IsReceipt (db : Db) (id : Uuid) : Prop :=
  ∃ r ∈ db.procurementRequests, r.finalMovementId = some id

/-
  Committed movements stay with their lines, and none of
  them becomes a receipt later.
-/
structure Appends (s s' : Db) : Prop where
  movements : ∀ m ∈ s.movements, m ∈ s'.movements
  lines : ∀ m ∈ s.movements,
    s'.linesOf m.id = s.linesOf m.id
  receipts : ∀ m ∈ s.movements,
    IsReceipt s' m.id → IsReceipt s m.id

theorem Appends.refl (s : Db) : Appends s s :=
  ⟨fun _ h => h, fun _ _ => rfl, fun _ _ h => h⟩

theorem Appends.trans
    {s s' s'' : Db}
    (h : Appends s s')
    (h' : Appends s' s'') :
    Appends s s'' where
  movements m hm := h'.movements m (h.movements m hm)
  lines m hm :=
    (h'.lines m (h.movements m hm)).trans (h.lines m hm)
  receipts m hm hReceipt := h.receipts m hm
    (h'.receipts m (h.movements m hm) hReceipt)

/- Nothing is booked for the item. -/
structure ItemFixed (item : Uuid) (s s' : Db) : Prop where
  journalStock : ∀ location,
    s'.journalStock item location =
      s.journalStock item location
  journalCustody : ∀ user,
    s'.journalCustody user item = s.journalCustody user item
  stock : ∀ location,
    s'.stockQuantity item location =
      s.stockQuantity item location
  custody : ∀ user,
    s'.custodyQuantity user item =
      s.custodyQuantity user item

theorem ItemFixed.refl
    (item : Uuid)
    (s : Db) :
    ItemFixed item s s :=
  ⟨fun _ => rfl, fun _ => rfl, fun _ => rfl, fun _ => rfl⟩

theorem ItemFixed.trans
    {item : Uuid}
    {s s' s'' : Db}
    (h : ItemFixed item s s')
    (h' : ItemFixed item s' s'') :
    ItemFixed item s s'' where
  journalStock l := (h'.journalStock l).trans
    (h.journalStock l)
  journalCustody u := (h'.journalCustody u).trans
    (h.journalCustody u)
  stock l := (h'.stock l).trans (h.stock l)
  custody u := (h'.custody u).trans (h.custody u)

/- No movement appears that satisfies `P`. -/
def NoneNew (P : Movement → Prop) (s s' : Db) : Prop :=
  ∀ m ∈ s'.movements, P m → m ∈ s.movements

theorem NoneNew.refl
    (P : Movement → Prop)
    (s : Db) :
    NoneNew P s s :=
  fun _ h _ => h

theorem NoneNew.trans
    {P : Movement → Prop}
    {s s' s'' : Db}
    (h : NoneNew P s s')
    (h' : NoneNew P s' s'') :
    NoneNew P s s'' :=
  fun m hm hP => h m (h' m hm hP) hP

/- The movement has this actor and this key. -/
def HasKey
    (actor : Uuid)
    (key : Text)
    (m : Movement) : Prop :=
  m.actorUserId = actor ∧ m.clientRequestId = key

/- The movement reverses this one. -/
def Reverses (original : Uuid) (m : Movement) : Prop :=
  m.originalMovementId = some original ∧
    m.movementType = .reversal

/- What a locked resource of the warehouse keeps fixed. -/
def warehouseFixed : Resource → Db → Db → Prop
| .itemRow item => ItemFixed item
| .warehouseIdempotency actor key =>
    NoneNew (HasKey actor key)
| .warehouseOriginalMovement original =>
    NoneNew (Reverses original)
| .movementPkey id => NoneNew (fun m => m.id = id)
| _ => fun _ _ => True

theorem warehouseFixed_refl
    (r : Resource)
    (s : Db) :
    warehouseFixed r s s := by
  cases r <;>
    first
    | exact ItemFixed.refl _ s
    | exact NoneNew.refl _ s
    | trivial

theorem warehouseFixed_trans
    {r : Resource}
    {s s' s'' : Db}
    (h : warehouseFixed r s s')
    (h' : warehouseFixed r s' s'') :
    warehouseFixed r s s'' := by
  cases r <;>
    first
    | exact ItemFixed.trans h h'
    | exact NoneNew.trans h h'
    | trivial

------------------------------------------------------------
-- Disciplines Of The Warehouse
------------------------------------------------------------

/-
  A discipline under which the warehouse stays valid,
  movements are never lost and exclusive locks guard.
-/
structure Governs (D : Discipline Db Lock) : Prop where
  valid : ∀ {s}, D.inv s → WarehouseValid s
  appends : ∀ {held s s'}, D.Reach held s s' → Appends s s'
  fixed : ∀ {held s s' r}, D.Reach held s s' →
    .exclusive r ∈ held → warehouseFixed r s s'

/- Alone, nothing changes between statements. -/
theorem governs_alone
    {inv : Db → Prop}
    (hValid : ∀ s, inv s → WarehouseValid s) :
    Governs (Discipline.alone inv) where
  valid h := hValid _ h
  appends h := by
    rw [Discipline.eq_of_reach_alone h]
    exact Appends.refl _
  fixed h _ := by
    rw [Discipline.eq_of_reach_alone h]
    exact warehouseFixed_refl _ _

/-
  Receipts of procurement are movements, and they have no
  correction or reversal.
-/
structure ReceiptsProtected (db : Db) : Prop where
  exist : ∀ o, IsReceipt db o → ∃ m ∈ db.movements, m.id = o
  unadjusted : ∀ o, IsReceipt db o →
    ∀ m ∈ db.movements, m.originalMovementId ≠ some o

/- The discipline of warehouse transactions. -/
def warehouse : Discipline Db Lock where
  modes := Lock.modes
  inv db := WarehouseValid db ∧ ReceiptsProtected db
  always := Appends
  protects k s s' :=
    k.shared = false → warehouseFixed k.resource s s'
  always_refl := Appends.refl
  always_trans := Appends.trans
  protects_refl k s _ := warehouseFixed_refl k.resource s
  protects_trans h h' hShared :=
    warehouseFixed_trans (h hShared) (h' hShared)

theorem governs_warehouse : Governs warehouse where
  valid h := h.1
  appends h := h.always
  fixed h hHeld := h.protects _ hHeld rfl

------------------------------------------------------------
-- Stable Facts
------------------------------------------------------------

namespace Governs

variable {D : Discipline Db Lock}
variable {held : List Lock}
variable {s s' : Db}

/- A committed movement is found as before. -/
theorem find_stable
    (hD : Governs D)
    (h : D.Reach held s s')
    {id : Uuid}
    {m : Movement}
    (hFind : s.findMovement id = some m) :
    s'.findMovement id = some m := by
  have hMem := (hD.appends h).movements m
    (Table.mem_of_find hFind)
  have hId : m.id = id := Table.key_of_find hFind
  rw [← hId]
  exact (hD.valid h.inv).journal.find_of_mem hMem

/- The lines of a committed movement stay. -/
theorem lines_stable
    (hD : Governs D)
    (h : D.Reach held s s')
    {id : Uuid}
    {m : Movement}
    (hFind : s.findMovement id = some m) :
    s'.linesOf id = s.linesOf id := by
  have hId : m.id = id := Table.key_of_find hFind
  rw [← hId]
  exact (hD.appends h).lines m (Table.mem_of_find hFind)

/- A fresh id stays fresh while its index entry is held. -/
theorem fresh_stable
    (hD : Governs D)
    (h : D.Reach held s s')
    {id : Uuid}
    (hHeld : .exclusive (.movementPkey id) ∈ held)
    (hFresh : s.findMovement id = none) :
    s'.findMovement id = none := by
  have hNone : NoneNew (fun m => m.id = id) s s' :=
    hD.fixed h hHeld
  rw [Db.findMovement, Table.find_eq_none_iff]
  intro m hm hId
  exact Table.find_eq_none_iff.mp hFresh m
    (hNone m hm hId) hId

end Governs
