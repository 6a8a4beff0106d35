import DcInventory.Inventory.Creation

/-
  This file proves that the balances are what the journal
  says, in every state that warehouse transactions lead to.

  Key definitions include:
    * `WarehouseEmpty`
    * `WarehouseRun`

  Key theorems include:
    * `request_valid`
    * `WarehouseRun.valid`
    * `projections_equal_journal`
-/

------------------------------------------------------------
-- Runs
------------------------------------------------------------

/- No movement was ever made. -/
structure WarehouseEmpty (s : Db) : Prop where
  movements : s.movements = []
  lines : s.movementLines = []
  stock : s.stockBalances = []
  custody : s.userItemCustodyBalances = []

/-
  Requests for movements one after the other, each of which
  commits or leaves everything as it is. In between others
  may change what is not in the tables of the warehouse.
-/
inductive WarehouseRun (s : Db) : Db → Prop where
| refl : WarehouseRun s s
| request
    {s' : Db}
    (env : MovementEnv)
    (request : MovementRequest) :
    WarehouseRun s s' →
    WarehouseRun s ((request.program env).settle s')
| elsewhere {s' s'' : Db} :
    WarehouseRun s s' →
    SameWarehouse s' s'' →
    WarehouseRun s s''

/- An empty warehouse is valid. -/
theorem WarehouseEmpty.valid
    {s : Db}
    (h : WarehouseEmpty s) :
    WarehouseValid s := by
  have hSame : SameWarehouse Db.empty s :=
    ⟨h.movements, h.lines, h.stock, h.custody⟩
  apply hSame.valid
  constructor
  · constructor <;> simp [Db.empty]
  · constructor <;>
      simp [Db.empty, Db.stockQuantity, Db.custodyQuantity,
        Db.findStockBalance, Db.findCustodyBalance,
        Db.journalStock, Db.journalCustody, Db.journal]

/- A request that runs alone ends as it may. -/
theorem request_run
    {s : Db}
    (hValid : WarehouseValid s)
    (env : MovementEnv)
    (request : MovementRequest) :
    Txn.EndsWith
      (RequestPost (Discipline.alone WarehouseValid) s env
        request) s ((request.program env).run s) :=
  Txn.wlp_run hValid
    (wlp_request (governs_alone fun _ h => h) hValid env
      request)

/- One request keeps the warehouse valid. -/
theorem request_valid
    {s : Db}
    (hValid : WarehouseValid s)
    (env : MovementEnv)
    (request : MovementRequest) :
    WarehouseValid ((request.program env).settle s) := by
  have hEnds := request_run hValid env request
  unfold Txn.settle
  cases hRun : (request.program env).run s with
  | error e => exact hValid
  | ok p =>
      rcases p with ⟨result, s'⟩
      rw [hRun] at hEnds
      rcases hEnds with ⟨held, own, hPost, hEq⟩
      rcases hPost with ⟨_, call, _, hOutcome⟩
      subst hEq
      cases hOutcome with
      | written hWritten => exact hWritten.valid hValid
      | replayed _ => exact hValid

/- Every run keeps the warehouse valid. -/
theorem WarehouseRun.valid
    {s s' : Db}
    (hRun : WarehouseRun s s')
    (hStart : WarehouseEmpty s) :
    WarehouseValid s' := by
  induction hRun with
  | refl => exact hStart.valid
  | request env request _ ih =>
      exact request_valid ih env request
  | elsewhere _ hSame ih => exact hSame.valid ih

/-
  In every state of every run each balance is the sum over
  the journal, for every item and location, and for every
  user and item.
-/
theorem projections_equal_journal
    {s s' : Db}
    (hStart : WarehouseEmpty s)
    (hRun : WarehouseRun s s') :
    (∀ item location,
      (s'.stockQuantity item location : Int) =
        s'.journalStock item location) ∧
    ∀ user item,
      (s'.custodyQuantity user item : Int) =
        s'.journalCustody user item :=
  ⟨(hRun.valid hStart).balances.stock,
    (hRun.valid hStart).balances.custody⟩

------------------------------------------------------------
-- A First Receipt
------------------------------------------------------------

namespace FirstReceipt

def location : Location :=
  ⟨⟨1⟩, "A".toList, "Rack A".toList, .warehouse, none,
    .active, none⟩

def item : Item :=
  ⟨⟨2⟩, ⟨4⟩, none, "Switch".toList, "switch".toList, none,
    none, .active, [], none, 0⟩

def storekeeper : User :=
  ⟨⟨3⟩, .admin, .approved, none, none⟩

def start : Db :=
  { Db.empty with
    users := [storekeeper]
    locations := [location]
    items := [item] }

/- Five switches arrive at rack A. -/
def call : MovementCall where
  payload := {
    movementType := .receipt
    sourceLocationId := none
    destinationLocationId := some location.id
    originalMovementId := none
    clientRequestId := "first  key".toList
    lines := [⟨item.id, 5, by decide, by decide⟩]
    key_nonempty := by decide
    key_length := by decide
    lines_nonempty := by decide
    lines_length := by decide }
  actorUserId := storekeeper.id
  actorDisplayName := "Storekeeper".toList
  custodyUserId := none

def env : MovementEnv where
  sha256 := id
  session := []
  movementId := ⟨4⟩
  clock := 0

/- The state after the receipt. -/
def received : Db :=
  ((MovementRequest.create call).program env).settle start

theorem start_empty : WarehouseEmpty start :=
  ⟨rfl, rfl, rfl, rfl⟩

end FirstReceipt

/- Five switches are in stock, and the journal says so. -/
theorem projections_equal_journal_received :
    FirstReceipt.received.stockQuantity
      FirstReceipt.item.id FirstReceipt.location.id = 5 ∧
    ((5 : Nat) : Int) = FirstReceipt.received.journalStock
      FirstReceipt.item.id FirstReceipt.location.id := by
  have hRun : WarehouseRun FirstReceipt.start
      FirstReceipt.received :=
    .request FirstReceipt.env (.create FirstReceipt.call) .refl
  have hAgree := (projections_equal_journal
    FirstReceipt.start_empty hRun).1 FirstReceipt.item.id
      FirstReceipt.location.id
  have hFive : FirstReceipt.received.stockQuantity
      FirstReceipt.item.id FirstReceipt.location.id = 5 := by
    decide +kernel
  rw [hFive] at hAgree
  exact ⟨hFive, hAgree⟩
