import DcInventory.Identity.Effects
import DcInventory.Inventory.Frame

/-
  This file proves that equipment is only ever in the custody
  of users who may hold it, whatever movements, decisions on
  access, roles and resets, and rotations of the owner come
  one after the other, and that the database never has to
  refuse one of them for that reason.

  Key definitions include:
    * `CustodyOperation`
    * `CustodyRun`
    * `CustodyInv`

  Key theorems include:
    * `CustodyRun.inv`
    * `custody_holders_eligible`
-/

------------------------------------------------------------
-- Operations
------------------------------------------------------------

/- The operations on which custody depends. -/
inductive CustodyOperation where
| movement (env : MovementEnv) (request : MovementRequest)
| manage
    (env : IdentityEnv)
    (actor : User)
    (target : Uuid)
    (mutation : AdminMutation)
| rotate
    (env : IdentityEnv)
    (configuredRecoveryTelegramUserId : Int)
    (targetTelegramUserId : Int)
    (confirmedTargetUserId : Uuid)

namespace CustodyOperation

/- The state that one transaction leaves, or its error. -/
def attempt (s : Db) : CustodyOperation → Except Error Db
| .movement env request =>
    ((request.program env).run s).map Prod.snd
| .manage env actor target mutation =>
    ((identityTransaction env
      (mutation.perform env actor target)).run s).map Prod.snd
| .rotate env configured target confirmed =>
    ((identityTransaction env
      (rotateRecoveryOwnerTransaction env configured target
        confirmed)).run s).map Prod.snd

/- The session of a movement has no outdated users. -/
def Current (s : Db) : CustodyOperation → Prop
| .movement env _ => ∀ u ∈ s.users, ∀ u' ∈ env.session,
    u'.id = u.id → u' = u
| _ => True

end CustodyOperation

/- Successful operations, one after the other, in any order. -/
inductive CustodyRun (s : Db) : Db → Prop where
| refl : CustodyRun s s
| step {s' s'' : Db} (operation : CustodyOperation) :
    CustodyRun s s' →
    operation.attempt s' = .ok s'' →
    CustodyRun s s''

------------------------------------------------------------
-- Invariant
------------------------------------------------------------

/- The warehouse is valid and all holders are eligible. -/
structure CustodyInv (s : Db) : Prop where
  warehouse : WarehouseValid s
  users : DistinctUsers s
  holders : HoldersEligible s

/- A user who may not hold custody has none. -/
theorem hasCustody_eq_false
    {s : Db}
    {u : User}
    (h : HoldersEligible s)
    (hFind : s.findUser u.id = some u)
    (hNot : ¬ mayHoldCustody u) :
    hasCustody u.id s = false := by
  rw [hasCustody, List.any_eq_false]
  intro b hb hUser
  rcases h b hb with ⟨u', hFind', hMay⟩
  rw [of_decide_eq_true hUser, hFind] at hFind'
  cases hFind'
  exact hNot hMay

/-
  Statements keep all holders eligible if each row that they
  disqualify has no custody.
-/
theorem CustodyInv.applyAll
    {s : Db}
    {ws : List IdentityWrite}
    (h : CustodyInv s)
    (hRows : ∀ row, s.findUser row.id = some row →
      mayHoldCustody row →
      ¬ mayHoldCustody (IdentityWrite.onUserAll ws row) →
      hasCustody row.id s = false) :
    CustodyInv (IdentityWrite.applyAll ws s) where
  warehouse := by
    have hSame : SameWarehouse s
        (IdentityWrite.applyAll ws s) := by
      rw [IdentityWrite.applyAll_eq]
      exact ⟨rfl, rfl, rfl, rfl⟩
    exact hSame.valid h.warehouse
  users := h.users.applyAll ws
  holders := by
    intro b hb
    rw [IdentityWrite.userItemCustodyBalances_applyAll] at hb
    rcases h.holders b hb with ⟨u, hFind, hMay⟩
    have hId : u.id = b.userId := Table.key_of_find hFind
    refine ⟨IdentityWrite.onUserAll ws u, ?_, ?_⟩
    · rw [IdentityWrite.findUser_applyAll, hFind]
      rfl
    · by_contra hNot
      have hNone := hRows u (hId.symm ▸ hFind) hMay hNot
      rw [hasCustody, List.any_eq_false] at hNone
      exact hNone b hb (by simp [hId])

------------------------------------------------------------
-- Alone
------------------------------------------------------------

/- Nobody interferes. -/
abbrev custodyAlone : Discipline Db Lock :=
  Discipline.alone CustodyInv

theorem fixesUsers_alone {inv : Db → Prop} :
    FixesUsers (Discipline.alone inv) := by
  intro held s s' user shared h _
  rw [Discipline.eq_of_reach_alone h]

/- Alone, what was seen is so. -/
theorem Saw.alone
    {inv : Db → Prop}
    {k : Lock}
    {s : Db}
    {P : Db → Prop}
    (h : Saw (Discipline.alone inv) k s P) :
    P s := by
  rcases h with ⟨s₁, hReach, hP⟩
  rw [Discipline.eq_of_reach_alone hReach]
  exact hP

/- The transaction keeps custody with those who may hold it. -/
def KeepsCustody {α : Type} : Post Db Lock Error α
| .ok _, _, own, s => CustodyInv (own s)
| .error e, _, _, _ => ¬ IsCustodyTrigger e

theorem tolerant_keepsCustody {α : Type} :
    Tolerant (@KeepsCustody α) :=
  fun _ _ _ _ h => h

section Alone

variable {s : Db}
variable {held : List Lock}
variable {ws : List IdentityWrite}
variable {updates : List UserUpdate}
variable {env : IdentityEnv}

/- The triggers pass, and the commit keeps the invariant. -/
theorem keepsCustody_of_writes
    {α : Type}
    {result : α}
    (hInv : CustodyInv s)
    (hUpdates : ∀ u ∈ updates, Disqualifies u →
      hasCustody u.new.id s = false)
    (hRows : ∀ row, s.findUser row.id = some row →
      mayHoldCustody row →
      ¬ mayHoldCustody (IdentityWrite.onUserAll ws row) →
      hasCustody row.id s = false) :
    (checkUserUpdates env updates >>= fun _ =>
      pure result).wlp custodyAlone KeepsCustody held
        (IdentityWrite.applyAll ws) s := by
  apply wlp_checkUserUpdates tolerant_keepsCustody hInv
  · intro u hu s' hReach hLost hCustody
    rw [Discipline.eq_of_reach_alone hReach,
      IdentityWrite.hasCustody_applyAll,
      hUpdates u hu hLost] at hCustody
    cases hCustody
  · intro held' s' hReach _
    apply Txn.wlp_pure
    intro s'' hReach'
    rw [Discipline.eq_of_reach_alone hReach',
      Discipline.eq_of_reach_alone hReach]
    exact hInv.applyAll hRows

/- Changes never take custody from under a holder. -/
theorem Changes.noCustody
    {actor target changed : User}
    (h : Changes custodyAlone actor target changed held s)
    (hInv : CustodyInv s)
    (hNot : ¬ mayHoldCustody changed) :
    hasCustody target.id s = false := by
  by_cases hMay : mayHoldCustody target
  · exact (h.custody hMay hNot).alone
  · exact hasCustody_eq_false hInv.holders h.row hMay

theorem manage_keepsCustody
    {actor : User}
    {target : Uuid}
    {mutation : AdminMutation} :
    (identityTransaction env
      (mutation.perform env actor target)).wlp custodyAlone
        KeepsCustody [] id s := by
  unfold identityTransaction
  apply wlp_perform fixesUsers_alone tolerant_keepsCustody
  intro ws updates changed held' s' hReach _ _ hMutated
  apply keepsCustody_of_writes hReach.inv
  · intro u hu hLost
    have hChanges := hMutated.updates_changes hu
    rw [hChanges.id]
    exact hChanges.noCustody hReach.inv hLost.2
  · intro row hFind hMay hNot
    rcases hMutated.onUser hFind with hSame | hChanges
    · rw [hSame] at hNot
      exact absurd hMay hNot
    · exact hChanges.noCustody hReach.inv hNot

/- The owner never holds custody. -/
theorem Rotated.noCustody
    {owner target : User}
    (h : Rotated custodyAlone env owner target ws updates held
      s)
    (hInv : CustodyInv s)
    {id : Uuid}
    (hId : id = owner.id ∨ id = target.id) :
    hasCustody id s = false := by
  rcases hId with rfl | rfl
  · apply hasCustody_eq_false hInv.holders h.users.ownerRow
    intro hMay
    have hRole := hMay.1
    rw [h.users.ownerRole] at hRole
    simp [custodyRoles] at hRole
  · exact h.users.custody.alone

theorem rotate_keepsCustody
    {configured target : Int}
    {confirmed : Uuid} :
    (identityTransaction env
      (rotateRecoveryOwnerTransaction env configured target
        confirmed)).wlp custodyAlone KeepsCustody [] id s := by
  unfold identityTransaction
  apply wlp_rotateRecoveryOwnerTransaction fixesUsers_alone
    tolerant_keepsCustody (fun _ h => h.users)
  intro owner target ws updates held' s' hReach _ hRotated
  apply keepsCustody_of_writes hReach.inv
  · intro u hu _
    apply hRotated.noCustody hReach.inv
    rcases hRotated.writes with
      ⟨flush, approved, pending, hFlush, _, _, rfl⟩
    have hId := (approvedTarget_same env target owner.id).1
    simp only [List.mem_append, List.mem_singleton] at hu
    rcases hu with (rfl | hu) | rfl
    · exact Or.inl rfl
    · rcases hFlush.cases with ⟨_, _, rfl⟩ | ⟨_, _, rfl⟩
      · cases hu
      · rw [List.mem_singleton.mp hu]
        exact Or.inr hId
    · exact Or.inr hId
  · intro row hFind hMay hNot
    apply hRotated.noCustody hReach.inv
    rcases hRotated.onUser hFind with
      ⟨_, hSame⟩ | ⟨rfl, _⟩ | ⟨rfl, _⟩
    · rw [hSame] at hNot
      exact absurd hMay hNot
    · exact Or.inl rfl
    · exact Or.inr rfl

end Alone

------------------------------------------------------------
-- Runs
------------------------------------------------------------

/- How an identity transaction ends when it runs alone. -/
theorem attempt_of_wlp
    {α : Type}
    {p : Op α}
    {s : Db}
    (hInv : CustodyInv s)
    (h : p.wlp custodyAlone KeepsCustody [] id s) :
    (∀ s', (p.run s).map Prod.snd = .ok s' →
      CustodyInv s') ∧
    ∀ e, (p.run s).map Prod.snd = .error e →
      ¬ IsCustodyTrigger e := by
  have hEnds : Txn.EndsWith KeepsCustody s (p.run s) :=
    Txn.wlp_run hInv h
  cases hRun : p.run s with
  | ok r =>
      rw [hRun] at hEnds
      rcases hEnds with ⟨held, own, hKeeps, hOwn⟩
      constructor
      · rintro s' ⟨⟩
        exact hOwn.symm ▸ hKeeps
      · rintro e ⟨⟩
  | error e =>
      rw [hRun] at hEnds
      rcases hEnds with ⟨held, own, hKeeps⟩
      constructor
      · rintro s' ⟨⟩
      · rintro e' ⟨⟩
        exact hKeeps

/- A request for a movement keeps the invariant. -/
theorem movement_custodyInv
    {s s' : Db}
    {env : MovementEnv}
    {request : MovementRequest}
    {result : MovementResult}
    (hInv : CustodyInv s)
    (hRun : (request.program env).run s = .ok (result, s')) :
    CustodyInv s' where
  warehouse := by
    have hValid := request_valid hInv.warehouse env request
    rw [Txn.settle, hRun] at hValid
    exact hValid
  users := by
    have hKeeps : (request.program env).Keeps
        DistinctUsers := by
      refine (request_writesOnly env request).keeps ?_
      intro change hWrites db hUsers
      rw [hWrites db]
      exact hUsers
    exact hKeeps s result s' hInv.users hRun
  holders := request_keeps_holders env request s result s'
    hInv.holders hRun

/- With current sessions no guard on custody objects. -/
theorem movement_noTrigger
    {s : Db}
    {env : MovementEnv}
    {request : MovementRequest}
    (hInv : CustodyInv s)
    (hCurrent : (CustodyOperation.movement env
      request).Current s)
    {e : Error}
    (hRun : (request.program env).run s = .error e) :
    ¬ IsCustodyTrigger e := by
  have hEnds := request_run hInv.warehouse env request
  rw [hRun] at hEnds
  rcases hEnds with ⟨held, own, hPost⟩
  have hSame : ∀ {s'},
      (Discipline.alone WarehouseValid).Reach
        ([] : List Lock) s s' → s' = s :=
    Discipline.eq_of_reach_alone
  rintro (rfl | rfl)
  · rcases hPost _ rfl with
      ⟨call, s₁, _, _, s₂, user, _, hReach₂, hNot, hWhy⟩
    rw [hSame hReach₂] at hNot hWhy
    apply hNot
    rcases hWhy with
      ⟨s₃, row, hReach₃, hLoaded, hMay⟩ | ⟨_, item, hPos⟩
    · rw [hSame hReach₃] at hLoaded
      exact holderEligible_of_current hCurrent hLoaded hMay
    · rcases holder_of_custodyQuantity hPos with ⟨b, hb, rfl⟩
      exact hInv.holders b hb
  · rcases hPost _ rfl with ⟨_, _, _, _, hCause⟩
    exact hCause

/- One operation keeps the invariant. -/
theorem CustodyOperation.attempt_inv
    {s s' : Db}
    {operation : CustodyOperation}
    (hInv : CustodyInv s)
    (h : operation.attempt s = .ok s') :
    CustodyInv s' := by
  cases operation with
  | movement env request =>
      simp only [attempt] at h
      cases hRun : (request.program env).run s with
      | error e =>
          rw [hRun] at h
          cases h
      | ok r =>
          rw [hRun] at h
          cases h
          exact movement_custodyInv hInv hRun
  | manage env actor target mutation =>
      exact (attempt_of_wlp hInv
        manage_keepsCustody).1 s' h
  | rotate env configured target confirmed =>
      exact (attempt_of_wlp hInv
        rotate_keepsCustody).1 s' h

/- Every run keeps the invariant. -/
theorem CustodyRun.inv
    {s s' : Db}
    (hRun : CustodyRun s s')
    (hInv : CustodyInv s) :
    CustodyInv s' := by
  induction hRun with
  | refl => exact hInv
  | step operation _ hStep ih =>
      exact operation.attempt_inv ih hStep

/-
  From a valid state without custody: after any operations,
  in any order, each user who has equipment in custody is
  approved and has a role that may hold it. No operation
  fails with an error of the triggers on custody, where the
  sessions of movements are current.
-/
theorem custody_holders_eligible
    {s s' : Db}
    (hWarehouse : WarehouseValid s)
    (hUsers : DistinctUsers s)
    (hNone : s.userItemCustodyBalances = [])
    (hRun : CustodyRun s s') :
    (∀ b ∈ s'.userItemCustodyBalances,
      ∃ u, s'.findUser b.userId = some u ∧
        u.accessStatus = .approved ∧ u.role ∈ custodyRoles) ∧
    ∀ operation : CustodyOperation, operation.Current s' →
      operation.attempt s' ≠
          .error (.database .custodyHolderEligibility) ∧
        operation.attempt s' ≠
          .error (.database .userCustodyEligibility) := by
  have hStart : CustodyInv s := by
    refine ⟨hWarehouse, hUsers, ?_⟩
    intro b hb
    rw [hNone] at hb
    cases hb
  have hInv : CustodyInv s' := hRun.inv hStart
  constructor
  · intro b hb
    rcases hInv.holders b hb with ⟨u, hFind, hRole, hStatus⟩
    exact ⟨u, hFind, hStatus, hRole⟩
  · intro operation hCurrent
    have hNever : ∀ e, operation.attempt s' = .error e →
        ¬ IsCustodyTrigger e := by
      intro e hError
      cases operation with
      | movement env request =>
          simp only [CustodyOperation.attempt] at hError
          cases hMovement : (request.program env).run s' with
          | error e' =>
              rw [hMovement] at hError
              cases hError
              exact movement_noTrigger hInv hCurrent hMovement
          | ok r =>
              rw [hMovement] at hError
              cases hError
      | manage env actor target mutation =>
          exact (attempt_of_wlp hInv
            manage_keepsCustody).2 e hError
      | rotate env configured target confirmed =>
          exact (attempt_of_wlp hInv
            rotate_keepsCustody).2 e hError
    exact ⟨fun hError => hNever _ hError (Or.inl rfl),
      fun hError => hNever _ hError (Or.inr rfl)⟩

------------------------------------------------------------
-- An Issue To An Engineer
------------------------------------------------------------

namespace CustodyOperation

/- The state after the operation, whether or not it failed. -/
def after (s : Db) (operation : CustodyOperation) : Db :=
  match operation.attempt s with
  | .ok s' => s'
  | .error _ => s

theorem attempt_after
    {s : Db}
    {operation : CustodyOperation}
    (h : (operation.attempt s).isOk = true) :
    operation.attempt s = .ok (operation.after s) := by
  unfold after
  cases hAttempt : operation.attempt s with
  | ok s' => rfl
  | error e =>
      rw [hAttempt] at h
      cases h

end CustodyOperation

namespace FirstIssue

def engineer : User :=
  ⟨⟨6⟩, .engineer, .approved, none, none⟩

def start : Db :=
  { FirstReceipt.start with
    users := [FirstReceipt.storekeeper, engineer] }

/- Three of the five switches go to an engineer. -/
def call : MovementCall where
  payload := {
    movementType := .issue
    sourceLocationId := some FirstReceipt.location.id
    destinationLocationId := none
    originalMovementId := none
    clientRequestId := "to engineer".toList
    lines := [⟨FirstReceipt.item.id, 3, by decide,
      by decide⟩]
    key_nonempty := by decide
    key_length := by decide
    lines_nonempty := by decide
    lines_length := by decide }
  actorUserId := engineer.id
  actorDisplayName := "Engineer".toList
  custodyUserId := some engineer.id

def receipt : CustodyOperation :=
  .movement FirstReceipt.env (.create FirstReceipt.call)

def issue : CustodyOperation :=
  .movement { FirstReceipt.env with movementId := ⟨7⟩ }
    (.create call)

/- The state after the receipt and the issue. -/
def issued : Db :=
  issue.after (receipt.after start)

end FirstIssue

/- The engineer holds switches, and is eligible. -/
theorem custody_holders_eligible_issue :
    (∃ b ∈ FirstIssue.issued.userItemCustodyBalances,
      b.userId = FirstIssue.engineer.id ∧ b.quantity = 3) ∧
    ∀ b ∈ FirstIssue.issued.userItemCustodyBalances,
      ∃ u, FirstIssue.issued.findUser b.userId = some u ∧
        u.accessStatus = .approved ∧
        u.role ∈ custodyRoles := by
  have hSame : SameWarehouse FirstReceipt.start
      FirstIssue.start := ⟨rfl, rfl, rfl, rfl⟩
  have hRun : CustodyRun FirstIssue.start
      FirstIssue.issued :=
    .step FirstIssue.issue
      (.step FirstIssue.receipt .refl
        (CustodyOperation.attempt_after (by decide +kernel)))
      (CustodyOperation.attempt_after (by decide +kernel))
  refine ⟨by decide +kernel, ?_⟩
  exact (custody_holders_eligible
    (hSame.valid FirstReceipt.start_empty.valid)
    (by simp [DistinctUsers, FirstIssue.start,
      FirstReceipt.storekeeper, FirstIssue.engineer])
    rfl hRun).1
