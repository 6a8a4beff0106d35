import DcInventory.Identity.Statements

/-
  This file proves what each mutation of an administrator has
  written when it returns, whatever others have committed in
  the meantime.

  Key definitions include:
    * `Changes`
    * `SawPending`
    * `Mutated`

  Key theorems include:
    * `wlp_decidePendingAccessRequest`
    * `wlp_perform`
-/

------------------------------------------------------------
-- Transitions
------------------------------------------------------------

/- The event of a transition records it. -/
structure RecordsAccess
    (user : User)
    (accessStatus : UserAccessStatus)
    (e : UserAccessEvent) : Prop where
  target : e.targetUserId = user.id
  before : e.beforeAccessStatus = user.accessStatus
  after : e.afterAccessStatus = accessStatus

section Transition

variable {env : IdentityEnv}
variable {user : User}
variable {actor : Uuid}
variable {accessStatus : UserAccessStatus}

@[simp]
theorem transitionUserAccess_id :
    (transitionUserAccess env user actor accessStatus).1.id =
      user.id := by
  unfold transitionUserAccess
  split <;> rfl

@[simp]
theorem transitionUserAccess_role :
    (transitionUserAccess env user actor
      accessStatus).1.role = user.role := by
  unfold transitionUserAccess
  split <;> rfl

@[simp]
theorem transitionUserAccess_accessStatus :
    (transitionUserAccess env user actor
      accessStatus).1.accessStatus = accessStatus := by
  unfold transitionUserAccess
  split
  · rename_i hSame
    exact hSame
  · rfl

/- A transition to another status has an event. -/
theorem transitionUserAccess_event
    (h : user.accessStatus ≠ accessStatus) :
    ∃ e, (transitionUserAccess env user actor
        accessStatus).2 = some e ∧
      RecordsAccess user accessStatus e := by
  unfold transitionUserAccess
  rw [if_neg h]
  exact ⟨_, rfl, rfl, rfl, rfl⟩

theorem transitionUserAccess_of_eq
    (h : user.accessStatus = accessStatus) :
    transitionUserAccess env user actor accessStatus =
      (user, none) := by
  unfold transitionUserAccess
  rw [if_pos h]

end Transition

------------------------------------------------------------
-- Effects
------------------------------------------------------------

/- The user is approved and may create requests. -/
def mayCreateRequests (u : User) : Prop :=
  hasCapability u.role .procurementCreate ∧
    u.accessStatus = .approved

/- What the changes of another user have in common. -/
structure Changes
    (D : Discipline Db Lock)
    (actor target changed : User)
    (held : List Lock)
    (s : Db) : Prop where
  manages : managesUsers actor
  row : s.findUser target.id = some target
  held : .exclusive (.userRow target.id) ∈ held
  other : actor.id ≠ target.id
  notOwner : target.role ≠ .owner
  rank : target.role = .admin →
    hasCapability actor.role .accessAssignAdmin
  id : changed.id = target.id
  custody : mayHoldCustody target → ¬ mayHoldCustody changed →
    Saw D (.exclusive (.userRow target.id)) s
      (fun s₁ => hasCustody target.id s₁ = false)
  procurement : mayCreateRequests target →
    ¬ mayCreateRequests changed →
    Saw D (.exclusive (.userRow target.id)) s
      (fun s₁ => hasActiveProcurementCreateResponsibility
        target.id s₁ = false)

/- The pending requests as they were found and locked. -/
structure SawPending
    (D : Discipline Db Lock)
    (session : Session)
    (owner : Uuid)
    (pending : List AccessRequest)
    (s : Db) : Prop where
  seen : ∃ found rows,
    Saw D (.exclusive (.userRow owner)) s
      (fun s₁ => found = pendingAccessRequests owner s₁) ∧
    Saw D (.exclusive (.userRow owner)) s
      (fun s₁ => rows = (pendingAccessRequests owner
        s₁).filter (fun r =>
          r.id ∈ found.map AccessRequest.id)) ∧
    pending = rows.map (loadedRequest session.accessRequests)

/- The statements that a flush of a request makes. -/
def requestWrites
    (loaded changed : AccessRequest) : List IdentityWrite :=
  if changed = loaded then [] else [.request loaded changed]

/- The request as it is decided. -/
def decidedRequest
    (env : IdentityEnv)
    (request : AccessRequest)
    (decision : AccessRequestStatus)
    (decidedBy : Uuid) : AccessRequest :=
  { request with
    status := decision
    decidedAt := some env.now
    decidedByUserId := some decidedBy
    decisionNote := some "Access management web console" }

/- The status that a decision brings. -/
def decidedStatus
    (decision : AccessRequestStatus) : UserAccessStatus :=
  if decision = .approved then .approved else .rejected

/- What `decide_pending_access_request` has written. -/
structure Decided
    (D : Discipline Db Lock)
    (env : IdentityEnv)
    (session : Session)
    (actor target : User)
    (decision : AccessRequestStatus)
    (done : Flushed AccessDecision)
    (ws : List IdentityWrite)
    (held : List Lock)
    (s : Db) : Prop where
  changes : Changes D actor target
    (transitionUserAccess env target actor.id
      (decidedStatus decision)).1 held s
  pending : target.accessStatus = .pending
  choice : decision = .approved ∨ decision = .rejected
  event : (transitionUserAccess env target actor.id
    (decidedStatus decision)).2 = some done.value.event
  request : ∃ loaded rest,
    SawPending D session target.id (loaded :: rest) s ∧
    done.value.request =
      decidedRequest env loaded decision actor.id ∧
    ws = [.user target (transitionUserAccess env target
        actor.id (decidedStatus decision)).1] ++
      requestWrites loaded done.value.request ++
      [.accessEvent done.value.event]
  updates : done.updates =
    [⟨target, (transitionUserAccess env target actor.id
      (decidedStatus decision)).1⟩]

/- The user who is left behind by a reset. -/
def resetUser
    (env : IdentityEnv)
    (target : User)
    (actor : Uuid) : User :=
  { (transitionUserAccess env target actor .blocked).1 with
    role := .engineer }

/- The statements of an access event, if any. -/
def accessEventWrites :
    Option UserAccessEvent → List IdentityWrite
| none => []
| some e => [.accessEvent e]

/- The flush of the row itself: its statement and update. -/
structure FlushesRow
    (row changed : User)
    (ws : List IdentityWrite)
    (updates : List UserUpdate) : Prop where
  cases : (changed = row ∧ ws = [] ∧ updates = []) ∨
    (changed ≠ row ∧ ws = [.user row changed] ∧
      updates = [⟨row, changed⟩])

/- Statements that take notifications back. -/
def Silences (ws : List IdentityWrite) : Prop :=
  ∀ w ∈ ws, ∃ dedupeKey now, w = .silence dedupeKey now

/- The statement of a role event, if the role changes. -/
structure RoleWrites
    (env : IdentityEnv)
    (user : User)
    (actor : Uuid)
    (role : UserRole)
    (ws : List IdentityWrite) : Prop where
  eq : ws = if user.role ≠ role then
    [.roleEvent (userRoleEvent env user actor role)] else []

theorem RoleWrites.roleEvents
    {env : IdentityEnv}
    {user : User}
    {actor : Uuid}
    {role : UserRole}
    {ws : List IdentityWrite}
    (h : RoleWrites env user actor role ws) :
    ∀ w ∈ ws, ∃ e, w = .roleEvent e := by
  rw [h.eq]
  split <;> simp

/- What `reset_user_account` has written. -/
structure Reset
    (D : Discipline Db Lock)
    (env : IdentityEnv)
    (actor target : User)
    (ws : List IdentityWrite)
    (updates : List UserUpdate)
    (held : List Lock)
    (s : Db) : Prop where
  changes : Changes D actor target
    (resetUser env target actor.id) held s
  procurement : Saw D (.exclusive (.userRow target.id)) s
    (fun s₁ => hasUnfinishedProcurement target.id s₁ = false)
  writes : ∃ quiet flush roles,
    Silences quiet ∧
    FlushesRow target (resetUser env target actor.id) flush
      updates ∧
    RoleWrites env target actor.id .engineer roles ∧
    ws = [.revokeSessions [target.id] env.now] ++ quiet ++
      [.deletePending target.id] ++ flush ++
      accessEventWrites (transitionUserAccess env target
        actor.id .blocked).2 ++ roles ++
      [.deleteIdentity target.id]

/-
  What a mutation has written: the statements, the updates of
  users and whether it has changed anything.
-/
inductive Mutated
    (D : Discipline Db Lock)
    (env : IdentityEnv)
    (actor : User)
    (targetUserId : Uuid)
    (held : List Lock)
    (s : Db) :
    AdminMutation → List IdentityWrite → List UserUpdate →
      Bool → Prop where
| accessSame {accessStatus} :
    managesUsers actor →
    Mutated D env actor targetUserId held s
      (.access accessStatus) [] [] false
| access {accessStatus} {target changed : User} {event} :
    target.id = targetUserId →
    transitionUserAccess env target actor.id accessStatus =
      (changed, some event) →
    (target.accessStatus, accessStatus) ∈
      allowedAccessChanges →
    Changes D actor target changed held s →
    Mutated D env actor targetUserId held s
      (.access accessStatus)
      ([.user target changed, .accessEvent event] ++
        if accessStatus = .blocked then
          [.revokeSessions [target.id] env.now] else [])
      [⟨target, changed⟩] true
| decide {decision} {target : User} {done ws identity} :
    target.id = targetUserId →
    Decided D env ⟨[actor], []⟩ actor target decision done ws
      held s →
    Enqueued D env (accessDecisionUserCall env.telegram
      done.value.request.id identity
      done.value.request.status) ws held s →
    Mutated D env actor targetUserId held s
      (.decide decision)
      (ws ++ [notice env (accessDecisionUserCall env.telegram
        done.value.request.id identity
        done.value.request.status)])
      done.updates true
| roleSame {newRole} :
    managesUsers actor →
    Mutated D env actor targetUserId held s
      (.role newRole) [] [] false
| role {newRole} {target : User} :
    target.id = targetUserId →
    canAssign actor newRole →
    newRole ≠ .owner →
    newRole ≠ target.role →
    Changes D actor target { target with role := newRole }
      held s →
    Mutated D env actor targetUserId held s
      (.role newRole)
      [.user target { target with role := newRole },
        .roleEvent (userRoleEvent env target actor.id newRole)]
      [⟨target, { target with role := newRole }⟩] true
| reset {expected} {target : User} {ws updates} :
    target.id = targetUserId →
    Reset D env actor target ws updates held s →
    Mutated D env actor targetUserId held s
      (.reset expected) ws updates true

------------------------------------------------------------
-- Operations
------------------------------------------------------------

section Operations

variable {α : Type}
variable {D : Discipline Db Lock}
variable {s s' : Db}
variable {held held' : List Lock}
variable {Q : Post Db Lock Error α}
variable {env : IdentityEnv}
variable {session : Session}
variable {actorUserId targetUserId : Uuid}
variable {actor target changed : User}

/- An instance has the id that was asked for. -/
theorem loadedUser_id
    {users : List User}
    {id : Uuid}
    {u : User}
    (h : loadedUser users (s.findUser id) = some u) :
    u.id = id := by
  rcases Option.map_eq_some_iff.mp h with ⟨row, hRow, hLoaded⟩
  have hId : row.id = id := Table.key_of_find hRow
  cases hFind : Table.find User.id row.id users with
  | none =>
      rw [hFind] at hLoaded
      exact hLoaded ▸ hId
  | some v =>
      rw [hFind] at hLoaded
      have hKey : v.id = row.id := Table.key_of_find hFind
      rw [← hLoaded]
      exact hKey.trans hId

/- A session that has loaded nothing returns the row. -/
@[simp]
theorem loadedUser_fresh
    {row : Option User} :
    loadedUser Session.fresh.users row = row := by
  cases row <;> rfl

/- The session returns the row of the target itself. -/
def FreshTarget
    (D : Discipline Db Lock)
    (session : Session)
    (actorUserId targetUserId : Uuid)
    (held : List Lock)
    (s : Db) : Prop :=
  actorUserId ≠ targetUserId → ∀ s', D.Reach held s s' →
    loadedUser session.users (s'.findUser targetUserId) =
      s'.findUser targetUserId

/- The session of a request has loaded only the actor. -/
theorem freshTarget_of_actor :
    FreshTarget D ⟨[actor], []⟩ actor.id targetUserId held
      s := by
  intro hNe s' _
  cases hRow : s'.findUser targetUserId with
  | none => rfl
  | some row =>
      have hId : row.id = targetUserId := Table.key_of_find hRow
      have hOther : actor.id ≠ row.id := by
        rw [hId]
        exact hNe
      simp [loadedUser, Table.find, hOther]

theorem FreshTarget.later
    (h : FreshTarget D session actorUserId targetUserId held s)
    (hReach : D.Reach held s s')
    (hSub : ∀ k ∈ held, k ∈ held') :
    FreshTarget D session actorUserId targetUserId held' s' :=
  fun hNe s'' hNext => h hNe s''
    (hReach.trans (hNext.weaken hSub))

/- The target is its row, once it is not the actor. -/
theorem ActorAndTarget.row
    (h : ActorAndTarget session actorUserId targetUserId actor
      target held s)
    (hInv : D.inv s)
    (hFresh : FreshTarget D session actorUserId targetUserId
      held s)
    (hOther : actor.id ≠ target.id) :
    s.findUser target.id = some target := by
  have hActor : actor.id = actorUserId :=
    loadedUser_id h.locked.actor
  have hTarget : target.id = targetUserId :=
    loadedUser_id h.locked.target
  have hNe : actorUserId ≠ targetUserId := by
    rw [← hActor, ← hTarget]
    exact hOther
  rw [hTarget, ← hFresh hNe s (.refl hInv)]
  exact h.locked.target

theorem ActorAndTarget.changes
    (h : ActorAndTarget session actorUserId targetUserId actor
      target held s)
    (hInv : D.inv s)
    (hFresh : FreshTarget D session actorUserId targetUserId
      held s)
    (hOther : actor.id ≠ target.id)
    (hNotOwner : target.role ≠ .owner)
    (hRank : target.role = .admin →
      hasCapability actor.role .accessAssignAdmin)
    (hId : changed.id = target.id)
    (hCustody : mayHoldCustody target →
      ¬ mayHoldCustody changed →
      Saw D (.exclusive (.userRow target.id)) s
        (fun s₁ => hasCustody target.id s₁ = false))
    (hProcurement : mayCreateRequests target →
      ¬ mayCreateRequests changed →
      Saw D (.exclusive (.userRow target.id)) s
        (fun s₁ => hasActiveProcurementCreateResponsibility
          target.id s₁ = false)) :
    Changes D actor target changed held s where
  manages := h.manages
  row := h.row hInv hFresh hOther
  held := by
    rw [show target.id = targetUserId from
      loadedUser_id h.locked.target]
    exact h.locked.heldTarget
  other := hOther
  notOwner := hNotOwner
  rank := hRank
  id := hId
  custody := hCustody
  procurement := hProcurement

/- What a later commit of others leaves of the facts. -/
theorem Changes.stable
    (hD : FixesUsers D)
    (h : Changes D actor target changed held s)
    (hReach : D.Reach held s s')
    (hSub : ∀ k ∈ held, k ∈ held') :
    Changes D actor target changed held' s' where
  manages := h.manages
  row := by
    rw [hD hReach h.held]
    exact h.row
  held := hSub _ h.held
  other := h.other
  notOwner := h.notOwner
  rank := h.rank
  id := h.id
  custody hBefore hAfter :=
    (h.custody hBefore hAfter).later hReach h.held
  procurement hBefore hAfter :=
    (h.procurement hBefore hAfter).later hReach h.held

/- The target is locked while the checks are made. -/
theorem ActorAndTarget.heldTarget
    (h : ActorAndTarget session actorUserId targetUserId actor
      target held s) :
    .exclusive (.userRow target.id) ∈ held := by
  rw [show target.id = targetUserId from
    loadedUser_id h.locked.target]
  exact h.locked.heldTarget

/- The flush of a locked row writes the changed instance. -/
theorem wlp_flushRow
    {f : List UserUpdate → Op α}
    {ws : List IdentityWrite}
    (hD : FixesUsers D)
    (hQ : Tolerant Q)
    (hInv : D.inv s)
    (hRow : ∀ s', D.Reach held s s' →
      (IdentityWrite.applyAll ws s').findUser target.id =
        some target)
    (hId : changed.id = target.id)
    (hOk : ∀ flush updates held' s', D.Reach held s s' →
      (∀ k ∈ held, k ∈ held') →
      FlushesRow target changed flush updates →
      (changed ≠ target → changed.role = .owner →
        changed.accessStatus = .approved) →
      (f updates).wlp D Q held'
        (IdentityWrite.applyAll (ws ++ flush)) s') :
    (flushUser target changed >>= f).wlp D Q held
      (IdentityWrite.applyAll ws) s := by
  refine wlp_flushUser hQ ?_ ?_ hD
  · intro hSame
    have hNone := hOk [] [] held s (.refl hInv)
      (fun _ hk => hk) ⟨Or.inl ⟨hSame, rfl, rfl⟩⟩
      (fun hNe => absurd hSame hNe)
    rwa [List.append_nil] at hNone
  · intro hChanged old held' s' hReach hSub hHeld hOld hOwner
    rw [hRow s' hReach] at hOld
    cases hOld
    rw [User.updated_self hId] at hOwner ⊢
    exact hOk _ _ held' s' hReach hSub
      ⟨Or.inr ⟨hChanged, rfl, rfl⟩⟩ (fun _ => hOwner)

/- An approved user can only be blocked. -/
theorem blocked_of_allowed
    {before after : UserAccessStatus}
    (h : (before, after) ∈ allowedAccessChanges)
    (hBefore : before = .approved) :
    after = .blocked := by
  subst hBefore
  simpa [allowedAccessChanges] using h

theorem wlp_updateUserAccess
    {accessStatus : UserAccessStatus}
    {f : Flushed (User × Option UserAccessEvent) → Op α}
    (hD : FixesUsers D)
    (hQ : Tolerant Q)
    (hFresh : FreshTarget D session actorUserId targetUserId
      held s)
    (hSame : ∀ actor target held' s', D.Reach held s s' →
      (∀ k ∈ held, k ∈ held') →
      ActorAndTarget session actorUserId targetUserId actor
        target held' s' →
      (f ⟨(target, none), []⟩).wlp D Q held' id s')
    (hOk : ∀ actor target changed event held' s',
      D.Reach held s s' →
      (∀ k ∈ held, k ∈ held') →
      ActorAndTarget session actorUserId targetUserId actor
        target held' s' →
      transitionUserAccess env target actorUserId accessStatus =
        (changed, some event) →
      (target.accessStatus, accessStatus) ∈
        allowedAccessChanges →
      Changes D actor target changed held' s' →
      (f ⟨(changed, some event), [⟨target, changed⟩]⟩).wlp D Q
        held' (IdentityWrite.applyAll
          ([.user target changed, .accessEvent event] ++
            if accessStatus = .blocked then
              [.revokeSessions [target.id] env.now]
            else [])) s') :
    (updateUserAccess env session actorUserId targetUserId
      accessStatus >>= f).wlp D Q held id s := by
  simp only [updateUserAccess, bind_assoc]
  apply wlp_lockActorAndTarget hD hQ
  intro actor target held₁ s₁ h₁ hSub₁ hLocked₁
  dsimp only
  split
  · rw [pure_bind]
    exact hSame actor target held₁ s₁ h₁ hSub₁ hLocked₁
  rename_i hNew
  simp only [bind_assoc]
  apply Txn.wlp_require
  · intro _
    exact hQ.error (by simp)
  intro hAllowed
  apply wlp_isOwnerOrRecovery h₁.inv
  intro isProtected s₂ h₂ hOwner
  apply Txn.wlp_require
  · intro _
    exact hQ.error (by simp)
  intro hUnprotected
  apply Txn.wlp_require
  · intro _
    exact hQ.error (by simp [adminUserForbidden])
  intro hRank
  apply Txn.wlp_require
  · intro _
    exact hQ.error (by simp [adminUserForbidden])
  intro hOther
  apply wlp_refuseWhen hQ h₂.inv (by simp)
  intro s₃ h₃ hNoCustody
  apply wlp_refuseWhen hQ h₃.inv
    (by simp [activeProcurementResponsibility])
  intro s₄ h₄ hNoRequest
  have hReach₄ : D.Reach held₁ s₁ s₄ := (h₂.trans h₃).trans h₄
  have hLocked₄ := hLocked₁.stable hD hReach₄ (fun _ hk => hk)
  have hFresh₄ := hFresh.later
    (h₁.trans (hReach₄.weaken hSub₁)) hSub₁
  rcases transitionUserAccess_event (Ne.symm hNew) with
    ⟨event, hEvent, hRecords⟩
  have hChanges : Changes D actor target (transitionUserAccess
      env target actorUserId accessStatus).1 held₁ s₄ := by
    apply hLocked₄.changes h₄.inv hFresh₄ hOther
    · intro hRole
      exact hUnprotected (hOwner hRole)
    · exact hRank
    · exact transitionUserAccess_id
    · intro hBefore _
      exact (Saw.now h₃.inv (hNoCustody ⟨hBefore.2,
        blocked_of_allowed hAllowed hBefore.2⟩)).later h₄
          hLocked₄.heldTarget
    · intro hBefore _
      exact Saw.now h₄.inv (hNoRequest ⟨hBefore.2,
        blocked_of_allowed hAllowed hBefore.2, hBefore.1⟩)
  have hRow : ∀ s', D.Reach held₁ s₄ s' →
      (IdentityWrite.applyAll [] s').findUser target.id =
        some target := by
    intro s' hReach
    rw [IdentityWrite.applyAll_nil, id, hD hReach hChanges.held]
    exact hChanges.row
  refine wlp_flushRow hD hQ h₄.inv hRow hChanges.id ?_
  intro flush updates held₅ s₅ h₅ hSub₅ hFlush _
  have hNe : (transitionUserAccess env target actorUserId
      accessStatus).1 ≠ target := by
    intro hEq
    have hStatus := congrArg User.accessStatus hEq
    rw [transitionUserAccess_accessStatus] at hStatus
    exact hNew hStatus
  rcases hFlush.cases with ⟨hEq, _⟩ | ⟨_, rfl, rfl⟩
  · exact absurd hEq hNe
  rw [hEvent]
  apply wlp_execute
  have hDone := hOk actor target _ event held₅ s₅
    (h₁.trans ((hReach₄.trans h₅).weaken hSub₁))
    (fun k hk => hSub₅ k (hSub₁ k hk))
    (hLocked₄.stable hD h₅ hSub₅)
    (Prod.ext rfl hEvent) hAllowed
    (hChanges.stable hD h₅ hSub₅)
  split
  · rename_i hBlocked
    rw [if_pos hBlocked, ← hEvent] at hDone
    rw [bind_assoc]
    apply wlp_execute
    exact hDone
  · rename_i hOpen
    rw [if_neg hOpen, ← hEvent] at hDone
    exact hDone

/- The pending requests are found, locked and read again. -/
theorem wlp_lockPendingAccessRequests
    {owner : Uuid}
    {ws : List IdentityWrite}
    {f : List AccessRequest → Op α}
    (hHeld : .exclusive (.userRow owner) ∈ held)
    (hOwn : ∀ db, pendingAccessRequests owner
      (IdentityWrite.applyAll ws db) =
        pendingAccessRequests owner db)
    (hOk : ∀ pending held' s', D.Reach held s s' →
      (∀ k ∈ held, k ∈ held') →
      SawPending D session owner pending s' →
      (f pending).wlp D Q held' (IdentityWrite.applyAll ws)
        s') :
    (lockPendingAccessRequests session owner >>= f).wlp D Q
      held (IdentityWrite.applyAll ws) s := by
  simp only [lockPendingAccessRequests, bind_assoc, pure_bind]
  apply Txn.wlp_query
  intro s₁ h₁
  apply Txn.wlp_acquireAll h₁.inv
  intro s₂ h₂
  apply Txn.wlp_query
  intro s₃ h₃
  rw [hOwn, hOwn]
  have h₂₃ : D.Reach held s₁ s₃ := h₂.trans
    (h₃.weaken fun k hk => List.mem_append_right _ hk)
  apply hOk _ _ s₃ (h₁.trans h₂₃)
    (fun k hk => List.mem_append_right _ hk)
  exact ⟨_, _, ⟨s₁, h₂₃.weaken (by simpa using hHeld), rfl⟩,
    ⟨s₃, .refl h₃.inv, rfl⟩, rfl⟩

theorem SawPending.later
    {owner : Uuid}
    {pending : List AccessRequest}
    (h : SawPending D session owner pending s)
    (hReach : D.Reach held s s')
    (hHeld : .exclusive (.userRow owner) ∈ held) :
    SawPending D session owner pending s' := by
  rcases h.seen with ⟨found, rows, hFound, hRows, hPending⟩
  exact ⟨found, rows, hFound.later hReach hHeld,
    hRows.later hReach hHeld, hPending⟩

theorem Decided.stable
    {decision : AccessRequestStatus}
    {done : Flushed AccessDecision}
    {ws : List IdentityWrite}
    (hD : FixesUsers D)
    (h : Decided D env session actor target decision done ws
      held s)
    (hReach : D.Reach held s s')
    (hSub : ∀ k ∈ held, k ∈ held') :
    Decided D env session actor target decision done ws held'
      s' where
  changes := h.changes.stable hD hReach hSub
  pending := h.pending
  choice := h.choice
  event := h.event
  request := by
    rcases h.request with ⟨loaded, rest, hSaw, hRest⟩
    exact ⟨loaded, rest,
      hSaw.later hReach h.changes.held, hRest⟩
  updates := h.updates

/- The flush of a request writes what differs. -/
theorem wlp_flushRequest
    {loaded changed : AccessRequest}
    {ws : List IdentityWrite}
    {f : Unit → Op α}
    (hInv : D.inv s)
    (hOk : ∀ held' s', D.Reach held s s' →
      (∀ k ∈ held, k ∈ held') →
      (f ()).wlp D Q held' (IdentityWrite.applyAll
        (ws ++ requestWrites loaded changed)) s') :
    (flushRequest loaded changed >>= f).wlp D Q held
      (IdentityWrite.applyAll ws) s := by
  unfold flushRequest requestWrites at *
  split
  · rename_i hSame
    have hDone := hOk held s (.refl hInv) (fun _ hk => hk)
    rw [if_pos hSame, List.append_nil] at hDone
    rw [pure_bind]
    exact hDone
  · rename_i hChanged
    simp only [bind_assoc]
    apply Txn.wlp_acquire
    intro s₁ h₁
    apply wlp_execute
    have hDone := hOk
      (.exclusive (.accessRequestRow loaded.id) :: held) s₁ h₁
      (fun k hk => List.mem_cons_of_mem _ hk)
    rw [if_neg hChanged] at hDone
    exact hDone

theorem wlp_decidePendingAccessRequest
    {decision : AccessRequestStatus}
    {f : Flushed AccessDecision → Op α}
    (hD : FixesUsers D)
    (hQ : Tolerant Q)
    (hFresh : FreshTarget D session actorUserId targetUserId
      held s)
    (hOk : ∀ actor target done ws held' s', D.Reach held s s' →
      (∀ k ∈ held, k ∈ held') →
      ActorAndTarget session actorUserId targetUserId actor
        target held' s' →
      Decided D env session actor target decision done ws held'
        s' →
      (f done).wlp D Q held' (IdentityWrite.applyAll ws) s') :
    (decidePendingAccessRequest env session actorUserId
      targetUserId decision >>= f).wlp D Q held id s := by
  simp only [decidePendingAccessRequest, bind_assoc, pure_bind]
  apply Txn.wlp_require
  · intro _
    exact hQ.error (by simp)
  intro hDecision
  apply wlp_lockActorAndTarget hD hQ
  intro actor target held₁ s₁ h₁ hSub₁ hLocked₁
  apply Txn.wlp_require
  · intro _
    exact hQ.error (by simp [adminUserForbidden])
  intro hOther
  apply wlp_isOwnerOrRecovery h₁.inv
  intro isProtected s₂ h₂ hOwner
  apply Txn.wlp_require
  · intro _
    exact hQ.error (by simp)
  intro hUnprotected
  apply Txn.wlp_require
  · intro _
    exact hQ.error (by simp [adminUserForbidden])
  intro hRank
  apply Txn.wlp_require
  · intro _
    exact hQ.error (by simp)
  intro hPending
  change target.accessStatus = .pending at hPending
  have hLocked₂ := hLocked₁.stable hD h₂ (fun _ hk => hk)
  rw [← IdentityWrite.applyAll_nil]
  apply wlp_lockPendingAccessRequests hLocked₂.heldTarget
    (fun _ => rfl)
  intro pending held₃ s₃ h₃ hSub₃ hSaw
  apply Txn.wlp_getOrFail
  · intro _
    exact hQ.error (by simp)
  intro loaded hLoaded
  have hHead : ∃ rest, pending = loaded :: rest := by
    cases pending with
    | nil => cases hLoaded
    | cons r rest =>
        cases hLoaded
        exact ⟨rest, rfl⟩
  rcases hHead with ⟨rest, rfl⟩
  have hStatus : target.accessStatus ≠
      decidedStatus decision := by
    rw [hPending]
    unfold decidedStatus
    split <;> decide
  apply Txn.wlp_getOrFail
  · intro _
    exact hQ.error (by simp)
  intro event hEvent
  rw [show (if decision = .approved then .approved
      else .rejected) = decidedStatus decision from rfl]
    at hEvent ⊢
  have hReach₃ : D.Reach held₁ s₁ s₃ := h₂.trans h₃
  have hLocked₃ := hLocked₂.stable hD h₃ hSub₃
  have hSub₁₃ : ∀ k ∈ held, k ∈ held₃ :=
    fun k hk => hSub₃ k (hSub₁ k hk)
  have hFresh₃ := hFresh.later
    (h₁.trans (hReach₃.weaken hSub₁)) hSub₁₃
  have hChanges : Changes D actor target (transitionUserAccess
      env target actor.id (decidedStatus decision)).1 held₃
      s₃ := by
    apply hLocked₃.changes h₃.inv hFresh₃ hOther
    · intro hRole
      exact hUnprotected (hOwner hRole)
    · exact hRank
    · exact transitionUserAccess_id
    · intro hBefore _
      have hApproved := hBefore.2
      rw [hPending] at hApproved
      cases hApproved
    · intro hBefore _
      have hApproved := hBefore.2
      rw [hPending] at hApproved
      cases hApproved
  have hRow : ∀ s', D.Reach held₃ s₃ s' →
      (IdentityWrite.applyAll [] s').findUser target.id =
        some target := by
    intro s' hReach
    rw [IdentityWrite.applyAll_nil, id, hD hReach hChanges.held]
    exact hChanges.row
  refine wlp_flushRow hD hQ h₃.inv hRow hChanges.id ?_
  intro flush updates held₄ s₄ h₄ hSub₄ hFlush _
  have hNe : (transitionUserAccess env target actor.id
      (decidedStatus decision)).1 ≠ target := by
    intro hEq
    have hSame := congrArg User.accessStatus hEq
    rw [transitionUserAccess_accessStatus] at hSame
    exact hStatus hSame.symm
  rcases hFlush.cases with ⟨hEq, _⟩ | ⟨_, rfl, rfl⟩
  · exact absurd hEq hNe
  apply wlp_flushRequest h₄.inv
  intro held₅ s₅ h₅ hSub₅
  apply wlp_execute
  have h₄₅ : D.Reach held₃ s₃ s₅ := h₄.trans
    (h₅.weaken hSub₄)
  have hSub₃₅ : ∀ k ∈ held₃, k ∈ held₅ :=
    fun k hk => hSub₅ k (hSub₄ k hk)
  apply hOk actor target _ _ held₅ s₅
    (h₁.trans ((hReach₃.trans (h₄₅.weaken hSub₃)).weaken
      hSub₁)) (fun k hk => hSub₃₅ k (hSub₁₃ k hk))
    (hLocked₃.stable hD h₄₅ hSub₃₅)
  refine ⟨hChanges.stable hD h₄₅ hSub₃₅, hPending, ?_,
    hEvent, ?_, rfl⟩
  · simpa using hDecision
  · exact ⟨loaded, rest, hSaw.later h₄₅ hChanges.held, rfl,
      rfl⟩

theorem wlp_updateUserRole
    {role : UserRole}
    {f : Flushed (User × Option UserRoleEvent) → Op α}
    (hD : FixesUsers D)
    (hQ : Tolerant Q)
    (hFresh : FreshTarget D session actorUserId targetUserId
      held s)
    (hSame : ∀ actor target held' s', D.Reach held s s' →
      (∀ k ∈ held, k ∈ held') →
      ActorAndTarget session actorUserId targetUserId actor
        target held' s' →
      (f ⟨(target, none), []⟩).wlp D Q held' id s')
    (hOk : ∀ actor target held' s', D.Reach held s s' →
      (∀ k ∈ held, k ∈ held') →
      ActorAndTarget session actorUserId targetUserId actor
        target held' s' →
      canAssign actor role →
      role ≠ .owner →
      role ≠ target.role →
      Changes D actor target { target with role := role } held'
        s' →
      (f ⟨({ target with role := role },
        some (userRoleEvent env target actor.id role)),
          [⟨target, { target with role := role }⟩]⟩).wlp D Q
        held' (IdentityWrite.applyAll
          [.user target { target with role := role },
            .roleEvent
              (userRoleEvent env target actor.id role)]) s') :
    (updateUserRole env session actorUserId targetUserId
      role >>= f).wlp D Q held id s := by
  simp only [updateUserRole, bind_assoc]
  apply wlp_lockActorAndTarget hD hQ
  intro actor target held₁ s₁ h₁ hSub₁ hLocked₁
  dsimp only
  apply Txn.wlp_require
  · intro _
    exact hQ.error (by simp [adminUserForbidden])
  intro hOther
  apply Txn.wlp_require
  · intro _
    exact hQ.error (by simp [adminUserForbidden])
  intro hNotOwner
  apply wlp_isOwnerOrRecovery h₁.inv
  intro isProtected s₂ h₂ hOwner
  apply Txn.wlp_require
  · intro _
    exact hQ.error (by simp)
  intro hUnprotected
  apply Txn.wlp_require
  · intro _
    exact hQ.error (by simp [adminUserForbidden])
  intro hRank
  apply Txn.wlp_require
  · intro _
    exact hQ.error (by simp [adminUserForbidden])
  intro hAssign
  split
  · rw [pure_bind]
    exact hSame actor target held₁ s₂ (h₁.trans
      (h₂.weaken hSub₁)) hSub₁
      (hLocked₁.stable hD h₂ (fun _ hk => hk))
  rename_i hNew
  simp only [bind_assoc, pure_bind]
  apply wlp_refuseWhen hQ h₂.inv (by simp)
  intro s₃ h₃ hNoCustody
  apply wlp_refuseWhen hQ h₃.inv
    (by simp [activeProcurementResponsibility])
  intro s₄ h₄ hNoRequest
  have hReach₄ : D.Reach held₁ s₁ s₄ := (h₂.trans h₃).trans h₄
  have hLocked₄ := hLocked₁.stable hD hReach₄ (fun _ hk => hk)
  have hFresh₄ := hFresh.later
    (h₁.trans (hReach₄.weaken hSub₁)) hSub₁
  have hChanges : Changes D actor target
      { target with role := role } held₁ s₄ := by
    apply hLocked₄.changes h₄.inv hFresh₄ hOther
    · intro hRole
      exact hUnprotected (hOwner hRole)
    · exact hRank
    · rfl
    · intro hBefore hAfter
      have hRole : role ∉ custodyRoles :=
        fun hMem => hAfter ⟨hMem, hBefore.2⟩
      exact (Saw.now h₃.inv (hNoCustody hRole)).later h₄
        hLocked₄.heldTarget
    · intro hBefore hAfter
      exact Saw.now h₄.inv (hNoRequest ⟨hBefore.1,
        fun hHolds => hAfter ⟨hHolds, hBefore.2⟩⟩)
  have hRow : ∀ s', D.Reach held₁ s₄ s' →
      (IdentityWrite.applyAll [] s').findUser target.id =
        some target := by
    intro s' hReach
    rw [IdentityWrite.applyAll_nil, id, hD hReach hChanges.held]
    exact hChanges.row
  refine wlp_flushRow hD hQ h₄.inv hRow hChanges.id ?_
  intro flush updates held₅ s₅ h₅ hSub₅ hFlush _
  have hNe : { target with role := role } ≠ target :=
    fun hEq => hNew (congrArg User.role hEq)
  rcases hFlush.cases with ⟨hEq, _⟩ | ⟨_, rfl, rfl⟩
  · exact absurd hEq hNe
  apply wlp_execute
  exact hOk actor target held₅ s₅
    (h₁.trans ((hReach₄.trans h₅).weaken hSub₁))
    (fun k hk => hSub₅ k (hSub₁ k hk))
    (hLocked₄.stable hD h₅ hSub₅) hAssign hNotOwner hNew
    (hChanges.stable hD h₅ hSub₅)

theorem wlp_flushAccessEvent
    {event : Option UserAccessEvent}
    {ws : List IdentityWrite}
    {f : Unit → Op α}
    (h : (f ()).wlp D Q held (IdentityWrite.applyAll
      (ws ++ accessEventWrites event)) s) :
    (flushAccessEvent event >>= f).wlp D Q held
      (IdentityWrite.applyAll ws) s := by
  cases event with
  | none =>
      rw [accessEventWrites, List.append_nil] at h
      exact h
  | some e =>
      apply wlp_execute
      exact h

/- Without unfinished requests none awaits the initiator. -/
theorem inactive_of_finished
    {user : Uuid}
    (h : hasUnfinishedProcurement user s = false) :
    hasActiveProcurementCreateResponsibility user s =
      false := by
  rw [hasUnfinishedProcurement, List.any_eq_false] at h
  rw [hasActiveProcurementCreateResponsibility,
    List.any_eq_false]
  intro r hr hActive
  apply h r hr
  simp only [decide_eq_true_eq] at hActive ⊢
  refine ⟨?_, Or.inl hActive.1⟩
  intro hCompleted
  simp [hCompleted] at hActive

theorem wlp_silenceNotifications
    {requests : List AccessRequest}
    {ws : List IdentityWrite}
    {f : Unit → Op α}
    (hInv : D.inv s)
    (hOk : ∀ quiet held' s', D.Reach held s s' →
      (∀ k ∈ held, k ∈ held') →
      Silences quiet →
      (f ()).wlp D Q held'
        (IdentityWrite.applyAll (ws ++ quiet)) s') :
    (silenceNotifications env requests >>= f).wlp D Q held
      (IdentityWrite.applyAll ws) s := by
  induction requests generalizing ws held s with
  | nil =>
      have hDone := hOk [] held s (.refl hInv)
        (fun _ hk => hk) (by simp [Silences])
      rw [List.append_nil] at hDone
      exact hDone
  | cons r rs ih =>
      simp only [silenceNotifications, bind_assoc]
      apply Txn.wlp_acquire
      intro s₁ h₁
      apply wlp_execute
      apply ih h₁.inv
      intro quiet held₂ s₂ h₂ hSub₂ hQuiet
      rw [List.append_assoc]
      refine hOk _ held₂ s₂ (Discipline.reach_of_cons h₁ h₂)
        (fun k hk => hSub₂ k (List.mem_cons_of_mem _ hk)) ?_
      intro w hw
      rcases List.mem_cons.mp hw with rfl | hw
      · exact ⟨_, _, rfl⟩
      · exact hQuiet w hw

/- Notifications are not users. -/
theorem onUserAll_of_silences
    {ws : List IdentityWrite}
    {row : User}
    (h : Silences ws) :
    IdentityWrite.onUserAll ws row = row := by
  induction ws with
  | nil => rfl
  | cons w ws ih =>
      rcases h w List.mem_cons_self with ⟨_, _, rfl⟩
      exact ih fun v hv => h v (List.mem_cons_of_mem _ hv)

theorem wlp_resetUserAccount
    {expected : Int}
    {f : Flushed Unit → Op α}
    (hD : FixesUsers D)
    (hQ : Tolerant Q)
    (hFresh : FreshTarget D session actorUserId targetUserId
      held s)
    (hOk : ∀ actor target ws updates held' s',
      D.Reach held s s' →
      (∀ k ∈ held, k ∈ held') →
      ActorAndTarget session actorUserId targetUserId actor
        target held' s' →
      Reset D env actor target ws updates held' s' →
      (f ⟨(), updates⟩).wlp D Q held'
        (IdentityWrite.applyAll ws) s') :
    (resetUserAccount env session actorUserId targetUserId
      expected >>= f).wlp D Q held id s := by
  simp only [resetUserAccount, bind_assoc]
  apply Txn.wlp_query
  intro s₀ h₀
  apply Txn.wlp_getOrFail
  · intro _
    exact hQ.error (by simp [noActiveTelegramAccount])
  intro initial _
  apply Txn.wlp_require
  · intro _
    exact hQ.error (by simp [telegramIdMismatch])
  intro _
  apply Txn.wlp_acquire
  intro s₁ h₁
  apply wlp_lockActorAndTarget hD hQ
  intro actor target held₂ s₂ h₂ hSub₂ hLocked₂
  dsimp only
  apply Txn.wlp_require
  · intro _
    exact hQ.error (by simp [adminUserForbidden])
  intro hOther
  apply Txn.wlp_acquire
  intro s₃ h₃
  apply Txn.wlp_query
  intro s₄ h₄
  apply Txn.wlp_getOrFail
  · intro _
    exact hQ.error (by simp [noActiveTelegramAccount])
  intro identity _
  apply Txn.wlp_require
  · intro _
    exact hQ.error (by simp [telegramIdMismatch])
  intro _
  apply Txn.wlp_require
  · intro _
    exact hQ.error (by simp)
  intro hUnprotected
  apply Txn.wlp_require
  · intro _
    exact hQ.error (by simp [adminUserForbidden])
  intro hRank
  apply wlp_refuseWhen hQ h₄.inv (by simp)
  intro s₅ h₅ hNoCustody
  apply wlp_refuseWhen hQ h₅.inv (by simp)
  intro s₆ h₆ hNoProcurement
  rw [← IdentityWrite.applyAll_nil]
  apply wlp_execute
  have h₂₄ := Discipline.reach_of_cons h₃ h₄
  have hCons : ∀ k ∈ held₂, k ∈
      .exclusive (.telegramIdentityRow target.id) :: held₂ :=
    fun k hk => List.mem_cons_of_mem _ hk
  have h₂₆ : D.Reach held₂ s₂ s₆ :=
    h₂₄.trans ((h₅.trans h₆).weaken hCons)
  have hLocked₆ := hLocked₂.stable hD h₂₆ hCons
  apply wlp_lockPendingAccessRequests hLocked₆.heldTarget
    (fun _ => rfl)
  intro pending held₀ s₀' h₀' hSub₀ _
  apply wlp_silenceNotifications h₀'.inv
  intro quiet held₇ s₇ hLast hSubLast hQuiet
  have h₇ : D.Reach (.exclusive
      (.telegramIdentityRow target.id) :: held₂) s₆ s₇ :=
    h₀'.trans (hLast.weaken hSub₀)
  have hSub₇ : ∀ k ∈ .exclusive
      (.telegramIdentityRow target.id) :: held₂, k ∈ held₇ :=
    fun k hk => hSubLast k (hSub₀ k hk)
  apply wlp_execute
  have hSub₂₇ : ∀ k ∈ held₂, k ∈ held₇ :=
    fun k hk => hSub₇ k (hCons k hk)
  have hTo₂ : D.Reach held s s₂ :=
    h₀.trans (Discipline.reach_of_cons h₁ h₂)
  have hSub : ∀ k ∈ held, k ∈ held₂ :=
    fun k hk => hSub₂ k (List.mem_cons_of_mem _ hk)
  have h₂₇ : D.Reach held₂ s₂ s₇ :=
    h₂₆.trans (h₇.weaken hCons)
  have hLocked₇ := hLocked₆.stable hD h₇ hSub₇
  have hFresh₇ := hFresh.later
    (hTo₂.trans (h₂₇.weaken hSub))
    (fun k hk => hSub₂₇ k (hSub k hk))
  have hNone : Saw D (.exclusive (.userRow target.id)) s₇
      (fun s₁ => hasCustody target.id s₁ = false) :=
    (Saw.now h₅.inv (hNoCustody trivial)).later (h₆.trans h₇)
      hLocked₆.heldTarget
  have hProcurement : Saw D (.exclusive (.userRow target.id))
      s₇ (fun s₁ => hasUnfinishedProcurement target.id s₁ =
        false) :=
    (Saw.now h₆.inv (hNoProcurement trivial)).later h₇
      hLocked₆.heldTarget
  have hChanges : Changes D actor target
      (resetUser env target actor.id) held₇ s₇ := by
    apply hLocked₇.changes h₇.inv hFresh₇ hOther
    · exact fun hRole => hUnprotected (Or.inl hRole)
    · exact hRank
    · exact transitionUserAccess_id
    · exact fun _ _ => hNone
    · intro _ _
      rcases hProcurement with ⟨s₁, hReach, hFinished⟩
      exact ⟨s₁, hReach, inactive_of_finished hFinished⟩
  have hRow : ∀ s', D.Reach held₇ s₇ s' →
      (IdentityWrite.applyAll
        ([.revokeSessions [target.id] env.now] ++ quiet ++
          [.deletePending target.id]) s').findUser target.id =
        some target := by
    intro s' hReach
    have hFind := hChanges.row
    rw [← hD hReach hChanges.held] at hFind
    rw [IdentityWrite.findUser_applyAll, hFind,
      Option.map_some, IdentityWrite.onUserAll_append,
      IdentityWrite.onUserAll_append,
      onUserAll_of_silences hQuiet]
    rfl
  refine wlp_flushRow hD hQ h₇.inv hRow hChanges.id ?_
  intro flush updates held₈ s₈ h₈ hSub₈ hFlush _
  apply wlp_flushAccessEvent
  have hDone : ∀ roles,
      RoleWrites env target actor.id .engineer roles →
      (f ⟨(), updates⟩).wlp D Q held₈
        (IdentityWrite.applyAll
          ([.revokeSessions [target.id] env.now] ++ quiet ++
              [.deletePending target.id] ++ flush ++
            accessEventWrites (transitionUserAccess env target
              actor.id .blocked).2 ++ roles ++
            [.deleteIdentity target.id])) s₈ := by
    intro roles hRoles
    apply hOk actor target _ updates held₈ s₈
      (hTo₂.trans ((h₂₇.trans (h₈.weaken hSub₂₇)).weaken hSub))
      (fun k hk => hSub₈ k (hSub₂₇ k (hSub k hk)))
      (hLocked₇.stable hD h₈ hSub₈)
    exact ⟨hChanges.stable hD h₈ hSub₈,
      hProcurement.later h₈ hChanges.held, quiet, flush,
      roles, hQuiet, hFlush, hRoles, rfl⟩
  split
  · simp only [bind_assoc, pure_bind]
    apply wlp_execute
    apply wlp_execute
    rename_i hRole
    exact hDone [.roleEvent _] ⟨(if_pos hRole).symm⟩
  · simp only [bind_assoc, pure_bind]
    apply wlp_execute
    rename_i hRole
    have hPlain := hDone [] ⟨(if_neg hRole).symm⟩
    rw [List.append_nil] at hPlain
    exact hPlain

/- The row of the actor, locked while the mutation is made. -/
structure ActorLocked
    (actor : User)
    (held : List Lock)
    (s : Db) : Prop where
  row : ∃ row, s.findUser actor.id = some row
  held : ∃ shared, ⟨.userRow actor.id, shared⟩ ∈ held

/- A session that has loaded the actor returns it. -/
theorem ActorAndTarget.actorLocked
    {loaded : User}
    (h : ActorAndTarget ⟨[loaded], []⟩ loaded.id targetUserId
      actor target held s) :
    actor = loaded ∧ ActorLocked loaded held s := by
  have hActor := h.locked.actor
  rcases Option.map_eq_some_iff.mp hActor with
    ⟨row, hRow, hLoaded⟩
  have hId : row.id = loaded.id := Table.key_of_find hRow
  refine ⟨?_, ⟨row, hRow⟩, h.locked.heldActor⟩
  rw [← hLoaded]
  simp [Table.find, hId]

/- The user is told of a decision, or there is no identity. -/
theorem wlp_notifyDecision
    {user : Uuid}
    {request : AccessRequest}
    {ws : List IdentityWrite}
    {f : ManagedUser → Op α}
    (hQ : Tolerant Q)
    (hOk : ∀ managed held' s', D.Reach held s s' →
      (∀ k ∈ held, k ∈ held') →
      Enqueued D env (accessDecisionUserCall env.telegram
        request.id managed.identity request.status) ws held'
        s' →
      (f managed).wlp D Q held' (IdentityWrite.applyAll
        (ws ++ [notice env (accessDecisionUserCall
          env.telegram request.id managed.identity
          request.status)])) s') :
    (notifyDecision env user request >>= f).wlp D Q held
      (IdentityWrite.applyAll ws) s := by
  simp only [notifyDecision, bind_assoc, pure_bind]
  apply Txn.wlp_query
  intro s₁ h₁
  apply Txn.wlp_getOrFail
  · intro _
    exact hQ.error (by simp)
  intro managed _
  apply wlp_enqueue hQ
  intro held₂ s₂ h₂ hSub₂ hTaken
  exact hOk managed held₂ s₂ (h₁.trans h₂) hSub₂ hTaken

/- What has been written when a mutation returns. -/
theorem wlp_perform
    {mutation : AdminMutation}
    {f : Flushed Bool → Op α}
    (hD : FixesUsers D)
    (hQ : Tolerant Q)
    (hOk : ∀ ws updates changed held' s', D.Reach held s s' →
      (∀ k ∈ held, k ∈ held') →
      ActorLocked actor held' s' →
      Mutated D env actor targetUserId held' s' mutation ws
        updates changed →
      (f ⟨changed, updates⟩).wlp D Q held'
        (IdentityWrite.applyAll ws) s') :
    (mutation.perform env actor targetUserId >>= f).wlp D Q
      held id s := by
  cases mutation with
  | access accessStatus =>
      simp only [AdminMutation.perform, bind_assoc, pure_bind]
      apply wlp_updateUserAccess hD hQ freshTarget_of_actor
      · intro loaded target held₁ s₁ h₁ hSub hLocked
        rcases hLocked.actorLocked with ⟨rfl, hActor⟩
        exact hOk [] [] false held₁ s₁ h₁ hSub hActor
          (.accessSame hLocked.manages)
      · intro loaded target changed event held₁ s₁ h₁ hSub
          hLocked hMoved hAllowed hChanges
        rcases hLocked.actorLocked with ⟨rfl, hActor⟩
        exact hOk _ _ true held₁ s₁ h₁ hSub hActor
          (.access (loadedUser_id hLocked.locked.target)
            hMoved hAllowed hChanges)
  | decide decision =>
      simp only [AdminMutation.perform, bind_assoc, pure_bind]
      apply wlp_decidePendingAccessRequest hD hQ
        freshTarget_of_actor
      intro loaded target done ws held₁ s₁ h₁ hSub₁ hLocked
        hDecided
      apply wlp_notifyDecision hQ
      intro managed held₂ s₂ h₂ hSub₂ hTaken
      have hLocked₂ := hLocked.stable hD h₂ hSub₂
      rcases hLocked₂.actorLocked with ⟨rfl, hActor⟩
      exact hOk _ done.updates true held₂ s₂
        (h₁.trans (h₂.weaken hSub₁))
        (fun k hk => hSub₂ k (hSub₁ k hk)) hActor
        (.decide (loadedUser_id hLocked₂.locked.target)
          (hDecided.stable hD h₂ hSub₂) hTaken)
  | role newRole =>
      simp only [AdminMutation.perform, bind_assoc, pure_bind]
      apply wlp_updateUserRole hD hQ freshTarget_of_actor
      · intro loaded target held₁ s₁ h₁ hSub hLocked
        rcases hLocked.actorLocked with ⟨rfl, hActor⟩
        exact hOk [] [] false held₁ s₁ h₁ hSub hActor
          (.roleSame hLocked.manages)
      · intro loaded target held₁ s₁ h₁ hSub hLocked hAssign
          hNotOwner hNew hChanges
        rcases hLocked.actorLocked with ⟨rfl, hActor⟩
        exact hOk _ _ true held₁ s₁ h₁ hSub hActor
          (.role (loadedUser_id hLocked.locked.target) hAssign
            hNotOwner hNew hChanges)
  | reset expected =>
      simp only [AdminMutation.perform, bind_assoc, pure_bind]
      apply wlp_resetUserAccount hD hQ freshTarget_of_actor
      intro loaded target ws updates held₁ s₁ h₁ hSub hLocked
        hReset
      rcases hLocked.actorLocked with ⟨rfl, hActor⟩
      exact hOk ws updates true held₁ s₁ h₁ hSub hActor
        (.reset (loadedUser_id hLocked.locked.target) hReset)

end Operations
