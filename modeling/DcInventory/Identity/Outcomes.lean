import DcInventory.Identity.Mutations

/-
  This file proves what authentication, requests for access,
  decisions from Telegram and the rotation of the owner have
  written when they return.

  Key definitions include:
    * `Reconciled`
    * `Requested`
    * `Pressed`
    * `Rotated`

  Key theorems include:
    * `wlp_load`
    * `wlp_createOrGetAccessRequest`
    * `wlp_applyAccessDecision`
    * `wlp_rotateRecoveryOwnerTransaction`
-/

------------------------------------------------------------
-- Effects
------------------------------------------------------------

/- No two rows of users have the same id. -/
def DistinctUsers (db : Db) : Prop :=
  (db.users.map User.id).Nodup

/- The flush of an instance over the row that it has. -/
structure FlushesOver
    (row loaded changed : User)
    (ws : List IdentityWrite)
    (updates : List UserUpdate) : Prop where
  cases : (changed = loaded ∧ ws = [] ∧ updates = []) ∨
    (changed ≠ loaded ∧ ws = [.user loaded changed] ∧
      updates = [⟨row, User.updated loaded changed row⟩])

/- The statements that approve a pending request, if any. -/
def approvalWrites
    (env : IdentityEnv)
    (decidedBy : Uuid)
    (note : String) : Option AccessRequest → List IdentityWrite
| none => []
| some r =>
    requestWrites r (approvedRequest env r decidedBy note)

/- What a reconciliation that changes something has written. -/
structure Reconciled
    (D : Discipline Db Lock)
    (env : IdentityEnv)
    (loaded : User)
    (ws : List IdentityWrite)
    (updates : List UserUpdate)
    (held : List Lock)
    (s : Db) : Prop where
  locked : .exclusive (.userRow loaded.id) ∈ held
  writes : ∃ row flush roles pending,
    s.findUser loaded.id = some row ∧
    FlushesOver row loaded (reconciled env loaded).1 flush
      updates ∧
    RoleWrites env loaded loaded.id .owner roles ∧
    SawPending D ⟨[loaded], []⟩ loaded.id pending s ∧
    ws = flush ++ roles ++
      accessEventWrites (reconciled env loaded).2 ++
      approvalWrites env loaded.id "configured recovery owner"
        pending.head?

/- What is seen and written of the request itself. -/
inductive AsksFor
    (D : Discipline Db Lock)
    (env : IdentityEnv)
    (owner : Uuid)
    (held : List Lock)
    (s : Db) :
    AccessRequest → List IdentityWrite → Prop where
| existing {found rest} :
    Saw D (.exclusive (.userRow owner)) s
      (fun s₁ => pendingAccessRequests owner s₁ =
        found :: rest) →
    AsksFor D env owner held s found []
| new :
    Saw D (.exclusive (.userRow owner)) s
      (fun s₁ => pendingAccessRequests owner s₁ = []) →
    .exclusive (.accessRequestPkey env.newRequestId) ∈ held →
    Saw D (.exclusive (.accessRequestPkey env.newRequestId)) s
      (fun s₁ => s₁.findAccessRequest env.newRequestId =
        none) →
    AsksFor D env owner held s (newAccessRequest env owner)
      [.newRequest (newAccessRequest env owner)]

/- What `create_or_get_access_request` has written. -/
structure Requested
    (D : Discipline Db Lock)
    (env : IdentityEnv)
    (loaded : User)
    (result : AccessRequestResult)
    (ws : List IdentityWrite)
    (updates : List UserUpdate)
    (held : List Lock)
    (s : Db) : Prop where
  locked : .exclusive (.userRow loaded.id) ∈ held
  status : loaded.accessStatus = .pending ∨
    loaded.accessStatus = .rejected
  writes : ∃ row flush asks,
    s.findUser loaded.id = some row ∧
    FlushesOver row loaded (asked env loaded).1 flush
      updates ∧
    AsksFor D env loaded.id held s result.request asks ∧
    ws = flush ++ accessEventWrites (asked env loaded).2 ++
      asks

/- The statements that tell the administrators. -/
inductive Announces
    (env : IdentityEnv)
    (request : AccessRequest) : List IdentityWrite → Prop where
| known {recipient identity approve reject} :
    Announces env request
      [notice env (accessRequestAdminCall env.telegram
        recipient request.id identity approve reject)]
| new {approve reject recipient identity} :
    Announces env request
      [.newCallbacks approve reject,
        notice env (accessRequestAdminCall env.telegram
          recipient request.id identity approve.token
          reject.token)]

/- The statements that answer the press of a button. -/
def answerWrites
    (env : IdentityEnv)
    (press : AccessCallback)
    (text : Text) : List IdentityWrite :=
  (match press.message with
    | none => []
    | some (chatId, messageId) =>
        [notice env (accessButtonsClearCall env.telegram
          press.callbackQueryId chatId messageId)]) ++
    [notice env (callbackAnswerCall env.telegram
      press.callbackQueryId text)]

/- The request was so when it was first read. -/
def WasLoaded
    (D : Discipline Db Lock)
    (loaded : AccessRequest)
    (s : Db) : Prop :=
  ∃ s₁, D.Reach [] s₁ s ∧
    s₁.findAccessRequest loaded.id = some loaded

theorem WasLoaded.later
    {D : Discipline Db Lock}
    {loaded : AccessRequest}
    {held : List Lock}
    {s s' : Db}
    (h : WasLoaded D loaded s)
    (hReach : D.Reach held s s') :
    WasLoaded D loaded s' := by
  rcases h with ⟨s₁, h₁, hFind⟩
  exact ⟨s₁, h₁.trans (hReach.weaken (by simp)), hFind⟩

/- The request as the callback leaves it. -/
def annotated (request : AccessRequest) : AccessRequest :=
  { request with
    decisionNote := some "Telegram inline callback" }

/- What `apply_access_decision` has written. -/
inductive Pressed
    (D : Discipline Db Lock)
    (env : IdentityEnv)
    (press : AccessCallback)
    (held : List Lock)
    (s : Db) :
    CallbackOutcome → List IdentityWrite → List UserUpdate →
      Prop where
| unchanged {loaded : AccessRequest} :
    WasLoaded D loaded s →
    loaded.status ≠ .pending →
    Guarded held (answerWrites env press
      (decisionLabel loaded.status false)) →
    Pressed D env press held s ⟨loaded, ⟨loaded.status, false⟩⟩
      (answerWrites env press
        (decisionLabel loaded.status false)) []
| decided {loaded : AccessRequest} {actor target : User}
    {action : CallbackAction} {done ws identity} :
    loaded.status = .pending →
    loaded.userId = target.id →
    Decided D env ⟨[actor, target], [loaded]⟩ actor target
      action.decision done ws held s →
    Enqueued D env (accessDecisionUserCall env.telegram
      done.value.request.id identity
      done.value.request.status)
      (ws ++ requestWrites done.value.request
        (annotated done.value.request)) held s →
    Guarded held (answerWrites env press
      (decisionLabel done.value.request.status true)) →
    Pressed D env press held s
      ⟨loaded, ⟨done.value.request.status, true⟩⟩
      (ws ++ requestWrites done.value.request
          (annotated done.value.request) ++
        [notice env (accessDecisionUserCall env.telegram
          done.value.request.id identity
          done.value.request.status)] ++
        answerWrites env press
          (decisionLabel done.value.request.status true))
      done.updates

/- The two users, locked and checked before they change. -/
structure Exchangeable
    (D : Discipline Db Lock)
    (owner target : User)
    (held : List Lock)
    (s : Db) : Prop where
  ownerRow : s.findUser owner.id = some owner
  targetRow : s.findUser target.id = some target
  heldOwner : .exclusive (.userRow owner.id) ∈ held
  heldTarget : .exclusive (.userRow target.id) ∈ held
  other : owner.id ≠ target.id
  ownerRole : owner.role = .owner
  ownerStatus : owner.accessStatus = .approved
  targetRole : target.role ≠ .owner
  custody : Saw D (.exclusive (.userRow target.id)) s
    (fun s₁ => hasCustody target.id s₁ = false)

/- What a rotation has written. -/
structure Rotated
    (D : Discipline Db Lock)
    (env : IdentityEnv)
    (owner target : User)
    (ws : List IdentityWrite)
    (updates : List UserUpdate)
    (held : List Lock)
    (s : Db) : Prop where
  users : Exchangeable D owner target held s
  writes : ∃ flush approvedUpdates pending,
    FlushesRow target (approvedTarget env target owner.id).1
      flush approvedUpdates ∧
    SawPending D .fresh target.id pending s ∧
    ws = [.user owner { owner with role := .admin },
        .roleEvent (userRoleEvent env owner owner.id .admin)] ++
      flush ++
      accessEventWrites
        (approvedTarget env target owner.id).2 ++
      [.user (approvedTarget env target owner.id).1
        { (approvedTarget env target owner.id).1 with
          role := .owner }] ++
      approvalWrites env owner.id "recovery OWNER rotation"
        pending.head? ++
      [.roleEvent (userRoleEvent env target owner.id .owner),
        .revokeSessions [owner.id, target.id] env.now] ∧
    updates = [⟨owner, { owner with role := .admin }⟩] ++
      approvedUpdates ++
      [⟨(approvedTarget env target owner.id).1,
        { (approvedTarget env target owner.id).1 with
          role := .owner }⟩]

------------------------------------------------------------
-- Stale Instances
------------------------------------------------------------

section Operations

variable {α : Type}
variable {D : Discipline Db Lock}
variable {s s' : Db}
variable {held held' : List Lock}
variable {Q : Post Db Lock Error α}
variable {env : IdentityEnv}
variable {loaded changed : User}

/- Lock the row of a user whom the session has loaded. -/
theorem wlp_lockLoaded
    {f : User → Op α}
    {e : Error}
    (hQ : Tolerant Q)
    (hNot : ¬ IsCustodyTrigger e)
    (hOk : ∀ row s', D.Reach held s s' →
      s'.findUser loaded.id = some row →
      (f loaded).wlp D Q
        (.exclusive (.userRow loaded.id) :: held) id s') :
    (lockUserRow ⟨[loaded], []⟩ false loaded.id >>= fun u =>
      Txn.getOrFail e u >>= f).wlp D Q held id s := by
  apply wlp_lockUserRow
  intro s₁ h₁
  apply Txn.wlp_getOrFail
  · intro _
    exact hQ.error hNot
  intro u hUser
  rcases Option.map_eq_some_iff.mp hUser with
    ⟨row, hRow, hLoaded⟩
  have hId : row.id = loaded.id := Table.key_of_find hRow
  have hSame : u = loaded := by
    rw [← hLoaded]
    simp [Table.find, hId]
  rw [hSame]
  exact hOk row s₁ h₁ hRow

/- The flush of a loaded instance over the locked row. -/
theorem wlp_flushLoaded
    {row : User}
    {f : List UserUpdate → Op α}
    (hD : FixesUsers D)
    (hQ : Tolerant Q)
    (hInv : D.inv s)
    (hRow : s.findUser loaded.id = some row)
    (hHeld : .exclusive (.userRow loaded.id) ∈ held)
    (hOk : ∀ flush updates held' s', D.Reach held s s' →
      (∀ k ∈ held, k ∈ held') →
      FlushesOver row loaded changed flush updates →
      (f updates).wlp D Q held'
        (IdentityWrite.applyAll flush) s') :
    (flushUser loaded changed >>= f).wlp D Q held id s := by
  rw [← IdentityWrite.applyAll_nil]
  refine wlp_flushUser hQ ?_ ?_ hD
  · intro hSame
    exact hOk [] [] held s (.refl hInv) (fun _ hk => hk)
      ⟨Or.inl ⟨hSame, rfl, rfl⟩⟩
  · intro hChanged old held' s' hReach hSub _ hOld _
    rw [IdentityWrite.applyAll_nil, id, hD hReach hHeld, hRow]
      at hOld
    cases hOld
    exact hOk _ _ held' s' hReach hSub
      ⟨Or.inr ⟨hChanged, rfl, rfl⟩⟩

theorem wlp_approvePending
    {decidedBy : Uuid}
    {note : String}
    {request : Option AccessRequest}
    {ws : List IdentityWrite}
    {f : Unit → Op α}
    (hInv : D.inv s)
    (hOk : ∀ held' s', D.Reach held s s' →
      (∀ k ∈ held, k ∈ held') →
      (f ()).wlp D Q held' (IdentityWrite.applyAll
        (ws ++ approvalWrites env decidedBy note request)) s') :
    (approvePending env decidedBy note request >>= f).wlp D Q
      held (IdentityWrite.applyAll ws) s := by
  cases request with
  | none =>
      have hDone := hOk held s (.refl hInv) (fun _ hk => hk)
      rw [approvalWrites, List.append_nil] at hDone
      exact hDone
  | some r => exact wlp_flushRequest hInv hOk

/- Statements that leave requests for access alone. -/
theorem accessRequests_applyAll
    {ws : List IdentityWrite}
    (hKeeps : ∀ w ∈ ws, ∀ db : Db,
      (w.apply db).accessRequests = db.accessRequests)
    (db : Db) :
    (IdentityWrite.applyAll ws db).accessRequests =
      db.accessRequests := by
  induction ws generalizing db with
  | nil => rfl
  | cons w ws ih =>
      rw [IdentityWrite.applyAll, ih fun v hv =>
        hKeeps v (List.mem_cons_of_mem w hv)]
      exact hKeeps w List.mem_cons_self db

theorem pendingAccessRequests_applyAll
    {owner : Uuid}
    {ws : List IdentityWrite}
    (hKeeps : ∀ w ∈ ws, ∀ db : Db,
      (w.apply db).accessRequests = db.accessRequests)
    (db : Db) :
    pendingAccessRequests owner (IdentityWrite.applyAll ws
      db) = pendingAccessRequests owner db := by
  unfold pendingAccessRequests
  rw [accessRequests_applyAll hKeeps]

theorem FlushesOver.keepsRequests
    {row : User}
    {ws : List IdentityWrite}
    {updates : List UserUpdate}
    (h : FlushesOver row loaded changed ws updates) :
    ∀ w ∈ ws, ∀ db : Db,
      (w.apply db).accessRequests = db.accessRequests := by
  rcases h.cases with ⟨_, rfl, _⟩ | ⟨_, rfl, _⟩
  · simp
  · simp [IdentityWrite.apply]

theorem keepsRequests_accessEventWrites
    {event : Option UserAccessEvent} :
    ∀ w ∈ accessEventWrites event, ∀ db : Db,
      (w.apply db).accessRequests = db.accessRequests := by
  cases event <;> simp [accessEventWrites, IdentityWrite.apply]

------------------------------------------------------------
-- Authentication
------------------------------------------------------------

/- An instance that reconciliation leaves has nothing to write. -/
theorem reconciled_eq_self
    (h : (reconciled env loaded).1 = loaded) :
    loaded.role = .owner ∧ (reconciled env loaded).2 = none := by
  have hStatus : loaded.accessStatus = .approved := by
    rw [← h]
    simp only [reconciled]
    split
    · exact transitionUserAccess_accessStatus
    split <;> exact transitionUserAccess_accessStatus
  have hRole : loaded.role = .owner := by
    rw [← h]
    simp only [reconciled]
    split
    · exact transitionUserAccess_role
    split <;> exact transitionUserAccess_role
  refine ⟨hRole, ?_⟩
  simp only [reconciled]
  rw [transitionUserAccess_of_eq (by exact hStatus)]
  simp only [Option.isSome_none, Bool.false_eq_true, if_false]
  split <;> rfl

theorem wlp_reconcileLocked
    {f : Flushed (Option User) → Op α}
    (hD : FixesUsers D)
    (hQ : Tolerant Q)
    (hNone : ∀ held' s', D.Reach held s s' →
      (∀ k ∈ held, k ∈ held') →
      (f ⟨none, []⟩).wlp D Q held' id s')
    (hSome : ∀ ws updates held' s', D.Reach held s s' →
      (∀ k ∈ held, k ∈ held') →
      Reconciled D env loaded ws updates held' s' →
      (f ⟨some (reconciled env loaded).1, updates⟩).wlp D Q
        held' (IdentityWrite.applyAll ws) s') :
    (reconcileLocked env ⟨[loaded], []⟩ loaded.id >>=
      f).wlp D Q held id s := by
  simp only [reconcileLocked, bind_assoc,
    acquireIdentityManagementExclusiveBarrier]
  apply Txn.wlp_acquire
  intro s₁ h₁
  apply wlp_lockLoaded hQ (by simp)
  intro row s₂ h₂ hRow₂
  apply Txn.wlp_query
  intro s₃ h₃
  apply Txn.wlp_require
  · intro _
    exact hQ.error (by simp)
  intro _
  have hHeld : Lock.exclusive (.userRow loaded.id) ∈
      .exclusive (.userRow loaded.id) ::
        .exclusive .identityManagement :: held :=
    List.mem_cons_self
  have hRow₃ : s₃.findUser loaded.id = some row := by
    rw [hD h₃ hHeld]
    exact hRow₂
  refine wlp_flushLoaded hD hQ h₃.inv hRow₃ hHeld ?_
  intro flush updates held₄ s₄ h₄ hSub₄ hFlush
  have hTo₄ : D.Reach held s s₄ := h₁.trans
    ((h₂.weaken fun k hk => List.mem_cons_of_mem _ hk).trans
      ((h₃.trans h₄).weaken fun k hk => by simp [hk]))
  have hSub : ∀ k ∈ held, k ∈ held₄ :=
    fun k hk => hSub₄ k (by simp [hk])
  have hDone : ∀ roles,
      RoleWrites env loaded loaded.id .owner roles →
      (do
        flushAccessEvent (reconciled env loaded).2
        let pending ← lockPendingAccessRequests ⟨[loaded], []⟩
          loaded.id
        approvePending env loaded.id
          "configured recovery owner" pending.head?
        (if (reconciled env loaded).1 = loaded ∧
            pending.head? = none then
          pure ⟨none, updates⟩
        else pure ⟨some (reconciled env loaded).1, updates⟩ :
          Op (Flushed (Option User))) >>= f).wlp D Q held₄
        (IdentityWrite.applyAll (flush ++ roles)) s₄ := by
    intro roles hRoles
    apply wlp_flushAccessEvent
    have hKeeps : ∀ w ∈ flush ++ roles ++
        accessEventWrites (reconciled env loaded).2,
        ∀ db : Db,
          (w.apply db).accessRequests = db.accessRequests := by
      intro w hw
      simp only [List.append_assoc, List.mem_append] at hw
      rcases hw with hw | hw | hw
      · exact hFlush.keepsRequests w hw
      · rcases hRoles.roleEvents w hw with ⟨e, rfl⟩
        exact fun _ => rfl
      · exact keepsRequests_accessEventWrites w hw
    apply wlp_lockPendingAccessRequests (hSub₄ _ hHeld)
      (pendingAccessRequests_applyAll hKeeps)
    intro pending held₅ s₅ h₅ hSub₅ hSaw
    apply wlp_approvePending h₅.inv
    intro held₆ s₆ h₆ hSub₆
    have h₄₆ : D.Reach held₄ s₄ s₆ :=
      h₅.trans (h₆.weaken hSub₅)
    have hSub₄₆ : ∀ k ∈ held₄, k ∈ held₆ :=
      fun k hk => hSub₆ k (hSub₅ k hk)
    have hTo₆ : D.Reach held s s₆ :=
      hTo₄.trans (h₄₆.weaken hSub)
    split
    · rename_i hSame
      rcases reconciled_eq_self hSame.1 with ⟨hRole, hEvent⟩
      rcases hFlush.cases with ⟨_, rfl, rfl⟩ | ⟨hNe, _⟩
      · have hNoRoles : roles = [] := by
          rw [hRoles.eq, if_neg (not_not_intro hRole)]
        rw [pure_bind, hNoRoles, hEvent, hSame.2]
        exact hNone held₆ s₆ hTo₆
          (fun k hk => hSub₄₆ k (hSub k hk))
      · exact absurd hSame.1 hNe
    · rw [pure_bind]
      apply hSome _ _ held₆ s₆ hTo₆
        (fun k hk => hSub₄₆ k (hSub k hk))
      refine ⟨hSub₄₆ _ (hSub₄ _ hHeld), row, flush, roles,
        pending, ?_, hFlush, hRoles, ?_, rfl⟩
      · rw [hD h₄₆ (hSub₄ _ hHeld), hD h₄ hHeld]
        exact hRow₃
      · exact hSaw.later h₆ (hSub₅ _ (hSub₄ _ hHeld))
  split
  · simp only [bind_assoc]
    apply wlp_execute
    rename_i hRole
    exact hDone [.roleEvent _] ⟨(if_pos hRole).symm⟩
  · rename_i hRole
    have hPlain := hDone [] ⟨(if_neg hRole).symm⟩
    rw [List.append_nil] at hPlain
    simp only [bind_assoc]
    exact hPlain

theorem wlp_reconcileRecoveryOwner
    {identity : TelegramIdentity}
    {f : Flushed (Option User) → Op α}
    (hD : FixesUsers D)
    (hQ : Tolerant Q)
    (hInv : D.inv s)
    (hNone : ∀ held' s', D.Reach held s s' →
      (∀ k ∈ held, k ∈ held') →
      (f ⟨none, []⟩).wlp D Q held' id s')
    (hSome : ∀ ws updates held' s', D.Reach held s s' →
      (∀ k ∈ held, k ∈ held') →
      Reconciled D env loaded ws updates held' s' →
      (f ⟨some (reconciled env loaded).1, updates⟩).wlp D Q
        held' (IdentityWrite.applyAll ws) s') :
    (reconcileRecoveryOwner env ⟨[loaded], []⟩ loaded
      identity >>= f).wlp D Q held id s := by
  have hStay := hNone held s (.refl hInv) (fun _ hk => hk)
  unfold reconcileRecoveryOwner
  split
  · rw [pure_bind]
    exact hStay
  split
  · simp only [bind_assoc]
    apply Txn.wlp_query
    intro s₁ h₁
    split
    · exact wlp_reconcileLocked hD hQ
        (fun held' s' hReach => hNone held' s'
          (h₁.trans hReach))
        (fun ws updates held' s' hReach => hSome ws updates
          held' s' (h₁.trans hReach))
    · rw [pure_bind]
      exact hNone held s₁ h₁ (fun _ hk => hk)
  · exact wlp_reconcileLocked hD hQ hNone hSome

/- The user of a session, fresh or made owner. -/
theorem wlp_load
    {start : SessionStart}
    {f : Flushed SessionUser → Op α}
    (hD : FixesUsers D)
    (hQ : Tolerant Q)
    (hInv : D.inv s)
    (hLoaded : ∀ user identity held' s', D.Reach held s s' →
      (∀ k ∈ held, k ∈ held') →
      (f ⟨⟨user, identity, none⟩, []⟩).wlp D Q held' id s')
    (hRecovered : ∀ user identity ws updates held' s',
      D.Reach held s s' →
      (∀ k ∈ held, k ∈ held') →
      Reconciled D env user ws updates held' s' →
      (f ⟨⟨user, identity, some (reconciled env user).1⟩,
        updates⟩).wlp D Q held' (IdentityWrite.applyAll ws)
          s') :
    (start.load env >>= f).wlp D Q held id s := by
  cases start with
  | resumed user identity =>
      exact hLoaded user identity held s (.refl hInv)
        (fun _ hk => hk)
  | token tokenHash =>
      simp only [SessionStart.load, getAuthenticatedContext,
        bind_assoc, pure_bind]
      apply Txn.wlp_query
      intro s₁ h₁
      apply Txn.wlp_getOrFail
      · intro _
        exact hQ.error (by simp)
      intro context _
      apply wlp_reconcileRecoveryOwner hD hQ h₁.inv
      · exact fun held' s' hReach => hLoaded context.user
          context.identity held' s' (h₁.trans hReach)
      · exact fun ws updates held' s' hReach => hRecovered
          context.user context.identity ws updates held' s'
          (h₁.trans hReach)

------------------------------------------------------------
-- Requests For Access
------------------------------------------------------------

/- A request is inserted past its unique indexes. -/
theorem wlp_insertRequest
    {new : AccessRequest}
    {ws : List IdentityWrite}
    {f : Unit → Op α}
    (hQ : Tolerant Q)
    (hOwn : ∀ w ∈ ws, ∀ db : Db,
      (w.apply db).accessRequests = db.accessRequests)
    (hOk : ∀ held' s', D.Reach held s s' →
      (∀ k ∈ held, k ∈ held') →
      .exclusive (.accessRequestPkey new.id) ∈ held' →
      Saw D (.exclusive (.accessRequestPkey new.id)) s'
        (fun s₁ => s₁.findAccessRequest new.id = none) →
      (f ()).wlp D Q held'
        (IdentityWrite.applyAll (ws ++ [.newRequest new])) s') :
    (insertRequest new >>= f).wlp D Q held
      (IdentityWrite.applyAll ws) s := by
  simp only [insertRequest, bind_assoc]
  apply Txn.wlp_acquire
  intro s₁ h₁
  apply Txn.wlp_query
  intro s₂ h₂
  apply Txn.wlp_require
  · intro _
    exact hQ.error (by simp [raise])
  intro hNew
  apply Txn.wlp_acquire
  intro s₃ h₃
  apply Txn.wlp_query
  intro s₄ h₄
  apply Txn.wlp_require
  · intro _
    exact hQ.error (by simp [raise])
  intro _
  apply wlp_execute
  have h₂₄ := Discipline.reach_of_cons h₃ h₄
  refine hOk _ s₄
    ((Discipline.reach_of_cons h₁ h₂).trans
      (h₂₄.weaken fun k hk => by simp [hk]))
    (fun k hk => by simp [hk]) (by simp) ?_
  refine ⟨s₂, h₂₄.weaken (by simp), ?_⟩
  have hRow := Option.isNone_iff_eq_none.mp hNew
  rw [Db.findAccessRequest, accessRequests_applyAll hOwn]
    at hRow
  exact hRow

/- What has been written when a user has asked for access. -/
theorem wlp_createOrGetAccessRequest
    {f : Flushed AccessRequestResult → Op α}
    (hD : FixesUsers D)
    (hQ : Tolerant Q)
    (hOk : ∀ result ws updates held' s', D.Reach held s s' →
      (∀ k ∈ held, k ∈ held') →
      Requested D env loaded result ws updates held' s' →
      (f ⟨result, updates⟩).wlp D Q held'
        (IdentityWrite.applyAll ws) s') :
    (createOrGetAccessRequest env ⟨[loaded], []⟩ loaded.id >>=
      f).wlp D Q held id s := by
  simp only [createOrGetAccessRequest, bind_assoc]
  apply wlp_lockLoaded hQ (by simp)
  intro row s₁ h₁ hRow₁
  apply Txn.wlp_require
  · intro _
    exact hQ.error (by simp)
  intro hNotApproved
  apply Txn.wlp_require
  · intro _
    exact hQ.error (by simp)
  intro hNotBlocked
  have hStatus : loaded.accessStatus = .pending ∨
      loaded.accessStatus = .rejected := by
    cases hCase : loaded.accessStatus with
    | pending => exact Or.inl rfl
    | rejected => exact Or.inr rfl
    | approved => exact absurd hCase hNotApproved
    | blocked => exact absurd hCase hNotBlocked
  have hHeld : Lock.exclusive (.userRow loaded.id) ∈
      .exclusive (.userRow loaded.id) :: held :=
    List.mem_cons_self
  refine wlp_flushLoaded hD hQ h₁.inv hRow₁ hHeld
    ?_
  intro flush updates held₂ s₂ h₂ hSub₂ hFlush
  apply wlp_flushAccessEvent
  have hKeeps : ∀ w ∈ flush ++
      accessEventWrites (asked env loaded).2, ∀ db : Db,
        (w.apply db).accessRequests = db.accessRequests := by
    intro w hw
    rcases List.mem_append.mp hw with hw | hw
    · exact hFlush.keepsRequests w hw
    · exact keepsRequests_accessEventWrites w hw
  apply Txn.wlp_query
  intro s₃ h₃
  rw [pendingAccessRequests_applyAll hKeeps]
  have hTo₃ : D.Reach held s s₃ := h₁.trans
    ((h₂.trans (h₃.weaken hSub₂)).weaken
      fun k hk => List.mem_cons_of_mem _ hk)
  have hRow₃ : s₃.findUser loaded.id = some row := by
    rw [hD (h₂.trans (h₃.weaken hSub₂)) hHeld]
    exact hRow₁
  have hSub : ∀ k ∈ held, k ∈ held₂ :=
    fun k hk => hSub₂ k (List.mem_cons_of_mem _ hk)
  cases hPending : pendingAccessRequests loaded.id s₃ with
  | cons found rest =>
      have hDone := hOk
        ⟨found, (asked env loaded).1.accessStatus, false⟩
        _ updates held₂ s₃ hTo₃ hSub
        ⟨hSub₂ _ hHeld, hStatus, row, flush, [], hRow₃, hFlush,
          .existing (.now h₃.inv hPending), rfl⟩
      rw [List.append_nil] at hDone
      exact hDone
  | nil =>
      simp only [List.head?_nil, bind_assoc]
      apply wlp_insertRequest hQ hKeeps
      intro held₄ s₄ h₄ hSub₄ hPkey hNew
      rw [pure_bind]
      apply hOk
        ⟨newAccessRequest env loaded.id,
          (asked env loaded).1.accessStatus, true⟩
        _ updates held₄ s₄ (hTo₃.trans (h₄.weaken hSub))
        (fun k hk => hSub₄ k (hSub k hk))
      refine ⟨hSub₄ _ (hSub₂ _ hHeld), hStatus, row, flush, _,
        ?_, hFlush, .new ?_ hPkey hNew, rfl⟩
      · rw [hD h₄ (hSub₂ _ hHeld)]
        exact hRow₃
      · exact (Saw.now h₃.inv hPending).later h₄
          (hSub₂ _ hHeld)

/- What has been written when administrators are told. -/
theorem wlp_enqueueAccessRequestAdminNotification
    {request : AccessRequest}
    {identity : TelegramIdentity}
    {ws : List IdentityWrite}
    {f : Unit → Op α}
    (hQ : Tolerant Q)
    (hOk : ∀ announce held' s', D.Reach held s s' →
      (∀ k ∈ held, k ∈ held') →
      Announces env request announce →
      Guarded held' announce →
      (f ()).wlp D Q held'
        (IdentityWrite.applyAll (ws ++ announce)) s') :
    (enqueueAccessRequestAdminNotification env request
      identity >>= f).wlp D Q held
        (IdentityWrite.applyAll ws) s := by
  simp only [enqueueAccessRequestAdminNotification,
    getOrCreateAccessDecisionCallbacks, bind_assoc]
  apply Txn.wlp_getOrFail
  · intro _
    exact hQ.error (by simp)
  intro recipient _
  apply Txn.wlp_query
  intro s₁ h₁
  split
  · simp only [createAccessDecisionCallbacks, bind_assoc]
    apply Txn.wlp_acquire
    intro s₂ h₂
    apply Txn.wlp_acquire
    intro s₃ h₃
    apply Txn.wlp_acquire
    intro s₄ h₄
    apply Txn.wlp_query
    intro s₅ h₅
    apply Txn.wlp_require
    · intro _
      exact hQ.error (by simp [raise])
    intro _
    apply Txn.wlp_require
    · intro _
      exact hQ.error (by simp [raise])
    intro _
    apply wlp_execute
    rw [pure_bind]
    apply Txn.wlp_require
    · intro _
      exact hQ.error (by simp)
    intro _
    apply wlp_enqueue hQ
    intro held₆ s₆ h₆ hSub₆ hTaken
    have hTo₆ := h₁.trans (Discipline.reach_of_cons h₂
      (Discipline.reach_of_cons h₃
        (Discipline.reach_of_cons h₄ (h₅.trans h₆))))
    rw [List.append_assoc]
    refine hOk _ held₆ s₆ hTo₆
      (fun k hk => hSub₆ k (by simp [hk])) .new ?_
    exact (show Guarded held₆ [.newCallbacks _ _] by
      simp [Guarded]).append hTaken.guarded
  · simp only [bind_assoc]
    apply Txn.wlp_getOrFail
    · intro _
      exact hQ.error (by simp)
    intro approve _
    apply Txn.wlp_getOrFail
    · intro _
      exact hQ.error (by simp)
    intro reject _
    apply Txn.wlp_require
    · intro _
      exact hQ.error (by simp)
    intro _
    rw [pure_bind]
    apply Txn.wlp_require
    · intro _
      exact hQ.error (by simp)
    intro _
    apply wlp_enqueue hQ
    intro held₂ s₂ h₂ hSub₂ hTaken
    exact hOk _ held₂ s₂ (h₁.trans h₂) hSub₂ .known
      hTaken.guarded

------------------------------------------------------------
-- Decisions From Telegram
------------------------------------------------------------

/- The press of a button is answered. -/
theorem wlp_answer
    {press : AccessCallback}
    {text : Text}
    {ws : List IdentityWrite}
    {f : Unit → Op α}
    (hQ : Tolerant Q)
    (hOk : ∀ held' s', D.Reach held s s' →
      (∀ k ∈ held, k ∈ held') →
      Guarded held' (answerWrites env press text) →
      (f ()).wlp D Q held' (IdentityWrite.applyAll
        (ws ++ answerWrites env press text)) s') :
    (enqueueAccessButtonsClear env press >>= fun _ =>
      enqueueCallbackAnswer env press text >>= f).wlp D Q held
        (IdentityWrite.applyAll ws) s := by
  unfold enqueueAccessButtonsClear enqueueCallbackAnswer
  cases hMessage : press.message with
  | none =>
      have hWrites : answerWrites env press text =
          [notice env (callbackAnswerCall env.telegram
            press.callbackQueryId text)] := by
        simp only [answerWrites, hMessage, List.nil_append]
      simp only [pure_bind]
      apply wlp_enqueue hQ
      intro held₁ s₁ h₁ hSub₁ hTaken
      rw [hWrites] at hOk
      exact hOk held₁ s₁ h₁ hSub₁ hTaken.guarded
  | some message =>
      have hWrites : answerWrites env press text =
          [notice env (accessButtonsClearCall env.telegram
            press.callbackQueryId message.1 message.2)] ++
          [notice env (callbackAnswerCall env.telegram
            press.callbackQueryId text)] := by
        simp only [answerWrites, hMessage]
      apply wlp_enqueue hQ
      intro held₁ s₁ h₁ hSub₁ hCleared
      apply wlp_enqueue hQ
      intro held₂ s₂ h₂ hSub₂ hTaken
      rw [hWrites] at hOk
      rw [List.append_assoc]
      exact hOk held₂ s₂ (h₁.trans (h₂.weaken hSub₁))
        (fun k hk => hSub₂ k (hSub₁ k hk))
        ((hCleared.guarded.mono hSub₂).append hTaken.guarded)

/- The callback turns no error into one of a trigger. -/
theorem callbackError_ne
    {e : Error}
    (h : ¬ IsCustodyTrigger e) :
    ¬ IsCustodyTrigger (callbackError e) := by
  unfold callbackError
  split
  · simp
  · simp
  · simp
  · simp
  · exact h

/- Instances loaded under their locks are the rows. -/
theorem LockedPair.freshTarget
    {actorUserId targetUserId : Uuid}
    {actor target : User}
    (requests : List AccessRequest)
    (hD : FixesUsers D)
    (h : LockedPair .fresh actorUserId targetUserId
      (some actor) (some target) held s) :
    FreshTarget D ⟨[actor, target], requests⟩ actor.id
      target.id held s := by
  have hActor : actor.id = actorUserId := loadedUser_id h.actor
  have hTarget : target.id = targetUserId :=
    loadedUser_id h.target
  intro hNe s' hReach
  have hRow : s'.findUser target.id = some target := by
    rw [hTarget, hD hReach h.heldTarget]
    have hFound := h.target
    rwa [loadedUser_fresh] at hFound
  rw [hRow]
  simp [loadedUser, Table.find, hNe]

/- A session that has loaded both users returns them. -/
theorem ActorAndTarget.bothLoaded
    {manager user actor target : User}
    {requests : List AccessRequest}
    (h : ActorAndTarget ⟨[manager, user], requests⟩ manager.id
      user.id actor target held s)
    (hOther : actor.id ≠ target.id) :
    actor = manager ∧ target = user := by
  have hActor : actor.id = manager.id :=
    loadedUser_id h.locked.actor
  have hTarget : target.id = user.id :=
    loadedUser_id h.locked.target
  have hNe : manager.id ≠ user.id := by
    rw [← hActor, ← hTarget]
    exact hOther
  have hInstance : ∀ {id : Uuid} {u v : User},
      loadedUser [manager, user] (s.findUser id) = some u →
      Table.find User.id id [manager, user] = some v →
      u = v := by
    intro id u v hLoaded hFind
    rcases Option.map_eq_some_iff.mp hLoaded with
      ⟨row, hRow, rfl⟩
    have hId : row.id = id := Table.key_of_find hRow
    rw [hId, hFind]
    rfl
  exact ⟨hInstance h.locked.actor (by simp [Table.find]),
    hInstance h.locked.target (by simp [Table.find, hNe])⟩

/- What has been written when a button has been pressed. -/
theorem wlp_applyAccessDecision
    {press : AccessCallback}
    {f : Flushed CallbackOutcome → Op α}
    (hD : FixesUsers D)
    (hQ : Tolerant Q)
    (hOk : ∀ outcome ws updates held' s', D.Reach held s s' →
      (∀ k ∈ held, k ∈ held') →
      Pressed D env press held' s' outcome ws updates →
      (f ⟨outcome, updates⟩).wlp D Q held'
        (IdentityWrite.applyAll ws) s') :
    (applyAccessDecision env press >>= f).wlp D Q held id
      s := by
  simp only [applyAccessDecision, bind_assoc,
    acquireIdentityManagementSharedBarrier]
  apply Txn.wlp_acquire
  intro s₁ h₁
  apply Txn.wlp_query
  intro s₂ h₂
  apply Txn.wlp_getOrFail
  · intro _
    exact hQ.error (by simp)
  intro identity _
  apply Txn.wlp_acquire
  intro s₃ h₃
  apply Txn.wlp_query
  intro s₄ h₄
  apply Txn.wlp_getOrFail
  · intro _
    exact hQ.error (by simp)
  intro callback _
  apply Txn.wlp_require
  · intro _
    exact hQ.error (by simp)
  intro _
  apply Txn.wlp_query
  intro s₅ h₅
  apply Txn.wlp_getOrFail
  · intro _
    exact hQ.error (by simp)
  intro loaded hLoaded
  have hWas : WasLoaded D loaded s₅ := by
    refine ⟨s₅, .refl h₅.inv, ?_⟩
    rw [show loaded.id = callback.accessRequestId from
      Table.key_of_find hLoaded]
    exact hLoaded
  have hTo₅ : D.Reach held s s₅ :=
    (Discipline.reach_of_cons h₁ h₂).trans
      ((Discipline.reach_of_cons h₃ (h₄.trans h₅)).weaken
        fun k hk => List.mem_cons_of_mem _ hk)
  apply wlp_lockIdentityActorAndTarget hD
  intro actor target held₆ s₆ h₆ hSub₆ hLocked₆
  apply Txn.wlp_getOrFail
  · intro _
    exact hQ.error (by simp)
  intro manager hManager
  apply Txn.wlp_getOrFail
  · intro _
    exact hQ.error (by simp)
  intro user hUser
  rcases Option.filter_eq_some_iff.mp hManager with ⟨hActor, _⟩
  subst hActor
  subst hUser
  apply Txn.wlp_acquire
  intro s₇ h₇
  apply Txn.wlp_query
  intro s₈ h₈
  apply Txn.wlp_getOrFail
  · intro _
    exact hQ.error (by simp)
  intro row hRow
  have hId : row.id = loaded.id := Table.key_of_find hRow
  -- the session returns the instance that it has
  rw [show loadedRequest [loaded] row = loaded by
    simp [loadedRequest, Table.find, hId]]
  apply Txn.wlp_require
  · intro _
    exact hQ.error (by simp)
  intro _
  apply Txn.wlp_query
  intro s₉ h₉
  apply Txn.wlp_getOrFail
  · intro _
    exact hQ.error (by simp)
  intro targetIdentity _
  have h₆₉ : D.Reach held₆ s₆ s₉ :=
    Discipline.reach_of_cons h₇ (h₈.trans h₉)
  have hTo₉ : D.Reach held s s₉ := hTo₅.trans
    ((h₆.weaken fun k hk => by simp [hk]).trans
      (h₆₉.weaken fun k hk => hSub₆ k (by simp [hk])))
  have hSub : ∀ k ∈ held, k ∈
      .exclusive (.accessRequestRow loaded.id) :: held₆ :=
    fun k hk => List.mem_cons_of_mem _
      (hSub₆ k (by simp [hk]))
  split
  · rename_i hStatus
    have hLocked₉ := hLocked₆.stable hD h₆₉
      (fun k hk => List.mem_cons_of_mem
        (.exclusive (.accessRequestRow loaded.id)) hk)
    have hFresh := hLocked₉.freshTarget [loaded] hD
    have hTarget : loaded.userId = user.id :=
      (loadedUser_id hLocked₉.target).symm
    simp only [bind_assoc]
    apply Txn.wlp_bind h₉.inv
    apply Txn.wlp_mapError
    rw [← bind_pure (decidePendingAccessRequest _ _ _ _ _)]
    apply wlp_decidePendingAccessRequest hD ?_ hFresh
    · intro decider decided done ws held₁₀ s₁₀ h₁₀ hSub₁₀
        hLocked₁₀ hDecided
      rcases hLocked₁₀.bothLoaded hDecided.changes.other with
        ⟨rfl, rfl⟩
      apply Txn.wlp_pure
      intro s₁₁ h₁₁
      apply wlp_flushRequest h₁₁.inv
      intro held₁₂ s₁₂ h₁₂ hSub₁₂
      apply wlp_enqueue hQ
      intro held₁₃ s₁₃ h₁₃ hSub₁₃ hTaken
      apply wlp_answer hQ
      intro held₁₄ s₁₄ h₁₄ hSub₁₄ hAnswered
      have h₁₀₁₄ : D.Reach held₁₀ s₁₀ s₁₄ := h₁₁.trans
        (h₁₂.trans ((h₁₃.trans
          (h₁₄.weaken hSub₁₃)).weaken hSub₁₂))
      have hSub₁₀₁₄ : ∀ k ∈ held₁₀, k ∈ held₁₄ :=
        fun k hk => hSub₁₄ k (hSub₁₃ k (hSub₁₂ k hk))
      rw [pure_bind]
      apply hOk _ _ done.updates held₁₄ s₁₄
        (hTo₉.trans ((h₁₀.trans
          (h₁₀₁₄.weaken hSub₁₀)).weaken hSub))
        (fun k hk => hSub₁₀₁₄ k (hSub₁₀ k (hSub k hk)))
      exact .decided hStatus hTarget
        (hDecided.stable hD h₁₀₁₄ hSub₁₀₁₄)
        (hTaken.stable h₁₄ hSub₁₄) hAnswered
    · intro e held own s' hNot
      exact hQ _ held own s' (callbackError_ne hNot)
  · rename_i hStatus
    simp only [bind_assoc]
    rw [← IdentityWrite.applyAll_nil]
    apply wlp_answer hQ
    intro held₁₀ s₁₀ h₁₀ hSub₁₀ hAnswered
    rw [pure_bind]
    exact hOk _ _ [] held₁₀ s₁₀
      (hTo₉.trans (h₁₀.weaken hSub))
      (fun k hk => hSub₁₀ k (hSub k hk))
      (.unchanged (((hWas.later h₆).later h₆₉).later h₁₀)
        hStatus hAnswered)

------------------------------------------------------------
-- Rotation
------------------------------------------------------------

theorem wlp_lockTwoUsers
    {a b : Uuid}
    {f : Option User × Option User → Op α}
    (hD : FixesUsers D)
    (hOk : ∀ held' s', D.Reach held s s' →
      (∀ k ∈ held, k ∈ held') →
      .exclusive (.userRow a) ∈ held' →
      .exclusive (.userRow b) ∈ held' →
      (f (s'.findUser a, s'.findUser b)).wlp D Q held' id
        s') :
    (lockTwoUsers a b >>= f).wlp D Q held id s := by
  have hFree : ∀ k, k ∈ held →
      ∀ j j' : Lock, k ∈ j :: j' :: held := by
    intro k hk j j'
    simp [hk]
  unfold lockTwoUsers
  split
  · simp only [bind_assoc, pure_bind]
    apply wlp_lockUserRow
    intro s₁ h₁
    apply wlp_lockUserRow
    intro s₂ h₂
    have hDone := hOk _ s₂ (Discipline.reach_of_cons h₁ h₂)
      (fun k hk => hFree k hk _ _)
      (List.mem_cons_of_mem _ List.mem_cons_self)
      List.mem_cons_self
    rw [hD h₂ List.mem_cons_self] at hDone
    simp only [loadedUser_fresh, id]
    exact hDone
  · simp only [bind_assoc, pure_bind]
    apply wlp_lockUserRow
    intro s₁ h₁
    apply wlp_lockUserRow
    intro s₂ h₂
    have hDone := hOk _ s₂ (Discipline.reach_of_cons h₁ h₂)
      (fun k hk => hFree k hk _ _)
      List.mem_cons_self
      (List.mem_cons_of_mem _ List.mem_cons_self)
    rw [show s₂.findUser b = s₁.findUser b from
      hD h₂ List.mem_cons_self] at hDone
    simp only [loadedUser_fresh, id]
    exact hDone

theorem wlp_lockOwners
    {f : List Uuid → Op α}
    (hOk : ∀ owners held' s', D.Reach held s s' →
      (∀ k ∈ held, k ∈ held') →
      (∀ user ∈ owners, ∃ u ∈ s'.users,
        u.id = user ∧ u.role = .owner) →
      (f owners).wlp D Q held' id s') :
    (lockOwners >>= f).wlp D Q held id s := by
  simp only [lockOwners, bind_assoc]
  apply Txn.wlp_query
  intro s₁ h₁
  apply Txn.wlp_acquireAll h₁.inv
  intro s₂ h₂
  apply Txn.wlp_query
  intro s₃ h₃
  refine hOk _ _ s₃ (h₁.trans (h₂.trans (h₃.weaken fun k hk =>
    List.mem_append_right _ hk)))
    (fun k hk => List.mem_append_right _ hk) ?_
  intro user hUser
  rcases List.mem_map.mp hUser with ⟨u, hMem, rfl⟩
  rcases List.mem_filter.mp hMem with ⟨hRow, hRole⟩
  exact ⟨u, hRow, rfl, (by simpa using hRole : _ ∧ _).1⟩

/- The approved target keeps its id and its role. -/
theorem approvedTarget_same
    (env : IdentityEnv)
    (target : User)
    (owner : Uuid) :
    (approvedTarget env target owner).1.id = target.id ∧
      (approvedTarget env target owner).1.role =
        target.role := by
  unfold approvedTarget
  split
  · exact ⟨transitionUserAccess_id, transitionUserAccess_role⟩
  · exact ⟨rfl, rfl⟩

theorem approvedTarget_accessStatus
    {target : User}
    {owner : Uuid} :
    (approvedTarget env target owner).1.accessStatus =
      .approved := by
  unfold approvedTarget
  split
  · exact transitionUserAccess_accessStatus
  · rename_i hApproved
    exact not_not.mp hApproved

/- The row after its flush, among statements on others. -/
theorem FlushesRow.onUserAll
    {row : User}
    {ws : List IdentityWrite}
    {updates : List UserUpdate}
    (h : FlushesRow row changed ws updates)
    (hId : changed.id = row.id) :
    IdentityWrite.onUserAll ws row = changed := by
  rcases h.cases with ⟨rfl, rfl, _⟩ | ⟨_, rfl, _⟩
  · rfl
  · simp only [IdentityWrite.onUserAll, IdentityWrite.onUser,
      if_true]
    exact User.updated_self hId

theorem FlushesRow.keepsRequests
    {row : User}
    {ws : List IdentityWrite}
    {updates : List UserUpdate}
    (h : FlushesRow row changed ws updates) :
    ∀ w ∈ ws, ∀ db : Db,
      (w.apply db).accessRequests = db.accessRequests := by
  rcases h.cases with ⟨_, rfl, _⟩ | ⟨_, rfl, _⟩
  · simp
  · simp [IdentityWrite.apply]

@[simp]
theorem onUserAll_accessEventWrites
    {event : Option UserAccessEvent}
    {row : User} :
    IdentityWrite.onUserAll (accessEventWrites event) row =
      row := by
  cases event <;> rfl

theorem Exchangeable.stable
    {owner target : User}
    (hD : FixesUsers D)
    (h : Exchangeable D owner target held s)
    (hReach : D.Reach held s s')
    (hSub : ∀ k ∈ held, k ∈ held') :
    Exchangeable D owner target held' s' :=
  { h with
    ownerRow := by
      rw [hD hReach h.heldOwner]
      exact h.ownerRow
    targetRow := by
      rw [hD hReach h.heldTarget]
      exact h.targetRow
    heldOwner := hSub _ h.heldOwner
    heldTarget := hSub _ h.heldTarget
    custody := h.custody.later hReach h.heldTarget }

/- The statements of a rotation, one after the other. -/
theorem wlp_exchangeOwner
    {owner target : User}
    {f : Flushed Rotation → Op α}
    (hD : FixesUsers D)
    (hQ : Tolerant Q)
    (hInv : D.inv s)
    (hUsers : Exchangeable D owner target held s)
    (hOk : ∀ ws updates held' s', D.Reach held s s' →
      (∀ k ∈ held, k ∈ held') →
      Rotated D env owner target ws updates held' s' →
      (f ⟨⟨owner.id, target.id⟩, updates⟩).wlp D Q held'
        (IdentityWrite.applyAll ws) s') :
    (exchangeOwner env owner target >>= f).wlp D Q held id
      s := by
  simp only [exchangeOwner, bind_assoc]
  rcases approvedTarget_same env target owner.id with
    ⟨hId, hRole⟩
  have hOwnerNe : { owner with role := .admin } ≠ owner := by
    intro hEq
    have hOwner := congrArg User.role hEq
    rw [hUsers.ownerRole] at hOwner
    cases hOwner
  have hMadeNe : { (approvedTarget env target owner.id).1 with
      role := .owner } ≠
        (approvedTarget env target owner.id).1 := by
    intro hEq
    have hTarget := congrArg User.role hEq
    rw [hRole] at hTarget
    exact hUsers.targetRole hTarget.symm
  rw [← IdentityWrite.applyAll_nil]
  refine wlp_flushRow hD hQ hInv ?_ rfl ?_
  · intro s' hReach
    exact (hUsers.stable hD hReach (fun _ hk => hk)).ownerRow
  intro flush₁ updates₁ held₁ s₁ h₁ hSub₁ hFlush₁ _
  rcases hFlush₁.cases with ⟨hEq, _⟩ | ⟨_, rfl, rfl⟩
  · exact absurd hEq hOwnerNe
  apply wlp_execute
  have hUsers₁ := hUsers.stable hD h₁ hSub₁
  have hTargetRow : ∀ s', D.Reach held₁ s₁ s' →
      ∀ ws : List IdentityWrite,
      (IdentityWrite.applyAll ([] ++
        [.user owner { owner with role := .admin }] ++
        [.roleEvent (userRoleEvent env owner owner.id
          .admin)] ++ ws) s').findUser target.id =
        some (IdentityWrite.onUserAll ws target) := by
    intro s' hReach ws
    rw [IdentityWrite.findUser_applyAll,
      (hUsers₁.stable hD hReach fun _ hk => hk).targetRow]
    simp [IdentityWrite.onUserAll, IdentityWrite.onUser,
      hUsers.other.symm]
  refine wlp_flushRow hD hQ h₁.inv ?_ hId ?_
  · intro s' hReach
    have hRow := hTargetRow s' hReach []
    rw [List.append_nil] at hRow
    exact hRow
  intro flush₂ updates₂ held₂ s₂ h₂ hSub₂ hFlush₂ _
  apply wlp_flushAccessEvent
  have hUsers₂ := hUsers₁.stable hD h₂ hSub₂
  have hKeeps : ∀ w ∈ [] ++
      [IdentityWrite.user owner { owner with role := .admin }] ++
      [.roleEvent (userRoleEvent env owner owner.id .admin)] ++
      flush₂ ++ accessEventWrites
        (approvedTarget env target owner.id).2,
      ∀ db : Db,
        (w.apply db).accessRequests = db.accessRequests := by
    intro w hw
    simp only [List.nil_append, List.append_assoc,
      List.mem_append, List.mem_singleton] at hw
    rcases hw with rfl | rfl | hw | hw
    · exact fun _ => rfl
    · exact fun _ => rfl
    · exact hFlush₂.keepsRequests w hw
    · exact keepsRequests_accessEventWrites w hw
  apply wlp_lockPendingAccessRequests hUsers₂.heldTarget
    (pendingAccessRequests_applyAll hKeeps)
  intro pending held₃ s₃ h₃ hSub₃ hSaw
  refine wlp_flushRow hD hQ h₃.inv ?_ rfl ?_
  · intro s' hReach
    have h₁' : D.Reach held₁ s₁ s' := h₂.trans
      ((h₃.trans (hReach.weaken hSub₃)).weaken hSub₂)
    have hRow := hTargetRow s' h₁' (flush₂ ++
      accessEventWrites (approvedTarget env target owner.id).2)
    rw [IdentityWrite.onUserAll_append, hFlush₂.onUserAll hId,
      onUserAll_accessEventWrites] at hRow
    rw [hId, List.append_assoc]
    exact hRow
  intro flush₄ updates₄ held₄ s₄ h₄ hSub₄ hFlush₄ _
  rcases hFlush₄.cases with ⟨hEq, _⟩ | ⟨_, rfl, rfl⟩
  · exact absurd hEq hMadeNe
  apply wlp_approvePending h₄.inv
  intro held₅ s₅ h₅ hSub₅
  apply wlp_execute
  apply wlp_execute
  apply Txn.wlp_query
  intro s₆ h₆
  apply Txn.wlp_require
  · intro _
    exact hQ.error (by simp [rotationError])
  intro _
  rw [pure_bind]
  have h₃₆ : D.Reach held₃ s₃ s₆ :=
    h₄.trans ((h₅.trans (h₆.weaken hSub₅)).weaken hSub₄)
  have hSub₃₅ : ∀ k ∈ held₃, k ∈ held₅ :=
    fun k hk => hSub₅ k (hSub₄ k hk)
  have h₂₆ : D.Reach held₂ s₂ s₆ := h₃.trans
    (h₃₆.weaken hSub₃)
  have hSub₂₅ : ∀ k ∈ held₂, k ∈ held₅ :=
    fun k hk => hSub₃₅ k (hSub₃ k hk)
  apply hOk _ _ held₅ s₆
    (h₁.trans ((h₂.trans (h₂₆.weaken hSub₂)).weaken hSub₁))
    (fun k hk => hSub₂₅ k (hSub₂ k (hSub₁ k hk)))
  refine ⟨hUsers₂.stable hD h₂₆ hSub₂₅, flush₂, updates₂,
    pending, hFlush₂,
    hSaw.later h₃₆ (hSub₃ _ hUsers₂.heldTarget), ?_, rfl⟩
  simp

/- What has been written when the owner has been rotated. -/
theorem wlp_rotateRecoveryOwnerTransaction
    {configured targetTelegram : Int}
    {confirmed : Uuid}
    {f : Flushed Rotation → Op α}
    (hD : FixesUsers D)
    (hQ : Tolerant Q)
    (hUnique : ∀ s, D.inv s → DistinctUsers s)
    (hOk : ∀ owner target ws updates held' s',
      D.Reach held s s' →
      (∀ k ∈ held, k ∈ held') →
      Rotated D env owner target ws updates held' s' →
      (f ⟨⟨owner.id, target.id⟩, updates⟩).wlp D Q held'
        (IdentityWrite.applyAll ws) s') :
    (rotateRecoveryOwnerTransaction env configured
      targetTelegram confirmed >>= f).wlp D Q held id s := by
  simp only [rotateRecoveryOwnerTransaction, bind_assoc,
    acquireIdentityManagementExclusiveBarrier,
    rotateRecoveryOwnerTransaction.refuseWhenCustody]
  have hNot : ∀ message,
      ¬ IsCustodyTrigger (rotationError message) := by
    simp [rotationError]
  apply Txn.wlp_require
  · exact fun _ => hQ.error (hNot _)
  intro _
  apply Txn.wlp_acquire
  intro s₁ h₁
  apply Txn.wlp_query
  intro s₂ h₂
  apply Txn.wlp_getOrFail
  · exact fun _ => hQ.error (hNot _)
  intro currentIdentity _
  apply Txn.wlp_query
  intro s₃ h₃
  apply Txn.wlp_getOrFail
  · exact fun _ => hQ.error (hNot _)
  intro targetIdentity _
  apply Txn.wlp_require
  · exact fun _ => hQ.error (hNot _)
  intro _
  apply Txn.wlp_require
  · exact fun _ => hQ.error (hNot _)
  intro hOther
  apply wlp_lockTwoUsers hD
  intro held₄ s₄ h₄ hSub₄ hOwner₄ hTarget₄
  have hTo₄ : D.Reach held s s₄ := Discipline.reach_of_cons h₁
    ((h₂.trans h₃).trans h₄)
  have hFree₄ : ∀ k ∈ held, k ∈ held₄ :=
    fun k hk => hSub₄ k (List.mem_cons_of_mem _ hk)
  apply Txn.wlp_getOrFail
  · exact fun _ => hQ.error (hNot _)
  intro owner hOwner
  apply Txn.wlp_getOrFail
  · exact fun _ => hQ.error (hNot _)
  intro target hTarget
  change s₄.findUser currentIdentity.userId = some owner
    at hOwner
  change s₄.findUser targetIdentity.userId = some target
    at hTarget
  have hOwnerId : owner.id = currentIdentity.userId :=
    Table.key_of_find hOwner
  have hTargetId : target.id = targetIdentity.userId :=
    Table.key_of_find hTarget
  rw [← hOwnerId] at hOwner₄ hOwner
  rw [← hTargetId] at hTarget₄ hTarget
  rw [← hOwnerId, ← hTargetId] at hOther
  apply wlp_lockOwners
  intro owners held₅ s₅ h₅ hSub₅ hOwners
  apply Txn.wlp_require
  · exact fun _ => hQ.error (hNot _)
  intro hSingle
  apply Txn.wlp_require
  · exact fun _ => hQ.error (hNot _)
  intro hApproved
  apply Txn.wlp_require
  · exact fun _ => hQ.error (hNot _)
  intro hTargetRole
  apply Txn.wlp_query
  intro s₆ h₆
  apply Txn.wlp_require
  · exact fun _ => hQ.error (hNot _)
  intro hCustody
  have h₄₆ : D.Reach held₄ s₄ s₆ := h₅.trans
    (h₆.weaken hSub₅)
  have hRole : owner.role = .owner := by
    rcases hOwners owner.id (by simp [hSingle]) with
      ⟨u, hMem, hId, hOwnerRole⟩
    have hFind := Table.find_of_mem (hUnique s₅ h₅.inv) hMem
    rw [hId] at hFind
    have hRow := hD h₅ hOwner₄
    rw [hOwner, Db.findUser, hFind] at hRow
    cases hRow
    exact hOwnerRole
  have hLocked : Exchangeable D owner target held₅ s₆ := by
    refine ⟨?_, ?_, hSub₅ _ hOwner₄, hSub₅ _ hTarget₄,
      hOther, hRole, hApproved, hTargetRole,
      .now h₆.inv (by simpa using hCustody)⟩
    · rw [hD h₄₆ hOwner₄]
      exact hOwner
    · rw [hD h₄₆ hTarget₄]
      exact hTarget
  apply wlp_exchangeOwner hD hQ h₆.inv hLocked
  intro ws updates held' s' hReach hSub hRotated
  exact hOk owner target ws updates held' s'
    (hTo₄.trans ((h₄₆.trans (hReach.weaken hSub₅)).weaken
      hFree₄))
    (fun k hk => hSub k (hSub₅ k (hFree₄ k hk))) hRotated

end Operations
