import DcInventory.Identity.Outcomes

/-
  This file proves what the transaction of an identity
  request has written when it commits.

  Key definitions include:
    * `Wrote`

  Key theorems include:
    * `wlp_checkUserUpdates`
    * `Wrote.stable`
    * `wlp_program`
-/

------------------------------------------------------------
-- Deferred Triggers
------------------------------------------------------------

section Triggers

variable {α : Type}
variable {D : Discipline Db Lock}
variable {s s' : Db}
variable {held held' : List Lock}
variable {own : Db → Db}
variable {Q : Post Db Lock Error α}
variable {env : IdentityEnv}

/- The update takes from a user what holding needs. -/
def Disqualifies (u : UserUpdate) : Prop :=
  ¬ (u.old.role = u.new.role ∧
    u.old.accessStatus = u.new.accessStatus) ∧
  ¬ mayHoldCustody u.new

theorem wlp_checkUserUpdate
    {u : UserUpdate}
    {f : Unit → Op α}
    (hQ : Tolerant Q)
    (hInv : D.inv s)
    (hTrigger : ∀ s', D.Reach held s s' →
      Disqualifies u → hasCustody u.new.id (own s') →
      ∀ held' s'', Q (.error (raise .userCustodyEligibility))
        held' own s'')
    (hOk : ∀ held' s', D.Reach held s s' →
      (∀ k ∈ held, k ∈ held') →
      (f ()).wlp D Q held' own s') :
    (checkUserUpdate env u >>= f).wlp D Q held own s := by
  have hAudit : ∀ g : Unit → Op α,
      (∀ s', D.Reach held s s' →
        (g ()).wlp D Q held own s') →
      (enforceUserAccessAuditCoupling env u >>= fun _ =>
        enforceUserRoleAuditCoupling env u >>= g).wlp D Q held
          own s := by
    intro g hg
    have hRoles : ∀ s₁, D.Reach held s s₁ →
        (enforceUserRoleAuditCoupling env u >>= g).wlp D Q
          held own s₁ := by
      intro s₁ h₁
      unfold enforceUserRoleAuditCoupling
      split
      · rw [pure_bind]
        exact hg s₁ h₁
      · simp only [bind_assoc]
        apply Txn.wlp_query
        intro s₂ h₂
        apply Txn.wlp_require
        · intro _
          exact hQ.error (by simp [raise])
        intro _
        exact hg s₂ (h₁.trans h₂)
    unfold enforceUserAccessAuditCoupling
    split
    · rw [pure_bind]
      exact hRoles s (.refl hInv)
    · simp only [bind_assoc]
      apply Txn.wlp_query
      intro s₁ h₁
      apply Txn.wlp_require
      · intro _
        exact hQ.error (by simp [raise])
      intro _
      exact hRoles s₁ h₁
  simp only [checkUserUpdate, bind_assoc]
  apply hAudit
  intro s₁ h₁
  unfold enforceUserCustodyEligibility
  split
  · rw [pure_bind]
    exact hOk held s₁ h₁ (fun _ hk => hk)
  rename_i hChanged
  simp only [bind_assoc]
  apply Txn.wlp_acquire
  intro s₂ h₂
  apply Txn.wlp_query
  intro s₃ h₃
  have h₁₃ : D.Reach held s s₃ :=
    h₁.trans (Discipline.reach_of_cons h₂ h₃)
  apply Txn.wlp_require
  · intro hRefused s₄ _
    rw [not_not] at hRefused
    have hLost : Disqualifies u := by
      refine ⟨hChanged, ?_⟩
      intro hHolder
      rcases hRefused.1 with hStatus | hRole
      · exact hStatus hHolder.2
      · exact hRole hHolder.1
    exact hTrigger s₃ h₁₃ hLost hRefused.2 _ s₄
  · intro _
    exact hOk _ s₃ h₁₃ (fun k hk => List.mem_cons_of_mem _ hk)

/- The deferred triggers of all updates, in order. -/
theorem wlp_checkUserUpdates
    {updates : List UserUpdate}
    {f : Unit → Op α}
    (hQ : Tolerant Q)
    (hInv : D.inv s)
    (hTrigger : ∀ u ∈ updates, ∀ s', D.Reach held s s' →
      Disqualifies u → hasCustody u.new.id (own s') →
      ∀ held' s'', Q (.error (raise .userCustodyEligibility))
        held' own s'')
    (hOk : ∀ held' s', D.Reach held s s' →
      (∀ k ∈ held, k ∈ held') →
      (f ()).wlp D Q held' own s') :
    (checkUserUpdates env updates >>= f).wlp D Q held own
      s := by
  induction updates generalizing held s with
  | nil => exact hOk held s (.refl hInv) (fun _ hk => hk)
  | cons u us ih =>
      simp only [checkUserUpdates, bind_assoc]
      apply wlp_checkUserUpdate hQ hInv
        (hTrigger u List.mem_cons_self)
      intro held₁ s₁ h₁ hSub₁
      apply ih h₁.inv
      · intro v hv s' hReach
        exact hTrigger v (List.mem_cons_of_mem u hv) s'
          (h₁.trans (hReach.weaken hSub₁))
      · intro held' s' hReach hSub
        exact hOk held' s'
          (h₁.trans (hReach.weaken hSub₁))
          (fun k hk => hSub k (hSub₁ k hk))

end Triggers

------------------------------------------------------------
-- Transactions
------------------------------------------------------------

/- What a request has written, whatever its result. -/
inductive Wrote
    (D : Discipline Db Lock)
    (env : IdentityEnv)
    (held : List Lock)
    (s : Db) :
    IdentityResult → List IdentityWrite → Prop where
| recovered {loaded ws updates} :
    Reconciled D env loaded ws updates held s →
    Wrote D env held s
      (.recovered loaded (reconciled env loaded).1) ws
| managed {result : ManagedResult} {ws updates} :
    ActorLocked result.actor held s →
    Mutated D env result.actor result.target held s
      result.mutation ws updates result.changed →
    Wrote D env held s (.managed result) ws
| requested {loaded result ws updates announce} :
    Requested D env loaded result ws updates held s →
    Announces env result.request announce →
    Guarded held announce →
    Wrote D env held s (.requested loaded result)
      (ws ++ announce)
| decided {press loaded result ws updates} :
    Pressed D env press held s ⟨loaded, result⟩ ws updates →
    Wrote D env held s (.decided loaded result) ws
| rotated {owner target : User} {ws updates} :
    Rotated D env owner target ws updates held s →
    Wrote D env held s (.rotated ⟨owner.id, target.id⟩) ws

section Commits

variable {D : Discipline Db Lock}
variable {s s' : Db}
variable {held held' : List Lock}
variable {env : IdentityEnv}
variable {actor loaded owner target : User}
variable {ws : List IdentityWrite}
variable {updates : List UserUpdate}

theorem ActorLocked.stable
    (hD : FixesUsers D)
    (h : ActorLocked actor held s)
    (hReach : D.Reach held s s')
    (hSub : ∀ k ∈ held, k ∈ held') :
    ActorLocked actor held' s' := by
  rcases h.held with ⟨shared, hHeld⟩
  refine ⟨?_, shared, hSub _ hHeld⟩
  rw [hD hReach hHeld]
  exact h.row

theorem Reset.stable
    (hD : FixesUsers D)
    (h : Reset D env actor target ws updates held s)
    (hReach : D.Reach held s s')
    (hSub : ∀ k ∈ held, k ∈ held') :
    Reset D env actor target ws updates held' s' where
  changes := h.changes.stable hD hReach hSub
  procurement := h.procurement.later hReach h.changes.held
  writes := h.writes

theorem Mutated.stable
    {targetUserId : Uuid}
    {mutation : AdminMutation}
    {changed : Bool}
    (hD : FixesUsers D)
    (h : Mutated D env actor targetUserId held s mutation ws
      updates changed)
    (hReach : D.Reach held s s')
    (hSub : ∀ k ∈ held, k ∈ held') :
    Mutated D env actor targetUserId held' s' mutation ws
      updates changed := by
  cases h with
  | accessSame hManages => exact .accessSame hManages
  | access hId hMoved hAllowed hChanges =>
      exact .access hId hMoved hAllowed
        (hChanges.stable hD hReach hSub)
  | decide hId hDecided hTaken =>
      exact .decide hId (hDecided.stable hD hReach hSub)
        (hTaken.stable hReach hSub)
  | roleSame hManages => exact .roleSame hManages
  | role hId hAssign hNotOwner hNew hChanges =>
      exact .role hId hAssign hNotOwner hNew
        (hChanges.stable hD hReach hSub)
  | reset hId hReset =>
      exact .reset hId (hReset.stable hD hReach hSub)

theorem Reconciled.stable
    (hD : FixesUsers D)
    (h : Reconciled D env loaded ws updates held s)
    (hReach : D.Reach held s s')
    (hSub : ∀ k ∈ held, k ∈ held') :
    Reconciled D env loaded ws updates held' s' := by
  rcases h.writes with
    ⟨row, flush, roles, pending, hRow, hFlush, hRoles, hSaw,
      hWs⟩
  refine ⟨hSub _ h.locked, row, flush, roles, pending, ?_,
    hFlush, hRoles, hSaw.later hReach h.locked, hWs⟩
  rw [hD hReach h.locked]
  exact hRow

theorem AsksFor.stable
    {user : Uuid}
    {request : AccessRequest}
    (h : AsksFor D env user held s request ws)
    (hHeld : .exclusive (.userRow user) ∈ held)
    (hReach : D.Reach held s s')
    (hSub : ∀ k ∈ held, k ∈ held') :
    AsksFor D env user held' s' request ws := by
  cases h with
  | existing hSaw => exact .existing (hSaw.later hReach hHeld)
  | new hSaw hPkey hNew =>
      exact .new (hSaw.later hReach hHeld) (hSub _ hPkey)
        (hNew.later hReach hPkey)

theorem Requested.stable
    {result : AccessRequestResult}
    (hD : FixesUsers D)
    (h : Requested D env loaded result ws updates held s)
    (hReach : D.Reach held s s')
    (hSub : ∀ k ∈ held, k ∈ held') :
    Requested D env loaded result ws updates held' s' := by
  rcases h.writes with
    ⟨row, flush, asks, hRow, hFlush, hAsks, hWs⟩
  refine ⟨hSub _ h.locked, h.status, row, flush, asks, ?_,
    hFlush, hAsks.stable h.locked hReach hSub, hWs⟩
  rw [hD hReach h.locked]
  exact hRow

theorem Pressed.stable
    {press : AccessCallback}
    {outcome : CallbackOutcome}
    (hD : FixesUsers D)
    (h : Pressed D env press held s outcome ws updates)
    (hReach : D.Reach held s s')
    (hSub : ∀ k ∈ held, k ∈ held') :
    Pressed D env press held' s' outcome ws updates := by
  cases h with
  | unchanged hWas hStatus hAnswered =>
      exact .unchanged (hWas.later hReach) hStatus
        (hAnswered.mono hSub)
  | decided hStatus hTarget hDecided hTaken hAnswered =>
      exact .decided hStatus hTarget
        (hDecided.stable hD hReach hSub)
        (hTaken.stable hReach hSub) (hAnswered.mono hSub)

theorem Rotated.stable
    (hD : FixesUsers D)
    (h : Rotated D env owner target ws updates held s)
    (hReach : D.Reach held s s')
    (hSub : ∀ k ∈ held, k ∈ held') :
    Rotated D env owner target ws updates held' s' := by
  rcases h.writes with
    ⟨flush, approved, pending, hFlush, hSaw, hWs⟩
  exact ⟨h.users.stable hD hReach hSub, flush, approved,
    pending, hFlush, hSaw.later hReach h.users.heldTarget, hWs⟩

/- What was written stays what is written. -/
theorem Wrote.stable
    {result : IdentityResult}
    (hD : FixesUsers D)
    (h : Wrote D env held s result ws)
    (hReach : D.Reach held s s')
    (hSub : ∀ k ∈ held, k ∈ held') :
    Wrote D env held' s' result ws := by
  cases h with
  | recovered hReconciled =>
      exact .recovered (hReconciled.stable hD hReach hSub)
  | managed hActor hMutated =>
      exact .managed (hActor.stable hD hReach hSub)
        (hMutated.stable hD hReach hSub)
  | requested hRequested hAnnounces hGuarded =>
      exact .requested (hRequested.stable hD hReach hSub)
        hAnnounces (hGuarded.mono hSub)
  | decided hPressed =>
      exact .decided (hPressed.stable hD hReach hSub)
  | rotated hRotated =>
      exact .rotated (hRotated.stable hD hReach hSub)

/-
  Where the transaction of a request returns, it has written
  what belongs to its result. It may fail anywhere.
-/
theorem wlp_program
    {request : IdentityRequest}
    {Q : Post Db Lock Error IdentityResult}
    (hD : FixesUsers D)
    (hUnique : ∀ s, D.inv s → DistinctUsers s)
    (hInv : D.inv s)
    (hError : ∀ e held own s, Q (.error e) held own s)
    (hOk : ∀ result ws held' s', D.Reach [] s s' →
      Wrote D env held' s' result ws →
      Q (.ok result) held' (IdentityWrite.applyAll ws) s') :
    (request.program env).wlp D Q [] id s := by
  have hQ : Tolerant Q := fun e held own s _ =>
    hError e held own s
  have hDone : ∀ result ws updates held' s', D.Reach [] s s' →
      (∀ k ∈ [], k ∈ held') →
      Wrote D env held' s' result ws →
      (checkUserUpdates env updates >>= fun _ =>
        pure result).wlp D Q held'
          (IdentityWrite.applyAll ws) s' := by
    intro result ws updates held' s' hReach _ hWrote
    apply wlp_checkUserUpdates hQ hReach.inv
    · intro u _ s₁ _ _ _ held₂ s₂
      exact hError _ held₂ _ s₂
    · intro held₁ s₁ h₁ hSub₁
      apply Txn.wlp_pure
      intro s₂ h₂
      have h₀₂ := h₁.trans (h₂.weaken hSub₁)
      exact hOk result ws held₁ s₂
        (hReach.trans (h₀₂.weaken (by simp)))
        (hWrote.stable hD h₀₂ hSub₁)
  unfold IdentityRequest.program identityTransaction
  cases request with
  | manage start target mutation =>
      simp only [IdentityRequest.body, bind_assoc]
      apply wlp_load hD hQ hInv
      · intro user identity held₁ s₁ h₁ hSub₁
        simp only [requireManageUsers, bind_assoc, pure_bind]
        apply Txn.wlp_require
        · intro _
          exact hQ.error (by simp)
        intro _
        apply Txn.wlp_require
        · intro _
          exact hQ.error (by simp)
        intro _
        apply wlp_perform hD hQ
        intro ws updates changed held₂ s₂ h₂ hSub₂ hActor
          hMutated
        exact hDone _ ws _ held₂ s₂
          (h₁.trans (h₂.weaken hSub₁))
          (fun k hk => hSub₂ k (hSub₁ k hk))
          (.managed hActor hMutated)
      · intro user identity ws updates held₁ s₁ h₁ hSub₁
          hReconciled
        exact hDone _ ws updates held₁ s₁ h₁ hSub₁
          (.recovered hReconciled)
  | requestAccess start =>
      simp only [IdentityRequest.body, bind_assoc]
      apply wlp_load hD hQ hInv
      · intro user identity held₁ s₁ h₁ hSub₁
        simp only [bind_assoc, pure_bind]
        apply wlp_createOrGetAccessRequest hD hQ
        intro result ws updates held₂ s₂ h₂ hSub₂ hRequested
        apply wlp_enqueueAccessRequestAdminNotification hQ
        intro announce held₃ s₃ h₃ hSub₃ hAnnounces hGuarded
        exact hDone _ _ _ held₃ s₃
          (h₁.trans ((h₂.trans (h₃.weaken hSub₂)).weaken hSub₁))
          (fun k hk => hSub₃ k (hSub₂ k (hSub₁ k hk)))
          (.requested (hRequested.stable hD h₃ hSub₃)
            hAnnounces hGuarded)
      · intro user identity ws updates held₁ s₁ h₁ hSub₁
          hReconciled
        exact hDone _ ws updates held₁ s₁ h₁ hSub₁
          (.recovered hReconciled)
  | press callback =>
      simp only [IdentityRequest.body, bind_assoc, pure_bind]
      apply wlp_applyAccessDecision hD hQ
      intro outcome ws updates held₁ s₁ h₁ hSub₁ hPressed
      exact hDone _ ws updates held₁ s₁ h₁ hSub₁
        (.decided hPressed)
  | rotate configured target confirmed =>
      simp only [IdentityRequest.body, bind_assoc, pure_bind]
      apply wlp_rotateRecoveryOwnerTransaction hD hQ hUnique
      intro owner target ws updates held₁ s₁ h₁ hSub₁ hRotated
      exact hDone _ ws updates held₁ s₁ h₁ hSub₁
        (.rotated hRotated)

end Commits
