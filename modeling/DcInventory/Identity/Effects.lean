import DcInventory.Identity.Commits

/-
  This file proves what the transactions of identity requests
  make of the rows of users.

  Key definitions include:
    * `Altered`

  Key theorems include:
    * `Mutated.onUser`
    * `Rotated.onUser`
    * `Wrote.altered`
-/

section Effects

variable {D : Discipline Db Lock}
variable {s s' : Db}
variable {held held' : List Lock}
variable {env : IdentityEnv}
variable {actor loaded owner target row : User}
variable {ws vs : List IdentityWrite}
variable {updates : List UserUpdate}

------------------------------------------------------------
-- Statements On Other Tables
------------------------------------------------------------

/- The statements leave the rows of users alone. -/
def SparesUsers (ws : List IdentityWrite) : Prop :=
  ∀ row, IdentityWrite.onUserAll ws row = row

theorem SparesUsers.append
    (h : SparesUsers ws)
    (h' : SparesUsers vs) :
    SparesUsers (ws ++ vs) := by
  intro row
  rw [IdentityWrite.onUserAll_append, h row, h' row]

theorem sparesUsers_accessEvent
    {event : Option UserAccessEvent} :
    SparesUsers (accessEventWrites event) :=
  fun _ => onUserAll_accessEventWrites

theorem sparesUsers_requestWrites
    {request changed : AccessRequest} :
    SparesUsers (requestWrites request changed) := by
  intro row
  unfold requestWrites
  split <;> rfl

theorem sparesUsers_approvalWrites
    {decidedBy : Uuid}
    {note : String}
    {request : Option AccessRequest} :
    SparesUsers (approvalWrites env decidedBy note
      request) := by
  cases request with
  | none => exact fun _ => rfl
  | some r => exact sparesUsers_requestWrites

theorem sparesUsers_roles
    (h : ∀ w ∈ ws, ∃ e, w = IdentityWrite.roleEvent e) :
    SparesUsers ws := by
  intro row
  induction ws with
  | nil => rfl
  | cons w ws ih =>
      rcases h w List.mem_cons_self with ⟨e, rfl⟩
      exact ih fun v hv => h v (List.mem_cons_of_mem _ hv)

/- One changed row among statements on other tables. -/
theorem onUserAll_user
    {changed : User}
    (vs ws : List IdentityWrite)
    (hBefore : SparesUsers vs)
    (hAfter : SparesUsers ws)
    (hFind : s.findUser row.id = some row)
    (hTarget : s.findUser target.id = some target)
    (hId : changed.id = target.id) :
    (row = target ∧
      IdentityWrite.onUserAll (vs ++ .user target changed ::
        ws) row = changed) ∨
    (row.id ≠ target.id ∧
      IdentityWrite.onUserAll (vs ++ .user target changed ::
        ws) row = row) := by
  rw [IdentityWrite.onUserAll_append, hBefore row,
    IdentityWrite.onUserAll, hAfter, IdentityWrite.onUser]
  by_cases hSame : row.id = target.id
  · have hRow : row = target := by
      rw [hSame, hTarget] at hFind
      exact (Option.some.inj hFind).symm
    subst hRow
    refine Or.inl ⟨rfl, ?_⟩
    rw [if_pos rfl]
    exact User.updated_self hId
  · exact Or.inr ⟨hSame, if_neg hSame⟩

/- The target of the changes is changed, and no other. -/
theorem Changes.onUser
    {changed : User}
    (h : Changes D actor target changed held s)
    (vs ws : List IdentityWrite)
    (hBefore : SparesUsers vs)
    (hAfter : SparesUsers ws)
    (hFind : s.findUser row.id = some row) :
    IdentityWrite.onUserAll (vs ++ .user target changed :: ws)
        row = row ∨
      Changes D actor row (IdentityWrite.onUserAll
        (vs ++ .user target changed :: ws) row) held s := by
  rcases onUserAll_user vs ws hBefore hAfter hFind h.row
      h.id with ⟨rfl, hRow⟩ | ⟨_, hRow⟩
  · right
    rw [hRow]
    exact h
  · exact Or.inl hRow

------------------------------------------------------------
-- Mutations
------------------------------------------------------------

/- Each update of a mutation passes all checks. -/
theorem Mutated.updates_changes
    {targetUserId : Uuid}
    {mutation : AdminMutation}
    {changed : Bool}
    (h : Mutated D env actor targetUserId held s mutation ws
      updates changed)
    {u : UserUpdate}
    (hu : u ∈ updates) :
    Changes D actor u.old u.new held s := by
  cases h with
  | accessSame hManages => cases hu
  | access hId hMoved hAllowed hChanges =>
      rw [List.mem_singleton.mp hu]
      exact hChanges
  | decide hId hDecided =>
      rw [hDecided.updates, List.mem_singleton] at hu
      rw [hu]
      exact hDecided.changes
  | roleSame hManages => cases hu
  | role hId hAssign hNotOwner hNew hChanges =>
      rw [List.mem_singleton.mp hu]
      exact hChanges
  | reset hId hReset =>
      rcases hReset.writes with
        ⟨quiet, flush, roles, _, hFlush, _⟩
      rcases hFlush.cases with ⟨_, _, rfl⟩ | ⟨_, _, rfl⟩
      · cases hu
      · rw [List.mem_singleton.mp hu]
        exact hReset.changes

/- A decided row is changed, and no other. -/
theorem Decided.onUser
    {session : Session}
    {decision : AccessRequestStatus}
    {done : Flushed AccessDecision}
    (h : Decided D env session actor target decision done ws
      held s)
    (vs : List IdentityWrite)
    (hAfter : SparesUsers vs)
    (hFind : s.findUser row.id = some row) :
    IdentityWrite.onUserAll (ws ++ vs) row = row ∨
      Changes D actor row
        (IdentityWrite.onUserAll (ws ++ vs) row) held s := by
  rcases h.request with ⟨loaded, rest, _, _, rfl⟩
  have hRest : SparesUsers
      (requestWrites loaded done.value.request ++
        [.accessEvent done.value.event] ++ vs) :=
    (sparesUsers_requestWrites.append fun _ => rfl).append
      hAfter
  have hRow := h.changes.onUser [] _ (fun _ => rfl) hRest hFind
  simpa using hRow

/- What a mutation makes of a row. -/
theorem Mutated.onUser
    {targetUserId : Uuid}
    {mutation : AdminMutation}
    {changed : Bool}
    (h : Mutated D env actor targetUserId held s mutation ws
      updates changed)
    (hFind : s.findUser row.id = some row) :
    IdentityWrite.onUserAll ws row = row ∨
      Changes D actor row (IdentityWrite.onUserAll ws row)
        held s := by
  cases h with
  | accessSame hManages => exact Or.inl rfl
  | @access accessStatus target changed event hId hMoved
      hAllowed hChanges =>
      have hRest : SparesUsers (.accessEvent event ::
          if accessStatus = .blocked then
            [.revokeSessions [target.id] env.now]
          else []) := by
        intro row
        split <;> rfl
      exact hChanges.onUser [] _ (fun _ => rfl) hRest hFind
  | decide hId hDecided =>
      exact hDecided.onUser _ (fun _ => rfl) hFind
  | roleSame hManages => exact Or.inl rfl
  | role hId hAssign hNotOwner hNew hChanges =>
      exact hChanges.onUser [] _ (fun _ => rfl)
        (fun _ => rfl) hFind
  | @reset expected target _ _ hId hReset =>
      rcases hReset.writes with
        ⟨quiet, flush, roles, hQuiet, hFlush, hRoles, rfl⟩
      have hFirst : SparesUsers
          ([.revokeSessions [target.id] env.now] ++ quiet ++
            [.deletePending target.id]) :=
        (SparesUsers.append (fun _ => rfl) fun _ =>
          onUserAll_of_silences hQuiet).append fun _ => rfl
      have hRest : SparesUsers (accessEventWrites
          (transitionUserAccess env target actor.id
            .blocked).2 ++ roles ++
            [.deleteIdentity target.id]) :=
        (sparesUsers_accessEvent.append
          (sparesUsers_roles hRoles.roleEvents)).append fun _ => rfl
      rcases hFlush.cases with ⟨_, rfl, _⟩ | ⟨_, rfl, _⟩
      · left
        have hRow := hFirst.append hRest row
        simpa only [List.append_nil, List.append_assoc]
          using hRow
      · have hRow := hReset.changes.onUser _ _ hFirst hRest
          hFind
        simpa only [List.append_assoc, List.singleton_append,
          List.cons_append, List.nil_append] using hRow

------------------------------------------------------------
-- Owners
------------------------------------------------------------

/- The flush of a row spares the others. -/
theorem FlushesRow.spares
    {changed other : User}
    (h : FlushesRow target changed ws updates)
    (hOther : other.id ≠ target.id) :
    IdentityWrite.onUserAll ws other = other := by
  rcases h.cases with ⟨_, rfl, _⟩ | ⟨_, rfl, _⟩
  · rfl
  · exact if_neg hOther

/- What a rotation makes of a row. -/
theorem Rotated.onUser
    (h : Rotated D env owner target ws updates held s)
    (hFind : s.findUser row.id = some row) :
    ((row.id ≠ target.id ∧ row.id ≠ owner.id) ∧
      IdentityWrite.onUserAll ws row = row) ∨
    (row = owner ∧ IdentityWrite.onUserAll ws row =
      { owner with role := .admin }) ∨
    (row = target ∧ IdentityWrite.onUserAll ws row =
      { (approvedTarget env target owner.id).1 with
        role := .owner }) := by
  rcases approvedTarget_same env target owner.id with ⟨hId, _⟩
  rcases h.writes with ⟨flush, approved, pending, hFlush, _,
    rfl, _⟩
  simp only [IdentityWrite.onUserAll_append,
    onUserAll_accessEventWrites, sparesUsers_approvalWrites _,
    IdentityWrite.onUserAll, IdentityWrite.onUser]
  by_cases hOwner : row.id = owner.id
  · have hRow : row = owner := by
      rw [hOwner, h.users.ownerRow] at hFind
      exact (Option.some.inj hFind).symm
    subst hRow
    right
    left
    have hStepped : User.updated row
        { row with role := .admin } row =
          { row with role := .admin } := User.updated_self rfl
    have hSpared := hFlush.spares
      (show { row with role := UserRole.admin }.id ≠ target.id
        from h.users.other)
    refine ⟨rfl, ?_⟩
    rw [if_pos rfl, hStepped, hSpared]
    exact if_neg (by rw [hId]; exact h.users.other)
  rw [if_neg hOwner]
  by_cases hTarget : row.id = target.id
  · have hRow : row = target := by
      rw [hTarget, h.users.targetRow] at hFind
      exact (Option.some.inj hFind).symm
    subst hRow
    right
    right
    refine ⟨rfl, ?_⟩
    rw [hFlush.onUserAll hId, if_pos rfl]
    exact User.updated_self rfl
  · refine Or.inl ⟨⟨hTarget, hOwner⟩, ?_⟩
    rw [hFlush.spares hTarget, if_neg (by rwa [hId])]

------------------------------------------------------------
-- Requests
------------------------------------------------------------

/- How a request may change a row. -/
inductive Altered
    (D : Discipline Db Lock)
    (held : List Lock)
    (s : Db)
    (row : User) : IdentityResult → User → Prop where
| same {result} : Altered D held s row result row
| managed {result actor new} :
    Changes D actor row new held s →
    Altered D held s row result new
| raised {result} {new : User} :
    .exclusive (.userRow row.id) ∈ held →
    new.role = row.role ∨ new.role = .owner →
    new.accessStatus = row.accessStatus ∨
      new.accessStatus = .approved →
    Altered D held s row result new
| stepped {result} :
    .exclusive (.userRow row.id) ∈ held →
    row.role = .owner →
    Altered D held s row result { row with role := .admin }
| asked {loaded answer} {new : User} :
    .exclusive (.userRow row.id) ∈ held →
    Altered D held s row (.requested loaded answer) new

/- The flush of an instance over another row spares a row. -/
theorem FlushesOver.onUser
    {changed : User}
    (h : FlushesOver target loaded changed ws updates)
    (row : User) :
    IdentityWrite.onUserAll ws row = row ∨
    (row.id = loaded.id ∧ IdentityWrite.onUserAll ws row =
      User.updated loaded changed row) := by
  rcases h.cases with ⟨_, rfl, _⟩ | ⟨_, rfl, _⟩
  · exact Or.inl rfl
  · by_cases hSame : row.id = loaded.id
    · exact Or.inr ⟨hSame, if_pos hSame⟩
    · exact Or.inl (if_neg hSame)

/- Reconciling sets what it sets to an approved owner. -/
theorem reconciled_sets
    (env : IdentityEnv)
    (loaded : User) :
    (reconciled env loaded).1.role = .owner ∧
      (reconciled env loaded).1.accessStatus = .approved := by
  simp only [reconciled]
  split
  · exact ⟨transitionUserAccess_role,
      transitionUserAccess_accessStatus⟩
  split
  · exact ⟨transitionUserAccess_role,
      transitionUserAccess_accessStatus⟩
  · exact ⟨transitionUserAccess_role,
      transitionUserAccess_accessStatus⟩

theorem AsksFor.sparesUsers
    {user : Uuid}
    {request : AccessRequest}
    (h : AsksFor D env user held s request ws) :
    SparesUsers ws := by
  cases h with
  | existing _ => exact fun _ => rfl
  | new _ _ _ => exact fun _ => rfl

theorem Announces.sparesUsers
    {request : AccessRequest}
    (h : Announces env request ws) :
    SparesUsers ws := by
  cases h with
  | known => exact fun _ => rfl
  | new => exact fun _ => rfl

theorem sparesUsers_notice
    (call : TelegramCall) :
    SparesUsers [notice env call] :=
  fun _ => rfl

theorem sparesUsers_answerWrites
    {press : AccessCallback}
    {text : Text} :
    SparesUsers (answerWrites env press text) := by
  intro row
  unfold answerWrites
  split <;> rfl

/- What a request makes of a row. -/
theorem Wrote.altered
    {result : IdentityResult}
    (h : Wrote D env held s result ws)
    (hFind : s.findUser row.id = some row) :
    Altered D held s row result
      (IdentityWrite.onUserAll ws row) := by
  cases h with
  | @recovered loaded _ updates hReconciled =>
      rcases hReconciled.writes with
        ⟨old, flush, roles, pending, hRow, hFlush, hRoles, _,
          rfl⟩
      have hRest : SparesUsers (roles ++ accessEventWrites
          (reconciled env loaded).2 ++ approvalWrites env
            loaded.id "configured recovery owner"
            pending.head?) :=
        ((sparesUsers_roles hRoles.roleEvents).append
          sparesUsers_accessEvent).append
            sparesUsers_approvalWrites
      have hEq := hRest (IdentityWrite.onUserAll flush row)
      rw [← IdentityWrite.onUserAll_append,
        ← List.append_assoc, ← List.append_assoc] at hEq
      rw [hEq]
      rcases hFlush.onUser row with hSame | ⟨hId, hRaised⟩
      · rw [hSame]
        exact .same
      · rw [hRaised]
        rcases reconciled_sets env loaded with
          ⟨hRole, hStatus⟩
        apply Altered.raised
        · rw [hId]
          exact hReconciled.locked
        · simp only [User.updated, hRole]
          split
          · exact Or.inl rfl
          · exact Or.inr rfl
        · simp only [User.updated, hStatus]
          split
          · exact Or.inl rfl
          · exact Or.inr rfl
  | managed hActor hMutated =>
      rcases hMutated.onUser hFind with hSame | hChanges
      · rw [hSame]
        exact .same
      · exact .managed hChanges
  | @requested loaded answer _ updates announce hRequested
      hAnnounces _ =>
      rcases hRequested.writes with
        ⟨old, flush, asks, hRow, hFlush, hAsks, rfl⟩
      have hRest : SparesUsers (accessEventWrites
          (asked env loaded).2 ++ asks ++ announce) :=
        (sparesUsers_accessEvent.append
          hAsks.sparesUsers).append hAnnounces.sparesUsers
      have hEq := hRest (IdentityWrite.onUserAll flush row)
      rw [← IdentityWrite.onUserAll_append,
        ← List.append_assoc, ← List.append_assoc] at hEq
      rw [hEq]
      rcases hFlush.onUser row with hSame | ⟨hId, _⟩
      · rw [hSame]
        exact .same
      · exact .asked (hId ▸ hRequested.locked)
  | decided hPressed =>
      cases hPressed with
      | unchanged _ _ _ =>
          rw [sparesUsers_answerWrites row]
          exact .same
      | decided _ _ hDecided _ _ =>
          rw [List.append_assoc, List.append_assoc]
          rcases hDecided.onUser _
              (sparesUsers_requestWrites.append
                (SparesUsers.append (sparesUsers_notice _)
                  sparesUsers_answerWrites)) hFind with
            hSame | hChanges
          · rw [hSame]
            exact .same
          · exact .managed hChanges
  | rotated hRotated =>
      rcases hRotated.onUser hFind with
        ⟨_, hSame⟩ | ⟨rfl, hStepped⟩ | ⟨rfl, hMade⟩
      · rw [hSame]
        exact .same
      · rw [hStepped]
        exact .stepped hRotated.users.heldOwner
          hRotated.users.ownerRole
      · rw [hMade]
        exact .raised hRotated.users.heldTarget (Or.inr rfl)
          (Or.inr approvedTarget_accessStatus)

/- A row that a request changes is locked. -/
theorem Altered.locked
    {result : IdentityResult}
    {new : User}
    (h : Altered D held s row result new)
    (hNew : new ≠ row) :
    .exclusive (.userRow row.id) ∈ held := by
  cases h with
  | same => exact absurd rfl hNew
  | managed hChanges => exact hChanges.held
  | raised hHeld _ _ => exact hHeld
  | stepped hHeld _ => exact hHeld
  | asked hHeld => exact hHeld

/- A row that somebody else has locked is left alone. -/
theorem Wrote.fixesRow
    {result : IdentityResult}
    {k : Lock}
    {user : Uuid}
    (h : Wrote D env held s result ws)
    (hUser : k.resource = .userRow user)
    (hFree : ∀ k' ∈ held, ¬ Lock.modes.conflict k k') :
    (IdentityWrite.applyAll ws s).findUser user =
      s.findUser user := by
  rw [IdentityWrite.findUser_applyAll]
  cases hFind : s.findUser user with
  | none => rfl
  | some row =>
      have hId : row.id = user := Table.key_of_find hFind
      rw [← hId] at hFind hUser
      by_contra hChanged
      have hNew : IdentityWrite.onUserAll ws row ≠ row :=
        fun hSame => hChanged (congrArg some hSame)
      exact hFree _ ((h.altered hFind).locked hNew)
        (Lock.modes.symm (Lock.conflict_exclusive hUser))

/- Ids of users are not written. -/
theorem DistinctUsers.applyAll
    {s : Db}
    (h : DistinctUsers s)
    (ws : List IdentityWrite) :
    DistinctUsers (IdentityWrite.applyAll ws s) := by
  induction ws generalizing s with
  | nil => exact h
  | cons w ws ih =>
      apply ih
      unfold DistinctUsers
      cases w with
      | user loaded changed =>
          have hIds : ((IdentityWrite.user loaded
              changed).apply s).users.map User.id =
                s.users.map User.id := by
            simp only [IdentityWrite.apply, Table.rewrite,
              List.map_map]
            apply List.map_congr_left
            intro u _
            simp only [Function.comp_apply]
            split <;> rfl
          rw [hIds]
          exact h
      | _ => exact h

end Effects
