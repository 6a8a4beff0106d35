import DcInventory.Identity.AccessLocks
import DcInventory.Library.Histories

/-
  This file proves what the transactions of identity requests
  make of the roles of users and of role events.

  Key definitions include:
    * `roleEventsOf`
    * `FreshRole`
    * `RolesLead`

  Key theorems include:
    * `Wrote.leads`
    * `Wrote.rolesLead`
-/

open IdentityWrite

------------------------------------------------------------
-- Role Events
------------------------------------------------------------

namespace IdentityWrite

/- The role event that a statement inserts. -/
def roleEvent? : IdentityWrite → Option UserRoleEvent
| .roleEvent e => some e
| _ => none

/- The role events that statements insert for a user. -/
def rolesOf
    (user : Uuid)
    (ws : List IdentityWrite) : List UserRoleEvent :=
  (ws.filterMap roleEvent?).filter
    (fun e => e.targetUserId = user)

@[simp]
theorem rolesOf_append
    (user : Uuid)
    (ws vs : List IdentityWrite) :
    rolesOf user (ws ++ vs) =
      rolesOf user ws ++ rolesOf user vs := by
  simp [rolesOf]

theorem rolesOf_roleEvent
    (user : Uuid)
    (e : UserRoleEvent) :
    rolesOf user [.roleEvent e] =
      if e.targetUserId = user then [e] else [] := by
  by_cases hSame : e.targetUserId = user <;>
    simp [rolesOf, roleEvent?, hSame]

theorem rolesOf_user_cons
    (user : Uuid)
    (loaded changed : User)
    (ws : List IdentityWrite) :
    rolesOf user (.user loaded changed :: ws) =
      rolesOf user ws :=
  rfl

/- Statements that insert no role events. -/
theorem rolesOf_eq_nil
    {user : Uuid}
    {ws : List IdentityWrite}
    (h : ∀ w ∈ ws, w.roleEvent? = none) :
    rolesOf user ws = [] := by
  rw [rolesOf, List.filterMap_eq_nil_iff.mpr h]
  rfl

end IdentityWrite

/- The role events of a user, in the order of their commits. -/
def roleEventsOf
    (user : Uuid)
    (db : Db) : List UserRoleEvent :=
  db.userRoleEvents.filter (fun e => e.targetUserId = user)

/- The role events lead from one role to another. -/
abbrev LeadsRole :
    UserRole → List UserRoleEvent → UserRole → Prop :=
  Histories.Leads UserRoleEvent.beforeRole
    UserRoleEvent.afterRole

/-
  Where the recovery identity is made owner, the row has
  still the role that the session has loaded.
-/
def FreshRole (result : IdentityResult) (s : Db) : Prop :=
  match result with
  | .recovered loaded _ =>
      loaded.role = .owner ∨
      ∀ row, s.findUser loaded.id = some row →
        row.role = loaded.role
  | _ => True

------------------------------------------------------------
-- Parts
------------------------------------------------------------

section Parts

variable {D : Discipline Db Lock}
variable {s : Db}
variable {held : List Lock}
variable {env : IdentityEnv}
variable {actor loaded owner target row changed : User}
variable {ws vs : List IdentityWrite}
variable {updates : List UserUpdate}
variable {user : Uuid}

theorem rolesOf_requestWrites
    {request noted : AccessRequest} :
    rolesOf user (requestWrites request noted) = [] := by
  unfold requestWrites
  split <;> rfl

theorem rolesOf_accessEventWrites
    {event : Option UserAccessEvent} :
    rolesOf user (accessEventWrites event) = [] := by
  cases event <;> rfl

theorem rolesOf_approvalWrites
    {decidedBy : Uuid}
    {note : String}
    {request : Option AccessRequest} :
    rolesOf user (approvalWrites env decidedBy note request) =
      [] := by
  cases request with
  | none => rfl
  | some r => exact rolesOf_requestWrites

theorem rolesOf_silences
    (h : Silences ws) :
    rolesOf user ws = [] := by
  apply rolesOf_eq_nil
  intro w hw
  rcases h w hw with ⟨_, _, rfl⟩
  rfl

theorem rolesOf_answerWrites
    {press : AccessCallback}
    {text : Text} :
    rolesOf user (answerWrites env press text) = [] := by
  unfold answerWrites
  split <;> rfl

theorem FlushesRow.rolesOf
    (h : FlushesRow target changed ws updates) :
    rolesOf user ws = [] := by
  rcases h.cases with ⟨_, rfl, _⟩ | ⟨_, rfl, _⟩ <;> rfl

theorem FlushesOver.rolesOf
    (h : FlushesOver row loaded changed ws updates) :
    rolesOf user ws = [] := by
  rcases h.cases with ⟨_, rfl, _⟩ | ⟨_, rfl, _⟩ <;> rfl

theorem AsksFor.rolesOf
    {request : AccessRequest}
    {askedBy : Uuid}
    (h : AsksFor D env askedBy held s request ws) :
    rolesOf user ws = [] := by
  cases h <;> rfl

theorem Announces.rolesOf
    {request : AccessRequest}
    (h : Announces env request ws) :
    rolesOf user ws = [] := by
  cases h <;> rfl

/- The event of a change of the role of one user. -/
theorem RoleWrites.leads
    {role : UserRole}
    {actorId : Uuid}
    (h : RoleWrites env target actorId role ws) :
    LeadsRole target.role (rolesOf target.id ws) role ∧
      ∀ other, other ≠ target.id → rolesOf other ws = [] := by
  rw [h.eq]
  split
  · constructor
    · simp [rolesOf, roleEvent?, userRoleEvent,
        Histories.Leads]
    · intro other hOther
      simp [rolesOf, roleEvent?, userRoleEvent, hOther.symm]
  · rename_i hSame
    exact ⟨not_not.mp hSame, fun _ _ => rfl⟩

/- Statements that keep the role and insert no role event. -/
theorem leads_same
    (hRole : (onUserAll ws row).role = row.role)
    (hNone : rolesOf row.id ws = []) :
    LeadsRole row.role (rolesOf row.id ws)
      (onUserAll ws row).role := by
  rw [hNone, hRole]
  rfl

/- One changed row that keeps its role. -/
theorem role_of_user
    (hBefore : SparesUsers vs)
    (hAfter : SparesUsers ws)
    (hFind : s.findUser row.id = some row)
    (hTarget : s.findUser target.id = some target)
    (hId : changed.id = target.id)
    (hRole : changed.role = target.role) :
    (onUserAll (vs ++ .user target changed :: ws) row).role =
      row.role := by
  rcases onUserAll_user vs ws hBefore hAfter hFind hTarget hId
    with ⟨rfl, hRow⟩ | ⟨_, hRow⟩
  · rw [hRow, hRole]
  · rw [hRow]

/- A decision keeps the role. -/
theorem Decided.leads
    {session : Session}
    {decision : AccessRequestStatus}
    {done : Flushed AccessDecision}
    (h : Decided D env session actor target decision done ws
      held s)
    (hUsers : SparesUsers vs)
    (hNone : ∀ user, rolesOf user vs = [])
    (hFind : s.findUser row.id = some row) :
    LeadsRole row.role (rolesOf row.id (ws ++ vs))
      (onUserAll (ws ++ vs) row).role := by
  rcases h.request with ⟨loaded, rest, _, _, rfl⟩
  have hRest : SparesUsers
      (requestWrites loaded done.value.request ++
        [.accessEvent done.value.event] ++ vs) :=
    (sparesUsers_requestWrites.append fun _ => rfl).append
      hUsers
  apply leads_same
  · have hRow := @role_of_user _ _ _ _ _ [] (fun _ => rfl)
      hRest hFind h.changes.row h.changes.id
        transitionUserAccess_role
    simpa using hRow
  · simp only [rolesOf_append, rolesOf_requestWrites, hNone]
    rfl

------------------------------------------------------------
-- Transactions
------------------------------------------------------------

/- What a reset makes of the role of a row. -/
theorem Reset.leads
    (h : Reset D env actor target ws updates held s)
    (hFind : s.findUser row.id = some row) :
    LeadsRole row.role (rolesOf row.id ws)
      (onUserAll ws row).role := by
  rcases h.writes with
    ⟨quiet, flush, roles, hQuiet, hFlush, hRoles, rfl⟩
  have hFirst : SparesUsers
      ([.revokeSessions [target.id] env.now] ++ quiet ++
        [.deletePending target.id]) :=
    (SparesUsers.append (fun _ => rfl) fun _ =>
      onUserAll_of_silences hQuiet).append fun _ => rfl
  have hRest : SparesUsers (accessEventWrites
      (transitionUserAccess env target actor.id .blocked).2 ++
        roles ++ [.deleteIdentity target.id]) :=
    (sparesUsers_accessEvent.append
      (sparesUsers_roles hRoles.roleEvents)).append
        fun _ => rfl
  have hRow : onUserAll ([.revokeSessions [target.id]
      env.now] ++ quiet ++ [.deletePending target.id] ++
        flush ++ accessEventWrites (transitionUserAccess env
          target actor.id .blocked).2 ++ roles ++
        [.deleteIdentity target.id]) row =
      onUserAll flush row := by
    have hLast := hRest (onUserAll flush row)
    simp only [onUserAll_append] at hLast hFirst ⊢
    have hStart := hFirst row
    simp only [onUserAll_append] at hStart
    rw [hStart]
    exact hLast
  have hEvents : rolesOf row.id ([.revokeSessions [target.id]
      env.now] ++ quiet ++ [.deletePending target.id] ++
        flush ++ accessEventWrites (transitionUserAccess env
          target actor.id .blocked).2 ++ roles ++
        [.deleteIdentity target.id]) =
      rolesOf row.id roles := by
    simp only [rolesOf_append, rolesOf_silences hQuiet,
      hFlush.rolesOf, rolesOf_accessEventWrites,
      List.append_nil]
    exact List.append_nil _
  rw [hRow, hEvents]
  by_cases hSame : row.id = target.id
  · have hTarget : row = target := by
      rw [hSame, h.changes.row] at hFind
      exact (Option.some.inj hFind).symm
    subst hTarget
    rw [hFlush.onUserAll h.changes.id]
    exact hRoles.leads.1
  · rw [hFlush.spares hSame, hRoles.leads.2 _ hSame]
    rfl

/- What a mutation makes of the role of a row. -/
theorem Mutated.leads
    {targetUserId : Uuid}
    {mutation : AdminMutation}
    {done : Bool}
    (h : Mutated D env actor targetUserId held s mutation ws
      updates done)
    (hFind : s.findUser row.id = some row) :
    LeadsRole row.role (rolesOf row.id ws)
      (onUserAll ws row).role := by
  cases h with
  | accessSame _ => rfl
  | @access accessStatus target changed event _ hMoved _
      hChanges =>
      have hRole : changed.role = target.role := by
        have hKept : (transitionUserAccess env target actor.id
            accessStatus).1.role = target.role :=
          transitionUserAccess_role
        rwa [hMoved] at hKept
      have hRest : SparesUsers (.accessEvent event ::
          if accessStatus = .blocked then
            [.revokeSessions [target.id] env.now]
          else []) := by
        intro row
        split <;> rfl
      apply leads_same
      · exact @role_of_user _ _ _ _ _ [] (fun _ => rfl) hRest hFind
          hChanges.row hChanges.id hRole
      · split <;> rfl
  | decide _ hDecided _ =>
      exact hDecided.leads (fun _ => rfl) (fun _ => rfl) hFind
  | roleSame _ => rfl
  | @role newRole target _ _ _ hNew hChanges =>
      rcases onUserAll_user [] [.roleEvent (userRoleEvent env
          target actor.id newRole)] (fun _ => rfl)
          (fun _ => rfl) hFind hChanges.row hChanges.id with
        ⟨rfl, hRow⟩ | ⟨hOther, hRow⟩
      · have hRole := congrArg User.role hRow
        have hEvents : rolesOf row.id
            [.user row { row with role := newRole },
              .roleEvent (userRoleEvent env row actor.id
                newRole)] =
            [userRoleEvent env row actor.id newRole] := by
          rw [rolesOf_user_cons, rolesOf_roleEvent]
          exact if_pos rfl
        change LeadsRole row.role _ (onUserAll ([] ++ _) row).role
        rw [hRole, hEvents]
        exact ⟨rfl, rfl⟩
      · apply leads_same
        · exact congrArg User.role hRow
        · rw [rolesOf_user_cons, rolesOf_roleEvent]
          exact if_neg (Ne.symm hOther)
  | reset _ hReset => exact hReset.leads hFind

/- What a reconciliation makes of the role of a row. -/
theorem Reconciled.leads
    (hFresh : FreshRole
      (.recovered loaded (reconciled env loaded).1) s)
    (h : Reconciled D env loaded ws updates held s)
    (hFind : s.findUser row.id = some row) :
    LeadsRole row.role (rolesOf row.id ws)
      (onUserAll ws row).role := by
  rcases h.writes with
    ⟨old, flush, roles, pending, hRow, hFlush, hRoles, _, rfl⟩
  have hRest : SparesUsers (roles ++ accessEventWrites
      (reconciled env loaded).2 ++ approvalWrites env loaded.id
        "configured recovery owner" pending.head?) :=
    ((sparesUsers_roles hRoles.roleEvents).append
      sparesUsers_accessEvent).append sparesUsers_approvalWrites
  have hAfter : onUserAll (flush ++ roles ++ accessEventWrites
      (reconciled env loaded).2 ++ approvalWrites env loaded.id
        "configured recovery owner" pending.head?) row =
      onUserAll flush row := by
    rw [List.append_assoc, List.append_assoc,
      onUserAll_append, ← List.append_assoc]
    exact hRest _
  have hEvents : rolesOf row.id (flush ++ roles ++
      accessEventWrites (reconciled env loaded).2 ++
        approvalWrites env loaded.id
          "configured recovery owner" pending.head?) =
      rolesOf row.id roles := by
    simp only [rolesOf_append, hFlush.rolesOf,
      rolesOf_accessEventWrites, rolesOf_approvalWrites,
      List.nil_append, List.append_nil]
  have hMade := (reconciled_sets env loaded).1
  rw [hAfter, hEvents]
  by_cases hSame : row.id = loaded.id
  swap
  · have hSpared : onUserAll flush row = row := by
      rcases hFlush.onUser row with hKept | ⟨hId, _⟩
      · exact hKept
      · exact absurd hId hSame
    rw [hSpared, hRoles.leads.2 _ hSame]
    rfl
  rw [hSame]
  by_cases hOwner : loaded.role = .owner
  · have hNone : rolesOf loaded.id roles = [] := by
      rw [hRoles.eq, if_neg (not_not_intro hOwner)]
      rfl
    rw [hNone]
    rcases hFlush.onUser row with hKept | ⟨_, hRaised⟩
    · rw [hKept]
      rfl
    · rw [hRaised]
      simp only [User.updated, hMade, hOwner, if_true]
      rfl
  · have hWas : row.role = loaded.role := by
      rcases hFresh with hIs | hKept
      · exact absurd hIs hOwner
      · exact hKept row (hSame ▸ hFind)
    have hRaised : (onUserAll flush row).role = .owner := by
      rcases hFlush.cases with ⟨hEq, _⟩ | ⟨_, rfl, _⟩
      · exact absurd (hEq ▸ hMade) hOwner
      · simp only [onUserAll, IdentityWrite.onUser,
          if_pos hSame, User.updated, hMade,
          if_neg (Ne.symm hOwner)]
    rw [hRaised, hWas]
    exact hRoles.leads.1

/- Asking for access keeps the role. -/
theorem asked_role :
    (asked env loaded).1.role = loaded.role := by
  unfold asked
  split
  · exact transitionUserAccess_role
  · rfl

theorem Requested.leads
    {answer : AccessRequestResult}
    (h : Requested D env loaded answer ws updates held s)
    (hUsers : SparesUsers vs)
    (hNone : rolesOf row.id vs = []) :
    LeadsRole row.role (rolesOf row.id (ws ++ vs))
      (onUserAll (ws ++ vs) row).role := by
  rcases h.writes with
    ⟨old, flush, asks, _, hFlush, hAsks, rfl⟩
  apply leads_same
  · rw [onUserAll_append, hUsers, onUserAll_append,
      hAsks.sparesUsers, onUserAll_append,
      onUserAll_accessEventWrites]
    rcases hFlush.onUser row with hKept | ⟨_, hUpdated⟩
    · rw [hKept]
    · rw [hUpdated]
      simp only [User.updated, asked_role, if_true]
  · simp only [rolesOf_append, hFlush.rolesOf,
      rolesOf_accessEventWrites, hAsks.rolesOf, hNone,
      List.append_nil]

theorem Pressed.leads
    {press : AccessCallback}
    {outcome : CallbackOutcome}
    (h : Pressed D env press held s outcome ws updates)
    (hFind : s.findUser row.id = some row) :
    LeadsRole row.role (rolesOf row.id ws)
      (onUserAll ws row).role := by
  cases h with
  | unchanged _ _ _ =>
      apply leads_same
      · rw [sparesUsers_answerWrites row]
      · exact rolesOf_answerWrites
  | @decided loaded actor target action done _ identity _ _
      hDecided _ _ =>
      have hUsers : SparesUsers
          (requestWrites done.value.request
            (annotated done.value.request) ++
          [notice env (accessDecisionUserCall env.telegram
            done.value.request.id identity
            done.value.request.status)] ++
          answerWrites env press
            (decisionLabel done.value.request.status true)) :=
        (sparesUsers_requestWrites.append
          (sparesUsers_notice _)).append
            sparesUsers_answerWrites
      have hLeads := hDecided.leads hUsers (by
        intro user
        simp only [rolesOf_append, rolesOf_requestWrites,
          rolesOf_answerWrites, List.nil_append,
          List.append_nil]
        rfl) hFind
      simpa only [List.append_assoc] using hLeads

/- What a rotation makes of the role of a row. -/
theorem Rotated.leads
    (h : Rotated D env owner target ws updates held s)
    (hFind : s.findUser row.id = some row) :
    LeadsRole row.role (rolesOf row.id ws)
      (onUserAll ws row).role := by
  have hOnUser := h.onUser hFind
  rcases h.writes with
    ⟨flush, approved, pending, hFlush, _, hWrites, _⟩
  have hEvents : rolesOf row.id ws =
      rolesOf row.id [.roleEvent (userRoleEvent env owner
        owner.id .admin)] ++
      rolesOf row.id [.roleEvent (userRoleEvent env target
        owner.id .owner)] := by
    have hLast : ∀ e : UserRoleEvent, rolesOf row.id
        [.roleEvent e,
          .revokeSessions [owner.id, target.id] env.now] =
        rolesOf row.id [.roleEvent e] :=
      fun _ => rfl
    rw [hWrites]
    simp only [rolesOf_append, hFlush.rolesOf,
      rolesOf_accessEventWrites, rolesOf_approvalWrites,
      rolesOf_user_cons, hLast, List.append_nil]
    exact congrArg (· ++ _) (List.append_nil _)
  rw [hEvents, rolesOf_roleEvent, rolesOf_roleEvent]
  rcases hOnUser with
    ⟨hNot, hRow⟩ | ⟨rfl, hRow⟩ | ⟨rfl, hRow⟩
  · simp [userRoleEvent, hRow, hNot.1.symm, hNot.2.symm,
      Histories.Leads]
  · simp [userRoleEvent, hRow, h.users.other,
      Ne.symm h.users.other, Histories.Leads]
  · simp [userRoleEvent, hRow, h.users.other,
      Ne.symm h.users.other, Histories.Leads]

/- What one commit makes of the role of a row. -/
theorem Wrote.leads
    {result : IdentityResult}
    (hFresh : FreshRole result s)
    (h : Wrote D env held s result ws)
    (hFind : s.findUser row.id = some row) :
    LeadsRole row.role (rolesOf row.id ws)
      (onUserAll ws row).role := by
  cases h with
  | recovered hReconciled =>
      exact hReconciled.leads hFresh hFind
  | managed _ hMutated => exact hMutated.leads hFind
  | requested hRequested hAnnounces _ =>
      exact hRequested.leads hAnnounces.sparesUsers
        hAnnounces.rolesOf
  | decided hPressed => exact hPressed.leads hFind
  | rotated hRotated => exact hRotated.leads hFind

/- The events of all users lead to their roles. -/
def RolesLead
    (initial : Uuid → UserRole)
    (db : Db) : Prop :=
  ∀ id u, db.findUser id = some u →
    LeadsRole (initial id) (roleEventsOf id db) u.role

end Parts
