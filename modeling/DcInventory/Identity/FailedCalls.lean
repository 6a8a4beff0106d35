import DcInventory.Identity.AdminApi
import DcInventory.Identity.CustodyHolders
import DcInventory.Identity.Lifecycle

/-
  This file proves when a call of an administrator either has
  committed exactly the requested change, or ends with a
  response of the client errors and has changed nothing.

  Key definitions include:
    * `Honest`
    * `PassesChecks`
    * `TakesResponsibility`

  Key theorems include:
    * `admin_call_honest_iff`
    * `unlinked_user_committed_and_failed`
-/

open IdentityWrite

------------------------------------------------------------
-- Runs Of The Parts
------------------------------------------------------------

section Runs

variable {α : Type}
variable {env : IdentityEnv}
variable {admin target changed : User}
variable {db : Db}

/- A session whose user is current loads all rows as they are. -/
theorem loadedUser_current
    (hAdmin : db.findUser admin.id = some admin)
    (userId : Uuid) :
    loadedUser [admin] (db.findUser userId) =
      db.findUser userId := by
  cases hFind : db.findUser userId with
  | none => rfl
  | some u =>
      have hId : u.id = userId := Table.key_of_find hFind
      simp only [loadedUser, Option.map_some, Table.find,
        List.find?_cons, List.find?_nil, Option.some.injEq]
      by_cases hSame : admin.id = u.id
      · rw [hSame, hId, hFind] at hAdmin
        simpa [hSame] using (Option.some.inj hAdmin).symm
      · simp [hSame]

theorem run_lockIdentityActorAndTarget_bind
    {session : Session}
    {actorUserId targetUserId : Uuid}
    (f : Option User × Option User → Op α) :
    (lockIdentityActorAndTarget session actorUserId
      targetUserId >>= f).run db =
      (f (loadedUser session.users (db.findUser actorUserId),
        loadedUser session.users
          (db.findUser targetUserId))).run db := by
  unfold lockIdentityActorAndTarget
  split
  · rename_i hSame
    subst hSame
    rfl
  · split <;> rfl

theorem run_lockActorAndTarget_bind
    (hAdmin : db.findUser admin.id = some admin)
    {userId : Uuid}
    (f : User × User → Op α) :
    (lockActorAndTarget ⟨[admin], []⟩ admin.id userId >>=
      f).run db =
      if managesUsers admin then
        match db.findUser userId with
        | some target => (f (admin, target)).run db
        | none => .error (.adminUser .notFound "")
      else .error (adminUserForbidden
        "approved user-management capability required") := by
  have hSelf := loadedUser_current hAdmin admin.id
  rw [hAdmin] at hSelf
  simp only [lockActorAndTarget, bind_assoc,
    acquireIdentityManagementSharedBarrier,
    Txn.run_acquire_bind, run_lockIdentityActorAndTarget_bind,
    loadedUser_current hAdmin, hAdmin, hSelf]
  by_cases hManages : managesUsers admin
  · rw [Option.filter_some, if_pos hManages,
      Txn.run_getOrFail_some, if_pos hManages]
    cases db.findUser userId with
    | none => rfl
    | some target => rfl
  · rw [Option.filter_some, if_neg hManages, if_neg hManages]
    rfl

/- The user is the owner or the recovery identity. -/
def ownerOrRecovery
    (env : IdentityEnv)
    (user : User)
    (db : Db) : Prop :=
  user.role = .owner ∨
    ∃ i ∈ db.telegramIdentities, i.userId = user.id ∧
      env.recoveryTelegramUserId = some i.telegramUserId

theorem run_isOwnerOrRecovery_bind
    (f : Bool → Op α) :
    ∃ b : Bool, (b = true ↔ ownerOrRecovery env target db) ∧
      (isOwnerOrRecovery env target >>= f).run db =
        (f b).run db := by
  unfold isOwnerOrRecovery ownerOrRecovery isRecoveryIdentity
  by_cases hOwner : target.role = .owner
  · exact ⟨true, by simp [hOwner], by rw [if_pos hOwner]; rfl⟩
  rw [if_neg hOwner]
  cases hRecovery : env.recoveryTelegramUserId with
  | none => exact ⟨false, by simp [hOwner], rfl⟩
  | some recovery =>
      refine ⟨db.telegramIdentities.any (fun i =>
        i.userId = target.id ∧ i.telegramUserId = recovery),
        ?_, rfl⟩
      simp [hOwner, List.any_eq_true, eq_comm (a := recovery)]

theorem run_refuseWhen_bind
    (c : Prop) [Decidable c]
    (found : Db → Bool)
    (e : Error)
    (f : Unit → Op α) :
    (refuseWhen c found e >>= f).run db =
      if c ∧ found db then .error e else (f ()).run db := by
  unfold refuseWhen
  by_cases hc : c
  · rw [if_pos hc, bind_assoc, Txn.run_query_bind,
      Txn.run_require_bind]
    by_cases hFound : found db <;> simp [hc, hFound]
  · rw [if_neg hc, pure_bind, if_neg (fun h => hc h.1)]

/- The flush of a row that is not the owner's. -/
theorem run_flushUser_bind
    (hRow : db.findUser target.id = some target)
    (hChanged : changed ≠ target)
    (hId : changed.id = target.id)
    (hRole : changed.role ≠ .owner)
    (f : List UserUpdate → Op α) :
    (flushUser target changed >>= f).run db =
      (f [⟨target, changed⟩]).run
        ((IdentityWrite.user target changed).apply db) := by
  simp only [flushUser, if_neg hChanged, bind_assoc,
    Txn.run_acquire_bind, Txn.run_query_bind, hRow,
    Txn.run_getOrFail_some, User.updated_self hId,
    Txn.run_require_bind, uniqueOwner, if_neg hRole, pure_bind]
  rw [if_pos (fun h => absurd h hRole)]
  rfl

/- The deferred triggers let an audited change pass. -/
theorem run_checkUserUpdates_bind
    (hAccess : target.accessStatus = changed.accessStatus ∨
      ∃ e ∈ db.userAccessEvents,
        e.targetUserId = changed.id ∧
        e.beforeAccessStatus = target.accessStatus ∧
        e.afterAccessStatus = changed.accessStatus ∧
        e.dbTransactionId = env.transactionId)
    (hRole : target.role = changed.role ∨
      ∃ e ∈ db.userRoleEvents,
        e.targetUserId = changed.id ∧
        e.beforeRole = target.role ∧
        e.afterRole = changed.role ∧
        e.dbTransactionId = env.transactionId)
    (hCustody : mayHoldCustody changed ∨
      hasCustody changed.id db = false)
    (f : Unit → Op α) :
    (checkUserUpdates env [⟨target, changed⟩] >>= f).run db =
      (f ()).run db := by
  have hFirst : (enforceUserAccessAuditCoupling env
      ⟨target, changed⟩).run db = .ok ((), db) := by
    unfold enforceUserAccessAuditCoupling
    split
    · rfl
    · rename_i hNe
      rw [Txn.run_query_bind, Txn.run_require, if_pos]
      rcases hAccess with hSame | hAudited
      · exact absurd hSame hNe
      · simpa [List.any_eq_true] using hAudited
  have hSecond : (enforceUserRoleAuditCoupling env
      ⟨target, changed⟩).run db = .ok ((), db) := by
    unfold enforceUserRoleAuditCoupling
    split
    · rfl
    · rename_i hNe
      rw [Txn.run_query_bind, Txn.run_require, if_pos]
      rcases hRole with hSame | hAudited
      · exact absurd hSame hNe
      · simpa [List.any_eq_true] using hAudited
  have hThird : (enforceUserCustodyEligibility
      ⟨target, changed⟩).run db = .ok ((), db) := by
    unfold enforceUserCustodyEligibility
    split
    · rfl
    · rw [Txn.run_acquire_bind, Txn.run_query_bind,
        Txn.run_require, if_pos]
      rintro ⟨hNot, hHas⟩
      rcases hCustody with hMay | hNone
      · rcases hNot with hStatus | hRole
        · exact hStatus hMay.2
        · exact hRole hMay.1
      · rw [hNone] at hHas
        cases hHas
  simp only [checkUserUpdates, checkUserUpdate, bind_assoc,
    pure_bind, Txn.run_bind, hFirst, hSecond, hThird]

end Runs

------------------------------------------------------------
-- Honest Calls
------------------------------------------------------------

/- The event of a change of access by the administrator. -/
def accessEventOf
    (env : IdentityEnv)
    (admin target : User)
    (accessStatus : UserAccessStatus) : UserAccessEvent where
  id := env.accessEventId
  actorUserId := admin.id
  targetUserId := target.id
  beforeAccessStatus := target.accessStatus
  afterAccessStatus := accessStatus
  occurredAt := env.now
  dbTransactionId := env.transactionId

/- The statements that a change of access asks for. -/
def accessWrites
    (env : IdentityEnv)
    (admin target : User)
    (accessStatus : UserAccessStatus) : List IdentityWrite :=
  if accessStatus = target.accessStatus then []
  else
    [.user target (transitionUserAccess env target admin.id
        accessStatus).1,
      .accessEvent (accessEventOf env admin target
        accessStatus)] ++
      if accessStatus = .blocked then
        [.revokeSessions [target.id] env.now] else []

/- The statements that a decision asks for. -/
def decisionWrites
    (env : IdentityEnv)
    (admin target : User)
    (identity : TelegramIdentity)
    (request : AccessRequest)
    (decision : RequestDecision) : List IdentityWrite :=
  [.user target (transitionUserAccess env target admin.id
      (decidedStatus decision.status)).1,
    .request request
      (decidedRequest env request decision.status admin.id),
    .accessEvent (accessEventOf env admin target
      (decidedStatus decision.status)),
    notice env (accessDecisionUserCall env.telegram request.id
      identity decision.status)]

/- The statements that a change of the role asks for. -/
def roleWrites
    (env : IdentityEnv)
    (admin target : User)
    (role : UserRole) : List IdentityWrite :=
  if role = target.role then []
  else
    [.user target { target with role := role },
      .roleEvent (userRoleEvent env target admin.id role)]

/-
  Exactly the requested change of the target, with its audit
  event. What is asked for already needs no change.
-/
inductive Asked
    (env : IdentityEnv)
    (admin target : User)
    (db : Db) : AdminCall → List IdentityWrite → Prop where
| access {accessStatus} :
    Asked env admin target db (.access accessStatus)
      (accessWrites env admin target accessStatus)
| decide {decision identity request} :
    target.accessStatus = .pending →
    identityOf target.id db = some identity →
    (pendingAccessRequests target.id db).head? =
      some request →
    Asked env admin target db (.decide decision)
      (decisionWrites env admin target identity request
        decision)
| role {newRole} :
    Asked env admin target db (.role newRole)
      (roleWrites env admin target newRole)

/-
  The call has responded and committed exactly the change, or
  it has ended with an error of the client and the database
  is as it was.
-/
inductive Honest
    (env : IdentityEnv)
    (admin : User)
    (userId : Uuid)
    (db : Db)
    (call : AdminCall) : Reply × Db → Prop where
| changed {target : User} {ws managed} :
    db.findUser userId = some target →
    Asked env admin target db call ws →
    getAdminUser userId (applyAll ws db) = some managed →
    Honest env admin userId db call
      (.response (userOut env managed), applyAll ws db)
| refused {statusCode detail} :
    400 ≤ statusCode →
    statusCode < 500 →
    Honest env admin userId db call
      (.httpException statusCode detail, db)

/- What protects a user from the administrator. -/
structure MayManage
    (env : IdentityEnv)
    (admin target : User)
    (db : Db) : Prop where
  free : ¬ ownerOrRecovery env target db
  rank : target.role = .admin →
    hasCapability admin.role .accessAssignAdmin
  other : admin.id ≠ target.id

/-
  No check refuses the call whose refusal the call turns into
  a response.
-/
def PassesChecks
    (env : IdentityEnv)
    (admin target : User)
    (db : Db) : AdminCall → Prop
| .access accessStatus =>
    accessStatus = target.accessStatus ∨
    (target.accessStatus, accessStatus) ∈
        allowedAccessChanges ∧
      MayManage env admin target db ∧
      ¬ (accessStatus = .blocked ∧ hasCustody target.id db)
| .decide _ =>
    MayManage env admin target db ∧
      target.accessStatus = .pending ∧
      pendingAccessRequests target.id db ≠ []
| .role newRole =>
    MayManage env admin target db ∧
      newRole ≠ .owner ∧
      canAssign admin newRole ∧
      (newRole = target.role ∨
        ¬ (newRole ∉ custodyRoles ∧ hasCustody target.id db))

/- The call takes the creation of requests from the target. -/
def TakesResponsibility
    (target : User) : AdminCall → Prop
| .access accessStatus =>
    target.accessStatus = .approved ∧
      accessStatus = .blocked ∧
      hasCapability target.role .procurementCreate
| .decide _ => False
| .role newRole =>
    hasCapability target.role .procurementCreate ∧
      ¬ hasCapability newRole .procurementCreate

/-
  A call that passes its checks is for a user with a Telegram
  identity, and takes nothing that a request of the user
  needs.
-/
def Answerable
    (env : IdentityEnv)
    (admin : User)
    (userId : Uuid)
    (db : Db)
    (call : AdminCall) : Prop :=
  managesUsers admin →
    ∀ target, db.findUser userId = some target →
      PassesChecks env admin target db call →
      (identityOf userId db).isSome ∧
        ¬ (TakesResponsibility target call ∧
          hasActiveProcurementCreateResponsibility target.id
            db)

------------------------------------------------------------
-- Each Call
------------------------------------------------------------

section Calls

variable {env : IdentityEnv}
variable {admin target : User}
variable {userId : Uuid}
variable {db db' : Db}
variable {call : AdminCall}

/- An exception that nobody catches is never honest. -/
theorem not_honest_raised
    {e : Error} :
    ¬ Honest env admin userId db call (.raised e, db') := by
  intro h
  cases h

theorem honest_conflict
    {conflicts : List AdminUserErrorKind}
    {kind : AdminUserErrorKind}
    {message : String}
    (h : kind ∈ .notFound :: .forbidden :: conflicts) :
    Honest env admin userId db call
      (exceptClauses conflicts (.adminUser kind message),
        db) := by
  cases kind with
  | notFound => exact .refused (by omega) (by omega)
  | forbidden => exact .refused (by omega) (by omega)
  | _ =>
      rw [exceptClauses, if_pos (by simpa using h)]
      · exact .refused (by omega) (by omega)
      all_goals simp

/- The statements of a call leave identities alone. -/
theorem telegramIdentities_applyAll
    {ws : List IdentityWrite}
    (hKeeps : ∀ w ∈ ws, ∀ owner, w ≠ .deleteIdentity owner) :
    (applyAll ws db).telegramIdentities =
      db.telegramIdentities := by
  induction ws generalizing db with
  | nil => rfl
  | cons w ws ih =>
      rw [applyAll, ih fun v hv =>
        hKeeps v (List.mem_cons_of_mem w hv)]
      cases w with
      | deleteIdentity owner =>
          exact absurd rfl (hKeeps _ List.mem_cons_self owner)
      | _ => rfl

/- The response after a commit needs an identity. -/
theorem honest_respond_iff
    {ws : List IdentityWrite}
    (hFind : db.findUser userId = some target)
    (hAsked : Asked env admin target db call ws)
    (hKeeps : ∀ w ∈ ws, ∀ owner, w ≠ .deleteIdentity owner) :
    Honest env admin userId db call
      (respond env userId (applyAll ws db), applyAll ws db) ↔
      (identityOf userId db).isSome := by
  have hRow : (applyAll ws db).findUser userId =
      some (onUserAll ws target) := by
    rw [IdentityWrite.findUser_applyAll, hFind]
    rfl
  have hSame : identityOf userId (applyAll ws db) =
      identityOf userId db := by
    unfold identityOf
    rw [telegramIdentities_applyAll hKeeps]
  cases hIdentity : identityOf userId db with
  | none =>
      have hNone : getAdminUser userId (applyAll ws db) =
          none := by
        simp [getAdminUser, hRow, hSame, hIdentity]
      rw [respond, hNone]
      simp [not_honest_raised]
  | some identity =>
      have hSome : getAdminUser userId (applyAll ws db) =
          some ⟨onUserAll ws target, identity⟩ := by
        simp [getAdminUser, hRow, hSame, hIdentity]
      rw [respond, hSome]
      simp only [Option.isSome_some, iff_true]
      exact .changed hFind hAsked hSome

/- Calls that do not get past the locks are honest. -/
theorem run_locked
    (hAdmin : db.findUser admin.id = some admin)
    (hManages : managesUsers admin)
    (hFind : db.findUser userId = some target)
    {α : Type}
    (f : User × User → Op α) :
    (lockActorAndTarget ⟨[admin], []⟩ admin.id userId >>=
      f).run db = (f (admin, target)).run db := by
  rw [run_lockActorAndTarget_bind hAdmin, if_pos hManages,
    hFind]

/- The event that the transition of the target writes. -/
theorem transitionUserAccess_written
    {accessStatus : UserAccessStatus}
    (hNe : accessStatus ≠ target.accessStatus) :
    (transitionUserAccess env target admin.id
        accessStatus).2 =
      some (accessEventOf env admin target accessStatus) := by
  rw [transitionUserAccess, if_neg (Ne.symm hNe)]
  rfl

theorem transitionUserAccess_ne
    {accessStatus : UserAccessStatus}
    (hNe : accessStatus ≠ target.accessStatus) :
    (transitionUserAccess env target admin.id
      accessStatus).1 ≠ target := by
  intro hEq
  apply hNe
  have hAfter : (transitionUserAccess env target admin.id
      accessStatus).1.accessStatus = accessStatus :=
    transitionUserAccess_accessStatus
  rw [← hAfter, hEq]

/- What is done after the checks of a change of access. -/
theorem run_accessWrites
    {accessStatus : UserAccessStatus}
    (hRow : db.findUser target.id = some target)
    (hNe : accessStatus ≠ target.accessStatus)
    (hRole : target.role ≠ .owner)
    (hNone : hasCustody target.id db = false) :
    Txn.run (flushUser target (transitionUserAccess env target
          admin.id accessStatus).1 >>= fun updates =>
        flushAccessEvent (transitionUserAccess env target
          admin.id accessStatus).2 >>= fun _ =>
        (if accessStatus = .blocked then
          execute (.revokeSessions [target.id] env.now) >>=
            fun _ => pure (⟨transitionUserAccess env target
              admin.id accessStatus, updates⟩ :
                Flushed (User × Option UserAccessEvent))
        else pure ⟨transitionUserAccess env target admin.id
          accessStatus, updates⟩ : Op _) >>= fun flushed =>
        checkUserUpdates env flushed.updates >>= fun _ =>
        pure flushed.value) db =
      .ok (transitionUserAccess env target admin.id
          accessStatus,
        applyAll (accessWrites env admin target accessStatus)
          db) := by
  rw [run_flushUser_bind hRow (transitionUserAccess_ne hNe)
    transitionUserAccess_id
    (by rw [transitionUserAccess_role]; exact hRole)]
  have hEvent := @transitionUserAccess_written env admin _ _
    hNe
  rw [hEvent, accessWrites, if_neg hNe]
  have hCheck : ∀ ws,
      (checkUserUpdates env [⟨target, (transitionUserAccess env
          target admin.id accessStatus).1⟩] >>= fun _ =>
        (pure (transitionUserAccess env target admin.id
          accessStatus) : Op _)).run
        (applyAll ([.user target (transitionUserAccess env
            target admin.id accessStatus).1,
          .accessEvent (accessEventOf env admin target
            accessStatus)] ++ ws) db) =
      .ok (transitionUserAccess env target admin.id
          accessStatus,
        applyAll ([.user target (transitionUserAccess env
            target admin.id accessStatus).1,
          .accessEvent (accessEventOf env admin target
            accessStatus)] ++ ws) db) := by
    intro ws
    rw [run_checkUserUpdates_bind]
    · rfl
    · refine Or.inr ⟨accessEventOf env admin target
        accessStatus, ?_, transitionUserAccess_id.symm, rfl,
        transitionUserAccess_accessStatus.symm, rfl⟩
      rw [userAccessEvents_applyAll]
      exact List.mem_append_right _ List.mem_cons_self
    · exact Or.inl transitionUserAccess_role.symm
    · right
      rw [hasCustody_applyAll, transitionUserAccess_id]
      exact hNone
  by_cases hBlocked : accessStatus = .blocked
  · simp only [if_pos hBlocked]
    exact hCheck [.revokeSessions [target.id] env.now]
  · simp only [if_neg hBlocked]
    exact hCheck []

theorem access_honest_iff
    (hAdmin : db.findUser admin.id = some admin)
    (hHolders : HoldersEligible db)
    {accessStatus : UserAccessStatus}
    (hManages : managesUsers admin)
    (hFind : db.findUser userId = some target) :
    Honest env admin userId db (.access accessStatus)
        (patchUser env admin userId accessStatus db) ↔
      (PassesChecks env admin target db
          (.access accessStatus) →
        (identityOf userId db).isSome ∧
          ¬ (TakesResponsibility target
              (.access accessStatus) ∧
            hasActiveProcurementCreateResponsibility target.id
              db)) := by
  have hId : target.id = userId := Table.key_of_find hFind
  simp only [patchUser, identityTransaction, updateUserAccess,
    bind_assoc, run_locked hAdmin hManages hFind]
  by_cases hSame : accessStatus = target.accessStatus
  · have hWrites : accessWrites env admin target accessStatus =
        [] := by
      rw [accessWrites, if_pos hSame]
    have hIff := @honest_respond_iff env _ _ _ _ _ _ hFind
      (@Asked.access env admin _ _ accessStatus)
      (by simp [hWrites])
    rw [hWrites] at hIff
    rw [if_pos hSame]
    constructor
    · intro h _
      refine ⟨hIff.mp h, ?_⟩
      rintro ⟨⟨hApproved, hBlocked, _⟩, _⟩
      rw [hSame, hApproved] at hBlocked
      cases hBlocked
    · intro h
      exact hIff.mpr (h (Or.inl hSame)).1
  rw [if_neg hSame]
  simp only [bind_assoc, Txn.run_require_bind]
  by_cases hAllowed : (target.accessStatus, accessStatus) ∈
      allowedAccessChanges
  swap
  · rw [if_neg hAllowed]
    refine iff_of_true (honest_conflict (by simp)) ?_
    rintro (hEq | ⟨hIn, _⟩)
    · exact absurd hEq hSame
    · exact absurd hIn hAllowed
  rw [if_pos hAllowed]
  rcases @run_isOwnerOrRecovery_bind _ env target db _
    with ⟨b, hb, hRun⟩
  rw [hRun]
  clear hRun
  simp only [Txn.run_require_bind, run_refuseWhen_bind]
  by_cases hProtected : ownerOrRecovery env target db
  · rw [if_neg (by simp [hb.mpr hProtected])]
    refine iff_of_true (honest_conflict (by simp)) ?_
    rintro (hEq | ⟨_, hMay, _⟩)
    · exact absurd hEq hSame
    · exact absurd hProtected hMay.free
  rw [if_pos (fun h => hProtected (hb.mp h))]
  by_cases hRank : target.role = .admin →
      hasCapability admin.role .accessAssignAdmin
  swap
  · rw [if_neg hRank]
    refine iff_of_true (honest_conflict (by simp)) ?_
    rintro (hEq | ⟨_, hMay, _⟩)
    · exact absurd hEq hSame
    · exact absurd hMay.rank hRank
  rw [if_pos hRank]
  by_cases hOther : admin.id ≠ target.id
  swap
  · rw [if_neg hOther]
    refine iff_of_true (honest_conflict (by simp)) ?_
    rintro (hEq | ⟨_, hMay, _⟩)
    · exact absurd hEq hSame
    · exact absurd hMay.other hOther
  rw [if_pos hOther]
  have hMay : MayManage env admin target db :=
    ⟨hProtected, hRank, hOther⟩
  by_cases hHolds : (target.accessStatus = .approved ∧
      accessStatus = .blocked) ∧ hasCustody target.id db
  · rw [if_pos hHolds]
    refine iff_of_true (honest_conflict (by simp)) ?_
    rintro (hEq | ⟨_, _, hNone⟩)
    · exact absurd hEq hSame
    · exact absurd ⟨hHolds.1.2, hHolds.2⟩ hNone
  rw [if_neg hHolds]
  have hPasses : PassesChecks env admin target db
      (.access accessStatus) := by
    refine Or.inr ⟨hAllowed, hMay, ?_⟩
    rintro ⟨hBlocked, hCustody⟩
    refine hHolds ⟨⟨?_, hBlocked⟩, hCustody⟩
    rw [hBlocked] at hAllowed
    simpa [allowedAccessChanges] using hAllowed
  by_cases hTakes : (target.accessStatus = .approved ∧
      accessStatus = .blocked ∧
      hasCapability target.role .procurementCreate) ∧
      hasActiveProcurementCreateResponsibility target.id db
  · rw [if_pos hTakes]
    exact iff_of_false not_honest_raised
      (fun h => (h hPasses).2 hTakes)
  rw [if_neg hTakes]
  have hRow : db.findUser target.id = some target :=
    hId ▸ hFind
  have hNone : hasCustody target.id db = false := by
    by_cases hApproved : target.accessStatus = .approved
    · have hBlocked : accessStatus = .blocked := by
        simpa [allowedAccessChanges, hApproved] using hAllowed
      simpa [hApproved, hBlocked] using hHolds
    · exact hasCustody_eq_false hHolders hRow
        (fun hMay => hApproved hMay.2)
  rw [run_accessWrites hRow hSame
    (fun h => hProtected (Or.inl h)) hNone]
  refine Iff.trans (honest_respond_iff hFind .access ?_) ?_
  · simp only [accessWrites, if_neg hSame]
    split <;> simp
  · exact ⟨fun h _ => ⟨h, hTakes⟩, fun h => (h hPasses).1⟩

/- What is done after the checks of a change of the role. -/
theorem run_roleWrites
    {role : UserRole}
    (hRow : db.findUser target.id = some target)
    (hNe : role ≠ target.role)
    (hNew : role ≠ .owner)
    (hCustody : mayHoldCustody { target with role := role } ∨
      hasCustody target.id db = false) :
    Txn.run (flushUser target { target with role := role } >>=
        fun updates => execute (.roleEvent (userRoleEvent env
          target admin.id role)) >>= fun _ =>
        checkUserUpdates env updates >>= fun _ =>
        (pure ({ target with role := role },
          some (userRoleEvent env target admin.id role)) :
            Op _)) db =
      .ok (({ target with role := role },
          some (userRoleEvent env target admin.id role)),
        applyAll (roleWrites env admin target role) db) := by
  have hChanged : { target with role := role } ≠ target :=
    fun hEq => hNe (congrArg User.role hEq)
  rw [run_flushUser_bind hRow hChanged rfl hNew, execute,
    Txn.run_update_bind, run_checkUserUpdates_bind,
    roleWrites, if_neg hNe]
  · rfl
  · exact Or.inl rfl
  · refine Or.inr ⟨userRoleEvent env target admin.id role, ?_,
      rfl, rfl, rfl, rfl⟩
    exact List.mem_append_right _ (List.mem_singleton_self _)
  · exact hCustody

theorem role_honest_iff
    (hAdmin : db.findUser admin.id = some admin)
    (hHolders : HoldersEligible db)
    {newRole : UserRole}
    (hManages : managesUsers admin)
    (hFind : db.findUser userId = some target) :
    Honest env admin userId db (.role newRole)
        (patchUserRole env admin userId newRole db) ↔
      (PassesChecks env admin target db (.role newRole) →
        (identityOf userId db).isSome ∧
          ¬ (TakesResponsibility target (.role newRole) ∧
            hasActiveProcurementCreateResponsibility target.id
              db)) := by
  have hId : target.id = userId := Table.key_of_find hFind
  simp only [patchUserRole, identityTransaction,
    updateUserRole, bind_assoc, run_locked hAdmin hManages
      hFind, Txn.run_require_bind]
  by_cases hOther : admin.id ≠ target.id
  swap
  · rw [if_neg hOther]
    refine iff_of_true (honest_conflict (by simp)) ?_
    exact fun h => absurd h.1.other hOther
  rw [if_pos hOther]
  by_cases hNew : newRole ≠ .owner
  swap
  · rw [if_neg hNew]
    refine iff_of_true (honest_conflict (by simp)) ?_
    exact fun h => absurd h.2.1 hNew
  rw [if_pos hNew]
  rcases @run_isOwnerOrRecovery_bind _ env target db _
    with ⟨b, hb, hRun⟩
  rw [hRun]
  clear hRun
  simp only [Txn.run_require_bind]
  by_cases hProtected : ownerOrRecovery env target db
  · rw [if_neg (by simp [hb.mpr hProtected])]
    refine iff_of_true (honest_conflict (by simp)) ?_
    exact fun h => absurd hProtected h.1.free
  rw [if_pos (fun h => hProtected (hb.mp h))]
  by_cases hRank : target.role = .admin →
      hasCapability admin.role .accessAssignAdmin
  swap
  · rw [if_neg hRank]
    refine iff_of_true (honest_conflict (by simp)) ?_
    exact fun h => absurd h.1.rank hRank
  rw [if_pos hRank]
  by_cases hAssign : canAssign admin newRole
  swap
  · rw [if_neg hAssign]
    refine iff_of_true (honest_conflict (by simp)) ?_
    exact fun h => absurd h.2.2.1 hAssign
  rw [if_pos hAssign]
  have hMay : MayManage env admin target db :=
    ⟨hProtected, hRank, hOther⟩
  by_cases hSame : newRole = target.role
  · have hWrites : roleWrites env admin target newRole = [] :=
      if_pos hSame
    have hIff := @honest_respond_iff env _ _ _ _ _ _ hFind
      (@Asked.role env admin _ _ newRole) (by simp [hWrites])
    rw [hWrites] at hIff
    rw [if_pos hSame]
    constructor
    · intro h _
      refine ⟨hIff.mp h, ?_⟩
      rintro ⟨⟨hHas, hLacks⟩, _⟩
      exact hLacks (hSame ▸ hHas)
    · intro h
      exact hIff.mpr
        (h ⟨hMay, hNew, hAssign, Or.inl hSame⟩).1
  rw [if_neg hSame]
  simp only [bind_assoc, run_refuseWhen_bind]
  by_cases hHolds : newRole ∉ custodyRoles ∧
      hasCustody target.id db
  · rw [if_pos hHolds]
    refine iff_of_true (honest_conflict (by simp)) ?_
    rintro ⟨_, _, _, hEq | hNone⟩
    · exact absurd hEq hSame
    · exact absurd hHolds hNone
  rw [if_neg hHolds]
  have hPasses : PassesChecks env admin target db
      (.role newRole) :=
    ⟨hMay, hNew, hAssign, Or.inr hHolds⟩
  by_cases hTakes : (hasCapability target.role
      .procurementCreate ∧
        ¬ hasCapability newRole .procurementCreate) ∧
      hasActiveProcurementCreateResponsibility target.id db
  · rw [if_pos hTakes]
    exact iff_of_false not_honest_raised
      (fun h => (h hPasses).2 hTakes)
  rw [if_neg hTakes]
  have hRow : db.findUser target.id = some target :=
    hId ▸ hFind
  have hCustody : mayHoldCustody
      { target with role := newRole } ∨
        hasCustody target.id db = false := by
    cases hHas : hasCustody target.id db with
    | false => exact Or.inr rfl
    | true =>
        left
        refine ⟨?_, ?_⟩
        · by_contra hNot
          exact hHolds ⟨hNot, hHas⟩
        · by_contra hNot
          have hNone := hasCustody_eq_false hHolders hRow
            (fun hMay => hNot hMay.2)
          rw [hHas] at hNone
          cases hNone
  simp only [pure_bind]
  rw [run_roleWrites hRow hSame hNew hCustody]
  refine Iff.trans (honest_respond_iff hFind .role ?_) ?_
  · simp [roleWrites, if_neg hSame]
  · exact ⟨fun h _ => ⟨h, hTakes⟩, fun h => (h hPasses).1⟩

/- A fresh session locks the pending requests as they are. -/
theorem run_lockPendingAccessRequests_bind
    {α : Type}
    {users : List User}
    {user : Uuid}
    (f : List AccessRequest → Op α) :
    (lockPendingAccessRequests ⟨users, []⟩ user >>= f).run db =
      (f (pendingAccessRequests user db)).run db := by
  have hAll : (pendingAccessRequests user db).filter (fun r =>
      r.id ∈ (pendingAccessRequests user db).map
        AccessRequest.id) = pendingAccessRequests user db := by
    rw [List.filter_eq_self]
    intro r hr
    simpa using ⟨r, hr, rfl⟩
  have hLoaded : loadedRequest [] = id := rfl
  simp only [lockPendingAccessRequests, bind_assoc,
    Txn.run_query_bind, Txn.run_acquireAll_bind, hAll,
    hLoaded, List.map_id, pure_bind]

/- The outbox takes a call with a digest and a fresh id. -/
theorem run_enqueue_bind
    {α : Type}
    {call : TelegramCall}
    (hMethod : call.method ∈ allowedTelegramMethods)
    (hKey : call.dedupeKey.length = 64)
    (hFresh : ∀ row ∈ db.notificationOutbox,
      row.id ≠ env.notificationId call.dedupeKey)
    (f : Unit → Op α) :
    (enqueue env call >>= f).run db =
      (f ()).run ((notice env call).apply db) := by
  have hTaken : ∃ rows, enqueueTelegramCall
      (env.notificationId call.dedupeKey) env.now call
      db.notificationOutbox = .ok rows := by
    have hSome : ¬ (call.dedupeKey = [] ∨
        128 < call.dedupeKey.length) := by
      rintro (hNil | hLong)
      · rw [hNil] at hKey
        cases hKey
      · omega
    rw [enqueueTelegramCall, if_neg (not_not_intro hMethod),
      if_neg hSome, upsertNotification]
    cases Table.find NotificationOutbox.dedupeKey
        call.dedupeKey db.notificationOutbox with
    | some row =>
        simp only
        split <;> exact ⟨_, rfl⟩
    | none =>
        have hId : Table.find NotificationOutbox.id
            (env.notificationId call.dedupeKey)
            db.notificationOutbox = none := by
          rw [Table.find_eq_none_iff]
          exact hFresh
        simp only [hId]
        exact ⟨_, rfl⟩
  rcases hTaken with ⟨rows, hRows⟩
  simp only [enqueue, bind_assoc, Txn.run_acquire_bind,
    Txn.run_query_bind, hRows]
  rfl

theorem run_flushRequest_bind
    {α : Type}
    {loaded decided : AccessRequest}
    (hNe : decided ≠ loaded)
    (f : Unit → Op α) :
    (flushRequest loaded decided >>= f).run db =
      (f ()).run
        ((IdentityWrite.request loaded decided).apply db) := by
  rw [flushRequest, if_neg hNe]
  rfl

/- What is written before the user is told of a decision. -/
def decisionRows
    (env : IdentityEnv)
    (admin target : User)
    (request : AccessRequest)
    (decision : RequestDecision) : List IdentityWrite :=
  [.user target (transitionUserAccess env target admin.id
      (decidedStatus decision.status)).1,
    .request request
      (decidedRequest env request decision.status admin.id),
    .accessEvent (accessEventOf env admin target
      (decidedStatus decision.status))]

/- What is done after the rows of a decision are written. -/
theorem run_decisionRows
    {request : AccessRequest}
    {decision : RequestDecision}
    (hFind : db.findUser userId = some target)
    (hDigest : ∀ text, (env.telegram.sha256 text).length = 64)
    (hFresh : ∀ key, ∀ row ∈ db.notificationOutbox,
      row.id ≠ env.notificationId key)
    (hNone : hasCustody target.id db = false)
    {identity : TelegramIdentity}
    (hIdentity : identityOf userId db = some identity) :
    ∃ managed,
      getAdminUser userId (applyAll (decisionWrites env admin
        target identity request decision) db) = some managed ∧
      (notifyDecision env userId (decidedRequest env request
          decision.status admin.id) >>= fun managed =>
        checkUserUpdates env [⟨target, (transitionUserAccess
          env target admin.id
            (decidedStatus decision.status)).1⟩] >>= fun _ =>
        (pure managed : Op ManagedUser)).run
          (applyAll (decisionRows env admin target request
            decision) db) =
        .ok (managed, applyAll (decisionWrites env admin target
          identity request decision) db) := by
  have hRow : (applyAll (decisionRows env admin target request
      decision) db).findUser userId = some (onUserAll
        (decisionRows env admin target request decision)
          target) := by
    rw [IdentityWrite.findUser_applyAll, hFind]
    rfl
  have hSame : getAdminUser userId (applyAll (decisionRows env
      admin target request decision) db) = some ⟨onUserAll
        (decisionRows env admin target request decision)
          target, identity⟩ := by
    rw [getAdminUser, hRow]
    change (identityOf userId db).map _ = _
    rw [hIdentity]
    rfl
  refine ⟨_, hSame, ?_⟩
  simp only [notifyDecision, bind_assoc, Txn.run_query_bind,
    hSame, Txn.run_getOrFail_some, pure_bind]
  rw [run_enqueue_bind, run_checkUserUpdates_bind]
  · rfl
  · refine Or.inr ⟨accessEventOf env admin target
      (decidedStatus decision.status), ?_,
      transitionUserAccess_id.symm, rfl,
      transitionUserAccess_accessStatus.symm, rfl⟩
    exact List.mem_append_right _ (List.mem_singleton_self _)
  · exact Or.inl transitionUserAccess_role.symm
  · right
    rw [transitionUserAccess_id]
    exact hNone
  · exact List.mem_cons_self
  · exact hDigest _
  · exact hFresh _

/- What the call for a decision answers. -/
def decisionAnswer
    (env : IdentityEnv)
    (db : Db) : Except Error (ManagedUser × Db) → Reply × Db
| .ok (managed, committed) =>
    (.response (userOut env managed), committed)
| .error e =>
    (exceptClauses [.invalidAccessTransition,
      .pendingAccessRequestNotFound,
      .recoveryAdminInvariant] e, db)

theorem decide_honest_iff
    (hAdmin : db.findUser admin.id = some admin)
    (hHolders : HoldersEligible db)
    (hDigest : ∀ text, (env.telegram.sha256 text).length = 64)
    (hFresh : ∀ key, ∀ row ∈ db.notificationOutbox,
      row.id ≠ env.notificationId key)
    {decision : RequestDecision}
    (hManages : managesUsers admin)
    (hFind : db.findUser userId = some target) :
    Honest env admin userId db (.decide decision)
        (postAccessRequestDecision env admin userId decision
          db) ↔
      (PassesChecks env admin target db (.decide decision) →
        (identityOf userId db).isSome ∧
          ¬ (TakesResponsibility target (.decide decision) ∧
            hasActiveProcurementCreateResponsibility target.id
              db)) := by
  have hId : target.id = userId := Table.key_of_find hFind
  have hChoice : decision.status ∈
      [AccessRequestStatus.approved, .rejected] := by
    cases decision <;> simp [RequestDecision.status]
  simp only [postAccessRequestDecision, identityTransaction,
    decideAndNotify, decidePendingAccessRequest, bind_assoc,
    Txn.run_require_bind, if_pos hChoice,
    run_locked hAdmin hManages hFind]
  by_cases hOther : admin.id ≠ target.id
  swap
  · rw [if_neg hOther]
    refine iff_of_true (honest_conflict (by simp)) ?_
    exact fun h => absurd h.1.other hOther
  rw [if_pos hOther]
  rcases @run_isOwnerOrRecovery_bind _ env target db _
    with ⟨b, hb, hRun⟩
  rw [hRun]
  clear hRun
  simp only [Txn.run_require_bind]
  by_cases hProtected : ownerOrRecovery env target db
  · rw [if_neg (by simp [hb.mpr hProtected])]
    refine iff_of_true (honest_conflict (by simp)) ?_
    exact fun h => absurd hProtected h.1.free
  rw [if_pos (fun h => hProtected (hb.mp h))]
  by_cases hRank : target.role = .admin →
      hasCapability admin.role .accessAssignAdmin
  swap
  · rw [if_neg hRank]
    refine iff_of_true (honest_conflict (by simp)) ?_
    exact fun h => absurd h.1.rank hRank
  rw [if_pos hRank]
  by_cases hPending : target.accessStatus = .pending
  swap
  · rw [if_neg hPending]
    refine iff_of_true (honest_conflict (by simp)) ?_
    exact fun h => absurd h.2.1 hPending
  rw [if_pos hPending, run_lockPendingAccessRequests_bind]
  cases hRequests : pendingAccessRequests target.id db with
  | nil =>
      refine iff_of_true (honest_conflict (by simp)) ?_
      exact fun h => absurd hRequests h.2.2
  | cons request rest =>
      have hRow : db.findUser target.id = some target :=
        hId ▸ hFind
      have hNone : hasCustody target.id db = false := by
        apply hasCustody_eq_false hHolders hRow
        intro hMay
        have hApproved := hMay.2
        rw [hPending] at hApproved
        cases hApproved
      have hNe : decidedStatus decision.status ≠
          target.accessStatus := by
        rw [hPending]
        cases decision <;> decide
      have hWas : request.status = .pending := by
        have hMem : request ∈
            pendingAccessRequests target.id db := by
          rw [hRequests]
          exact List.mem_cons_self
        exact (pending_of_isPendingOf
          (mem_pendingAccessRequests.mp hMem).2).2
      have hDecided : decidedRequest env request
          decision.status admin.id ≠ request := by
        intro hEq
        have hStatus := congrArg AccessRequest.status hEq
        rw [hWas] at hStatus
        cases decision <;> cases hStatus
      have hPasses : PassesChecks env admin target db
          (.decide decision) :=
        ⟨⟨hProtected, hRank, hOther⟩, hPending,
          by simp [hRequests]⟩
      simp only [List.head?_cons, Txn.run_getOrFail_some,
        ← decidedStatus.eq_1,
        transitionUserAccess_written hNe]
      unfold decidedRequest at hDecided
      rw [run_flushUser_bind hRow
        (transitionUserAccess_ne hNe) transitionUserAccess_id
        (by
          rw [transitionUserAccess_role]
          exact fun h => hProtected (Or.inl h)),
        run_flushRequest_bind hDecided]
      -- from here on the rows of the decision are written
      change Honest env admin userId db (.decide decision)
        (decisionAnswer env db ((notifyDecision env userId
            (decidedRequest env request decision.status
              admin.id) >>=
            fun managed => checkUserUpdates env [⟨target,
              (transitionUserAccess env target admin.id
                (decidedStatus decision.status)).1⟩] >>=
            fun _ => (pure managed : Op ManagedUser)).run
          (applyAll (decisionRows env admin target request
            decision) db))) ↔ _
      cases hIdentity : identityOf userId db with
      | none =>
          have hNobody : getAdminUser userId (applyAll
              (decisionRows env admin target request decision)
                db) = none := by
            rw [getAdminUser, Option.bind_eq_none_iff]
            intro u _
            change (identityOf userId db).map _ = none
            rw [hIdentity]
            rfl
          simp only [notifyDecision, bind_assoc,
            Txn.run_query_bind, hNobody,
            Txn.run_getOrFail_none, decisionAnswer]
          refine iff_of_false not_honest_raised (fun h => ?_)
          exact absurd (h hPasses).1 (by simp)
      | some identity =>
          rcases run_decisionRows hFind hDigest hFresh hNone
            hIdentity with ⟨managed, hManaged, hRun⟩
          rw [hRun]
          refine iff_of_true (.changed hFind ?_ hManaged)
            (fun _ => ⟨rfl, fun h => h.1⟩)
          exact .decide hPending (hId ▸ hIdentity)
            (by rw [hRequests]; rfl)

/- Whoever may not manage users, or finds nobody, fails. -/
theorem run_unlocked
    (hAdmin : db.findUser admin.id = some admin)
    (hNot : ¬ managesUsers admin ∨ db.findUser userId = none)
    {α : Type}
    (f : User × User → Op α) :
    ∃ kind message,
      kind ∈ [AdminUserErrorKind.notFound, .forbidden] ∧
      (lockActorAndTarget ⟨[admin], []⟩ admin.id userId >>=
        f).run db = .error (.adminUser kind message) := by
  rw [run_lockActorAndTarget_bind hAdmin]
  by_cases hManages : managesUsers admin
  · rcases hNot with hNot | hNone
    · exact absurd hManages hNot
    · rw [if_pos hManages, hNone]
      exact ⟨_, _, by simp, rfl⟩
  · rw [if_neg hManages]
    exact ⟨_, _, by simp, rfl⟩

theorem call_refused
    (hAdmin : db.findUser admin.id = some admin)
    (hNot : ¬ managesUsers admin ∨ db.findUser userId = none) :
    Honest env admin userId db call
      (call.run env admin userId db) := by
  have hConflict : ∀ conflicts kind message,
      kind ∈ [AdminUserErrorKind.notFound, .forbidden] →
      Honest env admin userId db call
        (exceptClauses conflicts (.adminUser kind message),
          db) := by
    intro conflicts kind message hMem
    apply honest_conflict
    simp only [List.mem_cons, List.not_mem_nil, or_false]
      at hMem ⊢
    rcases hMem with hEq | hEq
    · exact Or.inl hEq
    · exact Or.inr (Or.inl hEq)
  cases call with
  | access accessStatus =>
      simp only [AdminCall.run, patchUser,
        identityTransaction, updateUserAccess, bind_assoc]
      rcases run_unlocked hAdmin hNot _ with
        ⟨kind, message, hMem, hRun⟩
      rw [hRun]
      exact hConflict _ kind message hMem
  | decide decision =>
      have hChoice : decision.status ∈
          [AccessRequestStatus.approved, .rejected] := by
        cases decision <;> simp [RequestDecision.status]
      simp only [AdminCall.run, postAccessRequestDecision,
        identityTransaction, decideAndNotify,
        decidePendingAccessRequest, bind_assoc,
        Txn.run_require_bind, if_pos hChoice]
      rcases run_unlocked hAdmin hNot _ with
        ⟨kind, message, hMem, hRun⟩
      rw [hRun]
      exact hConflict _ kind message hMem
  | role newRole =>
      simp only [AdminCall.run, patchUserRole,
        identityTransaction, updateUserRole, bind_assoc]
      rcases run_unlocked hAdmin hNot _ with
        ⟨kind, message, hMem, hRun⟩
      rw [hRun]
      exact hConflict _ kind message hMem

end Calls

/-
  In a state in which only eligible users have equipment, with
  a digest of the usual length and fresh ids: a call either
  responds and has committed exactly the requested change, or
  ends with an error of the client and has changed nothing,
  exactly if it is answerable.
-/
theorem admin_call_honest_iff
    {env : IdentityEnv}
    {admin : User}
    {userId : Uuid}
    {db : Db}
    {call : AdminCall}
    (hAdmin : db.findUser admin.id = some admin)
    (hHolders : HoldersEligible db)
    (hDigest : ∀ text, (env.telegram.sha256 text).length = 64)
    (hFresh : ∀ key, ∀ row ∈ db.notificationOutbox,
      row.id ≠ env.notificationId key) :
    Honest env admin userId db call
        (call.run env admin userId db) ↔
      Answerable env admin userId db call := by
  by_cases hManages : managesUsers admin
  swap
  · exact iff_of_true (call_refused hAdmin (Or.inl hManages))
      (fun h => absurd h hManages)
  cases hFind : db.findUser userId with
  | none =>
      refine iff_of_true (call_refused hAdmin (Or.inr hFind)) ?_
      intro _ target hTarget
      rw [hFind] at hTarget
      cases hTarget
  | some target =>
      have hOne : Answerable env admin userId db call ↔
          (PassesChecks env admin target db call →
            (identityOf userId db).isSome ∧
              ¬ (TakesResponsibility target call ∧
                hasActiveProcurementCreateResponsibility
                  target.id db)) := by
        constructor
        · exact fun h => h hManages target hFind
        · intro h _ other hOther
          rw [hFind] at hOther
          cases hOther
          exact h
      rw [hOne]
      cases call with
      | access accessStatus =>
          exact access_honest_iff hAdmin hHolders hManages hFind
      | decide decision =>
          exact decide_honest_iff hAdmin hHolders hDigest hFresh
            hManages hFind
      | role newRole =>
          exact role_honest_iff hAdmin hHolders hManages hFind

------------------------------------------------------------
-- A User Without A Telegram Identity
------------------------------------------------------------

namespace Unlinked

def owner : User :=
  ⟨⟨1⟩, .owner, .approved, some 0, some ⟨1⟩⟩

def engineer : User :=
  ⟨⟨3⟩, .engineer, .approved, some 0, some ⟨1⟩⟩

def start : Db :=
  { Db.empty with
    users := [owner, engineer]
    telegramIdentities :=
      [⟨owner.id, 11, none, "Owner".toList, none⟩,
        ⟨engineer.id, 13, none, "Name".toList, none⟩] }

def env : IdentityEnv where
  now := 1
  transactionId := 7
  recoveryTelegramUserId := some 11
  newRequestId := ⟨9⟩
  accessEventId := ⟨20⟩
  roleEventId _ := ⟨30⟩
  telegram := ⟨fun _ => List.replicate 64 '0', some 11,
    "https://app".toList, "support".toList⟩
  notificationId _ := ⟨10⟩
  approveToken := "approve".toList
  rejectToken := "reject".toList

/- The state after the owner has reset the engineer. -/
def unlinked : Db :=
  (identityTransaction env ((AdminMutation.reset 13).perform
    env owner engineer.id)).settle start

theorem noHolders
    {db : Db}
    (hNone : db.userItemCustodyBalances = []) :
    HoldersEligible db := by
  intro b hb
  rw [hNone] at hb
  cases hb

end Unlinked

/-
  A reset has left an engineer without a Telegram identity.
  The owner approves the engineer: the approval is committed,
  and the call ends with an exception that nobody catches.
-/
theorem unlinked_user_committed_and_failed :
    (identityTransaction Unlinked.env
      ((AdminMutation.reset 13).perform Unlinked.env
        Unlinked.owner Unlinked.engineer.id)).run
          Unlinked.start = .ok (true, Unlinked.unlinked) ∧
    Unlinked.unlinked.findUser Unlinked.owner.id =
      some Unlinked.owner ∧
    HoldersEligible Unlinked.unlinked ∧
    ((Unlinked.unlinked.findUser Unlinked.engineer.id).map
      User.accessStatus = some .blocked ∧
    (((AdminCall.access .approved).run Unlinked.env
        Unlinked.owner Unlinked.engineer.id
        Unlinked.unlinked).2.findUser
          Unlinked.engineer.id).map
      User.accessStatus = some .approved) ∧
    ¬ Honest Unlinked.env Unlinked.owner Unlinked.engineer.id
      Unlinked.unlinked (.access .approved)
      ((AdminCall.access .approved).run Unlinked.env
        Unlinked.owner Unlinked.engineer.id
        Unlinked.unlinked) := by
  have hReply : ((AdminCall.access .approved).run Unlinked.env
      Unlinked.owner Unlinked.engineer.id
      Unlinked.unlinked).1 = .raised (.runtime
        "managed user disappeared after committed update") := by
    rfl
  refine ⟨rfl, rfl, Unlinked.noHolders rfl, ⟨rfl, rfl⟩, ?_⟩
  generalize (AdminCall.access .approved).run Unlinked.env
    Unlinked.owner Unlinked.engineer.id Unlinked.unlinked =
      result at hReply ⊢
  rcases result with ⟨reply, left⟩
  rw [show reply = _ from hReply]
  exact not_honest_raised

/- The owner blocks the engineer who has an identity. -/
theorem admin_call_honest_blocked :
    Honest Unlinked.env Unlinked.owner Unlinked.engineer.id
      Unlinked.start (.access .blocked)
      ((AdminCall.access .blocked).run Unlinked.env
        Unlinked.owner Unlinked.engineer.id
        Unlinked.start) := by
  have hDigest : ∀ text,
      (Unlinked.env.telegram.sha256 text).length = 64 :=
    fun _ => List.length_replicate
  refine (admin_call_honest_iff rfl (Unlinked.noHolders rfl)
    hDigest (fun _ _ h => absurd h List.not_mem_nil)).mpr ?_
  intro _ target hFind _
  have hRow : Unlinked.start.findUser Unlinked.engineer.id =
      some Unlinked.engineer := by
    rfl
  rw [hRow] at hFind
  cases hFind
  refine ⟨rfl, ?_⟩
  rintro ⟨_, hActive⟩
  cases hActive
