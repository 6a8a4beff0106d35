import DcInventory.Identity.Api
import DcInventory.Library.Interference

/-
  This file proves what the statements of identity
  transactions do to the rows of users, and the rules for the
  steps that their operations are made of.

  Key definitions include:
    * `IdentityWrite.applyAll`
    * `FixesUsers`
    * `Saw`
    * `Enqueued`
    * `ActorAndTarget`

  Key theorems include:
    * `IdentityWrite.findUser_applyAll`
    * `wlp_flushUser`
    * `wlp_lockActorAndTarget`
-/

------------------------------------------------------------
-- Statements In A Row
------------------------------------------------------------

namespace User

/- A flush of the row itself makes the changed instance. -/
theorem updated_self
    {u changed : User}
    (h : changed.id = u.id) :
    User.updated u changed u = changed := by
  cases u
  cases changed
  simp only [User.updated, User.mk.injEq] at h ⊢
  refine ⟨h.symm, ?_, ?_, ?_, ?_⟩ <;>
    · split
      · rename_i hSame
        exact hSame.symm
      · rfl

@[simp]
theorem updated_id
    (loaded changed row : User) :
    (User.updated loaded changed row).id = row.id :=
  rfl

end User

namespace IdentityWrite

/- The statements one after the other. -/
def applyAll : List IdentityWrite → Db → Db
| [], db => db
| w :: ws, db => applyAll ws (w.apply db)

@[simp]
theorem applyAll_nil : applyAll [] = id :=
  rfl

theorem applyAll_append
    (ws : List IdentityWrite)
    (w : IdentityWrite) :
    applyAll (ws ++ [w]) = w.apply ∘ applyAll ws := by
  funext db
  induction ws generalizing db with
  | nil => rfl
  | cons v vs ih => exact ih (v.apply db)

/- What a statement makes of the row of a user. -/
def onUser : IdentityWrite → User → User
| .user loaded changed, row =>
    if row.id = loaded.id then User.updated loaded changed row
    else row
| _, row => row

def onUserAll : List IdentityWrite → User → User
| [], row => row
| w :: ws, row => onUserAll ws (w.onUser row)

@[simp]
theorem onUserAll_append
    (ws vs : List IdentityWrite)
    (row : User) :
    onUserAll (ws ++ vs) row = onUserAll vs (onUserAll ws row) := by
  induction ws generalizing row with
  | nil => rfl
  | cons w ws ih => exact ih (w.onUser row)

theorem findUser_apply
    (w : IdentityWrite)
    (db : Db)
    (id : Uuid) :
    (w.apply db).findUser id =
      (db.findUser id).map w.onUser := by
  have hSame : ∀ db' : Db, db'.users = db.users →
      (∀ row, w.onUser row = row) →
      db'.findUser id = (db.findUser id).map w.onUser := by
    intro db' hUsers hRow
    rw [Db.findUser, hUsers, funext hRow, Option.map_id']
    rfl
  cases w with
  | user loaded changed =>
      exact Table.find_rewrite
        (fun r => User.updated_id loaded changed r) db.users
  | _ => exact hSame _ rfl (fun _ => rfl)

/- Rows of users after statements in a row. -/
theorem findUser_applyAll
    (ws : List IdentityWrite)
    (db : Db)
    (id : Uuid) :
    (applyAll ws db).findUser id =
      (db.findUser id).map (onUserAll ws) := by
  induction ws generalizing db with
  | nil => simp [applyAll, onUserAll]
  | cons w ws ih =>
      rw [applyAll, ih, findUser_apply, Option.map_map]
      rfl

/- Only identity tables and notifications are written. -/
theorem applyAll_eq
    (ws : List IdentityWrite)
    (db : Db) :
    applyAll ws db = { db with
      users := (applyAll ws db).users
      telegramIdentities := (applyAll ws db).telegramIdentities
      accessRequests := (applyAll ws db).accessRequests
      userAccessEvents := (applyAll ws db).userAccessEvents
      userRoleEvents := (applyAll ws db).userRoleEvents
      authSessions := (applyAll ws db).authSessions
      accessDecisionCallbacks :=
        (applyAll ws db).accessDecisionCallbacks
      notificationOutbox :=
        (applyAll ws db).notificationOutbox } := by
  induction ws generalizing db with
  | nil => rfl
  | cons w ws ih =>
      have hTail := ih (w.apply db)
      have hHead : w.apply db = { db with
          users := (w.apply db).users
          telegramIdentities :=
            (w.apply db).telegramIdentities
          accessRequests := (w.apply db).accessRequests
          userAccessEvents := (w.apply db).userAccessEvents
          userRoleEvents := (w.apply db).userRoleEvents
          authSessions := (w.apply db).authSessions
          accessDecisionCallbacks :=
            (w.apply db).accessDecisionCallbacks
          notificationOutbox :=
            (w.apply db).notificationOutbox } := by
        cases w <;> rfl
      unfold applyAll
      rw [hTail, hHead]

@[simp]
theorem userItemCustodyBalances_applyAll
    (ws : List IdentityWrite)
    (db : Db) :
    (applyAll ws db).userItemCustodyBalances =
      db.userItemCustodyBalances := by
  rw [applyAll_eq]

@[simp]
theorem procurementRequests_applyAll
    (ws : List IdentityWrite)
    (db : Db) :
    (applyAll ws db).procurementRequests =
      db.procurementRequests := by
  rw [applyAll_eq]

@[simp]
theorem hasCustody_applyAll
    (ws : List IdentityWrite)
    (db : Db)
    (user : Uuid) :
    hasCustody user (applyAll ws db) = hasCustody user db := by
  simp [hasCustody]

end IdentityWrite

------------------------------------------------------------
-- What Locks On Users Fix
------------------------------------------------------------

/- Whoever holds a lock on a user row sees it unchanged. -/
def FixesUsers (D : Discipline Db Lock) : Prop :=
  ∀ {held : List Lock} {s s' : Db} {user : Uuid}
    {shared : Bool},
    D.Reach held s s' → ⟨.userRow user, shared⟩ ∈ held →
      s'.findUser user = s.findUser user

/- Something was seen while the lock was held. -/
def Saw
    (D : Discipline Db Lock)
    (k : Lock)
    (s : Db)
    (P : Db → Prop) : Prop :=
  ∃ s₁, D.Reach [k] s₁ s ∧ P s₁

/- An error of one of the two triggers on custody. -/
@[simp]
def IsCustodyTrigger (e : Error) : Prop :=
  e = .database .custodyHolderEligibility ∨
    e = .database .userCustodyEligibility

/- Errors that are not of a custody trigger are allowed. -/
def Tolerant {α : Type} (Q : Post Db Lock Error α) : Prop :=
  ∀ e held own s, ¬ IsCustodyTrigger e →
    Q (.error e) held own s

/- The statement that enqueues a call. -/
def notice
    (env : IdentityEnv)
    (call : TelegramCall) : IdentityWrite :=
  .notify (env.notificationId call.dedupeKey) env.now call

/- The outbox took the call after these statements. -/
structure Enqueued
    (D : Discipline Db Lock)
    (env : IdentityEnv)
    (call : TelegramCall)
    (ws : List IdentityWrite)
    (held : List Lock)
    (s : Db) : Prop where
  heldKey : .exclusive (.notification call.dedupeKey) ∈ held
  heldId : .exclusive (.notificationPkey
    (env.notificationId call.dedupeKey)) ∈ held
  taken : ∃ s₁ rows,
    D.Reach [.exclusive (.notification call.dedupeKey),
      .exclusive (.notificationPkey
        (env.notificationId call.dedupeKey))] s₁ s ∧
    enqueueTelegramCall (env.notificationId call.dedupeKey)
      env.now call (IdentityWrite.applyAll ws
        s₁).notificationOutbox = .ok rows

/- The ids of the notifications that may be new are locked. -/
def Guarded
    (held : List Lock)
    (ws : List IdentityWrite) : Prop :=
  ∀ id now call, .notify id now call ∈ ws →
    .exclusive (.notificationPkey id) ∈ held

/- An outbox refuses a call with an error of its own. -/
theorem enqueueTelegramCall_error
    {id : Uuid}
    {now : Time}
    {call : TelegramCall}
    {rows : List NotificationOutbox}
    {e : Error}
    (h : enqueueTelegramCall id now call rows = .error e) :
    ¬ IsCustodyTrigger e := by
  unfold enqueueTelegramCall upsertNotification at h
  split at h
  · cases h
    simp
  · split at h
    · cases h
      simp
    · split at h
      · split at h <;> cases h
      · split at h
        · cases h
          simp [raise]
        · cases h

section Rules

variable {α β : Type}
variable {D : Discipline Db Lock}
variable {s s' : Db}
variable {held held' : List Lock}
variable {own : Db → Db}
variable {ws : List IdentityWrite}
variable {Q : Post Db Lock Error α}

/- What was seen stays seen. -/
theorem Saw.later
    {k : Lock}
    {P : Db → Prop}
    (h : Saw D k s P)
    (hReach : D.Reach held s s')
    (hHeld : k ∈ held) :
    Saw D k s' P := by
  rcases h with ⟨s₁, h₁, hP⟩
  exact ⟨s₁, h₁.trans (hReach.weaken (by simpa using hHeld)),
    hP⟩

/- What was taken stays taken. -/
theorem Enqueued.stable
    {env : IdentityEnv}
    {call : TelegramCall}
    (h : Enqueued D env call ws held s)
    (hReach : D.Reach held s s')
    (hSub : ∀ k ∈ held, k ∈ held') :
    Enqueued D env call ws held' s' := by
  rcases h.taken with ⟨s₁, rows, h₁, hRows⟩
  refine ⟨hSub _ h.heldKey, hSub _ h.heldId, s₁, rows,
    h₁.trans (hReach.weaken ?_), hRows⟩
  simpa using ⟨h.heldKey, h.heldId⟩

/- The locks of one call guard it. -/
theorem Enqueued.guarded
    {env : IdentityEnv}
    {call : TelegramCall}
    (h : Enqueued D env call ws held s) :
    Guarded held [notice env call] := by
  intro id now other hMem
  cases List.mem_singleton.mp hMem
  exact h.heldId

theorem Guarded.mono
    (h : Guarded held ws)
    (hSub : ∀ k ∈ held, k ∈ held') :
    Guarded held' ws :=
  fun id now call hMem => hSub _ (h id now call hMem)

theorem Guarded.append
    {vs : List IdentityWrite}
    (h : Guarded held ws)
    (h' : Guarded held vs) :
    Guarded held (ws ++ vs) := by
  intro id now call hMem
  rcases List.mem_append.mp hMem with hMem | hMem
  · exact h id now call hMem
  · exact h' id now call hMem

theorem Saw.now
    {k : Lock}
    {P : Db → Prop}
    (hInv : D.inv s)
    (h : P s) :
    Saw D k s P :=
  ⟨s, .refl hInv, h⟩

theorem Tolerant.error
    (h : Tolerant Q)
    {e : Error}
    (hNot : ¬ IsCustodyTrigger e) :
    ∀ s', D.Reach held s s' → Q (.error e) held own s' :=
  fun s' _ => h e held own s' hNot

theorem wlp_execute
    {w : IdentityWrite}
    {f : Unit → Op α}
    (h : (f ()).wlp D Q held
      (IdentityWrite.applyAll (ws ++ [w])) s) :
    (execute w >>= f).wlp D Q held
      (IdentityWrite.applyAll ws) s := by
  apply Txn.wlp_update
  rw [← IdentityWrite.applyAll_append]
  exact h

/- A call is enqueued past the locks of its row. -/
theorem wlp_enqueue
    {env : IdentityEnv}
    {call : TelegramCall}
    {f : Unit → Op α}
    (hQ : Tolerant Q)
    (h : ∀ held' s', D.Reach held s s' →
      (∀ k ∈ held, k ∈ held') →
      Enqueued D env call ws held' s' →
      (f ()).wlp D Q held' (IdentityWrite.applyAll
        (ws ++ [notice env call])) s') :
    (enqueue env call >>= f).wlp D Q held
      (IdentityWrite.applyAll ws) s := by
  simp only [enqueue, bind_assoc]
  apply Txn.wlp_acquire
  intro s₁ h₁
  apply Txn.wlp_acquire
  intro s₂ h₂
  apply Txn.wlp_query
  intro s₃ h₃
  apply Txn.wlp_ofExcept
  · intro e hRefused
    exact hQ.error (enqueueTelegramCall_error hRefused)
  intro rows hRows
  apply wlp_execute
  have h₁₃ := Discipline.reach_of_cons h₂ h₃
  refine h _ s₃ (Discipline.reach_of_cons h₁ h₁₃)
    (fun k hk => by simp [hk]) ⟨by simp, by simp, ?_⟩
  exact ⟨s₃, rows, .refl h₃.inv, hRows⟩

theorem wlp_lockUserRow
    {session : Session}
    {shared : Bool}
    {id : Uuid}
    {f : Option User → Op α}
    (h : ∀ s', D.Reach held s s' →
      (f (loadedUser session.users
        ((own s').findUser id))).wlp D Q
          (⟨.userRow id, shared⟩ :: held) own s') :
    (lockUserRow session shared id >>= f).wlp D Q held own
      s := by
  simp only [lockUserRow, bind_assoc, pure_bind]
  apply Txn.wlp_acquire
  intro s₁ h₁
  apply Txn.wlp_query
  intro s₂ h₂
  exact h s₂ (Discipline.reach_of_cons h₁ h₂)

/- The two users as the session has them, both locked. -/
structure LockedPair
    (session : Session)
    (actorUserId targetUserId : Uuid)
    (actor target : Option User)
    (held : List Lock)
    (s : Db) : Prop where
  actor : loadedUser session.users (s.findUser actorUserId) =
    actor
  target : loadedUser session.users
    (s.findUser targetUserId) = target
  heldActor : ∃ shared, ⟨.userRow actorUserId, shared⟩ ∈ held
  heldTarget : .exclusive (.userRow targetUserId) ∈ held

theorem LockedPair.stable
    {session : Session}
    {actorUserId targetUserId : Uuid}
    {actor target : Option User}
    (hD : FixesUsers D)
    (h : LockedPair session actorUserId targetUserId actor
      target held s)
    (hReach : D.Reach held s s')
    (hSub : ∀ k ∈ held, k ∈ held') :
    LockedPair session actorUserId targetUserId actor target
      held' s' := by
  rcases h.heldActor with ⟨shared, hActor⟩
  refine ⟨?_, ?_, ⟨shared, hSub _ hActor⟩,
    hSub _ h.heldTarget⟩
  · rw [hD hReach hActor]
    exact h.actor
  · rw [hD hReach h.heldTarget]
    exact h.target

theorem wlp_lockIdentityActorAndTarget
    {session : Session}
    {actorUserId targetUserId : Uuid}
    {f : Option User × Option User → Op α}
    (hD : FixesUsers D)
    (hOk : ∀ actor target held' s', D.Reach held s s' →
      (∀ k ∈ held, k ∈ held') →
      LockedPair session actorUserId targetUserId actor target
        held' s' →
      (f (actor, target)).wlp D Q held' id s') :
    (lockIdentityActorAndTarget session actorUserId
      targetUserId >>= f).wlp D Q held id s := by
  unfold lockIdentityActorAndTarget
  split
  · rename_i hSame
    subst hSame
    simp only [bind_assoc, pure_bind]
    apply wlp_lockUserRow
    intro s₁ h₁
    exact hOk _ _ _ s₁ h₁
      (fun k hk => List.mem_cons_of_mem _ hk)
      ⟨rfl, rfl, ⟨false, List.mem_cons_self⟩,
        List.mem_cons_self⟩
  split
  · simp only [bind_assoc, pure_bind]
    apply wlp_lockUserRow
    intro s₁ h₁
    apply wlp_lockUserRow
    intro s₂ h₂
    refine hOk _ _ _ s₂ (Discipline.reach_of_cons h₁ h₂)
      (fun k hk => by simp [hk])
      ⟨?_, rfl, ⟨true, by simp⟩, List.mem_cons_self⟩
    rw [hD h₂ List.mem_cons_self]
    rfl
  · simp only [bind_assoc, pure_bind]
    apply wlp_lockUserRow
    intro s₁ h₁
    apply wlp_lockUserRow
    intro s₂ h₂
    refine hOk _ _ _ s₂ (Discipline.reach_of_cons h₁ h₂)
      (fun k hk => by simp [hk])
      ⟨rfl, ?_, ⟨true, List.mem_cons_self⟩, ?_⟩
    · rw [hD h₂ List.mem_cons_self]
      rfl
    · exact List.mem_cons_of_mem _ List.mem_cons_self

/- An actor who manages users, and the target. -/
structure ActorAndTarget
    (session : Session)
    (actorUserId targetUserId : Uuid)
    (actor target : User)
    (held : List Lock)
    (s : Db) : Prop where
  locked : LockedPair session actorUserId targetUserId
    (some actor) (some target) held s
  manages : managesUsers actor

theorem ActorAndTarget.stable
    {session : Session}
    {actorUserId targetUserId : Uuid}
    {actor target : User}
    (hD : FixesUsers D)
    (h : ActorAndTarget session actorUserId targetUserId actor
      target held s)
    (hReach : D.Reach held s s')
    (hSub : ∀ k ∈ held, k ∈ held') :
    ActorAndTarget session actorUserId targetUserId actor
      target held' s' :=
  ⟨h.locked.stable hD hReach hSub, h.manages⟩

theorem wlp_lockActorAndTarget
    {session : Session}
    {actorUserId targetUserId : Uuid}
    {f : User × User → Op α}
    (hD : FixesUsers D)
    (hQ : Tolerant Q)
    (hOk : ∀ actor target held' s', D.Reach held s s' →
      (∀ k ∈ held, k ∈ held') →
      ActorAndTarget session actorUserId targetUserId actor
        target held' s' →
      (f (actor, target)).wlp D Q held' id s') :
    (lockActorAndTarget session actorUserId targetUserId >>=
      f).wlp D Q held id s := by
  simp only [lockActorAndTarget, bind_assoc, pure_bind,
    acquireIdentityManagementSharedBarrier]
  apply Txn.wlp_acquire
  intro s₁ h₁
  apply wlp_lockIdentityActorAndTarget hD
  intro actor target held₂ s₂ h₂ hSub hLocked
  apply Txn.wlp_getOrFail
  · intro _
    exact hQ.error (by simp [adminUserForbidden])
  intro manager hManager
  rcases Option.filter_eq_some_iff.mp hManager with
    ⟨hActor, hManages⟩
  apply Txn.wlp_getOrFail
  · intro _
    exact hQ.error (by simp)
  intro found hFound
  subst hActor
  subst hFound
  exact hOk manager found held₂ s₂
    (Discipline.reach_of_cons h₁ h₂)
    (fun k hk => hSub k (List.mem_cons_of_mem _ hk))
    ⟨hLocked, hManages⟩

/- A check that only reads. -/
theorem wlp_refuseWhen
    {c : Prop} [Decidable c]
    {found : Db → Bool}
    {e : Error}
    {f : Unit → Op α}
    (hQ : Tolerant Q)
    (hInv : D.inv s)
    (hNot : ¬ IsCustodyTrigger e)
    (hOk : ∀ s', D.Reach held s s' →
      (c → found (own s') = false) →
      (f ()).wlp D Q held own s') :
    (refuseWhen c found e >>= f).wlp D Q held own s := by
  unfold refuseWhen
  split
  · simp only [bind_assoc]
    apply Txn.wlp_query
    intro s₁ h₁
    apply Txn.wlp_require
    · intro _
      exact hQ.error hNot
    intro hNone
    exact hOk s₁ h₁ (fun _ => by simpa using hNone)
  · rename_i hc
    rw [pure_bind]
    exact hOk s (.refl hInv) (fun h => absurd h hc)

theorem wlp_isOwnerOrRecovery
    {env : IdentityEnv}
    {user : User}
    {f : Bool → Op α}
    (hInv : D.inv s)
    (hOk : ∀ b s', D.Reach held s s' →
      (user.role = .owner → b = true) →
      (f b).wlp D Q held own s') :
    (isOwnerOrRecovery env user >>= f).wlp D Q held own s := by
  unfold isOwnerOrRecovery
  split
  · rw [pure_bind]
    exact hOk true s (.refl hInv) (fun _ => rfl)
  · rename_i hRole
    unfold isRecoveryIdentity
    split
    · rw [pure_bind]
      exact hOk false s (.refl hInv)
        (fun h => absurd h hRole)
    · apply Txn.wlp_query
      intro s₁ h₁
      exact hOk _ s₁ h₁ (fun h => absurd h hRole)

/-
  A flush writes nothing, or it updates the row while it is
  locked.
-/
theorem wlp_flushUser
    {loaded changed : User}
    {f : List UserUpdate → Op α}
    (hQ : Tolerant Q)
    (hNone : changed = loaded →
      (f []).wlp D Q held (IdentityWrite.applyAll ws) s)
    (hSome : changed ≠ loaded → ∀ old held' s',
      D.Reach held s s' → (∀ k ∈ held, k ∈ held') →
      .exclusive (.userRow loaded.id) ∈ held' →
      (IdentityWrite.applyAll ws s').findUser loaded.id =
        some old →
      ((User.updated loaded changed old).role = .owner →
        (User.updated loaded changed old).accessStatus =
          .approved) →
      (f [⟨old, User.updated loaded changed old⟩]).wlp D Q
        held' (IdentityWrite.applyAll
          (ws ++ [.user loaded changed])) s')
    (hD : FixesUsers D) :
    (flushUser loaded changed >>= f).wlp D Q held
      (IdentityWrite.applyAll ws) s := by
  unfold flushUser
  split
  · rename_i hSame
    rw [pure_bind]
    exact hNone hSame
  rename_i hChanged
  simp only [bind_assoc]
  apply Txn.wlp_acquire
  intro s₁ h₁
  apply Txn.wlp_query
  intro s₂ h₂
  apply Txn.wlp_getOrFail
  · intro _
    exact hQ.error (by simp)
  intro old hOld
  apply Txn.wlp_require
  · intro _
    exact hQ.error (by simp [raise])
  intro hOwner
  have hTo₂ := Discipline.reach_of_cons h₁ h₂
  simp only [uniqueOwner]
  split
  · simp only [bind_assoc]
    apply Txn.wlp_acquire
    intro s₃ h₃
    apply Txn.wlp_query
    intro s₄ h₄
    apply Txn.wlp_require
    · intro _
      exact hQ.error (by simp [raise])
    intro _
    apply wlp_execute
    rw [pure_bind]
    have h₂₄ := Discipline.reach_of_cons h₃ h₄
    refine hSome hChanged old _ s₄
      (hTo₂.trans (h₂₄.weaken fun k hk => by simp [hk]))
      (fun k hk => by simp [hk]) (by simp) ?_ hOwner
    rw [IdentityWrite.findUser_applyAll] at hOld ⊢
    rw [hD h₂₄ List.mem_cons_self]
    exact hOld
  · simp only [pure_bind]
    apply wlp_execute
    exact hSome hChanged old _ s₂ hTo₂
      (fun k hk => by simp [hk]) (by simp) hOld hOwner

end Rules
