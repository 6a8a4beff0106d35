import DcInventory.Identity.Effects

/-
  This file proves when a mutation by an administrator is
  authorised by the committed row of its actor.

  The lock on that row does not refresh the instance that
  authentication has loaded, so the checks are made on the
  instance. They speak about the row as long as the row has
  not lost what the instance shows.

  Key definitions include:
    * `IsIdentityProgram`
    * `KeepsAuthority`
    * `AuthorisedCommit`

  Key theorems include:
    * `identity_program_safe`
    * `managed_authorised`
    * `demoted_actor_commits`
-/

------------------------------------------------------------
-- The System
------------------------------------------------------------

/- The transaction of some request. -/
def IsIdentityProgram (p : Op IdentityResult) : Prop :=
  ∃ env request, p = IdentityRequest.program env request

/- What a lock on the row of a user keeps fixed. -/
def fixedUser : Resource → Db → Db → Prop
| .userRow user, s, s' => s'.findUser user = s.findUser user
| _, _, _ => True

/- The discipline of identity transactions. -/
def identityLocks : Discipline Db Lock where
  modes := Lock.modes
  inv := DistinctUsers
  always _ _ := True
  protects k := fixedUser k.resource
  always_refl _ := trivial
  always_trans _ _ := trivial
  protects_refl k s := by
    cases k.resource <;> first | rfl | trivial
  protects_trans := by
    intro k s s' s'' h h'
    cases hResource : k.resource with
    | userRow user =>
        rw [hResource] at h h'
        exact Eq.trans h' h
    | _ => trivial

theorem fixesUsers_identityLocks :
    FixesUsers identityLocks :=
  fun h hHeld => h.protects _ hHeld

------------------------------------------------------------
-- Authority
------------------------------------------------------------

/- The mutation makes somebody an administrator. -/
def AdminMutation.AssignsAdmin (m : AdminMutation) : Prop :=
  m = .role .admin

/-
  The committed row of the actor is approved and may manage
  users; where the target was an administrator and has been
  changed, or is made one, it may assign administrators.
-/
def AuthorisedCommit (s : Db) : IdentityResult → Prop
| .managed r => ∃ row, s.findUser r.actor.id = some row ∧
    row.accessStatus = .approved ∧
    hasCapability row.role .accessManageUsers ∧
    (r.changed →
      ((∃ u, s.findUser r.target = some u ∧
        u.role = .admin) ∨ r.mutation.AssignsAdmin) →
      hasCapability row.role .accessAssignAdmin)
| _ => True

/-
  The row of the actor has lost neither the approval nor the
  capabilities that the loaded instance shows.
-/
def KeepsAuthority (result : IdentityResult) (s : Db) : Prop :=
  match result with
  | .managed r => ∀ row, s.findUser r.actor.id = some row →
      (r.actor.accessStatus = .approved →
        row.accessStatus = .approved) ∧
      (hasCapability r.actor.role .accessManageUsers →
        hasCapability row.role .accessManageUsers) ∧
      (hasCapability r.actor.role .accessAssignAdmin →
        hasCapability row.role .accessAssignAdmin)
  | _ => True

section Authority

variable {D : Discipline Db Lock}
variable {s : Db}
variable {held : List Lock}
variable {env : IdentityEnv}
variable {actor : User}
variable {targetUserId : Uuid}
variable {mutation : AdminMutation}
variable {ws : List IdentityWrite}
variable {updates : List UserUpdate}
variable {changed : Bool}

/- The instance of the actor passed the checks. -/
theorem Mutated.manages
    (h : Mutated D env actor targetUserId held s mutation ws
      updates changed) :
    managesUsers actor := by
  cases h with
  | accessSame hManages => exact hManages
  | access _ _ _ hChanges => exact hChanges.manages
  | decide _ hDecided => exact hDecided.changes.manages
  | roleSame hManages => exact hManages
  | role _ _ _ _ hChanges => exact hChanges.manages
  | reset _ hReset => exact hReset.changes.manages

/- The target of changes is the row with its id. -/
theorem Changes.rank_of_row
    {target new u : User}
    (h : Changes D actor target new held s)
    (hId : target.id = targetUserId)
    (hFind : s.findUser targetUserId = some u)
    (hAdmin : u.role = .admin) :
    hasCapability actor.role .accessAssignAdmin := by
  rw [← hId, h.row] at hFind
  cases hFind
  exact h.rank hAdmin

/- What concerns administrators needs the owner. -/
theorem Mutated.assigns
    (h : Mutated D env actor targetUserId held s mutation ws
      updates changed)
    (hChanged : changed = true)
    (hAdmin : (∃ u, s.findUser targetUserId = some u ∧
      u.role = .admin) ∨ mutation.AssignsAdmin) :
    hasCapability actor.role .accessAssignAdmin := by
  rcases hAdmin with ⟨u, hFind, hRole⟩ | hAssigns
  · cases h with
    | accessSame _ => cases hChanged
    | access hId _ _ hChanges =>
        exact hChanges.rank_of_row hId hFind hRole
    | decide hId hDecided =>
        exact hDecided.changes.rank_of_row hId hFind hRole
    | roleSame _ => cases hChanged
    | role hId _ _ _ hChanges =>
        exact hChanges.rank_of_row hId hFind hRole
    | reset hId hReset =>
        exact hReset.changes.rank_of_row hId hFind hRole
  · cases h with
    | roleSame _ => cases hChanged
    | role _ hAssign _ _ _ =>
        cases hAssigns
        rcases hAssign with ⟨hStandard, _⟩ | ⟨_, hMay⟩
        · simp [standardAssignableRoles] at hStandard
        · exact hMay
    | _ => cases hAssigns

/- Where nothing was lost the row authorises the mutation. -/
theorem Wrote.authorised
    {result : IdentityResult}
    (h : Wrote D env held s result ws)
    (hKeeps : KeepsAuthority result s) :
    AuthorisedCommit s result := by
  cases h with
  | managed hActor hMutated =>
      rcases hActor.row with ⟨row, hRow⟩
      rcases hKeeps row hRow with ⟨hStatus, hManage, hAssign⟩
      have hManages := hMutated.manages
      rw [managesUsers, decide_eq_true_eq] at hManages
      exact ⟨row, hRow, hStatus hManages.1,
        hManage hManages.2, fun hChanged hAdmin =>
          hAssign (hMutated.assigns hChanged hAdmin)⟩
  | _ => trivial

end Authority

------------------------------------------------------------
-- Runs
------------------------------------------------------------

/- What a request commits respects the locks of others. -/
theorem Wrote.commits
    {s : Db}
    {held : List Lock}
    {env : IdentityEnv}
    {result : IdentityResult}
    {ws : List IdentityWrite}
    (hInv : DistinctUsers s)
    (h : Wrote identityLocks env held s result ws) :
    identityLocks.Commits held s
      (IdentityWrite.applyAll ws s) where
  inv := hInv.applyAll ws
  always := trivial
  protects k hFree := by
    unfold identityLocks
    simp only
    cases hResource : k.resource with
    | userRow user => exact h.fixesRow hResource hFree
    | _ => trivial

/- Identity requests can be interleaved. -/
theorem identity_program_safe
    {p : Op IdentityResult}
    (hProgram : IsIdentityProgram p) :
    identityLocks.Safe KeepsAuthority
      (fun result s _ => AuthorisedCommit s result) p := by
  rcases hProgram with ⟨env, request, rfl⟩
  intro s hInv
  apply wlp_program fixesUsers_identityLocks (fun _ h => h)
    hInv
  · intro e held own s'
    trivial
  · intro result ws held s' hReach hWrote hKeeps
    exact ⟨hWrote.commits hReach.inv,
      hWrote.authorised hKeeps⟩

/-
  In every interleaved run in which no mutation is committed
  after the row of its actor has lost what the loaded
  instance shows: whatever is committed is authorised by the
  committed row of its actor.
-/
theorem managed_authorised
    {τ : Type} [DecidableEq τ]
    {S S' : System τ Db Lock Error IdentityResult}
    {t : τ}
    {result : IdentityResult}
    (hReach : System.Reachable Lock.modes IsIdentityProgram
      KeepsAuthority DistinctUsers S)
    (hCommit : System.Step Lock.modes IsIdentityProgram
      KeepsAuthority S (.finish t (.ok result)) S') :
    AuthorisedCommit S.committed result :=
  Discipline.claim_of_commit
    (Discipline.systemInv_of_reachable
      (D := identityLocks)
      (fun _ hProgram => identity_program_safe hProgram)
      (fun _ h => h) hReach) hCommit

------------------------------------------------------------
-- An Administrator Who Is Blocked Meanwhile
------------------------------------------------------------

namespace Demotion

def owner : User :=
  ⟨⟨1⟩, .owner, .approved, some 0, some ⟨1⟩⟩

def administrator : User :=
  ⟨⟨2⟩, .admin, .approved, some 0, some ⟨1⟩⟩

def engineer : User :=
  ⟨⟨3⟩, .engineer, .approved, some 0, some ⟨1⟩⟩

def identity
    (user : User)
    (telegramUserId : Int) : TelegramIdentity :=
  ⟨user.id, telegramUserId, none, "Name".toList, none⟩

/- An open session of the user. -/
def session (user : User) (tokenHash : Text) : AuthSession :=
  ⟨user.id, user.id, tokenHash, 0, 100, none⟩

def start : Db :=
  { Db.empty with
    users := [owner, administrator, engineer]
    telegramIdentities := [identity owner 11,
      identity administrator 12, identity engineer 13]
    authSessions := [session owner "owner".toList,
      session administrator "admin".toList] }

def env (transactionId : Nat) : IdentityEnv where
  now := 1
  transactionId := transactionId
  recoveryTelegramUserId := none
  newRequestId := ⟨9⟩
  accessEventId := ⟨BitVec.ofNat 128 (100 + transactionId)⟩
  roleEventId _ := ⟨BitVec.ofNat 128 (200 + transactionId)⟩
  telegram := ⟨id, some 11, "https://app".toList,
    "support".toList⟩
  notificationId _ := ⟨10⟩
  approveToken := "approve".toList
  rejectToken := "reject".toList

/- The administrator asks to block the engineer. -/
def blocksEngineer : IdentityRequest :=
  .manage (.token "admin".toList) engineer.id
    (.access .blocked)

/- The owner asks to block the administrator. -/
def blocksAdministrator : IdentityRequest :=
  .manage (.token "owner".toList) administrator.id
    (.access .blocked)

def begun : System Bool Db Lock Error IdentityResult :=
  ((System.initial start).begin true
    (blocksEngineer.program (env 1))).begin false
      (blocksAdministrator.program (env 2))

/-
  The administrator is authenticated, then the owner's
  request commits, then the administrator's goes on.
-/
def ready : System Bool Db Lock Error IdentityResult :=
  begun.played Lock.modes (List.replicate 1 true ++
    List.replicate 17 false ++ List.replicate 14 true)

theorem start_distinct : DistinctUsers start := by
  simp [DistinctUsers, start, owner, administrator, engineer]

theorem ready_reachable :
    System.Reachable Lock.modes IsIdentityProgram
      (fun _ _ => True) DistinctUsers ready := by
  refine ⟨start, start_distinct, ?_⟩
  have hFirst : System.Steps Lock.modes IsIdentityProgram
      (fun _ _ => True) (System.initial start)
      ((System.initial start).begin true
        (blocksEngineer.program (env 1))) :=
    System.begin_steps rfl ⟨env 1, blocksEngineer, rfl⟩
  have hSecond : System.Steps Lock.modes IsIdentityProgram
      (fun _ _ => True)
      ((System.initial start).begin true
        (blocksEngineer.program (env 1))) begun :=
    System.begin_steps rfl ⟨env 2, blocksAdministrator, rfl⟩
  exact (hFirst.trans hSecond).trans System.played_steps

end Demotion

/-
  A blocked administrator blocks an engineer: the mutation
  commits although the row of its actor is blocked.
-/
theorem demoted_actor_commits :
    ∃ (S S' : System Bool Db Lock Error IdentityResult)
      (r : ManagedResult),
      System.Reachable Lock.modes IsIdentityProgram
        (fun _ _ => True) DistinctUsers S ∧
      System.Step Lock.modes IsIdentityProgram
        (fun _ _ => True) S (.finish true (.ok (.managed r)))
        S' ∧
      r.changed = true ∧
      (∃ row, S.committed.findUser r.actor.id = some row ∧
        row.accessStatus = .blocked) ∧
      ¬ AuthorisedCommit S.committed (.managed r) := by
  have hReady : Demotion.ready.ready true =
      some (.managed ⟨Demotion.administrator,
        Demotion.engineer.id, .access .blocked, true⟩) := by
    rfl
  have hRow : Demotion.ready.committed.findUser
      Demotion.administrator.id = some
        { Demotion.administrator with
          accessStatus := .blocked
          approvedAt := none
          approvedByUserId := none } := by
    rfl
  rcases System.commit_of_ready hReady with ⟨S', hStep⟩
  refine ⟨_, S', _, Demotion.ready_reachable, hStep, rfl,
    ⟨_, hRow, rfl⟩, ?_⟩
  rintro ⟨row, hFind, hApproved, _⟩
  rw [hRow] at hFind
  cases hFind
  cases hApproved

/- Alone, the administrator blocks the engineer by right. -/
theorem managed_authorised_alone :
    ∃ (S S' : System Bool Db Lock Error IdentityResult)
      (r : ManagedResult),
      r.changed = true ∧
      System.Step Lock.modes IsIdentityProgram KeepsAuthority S
        (.finish true (.ok (.managed r))) S' ∧
      AuthorisedCommit S.committed (.managed r) := by
  have hRun : ∃ s', (Demotion.blocksEngineer.program
      (Demotion.env 1)).run Demotion.start =
        .ok (.managed ⟨Demotion.administrator,
          Demotion.engineer.id, .access .blocked, true⟩, s') :=
    ⟨_, rfl⟩
  rcases hRun with ⟨s', hRun⟩
  have hPermit : KeepsAuthority (.managed
      ⟨Demotion.administrator, Demotion.engineer.id,
        .access .blocked, true⟩) Demotion.start := by
    intro row hRow
    have hSame : Demotion.start.findUser
        Demotion.administrator.id =
          some Demotion.administrator := by rfl
    rw [hSame] at hRow
    cases hRow
    exact ⟨id, id, id⟩
  have hProgram : IsIdentityProgram
      (Demotion.blocksEngineer.program (Demotion.env 1)) :=
    ⟨_, _, rfl⟩
  have hQuiet : ∃ S : System Bool Db Lock Error IdentityResult,
      S.committed = Demotion.start ∧
      System.Executes Lock.modes IsIdentityProgram
        KeepsAuthority true
        (Demotion.blocksEngineer.program (Demotion.env 1))
        (.ok (.managed ⟨Demotion.administrator,
          Demotion.engineer.id, .access .blocked, true⟩))
        (System.initial Demotion.start) S
        (System.initial s') :=
    System.executes_of_run (S := System.initial Demotion.start)
      (fun _ => rfl) true hProgram hRun hPermit
  rcases hQuiet with ⟨S, _, hExec⟩
  rcases hExec.start with ⟨S₁, hStart, hDuring⟩
  refine ⟨S, _, _, rfl, hExec.finish, ?_⟩
  apply managed_authorised ⟨Demotion.start,
    Demotion.start_distinct, ?_⟩ hExec.finish
  exact (System.Steps.refl.step hStart).trans hDuring.steps
