import DcInventory.Identity.AccessLocks
import DcInventory.Identity.Authorization

/-
  This file proves when a request for access is decided once,
  whatever administrators decide on the web and press in
  Telegram.

  A press reads its request before it has locked the user. The
  locked read that follows returns the same instance, so the
  press may find a request PENDING that has been decided since.

  Key definitions include:
    * `DecisionsValid`
    * `StillPending`
    * `DecidesOnce`

  Key theorems include:
    * `Decided.decidesOnce`
    * `access_requests_decided_once`
    * `old_button_decides_new_request`
-/

open IdentityWrite

------------------------------------------------------------
-- Keys
------------------------------------------------------------

/- The key of what a user is told of a request. -/
def decisionKey
    (sha256 : Text → Text)
    (request : Uuid) : Text :=
  notificationDedupeKey sha256
    ["access-request".toList, request.str,
      "user-decision".toList]

/- Three parts, the middle one the text of an id. -/
theorem joinParts_id
    {a b c : Text}
    {id id' : Uuid}
    (h : joinParts [a, id.str, b] = joinParts [a, id'.str, c]) :
    id = id' ∧ b = c := by
  simp only [joinParts] at h
  have hRest := List.append_cancel_left h
  rw [List.cons.injEq] at hRest
  have hParts := List.append_inj hRest.2 (by
    rw [Uuid.str_length, Uuid.str_length])
  rw [List.cons.injEq] at hParts
  exact ⟨Uuid.str_injective hParts.1, hParts.2.2⟩

section Keys

variable {sha256 : Text → Text}

theorem decisionKey_injective
    (hSha : Function.Injective sha256) :
    Function.Injective (decisionKey sha256) := by
  intro a b h
  exact (joinParts_id (hSha h)).1

/- No other call has the key of a decision. -/
theorem Routine.dedupeKey_ne
    {env : IdentityEnv}
    {call : TelegramCall}
    (hSha : Function.Injective env.telegram.sha256)
    (h : Routine env call)
    (request : Uuid) :
    call.dedupeKey ≠
      decisionKey env.telegram.sha256 request := by
  intro hEq
  cases h with
  | admin _ other _ _ _ =>
      have hParts := joinParts_id (hSha hEq)
      exact absurd hParts.2 (by decide)
  | answer _ _ =>
      have hText := hSha hEq
      simp [joinParts] at hText
  | clear _ _ _ =>
      have hText := hSha hEq
      simp [joinParts] at hText

end Keys

------------------------------------------------------------
-- Deciding Once
------------------------------------------------------------

/- Whoever was told of a decision has a decided request. -/
structure DecisionsValid
    (sha256 : Text → Text)
    (db : Db) : Prop where
  valid : RequestsValid db
  told : ∀ row ∈ db.notificationOutbox, ∀ request,
    row.dedupeKey = decisionKey sha256 request →
      ∃ r ∈ db.accessRequests,
        r.id = request ∧ r.status ≠ .pending

/- The notifications that have a key. -/
def keyed
    (dedupeKey : Text)
    (rows : List NotificationOutbox) :
    List NotificationOutbox :=
  rows.filter (fun row => row.dedupeKey = dedupeKey)

/-
  One pending request is decided: the request, its user, the
  one new event and the one notification of the user agree.
-/
structure DecidesOnce
    (sha256 : Text → Text)
    (s s' : Db)
    (request : Uuid)
    (status : AccessRequestStatus) : Prop where
  choice : status = .approved ∨ status = .rejected
  decided : ∃ r ∈ s.accessRequests, ∃ r' ∈ s'.accessRequests,
    r.id = request ∧ r.status = .pending ∧
    r'.id = request ∧ r'.status = status ∧
    r'.userId = r.userId ∧
    (∃ u u', s.findUser r.userId = some u ∧
      u.accessStatus = .pending ∧
      s'.findUser r.userId = some u' ∧
      u'.accessStatus = decidedStatus status) ∧
    (∃ e, s'.userAccessEvents = s.userAccessEvents ++ [e] ∧
      e.targetUserId = r.userId ∧
      e.beforeAccessStatus = .pending ∧
      e.afterAccessStatus = decidedStatus status)
  notified : keyed (decisionKey sha256 request)
      s.notificationOutbox = [] ∧
    ∃ settings id now identity,
      settings.sha256 = sha256 ∧
      keyed (decisionKey sha256 request)
        s'.notificationOutbox =
          [newNotification id now (accessDecisionUserCall
            settings request identity status)]

/- Nothing that concerns access is changed. -/
structure LeavesAccess (s s' : Db) : Prop where
  users : s'.users = s.users
  requests : s'.accessRequests = s.accessRequests
  events : s'.userAccessEvents = s.userAccessEvents

/-
  What a commit does about decisions. `loaded` is the request
  of a callback as the callback first read it.
-/
def DecisionClaim
    (sha256 : Text → Text)
    (result : IdentityResult)
    (s s' : Db) : Prop :=
  match result with
  | .managed r => ∀ decision, r.mutation = .decide decision →
      ∃ request, DecidesOnce sha256 s s' request decision
  | .decided loaded answer =>
      (∀ r ∈ s.accessRequests, r.id = loaded.id →
        r.status ≠ .pending →
          answer = ⟨r.status, false⟩ ∧ LeavesAccess s s') ∧
      (answer.changed = false → LeavesAccess s s') ∧
      (answer.changed = true →
        DecidesOnce sha256 s s' loaded.id answer.status)
  | _ => True

/-
  A callback that first read its request as PENDING commits
  while the request is still as it was read.
-/
def StillPending (result : IdentityResult) (s : Db) : Prop :=
  match result with
  | .decided loaded _ => loaded.status = .pending →
      loaded ∈ s.accessRequests
  | _ => True

section Outbox

variable {ws : List IdentityWrite}
variable {rows : List NotificationOutbox}
variable {dedupeKey : Text}

/- Calls of other keys that requeue nothing. -/
structure Apart
    (dedupeKey : Text)
    (ws : List IdentityWrite) : Prop where
  notify : ∀ id now call, .notify id now call ∈ ws →
    call.requeueDead = false ∧ call.dedupeKey ≠ dedupeKey
  silence : ∀ key now, .silence key now ∉ ws

/- Such calls leave the notifications of the key alone. -/
theorem Apart.keyed
    (h : Apart dedupeKey ws) :
    keyed dedupeKey (onOutboxAll ws rows) =
      keyed dedupeKey rows := by
  induction ws generalizing rows with
  | nil => rfl
  | cons w ws ih =>
      have hRest : Apart dedupeKey ws :=
        ⟨fun id now call hMem => h.notify id now call
            (List.mem_cons_of_mem w hMem),
          fun key now hMem => h.silence key now
            (List.mem_cons_of_mem w hMem)⟩
      rw [onOutboxAll, ih hRest]
      cases w with
      | notify id now call =>
          rcases h.notify id now call List.mem_cons_self with
            ⟨hCalm, hOther⟩
          rw [onOutbox]
          rcases upsert_cases id now call rows with
            hSame | ⟨k, _, hDead⟩ | ⟨hRows, _⟩
          · rw [hSame]
          · rw [hCalm] at hDead
            cases hDead
          · rw [hRows]
            unfold keyed
            rw [List.filter_append, List.filter_cons_of_neg
              (by simp [newNotification, hOther])]
            exact List.append_nil _
      | silence key now =>
          exact absurd List.mem_cons_self (h.silence key now)
      | _ => rfl

theorem keyed_eq_nil
    (h : keyed dedupeKey rows = []) :
    Table.find NotificationOutbox.dedupeKey dedupeKey rows =
      none := by
  rw [Table.find_eq_none_iff]
  intro row hRow hKey
  have hMem : row ∈ keyed dedupeKey rows :=
    List.mem_filter.mpr ⟨hRow, by simpa using hKey⟩
  rw [h] at hMem
  cases hMem

/- A call with a new key is appended, whatever others did. -/
theorem Enqueued.inserted
    {inv : Db → Prop}
    {s : Db}
    {held : List Lock}
    {env : IdentityEnv}
    {call : TelegramCall}
    (h : Enqueued (accessLocks inv) env call ws held s)
    (hSpares : Modest ws)
    (hNone : keyed call.dedupeKey s.notificationOutbox = []) :
    (notice env call).onOutbox s.notificationOutbox =
      s.notificationOutbox ++
        [newNotification (env.notificationId call.dedupeKey)
          env.now call] := by
  rcases h.taken with ⟨s₁, taken, hReach, hTaken⟩
  have hKey := keyed_eq_nil hNone
  have hId : Table.find NotificationOutbox.id
      (env.notificationId call.dedupeKey)
        s.notificationOutbox = none := by
    apply hReach.protects (.exclusive (.notificationPkey _))
      (by simp)
    rw [notificationOutbox_applyAll, hSpares.outbox]
      at hTaken
    unfold enqueueTelegramCall at hTaken
    split at hTaken
    · cases hTaken
    split at hTaken
    · cases hTaken
    unfold upsertNotification at hTaken
    split at hTaken
    · rename_i row hFind
      -- a row with the key would still be there
      rcases hReach.always.notified row
        (Table.mem_of_find hFind) with ⟨row', hRow', hSame⟩
      rw [Table.find_eq_none_iff] at hKey
      exact absurd (hSame.trans (Table.key_of_find hFind))
        (hKey row' hRow')
    · split at hTaken
      · cases hTaken
      · rename_i hFree
        simpa using hFree
  simp [notice, onOutbox, upsertNotification, hKey, hId,
    Except.toOption]

end Outbox

section Decisions

variable {sha256 : Text → Text}
variable {s : Db}
variable {held : List Lock}
variable {env : IdentityEnv}
variable {actor target : User}
variable {ws vs : List IdentityWrite}
variable {updates : List UserUpdate}

/- The discipline of decisions. -/
abbrev decisionLocks
    (sha256 : Text → Text) : Discipline Db Lock :=
  accessLocks (DecisionsValid sha256)

/- Nobody was told of a request that is still pending. -/
theorem DecisionsValid.untold
    (h : DecisionsValid sha256 s)
    {r : AccessRequest}
    (hMem : r ∈ s.accessRequests)
    (hPending : r.status = .pending) :
    keyed (decisionKey sha256 r.id) s.notificationOutbox =
      [] := by
  rw [keyed, List.filter_eq_nil_iff]
  intro row hRow hKey
  rcases h.told row hRow r.id (of_decide_eq_true hKey) with
    ⟨r', hr', hId, hStatus⟩
  have hFind := Table.find_of_mem h.valid.ids hMem
  rw [← hId, Table.find_of_mem h.valid.ids hr'] at hFind
  cases hFind
  exact hStatus hPending

/- A decision, told to the user, with answers after it. -/
theorem Decided.decidesOnce
    {session : Session}
    {decision : AccessRequestStatus}
    {done : Flushed AccessDecision}
    (noted : AccessRequest)
    (identity : TelegramIdentity)
    (hInv : DecisionsValid sha256 s)
    (hSha : env.telegram.sha256 = sha256)
    (hSession : ∀ x ∈ session.accessRequests,
      x.status = .pending)
    (h : Decided (decisionLocks sha256) env session actor
      target decision done ws held s)
    (hNoted : noted.status = done.value.request.status)
    (hTaken : Enqueued (decisionLocks sha256) env
      (accessDecisionUserCall env.telegram
        done.value.request.id identity
        done.value.request.status)
      (ws ++ requestWrites done.value.request noted) held s)
    (hUsers : SparesUsers vs)
    (hSpares : SparesAccess vs)
    (hApart : ∀ r ∈ s.accessRequests,
      Apart (decisionKey sha256 r.id) vs) :
    ∃ r ∈ s.accessRequests, r.isPendingOf target.id ∧
      done.value.request.id = r.id ∧
      done.value.request.status = decision ∧
      DecidesOnce sha256 s (applyAll
        (ws ++ requestWrites done.value.request noted ++
          (notice env (accessDecisionUserCall env.telegram
            done.value.request.id identity
            done.value.request.status) :: vs)) s) r.id
        decision := by
  let call := accessDecisionUserCall env.telegram
    done.value.request.id identity done.value.request.status
  have hSpares' : SparesAccess (notice env call :: vs) :=
    (show SparesAccess [notice env call] from
      ⟨fun _ => rfl, rfl⟩).append hSpares
  have hUsers' : SparesUsers (notice env call :: vs) :=
    (sparesUsers_notice call).append hUsers
  rcases h.settles noted fixesRequests_accessLocks
      hInv.valid hSession hNoted hSpares' with
    ⟨r, r', hSettles, hId, hStatus, hDone⟩
  have hTurn := h.turn noted hUsers' hSpares'
  rcases pending_of_isPendingOf hSettles.pending with
    ⟨hUser, hPending⟩
  have hUntold := hInv.untold hSettles.mem hPending
  have hKey : call.dedupeKey = decisionKey sha256 r.id := by
    rw [← hId, ← hSha]
    rfl
  refine ⟨r, hSettles.mem, hSettles.pending, hId, hDone, ?_⟩
  refine ⟨h.choice, ?_, hUntold, ?_⟩
  · refine ⟨r, hSettles.mem, r', ?_, rfl, hPending,
      hSettles.id, hStatus, hSettles.userId, ?_, ?_⟩
    · rw [IdentityWrite.accessRequests_applyAll]
      exact (hSettles.mem_iff hInv.valid).mpr (Or.inr rfl)
    · refine ⟨target, _, hUser ▸ hTurn.row, h.pending, ?_,
        hTurn.status⟩
      rw [IdentityWrite.findUser_applyAll, hUser, hTurn.row]
      rfl
    · refine ⟨done.value.event, ?_, ?_⟩
      · rw [IdentityWrite.userAccessEvents_applyAll,
          hTurn.events]
      · rw [hUser, ← h.pending]
        exact h.moves.of_single
  · refine ⟨env.telegram, env.notificationId call.dedupeKey,
      env.now, identity, hSha, ?_⟩
    have hFirst : Modest
        (ws ++ requestWrites done.value.request noted) :=
      h.modest.append modest_requestWrites
    have hCall : call = accessDecisionUserCall env.telegram
        r.id identity decision := by
      simp only [call, hId, hDone]
    have hNew : keyed (decisionKey sha256 r.id)
        [newNotification (env.notificationId call.dedupeKey)
          env.now call] =
        [newNotification (env.notificationId call.dedupeKey)
          env.now call] := by
      rw [keyed, List.filter_eq_self]
      intro row hRow
      rw [List.mem_singleton.mp hRow]
      exact decide_eq_true hKey
    rw [notificationOutbox_applyAll, onOutboxAll_append,
      hFirst.outbox, onOutboxAll,
      hTaken.inserted hFirst (by rw [hKey]; exact hUntold),
      (hApart r hSettles.mem).keyed, keyed,
      List.filter_append, ← keyed, hUntold, List.nil_append,
      ← keyed, ← hCall]
    exact hNew

end Decisions

------------------------------------------------------------
-- What Is Told
------------------------------------------------------------

/- All calls that are enqueued are such. -/
def Tells
    (P : TelegramCall → Prop)
    (ws : List IdentityWrite) : Prop :=
  ∀ id now call, .notify id now call ∈ ws → P call

section Tells

variable {P : TelegramCall → Prop}
variable {ws vs : List IdentityWrite}

theorem Tells.append
    (h : Tells P ws)
    (h' : Tells P vs) :
    Tells P (ws ++ vs) := by
  intro id now call hMem
  rcases List.mem_append.mp hMem with hMem | hMem
  · exact h id now call hMem
  · exact h' id now call hMem

theorem TellsNobody.tells
    (h : TellsNobody ws) :
    Tells P ws :=
  fun id now call hMem => absurd hMem (h id now call)

theorem tells_notice
    {env : IdentityEnv}
    {call : TelegramCall}
    (h : P call) :
    Tells P [notice env call] := by
  intro id now other hMem
  rw [List.mem_singleton] at hMem
  cases hMem
  exact h

theorem tells_answerWrites
    {env : IdentityEnv}
    {press : AccessCallback}
    {text : Text}
    (h : ∀ call, Routine env call → P call) :
    Tells P (answerWrites env press text) := by
  unfold answerWrites
  apply Tells.append
  · split
    · exact TellsNobody.tells (by simp [TellsNobody])
    · exact tells_notice (h _ (.clear _ _ _))
  · exact tells_notice (h _ (.answer _ _))

theorem Announces.tells
    {env : IdentityEnv}
    {request : AccessRequest}
    (hAnnounces : Announces env request ws)
    (h : ∀ call, Routine env call → P call) :
    Tells P ws := by
  cases hAnnounces with
  | known => exact tells_notice (h _ (.admin _ _ _ _ _))
  | new =>
      intro id now call hMem
      rw [List.mem_cons, List.mem_singleton] at hMem
      rcases hMem with hMem | hMem
      · cases hMem
      · cases hMem
        exact h _ (.admin _ _ _ _ _)

/- Answers to a press are apart from the keys of decisions. -/
theorem apart_answerWrites
    {env : IdentityEnv}
    {press : AccessCallback}
    {text : Text}
    (hSha : Function.Injective env.telegram.sha256)
    (request : Uuid) :
    Apart (decisionKey env.telegram.sha256 request)
      (answerWrites env press text) where
  notify id now call hMem := by
    refine ⟨?_, ?_⟩
    · revert hMem
      unfold answerWrites
      split
      · intro hMem
        rw [List.nil_append, List.mem_singleton] at hMem
        cases hMem
        rfl
      · intro hMem
        rw [List.mem_append, List.mem_singleton,
          List.mem_singleton] at hMem
        rcases hMem with hMem | hMem <;> cases hMem <;> rfl
    · exact tells_answerWrites
        (P := fun c => c.dedupeKey ≠ _)
        (fun c h => h.dedupeKey_ne hSha request) id now call
        hMem
  silence key now hMem := by
    unfold answerWrites at hMem
    split at hMem <;> simp [notice] at hMem

end Tells

------------------------------------------------------------
-- Commits
------------------------------------------------------------

section Commits

variable {sha256 : Text → Text}
variable {s s' : Db}
variable {held : List Lock}
variable {env : IdentityEnv}
variable {ws vs : List IdentityWrite}

/-
  A call that is routine, or that tells of a decision on one
  of these requests.
-/
def Informs
    (env : IdentityEnv)
    (requests : List AccessRequest)
    (call : TelegramCall) : Prop :=
  Routine env call ∨
    ∃ r ∈ requests, r.status ≠ .pending ∧
      call.dedupeKey =
        decisionKey env.telegram.sha256 r.id

/- What the statements of a decision inform about. -/
theorem Decided.informs
    {D : Discipline Db Lock}
    {session : Session}
    {actor target : User}
    {decision : AccessRequestStatus}
    {done : Flushed AccessDecision}
    (noted : AccessRequest)
    (identity : TelegramIdentity)
    (hD : FixesRequests D)
    (hValid : RequestsValid s)
    (hSession : ∀ x ∈ session.accessRequests,
      x.status = .pending)
    (h : Decided D env session actor target decision done ws
      held s)
    (hNoted : noted.status = done.value.request.status)
    (hRest : SparesAccess (notice env (accessDecisionUserCall
      env.telegram done.value.request.id identity
      done.value.request.status) :: vs)) :
    Informs env (onRequestsAll
      (ws ++ requestWrites done.value.request noted ++
        (notice env (accessDecisionUserCall env.telegram
          done.value.request.id identity
          done.value.request.status) :: vs))
        s.accessRequests)
      (accessDecisionUserCall env.telegram
        done.value.request.id identity
        done.value.request.status) := by
  rcases h.settles noted hD hValid hSession hNoted hRest with
    ⟨r, r', hSettles, hId, _⟩
  refine Or.inr ⟨r', ?_, hSettles.decided, ?_⟩
  · exact (hSettles.mem_iff hValid).mpr (Or.inr rfl)
  · rw [hSettles.id, ← hId]
    rfl

/- What a mutation informs about is so when it commits. -/
theorem Mutated.tells
    {D : Discipline Db Lock}
    {actor : User}
    {targetUserId : Uuid}
    {mutation : AdminMutation}
    {updates : List UserUpdate}
    {changed : Bool}
    (hD : FixesRequests D)
    (hValid : RequestsValid s)
    (h : Mutated D env actor targetUserId held s mutation ws
      updates changed) :
    Tells (Informs env (onRequestsAll ws s.accessRequests))
      ws := by
  cases h with
  | accessSame _ =>
      exact TellsNobody.tells (by simp [TellsNobody])
  | access _ _ _ _ =>
      apply TellsNobody.tells
      apply TellsNobody.append
      · simp [TellsNobody]
      · split <;> simp [TellsNobody]
  | @decide decision target done ws identity _ hDecided _ =>
      have hNone : requestWrites done.value.request
          done.value.request = [] := if_pos rfl
      refine Tells.append
        hDecided.modest.tellsNobody.tells
        (tells_notice ?_)
      have hInforms := hDecided.informs done.value.request
        identity hD hValid (by simp) rfl
        (show SparesAccess [notice env _] from
          ⟨fun _ => rfl, rfl⟩)
      rwa [hNone, List.append_nil] at hInforms
  | roleSame _ =>
      exact TellsNobody.tells (by simp [TellsNobody])
  | role _ _ _ _ _ =>
      exact TellsNobody.tells (by simp [TellsNobody])
  | reset _ hReset => exact hReset.tellsNobody.tells

/- What a press informs about is so when it commits. -/
theorem Pressed.tells
    {D : Discipline Db Lock}
    {press : AccessCallback}
    {outcome : CallbackOutcome}
    {updates : List UserUpdate}
    (hD : FixesRequests D)
    (hValid : RequestsValid s)
    (h : Pressed D env press held s outcome ws updates) :
    Tells (Informs env (onRequestsAll ws s.accessRequests))
      ws := by
  cases h with
  | unchanged _ _ _ =>
      exact tells_answerWrites fun _ => Or.inl
  | @decided loaded actor target action done ws identity
      hStatus _ hDecided _ _ =>
      have hQuiet : TellsNobody (ws ++ requestWrites
          done.value.request (annotated done.value.request)) :=
        (hDecided.modest.append
          modest_requestWrites).tellsNobody
      have hRest : SparesAccess (notice env
          (accessDecisionUserCall env.telegram
            done.value.request.id identity
            done.value.request.status) ::
          answerWrites env press
            (decisionLabel done.value.request.status true)) :=
        (show SparesAccess [notice env _] from
          ⟨fun _ => rfl, rfl⟩).append sparesAccess_answerWrites
      have hInforms := hDecided.informs
        (annotated done.value.request) identity hD hValid
        (by simpa using hStatus) rfl hRest
      rw [List.append_assoc _ [notice env _]]
      exact hQuiet.tells.append ((tells_notice hInforms).append
        (tells_answerWrites fun _ => Or.inl))

/- What a request informs about is so when it commits. -/
theorem Wrote.tells
    {D : Discipline Db Lock}
    {result : IdentityResult}
    (hD : FixesRequests D)
    (hValid : RequestsValid s)
    (h : Wrote D env held s result ws) :
    Tells (Informs env (onRequestsAll ws s.accessRequests))
      ws := by
  cases h with
  | recovered hReconciled =>
      exact hReconciled.modest.tellsNobody.tells
  | managed _ hMutated => exact hMutated.tells hD hValid
  | requested hRequested hAnnounces _ =>
      exact hRequested.modest.tellsNobody.tells.append
        (hAnnounces.tells fun _ => Or.inl)
  | decided hPressed => exact hPressed.tells hD hValid
  | rotated hRotated =>
      exact hRotated.modest.tellsNobody.tells

/- Whoever is told of a decision has a decided request. -/
theorem Wrote.decisionsValid
    {D : Discipline Db Lock}
    {result : IdentityResult}
    (hD : FixesRequests D)
    (hSha : Function.Injective env.telegram.sha256)
    (hInv : DecisionsValid env.telegram.sha256 s)
    (h : Wrote D env held s result ws) :
    DecisionsValid env.telegram.sha256 (applyAll ws s) where
  valid := (h.turned hD hInv.valid).valid hInv.valid
  told := by
    intro row hRow request hKey
    have hTurn := (h.turned hD hInv.valid).requestsTurn
    rw [notificationOutbox_applyAll] at hRow
    rcases mem_onOutboxAll hRow with
      ⟨old, hOld, _, hSame⟩ | ⟨now, call, hCall, hSame⟩
    · rcases hInv.told old hOld request (hSame.trans hKey) with
        ⟨r, hr, hId, hStatus⟩
      exact ⟨r, hTurn.settled hInv.valid hr hStatus, hId,
        hStatus⟩
    · rcases h.tells hD hInv.valid _ now call hCall with
        hRoutine | ⟨r, hr, hStatus, hDecision⟩
      · exact absurd (hSame.trans hKey)
          (hRoutine.dedupeKey_ne hSha request)
      · refine ⟨r, ?_, ?_, hStatus⟩
        · rwa [IdentityWrite.accessRequests_applyAll]
        · exact decisionKey_injective hSha
            (hDecision.symm.trans (hSame.trans hKey))

/- Statements that spare access leave it as it was. -/
theorem leavesAccess_of_spares
    (hUsers : ∀ s : Db, (applyAll ws s).users = s.users)
    (hSpares : SparesAccess ws) :
    LeavesAccess s (applyAll ws s) where
  users := hUsers s
  requests := by
    rw [IdentityWrite.accessRequests_applyAll, hSpares.requests]
  events := by
    rw [IdentityWrite.userAccessEvents_applyAll,
      hSpares.events, List.append_nil]

theorem users_answerWrites
    {press : AccessCallback}
    {text : Text} :
    (applyAll (answerWrites env press text) s).users =
      s.users := by
  unfold answerWrites
  split <;> rfl

/- A request of the table is found by its id. -/
theorem RequestsValid.eq_of_id
    {r r' : AccessRequest}
    (hValid : RequestsValid s)
    (hr : r ∈ s.accessRequests)
    (hr' : r' ∈ s.accessRequests)
    (hId : r.id = r'.id) :
    r = r' := by
  have hFind := Table.find_of_mem hValid.ids hr
  rw [hId, Table.find_of_mem hValid.ids hr'] at hFind
  exact (Option.some.inj hFind).symm

/- What a press has committed. -/
theorem Pressed.claim
    {press : AccessCallback}
    {loaded : AccessRequest}
    {answer : AccessDecisionResult}
    {updates : List UserUpdate}
    (hSha : Function.Injective env.telegram.sha256)
    (hInv : DecisionsValid env.telegram.sha256 s)
    (hPermit : StillPending (.decided loaded answer) s)
    (h : Pressed (decisionLocks env.telegram.sha256) env press
      held s ⟨loaded, answer⟩ ws updates) :
    DecisionClaim env.telegram.sha256 (.decided loaded answer)
      s (applyAll ws s) := by
  cases h with
  | unchanged hWas hStatus _ =>
      have hLeaves : LeavesAccess s (applyAll (answerWrites env
          press (decisionLabel loaded.status false)) s) :=
        leavesAccess_of_spares (fun _ => users_answerWrites)
          sparesAccess_answerWrites
      rcases hWas with ⟨s₁, hReach, hFind⟩
      have hMem : loaded ∈ s.accessRequests :=
        hReach.always.settled loaded (Table.mem_of_find hFind)
          hStatus
      refine ⟨?_, fun _ => hLeaves, by simp⟩
      intro r hr hId _
      rw [hInv.valid.eq_of_id hr hMem hId]
      exact ⟨rfl, hLeaves⟩
  | @decided loaded actor target action done ws identity
      hStatus hTarget hDecided hTaken hAnswered =>
      have hMem : loaded ∈ s.accessRequests := hPermit hStatus
      rw [List.append_assoc _ [notice env _]]
      rcases hDecided.decidesOnce
          (annotated done.value.request) identity hInv rfl
          (by simpa using hStatus) rfl hTaken
          (fun row => sparesUsers_answerWrites row)
          sparesAccess_answerWrites
          (fun r _ => apart_answerWrites hSha r.id) with
        ⟨r, hr, hPending, hId, hDone, hOnce⟩
      rcases pending_of_isPendingOf hPending with
        ⟨hUser, hWasPending⟩
      have hSame : r = loaded := hInv.valid.single r hr loaded
        hMem hWasPending hStatus (hUser.trans hTarget.symm)
      subst hSame
      refine ⟨?_, by simp, ?_⟩
      · intro x hx hXId hXStatus
        rw [hInv.valid.eq_of_id hx hr hXId] at hXStatus
        exact absurd hWasPending hXStatus
      · intro _
        rw [show ((⟨done.value.request.status, true⟩ :
          AccessDecisionResult)).status = action.decision from
            hDone]
        exact hOnce

/- What any request has committed. -/
theorem Wrote.decisionClaim
    {result : IdentityResult}
    (hSha : Function.Injective env.telegram.sha256)
    (hInv : DecisionsValid env.telegram.sha256 s)
    (hPermit : StillPending result s)
    (h : Wrote (decisionLocks env.telegram.sha256) env held s
      result ws) :
    DecisionClaim env.telegram.sha256 result s
      (applyAll ws s) := by
  cases h with
  | recovered _ => trivial
  | requested _ _ _ => trivial
  | rotated _ => trivial
  | decided hPressed => exact hPressed.claim hSha hInv hPermit
  | @managed result ws updates _ hMutated =>
      rcases result with ⟨actor, user, mutation, changed⟩
      intro choice hChoice
      cases hMutated with
      | @decide decision target done ws identity _ hDecided
          hTaken =>
          have hSame : decision = choice := by
            simpa using hChoice
          have hNone : requestWrites done.value.request
              done.value.request = [] := if_pos rfl
          have hApart : ∀ r ∈ s.accessRequests, Apart
              (decisionKey env.telegram.sha256 r.id) [] :=
            fun r _ => ⟨by simp, by simp⟩
          rcases hDecided.decidesOnce done.value.request
              identity hInv rfl (by simp) rfl
              (by rwa [hNone, List.append_nil])
              (fun _ => rfl) ⟨fun _ => rfl, rfl⟩ hApart with
            ⟨r, _, _, _, _, hOnce⟩
          rw [hNone, List.append_nil, hSame] at hOnce
          exact ⟨r.id, hOnce⟩
      | _ => cases hChoice

end Commits

------------------------------------------------------------
-- Runs
------------------------------------------------------------

/- The transaction of a request, with this digest. -/
def IsDecisionProgram
    (sha256 : Text → Text)
    (p : Op IdentityResult) : Prop :=
  ∃ env request, env.telegram.sha256 = sha256 ∧
    p = IdentityRequest.program env request

/- Identity requests that find theirs pending are safe. -/
theorem decision_program_safe
    {sha256 : Text → Text}
    (hSha : Function.Injective sha256)
    {p : Op IdentityResult}
    (hProgram : IsDecisionProgram sha256 p) :
    (decisionLocks sha256).Safe StillPending
      (DecisionClaim sha256) p := by
  rcases hProgram with ⟨env, request, rfl, rfl⟩
  intro s hInv
  apply wlp_program fixesUsers_accessLocks
    (fun _ h => h.valid.users) hInv
  · intro e held own s'
    trivial
  · intro result ws held s' hReach hWrote hPermit
    have hValid := hReach.inv
    exact ⟨hWrote.accessCommits hValid.valid
        (hWrote.decisionsValid fixesRequests_accessLocks hSha
          hValid),
      hWrote.decisionClaim hSha hValid hPermit⟩

/-
  In every interleaved run in which no callback commits after
  a request that it first read as PENDING has been decided:
  a decided request never changes, and every commit decides
  one pending request or leaves access alone.
-/
theorem access_requests_decided_once
    {τ : Type} [DecidableEq τ]
    {sha256 : Text → Text}
    (hSha : Function.Injective sha256)
    {S S' : System τ Db Lock Error IdentityResult}
    (hReach : System.Reachable Lock.modes
      (IsDecisionProgram sha256) StillPending
      (DecisionsValid sha256) S)
    (hSteps : System.Steps Lock.modes
      (IsDecisionProgram sha256) StillPending S S') :
    (∀ r ∈ S.committed.accessRequests, r.status ≠ .pending →
      r ∈ S'.committed.accessRequests ∧
      ∀ r' ∈ S'.committed.accessRequests,
        r'.id = r.id → r' = r) ∧
    ∀ t result S'', System.Step Lock.modes
      (IsDecisionProgram sha256) StillPending S'
      (.finish t (.ok result)) S'' →
        DecisionClaim sha256 result S'.committed
          S''.committed := by
  have hPrograms : ∀ p, IsDecisionProgram sha256 p →
      (decisionLocks sha256).Safe StillPending
        (DecisionClaim sha256) p :=
    fun _ hProgram => decision_program_safe hSha hProgram
  have hInv := Discipline.systemInv_of_reachable
    (D := decisionLocks sha256) hPrograms (fun _ h => h) hReach
  have hInv' := hInv.steps hPrograms hSteps
  have hRun := hInv.reach_of_steps hPrograms hSteps
  refine ⟨?_, ?_⟩
  · intro r hr hStatus
    have hMem := hRun.always.settled r hr hStatus
    exact ⟨hMem, fun r' hr' hId =>
      hInv'.inv.valid.eq_of_id hr' hMem hId⟩
  · intro t result S'' hStep
    exact Discipline.claim_of_commit hInv' hStep

------------------------------------------------------------
-- A Button Of An Older Request
------------------------------------------------------------

namespace OldButton

def guest : User :=
  ⟨⟨4⟩, .engineer, .pending, none, none⟩

def pending : AccessRequest where
  id := ⟨20⟩
  userId := guest.id
  status := .pending
  requestedAt := 0
  decidedAt := none
  decidedByUserId := none
  decisionNote := none

def start : Db :=
  { Db.empty with
    users := [Demotion.owner, Demotion.administrator, guest]
    telegramIdentities := [Demotion.identity Demotion.owner 11,
      Demotion.identity Demotion.administrator 12,
      Demotion.identity guest 14]
    authSessions :=
      [Demotion.session Demotion.owner "owner".toList,
        Demotion.session guest "guest".toList]
    accessRequests := [pending]
    accessDecisionCallbacks :=
      [⟨"approve".toList, pending.id, .approve, 0⟩,
        ⟨"reject".toList, pending.id, .reject, 0⟩] }

def env (transactionId : Nat) : IdentityEnv :=
  { Demotion.env transactionId with
    newRequestId := ⟨20 + transactionId⟩
    notificationId key := ⟨1000 * transactionId + key.length⟩
    approveToken := "approve again".toList
    rejectToken := "reject again".toList }

/- The administrator presses the first APPROVE button. -/
def presses : IdentityRequest :=
  .press ⟨"approve".toList, "query".toList, 12, none, 100⟩

/- The owner rejects the guest on the web. -/
def rejects : IdentityRequest :=
  .manage (.token "owner".toList) guest.id (.decide .rejected)

/- The guest asks again. -/
def asks : IdentityRequest :=
  .requestAccess (.token "guest".toList)

def begun : System Bool Db Lock Error IdentityResult :=
  ((System.initial start).begin true
    (presses.program (env 1))).begin false
      (rejects.program (env 2))

/- The press has read the request, then it is rejected. -/
def rejected : System Bool Db Lock Error IdentityResult :=
  (begun.played Lock.modes (List.replicate 5 true ++
    List.replicate 24 false)).begin false
      (asks.program (env 3))

/- The guest has asked again, then the press goes on. -/
def ready : System Bool Db Lock Error IdentityResult :=
  rejected.played Lock.modes (List.replicate 27 false ++
    List.replicate 34 true)

/- The request as the owner has rejected it. -/
def decided : AccessRequest :=
  { pending with
    status := .rejected
    decidedAt := some 1
    decidedByUserId := some Demotion.owner.id
    decisionNote := some "Access management web console" }

theorem start_valid : DecisionsValid id start := by
  refine ⟨⟨?_, ?_, ?_⟩, ?_⟩
  · simp [DistinctUsers, start, Demotion.owner,
      Demotion.administrator, guest]
  · simp [start]
  · intro r hr r' hr' _ _ _
    rw [List.mem_singleton.mp hr, List.mem_singleton.mp hr']
  · intro row hRow
    cases hRow

theorem ready_reachable :
    System.Reachable Lock.modes (IsDecisionProgram id)
      (fun _ _ => True) (DecisionsValid id) ready := by
  refine ⟨start, start_valid, ?_⟩
  have hFirst : System.Steps Lock.modes (IsDecisionProgram id)
      (fun _ _ => True) (System.initial start)
      ((System.initial start).begin true
        (presses.program (env 1))) :=
    System.begin_steps rfl ⟨env 1, presses, rfl, rfl⟩
  have hSecond : System.Steps Lock.modes (IsDecisionProgram id)
      (fun _ _ => True)
      ((System.initial start).begin true
        (presses.program (env 1))) begun :=
    System.begin_steps rfl ⟨env 2, rejects, rfl, rfl⟩
  have hThird : System.Steps Lock.modes (IsDecisionProgram id)
      (fun _ _ => True) (begun.played Lock.modes
        (List.replicate 5 true ++ List.replicate 24 false))
      rejected :=
    System.begin_steps (by rfl) ⟨env 3, asks, rfl, rfl⟩
  exact ((hFirst.trans hSecond).trans
    (System.played_steps.trans hThird)).trans
      System.played_steps

end OldButton

/-
  The button of a rejected request decides the request that
  the user has made since.
-/
theorem old_button_decides_new_request :
    ∃ (S S' : System Bool Db Lock Error IdentityResult)
      (result : IdentityResult),
      System.Reachable Lock.modes (IsDecisionProgram id)
        (fun _ _ => True) (DecisionsValid id) S ∧
      System.Step Lock.modes (IsDecisionProgram id)
        (fun _ _ => True) S (.finish true (.ok result)) S' ∧
      ¬ DecisionClaim id result S.committed S'.committed := by
  have hReady : OldButton.ready.ready true =
      some (.decided OldButton.pending ⟨.approved, true⟩) := by
    rfl
  have hMem : OldButton.decided ∈
      OldButton.ready.committed.accessRequests := by
    have hRows : ∃ r, OldButton.ready.committed.accessRequests =
        [OldButton.decided, r] := ⟨_, rfl⟩
    rcases hRows with ⟨r, hRows⟩
    rw [hRows]
    exact List.mem_cons_self
  rcases System.commit_of_ready hReady with ⟨S', hStep⟩
  refine ⟨_, S', _, OldButton.ready_reachable, hStep, ?_⟩
  intro hClaim
  rcases hClaim.1 OldButton.decided hMem rfl (by decide) with
    ⟨hAnswer, _⟩
  cases hAnswer

/- Alone, the owner rejects the request of the guest. -/
theorem access_requests_decided_once_alone :
    ∃ (S S' : System Bool Db Lock Error IdentityResult)
      (request : Uuid),
      System.Step Lock.modes (IsDecisionProgram id)
        StillPending S (.finish true (.ok (.managed
          ⟨Demotion.owner, OldButton.guest.id,
            .decide .rejected, true⟩))) S' ∧
      DecidesOnce id S.committed S'.committed request
        .rejected := by
  have hRun : ∃ s', (OldButton.rejects.program
      (OldButton.env 1)).run OldButton.start =
        .ok (.managed ⟨Demotion.owner, OldButton.guest.id,
          .decide .rejected, true⟩, s') :=
    ⟨_, rfl⟩
  rcases hRun with ⟨s', hRun⟩
  have hProgram : IsDecisionProgram id
      (OldButton.rejects.program (OldButton.env 1)) :=
    ⟨_, _, rfl, rfl⟩
  have hQuiet : ∃ S : System Bool Db Lock Error IdentityResult,
      S.committed = OldButton.start ∧
      System.Executes Lock.modes (IsDecisionProgram id)
        StillPending true
        (OldButton.rejects.program (OldButton.env 1))
        (.ok (.managed ⟨Demotion.owner, OldButton.guest.id,
          .decide .rejected, true⟩))
        (System.initial OldButton.start) S
        (System.initial s') :=
    System.executes_of_run
      (S := System.initial OldButton.start) (fun _ => rfl)
      true hProgram hRun trivial
  rcases hQuiet with ⟨S, _, hExec⟩
  rcases hExec.start with ⟨S₁, hStart, hDuring⟩
  have hReach : System.Reachable Lock.modes
      (IsDecisionProgram id) StillPending (DecisionsValid id)
      (System.initial OldButton.start :
        System Bool Db Lock Error IdentityResult) :=
    ⟨OldButton.start, OldButton.start_valid, .refl⟩
  have hSha : Function.Injective (id : Text → Text) :=
    fun _ _ h => h
  have hClaim := (access_requests_decided_once hSha hReach
    ((System.Steps.refl.step hStart).trans
      hDuring.steps)).2 true _ _ hExec.finish
  rcases hClaim _ rfl with ⟨request, hOnce⟩
  exact ⟨S, _, request, hExec.finish, hOnce⟩
