import DcInventory.Identity.AccessLocks
import DcInventory.Maintenance.TechnicalRetention
import DcInventory.Notifications.Protocol

/-
  This file proves that retention deletes only rows whose
  work is done, unless a notification that it has selected is
  put back to work before it is deleted.

  Key definitions include:
    * `retention`
    * `DeadWork`
    * `Calm`

  Key theorems include:
    * `retention_spares`
    * `retention_spares_live_work`
    * `requeued_notification_deleted`
-/

open IdentityWrite

------------------------------------------------------------
-- Runs Of Retention
------------------------------------------------------------

/- The work of the row with the key is done. -/
def DeadWork (i : RetentionInput) : RowKey → Db → Prop
| .authSession id, db => ∃ a ∈ db.authSessions,
    a.id = id ∧ (a.expiresAt < i.now ∨ a.revokedAt.isSome)
| .telegramUpdate updateId, db => ∃ u ∈ db.telegramUpdates,
    u.updateId = updateId ∧ u.processedAt.isSome
| .notification id, db => ∃ n ∈ db.notificationOutbox,
    n.id = id ∧ (n.status = .sent ∨ n.status = .dead) ∧
      n.claimedAt = none ∧ n.claimToken = none
| .email id, db => ∃ e ∈ db.emailOutbox,
    e.id = id ∧ (e.status = .sent ∨ e.status = .dead) ∧
      e.claimedAt = none ∧ e.claimToken = none
| .accessCallback token, db =>
    ∃ c ∈ db.accessDecisionCallbacks, c.token = token ∧
      ∃ r ∈ db.accessRequests, r.id = c.accessRequestId ∧
        (r.status = .approved ∨ r.status = .rejected)

namespace Db

variable {db : Db}
variable {keys keys' : List RowKey}

theorem removeRows_nil : db.removeRows [] = db := by
  simp [removeRows]

theorem removeRows_removeRows :
    (db.removeRows keys').removeRows keys =
      db.removeRows (keys ++ keys') := by
  simp [removeRows, List.filter_filter]

theorem removeRows_congr
    (h : ∀ k, k ∈ keys ↔ k ∈ keys') :
    db.removeRows keys = db.removeRows keys' := by
  simp [removeRows, h]

/- A key that no row has removes none. -/
theorem removeRows_absent
    {k : RowKey}
    (h : ¬ HasRow k db) :
    db.removeRows (k :: keys) = db.removeRows keys := by
  have hSame : ∀ {ρ : Type} {rowKey : ρ → RowKey}
      {rows : List ρ}, (∀ r ∈ rows, rowKey r ≠ k) →
      rows.filter (fun r => rowKey r ∉ k :: keys) =
        rows.filter (fun r => rowKey r ∉ keys) := by
    intro ρ rowKey rows hOther
    apply List.filter_congr
    intro r hr
    simp [hOther r hr]
  unfold removeRows
  congr 1
  · apply hSame
    rintro a ha rfl
    exact h ⟨a, ha, rfl⟩
  · apply hSame
    rintro c hc rfl
    exact h ⟨c, hc, rfl⟩
  · apply hSame
    rintro n hn rfl
    exact h ⟨n, hn, rfl⟩
  · apply hSame
    rintro e he rfl
    exact h ⟨e, he, rfl⟩
  · apply hSame
    rintro u hu rfl
    exact h ⟨u, hu, rfl⟩

end Db

/- Runs of `run_technical_retention_once` among others. -/
def retention :
    Sweeper Db RowKey RetentionInput Change where
  present := Db.HasRow
  remove := Db.removeRows
  queries := retentionStatements
  commits := Commits
  sameRow := Db.SameRow
  remove_nil _ := Db.removeRows_nil
  remove_remove _ _ _ := Db.removeRows_removeRows
  remove_congr _ h := Db.removeRows_congr h
  remove_absent _ _ h := Db.removeRows_absent h

/-
  A commit enqueues no call that puts back to work a dead
  notification which a run has selected and not yet deleted.
-/
def Calm
    (S : Swept Db RowKey RetentionInput) :
    Swept.Act RowKey RetentionInput Change → Prop
| .commit change => ∀ run, S.run = some run →
    ∀ call ∈ change.calls, call.requeueDead = true →
      ∀ n ∈ S.store.notificationOutbox,
        n.dedupeKey = call.dedupeKey → n.status = .dead →
          n.rowKey ∉ run.pending
| _ => True

------------------------------------------------------------
-- Sessions And Updates
------------------------------------------------------------

/- A session that has ended stays so. -/
structure AuthSession.Ages (a a' : AuthSession) : Prop where
  id : a'.id = a.id
  expiresAt : a'.expiresAt = a.expiresAt
  revoked : a.revokedAt.isSome → a'.revokedAt.isSome

namespace AuthSession

theorem Ages.refl (a : AuthSession) : a.Ages a :=
  ⟨rfl, rfl, fun h => h⟩

theorem Ages.trans
    {a b c : AuthSession}
    (h : a.Ages b)
    (h' : b.Ages c) :
    a.Ages c :=
  ⟨h'.id.trans h.id, h'.expiresAt.trans h.expiresAt,
    fun hSome => h'.revoked (h.revoked hSome)⟩

/- Sessions are revoked, and no other field is changed. -/
theorem ages_revoked
    (a : AuthSession)
    (p : Prop) [Decidable p]
    (now : Time) :
    a.Ages (if p then { a with revokedAt := some now }
      else a) := by
  split
  · exact ⟨rfl, rfl, fun _ => rfl⟩
  · exact .refl a

end AuthSession

section Commit

variable {s s' : Db}
variable {ws : List IdentityWrite}
variable {statement : Traffic}
variable {change : Change}

theorem applyAll_appended
    (ws vs : List IdentityWrite)
    (db : Db) :
    applyAll (ws ++ vs) db = applyAll vs (applyAll ws db) := by
  induction ws generalizing db with
  | nil => rfl
  | cons w ws ih => exact ih (w.apply db)

theorem map_eq_ok
    {α β : Type}
    {x : Except Error α}
    {f : α → β}
    {b : β}
    (h : x.map f = .ok b) :
    ∃ a, x = .ok a ∧ f a = b := by
  cases x with
  | error e => cases h
  | ok a =>
      cases h
      exact ⟨a, rfl, rfl⟩

theorem Traffic.enqueue_ok
    {id : Uuid}
    {now : Time}
    {call : TelegramCall}
    (h : Traffic.apply s (.enqueue id now call) = .ok s') :
    ∃ rows, enqueueTelegramCall id now call
        s.notificationOutbox = .ok rows ∧
      { s with notificationOutbox := rows } = s' :=
  map_eq_ok h

theorem Traffic.enqueueEmail_ok
    {id : Uuid}
    {now : Time}
    {values : EmailValues}
    (h : Traffic.apply s (.enqueueEmail id now values) =
      .ok s') :
    ∃ rows, insertEmail id now values s.emailOutbox =
        .ok rows ∧
      { s with emailOutbox := rows } = s' :=
  map_eq_ok h

theorem sessions_applyAll
    (ws : List IdentityWrite)
    {a : AuthSession}
    (hMem : a ∈ s.authSessions) :
    ∃ a' ∈ (applyAll ws s).authSessions, a.Ages a' := by
  induction ws generalizing s a with
  | nil => exact ⟨a, hMem, .refl a⟩
  | cons w ws ih =>
      have hOne : ∃ b ∈ (w.apply s).authSessions,
          a.Ages b := by
        cases w with
        | revokeSessions users now =>
            exact ⟨_, List.mem_map_of_mem hMem,
              a.ages_revoked _ now⟩
        | _ => exact ⟨a, hMem, .refl a⟩
      rcases hOne with ⟨b, hb, hAges⟩
      rcases ih hb with ⟨c, hc, hAges'⟩
      exact ⟨c, hc, hAges.trans hAges'⟩

theorem Traffic.sessions
    {a : AuthSession}
    (h : Traffic.apply s statement = .ok s')
    (hMem : a ∈ s.authSessions) :
    ∃ a' ∈ s'.authSessions, a.Ages a' := by
  cases statement with
  | issueSession user id tokenHash ttlSeconds now =>
      cases h
      exact ⟨_, List.mem_append_left _
        (List.mem_map_of_mem hMem), a.ages_revoked _ now⟩
  | revokeSession id now =>
      cases h
      exact ⟨_, List.mem_map_of_mem hMem,
        a.ages_revoked _ now⟩
  | enqueue id now call =>
      rcases enqueue_ok h with ⟨rows, _, rfl⟩
      exact ⟨a, hMem, .refl a⟩
  | enqueueEmail id now values =>
      rcases enqueueEmail_ok h with ⟨rows, _, rfl⟩
      exact ⟨a, hMem, .refl a⟩
  | _ =>
      cases h
      exact ⟨a, hMem, .refl a⟩

/- Sessions are not deleted by others. -/
theorem Commits.sessions
    {a : AuthSession}
    (h : Commits change s s')
    (hMem : a ∈ s.authSessions) :
    ∃ a' ∈ s'.authSessions, a.Ages a' := by
  cases h with
  | identity _ _ _ _ => exact sessions_applyAll _ hMem
  | traffic hApply _ _ => exact Traffic.sessions hApply hMem

/- A processed update stays processed. -/
theorem Commits.updates
    {u : TelegramUpdate}
    (h : Commits change s s')
    (hMem : u ∈ s.telegramUpdates)
    (hProcessed : u.processedAt.isSome) :
    ∃ u' ∈ s'.telegramUpdates,
      u'.updateId = u.updateId ∧ u'.processedAt.isSome := by
  cases h with
  | identity _ _ _ _ =>
      rw [applyAll_eq]
      exact ⟨u, hMem, rfl, hProcessed⟩
  | @traffic statement _ _ hApply _ _ =>
      cases statement with
      | registerUpdate updateId now =>
          cases hApply
          refine ⟨u, ?_, rfl, hProcessed⟩
          simp only [registerTelegramUpdate]
          split
          · exact hMem
          · exact List.mem_append_left _ hMem
      | updateProcessed updateId now =>
          cases hApply
          refine ⟨_, List.mem_map_of_mem hMem, ?_⟩
          split
          · exact ⟨rfl, rfl⟩
          · exact ⟨rfl, hProcessed⟩
      | enqueue id now call =>
          rcases Traffic.enqueue_ok hApply with ⟨rows, _, rfl⟩
          exact ⟨u, hMem, rfl, hProcessed⟩
      | enqueueEmail id now values =>
          rcases Traffic.enqueueEmail_ok hApply with
            ⟨rows, _, rfl⟩
          exact ⟨u, hMem, rfl, hProcessed⟩
      | _ =>
          cases hApply
          exact ⟨u, hMem, rfl, hProcessed⟩

end Commit

------------------------------------------------------------
-- Callbacks
------------------------------------------------------------

/- No pending request is deleted. -/
def SparesPending (ws : List IdentityWrite) : Prop :=
  ∀ owner, .deletePending owner ∉ ws

section Callbacks

variable {D : Discipline Db Lock}
variable {env : IdentityEnv}
variable {held : List Lock}
variable {s s' : Db}
variable {ws vs : List IdentityWrite}
variable {c : AccessDecisionCallback}

theorem SparesPending.append
    (h : SparesPending ws)
    (h' : SparesPending vs) :
    SparesPending (ws ++ vs) := by
  intro owner hMem
  rcases List.mem_append.mp hMem with hMem | hMem
  · exact h owner hMem
  · exact h' owner hMem

theorem Modest.sparesPending
    (h : Modest ws) :
    SparesPending ws := by
  intro owner hMem
  cases h _ hMem

theorem sparesPending_notice
    (call : TelegramCall) :
    SparesPending [notice env call] := by
  simp [SparesPending, notice]

theorem sparesPending_answerWrites
    {press : AccessCallback}
    {text : Text} :
    SparesPending (answerWrites env press text) := by
  unfold answerWrites
  split <;> simp [SparesPending, notice]

theorem Announces.sparesPending
    {request : AccessRequest}
    (h : Announces env request ws) :
    SparesPending ws := by
  cases h <;> simp [SparesPending, notice]

/- Where none is deleted all callbacks stay. -/
theorem SparesPending.callbacks
    (h : SparesPending ws)
    (hMem : c ∈ s.accessDecisionCallbacks) :
    c ∈ (applyAll ws s).accessDecisionCallbacks := by
  induction ws generalizing s with
  | nil => exact hMem
  | cons w ws ih =>
      apply ih fun owner hRest =>
        h owner (List.mem_cons_of_mem w hRest)
      cases w with
      | deletePending owner =>
          exact absurd List.mem_cons_self (h owner)
      | newCallbacks approve reject =>
          exact List.mem_append_left _ hMem
      | _ => exact hMem

/- A reset deletes callbacks of pending requests only. -/
theorem Reset.callbacks
    {actor target : User}
    {updates : List UserUpdate}
    {r : AccessRequest}
    (hValid : RequestsValid s)
    (h : Reset D env actor target ws updates held s)
    (hMem : c ∈ s.accessDecisionCallbacks)
    (hRequest : r ∈ s.accessRequests)
    (hId : r.id = c.accessRequestId)
    (hStatus : r.status ≠ .pending) :
    c ∈ (applyAll ws s).accessDecisionCallbacks := by
  rcases h.writes with
    ⟨quiet, flush, roles, hQuiet, hFlush, hRoles, rfl⟩
  have hFirst : SparesPending
      ([.revokeSessions [target.id] env.now] ++ quiet) := by
    apply SparesPending.append (by simp [SparesPending])
    intro owner hDelete
    rcases hQuiet _ hDelete with ⟨_, _, hEq⟩
    cases hEq
  have hRest : SparesPending (flush ++ accessEventWrites
      (transitionUserAccess env target actor.id .blocked).2 ++
        roles ++ [.deleteIdentity target.id]) :=
    (((hFlush.modest.append modest_accessEvent).append
      (modest_roles hRoles.roleEvents)).sparesPending).append
        (by simp [SparesPending])
  have hSame : (applyAll ([.revokeSessions [target.id]
      env.now] ++ quiet) s).accessRequests =
        s.accessRequests := by
    rw [IdentityWrite.accessRequests_applyAll,
      onRequestsAll_append,
      (sparesAccess_silences hQuiet).requests]
    rfl
  have hSplit : ([.revokeSessions [target.id] env.now] ++
      quiet ++ [.deletePending target.id] ++ flush ++
      accessEventWrites (transitionUserAccess env target
        actor.id .blocked).2 ++ roles ++
      [.deleteIdentity target.id]) =
      ([.revokeSessions [target.id] env.now] ++ quiet) ++
        ([.deletePending target.id] ++ (flush ++
          accessEventWrites (transitionUserAccess env target
            actor.id .blocked).2 ++ roles ++
          [.deleteIdentity target.id])) := by
    simp only [List.append_assoc]
  rw [hSplit, applyAll_appended, applyAll_appended]
  apply hRest.callbacks
  refine List.mem_filter.mpr ⟨hFirst.callbacks hMem, ?_⟩
  rw [decide_eq_true_iff]
  rintro ⟨x, hx, hPending, hxId⟩
  rw [hSame] at hx
  have hFind := Table.find_of_mem hValid.ids hx
  rw [hxId, ← hId, Table.find_of_mem hValid.ids hRequest]
    at hFind
  cases hFind
  exact hStatus (pending_of_isPendingOf hPending).2

theorem Mutated.callbacks
    {actor : User}
    {targetUserId : Uuid}
    {mutation : AdminMutation}
    {updates : List UserUpdate}
    {changed : Bool}
    {r : AccessRequest}
    (hValid : RequestsValid s)
    (h : Mutated D env actor targetUserId held s mutation ws
      updates changed)
    (hMem : c ∈ s.accessDecisionCallbacks)
    (hRequest : r ∈ s.accessRequests)
    (hId : r.id = c.accessRequestId)
    (hStatus : r.status ≠ .pending) :
    c ∈ (applyAll ws s).accessDecisionCallbacks := by
  cases h with
  | accessSame _ => exact hMem
  | access _ _ _ _ =>
      apply SparesPending.callbacks _ hMem
      apply SparesPending.append
      · simp [SparesPending]
      · split <;> simp [SparesPending]
  | decide _ hDecided _ =>
      exact (hDecided.modest.sparesPending.append
        (sparesPending_notice _)).callbacks hMem
  | roleSame _ => exact hMem
  | role _ _ _ _ _ => exact hMem
  | reset _ hReset =>
      exact hReset.callbacks hValid hMem hRequest hId hStatus

/- Callbacks of decided requests are not deleted. -/
theorem Wrote.callbacks
    {result : IdentityResult}
    {r : AccessRequest}
    (hValid : RequestsValid s)
    (h : Wrote D env held s result ws)
    (hMem : c ∈ s.accessDecisionCallbacks)
    (hRequest : r ∈ s.accessRequests)
    (hId : r.id = c.accessRequestId)
    (hStatus : r.status ≠ .pending) :
    c ∈ (applyAll ws s).accessDecisionCallbacks := by
  cases h with
  | recovered hReconciled =>
      exact hReconciled.modest.sparesPending.callbacks hMem
  | managed _ hMutated =>
      exact hMutated.callbacks hValid hMem hRequest hId hStatus
  | requested hRequested hAnnounces _ =>
      exact (hRequested.modest.sparesPending.append
        hAnnounces.sparesPending).callbacks hMem
  | decided hPressed =>
      apply SparesPending.callbacks _ hMem
      cases hPressed with
      | unchanged _ _ _ => exact sparesPending_answerWrites
      | decided _ _ hDecided _ _ =>
          exact (((hDecided.modest.append
            modest_requestWrites).sparesPending).append
              (sparesPending_notice _)).append
                sparesPending_answerWrites
  | rotated hRotated =>
      exact hRotated.modest.sparesPending.callbacks hMem

/- Neither do decided requests change. -/
theorem Commits.callback
    {change : Change}
    {r : AccessRequest}
    (h : Commits change s s')
    (hMem : c ∈ s.accessDecisionCallbacks)
    (hRequest : r ∈ s.accessRequests)
    (hId : r.id = c.accessRequestId)
    (hStatus : r.status ≠ .pending) :
    c ∈ s'.accessDecisionCallbacks ∧
      r ∈ s'.accessRequests := by
  cases h with
  | identity hD hWrote hKeys _ =>
      exact ⟨hWrote.callbacks hKeys.requests hMem hRequest hId
          hStatus,
        (hWrote.turned hD hKeys.requests).requestsTurn.settled
          hKeys.requests hRequest hStatus⟩
  | @traffic statement _ _ hApply _ _ =>
      cases statement with
      | enqueue id now call =>
          rcases Traffic.enqueue_ok hApply with ⟨rows, _, rfl⟩
          exact ⟨hMem, hRequest⟩
      | enqueueEmail id now values =>
          rcases Traffic.enqueueEmail_ok hApply with
            ⟨rows, _, rfl⟩
          exact ⟨hMem, hRequest⟩
      | _ =>
          cases hApply
          exact ⟨hMem, hRequest⟩

end Callbacks

------------------------------------------------------------
-- Outboxes
------------------------------------------------------------

section Copies

variable {ρ χ γ : Type}
variable {C : OutboxCopy ρ χ γ}
variable {rows rows' : List ρ}
variable {row : ρ}

/- A row that is through is the same delivery in `rows'`. -/
def StaysIn
    (C : OutboxCopy ρ χ γ)
    (row : ρ)
    (rows' : List ρ) : Prop :=
  ∃ row' ∈ rows', C.delivery row' = C.delivery row

theorem staysIn_of_mem
    (h : C.delivery row ∈ rows'.map C.delivery) :
    StaysIn C row rows' := by
  rcases List.mem_map.mp h with ⟨row', hMem, hSame⟩
  exact ⟨row', hMem, hSame⟩

theorem OutboxCopy.Refines.staysIn_claim
    (hC : C.Refines)
    (hIds : ((rows.map C.delivery).map Delivery.id).Nodup)
    (settings : ClaimSettings)
    (now : Time)
    (locked : List Uuid)
    (newToken : Uuid → Uuid)
    (hMem : row ∈ rows)
    (hStatus : (C.delivery row).status ≠ .pending) :
    StaysIn C row
      (C.claimBatch settings now locked newToken rows).2 := by
  have hBatch : C.claimBatch settings now locked newToken
      rows = (_, _) := rfl
  rcases hC.claim hIds hBatch with ⟨hRows, _, hPicks⟩
  apply staysIn_of_mem
  rw [hRows]
  exact Board.mem_takenBy hIds hPicks
    (List.mem_map_of_mem hMem) hStatus

theorem OutboxCopy.Refines.staysIn_sent
    (hC : C.Refines)
    (hIds : ((rows.map C.delivery).map Delivery.id).Nodup)
    (claim : γ)
    (now : Time)
    (hMem : row ∈ rows)
    (hStatus : (C.delivery row).status ≠ .pending) :
    StaysIn C row (C.markSent claim now rows) := by
  apply staysIn_of_mem
  rw [hC.sent (o := ⟨claim, now⟩) hIds]
  exact Board.mem_settled _ _ (List.mem_map_of_mem hMem)
    hStatus

theorem OutboxCopy.Refines.staysIn_failed
    (hC : C.Refines)
    (hIds : ((rows.map C.delivery).map Delivery.id).Nodup)
    (claim : γ)
    (error : Text)
    (maxAttempts : Nat)
    (now : Time)
    (hMem : row ∈ rows)
    (hStatus : (C.delivery row).status ≠ .pending) :
    StaysIn C row
      (C.markFailed claim error maxAttempts now rows) := by
  apply staysIn_of_mem
  rcases hC.failed ⟨claim, now⟩ error maxAttempts now hIds with
    ⟨retryAt, hRows⟩
  rw [hRows]
  exact Board.mem_settled _ _ (List.mem_map_of_mem hMem)
    hStatus

end Copies

section Outboxes

variable {s s' : Db}
variable {rows : List NotificationOutbox}
variable {n : NotificationOutbox}
variable {ws : List IdentityWrite}
variable {change : Change}

/- The call does not put this notification back to work. -/
def Leaves
    (n : NotificationOutbox)
    (call : TelegramCall) : Prop :=
  call.requeueDead = true → n.dedupeKey = call.dedupeKey →
    n.status ≠ .dead

/- Such a call leaves the row as it is. -/
theorem mem_upsert
    (hIds : (rows.map NotificationOutbox.id).Nodup)
    (id : Uuid)
    (now : Time)
    {call : TelegramCall}
    (hLeaves : Leaves n call)
    (hMem : n ∈ rows) :
    n ∈ (upsertNotification id now call rows).toOption.getD
      rows := by
  unfold upsertNotification
  split
  · rename_i row hFind
    split
    · rename_i hDead
      have hKey : row.dedupeKey = call.dedupeKey :=
        Table.key_of_find hFind
      refine Table.mem_rewrite.mpr (Or.inl ⟨hMem, ?_⟩)
      intro hId
      have hSame : n = row := List.inj_on_of_nodup_map hIds
        hMem (Table.mem_of_find hFind) hId
      exact hLeaves hDead.1 (hSame ▸ hKey) (hSame ▸ hDead.2)
    · exact hMem
  · split
    · exact hMem
    · exact List.mem_append_left _ hMem

/- Ids of notifications stay unique. -/
theorem nodup_onOutbox
    (w : IdentityWrite)
    (hIds : (rows.map NotificationOutbox.id).Nodup) :
    ((w.onOutbox rows).map NotificationOutbox.id).Nodup := by
  cases w with
  | notify id now call =>
      rw [onOutbox]
      rcases upsert_cases id now call rows with
        hSame | ⟨k, hRows, _⟩ | ⟨hRows, _, hFree⟩
      · rw [hSame]
        exact hIds
      · have hKey : ∀ row : NotificationOutbox,
            (requeuedNotification now row).id = row.id :=
          fun _ => rfl
        rw [hRows, Table.map_key_rewrite hKey]
        exact hIds
      · rw [hRows, List.map_append]
        refine List.nodup_append.mpr ⟨hIds, by simp, ?_⟩
        intro a ha b hb hEq
        rcases List.mem_map.mp ha with ⟨row, hRow, rfl⟩
        rw [List.map_singleton, List.mem_singleton] at hb
        rw [Table.find_eq_none_iff] at hFree
        exact hFree row hRow (hEq.trans hb)
  | silence dedupeKey now =>
      have hSame : (rows.map (silenced dedupeKey now)).map
          NotificationOutbox.id =
            rows.map NotificationOutbox.id := by
        rw [List.map_map]
        apply List.map_congr_left
        intro row _
        rw [Function.comp_apply, silenced]
        split <;> rfl
      rw [onOutbox, hSame]
      exact hIds
  | _ => exact hIds

/- A row that is through stays where no call requeues it. -/
theorem mem_onOutboxAll_of_leaves
    (hIds : (rows.map NotificationOutbox.id).Nodup)
    (hLeaves : ∀ id now call, .notify id now call ∈ ws →
      Leaves n call)
    (hStatus : n.status ≠ .pending)
    (hMem : n ∈ rows) :
    n ∈ onOutboxAll ws rows := by
  induction ws generalizing rows with
  | nil => exact hMem
  | cons w ws ih =>
      apply ih (nodup_onOutbox w hIds)
      · exact fun id now call hRest => hLeaves id now call
          (List.mem_cons_of_mem w hRest)
      · cases w with
        | notify id now call =>
            exact mem_upsert hIds id now
              (hLeaves id now call List.mem_cons_self) hMem
        | silence dedupeKey now =>
            refine List.mem_map.mpr ⟨n, hMem, ?_⟩
            rw [silenced, if_neg]
            exact fun hAll => hStatus hAll.2.1
        | _ => exact hMem

/- Calm commits leave notifications that are through alone. -/
theorem Commits.notification
    (h : Commits change s s')
    (hLeaves : ∀ call ∈ change.calls, Leaves n call)
    (hStatus : n.status ≠ .pending)
    (hMem : n ∈ s.notificationOutbox) :
    StaysIn telegramOutbox n s'.notificationOutbox := by
  have hSame : ∀ rows, n ∈ rows →
      StaysIn telegramOutbox n rows :=
    fun rows hRow => ⟨n, hRow, rfl⟩
  cases h with
  | @identity D env held result ws _ _ _ hKeys _ =>
      rw [notificationOutbox_applyAll]
      apply hSame
      apply mem_onOutboxAll_of_leaves hKeys.notificationOutbox
        _ hStatus hMem
      intro id now call hCall
      exact hLeaves call (List.mem_filterMap.mpr
        ⟨_, hCall, rfl⟩)
  | @traffic statement _ _ hApply hKeys _ =>
      have hIds : ((s.notificationOutbox.map
          telegramOutbox.delivery).map Delivery.id).Nodup := by
        rw [List.map_map]
        exact hKeys.notificationOutbox
      cases statement with
      | enqueue id now call =>
          rcases Traffic.enqueue_ok hApply with
            ⟨rows, hRows, rfl⟩
          have hUpsert := mem_upsert hKeys.notificationOutbox
            id now (hLeaves call (by simp [Change.calls])) hMem
          unfold enqueueTelegramCall at hRows
          split at hRows
          · cases hRows
          split at hRows
          · cases hRows
          rw [hRows] at hUpsert
          exact hSame _ hUpsert
      | claimNotifications settings now locked newToken =>
          cases hApply
          exact telegramOutbox_refines.staysIn_claim hIds
            settings now locked newToken hMem hStatus
      | notificationSent claim now =>
          cases hApply
          exact telegramOutbox_refines.staysIn_sent hIds claim
            now hMem hStatus
      | notificationFailed claim error maxAttempts now =>
          cases hApply
          exact telegramOutbox_refines.staysIn_failed hIds claim
            error maxAttempts now hMem hStatus
      | enqueueEmail id now values =>
          rcases Traffic.enqueueEmail_ok hApply with
            ⟨rows, _, rfl⟩
          exact hSame _ hMem
      | _ =>
          cases hApply
          exact hSame _ hMem

/- Emails that are through are left alone. -/
theorem Commits.email
    {e : EmailOutbox}
    (h : Commits change s s')
    (hStatus : e.status ≠ .pending)
    (hMem : e ∈ s.emailOutbox) :
    StaysIn emailOutbox e s'.emailOutbox := by
  have hSame : ∀ rows, e ∈ rows → StaysIn emailOutbox e rows :=
    fun rows hRow => ⟨e, hRow, rfl⟩
  cases h with
  | identity _ _ _ _ =>
      rw [applyAll_eq]
      exact hSame _ hMem
  | @traffic statement _ _ hApply hKeys _ =>
      have hIds : ((s.emailOutbox.map
          emailOutbox.delivery).map Delivery.id).Nodup := by
        rw [List.map_map]
        exact hKeys.emailOutbox
      cases statement with
      | enqueue id now call =>
          rcases Traffic.enqueue_ok hApply with ⟨rows, _, rfl⟩
          exact hSame _ hMem
      | enqueueEmail id now values =>
          rcases Traffic.enqueueEmail_ok hApply with
            ⟨rows, hRows, rfl⟩
          apply hSame
          unfold insertEmail at hRows
          split at hRows
          · cases hRows
            exact hMem
          · split at hRows
            · cases hRows
            · cases hRows
              exact List.mem_append_left _ hMem
      | claimEmails settings now locked newToken =>
          cases hApply
          exact emailOutbox_refines.staysIn_claim hIds settings
            now locked newToken hMem hStatus
      | emailFinished claim error maxAttempts now =>
          cases hApply
          cases error with
          | none =>
              exact emailOutbox_refines.staysIn_sent hIds claim
                now hMem hStatus
          | some error =>
              exact emailOutbox_refines.staysIn_failed hIds
                claim error maxAttempts now hMem hStatus
      | _ =>
          cases hApply
          exact hSame _ hMem

end Outboxes

------------------------------------------------------------
-- What Retention Deletes
------------------------------------------------------------

section Deleted

variable {i : RetentionInput}
variable {s s' : Db}

theorem isBefore_le
    {cutoff : Time}
    {retentionDays : Nat}
    (h : cutoff < i.cutoff retentionDays) :
    cutoff < i.now :=
  Nat.lt_of_lt_of_le h (Nat.sub_le _ _)

theorem mem_candidates
    {ρ : Type}
    {statement : RetentionStatement ρ}
    {batchSize : Nat}
    {rows : List ρ}
    {k : RowKey}
    (h : k ∈ statement.candidates batchSize rows) :
    ∃ r ∈ rows, statement.candidate r ∧
      statement.rowKey r = k := by
  rcases List.mem_map.mp h with ⟨r, hBatch, hKey⟩
  rcases mem_batchOf hBatch with ⟨hMem, hCandidate⟩
  exact ⟨r, hMem, hCandidate, hKey⟩

/- Candidates are rows whose work is done. -/
theorem deadWork_of_candidate
    {q : Db → List RowKey}
    {k : RowKey}
    (hQuery : q ∈ retentionStatements i)
    (hMem : k ∈ q s) :
    DeadWork i k s := by
  simp only [retentionStatements, List.mem_cons,
    List.not_mem_nil, or_false] at hQuery
  rcases hQuery with rfl | rfl | rfl | rfl | rfl
  · rcases mem_candidates hMem with ⟨a, ha, hOld, rfl⟩
    refine ⟨a, ha, rfl, ?_⟩
    have hEither := of_decide_eq_true hOld
    rcases hEither with hExpired | ⟨hRevoked, _⟩
    · exact Or.inl (isBefore_le hExpired)
    · exact Or.inr hRevoked
  · rcases mem_candidates hMem with ⟨u, hu, hOld, rfl⟩
    exact ⟨u, hu, rfl, (of_decide_eq_true hOld).1⟩
  · rcases mem_candidates hMem with ⟨n, hn, hOld, rfl⟩
    rcases of_decide_eq_true hOld with
      ⟨hStatus, _, hClaimed, hToken⟩
    exact ⟨n, hn, rfl, hStatus, hClaimed, hToken⟩
  · rcases mem_candidates hMem with ⟨e, he, hOld, rfl⟩
    rcases of_decide_eq_true hOld with
      ⟨hStatus, _, hClaimed, hToken⟩
    exact ⟨e, he, rfl, hStatus, hClaimed, hToken⟩
  · rcases mem_candidates hMem with ⟨c, hc, hOld, rfl⟩
    rcases (Option.any_eq_true _ _).mp hOld with
      ⟨r, hJoined, hDecided⟩
    exact ⟨c, hc, rfl, r, Table.mem_of_find hJoined,
      Table.key_of_find hJoined, (of_decide_eq_true hDecided).1⟩

/- Work that is done was done before other rows went. -/
theorem deadWork_of_removed
    {keys : List RowKey}
    {k : RowKey}
    (h : DeadWork i k (s.removeRows keys)) :
    DeadWork i k s := by
  cases k with
  | authSession id =>
      rcases h with ⟨a, ha, hRest⟩
      exact ⟨a, (List.mem_filter.mp ha).1, hRest⟩
  | telegramUpdate updateId =>
      rcases h with ⟨u, hu, hRest⟩
      exact ⟨u, (List.mem_filter.mp hu).1, hRest⟩
  | notification id =>
      rcases h with ⟨n, hn, hRest⟩
      exact ⟨n, (List.mem_filter.mp hn).1, hRest⟩
  | email id =>
      rcases h with ⟨e, he, hRest⟩
      exact ⟨e, (List.mem_filter.mp he).1, hRest⟩
  | accessCallback token =>
      rcases h with ⟨c, hc, hRest⟩
      exact ⟨c, (List.mem_filter.mp hc).1, hRest⟩

theorem not_pending_of_through
    {status : DeliveryStatus}
    (h : status = .sent ∨ status = .dead) :
    status ≠ .pending := by
  rcases h with rfl | rfl <;> simp

/- Calm commits leave dead work dead. -/
theorem Commits.deadWork
    {change : Change}
    {k : RowKey}
    (h : Commits change s s')
    (hCalm : ∀ call ∈ change.calls, call.requeueDead = true →
      ∀ n ∈ s.notificationOutbox,
        n.dedupeKey = call.dedupeKey → n.status = .dead →
          n.rowKey ≠ k)
    (hDead : DeadWork i k s) :
    DeadWork i k s' := by
  cases k with
  | authSession id =>
      rcases hDead with ⟨a, ha, rfl, hEnded⟩
      rcases h.sessions ha with ⟨a', ha', hAges⟩
      refine ⟨a', ha', hAges.id, ?_⟩
      rw [hAges.expiresAt]
      exact hEnded.imp id hAges.revoked
  | telegramUpdate updateId =>
      rcases hDead with ⟨u, hu, rfl, hProcessed⟩
      exact h.updates hu hProcessed
  | notification id =>
      rcases hDead with ⟨n, hn, rfl, hStatus, hClaims⟩
      have hLeaves : ∀ call ∈ change.calls, Leaves n call := by
        intro call hCall hRequeue hKey hDeadRow
        exact hCalm call hCall hRequeue n hn hKey hDeadRow rfl
      rcases h.notification hLeaves
          (not_pending_of_through hStatus) hn with
        ⟨n', hn', hSame⟩
      simp only [telegramOutbox, NotificationOutbox.delivery,
        Delivery.mk.injEq] at hSame
      rcases hSame with ⟨hId, hStatus', _, _, hAt, hToken⟩
      exact ⟨n', hn', hId, hStatus' ▸ hStatus,
        hAt.trans hClaims.1, hToken.trans hClaims.2⟩
  | email id =>
      rcases hDead with ⟨e, he, rfl, hStatus, hClaims⟩
      rcases h.email (not_pending_of_through hStatus) he with
        ⟨e', he', hSame⟩
      simp only [emailOutbox, EmailOutbox.delivery,
        Delivery.mk.injEq] at hSame
      rcases hSame with ⟨hId, hStatus', _, _, hAt, hToken⟩
      exact ⟨e', he', hId, hStatus' ▸ hStatus,
        hAt.trans hClaims.1, hToken.trans hClaims.2⟩
  | accessCallback token =>
      rcases hDead with ⟨c, hc, rfl, r, hr, hId, hStatus⟩
      have hDecided : r.status ≠ .pending := by
        rcases hStatus with hEq | hEq <;> simp [hEq]
      rcases h.callback hc hr hId hDecided with ⟨hc', hr'⟩
      exact ⟨c, hc', rfl, r, hr', hId, hStatus⟩

/- Retention takes only rows whose work is done. -/
theorem retention_spares :
    Swept.Spares retention Calm DeadWork where
  asked _ _ hQuery _ _ hMem := deadWork_of_candidate hQuery hMem
  kept _ _ _ _ h := deadWork_of_removed h
  stable := by
    intro s s' r change hCalm hCommit k hk hDead
    apply Commits.deadWork hCommit _ hDead
    intro call hCall hRequeue n hn hKey hStatus hSame
    exact hCalm r rfl call hCall hRequeue n hn hKey hStatus
      (hSame ▸ hk)

end Deleted

------------------------------------------------------------
-- Repeating A Run
------------------------------------------------------------

/- The table after one batch of the statement. -/
def RetentionStatement.swept {ρ : Type}
    (statement : RetentionStatement ρ)
    (batchSize : Nat) : List ρ → List ρ :=
  sweepRows statement.rowKey statement.candidate
    statement.before batchSize

/- The rows that are no candidates. -/
def RetentionStatement.kept {ρ : Type}
    (statement : RetentionStatement ρ)
    (rows : List ρ) : List ρ :=
  rows.filter (fun r => ¬ statement.candidate r)

namespace RetentionInput

variable (i : RetentionInput)
variable (db : Db)

def batchSize : Nat := i.settings.maintenanceRetentionBatchSize

/- The database after one undisturbed run. -/
def purgedOnce : Db :=
  { db with
    authSessions := i.authSessions.swept i.batchSize
      db.authSessions
    telegramUpdates := i.telegramUpdates.swept i.batchSize
      db.telegramUpdates
    notificationOutbox := i.notificationOutbox.swept
      i.batchSize db.notificationOutbox
    emailOutbox := i.emailOutbox.swept i.batchSize
      db.emailOutbox
    accessDecisionCallbacks :=
      (i.accessCallbacks db.accessRequests).swept i.batchSize
        db.accessDecisionCallbacks }

/- The database without the rows that are eligible. -/
def purged : Db :=
  { db with
    authSessions := i.authSessions.kept db.authSessions
    telegramUpdates := i.telegramUpdates.kept
      db.telegramUpdates
    notificationOutbox := i.notificationOutbox.kept
      db.notificationOutbox
    emailOutbox := i.emailOutbox.kept db.emailOutbox
    accessDecisionCallbacks :=
      (i.accessCallbacks db.accessRequests).kept
        db.accessDecisionCallbacks }

end RetentionInput

section Repeats

variable {i : RetentionInput}
variable {db : Db}

/- Keys of another table take no row. -/
theorem filter_other
    {ρ ρ' : Type}
    {rowKey : ρ → RowKey}
    {statement : RetentionStatement ρ'}
    (hOther : ∀ r r', statement.rowKey r' ≠ rowKey r)
    (batchSize : Nat)
    (rows : List ρ)
    (rows' : List ρ') :
    rows.filter (fun r =>
      rowKey r ∉ statement.candidates batchSize rows') =
        rows := by
  rw [List.filter_eq_self]
  intro r _
  rw [decide_eq_true_iff]
  intro hMem
  rcases mem_candidates hMem with ⟨r', _, _, hKey⟩
  exact hOther r r' hKey

theorem removeRows_authSessions
    (n : Nat)
    {rows : List AuthSession}
    (hRows : db.authSessions = rows) :
    db.removeRows (i.authSessions.candidates n rows) =
      { db with
        authSessions := i.authSessions.swept n rows } := by
  subst hRows
  unfold Db.removeRows
  congr 1
  all_goals
    apply filter_other
    rintro r r' ⟨⟩

theorem removeRows_telegramUpdates
    (n : Nat)
    {rows : List TelegramUpdate}
    (hRows : db.telegramUpdates = rows) :
    db.removeRows (i.telegramUpdates.candidates n rows) =
      { db with
        telegramUpdates := i.telegramUpdates.swept n rows } := by
  subst hRows
  unfold Db.removeRows
  congr 1
  all_goals
    apply filter_other
    rintro r r' ⟨⟩

theorem removeRows_notificationOutbox
    (n : Nat)
    {rows : List NotificationOutbox}
    (hRows : db.notificationOutbox = rows) :
    db.removeRows (i.notificationOutbox.candidates n rows) =
      { db with
        notificationOutbox := i.notificationOutbox.swept n rows } := by
  subst hRows
  unfold Db.removeRows
  congr 1
  all_goals
    apply filter_other
    rintro r r' ⟨⟩

theorem removeRows_emailOutbox
    (n : Nat)
    {rows : List EmailOutbox}
    (hRows : db.emailOutbox = rows) :
    db.removeRows (i.emailOutbox.candidates n rows) =
      { db with
        emailOutbox := i.emailOutbox.swept n rows } := by
  subst hRows
  unfold Db.removeRows
  congr 1
  all_goals
    apply filter_other
    rintro r r' ⟨⟩

theorem removeRows_accessCallbacks
    (n : Nat)
    {requests : List AccessRequest}
    {rows : List AccessDecisionCallback}
    (hRows : db.accessDecisionCallbacks = rows) :
    db.removeRows
        ((i.accessCallbacks requests).candidates n rows) =
      { db with
        accessDecisionCallbacks :=
          (i.accessCallbacks requests).swept n rows } := by
  subst hRows
  unfold Db.removeRows
  congr 1
  all_goals
    apply filter_other
    rintro r r' ⟨⟩

/- An undisturbed run takes one batch of each table. -/
theorem sweepAll_retention :
    retention.sweepAll db (retentionStatements i) =
      i.purgedOnce db := by
  simp only [Sweeper.sweepAll, retentionStatements,
    List.foldl_cons, List.foldl_nil, retention]
  rw [removeRows_authSessions _ rfl,
    removeRows_telegramUpdates _ rfl,
    removeRows_notificationOutbox _ rfl,
    removeRows_emailOutbox _ rfl,
    removeRows_accessCallbacks _ rfl]
  rfl

/- Runs one after the other take batches of each table. -/
theorem iterate_purgedOnce
    (n : Nat) :
    (i.purgedOnce)^[n] db =
      { db with
        authSessions := (i.authSessions.swept
          i.batchSize)^[n] db.authSessions
        telegramUpdates := (i.telegramUpdates.swept
          i.batchSize)^[n] db.telegramUpdates
        notificationOutbox := (i.notificationOutbox.swept
          i.batchSize)^[n] db.notificationOutbox
        emailOutbox := (i.emailOutbox.swept
          i.batchSize)^[n] db.emailOutbox
        accessDecisionCallbacks :=
          ((i.accessCallbacks db.accessRequests).swept
            i.batchSize)^[n] db.accessDecisionCallbacks } := by
  induction n generalizing db with
  | zero => rfl
  | succ n ih =>
      rw [Function.iterate_succ_apply, ih]
      rfl

/- Enough batches leave the rows that are no candidates. -/
theorem RetentionStatement.iterate_swept
    {ρ κ : Type}
    (statement : RetentionStatement ρ)
    (key : ρ → κ)
    (toKey : κ → RowKey)
    {rows : List ρ}
    {batchSize n : Nat}
    (hKey : statement.rowKey = toKey ∘ key)
    (hInjective : Function.Injective toKey)
    (hBatch : 0 < batchSize)
    (hUnique : (rows.map key).Nodup)
    (hMany : rows.length ≤ n) :
    (statement.swept batchSize)^[n] rows =
      statement.kept rows := by
  apply iterate_sweepRows hBatch
  · rw [hKey, ← List.map_map]
    exact hUnique.map hInjective
  · exact (List.length_filter_le _ _).trans hMany

/- All rows of the five tables. -/
def rowCount (db : Db) : Nat :=
  db.authSessions.length + db.telegramUpdates.length +
    db.notificationOutbox.length + db.emailOutbox.length +
    db.accessDecisionCallbacks.length

theorem iterate_purgedOnce_eq
    {n : Nat}
    (hKeys : KeysValid db)
    (hMany : rowCount db ≤ n) :
    (i.purgedOnce)^[n] db = i.purged db := by
  have hBatch : 0 < i.batchSize := i.settings.batchSize_pos
  unfold rowCount at hMany
  rw [iterate_purgedOnce, RetentionInput.purged,
    i.authSessions.iterate_swept AuthSession.id .authSession
      rfl (fun _ _ h => RowKey.authSession.inj h) hBatch
      hKeys.authSessions (by omega),
    i.telegramUpdates.iterate_swept TelegramUpdate.updateId
      .telegramUpdate rfl
      (fun _ _ h => RowKey.telegramUpdate.inj h) hBatch
      hKeys.telegramUpdates (by omega),
    i.notificationOutbox.iterate_swept NotificationOutbox.id
      .notification rfl
      (fun _ _ h => RowKey.notification.inj h) hBatch
      hKeys.notificationOutbox (by omega),
    i.emailOutbox.iterate_swept EmailOutbox.id .email rfl
      (fun _ _ h => RowKey.email.inj h) hBatch
      hKeys.emailOutbox (by omega),
    (i.accessCallbacks db.accessRequests).iterate_swept
      AccessDecisionCallback.token .accessCallback rfl
      (fun _ _ h => RowKey.accessCallback.inj h) hBatch
      hKeys.accessCallbacks (by omega)]

end Repeats

------------------------------------------------------------
-- Main Result
------------------------------------------------------------

/-
  In every run in which no commit puts back to work a dead
  notification that retention has selected and not yet
  deleted, each row is deleted when its work is done. And a
  run that is repeated alone deletes in the end exactly the
  rows that are eligible.
-/
theorem retention_spares_live_work
    {S : Swept Db RowKey RetentionInput}
    (hReach : Swept.Reachable retention Calm KeysValid S) :
    (∀ i k S', Swept.Step retention S (.delete i k) S' →
      DeadWork i k S.store) ∧
    ∀ i db, KeysValid db →
      (∀ n, ∃ db', retention.Repeats i n db db') ∧
      ∃ m, ∀ n, m ≤ n → ∀ db',
        retention.Repeats i n db db' →
          db' = i.purged db := by
  refine ⟨fun i k S' hStep =>
    retention_spares.deleted hReach hStep, ?_⟩
  intro i db hKeys
  refine ⟨fun n => Sweeper.repeats_exists n, rowCount db, ?_⟩
  intro n hMany db' hRepeats
  rw [Sweeper.repeats_eq hRepeats]
  have hStep : (fun s => retention.sweepAll s
      (retention.queries i)) = i.purgedOnce := by
    funext s
    exact sweepAll_retention
  rw [hStep]
  exact iterate_purgedOnce_eq hKeys hMany

------------------------------------------------------------
-- A Notification That Is Requeued
------------------------------------------------------------

namespace Requeued

def settings : RetentionSettings where
  maintenanceRetentionBatchSize := 1000
  authSessionRetentionDays := 7
  telegramUpdateRetentionDays := 30
  notificationOutboxRetentionDays := 90
  emailOutboxRetentionDays := 90
  accessCallbackRetentionDays := 30
  batchSize_pos := by decide

def input : RetentionInput := ⟨settings, days 100⟩

/- The call that tells administrators of a request. -/
def call : TelegramCall :=
  accessRequestAdminCall
    ⟨id, some 11, "https://app".toList, "support".toList⟩ 11
    ⟨20⟩ ⟨⟨4⟩, 14, none, "Name".toList, none⟩
    "approve".toList "reject".toList

/- It could not be delivered a long time ago. -/
def notification : NotificationOutbox :=
  { newNotification ⟨1⟩ 0 call with status := .dead }

def start : Db :=
  { Db.empty with notificationOutbox := [notification] }

def requeued : Db :=
  { Db.empty with
    notificationOutbox :=
      [requeuedNotification (days 100) notification] }

/- The run before it deletes what it has selected. -/
def run : Sweep Db RowKey RetentionInput :=
  ⟨input, (retentionStatements input).drop 3,
    [.notification ⟨1⟩], []⟩

theorem keysValid_of_one
    (n : NotificationOutbox) :
    KeysValid { Db.empty with notificationOutbox := [n] } := by
  refine ⟨List.nodup_nil, List.nodup_nil, by simp,
    List.nodup_nil, List.nodup_nil, List.nodup_nil,
    List.nodup_nil, ?_⟩
  intro r hr
  cases hr

theorem selected :
    input.notificationOutbox.candidates
      settings.maintenanceRetentionBatchSize [notification] =
        [.notification ⟨1⟩] := by
  decide +kernel

/- The run has selected the notification. -/
theorem run_reachable :
    Swept.Reachable retention Calm KeysValid
      ⟨start, some run⟩ := by
  have hStart : Swept.Reachable retention Calm KeysValid
      ⟨start, none⟩ := .start (keysValid_of_one _)
  have hBegun : Swept.Step retention ⟨start, none⟩
      (.start input) _ := .start
  have hRun := ((hStart.step (by trivial) hBegun).step
    (by trivial) .ask).step (by trivial) .ask
  have hAsked := hRun.step (by trivial) .ask
  have hPending : input.notificationOutbox.candidates
      settings.maintenanceRetentionBatchSize
      (start.removeRows []).notificationOutbox =
        [.notification ⟨1⟩] := by
    rw [Db.removeRows_nil]
    exact selected
  change Swept.Reachable retention Calm KeysValid
    ⟨start, some ⟨input, (retentionStatements input).drop 3,
      input.notificationOutbox.candidates
        settings.maintenanceRetentionBatchSize
        (start.removeRows []).notificationOutbox, []⟩⟩
    at hAsked
  rwa [hPending] at hAsked

theorem requeues :
    Commits (.traffic (.enqueue ⟨2⟩ (days 100) call)) start
      requeued :=
  .traffic rfl (keysValid_of_one _) (keysValid_of_one _)

end Requeued

/-
  The dead notification of a request is put back to work
  after retention has selected it: the DELETE waits for the
  row and deletes its pending version.
-/
theorem requeued_notification_deleted :
    ∃ S S' : Swept Db RowKey RetentionInput,
      Swept.Reachable retention (fun _ _ => True) KeysValid
        S ∧
      Swept.Step retention S
        (.delete Requeued.input (.notification ⟨1⟩)) S' ∧
      (∃ n ∈ S.store.notificationOutbox,
        n.id = ⟨1⟩ ∧ n.status = .pending) ∧
      ¬ DeadWork Requeued.input (.notification ⟨1⟩)
        S.store := by
  have hPermit : ∀ {S : Swept Db RowKey RetentionInput},
      Swept.Reachable retention Calm KeysValid S →
      Swept.Reachable retention (fun _ _ => True) KeysValid
        S := by
    intro S h
    induction h with
    | start hKeys => exact .start hKeys
    | step _ _ hStep ih => exact ih.step trivial hStep
  have hRequeued : Swept.Reachable retention
      (fun _ _ => True) KeysValid
      ⟨Requeued.requeued, some Requeued.run⟩ := by
    apply (hPermit Requeued.run_reachable).step trivial
    apply Swept.Step.commit Requeued.requeues
    intro r hRun k hk
    cases hRun
    cases hk
  refine ⟨_, _, hRequeued, .delete List.mem_cons_self
    ⟨_, List.mem_cons_self, rfl⟩, ?_, ?_⟩
  · exact ⟨_, List.mem_cons_self, rfl, rfl⟩
  · rintro ⟨n, hn, _, hStatus, _⟩
    rw [List.mem_singleton.mp hn] at hStatus
    rcases hStatus with hStatus | hStatus <;> cases hStatus

/- Undisturbed, retention deletes the dead notification. -/
theorem retention_spares_live_work_dead :
    ∃ S S' : Swept Db RowKey RetentionInput,
      Swept.Step retention S
        (.delete Requeued.input (.notification ⟨1⟩)) S' ∧
      DeadWork Requeued.input (.notification ⟨1⟩) S.store := by
  have hStep : Swept.Step retention
      ⟨Requeued.start, some Requeued.run⟩
      (.delete Requeued.input (.notification ⟨1⟩)) _ :=
    .delete List.mem_cons_self ⟨_, List.mem_cons_self, rfl⟩
  exact ⟨_, _, hStep, (retention_spares_live_work
    Requeued.run_reachable).1 _ _ _ hStep⟩
