import DcInventory.Identity.Lifecycle

/-
  This file defines what identity requests rely on about
  requests for access and notifications while they are
  interleaved, and proves that their commits respect it.

  Key definitions include:
    * `Persists`
    * `accessLocks`

  Key theorems include:
    * `Turned.requestsTurn`
    * `RequestsValid.applyAll`
    * `Wrote.accessCommits`
-/

open IdentityWrite

------------------------------------------------------------
-- Requests After A Commit
------------------------------------------------------------

/- What a commit makes of all requests for access. -/
inductive RequestsTurn
    (held : List Lock)
    (s : Db) : List AccessRequest → Prop where
| same : RequestsTurn held s s.accessRequests
| asked {owner inserted} :
    .exclusive (.userRow owner) ∈ held →
    Inserts held s owner inserted →
    RequestsTurn held s (s.accessRequests ++ inserted)
| cleared {owner requests} :
    .exclusive (.userRow owner) ∈ held →
    Clears s owner requests →
    RequestsTurn held s requests

section Requests

variable {s s' : Db}
variable {held : List Lock}
variable {ws : List IdentityWrite}
variable {requests : List AccessRequest}

theorem Turned.requestsTurn
    {result : IdentityResult}
    (h : Turned held s ws result) :
    RequestsTurn held s (applyAll ws s).accessRequests := by
  rw [IdentityWrite.accessRequests_applyAll]
  cases h with
  | nothing _ hSpares =>
      rw [hSpares.requests]
      exact .same
  | access hTurn _ _ _ =>
      rw [hTurn.requests]
      exact .same
  | cleared hTurn _ hClears =>
      rw [hTurn.requests]
      exact .cleared hTurn.locked hClears
  | asked _ hTurn _ hInserts =>
      rw [hTurn.requests]
      exact .asked hTurn.locked hInserts
  | recovered _ hTurn _ hClears =>
      rw [hTurn.requests]
      exact .cleared hTurn.locked hClears

/- A settled request keeps its id and its user. -/
theorem Settles.mem_iff
    {user : Uuid}
    {r r' x : AccessRequest}
    (hValid : RequestsValid s)
    (h : Settles s user r r' requests) :
    x ∈ requests ↔
      (x ∈ s.accessRequests ∧ x ≠ r) ∨ x = r' := by
  rw [h.requests, Table.mem_rewrite]
  constructor
  · rintro (⟨hMem, hId⟩ | ⟨y, hy, hId, rfl⟩)
    · exact Or.inl ⟨hMem, fun hEq => hId (hEq ▸ rfl)⟩
    · exact Or.inr rfl
  · rintro (⟨hMem, hNe⟩ | rfl)
    · refine Or.inl ⟨hMem, fun hId => hNe ?_⟩
      have hFind := Table.find_of_mem hValid.ids hMem
      rw [hId, Table.find_of_mem hValid.ids h.mem] at hFind
      exact (Option.some.inj hFind).symm
    · exact Or.inr ⟨r, h.mem, rfl, rfl⟩

/- A request that is decided is never changed. -/
theorem RequestsTurn.settled
    {r : AccessRequest}
    (hValid : RequestsValid s)
    (h : RequestsTurn held s requests)
    (hMem : r ∈ s.accessRequests)
    (hStatus : r.status ≠ .pending) :
    r ∈ requests := by
  cases h with
  | same => exact hMem
  | asked _ _ => exact List.mem_append_left _ hMem
  | cleared _ hClears =>
      cases hClears with
      | nothing _ => exact hMem
      | settled hSettles =>
          refine (hSettles.mem_iff hValid).mpr
            (Or.inl ⟨hMem, ?_⟩)
          rintro rfl
          exact hStatus
            (pending_of_isPendingOf hSettles.pending).2
      | deleted =>
          refine List.mem_filter.mpr ⟨hMem, ?_⟩
          simp [AccessRequest.isPendingOf, hStatus]

/- Requests of users whose rows are not locked stay. -/
theorem RequestsTurn.ofUser
    {user : Uuid}
    (hValid : RequestsValid s)
    (h : RequestsTurn held s requests)
    (hOther : .exclusive (.userRow user) ∉ held) :
    requests.filter (fun r => r.userId = user) =
      requestsOf user s := by
  have hNot : ∀ {owner : Uuid},
      .exclusive (.userRow owner) ∈ held → owner ≠ user := by
    rintro owner hHeld rfl
    exact hOther hHeld
  cases h with
  | same => rfl
  | asked hHeld hInserts =>
      rw [List.filter_append]
      cases hInserts with
      | nothing _ _ => exact List.append_nil _
      | new _ _ _ hPending =>
          have hUser := (pending_of_isPendingOf hPending).1
          rw [List.filter_cons_of_neg (by
            simpa [hUser] using hNot hHeld)]
          exact List.append_nil _
  | cleared hHeld hClears =>
      cases hClears with
      | nothing _ => rfl
      | settled hSettles =>
          rename_i r r'
          have hUser := (pending_of_isPendingOf
            hSettles.pending).1
          rw [hSettles.requests]
          apply Table.filter_rewrite
          intro x hx hId
          have hSame : x = r := by
            have hFind := Table.find_of_mem hValid.ids hx
            rw [hId, Table.find_of_mem hValid.ids
              hSettles.mem] at hFind
            exact (Option.some.inj hFind).symm
          rw [hSame, hSettles.userId, hUser]
          simpa using hNot hHeld
      | deleted =>
          rw [List.filter_filter]
          apply List.filter_congr
          intro r _
          by_cases hUser : r.userId = user
          · simp [hUser, AccessRequest.isPendingOf,
              (hNot hHeld).symm]
          · simp [hUser]

/- Ids of requests are taken under their locks. -/
theorem RequestsTurn.free
    {request : Uuid}
    (h : RequestsTurn held s requests)
    (hOther : .exclusive (.accessRequestPkey request) ∉ held)
    (hFree : s.findAccessRequest request = none) :
    Table.find AccessRequest.id request requests = none := by
  rw [Db.findAccessRequest, Table.find_eq_none_iff] at hFree
  rw [Table.find_eq_none_iff]
  intro x hx hId
  cases h with
  | same => exact hFree x hx hId
  | asked _ hInserts =>
      rcases List.mem_append.mp hx with hx | hx
      · exact hFree x hx hId
      cases hInserts with
      | nothing _ _ => cases hx
      | new _ _ hPkey _ =>
          rw [List.mem_singleton.mp hx] at hId
          exact hOther (hId ▸ hPkey)
  | cleared _ hClears =>
      cases hClears with
      | nothing _ => exact hFree x hx hId
      | settled hSettles =>
          rw [hSettles.requests, Table.mem_rewrite] at hx
          rcases hx with ⟨hx, _⟩ | ⟨y, _, _, rfl⟩
          · exact hFree x hx hId
          · exact hFree _ hSettles.mem
              (hSettles.id.symm.trans hId)
      | deleted =>
          exact hFree x (List.mem_filter.mp hx).1 hId

/- After the commit no request of the user is pending. -/
theorem Clears.none_pending
    {user : Uuid}
    (hValid : RequestsValid s)
    (h : Clears s user requests) :
    ∀ x ∈ requests, ¬ x.isPendingOf user := by
  intro x hx hPending
  cases h with
  | nothing hNone => exact hNone x hx hPending
  | settled hSettles =>
      rcases (hSettles.mem_iff hValid).mp hx with
        ⟨hMem, hNe⟩ | rfl
      · rcases pending_of_isPendingOf hPending with
          ⟨hUser, hStatus⟩
        rcases pending_of_isPendingOf hSettles.pending with
          ⟨hUser', hStatus'⟩
        exact hNe (hValid.single x hMem _ hSettles.mem hStatus
          hStatus' (hUser.trans hUser'.symm))
      · exact hSettles.decided
          (pending_of_isPendingOf hPending).2
  | deleted =>
      have hNot := (List.mem_filter.mp hx).2
      simp [hPending] at hNot

/- A request that is pending after the commit was so before. -/
theorem Clears.was_pending
    {user : Uuid}
    {x : AccessRequest}
    (hValid : RequestsValid s)
    (h : Clears s user requests)
    (hx : x ∈ requests)
    (hPending : x.status = .pending) :
    x ∈ s.accessRequests := by
  cases h with
  | nothing _ => exact hx
  | settled hSettles =>
      rcases (hSettles.mem_iff hValid).mp hx with ⟨hMem, _⟩ | rfl
      · exact hMem
      · exact absurd hPending hSettles.decided
  | deleted => exact (List.mem_filter.mp hx).1

/- Ids of requests stay unique. -/
theorem RequestsTurn.ids
    (hValid : RequestsValid s)
    (h : RequestsTurn held s requests) :
    (requests.map AccessRequest.id).Nodup := by
  cases h with
  | same => exact hValid.ids
  | asked _ hInserts =>
      cases hInserts with
      | nothing _ _ => simpa using hValid.ids
      | new _ hFree _ _ =>
          rw [Db.findAccessRequest, Table.find_eq_none_iff]
            at hFree
          rw [List.map_append]
          refine List.nodup_append.mpr ⟨hValid.ids, by simp,
            ?_⟩
          intro a ha b hb hEq
          rcases List.mem_map.mp ha with ⟨x, hx, rfl⟩
          rw [List.mem_singleton.mp hb] at hEq
          exact hFree x hx hEq
  | cleared _ hClears =>
      cases hClears with
      | nothing _ => exact hValid.ids
      | settled hSettles =>
          rename_i r r'
          have hKeys : requests.map AccessRequest.id =
              s.accessRequests.map AccessRequest.id := by
            rw [hSettles.requests, Table.rewrite, List.map_map]
            apply List.map_congr_left
            intro x _
            rw [Function.comp_apply]
            split
            · rename_i hId
              exact hSettles.id.trans hId.symm
            · rfl
          rw [hKeys]
          exact hValid.ids
      | deleted =>
          exact hValid.ids.sublist
            (List.filter_sublist.map AccessRequest.id)

/- So do the pending requests of a user. -/
theorem RequestsTurn.single
    (hValid : RequestsValid s)
    (h : RequestsTurn held s requests) :
    ∀ x ∈ requests, ∀ y ∈ requests,
      x.status = .pending → y.status = .pending →
        x.userId = y.userId → x = y := by
  intro x hx y hy hPendingX hPendingY hSame
  cases h with
  | same =>
      exact hValid.single x hx y hy hPendingX hPendingY hSame
  | asked _ hInserts =>
      cases hInserts with
      | nothing _ _ =>
          rw [List.append_nil] at hx hy
          exact hValid.single x hx y hy hPendingX hPendingY
            hSame
      | @new r hNone _ _ hPending =>
          have hUser := (pending_of_isPendingOf hPending).1
          have hNot : ∀ z ∈ s.accessRequests,
              z.status = .pending → z.userId ≠ r.userId := by
            intro z hz hStatus hOwner
            exact hNone z hz (by
              simp [AccessRequest.isPendingOf, hStatus, hOwner,
                hUser])
          rcases List.mem_append.mp hx with hx | hx <;>
            rcases List.mem_append.mp hy with hy | hy
          · exact hValid.single x hx y hy hPendingX hPendingY
              hSame
          · rw [List.mem_singleton.mp hy] at hSame
            exact absurd hSame (hNot x hx hPendingX)
          · rw [List.mem_singleton.mp hx] at hSame
            exact absurd hSame.symm (hNot y hy hPendingY)
          · rw [List.mem_singleton.mp hx,
              List.mem_singleton.mp hy]
  | cleared _ hClears =>
      exact hValid.single x
        (hClears.was_pending hValid hx hPendingX) y
        (hClears.was_pending hValid hy hPendingY) hPendingX
        hPendingY hSame

/- Commits keep requests for access valid. -/
theorem Turned.valid
    {result : IdentityResult}
    (hValid : RequestsValid s)
    (h : Turned held s ws result) :
    RequestsValid (applyAll ws s) where
  users := hValid.users.applyAll ws
  ids := h.requestsTurn.ids hValid
  single := h.requestsTurn.single hValid

end Requests

------------------------------------------------------------
-- Notifications
------------------------------------------------------------

namespace IdentityWrite

/- What a statement does to the outbox. -/
def onOutbox :
    IdentityWrite → List NotificationOutbox →
      List NotificationOutbox
| .notify id now call, rows =>
    (upsertNotification id now call rows).toOption.getD rows
| .silence dedupeKey now, rows =>
    rows.map (silenced dedupeKey now)
| _, rows => rows

/- What statements in a row do to it. -/
def onOutboxAll :
    List IdentityWrite → List NotificationOutbox →
      List NotificationOutbox
| [], rows => rows
| w :: ws, rows => onOutboxAll ws (w.onOutbox rows)

@[simp]
theorem onOutboxAll_append
    (ws vs : List IdentityWrite)
    (rows : List NotificationOutbox) :
    onOutboxAll (ws ++ vs) rows =
      onOutboxAll vs (onOutboxAll ws rows) := by
  induction ws generalizing rows with
  | nil => rfl
  | cons w ws ih => exact ih (w.onOutbox rows)

theorem notificationOutbox_applyAll
    (ws : List IdentityWrite)
    (db : Db) :
    (applyAll ws db).notificationOutbox =
      onOutboxAll ws db.notificationOutbox := by
  induction ws generalizing db with
  | nil => rfl
  | cons w ws ih =>
      rw [applyAll, ih, onOutboxAll]
      cases w <;> rfl

end IdentityWrite

section Outbox

variable {held : List Lock}
variable {ws : List IdentityWrite}
variable {rows : List NotificationOutbox}

/- An upsert appends a row, or rewrites one by its id. -/
theorem upsert_cases
    (id : Uuid)
    (now : Time)
    (call : TelegramCall)
    (rows : List NotificationOutbox) :
    (upsertNotification id now call rows).toOption.getD rows =
        rows ∨
    (∃ k, (upsertNotification id now call
        rows).toOption.getD rows =
      Table.rewrite NotificationOutbox.id k
        (requeuedNotification now) rows ∧
        call.requeueDead = true) ∨
    ((upsertNotification id now call rows).toOption.getD rows =
        rows ++ [newNotification id now call] ∧
      Table.find NotificationOutbox.dedupeKey call.dedupeKey
        rows = none ∧
      Table.find NotificationOutbox.id id rows = none) := by
  unfold upsertNotification
  split
  · split
    · rename_i hDead
      exact Or.inr (Or.inl ⟨_, rfl, hDead.1⟩)
    · exact Or.inl rfl
  · rename_i hNone
    split
    · exact Or.inl rfl
    · rename_i hFree
      refine Or.inr (Or.inr ⟨rfl, hNone, ?_⟩)
      simpa using hFree

/- Keys of notifications do not disappear. -/
theorem keys_onOutboxAll
    {row : NotificationOutbox}
    (hMem : row ∈ rows) :
    ∃ row' ∈ onOutboxAll ws rows,
      row'.dedupeKey = row.dedupeKey := by
  induction ws generalizing rows row with
  | nil => exact ⟨row, hMem, rfl⟩
  | cons w ws ih =>
      have hOne : ∃ row' ∈ w.onOutbox rows,
          row'.dedupeKey = row.dedupeKey := by
        cases w with
        | notify id now call =>
            rw [onOutbox]
            rcases upsert_cases id now call rows with
              hSame | ⟨k, hRows, _⟩ | ⟨hRows, _⟩
            · rw [hSame]
              exact ⟨row, hMem, rfl⟩
            · rw [hRows]
              refine ⟨_, List.mem_map_of_mem hMem, ?_⟩
              split <;> rfl
            · rw [hRows]
              exact ⟨row, List.mem_append_left _ hMem, rfl⟩
        | silence dedupeKey now =>
            refine ⟨_, List.mem_map_of_mem hMem, ?_⟩
            unfold silenced
            split <;> rfl
        | _ => exact ⟨row, hMem, rfl⟩
      rcases hOne with ⟨row₁, hMem₁, hKey₁⟩
      rcases ih hMem₁ with ⟨row₂, hMem₂, hKey₂⟩
      exact ⟨row₂, hMem₂, hKey₂.trans hKey₁⟩

/- A row was there, or has been inserted for a call. -/
theorem mem_onOutboxAll
    {row : NotificationOutbox}
    (hMem : row ∈ onOutboxAll ws rows) :
    (∃ old ∈ rows, old.id = row.id ∧
      old.dedupeKey = row.dedupeKey) ∨
    ∃ now call, .notify row.id now call ∈ ws ∧
      call.dedupeKey = row.dedupeKey := by
  induction ws generalizing rows with
  | nil => exact Or.inl ⟨row, hMem, rfl, rfl⟩
  | cons w ws ih =>
      rcases ih hMem with ⟨old, hOld, hId, hKey⟩ |
        ⟨now, call, hCall, hKey⟩
      · cases w with
        | notify id now call =>
            rw [onOutbox] at hOld
            rcases upsert_cases id now call rows with
              hSame | ⟨k, hRows, _⟩ | ⟨hRows, _⟩
            · rw [hSame] at hOld
              exact Or.inl ⟨old, hOld, hId, hKey⟩
            · rw [hRows, Table.mem_rewrite] at hOld
              rcases hOld with ⟨hOld, _⟩ | ⟨x, hx, _, rfl⟩
              · exact Or.inl ⟨old, hOld, hId, hKey⟩
              · exact Or.inl ⟨x, hx, hId, hKey⟩
            · rw [hRows, List.mem_append] at hOld
              rcases hOld with hOld | hOld
              · exact Or.inl ⟨old, hOld, hId, hKey⟩
              · rw [List.mem_singleton.mp hOld] at hId hKey
                refine Or.inr ⟨now, call, ?_, hKey⟩
                rw [← hId]
                exact List.mem_cons_self
        | silence dedupeKey now =>
            rcases List.mem_map.mp hOld with ⟨x, hx, rfl⟩
            refine Or.inl ⟨x, hx, ?_, ?_⟩
            · rw [← hId]
              unfold silenced
              split <;> rfl
            · rw [← hKey]
              unfold silenced
              split <;> rfl
        | _ => exact Or.inl ⟨old, hOld, hId, hKey⟩
      · exact Or.inr ⟨now, call,
          List.mem_cons_of_mem w hCall, hKey⟩

/- Ids of notifications are taken under their locks. -/
theorem Guarded.free
    {id : Uuid}
    (h : Guarded held ws)
    (hOther : .exclusive (.notificationPkey id) ∉ held)
    (hFree : Table.find NotificationOutbox.id id rows = none) :
    Table.find NotificationOutbox.id id
      (onOutboxAll ws rows) = none := by
  rw [Table.find_eq_none_iff] at hFree ⊢
  intro row hMem hId
  rcases mem_onOutboxAll hMem with
    ⟨old, hOld, hSame, _⟩ | ⟨now, call, hCall, _⟩
  · exact hFree old hOld (hSame.trans hId)
  · exact hOther (hId ▸ h _ now call hCall)

/-
  The statement writes users, requests, events or sessions,
  and deletes no row.
-/
def IdentityWrite.modest : IdentityWrite → Bool
| .notify _ _ _ => false
| .silence _ _ => false
| .newCallbacks _ _ => false
| .deletePending _ => false
| .deleteIdentity _ => false
| _ => true

/- All statements are such. -/
def Modest (ws : List IdentityWrite) : Prop :=
  ∀ w ∈ ws, w.modest = true

theorem Modest.append
    {vs : List IdentityWrite}
    (h : Modest ws)
    (h' : Modest vs) :
    Modest (ws ++ vs) := by
  intro w hw
  rcases List.mem_append.mp hw with hw | hw
  · exact h w hw
  · exact h' w hw

theorem Modest.outbox
    (h : Modest ws) :
    onOutboxAll ws rows = rows := by
  induction ws with
  | nil => rfl
  | cons w ws ih =>
      have hFirst := h w List.mem_cons_self
      have hSame : w.onOutbox rows = rows := by
        cases w with
        | notify _ _ _ => cases hFirst
        | silence _ _ => cases hFirst
        | _ => rfl
      rw [onOutboxAll, hSame]
      exact ih fun v hv => h v (List.mem_cons_of_mem w hv)

/- The statements enqueue no calls. -/
def TellsNobody (ws : List IdentityWrite) : Prop :=
  ∀ id now call, .notify id now call ∉ ws

theorem TellsNobody.append
    {vs : List IdentityWrite}
    (h : TellsNobody ws)
    (h' : TellsNobody vs) :
    TellsNobody (ws ++ vs) := by
  intro id now call hMem
  rcases List.mem_append.mp hMem with hMem | hMem
  · exact h id now call hMem
  · exact h' id now call hMem

theorem TellsNobody.guarded
    (h : TellsNobody ws) :
    Guarded held ws :=
  fun id now call hMem => absurd hMem (h id now call)

theorem Modest.tellsNobody
    (h : Modest ws) :
    TellsNobody ws := by
  intro id now call hMem
  cases h _ hMem

theorem modest_requestWrites
    {request changed : AccessRequest} :
    Modest (requestWrites request changed) := by
  unfold requestWrites
  split <;> simp [Modest, IdentityWrite.modest]

theorem modest_accessEvent
    {event : Option UserAccessEvent} :
    Modest (accessEventWrites event) := by
  cases event <;>
    simp [Modest, accessEventWrites,
      IdentityWrite.modest]

theorem modest_roles
    (h : ∀ w ∈ ws, ∃ e, w = IdentityWrite.roleEvent e) :
    Modest ws := by
  intro w hw
  rcases h w hw with ⟨e, rfl⟩
  rfl

theorem modest_approvalWrites
    {env : IdentityEnv}
    {decidedBy : Uuid}
    {note : String}
    {request : Option AccessRequest} :
    Modest (approvalWrites env decidedBy note
      request) := by
  cases request with
  | none => simp [Modest, approvalWrites]
  | some r => exact modest_requestWrites

theorem FlushesRow.modest
    {row changed : User}
    {updates : List UserUpdate}
    (h : FlushesRow row changed ws updates) :
    Modest ws := by
  rcases h.cases with ⟨_, rfl, _⟩ | ⟨_, rfl, _⟩ <;>
    simp [Modest, IdentityWrite.modest]

theorem FlushesOver.modest
    {row loaded changed : User}
    {updates : List UserUpdate}
    (h : FlushesOver row loaded changed ws updates) :
    Modest ws := by
  rcases h.cases with ⟨_, rfl, _⟩ | ⟨_, rfl, _⟩ <;>
    simp [Modest, IdentityWrite.modest]

end Outbox

------------------------------------------------------------
-- What Transactions Tell
------------------------------------------------------------

/- A call that tells nobody of a decision on a request. -/
inductive Routine (env : IdentityEnv) : TelegramCall → Prop where
| admin (recipient request identity approve reject) :
    Routine env (accessRequestAdminCall env.telegram recipient
      request identity approve reject)
| answer (callbackQueryId text) :
    Routine env (callbackAnswerCall env.telegram
      callbackQueryId text)
| clear (callbackQueryId chatId messageId) :
    Routine env (accessButtonsClearCall env.telegram
      callbackQueryId chatId messageId)

section Calls

variable {D : Discipline Db Lock}
variable {s s' : Db}
variable {held : List Lock}
variable {env : IdentityEnv}
variable {actor loaded owner target : User}
variable {ws vs : List IdentityWrite}
variable {updates : List UserUpdate}

theorem Decided.modest
    {session : Session}
    {decision : AccessRequestStatus}
    {done : Flushed AccessDecision}
    (h : Decided D env session actor target decision done ws
      held s) :
    Modest ws := by
  rcases h.request with ⟨found, rest, _, _, rfl⟩
  apply Modest.append
  · apply Modest.append _ modest_requestWrites
    simp [Modest, IdentityWrite.modest]
  · simp [Modest, IdentityWrite.modest]

theorem Reset.tellsNobody
    (h : Reset D env actor target ws updates held s) :
    TellsNobody ws := by
  rcases h.writes with
    ⟨quiet, flush, roles, hQuiet, hFlush, hRoles, rfl⟩
  have hSilent : TellsNobody quiet := by
    intro id now call hMem
    rcases hQuiet _ hMem with ⟨_, _, hEq⟩
    cases hEq
  apply TellsNobody.append
  · apply TellsNobody.append
    · apply TellsNobody.append
      · apply TellsNobody.append
        · apply TellsNobody.append
          · exact TellsNobody.append (by simp [TellsNobody])
              hSilent
          · simp [TellsNobody]
        · exact hFlush.modest.tellsNobody
      · exact modest_accessEvent.tellsNobody
    · exact (modest_roles hRoles.roleEvents).tellsNobody
  · simp [TellsNobody]

theorem Reconciled.modest
    (h : Reconciled D env loaded ws updates held s) :
    Modest ws := by
  rcases h.writes with
    ⟨row, flush, roles, pending, _, hFlush, hRoles, _, rfl⟩
  exact ((hFlush.modest.append
    (modest_roles hRoles.roleEvents)).append
      modest_accessEvent).append
        modest_approvalWrites

theorem Rotated.modest
    (h : Rotated D env owner target ws updates held s) :
    Modest ws := by
  rcases h.writes with
    ⟨flush, approved, pending, hFlush, _, rfl, _⟩
  have hPlain : ∀ w : IdentityWrite, w.modest = true →
      Modest [w] := by
    intro w hw v hv
    rw [List.mem_singleton.mp hv]
    exact hw
  apply Modest.append
  · apply Modest.append _ modest_approvalWrites
    apply Modest.append
    · apply Modest.append _ modest_accessEvent
      apply Modest.append _ hFlush.modest
      simp [Modest, IdentityWrite.modest]
    · exact hPlain _ rfl
  · simp [Modest, IdentityWrite.modest]

theorem AsksFor.modest
    {user : Uuid}
    {request : AccessRequest}
    (h : AsksFor D env user held s request ws) :
    Modest ws := by
  cases h <;>
    simp [Modest, IdentityWrite.modest]

theorem Requested.modest
    {answer : AccessRequestResult}
    (h : Requested D env loaded answer ws updates held s) :
    Modest ws := by
  rcases h.writes with
    ⟨row, flush, asks, _, hFlush, hAsks, rfl⟩
  exact (hFlush.modest.append
    modest_accessEvent).append hAsks.modest

theorem Mutated.guarded
    {targetUserId : Uuid}
    {mutation : AdminMutation}
    {changed : Bool}
    (h : Mutated D env actor targetUserId held s mutation ws
      updates changed) :
    Guarded held ws := by
  cases h with
  | accessSame _ => simp [Guarded]
  | access _ _ _ _ =>
      apply Guarded.append
      · simp [Guarded]
      · split <;> simp [Guarded]
  | decide _ hDecided hTaken =>
      exact hDecided.modest.tellsNobody.guarded.append
        hTaken.guarded
  | roleSame _ => simp [Guarded]
  | role _ _ _ _ _ => simp [Guarded]
  | reset _ hReset => exact hReset.tellsNobody.guarded

/- Whatever is enqueued is enqueued under its locks. -/
theorem Wrote.guarded
    {result : IdentityResult}
    (h : Wrote D env held s result ws) :
    Guarded held ws := by
  cases h with
  | recovered hReconciled =>
      exact hReconciled.modest.tellsNobody.guarded
  | managed _ hMutated => exact hMutated.guarded
  | requested hRequested _ hGuarded =>
      exact hRequested.modest.tellsNobody.guarded.append hGuarded
  | decided hPressed =>
      cases hPressed with
      | unchanged _ _ hAnswered => exact hAnswered
      | decided _ _ hDecided hTaken hAnswered =>
          exact ((hDecided.modest.append
            modest_requestWrites).tellsNobody.guarded.append
              hTaken.guarded).append hAnswered
  | rotated hRotated => exact hRotated.modest.tellsNobody.guarded

end Calls

------------------------------------------------------------
-- The Discipline
------------------------------------------------------------

/- What no commit takes back. -/
structure Persists (s s' : Db) : Prop where
  settled : ∀ r ∈ s.accessRequests, r.status ≠ .pending →
    r ∈ s'.accessRequests
  notified : ∀ row ∈ s.notificationOutbox,
    ∃ row' ∈ s'.notificationOutbox,
      row'.dedupeKey = row.dedupeKey

/- What a lock keeps fixed of users, requests and outbox. -/
def fixedAccess : Resource → Db → Db → Prop
| .userRow id, s, s' =>
    s'.findUser id = s.findUser id ∧
      requestsOf id s' = requestsOf id s
| .accessRequestPkey id, s, s' =>
    s.findAccessRequest id = none →
      s'.findAccessRequest id = none
| .notificationPkey id, s, s' =>
    Table.find NotificationOutbox.id id
        s.notificationOutbox = none →
      Table.find NotificationOutbox.id id
        s'.notificationOutbox = none
| _, _, _ => True

/- The discipline of requests that concern access. -/
def accessLocks (inv : Db → Prop) : Discipline Db Lock where
  modes := Lock.modes
  inv := inv
  always := Persists
  protects k := fixedAccess k.resource
  always_refl s := ⟨fun _ hr _ => hr, fun row hRow =>
    ⟨row, hRow, rfl⟩⟩
  always_trans := by
    intro s s' s'' h h'
    refine ⟨fun r hr hStatus =>
      h'.settled r (h.settled r hr hStatus) hStatus, ?_⟩
    intro row hRow
    rcases h.notified row hRow with ⟨row', hRow', hKey⟩
    rcases h'.notified row' hRow' with ⟨row'', hRow'', hKey'⟩
    exact ⟨row'', hRow'', hKey'.trans hKey⟩
  protects_refl k s := by
    unfold fixedAccess
    split
    · exact ⟨rfl, rfl⟩
    · exact id
    · exact id
    · trivial
  protects_trans := by
    intro k s s' s'' h h'
    cases hResource : k.resource with
    | userRow id =>
        rw [hResource] at h h'
        exact ⟨h'.1.trans h.1, h'.2.trans h.2⟩
    | accessRequestPkey id =>
        rw [hResource] at h h'
        exact fun hFree => h' (h hFree)
    | notificationPkey id =>
        rw [hResource] at h h'
        exact fun hFree => h' (h hFree)
    | _ => trivial

section Locks

variable {inv : Db → Prop}
variable {s : Db}
variable {held : List Lock}
variable {env : IdentityEnv}
variable {ws : List IdentityWrite}

theorem fixesUsers_accessLocks :
    FixesUsers (accessLocks inv) :=
  fun h hHeld => (h.protects _ hHeld).1

theorem fixesRequests_accessLocks :
    FixesRequests (accessLocks inv) where
  ofUser h hHeld := (h.protects _ hHeld).2
  free h hHeld hFree := h.protects _ hHeld hFree

/- What a request commits respects the locks of others. -/
theorem Wrote.accessCommits
    {result : IdentityResult}
    (hValid : RequestsValid s)
    (h : Wrote (accessLocks inv) env held s result ws)
    (hInv : inv (applyAll ws s)) :
    (accessLocks inv).Commits held s (applyAll ws s) where
  inv := hInv
  always := by
    refine ⟨?_, ?_⟩
    · intro r hr hStatus
      exact (h.turned fixesRequests_accessLocks
        hValid).requestsTurn.settled hValid hr hStatus
    · intro row hRow
      rw [notificationOutbox_applyAll]
      exact keys_onOutboxAll hRow
  protects k hFree := by
    have hTurn := (h.turned fixesRequests_accessLocks
      hValid).requestsTurn
    have hOther : .exclusive k.resource ∉ held := by
      intro hHeld
      exact hFree _ hHeld
        (Lock.modes.symm (Lock.conflict_exclusive rfl))
    unfold accessLocks
    simp only
    cases hResource : k.resource with
    | userRow id =>
        rw [hResource] at hOther
        exact ⟨h.fixesRow hResource hFree,
          hTurn.ofUser hValid hOther⟩
    | accessRequestPkey id =>
        rw [hResource] at hOther
        exact hTurn.free hOther
    | notificationPkey id =>
        rw [hResource] at hOther
        intro hNone
        rw [notificationOutbox_applyAll]
        exact h.guarded.free hOther hNone
    | _ => trivial

end Locks
