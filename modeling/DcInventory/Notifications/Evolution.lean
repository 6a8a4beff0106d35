import DcInventory.Notifications.Service

/-
  This file proves what every operation on the outbox of
  Telegram calls leaves as it is: the calls that rows are
  about, and that they were sent.

  Key definitions include:
    * `NotificationOutbox.Keeps`
    * `Evolves`

  Key theorems include:
    * `evolves_enqueue`
    * `evolves_claim`
    * `evolves_sent`
    * `evolves_failed`
-/

------------------------------------------------------------
-- Evolution
------------------------------------------------------------

/- What stays of a row whatever happens to it. -/
structure NotificationOutbox.Keeps
    (r r' : NotificationOutbox) : Prop where
  id : r'.id = r.id
  method : r'.method = r.method
  payload : r'.payload = r.payload
  dedupeKey : r'.dedupeKey = r.dedupeKey
  sent : r.status = .sent → r'.status = .sent

/- A row that the INSERT of one of the calls makes. -/
def MadeBy
    (calls : List TelegramCall)
    (r : NotificationOutbox) : Prop :=
  ∃ id now, ∃ call ∈ calls, r = newNotification id now call

/- The rows stay, and rows of the calls come to them. -/
structure Evolves
    (calls : List TelegramCall)
    (rows rows' : List NotificationOutbox) : Prop where
  stays : ∀ r ∈ rows, ∃ r' ∈ rows', r.Keeps r'
  comes : ∀ r' ∈ rows', ∃ r, r.Keeps r' ∧
    (r ∈ rows ∨ MadeBy calls r)
  ids : (rows.map NotificationOutbox.id).Nodup →
    (rows'.map NotificationOutbox.id).Nodup
  keys : (rows.map NotificationOutbox.dedupeKey).Nodup →
    (rows'.map NotificationOutbox.dedupeKey).Nodup

variable {calls calls' : List TelegramCall}
variable {call : TelegramCall}
variable {rows rows' rows'' : List NotificationOutbox}

namespace NotificationOutbox

theorem Keeps.refl (r : NotificationOutbox) : r.Keeps r :=
  ⟨rfl, rfl, rfl, rfl, fun h => h⟩

theorem Keeps.trans
    {r r' r'' : NotificationOutbox}
    (h : r.Keeps r')
    (h' : r'.Keeps r'') :
    r.Keeps r'' where
  id := h'.id.trans h.id
  method := h'.method.trans h.method
  payload := h'.payload.trans h.payload
  dedupeKey := h'.dedupeKey.trans h.dedupeKey
  sent hSent := h'.sent (h.sent hSent)

end NotificationOutbox

namespace Evolves

theorem refl (rows : List NotificationOutbox) :
    Evolves [] rows rows where
  stays r hr := ⟨r, hr, .refl r⟩
  comes r hr := ⟨r, .refl r, .inl hr⟩
  ids h := h
  keys h := h

theorem trans
    (h : Evolves calls rows rows')
    (h' : Evolves calls' rows' rows'') :
    Evolves (calls ++ calls') rows rows'' where
  stays r hr := by
    rcases h.stays r hr with ⟨r', hr', hKeeps⟩
    rcases h'.stays r' hr' with ⟨r'', hr'', hKeeps'⟩
    exact ⟨r'', hr'', hKeeps.trans hKeeps'⟩
  comes r'' hr'' := by
    rcases h'.comes r'' hr'' with ⟨r', hKeeps', hr' | hMade⟩
    · rcases h.comes r' hr' with ⟨r, hKeeps, hr | hMade⟩
      · exact ⟨r, hKeeps.trans hKeeps', .inl hr⟩
      · rcases hMade with ⟨id, now, call, hCall, hEq⟩
        exact ⟨r, hKeeps.trans hKeeps', .inr ⟨id, now, call,
          List.mem_append_left _ hCall, hEq⟩⟩
    · rcases hMade with ⟨id, now, call, hCall, hEq⟩
      exact ⟨r', hKeeps', .inr ⟨id, now, call,
        List.mem_append_right _ hCall, hEq⟩⟩
  ids hIds := h'.ids (h.ids hIds)
  keys hKeys := h'.keys (h.keys hKeys)

/- Rows that are changed where they are. -/
theorem map
    {f : NotificationOutbox → NotificationOutbox}
    (hf : ∀ r ∈ rows, r.Keeps (f r)) :
    Evolves [] rows (rows.map f) where
  stays r hr := ⟨f r, List.mem_map_of_mem hr, hf r hr⟩
  comes r' hr' := by
    rcases List.mem_map.mp hr' with ⟨r, hr, rfl⟩
    exact ⟨r, hf r hr, .inl hr⟩
  ids hIds := by
    have hSame : (rows.map f).map NotificationOutbox.id =
        rows.map NotificationOutbox.id := by
      rw [List.map_map]
      exact List.map_congr_left fun r hr => (hf r hr).id
    rw [hSame]
    exact hIds
  keys hKeys := by
    have hSame : (rows.map f).map NotificationOutbox.dedupeKey =
        rows.map NotificationOutbox.dedupeKey := by
      rw [List.map_map]
      exact List.map_congr_left fun r hr => (hf r hr).dedupeKey
    rw [hSame]
    exact hKeys

/- The row with the id of one of them is changed. -/
theorem rewrite
    {f : NotificationOutbox → NotificationOutbox}
    {row : NotificationOutbox}
    (hIds : (rows.map NotificationOutbox.id).Nodup)
    (hMem : row ∈ rows)
    (hf : row.Keeps (f row)) :
    Evolves [] rows
      (Table.rewrite NotificationOutbox.id row.id f rows) := by
  apply Evolves.map
  intro r hr
  split
  · rename_i hSame
    rw [List.inj_on_of_nodup_map hIds hr hMem hSame]
    exact hf
  · exact .refl r

end Evolves

------------------------------------------------------------
-- Enqueueing
------------------------------------------------------------

theorem keeps_requeued
    {now : Time}
    {row : NotificationOutbox}
    (hDead : row.status = .dead) :
    row.Keeps (requeuedNotification now row) where
  id := rfl
  method := rfl
  payload := rfl
  dedupeKey := rfl
  sent hSent := by
    rw [hDead] at hSent
    cases hSent

/- A row with a new id and a new key is added. -/
theorem evolves_append
    {id : Uuid}
    {now : Time}
    (hKey : Table.find NotificationOutbox.dedupeKey
      call.dedupeKey rows = none)
    (hId : Table.find NotificationOutbox.id id rows = none) :
    Evolves [call] rows
      (rows ++ [newNotification id now call]) where
  stays r hr := ⟨r, List.mem_append_left _ hr, .refl r⟩
  comes r hr := by
    rcases List.mem_append.mp hr with hOld | hNew
    · exact ⟨r, .refl r, .inl hOld⟩
    · rw [List.mem_singleton] at hNew
      exact ⟨r, .refl r, .inr ⟨id, now, call,
        List.mem_singleton.mpr rfl, hNew⟩⟩
  ids hIds := by
    rw [List.map_append, List.map_singleton]
    refine List.nodup_append.mpr ⟨hIds, by simp, ?_⟩
    intro a ha b hb hEq
    rcases List.mem_map.mp ha with ⟨r, hr, rfl⟩
    rw [List.mem_singleton] at hb
    exact Table.find_eq_none_iff.mp hId r hr (hEq.trans hb)
  keys hKeys := by
    rw [List.map_append, List.map_singleton]
    refine List.nodup_append.mpr ⟨hKeys, by simp, ?_⟩
    intro a ha b hb hEq
    rcases List.mem_map.mp ha with ⟨r, hr, rfl⟩
    rw [List.mem_singleton] at hb
    exact Table.find_eq_none_iff.mp hKey r hr (hEq.trans hb)

/- A call that is enqueued has a row with its key. -/
theorem evolves_enqueue
    {id : Uuid}
    {now : Time}
    (hIds : (rows.map NotificationOutbox.id).Nodup)
    (hOk : enqueueTelegramCall id now call rows = .ok rows') :
    Evolves [call] rows rows' ∧
      ∃ r ∈ rows', r.dedupeKey = call.dedupeKey := by
  have hWider : ∀ {rows'}, Evolves [] rows rows' →
      Evolves [call] rows rows' := fun h =>
    { h with
      comes := fun r hr => by
        rcases h.comes r hr with ⟨r', hKeeps, hOld | hMade⟩
        · exact ⟨r', hKeeps, .inl hOld⟩
        · rcases hMade with ⟨_, _, _, hNil, _⟩
          cases hNil }
  unfold enqueueTelegramCall at hOk
  split at hOk
  · cases hOk
  split at hOk
  · cases hOk
  unfold upsertNotification at hOk
  split at hOk
  · rename_i row hFind
    have hMem := Table.mem_of_find hFind
    have hKey : row.dedupeKey = call.dedupeKey :=
      Table.key_of_find hFind
    split at hOk
    · rename_i hDead
      cases hOk
      have hKeeps : row.Keeps (requeuedNotification now row) :=
        keeps_requeued hDead.2
      have hEvolves := Evolves.rewrite hIds hMem hKeeps
      refine ⟨hWider hEvolves, ?_⟩
      rcases hEvolves.stays row hMem with ⟨r', hr', hKeeps⟩
      exact ⟨r', hr', hKeeps.dedupeKey.trans hKey⟩
    · cases hOk
      exact ⟨hWider (.refl rows), row, hMem, hKey⟩
  · rename_i hKey
    split at hOk
    · cases hOk
    · rename_i hId
      cases hOk
      rw [Option.not_isSome_iff_eq_none] at hId
      exact ⟨evolves_append hKey hId,
        newNotification id now call, by simp, rfl⟩

------------------------------------------------------------
-- Working
------------------------------------------------------------

theorem evolves_claim
    {settings : ClaimSettings}
    {now : Time}
    {locked : List Uuid}
    {newToken : Uuid → Uuid}
    {claims : List ClaimedNotification}
    (hClaim : claimNotificationBatch settings now locked
      newToken rows = (claims, rows')) :
    Evolves [] rows rows' ∧
      ∀ claim ∈ claims, ∃ r ∈ rows,
        r.id = claim.id ∧ r.dedupeKey = claim.dedupeKey := by
  unfold claimNotificationBatch at hClaim
  cases hClaim
  refine ⟨Evolves.map ?_, ?_⟩
  · intro r _
    split
    · exact ⟨rfl, rfl, rfl, rfl, fun h => h⟩
    · exact .refl r
  · intro claim hMem
    rcases List.mem_map.mp hMem with ⟨r, hr, rfl⟩
    have hSorted := List.mem_of_mem_take hr
    rw [List.mem_insertionSort] at hSorted
    exact ⟨r, (List.mem_filter.mp hSorted).1, rfl, rfl⟩

variable {claim : ClaimedNotification}
variable {now : Time}

theorem mem_of_claimedRow
    {row : NotificationOutbox}
    (hFind : claimedRow claim rows = some row) :
    row ∈ rows ∧ row.id = claim.id ∧
      row.status = .pending := by
  have hRow := List.find?_some hFind
  simp only [decide_eq_true_eq] at hRow
  exact ⟨List.mem_of_find?_eq_some hFind, hRow.1, hRow.2.2⟩

theorem evolves_sent
    (hIds : (rows.map NotificationOutbox.id).Nodup) :
    Evolves [] rows (markNotificationSent claim now rows).2 := by
  unfold markNotificationSent
  cases hFind : claimedRow claim rows with
  | none => exact .refl rows
  | some row =>
      exact Evolves.rewrite hIds (mem_of_claimedRow hFind).1
        ⟨rfl, rfl, rfl, rfl, fun _ => rfl⟩

/- A row that was marked as sent was pending before. -/
theorem row_of_sent
    (hSent : markNotificationSent claim now rows =
      (true, rows')) :
    (∃ r ∈ rows, r.id = claim.id ∧ r.status = .pending) ∧
      ∀ r ∈ rows', r.id = claim.id → r.status = .sent := by
  unfold markNotificationSent at hSent
  cases hFind : claimedRow claim rows with
  | none =>
      rw [hFind] at hSent
      cases hSent
  | some row =>
      rw [hFind] at hSent
      cases hSent
      rcases mem_of_claimedRow hFind with
        ⟨hMem, hId, hPending⟩
      refine ⟨⟨row, hMem, hId, hPending⟩, ?_⟩
      intro r hr hSame
      rcases Table.mem_rewrite.mp hr with
        ⟨_, hOther⟩ | ⟨r', _, _, rfl⟩
      · exact absurd (hSame.trans hId.symm) hOther
      · rfl

theorem evolves_failed
    {error : Text}
    {maxAttempts : Nat}
    (hIds : (rows.map NotificationOutbox.id).Nodup) :
    Evolves [] rows
      (markNotificationFailed claim error maxAttempts now
        rows).2 := by
  unfold markNotificationFailed
  cases hFind : claimedRow claim rows with
  | none => exact .refl rows
  | some row =>
      rcases mem_of_claimedRow hFind with ⟨hMem, _, hPending⟩
      have hNot : row.status ≠ .sent := by
        rw [hPending]
        decide
      apply Evolves.rewrite hIds hMem
      dsimp only
      split
      · exact ⟨rfl, rfl, rfl, rfl, fun h => absurd h hNot⟩
      · exact ⟨rfl, rfl, rfl, rfl, fun h => absurd h hNot⟩
