import DcInventory.Procurement.Email

/-
  This file proves that both outboxes follow the protocol of
  `Board`, once what is delivered is forgotten.

  Key definitions include:
    * `OutboxCopy`
    * `OutboxSystem`
    * `OutboxCopy.Step`
    * `OutboxCopy.Refines`

  Key theorems include:
    * `telegramOutbox_refines`
    * `emailOutbox_refines`
    * `outbox_delivery_protocol`
-/

------------------------------------------------------------
-- The Copies Of The Protocol
------------------------------------------------------------

/- Rows `ρ` that calls `χ` enqueue, and claims `γ` of them. -/
structure OutboxCopy (ρ χ γ : Type) where
  delivery : ρ → Delivery Uuid Uuid
  key : γ → Uuid × Uuid
  requeues : χ → Bool
  enqueue : Uuid → Time → χ → List ρ → Except Error (List ρ)
  claimable : ClaimSettings → Time → ρ → Bool
  claimBatch : ClaimSettings → Time → List Uuid →
    (Uuid → Uuid) → List ρ → List γ × List ρ
  markSent : γ → Time → List ρ → List ρ
  markFailed : γ → Text → Nat → Time → List ρ → List ρ

def NotificationOutbox.delivery
    (row : NotificationOutbox) : Delivery Uuid Uuid where
  id := row.id
  status := row.status
  attempts := row.attempts
  availableAt := row.availableAt
  claimedAt := row.claimedAt
  claimToken := row.claimToken

def EmailOutbox.delivery
    (row : EmailOutbox) : Delivery Uuid Uuid where
  id := row.id
  status := row.status
  attempts := row.attempts
  availableAt := row.availableAt
  claimedAt := row.claimedAt
  claimToken := row.claimToken

def telegramOutbox :
    OutboxCopy NotificationOutbox TelegramCall
      ClaimedNotification where
  delivery := NotificationOutbox.delivery
  key claim := (claim.id, claim.claimToken)
  requeues := TelegramCall.requeueDead
  enqueue := enqueueTelegramCall
  claimable settings now row :=
    row.claimable now (now - seconds settings.claimTtlSeconds)
      settings.maxAttempts
  claimBatch := claimNotificationBatch
  markSent claim now rows :=
    (markNotificationSent claim now rows).2
  markFailed claim error maxAttempts now rows :=
    (markNotificationFailed claim error maxAttempts now rows).2

def emailOutbox :
    OutboxCopy EmailOutbox EmailValues ClaimedEmail where
  delivery := EmailOutbox.delivery
  key claim := (claim.id, claim.claimToken)
  requeues _ := false
  enqueue := insertEmail
  claimable settings now row :=
    row.claimable now (now - seconds settings.claimTtlSeconds)
      settings.maxAttempts
  claimBatch := claimEmailBatch
  markSent claim now rows :=
    (finalizeEmail claim none 0 now rows).2
  markFailed claim error maxAttempts now rows :=
    (finalizeEmail claim (some error) maxAttempts now rows).2

------------------------------------------------------------
-- Runs
------------------------------------------------------------

/- A claim that a worker has, and when it was made. -/
structure Outstanding (γ : Type) where
  claim : γ
  since : Time

/-
  The table, the claims of workers that have not finished,
  and the tokens that were ever drawn.
-/
structure OutboxSystem (ρ γ ω : Type) where
  clock : Time
  rows : List ρ
  hands : ω → List (Outstanding γ)
  issued : List (Uuid × Uuid)

namespace OutboxCopy

variable {ρ χ γ ω : Type}
variable [DecidableEq ω]

/- The claim, with what is delivered forgotten. -/
def held
    (C : OutboxCopy ρ χ γ)
    (o : Outstanding γ) : Held Uuid Uuid :=
  ⟨(C.key o.claim).1, (C.key o.claim).2, o.since⟩

/- The worker is through with a claim. -/
def dropped
    (C : OutboxCopy ρ χ γ)
    (S : OutboxSystem ρ γ ω)
    (w : ω)
    (o : Outstanding γ) : ω → List (Outstanding γ) :=
  Function.update S.hands w
    ((S.hands w).filter (fun o' => C.held o' ≠ C.held o))

/-
  One step of clients and workers. Workers may read the clock
  long before their transaction ends. A crash loses what the
  worker holds; so does an error while it finishes.
-/
inductive Step
    (C : OutboxCopy ρ χ γ)
    (settings : ClaimSettings)
    (S : OutboxSystem ρ γ ω) :
    Board.Act Uuid Uuid ω → OutboxSystem ρ γ ω → Prop where
| tick {now} :
    S.clock ≤ now →
    Step C settings S .tick { S with clock := now }
| enqueue {id now call rows} :
    now ≤ S.clock →
    C.enqueue id now call S.rows = .ok rows →
    Step C settings S (.enqueue (C.requeues call))
      { S with rows := rows }
| claim {w now locked newToken claims rows} :
    now ≤ S.clock →
    C.claimBatch settings now locked newToken S.rows =
      (claims, rows) →
    -- uuid4 draws tokens that were never drawn before
    ((claims.map C.key).map Prod.snd).Nodup →
    (∀ p ∈ claims.map C.key, p.2 ∉ S.issued.map Prod.snd) →
    Step C settings S (.claim w)
      { S with
        rows := rows
        hands := Function.update S.hands w
          (S.hands w ++ claims.map (fun c => ⟨c, now⟩))
        issued := claims.map C.key ++ S.issued }
| crash {w} :
    Step C settings S (.crash w)
      { S with hands := Function.update S.hands w [] }
| sent {w o now} :
    o ∈ S.hands w →
    Step C settings S (.sent w (C.held o))
      { S with
        rows := C.markSent o.claim now S.rows
        hands := C.dropped S w o }
| failed {w o error now} :
    o ∈ S.hands w →
    Step C settings S (.failed w (C.held o))
      { S with
        rows := C.markFailed o.claim error
          settings.maxAttempts now S.rows
        hands := C.dropped S w o }

/- The states that runs from an empty table lead to. -/
inductive Reachable
    (C : OutboxCopy ρ χ γ)
    (settings : ClaimSettings) :
    OutboxSystem ρ γ ω → Prop where
| start {clock} :
    Reachable C settings ⟨clock, [], fun _ => [], []⟩
| step {S a S'} :
    Reachable C settings S →
    Step C settings S a S' →
    Reachable C settings S'

/- The state as the protocol sees it. -/
def board
    (C : OutboxCopy ρ χ γ)
    (S : OutboxSystem ρ γ ω) : Board Uuid Uuid ω where
  clock := S.clock
  jobs := S.rows.map C.delivery
  hands w := (S.hands w).map C.held
  issued := S.issued

------------------------------------------------------------
-- Refinement
------------------------------------------------------------

/- What enqueueing may do to the jobs. -/
inductive Enqueued
    (requeueDead : Bool)
    (jobs : List (Delivery Uuid Uuid)) :
    List (Delivery Uuid Uuid) → Prop where
| known : Enqueued requeueDead jobs jobs
| added {id availableAt} :
    (∀ d ∈ jobs, d.id ≠ id) →
    Enqueued requeueDead jobs
      (jobs ++ [.added id availableAt])
| revived {d now} :
    requeueDead = true →
    d ∈ jobs →
    d.status = .dead →
    Enqueued requeueDead jobs
      (Table.rewrite Delivery.id d.id (Delivery.revived now)
        jobs)

/- The operations of a copy are those of the protocol. -/
structure Refines (C : OutboxCopy ρ χ γ) : Prop where
  enqueue : ∀ {id now call rows rows'},
    C.enqueue id now call rows = .ok rows' →
    Enqueued (C.requeues call) (rows.map C.delivery)
      (rows'.map C.delivery)
  claimable : ∀ settings now row,
    C.claimable settings now row ↔
      (C.delivery row).Claimable settings.maxAttempts
        (seconds settings.claimTtlSeconds) now
  claim : ∀ {settings now locked newToken rows claims rows'},
    ((rows.map C.delivery).map Delivery.id).Nodup →
    C.claimBatch settings now locked newToken rows =
      (claims, rows') →
    rows'.map C.delivery = (rows.map C.delivery).map
        (Board.takenBy settings.maxAttempts now
          (claims.map C.key)) ∧
      ((claims.map C.key).map Prod.fst).Nodup ∧
      ∀ p ∈ claims.map C.key, ∃ d ∈ rows.map C.delivery,
        d.id = p.1 ∧ d.Claimable settings.maxAttempts
          (seconds settings.claimTtlSeconds) now
  sent : ∀ {o : Outstanding γ} {now rows},
    ((rows.map C.delivery).map Delivery.id).Nodup →
    (C.markSent o.claim now rows).map C.delivery =
      Board.settled (C.held o) Delivery.delivered
        (rows.map C.delivery)
  failed : ∀ (o : Outstanding γ) error maxAttempts now {rows},
    ((rows.map C.delivery).map Delivery.id).Nodup →
    ∃ retryAt,
      (C.markFailed o.claim error maxAttempts now rows).map
          C.delivery =
        Board.settled (C.held o)
          (Delivery.missed maxAttempts retryAt)
          (rows.map C.delivery)

variable {C : OutboxCopy ρ χ γ}
variable {settings : ClaimSettings}
variable {S S' : OutboxSystem ρ γ ω}

/- The hands of a board follow those of the workers. -/
theorem board_hands_update
    (C : OutboxCopy ρ χ γ)
    (hands : ω → List (Outstanding γ))
    (w : ω)
    (os : List (Outstanding γ)) :
    (fun w' => (Function.update hands w os w').map C.held) =
      Function.update (fun w' => (hands w').map C.held) w
        (os.map C.held) := by
  funext w'
  rcases eq_or_ne w' w with rfl | hNe
  · simp
  · simp [Function.update_of_ne hNe]

theorem board_dropped
    (C : OutboxCopy ρ χ γ)
    (S : OutboxSystem ρ γ ω)
    (w : ω)
    (o : Outstanding γ) :
    (fun w' => (C.dropped S w o w').map C.held) =
      (C.board S).dropped w (C.held o) := by
  unfold dropped Board.dropped
  rw [board_hands_update]
  have hHands : (C.board S).hands w =
      (S.hands w).map C.held := rfl
  rw [hHands, List.filter_map]
  rfl

omit [DecidableEq ω] in
/- The board after a change of rows, hands and tokens. -/
theorem board_of_update
    (C : OutboxCopy ρ χ γ)
    (S : OutboxSystem ρ γ ω)
    {rows : List ρ}
    {jobs : List (Delivery Uuid Uuid)}
    {hands : ω → List (Outstanding γ)}
    {held : ω → List (Held Uuid Uuid)}
    (issued : List (Uuid × Uuid))
    (hRows : rows.map C.delivery = jobs)
    (hHands : (fun w => (hands w).map C.held) = held) :
    C.board ⟨S.clock, rows, hands, issued⟩ =
      ⟨(C.board S).clock, jobs, held, issued⟩ := by
  rw [← hRows, ← hHands]
  rfl

/- A step of a copy is a step of the protocol. -/
theorem Refines.step
    (hC : C.Refines)
    {a : Board.Act Uuid Uuid ω}
    (hIds : ((S.rows.map C.delivery).map Delivery.id).Nodup)
    (hStep : C.Step settings S a S') :
    Board.Step (seconds settings.claimTtlSeconds)
      settings.maxAttempts (C.board S) a (C.board S') := by
  cases hStep with
  | tick hLater => exact .tick hLater
  | @enqueue id now call rows _ hOk =>
      have hBoard : C.board { S with rows := rows } =
          { C.board S with jobs := rows.map C.delivery } := rfl
      rw [hBoard]
      have hJobs := hC.enqueue hOk
      generalize rows.map C.delivery = jobs at hJobs ⊢
      cases hJobs with
      | known => exact .known
      | added hNew => exact .added hNew
      | revived hRequeues hMem hDead =>
          rw [hRequeues]
          exact .revived hMem hDead
  | @claim w now locked newToken claims rows hNow hOk hDrawn
      hNew =>
      rcases hC.claim hIds hOk with ⟨hRows, hOnce, hFree⟩
      have hHands := board_hands_update C S.hands w
        (S.hands w ++ claims.map (fun c => ⟨c, now⟩))
      rw [List.map_append, List.map_map] at hHands
      rw [board_of_update C S _ hRows hHands]
      have hClaim := Board.Step.claim (w := w)
        (B := C.board S) hNow hDrawn hNew hOnce hFree
      rw [List.map_map] at hClaim
      exact hClaim
  | @crash w =>
      rw [board_of_update C S _ rfl
        (board_hands_update C S.hands w [])]
      exact .crash
  | @sent w o now hMem =>
      rw [board_of_update C S _ (hC.sent hIds)
        (board_dropped C S w o)]
      exact .sent (List.mem_map_of_mem hMem)
  | @failed w o error now hMem =>
      rcases hC.failed o error settings.maxAttempts now hIds
        with ⟨retryAt, hRows⟩
      rw [board_of_update C S _ hRows
        (board_dropped C S w o)]
      exact .failed (List.mem_map_of_mem hMem)

/- Reachable tables satisfy the invariant of boards. -/
theorem Refines.reachable_inv
    (hC : C.Refines)
    (hLimit : 0 < settings.maxAttempts)
    (hReach : C.Reachable settings S) :
    (C.board S).Inv (seconds settings.claimTtlSeconds)
      settings.maxAttempts := by
  induction hReach with
  | start => exact Board.inv_empty _
  | step _ hStep ih =>
      exact ih.step hLimit (hC.step ih.ids hStep)

end OutboxCopy

------------------------------------------------------------
-- Selected And Finished Rows
------------------------------------------------------------

section Rows

variable {ρ : Type}
variable {idOf : ρ → Uuid}
variable {delivery : ρ → Delivery Uuid Uuid}
variable {rows : List ρ}

theorem mem_selected
    {p : ρ → Bool}
    {r : ρ → ρ → Prop}
    [DecidableRel r]
    {n : Nat}
    {row : ρ}
    (h : row ∈ ((rows.filter p).insertionSort r).take n) :
    row ∈ rows ∧ p row := by
  have hSorted := List.mem_of_mem_take h
  rw [List.mem_insertionSort] at hSorted
  exact List.mem_filter.mp hSorted

theorem nodup_selected
    {p : ρ → Bool}
    {r : ρ → ρ → Prop}
    [DecidableRel r]
    {n : Nat}
    (hIds : (rows.map idOf).Nodup) :
    ((((rows.filter p).insertionSort r).take n).map
      idOf).Nodup := by
  have hPerm := (List.perm_insertionSort r
    (rows.filter p)).map idOf
  have hFiltered : ((rows.filter p).map idOf).Nodup :=
    hIds.sublist (List.filter_sublist.map idOf)
  exact (hPerm.nodup_iff.mpr hFiltered).sublist
    ((List.take_sublist n _).map idOf)

/- The token that a selected id is given. -/
theorem find_token
    (newToken : Uuid → Uuid)
    (ids : List Uuid)
    (id : Uuid) :
    Table.find Prod.fst id
        (ids.map (fun i => (i, newToken i))) =
      if id ∈ ids then some (id, newToken id) else none := by
  induction ids with
  | nil => rfl
  | cons i ids ih =>
      unfold Table.find at ih ⊢
      by_cases hSame : i = id
      · simp [hSame]
      · simpa [hSame, Ne.symm hSame] using ih

/- Updating the selected rows takes their jobs. -/
theorem map_claimed
    {selected : List ρ}
    {claimed : ρ → ρ}
    {newToken : Uuid → Uuid}
    {limit now : Nat}
    (hId : ∀ r, (delivery r).id = idOf r)
    (hIds : (rows.map idOf).Nodup)
    (hSelected : ∀ r ∈ selected, r ∈ rows ∧
      delivery (claimed r) =
        (delivery r).taken limit now (newToken (idOf r))) :
    (rows.map (fun r => if idOf r ∈ selected.map idOf
      then claimed r else r)).map delivery =
    (rows.map delivery).map (Board.takenBy limit now
      ((selected.map idOf).map (fun i => (i, newToken i)))) := by
  rw [List.map_map, List.map_map]
  apply List.map_congr_left
  intro r hMem
  rw [Function.comp_apply, Function.comp_apply]
  unfold Board.takenBy
  rw [hId, find_token]
  split
  · rename_i hIn
    rcases List.mem_map.mp hIn with ⟨r', hPicked, hSame⟩
    rcases hSelected r' hPicked with ⟨hRow, hTaken⟩
    have hEq : r' = r :=
      List.inj_on_of_nodup_map hIds hRow hMem hSame
    rw [hEq] at hTaken
    exact hTaken
  · rfl

/- Claiming selected rows claims their jobs, once each. -/
theorem jobs_of_claim
    {selected : List ρ}
    {claimed : ρ → ρ}
    {newToken : Uuid → Uuid}
    {limit ttl now : Nat}
    {keys : List (Uuid × Uuid)}
    (hId : ∀ r, (delivery r).id = idOf r)
    (hIds : (rows.map idOf).Nodup)
    (hOnce : (selected.map idOf).Nodup)
    (hKeys : keys =
      (selected.map idOf).map (fun i => (i, newToken i)))
    (hSelected : ∀ r ∈ selected, r ∈ rows ∧
      (delivery r).Claimable limit ttl now ∧
      delivery (claimed r) =
        (delivery r).taken limit now (newToken (idOf r))) :
    (rows.map (fun r => if idOf r ∈ selected.map idOf
        then claimed r else r)).map delivery =
        (rows.map delivery).map
          (Board.takenBy limit now keys) ∧
      (keys.map Prod.fst).Nodup ∧
      ∀ p ∈ keys, ∃ d ∈ rows.map delivery,
        d.id = p.1 ∧ d.Claimable limit ttl now := by
  refine ⟨?_, ?_, ?_⟩
  · rw [hKeys]
    exact map_claimed hId hIds (fun r hMem =>
      ⟨(hSelected r hMem).1, (hSelected r hMem).2.2⟩)
  · rw [hKeys, List.map_map]
    exact (List.map_id' _).symm ▸ hOnce
  · intro p hMem
    rw [hKeys, List.map_map] at hMem
    rcases List.mem_map.mp hMem with ⟨r, hPicked, rfl⟩
    rcases hSelected r hPicked with ⟨hRow, hClaimable, _⟩
    exact ⟨delivery r, List.mem_map_of_mem hRow, hId r,
      hClaimable⟩

/- Nothing is finished where no row has the token. -/
theorem settled_of_none
    {h : Held Uuid Uuid}
    {g : Delivery Uuid Uuid → Delivery Uuid Uuid}
    (hNone : ∀ r ∈ rows, ¬ ((delivery r).id = h.job ∧
      (delivery r).claimToken = some h.token ∧
      (delivery r).status = .pending)) :
    rows.map delivery =
      Board.settled h g (rows.map delivery) := by
  unfold Board.settled Table.rewrite
  rw [List.map_map]
  apply List.map_congr_left
  intro r hMem
  rw [Function.comp_apply]
  split
  · rename_i hJob
    unfold Delivery.finished
    rw [if_neg (fun hMine => hNone r hMem ⟨hJob, hMine⟩)]
  · rfl

/- Rewriting the row with the token finishes its job. -/
theorem settled_of_some
    {h : Held Uuid Uuid}
    {g : Delivery Uuid Uuid → Delivery Uuid Uuid}
    {f : ρ → ρ}
    {row : ρ}
    (hId : ∀ r, (delivery r).id = idOf r)
    (hIds : (rows.map idOf).Nodup)
    (hMem : row ∈ rows)
    (hJob : (delivery row).id = h.job)
    (hToken : (delivery row).claimToken = some h.token)
    (hPending : (delivery row).status = .pending)
    (hf : delivery (f row) = g (delivery row)) :
    (Table.rewrite idOf (idOf row) f rows).map delivery =
      Board.settled h g (rows.map delivery) := by
  unfold Board.settled Table.rewrite
  rw [List.map_map, List.map_map]
  apply List.map_congr_left
  intro r hRow
  rw [Function.comp_apply, Function.comp_apply, ← hJob,
    hId, hId]
  split
  · rename_i hSame
    rw [List.inj_on_of_nodup_map hIds hRow hMem hSame, hf]
    unfold Delivery.finished
    rw [if_pos ⟨hToken, hPending⟩]
  · rfl

/- The row with the token, and only it, is finished. -/
theorem jobs_of_finish
    {h : Held Uuid Uuid}
    {g : Delivery Uuid Uuid → Delivery Uuid Uuid}
    {f : ρ → ρ}
    {p : ρ → Bool}
    {rows' : List ρ}
    (hId : ∀ r, (delivery r).id = idOf r)
    (hIds : (rows.map idOf).Nodup)
    (hp : ∀ r, p r ↔ (delivery r).id = h.job ∧
      (delivery r).claimToken = some h.token ∧
      (delivery r).status = .pending)
    (hNone : rows.find? p = none → rows' = rows)
    (hSome : ∀ row, rows.find? p = some row →
      rows' = Table.rewrite idOf (idOf row) f rows)
    (hf : ∀ row, rows.find? p = some row →
      delivery (f row) = g (delivery row)) :
    rows'.map delivery =
      Board.settled h g (rows.map delivery) := by
  cases hFind : rows.find? p with
  | none =>
      rw [hNone hFind]
      apply settled_of_none
      intro r hMem hMine
      exact List.find?_eq_none.mp hFind r hMem
        ((hp r).mpr hMine)
  | some row =>
      rw [hSome row hFind]
      rcases (hp row).mp (List.find?_some hFind) with
        ⟨hJob, hToken, hPending⟩
      exact settled_of_some hId hIds
        (List.mem_of_find?_eq_some hFind) hJob hToken hPending
        (hf row hFind)

end Rows

------------------------------------------------------------
-- The WHERE Clause
------------------------------------------------------------

theorem claimedBefore_iff
    {staleBefore : Time}
    {claimedAt : Option Time} :
    claimedBefore staleBefore claimedAt ↔
      ∃ t, claimedAt = some t ∧ t < staleBefore := by
  unfold claimedBefore
  cases claimedAt <;> simp

/- The WHERE clause of both copies, on the job of a row. -/
def Delivery.selectedBy
    (now ttl limit : Nat)
    (d : Delivery Uuid Uuid) : Prop :=
  d.status = .pending ∧
    d.availableAt ≤ now ∧
    (d.attempts < limit ∨
      (limit ≤ d.attempts ∧ d.claimedAt.isSome ∧
        claimedBefore (now - ttl) d.claimedAt)) ∧
    (d.claimedAt = none ∨
      claimedBefore (now - ttl) d.claimedAt)

/- A job with an expired lease was claimed early enough. -/
theorem Delivery.selected_of_claimable
    {now ttl limit : Nat}
    {d : Delivery Uuid Uuid}
    (h : d.Claimable limit ttl now) :
    d.selectedBy now ttl limit := by
  refine ⟨h.pending, h.available, ?_⟩
  cases hClaim : d.claimedAt with
  | none =>
      exact ⟨Or.inl (h.left.resolve_right (fun hSome =>
        hSome hClaim)), Or.inl rfl⟩
  | some since =>
      have hBefore : claimedBefore (now - ttl) (some since) :=
        claimedBefore_iff.mpr ⟨since, rfl,
          Nat.lt_sub_of_add_lt (h.expired since hClaim)⟩
      refine ⟨?_, Or.inr hBefore⟩
      rcases Nat.lt_or_ge d.attempts limit with hFew | hSpent
      · exact Or.inl hFew
      · exact Or.inr ⟨hSpent, rfl, hBefore⟩

theorem Delivery.claimable_of_selected
    {now ttl limit : Nat}
    {d : Delivery Uuid Uuid}
    (h : d.selectedBy now ttl limit) :
    d.Claimable limit ttl now := by
  rcases h with ⟨hPending, hAvailable, hLeft, hFree⟩
  refine ⟨hPending, hAvailable, ?_, ?_⟩
  · rcases hLeft with hFew | ⟨_, hSome, _⟩
    · exact Or.inl hFew
    · exact Or.inr (Option.isSome_iff_ne_none.mp hSome)
  · intro t hSince
    rcases hFree with hNone | hBefore
    · rw [hSince] at hNone
      cases hNone
    · rcases claimedBefore_iff.mp hBefore with
        ⟨t', hSince', hLess⟩
      rw [hSince] at hSince'
      cases hSince'
      exact Nat.add_lt_of_lt_sub hLess

/- The attempts that both copies count. -/
theorem Delivery.attempts_of_selected
    {now ttl limit : Nat}
    {d : Delivery Uuid Uuid}
    (h : d.selectedBy now ttl limit) :
    (if limit ≤ d.attempts ∧ d.claimedAt.isSome ∧
        claimedBefore (now - ttl) d.claimedAt
      then d.attempts else d.attempts + 1) =
      if d.attempts < limit then d.attempts + 1
      else d.attempts := by
  rcases h with ⟨_, _, hLeft, _⟩
  by_cases hFew : d.attempts < limit
  · rw [if_pos hFew, if_neg]
    rintro ⟨hSpent, _⟩
    omega
  · rw [if_neg hFew, if_pos]
    exact hLeft.resolve_left hFew

------------------------------------------------------------
-- The Outbox Of Telegram Calls
------------------------------------------------------------

namespace NotificationOutbox

theorem delivery_id (row : NotificationOutbox) :
    row.delivery.id = row.id :=
  rfl

theorem delivery_requeued
    (now : Time)
    (row : NotificationOutbox) :
    (requeuedNotification now row).delivery =
      row.delivery.revived now :=
  rfl

theorem claimable_iff
    {currentTime ttl : Time}
    {maxAttempts : Nat}
    {row : NotificationOutbox} :
    row.claimable currentTime (currentTime - ttl)
        maxAttempts ↔
      row.delivery.selectedBy currentTime ttl maxAttempts :=
  decide_eq_true_iff

theorem delivery_claimed
    {currentTime ttl : Time}
    {maxAttempts : Nat}
    {token : Uuid}
    {row : NotificationOutbox}
    (h : row.claimable currentTime (currentTime - ttl)
      maxAttempts) :
    (row.claimed currentTime (currentTime - ttl) maxAttempts
        token).delivery =
      row.delivery.taken maxAttempts currentTime token := by
  have hAttempts := Delivery.attempts_of_selected
    (claimable_iff.mp h)
  unfold claimed Delivery.taken
  rw [← hAttempts]
  rfl

end NotificationOutbox

theorem ids_of_deliveries
    {ρ : Type}
    {delivery : ρ → Delivery Uuid Uuid}
    {idOf : ρ → Uuid}
    {rows : List ρ}
    (hId : ∀ r, (delivery r).id = idOf r)
    (h : ((rows.map delivery).map Delivery.id).Nodup) :
    (rows.map idOf).Nodup := by
  rw [List.map_map] at h
  exact (List.map_congr_left (fun r _ => hId r)) ▸ h

/- A rewritten row is a rewritten job. -/
theorem map_rewrite
    {ρ : Type}
    {delivery : ρ → Delivery Uuid Uuid}
    {idOf : ρ → Uuid}
    {f : ρ → ρ}
    {g : Delivery Uuid Uuid → Delivery Uuid Uuid}
    (hId : ∀ r, (delivery r).id = idOf r)
    (hf : ∀ r, delivery (f r) = g (delivery r))
    (id : Uuid)
    (rows : List ρ) :
    (Table.rewrite idOf id f rows).map delivery =
      Table.rewrite Delivery.id id g (rows.map delivery) := by
  unfold Table.rewrite
  rw [List.map_map, List.map_map]
  apply List.map_congr_left
  intro r _
  rw [Function.comp_apply, Function.comp_apply, hId]
  split
  · exact hf r
  · rfl

/- A new id is the id of no job. -/
theorem new_job
    {ρ : Type}
    {delivery : ρ → Delivery Uuid Uuid}
    {idOf : ρ → Uuid}
    {id : Uuid}
    {rows : List ρ}
    (hId : ∀ r, (delivery r).id = idOf r)
    (hNew : ¬ (Table.find idOf id rows).isSome) :
    ∀ d ∈ rows.map delivery, d.id ≠ id := by
  intro d hMem
  rcases List.mem_map.mp hMem with ⟨r, hRow, rfl⟩
  rw [hId]
  exact Table.find_eq_none_iff.mp
    (Option.not_isSome_iff_eq_none.mp hNew) r hRow

theorem upsert_enqueued
    {id : Uuid}
    {now : Time}
    {call : TelegramCall}
    {rows rows' : List NotificationOutbox}
    (h : upsertNotification id now call rows = .ok rows') :
    OutboxCopy.Enqueued call.requeueDead
      (rows.map NotificationOutbox.delivery)
      (rows'.map NotificationOutbox.delivery) := by
  unfold upsertNotification at h
  split at h
  · rename_i row hFind
    split at h
    · rename_i hDead
      cases h
      rw [map_rewrite NotificationOutbox.delivery_id
        (NotificationOutbox.delivery_requeued now)]
      exact .revived hDead.1
        (List.mem_map_of_mem (Table.mem_of_find hFind))
        hDead.2
    · cases h
      exact .known
  · split at h
    · cases h
    · rename_i hNew
      cases h
      rw [List.map_append]
      exact .added
        (new_job NotificationOutbox.delivery_id hNew)

theorem telegram_enqueue
    {id : Uuid}
    {now : Time}
    {call : TelegramCall}
    {rows rows' : List NotificationOutbox}
    (h : enqueueTelegramCall id now call rows = .ok rows') :
    OutboxCopy.Enqueued call.requeueDead
      (rows.map NotificationOutbox.delivery)
      (rows'.map NotificationOutbox.delivery) := by
  unfold enqueueTelegramCall at h
  split at h
  · cases h
  · split at h
    · cases h
    · exact upsert_enqueued h

theorem telegram_claim
    {settings : ClaimSettings}
    {now : Time}
    {locked : List Uuid}
    {newToken : Uuid → Uuid}
    {rows rows' : List NotificationOutbox}
    {claims : List ClaimedNotification}
    (hIds : (rows.map NotificationOutbox.id).Nodup)
    (h : claimNotificationBatch settings now locked newToken
      rows = (claims, rows')) :
    rows'.map NotificationOutbox.delivery =
        (rows.map NotificationOutbox.delivery).map
          (Board.takenBy settings.maxAttempts now
            (claims.map telegramOutbox.key)) ∧
      ((claims.map telegramOutbox.key).map Prod.fst).Nodup ∧
      ∀ p ∈ claims.map telegramOutbox.key,
        ∃ d ∈ rows.map NotificationOutbox.delivery,
          d.id = p.1 ∧ d.Claimable settings.maxAttempts
            (seconds settings.claimTtlSeconds) now := by
  unfold claimNotificationBatch at h
  cases h
  have hKeys : ∀ selected : List NotificationOutbox,
      (selected.map (fun r => (r.claimed now
        (now - seconds settings.claimTtlSeconds)
        settings.maxAttempts (newToken r.id)).toClaim
          (newToken r.id))).map telegramOutbox.key =
      (selected.map NotificationOutbox.id).map
        (fun i => (i, newToken i)) := by
    intro selected
    rw [List.map_map, List.map_map]
    rfl
  refine jobs_of_claim NotificationOutbox.delivery_id hIds
    (nodup_selected hIds) (hKeys _) ?_
  intro r hPicked
  rcases mem_selected hPicked with ⟨hMem, hWhere⟩
  rw [decide_eq_true_eq] at hWhere
  exact ⟨hMem, Delivery.claimable_of_selected
    (NotificationOutbox.claimable_iff.mp hWhere.2),
    NotificationOutbox.delivery_claimed hWhere.2⟩

theorem telegram_sent
    {o : Outstanding ClaimedNotification}
    {now : Time}
    {rows : List NotificationOutbox}
    (hIds : (rows.map NotificationOutbox.id).Nodup) :
    (markNotificationSent o.claim now rows).2.map
        NotificationOutbox.delivery =
      Board.settled (telegramOutbox.held o) Delivery.delivered
        (rows.map NotificationOutbox.delivery) := by
  unfold markNotificationSent claimedRow
  exact jobs_of_finish
    (p := fun r => r.id = o.claim.id ∧
      r.claimToken = some o.claim.claimToken ∧
      r.status = .pending)
    NotificationOutbox.delivery_id hIds
    (fun _ => decide_eq_true_iff)
    (fun hFind => by rw [hFind])
    (fun row hFind => by rw [hFind]) (fun _ _ => rfl)

theorem telegram_failed
    (o : Outstanding ClaimedNotification)
    (error : Text)
    (maxAttempts : Nat)
    (now : Time)
    {rows : List NotificationOutbox}
    (hIds : (rows.map NotificationOutbox.id).Nodup) :
    ∃ retryAt,
      (markNotificationFailed o.claim error maxAttempts now
          rows).2.map NotificationOutbox.delivery =
        Board.settled (telegramOutbox.held o)
          (Delivery.missed maxAttempts retryAt)
          (rows.map NotificationOutbox.delivery) := by
  -- the delay is that of the row which has the token
  refine ⟨now + seconds (retryDelaySeconds
    (((claimedRow o.claim rows).map
      NotificationOutbox.attempts).getD 0)), ?_⟩
  unfold markNotificationFailed claimedRow
  refine jobs_of_finish
    (p := fun r => r.id = o.claim.id ∧
      r.claimToken = some o.claim.claimToken ∧
      r.status = .pending)
    NotificationOutbox.delivery_id hIds
    (fun _ => decide_eq_true_iff)
    (fun hFind => by rw [hFind])
    (fun row hFind => by rw [hFind]) ?_
  intro r hFind
  rw [hFind]
  unfold Delivery.missed NotificationOutbox.delivery
  dsimp only [Option.map_some, Option.getD_some]
  split <;> rfl

theorem telegramOutbox_refines :
    telegramOutbox.Refines where
  enqueue h := telegram_enqueue h
  claimable _ _ _ :=
    NotificationOutbox.claimable_iff.trans
      ⟨Delivery.claimable_of_selected,
        Delivery.selected_of_claimable⟩
  claim hIds h :=
    telegram_claim (ids_of_deliveries
      NotificationOutbox.delivery_id hIds) h
  sent hIds := telegram_sent (ids_of_deliveries
    NotificationOutbox.delivery_id hIds)
  failed o error maxAttempts now _ hIds :=
    telegram_failed o error maxAttempts now
      (ids_of_deliveries NotificationOutbox.delivery_id hIds)

------------------------------------------------------------
-- The Outbox Of Emails
------------------------------------------------------------

namespace EmailOutbox

theorem delivery_id (row : EmailOutbox) :
    row.delivery.id = row.id :=
  rfl

theorem claimable_iff
    {current ttl : Time}
    {maxAttempts : Nat}
    {row : EmailOutbox} :
    row.claimable current (current - ttl) maxAttempts ↔
      row.delivery.selectedBy current ttl maxAttempts :=
  decide_eq_true_iff

theorem delivery_claimed
    {current ttl : Time}
    {maxAttempts : Nat}
    {token : Uuid}
    {row : EmailOutbox}
    (h : row.claimable current (current - ttl) maxAttempts) :
    (row.claimed current (current - ttl) maxAttempts
        token).delivery =
      row.delivery.taken maxAttempts current token := by
  have hAttempts := Delivery.attempts_of_selected
    (claimable_iff.mp h)
  unfold claimed Delivery.taken
  rw [← hAttempts]
  rfl

end EmailOutbox

theorem email_enqueue
    {id : Uuid}
    {now : Time}
    {values : EmailValues}
    {rows rows' : List EmailOutbox}
    (h : insertEmail id now values rows = .ok rows') :
    OutboxCopy.Enqueued false (rows.map EmailOutbox.delivery)
      (rows'.map EmailOutbox.delivery) := by
  unfold insertEmail at h
  split at h
  · cases h
    exact .known
  · split at h
    · cases h
    · rename_i hNew
      cases h
      rw [List.map_append]
      exact .added (new_job EmailOutbox.delivery_id hNew)

theorem email_claim
    {settings : ClaimSettings}
    {now : Time}
    {locked : List Uuid}
    {newToken : Uuid → Uuid}
    {rows rows' : List EmailOutbox}
    {claims : List ClaimedEmail}
    (hIds : (rows.map EmailOutbox.id).Nodup)
    (h : claimEmailBatch settings now locked newToken rows =
      (claims, rows')) :
    rows'.map EmailOutbox.delivery =
        (rows.map EmailOutbox.delivery).map
          (Board.takenBy settings.maxAttempts now
            (claims.map emailOutbox.key)) ∧
      ((claims.map emailOutbox.key).map Prod.fst).Nodup ∧
      ∀ p ∈ claims.map emailOutbox.key,
        ∃ d ∈ rows.map EmailOutbox.delivery,
          d.id = p.1 ∧ d.Claimable settings.maxAttempts
            (seconds settings.claimTtlSeconds) now := by
  unfold claimEmailBatch at h
  cases h
  have hKeys : ∀ selected : List EmailOutbox,
      (selected.map (fun r => (r.claimed now
        (now - seconds settings.claimTtlSeconds)
        settings.maxAttempts (newToken r.id)).toClaim
          (newToken r.id))).map emailOutbox.key =
      (selected.map EmailOutbox.id).map
        (fun i => (i, newToken i)) := by
    intro selected
    rw [List.map_map, List.map_map]
    rfl
  refine jobs_of_claim EmailOutbox.delivery_id hIds
    (nodup_selected hIds) (hKeys _) ?_
  intro r hPicked
  rcases mem_selected hPicked with ⟨hMem, hWhere⟩
  rw [decide_eq_true_eq] at hWhere
  exact ⟨hMem, Delivery.claimable_of_selected
    (EmailOutbox.claimable_iff.mp hWhere.2),
    EmailOutbox.delivery_claimed hWhere.2⟩

theorem email_sent
    {o : Outstanding ClaimedEmail}
    {now : Time}
    {rows : List EmailOutbox}
    (hIds : (rows.map EmailOutbox.id).Nodup) :
    (finalizeEmail o.claim none 0 now rows).2.map
        EmailOutbox.delivery =
      Board.settled (emailOutbox.held o) Delivery.delivered
        (rows.map EmailOutbox.delivery) := by
  unfold finalizeEmail
  exact jobs_of_finish
    (p := fun r => r.id = o.claim.id ∧
      r.claimToken = some o.claim.claimToken ∧
      r.status = .pending)
    EmailOutbox.delivery_id hIds
    (fun _ => decide_eq_true_iff)
    (fun hFind => by rw [hFind])
    (fun row hFind => by rw [hFind]) (fun _ _ => rfl)

theorem email_failed
    (o : Outstanding ClaimedEmail)
    (error : Text)
    (maxAttempts : Nat)
    (now : Time)
    {rows : List EmailOutbox}
    (hIds : (rows.map EmailOutbox.id).Nodup) :
    ∃ retryAt,
      (finalizeEmail o.claim (some error) maxAttempts now
          rows).2.map EmailOutbox.delivery =
        Board.settled (emailOutbox.held o)
          (Delivery.missed maxAttempts retryAt)
          (rows.map EmailOutbox.delivery) := by
  refine ⟨now + seconds (min 300 (2 ^ min
    ((((rows.find? (fun r => r.id = o.claim.id ∧
      r.claimToken = some o.claim.claimToken ∧
      r.status = .pending)).map
        EmailOutbox.attempts).getD 0) - 1) 8)), ?_⟩
  unfold finalizeEmail
  refine jobs_of_finish
    (p := fun r => r.id = o.claim.id ∧
      r.claimToken = some o.claim.claimToken ∧
      r.status = .pending)
    EmailOutbox.delivery_id hIds
    (fun _ => decide_eq_true_iff)
    (fun hFind => by rw [hFind])
    (fun row hFind => by rw [hFind]) ?_
  intro r hFind
  rw [hFind]
  unfold Delivery.missed EmailOutbox.delivery
  dsimp only [Option.map_some, Option.getD_some]
  split <;> rfl

theorem emailOutbox_refines :
    emailOutbox.Refines where
  enqueue h := email_enqueue h
  claimable _ _ _ :=
    EmailOutbox.claimable_iff.trans
      ⟨Delivery.claimable_of_selected,
        Delivery.selected_of_claimable⟩
  claim hIds h :=
    email_claim (ids_of_deliveries
      EmailOutbox.delivery_id hIds) h
  sent hIds := email_sent (ids_of_deliveries
    EmailOutbox.delivery_id hIds)
  failed o error maxAttempts now _ hIds :=
    email_failed o error maxAttempts now
      (ids_of_deliveries EmailOutbox.delivery_id hIds)

------------------------------------------------------------
-- The Protocol
------------------------------------------------------------

/-
  In every run of a copy, every state is sound and every
  step obeys the protocol.
-/
def OutboxCopy.FollowsProtocol
    {ρ χ γ : Type}
    (C : OutboxCopy ρ χ γ)
    (settings : ClaimSettings) : Prop :=
  ∀ (ω : Type) [DecidableEq ω] (S : OutboxSystem ρ γ ω),
    C.Reachable settings S →
    (C.board S).Sound (seconds settings.claimTtlSeconds)
      settings.maxAttempts ∧
    (∀ row ∈ S.rows, (C.delivery row).status = .pending →
      ∃ t, ∀ now, t ≤ now → C.claimable settings now row) ∧
    ∀ a S', C.Step settings S a S' →
      Board.Step (seconds settings.claimTtlSeconds)
          settings.maxAttempts (C.board S) a (C.board S') ∧
        Board.Obeys settings.maxAttempts (C.board S) a
          (C.board S')

theorem OutboxCopy.Refines.followsProtocol
    {ρ χ γ : Type}
    {C : OutboxCopy ρ χ γ}
    {settings : ClaimSettings}
    (hC : C.Refines)
    (hLimit : 0 < settings.maxAttempts) :
    C.FollowsProtocol settings := by
  intro ω _ S hReach
  have hInv := hC.reachable_inv hLimit hReach
  refine ⟨hInv.sound, ?_, ?_⟩
  · intro row hMem hPending
    rcases hInv.sound.returns (C.delivery row)
      (List.mem_map_of_mem hMem) hPending with ⟨t, hLater⟩
    exact ⟨t, fun now hNow =>
      (hC.claimable settings now row).mpr (hLater now hNow)⟩
  · intro a S' hStep
    have hBoard := hC.step hInv.ids hStep
    exact ⟨hBoard, hInv.obeys hBoard⟩

/- Both outboxes follow the protocol. -/
theorem outbox_delivery_protocol
    (settings : ClaimSettings)
    (hLimit : 0 < settings.maxAttempts) :
    telegramOutbox.FollowsProtocol settings ∧
      emailOutbox.FollowsProtocol settings :=
  ⟨telegramOutbox_refines.followsProtocol hLimit,
    emailOutbox_refines.followsProtocol hLimit⟩

theorem outbox_delivery_protocol_eight :
    telegramOutbox.FollowsProtocol ⟨20, 60, 8⟩ ∧
      emailOutbox.FollowsProtocol ⟨20, 60, 8⟩ :=
  outbox_delivery_protocol ⟨20, 60, 8⟩ (by decide)
