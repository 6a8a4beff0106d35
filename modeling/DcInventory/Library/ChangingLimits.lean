import DcInventory.Library.Delivery

/-
  This file proves what becomes of jobs that wait for another
  attempt when every step of a board may have another limit.

  Key definitions include:
    * `Delivery.Waiting`
    * `Board.Plain`

  Key theorems include:
    * `Delivery.returns_iff`
    * `Board.Step.waiting`
    * `Board.Step.stuck`
-/

namespace Delivery

variable {ι κ : Type}

/- The job is pending and nobody has claimed it. -/
structure Waiting (d : Delivery ι κ) : Prop where
  pending : d.status = .pending
  unclaimed : d.claimedAt = none

/- The attempts of a waiting job are used up. -/
structure Stuck (limit : Nat) (d : Delivery ι κ) : Prop where
  waiting : d.Waiting
  used : limit ≤ d.attempts

theorem Stuck.not_claimable
    {limit ttl now : Nat}
    {d : Delivery ι κ}
    (h : d.Stuck limit) :
    ¬ d.Claimable limit ttl now := by
  intro hClaim
  rcases hClaim.left with hLeft | hHeld
  · exact absurd h.used (Nat.not_le_of_lt hLeft)
  · exact hHeld h.waiting.unclaimed

/- A pending job can be claimed later unless it is stuck. -/
theorem returns_iff
    {d : Delivery ι κ}
    (hPending : d.status = .pending)
    (limit ttl : Nat) :
    (∃ t, ∀ now, t ≤ now → d.Claimable limit ttl now) ↔
      ¬ d.Stuck limit := by
  constructor
  · rintro ⟨t, hLater⟩ hStuck
    exact hStuck.not_claimable (hLater t (Nat.le_refl t))
  · intro hFree
    cases hClaim : d.claimedAt with
    | none =>
        have hLeft : d.attempts < limit := by
          apply Nat.lt_of_not_le
          exact fun hUsed => hFree ⟨⟨hPending, hClaim⟩, hUsed⟩
        refine ⟨d.availableAt, fun now hNow =>
          ⟨hPending, hNow, Or.inl hLeft, ?_⟩⟩
        intro t hSome
        rw [hClaim] at hSome
        cases hSome
    | some since =>
        refine ⟨d.availableAt + (since + ttl) + 1,
          fun now hNow => ⟨hPending, by omega,
            Or.inr (by simp [hClaim]), ?_⟩⟩
        intro t hSome
        rw [hClaim] at hSome
        cases hSome
        omega

end Delivery

namespace Board

variable {ι κ ω : Type}
variable [DecidableEq ι] [DecidableEq κ] [DecidableEq ω]
variable {ttl limit : Nat}
variable {B B' : Board ι κ ω}
variable {a : Act ι κ ω}

/- What holds of the jobs whatever the limits are. -/
structure Plain (B : Board ι κ ω) : Prop where
  ids : (B.jobs.map Delivery.id).Nodup
  pair : ∀ d ∈ B.jobs,
    d.claimedAt.isSome = d.claimToken.isSome

omit [DecidableEq ι] [DecidableEq ω] in
theorem finished_pair
    {f : Delivery ι κ → Delivery ι κ}
    (hPair : ∀ d, (f d).claimedAt.isSome =
      (f d).claimToken.isSome)
    {d : Delivery ι κ}
    (h : d.claimedAt.isSome = d.claimToken.isSome)
    (token : κ) :
    (d.finished token f).claimedAt.isSome =
      (d.finished token f).claimToken.isSome := by
  unfold Delivery.finished
  split
  · exact hPair d
  · exact h

omit [DecidableEq ι] [DecidableEq κ] [DecidableEq ω] in
theorem missed_pair
    (limit retryAt : Nat)
    (d : Delivery ι κ) :
    (d.missed limit retryAt).claimedAt.isSome =
      (d.missed limit retryAt).claimToken.isSome := by
  unfold Delivery.missed
  split <;> rfl

/- One job is rewritten and stays as plain as it was. -/
theorem Plain.rewritten
    (h : B.Plain)
    (id : ι)
    {f : Delivery ι κ → Delivery ι κ}
    (hId : ∀ d, (f d).id = d.id)
    (hPair : ∀ d ∈ B.jobs, (f d).claimedAt.isSome =
      (f d).claimToken.isSome)
    (hands : ω → List (Held ι κ)) :
    Plain { B with
      jobs := Table.rewrite Delivery.id id f B.jobs
      hands := hands } where
  ids := by
    rw [Table.map_key_rewrite hId]
    exact h.ids
  pair d hMem := by
    rcases List.mem_map.mp hMem with ⟨d₀, hOld, rfl⟩
    split
    · exact hPair d₀ hOld
    · exact h.pair d₀ hOld

theorem Plain.step
    (h : B.Plain)
    (hStep : Step ttl limit B a B') :
    B'.Plain := by
  cases hStep with
  | tick _ => exact ⟨h.ids, h.pair⟩
  | known => exact h
  | @added _ id availableAt hNew =>
      constructor
      · rw [List.map_append, List.nodup_append]
        refine ⟨h.ids, by simp, ?_⟩
        intro i hOld j hAdded hEq
        rcases List.mem_map.mp hOld with ⟨d, hMem, rfl⟩
        rw [List.map_singleton, List.mem_singleton] at hAdded
        exact hNew d hMem (hEq.trans hAdded)
      · intro d hMem
        rcases List.mem_append.mp hMem with hOld | hAdded
        · exact h.pair d hOld
        · rw [List.mem_singleton.mp hAdded]
          rfl
  | @revived d now _ _ =>
      exact h.rewritten d.id (Delivery.revived_id now)
        (fun _ _ => rfl) B.hands
  | @claim w now picks _ _ _ _ _ =>
      constructor
      · rw [takenBy_ids]
        exact h.ids
      · intro d hMem
        rcases List.mem_map.mp hMem with ⟨d₀, hOld, rfl⟩
        unfold takenBy
        split
        · rfl
        · exact h.pair d₀ hOld
  | crash => exact ⟨h.ids, h.pair⟩
  | @sent w held _ =>
      have hDelivered : ∀ d : Delivery ι κ,
          d.delivered.claimedAt.isSome =
            d.delivered.claimToken.isSome := fun _ => rfl
      exact h.rewritten held.job
        (Delivery.finished_id Delivery.delivered_id held.token)
        (fun d hMem => finished_pair hDelivered
          (h.pair d hMem) held.token) _
  | @failed w held retryAt _ =>
      exact h.rewritten held.job
        (Delivery.finished_id
          (Delivery.missed_id limit retryAt) held.token)
        (fun d hMem => finished_pair (missed_pair limit retryAt)
          (h.pair d hMem) held.token) _

/- A job that waits after a step has attempts left or waited. -/
theorem Step.waiting
    (hLimit : 0 < limit)
    (hStep : Step ttl limit B a B')
    {d : Delivery ι κ}
    (hMem : d ∈ B'.jobs)
    (hWaits : d.Waiting) :
    d ∈ B.jobs ∨ d.attempts < limit := by
  cases hStep with
  | tick _ => exact Or.inl hMem
  | known => exact Or.inl hMem
  | added _ =>
      rcases List.mem_append.mp hMem with hOld | hAdded
      · exact Or.inl hOld
      · rw [List.mem_singleton.mp hAdded]
        exact Or.inr hLimit
  | revived _ _ =>
      rcases List.mem_map.mp hMem with ⟨d₀, hOld, rfl⟩
      split
      · exact Or.inr hLimit
      · exact Or.inl hOld
  | claim _ _ _ _ _ =>
      rcases List.mem_map.mp hMem with ⟨d₀, hOld, rfl⟩
      have hNone := hWaits.unclaimed
      unfold takenBy at hNone ⊢
      split at hNone
      · cases hNone
      · exact Or.inl hOld
  | crash => exact Or.inl hMem
  | sent _ =>
      rcases List.mem_map.mp hMem with ⟨d₀, hOld, rfl⟩
      have hPending := hWaits.pending
      unfold Delivery.finished at hPending ⊢
      split at hPending
      · split at hPending
        · cases hPending
        · rename_i hSame hOther
          rw [if_pos hSame, if_neg hOther]
          exact Or.inl hOld
      · rename_i hSame
        rw [if_neg hSame]
        exact Or.inl hOld
  | @failed w held retryAt _ =>
      rcases List.mem_map.mp hMem with ⟨d₀, hOld, rfl⟩
      have hPending := hWaits.pending
      unfold Delivery.finished at hPending ⊢
      split at hPending
      · rename_i hSame
        rw [if_pos hSame]
        split at hPending
        · rename_i hHeld
          rw [if_pos hHeld]
          unfold Delivery.missed at hPending ⊢
          split at hPending
          · cases hPending
          · rename_i hLeft
            rw [if_neg hLeft]
            exact Or.inr (Nat.lt_of_not_le hLeft)
        · rename_i hOther
          rw [if_neg hOther]
          exact Or.inl hOld
      · rename_i hSame
        rw [if_neg hSame]
        exact Or.inl hOld

omit [DecidableEq ι] [DecidableEq ω] in
/- A job without a token is not finished by anybody. -/
theorem finished_of_waiting
    {d : Delivery ι κ}
    (hPair : d.claimedAt.isSome = d.claimToken.isSome)
    (hWaits : d.Waiting)
    (token : κ)
    (f : Delivery ι κ → Delivery ι κ) :
    d.finished token f = d := by
  apply if_neg
  rintro ⟨hToken, _⟩
  rw [hWaits.unclaimed, hToken] at hPair
  cases hPair

/- A job whose attempts are used up stays as it is. -/
theorem Step.stuck
    (h : B.Plain)
    (hStep : Step ttl limit B a B')
    {d : Delivery ι κ}
    (hMem : d ∈ B.jobs)
    (hStuck : d.Stuck limit) :
    d ∈ B'.jobs := by
  cases hStep with
  | tick _ => exact hMem
  | known => exact hMem
  | added _ => exact List.mem_append_left _ hMem
  | @revived d₀ now hOld hDead =>
      refine List.mem_map.mpr ⟨d, hMem, if_neg ?_⟩
      intro hSame
      have hFind := Table.find_of_mem h.ids hMem
      rw [hSame, Table.find_of_mem h.ids hOld] at hFind
      have hPending := hStuck.waiting.pending
      rw [← Option.some.inj hFind, hDead] at hPending
      cases hPending
  | @claim w now picks _ _ _ _ hFree =>
      refine List.mem_map.mpr ⟨d, hMem, ?_⟩
      unfold takenBy
      cases hFind : Table.find Prod.fst d.id picks with
      | none => rfl
      | some p =>
          exfalso
          rcases hFree p (Table.mem_of_find hFind) with
            ⟨d₀, hOld, hId, hClaim⟩
          have hSame : d₀.id = d.id :=
            hId.trans (Table.key_of_find hFind)
          have hJob := Table.find_of_mem h.ids hMem
          rw [← hSame, Table.find_of_mem h.ids hOld] at hJob
          rw [Option.some.inj hJob] at hClaim
          exact hStuck.not_claimable hClaim
  | crash => exact hMem
  | sent _ =>
      refine List.mem_map.mpr ⟨d, hMem, ?_⟩
      rw [finished_of_waiting (h.pair d hMem) hStuck.waiting]
      exact ite_self d
  | failed _ =>
      refine List.mem_map.mpr ⟨d, hMem, ?_⟩
      rw [finished_of_waiting (h.pair d hMem) hStuck.waiting]
      exact ite_self d

end Board
