import DcInventory.Library.Table
import Mathlib.Data.List.Nodup

/-
  This file defines a protocol for the delivery of jobs by
  workers that may stop at any time. A worker takes a lease
  on a job; a lease that has expired can be taken over, and
  then only the last token finishes the job.

  Key definitions include:
    * `Delivery`
    * `Delivery.Claimable`
    * `Board`
    * `Board.Step`
    * `Board.Sound`
    * `Board.Obeys`

  Key theorems include:
    * `Board.Inv.step`
    * `Board.Inv.sound`
    * `Board.Inv.obeys`
-/

------------------------------------------------------------
-- Jobs
------------------------------------------------------------

inductive DeliveryStatus where
| pending
| sent
| dead
deriving DecidableEq, Repr

/- A job: what the protocol knows of it. -/
structure Delivery (ι κ : Type) where
  id : ι
  status : DeliveryStatus
  attempts : Nat
  availableAt : Nat
  claimedAt : Option Nat
  claimToken : Option κ

namespace Delivery

variable {ι κ : Type}

/- A job that nobody has tried. -/
def added (id : ι) (availableAt : Nat) : Delivery ι κ :=
  ⟨id, .pending, 0, availableAt, none, none⟩

/- The lease on the job, if any, has expired. -/
def Expired (ttl now : Nat) (d : Delivery ι κ) : Prop :=
  ∀ t, d.claimedAt = some t → t + ttl < now

/-
  The job can be claimed: attempts are left, or the last one
  was never finished.
-/
structure Claimable
    (limit ttl now : Nat)
    (d : Delivery ι κ) : Prop where
  pending : d.status = .pending
  available : d.availableAt ≤ now
  left : d.attempts < limit ∨ d.claimedAt ≠ none
  expired : d.Expired ttl now

/- A lease that replaces the last attempt is not counted. -/
def taken
    (limit now : Nat)
    (token : κ)
    (d : Delivery ι κ) : Delivery ι κ :=
  { d with
    claimedAt := some now
    claimToken := some token
    attempts :=
      if d.attempts < limit then d.attempts + 1
      else d.attempts }

def delivered (d : Delivery ι κ) : Delivery ι κ :=
  { d with
    status := .sent
    claimedAt := none
    claimToken := none }

def missed
    (limit retryAt : Nat)
    (d : Delivery ι κ) : Delivery ι κ :=
  if limit ≤ d.attempts then
    { d with
      status := .dead
      claimedAt := none
      claimToken := none }
  else
    { d with
      availableAt := retryAt
      claimedAt := none
      claimToken := none }

def revived (now : Nat) (d : Delivery ι κ) :
    Delivery ι κ :=
  { d with
    status := .pending
    attempts := 0
    availableAt := now
    claimedAt := none
    claimToken := none }

/- Only a pending job with this token is finished. -/
def finished [DecidableEq κ]
    (token : κ)
    (f : Delivery ι κ → Delivery ι κ)
    (d : Delivery ι κ) : Delivery ι κ :=
  if d.claimToken = some token ∧ d.status = .pending
  then f d
  else d

@[simp]
theorem taken_id
    (limit now : Nat) (token : κ) (d : Delivery ι κ) :
    (d.taken limit now token).id = d.id :=
  rfl

@[simp]
theorem revived_id (now : Nat) (d : Delivery ι κ) :
    (d.revived now).id = d.id :=
  rfl

@[simp]
theorem delivered_id (d : Delivery ι κ) :
    d.delivered.id = d.id :=
  rfl

@[simp]
theorem missed_id
    (limit retryAt : Nat) (d : Delivery ι κ) :
    (d.missed limit retryAt).id = d.id := by
  unfold missed
  split <;> rfl

theorem finished_id [DecidableEq κ]
    {f : Delivery ι κ → Delivery ι κ}
    (hId : ∀ d, (f d).id = d.id)
    (token : κ)
    (d : Delivery ι κ) :
    (d.finished token f).id = d.id := by
  unfold finished
  split
  · exact hId d
  · rfl

/- What holds of every job of a board. -/
structure Fit (limit : Nat) (d : Delivery ι κ) : Prop where
  attempts : d.attempts ≤ limit
  pair : d.claimedAt.isSome = d.claimToken.isSome
  claimed : d.claimedAt.isSome → d.status = .pending
  unclaimed : d.status = .pending → d.claimedAt = none →
    d.attempts < limit

theorem fit_added
    {limit : Nat}
    (hLimit : 0 < limit)
    (id : ι)
    (availableAt : Nat) :
    (added id availableAt : Delivery ι κ).Fit limit where
  attempts := Nat.zero_le limit
  pair := rfl
  claimed h := by cases h
  unclaimed _ _ := hLimit

theorem fit_revived
    {limit : Nat}
    (hLimit : 0 < limit)
    (now : Nat)
    (d : Delivery ι κ) :
    (d.revived now).Fit limit where
  attempts := Nat.zero_le limit
  pair := rfl
  claimed h := by cases h
  unclaimed _ _ := hLimit

theorem Fit.taken
    {limit : Nat}
    {d : Delivery ι κ}
    (h : d.Fit limit)
    (hPending : d.status = .pending)
    (now : Nat)
    (token : κ) :
    (d.taken limit now token).Fit limit where
  attempts := by
    have hOld := h.attempts
    unfold Delivery.taken
    dsimp only
    split <;> omega
  pair := rfl
  claimed _ := hPending
  unclaimed _ hNone := by cases hNone

theorem Fit.delivered
    {limit : Nat}
    {d : Delivery ι κ}
    (h : d.Fit limit) :
    d.delivered.Fit limit where
  attempts := h.attempts
  pair := rfl
  claimed hSome := by cases hSome
  unclaimed hPending := by cases hPending

theorem Fit.missed
    {limit : Nat}
    {d : Delivery ι κ}
    (h : d.Fit limit)
    (retryAt : Nat) :
    (d.missed limit retryAt).Fit limit := by
  have hOld := h.attempts
  unfold Delivery.missed
  split
  · exact ⟨hOld, rfl, (nomatch ·), (nomatch ·)⟩
  · rename_i hLeft
    exact ⟨hOld, rfl, (nomatch ·),
      fun _ _ => Nat.lt_of_not_le hLeft⟩

/- Whatever is pending can be claimed some time. -/
theorem Fit.returns
    {limit : Nat}
    {d : Delivery ι κ}
    (h : d.Fit limit)
    (ttl : Nat)
    (hPending : d.status = .pending) :
    ∃ t, ∀ now, t ≤ now → d.Claimable limit ttl now := by
  cases hClaim : d.claimedAt with
  | none =>
      refine ⟨d.availableAt, fun now hNow =>
        ⟨hPending, hNow,
          Or.inl (h.unclaimed hPending hClaim), ?_⟩⟩
      intro t hSome
      rw [hClaim] at hSome
      cases hSome
  | some since =>
      refine ⟨d.availableAt + (since + ttl) + 1,
        fun now hNow => ⟨hPending, by omega,
          Or.inr (by simp [hClaim]), ?_⟩⟩
      intro t hSome
      rw [hClaim] at hSome
      cases hSome
      omega

end Delivery

------------------------------------------------------------
-- Boards
------------------------------------------------------------

/- A lease in the hands of a worker. -/
structure Held (ι κ : Type) where
  job : ι
  token : κ
  since : Nat
deriving DecidableEq

/-
  The jobs, the leases that workers hold, and every token
  that was ever given out, the latest first.
-/
structure Board (ι κ ω : Type) where
  clock : Nat
  jobs : List (Delivery ι κ)
  hands : ω → List (Held ι κ)
  issued : List (ι × κ)

namespace Board

/- What happens, seen from outside. -/
inductive Act (ι κ ω : Type) where
| tick
| enqueue (requeueDead : Bool)
| claim (w : ω)
| crash (w : ω)
| sent (w : ω) (h : Held ι κ)
| failed (w : ω) (h : Held ι κ)

variable {ι κ ω : Type}
variable [DecidableEq ι] [DecidableEq κ] [DecidableEq ω]

/- The last token given out for a job. -/
def latest (B : Board ι κ ω) (id : ι) : Option κ :=
  (Table.find Prod.fst id B.issued).map Prod.snd

/- A job after a claim of the picked ones. -/
def takenBy
    (limit now : Nat)
    (picks : List (ι × κ))
    (d : Delivery ι κ) : Delivery ι κ :=
  match Table.find Prod.fst d.id picks with
  | some p => d.taken limit now p.2
  | none => d

/- The jobs after the holder of `h` has finished. -/
def settled
    (h : Held ι κ)
    (f : Delivery ι κ → Delivery ι κ)
    (jobs : List (Delivery ι κ)) : List (Delivery ι κ) :=
  Table.rewrite Delivery.id h.job
    (Delivery.finished h.token f) jobs

/- The worker gives up a lease. -/
def dropped
    (B : Board ι κ ω)
    (w : ω)
    (h : Held ι κ) : ω → List (Held ι κ) :=
  Function.update B.hands w
    ((B.hands w).filter (fun h' => h' ≠ h))

/-
  One step. A worker reads the clock before it claims, and
  tokens are drawn that nobody has seen.
-/
inductive Step
    (ttl limit : Nat)
    (B : Board ι κ ω) :
    Act ι κ ω → Board ι κ ω → Prop where
| tick {t} :
    B.clock ≤ t →
    Step ttl limit B .tick { B with clock := t }
| known {requeueDead} :
    Step ttl limit B (.enqueue requeueDead) B
| added {requeueDead id availableAt} :
    (∀ d ∈ B.jobs, d.id ≠ id) →
    Step ttl limit B (.enqueue requeueDead)
      { B with
        jobs := B.jobs ++ [.added id availableAt] }
| revived {d now} :
    d ∈ B.jobs →
    d.status = .dead →
    Step ttl limit B (.enqueue true)
      { B with
        jobs := Table.rewrite Delivery.id d.id
          (Delivery.revived now) B.jobs }
| claim {w now picks} :
    now ≤ B.clock →
    (picks.map Prod.snd).Nodup →
    (∀ p ∈ picks, p.2 ∉ B.issued.map Prod.snd) →
    (picks.map Prod.fst).Nodup →
    (∀ p ∈ picks, ∃ d ∈ B.jobs, d.id = p.1 ∧
      d.Claimable limit ttl now) →
    Step ttl limit B (.claim w)
      { B with
        jobs := B.jobs.map (takenBy limit now picks)
        hands := Function.update B.hands w
          (B.hands w ++ picks.map (fun p =>
            ⟨p.1, p.2, now⟩))
        issued := picks ++ B.issued }
| crash {w} :
    Step ttl limit B (.crash w)
      { B with hands := Function.update B.hands w [] }
| sent {w h} :
    h ∈ B.hands w →
    Step ttl limit B (.sent w h)
      { B with
        jobs := settled h Delivery.delivered B.jobs
        hands := B.dropped w h }
| failed {w h retryAt} :
    h ∈ B.hands w →
    Step ttl limit B (.failed w h)
      { B with
        jobs := settled h (Delivery.missed limit retryAt)
          B.jobs
        hands := B.dropped w h }

/- A lease that has not expired. -/
def Live (ttl : Nat) (B : Board ι κ ω) (h : Held ι κ) :
    Prop :=
  B.clock ≤ h.since + ttl

/- The invariant of boards. -/
structure Inv (ttl limit : Nat) (B : Board ι κ ω) :
    Prop where
  ids : (B.jobs.map Delivery.id).Nodup
  fit : ∀ d ∈ B.jobs, d.Fit limit
  last : ∀ d ∈ B.jobs, ∀ k, d.claimToken = some k →
    B.latest d.id = some k
  tokens : (B.issued.map Prod.snd).Nodup
  given : ∀ w, ∀ h ∈ B.hands w, (h.job, h.token) ∈ B.issued
  lease : ∀ w, ∀ h ∈ B.hands w, B.Live ttl h →
    ∃ d ∈ B.jobs, d.id = h.job ∧
      d.claimToken = some h.token ∧
      d.claimedAt = some h.since
  single : ∀ w w' h h', h ∈ B.hands w → h' ∈ B.hands w' →
    h.token = h'.token → w = w' ∧ h = h'

/- What every reachable board satisfies. -/
structure Sound (ttl limit : Nat) (B : Board ι κ ω) :
    Prop where
  attempts : ∀ d ∈ B.jobs, d.attempts ≤ limit
  pair : ∀ d ∈ B.jobs,
    d.claimedAt.isSome = d.claimToken.isSome
  holder : ∀ w w' h h', h ∈ B.hands w → h' ∈ B.hands w' →
    h.job = h'.job → B.Live ttl h → B.Live ttl h' → w = w'
  unclaimed : ∀ d ∈ B.jobs, d.status = .pending →
    d.claimedAt = none → d.attempts < limit
  returns : ∀ d ∈ B.jobs, d.status = .pending →
    ∃ t, ∀ now, t ≤ now → d.Claimable limit ttl now

/- The moves of a status that a step may make. -/
inductive Move
    (limit : Nat)
    (d : Delivery ι κ) :
    Act ι κ ω → DeliveryStatus → Prop where
| same {a} : Move limit d a d.status
| sent {w h} :
    d.status = .pending →
    d.id = h.job →
    d.claimToken = some h.token →
    Move limit d (.sent w h) .sent
| dead {w h} :
    d.status = .pending →
    d.id = h.job →
    d.claimToken = some h.token →
    d.attempts = limit →
    Move limit d (.failed w h) .dead
| requeued :
    d.status = .dead →
    Move limit d (.enqueue true) .pending

/- The step ends the lease `h`. -/
def Act.Finishes (h : Held ι κ) (a : Act ι κ ω) : Prop :=
  ∃ w, a = .sent w h ∨ a = .failed w h

/- What every step from a reachable board satisfies. -/
structure Obeys
    (limit : Nat)
    (B : Board ι κ ω)
    (a : Act ι κ ω)
    (B' : Board ι κ ω) : Prop where
  moves : ∀ d ∈ B.jobs, ∃ d' ∈ B'.jobs, d'.id = d.id ∧
    Move limit d a d'.status
  fenced : ∀ h, a.Finishes h →
    B.latest h.job ≠ some h.token → B'.jobs = B.jobs


------------------------------------------------------------
-- The Invariant
------------------------------------------------------------

variable {ttl limit : Nat}
variable {B : Board ι κ ω}

omit [DecidableEq κ] [DecidableEq ω] in
/- A job is the one with its id. -/
theorem Inv.job_unique
    (h : B.Inv ttl limit)
    {d d' : Delivery ι κ}
    (hMem : d ∈ B.jobs)
    (hMem' : d' ∈ B.jobs)
    (hId : d.id = d'.id) :
    d = d' := by
  have hFind := Table.find_of_mem h.ids hMem
  rw [hId, Table.find_of_mem h.ids hMem'] at hFind
  exact (Option.some.inj hFind).symm

omit [DecidableEq κ] [DecidableEq ω] in
theorem Inv.tick
    (h : B.Inv ttl limit)
    {t : Nat}
    (hLater : B.clock ≤ t) :
    Inv ttl limit { B with clock := t } where
  ids := h.ids
  fit := h.fit
  last := h.last
  tokens := h.tokens
  given := h.given
  lease w held hMem hLive :=
    h.lease w held hMem (Nat.le_trans hLater hLive)
  single := h.single

omit [DecidableEq κ] [DecidableEq ω] in
theorem Inv.added
    (hLimit : 0 < limit)
    (h : B.Inv ttl limit)
    {id : ι}
    (hNew : ∀ d ∈ B.jobs, d.id ≠ id)
    (availableAt : Nat) :
    Inv ttl limit
      { B with jobs := B.jobs ++ [.added id availableAt] } where
  ids := by
    rw [List.map_append, List.nodup_append]
    refine ⟨h.ids, by simp, ?_⟩
    intro i hOld j hAdded hEq
    rcases List.mem_map.mp hOld with ⟨d, hMem, rfl⟩
    rw [List.map_singleton, List.mem_singleton] at hAdded
    exact hNew d hMem (hEq.trans hAdded)
  fit d hMem := by
    rcases List.mem_append.mp hMem with hOld | hAdded
    · exact h.fit d hOld
    · rw [List.mem_singleton.mp hAdded]
      exact Delivery.fit_added hLimit id availableAt
  last d hMem k hToken := by
    rcases List.mem_append.mp hMem with hOld | hAdded
    · exact h.last d hOld k hToken
    · rw [List.mem_singleton.mp hAdded] at hToken
      cases hToken
  tokens := h.tokens
  given := h.given
  lease w held hMem hLive := by
    rcases h.lease w held hMem hLive with ⟨d, hJob, hHeld⟩
    exact ⟨d, List.mem_append_left _ hJob, hHeld⟩
  single := h.single

omit [DecidableEq κ] [DecidableEq ω] in
/-
  One job is rewritten and the hands only lose leases: no
  job gets a token, and where one loses it nobody holds it.
-/
theorem Inv.rewritten
    (h : B.Inv ttl limit)
    {id : ι}
    {f : Delivery ι κ → Delivery ι κ}
    {hands : ω → List (Held ι κ)}
    (hId : ∀ d, (f d).id = d.id)
    (hFit : ∀ d ∈ B.jobs, d.id = id → (f d).Fit limit)
    (hToken : ∀ d ∈ B.jobs, d.id = id →
      ∀ k, (f d).claimToken = some k → f d = d)
    (hFewer : ∀ w, ∀ held ∈ hands w, held ∈ B.hands w)
    (hKept : ∀ w, ∀ held ∈ hands w, ∀ d ∈ B.jobs,
      d.id = id → held.job = id →
      d.claimToken = some held.token → f d = d) :
    Inv ttl limit
      { B with
        jobs := Table.rewrite Delivery.id id f B.jobs
        hands := hands } where
  ids := by
    rw [Table.map_key_rewrite hId]
    exact h.ids
  fit d hMem := by
    rcases List.mem_map.mp hMem with ⟨d₀, hOld, rfl⟩
    split
    · rename_i hSame
      exact hFit d₀ hOld hSame
    · exact h.fit d₀ hOld
  last d hMem k hSome := by
    rcases List.mem_map.mp hMem with ⟨d₀, hOld, rfl⟩
    split at hSome
    · rename_i hSame
      rw [hToken d₀ hOld hSame k hSome] at hSome
      rw [if_pos hSame, hId]
      exact h.last d₀ hOld k hSome
    · rename_i hOther
      rw [if_neg hOther]
      exact h.last d₀ hOld k hSome
  tokens := h.tokens
  given w held hMem := h.given w held (hFewer w held hMem)
  lease w held hMem hLive := by
    rcases h.lease w held (hFewer w held hMem) hLive with
      ⟨d, hJob, hIs, hHeld, hSince⟩
    refine ⟨_, List.mem_map_of_mem hJob, ?_⟩
    split
    · rename_i hSame
      rw [hKept w held hMem d hJob hSame
        (hIs.symm.trans hSame) hHeld]
      exact ⟨hIs, hHeld, hSince⟩
    · exact ⟨hIs, hHeld, hSince⟩
  single w w' held held' hMem hMem' :=
    h.single w w' held held' (hFewer w held hMem)
      (hFewer w' held' hMem')

omit [DecidableEq κ] [DecidableEq ω] in
theorem Inv.revived
    (hLimit : 0 < limit)
    (h : B.Inv ttl limit)
    {d : Delivery ι κ}
    (hMem : d ∈ B.jobs)
    (hDead : d.status = .dead)
    (now : Nat) :
    Inv ttl limit
      { B with
        jobs := Table.rewrite Delivery.id d.id
          (Delivery.revived now) B.jobs } := by
  refine h.rewritten (fun _ => rfl)
    (fun d' _ _ => Delivery.fit_revived hLimit now d')
    (fun _ _ _ _ hSome => nomatch hSome)
    (fun _ _ hHeld => hHeld) ?_
  intro w held _ d' hMem' hSame _ hToken
  have hEq : d' = d := h.job_unique hMem' hMem hSame
  have hFit := h.fit d' hMem'
  have hPending : d'.status = .pending :=
    hFit.claimed (by rw [hFit.pair, hToken]; rfl)
  rw [hEq, hDead] at hPending
  cases hPending

theorem Inv.settled
    (h : B.Inv ttl limit)
    {w : ω}
    {held : Held ι κ}
    {f : Delivery ι κ → Delivery ι κ}
    (hMem : held ∈ B.hands w)
    (hId : ∀ d, (f d).id = d.id)
    (hFit : ∀ d, d.Fit limit → (f d).Fit limit)
    (hNone : ∀ d, (f d).claimToken = none) :
    Inv ttl limit
      { B with
        jobs := Board.settled held f B.jobs
        hands := B.dropped w held } := by
  have hFewer : ∀ w', ∀ held' ∈ B.dropped w held w',
      held' ∈ B.hands w' ∧ (w' = w → held' ≠ held) := by
    intro w' held' hMem'
    unfold dropped at hMem'
    rcases eq_or_ne w' w with rfl | hNe
    · rw [Function.update_self, List.mem_filter] at hMem'
      exact ⟨hMem'.1, fun _ => of_decide_eq_true hMem'.2⟩
    · rw [Function.update_of_ne hNe] at hMem'
      exact ⟨hMem', fun hEq => (hNe hEq).elim⟩
  refine h.rewritten (Delivery.finished_id hId held.token)
    ?_ ?_ (fun w' held' hMem' => (hFewer w' held' hMem').1) ?_
  · intro d hJob _
    unfold Delivery.finished
    split
    · exact hFit d (h.fit d hJob)
    · exact h.fit d hJob
  · intro d _ _ k hSome
    unfold Delivery.finished at hSome ⊢
    split at hSome
    · rw [hNone] at hSome
      cases hSome
    · rename_i hOther
      exact if_neg hOther
  · intro w' held' hMem' d _ _ _ hToken
    unfold Delivery.finished
    apply if_neg
    rintro ⟨hHeld, _⟩
    have hSame : held'.token = held.token :=
      Option.some.inj (hToken.symm.trans hHeld)
    rcases hFewer w' held' hMem' with ⟨hOld, hOther⟩
    rcases h.single w' w held' held hOld hMem hSame with
      ⟨hWorker, hEq⟩
    exact hOther hWorker hEq

omit [DecidableEq κ] [DecidableEq ω] in
@[simp]
theorem takenBy_id
    (limit now : Nat)
    (picks : List (ι × κ))
    (d : Delivery ι κ) :
    (takenBy limit now picks d).id = d.id := by
  unfold takenBy
  split <;> rfl

omit [DecidableEq κ] [DecidableEq ω] in
theorem takenBy_ids
    (limit now : Nat)
    (picks : List (ι × κ))
    (jobs : List (Delivery ι κ)) :
    (jobs.map (takenBy limit now picks)).map Delivery.id =
      jobs.map Delivery.id := by
  simp [Function.comp_def]

omit [DecidableEq ω] in
/- A job that is through is not finished again. -/
theorem mem_settled
    {d : Delivery ι κ}
    {jobs : List (Delivery ι κ)}
    (h : Held ι κ)
    (f : Delivery ι κ → Delivery ι κ)
    (hMem : d ∈ jobs)
    (hStatus : d.status ≠ .pending) :
    d ∈ settled h f jobs := by
  unfold settled
  rw [Table.mem_rewrite]
  by_cases hJob : d.id = h.job
  · refine Or.inr ⟨d, hMem, hJob, ?_⟩
    unfold Delivery.finished
    exact if_neg fun hBoth => hStatus hBoth.2
  · exact Or.inl ⟨hMem, hJob⟩

omit [DecidableEq κ] [DecidableEq ω] in
/- A job that is through is not taken. -/
theorem mem_takenBy
    {ttl limit now : Nat}
    {picks : List (ι × κ)}
    {d : Delivery ι κ}
    {jobs : List (Delivery ι κ)}
    (hIds : (jobs.map Delivery.id).Nodup)
    (hPicks : ∀ p ∈ picks, ∃ d ∈ jobs,
      d.id = p.1 ∧ d.Claimable limit ttl now)
    (hMem : d ∈ jobs)
    (hStatus : d.status ≠ .pending) :
    d ∈ jobs.map (takenBy limit now picks) := by
  refine List.mem_map.mpr ⟨d, hMem, ?_⟩
  unfold takenBy
  split
  · rename_i p hFind
    rcases hPicks p (Table.mem_of_find hFind) with
      ⟨d', hMem', hId, hClaimable⟩
    have hSame : d' = d := List.inj_on_of_nodup_map hIds hMem'
      hMem (hId.trans (Table.key_of_find hFind))
    exact absurd (hSame ▸ hClaimable.pending) hStatus
  · rfl

omit [DecidableEq κ] in
theorem Inv.claim
    (h : B.Inv ttl limit)
    {w : ω}
    {now : Nat}
    {picks : List (ι × κ)}
    (hNow : now ≤ B.clock)
    (hDrawn : (picks.map Prod.snd).Nodup)
    (hNew : ∀ p ∈ picks, p.2 ∉ B.issued.map Prod.snd)
    (hOnce : (picks.map Prod.fst).Nodup)
    (hFree : ∀ p ∈ picks, ∃ d ∈ B.jobs, d.id = p.1 ∧
      d.Claimable limit ttl now) :
    Inv ttl limit
      { B with
        jobs := B.jobs.map (takenBy limit now picks)
        hands := Function.update B.hands w
          (B.hands w ++ picks.map (fun p =>
            ⟨p.1, p.2, now⟩))
        issued := picks ++ B.issued } := by
  -- a picked job can be claimed as it is on the board
  have hPicked : ∀ p ∈ picks, ∀ d ∈ B.jobs, d.id = p.1 →
      d.Claimable limit ttl now := by
    intro p hPick d hMem hId
    rcases hFree p hPick with ⟨d', hMem', hId', hClaimable⟩
    rwa [h.job_unique hMem hMem' (hId.trans hId'.symm)]
  have hHands : ∀ w', ∀ held ∈ Function.update B.hands w
      (B.hands w ++ picks.map (fun p => ⟨p.1, p.2, now⟩)) w',
      held ∈ B.hands w' ∨ (w' = w ∧ ∃ p ∈ picks,
        held = ⟨p.1, p.2, now⟩) := by
    intro w' held hMem
    rcases eq_or_ne w' w with rfl | hNe
    · rw [Function.update_self] at hMem
      rcases List.mem_append.mp hMem with hOld | hAdded
      · exact Or.inl hOld
      · rcases List.mem_map.mp hAdded with ⟨p, hPick, rfl⟩
        exact Or.inr ⟨rfl, p, hPick, rfl⟩
    · rw [Function.update_of_ne hNe] at hMem
      exact Or.inl hMem
  have hUnseen : ∀ p ∈ picks, ∀ w', ∀ held ∈ B.hands w',
      held.token ≠ p.2 := by
    intro p hPick w' held hMem hEq
    apply hNew p hPick
    rw [← hEq]
    exact List.mem_map_of_mem (h.given w' held hMem)
  constructor
  case ids =>
    rw [takenBy_ids]
    exact h.ids
  case fit =>
    intro d hMem
    rcases List.mem_map.mp hMem with ⟨d₀, hOld, rfl⟩
    unfold takenBy
    split
    · rename_i p hFind
      have hClaimable := hPicked p (Table.mem_of_find hFind)
        d₀ hOld (Table.key_of_find hFind).symm
      exact (h.fit d₀ hOld).taken hClaimable.pending now p.2
    · exact h.fit d₀ hOld
  case last =>
    intro d hMem k hSome
    rcases List.mem_map.mp hMem with ⟨d₀, hOld, rfl⟩
    rw [takenBy_id]
    unfold latest
    unfold takenBy at hSome
    split at hSome
    · rename_i p hFind
      cases hSome
      rw [Table.find_append_of_some hFind]
      rfl
    · rename_i hNone
      rw [Table.find_append_of_none hNone]
      exact h.last d₀ hOld k hSome
  case tokens =>
    rw [List.map_append, List.nodup_append]
    refine ⟨hDrawn, h.tokens, ?_⟩
    intro k hPick k' hOld hEq
    rcases List.mem_map.mp hPick with ⟨p, hMem, rfl⟩
    exact hNew p hMem (hEq ▸ hOld)
  case given =>
    intro w' held hMem
    rcases hHands w' held hMem with hOld | ⟨_, p, hPick, rfl⟩
    · exact List.mem_append_right _ (h.given w' held hOld)
    · exact List.mem_append_left _ hPick
  case lease =>
    intro w' held hMem hLive
    rcases hHands w' held hMem with hOld | ⟨_, p, hPick, rfl⟩
    · rcases h.lease w' held hOld hLive with
        ⟨d, hJob, hId, hToken, hSince⟩
      refine ⟨_, List.mem_map_of_mem hJob, ?_⟩
      unfold takenBy
      split
      · -- a job with a live lease cannot have been picked
        rename_i q hFind
        have hExpired := (hPicked q (Table.mem_of_find hFind)
          d hJob (Table.key_of_find hFind).symm).expired
        have hOver := hExpired held.since hSince
        unfold Live at hLive
        dsimp only at hLive
        omega
      · exact ⟨hId, hToken, hSince⟩
    · rcases hFree p hPick with ⟨d, hJob, hId, _⟩
      refine ⟨_, List.mem_map_of_mem hJob, ?_⟩
      have hFind : Table.find Prod.fst d.id picks = some p := by
        rw [hId]
        exact Table.find_of_mem hOnce hPick
      unfold takenBy
      rw [hFind]
      exact ⟨hId, rfl, rfl⟩
  case single =>
    intro w₁ w₂ held held' hMem hMem' hEq
    rcases hHands w₁ held hMem with
      hOld | ⟨rfl, p, hPick, rfl⟩
    · rcases hHands w₂ held' hMem' with
        hOld' | ⟨rfl, q, hPick', rfl⟩
      · exact h.single w₁ w₂ held held' hOld hOld' hEq
      · exact (hUnseen q hPick' w₁ held hOld hEq).elim
    · rcases hHands w₂ held' hMem' with
        hOld' | ⟨rfl, q, hPick', rfl⟩
      · exact (hUnseen p hPick w₂ held' hOld' hEq.symm).elim
      · have hSame : p = q :=
          List.inj_on_of_nodup_map hDrawn hPick hPick' hEq
        rw [hSame]
        exact ⟨rfl, rfl⟩

omit [DecidableEq κ] in
theorem Inv.crash
    (h : B.Inv ttl limit)
    (w : ω) :
    Inv ttl limit
      { B with hands := Function.update B.hands w [] } := by
  have hFewer : ∀ w', ∀ held ∈ Function.update B.hands w []
      w', held ∈ B.hands w' := by
    intro w' held hMem
    rcases eq_or_ne w' w with rfl | hNe
    · rw [Function.update_self] at hMem
      cases hMem
    · rwa [Function.update_of_ne hNe] at hMem
  exact
    { ids := h.ids
      fit := h.fit
      last := h.last
      tokens := h.tokens
      given := fun w' held hMem =>
        h.given w' held (hFewer w' held hMem)
      lease := fun w' held hMem hLive =>
        h.lease w' held (hFewer w' held hMem) hLive
      single := fun w' w'' held held' hMem hMem' =>
        h.single w' w'' held held' (hFewer w' held hMem)
          (hFewer w'' held' hMem') }

/- Every step keeps the invariant. -/
theorem Inv.step
    (hLimit : 0 < limit)
    {a : Act ι κ ω}
    {B' : Board ι κ ω}
    (h : B.Inv ttl limit)
    (hStep : Step ttl limit B a B') :
    B'.Inv ttl limit := by
  cases hStep with
  | tick hLater => exact h.tick hLater
  | known => exact h
  | added hNew => exact h.added hLimit hNew _
  | revived hMem hDead => exact h.revived hLimit hMem hDead _
  | claim hNow hDrawn hNew hOnce hFree =>
      exact h.claim hNow hDrawn hNew hOnce hFree
  | crash => exact h.crash _
  | sent hMem =>
      exact h.settled hMem Delivery.delivered_id
        (fun _ hFit => hFit.delivered) (fun _ => rfl)
  | failed hMem =>
      refine h.settled hMem (Delivery.missed_id limit _)
        (fun _ hFit => hFit.missed _) ?_
      intro d
      unfold Delivery.missed
      split <;> rfl

omit [DecidableEq κ] [DecidableEq ω] in
/- A board without jobs satisfies the invariant. -/
theorem inv_empty
    (clock : Nat) :
    Inv ttl limit
      (⟨clock, [], fun _ => [], []⟩ : Board ι κ ω) where
  ids := List.nodup_nil
  fit d hMem := by cases hMem
  last d hMem := by cases hMem
  tokens := List.nodup_nil
  given w held hMem := by cases hMem
  lease w held hMem := by cases hMem
  single w w' held held' hMem := by cases hMem

------------------------------------------------------------
-- What The Invariant Gives
------------------------------------------------------------

omit [DecidableEq κ] [DecidableEq ω] in
/- A board that satisfies the invariant is sound. -/
theorem Inv.sound
    (h : B.Inv ttl limit) :
    B.Sound ttl limit where
  attempts d hMem := (h.fit d hMem).attempts
  pair d hMem := (h.fit d hMem).pair
  holder w w' held held' hMem hMem' hJob hLive hLive' := by
    rcases h.lease w held hMem hLive with
      ⟨d, hJobs, hId, hToken, _⟩
    rcases h.lease w' held' hMem' hLive' with
      ⟨d', hJobs', hId', hToken', _⟩
    have hEq : d = d' := h.job_unique hJobs hJobs'
      (hId.trans (hJob.trans hId'.symm))
    rw [← hEq, hToken] at hToken'
    exact (h.single w w' held held' hMem hMem'
      (Option.some.inj hToken')).1
  unclaimed d hMem := (h.fit d hMem).unclaimed
  returns d hMem hPending := (h.fit d hMem).returns ttl hPending

omit [DecidableEq κ] [DecidableEq ω] in
/- A rewritten job moves as the rewriting says. -/
theorem moves_rewrite
    {a : Act ι κ ω}
    {id : ι}
    {f : Delivery ι κ → Delivery ι κ}
    (hId : ∀ d, (f d).id = d.id)
    (hMove : ∀ d ∈ B.jobs, d.id = id →
      Move limit d a (f d).status)
    {d : Delivery ι κ}
    (hMem : d ∈ B.jobs) :
    ∃ d' ∈ Table.rewrite Delivery.id id f B.jobs,
      d'.id = d.id ∧ Move limit d a d'.status := by
  refine ⟨_, List.mem_map_of_mem hMem, ?_⟩
  split
  · rename_i hSame
    exact ⟨hId d, hMove d hMem hSame⟩
  · exact ⟨rfl, .same⟩

omit [DecidableEq ω] in
/- Without the last token nothing is finished. -/
theorem Inv.fenced
    (h : B.Inv ttl limit)
    {held : Held ι κ}
    (f : Delivery ι κ → Delivery ι κ)
    (hOther : B.latest held.job ≠ some held.token) :
    Board.settled held f B.jobs = B.jobs := by
  have hSame : ∀ d ∈ B.jobs, (if d.id = held.job
      then Delivery.finished held.token f d else d) = d := by
    intro d hMem
    split
    · rename_i hId
      unfold Delivery.finished
      apply if_neg
      rintro ⟨hToken, _⟩
      have hLast := h.last d hMem held.token hToken
      rw [hId] at hLast
      exact hOther hLast
    · rfl
  unfold Board.settled Table.rewrite
  rw [List.map_congr_left hSame]
  exact List.map_id' B.jobs

omit [DecidableEq κ] [DecidableEq ω] in
theorem takenBy_status
    (limit now : Nat)
    (picks : List (ι × κ))
    (d : Delivery ι κ) :
    (takenBy limit now picks d).status = d.status := by
  unfold takenBy
  split <;> rfl

/- Each job moves as its step may move it. -/
theorem Inv.moves
    {a : Act ι κ ω}
    {B' : Board ι κ ω}
    (h : B.Inv ttl limit)
    (hStep : Step ttl limit B a B')
    {d : Delivery ι κ}
    (hMem : d ∈ B.jobs) :
    ∃ d' ∈ B'.jobs, d'.id = d.id ∧
      Move limit d a d'.status := by
  cases hStep with
  | tick _ => exact ⟨d, hMem, rfl, .same⟩
  | known => exact ⟨d, hMem, rfl, .same⟩
  | added _ =>
      exact ⟨d, List.mem_append_left _ hMem, rfl, .same⟩
  | @revived d₀ now hMem₀ hDead =>
      refine moves_rewrite (Delivery.revived_id now) ?_ hMem
      intro d' hMem' hSame
      rw [h.job_unique hMem' hMem₀ hSame]
      exact .requeued hDead
  | @claim w now picks _ _ _ _ _ =>
      refine ⟨_, List.mem_map_of_mem hMem,
        takenBy_id limit now picks d, ?_⟩
      rw [takenBy_status]
      exact .same
  | crash => exact ⟨d, hMem, rfl, .same⟩
  | @sent w held _ =>
      refine moves_rewrite
        (Delivery.finished_id Delivery.delivered_id _) ?_ hMem
      intro d' _ hSame
      unfold Delivery.finished
      split
      · rename_i hMine
        exact .sent hMine.2 hSame hMine.1
      · exact .same
  | @failed w held retryAt _ =>
      refine moves_rewrite
        (Delivery.finished_id (Delivery.missed_id limit _) _)
        ?_ hMem
      intro d' hMem' hSame
      unfold Delivery.finished
      split
      · rename_i hMine
        unfold Delivery.missed
        split
        · rename_i hSpent
          exact .dead hMine.2 hSame hMine.1
            (Nat.le_antisymm (h.fit d' hMem').attempts hSpent)
        · exact .same
      · exact .same

/- Every step from a board with the invariant obeys. -/
theorem Inv.obeys
    {a : Act ι κ ω}
    {B' : Board ι κ ω}
    (h : B.Inv ttl limit)
    (hStep : Step ttl limit B a B') :
    Obeys limit B a B' where
  moves _ hMem := h.moves hStep hMem
  fenced held hEnds hOther := by
    rcases hEnds with ⟨w, rfl | rfl⟩
    · cases hStep
      exact h.fenced Delivery.delivered hOther
    · cases hStep
      exact h.fenced (Delivery.missed limit _) hOther

end Board
