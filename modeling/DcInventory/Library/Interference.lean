import DcInventory.Library.Transaction

/-
  This file defines what a transaction may rely on while
  others commit between its statements, and proves that
  programs which keep their side of the agreement keep the
  invariant of every interleaved run.

  Key definitions include:
    * `Discipline`
    * `Discipline.Reach`
    * `Discipline.Commits`
    * `Discipline.both`
    * `Txn.wlp`
    * `Discipline.Safe`

  Key theorems include:
    * `Txn.wlp_bind`
    * `Txn.wlp_run`
    * `Discipline.invariant_of_reachable`
    * `Discipline.claim_of_commit`
    * `Discipline.outcome_of_wlp`
-/

------------------------------------------------------------
-- Disciplines
------------------------------------------------------------

/-
  What every transaction is to respect: an invariant of the
  committed store, a relation that every commit stays in,
  and for each lock what nobody else changes while it is
  held.
-/
structure Discipline (σ κ : Type) where
  modes : LockModes κ
  inv : σ → Prop
  always : σ → σ → Prop
  protects : κ → σ → σ → Prop
  always_refl : ∀ s, always s s
  always_trans : ∀ {s s' s''},
    always s s' → always s' s'' → always s s''
  protects_refl : ∀ k s, protects k s s
  protects_trans : ∀ {k s s' s''},
    protects k s s' → protects k s' s'' → protects k s s''

namespace Discipline

variable {σ κ : Type}
variable {D : Discipline σ κ}

/-
  What others can do to the committed store while the locks
  `held` are held.
-/
structure Reach
    (D : Discipline σ κ)
    (held : List κ)
    (s s' : σ) : Prop where
  inv : D.inv s'
  always : D.always s s'
  protects : ∀ k ∈ held, D.protects k s s'

/- Nothing need happen. -/
theorem Reach.refl
    {held : List κ}
    {s : σ}
    (h : D.inv s) :
    D.Reach held s s where
  inv := h
  always := D.always_refl s
  protects k _ := D.protects_refl k s

/- Interference accumulates. -/
theorem Reach.trans
    {held : List κ}
    {s s' s'' : σ}
    (h : D.Reach held s s')
    (h' : D.Reach held s' s'') :
    D.Reach held s s'' where
  inv := h'.inv
  always := D.always_trans h.always h'.always
  protects k hk :=
    D.protects_trans (h.protects k hk) (h'.protects k hk)

/- More locks leave less to others. -/
theorem Reach.weaken
    {held held' : List κ}
    {s s' : σ}
    (h : D.Reach held s s')
    (hSub : ∀ k ∈ held', k ∈ held) :
    D.Reach held' s s' where
  inv := h.inv
  always := h.always
  protects k hk := h.protects k (hSub k hk)

/- Weaken what is reached to the locks held before. -/
theorem reach_of_cons
    {held : List κ}
    {s s' s'' : σ}
    {k : κ}
    (h : D.Reach held s s')
    (h' : D.Reach (k :: held) s' s'') :
    D.Reach held s s'' :=
  h.trans (h'.weaken fun _ hj => List.mem_cons_of_mem k hj)

/-
  What a transaction with locks `held` may do at its commit:
  a lock that another may hold at that time protects.
-/
structure Commits
    (D : Discipline σ κ)
    (held : List κ)
    (s s' : σ) : Prop where
  inv : D.inv s'
  always : D.always s s'
  protects : ∀ k, (∀ k' ∈ held, ¬ D.modes.conflict k k') →
    D.protects k s s'

/- A commit that changes nothing respects the discipline. -/
theorem Commits.refl
    {held : List κ}
    {s : σ}
    (h : D.inv s) :
    D.Commits held s s where
  inv := h
  always := D.always_refl s
  protects k _ := D.protects_refl k s

/- Two disciplines over the same locks, to be respected both. -/
def both (D D' : Discipline σ κ) : Discipline σ κ where
  modes := D.modes
  inv s := D.inv s ∧ D'.inv s
  always s s' := D.always s s' ∧ D'.always s s'
  protects k s s' := D.protects k s s' ∧ D'.protects k s s'
  always_refl s := ⟨D.always_refl s, D'.always_refl s⟩
  always_trans h h' :=
    ⟨D.always_trans h.1 h'.1, D'.always_trans h.2 h'.2⟩
  protects_refl k s :=
    ⟨D.protects_refl k s, D'.protects_refl k s⟩
  protects_trans h h' :=
    ⟨D.protects_trans h.1 h'.1, D'.protects_trans h.2 h'.2⟩

variable {D' : Discipline σ κ}

/- What both leave to others, each leaves to others. -/
theorem Reach.left
    {held : List κ}
    {s s' : σ}
    (h : (D.both D').Reach held s s') :
    D.Reach held s s' where
  inv := h.inv.1
  always := h.always.1
  protects k hk := (h.protects k hk).1

theorem Reach.right
    {held : List κ}
    {s s' : σ}
    (h : (D.both D').Reach held s s') :
    D'.Reach held s s' where
  inv := h.inv.2
  always := h.always.2
  protects k hk := (h.protects k hk).2

/- What each lets a transaction commit, both let it commit. -/
theorem Commits.both
    {held : List κ}
    {s s' : σ}
    (hModes : D'.modes = D.modes)
    (h : D.Commits held s s')
    (h' : D'.Commits held s s') :
    (D.both D').Commits held s s' where
  inv := ⟨h.inv, h'.inv⟩
  always := ⟨h.always, h'.always⟩
  protects k hFree :=
    ⟨h.protects k hFree, h'.protects k (hModes ▸ hFree)⟩

end Discipline

------------------------------------------------------------
-- Weakest Preconditions
------------------------------------------------------------

/- What is to hold where a program ends. -/
abbrev Post (σ κ ε α : Type) :=
  Except ε α → List κ → (σ → σ) → σ → Prop

namespace Txn

variable {σ κ ε α β : Type}

/-
  The program, continued from the committed store `s` with
  locks `held` and own writes `own`, ends only where `Q`
  holds, whatever others commit between its statements.
-/
def wlp
    (D : Discipline σ κ) :
    Txn σ κ ε α → Post σ κ ε α →
      List κ → (σ → σ) → σ → Prop
| .pure a, Q, held, own, s =>
    ∀ s', D.Reach held s s' → Q (.ok a) held own s'
| .fail e, Q, held, own, s =>
    ∀ s', D.Reach held s s' → Q (.error e) held own s'
| .lock k next, Q, held, own, s =>
    ∀ s', D.Reach held s s' →
      next.wlp D Q (k :: held) own s'
| .read next, Q, held, own, s =>
    ∀ s', D.Reach held s s' →
      (next (own s')).wlp D Q held own s'
| .write change next, Q, held, own, s =>
    next.wlp D Q held (change ∘ own) s

variable {D : Discipline σ κ}
variable {held : List κ}
variable {own : σ → σ}
variable {s s' : σ}

/- What others do before the program goes on is allowed for. -/
theorem wlp_reach
    {p : Txn σ κ ε α}
    {Q : Post σ κ ε α}
    (h : p.wlp D Q held own s)
    (hReach : D.Reach held s s') :
    p.wlp D Q held own s' := by
  induction p generalizing own with
  | pure a => exact fun s'' hNext => h s'' (hReach.trans hNext)
  | fail e => exact fun s'' hNext => h s'' (hReach.trans hNext)
  | lock k next ih =>
      exact fun s'' hNext => h s'' (hReach.trans hNext)
  | read next ih =>
      exact fun s'' hNext => h s'' (hReach.trans hNext)
  | write change next ih => exact ih h

/- A weaker postcondition is easier to meet. -/
theorem wlp_imp
    {p : Txn σ κ ε α}
    {Q Q' : Post σ κ ε α}
    (hQ : ∀ r held own s,
      D.inv s → Q r held own s → Q' r held own s)
    (h : p.wlp D Q held own s) :
    p.wlp D Q' held own s := by
  induction p generalizing held own s with
  | pure a =>
      exact fun s' hReach =>
        hQ _ _ _ _ hReach.inv (h s' hReach)
  | fail e =>
      exact fun s' hReach =>
        hQ _ _ _ _ hReach.inv (h s' hReach)
  | lock k next ih =>
      exact fun s' hReach => ih (h s' hReach)
  | read next ih =>
      exact fun s' hReach => ih _ (h s' hReach)
  | write change next ih => exact ih h

/- A program that copes with more copes with less. -/
theorem wlp_of_reach
    {D' : Discipline σ κ}
    {p : Txn σ κ ε α}
    {Q : Post σ κ ε α}
    (hReach : ∀ {held s s'},
      D'.Reach held s s' → D.Reach held s s')
    (h : p.wlp D Q held own s) :
    p.wlp D' Q held own s := by
  induction p generalizing held own s with
  | pure a => exact fun s' hNext => h s' (hReach hNext)
  | fail e => exact fun s' hNext => h s' (hReach hNext)
  | lock k next ih =>
      exact fun s' hNext => ih (h s' (hReach hNext))
  | read next ih =>
      exact fun s' hNext => ih _ (h s' (hReach hNext))
  | write change next ih => exact ih h

/- Two postconditions can be met together. -/
theorem wlp_and
    {p : Txn σ κ ε α}
    {Q Q' : Post σ κ ε α}
    (h : p.wlp D Q held own s)
    (h' : p.wlp D Q' held own s) :
    p.wlp D (fun r held own s =>
      Q r held own s ∧ Q' r held own s) held own s := by
  induction p generalizing held own s with
  | pure a =>
      exact fun s' hReach => ⟨h s' hReach, h' s' hReach⟩
  | fail e =>
      exact fun s' hReach => ⟨h s' hReach, h' s' hReach⟩
  | lock k next ih =>
      exact fun s' hReach => ih (h s' hReach) (h' s' hReach)
  | read next ih =>
      exact fun s' hReach => ih _ (h s' hReach) (h' s' hReach)
  | write change next ih => exact ih h h'

/- The postcondition of the first part of a composition. -/
def andThen
    (D : Discipline σ κ)
    (f : α → Txn σ κ ε β)
    (Q : Post σ κ ε β) : Post σ κ ε α
| .ok a, held, own, s => (f a).wlp D Q held own s
| .error e, held, own, s => Q (.error e) held own s

/- Preconditions of a composition nest. -/
theorem wlp_bind
    {p : Txn σ κ ε α}
    {f : α → Txn σ κ ε β}
    {Q : Post σ κ ε β}
    (hInv : D.inv s)
    (h : p.wlp D (andThen D f Q) held own s) :
    (p >>= f).wlp D Q held own s := by
  induction p generalizing held own s with
  | pure a => exact h s (.refl hInv)
  | fail e => exact h
  | lock k next ih =>
      exact fun s' hReach => ih hReach.inv (h s' hReach)
  | read next ih =>
      exact fun s' hReach => ih _ hReach.inv (h s' hReach)
  | write change next ih => exact ih hInv h

theorem wlp_pure
    {a : α}
    {Q : Post σ κ ε α}
    (h : ∀ s', D.Reach held s s' → Q (.ok a) held own s') :
    (Pure.pure a : Txn σ κ ε α).wlp D Q held own s :=
  h

theorem wlp_acquire
    {k : κ}
    {f : Unit → Txn σ κ ε α}
    {Q : Post σ κ ε α}
    (h : ∀ s', D.Reach held s s' →
      (f ()).wlp D Q (k :: held) own s') :
    (acquire k >>= f).wlp D Q held own s :=
  h

theorem wlp_acquireAll
    {ks : List κ}
    {f : Unit → Txn σ κ ε α}
    {Q : Post σ κ ε α}
    (hInv : D.inv s)
    (h : ∀ s', D.Reach held s s' →
      (f ()).wlp D Q (ks.reverse ++ held) own s') :
    (acquireAll ks >>= f).wlp D Q held own s := by
  induction ks generalizing held s with
  | nil => exact h s (.refl hInv)
  | cons k ks ih =>
      intro s' hReach
      refine ih hReach.inv (fun s'' hReach' => ?_)
      have hBoth := hReach.trans
        (hReach'.weaken fun j hj => List.mem_cons_of_mem k hj)
      simpa using h s'' hBoth

theorem wlp_query
    {g : σ → α}
    {f : α → Txn σ κ ε β}
    {Q : Post σ κ ε β}
    (h : ∀ s', D.Reach held s s' →
      (f (g (own s'))).wlp D Q held own s') :
    (query g >>= f).wlp D Q held own s :=
  h

theorem wlp_update
    {change : σ → σ}
    {f : Unit → Txn σ κ ε α}
    {Q : Post σ κ ε α}
    (h : (f ()).wlp D Q held (change ∘ own) s) :
    (update change >>= f).wlp D Q held own s :=
  h

theorem wlp_fail
    {e : ε}
    {Q : Post σ κ ε α}
    (h : ∀ s', D.Reach held s s' →
      Q (.error e) held own s') :
    (Txn.fail e : Txn σ κ ε α).wlp D Q held own s :=
  h

theorem wlp_require
    {c : Prop} [Decidable c]
    {e : ε}
    {f : Unit → Txn σ κ ε α}
    {Q : Post σ κ ε α}
    (hErr : ¬ c → ∀ s', D.Reach held s s' →
      Q (.error e) held own s')
    (hOk : c → (f ()).wlp D Q held own s) :
    (require c e >>= f).wlp D Q held own s := by
  unfold require
  split
  · rename_i hc
    exact hOk hc
  · rename_i hc
    exact hErr hc

theorem wlp_ofExcept
    {x : Except ε α}
    {f : α → Txn σ κ ε β}
    {Q : Post σ κ ε β}
    (hErr : ∀ e, x = .error e → ∀ s', D.Reach held s s' →
      Q (.error e) held own s')
    (hOk : ∀ a, x = .ok a → (f a).wlp D Q held own s) :
    (ofExcept x >>= f).wlp D Q held own s := by
  cases x with
  | ok a => exact hOk a rfl
  | error e => exact hErr e rfl

theorem wlp_getOrFail
    {e : ε}
    {x : Option α}
    {f : α → Txn σ κ ε β}
    {Q : Post σ κ ε β}
    (hErr : x = none → ∀ s', D.Reach held s s' →
      Q (.error e) held own s')
    (hOk : ∀ a, x = some a → (f a).wlp D Q held own s) :
    (getOrFail e x >>= f).wlp D Q held own s := by
  cases x with
  | some a => exact hOk a rfl
  | none => exact hErr rfl

/- A program whose result is mapped. -/
theorem wlp_map
    {p : Txn σ κ ε α}
    {f : α → β}
    {Q : Post σ κ ε β}
    (h : p.wlp D (fun r held own s =>
      Q (r.map f) held own s) held own s) :
    (f <$> p).wlp D Q held own s := by
  induction p generalizing held own s with
  | pure a => exact h
  | fail e => exact h
  | lock k next ih => exact fun s' hReach => ih (h s' hReach)
  | read next ih => exact fun s' hReach => ih _ (h s' hReach)
  | write change next ih => exact ih h

/- A program whose errors are replaced. -/
theorem wlp_mapError
    {p : Txn σ κ ε α}
    {g : ε → ε}
    {Q : Post σ κ ε α}
    (h : p.wlp D (fun r held own s =>
      Q (r.mapError g) held own s) held own s) :
    (p.mapError g).wlp D Q held own s := by
  induction p generalizing held own s with
  | pure a => exact h
  | fail e => exact h
  | lock k next ih => exact fun s' hReach => ih (h s' hReach)
  | read next ih => exact fun s' hReach => ih _ (h s' hReach)
  | write change next ih => exact ih h

/-
  What all writes keep, and what nothing else undoes, the
  whole transaction keeps.
-/
theorem wlp_of_writesOnly
    {p : Txn σ κ ε α}
    {ok : (σ → σ) → Prop}
    (hComp : ∀ f g, ok f → ok g → ok (f ∘ g))
    (hWrites : p.WritesOnly ok)
    (hOwn : ok own) :
    p.wlp D (fun _ _ own _ => ok own) held own s := by
  induction p generalizing held own s with
  | pure a => exact fun _ _ => hOwn
  | fail e => exact fun _ _ => hOwn
  | lock k next ih => exact fun s' _ => ih hWrites hOwn
  | read next ih => exact fun s' _ => ih _ (hWrites _) hOwn
  | write change next ih =>
      exact ih hWrites.2 (hComp change own hWrites.1 hOwn)

/-
  A part that writes nothing only takes locks and lets time
  pass.
-/
theorem wlp_skip
    {p : Txn σ κ ε α}
    {f : α → Txn σ κ ε β}
    {Q : Post σ κ ε β}
    (hInv : D.inv s)
    (hReads : p.ReadsOnly)
    (hErr : ∀ e held' s', D.Reach held s s' →
      Q (.error e) held' own s')
    (hOk : ∀ a held' s', D.Reach held s s' →
      (∀ k ∈ held, k ∈ held') →
      (f a).wlp D Q held' own s') :
    (p >>= f).wlp D Q held own s := by
  induction p generalizing held s with
  | pure a => exact hOk a held s (.refl hInv) (fun _ hk => hk)
  | fail e => exact fun s' hReach => hErr e held s' hReach
  | lock k next ih =>
      intro s' hReach
      apply ih hReach.inv hReads
      · exact fun e held' s'' hNext => hErr e held' s''
          (Discipline.reach_of_cons hReach hNext)
      · intro a held' s'' hNext hSub
        exact hOk a held' s''
          (Discipline.reach_of_cons hReach hNext)
          (fun j hj => hSub j (List.mem_cons_of_mem k hj))
  | read next ih =>
      intro s' hReach
      apply ih (own s') hReach.inv (hReads (own s'))
      · exact fun e held' s'' hNext => hErr e held' s''
          (hReach.trans hNext)
      · exact fun a held' s'' hNext hSub => hOk a held' s''
          (hReach.trans hNext) hSub
  | write change next ih => exact hReads.1.elim

/-
  What the held locks keep true of the committed store still
  holds where the program ends.
-/
theorem wlp_of_stable
    {p : Txn σ κ ε α}
    {P : α → Prop}
    {F : List κ → σ → Prop}
    (hStable : ∀ {held held' s s'}, F held s →
      D.Reach held s s' → (∀ k ∈ held, k ∈ held') →
      F held' s')
    (hReturns : p.Returns P)
    (hF : F held s) :
    p.wlp D (fun r held _ s =>
      ∀ a, r = .ok a → P a ∧ F held s) held own s := by
  induction p generalizing held own s with
  | pure a =>
      rintro s' hReach b ⟨⟩
      exact ⟨hReturns, hStable hF hReach (fun _ hk => hk)⟩
  | fail e =>
      rintro s' hReach b ⟨⟩
  | lock k next ih =>
      exact fun s' hReach => ih hReturns
        (hStable hF hReach fun _ hj =>
          List.mem_cons_of_mem k hj)
  | read next ih =>
      exact fun s' hReach => ih _ (hReturns _)
        (hStable hF hReach fun _ hk => hk)
  | write change next ih => exact ih hReturns hF

/- What is to hold where a program that runs alone ends. -/
def EndsWith
    (Q : Post σ κ ε α)
    (s : σ) : Except ε (α × σ) → Prop
| .ok (a, s') => ∃ held own,
    Q (.ok a) held own s ∧ s' = own s
| .error e => ∃ held own, Q (.error e) held own s

/- Alone, the program meets the same postcondition. -/
theorem wlp_run
    {p : Txn σ κ ε α}
    {Q : Post σ κ ε α}
    (hInv : D.inv s)
    (h : p.wlp D Q held own s) :
    EndsWith Q s (p.run (own s)) := by
  induction p generalizing held own with
  | pure b => exact ⟨held, own, h s (.refl hInv), rfl⟩
  | fail e => exact ⟨held, own, h s (.refl hInv)⟩
  | lock k next ih => exact ih (h s (.refl hInv))
  | write change next ih => exact ih h
  | read next ih => exact ih _ (h s (.refl hInv))

end Txn

------------------------------------------------------------
-- Execution Alone
------------------------------------------------------------

namespace Discipline

variable {σ κ ε α : Type}

/- Nobody else is active. -/
def alone
    (inv : σ → Prop) : Discipline σ κ where
  modes := ⟨fun _ _ => False, fun h => h⟩
  inv := inv
  always s s' := s = s'
  protects _ _ _ := True
  always_refl _ := rfl
  always_trans h h' := h.trans h'
  protects_refl _ _ := trivial
  protects_trans _ _ := trivial

/- Alone, the store stays as it is. -/
theorem eq_of_reach_alone
    {inv : σ → Prop}
    {held : List κ}
    {s s' : σ}
    (h : (alone inv).Reach held s s') :
    s' = s :=
  h.always.symm

end Discipline

------------------------------------------------------------
-- Systems Of Safe Programs
------------------------------------------------------------

namespace Discipline

variable {σ κ ε α τ : Type}

/- No lock of one list excludes a lock of the other. -/
def Compatible
    (D : Discipline σ κ)
    (held held' : List κ) : Prop :=
  ∀ k ∈ held, ∀ k' ∈ held', ¬ D.modes.conflict k k'

/- What one transaction may commit is interference. -/
theorem Commits.reach
    {D : Discipline σ κ}
    {held held' : List κ}
    {s s' : σ}
    (h : D.Commits held s s')
    (hFree : D.Compatible held' held) :
    D.Reach held' s s' where
  inv := h.inv
  always := h.always
  protects k hk := h.protects k (hFree k hk)

/-
  Where a program returns and its result is permitted, it
  respects the discipline and `claim` holds of its result
  and the stores before and after.
-/
def Guarantee
    (D : Discipline σ κ)
    (permit : α → σ → Prop)
    (claim : α → σ → σ → Prop) : Post σ κ ε α
| .ok a, held, own, s => permit a s →
    D.Commits held s (own s) ∧ claim a s (own s)
| .error _, _, _, _ => True

/- The program is safe from every store. -/
def Safe
    (D : Discipline σ κ)
    (permit : α → σ → Prop)
    (claim : α → σ → σ → Prop)
    (p : Txn σ κ ε α) : Prop :=
  ∀ s, D.inv s →
    p.wlp D (D.Guarantee permit claim) [] id s

variable [DecidableEq τ]
variable {D : Discipline σ κ}
variable {programs : Txn σ κ ε α → Prop}
variable {permit : α → σ → Prop}
variable {claim : α → σ → σ → Prop}

/- Transactions in progress never hold excluding locks. -/
def LocksExclusive
    (D : Discipline σ κ)
    (S : System τ σ κ ε α) : Prop :=
  ∀ t t' a a', t ≠ t' →
    S.active t = some a → S.active t' = some a' →
      D.Compatible a.held a'.held

/- The rest of a transaction in progress ends as `Q` says. -/
def Tracked
    (D : Discipline σ κ)
    (Q : Post σ κ ε α)
    (s : σ)
    (a : Active σ κ ε α) : Prop :=
  a.program.wlp D Q a.held a.own s

/- The invariant of a whole system. -/
structure SystemInv
    (D : Discipline σ κ)
    (permit : α → σ → Prop)
    (claim : α → σ → σ → Prop)
    (S : System τ σ κ ε α) : Prop where
  inv : D.inv S.committed
  exclusive : D.LocksExclusive S
  tracked : ∀ t a, S.active t = some a →
    D.Tracked (D.Guarantee permit claim) S.committed a

/- Ending a transaction keeps the others' locks exclusive. -/
theorem LocksExclusive.remove
    {S : System τ σ κ ε α}
    (h : D.LocksExclusive S)
    (t : τ) :
    D.LocksExclusive (S.setActive t none) := by
  intro u u' a a' hNe hu hu'
  by_cases hut : u = t
  · subst hut
    simp at hu
  by_cases hut' : u' = t
  · subst hut'
    simp at hu'
  rw [S.setActive_active_of_ne none hut] at hu
  rw [S.setActive_active_of_ne none hut'] at hu'
  exact h u u' a a' hNe hu hu'

/-
  Replacing a transaction by one whose locks are compatible
  with all others keeps locks exclusive.
-/
theorem LocksExclusive.replace
    {S : System τ σ κ ε α}
    (h : D.LocksExclusive S)
    {t : τ}
    {b : Active σ κ ε α}
    (hNew : ∀ t', t' ≠ t → ∀ a, S.active t' = some a →
      D.Compatible a.held b.held) :
    D.LocksExclusive (S.setActive t (some b)) := by
  have hSymm : ∀ {xs ys : List κ},
      D.Compatible xs ys → D.Compatible ys xs := by
    intro xs ys hFree k hk k' hk' hConflict
    exact hFree k' hk' k hk (D.modes.symm hConflict)
  intro u u' a a' hNe hu hu'
  by_cases hut : u = t
  · subst hut
    have hut' : u' ≠ u := hNe.symm
    rw [S.setActive_active_of_ne _ hut'] at hu'
    simp only [System.setActive_active_self,
      Option.some.injEq] at hu
    subst hu
    exact hSymm (hNew u' hut' a' hu')
  rw [S.setActive_active_of_ne _ hut] at hu
  by_cases hut' : u' = t
  · subst hut'
    simp only [System.setActive_active_self,
      Option.some.injEq] at hu'
    subst hu'
    exact hNew u hut a hu
  rw [S.setActive_active_of_ne _ hut'] at hu'
  exact h u u' a a' hNe hu hu'

/- A fact about all programs survives changing one of them. -/
theorem tracked_setActive
    {S : System τ σ κ ε α}
    {t : τ}
    {b : Option (Active σ κ ε α)}
    {P : Active σ κ ε α → Prop}
    (hOld : ∀ u a, u ≠ t → S.active u = some a → P a)
    (hNew : ∀ a, b = some a → P a) :
    ∀ u a, (S.setActive t b).active u = some a → P a := by
  intro u a hu
  by_cases hut : u = t
  · subst hut
    exact hNew a (by simpa using hu)
  · rw [S.setActive_active_of_ne b hut] at hu
    exact hOld u a hut hu

/- One step of a tracked program. -/
theorem Tracked.internal
    {Q : Post σ κ ε α}
    {S S' : System τ σ κ ε α}
    {t : τ}
    {a : Active σ κ ε α}
    (hInv : D.inv S.committed)
    (hActive : S.active t = some a)
    (h : D.Tracked Q S.committed a)
    (hStep : System.Step D.modes programs permit S
      (.internal t) S') :
    ∃ a', S'.active t = some a' ∧
      S'.committed = S.committed ∧
      D.Tracked Q S.committed a' := by
  cases hStep with
  | @acquire t k next held own hProgram hGrant =>
      rw [hActive] at hProgram
      cases hProgram
      exact ⟨_, S.setActive_active_self t _, rfl,
        h S.committed (.refl hInv)⟩
  | @read t next held own hProgram =>
      rw [hActive] at hProgram
      cases hProgram
      exact ⟨_, S.setActive_active_self t _, rfl,
        h S.committed (.refl hInv)⟩
  | @write t change next held own hProgram =>
      rw [hActive] at hProgram
      cases hProgram
      exact ⟨_, S.setActive_active_self t _, rfl, h⟩

omit [DecidableEq τ] in
/- What a tracked program commits respects the discipline. -/
theorem SystemInv.commits
    {S : System τ σ κ ε α}
    (h : D.SystemInv permit claim S)
    {t : τ}
    {a : α}
    {held : List κ}
    {own : σ → σ}
    (hActive : S.active t = some ⟨.pure a, held, own⟩)
    (hPermit : permit a S.committed) :
    D.Commits held S.committed (own S.committed) ∧
      claim a S.committed (own S.committed) :=
  h.tracked t _ hActive S.committed (.refl h.inv) hPermit

/- Every step of a system of safe programs is harmless. -/
theorem SystemInv.step
    (hPrograms : ∀ p, programs p → D.Safe permit claim p)
    {S S' : System τ σ κ ε α}
    {l : Label τ σ κ ε α}
    (h : D.SystemInv permit claim S)
    (hStep : System.Step D.modes programs permit S l S') :
    D.SystemInv permit claim S' := by
  have hOthers : ∀ t u a, u ≠ t → S.active u = some a →
      D.Tracked (D.Guarantee permit claim) S.committed a :=
    fun _ u a _ hu => h.tracked u a hu
  cases hStep with
  | @start t p hIdle hProgram =>
      refine ⟨h.inv, ?_, ?_⟩
      · apply h.exclusive.replace
        intro t' hNe a hOther k hk k' hk'
        simp at hk'
      · apply tracked_setActive (hOthers t)
        rintro a ⟨⟩
        exact hPrograms p hProgram S.committed h.inv
  | @acquire t k next held own hActive hGrant =>
      refine ⟨h.inv, ?_, ?_⟩
      · apply h.exclusive.replace
        intro t' hNe a hOther j hj k' hk'
        rcases List.mem_cons.mp hk' with rfl | hk'
        · exact hGrant t' hNe a hOther j hj
        · exact h.exclusive t' t a _ hNe hOther hActive
            j hj k' hk'
      · apply tracked_setActive (hOthers t)
        rintro a ⟨⟩
        exact h.tracked t _ hActive S.committed
          (.refl h.inv)
  | @read t next held own hActive =>
      refine ⟨h.inv, ?_, ?_⟩
      · apply h.exclusive.replace
        intro t' hNe a hOther
        exact h.exclusive t' t a ⟨.read next, held, own⟩
          hNe hOther hActive
      · apply tracked_setActive (hOthers t)
        rintro a ⟨⟩
        exact h.tracked t _ hActive S.committed
          (.refl h.inv)
  | @write t change next held own hActive =>
      refine ⟨h.inv, ?_, ?_⟩
      · apply h.exclusive.replace
        intro t' hNe a hOther
        exact h.exclusive t' t a
          ⟨.write change next, held, own⟩ hNe hOther hActive
      · apply tracked_setActive (hOthers t)
        rintro a ⟨⟩
        exact h.tracked t ⟨.write change next, held, own⟩
          hActive
  | @commit t a held own hActive hPermit =>
      have hCommits := (h.commits hActive hPermit).1
      refine ⟨hCommits.inv, h.exclusive.remove t, ?_⟩
      -- the others see this commit as interference
      apply tracked_setActive
      · intro u b hNe hu
        exact Txn.wlp_reach (h.tracked u b hu)
          (hCommits.reach
            (h.exclusive u t b _ hNe hu hActive))
      · rintro b ⟨⟩
  | @abort t e held own hActive =>
      refine ⟨h.inv, h.exclusive.remove t, ?_⟩
      apply tracked_setActive (hOthers t)
      rintro b ⟨⟩
  | @crash t a hActive =>
      refine ⟨h.inv, h.exclusive.remove t, ?_⟩
      apply tracked_setActive (hOthers t)
      rintro b ⟨⟩

/- Every run of a system of safe programs is harmless. -/
theorem SystemInv.steps
    (hPrograms : ∀ p, programs p → D.Safe permit claim p)
    {S S' : System τ σ κ ε α}
    (h : D.SystemInv permit claim S)
    (hSteps : System.Steps D.modes programs permit S S') :
    D.SystemInv permit claim S' := by
  induction hSteps with
  | refl => exact h
  | step _ hStep ih => exact ih.step hPrograms hStep

/- What one step of the system does to the store. -/
theorem SystemInv.reach
    {S S' : System τ σ κ ε α}
    {l : Label τ σ κ ε α}
    (h : D.SystemInv permit claim S)
    (hStep : System.Step D.modes programs permit S l S') :
    D.Reach [] S.committed S'.committed := by
  cases hStep with
  | @commit t a held own hActive hPermit =>
      exact (h.commits hActive hPermit).1.reach
        (fun k hk => absurd hk List.not_mem_nil)
  | start hIdle hProgram => exact .refl h.inv
  | acquire hActive hGrant => exact .refl h.inv
  | read hActive => exact .refl h.inv
  | write hActive => exact .refl h.inv
  | abort hActive => exact .refl h.inv
  | crash hActive => exact .refl h.inv

/- What a run of the system does to the store. -/
theorem SystemInv.reach_of_steps
    (hPrograms : ∀ p, programs p → D.Safe permit claim p)
    {S S' : System τ σ κ ε α}
    (h : D.SystemInv permit claim S)
    (hSteps : System.Steps D.modes programs permit S S') :
    D.Reach [] S.committed S'.committed := by
  induction hSteps with
  | refl => exact .refl h.inv
  | step hBefore hStep ih =>
      exact ih.trans ((h.steps hPrograms hBefore).reach hStep)

omit [DecidableEq τ] in
/- A quiet store with the invariant starts a system. -/
theorem systemInv_initial
    {s : σ}
    (h : D.inv s) :
    D.SystemInv permit claim
      (System.initial s : System τ σ κ ε α) := by
  refine ⟨h, ?_, ?_⟩
  · rintro t t' a a' _ ⟨⟩
  · rintro t a ⟨⟩

/- In every reachable state the system invariant holds. -/
theorem systemInv_of_reachable
    (hPrograms : ∀ p, programs p → D.Safe permit claim p)
    {start : σ → Prop}
    (hStart : ∀ s, start s → D.inv s)
    {S : System τ σ κ ε α}
    (h : System.Reachable D.modes programs permit start S) :
    D.SystemInv permit claim S := by
  rcases h with ⟨s, hs, hSteps⟩
  exact (systemInv_initial (hStart s hs)).steps hPrograms
    hSteps

/- In every reachable state the invariant holds. -/
theorem invariant_of_reachable
    (hPrograms : ∀ p, programs p → D.Safe permit claim p)
    {start : σ → Prop}
    (hStart : ∀ s, start s → D.inv s)
    {S : System τ σ κ ε α}
    (h : System.Reachable D.modes programs permit start S) :
    D.inv S.committed :=
  (systemInv_of_reachable hPrograms hStart h).inv

/- Steps of others and of the transaction itself track it. -/
theorem tracked_during
    (hPrograms : ∀ p, programs p → D.Safe permit claim p)
    {Q : Post σ κ ε α}
    {S S' : System τ σ κ ε α}
    {t : τ}
    {a : Active σ κ ε α}
    (h : D.SystemInv permit claim S)
    (hActive : S.active t = some a)
    (hTracked : D.Tracked Q S.committed a)
    (hSteps : System.StepsDuring D.modes programs permit t
      S S') :
    ∃ a', S'.active t = some a' ∧
      D.Tracked Q S'.committed a' := by
  induction hSteps with
  | refl => exact ⟨a, hActive, hTracked⟩
  | @step S₁ S₂ l hBefore hStep hSpared ih =>
      rcases ih with ⟨b, hb, hTrackedB⟩
      have hInv₁ : D.SystemInv permit claim S₁ :=
        h.steps hPrograms hBefore.steps
      by_cases hOwn : l = .internal t
      · subst hOwn
        rcases hTrackedB.internal hInv₁.inv hb hStep with
          ⟨b', hb', hSame, hTracked'⟩
        exact ⟨b', hb', hSame ▸ hTracked'⟩
      · -- any other step leaves the program of `t` alone
        cases hStep with
        | @start u p hIdle hProgram =>
            have hut : t ≠ u := by
              rintro rfl
              rw [hb] at hIdle
              cases hIdle
            exact ⟨b, by
              rwa [S₁.setActive_active_of_ne _ hut],
              hTrackedB⟩
        | @acquire u k next held own hu hGrant =>
            have hut : t ≠ u := fun hEq => hOwn (by rw [hEq])
            exact ⟨b, by
              rwa [S₁.setActive_active_of_ne _ hut],
              hTrackedB⟩
        | @read u next held own hu =>
            have hut : t ≠ u := fun hEq => hOwn (by rw [hEq])
            exact ⟨b, by
              rwa [S₁.setActive_active_of_ne _ hut],
              hTrackedB⟩
        | @write u change next held own hu =>
            have hut : t ≠ u := fun hEq => hOwn (by rw [hEq])
            exact ⟨b, by
              rwa [S₁.setActive_active_of_ne _ hut],
              hTrackedB⟩
        | @commit u r held own hu hPermit =>
            have hut : t ≠ u := fun hEq =>
              hSpared (by simp [Label.Ends, hEq])
            have hCommits := (hInv₁.commits hu hPermit).1
            refine ⟨b, ?_, Txn.wlp_reach hTrackedB
              (hCommits.reach
                (hInv₁.exclusive t u b _ hut hb hu))⟩
            simpa [System.setActive,
              Function.update_of_ne hut] using hb
        | @abort u e held own hu =>
            have hut : t ≠ u := fun hEq =>
              hSpared (by simp [Label.Ends, hEq])
            exact ⟨b, by
              rwa [S₁.setActive_active_of_ne _ hut],
              hTrackedB⟩
        | @crash u c hu =>
            have hut : t ≠ u := fun hEq =>
              hSpared (by simp [Label.Ends, hEq])
            exact ⟨b, by
              rwa [S₁.setActive_active_of_ne _ hut],
              hTrackedB⟩

/-
  Every commit of a reachable system makes its claim of the
  committed stores before and after.
-/
theorem claim_of_commit
    {S S' : System τ σ κ ε α}
    (h : D.SystemInv permit claim S)
    {t : τ}
    {a : α}
    (hStep : System.Step D.modes programs permit S
      (.finish t (.ok a)) S') :
    claim a S.committed S'.committed := by
  cases hStep with
  | commit hActive hPermit =>
      exact (h.commits hActive hPermit).2

/- The store after a transaction that ended so. -/
def storeAfter
    (result : Except ε α)
    (own : σ → σ)
    (s : σ) : σ :=
  match result with
  | .ok _ => own s
  | .error _ => s

/-
  How a transaction ends that started where its
  precondition for `Q` held.
-/
theorem outcome_of_wlp
    (hPrograms : ∀ p, programs p → D.Safe permit claim p)
    {Q : Post σ κ ε α}
    {p : Txn σ κ ε α}
    {S S₂ S₃ : System τ σ κ ε α}
    {t : τ}
    {result : Except ε α}
    (h : D.SystemInv permit claim S)
    (hExec : System.Executes D.modes programs permit t p result
      S S₂ S₃)
    (hWlp : p.wlp D Q [] id S.committed) :
    ∃ held own, Q result held own S₂.committed ∧
      S₃.committed = storeAfter result own S₂.committed := by
  rcases hExec with ⟨⟨S₁, hStart, hDuring⟩, hFinish⟩
  have hInv₁ : D.SystemInv permit claim S₁ :=
    h.step hPrograms hStart
  cases hStart with
  | start hIdle hProgram =>
      rcases tracked_during hPrograms hInv₁
          (S.setActive_active_self t _) hWlp hDuring with
        ⟨a, hActive, hTracked⟩
      have hInv₂ : D.SystemInv permit claim S₂ :=
        hInv₁.steps hPrograms hDuring.steps
      have hRefl : D.Reach a.held S₂.committed S₂.committed :=
        .refl hInv₂.inv
      cases hFinish with
      | @commit _ r held own hEnd hPermit =>
          rw [hActive] at hEnd
          cases hEnd
          exact ⟨held, own, hTracked _ hRefl, rfl⟩
      | @abort _ e held own hEnd =>
          rw [hActive] at hEnd
          cases hEnd
          exact ⟨held, own, hTracked _ hRefl, rfl⟩

end Discipline
