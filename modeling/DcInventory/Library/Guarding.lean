import DcInventory.Library.Interference
import Mathlib.Data.Set.Basic

/-
  This file defines a logic for transactions on a store that
  is watched at many places, where a place changes only under
  its lock: which lock that is may depend on what is there.

  An assertion speaks of the locks held and of the store that
  the transaction sees, its own writes included.

  Key definitions include:
    * `Guarding`
    * `Guarding.discipline`
    * `Guarding.Changes`
    * `Guarding.Pending`
    * `Guarding.Triple`

  Key theorems include:
    * `Guarding.Changes.comp`
    * `Guarding.Pending.write`
    * `Guarding.Triple.bind`
    * `Guarding.Triple.safe`
-/

------------------------------------------------------------
-- Watched Stores
------------------------------------------------------------

/-
  What is seen at each place, the lock under which it may
  change, how it may change, and an invariant of the store.
-/
structure Guarding (σ κ I : Type) where
  modes : LockModes κ
  Seen : I → Type
  look : (i : I) → σ → Seen i
  guard : (i : I) → Seen i → κ
  moves : (i : I) → Seen i → Seen i → Prop
  inv : σ → Prop
  moves_refl : ∀ i o, moves i o o
  moves_trans : ∀ {i o o' o''},
    moves i o o' → moves i o' o'' → moves i o o''
  exclusive : ∀ i o, modes.conflict (guard i o) (guard i o)

namespace Guarding

variable {σ κ I : Type}

/- Every place changes as it may. -/
def Follows (G : Guarding σ κ I) (s s' : σ) : Prop :=
  ∀ i, G.moves i (G.look i s) (G.look i s')

/- A place whose lock is held stays as it is. -/
def discipline (G : Guarding σ κ I) : Discipline σ κ where
  modes := G.modes
  inv := G.inv
  always := G.Follows
  protects k s s' := ∀ i, G.guard i (G.look i s) = k →
    G.look i s' = G.look i s
  always_refl s i := G.moves_refl i (G.look i s)
  always_trans h h' i := G.moves_trans (h i) (h' i)
  protects_refl _ _ _ _ := rfl
  protects_trans h h' i hGuard := by
    have hSame := h i hGuard
    rw [h' i (hSame ▸ hGuard), hSame]

variable {G : Guarding σ κ I}
variable {held held' : List κ}
variable {own f g : σ → σ}
variable {s s' t t' t'' : σ}
variable {T T' : Set I}

theorem Follows.refl (s : σ) : G.Follows s s :=
  fun i => G.moves_refl i (G.look i s)

theorem Follows.trans
    (h : G.Follows t t')
    (h' : G.Follows t' t'') :
    G.Follows t t'' :=
  fun i => G.moves_trans (h i) (h' i)

/- A later store in which some places are as they were. -/
structure Later
    (G : Guarding σ κ I)
    (T : Set I)
    (t t' : σ) : Prop where
  inv : G.inv t'
  follows : G.Follows t t'
  same : ∀ i ∈ T, G.look i t' = G.look i t

theorem Later.refl
    (h : G.inv t) :
    G.Later T t t :=
  ⟨h, Follows.refl t, fun _ _ => rfl⟩

theorem Later.trans
    (h : G.Later T t t')
    (h' : G.Later T t' t'') :
    G.Later T t t'' where
  inv := h'.inv
  follows := h.follows.trans h'.follows
  same i hi := (h'.same i hi).trans (h.same i hi)

theorem Later.mono
    (hSub : ∀ i ∈ T', i ∈ T)
    (h : G.Later T t t') :
    G.Later T' t t' :=
  ⟨h.inv, h.follows, fun i hi => h.same i (hSub i hi)⟩

/- The places whose locks are held. -/
def locked
    (G : Guarding σ κ I)
    (held : List κ)
    (t : σ) : Set I :=
  {i | G.guard i (G.look i t) ∈ held}

------------------------------------------------------------
-- Changes
------------------------------------------------------------

/-
  From the store `t` on, while the places in `T` stay as they
  are, the change touches these alone and is allowed.
-/
structure Changes
    (G : Guarding σ κ I)
    (T : Set I)
    (f : σ → σ)
    (t : σ) : Prop where
  inv : ∀ t', G.Later T t t' → G.inv (f t')
  frame : ∀ t', G.Later T t t' →
    ∀ i, i ∉ T → G.look i (f t') = G.look i t'
  same : ∀ t', G.Later T t t' →
    ∀ i ∈ T, G.look i (f t') = G.look i (f t)
  moves : ∀ i ∈ T, G.moves i (G.look i t) (G.look i (f t))

/- A change that nothing watched shows. -/
structure Harmless
    (G : Guarding σ κ I)
    (f : σ → σ) : Prop where
  look : ∀ i t, G.look i (f t) = G.look i t
  inv : ∀ t, G.inv t → G.inv (f t)

theorem Changes.id (t : σ) : G.Changes ∅ id t where
  inv _ h := h.inv
  frame _ _ _ _ := rfl
  same _ _ _ h := h.elim
  moves _ h := h.elim

theorem Harmless.changes
    (h : G.Harmless f)
    (t : σ) :
    G.Changes ∅ f t where
  inv t' hLater := h.inv t' hLater.inv
  frame t' _ i _ := h.look i t'
  same _ _ _ hi := hi.elim
  moves _ hi := hi.elim

/- Later, the change is as good as it was. -/
theorem Changes.later
    (h : G.Changes T f t)
    (hLater : G.Later T t t') :
    G.Changes T f t' where
  inv t'' hNext := h.inv t'' (hLater.trans hNext)
  frame t'' hNext := h.frame t'' (hLater.trans hNext)
  same t'' hNext i hi := by
    rw [h.same t'' (hLater.trans hNext) i hi,
      h.same t' hLater i hi]
  moves i hi := by
    rw [h.same t' hLater i hi, hLater.same i hi]
    exact h.moves i hi

theorem Changes.follows
    (h : G.Changes T f t)
    (hInv : G.inv t) :
    G.Follows t (f t) := by
  intro i
  by_cases hi : i ∈ T
  · exact h.moves i hi
  · rw [h.frame t (.refl hInv) i hi]
    exact G.moves_refl i _

/- Below the change, time goes on as it does above. -/
theorem Changes.shift
    (h : G.Changes T f t)
    (hInv : G.inv t)
    (hLater : G.Later T t t') :
    G.Follows (f t) (f t') := by
  intro i
  by_cases hi : i ∈ T
  · rw [h.same t' hLater i hi]
    exact G.moves_refl i _
  · rw [h.frame t' hLater i hi, h.frame t (.refl hInv) i hi]
    exact hLater.follows i

theorem Changes.look_eq
    (h : G.Changes T f t)
    (hInv : G.inv t)
    (hLater : G.Later T t t')
    {i : I}
    (hSame : G.look i t' = G.look i t) :
    G.look i (f t') = G.look i (f t) := by
  by_cases hi : i ∈ T
  · exact h.same t' hLater i hi
  · rw [h.frame t' hLater i hi, h.frame t (.refl hInv) i hi,
      hSame]

/- A change after another one. -/
theorem Changes.comp
    (hInv : G.inv t)
    (h : G.Changes T g t)
    (h' : G.Changes T' f (g t)) :
    G.Changes (T ∪ T') (f ∘ g) t := by
  have hFirst : ∀ t', G.Later (T ∪ T') t t' →
      G.Later T t t' :=
    fun t' hLater => hLater.mono fun _ hi => .inl hi
  have hSecond : ∀ t', G.Later (T ∪ T') t t' →
      G.Later T' (g t) (g t') := by
    intro t' hLater
    refine ⟨h.inv t' (hFirst t' hLater),
      h.shift hInv (hFirst t' hLater), fun i hi => ?_⟩
    exact h.look_eq hInv (hFirst t' hLater)
      (hLater.same i (.inr hi))
  have hRefl : G.Later T' (g t) (g t) :=
    .refl (h.inv t (.refl hInv))
  constructor
  · exact fun t' hLater => h'.inv _ (hSecond t' hLater)
  · intro t' hLater i hi
    have hNot : i ∉ T ∧ i ∉ T' := not_or.mp hi
    exact (h'.frame _ (hSecond t' hLater) i hNot.2).trans
      (h.frame t' (hFirst t' hLater) i hNot.1)
  · intro t' hLater i hi
    exact h'.look_eq (h.inv t (.refl hInv))
      (hSecond t' hLater)
      (h.look_eq hInv (hFirst t' hLater) (hLater.same i hi))
  · intro i _
    exact (h.follows hInv).trans
      (h'.follows (h.inv t (.refl hInv))) i

------------------------------------------------------------
-- Pending Writes
------------------------------------------------------------

/- Its own writes touch only what the transaction locks. -/
def Pending
    (G : Guarding σ κ I)
    (held : List κ)
    (own : σ → σ)
    (s : σ) : Prop :=
  ∃ T, G.Changes T own s ∧ ∀ i ∈ T, i ∈ G.locked held s

/- What a transaction sees later, others being active. -/
abbrev Sees
    (G : Guarding σ κ I)
    (held : List κ)
    (t t' : σ) : Prop :=
  G.Later (G.locked held t) t t'

theorem later_of_reach
    (h : G.discipline.Reach held s s') :
    G.Sees held s s' :=
  ⟨h.inv, h.always, fun i hi => h.protects _ hi i rfl⟩

theorem Pending.id (s : σ) : G.Pending held id s :=
  ⟨∅, Changes.id s, fun _ h => h.elim⟩

theorem Pending.mono
    (h : G.Pending held own s)
    (hSub : ∀ k ∈ held, k ∈ held') :
    G.Pending held' own s := by
  rcases h with ⟨T, hChanges, hLocked⟩
  exact ⟨T, hChanges, fun i hi => hSub _ (hLocked i hi)⟩

theorem Pending.inv
    (h : G.Pending held own s)
    (hInv : G.inv s) :
    G.inv (own s) := by
  rcases h with ⟨T, hChanges, _⟩
  exact hChanges.inv s (.refl hInv)

/- Own writes stay as good as they were. -/
theorem Pending.reach
    (h : G.Pending held own s)
    (hReach : G.discipline.Reach held s s') :
    G.Pending held own s' := by
  rcases h with ⟨T, hChanges, hLocked⟩
  have hLater := (later_of_reach hReach).mono hLocked
  refine ⟨T, hChanges.later hLater, fun i hi => ?_⟩
  change G.guard i (G.look i s') ∈ held
  rw [hLater.same i hi]
  exact hLocked i hi

/- What is locked above is locked below. -/
theorem Pending.locked
    (h : G.Pending held own s)
    (hInv : G.inv s)
    {i : I}
    (hi : i ∈ G.locked held (own s)) :
    i ∈ G.locked held s := by
  rcases h with ⟨T, hChanges, hLocked⟩
  by_cases hT : i ∈ T
  · exact hLocked i hT
  · change G.guard i (G.look i s) ∈ held
    rw [← hChanges.frame s (.refl hInv) i hT]
    exact hi

/- The transaction sees what others may do. -/
theorem Pending.sees
    (h : G.Pending held own s)
    (hInv : G.inv s)
    (hReach : G.discipline.Reach held s s') :
    G.Sees held (own s) (own s') := by
  have hPending := h
  rcases h with ⟨T, hChanges, hLocked⟩
  have hLater := (later_of_reach hReach).mono hLocked
  refine ⟨hChanges.inv s' hLater, hChanges.shift hInv hLater,
    fun i hi => hChanges.look_eq hInv hLater ?_⟩
  exact (later_of_reach hReach).same i
    (hPending.locked hInv hi)

/- One more write, to places whose locks are held. -/
theorem Pending.write
    (h : G.Pending held own s)
    (hInv : G.inv s)
    (hChange : G.Changes T f (own s))
    (hHeld : ∀ i ∈ T, i ∈ G.locked held (own s)) :
    G.Pending held (f ∘ own) s := by
  have hPending := h
  rcases h with ⟨T', hChanges, hLocked⟩
  refine ⟨T' ∪ T, hChanges.comp hInv hChange, ?_⟩
  rintro i (hi | hi)
  · exact hLocked i hi
  · exact hPending.locked hInv (hHeld i hi)

/- Pending writes may be committed. -/
theorem Pending.commits
    (h : G.Pending held own s)
    (hInv : G.inv s) :
    G.discipline.Commits held s (own s) := by
  rcases h with ⟨T, hChanges, hLocked⟩
  refine ⟨hChanges.inv s (.refl hInv),
    hChanges.follows hInv, ?_⟩
  rintro k hFree i rfl
  apply hChanges.frame s (.refl hInv) i
  intro hi
  exact hFree _ (hLocked i hi) (G.exclusive i _)

------------------------------------------------------------
-- Triples
------------------------------------------------------------

variable {ε α β : Type}

/- A property of the locks held and of the store seen. -/
abbrev Assertion (σ κ : Type) := List κ → σ → Prop

/- What others do, and more locks, do not spoil it. -/
structure Stable
    (G : Guarding σ κ I)
    (A : Assertion σ κ) : Prop where
  later : ∀ {held held' t t'}, A held t →
    (∀ k ∈ held, k ∈ held') → G.Sees held t t' → A held' t'

/- From `A`, where the program returns `a`, `B a` holds. -/
def Triple
    (G : Guarding σ κ I)
    (A : Assertion σ κ)
    (p : Txn σ κ ε α)
    (B : α → Assertion σ κ) : Prop :=
  ∀ held own s, G.inv s → G.Pending held own s →
    A held (own s) →
    p.wlp G.discipline (fun r held own s =>
      ∀ a, r = .ok a →
        G.Pending held own s ∧ B a held (own s)) held own s

variable {A A' : Assertion σ κ}
variable {B B' : α → Assertion σ κ}
variable {C : β → Assertion σ κ}
variable {p : Txn σ κ ε α}

theorem Stable.reach
    (hA : G.Stable A)
    (hInv : G.inv s)
    (hPending : G.Pending held own s)
    (hReach : G.discipline.Reach held s s')
    (h : A held (own s)) :
    A held (own s') :=
  hA.later h (fun _ hk => hk) (hPending.sees hInv hReach)

theorem stable_true : G.Stable (fun _ _ => True) :=
  ⟨fun _ _ _ => trivial⟩

theorem stable_held (k : κ) :
    G.Stable (fun held _ => k ∈ held) :=
  ⟨fun h hSub _ => hSub k h⟩

theorem Stable.and
    (hA : G.Stable A)
    (hA' : G.Stable A') :
    G.Stable (fun held t => A held t ∧ A' held t) :=
  ⟨fun h hSub hSees =>
    ⟨hA.later h.1 hSub hSees, hA'.later h.2 hSub hSees⟩⟩

theorem Stable.imp
    {c : Prop}
    (h : c → G.Stable A) :
    G.Stable (fun held t => c → A held t) :=
  ⟨fun hA hSub hSees hc => (h hc).later (hA hc) hSub hSees⟩

theorem Stable.all
    {X : Type}
    {A : X → Assertion σ κ}
    (h : ∀ x, G.Stable (A x)) :
    G.Stable (fun held t => ∀ x, A x held t) :=
  ⟨fun hA hSub hSees x => (h x).later (hA x) hSub hSees⟩

/- What is seen at a place whose lock is held. -/
theorem stable_look
    (i : I)
    (P : G.Seen i → Prop) :
    G.Stable (fun held t =>
      i ∈ G.locked held t ∧ P (G.look i t)) := by
  constructor
  rintro held held' t t' ⟨hLocked, hP⟩ hSub hSees
  have hSame := hSees.same i hLocked
  refine ⟨?_, hSame ▸ hP⟩
  change G.guard i (G.look i t') ∈ held'
  rw [hSame]
  exact hSub _ hLocked

/- What every allowed move keeps. -/
theorem stable_follows
    {P : σ → Prop}
    (h : ∀ {t t'}, G.Follows t t' → P t → P t') :
    G.Stable (fun _ t => P t) :=
  ⟨fun hP _ hSees => h hSees.follows hP⟩

theorem Triple.bind
    {f : α → Txn σ κ ε β}
    (h : G.Triple A p B)
    (hf : ∀ a, G.Triple (B a) (f a) C) :
    G.Triple A (p >>= f) C := by
  intro held own s hInv hPending hA
  refine Txn.wlp_bind hInv (Txn.wlp_imp ?_
    (h held own s hInv hPending hA))
  intro r held' own' s' hInv' hPost
  cases r with
  | error e => rintro b ⟨⟩
  | ok a =>
      rcases hPost a rfl with ⟨hPending', hB⟩
      exact hf a held' own' s' hInv' hPending' hB

theorem Triple.imp
    (h : G.Triple A p B)
    (hPre : ∀ held t, G.inv t → A' held t → A held t)
    (hPost : ∀ a held t, B a held t → B' a held t) :
    G.Triple A' p B' := by
  intro held own s hInv hPending hA
  refine Txn.wlp_imp ?_ (h held own s hInv hPending
    (hPre held _ (hPending.inv hInv) hA))
  intro r held' own' s' _ hEnd a hOk
  rcases hEnd a hOk with ⟨hPending', hB⟩
  exact ⟨hPending', hPost a held' _ hB⟩

theorem Triple.pure
    (hA : G.Stable A)
    (a : α) :
    G.Triple A (Pure.pure a : Txn σ κ ε α)
      (fun b held t => b = a ∧ A held t) := by
  rintro held own s hInv hPending hStart s' hReach b ⟨⟩
  exact ⟨hPending.reach hReach, rfl,
    hA.reach hInv hPending hReach hStart⟩

theorem Triple.fail
    (e : ε) :
    G.Triple A (Txn.fail e : Txn σ κ ε α) B := by
  rintro held own s _ _ _ s' _ b ⟨⟩

theorem Triple.acquire
    (hA : G.Stable A)
    (k : κ) :
    G.Triple A (Txn.acquire k : Txn σ κ ε Unit)
      (fun _ held t => k ∈ held ∧ A held t) := by
  rintro held own s hInv hPending hStart s' hReach s'' hNext
    b ⟨⟩
  have hSub : ∀ j ∈ held, j ∈ k :: held :=
    fun j hj => List.mem_cons_of_mem k hj
  have hPending' := (hPending.reach hReach).mono hSub
  have hStart' := hA.later (hA.reach hInv hPending hReach hStart)
    hSub (Later.refl ((hPending.reach hReach).inv hReach.inv))
  exact ⟨hPending'.reach hNext, List.mem_cons_self,
    hA.reach hReach.inv hPending' hNext hStart'⟩

/- What a query tells stays true if locks keep it so. -/
theorem Triple.query
    {look : σ → α}
    (hA : G.Stable A)
    (hB : ∀ a, G.Stable (B a))
    (hLook : ∀ held t, G.inv t → A held t → B (look t) held t) :
    G.Triple A (Txn.query look : Txn σ κ ε α) B := by
  rintro held own s hInv hPending hStart s' hReach s'' hNext
    b ⟨⟩
  have hPending' := hPending.reach hReach
  have hSeen := hLook held (own s') (hPending'.inv hReach.inv)
    (hA.reach hInv hPending hReach hStart)
  exact ⟨hPending'.reach hNext,
    (hB _).reach hReach.inv hPending' hNext hSeen⟩

theorem Triple.require
    {c : Prop} [Decidable c]
    {e : ε}
    (hA : G.Stable A) :
    G.Triple A (Txn.require c e : Txn σ κ ε Unit)
      (fun _ held t => c ∧ A held t) := by
  unfold Txn.require
  split
  · rename_i hc
    exact (Triple.pure hA ()).imp (fun _ _ _ h => h)
      fun _ _ _ h => ⟨hc, h.2⟩
  · exact Triple.fail e

/- A part that writes nothing watched, and what it returns. -/
theorem Triple.harmless
    {Q : α → Prop}
    (hA : G.Stable A)
    (hWrites : p.WritesOnly G.Harmless)
    (hReturns : p.Returns Q) :
    G.Triple A p (fun a held t => Q a ∧ A held t) := by
  intro held own s hInv hPending hStart
  induction p generalizing held own s with
  | pure a =>
      rintro s' hReach b ⟨⟩
      exact ⟨hPending.reach hReach, hReturns,
        hA.reach hInv hPending hReach hStart⟩
  | fail e => rintro s' hReach b ⟨⟩
  | lock k next ih =>
      intro s' hReach
      have hPending' := hPending.reach hReach
      have hSub : ∀ j ∈ held, j ∈ k :: held :=
        fun j hj => List.mem_cons_of_mem k hj
      exact ih hWrites hReturns _ _ _ hReach.inv
        (hPending'.mono hSub)
        (hA.later (hA.reach hInv hPending hReach hStart) hSub
          (Later.refl (hPending'.inv hReach.inv)))
  | read next ih =>
      intro s' hReach
      exact ih _ (hWrites _) (hReturns _) _ _ _ hReach.inv
        (hPending.reach hReach)
        (hA.reach hInv hPending hReach hStart)
  | write change next ih =>
      have hSeen := hPending.inv hInv
      refine ih hWrites.2 hReturns _ _ _ hInv
        (hPending.write hInv (hWrites.1.changes _)
          fun _ hi => hi.elim) ?_
      refine hA.later hStart (fun _ hk => hk) ⟨?_, ?_, ?_⟩
      · exact hWrites.1.inv _ hSeen
      · exact (hWrites.1.changes _).follows hSeen
      · exact fun i _ => hWrites.1.look i _

/- A part that writes nothing watched keeps what is stable. -/
theorem Triple.kept
    (hA : G.Stable A)
    (hWrites : p.WritesOnly G.Harmless) :
    G.Triple A p (fun _ => A) := by
  have hReturns : p.Returns (fun _ => True) := by
    rw [← Txn.bind_pure_eq p]
    exact Txn.Returns.bind p fun _ => trivial
  exact (Triple.harmless hA hWrites hReturns).imp
    (fun _ _ _ h => h) fun _ _ _ h => h.2

/- A write to places whose locks are held. -/
theorem Triple.write
    {B' : Assertion σ κ}
    (hB' : G.Stable B')
    (hChanges : ∀ held t, G.inv t → A held t →
      ∃ T, G.Changes T f t ∧ ∀ i ∈ T, i ∈ G.locked held t)
    (hPost : ∀ held t, G.inv t → A held t → B' held (f t)) :
    G.Triple A (Txn.update f : Txn σ κ ε Unit)
      (fun _ => B') := by
  rintro held own s hInv hPending hStart s' hReach b ⟨⟩
  have hSeen := hPending.inv hInv
  rcases hChanges held _ hSeen hStart with
    ⟨T, hChange, hLocked⟩
  have hPending' := hPending.write hInv hChange hLocked
  exact ⟨hPending'.reach hReach,
    hB'.reach hInv hPending' hReach (hPost held _ hSeen hStart)⟩

/- A program with a triple is safe among all such programs. -/
theorem Triple.safe
    (h : G.Triple (fun _ _ => True) p B) :
    G.discipline.Safe (fun _ _ => True) (fun _ _ _ => True)
      p := by
  intro s hInv
  refine Txn.wlp_imp ?_ (h [] id s hInv (Pending.id s) trivial)
  intro r held own s' hInv' hEnd
  cases r with
  | error e => trivial
  | ok a =>
      exact fun _ => ⟨(hEnd a rfl).1.commits hInv', trivial⟩

end Guarding
