import Mathlib.Data.Fintype.Basic
import Mathlib.Logic.Function.Basic
import Mathlib.Logic.Relation

/-
  This file defines a language of database transactions and
  its two executions: alone, and interleaved with any number
  of others under statement-level visibility of committed
  data, with locks held to the end of the transaction.

  Key definitions include:
    * `Txn`
    * `Txn.run`
    * `Txn.WritesOnly`
    * `Txn.Keeps`
    * `LockModes`
    * `System`
    * `System.Step`
    * `System.Reachable`
    * `System.advance`
-/

------------------------------------------------------------
-- Transaction Programs
------------------------------------------------------------

/-
  A transaction over stores `σ`, locks `κ` and errors `ε`.
  `read` is one statement: it sees the committed store with
  the transaction's own writes on top. `write` adds a write
  of its own; nobody else sees it before the commit.
-/
inductive Txn (σ κ ε α : Type) where
| pure (a : α)
| fail (e : ε)
| lock (k : κ) (next : Txn σ κ ε α)
| read (next : σ → Txn σ κ ε α)
| write (change : σ → σ) (next : Txn σ κ ε α)

namespace Txn

variable {σ κ ε α β γ : Type}

/- Sequential composition. -/
def bind
    (p : Txn σ κ ε α)
    (f : α → Txn σ κ ε β) : Txn σ κ ε β :=
  match p with
  | .pure a => f a
  | .fail e => .fail e
  | .lock k next => .lock k (next.bind f)
  | .read next => .read (fun s => (next s).bind f)
  | .write change next => .write change (next.bind f)

instance : Monad (Txn σ κ ε) where
  pure := Txn.pure
  bind := Txn.bind

@[simp]
theorem pure_bind_eq
    (a : α)
    (f : α → Txn σ κ ε β) :
    ((Pure.pure a : Txn σ κ ε α) >>= f) = f a :=
  rfl

@[simp]
theorem fail_bind
    (e : ε)
    (f : α → Txn σ κ ε β) :
    ((Txn.fail e : Txn σ κ ε α) >>= f) = Txn.fail e :=
  rfl

@[simp]
theorem lock_bind
    (k : κ)
    (next : Txn σ κ ε α)
    (f : α → Txn σ κ ε β) :
    (Txn.lock k next >>= f) = Txn.lock k (next >>= f) :=
  rfl

@[simp]
theorem read_bind
    (next : σ → Txn σ κ ε α)
    (f : α → Txn σ κ ε β) :
    (Txn.read next >>= f) =
      Txn.read (fun s => next s >>= f) :=
  rfl

@[simp]
theorem write_bind
    (change : σ → σ)
    (next : Txn σ κ ε α)
    (f : α → Txn σ κ ε β) :
    (Txn.write change next >>= f) =
      Txn.write change (next >>= f) :=
  rfl

/- Composition is associative. -/
theorem bind_assoc_eq
    (p : Txn σ κ ε α)
    (f : α → Txn σ κ ε β)
    (g : β → Txn σ κ ε γ) :
    p >>= f >>= g = p >>= fun a => f a >>= g := by
  induction p with
  | pure a => rfl
  | fail e => rfl
  | lock k next ih =>
      exact congrArg (Txn.lock k) ih
  | read next ih =>
      exact congrArg Txn.read (funext fun s => ih s)
  | write change next ih =>
      exact congrArg (Txn.write change) ih

/- Returning the result of a program changes nothing. -/
theorem bind_pure_eq
    (p : Txn σ κ ε α) :
    p >>= (fun a => (Pure.pure a : Txn σ κ ε α)) = p := by
  induction p with
  | pure a => rfl
  | fail e => rfl
  | lock k next ih =>
      exact congrArg (Txn.lock k) ih
  | read next ih =>
      exact congrArg Txn.read (funext fun s => ih s)
  | write change next ih =>
      exact congrArg (Txn.write change) ih

instance : LawfulMonad (Txn σ κ ε) :=
  LawfulMonad.mk' (Txn σ κ ε)
    (fun p => bind_pure_eq p)
    (fun _ _ => rfl)
    (fun p f g => bind_assoc_eq p f g)

/- Wait for a lock. -/
def acquire (k : κ) : Txn σ κ ε Unit :=
  .lock k (.pure ())

/- Wait for several locks, one after the other. -/
def acquireAll : List κ → Txn σ κ ε Unit
| [] => .pure ()
| k :: ks => .lock k (acquireAll ks)

/- One statement that evaluates a query. -/
def query (f : σ → α) : Txn σ κ ε α :=
  .read (fun s => .pure (f s))

/- One statement that changes the transaction's own view. -/
def update (change : σ → σ) : Txn σ κ ε Unit :=
  .write change (.pure ())

/- Fail with `e` unless the condition holds. -/
def require (c : Prop) [Decidable c] (e : ε) :
    Txn σ κ ε Unit :=
  if c then .pure () else .fail e

/- A pure computation that may fail. -/
def ofExcept : Except ε α → Txn σ κ ε α
| .ok a => .pure a
| .error e => .fail e

/- The program with its errors replaced. -/
def mapError
    (g : ε → ε) : Txn σ κ ε α → Txn σ κ ε α
| .pure a => .pure a
| .fail e => .fail (g e)
| .lock k next => .lock k (next.mapError g)
| .read next => .read (fun s => (next s).mapError g)
| .write change next => .write change (next.mapError g)

/- Every write of the program is one of these. -/
def WritesOnly
    (ok : (σ → σ) → Prop) : Txn σ κ ε α → Prop
| .pure _ => True
| .fail _ => True
| .lock _ next => next.WritesOnly ok
| .read next => ∀ s, (next s).WritesOnly ok
| .write change next => ok change ∧ next.WritesOnly ok

/- The value of an optional row, or the error `e`. -/
def getOrFail (e : ε) : Option α → Txn σ κ ε α
| some a => .pure a
| none => .fail e

end Txn

------------------------------------------------------------
-- Execution Alone
------------------------------------------------------------

namespace Txn

variable {σ κ ε α β : Type}

/-
  Execution with nobody else active: locks never wait and
  the transaction sees exactly its own changes.
-/
def run : Txn σ κ ε α → σ → Except ε (α × σ)
| .pure a, s => .ok (a, s)
| .fail e, _ => .error e
| .lock _ next, s => next.run s
| .read next, s => (next s).run s
| .write change next, s => next.run (change s)

@[simp]
theorem run_pure (a : α) (s : σ) :
    (Pure.pure a : Txn σ κ ε α).run s = .ok (a, s) :=
  rfl

@[simp]
theorem run_fail (e : ε) (s : σ) :
    (Txn.fail e : Txn σ κ ε α).run s = .error e :=
  rfl

/- A composition runs its parts one after the other. -/
theorem run_bind
    (p : Txn σ κ ε α)
    (f : α → Txn σ κ ε β)
    (s : σ) :
    (p >>= f).run s =
      match p.run s with
      | .error e => .error e
      | .ok (a, s') => (f a).run s' := by
  induction p generalizing s with
  | pure a => rfl
  | fail e => rfl
  | lock k next ih => exact ih s
  | read next ih => exact ih s s
  | write change next ih => exact ih (change s)

@[simp]
theorem run_acquire (k : κ) (s : σ) :
    (acquire k : Txn σ κ ε Unit).run s = .ok ((), s) :=
  rfl

@[simp]
theorem run_acquireAll (ks : List κ) (s : σ) :
    (acquireAll ks : Txn σ κ ε Unit).run s =
      .ok ((), s) := by
  induction ks with
  | nil => rfl
  | cons k ks ih => exact ih

@[simp]
theorem run_query (f : σ → α) (s : σ) :
    (query f : Txn σ κ ε α).run s = .ok (f s, s) :=
  rfl

@[simp]
theorem run_update (change : σ → σ) (s : σ) :
    (update change : Txn σ κ ε Unit).run s =
      .ok ((), change s) :=
  rfl

@[simp]
theorem run_require
    (c : Prop) [Decidable c]
    (e : ε) (s : σ) :
    (require c e : Txn σ κ ε Unit).run s =
      if c then .ok ((), s) else .error e := by
  unfold require
  split <;> rfl

theorem run_getOrFail
    (e : ε) (x : Option α) (s : σ) :
    (getOrFail e x : Txn σ κ ε α).run s =
      match x with
      | some a => .ok (a, s)
      | none => .error e := by
  cases x <;> rfl

theorem run_ofExcept
    (x : Except ε α) (s : σ) :
    (ofExcept x : Txn σ κ ε α).run s =
      x.map (fun a => (a, s)) := by
  cases x <;> rfl

/- The laws of a run, step by step. -/
section Laws

variable (f : Unit → Txn σ κ ε β)
variable (s : σ)

theorem run_acquire_bind (k : κ) :
    (acquire k >>= f).run s = (f ()).run s :=
  rfl

theorem run_query_bind
    (view : σ → α)
    (g : α → Txn σ κ ε β) :
    (query view >>= g).run s = (g (view s)).run s :=
  rfl

theorem run_update_bind (change : σ → σ) :
    (update change >>= f).run s = (f ()).run (change s) :=
  rfl

theorem run_require_bind
    (c : Prop) [Decidable c]
    (e : ε) :
    (require c e >>= f).run s =
      if c then (f ()).run s else .error e := by
  unfold require
  split <;> rfl

theorem run_acquireAll_bind (ks : List κ) :
    (acquireAll ks >>= f).run s = (f ()).run s := by
  rw [run_bind, run_acquireAll]

theorem run_getOrFail_none
    (e : ε)
    (g : α → Txn σ κ ε β) :
    (getOrFail e none >>= g).run s = .error e :=
  rfl

theorem run_getOrFail_some
    (e : ε)
    (a : α)
    (g : α → Txn σ κ ε β) :
    (getOrFail e (some a) >>= g).run s = (g a).run s :=
  rfl

end Laws

/- A composition returns what its second part returns. -/
theorem run_bind_eq_ok_iff
    {p : Txn σ κ ε α}
    {f : α → Txn σ κ ε β}
    {s s' : σ}
    {b : β} :
    (p >>= f).run s = .ok (b, s') ↔
      ∃ a t, p.run s = .ok (a, t) ∧
        (f a).run t = .ok (b, s') := by
  rw [run_bind]
  cases hRun : p.run s with
  | error e =>
      constructor
      · intro h
        cases h
      · rintro ⟨a, t, hEq, _⟩
        cases hEq
  | ok x =>
      rcases x with ⟨a, t⟩
      constructor
      · intro h
        exact ⟨a, t, rfl, h⟩
      · rintro ⟨a', t', hEq, h⟩
        cases hEq
        exact h

theorem run_require_eq_ok_iff
    {c : Prop} [Decidable c]
    {e : ε}
    {s s' : σ}
    {u : Unit} :
    (require c e : Txn σ κ ε Unit).run s = .ok (u, s') ↔
      c ∧ s' = s := by
  rw [run_require]
  by_cases hc : c
  · simp [hc, eq_comm]
  · simp [hc]

theorem run_ofExcept_eq_ok_iff
    {x : Except ε α}
    {s s' : σ}
    {a : α} :
    (ofExcept x : Txn σ κ ε α).run s = .ok (a, s') ↔
      x = .ok a ∧ s' = s := by
  cases x with
  | error e => simp [ofExcept]
  | ok b =>
      change Except.ok (b, s) = _ ↔ _
      simp [eq_comm]

theorem run_getOrFail_eq_ok_iff
    {e : ε}
    {x : Option α}
    {s s' : σ}
    {a : α} :
    (getOrFail e x : Txn σ κ ε α).run s = .ok (a, s') ↔
      x = some a ∧ s' = s := by
  cases x with
  | none => simp [getOrFail]
  | some b =>
      change Except.ok (b, s) = _ ↔ _
      simp [eq_comm]

theorem run_query_eq_ok_iff
    {f : σ → α}
    {s s' : σ}
    {a : α} :
    (query f : Txn σ κ ε α).run s = .ok (a, s') ↔
      a = f s ∧ s' = s := by
  rw [run_query]
  simp [eq_comm]

theorem run_update_eq_ok_iff
    {change : σ → σ}
    {s s' : σ}
    {u : Unit} :
    (update change : Txn σ κ ε Unit).run s = .ok (u, s') ↔
      s' = change s := by
  rw [run_update]
  simp [eq_comm]

theorem run_pure_eq_ok_iff
    {s s' : σ}
    {a b : α} :
    (Pure.pure a : Txn σ κ ε α).run s = .ok (b, s') ↔
      b = a ∧ s' = s := by
  rw [run_pure]
  simp [eq_comm]

theorem run_acquire_eq_ok_iff
    {k : κ}
    {s s' : σ}
    {u : Unit} :
    (acquire k : Txn σ κ ε Unit).run s = .ok (u, s') ↔
      s' = s := by
  rw [run_acquire]
  simp [eq_comm]

/- A program whose result is mapped runs the same. -/
theorem run_map
    (p : Txn σ κ ε α)
    (f : α → β)
    (s : σ) :
    (f <$> p).run s = (p.run s).map (Prod.map f id) := by
  induction p generalizing s with
  | pure a => rfl
  | fail e => rfl
  | lock k next ih => exact ih s
  | read next ih => exact ih s s
  | write change next ih => exact ih (change s)

/- The store after one attempted transaction. -/
def settle (p : Txn σ κ ε α) (s : σ) : σ :=
  match p.run s with
  | .ok (_, s') => s'
  | .error _ => s

end Txn

------------------------------------------------------------
-- What A Program Writes
------------------------------------------------------------

namespace Txn

variable {σ κ ε α β : Type}
variable {ok : (σ → σ) → Prop}

/- The program writes nothing. -/
abbrev ReadsOnly (p : Txn σ κ ε α) : Prop :=
  p.WritesOnly (fun _ => False)

theorem WritesOnly.mono
    {p : Txn σ κ ε α}
    {ok' : (σ → σ) → Prop}
    (h : p.WritesOnly ok)
    (hImp : ∀ change, ok change → ok' change) :
    p.WritesOnly ok' := by
  induction p with
  | pure a => trivial
  | fail e => trivial
  | lock k next ih => exact ih h
  | read next ih => exact fun s => ih s (h s)
  | write change next ih =>
      exact ⟨hImp change h.1, ih h.2⟩

theorem ReadsOnly.writesOnly
    {p : Txn σ κ ε α}
    (h : p.ReadsOnly) :
    p.WritesOnly ok :=
  WritesOnly.mono h (fun _ hFalse => hFalse.elim)

/- A composition writes what its parts write. -/
theorem WritesOnly.bind
    {p : Txn σ κ ε α}
    {f : α → Txn σ κ ε β}
    (h : p.WritesOnly ok)
    (hf : ∀ a, (f a).WritesOnly ok) :
    (p >>= f).WritesOnly ok := by
  induction p with
  | pure a => exact hf a
  | fail e => trivial
  | lock k next ih => exact ih h
  | read next ih => exact fun s => ih s (h s)
  | write change next ih => exact ⟨h.1, ih h.2⟩

@[simp]
theorem writesOnly_pure (a : α) :
    (Pure.pure a : Txn σ κ ε α).WritesOnly ok :=
  trivial

@[simp]
theorem writesOnly_fail (e : ε) :
    (Txn.fail e : Txn σ κ ε α).WritesOnly ok :=
  trivial

@[simp]
theorem writesOnly_acquire (k : κ) :
    (acquire k : Txn σ κ ε Unit).WritesOnly ok :=
  trivial

@[simp]
theorem writesOnly_acquireAll (ks : List κ) :
    (acquireAll ks : Txn σ κ ε Unit).WritesOnly ok := by
  induction ks with
  | nil => trivial
  | cons k ks ih => exact ih

@[simp]
theorem writesOnly_query (f : σ → α) :
    (query f : Txn σ κ ε α).WritesOnly ok :=
  fun _ => trivial

@[simp]
theorem writesOnly_update (change : σ → σ) :
    (update change : Txn σ κ ε Unit).WritesOnly ok ↔
      ok change :=
  and_iff_left trivial

@[simp]
theorem writesOnly_require
    (c : Prop) [Decidable c]
    (e : ε) :
    (require c e : Txn σ κ ε Unit).WritesOnly ok := by
  unfold require
  split <;> trivial

@[simp]
theorem writesOnly_ofExcept (x : Except ε α) :
    (ofExcept x : Txn σ κ ε α).WritesOnly ok := by
  cases x <;> trivial

@[simp]
theorem writesOnly_getOrFail (e : ε) (x : Option α) :
    (getOrFail e x : Txn σ κ ε α).WritesOnly ok := by
  cases x <;> trivial

/- Where the program returns, its result satisfies `P`. -/
def Returns (P : α → Prop) : Txn σ κ ε α → Prop
| .pure a => P a
| .fail _ => True
| .lock _ next => next.Returns P
| .read next => ∀ s, (next s).Returns P
| .write _ next => next.Returns P

/- The last part of a composition returns its result. -/
theorem Returns.bind
    {Q : β → Prop}
    (p : Txn σ κ ε α)
    {f : α → Txn σ κ ε β}
    (hf : ∀ a, (f a).Returns Q) :
    (p >>= f).Returns Q := by
  induction p with
  | pure a => exact hf a
  | fail e => trivial
  | lock k next ih => exact ih
  | read next ih => exact fun s => ih s
  | write change next ih => exact ih

/- Alone, the program does not destroy the property. -/
def Keeps (P : σ → Prop) (p : Txn σ κ ε α) : Prop :=
  ∀ s a s', P s → p.run s = .ok (a, s') → P s'

variable {P : σ → Prop}

theorem Keeps.bind
    {p : Txn σ κ ε α}
    {f : α → Txn σ κ ε β}
    (h : p.Keeps P)
    (hf : ∀ a, (f a).Keeps P) :
    (p >>= f).Keeps P := by
  intro s b s' hP hRun
  rw [run_bind] at hRun
  cases hFirst : p.run s with
  | error e =>
      rw [hFirst] at hRun
      cases hRun
  | ok r =>
      rw [hFirst] at hRun
      exact hf r.1 r.2 b s' (h s r.1 r.2 hP hFirst) hRun

/- Writes that keep the property make a program keep it. -/
theorem WritesOnly.keeps
    {p : Txn σ κ ε α}
    (h : p.WritesOnly ok)
    (hKeeps : ∀ change, ok change → ∀ s, P s → P (change s)) :
    p.Keeps P := by
  intro s a s' hP hRun
  induction p generalizing s with
  | pure b =>
      cases hRun
      exact hP
  | fail e => cases hRun
  | lock k next ih => exact ih h s hP hRun
  | read next ih => exact ih s (h s) s hP hRun
  | write change next ih =>
      exact ih h.2 (change s) (hKeeps change h.1 s hP) hRun

theorem ReadsOnly.keeps
    {p : Txn σ κ ε α}
    (h : p.ReadsOnly) :
    p.Keeps P :=
  WritesOnly.keeps h (fun _ hFalse => hFalse.elim)

/- An attempt keeps what the program keeps. -/
theorem Keeps.settle
    {p : Txn σ κ ε α}
    {s : σ}
    (h : p.Keeps P)
    (hP : P s) :
    P (p.settle s) := by
  unfold Txn.settle
  cases hRun : p.run s with
  | error e => exact hP
  | ok r => exact h s r.1 r.2 hP hRun

end Txn

------------------------------------------------------------
-- Interleaved Execution
------------------------------------------------------------

/- Which locks exclude each other. -/
structure LockModes (κ : Type) where
  conflict : κ → κ → Prop
  symm : ∀ {k k'}, conflict k k' → conflict k' k

/- A transaction in progress. -/
structure Active (σ κ ε α : Type) where
  program : Txn σ κ ε α
  held : List κ
  own : σ → σ

/- The committed store and the transactions in progress. -/
structure System (τ σ κ ε α : Type) where
  committed : σ
  active : τ → Option (Active σ κ ε α)

/- What a step does, seen from outside. -/
inductive Label (τ σ κ ε α : Type) where
| start (t : τ) (p : Txn σ κ ε α)
| internal (t : τ)
| finish (t : τ) (result : Except ε α)
| crash (t : τ)

namespace Label

variable {τ σ κ ε α : Type}

/- The step ends transaction `t`. -/
def Ends (t : τ) : Label τ σ κ ε α → Prop
| .finish t' _ => t' = t
| .crash t' => t' = t
| _ => False

end Label

namespace System

variable {τ σ κ ε α : Type}
variable [DecidableEq τ]

/- Replace what is known of transaction `t`. -/
def setActive
    (S : System τ σ κ ε α)
    (t : τ)
    (a : Option (Active σ κ ε α)) :
    System τ σ κ ε α :=
  { S with active := Function.update S.active t a }

@[simp]
theorem setActive_committed
    (S : System τ σ κ ε α)
    (t : τ)
    (a : Option (Active σ κ ε α)) :
    (S.setActive t a).committed = S.committed :=
  rfl

@[simp]
theorem setActive_active_self
    (S : System τ σ κ ε α)
    (t : τ)
    (a : Option (Active σ κ ε α)) :
    (S.setActive t a).active t = a := by
  simp [setActive]

theorem setActive_active_of_ne
    (S : System τ σ κ ε α)
    {t t' : τ}
    (a : Option (Active σ κ ε α))
    (h : t' ≠ t) :
    (S.setActive t a).active t' = S.active t' := by
  simp [setActive, Function.update_of_ne h]

/- No other transaction holds a lock that excludes `k`. -/
def Grantable
    (modes : LockModes κ)
    (S : System τ σ κ ε α)
    (t : τ)
    (k : κ) : Prop :=
  ∀ t', t' ≠ t →
    ∀ a, S.active t' = some a →
      ∀ k' ∈ a.held, ¬ modes.conflict k' k

/-
  One step of the system. `programs` are the transactions a
  client may start. `permit` restricts which results may
  commit; it is `True` for the unrestricted system.
-/
inductive Step
    (modes : LockModes κ)
    (programs : Txn σ κ ε α → Prop)
    (permit : α → σ → Prop)
    (S : System τ σ κ ε α) :
    Label τ σ κ ε α → System τ σ κ ε α → Prop where
| start {t p} :
    S.active t = none →
    programs p →
    Step modes programs permit S (.start t p)
      (S.setActive t (some ⟨p, [], id⟩))
| acquire {t k next held own} :
    S.active t = some ⟨.lock k next, held, own⟩ →
    S.Grantable modes t k →
    Step modes programs permit S (.internal t)
      (S.setActive t (some ⟨next, k :: held, own⟩))
| read {t next held own} :
    S.active t = some ⟨.read next, held, own⟩ →
    Step modes programs permit S (.internal t)
      (S.setActive t
        (some ⟨next (own S.committed), held, own⟩))
| write {t change next held own} :
    S.active t = some ⟨.write change next, held, own⟩ →
    Step modes programs permit S (.internal t)
      (S.setActive t (some ⟨next, held, change ∘ own⟩))
| commit {t a held own} :
    S.active t = some ⟨.pure a, held, own⟩ →
    permit a S.committed →
    Step modes programs permit S (.finish t (.ok a))
      { S.setActive t none with
        committed := own S.committed }
| abort {t e held own} :
    S.active t = some ⟨.fail e, held, own⟩ →
    Step modes programs permit S (.finish t (.error e))
      (S.setActive t none)
| crash {t a} :
    S.active t = some a →
    Step modes programs permit S (.crash t)
      (S.setActive t none)

/- A committed store with no transaction in progress. -/
def initial (s : σ) : System τ σ κ ε α where
  committed := s
  active := fun _ => none

/- Steps of any kind, one after the other. -/
inductive Steps
    (modes : LockModes κ)
    (programs : Txn σ κ ε α → Prop)
    (permit : α → σ → Prop)
    (S : System τ σ κ ε α) :
    System τ σ κ ε α → Prop where
| refl : Steps modes programs permit S S
| step {S' S'' l} :
    Steps modes programs permit S S' →
    Step modes programs permit S' l S'' →
    Steps modes programs permit S S''

/- Steps none of which ends transaction `t`. -/
inductive StepsDuring
    (modes : LockModes κ)
    (programs : Txn σ κ ε α → Prop)
    (permit : α → σ → Prop)
    (t : τ)
    (S : System τ σ κ ε α) :
    System τ σ κ ε α → Prop where
| refl : StepsDuring modes programs permit t S S
| step {S' S'' l} :
    StepsDuring modes programs permit t S S' →
    Step modes programs permit S' l S'' →
    ¬ l.Ends t →
    StepsDuring modes programs permit t S S''

/-
  Transaction `t` begins program `p` in `S` and ends with
  `result` by a step from `S'` to `S''`, while others may
  take any steps.
-/
structure Executes
    (modes : LockModes κ)
    (programs : Txn σ κ ε α → Prop)
    (permit : α → σ → Prop)
    (t : τ)
    (p : Txn σ κ ε α)
    (result : Except ε α)
    (S S' S'' : System τ σ κ ε α) : Prop where
  start : ∃ S₁,
    Step modes programs permit S (.start t p) S₁ ∧
      StepsDuring modes programs permit t S₁ S'
  finish : Step modes programs permit S'
    (.finish t result) S''

/- A state some run leads to from a quiet start. -/
def Reachable
    (modes : LockModes κ)
    (programs : Txn σ κ ε α → Prop)
    (permit : α → σ → Prop)
    (start : σ → Prop)
    (S : System τ σ κ ε α) : Prop :=
  ∃ s, start s ∧
    Steps modes programs permit (initial s) S

variable {modes : LockModes κ}
variable {programs : Txn σ κ ε α → Prop}
variable {permit : α → σ → Prop}

/- Runs can be put one after the other. -/
theorem Steps.trans
    {S S' S'' : System τ σ κ ε α}
    (h : Steps modes programs permit S S')
    (h' : Steps modes programs permit S' S'') :
    Steps modes programs permit S S'' := by
  induction h' with
  | refl => exact h
  | step _ hStep ih => exact ih.step hStep

/- A run that spares `t` is a run. -/
theorem StepsDuring.steps
    {t : τ}
    {S S' : System τ σ κ ε α}
    (h : StepsDuring modes programs permit t S S') :
    Steps modes programs permit S S' := by
  induction h with
  | refl => exact .refl
  | step _ hStep _ ih => exact ih.step hStep

/- A transaction that ends has run. -/
theorem Executes.steps
    {t : τ}
    {p : Txn σ κ ε α}
    {result : Except ε α}
    {S S' S'' : System τ σ κ ε α}
    (h : Executes modes programs permit t p result S S' S'') :
    Steps modes programs permit S S'' := by
  rcases h.start with ⟨S₁, hStart, hDuring⟩
  exact ((Steps.refl.step hStart).trans hDuring.steps).step
    h.finish

/- Reachability is closed under steps. -/
theorem Reachable.step
    {start : σ → Prop}
    {S S' : System τ σ κ ε α}
    {l : Label τ σ κ ε α}
    (h : Reachable modes programs permit start S)
    (hStep : Step modes programs permit S l S') :
    Reachable modes programs permit start S' := by
  rcases h with ⟨s, hs, hSteps⟩
  exact ⟨s, hs, hSteps.step hStep⟩

/- Reachability is closed under runs. -/
theorem Reachable.steps
    {start : σ → Prop}
    {S S' : System τ σ κ ε α}
    (h : Reachable modes programs permit start S)
    (hSteps : Steps modes programs permit S S') :
    Reachable modes programs permit start S' := by
  rcases h with ⟨s, hs, hPrefix⟩
  exact ⟨s, hs, hPrefix.trans hSteps⟩

end System

------------------------------------------------------------
-- Running Alone Is Running Interleaved
------------------------------------------------------------

namespace System

variable {τ σ κ ε α : Type}
variable [DecidableEq τ]
variable {modes : LockModes κ}
variable {programs : Txn σ κ ε α → Prop}
variable {permit : α → σ → Prop}

/- One step more before a run. -/
theorem StepsDuring.head
    {t : τ}
    {l : Label τ σ κ ε α}
    {S S' S'' : System τ σ κ ε α}
    (hStep : Step modes programs permit S l S')
    (hSpares : ¬ l.Ends t)
    (h : StepsDuring modes programs permit t S' S'') :
    StepsDuring modes programs permit t S S'' := by
  induction h with
  | refl => exact .step .refl hStep hSpares
  | step _ hLast hSparesLast ih =>
      exact ih.step hLast hSparesLast

@[simp]
theorem setActive_setActive
    (S : System τ σ κ ε α)
    (t : τ)
    (a b : Option (Active σ κ ε α)) :
    (S.setActive t a).setActive t b = S.setActive t b := by
  simp [setActive]

/- An idle transaction that ends is idle. -/
theorem setActive_idle
    (S : System τ σ κ ε α)
    {t : τ}
    (h : S.active t = none) :
    S.setActive t none = S := by
  unfold setActive
  rw [← h, Function.update_eq_self]

/- The program that says how a transaction ended. -/
def endOf : Except ε α → Txn σ κ ε α
| .ok a => .pure a
| .error e => .fail e

/- With nobody else active, a program goes to its end. -/
theorem stepsDuring_of_run
    {S : System τ σ κ ε α}
    {t : τ}
    (hAlone : ∀ t', t' ≠ t → S.active t' = none)
    (p : Txn σ κ ε α)
    (held : List κ)
    (own : σ → σ) :
    ∃ held' own',
      StepsDuring modes programs permit t
        (S.setActive t (some ⟨p, held, own⟩))
        (S.setActive t (some
          ⟨endOf ((p.run (own S.committed)).map Prod.fst),
            held', own'⟩)) ∧
      ∀ a s', p.run (own S.committed) = .ok (a, s') →
        own' S.committed = s' := by
  have hSelf : ∀ a, (S.setActive t a).active t = a :=
    S.setActive_active_self t
  induction p generalizing held own with
  | pure a =>
      refine ⟨held, own, .refl, ?_⟩
      intro b s' hRun
      cases hRun
      rfl
  | fail e => exact ⟨held, own, .refl, by rintro a s' ⟨⟩⟩
  | lock k next ih =>
      rcases ih (k :: held) own with ⟨held', own', hSteps, hEnd⟩
      refine ⟨held', own', ?_, hEnd⟩
      apply StepsDuring.head (.acquire (hSelf _) ?_)
        (by simp [Label.Ends])
      · rw [setActive_setActive]
        exact hSteps
      · intro t' hNe a hOther
        rw [S.setActive_active_of_ne _ hNe, hAlone t' hNe]
          at hOther
        cases hOther
  | read next ih =>
      rcases ih (own S.committed) held own with
        ⟨held', own', hSteps, hEnd⟩
      refine ⟨held', own', ?_, hEnd⟩
      apply StepsDuring.head (.read (hSelf _))
        (by simp [Label.Ends])
      rw [setActive_setActive]
      exact hSteps
  | write change next ih =>
      rcases ih held (change ∘ own) with
        ⟨held', own', hSteps, hEnd⟩
      refine ⟨held', own', ?_, hEnd⟩
      apply StepsDuring.head (.write (hSelf _))
        (by simp [Label.Ends])
      rw [setActive_setActive]
      exact hSteps

/- A program that commits alone commits among idle others. -/
theorem executes_of_run
    {S : System τ σ κ ε α}
    (hIdle : ∀ t, S.active t = none)
    (t : τ)
    {p : Txn σ κ ε α}
    (hProgram : programs p)
    {a : α}
    {s' : σ}
    (hRun : p.run S.committed = .ok (a, s'))
    (hPermit : permit a S.committed) :
    ∃ S', S'.committed = S.committed ∧
      Executes modes programs permit t p (.ok a) S S'
        { S with committed := s' } := by
  rcases stepsDuring_of_run (fun t' _ => hIdle t') p [] id with
    ⟨held, own, hSteps, hEnd⟩
  have hOwn : own S.committed = s' := hEnd a s' hRun
  rw [id, hRun] at hSteps
  refine ⟨S.setActive t (some ⟨.pure a, held, own⟩), rfl,
    ⟨_, .start (hIdle t) hProgram, hSteps⟩, ?_⟩
  have hCommit : Step modes programs permit _ _ _ :=
    .commit (S.setActive_active_self t
      (some ⟨.pure a, held, own⟩)) hPermit
  rw [setActive_setActive, setActive_committed, hOwn,
    S.setActive_idle (hIdle t)] at hCommit
  exact hCommit

/- A program that fails alone fails among idle others. -/
theorem executes_of_run_error
    {S : System τ σ κ ε α}
    (hIdle : ∀ t, S.active t = none)
    (t : τ)
    {p : Txn σ κ ε α}
    (hProgram : programs p)
    {e : ε}
    (hRun : p.run S.committed = .error e) :
    ∃ S', Executes modes programs permit t p (.error e) S S'
      S := by
  rcases stepsDuring_of_run (fun t' _ => hIdle t') p [] id with
    ⟨held, own, hSteps, _⟩
  rw [id, hRun] at hSteps
  refine ⟨S.setActive t (some ⟨.fail e, held, own⟩),
    ⟨_, .start (hIdle t) hProgram, hSteps⟩, ?_⟩
  have hAbort : Step modes programs permit _ _ _ :=
    .abort (S.setActive_active_self t
      (some ⟨.fail e, held, own⟩))
  rw [setActive_setActive, S.setActive_idle (hIdle t)]
    at hAbort
  exact hAbort

end System

------------------------------------------------------------
-- Executable Schedules
------------------------------------------------------------

namespace System

variable {τ σ κ ε α : Type}
variable [DecidableEq τ] [Fintype τ]

/-
  The next operation of transaction `t`, if it need not wait
  for a lock.
-/
def advance
    (modes : LockModes κ)
    [DecidableRel modes.conflict]
    (S : System τ σ κ ε α)
    (t : τ) : Option (System τ σ κ ε α) :=
  match S.active t with
  | none => none
  | some ⟨.pure _, _, own⟩ =>
      some { S.setActive t none with
        committed := own S.committed }
  | some ⟨.fail _, _, _⟩ => some (S.setActive t none)
  | some ⟨.lock k next, held, own⟩ =>
      if ∀ t', t' ≠ t →
          ∀ k' ∈ ((S.active t').map Active.held).getD [],
            ¬ modes.conflict k' k then
        some (S.setActive t (some ⟨next, k :: held, own⟩))
      else none
  | some ⟨.read next, held, own⟩ =>
      some (S.setActive t
        (some ⟨next (own S.committed), held, own⟩))
  | some ⟨.write change next, held, own⟩ =>
      some (S.setActive t
        (some ⟨next, held, change ∘ own⟩))

/- The operations of the listed transactions, in order. -/
def play
    (modes : LockModes κ)
    [DecidableRel modes.conflict]
    (S : System τ σ κ ε α) :
    List τ → Option (System τ σ κ ε α)
| [] => some S
| t :: ts => (S.advance modes t).bind (fun S' =>
    S'.play modes ts)

/- Let transaction `t` begin program `p`. -/
def begin
    (S : System τ σ κ ε α)
    (t : τ)
    (p : Txn σ κ ε α) : System τ σ κ ε α :=
  S.setActive t (some ⟨p, [], id⟩)

variable {modes : LockModes κ}
variable [DecidableRel modes.conflict]
variable {programs : Txn σ κ ε α → Prop}

/- What `advance` does is a step of the system. -/
theorem advance_step
    {S S' : System τ σ κ ε α}
    {t : τ}
    (h : S.advance modes t = some S') :
    ∃ l, Step modes programs (fun _ _ => True) S l S' := by
  unfold advance at h
  split at h
  · cases h
  · rename_i a held own hActive
    cases h
    exact ⟨_, .commit hActive trivial⟩
  · rename_i e held own hActive
    cases h
    exact ⟨_, .abort hActive⟩
  · rename_i k next held own hActive
    split at h
    · rename_i hFree
      cases h
      refine ⟨_, .acquire hActive ?_⟩
      intro t' hNe a hOther k' hMem
      exact hFree t' hNe k' (by simpa [hOther] using hMem)
    · cases h
  · rename_i next held own hActive
    cases h
    exact ⟨_, .read hActive⟩
  · rename_i change next held own hActive
    cases h
    exact ⟨_, .write hActive⟩

/- A played schedule is a run of the system. -/
theorem play_steps
    {S S' : System τ σ κ ε α}
    {ts : List τ}
    (h : S.play modes ts = some S') :
    Steps modes programs (fun _ _ => True) S S' := by
  induction ts generalizing S with
  | nil =>
      cases h
      exact .refl
  | cons t ts ih =>
      cases hNext : S.advance modes t with
      | none => simp [play, hNext] at h
      | some S₁ =>
          have hRest : S₁.play modes ts = some S' := by
            simpa [play, hNext] using h
          rcases advance_step hNext with ⟨l, hStep⟩
          exact (Steps.refl.step hStep).trans (ih hRest)

omit [Fintype τ] [DecidableRel modes.conflict] in
/- Beginning a program is a step of the system. -/
theorem begin_steps
    {S : System τ σ κ ε α}
    {t : τ}
    {p : Txn σ κ ε α}
    (hIdle : S.active t = none)
    (hProgram : programs p) :
    Steps modes programs (fun _ _ => True) S (S.begin t p) :=
  Steps.refl.step (.start hIdle hProgram)

/- The result that transaction `t` is about to commit. -/
def ready
    (S : System τ σ κ ε α)
    (t : τ) : Option α :=
  match S.active t with
  | some ⟨.pure a, _, _⟩ => some a
  | _ => none

omit [Fintype τ] [DecidableRel modes.conflict] in
/- What is ready can be committed. -/
theorem commit_of_ready
    {S : System τ σ κ ε α}
    {t : τ}
    {a : α}
    (h : S.ready t = some a) :
    ∃ S', Step modes programs (fun _ _ => True) S
      (.finish t (.ok a)) S' := by
  unfold ready at h
  split at h
  · rename_i b held own hActive
    cases h
    exact ⟨_, .commit hActive trivial⟩
  · cases h

/- The state that a schedule leads to. -/
def played
    (modes : LockModes κ)
    [DecidableRel modes.conflict]
    (S : System τ σ κ ε α)
    (ts : List τ) : System τ σ κ ε α :=
  (S.play modes ts).getD S

theorem played_steps
    {S : System τ σ κ ε α}
    {ts : List τ} :
    Steps modes programs (fun _ _ => True) S
      (S.played modes ts) := by
  unfold played
  cases hPlay : S.play modes ts with
  | none => exact .refl
  | some S' => exact play_steps hPlay

end System
