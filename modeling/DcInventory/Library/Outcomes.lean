import DcInventory.Library.Fallible
import DcInventory.Library.Transaction

/-
  This file proves, part by part, what computations and
  transactions can end with: which errors they raise, and
  which property their end has.

  Key definitions include:
    * `Except.Raises`
    * `Txn.Raises`
    * `Txn.Ensures`

  Key theorems include:
    * `Except.Raises.bind`
    * `Txn.Raises.bind`
    * `Txn.Ensures.bind`
-/

------------------------------------------------------------
-- Computations
------------------------------------------------------------

namespace Except

variable {ε α β : Type}
variable {ok : ε → Prop}

/- Every error of the computation is one of these. -/
def Raises (ok : ε → Prop) (x : Except ε α) : Prop :=
  ∀ e, x = .error e → ok e

theorem raises_ok (a : α) :
    Raises ok (.ok a : Except ε α) := by
  intro e h
  cases h

theorem raises_error
    {e : ε}
    (h : ok e) :
    Raises ok (.error e : Except ε α) := by
  intro e' hEq
  cases hEq
  exact h

theorem Raises.mono
    {ok' : ε → Prop}
    {x : Except ε α}
    (h : Raises ok x)
    (hOk : ∀ e, ok e → ok' e) :
    Raises ok' x :=
  fun e hEq => hOk e (h e hEq)

theorem Raises.bind
    {x : Except ε α}
    {f : α → Except ε β}
    (h : Raises ok x)
    (hNext : ∀ a, Raises ok (f a)) :
    Raises ok (x >>= f) := by
  intro e hEq
  cases x with
  | error e' =>
      have hSame : e' = e := Except.error.inj hEq
      exact hSame ▸ h e' rfl
  | ok a => exact hNext a e hEq

theorem Raises.map
    {x : Except ε α}
    (h : Raises ok x)
    (f : α → β) :
    Raises ok (x.map f) := by
  intro e hEq
  cases x with
  | error e' =>
      cases hEq
      exact h _ rfl
  | ok a => cases hEq

theorem Raises.ite
    {c : Prop} [Decidable c]
    {x y : Except ε α}
    (h : c → Raises ok x)
    (h' : ¬ c → Raises ok y) :
    Raises ok (if c then x else y) := by
  by_cases hc : c
  · rw [if_pos hc]
    exact h hc
  · rw [if_neg hc]
    exact h' hc

theorem raises_mapM
    {f : α → Except ε β}
    (h : ∀ a, Raises ok (f a))
    (xs : List α) :
    Raises ok (xs.mapM f) := by
  induction xs with
  | nil =>
      rw [List.mapM_nil]
      exact raises_ok []
  | cons x xs ih =>
      rw [List.mapM_cons]
      exact (h x).bind fun y => ih.bind fun ys =>
        raises_ok (y :: ys)

end Except

------------------------------------------------------------
-- Transactions
------------------------------------------------------------

namespace Txn

variable {σ κ ε α β : Type}
variable {ok : ε → Prop}

/- Every error of the transaction is one of these. -/
def Raises (ok : ε → Prop) (p : Txn σ κ ε α) : Prop :=
  ∀ s e, p.run s = .error e → ok e

theorem raises_pure (a : α) :
    Raises ok (Pure.pure a : Txn σ κ ε α) := by
  intro s e h
  cases h

theorem raises_fail
    {e : ε}
    (h : ok e) :
    Raises ok (Txn.fail e : Txn σ κ ε α) := by
  intro s e' hRun
  cases hRun
  exact h

theorem raises_acquire (k : κ) :
    Raises ok (acquire k : Txn σ κ ε Unit) := by
  intro s e h
  cases h

theorem raises_acquireAll (ks : List κ) :
    Raises ok (acquireAll ks : Txn σ κ ε Unit) := by
  intro s e h
  rw [run_acquireAll] at h
  cases h

theorem raises_query (f : σ → α) :
    Raises ok (query f : Txn σ κ ε α) := by
  intro s e h
  cases h

theorem raises_update (change : σ → σ) :
    Raises ok (update change : Txn σ κ ε Unit) := by
  intro s e h
  cases h

theorem raises_require
    {c : Prop} [Decidable c]
    {e : ε}
    (h : ok e) :
    Raises ok (require c e : Txn σ κ ε Unit) := by
  intro s e' hRun
  rw [run_require] at hRun
  split at hRun
  · cases hRun
  · cases hRun
    exact h

theorem raises_ofExcept
    {x : Except ε α}
    (h : Except.Raises ok x) :
    Raises ok (ofExcept x : Txn σ κ ε α) := by
  intro s e hRun
  cases x with
  | error e' =>
      cases hRun
      exact h _ rfl
  | ok a => cases hRun

theorem raises_getOrFail
    {e : ε}
    {x : Option α}
    (h : ok e) :
    Raises ok (getOrFail e x : Txn σ κ ε α) := by
  cases x with
  | none => exact raises_fail h
  | some a => exact raises_pure a

theorem Raises.mono
    {ok' : ε → Prop}
    {p : Txn σ κ ε α}
    (h : Raises ok p)
    (hOk : ∀ e, ok e → ok' e) :
    Raises ok' p :=
  fun s e hRun => hOk e (h s e hRun)

theorem Raises.bind
    {p : Txn σ κ ε α}
    {f : α → Txn σ κ ε β}
    (h : Raises ok p)
    (hNext : ∀ a, Raises ok (f a)) :
    Raises ok (p >>= f) := by
  intro s e hRun
  rw [run_bind] at hRun
  cases hFirst : p.run s with
  | error e' =>
      rw [hFirst] at hRun
      cases hRun
      exact h s _ hFirst
  | ok x =>
      rw [hFirst] at hRun
      exact hNext x.1 x.2 e hRun

theorem Raises.ite
    {c : Prop} [Decidable c]
    {p q : Txn σ κ ε α}
    (h : c → Raises ok p)
    (h' : ¬ c → Raises ok q) :
    Raises ok (if c then p else q) := by
  by_cases hc : c
  · rw [if_pos hc]
    exact h hc
  · rw [if_neg hc]
    exact h' hc

/- What comes first decides whether an error is met later. -/
theorem run_bind_eq_error_iff
    {p : Txn σ κ ε α}
    {f : α → Txn σ κ ε β}
    {s : σ}
    {e : ε} :
    (p >>= f).run s = .error e ↔
      p.run s = .error e ∨
        ∃ a t, p.run s = .ok (a, t) ∧
          (f a).run t = .error e := by
  rw [run_bind]
  cases hFirst : p.run s with
  | error e' => simp
  | ok x =>
      rcases x with ⟨a, t⟩
      simp

------------------------------------------------------------
-- Ends
------------------------------------------------------------

/- From a store with `P` the transaction ends in one with `Q`. -/
def Ensures (P Q : σ → Prop) (p : Txn σ κ ε α) : Prop :=
  ∀ s a s', P s → p.run s = .ok (a, s') → Q s'

variable {P Q R : σ → Prop}

theorem Ensures.bind
    {p : Txn σ κ ε α}
    {f : α → Txn σ κ ε β}
    (h : p.Ensures P R)
    (hNext : ∀ a, (f a).Ensures R Q) :
    (p >>= f).Ensures P Q := by
  intro s b s' hP hRun
  rcases run_bind_eq_ok_iff.mp hRun with ⟨a, t, hFirst, hRest⟩
  exact hNext a t b s' (h s a t hP hFirst) hRest

/- What is true at the beginning stays true. -/
theorem Keeps.bind_ensures
    {p : Txn σ κ ε α}
    {f : α → Txn σ κ ε β}
    (h : p.Keeps P)
    (hNext : ∀ a, (f a).Ensures P Q) :
    (p >>= f).Ensures P Q :=
  Ensures.bind h hNext

end Txn
