import Mathlib.Data.List.Basic

/-
  This file defines hexadecimal digits and the text of bytes.

  Key definitions include:
    * `Hex.value?`
    * `Hex.digest`

  Key theorems include:
    * `Hex.value_upper`
    * `Hex.digest_injective`
-/

namespace Hex

/- The value of a digit in either case. -/
def value? (c : Char) : Option Nat :=
  if 48 ≤ c.toNat ∧ c.toNat ≤ 57 then some (c.toNat - 48)
  else if 65 ≤ c.toNat ∧ c.toNat ≤ 70 then some (c.toNat - 55)
  else if 97 ≤ c.toNat ∧ c.toNat ≤ 102 then some (c.toNat - 87)
  else none

def upper (n : Nat) : Char :=
  "0123456789ABCDEF".toList.getD n '0'

def lower (n : Nat) : Char :=
  "0123456789abcdef".toList.getD n '0'

theorem value_upper :
    ∀ n < 16, value? (upper n) = some n := by
  decide

theorem value_lower :
    ∀ n < 16, value? (lower n) = some n := by
  decide

/- `bytes.hex()` -/
def digest (bytes : List UInt8) : List Char :=
  bytes.flatMap (fun b =>
    [lower (b.toNat / 16), lower (b.toNat % 16)])

theorem digest_injective : Function.Injective digest := by
  intro bs
  induction bs with
  | nil =>
      intro bs' h
      cases bs' with
      | nil => rfl
      | cons b bs' => cases h
  | cons b bs ih =>
      intro bs' h
      cases bs' with
      | nil => cases h
      | cons b' bs' =>
          have hSize := b.toNat_lt
          have hSize' := b'.toNat_lt
          unfold digest at h ih
          simp only [List.flatMap_cons, List.cons_append,
            List.nil_append, List.cons.injEq] at h
          rcases h with ⟨hHigh, hLow, hRest⟩
          have hHigh := congrArg value? hHigh
          have hLow := congrArg value? hLow
          rw [value_lower _ (by omega), value_lower _ (by omega),
            Option.some.injEq] at hHigh hLow
          have hByte : b.toNat = b'.toNat := by omega
          rw [UInt8.toNat_inj.mp hByte, ih hRest]

end Hex
