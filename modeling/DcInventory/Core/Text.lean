import Mathlib.Data.List.Basic
import Mathlib.Tactic.NormNum

/-
  This file defines texts and identifiers.

  Key definitions include:
    * `Text.normalize`
    * `Text.strip`
    * `Text.le`
    * `Uuid`
    * `Uuid.str`

  Key theorems include:
    * `Text.le_antisymm`
    * `Uuid.str_injective`
-/

------------------------------------------------------------
-- Texts
------------------------------------------------------------

abbrev Text := List Char

namespace Text

instance lawfulBEq : LawfulBEq (List Char) :=
  inferInstance

/- The characters that `str.split` and `str.strip` drop. -/
def isSpace (c : Char) : Bool :=
  let n := c.toNat
  (9 ≤ n && n ≤ 13) || (28 ≤ n && n ≤ 32) || n == 0x85 ||
    n == 0xA0 || n == 0x1680 || (0x2000 ≤ n && n ≤ 0x200A) ||
    n == 0x2028 || n == 0x2029 || n == 0x202F ||
    n == 0x205F || n == 0x3000

/- `split`, with the word read so far in reverse. -/
def splitFrom (word : Text) : Text → List Text
| [] => if word = [] then [] else [word.reverse]
| c :: cs =>
    if isSpace c then
      if word = [] then splitFrom [] cs
      else word.reverse :: splitFrom [] cs
    else splitFrom (c :: word) cs

/- `value.split()` -/
def split (value : Text) : List Text :=
  splitFrom [] value

/- `" ".join(words)` -/
def joinWords : List Text → Text
| [] => []
| [w] => w
| w :: ws => w ++ ' ' :: joinWords ws

/- `" ".join(value.split())` -/
def normalize (value : Text) : Text :=
  joinWords (split value)

/- `value.strip()` -/
def strip (value : Text) : Text :=
  ((value.dropWhile isSpace).reverse.dropWhile isSpace).reverse

example :
    normalize "  a \t b\n".toList = "a b".toList := by
  decide

/- Texts are ordered by their code points. -/
def le : Text → Text → Bool
| [], _ => true
| _ :: _, [] => false
| c :: cs, d :: ds =>
    if c = d then le cs ds else decide (c.toNat < d.toNat)

theorem le_total (v w : Text) :
    le v w = true ∨ le w v = true := by
  induction v generalizing w with
  | nil => exact Or.inl rfl
  | cons c cs ih =>
      cases w with
      | nil => exact Or.inr rfl
      | cons d ds =>
          unfold le
          by_cases h : c = d
          · rw [if_pos h, if_pos h.symm]
            exact ih ds
          · rw [if_neg h, if_neg (Ne.symm h)]
            have hNe : c.toNat ≠ d.toNat :=
              fun hEq => h (Char.toNat_inj.mp hEq)
            rw [decide_eq_true_eq, decide_eq_true_eq]
            omega

theorem le_trans
    {u v w : Text}
    (h : le u v = true)
    (h' : le v w = true) :
    le u w = true := by
  induction u generalizing v w with
  | nil => rfl
  | cons b bs ih =>
      cases v with
      | nil => cases h
      | cons c cs =>
          cases w with
          | nil => cases h'
          | cons d ds =>
              unfold le at h h' ⊢
              by_cases hbc : b = c
              · subst hbc
                rw [if_pos rfl] at h
                by_cases hbd : b = d
                · rw [if_pos hbd] at h' ⊢
                  exact ih h h'
                · rw [if_neg hbd] at h' ⊢
                  exact h'
              · rw [if_neg hbc, decide_eq_true_eq] at h
                by_cases hcd : c = d
                · subst hcd
                  rw [if_neg hbc, decide_eq_true_eq]
                  exact h
                · rw [if_neg hcd, decide_eq_true_eq] at h'
                  have hbd : b ≠ d := by
                    rintro rfl
                    omega
                  rw [if_neg hbd, decide_eq_true_eq]
                  omega

theorem le_antisymm
    {v w : Text}
    (h : le v w = true)
    (h' : le w v = true) :
    v = w := by
  induction v generalizing w with
  | nil =>
      cases w with
      | nil => rfl
      | cons d ds => cases h'
  | cons c cs ih =>
      cases w with
      | nil => cases h
      | cons d ds =>
          unfold le at h h'
          by_cases hcd : c = d
          · subst hcd
            rw [if_pos rfl] at h h'
            rw [ih h h']
          · rw [if_neg hcd, decide_eq_true_eq] at h
            rw [if_neg (Ne.symm hcd), decide_eq_true_eq] at h'
            omega

end Text

------------------------------------------------------------
-- Identifiers
------------------------------------------------------------

structure Uuid where
  bits : BitVec 128
deriving DecidableEq, Repr

namespace Uuid

/- Identifiers are ordered as the numbers they are. -/
instance : LE Uuid where
  le a b := a.bits ≤ b.bits

instance : DecidableRel (fun a b : Uuid => a ≤ b) :=
  fun a b => inferInstanceAs (Decidable (a.bits ≤ b.bits))

theorem le_total (a b : Uuid) : a ≤ b ∨ b ≤ a :=
  BitVec.le_total a.bits b.bits

theorem le_trans
    {a b c : Uuid}
    (h : a ≤ b)
    (h' : b ≤ c) :
    a ≤ c :=
  BitVec.le_trans h h'

theorem le_antisymm
    {a b : Uuid}
    (h : a ≤ b)
    (h' : b ≤ a) :
    a = b := by
  cases a
  cases b
  exact congrArg Uuid.mk (BitVec.le_antisymm h h')

/- The last `width` hexadecimal digits of a number. -/
def hexDigits : Nat → Nat → Text
| 0, _ => []
| width + 1, n =>
    hexDigits width (n / 16) ++ [Nat.digitChar (n % 16)]

/- `str(id)` -/
def str (id : Uuid) : Text :=
  let d := hexDigits 32 id.bits.toNat
  d.take 8 ++ '-' :: ((d.drop 8).take 4 ++ '-' ::
    ((d.drop 12).take 4 ++ '-' :: ((d.drop 16).take 4 ++
      '-' :: d.drop 20)))

@[simp]
theorem hexDigits_length
    (width n : Nat) :
    (hexDigits width n).length = width := by
  induction width generalizing n with
  | zero => rfl
  | succ width ih => simp [hexDigits, ih]

@[simp]
theorem str_length (id : Uuid) : id.str.length = 36 := by
  simp [str]

private theorem digitChar_injective :
    ∀ a < 16, ∀ b < 16,
      Nat.digitChar a = Nat.digitChar b → a = b := by
  decide

/- Digits determine the number they are all digits of. -/
theorem hexDigits_injective
    {width n n' : Nat}
    (hn : n < 16 ^ width)
    (hn' : n' < 16 ^ width)
    (h : hexDigits width n = hexDigits width n') :
    n = n' := by
  induction width generalizing n n' with
  | zero => simp at hn hn'; omega
  | succ width ih =>
      have hDigits := List.append_inj' h rfl
      have hLow : n % 16 = n' % 16 := by
        apply digitChar_injective _ (by omega) _ (by omega)
        simpa using hDigits.2
      have hHigh : n / 16 = n' / 16 := by
        apply ih _ _ hDigits.1
        · rw [pow_succ] at hn; omega
        · rw [pow_succ] at hn'; omega
      omega

/- Different identifiers have different texts. -/
theorem str_injective : Function.Injective str := by
  intro a b h
  unfold str at h
  have h₁ := List.append_inj h (by simp)
  have h₂ := List.append_inj
    (List.cons.inj h₁.2).2 (by simp)
  have h₃ := List.append_inj
    (List.cons.inj h₂.2).2 (by simp)
  have h₄ := List.append_inj
    (List.cons.inj h₃.2).2 (by simp)
  have h₅ := (List.cons.inj h₄.2).2
  have hSplit : ∀ d : Text, d.take 8 ++ ((d.drop 8).take 4 ++
      ((d.drop 12).take 4 ++ ((d.drop 16).take 4 ++
        d.drop 20))) = d := by
    intro d
    have hCut : ∀ (m k : Nat) (e : Text),
        (e.drop m).take k ++ e.drop (m + k) = e.drop m := by
      intro m k e
      rw [← List.drop_drop]
      exact List.take_append_drop k (e.drop m)
    rw [hCut 16 4, hCut 12 4, hCut 8 4, List.take_append_drop]
  have hDigits : hexDigits 32 a.bits.toNat =
      hexDigits 32 b.bits.toNat := by
    rw [← hSplit (hexDigits 32 a.bits.toNat),
      ← hSplit (hexDigits 32 b.bits.toNat), h₁.1, h₂.1,
      h₃.1, h₄.1, h₅]
  cases a
  cases b
  apply congrArg Uuid.mk
  apply BitVec.eq_of_toNat_eq
  apply hexDigits_injective _ _ hDigits
  · exact lt_of_lt_of_eq (BitVec.isLt _) (by norm_num)
  · exact lt_of_lt_of_eq (BitVec.isLt _) (by norm_num)

end Uuid
