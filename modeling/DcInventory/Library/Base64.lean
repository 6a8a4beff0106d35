import Mathlib.Data.List.DropRight
import Mathlib.Data.List.Basic

/-
  This file defines base 64 with the alphabet that is safe in
  URLs: the padded text of some bytes, and the lenient reading
  of a text. The reader passes over signs that are in neither
  alphabet, takes both spellings of the last two digits, and
  stops at the padding that completes four signs.

  Key definitions include:
    * `Base64.encode`
    * `Base64.scan`
    * `Base64.decode`
    * `Base64.padding`

  Key theorems include:
    * `Base64.decode_encode`
    * `Base64.mem_encode`
    * `Base64.decode_unpadded`
-/

namespace Base64

------------------------------------------------------------
-- Digits
------------------------------------------------------------

/- The sign of six bits. -/
def sign (n : Nat) : Char :=
  if n < 26 then Char.ofNat (65 + n)
  else if n < 52 then Char.ofNat (71 + n)
  else if n < 62 then Char.ofNat (n - 4)
  else if n = 62 then '-'
  else '_'

/- The six bits of a sign, in the plain alphabet or this. -/
def value? (c : Char) : Option Nat :=
  if c.isUpper then some (c.toNat - 65)
  else if c.isLower then some (c.toNat - 71)
  else if c.isDigit then some (c.toNat + 4)
  else if c = '-' ∨ c = '+' then some 62
  else if c = '_' ∨ c = '/' then some 63
  else none

theorem value_sign :
    ∀ n < 64, value? (sign n) = some n := by
  decide

theorem sign_ne_pad : ∀ n < 64, sign n ≠ '=' := by
  decide

theorem sign_lt_128 : ∀ n < 64, (sign n).toNat < 128 := by
  decide

------------------------------------------------------------
-- Texts
------------------------------------------------------------

/- `base64.urlsafe_b64encode(value)` -/
def encode : List UInt8 → List Char
| a :: b :: c :: rest =>
    sign (a.toNat / 4) ::
    sign (a.toNat % 4 * 16 + b.toNat / 16) ::
    sign (b.toNat % 16 * 4 + c.toNat / 64) ::
    sign (c.toNat % 64) :: encode rest
| [a, b] =>
    [sign (a.toNat / 4),
      sign (a.toNat % 4 * 16 + b.toNat / 16),
      sign (b.toNat % 16 * 4), '=']
| [a] =>
    [sign (a.toNat / 4), sign (a.toNat % 4 * 16), '=', '=']
| [] => []

/- How many of four signs were read, and the bits left over. -/
inductive Quad where
| zero
| one (left : Nat)
| two (left : Nat)
| three (left : Nat)
deriving DecidableEq, Repr

/- How many more signs complete the four. -/
def Quad.missing : Quad → Nat
| .zero => 4
| .one _ => 3
| .two _ => 2
| .three _ => 1

/- What six bits add: the next state, and a byte if one ends. -/
def Quad.add (v : Nat) : Quad → Quad × List UInt8
| .zero => (.one v, [])
| .one left =>
    (.two (v % 16), [UInt8.ofNat (left * 4 + v / 16)])
| .two left =>
    (.three (v % 4), [UInt8.ofNat (left * 16 + v / 4)])
| .three left => (.zero, [UInt8.ofNat (left * 64 + v)])

/-
  `binascii.a2b_base64`, not strict: the bytes of a text, with
  the number of pads that were read since the last digit.
-/
def scan : Quad → Nat → List Char → Option (List UInt8)
| quad, _, [] => if quad = .zero then some [] else none
| quad, pads, c :: rest =>
    if c = '=' then
      if 2 < quad.missing then scan quad pads rest
      else if quad.missing ≤ pads + 1 then some []
      else scan quad (pads + 1) rest
    else
      match value? c with
      | none => scan quad pads rest
      | some v =>
          (scan (quad.add v).1 0 rest).map
            ((quad.add v).2 ++ ·)

/- `base64.urlsafe_b64decode(value)` of a text. -/
def decode (value : List Char) : Option (List UInt8) :=
  if value.all (fun c => c.toNat < 128) then
    scan .zero 0 value
  else none

/- The padding that completes the fours of a text. -/
def padding (value : List Char) : List Char :=
  List.replicate ((4 - value.length % 4) % 4) '='

------------------------------------------------------------
-- Round Trips
------------------------------------------------------------

theorem scan_sign
    {n : Nat}
    (hDigit : n < 64)
    (quad : Quad)
    (pads : Nat)
    (rest : List Char) :
    scan quad pads (sign n :: rest) =
      (scan (quad.add n).1 0 rest).map
        ((quad.add n).2 ++ ·) := by
  rw [scan, if_neg (sign_ne_pad n hDigit), value_sign n hDigit]

/- The bytes are put together from their pieces. -/
theorem byte_eq
    {b : UInt8}
    {n : Nat}
    (h : n = b.toNat) :
    UInt8.ofNat n = b := by
  rw [h]
  exact UInt8.ofNat_toNat

theorem scan_encode (bytes : List UInt8) (pads : Nat) :
    scan .zero pads (encode bytes) = some bytes := by
  induction bytes using encode.induct generalizing pads with
  | case1 a b c rest ih =>
      have ha := a.toNat_lt
      have hb := b.toNat_lt
      have hc := c.toNat_lt
      rw [encode, scan_sign (by omega), scan_sign (by omega),
        scan_sign (by omega), scan_sign (by omega)]
      simp only [Quad.add, ih, Option.map_some,
        List.nil_append, List.cons_append]
      rw [byte_eq (b := a) (by omega),
        byte_eq (b := b) (by omega),
        byte_eq (b := c) (by omega)]
  | case2 a b =>
      have ha := a.toNat_lt
      have hb := b.toNat_lt
      rw [encode, scan_sign (by omega), scan_sign (by omega),
        scan_sign (by omega)]
      simp only [Quad.add, scan, Quad.missing, List.nil_append,
        List.cons_append]
      rw [byte_eq (b := a) (by omega),
        byte_eq (b := b) (by omega)]
      rfl
  | case3 a =>
      have ha := a.toNat_lt
      rw [encode, scan_sign (by omega), scan_sign (by omega)]
      simp only [Quad.add, scan, Quad.missing, List.nil_append,
        List.cons_append]
      rw [byte_eq (b := a) (by omega)]
      rfl
  | case4 => rfl

/- Only signs of the alphabet are written, and pads. -/
theorem mem_encode
    {bytes : List UInt8}
    {c : Char}
    (hMem : c ∈ encode bytes) :
    c = '=' ∨ ∃ n < 64, c = sign n := by
  induction bytes using encode.induct with
  | case1 x y z rest ih =>
      have hx := x.toNat_lt
      have hy := y.toNat_lt
      have hz := z.toNat_lt
      simp only [encode, List.mem_cons] at hMem
      rcases hMem with rfl | rfl | rfl | rfl | hRest
      · exact Or.inr ⟨_, by omega, rfl⟩
      · exact Or.inr ⟨_, by omega, rfl⟩
      · exact Or.inr ⟨_, by omega, rfl⟩
      · exact Or.inr ⟨_, by omega, rfl⟩
      · exact ih hRest
  | case2 x y =>
      have hx := x.toNat_lt
      have hy := y.toNat_lt
      simp only [encode, List.mem_cons] at hMem
      rcases hMem with rfl | rfl | rfl | rfl | hNil
      · exact Or.inr ⟨_, by omega, rfl⟩
      · exact Or.inr ⟨_, by omega, rfl⟩
      · exact Or.inr ⟨_, by omega, rfl⟩
      · exact Or.inl rfl
      · cases hNil
  | case3 x =>
      have hx := x.toNat_lt
      simp only [encode, List.mem_cons] at hMem
      rcases hMem with rfl | rfl | rfl | rfl | hNil
      · exact Or.inr ⟨_, by omega, rfl⟩
      · exact Or.inr ⟨_, by omega, rfl⟩
      · exact Or.inl rfl
      · exact Or.inl rfl
      · cases hNil
  | case4 => cases hMem

/- What is written is read back. -/
theorem decode_encode (bytes : List UInt8) :
    decode (encode bytes) = some bytes := by
  have hAscii : (encode bytes).all
      (fun c => c.toNat < 128) = true := by
    refine List.all_eq_true.mpr fun c hc => ?_
    rcases mem_encode hc with rfl | ⟨n, hn, rfl⟩
    · rfl
    · exact decide_eq_true (sign_lt_128 n hn)
  rw [decode, if_pos hAscii, scan_encode]

/- A text ends in at most two pads, and has fours of signs. -/
theorem encode_parts (bytes : List UInt8) :
    ∃ body k, encode bytes = body ++ List.replicate k '=' ∧
      (∀ c ∈ body, c ≠ '=') ∧
      k < 4 ∧ (body.length + k) % 4 = 0 := by
  induction bytes using encode.induct with
  | case1 a b c rest ih =>
      rcases ih with ⟨body, k, hText, hBody, hk, hFours⟩
      have ha := a.toNat_lt
      have hb := b.toNat_lt
      have hc := c.toNat_lt
      refine ⟨sign (a.toNat / 4) ::
        sign (a.toNat % 4 * 16 + b.toNat / 16) ::
        sign (b.toNat % 16 * 4 + c.toNat / 64) ::
        sign (c.toNat % 64) :: body, k, ?_, ?_, hk, ?_⟩
      · rw [encode, hText]
        rfl
      · simp only [List.forall_mem_cons]
        exact ⟨sign_ne_pad _ (by omega),
          sign_ne_pad _ (by omega), sign_ne_pad _ (by omega),
          sign_ne_pad _ (by omega), hBody⟩
      · simp only [List.length_cons]
        omega
  | case2 a b =>
      have ha := a.toNat_lt
      have hb := b.toNat_lt
      refine ⟨[sign (a.toNat / 4),
        sign (a.toNat % 4 * 16 + b.toNat / 16),
        sign (b.toNat % 16 * 4)], 1, rfl, ?_, by omega, by simp⟩
      simp only [List.forall_mem_cons]
      exact ⟨sign_ne_pad _ (by omega),
        sign_ne_pad _ (by omega), sign_ne_pad _ (by omega),
        by simp⟩
  | case3 a =>
      have ha := a.toNat_lt
      refine ⟨[sign (a.toNat / 4), sign (a.toNat % 4 * 16)],
        2, rfl, ?_, by omega, by simp⟩
      simp only [List.forall_mem_cons]
      exact ⟨sign_ne_pad _ (by omega),
        sign_ne_pad _ (by omega), by simp⟩
  | case4 => exact ⟨[], 0, rfl, by simp, by omega, rfl⟩

/- The padding that is stripped is put back. -/
theorem rdropWhile_encode (bytes : List UInt8) :
    (encode bytes).rdropWhile (· == '=') ++
      padding ((encode bytes).rdropWhile (· == '=')) =
        encode bytes := by
  rcases encode_parts bytes with
    ⟨body, k, hText, hBody, hk, hFours⟩
  have hStrip : (encode bytes).rdropWhile (· == '=') = body := by
    rw [hText, List.rdropWhile, List.reverse_append,
      List.reverse_replicate, List.dropWhile_append_of_pos]
    · have hKeep : body.reverse.dropWhile (· == '=') =
          body.reverse := by
        cases hLast : body.reverse with
        | nil => rfl
        | cons c cs =>
            have hc := hBody c (List.mem_reverse.mp
              (hLast ▸ List.mem_cons_self))
            simp [hc]
      rw [hKeep, List.reverse_reverse]
    · intro c hc
      rw [List.eq_of_mem_replicate hc]
      rfl
  have hPads : (4 - body.length % 4) % 4 = k := by omega
  rw [hStrip, padding, hPads, hText]

/- What is no sign of the alphabet is not written. -/
theorem not_mem_encode
    {c : Char}
    (hPad : c ≠ '=')
    (hSign : ∀ n < 64, sign n ≠ c)
    (bytes : List UInt8) :
    c ∉ encode bytes := by
  intro hMem
  rcases mem_encode hMem with hEq | ⟨n, hn, hEq⟩
  · exact hPad hEq
  · exact hSign n hn hEq.symm

/- A text without its padding is read back when padded. -/
theorem decode_unpadded (bytes : List UInt8) :
    decode ((encode bytes).rdropWhile (· == '=') ++
      padding ((encode bytes).rdropWhile (· == '='))) =
        some bytes := by
  rw [rdropWhile_encode, decode_encode]

end Base64
