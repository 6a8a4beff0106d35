import DcInventory.Library.Hex
import DcInventory.Library.Utf8
import DcInventory.Library.Words
import Mathlib.Data.List.TakeDrop

/-
  This file defines how names with values are written into
  the query of an address, and proves that they are read
  back as they were.

  Key definitions include:
    * `UrlEncoded.serialize`
    * `UrlEncoded.parse`

  Key theorems include:
    * `UrlEncoded.parse_serialize`
-/

namespace UrlEncoded

------------------------------------------------------------
-- Writing
------------------------------------------------------------

/- Bytes that stand for themselves. -/
def isPlain (b : UInt8) : Bool :=
  (48 ≤ b && b ≤ 57) || (65 ≤ b && b ≤ 90) ||
    (97 ≤ b && b ≤ 122) || b == 42 || b == 45 || b == 46 ||
    b == 95

def encodeByte (b : UInt8) : List Char :=
  if b = 32 then ['+']
  else if isPlain b then [Char.ofNat b.toNat]
  else ['%', Hex.upper (b.toNat / 16), Hex.upper (b.toNat % 16)]

def encode (v : List Char) : List Char :=
  (Utf8.encode v).flatMap encodeByte

def encodePair (p : List Char × List Char) : List Char :=
  encode p.1 ++ '=' :: encode p.2

def serialize
    (params : List (List Char × List Char)) : List Char :=
  Words.join '&' (params.map encodePair)

------------------------------------------------------------
-- Reading
------------------------------------------------------------

/- The bytes that a part of a query stands for. -/
def decodeBytes : List Char → List UInt8
| [] => []
| '+' :: cs => 32 :: decodeBytes cs
| '%' :: h :: l :: cs =>
    match Hex.value? h, Hex.value? l with
    | some m, some n =>
        UInt8.ofNat (16 * m + n) :: decodeBytes cs
    | _, _ => 37 :: decodeBytes (h :: l :: cs)
| c :: cs => String.utf8EncodeChar c ++ decodeBytes cs

/- Bytes that are no text are not read. -/
def decode (v : List Char) : Option (List Char) :=
  Utf8.decode (decodeBytes v)

def parsePair
    (part : List Char) : Option (List Char × List Char) :=
  match part.span (· ≠ '=') with
  | (name, rest) => do
      let name ← decode name
      let value ← decode (rest.drop 1)
      some (name, value)

def parse (v : List Char) :
    Option (List (List Char × List Char)) :=
  (Words.split (· == '&') v).mapM parsePair

------------------------------------------------------------
-- Round Trip
------------------------------------------------------------

/- A plain byte is a sign of its own. -/
theorem plain_sign :
    ∀ n < 256, isPlain (UInt8.ofNat n) = true →
      Char.ofNat n ≠ '+' ∧ Char.ofNat n ≠ '%' ∧
        String.utf8EncodeChar (Char.ofNat n) =
          [UInt8.ofNat n] := by
  decide +kernel

/- No separator is written for a byte. -/
theorem encodeByte_solid :
    ∀ n < 256, (encodeByte (UInt8.ofNat n)).all (fun c =>
      c != '&' && c != '=') = true := by
  decide +kernel

theorem decodeBytes_plain
    {c : Char}
    (hPlus : c ≠ '+')
    (hPercent : c ≠ '%')
    (cs : List Char) :
    decodeBytes (c :: cs) =
      String.utf8EncodeChar c ++ decodeBytes cs := by
  rw [decodeBytes.eq_def]
  split
  · rename_i hNil
    cases hNil
  · rename_i hCons
    cases hCons
    exact absurd rfl hPlus
  · rename_i hCons
    cases hCons
    exact absurd rfl hPercent
  · rename_i hCons
    cases hCons
    rfl

theorem decodeBytes_encodeByte
    (b : UInt8)
    (rest : List Char) :
    decodeBytes (encodeByte b ++ rest) =
      b :: decodeBytes rest := by
  have hSize : b.toNat < 256 := b.toNat_lt
  unfold encodeByte
  split
  · rename_i hSpace
    subst hSpace
    rfl
  · split
    · rename_i hPlain
      have hSign := plain_sign b.toNat hSize
      rw [UInt8.ofNat_toNat] at hSign
      rcases hSign hPlain with ⟨hPlus, hPercent, hByte⟩
      rw [List.singleton_append,
        decodeBytes_plain hPlus hPercent, hByte]
      rfl
    · have hHigh := Hex.value_upper (b.toNat / 16) (by omega)
      have hLow := Hex.value_upper (b.toNat % 16) (by omega)
      have hByte : 16 * (b.toNat / 16) + b.toNat % 16 =
          b.toNat := Nat.div_add_mod b.toNat 16
      simp only [List.cons_append, List.nil_append, decodeBytes,
        hHigh, hLow, hByte, UInt8.ofNat_toNat]

theorem decodeBytes_flatMap (bs : List UInt8) :
    decodeBytes (bs.flatMap encodeByte) = bs := by
  induction bs with
  | nil => rfl
  | cons b bs ih =>
      rw [List.flatMap_cons, decodeBytes_encodeByte, ih]

theorem decode_encode (v : List Char) :
    decode (encode v) = some v := by
  unfold decode encode
  rw [decodeBytes_flatMap, Utf8.decode_encode]

theorem encode_solid
    {v : List Char}
    {c : Char}
    (h : c ∈ encode v) :
    c ≠ '&' ∧ c ≠ '=' := by
  rcases List.mem_flatMap.mp h with ⟨b, _, hMem⟩
  have hByte := encodeByte_solid b.toNat b.toNat_lt
  rw [UInt8.ofNat_toNat] at hByte
  simpa using List.all_eq_true.mp hByte c hMem

theorem parsePair_encodePair (p : List Char × List Char) :
    parsePair (encodePair p) = some p := by
  have hSpan : (encodePair p).span (· ≠ '=') =
      (encode p.1, '=' :: encode p.2) := by
    unfold encodePair
    rw [List.span_eq_takeWhile_dropWhile,
      List.takeWhile_append_of_pos, List.dropWhile_append_of_pos]
    · simp
    · intro c hc
      simpa using (encode_solid hc).2
    · intro c hc
      simpa using (encode_solid hc).2
  unfold parsePair
  rw [hSpan]
  simp [decode_encode]

theorem isWord_encodePair (p : List Char × List Char) :
    Words.IsWord (· == '&') (encodePair p) where
  nonempty := by simp [encodePair]
  solid := by
    intro c hc
    rw [beq_eq_false_iff_ne]
    rcases List.mem_append.mp hc with hName | hValue
    · exact (encode_solid hName).1
    · rcases List.mem_cons.mp hValue with rfl | hValue
      · decide
      · exact (encode_solid hValue).1

theorem parse_serialize
    (params : List (List Char × List Char)) :
    parse (serialize params) = some params := by
  unfold parse serialize
  rw [Words.split_join]
  · induction params with
    | nil => rfl
    | cons p ps ih =>
        rw [List.map_cons, List.mapM_cons,
          parsePair_encodePair, ih]
        rfl
  · decide
  · intro w hw
    rcases List.mem_map.mp hw with ⟨p, _, rfl⟩
    exact isWord_encodePair p

end UrlEncoded
