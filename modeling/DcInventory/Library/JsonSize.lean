import DcInventory.Library.Json
import DcInventory.Library.Utf8

/-
  This file bounds the number of bytes of JSON texts.

  Key definitions include:
    * `Json.sizeBound`

  Key theorems include:
    * `Utf8.length_encode_le`
    * `Json.length_encode_dumps_le`
-/

------------------------------------------------------------
-- Texts
------------------------------------------------------------

namespace Utf8

@[simp]
theorem encode_nil : encode [] = [] :=
  rfl

theorem length_encode_cons
    (c : Char)
    (v : List Char) :
    (encode (c :: v)).length =
      c.utf8Size + (encode v).length := by
  unfold encode
  rw [List.flatMap_cons, List.length_append,
    String.length_utf8EncodeChar]

theorem length_encode_append (v w : List Char) :
    (encode (v ++ w)).length =
      (encode v).length + (encode w).length := by
  rw [encode_append, List.length_append]

/- A character takes four bytes at most. -/
theorem length_encode_le (v : List Char) :
    (encode v).length ≤ 4 * v.length := by
  induction v with
  | nil => exact Nat.le_refl 0
  | cons c v ih =>
      have hChar := c.utf8Size_le_four
      rw [length_encode_cons, List.length_cons]
      omega

end Utf8

------------------------------------------------------------
-- Values
------------------------------------------------------------

namespace Json

open Utf8 (encode length_encode_cons length_encode_append
  length_encode_le)

/- A bound on the bytes of a string. -/
def strBound (s : List Char) : Nat :=
  6 * s.length + 2

mutual

/- A bound on the bytes of the text of a value. -/
def sizeBound : Json → Nat
| .null => 4
| .bool _ => 5
| .int n => 4 * (dumpInt n).length
| .str s => strBound s
| .arr items => 2 + itemsBound items
| .obj fields => 2 + fieldsBound fields

def itemsBound : JsonItems → Nat
| .nil => 0
| .cons j js => 1 + sizeBound j + itemsBound js

def fieldsBound : JsonFields → Nat
| .nil => 0
| .cons k v fs =>
    2 + strBound k + sizeBound v + fieldsBound fs

end

/- An escaped character takes six bytes at most. -/
theorem length_encode_escape_le (c : Char) :
    (encode (escape c)).length ≤ 6 := by
  have hHex : ∀ n < 16, (Nat.digitChar n).utf8Size = 1 := by
    decide
  unfold escape
  split_ifs
  · decide
  · decide
  · decide
  · decide
  · decide
  · decide
  · decide
  · have hHigh := hHex (c.toNat / 16) (by omega)
    have hLow := hHex (c.toNat % 16) (by omega)
    simp only [length_encode_cons, hHigh, hLow,
      Utf8.encode_nil]
    decide
  · have hChar := c.utf8Size_le_four
    rw [length_encode_cons, Utf8.encode_nil]
    simp only [List.length_nil]
    omega

theorem length_encode_dumpStr_le (s : List Char) :
    (encode (dumpStr s)).length ≤ strBound s := by
  have hChars : (encode (dumpChars s)).length ≤
      6 * s.length + 1 := by
    induction s with
    | nil => decide
    | cons c s ih =>
        have hEscape := length_encode_escape_le c
        unfold dumpChars
        rw [length_encode_append, List.length_cons]
        omega
  have hQuote : ('"' : Char).utf8Size = 1 := rfl
  unfold dumpStr strBound
  rw [length_encode_cons, hQuote]
  omega

mutual

/- The text of a value has no more bytes than its bound. -/
theorem length_encode_dumps_le :
    ∀ j : Json, (encode (dumps j)).length ≤ sizeBound j
| .null => by decide
| .bool true => by decide
| .bool false => by decide
| .int n => length_encode_le _
| .str s => length_encode_dumpStr_le s
| .arr .nil => by decide
| .arr (.cons j js) => by
    have hItem := length_encode_dumps_le j
    have hRest := length_encode_dumpItems_le js
    have hOpen : ('[' : Char).utf8Size = 1 := rfl
    simp only [dumps, length_encode_cons, length_encode_append,
      hOpen, sizeBound, itemsBound]
    omega
| .obj .nil => by decide
| .obj (.cons k v fs) => by
    have hKey := length_encode_dumpStr_le k
    have hValue := length_encode_dumps_le v
    have hRest := length_encode_dumpFields_le fs
    have hOpen : ('\x7b' : Char).utf8Size = 1 := rfl
    have hColon : (':' : Char).utf8Size = 1 := rfl
    simp only [dumps, length_encode_cons, length_encode_append,
      hOpen, hColon, sizeBound, fieldsBound]
    omega

theorem length_encode_dumpItems_le :
    ∀ js : JsonItems,
      (encode (dumpItems js)).length ≤ itemsBound js + 1
| .nil => by decide
| .cons j js => by
    have hItem := length_encode_dumps_le j
    have hRest := length_encode_dumpItems_le js
    have hComma : (',' : Char).utf8Size = 1 := rfl
    simp only [dumpItems, length_encode_cons,
      length_encode_append, hComma, itemsBound]
    omega

theorem length_encode_dumpFields_le :
    ∀ fs : JsonFields,
      (encode (dumpFields fs)).length ≤ fieldsBound fs + 1
| .nil => by decide
| .cons k v fs => by
    have hKey := length_encode_dumpStr_le k
    have hValue := length_encode_dumps_le v
    have hRest := length_encode_dumpFields_le fs
    have hComma : (',' : Char).utf8Size = 1 := rfl
    have hColon : (':' : Char).utf8Size = 1 := rfl
    simp only [dumpFields, length_encode_cons,
      length_encode_append, hComma, hColon, fieldsBound]
    omega

end

/- The text of a number below a power of ten. -/
theorem length_dumpInt_le
    {n : Int}
    {k : Nat}
    (hDigits : 0 < k)
    (h : n.natAbs < 10 ^ k) :
    (dumpInt n).length ≤ k + 1 := by
  cases n with
  | ofNat n =>
      have hLength := (Nat.length_toDigits_le_iff (b := 10)
        (by decide) hDigits).mpr h
      exact Nat.le_succ_of_le hLength
  | negSucc n =>
      have hLength := (Nat.length_toDigits_le_iff (b := 10)
        (by decide) hDigits).mpr h
      exact Nat.succ_le_succ hLength

end Json
