import Mathlib.Data.List.Basic

/-
  This file defines UTF-8 on lists of bytes, by the encoding
  and the strict decoding of the core library.

  Key definitions include:
    * `Utf8.encode`
    * `Utf8.decode`

  Key theorems include:
    * `Utf8.decode_encode`
    * `Utf8.encode_of_decode`
-/

namespace Utf8

def encode (v : List Char) : List UInt8 :=
  v.flatMap String.utf8EncodeChar

/- The text that is encoded so, if there is one. -/
def decode (b : List UInt8) : Option (List Char) :=
  b.toByteArray.utf8Decode?.map Array.toList

theorem encode_append (v w : List Char) :
    encode (v ++ w) = encode v ++ encode w :=
  List.flatMap_append

@[simp]
theorem decode_encode (v : List Char) :
    decode (encode v) = some v := by
  have hSame : (encode v).toByteArray = v.utf8Encode := rfl
  unfold decode
  rw [hSame, List.utf8Decode?_utf8Encode]
  simp

/- Nothing else is decoded to a text than its encoding. -/
theorem encode_of_decode
    {b : List UInt8}
    {v : List Char}
    (h : decode b = some v) :
    encode v = b := by
  unfold decode at h
  rcases Option.map_eq_some_iff.mp h with ⟨chars, hChars, rfl⟩
  have hSome : b.toByteArray.utf8Decode?.isSome := by
    rw [hChars]
    rfl
  have hBack := @ByteArray.utf8Encode_get_utf8Decode?
    b.toByteArray hSome
  have hGet : b.toByteArray.utf8Decode?.get hSome = chars := by
    simp [hChars]
  rw [hGet] at hBack
  have hData := congrArg ByteArray.data hBack
  simpa [encode, List.utf8Encode] using hData

theorem encode_injective : Function.Injective encode := by
  intro v w h
  have hDecode := congrArg decode h
  rw [decode_encode, decode_encode] at hDecode
  exact Option.some.inj hDecode

end Utf8
