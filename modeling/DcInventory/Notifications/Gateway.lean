import DcInventory.Library.JsonSize

/-
  This file defines the body that the client of the Telegram
  gateway sends, and how the gateway reads it.

  Key definitions include:
    * `gatewayBody`
    * `readBodyLimited`

  Key theorems include:
    * `readBodyLimited_eq_ok_iff`
-/

------------------------------------------------------------
-- Bodies
------------------------------------------------------------

/- The body that `TelegramGatewayClient.send` builds. -/
def gatewayBody (payload : Json) : List UInt8 :=
  Utf8.encode payload.dumps

/- `MAX_BODY_BYTES` -/
def maxBodyBytes : Nat := 64 * 1024

/- What the gateway has read of a request. -/
structure LimitedBody where
  status : Nat
  text : Option (List Char)
deriving DecidableEq

/- A decoder drops a byte order mark. -/
def dropByteOrderMark : List Char → List Char
| '\uFEFF' :: text => text
| text => text

/- The loop over the chunks, with the bytes so far. -/
def readChunks
    (maxBytes : Nat) :
    Nat → List (List UInt8) → Option (List UInt8)
| _, [] => some []
| totalBytes, chunk :: chunks =>
    let totalBytes := totalBytes + chunk.length
    if maxBytes < totalBytes then none
    else (readChunks maxBytes totalBytes chunks).map
      (fun rest => chunk ++ rest)

def readBodyLimited
    (maxBytes : Nat)
    (contentLength : Option Nat)
    (body : Option (List (List UInt8))) : LimitedBody :=
  if contentLength.any (fun n => maxBytes < n) then
    ⟨413, none⟩
  else
    match body with
    | none => ⟨200, some []⟩
    | some chunks =>
        match readChunks maxBytes 0 chunks with
        | none => ⟨413, none⟩
        | some bytes =>
            match Utf8.decode bytes with
            | some text => ⟨200, some (dropByteOrderMark text)⟩
            | none => ⟨400, none⟩

------------------------------------------------------------
-- Reading
------------------------------------------------------------

/- The chunks are read until they are too many. -/
theorem readChunks_eq
    (maxBytes totalBytes : Nat)
    (chunks : List (List UInt8)) :
    readChunks maxBytes totalBytes chunks =
      if chunks = [] ∨
          totalBytes + chunks.flatten.length ≤ maxBytes then
        some chunks.flatten
      else none := by
  induction chunks generalizing totalBytes with
  | nil => rfl
  | cons chunk chunks ih =>
      unfold readChunks
      dsimp only
      rw [ih, List.flatten_cons, List.length_append]
      by_cases hFits : totalBytes +
          (chunk.length + chunks.flatten.length) ≤ maxBytes
      · rw [if_neg (by omega), if_pos (.inr (by omega)),
          if_pos (.inr hFits)]
        rfl
      · rw [if_neg (c := chunk :: chunks = [] ∨ _) (by
          simp only [reduceCtorEq, false_or]
          exact hFits)]
        by_cases hFirst : maxBytes < totalBytes + chunk.length
        · rw [if_pos hFirst]
        · rw [if_neg hFirst, if_neg]
          · rfl
          · rintro (rfl | hRest)
            · simp only [List.flatten_nil,
                List.length_nil] at hFits
              omega
            · omega

/- The text of a payload begins without a byte order mark. -/
theorem dropByteOrderMark_dumps
    {fields : JsonFields} :
    dropByteOrderMark (Json.obj fields).dumps =
      (Json.obj fields).dumps := by
  cases fields <;> rfl

/-
  However the body is divided into chunks, and whether or not
  its length is given, the gateway reads the payload exactly
  where the body is not too long.
-/
theorem readBodyLimited_eq_ok_iff
    (maxBytes : Nat)
    (fields : JsonFields)
    {contentLength : Option Nat}
    (hLength : ∀ n ∈ contentLength,
      n = (gatewayBody (.obj fields)).length)
    {chunks : List (List UInt8)}
    (hChunks : chunks.flatten = gatewayBody (.obj fields)) :
    readBodyLimited maxBytes contentLength (some chunks) =
        ⟨200, some (Json.obj fields).dumps⟩ ↔
      (gatewayBody (.obj fields)).length ≤ maxBytes := by
  have hSome : chunks ≠ [] := by
    rintro rfl
    have hLong := congrArg List.length hChunks
    have hOpen : ('\x7b' : Char).utf8Size = 1 := rfl
    cases fields <;>
      simp only [gatewayBody, Json.dumps,
        Utf8.length_encode_cons, hOpen, List.flatten_nil,
        List.length_nil] at hLong <;>
      omega
  unfold readBodyLimited
  by_cases hFits :
      (gatewayBody (.obj fields)).length ≤ maxBytes
  · have hAny : ¬ contentLength.any
        (fun n => maxBytes < n) = true := by
      cases contentLength with
      | none => simp
      | some n =>
          have hSame := hLength n rfl
          simp only [Option.any_some, decide_eq_true_eq]
          omega
    rw [if_neg hAny]
    dsimp only
    rw [readChunks_eq, if_pos (.inr (by
      rw [hChunks, Nat.zero_add]
      exact hFits)), hChunks]
    dsimp only [gatewayBody]
    rw [Utf8.decode_encode]
    dsimp only
    rw [dropByteOrderMark_dumps]
    exact iff_of_true rfl hFits
  · refine iff_of_false (fun hRead => ?_) hFits
    have hNone : readChunks maxBytes 0 chunks = none := by
      rw [readChunks_eq, if_neg]
      rintro (hNil | hRest)
      · exact hSome hNil
      · rw [hChunks] at hRest
        omega
    have hStatus := congrArg LimitedBody.status hRead
    dsimp only at hStatus
    rw [hNone] at hStatus
    by_cases hAny : contentLength.any
        (fun n => maxBytes < n) = true
    · rw [if_pos hAny] at hStatus
      cases hStatus
    · rw [if_neg hAny] at hStatus
      cases hStatus
