import DcInventory.Core.Datetime
import DcInventory.Core.Urls
import DcInventory.Library.Base64
import DcInventory.Library.Fallible
import DcInventory.Library.JsonRoundTrip
import DcInventory.Library.Signatures
import DcInventory.Library.Utf8

/-
  This file defines the cursors of the movement feed: signed
  texts that carry the state of a client that reads page by
  page. A cursor is accepted with the scope it was made for
  and within its time, and then carries what it was made of.

  Key definitions include:
    * `FeedCursor.encodeMovementFeedCursor`
    * `FeedCursor.decodeMovementFeedCursor`
    * `FeedCursor.Issued`

  Key theorems include:
    * `FeedCursor.readPayload_dumps`
    * `FeedCursor.decode_encoded`
    * `FeedCursor.cursors_are_authentic`
-/

namespace FeedCursor

------------------------------------------------------------
-- What Cursors Carry
------------------------------------------------------------

/-
  The digests of the runtime, its reader of dates, the limits
  of its JSON reader, and which texts of numbers with a point
  are equal to one.
-/
structure Env where
  hmac : List UInt8 → List UInt8 → List UInt8
  sha256 : List UInt8 → List UInt8
  iso : IsoReader
  limits : JsonReader.Limits
  floatIsOne : List Char → Bool
  hDepth : 0 < limits.depth

structure Settings where
  appEnv : Text
  telegramWebhookSecretValue : Option Text
deriving DecidableEq, Repr

/- Texts from outside are kept as code points. -/
structure MovementFeedCursorState where
  snapshotAt : Datetime
  databaseSnapshot : List Nat
  beforeJournalSeq : Option Int

/-
  `MovementFeedCursorError` with its text, or another error
  of the runtime.
-/
inductive Fault where
| cursor (message : Text)
| valueError (message : Text)
| runtimeError (message : Text)
| recursionError
deriving DecidableEq, Repr

def Fault.isCursor : Fault → Bool
| .cursor _ => true
| .valueError _ => false
| .runtimeError _ => false
| .recursionError => false

def cursorError (message : String) : Fault :=
  .cursor message.toList

def invalidCursor : Fault :=
  cursorError "invalid movement feed cursor"

def cursorVersion : Int := 1

def cursorTtlSeconds : Int := 3600

def clockSkewSeconds : Int := 60

def utf8 (text : String) : List UInt8 :=
  Utf8.encode text.toList

def nonproductionSecret : List UInt8 :=
  utf8 "dc-inventory-nonproduction-movement-feed-cursor-v1"

def keyDomain : List UInt8 :=
  utf8 "dc-inventory/movement-feed-cursor/key/v1"

def signatureDomain : List UInt8 :=
  utf8 "dc-inventory/movement-feed-cursor/token/v1" ++ [0]

def encodeBase64 (value : List UInt8) : Text :=
  (Base64.encode value).rdropWhile (· == '=')

def decodeBase64 (value : Text) : Except Fault (List UInt8) :=
  match Base64.decode (value ++ Base64.padding value) with
  | some bytes => .ok bytes
  | none => .error invalidCursor

section Codec

variable (E : Env)
variable (settings : Settings)

/- A scope has its keys in the order `sort_keys` gives. -/
def canonical (scope : Json) : List UInt8 :=
  Utf8.encode scope.dumps

def scopeDigest (scope : Json) : Text :=
  Hex.digest (E.sha256 (canonical scope))

def cursorKey : Except Fault (List UInt8) :=
  match settings.telegramWebhookSecretValue with
  | none =>
      if settings.appEnv = "production".toList then
        .error (.runtimeError (String.toList
          ("production movement feed cursor signing " ++
            "requires TELEGRAM_WEBHOOK_SECRET")))
      else .ok nonproductionSecret
  | some configured =>
      .ok (E.hmac (Utf8.encode configured) keyDomain)

/- Longer numbers are not turned into texts. -/
def printable (n : Int) : Bool :=
  (Nat.toDigits 10 n.natAbs).length ≤ E.limits.digits

def ofBefore : Option Int → Json
| none => .null
| some n => .int n

/- The fields are in the order `sort_keys` gives. -/
def payloadFields
    (snapshotAt : Datetime)
    (databaseSnapshot : Text)
    (beforeJournalSeq : Option Int)
    (scope : Json)
    (now : Int) : List (Text × Json) := [
  ("before".toList, ofBefore beforeJournalSeq),
  ("database_snapshot".toList, .str databaseSnapshot),
  ("iat".toList, .int now),
  ("scope".toList, .str (scopeDigest E scope)),
  ("snapshot_at".toList, .str snapshotAt.isoformat),
  ("v".toList, .int cursorVersion)]

/- The payload as it is signed. -/
def rawPayload
    (snapshotAt : Datetime)
    (databaseSnapshot : Text)
    (beforeJournalSeq : Option Int)
    (scope : Json)
    (now : Int) : List UInt8 :=
  Utf8.encode (Json.ofFields (payloadFields E snapshotAt
    databaseSnapshot beforeJournalSeq scope now)).dumps

/- A payload with its signature. -/
def signedToken (key raw : List UInt8) : Text :=
  encodeBase64 raw ++ '.' ::
    encodeBase64 (E.hmac key (signatureDomain ++ raw))

def integerTooLong : Fault :=
  .valueError (String.toList
    "Exceeds the limit for integer string conversion")

/- `now` is in whole seconds of the epoch. -/
def encodeMovementFeedCursor
    (snapshotAt : Datetime)
    (databaseSnapshot : Text)
    (beforeJournalSeq : Option Int)
    (scope : Json)
    (now : Int) : Except Fault Text :=
  if snapshotAt.offset = none then
    .error (.valueError
      "snapshot_at must be timezone-aware".toList)
  else if databaseSnapshot = [] ∨
      12000 < databaseSnapshot.length then
    .error (.valueError "invalid PostgreSQL snapshot".toList)
  else if beforeJournalSeq.any (· ≤ 0) then
    .error (.valueError
      "before_journal_seq must be positive".toList)
  else if printable E now = false ∨
      beforeJournalSeq.all (printable E) = false then
    .error integerTooLong
  else
    (cursorKey E settings).map (fun key =>
      signedToken E key (rawPayload E snapshotAt
        databaseSnapshot beforeJournalSeq scope now))

/- `payload.get(name)`, where nothing and null are the same. -/
def field
    (payload : List (List Nat × JsonValue))
    (name : String) : JsonValue :=
  ((Table.find Prod.fst (Json.codes name.toList) payload).map
    Prod.snd).getD .null

/- What is equal to one: a number, or truth. -/
def equalsOne : JsonValue → Bool
| .int n => decide (n = cursorVersion)
| .bool b => b
| .float text => E.floatIsOne text
| _ => false

/- `json.loads(raw)`, which has to be an object. -/
def jsonObject
    (raw : List UInt8) :
    Except Fault (List (List Nat × JsonValue)) :=
  match Utf8.decode raw with
  | none => .error invalidCursor
  | some text =>
      match JsonReader.loads E.limits text with
      | .ok (.obj fields) => .ok fields
      | .ok _ => .error invalidCursor
      | .error .malformed => .error invalidCursor
      | .error .digits => .error integerTooLong
      | .error .depth => .error .recursionError

def intField : JsonValue → Except Fault Int
| .int n => .ok n
| _ => .error invalidCursor

def snapshotField : JsonValue → Except Fault Datetime
| .str s =>
    match E.iso.read s with
    | none => .error invalidCursor
    | some d =>
        if d.offset = none then .error invalidCursor else .ok d
| _ => .error invalidCursor

def databaseField : JsonValue → Except Fault (List Nat)
| .str s =>
    if s = [] ∨ 12000 < s.length then .error invalidCursor
    else .ok s
| _ => .error invalidCursor

def beforeField : JsonValue → Except Fault (Option Int)
| .null => .ok none
| .int n => if n ≤ 0 then .error invalidCursor else .ok (some n)
| _ => .error invalidCursor

def isText : JsonValue → Text → Bool
| .str s, text => decide (s = Json.codes text)
| _, _ => false

/- What the other fields of a payload say. -/
def stateOf
    (payload : List (List Nat × JsonValue)) :
    Except Fault MovementFeedCursorState := do
  let snapshotAt ← snapshotField E (field payload "snapshot_at")
  let databaseSnapshot ←
    databaseField (field payload "database_snapshot")
  let before ← beforeField (field payload "before")
  .ok ⟨snapshotAt, databaseSnapshot, before⟩

/- Whether a cursor of some age is accepted. -/
def inTime (age : Int) : Bool :=
  -clockSkewSeconds ≤ age && age ≤ cursorTtlSeconds

/- What a payload carries that is signed. -/
def readPayload
    (raw : List UInt8)
    (scope : Json)
    (now : Int) : Except Fault MovementFeedCursorState := do
  let payload ← jsonObject E raw
  if equalsOne E (field payload "v") = false then
    .error (cursorError "unsupported movement feed cursor")
  else
    let issuedAt ← intField (field payload "iat")
    if inTime (now - issuedAt) = false then
      .error (cursorError "expired movement feed cursor")
    else if isText (field payload "scope")
        (scopeDigest E scope) = false then
      .error (cursorError
        "movement feed cursor does not match request")
    else stateOf E payload

/- The payload and the signature that a token presents. -/
def tokenParts
    (token : Text) :
    Except Fault (List UInt8 × List UInt8) :=
  if '.' ∈ token then do
    let raw ← decodeBase64 (Text.cut '.' token).1
    let signature ← decodeBase64 (Text.cut '.' token).2
    .ok (raw, signature)
  else .error invalidCursor

def decodeMovementFeedCursor
    (token : Text)
    (scope : Json)
    (now : Int) : Except Fault MovementFeedCursorState := do
  let parts ← tokenParts token
  let key ← cursorKey E settings
  if parts.2 ≠ E.hmac key (signatureDomain ++ parts.1) then
    .error invalidCursor
  else readPayload E parts.1 scope now

end Codec

------------------------------------------------------------
-- Payloads
------------------------------------------------------------

theorem codes_injective : Function.Injective Json.codes :=
  List.map_injective_iff.mpr fun _ _ h => Char.toNat_inj.mp h

section Results

variable {E : Env}
variable {settings : Settings}

/- What is handed to the encoder can be a cursor. -/
structure Encodable
    (E : Env)
    (snapshotAt : Datetime)
    (databaseSnapshot : Text)
    (beforeJournalSeq : Option Int)
    (now : Int) : Prop where
  aware : snapshotAt.offset ≠ none
  snapshot : databaseSnapshot ≠ [] ∧
    databaseSnapshot.length ≤ 12000
  positive : ∀ n ∈ beforeJournalSeq, 0 < n
  time : printable E now = true
  before : ∀ n ∈ beforeJournalSeq, printable E n = true

section Payload

variable {snapshotAt : Datetime}
variable {databaseSnapshot : Text}
variable {beforeJournalSeq : Option Int}
variable {scope : Json}
variable {issuedAt : Int}

/- The encoder makes a token of what it takes. -/
theorem encode_eq_ok_iff
    {key : List UInt8}
    (hKey : cursorKey E settings = .ok key)
    {token : Text} :
    encodeMovementFeedCursor E settings snapshotAt
        databaseSnapshot beforeJournalSeq scope issuedAt =
          .ok token ↔
      Encodable E snapshotAt databaseSnapshot beforeJournalSeq
          issuedAt ∧
        token = signedToken E key (rawPayload E snapshotAt
          databaseSnapshot beforeJournalSeq scope issuedAt) := by
  unfold encodeMovementFeedCursor
  rw [hKey]
  split_ifs with hAware hSnapshot hPositive hPrintable
  · exact iff_of_false (fun h => (nomatch h))
      (fun h => h.1.aware hAware)
  · refine iff_of_false (fun h => (nomatch h)) fun h => ?_
    rcases hSnapshot with hEmpty | hLong
    · exact h.1.snapshot.1 hEmpty
    · exact Nat.not_lt.mpr h.1.snapshot.2 hLong
  · refine iff_of_false (fun h => (nomatch h)) fun h => ?_
    cases beforeJournalSeq with
    | none => cases hPositive
    | some n =>
        exact Int.not_lt.mpr (of_decide_eq_true hPositive)
          (h.1.positive n rfl)
  · refine iff_of_false (fun h => (nomatch h)) fun h => ?_
    rcases hPrintable with hTime | hBefore
    · exact absurd h.1.time (ne_true_of_eq_false hTime)
    · cases beforeJournalSeq with
      | none => cases hBefore
      | some n =>
          exact absurd (h.1.before n rfl)
            (ne_true_of_eq_false hBefore)
  · have hEncodable : Encodable E snapshotAt databaseSnapshot
        beforeJournalSeq issuedAt := by
      rw [not_or, not_lt] at hSnapshot
      rw [not_or, Bool.not_eq_false, Bool.not_eq_false]
        at hPrintable
      refine ⟨hAware, hSnapshot, ?_, hPrintable.1, ?_⟩
      · rintro n ⟨⟩
        exact not_le.mp fun hLe =>
          hPositive (decide_eq_true hLe)
      · rintro n ⟨⟩
        exact hPrintable.2
    rw [Except.map, Except.ok.injEq]
    exact ⟨fun h => ⟨hEncodable, h.symm⟩, fun h => h.2.symm⟩

/- The fields of a payload that is read. -/
def payloadValues
    (E : Env)
    (snapshotAt : Datetime)
    (databaseSnapshot : Text)
    (beforeJournalSeq : Option Int)
    (scope : Json)
    (now : Int) : List (List Nat × JsonValue) :=
  Json.fieldValues [] (JsonFields.ofList (payloadFields E
    snapshotAt databaseSnapshot beforeJournalSeq scope now))

/- The text of a payload is read back. -/
theorem jsonObject_rawPayload
    (h : Encodable E snapshotAt databaseSnapshot
      beforeJournalSeq issuedAt) :
    jsonObject E (rawPayload E snapshotAt databaseSnapshot
        beforeJournalSeq scope issuedAt) =
      .ok (payloadValues E snapshotAt databaseSnapshot
        beforeJournalSeq scope issuedAt) := by
  have hTime := of_decide_eq_true h.time
  have hOne : 1 ≤ E.limits.digits :=
    le_trans Nat.length_toDigits_pos hTime
  have hBefore : ∀ depth, Json.Within E.limits.digits depth
      (ofBefore beforeJournalSeq) := by
    intro depth
    cases beforeJournalSeq with
    | none => simp [ofBefore, Json.Within]
    | some n =>
        simpa [ofBefore, Json.Within] using
          of_decide_eq_true (h.before n rfl)
  have hWithin : Json.Within E.limits.digits E.limits.depth
      (Json.ofFields (payloadFields E snapshotAt
        databaseSnapshot beforeJournalSeq scope issuedAt)) := by
    cases hDepth : E.limits.depth with
    | zero => exact absurd E.hDepth (by omega)
    | succ depth =>
        simp only [payloadFields, Json.ofFields,
          JsonFields.ofList, Json.Within, Json.FieldsWithin,
          and_true, true_and]
        exact ⟨hBefore depth, hTime, hOne⟩
  unfold jsonObject rawPayload
  rw [Utf8.decode_encode]
  simp only
  rw [JsonReader.loads_dumps hWithin]
  rfl

theorem stateOf_payloadValues
    (h : Encodable E snapshotAt databaseSnapshot
      beforeJournalSeq issuedAt) :
    stateOf E (payloadValues E snapshotAt databaseSnapshot
        beforeJournalSeq scope issuedAt) =
      .ok ⟨snapshotAt, Json.codes databaseSnapshot,
        beforeJournalSeq⟩ := by
  have hSnapshotAt : snapshotField E (.str (Json.codes
      snapshotAt.isoformat)) = .ok snapshotAt := by
    unfold snapshotField
    simp only
    rw [show E.iso.read (Json.codes snapshotAt.isoformat) =
      some snapshotAt from E.iso.reads snapshotAt]
    exact if_neg h.aware
  have hDatabase : databaseField (.str (Json.codes
      databaseSnapshot)) = .ok (Json.codes databaseSnapshot) := by
    unfold databaseField
    refine if_neg ?_
    rw [not_or, not_lt]
    unfold Json.codes
    rw [List.map_eq_nil_iff, List.length_map]
    exact h.snapshot
  have hBefore : beforeField (ofBefore beforeJournalSeq).value =
      .ok beforeJournalSeq := by
    cases beforeJournalSeq with
    | none => rfl
    | some n => exact if_neg (not_le.mpr (h.positive n rfl))
  change (do
    let snapshotAt ← snapshotField E (.str (Json.codes
      snapshotAt.isoformat))
    let databaseSnapshot ← databaseField (.str (Json.codes
      databaseSnapshot))
    let before ← beforeField (ofBefore beforeJournalSeq).value
    Except.ok (MovementFeedCursorState.mk snapshotAt
      databaseSnapshot before)) = _
  rw [hSnapshotAt, hDatabase, hBefore]
  rfl

/- A payload is accepted in its time and for its scope. -/
theorem readPayload_rawPayload
    (h : Encodable E snapshotAt databaseSnapshot
      beforeJournalSeq issuedAt)
    (scope' : Json)
    (now : Int) :
    readPayload E (rawPayload E snapshotAt databaseSnapshot
        beforeJournalSeq scope issuedAt) scope' now =
      if inTime (now - issuedAt) = false then
        .error (cursorError "expired movement feed cursor")
      else if scopeDigest E scope = scopeDigest E scope' then
        .ok ⟨snapshotAt, Json.codes databaseSnapshot,
          beforeJournalSeq⟩
      else
        .error (cursorError
          "movement feed cursor does not match request") := by
  have hScope : isText (.str (Json.codes (scopeDigest E scope)))
      (scopeDigest E scope') =
        decide (scopeDigest E scope = scopeDigest E scope') := by
    rw [isText, decide_eq_decide]
    exact codes_injective.eq_iff
  unfold readPayload
  rw [jsonObject_rawPayload h, Except.ok_bind]
  change (if inTime (now - issuedAt) = false then _
    else if isText (.str (Json.codes (scopeDigest E scope)))
      (scopeDigest E scope') = false then _
    else stateOf E (payloadValues E snapshotAt databaseSnapshot
      beforeJournalSeq scope issuedAt)) = _
  rw [stateOf_payloadValues h, hScope]
  by_cases hTime : inTime (now - issuedAt) = false
  · rw [if_pos hTime, if_pos hTime]
  · rw [if_neg hTime, if_neg hTime]
    by_cases hSame : scopeDigest E scope = scopeDigest E scope'
    · rw [if_pos hSame, if_neg (by simp [hSame])]
    · rw [if_neg hSame, if_pos (by simp [hSame])]

end Payload

------------------------------------------------------------
-- Tokens
------------------------------------------------------------

theorem dot_not_mem (bytes : List UInt8) :
    '.' ∉ encodeBase64 bytes := by
  intro hMem
  refine Base64.not_mem_encode (by decide) ?_ bytes
    ((List.rdropWhile_prefix _ _).subset hMem)
  decide

theorem decodeBase64_encodeBase64 (bytes : List UInt8) :
    decodeBase64 (encodeBase64 bytes) = .ok bytes := by
  unfold decodeBase64 encodeBase64
  rw [Base64.decode_unpadded]

theorem cut_append
    {c : Char}
    {v : Text}
    (hNot : c ∉ v)
    (w : Text) :
    Text.cut c (v ++ c :: w) = (v, w) := by
  have hAll : ∀ d ∈ v, decide (d ≠ c) = true := by
    intro d hd
    refine decide_eq_true ?_
    rintro rfl
    exact hNot hd
  unfold Text.cut
  rw [List.takeWhile_append_of_pos hAll,
    List.dropWhile_append_of_pos hAll]
  simp

/- A token presents what it was made of. -/
theorem tokenParts_signedToken (key raw : List UInt8) :
    tokenParts (signedToken E key raw) =
      .ok (raw, E.hmac key (signatureDomain ++ raw)) := by
  unfold tokenParts signedToken
  rw [if_pos (by simp), cut_append (dot_not_mem raw)]
  simp only [decodeBase64_encodeBase64, Except.ok_bind]

/- A token with the right signature shows its payload. -/
theorem decode_signedToken
    {key : List UInt8}
    (hKey : cursorKey E settings = .ok key)
    (raw : List UInt8)
    (scope : Json)
    (now : Int) :
    decodeMovementFeedCursor E settings
        (signedToken E key raw) scope now =
      readPayload E raw scope now := by
  unfold decodeMovementFeedCursor
  rw [tokenParts_signedToken, hKey, Except.ok_bind,
    Except.ok_bind, if_neg (not_not.mpr rfl)]

/- A text that presents nothing is no cursor. -/
theorem tokenParts_cases (token : Text) :
    tokenParts token = .error invalidCursor ∨
      ∃ raw tag, tokenParts token = .ok (raw, tag) := by
  have hBase : ∀ v, decodeBase64 v = .error invalidCursor ∨
      ∃ bytes, decodeBase64 v = .ok bytes := by
    intro v
    unfold decodeBase64
    cases Base64.decode (v ++ Base64.padding v) with
    | none => exact Or.inl rfl
    | some bytes => exact Or.inr ⟨bytes, rfl⟩
  unfold tokenParts
  split_ifs with hDot
  · rcases hBase (Text.cut '.' token).1 with
      hRaw | ⟨raw, hRaw⟩
    · exact Or.inl (by rw [hRaw]; rfl)
    · rcases hBase (Text.cut '.' token).2 with
        hTag | ⟨tag, hTag⟩
      · exact Or.inl (by rw [hRaw, hTag]; rfl)
      · exact Or.inr ⟨raw, tag, by rw [hRaw, hTag]; rfl⟩
  · exact Or.inl rfl

/- A token without one is refused. -/
theorem decode_cases
    {key : List UInt8}
    (hKey : cursorKey E settings = .ok key)
    (token : Text)
    (scope : Json)
    (now : Int) :
    decodeMovementFeedCursor E settings token scope now =
        .error invalidCursor ∨
      ∃ raw tag, tokenParts token = .ok (raw, tag) ∧
        E.hmac key (signatureDomain ++ raw) = tag ∧
        decodeMovementFeedCursor E settings token scope now =
          readPayload E raw scope now := by
  unfold decodeMovementFeedCursor
  rcases tokenParts_cases token with
    hParts | ⟨raw, tag, hParts⟩
  · left
    rw [hParts]
    rfl
  · rw [hParts, Except.ok_bind, hKey, Except.ok_bind]
    by_cases hTag : tag = E.hmac key (signatureDomain ++ raw)
    · right
      rw [if_neg (not_not.mpr hTag)]
      exact ⟨raw, tag, rfl, hTag.symm, rfl⟩
    · left
      rw [if_pos hTag]

------------------------------------------------------------
-- Cursors That Were Issued
------------------------------------------------------------

/- A call of the encoder, with the token it returned. -/
structure Issued where
  snapshotAt : Datetime
  databaseSnapshot : Text
  beforeJournalSeq : Option Int
  scope : Json
  issuedAt : Int
  token : Text

namespace Issued

def Encoded
    (E : Env) (settings : Settings) (c : Issued) : Prop :=
  encodeMovementFeedCursor E settings c.snapshotAt
    c.databaseSnapshot c.beforeJournalSeq c.scope c.issuedAt =
      .ok c.token

def raw (E : Env) (c : Issued) : List UInt8 :=
  rawPayload E c.snapshotAt c.databaseSnapshot
    c.beforeJournalSeq c.scope c.issuedAt

/- What was signed for a cursor. -/
def message (E : Env) (c : Issued) : List UInt8 :=
  signatureDomain ++ c.raw E

def state (c : Issued) : MovementFeedCursorState :=
  ⟨c.snapshotAt, Json.codes c.databaseSnapshot,
    c.beforeJournalSeq⟩

end Issued

section Calls

variable {key : List UInt8}
variable (hKey : cursorKey E settings = .ok key)
include hKey

theorem Issued.Encoded.encodable
    {c : Issued}
    (hEncoded : c.Encoded E settings) :
    Encodable E c.snapshotAt c.databaseSnapshot
        c.beforeJournalSeq c.issuedAt ∧
      c.token = signedToken E key (c.raw E) :=
  (encode_eq_ok_iff hKey).mp hEncoded

/- What the decoder makes of a payload that was signed. -/
theorem readPayload_issued
    {c : Issued}
    (hEncoded : c.Encoded E settings)
    (scope : Json)
    (now : Int) :
    readPayload E (c.raw E) scope now =
      if inTime (now - c.issuedAt) = false then
        .error (cursorError "expired movement feed cursor")
      else if scopeDigest E c.scope = scopeDigest E scope then
        .ok c.state
      else
        .error (cursorError
          "movement feed cursor does not match request") :=
  readPayload_rawPayload
    (hEncoded.encodable hKey).1 scope now

end Calls

/- Nothing is encoded without a key. -/
theorem Issued.Encoded.exists_key
    {c : Issued}
    (hEncoded : c.Encoded E settings) :
    ∃ key, cursorKey E settings = .ok key := by
  cases hKey : cursorKey E settings with
  | ok key => exact ⟨key, rfl⟩
  | error fault =>
      unfold Issued.Encoded encodeMovementFeedCursor at hEncoded
      rw [hKey] at hEncoded
      split_ifs at hEncoded
      cases hEncoded

/- A cursor is read back in its time, for its scope. -/
theorem decode_encoded
    {c : Issued}
    (hEncoded : c.Encoded E settings)
    (now : Int) :
    decodeMovementFeedCursor E settings c.token c.scope now =
      if inTime (now - c.issuedAt) = false then
        .error (cursorError "expired movement feed cursor")
      else .ok c.state := by
  rcases hEncoded.exists_key with ⟨key, hKey⟩
  rw [(hEncoded.encodable hKey).2, decode_signedToken hKey,
    readPayload_issued hKey hEncoded, if_pos rfl]

/- Without collisions a digest stands for one scope. -/
theorem scope_eq
    {messages : List (List UInt8)}
    (hFree : CollisionFree E.sha256 messages)
    {scope scope' : Json}
    (hMem : canonical scope ∈ messages)
    (hMem' : canonical scope' ∈ messages)
    (hDigest : scopeDigest E scope = scopeDigest E scope') :
    scope = scope' :=
  Json.dumps_injective (Utf8.encode_injective
    (hFree _ hMem _ hMem' (Hex.digest_injective hDigest)))

/-
  The cursors that were issued under a key are accepted in
  their time and for their scope, and say what they were made
  of. Whatever else is presented, if it is accepted, says what
  one of them says, for the same scope and in its time; and
  all the rest is refused with the error of cursors.
-/
theorem cursors_are_authentic
    {key : List UInt8}
    (hKey : cursorKey E settings = .ok key)
    {issued : List Issued}
    (hIssued : ∀ c ∈ issued, c.Encoded E settings)
    {token : Text}
    {scope : Json}
    (hUnforged : ∀ raw tag, tokenParts token = .ok (raw, tag) →
      Unforged E.hmac key (issued.map (Issued.message E))
        (signatureDomain ++ raw) tag)
    (hFree : CollisionFree E.sha256 (canonical scope ::
      issued.map (fun c => canonical c.scope)))
    (now : Int) :
    (∀ c ∈ issued, c.scope = scope →
      inTime (now - c.issuedAt) = true →
      decodeMovementFeedCursor E settings c.token scope now =
        .ok c.state) ∧
    ((∃ fault, fault.isCursor = true ∧
        decodeMovementFeedCursor E settings token scope now =
          .error fault) ∨
      ∃ c ∈ issued, c.scope = scope ∧
        inTime (now - c.issuedAt) = true ∧
        decodeMovementFeedCursor E settings token scope now =
          .ok c.state) := by
  refine ⟨?_, ?_⟩
  · rintro c hMem rfl hTime
    rw [decode_encoded (hIssued c hMem), if_neg (by simp [hTime])]
  · rcases decode_cases hKey token scope now with
      hRefused | ⟨raw, tag, hParts, hTag, hRead⟩
    · exact Or.inl ⟨_, rfl, hRefused⟩
    · have hSigned := hUnforged raw tag hParts hTag
      rcases List.mem_map.mp hSigned with ⟨c, hMem, hMessage⟩
      have hRaw : c.raw E = raw :=
        List.append_cancel_left hMessage
      rw [hRead, ← hRaw,
        readPayload_issued hKey (hIssued c hMem)]
      split_ifs with hExpired hDigest
      · exact Or.inl ⟨_, rfl, rfl⟩
      · refine Or.inr ⟨c, hMem, ?_, ?_, rfl⟩
        · exact scope_eq hFree (List.mem_cons_of_mem _
            (List.mem_map.mpr ⟨c, hMem, rfl⟩))
            List.mem_cons_self hDigest
        · exact Bool.of_not_eq_false hExpired
      · exact Or.inl ⟨_, rfl, rfl⟩

end Results

namespace FirstFeed

def env : Env where
  hmac := fun key message => key ++ message
  sha256 := id
  iso := IsoReader.complete
  limits := ⟨4300, 1000⟩
  floatIsOne := fun text => text = "1.0".toList
  hDepth := by decide

def settings : Settings := ⟨"test".toList, none⟩

theorem cursorKey_settings :
    cursorKey env settings = .ok nonproductionSecret :=
  rfl

def moment : Datetime :=
  ⟨2026, 5, 31, 12, 30, 0, 250000, some 0, by decide⟩

/- A cursor for the pages behind the seventh movement. -/
def cursor : Issued where
  snapshotAt := moment
  databaseSnapshot := "12:15:13".toList
  beforeJournalSeq := some 7
  scope := Json.ofFields [("limit".toList, .int 50)]
  issuedAt := 1780230600
  token := signedToken env nonproductionSecret
    (rawPayload env moment "12:15:13".toList (some 7)
      (Json.ofFields [("limit".toList, .int 50)]) 1780230600)

theorem cursor_encoded : cursor.Encoded env settings := by
  refine (encode_eq_ok_iff cursorKey_settings).mpr
    ⟨⟨?_, ?_, ?_, ?_, ?_⟩, rfl⟩
  · decide
  · decide
  · rintro n ⟨⟩
    decide
  · decide
  · rintro n ⟨⟩
    decide

theorem cursors_are_authentic_first :
    decodeMovementFeedCursor env settings cursor.token
      cursor.scope 1780231000 = .ok cursor.state := by
  have hIssued : ∀ c ∈ [cursor], c.Encoded env settings := by
    simpa using cursor_encoded
  have hFree : CollisionFree env.sha256 (canonical cursor.scope ::
      [cursor].map (fun c => canonical c.scope)) :=
    fun _ _ _ _ h => h
  have hUnforged : ∀ raw tag,
      tokenParts cursor.token = .ok (raw, tag) →
        Unforged env.hmac nonproductionSecret
          ([cursor].map (Issued.message env))
          (signatureDomain ++ raw) tag := by
    intro raw tag hParts _
    have hOwn := tokenParts_signedToken (E := env)
      nonproductionSecret (cursor.raw env)
    cases hParts.symm.trans hOwn
    exact List.mem_singleton.mpr rfl
  have hAuthentic := cursors_are_authentic cursorKey_settings
    hIssued hUnforged hFree 1780231000
  exact hAuthentic.1 cursor List.mem_cons_self rfl (by decide)

end FirstFeed

end FeedCursor
