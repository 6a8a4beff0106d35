import DcInventory.Core.Numbers
import DcInventory.Core.Unicode
import DcInventory.Library.JsonReader
import DcInventory.Library.QueryString
import DcInventory.Library.Signatures
import Mathlib.Data.List.Sort

/-
  This file defines how the data of a login in Telegram is
  checked: the query string, its signature, its age and the
  user in it.

  Key definitions include:
    * `InitData.Env`
    * `InitData.dataCheckString`
    * `InitData.validateTelegramInitData`
    * `InitData.SignedFields`
-/

namespace InitData

------------------------------------------------------------
-- Values
------------------------------------------------------------

structure TelegramWebAppUser where
  id : Int
  firstName : Text
  lastName : Option Text
  username : Option Text
  languageCode : Option Text
  isBot : Bool
deriving DecidableEq, Repr

/- `authDate` is in seconds of the epoch. -/
structure ValidatedTelegramInitData where
  user : TelegramWebAppUser
  authDate : Int
  queryId : Option Text
deriving DecidableEq, Repr

/-
  What the runtime provides: its tables, the keyed digest,
  the limits of its JSON reader, and the check of the user's
  model, which says nothing but yes or no.
-/
structure Env where
  unicode : Unicode
  hmac : List UInt8 → List UInt8 → List UInt8
  limits : JsonReader.Limits
  modelValidate : JsonValue → Option TelegramWebAppUser

/-
  `TelegramInitDataError` with its text, or one of the errors
  of the JSON reader that are no decoding errors.
-/
inductive Failure where
| initData (message : Text)
| valueError
| recursionError
deriving DecidableEq, Repr

def Failure.isInitData : Failure → Bool
| .initData _ => true
| .valueError => false
| .recursionError => false

def initDataError (message : String) : Failure :=
  .initData message.toList

abbrev Fields := List (Text × Text)

/- `fields.get(key)` -/
def Fields.get (fields : Fields) (key : Text) : Option Text :=
  (Table.find Prod.fst key fields).map Prod.snd

def hashName : Text := "hash".toList

def authDateName : Text := "auth_date".toList

def userName : Text := "user".toList

def queryIdName : Text := "query_id".toList

def maxInitDataLength : Nat := 16384

def maxInitDataFields : Nat := 100

def maxFutureSkewSeconds : Int := 30

------------------------------------------------------------
-- Fields
------------------------------------------------------------

/- No name is empty or comes twice. -/
def collectFields : Fields → Fields → Option Fields
| fields, [] => some fields
| fields, (key, value) :: rest =>
    if key = [] ∨ (fields.get key).isSome then none
    else collectFields (fields ++ [(key, value)]) rest

def parseUniqueFields
    (initData : Text) : Except Failure Fields :=
  if initData = [] ∨ maxInitDataLength < initData.length then
    .error (initDataError "invalid initData length")
  else
    match QueryString.parseQsl maxInitDataFields initData with
    | none => .error (initDataError "malformed initData")
    | some pairs =>
        match collectFields [] pairs with
        | none =>
            .error (initDataError
              "duplicate or empty initData field")
        | some fields => .ok fields

/- `f"{key}={value}"` -/
def line (field : Text × Text) : Text :=
  field.1 ++ '=' :: field.2

/- The lines in the order of the names, the hash left out. -/
def checkedLines (fields : Fields) : List Text :=
  ((fields.insertionSort (fun f g =>
    Text.le f.1 g.1 = true)).filter
      (fun f => f.1 ≠ hashName)).map line

def dataCheckString (fields : Fields) : Text :=
  Words.join '\n' (checkedLines fields)

section Checks

variable (env : Env)

def secretKey (botToken : Text) : List UInt8 :=
  env.hmac (Utf8.encode "WebAppData".toList)
    (Utf8.encode botToken)

def expectedHash (fields : Fields) (botToken : Text) : Text :=
  Hex.digest (env.hmac (secretKey env botToken)
    (Utf8.encode (dataCheckString fields)))

/- `^[0-9a-fA-F]{64}$` -/
def isHash (value : Text) : Bool :=
  value.length == 64 &&
    value.all (fun c => (Hex.value? c).isSome)

/- The fields, if they are signed with the token. -/
def verifiedFields
    (botToken initData : Text) : Except Failure Fields := do
  if botToken = [] then
    .error (initDataError "bot token is not configured")
  else
    let fields ← parseUniqueFields initData
    match fields.get hashName with
    | none => .error (initDataError "invalid initData hash")
    | some provided =>
        if isHash provided = false then
          .error (initDataError "invalid initData hash")
        else if expectedHash env fields botToken ≠
            provided.map Char.toLower then
          .error (initDataError "invalid initData signature")
        else .ok fields

/- The seconds that a date can stand for. -/
def minTimestamp : Int := -62135596800

def maxTimestamp : Int := 253402300799

/- `now` is in microseconds. -/
def freshAuthDate
    (maxAgeSeconds now : Int)
    (fields : Fields) : Except Failure Int :=
  match fields.get authDateName with
  | none => .error (initDataError "auth_date is missing")
  | some raw =>
      match env.unicode.readInt raw with
      | none => .error (initDataError "invalid auth_date")
      | some timestamp =>
          let age := now - 1000000 * timestamp
          if timestamp < minTimestamp ∨
              maxTimestamp < timestamp then
            .error (initDataError "invalid auth_date")
          else if age < -(1000000 * maxFutureSkewSeconds) then
            .error (initDataError "auth_date is in the future")
          else if 1000000 * maxAgeSeconds < age then
            .error (initDataError "initData is expired")
          else .ok timestamp

/- Only decoding errors are turned into the own error. -/
def userFailure : JsonReader.Failure → Failure
| .malformed => initDataError "invalid Telegram user"
| .digits => .valueError
| .depth => .recursionError

def telegramUser
    (fields : Fields) : Except Failure TelegramWebAppUser :=
  match fields.get userName with
  | none => .error (initDataError "user is missing")
  | some raw => do
      let payload ←
        (JsonReader.loads env.limits raw).mapError userFailure
      match env.modelValidate payload with
      | none => .error (initDataError "invalid Telegram user")
      | some user =>
          if user.isBot then
            .error (initDataError "bot identity is not allowed")
          else .ok user

def validateTelegramInitData
    (botToken : Text)
    (maxAgeSeconds now : Int)
    (initData : Text) :
    Except Failure ValidatedTelegramInitData := do
  let fields ← verifiedFields env botToken initData
  let authDate ← freshAuthDate env maxAgeSeconds now fields
  let user ← telegramUser env fields
  .ok ⟨user, authDate, fields.get queryIdName⟩

end Checks

------------------------------------------------------------
-- Signed Fields
------------------------------------------------------------

/- The names and values that Telegram signs. -/
structure SignedFields where
  fields : Fields
  keys : (fields.map Prod.fst).Nodup
  name : ∀ f ∈ fields, f.1 ≠ []
  oneLine : ∀ f ∈ fields,
    '=' ∉ f.1 ∧ '\n' ∉ f.1 ∧ '\n' ∉ f.2
  user : ∃ u limits object, (userName, u) ∈ fields ∧
    JsonReader.loads limits u = .ok (.obj object)
  authDate : ∃ n, (authDateName, intText n) ∈ fields

/- The bytes that are signed. -/
def SignedFields.message (F : SignedFields) : List UInt8 :=
  Utf8.encode (dataCheckString F.fields)

/-
  The hash of the login data was not made without the token:
  it is that of fields which Telegram signed.
-/
def LoginUnforged
    (env : Env)
    (botToken : Text)
    (signed : List SignedFields)
    (initData : Text) : Prop :=
  ∀ fields provided, parseUniqueFields initData = .ok fields →
    fields.get hashName = some provided →
    Unforged (fun key message => Hex.digest
        (env.hmac key message))
      (secretKey env botToken)
      (signed.map SignedFields.message)
      (Utf8.encode (dataCheckString fields))
      (provided.map Char.toLower)

end InitData
