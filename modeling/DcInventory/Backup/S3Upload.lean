import DcInventory.Core.Numbers
import DcInventory.Library.JsonIndented
import DcInventory.Library.Utf8
import DcInventory.Library.VersionedStore
import DcInventory.Schema.Rows

/-
  This file defines how a backup is uploaded into a bucket
  with versions: the dump is uploaded and verified, its
  version is written into the manifest, the manifest is
  uploaded and verified, and the versions are recorded.

  Every request is a step of its own, between which others
  write into the bucket.

  Key definitions include:
    * `S3Upload.verifyHead`
    * `S3Upload.rewriteManifest`
    * `S3Upload.VerifyStep`
    * `S3Upload.Step`
    * `S3Upload.Reachable`
-/

namespace S3Upload

abbrev Bytes := List UInt8

------------------------------------------------------------
-- Values
------------------------------------------------------------

/-
  How a run fails: with a `RuntimeError`, with an error of
  the language or of the JSON reader, or because a request
  or the process did.
-/
inductive UploadError where
| runtime (message : Text)
| keyError (key : Text)
| typeError
| decodeError
| json (failure : JsonReader.Failure)
| interrupted
deriving DecidableEq, Repr

def runtimeError (message : String) : UploadError :=
  .runtime message.toList

/-
  What a run relies on: the hexadecimal digest, the limits of
  the JSON reader, the text of a floating point number and
  whether it equals an integer, the configured prefix, and
  the outcome of `validate_storage`.
-/
structure Env where
  sha256 : Bytes → Text
  limits : JsonReader.Limits
  floatText : List Char → List Char
  floatEquals : List Char → Nat → Bool
  s3Prefix : Text
  storage : Except UploadError Unit

/- The arguments, with what is in the dump. -/
structure Args where
  dump : Bytes
  dumpKey : Text
  manifestKey : Text
  dumpSha256 : Text

/- What a version has beside its upload nonce. -/
structure Content where
  bytes : Bytes
  sha256 : Option Text
deriving DecidableEq, Repr

abbrev Bucket := VersionedStore Text Text Text Content

/- The arguments of `upload_object` and its nonce. -/
structure Upload where
  key : Text
  source : Bytes
  sha256 : Text
  uploadNonce : Text
deriving DecidableEq, Repr

/- The request of `upload_file`. -/
def Upload.put (u : Upload) : Put Text Text Content where
  key := u.key
  tag := u.uploadNonce
  content := ⟨u.source, some u.sha256⟩

------------------------------------------------------------
-- Verification
------------------------------------------------------------

/- What `head_object` tells. -/
structure HeadResponse where
  versionId : Option Text
  contentLength : Nat
  sha256 : Option Text
  uploadNonce : Option Text

/- What `get_object` tells, with the whole body. -/
structure GetResponse where
  versionId : Option Text
  body : Bytes

/- A date with its text. -/
structure RetainDate where
  time : Time
  isoformat : Text

structure Retention where
  mode : Option Text
  retainUntilDate : Option RetainDate

/- The version that the first HEAD names. -/
def usableVersionId
    (versionId : Option Text) : Except UploadError Text :=
  match versionId with
  | none =>
      .error (runtimeError
        "Uploaded S3 object has no usable VersionId")
  | some versionId =>
      if versionId = [] ∨ versionId = "null".toList then
        .error (runtimeError
          "Uploaded S3 object has no usable VersionId")
      else .ok versionId

/- The answer is about the version that was asked for. -/
def isExpectedVersion
    (versionId : Text)
    (answered : Option Text) : Bool :=
  answered = none || answered = some versionId

def verifyHead
    (u : Upload)
    (versionId : Text)
    (head : HeadResponse) : Except UploadError Unit :=
  if !isExpectedVersion versionId head.versionId then
    .error (runtimeError
      "S3 HEAD returned an unexpected version")
  else if head.contentLength ≠ u.source.length then
    .error (.runtime ("Remote size mismatch for ".toList ++
      u.key ++ ": ".toList ++ intText head.contentLength ++
      " != ".toList ++ intText u.source.length))
  else if head.uploadNonce ≠ some u.uploadNonce then
    .error (runtimeError
      "S3 version does not belong to this upload")
  else if head.sha256 ≠ some u.sha256 then
    .error (.runtime
      ("Remote SHA-256 metadata mismatch for ".toList ++ u.key))
  else .ok ()

def verifyBody
    (env : Env)
    (u : Upload)
    (versionId : Text)
    (response : GetResponse) : Except UploadError Unit :=
  if !isExpectedVersion versionId response.versionId then
    .error (runtimeError
      "S3 GET returned an unexpected version")
  else if env.sha256 response.body ≠ u.sha256 then
    .error (.runtime
      ("Remote object SHA-256 mismatch for ".toList ++ u.key ++
        ": ".toList ++ env.sha256 response.body ++
        " != ".toList ++ u.sha256))
  else .ok ()

/- `timedelta(days=6)` -/
def minimumRetention : Time := seconds (6 * 86400)

def verifyRetention
    (u : Upload)
    (now : Time)
    (retention : Retention) : Except UploadError Unit :=
  if retention.mode ≠ some "GOVERNANCE".toList then
    .error (.runtime ("Object ".toList ++ u.key ++
      " is not protected by GOVERNANCE retention".toList))
  else
    match retention.retainUntilDate with
    | none =>
        .error (.runtime ("Object ".toList ++ u.key ++
          " has no retention date".toList))
    | some date =>
        if date.time ≤ now + minimumRetention then
          .error (.runtime ("Object ".toList ++ u.key ++
            " retention is unexpectedly short: ".toList ++
            date.isoformat))
        else .ok ()

/- Where `upload_object` is. -/
inductive Phase where
| uploading
| headCurrent
| headVersion (versionId : Text)
| getVersion (versionId : Text)
| getRetention (versionId : Text)
deriving DecidableEq, Repr

/- What a request of `upload_object` leads to. -/
inductive Outcome where
| next (phase : Phase)
| verified (versionId : Text)
| failed (e : UploadError)
deriving DecidableEq, Repr

/- A check that passes leads on. -/
def Outcome.of {α : Type}
    (passed : α → Outcome) : Except UploadError α → Outcome
| .ok a => passed a
| .error e => .failed e

/- What `head_object` tells of a version in the bucket. -/
def headOf
    (answered : Option Text)
    (v : Version Text Text Text Content) : HeadResponse where
  versionId := answered
  contentLength := v.content.bytes.length
  sha256 := v.content.sha256
  uploadNonce := v.tag

/-
  One request of `upload_object`. `upload_file` returns when
  a request has arrived. What a HEAD tells is what is in the
  bucket then, the ids in the answers, the body and the
  retention may be anything.
-/
inductive VerifyStep
    (env : Env)
    (bucket : Bucket)
    (u : Upload) : Phase → Outcome → Prop where
| uploaded {v : Version Text Text Text Content} :
    v ∈ bucket.own →
    v.tag = some u.uploadNonce →
    VerifyStep env bucket u .uploading (.next .headCurrent)
| headCurrent
    {v : Version Text Text Text Content}
    {versionId : Option Text} :
    bucket.current u.key = some v →
    versionId = none ∨ versionId = some v.id →
    VerifyStep env bucket u .headCurrent
      (.of (fun i => .next (.headVersion i))
        (usableVersionId versionId))
| headVersion
    {v : Version Text Text Text Content}
    {answered : Option Text} :
    bucket.Holds v →
    v.key = u.key →
    VerifyStep env bucket u (.headVersion v.id)
      (.of (fun _ => .next (.getVersion v.id))
        (verifyHead u v.id (headOf answered v)))
| getVersion {versionId : Text} {response : GetResponse} :
    VerifyStep env bucket u (.getVersion versionId)
      (.of (fun _ => .next (.getRetention versionId))
        (verifyBody env u versionId response))
| getRetention
    {versionId : Text} {now : Time} {retention : Retention} :
    VerifyStep env bucket u (.getRetention versionId)
      (.of (fun _ => .verified versionId)
        (verifyRetention u now retention))

------------------------------------------------------------
-- The Manifest
------------------------------------------------------------

/- The code points of a text. -/
def codes (text : Text) : List Nat :=
  text.map Char.toNat

/- `value == text` -/
def isStr (text : Text) : JsonValue → Bool
| .str s => s = codes text
| _ => false

/- `value == n` -/
def equalsNat
    (floatEquals : List Char → Nat → Bool)
    (n : Nat) : JsonValue → Bool
| .int m => m = n
| .bool b => b.toNat = n
| .float text => floatEquals text n
| _ => false

/- `value[key]` -/
def getItem
    (key : String) : JsonValue → Except UploadError JsonValue
| .obj fields =>
    match Table.find Prod.fst (codes key.toList) fields with
    | some field => .ok field.2
    | none => .error (.keyError key.toList)
| _ => .error .typeError

/- `key in value`, for an object. -/
def hasItem (key : String) : JsonValue → Bool
| .obj fields =>
    (Table.find Prod.fst (codes key.toList) fields).isSome
| _ => false

/- `value[key] = item`, for an object. -/
def setItem
    (key : String)
    (item : JsonValue) : JsonValue → JsonValue
| .obj fields =>
    .obj (Table.put Prod.fst (codes key.toList, item) fields)
| value => value

/- How a text file is read: every line ends with `\n`. -/
def universalNewlines : Text → Text
| [] => []
| '\r' :: '\n' :: rest => '\n' :: universalNewlines rest
| '\r' :: rest => '\n' :: universalNewlines rest
| c :: rest => c :: universalNewlines rest

def manifestMismatch : UploadError :=
  runtimeError "Manifest does not match the verified dump"

/- The artifact with the version of the dump. -/
def pinArtifact
    (env : Env)
    (args : Args)
    (dumpVersionId : Text)
    (artifact : JsonValue) : Except UploadError JsonValue := do
  let key ← getItem "key" artifact
  if !isStr args.dumpKey key then .error manifestMismatch
  else
    let sha256 ← getItem "sha256" artifact
    if !isStr args.dumpSha256 sha256 then
      .error manifestMismatch
    else
      let size ← getItem "size_bytes" artifact
      if !equalsNat env.floatEquals args.dump.length size then
        .error manifestMismatch
      else if hasItem "version_id" artifact then
        .error (runtimeError
          "Manifest already contains a dump VersionId")
      else
        .ok (setItem "version_id" (.str (codes dumpVersionId))
          artifact)

/- `json.dumps(..., indent=2, sort_keys=True) + "\n"` -/
def jsonFile (env : Env) (value : JsonValue) : Bytes :=
  Utf8.encode
    (JsonIndented.dumps env.floatText 0 value ++ ['\n'])

/- The manifest that is written for the text of a manifest. -/
def rewriteText
    (env : Env)
    (args : Args)
    (dumpVersionId : Text)
    (text : Text) : Except UploadError Bytes :=
  match JsonReader.loads env.limits (universalNewlines text) with
  | .error failure => .error (.json failure)
  | .ok value => do
      let artifact ← getItem "artifact" value
      let pinned ← pinArtifact env args dumpVersionId artifact
      .ok (jsonFile env (setItem "artifact" pinned value))

/- The manifest as it is written before it is uploaded. -/
def rewriteManifest
    (env : Env)
    (args : Args)
    (dumpVersionId : Text)
    (manifest : Bytes) : Except UploadError Bytes :=
  match Utf8.decode manifest with
  | none => .error .decodeError
  | some text => rewriteText env args dumpVersionId text

/- What is in the versions file. -/
def versionsFile
    (env : Env)
    (dumpVersionId manifestVersionId : Text) : Bytes :=
  jsonFile env (.obj
    [(codes "dump_version_id".toList,
        .str (codes dumpVersionId)),
      (codes "manifest_version_id".toList,
        .str (codes manifestVersionId))])

------------------------------------------------------------
-- Runs
------------------------------------------------------------

/- `env["S3_PREFIX"].rstrip("/") + "/"` -/
def keysUnder (env : Env) : Text :=
  (env.s3Prefix.reverse.dropWhile (fun c => c = '/')).reverse ++
    ['/']

/- The checks of `command_upload` before the first upload. -/
def checkArgs
    (env : Env)
    (args : Args) : Except UploadError Unit := do
  env.storage
  if !(keysUnder env).isPrefixOf args.dumpKey then
    .error (runtimeError
      "Dump key is outside configured S3 prefix")
  else if !(keysUnder env).isPrefixOf args.manifestKey then
    .error (runtimeError
      "Manifest key is outside configured S3 prefix")
  else if env.sha256 args.dump ≠ args.dumpSha256 then
    .error (runtimeError
      "Local dump SHA-256 changed before upload")
  else .ok ()

/- Where `command_upload` is. -/
inductive Pc where
| start
| dumpUpload (uploadNonce : Text) (phase : Phase)
| rewrite (dumpVersionId : Text)
| manifestUpload
    (dumpVersionId uploadNonce : Text) (phase : Phase)
| record (dumpVersionId manifestVersionId : Text)
| finished
| failed (e : UploadError)
deriving DecidableEq, Repr

/-
  The bucket, the local files that the run writes, and the
  version that `verify_object` returned for the dump.
-/
structure State where
  bucket : Bucket
  manifest : Bytes
  versionsOutput : Option Bytes
  verified : Option Text
  pc : Pc

def dumpUpload (args : Args) (uploadNonce : Text) : Upload where
  key := args.dumpKey
  source := args.dump
  sha256 := args.dumpSha256
  uploadNonce := uploadNonce

def manifestUpload
    (env : Env)
    (args : Args)
    (manifest : Bytes)
    (uploadNonce : Text) : Upload where
  key := args.manifestKey
  source := manifest
  sha256 := env.sha256 manifest
  uploadNonce := uploadNonce

/- What follows a request for the dump. -/
def afterDump
    (S : State)
    (uploadNonce : Text) : Outcome → State
| .next phase => { S with pc := .dumpUpload uploadNonce phase }
| .verified versionId =>
    { S with
      pc := .rewrite versionId
      verified := some versionId }
| .failed e => { S with pc := .failed e }

/- What follows a request for the manifest. -/
def afterManifest
    (S : State)
    (dumpVersionId uploadNonce : Text) : Outcome → State
| .next phase =>
    { S with
      pc := .manifestUpload dumpVersionId uploadNonce phase }
| .verified versionId =>
    { S with pc := .record dumpVersionId versionId }
| .failed e => { S with pc := .failed e }

/-
  One step of the run or of the bucket. A run that fails
  while it writes may leave anything in the manifest; the
  versions file is replaced at once.
-/
inductive Step
    (env : Env)
    (args : Args)
    (S : State) : State → Prop where
| foreign {bucket : Bucket} :
    VersionedStore.Foreign S.bucket bucket →
    Step env args S { S with bucket := bucket }
| refuse {e : UploadError} :
    S.pc = .start →
    checkArgs env args = .error e →
    Step env args S { S with pc := .failed e }
| begin {uploadNonce : Text} :
    S.pc = .start →
    checkArgs env args = .ok () →
    S.bucket.FreshTag uploadNonce →
    Step env args S
      { S with
        bucket := S.bucket.send
          (dumpUpload args uploadNonce).put
        pc := .dumpUpload uploadNonce .uploading }
| verifyDump
    {uploadNonce : Text} {phase : Phase} {outcome : Outcome} :
    S.pc = .dumpUpload uploadNonce phase →
    VerifyStep env S.bucket (dumpUpload args uploadNonce) phase
      outcome →
    Step env args S (afterDump S uploadNonce outcome)
| mismatch {dumpVersionId : Text} {e : UploadError} :
    S.pc = .rewrite dumpVersionId →
    rewriteManifest env args dumpVersionId S.manifest =
      .error e →
    Step env args S { S with pc := .failed e }
| rewrite {dumpVersionId uploadNonce : Text} {bytes : Bytes} :
    S.pc = .rewrite dumpVersionId →
    rewriteManifest env args dumpVersionId S.manifest =
      .ok bytes →
    S.bucket.FreshTag uploadNonce →
    Step env args S
      { S with
        bucket := S.bucket.send
          (manifestUpload env args bytes uploadNonce).put
        manifest := bytes
        pc := .manifestUpload dumpVersionId uploadNonce
          .uploading }
| verifyManifest
    {dumpVersionId uploadNonce : Text}
    {phase : Phase}
    {outcome : Outcome} :
    S.pc = .manifestUpload dumpVersionId uploadNonce phase →
    VerifyStep env S.bucket
      (manifestUpload env args S.manifest uploadNonce) phase
      outcome →
    Step env args S
      (afterManifest S dumpVersionId uploadNonce outcome)
| record {dumpVersionId manifestVersionId : Text} :
    S.pc = .record dumpVersionId manifestVersionId →
    Step env args S
      { S with
        versionsOutput := some
          (versionsFile env dumpVersionId manifestVersionId)
        pc := .finished }
| crash {bytes : Bytes} :
    S.pc ≠ .finished →
    Step env args S
      { S with
        manifest := bytes
        pc := .failed .interrupted }

/- A run begins with any bucket and any manifest. -/
structure Starts (S : State) : Prop where
  kept : ∀ v, S.bucket.Holds v → v ∈ S.bucket.created
  ids : (S.bucket.created.map Version.id).Nodup
  sent : S.bucket.sent = []
  versionsOutput : S.versionsOutput = none
  verified : S.verified = none
  pc : S.pc = .start

/- The states that runs lead to. -/
inductive Reachable (env : Env) (args : Args) : State → Prop where
| start {S : State} :
    Starts S →
    Reachable env args S
| step {S S' : State} :
    Reachable env args S →
    Step env args S S' →
    Reachable env args S'

end S3Upload
