import DcInventory.Backup.S3Upload
import DcInventory.Library.Fallible

/-
  This file proves that a backup run which ends has recorded
  versions of its own: the bytes of the dump, and a manifest
  that names its version. What others do in the bucket in the
  meantime does not matter.

  Key definitions include:
    * `S3Upload.Names`
    * `S3Upload.NamesDump`
    * `S3Upload.Valid`

  Key theorems include:
    * `S3Upload.namesDump_of_rewrite`
    * `S3Upload.Valid.step`
    * `S3Upload.recorded_versions_are_uploaded`
-/

namespace S3Upload

variable {env : Env}
variable {args : Args}
variable {S S' : State}
variable {bucket bucket' : Bucket}
variable {u : Upload}

------------------------------------------------------------
-- Versions
------------------------------------------------------------

/- The id is that of a version with the nonce of the upload. -/
def Names
    (bucket : Bucket)
    (u : Upload)
    (versionId : Text) : Prop :=
  ∃ v ∈ bucket.created, v.id = versionId ∧
    v.tag = some u.uploadNonce

theorem Names.mono
    {versionId : Text}
    (hGrows : bucket.Grows bucket')
    (h : Names bucket u versionId) :
    Names bucket' u versionId := by
  rcases h with ⟨v, hv, hId, hTag⟩
  exact ⟨v, hGrows.created hv, hId, hTag⟩

/- A version that the run created, with what was uploaded. -/
structure Uploaded
    (bucket : Bucket)
    (u : Upload)
    (v : Version Text Text Text Content) : Prop where
  own : v ∈ bucket.own
  created : v ∈ bucket.created
  key : v.key = u.key
  uploadNonce : v.tag = some u.uploadNonce
  bytes : v.content.bytes = u.source
  sha256 : v.content.sha256 = some u.sha256

theorem Uploaded.mono
    {v : Version Text Text Text Content}
    (hGrows : bucket.Grows bucket')
    (h : Uploaded bucket u v) :
    Uploaded bucket' u v :=
  { h with
    own := hGrows.own h.own
    created := hGrows.created h.created }

theorem Names.uploaded
    {versionId : Text}
    (hSound : bucket.Sound)
    (hSent : u.put ∈ bucket.sent)
    (h : Names bucket u versionId) :
    ∃ v, Uploaded bucket u v ∧ v.id = versionId := by
  rcases h with ⟨v, hv, hId, hTag⟩
  rcases hSound.of_tag hv hSent hTag with
    ⟨hOwn, hKey, hContent⟩
  exact ⟨v, ⟨hOwn, hv, hKey, hTag, congrArg Content.bytes
    hContent, congrArg Content.sha256 hContent⟩, hId⟩

------------------------------------------------------------
-- Verification
------------------------------------------------------------

/- A HEAD that passes is about a version of the upload. -/
theorem uploadNonce_of_verifyHead
    {versionId : Text}
    {head : HeadResponse}
    (h : verifyHead u versionId head = .ok ()) :
    head.uploadNonce = some u.uploadNonce := by
  unfold verifyHead at h
  split at h
  · cases h
  split at h
  · cases h
  split at h
  · cases h
  · rename_i hNonce
    exact not_not.mp hNonce

/- From the second HEAD on the version is known. -/
def PhaseValid
    (bucket : Bucket)
    (u : Upload) : Phase → Prop
| .uploading => True
| .headCurrent => True
| .headVersion _ => True
| .getVersion versionId => Names bucket u versionId
| .getRetention versionId => Names bucket u versionId

def OutcomeValid
    (bucket : Bucket)
    (u : Upload) : Outcome → Prop
| .next phase => PhaseValid bucket u phase
| .verified versionId => Names bucket u versionId
| .failed _ => True

theorem PhaseValid.mono
    {phase : Phase}
    (hGrows : bucket.Grows bucket')
    (h : PhaseValid bucket u phase) :
    PhaseValid bucket' u phase := by
  cases phase with
  | uploading => trivial
  | headCurrent => trivial
  | headVersion _ => trivial
  | getVersion _ => exact Names.mono hGrows h
  | getRetention _ => exact Names.mono hGrows h

/- Every request keeps what is known of the version. -/
theorem VerifyStep.outcomeValid
    {phase : Phase}
    {outcome : Outcome}
    (hSound : bucket.Sound)
    (hPhase : PhaseValid bucket u phase)
    (hStep : VerifyStep env bucket u phase outcome) :
    OutcomeValid bucket u outcome := by
  cases hStep with
  | uploaded => trivial
  | @headCurrent v versionId =>
      cases usableVersionId versionId with
      | error e => trivial
      | ok i => trivial
  | @headVersion v answered hHolds hKey =>
      cases hHead : verifyHead u v.id (headOf answered v) with
      | error e => trivial
      | ok _ =>
          -- the metadata is that of the version with the id
          exact ⟨v, hSound.kept v hHolds, rfl,
            uploadNonce_of_verifyHead hHead⟩
  | @getVersion i response =>
      cases verifyBody env u i response with
      | error e => trivial
      | ok _ => exact hPhase
  | @getRetention i now retention =>
      cases verifyRetention u now retention with
      | error e => trivial
      | ok _ => exact hPhase

------------------------------------------------------------
-- The Manifest
------------------------------------------------------------

/-
  The bytes are a manifest whose artifact has the key, the
  digest and the size of the dump, and the version.
-/
def NamesDump
    (env : Env)
    (args : Args)
    (dumpVersionId : Text)
    (bytes : Bytes) : Prop :=
  ∃ value artifact size,
    bytes = jsonFile env value ∧
    getItem "artifact" value = .ok artifact ∧
    getItem "key" artifact = .ok (.str (codes args.dumpKey)) ∧
    getItem "sha256" artifact =
      .ok (.str (codes args.dumpSha256)) ∧
    getItem "size_bytes" artifact = .ok size ∧
    equalsNat env.floatEquals args.dump.length size = true ∧
    getItem "version_id" artifact =
      .ok (.str (codes dumpVersionId))

theorem eq_of_isStr
    {text : Text}
    {value : JsonValue}
    (h : isStr text value = true) :
    value = .str (codes text) := by
  cases value with
  | str s => exact congrArg JsonValue.str (of_decide_eq_true h)
  | null => cases h
  | bool _ => cases h
  | int _ => cases h
  | float _ => cases h
  | arr _ => cases h
  | obj _ => cases h

theorem exists_fields_of_getItem
    {key : String}
    {value item : JsonValue}
    (h : getItem key value = .ok item) :
    ∃ fields, value = .obj fields := by
  cases value with
  | obj fields => exact ⟨fields, rfl⟩
  | null => cases h
  | bool _ => cases h
  | int _ => cases h
  | float _ => cases h
  | str _ => cases h
  | arr _ => cases h

theorem getItem_setItem_self
    (key : String)
    (item : JsonValue)
    (fields : List (List Nat × JsonValue)) :
    getItem key (setItem key item (.obj fields)) =
      .ok item := by
  have hFind : Table.find Prod.fst (codes key.toList)
      (Table.put Prod.fst (codes key.toList, item) fields) =
        some (codes key.toList, item) :=
    Table.find_put_self (codes key.toList, item) fields
  unfold setItem getItem
  simp only [hFind]

theorem getItem_setItem_of_ne
    {key other : String}
    (hNe : codes key.toList ≠ codes other.toList)
    (item : JsonValue)
    (fields : List (List Nat × JsonValue)) :
    getItem other (setItem key item (.obj fields)) =
      getItem other (.obj fields) := by
  have hFind : Table.find Prod.fst (codes other.toList)
      (Table.put Prod.fst (codes key.toList, item) fields) =
        Table.find Prod.fst (codes other.toList) fields :=
    Table.find_put_of_ne fields hNe
  unfold setItem getItem
  simp only [hFind]

/- What is pinned has the entries that were checked. -/
theorem pinArtifact_ok
    {dumpVersionId : Text}
    {artifact pinned : JsonValue}
    (h : pinArtifact env args dumpVersionId artifact =
      .ok pinned) :
    ∃ size,
      getItem "key" pinned = .ok (.str (codes args.dumpKey)) ∧
      getItem "sha256" pinned =
        .ok (.str (codes args.dumpSha256)) ∧
      getItem "size_bytes" pinned = .ok size ∧
      equalsNat env.floatEquals args.dump.length size = true ∧
      getItem "version_id" pinned =
        .ok (.str (codes dumpVersionId)) := by
  unfold pinArtifact at h
  rcases Except.bind_eq_ok_iff.mp h with ⟨key, hKey, h⟩
  split at h
  · cases h
  rename_i hKeyStr
  rcases Except.bind_eq_ok_iff.mp h with ⟨sha256, hSha, h⟩
  split at h
  · cases h
  rename_i hShaStr
  rcases Except.bind_eq_ok_iff.mp h with ⟨size, hSize, h⟩
  split at h
  · cases h
  rename_i hSizeNat
  split at h
  · cases h
  cases h
  simp only [Bool.not_eq_true', Bool.not_eq_false]
    at hKeyStr hShaStr hSizeNat
  rw [eq_of_isStr hKeyStr] at hKey
  rw [eq_of_isStr hShaStr] at hSha
  rcases exists_fields_of_getItem hKey with ⟨fields, rfl⟩
  have hOther : ∀ {other : String} {item : JsonValue},
      codes "version_id".toList ≠ codes other.toList →
      getItem other (.obj fields) = .ok item →
      getItem other (setItem "version_id"
        (.str (codes dumpVersionId)) (.obj fields)) =
          .ok item := by
    intro other item hNe hItem
    rw [getItem_setItem_of_ne hNe, hItem]
  refine ⟨size, hOther (by decide) hKey, hOther (by decide) hSha,
    hOther (by decide) hSize, hSizeNat, ?_⟩
  exact getItem_setItem_self _ _ _

/- The manifest that is written names the dump. -/
theorem namesDump_of_rewrite
    {dumpVersionId : Text}
    {manifest bytes : Bytes}
    (h : rewriteManifest env args dumpVersionId manifest =
      .ok bytes) :
    NamesDump env args dumpVersionId bytes := by
  unfold rewriteManifest at h
  split at h
  · cases h
  unfold rewriteText at h
  split at h
  · cases h
  rename_i value _
  rcases Except.bind_eq_ok_iff.mp h with
    ⟨artifact, hArtifact, h⟩
  rcases Except.bind_eq_ok_iff.mp h with ⟨pinned, hPinned, h⟩
  cases h
  rcases pinArtifact_ok hPinned with ⟨size, hFields⟩
  rcases exists_fields_of_getItem hArtifact with ⟨fields, rfl⟩
  exact ⟨_, pinned, size, rfl, getItem_setItem_self _ _ _,
    hFields⟩

------------------------------------------------------------
-- The Invariant
------------------------------------------------------------

/- The dump was hashed and its version was verified. -/
structure DumpVerified
    (env : Env)
    (args : Args)
    (S : State)
    (dumpVersionId : Text) : Prop where
  sha256 : env.sha256 args.dump = args.dumpSha256
  verified : S.verified = some dumpVersionId
  uploaded : ∃ uploadNonce v,
    Uploaded S.bucket (dumpUpload args uploadNonce) v ∧
      v.id = dumpVersionId

theorem DumpVerified.mono
    {dumpVersionId : Text}
    (hGrows : S.bucket.Grows S'.bucket)
    (hVerified : S'.verified = S.verified)
    (h : DumpVerified env args S dumpVersionId) :
    DumpVerified env args S' dumpVersionId where
  sha256 := h.sha256
  verified := hVerified.trans h.verified
  uploaded := by
    rcases h.uploaded with ⟨uploadNonce, v, hUploaded, hId⟩
    exact ⟨uploadNonce, v, hUploaded.mono hGrows, hId⟩

/- The versions that are recorded, and the local manifest. -/
structure Recorded
    (env : Env)
    (args : Args)
    (S : State)
    (dumpVersionId manifestVersionId : Text) : Prop where
  dump : DumpVerified env args S dumpVersionId
  names : NamesDump env args dumpVersionId S.manifest
  manifest : ∃ uploadNonce v,
    Uploaded S.bucket
        (manifestUpload env args S.manifest uploadNonce) v ∧
      v.id = manifestVersionId

theorem Recorded.mono
    {dumpVersionId manifestVersionId : Text}
    (hGrows : S.bucket.Grows S'.bucket)
    (hVerified : S'.verified = S.verified)
    (hManifest : S'.manifest = S.manifest)
    (h : Recorded env args S dumpVersionId
      manifestVersionId) :
    Recorded env args S' dumpVersionId manifestVersionId where
  dump := h.dump.mono hGrows hVerified
  names := by
    rw [hManifest]
    exact h.names
  manifest := by
    rcases h.manifest with ⟨uploadNonce, v, hUploaded, hId⟩
    rw [hManifest]
    exact ⟨uploadNonce, v, hUploaded.mono hGrows, hId⟩

/- What was sent: the dump, and a manifest that names it. -/
def SentInOrder
    (env : Env)
    (args : Args)
    (S : State)
    (p : Put Text Text Content) : Prop :=
  (∃ uploadNonce, p = (dumpUpload args uploadNonce).put) ∨
    ∃ dumpVersionId bytes uploadNonce,
      p = (manifestUpload env args bytes uploadNonce).put ∧
      DumpVerified env args S dumpVersionId ∧
      NamesDump env args dumpVersionId bytes

theorem SentInOrder.mono
    {p : Put Text Text Content}
    (hGrows : S.bucket.Grows S'.bucket)
    (hVerified : S'.verified = S.verified)
    (h : SentInOrder env args S p) :
    SentInOrder env args S' p := by
  rcases h with hDump |
    ⟨i, bytes, uploadNonce, hPut, hDump, hNames⟩
  · exact .inl hDump
  · exact .inr ⟨i, bytes, uploadNonce, hPut,
      hDump.mono hGrows hVerified, hNames⟩

/- What holds where the run is. -/
def PcValid
    (env : Env)
    (args : Args)
    (S : State) : Pc → Prop
| .start => S.bucket.sent = [] ∧ S.versionsOutput = none
| .dumpUpload uploadNonce phase =>
    env.sha256 args.dump = args.dumpSha256 ∧
    (dumpUpload args uploadNonce).put ∈ S.bucket.sent ∧
    (∀ p ∈ S.bucket.sent,
      ∃ other, p = (dumpUpload args other).put) ∧
    PhaseValid S.bucket (dumpUpload args uploadNonce) phase ∧
    S.versionsOutput = none
| .rewrite dumpVersionId =>
    DumpVerified env args S dumpVersionId ∧
    S.versionsOutput = none
| .manifestUpload dumpVersionId uploadNonce phase =>
    DumpVerified env args S dumpVersionId ∧
    NamesDump env args dumpVersionId S.manifest ∧
    (manifestUpload env args S.manifest uploadNonce).put ∈
      S.bucket.sent ∧
    PhaseValid S.bucket
      (manifestUpload env args S.manifest uploadNonce) phase ∧
    S.versionsOutput = none
| .record dumpVersionId manifestVersionId =>
    Recorded env args S dumpVersionId manifestVersionId ∧
    S.versionsOutput = none
| .finished =>
    ∃ dumpVersionId manifestVersionId,
      S.versionsOutput = some
        (versionsFile env dumpVersionId manifestVersionId) ∧
      Recorded env args S dumpVersionId manifestVersionId
| .failed _ => S.versionsOutput = none

structure Valid
    (env : Env)
    (args : Args)
    (S : State) : Prop where
  sound : S.bucket.Sound
  sent : ∀ p ∈ S.bucket.sent, SentInOrder env args S p
  pc : PcValid env args S S.pc

theorem valid_of_starts
    (h : Starts S) :
    Valid env args S where
  sound := VersionedStore.sound_of_unsent h.kept h.ids h.sent
  sent p hp := by
    rw [h.sent] at hp
    cases hp
  pc := by
    rw [h.pc]
    exact ⟨h.sent, h.versionsOutput⟩

/- Others in the bucket do not disturb the run. -/
theorem PcValid.mono
    (hGrows : S.bucket.Grows bucket)
    (hSent : bucket.sent = S.bucket.sent)
    {pc : Pc}
    (h : PcValid env args S pc) :
    PcValid env args { S with bucket := bucket } pc := by
  have hGrows' : S.bucket.Grows
      { S with bucket := bucket }.bucket := hGrows
  cases pc with
  | start => exact ⟨hSent.trans h.1, h.2⟩
  | dumpUpload uploadNonce phase =>
      rcases h with ⟨hSha, hMem, hAll, hPhase, hNone⟩
      refine ⟨hSha, ?_, ?_, hPhase.mono hGrows, hNone⟩
      · change _ ∈ bucket.sent
        rw [hSent]
        exact hMem
      · change ∀ p ∈ bucket.sent, _
        rw [hSent]
        exact hAll
  | rewrite dumpVersionId =>
      exact ⟨h.1.mono hGrows' rfl, h.2⟩
  | manifestUpload dumpVersionId uploadNonce phase =>
      rcases h with ⟨hDump, hNames, hMem, hPhase, hNone⟩
      refine ⟨hDump.mono hGrows' rfl, hNames, ?_,
        hPhase.mono hGrows, hNone⟩
      change _ ∈ bucket.sent
      rw [hSent]
      exact hMem
  | record dumpVersionId manifestVersionId =>
      exact ⟨h.1.mono hGrows' rfl rfl, h.2⟩
  | finished =>
      rcases h with ⟨i, j, hOutput, hRecorded⟩
      exact ⟨i, j, hOutput, hRecorded.mono hGrows' rfl rfl⟩
  | failed e => exact h

theorem Valid.foreign
    (h : Valid env args S)
    (hStep : VersionedStore.Foreign S.bucket bucket) :
    Valid env args { S with bucket := bucket } where
  sound := h.sound.foreign hStep
  sent p hp := by
    change p ∈ bucket.sent at hp
    rw [hStep.sent] at hp
    exact (h.sent p hp).mono hStep.grows rfl
  pc := h.pc.mono hStep.grows hStep.sent

/- A run that is not at its end has recorded nothing. -/
theorem PcValid.versionsOutput
    {pc : Pc}
    (hPc : pc ≠ .finished)
    (h : PcValid env args S pc) :
    S.versionsOutput = none := by
  cases pc with
  | start => exact h.2
  | dumpUpload _ _ => exact h.2.2.2.2
  | rewrite _ => exact h.2
  | manifestUpload _ _ _ => exact h.2.2.2.2
  | record _ _ => exact h.2
  | finished => exact absurd rfl hPc
  | failed _ => exact h

/- What was sent stays in order when nothing is sent. -/
theorem Valid.sent_of_same
    (h : Valid env args S)
    (hBucket : S'.bucket = S.bucket)
    (hVerified : S'.verified = S.verified) :
    ∀ p ∈ S'.bucket.sent, SentInOrder env args S' p := by
  intro p hp
  rw [hBucket] at hp
  apply (h.sent p hp).mono _ hVerified
  rw [hBucket]
  exact .refl S.bucket

/- A run that fails leaves the versions file as it was. -/
theorem Valid.fail
    {e : UploadError}
    (h : Valid env args S)
    (hNone : S.versionsOutput = none) :
    Valid env args { S with pc := .failed e } where
  sound := h.sound
  sent := h.sent_of_same rfl rfl
  pc := hNone

theorem sha256_of_checkArgs
    (h : checkArgs env args = .ok ()) :
    env.sha256 args.dump = args.dumpSha256 := by
  unfold checkArgs at h
  rcases Except.bind_eq_ok_iff.mp h with ⟨_, _, h⟩
  split at h
  · cases h
  split at h
  · cases h
  split at h
  · cases h
  · rename_i hSame
    exact not_not.mp hSame

theorem Valid.begin
    {uploadNonce : Text}
    (h : Valid env args S)
    (hPc : S.pc = .start)
    (hChecks : checkArgs env args = .ok ())
    (hFresh : S.bucket.FreshTag uploadNonce) :
    Valid env args
      { S with
        bucket := S.bucket.send
          (dumpUpload args uploadNonce).put
        pc := .dumpUpload uploadNonce .uploading } := by
  have hStart := h.pc
  rw [hPc] at hStart
  have hOnly : ∀ p ∈ (S.bucket.send
      (dumpUpload args uploadNonce).put).sent,
      p = (dumpUpload args uploadNonce).put := by
    intro p hp
    rcases List.mem_cons.mp hp with rfl | hOld
    · rfl
    · rw [hStart.1] at hOld
      cases hOld
  refine ⟨h.sound.send hFresh, ?_, ?_⟩
  · exact fun p hp => .inl ⟨uploadNonce, hOnly p hp⟩
  · exact ⟨sha256_of_checkArgs hChecks, List.mem_cons_self,
      fun p hp => ⟨uploadNonce, hOnly p hp⟩, trivial,
      hStart.2⟩

theorem Valid.verifyDump
    {uploadNonce : Text}
    {phase : Phase}
    {outcome : Outcome}
    (h : Valid env args S)
    (hPc : S.pc = .dumpUpload uploadNonce phase)
    (hStep : VerifyStep env S.bucket
      (dumpUpload args uploadNonce) phase outcome) :
    Valid env args (afterDump S uploadNonce outcome) := by
  have hValid := h.pc
  rw [hPc] at hValid
  rcases hValid with ⟨hSha, hMem, hAll, hPhase, hNone⟩
  have hOutcome := hStep.outcomeValid h.sound hPhase
  cases outcome with
  | failed e => exact h.fail hNone
  | next phase' =>
      exact ⟨h.sound, h.sent_of_same rfl rfl, hSha, hMem, hAll,
        hOutcome, hNone⟩
  | verified versionId =>
      rcases Names.uploaded h.sound hMem hOutcome with
        ⟨v, hUploaded, hId⟩
      refine ⟨h.sound, fun p hp => .inl (hAll p hp), ?_, hNone⟩
      exact ⟨hSha, rfl, uploadNonce, v, hUploaded, hId⟩

theorem Valid.rewrite
    {dumpVersionId uploadNonce : Text}
    {bytes : Bytes}
    (h : Valid env args S)
    (hPc : S.pc = .rewrite dumpVersionId)
    (hBytes : rewriteManifest env args dumpVersionId
      S.manifest = .ok bytes)
    (hFresh : S.bucket.FreshTag uploadNonce) :
    Valid env args
      { S with
        bucket := S.bucket.send
          (manifestUpload env args bytes uploadNonce).put
        manifest := bytes
        pc := .manifestUpload dumpVersionId uploadNonce
          .uploading } := by
  have hValid := h.pc
  rw [hPc] at hValid
  have hNames := namesDump_of_rewrite hBytes
  let next : State :=
    { S with
      bucket := S.bucket.send
        (manifestUpload env args bytes uploadNonce).put
      manifest := bytes
      pc := .manifestUpload dumpVersionId uploadNonce
        .uploading }
  have hDump : DumpVerified env args next dumpVersionId :=
    hValid.1.mono VersionedStore.grows_send rfl
  refine ⟨h.sound.send hFresh, ?_, hDump, hNames,
    List.mem_cons_self, trivial, hValid.2⟩
  intro p hp
  rcases List.mem_cons.mp hp with rfl | hOld
  · exact .inr ⟨dumpVersionId, bytes, uploadNonce, rfl, hDump,
      hNames⟩
  · exact (h.sent p hOld).mono VersionedStore.grows_send rfl

theorem Valid.verifyManifest
    {dumpVersionId uploadNonce : Text}
    {phase : Phase}
    {outcome : Outcome}
    (h : Valid env args S)
    (hPc : S.pc =
      .manifestUpload dumpVersionId uploadNonce phase)
    (hStep : VerifyStep env S.bucket
      (manifestUpload env args S.manifest uploadNonce) phase
      outcome) :
    Valid env args
      (afterManifest S dumpVersionId uploadNonce outcome) := by
  have hValid := h.pc
  rw [hPc] at hValid
  rcases hValid with ⟨hDump, hNames, hMem, hPhase, hNone⟩
  have hOutcome := hStep.outcomeValid h.sound hPhase
  have hDump' : ∀ {S' : State}, S'.bucket = S.bucket →
      S'.verified = S.verified →
        DumpVerified env args S' dumpVersionId := by
    intro S' hBucket hVerified
    apply hDump.mono _ hVerified
    rw [hBucket]
    exact .refl _
  cases outcome with
  | failed e => exact h.fail hNone
  | next phase' =>
      exact ⟨h.sound, h.sent_of_same rfl rfl, hDump' rfl rfl,
        hNames, hMem, hOutcome, hNone⟩
  | verified versionId =>
      rcases Names.uploaded h.sound hMem hOutcome with
        ⟨v, hUploaded, hId⟩
      exact ⟨h.sound, h.sent_of_same rfl rfl, ⟨hDump' rfl rfl,
        hNames, uploadNonce, v, hUploaded, hId⟩, hNone⟩

/- Every step keeps the invariant. -/
theorem Valid.step
    (h : Valid env args S)
    (hStep : Step env args S S') :
    Valid env args S' := by
  cases hStep with
  | foreign hForeign => exact h.foreign hForeign
  | refuse hPc hError =>
      apply h.fail
      apply h.pc.versionsOutput
      rw [hPc]
      exact nofun
  | begin hPc hChecks hFresh => exact h.begin hPc hChecks hFresh
  | verifyDump hPc hVerify => exact h.verifyDump hPc hVerify
  | mismatch hPc hError =>
      apply h.fail
      apply h.pc.versionsOutput
      rw [hPc]
      exact nofun
  | rewrite hPc hBytes hFresh =>
      exact h.rewrite hPc hBytes hFresh
  | verifyManifest hPc hVerify =>
      exact h.verifyManifest hPc hVerify
  | @record i j hPc =>
      have hValid := h.pc
      rw [hPc] at hValid
      have hRecorded : Recorded env args S i j := hValid.1
      exact ⟨h.sound, h.sent_of_same rfl rfl, i, j, rfl,
        hRecorded.mono (.refl S.bucket) rfl rfl⟩
  | crash hPc =>
      have hNone : S.versionsOutput = none :=
        h.pc.versionsOutput hPc
      exact ⟨h.sound, h.sent_of_same rfl rfl, hNone⟩

theorem Reachable.valid
    (h : Reachable env args S) :
    Valid env args S := by
  induction h with
  | start hStarts => exact valid_of_starts hStarts
  | step _ hStep ih => exact ih.step hStep

------------------------------------------------------------
-- Recorded Versions
------------------------------------------------------------

/-
  Whatever others do in the bucket: a run that ends has
  recorded a version with the bytes of the dump and one with
  those of the local manifest, both created by its own
  requests, and the manifest names the version of the dump. A
  run that has not ended, or has failed, has recorded nothing,
  and what it sent is the dump, or a manifest that names a
  version of the dump that was verified before.
-/
theorem recorded_versions_are_uploaded
    (hRun : Reachable env args S) :
    (S.pc = .finished →
      ∃ dumpVersionId manifestVersionId,
        S.versionsOutput = some
          (versionsFile env dumpVersionId manifestVersionId) ∧
        Recorded env args S dumpVersionId
          manifestVersionId) ∧
    (S.pc ≠ .finished → S.versionsOutput = none) ∧
    (∀ p ∈ S.bucket.sent, SentInOrder env args S p) ∧
    (∀ v ∈ S.bucket.created, ∀ w ∈ S.bucket.created,
      v.id = w.id → v = w) := by
  have hValid := hRun.valid
  refine ⟨?_, ?_, hValid.sent, ?_⟩
  · intro hPc
    have hFinished := hValid.pc
    rw [hPc] at hFinished
    exact hFinished
  · exact fun hPc => hValid.pc.versionsOutput hPc
  · exact fun v hv w hw hId => hValid.sound.eq_of_id hv hw hId

------------------------------------------------------------
-- Undisturbed Runs
------------------------------------------------------------

/- The version that the upload created is found by its key. -/
structure Undisturbed
    (env : Env)
    (bucket : Bucket)
    (u : Upload)
    (versionId : Text) : Prop where
  own : u.put.stored versionId ∈ bucket.own
  current : bucket.current u.key = some (u.put.stored versionId)
  usable : usableVersionId (some versionId) = .ok versionId
  sha256 : env.sha256 u.source = u.sha256

/- Long enough that no check refuses it. -/
def longRetention : Retention where
  mode := some "GOVERNANCE".toList
  retainUntilDate := some ⟨minimumRetention + 1, []⟩

section Undisturbed

variable {versionId : Text}

theorem Undisturbed.headCurrent
    (h : Undisturbed env bucket u versionId) :
    VerifyStep env bucket u .headCurrent
      (.next (.headVersion versionId)) := by
  have hStep : VerifyStep env bucket u .headCurrent _ :=
    .headCurrent h.current (.inr rfl)
  change VerifyStep env bucket u .headCurrent
    (.of _ (usableVersionId (some versionId))) at hStep
  rw [h.usable] at hStep
  exact hStep

theorem Undisturbed.headVersion
    (h : Undisturbed env bucket u versionId) :
    VerifyStep env bucket u (.headVersion versionId)
      (.next (.getVersion versionId)) := by
  have hHolds := VersionedStore.holds_current h.current
  have hHead : verifyHead u versionId
      (headOf none (u.put.stored versionId)) = .ok () := by
    simp [verifyHead, isExpectedVersion, headOf, Put.stored,
      Upload.put]
  have hStep : VerifyStep env bucket u (.headVersion versionId)
      (.of (fun _ => .next (.getVersion versionId))
        (verifyHead u versionId
          (headOf none (u.put.stored versionId)))) :=
    .headVersion hHolds.1 rfl
  rw [hHead] at hStep
  exact hStep

theorem Undisturbed.getVersion
    (h : Undisturbed env bucket u versionId) :
    VerifyStep env bucket u (.getVersion versionId)
      (.next (.getRetention versionId)) := by
  have hBody : verifyBody env u versionId ⟨none, u.source⟩ =
      .ok () := by
    simp [verifyBody, isExpectedVersion, h.sha256]
  have hStep : VerifyStep env bucket u (.getVersion versionId)
      (.of (fun _ => .next (.getRetention versionId))
        (verifyBody env u versionId ⟨none, u.source⟩)) :=
    .getVersion
  rw [hBody] at hStep
  exact hStep

theorem verified_of_longRetention :
    VerifyStep env bucket u (.getRetention versionId)
      (.verified versionId) := by
  have hStep : VerifyStep env bucket u (.getRetention versionId)
      (.of (fun _ => .verified versionId)
        (verifyRetention u 0 longRetention)) :=
    .getRetention
  have hLong : verifyRetention u 0 longRetention = .ok () := rfl
  rw [hLong] at hStep
  exact hStep

/- The bucket after an upload was sent and has arrived. -/
def afterUpload
    (bucket : Bucket)
    (u : Upload)
    (versionId : Text) : Bucket :=
  { (bucket.send u.put).add (u.put.stored versionId) with
    own := u.put.stored versionId :: bucket.own }

theorem undisturbed_afterUpload
    (hUsable : usableVersionId (some versionId) = .ok versionId)
    (hSha : env.sha256 u.source = u.sha256) :
    Undisturbed env (afterUpload bucket u versionId) u
      versionId where
  own := List.mem_cons_self
  current := by
    have hKey : (u.put.stored versionId).key = u.key := rfl
    simp [VersionedStore.current, afterUpload,
      VersionedStore.add, VersionedStore.send, Entry.key, hKey,
      List.filter_append]
  usable := hUsable
  sha256 := hSha

theorem foreign_afterUpload
    (hId : bucket.FreshId versionId) :
    VersionedStore.Foreign (bucket.send u.put)
      (afterUpload bucket u versionId) :=
  .arrive List.mem_cons_self hId

/- An undisturbed upload of the dump is verified. -/
theorem Reachable.dump_verified
    {uploadNonce : Text}
    (hRun : Reachable env args S)
    (hPc : S.pc = .start)
    (hChecks : checkArgs env args = .ok ())
    (hFresh : S.bucket.FreshTag uploadNonce)
    (hId : S.bucket.FreshId versionId)
    (hUsable : usableVersionId (some versionId) =
      .ok versionId) :
    Reachable env args
      { S with
        bucket := afterUpload S.bucket
          (dumpUpload args uploadNonce) versionId
        pc := .rewrite versionId
        verified := some versionId } := by
  have h : Undisturbed env _ (dumpUpload args uploadNonce)
      versionId :=
    @undisturbed_afterUpload env S.bucket _ versionId hUsable
      (sha256_of_checkArgs hChecks)
  have hSent := hRun.step (.begin hPc hChecks hFresh)
  have hArrived := hSent.step (.foreign (foreign_afterUpload hId))
  have hHead := hArrived.step
    (.verifyDump rfl (.uploaded h.own rfl))
  have hVersion := hHead.step (.verifyDump rfl h.headCurrent)
  have hGet := hVersion.step (.verifyDump rfl h.headVersion)
  have hRetention := hGet.step (.verifyDump rfl h.getVersion)
  exact hRetention.step
    (.verifyDump rfl verified_of_longRetention)

/- An undisturbed upload of the manifest is verified. -/
theorem Reachable.manifest_verified
    {dumpVersionId uploadNonce : Text}
    {bytes : Bytes}
    (hRun : Reachable env args S)
    (hPc : S.pc = .rewrite dumpVersionId)
    (hBytes : rewriteManifest env args dumpVersionId S.manifest =
      .ok bytes)
    (hFresh : S.bucket.FreshTag uploadNonce)
    (hId : S.bucket.FreshId versionId)
    (hUsable : usableVersionId (some versionId) =
      .ok versionId) :
    Reachable env args
      { S with
        bucket := afterUpload S.bucket
          (manifestUpload env args bytes uploadNonce) versionId
        manifest := bytes
        pc := .record dumpVersionId versionId } := by
  have h : Undisturbed env _
      (manifestUpload env args bytes uploadNonce) versionId :=
    @undisturbed_afterUpload env S.bucket _ versionId hUsable rfl
  have hSent := hRun.step (.rewrite hPc hBytes hFresh)
  have hArrived := hSent.step (.foreign (foreign_afterUpload hId))
  have hHead := hArrived.step
    (.verifyManifest rfl (.uploaded h.own rfl))
  have hVersion := hHead.step (.verifyManifest rfl h.headCurrent)
  have hGet := hVersion.step (.verifyManifest rfl h.headVersion)
  have hRetention := hGet.step (.verifyManifest rfl h.getVersion)
  exact hRetention.step
    (.verifyManifest rfl verified_of_longRetention)

/- An undisturbed run records both versions. -/
theorem Reachable.finished
    {dumpVersionId manifestVersionId : Text}
    {uploadNonce uploadNonce' : Text}
    {bytes : Bytes}
    (hRun : Reachable env args S)
    (hPc : S.pc = .start)
    (hEmpty : S.bucket.created = [])
    (hSent : S.bucket.sent = [])
    (hChecks : checkArgs env args = .ok ())
    (hBytes : rewriteManifest env args dumpVersionId S.manifest =
      .ok bytes)
    (hNonces : uploadNonce ≠ uploadNonce')
    (hIds : dumpVersionId ≠ manifestVersionId)
    (hDump : usableVersionId (some dumpVersionId) =
      .ok dumpVersionId)
    (hManifest : usableVersionId (some manifestVersionId) =
      .ok manifestVersionId) :
    ∃ S', Reachable env args S' ∧ S'.pc = .finished ∧
      S'.versionsOutput = some
        (versionsFile env dumpVersionId manifestVersionId) := by
  have hNone : ∀ v ∈ S.bucket.created, False := by
    rw [hEmpty]
    exact fun v => List.not_mem_nil
  have hNoPut : ∀ q ∈ S.bucket.sent, False := by
    rw [hSent]
    exact fun q => List.not_mem_nil
  have hUnused : S.bucket.FreshTag uploadNonce :=
    ⟨fun v hv => (hNone v hv).elim,
      fun q hq => (hNoPut q hq).elim⟩
  have hVerified := hRun.dump_verified hPc hChecks hUnused
    (fun v hv => (hNone v hv).elim) hDump
  have hFresh : (afterUpload S.bucket
      (dumpUpload args uploadNonce)
      dumpVersionId).FreshTag uploadNonce' := by
    constructor
    · intro v hv hTag
      rcases List.mem_cons.mp hv with rfl | hOld
      · exact hNonces (Option.some.inj hTag)
      · exact hNone v hOld
    · intro q hq hTag
      rcases List.mem_cons.mp hq with rfl | hOld
      · exact hNonces hTag
      · exact hNoPut q hOld
  have hId : (afterUpload S.bucket
      (dumpUpload args uploadNonce)
      dumpVersionId).FreshId manifestVersionId := by
    intro v hv
    rcases List.mem_cons.mp hv with rfl | hOld
    · exact hIds
    · exact (hNone v hOld).elim
  have hRecord := hVerified.manifest_verified rfl hBytes hFresh
    hId hManifest
  exact ⟨_, hRecord.step (.record rfl), rfl, rfl⟩

end Undisturbed

/- The digest of the dump `abc`. -/
def abcSha256 : Text :=
  "ba7816bf8f01cfea".toList ++ "414140de5dae2223".toList ++
    "b00361a396177a9c".toList ++ "b410ff61f20015ad".toList

def abcArgs : Args where
  dump := [97, 98, 99]
  dumpKey := "p/d".toList
  manifestKey := "p/m".toList
  dumpSha256 := abcSha256

/- The digests of the dump and of its manifest. -/
def abcEnv : Env where
  sha256 bytes :=
    if bytes = [97, 98, 99] then abcSha256
    else
      "93d58398076962a1".toList ++ "59fbbc0634e0e0b1".toList ++
        "132c42579c5d8521".toList ++ "cab82909f9d23f4a".toList
  limits := ⟨4300, 1000⟩
  floatText text := text
  floatEquals _ _ := false
  s3Prefix := "p".toList
  storage := .ok ()

def abcManifest : Text :=
  "\x7b\"artifact\": \x7b".toList ++
    "\"key\": \"p/d\", \"sha256\": \"".toList ++ abcSha256 ++
    "\", \"size_bytes\": 3\x7d\x7d".toList

def abcStart : State where
  bucket := ⟨[], [], [], []⟩
  manifest := Utf8.encode abcManifest
  versionsOutput := none
  verified := none
  pc := .start

theorem starts_abc : Starts abcStart where
  kept v hHolds := by cases hHolds
  ids := List.nodup_nil
  sent := rfl
  versionsOutput := rfl
  verified := rfl
  pc := rfl

theorem rewriteManifest_encode
    (dumpVersionId text : Text) :
    rewriteManifest env args dumpVersionId
        (Utf8.encode text) =
      rewriteText env args dumpVersionId text := by
  unfold rewriteManifest
  rw [Utf8.decode_encode]

theorem rewrite_abc :
    ∃ bytes, rewriteManifest abcEnv abcArgs "v1".toList
      abcStart.manifest = .ok bytes := by
  have hOk : (rewriteText abcEnv abcArgs "v1".toList
      abcManifest).toOption.isSome = true := by
    decide +kernel
  have hSame : rewriteManifest abcEnv abcArgs "v1".toList
      abcStart.manifest =
        rewriteText abcEnv abcArgs "v1".toList abcManifest :=
    rewriteManifest_encode "v1".toList abcManifest
  rw [hSame]
  cases hBytes : rewriteText abcEnv abcArgs "v1".toList
      abcManifest with
  | error e =>
      rw [hBytes] at hOk
      cases hOk
  | ok bytes => exact ⟨bytes, rfl⟩

/- A run in which both uploads arrive as they are sent. -/
theorem abc_is_recorded :
    ∃ S, S.pc = .finished ∧
      S.versionsOutput =
        some (versionsFile abcEnv "v1".toList "v2".toList) ∧
      ∃ i j, S.versionsOutput =
          some (versionsFile abcEnv i j) ∧
        Recorded abcEnv abcArgs S i j := by
  rcases rewrite_abc with ⟨bytes, hBytes⟩
  have hChecks : checkArgs abcEnv abcArgs = .ok () := by
    decide
  have hNonces : "n1".toList ≠ "n2".toList := by decide
  have hManifest : usableVersionId (some "v2".toList) =
      .ok "v2".toList := by
    decide
  rcases (Reachable.start starts_abc).finished rfl rfl rfl
    hChecks hBytes hNonces (by decide) (by decide) hManifest
    with ⟨S, hRun, hPc, hOutput⟩
  rcases (recorded_versions_are_uploaded hRun).1 hPc with
    ⟨i, j, hSome, hRecorded⟩
  exact ⟨S, hPc, hOutput, i, j, hSome, hRecorded⟩

end S3Upload
