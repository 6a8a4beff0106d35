import DcInventory.Inventory.Interleaving

/-
  This file proves that a movement is created once for each
  actor and key, whoever else is active: a later call with
  the key gets that movement if its canonical form is the
  same, and is refused if it is not.

  Key definitions include:
    * `WarehouseClient`
    * `KeyRefused`

  Key theorems include:
    * `wlp_repeated`
    * `created_once`
    * `repeated_call`
    * `movements_created_exactly_once`
-/

variable {τ : Type}
variable [DecidableEq τ]

------------------------------------------------------------
-- Clients
------------------------------------------------------------

/-
  What clients may run: requests for movements, all with the
  same digest, and transactions elsewhere.
-/
def WarehouseClient
    (sha256 : Text → Text)
    (p : Op (Option MovementResult)) : Prop :=
  (∃ (env : MovementEnv) (request : MovementRequest),
    env.sha256 = sha256 ∧
      p = some <$> request.program env) ∨
  Elsewhere p

theorem warehouseClient_safe
    {sha256 : Text → Text}
    {p : Op (Option MovementResult)}
    (h : WarehouseClient sha256 p) :
    warehouse.Safe (fun _ _ => True) (fun _ _ _ => True) p := by
  rcases h with ⟨env, request, _, rfl⟩ | hElsewhere
  · intro s hInv
    apply Txn.wlp_map
    refine Txn.wlp_imp ?_ (request_safe env request s hInv)
    intro r held own s' _ hGuarantee
    cases r with
    | ok result => exact hGuarantee
    | error e => trivial
  · exact elsewhere_safe hElsewhere

/- The systems of these clients. -/
abbrev WarehouseSystem (τ : Type) :=
  System τ Db Lock Error (Option MovementResult)

/- A state that clients reach from a valid warehouse. -/
def WarehouseReachable
    (sha256 : Text → Text)
    (S : WarehouseSystem τ) : Prop :=
  System.Reachable Lock.modes (WarehouseClient sha256)
    (fun _ _ => True) warehouse.inv S

/- Steps of these clients. -/
abbrev WarehouseSteps
    (sha256 : Text → Text)
    (S S' : WarehouseSystem τ) : Prop :=
  System.Steps Lock.modes (WarehouseClient sha256)
    (fun _ _ => True) S S'

/- A request from its start to its end among the clients. -/
abbrev RequestExecutes
    (sha256 : Text → Text)
    (t : τ)
    (env : MovementEnv)
    (request : MovementRequest) :=
  System.Executes Lock.modes (WarehouseClient sha256)
    (fun _ _ => True) t (some <$> request.program env)

------------------------------------------------------------
-- A Repeated Call
------------------------------------------------------------

/- The key was used with a different payload. -/
def KeyRefused : Error :=
  inventoryConflictError
    ("idempotency key was already used " ++
      "with a different payload")
    "idempotency_payload_conflict"

/- Movements with the same actor and key are the same. -/
theorem JournalValid.eq_of_key
    {db : Db}
    (h : JournalValid db)
    {m m' : Movement}
    (hm : m ∈ db.movements)
    (hm' : m' ∈ db.movements)
    (hActor : m.actorUserId = m'.actorUserId)
    (hKey : m.clientRequestId = m'.clientRequestId) :
    m = m' :=
  List.inj_on_of_nodup_map h.keys hm hm'
    (Prod.ext hActor hKey)

/-
  How a repeated call ends: with the movement that has the
  key, or refused, and without a write.
-/
def RepeatPost
    (m : Movement)
    (lines : List MovementLine)
    (fingerprint : Text) :
    Post Db Lock Error MovementResult :=
  fun r _ own _ =>
    (m.requestFingerprint = fingerprint ∧
      r = .ok ⟨⟨m, lines⟩, true⟩ ∧ own = id) ∨
    (m.requestFingerprint ≠ fingerprint ∧
      r = .error KeyRefused)

section Repeat

variable {D : Discipline Db Lock}
variable {s s' : Db}
variable {held : List Lock}
variable {env : MovementEnv}
variable {call : MovementCall}
variable {m : Movement}

/- A call whose arguments pass and whose key is taken. -/
structure Repeats
    (call : MovementCall)
    (m : Movement)
    (s : Db) : Prop where
  arguments : checkCustodyArguments call.payload
    call.actorUserId call.custodyUserId = .ok ()
  named : normalizeInlineText call.payload.clientRequestId
    "client_request_id" 128 =
      .ok (normalizeIdempotencyKey
        call.payload.clientRequestId)
  mem : m ∈ s.movements
  key : HasKey call.actorUserId (normalizeIdempotencyKey
    call.payload.clientRequestId) m

theorem Repeats.stable
    (hD : Governs D)
    (h : Repeats call m s)
    (hReach : D.Reach held s s') :
    Repeats call m s' :=
  ⟨h.arguments, h.named,
    (hD.appends hReach).movements m h.mem, h.key⟩

/- A repeated call finds its movement and writes nothing. -/
theorem wlp_repeated
    (hD : Governs D)
    (h : Repeats call m s) :
    (transaction (createMovementUnchecked env call)).wlp D
      (RepeatPost m (s.linesOf m.id) (fingerprintOf env call
        (normalizeIdempotencyKey
          call.payload.clientRequestId))) held id s := by
  simp only [transaction, createMovementUnchecked,
    bind_assoc]
  apply Txn.wlp_ofExcept
  · intro e hArguments
    rw [h.arguments] at hArguments
    cases hArguments
  intro _ _
  apply Txn.wlp_ofExcept
  · intro e hName
    rw [h.named] at hName
    cases hName
  intro requestId hName
  rw [h.named] at hName
  cases hName
  apply Txn.wlp_acquire
  intro s₁ h₁
  simp only [existingIdempotentResult, bind_assoc]
  apply Txn.wlp_query
  intro s₂ h₂
  have hTo₂ := Discipline.reach_of_cons h₁ h₂
  have hRepeats₂ := h.stable hD hTo₂
  have hJournal := (hD.valid h₂.inv).journal
  split
  · rename_i hFound
    rw [List.find?_eq_none] at hFound
    exact absurd (by simpa [HasKey] using h.key)
      (hFound m hRepeats₂.mem)
  · rename_i m' hFound
    have hKey' : HasKey call.actorUserId
        (normalizeIdempotencyKey
          call.payload.clientRequestId) m' := by
      simpa [HasKey] using List.find?_some hFound
    have hSame : m' = m :=
      hJournal.eq_of_key (List.mem_of_find?_eq_some hFound)
        hRepeats₂.mem (hKey'.1.trans h.key.1.symm)
        (hKey'.2.trans h.key.2.symm)
    subst hSame
    simp only [bind_assoc]
    apply Txn.wlp_query
    intro s₃ h₃
    have hLines : s₃.linesOf m'.id = s.linesOf m'.id :=
      ((hD.appends h₃).lines m' hRepeats₂.mem).trans
        ((hD.appends hTo₂).lines m' h.mem)
    apply Txn.wlp_require
    · intro hNot s₄ _
      exact Or.inr ⟨hNot, rfl⟩
    intro hFingerprint
    simp only [pure_bind]
    apply wlp_checkLineCount_replayed
    apply Txn.wlp_pure
    intro s₄ _
    exact Or.inl ⟨hFingerprint, by rw [id, hLines], rfl⟩

/- The repeated request, of either kind. -/
theorem wlp_repeatedRequest
    (hD : Governs D)
    {request : MovementRequest}
    (hCall : request.CallIn s call)
    (h : Repeats call m s) :
    (request.program env).wlp D
      (RepeatPost m (s.linesOf m.id) (fingerprintOf env call
        (normalizeIdempotencyKey
          call.payload.clientRequestId))) held id s := by
  cases request with
  | create call' =>
      rcases hCall with ⟨rfl, hType⟩
      simp only [MovementRequest.program, createMovement,
        if_neg hType]
      exact wlp_repeated hD h
  | reverse o payload actor name =>
      rcases hCall with ⟨original, hFind, hCall⟩
      simp only [MovementRequest.program, transaction,
        reverseMovement, getMovementRecord, bind_assoc,
        pure_bind]
      apply Txn.wlp_query
      intro s₁ h₁
      have hFind₁ := hD.find_stable h₁ hFind
      rw [id, hFind₁]
      apply Txn.wlp_getOrFail
      · rintro ⟨⟩
      rintro _ ⟨⟩
      apply Txn.wlp_query
      intro s₂ h₂
      have hTo₂ := h₁.trans h₂
      rw [id, hD.lines_stable hTo₂ hFind]
      apply Txn.wlp_getOrFail
      · intro hNone
        rw [hCall] at hNone
        cases hNone
      intro call' hCall'
      rw [hCall] at hCall'
      cases hCall'
      have hRepeated :
          (transaction (createMovementUnchecked env call)).wlp D
            _ held id s₂ :=
        wlp_repeated hD (h.stable hD hTo₂)
      rw [(hD.appends hTo₂).lines m h.mem] at hRepeated
      exact hRepeated

end Repeat

------------------------------------------------------------
-- The First Call
------------------------------------------------------------

/- The movement was created by this call. -/
structure CreatedBy
    (env : MovementEnv)
    (call : MovementCall)
    (record : MovementRecord)
    (s : Db) : Prop where
  mem : record.movement ∈ s.movements
  lines : s.linesOf record.movement.id = record.lines
  key : HasKey call.actorUserId (normalizeIdempotencyKey
    call.payload.clientRequestId) record.movement
  fingerprint : record.movement.requestFingerprint =
    fingerprintOf env call (normalizeIdempotencyKey
      call.payload.clientRequestId)
  distinct :
    (call.payload.lines.map MovementLineCreate.itemId).Nodup
  named : normalizeInlineText call.payload.clientRequestId
    "client_request_id" 128 =
      .ok (normalizeIdempotencyKey
        call.payload.clientRequestId)

theorem CreatedBy.later
    {env : MovementEnv}
    {call : MovementCall}
    {record : MovementRecord}
    {s s' : Db}
    (h : CreatedBy env call record s)
    (hAppends : Appends s s') :
    CreatedBy env call record s' where
  mem := hAppends.movements _ h.mem
  lines := (hAppends.lines _ h.mem).trans h.lines
  key := h.key
  fingerprint := h.fingerprint
  distinct := h.distinct
  named := h.named

/- What was written is in the journal. -/
theorem Written.createdBy
    {env : MovementEnv}
    {call : MovementCall}
    {prepared : Prepared}
    {m : Movement}
    {rows : List MovementLine}
    {ws : List BalanceWrite}
    {held : List Lock}
    {s : Db}
    (hValid : WarehouseValid s)
    (h : Written env call (normalizeIdempotencyKey
      call.payload.clientRequestId) prepared m rows ws held
      s) :
    CreatedBy env call ⟨m, rows⟩ (bookedWith m rows ws s) where
  mem := by
    rw [movements_bookedWith]
    exact List.mem_append_right _ (List.mem_singleton_self m)
  lines := by
    rw [bookedWith, BalanceWrite.linesOf_applyAll]
    exact Db.linesOf_withMovement_self hValid.journal
      h.booked.admissible.freshId
      h.booked.admissible.rows.header
  key := by
    rcases h.booked.row with ⟨_, rfl⟩
    exact ⟨rfl, rfl⟩
  fingerprint := by
    rcases h.booked.row with ⟨_, rfl⟩
    rfl
  distinct := h.booked.placed.ready.distinct
  named := h.booked.placed.ready.named

/- A request that commits a new movement has created it. -/
theorem created_once
    {sha256 : Text → Text}
    {S S₁ S₂ : WarehouseSystem τ}
    (hReach : WarehouseReachable sha256 S)
    {t : τ}
    {env : MovementEnv}
    {request : MovementRequest}
    {record : MovementRecord}
    (hExec : RequestExecutes sha256 t env request
      (.ok (some ⟨record, false⟩)) S S₁ S₂)
    {call : MovementCall}
    (hCall : request.CallIn S₂.committed call) :
    CreatedBy env call record S₂.committed := by
  have hInv : warehouse.SystemInv (fun _ _ => True)
      (fun _ _ _ => True) S :=
    Discipline.systemInv_of_reachable
      (fun _ h => warehouseClient_safe h) (fun _ h => h)
      hReach
  have hWlp : (some <$> request.program env).wlp warehouse
      (fun r held own s => ∃ r', r = r'.map some ∧
        RequestPost warehouse S.committed env request r' held
          own s) [] id S.committed :=
    Txn.wlp_map (Txn.wlp_imp
      (fun r _ _ _ _ h => ⟨r, rfl, h⟩)
      (wlp_request governs_warehouse hInv.inv env request))
  rcases Discipline.outcome_of_wlp
      (fun _ h => warehouseClient_safe h) hInv hExec hWlp with
    ⟨held, own, ⟨r', hResult, hPost⟩, hCommitted⟩
  cases r' with
  | error e => cases hResult
  | ok result =>
      cases hResult
      rcases hPost with ⟨hReach₁, call', hCall', hOutcome⟩
      have hValid := hReach₁.inv.1
      cases hOutcome with
      | written hWritten =>
          change S₂.committed = bookedWith _ _ _ _
            at hCommitted
          rw [hCommitted] at hCall ⊢
          have hLater := hCall'.later
            (hWritten.valid hValid).journal
            (hWritten.appends hValid)
          rw [hCall.unique hLater]
          exact hWritten.createdBy hValid

------------------------------------------------------------
-- Later Calls
------------------------------------------------------------

theorem normalizeInlineText_congr
    {value value' : Text}
    (h : normalizeIdempotencyKey value =
      normalizeIdempotencyKey value')
    (field : String)
    (maxLength : Nat) :
    normalizeInlineText value field maxLength =
      normalizeInlineText value' field maxLength := by
  unfold normalizeInlineText
  rw [h]

/- Fingerprints agree exactly for calls of the same form. -/
theorem fingerprint_eq_iff
    {env env' : MovementEnv}
    {call call' : MovementCall}
    (hSha : Function.Injective env.sha256)
    (hSame : env'.sha256 = env.sha256)
    (hDistinct :
      (call.payload.lines.map
        MovementLineCreate.itemId).Nodup) :
    fingerprintOf env call (normalizeIdempotencyKey
        call.payload.clientRequestId) =
      fingerprintOf env' call' (normalizeIdempotencyKey
        call'.payload.clientRequestId) ↔
    call.payload.SameForm call'.payload call.custodyUserId
      call'.custodyUserId := by
  unfold fingerprintOf
  rw [hSame, (canonicalFingerprint_injective hSha).eq_iff]
  exact MovementCreate.canonical_eq_iff hDistinct

/- How a later call with the key of a movement ends. -/
theorem repeated_call
    {sha256 : Text → Text}
    (hSha : Function.Injective sha256)
    {S S₁ S₂ : WarehouseSystem τ}
    (hReach : WarehouseReachable sha256 S)
    {env₀ env : MovementEnv}
    (hSha₀ : env₀.sha256 = sha256)
    (hShaEnv : env.sha256 = sha256)
    {call₀ call : MovementCall}
    {record : MovementRecord}
    (hCreated : CreatedBy env₀ call₀ record S.committed)
    {t : τ}
    {request : MovementRequest}
    {result : Except Error (Option MovementResult)}
    (hExec : RequestExecutes sha256 t env request result
      S S₁ S₂)
    (hCall : request.CallIn S.committed call)
    (hActor : call.actorUserId = call₀.actorUserId)
    (hKey : normalizeIdempotencyKey
        call.payload.clientRequestId =
      normalizeIdempotencyKey call₀.payload.clientRequestId)
    (hArguments : checkCustodyArguments call.payload
      call.actorUserId call.custodyUserId = .ok ()) :
    S₂.committed = S₁.committed ∧
    (call₀.payload.SameForm call.payload call₀.custodyUserId
      call.custodyUserId →
      result = .ok (some ⟨record, true⟩)) ∧
    (¬ call₀.payload.SameForm call.payload
      call₀.custodyUserId call.custodyUserId →
      result = .error KeyRefused) := by
  have hInv : warehouse.SystemInv (fun _ _ => True)
      (fun _ _ _ => True) S :=
    Discipline.systemInv_of_reachable
      (fun _ h => warehouseClient_safe h) (fun _ h => h)
      hReach
  have hRepeats : Repeats call record.movement S.committed := by
    refine ⟨hArguments, ?_, hCreated.mem, ?_⟩
    · rw [normalizeInlineText_congr hKey, hKey]
      exact hCreated.named
    · rw [hActor, hKey]
      exact hCreated.key
  have hWlp : (some <$> request.program env).wlp warehouse
      (fun r held own s => ∃ r', r = r'.map some ∧
        RepeatPost record.movement
          (S.committed.linesOf record.movement.id)
          (fingerprintOf env call (normalizeIdempotencyKey
            call.payload.clientRequestId)) r' held own s)
      [] id S.committed :=
    Txn.wlp_map (Txn.wlp_imp
      (fun r _ _ _ _ h => ⟨r, rfl, h⟩)
      (wlp_repeatedRequest governs_warehouse hCall hRepeats))
  have hForm := @fingerprint_eq_iff env₀ env call₀ call
    (hSha₀ ▸ hSha) (hShaEnv.trans hSha₀.symm)
    hCreated.distinct
  rw [← hCreated.fingerprint] at hForm
  rcases Discipline.outcome_of_wlp
      (fun _ h => warehouseClient_safe h) hInv hExec hWlp with
    ⟨held, own, ⟨r', hResult, hPost⟩, hCommitted⟩
  rcases hPost with ⟨hSame, hEnd, hOwn⟩ | ⟨hDiffers, hEnd⟩
  · rw [hEnd, hCreated.lines] at hResult
    refine ⟨?_, fun _ => hResult,
      fun hNot => absurd (hForm.mp hSame) hNot⟩
    rw [hCommitted, hResult, hOwn]
    rfl
  · rw [hEnd] at hResult
    refine ⟨?_, fun hSame => absurd (hForm.mpr hSame) hDiffers,
      fun _ => hResult⟩
    rw [hCommitted, hResult]
    rfl

/-
  However clients are interleaved, an actor has one movement
  for a key. Once it is committed, every later call of the
  actor with the key, past the checks of its arguments, is
  answered with that movement when it has the same form, and
  refused when it has not, and changes nothing, whatever was
  committed in between. No call that fails changes anything.
-/
theorem movements_created_exactly_once
    {sha256 : Text → Text}
    (hSha : Function.Injective sha256)
    {S : WarehouseSystem τ}
    (hReach : WarehouseReachable sha256 S) :
    (∀ m ∈ S.committed.movements,
      ∀ m' ∈ S.committed.movements,
        m.actorUserId = m'.actorUserId →
        m.clientRequestId = m'.clientRequestId → m = m') ∧
    (∀ t₀ env₀ request₀ record S₁ S₂ call₀,
      env₀.sha256 = sha256 →
      RequestExecutes sha256 t₀ env₀ request₀
        (.ok (some ⟨record, false⟩)) S S₁ S₂ →
      request₀.CallIn S₂.committed call₀ →
      ∀ S₃, WarehouseSteps sha256 S₂ S₃ →
      ∀ t env request result S₄ S₅ call,
        env.sha256 = sha256 →
        RequestExecutes sha256 t env request result S₃ S₄
          S₅ →
        request.CallIn S₃.committed call →
        call.actorUserId = call₀.actorUserId →
        normalizeIdempotencyKey
            call.payload.clientRequestId =
          normalizeIdempotencyKey
            call₀.payload.clientRequestId →
        checkCustodyArguments call.payload call.actorUserId
          call.custodyUserId = .ok () →
        S₅.committed = S₄.committed ∧
        (call₀.payload.SameForm call.payload
          call₀.custodyUserId call.custodyUserId →
          result = .ok (some ⟨record, true⟩)) ∧
        (¬ call₀.payload.SameForm call.payload
          call₀.custodyUserId call.custodyUserId →
          result = .error KeyRefused)) ∧
    ∀ t env request e S₁ S₂,
      RequestExecutes sha256 t env request (.error e) S S₁
        S₂ →
      S₂.committed = S₁.committed := by
  have hInv : warehouse.SystemInv (fun _ _ => True)
      (fun _ _ _ => True) S :=
    Discipline.systemInv_of_reachable
      (fun _ h => warehouseClient_safe h) (fun _ h => h)
      hReach
  refine ⟨?_, ?_, ?_⟩
  · intro m hm m' hm'
    exact hInv.inv.1.journal.eq_of_key hm hm'
  · intro t₀ env₀ request₀ record S₁ S₂ call₀ hSha₀ hExec₀
      hCall₀ S₃ hSteps t env request result S₄ S₅ call hShaEnv
      hExec hCall hActor hKey hArguments
    have hReach₂ : WarehouseReachable sha256 S₂ :=
      hReach.steps hExec₀.steps
    have hReach₃ : WarehouseReachable sha256 S₃ :=
      hReach₂.steps hSteps
    have hCreated₂ := created_once hReach hExec₀ hCall₀
    have hAppends :=
      (((Discipline.systemInv_of_reachable
        (fun _ h => warehouseClient_safe h) (fun _ h => h)
        hReach₂).reach_of_steps
          (fun _ h => warehouseClient_safe h) hSteps).always)
    exact repeated_call hSha hReach₃ hSha₀ hShaEnv
      (hCreated₂.later hAppends) hExec hCall hActor hKey
      hArguments
  · intro t env request e S₁ S₂ hExec
    cases hExec.finish with
    | abort hActive => rfl

------------------------------------------------------------
-- Calls One After The Other
------------------------------------------------------------

/- A request that commits alone commits in a quiet system. -/
theorem request_executes
    (t : τ)
    {db db' : Db}
    {env : MovementEnv}
    {request : MovementRequest}
    {result : MovementResult}
    (hRun : (request.program env).run db =
      .ok (result, db')) :
    ∃ S₁, RequestExecutes env.sha256 t env request
      (.ok (some result)) (System.initial db) S₁
      (System.initial db') := by
  have hProgram : WarehouseClient env.sha256
      (some <$> request.program env) :=
    Or.inl ⟨env, request, rfl, rfl⟩
  have hMapped : (some <$> request.program env).run
      (System.initial db : WarehouseSystem τ).committed =
        .ok (some result, db') := by
    rw [Txn.run_map]
    change (Except.map _ ((request.program env).run db)) = _
    rw [hRun]
    rfl
  have hExec : ∃ S₁ : WarehouseSystem τ,
      S₁.committed = db ∧ RequestExecutes env.sha256 t env
        request (.ok (some result)) (System.initial db) S₁
        (System.initial db') :=
    System.executes_of_run (fun _ => rfl) t hProgram hMapped
      trivial
  rcases hExec with ⟨S₁, _, hExec⟩
  exact ⟨S₁, hExec⟩

/- A request that fails alone fails in a quiet system. -/
theorem request_executes_error
    (t : τ)
    {db : Db}
    {env : MovementEnv}
    {request : MovementRequest}
    {e : Error}
    (hRun : (request.program env).run db = .error e) :
    ∃ S₁, RequestExecutes env.sha256 t env request (.error e)
      (System.initial db) S₁ (System.initial db) := by
  have hProgram : WarehouseClient env.sha256
      (some <$> request.program env) :=
    Or.inl ⟨env, request, rfl, rfl⟩
  have hMapped : (some <$> request.program env).run
      (System.initial db : WarehouseSystem τ).committed =
        .error e := by
    rw [Txn.run_map]
    change (Except.map _ ((request.program env).run db)) = _
    rw [hRun]
    rfl
  exact System.executes_of_run_error (fun _ => rfl) t
    hProgram hMapped

------------------------------------------------------------
-- The First Receipt Again
------------------------------------------------------------

namespace FirstReceipt

def record : MovementRecord :=
  ⟨movementRow env call "first key".toList
    "Storekeeper".toList [location],
    [⟨⟨4⟩, 1, item.id, 5, item.name, none, none⟩]⟩

/- No transaction is in progress. -/
def quiet (db : Db) : WarehouseSystem Unit :=
  System.initial db

/- A reversal by the endpoint that takes none. -/
def reversalTypeCall : MovementCall :=
  { call with
    payload := { call.payload with
      movementType := .reversal } }

theorem start_inv : warehouse.inv start := by
  refine ⟨start_empty.valid, ?_, ?_⟩
  · rintro o ⟨r, hr, _⟩
    cases hr
  · rintro o ⟨r, hr, _⟩
    cases hr

theorem start_reachable :
    WarehouseReachable id (quiet start) :=
  ⟨start, start_inv, .refl⟩

/- The receipt is committed. -/
theorem receipt_executes :
    ∃ S₁, RequestExecutes id () env (.create call)
      (.ok (some ⟨record, false⟩)) (quiet start) S₁
      (quiet received) := by
  have hRun : ((MovementRequest.create call).program env).run
      start = .ok (⟨record, false⟩, received) := by rfl
  exact request_executes () hRun

end FirstReceipt

set_option maxRecDepth 4000 in
/- The receipt is asked for again, and answered. -/
theorem movements_created_exactly_once_receipt :
    ∃ S₄ S₅ result,
      RequestExecutes id () FirstReceipt.env
        (.create FirstReceipt.call) result
        (FirstReceipt.quiet FirstReceipt.received) S₄ S₅ ∧
      S₅.committed = S₄.committed ∧
      result = .ok (some ⟨FirstReceipt.record, true⟩) := by
  have hRun : ((MovementRequest.create
      FirstReceipt.call).program FirstReceipt.env).run
        FirstReceipt.received =
      .ok (⟨FirstReceipt.record, true⟩,
        FirstReceipt.received) := by rfl
  rcases FirstReceipt.receipt_executes with ⟨S₁, hFirst⟩
  rcases request_executes () hRun with ⟨S₄, hExec⟩
  have hAll := (movements_created_exactly_once
    (fun _ _ h => h) FirstReceipt.start_reachable).2.1 ()
    FirstReceipt.env (.create FirstReceipt.call)
    FirstReceipt.record S₁ _ FirstReceipt.call rfl hFirst
    ⟨rfl, by decide⟩ _ .refl () FirstReceipt.env
    (.create FirstReceipt.call) _ S₄ _
    FirstReceipt.call rfl hExec ⟨rfl, by decide⟩ rfl rfl
    (by decide)
  refine ⟨S₄, _, _, hExec, hAll.1, hAll.2.1 ?_⟩
  exact ⟨rfl, rfl, rfl, rfl, rfl, rfl, .refl _⟩

/-
  A later call with the key that is neither answered nor
  refused for its key: `create_movement` refuses its type.
-/
theorem reversal_type_not_refused_for_key :
    ∃ S₁ S₄ result,
      RequestExecutes id () FirstReceipt.env
        (.create FirstReceipt.call)
        (.ok (some ⟨FirstReceipt.record, false⟩))
        (FirstReceipt.quiet FirstReceipt.start) S₁
        (FirstReceipt.quiet FirstReceipt.received) ∧
      RequestExecutes id () FirstReceipt.env
        (.create FirstReceipt.reversalTypeCall) result
        (FirstReceipt.quiet FirstReceipt.received) S₄
        (FirstReceipt.quiet FirstReceipt.received) ∧
      FirstReceipt.reversalTypeCall.actorUserId =
        FirstReceipt.call.actorUserId ∧
      FirstReceipt.reversalTypeCall.payload.clientRequestId =
        FirstReceipt.call.payload.clientRequestId ∧
      ¬ FirstReceipt.call.payload.SameForm
        FirstReceipt.reversalTypeCall.payload none none ∧
      result ≠ .error KeyRefused ∧
      ∀ r, result ≠ .ok r := by
  rcases FirstReceipt.receipt_executes with ⟨S₁, hFirst⟩
  have hRun : ((MovementRequest.create
      FirstReceipt.reversalTypeCall).program
        FirstReceipt.env).run FirstReceipt.received =
      .error (inventoryValidationError
        "use the reversal endpoint"
        "inventory_validation_error") := by rfl
  rcases request_executes_error () hRun with ⟨S₄, hSecond⟩
  refine ⟨S₁, S₄, _, hFirst, hSecond, rfl, rfl, ?_, ?_, ?_⟩
  · intro hForm
    exact absurd hForm.movementType (by decide)
  · intro hEq
    simp [KeyRefused, inventoryValidationError,
      inventoryConflictError] at hEq
  · rintro r ⟨⟩
