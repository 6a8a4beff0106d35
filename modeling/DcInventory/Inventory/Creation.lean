import DcInventory.Inventory.Writing

/-
  This file proves what a call of `create_movement` or
  `reverse_movement` commits: a movement booked with its
  balances, or the movement that has its key already.

  Key definitions include:
    * `Written`
    * `Replays`
    * `Outcome`
    * `RequestPost`

  Key theorems include:
    * `Written.valid`
    * `wlp_createMovement`
    * `wlp_reverseMovement`
    * `wlp_request`
-/

variable {α : Type}

section Create

variable {D : Discipline Db Lock}
variable {s₀ s s' : Db}
variable {held held' : List Lock}
variable {own : Db → Db}
variable {Q : Post Db Lock Error α}
variable {env : MovementEnv}
variable {call : MovementCall}
variable {requestId : Text}
variable {prepared : Prepared}
variable {rows : List MovementLine}
variable {m : Movement}
variable {ws : List BalanceWrite}

/- The movement is booked and its balances are refreshed. -/
structure Written
    (env : MovementEnv)
    (call : MovementCall)
    (requestId : Text)
    (prepared : Prepared)
    (m : Movement)
    (rows : List MovementLine)
    (ws : List BalanceWrite)
    (held : List Lock)
    (s : Db) : Prop where
  booked : Booked env call requestId prepared m rows held s
  refreshed : Refreshed s m rows ws
  covers : Covers m rows ws

theorem Written.stable
    (hD : Governs D)
    (hInv : D.inv s)
    (h : Written env call requestId prepared m rows ws held s)
    (hReach : D.Reach held s s')
    (hSub : ∀ k ∈ held, k ∈ held') :
    Written env call requestId prepared m rows ws held' s' :=
  ⟨h.booked.stable hD hReach hSub,
    h.booked.refreshed_stable hD hInv h.refreshed hReach,
    h.covers⟩

/- What is committed is valid again. -/
theorem Written.valid
    (h : Written env call requestId prepared m rows ws held s)
    (hValid : WarehouseValid s) :
    WarehouseValid (bookedWith m rows ws s) where
  journal := by
    have hJournal := hValid.journal.withMovement
      h.booked.admissible
    rw [bookedWith, BalanceWrite.applyAll_eq]
    exact ⟨hJournal.ids, hJournal.keys, hJournal.headers,
      hJournal.shapes, hJournal.lines, hJournal.links,
      hJournal.reversals⟩
  balances := hValid.balances.refresh hValid.journal
    h.booked.admissible h.refreshed h.covers

------------------------------------------------------------
-- Errors Of The Service
------------------------------------------------------------

theorem normalizeInlineText_service
    {value : Text}
    {field : String}
    {maxLength : Nat}
    {e : Error}
    (h : normalizeInlineText value field maxLength =
      .error e) :
    ∀ g, e ≠ .database g := by
  rintro g rfl
  unfold normalizeInlineText at h
  simp only [inventoryValidationError] at h
  split at h
  · cases h
  · split at h <;> cases h

theorem checkQuantity_service
    {quantity : Int}
    {message code : String}
    {e : Error}
    (h : checkQuantity quantity message code = .error e) :
    ∀ g, e ≠ .database g := by
  rintro g rfl
  unfold checkQuantity inventoryConflictError at h
  split at h
  · cases h
  · split at h <;> cases h

/- The checks of the loop are the service's own. -/
theorem checkLine_service
    {payload : MovementCreate}
    {custodyUserId : Option Uuid}
    {original : Option MovementRecord}
    {balances : Balances}
    {line : MovementLineCreate}
    {e : Error}
    (h : checkLine payload custodyUserId original balances
      line = .error e) :
    ∀ g, e ≠ .database g := by
  have hPosition : ∀ {delta position e},
      checkPosition balances line delta position = .error e →
        ∀ g, e ≠ .database g := by
    intro delta position e hCheck
    cases position with
    | none => cases hCheck
    | some location => exact checkQuantity_service hCheck
  have hCustody : ∀ {delta e},
      checkCustody balances line delta custodyUserId =
        .error e → ∀ g, e ≠ .database g := by
    intro delta e hCheck
    unfold checkCustody at hCheck
    split at hCheck
    · exact checkQuantity_service hCheck
    · cases hCheck
  unfold checkLine at h
  cases hSource : checkPosition balances line (-line.quantity)
      payload.sourceLocationId with
  | error e' =>
      rw [hSource] at h
      cases h
      exact hPosition hSource
  | ok _ =>
  rw [hSource] at h
  cases hDestination : checkPosition balances line
      line.quantity payload.destinationLocationId with
  | error e' =>
      rw [hDestination] at h
      cases h
      exact hPosition hDestination
  | ok _ =>
      rw [hDestination] at h
      exact hCustody h

theorem quantityLoop_service
    {payload : MovementCreate}
    {custodyUserId : Option Uuid}
    {original : Option MovementRecord}
    {items : List Item}
    {balances : Balances}
    {movementId : Uuid}
    {number : Nat}
    {lines : List MovementLineCreate}
    {e : Error}
    (h : quantityLoop payload custodyUserId original items
      balances movementId number lines = .error e) :
    ∀ g, e ≠ .database g := by
  induction lines generalizing number with
  | nil => cases h
  | cons line rest ih =>
      unfold quantityLoop at h
      cases hCheck : checkLine payload custodyUserId original
          balances line with
      | error e' =>
          rw [hCheck] at h
          cases h
          exact checkLine_service hCheck
      | ok _ =>
      rw [hCheck] at h
      cases hRow : movementLineRow movementId items balances
          number line with
      | error e' =>
          simp only [hRow, Bind.bind, Except.bind] at h
          cases h
          unfold movementLineRow at hRow
          split at hRow
          · cases hRow
            rintro g ⟨⟩
          · cases hRow
      | ok row =>
      cases hRest : quantityLoop payload custodyUserId
          original items balances movementId (number + 1)
          rest with
      | error e' =>
          simp only [hRow, hRest, Bind.bind, Except.bind] at h
          cases h
          exact ih hRest
      | ok rows =>
          simp only [hRow, hRest, Bind.bind, Except.bind] at h
          cases h

------------------------------------------------------------
-- Writing
------------------------------------------------------------

/- The rows are written and the balances refreshed. -/
theorem wlp_writeMovement
    {f : MovementRecord → Op α}
    (hD : Governs D)
    (hAllowed : Allowed D s₀ env call Q)
    (hStart : D.Reach [] s₀ s)
    (hCall : CallOk call)
    (hMirror : MirrorsCommitted call s)
    (hReady : Ready call requestId prepared held s)
    (hSeen : Seen D s₀ env.session call prepared.original)
    (hOk : ∀ m rows ws held' s', D.Reach held s s' →
      (∀ k ∈ held, k ∈ held') →
      Written env call requestId prepared m rows ws held'
        s' →
      (f ⟨m, rows⟩).wlp D Q held' (bookedWith m rows ws) s') :
    (writeMovement env call requestId prepared >>= f).wlp D Q
      held id s := by
  simp only [writeMovement, bind_assoc, pure_bind]
  apply Txn.wlp_ofExcept
  · intro e hName
    exact hAllowed.quiet.service hStart
      (normalizeInlineText_service hName)
  intro actorSnapshot _
  apply wlp_insertMovement hD hAllowed hStart hCall hMirror
    hReady hSeen
  intro held₁ s₁ h₁ hSub₁ hPlaced₁
  have hStart₁ : D.Reach [] s₀ s₁ :=
    hStart.trans (h₁.weaken (by simp))
  apply Txn.wlp_ofExcept
  · intro e hLoop
    exact hAllowed.quiet.service hStart₁
      (quantityLoop_service hLoop)
  intro rows hLoop
  have hRows : RowsOk env call prepared ([] ++ rows) :=
    quantityLoop_ok hLoop
  have hRow : IsRowOf env call requestId prepared
      (movementRow env call requestId actorSnapshot
        prepared.locations) := ⟨actorSnapshot, rfl⟩
  apply wlp_insertMovementLines hD hPlaced₁ hRow
    hRows h₁.inv
  intro s₂ h₂ hPlaced₂
  rw [List.nil_append]
  have hStart₂ : D.Reach [] s₀ s₂ :=
    hStart₁.trans (h₂.weaken (by simp))
  have hTo₂ := h₁.trans (h₂.weaken hSub₁)
  have hBooked₂ : Booked env call requestId prepared
      (movementRow env call requestId actorSnapshot
        prepared.locations) rows held₁ s₂ :=
    ⟨hCall, hPlaced₂, hRow, hRows⟩
  have hNone : Refreshed s₂ (movementRow env call requestId
      actorSnapshot prepared.locations) rows [] :=
    ⟨by simp, by simp, by simp⟩
  have hEmpty : Covers (movementRow env call requestId
      actorSnapshot prepared.locations) [] [] :=
    ⟨by simp, by simp⟩
  apply wlp_refreshLines hD hAllowed hStart₂ hSeen hBooked₂
    hNone hEmpty (List.nil_append rows).symm
  intro ws held₃ s₃ h₃ hSub₃ hRefreshed₃ hCovers₃
  exact hOk _ rows ws held₃ s₃
    (hTo₂.trans (h₃.weaken hSub₁))
    (fun k hk => hSub₃ k (hSub₁ k hk))
    ⟨hBooked₂.stable hD h₃ hSub₃, hRefreshed₃, hCovers₃⟩

------------------------------------------------------------
-- Creating
------------------------------------------------------------

theorem normalizeInlineText_ok
    {value normalized : Text}
    {field : String}
    {maxLength : Nat}
    (h : normalizeInlineText value field maxLength =
      .ok normalized) :
    normalized = normalizeIdempotencyKey value := by
  unfold normalizeInlineText at h
  simp only at h
  split at h
  · cases h
  · split at h
    · cases h
    · cases h
      rfl

/- A committed movement has the key and the fingerprint. -/
structure Replays
    (env : MovementEnv)
    (call : MovementCall)
    (m : Movement)
    (s : Db) : Prop where
  mem : m ∈ s.movements
  key : HasKey call.actorUserId
    (normalizeIdempotencyKey call.payload.clientRequestId) m
  fingerprint : m.requestFingerprint = fingerprintOf env call
    (normalizeIdempotencyKey call.payload.clientRequestId)

/- A call writes its movement or returns the one there is. -/
theorem wlp_createMovementUnchecked
    {f : MovementResult → Op α}
    (hD : Governs D)
    (hAllowed : Allowed D s₀ env call Q)
    (hStart : D.Reach [] s₀ s)
    (hMirror : MirrorsCommitted call s)
    (hOk : ∀ prepared m rows ws held' s', D.Reach held s s' →
      (∀ k ∈ held, k ∈ held') →
      Written env call (normalizeIdempotencyKey
        call.payload.clientRequestId) prepared m rows ws held'
        s' →
      (f ⟨⟨m, rows⟩, false⟩).wlp D Q held'
        (bookedWith m rows ws) s')
    (hReplay : ∀ m held' s', D.Reach held s s' →
      (∀ k ∈ held, k ∈ held') →
      Replays env call m s' →
      (f ⟨⟨m, s'.linesOf m.id⟩, true⟩).wlp D Q held' id s') :
    (createMovementUnchecked env call >>= f).wlp D Q held id
      s := by
  simp only [createMovementUnchecked, bind_assoc]
  apply Txn.wlp_ofExcept
  · intro e hArguments
    apply hAllowed.quiet.service hStart
    rintro g rfl
    unfold checkCustodyArguments at hArguments
    split at hArguments
    · cases hArguments
    split at hArguments
    · cases hArguments
    split at hArguments <;> cases hArguments
  intro _ hArguments
  apply Txn.wlp_ofExcept
  · intro e hName
    exact hAllowed.quiet.service hStart
      (normalizeInlineText_service hName)
  intro requestId hName
  cases normalizeInlineText_ok hName
  apply Txn.wlp_acquire
  intro s₁ h₁
  simp only [existingIdempotentResult, bind_assoc]
  apply Txn.wlp_query
  intro s₂ h₂
  have hTo₂ := Discipline.reach_of_cons h₁ h₂
  have hStart₂ : D.Reach [] s₀ s₂ :=
    hStart.trans (hTo₂.weaken (by simp))
  split
  · rename_i hFound
    rw [List.find?_eq_none] at hFound
    simp only [pure_bind]
    have hKey : ∀ m ∈ s₂.movements, ¬ HasKey call.actorUserId
        (normalizeIdempotencyKey
          call.payload.clientRequestId) m := by
      intro m hm hHas
      exact hFound m hm (by simpa [HasKey] using hHas)
    simp only [bind_assoc]
    apply wlp_prepareMovement hD hAllowed.quiet hStart₂ hName
      hKey
      List.mem_cons_self
    intro prepared held₃ s₃ h₃ hSub₃ hReady₃ hSeen
    have hTo₃ := hTo₂.trans (h₃.weaken
      fun k hk => List.mem_cons_of_mem _ hk)
    have hStart₃ : D.Reach [] s₀ s₃ :=
      hStart₂.trans (h₃.weaken (by simp))
    apply wlp_writeMovement hD hAllowed hStart₃
      ⟨hArguments, hReady₃.positions⟩
      (hMirror.stable hD hTo₃) hReady₃ hSeen
    intro m rows ws held₄ s₄ h₄ hSub₄ hWritten
    rw [pure_bind]
    have hSub₀ : ∀ k ∈ held, k ∈ held₃ :=
      fun k hk => hSub₃ k (List.mem_cons_of_mem _ hk)
    exact hOk prepared m rows ws held₄ s₄
      (hTo₃.trans (h₄.weaken hSub₀))
      (fun k hk => hSub₄ k (hSub₀ k hk)) hWritten
  · rename_i m hFound
    have hMem : m ∈ s₂.movements :=
      List.mem_of_find?_eq_some hFound
    have hHas : HasKey call.actorUserId
        (normalizeIdempotencyKey
          call.payload.clientRequestId) m := by
      simpa [HasKey] using List.find?_some hFound
    simp only [bind_assoc]
    apply Txn.wlp_query
    intro s₃ h₃
    have hTo₃ := hTo₂.trans (h₃.weaken
      fun k hk => List.mem_cons_of_mem _ hk)
    have hStart₃ : D.Reach [] s₀ s₃ :=
      hStart₂.trans (h₃.weaken (by simp))
    apply Txn.wlp_require
    · intro _
      exact hAllowed.quiet.service hStart₃
        (by rintro g ⟨⟩)
    intro hFingerprint
    simp only [pure_bind]
    exact hReplay m _ s₃ hTo₃
      (fun k hk => List.mem_cons_of_mem _ hk)
      ⟨(hD.appends h₃).movements m hMem, hHas, hFingerprint⟩

/- `create_movement` refuses reversals and books the rest. -/
theorem wlp_createMovement
    {f : MovementResult → Op α}
    (hD : Governs D)
    (hAllowed : Allowed D s₀ env call Q)
    (hStart : D.Reach [] s₀ s)
    (hOk : ∀ prepared m rows ws held' s', D.Reach held s s' →
      (∀ k ∈ held, k ∈ held') →
      Written env call (normalizeIdempotencyKey
        call.payload.clientRequestId) prepared m rows ws held'
        s' →
      (f ⟨⟨m, rows⟩, false⟩).wlp D Q held'
        (bookedWith m rows ws) s')
    (hReplay : ∀ m held' s', D.Reach held s s' →
      (∀ k ∈ held, k ∈ held') →
      Replays env call m s' →
      (f ⟨⟨m, s'.linesOf m.id⟩, true⟩).wlp D Q held' id s') :
    (createMovement env call >>= f).wlp D Q held id s := by
  unfold createMovement
  split
  · apply Txn.wlp_fail
    exact hAllowed.quiet.service hStart (by rintro g ⟨⟩)
  · rename_i hType
    exact wlp_createMovementUnchecked hD hAllowed hStart
      (fun hReversal => absurd hReversal hType) hOk hReplay

------------------------------------------------------------
-- Reversing
------------------------------------------------------------

/- The call asks to reverse a committed movement. -/
def IsReversalOf
    (db : Db)
    (originalMovementId : Uuid)
    (payload : MovementReversalCreate)
    (actorUserId : Uuid)
    (actorDisplayName : Text)
    (call : MovementCall) : Prop :=
  ∃ m, db.findMovement originalMovementId = some m ∧
    reversalCall ⟨m, db.linesOf originalMovementId⟩ payload
      actorUserId actorDisplayName = some call

/- What a reversal asks for. -/
structure ReversalFields
    (m : Movement)
    (lines : List MovementLine)
    (payload : MovementReversalCreate)
    (actorUserId : Uuid)
    (call : MovementCall) : Prop where
  built : call.payload.BuiltFrom .reversal
    m.destinationLocationId m.sourceLocationId (some m.id)
    payload.clientRequestId (linePairs lines)
  actor : call.actorUserId = actorUserId
  custody : call.custodyUserId = m.custodyUserId

theorem reversalFields_of_reversalCall
    {lines : List MovementLine}
    {payload : MovementReversalCreate}
    {actorUserId : Uuid}
    {actorDisplayName : Text}
    (h : reversalCall ⟨m, lines⟩ payload actorUserId
      actorDisplayName = some call) :
    ReversalFields m lines payload actorUserId call := by
  unfold reversalCall at h
  rcases Option.map_eq_some_iff.mp h with ⟨p, hBuild, rfl⟩
  exact ⟨MovementCreate.builtFrom_of_build hBuild, rfl, rfl⟩

/- The call of a reversal is the mirror image. -/
theorem IsReversalOf.mirrors
    {originalMovementId : Uuid}
    {payload : MovementReversalCreate}
    {actorUserId : Uuid}
    {actorDisplayName : Text}
    (h : IsReversalOf s originalMovementId payload actorUserId
      actorDisplayName call) :
    MirrorsCommitted call s := by
  rcases h with ⟨m, hFind, hCall⟩
  have hId : m.id = originalMovementId :=
    Table.key_of_find hFind
  have hFields := reversalFields_of_reversalCall hCall
  intro _ o ho
  rw [hFields.built.original] at ho
  cases ho
  rw [hId]
  exact ⟨m, hFind, hFields.built.source,
    hFields.built.destination, hFields.built.lines⟩

/- `reverse_movement` books the mirror image. -/
theorem wlp_reverseMovement
    {f : MovementResult → Op α}
    {originalMovementId : Uuid}
    {payload : MovementReversalCreate}
    {actorUserId : Uuid}
    {actorDisplayName : Text}
    (hD : Governs D)
    (hQuiet : Quiet D s₀ Q)
    (hStart : D.Reach [] s₀ s)
    (hAllowed : ∀ call s', D.Reach held s s' →
      IsReversalOf s' originalMovementId payload actorUserId
        actorDisplayName call →
      Allowed D s₀ env call Q)
    (hOk : ∀ call s₁, D.Reach held s s₁ →
      IsReversalOf s₁ originalMovementId payload actorUserId
        actorDisplayName call →
      ∀ prepared m rows ws held' s', D.Reach held s₁ s' →
      (∀ k ∈ held, k ∈ held') →
      Written env call (normalizeIdempotencyKey
        call.payload.clientRequestId) prepared m rows ws held'
        s' →
      (f ⟨⟨m, rows⟩, false⟩).wlp D Q held'
        (bookedWith m rows ws) s')
    (hReplay : ∀ call s₁, D.Reach held s s₁ →
      IsReversalOf s₁ originalMovementId payload actorUserId
        actorDisplayName call →
      ∀ m held' s', D.Reach held s₁ s' →
      (∀ k ∈ held, k ∈ held') →
      Replays env call m s' →
      (f ⟨⟨m, s'.linesOf m.id⟩, true⟩).wlp D Q held' id s') :
    (reverseMovement env originalMovementId payload actorUserId
      actorDisplayName >>= f).wlp D Q held id s := by
  simp only [reverseMovement, bind_assoc]
  apply wlp_getMovementRecord hD hQuiet hStart
  intro m s₁ h₁ hFind
  have hStart₁ : D.Reach [] s₀ s₁ :=
    hStart.trans (h₁.weaken (by simp))
  apply Txn.wlp_getOrFail
  · intro _
    exact hQuiet.service hStart₁ (by rintro g ⟨⟩)
  intro call hCall
  have hReversal : IsReversalOf s₁ originalMovementId payload
      actorUserId actorDisplayName call := ⟨m, hFind, hCall⟩
  exact wlp_createMovementUnchecked hD
    (hAllowed call s₁ h₁ hReversal) hStart₁ hReversal.mirrors
    (hOk call s₁ h₁ hReversal) (hReplay call s₁ h₁ hReversal)

------------------------------------------------------------
-- Transactions
------------------------------------------------------------

/- The call that a request comes to in this state. -/
def MovementRequest.CallIn
    (db : Db) : MovementRequest → MovementCall → Prop
| .create call, c =>
    c = call ∧ call.payload.movementType ≠ .reversal
| .reverse originalMovementId payload actorUserId
    actorDisplayName, c =>
    IsReversalOf db originalMovementId payload actorUserId
      actorDisplayName c

/- A request comes to the same call later. -/
theorem MovementRequest.CallIn.later
    {request : MovementRequest}
    (h : request.CallIn s call)
    (hJournal : JournalValid s')
    (hAppends : Appends s s') :
    request.CallIn s' call := by
  cases request with
  | create call' => exact h
  | reverse o payload actor name =>
      rcases h with ⟨m, hFind, hCall⟩
      have hMem := Table.mem_of_find hFind
      have hId : m.id = o := Table.key_of_find hFind
      subst hId
      refine ⟨m, hJournal.find_of_mem
        (hAppends.movements m hMem), ?_⟩
      rw [hAppends.lines m hMem]
      exact hCall

/- A request comes to one call. -/
theorem MovementRequest.CallIn.unique
    {request : MovementRequest}
    {call call' : MovementCall}
    (h : request.CallIn s call)
    (h' : request.CallIn s call') :
    call = call' := by
  cases request with
  | create _ => exact h.1.trans h'.1.symm
  | reverse o payload actor name =>
      rcases h with ⟨m, hFind, hCall⟩
      rcases h' with ⟨m', hFind', hCall'⟩
      rw [hFind] at hFind'
      cases hFind'
      rw [hCall] at hCall'
      exact Option.some.inj hCall'

/- The call of a reversal is the mirror image. -/
theorem MovementRequest.CallIn.mirrors
    {request : MovementRequest}
    (h : request.CallIn s call) :
    MirrorsCommitted call s := by
  cases request with
  | create _ =>
      rcases h with ⟨rfl, hType⟩
      exact fun hReversal => absurd hReversal hType
  | reverse o payload actor name => exact IsReversalOf.mirrors h

/- What a request has done where it returns. -/
inductive Outcome
    (env : MovementEnv)
    (call : MovementCall) :
    MovementResult → List Lock → (Db → Db) → Db → Prop where
| written
    {prepared : Prepared}
    {m : Movement}
    {rows : List MovementLine}
    {ws : List BalanceWrite}
    {held : List Lock}
    {s : Db} :
    Written env call (normalizeIdempotencyKey
      call.payload.clientRequestId) prepared m rows ws held
      s →
    Outcome env call ⟨⟨m, rows⟩, false⟩ held
      (bookedWith m rows ws) s
| replayed
    {m : Movement}
    {held : List Lock}
    {s : Db} :
    Replays env call m s →
    Outcome env call ⟨⟨m, s.linesOf m.id⟩, true⟩ held id s

/- How the transaction of a request ends. -/
def RequestPost
    (D : Discipline Db Lock)
    (s₀ : Db)
    (env : MovementEnv)
    (request : MovementRequest) :
    Post Db Lock Error MovementResult
| .ok result, held, own, s => D.Reach [] s₀ s ∧
    ∃ call, request.CallIn s call ∧
      Outcome env call result held own s
| .error e, _, _, _ => ∀ g, e = .database g →
    ∃ call s, D.Reach [] s₀ s ∧ request.CallIn s call ∧
      GuardCause D s₀ env call g

variable {request : MovementRequest}

theorem allowed_requestPost
    (hReach : D.Reach [] s₀ s)
    (h : request.CallIn s call) :
    Allowed D s₀ env call (RequestPost D s₀ env request) where
  quiet _ _ _ _ _ hService g hEq := absurd hEq (hService g)
  guards g hCause _ _ _ _ g' hEq := by
    cases hEq
    exact ⟨call, s, hReach, h, hCause⟩

/- The lines that the deferred trigger finds are all there. -/
theorem wlp_checkLineCount_written
    {f : Unit → Op α}
    (hD : Governs D)
    (hInv : D.inv s)
    (h : Written env call requestId prepared m rows ws held s)
    (hOk : ∀ s', D.Reach held s s' →
      Written env call requestId prepared m rows ws held s' →
      (f ()).wlp D Q held (bookedWith m rows ws) s') :
    (checkLineCount ⟨⟨m, rows⟩, false⟩ >>= f).wlp D Q held
      (bookedWith m rows ws) s := by
  simp only [checkLineCount, Bool.false_eq_true, if_false,
    bind_assoc]
  apply Txn.wlp_query
  intro s₁ h₁
  have hWritten₁ := h.stable hD hInv h₁ (fun _ hk => hk)
  have hLines : (bookedWith m rows ws s₁).linesOf m.id =
      rows := by
    rw [bookedWith, BalanceWrite.linesOf_applyAll]
    exact Db.linesOf_withMovement_self
      (hD.valid h₁.inv).journal
      hWritten₁.booked.admissible.freshId
      hWritten₁.booked.admissible.rows.header
  rw [hLines]
  apply wlp_enforce_ok
  · rcases h.booked.row with ⟨actorSnapshot, rfl⟩
    exact h.booked.rowsOk.lineCount
  · exact hOk s₁ h₁ hWritten₁

/- A replay has no deferred triggers. -/
theorem wlp_checkLineCount_replayed
    {f : Unit → Op α}
    {record : MovementRecord}
    (hOk : (f ()).wlp D Q held own s) :
    (checkLineCount ⟨record, true⟩ >>= f).wlp D Q held own
      s :=
  hOk

/- A request ends with its outcome, whoever interferes. -/
theorem wlp_request
    (hD : Governs D)
    (hInv : D.inv s₀)
    (env : MovementEnv)
    (request : MovementRequest) :
    (request.program env).wlp D (RequestPost D s₀ env request)
      [] id s₀ := by
  have hStart : D.Reach [] s₀ s₀ := .refl hInv
  have hQuiet : Quiet D s₀ (RequestPost D s₀ env request) :=
    fun _ _ _ _ _ hService g hEq => absurd hEq (hService g)
  have hLater : ∀ {call held s s'},
      request.CallIn s call → D.Reach held s s' →
        request.CallIn s' call :=
    fun hCall hReach => hCall.later
      (hD.valid hReach.inv).journal (hD.appends hReach)
  have hWrittenEnd : ∀ {call prepared m rows ws held s},
      request.CallIn s call →
      D.Reach [] s₀ s →
      Written env call (normalizeIdempotencyKey
        call.payload.clientRequestId) prepared m rows ws held
        s →
      (checkLineCount ⟨⟨m, rows⟩, false⟩ >>= fun _ =>
        pure ⟨⟨m, rows⟩, false⟩).wlp D
          (RequestPost D s₀ env request) held
          (bookedWith m rows ws) s := by
    intro call prepared m rows ws held s hCall hReach hWritten
    apply wlp_checkLineCount_written hD hReach.inv hWritten
    intro s₁ h₁ hWritten₁
    apply Txn.wlp_pure
    intro s₂ h₂
    have hReach₂ : D.Reach [] s₀ s₂ :=
      hReach.trans ((h₁.trans h₂).weaken (by simp))
    exact ⟨hReach₂, call, hLater hCall (h₁.trans h₂), .written
      (hWritten₁.stable hD h₁.inv h₂ (fun _ hk => hk))⟩
  have hReplayEnd : ∀ {call m held s},
      request.CallIn s call →
      D.Reach [] s₀ s →
      Replays env call m s →
      (checkLineCount ⟨⟨m, s.linesOf m.id⟩, true⟩ >>=
        fun _ => pure ⟨⟨m, s.linesOf m.id⟩, true⟩).wlp D
          (RequestPost D s₀ env request) held id s := by
    intro call m held s hCall hReach hReplays
    apply wlp_checkLineCount_replayed
    apply Txn.wlp_pure
    intro s₁ h₁
    have hReach₁ : D.Reach [] s₀ s₁ :=
      hReach.trans (h₁.weaken (by simp))
    have hAppends := hD.appends h₁
    rw [← hAppends.lines m hReplays.mem]
    exact ⟨hReach₁, call, hLater hCall h₁, .replayed
      ⟨hAppends.movements m hReplays.mem, hReplays.key,
        hReplays.fingerprint⟩⟩
  cases request with
  | create call =>
      by_cases hType : call.payload.movementType = .reversal
      · simp only [MovementRequest.program, transaction,
          createMovement, if_pos hType]
        apply Txn.wlp_fail
        exact hQuiet.service hStart (by rintro g ⟨⟩)
      have hCall : ∀ s, (MovementRequest.create call).CallIn s
          call := fun _ => ⟨rfl, hType⟩
      apply wlp_createMovement hD
        (allowed_requestPost hStart (hCall s₀)) hStart
      · intro prepared m rows ws held s h _ hWritten
        exact hWrittenEnd (hCall s) h hWritten
      · intro m held s h _ hReplays
        exact hReplayEnd (hCall s) h hReplays
  | reverse o payload actor name =>
      apply wlp_reverseMovement hD hQuiet hStart
      · intro call s h hReversal
        exact allowed_requestPost h hReversal
      · intro call s h hReversal prepared m rows ws held s' h'
          _ hWritten
        exact hWrittenEnd (hLater hReversal h') (h.trans h')
          hWritten
      · intro call s h hReversal m held s' h' _ hReplays
        exact hReplayEnd (hLater hReversal h') (h.trans h')
          hReplays

end Create
