import DcInventory.Inventory.Projections

/-
  This file proves that the checks of the service agree with
  the guards of the database: what the service lets through
  the guards accept, and the loop over the lines fails
  exactly where a refresh would.

  Key definitions include:
    * `ChoosesCustody`
    * `ReachesLoop`
    * `RaisesRange`

  Key theorems include:
    * `refresh_raisesRange_iff`
    * `loop_fails_iff_refresh_raises`
    * `service_agrees_with_guards`
-/

------------------------------------------------------------
-- No Guard Objects
------------------------------------------------------------

/-
  The custody user is chosen from the committed role of the
  actor, as `post_movement` chooses it; reversals take it
  from their original.
-/
def ChoosesCustody
    (db : Db) : MovementRequest → Prop
| .create call => ∀ u,
    db.findUser call.actorUserId = some u →
      call.custodyUserId = custodyChoice u.role
        call.payload.movementType call.actorUserId
| .reverse _ _ _ _ => True

/- The choice is the one that the role requires. -/
theorem custodyFits_of_choosesCustody
    {db : Db}
    {request : MovementRequest}
    {call : MovementCall}
    (hChooses : ChoosesCustody db request)
    (hCall : request.CallIn db call) :
    CustodyFits call
      ((db.findUser call.actorUserId).map User.role) := by
  cases request with
  | create call' =>
      rcases hCall with ⟨rfl, _⟩
      constructor
      · rintro hType r hRole hIn
        rcases Option.map_eq_some_iff.mp hRole with
          ⟨u, hFind, rfl⟩
        rw [hChooses u hFind, custodyChoice,
          if_pos ⟨hIn, hType⟩]
      · rintro _ r hRole hIn
        rcases Option.map_eq_some_iff.mp hRole with
          ⟨u, hFind, rfl⟩
        rw [hChooses u hFind, custodyChoice, if_neg]
        rintro ⟨hCustody, _⟩
        revert hIn hCustody
        cases u.role <;> decide
  | reverse o payload actor name =>
      rcases hCall with ⟨m, _, hCall⟩
      have hType := (reversalFields_of_reversalCall
        hCall).built.movementType
      constructor <;> simp [hType]

/-
  Guards that the checks of the service do not answer for:
  the new id is taken, or the holder of custody that is left
  is not eligible.
-/
def OtherCause
    (db : Db)
    (env : MovementEnv) : DatabaseGuard → Prop
| .movementsPkey | .originalNotSelf =>
    db.findMovement env.movementId ≠ none
| .custodyHolderEligibility => ∃ user,
    ¬ HolderEligible db user ∧
    ((∃ row, loadedUser env.session (db.findUser user) =
        some row ∧ mayHoldCustody row) ∨
      ∃ item, 0 < db.custodyQuantity user item)
| _ => False

/- The guards accept what the service lets through. -/
theorem guard_otherCause
    {db : Db}
    (hValid : WarehouseValid db)
    {env : MovementEnv}
    {request : MovementRequest}
    (hChooses : ChoosesCustody db request)
    {g : DatabaseGuard}
    (hRun : (request.program env).run db =
      .error (.database g)) :
    OtherCause db env g := by
  have hEnds := request_run hValid env request
  rw [hRun] at hEnds
  rcases hEnds with ⟨held, own, hPost⟩
  rcases hPost g rfl with ⟨call, s₁, hReach₁, hCall, hCause⟩
  have hSame : ∀ {s},
      (Discipline.alone WarehouseValid).Reach
        ([] : List Lock) db s → s = db :=
    Discipline.eq_of_reach_alone
  cases hSame hReach₁
  cases g with
  | movementsPkey =>
      rcases hCause with ⟨s, hReach, hTaken⟩
      cases hSame hReach
      exact hTaken
  | originalNotSelf =>
      rcases hCause with ⟨s, hReach, hTaken⟩
      cases hSame hReach
      exact hTaken
  | procurementReceipt =>
      rcases hCause with ⟨o, _, ⟨s, hReach, hNot⟩, s', hReach',
        hReceipt⟩
      cases hSame hReach
      cases hSame hReach'
      exact hNot hReceipt
  | movementCustody message =>
      rcases hCause with ⟨s, hReach, hUnfit⟩
      cases hSame hReach
      exact hUnfit
        (custodyFits_of_choosesCustody hChooses hCall)
  | custodyHolderEligibility =>
      rcases hCause with ⟨s, user, _, hReach, hNot, hWhy⟩
      cases hSame hReach
      refine ⟨user, hNot, hWhy.imp ?_ ?_⟩
      · rintro ⟨s', row, hReach', hLoaded, hMay⟩
        cases hSame hReach'
        exact ⟨row, hLoaded, hMay⟩
      · exact fun hTakes => hTakes.2
  | _ => exact hCause

------------------------------------------------------------
-- The Loop And The Refresh
------------------------------------------------------------

/- One of the range checks of the refresh objects. -/
def RaisesRange (x : Except Error (Unit × Db)) : Prop :=
  x = .error (raise .stockRange) ∨
    x = .error (raise .custodyRange)

/- The checks of a call before the loop all pass. -/
structure ReachesLoop
    (db : Db)
    (env : MovementEnv)
    (call : MovementCall)
    (requestId actorSnapshot : Text)
    (prepared : Prepared) : Prop where
  arguments : checkCustodyArguments call.payload
    call.actorUserId call.custodyUserId = .ok ()
  named : normalizeInlineText call.payload.clientRequestId
    "client_request_id" 128 = .ok requestId
  unused : (existingIdempotentResult call.actorUserId requestId
    (fingerprintOf env call requestId)).run db =
      .ok (none, db)
  prepares : (prepareMovement env call).run db =
    .ok (prepared, db)
  inserted : ∃ db', (insertMovement (movementRow env call
    requestId actorSnapshot prepared.locations)).run db =
      .ok ((), db')

section Loop

variable {db : Db}
variable {env : MovementEnv}
variable {call : MovementCall}
variable {requestId actorSnapshot : Text}
variable {prepared : Prepared}
variable {rows : List MovementLine}
variable {m : Movement}
variable {row : MovementLine}

/- A key lookup that finds nothing finds no movement. -/
theorem noKey_of_unused
    (h : (existingIdempotentResult call.actorUserId requestId
      (fingerprintOf env call requestId)).run db =
        .ok (none, db)) :
    ∀ m ∈ db.movements,
      ¬ HasKey call.actorUserId requestId m := by
  intro m hm hHas
  unfold existingIdempotentResult at h
  rw [Txn.run_bind, Txn.run_query] at h
  simp only at h
  split at h
  · rename_i hNone
    rw [List.find?_eq_none] at hNone
    exact hNone m hm (by simpa [HasKey] using hHas)
  · rename_i m' _
    rw [Txn.run_bind, Txn.run_query] at h
    simp only at h
    rw [Txn.run_bind, Txn.run_require] at h
    split_ifs at h
    cases h

/- Preparation leaves the facts that the loop relies on. -/
theorem ReachesLoop.ready
    (hValid : WarehouseValid db)
    (h : ReachesLoop db env call requestId actorSnapshot
      prepared) :
    ∃ held, Ready call requestId prepared held db ∧
      Seen (Discipline.alone WarehouseValid) db env.session
        call prepared.original := by
  have hKey := noKey_of_unused h.unused
  have hStart : (Discipline.alone WarehouseValid).Reach
      ([] : List Lock) db db := .refl hValid
  have hWlp : (prepareMovement env call).wlp
      (Discipline.alone WarehouseValid)
      (fun r held _ s => ∀ p, r = .ok p →
        Ready call requestId p held s ∧
          Seen (Discipline.alone WarehouseValid) db
            env.session call p.original)
      [.exclusive (.warehouseIdempotency call.actorUserId
        requestId)] id db := by
    rw [← bind_pure (prepareMovement env call)]
    apply wlp_prepareMovement (governs_alone fun _ h => h)
      (by rintro e held own s _ _ p ⟨⟩) hStart h.named hKey
      (List.mem_singleton_self _)
    intro p held s hReach _ hReady hSeen
    apply Txn.wlp_pure
    rintro s' hReach' p' ⟨⟩
    cases Discipline.eq_of_reach_alone hReach'
    exact ⟨hReady, hSeen⟩
  have hEnds := Txn.wlp_run hValid hWlp
  rw [id, h.prepares] at hEnds
  rcases hEnds with ⟨held, own, hPost, _⟩
  exact ⟨held, hPost prepared rfl⟩

/- The insert of the header found its id free. -/
theorem ReachesLoop.fresh
    (hValid : WarehouseValid db)
    (h : ReachesLoop db env call requestId actorSnapshot
      prepared)
    (hMirror : MirrorsCommitted call db) :
    db.findMovement env.movementId = none := by
  rcases h.ready hValid with ⟨held, hReady, hSeen⟩
  have hStart : (Discipline.alone WarehouseValid).Reach
      ([] : List Lock) db db := .refl hValid
  have hWlp : (insertMovement (movementRow env call requestId
      actorSnapshot prepared.locations)).wlp
      (Discipline.alone WarehouseValid)
      (fun r _ _ s => r = .ok () →
        s.findMovement env.movementId = none) held id db := by
    rw [← bind_pure (insertMovement _)]
    apply wlp_insertMovement (governs_alone fun _ h => h)
      ⟨by rintro e held own s _ _ ⟨⟩,
        by rintro g _ held own s _ ⟨⟩⟩ hStart
      ⟨h.arguments, hReady.positions⟩ hMirror hReady hSeen
    intro held' s hReach _ hPlaced
    apply Txn.wlp_pure
    intro s' hReach' _
    cases Discipline.eq_of_reach_alone hReach'
    exact hPlaced.fresh
  have hEnds := Txn.wlp_run hValid hWlp
  rcases h.inserted with ⟨db', hInserted⟩
  rw [id, hInserted] at hEnds
  rcases hEnds with ⟨_, _, hPost, _⟩
  exact hPost rfl

/-
  The stock refresh fails exactly out of range, and leaves
  the journal as it is.
-/
theorem run_refreshPosition
    (db : Db)
    (item : Uuid)
    (position : Option Uuid) :
    ((refreshPosition item position).run db =
        .error (raise .stockRange) ∧
      ∃ location, position = some location ∧
        ¬ (0 ≤ db.journalStock item location ∧
          db.journalStock item location ≤ maxQuantity)) ∨
    ((∃ db', (refreshPosition item position).run db =
        .ok ((), db') ∧
        (∀ i l, db'.journalStock i l = db.journalStock i l) ∧
        ∀ u i, db'.journalCustody u i =
          db.journalCustody u i) ∧
      ∀ location, position = some location →
        0 ≤ db.journalStock item location ∧
          db.journalStock item location ≤ maxQuantity) := by
  cases position with
  | none =>
      exact Or.inr ⟨⟨db, rfl, fun _ _ => rfl, fun _ _ => rfl⟩,
        by simp⟩
  | some location =>
      simp only [refreshPosition, refreshStock]
      rw [Txn.run_bind, Txn.run_query]
      simp only [Db.expectedQuantity_eq_journalStock]
      rw [Txn.run_bind, Txn.run_require]
      by_cases hRange : 0 ≤ db.journalStock item location ∧
          db.journalStock item location ≤ maxQuantity
      · rw [if_pos hRange]
        refine Or.inr ⟨⟨_, rfl, fun _ _ => rfl,
          fun _ _ => rfl⟩, ?_⟩
        rintro location' ⟨⟩
        exact hRange
      · rw [if_neg hRange]
        exact Or.inl ⟨rfl, location, rfl, hRange⟩

/- The custody refresh fails so, or for its holder. -/
theorem run_refreshHolder_raisesRange
    (db : Db)
    (item : Uuid)
    (holder : Option Uuid) :
    RaisesRange ((refreshHolder item holder).run db) ↔
      ∃ user, holder = some user ∧
        ¬ (0 ≤ db.journalCustody user item ∧
          db.journalCustody user item ≤ maxQuantity) := by
  cases holder with
  | none => simp [refreshHolder, RaisesRange]
  | some user =>
      simp only [refreshHolder, refreshCustody]
      rw [Txn.run_bind, Txn.run_query]
      simp only
      rw [Txn.run_bind, Txn.run_require]
      by_cases hRange : 0 ≤ db.journalCustody user item ∧
          db.journalCustody user item ≤ maxQuantity
      · simp only [hRange, and_self, if_true,
          Option.some.injEq, exists_eq_left', not_true_eq_false,
          iff_false]
        by_cases hZero : db.journalCustody user item = 0
        · rw [if_pos hZero]
          simp [RaisesRange]
        · rw [if_neg hZero, Txn.run_bind]
          simp only [enforceCustodyHolderEligibility]
          rw [Txn.run_bind, Txn.run_acquire]
          simp only
          rw [Txn.run_bind, Txn.run_query]
          simp only [Txn.run_require]
          split_ifs <;> simp [RaisesRange, raise]
      · rw [if_neg hRange]
        exact iff_of_true (Or.inr rfl) ⟨user, rfl, hRange⟩

/-
  The refresh of a line raises one of its range checks
  exactly when one of the balances leaves the range.
-/
theorem refresh_raisesRange_iff
    (hValid : WarehouseValid db)
    (hFresh : db.findMovement m.id = none)
    (hRows : LinesValid m rows)
    (hRow : row ∈ rows) :
    RaisesRange ((refreshWarehouseProjection m.id
        row.itemId).run (db.withMovement m rows)) ↔
      ¬ LineInRange db m rows row := by
  have hFind : (db.withMovement m rows).findMovement m.id =
      some m := Db.findMovement_withMovement_self hFresh
  have hLine : ((db.withMovement m rows).linesOf m.id).any
      (fun l => l.itemId = row.itemId) = true := by
    rw [Db.linesOf_withMovement_self hValid.journal hFresh
      hRows.header]
    exact List.any_eq_true.mpr ⟨row, hRow, by simp⟩
  simp only [refreshWarehouseProjection]
  rw [Txn.run_bind, Txn.run_query]
  simp only [hFind, Txn.getOrFail]
  rw [Txn.run_bind]
  change RaisesRange ((Txn.query _ >>= _).run _) ↔ _
  rw [Txn.run_bind, Txn.run_query]
  simp only [hLine]
  rw [Txn.run_bind, Txn.run_require]
  simp only [if_true]
  rw [Txn.run_bind]
  rcases run_refreshPosition (db.withMovement m rows)
      row.itemId m.sourceLocationId with
    ⟨hError, location, hAt, hOut⟩ | ⟨⟨db₁, hOk, hStock₁,
      hCustody₁⟩, hSource⟩
  · rw [hError]
    exact iff_of_true (Or.inl rfl)
      (fun hRange => hOut (hRange.stock location (.inl hAt)))
  rw [hOk]
  simp only
  rw [Txn.run_bind]
  rcases run_refreshPosition db₁ row.itemId
      (if m.destinationLocationId = m.sourceLocationId
        then none else m.destinationLocationId) with
    ⟨hError, location, hAt, hOut⟩ | ⟨⟨db₂, hOk₂, hStock₂,
      hCustody₂⟩, hDestination⟩
  · rw [hError]
    refine iff_of_true (Or.inl rfl) (fun hRange => hOut ?_)
    rw [hStock₁]
    apply hRange.stock location
    split_ifs at hAt
    exact Or.inr hAt
  rw [hOk₂]
  simp only [run_refreshHolder_raisesRange, hCustody₂,
    hCustody₁]
  constructor
  · rintro ⟨user, hUser, hOut⟩ hRange
    exact hOut (hRange.custody user hUser)
  · intro hOut
    by_contra hNone
    apply hOut
    constructor
    · rintro location (hAt | hAt)
      · exact hSource location hAt
      · by_cases hSame :
            m.destinationLocationId = m.sourceLocationId
        · exact hSource location (hSame ▸ hAt)
        · have hRange := hDestination location (by
            rw [if_neg hSame]
            exact hAt)
          rw [hStock₁] at hRange
          exact hRange
    · intro user hUser
      by_contra hOut'
      exact hNone ⟨user, hUser, hOut'⟩

/- The errors by which the loop refuses a quantity. -/
def LimitError (e : Error) : Prop :=
  e = inventoryConflictError "insufficient stock"
      "insufficient_stock" ∨
    e = inventoryConflictError "insufficient user custody"
      "insufficient_custody" ∨
    e = inventoryConflictError
      "quantity exceeds supported range" "quantity_overflow"

theorem checkQuantity_error
    {quantity : Int}
    {message code : String}
    {e : Error}
    (h : checkQuantity quantity message code = .error e) :
    e = inventoryConflictError message code ∨
      e = inventoryConflictError
        "quantity exceeds supported range"
        "quantity_overflow" := by
  unfold checkQuantity at h
  split_ifs at h
  · cases h
    exact Or.inl rfl
  · cases h
    exact Or.inr rfl

theorem checkLine_limitError
    {payload : MovementCreate}
    {custodyUserId : Option Uuid}
    {original : Option MovementRecord}
    {balances : Balances}
    {line : MovementLineCreate}
    {e : Error}
    (h : checkLine payload custodyUserId original balances
      line = .error e) :
    LimitError e := by
  have hPosition : ∀ {delta position e},
      checkPosition balances line delta position = .error e →
        LimitError e := by
    intro delta position e hCheck
    cases position with
    | none => cases hCheck
    | some location =>
        exact (checkQuantity_error hCheck).imp id Or.inr
  have hCustody : ∀ {delta e},
      checkCustody balances line delta custodyUserId =
        .error e → LimitError e := by
    intro delta e hCheck
    unfold checkCustody at hCheck
    split_ifs at hCheck
    exact Or.inr (checkQuantity_error hCheck)
  unfold checkLine at h
  cases hSource : checkPosition balances line (-line.quantity)
      payload.sourceLocationId with
  | error e' =>
      rw [hSource] at h
      cases h
      exact hPosition hSource
  | ok _ =>
  rw [hSource] at h
  cases hDestination : checkPosition balances line
      line.quantity payload.destinationLocationId with
  | error e' =>
      rw [hDestination] at h
      cases h
      exact hPosition hDestination
  | ok _ =>
      rw [hDestination] at h
      exact hCustody h

/- A line whose item was read has its row. -/
theorem movementLineRow_isOk
    {movementId : Uuid}
    {items : List Item}
    {balances : Balances}
    {number : Nat}
    {line : MovementLineCreate}
    (hFound : ∃ i ∈ items, i.id = line.itemId) :
    ∃ row, movementLineRow movementId items balances number
      line = .ok row := by
  unfold movementLineRow
  rcases hFound with ⟨i, hi, hId⟩
  cases hFind : Table.find Item.id line.itemId items with
  | none =>
      exact absurd hId (Table.find_eq_none_iff.mp hFind i hi)
  | some item => exact ⟨_, rfl⟩

/- The loop refuses exactly when a line is refused. -/
theorem quantityLoop_error_iff
    {payload : MovementCreate}
    {custodyUserId : Option Uuid}
    {original : Option MovementRecord}
    {items : List Item}
    {balances : Balances}
    {movementId : Uuid}
    {number : Nat}
    {lines : List MovementLineCreate}
    (hFound : ∀ l ∈ lines, ∃ i ∈ items, i.id = l.itemId) :
    ((∃ e, quantityLoop payload custodyUserId original items
      balances movementId number lines = .error e) ↔
      ∃ l ∈ lines, checkLine payload custodyUserId original
        balances l ≠ .ok ()) ∧
    ∀ e, quantityLoop payload custodyUserId original items
      balances movementId number lines = .error e →
        LimitError e := by
  induction lines generalizing number with
  | nil => exact ⟨by simp [quantityLoop], by rintro e ⟨⟩⟩
  | cons line rest ih =>
      unfold quantityLoop
      cases hCheck : checkLine payload custodyUserId original
          balances line with
      | error e' =>
          constructor
          · exact iff_of_true ⟨e', rfl⟩ ⟨line,
              List.mem_cons_self, by simp [hCheck]⟩
          · rintro e ⟨⟩
            exact checkLine_limitError hCheck
      | ok _ =>
          have hSome : ∃ row, movementLineRow movementId items
              balances number line = .ok row :=
            movementLineRow_isOk
              (hFound line List.mem_cons_self)
          rcases hSome with ⟨row, hRow⟩
          have hRest := @ih (number + 1) (fun l hl =>
            hFound l (List.mem_cons_of_mem _ hl))
          cases hLoop : quantityLoop payload custodyUserId
              original items balances movementId (number + 1)
              rest with
          | error e' =>
              rw [hLoop] at hRest
              simp only [hRow, Bind.bind, Except.bind,
                List.mem_cons, exists_eq_or_imp, hCheck]
              constructor
              · refine iff_of_true ⟨e', rfl⟩ (Or.inr ?_)
                exact hRest.1.mp ⟨e', rfl⟩
              · exact hRest.2
          | ok rows =>
              rw [hLoop] at hRest
              simp only [hRow, Bind.bind, Except.bind,
                Pure.pure, Except.pure, List.mem_cons,
                exists_eq_or_imp, hCheck]
              constructor
              · refine iff_of_false (by rintro ⟨e, ⟨⟩⟩) ?_
                rintro (hNot | hSome)
                · exact hNot rfl
                · rcases hRest.1.mpr hSome with ⟨e, ⟨⟩⟩
              · rintro e ⟨⟩

/-
  The loop fails exactly when a refresh of one of the lines,
  whatever their snapshots are, would fail its range check.
-/
theorem loop_fails_iff_refresh_raises
    (hValid : WarehouseValid db)
    (hMirror : MirrorsCommitted call db)
    (h : ReachesLoop db env call requestId actorSnapshot
      prepared)
    (hOf : RowsOf env call rows) :
    (∃ e, quantityLoop call.payload call.custodyUserId
        prepared.original prepared.items prepared.balances
        env.movementId 1 call.payload.sortedLines =
          .error e) ↔
      ∃ row ∈ rows, RaisesRange
        ((refreshWarehouseProjection env.movementId
          row.itemId).run (db.withMovement (movementRow env
            call requestId actorSnapshot prepared.locations)
            rows)) := by
  rcases h.ready hValid with ⟨held, hReady, _⟩
  have hFresh := h.fresh hValid hMirror
  have hFound : ∀ l ∈ call.payload.sortedLines,
      ∃ i ∈ prepared.items, i.id = l.itemId := by
    intro l hl
    exact hReady.items l
      (call.payload.sortedLines_perm.mem_iff.mp hl)
  have hRows : LinesValid (movementRow env call requestId
      actorSnapshot prepared.locations) rows :=
    hOf.linesValid hReady.distinct
  rw [(quantityLoop_error_iff hFound).1]
  constructor
  · rintro ⟨l, hl, hRefused⟩
    have hMem : l.pair ∈ linePairs rows := by
      rw [hOf.pairs]
      exact List.mem_map_of_mem hl
    rcases List.mem_map.mp hMem with ⟨row, hRow, hPair⟩
    refine ⟨row, hRow, ?_⟩
    refine (refresh_raisesRange_iff hValid hFresh hRows
      hRow).mpr ?_
    rw [← checkLine_ok_iff hValid hReady hFresh hRows
      (call.payload.sortedLines_perm.mem_iff.mp hl) hRow
      hPair]
    exact hRefused
  · rintro ⟨row, hRow, hRaises⟩
    have hMem : (row.itemId, row.quantity) ∈
        call.payload.sortedLines.map
          MovementLineCreate.pair := by
      rw [← hOf.pairs]
      exact List.mem_map_of_mem hRow
    rcases List.mem_map.mp hMem with ⟨l, hl, hPair⟩
    refine ⟨l, hl, ?_⟩
    have hOut := (refresh_raisesRange_iff hValid hFresh hRows
      hRow).mp hRaises
    rw [← checkLine_ok_iff hValid hReady hFresh hRows
      (call.payload.sortedLines_perm.mem_iff.mp hl) hRow
      hPair.symm] at hOut
    exact hOut

end Loop

------------------------------------------------------------
-- Agreement
------------------------------------------------------------

/- Custody is only held by users who may hold it. -/
def HoldersEligible (db : Db) : Prop :=
  ∀ b ∈ db.userItemCustodyBalances,
    HolderEligible db b.userId

/- A session without outdated users returns the row itself. -/
theorem holderEligible_of_current
    {db : Db}
    {session : List User}
    {user : Uuid}
    {loaded : User}
    (hCurrent : ∀ u ∈ db.users, ∀ u' ∈ session,
      u'.id = u.id → u' = u)
    (hLoaded : loadedUser session (db.findUser user) =
      some loaded)
    (hMay : mayHoldCustody loaded) :
    HolderEligible db user := by
  rcases Option.map_eq_some_iff.mp hLoaded with
    ⟨u, hFind, hCopy⟩
  refine ⟨u, hFind, ?_⟩
  cases hSession : Table.find User.id u.id session with
  | none =>
      rw [hSession, Option.getD_none] at hCopy
      rw [hCopy]
      exact hMay
  | some u' =>
      rw [hSession, Option.getD_some] at hCopy
      rw [← hCurrent u (Table.mem_of_find hFind) u'
        (Table.mem_of_find hSession)
        (Table.key_of_find hSession), hCopy]
      exact hMay

/- A quantity above zero has a row. -/
theorem holder_of_custodyQuantity
    {db : Db}
    {user item : Uuid}
    (h : 0 < db.custodyQuantity user item) :
    ∃ b ∈ db.userItemCustodyBalances, b.userId = user := by
  unfold Db.custodyQuantity at h
  cases hFind : db.findCustodyBalance user item with
  | none => simp [hFind] at h
  | some b =>
      have hKey := Table.key_of_find hFind
      exact ⟨b, Table.mem_of_find hFind,
        congrArg Prod.fst hKey⟩

/-
  In a valid warehouse, with custody chosen by the role of
  the actor: a guard objects only to an id that is taken or
  to a holder who is not eligible, and never when the id is
  new, the users were loaded as they are and holders are
  eligible; and where all checks before it pass, the loop
  fails, always with one of its three errors, exactly when
  the refresh of one of the rows would fail its range check.
-/
theorem service_agrees_with_guards
    {db : Db}
    (hValid : WarehouseValid db)
    {env : MovementEnv}
    {request : MovementRequest}
    (hChooses : ChoosesCustody db request) :
    (∀ g, (request.program env).run db =
        .error (.database g) → OtherCause db env g) ∧
    (db.findMovement env.movementId = none →
      (∀ u ∈ db.users, ∀ u' ∈ env.session,
        u'.id = u.id → u' = u) →
      HoldersEligible db →
      ∀ g, (request.program env).run db ≠
        .error (.database g)) ∧
    ∀ call requestId actorSnapshot prepared rows,
      request.CallIn db call →
      ReachesLoop db env call requestId actorSnapshot
        prepared →
      RowsOf env call rows →
      (∀ e, quantityLoop call.payload call.custodyUserId
        prepared.original prepared.items prepared.balances
        env.movementId 1 call.payload.sortedLines =
          .error e → LimitError e) ∧
      ((∃ e, quantityLoop call.payload call.custodyUserId
        prepared.original prepared.items prepared.balances
        env.movementId 1 call.payload.sortedLines =
          .error e) ↔
        ∃ row ∈ rows, RaisesRange
          ((refreshWarehouseProjection env.movementId
            row.itemId).run (db.withMovement (movementRow env
              call requestId actorSnapshot prepared.locations)
              rows))) := by
  refine ⟨fun g => guard_otherCause hValid hChooses, ?_, ?_⟩
  · intro hNew hCurrent hHolders g hRun
    have hCause := guard_otherCause hValid hChooses hRun
    cases g with
    | movementsPkey => exact hCause hNew
    | originalNotSelf => exact hCause hNew
    | custodyHolderEligibility =>
        rcases hCause with ⟨user, hNot, hWhy⟩
        apply hNot
        rcases hWhy with ⟨row, hLoaded, hMay⟩ | ⟨item, hPos⟩
        · exact holderEligible_of_current hCurrent hLoaded hMay
        · rcases holder_of_custodyQuantity hPos with
            ⟨b, hb, rfl⟩
          exact hHolders b hb
    | _ => exact hCause
  · intro call requestId actorSnapshot prepared rows hCall
      hReaches hOf
    rcases hReaches.ready hValid with ⟨held, hReady, _⟩
    have hFound : ∀ l ∈ call.payload.sortedLines,
        ∃ i ∈ prepared.items, i.id = l.itemId := by
      intro l hl
      exact hReady.items l
        (call.payload.sortedLines_perm.mem_iff.mp hl)
    exact ⟨(quantityLoop_error_iff hFound).2,
      loop_fails_iff_refresh_raises hValid hCall.mirrors
        hReaches hOf⟩

------------------------------------------------------------
-- An Issue Of Too Many
------------------------------------------------------------

namespace FirstReceipt

/- Seven switches are asked for where there are five. -/
def issueCall : MovementCall where
  payload := {
    movementType := .issue
    sourceLocationId := some location.id
    destinationLocationId := none
    originalMovementId := none
    clientRequestId := "second".toList
    lines := [⟨item.id, 7, by decide, by decide⟩]
    key_nonempty := by decide
    key_length := by decide
    lines_nonempty := by decide
    lines_length := by decide }
  actorUserId := storekeeper.id
  actorDisplayName := "Storekeeper".toList
  custodyUserId := none

def issueEnv : MovementEnv :=
  { env with movementId := ⟨5⟩ }

def issuePrepared : Prepared where
  original := none
  locations := [location]
  items := [item]
  balances := ⟨[], [⟨item.id, location.id, 5⟩], []⟩

def issueRow : MovementLine :=
  ⟨⟨5⟩, 1, item.id, 7, item.name, none, none⟩

theorem issue_reachesLoop :
    ReachesLoop received issueEnv issueCall "second".toList
      "Storekeeper".toList issuePrepared where
  arguments := by decide
  named := by rfl
  unused := by rfl
  prepares := by rfl
  inserted := ⟨_, by rfl⟩

end FirstReceipt

/- The loop refuses, and so would the refresh. -/
theorem service_agrees_with_guards_issue :
    (∃ row ∈ [FirstReceipt.issueRow], RaisesRange
      ((refreshWarehouseProjection ⟨5⟩ row.itemId).run
        (FirstReceipt.received.withMovement
          (movementRow FirstReceipt.issueEnv
            FirstReceipt.issueCall "second".toList
            "Storekeeper".toList [FirstReceipt.location])
          [FirstReceipt.issueRow]))) ∧
    ∀ g, ((MovementRequest.create
      FirstReceipt.issueCall).program
        FirstReceipt.issueEnv).run FirstReceipt.received ≠
          .error (.database g) := by
  have hValid : WarehouseValid FirstReceipt.received :=
    request_valid FirstReceipt.start_empty.valid _ _
  have hChooses : ChoosesCustody FirstReceipt.received
      (.create FirstReceipt.issueCall) := by
    intro u hFind
    have hUser : FirstReceipt.received.findUser
        FirstReceipt.storekeeper.id =
          some FirstReceipt.storekeeper := by rfl
    rw [show FirstReceipt.issueCall.actorUserId =
      FirstReceipt.storekeeper.id from rfl, hUser] at hFind
    cases hFind
    rfl
  have hAgree := @service_agrees_with_guards _ hValid
    FirstReceipt.issueEnv _ hChooses
  have hLoop := hAgree.2.2 FirstReceipt.issueCall
    "second".toList "Storekeeper".toList
    FirstReceipt.issuePrepared [FirstReceipt.issueRow]
    ⟨rfl, by decide⟩ FirstReceipt.issue_reachesLoop
    ⟨by rfl, by decide⟩
  refine ⟨hLoop.2.mp ⟨_, by rfl⟩, hAgree.2.1 (by rfl)
    (by rintro u _ u' ⟨⟩) ?_⟩
  intro b hb
  have hNone : FirstReceipt.received.userItemCustodyBalances =
      [] := by rfl
  rw [hNone] at hb
  cases hb
