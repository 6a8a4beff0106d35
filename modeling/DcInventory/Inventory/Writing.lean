import DcInventory.Inventory.Ranges

/-
  This file proves what a call writes: an admissible movement
  with the lines of its payload, and the balances that the
  journal then has.

  Key definitions include:
    * `GuardCause`
    * `Allowed`
    * `Placed`
    * `Booked`
    * `bookedWith`

  Key theorems include:
    * `Placed.admissible`
    * `wlp_insertMovement`
    * `wlp_insertMovementLines`
    * `wlp_refreshLines`
-/

variable {α : Type}

------------------------------------------------------------
-- What May Go Wrong
------------------------------------------------------------

/- The user is there, approved and may hold custody. -/
def HolderEligible (db : Db) (user : Uuid) : Prop :=
  ∃ u, db.findUser user = some u ∧ mayHoldCustody u

/-
  Why a guard of the database objects, where one can: an id
  is taken, the role of the actor is not the one the custody
  was chosen for, the holder is no longer eligible, or the
  original was made a receipt meanwhile.
-/
def GuardCause
    (D : Discipline Db Lock)
    (s₀ : Db)
    (env : MovementEnv)
    (call : MovementCall) : DatabaseGuard → Prop
| .movementsPkey | .originalNotSelf =>
    ∃ s, D.Reach [] s₀ s ∧
      s.findMovement env.movementId ≠ none
| .procurementReceipt => ∃ o,
    call.payload.originalMovementId = some o ∧
    (∃ s, D.Reach [] s₀ s ∧ ¬ IsReceipt s o) ∧
    (∃ s, D.Reach [] s₀ s ∧ IsReceipt s o)
| .movementCustody _ => ∃ s, D.Reach [] s₀ s ∧
    ¬ CustodyFits call
      ((s.findUser call.actorUserId).map User.role)
| .custodyHolderEligibility => ∃ s user,
    call.custodyUserId = some user ∧
    D.Reach [] s₀ s ∧
    ¬ HolderEligible s user ∧
    ((∃ s' row, D.Reach [] s₀ s' ∧
        loadedUser env.session (s'.findUser user) =
          some row ∧
        mayHoldCustody row) ∨
      (call.payload.movementType = .reversal ∧
        ∃ item, 0 < s.custodyQuantity user item))
| _ => False

/- Errors of the service and explained guards are allowed. -/
structure Allowed
    (D : Discipline Db Lock)
    (s₀ : Db)
    (env : MovementEnv)
    (call : MovementCall)
    (Q : Post Db Lock Error α) : Prop where
  quiet : Quiet D s₀ Q
  guards : ∀ g, GuardCause D s₀ env call g →
    ∀ held own s, D.Reach [] s₀ s →
      Q (.error (.database g)) held own s

------------------------------------------------------------
-- A Header In Place
------------------------------------------------------------

/- What holds once the header row is in place. -/
structure Placed
    (env : MovementEnv)
    (call : MovementCall)
    (requestId : Text)
    (prepared : Prepared)
    (held : List Lock)
    (s : Db) : Prop where
  ready : Ready call requestId prepared held s
  mirror : MirrorsCommitted call s
  fresh : s.findMovement env.movementId = none
  noReceipt : ∀ o, call.payload.originalMovementId = some o →
    ¬ IsReceipt s o
  heldPkey : .exclusive (.movementPkey env.movementId) ∈ held

section Place

variable {D : Discipline Db Lock}
variable {s₀ s s' : Db}
variable {held held' : List Lock}
variable {own : Db → Db}
variable {Q : Post Db Lock Error α}
variable {env : MovementEnv}
variable {call : MovementCall}
variable {requestId actorSnapshot : Text}
variable {prepared : Prepared}
variable {rows : List MovementLine}

theorem Placed.stable
    (hD : Governs D)
    (h : Placed env call requestId prepared held s)
    (hReach : D.Reach held s s')
    (hSub : ∀ k ∈ held, k ∈ held') :
    Placed env call requestId prepared held' s' where
  ready := h.ready.stable hD hReach hSub
  mirror := h.mirror.stable hD hReach
  fresh := hD.fresh_stable hReach h.heldPkey h.fresh
  noReceipt o ho hReceipt := by
    rcases h.ready.original.linked o ho with ⟨m, _, hFind, _⟩
    have hId : m.id = o := Table.key_of_find hFind
    subst hId
    exact h.noReceipt m.id ho ((hD.appends hReach).receipts m
      (Table.mem_of_find hFind) hReceipt)
  heldPkey := hSub _ h.heldPkey

/- The movement may be added to the journal. -/
theorem Placed.admissible
    (hCall : CallOk call)
    (h : Placed env call requestId prepared held s)
    (hRows : RowsOk env call prepared rows) :
    Admissible s (movementRow env call requestId
      actorSnapshot prepared.locations) rows where
  freshId := h.fresh
  freshKey := h.ready.key
  shape := shapeValid_movementRow hCall
  rows := hRows.linesValid h.ready.distinct
  link o ho := by
    rcases h.ready.original.linked o ho with
      ⟨m, hRecord, hFind, hTarget, hCorrection, hReversal⟩
    refine ⟨m, hFind, hTarget, hCorrection, ?_⟩
    intro hType
    rcases h.mirror hType o ho with
      ⟨m', hFind', hSource, hDestination, hPairs⟩
    rw [hFind] at hFind'
    cases hFind'
    exact ⟨hSource, hDestination, (hReversal hType).1,
      hPairs ▸ hRows.perm⟩
  firstReversal hType m' hm' hReversal hSame := by
    have hSome := hCall.linked.mp (Or.inr hType)
    rcases Option.ne_none_iff_exists'.mp hSome with ⟨o, ho⟩
    rcases h.ready.original.linked o ho with
      ⟨m, _, _, _, _, hFirst⟩
    exact (hFirst hType).2 m' hm' ⟨hSame.trans ho, hReversal⟩

/- A guard that cannot object is passed. -/
theorem wlp_enforce
    {x : Except DatabaseGuard Unit}
    {f : Unit → Op α}
    (hErr : ∀ g, x = .error g → ∀ s', D.Reach held s s' →
      Q (.error (.database g)) held own s')
    (hOk : (f ()).wlp D Q held own s) :
    (enforce x >>= f).wlp D Q held own s := by
  unfold enforce
  apply Txn.wlp_ofExcept
  · intro e he
    cases x with
    | ok a => cases he
    | error g =>
        cases he
        exact hErr g rfl
  · intro a _
    exact hOk

/- A guard known to accept is passed. -/
theorem wlp_enforce_ok
    {x : Except DatabaseGuard Unit}
    {f : Unit → Op α}
    (hx : x = .ok ())
    (hOk : (f ()).wlp D Q held own s) :
    (enforce x >>= f).wlp D Q held own s :=
  wlp_enforce (by simp [hx]) hOk

/- The check of receipts finds no receipt. -/
theorem wlp_protectProcurementReceiptMovement
    {f : Unit → Op α}
    (hAllowed : Allowed D s₀ env call Q)
    (hStart : D.Reach [] s₀ s)
    (hReady : Ready call requestId prepared held s)
    (hSeen : Seen D s₀ env.session call prepared.original)
    (hOk : ∀ held' s', D.Reach held s s' →
      (∀ k ∈ held, k ∈ held') →
      (∀ o, call.payload.originalMovementId = some o →
        ¬ IsReceipt s' o) →
      (f ()).wlp D Q held' id s') :
    (protectProcurementReceiptMovement
      (movementRow env call requestId actorSnapshot
        prepared.locations) >>= f).wlp D Q held id s := by
  have hLinked := linked_of_validatePositions hReady.positions
  have hRow : (movementRow env call requestId actorSnapshot
      prepared.locations).originalMovementId =
        call.payload.originalMovementId := rfl
  have hType : (movementRow env call requestId actorSnapshot
      prepared.locations).movementType =
        call.payload.movementType := rfl
  unfold protectProcurementReceiptMovement
  rw [hRow, hType]
  cases ho : call.payload.originalMovementId with
  | none =>
      exact hOk held s (.refl hStart.inv) (fun _ hk => hk)
        (by simp [ho])
  | some o =>
      have hIs : isLinked call.payload.movementType = true := by
        rw [hLinked, ho]
        rfl
      simp only [hIs, if_true, bind_assoc]
      apply Txn.wlp_acquire
      intro s₁ h₁
      apply Txn.wlp_query
      intro s₂ h₂
      have hBoth := Discipline.reach_of_cons h₁ h₂
      have hStart₂ : D.Reach [] s₀ s₂ :=
        hStart.trans (hBoth.weaken (by simp))
      apply Txn.wlp_require
      · intro hSome s₃ h₃
        apply hAllowed.guards
        · refine ⟨o, ho, hSeen.receipt o ho, s₂, hStart₂, ?_⟩
          rw [Option.isNone_iff_eq_none] at hSome
          rcases Option.ne_none_iff_exists'.mp hSome with
            ⟨r, hr⟩
          exact ⟨r, List.mem_of_find?_eq_some hr, by
            simpa using List.find?_some hr⟩
        · exact hStart₂.trans (h₃.weaken (by simp))
      · intro hNone
        apply hOk _ s₂ hBoth
          (fun k hk => List.mem_cons_of_mem _ hk)
        intro o' ho'
        rw [ho] at ho'
        cases ho'
        rintro ⟨r, hr, hFinal⟩
        have hAll := Option.isNone_iff_eq_none.mp hNone
        rw [List.find?_eq_none] at hAll
        exact hAll r hr (by simpa using hFinal)

/- The unique indexes have no entry of the header. -/
theorem wlp_uniqueMovement
    {f : Unit → Op α}
    (hD : Governs D)
    (hAllowed : Allowed D s₀ env call Q)
    (hStart : D.Reach [] s₀ s)
    (hReady : Ready call requestId prepared held s)
    (hOk : ∀ held' s', D.Reach held s s' →
      (∀ k ∈ held, k ∈ held') →
      s'.findMovement env.movementId = none →
      .exclusive (.movementPkey env.movementId) ∈ held' →
      (f ()).wlp D Q held' id s') :
    (uniqueMovement (movementRow env call requestId
      actorSnapshot prepared.locations) >>= f).wlp D Q held
        id s := by
  simp only [uniqueMovement, bind_assoc]
  apply Txn.wlp_acquire
  intro s₁ h₁
  apply Txn.wlp_query
  intro s₂ h₂
  have hTo₂ := Discipline.reach_of_cons h₁ h₂
  have hStart₂ : D.Reach [] s₀ s₂ :=
    hStart.trans (hTo₂.weaken (by simp))
  apply Txn.wlp_require
  · intro hSome s₃ h₃
    apply hAllowed.guards .movementsPkey
    · refine ⟨s₂, hStart₂, ?_⟩
      rw [Option.isNone_iff_eq_none] at hSome
      exact hSome
    · exact hStart₂.trans (h₃.weaken (by simp))
  intro hNone
  apply Txn.wlp_acquire
  intro s₃ h₃
  apply Txn.wlp_query
  intro s₄ h₄
  have hFrom₂ := Discipline.reach_of_cons h₃ h₄
  have hTo₄ := hTo₂.trans
    (hFrom₂.weaken fun k hk => List.mem_cons_of_mem _ hk)
  -- the key is still free: its advisory lock is held
  have hKey := (hReady.stable hD hTo₄ (fun _ hk => hk)).key
  apply Txn.wlp_require
  · intro hSome
    exfalso
    apply hSome
    rw [Option.isNone_iff_eq_none, List.find?_eq_none]
    intro m hm hHas
    exact hKey m hm (by simpa [HasKey, movementRow] using hHas)
  intro _
  have hFresh : s₄.findMovement env.movementId = none := by
    apply hD.fresh_stable hFrom₂ (List.mem_cons_self)
    exact Option.isNone_iff_eq_none.mp hNone
  have hHeld : ∀ k ∈ held, k ∈
      Lock.exclusive (.movementActorKey call.actorUserId
        requestId) ::
      Lock.exclusive (.movementPkey env.movementId) ::
      held :=
    fun k hk => List.mem_cons_of_mem _
      (List.mem_cons_of_mem _ hk)
  have hDone := hOk _ s₄ hTo₄ hHeld hFresh
    (List.mem_cons_of_mem _ List.mem_cons_self)
  have hType : (movementRow env call requestId actorSnapshot
      prepared.locations).movementType =
        call.payload.movementType := rfl
  have hOriginal : (movementRow env call requestId
      actorSnapshot prepared.locations).originalMovementId =
        call.payload.originalMovementId := rfl
  rw [hType, hOriginal]
  split
  · rename_i o hReversal ho
    simp only [bind_assoc]
    apply Txn.wlp_acquire
    intro s₅ h₅
    apply Txn.wlp_query
    intro s₆ h₆
    have hFrom₄ := Discipline.reach_of_cons h₅ h₆
    have hTo₆ := hTo₄.trans (hFrom₄.weaken hHeld)
    have hReady₆ := hReady.stable hD hTo₆ (fun _ hk => hk)
    apply Txn.wlp_require
    · intro hSome
      exfalso
      apply hSome
      rcases hReady₆.original.linked o ho with
        ⟨_, _, _, _, _, hFirst⟩
      rw [Option.isNone_iff_eq_none, List.find?_eq_none]
      intro m hm hHas
      exact (hFirst hReversal).2 m hm (by
        simpa [Reverses] using hHas)
    intro _
    apply hOk _ s₆ hTo₆
      (fun k hk => List.mem_cons_of_mem _ (hHeld k hk))
    · exact hD.fresh_stable hFrom₄
        (List.mem_cons_of_mem _ List.mem_cons_self) hFresh
    · exact List.mem_cons_of_mem _
        (List.mem_cons_of_mem _ List.mem_cons_self)
  · exact hDone

/- The header row is inserted. -/
theorem wlp_insertMovement
    {f : Unit → Op α}
    (hD : Governs D)
    (hAllowed : Allowed D s₀ env call Q)
    (hStart : D.Reach [] s₀ s)
    (hCall : CallOk call)
    (hMirror : MirrorsCommitted call s)
    (hReady : Ready call requestId prepared held s)
    (hSeen : Seen D s₀ env.session call prepared.original)
    (hOk : ∀ held' s', D.Reach held s s' →
      (∀ k ∈ held, k ∈ held') →
      Placed env call requestId prepared held' s' →
      (f ()).wlp D Q held' (fun db => db.withMovement
        (movementRow env call requestId actorSnapshot
          prepared.locations) []) s') :
    (insertMovement (movementRow env call requestId
      actorSnapshot prepared.locations) >>= f).wlp D Q held
        id s := by
  simp only [insertMovement, bind_assoc]
  apply wlp_protectProcurementReceiptMovement hAllowed hStart
    hReady hSeen
  intro held₁ s₁ h₁ hSub₁ hNoReceipt
  have hReady₁ := hReady.stable hD h₁ hSub₁
  have hMirror₁ := hMirror.stable hD h₁
  have hStart₁ : D.Reach [] s₀ s₁ :=
    hStart.trans (h₁.weaken (by simp))
  apply Txn.wlp_query
  intro s₂ h₂
  have hReady₂ := hReady₁.stable hD h₂ (fun _ hk => hk)
  have hMirror₂ := hMirror₁.stable hD h₂
  apply wlp_enforce_ok (correctionHeader_movementRow
    (hD.valid h₂.inv).journal hReady₂ hMirror₂)
  apply Txn.wlp_query
  intro s₃ h₃
  have hTo₃ := h₂.trans h₃
  have hStart₃ : D.Reach [] s₀ s₃ :=
    hStart₁.trans (hTo₃.weaken (by simp))
  apply Txn.wlp_query
  intro s₄ h₄
  have hTo₄ := hTo₃.trans h₄
  have hStart₄ : D.Reach [] s₀ s₄ :=
    hStart₃.trans (h₄.weaken (by simp))
  have hReady₄ := hReady₁.stable hD hTo₄ (fun _ hk => hk)
  have hMirror₄ := hMirror₁.stable hD hTo₄
  apply wlp_enforce
  · intro g hRaise s₅ h₅
    have hUnfit := custodyFits_of_movementCustody hCall
      (hD.valid hTo₄.inv).journal hReady₄ hRaise
    rcases validateMovementCustody_error hRaise with
      ⟨message, rfl⟩
    exact hAllowed.guards (.movementCustody message)
      ⟨s₃, hStart₃, hUnfit⟩ _ _ _
      (hStart₄.trans (h₅.weaken (by simp)))
  apply wlp_enforce
  · intro g hRaise s₅ h₅
    rcases movementChecks_movementRow hCall hReady₄.locations
      hRaise with ⟨rfl, hSelf⟩
    rcases hReady₄.original.linked _ hSelf with
      ⟨m, _, hFind, _⟩
    exact hAllowed.guards .originalNotSelf
      ⟨s₄, hStart₄, by simp [hFind]⟩ _ _ _
      (hStart₄.trans (h₅.weaken (by simp)))
  apply wlp_uniqueMovement hD hAllowed hStart₄ hReady₄
  intro held₅ s₅ h₅ hSub₅ hFresh hHeldPkey
  have hReach := h₁.trans (hTo₄.weaken hSub₁)
  apply Txn.wlp_update
  have hOwn : ((fun db : Db => { db with
      movements := db.movements ++ [movementRow env call
        requestId actorSnapshot prepared.locations] }) ∘ id) =
      fun db => db.withMovement (movementRow env call
        requestId actorSnapshot prepared.locations) [] := by
    funext db
    simp [Db.withMovement]
  rw [hOwn]
  apply hOk _ s₅ (hReach.trans (h₅.weaken hSub₁))
    (fun k hk => hSub₅ k (hSub₁ k hk))
  exact {
    ready := hReady₄.stable hD h₅ hSub₅
    mirror := hMirror₄.stable hD h₅
    fresh := hFresh
    noReceipt := by
      intro o ho hReceipt
      rcases hReady₁.original.linked o ho with
        ⟨m, _, hFind, _⟩
      have hId : m.id = o := Table.key_of_find hFind
      subst hId
      have hAppends := hD.appends (hTo₄.trans h₅)
      exact hNoReceipt m.id ho (hAppends.receipts m
        (Table.mem_of_find hFind) hReceipt)
    heldPkey := hHeldPkey }

end Place

------------------------------------------------------------
-- Lines
------------------------------------------------------------

section Rows

variable {D : Discipline Db Lock}
variable {s₀ s s' : Db}
variable {held held' : List Lock}
variable {Q : Post Db Lock Error α}
variable {env : MovementEnv}
variable {call : MovementCall}
variable {requestId : Text}
variable {prepared : Prepared}
variable {rows : List MovementLine}
variable {m : Movement}

/- The row of the call, whatever its snapshots are. -/
def IsRowOf
    (env : MovementEnv)
    (call : MovementCall)
    (requestId : Text)
    (prepared : Prepared)
    (m : Movement) : Prop :=
  ∃ actorSnapshot, m = movementRow env call requestId
    actorSnapshot prepared.locations

/- The original's lines are seen past the new rows. -/
private theorem originalLines_withMovement
    (hPlaced : Placed env call requestId prepared held s)
    (hRow : IsRowOf env call requestId prepared m)
    (hHeader : ∀ l ∈ rows, l.movementId = m.id) :
    m.originalMovementId.elim []
        (s.withMovement m rows).linesOf =
      call.payload.originalMovementId.elim [] s.linesOf := by
  rcases hRow with ⟨actorSnapshot, rfl⟩
  have hOriginal : (movementRow env call requestId
      actorSnapshot prepared.locations).originalMovementId =
        call.payload.originalMovementId := rfl
  rw [hOriginal]
  cases ho : call.payload.originalMovementId with
  | none => rfl
  | some o =>
      rcases hPlaced.ready.original.linked o ho with
        ⟨original, _, hFind, _⟩
      rw [Option.elim_some, Option.elim_some]
      apply Db.linesOf_withMovement_of_ne hHeader
      rintro rfl
      have hFresh := hPlaced.fresh
      rw [show (movementRow env call requestId actorSnapshot
        prepared.locations).id = env.movementId from rfl,
        hFresh] at hFind
      cases hFind

/- A movement whose header and lines are in place. -/
structure Booked
    (env : MovementEnv)
    (call : MovementCall)
    (requestId : Text)
    (prepared : Prepared)
    (m : Movement)
    (rows : List MovementLine)
    (held : List Lock)
    (s : Db) : Prop where
  callOk : CallOk call
  placed : Placed env call requestId prepared held s
  row : IsRowOf env call requestId prepared m
  rowsOk : RowsOk env call prepared rows

theorem Booked.stable
    (hD : Governs D)
    (h : Booked env call requestId prepared m rows held s)
    (hReach : D.Reach held s s')
    (hSub : ∀ k ∈ held, k ∈ held') :
    Booked env call requestId prepared m rows held' s' :=
  ⟨h.callOk, h.placed.stable hD hReach hSub, h.row,
    h.rowsOk⟩

theorem Booked.admissible
    (h : Booked env call requestId prepared m rows held s) :
    Admissible s m rows := by
  rcases h.row with ⟨actorSnapshot, rfl⟩
  exact h.placed.admissible h.callOk h.rowsOk

/- The rows of the items are locked. -/
theorem Booked.heldItem
    (h : Booked env call requestId prepared m rows held s)
    {l : MovementLine}
    (hl : l ∈ rows) :
    .exclusive (.itemRow l.itemId) ∈ held := by
  rcases h.rowsOk.line_of_row hl with ⟨l', hl', hPair⟩
  have hItem : l'.itemId = l.itemId := congrArg Prod.fst hPair
  rw [← hItem]
  exact h.placed.ready.heldItems l' hl'

/- Every balance of the movement is in range. -/
theorem Booked.inRange
    (h : Booked env call requestId prepared m rows held s)
    (hValid : WarehouseValid s)
    {l : MovementLine}
    (hl : l ∈ rows) :
    LineInRange s m rows l := by
  rcases h.row with ⟨actorSnapshot, rfl⟩
  exact inRange_of_rowsOk hValid h.placed.ready h.placed.fresh
    h.rowsOk hl

/- The line rows are inserted one after the other. -/
theorem wlp_insertMovementLines
    {f : Unit → Op α}
    (hD : Governs D)
    (hPlaced : Placed env call requestId prepared held s)
    (hRow : IsRowOf env call requestId prepared m)
    {done rest : List MovementLine}
    (hRows : RowsOk env call prepared (done ++ rest))
    (hInv : D.inv s)
    (hOk : ∀ s', D.Reach held s s' →
      Placed env call requestId prepared held s' →
      (f ()).wlp D Q held
        (fun db => db.withMovement m (done ++ rest)) s') :
    (insertMovementLines m rest >>= f).wlp D Q held
      (fun db => db.withMovement m done) s := by
  induction rest generalizing done s with
  | nil =>
      rw [List.append_nil] at hOk
      exact hOk s (.refl hInv) hPlaced
  | cons l rest ih =>
      have hId : m.id = env.movementId := by
        rcases hRow with ⟨_, rfl⟩
        rfl
      simp only [insertMovementLines, insertMovementLine,
        bind_assoc]
      apply Txn.wlp_query
      intro s₁ h₁
      have hPlaced₁ := hPlaced.stable hD h₁ (fun _ hk => hk)
      apply wlp_enforce_ok
      · rw [originalLines_withMovement hPlaced₁ hRow (by
          intro l' hl'
          rw [hId]
          exact hRows.header l' (List.mem_append_left _ hl'))]
        rcases hRow with ⟨actorSnapshot, rfl⟩
        exact hRows.correctionLine hPlaced₁.ready
          hPlaced₁.mirror
          (List.mem_append_right _ List.mem_cons_self)
      apply Txn.wlp_update
      have hOwn : ((fun db : Db => { db with
          movementLines := db.movementLines ++ [l] }) ∘
          fun db : Db => db.withMovement m done) =
          fun db : Db => db.withMovement m (done ++ [l]) := by
        funext db
        simp [Db.withMovement]
      rw [hOwn]
      apply ih hPlaced₁ (by simpa using hRows) h₁.inv
      intro s₂ h₂ hPlaced₂
      have hDone := hOk s₂ (h₁.trans h₂) hPlaced₂
      simpa using hDone

------------------------------------------------------------
-- Refresh
------------------------------------------------------------

/- The journal of the items stays while they are locked. -/
theorem Booked.journal_stable
    (hD : Governs D)
    (h : Booked env call requestId prepared m rows held s)
    (hInv : D.inv s)
    (hReach : D.Reach held s s')
    {l : MovementLine}
    (hl : l ∈ rows) :
    (∀ location,
      (s'.withMovement m rows).journalStock l.itemId
          location =
        (s.withMovement m rows).journalStock l.itemId
          location) ∧
    ∀ user,
      (s'.withMovement m rows).journalCustody user l.itemId =
        (s.withMovement m rows).journalCustody user
          l.itemId := by
  have h' := h.stable hD hReach (fun _ hk => hk)
  have hFixed : ItemFixed l.itemId s s' :=
    hD.fixed hReach (h.heldItem hl)
  have hLink : ∀ {db held},
      Booked env call requestId prepared m rows held db →
      ∀ o, m.originalMovementId = some o →
        ∃ original, db.findMovement o = some original := by
    intro db held hBooked o ho
    rcases hBooked.admissible.link o ho with
      ⟨original, hFind, _⟩
    exact ⟨original, hFind⟩
  have hOriginal : s'.originalOf m = s.originalOf m := by
    unfold Db.originalOf
    cases ho : m.originalMovementId with
    | none => rfl
    | some o =>
        rcases hLink h o ho with ⟨original, hFind⟩
        rw [Option.bind_some, Option.bind_some, hFind,
          hD.find_stable hReach hFind]
  constructor
  · intro location
    rw [Db.journalStock_withMovement (hD.valid hReach.inv).journal
        h'.admissible.freshId h'.admissible.rows.header,
      Db.journalStock_withMovement (hD.valid hInv).journal
        h.admissible.freshId h.admissible.rows.header,
      hFixed.journalStock]
  · intro user
    rw [Db.journalCustody_withMovement
        (hD.valid hReach.inv).journal h'.admissible.freshId
        h'.admissible.rows.header (hLink h'),
      Db.journalCustody_withMovement (hD.valid hInv).journal
        h.admissible.freshId h.admissible.rows.header
        (hLink h), hFixed.journalCustody, hOriginal]

/- What was written stays what the journal says. -/
theorem Booked.refreshed_stable
    {ws : List BalanceWrite}
    (hD : Governs D)
    (h : Booked env call requestId prepared m rows held s)
    (hInv : D.inv s)
    (hRefreshed : Refreshed s m rows ws)
    (hReach : D.Reach held s s') :
    Refreshed s' m rows ws where
  stock item location q hq := by
    rcases hRefreshed.items _ hq with ⟨l, hl, hItem⟩
    change l.itemId = item at hItem
    subst hItem
    rw [(h.journal_stable hD hInv hReach hl).1]
    exact hRefreshed.stock _ _ _ hq
  custody user item q hq := by
    rcases hRefreshed.items _ hq with ⟨l, hl, hItem⟩
    change l.itemId = item at hItem
    subst hItem
    rw [(h.journal_stable hD hInv hReach hl).2]
    exact hRefreshed.custody _ _ _ hq
  items := hRefreshed.items

/- The changes of a call: the rows, then the balances. -/
def bookedWith
    (m : Movement)
    (rows : List MovementLine)
    (ws : List BalanceWrite)
    (db : Db) : Db :=
  BalanceWrite.applyAll ws (db.withMovement m rows)

theorem bookedWith_append
    (ws : List BalanceWrite)
    (w : BalanceWrite) :
    w.apply ∘ bookedWith m rows ws =
      bookedWith m rows (ws ++ [w]) := by
  funext db
  simp [bookedWith, BalanceWrite.applyAll_append]

/- One position is written with what the journal says. -/
theorem wlp_refreshPosition
    {f : Unit → Op α}
    {ws : List BalanceWrite}
    {l : MovementLine}
    {position : Option Uuid}
    (hD : Governs D)
    (hInv : D.inv s)
    (h : Booked env call requestId prepared m rows held s)
    (hRefreshed : Refreshed s m rows ws)
    (hl : l ∈ rows)
    (hAt : ∀ location, position = some location →
      AtPosition m location)
    (hOk : ∀ ws' s', D.Reach held s s' →
      Refreshed s' m rows ws' →
      (∀ w ∈ ws, w ∈ ws') →
      (∀ location, position = some location →
        ∃ q, BalanceWrite.stock l.itemId location q ∈ ws') →
      (f ()).wlp D Q held (bookedWith m rows ws') s') :
    (refreshPosition l.itemId position >>= f).wlp D Q held
      (bookedWith m rows ws) s := by
  cases position with
  | none =>
      exact hOk ws s (.refl hInv) hRefreshed (fun _ hw => hw)
        (by simp)
  | some location =>
      simp only [refreshPosition, refreshStock, bind_assoc]
      apply Txn.wlp_query
      intro s₁ h₁
      have hBooked₁ := h.stable hD h₁ (fun _ hk => hk)
      have hRefreshed₁ := h.refreshed_stable hD hInv
        hRefreshed h₁
      have hExpected :
          (bookedWith m rows ws s₁).expectedQuantity l.itemId
              location =
            (s₁.withMovement m rows).journalStock l.itemId
              location := by
        rw [Db.expectedQuantity_eq_journalStock, bookedWith,
          BalanceWrite.journalStock_applyAll]
      have hRange := (hBooked₁.inRange (hD.valid h₁.inv)
        hl).stock location (hAt location rfl)
      rw [hExpected]
      apply Txn.wlp_require
      · exact fun hNot => absurd hRange hNot
      intro _
      apply Txn.wlp_update
      rw [show Db.writeStock l.itemId location
          ((s₁.withMovement m rows).journalStock l.itemId
            location) =
        (BalanceWrite.stock l.itemId location
          ((s₁.withMovement m rows).journalStock l.itemId
            location)).apply from rfl, bookedWith_append]
      apply hOk _ s₁ h₁
      · refine ⟨?_, ?_, ?_⟩
        · intro item' location' q hq
          rcases List.mem_append.mp hq with hq | hq
          · exact hRefreshed₁.stock _ _ _ hq
          · simp only [List.mem_singleton,
              BalanceWrite.stock.injEq] at hq
            rcases hq with ⟨rfl, rfl, rfl⟩
            exact ⟨rfl, hRange⟩
        · intro user item' q hq
          rcases List.mem_append.mp hq with hq | hq
          · exact hRefreshed₁.custody _ _ _ hq
          · simp at hq
        · intro w hw
          rcases List.mem_append.mp hw with hw | hw
          · exact hRefreshed₁.items w hw
          · rw [List.mem_singleton.mp hw]
            exact ⟨l, hl, rfl⟩
      · exact fun w hw => List.mem_append_left _ hw
      · rintro location' ⟨⟩
        exact ⟨_, List.mem_append_right _
          (List.mem_singleton_self _)⟩

/- Why the holder of a line is not eligible any more. -/
theorem Booked.holderCause
    (hD : Governs D)
    (h : Booked env call requestId prepared m rows held s)
    (hSeen : Seen D s₀ env.session call prepared.original)
    (hStart : D.Reach [] s₀ s)
    {user : Uuid}
    (hUser : call.custodyUserId = some user)
    {l : MovementLine}
    (hl : l ∈ rows)
    (hNonzero : (s.withMovement m rows).journalCustody user
      l.itemId ≠ 0)
    (hNot : ¬ HolderEligible s user) :
    GuardCause D s₀ env call .custodyHolderEligibility := by
  refine ⟨s, user, hUser, hStart, hNot, ?_⟩
  rcases hSeen.holder user hUser with
    ⟨s₁, row, hReach, hLoaded, hMay⟩
  by_cases hGives :
      call.payload.movementType ≠ .reversal ∨
        0 < custodyDelta call.payload.movementType
          prepared.original
  · exact Or.inl ⟨s₁, row, hReach, hLoaded, hMay hGives⟩
  · -- taking back leaves some only of what was there
    have hValid := hD.valid hStart.inv
    have hRange := (h.inRange hValid hl).custody
    have hIsUser : m.custodyUserId = some user := by
      rcases h.row with ⟨_, rfl⟩
      exact hUser
    have hAfter := (hRange user hIsUser).1
    simp only [not_or, not_not, not_lt] at hGives
    refine Or.inr ⟨hGives.1, l.itemId, ?_⟩
    have hRows := h.admissible.rows
    rcases h.row with ⟨actorSnapshot, rfl⟩
    rw [journalCustody_row hValid h.placed.ready
      h.placed.fresh hRows hl hUser] at hAfter hNonzero
    have hTakes : custodyDelta call.payload.movementType
        prepared.original * (l.quantity : Int) ≤ 0 :=
      Int.mul_nonpos_of_nonpos_of_nonneg hGives.2
        (Int.natCast_nonneg _)
    omega

/- The holder is written with what the journal says. -/
theorem wlp_refreshHolder
    {f : Unit → Op α}
    {ws : List BalanceWrite}
    {l : MovementLine}
    (hD : Governs D)
    (hAllowed : Allowed D s₀ env call Q)
    (hStart : D.Reach [] s₀ s)
    (hSeen : Seen D s₀ env.session call prepared.original)
    (h : Booked env call requestId prepared m rows held s)
    (hRefreshed : Refreshed s m rows ws)
    (hl : l ∈ rows)
    (hOk : ∀ ws' held' s', D.Reach held s s' →
      (∀ k ∈ held, k ∈ held') →
      Refreshed s' m rows ws' →
      (∀ w ∈ ws, w ∈ ws') →
      (∀ user, m.custodyUserId = some user →
        ∃ q, BalanceWrite.custody user l.itemId q ∈ ws') →
      (f ()).wlp D Q held' (bookedWith m rows ws') s') :
    (refreshHolder l.itemId m.custodyUserId >>= f).wlp D Q
      held (bookedWith m rows ws) s := by
  have hInv := hStart.inv
  have hHolder : m.custodyUserId = call.custodyUserId := by
    rcases h.row with ⟨_, rfl⟩
    rfl
  cases hUser : m.custodyUserId with
  | none =>
      exact hOk ws held s (.refl hInv) (fun _ hk => hk)
        hRefreshed (fun _ hw => hw) (by simp [hUser])
  | some user =>
      simp only [refreshHolder, refreshCustody, bind_assoc]
      apply Txn.wlp_query
      intro s₁ h₁
      have hBooked₁ := h.stable hD h₁ (fun _ hk => hk)
      have hExpected :
          (bookedWith m rows ws s₁).journalCustody user
              l.itemId =
            (s₁.withMovement m rows).journalCustody user
              l.itemId := by
        rw [bookedWith, BalanceWrite.journalCustody_applyAll]
      have hRange := (hBooked₁.inRange (hD.valid h₁.inv)
        hl).custody user hUser
      rw [hExpected]
      apply Txn.wlp_require
      · exact fun hNot => absurd hRange hNot
      intro _
      -- the write, wherever it comes
      have hWrite : ∀ held' s',
          D.Reach held s s' → D.Reach held s₁ s' →
          (∀ k ∈ held, k ∈ held') →
          (f ()).wlp D Q held'
            (bookedWith m rows (ws ++ [.custody user l.itemId
              ((s₁.withMovement m rows).journalCustody user
                l.itemId)])) s' := by
        intro held' s' hReach hFrom₁ hSub
        have hRefreshed' := h.refreshed_stable hD hInv
          hRefreshed hReach
        have hSame := (hBooked₁.journal_stable hD h₁.inv hFrom₁
          hl).2 user
        apply hOk _ held' s' hReach hSub
        · refine ⟨?_, ?_, ?_⟩
          · intro item' location' q hq
            rcases List.mem_append.mp hq with hq | hq
            · exact hRefreshed'.stock _ _ _ hq
            · simp at hq
          · intro user' item' q hq
            rcases List.mem_append.mp hq with hq | hq
            · exact hRefreshed'.custody _ _ _ hq
            · simp only [List.mem_singleton,
                BalanceWrite.custody.injEq] at hq
              rcases hq with ⟨rfl, rfl, rfl⟩
              exact ⟨hSame.symm, hRange⟩
          · intro w hw
            rcases List.mem_append.mp hw with hw | hw
            · exact hRefreshed'.items w hw
            · rw [List.mem_singleton.mp hw]
              exact ⟨l, hl, rfl⟩
        · exact fun w hw => List.mem_append_left _ hw
        · intro user' hUser'
          rw [hUser] at hUser'
          cases hUser'
          exact ⟨_, List.mem_append_right _
          (List.mem_singleton_self _)⟩
      have hApply : ∀ q, Db.writeCustody user l.itemId q ∘
          bookedWith m rows ws =
            bookedWith m rows
              (ws ++ [.custody user l.itemId q]) :=
        fun q => bookedWith_append ws (.custody user l.itemId q)
      by_cases hZero : (s₁.withMovement m rows).journalCustody
          user l.itemId = 0
      · rw [if_pos hZero]
        apply Txn.wlp_update
        rw [hApply]
        exact hWrite held s₁ h₁ (.refl h₁.inv) (fun _ hk => hk)
      · rw [if_neg hZero]
        simp only [enforceCustodyHolderEligibility, bind_assoc]
        apply Txn.wlp_acquire
        intro s₂ h₂
        apply Txn.wlp_query
        intro s₃ h₃
        have hFrom₁ := Discipline.reach_of_cons h₂ h₃
        have hReach₃ := h₁.trans hFrom₁
        have hStart₃ : D.Reach [] s₀ s₃ :=
          hStart.trans (hReach₃.weaken (by simp))
        have hRow : (bookedWith m rows ws s₃).findUser user =
            s₃.findUser user := by
          rw [bookedWith, BalanceWrite.findUser_applyAll]
          rfl
        rw [hRow]
        apply Txn.wlp_require
        · intro hNot s₄ h₄
          apply hAllowed.guards .custodyHolderEligibility
          · apply (h.stable hD hReach₃ (fun _ hk =>
              hk)).holderCause hD hSeen hStart₃
                (hHolder ▸ hUser) hl
            · rw [(hBooked₁.journal_stable hD h₁.inv hFrom₁
                hl).2]
              exact hZero
            · rintro ⟨u, hFind, hMay⟩
              apply hNot
              simp [hFind, hMay.1, hMay.2]
          · exact hStart₃.trans (h₄.weaken (by simp))
        · intro _
          apply Txn.wlp_update
          rw [hApply]
          exact hWrite _ s₃ hReach₃ hFrom₁
            (fun k hk => List.mem_cons_of_mem _ hk)

/- The balances of one line are refreshed. -/
theorem wlp_refreshWarehouseProjection
    {f : Unit → Op α}
    {ws : List BalanceWrite}
    {l : MovementLine}
    (hD : Governs D)
    (hAllowed : Allowed D s₀ env call Q)
    (hStart : D.Reach [] s₀ s)
    (hSeen : Seen D s₀ env.session call prepared.original)
    (h : Booked env call requestId prepared m rows held s)
    (hRefreshed : Refreshed s m rows ws)
    (hl : l ∈ rows)
    (hOk : ∀ ws' held' s', D.Reach held s s' →
      (∀ k ∈ held, k ∈ held') →
      Refreshed s' m rows ws' →
      (∀ w ∈ ws, w ∈ ws') →
      Covers m [l] ws' →
      (f ()).wlp D Q held' (bookedWith m rows ws') s') :
    (refreshWarehouseProjection m.id l.itemId >>= f).wlp D Q
      held (bookedWith m rows ws) s := by
  simp only [refreshWarehouseProjection, bind_assoc]
  apply Txn.wlp_query
  intro s₁ h₁
  have hBooked₁ := h.stable hD h₁ (fun _ hk => hk)
  have hFind : (bookedWith m rows ws s₁).findMovement m.id =
      some m := by
    rw [bookedWith, BalanceWrite.findMovement_applyAll]
    exact Db.findMovement_withMovement_self
      hBooked₁.admissible.freshId
  rw [hFind]
  apply Txn.wlp_getOrFail
  · rintro ⟨⟩
  rintro header ⟨⟩
  apply Txn.wlp_query
  intro s₂ h₂
  have hTo₂ := h₁.trans h₂
  have hBooked₂ := h.stable hD hTo₂ (fun _ hk => hk)
  have hLine : ((bookedWith m rows ws s₂).linesOf m.id).any
      (fun l' => l'.itemId = l.itemId) = true := by
    rw [bookedWith, BalanceWrite.linesOf_applyAll,
      Db.linesOf_withMovement_self (hD.valid h₂.inv).journal
        hBooked₂.admissible.freshId
        hBooked₂.admissible.rows.header]
    exact List.any_eq_true.mpr ⟨l, hl, by simp⟩
  apply Txn.wlp_require
  · exact fun hNot => absurd hLine hNot
  intro _
  have hRefreshed₂ := h.refreshed_stable hD hStart.inv
    hRefreshed hTo₂
  apply wlp_refreshPosition hD h₂.inv hBooked₂ hRefreshed₂ hl
    (fun location hSource => Or.inl hSource)
  intro ws₃ s₃ h₃ hRefreshed₃ hSub₃ hSource
  have hBooked₃ := hBooked₂.stable hD h₃ (fun _ hk => hk)
  have hAtDestination : ∀ location,
      (if m.destinationLocationId = m.sourceLocationId
        then none else m.destinationLocationId) =
          some location →
        AtPosition m location := by
    intro location hAt
    split at hAt
    · cases hAt
    · exact Or.inr hAt
  apply wlp_refreshPosition hD h₃.inv hBooked₃ hRefreshed₃ hl
    hAtDestination
  intro ws₄ s₄ h₄ hRefreshed₄ hSub₄ hDestination
  have hTo₄ := (hTo₂.trans h₃).trans h₄
  have hBooked₄ := hBooked₃.stable hD h₄ (fun _ hk => hk)
  have hStart₄ : D.Reach [] s₀ s₄ :=
    hStart.trans (hTo₄.weaken (by simp))
  apply wlp_refreshHolder hD hAllowed hStart₄ hSeen hBooked₄
    hRefreshed₄ hl
  intro ws₅ held₅ s₅ h₅ hSubHeld hRefreshed₅ hSub₅ hHolder
  apply hOk ws₅ held₅ s₅ (hTo₄.trans h₅) hSubHeld hRefreshed₅
    (fun w hw => hSub₅ w (hSub₄ w (hSub₃ w hw)))
  constructor
  · intro l' hl' location hAt
    cases List.mem_singleton.mp hl'
    rcases hAt with hAt | hAt
    · rcases hSource location hAt with ⟨q, hq⟩
      exact ⟨q, hSub₅ _ (hSub₄ _ hq)⟩
    · by_cases hSame :
          m.destinationLocationId = m.sourceLocationId
      · rcases hSource location (hSame ▸ hAt) with ⟨q, hq⟩
        exact ⟨q, hSub₅ _ (hSub₄ _ hq)⟩
      · rcases hDestination location (by
          rw [if_neg hSame]
          exact hAt) with ⟨q, hq⟩
        exact ⟨q, hSub₅ _ hq⟩
  · intro l' hl' user hUser
    cases List.mem_singleton.mp hl'
    exact hHolder user hUser

/- The balances of all lines are refreshed. -/
theorem wlp_refreshLines
    {f : Unit → Op α}
    {ws : List BalanceWrite}
    {done rest : List MovementLine}
    (hD : Governs D)
    (hAllowed : Allowed D s₀ env call Q)
    (hStart : D.Reach [] s₀ s)
    (hSeen : Seen D s₀ env.session call prepared.original)
    (h : Booked env call requestId prepared m rows held s)
    (hRefreshed : Refreshed s m rows ws)
    (hCovers : Covers m done ws)
    (hRows : rows = done ++ rest)
    (hOk : ∀ ws' held' s', D.Reach held s s' →
      (∀ k ∈ held, k ∈ held') →
      Refreshed s' m rows ws' →
      Covers m rows ws' →
      (f ()).wlp D Q held' (bookedWith m rows ws') s') :
    (refreshLines m.id rest >>= f).wlp D Q held
      (bookedWith m rows ws) s := by
  induction rest generalizing done held ws s with
  | nil =>
      rw [List.append_nil] at hRows
      exact hOk ws held s (.refl hStart.inv) (fun _ hk => hk)
        hRefreshed (hRows ▸ hCovers)
  | cons l rest ih =>
      have hl : l ∈ rows := by
        rw [hRows]
        exact List.mem_append_right _ List.mem_cons_self
      simp only [refreshLines, bind_assoc]
      apply wlp_refreshWarehouseProjection hD hAllowed hStart
        hSeen h hRefreshed hl
      intro ws₁ held₁ s₁ h₁ hSub₁ hRefreshed₁ hKept hLine
      have hBooked₁ := h.stable hD h₁ hSub₁
      have hStart₁ : D.Reach [] s₀ s₁ :=
        hStart.trans (h₁.weaken (by simp))
      have hCovers₁ : Covers m (done ++ [l]) ws₁ := by
        constructor
        · intro l' hl' location hAt
          rcases List.mem_append.mp hl' with hl' | hl'
          · rcases hCovers.stock l' hl' location hAt with
              ⟨q, hq⟩
            exact ⟨q, hKept _ hq⟩
          · exact hLine.stock l' hl' location hAt
        · intro l' hl' user hUser
          rcases List.mem_append.mp hl' with hl' | hl'
          · rcases hCovers.custody l' hl' user hUser with
              ⟨q, hq⟩
            exact ⟨q, hKept _ hq⟩
          · exact hLine.custody l' hl' user hUser
      apply ih hStart₁ hBooked₁ hRefreshed₁ hCovers₁
        (by simpa using hRows)
      intro ws₂ held₂ s₂ h₂ hSub₂
      exact hOk ws₂ held₂ s₂ (h₁.trans (h₂.weaken hSub₁))
        (fun k hk => hSub₂ k (hSub₁ k hk))

end Rows
