import DcInventory.Inventory.Discipline

/-
  This file proves what is known, under any discipline of the
  warehouse, when a movement is about to be written.

  Key definitions include:
    * `Quiet`
    * `Ready`
    * `Seen`

  Key theorems include:
    * `Ready.stable`
    * `wlp_prepareMovement`
-/

variable {α : Type}

/- Errors that no guard of the database raised are allowed. -/
def Quiet
    (D : Discipline Db Lock)
    (s₀ : Db)
    (Q : Post Db Lock Error α) : Prop :=
  ∀ e held own s, D.Reach [] s₀ s →
    (∀ g, e ≠ .database g) → Q (.error e) held own s

namespace Quiet

variable {D : Discipline Db Lock}
variable {s₀ s : Db}
variable {held : List Lock}
variable {own : Db → Db}
variable {Q : Post Db Lock Error α}

/- A failed check of the service is allowed. -/
theorem service
    (h : Quiet D s₀ Q)
    (hStart : D.Reach [] s₀ s)
    {e : Error}
    (hService : ∀ g, e ≠ .database g) :
    ∀ s', D.Reach held s s' → Q (.error e) held own s' :=
  fun s' hReach => h e held own s'
    (hStart.trans (hReach.weaken (by simp))) hService

/- A later start only sees errors that are seen earlier. -/
theorem later
    (h : Quiet D s₀ Q)
    (hStart : D.Reach [] s₀ s) :
    Quiet D s Q :=
  fun e held own s' hReach hService =>
    h e held own s' (hStart.trans hReach) hService

end Quiet

------------------------------------------------------------
-- Facts
------------------------------------------------------------

/- The original is committed and may be adjusted. -/
structure OriginalReady
    (call : MovementCall)
    (original : Option MovementRecord)
    (held : List Lock)
    (s : Db) : Prop where
  unlinked : call.payload.originalMovementId = none →
    original = none
  linked : ∀ o, call.payload.originalMovementId = some o →
    ∃ m, original = some ⟨m, s.linesOf o⟩ ∧
      s.findMovement o = some m ∧
      m.movementType ≠ .reversal ∧
      (call.payload.movementType = .correction →
        m.custodyUserId = none) ∧
      (call.payload.movementType = .reversal →
        call.custodyUserId = m.custodyUserId ∧
        ∀ m' ∈ s.movements, ¬ Reverses o m')
  lock : ∀ o, call.payload.originalMovementId = some o →
    .exclusive (.warehouseOriginalMovement o) ∈ held

/- The balances read are those of the locked items. -/
structure BalancesReady
    (call : MovementCall)
    (balances : Balances)
    (s : Db) : Prop where
  stock : ∀ l ∈ call.payload.lines, ∀ location,
    (call.payload.sourceLocationId = some location ∨
      call.payload.destinationLocationId = some location) →
    ((Table.find (fun b : StockBalance =>
        (b.itemId, b.locationId))
      (l.itemId, location) balances.stock).map
        StockBalance.quantity).getD 0 =
      s.stockQuantity l.itemId location
  custody : ∀ user, call.custodyUserId = some user →
    ∀ l ∈ call.payload.lines,
    ((Table.find UserItemCustodyBalance.itemId l.itemId
      balances.custody).map
        UserItemCustodyBalance.quantity).getD 0 =
      s.custodyQuantity user l.itemId

/- What the checks before the first insert establish. -/
structure Ready
    (call : MovementCall)
    (requestId : Text)
    (prepared : Prepared)
    (held : List Lock)
    (s : Db) : Prop where
  named : normalizeInlineText call.payload.clientRequestId
    "client_request_id" 128 = .ok requestId
  key : ∀ m ∈ s.movements,
    ¬ HasKey call.actorUserId requestId m
  positions : validatePositions call.payload = .ok ()
  original : OriginalReady call prepared.original held s
  distinct :
    (call.payload.lines.map MovementLineCreate.itemId).Nodup
  locations : ∀ id ∈ locationIds call.payload,
    ∃ l ∈ prepared.locations, l.id = id
  items : ∀ l ∈ call.payload.lines,
    ∃ i ∈ prepared.items, i.id = l.itemId
  correction : call.payload.movementType = .correction →
    ∀ o ∈ prepared.original,
      correctionConcernsOriginal call.payload o
  balances : BalancesReady call prepared.balances s
  heldKey : .exclusive (.warehouseIdempotency
    call.actorUserId requestId) ∈ held
  heldItems : ∀ l ∈ call.payload.lines,
    .exclusive (.itemRow l.itemId) ∈ held

/-
  What the checks saw, each at some time: a custody user,
  who may hold custody unless the movement only takes it
  back, and an original that was no receipt.
-/
structure Seen
    (D : Discipline Db Lock)
    (s₀ : Db)
    (session : List User)
    (call : MovementCall)
    (original : Option MovementRecord) : Prop where
  holder : ∀ user, call.custodyUserId = some user →
    ∃ s row, D.Reach [] s₀ s ∧
      loadedUser session (s.findUser user) = some row ∧
      ((call.payload.movementType ≠ .reversal ∨
        0 < custodyDelta call.payload.movementType
          original) → mayHoldCustody row)
  receipt : ∀ o, call.payload.originalMovementId = some o →
    ∃ s, D.Reach [] s₀ s ∧ ¬ IsReceipt s o

section Stable

variable {D : Discipline Db Lock}
variable {s s' : Db}
variable {held held' : List Lock}
variable {call : MovementCall}
variable {requestId : Text}

/- A missing movement stays missing under its lock. -/
theorem absent_stable
    {P : Movement → Prop}
    (hFixed : NoneNew P s s')
    (h : ∀ m ∈ s.movements, ¬ P m) :
    ∀ m ∈ s'.movements, ¬ P m :=
  fun m hm hP => h m (hFixed m hm hP) hP

theorem OriginalReady.stable
    {original : Option MovementRecord}
    (hD : Governs D)
    (h : OriginalReady call original held s)
    (hReach : D.Reach held s s')
    (hSub : ∀ k ∈ held, k ∈ held') :
    OriginalReady call original held' s' where
  unlinked := h.unlinked
  linked o ho := by
    rcases h.linked o ho with
      ⟨m, hRecord, hFind, hTarget, hCorrection, hReversal⟩
    have hFixed : NoneNew (Reverses o) s s' :=
      hD.fixed hReach (h.lock o ho)
    refine ⟨m, ?_, hD.find_stable hReach hFind, hTarget,
      hCorrection, ?_⟩
    · rw [hD.lines_stable hReach hFind]
      exact hRecord
    · intro hType
      exact ⟨(hReversal hType).1,
        absent_stable hFixed (hReversal hType).2⟩
  lock o ho := hSub _ (h.lock o ho)

theorem BalancesReady.stable
    {balances : Balances}
    (hD : Governs D)
    (h : BalancesReady call balances s)
    (hReach : D.Reach held s s')
    (hHeld : ∀ l ∈ call.payload.lines,
      .exclusive (.itemRow l.itemId) ∈ held) :
    BalancesReady call balances s' where
  stock l hl location hAt := by
    have hFixed : ItemFixed l.itemId s s' :=
      hD.fixed hReach (hHeld l hl)
    rw [h.stock l hl location hAt, hFixed.stock location]
  custody user hUser l hl := by
    have hFixed : ItemFixed l.itemId s s' :=
      hD.fixed hReach (hHeld l hl)
    rw [h.custody user hUser l hl, hFixed.custody user]

/- What was established holds until the locks are released. -/
theorem Ready.stable
    {prepared : Prepared}
    (hD : Governs D)
    (h : Ready call requestId prepared held s)
    (hReach : D.Reach held s s')
    (hSub : ∀ k ∈ held, k ∈ held') :
    Ready call requestId prepared held' s' where
  named := h.named
  key := absent_stable
    (hD.fixed hReach h.heldKey) h.key
  positions := h.positions
  original := h.original.stable hD hReach hSub
  distinct := h.distinct
  locations := h.locations
  items := h.items
  correction := h.correction
  balances := h.balances.stable hD hReach h.heldItems
  heldKey := hSub _ h.heldKey
  heldItems l hl := hSub _ (h.heldItems l hl)

end Stable

------------------------------------------------------------
-- Statements
------------------------------------------------------------

section Statements

variable {β : Type}
variable {D : Discipline Db Lock}
variable {s₀ s : Db}
variable {held : List Lock}
variable {own : Db → Db}
variable {Q : Post Db Lock Error α}

/- Rows are locked one after the other. -/
theorem wlp_lockRows
    {R : Type}
    {resource : Uuid → Resource}
    {find : Db → Uuid → Option R}
    {ids : List Uuid}
    {f : List R → Op α}
    (hInv : D.inv s)
    (hOk : ∀ rows held' s', D.Reach held s s' →
      (∀ k ∈ held, k ∈ held') →
      (∀ id ∈ ids, .exclusive (resource id) ∈ held') →
      (f rows).wlp D Q held' own s') :
    (lockRows resource find ids >>= f).wlp D Q held own s := by
  induction ids generalizing f held s with
  | nil =>
      exact hOk [] held s (.refl hInv) (fun _ h => h)
        (by simp)
  | cons id ids ih =>
      simp only [lockRows, bind_assoc, pure_bind]
      apply Txn.wlp_acquire
      intro s₁ h₁
      apply Txn.wlp_query
      intro s₂ h₂
      apply ih h₂.inv
      intro rows held' s₃ h₃ hSub hLocked
      apply hOk _ held' s₃
      · exact (Discipline.reach_of_cons h₁ h₂).trans
          (h₃.weaken fun _ hj => List.mem_cons_of_mem _ hj)
      · exact fun k hk => hSub k (List.mem_cons_of_mem _ hk)
      · intro j hj
        rcases List.mem_cons.mp hj with rfl | hj
        · exact hSub _ List.mem_cons_self
        · exact hLocked j hj

/- Rows that locks keep fixed are as they were locked. -/
theorem wlp_lockRows_fixed
    {R : Type}
    {resource : Uuid → Resource}
    {find : Db → Uuid → Option R}
    {ids : List Uuid}
    {f : List R → Op α}
    (hInv : D.inv s)
    (hFixed : ∀ {held s s' key}, D.Reach held s s' →
      .exclusive (resource key) ∈ held →
      find s' key = find s key)
    (hOk : ∀ rows held' s', D.Reach held s s' →
      (∀ k ∈ held, k ∈ held') →
      (∀ key ∈ ids, .exclusive (resource key) ∈ held') →
      rows = ids.filterMap (find s') →
      (f rows).wlp D Q held' id s') :
    (lockRows resource find ids >>= f).wlp D Q held id s := by
  induction ids generalizing f held s with
  | nil =>
      exact hOk [] held s (.refl hInv) (fun _ h => h)
        (by simp) rfl
  | cons key ids ih =>
      simp only [lockRows, bind_assoc, pure_bind]
      apply Txn.wlp_acquire
      intro s₁ h₁
      apply Txn.wlp_query
      intro s₂ h₂
      apply ih h₂.inv
      intro rows held' s₃ h₃ hSub hLocked hRows
      apply hOk _ held' s₃
      · exact Discipline.reach_of_cons h₁ (h₂.trans h₃)
      · exact fun k hk => hSub k (List.mem_cons_of_mem _ hk)
      · intro j hj
        rcases List.mem_cons.mp hj with rfl | hj
        · exact hSub _ List.mem_cons_self
        · exact hLocked j hj
      · have hSame := hFixed h₃ List.mem_cons_self
        rw [List.filterMap_cons, hSame, hRows]
        cases hFind : find s₂ key <;> simp [hFind]

/- The custody user, locked and looked at. -/
theorem wlp_lockCustodyUser
    {session : List User}
    {movementType : MovementType}
    {custodyUserId : Option Uuid}
    {f : Option User → Op α}
    (hQuiet : Quiet D s₀ Q)
    (hStart : D.Reach [] s₀ s)
    (hOk : ∀ user held' s', D.Reach held s s' →
      (∀ k ∈ held, k ∈ held') →
      (∀ id, custodyUserId = some id →
        ∃ s₁ row, D.Reach [] s₀ s₁ ∧
          loadedUser session (s₁.findUser id) = some row ∧
          user = some row ∧
          (movementType ≠ .reversal →
            mayHoldCustody row)) →
      (f user).wlp D Q held' id s') :
    (lockCustodyUser session movementType custodyUserId >>=
      f).wlp D Q held id s := by
  cases custodyUserId with
  | none =>
      exact hOk none held s (.refl hStart.inv)
        (fun _ h => h) (by simp)
  | some custodyUserId =>
      simp only [lockCustodyUser, bind_assoc, pure_bind]
      apply Txn.wlp_acquire
      intro s₁ h₁
      apply Txn.wlp_query
      intro s₂ h₂
      have hBoth := Discipline.reach_of_cons h₁ h₂
      have hReach : D.Reach [] s₀ s₂ :=
        hStart.trans (hBoth.weaken (by simp))
      apply Txn.wlp_getOrFail
      · intro _
        exact hQuiet.service hReach (by rintro g ⟨⟩)
      · intro row hRow
        apply Txn.wlp_require
        · intro _
          exact hQuiet.service hReach (by rintro g ⟨⟩)
        · intro hEligible
          apply hOk _ _ s₂ hBoth
            (fun k hk => List.mem_cons_of_mem _ hk)
          rintro id ⟨⟩
          exact ⟨s₂, row, hReach, hRow, rfl, fun hType =>
            hEligible.resolve_left hType⟩

/- A record is read by its id. -/
theorem wlp_getMovementRecord
    {movementId : Uuid}
    {f : MovementRecord → Op α}
    (hD : Governs D)
    (hQuiet : Quiet D s₀ Q)
    (hStart : D.Reach [] s₀ s)
    (hOk : ∀ m s', D.Reach held s s' →
      s'.findMovement movementId = some m →
      (f ⟨m, s'.linesOf movementId⟩).wlp D Q held id s') :
    (getMovementRecord movementId >>= f).wlp D Q held
      id s := by
  simp only [getMovementRecord, bind_assoc, pure_bind]
  apply Txn.wlp_query
  intro s₁ h₁
  have hReach : D.Reach [] s₀ s₁ :=
    hStart.trans (h₁.weaken (by simp))
  apply Txn.wlp_getOrFail
  · intro _
    exact hQuiet.service hReach (by rintro g ⟨⟩)
  · intro m hFind
    apply Txn.wlp_query
    intro s₂ h₂
    exact hOk m s₂ (h₁.trans h₂) (hD.find_stable h₂ hFind)

/- The original of a linked movement, locked and checked. -/
theorem wlp_checkOriginal
    {call : MovementCall}
    {custodyUser : Option User}
    {f : Option MovementRecord → Op α}
    (hD : Governs D)
    (hQuiet : Quiet D s₀ Q)
    (hStart : D.Reach [] s₀ s)
    (hOk : ∀ original held' s', D.Reach held s s' →
      (∀ k ∈ held, k ∈ held') →
      OriginalReady call original held' s' →
      (call.payload.movementType = .reversal →
        call.custodyUserId ≠ none →
        0 < custodyDelta call.payload.movementType original →
        ∃ row, custodyUser = some row ∧
          mayHoldCustody row) →
      (∀ o, call.payload.originalMovementId = some o →
        ∃ s₁, D.Reach [] s₀ s₁ ∧ ¬ IsReceipt s₁ o) →
      (f original).wlp D Q held' id s')
    (hLinked : isLinked call.payload.movementType =
      call.payload.originalMovementId.isSome) :
    (checkOriginal call.payload call.custodyUserId
      custodyUser call.payload.originalMovementId >>= f).wlp
        D Q held id s := by
  cases hOriginal : call.payload.originalMovementId with
  | none =>
      have hNot : call.payload.movementType ≠ .reversal := by
        intro hType
        simp [isLinked, hType, hOriginal] at hLinked
      apply hOk none held s (.refl hStart.inv) (fun _ h => h)
      · exact ⟨fun _ => rfl, by simp [hOriginal],
          by simp [hOriginal]⟩
      · exact fun hType => absurd hType hNot
      · simp [hOriginal]
  | some o =>
      simp only [checkOriginal, bind_assoc]
      apply Txn.wlp_acquire
      intro s₁ h₁
      apply Txn.wlp_query
      intro s₂ h₂
      have hTo₂ := Discipline.reach_of_cons h₁ h₂
      have hStart₂ : D.Reach [] s₀ s₂ :=
        hStart.trans (hTo₂.weaken (by simp))
      apply Txn.wlp_require
      · intro _
        exact hQuiet.service hStart₂ (by rintro g ⟨⟩)
      intro hNoRequest
      have hUnprotected : ∀ o',
          call.payload.originalMovementId = some o' →
            ∃ s₁, D.Reach [] s₀ s₁ ∧ ¬ IsReceipt s₁ o' := by
        intro o' ho'
        rw [hOriginal] at ho'
        cases ho'
        refine ⟨s₂, hStart₂, ?_⟩
        rintro ⟨r, hr, hFinal⟩
        have hNone := Option.isNone_iff_eq_none.mp hNoRequest
        rw [List.find?_eq_none] at hNone
        exact hNone r hr (by simpa using hFinal)
      apply wlp_getMovementRecord hD hQuiet hStart₂
      intro m s₃ h₃ hFind
      have hTo₃ := hTo₂.trans
        (h₃.weaken fun j hj => List.mem_cons_of_mem _ hj)
      have hStart₃ : D.Reach [] s₀ s₃ :=
        hStart.trans (hTo₃.weaken (by simp))
      apply Txn.wlp_require
      · intro _
        exact hQuiet.service hStart₃ (by rintro g ⟨⟩)
      intro hTarget
      apply Txn.wlp_require
      · intro _
        exact hQuiet.service hStart₃ (by rintro g ⟨⟩)
      intro hCorrection
      apply Txn.wlp_require
      · intro _
        exact hQuiet.service hStart₃ (by rintro g ⟨⟩)
      intro hReversal
      have hNoCustody :
          call.payload.movementType = .correction →
            m.custodyUserId = none := by
        intro hType
        by_contra hSome
        exact hCorrection ⟨hType, hSome⟩
      by_cases hType : call.payload.movementType = .reversal
      · rw [if_pos hType]
        simp only [bind_assoc, pure_bind]
        apply Txn.wlp_query
        intro s₄ h₄
        have hTo₄ := hTo₃.trans
          (h₄.weaken fun j hj => List.mem_cons_of_mem _ hj)
        have hStart₄ : D.Reach [] s₀ s₄ :=
          hStart.trans (hTo₄.weaken (by simp))
        apply Txn.wlp_require
        · intro _
          exact hQuiet.service hStart₄ (by rintro g ⟨⟩)
        intro hFirst
        apply Txn.wlp_require
        · intro _
          exact hQuiet.service hStart₄ (by rintro g ⟨⟩)
        intro hHolder
        apply hOk _ _ s₄ hTo₄
          (fun k hk => List.mem_cons_of_mem _ hk)
        · refine ⟨by simp [hOriginal], ?_, ?_⟩
          · intro o' ho'
            rw [hOriginal] at ho'
            cases ho'
            refine ⟨m, ?_, hD.find_stable h₄ hFind, hTarget,
              hNoCustody, ?_⟩
            · rw [hD.lines_stable h₄ hFind]
            · intro _
              constructor
              · by_contra hNe
                exact hReversal ⟨hType, hNe⟩
              · intro m' hm' hRev
                have hNone := Option.isNone_iff_eq_none.mp
                  hFirst
                rw [List.find?_eq_none] at hNone
                exact hNone m' hm' (by
                  simpa [Reverses] using hRev)
          · intro o' ho'
            rw [hOriginal] at ho'
            cases ho'
            exact List.mem_cons_self
        · intro _ hSome hGives
          by_contra hNone
          apply hHolder
          refine ⟨hSome, hGives, ?_⟩
          intro hAny
          apply hNone
          cases custodyUser with
          | none => simp at hAny
          | some row => exact ⟨row, rfl, by simpa using hAny⟩
        · exact hUnprotected
      · rw [if_neg hType]
        rw [pure_bind]
        apply hOk _ _ s₃ hTo₃
          (fun k hk => List.mem_cons_of_mem _ hk)
        · refine ⟨by simp [hOriginal], ?_, ?_⟩
          · intro o' ho'
            rw [hOriginal] at ho'
            cases ho'
            exact ⟨m, rfl, hFind, hTarget, hNoCustody,
              fun hRev => absurd hRev hType⟩
          · intro o' ho'
            rw [hOriginal] at ho'
            cases ho'
            exact List.mem_cons_self
        · exact fun hRev => absurd hRev hType
        · exact hUnprotected

theorem mem_sortedIds
    {ids : List Uuid}
    {id : Uuid} :
    id ∈ sortedIds ids ↔ id ∈ ids := by
  simp [sortedIds, List.mem_insertionSort]

/- Locations are locked and found. -/
theorem wlp_lockLocations
    {payload : MovementCreate}
    {f : List Location → Op α}
    (hQuiet : Quiet D s₀ Q)
    (hStart : D.Reach [] s₀ s)
    (hOk : ∀ locations held' s', D.Reach held s s' →
      (∀ k ∈ held, k ∈ held') →
      (∀ id ∈ locationIds payload,
        ∃ l ∈ locations, l.id = id) →
      (f locations).wlp D Q held' id s') :
    (lockLocations payload >>= f).wlp D Q held id s := by
  simp only [lockLocations, bind_assoc, pure_bind]
  apply wlp_lockRows hStart.inv
  intro locations held' s₁ h₁ hSub _
  have hStart₁ : D.Reach [] s₀ s₁ :=
    hStart.trans (h₁.weaken (by simp))
  apply Txn.wlp_require
  · intro _
    exact hQuiet.service hStart₁ (by rintro g ⟨⟩)
  intro hFound
  apply Txn.wlp_require
  · intro _
    exact hQuiet.service hStart₁ (by rintro g ⟨⟩)
  intro _
  exact hOk locations held' s₁ h₁ hSub hFound

/- Items are distinct, locked and found. -/
theorem wlp_lockItems
    {payload : MovementCreate}
    {f : List Item → Op α}
    (hQuiet : Quiet D s₀ Q)
    (hStart : D.Reach [] s₀ s)
    (hOk : ∀ items held' s', D.Reach held s s' →
      (∀ k ∈ held, k ∈ held') →
      (payload.lines.map MovementLineCreate.itemId).Nodup →
      (∀ l ∈ payload.lines, ∃ i ∈ items, i.id = l.itemId) →
      (∀ l ∈ payload.lines,
        .exclusive (.itemRow l.itemId) ∈ held') →
      (f items).wlp D Q held' id s') :
    (lockItems payload >>= f).wlp D Q held id s := by
  simp only [lockItems, bind_assoc, pure_bind]
  have hMem : ∀ l ∈ payload.lines,
      l.itemId ∈ itemIds payload := by
    intro l hl
    exact mem_sortedIds.mpr (List.mem_map_of_mem hl)
  apply Txn.wlp_require
  · intro _
    exact hQuiet.service hStart (by rintro g ⟨⟩)
  intro hDistinct
  apply wlp_lockRows hStart.inv
  intro items held' s₁ h₁ hSub hLocked
  have hStart₁ : D.Reach [] s₀ s₁ :=
    hStart.trans (h₁.weaken (by simp))
  apply Txn.wlp_require
  · intro _
    exact hQuiet.service hStart₁ (by rintro g ⟨⟩)
  intro hFound
  apply Txn.wlp_require
  · intro _
    exact hQuiet.service hStart₁ (by rintro g ⟨⟩)
  intro _
  exact hOk items held' s₁ h₁ hSub hDistinct
    (fun l hl => hFound _ (hMem l hl))
    (fun l hl => hLocked _ (hMem l hl))

/- The stock rows read have the quantities of the table. -/
theorem stock_of_read
    {payload : MovementCreate}
    {l : MovementLineCreate}
    {location : Uuid}
    (db : Db)
    (hItem : l.itemId ∈ itemIds payload)
    (hLocation : location ∈ locationIds payload) :
    ((Table.find (fun b : StockBalance =>
        (b.itemId, b.locationId))
      (l.itemId, location)
      (db.stockBalances.filter (fun b =>
        b.itemId ∈ itemIds payload ∧
          b.locationId ∈ locationIds payload))).map
      StockBalance.quantity).getD 0 =
      db.stockQuantity l.itemId location := by
  have hFind : Table.find (fun b : StockBalance =>
        (b.itemId, b.locationId)) (l.itemId, location)
      (db.stockBalances.filter (fun b =>
        b.itemId ∈ itemIds payload ∧
          b.locationId ∈ locationIds payload)) =
      db.findStockBalance l.itemId location := by
    unfold Db.findStockBalance Table.find
    rw [List.find?_filter]
    congr 1
    funext b
    simp only [Prod.mk.injEq, Bool.decide_and,
      Bool.and_eq_true, decide_eq_true_eq]
    grind
  rw [hFind, Db.stockQuantity]
  cases db.findStockBalance l.itemId location <;> rfl

/- The custody rows read have the quantities of the table. -/
theorem custody_of_read
    {payload : MovementCreate}
    {l : MovementLineCreate}
    {user : Uuid}
    (db : Db)
    (hItem : l.itemId ∈ itemIds payload) :
    ((Table.find UserItemCustodyBalance.itemId l.itemId
      (db.userItemCustodyBalances.filter (fun b =>
        b.userId = user ∧ b.itemId ∈ itemIds payload))).map
      UserItemCustodyBalance.quantity).getD 0 =
      db.custodyQuantity user l.itemId := by
  have hFind : Table.find UserItemCustodyBalance.itemId
        l.itemId
      (db.userItemCustodyBalances.filter (fun b =>
        b.userId = user ∧ b.itemId ∈ itemIds payload)) =
      db.findCustodyBalance user l.itemId := by
    unfold Db.findCustodyBalance Table.find
    rw [List.find?_filter]
    congr 1
    funext b
    simp only [Prod.mk.injEq, Bool.decide_and,
      Bool.and_eq_true, decide_eq_true_eq]
    grind
  rw [hFind, Db.custodyQuantity]
  cases db.findCustodyBalance user l.itemId <;> rfl

/- Balances are read under the locks of their items. -/
theorem wlp_readBalances
    {call : MovementCall}
    {items : List Item}
    {f : Balances → Op α}
    (hD : Governs D)
    (hHeld : ∀ l ∈ call.payload.lines,
      .exclusive (.itemRow l.itemId) ∈ held)
    (hOk : ∀ balances s', D.Reach held s s' →
      BalancesReady call balances s' →
      (f balances).wlp D Q held id s') :
    (readBalances call.payload call.custodyUserId items >>=
      f).wlp D Q held id s := by
  have hItem : ∀ l ∈ call.payload.lines,
      l.itemId ∈ itemIds call.payload := by
    intro l hl
    exact mem_sortedIds.mpr (List.mem_map_of_mem hl)
  have hLocation : ∀ location,
      (call.payload.sourceLocationId = some location ∨
        call.payload.destinationLocationId =
          some location) →
      location ∈ locationIds call.payload := by
    intro location hAt
    apply mem_sortedIds.mpr
    rcases hAt with hAt | hAt <;> simp [hAt]
  simp only [readBalances, bind_assoc]
  apply Txn.wlp_query
  intro s₁ h₁
  apply Txn.wlp_query
  intro s₂ h₂
  cases hUser : call.custodyUserId with
  | none =>
      rw [pure_bind]
      apply hOk _ s₂ (h₁.trans h₂)
      refine ⟨?_, by simp [hUser]⟩
      intro l hl location hAt
      exact stock_of_read s₂ (hItem l hl)
        (hLocation location hAt)
  | some user =>
      simp only [bind_assoc, pure_bind]
      apply Txn.wlp_query
      intro s₃ h₃
      apply hOk _ s₃ ((h₁.trans h₂).trans h₃)
      constructor
      · intro l hl location hAt
        have hFixed : ItemFixed l.itemId s₂ s₃ :=
          hD.fixed h₃ (hHeld l hl)
        rw [hFixed.stock location]
        exact stock_of_read s₂ (hItem l hl)
          (hLocation location hAt)
      · intro user' hUser' l hl
        rw [hUser] at hUser'
        cases hUser'
        exact custody_of_read s₃ (hItem l hl)

------------------------------------------------------------
-- Preparation
------------------------------------------------------------

theorem linked_of_validatePositions
    {payload : MovementCreate}
    (h : validatePositions payload = .ok ()) :
    isLinked payload.movementType =
      payload.originalMovementId.isSome := by
  unfold validatePositions at h
  split at h
  · cases h
  split at h
  · cases h
  split at h
  · cases h
  · rename_i hLinked
    simpa using hLinked

/- All checks before the first insert. -/
theorem wlp_prepareMovement
    {env : MovementEnv}
    {call : MovementCall}
    {requestId : Text}
    {f : Prepared → Op α}
    (hD : Governs D)
    (hQuiet : Quiet D s₀ Q)
    (hStart : D.Reach [] s₀ s)
    (hName : normalizeInlineText call.payload.clientRequestId
      "client_request_id" 128 = .ok requestId)
    (hKey : ∀ m ∈ s.movements,
      ¬ HasKey call.actorUserId requestId m)
    (hHeldKey : .exclusive (.warehouseIdempotency
      call.actorUserId requestId) ∈ held)
    (hOk : ∀ prepared held' s', D.Reach held s s' →
      (∀ k ∈ held, k ∈ held') →
      Ready call requestId prepared held' s' →
      Seen D s₀ env.session call prepared.original →
      (f prepared).wlp D Q held' id s') :
    (prepareMovement env call >>= f).wlp D Q held id s := by
  simp only [prepareMovement, bind_assoc, pure_bind]
  apply wlp_lockCustodyUser hQuiet hStart
  intro custodyUser held₁ s₁ h₁ hSub₁ hSeen
  have hStart₁ : D.Reach [] s₀ s₁ :=
    hStart.trans (h₁.weaken (by simp))
  apply Txn.wlp_ofExcept
  · intro e hPositions
    apply hQuiet.service hStart₁
    rintro g rfl
    unfold validatePositions at hPositions
    split at hPositions
    · cases hPositions
    split at hPositions
    · cases hPositions
    split at hPositions <;> cases hPositions
  intro _ hPositions
  have hLinked := linked_of_validatePositions hPositions
  refine wlp_checkOriginal hD hQuiet hStart₁ ?_ hLinked
  intro original held₂ s₂ h₂ hSub₂ hOriginal hGiven hReceipt
  have hStart₂ : D.Reach [] s₀ s₂ :=
    hStart₁.trans (h₂.weaken (by simp))
  apply wlp_lockLocations hQuiet hStart₂
  intro locations held₃ s₃ h₃ hSub₃ hLocations
  have hStart₃ : D.Reach [] s₀ s₃ :=
    hStart₂.trans (h₃.weaken (by simp))
  apply wlp_lockItems hQuiet hStart₃
  intro items held₄ s₄ h₄ hSub₄ hDistinct hItems hHeldItems
  have hStart₄ : D.Reach [] s₀ s₄ :=
    hStart₃.trans (h₄.weaken (by simp))
  apply Txn.wlp_require
  · intro _
    exact hQuiet.service hStart₄ (by rintro g ⟨⟩)
  intro hCorrection
  apply wlp_readBalances hD hHeldItems
  intro balances s₅ h₅ hBalances
  have hTo₃ : ∀ k ∈ held, k ∈ held₃ :=
    fun k hk => hSub₃ k (hSub₂ k (hSub₁ k hk))
  have hSub : ∀ k ∈ held, k ∈ held₄ :=
    fun k hk => hSub₄ k (hTo₃ k hk)
  have hReach : D.Reach held s s₅ :=
    (((h₁.trans (h₂.weaken hSub₁)).trans
      (h₃.weaken fun k hk => hSub₂ k (hSub₁ k hk))).trans
      (h₄.weaken hTo₃)).trans (h₅.weaken hSub)
  have hOriginal₃ := hOriginal.stable hD h₃ hSub₃
  have hOriginal₄ := hOriginal₃.stable hD h₄ hSub₄
  apply hOk _ held₄ s₅ hReach hSub
  · exact {
      named := hName
      key := absent_stable
        (hD.fixed hReach hHeldKey) hKey
      positions := hPositions
      original := hOriginal₄.stable hD h₅ (fun _ hk => hk)
      distinct := hDistinct
      locations := hLocations
      items := hItems
      correction := hCorrection
      balances := hBalances
      heldKey := hSub _ hHeldKey
      heldItems := hHeldItems }
  · refine ⟨?_, hReceipt⟩
    intro user hUser
    rcases hSeen user hUser with
      ⟨sSeen, row, hReachSeen, hRow, hCustodyUser, hMay⟩
    refine ⟨sSeen, row, hReachSeen, hRow, ?_⟩
    intro hOr
    by_cases hType : call.payload.movementType = .reversal
    · have hGives := hOr.resolve_left
        (fun hNe => hNe hType)
      rcases hGiven hType (by simp [hUser]) hGives with
        ⟨row', hSome, hMay'⟩
      rw [hCustodyUser] at hSome
      cases hSome
      exact hMay'
    · exact hMay hType

end Statements
