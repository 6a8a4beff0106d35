import DcInventory.Inventory.ExactlyOnce
import DcInventory.Inventory.Frame
import DcInventory.Inventory.Locations

/-
  This file proves that archived locations are empty, however
  the changes of locations and the movements interleave.

  Key definitions include:
    * `NoStockAt`
    * `stockrooms`
    * `LockedActive`
    * `StockroomClient`

  Key theorems include:
    * `request_stockrooms_safe`
    * `archived_location_is_empty`
-/

------------------------------------------------------------
-- Empty Locations
------------------------------------------------------------

/- No balance is kept for the location. -/
def NoStockAt (db : Db) (location : Uuid) : Prop :=
  ∀ b ∈ db.stockBalances, b.locationId ≠ location

/- A location without balances has nothing in the journal. -/
theorem noStockAt_iff_journal
    {db : Db}
    (h : ProjectionsAgree db)
    (location : Uuid) :
    NoStockAt db location ↔
      ∀ item, db.journalStock item location = 0 := by
  constructor
  · intro hNone item
    have hFind : db.findStockBalance item location = none := by
      apply Table.find_eq_none_iff.mpr
      intro b hb hKey
      exact hNone b hb (congrArg Prod.snd hKey)
    rw [← h.stock, Db.stockQuantity, hFind]
    rfl
  · rintro hJournal b hb rfl
    have hFind : db.findStockBalance b.itemId b.locationId =
        some b :=
      Table.find_of_mem h.stockKeys hb
    have hQuantity := h.stock b.itemId b.locationId
    rw [hJournal, Db.stockQuantity, hFind] at hQuantity
    have hPos := h.stockPos b hb
    simp at hQuantity
    omega

/- The location and what the journal says of it stay. -/
structure LocationFixed
    (location : Uuid)
    (s s' : Db) : Prop where
  row : s'.findLocation location = s.findLocation location
  journal : ∀ item,
    s'.journalStock item location =
      s.journalStock item location

theorem LocationFixed.refl
    (location : Uuid)
    (s : Db) :
    LocationFixed location s s :=
  ⟨rfl, fun _ => rfl⟩

theorem LocationFixed.trans
    {location : Uuid}
    {s s' s'' : Db}
    (h : LocationFixed location s s')
    (h' : LocationFixed location s' s'') :
    LocationFixed location s s'' where
  row := h'.row.trans h.row
  journal item := (h'.journal item).trans (h.journal item)

/- An empty location stays empty while it is fixed. -/
theorem NoStockAt.fixed
    {location : Uuid}
    {s s' : Db}
    (h : NoStockAt s location)
    (hValid : WarehouseValid s)
    (hValid' : WarehouseValid s')
    (hFixed : LocationFixed location s s') :
    NoStockAt s' location := by
  rw [noStockAt_iff_journal hValid.balances] at h
  rw [noStockAt_iff_journal hValid'.balances]
  intro item
  rw [hFixed.journal, h item]

------------------------------------------------------------
-- The Discipline Of Stockrooms
------------------------------------------------------------

/- Locations are told apart, and archived ones are empty. -/
structure LocationsValid (db : Db) : Prop where
  ids : (db.locations.map Location.id).Nodup
  empty : ∀ l ∈ db.locations, l.status = .archived →
    NoStockAt db l.id

/- What a lock on a location keeps fixed. -/
def Lock.FixesLocation
    (k : Lock)
    (s s' : Db) : Prop :=
  ∀ location, k = .exclusive (.locationRow location) →
    LocationFixed location s s'

/- The discipline of locations. -/
def storage : Discipline Db Lock where
  modes := Lock.modes
  inv := LocationsValid
  always _ _ := True
  protects := Lock.FixesLocation
  always_refl _ := trivial
  always_trans _ _ := trivial
  protects_refl _ s location _ := .refl location s
  protects_trans h h' location hLock :=
    (h location hLock).trans (h' location hLock)

/- The discipline of the warehouse and its locations. -/
def stockrooms : Discipline Db Lock :=
  warehouse.both storage

/- A locked location is fixed. -/
theorem locationFixed_of_reach
    {held : List Lock}
    {s s' : Db}
    {location : Uuid}
    (h : stockrooms.Reach held s s')
    (hHeld : .exclusive (.locationRow location) ∈ held) :
    LocationFixed location s s' :=
  h.right.protects _ hHeld location rfl

/-
  What the warehouse may commit, its locations may too, when
  those that are not locked are left alone.
-/
theorem stockrooms_commits
    {held : List Lock}
    {s s' : Db}
    (h : warehouse.Commits held s s')
    (hValid : LocationsValid s')
    (hFixed : ∀ location,
      .exclusive (.locationRow location) ∉ held →
        LocationFixed location s s') :
    stockrooms.Commits held s s' := by
  have hStorage : storage.Commits held s s' := by
    refine ⟨hValid, trivial, ?_⟩
    intro k hFree location hLock
    apply hFixed
    intro hHeld
    apply hFree _ hHeld
    rw [hLock]
    exact Lock.conflict_exclusive rfl
  exact h.both rfl hStorage

------------------------------------------------------------
-- Changes Of Locations
------------------------------------------------------------

/- What the transactions promise of each commit. -/
def MovesAtActive (s s' : Db) : Prop :=
  ∀ m ∈ s'.movements, m ∉ s.movements →
    ∀ location, AtPosition m location →
      (∃ l, s.findLocation location = some l ∧
        l.status = .active) ∧
      ∃ l, s'.findLocation location = some l ∧
        l.status = .active

/- A transaction that keeps its promises. -/
abbrev StockroomSafe {α : Type} (p : Op α) : Prop :=
  stockrooms.Safe (fun _ _ => True)
    (fun _ s s' => MovesAtActive s s') p

section Locations

variable {s : Db}
variable {held : List Lock}
variable {room : Uuid}
variable {change : Location → Location}

/- A changed location is found changed. -/
theorem findLocation_writeLocation
    (hKey : ∀ l, (change l).id = l.id)
    (location : Uuid) :
    (Db.writeLocation room change s).findLocation location =
      (s.findLocation location).map
        (fun l => if l.id = room then change l else l) :=
  Table.find_rewrite hKey s.locations

/- A locked location may be changed, not filled. -/
theorem writeLocation_commits
    (hInv : stockrooms.inv s)
    (hHeld : .exclusive (.locationRow room) ∈ held)
    (hKey : ∀ l, (change l).id = l.id)
    (hEmpty : ∀ l ∈ s.locations, l.id = room →
      (change l).status = .archived → NoStockAt s room) :
    stockrooms.Commits held s
      (Db.writeLocation room change s) := by
  have hKeeps : KeepsWarehouse s
      (Db.writeLocation room change s) :=
    ⟨⟨rfl, rfl, rfl, rfl⟩, fun _ => Iff.rfl⟩
  apply stockrooms_commits (hKeeps.commits hInv.1)
  · constructor
    · rw [Db.writeLocation, Table.map_key_rewrite hKey]
      exact hInv.2.ids
    · intro l hl hArchived
      rcases Table.mem_rewrite.mp hl with
        ⟨hOld, _⟩ | ⟨old, hOld, hId, rfl⟩
      · exact hInv.2.empty l hOld hArchived
      · rw [hKey, hId]
        exact hEmpty old hOld hId hArchived
  · intro location hFree
    have hNe : location ≠ room :=
      fun hEq => hFree (hEq ▸ hHeld)
    constructor
    · rw [findLocation_writeLocation hKey]
      cases hFind : s.findLocation location with
      | none => rfl
      | some l =>
          have hId : l.id = location := Table.key_of_find hFind
          simp [hId, hNe]
    · exact fun item => hKeeps.same.journalStock item location

/- A changed location makes no movement. -/
theorem movesAtActive_writeLocation :
    MovesAtActive s (Db.writeLocation room change s) :=
  fun _ hm hNew => absurd hm hNew

/- The location is locked and found. -/
theorem wlp_lockLocation
    {α : Type}
    {f : Location → Op α}
    {Q : Post Db Lock Error α}
    (hErr : ∀ e held s, Q (.error e) held id s)
    (hOk : ∀ location s', stockrooms.inv s' →
      (f location).wlp stockrooms Q
        [.exclusive (.locationRow room)] id s') :
    (lockLocation room >>= f).wlp stockrooms Q [] id
      s := by
  simp only [lockLocation, bind_assoc]
  apply Txn.wlp_acquire
  intro s₁ h₁
  apply Txn.wlp_query
  intro s₂ h₂
  apply Txn.wlp_getOrFail
  · exact fun _ s' _ => hErr _ _ s'
  · exact fun location _ => hOk location s₂ h₂.inv

/-
  The location is written as `change` says and the
  transaction ends.
-/
theorem wlp_writeLocation
    {result : Location}
    (change : Location → Location)
    (hInv : stockrooms.inv s)
    (hKey : ∀ l, (change l).id = l.id)
    (hEmpty : ∀ l, (change l).status = .archived →
      l.status = .archived ∨ NoStockAt s room) :
    (Txn.update (Db.writeLocation room change) >>=
      fun _ => (pure result : Op Location)).wlp stockrooms
        (stockrooms.Guarantee (fun _ _ => True)
          (fun _ s s' => MovesAtActive s s'))
        [.exclusive (.locationRow room)] id s := by
  have hHeld : Lock.exclusive (.locationRow room) ∈
      [Lock.exclusive (.locationRow room)] :=
    List.mem_singleton_self _
  apply Txn.wlp_update
  apply Txn.wlp_pure
  intro s' h _
  refine ⟨?_, movesAtActive_writeLocation⟩
  apply writeLocation_commits h.inv hHeld hKey
  intro l hl hId hArchived
  rcases hEmpty l hArchived with hWas | hNone
  · rw [← hId]
    exact h.inv.2.empty l hl hWas
  · exact hNone.fixed hInv.1.1 h.inv.1.1
      (locationFixed_of_reach h hHeld)

/- Patches of locations can be interleaved. -/
theorem updateLocation_safe
    (payload : LocationPatch) :
    StockroomSafe (updateLocation room payload) := by
  intro s hInv
  apply wlp_lockLocation (fun _ _ _ => trivial)
  intro location s₁ hInv₁
  apply Txn.wlp_ofExcept
  · exact fun _ _ _ _ => trivial
  intro name _
  apply wlp_writeLocation (payload.apply name) hInv₁
    (fun _ => rfl)
  exact fun _ hArchived => Or.inl hArchived

/- Archiving and its undoing can be interleaved. -/
theorem setLocationArchived_safe
    (archived : Bool)
    (now : Time) :
    StockroomSafe (setLocationArchived room archived now) := by
  intro s hInv
  apply wlp_lockLocation (fun _ _ _ => trivial)
  intro location s₁ hInv₁
  cases archived with
  | false =>
      apply wlp_writeLocation
        (Location.setArchived false now) hInv₁ (fun _ => rfl)
      rintro l ⟨⟩
  | true =>
      simp only [requireEmpty, if_true, bind_assoc]
      apply Txn.wlp_query
      intro s₂ h₂
      apply Txn.wlp_require
      · exact fun _ _ _ => trivial
      intro hNone
      -- the lock keeps empty what the query found empty
      have hEmpty : NoStockAt s₂ room := by
        intro b hb hRoom
        have hNot := List.find?_eq_none.mp
          (Option.isNone_iff_eq_none.mp hNone) b hb
        exact hNot (by simpa using hRoom)
      apply wlp_writeLocation
        (Location.setArchived true now) h₂.inv (fun _ => rfl)
      exact fun _ _ => Or.inr hEmpty

/- Requests of administrators can be interleaved. -/
theorem locationRequest_safe
    (request : LocationRequest) :
    StockroomSafe request.program := by
  cases request with
  | patch location payload => exact updateLocation_safe payload
  | archive location now => exact setLocationArchived_safe true now
  | unarchive location now =>
      exact setLocationArchived_safe false now

end Locations

------------------------------------------------------------
-- Locked And Active Locations
------------------------------------------------------------

/- These locations are locked, and they are active. -/
def LockedActive
    (locations : List Uuid)
    (held : List Lock)
    (s : Db) : Prop :=
  ∀ location ∈ locations,
    .exclusive (.locationRow location) ∈ held ∧
      ∃ l, s.findLocation location = some l ∧
        l.status = .active

/- They stay so. -/
theorem LockedActive.stable
    {locations : List Uuid}
    {held held' : List Lock}
    {s s' : Db}
    (h : LockedActive locations held s)
    (hReach : stockrooms.Reach held s s')
    (hSub : ∀ k ∈ held, k ∈ held') :
    LockedActive locations held' s' := by
  intro location hLocation
  rcases h location hLocation with ⟨hHeld, l, hFind, hActive⟩
  refine ⟨hSub _ hHeld, l, ?_, hActive⟩
  rw [(locationFixed_of_reach hReach hHeld).row, hFind]

/- The movement lies within these locations. -/
def Within
    (locations : List Uuid)
    (m : Movement) : Prop :=
  ∀ location, AtPosition m location → location ∈ locations

/-
  Where a request returns a new movement, its locations are
  locked and active.
-/
def AtActive : Post Db Lock Error MovementResult
| .ok result, held, _, s => result.replayed = false →
    ∃ locations, Within locations result.record.movement ∧
      LockedActive locations held s
| .error _, _, _, _ => True

section Requests

variable {α : Type}
variable {s : Db}
variable {held : List Lock}
variable {Q : Post Db Lock Error α}
variable {env : MovementEnv}
variable {call : MovementCall}

/- The locations of a movement are locked and active. -/
theorem wlp_lockLocations_active
    {payload : MovementCreate}
    {f : List Location → Op α}
    (hInv : stockrooms.inv s)
    (hErr : ∀ e held s, Q (.error e) held id s)
    (hOk : ∀ locations held' s', stockrooms.inv s' →
      LockedActive (locationIds payload) held' s' →
      (f locations).wlp stockrooms Q held' id s') :
    (lockLocations payload >>= f).wlp stockrooms Q held id
      s := by
  simp only [lockLocations, bind_assoc, pure_bind]
  apply wlp_lockRows_fixed hInv
    (fun h hHeld => (locationFixed_of_reach h hHeld).row)
  intro rows held' s₁ h₁ _ hLocked hRows
  apply Txn.wlp_require
  · exact fun _ s' _ => hErr _ _ s'
  intro hFound
  apply Txn.wlp_require
  · exact fun _ s' _ => hErr _ _ s'
  intro hActive
  apply hOk rows held' s₁ h₁.inv
  intro location hLocation
  refine ⟨hLocked location hLocation, ?_⟩
  rcases hFound location hLocation with ⟨l, hl, hId⟩
  refine ⟨l, ?_, hActive l hl⟩
  rw [hRows] at hl
  rcases List.mem_filterMap.mp hl with ⟨room, _, hFind⟩
  have hRoom : l.id = room := Table.key_of_find hFind
  rw [← hId, hRoom, hFind]

/- A new movement lies within the locations of its call. -/
theorem within_movementRow
    {requestId actorSnapshot : Text}
    {locations : List Location} :
    Within (locationIds call.payload)
      (movementRow env call requestId actorSnapshot
        locations) := by
  intro location hAt
  apply mem_sortedIds.mpr
  apply List.mem_append.mpr
  rcases hAt with hSource | hDestination
  · exact Or.inl (Option.mem_toList.mpr hSource)
  · exact Or.inr (Option.mem_toList.mpr hDestination)

/- What is promised at the end holds once the rows are. -/
theorem wlp_atActive
    {p : Op MovementResult}
    {own : Db → Db}
    {locations : List Uuid}
    (hReturns : p.Returns
      (fun result => Within locations result.record.movement))
    (hActive : LockedActive locations held s) :
    p.wlp stockrooms AtActive held own s := by
  apply Txn.wlp_imp ?_ (Txn.wlp_of_stable
    (fun h hReach hSub => LockedActive.stable h hReach hSub)
    hReturns hActive)
  intro r held' own' s' _ hEnd
  cases r with
  | error e => trivial
  | ok result =>
      exact fun _ => ⟨locations, hEnd result rfl⟩

/- A call ends with its new movement at active locations. -/
theorem createMovementUnchecked_atActive :
    (createMovementUnchecked env call).wlp stockrooms AtActive
      held id s := by
  simp only [createMovementUnchecked]
  apply Txn.wlp_ofExcept
  · exact fun _ _ _ _ => trivial
  intro _ _
  apply Txn.wlp_ofExcept
  · exact fun _ _ _ _ => trivial
  intro requestId _
  apply Txn.wlp_acquire
  intro s₁ h₁
  simp only [existingIdempotentResult, bind_assoc]
  apply Txn.wlp_query
  intro s₂ h₂
  split
  swap
  · -- a replay is not new
    simp only [bind_assoc, pure_bind]
    apply Txn.wlp_query
    intro s₃ h₃
    apply Txn.wlp_require
    · exact fun _ _ _ => trivial
    intro _
    apply Txn.wlp_pure
    rintro s₄ h₄ ⟨⟩
  · simp only [pure_bind, prepareMovement, bind_assoc]
    apply Txn.wlp_skip h₂.inv (lockCustodyUser_readsOnly ..)
    · exact fun _ _ _ _ => trivial
    intro custodyUser held₃ s₃ h₃ _
    apply Txn.wlp_ofExcept
    · exact fun _ _ _ _ => trivial
    intro _ _
    apply Txn.wlp_skip h₃.inv (checkOriginal_readsOnly ..)
    · exact fun _ _ _ _ => trivial
    intro original held₄ s₄ h₄ _
    apply wlp_lockLocations_active h₄.inv
    · exact fun _ _ _ => trivial
    intro locations held₅ s₅ hInv₅ hActive
    apply wlp_atActive ?_ hActive
    -- whatever the rest reads, it returns the row it makes
    apply Txn.Returns.bind
    intro items
    apply Txn.Returns.bind
    intro _
    apply Txn.Returns.bind
    intro balances
    simp only [writeMovement, bind_assoc]
    apply Txn.Returns.bind
    intro actorSnapshot
    apply Txn.Returns.bind
    intro _
    apply Txn.Returns.bind
    intro lines
    apply Txn.Returns.bind
    intro _
    apply Txn.Returns.bind
    intro _
    exact within_movementRow

/- The checks at the commit leave the locations locked. -/
theorem transaction_atActive
    {p : Op MovementResult}
    (hInv : stockrooms.inv s)
    (h : p.wlp stockrooms AtActive held id s) :
    (transaction p).wlp stockrooms AtActive held id s := by
  apply Txn.wlp_bind hInv
  apply Txn.wlp_imp ?_ h
  intro r held' own s' _ hEnd
  cases r with
  | error e => trivial
  | ok result =>
      have hReturns : (checkLineCount result >>= fun _ =>
          (pure result : Op MovementResult)).Returns
            (fun r => r = result) :=
        Txn.Returns.bind _ (fun _ => rfl)
      have hStable : ∀ {held held' s s'},
          AtActive (.ok result) held id s →
          stockrooms.Reach held s s' →
          (∀ k ∈ held, k ∈ held') →
          AtActive (.ok result) held' id s' := by
        intro held₁ held₂ s₁ s₂ hBefore hReach hSub hNew
        rcases hBefore hNew with ⟨locations, hWithin, hActive⟩
        exact ⟨locations, hWithin,
          hActive.stable hReach hSub⟩
      apply Txn.wlp_imp ?_
        (Txn.wlp_of_stable hStable hReturns hEnd)
      intro r held'' own'' s'' _ hAfter
      cases r with
      | error e => trivial
      | ok result' =>
          rcases hAfter result' rfl with ⟨rfl, hActive⟩
          exact hActive

/- So does a request, whether it creates or reverses. -/
theorem request_atActive
    (hInv : stockrooms.inv s)
    (request : MovementRequest) :
    (request.program env).wlp stockrooms AtActive [] id s := by
  cases request with
  | create call =>
      apply transaction_atActive hInv
      unfold createMovement
      split
      · exact fun _ _ => trivial
      · exact createMovementUnchecked_atActive
  | reverse originalMovementId payload actor name =>
      apply transaction_atActive hInv
      apply Txn.wlp_skip hInv (getMovementRecord_readsOnly _)
      · exact fun _ _ _ _ => trivial
      intro original held₁ s₁ h₁ _
      apply Txn.wlp_getOrFail
      · exact fun _ _ _ => trivial
      exact fun call _ => createMovementUnchecked_atActive

end Requests

------------------------------------------------------------
-- Movements Among Locations
------------------------------------------------------------

section Movements

variable {env : MovementEnv}
variable {call : MovementCall}
variable {requestId : Text}
variable {prepared : Prepared}
variable {m : Movement}
variable {rows : List MovementLine}
variable {ws : List BalanceWrite}
variable {held : List Lock}
variable {s : Db}

@[simp]
theorem locations_bookedWith :
    (bookedWith m rows ws s).locations = s.locations := by
  rw [bookedWith, BalanceWrite.applyAll_eq]
  rfl

@[simp]
theorem findLocation_bookedWith
    (location : Uuid) :
    (bookedWith m rows ws s).findLocation location =
      s.findLocation location := by
  rw [Db.findLocation, locations_bookedWith]
  rfl

/- A location without a part in the movement is left alone. -/
theorem Written.locationFixed
    (hValid : WarehouseValid s)
    (h : Written env call requestId prepared m rows ws held s)
    {location : Uuid}
    (hAway : ¬ AtPosition m location) :
    LocationFixed location s (bookedWith m rows ws s) where
  row := findLocation_bookedWith location
  journal item := by
    have hAdmissible := h.booked.admissible
    rw [bookedWith, BalanceWrite.journalStock_applyAll,
      Db.journalStock_withMovement hValid.journal
        hAdmissible.freshId hAdmissible.rows.header,
      Movement.stockEffect_eq_zero, add_zero]
    exact fun _ _ _ => hAway

/- A movement at active locations leaves archived ones empty. -/
theorem Written.locationsValid
    {locations : List Uuid}
    (hInv : stockrooms.inv s)
    (h : Written env call requestId prepared m rows ws held s)
    (hWithin : Within locations m)
    (hActive : LockedActive locations held s) :
    LocationsValid (bookedWith m rows ws s) := by
  constructor
  · rw [locations_bookedWith]
    exact hInv.2.ids
  · intro l hl hArchived
    rw [locations_bookedWith] at hl
    have hAway : ¬ AtPosition m l.id := by
      intro hAt
      rcases hActive l.id (hWithin l.id hAt) with
        ⟨_, l', hFind, hStatus⟩
      have hSelf : s.findLocation l.id = some l :=
        Table.find_of_mem hInv.2.ids hl
      rw [hSelf] at hFind
      cases hFind
      rw [hArchived] at hStatus
      cases hStatus
    exact (hInv.2.empty l hl hArchived).fixed hInv.1.1
      (h.valid hInv.1.1) (h.locationFixed hInv.1.1 hAway)

/- What a request has done may be committed. -/
theorem Outcome.stockroomCommits
    {result : MovementResult}
    {own : Db → Db}
    (hInv : stockrooms.inv s)
    (h : Outcome env call result held own s)
    (hActive : AtActive (.ok result) held own s) :
    stockrooms.Commits held s (own s) ∧
      MovesAtActive s (own s) := by
  cases h with
  | replayed _ =>
      exact ⟨.refl hInv, fun _ hm hNew => absurd hm hNew⟩
  | @written prepared m rows ws _ _ hWritten =>
      rcases hActive rfl with ⟨locations, hWithin, hLocked⟩
      constructor
      · apply stockrooms_commits (hWritten.commits hInv.1)
          (hWritten.locationsValid hInv hWithin hLocked)
        intro location hFree
        apply hWritten.locationFixed hInv.1.1
        intro hAt
        exact hFree (hLocked location (hWithin location hAt)).1
      · intro m' hm' hNew location hAt
        rw [movements_bookedWith] at hm'
        rcases List.mem_append.mp hm' with hOld | hm'
        · exact absurd hOld hNew
        · cases List.mem_singleton.mp hm'
          have hFound :=
            (hLocked location (hWithin location hAt)).2
          rw [findLocation_bookedWith]
          exact ⟨hFound, hFound⟩

/- Requests for movements can be interleaved. -/
theorem request_stockroom_safe
    (env : MovementEnv)
    (request : MovementRequest) :
    StockroomSafe (request.program env) := by
  intro s hInv
  have hOutcome : (request.program env).wlp stockrooms
      (RequestPost warehouse s env request) [] id s :=
    Txn.wlp_of_reach (fun h => h.left)
      (wlp_request governs_warehouse hInv.1 env request)
  refine Txn.wlp_imp ?_
    (Txn.wlp_and hOutcome (request_atActive hInv request))
  intro r held own s' hInv' hPost
  cases r with
  | error e => trivial
  | ok result =>
      rcases hPost with ⟨⟨_, call, _, hOutcome⟩, hActive⟩
      exact fun _ => hOutcome.stockroomCommits hInv' hActive

end Movements

------------------------------------------------------------
-- Clients
------------------------------------------------------------

/- A transaction of another part of the application. -/
def StockroomElsewhere {α : Type} (p : Op α) : Prop :=
  p.WritesOnly (fun change => ∀ s,
    KeepsWarehouse s (change s) ∧
      (change s).locations = s.locations)

theorem stockroomElsewhere_safe
    {α : Type}
    {p : Op α}
    (h : StockroomElsewhere p) :
    StockroomSafe p := by
  intro s hInv
  have hComp : ∀ f g : Db → Db,
      (∀ s, KeepsWarehouse s (f s) ∧
        (f s).locations = s.locations) →
      (∀ s, KeepsWarehouse s (g s) ∧
        (g s).locations = s.locations) →
      ∀ s, KeepsWarehouse s ((f ∘ g) s) ∧
        ((f ∘ g) s).locations = s.locations :=
    fun f g hf hg s => ⟨(hg s).1.trans (hf (g s)).1,
      (hf (g s)).2.trans (hg s).2⟩
  have hId : ∀ s : Db, KeepsWarehouse s (id s) ∧
      (id s).locations = s.locations :=
    fun s => ⟨⟨⟨rfl, rfl, rfl, rfl⟩, fun _ => Iff.rfl⟩, rfl⟩
  refine Txn.wlp_imp ?_ (Txn.wlp_of_writesOnly hComp h hId)
  intro r held own s' hInv' hOwn
  cases r with
  | error e => trivial
  | ok a =>
      rcases hOwn s' with ⟨hKeeps, hLocations⟩
      have hFixed : ∀ location,
          LocationFixed location s' (own s') := by
        intro location
        constructor
        · rw [Db.findLocation, hLocations]
          rfl
        · exact fun item =>
            hKeeps.same.journalStock item location
      have hValid : LocationsValid (own s') := by
        constructor
        · rw [hLocations]
          exact hInv'.2.ids
        · intro l hl hArchived
          rw [hLocations] at hl
          exact (hInv'.2.empty l hl hArchived).fixed hInv'.1.1
            (hKeeps.same.valid hInv'.1.1) (hFixed l.id)
      refine fun _ => ⟨stockrooms_commits
        (hKeeps.commits hInv'.1) hValid
        (fun location _ => hFixed location), ?_⟩
      intro m hm hNew
      rw [hKeeps.same.movements] at hm
      exact absurd hm hNew

/-
  What clients may run: requests for movements, changes of
  locations, and transactions elsewhere.
-/
def StockroomClient
    (p : Op (Option MovementResult)) : Prop :=
  (∃ (env : MovementEnv) (request : MovementRequest),
    p = some <$> request.program env) ∨
  (∃ request : LocationRequest,
    p = (fun _ => none) <$> request.program) ∨
  StockroomElsewhere p

/- A safe program is safe whatever its result is made into. -/
theorem StockroomSafe.map
    {α β : Type}
    {p : Op α}
    (f : α → β)
    (h : StockroomSafe p) :
    StockroomSafe (f <$> p) := by
  intro s hInv
  apply Txn.wlp_map
  refine Txn.wlp_imp ?_ (h s hInv)
  intro r held own s' _ hGuarantee
  cases r with
  | ok a => exact hGuarantee
  | error e => trivial

theorem stockroomClient_safe
    {p : Op (Option MovementResult)}
    (h : StockroomClient p) :
    StockroomSafe p := by
  rcases h with ⟨env, request, rfl⟩ | ⟨request, rfl⟩ | h
  · exact (request_stockroom_safe env request).map some
  · exact (locationRequest_safe request).map (fun _ => none)
  · exact stockroomElsewhere_safe h

section System

variable {τ : Type}
variable [DecidableEq τ]

/- A state that these clients reach from a valid database. -/
def StockroomReachable (S : WarehouseSystem τ) : Prop :=
  System.Reachable Lock.modes StockroomClient
    (fun _ _ => True) stockrooms.inv S

/- Steps of the system of these clients. -/
abbrev StockroomStep
    (S : WarehouseSystem τ)
    (l : Label τ Db Lock Error (Option MovementResult))
    (S' : WarehouseSystem τ) : Prop :=
  System.Step Lock.modes StockroomClient (fun _ _ => True)
    S l S'

/-
  In every reachable state an archived location has no row of
  stock and nothing in the journal, and every movement that
  a step commits is at locations that are active before and
  after.
-/
theorem archived_location_is_empty
    {S : WarehouseSystem τ}
    (h : StockroomReachable S) :
    (∀ l ∈ S.committed.locations, l.status = .archived →
      NoStockAt S.committed l.id ∧
      ∀ item, S.committed.journalStock item l.id = 0) ∧
    ∀ l S', StockroomStep S l S' →
      MovesAtActive S.committed S'.committed := by
  have hSystem : stockrooms.SystemInv (fun _ _ => True)
      (fun _ s s' => MovesAtActive s s') S :=
    Discipline.systemInv_of_reachable
      (D := stockrooms) (fun _ => stockroomClient_safe)
      (fun _ hs => hs) h
  have hSame : ∀ {s : Db}, MovesAtActive s s :=
    fun _ hm hNew => absurd hm hNew
  constructor
  · intro l hl hArchived
    have hNone := hSystem.inv.2.empty l hl hArchived
    exact ⟨hNone, (noStockAt_iff_journal
      hSystem.inv.1.1.balances l.id).mp hNone⟩
  · intro l S' hStep
    cases hStep with
    | commit hActive hPermit =>
        exact (hSystem.commits hActive hPermit).2
    | start hIdle hProgram => exact hSame
    | acquire hActive hGrant => exact hSame
    | read hActive => exact hSame
    | write hActive => exact hSame
    | abort hActive => exact hSame
    | crash hActive => exact hSame

end System

namespace FirstReceipt

/- Rack A is archived before anything arrives. -/
def archived : Db :=
  (setLocationArchived location.id true 5).settle start

theorem archived_reachable :
    StockroomReachable (quiet archived) := by
  have hInv : stockrooms.inv start := by
    refine ⟨start_inv, by decide, ?_⟩
    intro l hl hArchived
    cases List.mem_singleton.mp hl
    cases hArchived
  have hProgram : StockroomClient ((fun _ => none) <$>
      (LocationRequest.archive location.id 5).program) :=
    Or.inr (Or.inl ⟨_, rfl⟩)
  have hRun : ((fun _ => (none : Option MovementResult)) <$>
      (LocationRequest.archive location.id 5).program).run
        (quiet start).committed = .ok (none, archived) := by
    rfl
  have hSteps : ∃ S', S'.committed = (quiet start).committed ∧
      System.Executes Lock.modes StockroomClient
        (fun _ _ => True) () _ _ (quiet start) S'
        (quiet archived) :=
    System.executes_of_run (fun _ => rfl) () hProgram hRun
      trivial
  rcases hSteps with ⟨_, _, hExec⟩
  exact ⟨start, hInv, hExec.steps⟩

end FirstReceipt

/- Rack A is archived, and it is empty. -/
theorem archived_location_is_empty_rack :
    FirstReceipt.archived.findLocation
      FirstReceipt.location.id =
        some (Location.setArchived true 5
          FirstReceipt.location) ∧
    NoStockAt FirstReceipt.archived
      FirstReceipt.location.id :=
  ⟨rfl, ((archived_location_is_empty
    FirstReceipt.archived_reachable).1 _
      List.mem_cons_self rfl).1⟩
