import DcInventory.Inventory.GuardAgreement

/-
  This file proves what the transactions of movements write:
  nothing before the header is inserted, after it only the
  tables of the warehouse, and custody only for holders who
  are eligible.

  Key definitions include:
    * `OnlyWarehouse`

  Key theorems include:
    * `createMovement_writesOnly`
    * `request_keeps_holders`
-/

------------------------------------------------------------
-- Reading
------------------------------------------------------------

theorem enforce_readsOnly
    (x : Except DatabaseGuard Unit) :
    (enforce x).ReadsOnly :=
  Txn.writesOnly_ofExcept _

theorem getMovementRecord_readsOnly
    (movementId : Uuid) :
    (getMovementRecord movementId).ReadsOnly := by
  refine .bind (by simp) fun _ => ?_
  refine .bind (by simp) fun _ => ?_
  exact .bind (by simp) fun _ => by simp

theorem existingIdempotentResult_readsOnly
    (actor : Uuid)
    (requestId fingerprint : Text) :
    (existingIdempotentResult actor requestId
      fingerprint).ReadsOnly := by
  refine .bind (by simp) fun found => ?_
  cases found with
  | none => trivial
  | some m =>
      refine .bind (by simp) fun _ => ?_
      exact .bind (by simp) fun _ => by simp

theorem lockRows_readsOnly
    {R : Type}
    (resource : Uuid → Resource)
    (find : Db → Uuid → Option R)
    (ids : List Uuid) :
    (lockRows resource find ids).ReadsOnly := by
  induction ids with
  | nil => trivial
  | cons id ids ih =>
      refine .bind (by simp) fun _ => ?_
      refine .bind (by simp) fun _ => ?_
      exact .bind ih fun _ => by simp

theorem lockCustodyUser_readsOnly
    (session : List User)
    (movementType : MovementType)
    (custodyUserId : Option Uuid) :
    (lockCustodyUser session movementType
      custodyUserId).ReadsOnly := by
  cases custodyUserId with
  | none => trivial
  | some id =>
      refine .bind (by simp) fun _ => ?_
      refine .bind (by simp) fun _ => ?_
      refine .bind (by simp) fun _ => ?_
      exact .bind (by simp) fun _ => by simp

theorem checkOriginal_readsOnly
    (payload : MovementCreate)
    (custodyUserId : Option Uuid)
    (custodyUser : Option User)
    (originalMovementId : Option Uuid) :
    (checkOriginal payload custodyUserId custodyUser
      originalMovementId).ReadsOnly := by
  cases originalMovementId with
  | none => trivial
  | some id =>
      refine .bind (by simp) fun _ => ?_
      refine .bind (by simp) fun _ => ?_
      refine .bind (by simp) fun _ => ?_
      refine .bind (getMovementRecord_readsOnly id) fun _ => ?_
      refine .bind (by simp) fun _ => ?_
      refine .bind (by simp) fun _ => ?_
      refine .bind (by simp) fun _ => ?_
      split
      · refine .bind (by simp) fun _ => ?_
        refine .bind (by simp) fun _ => ?_
        exact .bind (by simp) fun _ => by simp
      · simp

theorem prepareMovement_readsOnly
    (env : MovementEnv)
    (call : MovementCall) :
    (prepareMovement env call).ReadsOnly := by
  refine .bind (lockCustodyUser_readsOnly _ _ _) fun _ => ?_
  refine .bind (by simp) fun _ => ?_
  refine .bind (checkOriginal_readsOnly _ _ _ _) fun _ => ?_
  refine .bind ?_ fun _ => ?_
  · refine .bind (lockRows_readsOnly _ _ _) fun _ => ?_
    refine .bind (by simp) fun _ => ?_
    exact .bind (by simp) fun _ => by simp
  refine .bind ?_ fun _ => ?_
  · refine .bind (by simp) fun _ => ?_
    refine .bind (lockRows_readsOnly _ _ _) fun _ => ?_
    refine .bind (by simp) fun _ => ?_
    exact .bind (by simp) fun _ => by simp
  refine .bind (by simp) fun _ => ?_
  refine .bind ?_ fun _ => by simp
  refine .bind (by simp) fun _ => ?_
  refine .bind (by simp) fun _ => ?_
  cases call.custodyUserId with
  | none => trivial
  | some user => exact .bind (by simp) fun _ => by simp

------------------------------------------------------------
-- Writing
------------------------------------------------------------

/- Only tables of the warehouse differ. -/
def OnlyWarehouse (s s' : Db) : Prop :=
  s' = { s with
    movements := s'.movements
    movementLines := s'.movementLines
    stockBalances := s'.stockBalances
    userItemCustodyBalances := s'.userItemCustodyBalances }

/- A write that changes nothing but the warehouse. -/
def WritesWarehouse (change : Db → Db) : Prop :=
  ∀ s, OnlyWarehouse s (change s)

theorem insertMovement_writes
    {ok : (Db → Db) → Prop}
    (new : Movement)
    (h : ok (fun db =>
      { db with movements := db.movements ++ [new] })) :
    (insertMovement new).WritesOnly ok := by
  have hProtect : (protectProcurementReceiptMovement
      new).ReadsOnly := by
    unfold protectProcurementReceiptMovement
    split
    · trivial
    split
    · refine .bind (by simp) fun _ => ?_
      exact .bind (by simp) fun _ => by simp
    · trivial
  have hUnique : (uniqueMovement new).ReadsOnly := by
    refine .bind (by simp) fun _ => ?_
    refine .bind (by simp) fun _ => ?_
    refine .bind (by simp) fun _ => ?_
    refine .bind (by simp) fun _ => ?_
    refine .bind (by simp) fun _ => ?_
    refine .bind (by simp) fun _ => ?_
    split
    · refine .bind (by simp) fun _ => ?_
      exact .bind (by simp) fun _ => by simp
    · trivial
  refine .bind hProtect.writesOnly fun _ => ?_
  refine .bind (by simp) fun _ => ?_
  refine .bind (enforce_readsOnly _).writesOnly fun _ => ?_
  refine .bind (by simp) fun _ => ?_
  refine .bind (by simp) fun _ => ?_
  refine .bind (enforce_readsOnly _).writesOnly fun _ => ?_
  refine .bind (enforce_readsOnly _).writesOnly fun _ => ?_
  exact .bind hUnique.writesOnly fun _ => by simpa using h

theorem insertMovementLines_writes
    {ok : (Db → Db) → Prop}
    (header : Movement)
    (lines : List MovementLine)
    (h : ∀ new : MovementLine, ok (fun db =>
      { db with movementLines := db.movementLines ++ [new] })) :
    (insertMovementLines header lines).WritesOnly ok := by
  induction lines with
  | nil => trivial
  | cons l ls ih =>
      refine .bind ?_ fun _ => ih
      refine .bind (by simp) fun _ => ?_
      refine .bind (enforce_readsOnly _).writesOnly fun _ => ?_
      simpa using h l

theorem refreshPosition_writes
    {ok : (Db → Db) → Prop}
    (item : Uuid)
    (location : Option Uuid)
    (h : ∀ location q, ok (Db.writeStock item location q)) :
    (refreshPosition item location).WritesOnly ok := by
  cases location with
  | none => trivial
  | some id =>
      refine .bind (by simp) fun _ => ?_
      exact .bind (by simp) fun _ => by simpa using h id _

theorem refreshHolder_writes
    {ok : (Db → Db) → Prop}
    (item : Uuid)
    (user : Option Uuid)
    (h : ∀ user q, ok (Db.writeCustody user item q)) :
    (refreshHolder item user).WritesOnly ok := by
  cases user with
  | none => trivial
  | some id =>
      refine .bind (by simp) fun _ => ?_
      refine .bind (by simp) fun _ => ?_
      split
      · simpa using h id _
      · refine .bind ?_ fun _ => by simpa using h id _
        refine .bind (by simp) fun _ => ?_
        exact .bind (by simp) fun _ => by simp

theorem refreshLines_writes
    {ok : (Db → Db) → Prop}
    (movementId : Uuid)
    (lines : List MovementLine)
    (hStock : ∀ item location q,
      ok (Db.writeStock item location q))
    (hCustody : ∀ item user q,
      ok (Db.writeCustody user item q)) :
    (refreshLines movementId lines).WritesOnly ok := by
  induction lines with
  | nil => trivial
  | cons l ls ih =>
      refine .bind ?_ fun _ => ih
      refine .bind (by simp) fun _ => ?_
      refine .bind (by simp) fun _ => ?_
      refine .bind (by simp) fun _ => ?_
      refine .bind (by simp) fun _ => ?_
      refine .bind (refreshPosition_writes _ _ (hStock _))
        fun _ => ?_
      refine .bind (refreshPosition_writes _ _ (hStock _))
        fun _ => ?_
      exact refreshHolder_writes _ _ (hCustody _)

/- A movement is written to the tables of the warehouse. -/
theorem createMovementUnchecked_writesOnly
    (env : MovementEnv)
    (call : MovementCall) :
    (createMovementUnchecked env call).WritesOnly
      WritesWarehouse := by
  refine .bind (by simp) fun _ => ?_
  refine .bind (by simp) fun requestId => ?_
  refine .bind (by simp) fun _ => ?_
  refine .bind (existingIdempotentResult_readsOnly _ _
    _).writesOnly fun existing => ?_
  cases existing with
  | some result => trivial
  | none =>
      refine .bind (prepareMovement_readsOnly env
        call).writesOnly fun prepared => ?_
      refine .bind ?_ fun _ => by simp
      refine .bind (by simp) fun _ => ?_
      refine .bind (insertMovement_writes _ fun _ => rfl)
        fun _ => ?_
      refine .bind (by simp) fun _ => ?_
      refine .bind (insertMovementLines_writes _ _
        fun _ _ => rfl) fun _ => ?_
      exact .bind (refreshLines_writes _ _
        (fun _ _ _ _ => rfl) (fun _ _ _ _ => rfl))
        fun _ => by simp

theorem createMovement_writesOnly
    (env : MovementEnv)
    (call : MovementCall) :
    (createMovement env call).WritesOnly WritesWarehouse := by
  unfold createMovement
  split
  · trivial
  · exact createMovementUnchecked_writesOnly env call

theorem checkLineCount_readsOnly
    (result : MovementResult) :
    (checkLineCount result).ReadsOnly := by
  unfold checkLineCount
  split
  · trivial
  · exact .bind (by simp) fun _ => enforce_readsOnly _

/- The request writes nothing but the warehouse. -/
theorem request_writesOnly
    (env : MovementEnv)
    (request : MovementRequest) :
    (request.program env).WritesOnly WritesWarehouse := by
  have hTransaction : ∀ {p : Op MovementResult},
      p.WritesOnly WritesWarehouse →
      (transaction p).WritesOnly WritesWarehouse := by
    intro p h
    refine .bind h fun result => ?_
    exact .bind (checkLineCount_readsOnly result).writesOnly
      fun _ => by simp
  cases request with
  | create call =>
      exact hTransaction (createMovement_writesOnly env call)
  | reverse o payload actor name =>
      apply hTransaction
      refine .bind (getMovementRecord_readsOnly o).writesOnly
        fun _ => ?_
      refine .bind (by simp) fun call => ?_
      exact createMovementUnchecked_writesOnly env call

------------------------------------------------------------
-- Holders
------------------------------------------------------------

/- Where the trigger passes, the holder is eligible. -/
theorem holderEligible_of_run
    {user : Uuid}
    {s s' : Db}
    {a : Unit}
    (h : (enforceCustodyHolderEligibility user).run s =
      .ok (a, s')) :
    s' = s ∧ HolderEligible s user := by
  simp only [enforceCustodyHolderEligibility, Txn.run_bind,
    Txn.run_acquire, Txn.run_query, Txn.run_require] at h
  split at h
  · rename_i hMay
    cases h
    rw [Option.any_eq_true] at hMay
    rcases hMay with ⟨u, hFind, hMay⟩
    simp only [decide_eq_true_eq] at hMay
    exact ⟨rfl, u, hFind, hMay.2, hMay.1⟩
  · cases h

/- Custody is only written for a holder who is eligible. -/
theorem refreshHolder_keeps
    (item : Uuid)
    (user : Option Uuid) :
    (refreshHolder item user).Keeps HoldersEligible := by
  cases user with
  | none =>
      intro s a s' hP hRun
      cases hRun
      exact hP
  | some id =>
      intro s a s' hHolders hRun
      simp only [refreshHolder, refreshCustody, Txn.run_bind,
        Txn.run_query, Txn.run_require] at hRun
      split at hRun
      · cases hRun
      rename_i hChecked
      split at hChecked
      · cases hChecked
        split at hRun
        · rename_i hZero
          cases hRun
          intro b hb
          simp only [Db.writeCustody, if_pos hZero,
            Table.erase, List.mem_filter] at hb
          exact hHolders b hb.1
        · rename_i hNonzero
          rw [Txn.run_bind] at hRun
          split at hRun
          · cases hRun
          rename_i hTrigger
          rcases holderEligible_of_run hTrigger with
            ⟨rfl, hEligible⟩
          cases hRun
          intro b hb
          simp only [Db.writeCustody, if_neg hNonzero] at hb
          rcases Table.mem_put hb with rfl | hOld
          · exact hEligible
          · exact hHolders b hOld
      · cases hChecked

/- What holding depends on is the same. -/
structure SameHolders (s s' : Db) : Prop where
  users : s'.users = s.users
  custody : s'.userItemCustodyBalances =
    s.userItemCustodyBalances

/- A write that leaves users and custody alone. -/
def KeepsHolders (change : Db → Db) : Prop :=
  ∀ s, SameHolders s (change s)

theorem SameHolders.holdersEligible
    {s s' : Db}
    (h : SameHolders s s')
    (hHolders : HoldersEligible s) :
    HoldersEligible s' := by
  intro b hb
  rw [h.custody] at hb
  rcases hHolders b hb with ⟨u, hFind, hMay⟩
  refine ⟨u, ?_, hMay⟩
  rw [Db.findUser, h.users]
  exact hFind

theorem refreshLines_keeps
    (movementId : Uuid)
    (lines : List MovementLine) :
    (refreshLines movementId lines).Keeps HoldersEligible := by
  have hStock : ∀ item location,
      (refreshPosition item location).Keeps
        HoldersEligible := by
    intro item location
    have hWrites : (refreshPosition item location).WritesOnly
        KeepsHolders :=
      refreshPosition_writes _ _ fun _ _ _ => ⟨rfl, rfl⟩
    exact hWrites.keeps fun _ h s => (h s).holdersEligible
  induction lines with
  | nil => exact Txn.ReadsOnly.keeps trivial
  | cons l ls ih =>
      refine .bind ?_ fun _ => ih
      refine .bind (Txn.ReadsOnly.keeps (by simp)) fun _ => ?_
      refine .bind (Txn.ReadsOnly.keeps (by simp)) fun _ => ?_
      refine .bind (Txn.ReadsOnly.keeps (by simp)) fun _ => ?_
      refine .bind (Txn.ReadsOnly.keeps (by simp)) fun _ => ?_
      refine .bind (hStock _ _) fun _ => ?_
      refine .bind (hStock _ _) fun _ => ?_
      exact refreshHolder_keeps _ _

theorem writeMovement_keeps
    (env : MovementEnv)
    (call : MovementCall)
    (requestId : Text)
    (prepared : Prepared) :
    (writeMovement env call requestId prepared).Keeps
      HoldersEligible := by
  have hKeeps : ∀ {α : Type} {p : Op α},
      p.WritesOnly KeepsHolders → p.Keeps HoldersEligible :=
    fun h => h.keeps fun _ h s => (h s).holdersEligible
  refine .bind (Txn.ReadsOnly.keeps (by simp)) fun _ => ?_
  refine .bind (hKeeps (insertMovement_writes _
    fun _ => ⟨rfl, rfl⟩)) fun _ => ?_
  refine .bind (Txn.ReadsOnly.keeps (by simp)) fun _ => ?_
  refine .bind (hKeeps (insertMovementLines_writes _ _
    fun _ _ => ⟨rfl, rfl⟩)) fun _ => ?_
  refine .bind (refreshLines_keeps _ _) fun _ => ?_
  exact Txn.ReadsOnly.keeps (by simp)

/- A request for a movement keeps all holders eligible. -/
theorem request_keeps_holders
    (env : MovementEnv)
    (request : MovementRequest) :
    (request.program env).Keeps HoldersEligible := by
  have hUnchecked : ∀ call,
      (createMovementUnchecked env call).Keeps
        HoldersEligible := by
    intro call
    refine .bind (Txn.ReadsOnly.keeps (by simp)) fun _ => ?_
    refine .bind (Txn.ReadsOnly.keeps (by simp))
      fun requestId => ?_
    refine .bind (Txn.ReadsOnly.keeps (by simp)) fun _ => ?_
    refine .bind (Txn.ReadsOnly.keeps
      (existingIdempotentResult_readsOnly _ _ _))
        fun existing => ?_
    cases existing with
    | some result => exact Txn.ReadsOnly.keeps trivial
    | none =>
        refine .bind (prepareMovement_readsOnly env call).keeps
          fun prepared => ?_
        refine .bind (writeMovement_keeps _ _ _ _) fun _ => ?_
        exact Txn.ReadsOnly.keeps (by simp)
  have hTransaction : ∀ {p : Op MovementResult},
      p.Keeps HoldersEligible →
      (transaction p).Keeps HoldersEligible := by
    intro p h
    refine .bind h fun result => ?_
    refine .bind (checkLineCount_readsOnly result).keeps
      fun _ => ?_
    exact Txn.ReadsOnly.keeps (by simp)
  cases request with
  | create call =>
      apply hTransaction
      unfold createMovement
      split
      · exact Txn.ReadsOnly.keeps trivial
      · exact hUnchecked call
  | reverse o payload actor name =>
      apply hTransaction
      refine .bind (getMovementRecord_readsOnly o).keeps
        fun _ => ?_
      refine .bind (Txn.ReadsOnly.keeps (by simp)) fun call => ?_
      exact hUnchecked call
