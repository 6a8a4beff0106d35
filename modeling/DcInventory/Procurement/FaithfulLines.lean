import DcInventory.Catalog.EqualDrafts
import DcInventory.Procurement.Histories
import DcInventory.Procurement.Refusals

/-
  This file proves that the lines of a revision say of each
  payload what it asked for, whatever the others are, and
  that nothing else can be bound to them later.

  Key definitions include:
    * `RowOf`
    * `askedFor`
    * `BoundAsApproved`

  Key theorems include:
    * `prepareRows_faithful`
    * `aggregateFrom_le`
    * `createAndBindLine_matches`
    * `bindLine_matches`
    * `prepared_lines_are_faithful`
-/

open Except (raises_ok raises_error)
open Txn (raises_pure raises_acquire raises_query raises_require
  raises_ofExcept)

namespace Procurement

------------------------------------------------------------
-- Rows
------------------------------------------------------------

/- The row of a payload, computed from it and its number. -/
inductive RowOf
    (env : ProcurementEnv)
    (db : Db)
    (lineNo : Nat) :
    ProcurementLineCreate → ProcurementRevisionLine → Prop
| existing
    {line : ExistingItemLineCreate}
    {item : Item}
    {category : Category}
    {attributes : Dictionary Text AttributeValue}
    (hItem : db.findItem line.itemId = some item)
    (hActive : item.status = .active)
    (hCategory : Table.find Category.id item.categoryId
      db.categories = some category)
    (hAttributes : Catalog.loadAttributes db line.itemId =
      .ok attributes) :
    RowOf env db lineNo (.existing line) {
      id := env.lineId lineNo
      revisionId := env.revisionId
      lineNo := lineNo
      lineType := .existingItem
      catalogItemId := some line.itemId
      displaySnapshot := displaySnapshot category
        (item.manufacturerId.bind db.findManufacturer)
          item.name item.model attributes
      expectedIdentitySignature := item.identitySignature
      quantity := line.quantity }
| proposed
    {line : ProposedItemLineCreate}
    {draft : Catalog.ValidatedItemDraft}
    (hDraft : Catalog.validateItemCreatePayload env.catalog db
      line.itemCreate = .ok draft) :
    RowOf env db lineNo (.proposed line) {
      id := env.lineId lineNo
      revisionId := env.revisionId
      lineNo := lineNo
      lineType := .proposedItem
      catalogItemId := none
      displaySnapshot := displaySnapshot draft.category
        draft.manufacturer draft.name draft.model
          draft.attributes
      expectedIdentitySignature := draft.identitySignature
      quantity := line.quantity }

/- Nothing else decides what the row is. -/
theorem RowOf.unique
    {env : ProcurementEnv}
    {db : Db}
    {lineNo : Nat}
    {payload : ProcurementLineCreate}
    {row row' : ProcurementRevisionLine}
    (h : RowOf env db lineNo payload row)
    (h' : RowOf env db lineNo payload row') :
    row' = row := by
  cases h with
  | existing hItem _ hCategory hAttributes =>
      cases h' with
      | existing hItem' _ hCategory' hAttributes' =>
          cases hItem.symm.trans hItem'
          cases hCategory.symm.trans hCategory'
          cases hAttributes.symm.trans hAttributes'
          rfl
  | proposed hDraft =>
      cases h' with
      | proposed hDraft' =>
          cases hDraft.symm.trans hDraft'
          rfl

theorem RowOf.lineNo_eq
    {env : ProcurementEnv}
    {db : Db}
    {lineNo : Nat}
    {payload : ProcurementLineCreate}
    {row : ProcurementRevisionLine}
    (h : RowOf env db lineNo payload row) :
    row.lineNo = lineNo := by
  cases h <;> rfl

variable {env : ProcurementEnv}
variable {db : Db}

------------------------------------------------------------
-- Drafts
------------------------------------------------------------

section Drafts

variable {catalog : Catalog.CatalogEnv}
variable {payload : Catalog.ItemCreate}
variable {draft : Catalog.ValidatedItemDraft}

/- What a draft is validated to, once its identity is. -/
def DraftOf
    (payload : Catalog.ItemCreate)
    (p : Catalog.PreparedItemIdentity)
    (draft : Catalog.ValidatedItemDraft) : Prop :=
  ∃ name model,
    Catalog.normalizeInlineText payload.name "name" 255 =
      .ok name ∧
    Catalog.normalizeOptionalInlineText "model" 255
      payload.model = .ok model ∧
    draft = ⟨p.category, p.manufacturer, name, model,
      .ofList (Catalog.normalizedAttributes p.values),
        p.identitySignature⟩

theorem validate_eq_ok_iff
    {context : Catalog.ItemCreateValidationContext} :
    context.validate catalog payload = .ok draft ↔
      ∃ p, Catalog.prepareIdentity catalog.unicode
          catalog.sha256 context payload = .ok p ∧
        DraftOf payload p draft := by
  unfold Catalog.ItemCreateValidationContext.validate
  constructor
  · intro h
    rcases Except.bind_eq_ok_iff.mp h with ⟨p, hp, h⟩
    rcases Except.bind_eq_ok_iff.mp h with ⟨name, hName, h⟩
    rcases Except.bind_eq_ok_iff.mp h with ⟨model, hModel, h⟩
    cases h
    exact ⟨p, hp, name, model, hName, hModel, rfl⟩
  · rintro ⟨p, hp, name, model, hName, hModel, rfl⟩
    rw [hp, Except.ok_bind, hName, Except.ok_bind, hModel,
      Except.ok_bind]

theorem validateItemCreatePayload_eq_ok_iff :
    Catalog.validateItemCreatePayload catalog db payload =
        .ok draft ↔
      ∃ p, Catalog.prepareStoredIdentity catalog.unicode
          catalog.sha256 db payload = .ok p ∧
        DraftOf payload p draft := by
  unfold Catalog.validateItemCreatePayload
    Catalog.prepareStoredIdentity
  simp only [Except.bind_eq_ok_iff, validate_eq_ok_iff]
  constructor
  · rintro ⟨context, hLoad, p, hp, hDraft⟩
    exact ⟨p, ⟨context, hLoad, hp⟩, hDraft⟩
  · rintro ⟨p, ⟨context, hLoad, hp⟩, hDraft⟩
    exact ⟨context, hLoad, p, hp, hDraft⟩

/- Validated with others, a draft is validated as alone. -/
theorem validateItemCreatePayload_of_context
    (hKeys : Catalog.CatalogKeys db)
    {payloads : List Catalog.ItemCreate}
    {context : Catalog.ItemCreateValidationContext}
    (hLoad : Catalog.loadItemCreateValidationContext
      catalog.unicode db payloads = .ok context)
    (hMem : payload ∈ payloads)
    (h : context.validate catalog payload = .ok draft) :
    Catalog.validateItemCreatePayload catalog db payload =
      .ok draft := by
  rcases validate_eq_ok_iff.mp h with ⟨p, hp, hDraft⟩
  have hStored := (Catalog.prepareIdentity_iff
    (Catalog.contextOf_load hKeys hLoad) hMem).mp hp
  exact validateItemCreatePayload_eq_ok_iff.mpr ⟨p,
    (Catalog.prepareStoredIdentity_iff hKeys).mpr hStored,
      hDraft⟩

/- Equal drafts have one signature while the catalog lasts. -/
theorem validateItemCreatePayload_of_equal
    (hKeys : Catalog.CatalogKeys db)
    {t : Db}
    (hSame : Catalog.SameMetadata db t)
    {payload' : Catalog.ItemCreate}
    (hEqual : Catalog.EqualFields payload payload')
    (h : Catalog.validateItemCreatePayload catalog db payload =
      .ok draft) :
    ∃ draft', Catalog.validateItemCreatePayload catalog t
        payload' = .ok draft' ∧
      draft'.identitySignature = draft.identitySignature := by
  rcases validateItemCreatePayload_eq_ok_iff.mp h with
    ⟨p, hp, name, model, hName, hModel, rfl⟩
  rcases (Catalog.prepareStoredIdentity_iff hKeys).mp hp with
    ⟨attributes, hDraft⟩
  rcases hDraft.equalFields hEqual with
    ⟨attributes', p', hDraft', hSignature⟩
  have hp' := (Catalog.prepareStoredIdentity_iff hKeys).mpr
    ⟨attributes', hDraft'⟩
  rw [← Catalog.prepareStoredIdentity_congr hSame.categories
    hSame.attributes hSame.manufacturers] at hp'
  refine ⟨⟨p'.category, p'.manufacturer, name, model,
    .ofList (Catalog.normalizedAttributes p'.values),
      p'.identitySignature⟩,
    validateItemCreatePayload_eq_ok_iff.mpr ⟨p', hp', name,
      model, ?_, ?_, rfl⟩, hSignature⟩
  · rw [hEqual.name]
    exact hName
  · rw [hEqual.model]
    exact hModel

end Drafts

------------------------------------------------------------
-- Preparation
------------------------------------------------------------

/- What is read beforehand is what is stored. -/
structure Prepared
    (env : ProcurementEnv)
    (db : Db)
    (prepared : Preparation) : Prop where
  items : ∀ id locked,
    Table.find (fun i => i.item.id) id prepared.items =
      some locked → loadItem id db = some locked
  attributes : ∀ id entry,
    Table.find Prod.fst id prepared.attributes = some entry →
      Catalog.loadAttributes db id = .ok entry.2
  drafts : ∀ payload ∈ prepared.proposed, ∀ draft,
    prepared.context.validate env.catalog payload =
      .ok draft →
    Catalog.validateItemCreatePayload env.catalog db payload =
      .ok draft

section Rows

variable {prepared : Preparation}
variable {lineNo : Nat}
variable {row : ProcurementRevisionLine}

theorem existingRow_faithful
    (hPrepared : Prepared env db prepared)
    {line : ExistingItemLineCreate}
    (h : existingRow env prepared lineNo line = .ok row) :
    RowOf env db lineNo (.existing line) row := by
  unfold existingRow at h
  split at h
  · cases h
  · rename_i locked hFind
    have hLoaded := hPrepared.items _ _ hFind
    rcases Option.map_eq_some_iff.mp hLoaded with
      ⟨item, hItem, rfl⟩
    have hId : item.id = line.itemId :=
      Table.key_of_find hItem
    split at h
    · cases h
    · rename_i hActive
      split at h
      · rename_i category x attributes hCategory hAttributes
        cases h
        have hLoad := hPrepared.attributes _ _ hAttributes
        dsimp only at hLoad ⊢
        rw [hId] at hLoad ⊢
        exact .existing hItem (not_not.mp hActive) hCategory
          hLoad
      · cases h

theorem proposedRow_faithful
    (hPrepared : Prepared env db prepared)
    {index : Nat}
    {line : ProposedItemLineCreate}
    (hIndex : prepared.proposed[index]? = some line.itemCreate)
    (h : proposedRow env prepared lineNo index line =
      .ok row) :
    RowOf env db lineNo (.proposed line) row := by
  unfold proposedRow at h
  rw [hIndex] at h
  rcases Except.bind_eq_ok_iff.mp h with ⟨draft, hDraft, hRow⟩
  cases hRow
  exact .proposed (hPrepared.drafts _
    (List.mem_of_getElem? hIndex) draft hDraft)

/-
  The drafts that are left are those of the payloads that
  are left: the index of the loop is the number of the
  drafts that were taken.
-/
theorem prepareRows_faithful
    (hPrepared : Prepared env db prepared)
    {taken : List Catalog.ItemCreate}
    {payloads : List ProcurementLineCreate}
    {rows : List ProcurementRevisionLine}
    (hProposed : prepared.proposed =
      taken ++ proposedPayloads payloads)
    (h : prepareRows env prepared lineNo taken.length
      payloads = .ok rows) :
    rows.length = payloads.length ∧
      ∀ i payload, payloads[i]? = some payload →
        ∃ row, rows[i]? = some row ∧
          RowOf env db (lineNo + i) payload row := by
  induction payloads generalizing taken lineNo rows with
  | nil =>
      cases h
      exact ⟨rfl, by simp⟩
  | cons payload payloads ih =>
      -- the row of this payload and those after it
      have hStep : ∃ row rest taken',
          RowOf env db lineNo payload row ∧
          prepared.proposed =
            taken' ++ proposedPayloads payloads ∧
          prepareRows env prepared (lineNo + 1) taken'.length
            payloads = .ok rest ∧
          rows = row :: rest := by
        cases payload with
        | existing line =>
            rcases Except.bind_eq_ok_iff.mp h with
              ⟨row, hRow, h⟩
            rcases Except.bind_eq_ok_iff.mp h with
              ⟨rest, hRest, hEq⟩
            cases hEq
            exact ⟨row, rest, taken,
              existingRow_faithful hPrepared hRow, hProposed,
              hRest, rfl⟩
        | proposed line =>
            rcases Except.bind_eq_ok_iff.mp h with
              ⟨row, hRow, h⟩
            rcases Except.bind_eq_ok_iff.mp h with
              ⟨rest, hRest, hEq⟩
            cases hEq
            have hSplit : prepared.proposed =
                taken ++ line.itemCreate ::
                  proposedPayloads payloads := hProposed
            refine ⟨row, rest, taken ++ [line.itemCreate],
              proposedRow_faithful hPrepared ?_ hRow, ?_, ?_,
              rfl⟩
            · rw [hSplit]
              simp
            · rw [hSplit]
              simp
            · rw [List.length_append]
              exact hRest
      rcases hStep with
        ⟨row, rest, taken', hRow, hLeft, hRest, rfl⟩
      rcases ih hLeft hRest with ⟨hLength, hRows⟩
      refine ⟨congrArg (· + 1) hLength, ?_⟩
      intro i payload' hAt
      cases i with
      | zero =>
          cases hAt
          exact ⟨row, rfl, hRow⟩
      | succ i =>
          rcases hRows i payload' hAt with ⟨row', hAt', hRow'⟩
          refine ⟨row', hAt', ?_⟩
          rw [Nat.add_comm i 1, ← Nat.add_assoc]
          exact hRow'

end Rows

------------------------------------------------------------
-- Reading
------------------------------------------------------------

/- The rows that are found, in the order of their locks. -/
theorem lockRows_run
    {R : Type}
    (resource : Uuid → Resource)
    (find : Db → Uuid → Option R)
    (ids : List Uuid) :
    (lockRows resource find ids).run db =
      .ok (ids.filterMap (find db), db) := by
  induction ids with
  | nil => rfl
  | cons id ids ih =>
      unfold lockRows
      rw [Txn.run_acquire_bind, Txn.run_query_bind,
        Txn.run_bind, ih]
      cases hFind : find db id with
      | none =>
          rw [List.filterMap_cons_none hFind]
          rfl
      | some row =>
          rw [List.filterMap_cons_some hFind]
          rfl

/- What the loop over the payloads is given is as stored. -/
theorem prepareLines_eq_ok
    (hKeys : Catalog.CatalogKeys db)
    {payloads : List ProcurementLineCreate}
    {rows : List ProcurementRevisionLine}
    {db' : Db}
    (h : (prepareLines env payloads).run db =
      .ok (rows, db')) :
    ∃ prepared quantities,
      Prepared env db prepared ∧
      prepared.proposed = proposedPayloads payloads ∧
      prepareRows env prepared 1 0 payloads = .ok rows ∧
      validateAggregatedItemQuantities none
        (rows.map unboundRecord) = .ok quantities := by
  unfold prepareLines at h
  rw [Txn.run_bind, lockRows_run] at h
  dsimp only at h
  simp only [Txn.run_bind_eq_ok_iff, Txn.run_query_eq_ok_iff,
    Txn.run_ofExcept_eq_ok_iff, Txn.run_pure_eq_ok_iff] at h
  rcases h with ⟨_, _, ⟨rfl, rfl⟩, attributes, _,
    ⟨hAttributes, rfl⟩, _, _, ⟨rfl, rfl⟩, context, _,
    ⟨hContext, rfl⟩, rows', _, ⟨hRows, rfl⟩, quantities, _,
    ⟨hQuantities, rfl⟩, rfl, rfl⟩
  refine ⟨_, quantities, ⟨?_, ?_, ?_⟩, rfl, hRows, hQuantities⟩
  · intro id locked hFind
    rcases List.mem_filterMap.mp (Table.mem_of_find hFind) with
      ⟨id', _, hLoad⟩
    have hId : id' = id := by
      rcases Option.map_eq_some_iff.mp hLoad with
        ⟨item, hItem, rfl⟩
      have hKey := Table.key_of_find hFind
      exact (Table.key_of_find hItem).symm.trans hKey
    rw [← hId]
    exact hLoad
  · intro id entry hFind
    have hAll := Except.mapM_eq_ok_iff.mp hAttributes
    rcases hAll.exists_left (Table.mem_of_find hFind) with
      ⟨id', _, hEntry⟩
    rcases Except.bind_eq_ok_iff.mp hEntry with
      ⟨found, hFound, hPair⟩
    cases hPair
    have hKey : id' = id := Table.key_of_find hFind
    rw [← hKey]
    exact hFound
  · intro payload hMem draft hDraft
    exact validateItemCreatePayload_of_context hKeys hContext
      hMem hDraft

/- Each row is the one of its payload. -/
theorem prepareLines_faithful
    (hKeys : Catalog.CatalogKeys db)
    {payloads : List ProcurementLineCreate}
    {rows : List ProcurementRevisionLine}
    {db' : Db}
    (hRun : (prepareLines env payloads).run db =
      .ok (rows, db')) :
    rows.length = payloads.length ∧
      ∀ i payload, payloads[i]? = some payload →
        ∃ row, rows[i]? = some row ∧
          RowOf env db (i + 1) payload row := by
  rcases prepareLines_eq_ok hKeys hRun with
    ⟨prepared, _, hPrepared, hProposed, hRows, _⟩
  have hNone : prepared.proposed =
      [] ++ proposedPayloads payloads := hProposed
  rcases prepareRows_faithful hPrepared hNone hRows with
    ⟨hLength, hEach⟩
  refine ⟨hLength, fun i payload hAt => ?_⟩
  rw [Nat.add_comm i 1]
  exact hEach i payload hAt

------------------------------------------------------------
-- Quantities
------------------------------------------------------------

/- How much of an item the rows ask for together. -/
def askedFor
    (itemId : Uuid)
    (rows : List ProcurementRevisionLine) : Nat :=
  ((rows.filter (fun r => r.catalogItemId = some itemId)).map
    ProcurementRevisionLine.quantity).sum

/-
  What was counted before and what the rows ask for stay
  within the limit, item by item.
-/
theorem aggregateFrom_le
    {rows : List ProcurementRevisionLine}
    {counted quantities : Dictionary Uuid Nat}
    (hCounted : ∀ itemId, (counted.get? itemId).getD 0 ≤
      maxAggregatedItemQuantity)
    (h : aggregateFrom none counted (rows.map unboundRecord) =
      .ok quantities)
    (itemId : Uuid) :
    (counted.get? itemId).getD 0 + askedFor itemId rows ≤
      maxAggregatedItemQuantity := by
  induction rows generalizing counted with
  | nil => exact hCounted itemId
  | cons row rows ih =>
      have hPending : pendingItemId none (unboundRecord row) =
          row.catalogItemId := by
        unfold pendingItemId LineRecord.boundItemId
          unboundRecord
        cases row.catalogItemId <;> rfl
      rw [List.map_cons, aggregateFrom, hPending] at h
      unfold askedFor at ih ⊢
      cases hItem : row.catalogItemId with
      | none =>
          rw [hItem] at h
          rw [List.filter_cons_of_neg (by simp [hItem])]
          exact ih hCounted h
      | some id =>
          rw [hItem] at h
          dsimp only at h
          split at h
          · cases h
          · rename_i hLe
            have hCounted' : ∀ other, ((counted.set id
                ((counted.get? id).getD 0 +
                  row.quantity)).get? other).getD 0 ≤
                maxAggregatedItemQuantity := by
              intro other
              rw [Dictionary.get?_set]
              split
              · exact Nat.le_of_not_lt hLe
              · exact hCounted other
            have hNext := ih hCounted' h
            rw [Dictionary.get?_set] at hNext
            by_cases hSame : itemId = id
            · subst hSame
              rw [if_pos rfl, Option.getD_some] at hNext
              rw [List.filter_cons_of_pos (by simp [hItem]),
                List.map_cons, List.sum_cons, ← Nat.add_assoc]
              exact hNext
            · rw [if_neg hSame] at hNext
              rw [List.filter_cons_of_neg
                (by simp [hItem, Ne.symm hSame])]
              exact hNext

------------------------------------------------------------
-- Binding
------------------------------------------------------------

/- The error of an item that is not what was approved. -/
def isMismatch : Error → Bool
| .procurement _ _ code => code = "item_identity_mismatch"
| _ => false

def NoMismatch (e : Error) : Prop :=
  isMismatch e = false

theorem noMismatch_of_notProcurement
    (e : Error)
    (h : NotProcurement e) :
    NoMismatch e := by
  cases e with
  | procurement kind message code => cases h
  | _ => rfl

theorem startCommand_raises
    (requestId : Uuid)
    (payload : ExpectedStateMutation)
    (serialized : Text)
    (actorUserId : Uuid)
    (eventType : ProcurementEventType)
    (capabilities : List Capability) :
    (startCommand env requestId payload serialized actorUserId
      eventType capabilities).Raises NoMismatch := by
  have hKey : (normalizeClientRequestId
      payload.clientRequestId).Raises NoMismatch :=
    .ite (fun _ => raises_error rfl) fun _ =>
      .ite (fun _ => raises_error rfl) (fun _ => raises_ok _)
  unfold startCommand lockAndValidateExpected
    lockAndRequireActorCapabilities
  refine .bind ?_ fun _ =>
    ((raises_acquire _).bind fun _ =>
      (raises_query _).bind fun _ =>
        raises_require (by rfl)).bind fun _ => raises_pure _
  refine (getRequestRecord_raises (by rfl) _ _).bind fun _ =>
    (raises_ofExcept hKey).bind fun _ =>
    (raises_query _).bind fun previous => ?_
  cases previous with
  | none =>
      exact (raises_require (by rfl)).bind fun _ =>
        raises_pure _
  | some event =>
      exact (raises_require (by rfl)).bind fun _ =>
        (raises_require (by rfl)).bind fun _ => raises_pure _

theorem unboundLine_raises
    (record : ProcurementRecord)
    (lineId : Uuid) :
    (unboundLine record lineId).Raises NoMismatch := by
  have hLines : record.currentLines.Raises NoMismatch := by
    refine Except.Raises.map ?_ _
    unfold ProcurementRecord.currentRevision
    split
    · exact raises_ok _
    · exact raises_error rfl
  unfold unboundLine
  refine .ite (fun _ => raises_error rfl) fun _ =>
    hLines.bind fun lines => ?_
  split
  · exact raises_error rfl
  · exact .ite (fun _ => raises_error rfl) fun _ =>
      .ite (fun _ => raises_error rfl) (fun _ => raises_ok _)

/- The line that is to be bound is one of the record. -/
theorem mem_of_unboundLine
    {record : ProcurementRecord}
    {lineId : Uuid}
    {line : LineRecord}
    (h : unboundLine record lineId = .ok line) :
    ∃ lines, record.currentLines = .ok lines ∧
      line ∈ lines ∧ line.line.id = lineId := by
  unfold unboundLine at h
  split at h
  · cases h
  · rcases Except.bind_eq_ok_iff.mp h with
      ⟨lines, hLines, h⟩
    split at h
    · cases h
    · rename_i found hFind
      split at h
      · cases h
      · split at h
        · cases h
        · cases h
          have hId := List.find?_some hFind
          exact ⟨lines, hLines, List.mem_of_find?_eq_some hFind,
            of_decide_eq_true hId⟩

section Commands

variable {t t' : Db}
variable {requestId actorUserId : Uuid}
variable {record : ProcurementRecord}
variable {row : ProcurementRevisionLine}

/- A stored row is the one that its identifier finds. -/
theorem unboundLine_eq_row
    {lock : Bool}
    {line : LineRecord}
    (hInv : ProcurementInv t)
    (hRow : row ∈ t.procurementRevisionLines)
    (hLoad : (getRequestRecord requestId lock).run t =
      .ok (record, t'))
    (h : unboundLine record row.id = .ok line) :
    line.line = row := by
  rcases mem_of_unboundLine h with ⟨lines, hLines, hMem, hId⟩
  exact List.inj_on_of_nodup_map hInv.lineIds
    (mem_of_currentLines hLoad hLines hMem) hRow hId

theorem createAndBindLine_matches
    {payload : ProposedItemCreateAndBind}
    {draft : Catalog.ValidatedItemDraft}
    {e : Error}
    (hInv : ProcurementInv t)
    (hRow : row ∈ t.procurementRevisionLines)
    (hLine : payload.lineId = row.id)
    (hDraft : Catalog.validateItemCreatePayload env.catalog t
      payload.item = .ok draft)
    (hSignature : draft.identitySignature =
      row.expectedIdentitySignature)
    (h : (createAndBindLine env requestId payload
      actorUserId).run t = .error e) :
    NoMismatch e := by
  unfold createAndBindLine at h
  rcases Txn.run_bind_eq_error_iff.mp h with
    hStart | ⟨expected, t₁, hStart, hCommand⟩
  · exact startCommand_raises _ _ _ _ _ _ t e hStart
  rcases startCommand_eq_ok hStart with ⟨rfl, hLoad⟩
  split at hCommand
  · cases hCommand
  rcases Txn.run_bind_eq_error_iff.mp hCommand with
    hUnbound | ⟨line, t₂, hUnbound, hRest⟩
  · exact raises_ofExcept (unboundLine_raises _ _) _ e hUnbound
  rcases Txn.run_ofExcept_eq_ok_iff.mp hUnbound with
    ⟨hFound, rfl⟩
  rw [hLine] at hFound
  have hSame := unboundLine_eq_row hInv hRow hLoad hFound
  -- what is left checks the identity of the row
  rw [Txn.run_query_bind, id_eq, hDraft] at hRest
  change ((Txn.require _ _ : Op Unit) >>= _).run t₂ = _ at hRest
  rw [Txn.run_require_bind, hSame, if_pos hSignature] at hRest
  refine (((Catalog.createItem_raises _ _ _ _).mono
    noMismatch_of_notProcurement).bind fun _ =>
    (recordCommand_raises noMismatch_of_notProcurement
      _ _ _ _ _ _ (raises_ok _)).bind fun _ =>
    getRequestRecord_raises (by rfl) _ _) t₂ e hRest

theorem bindLine_matches
    {payload : LineBindingCreate}
    (hInv : ProcurementInv t)
    (hRow : row ∈ t.procurementRevisionLines)
    (hLine : payload.lineId = row.id)
    (h : (bindLine env requestId payload actorUserId).run t =
      .ok (record, t')) :
    t'.procurementBindings = t.procurementBindings ∨
      ∃ item, t.findItem payload.itemId = some item ∧
        item.identitySignature =
          row.expectedIdentitySignature := by
  unfold bindLine at h
  rcases Txn.run_bind_eq_ok_iff.mp h with
    ⟨expected, t₁, hStart, hCommand⟩
  rcases startCommand_eq_ok hStart with ⟨rfl, hLoad⟩
  split at hCommand
  · rcases Txn.run_pure_eq_ok_iff.mp hCommand with ⟨_, rfl⟩
    exact .inl rfl
  rcases Txn.run_bind_eq_ok_iff.mp hCommand with
    ⟨line, t₂, hUnbound, hBinding⟩
  rcases Txn.run_ofExcept_eq_ok_iff.mp hUnbound with
    ⟨hFound, rfl⟩
  rw [hLine] at hFound
  have hSame := unboundLine_eq_row hInv hRow hLoad hFound
  rw [Txn.run_acquire_bind, Txn.run_query_bind] at hBinding
  rcases Txn.run_bind_eq_ok_iff.mp hBinding with
    ⟨item, t₃, hLocked, hChecks⟩
  rcases Txn.run_getOrFail_eq_ok_iff.mp hLocked with
    ⟨hItem, rfl⟩
  rcases Txn.run_bind_eq_ok_iff.mp hChecks with
    ⟨_, t₄, hActive, hAfter⟩
  rcases Txn.run_require_eq_ok_iff.mp hActive with ⟨_, rfl⟩
  rcases Txn.run_bind_eq_ok_iff.mp hAfter with
    ⟨_, t₅, hIdentity, _⟩
  rcases Txn.run_require_eq_ok_iff.mp hIdentity with
    ⟨hSignature, _⟩
  rw [hSame] at hSignature
  exact .inr ⟨item, hItem, hSignature⟩

end Commands

------------------------------------------------------------
-- Lines
------------------------------------------------------------

/- What can be bound to the row of a proposed item. -/
structure BoundAsApproved
    (env : ProcurementEnv)
    (db : Db)
    (proposal : Catalog.ItemCreate)
    (row : ProcurementRevisionLine) : Prop where
  accepted : ∀ t item,
    Catalog.SameMetadata db t →
    Catalog.EqualFields proposal item →
    ∃ draft, Catalog.validateItemCreatePayload env.catalog t
        item = .ok draft ∧
      draft.identitySignature = row.expectedIdentitySignature
  created : ∀ env' t requestId actorUserId payload e,
    env'.catalog = env.catalog →
    ProcurementHistory t →
    Catalog.SameMetadata db t →
    row ∈ t.procurementRevisionLines →
    payload.lineId = row.id →
    Catalog.EqualFields proposal payload.item →
    (createAndBindLine env' requestId payload actorUserId).run
      t = .error e →
    NoMismatch e
  bound : ∀ env' t t' requestId actorUserId payload record,
    ProcurementHistory t →
    row ∈ t.procurementRevisionLines →
    payload.lineId = row.id →
    (bindLine env' requestId payload actorUserId).run t =
      .ok (record, t') →
    t'.procurementBindings = t.procurementBindings ∨
      ∃ item draft, t.findItem payload.itemId = some item ∧
        Catalog.validateItemCreatePayload env.catalog db
          proposal = .ok draft ∧
        item.identitySignature = draft.identitySignature

/- The row of a proposal expects what was proposed. -/
theorem RowOf.boundAsApproved
    (hKeys : Catalog.CatalogKeys db)
    {lineNo : Nat}
    {line : ProposedItemLineCreate}
    {row : ProcurementRevisionLine}
    (h : RowOf env db lineNo (.proposed line) row) :
    BoundAsApproved env db line.itemCreate row := by
  cases h with
  | proposed hDraft =>
      refine ⟨?_, ?_, ?_⟩
      · intro t item hSame hEqual
        exact validateItemCreatePayload_of_equal hKeys hSame
          hEqual hDraft
      · intro env' t requestId actorUserId payload e hEnv
          hHistory hSame hRow hLine hEqual hError
        rcases validateItemCreatePayload_of_equal hKeys hSame
          hEqual hDraft with ⟨draft', hDraft', hSignature⟩
        rw [← hEnv] at hDraft'
        exact createAndBindLine_matches hHistory.inv hRow hLine
          hDraft' hSignature hError
      · intro env' t t' requestId actorUserId payload record
          hHistory hRow hLine hRun
        refine (bindLine_matches hHistory.inv hRow hLine
          hRun).imp_right ?_
        rintro ⟨item, hItem, hSignature⟩
        exact ⟨item, _, hItem, hDraft, hSignature⟩

/-
  The rows of a revision: each is that of its payload alone,
  no item is asked for beyond the limit, and to the row of a
  proposed item only that item can be bound.
-/
theorem prepared_lines_are_faithful
    (hKeys : Catalog.CatalogKeys db)
    {payloads : List ProcurementLineCreate}
    {rows : List ProcurementRevisionLine}
    {db' : Db}
    (hRun : (prepareLines env payloads).run db =
      .ok (rows, db')) :
    rows.length = payloads.length ∧
    (∀ (i : Nat) payload, payloads[i]? = some payload →
      ∃ row, rows[i]? = some row ∧
        RowOf env db (i + 1) payload row) ∧
    (∀ payloads' rows' t,
      (prepareLines env payloads').run db = .ok (rows', t) →
      ∀ i : Nat, payloads'[i]? = payloads[i]? →
        rows'[i]? = rows[i]?) ∧
    (∀ itemId, askedFor itemId rows ≤
      maxAggregatedItemQuantity) ∧
    ∀ (i : Nat) (line : ProposedItemLineCreate) row,
      payloads[i]? = some (.proposed line) →
      rows[i]? = some row →
        BoundAsApproved env db line.itemCreate row := by
  rcases prepareLines_faithful hKeys hRun with
    ⟨hLength, hEach⟩
  refine ⟨hLength, hEach, ?_, ?_, ?_⟩
  · intro payloads' rows' t hRun' i hSame
    rcases prepareLines_faithful hKeys hRun' with
      ⟨hLength', hEach'⟩
    cases hAt : payloads[i]? with
    | none =>
        rw [hAt] at hSame
        rw [List.getElem?_eq_none_iff] at hAt hSame
        rw [List.getElem?_eq_none (hLength.trans_le hAt),
          List.getElem?_eq_none (hLength'.trans_le hSame)]
    | some payload =>
        rw [hAt] at hSame
        rcases hEach i payload hAt with ⟨row, hRow, hOf⟩
        rcases hEach' i payload hSame with ⟨row', hRow', hOf'⟩
        rw [hRow, hRow', hOf.unique hOf']
  · intro itemId
    rcases prepareLines_eq_ok hKeys hRun with
      ⟨_, quantities, _, _, _, hQuantities⟩
    have hLe := aggregateFrom_le (fun _ => Nat.zero_le _)
      hQuantities itemId
    exact (Nat.le_add_left _ _).trans hLe
  · intro i line row hAt hRow
    rcases hEach i _ hAt with ⟨row', hRow', hOf⟩
    cases hRow.symm.trans hRow'
    exact hOf.boundAsApproved hKeys

namespace FirstRequest

theorem two_le : 2 ≤ maxQuantity := by
  decide

theorem three_pos : 0 < 3 := by
  decide

theorem three_le : 3 ≤ maxQuantity := by
  decide

theorem four_pos : 0 < 4 := by
  decide

theorem four_le : 4 ≤ maxQuantity := by
  decide

theorem no_model (m : Text) (h : none = some m) :
    m.length ≤ 255 := by
  cases h

/- A proposal between two lines with an item. -/
def mixedLines : List ProcurementLineCreate :=
  [.existing ⟨⟨5⟩, 2, Nat.two_pos, two_le⟩,
    .proposed {
      categoryKey := "power_cable".toList
      manufacturerId := none
      name := "C19".toList
      model := none
      attributes := .empty
      quantity := 3
      categoryKey_nonempty := by decide
      categoryKey_length :=
        Catalog.BlankCable.payload.categoryKeyLength
      name_nonempty := by decide
      name_length := by decide
      model_length := no_model
      quantity_pos := three_pos
      quantity_le := three_le },
    .existing ⟨⟨5⟩, 4, four_pos, four_le⟩]

end FirstRequest

theorem prepared_lines_are_faithful_mixed :
    ∃ rows, (prepareLines FirstRequest.env
        FirstRequest.mixedLines).run FirstRequest.start =
          .ok (rows, FirstRequest.start) ∧
      rows.map ProcurementRevisionLine.lineType =
        [.existingItem, .proposedItem, .existingItem] ∧
      ∃ row, rows[2]? = some row ∧
        RowOf FirstRequest.env FirstRequest.start 3
          (.existing ⟨⟨5⟩, 4, by decide, by decide⟩) row := by
  have hKeys : Catalog.CatalogKeys FirstRequest.start := by
    refine ⟨?_, ?_, ?_, ?_, ?_⟩ <;> decide
  have hRun : ∃ rows, (prepareLines FirstRequest.env
        FirstRequest.mixedLines).run FirstRequest.start =
          .ok (rows, FirstRequest.start) ∧
      rows.map ProcurementRevisionLine.lineType =
        [.existingItem, .proposedItem, .existingItem] :=
    ⟨_, rfl, rfl⟩
  rcases hRun with ⟨rows, hRun, hTypes⟩
  exact ⟨rows, hRun, hTypes,
    (prepared_lines_are_faithful hKeys hRun).2.1 2 _ rfl⟩

end Procurement
