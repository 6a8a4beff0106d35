import DcInventory.Inventory.Service
import DcInventory.Library.Outcomes
import DcInventory.Procurement.Lines

/-
  This file proves that the errors of the catalog, of the
  warehouse and of the database are not those of procurement.

  Key definitions include:
    * `Error.isProcurement`
    * `NotProcurement`

  Key theorems include:
    * `Catalog.createItem_raises`
    * `Catalog.validateItemCreatePayload_raises`
    * `createMovement_raises`
-/

open Except (raises_ok raises_error raises_mapM)
open Txn (raises_pure raises_fail raises_acquire raises_query
  raises_acquireAll raises_update raises_require
  raises_ofExcept raises_getOrFail)

/- The error is one of `ProcurementError`. -/
def Error.isProcurement : Error → Bool
| .procurement _ _ _ => true
| _ => false

def NotProcurement (e : Error) : Prop :=
  e.isProcurement = false

------------------------------------------------------------
-- Values Of Attributes
------------------------------------------------------------

namespace Catalog

variable (U : Unicode)

theorem intStr_raises (n : Int) :
    (intStr n).Raises NotProcurement :=
  .ite (fun _ => raises_error rfl) (fun _ => raises_ok _)

theorem metadataDecimal_raises (value : MetadataValue) :
    (metadataDecimal U value).Raises NotProcurement := by
  cases value with
  | int n => exact (intStr_raises n).bind fun _ => raises_ok _
  | _ => exact raises_ok _

theorem numericMetadata_raises
    (attr : CategoryAttribute)
    (key : String) :
    (numericMetadata U attr key).Raises NotProcurement := by
  unfold numericMetadata
  split
  · exact raises_ok _
  · refine (metadataDecimal_raises U _).bind fun number => ?_
    split
    · exact raises_error rfl
    · exact raises_error rfl
    · exact raises_ok _

theorem validateNumericBounds_raises
    (attr : CategoryAttribute)
    (value : Decimal) :
    (validateNumericBounds U attr value).Raises
      NotProcurement := by
  have hMinimum (bound : Option Decimal) :
      (validateMinimum attr value bound).Raises
        NotProcurement := by
    cases bound with
    | none => exact raises_ok _
    | some minimum =>
        exact .ite (fun _ => raises_error rfl)
          (fun _ => raises_ok _)
  have hMaximum (bound : Option Decimal) :
      (validateMaximum attr value bound).Raises
        NotProcurement := by
    cases bound with
    | none => exact raises_ok _
    | some maximum =>
        exact .ite (fun _ => raises_error rfl)
          (fun _ => raises_ok _)
  exact (numericMetadata_raises U attr "min").bind fun _ =>
    (numericMetadata_raises U attr "max").bind fun _ =>
      (hMinimum _).bind fun _ => hMaximum _

theorem validateDecimalStorage_raises
    (attr : CategoryAttribute)
    (value : Decimal) :
    (validateDecimalStorage attr value).Raises
      NotProcurement :=
  .ite (fun _ => raises_error rfl) fun _ =>
    .ite (fun _ => raises_error rfl) fun _ => raises_ok _

theorem blankValue_raises (attr : CategoryAttribute) :
    (blankValue attr).Raises NotProcurement :=
  .ite (fun _ => raises_error rfl) (fun _ => raises_ok _)

theorem prepareText_raises
    (attr : CategoryAttribute)
    (raw : RawValue) :
    (prepareText attr raw).Raises NotProcurement := by
  have hPreserved (text : Text) :
      (preservedText attr text).Raises NotProcurement := by
    unfold preservedText
    split
    · exact raises_ok _
    · exact raises_ok _
    · exact raises_ok _
    · exact raises_error rfl
  have hLength (value : Text) :
      (validateTextLength attr value).Raises
        NotProcurement := by
    unfold validateTextLength
    split
    · exact raises_ok _
    · exact raises_ok _
    · exact .ite (fun _ => raises_error rfl)
        (fun _ => raises_ok _)
    · exact raises_error rfl
  cases raw with
  | str text =>
      exact (hPreserved text).bind fun value =>
        .ite (fun _ => blankValue_raises attr) fun _ =>
          (hLength value).bind fun _ => raises_ok _
  | _ => exact raises_error rfl

theorem prepareInteger_raises
    (attr : CategoryAttribute)
    (raw : RawValue) :
    (prepareInteger U attr raw).Raises NotProcurement := by
  cases raw with
  | int value =>
      exact .ite
        (fun _ => (validateNumericBounds_raises U attr _).bind
          fun _ => raises_ok _)
        (fun _ => raises_error rfl)
  | _ => exact raises_error rfl

theorem prepareDecimal_raises
    (attr : CategoryAttribute)
    (raw : RawValue) :
    (prepareDecimal U attr raw).Raises NotProcurement := by
  have hFinite (number : Option PyDecimal) :
      (prepareFinite U attr number).Raises
        NotProcurement := by
    match number with
    | none => exact raises_error rfl
    | some .special => exact raises_error rfl
    | some (.finite value) =>
        exact (validateDecimalStorage_raises attr value).bind
          fun _ => (validateNumericBounds_raises U attr value).bind
            fun _ => raises_ok _
  cases raw with
  | bool value => exact raises_error rfl
  | float text value => exact raises_error rfl
  | str text =>
      exact .ite (fun _ => blankValue_raises attr)
        (fun _ => hFinite _)
  | int n =>
      exact (intStr_raises n).bind fun _ => hFinite _
  | decimal d => exact hFinite _

theorem prepareEnum_raises
    (attr : CategoryAttribute)
    (raw : RawValue) :
    (prepareEnum attr raw).Raises NotProcurement := by
  cases raw with
  | str text =>
      refine .ite (fun _ => blankValue_raises attr) fun _ => ?_
      cases attr.allowedTexts? with
      | none => exact raises_error rfl
      | some allowed =>
          exact .ite (fun _ => raises_ok _)
            (fun _ => raises_error rfl)
  | _ => exact raises_error rfl

theorem prepareAttributeValue_raises
    (attr : CategoryAttribute)
    (raw : RawValue) :
    (prepareAttributeValue U attr raw).Raises
      NotProcurement := by
  unfold prepareAttributeValue
  cases attr.dataType with
  | text => exact prepareText_raises attr raw
  | integer => exact prepareInteger_raises U attr raw
  | decimal => exact prepareDecimal_raises U attr raw
  | boolean =>
      cases raw with
      | bool value => exact raises_ok _
      | _ => exact raises_error rfl
  | enum => exact prepareEnum_raises attr raw

theorem validateAttributeValues_raises
    (categoryId : Uuid)
    (definitions : List CategoryAttribute)
    (supplied : Dictionary Text RawValue) :
    (validateAttributeValues U categoryId definitions
      supplied).Raises NotProcurement := by
  have hAll (entries : List (Text × RawValue)) :
      (prepareAll U definitions entries).Raises
        NotProcurement := by
    induction entries with
    | nil => exact raises_ok _
    | cons entry entries ih =>
        unfold prepareAll
        split
        · exact raises_error rfl
        · exact (prepareAttributeValue_raises U _ _).bind
            fun _ => ih.bind fun _ => raises_ok _
  unfold validateAttributeValues
  split
  · exact raises_error rfl
  · exact .ite (fun _ => raises_error rfl) fun _ =>
      .ite (fun _ => raises_error rfl) fun _ => hAll _

------------------------------------------------------------
-- Drafts
------------------------------------------------------------

theorem normalizeInlineText_raises
    (value : Text)
    (field : String)
    (maxLength : Nat) :
    (normalizeInlineText value field maxLength).Raises
      NotProcurement :=
  .ite (fun _ => raises_error rfl) fun _ =>
    .ite (fun _ => raises_error rfl) fun _ => raises_ok _

theorem normalizeOptionalInlineText_raises
    (field : String)
    (maxLength : Nat)
    (value : Option Text) :
    (normalizeOptionalInlineText field maxLength value).Raises
      NotProcurement := by
  cases value with
  | none => exact raises_ok _
  | some value =>
      exact .ite (fun _ => raises_ok _) fun _ =>
        .ite (fun _ => raises_error rfl) fun _ => raises_ok _

theorem normalizeComparison_raises
    (value : Text)
    (field : String)
    (maxLength : Nat) :
    (normalizeComparison U value field maxLength).Raises
      NotProcurement :=
  .ite (fun _ => raises_error rfl) (fun _ => raises_ok _)

theorem normalizeOptionalComparison_raises
    (field : String)
    (maxLength : Nat)
    (value : Option Text) :
    (normalizeOptionalComparison U field maxLength
      value).Raises NotProcurement := by
  match value with
  | none => exact raises_ok _
  | some [] => exact raises_ok _
  | some (c :: cs) =>
      exact (normalizeComparison_raises U _ _ _).map some

theorem normalizeCategoryKey_raises (value : Text) :
    (normalizeCategoryKey U value).Raises NotProcurement :=
  (normalizeInlineText_raises _ _ _).map _

theorem derivedAttributes_raises
    (category : Category)
    (attributes : Dictionary Text RawValue) :
    (derivedAttributes U category attributes).Raises
      NotProcurement := by
  refine .ite (fun _ => ?_) (fun _ => raises_ok _)
  unfold deriveReach
  dsimp only
  split
  · exact raises_error rfl
  · exact raises_error rfl
  · split
    · exact .ite (fun _ => raises_ok _)
        (fun _ => raises_error rfl)
    · exact raises_ok _

theorem prepareIdentity_raises
    (sha256 : Text → Text)
    (context : ItemCreateValidationContext)
    (payload : ItemCreate) :
    (prepareIdentity U sha256 context payload).Raises
      NotProcurement := by
  have hLeaf :
      (leafCategory U context payload.categoryKey).Raises
        NotProcurement := by
    refine (normalizeCategoryKey_raises U _).bind fun key => ?_
    split
    · exact raises_error rfl
    · exact .ite (fun _ => raises_error rfl)
        (fun _ => raises_ok _)
  have hManufacturer :
      (draftManufacturer context
        payload.manufacturerId).Raises NotProcurement := by
    unfold draftManufacturer
    split
    · exact raises_ok _
    · split
      · exact raises_error rfl
      · exact raises_ok _
  exact hLeaf.bind fun category => hManufacturer.bind fun _ =>
    Except.Raises.bind
      (.ite (fun _ => raises_error rfl) (fun _ => raises_ok _))
      fun _ => (derivedAttributes_raises U _ _).bind fun _ =>
        (validateAttributeValues_raises U _ _ _).bind fun _ =>
          raises_ok _

theorem loadItemCreateValidationContext_raises
    (db : Db)
    (payloads : List ItemCreate) :
    (loadItemCreateValidationContext U db payloads).Raises
      NotProcurement := by
  have hKey (payload : ItemCreate) :
      (normalizeCategoryKey U payload.categoryKey).Raises
        NotProcurement :=
    normalizeCategoryKey_raises U payload.categoryKey
  unfold loadItemCreateValidationContext
  exact (raises_mapM hKey payloads).bind fun _ => raises_ok _

theorem validate_raises
    (env : CatalogEnv)
    (context : ItemCreateValidationContext)
    (payload : ItemCreate) :
    (context.validate env payload).Raises NotProcurement :=
  (prepareIdentity_raises _ _ _ _).bind fun _ =>
    (normalizeInlineText_raises _ _ _).bind fun _ =>
      (normalizeOptionalInlineText_raises _ _ _).bind fun _ =>
        raises_ok _

theorem validateItemCreatePayload_raises
    (env : CatalogEnv)
    (db : Db)
    (payload : ItemCreate) :
    (validateItemCreatePayload env db payload).Raises
      NotProcurement :=
  (loadItemCreateValidationContext_raises _ _ _).bind fun _ =>
    validate_raises env _ payload

theorem loadAttributes_raises
    (db : Db)
    (itemId : Uuid) :
    (loadAttributes db itemId).Raises NotProcurement := by
  have hStored (x : CategoryAttribute × ItemAttributeValue) :
      (storedAttributeValue x.1 x.2).Raises
        NotProcurement := by
    unfold storedAttributeValue
    dsimp only
    split
    · exact raises_ok _
    · exact raises_error rfl
  unfold loadAttributes
  exact (raises_mapM (fun x => (hStored x).bind fun _ =>
    raises_ok _) _).bind fun _ => raises_ok _

theorem insertAttributeRows_raises
    (itemId categoryId : Uuid)
    (values : List PreparedAttributeValue) :
    (insertAttributeRows itemId categoryId values).Raises
      NotProcurement := by
  unfold insertAttributeRows
  exact (raises_getOrFail (by rfl)).bind fun _ =>
    (raises_query _).bind fun _ =>
      (raises_require (by rfl)).bind fun _ => raises_update _

theorem createItem_raises
    (env : CatalogEnv)
    (newId : Uuid)
    (now : Time)
    (payload : ItemCreate) :
    (createItem env newId now payload).Raises
      NotProcurement := by
  have hPrepared (db : Db) :
      (prepareStoredIdentity env.unicode env.sha256 db
        payload).Raises NotProcurement :=
    (loadItemCreateValidationContext_raises _ _ _).bind
      fun _ => prepareIdentity_raises _ _ _ _
  unfold createItem
  exact (raises_query _).bind fun _ =>
    (raises_ofExcept (hPrepared _)).bind fun _ =>
    (raises_ofExcept (normalizeInlineText_raises _ _ _)).bind
      fun _ =>
    (raises_ofExcept (normalizeComparison_raises _ _ _ _)).bind
      fun _ =>
    (raises_ofExcept
      (normalizeOptionalInlineText_raises _ _ _)).bind fun _ =>
    (raises_ofExcept
      (normalizeOptionalComparison_raises _ _ _ _)).bind fun _ =>
    (raises_query _).bind fun _ =>
    (raises_require (by rfl)).bind fun _ =>
    (raises_require (by rfl)).bind fun _ =>
    (raises_update _).bind fun _ =>
    (insertAttributeRows_raises _ _ _).bind fun _ =>
      raises_pure _

end Catalog

------------------------------------------------------------
-- Movements
------------------------------------------------------------

theorem normalizeInlineText_raises
    (value : Text)
    (field : String)
    (maxLength : Nat) :
    (normalizeInlineText value field maxLength).Raises
      NotProcurement :=
  .ite (fun _ => raises_error rfl) fun _ =>
    .ite (fun _ => raises_error rfl) fun _ => raises_ok _

theorem checkCustodyArguments_raises
    (payload : MovementCreate)
    (actorUserId : Uuid)
    (custodyUserId : Option Uuid) :
    (checkCustodyArguments payload actorUserId
      custodyUserId).Raises NotProcurement :=
  .ite (fun _ => raises_ok _) fun _ =>
    .ite (fun _ => raises_error rfl) fun _ =>
      .ite (fun _ => raises_error rfl) fun _ => raises_ok _

theorem validatePositions_raises (payload : MovementCreate) :
    (validatePositions payload).Raises NotProcurement :=
  .ite (fun _ => raises_error rfl) fun _ =>
    .ite (fun _ => raises_error rfl) fun _ =>
      .ite (fun _ => raises_error rfl) fun _ => raises_ok _

theorem enforce_raises (x : Except DatabaseGuard Unit) :
    (enforce x).Raises NotProcurement := by
  refine raises_ofExcept ?_
  cases x with
  | error g => exact raises_error rfl
  | ok u => exact raises_ok _

theorem getMovementRecord_raises (movementId : Uuid) :
    (getMovementRecord movementId).Raises NotProcurement := by
  unfold getMovementRecord
  exact (raises_query _).bind fun _ =>
    (raises_getOrFail (by rfl)).bind fun _ =>
      (raises_query _).bind fun _ => raises_pure _

theorem lockCustodyUser_raises
    (session : List User)
    (movementType : MovementType)
    (custodyUserId : Option Uuid) :
    (lockCustodyUser session movementType
      custodyUserId).Raises NotProcurement := by
  cases custodyUserId with
  | none => exact raises_pure _
  | some id =>
      unfold lockCustodyUser
      exact (raises_acquire _).bind fun _ =>
        (raises_query _).bind fun _ =>
        (raises_getOrFail (by rfl)).bind fun _ =>
        (raises_require (by rfl)).bind fun _ => raises_pure _

theorem checkOriginal_raises
    (payload : MovementCreate)
    (custodyUserId : Option Uuid)
    (custodyUser : Option User)
    (originalId : Option Uuid) :
    (checkOriginal payload custodyUserId custodyUser
      originalId).Raises NotProcurement := by
  cases originalId with
  | none => exact raises_pure _
  | some id =>
      unfold checkOriginal
      refine (raises_acquire _).bind fun _ =>
        (raises_query _).bind fun _ =>
        (raises_require (by rfl)).bind fun _ =>
        (getMovementRecord_raises _).bind fun _ =>
        (raises_require (by rfl)).bind fun _ =>
        (raises_require (by rfl)).bind fun _ =>
        (raises_require (by rfl)).bind fun _ => ?_
      refine .ite (fun _ => ?_) (fun _ => raises_pure _)
      exact (raises_query _).bind fun _ =>
        (raises_require (by rfl)).bind fun _ =>
        (raises_require (by rfl)).bind fun _ => raises_pure _

theorem lockRows_raises {R : Type}
    (ok : Error → Prop)
    (resource : Uuid → Resource)
    (find : Db → Uuid → Option R)
    (ids : List Uuid) :
    (lockRows resource find ids).Raises ok := by
  induction ids with
  | nil => exact raises_pure _
  | cons id ids ih =>
      unfold lockRows
      exact (raises_acquire _).bind fun _ =>
        (raises_query _).bind fun _ =>
          ih.bind fun _ => raises_pure _

theorem prepareMovement_raises
    (env : MovementEnv)
    (call : MovementCall) :
    (prepareMovement env call).Raises NotProcurement := by
  have hLocations :
      (lockLocations call.payload).Raises NotProcurement := by
    unfold lockLocations
    exact (lockRows_raises _ _ _ _).bind fun _ =>
      (raises_require (by rfl)).bind fun _ =>
        (raises_require (by rfl)).bind fun _ => raises_pure _
  have hItems :
      (lockItems call.payload).Raises NotProcurement := by
    unfold lockItems
    exact (raises_require (by rfl)).bind fun _ =>
      (lockRows_raises _ _ _ _).bind fun _ =>
        (raises_require (by rfl)).bind fun _ =>
          (raises_require (by rfl)).bind fun _ => raises_pure _
  have hBalances (items : List Item) :
      (readBalances call.payload call.custodyUserId
        items).Raises NotProcurement := by
    unfold readBalances
    refine (raises_query _).bind fun _ =>
      (raises_query _).bind fun _ => ?_
    split
    · exact raises_pure _
    · exact (raises_query _).bind fun _ => raises_pure _
  unfold prepareMovement
  exact (lockCustodyUser_raises _ _ _).bind fun _ =>
    (raises_ofExcept (validatePositions_raises _)).bind fun _ =>
    (checkOriginal_raises _ _ _ _).bind fun _ =>
    hLocations.bind fun _ => hItems.bind fun _ =>
    (raises_require (by rfl)).bind fun _ =>
    (hBalances _).bind fun _ => raises_pure _

theorem quantityLoop_raises
    (payload : MovementCreate)
    (custodyUserId : Option Uuid)
    (original : Option MovementRecord)
    (items : List Item)
    (balances : Balances)
    (movementId : Uuid)
    (number : Nat)
    (lines : List MovementLineCreate) :
    (quantityLoop payload custodyUserId original items balances
      movementId number lines).Raises NotProcurement := by
  have hQuantity (quantity : Int) (message code : String) :
      (checkQuantity quantity message code).Raises
        NotProcurement :=
    .ite (fun _ => raises_error rfl) fun _ =>
      .ite (fun _ => raises_error rfl) fun _ => raises_ok _
  have hPosition
      (line : MovementLineCreate)
      (delta : Int)
      (location : Option Uuid) :
      (checkPosition balances line delta location).Raises
        NotProcurement := by
    cases location with
    | none => exact raises_ok _
    | some id => exact hQuantity _ _ _
  have hLine (line : MovementLineCreate) :
      (checkLine payload custodyUserId original balances
        line).Raises NotProcurement :=
    (hPosition _ _ _).bind fun _ => (hPosition _ _ _).bind
      fun _ => .ite (fun _ => hQuantity _ _ _)
        (fun _ => raises_ok _)
  have hRow (number : Nat) (line : MovementLineCreate) :
      (movementLineRow movementId items balances number
        line).Raises NotProcurement := by
    unfold movementLineRow
    split
    · exact raises_error rfl
    · exact raises_ok _
  induction lines generalizing number with
  | nil => exact raises_ok _
  | cons line lines ih =>
      exact (hLine line).bind fun _ => (hRow _ _).bind fun _ =>
        (ih _).bind fun _ => raises_ok _

theorem insertMovement_raises (new : Movement) :
    (insertMovement new).Raises NotProcurement := by
  have hReceipt :
      (protectProcurementReceiptMovement new).Raises
        NotProcurement := by
    unfold protectProcurementReceiptMovement
    split
    · exact raises_pure _
    · refine .ite (fun _ => ?_) (fun _ => raises_pure _)
      exact (raises_acquire _).bind fun _ =>
        (raises_query _).bind fun _ =>
          raises_require (by rfl)
  have hUnique :
      (uniqueMovement new).Raises NotProcurement := by
    unfold uniqueMovement
    refine (raises_acquire _).bind fun _ =>
      (raises_query _).bind fun _ =>
      (raises_require (by rfl)).bind fun _ =>
      (raises_acquire _).bind fun _ =>
      (raises_query _).bind fun _ =>
      (raises_require (by rfl)).bind fun _ => ?_
    split
    · exact (raises_acquire _).bind fun _ =>
        (raises_query _).bind fun _ =>
          raises_require (by rfl)
    · exact raises_pure _
  unfold insertMovement
  exact hReceipt.bind fun _ => (raises_query _).bind fun _ =>
    (enforce_raises _).bind fun _ =>
    (raises_query _).bind fun _ =>
    (raises_query _).bind fun _ =>
    (enforce_raises _).bind fun _ =>
    (enforce_raises _).bind fun _ => hUnique.bind fun _ =>
      raises_update _

theorem insertMovementLines_raises
    (header : Movement)
    (lines : List MovementLine) :
    (insertMovementLines header lines).Raises
      NotProcurement := by
  have hLine (line : MovementLine) :
      (insertMovementLine header line).Raises
        NotProcurement := by
    unfold insertMovementLine
    exact (raises_query _).bind fun _ =>
      (enforce_raises _).bind fun _ => raises_update _
  induction lines with
  | nil => exact raises_pure _
  | cons line lines ih =>
      exact (hLine line).bind fun _ => ih

theorem refreshWarehouseProjection_raises
    (movementId itemId : Uuid) :
    (refreshWarehouseProjection movementId itemId).Raises
      NotProcurement := by
  have hPosition (location : Option Uuid) :
      (refreshPosition itemId location).Raises
        NotProcurement := by
    cases location with
    | none => exact raises_pure _
    | some id =>
        change (refreshStock itemId id).Raises _
        unfold refreshStock
        exact (raises_query _).bind fun _ =>
          (raises_require (by rfl)).bind fun _ =>
            raises_update _
  have hEligible (user : Uuid) :
      (enforceCustodyHolderEligibility user).Raises
        NotProcurement := by
    unfold enforceCustodyHolderEligibility
    exact (raises_acquire _).bind fun _ =>
      (raises_query _).bind fun _ => raises_require (by rfl)
  have hHolder (user : Option Uuid) :
      (refreshHolder itemId user).Raises NotProcurement := by
    cases user with
    | none => exact raises_pure _
    | some id =>
        change (refreshCustody id itemId).Raises _
        unfold refreshCustody
        exact (raises_query _).bind fun _ =>
          (raises_require (by rfl)).bind fun _ =>
            .ite (fun _ => raises_update _) fun _ =>
              (hEligible id).bind fun _ => raises_update _
  unfold refreshWarehouseProjection
  exact (raises_query _).bind fun _ =>
    (raises_getOrFail (by rfl)).bind fun _ =>
    (raises_query _).bind fun _ =>
    (raises_require (by rfl)).bind fun _ =>
    (hPosition _).bind fun _ => (hPosition _).bind fun _ =>
      hHolder _

theorem writeMovement_raises
    (env : MovementEnv)
    (call : MovementCall)
    (requestId : Text)
    (prepared : Prepared) :
    (writeMovement env call requestId prepared).Raises
      NotProcurement := by
  have hRefresh (id : Uuid) (lines : List MovementLine) :
      (refreshLines id lines).Raises NotProcurement := by
    induction lines with
    | nil => exact raises_pure _
    | cons line lines ih =>
        exact (refreshWarehouseProjection_raises _ _).bind
          fun _ => ih
  unfold writeMovement
  exact (raises_ofExcept
      (normalizeInlineText_raises _ _ _)).bind fun _ =>
    (insertMovement_raises _).bind fun _ =>
    (raises_ofExcept
      (quantityLoop_raises _ _ _ _ _ _ _ _)).bind fun _ =>
    (insertMovementLines_raises _ _).bind fun _ =>
    (hRefresh _ _).bind fun _ => raises_pure _

theorem createMovement_raises
    (env : MovementEnv)
    (call : MovementCall) :
    (createMovement env call).Raises NotProcurement := by
  have hExisting (key fingerprint : Text) :
      (existingIdempotentResult call.actorUserId key
        fingerprint).Raises NotProcurement := by
    unfold existingIdempotentResult
    refine (raises_query _).bind fun _ => ?_
    split
    · exact raises_pure _
    · exact (raises_query _).bind fun _ =>
        (raises_require (by rfl)).bind fun _ => raises_pure _
  refine .ite (fun _ => raises_fail rfl) (fun _ => ?_)
  unfold createMovementUnchecked
  refine (raises_ofExcept
      (checkCustodyArguments_raises _ _ _)).bind fun _ =>
    (raises_ofExcept
      (normalizeInlineText_raises _ _ _)).bind fun _ =>
    (raises_acquire _).bind fun _ =>
    (hExisting _ _).bind fun _ => ?_
  split
  · exact raises_pure _
  · exact (prepareMovement_raises _ _).bind fun _ =>
      (writeMovement_raises _ _ _ _).bind fun _ => raises_pure _

theorem checkLineCount_raises (result : MovementResult) :
    (checkLineCount result).Raises NotProcurement :=
  .ite (fun _ => raises_pure _) fun _ =>
    (raises_query _).bind fun _ => enforce_raises _
