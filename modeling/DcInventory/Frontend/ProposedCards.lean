import DcInventory.Frontend.ApprovedLines
import DcInventory.Frontend.UnchangedForm
import DcInventory.Procurement.StoredLines

/-
  This file proves which lines that the composer adds become
  cards of the catalog from the form that is opened for them.

  Key definitions include:
    * `LineComposer.BecomesCard`

  Key theorems include:
    * `LineComposer.proposed_lines_become_cards`
-/

namespace LineComposer

open Catalog (manufacturedLeaves)
open ItemForm (Browser CategoryAttributeOut Reshown getCategory
  formDefinitions procurementDraft submitErrors submit)

------------------------------------------------------------
-- Cards
------------------------------------------------------------

/-
  The form that is opened for the row shows no error, and
  what it sends is accepted with the identity that the row
  expects, so that binding it is no mismatch.
-/
def BecomesCard
    (env : Procurement.ProcurementEnv)
    (browser : Browser)
    (t : Db)
    (row : ProcurementRevisionLine) : Prop :=
  let draft := procurementDraft browser row.displaySnapshot
  ∃ detail sending item validated,
    getCategory env.catalog.unicode browser t draft.category =
      some detail ∧
    (submitErrors browser (formDefinitions detail)
      (ItemForm.identityRequired t.categories draft.category)
      draft).entries = [] ∧
    submit browser (formDefinitions detail)
      (ItemForm.identityRequired t.categories draft.category)
      draft = some sending ∧
    sending.create = .ok item ∧
    Catalog.validateItemCreatePayload env.catalog t item =
      .ok validated ∧
    validated.identitySignature =
      row.expectedIdentitySignature ∧
    ∀ env' requestId actorUserId payload e,
      env'.catalog = env.catalog →
      Procurement.ProcurementHistory t →
      row ∈ t.procurementRevisionLines →
      payload.lineId = row.id →
      payload.item = item →
      (Procurement.createAndBindLine env' requestId payload
        actorUserId).run t = .error e →
      Procurement.NoMismatch e

/- The signature of what the form sends for a row. -/
def sentSignature
    (env : Procurement.ProcurementEnv)
    (browser : Browser)
    (t : Db)
    (row : ProcurementRevisionLine) : Option Text := do
  let draft := procurementDraft browser row.displaySnapshot
  let detail ← getCategory env.catalog.unicode browser t
    draft.category
  let sending ← submit browser (formDefinitions detail)
    (ItemForm.identityRequired t.categories draft.category)
      draft
  let item ← sending.create.toOption
  let validated ← (Catalog.validateItemCreatePayload env.catalog
    t item).toOption
  some validated.identitySignature

theorem BecomesCard.sentSignature
    {env : Procurement.ProcurementEnv}
    {browser : Browser}
    {t : Db}
    {row : ProcurementRevisionLine}
    (h : BecomesCard env browser t row) :
    LineComposer.sentSignature env browser t row =
      some row.expectedIdentitySignature := by
  rcases h with ⟨detail, sending, item, validated, hDetail, _,
    hSending, hItem, hValidated, hSignature, _⟩
  unfold LineComposer.sentSignature
  simp only [hDetail, hSending, hItem, hValidated,
    Option.bind_eq_bind, Option.bind_some, Except.toOption]
  rw [hSignature]

/- The form of a category reads nothing else. -/
theorem getCategory_congr
    {U : Unicode}
    {browser : Browser}
    {db t : Db}
    (hSame : Catalog.SameMetadata db t)
    (key : Text) :
    getCategory U browser t key =
      getCategory U browser db key := by
  unfold getCategory ItemForm.categoryDetail
    Catalog.definitionsOfCategory
  rw [hSame.categories, hSame.attributes]

section Cards

variable {env : Procurement.ProcurementEnv}
variable {browser : Browser}
variable {db stored t : Db}
variable {trace : List (Composer × Event)}
variable {s last : Composer}
variable {loaded : Bool}
variable {line : ProposedLineInput}
variable {proposed : Procurement.ProposedItemLineCreate}
variable {row : ProcurementRevisionLine}

/- The row of a line comes from the form that was accepted. -/
theorem exists_approved
    (hKeys : Catalog.CatalogKeys db)
    (hRun : Run env.catalog.unicode browser db trace last)
    (hClean : Clean env.catalog.unicode browser db trace)
    (hAdd : (s, .add loaded) ∈ trace)
    (hLine : addedLine env.catalog.unicode browser db loaded s =
      .ok line)
    (hReceived : line.received = some proposed)
    (hSame : Catalog.SameMetadata db stored)
    (hStores : Procurement.Stores env stored
      (.proposed proposed) row) :
    ∃ payload attributes p name model detail,
      Approved env.catalog browser db loaded s payload
        attributes p name model detail ∧
      row.displaySnapshot = Procurement.displaySnapshot
        p.category p.manufacturer name model
          (.ofList (Catalog.normalizedAttributes p.values)) ∧
      row.expectedIdentitySignature = p.identitySignature := by
  rcases hStores.rowOf (hSame.keys hKeys) with ⟨lineNo, hOf⟩
  cases hOf with
  | proposed hDraft =>
      rcases Procurement.validateItemCreatePayload_eq_ok_iff.mp
        hDraft with ⟨p, hPrepared, name, model, hName, hModel,
          rfl⟩
      rw [Catalog.prepareStoredIdentity_congr hSame.categories
        hSame.attributes hSame.manufacturers] at hPrepared
      rcases (Catalog.prepareStoredIdentity_iff hKeys).mp
        hPrepared with ⟨attributes, hDraft⟩
      have hAdded := hClean s loaded hAdd
      rcases Option.isSome_iff_exists.mp hAdded.returned with
        ⟨detail, hDetail⟩
      rcases addedLine_eq_ok hLine with
        ⟨_, hKey, hMaker, hNamed, hModelled, hValues⟩
      rcases ProposedLineInput.received_eq_some hReceived with
        ⟨hKey', hMaker', hNamed', hModelled', hSent⟩
      refine ⟨proposed.itemCreate, attributes, p, name, model,
        detail, ?_, rfl, rfl⟩
      exact {
        keys := hKeys
        composed := hRun.composed.2 _ hAdd
        clean := hAdded
        returned := hDetail
        categoryKey := hKey'.trans hKey
        manufacturerId := hMaker'.trans hMaker
        nameSent := hNamed'.trans hNamed
        modelSent := hModelled'.trans hModelled
        sent := fun key => by rw [hSent, hValues]
        draft := hDraft
        name := hName
        model := hModel }

/-
  Whatever the user does in the composer, a line that is clean
  when it is added, and that is stored for a request, can be
  turned into its card.
-/
theorem proposed_lines_become_cards
    (hU : env.catalog.unicode.Lawful)
    (hFold : env.catalog.unicode.FoldsSmall)
    (hApart : env.catalog.unicode.FoldsApart)
    (hKeys : Catalog.CatalogKeys db)
    (hRun : Run env.catalog.unicode browser db trace last)
    (hClean : Clean env.catalog.unicode browser db trace)
    (hAdd : (s, .add loaded) ∈ trace)
    (hLine : addedLine env.catalog.unicode browser db loaded s =
      .ok line)
    (hReceived : line.received = some proposed)
    (hStored : Catalog.SameMetadata db stored)
    (hStores : Procurement.Stores env stored
      (.proposed proposed) row)
    (hLater : Catalog.SameMetadata db t) :
    BecomesCard env browser t row := by
  rcases exists_approved hKeys hRun hClean hAdd hLine hReceived
    hStored hStores with ⟨payload, attributes, p, name, model,
      detail, h, hSnapshot, hExpected⟩
  unfold BecomesCard
  rw [hSnapshot, hExpected, hLater.categories]
  rcases @ItemForm.procurementDraft_displaySnapshot browser
    p.category p.manufacturer name model
      (.ofList (Catalog.normalizedAttributes p.values)) with
    ⟨hCategory, hMaker, hModel, hName, hAttributes⟩
  generalize procurementDraft browser _ = draft
    at hCategory hMaker hModel hName hAttributes ⊢
  have hShows := h.shows hAttributes
  have hNeeds : ItemForm.identityRequired db.categories
      p.category.key =
        decide (p.category.key ∈ manufacturedLeaves) := by
    unfold ItemForm.identityRequired
    rw [h.categoryByKey]
  have hOpened : getCategory env.catalog.unicode browser t
      p.category.key = some detail := by
    rw [getCategory_congr hLater]
    unfold getCategory
    rw [Catalog.normalizeCategoryKey_leaf hFold
      h.draft.leaf.2]
    exact h.categoryDetail
  rcases h.submitted hFold hCategory hMaker hModel hName hShows
    with ⟨hNone, hSent⟩
  rcases h.accepted hU hFold hApart hLater hShows with
    ⟨item, validated, hItem, hValidated, hSignature⟩
  simp only [hCategory, hNeeds]
  refine ⟨detail, _, item, validated, hOpened, hNone, hSent,
    hItem, hValidated, hSignature, ?_⟩
  intro env' requestId actorUserId binding e hEnv hHistory hRow
    hBound hSame hError
  rw [← hEnv, ← hSame] at hValidated
  exact Procurement.createAndBindLine_matches hHistory.inv hRow
    hBound hValidated (hSignature.trans hExpected.symm) hError

end Cards

------------------------------------------------------------
-- A Cord
------------------------------------------------------------

namespace Cord

open ItemForm.ShortCable (browser)
open Procurement (FirstRequest.env FirstRequest.start
  FirstRequest.no_model
  FirstRequest.owner FirstRequest.payload
  FirstRequest.category ProposedItemLineCreate
  ProcurementRequestCreate createRequest Stores)

/- Cables have a length here, and drives have models. -/
def start : Db :=
  { FirstRequest.start with
    categories := [
      ⟨⟨4⟩, "power".toList, "Питание".toList, 0, none⟩,
      FirstRequest.category,
      ⟨⟨7⟩, "storage".toList, "Накопители".toList, 1, none⟩,
      ⟨⟨6⟩, "ssd".toList, "SSD".toList, 0, some ⟨7⟩⟩]
    categoryAttributes := [
      { Catalog.BlankCable.lengthAttribute with
        categoryId := ⟨3⟩ }] }

theorem model_length
    (m : Text)
    (h : some "PM893".toList = some m) :
    m.length ≤ 255 := by
  cases h
  decide

theorem one_le : 1 ≤ maxQuantity := by
  decide

theorem one_line : 1 ≤ 1 := Nat.le_refl 1

theorem few_lines : 1 ≤ 500 := by
  decide

/- A cable of one and a half metres. -/
def proposed
    (model : Option Text)
    (hModel : ∀ m, model = some m → m.length ≤ 255) :
    ProposedItemLineCreate where
  categoryKey := "power_cable".toList
  manufacturerId := none
  name := "Cord".toList
  model := model
  attributes := Dictionary.empty.set "length_m".toList
    (.str "1.5".toList)
  quantity := 1
  categoryKey_nonempty := Nat.succ_pos 10
  categoryKey_length :=
    Catalog.BlankCable.payload.categoryKeyLength
  name_nonempty := Nat.succ_pos 3
  name_length := by decide
  model_length := hModel
  quantity_pos := Nat.one_pos
  quantity_le := one_le

def payload
    (line : ProposedItemLineCreate) :
    ProcurementRequestCreate :=
  { FirstRequest.payload with
    lines := [.proposed line]
    lines_nonempty := one_line
    lines_length := few_lines }

def create (line : ProposedItemLineCreate) :
    Op Procurement.ProcurementRecord :=
  createRequest FirstRequest.env (payload line)
    FirstRequest.owner.id

/- The row of the request for the line. -/
def row? (line : ProposedItemLineCreate) :
    Option ProcurementRevisionLine :=
  ((create line).run start).toOption.bind (fun result =>
    result.2.procurementRevisionLines.head?)

theorem exists_stored
    {line : ProposedItemLineCreate}
    {P : ProcurementRevisionLine → Prop}
    [DecidablePred P]
    (h : (row? line).any (fun row =>
      decide (row.lineNo = 1 ∧ P row)) = true) :
    ∃ row, Stores FirstRequest.env start (.proposed line) row ∧
      P row := by
  cases hRow : row? line with
  | none =>
      rw [hRow] at h
      cases h
  | some row =>
      rw [hRow] at h
      rcases of_decide_eq_true h with ⟨hNumber, hP⟩
      have hAt : (payload line).lines[0]? =
          some (.proposed line) := rfl
      unfold row? at hRow
      cases hRun : (create line).run start with
      | error e =>
          rw [hRun] at hRow
          cases hRow
      | ok result =>
          rw [hRun] at hRow
          exact ⟨row, .created hRun hAt
            (List.mem_of_head? hRow) List.not_mem_nil hNumber,
            hP⟩

theorem catalogKeys_start : Catalog.CatalogKeys start := by
  refine ⟨?_, ?_, ?_, ?_, ?_⟩ <;> decide

/- What was typed before the line is added. -/
def typed : Composer :=
  { Composer.initial [] with
    category := "power_cable".toList
    name := "Cord".toList
    attributes := Dictionary.empty.set "length_m".toList
      (.text "1.5".toList) }

theorem definitions_typed :
    (definitions .ascii browser start true typed).map
      CategoryAttributeOut.dataType = [.decimal] ∧
    (definitions .ascii browser start true typed).map
      CategoryAttributeOut.key = ["length_m".toList] := by
  decide

theorem clean_typed :
    CleanAdd .ascii browser start true typed := by
  have hPlain : identityRequired start typed = false := by
    decide
  refine ⟨by decide, fun _ => rfl, ?_, by decide, ?_⟩
  · intro hNeeds
    rw [hPlain] at hNeeds
    cases hNeeds
  · intro a ha
    rcases definitions_typed with ⟨hTypes, hKeys⟩
    have hType := List.mem_map_of_mem
      (f := CategoryAttributeOut.dataType) ha
    have hKey := List.mem_map_of_mem
      (f := CategoryAttributeOut.key) ha
    rw [hTypes] at hType
    rw [hKeys] at hKey
    unfold Reshown
    rw [List.mem_singleton.mp hType, List.mem_singleton.mp hKey]
    intro value parts hParts
    have hSome : ItemForm.decimalParts value =
        some ⟨15, 1⟩ := by
      decide
    rw [hSome] at hParts
    cases hParts
    decide

theorem proposed_lines_become_cards_cord :
    ∃ row, Stores FirstRequest.env start
        (.proposed (proposed none FirstRequest.no_model)) row ∧
      BecomesCard FirstRequest.env browser start row := by
  rcases @exists_stored (proposed none FirstRequest.no_model)
    (fun _ => True) _ (by decide +kernel) with ⟨row, hRow, _⟩
  have hTyped : ∃ trace, Run .ascii browser start trace typed ∧
      Clean .ascii browser start trace := by
    refine ⟨_, .event (.event (.event (.start [])
      (.category "power_cable".toList) (.inr (by decide)))
      (.name "Cord".toList) trivial)
      (.setAttribute "length_m".toList
        (some (.text "1.5".toList))) (by decide), ?_⟩
    have hStart : Clean .ascii browser start [] :=
      fun _ _ hMem => absurd hMem List.not_mem_nil
    refine ((hStart.event ?_).event ?_).event ?_
    all_goals
      intro loaded hAdd
      cases hAdd
  rcases hTyped with ⟨trace, hRun, hClean⟩
  have hSame : Catalog.SameMetadata start start :=
    ⟨rfl, rfl, rfl⟩
  refine ⟨row, hRow, proposed_lines_become_cards
    Unicode.lawful_ascii Unicode.foldsSmall_ascii
    Unicode.foldsApart_ascii catalogKeys_start
    (hRun.event (.add true) (by decide)) (hClean.event ?_)
    (List.mem_append_right _ (List.mem_singleton.mpr rfl)) rfl
    rfl hSame hRow hSame⟩
  intro loaded hAdd
  cases hAdd
  exact clean_typed

------------------------------------------------------------
-- A Stale Model
------------------------------------------------------------

/-
  The model that was typed for a drive is sent with a cable,
  and expected of its card, for which none is asked.
-/
theorem stale_model_becomes_no_card :
    Catalog.CatalogKeys start ∧
      ∃ trace last s line proposed row,
        Run .ascii browser start trace last ∧
        (s, .add true) ∈ trace ∧
        addedLine .ascii browser start true s = .ok line ∧
        line.received = some proposed ∧
        Stores FirstRequest.env start (.proposed proposed)
          row ∧
        ¬ BecomesCard FirstRequest.env browser start row := by
  rcases @exists_stored
    (proposed (some "PM893".toList) model_length)
    (fun row => sentSignature FirstRequest.env browser start
      row ≠ some row.expectedIdentitySignature) _
    (by decide +kernel) with ⟨row, hRow, hNe⟩
  have hRun : Run .ascii browser start _ _ :=
    .event (.event (.event (.event (.event (.event (.start [])
      (.category "ssd".toList) (.inr (by decide)))
      (.model "PM893".toList) (by decide))
      (.category "power_cable".toList) (.inr (by decide)))
      (.name "Cord".toList) trivial)
      (.setAttribute "length_m".toList
        (some (.text "1.5".toList))) (by decide))
      (.add true) (by decide)
  exact ⟨catalogKeys_start, _, _, _, _, _, row, hRun,
    List.mem_append_right _ (List.mem_singleton.mpr rfl),
    rfl, rfl, hRow, fun h => hNe h.sentSignature⟩

end Cord

end LineComposer
