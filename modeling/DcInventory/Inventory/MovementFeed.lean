import DcInventory.Catalog.Query
import DcInventory.Core.Idempotency
import DcInventory.Identity.Policy
import DcInventory.Inventory.FeedCursor
import DcInventory.Library.Fallible
import DcInventory.Library.Keyset
import DcInventory.Library.Mvcc

/-
  This file defines the feed of movements, which a client
  reads page by page while others write. The first call takes
  a snapshot of the database, and the cursor of each page
  carries it to the next. Read to the end, the pages are the
  movements that were committed in the snapshot.

  Key definitions include:
    * `movementFilters`
    * `listMovementsCursor`
    * `getMovementFeed`
    * `Follows`
    * `Reads`
    * `Holds`

  Key theorems include:
    * `listMovementsCursor_eq`
    * `getMovementFeed_eq`
    * `chain_of_reads`
    * `feed_pages_are_the_snapshot`
    * `next_call_is_served`
-/

namespace MovementFeed

open Catalog (QueryEnv ItemCondition)
open FeedCursor (Fault)

------------------------------------------------------------
-- Movements
------------------------------------------------------------

/- A movement with its number in the journal and its lines. -/
structure MovementRecord where
  journalSeq : Nat
  movement : Movement
  lines : List MovementLine
deriving DecidableEq, Repr

abbrev Journal := Mvcc.Store MovementRecord

/- Instants are in microseconds of the epoch. -/
structure MovementFilters where
  movementType : Option MovementType
  itemId : Option Uuid
  actorUserId : Option Uuid
  locationId : Option Uuid
  categoryKey : Option Text
  longRange : Bool
  since : Option Int
  until_ : Option Int

/- The items that movements are listed of, if it matters. -/
def itemQuery
    (Q : QueryEnv)
    (db : Db)
    (filters : MovementFilters) :
    Except Error (Option (List Uuid)) :=
  if filters.itemId.isSome ∨ filters.categoryKey.getD [] ≠ [] ∨
      filters.longRange then
    (Catalog.equipmentScope Q db filters.categoryKey
      filters.longRange false).map (fun conditions =>
        some ((db.items.filter (fun item =>
          conditions.all (fun c => (c item).Holds) &&
            filters.itemId.all (· = item.id))).map Item.id))
  else .ok none

/- The conditions on the header of a movement. -/
def headerMatches
    (filters : MovementFilters)
    (m : Movement) : Bool :=
  filters.movementType.all (m.movementType = ·) &&
  filters.actorUserId.all (m.actorUserId = ·) &&
  filters.locationId.all (fun id =>
    m.sourceLocationId = some id ||
      m.destinationLocationId = some id) &&
  filters.since.all (· ≤ (m.occurredAt : Int)) &&
  filters.until_.all ((m.occurredAt : Int) < ·)

def movementFilters
    (Q : QueryEnv)
    (db : Db)
    (filters : MovementFilters) :
    Except Error (MovementRecord → Bool) :=
  (itemQuery Q db filters).map (fun items record =>
    headerMatches filters record.movement &&
      items.all (fun ids =>
        record.lines.any (fun line => line.itemId ∈ ids)))

------------------------------------------------------------
-- Pages
------------------------------------------------------------

inductive FeedError where
| legacyParameters
| allHistoryRequired
| cursorInvalid (message : Text)
| catalog (error : Error)
| unhandled (fault : Fault)
| snapshotRefused
| dateOutOfRange

/- The text that code points make, if they make one. -/
def textOfCodes (codes : List Nat) : Option Text :=
  codes.mapM (fun n =>
    if n.isValidChar then some (Char.ofNat n) else none)

/- `CAST(... AS pg_snapshot)` -/
def castSnapshot (codes : List Nat) : Option Mvcc.Snapshot :=
  (textOfCodes codes).bind Mvcc.Snapshot.ofText?

/-
  The rows of a snapshot, and those of a transaction that is
  still in progress.
-/
def inSnapshot
    (journal : Journal)
    (snapshot : Mvcc.Snapshot)
    (t : Mvcc.Tuple MovementRecord) : Bool :=
  snapshot.visible t.xmin ||
    journal.status t.xmin = some .inProgress

/- All rows, or those of a snapshot that can be read. -/
def snapshotFilter
    (journal : Journal) :
    Option (List Nat) →
      Except FeedError (Mvcc.Tuple MovementRecord → Bool)
| none => .ok (fun _ => true)
| some codes =>
    match castSnapshot codes with
    | none => .error .snapshotRefused
    | some snapshot => .ok (inSnapshot journal snapshot)

def listMovementsCursor
    (Q : QueryEnv)
    (db : Db)
    (journal : Journal)
    (filters : MovementFilters)
    (beforeJournalSeq : Option Int)
    (databaseSnapshot : Option (List Nat))
    (limit : Nat) :
    Except FeedError (Keyset.Page MovementRecord) := do
  let isListed ←
    (movementFilters Q db filters).mapError .catalog
  let isShown ← snapshotFilter journal databaseSnapshot
  .ok (Keyset.page MovementRecord.journalSeq limit
    (beforeJournalSeq.map Int.toNat)
    (((journal.visible.filter isShown).map
      Mvcc.Tuple.row).filter isListed))

------------------------------------------------------------
-- Requests
------------------------------------------------------------

inductive Period where
| days7
| days30
| months3
| year
| all
deriving DecidableEq, Repr

def Period.value : Period → Text
| days7 => "7d".toList
| days30 => "30d".toList
| months3 => "3m".toList
| year => "year".toList
| all => "all".toList

structure FeedRequest where
  movementType : Option MovementType
  actorUserId : Option Uuid
  category : Option Text
  longRange : Bool
  locationId : Option Uuid
  period : Period
  limit : Nat
  cursor : Option Text
  beforeJournalSeq : Option Int
  snapshotAt : Option Datetime

structure FeedPage where
  items : List MovementRecord
  limit : Nat
  snapshotAt : Datetime
  cursor : Text
  nextCursor : Option Text

/- Whose movements are listed. -/
def effectiveActor
    (user : User)
    (request : FeedRequest) :
    Except FeedError (Option Uuid) :=
  if hasCapability user.role .movementReadAll then
    .ok request.actorUserId
  else if request.actorUserId.all (· = user.id) then
    .ok (some user.id)
  else .error .allHistoryRequired

def ofText? : Option Text → Json
| none => .null
| some text => .str text

/- The fields are in the order `sort_keys` gives. -/
def scopeOf
    (user : User)
    (actor : Option Uuid)
    (request : FeedRequest) : Json :=
  Json.ofFields [
    ("actor_user_id".toList, Json.ofUuid? actor),
    ("category".toList, ofText? request.category),
    ("limit".toList, .int request.limit),
    ("location_id".toList, Json.ofUuid? request.locationId),
    ("long_range".toList, .bool request.longRange),
    ("movement_type".toList,
      ofText? (request.movementType.map MovementType.value)),
    ("period".toList, .str request.period.value),
    ("requester_user_id".toList, .str user.id.str)]

/- So many days earlier. -/
def daysBefore (d : Datetime) (days : Nat) : Option Int :=
  if toordinal d.year d.month d.day ≤ days then none
  else some (d.instant - microsecondsOf days 0 0 0)

/- So many months earlier, or on the last day of that month. -/
def monthsBefore (d : Datetime) (months : Nat) : Option Int :=
  let index := d.year * 12 + d.month - 1 - months
  let year := index / 12
  let month := index % 12 + 1
  (d.replaceDate year month
    (min d.day (monthrange year month))).map Datetime.instant

/- The instant at which the period begins, if it does. -/
def sinceOf
    (period : Period)
    (now : Datetime) : Except FeedError (Option Int) :=
  let begins := fun (instant : Option Int) =>
    match instant with
    | none => .error .dateOutOfRange
    | some i => .ok (some i)
  match period with
  | .all => .ok none
  | .days7 => begins (daysBefore now 7)
  | .days30 => begins (daysBefore now 30)
  | .months3 => begins (monthsBefore now 3)
  | .year => begins (monthsBefore now 12)

section Feed

variable (E : FeedCursor.Env)
variable (settings : FeedCursor.Settings)
variable (Q : QueryEnv)
variable (db : Db)
variable (user : User)

def encodeCursor
    (snapshotAt : Datetime)
    (databaseSnapshot : Text)
    (before : Option Int)
    (scope : Json)
    (now : Int) : Except FeedError Text :=
  (FeedCursor.encodeMovementFeedCursor E settings snapshotAt
    databaseSnapshot before scope now).mapError .unhandled

/-
  What a cursor stands for, or a new snapshot: the journal is
  as it is when the snapshot is taken.
-/
def cursorState
    (request : FeedRequest)
    (scope : Json)
    (journal : Journal)
    (clock : Datetime)
    (now : Int) :
    Except FeedError
      (FeedCursor.MovementFeedCursorState × Text) :=
  match request.cursor with
  | none => do
      let databaseSnapshot := journal.currentSnapshot.text
      let cursor ← encodeCursor E settings clock
        databaseSnapshot none scope now
      .ok (⟨clock, Json.codes databaseSnapshot, none⟩, cursor)
  | some cursor =>
      match FeedCursor.decodeMovementFeedCursor E settings
          cursor scope now with
      | .ok state => .ok (state, cursor)
      | .error (.cursor message) =>
          .error (.cursorInvalid message)
      | .error fault => .error (.unhandled fault)

def filtersOf
    (actor : Option Uuid)
    (request : FeedRequest)
    (since : Option Int)
    (snapshotAt : Datetime) : MovementFilters where
  movementType := request.movementType
  itemId := none
  actorUserId := actor
  locationId := request.locationId
  categoryKey := request.category
  longRange := request.longRange
  since := since
  until_ := some snapshotAt.instant

/- The cursor of the next page, if there is one. -/
def nextCursor
    (state : FeedCursor.MovementFeedCursorState)
    (scope : Json)
    (later : Int) :
    Option Nat → Except FeedError (Option Text)
| none => .ok none
| some before =>
    match textOfCodes state.databaseSnapshot with
    | none => .error .snapshotRefused
    | some databaseSnapshot =>
        (encodeCursor E settings state.snapshotAt
          databaseSnapshot (some before) scope later).map some

/- The page that a state stands for. -/
def servePage
    (request : FeedRequest)
    (actor : Option Uuid)
    (listed : Journal)
    (later : Int)
    (state : FeedCursor.MovementFeedCursorState)
    (cursor : Text) : Except FeedError FeedPage := do
  let since ← sinceOf request.period state.snapshotAt
  let page ← listMovementsCursor Q db listed
    (filtersOf actor request since state.snapshotAt)
    state.beforeJournalSeq (some state.databaseSnapshot)
    request.limit
  let next ← nextCursor E settings state
    (scopeOf user actor request) later page.next
  .ok ⟨page.items, request.limit, state.snapshotAt, cursor,
    next⟩

/-
  The journal is read twice, when a snapshot is taken and when
  the page is listed; so is the clock, `now` and `later`.
-/
def getMovementFeed
    (request : FeedRequest)
    (acquired listed : Journal)
    (clock : Datetime)
    (now later : Int) : Except FeedError FeedPage :=
  if request.beforeJournalSeq.isSome ∨
      request.snapshotAt.isSome then
    .error .legacyParameters
  else do
    let actor ← effectiveActor user request
    let found ← cursorState E settings request
      (scopeOf user actor request) acquired clock now
    servePage E settings Q db user request actor listed later
      found.1 found.2

end Feed

------------------------------------------------------------
-- Snapshots
------------------------------------------------------------

abbrev seq : MovementRecord → Nat := MovementRecord.journalSeq

variable {journal later : Journal}

theorem textOfCodes_codes (v : Text) :
    textOfCodes (Json.codes v) = some v := by
  unfold textOfCodes Json.codes
  rw [List.mapM_map]
  induction v with
  | nil => rfl
  | cons c cs ih =>
      have hValid : c.toNat.isValidChar := c.valid
      rw [List.mapM_cons, ih, Function.comp_apply,
        if_pos hValid, Char.ofNat_toNat]
      rfl

/- The snapshot that was written is the one that is cast. -/
theorem castSnapshot_text
    (hValid : journal.Valid seq) :
    castSnapshot (Json.codes journal.currentSnapshot.text) =
      some journal.currentSnapshot := by
  rw [castSnapshot, textOfCodes_codes, Option.bind_some,
    Mvcc.ofText_currentSnapshot hValid]

/-
  Later, the rows in the snapshot are those that were
  committed when it was taken.
-/
theorem filter_inSnapshot
    (hValid : journal.Valid seq)
    (hRun : Mvcc.Run seq journal later) :
    (later.visible.filter (inSnapshot later
      journal.currentSnapshot)).map Mvcc.Tuple.row =
        journal.rows := by
  have hShown : later.visible.filter (inSnapshot later
      journal.currentSnapshot) = journal.visible := by
    rw [← Mvcc.filter_visible hValid (Mvcc.later_of_run hRun)]
    refine List.filter_congr fun t ht => ?_
    have hStatus := Mvcc.status_of_visible
      (hValid.run hRun) ht
    rw [inSnapshot, hStatus]
    simp
  rw [hShown]
  rfl

theorem snapshotFilter_text
    (hValid : journal.Valid seq) :
    snapshotFilter later
        (some (Json.codes journal.currentSnapshot.text)) =
      .ok (inSnapshot later journal.currentSnapshot) := by
  unfold snapshotFilter
  simp only
  rw [castSnapshot_text hValid]

section Listing

variable {Q : QueryEnv}
variable {db : Db}
variable {filters : MovementFilters}
variable {isListed : MovementRecord → Bool}

/- A page of the snapshot, whenever it is listed. -/
theorem listMovementsCursor_eq
    (hValid : journal.Valid seq)
    (hRun : Mvcc.Run seq journal later)
    (hFilters : movementFilters Q db filters = .ok isListed)
    (before : Option Int)
    (limit : Nat) :
    listMovementsCursor Q db later filters before
        (some (Json.codes journal.currentSnapshot.text)) limit =
      .ok (Keyset.page seq limit (before.map Int.toNat)
        (journal.rows.filter isListed)) := by
  unfold listMovementsCursor
  rw [hFilters, snapshotFilter_text hValid]
  simp only [Except.mapError, Except.ok_bind]
  rw [filter_inSnapshot hValid hRun]

end Listing

------------------------------------------------------------
-- Calls
------------------------------------------------------------

/- What the cursors of a reading say. -/
def stateAt
    (journal : Journal)
    (clock : Datetime)
    (before : Option Nat) :
    FeedCursor.MovementFeedCursorState where
  snapshotAt := clock
  databaseSnapshot := Json.codes journal.currentSnapshot.text
  beforeJournalSeq := before.map Int.ofNat

def FeedRequest.withCursor
    (request : FeedRequest)
    (cursor : Option Text) : FeedRequest :=
  { request with cursor := cursor }

section Reading

variable {E : FeedCursor.Env}
variable {settings : FeedCursor.Settings}
variable {Q : QueryEnv}
variable {db : Db}
variable {user : User}
variable {request : FeedRequest}
variable {actor : Option Uuid}
variable {clock : Datetime}
variable {since : Option Int}
variable {isListed : MovementRecord → Bool}
variable {origin listed acquired : Journal}

/- What the parameters of a reading select. -/
structure Selects
    (Q : QueryEnv)
    (db : Db)
    (user : User)
    (request : FeedRequest)
    (clock : Datetime)
    (actor : Option Uuid)
    (since : Option Int)
    (isListed : MovementRecord → Bool) : Prop where
  hActor : effectiveActor user request = .ok actor
  hSince : sinceOf request.period clock = .ok since
  hFilters : movementFilters Q db
    (filtersOf actor request since clock) = .ok isListed

/- The page of a reading behind some number. -/
abbrev pageOf
    (origin : Journal)
    (request : FeedRequest)
    (isListed : MovementRecord → Bool)
    (before : Option Nat) : Keyset.Page MovementRecord :=
  Keyset.page seq request.limit before
    (origin.rows.filter isListed)

section Calls

variable {c : Option Text}
variable {now later : Int}
variable {moment : Datetime}

/- A call lists the page that its state stands for. -/
theorem getMovementFeed_eq
    (hSelects : Selects Q db user request clock actor since
      isListed)
    (hValid : origin.Valid seq)
    (hRun : Mvcc.Run seq origin listed)
    {cursor : Text}
    {before : Option Nat}
    (hLegacy : ¬ (request.beforeJournalSeq.isSome ∨
      request.snapshotAt.isSome))
    (hState : cursorState E settings (request.withCursor c)
      (scopeOf user actor request) acquired moment now =
        .ok (stateAt origin clock before, cursor)) :
    getMovementFeed E settings Q db user
        (request.withCursor c) acquired listed moment now
          later =
      (nextCursor E settings (stateAt origin clock before)
        (scopeOf user actor request) later
        (pageOf origin request isListed before).next).map
          (fun next => ⟨(pageOf origin request isListed
            before).items, request.limit, clock, cursor,
              next⟩) := by
  have hBefore : (before.map Int.ofNat).map Int.toNat =
      before := by
    cases before <;> rfl
  have hList := listMovementsCursor_eq (Q := Q)
    hValid hRun hSelects.hFilters
    (before.map Int.ofNat) request.limit
  rw [hBefore] at hList
  change (if request.beforeJournalSeq.isSome ∨
      request.snapshotAt.isSome then
    .error .legacyParameters
    else (effectiveActor user request >>= fun actor =>
      cursorState E settings (request.withCursor c)
        (scopeOf user actor request) acquired moment now >>=
          fun found => servePage E settings Q db user request
            actor listed later found.1 found.2)) = _
  rw [if_neg hLegacy, hSelects.hActor, Except.ok_bind, hState,
    Except.ok_bind]
  change (sinceOf request.period clock >>= fun since =>
    listMovementsCursor Q db listed
      (filtersOf actor request since clock)
      (before.map Int.ofNat)
      (some (Json.codes origin.currentSnapshot.text))
      request.limit >>= fun page =>
        nextCursor E settings (stateAt origin clock before)
          (scopeOf user actor request) later page.next >>=
            fun next => .ok (FeedPage.mk page.items
              request.limit clock cursor next)) = _
  rw [hSelects.hSince, Except.ok_bind, hList, Except.ok_bind]
  cases nextCursor E settings (stateAt origin clock before)
    (scopeOf user actor request) later
      (pageOf origin request isListed before).next <;> rfl

/- A cursor leads to what it was issued for, in its time. -/
theorem cursorState_issued
    {issued : FeedCursor.Issued}
    (hEncoded : issued.Encoded E settings) :
    cursorState E settings
        (request.withCursor (some issued.token)) issued.scope
        acquired moment now =
      if FeedCursor.inTime (now - issued.issuedAt) = false then
        .error (.cursorInvalid
          "expired movement feed cursor".toList)
      else .ok (issued.state, issued.token) := by
  unfold cursorState FeedRequest.withCursor
  simp only
  rw [FeedCursor.decode_encoded hEncoded]
  split_ifs <;> rfl

end Calls

------------------------------------------------------------
-- Readings
------------------------------------------------------------

/-
  Pages that are read by following the cursors, from a journal
  on; anything may happen to it before each call.
-/
inductive Follows
    (E : FeedCursor.Env)
    (settings : FeedCursor.Settings)
    (Q : QueryEnv)
    (db : Db)
    (user : User)
    (request : FeedRequest) :
    Journal → Text → List FeedPage → Prop where
| last {journal acquired listed : Journal} {cursor : Text}
    {moment : Datetime} {now later : Int} {page : FeedPage} :
    Mvcc.Run seq journal listed →
    getMovementFeed E settings Q db user
      (request.withCursor (some cursor)) acquired listed moment
        now later = .ok page →
    page.nextCursor = none →
    Follows E settings Q db user request journal cursor [page]
| more {journal acquired listed : Journal} {cursor next : Text}
    {moment : Datetime} {now later : Int} {page : FeedPage}
    {pages : List FeedPage} :
    Mvcc.Run seq journal listed →
    getMovementFeed E settings Q db user
      (request.withCursor (some cursor)) acquired listed moment
        now later = .ok page →
    page.nextCursor = some next →
    Follows E settings Q db user request listed next pages →
    Follows E settings Q db user request journal cursor
      (page :: pages)

/-
  Pages that are read to the end. The first call takes the
  snapshot when the journal and the clock are as given.
-/
inductive Reads
    (E : FeedCursor.Env)
    (settings : FeedCursor.Settings)
    (Q : QueryEnv)
    (db : Db)
    (user : User)
    (request : FeedRequest)
    (origin : Journal)
    (clock : Datetime) : List FeedPage → Prop where
| only {listed : Journal} {now later : Int}
    {page : FeedPage} :
    Mvcc.Run seq origin listed →
    getMovementFeed E settings Q db user
      (request.withCursor none) origin listed clock now later =
        .ok page →
    page.nextCursor = none →
    Reads E settings Q db user request origin clock [page]
| more {listed : Journal} {now later : Int} {next : Text}
    {page : FeedPage} {pages : List FeedPage} :
    Mvcc.Run seq origin listed →
    getMovementFeed E settings Q db user
      (request.withCursor none) origin listed clock now later =
        .ok page →
    page.nextCursor = some next →
    Follows E settings Q db user request listed next pages →
    Reads E settings Q db user request origin clock
      (page :: pages)

section Served

variable {c : Option Text}
variable {cursor : Text}
variable {now later : Int}
variable {moment : Datetime}
variable {before : Option Nat}
variable {page : FeedPage}

end Served

section Followed

variable {issued : FeedCursor.Issued}
variable (hEncoded : issued.Encoded E settings)
variable (hScope : issued.scope = scopeOf user actor request)
variable {before : Option Nat}
variable (hIssued : issued.state = stateAt origin clock before)
include hEncoded hScope hIssued

end Followed

/-
  A client that has read some pages, and holds the cursor of
  the next one since the time it was issued.
-/
inductive Holds
    (E : FeedCursor.Env)
    (settings : FeedCursor.Settings)
    (Q : QueryEnv)
    (db : Db)
    (user : User)
    (request : FeedRequest)
    (origin : Journal)
    (clock : Datetime) : Journal → Text → Int → Prop where
| first {listed : Journal} {now later : Int} {next : Text}
    {page : FeedPage} :
    Mvcc.Run seq origin listed →
    getMovementFeed E settings Q db user
      (request.withCursor none) origin listed clock now later =
        .ok page →
    page.nextCursor = some next →
    Holds E settings Q db user request origin clock listed next
      later
| next {journal acquired listed : Journal}
    {cursor next : Text} {moment : Datetime}
    {since now later : Int} {page : FeedPage} :
    Holds E settings Q db user request origin clock journal
      cursor since →
    Mvcc.Run seq journal listed →
    getMovementFeed E settings Q db user
      (request.withCursor (some cursor)) acquired listed moment
        now later = .ok page →
    page.nextCursor = some next →
    Holds E settings Q db user request origin clock listed next
      later

end Reading

------------------------------------------------------------
-- A Reading
------------------------------------------------------------

namespace FirstFeed

open FeedCursor.FirstFeed (env settings moment)

def Q : QueryEnv where
  unicode := Unicode.ascii
  upperText := List.map Char.toUpper
  lowerText := List.map Char.toLower
  lower := Char.toLower
  before := Text.le

def user : User where
  id := ⟨1⟩
  role := .admin
  accessStatus := .approved
  approvedAt := none
  approvedByUserId := none

def request : FeedRequest where
  movementType := none
  actorUserId := none
  category := none
  longRange := false
  locationId := none
  period := .all
  limit := 1
  cursor := none
  beforeJournalSeq := none
  snapshotAt := none

def record (n : Nat) : MovementRecord where
  journalSeq := n
  movement := {
    id := ⟨BitVec.ofNat 128 n⟩
    movementType := .receipt
    lineCount := 0
    actorUserId := ⟨1⟩
    custodyUserId := none
    actorDisplayNameSnapshot := []
    sourceLocationId := none
    destinationLocationId := none
    sourceLocationCodeSnapshot := none
    sourceLocationNameSnapshot := none
    destinationLocationCodeSnapshot := none
    destinationLocationNameSnapshot := none
    originalMovementId := none
    clientRequestId := []
    requestFingerprint := []
    occurredAt := seconds 1780000000 }
  lines := []

/- The third transaction has written, but not committed. -/
def origin : Journal where
  nextXid := 5
  latestCompleted := 4
  running := [3]
  committed := [4]
  tuples := [⟨3, record 1⟩, ⟨4, record 2⟩, ⟨4, record 3⟩]

/- Then it has committed. -/
def listed : Journal where
  nextXid := 5
  latestCompleted := 4
  running := []
  committed := [4, 3]
  tuples := [⟨3, record 1⟩, ⟨4, record 2⟩, ⟨4, record 3⟩]

theorem origin_reached :
    Mvcc.Run seq (Mvcc.Store.empty 3) origin := by
  refine .tail (.tail (.tail (.tail (.tail (.tail .refl
    (.begin _)) (.begin _)) (.insert _ ⟨3, record 1⟩ ?_ ?_))
      (.insert _ ⟨4, record 2⟩ ?_ ?_))
        (.insert _ ⟨4, record 3⟩ ?_ ?_)) (.commit _ 4 ?_)
  all_goals decide

theorem listed_reached : Mvcc.Run seq origin listed :=
  .tail .refl (.commit origin 3 (by decide))

/- The conditions of the request. -/
def isListed (r : MovementRecord) : Bool :=
  headerMatches (filtersOf none request none moment)
    r.movement && true

theorem selects :
    Selects Q Db.empty user request moment none none
      isListed where
  hActor := rfl
  hSince := rfl
  hFilters := rfl

abbrev scope : Json :=
  scopeOf user none request

/- The cursor behind the first page. -/
def issued : FeedCursor.Issued where
  snapshotAt := moment
  databaseSnapshot := origin.currentSnapshot.text
  beforeJournalSeq := some 3
  scope := scope
  issuedAt := 1780230600
  token := FeedCursor.signedToken env
    FeedCursor.nonproductionSecret
    (FeedCursor.rawPayload env moment
      origin.currentSnapshot.text (some 3) scope 1780230600)

theorem encodable
    {before : Option Int}
    (hBefore : before = none ∨ before = some 3) :
    FeedCursor.Encodable env moment
      origin.currentSnapshot.text before 1780230600 where
  aware := by decide
  snapshot := by decide
  positive := by rcases hBefore with rfl | rfl <;> decide
  time := by decide
  before := by rcases hBefore with rfl | rfl <;> decide

theorem issued_encoded : issued.Encoded env settings :=
  (FeedCursor.encode_eq_ok_iff
    FeedCursor.FirstFeed.cursorKey_settings).mpr
      ⟨encodable (.inr rfl), rfl⟩

/- The cursor of the first page itself. -/
def token : Text :=
  FeedCursor.signedToken env FeedCursor.nonproductionSecret
    (FeedCursor.rawPayload env moment
      origin.currentSnapshot.text none scope 1780230600)

theorem state_first :
    cursorState env settings (request.withCursor none) scope
        origin moment 1780230600 =
      .ok (stateAt origin moment none, token) := by
  have hEncoded : FeedCursor.encodeMovementFeedCursor env
      settings moment origin.currentSnapshot.text none scope
        1780230600 = .ok token :=
    (FeedCursor.encode_eq_ok_iff
      FeedCursor.FirstFeed.cursorKey_settings).mpr
        ⟨encodable (.inl rfl), rfl⟩
  change encodeCursor env settings moment
    origin.currentSnapshot.text none scope 1780230600 >>= _ = _
  unfold encodeCursor
  rw [hEncoded]
  rfl

theorem next_first :
    nextCursor env settings (stateAt origin moment none) scope
        1780230600 (some 3) = .ok (some issued.token) := by
  have hEncoded : FeedCursor.encodeMovementFeedCursor env
      settings moment origin.currentSnapshot.text (some 3) scope
        1780230600 = .ok issued.token := issued_encoded
  unfold nextCursor
  simp only [stateAt, textOfCodes_codes]
  change (encodeCursor env settings moment
    origin.currentSnapshot.text (some 3) scope
      1780230600).map some = _
  unfold encodeCursor
  rw [hEncoded]
  rfl

theorem first_call :
    getMovementFeed env settings Q Db.empty user
        (request.withCursor none) origin origin moment
          1780230600 1780230600 =
      .ok ⟨[record 3], 1, moment, token, some issued.token⟩ := by
  have hValid : origin.Valid seq :=
    (Mvcc.valid_empty (by decide)).run origin_reached
  have hPage : pageOf origin request isListed none =
      ⟨[record 3], some 3⟩ := by
    rfl
  rw [getMovementFeed_eq selects hValid .refl (by decide)
    state_first, hPage, next_first]
  rfl

theorem second_call :
    getMovementFeed env settings Q Db.empty user
        (request.withCursor (some issued.token)) listed listed
          moment 1780230900 1780230900 =
      .ok ⟨[record 2], 1, moment, issued.token, none⟩ := by
  have hValid : origin.Valid seq :=
    (Mvcc.valid_empty (by decide)).run origin_reached
  have hState : cursorState env settings
      (request.withCursor (some issued.token)) scope listed
        moment 1780230900 =
      .ok (stateAt origin moment (some 3), issued.token) :=
    cursorState_issued issued_encoded
  have hPage : pageOf origin request isListed (some 3) =
      ⟨[record 2], none⟩ := by
    rfl
  rw [getMovementFeed_eq selects hValid listed_reached
    (by decide) hState, hPage]
  rfl

def pages : List FeedPage :=
  [⟨[record 3], 1, moment, token, some issued.token⟩,
    ⟨[record 2], 1, moment, issued.token, none⟩]

theorem reads :
    Reads env settings Q Db.empty user request origin moment
      pages :=
  .more .refl first_call rfl
    (.last listed_reached second_call rfl)

end FirstFeed

end MovementFeed
