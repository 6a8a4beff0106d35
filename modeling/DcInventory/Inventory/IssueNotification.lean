import DcInventory.Inventory.Service
import DcInventory.TelegramBot.Calls

/-
  This file defines how a movement is posted, and how the
  administrator is told of an issue.

  Key definitions include:
    * `issueText`
    * `issueAdminCall`
    * `postMovement`
-/

------------------------------------------------------------
-- Texts
------------------------------------------------------------

/- `display_identity` -/
def movementDisplayIdentity
    (identity : TelegramIdentity) : Text :=
  match identity.username with
  | some (c :: cs) =>
      fullName identity ++ " (@".toList ++ (c :: cs) ++ [')']
  | _ => fullName identity

/- The title of a line with its manufacturer and its model. -/
def issueTitle (line : MovementLine) : Text :=
  let title := match line.manufacturerNameSnapshot with
    | some (c :: cs) =>
        (c :: cs) ++ ' ' :: line.itemNameSnapshot
    | _ => line.itemNameSnapshot
  match line.modelSnapshot with
  | some (c :: cs) =>
      title ++ " (".toList ++ (c :: cs) ++ [')']
  | _ => title

def issueLine (line : MovementLine) : Text :=
  "• ".toList ++ issueTitle line ++ " — ".toList ++
    intText line.quantity ++ " шт.".toList

/- The name of the source, or its code. -/
def issueLocation (movement : Movement) : Text :=
  match movement.sourceLocationNameSnapshot,
    movement.sourceLocationCodeSnapshot with
  | some (c :: cs), _ => c :: cs
  | _, some (c :: cs) => c :: cs
  | _, _ => "не указано".toList

def issueText (record : MovementRecord) : Text :=
  "📦 Выдача оборудования\n\n".toList ++
    "Сотрудник: ".toList ++
      record.movement.actorDisplayNameSnapshot ++
        "\nОткуда: ".toList ++ issueLocation record.movement ++
          "\n\n".toList ++
            ['\n'].intercalate (record.lines.map issueLine)

------------------------------------------------------------
-- Notification
------------------------------------------------------------

/- `_enqueue_issue_admin_notification` -/
def issueAdminCall
    (settings : TelegramSettings)
    (record : MovementRecord) : Option TelegramCall :=
  match settings.notificationTelegramUserId with
  | none => none
  | some notificationId =>
      if record.movement.movementType ≠ .issue then none
      else some {
        method := "sendMessage".toList
        payload := Json.ofFields
          [("chat_id".toList, .int notificationId),
            ("text".toList, .str (issueText record))]
        dedupeKey := notificationDedupeKey settings.sha256
          ["inventory-issue".toList, record.movement.id.str,
            "admin".toList]
        availableAt := none
        requeueDead := false }

/- What the environment supplies to a posted movement. -/
structure PostEnv where
  movement : MovementEnv
  settings : TelegramSettings
  mutationsEnabled : Bool
  now : Time
  notificationId : Text → Uuid

def enqueueIssueAdminNotification
    (env : PostEnv)
    (record : MovementRecord) : Op Unit :=
  match issueAdminCall env.settings record with
  | none => pure ()
  | some call => do
      let id := env.notificationId call.dedupeKey
      .acquire (.exclusive (.notification call.dedupeKey))
      .acquire (.exclusive (.notificationPkey id))
      let rows ← .query Db.notificationOutbox
      let rows ← .ofExcept
        (enqueueTelegramCall id env.now call rows)
      .update (fun db => { db with notificationOutbox := rows })

/- The types that are posted without the rights of an admin. -/
def operatedTypes : List MovementType :=
  [.receipt, .issue, .return_, .transfer]

/- `post_movement` -/
def postMovement
    (env : PostEnv)
    (user : User)
    (identity : TelegramIdentity)
    (payload : MovementCreate) : Op MovementRecord := do
  .require
    (hasCapability user.role .inventoryAdmin = true ∨
      payload.movementType ∈ operatedTypes)
    (.http 403 "inventory admin capability required")
  .require (env.mutationsEnabled = true)
    (.http 423
      ("real inventory mutations are disabled by " ++
        "deployment policy"))
  let result ← createMovement env.movement {
    payload := payload
    actorUserId := user.id
    actorDisplayName := movementDisplayIdentity identity
    custodyUserId := custodyChoice user.role
      payload.movementType user.id }
  enqueueIssueAdminNotification env result.record
  checkLineCount result
  pure result.record
