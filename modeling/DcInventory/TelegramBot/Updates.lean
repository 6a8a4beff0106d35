import DcInventory.Schema.Database

/-
  This file defines how updates of Telegram are registered,
  so that one that is delivered again is dropped.

  Key definitions include:
    * `registerTelegramUpdate`
    * `markTelegramUpdateProcessed`
-/

/- INSERT ... ON CONFLICT (update_id) DO NOTHING RETURNING -/
def registerTelegramUpdate
    (updateId : Int)
    (now : Time)
    (rows : List TelegramUpdate) :
    Bool × List TelegramUpdate :=
  match Table.find TelegramUpdate.updateId updateId rows with
  | some _ => (false, rows)
  | none => (true, rows ++ [⟨updateId, now, none⟩])

/- `mark_telegram_update_processed` -/
def markTelegramUpdateProcessed
    (updateId : Int)
    (now : Time)
    (rows : List TelegramUpdate) : List TelegramUpdate :=
  Table.rewrite TelegramUpdate.updateId updateId
    (fun row => { row with processedAt := some now }) rows
