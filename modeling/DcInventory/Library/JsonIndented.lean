import DcInventory.Library.Json
import DcInventory.Library.JsonReader
import Mathlib.Data.List.Sort

/-
  This file defines the text of a JSON value in ASCII, with
  its items on lines of their own and with sorted keys.

  Key definitions include:
    * `JsonIndented.escape`
    * `JsonIndented.dumps`
-/

namespace JsonIndented

------------------------------------------------------------
-- Strings
------------------------------------------------------------

/- Four hexadecimal digits. -/
def hex4 (n : Nat) : List Char :=
  [n / 4096 % 16, n / 256 % 16, n / 16 % 16, n % 16].map
    Hex.lower

def unicodeEscape (n : Nat) : List Char :=
  '\\' :: 'u' :: hex4 n

/- The letters that stand for code points behind a slash. -/
def escapes : List (Nat × Char) :=
  [(34, '"'), (92, '\\'), (10, 'n'), (13, 'r'), (9, 't'),
    (8, 'b'), (12, 'f')]

/- The text of a code point inside a string. -/
def escape (n : Nat) : List Char :=
  match Table.find Prod.fst n escapes with
  | some (_, letter) => ['\\', letter]
  | none =>
      if 32 ≤ n ∧ n ≤ 126 then [Char.ofNat n]
      else if n < 0x10000 then unicodeEscape n
      else
        -- a pair of surrogates
        unicodeEscape (0xD800 + (n - 0x10000) / 0x400) ++
          unicodeEscape (0xDC00 + (n - 0x10000) % 0x400)

def dumpStr (s : List Nat) : List Char :=
  '"' :: (s.flatMap escape ++ ['"'])

------------------------------------------------------------
-- Values
------------------------------------------------------------

/- Whether a key does not come behind another. -/
def keyLe : List Nat → List Nat → Bool
| [], _ => true
| _ :: _, [] => false
| m :: ms, n :: ns => m < n || (m == n && keyLe ms ns)

def sortFields {α : Type} (fields : List (List Nat × α)) :
    List (List Nat × α) :=
  fields.insertionSort (fun a b => keyLe a.1 b.1 = true)

/- A new line at the given depth. -/
def newline (depth : Nat) : List Char :=
  '\n' :: List.replicate (2 * depth) ' '

/- Parts between brackets, each on a line of its own. -/
def block
    (depth : Nat)
    (left right : Char)
    (parts : List (List Char)) : List Char :=
  if parts = [] then [left, right]
  else
    left :: newline (depth + 1) ++
      (',' :: newline (depth + 1)).intercalate parts ++
      newline depth ++ [right]

def dumpField (field : List Nat × List Char) : List Char :=
  dumpStr field.1 ++ ':' :: ' ' :: field.2

mutual

/-
  `json.dumps(value, indent=2, sort_keys=True)`; `floatText`
  is the text of the number that a text stands for.
-/
def dumps
    (floatText : List Char → List Char)
    (depth : Nat) : JsonValue → List Char
| .null => "null".toList
| .bool true => "true".toList
| .bool false => "false".toList
| .int n => Json.dumpInt n
| .float text => floatText text
| .str s => dumpStr s
| .arr items =>
    block depth '[' ']' (dumpItems floatText (depth + 1) items)
| .obj fields =>
    block depth '\x7b' '\x7d'
      ((sortFields (dumpFields floatText (depth + 1) fields)).map
        dumpField)

def dumpItems
    (floatText : List Char → List Char)
    (depth : Nat) : List JsonValue → List (List Char)
| [] => []
| item :: items =>
    dumps floatText depth item ::
      dumpItems floatText depth items

def dumpFields
    (floatText : List Char → List Char)
    (depth : Nat) :
    List (List Nat × JsonValue) → List (List Nat × List Char)
| [] => []
| (key, value) :: fields =>
    (key, dumps floatText depth value) ::
      dumpFields floatText depth fields

end

example :
    dumps id 0 (.obj [([98], .arr [.int 1, .null]),
      ([97, 0x1F600], .obj [])]) =
    ("\x7b\n  \"a\\ud83d\\ude00\": \x7b\x7d,\n" ++
      "  \"b\": [\n    1,\n    null\n  ]\n\x7d").toList := by
  decide +kernel

end JsonIndented
