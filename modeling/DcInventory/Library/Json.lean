import Mathlib.Data.List.Basic
import Mathlib.Tactic.NormNum

/-
  This file defines JSON values and their compact text, and
  proves that the text determines the value.

  Strings are escaped as `json.dumps` does with
  `ensure_ascii=False` and separators `,` and `:`.

  Key definitions include:
    * `Json`
    * `Json.ofFields`
    * `Json.dumps`

  Key theorems include:
    * `Json.dumps_injective`
-/

------------------------------------------------------------
-- Values
------------------------------------------------------------

mutual

/- A JSON value; numbers are integers. -/
inductive Json where
| null
| bool (b : Bool)
| int (n : Int)
| str (s : List Char)
| arr (items : JsonItems)
| obj (fields : JsonFields)

/- The items of an array. -/
inductive JsonItems where
| nil
| cons (item : Json) (rest : JsonItems)

/- The fields of an object, in the order they are written. -/
inductive JsonFields where
| nil
| cons (key : List Char) (value : Json) (rest : JsonFields)

end

namespace JsonItems

/- Array items from a list. -/
def ofList : List Json → JsonItems
| [] => .nil
| j :: js => .cons j (ofList js)

theorem ofList_injective :
    Function.Injective ofList := by
  intro xs
  induction xs with
  | nil =>
      intro ys h
      cases ys with
      | nil => rfl
      | cons y ys => cases h
  | cons x xs ih =>
      intro ys h
      cases ys with
      | nil => cases h
      | cons y ys =>
          injection h with hHead hTail
          rw [hHead, ih hTail]

end JsonItems

namespace JsonFields

/- Object fields from a list of keys and values. -/
def ofList : List (List Char × Json) → JsonFields
| [] => .nil
| (k, v) :: fs => .cons k v (ofList fs)

theorem ofList_injective :
    Function.Injective ofList := by
  intro xs
  induction xs with
  | nil =>
      intro ys h
      cases ys with
      | nil => rfl
      | cons y ys => cases h
  | cons x xs ih =>
      intro ys h
      cases ys with
      | nil => cases h
      | cons y ys =>
          injection h with hKey hValue hTail
          rw [ih hTail, Prod.ext hKey hValue]

end JsonFields

namespace Json

/- An array from a list of items. -/
def ofItems (items : List Json) : Json :=
  .arr (JsonItems.ofList items)

/- An object from a list of fields. -/
def ofFields (fields : List (List Char × Json)) : Json :=
  .obj (JsonFields.ofList fields)

theorem ofItems_injective :
    Function.Injective ofItems := by
  intro xs ys h
  injection h with hItems
  exact JsonItems.ofList_injective hItems

theorem ofFields_injective :
    Function.Injective ofFields := by
  intro xs ys h
  injection h with hFields
  exact JsonFields.ofList_injective hFields

end Json

------------------------------------------------------------
-- Text
------------------------------------------------------------

namespace Json

/- The text of one character inside a string. -/
def escape (c : Char) : List Char :=
  if c = '"' then ['\\', '"']
  else if c = '\\' then ['\\', '\\']
  else if c = '\n' then ['\\', 'n']
  else if c = '\r' then ['\\', 'r']
  else if c = '\t' then ['\\', 't']
  else if c = '\x08' then ['\\', 'b']
  else if c = '\x0c' then ['\\', 'f']
  else if c.toNat < 32 then
    ['\\', 'u', '0', '0', Nat.digitChar (c.toNat / 16),
      Nat.digitChar (c.toNat % 16)]
  else [c]

/- The text of the characters of a string, and its end. -/
def dumpChars : List Char → List Char
| [] => ['"']
| c :: cs => escape c ++ dumpChars cs

/- The text of a string. -/
def dumpStr (s : List Char) : List Char :=
  '"' :: dumpChars s

/- The text of an integer. -/
def dumpInt : Int → List Char
| .ofNat n => Nat.toDigits 10 n
| .negSucc n => '-' :: Nat.toDigits 10 (n + 1)

mutual

/- The compact text of a value. -/
def dumps : Json → List Char
| .null => ['n', 'u', 'l', 'l']
| .bool true => ['t', 'r', 'u', 'e']
| .bool false => ['f', 'a', 'l', 's', 'e']
| .int n => dumpInt n
| .str s => dumpStr s
| .arr .nil => ['[', ']']
| .arr (.cons j js) => '[' :: (dumps j ++ dumpItems js)
| .obj .nil => ['\x7b', '\x7d']
| .obj (.cons k v fs) =>
    '\x7b' :: (dumpStr k ++ ':' :: (dumps v ++ dumpFields fs))

/- The text of the items after the first, and the end. -/
def dumpItems : JsonItems → List Char
| .nil => [']']
| .cons j js => ',' :: (dumps j ++ dumpItems js)

/- The text of the fields after the first, and the end. -/
def dumpFields : JsonFields → List Char
| .nil => ['\x7d']
| .cons k v fs =>
    ',' :: (dumpStr k ++ ':' :: (dumps v ++ dumpFields fs))

end

end Json

------------------------------------------------------------
-- Reading Back
------------------------------------------------------------

namespace Json

/- The value of a hexadecimal digit. -/
def hexValue (c : Char) : Nat :=
  if c.isDigit then c.toNat - 48 else c.toNat - 87

/- The first character of an escaped text, and the rest. -/
def unescape : List Char → Option (Char × List Char)
| '\\' :: '"' :: r => some ('"', r)
| '\\' :: '\\' :: r => some ('\\', r)
| '\\' :: 'n' :: r => some ('\n', r)
| '\\' :: 'r' :: r => some ('\r', r)
| '\\' :: 't' :: r => some ('\t', r)
| '\\' :: 'b' :: r => some ('\x08', r)
| '\\' :: 'f' :: r => some ('\x0c', r)
| '\\' :: 'u' :: '0' :: '0' :: a :: b :: r =>
    some (Char.ofNat (16 * hexValue a + hexValue b), r)
| c :: r => some (c, r)
| [] => none

private theorem hexValue_digits :
    ∀ n < 32,
      16 * hexValue (Nat.digitChar (n / 16)) +
        hexValue (Nat.digitChar (n % 16)) = n := by
  decide

/- An escaped character is read back. -/
theorem unescape_escape
    (c : Char)
    (r : List Char) :
    unescape (escape c ++ r) = some (c, r) := by
  unfold escape
  split_ifs with h₁ h₂ h₃ h₄ h₅ h₆ h₇ h₈
  · subst h₁; rfl
  · subst h₂; rfl
  · subst h₃; rfl
  · subst h₄; rfl
  · subst h₅; rfl
  · subst h₆; rfl
  · subst h₇; rfl
  · simp [unescape, hexValue_digits c.toNat h₈]
  · simp only [List.singleton_append]
    unfold unescape
    split <;> simp_all

/- An escaped character does not begin with a quote. -/
theorem escape_head
    (c : Char)
    (r s : List Char) :
    escape c ++ r ≠ '"' :: s := by
  unfold escape
  split_ifs with h₁ <;> simp_all

/- The text of a string determines it. -/
theorem dumpChars_inj
    {s s' r r' : List Char}
    (h : dumpChars s ++ r = dumpChars s' ++ r') :
    s = s' ∧ r = r' := by
  induction s generalizing s' with
  | nil =>
      cases s' with
      | nil => simpa [dumpChars] using h
      | cons c cs =>
          exfalso
          simp only [dumpChars, List.append_assoc] at h
          exact escape_head c _ r h.symm
  | cons c cs ih =>
      cases s' with
      | nil =>
          exfalso
          simp only [dumpChars, List.append_assoc] at h
          exact escape_head c _ r' h
      | cons d ds =>
          simp only [dumpChars, List.append_assoc] at h
          have hRead := congrArg unescape h
          rw [unescape_escape, unescape_escape] at hRead
          simp only [Option.some.injEq, Prod.mk.injEq]
            at hRead
          rcases ih hRead.2 with ⟨hs, hr⟩
          exact ⟨by rw [hRead.1, hs], hr⟩

theorem dumpStr_inj
    {s s' r r' : List Char}
    (h : dumpStr s ++ r = dumpStr s' ++ r') :
    s = s' ∧ r = r' := by
  simp only [dumpStr, List.cons_append, List.cons.injEq,
    true_and] at h
  exact dumpChars_inj h

/- A text that does not go on with a digit. -/
def Delimited (r : List Char) : Prop :=
  ∀ c, r.head? = some c → c.isDigit = false

private theorem takeWhile_digits
    {n : Nat}
    {r : List Char}
    (hr : Delimited r) :
    (Nat.toDigits 10 n ++ r).takeWhile Char.isDigit =
      Nat.toDigits 10 n := by
  have hDigits : ∀ c ∈ Nat.toDigits 10 n,
      c.isDigit = true := fun c hc =>
    Nat.isDigit_of_mem_toDigits (by decide) (by decide) hc
  rw [List.takeWhile_append_of_pos hDigits]
  cases r with
  | nil => simp
  | cons c cs => simp [hr c rfl]

/- The digits of a number determine it. -/
theorem toDigits_inj
    {n n' : Nat}
    {r r' : List Char}
    (hr : Delimited r)
    (hr' : Delimited r')
    (h : Nat.toDigits 10 n ++ r =
      Nat.toDigits 10 n' ++ r') :
    n = n' ∧ r = r' := by
  have hDigits : Nat.toDigits 10 n = Nat.toDigits 10 n' := by
    rw [← takeWhile_digits (n := n) hr, h,
      takeWhile_digits hr']
  have hValue := congrArg
    (fun ds => Nat.ofDigitChars 10 ds 0) hDigits
  simp only [Nat.ofDigitChars_ten_toDigits] at hValue
  rw [hDigits] at h
  exact ⟨hValue, List.append_cancel_left h⟩

private theorem toDigits_head
    (n : Nat)
    (r : List Char) :
    ∃ c, (Nat.toDigits 10 n ++ r).head? = some c ∧
      c.isDigit = true := by
  cases hDigits : Nat.toDigits 10 n with
  | nil => exact absurd hDigits Nat.toDigits_ne_nil
  | cons c cs =>
      refine ⟨c, rfl, ?_⟩
      exact Nat.isDigit_of_mem_toDigits (b := 10) (n := n)
        (by decide) (by decide) (by simp [hDigits])

theorem dumpInt_inj
    {n n' : Int}
    {r r' : List Char}
    (hr : Delimited r)
    (hr' : Delimited r')
    (h : dumpInt n ++ r = dumpInt n' ++ r') :
    n = n' ∧ r = r' := by
  have hMixed : ∀ (m m' : Nat) (q q' : List Char),
      Nat.toDigits 10 m ++ q ≠
        '-' :: Nat.toDigits 10 (m' + 1) ++ q' := by
    intro m m' q q' hEq
    rcases toDigits_head m q with ⟨c, hc, hDigit⟩
    rw [hEq] at hc
    cases hc
    exact absurd hDigit (by decide)
  cases n with
  | ofNat m =>
      cases n' with
      | ofNat m' =>
          rcases toDigits_inj hr hr' h with ⟨rfl, rfl⟩
          exact ⟨rfl, rfl⟩
      | negSucc m' => exact absurd h (hMixed m m' r r')
  | negSucc m =>
      cases n' with
      | ofNat m' =>
          exact absurd h.symm (hMixed m' m r' r)
      | negSucc m' =>
          simp only [dumpInt, List.cons_append,
            List.cons.injEq, true_and] at h
          rcases toDigits_inj hr hr' h with ⟨hEq, rfl⟩
          refine ⟨?_, rfl⟩
          rw [Nat.add_right_cancel hEq]

/- Which constructor a value has. -/
private def kind : Json → Nat
| .null => 0
| .bool true => 1
| .bool false => 2
| .int _ => 3
| .str _ => 4
| .arr _ => 5
| .obj _ => 6

/- Which constructor a text announces. -/
private def kindOfText : List Char → Nat
| 'n' :: _ => 0
| 't' :: _ => 1
| 'f' :: _ => 2
| '"' :: _ => 4
| '[' :: _ => 5
| '\x7b' :: _ => 6
| '-' :: _ => 3
| c :: _ => if c.isDigit then 3 else 7
| [] => 7

private theorem kindOfText_digit
    {c : Char}
    {r : List Char}
    (h : c.isDigit = true) :
    kindOfText (c :: r) = 3 := by
  unfold kindOfText
  split <;> simp_all

private theorem kindOfText_dumpInt
    (n : Int)
    (r : List Char) :
    kindOfText (dumpInt n ++ r) = 3 := by
  cases n with
  | ofNat m =>
      rcases toDigits_head m r with ⟨c, hc, hDigit⟩
      cases hText : Nat.toDigits 10 m ++ r with
      | nil => simp [hText] at hc
      | cons d ds =>
          rw [hText] at hc
          cases hc
          have hDump : dumpInt (.ofNat m) ++ r = c :: ds :=
            hText
          rw [hDump]
          exact kindOfText_digit hDigit
  | negSucc m => rfl

private theorem kindOfText_dumps
    (j : Json)
    (r : List Char) :
    kindOfText (dumps j ++ r) = kind j := by
  cases j with
  | null => rfl
  | bool b => cases b <;> rfl
  | int n => exact kindOfText_dumpInt n r
  | str s => rfl
  | arr items => cases items <;> rfl
  | obj fields => cases fields <;> rfl

private theorem delimited_cons
    {c : Char}
    {r : List Char}
    (h : c.isDigit = false) :
    Delimited (c :: r) := by
  rintro d ⟨⟩
  exact h

private theorem delimited_dumpItems
    (js : JsonItems)
    (r : List Char) :
    Delimited (dumpItems js ++ r) := by
  cases js <;> exact delimited_cons (by decide)

private theorem delimited_dumpFields
    (fs : JsonFields)
    (r : List Char) :
    Delimited (dumpFields fs ++ r) := by
  cases fs <;> exact delimited_cons (by decide)

/- No value begins with the end of an array. -/
private theorem dumps_ne_close
    (j : Json)
    (r r' : List Char) :
    dumps j ++ r ≠ ']' :: r' := by
  intro h
  have hKind := kindOfText_dumps j r
  rw [h] at hKind
  rcases j with _ | (_ | _) | _ | _ | _ | _ <;> cases hKind

mutual

/- A text determines the value it begins with. -/
theorem dumps_append_inj
    (j j' : Json)
    (r r' : List Char)
    (hr : Delimited r)
    (hr' : Delimited r')
    (h : dumps j ++ r = dumps j' ++ r') :
    j = j' ∧ r = r' := by
  have hKind : kind j = kind j' := by
    rw [← kindOfText_dumps j r, h, kindOfText_dumps]
  match j, j', hKind with
  | .null, .null, _ => simpa [dumps] using h
  | .bool true, .bool true, _ => simpa [dumps] using h
  | .bool false, .bool false, _ => simpa [dumps] using h
  | .int n, .int n', _ =>
      simp only [dumps] at h
      rcases dumpInt_inj hr hr' h with ⟨rfl, rfl⟩
      exact ⟨rfl, rfl⟩
  | .str s, .str s', _ =>
      simp only [dumps] at h
      rcases dumpStr_inj h with ⟨rfl, rfl⟩
      exact ⟨rfl, rfl⟩
  | .arr .nil, .arr .nil, _ => simpa [dumps] using h
  | .arr (.cons a as), .arr (.cons b bs), _ =>
      simp only [dumps, List.cons_append, List.append_assoc,
        List.cons.injEq, true_and] at h
      rcases dumps_append_inj a b _ _
          (delimited_dumpItems as r)
          (delimited_dumpItems bs r') h with ⟨rfl, hTail⟩
      rcases dumpItems_append_inj as bs r r' hTail with
        ⟨rfl, rfl⟩
      exact ⟨rfl, rfl⟩
  | .arr .nil, .arr (.cons b bs), _ =>
      simp only [dumps, List.cons_append, List.append_assoc,
        List.cons.injEq, true_and, List.nil_append] at h
      exact absurd h.symm (dumps_ne_close b _ _)
  | .arr (.cons a as), .arr .nil, _ =>
      simp only [dumps, List.cons_append, List.append_assoc,
        List.cons.injEq, true_and, List.nil_append] at h
      exact absurd h (dumps_ne_close a _ _)
  | .obj .nil, .obj .nil, _ => simpa [dumps] using h
  | .obj (.cons k v fs), .obj (.cons k' v' fs'), _ =>
      simp only [dumps, List.cons_append, List.append_assoc,
        List.cons.injEq, true_and] at h
      rcases dumpStr_inj h with ⟨rfl, hValue⟩
      simp only [List.cons.injEq, true_and] at hValue
      rcases dumps_append_inj v v' _ _
          (delimited_dumpFields fs r)
          (delimited_dumpFields fs' r') hValue with
        ⟨rfl, hTail⟩
      rcases dumpFields_append_inj fs fs' r r' hTail with
        ⟨rfl, rfl⟩
      exact ⟨rfl, rfl⟩
  | .obj .nil, .obj (.cons k v fs), _ =>
      simp [dumps, dumpStr] at h
  | .obj (.cons k v fs), .obj .nil, _ =>
      simp [dumps, dumpStr] at h

theorem dumpItems_append_inj
    (js js' : JsonItems)
    (r r' : List Char)
    (h : dumpItems js ++ r = dumpItems js' ++ r') :
    js = js' ∧ r = r' := by
  match js, js' with
  | .nil, .nil => simpa [dumpItems] using h
  | .cons a as, .cons b bs =>
      simp only [dumpItems, List.cons_append,
        List.append_assoc, List.cons.injEq, true_and] at h
      rcases dumps_append_inj a b _ _
          (delimited_dumpItems as r)
          (delimited_dumpItems bs r') h with ⟨rfl, hTail⟩
      rcases dumpItems_append_inj as bs r r' hTail with
        ⟨rfl, rfl⟩
      exact ⟨rfl, rfl⟩
  | .nil, .cons b bs => simp [dumpItems] at h
  | .cons a as, .nil => simp [dumpItems] at h

theorem dumpFields_append_inj
    (fs fs' : JsonFields)
    (r r' : List Char)
    (h : dumpFields fs ++ r = dumpFields fs' ++ r') :
    fs = fs' ∧ r = r' := by
  match fs, fs' with
  | .nil, .nil => simpa [dumpFields] using h
  | .cons k v rest, .cons k' v' rest' =>
      simp only [dumpFields, List.cons_append,
        List.append_assoc, List.cons.injEq, true_and] at h
      rcases dumpStr_inj h with ⟨rfl, hValue⟩
      simp only [List.cons.injEq, true_and] at hValue
      rcases dumps_append_inj v v' _ _
          (delimited_dumpFields rest r)
          (delimited_dumpFields rest' r') hValue with
        ⟨rfl, hTail⟩
      rcases dumpFields_append_inj rest rest' r r' hTail with
        ⟨rfl, rfl⟩
      exact ⟨rfl, rfl⟩
  | .nil, .cons k v rest => simp [dumpFields] at h
  | .cons k v rest, .nil => simp [dumpFields] at h

end

/- Different values have different texts. -/
theorem dumps_injective : Function.Injective dumps := by
  intro j j' h
  have hNil : Delimited [] := by
    rintro c ⟨⟩
  exact (dumps_append_inj j j' [] [] hNil hNil
    (by rw [h])).1

end Json
