import DcInventory.Library.Json
import DcInventory.Library.JsonReading

/-
  This file proves that the compact text of a JSON value is
  read back as that value, where the limits of the reader
  allow its numbers and its depth.

  Key definitions include:
    * `Json.value`
    * `Json.tokens`
    * `Json.Within`

  Key theorems include:
    * `JsonReader.lex_dumps`
    * `JsonReader.run_tokens`
    * `JsonReader.loads_dumps`
-/

------------------------------------------------------------
-- What Is Read
------------------------------------------------------------

namespace Json

/- The code points of a text. -/
def codes (s : List Char) : List Nat :=
  s.map Char.toNat

mutual

/- The value that is read from the text of a value. -/
def value : Json → JsonValue
| .null => .null
| .bool b => .bool b
| .int n => .int n
| .str s => .str (codes s)
| .arr items => .arr (itemValues items)
| .obj fields => .obj (fieldValues [] fields)

def itemValues : JsonItems → List JsonValue
| .nil => []
| .cons j js => value j :: itemValues js

/- Of the fields with one key the last stands. -/
def fieldValues
    (done : List (List Nat × JsonValue)) :
    JsonFields → List (List Nat × JsonValue)
| .nil => done
| .cons k v fs =>
    fieldValues (Table.put Prod.fst (codes k, value v) done) fs

end

mutual

/- The tokens of the text of a value. -/
def tokens : Json → List JsonReader.Token
| .null => [.null]
| .bool b => [.bool b]
| .int n => [.int (decide (n < 0)) (Nat.toDigits 10 n.natAbs)]
| .str s => [.str (codes s)]
| .arr .nil => [.openArr, .closeArr]
| .arr (.cons j js) => .openArr :: (tokens j ++ itemTokens js)
| .obj .nil => [.openObj, .closeObj]
| .obj (.cons k v fs) =>
    .openObj :: .str (codes k) :: .colon ::
      (tokens v ++ fieldTokens fs)

def itemTokens : JsonItems → List JsonReader.Token
| .nil => [.closeArr]
| .cons j js => .comma :: (tokens j ++ itemTokens js)

def fieldTokens : JsonFields → List JsonReader.Token
| .nil => [.closeObj]
| .cons k v fs =>
    .comma :: .str (codes k) :: .colon ::
      (tokens v ++ fieldTokens fs)

end

mutual

/- The digits and the depth of a value stay within limits. -/
def Within (digits : Nat) : Nat → Json → Prop
| _, .null => True
| _, .bool _ => True
| _, .int n => (Nat.toDigits 10 n.natAbs).length ≤ digits
| _, .str _ => True
| 0, .arr _ => False
| depth + 1, .arr items => ItemsWithin digits depth items
| 0, .obj _ => False
| depth + 1, .obj fields => FieldsWithin digits depth fields

def ItemsWithin (digits : Nat) : Nat → JsonItems → Prop
| _, .nil => True
| depth, .cons j js =>
    Within digits depth j ∧ ItemsWithin digits depth js

def FieldsWithin (digits : Nat) : Nat → JsonFields → Prop
| _, .nil => True
| depth, .cons _ v fs =>
    Within digits depth v ∧ FieldsWithin digits depth fs

end

end Json

namespace JsonReader

open Json

------------------------------------------------------------
-- Strings
------------------------------------------------------------

private theorem value_digitChar :
    ∀ n < 16, Hex.value? (Nat.digitChar n) = some n := by
  decide

/- An escape of one letter. -/
private theorem scanString_letter
    {letter : Char}
    {code : Nat}
    (hFound : Table.find Prod.fst letter simpleEscapes =
      some (letter, code))
    (hLetter : letter ≠ 'u')
    (r : List Char) :
    scanString .plain ('\\' :: letter :: r) =
      (scanString .plain r).map
        (fun p => (code :: p.1, p.2)) := by
  simp [scanString, scanSign, hFound, hLetter,
    Function.comp_def]

/- An escaped sign is read as its code point. -/
theorem scanString_escape
    (c : Char)
    (r : List Char) :
    scanString .plain (escape c ++ r) =
      (scanString .plain r).map
        (fun p => (c.toNat :: p.1, p.2)) := by
  unfold escape
  split_ifs with h₁ h₂ h₃ h₄ h₅ h₆ h₇ h₈
  · subst h₁
    exact scanString_letter rfl (by decide) r
  · subst h₂
    exact scanString_letter rfl (by decide) r
  · subst h₃
    exact scanString_letter rfl (by decide) r
  · subst h₄
    exact scanString_letter rfl (by decide) r
  · subst h₅
    exact scanString_letter rfl (by decide) r
  · subst h₆
    exact scanString_letter rfl (by decide) r
  · subst h₇
    exact scanString_letter rfl (by decide) r
  · have hTens := value_digitChar (c.toNat / 16) (by omega)
    have hOnes := value_digitChar (c.toNat % 16)
      (Nat.mod_lt _ (by omega))
    have hZero : Hex.value? '0' = some 0 := by decide
    have hCode : 16 * (c.toNat / 16) + c.toNat % 16 =
        c.toNat := Nat.div_add_mod c.toNat 16
    simp [scanString, scanSign, hTens, hOnes, hZero, hCode,
      Function.comp_def]
  · simp [scanString, scanSign, h₁, h₂, h₈]

theorem scanString_dumpChars
    (s r : List Char) :
    scanString .plain (dumpChars s ++ r) =
      some (codes s, r) := by
  induction s with
  | nil => simp [dumpChars, scanString, codes]
  | cons c cs ih =>
      rw [dumpChars, List.append_assoc, scanString_escape, ih]
      rfl

/- A sign is no half of a pair. -/
theorem isHigh_toNat (c : Char) : isHigh c.toNat = false := by
  have hValid := c.valid
  unfold isHigh
  rcases hValid with hLow | ⟨hBeyond, _⟩
  · have hCode : c.toNat < 0xD800 := hLow
    simp
    omega
  · have hCode : 0xDFFF < c.toNat := hBeyond
    simp
    omega

theorem joinSurrogates_codes (s : List Char) :
    joinSurrogates (codes s) = codes s := by
  induction s with
  | nil => rfl
  | cons c cs ih =>
      cases cs with
      | nil => rfl
      | cons d ds =>
          have hStep : joinSurrogates (codes (c :: d :: ds)) =
              c.toNat :: joinSurrogates (codes (d :: ds)) := by
            simp [codes, joinSurrogates, isHigh_toNat]
          rw [hStep, ih]
          rfl

theorem scanToken_dumpStr
    (s r : List Char) :
    scanToken (dumpStr s ++ r) = some (.str (codes s), r) := by
  have hScan : scanToken (dumpStr s ++ r) =
      (scanString .plain (dumpChars s ++ r)).map
        (fun p => (.str (joinSurrogates p.1), p.2)) := rfl
  rw [hScan, scanString_dumpChars, Option.map_some,
    joinSurrogates_codes]

------------------------------------------------------------
-- Numbers
------------------------------------------------------------

/- What can stand behind a value. -/
def Ends (r : List Char) : Prop :=
  ∀ c, r.head? = some c → c = ',' ∨ c = ']' ∨ c = '\x7d'

theorem ends_nil : Ends [] := by
  rintro c ⟨⟩

theorem ends_dumpItems
    (js : JsonItems)
    (r : List Char) :
    Ends (dumpItems js ++ r) := by
  intro c hHead
  cases js with
  | nil =>
      cases hHead
      exact Or.inr (Or.inl rfl)
  | cons j js =>
      cases hHead
      exact Or.inl rfl

theorem ends_dumpFields
    (fs : JsonFields)
    (r : List Char) :
    Ends (dumpFields fs ++ r) := by
  intro c hHead
  cases fs with
  | nil =>
      cases hHead
      exact Or.inr (Or.inr rfl)
  | cons k v fs =>
      cases hHead
      exact Or.inl rfl

private theorem digitChar_digit :
    ∀ n < 10, n ≠ 0 →
      (Nat.digitChar n).isDigit = true ∧
        Nat.digitChar n ≠ '0' := by
  decide

/- No zero stands in front of other digits. -/
theorem toDigits_cases (n : Nat) :
    (n = 0 ∧ Nat.toDigits 10 n = ['0']) ∨
      ∃ c ds, Nat.toDigits 10 n = c :: ds ∧
        c.isDigit = true ∧ c ≠ '0' ∧
        ∀ x ∈ ds, x.isDigit = true := by
  induction n using Nat.strong_induction_on with
  | _ n ih =>
      have hDigits : ∀ c ∈ Nat.toDigits 10 n,
          c.isDigit = true := fun c hc =>
        Nat.isDigit_of_mem_toDigits (by decide) (by decide) hc
      rcases Nat.lt_or_ge n 10 with hSmall | hLarge
      · rcases Nat.eq_zero_or_pos n with rfl | hPos
        · exact Or.inl ⟨rfl, rfl⟩
        · rcases digitChar_digit n hSmall (by omega) with
            ⟨hDigit, hHead⟩
          exact Or.inr ⟨_, [],
            Nat.toDigits_of_lt_base hSmall, hDigit, hHead,
            by simp⟩
      · right
        have hStep := Nat.toDigits_of_base_le (by decide) hLarge
        rcases ih (n / 10) (by omega) with
          ⟨hZero, _⟩ | ⟨c, ds, hRest, hDigit, hHead, _⟩
        · omega
        · refine ⟨c, ds ++ [Nat.digitChar (n % 10)], ?_,
            hDigit, hHead, ?_⟩
          · rw [hStep, hRest]
            rfl
          · intro x hx
            refine hDigits x ?_
            rw [hStep, hRest]
            exact List.mem_cons_of_mem c hx

/- Behind a number nothing belongs to it. -/
theorem scanWhole_toDigits
    (n : Nat)
    {r : List Char}
    (hEnds : Ends r) :
    scanWhole (Nat.toDigits 10 n ++ r) =
      some (Nat.toDigits 10 n, r) := by
  have hStop : ∀ c, r.head? = some c →
      c.isDigit = false := by
    intro c hHead
    rcases hEnds c hHead with rfl | rfl | rfl <;> rfl
  have hTake : r.takeWhile Char.isDigit = [] := by
    cases r with
    | nil => rfl
    | cons d rest => simp [hStop d rfl]
  have hDrop : r.dropWhile Char.isDigit = r := by
    cases r with
    | nil => rfl
    | cons d rest => simp [hStop d rfl]
  rcases toDigits_cases n with
    ⟨_, hZero⟩ | ⟨c, ds, hSome, hDigit, hHead, hAll⟩
  · rw [hZero]
    rfl
  · rw [hSome, List.cons_append, scanWhole, if_neg hHead,
      if_pos hDigit, List.takeWhile_append_of_pos hAll,
      List.dropWhile_append_of_pos hAll, hTake, hDrop,
      List.append_nil]

theorem scanFraction_ends
    {r : List Char}
    (hEnds : Ends r) :
    scanFraction r = ([], r) := by
  unfold scanFraction
  split
  · rename_i rest
    rcases hEnds '.' rfl with h | h | h <;>
      exact absurd h (by decide)
  · rfl

theorem scanExponent_ends
    {r : List Char}
    (hEnds : Ends r) :
    scanExponent r = ([], r) := by
  cases r with
  | nil => rfl
  | cons d rest =>
      have hOther : isExponentSign d = false := by
        rcases hEnds d rfl with rfl | rfl | rfl <;> rfl
      rw [scanExponent, hOther]
      rfl

theorem scanMinus_dumpInt
    (n : Int)
    (r : List Char) :
    scanMinus (dumpInt n ++ r) =
      (decide (n < 0), Nat.toDigits 10 n.natAbs ++ r) := by
  cases n with
  | ofNat m =>
      have hSame : scanMinus (Nat.toDigits 10 m ++ r) =
          (false, Nat.toDigits 10 m ++ r) := by
        unfold scanMinus
        split
        · rename_i rest hEq
          rcases toDigits_cases m with
            ⟨_, hZero⟩ | ⟨c, ds, hSome, hDigit, _⟩
          · rw [hZero] at hEq
            cases hEq
          · rw [hSome] at hEq
            cases hEq
            exact absurd hDigit (by decide)
        · rfl
      have hPos : decide (Int.ofNat m < 0) = false :=
        decide_eq_false (Int.not_lt.mpr (Int.natCast_nonneg m))
      rw [hPos]
      exact hSame
  | negSucc m =>
      have hNeg : decide (Int.negSucc m < 0) = true :=
        decide_eq_true (Int.negSucc_lt_zero m)
      rw [hNeg]
      rfl

theorem scanNumber_dumpInt
    (n : Int)
    {r : List Char}
    (hEnds : Ends r) :
    scanNumber (dumpInt n ++ r) =
      some (.int (decide (n < 0))
        (Nat.toDigits 10 n.natAbs), r) := by
  unfold scanNumber
  rw [scanMinus_dumpInt]
  simp only
  rw [scanWhole_toDigits n.natAbs hEnds]
  simp only
  rw [scanFraction_ends hEnds]
  simp only
  rw [scanExponent_ends hEnds]
  rfl

/- An integer is read as itself. -/
theorem intOf_digits (n : Int) :
    intOf (decide (n < 0)) (Nat.toDigits 10 n.natAbs) = n := by
  unfold intOf
  rw [Nat.ofDigitChars_ten_toDigits]
  by_cases hNeg : n < 0
  · rw [decide_eq_true hNeg]
    simp only [if_true]
    omega
  · rw [decide_eq_false hNeg]
    simp only [Bool.false_eq_true, if_false]
    omega

/- A digit begins no other token. -/
private theorem scanToken_digit
    {c : Char}
    (hDigit : c.isDigit = true)
    (cs : List Char) :
    scanToken (c :: cs) = scanNumber (c :: cs) := by
  have hNot : ∀ d : Char, d.isDigit = false → ¬ d = c := by
    rintro d hOther rfl
    rw [hDigit] at hOther
    cases hOther
  have hPoint : Table.find Prod.fst c punctuation = none := by
    simp [Table.find, punctuation, hNot '[' rfl, hNot ']' rfl,
      hNot '\x7b' rfl, hNot '\x7d' rfl, hNot ',' rfl,
      hNot ':' rfl]
  have hLiteral : scanLiteral (c :: cs) = none := by
    simp [scanLiteral, literals, hNot 'n' rfl, hNot 't' rfl,
      hNot 'f' rfl, hNot 'N' rfl, hNot 'I' rfl, hNot '-' rfl]
  have hQuote : c ≠ '"' := fun hEq => hNot '"' rfl hEq.symm
  unfold scanToken
  simp only
  rw [hPoint, hLiteral]
  simp only
  rw [if_neg hQuote, Option.none_or]

private theorem scanToken_minus
    {c : Char}
    (hDigit : c.isDigit = true)
    (cs : List Char) :
    scanToken ('-' :: c :: cs) = scanNumber ('-' :: c :: cs) := by
  have hNot : ¬ 'I' = c := by
    rintro rfl
    cases hDigit
  have hLiteral : scanLiteral ('-' :: c :: cs) = none := by
    simp [scanLiteral, literals, hNot]
  have hPoint : Table.find Prod.fst '-' punctuation = none := rfl
  unfold scanToken
  simp only
  rw [hPoint, hLiteral]
  rfl

theorem scanToken_dumpInt
    (n : Int)
    {r : List Char}
    (hEnds : Ends r) :
    scanToken (dumpInt n ++ r) =
      some (.int (decide (n < 0))
        (Nat.toDigits 10 n.natAbs), r) := by
  rw [← scanNumber_dumpInt n hEnds]
  have hDigits : ∀ m : Nat, ∃ c cs,
      Nat.toDigits 10 m = c :: cs ∧ c.isDigit = true := by
    intro m
    rcases toDigits_cases m with
      ⟨_, hZero⟩ | ⟨c, ds, hSome, hDigit, _⟩
    · exact ⟨'0', [], hZero, rfl⟩
    · exact ⟨c, ds, hSome, hDigit⟩
  cases n with
  | ofNat m =>
      rcases hDigits m with ⟨c, cs, hSome, hDigit⟩
      rw [dumpInt, hSome]
      exact scanToken_digit hDigit (cs ++ r)
  | negSucc m =>
      rcases hDigits (m + 1) with ⟨c, cs, hSome, hDigit⟩
      rw [dumpInt, hSome]
      exact scanToken_minus hDigit (cs ++ r)

------------------------------------------------------------
-- Tokens
------------------------------------------------------------

theorem lex_of_scan
    {v rest : List Char}
    {t : Token}
    (hScan : scanToken v = some (t, rest))
    (hSolid : ∀ c, v.head? = some c → isBlank c = false) :
    lex v = t :: lex rest := by
  cases v with
  | nil => cases hScan
  | cons c cs =>
      rw [lex_eq, List.dropWhile_cons_of_neg]
      · simp only
        rw [hScan]
      · rw [hSolid c rfl]
        exact Bool.false_ne_true

theorem lex_dumpStr
    (s r : List Char) :
    lex (dumpStr s ++ r) = .str (codes s) :: lex r := by
  refine lex_of_scan (scanToken_dumpStr s r) ?_
  intro c hHead
  cases hHead
  rfl

theorem lex_dumpInt
    (n : Int)
    {r : List Char}
    (hEnds : Ends r) :
    lex (dumpInt n ++ r) =
      .int (decide (n < 0)) (Nat.toDigits 10 n.natAbs) ::
        lex r := by
  have hDigit : ∀ c : Char, c.isDigit = true →
      isBlank c = false := by
    intro c hDigit
    unfold isBlank
    have hNot : ∀ d : Char, d.isDigit = false →
        ¬ c = d := by
      rintro d hOther rfl
      rw [hDigit] at hOther
      cases hOther
    simp [hNot ' ' rfl, hNot '\t' rfl, hNot '\n' rfl,
      hNot '\r' rfl]
  refine lex_of_scan (scanToken_dumpInt n hEnds) ?_
  intro c hHead
  cases n with
  | ofNat m =>
      rw [dumpInt] at hHead
      rcases toDigits_cases m with
        ⟨_, hZero⟩ | ⟨d, ds, hSome, hFirst, _⟩
      · rw [hZero] at hHead
        cases hHead
        rfl
      · rw [hSome] at hHead
        cases hHead
        exact hDigit _ hFirst
  | negSucc m =>
      cases hHead
      rfl

mutual

/- The text of a value, whatever ends it, has its tokens. -/
theorem lex_dumps_append
    (j : Json)
    (r : List Char)
    (hEnds : Ends r) :
    lex (dumps j ++ r) = tokens j ++ lex r := by
  match j with
  | .null => exact lex_of_scan rfl (by rintro c ⟨⟩; rfl)
  | .bool true => exact lex_of_scan rfl (by rintro c ⟨⟩; rfl)
  | .bool false => exact lex_of_scan rfl (by rintro c ⟨⟩; rfl)
  | .int n => exact lex_dumpInt n hEnds
  | .str s => exact lex_dumpStr s r
  | .arr .nil =>
      simp only [dumps, tokens, List.cons_append,
        List.nil_append]
      rw [lex_of_scan rfl (by rintro c ⟨⟩; rfl),
        lex_of_scan rfl (by rintro c ⟨⟩; rfl)]
  | .arr (.cons a as) =>
      simp only [dumps, tokens, List.cons_append,
        List.append_assoc]
      rw [lex_of_scan rfl (by rintro c ⟨⟩; rfl),
        lex_dumps_append a _ (ends_dumpItems as r),
        lex_dumpItems_append as r]
  | .obj .nil =>
      simp only [dumps, tokens, List.cons_append,
        List.nil_append]
      rw [lex_of_scan rfl (by rintro c ⟨⟩; rfl),
        lex_of_scan rfl (by rintro c ⟨⟩; rfl)]
  | .obj (.cons k v fs) =>
      simp only [dumps, tokens, List.cons_append,
        List.append_assoc]
      rw [lex_of_scan rfl (by rintro c ⟨⟩; rfl), lex_dumpStr,
        lex_of_scan rfl (by rintro c ⟨⟩; rfl),
        lex_dumps_append v _ (ends_dumpFields fs r),
        lex_dumpFields_append fs r]

theorem lex_dumpItems_append
    (js : JsonItems)
    (r : List Char) :
    lex (dumpItems js ++ r) = itemTokens js ++ lex r := by
  match js with
  | .nil => exact lex_of_scan rfl (by rintro c ⟨⟩; rfl)
  | .cons j js =>
      simp only [dumpItems, itemTokens, List.cons_append,
        List.append_assoc]
      rw [lex_of_scan rfl (by rintro c ⟨⟩; rfl),
        lex_dumps_append j _ (ends_dumpItems js r),
        lex_dumpItems_append js r]

theorem lex_dumpFields_append
    (fs : JsonFields)
    (r : List Char) :
    lex (dumpFields fs ++ r) = fieldTokens fs ++ lex r := by
  match fs with
  | .nil => exact lex_of_scan rfl (by rintro c ⟨⟩; rfl)
  | .cons k v fs =>
      simp only [dumpFields, fieldTokens, List.cons_append,
        List.append_assoc]
      rw [lex_of_scan rfl (by rintro c ⟨⟩; rfl), lex_dumpStr,
        lex_of_scan rfl (by rintro c ⟨⟩; rfl),
        lex_dumps_append v _ (ends_dumpFields fs r),
        lex_dumpFields_append fs r]

end

theorem lex_dumps (j : Json) : lex (dumps j) = tokens j := by
  have hText := lex_dumps_append j [] ends_nil
  rw [List.append_nil] at hText
  rw [hText]
  exact List.append_nil _

------------------------------------------------------------
-- Runs
------------------------------------------------------------

/- Where an array may end, a value may also begin. -/
theorem run_valueOrEnd
    (limits : Limits)
    (j : Json)
    (stack : List Frame)
    (ts : List Token) :
    run limits ⟨stack, .valueOrEnd⟩ (tokens j ++ ts) =
      run limits ⟨stack, .value⟩ (tokens j ++ ts) := by
  have hHead : ∃ t rest, tokens j = t :: rest ∧
      t ≠ .closeArr := by
    match j with
    | .null => exact ⟨_, _, rfl, by simp⟩
    | .bool b => exact ⟨_, _, rfl, by simp⟩
    | .int n => exact ⟨_, _, rfl, by simp⟩
    | .str s => exact ⟨_, _, rfl, by simp⟩
    | .arr .nil => exact ⟨_, _, rfl, by simp⟩
    | .arr (.cons a as) => exact ⟨_, _, rfl, by simp⟩
    | .obj .nil => exact ⟨_, _, rfl, by simp⟩
    | .obj (.cons k v fs) => exact ⟨_, _, rfl, by simp⟩
  rcases hHead with ⟨t, rest, hTokens, hOpen⟩
  have hEnd : endArr t stack = none := by
    unfold endArr
    split
    · exact absurd rfl hOpen
    · rfl
  rw [hTokens, List.cons_append, run_cons, run_cons]
  simp only [step, hEnd]

mutual

/- The tokens of a value complete it. -/
theorem run_tokens
    (limits : Limits)
    (j : Json)
    (depth : Nat)
    (stack : List Frame)
    (ts : List Token)
    (hDepth : stack.length + depth ≤ limits.depth)
    (hWithin : Within limits.digits depth j) :
    run limits ⟨stack, .value⟩ (tokens j ++ ts) =
      run limits (complete (value j) stack) ts := by
  match j, depth, hWithin with
  | .null, _, _ => rfl
  | .bool b, _, _ => rfl
  | .str s, _, _ => rfl
  | .int n, _, hWithin =>
      have hDigits : ¬ limits.digits <
          (Nat.toDigits 10 n.natAbs).length :=
        Nat.not_lt.mpr (by simpa [Within] using hWithin)
      simp only [tokens, List.cons_append, List.nil_append,
        value]
      rw [run_cons, step]
      simp only [startValue, if_neg hDigits, intOf_digits]
      rfl
  | .arr .nil, depth + 1, _ =>
      have hOpen : ¬ limits.depth ≤ stack.length := by omega
      simp only [tokens, List.cons_append, List.nil_append]
      rw [run_cons, step]
      simp only [startValue, opened, if_neg hOpen]
      rfl
  | .arr (.cons a as), depth + 1, hWithin =>
      have hOpen : ¬ limits.depth ≤ stack.length := by omega
      have hParts : Within limits.digits depth a ∧
          ItemsWithin limits.digits depth as := by
        simpa [Within, ItemsWithin] using hWithin
      simp only [tokens, List.cons_append, List.append_assoc]
      rw [run_cons, step]
      simp only [startValue, opened, if_neg hOpen]
      refine Eq.trans (run_valueOrEnd limits a _ _) ?_
      rw [run_tokens limits a depth _ _
        (by simp only [List.length_cons]; omega) hParts.1]
      exact run_itemTokens limits as depth stack [value a] ts
        (by omega) hParts.2
  | .obj .nil, depth + 1, _ =>
      have hOpen : ¬ limits.depth ≤ stack.length := by omega
      simp only [tokens, List.cons_append, List.nil_append]
      rw [run_cons, step]
      simp only [startValue, opened, if_neg hOpen]
      rfl
  | .obj (.cons k v fs), depth + 1, hWithin =>
      have hOpen : ¬ limits.depth ≤ stack.length := by omega
      have hParts : Within limits.digits depth v ∧
          FieldsWithin limits.digits depth fs := by
        simpa [Within, FieldsWithin] using hWithin
      simp only [tokens, List.cons_append, List.append_assoc]
      rw [run_cons, step]
      simp only [startValue, opened, if_neg hOpen]
      refine Eq.trans (run_tokens limits v depth
        (.obj [] (codes k) :: stack) _
        (by simp only [List.length_cons]; omega) hParts.1) ?_
      exact run_fieldTokens limits fs depth stack _ (codes k)
        ts (by omega) hParts.2

theorem run_itemTokens
    (limits : Limits)
    (js : JsonItems)
    (depth : Nat)
    (stack : List Frame)
    (done : List JsonValue)
    (ts : List Token)
    (hDepth : stack.length + 1 + depth ≤ limits.depth)
    (hWithin : ItemsWithin limits.digits depth js) :
    run limits ⟨.arr done :: stack, .next⟩
        (itemTokens js ++ ts) =
      run limits (complete
        (.arr (done.reverse ++ itemValues js)) stack) ts := by
  match js, hWithin with
  | .nil, _ =>
      rw [itemValues, List.append_nil]
      rfl
  | .cons j js, hWithin =>
      have hParts : Within limits.digits depth j ∧
          ItemsWithin limits.digits depth js := by
        simpa [ItemsWithin] using hWithin
      simp only [itemTokens, List.cons_append,
        List.append_assoc]
      refine Eq.trans (run_tokens limits j depth
        (.arr done :: stack) _
        (by simp only [List.length_cons]; omega) hParts.1) ?_
      refine Eq.trans (run_itemTokens limits js depth stack
        (value j :: done) ts hDepth hParts.2) ?_
      rw [List.reverse_cons, List.append_assoc]
      rfl

theorem run_fieldTokens
    (limits : Limits)
    (fs : JsonFields)
    (depth : Nat)
    (stack : List Frame)
    (done : List (List Nat × JsonValue))
    (key : List Nat)
    (ts : List Token)
    (hDepth : stack.length + 1 + depth ≤ limits.depth)
    (hWithin : FieldsWithin limits.digits depth fs) :
    run limits ⟨.obj done key :: stack, .next⟩
        (fieldTokens fs ++ ts) =
      run limits (complete
        (.obj (fieldValues done fs)) stack) ts := by
  match fs, hWithin with
  | .nil, _ => rfl
  | .cons k v fs, hWithin =>
      have hParts : Within limits.digits depth v ∧
          FieldsWithin limits.digits depth fs := by
        simpa [FieldsWithin] using hWithin
      simp only [fieldTokens, List.cons_append,
        List.append_assoc]
      refine Eq.trans (run_tokens limits v depth
        (.obj done (codes k) :: stack) _
        (by simp only [List.length_cons]; omega) hParts.1) ?_
      exact run_fieldTokens limits fs depth stack _ (codes k)
        ts hDepth hParts.2

end

/- No text of a value begins with a byte order mark. -/
theorem head_dumps (j : Json) :
    (dumps j).head? ≠ some '\uFEFF' := by
  match j with
  | .null => simp [dumps]
  | .bool true => simp [dumps]
  | .bool false => simp [dumps]
  | .str s => simp [dumps, dumpStr]
  | .arr .nil => simp [dumps]
  | .arr (.cons a as) => simp [dumps]
  | .obj .nil => simp [dumps]
  | .obj (.cons k v fs) => simp [dumps]
  | .int (.negSucc m) => simp [dumps, dumpInt]
  | .int (.ofNat m) =>
      intro hHead
      rw [dumps, dumpInt] at hHead
      have hDigit := Nat.isDigit_of_mem_toDigits (by decide)
        (by decide) (List.mem_of_head? hHead)
      exact absurd hDigit (by decide)

/- The text of a value is read back as the value. -/
theorem loads_dumps
    {limits : Limits}
    {j : Json}
    (hWithin : Within limits.digits limits.depth j) :
    loads limits (dumps j) = .ok (value j) := by
  have hRun := run_tokens limits j limits.depth [] []
    (by simp) hWithin
  rw [List.append_nil] at hRun
  refine loads_eq_ok_iff.mpr ⟨head_dumps j, [], ?_⟩
  rw [lex_dumps]
  exact hRun

end JsonReader
