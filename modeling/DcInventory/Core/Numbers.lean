import DcInventory.Core.Unicode
import DcInventory.Library.Json

/-
  This file defines how integers are written into texts and
  read from them, and proves that what is written is read.

  Key definitions include:
    * `intText`
    * `parseInt`
    * `Unicode.readInt`

  Key theorems include:
    * `parseInt_intText`
    * `intText_append_inj`
-/

------------------------------------------------------------
-- Writing
------------------------------------------------------------

/- `str(n)` -/
def intText (n : Int) : Text :=
  (toString n).toList

theorem intText_eq_dumpInt (n : Int) :
    intText n = Json.dumpInt n := by
  cases n with
  | ofNat m => exact Nat.toList_repr
  | negSucc m =>
      change (("-" : String) ++ (m + 1).repr).toList = _
      rw [String.toList_append, Nat.toList_repr]
      rfl

/- Integers that begin texts, before what is no digit. -/
theorem intText_append_inj
    {n n' : Int}
    {r r' : Text}
    (hr : ∀ c, r.head? = some c → c.isDigit = false)
    (hr' : ∀ c, r'.head? = some c → c.isDigit = false)
    (h : intText n ++ r = intText n' ++ r') :
    n = n' ∧ r = r' := by
  rw [intText_eq_dumpInt, intText_eq_dumpInt] at h
  exact Json.dumpInt_inj hr hr' h

/- An integer is written with digits and a sign. -/
theorem mem_intText
    {n : Int}
    {c : Char}
    (hc : c ∈ intText n) :
    c = '-' ∨ c.isDigit = true := by
  have hDigit : ∀ {m : Nat}, c ∈ Nat.toDigits 10 m →
      c.isDigit = true := fun h =>
    Nat.isDigit_of_mem_toDigits (by decide) (by decide) h
  rw [intText_eq_dumpInt] at hc
  cases n with
  | ofNat m => exact .inr (hDigit hc)
  | negSucc m =>
      rcases List.mem_cons.mp hc with h | h
      · exact .inl h
      · exact .inr (hDigit h)

------------------------------------------------------------
-- Reading
------------------------------------------------------------

/- Digits, with single underscores between them left out. -/
def digitsOf : Text → Option Text
| [] => none
| [c] => if c.isDigit then some [c] else none
| c :: '_' :: cs =>
    if c.isDigit then (digitsOf cs).map (c :: ·) else none
| c :: cs =>
    if c.isDigit then (digitsOf cs).map (c :: ·) else none

/- The natural number of a text. -/
def parseNat (value : Text) : Option Nat :=
  (digitsOf value).map (fun ds => Nat.ofDigitChars 10 ds 0)

/- `int(value)`, `none` for a ValueError. -/
def parseInt (value : Text) : Option Int :=
  match Text.strip value with
  | '-' :: cs => (parseNat cs).map (fun n => -Int.ofNat n)
  | '+' :: cs => (parseNat cs).map Int.ofNat
  | cs => (parseNat cs).map Int.ofNat

example :
    [" 12 ", "-1_0", "+7", "1__0", "", "x"].map
        (fun s => parseInt s.toList) =
      [some 12, some (-10), some 7, none, none, none] := by
  decide

namespace Unicode

/- Decimal digits of any script are those of ASCII. -/
def asciiDigit (U : Unicode) (c : Char) : Char :=
  if c.toNat < 128 then c
  else
    match U.digit c with
    | some digit => Nat.digitChar digit
    | none => c

/- `int(value)`, which refuses more than 4300 digits. -/
def readInt (U : Unicode) (value : Text) : Option Int :=
  let ascii := value.map U.asciiDigit
  if 4300 < (ascii.filter Char.isDigit).length then none
  else parseInt ascii

end Unicode

theorem digitsOf_digits
    {ds : Text}
    (hSome : ds ≠ [])
    (hDigits : ∀ c ∈ ds, c.isDigit = true) :
    digitsOf ds = some ds := by
  induction ds with
  | nil => exact absurd rfl hSome
  | cons c cs ih =>
      have hHead := hDigits c (by simp)
      have hTail := fun d hd => hDigits d
        (List.mem_cons_of_mem c hd)
      match cs, ih, hTail with
      | [], _, _ => simp [digitsOf, hHead]
      | d :: ds', ih, hTail =>
          have hNot : d ≠ '_' := by
            intro hEq
            have hDigit := hTail d (by simp)
            rw [hEq] at hDigit
            exact absurd hDigit (by decide)
          have hRest := ih (by simp) hTail
          rw [digitsOf, if_pos hHead, hRest]
          · rfl
          · exact List.cons_ne_nil d ds'
          · intro ds'' hEq
            injection hEq with hd
            exact hNot hd

theorem parseNat_toDigits (n : Nat) :
    parseNat (Nat.toDigits 10 n) = some n := by
  have hDigits : ∀ c ∈ Nat.toDigits 10 n,
      c.isDigit = true := fun c hc =>
    Nat.isDigit_of_mem_toDigits (by decide) (by decide) hc
  rw [parseNat, digitsOf_digits Nat.toDigits_ne_nil hDigits]
  simp [Nat.ofDigitChars_ten_toDigits]

namespace Text

theorem strip_of_solid
    {value : Text}
    (h : ∀ c ∈ value, isSpace c = false) :
    strip value = value := by
  have hKeeps : ∀ {cs : Text},
      (∀ c ∈ cs, isSpace c = false) →
        cs.dropWhile isSpace = cs := by
    intro cs hcs
    cases cs with
    | nil => rfl
    | cons c cs => simp [hcs c (by simp)]
  rw [strip, hKeeps h, hKeeps, List.reverse_reverse]
  intro c hc
  exact h c (List.mem_reverse.mp hc)

theorem not_isSpace_of_isDigit
    {c : Char}
    (h : c.isDigit = true) :
    isSpace c = false := by
  have hRange : 48 ≤ c.toNat ∧ c.toNat ≤ 57 := by
    simpa [Char.isDigit, UInt32.le_iff_toNat_le] using h
  have hLow : ¬ c.toNat ≤ 32 := by omega
  simp only [isSpace, Bool.or_eq_false_iff,
    Bool.and_eq_false_iff, decide_eq_false_iff_not,
    beq_eq_false_iff_ne]
  omega

end Text

/- What `str` writes, `int` reads. -/
theorem parseInt_intText (n : Int) :
    parseInt (intText n) = some n := by
  have hSolid : ∀ c ∈ intText n,
      Text.isSpace c = false := by
    intro c hc
    rcases mem_intText hc with rfl | hDigit
    · decide
    · exact Text.not_isSpace_of_isDigit hDigit
  rw [parseInt, Text.strip_of_solid hSolid,
    intText_eq_dumpInt]
  cases n with
  | negSucc m =>
      simp [Json.dumpInt, parseNat_toDigits, Int.negSucc_eq]
  | ofNat m =>
      have hRead := parseNat_toDigits m
      have hDigits : ∀ c ∈ Nat.toDigits 10 m,
          c.isDigit = true := fun c hc =>
        Nat.isDigit_of_mem_toDigits (by decide) (by decide) hc
      simp only [Json.dumpInt]
      -- the first digit is no sign
      split
      · rename_i cs hEq
        exact absurd (hDigits '-' (by simp [hEq])) (by decide)
      · rename_i cs hEq
        exact absurd (hDigits '+' (by simp [hEq])) (by decide)
      · simp [hRead]
