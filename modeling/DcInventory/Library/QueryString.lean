import DcInventory.Library.Hex
import DcInventory.Library.Lines
import DcInventory.Library.Utf8
import Mathlib.Data.List.TakeDrop

/-
  This file defines how the runtime reads a query string into
  names and values.

  Key definitions include:
    * `QueryString.decodeReplace`
    * `QueryString.unquote`
    * `QueryString.parseQsl`

  Key theorems include:
    * `QueryString.unquote_plain`
    * `QueryString.parseQsl_safe`
-/

namespace QueryString

------------------------------------------------------------
-- Bytes
------------------------------------------------------------

/- A character whose first bytes were read. -/
structure Pending where
  code : Nat
  ranges : List (Nat × Nat)
deriving DecidableEq, Repr

/- U+FFFD -/
def replacement : Char := '\uFFFD'

/- What a first byte announces: its bits and what may follow. -/
def leadByte (b : Nat) : Option Pending :=
  let any : Nat × Nat := (0x80, 0xBF)
  if 0xC2 ≤ b ∧ b ≤ 0xDF then some ⟨b - 0xC0, [any]⟩
  else if b = 0xE0 then some ⟨0, [(0xA0, 0xBF), any]⟩
  else if b = 0xED then some ⟨0xD, [(0x80, 0x9F), any]⟩
  else if 0xE1 ≤ b ∧ b ≤ 0xEF then some ⟨b - 0xE0, [any, any]⟩
  else if b = 0xF0 then some ⟨0, [(0x90, 0xBF), any, any]⟩
  else if 0xF1 ≤ b ∧ b ≤ 0xF3 then
    some ⟨b - 0xF0, [any, any, any]⟩
  else if b = 0xF4 then some ⟨4, [(0x80, 0x8F), any, any]⟩
  else none

/- A byte that does not go on with a character. -/
def startByte (b : UInt8) : List Char × Option Pending :=
  if b.toNat < 0x80 then ([Char.ofNat b.toNat], none)
  else
    match leadByte b.toNat with
    | some pending => ([], some pending)
    | none => ([replacement], none)

/- One more byte: what it completes, and what is pending. -/
def nextByte :
    Option Pending → UInt8 → List Char × Option Pending
| none, b => startByte b
| some ⟨_, []⟩, b => startByte b
| some ⟨code, (low, high) :: ranges⟩, b =>
    if low ≤ b.toNat ∧ b.toNat ≤ high then
      let code := 0x40 * code + (b.toNat - 0x80)
      if ranges = [] then ([Char.ofNat code], none)
      else ([], some ⟨code, ranges⟩)
    else
      let (chars, pending) := startByte b
      (replacement :: chars, pending)

/-
  `bytes.decode("utf-8", "replace")`: one sign stands for as
  many bytes as begin a character that is not completed.
-/
def decodeReplace : Option Pending → List UInt8 → List Char
| none, [] => []
| some _, [] => [replacement]
| pending, b :: bs =>
    let (chars, pending) := nextByte pending b
    chars ++ decodeReplace pending bs

------------------------------------------------------------
-- Percent Signs
------------------------------------------------------------

/- A percent sign that no two digits follow is itself. -/
def unquoteToBytes : List Char → List UInt8
| [] => []
| '%' :: a :: b :: rest =>
    match Hex.value? a, Hex.value? b with
    | some m, some n =>
        UInt8.ofNat (16 * m + n) :: unquoteToBytes rest
    | _, _ => 37 :: unquoteToBytes (a :: b :: rest)
| c :: rest => UInt8.ofNat c.toNat :: unquoteToBytes rest

/- The run of ASCII that was read so far, in reverse. -/
def unquoteFrom (run : List Char) : List Char → List Char
| [] => decodeReplace none (unquoteToBytes run.reverse)
| c :: cs =>
    if c.toNat < 128 then unquoteFrom (c :: run) cs
    else
      decodeReplace none (unquoteToBytes run.reverse) ++
        c :: unquoteFrom [] cs

def unquote (v : List Char) : List Char :=
  unquoteFrom [] v

def plusToSpace (v : List Char) : List Char :=
  v.map (fun c => if c = '+' then ' ' else c)

/- A name and its value, or nothing without a sign between. -/
def parseField
    (field : List Char) : Option (List Char × List Char) :=
  match field.span (· ≠ '=') with
  | (_, []) => none
  | (name, _ :: value) =>
      some (unquote (plusToSpace name),
        unquote (plusToSpace value))

/- `parse_qsl`, strict and with blank values. -/
def parseQsl
    (maxNumFields : Nat)
    (qs : List Char) : Option (List (List Char × List Char)) :=
  if maxNumFields < (Lines.cut '&' qs).length then none
  else (Lines.cut '&' qs).mapM parseField

------------------------------------------------------------
-- Plain Text
------------------------------------------------------------

/- A sign of ASCII that stands for itself. -/
def isPlain (c : Char) : Bool :=
  decide (c.toNat < 128) && c != '%'

theorem unquoteToBytes_plain
    {v : List Char}
    (h : ∀ c ∈ v, isPlain c = true) :
    unquoteToBytes v = v.map (fun c => UInt8.ofNat c.toNat) := by
  induction v with
  | nil => rfl
  | cons c cs ih =>
      rcases List.forall_mem_cons.mp h with ⟨hHead, hTail⟩
      have hPercent : c ≠ '%' := by
        rintro rfl
        exact absurd hHead (by decide)
      rw [List.map_cons, ← ih hTail]
      rw [unquoteToBytes.eq_def]
      split
      · rename_i hEq
        cases hEq
      · rename_i hEq
        cases hEq
        exact absurd rfl hPercent
      · rename_i hEq
        cases hEq
        rfl

theorem decodeReplace_ascii
    {v : List Char}
    (h : ∀ c ∈ v, isPlain c = true) :
    decodeReplace none
      (v.map (fun c => UInt8.ofNat c.toNat)) = v := by
  induction v with
  | nil => rfl
  | cons c cs ih =>
      rcases List.forall_mem_cons.mp h with ⟨hHead, hTail⟩
      have hAscii : c.toNat < 128 :=
        of_decide_eq_true (Bool.and_eq_true_iff.mp hHead).1
      have hByte : (UInt8.ofNat c.toNat).toNat = c.toNat := by
        rw [UInt8.toNat_ofNat']
        omega
      have hStart : startByte (UInt8.ofNat c.toNat) =
          ([c], none) := by
        unfold startByte
        rw [hByte, if_pos (by omega), Char.ofNat_toNat]
      rw [List.map_cons, decodeReplace]
      simp only [nextByte, hStart]
      rw [ih hTail]
      rfl

theorem unquote_plain
    {v : List Char}
    (h : ∀ c ∈ v, isPlain c = true) :
    unquote v = v := by
  have hFrom : ∀ run : List Char,
      (∀ c ∈ run, isPlain c = true) →
      unquoteFrom run v = run.reverse ++ v := by
    induction v with
    | nil =>
        intro run hRun
        have hReverse : ∀ c ∈ run.reverse,
            isPlain c = true := fun c hc =>
          hRun c (List.mem_reverse.mp hc)
        rw [unquoteFrom, unquoteToBytes_plain hReverse,
          decodeReplace_ascii hReverse, List.append_nil]
    | cons c cs ih =>
        rcases List.forall_mem_cons.mp h with ⟨hHead, hTail⟩
        have hAscii : c.toNat < 128 :=
          of_decide_eq_true (Bool.and_eq_true_iff.mp hHead).1
        intro run hRun
        rw [unquoteFrom, if_pos hAscii, ih hTail]
        · simp
        · exact List.forall_mem_cons.mpr ⟨hHead, hRun⟩
  unfold unquote
  exact hFrom [] (by simp)

/- A sign that neither ends a field nor is an escape. -/
def isSafe (c : Char) : Bool :=
  isPlain c && c != '+' && c != '&'

theorem isPlain_of_isSafe
    {v : List Char}
    (h : ∀ c ∈ v, isSafe c = true) :
    ∀ c ∈ v, isPlain c = true := by
  intro c hc
  have hSafe := h c hc
  unfold isSafe at hSafe
  simp only [Bool.and_eq_true] at hSafe
  exact hSafe.1.1

theorem unquote_safe
    {v : List Char}
    (h : ∀ c ∈ v, isSafe c = true) :
    unquote (plusToSpace v) = v := by
  have hSame : plusToSpace v = v := by
    unfold plusToSpace
    conv_rhs => rw [← List.map_id v]
    apply List.map_congr_left
    intro c hc
    have hPlus : c ≠ '+' := by
      rintro rfl
      exact absurd (h _ hc) (by decide)
    exact if_neg hPlus
  rw [hSame]
  exact unquote_plain (isPlain_of_isSafe h)

/- A name and a value that are written without escapes. -/
structure SafeField (field : List Char × List Char) : Prop where
  name : ∀ c ∈ field.1, isSafe c = true
  solid : '=' ∉ field.1
  value : ∀ c ∈ field.2, isSafe c = true

theorem parseField_safe
    {field : List Char × List Char}
    (h : SafeField field) :
    parseField (field.1 ++ '=' :: field.2) = some field := by
  have hTake : field.1.takeWhile (· ≠ '=') = field.1 := by
    rw [List.takeWhile_eq_self_iff]
    intro c hc
    rw [decide_eq_true_eq]
    rintro rfl
    exact h.solid hc
  have hSpan : (field.1 ++ '=' :: field.2).span (· ≠ '=') =
      (field.1, '=' :: field.2) := by
    rw [List.span_eq_takeWhile_dropWhile,
      List.takeWhile_append_of_pos, List.dropWhile_append_of_pos]
    · simp
    · exact fun c hc => List.takeWhile_eq_self_iff.mp hTake c hc
    · exact fun c hc => List.takeWhile_eq_self_iff.mp hTake c hc
  unfold parseField
  rw [hSpan]
  simp only
  rw [unquote_safe h.name, unquote_safe h.value]

/- Fields that are written without escapes are read. -/
theorem parseQsl_safe
    {maxNumFields : Nat}
    {fields : List (List Char × List Char)}
    (hSome : fields ≠ [])
    (hCount : fields.length ≤ maxNumFields)
    (hSafe : ∀ field ∈ fields, SafeField field) :
    parseQsl maxNumFields (Words.join '&'
      (fields.map (fun f => f.1 ++ '=' :: f.2))) =
      some fields := by
  have hNoBreak : ∀ v : List Char,
      (∀ c ∈ v, isSafe c = true) → '&' ∉ v :=
    fun v hv hIn => absurd (hv '&' hIn) (by decide)
  have hCut : Lines.cut '&' (Words.join '&'
      (fields.map (fun f => f.1 ++ '=' :: f.2))) =
      fields.map (fun f => f.1 ++ '=' :: f.2) := by
    apply Lines.cut_join_solid
    · simpa using hSome
    · intro part hPart hIn
      rcases List.mem_map.mp hPart with ⟨f, hf, rfl⟩
      rcases List.mem_append.mp hIn with hIn | hIn
      · exact hNoBreak _ (hSafe f hf).name hIn
      · rcases List.mem_cons.mp hIn with hEq | hIn
        · exact absurd hEq (by decide)
        · exact hNoBreak _ (hSafe f hf).value hIn
  unfold parseQsl
  rw [hCut, List.length_map, if_neg (by omega)]
  clear hCut hSome hCount
  induction fields with
  | nil => rfl
  | cons f fields ih =>
      rcases List.forall_mem_cons.mp hSafe with ⟨hHead, hTail⟩
      rw [List.map_cons, List.mapM_cons, parseField_safe hHead,
        ih hTail]
      rfl

end QueryString
