import DcInventory.Library.JsonReader
import Mathlib.Data.List.Find
import Mathlib.Data.List.TakeWhile

/-
  This file proves what does not depend on what follows a
  JSON text on the next line, or on the limits of a reader.

  Key theorems include:
    * `JsonReader.lex_append`
    * `JsonReader.run_of_run`
    * `JsonReader.loads_append`
    * `JsonReader.loads_iff_overruns`
-/

namespace JsonReader

------------------------------------------------------------
-- Scanning
------------------------------------------------------------

section Stopping

variable {p : Char → Bool}
variable {a : Char}
variable (hStop : p a = false)
include hStop

theorem takeWhile_stop (v r : List Char) :
    (v ++ a :: r).takeWhile p = v.takeWhile p := by
  induction v with
  | nil => simp [hStop]
  | cons c cs ih =>
      cases h : p c with
      | false => simp [h]
      | true => simp [h, ih]

theorem dropWhile_stop (v r : List Char) :
    (v ++ a :: r).dropWhile p = v.dropWhile p ++ a :: r := by
  induction v with
  | nil => simp [hStop]
  | cons c cs ih =>
      cases h : p c with
      | false => simp [h]
      | true => simp [h, ih]

end Stopping

/- A string that ends is read whatever follows. -/
theorem scanString_append
    {mode : StringMode}
    {v r : List Char}
    {s : List Nat}
    (h : scanString mode v = some (s, r))
    (x : List Char) :
    scanString mode (v ++ x) = some (s, r ++ x) := by
  induction v generalizing mode s with
  | nil =>
      rw [scanString] at h
      cases h
  | cons c cs ih =>
      rw [List.cons_append, scanString]
      rw [scanString] at h
      split
      · rename_i hQuote
        rw [if_pos hQuote] at h
        cases h
        rfl
      · rename_i hQuote
        rw [if_neg hQuote] at h
        cases hSign : scanSign mode c with
        | none =>
            rw [hSign] at h
            cases h
        | some next =>
            rw [hSign] at h
            rcases Option.map_eq_some_iff.mp h with
              ⟨⟨s', r'⟩, hRest, hEq⟩
            cases hEq
            simp only
            rw [ih hRest]
            rfl

theorem scanString_length
    {mode : StringMode}
    {v r : List Char}
    {s : List Nat}
    (h : scanString mode v = some (s, r)) :
    r.length < v.length := by
  induction v generalizing mode s with
  | nil =>
      rw [scanString] at h
      cases h
  | cons c cs ih =>
      rw [scanString] at h
      split at h
      · cases h
        exact Nat.lt_succ_self _
      · cases hSign : scanSign mode c with
        | none =>
            rw [hSign] at h
            cases h
        | some next =>
            rw [hSign] at h
            rcases Option.map_eq_some_iff.mp h with
              ⟨⟨s', r'⟩, hRest, hEq⟩
            cases hEq
            exact Nat.lt_succ_of_lt (ih hRest)

section NextLine

variable (x : List Char)

/- Digits end at the end of a line. -/
theorem scanWhole_append
    {v whole r : List Char}
    (h : scanWhole v = some (whole, r)) :
    scanWhole (v ++ '\n' :: x) =
      some (whole, r ++ '\n' :: x) := by
  cases v with
  | nil => cases h
  | cons c cs =>
      rw [List.cons_append, scanWhole]
      rw [scanWhole] at h
      split
      · rename_i hZero
        rw [if_pos hZero] at h
        cases h
        rfl
      · rename_i hZero
        rw [if_neg hZero] at h
        split
        · rename_i hDigit
          rw [if_pos hDigit] at h
          cases h
          rw [takeWhile_stop (by decide),
            dropWhile_stop (by decide)]
        · rename_i hDigit
          rw [if_neg hDigit] at h
          cases h

theorem scanFraction_append (r : List Char) :
    scanFraction (r ++ '\n' :: x) =
      ((scanFraction r).1, (scanFraction r).2 ++ '\n' :: x) := by
  cases r with
  | nil => rfl
  | cons c cs =>
      by_cases hPoint : c = '.'
      · subst hPoint
        rw [List.cons_append, scanFraction, scanFraction,
          takeWhile_stop (by decide), dropWhile_stop (by decide)]
        split <;> rfl
      · have hNone : ∀ rest, scanFraction (c :: rest) =
            ([], c :: rest) := by
          intro rest
          unfold scanFraction
          split
          · rename_i hEq
            cases hEq
            exact absurd rfl hPoint
          · rfl
        rw [List.cons_append, hNone, hNone]
        rfl

theorem scanPlusMinus_append (r : List Char) :
    scanPlusMinus (r ++ '\n' :: x) =
      ((scanPlusMinus r).1,
        (scanPlusMinus r).2 ++ '\n' :: x) := by
  cases r with
  | nil => rfl
  | cons c cs =>
      rw [List.cons_append]
      unfold scanPlusMinus
      split
      · rename_i hEq
        cases hEq
        rfl
      · rename_i hEq
        cases hEq
        rfl
      · rename_i hPlus hMinus
        split
        · rename_i hEq
          cases hEq
          exact absurd rfl (hPlus _)
        · rename_i hEq
          cases hEq
          exact absurd rfl (hMinus _)
        · rfl

theorem scanExponent_append (r : List Char) :
    scanExponent (r ++ '\n' :: x) =
      ((scanExponent r).1, (scanExponent r).2 ++ '\n' :: x) := by
  cases r with
  | nil => rfl
  | cons c cs =>
      rw [List.cons_append, scanExponent, scanExponent]
      split
      · simp only
        rw [scanPlusMinus_append, takeWhile_stop (by decide),
          dropWhile_stop (by decide)]
        split <;> rfl
      · rfl

theorem scanMinus_append (r : List Char) :
    scanMinus (r ++ '\n' :: x) =
      ((scanMinus r).1, (scanMinus r).2 ++ '\n' :: x) := by
  cases r with
  | nil => rfl
  | cons c cs =>
      rw [List.cons_append]
      unfold scanMinus
      split
      · rename_i hEq
        cases hEq
        rfl
      · rename_i hMinus
        split
        · rename_i hEq
          cases hEq
          exact absurd rfl (hMinus _)
        · rfl

theorem scanNumber_append
    {v r : List Char}
    {token : Token}
    (h : scanNumber v = some (token, r)) :
    scanNumber (v ++ '\n' :: x) =
      some (token, r ++ '\n' :: x) := by
  unfold scanNumber at h ⊢
  rw [scanMinus_append]
  simp only at h ⊢
  cases hWhole : scanWhole (scanMinus v).2 with
  | none =>
      rw [hWhole] at h
      cases h
  | some parts =>
      rcases parts with ⟨whole, rest⟩
      rw [hWhole] at h
      rw [scanWhole_append x hWhole]
      simp only at h ⊢
      rw [scanFraction_append, scanExponent_append]
      split
      · rename_i hNone
        rw [if_pos hNone] at h
        cases h
        rfl
      · rename_i hSome
        rw [if_neg hSome] at h
        cases h
        rfl

/- No name of a value goes on to the next line. -/
theorem isPrefixOf_append
    {name : List Char}
    (hName : '\n' ∉ name)
    (v : List Char) :
    name.isPrefixOf (v ++ '\n' :: x) = name.isPrefixOf v := by
  induction name generalizing v with
  | nil => simp
  | cons c cs ih =>
      have hHead : c ≠ '\n' := by
        rintro rfl
        exact hName List.mem_cons_self
      have hTail : '\n' ∉ cs := fun hMem =>
        hName (List.mem_cons_of_mem c hMem)
      cases v with
      | nil =>
          rw [List.nil_append, List.isPrefixOf_cons₂]
          simp [hHead]
      | cons d ds =>
          rw [List.cons_append, List.isPrefixOf_cons₂,
            List.isPrefixOf_cons₂, ih hTail]

theorem scanLiteral_append (v : List Char) :
    scanLiteral (v ++ '\n' :: x) =
      (scanLiteral v).map
        (fun p => (p.1, p.2 ++ '\n' :: x)) := by
  have hSame : literals.find?
      (fun l => l.1.isPrefixOf (v ++ '\n' :: x)) =
      literals.find? (fun l => l.1.isPrefixOf v) := by
    apply List.find?_congr
    have hNames : ∀ l ∈ literals, '\n' ∉ l.1 := by
      decide
    intro l hl
    exact isPrefixOf_append x (hNames l hl) v
  unfold scanLiteral
  rw [hSame, Option.map_map]
  cases hFind : literals.find? (fun l => l.1.isPrefixOf v) with
  | none => rfl
  | some l =>
      have hPrefix := List.find?_some hFind
      have hLe := (List.isPrefixOf_iff_prefix.mp hPrefix).length_le
      simp only [Option.map_some, Function.comp_apply]
      rw [List.drop_append_of_le_length hLe]

theorem scanToken_append
    {v r : List Char}
    {token : Token}
    (h : scanToken v = some (token, r)) :
    scanToken (v ++ '\n' :: x) =
      some (token, r ++ '\n' :: x) := by
  cases v with
  | nil => cases h
  | cons c cs =>
      rw [List.cons_append]
      unfold scanToken at h ⊢
      simp only at h ⊢
      cases hSign : Table.find Prod.fst c punctuation with
      | some found =>
          rw [hSign] at h
          cases h
          rfl
      | none =>
          rw [hSign] at h
          simp only at h ⊢
          split
          · rename_i hQuote
            rw [if_pos hQuote] at h
            rcases Option.map_eq_some_iff.mp h with
              ⟨⟨s, rest⟩, hString, hEq⟩
            cases hEq
            rw [scanString_append hString]
            rfl
          · rename_i hQuote
            rw [if_neg hQuote] at h
            rw [← List.cons_append, scanLiteral_append]
            cases hLiteral : scanLiteral (c :: cs) with
            | some found =>
                rw [hLiteral] at h
                cases h
                rfl
            | none =>
                rw [hLiteral] at h
                exact scanNumber_append x h

end NextLine

/- A token is not empty. -/
theorem scanFraction_length (r : List Char) :
    (scanFraction r).2.length ≤ r.length := by
  unfold scanFraction
  split
  · split
    · exact le_refl _
    · exact (List.dropWhile_sublist _).length_le.trans
        (Nat.le_succ _)
  · exact le_refl _

theorem scanPlusMinus_length (r : List Char) :
    (scanPlusMinus r).2.length ≤ r.length := by
  unfold scanPlusMinus
  split
  · exact Nat.le_succ _
  · exact Nat.le_succ _
  · exact le_refl _

theorem scanExponent_length (r : List Char) :
    (scanExponent r).2.length ≤ r.length := by
  cases r with
  | nil => exact le_refl _
  | cons c cs =>
      have hSign := scanPlusMinus_length cs
      have hDigits := (List.dropWhile_sublist Char.isDigit
        (l := (scanPlusMinus cs).2)).length_le
      rw [scanExponent]
      split
      · simp only
        split
        · exact le_refl _
        · rw [List.length_cons]
          simp only
          omega
      · exact le_refl _

theorem scanMinus_length (r : List Char) :
    (scanMinus r).2.length ≤ r.length := by
  unfold scanMinus
  split
  · exact Nat.le_succ _
  · exact le_refl _

theorem scanWhole_length
    {v whole r : List Char}
    (h : scanWhole v = some (whole, r)) :
    r.length < v.length := by
  cases v with
  | nil => cases h
  | cons c cs =>
      rw [scanWhole] at h
      split at h
      · cases h
        exact Nat.lt_succ_self _
      · split at h
        · cases h
          exact Nat.lt_succ_of_le (List.dropWhile_sublist _).length_le
        · cases h

theorem scanNumber_length
    {v r : List Char}
    {token : Token}
    (h : scanNumber v = some (token, r)) :
    r.length < v.length := by
  have hMinus := scanMinus_length v
  unfold scanNumber at h
  simp only at h
  cases hWhole : scanWhole (scanMinus v).2 with
  | none =>
      rw [hWhole] at h
      cases h
  | some parts =>
      rcases parts with ⟨whole, rest⟩
      have hRest := scanWhole_length hWhole
      have hFraction := scanFraction_length rest
      have hExponent :=
        scanExponent_length (scanFraction rest).2
      rw [hWhole] at h
      simp only at h
      split at h
      · cases h
        omega
      · cases h
        omega

theorem scanLiteral_length
    {v r : List Char}
    {token : Token}
    (h : scanLiteral v = some (token, r)) :
    r.length < v.length := by
  rcases Option.map_eq_some_iff.mp h with ⟨l, hFind, hEq⟩
  cases hEq
  have hFound : l.1.isPrefixOf v = true := by
    simpa using List.find?_some hFind
  have hPrefix := List.isPrefixOf_iff_prefix.mp hFound
  have hNames : ∀ l ∈ literals, 0 < l.1.length := by
    decide
  have hPos := hNames l (List.mem_of_find?_eq_some hFind)
  have hLe := hPrefix.length_le
  rw [List.length_drop]
  omega

theorem scanToken_length
    {v r : List Char}
    {token : Token}
    (h : scanToken v = some (token, r)) :
    r.length < v.length := by
  cases v with
  | nil => cases h
  | cons c cs =>
      unfold scanToken at h
      simp only at h
      cases hSign : Table.find Prod.fst c punctuation with
      | some found =>
          rw [hSign] at h
          cases h
          exact Nat.lt_succ_self _
      | none =>
          rw [hSign] at h
          simp only at h
          split at h
          · rcases Option.map_eq_some_iff.mp h with
              ⟨⟨s, rest⟩, hString, hEq⟩
            cases hEq
            exact Nat.lt_succ_of_lt (scanString_length hString)
          · rcases Option.or_eq_some_iff.mp h with
              hLiteral | ⟨_, hNumber⟩
            · exact scanLiteral_length hLiteral
            · exact scanNumber_length hNumber

------------------------------------------------------------
-- Tokens
------------------------------------------------------------

theorem lexFrom_cons
    (fuel : Nat)
    (v : List Char) :
    lexFrom (fuel + 1) v =
      match v.dropWhile isBlank with
      | [] => []
      | c :: cs =>
          match scanToken (c :: cs) with
          | none => [.bad]
          | some (token, rest) => token :: lexFrom fuel rest :=
  rfl

/- More fuel than the length of the text changes nothing. -/
theorem lexFrom_eq
    {n : Nat}
    {v : List Char}
    (hFuel : v.length ≤ n) :
    lexFrom n v = lex v := by
  have hMore : ∀ m (v : List Char) n, v.length ≤ m →
      v.length ≤ n → lexFrom n v = lexFrom m v := by
    intro m
    induction m with
    | zero =>
        intro v n hm hn
        rw [List.length_eq_zero_iff.mp (Nat.le_zero.mp hm)]
        cases n with
        | zero => rfl
        | succ n => rfl
    | succ m ih =>
        intro v n hm hn
        cases n with
        | zero =>
            rw [List.length_eq_zero_iff.mp (Nat.le_zero.mp hn)]
            rfl
        | succ n =>
            rw [lexFrom_cons, lexFrom_cons]
            have hDrop := (List.dropWhile_sublist isBlank (l := v)).length_le
            cases hRest : v.dropWhile isBlank with
            | nil => rfl
            | cons c cs =>
                rw [hRest] at hDrop
                simp only
                cases hToken : scanToken (c :: cs) with
                | none => rfl
                | some found =>
                    have hShort := scanToken_length
                      (show scanToken (c :: cs) =
                        some (found.1, found.2) from hToken)
                    simp only
                    rw [ih found.2 n (by omega) (by omega)]
  exact hMore v.length v n (le_refl _) hFuel

/- The first token of a text, and those of the rest. -/
theorem lex_eq (v : List Char) :
    lex v =
      match v.dropWhile isBlank with
      | [] => []
      | c :: cs =>
          match scanToken (c :: cs) with
          | none => [.bad]
          | some (token, rest) => token :: lex rest := by
  rw [← lexFrom_eq (Nat.le_succ v.length), lexFrom_cons]
  have hDrop := (List.dropWhile_sublist isBlank (l := v)).length_le
  cases hRest : v.dropWhile isBlank with
  | nil => rfl
  | cons c cs =>
      rw [hRest] at hDrop
      simp only
      cases hToken : scanToken (c :: cs) with
      | none => rfl
      | some found =>
          have hShort := scanToken_length
            (show scanToken (c :: cs) =
              some (found.1, found.2) from hToken)
          simp only
          rw [lexFrom_eq (by omega)]

/- The tokens of two lines are those of one and the other. -/
theorem lex_append
    {v : List Char}
    (hGood : Token.bad ∉ lex v)
    (x : List Char) :
    lex (v ++ '\n' :: x) = lex v ++ lex x := by
  induction hLength : v.length using Nat.strong_induction_on
    generalizing v with
  | _ n ih =>
      have hDrop := (List.dropWhile_sublist isBlank (l := v)).length_le
      rw [lex_eq v] at hGood ⊢
      rw [lex_eq (v ++ '\n' :: x)]
      by_cases hBlank : v.dropWhile isBlank = []
      · have hAll : (v ++ '\n' :: x).dropWhile isBlank =
            x.dropWhile isBlank := by
          rw [List.dropWhile_append_of_pos]
          · rfl
          · exact List.dropWhile_eq_nil_iff.mp hBlank
        rw [hAll, hBlank]
        exact (lex_eq x).symm
      · have hSome : (v ++ '\n' :: x).dropWhile isBlank =
            v.dropWhile isBlank ++ '\n' :: x := by
          rw [List.dropWhile_append, if_neg]
          simpa using hBlank
        rw [hSome]
        cases hRest : v.dropWhile isBlank with
        | nil => exact absurd hRest hBlank
        | cons c cs =>
            rw [hRest] at hGood hDrop
            simp only at hGood
            rw [List.cons_append]
            simp only
            cases hToken : scanToken (c :: cs) with
            | none =>
                rw [hToken] at hGood
                exact absurd (List.mem_singleton.mpr rfl) hGood
            | some found =>
                rcases found with ⟨token, rest⟩
                have hShort := scanToken_length hToken
                have hNext := scanToken_append x hToken
                rw [List.cons_append] at hNext
                rw [hToken] at hGood
                rw [hNext]
                simp only
                rw [ih rest.length (by omega)
                  (fun hBad => hGood
                    (List.mem_cons_of_mem token hBad)) rfl]
                rfl

------------------------------------------------------------
-- Limits
------------------------------------------------------------

def isOverrun : Failure → Bool
| .malformed => false
| .digits => true
| .depth => true

/- What a token does to the number of open values. -/
def openAfter (count : Nat) : Token → Nat
| .openArr => count + 1
| .openObj => count + 1
| .closeArr => count - 1
| .closeObj => count - 1
| _ => count

/- A number is too long, or too much is open already. -/
def overrunsAt (limits : Limits) (count : Nat) : Token → Bool
| .int _ digits => decide (limits.digits < digits.length)
| .openArr => decide (limits.depth ≤ count)
| .openObj => decide (limits.depth ≤ count)
| _ => false

def overruns (limits : Limits) : Nat → List Token → Bool
| _, [] => false
| count, t :: ts =>
    overrunsAt limits count t ||
      overruns limits (openAfter count t) ts

theorem stack_complete
    (value : JsonValue)
    (stack : List Frame) :
    (complete value stack).stack.length = stack.length := by
  cases stack with
  | nil => rfl
  | cons frame frames => cases frame <;> rfl

/- A token that is no start of a value has no limit. -/
structure Moves
    (stack : List Frame)
    (token : Token)
    (s : State) : Prop where
  count : s.stack.length = openAfter stack.length token
  free : ∀ limits count, overrunsAt limits count token = false

section Moving

variable {stack : List Frame}
variable {token : Token}
variable {s : State}

theorem moves_endArr
    (h : endArr token stack = some s) :
    Moves stack token s := by
  unfold endArr at h
  split at h
  · cases h
    exact ⟨stack_complete _ _, fun _ _ => rfl⟩
  · cases h

theorem moves_endObj
    (h : endObj token stack = some s) :
    Moves stack token s := by
  unfold endObj at h
  split at h
  · cases h
    exact ⟨stack_complete _ _, fun _ _ => rfl⟩
  · cases h

theorem moves_takeKey
    (h : takeKey token stack = some s) :
    Moves stack token s := by
  unfold takeKey at h
  split at h
  · cases h
    exact ⟨rfl, fun _ _ => rfl⟩
  · cases h

theorem moves_takeColon
    (h : takeColon token stack = some s) :
    Moves stack token s := by
  unfold takeColon at h
  split at h
  · cases h
    exact ⟨rfl, fun _ _ => rfl⟩
  · cases h

theorem moves_takeComma
    (h : takeComma token stack = some s) :
    Moves stack token s := by
  unfold takeComma at h
  split at h
  · cases h
    exact ⟨rfl, fun _ _ => rfl⟩
  · cases h
    exact ⟨rfl, fun _ _ => rfl⟩
  · cases h

theorem orMalformed_eq_ok_iff {o : Option State} :
    orMalformed o = .ok s ↔ o = some s := by
  cases o with
  | none =>
      exact iff_of_false (fun h => (nomatch h))
        (fun h => (nomatch h))
  | some s' =>
      exact ⟨fun h => congrArg some (Except.ok.inj h),
        fun h => congrArg Except.ok (Option.some.inj h)⟩

end Moving

/-
  A step that is taken under some limits: it is taken under
  others too, or these are overrun.
-/
structure StepsUnder
    (s : State)
    (token : Token)
    (s' : State)
    (step' : Limits → Except Failure State) : Prop where
  count : s'.stack.length = openAfter s.stack.length token
  within : ∀ limits,
    overrunsAt limits s.stack.length token = false →
    step' limits = .ok s'
  beyond : ∀ limits,
    overrunsAt limits s.stack.length token = true →
    ∃ failure, step' limits = .error failure ∧
      isOverrun failure = true

theorem stepsUnder_of_moves
    {s s' : State}
    {token : Token}
    (h : Moves s.stack token s') :
    StepsUnder s token s' (fun _ => .ok s') where
  count := h.count
  within _ _ := rfl
  beyond limits hOver := by
    rw [h.free] at hOver
    cases hOver

theorem startValue_under
    {limits : Limits}
    {stack : List Frame}
    {expect : Expect}
    {token : Token}
    {s' : State}
    (h : startValue limits stack token = .ok s') :
    StepsUnder ⟨stack, expect⟩ token s'
      (fun limits => startValue limits stack token) := by
  have hOpened : ∀ frame expect',
      opened limits stack frame expect' = .ok s' →
      s' = ⟨frame :: stack, expect'⟩ := by
    intro frame expect' hOpen
    unfold opened at hOpen
    split at hOpen
    · cases hOpen
    · exact (Except.ok.inj hOpen).symm
  cases token with
  | null =>
      cases h
      exact ⟨stack_complete _ _, fun _ _ => rfl,
        fun _ hOver => (nomatch hOver)⟩
  | bool b =>
      cases h
      exact ⟨stack_complete _ _, fun _ _ => rfl,
        fun _ hOver => (nomatch hOver)⟩
  | float text =>
      cases h
      exact ⟨stack_complete _ _, fun _ _ => rfl,
        fun _ hOver => (nomatch hOver)⟩
  | str text =>
      cases h
      exact ⟨stack_complete _ _, fun _ _ => rfl,
        fun _ hOver => (nomatch hOver)⟩
  | int negative digits =>
      rw [startValue] at h
      split at h
      · cases h
      · cases h
        refine ⟨stack_complete _ _, ?_, ?_⟩
        · intro limits' hFits
          rw [startValue, if_neg (of_decide_eq_false hFits)]
        · intro limits' hOver
          refine ⟨.digits, ?_, rfl⟩
          rw [startValue, if_pos (of_decide_eq_true hOver)]
  | openArr =>
      rw [hOpened _ _ h]
      refine ⟨rfl, ?_, ?_⟩
      · intro limits' hFits
        exact if_neg (of_decide_eq_false hFits)
      · intro limits' hOver
        exact ⟨.depth, if_pos (of_decide_eq_true hOver), rfl⟩
  | openObj =>
      rw [hOpened _ _ h]
      refine ⟨rfl, ?_, ?_⟩
      · intro limits' hFits
        exact if_neg (of_decide_eq_false hFits)
      · intro limits' hOver
        exact ⟨.depth, if_pos (of_decide_eq_true hOver), rfl⟩
  | closeArr => cases h
  | closeObj => cases h
  | comma => cases h
  | colon => cases h
  | bad => cases h

theorem step_under
    {limits : Limits}
    {s s' : State}
    {token : Token}
    (h : step limits s token = .ok s') :
    StepsUnder s token s' (fun limits => step limits s token) := by
  rcases s with ⟨stack, expect⟩
  cases expect with
  | value => exact startValue_under h
  | valueOrEnd =>
      unfold step at h ⊢
      simp only at h ⊢
      cases hEnd : endArr token stack with
      | none =>
          rw [hEnd] at h
          exact startValue_under h
      | some s'' =>
          rw [hEnd] at h
          cases h
          exact stepsUnder_of_moves (moves_endArr hEnd)
  | keyOrEnd =>
      have hSome := orMalformed_eq_ok_iff.mp h
      have hStep : (fun limits => step limits
          ⟨stack, .keyOrEnd⟩ token) = fun _ => .ok s' :=
        funext fun _ => orMalformed_eq_ok_iff.mpr hSome
      rw [hStep]
      apply stepsUnder_of_moves
      rcases Option.or_eq_some_iff.mp hSome with hEnd | ⟨_, hKey⟩
      · exact moves_endObj hEnd
      · exact moves_takeKey hKey
  | key =>
      have hSome := orMalformed_eq_ok_iff.mp h
      have hStep : (fun limits => step limits
          ⟨stack, .key⟩ token) = fun _ => .ok s' :=
        funext fun _ => orMalformed_eq_ok_iff.mpr hSome
      rw [hStep]
      exact stepsUnder_of_moves (moves_takeKey hSome)
  | colon =>
      have hSome := orMalformed_eq_ok_iff.mp h
      have hStep : (fun limits => step limits
          ⟨stack, .colon⟩ token) = fun _ => .ok s' :=
        funext fun _ => orMalformed_eq_ok_iff.mpr hSome
      rw [hStep]
      exact stepsUnder_of_moves (moves_takeColon hSome)
  | next =>
      have hSome := orMalformed_eq_ok_iff.mp h
      have hStep : (fun limits => step limits
          ⟨stack, .next⟩ token) = fun _ => .ok s' :=
        funext fun _ => orMalformed_eq_ok_iff.mpr hSome
      rw [hStep]
      apply stepsUnder_of_moves
      rcases Option.or_eq_some_iff.mp hSome with
        hEnd | ⟨_, hComma⟩
      · rcases Option.or_eq_some_iff.mp hEnd with
          hArr | ⟨_, hObj⟩
        · exact moves_endArr hArr
        · exact moves_endObj hObj
      · exact moves_takeComma hComma
  | done value => cases h

theorem run_cons
    (limits : Limits)
    (s : State)
    (t : Token)
    (ts : List Token) :
    run limits s (t :: ts) =
      (step limits s t).bind (fun s' => run limits s' ts) :=
  rfl

theorem run_append
    (limits : Limits)
    (s : State)
    (ts us : List Token) :
    run limits s (ts ++ us) =
      (run limits s ts).bind (fun s' => run limits s' us) := by
  unfold run
  rw [List.foldlM_append]
  rfl

/- A run under some limits, and what others make of it. -/
theorem run_of_run
    {limits : Limits}
    {s s' : State}
    {ts : List Token}
    (h : run limits s ts = .ok s')
    (limits' : Limits) :
    (overruns limits' s.stack.length ts = false ∧
      run limits' s ts = .ok s') ∨
    (overruns limits' s.stack.length ts = true ∧
      ∃ failure, run limits' s ts = .error failure ∧
        isOverrun failure = true) := by
  induction ts generalizing s with
  | nil => exact Or.inl ⟨rfl, h⟩
  | cons t ts ih =>
      rw [run_cons] at h
      cases hStep : step limits s t with
      | error failure =>
          rw [hStep] at h
          cases h
      | ok next =>
          rw [hStep] at h
          have hUnder := step_under hStep
          rw [overruns, run_cons]
          cases hOver : overrunsAt limits' s.stack.length t with
          | true =>
              rcases hUnder.beyond limits' hOver with
                ⟨failure, hFailure, hKind⟩
              refine Or.inr ⟨rfl, failure, ?_, hKind⟩
              rw [hFailure]
              rfl
          | false =>
              rw [hUnder.within limits' hOver, Bool.false_or,
                ← hUnder.count]
              exact ih h

/- No bad token is passed. -/
theorem bad_of_run
    {limits : Limits}
    {s s' : State}
    {ts : List Token}
    (h : run limits s ts = .ok s') :
    Token.bad ∉ ts := by
  induction ts generalizing s with
  | nil => exact List.not_mem_nil
  | cons t ts ih =>
      rw [run_cons] at h
      cases hStep : step limits s t with
      | error failure =>
          rw [hStep] at h
          cases h
      | ok next =>
          rw [hStep] at h
          rw [List.mem_cons, not_or]
          refine ⟨?_, ih h⟩
          rintro rfl
          rcases s with ⟨stack, expect⟩
          cases expect <;> cases hStep

------------------------------------------------------------
-- Texts
------------------------------------------------------------

/- A value is read when the last token completes it. -/
theorem loads_eq_ok_iff
    {limits : Limits}
    {v : List Char}
    {value : JsonValue} :
    loads limits v = .ok value ↔
      v.head? ≠ some '\uFEFF' ∧
        ∃ stack, run limits start (lex v) =
          .ok ⟨stack, .done value⟩ := by
  unfold loads
  split
  · rename_i hMark
    exact iff_of_false (fun h => (nomatch h))
      (fun h => h.1 hMark)
  · rename_i hMark
    refine Iff.trans ?_ (and_iff_right hMark).symm
    cases hRun : run limits start (lex v) with
    | error failure =>
        refine iff_of_false (fun h => (nomatch h)) ?_
        rintro ⟨stack, hStack⟩
        cases hStack
    | ok s =>
        rcases s with ⟨stack, expect⟩
        cases expect with
        | done found =>
            constructor
            · intro h
              cases h
              exact ⟨stack, rfl⟩
            · rintro ⟨stack', hStack⟩
              cases hStack
              rfl
        | _ =>
            refine iff_of_false (fun h => (nomatch h)) ?_
            rintro ⟨stack', hStack⟩
            cases hStack

theorem loads_of_run_error
    {limits : Limits}
    {v : List Char}
    {failure : Failure}
    (hMark : v.head? ≠ some '\uFEFF')
    (hRun : run limits start (lex v) = .error failure) :
    loads limits v = .error failure := by
  unfold loads
  rw [if_neg hMark, hRun]

theorem lex_ne_nil
    {v : List Char}
    (h : ∃ c ∈ v, isBlank c = false) :
    lex v ≠ [] := by
  rw [lex_eq]
  rcases h with ⟨c, hMem, hSolid⟩
  have hSome : v.dropWhile isBlank ≠ [] := by
    intro hNil
    have hAll := List.dropWhile_eq_nil_iff.mp hNil c hMem
    rw [hSolid] at hAll
    cases hAll
  cases hRest : v.dropWhile isBlank with
  | nil => exact absurd hRest hSome
  | cons d ds =>
      simp only
      cases scanToken (d :: ds) with
      | none => exact List.cons_ne_nil _ _
      | some found => exact List.cons_ne_nil _ _

section Valid

variable {limits₀ : Limits}
variable {u : List Char}
variable {value : JsonValue}
variable (h : loads limits₀ u = .ok value)
include h

/- A text that is valid under some limits, under others. -/
theorem loads_iff_overruns (limits : Limits) :
    (overruns limits 0 (lex u) = false ∧
      loads limits u = .ok value) ∨
    (overruns limits 0 (lex u) = true ∧
      ∃ failure, loads limits u = .error failure ∧
        isOverrun failure = true) := by
  rcases loads_eq_ok_iff.mp h with ⟨hMark, stack, hRun⟩
  rcases run_of_run hRun limits with
    ⟨hFits, hSame⟩ | ⟨hOver, failure, hFailure, hKind⟩
  · exact Or.inl ⟨hFits,
      loads_eq_ok_iff.mpr ⟨hMark, stack, hSame⟩⟩
  · exact Or.inr ⟨hOver, failure,
      loads_of_run_error hMark hFailure, hKind⟩

/- With more on the next line it is valid under none. -/
theorem loads_append
    {x : List Char}
    (hMore : ∃ c ∈ x, isBlank c = false)
    (limits : Limits) :
    (overruns limits 0 (lex u) = false ∧
      loads limits (u ++ '\n' :: x) = .error .malformed) ∨
    (overruns limits 0 (lex u) = true ∧
      ∃ failure, loads limits (u ++ '\n' :: x) =
        .error failure ∧ isOverrun failure = true) := by
  rcases loads_eq_ok_iff.mp h with ⟨hMark, stack, hRun⟩
  have hLex := lex_append (bad_of_run hRun) x
  have hMark' : (u ++ '\n' :: x).head? ≠ some '\uFEFF' := by
    cases u with
    | nil =>
        rintro hEq
        cases hEq
    | cons c cs => exact hMark
  rcases run_of_run hRun limits with
    ⟨hFits, hSame⟩ | ⟨hOver, failure, hFailure, hKind⟩
  · refine Or.inl ⟨hFits, loads_of_run_error hMark' ?_⟩
    rw [hLex, run_append, hSame]
    cases hNext : lex x with
    | nil => exact absurd hNext (lex_ne_nil hMore)
    | cons t ts => rfl
  · refine Or.inr ⟨hOver, failure,
      loads_of_run_error hMark' ?_, hKind⟩
    rw [hLex, run_append, hFailure]
    rfl

end Valid

------------------------------------------------------------
-- Long Numbers
------------------------------------------------------------

/- Digits are one token, whatever their number. -/
theorem scanNumber_digits
    {c d : Char}
    {ds rest : List Char}
    (hFirst : c.isDigit = true)
    (hZero : c ≠ '0')
    (hDigits : ∀ x ∈ ds, x.isDigit = true)
    (hStop : d.isDigit = false)
    (hPoint : d ≠ '.')
    (hExponent : isExponentSign d = false) :
    scanNumber (c :: ds ++ d :: rest) =
      some (.int false (c :: ds), d :: rest) := by
  have hMinus : scanMinus (c :: ds ++ d :: rest) =
      (false, c :: ds ++ d :: rest) := by
    rw [List.cons_append]
    unfold scanMinus
    split
    · rename_i hEq
      cases hEq
      exact absurd hFirst (by decide)
    · rfl
  have hTake : (ds ++ d :: rest).takeWhile Char.isDigit = ds := by
    rw [takeWhile_stop hStop, List.takeWhile_eq_self_iff]
    exact hDigits
  have hDrop : (ds ++ d :: rest).dropWhile Char.isDigit =
      d :: rest := by
    rw [dropWhile_stop hStop, List.dropWhile_eq_nil_iff.mpr
      hDigits, List.nil_append]
  have hWhole : scanWhole (c :: ds ++ d :: rest) =
      some (c :: ds, d :: rest) := by
    rw [List.cons_append, scanWhole, if_neg hZero, if_pos hFirst,
      hTake, hDrop]
  have hFraction : scanFraction (d :: rest) = ([], d :: rest) := by
    unfold scanFraction
    split
    · rename_i hEq
      cases hEq
      exact absurd rfl hPoint
    · rfl
  have hPower : scanExponent (d :: rest) = ([], d :: rest) := by
    rw [scanExponent, hExponent]
    rfl
  unfold scanNumber
  rw [hMinus]
  simp only
  rw [hWhole]
  simp only
  rw [hFraction]
  simp only
  rw [hPower]
  rfl

end JsonReader
