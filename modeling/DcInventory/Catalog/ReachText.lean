import DcInventory.Catalog.Normalization
import DcInventory.Core.UnicodeWords
import DcInventory.Library.Spacing

/-
  This file proves that the distance of a text depends on the
  words of the text only.

  Key theorems include:
    * `words_cleanText`
    * `reachOf_alike`
    * `normalizeReach_congr`
-/

------------------------------------------------------------
-- Clean Texts
------------------------------------------------------------

namespace Text

theorem isSpace_of_isLineBreak
    {c : Char}
    (h : isLineBreak c = true) :
    isSpace c = true := by
  simp only [isLineBreak, Bool.or_eq_true, Bool.and_eq_true,
    decide_eq_true_eq, beq_iff_eq] at h
  simp only [isSpace, Bool.or_eq_true, Bool.and_eq_true,
    decide_eq_true_eq, beq_iff_eq]
  omega

/- The words of the lines are the words of the text. -/
theorem words_splitlinesFrom (line v : Text) :
    (splitlinesFrom line v).flatMap (Words.split isSpace) =
      Words.split isSpace (line.reverse ++ v) := by
  induction line, v using splitlinesFrom.induct with
  | case1 => rfl
  | case2 line hSome =>
      rw [splitlinesFrom, if_neg hSome]
      simp
  | case3 line cs ih =>
      have hReturn : isSpace '\r' = true := by decide
      have hFeed : isSpace '\n' = true := by decide
      rw [splitlinesFrom, List.flatMap_cons, ih,
        Words.split_append hReturn, Words.split_cons hFeed]
      rfl
  | case4 line c cs hLine hBreak ih =>
      rw [splitlinesFrom, if_pos hBreak, List.flatMap_cons, ih,
        Words.split_append (isSpace_of_isLineBreak hBreak)]
      · rfl
      · exact hLine
  | case5 line c cs hLine hBreak ih =>
      rw [splitlinesFrom, if_neg hBreak, ih]
      · simp
      · exact hLine

/- A line that was begun is the first. -/
theorem splitlinesFrom_eq_cons
    {line v : Text}
    (hSome : line ≠ []) :
    ∃ tail lines, splitlinesFrom line v =
      (line.reverse ++ tail) :: lines := by
  induction line, v using splitlinesFrom.induct with
  | case1 => exact absurd rfl hSome
  | case2 line _ =>
      refine ⟨[], [], ?_⟩
      rw [splitlinesFrom, if_neg hSome, List.append_nil]
  | case3 line cs ih =>
      refine ⟨[], splitlinesFrom [] cs, ?_⟩
      rw [splitlinesFrom, List.append_nil]
  | case4 line c cs hLine hBreak ih =>
      refine ⟨[], splitlinesFrom [] cs, ?_⟩
      rw [splitlinesFrom, if_pos hBreak, List.append_nil]
      exact hLine
  | case5 line c cs hLine hBreak ih =>
      rcases ih (List.cons_ne_nil c line) with
        ⟨tail, lines, hEq⟩
      refine ⟨c :: tail, lines, ?_⟩
      rw [splitlinesFrom, if_neg hBreak, hEq]
      · simp
      · exact hLine

end Text

/- Cleaning keeps the words. -/
theorem words_cleanText (v : Text) :
    Words.split Text.isSpace (cleanText v) =
      Words.split Text.isSpace v := by
  have hFeed : Text.isSpace '\n' = true := by decide
  unfold cleanText
  rw [Words.split_join_flatMap hFeed, List.flatMap_map]
  have hLines : (fun line => Words.split Text.isSpace
      (Text.normalize line)) = Words.split Text.isSpace :=
    funext Text.words_normalize
  rw [hLines]
  calc (Text.splitlines (Text.strip v)).flatMap
        (Words.split Text.isSpace)
      = Words.split Text.isSpace (Text.strip v) :=
        Text.words_splitlinesFrom [] (Text.strip v)
    _ = Words.split Text.isSpace v := Words.split_strip v

/- A text that begins with a word is normalised to one. -/
theorem normalize_head
    {c : Char}
    {cs : Text}
    (hc : Text.isSpace c = false) :
    ∃ d ds, Text.normalize (c :: cs) = d :: ds ∧
      Text.isSpace d = false := by
  cases hNorm : Text.normalize (c :: cs) with
  | nil =>
      have hAll := Text.normalize_eq_nil_iff.mp hNorm c
        List.mem_cons_self
      rw [hc] at hAll
      cases hAll
  | cons d ds =>
      refine ⟨d, ds, rfl, ?_⟩
      have hTrimmed : Words.Trimmed Text.isSpace
          (Text.normalize (c :: cs)) := by
        rw [Text.normalize_eq]
        exact Words.trimmed_join fun _ hw =>
          Words.isWord_of_mem_split hw
      exact hTrimmed.head d (by rw [hNorm]; rfl)

/- A clean text begins with a word. -/
theorem dropWhile_cleanText (v : Text) :
    (cleanText v).dropWhile Text.isSpace = cleanText v := by
  apply Words.dropWhile_eq_self
  intro c hHead
  cases hStrip : Text.strip v with
  | nil =>
      unfold cleanText at hHead
      rw [hStrip] at hHead
      cases hHead
  | cons d ds =>
      have hd : Text.isSpace d = false := by
        apply (Words.trimmed_strip (p := Text.isSpace) v).head d
        rw [← Text.strip_eq, hStrip]
        rfl
      have hLines : ∃ tail lines, Text.splitlines (d :: ds) =
          (d :: tail) :: lines := by
        have hFirst : ∃ tail lines,
            Text.splitlinesFrom [d] ds =
              ([d].reverse ++ tail) :: lines :=
          Text.splitlinesFrom_eq_cons (List.cons_ne_nil d [])
        have hNoBreak : Text.isLineBreak d = false := by
          by_contra hBreak
          rw [Text.isSpace_of_isLineBreak
            (by simpa using hBreak)] at hd
          cases hd
        rcases hFirst with ⟨tail, lines, hEq⟩
        refine ⟨tail, lines, ?_⟩
        rw [Text.splitlines, Text.splitlinesFrom,
          if_neg (by simp [hNoBreak]), hEq]
        · rfl
        · intro cs hReturn
          rw [hReturn] at hNoBreak
          exact absurd hNoBreak (by decide)
      rcases hLines with ⟨tail, lines, hEq⟩
      have hFirst : ∃ e es,
          Text.normalize (d :: tail) = e :: es ∧
            Text.isSpace e = false := normalize_head hd
      rcases hFirst with ⟨e, es, hNorm, he⟩
      unfold cleanText at hHead
      rw [hStrip, hEq, List.map_cons, hNorm] at hHead
      cases lines with
      | nil =>
          cases hHead
          exact he
      | cons line lines =>
          cases hHead
          exact he

/- Clean texts with the same words are alike. -/
theorem alike_cleanText
    {v w : Text}
    (h : Words.split Text.isSpace v =
      Words.split Text.isSpace w) :
    Words.Alike Text.isSpace (cleanText v) (cleanText w) := by
  have hWords : Words.split Text.isSpace (cleanText v) =
      Words.split Text.isSpace (cleanText w) := by
    rw [words_cleanText, words_cleanText, h]
  have hAlike := Words.alike_of_split hWords
  rw [dropWhile_cleanText, dropWhile_cleanText] at hAlike
  exact hAlike

------------------------------------------------------------
-- Reading
------------------------------------------------------------

section Reading

variable {U : Unicode}

/- What is read from texts that are alike. -/
def ReadsAlike {α : Type} :
    Option (α × Text) → Option (α × Text) → Prop :=
  Option.Rel (fun x y => x.1 = y.1 ∧
    Words.Alike Text.isSpace x.2 y.2)

theorem ReadsAlike.map
    {α β : Type}
    {x y : Option (α × Text)}
    (h : ReadsAlike x y)
    (f : α → β) :
    ReadsAlike (x.map (fun z => (f z.1, z.2)))
      (y.map (fun z => (f z.1, z.2))) := by
  cases h with
  | none => exact .none
  | some hSame => exact .some ⟨congrArg f hSame.1, hSame.2⟩

theorem Unicode.Lawful.isDigit_solid
    (h : U.Lawful)
    (c : Char)
    (hc : U.isDigit c = true) :
    Text.isSpace c = false := by
  apply h.digit_solid
  intro hNone
  rw [Unicode.isDigit, hNone] at hc
  cases hc

theorem readDistanceFraction_space
    {c : Char}
    {cs : Text}
    (hc : Text.isSpace c = true) :
    readDistanceFraction U (c :: cs) = ([], c :: cs) := by
  have hPoint : ¬ (c = '.' ∨ c = ',') := by
    rintro (rfl | rfl)
    · exact absurd hc (by decide)
    · exact absurd hc (by decide)
  unfold readDistanceFraction
  simp only [hPoint, false_and, if_false]

/- The digits after a point, and what follows them. -/
theorem readDistanceFraction_cons (c : Char) (cs : Text) :
    readDistanceFraction U (c :: cs) =
      if (c = '.' ∨ c = ',') ∧ cs.takeWhile U.isDigit ≠ [] then
        (cs.takeWhile U.isDigit, cs.dropWhile U.isDigit)
      else ([], c :: cs) := by
  simp only [readDistanceFraction,
    List.span_eq_takeWhile_dropWhile]

theorem readDistanceFraction_alike
    (h : U.Lawful)
    {v w : Text}
    (hAlike : Words.Alike Text.isSpace v w) :
    (readDistanceFraction U v).1 =
        (readDistanceFraction U w).1 ∧
      Words.Alike Text.isSpace (readDistanceFraction U v).2
        (readDistanceFraction U w).2 := by
  have hSpaces : ∀ r : Text,
      (∀ c ∈ r, Text.isSpace c = true) →
      readDistanceFraction U r = ([], r) := by
    intro r hr
    cases r with
    | nil => rfl
    | cons c cs =>
        exact readDistanceFraction_space
          (hr c List.mem_cons_self)
  cases hAlike with
  | ends hr hr' =>
      rw [hSpaces _ hr, hSpaces _ hr']
      exact ⟨rfl, .ends hr hr'⟩
  | @solid c v w hc hRest =>
      rcases hRest.takeWhile h.isDigit_solid with ⟨hTake, hDrop⟩
      rw [readDistanceFraction_cons, readDistanceFraction_cons,
        hTake]
      split
      · exact ⟨rfl, hDrop⟩
      · exact ⟨rfl, .solid hc hRest⟩
  | @space c c' r r' v w hr hr' hRest =>
      rw [readDistanceFraction_space (hr c List.mem_cons_self),
        readDistanceFraction_space (hr' c' List.mem_cons_self)]
      exact ⟨rfl, .space hr hr' hRest⟩

/- The unit is one of two prefixes. -/
theorem readDistanceUnit_eq (v : Text) :
    readDistanceUnit U v =
      if "км".toList.isPrefixOf v then
        if U.isBoundary (some 'м') (v.drop 2).head? then
          some (true, v.drop 2)
        else none
      else if "м".toList.isPrefixOf v then
        if U.isBoundary (some 'м') (v.drop 1).head? then
          some (false, v.drop 1)
        else none
      else none := by
  have hKilo : "км".toList = ['к', 'м'] := by decide
  have hMetre : "м".toList = ['м'] := by decide
  rw [hKilo, hMetre]
  unfold readDistanceUnit
  split
  · rfl
  · rfl
  · rename_i hKm hM
    have hNotKm : ['к', 'м'].isPrefixOf v = false := by
      rw [Bool.eq_false_iff]
      intro hPrefix
      rcases List.isPrefixOf_iff_prefix.mp hPrefix with
        ⟨cs, rfl⟩
      exact hKm cs rfl
    have hNotM : ['м'].isPrefixOf v = false := by
      rw [Bool.eq_false_iff]
      intro hPrefix
      rcases List.isPrefixOf_iff_prefix.mp hPrefix with
        ⟨cs, rfl⟩
      exact hM cs rfl
    rw [hNotKm, hNotM]
    rfl

/- Texts that are alike have boundaries at the same places. -/
theorem isBoundary_alike
    (h : U.Lawful)
    (prev : Option Char)
    {v w : Text}
    (hAlike : Words.Alike Text.isSpace v w) :
    U.isBoundary prev v.head? = U.isBoundary prev w.head? := by
  unfold Unicode.isBoundary
  rw [hAlike.head h.word_solid]

theorem readDistanceUnit_alike
    (h : U.Lawful)
    {v w : Text}
    (hAlike : Words.Alike Text.isSpace v w) :
    ReadsAlike (readDistanceUnit U v)
      (readDistanceUnit U w) := by
  have hUnit : ∀ u : Text, ∀ b : Bool,
      u.isPrefixOf v = true →
      (∀ c ∈ u, Text.isSpace c = false) →
      ReadsAlike
        (if U.isBoundary (some 'м') (v.drop u.length).head? then
          some (b, v.drop u.length)
        else none)
        (if U.isBoundary (some 'м') (w.drop u.length).head? then
          some (b, w.drop u.length)
        else none) := by
    intro u b hPrefix hu
    have hRest := (hAlike.leads hu).2 hPrefix
    rw [isBoundary_alike h _ hRest]
    split
    · exact .some ⟨rfl, hRest⟩
    · exact .none
  have hKilo : ∀ c ∈ "км".toList, Text.isSpace c = false :=
    Words.forall_of_all (by decide)
  have hMetre : ∀ c ∈ "м".toList, Text.isSpace c = false :=
    Words.forall_of_all (by decide)
  rw [readDistanceUnit_eq, readDistanceUnit_eq,
    ← (hAlike.leads hKilo).1, ← (hAlike.leads hMetre).1]
  by_cases hKm : "км".toList.isPrefixOf v = true
  · rw [if_pos hKm, if_pos hKm]
    exact hUnit _ true hKm hKilo
  · rw [if_neg hKm, if_neg hKm]
    by_cases hM : "м".toList.isPrefixOf v = true
    · rw [if_pos hM, if_pos hM]
      exact hUnit _ false hM hMetre
    · rw [if_neg hM, if_neg hM]
      exact .none

/- A distance, in the parts that are read. -/
theorem readDistance_eq (v : Text) :
    readDistance U v =
      if v.takeWhile U.isDigit = [] then none
      else
        (readDistanceUnit U ((readDistanceFraction U
          (v.dropWhile U.isDigit)).2.dropWhile
            Text.isSpace)).map (fun x =>
              (⟨v.takeWhile U.isDigit, (readDistanceFraction U
                (v.dropWhile U.isDigit)).1, x.1⟩, x.2)) := by
  unfold readDistance
  simp only [List.span_eq_takeWhile_dropWhile]
  split
  · rfl
  · cases readDistanceUnit U (List.dropWhile Text.isSpace
      (readDistanceFraction U
        (v.dropWhile U.isDigit)).2) with
    | none => rfl
    | some x => rfl

theorem readDistance_alike
    (h : U.Lawful)
    {v w : Text}
    (hAlike : Words.Alike Text.isSpace v w) :
    ReadsAlike (readDistance U v) (readDistance U w) := by
  rcases hAlike.takeWhile h.isDigit_solid with ⟨hTake, hDrop⟩
  rcases readDistanceFraction_alike h hDrop with
    ⟨hFraction, hRest⟩
  have hUnit := readDistanceUnit_alike h hRest.dropWhile
  rw [readDistance_eq, readDistance_eq, hTake, hFraction]
  split
  · exact .none
  · exact hUnit.map (fun b =>
      Distance.mk (w.takeWhile U.isDigit)
        (readDistanceFraction U (w.dropWhile U.isDigit)).1 b)

/- Nothing is read at white space. -/
theorem readDistance_space
    (h : U.Lawful)
    {c : Char}
    {cs : Text}
    (hc : Text.isSpace c = true) :
    readDistance U (c :: cs) = none := by
  have hNo : U.isDigit c = false := by
    rw [Bool.eq_false_iff]
    intro hDigit
    rw [h.isDigit_solid c hDigit] at hc
    cases hc
  rw [readDistance_eq, if_pos]
  rw [List.takeWhile_cons, hNo]
  rfl

theorem readDistanceFraction_length (v : Text) :
    (readDistanceFraction U v).2.length ≤ v.length := by
  cases v with
  | nil => exact Nat.le_refl 0
  | cons c cs =>
      rw [readDistanceFraction_cons]
      split
      · have hDrop := (List.dropWhile_suffix U.isDigit
          (l := cs)).length_le
        exact Nat.le_succ_of_le hDrop
      · exact Nat.le_refl _

theorem readDistanceUnit_length
    {v rest : Text}
    {b : Bool}
    (hRead : readDistanceUnit U v = some (b, rest)) :
    rest.length ≤ v.length := by
  rw [readDistanceUnit_eq] at hRead
  have hDrop : ∀ n, (v.drop n).length ≤ v.length := fun n => by
    rw [List.length_drop]
    omega
  split at hRead
  · split at hRead
    · cases hRead
      exact hDrop 2
    · cases hRead
  · split at hRead
    · split at hRead
      · cases hRead
        exact hDrop 1
      · cases hRead
    · cases hRead

/- What is read is not read again. -/
theorem readDistance_length
    {v rest : Text}
    {distance : Distance}
    (hRead : readDistance U v = some (distance, rest)) :
    rest.length < v.length := by
  rw [readDistance_eq] at hRead
  split at hRead
  · cases hRead
  · rename_i hSome
    rcases Option.map_eq_some_iff.mp hRead with ⟨x, hUnit, hEq⟩
    cases hEq
    have hAll := congrArg List.length
      (List.takeWhile_append_dropWhile
        (p := U.isDigit) (l := v))
    have hDigits := List.length_pos_of_ne_nil hSome
    have hFraction := readDistanceFraction_length (U := U)
      (v.dropWhile U.isDigit)
    have hSpaces := (List.dropWhile_suffix Text.isSpace
      (l := (readDistanceFraction U
        (v.dropWhile U.isDigit)).2)).length_le
    have hRest := readDistanceUnit_length hUnit
    rw [List.length_append] at hAll
    omega

------------------------------------------------------------
-- Scanning
------------------------------------------------------------

/- More fuel than there are characters changes nothing. -/
theorem scanDistancesFrom_eq
    {fuel : Nat}
    {v : Text}
    (hFuel : v.length ≤ fuel) :
    scanDistancesFrom U fuel v = scanDistances U v := by
  have hAll : ∀ n, ∀ w : Text, w.length ≤ n →
      ∀ m, w.length ≤ m →
      scanDistancesFrom U n w = scanDistancesFrom U m w := by
    intro n
    induction n with
    | zero =>
        intro w hw m _
        rw [List.length_eq_zero_iff.mp (Nat.le_zero.mp hw)]
        cases m <;> rfl
    | succ n ih =>
        intro w hw m hm
        cases w with
        | nil => cases m <;> rfl
        | cons c cs =>
            cases m with
            | zero => simp at hm
            | succ m =>
                rw [List.length_cons] at hw hm
                simp only [scanDistancesFrom]
                cases hRead : readDistance U (c :: cs) with
                | none =>
                    have hTail := ih cs (by omega) m (by omega)
                    simp only [hTail]
                | some x =>
                    have hShort := readDistance_length hRead
                    rw [List.length_cons] at hShort
                    have hRest := ih x.2 (by omega) m (by omega)
                    simp only [hRest]
  exact hAll fuel v hFuel v.length (Nat.le_refl _)

theorem scanDistances_some
    {v rest : Text}
    {distance : Distance}
    (hRead : readDistance U v = some (distance, rest)) :
    scanDistances U v = (distance :: (scanDistances U rest).1,
      (scanDistances U rest).2) := by
  have hShort := readDistance_length hRead
  cases v with
  | nil => simp at hShort
  | cons c cs =>
      rw [List.length_cons] at hShort
      have hRest : scanDistancesFrom U cs.length rest =
          scanDistances U rest :=
        scanDistancesFrom_eq (by omega)
      rw [scanDistances]
      simp only [List.length_cons, scanDistancesFrom, hRead,
        hRest]

theorem scanDistances_none
    {c : Char}
    {cs : Text}
    (hRead : readDistance U (c :: cs) = none) :
    scanDistances U (c :: cs) = ((scanDistances U cs).1,
      c :: (scanDistances U cs).2) := by
  rw [scanDistances]
  simp only [List.length_cons, scanDistancesFrom, hRead]
  rfl

/- White space is kept. -/
theorem scanDistances_spaces
    (h : U.Lawful)
    {r : Text}
    (hr : ∀ c ∈ r, Text.isSpace c = true)
    (v : Text) :
    scanDistances U (r ++ v) = ((scanDistances U v).1,
      r ++ (scanDistances U v).2) := by
  induction r with
  | nil => rfl
  | cons c cs ih =>
      have hTail := ih fun d hd =>
        hr d (List.mem_cons_of_mem c hd)
      rw [List.cons_append, scanDistances_none
        (readDistance_space h (hr c List.mem_cons_self)), hTail]
      rfl

/- Texts that are alike have the same distances. -/
theorem scanDistances_alike
    (h : U.Lawful)
    {v w : Text}
    (hAlike : Words.Alike Text.isSpace v w) :
    (scanDistances U v).1 = (scanDistances U w).1 ∧
      Words.Alike Text.isSpace (scanDistances U v).2
        (scanDistances U w).2 := by
  induction hLength : v.length using Nat.strong_induction_on
    generalizing v w with
  | _ n ih =>
    cases hAlike with
    | ends hr hr' =>
        have hLeft := scanDistances_spaces (U := U) h hr []
        have hRight := scanDistances_spaces (U := U) h hr' []
        rw [List.append_nil] at hLeft hRight
        rw [hLeft, hRight]
        refine ⟨rfl, .ends ?_ ?_⟩
        · exact fun c hc => hr c (by
            simpa [scanDistances, scanDistancesFrom] using hc)
        · exact fun c hc => hr' c (by
            simpa [scanDistances, scanDistancesFrom] using hc)
    | @solid c v w hc hRest =>
        have hRead := readDistance_alike h (.solid hc hRest)
        rw [List.length_cons] at hLength
        cases hV : readDistance U (c :: v) with
        | none =>
            cases hW : readDistance U (c :: w) with
            | some y =>
                rw [hV, hW] at hRead
                cases hRead
            | none =>
                rcases ih v.length (by omega) hRest rfl with
                  ⟨hFound, hAfter⟩
                rw [scanDistances_none hV, scanDistances_none hW]
                exact ⟨hFound, .solid hc hAfter⟩
        | some x =>
            cases hW : readDistance U (c :: w) with
            | none =>
                rw [hV, hW] at hRead
                cases hRead
            | some y =>
                rw [hV, hW] at hRead
                cases hRead with
                | some hSame =>
                    have hShort := readDistance_length hV
                    rw [List.length_cons] at hShort
                    rcases ih x.2.length (by omega) hSame.2 rfl
                      with ⟨hFound, hAfter⟩
                    rw [scanDistances_some hV,
                      scanDistances_some hW]
                    exact ⟨List.cons_eq_cons.mpr
                      ⟨hSame.1, hFound⟩, hAfter⟩
    | @space c c' r r' v w hr hr' hRest =>
        rw [List.length_cons, List.length_append] at hLength
        rcases ih v.length (by omega) hRest rfl with
          ⟨hFound, hAfter⟩
        rw [← List.cons_append, ← List.cons_append,
          scanDistances_spaces h hr, scanDistances_spaces h hr']
        exact ⟨hFound, .space hr hr' hAfter⟩

------------------------------------------------------------
-- Qualifiers
------------------------------------------------------------

theorem reachQualifiers_solid :
    ∀ q ∈ reachQualifiers,
      q ≠ [] ∧ ∀ c ∈ q, Text.isSpace c = false := by
  have hAll : reachQualifiers.all (fun q =>
      !q.isEmpty && q.all (fun c => !Text.isSpace c)) =
        true := by
    decide
  intro q hq
  have hEach := List.all_eq_true.mp hAll q hq
  rw [Bool.and_eq_true, List.all_eq_true] at hEach
  refine ⟨by simpa using hEach.1, ?_⟩
  exact fun c hc => by simpa using hEach.2 c hc

theorem readQualifier_some
    {v q rest : Text}
    (hRead : readQualifier U v = some (q, rest)) :
    q ∈ reachQualifiers ∧ q.isPrefixOf v = true ∧
      rest = v.drop q.length := by
  unfold readQualifier at hRead
  rcases Option.map_eq_some_iff.mp hRead with ⟨q', hFind, hEq⟩
  cases hEq
  have hHolds := List.find?_some hFind
  rw [Bool.and_eq_true] at hHolds
  exact ⟨List.mem_of_find?_eq_some hFind, hHolds.1, rfl⟩

theorem readQualifier_length
    {v q rest : Text}
    (hRead : readQualifier U v = some (q, rest)) :
    rest.length < v.length := by
  rcases readQualifier_some hRead with ⟨hq, hPrefix, rfl⟩
  have hPos := List.length_pos_of_ne_nil
    (reachQualifiers_solid q hq).1
  have hLe := (List.isPrefixOf_iff_prefix.mp
    hPrefix).length_le
  rw [List.length_drop]
  omega

theorem readQualifier_alike
    (h : U.Lawful)
    {v w : Text}
    (hAlike : Words.Alike Text.isSpace v w) :
    ReadsAlike (readQualifier U v) (readQualifier U w) := by
  have hFind : ∀ qs : List Text,
      (∀ q ∈ qs, q ∈ reachQualifiers) →
      qs.find? (fun q => q.isPrefixOf v &&
        U.isBoundary q.getLast? (v.drop q.length).head?) =
      qs.find? (fun q => q.isPrefixOf w &&
        U.isBoundary q.getLast? (w.drop q.length).head?) := by
    intro qs hqs
    induction qs with
    | nil => rfl
    | cons q qs ih =>
        have hSolid := (reachQualifiers_solid q
          (hqs q List.mem_cons_self)).2
        rcases hAlike.leads hSolid with ⟨hSame, hRest⟩
        have hTail := ih fun q' hq' =>
          hqs q' (List.mem_cons_of_mem q hq')
        rw [List.find?_cons, List.find?_cons, ← hSame, hTail]
        cases hPrefix : q.isPrefixOf v with
        | false => rfl
        | true => rw [isBoundary_alike h _ (hRest hPrefix)]
  have hSame := hFind reachQualifiers fun q hq => hq
  cases hV : readQualifier U v with
  | none =>
      have hW : readQualifier U w = none := by
        unfold readQualifier at hV ⊢
        rw [← hSame]
        exact Option.map_eq_none_iff.mpr
          (Option.map_eq_none_iff.mp hV)
      rw [hW]
      exact .none
  | some x =>
      rcases x with ⟨q, rest⟩
      rcases readQualifier_some hV with ⟨hq, hPrefix, rfl⟩
      have hW : readQualifier U w =
          some (q, w.drop q.length) := by
        unfold readQualifier at hV ⊢
        rw [← hSame]
        rcases Option.map_eq_some_iff.mp hV with
          ⟨q', hQ, hEq⟩
        rw [hQ]
        cases hEq
        rfl
      rw [hW]
      exact .some ⟨rfl, (hAlike.leads
        (reachQualifiers_solid q hq).2).2 hPrefix⟩

/- Nothing is read at white space. -/
theorem readQualifier_space
    {c : Char}
    {cs : Text}
    (hc : Text.isSpace c = true) :
    readQualifier U (c :: cs) = none := by
  cases hRead : readQualifier U (c :: cs) with
  | none => rfl
  | some x =>
      rcases readQualifier_some hRead with ⟨hq, hPrefix, _⟩
      rcases reachQualifiers_solid x.1 hq with ⟨hNe, hSolid⟩
      cases hCase : x.1 with
      | nil => exact absurd hCase hNe
      | cons d ds =>
          rw [hCase] at hPrefix hSolid
          have hHead : d = c := by
            simp only [List.isPrefixOf, Bool.and_eq_true,
              beq_iff_eq] at hPrefix
            exact hPrefix.1
          have hd := hSolid d List.mem_cons_self
          rw [hHead, hc] at hd
          cases hd

/- The qualifier at a position, if a word may begin there. -/
def qualifierAt
    (U : Unicode)
    (prev : Option Char)
    (c : Char)
    (cs : Text) : Option (Text × Text) :=
  if U.isBoundary prev (some c) then
    readQualifier U (c :: cs)
  else none

theorem removeQualifiersFrom_succ
    (fuel : Nat)
    (prev : Option Char)
    (c : Char)
    (cs : Text) :
    removeQualifiersFrom U (fuel + 1) prev (c :: cs) =
      match qualifierAt U prev c cs with
      | some (q, rest) =>
          removeQualifiersFrom U fuel q.getLast? rest
      | none =>
          c :: removeQualifiersFrom U fuel (some c) cs := by
  rfl

theorem qualifierAt_length
    {prev : Option Char}
    {c : Char}
    {cs q rest : Text}
    (hRead : qualifierAt U prev c cs = some (q, rest)) :
    rest.length ≤ cs.length := by
  unfold qualifierAt at hRead
  split at hRead
  · have hShort := readQualifier_length hRead
    rw [List.length_cons] at hShort
    omega
  · cases hRead

/- Nothing but punctuation is left, when all is removed. -/
def leavesPunctuation
    (U : Unicode)
    (fuel : Nat)
    (prev : Option Char)
    (v : Text) : Bool :=
  (removeQualifiersFrom U fuel prev v).all isReachPunctuation

theorem leavesPunctuation_space
    {fuel : Nat}
    {prev : Option Char}
    {c : Char}
    {cs : Text}
    (hc : Text.isSpace c = true) :
    leavesPunctuation U (fuel + 1) prev (c :: cs) =
      leavesPunctuation U fuel (some c) cs := by
  have hNone : qualifierAt U prev c cs = none := by
    unfold qualifierAt
    rw [readQualifier_space hc]
    exact ite_self none
  have hPunctuation : isReachPunctuation c = true := by
    rw [isReachPunctuation, hc]
    rfl
  unfold leavesPunctuation
  rw [removeQualifiersFrom_succ, hNone]
  simp only [List.all_cons, hPunctuation, Bool.true_and]

/- White space does not matter where a word has ended. -/
theorem leavesPunctuation_spaces
    (h : U.Lawful)
    {r : Text}
    (hr : ∀ c ∈ r, Text.isSpace c = true)
    (hSome : r ≠ [])
    (fuel : Nat)
    (prev : Option Char)
    (v : Text) :
    ∃ c, U.word c = false ∧
      leavesPunctuation U (r.length + fuel) prev (r ++ v) =
        leavesPunctuation U fuel (some c) v := by
  induction r generalizing prev with
  | nil => exact absurd rfl hSome
  | cons c cs ih =>
      have hc := hr c List.mem_cons_self
      have hStep : leavesPunctuation U
          ((c :: cs).length + fuel) prev (c :: cs ++ v) =
            leavesPunctuation U (cs.length + fuel) (some c)
              (cs ++ v) := by
        have hFuel : (c :: cs).length + fuel =
            cs.length + fuel + 1 := by
          rw [List.length_cons]
          omega
        rw [hFuel, List.cons_append]
        exact leavesPunctuation_space hc
      cases cs with
      | nil =>
          refine ⟨c, ?_, ?_⟩
          · rw [Bool.eq_false_iff]
            intro hWord
            rw [h.word_solid c hWord] at hc
            cases hc
          · rw [hStep]
            simp
      | cons d ds =>
          rcases ih (fun e he =>
            hr e (List.mem_cons_of_mem c he))
              (List.cons_ne_nil d ds) (some c) with
                ⟨e, hWord, hEq⟩
          exact ⟨e, hWord, hStep.trans hEq⟩

/- More fuel than there are characters changes nothing. -/
theorem leavesPunctuation_fuel
    {n m : Nat}
    {prev : Option Char}
    {v : Text}
    (hn : v.length ≤ n)
    (hm : v.length ≤ m) :
    leavesPunctuation U n prev v =
      leavesPunctuation U m prev v := by
  unfold leavesPunctuation
  congr 1
  induction n generalizing prev v m with
  | zero =>
      rw [List.length_eq_zero_iff.mp (Nat.le_zero.mp hn)]
      cases m <;> rfl
  | succ n ih =>
      cases v with
      | nil => cases m <;> rfl
      | cons c cs =>
          cases m with
          | zero => simp at hm
          | succ m =>
              rw [List.length_cons] at hn hm
              rw [removeQualifiersFrom_succ,
                removeQualifiersFrom_succ]
              cases hRead : qualifierAt U prev c cs with
              | none =>
                  have hTail :
                      removeQualifiersFrom U n (some c) cs =
                        removeQualifiersFrom U m (some c) cs :=
                    ih (by omega) (by omega)
                  simp only [hTail]
              | some x =>
                  have hShort := qualifierAt_length hRead
                  exact ih (by omega) (by omega)

/- Only whether a word has ended matters of what went before. -/
theorem leavesPunctuation_alike
    (h : U.Lawful)
    {n m : Nat}
    {prev prev' : Option Char}
    {v w : Text}
    (hAlike : Words.Alike Text.isSpace v w)
    (hPrev : prev.any U.word = prev'.any U.word)
    (hn : v.length ≤ n)
    (hm : w.length ≤ m) :
    leavesPunctuation U n prev v =
      leavesPunctuation U m prev' w := by
  induction hLength : v.length using Nat.strong_induction_on
    generalizing v w n m prev prev' with
  | _ k ih =>
    cases hAlike with
    | ends hr hr' =>
        have hAll : ∀ (r : Text) (k : Nat) (prev : Option Char),
            (∀ c ∈ r, Text.isSpace c = true) → r.length ≤ k →
            leavesPunctuation U k prev r = true := by
          intro r
          induction r with
          | nil =>
              intro k prev _ _
              cases k <;> rfl
          | cons c cs ihr =>
              intro k prev hr hk
              cases k with
              | zero => simp at hk
              | succ k =>
                  rw [leavesPunctuation_space
                    (hr c List.mem_cons_self)]
                  exact ihr k (some c) (fun d hd =>
                    hr d (List.mem_cons_of_mem c hd))
                    (by simpa using hk)
        rw [hAll v n prev hr hn, hAll w m prev' hr' hm]
    | @solid c v w hc hRest =>
        cases n with
        | zero => simp at hn
        | succ n =>
        cases m with
        | zero => simp at hm
        | succ m =>
        rw [List.length_cons] at hn hm hLength
        have hRead : ReadsAlike (qualifierAt U prev c v)
            (qualifierAt U prev' c w) := by
          have hBoundary : U.isBoundary prev (some c) =
              U.isBoundary prev' (some c) := by
            unfold Unicode.isBoundary
            rw [hPrev]
          unfold qualifierAt
          rw [hBoundary]
          split
          · exact readQualifier_alike h (.solid hc hRest)
          · exact .none
        unfold leavesPunctuation
        rw [removeQualifiersFrom_succ, removeQualifiersFrom_succ]
        cases hV : qualifierAt U prev c v with
        | none =>
            cases hW : qualifierAt U prev' c w with
            | some y =>
                rw [hV, hW] at hRead
                cases hRead
            | none =>
                have hTail : leavesPunctuation U n (some c) v =
                    leavesPunctuation U m (some c) w :=
                  ih v.length (by omega) hRest rfl (by omega)
                    (by omega) rfl
                unfold leavesPunctuation at hTail
                simp only [List.all_cons, hTail]
        | some x =>
            cases hW : qualifierAt U prev' c w with
            | none =>
                rw [hV, hW] at hRead
                cases hRead
            | some y =>
                rw [hV, hW] at hRead
                cases hRead with
                | some hSame =>
                    have hShort := qualifierAt_length hV
                    have hShort' := qualifierAt_length hW
                    exact ih x.2.length (by omega) hSame.2
                      (by rw [hSame.1]) (by omega) (by omega)
                      rfl
    | @space c c' r r' v w hr hr' hRest =>
        rcases leavesPunctuation_spaces h hr
          (List.cons_ne_nil c r) v.length prev v with
            ⟨d, hd, hLeft⟩
        rcases leavesPunctuation_spaces h hr'
          (List.cons_ne_nil c' r') w.length prev' w with
            ⟨d', hd', hRight⟩
        rw [List.length_cons, List.length_append] at hLength
        have hTail : leavesPunctuation U v.length (some d) v =
            leavesPunctuation U w.length (some d') w :=
          ih v.length (by omega) hRest (by
            simp only [Option.any_some, hd, hd'])
            (Nat.le_refl _) (Nat.le_refl _) rfl
        rw [← List.cons_append] at hn hm ⊢
        rw [← List.cons_append,
          leavesPunctuation_fuel (m := (c :: r).length +
            v.length) hn (by rw [List.length_append]),
          leavesPunctuation_fuel (m := (c' :: r').length +
            w.length) hm (by rw [List.length_append]),
          hLeft, hRight]
        exact hTail

------------------------------------------------------------
-- Distances Of Texts
------------------------------------------------------------

theorem reachOf_alike
    (h : U.Lawful)
    {v w : Text}
    (hAlike : Words.Alike Text.isSpace v w) :
    reachOf U v = reachOf U w := by
  rcases scanDistances_alike h hAlike with ⟨hFound, hRest⟩
  have hPunctuation :
      leavesPunctuation U _ none (scanDistances U v).2 =
        leavesPunctuation U _ none (scanDistances U w).2 :=
    leavesPunctuation_alike h hRest rfl (Nat.le_refl _)
      (Nat.le_refl _)
  unfold leavesPunctuation at hPunctuation
  unfold reachOf removeQualifiers
  cases hV : scanDistances U v with
  | mk found remainder =>
  cases hW : scanDistances U w with
  | mk found' remainder' =>
      rw [hV, hW] at hFound hPunctuation
      simp only at hFound hPunctuation
      simp only [hFound, hPunctuation]

/- Texts with the same words have the same distance. -/
theorem normalizeReach_congr
    (h : U.Lawful)
    {v w : Text}
    (hWords : Words.split Text.isSpace v =
      Words.split Text.isSpace w) :
    normalizeReach U v = normalizeReach U w := by
  apply reachOf_alike h
  exact (alike_cleanText hWords).flatMap h.fold_space
    h.fold_solid

end Reading
