import DcInventory.Catalog.ReachText

/-
  This file defines the pieces of a text between its
  distances and what may stand in a piece, and proves when
  the pieces put together are accepted although a piece is
  not.

  Key definitions include:
    * `ReachCut`
    * `Legible`
    * `Crosses`
    * `Unicode.ReadsReach`

  Key theorems include:
    * `leavesPunctuation_iff`
    * `legible_flatten`
    * `crosses_of_legible_flatten`
-/

------------------------------------------------------------
-- Cutting
------------------------------------------------------------

/- A text cut at its distances. -/
structure ReachCut where
  first : Text
  later : List (Distance × Text)
deriving DecidableEq, Repr

namespace ReachCut

/- The distances at which a text is cut. -/
def clauses (cut : ReachCut) : List Distance :=
  cut.later.map Prod.fst

/- What stands before, between and after the distances. -/
def pieces (cut : ReachCut) : List Text :=
  cut.first :: cut.later.map Prod.snd

/- The pieces of `cut`, with a character before them. -/
def push (c : Char) (cut : ReachCut) : ReachCut :=
  { cut with first := c :: cut.first }

/- The pieces of `cut`, with a distance before them. -/
def after (distance : Distance) (cut : ReachCut) : ReachCut :=
  ⟨[], (distance, cut.first) :: cut.later⟩

end ReachCut

section Cutting

variable (U : Unicode)

/- The leftmost distances are cut out, one after another. -/
def cutReachFrom : Nat → Text → ReachCut
| 0, v => ⟨v, []⟩
| _ + 1, [] => ⟨[], []⟩
| fuel + 1, c :: cs =>
    match readDistance U (c :: cs) with
    | some (distance, rest) =>
        (cutReachFrom fuel rest).after distance
    | none => (cutReachFrom fuel cs).push c

def cutReach (v : Text) : ReachCut :=
  cutReachFrom U v.length v

end Cutting

/-
  Punctuation and whole qualifiers; a word may begin where
  the flag says so.
-/
inductive Legible : Bool → Text → Prop where
| nil (b : Bool) : Legible b []
| separator {c : Char} {v : Text} (b : Bool) :
    isReachPunctuation c = true →
    Legible true v → Legible b (c :: v)
| word {q v : Text} :
    q ∈ reachQualifiers →
    Legible false v → Legible true (q ++ v)

/- A qualifier is put together from both sides of a cut. -/
def Crosses (pieces : List Text) : Prop :=
  ∃ before after, pieces = before ++ after ∧
    "rs".toList.isSuffixOf before.flatten = true ∧
    "-fec".toList.isPrefixOf after.flatten = true

/-
  What patterns take for words: the letters and digits of
  the qualifiers and of the units, but no punctuation.
-/
structure Unicode.ReadsReach (U : Unicode) : Prop where
  qualifiers : ∀ q ∈ reachQualifiers, ∀ c ∈ q,
    U.word c = (c != '-')
  unit : U.word 'м' = true
  punctuation : ∀ c, isReachPunctuation c = true →
    U.word c = false

/- The ASCII tables with the small letters of Russian. -/
def Unicode.russian : Unicode :=
  { Unicode.ascii with
    word := fun c => Unicode.ascii.word c ||
      (0x430 ≤ c.toNat && c.toNat ≤ 0x44F) }

section Pieces

variable {U : Unicode}

/- The pieces are what the distances leave. -/
theorem scanDistancesFrom_cut (fuel : Nat) (v : Text) :
    scanDistancesFrom U fuel v =
      ((cutReachFrom U fuel v).clauses,
        (cutReachFrom U fuel v).pieces.flatten) := by
  induction fuel generalizing v with
  | zero => simp [scanDistancesFrom, cutReachFrom,
      ReachCut.clauses, ReachCut.pieces]
  | succ fuel ih =>
      cases v with
      | nil => rfl
      | cons c cs =>
          simp only [scanDistancesFrom, cutReachFrom]
          cases hRead : readDistance U (c :: cs) with
          | none =>
              simp only [ih cs]
              rfl
          | some x =>
              simp only [ih x.2]
              rfl

theorem scanDistances_cut (v : Text) :
    scanDistances U v = ((cutReach U v).clauses,
      (cutReach U v).pieces.flatten) :=
  scanDistancesFrom_cut v.length v

/- No word begins at the beginning of the text. -/
def StartsBare (U : Unicode) (v : Text) : Prop :=
  ∀ c, v.head? = some c → U.word c = false

theorem readDistanceUnit_bare
    (h : U.ReadsReach)
    {v rest : Text}
    {b : Bool}
    (hRead : readDistanceUnit U v = some (b, rest)) :
    StartsBare U rest := by
  have hBoundary :
      U.isBoundary (some 'м') rest.head? = true := by
    rw [readDistanceUnit_eq] at hRead
    split at hRead
    · split at hRead
      · cases hRead
        assumption
      · cases hRead
    · split at hRead
      · split at hRead
        · cases hRead
          assumption
        · cases hRead
      · cases hRead
  intro c hHead
  rw [hHead] at hBoundary
  simp only [Unicode.isBoundary, Option.any_some, h.unit]
    at hBoundary
  simpa using hBoundary

theorem readDistance_bare
    (h : U.ReadsReach)
    {v rest : Text}
    {distance : Distance}
    (hRead : readDistance U v = some (distance, rest)) :
    StartsBare U rest := by
  rw [readDistance_eq] at hRead
  split at hRead
  · cases hRead
  · rcases Option.map_eq_some_iff.mp hRead with ⟨x, hUnit, hEq⟩
    cases hEq
    exact readDistanceUnit_bare h hUnit

/- The first piece is the beginning of the text. -/
theorem cutReachFrom_head
    {fuel : Nat}
    {v : Text}
    (hBare : StartsBare U v) :
    StartsBare U (cutReachFrom U fuel v).first := by
  cases fuel with
  | zero => exact hBare
  | succ fuel =>
      cases v with
      | nil => exact hBare
      | cons c cs =>
          simp only [cutReachFrom]
          cases readDistance U (c :: cs) with
          | none =>
              intro d hd
              exact hBare d hd
          | some x =>
              intro d hd
              cases hd

/- No piece after a distance begins with a word. -/
theorem cutReachFrom_bare
    (h : U.ReadsReach)
    (fuel : Nat)
    (v : Text) :
    ∀ x ∈ (cutReachFrom U fuel v).later,
      StartsBare U x.2 := by
  induction fuel generalizing v with
  | zero =>
      intro x hx
      cases hx
  | succ fuel ih =>
      cases v with
      | nil =>
          intro x hx
          cases hx
      | cons c cs =>
          simp only [cutReachFrom]
          cases hRead : readDistance U (c :: cs) with
          | none => exact ih cs
          | some y =>
              intro x hx
              rcases List.mem_cons.mp hx with hEq | hTail
              · rw [hEq]
                exact cutReachFrom_head
                  (readDistance_bare h hRead)
              · exact ih y.2 x hTail

------------------------------------------------------------
-- Qualifiers
------------------------------------------------------------

/- A qualifier begins and ends with a letter or a digit. -/
theorem reachQualifiers_ends :
    ∀ q ∈ reachQualifiers,
      (∃ c cs, q = c :: cs ∧ c ≠ '-') ∧
        ∃ c, q.getLast? = some c ∧ c ∈ q ∧ c ≠ '-' := by
  have hAll : reachQualifiers.all (fun q =>
      q.head?.any (· != '-') && q.getLast?.any (· != '-')) =
        true := by
    decide
  intro q hq
  have hEach := List.all_eq_true.mp hAll q hq
  rw [Bool.and_eq_true] at hEach
  constructor
  · cases q with
    | nil => exact absurd hEach.1 (by decide)
    | cons c cs => exact ⟨c, cs, rfl, by simpa using hEach.1⟩
  · cases hLast : q.getLast? with
    | none =>
        rw [hLast] at hEach
        exact absurd hEach.2 (by decide)
    | some c =>
        rw [hLast] at hEach
        exact ⟨c, rfl, List.mem_of_getLast? hLast,
          by simpa using hEach.2⟩

/- No qualifier is the beginning of another. -/
theorem reachQualifiers_apart :
    ∀ q ∈ reachQualifiers, ∀ q' ∈ reachQualifiers,
      q <+: q' → q = q' := by
  have hAll : reachQualifiers.all (fun q =>
      reachQualifiers.all (fun q' =>
        !q.isPrefixOf q' || q == q')) = true := by
    decide
  intro q hq q' hq' hPrefix
  have hEach := List.all_eq_true.mp
    (List.all_eq_true.mp hAll q hq) q' hq'
  rw [List.isPrefixOf_iff_prefix.mpr hPrefix] at hEach
  simpa using hEach

/- The only hyphen of a qualifier stands in `rs-fec`. -/
theorem reachQualifiers_hyphen
    {v w : Text}
    (hMem : v ++ w ∈ reachQualifiers)
    (hHead : w.head? = some '-') :
    v = "rs".toList ∧ w = "-fec".toList := by
  have hAll : reachQualifiers.all (fun q =>
      (List.range (q.length + 1)).all (fun n =>
        (q.drop n).head? != some '-' ||
          (q.take n == "rs".toList &&
            q.drop n == "-fec".toList))) = true := by
    decide
  have hEach := List.all_eq_true.mp
    (List.all_eq_true.mp hAll (v ++ w) hMem) v.length
    (by
      rw [List.mem_range, List.length_append]
      omega)
  rw [List.drop_left, List.take_left, hHead] at hEach
  simpa using hEach

/- No qualifier ends in a Latin `s`. -/
theorem reachQualifiers_last :
    ∀ q ∈ reachQualifiers, q.getLast? ≠ some 's' := by
  decide

theorem word_head
    (h : U.ReadsReach)
    {q : Text}
    (hq : q ∈ reachQualifiers) :
    ∃ c cs, q = c :: cs ∧ U.word c = true := by
  rcases (reachQualifiers_ends q hq).1 with ⟨c, cs, rfl, hc⟩
  refine ⟨c, cs, rfl, ?_⟩
  rw [h.qualifiers _ hq c List.mem_cons_self]
  simpa using hc

theorem word_last
    (h : U.ReadsReach)
    {q : Text}
    (hq : q ∈ reachQualifiers) :
    q.getLast?.any U.word = true := by
  rcases (reachQualifiers_ends q hq).2 with
    ⟨c, hLast, hMem, hc⟩
  rw [hLast, Option.any_some, h.qualifiers q hq c hMem]
  simpa using hc

------------------------------------------------------------
-- Legible Texts
------------------------------------------------------------

/- Where a word may begin, everything else may. -/
theorem Legible.weaken
    {b : Bool}
    {v : Text}
    (h : Legible b v) :
    Legible true v := by
  cases h with
  | nil => exact .nil true
  | separator _ hc hRest => exact .separator true hc hRest
  | word hq hRest => exact .word hq hRest

/- What does not begin with a word may follow a word. -/
theorem Legible.of_bare
    (h : U.ReadsReach)
    {v : Text}
    (hBare : StartsBare U v)
    {b : Bool}
    (hLegible : Legible b v) :
    ∀ b', Legible b' v := by
  intro b'
  cases hLegible with
  | nil => exact .nil b'
  | separator _ hc hRest => exact .separator b' hc hRest
  | word hq hRest =>
      rcases word_head h hq with ⟨c, cs, rfl, hc⟩
      rw [hBare c rfl] at hc
      cases hc

theorem Legible.append
    {b : Bool}
    {v w : Text}
    (hv : Legible b v)
    (hw : ∀ b', Legible b' w) :
    Legible b (v ++ w) := by
  induction hv with
  | nil b => exact hw b
  | separator b hc _ ih => exact .separator b hc ih
  | word hq _ ih =>
      rw [List.append_assoc]
      exact .word hq ih

/- What follows a word is punctuation. -/
theorem Legible.bare
    (h : U.ReadsReach)
    {v : Text}
    (hLegible : Legible false v) :
    StartsBare U v := by
  intro c hHead
  cases hLegible with
  | nil => cases hHead
  | separator _ hc _ =>
      cases hHead
      exact h.punctuation c hc

/- A legible text ends with punctuation or a qualifier. -/
theorem Legible.last
    {b : Bool}
    {v : Text}
    (hLegible : Legible b v)
    {c : Char}
    (hLast : v.getLast? = some c) :
    isReachPunctuation c = true ∨
      ∃ q ∈ reachQualifiers, q.getLast? = some c := by
  induction hLegible with
  | nil => cases hLast
  | @separator d v b hd _ ih =>
      cases v with
      | nil =>
          cases hLast
          exact Or.inl hd
      | cons e es =>
          rw [List.getLast?_cons_cons] at hLast
          exact ih hLast
  | @word q v hq _ ih =>
      rw [List.getLast?_append] at hLast
      cases hRest : v.getLast? with
      | none =>
          rw [hRest] at hLast
          exact Or.inr ⟨q, hq, hLast⟩
      | some d =>
          rw [hRest] at hLast
          cases hLast
          exact ih hRest

/- A qualifier is read at the beginning of a legible text. -/
theorem Legible.after_qualifier
    (h : U.ReadsReach)
    {q v : Text}
    (hq : q ∈ reachQualifiers)
    {b : Bool}
    (hLegible : Legible b (q ++ v)) :
    Legible false v := by
  rcases word_head h hq with ⟨c, cs, hCons, hc⟩
  generalize hAll : q ++ v = w at hLegible
  cases hLegible with
  | nil =>
      rw [hCons] at hAll
      cases hAll
  | separator _ hd _ =>
      rw [hCons] at hAll
      cases hAll
      rw [h.punctuation c hd] at hc
      cases hc
  | @word q' v' hq' hRest =>
      have hSame : q = q' := by
        rcases List.prefix_or_prefix_of_prefix
          (List.prefix_append q v)
          (hAll ▸ List.prefix_append q' v') with hLe | hLe
        · exact reachQualifiers_apart q hq q' hq' hLe
        · exact (reachQualifiers_apart q' hq' q hq hLe).symm
      subst hSame
      rw [List.append_cancel_left hAll]
      exact hRest

------------------------------------------------------------
-- What The Code Accepts
------------------------------------------------------------

/- A qualifier is found where one stands. -/
theorem readQualifier_ne_none
    (h : U.ReadsReach)
    {q v : Text}
    (hq : q ∈ reachQualifiers)
    (hBare : StartsBare U v) :
    readQualifier U (q ++ v) ≠ none := by
  intro hNone
  unfold readQualifier at hNone
  rw [Option.map_eq_none_iff, List.find?_eq_none] at hNone
  apply hNone q hq
  have hPrefix : q.isPrefixOf (q ++ v) = true :=
    List.isPrefixOf_iff_prefix.mpr (List.prefix_append q v)
  have hNext : v.head?.any U.word = false := by
    cases hHead : v.head? with
    | none => rfl
    | some c => exact hBare c hHead
  rw [hPrefix, List.drop_left, Unicode.isBoundary,
    word_last h hq, hNext]
  rfl

theorem legible_iff_of_qualifier
    (h : U.ReadsReach)
    {prev : Option Char}
    {c : Char}
    {cs q rest : Text}
    (hRead : qualifierAt U prev c cs = some (q, rest)) :
    q ∈ reachQualifiers ∧
      (Legible (!prev.any U.word) (c :: cs) ↔
        Legible false rest) := by
  unfold qualifierAt at hRead
  split at hRead
  · rename_i hBoundary
    rcases readQualifier_some hRead with ⟨hq, hPrefix, rfl⟩
    refine ⟨hq, ?_⟩
    have hAll : q ++ (c :: cs).drop q.length = c :: cs :=
      List.prefix_iff_eq_append.mp
        (List.isPrefixOf_iff_prefix.mp hPrefix)
    have hFlag : (!prev.any U.word) = true := by
      rcases word_head h hq with ⟨d, ds, hCons, hd⟩
      rw [hCons] at hAll
      have hHead : d = c := (List.cons.inj hAll).1
      unfold Unicode.isBoundary at hBoundary
      rw [Option.any_some, ← hHead, hd] at hBoundary
      simpa using hBoundary
    constructor
    · intro hLegible
      rw [← hAll] at hLegible
      exact hLegible.after_qualifier h hq
    · intro hLegible
      rw [hFlag, ← hAll]
      exact .word hq hLegible
  · cases hRead

theorem legible_iff_of_none
    (h : U.ReadsReach)
    {prev : Option Char}
    {c : Char}
    {cs : Text}
    (hRead : qualifierAt U prev c cs = none) :
    Legible (!prev.any U.word) (c :: cs) ↔
      isReachPunctuation c = true ∧
        Legible (!(some c).any U.word) cs := by
  constructor
  · intro hLegible
    generalize hFlag : (!prev.any U.word) = b at hLegible
    generalize hAll : c :: cs = w at hLegible
    cases hLegible with
    | nil => cases hAll
    | separator _ hc hRest =>
        cases hAll
        rw [Option.any_some, h.punctuation c hc]
        exact ⟨hc, hRest⟩
    | word hq hRest =>
        -- The word would have been read here.
        exfalso
        rcases word_head h hq with ⟨d, ds, hCons, hd⟩
        have hHead : c = d := by
          rw [hCons] at hAll
          exact (List.cons.inj hAll).1
        have hBoundary :
            U.isBoundary prev (some c) = true := by
          have hPrev : prev.any U.word = false := by
            simpa using hFlag
          rw [Unicode.isBoundary, Option.any_some, hHead, hd,
            hPrev]
          rfl
        unfold qualifierAt at hRead
        rw [if_pos hBoundary, hAll] at hRead
        exact readQualifier_ne_none h hq (hRest.bare h) hRead
  · intro hBoth
    have hWord := h.punctuation c hBoth.1
    refine .separator _ hBoth.1 ?_
    rw [Option.any_some, hWord] at hBoth
    exact hBoth.2

/- The code accepts exactly the legible texts. -/
theorem leavesPunctuation_iff
    (h : U.ReadsReach)
    {fuel : Nat}
    {prev : Option Char}
    {v : Text}
    (hFuel : v.length ≤ fuel) :
    leavesPunctuation U fuel prev v = true ↔
      Legible (!prev.any U.word) v := by
  induction fuel generalizing prev v with
  | zero =>
      rw [List.length_eq_zero_iff.mp (Nat.le_zero.mp hFuel)]
      exact iff_of_true rfl (.nil _)
  | succ fuel ih =>
      cases v with
      | nil => exact iff_of_true rfl (.nil _)
      | cons c cs =>
          rw [List.length_cons] at hFuel
          unfold leavesPunctuation
          rw [removeQualifiersFrom_succ]
          cases hRead : qualifierAt U prev c cs with
          | none =>
              have hTail : leavesPunctuation U fuel (some c)
                  cs = true ↔ _ := ih (by omega)
              rw [legible_iff_of_none h hRead, ← hTail]
              simp only [List.all_cons, Bool.and_eq_true]
              rfl
          | some x =>
              have hShort := qualifierAt_length hRead
              rcases legible_iff_of_qualifier h hRead with
                ⟨hq, hLegible⟩
              have hTail : leavesPunctuation U fuel
                  x.1.getLast? x.2 = true ↔ _ := ih (by omega)
              rw [hLegible]
              rw [word_last h hq] at hTail
              exact hTail

------------------------------------------------------------
-- Pieces Put Together
------------------------------------------------------------

theorem StartsBare.flatten
    {pieces : List Text}
    (hBare : ∀ piece ∈ pieces, StartsBare U piece) :
    StartsBare U pieces.flatten := by
  induction pieces with
  | nil =>
      intro c hc
      cases hc
  | cons piece pieces ih =>
      rcases List.forall_mem_cons.mp hBare with ⟨hFirst, hRest⟩
      cases piece with
      | nil => exact ih hRest
      | cons d ds =>
          intro c hc
          exact hFirst c hc

/- Legible pieces stay legible when they are put together. -/
theorem legible_flatten
    (h : U.ReadsReach)
    {b : Bool}
    {first : Text}
    {pieces : List Text}
    (hBare : ∀ piece ∈ pieces, StartsBare U piece)
    (hFirst : Legible b first)
    (hLegible : ∀ piece ∈ pieces, Legible true piece) :
    Legible b (first ++ pieces.flatten) := by
  apply hFirst.append
  clear hFirst
  induction pieces with
  | nil => exact Legible.nil
  | cons piece pieces ih =>
      rcases List.forall_mem_cons.mp hBare with ⟨hb, hbs⟩
      rcases List.forall_mem_cons.mp hLegible with ⟨hl, hls⟩
      intro b'
      exact (hl.of_bare h hb b').append (ih hbs hls)

/-
  A legible text is cut between two legible texts, or in the
  middle of the qualifier that has a hyphen.
-/
theorem legible_split
    {b : Bool}
    {v w : Text}
    (h : U.ReadsReach)
    (hBare : StartsBare U w)
    (hLegible : Legible b (v ++ w)) :
    (Legible b v ∧ Legible true w) ∨
      ("rs".toList <:+ v ∧ "-fec".toList <+: w) := by
  generalize hAll : v ++ w = x at hLegible
  induction hLegible generalizing v with
  | nil b =>
      rcases List.append_eq_nil_iff.mp hAll with ⟨rfl, rfl⟩
      exact Or.inl ⟨.nil b, .nil true⟩
  | @separator c x b hc hRest ih =>
      cases v with
      | nil =>
          cases hAll
          exact Or.inl ⟨.nil b, .separator true hc hRest⟩
      | cons d ds =>
          cases hAll
          rcases ih rfl with hBoth | hCross
          · exact Or.inl ⟨.separator b hc hBoth.1, hBoth.2⟩
          · exact Or.inr ⟨hCross.1.trans
              (List.suffix_cons c ds), hCross.2⟩
  | @word q x hq hRest ih =>
      rcases List.append_eq_append_iff.mp hAll with
        ⟨a, hQ, hW⟩ | ⟨a, hV, hX⟩
      · cases v with
        | nil =>
            refine Or.inl ⟨.nil true, ?_⟩
            rw [hW, ← List.nil_append a, ← hQ]
            exact .word hq hRest
        | cons c cs =>
            cases a with
            | nil =>
                rw [List.append_nil] at hQ
                rw [List.nil_append] at hW
                rw [hW, ← hQ, ← List.append_nil q]
                exact Or.inl ⟨.word hq (.nil false),
                  hRest.weaken⟩
            | cons d ds =>
                have hBoth : c :: cs = "rs".toList ∧
                    d :: ds = "-fec".toList := by
                  apply reachQualifiers_hyphen (hQ ▸ hq)
                  have hd := hBare d (by rw [hW]; rfl)
                  have hMem : d ∈ q := by
                    rw [hQ]
                    simp
                  rw [h.qualifiers q hq d hMem] at hd
                  have hHyphen : d = '-' := by
                    simpa using hd
                  rw [hHyphen]
                  rfl
                rw [hW, hBoth.1, hBoth.2]
                exact Or.inr ⟨List.suffix_refl _,
                  List.prefix_append _ x⟩
      · rcases ih hX.symm with hBoth | hCross
        · rw [hV]
          exact Or.inl ⟨.word hq hBoth.1, hBoth.2⟩
        · rw [hV]
          exact Or.inr ⟨hCross.1.trans
            (List.suffix_append q a), hCross.2⟩

theorem crosses_of_legible_flatten
    (h : U.ReadsReach)
    {b : Bool}
    {first : Text}
    {pieces : List Text}
    (hBare : ∀ piece ∈ pieces, StartsBare U piece)
    (hLegible : Legible b (first ++ pieces.flatten)) :
    (Legible b first ∧ ∀ piece ∈ pieces, Legible true piece) ∨
      Crosses (first :: pieces) := by
  induction pieces generalizing b first with
  | nil =>
      rw [List.flatten_nil, List.append_nil] at hLegible
      exact Or.inl ⟨hLegible, fun piece hMem => nomatch hMem⟩
  | cons piece pieces ih =>
      rw [List.flatten_cons] at hLegible
      have hBare' := StartsBare.flatten hBare
      rw [List.flatten_cons] at hBare'
      rcases legible_split h hBare' hLegible with
        hBoth | hCross
      · rcases ih (fun other hMem => hBare other
            (List.mem_cons_of_mem piece hMem)) hBoth.2 with
          hRest | ⟨before, after, hEq, hSuffix, hPrefix⟩
        · exact Or.inl ⟨hBoth.1, List.forall_mem_cons.mpr hRest⟩
        · refine Or.inr ⟨first :: before, after, ?_, ?_,
            hPrefix⟩
          · rw [hEq]
            rfl
          · rw [List.isSuffixOf_iff_suffix] at hSuffix ⊢
            exact hSuffix.trans (List.suffix_append _ _)
      · refine Or.inr ⟨[first], piece :: pieces, rfl, ?_, ?_⟩
        · rw [List.isSuffixOf_iff_suffix]
          simpa using hCross.1
        · rw [List.isPrefixOf_iff_prefix]
          exact hCross.2

/- A cut in the middle of a word leaves an illegible piece. -/
theorem not_legible_of_crosses
    (h : U.ReadsReach)
    {first : Text}
    {pieces : List Text}
    (hBare : ∀ piece ∈ pieces, StartsBare U piece)
    (hCross : Crosses (first :: pieces)) :
    ¬ ∀ piece ∈ first :: pieces, Legible true piece := by
  intro hLegible
  rcases hCross with ⟨before, after, hEq, hSuffix, _⟩
  rw [List.isSuffixOf_iff_suffix] at hSuffix
  cases before with
  | nil => exact absurd (List.suffix_nil.mp hSuffix) (by decide)
  | cons piece before =>
      cases hEq
      have hBefore : Legible true (first ++ before.flatten) := by
        apply legible_flatten h
        · exact fun piece hMem => hBare piece
            (List.mem_append_left after hMem)
        · exact hLegible first List.mem_cons_self
        · exact fun piece hMem => hLegible piece
            (List.mem_cons_of_mem first
              (List.mem_append_left after hMem))
      rcases hSuffix with ⟨start, hStart⟩
      have hLast : (first ++ before.flatten).getLast? =
          some 's' := by
        rw [← List.flatten_cons, ← hStart, List.getLast?_append]
        rfl
      rcases hBefore.last hLast with hMark | ⟨q, hq, hEnd⟩
      · exact absurd hMark (by decide)
      · exact reachQualifiers_last q hq hEnd

end Pieces
