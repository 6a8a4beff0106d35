import DcInventory.Catalog.ReachPieces
import DcInventory.Core.Rounding
import DcInventory.Library.Fallible
import DcInventory.Core.UnicodeWords
import Mathlib.Data.Finset.Max

/-
  This file proves when the distance that is read from a text
  is the distance that the text stands for.

  Key definitions include:
    * `Denotes`
    * `ParsesReach`
    * `Misread`

  Key theorems include:
    * `reachOf_eq_ok_iff`
    * `reach_is_parsed_completely`
-/

------------------------------------------------------------
-- Metres
------------------------------------------------------------

namespace Distance

variable (U : Unicode)

/- The distance in metres, all digits kept. -/
def product (distance : Distance) : Decimal :=
  let number := distance.number U
  let factor := if distance.kilometres then 1000 else 1
  { number with coefficient := number.coefficient * factor }

/- How many metres a distance stands for. -/
def exact (distance : Distance) : ℚ :=
  (distance.product U).value

/- The distance in metres, as the context rounds it. -/
def near (distance : Distance) : ℚ :=
  ((distance.product U).rounded 28).value

/- The exponent of the rounded distance is too large. -/
def Overflows (distance : Distance) : Prop :=
  let rounded := (distance.product U).rounded 28
  rounded.coefficient ≠ 0 ∧
    (999999 : Int) < rounded.exponent + rounded.digitCount - 1

instance (distance : Distance) :
    Decidable (distance.Overflows U) :=
  inferInstanceAs (Decidable (_ ∧ _))

end Distance

/- A positive whole number. -/
def IsWhole (x : ℚ) : Prop :=
  0 < x ∧ x.den = 1

section Parsing

variable (U : Unicode)

/-
  What a text stands for: there are distances, every one is a
  positive whole number of metres, every piece beside them is
  legible by itself, and `n` is the largest distance.
-/
structure Denotes (cut : ReachCut) (n : Int) : Prop where
  some : cut.clauses ≠ []
  whole : ∀ d ∈ cut.clauses, IsWhole (d.exact U)
  pieces : ∀ piece ∈ cut.pieces, Legible true piece
  reached : ∃ d ∈ cut.clauses, d.exact U = n
  largest : ∀ d ∈ cut.clauses, d.exact U ≤ n

/- The text, as the patterns read it, cut at its distances. -/
def reachCutOf (value : Text) : ReachCut :=
  cutReach U (U.casefold (cleanText value))

/- A distance is read exactly from what stands for it. -/
def ParsesReach (value : Text) : Prop :=
  ∀ n, normalizeReach U value = .ok n ↔
    Denotes U (reachCutOf U value) n

/- A distance that the context takes for a whole number. -/
def SeemsWhole (distance : Distance) : Prop :=
  ¬ distance.Overflows U ∧ IsWhole (distance.near U)

/-
  The texts that are misread: a qualifier is put together
  over a distance; a fraction is lost in rounding; or digits
  of a whole number are.
-/
inductive Misread (cut : ReachCut) : Prop where
| joined :
    Crosses cut.pieces →
    Legible true cut.pieces.flatten →
    (∀ d ∈ cut.clauses, SeemsWhole U d) →
    Misread cut
| fraction (d : Distance) :
    d ∈ cut.clauses →
    ¬ IsWhole (d.exact U) →
    (∀ piece ∈ cut.pieces, Legible true piece) →
    (∀ d' ∈ cut.clauses, SeemsWhole U d') →
    Misread cut
| digits (d : Distance) :
    d ∈ cut.clauses →
    d.Overflows U ∨
      (¬ Decimal.Fits 28 (d.exact U) ∧
        ∀ d' ∈ cut.clauses, d'.exact U ≤ d.exact U) →
    (∀ piece ∈ cut.pieces, Legible true piece) →
    (∀ d' ∈ cut.clauses, IsWhole (d'.exact U)) →
    Misread cut

variable {U}

------------------------------------------------------------
-- Rounded Distances
------------------------------------------------------------

theorem Distance.metres_eq_ok_iff
    {d : Distance}
    {x : ℚ} :
    d.metres U = .ok x ↔ ¬ d.Overflows U ∧ d.near U = x := by
  change (if d.Overflows U then
      Except.error ReachError.overflow
    else Except.ok (d.near U)) = Except.ok x ↔ _
  by_cases hOver : d.Overflows U
  · rw [if_pos hOver]
    exact iff_of_false (fun h => nomatch h)
      fun h => h.1 hOver
  · rw [if_neg hOver]
    exact ⟨fun h => ⟨hOver, Except.ok.inj h⟩,
      fun h => congrArg _ h.2⟩

theorem mapM_metres_eq_ok_iff
    {found : List Distance}
    {metres : List ℚ} :
    found.mapM (Distance.metres U) = .ok metres ↔
      (∀ d ∈ found, ¬ d.Overflows U) ∧
        metres = found.map (Distance.near U) := by
  rw [Except.mapM_eq_ok_iff]
  simp only [Distance.metres_eq_ok_iff]
  constructor
  · intro h
    induction h with
    | nil => exact ⟨List.forall_mem_nil _, rfl⟩
    | cons hHead _ ih =>
        refine ⟨List.forall_mem_cons.mpr ⟨hHead.1, ih.1⟩, ?_⟩
        rw [List.map_cons, hHead.2, ih.2]
  · rintro ⟨hFits, rfl⟩
    rw [List.forall₂_map_right_iff]
    exact List.forall₂_same.mpr fun d hd => ⟨hFits d hd, rfl⟩

/- The largest of positive numbers is one of them. -/
theorem foldl_max_eq_iff
    {metres : List ℚ}
    (hSome : metres ≠ [])
    (hPos : ∀ x ∈ metres, 0 < x)
    {y : ℚ} :
    metres.foldl max 0 = y ↔
      y ∈ metres ∧ ∀ x ∈ metres, x ≤ y := by
  have hFold : ∀ (xs : List ℚ) (a : ℚ),
      (∀ x ∈ a :: xs, x ≤ xs.foldl max a) ∧
        xs.foldl max a ∈ a :: xs := by
    intro xs
    induction xs with
    | nil =>
        intro a
        exact ⟨by simp, by simp⟩
    | cons x xs ih =>
        intro a
        rcases ih (max a x) with ⟨hAll, hMem⟩
        rcases List.forall_mem_cons.mp hAll with ⟨hMax, hTail⟩
        rw [List.foldl_cons]
        refine ⟨?_, ?_⟩
        · intro z hz
          rcases List.mem_cons.mp hz with rfl | hz
          · exact (le_max_left _ _).trans hMax
          · rcases List.mem_cons.mp hz with rfl | hz
            · exact (le_max_right _ _).trans hMax
            · exact hTail z hz
        · rcases List.mem_cons.mp hMem with hEq | hMem
          · rcases max_choice a x with hLeft | hRight
            · rw [hEq, hLeft]
              exact List.mem_cons_self
            · rw [hEq, hRight]
              exact List.mem_cons_of_mem a List.mem_cons_self
          · exact List.mem_cons_of_mem a
              (List.mem_cons_of_mem x hMem)
  rcases hFold metres 0 with ⟨hAll, hMem⟩
  rcases List.forall_mem_cons.mp hAll with ⟨_, hLargest⟩
  have hReached : metres.foldl max 0 ∈ metres := by
    rcases List.mem_cons.mp hMem with hZero | hMem
    · -- One of the numbers is larger than zero.
      exfalso
      rcases List.exists_mem_of_ne_nil metres hSome with ⟨x, hx⟩
      have hLe := hLargest x hx
      rw [hZero] at hLe
      exact absurd (hPos x hx) (not_lt.mpr hLe)
    · exact hMem
  constructor
  · rintro rfl
    exact ⟨hReached, hLargest⟩
  · rintro ⟨hy, hBound⟩
    exact le_antisymm (hBound _ hReached) (hLargest y hy)

theorem not_bad_iff {x : ℚ} :
    (x ≤ 0 || x.den != 1) = false ↔ IsWhole x := by
  rw [Bool.or_eq_false_iff, decide_eq_false_iff_not, not_le]
  unfold IsWhole
  simp

/- What a text must be for a distance to be read. -/
structure Reads (U : Unicode) (cut : ReachCut) (n : Int) :
    Prop where
  some : cut.clauses ≠ []
  legible : Legible true cut.pieces.flatten
  whole : ∀ d ∈ cut.clauses, SeemsWhole U d
  reached : ∃ d ∈ cut.clauses, d.near U = n
  largest : ∀ d ∈ cut.clauses, d.near U ≤ n

theorem reachOf_eq_ok_iff
    (h : U.ReadsReach)
    {text : Text}
    {n : Int} :
    reachOf U text = .ok n ↔ Reads U (cutReach U text) n := by
  have hLegible : (removeQualifiers U
      (cutReach U text).pieces.flatten).all isReachPunctuation =
        true ↔ Legible true (cutReach U text).pieces.flatten :=
    @leavesPunctuation_iff U h _ none _ (Nat.le_refl _)
  unfold reachOf
  rw [scanDistances_cut]
  simp only
  by_cases hSome : (cutReach U text).clauses = []
  · rw [if_pos hSome]
    exact iff_of_false (fun hEq => nomatch hEq)
      fun hReads => hReads.some hSome
  rw [if_neg hSome]
  by_cases hText : Legible true (cutReach U text).pieces.flatten
  swap
  · rw [if_pos (by
      rw [Bool.not_eq_true', Bool.eq_false_iff]
      exact fun hAll => hText (hLegible.mp hAll))]
    exact iff_of_false (fun hEq => nomatch hEq)
      fun hReads => hText hReads.legible
  rw [if_neg (by
    rw [hLegible.mpr hText]
    decide), Except.bind_eq_ok_iff]
  simp only [mapM_metres_eq_ok_iff]
  constructor
  · rintro ⟨metres, ⟨hFits, rfl⟩, hResult⟩
    split at hResult
    · cases hResult
    · rename_i hGood
      have hWhole : ∀ d ∈ (cutReach U text).clauses,
          IsWhole (d.near U) := by
        intro d hd
        rw [← not_bad_iff, Bool.eq_false_iff]
        intro hBad
        exact hGood (List.any_eq_true.mpr
          ⟨d.near U, List.mem_map_of_mem hd, hBad⟩)
      have hPos : ∀ x ∈ (cutReach U text).clauses.map
          (Distance.near U), 0 < x := by
        intro x hx
        rcases List.mem_map.mp hx with ⟨d, hd, rfl⟩
        exact (hWhole d hd).1
      have hMax := (foldl_max_eq_iff (by simpa using hSome)
        hPos).mp rfl
      rcases List.mem_map.mp hMax.1 with ⟨d, hd, hEq⟩
      have hNum : d.near U = n := by
        rw [← Except.ok.inj hResult, ← hEq]
        exact (Rat.coe_int_num_of_den_eq_one
          (hWhole d hd).2).symm
      refine ⟨hSome, hText,
        fun d' hd' => ⟨hFits d' hd', hWhole d' hd'⟩,
        ⟨d, hd, hNum⟩, fun d' hd' => ?_⟩
      rw [← hNum, hEq]
      exact hMax.2 _ (List.mem_map_of_mem hd')
  · intro hReads
    refine ⟨_, ⟨fun d hd => (hReads.whole d hd).1, rfl⟩, ?_⟩
    have hGood : ((cutReach U text).clauses.map
        (Distance.near U)).any
          (fun v => v ≤ 0 || v.den != 1) = false := by
      rw [List.any_eq_false]
      intro x hx
      rcases List.mem_map.mp hx with ⟨d, hd, rfl⟩
      rw [not_bad_iff.mpr (hReads.whole d hd).2]
      decide
    have hMax : ((cutReach U text).clauses.map
        (Distance.near U)).foldl max 0 = n := by
      apply (foldl_max_eq_iff (by simpa using hSome) ?_).mpr
      · refine ⟨List.mem_map.mpr hReads.reached, ?_⟩
        intro x hx
        rcases List.mem_map.mp hx with ⟨d, hd, rfl⟩
        exact hReads.largest d hd
      · intro x hx
        rcases List.mem_map.mp hx with ⟨d, hd, rfl⟩
        exact (hReads.whole d hd).2.1
    rw [hGood, hMax]
    rfl

------------------------------------------------------------
-- Complete Parsing
------------------------------------------------------------

/- Cut texts are legible in pieces, or over a distance. -/
theorem legible_pieces_iff
    (h : U.ReadsReach)
    (v : Text) :
    (∀ piece ∈ (cutReach U v).pieces, Legible true piece) ↔
      Legible true (cutReach U v).pieces.flatten ∧
        ¬ Crosses (cutReach U v).pieces := by
  have hBare : ∀ piece ∈ (cutReach U v).later.map Prod.snd,
      StartsBare U piece := by
    intro piece hMem
    rcases List.mem_map.mp hMem with ⟨x, hx, rfl⟩
    exact cutReachFrom_bare h v.length v x hx
  constructor
  · intro hPieces
    refine ⟨?_, fun hCross =>
      not_legible_of_crosses h hBare hCross hPieces⟩
    rcases List.forall_mem_cons.mp hPieces with ⟨hFirst, hRest⟩
    exact legible_flatten h hBare hFirst hRest
  · rintro ⟨hText, hCross⟩
    rcases crosses_of_legible_flatten h hBare hText with
      hPieces | hCrosses
    · exact List.forall_mem_cons.mpr hPieces
    · exact absurd hCrosses hCross

/- Whole numbers have a largest one among them. -/
theorem exists_largest
    {clauses : List Distance}
    {metres : Distance → ℚ}
    (hSome : clauses ≠ [])
    (hWhole : ∀ d ∈ clauses, (metres d).den = 1) :
    ∃ n : Int, (∃ d ∈ clauses, metres d = n) ∧
      ∀ d ∈ clauses, metres d ≤ n := by
  rcases List.exists_mem_of_ne_nil clauses hSome with ⟨d₀, hd₀⟩
  rcases Finset.exists_max_image clauses.toFinset metres
    ⟨d₀, List.mem_toFinset.mpr hd₀⟩ with ⟨d, hd, hMax⟩
  rw [List.mem_toFinset] at hd
  have hNum := Rat.coe_int_num_of_den_eq_one (hWhole d hd)
  refine ⟨(metres d).num, ⟨d, hd, hNum.symm⟩, ?_⟩
  intro d' hd'
  rw [hNum]
  exact hMax d' (List.mem_toFinset.mpr hd')

theorem Distance.near_le
    {d : Distance}
    {x : ℚ}
    (hFits : Decimal.Fits 28 x)
    (hLe : d.exact U ≤ x) :
    d.near U ≤ x :=
  Decimal.rounded_le (by decide) rfl hFits hLe

theorem Distance.near_eq
    {d : Distance}
    (hFits : Decimal.Fits 28 (d.exact U)) :
    d.near U = d.exact U :=
  Decimal.rounded_eq (by decide) rfl hFits

theorem Distance.fits_near (d : Distance) :
    Decimal.Fits 28 (d.near U) :=
  Decimal.fits_rounded (by decide) rfl

/- A whole number of metres stays one. -/
theorem IsWhole.near
    {d : Distance}
    (hWhole : IsWhole (d.exact U)) :
    IsWhole (d.near U) := by
  refine ⟨?_, Decimal.rounded_den rfl hWhole.2⟩
  exact (Decimal.rounded_pos_iff (by decide) rfl).mpr hWhole.1

section Readings

variable {v : Text}

theorem reads_exists
    (hSome : (cutReach U v).clauses ≠ [])
    (hText : Legible true (cutReach U v).pieces.flatten)
    (hWhole : ∀ d ∈ (cutReach U v).clauses, SeemsWhole U d) :
    ∃ n, Reads U (cutReach U v) n := by
  rcases exists_largest hSome
    (fun d hd => (hWhole d hd).2.2) with
    ⟨n, hReached, hLargest⟩
  exact ⟨n, hSome, hText, hWhole, hReached, hLargest⟩

/- What is misread is not read as what it stands for. -/
theorem Misread.not_same
    (h : U.ReadsReach)
    (hMisread : Misread U (cutReach U v)) :
    ¬ ∀ n, Reads U (cutReach U v) n ↔
      Denotes U (cutReach U v) n := by
  intro hSame
  cases hMisread with
  | joined hCross hText hSeems =>
      have hSome : (cutReach U v).clauses ≠ [] := by
        intro hNone
        have hPieces : (cutReach U v).pieces =
            [(cutReach U v).first] := by
          unfold ReachCut.pieces
          rw [List.map_eq_nil_iff.mp hNone]
          rfl
        apply ((legible_pieces_iff h v).mp ?_).2 hCross
        rw [hPieces] at hText ⊢
        intro piece hMem
        rw [List.mem_singleton.mp hMem]
        simpa using hText
      rcases reads_exists hSome hText hSeems with ⟨n, hReads⟩
      have hPieces := ((hSame n).mp hReads).pieces
      exact ((legible_pieces_iff h v).mp hPieces).2 hCross
  | fraction d hd hNot hPieces hSeems =>
      have hSome := List.ne_nil_of_mem hd
      rcases reads_exists hSome
        ((legible_pieces_iff h v).mp hPieces).1 hSeems with
        ⟨n, hReads⟩
      exact hNot (((hSame n).mp hReads).whole d hd)
  | digits d hd hBad hPieces hWhole =>
      have hSome := List.ne_nil_of_mem hd
      rcases exists_largest hSome
        (fun d hd => (hWhole d hd).2) with
        ⟨n, ⟨d', hd', hEq'⟩, hLargest⟩
      have hReads := (hSame n).mpr
        ⟨hSome, hWhole, hPieces, ⟨d', hd', hEq'⟩, hLargest⟩
      rcases hBad with hOver | ⟨hLong, hMax⟩
      · exact (hReads.whole d hd).1 hOver
      · have hTop : d.exact U = n := by
          apply le_antisymm (hLargest d hd)
          rw [← hEq']
          exact hMax d' hd'
        rcases hReads.reached with ⟨e, _, he⟩
        apply hLong
        rw [hTop, ← he]
        exact e.fits_near

/- Every other text is read as what it stands for. -/
theorem reads_iff_denotes
    (h : U.ReadsReach)
    (hNot : ¬ Misread U (cutReach U v))
    (n : Int) :
    Reads U (cutReach U v) n ↔
      Denotes U (cutReach U v) n := by
  have hExact : ∀ d ∈ (cutReach U v).clauses,
      (∀ piece ∈ (cutReach U v).pieces, Legible true piece) →
      (∀ d' ∈ (cutReach U v).clauses, IsWhole (d'.exact U)) →
      ¬ d.Overflows U ∧
        ((∀ d' ∈ (cutReach U v).clauses,
          d'.exact U ≤ d.exact U) →
            Decimal.Fits 28 (d.exact U)) := by
    intro d hd hPieces hWhole
    constructor
    · intro hOver
      exact hNot (.digits d hd (Or.inl hOver) hPieces hWhole)
    · intro hMax
      by_contra hLong
      exact hNot (.digits d hd (Or.inr ⟨hLong, hMax⟩) hPieces
        hWhole)
  constructor
  · intro hReads
    have hCross : ¬ Crosses (cutReach U v).pieces :=
      fun hCross => hNot
        (.joined hCross hReads.legible hReads.whole)
    have hPieces := (legible_pieces_iff h v).mpr
      ⟨hReads.legible, hCross⟩
    have hWhole : ∀ d ∈ (cutReach U v).clauses,
        IsWhole (d.exact U) := by
      intro d hd
      by_contra hFraction
      exact hNot (.fraction d hd hFraction hPieces hReads.whole)
    rcases exists_largest hReads.some
      (fun d hd => (hWhole d hd).2) with
      ⟨m, ⟨d, hd, hEq⟩, hLargest⟩
    have hFits : Decimal.Fits 28 (d.exact U) :=
      (hExact d hd hPieces hWhole).2 fun d' hd' => by
        rw [hEq]
        exact hLargest d' hd'
    -- The largest distance is read without rounding.
    have hTop : (m : ℚ) = n := by
      apply le_antisymm
      · rw [← hEq, ← Distance.near_eq hFits]
        exact hReads.largest d hd
      · rcases hReads.reached with ⟨e, heMem, he⟩
        rw [← he, ← hEq]
        apply Distance.near_le hFits
        rw [hEq]
        exact hLargest e heMem
    have hSame : m = n := by exact_mod_cast hTop
    subst hSame
    exact ⟨hReads.some, hWhole, hPieces, ⟨d, hd, hEq⟩, hLargest⟩
  · intro hDenotes
    rcases hDenotes.reached with ⟨d, hd, hEq⟩
    have hFits : Decimal.Fits 28 (d.exact U) :=
      (hExact d hd hDenotes.pieces hDenotes.whole).2
        fun d' hd' => by
          rw [hEq]
          exact hDenotes.largest d' hd'
    refine ⟨hDenotes.some,
      ((legible_pieces_iff h v).mp hDenotes.pieces).1, ?_,
      ⟨d, hd, (Distance.near_eq hFits).trans hEq⟩, ?_⟩
    · intro d' hd'
      exact ⟨(hExact d' hd' hDenotes.pieces hDenotes.whole).1,
        (hDenotes.whole d' hd').near⟩
    · intro d' hd'
      rw [← hEq]
      apply Distance.near_le hFits
      rw [hEq]
      exact hDenotes.largest d' hd'

end Readings

/-
  A text is parsed completely exactly if no qualifier is put
  together over a distance and no digit is lost in rounding.
-/
theorem reach_is_parsed_completely
    (h : U.ReadsReach)
    (value : Text) :
    ParsesReach U value ↔ ¬ Misread U (reachCutOf U value) := by
  have hReads : ∀ n, normalizeReach U value = .ok n ↔
      Reads U (reachCutOf U value) n :=
    fun n => reachOf_eq_ok_iff h
  unfold ParsesReach
  simp only [hReads]
  constructor
  · intro hSame hMisread
    exact hMisread.not_same h hSame
  · exact fun hNot n => reads_iff_denotes h hNot n

theorem Unicode.readsReach_russian :
    Unicode.russian.ReadsReach where
  qualifiers := by
    have hAll : reachQualifiers.all (fun q => q.all (fun c =>
        Unicode.russian.word c == (c != '-'))) = true := by
      decide +kernel
    intro q hq c hc
    have hSign := List.all_eq_true.mp hAll q hq
    exact beq_iff_eq.mp (List.all_eq_true.mp hSign c hc)
  unit := by decide +kernel
  punctuation := by
    intro c hc
    unfold isReachPunctuation at hc
    rw [Bool.or_eq_true] at hc
    rcases hc with hSpace | hMark
    · rw [Bool.eq_false_iff]
      intro hWord
      rcases Bool.or_eq_true_iff.mp hWord with hAscii | hSmall
      · rw [lawful_ascii.word_solid c hAscii] at hSpace
        cases hSpace
      · simp only [Bool.and_eq_true, decide_eq_true_eq]
          at hSmall
        simp [Text.isSpace] at hSpace
        omega
    · have hAll : ∀ d ∈ ":/;(),—–-".toList,
          Unicode.russian.word d = false :=
        Words.forall_of_all (by decide +kernel)
      exact hAll c (by simpa using hMark)

theorem reach_of_plain_text :
    ParsesReach Unicode.russian "до 10 км (om3)".toList ↔
      ¬ Misread Unicode.russian
        (reachCutOf Unicode.russian "до 10 км (om3)".toList) :=
  reach_is_parsed_completely Unicode.readsReach_russian
    "до 10 км (om3)".toList

/- A qualifier is put together over ten kilometres. -/
theorem reach_joins_rs_fec :
    normalizeReach Unicode.russian "rs10км-fec".toList =
        .ok 10000 ∧
      (reachCutOf Unicode.russian "rs10км-fec".toList).pieces =
        ["rs".toList, "-fec".toList] ∧
      ¬ ParsesReach Unicode.russian "rs10км-fec".toList := by
  have hValue : normalizeReach Unicode.russian
      "rs10км-fec".toList = .ok 10000 := by
    decide +kernel
  have hPieces : (reachCutOf Unicode.russian
      "rs10км-fec".toList).pieces =
        ["rs".toList, "-fec".toList] := by
    decide +kernel
  refine ⟨hValue, hPieces, fun hParses => ?_⟩
  have hLegible := ((hParses 10000).mp hValue).pieces
    "rs".toList (by rw [hPieces]; exact List.mem_cons_self)
  rcases hLegible.last (c := 's') rfl with hMark | ⟨q, hq, hEnd⟩
  · exact absurd hMark (by decide)
  · exact reachQualifiers_last q hq hEnd

end Parsing
