import DcInventory.Core.Unicode

/-
  This file proves how normalisation and folding act on the
  words of a text.

  Key theorems include:
    * `Unicode.lawful_ascii`
    * `Unicode.Lawful.split_nfkc`
    * `Unicode.Lawful.normalize_nfkc_congr`
-/

namespace Unicode

------------------------------------------------------------
-- ASCII
------------------------------------------------------------

/- Only capital letters are lowered. -/
theorem toNat_toLower (c : Char) :
    c.toLower.toNat =
      if 65 ≤ c.toNat ∧ c.toNat ≤ 90 then c.toNat + 32
      else c.toNat := by
  have hRange : (c.val ≥ 'A'.val ∧ c.val ≤ 'Z'.val) ↔
      65 ≤ c.toNat ∧ c.toNat ≤ 90 := by
    rw [ge_iff_le, UInt32.le_iff_toNat_le,
      UInt32.le_iff_toNat_le]
    rfl
  unfold Char.toLower
  split
  · rename_i hUpper
    have hSmall := hRange.mp hUpper
    rw [if_pos hSmall]
    change (c.val + 32).toNat = c.val.toNat + 32
    have hVal : c.val.toNat ≤ 90 := hSmall.2
    rw [UInt32.toNat_add]
    exact Nat.mod_eq_of_lt (by
      change c.val.toNat + 32 < 2 ^ 32
      omega)
  · rename_i hOther
    rw [if_neg (fun hSmall => hOther (hRange.mpr hSmall))]

/- White space is no capital letter. -/
theorem toLower_space
    {c : Char}
    (h : Text.isSpace c = true) :
    c.toLower = c := by
  apply Char.toNat_inj.mp
  rw [toNat_toLower, if_neg]
  simp [Text.isSpace] at h
  omega

theorem isSpace_toLower (c : Char) :
    Text.isSpace c.toLower = Text.isSpace c := by
  cases hSpace : Text.isSpace c with
  | true => rw [toLower_space hSpace, hSpace]
  | false =>
      by_cases hUpper : 65 ≤ c.toNat ∧ c.toNat ≤ 90
      · simp [Text.isSpace, toNat_toLower, if_pos hUpper]
        omega
      · have hSame : c.toLower = c := by
          apply Char.toNat_inj.mp
          rw [toNat_toLower, if_neg hUpper]
        rw [hSame, hSpace]

/- The tables restricted to ASCII have the properties. -/
theorem lawful_ascii : Lawful ascii where
  fold_space c hc := by
    change [c.toLower] = [c]
    rw [toLower_space hc]
  fold_solid c hc d hd := by
    rw [List.mem_singleton.mp hd, isSpace_toLower, hc]
  nfkc_nil := rfl
  nfkc_space c hc := ⟨c, rfl, hc, rfl⟩
  nfkc_append c _ v w := by
    change v ++ c :: w = v ++ [c] ++ w
    simp
  nfkc_separator _ _ hc _ := hc
  digit_solid c hc := by
    have hDigit : c.isDigit = true := by
      by_contra hNot
      exact hc (if_neg hNot)
    have hRange : 48 ≤ c.toNat ∧ c.toNat ≤ 57 := by
      simpa [Char.isDigit, UInt32.le_iff_toNat_le]
        using hDigit
    simp [Text.isSpace]
    omega
  word_solid c hc := by
    have hRange : (97 ≤ c.toNat ∧ c.toNat ≤ 122) ∨
        (65 ≤ c.toNat ∧ c.toNat ≤ 90) ∨
        (48 ≤ c.toNat ∧ c.toNat ≤ 57) ∨ c.toNat = 95 ∨
        c.toNat = 1082 ∨ c.toNat = 1084 := by
      have hAlpha : c.isAlpha = (c.isUpper || c.isLower) := rfl
      have hUpper : c.isUpper =
          decide (c.val ≥ 'A'.val ∧ c.val ≤ 'Z'.val) := rfl
      have hLower : c.isLower =
          (decide (c.val ≥ 'a'.val) &&
            decide (c.val ≤ 'z'.val)) := rfl
      simp [ascii, Char.isAlphanum, hAlpha, hUpper, hLower,
        Char.isDigit, UInt32.le_iff_toNat_le] at hc
      rcases hc with (((((h | h) | h) | rfl) | rfl) | rfl)
      · exact Or.inr (Or.inl h)
      · exact Or.inl h
      · exact Or.inr (Or.inr (Or.inl h))
      · decide
      · decide
      · decide
    simp [Text.isSpace]
    omega

theorem foldsSmall_ascii : FoldsSmall ascii := by
  intro c hc
  change [c.toLower] = [c]
  have hRange : 97 ≤ c.toNat ∨ c.toNat = 95 := by
    simp only [isSmall, Bool.or_eq_true, Bool.and_eq_true,
      decide_eq_true_eq, beq_iff_eq] at hc
    rcases hc with ⟨hLow, _⟩ | rfl
    · exact Or.inl hLow
    · exact Or.inr rfl
  have hSame : c.toLower = c := by
    apply Char.toNat_inj.mp
    rw [toNat_toLower, if_neg (by omega)]
  rw [hSame]

------------------------------------------------------------
-- Words
------------------------------------------------------------

variable {U : Unicode}

/-
  A part of white space: `f` says whether it has separators,
  and whether it has the rest.
-/
def spaceWith (f : Bool → Bool) (c : Char) : Bool :=
  Text.isSpace c && f (isSeparator c)

theorem isSpace_of_spaceWith
    {f : Bool → Bool}
    {c : Char}
    (h : spaceWith f c = true) :
    Text.isSpace c = true := by
  unfold spaceWith at h
  rw [Bool.and_eq_true] at h
  exact h.1

/- Normalisation splits a text where it has white space. -/
theorem Lawful.split_nfkc_append
    (h : Lawful U)
    {f : Bool → Bool}
    {c : Char}
    (hc : spaceWith f c = true)
    (v w : Text) :
    Words.split (spaceWith f) (U.nfkc (v ++ c :: w)) =
      Words.split (spaceWith f) (U.nfkc v) ++
        Words.split (spaceWith f) (U.nfkc w) := by
  have hSpace := isSpace_of_spaceWith hc
  rcases h.nfkc_space c hSpace with ⟨d, hd, hdSpace, hKind⟩
  have hSep : spaceWith f d = true := by
    unfold spaceWith at hc ⊢
    rw [hdSpace, hKind]
    rw [hSpace] at hc
    exact hc
  rw [h.nfkc_append c hSpace, hd, List.append_assoc]
  exact Words.split_append hSep _ _

/- Normalisation works word by word. -/
theorem Lawful.split_nfkc
    (h : Lawful U)
    (f : Bool → Bool)
    (v : Text) :
    Words.split (spaceWith f) (U.nfkc v) =
      (Words.split (spaceWith f) v).flatMap (fun w =>
        Words.split (spaceWith f) (U.nfkc w)) := by
  induction hLength : v.length using Nat.strong_induction_on
    generalizing v with
  | _ n ih =>
    by_cases hSome : ∃ c ∈ v, spaceWith f c = true
    · rcases hSome with ⟨c, hMem, hc⟩
      rcases List.append_of_mem hMem with ⟨a, b, rfl⟩
      rw [List.length_append, List.length_cons] at hLength
      have hLeft := ih a.length (by omega) a rfl
      have hRight := ih b.length (by omega) b rfl
      rw [h.split_nfkc_append hc, Words.split_append hc,
        List.flatMap_append, hLeft, hRight]
    · cases v with
      | nil => rw [h.nfkc_nil]; rfl
      | cons c cs =>
          have hWord : Words.IsWord (spaceWith f) (c :: cs) := by
            refine ⟨by simp, ?_⟩
            intro d hd
            by_contra hSep
            exact hSome ⟨d, hd, by simpa using hSep⟩
          rw [Words.split_word hWord]
          simp

/- Texts with the same words are normalised alike. -/
theorem Lawful.normalize_nfkc_congr
    (h : Lawful U)
    {v v' : Text}
    (hWords : Words.split Text.isSpace v =
      Words.split Text.isSpace v') :
    Text.normalize (U.nfkc v) =
      Text.normalize (U.nfkc v') := by
  have hAll : spaceWith (fun _ => true) = Text.isSpace := by
    funext c
    simp [spaceWith]
  rw [Text.normalize_eq, Text.normalize_eq, ← hAll,
    h.split_nfkc, h.split_nfkc, hAll, hWords]

/- A text of white space is normalised to nothing. -/
theorem Lawful.normalize_nfkc_blank
    (h : Lawful U)
    {v : Text}
    (hBlank : Text.strip v = []) :
    Text.normalize (U.nfkc v) = [] := by
  have hWords : Words.split Text.isSpace v =
      Words.split Text.isSpace [] := by
    rw [Words.split_eq_nil_iff.mpr
      (Text.strip_eq_nil_iff.mp hBlank)]
    rfl
  rw [h.normalize_nfkc_congr hWords, h.nfkc_nil]
  rfl

end Unicode
