import DcInventory.Core.Text
import DcInventory.Library.Words

/-
  This file proves what texts look like whose white space has
  been normalised or stripped.

  Key theorems include:
    * `Text.normalize_normalize`
    * `Text.mem_normalize`
    * `Text.normalize_strip`
-/

namespace Text

theorem splitFrom_eq
    (word v : Text) :
    splitFrom word v = Words.splitFrom isSpace word v := by
  induction v generalizing word with
  | nil =>
      unfold splitFrom Words.splitFrom
      cases word <;> rfl
  | cons c cs ih =>
      unfold splitFrom Words.splitFrom
      simp only [ih]
      cases word <;> rfl

theorem joinWords_eq (ws : List Text) :
    joinWords ws = Words.join ' ' ws := by
  induction ws with
  | nil => rfl
  | cons w ws ih =>
      cases ws with
      | nil => rfl
      | cons w' ws =>
          change w ++ ' ' :: joinWords (w' :: ws) = _
          rw [ih]
          rfl

/- Normalising joins the words. -/
theorem normalize_eq (v : Text) :
    normalize v = Words.join ' ' (Words.split isSpace v) := by
  rw [normalize, joinWords_eq, split, splitFrom_eq]
  rfl

theorem strip_eq (v : Text) :
    strip v = Words.strip isSpace v :=
  rfl

theorem isSpace_blank : isSpace ' ' = true := by
  decide

/- The words of a text are those of its normal form. -/
theorem words_normalize (v : Text) :
    Words.split isSpace (normalize v) =
      Words.split isSpace v := by
  rw [normalize_eq, Words.split_join_split isSpace_blank]

/- Texts with the same words have the same normal form. -/
theorem normalize_congr
    {v v' : Text}
    (h : Words.split isSpace v = Words.split isSpace v') :
    normalize v = normalize v' := by
  rw [normalize_eq, normalize_eq, h]

@[simp]
theorem normalize_normalize (v : Text) :
    normalize (normalize v) = normalize v :=
  normalize_congr (words_normalize v)

@[simp]
theorem normalize_strip (v : Text) :
    normalize (strip v) = normalize v :=
  normalize_congr (Words.split_strip v)

@[simp]
theorem strip_strip (v : Text) :
    strip (strip v) = strip v :=
  Words.strip_strip v

@[simp]
theorem strip_normalize (v : Text) :
    strip (normalize v) = normalize v := by
  rw [strip_eq, normalize_eq]
  apply Words.strip_of_trimmed
  exact Words.trimmed_join fun _ hw =>
    Words.isWord_of_mem_split hw

/- A normal form has blanks and what is no white space. -/
theorem mem_normalize
    {v : Text}
    {c : Char}
    (hc : c ∈ normalize v) :
    c = ' ' ∨ (c ∈ v ∧ isSpace c = false) := by
  rw [normalize_eq] at hc
  exact Words.mem_join_split hc

/- Only white space is normalised to nothing. -/
theorem normalize_eq_nil_iff
    {v : Text} :
    normalize v = [] ↔ ∀ c ∈ v, isSpace c = true := by
  rw [normalize_eq]
  exact Words.join_split_eq_nil_iff

theorem strip_eq_nil_iff
    {v : Text} :
    strip v = [] ↔ ∀ c ∈ v, isSpace c = true :=
  Words.strip_eq_nil_iff

theorem normalize_eq_nil_iff_strip
    {v : Text} :
    normalize v = [] ↔ strip v = [] := by
  rw [normalize_eq_nil_iff, strip_eq_nil_iff]

end Text
