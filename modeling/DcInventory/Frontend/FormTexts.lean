import DcInventory.Core.Whitespace
import DcInventory.Frontend.ItemForm

/-
  This file proves which stored texts the form keeps: the
  browser drops a byte order mark, which the application does
  not take for white space.

  Key definitions include:
    * `ItemForm.BareEnds`

  Key theorems include:
    * `ItemForm.trim_eq_self_iff`
    * `ItemForm.collapsed_eq_self_iff`
    * `ItemForm.bareEnds_of_stored`
-/

namespace ItemForm

open CatalogView (isBlank trim)

------------------------------------------------------------
-- White Space
------------------------------------------------------------

/- The byte order mark. -/
def mark : Char := '\uFEFF'

/- No byte order mark begins or ends the text. -/
def BareEnds (v : Text) : Prop :=
  v.head? ≠ some mark ∧ v.getLast? ≠ some mark

instance (v : Text) : Decidable (BareEnds v) :=
  inferInstanceAs (Decidable (_ ∧ _))

/- White space of the browser that the application keeps. -/
theorem isSpace_of_isBlank
    {c : Char}
    (h : isBlank c = true)
    (hNe : c ≠ mark) :
    Text.isSpace c = true := by
  have hCode : c.toNat ≠ 65279 := by
    intro hEq
    exact hNe (Char.toNat_inj.mp (hEq.trans (by decide)))
  simp only [isBlank, Bool.or_eq_true, Bool.and_eq_true,
    decide_eq_true_eq, beq_iff_eq] at h
  simp only [Text.isSpace, Bool.or_eq_true, Bool.and_eq_true,
    decide_eq_true_eq, beq_iff_eq]
  omega

theorem isBlank_mark : isBlank mark = true := by
  decide

theorem isSpace_mark : Text.isSpace mark = false := by
  decide

/- What is no white space is not trimmed. -/
theorem mem_trim_of_solid
    {v : Text}
    {c : Char}
    (hc : c ∈ v)
    (hSolid : isBlank c = false) :
    c ∈ trim v := by
  have hSplit : Words.split isBlank (trim v) =
      Words.split isBlank v := Words.split_strip v
  have hJoin := @Words.mem_join_split_of_solid _ isBlank ' ' c v
    hSolid hc
  rw [← hSplit] at hJoin
  rcases Words.mem_join_split hJoin with rfl | ⟨hIn, _⟩
  · exact absurd hSolid (by decide)
  · exact hIn

/- A stripped text is trimmed of its marks only. -/
theorem trim_eq_self_iff
    {v : Text}
    (h : Text.strip v = v) :
    trim v = v ↔ BareEnds v := by
  have hSolid : Words.Trimmed Text.isSpace v := by
    rw [← h]
    exact Words.trimmed_strip v
  unfold BareEnds
  constructor
  · intro hTrim
    have hBlank : Words.Trimmed isBlank v := by
      rw [← hTrim]
      exact Words.trimmed_strip v
    constructor
    · intro hHead
      exact absurd (hBlank.head _ hHead) (by decide)
    · intro hLast
      exact absurd (hBlank.last _ hLast) (by decide)
  · rintro ⟨hHead, hLast⟩
    apply Words.strip_of_trimmed
    constructor
    · intro c hc
      have hNe : c ≠ mark := by
        rintro rfl
        exact hHead hc
      exact Bool.eq_false_iff.mpr fun hBlank =>
        Bool.eq_false_iff.mp (hSolid.head c hc)
          (isSpace_of_isBlank hBlank hNe)
    · intro c hc
      have hNe : c ≠ mark := by
        rintro rfl
        exact hLast hc
      exact Bool.eq_false_iff.mpr fun hBlank =>
        Bool.eq_false_iff.mp (hSolid.last c hc)
          (isSpace_of_isBlank hBlank hNe)

/- A normalised text is collapsed at its marks only. -/
theorem collapsed_eq_self_iff
    {v : Text}
    (h : Text.normalize v = v) :
    collapsed v = v ↔ mark ∉ v := by
  constructor
  · intro hSame hMem
    rw [← hSame] at hMem
    rcases Words.mem_collapse hMem with hSep | ⟨_, hSolid⟩
    · exact absurd hSep (by decide)
    · exact absurd hSolid (by decide)
  · intro hNone
    have hEnds : BareEnds v :=
      ⟨fun hHead => hNone (List.mem_of_head? hHead),
        fun hLast => hNone (List.mem_of_getLast? hLast)⟩
    have hStrip : Text.strip v = v := by
      rw [← h]
      exact Text.strip_normalize v
    have hSame : ∀ c ∈ v, isBlank c = Text.isSpace c := by
      intro c hc
      rw [← h] at hc
      rcases Text.mem_normalize hc with rfl | ⟨hIn, hSolid⟩
      · decide
      · rw [hSolid]
        refine Bool.eq_false_iff.mpr fun hBlank =>
          Bool.eq_false_iff.mp hSolid
            (isSpace_of_isBlank hBlank ?_)
        rintro rfl
        exact hNone hIn
    unfold collapsed
    rw [(trim_eq_self_iff hStrip).mpr hEnds,
      Words.collapse_congr hSame]
    have hWords : v = Words.join ' '
        (Words.split Text.isSpace v) := by
      rw [← Text.normalize_eq, h]
    rw [hWords]
    exact Words.collapse_join Text.isSpace_blank fun _ hw =>
      Words.isWord_of_mem_split hw

------------------------------------------------------------
-- Storing Again
------------------------------------------------------------

/- Normalising makes no text longer. -/
theorem length_normalize_le (v : Text) :
    (Text.normalize v).length ≤ v.length := by
  rw [Text.normalize_eq]
  exact Words.length_join_split_le v

/-
  A text that is stored again after it was trimmed has not
  been trimmed.
-/
theorem bareEnds_of_stored
    {v : Text}
    {keep : Text → Text}
    (hShort : ∀ w, (keep w).length ≤ w.length)
    (hStrip : Text.strip v = v)
    (hStored : keep (trim v) = v) :
    BareEnds v := by
  apply (trim_eq_self_iff hStrip).mp
  have hSub : (trim v).Sublist v := Words.strip_sublist v
  apply hSub.eq_of_length
  have hKept := hShort (trim v)
  rw [hStored] at hKept
  exact Nat.le_antisymm hSub.length_le hKept

/- So has one that was collapsed no marks. -/
theorem not_mem_of_stored
    {v : Text}
    (hStored : Text.normalize (collapsed v) = v) :
    mark ∉ v := by
  intro hMem
  rw [← hStored] at hMem
  rcases Text.mem_normalize hMem with hSep | ⟨hIn, _⟩
  · exact absurd hSep (by decide)
  · rcases Words.mem_collapse hIn with hSep | ⟨_, hSolid⟩
    · exact absurd hSep (by decide)
    · exact absurd hSolid (by decide)

end ItemForm
