import Mathlib.Algebra.GroupWithZero.Nat
import Mathlib.Data.List.DropRight
import Mathlib.Data.List.Induction

/-
  This file defines how lists are split into words at
  separating elements and put together again.

  Key definitions include:
    * `Words.split`
    * `Words.join`
    * `Words.strip`
    * `Words.collapse`

  Key theorems include:
    * `Words.split_append`
    * `Words.split_join`
    * `Words.strip_strip`
    * `Words.strip_collapse`
    * `Words.collapse_join`
    * `Words.length_join_split_le`
-/

namespace Words

variable {α : Type}
variable (p : α → Bool)

------------------------------------------------------------
-- Splitting And Joining
------------------------------------------------------------

/- The words, with the one read so far in reverse. -/
def splitFrom (word : List α) : List α → List (List α)
| [] => if word.isEmpty then [] else [word.reverse]
| c :: cs =>
    if p c then
      if word.isEmpty then splitFrom [] cs
      else word.reverse :: splitFrom [] cs
    else splitFrom (c :: word) cs

/- The maximal parts without separators. -/
def split (v : List α) : List (List α) :=
  splitFrom p [] v

/- The words with one separator between them. -/
def join (sep : α) : List (List α) → List α
| [] => []
| [w] => w
| w :: ws => w ++ sep :: join sep ws

/- A test of each element that can be computed. -/
theorem forall_of_all
    {q : α → Bool}
    {b : Bool}
    {v : List α}
    (h : v.all (fun c => q c == b) = true) :
    ∀ c ∈ v, q c = b := by
  intro c hc
  exact beq_iff_eq.mp (List.all_eq_true.mp h c hc)

/- A word that can be found by splitting. -/
structure IsWord (w : List α) : Prop where
  nonempty : w ≠ []
  solid : ∀ c ∈ w, p c = false

variable {p}

/- A word read before a separator or the end. -/
theorem splitFrom_solid
    {word w rest : List α}
    (hSolid : ∀ c ∈ w, p c = false) :
    splitFrom p word (w ++ rest) =
      splitFrom p (w.reverse ++ word) rest := by
  induction w generalizing word with
  | nil => rfl
  | cons c cs ih =>
      have hHead := hSolid c List.mem_cons_self
      have hTail := fun d hd =>
        hSolid d (List.mem_cons_of_mem c hd)
      rw [List.cons_append, splitFrom, if_neg (by simp [hHead]),
        ih hTail]
      simp

/- A list splits where it has a separator. -/
theorem splitFrom_append
    {c : α}
    (hSep : p c = true)
    (word v rest : List α) :
    splitFrom p word (v ++ c :: rest) =
      splitFrom p word v ++ split p rest := by
  induction v generalizing word with
  | nil =>
      rw [List.nil_append, splitFrom.eq_def p word (c :: rest)]
      simp only [if_pos hSep, splitFrom]
      split <;> rfl
  | cons d ds ih =>
      have hCons : ∀ es, splitFrom p word (d :: es) =
          if p d then
            if word.isEmpty then splitFrom p [] es
            else word.reverse :: splitFrom p [] es
          else splitFrom p (d :: word) es := fun _ => rfl
      rw [List.cons_append, hCons, hCons]
      split
      · split
        · exact ih []
        · rw [ih []]
          rfl
      · exact ih (d :: word)

theorem split_append
    {c : α}
    (hSep : p c = true)
    (v rest : List α) :
    split p (v ++ c :: rest) = split p v ++ split p rest :=
  splitFrom_append hSep [] v rest

/- A separator at the beginning is left out. -/
theorem split_cons
    {c : α}
    (hSep : p c = true)
    (rest : List α) :
    split p (c :: rest) = split p rest :=
  split_append hSep [] rest

/- A separator at the end is left out. -/
theorem split_concat
    {c : α}
    (hSep : p c = true)
    (v : List α) :
    split p (v ++ [c]) = split p v := by
  rw [split_append hSep]
  exact List.append_nil _

/- A word is split into itself. -/
theorem split_word
    {w : List α}
    (h : IsWord p w) :
    split p w = [w] := by
  have hSplit : splitFrom p [] (w ++ []) =
      splitFrom p (w.reverse ++ []) [] :=
    splitFrom_solid h.solid
  rw [List.append_nil, List.append_nil] at hSplit
  rw [split, hSplit, splitFrom, if_neg (by simp [h.nonempty]),
    List.reverse_reverse]

/- What is found by splitting are words. -/
theorem isWord_of_mem_splitFrom
    {word v w : List α}
    (hSolid : ∀ c ∈ word, p c = false)
    (hw : w ∈ splitFrom p word v) :
    IsWord p w := by
  induction v generalizing word with
  | nil =>
      rw [splitFrom] at hw
      split at hw
      · cases hw
      · rename_i hSome
        rw [List.mem_singleton.mp hw]
        refine ⟨by simpa using hSome, ?_⟩
        exact fun c hc => hSolid c (List.mem_reverse.mp hc)
  | cons c cs ih =>
      rw [splitFrom] at hw
      split at hw
      · split at hw
        · exact ih (by simp) hw
        · rename_i hSome
          rcases List.mem_cons.mp hw with rfl | hw
          · refine ⟨by simpa using hSome, ?_⟩
            exact fun d hd => hSolid d (List.mem_reverse.mp hd)
          · exact ih (by simp) hw
      · rename_i hc
        apply ih _ hw
        intro d hd
        rcases List.mem_cons.mp hd with rfl | hd
        · simpa using hc
        · exact hSolid d hd

theorem isWord_of_mem_split
    {v w : List α}
    (hw : w ∈ split p v) :
    IsWord p w :=
  isWord_of_mem_splitFrom (by simp) hw

/- Words put together are split into the same words. -/
theorem split_join
    {sep : α}
    (hSep : p sep = true)
    {ws : List (List α)}
    (hWords : ∀ w ∈ ws, IsWord p w) :
    split p (join sep ws) = ws := by
  induction ws with
  | nil => rfl
  | cons w ws ih =>
      have hHead := hWords w List.mem_cons_self
      have hTail := ih fun w' hw' =>
        hWords w' (List.mem_cons_of_mem w hw')
      cases ws with
      | nil => exact split_word hHead
      | cons w' ws =>
          rw [join, split_append hSep, split_word hHead, hTail]
          · rfl
          · exact List.cons_ne_nil w' ws

/- Joining what was split does it all. -/
theorem split_join_split
    {sep : α}
    (hSep : p sep = true)
    (v : List α) :
    split p (join sep (split p v)) = split p v :=
  split_join hSep fun _ hw => isWord_of_mem_split hw

/- What words consist of, they have from the list. -/
theorem mem_of_mem_splitFrom
    {word v w : List α}
    {c : α}
    (hw : w ∈ splitFrom p word v)
    (hc : c ∈ w) :
    c ∈ word ∨ c ∈ v := by
  induction v generalizing word with
  | nil =>
      rw [splitFrom] at hw
      split at hw
      · cases hw
      · rw [List.mem_singleton.mp hw] at hc
        exact Or.inl (List.mem_reverse.mp hc)
  | cons d ds ih =>
      have hLater : ∀ {word' : List α},
          (∀ e ∈ word', e ∈ word ∨ e = d) →
          w ∈ splitFrom p word' ds → c ∈ word ∨ c ∈ d :: ds := by
        intro word' hWord' hw'
        rcases ih hw' with hOld | hNew
        · rcases hWord' c hOld with hWord | rfl
          · exact Or.inl hWord
          · exact Or.inr List.mem_cons_self
        · exact Or.inr (List.mem_cons_of_mem d hNew)
      rw [splitFrom] at hw
      split at hw
      · split at hw
        · exact hLater (by simp) hw
        · rcases List.mem_cons.mp hw with rfl | hw
          · exact Or.inl (List.mem_reverse.mp hc)
          · exact hLater (by simp) hw
      · apply hLater _ hw
        intro e he
        rcases List.mem_cons.mp he with rfl | he
        · exact Or.inr rfl
        · exact Or.inl he

/- What joined words consist of. -/
theorem mem_join
    {sep c : α}
    {ws : List (List α)}
    (hc : c ∈ join sep ws) :
    c = sep ∨ ∃ w ∈ ws, c ∈ w := by
  induction ws with
  | nil => cases hc
  | cons w ws ih =>
      cases ws with
      | nil => exact Or.inr ⟨w, List.mem_cons_self, hc⟩
      | cons w' ws =>
          rw [join] at hc
          · rcases List.mem_append.mp hc with hc | hc
            · exact Or.inr ⟨w, List.mem_cons_self, hc⟩
            rcases List.mem_cons.mp hc with rfl | hc
            · exact Or.inl rfl
            rcases ih hc with hSep | ⟨x, hx, hc⟩
            · exact Or.inl hSep
            · exact Or.inr
                ⟨x, List.mem_cons_of_mem w hx, hc⟩
          · exact List.cons_ne_nil w' ws

/- Apart from the separator only solid elements remain. -/
theorem mem_join_split
    {sep c : α}
    {v : List α}
    (hc : c ∈ join sep (split p v)) :
    c = sep ∨ (c ∈ v ∧ p c = false) := by
  rcases mem_join hc with hSep | ⟨w, hw, hcw⟩
  · exact Or.inl hSep
  · refine Or.inr ⟨?_, (isWord_of_mem_split hw).solid c hcw⟩
    rcases mem_of_mem_splitFrom hw hcw with hNil | hv
    · cases hNil
    · exact hv

/- Whatever is solid is in a word. -/
theorem exists_word_of_solid
    {word v : List α}
    {c : α}
    (hSolid : p c = false)
    (hc : c ∈ word ∨ c ∈ v) :
    ∃ w ∈ splitFrom p word v, c ∈ w := by
  induction v generalizing word with
  | nil =>
      have hWord := hc.resolve_right (by simp)
      rw [splitFrom, if_neg (by
        simpa using List.ne_nil_of_mem hWord)]
      exact ⟨_, List.mem_singleton_self _,
        List.mem_reverse.mpr hWord⟩
  | cons d ds ih =>
      rw [splitFrom]
      split
      · rename_i hSep
        have hc' : c ∈ word ∨ c ∈ ds := by
          rcases hc with hWord | hMem
          · exact Or.inl hWord
          · rcases List.mem_cons.mp hMem with rfl | hRest
            · rw [hSolid] at hSep
              cases hSep
            · exact Or.inr hRest
        split
        · rename_i hNil
          rw [List.isEmpty_iff.mp hNil] at hc'
          exact ih hc'
        · rcases hc' with hWord | hRest
          · exact ⟨_, List.mem_cons_self,
              List.mem_reverse.mpr hWord⟩
          · rcases ih (Or.inr hRest) with ⟨w, hw, hcw⟩
            exact ⟨w, List.mem_cons_of_mem _ hw, hcw⟩
      · apply ih
        rw [List.mem_cons]
        rcases hc with hWord | hMem
        · exact Or.inl (Or.inr hWord)
        · rcases List.mem_cons.mp hMem with rfl | hRest
          · exact Or.inl (Or.inl rfl)
          · exact Or.inr hRest

theorem mem_join_of_mem
    {sep c : α}
    {w : List α}
    {ws : List (List α)}
    (hw : w ∈ ws)
    (hc : c ∈ w) :
    c ∈ join sep ws := by
  induction ws with
  | nil => cases hw
  | cons x ws ih =>
      cases ws with
      | nil =>
          rw [List.mem_singleton.mp hw] at hc
          exact hc
      | cons x' ws =>
          rw [join]
          · rcases List.mem_cons.mp hw with rfl | hw
            · exact List.mem_append_left _ hc
            · exact List.mem_append_right _
                (List.mem_cons_of_mem _ (ih hw))
          · exact List.cons_ne_nil x' ws

theorem mem_join_split_of_solid
    {sep c : α}
    {v : List α}
    (hSolid : p c = false)
    (hc : c ∈ v) :
    c ∈ join sep (split p v) := by
  rcases exists_word_of_solid hSolid (Or.inr hc) with
    ⟨w, hw, hcw⟩
  exact mem_join_of_mem hw hcw

/- Only separators leave no word. -/
theorem splitFrom_eq_nil_iff
    {word v : List α} :
    splitFrom p word v = [] ↔
      word = [] ∧ ∀ c ∈ v, p c = true := by
  induction v generalizing word with
  | nil =>
      rw [splitFrom]
      split <;> simp_all
  | cons c cs ih =>
      rw [splitFrom]
      split
      · split
        · rw [ih]
          simp_all
        · simp_all
      · rw [ih]
        simp_all

theorem split_eq_nil_iff
    {v : List α} :
    split p v = [] ↔ ∀ c ∈ v, p c = true := by
  rw [split, splitFrom_eq_nil_iff]
  simp

/- Joined words are empty when there is none. -/
theorem join_split_eq_nil_iff
    {sep : α}
    {v : List α} :
    join sep (split p v) = [] ↔ ∀ c ∈ v, p c = true := by
  rw [← split_eq_nil_iff]
  constructor
  · intro hNil
    cases hWords : split p v with
    | nil => rfl
    | cons w ws =>
        have hWord : IsWord p w := isWord_of_mem_split
          (hWords ▸ List.mem_cons_self)
        rw [hWords] at hNil
        cases ws with
        | nil => exact absurd hNil hWord.nonempty
        | cons w' ws => simp [join] at hNil
  · intro hNil
    rw [hNil]
    rfl

/- Elements that separate alike split alike. -/
theorem split_congr
    {q : α → Bool}
    {v : List α}
    (h : ∀ c ∈ v, p c = q c) :
    split p v = split q v := by
  have hFrom : ∀ word, splitFrom p word v =
      splitFrom q word v := by
    intro word
    induction v generalizing word with
    | nil => rfl
    | cons c cs ih =>
        have hTail := ih fun d hd =>
          h d (List.mem_cons_of_mem c hd)
        simp only [splitFrom, h c List.mem_cons_self, hTail]
  exact hFrom []

------------------------------------------------------------
-- Stripping
------------------------------------------------------------

variable (p) in
/- The list without separators at its ends. -/
def strip (v : List α) : List α :=
  (v.dropWhile p).rdropWhile p

/- What is dropped in front does not matter. -/
theorem split_dropWhile (v : List α) :
    split p (v.dropWhile p) = split p v := by
  induction v with
  | nil => rfl
  | cons c cs ih =>
      rw [List.dropWhile_cons]
      split
      · rename_i hSep
        rw [ih, split_cons hSep]
      · rfl

theorem split_rdropWhile (v : List α) :
    split p (v.rdropWhile p) = split p v := by
  induction v using List.reverseRec with
  | nil => rfl
  | append_singleton cs c ih =>
      rw [List.rdropWhile_concat]
      split
      · rename_i hSep
        rw [ih, split_concat hSep]
      · rfl

/- Stripping keeps the words. -/
theorem split_strip (v : List α) :
    split p (strip p v) = split p v := by
  rw [strip, split_rdropWhile, split_dropWhile]

/- Nothing is dropped from what begins with a word. -/
theorem dropWhile_eq_self
    {v : List α}
    (h : ∀ c, v.head? = some c → p c = false) :
    v.dropWhile p = v := by
  cases v with
  | nil => rfl
  | cons c cs =>
      rw [List.dropWhile_cons, if_neg (by simp [h c rfl])]

/- What is left begins with no separator. -/
theorem head_dropWhile
    {v : List α}
    {c : α}
    (h : (v.dropWhile p).head? = some c) :
    p c = false := by
  induction v with
  | nil => cases h
  | cons d ds ih =>
      rw [List.dropWhile_cons] at h
      split at h
      · exact ih h
      · rename_i hSolid
        cases h
        simpa using hSolid

/- A list that begins and ends with no separator. -/
structure Trimmed (p : α → Bool) (v : List α) : Prop where
  head : ∀ c, v.head? = some c → p c = false
  last : ∀ c, v.getLast? = some c → p c = false

/- Nothing is dropped behind what ends with a word. -/
theorem rdropWhile_eq_self
    {v : List α}
    (h : ∀ c, v.getLast? = some c → p c = false) :
    v.rdropWhile p = v := by
  rw [List.rdropWhile, dropWhile_eq_self, List.reverse_reverse]
  intro c hc
  rw [List.head?_reverse] at hc
  exact h c hc

/- Nothing is stripped from a trimmed list. -/
theorem strip_of_trimmed
    {v : List α}
    (h : Trimmed p v) :
    strip p v = v := by
  rw [strip, dropWhile_eq_self h.head,
    rdropWhile_eq_self h.last]

/- Stripping trims. -/
theorem trimmed_strip (v : List α) :
    Trimmed p (strip p v) := by
  constructor
  · intro c hc
    -- the front is that of what was dropped in front
    rcases List.rdropWhile_prefix p (v.dropWhile p) with
      ⟨t, ht⟩
    apply head_dropWhile (v := v)
    rw [← ht, List.head?_append]
    rw [strip] at hc
    rw [hc]
    rfl
  · intro c hc
    rw [strip, List.rdropWhile, List.getLast?_reverse] at hc
    exact head_dropWhile hc

theorem strip_strip (v : List α) :
    strip p (strip p v) = strip p v :=
  strip_of_trimmed (trimmed_strip v)

/- Only separators are stripped to nothing. -/
theorem strip_eq_nil_iff
    {v : List α} :
    strip p v = [] ↔ ∀ c ∈ v, p c = true := by
  rw [← split_eq_nil_iff, ← split_strip]
  constructor
  · intro hNil
    rw [hNil]
    rfl
  · intro hNil
    have hTrimmed := trimmed_strip (p := p) v
    cases hStrip : strip p v with
    | nil => rfl
    | cons c cs =>
        rw [hStrip] at hNil hTrimmed
        have hSep := split_eq_nil_iff.mp hNil c
          List.mem_cons_self
        have hSolid := hTrimmed.head c rfl
        rw [hSep] at hSolid
        cases hSolid

/- Words put together are trimmed. -/
theorem trimmed_join
    {sep : α}
    {ws : List (List α)}
    (hWords : ∀ w ∈ ws, IsWord p w) :
    Trimmed p (join sep ws) := by
  induction ws with
  | nil =>
      constructor <;> rintro c ⟨⟩
  | cons w ws ih =>
      have hHead := hWords w List.mem_cons_self
      have hTail := ih fun w' hw' =>
        hWords w' (List.mem_cons_of_mem w hw')
      cases ws with
      | nil =>
          constructor
          · exact fun c hc => hHead.solid c
              (List.mem_of_head? hc)
          · exact fun c hc => hHead.solid c
              (List.mem_of_getLast? hc)
      | cons w' ws =>
          rw [join]
          · constructor
            · intro c hc
              rw [List.head?_append] at hc
              cases w with
              | nil => exact absurd rfl hHead.nonempty
              | cons d ds =>
                  cases hc
                  exact hHead.solid c List.mem_cons_self
            · intro c hc
              have hNext : join sep (w' :: ws) ≠ [] := by
                have hWord := hWords w'
                  (List.mem_cons_of_mem w List.mem_cons_self)
                cases ws with
                | nil => exact hWord.nonempty
                | cons w'' ws => simp [join]
              apply hTail.last c
              rw [List.getLast?_append, List.getLast?_cons] at hc
              cases hRest : (join sep (w' :: ws)).getLast? with
              | none =>
                  exact absurd (List.getLast?_eq_none_iff.mp
                    hRest) hNext
              | some d => simpa [hRest] using hc
          · exact List.cons_ne_nil w' ws

------------------------------------------------------------
-- Collapsing
------------------------------------------------------------

variable (p) in
/-
  Each run of separators replaced by `sep`; `inRun` says that
  a run has begun.
-/
def collapse (sep : α) : Bool → List α → List α
| _, [] => []
| inRun, c :: cs =>
    if p c then
      if inRun then collapse sep true cs
      else sep :: collapse sep true cs
    else c :: collapse sep false cs

/- In a run the separators that follow are dropped. -/
theorem collapse_run
    (sep : α)
    (v : List α) :
    collapse p sep true v =
      collapse p sep false (v.dropWhile p) := by
  induction v with
  | nil => rfl
  | cons c cs ih =>
      rw [List.dropWhile_cons]
      by_cases hSep : p c = true
      · simp only [collapse, if_pos hSep]
        exact ih
      · simp only [collapse, if_neg hSep]

/- Words are not collapsed. -/
theorem collapse_solid
    {sep : α}
    {w rest : List α}
    (hSolid : ∀ c ∈ w, p c = false) :
    collapse p sep false (w ++ rest) =
      w ++ collapse p sep false rest := by
  induction w with
  | nil => rfl
  | cons c cs ih =>
      have hHead := hSolid c List.mem_cons_self
      have hTail := ih fun d hd =>
        hSolid d (List.mem_cons_of_mem c hd)
      rw [List.cons_append, collapse, if_neg (by simp [hHead]),
        hTail]
      rfl

section Trim

/- What is trimmed apart from one separator in the middle. -/
theorem strip_append
    {q : α → Bool}
    {w y : List α}
    {sep : α}
    (hw : IsWord q w)
    (hy : ∀ c, y.head? = some c → q c = false)
    (hSome : y ≠ []) :
    strip q (w ++ sep :: y) = w ++ sep :: strip q y := by
  have hHead : ∀ c, (w ++ sep :: y).head? = some c →
      q c = false := by
    intro c hc
    cases w with
    | nil => exact absurd rfl hw.nonempty
    | cons d ds =>
        cases hc
        exact hw.solid c List.mem_cons_self
  rw [strip, dropWhile_eq_self hHead, strip,
    dropWhile_eq_self hy]
  -- only what is behind is dropped
  have hDrop : ∀ (x z : List α), z.rdropWhile q ≠ [] →
      (x ++ z).rdropWhile q = x ++ z.rdropWhile q := by
    intro x z
    induction z using List.reverseRec with
    | nil => exact fun h => absurd rfl h
    | append_singleton zs z ih =>
        intro hNe
        rw [← List.append_assoc, List.rdropWhile_concat,
          List.rdropWhile_concat] at *
        split
        · rename_i hSep
          rw [if_pos hSep] at hNe
          exact ih hNe
        · exact List.append_assoc x zs [z]
  have hLeft : y.rdropWhile q ≠ [] := by
    intro hNil
    cases y with
    | nil => exact hSome rfl
    | cons c cs =>
        have hSep := List.rdropWhile_eq_nil_iff.mp hNil c
          List.mem_cons_self
        have hSolid := hy c rfl
        rw [hSep] at hSolid
        cases hSolid
  have hSplit : w ++ sep :: y = (w ++ [sep]) ++ y := by simp
  rw [hSplit, hDrop (w ++ [sep]) y hLeft]
  simp

variable [DecidableEq α]

/- Collapsing runs and trimming joins the words. -/
theorem strip_collapse
    {sep : α}
    (hSep : p sep = true)
    (v : List α) :
    strip (fun c => decide (c = sep)) (collapse p sep false v) =
      join sep (split p v) := by
  have hNe : ∀ {c : α}, p c = false →
      decide (c = sep) = false := by
    intro c hc
    rw [decide_eq_false_iff_not]
    rintro rfl
    rw [hSep] at hc
    cases hc
  induction hLength : v.length using Nat.strong_induction_on
    generalizing v with
  | _ n ih =>
    cases v with
    | nil => rfl
    | cons c cs =>
        cases hc : p c with
        | true =>
            have hShort : (cs.dropWhile p).length < n := by
              have hDrop :=
                (List.dropWhile_suffix p (l := cs)).length_le
              simp at hLength
              omega
            have hRest := ih _ hShort (cs.dropWhile p) rfl
            rw [collapse, if_pos hc, split_cons hc,
              ← split_dropWhile cs, ← hRest, collapse_run]
            simp [strip]
        | false =>
            -- the first word, and what follows it
            let w := (c :: cs).takeWhile (fun d => !p d)
            let rest := (c :: cs).dropWhile (fun d => !p d)
            have hParts : w ++ rest = c :: cs :=
              List.takeWhile_append_dropWhile
            have hWord : IsWord p w := by
              refine ⟨by simp [w, hc], ?_⟩
              intro d hd
              simpa using List.mem_takeWhile_imp hd
            have hTrim : IsWord (fun c => decide (c = sep)) w :=
              ⟨hWord.nonempty,
                fun d hd => hNe (hWord.solid d hd)⟩
            rw [← hParts, collapse_solid hWord.solid]
            cases hRest : rest with
            | nil =>
                rw [collapse, List.append_nil,
                  split_word hWord]
                apply strip_of_trimmed
                exact ⟨fun d hd => hTrim.solid d
                    (List.mem_of_head? hd),
                  fun d hd => hTrim.solid d
                    (List.mem_of_getLast? hd)⟩
            | cons d ds =>
                have hd : p d = true := by
                  have hHead := head_dropWhile
                    (p := fun d => !p d) (v := c :: cs)
                    (c := d) (by simp [rest] at hRest; simp [hRest])
                  simpa using hHead
                have hShort : (ds.dropWhile p).length < n := by
                  have hDrop :=
                    (List.dropWhile_suffix p (l := ds)).length_le
                  have hAll := congrArg List.length hParts
                  rw [hRest] at hAll
                  simp at hAll hLength
                  omega
                have hLater := ih _ hShort (ds.dropWhile p) rfl
                rw [collapse, if_pos hd,
                  split_append hd, split_word hWord,
                  ← split_dropWhile ds]
                simp only [Bool.false_eq_true, if_false]
                rw [collapse_run]
                cases hTail : ds.dropWhile p with
                | nil =>
                    rw [collapse]
                    change strip _ (w ++ [sep]) = w
                    rw [strip, dropWhile_eq_self,
                      List.rdropWhile_concat, if_pos (by simp),
                      rdropWhile_eq_self]
                    · exact fun e he => hTrim.solid e
                        (List.mem_of_getLast? he)
                    · intro e he
                      rw [List.head?_append] at he
                      cases hw : w with
                      | nil => exact absurd hw hWord.nonempty
                      | cons e' es =>
                          rw [hw] at he
                          cases he
                          apply hTrim.solid
                          rw [hw]
                          exact List.mem_cons_self
                | cons e es =>
                    have he : p e = false := head_dropWhile
                      (v := ds) (by rw [hTail]; rfl)
                    rw [hTail] at hLater
                    rw [strip_append hTrim _ _, hLater]
                    · cases hWords : split p (e :: es) with
                      | nil =>
                          have hSep' :=
                            split_eq_nil_iff.mp hWords e
                              List.mem_cons_self
                          rw [he] at hSep'
                          cases hSep'
                      | cons w' ws => rfl
                    · intro c' hc'
                      rw [collapse, if_neg (by simp [he])] at hc'
                      cases hc'
                      exact hNe he
                    · rw [collapse, if_neg (by simp [he])]
                      simp

end Trim

------------------------------------------------------------
-- Parts And Lengths
------------------------------------------------------------

/- What is left is part of what was given. -/
theorem strip_sublist (v : List α) :
    (strip p v).Sublist v := by
  unfold strip List.rdropWhile
  have hFront := List.dropWhile_sublist p (l := v)
  have hBack := List.dropWhile_sublist p
    (l := (v.dropWhile p).reverse)
  have hReverse := hBack.reverse
  rw [List.reverse_reverse] at hReverse
  exact hReverse.trans hFront

/- Elements that are collapsed are separators or words. -/
theorem mem_collapse
    {sep c : α}
    {inRun : Bool}
    {v : List α}
    (hc : c ∈ collapse p sep inRun v) :
    c = sep ∨ (c ∈ v ∧ p c = false) := by
  induction v generalizing inRun with
  | nil => cases hc
  | cons d ds ih =>
      have hTail : ∀ {b}, c ∈ collapse p sep b ds →
          c = sep ∨ (c ∈ d :: ds ∧ p c = false) := by
        intro b hMem
        rcases ih hMem with hSep | ⟨hIn, hSolid⟩
        · exact .inl hSep
        · exact .inr ⟨List.mem_cons_of_mem d hIn, hSolid⟩
      rw [collapse] at hc
      split at hc
      · split at hc
        · exact hTail hc
        · rcases List.mem_cons.mp hc with rfl | hMem
          · exact .inl rfl
          · exact hTail hMem
      · rename_i hSolid
        rcases List.mem_cons.mp hc with rfl | hMem
        · exact .inr ⟨List.mem_cons_self, by simpa using hSolid⟩
        · exact hTail hMem

/- Words with one separator between them are not collapsed. -/
theorem collapse_join
    {sep : α}
    (hSep : p sep = true)
    {ws : List (List α)}
    (hWords : ∀ w ∈ ws, IsWord p w) :
    collapse p sep false (join sep ws) = join sep ws := by
  induction ws with
  | nil => rfl
  | cons w ws ih =>
      have hWord := hWords w List.mem_cons_self
      have hTail := ih fun x hx =>
        hWords x (List.mem_cons_of_mem w hx)
      cases ws with
      | nil =>
          have hSolid := @collapse_solid _ _ sep w []
            hWord.solid
          rw [List.append_nil] at hSolid
          change collapse p sep false w = w
          rw [hSolid]
          exact List.append_nil w
      | cons x xs =>
          have hHead : (join sep (x :: xs)).dropWhile p =
              join sep (x :: xs) :=
            dropWhile_eq_self (trimmed_join fun y hy =>
              hWords y (List.mem_cons_of_mem w hy)).head
          change collapse p sep false
            (w ++ sep :: join sep (x :: xs)) = _
          rw [collapse_solid hWord.solid, collapse, if_pos hSep]
          simp only [Bool.false_eq_true, if_false]
          rw [collapse_run, hHead, hTail]
          rfl

/- Only what the separators are in the list matters. -/
theorem collapse_congr
    {q : α → Bool}
    {sep : α}
    {inRun : Bool}
    {v : List α}
    (h : ∀ c ∈ v, p c = q c) :
    collapse p sep inRun v = collapse q sep inRun v := by
  induction v generalizing inRun with
  | nil => rfl
  | cons c cs ih =>
      have hTail : ∀ b, collapse p sep b cs =
          collapse q sep b cs := fun b =>
        ih fun d hd => h d (List.mem_cons_of_mem c hd)
      simp only [collapse, h c List.mem_cons_self, hTail]

/- Separators weigh no more than what they replace. -/
theorem weight_join_splitFrom_le
    {sep : α}
    {weight : α → Nat}
    (hSep : ∀ c, p c = true → weight sep ≤ weight c)
    (word v : List α) :
    ((join sep (splitFrom p word v)).map weight).sum ≤
      (word.map weight).sum + (v.map weight).sum := by
  induction v generalizing word with
  | nil =>
      unfold splitFrom
      split
      · simp [join]
      · simp [join]
  | cons c cs ih =>
      unfold splitFrom
      split
      · rename_i hSpace
        have hTail := ih []
        have hLight := hSep c hSpace
        split
        · simp at hTail ⊢
          omega
        · cases hRest : splitFrom p [] cs with
          | nil => simp [join]
          | cons w ws =>
              rw [hRest] at hTail
              simp [join] at hTail ⊢
              omega
      · have hTail := ih (c :: word)
        simp at hTail ⊢
        omega

/- Joining the words of a list makes it no heavier. -/
theorem weight_join_split_le
    {sep : α}
    {weight : α → Nat}
    (hSep : ∀ c, p c = true → weight sep ≤ weight c)
    (v : List α) :
    ((join sep (split p v)).map weight).sum ≤
      (v.map weight).sum := by
  have hWeight := weight_join_splitFrom_le hSep [] v
  simpa [split] using hWeight

/- Nor does it make it longer. -/
theorem length_join_split_le
    {sep : α}
    (v : List α) :
    (join sep (split p v)).length ≤ v.length := by
  have hWeight := @weight_join_split_le α p sep (fun _ => 1)
    (fun _ _ => Nat.le_refl 1) v
  simpa using hWeight

end Words
