import DcInventory.Library.Words

/-
  This file defines lists that differ only in the separators
  between their words.

  Key definitions include:
    * `Words.Alike`

  Key theorems include:
    * `Words.alike_of_split`
    * `Words.Alike.dropWhile`
    * `Words.Alike.leads`
    * `Words.Alike.flatMap`
-/

namespace Words

variable {α : Type}
variable {p q : α → Bool}

/-
  The same solid elements, with separators at the same
  places, though not the same separators.
-/
inductive Alike (p : α → Bool) : List α → List α → Prop where
| ends {r r'}
    (hr : ∀ c ∈ r, p c = true)
    (hr' : ∀ c ∈ r', p c = true) :
    Alike p r r'
| solid {c v w}
    (hc : p c = false)
    (h : Alike p v w) :
    Alike p (c :: v) (c :: w)
| space {c c' r r' v w}
    (hr : ∀ d ∈ c :: r, p d = true)
    (hr' : ∀ d ∈ c' :: r', p d = true)
    (h : Alike p v w) :
    Alike p (c :: (r ++ v)) (c' :: (r' ++ w))

namespace Alike

theorem symm
    {v w : List α}
    (h : Alike p v w) :
    Alike p w v := by
  induction h with
  | ends hr hr' => exact .ends hr' hr
  | solid hc _ ih => exact .solid hc ih
  | space hr hr' _ ih => exact .space hr' hr ih

theorem append
    {u v w : List α}
    (hu : ∀ c ∈ u, p c = false)
    (h : Alike p v w) :
    Alike p (u ++ v) (u ++ w) := by
  induction u with
  | nil => exact h
  | cons c cs ih =>
      exact .solid (hu c List.mem_cons_self)
        (ih fun d hd => hu d (List.mem_cons_of_mem c hd))

/- More separators on both sides, if there are some on one. -/
theorem spaces
    {r r' v w : List α}
    (hr : ∀ c ∈ r, p c = true)
    (hr' : ∀ c ∈ r', p c = true)
    (hSome : r ≠ [])
    (hSome' : r' ≠ [])
    (h : Alike p v w) :
    Alike p (r ++ v) (r' ++ w) := by
  cases r with
  | nil => exact absurd rfl hSome
  | cons c cs =>
      cases r' with
      | nil => exact absurd rfl hSome'
      | cons c' cs' => exact .space hr hr' h

/- Nothing solid is first in a list of separators. -/
theorem head_ends
    {r : List α}
    (hq : ∀ c, q c = true → p c = false)
    (hr : ∀ c ∈ r, p c = true) :
    r.head?.any q = false := by
  cases r with
  | nil => rfl
  | cons c cs =>
      have hc := hr c List.mem_cons_self
      by_contra hTrue
      have hSolid := hq c (by simpa using hTrue)
      rw [hc] at hSolid
      cases hSolid

/- Solid elements are first in both or in none. -/
theorem head
    (hq : ∀ c, q c = true → p c = false)
    {v w : List α}
    (h : Alike p v w) :
    v.head?.any q = w.head?.any q := by
  cases h with
  | ends hr hr' => rw [head_ends hq hr, head_ends hq hr']
  | solid hc h => rfl
  | @space c c' r r' v w hr hr' h =>
      have hLeft := head_ends hq hr
      have hRight := head_ends hq hr'
      exact hLeft.trans hRight.symm

theorem takeWhile_ends
    {r : List α}
    (hr : r.head?.any q = false) :
    r.takeWhile q = [] ∧ r.dropWhile q = r := by
  cases r with
  | nil => exact ⟨rfl, rfl⟩
  | cons c cs =>
      have hc : q c = false := by simpa using hr
      rw [List.takeWhile_cons, List.dropWhile_cons, hc]
      exact ⟨rfl, rfl⟩

/- What is solid is taken from both, and leaves lists alike. -/
theorem takeWhile
    (hq : ∀ c, q c = true → p c = false)
    {v w : List α}
    (h : Alike p v w) :
    v.takeWhile q = w.takeWhile q ∧
      Alike p (v.dropWhile q) (w.dropWhile q) := by
  induction h with
  | ends hr hr' =>
      rcases takeWhile_ends (head_ends hq hr) with ⟨hT, hD⟩
      rcases takeWhile_ends (head_ends hq hr') with ⟨hT', hD'⟩
      rw [hT, hT', hD, hD']
      exact ⟨rfl, .ends hr hr'⟩
  | @solid c v w hc h ih =>
      simp only [List.takeWhile_cons, List.dropWhile_cons]
      cases q c with
      | true => exact ⟨congrArg (List.cons c) ih.1, ih.2⟩
      | false => exact ⟨rfl, .solid hc h⟩
  | @space c c' r r' v w hr hr' h _ =>
      have hLeft : (c :: (r ++ v)).head?.any q = false :=
        head_ends (r := c :: r) hq hr
      have hRight : (c' :: (r' ++ w)).head?.any q = false :=
        head_ends (r := c' :: r') hq hr'
      rcases takeWhile_ends hLeft with ⟨hT, hD⟩
      rcases takeWhile_ends hRight with ⟨hT', hD'⟩
      rw [hT, hT', hD, hD']
      exact ⟨rfl, .space hr hr' h⟩

/- Separators at the beginning are dropped from both. -/
theorem dropWhile
    {v w : List α}
    (h : Alike p v w) :
    Alike p (v.dropWhile p) (w.dropWhile p) := by
  induction h with
  | ends hr hr' =>
      rw [List.dropWhile_eq_nil_iff.mpr hr,
        List.dropWhile_eq_nil_iff.mpr hr']
      exact .ends (by simp) (by simp)
  | @solid c v w hc h _ =>
      rw [List.dropWhile_cons_of_neg (by simp [hc]),
        List.dropWhile_cons_of_neg (by simp [hc])]
      exact .solid hc h
  | @space c c' r r' v w hr hr' _ ih =>
      have hDrop : ∀ (u : List α) (s : List α),
          (∀ d ∈ u, p d = true) →
          (u ++ s).dropWhile p = s.dropWhile p := by
        intro u s hu
        rw [List.dropWhile_append,
          List.dropWhile_eq_nil_iff.mpr hu]
        rfl
      have hLeft := hDrop (c :: r) v hr
      have hRight := hDrop (c' :: r') w hr'
      rw [List.cons_append] at hLeft hRight
      rw [hLeft, hRight]
      exact ih

/- Solid lists are at the beginning of both or of none. -/
theorem leads
    [DecidableEq α]
    {u v w : List α}
    (hu : ∀ c ∈ u, p c = false)
    (h : Alike p v w) :
    u.isPrefixOf v = u.isPrefixOf w ∧
      (u.isPrefixOf v = true →
        Alike p (v.drop u.length) (w.drop u.length)) := by
  induction u generalizing v w with
  | nil => exact ⟨by simp, fun _ => h⟩
  | cons d ds ih =>
      have hd := hu d List.mem_cons_self
      have hds := fun c hc => hu c (List.mem_cons_of_mem d hc)
      have hNot : ∀ {s : List α},
          s.head?.any (fun c => !p c) = false →
          (d :: ds).isPrefixOf s = false := by
        intro s hs
        cases s with
        | nil => rfl
        | cons c cs =>
            have hc : p c = true := by simpa using hs
            have hNe : d ≠ c := by
              rintro rfl
              rw [hd] at hc
              cases hc
            simp [List.isPrefixOf, hNe]
      have hSolid : ∀ c, (!p c) = true → p c = false :=
        fun c hc => by simpa using hc
      cases h with
      | ends hr hr' =>
          rw [hNot (head_ends hSolid hr),
            hNot (head_ends hSolid hr')]
          exact ⟨rfl, fun hEq => by cases hEq⟩
      | @solid c v w hc h =>
          by_cases hEq : d = c
          · subst hEq
            rcases ih hds h with ⟨hSame, hRest⟩
            simp only [List.isPrefixOf, BEq.rfl, Bool.true_and,
              List.length_cons, List.drop_succ_cons]
            exact ⟨hSame, hRest⟩
          · have hNe : (d == c) = false := by simpa using hEq
            simp [List.isPrefixOf, hNe]
      | @space c c' r r' v w hr hr' h =>
          have hLeft : (c :: (r ++ v)).head?.any
              (fun c => !p c) = false :=
            head_ends (r := c :: r) hSolid hr
          have hRight : (c' :: (r' ++ w)).head?.any
              (fun c => !p c) = false :=
            head_ends (r := c' :: r') hSolid hr'
          rw [hNot hLeft, hNot hRight]
          exact ⟨rfl, fun hEq => by cases hEq⟩

/- Lists stay alike if separators are kept. -/
theorem flatMap
    {f : α → List α}
    (hSpace : ∀ c, p c = true → f c = [c])
    (hSolid : ∀ c, p c = false → ∀ d ∈ f c, p d = false)
    {v w : List α}
    (h : Alike p v w) :
    Alike p (v.flatMap f) (w.flatMap f) := by
  have hKeep : ∀ r : List α, (∀ c ∈ r, p c = true) →
      r.flatMap f = r := by
    intro r hr
    induction r with
    | nil => rfl
    | cons c cs ih =>
        rw [List.flatMap_cons, hSpace c (hr c List.mem_cons_self),
          ih fun d hd => hr d (List.mem_cons_of_mem c hd)]
        rfl
  induction h with
  | ends hr hr' =>
      rw [hKeep _ hr, hKeep _ hr']
      exact .ends hr hr'
  | @solid c v w hc h ih =>
      rw [List.flatMap_cons, List.flatMap_cons]
      exact append (hSolid c hc) ih
  | @space c c' r r' v w hr hr' h ih =>
      have hLeft := hKeep (c :: r) hr
      have hRight := hKeep (c' :: r') hr'
      rw [← List.cons_append, ← List.cons_append,
        List.flatMap_append, List.flatMap_append, hLeft, hRight]
      exact .space hr hr' ih

end Alike

------------------------------------------------------------
-- Words
------------------------------------------------------------

/- Joined lists have the words of all of them. -/
theorem split_join_flatMap
    {sep : α}
    (hSep : p sep = true)
    (vs : List (List α)) :
    split p (join sep vs) = vs.flatMap (split p) := by
  induction vs with
  | nil => rfl
  | cons v vs ih =>
      cases vs with
      | nil => simp [join]
      | cons v' vs =>
          rw [join, split_append hSep, ih]
          · rfl
          · exact List.cons_ne_nil v' vs

/- A first word, and what follows it. -/
theorem split_eq_cons
    {v : List α}
    (hSome : v.dropWhile p ≠ []) :
    split p v = (v.dropWhile p).takeWhile (fun c => !p c) ::
      split p ((v.dropWhile p).dropWhile (fun c => !p c)) := by
  have hTake := List.takeWhile_append_dropWhile
    (p := fun c => !p c) (l := v.dropWhile p)
  have hWord : IsWord p
      ((v.dropWhile p).takeWhile (fun c => !p c)) := by
    constructor
    · intro hNil
      cases hDrop : v.dropWhile p with
      | nil => exact hSome hDrop
      | cons c cs =>
          have hc : p c = false := head_dropWhile (by
            rw [hDrop]
            rfl)
          rw [hDrop, List.takeWhile_cons, hc] at hNil
          cases hNil
    · intro c hc
      have hTrue := List.mem_takeWhile_imp hc
      simpa using hTrue
  rw [← split_dropWhile v]
  conv_lhs => rw [← hTake]
  cases hRest : (v.dropWhile p).dropWhile (fun c => !p c) with
  | nil =>
      rw [List.append_nil, split_word hWord]
      rfl
  | cons c cs =>
      have hc : p c = true := by
        have hHead := head_dropWhile (p := fun c => !p c)
          (v := v.dropWhile p) (c := c) (by
            rw [hRest]
            rfl)
        simpa using hHead
      rw [split_append hc, split_word hWord, split_cons hc]
      rfl

/- Lists with the same words are alike from their first. -/
theorem alike_of_split
    {v w : List α}
    (h : split p v = split p w) :
    Alike p (v.dropWhile p) (w.dropWhile p) := by
  induction hLength : v.length using Nat.strong_induction_on
    generalizing v w with
  | _ n ih =>
    by_cases hNil : v.dropWhile p = []
    · have hAll := List.dropWhile_eq_nil_iff.mp hNil
      have hWords := split_eq_nil_iff.mpr hAll
      rw [h, split_eq_nil_iff] at hWords
      rw [hNil, List.dropWhile_eq_nil_iff.mpr hWords]
      exact .ends (by simp) (by simp)
    · have hNil' : w.dropWhile p ≠ [] := by
        intro hEmpty
        have hWords := split_eq_nil_iff.mpr
          (List.dropWhile_eq_nil_iff.mp hEmpty)
        rw [← h, split_eq_nil_iff] at hWords
        exact hNil (List.dropWhile_eq_nil_iff.mpr hWords)
      rw [split_eq_cons hNil, split_eq_cons hNil'] at h
      injection h with hWord hRest
      have hTake : ∀ s : List α,
          s.takeWhile (fun c => !p c) ++
            s.dropWhile (fun c => !p c) = s :=
        fun s => List.takeWhile_append_dropWhile
      rw [← hTake (v.dropWhile p), ← hTake (w.dropWhile p),
        ← hWord]
      apply Alike.append
      · intro c hc
        simpa using List.mem_takeWhile_imp hc
      · have hSpaces : ∀ s : List α,
            s.takeWhile p ++ s.dropWhile p = s :=
          fun s => List.takeWhile_append_dropWhile
        -- what follows the word begins with separators
        have hBegins : ∀ s : List α,
            s.dropWhile (fun c => !p c) ≠ [] →
            (s.dropWhile (fun c => !p c)).takeWhile p ≠ [] := by
          intro s hs
          cases hCase : s.dropWhile (fun c => !p c) with
          | nil => exact absurd hCase hs
          | cons c cs =>
              have hHead := head_dropWhile
                (p := fun c => !p c) (v := s) (c := c) (by
                  rw [hCase]
                  rfl)
              have hc : p c = true := by simpa using hHead
              rw [List.takeWhile_cons, hc]
              simp
        have hShort : ((v.dropWhile p).dropWhile
            (fun c => !p c)).length < n := by
          have hSum := congrArg List.length
            (hTake (v.dropWhile p))
          have hDrop := (List.dropWhile_suffix p
            (l := v)).length_le
          rw [List.length_append] at hSum
          have hSome : (v.dropWhile p).takeWhile
              (fun c => !p c) ≠ [] := by
            cases hCase : v.dropWhile p with
            | nil => exact absurd hCase hNil
            | cons c cs =>
                have hc : p c = false := head_dropWhile (by
                  rw [hCase]
                  rfl)
                simp [hc]
          have hPos := List.length_pos_of_ne_nil hSome
          omega
        have hNext := ih _ hShort hRest rfl
        by_cases hLast : (v.dropWhile p).dropWhile
            (fun c => !p c) = []
        · rw [hLast] at hRest ⊢
          have hEnds := split_eq_nil_iff.mp hRest.symm
          exact .ends (by simp) hEnds
        · by_cases hLast' : (w.dropWhile p).dropWhile
              (fun c => !p c) = []
          · rw [hLast'] at hRest ⊢
            have hEnds := split_eq_nil_iff.mp hRest
            exact .ends hEnds (by simp)
          · rw [← hSpaces ((v.dropWhile p).dropWhile _),
              ← hSpaces ((w.dropWhile p).dropWhile _)]
            exact Alike.spaces
              (fun c hc => List.mem_takeWhile_imp hc)
              (fun c hc => List.mem_takeWhile_imp hc)
              (hBegins _ hLast) (hBegins _ hLast') hNext

end Words
