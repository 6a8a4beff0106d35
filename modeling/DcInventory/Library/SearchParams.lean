import Mathlib.Data.List.Basic

/-
  This file defines the parameters of an address as a list
  of names with values.

  Key definitions include:
    * `SearchParams.get`
    * `SearchParams.getAll`
    * `SearchParams.set`
    * `SearchParams.written`

  Key theorems include:
    * `SearchParams.set_of_absent`
    * `SearchParams.getAll_written`
    * `SearchParams.getAll_set_of_ne`
-/

abbrev SearchParams := List (List Char × List Char)

namespace SearchParams

/- The first value of a name. -/
def get
    (params : SearchParams)
    (name : List Char) : Option (List Char) :=
  (params.find? (fun p => p.1 = name)).map Prod.snd

/- All values of a name, in order. -/
def getAll
    (params : SearchParams)
    (name : List Char) : List (List Char) :=
  (params.filter (fun p => p.1 = name)).map Prod.snd

def append
    (params : SearchParams)
    (name value : List Char) : SearchParams :=
  params ++ [(name, value)]

/- The first value is replaced, the others are removed. -/
def set
    (name value : List Char) : SearchParams → SearchParams
| [] => [(name, value)]
| p :: ps =>
    if p.1 = name then
      (name, value) :: ps.filter (fun p => p.1 ≠ name)
    else p :: set name value ps

/- A name with several values. -/
def entries
    (name : List Char)
    (values : List (List Char)) : SearchParams :=
  values.map (fun value => (name, value))

/- No value is given to the name. -/
def Lacks (name : List Char) (params : SearchParams) : Prop :=
  ∀ p ∈ params, p.1 ≠ name

variable {name other : List Char}
variable {params : SearchParams}

theorem lacks_entries
    (hNe : other ≠ name)
    (values : List (List Char)) :
    Lacks name (entries other values) := by
  intro p hp
  rcases List.mem_map.mp hp with ⟨value, _, rfl⟩
  exact hNe

/- A name that is absent is set at the end. -/
theorem set_of_absent
    (hLacks : Lacks name params)
    (value : List Char) :
    set name value params = params ++ entries name [value] := by
  induction params with
  | nil => rfl
  | cons p ps ih =>
      have hHead := hLacks p List.mem_cons_self
      have hTail := ih fun q hq =>
        hLacks q (List.mem_cons_of_mem p hq)
      rw [set, if_neg hHead, hTail]
      rfl

/- Values that are appended one after the other. -/
theorem foldl_append
    (values : List (List Char)) :
    values.foldl (fun params value =>
      append params name value) params =
      params ++ entries name values := by
  induction values generalizing params with
  | nil => simp [entries]
  | cons value values ih =>
      rw [List.foldl_cons, ih]
      simp [append, entries]

/- The first value is the first of all values. -/
theorem get_eq_head
    (params : SearchParams)
    (name : List Char) :
    get params name = (getAll params name).head? := by
  unfold get getAll
  rw [List.head?_map, List.head?_filter]

theorem getAll_append
    (before after : SearchParams)
    (name : List Char) :
    getAll (before ++ after) name =
      getAll before name ++ getAll after name := by
  unfold getAll
  rw [List.filter_append, List.map_append]

@[simp]
theorem getAll_entries_self
    (name : List Char)
    (values : List (List Char)) :
    getAll (entries name values) name = values := by
  unfold getAll entries
  rw [List.filter_eq_self.mpr]
  · rw [List.map_map]
    exact List.map_id values
  · intro p hp
    rcases List.mem_map.mp hp with ⟨value, _, rfl⟩
    simp

theorem getAll_entries_of_ne
    (hNe : other ≠ name)
    (values : List (List Char)) :
    getAll (entries other values) name = [] := by
  unfold getAll entries
  rw [List.filter_eq_nil_iff.mpr]
  · rfl
  · intro p hp
    simpa using lacks_entries hNe values p hp

/- Setting a name leaves the values of the others. -/
theorem getAll_set_of_ne
    (hNe : other ≠ name)
    (value : List Char) :
    getAll (set other value params) name =
      getAll params name := by
  induction params with
  | nil => simp [set, getAll, hNe]
  | cons p ps ih =>
      unfold set
      split
      · rename_i hEq
        have hOut : p.1 ≠ name := hEq ▸ hNe
        unfold getAll
        rw [List.filter_cons_of_neg (by simpa using hNe),
          List.filter_cons_of_neg (by simpa using hOut),
          List.filter_filter]
        congr 2
        funext q
        by_cases hq : q.1 = name
        · simp [hq, Ne.symm hNe]
        · simp [hq]
      · unfold getAll at ih ⊢
        by_cases hp : p.1 = name
        · rw [List.filter_cons_of_pos (by simpa using hp),
            List.filter_cons_of_pos (by simpa using hp),
            List.map_cons, List.map_cons, ih]
        · rw [List.filter_cons_of_neg (by simpa using hp),
            List.filter_cons_of_neg (by simpa using hp), ih]

theorem get_set_of_ne
    (hNe : other ≠ name)
    (value : List Char) :
    get (set other value params) name = get params name := by
  rw [get_eq_head, get_eq_head, getAll_set_of_ne hNe]

------------------------------------------------------------
-- Written Names
------------------------------------------------------------

/- Names with their values, one name after the other. -/
def written
    (fields : List (List Char × List (List Char))) :
    SearchParams :=
  fields.flatMap (fun f => entries f.1 f.2)

theorem written_concat
    (fields : List (List Char × List (List Char)))
    (name : List Char)
    (values : List (List Char)) :
    written fields ++ entries name values =
      written (fields ++ [(name, values)]) := by
  simp [written]

theorem lacks_written
    {fields : List (List Char × List (List Char))}
    (h : name ∉ fields.map Prod.fst) :
    Lacks name (written fields) := by
  intro p hp
  rcases List.mem_flatMap.mp hp with ⟨f, hf, hMem⟩
  apply lacks_entries _ f.2 p hMem
  rintro rfl
  exact h (List.mem_map_of_mem hf)

/- A name that is written once has the values given to it. -/
theorem getAll_written
    {fields : List (List Char × List (List Char))}
    (hKeys : (fields.map Prod.fst).Nodup)
    {values : List (List Char)}
    (hMem : (name, values) ∈ fields) :
    getAll (written fields) name = values := by
  induction fields with
  | nil => cases hMem
  | cons f fs ih =>
      rw [List.map_cons, List.nodup_cons] at hKeys
      have hStep : written (f :: fs) =
          entries f.1 f.2 ++ written fs := rfl
      rw [hStep, getAll_append]
      rcases List.mem_cons.mp hMem with rfl | hTail
      · have hNone : getAll (written fs) name = [] := by
          unfold getAll
          rw [List.filter_eq_nil_iff.mpr]
          · rfl
          · intro p hp
            simpa using lacks_written hKeys.1 p hp
        rw [getAll_entries_self, hNone, List.append_nil]
      · have hNe : f.1 ≠ name := by
          rintro rfl
          exact hKeys.1 (List.mem_map.mpr ⟨_, hTail, rfl⟩)
        rw [getAll_entries_of_ne hNe, ih hKeys.2 hTail,
          List.nil_append]

end SearchParams
