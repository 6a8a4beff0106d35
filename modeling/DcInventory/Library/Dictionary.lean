import DcInventory.Library.Table

/-
  This file defines dictionaries that keep the order in which
  their keys were inserted.

  Key definitions include:
    * `Dictionary`
    * `Dictionary.get?`
    * `Dictionary.set`
    * `Dictionary.erase`
    * `Dictionary.ofList`

  Key theorems include:
    * `Dictionary.mem_entries`
    * `Dictionary.get?_set`
    * `Dictionary.get?_ofList`
-/

/- Entries with different keys. -/
structure Dictionary (K V : Type) where
  entries : List (K × V)
  nodup : (entries.map Prod.fst).Nodup

namespace Dictionary

variable {K V W : Type}

@[ext]
theorem ext
    {d d' : Dictionary K V}
    (h : d.entries = d'.entries) :
    d = d' := by
  cases d
  cases d'
  cases h
  rfl

instance [DecidableEq K] [DecidableEq V] :
    DecidableEq (Dictionary K V) := fun d d' =>
  decidable_of_iff (d.entries = d'.entries)
    ⟨ext, congrArg entries⟩

/- The dictionary without entries. -/
def empty : Dictionary K V :=
  ⟨[], List.nodup_nil⟩

def keys (d : Dictionary K V) : List K :=
  d.entries.map Prod.fst

/- The same keys with other values. -/
def mapValues (f : V → W) (d : Dictionary K V) :
    Dictionary K W where
  entries := d.entries.map (fun e => (e.1, f e.2))
  nodup := by
    rw [List.map_map]
    exact d.nodup

variable [DecidableEq K]

/- The value of a key. -/
def get? (d : Dictionary K V) (k : K) : Option V :=
  (Table.find Prod.fst k d.entries).map Prod.snd

/- Replace the value of a key, or append it. -/
def set (k : K) (v : V) (d : Dictionary K V) :
    Dictionary K V where
  entries := Table.put Prod.fst (k, v) d.entries
  nodup := Table.nodup_put (k, v) d.nodup

/- Remove a key. -/
def erase (k : K) (d : Dictionary K V) : Dictionary K V where
  entries := Table.erase Prod.fst k d.entries
  nodup := Table.nodup_erase k d.nodup

/- Set the entries of a list one after the other. -/
def ofList (entries : List (K × V)) : Dictionary K V :=
  entries.foldl (fun d e => d.set e.1 e.2) empty

/- Entries are what is found by their keys. -/
theorem mem_entries
    {d : Dictionary K V}
    {k : K}
    {v : V} :
    (k, v) ∈ d.entries ↔ d.get? k = some v := by
  constructor
  · intro hMem
    rw [get?, Table.find_of_mem d.nodup hMem]
    rfl
  · intro hGet
    rcases Option.map_eq_some_iff.mp hGet with ⟨e, hFind, hv⟩
    have hKey := Table.key_of_find hFind
    have hMem := Table.mem_of_find hFind
    rw [← hKey, ← hv]
    exact hMem

theorem mem_keys
    {d : Dictionary K V}
    {k : K} :
    k ∈ d.keys ↔ ∃ v, d.get? k = some v := by
  constructor
  · intro hMem
    rcases List.mem_map.mp hMem with ⟨⟨k', v⟩, he, rfl⟩
    exact ⟨v, mem_entries.mp he⟩
  · rintro ⟨v, hGet⟩
    exact List.mem_map.mpr
      ⟨(k, v), mem_entries.mpr hGet, rfl⟩

@[simp]
theorem get?_empty (k : K) :
    (empty : Dictionary K V).get? k = none :=
  rfl

theorem get?_set
    (d : Dictionary K V)
    (k k' : K)
    (v : V) :
    (d.set k v).get? k' =
      if k' = k then some v else d.get? k' := by
  unfold get? set
  split
  · rename_i hEq
    subst hEq
    have hFind := @Table.find_put_self K (K × V) _ Prod.fst
      (k', v) d.entries
    rw [hFind]
    rfl
  · rename_i hNe
    rw [@Table.find_put_of_ne K (K × V) _ Prod.fst k' (k, v)
      d.entries (Ne.symm hNe)]

theorem get?_erase
    (d : Dictionary K V)
    (k k' : K) :
    (d.erase k).get? k' =
      if k' = k then none else d.get? k' := by
  unfold get? erase
  split
  · rename_i hEq
    subst hEq
    rw [Table.find_erase_self]
    rfl
  · rename_i hNe
    rw [Table.find_erase_of_ne d.entries hNe]

theorem get?_mapValues
    (f : V → W)
    (d : Dictionary K V)
    (k : K) :
    (d.mapValues f).get? k = (d.get? k).map f := by
  unfold get? mapValues Table.find
  rw [List.find?_map, Option.map_map, Option.map_map]
  rfl

/- Setting entries with new keys appends them. -/
theorem foldl_set_entries
    {es : List (K × V)}
    {d : Dictionary K V}
    (h : (d.entries ++ es).map Prod.fst |>.Nodup) :
    (es.foldl (fun d e => d.set e.1 e.2) d).entries =
      d.entries ++ es := by
  induction es generalizing d with
  | nil => simp
  | cons e es ih =>
      have hNew : e.1 ∉ d.entries.map Prod.fst := by
        rw [List.map_append, List.nodup_append] at h
        intro hOld
        exact h.2.2 _ hOld _ (by simp) rfl
      have hPut : Table.put Prod.fst e d.entries =
          d.entries ++ [e] := by
        have hAll : ∀ rows : List (K × V),
            e.1 ∉ rows.map Prod.fst →
            Table.put Prod.fst e rows = rows ++ [e] := by
          intro rows
          induction rows with
          | nil => exact fun _ => rfl
          | cons x xs ihRows =>
              intro hMiss
              rw [List.map_cons, List.mem_cons, not_or] at hMiss
              rw [Table.put, if_neg (Ne.symm hMiss.1),
                ihRows hMiss.2]
              rfl
        exact hAll _ hNew
      have hSet : (d.set e.1 e.2).entries =
          d.entries ++ [e] := hPut
      rw [List.foldl_cons, ih, hSet]
      · simp
      · rw [hSet]
        simpa using h

/- Entries with different keys are kept as they are. -/
theorem entries_ofList
    {es : List (K × V)}
    (h : (es.map Prod.fst).Nodup) :
    (ofList es).entries = es :=
  foldl_set_entries (d := empty) h

theorem get?_ofList
    {es : List (K × V)}
    (h : (es.map Prod.fst).Nodup)
    {k : K}
    {v : V} :
    (ofList es).get? k = some v ↔ (k, v) ∈ es := by
  rw [← mem_entries, entries_ofList h]

end Dictionary
