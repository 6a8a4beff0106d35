import DcInventory.Frontend.CatalogQuery
import DcInventory.Library.Toggling

/-
  This file defines the buttons for the speeds of Ethernet
  transceivers, which set filters for the texts of speeds,
  and proves when a button has an effect.

  Key definitions include:
    * `SpeedBuckets.speedNumbers`
    * `SpeedBuckets.isSpeedBucketSelected`
    * `SpeedBuckets.toggleSpeedBucket`
    * `SpeedBuckets.Toggles`

  Key theorems include:
    * `SpeedBuckets.selected_toggle`
    * `SpeedBuckets.toggles_iff`
-/

namespace SpeedBuckets

open CatalogView (CatalogAttributeFilter Collation)

------------------------------------------------------------
-- Numbers
------------------------------------------------------------

inductive EthernetSpeedBucket where
| hundred
| forty
| twentyFive
| ten
deriving DecidableEq, Repr

/- `ETHERNET_SPEED_BUCKETS` -/
def buckets : List EthernetSpeedBucket :=
  [.hundred, .forty, .twentyFive, .ten]

def EthernetSpeedBucket.number : EthernetSpeedBucket → ℚ
| .hundred => 100
| .forty => 40
| .twentyFive => 25
| .ten => 10

/- Half the distance of a bucket to the next double. -/
def EthernetSpeedBucket.halfStep : EthernetSpeedBucket → ℚ
| .hundred => 1 / 2 ^ 47
| .forty => 1 / 2 ^ 48
| .twentyFive => 1 / 2 ^ 49
| .ten => 1 / 2 ^ 50

/-
  `/Гбит\/с/i`: every sign with those that have the same
  capital letter.
-/
def gigabitSigns : List (List Char) :=
  [['Г', 'г'], ['б', 'Б'], ['и', 'И'],
    ['т', 'Т', '\u1C84', '\u1C85'], ['/'],
    ['с', 'С', '\u1C83']]

def startsWithSigns : List (List Char) → Text → Bool
| [], _ => true
| _ :: _, [] => false
| signs :: rest, c :: v =>
    signs.contains c && startsWithSigns rest v

def namesGigabits (value : Text) : Bool :=
  value.tails.any (startsWithSigns gigabitSigns)

/- The digits behind a point or a comma, and the rest. -/
def readDecimals : Text → Text × Text
| [] => ([], [])
| c :: v =>
    let digits := v.takeWhile Char.isDigit
    if (c = '.' ∨ c = ',') ∧ digits ≠ [] then
      (digits, v.dropWhile Char.isDigit)
    else ([], c :: v)

/- The matches of `/\d+(?:[.,]\d+)?/g` as exact numbers. -/
def scanNumbers : Nat → Text → List ℚ
| 0, _ => []
| _ + 1, [] => []
| fuel + 1, c :: v =>
    if c.isDigit then
      let whole := (c :: v).takeWhile Char.isDigit
      let (decimals, rest) :=
        readDecimals ((c :: v).dropWhile Char.isDigit)
      (Nat.ofDigitChars 10 (whole ++ decimals) 0 : ℚ) /
          10 ^ decimals.length :: scanNumbers fuel rest
    else scanNumbers fuel v

def speedNumbers (value : Text) : List ℚ :=
  if namesGigabits value then scanNumbers value.length value
  else []

/-
  `includes(bucket)`: the double that is nearest to one of
  the numbers. An even one wins, and the buckets are even.
-/
def includes
    (numbers : List ℚ)
    (bucket : EthernetSpeedBucket) : Bool :=
  numbers.any (fun x => decide
    (|x - bucket.number| ≤ bucket.halfStep))

------------------------------------------------------------
-- Buttons
------------------------------------------------------------

/- A facet: the texts of its values. -/
structure CatalogFacet where
  key : Text
  values : List Text
deriving DecidableEq, Repr

def speedKey : Text := "speed".toList

def speedFacetValuesForBucket
    (facet : Option CatalogFacet)
    (bucket : EthernetSpeedBucket) : List Text :=
  match facet with
  | none => []
  | some facet =>
      if facet.key ≠ speedKey then []
      else facet.values.filter
        (fun value => includes (speedNumbers value) bucket)

def selectedSpeedValues
    (filters : List CatalogAttributeFilter) : List Text :=
  (filters.filter (fun f =>
    f.key = speedKey ∧ f.operator = .eq)).map
      CatalogAttributeFilter.value

def isSpeedBucketSelected
    (filters : List CatalogAttributeFilter)
    (values : List Text) : Bool :=
  if values = [] then false
  else
    values.all (fun value => value ∈ selectedSpeedValues filters)

/- The buckets that are selected before a button is pressed. -/
def selectedBuckets
    (filters : List CatalogAttributeFilter)
    (facet : Option CatalogFacet) : List EthernetSpeedBucket :=
  buckets.filter (fun candidate =>
    let values := speedFacetValuesForBucket facet candidate
    values ≠ [] ∧
      values.all (fun value =>
        value ∈ selectedSpeedValues filters))

def pressed
    (selected : List EthernetSpeedBucket)
    (bucket : EthernetSpeedBucket) : List EthernetSpeedBucket :=
  if bucket ∈ selected then selected.filter (· ≠ bucket)
  else selected ++ [bucket]

def speedFilter (value : Text) : CatalogAttributeFilter :=
  ⟨speedKey, .eq, value⟩

/- `collation` is that of `localeCompare(right, "ru")`. -/
def toggleSpeedBucket
    (collation : Collation)
    (filters : List CatalogAttributeFilter)
    (facet : Option CatalogFacet)
    (bucket : EthernetSpeedBucket) :
    List CatalogAttributeFilter :=
  let remaining := filters.filter (fun f => f.key ≠ speedKey)
  let selected := pressed (selectedBuckets filters facet) bucket
  let nextValues := (selected.flatMap
    (speedFacetValuesForBucket facet)).eraseDups
  remaining ++ (nextValues.insertionSort (fun left right =>
    collation.le left right = true)).map speedFilter

example :
    [speedNumbers "10/25 Гбит/с".toList,
      speedNumbers "2,5 гБИТ/С".toList,
      speedNumbers "16G FC".toList] =
      [[10, 25], [5 / 2], []] := by
  decide +kernel

------------------------------------------------------------
-- Sets Of Values
------------------------------------------------------------

section Pressing

variable (facet : Option CatalogFacet)
variable (filters : List CatalogAttributeFilter)

/- The selected speeds as a set. -/
def selection : Set Text :=
  {value | value ∈ selectedSpeedValues filters}

/- The values of a bucket as a set. -/
def parts (bucket : EthernetSpeedBucket) : Set Text :=
  {value | value ∈ speedFacetValuesForBucket facet bucket}

theorem parts_nonempty_iff (bucket : EthernetSpeedBucket) :
    (parts facet bucket).Nonempty ↔
      speedFacetValuesForBucket facet bucket ≠ [] := by
  constructor
  · rintro ⟨value, hMem⟩
    exact List.ne_nil_of_mem hMem
  · exact fun hSome => List.exists_mem_of_ne_nil _ hSome

theorem mem_buckets (bucket : EthernetSpeedBucket) :
    bucket ∈ buckets := by
  cases bucket <;> decide

/- A bucket is selected if its part is there as a whole. -/
theorem selected_iff (bucket : EthernetSpeedBucket) :
    isSpeedBucketSelected filters
        (speedFacetValuesForBucket facet bucket) = true ↔
      bucket ∈ Toggling.on (parts facet) (selection filters) := by
  unfold isSpeedBucketSelected
  split
  · rename_i hNone
    apply iff_of_false Bool.false_ne_true
    rintro ⟨hSome, _⟩
    exact (parts_nonempty_iff facet bucket).mp hSome hNone
  · rename_i hSome
    rw [List.all_eq_true]
    constructor
    · intro hAll
      refine ⟨(parts_nonempty_iff facet bucket).mpr hSome, ?_⟩
      intro value hMem
      have hSelected : value ∈ selectedSpeedValues filters :=
        of_decide_eq_true (hAll value hMem)
      exact hSelected
    · rintro ⟨_, hSubset⟩ value hMem
      have hSelected : value ∈ selectedSpeedValues filters :=
        hSubset hMem
      exact decide_eq_true hSelected

theorem mem_selectedBuckets (bucket : EthernetSpeedBucket) :
    bucket ∈ selectedBuckets filters facet ↔
      bucket ∈ Toggling.on (parts facet) (selection filters) := by
  rw [← selected_iff]
  unfold selectedBuckets isSpeedBucketSelected
  rw [List.mem_filter]
  by_cases hNone : speedFacetValuesForBucket facet bucket = []
  · simp [hNone]
  · simp [hNone, mem_buckets]

theorem mem_pressed
    (selected : List EthernetSpeedBucket)
    (bucket candidate : EthernetSpeedBucket) :
    candidate ∈ pressed selected bucket ↔
      candidate ∈ symmDiff {c | c ∈ selected} {bucket} := by
  rw [Set.mem_symmDiff]
  unfold pressed
  split
  · rename_i hIn
    rw [List.mem_filter, decide_eq_true_eq]
    constructor
    · rintro ⟨hMem, hOther⟩
      exact Or.inl ⟨hMem, hOther⟩
    · rintro (⟨hMem, hOther⟩ | ⟨rfl, hOut⟩)
      · exact ⟨hMem, hOther⟩
      · exact absurd hIn hOut
  · rename_i hOut
    rw [List.mem_append, List.mem_singleton]
    constructor
    · rintro (hMem | rfl)
      · refine Or.inl ⟨hMem, ?_⟩
        rintro rfl
        exact hOut hMem
      · exact Or.inr ⟨rfl, hOut⟩
    · rintro (⟨hMem, _⟩ | ⟨rfl, _⟩)
      · exact Or.inl hMem
      · exact Or.inr rfl

variable (collation : Collation)

/- The values that are selected after a button. -/
theorem mem_selected_toggle
    (bucket : EthernetSpeedBucket)
    (value : Text) :
    value ∈ selectedSpeedValues
        (toggleSpeedBucket collation filters facet bucket) ↔
      ∃ c ∈ pressed (selectedBuckets filters facet) bucket,
        value ∈ speedFacetValuesForBucket facet c := by
  unfold selectedSpeedValues toggleSpeedBucket
  simp only [List.mem_map, List.mem_filter, List.mem_append,
    List.mem_insertionSort, List.mem_eraseDups,
    List.mem_flatMap, decide_eq_true_eq]
  constructor
  · rintro ⟨f, ⟨⟨_, hOther⟩ | ⟨v, hPart, rfl⟩, hSpeed, _⟩, rfl⟩
    · exact absurd hSpeed hOther
    · exact hPart
  · intro hPart
    exact ⟨speedFilter value,
      ⟨Or.inr ⟨value, hPart, rfl⟩, rfl, rfl⟩, rfl⟩

/- The selection after a button is that of the switches. -/
theorem selected_toggle (bucket : EthernetSpeedBucket) :
    selection (toggleSpeedBucket collation filters facet
        bucket) =
      Toggling.toggle (parts facet) bucket
        (selection filters) := by
  have hSwitches : {c | c ∈ selectedBuckets filters facet} =
      Toggling.on (parts facet) (selection filters) :=
    Set.ext (mem_selectedBuckets facet filters)
  ext value
  refine Iff.trans
    (mem_selected_toggle facet filters collation bucket value)
    ?_
  unfold Toggling.toggle
  rw [← hSwitches]
  constructor
  · rintro ⟨c, hSwitch, hPart⟩
    exact ⟨c, (mem_pressed _ bucket c).mp hSwitch, hPart⟩
  · rintro ⟨c, hSwitch, hPart⟩
    exact ⟨c, (mem_pressed _ bucket c).mpr hSwitch, hPart⟩

/- The filters of other attributes. -/
def otherFilters : List CatalogAttributeFilter :=
  filters.filter (fun f => f.key ≠ speedKey)

theorem otherFilters_toggle (bucket : EthernetSpeedBucket) :
    otherFilters (toggleSpeedBucket collation filters facet
      bucket) = otherFilters filters := by
  unfold toggleSpeedBucket otherFilters
  simp only [List.filter_append, List.filter_filter,
    List.filter_map, Bool.and_self]
  have hNone : ∀ vs : List Text, vs.filter
      ((fun f : CatalogAttributeFilter =>
        decide (f.key ≠ speedKey)) ∘ speedFilter) = [] := by
    intro vs
    rw [List.filter_eq_nil_iff]
    intro v _
    simp [speedFilter]
  rw [hNone, List.map_nil, List.append_nil]

------------------------------------------------------------
-- Effects
------------------------------------------------------------

/- Whether a bucket counts as selected. -/
def status (bucket : EthernetSpeedBucket) : Bool :=
  isSpeedBucketSelected filters
    (speedFacetValuesForBucket facet bucket)

/-
  What a button does: the selection changes, other filters
  stay, and where buckets can be told apart and the selection
  is made of some, only this one is switched, back and forth.
-/
structure Toggles (bucket : EthernetSpeedBucket) : Prop where
  changes : selection (toggleSpeedBucket collation filters
    facet bucket) ≠ selection filters
  keeps : otherFilters (toggleSpeedBucket collation filters
    facet bucket) = otherFilters filters
  switches :
    let after := toggleSpeedBucket collation filters facet
      bucket
    Toggling.Separated (parts facet) →
    (∃ T, (∀ c ∈ T, (parts facet c).Nonempty) ∧
      selection filters = Toggling.union (parts facet) T) →
    status facet after bucket = !status facet filters bucket ∧
      (∀ c, c ≠ bucket → (parts facet c).Nonempty →
        status facet after c = status facet filters c) ∧
      selection (toggleSpeedBucket collation after facet
        bucket) = selection filters

/-
  The bucket is selected, and so is everything in it through
  other selected buckets, which hold all that is selected.
-/
def Held (bucket : EthernetSpeedBucket) : Prop :=
  status facet filters bucket = true ∧
    ∀ value ∈ selectedSpeedValues filters,
      ∃ c, c ≠ bucket ∧ status facet filters c = true ∧
        value ∈ speedFacetValuesForBucket facet c

theorem held_iff (bucket : EthernetSpeedBucket) :
    Held facet filters bucket ↔
      bucket ∈ Toggling.on (parts facet) (selection filters) ∧
        selection filters ⊆ Toggling.union (parts facet)
          (Toggling.on (parts facet) (selection filters) \
            {bucket}) := by
  unfold Held status
  rw [selected_iff]
  apply and_congr_right
  intro _
  constructor
  · intro hHeld value hMem
    rcases hHeld value hMem with ⟨c, hOther, hOn, hPart⟩
    exact ⟨c, ⟨(selected_iff facet filters c).mp hOn, hOther⟩,
      hPart⟩
  · intro hSubset value hMem
    rcases hSubset hMem with ⟨c, ⟨hOn, hOther⟩, hPart⟩
    exact ⟨c, hOther, (selected_iff facet filters c).mpr hOn,
      hPart⟩

theorem status_eq_iff
    (filters' : List CatalogAttributeFilter)
    (bucket : EthernetSpeedBucket)
    (h : bucket ∈ Toggling.on (parts facet)
        (selection filters') ↔
      bucket ∈ Toggling.on (parts facet) (selection filters)) :
    status facet filters' bucket =
      status facet filters bucket := by
  rw [Bool.eq_iff_iff]
  unfold status
  rw [selected_iff, selected_iff]
  exact h

/- Where buckets can be told apart, one is switched. -/
theorem switches_of_separated
    {bucket : EthernetSpeedBucket}
    (hPart : (parts facet bucket).Nonempty)
    (hOwn : Toggling.Separated (parts facet))
    {T : Set EthernetSpeedBucket}
    (hSome : ∀ c ∈ T, (parts facet c).Nonempty)
    (hUnion : selection filters =
      Toggling.union (parts facet) T) :
    let after := toggleSpeedBucket collation filters facet
      bucket
    status facet after bucket = !status facet filters bucket ∧
      (∀ c, c ≠ bucket → (parts facet c).Nonempty →
        status facet after c = status facet filters c) ∧
      selection (toggleSpeedBucket collation after facet
        bucket) = selection filters := by
  intro after
  have hAfter : Toggling.on (parts facet) (selection after) =
      symmDiff (Toggling.on (parts facet) (selection filters))
        {bucket} := by
    rw [selected_toggle, hUnion]
    exact Toggling.on_toggle_union hOwn hSome hPart
  refine ⟨?_, ?_, ?_⟩
  · have hSwitched : status facet after bucket = true ↔
        ¬ status facet filters bucket = true := by
      unfold status
      rw [selected_iff, selected_iff, hAfter, Set.mem_symmDiff]
      simp
    cases hBefore : status facet filters bucket with
    | true =>
        rw [hBefore] at hSwitched
        exact Bool.eq_false_iff.mpr
          (fun h => hSwitched.mp h rfl)
    | false =>
        rw [hBefore] at hSwitched
        exact hSwitched.mpr Bool.false_ne_true
  · intro c hOther _
    apply status_eq_iff
    rw [hAfter, Set.mem_symmDiff]
    simp [hOther]
  · rw [selected_toggle, selected_toggle, hUnion]
    exact Toggling.toggle_toggle_union hOwn hSome hPart

/-
  A button does what it should exactly if the bucket is not
  held by other ones.
-/
theorem toggles_iff
    {bucket : EthernetSpeedBucket}
    (hEnabled : speedFacetValuesForBucket facet bucket ≠ []) :
    Toggles facet filters collation bucket ↔
      ¬ Held facet filters bucket := by
  have hPart := (parts_nonempty_iff facet bucket).mpr hEnabled
  rw [held_iff, ← Toggling.toggle_eq_iff hPart,
    ← selected_toggle facet filters collation]
  constructor
  · exact Toggles.changes
  · intro hChanges
    refine ⟨hChanges,
      otherFilters_toggle facet filters collation bucket, ?_⟩
    intro after hOwn hUnion
    rcases hUnion with ⟨T, hSome, hEq⟩
    exact switches_of_separated facet filters collation hPart
      hOwn hSome hEq

end Pressing

/- The order of code points. -/
def codePoints : Collation where
  le := Text.le
  total := Text.le_total
  trans _ _ _ := Text.le_trans

def dualFacet : Option CatalogFacet :=
  some ⟨speedKey, ["25 Гбит/с".toList, "10/25 Гбит/с".toList,
    "10 Гбит/с".toList]⟩

def sharedFacet : Option CatalogFacet :=
  some ⟨speedKey, ["10/25 Гбит/с".toList, "10 Гбит/с".toList]⟩

/- Both buckets have a value of their own. -/
theorem toggles_iff_dual :
    Toggles dualFacet
      [speedFilter "10/25 Гбит/с".toList,
        speedFilter "10 Гбит/с".toList]
      codePoints .ten := by
  apply (toggles_iff dualFacet _ codePoints
    (by decide +kernel)).mpr
  rintro ⟨_, hHeld⟩
  rcases hHeld "10 Гбит/с".toList (by decide) with
    ⟨c, hOther, _, hPart⟩
  cases c with
  | ten => exact hOther rfl
  | _ => exact absurd hPart (by decide +kernel)

/- All values of 25 are values of 10: it cannot be put out. -/
theorem shared_bucket_is_dead :
    let filters := [speedFilter "10/25 Гбит/с".toList,
      speedFilter "10 Гбит/с".toList]
    speedFacetValuesForBucket sharedFacet .twentyFive ≠ [] ∧
      ¬ Toggles sharedFacet filters codePoints
        .twentyFive := by
  intro filters
  have hSome : speedFacetValuesForBucket sharedFacet
      .twentyFive ≠ [] := by
    decide +kernel
  refine ⟨hSome, fun hToggles => hToggles.changes ?_⟩
  rw [selected_toggle]
  apply (Toggling.toggle_eq_iff
    ((parts_nonempty_iff sharedFacet .twentyFive).mpr hSome)
    _).mpr
  apply (held_iff sharedFacet filters .twentyFive).mp
  refine ⟨by decide +kernel, fun value hMem => ⟨.ten,
    by decide, by decide +kernel, ?_⟩⟩
  have hAll : (selectedSpeedValues filters).all (fun value =>
      value ∈ speedFacetValuesForBucket sharedFacet .ten) =
      true := by
    decide +kernel
  exact of_decide_eq_true (List.all_eq_true.mp hAll value hMem)

end SpeedBuckets
