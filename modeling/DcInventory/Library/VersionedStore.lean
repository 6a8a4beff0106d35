import Mathlib.Data.List.Nodup

/-
  This file defines a store that keeps every version of what
  is put into it, with many writers. A version is created with
  an id of its own and never changes. The requests of one of
  the writers are watched: each bears a tag that nobody else
  uses, and may arrive late, or more than once.

  Key definitions include:
    * `VersionedStore`
    * `VersionedStore.Foreign`
    * `VersionedStore.Sound`

  Key theorems include:
    * `VersionedStore.Sound.send`
    * `VersionedStore.Sound.foreign`
    * `VersionedStore.Sound.of_tag`
    * `VersionedStore.Foreign.grows`
-/

/- A version that is kept in the store. -/
structure Version (ι κ τ γ : Type) where
  id : ι
  key : κ
  tag : Option τ
  content : γ
deriving DecidableEq, Repr

/- A request to store something under a key. -/
structure Put (κ τ γ : Type) where
  key : κ
  tag : τ
  content : γ
deriving DecidableEq, Repr

/- The version that a request creates. -/
def Put.stored
    {ι κ τ γ : Type}
    (p : Put κ τ γ)
    (id : ι) : Version ι κ τ γ where
  id := id
  key := p.key
  tag := some p.tag
  content := p.content

/- What is listed for a key: a version or its deletion. -/
inductive Entry (ι κ τ γ : Type) where
| version (v : Version ι κ τ γ)
| deleted (key : κ)

def Entry.key {ι κ τ γ : Type} : Entry ι κ τ γ → κ
| .version v => v.key
| .deleted key => key

/-
  The entries in the order they came, all versions that were
  ever created, and the requests of the watched writer with
  the versions they created.
-/
structure VersionedStore (ι κ τ γ : Type) where
  entries : List (Entry ι κ τ γ)
  created : List (Version ι κ τ γ)
  sent : List (Put κ τ γ)
  own : List (Version ι κ τ γ)

namespace VersionedStore

variable {ι κ τ γ : Type}
variable {S S' : VersionedStore ι κ τ γ}
variable {p q : Put κ τ γ}
variable {v : Version ι κ τ γ}

/- The version that is found under a key without an id. -/
def current [DecidableEq κ]
    (S : VersionedStore ι κ τ γ)
    (key : κ) : Option (Version ι κ τ γ) :=
  match (S.entries.filter (fun e => e.key = key)).getLast? with
  | some (.version v) => some v
  | _ => none

/- The version is still in the store. -/
def Holds
    (S : VersionedStore ι κ τ γ)
    (v : Version ι κ τ γ) : Prop :=
  .version v ∈ S.entries

------------------------------------------------------------
-- Steps
------------------------------------------------------------

/- The watched writer sends a request with a new tag. -/
def send
    (S : VersionedStore ι κ τ γ)
    (p : Put κ τ γ) : VersionedStore ι κ τ γ :=
  { S with sent := p :: S.sent }

/- The tag was never drawn before. -/
structure FreshTag
    (S : VersionedStore ι κ τ γ)
    (tag : τ) : Prop where
  created : ∀ v ∈ S.created, v.tag ≠ some tag
  sent : ∀ q ∈ S.sent, q.tag ≠ tag

def FreshId
    (S : VersionedStore ι κ τ γ)
    (id : ι) : Prop :=
  ∀ v ∈ S.created, v.id ≠ id

/- A version is created. -/
def add
    (S : VersionedStore ι κ τ γ)
    (v : Version ι κ τ γ) : VersionedStore ι κ τ γ :=
  { S with
    entries := S.entries ++ [.version v]
    created := v :: S.created }

/-
  What happens in the store beside the watched writer: one of
  its requests arrives, others create versions without its
  tags, mark keys as deleted, or remove entries.
-/
inductive Foreign
    (S : VersionedStore ι κ τ γ) :
    VersionedStore ι κ τ γ → Prop where
| arrive {q : Put κ τ γ} {id : ι} :
    q ∈ S.sent →
    S.FreshId id →
    Foreign S { S.add (q.stored id) with
      own := q.stored id :: S.own }
| create {w : Version ι κ τ γ} :
    S.FreshId w.id →
    (∀ q ∈ S.sent, w.tag ≠ some q.tag) →
    Foreign S (S.add w)
| delete {key : κ} :
    Foreign S { S with entries := S.entries ++ [.deleted key] }
| remove {entries : List (Entry ι κ τ γ)} :
    entries.Sublist S.entries →
    Foreign S { S with entries := entries }

------------------------------------------------------------
-- Soundness
------------------------------------------------------------

/- What holds of the versions in every state. -/
structure Sound (S : VersionedStore ι κ τ γ) : Prop where
  kept : ∀ v, S.Holds v → v ∈ S.created
  ids : (S.created.map Version.id).Nodup
  tags : ∀ p ∈ S.sent, ∀ q ∈ S.sent, p.tag = q.tag → p = q
  tagged : ∀ v ∈ S.created, ∀ p ∈ S.sent,
    v.tag = some p.tag → v ∈ S.own ∧ v = p.stored v.id

/- Nothing was sent and nothing bears a tag of the writer. -/
theorem sound_of_unsent
    (hKept : ∀ v, S.Holds v → v ∈ S.created)
    (hIds : (S.created.map Version.id).Nodup)
    (hSent : S.sent = []) :
    S.Sound where
  kept := hKept
  ids := hIds
  tags p hp := by
    rw [hSent] at hp
    cases hp
  tagged v _ p hp := by
    rw [hSent] at hp
    cases hp

theorem Sound.send
    (h : S.Sound)
    (hFresh : S.FreshTag p.tag) :
    (S.send p).Sound where
  kept := h.kept
  ids := h.ids
  tags q hq r hr hTags := by
    rcases List.mem_cons.mp hq with rfl | hOld
    · rcases List.mem_cons.mp hr with rfl | hOld'
      · rfl
      · exact absurd hTags.symm (hFresh.sent r hOld')
    · rcases List.mem_cons.mp hr with rfl | hOld'
      · exact absurd hTags (hFresh.sent q hOld)
      · exact h.tags q hOld r hOld' hTags
  tagged v hv q hq hTag := by
    rcases List.mem_cons.mp hq with rfl | hOld
    · exact absurd hTag (hFresh.created v hv)
    · exact h.tagged v hv q hOld hTag

/- A new version keeps what holds of entries and ids. -/
theorem Sound.kept_add
    (h : S.Sound)
    {w : Version ι κ τ γ}
    (hHolds : (S.add v).Holds w) :
    w ∈ (S.add v).created := by
  rcases List.mem_append.mp hHolds with hOld | hNew
  · exact List.mem_cons_of_mem v (h.kept w hOld)
  · cases List.mem_singleton.mp hNew
    exact List.mem_cons_self

theorem Sound.ids_add
    (h : S.Sound)
    (hFresh : S.FreshId v.id) :
    ((S.add v).created.map Version.id).Nodup := by
  refine List.nodup_cons.mpr ⟨?_, h.ids⟩
  intro hMem
  rcases List.mem_map.mp hMem with ⟨w, hw, hSame⟩
  exact hFresh w hw hSame

theorem Sound.foreign
    (h : S.Sound)
    (hStep : Foreign S S') :
    S'.Sound := by
  cases hStep with
  | @arrive p id hp hFresh =>
      refine ⟨fun w => h.kept_add, h.ids_add hFresh, h.tags, ?_⟩
      intro w hw q hq hTag
      rcases List.mem_cons.mp hw with rfl | hw
      · have hSame := h.tags p hp q hq (Option.some.inj hTag)
        subst hSame
        exact ⟨List.mem_cons_self, rfl⟩
      · have hOld := h.tagged w hw q hq hTag
        exact ⟨List.mem_cons_of_mem _ hOld.1, hOld.2⟩
  | @create v hFresh hTags =>
      refine ⟨fun w => h.kept_add, h.ids_add hFresh, h.tags, ?_⟩
      intro w hw q hq hTag
      rcases List.mem_cons.mp hw with rfl | hw
      · exact absurd hTag (hTags q hq)
      · exact h.tagged w hw q hq hTag
  | delete =>
      refine ⟨?_, h.ids, h.tags, h.tagged⟩
      intro w hHolds
      rcases List.mem_append.mp hHolds with hOld | hNew
      · exact h.kept w hOld
      · cases List.mem_singleton.mp hNew
  | remove hEntries =>
      exact ⟨fun w hHolds => h.kept w (hEntries.subset hHolds),
        h.ids, h.tags, h.tagged⟩

/- What bears the tag of a request was created by it. -/
theorem Sound.of_tag
    (h : S.Sound)
    (hv : v ∈ S.created)
    (hp : p ∈ S.sent)
    (hTag : v.tag = some p.tag) :
    v ∈ S.own ∧ v.key = p.key ∧ v.content = p.content := by
  rcases h.tagged v hv p hp hTag with ⟨hOwn, hStored⟩
  refine ⟨hOwn, ?_, ?_⟩
  · rw [hStored]
    rfl
  · rw [hStored]
    rfl

/- An id names one version. -/
theorem Sound.eq_of_id
    (h : S.Sound)
    {w : Version ι κ τ γ}
    (hv : v ∈ S.created)
    (hw : w ∈ S.created)
    (hId : v.id = w.id) :
    v = w :=
  List.inj_on_of_nodup_map h.ids hv hw hId

theorem holds_current [DecidableEq κ]
    {key : κ}
    (h : S.current key = some v) :
    S.Holds v ∧ v.key = key := by
  unfold current at h
  split at h
  · rename_i w hLast
    cases h
    have hMem := List.mem_of_getLast? hLast
    rcases List.mem_filter.mp hMem with ⟨hEntry, hKey⟩
    exact ⟨hEntry, of_decide_eq_true hKey⟩
  · cases h

/- Versions that were created stay so. -/
structure Grows (S S' : VersionedStore ι κ τ γ) : Prop where
  created : S.created ⊆ S'.created
  own : S.own ⊆ S'.own

theorem Grows.refl (S : VersionedStore ι κ τ γ) : S.Grows S :=
  ⟨List.Subset.refl _, List.Subset.refl _⟩

theorem grows_send : S.Grows (S.send p) :=
  ⟨List.Subset.refl _, List.Subset.refl _⟩

theorem Foreign.grows (hStep : Foreign S S') : S.Grows S' := by
  cases hStep with
  | arrive =>
      exact ⟨List.subset_cons_self _ _,
        List.subset_cons_self _ _⟩
  | create =>
      exact ⟨List.subset_cons_self _ _, List.Subset.refl _⟩
  | delete => exact ⟨List.Subset.refl _, List.Subset.refl _⟩
  | remove => exact ⟨List.Subset.refl _, List.Subset.refl _⟩

theorem Foreign.sent (hStep : Foreign S S') :
    S'.sent = S.sent := by
  cases hStep <;> rfl

end VersionedStore
