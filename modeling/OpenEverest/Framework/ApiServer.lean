import Mathlib.Logic.Function.Basic

/-!
# An API server with many objects

Every write gets the next revision of the server. An object keeps the revision it
was created at as its `uid`, and the revision of its last write as its resource
version. An update needs the current resource version; an object with finalizers
outlives its deletion until an update takes the last one away.
-/

namespace OpenEverest.Framework

inductive ApiError where
  | notFound
  | alreadyExists
  | conflict
  | invalid
  deriving DecidableEq

structure Stored (φ α : Type*) where
  uid : Nat
  resourceVersion : Nat
  terminating : Bool
  finalizers : List φ
  value : α
  deriving DecidableEq

/-- An object as a client sends it; an unset resource version is `none`. -/
structure Manifest (φ α : Type*) where
  resourceVersion : Option Nat
  finalizers : List φ
  value : α

structure ApiServer (κ φ α : Type*) where
  revision : Nat
  objects : κ → Option (Stored φ α)

namespace ApiServer

variable {κ φ α : Type*} [DecidableEq κ]

def get (s : ApiServer κ φ α) (k : κ) : Except ApiError (Stored φ α) :=
  match s.objects k with
  | none => .error .notFound
  | some o => .ok o

def put (s : ApiServer κ φ α) (k : κ) (o : Stored φ α) : ApiServer κ φ α where
  revision := s.revision + 1
  objects := Function.update s.objects k (some { o with resourceVersion := s.revision + 1 })

def erase (s : ApiServer κ φ α) (k : κ) : ApiServer κ φ α where
  revision := s.revision + 1
  objects := Function.update s.objects k none

def create (s : ApiServer κ φ α) (k : κ) (m : Manifest φ α) : Except ApiError (ApiServer κ φ α) :=
  if m.resourceVersion.isSome then .error .invalid
  else match s.objects k with
    | some _ => .error .alreadyExists
    | none => .ok (s.put k ⟨s.revision + 1, s.revision + 1, false, m.finalizers, m.value⟩)

def delete (s : ApiServer κ φ α) (k : κ) : Except ApiError (ApiServer κ φ α) :=
  match s.objects k with
  | none => .error .notFound
  | some o =>
    if o.finalizers.isEmpty then .ok (s.erase k)
    else if o.terminating then .ok s
    else .ok (s.put k { o with terminating := true })

variable [DecidableEq φ] [DecidableEq α]

/-- A write that changes nothing gets no new revision, and an object under deletion
gets no new finalizer. -/
def update (s : ApiServer κ φ α) (k : κ) (m : Manifest φ α) : Except ApiError (ApiServer κ φ α) :=
  match s.objects k with
  | none => .error .notFound
  | some o =>
    match m.resourceVersion with
    | none => .error .invalid
    | some rv =>
      if rv ≠ o.resourceVersion then .error .conflict
      else if o.terminating ∧ ¬ m.finalizers ⊆ o.finalizers then .error .invalid
      else if o.terminating ∧ m.finalizers = [] then .ok (s.erase k)
      else if m.finalizers = o.finalizers ∧ m.value = o.value then .ok s
      else .ok (s.put k { o with finalizers := m.finalizers, value := m.value })

section Objects

omit [DecidableEq φ] [DecidableEq α]

variable (s : ApiServer κ φ α) (k : κ) (o : Stored φ α)

omit [DecidableEq κ] in
theorem get_eq_ok : s.get k = .ok o ↔ s.objects k = some o := by
  unfold get
  cases s.objects k <;> simp

@[simp] theorem put_objects_self :
    (s.put k o).objects k = some { o with resourceVersion := s.revision + 1 } := by
  simp [put]

@[simp] theorem erase_objects_self : (s.erase k).objects k = none := by simp [erase]

theorem put_objects_ne {j : κ} (h : j ≠ k) : (s.put k o).objects j = s.objects j := by
  simp [put, h]

theorem erase_objects_ne {j : κ} (h : j ≠ k) : (s.erase k).objects j = s.objects j := by
  simp [erase, h]

end Objects

/-- What an accepted call on the object of `k` can do. -/
inductive Change (s : ApiServer κ φ α) (k : κ) : ApiServer κ φ α → Prop where
  | nothing : Change s k s
  | created (finalizers : List φ) (v : α) (h : s.objects k = none) :
      Change s k (s.put k ⟨s.revision + 1, s.revision + 1, false, finalizers, v⟩)
  | rewritten (o o' : Stored φ α) (h : s.objects k = some o) (huid : o'.uid = o.uid) :
      Change s k (s.put k o')
  | removed (o : Stored φ α) (h : s.objects k = some o) : Change s k (s.erase k)

section Calls

variable {s t : ApiServer κ φ α} {k : κ} {m : Manifest φ α}

omit [DecidableEq φ] [DecidableEq α] in
theorem create_eq_ok (h : s.create k m = .ok t) :
    s.objects k = none ∧
      t = s.put k ⟨s.revision + 1, s.revision + 1, false, m.finalizers, m.value⟩ := by
  unfold create at h
  split at h
  · cases h
  · split at h
    · cases h
    · rename_i hk
      exact ⟨hk, (Except.ok.inj h).symm⟩

omit [DecidableEq φ] [DecidableEq α] in
theorem delete_eq_ok (h : s.delete k = .ok t) :
    ∃ o, s.objects k = some o ∧
      (o.finalizers = [] ∧ t = s.erase k ∨
        o.finalizers ≠ [] ∧ o.terminating = true ∧ t = s ∨
        o.finalizers ≠ [] ∧ o.terminating = false ∧ t = s.put k { o with terminating := true }) := by
  unfold delete at h
  split at h
  · cases h
  · rename_i o hk
    refine ⟨o, hk, ?_⟩
    split at h
    · rename_i hfin
      exact .inl ⟨List.isEmpty_iff.mp hfin, (Except.ok.inj h).symm⟩
    · rename_i hfin
      have hne : o.finalizers ≠ [] := fun he => hfin (List.isEmpty_iff.mpr he)
      split at h
      · rename_i hterm
        exact .inr (.inl ⟨hne, hterm, (Except.ok.inj h).symm⟩)
      · rename_i hterm
        exact .inr (.inr ⟨hne, Bool.eq_false_iff.mpr hterm, (Except.ok.inj h).symm⟩)

theorem update_eq_ok (h : s.update k m = .ok t) :
    ∃ o, s.objects k = some o ∧ m.resourceVersion = some o.resourceVersion ∧
      (o.terminating = true ∧ m.finalizers = [] ∧ t = s.erase k ∨
        m.finalizers = o.finalizers ∧ m.value = o.value ∧ t = s ∨
        t = s.put k { o with finalizers := m.finalizers, value := m.value }) := by
  unfold update at h
  split at h
  · cases h
  · rename_i o hk
    refine ⟨o, hk, ?_⟩
    split at h
    · cases h
    · rename_i rv hrv
      split at h
      · cases h
      · rename_i heq
        obtain rfl : rv = o.resourceVersion := not_not.mp heq
        refine ⟨hrv, ?_⟩
        split at h
        · cases h
        · split at h
          · rename_i hgone
            exact .inl ⟨hgone.1, hgone.2, (Except.ok.inj h).symm⟩
          · split at h
            · rename_i hsame
              exact .inr (.inl ⟨hsame.1, hsame.2, (Except.ok.inj h).symm⟩)
            · exact .inr (.inr (Except.ok.inj h).symm)

omit [DecidableEq φ] [DecidableEq α] in
theorem create_change (h : s.create k m = .ok t) : Change s k t := by
  obtain ⟨hk, rfl⟩ := create_eq_ok h
  exact .created m.finalizers m.value hk

omit [DecidableEq φ] [DecidableEq α] in
theorem delete_change (h : s.delete k = .ok t) : Change s k t := by
  obtain ⟨o, hk, ⟨-, rfl⟩ | ⟨-, -, rfl⟩ | ⟨-, -, rfl⟩⟩ := delete_eq_ok h
  · exact .removed o hk
  · exact .nothing
  · exact .rewritten o _ hk rfl

theorem update_change (h : s.update k m = .ok t) : Change s k t := by
  obtain ⟨o, hk, -, ⟨-, -, rfl⟩ | ⟨-, -, rfl⟩ | rfl⟩ := update_eq_ok h
  · exact .removed o hk
  · exact .nothing
  · exact .rewritten o _ hk rfl

omit [DecidableEq φ] [DecidableEq α] in
theorem Change.other (h : Change s k t) {j : κ} (hj : j ≠ k) : t.objects j = s.objects j := by
  cases h with
  | nothing => rfl
  | created fin v _ => exact put_objects_ne s k _ hj
  | rewritten o o' _ _ => exact put_objects_ne s k _ hj
  | removed o _ => exact erase_objects_ne s k hj

end Calls

/-- `t` comes from `s` by accepted calls: what is stored at a revision of `s` was
stored in `s`, and so was an object created by then, under the same `uid`. -/
structure Evolves (s t : ApiServer κ φ α) : Prop where
  revision_le : s.revision ≤ t.revision
  same_version : ∀ k o, t.objects k = some o → o.resourceVersion ≤ s.revision →
    s.objects k = some o
  same_uid : ∀ k o, t.objects k = some o → o.uid ≤ s.revision →
    ∃ o', s.objects k = some o' ∧ o'.uid = o.uid

/-- No object is newer than the server. -/
def WellFormed (s : ApiServer κ φ α) : Prop :=
  ∀ k o, s.objects k = some o → o.uid ≤ o.resourceVersion ∧ o.resourceVersion ≤ s.revision

namespace Evolves

omit [DecidableEq κ] [DecidableEq φ] [DecidableEq α]

variable {s t u : ApiServer κ φ α}

theorem refl (s : ApiServer κ φ α) : Evolves s s :=
  ⟨Nat.le_refl _, fun _ _ h _ => h, fun _ o h _ => ⟨o, h, rfl⟩⟩

theorem trans (h : Evolves s t) (h' : Evolves t u) : Evolves s u := by
  refine ⟨Nat.le_trans h.revision_le h'.revision_le, ?_, ?_⟩
  · intro k o ho hle
    have hle' : o.resourceVersion ≤ t.revision := Nat.le_trans hle h.revision_le
    exact h.same_version k o (h'.same_version k o ho hle') hle
  · intro k o ho hle
    obtain ⟨o', ho', hu'⟩ := h'.same_uid k o ho (Nat.le_trans hle h.revision_le)
    obtain ⟨o'', ho'', hu''⟩ := h.same_uid k o' ho' (hu' ▸ hle)
    exact ⟨o'', ho'', hu''.trans hu'⟩

end Evolves

omit [DecidableEq φ] [DecidableEq α] in
theorem Change.evolves {s t : ApiServer κ φ α} {k : κ} (h : Change s k t) : Evolves s t := by
  have hother : ∀ j o, j ≠ k → t.objects j = some o → s.objects j = some o := by
    intro j o hj ho
    rw [← h.other hj]
    exact ho
  cases h with
  | nothing => exact .refl s
  | created fin v hk =>
    refine ⟨Nat.le_succ _, fun j o ho hle => ?_, fun j o ho hle => ?_⟩
    · by_cases hj : j = k
      · subst hj
        obtain rfl := Option.some.inj ((put_objects_self ..).symm.trans ho)
        exact absurd hle (Nat.not_succ_le_self _)
      · exact hother j o hj ho
    · by_cases hj : j = k
      · subst hj
        obtain rfl := Option.some.inj ((put_objects_self ..).symm.trans ho)
        exact absurd hle (Nat.not_succ_le_self _)
      · exact ⟨o, hother j o hj ho, rfl⟩
  | rewritten old new hk huid =>
    refine ⟨Nat.le_succ _, fun j o ho hle => ?_, fun j o ho hle => ?_⟩
    · by_cases hj : j = k
      · subst hj
        obtain rfl := Option.some.inj ((put_objects_self ..).symm.trans ho)
        exact absurd hle (Nat.not_succ_le_self _)
      · exact hother j o hj ho
    · by_cases hj : j = k
      · subst hj
        obtain rfl := Option.some.inj ((put_objects_self ..).symm.trans ho)
        exact ⟨old, hk, huid.symm⟩
      · exact ⟨o, hother j o hj ho, rfl⟩
  | removed old hk =>
    refine ⟨Nat.le_succ _, fun j o ho hle => ?_, fun j o ho hle => ?_⟩
    · by_cases hj : j = k
      · subst hj
        simp at ho
      · exact hother j o hj ho
    · by_cases hj : j = k
      · subst hj
        simp at ho
      · exact ⟨o, hother j o hj ho, rfl⟩

omit [DecidableEq φ] [DecidableEq α] in
theorem Change.wellFormed {s t : ApiServer κ φ α} {k : κ} (h : Change s k t)
    (hs : s.WellFormed) : t.WellFormed := by
  intro j o ho
  by_cases hj : j = k
  · subst hj
    cases h with
    | nothing => exact hs j o ho
    | created fin v hk =>
      obtain rfl := Option.some.inj ((put_objects_self ..).symm.trans ho)
      exact ⟨Nat.le_refl _, Nat.le_refl _⟩
    | rewritten old new hk huid =>
      obtain rfl := Option.some.inj ((put_objects_self ..).symm.trans ho)
      obtain ⟨hu, hr⟩ := hs j old hk
      exact ⟨huid ▸ Nat.le_succ_of_le (Nat.le_trans hu hr), Nat.le_refl _⟩
    | removed old hk => simp at ho
  · rw [h.other hj] at ho
    obtain ⟨hu, hr⟩ := hs j o ho
    exact ⟨hu, Nat.le_trans hr h.evolves.revision_le⟩

end ApiServer

end OpenEverest.Framework
