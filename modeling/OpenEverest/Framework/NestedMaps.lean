import Mathlib.Data.List.AList

/-!
# Maps of maps

A heap of maps, each holding leaves and references to other maps. A function that allocates
maps and writes only to them leaves what older references lead to as it was.
-/

namespace OpenEverest.Framework

inductive MapValue (α : Type) where
  | leaf (v : α)
  | map (ref : Nat)
  deriving DecidableEq

namespace MapValue

def IsMap {α : Type} : MapValue α → Prop
  | leaf _ => False
  | map _ => True

theorem IsMap.exists_ref {α : Type} {v : MapValue α} (h : v.IsMap) : ∃ ref, v = map ref := by
  cases v with
  | leaf v => exact h.elim
  | map ref => exact ⟨ref, rfl⟩

end MapValue

abbrev Entries (κ α : Type) : Type := AList fun _ : κ => MapValue α

structure MapHeap (κ α : Type) where
  maps : List (Entries κ α)

namespace MapHeap

variable {κ α : Type} [DecidableEq κ]

section Operations

variable (h : MapHeap κ α)

def get (ref : Nat) : Option (Entries κ α) := h.maps[ref]?

def alloc (entries : Entries κ α) : MapHeap κ α × Nat := (⟨h.maps ++ [entries]⟩, h.maps.length)

/-- `m[k] = v`. -/
def write (ref : Nat) (k : κ) (v : MapValue α) : MapHeap κ α :=
  ⟨h.maps.modify ref (AList.insert k v)⟩

/-- `m[k]`. -/
def lookup (ref : Nat) (k : κ) : Option (MapValue α) := (h.get ref).bind (AList.lookup k)

def follow : MapValue α → List κ → Option (MapValue α)
  | v, [] => some v
  | .leaf _, _ :: _ => none
  | .map ref, k :: path => (h.lookup ref k).bind fun v => follow v path

@[simp] theorem follow_nil (v : MapValue α) : h.follow v [] = some v := by
  cases v <;> rfl

theorem follow_cons (ref : Nat) (k : κ) (path : List κ) :
    h.follow (.map ref) (k :: path) = (h.lookup ref k).bind fun v => h.follow v path := rfl

omit [DecidableEq κ] in
theorem get_eq_some {ref : Nat} {entries : Entries κ α} (hget : h.get ref = some entries) :
    ref < h.maps.length := (List.getElem?_eq_some_iff.mp hget).1

omit [DecidableEq κ] in
@[simp] theorem get_alloc (entries : Entries κ α) :
    (h.alloc entries).1.get (h.alloc entries).2 = some entries := by
  simp [get, alloc]

@[simp] theorem get_write (ref : Nat) (k : κ) (v : MapValue α) :
    (h.write ref k v).get ref = (h.get ref).map (AList.insert k v) := by
  simp [get, write]

@[simp] theorem get_write_ne {ref other : Nat} (hne : other ≠ ref) (k : κ) (v : MapValue α) :
    (h.write ref k v).get other = h.get other := by
  simp [get, write, Ne.symm hne]

@[simp] theorem length_write (ref : Nat) (k : κ) (v : MapValue α) :
    (h.write ref k v).maps.length = h.maps.length := by
  simp [write]

end Operations

structure Extends (h h' : MapHeap κ α) : Prop where
  length_le : h.maps.length ≤ h'.maps.length
  get : ∀ ref < h.maps.length, h'.get ref = h.get ref

variable {h h' h'' : MapHeap κ α}

omit [DecidableEq κ] in
theorem Extends.refl (h : MapHeap κ α) : Extends h h := ⟨le_refl _, fun _ _ => rfl⟩

omit [DecidableEq κ] in
theorem Extends.trans (hh : Extends h h') (hh' : Extends h' h'') : Extends h h'' where
  length_le := Nat.le_trans hh.length_le hh'.length_le
  get ref href := (hh'.get ref (Nat.lt_of_lt_of_le href hh.length_le)).trans (hh.get ref href)

omit [DecidableEq κ] in
theorem extends_alloc (h : MapHeap κ α) (entries : Entries κ α) :
    Extends h (h.alloc entries).1 where
  length_le := by simp [alloc]
  get ref href := List.getElem?_append_left href

theorem Extends.write (hh : Extends h h') {ref : Nat} (href : h.maps.length ≤ ref) (k : κ)
    (v : MapValue α) : Extends h (h'.write ref k v) where
  length_le := (h'.length_write ref k v).symm ▸ hh.length_le
  get other hother :=
    (h'.get_write_ne (Nat.ne_of_lt (Nat.lt_of_lt_of_le hother href)) k v).trans
      (hh.get other hother)

/-- A value whose maps are all among the references `S`, nested to the given depth at most. -/
inductive Nested (h : MapHeap κ α) (S : Nat → Prop) : Nat → MapValue α → Prop
  | leaf (depth : Nat) (v : α) : Nested h S depth (.leaf v)
  | map {depth ref : Nat} {entries : Entries κ α} (href : S ref) (hget : h.get ref = some entries)
      (hentries : ∀ k v, entries.lookup k = some v → Nested h S depth v) :
      Nested h S (depth + 1) (.map ref)

variable {S S' : Nat → Prop} {depth depth' : Nat} {v : MapValue α}

theorem Nested.mono (ht : Nested h S depth v) (hdepth : depth ≤ depth') (hS : ∀ ref, S ref → S' ref) :
    Nested h S' depth' v := by
  induction ht generalizing depth' with
  | leaf depth v => exact Nested.leaf depth' v
  | map href hget hentries ih =>
    obtain ⟨depth', rfl⟩ := Nat.exists_eq_add_of_le' (Nat.one_le_of_lt hdepth)
    exact Nested.map (hS _ href) hget fun k v hv => ih k v hv (Nat.le_of_succ_le_succ hdepth)

theorem Nested.singleton {ref : Nat} {k : κ} (href : S ref) (hget : h.get ref = some (AList.singleton k v))
    (hv : Nested h S depth v) : Nested h S (depth + 1) (.map ref) := by
  refine Nested.map href hget ?_
  intro k' w hw
  have hmem := AList.mem_lookup_iff.mp hw
  cases List.mem_singleton.mp hmem
  exact hv

theorem Nested.valid (ht : Nested h S depth v) :
    Nested h (fun ref => S ref ∧ ref < h.maps.length) depth v := by
  induction ht with
  | leaf depth v => exact Nested.leaf depth v
  | map href hget hentries ih => exact Nested.map ⟨href, h.get_eq_some hget⟩ hget ih

/-- The two heaps have the same maps at the references `S`. -/
def Agree (S : Nat → Prop) (h h' : MapHeap κ α) : Prop := ∀ ref, S ref → h'.get ref = h.get ref

theorem Nested.agree (ht : Nested h S depth v) (hh : Agree S h h') : Nested h' S depth v := by
  induction ht with
  | leaf depth v => exact Nested.leaf depth v
  | map href hget hentries ih => exact Nested.map href ((hh _ href).trans hget) ih

theorem Nested.follow_agree (ht : Nested h S depth v) (hh : Agree S h h') (path : List κ) :
    h'.follow v path = h.follow v path := by
  induction ht generalizing path with
  | leaf depth v => cases path <;> rfl
  | @map depth ref entries href hget hentries ih =>
    cases path with
    | nil => rfl
    | cons k path =>
      rw [follow_cons, follow_cons, lookup, lookup, hh _ href, hget, Option.bind_some]
      cases hlookup : entries.lookup k with
      | none => rfl
      | some w => exact ih k w hlookup path

omit [DecidableEq κ] in
theorem Extends.agree (hh : Extends h h') (hS : ∀ ref, S ref → ref < h.maps.length) :
    Agree S h h' := fun ref href => hh.get ref (hS ref href)

theorem agree_write {ref : Nat} (href : ¬ S ref) (k : κ) (w : MapValue α) :
    Agree S h (h.write ref k w) := by
  intro other hother
  have hne : other ≠ ref := by
    rintro rfl
    exact href hother
  exact h.get_write_ne hne k w

end MapHeap

end OpenEverest.Framework
