import OpenEverest.Framework.GoString
import OpenEverest.Framework.NestedMaps

/-!
# Merged values of a chart

The user's values are merged over the generated ones, map by map. The result is a map of its
own; maps that are not merged are shared with the two that were given.
-/

namespace OpenEverest.Cli

open Framework MapHeap

/-- The order in which a call of `MergeMaps` goes through the entries of `b`; the call is known
by the reference of its `out`. -/
structure RangeOrder (β : Type) where
  order : Nat → List β → List β
  perm : ∀ call l, (order call l).Perm l

variable {α : Type}

abbrev ValueHeap (α : Type) : Type := MapHeap GoString α

abbrev ValueEntry (α : Type) : Type := Sigma fun _ : GoString => MapValue α

/-- One round of the loop of `MergeMaps`, with the calls that it makes. -/
def mergeEntry (merge : ValueHeap α → Nat → Nat → Option (ValueHeap α × Nat)) (out : Nat)
    (h : ValueHeap α) (entry : ValueEntry α) : Option (ValueHeap α) :=
  match entry.2, h.lookup out entry.1 with
  | .map v, some (.map bv) =>
    (merge h bv v).map fun merged => merged.1.write out entry.1 (.map merged.2)
  | v, _ => some (h.write out entry.1 v)

/-- `MergeMaps`, with a bound on how deep its calls nest; a reference to no map is a nil map. -/
def mergeMaps (range : RangeOrder (ValueEntry α)) : Nat → ValueHeap α → Nat → Nat →
    Option (ValueHeap α × Nat)
  | 0, _, _, _ => none
  | depth + 1, h, a, b => do
    let (h', out) := h.alloc ((h.get a).getD ∅)
    let entries := range.order out ((h'.get b).getD ∅).entries
    let h'' ← entries.foldlM (mergeEntry (mergeMaps range depth) out) h'
    return (h'', out)

section Law

variable (h : ValueHeap α) (a b : Nat)

/-- In `b` the path is bound to something other than a map that is merged with a map of `a`. -/
def Shadowed (path : List GoString) : Prop :=
  ∃ v, h.follow (.map b) path = some v ∧
    ¬ (v.IsMap ∧ ∃ w, h.follow (.map a) path = some w ∧ w.IsMap)

/-- The leaves of the merge: those of `b`, and those of `a` that nothing in `b` shadows. -/
def LeadsTo (path : List GoString) (v : α) : Prop :=
  h.follow (.map b) path = some (.leaf v) ∨
    h.follow (.map a) path = some (.leaf v) ∧
      ∀ q, q ≠ [] → q <+: path → ¬ Shadowed h a b q

/-- The map at `out` in the heap `h'` is the merge. -/
def IsMerge (h' : ValueHeap α) (out : Nat) : Prop :=
  ∀ path v, h'.follow (.map out) path = some (.leaf v) ↔ LeadsTo h a b path v

end Law

section Paths

variable {h h' : ValueHeap α} {a b : Nat} {k : GoString} {path : List GoString} {v : α}

/-- A key that `b` does not have leads where it leads in `a`. -/
theorem leadsTo_absent (hb : h.lookup b k = none) :
    LeadsTo h a b (k :: path) v ↔ h.follow (.map a) (k :: path) = some (.leaf v) := by
  have hnone : ∀ q, h.follow (.map b) (k :: q) = none := by
    intro q
    rw [follow_cons, hb]
    rfl
  have hnot : ∀ q, q ≠ [] → q <+: k :: path → ¬ Shadowed h a b q := by
    intro q hne hq hshadowed
    obtain ⟨w, hw, -⟩ := hshadowed
    obtain ⟨k', q', rfl⟩ := List.exists_cons_of_ne_nil hne
    rw [(List.cons_prefix_cons.mp hq).1, hnone] at hw
    cases hw
  rw [LeadsTo, hnone, and_iff_left hnot]
  simp

theorem leadsTo_merged {bv w : Nat} (ha : h.lookup a k = some (.map bv))
    (hb : h.lookup b k = some (.map w)) :
    LeadsTo h a b (k :: path) v ↔ LeadsTo h bv w path v := by
  have hshadowed : ∀ q, Shadowed h a b (k :: q) ↔ Shadowed h bv w q := by
    intro q
    simp only [Shadowed, follow_cons, ha, hb, Option.bind_some]
  have hfirst : ¬ Shadowed h bv w [] := by
    simp [Shadowed, MapValue.IsMap]
  rw [LeadsTo, LeadsTo, follow_cons, follow_cons, ha, hb, Option.bind_some, Option.bind_some]
  apply or_congr_right
  apply and_congr_right
  intro _
  constructor
  · intro hnot q _ hq
    rw [← hshadowed]
    exact hnot _ (List.cons_ne_nil k q) (List.cons_prefix_cons.mpr ⟨rfl, hq⟩)
  · intro hnot q hne hq
    obtain ⟨k', q', rfl⟩ := List.exists_cons_of_ne_nil hne
    obtain ⟨rfl, hq'⟩ := List.cons_prefix_cons.mp hq
    rw [hshadowed]
    by_cases hnil : q' = []
    · rw [hnil]
      exact hfirst
    · exact hnot q' hnil hq'

/-- Anything else under a key of `b` takes the place of what `a` has there. -/
theorem leadsTo_replaced {w : MapValue α} (hb : h.lookup b k = some w)
    (hnot : ¬ (w.IsMap ∧ ∃ u, h.lookup a k = some u ∧ u.IsMap)) :
    LeadsTo h a b (k :: path) v ↔ h.follow w path = some (.leaf v) := by
  have hshadowed : Shadowed h a b [k] := by
    refine ⟨w, by simp [follow_cons, hb], ?_⟩
    simpa [follow_cons] using hnot
  rw [LeadsTo, follow_cons, hb, Option.bind_some]
  constructor
  · intro hleads
    apply hleads.resolve_right
    intro hright
    exact hright.2 [k] (List.cons_ne_nil k []) (List.cons_prefix_cons.mpr ⟨rfl, List.nil_prefix⟩)
      hshadowed
  · exact Or.inl

theorem leadsTo_agree {S : Nat → Prop} {da db : Nat} (ha : Nested h S da (.map a))
    (hb : Nested h S db (.map b)) (hh : Agree S h h') :
    LeadsTo h' a b path v ↔ LeadsTo h a b path v := by
  simp only [LeadsTo, Shadowed, ha.follow_agree hh, hb.follow_agree hh]

end Paths

/-- What `out` has under a key, from what `a` and `b` have there. -/
inductive EntryMerged (h h' : ValueHeap α) (S : Nat → Prop) (depth : Nat) :
    Option (MapValue α) → Option (MapValue α) → Option (MapValue α) → Prop
  | absent (y : Option (MapValue α)) : EntryMerged h h' S depth y none y
  | merged {bv w r : Nat} (hmerge : IsMerge h bv w h' r) (hnested : Nested h' S depth (.map r)) :
      EntryMerged h h' S depth (some (.map bv)) (some (.map w)) (some (.map r))
  | replaced {y : Option (MapValue α)} {v : MapValue α}
      (hnot : ¬ (v.IsMap ∧ ∃ u, y = some u ∧ u.IsMap)) :
      EntryMerged h h' S depth y (some v) (some v)

section Loop

variable {h h' h'' : ValueHeap α} {S : Nat → Prop} {depth : Nat}

theorem EntryMerged.agree {x y z : Option (MapValue α)} (hm : EntryMerged h h' S depth x y z)
    (hh : ∀ ref, S ref → ref < h'.maps.length → h''.get ref = h'.get ref) :
    EntryMerged h h'' S depth x y z := by
  cases hm with
  | absent y => exact EntryMerged.absent _
  | replaced hnot => exact EntryMerged.replaced hnot
  | @merged bv w r hmerge hnested =>
    have hagree : Agree (fun ref => S ref ∧ ref < h'.maps.length) h' h'' :=
      fun ref href => hh ref href.1 href.2
    refine EntryMerged.merged ?_ ((hnested.valid.agree hagree).mono (le_refl _) fun _ href => href.1)
    intro path v
    rw [hnested.valid.follow_agree hagree]
    exact hmerge path v

theorem isMerge_of_entries {a b out : Nat} {ea eb eo : Entries GoString α}
    (ha : h.get a = some ea) (hb : h.get b = some eb) (ho : h'.get out = some eo)
    (hentries : ∀ k, EntryMerged h h' S depth (ea.lookup k) (eb.lookup k) (eo.lookup k))
    (hfa : ∀ k w, ea.lookup k = some w → ∀ path, h'.follow w path = h.follow w path)
    (hfb : ∀ k w, eb.lookup k = some w → ∀ path, h'.follow w path = h.follow w path) :
    IsMerge h a b h' out := by
  intro path v
  cases path with
  | nil => simp [LeadsTo]
  | cons k path =>
    have hla : h.lookup a k = ea.lookup k := by rw [lookup, ha, Option.bind_some]
    have hlb : h.lookup b k = eb.lookup k := by rw [lookup, hb, Option.bind_some]
    have hlo : h'.lookup out k = eo.lookup k := by rw [lookup, ho, Option.bind_some]
    have hentry := hentries k
    rw [follow_cons, hlo]
    generalize hx : ea.lookup k = x at hentry hla
    generalize hy : eb.lookup k = y at hentry hlb
    generalize eo.lookup k = z at hentry
    cases hentry with
    | absent =>
      rw [leadsTo_absent hlb, follow_cons, hla]
      cases x with
      | none => rfl
      | some w => rw [Option.bind_some, Option.bind_some, hfa k w hx]
    | merged hmerge hnested => exact (hmerge path v).trans (leadsTo_merged hla hlb).symm
    | @replaced _ w hnot =>
      rw [leadsTo_replaced hlb (by rw [hla]; exact hnot), Option.bind_some, hfb k w hy]

/-- What a call of `MergeMaps` gives: the older maps as they were, and the merge at `out`, whose
maps are among those of `a` and `b` and the new ones. -/
structure Merged (h : ValueHeap α) (S : Nat → Prop) (depth a b : Nat) (h' : ValueHeap α)
    (out : Nat) : Prop where
  older : Extends h h'
  nested : Nested h' (fun ref => S ref ∨ h.maps.length ≤ ref) depth (.map out)
  isMerge : IsMerge h a b h' out

/-- During the loop over the entries of `b`, of which `rest` are to come. -/
structure LoopInv (h h' : ValueHeap α) (S : Nat → Prop) (depth : Nat)
    (ea eb eo : Entries GoString α) (rest : List (ValueEntry α)) : Prop where
  older : Extends h h'
  out : h'.get h.maps.length = some eo
  pending : ∀ entry ∈ rest, eo.lookup entry.1 = ea.lookup entry.1
  done : ∀ k, (∀ entry ∈ rest, entry.1 ≠ k) → EntryMerged h h'
    (fun ref => S ref ∨ h.maps.length < ref) depth (ea.lookup k) (eb.lookup k) (eo.lookup k)

variable {ea eb eo : Entries GoString α} {entry : ValueEntry α} {rest : List (ValueEntry α)}

/-- An entry is settled by a write to `out` into a heap that keeps the maps before. -/
theorem LoopInv.write (hinv : LoopInv h h' S depth ea eb eo (entry :: rest))
    (hkey : ∀ other ∈ rest, other.1 ≠ entry.1) (hS : ∀ ref, S ref → ref < h.maps.length)
    (hh : Extends h' h'') {v : MapValue α}
    (hmerged : EntryMerged h (h''.write h.maps.length entry.1 v)
      (fun ref => S ref ∨ h.maps.length < ref) depth (ea.lookup entry.1) (eb.lookup entry.1)
      (some v)) :
    LoopInv h (h''.write h.maps.length entry.1 v) S depth ea eb (eo.insert entry.1 v) rest := by
  have hout : h.maps.length < h'.maps.length := h'.get_eq_some hinv.out
  constructor
  · exact (hinv.older.trans hh).write (le_refl _) _ _
  · rw [get_write, hh.get _ hout, hinv.out, Option.map_some]
  · intro other hother
    rw [AList.lookup_insert_ne (hkey other hother)]
    exact hinv.pending other (List.mem_cons_of_mem _ hother)
  · intro k hk
    by_cases heq : k = entry.1
    · rw [heq, AList.lookup_insert]
      exact hmerged
    · rw [AList.lookup_insert_ne heq]
      have hold := hinv.done k (List.forall_mem_cons.mpr ⟨fun h => heq h.symm, hk⟩)
      apply hold.agree
      intro ref href hlt
      have hne : ref ≠ h.maps.length := by
        rcases href with href | href
        · exact (hS ref href).ne
        · exact href.ne'
      rw [get_write_ne _ hne]
      exact hh.get ref hlt

/-- The merge of two maps is the same after it is written to `out`. -/
theorem EntryMerged.write_merged {da db bv w r : Nat} {k : GoString} {v : MapValue α}
    (hS : ∀ ref, S ref → ref < h.maps.length) (hv : Nested h S da (.map bv))
    (hw : Nested h S db (.map w)) (hh : Extends h h') (hout : h.maps.length < h'.maps.length)
    (hr : Merged h' S depth bv w h'' r) :
    EntryMerged h (h''.write h.maps.length k v) (fun ref => S ref ∨ h.maps.length < ref) depth
      (some (.map bv)) (some (.map w)) (some (.map r)) := by
  have hnested : Nested h'' (fun ref => S ref ∨ h.maps.length < ref) depth (.map r) :=
    hr.nested.mono (le_refl _) fun ref href => href.imp_right hout.trans_le
  have hwrite : Agree (fun ref => S ref ∨ h.maps.length < ref) h''
      (h''.write h.maps.length k v) := by
    apply agree_write
    intro href
    rcases href with href | href
    · exact lt_irrefl _ (hS _ href)
    · exact lt_irrefl _ href
  refine EntryMerged.merged ?_ (hnested.agree hwrite)
  intro path x
  rw [hnested.follow_agree hwrite, ← leadsTo_agree hv hw (hh.agree hS)]
  exact hr.isMerge path x

/-- Unless both values are maps, the value of `b` is written. -/
theorem mergeEntry_replaces {merge : ValueHeap α → Nat → Nat → Option (ValueHeap α × Nat)}
    {out : Nat} {k : GoString} {v : MapValue α} {y : Option (MapValue α)}
    (hlookup : h'.lookup out k = y) (hnot : ¬ (v.IsMap ∧ ∃ u, y = some u ∧ u.IsMap)) :
    mergeEntry merge out h' ⟨k, v⟩ = some (h'.write out k v) := by
  rw [mergeEntry, hlookup]
  cases v with
  | leaf v => rfl
  | map w =>
    cases y with
    | none => rfl
    | some u =>
      cases u with
      | leaf u => rfl
      | map bv => exact absurd ⟨trivial, _, rfl, trivial⟩ hnot

theorem mergeEntry_spec {merge : ValueHeap α → Nat → Nat → Option (ValueHeap α × Nat)} {da db : Nat}
    (hmerge : ∀ (h' : ValueHeap α) (bv w : Nat), Extends h h' → Nested h' S da (.map bv) →
      Nested h' S db (.map w) → ∃ h'' r, merge h' bv w = some (h'', r) ∧
        Merged h' S (max da db) bv w h'' r)
    (hS : ∀ ref, S ref → ref < h.maps.length)
    (hea : ∀ k v, ea.lookup k = some v → Nested h S da v)
    (heb : ∀ k v, eb.lookup k = some v → Nested h S db v)
    (hinv : LoopInv h h' S (max da db) ea eb eo (entry :: rest))
    (hkey : ∀ other ∈ rest, other.1 ≠ entry.1) (hentry : eb.lookup entry.1 = some entry.2) :
    ∃ h'' eo', mergeEntry merge h.maps.length h' entry = some h'' ∧
      LoopInv h h'' S (max da db) ea eb eo' rest := by
  obtain ⟨k, v⟩ := entry
  have hlookup : h'.lookup h.maps.length k = ea.lookup k := by
    rw [lookup, hinv.out, Option.bind_some, hinv.pending _ List.mem_cons_self]
  have hagree : Agree S h h' := hinv.older.agree hS
  by_cases hmaps : v.IsMap ∧ ∃ u, ea.lookup k = some u ∧ u.IsMap
  · obtain ⟨hv, u, hu, humap⟩ := hmaps
    obtain ⟨w, rfl⟩ := hv.exists_ref
    obtain ⟨bv, rfl⟩ := humap.exists_ref
    have htbv := hea k _ hu
    have htw := heb k _ hentry
    obtain ⟨h'', r, hcall, hr⟩ := hmerge h' bv w hinv.older (htbv.agree hagree) (htw.agree hagree)
    refine ⟨h''.write h.maps.length k (.map r), eo.insert k (.map r), ?_, ?_⟩
    · rw [mergeEntry, hlookup, hu]
      simp only [hcall, Option.map_some]
    · apply hinv.write hkey hS hr.older
      rw [hu, hentry]
      exact EntryMerged.write_merged hS htbv htw hinv.older (h'.get_eq_some hinv.out) hr
  · refine ⟨h'.write h.maps.length k v, eo.insert k v, mergeEntry_replaces hlookup hmaps, ?_⟩
    apply hinv.write hkey hS (Extends.refl h')
    rw [hentry]
    exact EntryMerged.replaced hmaps

theorem mergeEntries_spec {merge : ValueHeap α → Nat → Nat → Option (ValueHeap α × Nat)}
    {da db : Nat}
    (hmerge : ∀ (h' : ValueHeap α) (bv w : Nat), Extends h h' → Nested h' S da (.map bv) →
      Nested h' S db (.map w) → ∃ h'' r, merge h' bv w = some (h'', r) ∧
        Merged h' S (max da db) bv w h'' r)
    (hS : ∀ ref, S ref → ref < h.maps.length)
    (hea : ∀ k v, ea.lookup k = some v → Nested h S da v)
    (heb : ∀ k v, eb.lookup k = some v → Nested h S db v)
    (hinv : LoopInv h h' S (max da db) ea eb eo rest)
    (hkeys : rest.Pairwise fun entry other => other.1 ≠ entry.1)
    (hrest : ∀ entry ∈ rest, eb.lookup entry.1 = some entry.2) :
    ∃ h'' eo', rest.foldlM (mergeEntry merge h.maps.length) h' = some h'' ∧
      LoopInv h h'' S (max da db) ea eb eo' [] := by
  induction rest generalizing h' eo with
  | nil => exact ⟨h', eo, rfl, hinv⟩
  | cons entry rest ih =>
    obtain ⟨hkey, hkeys⟩ := List.pairwise_cons.mp hkeys
    obtain ⟨hentry, hrest⟩ := List.forall_mem_cons.mp hrest
    obtain ⟨h1, eo1, hstep, hinv1⟩ := mergeEntry_spec hmerge hS hea heb hinv hkey hentry
    obtain ⟨h2, eo2, hrun, hinv2⟩ := ih hinv1 hkeys hrest
    refine ⟨h2, eo2, ?_, hinv2⟩
    rw [List.foldlM_cons, hstep]
    exact hrun

end Loop

section Order

variable (range : RangeOrder (ValueEntry α)) (out : Nat) (eb : Entries GoString α)

theorem range_keys :
    (range.order out eb.entries).Pairwise fun entry other => other.1 ≠ entry.1 := by
  have hnodup := ((range.perm out eb.entries).map Sigma.fst).nodup_iff.mpr eb.nodupKeys
  exact (List.pairwise_map.mp hnodup).imp Ne.symm

theorem range_lookup {entry : ValueEntry α} (hentry : entry ∈ range.order out eb.entries) :
    eb.lookup entry.1 = some entry.2 :=
  AList.mem_lookup_iff.mpr ((range.perm out eb.entries).mem_iff.mp hentry)

theorem range_absent {k : GoString} (hk : ∀ entry ∈ range.order out eb.entries, entry.1 ≠ k) :
    eb.lookup k = none := by
  rw [AList.lookup_eq_none, AList.mem_keys, AList.keys]
  intro hmem
  obtain ⟨entry, hentry, hkey⟩ := List.mem_map.mp hmem
  exact hk entry ((range.perm _ _).mem_iff.mpr hentry) hkey

end Order

/-- The loop starts at a copy of `a`. -/
theorem loopInv_alloc (range : RangeOrder (ValueEntry α)) (h : ValueHeap α) (S : Nat → Prop)
    (depth : Nat) (ea eb : Entries GoString α) :
    LoopInv h (h.alloc ea).1 S depth ea eb ea (range.order h.maps.length eb.entries) := by
  constructor
  · exact extends_alloc h ea
  · exact h.get_alloc ea
  · exact fun _ _ => rfl
  · intro k hk
    rw [range_absent range _ eb hk]
    exact EntryMerged.absent _

/-- What `out` has under a key is as deep as what `a` and `b` have. -/
theorem EntryMerged.nested {h h' : ValueHeap α} {S : Nat → Prop} {da db : Nat}
    {x y z : Option (MapValue α)} {v : MapValue α}
    (hentry : EntryMerged h h' (fun ref => S ref ∨ h.maps.length < ref) (max da db) x y z)
    (hx : ∀ v ∈ x, Nested h S da v) (hy : ∀ v ∈ y, Nested h S db v) (hagree : Agree S h h')
    (hz : z = some v) :
    Nested h' (fun ref => S ref ∨ h.maps.length ≤ ref) (max da db) v := by
  subst hz
  cases hentry with
  | absent => exact ((hx v rfl).agree hagree).mono (le_max_left da db) fun _ href => Or.inl href
  | merged _ hnested => exact hnested.mono (le_refl _) fun _ href => href.imp_right Nat.le_of_lt
  | replaced => exact ((hy v rfl).agree hagree).mono (le_max_right da db) fun _ href => Or.inl href

theorem mergeMaps_spec (range : RangeOrder (ValueEntry α)) {h : ValueHeap α} {S : Nat → Prop}
    {da db a b : Nat} (hS : ∀ ref, S ref → ref < h.maps.length) (ha : Nested h S da (.map a))
    (hb : Nested h S db (.map b)) :
    ∃ h' out, mergeMaps range db h a b = some (h', out) ∧ Merged h S (max da db) a b h' out := by
  induction db generalizing h da a b with
  | zero => cases hb
  | succ db ih =>
    cases hb with
    | @map _ _ eb hbS hgetb heb =>
    cases ha with
    | @map da _ ea haS hgeta hea =>
    have hmerge : ∀ (h' : ValueHeap α) (bv w : Nat), Extends h h' → Nested h' S da (.map bv) →
        Nested h' S db (.map w) → ∃ h'' r, mergeMaps range db h' bv w = some (h'', r) ∧
          Merged h' S (max da db) bv w h'' r := by
      intro h' bv w hh hbv hw
      exact ih (fun ref href => (hS ref href).trans_le hh.length_le) hbv hw
    obtain ⟨h', eo, hrun, hinv'⟩ := mergeEntries_spec hmerge hS hea heb
      (loopInv_alloc range h S (max da db) ea eb) (range_keys range _ eb)
      fun _ hentry => range_lookup range _ eb hentry
    have hagree : Agree S h h' := hinv'.older.agree hS
    have hentries : ∀ k, EntryMerged h h' (fun ref => S ref ∨ h.maps.length < ref) (max da db)
        (ea.lookup k) (eb.lookup k) (eo.lookup k) := fun k => hinv'.done k (by simp)
    refine ⟨h', h.maps.length, ?_, hinv'.older, ?_, ?_⟩
    · have hgetb' : (h.alloc ea).1.get b = some eb :=
        ((extends_alloc h ea).get b (h.get_eq_some hgetb)).trans hgetb
      rw [mergeMaps, hgeta, Option.getD_some]
      simp only [hgetb', Option.getD_some]
      have hcall : (range.order h.maps.length eb.entries).foldlM
          (mergeEntry (mergeMaps range db) (h.alloc ea).2) (h.alloc ea).1 = some h' := hrun
      exact congrArg (Option.bind · fun h'' => some (h'', h.maps.length)) hcall
    · rw [Nat.add_max_add_right]
      refine Nested.map (Or.inr (le_refl _)) hinv'.out ?_
      intro k v hv
      exact (hentries k).nested (fun v hv => hea k v hv) (fun v hv => heb k v hv) hagree hv
    · exact isMerge_of_entries hgeta hgetb hinv'.out hentries
        (fun k w hw path => (hea k w hw).follow_agree hagree path)
        fun k w hw path => (heb k w hw).follow_agree hagree path

/-- The merge of two maps of any depth is a map of its own: it leads where `b` leads, and where
`a` leads unless something in `b` shadows it. The two maps are as they were. -/
theorem mergeMaps_leads (range : RangeOrder (ValueEntry α)) (h : ValueHeap α) (a b da db : Nat)
    (ha : Nested h (fun _ => True) da (.map a)) (hb : Nested h (fun _ => True) db (.map b)) :
    ∃ h' out, mergeMaps range db h a b = some (h', out) ∧
      (∀ path v, h'.follow (.map out) path = some (.leaf v) ↔
        h.follow (.map b) path = some (.leaf v) ∨
          h.follow (.map a) path = some (.leaf v) ∧
            ∀ q, q ≠ [] → q <+: path → ¬ Shadowed h a b q) ∧
      Extends h h' ∧ ∀ path, h'.follow (.map a) path = h.follow (.map a) path ∧
        h'.follow (.map b) path = h.follow (.map b) path := by
  obtain ⟨h', out, hcall, hmerged⟩ := mergeMaps_spec range (fun _ href => href.2) ha.valid hb.valid
  have hagree := hmerged.older.agree (S := fun ref => True ∧ ref < h.maps.length)
    fun _ href => href.2
  exact ⟨h', out, hcall, hmerged.isMerge, hmerged.older, fun path =>
    ⟨ha.valid.follow_agree hagree path, hb.valid.follow_agree hagree path⟩⟩

def sampleValues : ValueHeap Nat where
  maps := [AList.singleton (ascii "operator") (.map 2), AList.singleton (ascii "operator") (.map 3),
    AList.singleton (ascii "image") (.leaf 1), AList.singleton (ascii "replicas") (.leaf 2)]

theorem mergeMaps_leads_sample :
    ∃ h' out, mergeMaps ⟨fun _ l => l, fun _ l => List.Perm.refl l⟩ 2 sampleValues 0 1 =
        some (h', out) ∧
      h'.follow (.map out) [ascii "operator", ascii "image"] = some (.leaf 1) := by
  have hinner : ∀ ref k v, sampleValues.get ref = some (AList.singleton k (.leaf v)) →
      Nested sampleValues (fun _ => True) 1 (.map ref) :=
    fun ref k v hget => Nested.singleton trivial hget (Nested.leaf 0 v)
  have ha : Nested sampleValues (fun _ => True) 2 (.map 0) :=
    Nested.singleton trivial rfl (hinner 2 _ _ rfl)
  have hb : Nested sampleValues (fun _ => True) 2 (.map 1) :=
    Nested.singleton trivial rfl (hinner 3 _ _ rfl)
  obtain ⟨h', out, hcall, hleads, -⟩ := mergeMaps_leads ⟨fun _ l => l, fun _ l => List.Perm.refl l⟩
    sampleValues 0 1 2 2 ha hb
  refine ⟨h', out, hcall, (hleads _ _).mpr (Or.inr ⟨by decide +kernel, ?_⟩)⟩
  intro q hne hq hshadowed
  obtain ⟨w, hw, hnot⟩ := hshadowed
  have hcases : q = [ascii "operator"] ∨ q = [ascii "operator", ascii "image"] := by
    have hmem := List.mem_inits _ _ |>.mpr hq
    simpa [List.inits, hne] using hmem
  rcases hcases with rfl | rfl
  · have hb1 : sampleValues.follow (.map 1) [ascii "operator"] = some (.map 3) := by decide +kernel
    have ha1 : sampleValues.follow (.map 0) [ascii "operator"] = some (.map 2) := by decide +kernel
    rw [hb1] at hw
    cases hw
    exact hnot ⟨trivial, _, ha1, trivial⟩
  · have hb2 : sampleValues.follow (.map 1) [ascii "operator", ascii "image"] = none := by
      decide +kernel
    rw [hb2] at hw
    cases hw

end OpenEverest.Cli
