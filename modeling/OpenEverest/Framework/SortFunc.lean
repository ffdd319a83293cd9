import Mathlib.Data.List.Destutter
import Mathlib.Data.List.Sort

/-!
# Sorting with a comparison

`slices.SortFunc` promises an ascending reordering and nothing about equal
elements. A routine is any function with these two properties. `slices.Compact` drops an
element that equals the one before it, so that a sorted list keeps one of each.
-/

namespace OpenEverest.Framework

structure SortFunc (α : Type) (le : α → α → Prop) where
  sort : List α → List α
  perm : ∀ l, (sort l).Perm l
  ascending : ∀ l, (sort l).Pairwise le

namespace SortFunc

variable {α : Type} {le : α → α → Prop}

@[simp] theorem mem_sort (s : SortFunc α le) (a : α) (l : List α) : a ∈ s.sort l ↔ a ∈ l :=
  (s.perm l).mem_iff

/-- The first element of a kind has no other of the kind that must come before it. -/
theorem find?_first (s : SortFunc α le) {p : α → Bool} {l : List α} {a : α}
    (h : (s.sort l).find? p = some a) :
    a ∈ l ∧ p a = true ∧ ∀ b ∈ l, p b = true → b = a ∨ le a b := by
  obtain ⟨ha, before, after, hsplit, hbefore⟩ := List.find?_eq_some_iff_append.mp h
  have hsorted := s.ascending l
  rw [hsplit] at hsorted
  have hafter := (List.pairwise_cons.mp (List.pairwise_append.mp hsorted).2.1).1
  refine ⟨(s.mem_sort a l).mp (List.mem_of_find?_eq_some h), ha, ?_⟩
  intro b hb hpb
  have hmem : b ∈ before ++ a :: after := hsplit ▸ (s.mem_sort b l).mpr hb
  rcases List.mem_append.mp hmem with hbefore' | hrest
  · have hnot := hbefore b hbefore'
    rw [hpb] at hnot
    cases hnot
  · rcases List.mem_cons.mp hrest with rfl | hlater
    · exact Or.inl rfl
    · exact Or.inr (hafter b hlater)

theorem find?_isSome (s : SortFunc α le) {p : α → Bool} {l : List α} {a : α} (ha : a ∈ l)
    (hpa : p a = true) : ∃ b, (s.sort l).find? p = some b :=
  Option.isSome_iff_exists.mp (List.find?_isSome.mpr ⟨a, (s.mem_sort a l).mpr ha, hpa⟩)

theorem perm_of_sort_eq (s : SortFunc α le) {l l' : List α} (h : s.sort l = s.sort l') :
    l.Perm l' :=
  (s.perm l).symm.trans (h ▸ s.perm l')

theorem sort_eq_of_perm (s : SortFunc α le) {l l' : List α} (h : l.Perm l')
    (hanti : ∀ a ∈ l, ∀ b ∈ l, le a b → le b a → a = b) : s.sort l = s.sort l' := by
  have hsorted : (s.sort l).Perm (s.sort l') := (s.perm l).trans (h.trans (s.perm l').symm)
  apply hsorted.eq_of_pairwise _ (s.ascending l) (s.ascending l')
  intro a b ha hb hab hba
  have hb' : b ∈ l := h.mem_iff.mpr ((s.mem_sort b l').mp hb)
  exact hanti a ((s.mem_sort a l).mp ha) b hb' hab hba

/-- A routine for a finer order is one for the order. -/
def weaken {fine : α → α → Prop} (s : SortFunc α fine) (h : ∀ a b, fine a b → le a b) :
    SortFunc α le where
  sort := s.sort
  perm := s.perm
  ascending l := (s.ascending l).imp (h _ _)

/-- Insertion, which keeps equal elements in order. -/
def insertion (le : α → α → Prop) [DecidableRel le] [Std.Total le] [IsTrans α le] :
    SortFunc α le where
  sort := List.insertionSort le
  perm := List.perm_insertionSort le
  ascending := List.pairwise_insertionSort le

end SortFunc

section Compact

variable {α : Type} [DecidableEq α] {le : α → α → Prop}

theorem mem_compact {a x : α} {l : List α} (hx : x ∈ a :: l) : x ∈ l.destutter' (· ≠ ·) a := by
  induction l generalizing a with
  | nil => exact hx
  | cons b l ih =>
    by_cases hab : a = b
    · subst hab
      rw [List.destutter'_cons_neg _ (not_not.mpr rfl)]
      apply ih
      rcases List.mem_cons.mp hx with rfl | hx
      · exact List.mem_cons_self
      · exact hx
    · rw [List.destutter'_cons_pos _ hab]
      rcases List.mem_cons.mp hx with rfl | hx
      · exact List.mem_cons_self
      · exact List.mem_cons_of_mem _ (ih hx)

@[simp] theorem mem_destutter_ne {x : α} {l : List α} : x ∈ l.destutter (· ≠ ·) ↔ x ∈ l := by
  cases l with
  | nil => rfl
  | cons a l =>
    rw [List.destutter_cons']
    constructor
    · intro hx
      exact (List.destutter'_sublist _ _ _).subset hx
    · exact mem_compact

theorem nodup_compact [Std.Antisymm le] {a : α} {l : List α} (hsorted : (a :: l).Pairwise le) :
    (l.destutter' (· ≠ ·) a).Nodup := by
  induction l generalizing a with
  | nil => exact List.nodup_singleton a
  | cons b l ih =>
    obtain ⟨hfirst, hrest⟩ := List.pairwise_cons.mp hsorted
    by_cases hab : a = b
    · subst hab
      rw [List.destutter'_cons_neg _ (not_not.mpr rfl)]
      exact ih hrest
    · rw [List.destutter'_cons_pos _ hab]
      refine List.nodup_cons.mpr ⟨?_, ih hrest⟩
      intro hmem
      -- A later element equal to `a` would lie between `a` and `b`.
      rcases List.mem_cons.mp ((List.destutter'_sublist _ _ _).subset hmem) with heq | hlater
      · exact hab heq
      · have hba := (List.pairwise_cons.mp hrest).1 a hlater
        exact hab (Std.Antisymm.antisymm a b (hfirst b List.mem_cons_self) hba)

theorem nodup_destutter_ne [Std.Antisymm le] {l : List α} (hsorted : l.Pairwise le) :
    (l.destutter (· ≠ ·)).Nodup := by
  cases l with
  | nil => exact List.nodup_nil
  | cons a l => exact nodup_compact hsorted

end Compact

end OpenEverest.Framework
