import OpenEverest.Framework.SortFunc

/-!
# Repeats that neighbours do not show

Dropping the elements equal to their left neighbour leaves an element twice exactly where
another one comes between two of its occurrences. In a list that is put together query by
query, this is decided by the order of the queries and the order of the items.
-/

namespace OpenEverest.Framework

variable {α β : Type}

theorem pair_sublist_cons {x y a : α} {l : List α} :
    [x, y].Sublist (a :: l) ↔ [x, y].Sublist l ∨ x = a ∧ y ∈ l := by
  rw [List.sublist_cons_iff]
  simp

theorem triple_sublist_cons {x y z a : α} {l : List α} :
    [x, y, z].Sublist (a :: l) ↔ [x, y, z].Sublist l ∨ x = a ∧ [y, z].Sublist l := by
  rw [List.sublist_cons_iff]
  simp

theorem pair_sublist_append {x y : α} {l m : List α} :
    [x, y].Sublist (l ++ m) ↔ [x, y].Sublist l ∨ x ∈ l ∧ y ∈ m ∨ [x, y].Sublist m := by
  induction l with
  | nil => simp
  | cons a l ih =>
    rw [List.cons_append, pair_sublist_cons, pair_sublist_cons, ih, List.mem_append,
      List.mem_cons]
    grind

theorem triple_sublist_append {x y z : α} {l m : List α} :
    [x, y, z].Sublist (l ++ m) ↔ [x, y, z].Sublist l ∨ [x, y].Sublist l ∧ z ∈ m ∨
      x ∈ l ∧ [y, z].Sublist m ∨ [x, y, z].Sublist m := by
  induction l with
  | nil => simp
  | cons a l ih =>
    rw [List.cons_append, triple_sublist_cons, triple_sublist_cons, ih, pair_sublist_append,
      pair_sublist_cons, List.mem_cons]
    grind

theorem pair_sublist_filter {p : α → Bool} {x y : α} {l : List α} :
    [x, y].Sublist (l.filter p) ↔ [x, y].Sublist l ∧ p x = true ∧ p y = true := by
  constructor
  · intro hsub
    refine ⟨hsub.trans List.filter_sublist, ?_⟩
    have hx := hsub.subset List.mem_cons_self
    have hy := hsub.subset (List.mem_cons_of_mem x (List.mem_singleton_self y))
    exact ⟨(List.mem_filter.mp hx).2, (List.mem_filter.mp hy).2⟩
  · intro h
    have hfilter := h.1.filter p
    rwa [List.filter_cons_of_pos h.2.1, List.filter_cons_of_pos h.2.2] at hfilter

theorem exists_pair_cons {a : α} {l : List α} {P Q : α → Prop} :
    (∃ x y, [x, y].Sublist (a :: l) ∧ P x ∧ Q y) ↔
      (∃ x y, [x, y].Sublist l ∧ P x ∧ Q y) ∨ P a ∧ ∃ y ∈ l, Q y := by
  simp only [pair_sublist_cons, or_and_right, exists_or]
  refine or_congr_right ⟨?_, ?_⟩
  · intro ⟨x, y, hmem, hP, hQ⟩
    exact ⟨hmem.1 ▸ hP, y, hmem.2, hQ⟩
  · intro ⟨hP, y, hmem, hQ⟩
    exact ⟨a, y, ⟨rfl, hmem⟩, hP, hQ⟩

theorem exists_triple_cons {a : α} {l : List α} {P Q R : α → Prop} :
    (∃ x y z, [x, y, z].Sublist (a :: l) ∧ P x ∧ Q y ∧ R z) ↔
      (∃ x y z, [x, y, z].Sublist l ∧ P x ∧ Q y ∧ R z) ∨
        P a ∧ ∃ y z, [y, z].Sublist l ∧ Q y ∧ R z := by
  simp only [triple_sublist_cons, or_and_right, exists_or]
  refine or_congr_right ⟨?_, ?_⟩
  · intro ⟨x, y, z, hsub, hP, hrest⟩
    exact ⟨hsub.1 ▸ hP, y, z, hsub.2, hrest⟩
  · intro ⟨hP, y, z, hsub, hrest⟩
    exact ⟨a, y, z, ⟨rfl, hsub⟩, hP, hrest⟩

theorem not_pair_sublist_self {l : List α} (h : l.Nodup) (x : α) : ¬ [x, x].Sublist l := by
  intro hsub
  have hpair := h.sublist hsub
  simp at hpair

section Destutter

variable [DecidableEq α]

theorem mem_destutter'_ne {x a : α} {l : List α} :
    x ∈ l.destutter' (· ≠ ·) a ↔ x ∈ a :: l :=
  mem_destutter_ne (l := a :: l)

theorem count_destutter'_le_one {x a : α} {l : List α} :
    (l.destutter' (· ≠ ·) a).count x ≤ 1 ↔ ∀ y, [x, y, x].Sublist (a :: l) → y = x := by
  induction l generalizing a with
  | nil =>
    have hcount := List.count_le_length (a := x) (l := [a])
    simp only [List.destutter'_nil]
    refine ⟨fun _ y hsub => ?_, fun _ => hcount⟩
    have hlength := hsub.length_le
    simp at hlength
  | cons b l ih =>
    by_cases hab : a = b
    · subst hab
      rw [List.destutter'_cons_neg _ (not_not.mpr rfl), ih]
      refine forall_congr' fun y => ?_
      rw [triple_sublist_cons (l := a :: l), pair_sublist_cons, triple_sublist_cons]
      constructor
      · intro h hsub
        rcases hsub with hsub | ⟨rfl, hsub | ⟨rfl, _⟩⟩
        · exact h hsub
        · exact h (Or.inr ⟨rfl, hsub⟩)
        · rfl
      · intro h hsub
        exact h (Or.inl hsub)
    · rw [List.destutter'_cons_pos _ hab, List.count_cons]
      by_cases hax : a = x
      · subst hax
        have hlater : (l.destutter' (· ≠ ·) b).count a = 0 ↔ a ∉ b :: l := by
          rw [List.count_eq_zero, mem_destutter'_ne]
        have hone : (l.destutter' (· ≠ ·) b).count a + 1 ≤ 1 ↔
            (l.destutter' (· ≠ ·) b).count a = 0 := by omega
        rw [beq_self_eq_true, if_pos rfl, hone, hlater]
        constructor
        · intro hnot y hsub
          rcases triple_sublist_cons.mp hsub with hsub | ⟨_, hsub⟩
          · exact absurd (hsub.subset List.mem_cons_self) hnot
          · exact absurd (hsub.subset (List.mem_cons_of_mem y (List.mem_singleton_self a))) hnot
        · intro h hmem
          have ha : a ∈ l := (List.mem_cons.mp hmem).resolve_left hab
          have hsub : [a, b, a].Sublist (a :: b :: l) :=
            (List.singleton_sublist.mpr ha).cons_cons b |>.cons_cons a
          exact hab (h b hsub).symm
      · rw [beq_false_of_ne hax, if_neg Bool.false_ne_true, Nat.add_zero, ih]
        refine forall_congr' fun y => ?_
        rw [triple_sublist_cons (l := b :: l)]
        simp only [Ne.symm hax, false_and, or_false]

/-- Repeats are dropped for good exactly where no other element comes between them. -/
theorem count_destutter_le_one {x : α} {l : List α} :
    (l.destutter (· ≠ ·)).count x ≤ 1 ↔ ∀ y, [x, y, x].Sublist l → y = x := by
  cases l with
  | nil => simp
  | cons a l => exact count_destutter'_le_one

theorem nodup_filter_destutter {p : α → Bool} {l : List α} :
    ((l.destutter (· ≠ ·)).filter p).Nodup ↔
      ∀ x y, p x = true → [x, y, x].Sublist l → y = x := by
  rw [List.nodup_iff_count_le_one]
  constructor
  · intro h x y hx
    have hcount := h x
    rw [List.count_filter hx] at hcount
    exact count_destutter_le_one.mp hcount y
  · intro h x
    by_cases hx : p x = true
    · rw [List.count_filter hx]
      exact count_destutter_le_one.mpr fun y => h x y hx
    · have hnot : x ∉ (l.destutter (· ≠ ·)).filter p := by
        intro hmem
        exact hx (List.mem_filter.mp hmem).2
      rw [List.count_eq_zero.mpr hnot]
      exact Nat.zero_le 1

end Destutter

section Listing

variable (p : β → α → Bool) (queries : List β) (items : List α)

def listing : List α := queries.flatMap fun q => items.filter (p q)

/-- `y` is listed between two listings of `x`: for the query of the first of them or of the
second, or for a query between these. -/
def Interrupts (x y : α) : Prop :=
  ([x, y].Sublist items ∧
    ∃ q r, [q, r].Sublist queries ∧ (p q x = true ∧ p q y = true) ∧ p r x = true) ∨
  ([y, x].Sublist items ∧
    ∃ q r, [q, r].Sublist queries ∧ p q x = true ∧ p r y = true ∧ p r x = true) ∨
  (x ∈ items ∧ y ∈ items ∧
    ∃ q s r, [q, s, r].Sublist queries ∧ p q x = true ∧ p s y = true ∧ p r x = true)

variable {p queries items}

@[simp] theorem mem_listing {x : α} :
    x ∈ listing p queries items ↔ x ∈ items ∧ ∃ q ∈ queries, p q x = true := by
  simp only [listing, List.mem_flatMap, List.mem_filter]
  tauto

theorem listing_cons (q : β) :
    listing p (q :: queries) items = items.filter (p q) ++ listing p queries items := rfl

theorem pair_sublist_listing {x y : α} :
    [x, y].Sublist (listing p queries items) ↔
      [x, y].Sublist items ∧ (∃ q ∈ queries, p q x = true ∧ p q y = true) ∨
        x ∈ items ∧ y ∈ items ∧ ∃ q r, [q, r].Sublist queries ∧ p q x = true ∧ p r y = true := by
  induction queries with
  | nil => simp [listing]
  | cons q queries ih =>
    rw [listing_cons, pair_sublist_append, pair_sublist_filter, List.mem_filter, mem_listing, ih,
      exists_pair_cons]
    simp only [List.mem_cons, exists_eq_or_imp]
    generalize (∃ r ∈ queries, p r y = true) = later
    generalize (∃ r ∈ queries, p r x = true ∧ p r y = true) = both
    grind

theorem triple_sublist_listing {x y : α} (h : items.Nodup) :
    [x, y, x].Sublist (listing p queries items) ↔ Interrupts p queries items x y := by
  induction queries with
  | nil => simp [listing, Interrupts]
  | cons q queries ih =>
    have hnever : ¬ [x, y, x].Sublist (items.filter (p q)) := by
      intro hsub
      have hself : [x, x].Sublist [x, y, x] := ((List.Sublist.refl [x]).cons y).cons_cons x
      exact not_pair_sublist_self (h.filter _) x (hself.trans hsub)
    have hmem : [x, y].Sublist items → x ∈ items := fun hsub => hsub.subset List.mem_cons_self
    have hmem' : [y, x].Sublist items → x ∈ items := fun hsub =>
      hsub.subset (List.mem_cons_of_mem y (List.mem_singleton_self x))
    rw [listing_cons, triple_sublist_append, ih, pair_sublist_filter, pair_sublist_listing,
      mem_listing, List.mem_filter, Interrupts, Interrupts, exists_pair_cons, exists_pair_cons,
      exists_triple_cons]
    simp only [hnever, false_or]
    constructor
    · intro h
      rcases h with ⟨⟨hsub, hq⟩, _, hlater⟩ | ⟨⟨hx, hqx⟩, hrest⟩ | ⟨hsub, hold⟩ | ⟨hsub, hold⟩ |
        hold
      · exact Or.inl ⟨hsub, Or.inr ⟨hq, hlater⟩⟩
      · rcases hrest with ⟨hsub, hboth⟩ | ⟨hy, _, hpair⟩
        · exact Or.inr (Or.inl ⟨hsub, Or.inr ⟨hqx, hboth⟩⟩)
        · exact Or.inr (Or.inr ⟨hx, hy, Or.inr ⟨hqx, hpair⟩⟩)
      · exact Or.inl ⟨hsub, Or.inl hold⟩
      · exact Or.inr (Or.inl ⟨hsub, Or.inl hold⟩)
      · exact Or.inr (Or.inr ⟨hold.1, hold.2.1, Or.inl hold.2.2⟩)
    · intro h
      rcases h with ⟨hsub, hold | ⟨hq, hlater⟩⟩ | ⟨hsub, hold | ⟨hqx, hboth⟩⟩ |
        ⟨hx, hy, hold | ⟨hqx, hpair⟩⟩
      · exact Or.inr (Or.inr (Or.inl ⟨hsub, hold⟩))
      · exact Or.inl ⟨⟨hsub, hq⟩, hmem hsub, hlater⟩
      · exact Or.inr (Or.inr (Or.inr (Or.inl ⟨hsub, hold⟩)))
      · exact Or.inr (Or.inl ⟨⟨hmem' hsub, hqx⟩, Or.inl ⟨hsub, hboth⟩⟩)
      · exact Or.inr (Or.inr (Or.inr (Or.inr ⟨hx, hy, hold⟩)))
      · exact Or.inr (Or.inl ⟨⟨hx, hqx⟩, Or.inr ⟨hy, hx, hpair⟩⟩)

end Listing

end OpenEverest.Framework
