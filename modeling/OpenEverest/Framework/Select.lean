import Mathlib.Data.List.Basic

/-!
# The element a loop keeps

A loop over a list keeps one element and replaces it by a later one that is better. Where
not being better is transitive, no element is better than the one that is kept.
-/

namespace OpenEverest.Framework

variable {α : Type*} (R : α → α → Prop) [DecidableRel R]

/-- The element kept after the list: `R best x` when `x` takes the place of `best`. -/
def select : α → List α → α
  | best, [] => best
  | best, x :: xs => select (if R best x then x else best) xs

/-- A loop that may start with no element. -/
def selectFrom : Option α → List α → Option α
  | some a, xs => some (select R a xs)
  | none, [] => none
  | none, x :: xs => some (select R x xs)

variable {R}

theorem select_cons_of {a x : α} (h : R a x) (xs : List α) :
    select R a (x :: xs) = select R x xs := by
  rw [select, if_pos h]

theorem select_cons_of_not {a x : α} (h : ¬ R a x) (xs : List α) :
    select R a (x :: xs) = select R a xs := by
  rw [select, if_neg h]

theorem select_mem (a : α) (l : List α) : select R a l ∈ a :: l := by
  induction l generalizing a with
  | nil => exact List.mem_singleton_self a
  | cons x xs ih =>
    rw [select]
    split
    · exact List.mem_cons_of_mem a (ih x)
    · rcases List.mem_cons.mp (ih a) with h | h
      · rw [h]
        exact List.mem_cons_self
      · exact List.mem_cons_of_mem a (List.mem_cons_of_mem x h)

theorem not_replaces_select (hasymm : ∀ a b, R a b → ¬ R b a)
    (htrans : ∀ a b c, ¬ R a b → ¬ R b c → ¬ R a c) (a : α) (l : List α) :
    ∀ x ∈ a :: l, ¬ R (select R a l) x := by
  induction l generalizing a with
  | nil =>
    intro x hx h
    rw [List.mem_singleton.mp hx] at h
    exact hasymm a a h h
  | cons y ys ih =>
    intro x hx
    rw [select]
    -- The one kept of `a` and `y` is not replaced by either, so neither replaces the result.
    split
    · rename_i hay
      rcases List.mem_cons.mp hx with rfl | hx
      · exact htrans _ y x (ih y y List.mem_cons_self) (hasymm x y hay)
      · exact ih y x hx
    · rename_i hay
      rcases List.mem_cons.mp hx with rfl | hx
      · exact ih x x List.mem_cons_self
      · rcases List.mem_cons.mp hx with rfl | hx
        · exact htrans _ a x (ih a a List.mem_cons_self) hay
        · exact ih a x (List.mem_cons_of_mem a hx)

theorem selectFrom_none_eq_none {l : List α} : selectFrom R none l = none ↔ l = [] := by
  cases l <;> simp [selectFrom]

theorem selectFrom_none_mem {l : List α} {a : α} (h : selectFrom R none l = some a) : a ∈ l := by
  cases l with
  | nil => cases h
  | cons x xs =>
    cases h
    exact select_mem x xs

theorem not_replaces_selectFrom_none (hasymm : ∀ a b, R a b → ¬ R b a)
    (htrans : ∀ a b c, ¬ R a b → ¬ R b c → ¬ R a c) {l : List α} {a : α}
    (h : selectFrom R none l = some a) : ∀ x ∈ l, ¬ R a x := by
  cases l with
  | nil => cases h
  | cons x xs =>
    cases h
    exact not_replaces_select hasymm htrans x xs

end OpenEverest.Framework
