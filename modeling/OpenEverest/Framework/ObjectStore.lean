import Mathlib.Logic.Function.Basic

/-!
# Object stores

A store holds one object for each key. A read, an update and a deletion need the
object, a creation needs its absence. A call may fail before it acts, and then the
store is as it was.
-/

namespace OpenEverest.Framework

inductive StoreError where
  | notFound
  | alreadyExists
  | other
  deriving DecidableEq

abbrev ObjectStore (κ α : Type) := κ → Option α

/-- A call that fails with the error given, or acts. -/
def inject {α : Type} (failure : Option StoreError) (call : Except StoreError α) :
    Except StoreError α :=
  match failure with
  | some e => .error e
  | none => call

theorem inject_eq_ok {α : Type} (failure : Option StoreError) (call : Except StoreError α) (a : α) :
    inject failure call = .ok a ↔ failure = none ∧ call = .ok a := by
  cases failure with
  | none => simp [inject]
  | some e => simp [inject]

theorem inject_eq_error {α : Type} (failure : Option StoreError) (call : Except StoreError α)
    (e : StoreError) :
    inject failure call = .error e ↔ failure = some e ∨ failure = none ∧ call = .error e := by
  cases failure with
  | none => simp [inject]
  | some e => simp [inject]

namespace ObjectStore

variable {κ α : Type} (s : ObjectStore κ α) (k : κ) (a : α)

def get : Except StoreError α :=
  match s k with
  | none => .error .notFound
  | some a => .ok a

theorem get_eq_ok : s.get k = .ok a ↔ s k = some a := by
  unfold get
  cases s k with
  | none => simp
  | some b => simp

theorem get_eq_error (e : StoreError) : s.get k = .error e ↔ s k = none ∧ e = .notFound := by
  unfold get
  cases s k with
  | none => simp [eq_comm]
  | some b => simp

variable [DecidableEq κ]

def put : ObjectStore κ α := Function.update s k (some a)

def erase : ObjectStore κ α := Function.update s k none

@[simp] theorem put_self : s.put k a k = some a := Function.update_self ..

theorem put_of_ne {j : κ} (h : j ≠ k) : s.put k a j = s j := Function.update_of_ne h ..

@[simp] theorem erase_self : s.erase k k = none := Function.update_self ..

theorem erase_of_ne {j : κ} (h : j ≠ k) : s.erase k j = s j := Function.update_of_ne h ..

theorem erase_put (h : s k = none) : (s.put k a).erase k = s := by
  funext j
  by_cases hj : j = k
  · subst hj
    rw [erase_self, h]
  · rw [erase_of_ne _ _ hj, put_of_ne _ _ _ hj]

theorem put_eq_self : s.put k a = s ↔ s k = some a := by
  constructor
  · intro h
    rw [← h, put_self]
  · intro h
    funext j
    by_cases hj : j = k
    · subst hj
      rw [put_self, h]
    · rw [put_of_ne _ _ _ hj]

theorem erase_eq_self : s.erase k = s ↔ s k = none := by
  constructor
  · intro h
    rw [← h, erase_self]
  · intro h
    funext j
    by_cases hj : j = k
    · subst hj
      rw [erase_self, h]
    · rw [erase_of_ne _ _ hj]

def create : Except StoreError (ObjectStore κ α) :=
  match s k with
  | none => .ok (s.put k a)
  | some _ => .error .alreadyExists

def update : Except StoreError (ObjectStore κ α) :=
  match s k with
  | none => .error .notFound
  | some _ => .ok (s.put k a)

def delete : Except StoreError (ObjectStore κ α) :=
  match s k with
  | none => .error .notFound
  | some _ => .ok (s.erase k)

variable (t : ObjectStore κ α)

theorem create_eq_ok : s.create k a = .ok t ↔ s k = none ∧ t = s.put k a := by
  unfold create
  cases s k with
  | none => simp [eq_comm]
  | some b => simp

theorem create_eq_error (e : StoreError) :
    s.create k a = .error e ↔ s k ≠ none ∧ e = .alreadyExists := by
  unfold create
  cases s k with
  | none => simp
  | some b => simp [eq_comm]

theorem update_eq_ok : s.update k a = .ok t ↔ s k ≠ none ∧ t = s.put k a := by
  unfold update
  cases s k with
  | none => simp
  | some b => simp [eq_comm]

theorem delete_eq_ok : s.delete k = .ok t ↔ s k ≠ none ∧ t = s.erase k := by
  unfold delete
  cases s k with
  | none => simp
  | some b => simp [eq_comm]

end ObjectStore

end OpenEverest.Framework
