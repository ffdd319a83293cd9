import Mathlib.Data.List.InsertIdx

/-!
# Arrays of the browser

Searching an array for an index, with a predicate that may throw, and writing at the index that is
found. The index -1 is written to like any other property: the elements do not change.
-/

namespace OpenEverest.Framework

/-- A property of `undefined` or of `null` is read. -/
inductive TypeError where
  | reading (property : List UInt16)
  deriving DecidableEq

theorem Except.map_eq_ok {α β : Type} {x : Except TypeError α} {f : α → β} {b : β}
    (h : x.map f = .ok b) : ∃ a, x = .ok a ∧ f a = b := by
  cases x with
  | error e => cases h
  | ok a => exact ⟨a, rfl, Except.ok.inj h⟩

section FindIndex

variable {α β : Type} {p : α → Except TypeError Bool}

/-- `findIndex`; `none` is the index -1. -/
def findIndex (p : α → Except TypeError Bool) : List α → Except TypeError (Option Nat)
  | [] => .ok none
  | a :: as =>
    match p a with
    | .error e => .error e
    | .ok true => .ok (some 0)
    | .ok false => (findIndex p as).map (Option.map (· + 1))

theorem findIndex_map (f : β → α) (bs : List β) :
    findIndex p (bs.map f) = findIndex (fun b => p (f b)) bs := by
  induction bs with
  | nil => rfl
  | cons b bs ih => rw [List.map_cons, findIndex, findIndex, ih]

theorem findIndex_found {before after : List α} {a : α} (hbefore : ∀ b ∈ before, p b = .ok false)
    (ha : p a = .ok true) : findIndex p (before ++ a :: after) = .ok (some before.length) := by
  induction before with
  | nil => rw [List.nil_append, findIndex, ha]; rfl
  | cons b before ih =>
    obtain ⟨hb, hbefore⟩ := List.forall_mem_cons.mp hbefore
    rw [List.cons_append, findIndex, hb]
    simp [ih hbefore, Except.map]

theorem findIndex_eq_some {as : List α} {i : Nat} (h : findIndex p as = .ok (some i)) :
    ∃ before a after, as = before ++ a :: after ∧ before.length = i ∧
      (∀ b ∈ before, p b = .ok false) ∧ p a = .ok true := by
  induction as generalizing i with
  | nil => cases h
  | cons a as ih =>
    rw [findIndex] at h
    split at h
    · cases h
    · rename_i ha
      cases h
      exact ⟨[], a, as, rfl, rfl, by simp, ha⟩
    · rename_i ha
      obtain ⟨found, hfound, hi⟩ := Except.map_eq_ok h
      obtain ⟨j, rfl, rfl⟩ := Option.map_eq_some_iff.mp hi
      obtain ⟨before, b, after, rfl, rfl, hbefore, hb⟩ := ih hfound
      exact ⟨a :: before, b, after, rfl, rfl, List.forall_mem_cons.mpr ⟨ha, hbefore⟩, hb⟩

theorem findIndex_eq_none {as : List α} (h : ∀ a ∈ as, p a = .ok false) :
    findIndex p as = .ok none := by
  induction as with
  | nil => rfl
  | cons a as ih =>
    obtain ⟨ha, has⟩ := List.forall_mem_cons.mp h
    rw [findIndex, ha]
    simp [ih has, Except.map]

/-- A predicate that does not throw finds its first element, or there is none. -/
theorem findIndex_cases (q : α → Bool) (as : List α) :
    (∀ a ∈ as, q a = false) ∨
      ∃ before a after, as = before ++ a :: after ∧ (∀ b ∈ before, q b = false) ∧ q a = true := by
  induction as with
  | nil => exact .inl nofun
  | cons a as ih =>
    cases ha : q a with
    | true => exact .inr ⟨[], a, as, rfl, nofun, ha⟩
    | false =>
      rcases ih with hnone | ⟨before, b, after, rfl, hbefore, hb⟩
      · exact .inl (List.forall_mem_cons.mpr ⟨ha, hnone⟩)
      · exact .inr ⟨a :: before, b, after, rfl, List.forall_mem_cons.mpr ⟨ha, hbefore⟩, hb⟩

/-- The first element with a property is determined, with what is before and after it. -/
theorem first_unique {q : α → Bool} {before before' after after' : List α} {a a' : α}
    (h : before ++ a :: after = before' ++ a' :: after') (hbefore : ∀ b ∈ before, q b = false)
    (ha : q a = true) (hbefore' : ∀ b ∈ before', q b = false) (ha' : q a' = true) :
    before = before' ∧ a = a' ∧ after = after' := by
  induction before generalizing before' with
  | nil =>
    cases before' with
    | nil => exact ⟨rfl, List.cons.inj h⟩
    | cons b before' =>
      obtain ⟨rfl, -⟩ := List.cons.inj h
      exact absurd ha (by simp [(List.forall_mem_cons.mp hbefore').1])
  | cons b before ih =>
    cases before' with
    | nil =>
      obtain ⟨rfl, -⟩ := List.cons.inj h
      exact absurd ha' (by simp [(List.forall_mem_cons.mp hbefore).1])
    | cons b' before' =>
      obtain ⟨rfl, htail⟩ := List.cons.inj h
      obtain ⟨rfl, heq, hafter⟩ := ih htail (List.forall_mem_cons.mp hbefore).2
        (List.forall_mem_cons.mp hbefore').2
      exact ⟨rfl, heq, hafter⟩

end FindIndex

theorem eraseIdx_before {α : Type} (before after : List α) (a : α) :
    (before ++ a :: after).eraseIdx before.length = before ++ after := by
  rw [List.eraseIdx_append_of_length_le (Nat.le_refl _), Nat.sub_self, List.eraseIdx_cons_zero]

/-- The elements of an array, and its property -1. -/
@[ext] structure JsArray (α : Type) where
  elements : List α
  minusOne : Option α := none
  deriving DecidableEq

namespace JsArray

variable {α : Type} (array : JsArray α)

/-- `array[index] = a` for an index that `findIndex` gives. -/
def write (index : Option Nat) (a : α) : JsArray α :=
  match index with
  | none => { array with minusOne := some a }
  | some i => { array with elements := array.elements.set i a }

theorem write_elements {before after : List α} {b : α}
    (h : array.elements = before ++ b :: after) (a : α) :
    (array.write (some before.length) a).elements = before ++ a :: after := by
  rw [write, h]
  simp

/-- Writing changes nothing if and only if the element is there already. -/
theorem write_eq_self_iff {before after : List α} {b : α}
    (h : array.elements = before ++ b :: after) (a : α) :
    array.write (some before.length) a = array ↔ b = a := by
  rw [JsArray.ext_iff, array.write_elements h, h]
  simp [write, eq_comm]

theorem write_minusOne_eq_self_iff (a : α) :
    array.write none a = array ↔ array.minusOne = some a := by
  rw [JsArray.ext_iff]
  simp [write, eq_comm]

end JsArray

end OpenEverest.Framework
