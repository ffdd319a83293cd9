import Mathlib.Data.List.Basic

/-!
# Chains of checks

A check passes or fails with an error, and a chain stops at the first failure.
These lemmas take a chain apart into the checks that passed.
-/

namespace OpenEverest.Framework

variable {ε α β : Type}

theorem bind_eq_ok (x : Except ε α) (f : α → Except ε β) (b : β) :
    (x >>= f) = .ok b ↔ ∃ a, x = .ok a ∧ f a = .ok b := by
  cases x with
  | error e => simp [bind, Except.bind]
  | ok a => simp [bind, Except.bind]

theorem check_bind_eq_ok (x : Except ε Unit) (f : Unit → Except ε β) (b : β) :
    (x >>= f) = .ok b ↔ x = .ok () ∧ f () = .ok b := by
  rw [bind_eq_ok]
  exact ⟨fun ⟨_, hx, hf⟩ => ⟨hx, hf⟩, fun ⟨hx, hf⟩ => ⟨(), hx, hf⟩⟩

theorem map_eq_ok (x : Except ε α) (f : α → β) (b : β) :
    x.map f = .ok b ↔ ∃ a, x = .ok a ∧ b = f a := by
  cases x with
  | error e => simp [Except.map]
  | ok a => simp [Except.map, eq_comm]

theorem map_eq_error (x : Except ε α) (f : α → β) (e : ε) :
    x.map f = .error e ↔ x = .error e := by
  cases x with
  | error e => simp [Except.map]
  | ok a => simp [Except.map]

theorem exists_of_mapM_eq_ok {f : α → Except ε β} {as : List α} {bs : List β}
    (h : as.mapM f = .ok bs) : ∀ a ∈ as, ∃ b ∈ bs, f a = .ok b := by
  induction as generalizing bs with
  | nil => simp
  | cons a as ih =>
    rw [List.mapM_cons, bind_eq_ok] at h
    obtain ⟨b, hb, h⟩ := h
    obtain ⟨bs', hbs, h⟩ := (bind_eq_ok ..).mp h
    obtain rfl := Except.ok.inj h
    intro a' ha'
    rcases List.mem_cons.mp ha' with rfl | ha'
    · exact ⟨b, List.mem_cons_self .., hb⟩
    · obtain ⟨b', hb', hfa⟩ := ih hbs a' ha'
      exact ⟨b', List.mem_cons_of_mem b hb', hfa⟩

def checkAll (f : α → Except ε Unit) : List α → Except ε Unit
  | [] => .ok ()
  | a :: as => do
    f a
    checkAll f as

theorem checkAll_eq_ok (f : α → Except ε Unit) (as : List α) :
    checkAll f as = .ok () ↔ ∀ a ∈ as, f a = .ok () := by
  induction as with
  | nil => simp [checkAll]
  | cons a as ih => simp [checkAll, check_bind_eq_ok, ih]

/-- A check that is made only when it applies. -/
def checkWhen (c : Bool) (x : Except ε Unit) : Except ε Unit := if c then x else .ok ()

theorem checkWhen_eq_ok (c : Bool) (x : Except ε Unit) :
    checkWhen c x = .ok () ↔ (c = true → x = .ok ()) := by
  cases c <;> simp [checkWhen]

/-- Keep what meets the condition, and fail when it cannot be told of an element. -/
def filterOption (c : α → Option Bool) : List α → Option (List α)
  | [] => some []
  | a :: as => do
    let keep ← c a
    let rest ← filterOption c as
    some (if keep then a :: rest else rest)

theorem filterOption_eq_some (c : α → Option Bool) (as bs : List α) :
    filterOption c as = some bs ↔
      (∀ a ∈ as, (c a).isSome) ∧ bs = as.filter fun a => c a = some true := by
  induction as generalizing bs with
  | nil =>
    rw [filterOption, Option.some.injEq, List.filter_nil, @eq_comm _ bs]
    simp
  | cons a as ih =>
    cases ha : c a with
    | none => simp [filterOption, ha]
    | some keep =>
      rw [filterOption, ha, List.filter_cons, List.forall_mem_cons, ha]
      simp only [Option.bind_eq_bind, Option.bind_some, Option.bind_eq_some_iff, ih,
        Option.isSome_some, true_and, Option.some.injEq, decide_eq_true_eq]
      constructor
      · rintro ⟨rest, ⟨hsome, rfl⟩, rfl⟩
        exact ⟨hsome, rfl⟩
      · rintro ⟨hsome, rfl⟩
        exact ⟨_, ⟨hsome, rfl⟩, rfl⟩

theorem filter_eq_filter_iff (p q : α → Bool) (as : List α) :
    as.filter p = as.filter q ↔ ∀ a ∈ as, p a = q a := by
  constructor
  · intro h a ha
    have hmem : a ∈ as.filter p ↔ a ∈ as.filter q := by rw [h]
    simp only [List.mem_filter, ha, true_and] at hmem
    exact Bool.eq_iff_iff.mpr hmem
  · exact List.filter_congr

end OpenEverest.Framework
