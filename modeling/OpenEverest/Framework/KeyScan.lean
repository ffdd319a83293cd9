import OpenEverest.Framework.Checks
import Mathlib.Data.Finset.Card
import Mathlib.Data.Finset.Dedup

/-!
# Scans that remember keys

A loop over a list with the set of the keys it has seen. One form fails at the first key
that comes again; the other only collects, and its set is then counted.
-/

namespace OpenEverest.Framework

variable {ε α κ : Type} [DecidableEq κ]

/-- Fail at the first element whose key is in the set, which grows by each key passed. -/
def failOnRepeat (key : α → κ) (e : ε) (seen : Finset κ) : List α → Except ε Unit
  | [] => .ok ()
  | a :: as => if key a ∈ seen then .error e else failOnRepeat key e (insert (key a) seen) as

def collectKeys (key : α → κ) (seen : Finset κ) : List α → Finset κ
  | [] => seen
  | a :: as => collectKeys key (insert (key a) seen) as

variable (key : α → κ) (e : ε)

theorem failOnRepeat_eq_ok (seen : Finset κ) (as : List α) :
    failOnRepeat key e seen as = .ok () ↔
      (as.map key).Nodup ∧ ∀ k ∈ as.map key, k ∉ seen := by
  induction as generalizing seen with
  | nil => simp [failOnRepeat]
  | cons a as ih =>
    rw [failOnRepeat, List.map_cons, List.nodup_cons, List.forall_mem_cons]
    by_cases ha : key a ∈ seen
    · simp [ha]
    · rw [if_neg ha, ih]
      simp only [Finset.mem_insert, not_or, ha, not_false_eq_true, true_and]
      constructor
      · intro h
        have hnew : key a ∉ as.map key := fun hmem => (h.2 _ hmem).1 rfl
        exact ⟨⟨hnew, h.1⟩, fun k hk => (h.2 k hk).2⟩
      · intro h
        refine ⟨h.1.2, fun k hk => ⟨?_, h.2 k hk⟩⟩
        intro heq
        exact h.1.1 (heq ▸ hk)

theorem failOnRepeat_ok_or_error (seen : Finset κ) (as : List α) :
    failOnRepeat key e seen as = .ok () ∨ failOnRepeat key e seen as = .error e := by
  induction as generalizing seen with
  | nil => exact .inl rfl
  | cons a as ih =>
    rw [failOnRepeat]
    split
    · exact .inr rfl
    · exact ih _

theorem mem_collectKeys (seen : Finset κ) (as : List α) (k : κ) :
    k ∈ collectKeys key seen as ↔ k ∈ seen ∨ k ∈ as.map key := by
  induction as generalizing seen with
  | nil => simp [collectKeys]
  | cons a as ih =>
    rw [collectKeys, ih, Finset.mem_insert, List.map_cons, List.mem_cons]
    tauto

theorem collectKeys_eq (seen : Finset κ) (as : List α) :
    collectKeys key seen as = seen ∪ (as.map key).toFinset := by
  ext k
  rw [mem_collectKeys, Finset.mem_union, List.mem_toFinset]

end OpenEverest.Framework
