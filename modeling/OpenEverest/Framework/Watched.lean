import Mathlib.Data.List.Basic
import Mathlib.Data.List.Forall2
import Mathlib.Logic.Function.Basic

/-!
# A value and its copies

Replicas read a value from copies of their own. A copy is brought up to date by the writes to
the value, in their order and at any time after.
-/

namespace OpenEverest.Framework

variable {ι α β : Type*}

structure Watched (ι α : Type*) where
  current : α
  seen : ι → α
  pending : ι → List α

namespace Watched

def start (a : α) : Watched ι α := ⟨a, fun _ => a, fun _ => []⟩

def write (w : Watched ι α) (a : α) : Watched ι α := ⟨a, w.seen, fun i => w.pending i ++ [a]⟩

def notice [DecidableEq ι] (w : Watched ι α) (i : ι) : Watched ι α :=
  match w.pending i with
  | [] => w
  | a :: as =>
    { w with seen := Function.update w.seen i a, pending := Function.update w.pending i as }

/-- Two values are written and seen in step, and what is written is related. -/
structure Rel (R : α → β → Prop) (w : Watched ι α) (v : Watched ι β) : Prop where
  current : R w.current v.current
  seen : ∀ i, R (w.seen i) (v.seen i)
  pending : ∀ i, List.Forall₂ R (w.pending i) (v.pending i)

namespace Rel

variable {R S : α → β → Prop} {w : Watched ι α} {v : Watched ι β} {a : α} {b : β}

theorem start (h : R a b) : Rel R (start a : Watched ι α) (start b) :=
  ⟨h, fun _ => h, fun _ => .nil⟩

theorem write (hw : Rel R w v) (h : R a b) : Rel R (w.write a) (v.write b) where
  current := h
  seen := hw.seen
  pending i := List.rel_append (hw.pending i) (.cons h .nil)

theorem imp (hRS : ∀ a b, R a b → S a b) (hw : Rel R w v) : Rel S w v :=
  ⟨hRS _ _ hw.current, fun i => hRS _ _ (hw.seen i), fun i => (hw.pending i).imp hRS⟩

theorem notice [DecidableEq ι] (hw : Rel R w v) (i : ι) : Rel R (w.notice i) (v.notice i) := by
  have hpending := hw.pending i
  cases hwi : w.pending i with
  | nil =>
    have hvi : v.pending i = [] := by simpa [hwi] using hpending
    simpa only [Watched.notice, hwi, hvi] using hw
  | cons a as =>
    obtain ⟨b, bs, hab, habs, hvi⟩ : ∃ b bs, R a b ∧ List.Forall₂ R as bs ∧
        v.pending i = b :: bs := by
      rw [hwi] at hpending
      simpa [List.forall₂_cons_left_iff] using hpending
    simp only [Watched.notice, hwi, hvi]
    refine ⟨hw.current, fun j => ?_, fun j => ?_⟩
    · by_cases hj : j = i
      · subst hj
        simpa using hab
      · simpa [hj] using hw.seen j
    · by_cases hj : j = i
      · subst hj
        simpa using habs
      · simpa [hj] using hw.pending j

theorem pending_eq_nil_iff (hw : Rel R w v) (i : ι) : w.pending i = [] ↔ v.pending i = [] := by
  have hpending := hw.pending i
  constructor
  · intro hnil
    simpa [hnil] using hpending
  · intro hnil
    simpa [hnil] using hpending

end Rel

/-- Every copy is behind the value by the writes that are pending, in the order of versions. -/
structure Ordered (version : α → Nat) (w : Watched ι α) : Prop where
  sorted : ∀ i, (w.seen i :: w.pending i).Pairwise fun a b => version a < version b
  last : ∀ i, (w.seen i :: w.pending i).getLast? = some w.current

namespace Ordered

variable {version : α → Nat} {w : Watched ι α} {a : α}

theorem start (a : α) : Ordered version (start a : Watched ι α) :=
  ⟨fun _ => by simp [Watched.start], fun _ => rfl⟩

theorem version_le (hw : Ordered version w) (i : ι) :
    ∀ b ∈ w.seen i :: w.pending i, version b ≤ version w.current := by
  intro b hb
  obtain ⟨before, hsplit⟩ := List.getLast?_eq_some_iff.mp (hw.last i)
  have hsorted := hw.sorted i
  rw [hsplit] at hb hsorted
  rcases List.mem_append.mp hb with hbefore | hlast
  · exact Nat.le_of_lt ((List.pairwise_append.mp hsorted).2.2 b hbefore w.current (by simp))
  · obtain rfl := List.mem_singleton.mp hlast
    exact Nat.le_refl _

theorem write (hw : Ordered version w) (h : version w.current < version a) :
    Ordered version (w.write a) := by
  refine ⟨fun i => ?_, fun i => ?_⟩
  · rw [Watched.write, ← List.cons_append, List.pairwise_append]
    refine ⟨hw.sorted i, by simp, fun b hb c hc => ?_⟩
    obtain rfl := List.mem_singleton.mp hc
    exact Nat.lt_of_le_of_lt (hw.version_le i b hb) h
  · rw [Watched.write, ← List.cons_append, List.getLast?_append_cons]
    rfl

theorem notice [DecidableEq ι] (hw : Ordered version w) (i : ι) : Ordered version (w.notice i) := by
  cases hwi : w.pending i with
  | nil => simpa only [Watched.notice, hwi] using hw
  | cons a as =>
    simp only [Watched.notice, hwi]
    refine ⟨fun j => ?_, fun j => ?_⟩
    · by_cases hj : j = i
      · subst hj
        have hsorted := hw.sorted j
        rw [hwi] at hsorted
        simpa using (List.pairwise_cons.mp hsorted).2
      · simpa [hj] using hw.sorted j
    · by_cases hj : j = i
      · subst hj
        have hlast := hw.last j
        rw [hwi] at hlast
        simpa using hlast
      · simpa [hj] using hw.last j

theorem seen_eq (hw : Ordered version w) {i : ι} (h : w.pending i = []) :
    w.seen i = w.current := by
  have hlast := hw.last i
  rw [h] at hlast
  simpa using hlast

theorem version_eq_iff (hw : Ordered version w) (i : ι) :
    version (w.seen i) = version w.current ↔ w.pending i = [] := by
  constructor
  · intro heq
    cases hwi : w.pending i with
    | nil => rfl
    | cons a as =>
      have hlast := hw.last i
      rw [hwi, List.getLast?_cons_cons] at hlast
      have hmem : w.current ∈ a :: as := List.mem_of_getLast? hlast
      have hlt := (List.pairwise_cons.mp (hwi ▸ hw.sorted i)).1 _ hmem
      omega
  · intro hnil
    rw [hw.seen_eq hnil]

end Ordered

end Watched

end OpenEverest.Framework
