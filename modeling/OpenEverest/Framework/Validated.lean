import OpenEverest.Framework.Linearization
import Mathlib.Logic.Relation

/-!
# Updates validated against a copy

A client may send a version number of its own, learnt before it began, with an
update it has checked against a copy it read. When every copy is at least as
new as that number, an update that is applied was checked against the very
object it replaces, so the stored objects form a chain of checked steps.
-/

namespace OpenEverest.Framework

variable {ι Obj ρ : Type*}

/-- The update was checked against a copy no older than the version sent, or than
the version the client learnt, which is then the one it sends. -/
def CheckedBy (R : Obj → Obj → Prop) (learnt : Nat) (reads : List (Versioned Obj)) (rv : Nat)
    (v : Obj) : Prop :=
  ∃ copy ∈ reads, (rv ≤ learnt ∨ rv ≤ copy.resourceVersion) ∧ R copy.value v

/-- The client reads nothing older than the version it learnt. -/
def ReadsSince (learnt : ι → Nat) (s : System ι Obj ρ) : Move ι Obj → Prop
  | .call i => (∃ k, s.client i = .get k) → learnt i ≤ s.store.resourceVersion
  | .stale i copy => learnt i ≤ copy.resourceVersion
  | _ => True

variable [DecidableEq ι]

structure CheckedClients (R : ι → Obj → Obj → Prop) (learnt : ι → Nat) (s : System ι Obj ρ) :
    Prop where
  tracked : Tracked (fun i => CheckedBy (R i) (learnt i)) s
  since : ∀ i, ∀ copy ∈ s.reads i, learnt i ≤ copy.resourceVersion

namespace CheckedClients

variable {R : ι → Obj → Obj → Prop} {learnt : ι → Nat} {s s' : System ι Obj ρ} {m : Move ι Obj}

omit [DecidableEq ι] in
theorem start {o : Obj} {clock : Int} {program : ι → Client Obj ρ}
    (h : ∀ i, Sends (CheckedBy (R i) (learnt i)) [] (program i)) :
    CheckedClients R learnt (.start o clock program) :=
  ⟨Tracked.start h, fun _ _ hc => nomatch hc⟩

private theorem give_since (h : CheckedClients R learnt s) (i : ι) (copy : Versioned Obj)
    (p : Client Obj ρ) (hcopy : learnt i ≤ copy.resourceVersion) :
    ∀ j, ∀ c ∈ (s.give i copy p).reads j, learnt j ≤ c.resourceVersion := by
  intro j c hc
  by_cases hj : j = i
  · subst hj
    have hc' : c = copy ∨ c ∈ s.reads j := by simpa [System.give] using hc
    rcases hc' with rfl | hc'
    · exact hcopy
    · exact h.since j c hc'
  · exact h.since j c (by simpa [System.give, hj] using hc)

theorem step (h : CheckedClients R learnt s) (hreads : ReadsSince learnt s m)
    (hm : s.step m = some s') : CheckedClients R learnt s' := by
  refine ⟨h.tracked.step hm, ?_⟩
  cases System.step_effect hm with
  | read i k hi => exact h.give_since i s.store _ (hreads ⟨k, hi⟩)
  | readStale i k copy hi hc => exact h.give_since i copy _ hreads
  | tick d => exact h.since
  | readFail i k hi => exact h.since
  | clock i k hi => exact h.since
  | write i v k hi => exact h.since
  | writeLost i v k hi => exact h.since
  | refuse i rv v k hi hrv => exact h.since
  | writeFail i rv v k hi => exact h.since

omit [DecidableEq ι] in
theorem checked (h : CheckedClients R learnt s) {i : ι} {v : Obj} {k : Bool → Client Obj ρ}
    (hi : s.client i = .update s.store.resourceVersion v k) : R i s.store.value v := by
  cases h.tracked.sends_at hi with
  | update hsent _ =>
    obtain ⟨copy, hcopy, hversion, hR⟩ := hsent
    have hsnap := h.tracked.snapshot i copy hcopy
    have hsince := h.since i copy hcopy
    have hle := hsnap.version_le
    have hsame : copy.resourceVersion = s.store.resourceVersion := by omega
    rwa [hsnap.value_eq hsame] at hR

end CheckedClients

/-- The stored object changes by steps of `S`, when every update that is checked
and allowed along the run is one. -/
theorem run_chain {R : ι → Obj → Obj → Prop} {learnt : ι → Nat} {S : Obj → Obj → Prop}
    {P : System ι Obj ρ → Move ι Obj → Prop}
    (hS : ∀ s m i v k, P s m → (m = .call i ∨ m = .lost i) →
      s.client i = .update s.store.resourceVersion v k → R i s.store.value v → S s.store.value v)
    {s s' : System ι Obj ρ} {ms : List (Move ι Obj)} (hs : CheckedClients R learnt s)
    (hreads : AlongRun System.step (ReadsSince learnt) s ms) (hP : AlongRun System.step P s ms)
    (h : run System.step s ms = some s') :
    CheckedClients R learnt s' ∧ Relation.ReflTransGen S s.store.value s'.store.value := by
  refine run_invariant_along
    (fun t => CheckedClients R learnt t ∧ Relation.ReflTransGen S s.store.value t.store.value)
    ?_ ⟨hs, .refl⟩ (hreads.and hP) h
  rintro t m t' ⟨hchecked, hchain⟩ ⟨ht, hPt⟩ hstep
  refine ⟨hchecked.step ht hstep, ?_⟩
  rcases System.step_store hstep with ⟨hstore, -⟩ | ⟨i, v, k, hi, hmove, hstore, -⟩
  · rw [hstore]
    exact hchain
  · rw [hstore]
    have hR := hchecked.checked hi
    exact hchain.tail (hS t m i v k hPt hmove hi hR)

end OpenEverest.Framework
