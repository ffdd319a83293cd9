import OpenEverest.Framework.Versioned
import Mathlib.Order.Basic
import Mathlib.Algebra.Order.Group.Int

/-!
# A rely–guarantee rule for clients of one object

Every client keeps to a guarantee `G` on the writes it gets applied, and may in
return rely on `G` for the writes of all others. What a client knows between two
of its actions is an assertion that no such write and no passing of time breaks.
-/

namespace OpenEverest.Framework

variable {ι Obj ρ ρ' : Type*}

abbrev Assertion (Obj : Type*) := Versioned Obj → Int → Prop

structure Stable (G : Int → Obj → Obj → Prop) (K : Assertion Obj) : Prop where
  tick : ∀ o c c', c ≤ c' → K o c → K o c'
  write : ∀ o c v, K o c → G c o.value v → K ⟨o.resourceVersion + 1, v⟩ c

/-- From `K` the client makes only writes that `G` allows and ends with `Q`. -/
inductive Follows (G : Int → Obj → Obj → Prop) (Q : ρ → Assertion Obj) :
    Assertion Obj → Client Obj ρ → Prop where
  | done {K : Assertion Obj} {r : ρ} (h : ∀ o c, K o c → Q r o c) : Follows G Q K (.done r)
  | get {K : Assertion Obj} {k : Option (Versioned Obj) → Client Obj ρ}
      (hnone : Follows G Q K (k none))
      (hsome : ∀ copy, Follows G Q (fun o c => K o c ∧ o.Snapshot copy) (k (some copy))) :
      Follows G Q K (.get k)
  | now {K : Assertion Obj} {k : Int → Client Obj ρ}
      (h : ∀ t, Follows G Q (fun o c => K o c ∧ t ≤ c) (k t)) : Follows G Q K (.now k)
  | update {K K' : Assertion Obj} {rv : Nat} {v : Obj} {k : Bool → Client Obj ρ}
      (hst : Stable G K')
      (hw : ∀ o c, K o c → o.resourceVersion = rv → G c o.value v ∧ K' ⟨rv + 1, v⟩ c)
      (hfalse : Follows G Q K (k false)) (htrue : Follows G Q K' (k true)) :
      Follows G Q K (.update rv v k)

namespace Stable

variable {G : Int → Obj → Obj → Prop}

theorem true : Stable G (fun _ _ => True) := ⟨by intros; trivial, by intros; trivial⟩

theorem and {K L : Assertion Obj} (hK : Stable G K) (hL : Stable G L) :
    Stable G (fun o c => K o c ∧ L o c) := by
  refine ⟨?_, ?_⟩
  · intro o c c' hc h
    exact ⟨hK.tick o c c' hc h.1, hL.tick o c c' hc h.2⟩
  · intro o c v h hG
    exact ⟨hK.write o c v h.1 hG, hL.write o c v h.2 hG⟩

theorem snapshot (copy : Versioned Obj) : Stable G (fun o _ => o.Snapshot copy) :=
  ⟨fun _ _ _ _ h => h, fun _ _ v h _ => h.write v⟩

theorem clock (t : Int) : Stable G (fun (_ : Versioned Obj) c => t ≤ c) :=
  ⟨fun _ _ _ hc h => h.trans hc, fun _ _ _ h _ => h⟩

end Stable

namespace Follows

variable {G : Int → Obj → Obj → Prop} {Q : ρ → Assertion Obj} {Q' : ρ' → Assertion Obj}

theorem imp {K K' : Assertion Obj} {p : Client Obj ρ} (h : Follows G Q K' p)
    (hK : ∀ o c, K o c → K' o c) : Follows G Q K p := by
  induction h generalizing K with
  | done h => exact .done fun o c hk => h o c (hK o c hk)
  | get _ _ ihn ihs =>
    exact .get (ihn hK) fun copy => ihs copy fun o c hk => ⟨hK o c hk.1, hk.2⟩
  | now _ ih => exact .now fun t => ih t fun o c hk => ⟨hK o c hk.1, hk.2⟩
  | update hst hw _ ht ihf _ =>
    exact .update hst (fun o c hk => hw o c (hK o c hk)) (ihf hK) ht

theorem bind {K : Assertion Obj} {p : Client Obj ρ} {f : ρ → Client Obj ρ'}
    (hp : Follows G Q K p) (hf : ∀ r, Follows G Q' (Q r) (f r)) :
    Follows G Q' K (p.bind f) := by
  induction hp with
  | @done K r h => exact (hf r).imp h
  | get _ _ ihn ihs => exact .get ihn ihs
  | now _ ih => exact .now ih
  | update hst hw _ _ ihf iht => exact .update hst hw ihf iht

theorem retry {ε α : Type*} {Q : Except ε α → Assertion Obj} {p : Client Obj (Except ε α)}
    (h : Follows G Q (fun _ _ => True) p) (n : Nat) :
    Follows G Q (fun _ _ => True) (Client.retry n p) := by
  induction n with
  | zero => exact h
  | succ n ih =>
    refine h.bind fun r => ?_
    cases r with
    | ok a => exact .done fun _ _ hk => hk
    | error e => exact ih.imp fun _ _ _ => trivial

end Follows

/-- Every client is somewhere in a program it follows, at an assertion that holds now. -/
def Sound (G : Int → Obj → Obj → Prop) (Q : ι → ρ → Assertion Obj) (s : System ι Obj ρ) : Prop :=
  ∀ i, ∃ K, Stable G K ∧ K s.store s.clock ∧ Follows G (Q i) K (s.client i)

theorem Sound.follows_at {G : Int → Obj → Obj → Prop} {Q : ι → ρ → Assertion Obj} {s : System ι Obj ρ}
    (h : Sound G Q s) {i : ι} {p : Client Obj ρ} (hi : s.client i = p) :
    ∃ K, Stable G K ∧ K s.store s.clock ∧ Follows G (Q i) K p := by
  subst hi
  exact h i

section Soundness

variable [DecidableEq ι] {G : Int → Obj → Obj → Prop} {Q : ι → ρ → Assertion Obj}

private theorem sound_goto {s : System ι Obj ρ} (h : Sound G Q s) (i : ι) (p : Client Obj ρ)
    (hp : ∃ K, Stable G K ∧ K s.store s.clock ∧ Follows G (Q i) K p) :
    Sound G Q (s.goto i p) := by
  intro j
  by_cases hj : j = i
  · subst hj
    simpa [System.goto] using hp
  · simpa [System.goto, hj] using h j

private theorem sound_commit {s : System ι Obj ρ} (h : Sound G Q s) (i : ι) (v : Obj)
    (p : Client Obj ρ) (hG : G s.clock s.store.value v)
    (hp : ∃ K, Stable G K ∧ K ⟨s.store.resourceVersion + 1, v⟩ s.clock ∧ Follows G (Q i) K p) :
    Sound G Q (s.commit i ⟨s.store.resourceVersion + 1, v⟩ p) := by
  intro j
  by_cases hj : j = i
  · subst hj
    simpa [System.commit] using hp
  · obtain ⟨K, hst, hK, hf⟩ := h j
    exact ⟨K, hst, hst.write _ _ v hK hG, by simpa [System.commit, hj] using hf⟩

theorem Sound.step {s s' : System ι Obj ρ} {m : Move ι Obj} (h : Sound G Q s)
    (hm : s.step m = some s') : Sound G Q s' := by
  cases System.step_effect hm with
  | tick d =>
    intro j
    obtain ⟨K, hst, hK, hf⟩ := h j
    exact ⟨K, hst, hst.tick _ _ _ (Int.le_add_of_nonneg_right (Int.natCast_nonneg d)) hK, hf⟩
  | read i k hi =>
    obtain ⟨K, hst, hK, hf⟩ := h.follows_at hi
    cases hf with
    | get _ hs =>
      exact sound_goto h i _ ⟨_, hst.and (.snapshot s.store), ⟨hK, .refl _⟩, hs s.store⟩
  | readStale i k copy hi hc =>
    obtain ⟨K, hst, hK, hf⟩ := h.follows_at hi
    cases hf with
    | get _ hs =>
      exact sound_goto h i _ ⟨_, hst.and (.snapshot copy), ⟨hK, .of_lt hc⟩, hs copy⟩
  | readFail i k hi =>
    obtain ⟨K, hst, hK, hf⟩ := h.follows_at hi
    cases hf with
    | get hn _ => exact sound_goto h i _ ⟨K, hst, hK, hn⟩
  | clock i k hi =>
    obtain ⟨K, hst, hK, hf⟩ := h.follows_at hi
    cases hf with
    | now hn =>
      exact sound_goto h i _ ⟨_, hst.and (.clock s.clock), ⟨hK, le_refl _⟩, hn s.clock⟩
  | write i v k hi =>
    obtain ⟨K, _, hK, hf⟩ := h.follows_at hi
    cases hf with
    | update hst' hw _ ht =>
      obtain ⟨hG, hK'⟩ := hw _ _ hK rfl
      exact sound_commit h i v _ hG ⟨_, hst', hK', ht⟩
  | writeLost i v k hi =>
    obtain ⟨K, hst, hK, hf⟩ := h.follows_at hi
    cases hf with
    | update _ hw hfalse _ =>
      have hG := (hw _ _ hK rfl).1
      exact sound_commit h i v _ hG ⟨K, hst, hst.write _ _ v hK hG, hfalse⟩
  | refuse i rv v k hi _ =>
    obtain ⟨K, hst, hK, hf⟩ := h.follows_at hi
    cases hf with
    | update _ _ hfalse _ => exact sound_goto h i _ ⟨K, hst, hK, hfalse⟩
  | writeFail i rv v k hi =>
    obtain ⟨K, hst, hK, hf⟩ := h.follows_at hi
    cases hf with
    | update _ _ hfalse _ => exact sound_goto h i _ ⟨K, hst, hK, hfalse⟩

omit [DecidableEq ι] in
theorem Sound.result {s : System ι Obj ρ} (h : Sound G Q s) {i : ι} {r : ρ}
    (hi : s.client i = .done r) : Q i r s.store s.clock := by
  obtain ⟨K, _, hK, hf⟩ := h.follows_at hi
  cases hf with
  | done hd => exact hd _ _ hK

/-- In every interleaving of clients that follow `G`, the answer of a client that
has returned is true of the object now. -/
theorem run_follows (Q : ι → ρ → Assertion Obj) {o : Obj} {c : Int} {client : ι → Client Obj ρ}
    (hclient : ∀ i, Follows G (Q i) (fun _ _ => True) (client i)) {ms : List (Move ι Obj)}
    {s : System ι Obj ρ} (hr : run System.step (System.start o c client) ms = some s)
    {i : ι} {r : ρ} (hi : s.client i = .done r) : Q i r s.store s.clock := by
  have h0 : Sound G Q (System.start o c client) :=
    fun j => ⟨_, .true, trivial, hclient j⟩
  exact (run_invariant (Sound G Q) (fun _ _ _ => Sound.step) h0 hr).result hi

end Soundness

end OpenEverest.Framework
