import OpenEverest.Framework.Versioned
import Mathlib.Data.List.Nodup

/-!
# Linearizability of clients that write last

A client that succeeds exactly when a write of it is applied, and then makes no
other, takes effect at that write; refused writes it may try again. When every write applied is the one the client would have
made there alone, the run is that of the successful clients in commit order.
-/

namespace OpenEverest.Framework

variable {ι Obj ε α : Type*}

/-- The client succeeds alone, at some time, and turns `v` into `v'`. -/
def Applies (p : Client Obj (Except ε α)) (v v' : Obj) : Prop :=
  ∃ t rv a, p.exec t ⟨rv, v⟩ = (⟨rv + 1, v'⟩, .ok a)

/-- The clients of the list, run one after the other, all succeed. -/
inductive Sequential (program : ι → Client Obj (Except ε α)) (v : Obj) : List ι → Obj → Prop where
  | nil : Sequential program v [] v
  | snoc {order : List ι} {v' v'' : Obj} {i : ι} (h : Sequential program v order v')
      (hi : Applies (program i) v' v'') : Sequential program v (order ++ [i]) v''

/-- Success is returned at once, and only, when an update was applied. -/
inductive WritesLast : Client Obj (Except ε α) → Prop where
  | error (e : ε) : WritesLast (.done (.error e))
  | get {k : Option (Versioned Obj) → Client Obj (Except ε α)} (h : ∀ copy, WritesLast (k copy)) :
      WritesLast (.get k)
  | now {k : Int → Client Obj (Except ε α)} (h : ∀ t, WritesLast (k t)) : WritesLast (.now k)
  | update {rv : Nat} {v : Obj} {k : Bool → Client Obj (Except ε α)} {a : α}
      (htrue : k true = .done (.ok a)) (hfalse : WritesLast (k false)) :
      WritesLast (.update rv v k)

/-- The answer of an applied update is not lost. -/
def Move.Answered : Move ι Obj → Prop
  | .lost _ => False
  | _ => True

variable [DecidableEq ι]

/-- `order` is a sequential order of the successful clients that explains the
object and puts a client that had returned before every one begun later. -/
structure Linearizes (program : ι → Client Obj (Except ε α)) (o : Obj) (clock : Int)
    (ms : List (Move ι Obj)) (s : System ι Obj (Except ε α)) (order : List ι) : Prop where
  nodup : order.Nodup
  mem_iff : ∀ i, i ∈ order ↔ ∃ a, s.client i = .done (.ok a)
  sequential : Sequential program o order s.store.value
  realTime : ∀ before after s₁ i j, ms = before ++ after →
    run System.step (.start o clock program) before = some s₁ →
    (∃ a, s₁.client i = .done (.ok a)) → (∀ m ∈ before, m.client ≠ some j) → j ∈ order →
    [i, j].Sublist order

/-- An update about to be applied is the one its client would make alone. -/
def CommitsAlone (program : ι → Client Obj (Except ε α)) (s : System ι Obj (Except ε α))
    (m : Move ι Obj) : Prop :=
  ∀ i v k, m = .call i → s.client i = .update s.store.resourceVersion v k →
    Applies (program i) s.store.value v

/-- A client is in `commits` and has returned success, or is still to do both. -/
structure Committed (s : System ι Obj (Except ε α)) : Prop where
  nodup : s.commits.Nodup
  client : ∀ i, i ∈ s.commits ∧ (∃ a, s.client i = .done (.ok a)) ∨
    i ∉ s.commits ∧ WritesLast (s.client i)

namespace Committed

variable {s s' : System ι Obj (Except ε α)} {m : Move ι Obj}

omit [DecidableEq ι] in
theorem mem_iff (h : Committed s) (i : ι) : i ∈ s.commits ↔ ∃ a, s.client i = .done (.ok a) := by
  rcases h.client i with ⟨hi, ha⟩ | ⟨hi, hw⟩
  · exact ⟨fun _ => ha, fun _ => hi⟩
  · refine ⟨fun h => absurd h hi, ?_⟩
    rintro ⟨a, ha⟩
    rw [ha] at hw
    cases hw

omit [DecidableEq ι] in
theorem writesLast (h : Committed s) {i : ι} (hi : ∀ a, s.client i ≠ .done (.ok a)) :
    i ∉ s.commits ∧ WritesLast (s.client i) := by
  rcases h.client i with ⟨-, a, ha⟩ | hw
  · exact absurd ha (hi a)
  · exact hw

omit [DecidableEq ι] in
theorem writesLast_at (h : Committed s) {i : ι} {p : Client Obj (Except ε α)}
    (hi : s.client i = p) (hp : ∀ a, p ≠ .done (.ok a)) : i ∉ s.commits ∧ WritesLast p := by
  subst hi
  exact h.writesLast hp

private theorem moved (h : Committed s) {i : ι} {p : Client Obj (Except ε α)} (hp : WritesLast p)
    (hi : i ∉ s.commits) (reads : ι → List (Versioned Obj)) :
    Committed { s with client := Function.update s.client i p, reads := reads } := by
  refine ⟨h.nodup, fun j => ?_⟩
  by_cases hj : j = i
  · subst hj
    exact .inr ⟨hi, by simpa using hp⟩
  · simpa [hj] using h.client j

theorem step (h : Committed s) (hm : s.step m = some s') (hans : m.Answered) : Committed s' := by
  cases System.step_effect hm with
  | tick d => exact ⟨h.nodup, h.client⟩
  | read i k hi =>
    obtain ⟨hni, hw⟩ := h.writesLast_at hi (by simp)
    cases hw with
    | get hk => exact h.moved (hk _) hni _
  | readStale i k copy hi hc =>
    obtain ⟨hni, hw⟩ := h.writesLast_at hi (by simp)
    cases hw with
    | get hk => exact h.moved (hk _) hni _
  | readFail i k hi =>
    obtain ⟨hni, hw⟩ := h.writesLast_at hi (by simp)
    cases hw with
    | get hk => exact h.moved (hk _) hni _
  | clock i k hi =>
    obtain ⟨hni, hw⟩ := h.writesLast_at hi (by simp)
    cases hw with
    | now hk => exact h.moved (hk _) hni _
  | refuse i rv v k hi _ =>
    obtain ⟨hni, hw⟩ := h.writesLast_at hi (by simp)
    cases hw with
    | update _ hfalse => exact h.moved hfalse hni _
  | writeFail i rv v k hi =>
    obtain ⟨hni, hw⟩ := h.writesLast_at hi (by simp)
    cases hw with
    | update _ hfalse => exact h.moved hfalse hni _
  | writeLost i v k hi => exact hans.elim
  | write i v k hi =>
    obtain ⟨hni, hw⟩ := h.writesLast_at hi (by simp)
    cases hw with
    | @update _ _ _ a htrue _ =>
      refine ⟨?_, fun j => ?_⟩
      · exact h.nodup.append (List.nodup_singleton i) (by simpa using hni)
      · by_cases hj : j = i
        · subst hj
          exact .inl ⟨by simp [System.commit], a, by simp [System.commit, htrue]⟩
        · simpa [System.commit, hj] using h.client j

end Committed

private theorem sequential_step {program : ι → Client Obj (Except ε α)} {o : Obj}
    {s s' : System ι Obj (Except ε α)} {m : Move ι Obj}
    (h : Sequential program o s.commits s.store.value) (hm : s.step m = some s')
    (hans : m.Answered) (halone : CommitsAlone program s m) :
    Sequential program o s'.commits s'.store.value := by
  rcases System.step_store hm with ⟨hstore, hcommits⟩ | ⟨i, v, k, hi, hmove, hstore, hcommits⟩
  · rw [hstore, hcommits]
    exact h
  · rw [hstore, hcommits]
    rcases hmove with rfl | rfl
    · exact h.snoc (halone i v k rfl hi)
    · exact hans.elim

theorem commits_prefix {s s' : System ι Obj (Except ε α)} {ms : List (Move ι Obj)}
    (h : run System.step s ms = some s') : s.commits <+: s'.commits := by
  refine run_invariant (fun t => s.commits <+: t.commits) ?_ List.prefix_rfl h
  intro t m t' ht hm
  rcases System.step_store hm with ⟨-, hcommits⟩ | ⟨i, -, -, -, -, -, hcommits⟩
  · rw [hcommits]
    exact ht
  · rw [hcommits]
    exact ht.trans (List.prefix_append _ _)

theorem run_committed {program : ι → Client Obj (Except ε α)} {o : Obj} {clock : Int}
    {ms : List (Move ι Obj)} {s : System ι Obj (Except ε α)}
    (hprogram : ∀ i, WritesLast (program i)) (hans : ∀ m ∈ ms, m.Answered)
    (h : run System.step (.start o clock program) ms = some s) : Committed s := by
  have h0 : Committed (System.start o clock program) :=
    ⟨List.nodup_nil, fun i => .inr ⟨by simp [System.start], hprogram i⟩⟩
  have halong : AlongRun System.step (fun _ m => m.Answered) (.start o clock program) ms :=
    .of_forall hans
  exact run_invariant_along Committed (fun _ _ _ hs ha hm => hs.step hm ha) h0 halong h

/-- If every update applied is one its client would make there alone, the order
of the commits linearizes the run. -/
theorem linearizes_commits {program : ι → Client Obj (Except ε α)} {o : Obj} {clock : Int}
    {ms : List (Move ι Obj)} {s : System ι Obj (Except ε α)}
    (hprogram : ∀ i, WritesLast (program i)) (hans : ∀ m ∈ ms, m.Answered)
    (h : run System.step (.start o clock program) ms = some s)
    (halone : AlongRun System.step (CommitsAlone program) (.start o clock program) ms) :
    Linearizes program o clock ms s s.commits := by
  have hcommitted := run_committed hprogram hans h
  refine ⟨hcommitted.nodup, hcommitted.mem_iff, ?_, ?_⟩
  · have hboth := halone.and (.of_forall hans)
    exact run_invariant_along (fun t => Sequential program o t.commits t.store.value)
      (fun _ _ _ ht hP hm => sequential_step ht hm hP.2 hP.1) .nil hboth h
  · intro before after s₁ i j hms hbefore hi hj hjs
    subst hms
    obtain ⟨u, hu, hafter⟩ := (run_append_eq_some ..).mp h
    obtain rfl : s₁ = u := Option.some.inj (hbefore.symm.trans hu)
    have hc := run_committed hprogram (fun m hm => hans m (by simp [hm])) hbefore
    have hi₁ : i ∈ s₁.commits := (hc.mem_iff i).mpr hi
    have hj₁ : j ∉ s₁.commits := by
      intro hmem
      obtain ⟨a, ha⟩ := (hc.mem_iff j).mp hmem
      have hj₀ : s₁.client j = program j := System.run_unmoved hbefore hj
      have hw := hprogram j
      rw [← hj₀, ha] at hw
      cases hw
    obtain ⟨later, hlater⟩ := commits_prefix hafter
    have hj₂ : j ∈ later := by
      rw [← hlater, List.mem_append] at hjs
      exact hjs.resolve_left hj₁
    rw [← hlater]
    exact (List.singleton_sublist.mpr hi₁).append (List.singleton_sublist.mpr hj₂)

/-- Each update the client sends is one that `Φ` allows after the copies it was given. -/
inductive Sends {ρ : Type*} (Φ : List (Versioned Obj) → Nat → Obj → Prop) :
    List (Versioned Obj) → Client Obj ρ → Prop where
  | done {reads : List (Versioned Obj)} (r : ρ) : Sends Φ reads (.done r)
  | get {reads : List (Versioned Obj)} {k : Option (Versioned Obj) → Client Obj ρ}
      (hnone : Sends Φ reads (k none)) (hsome : ∀ copy, Sends Φ (copy :: reads) (k (some copy))) :
      Sends Φ reads (.get k)
  | now {reads : List (Versioned Obj)} {k : Int → Client Obj ρ} (h : ∀ t, Sends Φ reads (k t)) :
      Sends Φ reads (.now k)
  | update {reads : List (Versioned Obj)} {rv : Nat} {v : Obj} {k : Bool → Client Obj ρ}
      (h : Φ reads rv v) (hk : ∀ ok, Sends Φ reads (k ok)) : Sends Φ reads (.update rv v k)

/-- Every client goes on as its copies tell, and these were stored when read. -/
structure Tracked {ρ : Type*} (Φ : ι → List (Versioned Obj) → Nat → Obj → Prop)
    (s : System ι Obj ρ) : Prop where
  sends : ∀ i, Sends (Φ i) (s.reads i) (s.client i)
  snapshot : ∀ i, ∀ copy ∈ s.reads i, s.store.Snapshot copy

namespace Tracked

variable {ρ : Type*} {Φ : ι → List (Versioned Obj) → Nat → Obj → Prop} {s s' : System ι Obj ρ}

omit [DecidableEq ι] in
theorem sends_at (h : Tracked Φ s) {i : ι} {p : Client Obj ρ} (hi : s.client i = p) :
    Sends (Φ i) (s.reads i) p := by
  subst hi
  exact h.sends i

private theorem goto (h : Tracked Φ s) (i : ι) {p : Client Obj ρ}
    (hp : Sends (Φ i) (s.reads i) p) : Tracked Φ (s.goto i p) := by
  refine ⟨fun j => ?_, h.snapshot⟩
  by_cases hj : j = i
  · subst hj
    simpa [System.goto] using hp
  · simpa [System.goto, hj] using h.sends j

private theorem give (h : Tracked Φ s) (i : ι) {copy : Versioned Obj} {p : Client Obj ρ}
    (hcopy : s.store.Snapshot copy) (hp : Sends (Φ i) (copy :: s.reads i) p) :
    Tracked Φ (s.give i copy p) := by
  refine ⟨fun j => ?_, fun j c hc => ?_⟩
  · by_cases hj : j = i
    · subst hj
      simpa [System.give] using hp
    · simpa [System.give, hj] using h.sends j
  · by_cases hj : j = i
    · subst hj
      rcases (by simpa [System.give] using hc : c = copy ∨ c ∈ s.reads j) with rfl | hc
      · exact hcopy
      · exact h.snapshot j c hc
    · exact h.snapshot j c (by simpa [System.give, hj] using hc)

private theorem commit (h : Tracked Φ s) (i : ι) (v : Obj) {p : Client Obj ρ}
    (hp : Sends (Φ i) (s.reads i) p) :
    Tracked Φ (s.commit i ⟨s.store.resourceVersion + 1, v⟩ p) := by
  refine ⟨fun j => ?_, fun j c hc => (h.snapshot j c hc).write v⟩
  by_cases hj : j = i
  · subst hj
    simpa [System.commit] using hp
  · simpa [System.commit, hj] using h.sends j

theorem step (h : Tracked Φ s) {m : Move ι Obj} (hm : s.step m = some s') : Tracked Φ s' := by
  cases System.step_effect hm with
  | tick d => exact ⟨h.sends, h.snapshot⟩
  | read i k hi =>
    cases h.sends_at hi with
    | get _ hsome => exact h.give i (.refl _) (hsome _)
  | readStale i k copy hi hc =>
    cases h.sends_at hi with
    | get _ hsome => exact h.give i (.of_lt hc) (hsome _)
  | readFail i k hi =>
    cases h.sends_at hi with
    | get hnone _ => exact h.goto i hnone
  | clock i k hi =>
    cases h.sends_at hi with
    | now hk => exact h.goto i (hk _)
  | write i v k hi =>
    cases h.sends_at hi with
    | update _ hk => exact h.commit i v (hk _)
  | writeLost i v k hi =>
    cases h.sends_at hi with
    | update _ hk => exact h.commit i v (hk _)
  | refuse i rv v k hi hrv =>
    cases h.sends_at hi with
    | update _ hk => exact h.goto i (hk _)
  | writeFail i rv v k hi =>
    cases h.sends_at hi with
    | update _ hk => exact h.goto i (hk _)

omit [DecidableEq ι] in
theorem start {o : Obj} {clock : Int} {program : ι → Client Obj ρ}
    (h : ∀ i, Sends (Φ i) [] (program i)) : Tracked Φ (.start o clock program) :=
  ⟨h, fun _ _ hc => nomatch hc⟩

end Tracked

/-- While nothing is written over `o`, the client does not fail. -/
inductive Succeeds {ρ : Type*} (o : Versioned Obj) : Client Obj ρ → Prop where
  | get {k : Option (Versioned Obj) → Client Obj ρ} (h : Succeeds o (k (some o))) :
      Succeeds o (.get k)
  | now {k : Int → Client Obj ρ} (h : ∀ t, Succeeds o (k t)) : Succeeds o (.now k)
  | update (v : Obj) (k : Bool → Client Obj ρ) : Succeeds o (.update o.resourceVersion v k)

/-- The call is answered by the server, from what is stored. -/
def Move.Direct : Move ι Obj → Prop
  | .call _ => True
  | .tick _ => True
  | _ => False

/-- Until the first update is applied, a client that succeeds over what is stored
is still on its way. -/
theorem succeeds_until_commit {ρ : Type*} {o : Obj} {clock : Int} {program : ι → Client Obj ρ}
    {ms : List (Move ι Obj)} {s : System ι Obj ρ} {i : ι} (hi : Succeeds ⟨0, o⟩ (program i))
    (hdirect : ∀ m ∈ ms, m.Direct)
    (h : run System.step (.start o clock program) ms = some s) (hs : s.commits = []) :
    Succeeds ⟨0, o⟩ (s.client i) := by
  have hinv : s.commits = [] → s.store = ⟨0, o⟩ ∧ Succeeds ⟨0, o⟩ (s.client i) := by
    refine run_invariant_along
      (fun t : System ι Obj ρ => t.commits = [] → t.store = ⟨0, o⟩ ∧ Succeeds ⟨0, o⟩ (t.client i))
      ?_ (fun _ => ⟨rfl, hi⟩) (.of_forall hdirect) h
    intro t m t' ht hm hstep ht'
    rcases System.step_store hstep with ⟨hstore, hcommits⟩ | ⟨_, _, _, _, _, _, hcommits⟩
    · obtain ⟨hto, hsucc⟩ := ht (hcommits ▸ ht')
      refine ⟨hstore.trans hto, ?_⟩
      by_cases hmi : m.client = some i
      · cases System.step_effect hstep with
        | tick d => cases hmi
        | read j k hj =>
          obtain rfl : j = i := Option.some.inj hmi
          rw [hj] at hsucc
          cases hsucc with
          | get h => simpa [System.give, hto] using h
        | clock j k hj =>
          obtain rfl : j = i := Option.some.inj hmi
          rw [hj] at hsucc
          cases hsucc with
          | now h => simpa [System.goto] using h t.clock
        | write j v k hj => simp [System.commit] at hcommits
        | refuse j rv v k hj hrv =>
          obtain rfl : j = i := Option.some.inj hmi
          rw [hj] at hsucc
          cases hsucc with
          | update _ _ => exact absurd (by rw [hto]) hrv
        | readStale j k copy hj hc => exact hm.elim
        | readFail j k hj => exact hm.elim
        | writeLost j v k hj => exact hm.elim
        | writeFail j rv v k hj => exact hm.elim
      · rw [(System.step_other hstep hmi).1]
        exact hsucc
    · simp [hcommits] at ht'
  exact (hinv hs).2

end OpenEverest.Framework
