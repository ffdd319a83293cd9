import OpenEverest.Cli.Spinner

/-!
# Commands that run together

Several commands run at the same time on one world, each with its own spinner. To each of them
the writes of the others are changes from outside, and what each guarantees the others is what
these rely on.
-/

namespace OpenEverest.Cli

open Framework

variable {ι σ ε : Type}

inductive CommandMove (ι σ : Type) where
  | own (i : ι) (m : SpinnerMove σ)
  | other (world : σ)

def stepTogether [DecidableEq ι] (steps : ι → List (Step σ ε)) (s : ι → SpinnerState σ ε) :
    CommandMove ι σ → Option (ι → SpinnerState σ ε)
  | .own _ (.process (.other _)) => none
  | .own i m =>
    ((s i).step (steps i) m).map fun t j => if j = i then t else { s j with world := t.world }
  | .other world => some fun i => { s i with world }

def Starts (steps : ι → List (Step σ ε)) (world : σ) (s : ι → SpinnerState σ ε) : Prop :=
  ∀ i, SpinnerState.init (steps i) world = some (s i)

/-- What each command relies on and guarantees, and what holds when it has succeeded. -/
structure Compatible (steps : ι → List (Step σ ε)) (R G : ι → σ → σ → Prop) (P : ι → σ → Prop)
    (world : σ) : Prop where
  refl : ∀ i s, R i s s
  trans : ∀ i s t u, R i s t → R i t u → R i s u
  guarantees : ∀ i,
    (runSteps (steps i)).Guarantees (R i) (G i) (Process.onSuccess (P i)) world
  relies : ∀ i j, i ≠ j → ∀ s t, G i s t → R j s t

/-- The commands have one world, and each still guarantees what it did. -/
structure Together (steps : ι → List (Step σ ε)) (R G : ι → σ → σ → Prop) (P : ι → σ → Prop)
    (s : ι → SpinnerState σ ε) : Prop where
  world : ∀ i j, (s i).world = (s j).world
  consistent : ∀ i, SpinnerState.Consistent (steps i) (s i)
  guarantees : ∀ i,
    ((s i).remaining (steps i)).Guarantees (R i) (G i) (Process.onSuccess (P i)) (s i).world

/-- The changes from outside are such as every command relies on. -/
def OutsideKeeps (R : ι → σ → σ → Prop) (s : ι → SpinnerState σ ε) (m : CommandMove ι σ) : Prop :=
  ∀ world, m = .other world → ∀ i, R i (s i).world world

variable {steps : ι → List (Step σ ε)} {R G : ι → σ → σ → Prop} {P : ι → σ → Prop} {world : σ}
  {s t : ι → SpinnerState σ ε} {m : CommandMove ι σ}

theorem Compatible.starts (hc : Compatible steps R G P world) (h0 : Starts steps world s) :
    Together steps R G P s := by
  have hinit := fun i => SpinnerState.init_consistent (h0 i)
  refine ⟨fun i j => ?_, fun i => (hinit i).1, fun i => ?_⟩
  · rw [(hinit i).2.1, (hinit j).2.1]
  · rw [(hinit i).2.2, (hinit i).2.1]
    exact hc.guarantees i

theorem Together.seen (hc : Compatible steps R G P world) (hs : Together steps R G P s) {j : ι}
    {world' : σ} (hr : R j (s j).world world') :
    SpinnerState.Consistent (steps j) { s j with world := world' } ∧
      (SpinnerState.remaining (steps j) { s j with world := world' }).Guarantees (R j) (G j)
        (Process.onSuccess (P j)) world' := by
  have hj := hs.consistent j
  exact ⟨⟨hj.index_lt, hj.waiting, hj.stepError, hj.quitting, hj.exited, hj.printed⟩,
    (hs.guarantees j).later (hc.trans j) hr⟩

variable [DecidableEq ι]

theorem stepTogether_own {i : ι} {m : SpinnerMove σ} (hm : ∀ world, m ≠ .process (.other world)) :
    stepTogether steps s (.own i m) =
      ((s i).step (steps i) m).map
        fun t j => if j = i then t else { s j with world := t.world } := by
  cases m with
  | process m =>
    cases m with
    | other world => exact absurd rfl (hm world)
    | _ => rfl
  | _ => rfl

/-- While only one of them moves, it does what it would do alone. -/
theorem run_own {i : ι} {ms : List (SpinnerMove σ)} {u : SpinnerState σ ε}
    (hworld : ∀ j, (s j).world = (s i).world)
    (hms : ∀ m ∈ ms, ∀ world, m ≠ .process (.other world))
    (h : Framework.run (SpinnerState.step (steps i)) (s i) ms = some u) :
    Framework.run (stepTogether steps) s (ms.map (.own i)) =
      some fun j => if j = i then u else { s j with world := u.world } := by
  induction ms generalizing s with
  | nil =>
    obtain rfl := Option.some.inj h
    refine congrArg some (funext fun j => ?_)
    split
    · rename_i hj
      rw [hj]
    · rw [← hworld j]
  | cons m ms ih =>
    obtain ⟨v, hv, hrest⟩ := (run_cons_eq_some ..).mp h
    obtain ⟨hm, hms⟩ := List.forall_mem_cons.mp hms
    rw [List.map_cons, run_cons_eq_some, stepTogether_own hm, hv]
    refine ⟨_, rfl, ?_⟩
    rw [ih (fun j => ?_) hms (by simpa using hrest)]
    · refine congrArg some (funext fun j => ?_)
      by_cases hj : j = i
      · simp [hj]
      · simp [hj]
    · by_cases hj : j = i
      · simp [hj]
      · simp [hj]

theorem Together.own (hc : Compatible steps R G P world) (hs : Together steps R G P s) {i : ι}
    {m : SpinnerMove σ} (hm : ∀ world, m ≠ .process (.other world)) {u : SpinnerState σ ε}
    (h : (s i).step (steps i) m = some u) :
    Together steps R G P (fun j => if j = i then u else { s j with world := u.world }) ∧
      (u.world = (s i).world ∨ G i (s i).world u.world) := by
  have hstep := (hs.consistent i).step h
  obtain ⟨hrest, hwrite⟩ := (hs.consistent i).guarantees_step (hc.refl i) (hc.trans i)
    (hs.guarantees i) (fun world hw => absurd hw (hm world)) h
  have hwrite' : u.world = (s i).world ∨ G i (s i).world u.world := by
    rcases hwrite with hsame | hg | ⟨world, hother⟩
    · exact .inl hsame
    · exact .inr hg
    · exact absurd hother (hm world)
  have hseen (j : ι) (hj : j ≠ i) : R j (s j).world u.world := by
    rw [hs.world j i]
    rcases hwrite' with hsame | hg
    · rw [hsame]
      exact hc.refl j _
    · exact hc.relies i j (Ne.symm hj) _ _ hg
  have hworld (j : ι) :
      (if j = i then u else { s j with world := u.world } : SpinnerState σ ε).world = u.world := by
    split <;> rfl
  refine ⟨⟨fun j k => (hworld j).trans (hworld k).symm, fun j => ?_, fun j => ?_⟩, hwrite'⟩
  · by_cases hj : j = i
    · subst hj
      simpa using hstep.1
    · simpa [hj] using (hs.seen hc (hseen j hj)).1
  · by_cases hj : j = i
    · subst hj
      simpa using hrest
    · simpa [hj] using (hs.seen hc (hseen j hj)).2

theorem Together.step (hc : Compatible steps R G P world) (hs : Together steps R G P s)
    (hm : OutsideKeeps R s m) (h : stepTogether steps s m = some t) : Together steps R G P t := by
  cases m with
  | other world' =>
    obtain rfl := Option.some.inj h
    exact ⟨fun _ _ => rfl, fun i => (hs.seen hc (hm world' rfl i)).1,
      fun i => (hs.seen hc (hm world' rfl i)).2⟩
  | own i m =>
    have hown : ∀ world, m ≠ .process (.other world) := by
      intro world' heq
      subst heq
      cases h
    rw [stepTogether_own hown] at h
    obtain ⟨u, hu, rfl⟩ := Option.map_eq_some_iff.mp h
    exact (hs.own hc hown hu).1

/-- In every run of the commands together, all that have succeeded hold what they ended with. -/
theorem Compatible.run {ms : List (CommandMove ι σ)} (hc : Compatible steps R G P world)
    (h0 : Starts steps world s) (hothers : AlongRun (stepTogether steps) (OutsideKeeps R) s ms)
    (h : Framework.run (stepTogether steps) s ms = some t) :
    (∀ i j, (t i).world = (t j).world) ∧
      ∀ i, (t i).exited = true → (t i).model.result = some (.ok ()) → P i (t i).world := by
  have ht := run_invariant_along (Together steps R G P) (fun _ _ _ hs hm hstep => hs.step hc hm hstep)
    (hc.starts h0) hothers h
  refine ⟨ht.world, fun i hexited hresult => ?_⟩
  obtain ⟨hjob, herror⟩ := (ht.consistent i).result hexited hresult
  have hdone : (t i).remaining (steps i) = .done (.ok ()) := by
    simp [SpinnerState.remaining, hjob, herror]
  have hg := ht.guarantees i
  rw [hdone] at hg
  exact hg (t i).world (hc.refl i _)

end OpenEverest.Cli
