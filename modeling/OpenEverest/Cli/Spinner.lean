import OpenEverest.Framework.GoString
import OpenEverest.Framework.Process

/-!
# Steps with a spinner

The CLI runs the steps of a command from an event loop, which handles keys and the ticks of the
spinner as well. A step runs beside the loop and tells it by a message how it ended.
-/

namespace OpenEverest.Cli

open Framework GoString

variable {σ ε : Type}

structure Step (σ ε : Type) where
  desc : GoString
  f : Process σ ε

structure Spinner (ε : Type) where
  index : Nat
  interrupt : Bool
  done : Bool
  stepError : Option ε

inductive SpinnerMsg (ε : Type) where
  | key (quit : Bool)
  | errorStep (e : ε)
  | executedStep
  | tick

/-- A line that is printed tells whether its step succeeded. -/
inductive SpinnerCmd where
  | print (success : Bool) (desc : GoString)
  | runStep (index : Nat)
  | tick
  | quit

namespace Spinner

/-- The commands are run in order; it panics without a step. -/
def init (steps : List (Step σ ε)) : Option (Spinner ε × List SpinnerCmd) :=
  match steps with
  | [] => none
  | _ :: _ => some (⟨0, false, false, none⟩, [.tick, .runStep 0])

/-- It panics when there is no step of the index. -/
def update (steps : List (Step σ ε)) (m : Spinner ε) :
    SpinnerMsg ε → Option (Spinner ε × List SpinnerCmd)
  | .key quit =>
    if quit then some ({ m with interrupt := true, done := true }, [.quit]) else some (m, [])
  | .errorStep e =>
    match steps[m.index]? with
    | none => none
    | some stp =>
      some ({ m with stepError := some e, done := true }, [.print false stp.desc, .quit])
  | .executedStep =>
    match steps[m.index]? with
    | none => none
    | some stp =>
      if m.index + 1 ≥ steps.length then
        some ({ m with done := true }, [.print true stp.desc, .quit])
      else some ({ m with index := m.index + 1 }, [.print true stp.desc, .runStep (m.index + 1)])
  | .tick => some (m, [.tick])

/-- What `Run` returns when the program has ended; it exits the process on an interrupt. -/
def result (m : Spinner ε) : Option (Except ε Unit) :=
  if m.interrupt then none
  else match m.stepError with
    | none => some (.ok ())
    | some e => some (.error e)

end Spinner

inductive StepJob (σ ε : Type) where
  | none
  | waiting (index : Nat)
  | running (p : Process σ ε)
  | sent (result : Except ε Unit)

structure SpinnerState (σ ε : Type) where
  world : σ
  model : Spinner ε
  job : StepJob σ ε
  printed : List (Bool × GoString)
  quitting : Bool
  exited : Bool

/-- `start` is when the timer of a step has run down, `finish` when its function has returned,
and `deliver` when the loop gets to its message. -/
inductive SpinnerMove (σ : Type) where
  | key (quit : Bool)
  | tick
  | start
  | process (m : ProcessMove σ)
  | finish
  | deliver
  | exit

namespace SpinnerState

def exec (s : SpinnerState σ ε) : SpinnerCmd → SpinnerState σ ε
  | .print success desc => { s with printed := s.printed ++ [(success, desc)] }
  | .runStep index => { s with job := .waiting index }
  | .tick => s
  | .quit => { s with quitting := true }

def init (steps : List (Step σ ε)) (world : σ) : Option (SpinnerState σ ε) :=
  (Spinner.init steps).map fun (model, cmds) =>
    cmds.foldl exec ⟨world, model, .none, [], false, false⟩

def handle (steps : List (Step σ ε)) (s : SpinnerState σ ε) (msg : SpinnerMsg ε) :
    Option (SpinnerState σ ε) :=
  (s.model.update steps msg).map fun (model, cmds) => cmds.foldl exec { s with model }

/-- The others go on when the program has ended, but it does nothing more itself. -/
def step (steps : List (Step σ ε)) (s : SpinnerState σ ε) :
    SpinnerMove σ → Option (SpinnerState σ ε)
  | .process (.other world) => some { s with world }
  | .key quit => if s.exited then none else s.handle steps (.key quit)
  | .tick => if s.exited then none else s.handle steps .tick
  | .start =>
    if s.exited then none
    else match s.job with
      | .waiting index => steps[index]?.map fun stp => { s with job := .running stp.f }
      | _ => none
  | .process m =>
    if s.exited then none
    else match s.job with
      | .running p =>
        (ProcessState.step ⟨s.world, p⟩ m).map fun t =>
          { s with world := t.state, job := .running t.process }
      | _ => none
  | .finish =>
    if s.exited then none
    else match s.job with
      | .running (.done result) => some { s with job := .sent result }
      | _ => none
  | .deliver =>
    if s.exited then none
    else match s.job with
      | .sent (.ok ()) => { s with job := .none }.handle steps .executedStep
      | .sent (.error e) => { s with job := .none }.handle steps (.errorStep e)
      | _ => none
  | .exit => if s.quitting ∧ ¬ s.exited then some { s with exited := true } else none

end SpinnerState

def runSteps (steps : List (Step σ ε)) : Process σ ε := .sequence (steps.map Step.f)

def Step.lift {τ ε' : Type} (get : τ → σ) (set : σ → τ → τ) (f : ε → ε') (stp : Step σ ε) :
    Step τ ε' :=
  ⟨stp.desc, stp.f.lift get set f⟩

theorem runSteps_append (before after : List (Step σ ε)) :
    runSteps (before ++ after) = (runSteps before).andThen (runSteps after) := by
  simp [runSteps, Process.sequence_append]

theorem runSteps_lift {τ ε' : Type} (get : τ → σ) (set : σ → τ → τ) (f : ε → ε')
    (steps : List (Step σ ε)) :
    runSteps (steps.map (Step.lift get set f)) = (runSteps steps).lift get set f := by
  induction steps with
  | nil => rfl
  | cons stp steps ih =>
    have hcons : runSteps (stp :: steps) = stp.f.andThen (runSteps steps) := rfl
    rw [hcons, Process.lift_andThen, ← ih]
    rfl

def successes (steps : List (Step σ ε)) : List (Bool × GoString) :=
  steps.map fun stp => (true, stp.desc)

namespace SpinnerState

def remaining (steps : List (Step σ ε)) (s : SpinnerState σ ε) : Process σ ε :=
  match s.job with
  | .none =>
    match s.model.stepError with
    | none => .done (.ok ())
    | some e => .done (.error e)
  | .waiting index => runSteps (steps.drop index)
  | .running p => p.andThen (runSteps (steps.drop (s.model.index + 1)))
  | .sent (.ok ()) => runSteps (steps.drop (s.model.index + 1))
  | .sent (.error e) => .done (.error e)

/-- The loop is at a step of the list, has printed the ones before, and asks to quit when the
last one has ended or on an interrupt. -/
structure Consistent (steps : List (Step σ ε)) (s : SpinnerState σ ε) : Prop where
  index_lt : s.model.index < steps.length
  waiting : ∀ index, s.job = .waiting index → index = s.model.index
  stepError : s.model.stepError ≠ none → s.job = .none
  quitting : s.quitting = true → s.model.interrupt = true ∨ s.job = .none
  exited : s.exited = true → s.quitting = true
  printed : s.printed =
    match s.job, s.model.stepError with
    | .none, none => successes steps
    | .none, some _ =>
      successes (steps.take s.model.index) ++
        (steps[s.model.index]?.map fun stp => (false, stp.desc)).toList
    | _, _ => successes (steps.take s.model.index)

variable {steps : List (Step σ ε)} {s t : SpinnerState σ ε} {stp : Step σ ε}

omit steps in
theorem runSteps_drop {steps : List (Step σ ε)} {index : Nat} (h : steps[index]? = some stp) :
    runSteps (steps.drop index) = stp.f.andThen (runSteps (steps.drop (index + 1))) := by
  obtain ⟨hlt, rfl⟩ := List.getElem?_eq_some_iff.mp h
  rw [List.drop_eq_getElem_cons hlt]
  rfl

theorem successes_take {steps : List (Step σ ε)} {index : Nat} (h : steps[index]? = some stp) :
    successes (steps.take (index + 1)) = successes (steps.take index) ++ [(true, stp.desc)] := by
  rw [List.take_add_one, h]
  simp [successes]

theorem Consistent.job_none (hs : Consistent steps s) (hjob : s.job ≠ .none) :
    s.model.stepError = none ∧ s.printed = successes (steps.take s.model.index) := by
  have herror : s.model.stepError = none := by
    by_contra hne
    exact hjob (hs.stepError hne)
  refine ⟨herror, ?_⟩
  have hprinted := hs.printed
  cases hj : s.job with
  | none => exact absurd hj hjob
  | waiting index => simpa [hj] using hprinted
  | running p => simpa [hj] using hprinted
  | sent result => simpa [hj] using hprinted

/-- What a move does to the steps that are still to be done: nothing, or one step of them. -/
def Follows (steps : List (Step σ ε)) (s : SpinnerState σ ε) (m : SpinnerMove σ)
    (t : SpinnerState σ ε) : Prop :=
  match m with
  | .process m =>
    ProcessState.step ⟨s.world, s.remaining steps⟩ m = some ⟨t.world, t.remaining steps⟩
  | _ => t.world = s.world ∧ t.remaining steps = s.remaining steps

theorem Consistent.key (hs : Consistent steps s) {quit : Bool}
    (h : s.handle steps (.key quit) = some t) :
    Consistent steps t ∧ t.world = s.world ∧ t.remaining steps = s.remaining steps := by
  cases quit with
  | false =>
    obtain rfl : s = t := by simpa [handle, Spinner.update] using h
    exact ⟨hs, rfl, rfl⟩
  | true =>
    obtain rfl : { s with
        model := { s.model with interrupt := true, done := true }, quitting := true } = t := by
      simpa [handle, Spinner.update, exec] using h
    refine ⟨⟨hs.index_lt, hs.waiting, hs.stepError, fun _ => .inl rfl, fun _ => rfl, hs.printed⟩,
      rfl, rfl⟩

theorem Consistent.job (hs : Consistent steps s) (hjob : s.job ≠ .none) {job : StepJob σ ε}
    (hnone : job ≠ .none) (hwaiting : ∀ index, job ≠ .waiting index) (world : σ) :
    Consistent steps { s with world, job } := by
  obtain ⟨herror, hprinted⟩ := hs.job_none hjob
  refine ⟨hs.index_lt, fun index hi => absurd hi (hwaiting index), fun hne => absurd herror hne,
    fun hq => ?_, hs.exited, ?_⟩
  · rcases hs.quitting hq with hinterrupt | hnone
    · exact .inl hinterrupt
    · exact absurd hnone hjob
  · cases job with
    | none => exact absurd rfl hnone
    | waiting index => exact absurd rfl (hwaiting index)
    | running p => exact hprinted
    | sent result => exact hprinted

theorem Consistent.deliver (hs : Consistent steps s) {result : Except ε Unit}
    (hjob : s.job = .sent result)
    (h : handle steps { s with job := .none }
      (match result with | .ok () => .executedStep | .error e => .errorStep e) = some t) :
    Consistent steps t ∧ t.world = s.world ∧ t.remaining steps = s.remaining steps := by
  have hlt := hs.index_lt
  obtain ⟨herror, hprinted⟩ := hs.job_none (by simp [hjob])
  have hstep : steps[s.model.index]? = some steps[s.model.index] := List.getElem?_eq_getElem hlt
  have hexited : s.exited = true → s.quitting = true := hs.exited
  cases result with
  | error e =>
    obtain rfl : { s with
        job := .none, model := { s.model with stepError := some e, done := true }
        printed := s.printed ++ [(false, steps[s.model.index].desc)], quitting := true } = t := by
      simpa [handle, Spinner.update, hstep, exec] using h
    refine ⟨⟨hlt, fun _ hi => by simp at hi, fun _ => rfl, fun _ => .inr rfl, fun _ => rfl, ?_⟩,
      rfl, ?_⟩
    · simp [hprinted, hstep]
    · simp [remaining, hjob]
  | ok u =>
    by_cases hlast : s.model.index + 1 ≥ steps.length
    · obtain rfl : { s with
          job := .none, model := { s.model with done := true }
          printed := s.printed ++ [(true, steps[s.model.index].desc)], quitting := true } = t := by
        simpa [handle, Spinner.update, hstep, exec, hlast] using h
      refine ⟨⟨hlt, fun _ hi => by simp at hi, fun _ => rfl, fun _ => .inr rfl, fun _ => rfl, ?_⟩,
        rfl, ?_⟩
      · simp only [herror, hprinted, ← successes_take hstep, List.take_of_length_le hlast]
      · simp [remaining, hjob, herror, List.drop_eq_nil_of_le hlast, runSteps, Process.sequence]
    · obtain rfl : { s with
          job := .waiting (s.model.index + 1)
          model := { s.model with index := s.model.index + 1 }
          printed := s.printed ++ [(true, steps[s.model.index].desc)] } = t := by
        simpa [handle, Spinner.update, hstep, exec, hlast] using h
      refine ⟨⟨by simpa using hlast, fun index hi => by simpa using hi.symm,
        fun hne => absurd herror hne, fun hq => ?_, hexited, ?_⟩, rfl, ?_⟩
      · rcases hs.quitting hq with hinterrupt | hnone
        · exact .inl hinterrupt
        · simp [hjob] at hnone
      · simp only [hprinted, ← successes_take hstep]
      · simp [remaining, hjob]

theorem Consistent.ran {m : ProcessMove σ} (hs : Consistent steps s)
    (h : (if s.exited then none
      else match s.job with
        | .running p =>
          (ProcessState.step ⟨s.world, p⟩ m).map fun u =>
            { s with world := u.state, job := .running u.process }
        | _ => none) = some t) :
    Consistent steps t ∧ Follows steps s (.process m) t := by
  split at h
  · cases h
  · split at h
    · rename_i p hjob
      obtain ⟨u, hu, rfl⟩ := Option.map_eq_some_iff.mp h
      refine ⟨hs.job (by simp [hjob]) (by simp) (by simp) u.state, ?_⟩
      simp only [Follows, remaining, hjob]
      exact ProcessState.step_andThen hu _
    · cases h

theorem Consistent.step {m : SpinnerMove σ} (hs : Consistent steps s)
    (h : s.step steps m = some t) : Consistent steps t ∧ Follows steps s m t := by
  cases m with
  | key quit =>
    simp only [SpinnerState.step] at h
    split at h
    · cases h
    · exact hs.key h
  | tick =>
    simp only [SpinnerState.step] at h
    split at h
    · cases h
    · obtain rfl : s = t := by simpa [handle, Spinner.update, exec] using h
      exact ⟨hs, rfl, rfl⟩
  | start =>
    simp only [SpinnerState.step] at h
    split at h
    · cases h
    · split at h
      · rename_i index hjob
        obtain rfl := hs.waiting index hjob
        obtain ⟨stp, hstp, rfl⟩ := Option.map_eq_some_iff.mp h
        refine ⟨hs.job (by simp [hjob]) (by simp) (by simp) s.world, rfl, ?_⟩
        simp only [remaining, hjob]
        rw [runSteps_drop hstp]
      · cases h
  | process m =>
    cases m with
    | other world =>
      obtain rfl : { s with world } = t := by simpa [SpinnerState.step] using h
      exact ⟨⟨hs.index_lt, hs.waiting, hs.stepError, hs.quitting, hs.exited, hs.printed⟩, rfl⟩
    | call => exact hs.ran h
    | fail => exact hs.ran h
    | lost => exact hs.ran h
  | finish =>
    simp only [SpinnerState.step] at h
    split at h
    · cases h
    · split at h
      · rename_i result hjob
        obtain rfl := Option.some.inj h
        refine ⟨hs.job (by simp [hjob]) (by simp) (by simp) s.world, rfl, ?_⟩
        cases result with
        | ok u => simp [remaining, hjob, Process.andThen]
        | error e => simp [remaining, hjob, Process.andThen]
      · cases h
  | deliver =>
    simp only [SpinnerState.step] at h
    split at h
    · cases h
    · split at h
      · rename_i hjob
        exact hs.deliver hjob h
      · rename_i e hjob
        exact hs.deliver hjob h
      · cases h
  | exit =>
    simp only [SpinnerState.step] at h
    split at h
    · rename_i hquit
      obtain rfl := Option.some.inj h
      exact ⟨⟨hs.index_lt, hs.waiting, hs.stepError, hs.quitting, fun _ => hquit.1, hs.printed⟩,
        rfl, rfl⟩
    · cases h

/-- The calls of the steps and the changes of the others, without what the loop does besides. -/
def processMoves (ms : List (SpinnerMove σ)) : List (ProcessMove σ) :=
  ms.filterMap fun
    | .process m => some m
    | _ => none

theorem Consistent.run {ms : List (SpinnerMove σ)} (hs : Consistent steps s)
    (h : Framework.run (SpinnerState.step steps) s ms = some t) :
    Consistent steps t ∧
      Framework.run ProcessState.step ⟨s.world, s.remaining steps⟩ (processMoves ms) =
        some ⟨t.world, t.remaining steps⟩ := by
  induction ms generalizing s with
  | nil =>
    obtain rfl := Option.some.inj h
    exact ⟨hs, rfl⟩
  | cons m ms ih =>
    obtain ⟨u, hu, hrest⟩ := (run_cons_eq_some ..).mp h
    obtain ⟨huc, hfollows⟩ := hs.step hu
    obtain ⟨htc, hprocess⟩ := ih huc hrest
    refine ⟨htc, ?_⟩
    have hsame (hstay : u.world = s.world ∧ u.remaining steps = s.remaining steps) :
        Framework.run ProcessState.step ⟨s.world, s.remaining steps⟩ (processMoves ms) =
          some ⟨t.world, t.remaining steps⟩ := by
      rw [← hstay.1, ← hstay.2]
      exact hprocess
    cases m with
    | process m => exact (run_cons_eq_some ..).mpr ⟨_, hfollows, hprocess⟩
    | key quit => exact hsame hfollows
    | tick => exact hsame hfollows
    | start => exact hsame hfollows
    | finish => exact hsame hfollows
    | deliver => exact hsame hfollows
    | exit => exact hsame hfollows

section Guarantees

variable {R G : σ → σ → Prop} {Q : Except ε Unit → σ → Prop} {m : SpinnerMove σ}

theorem Consistent.guarantees_step (hrefl : ∀ s, R s s) (htrans : ∀ s t u, R s t → R t u → R s u)
    (hs : Consistent steps s) (hg : (s.remaining steps).Guarantees R G Q s.world)
    (hm : ∀ world, m = .process (.other world) → R s.world world)
    (h : s.step steps m = some t) :
    (t.remaining steps).Guarantees R G Q t.world ∧
      (t.world = s.world ∨ G s.world t.world ∨ ∃ world, m = .process (.other world)) := by
  have hfollows := (hs.step h).2
  have hsame (hstay : t.world = s.world ∧ t.remaining steps = s.remaining steps) :
      (t.remaining steps).Guarantees R G Q t.world ∧
        (t.world = s.world ∨ G s.world t.world ∨ ∃ world, m = .process (.other world)) := by
    refine ⟨?_, .inl hstay.1⟩
    rw [hstay.1, hstay.2]
    exact hg
  cases m with
  | process m =>
    have hkept : ProcessState.Kept R ⟨s.world, s.remaining steps⟩ m :=
      fun world hw => hm world (congrArg _ hw)
    obtain ⟨hnext, hwrite⟩ := ProcessState.guarantees_step hrefl htrans hg hkept hfollows
    refine ⟨hnext, hwrite.imp_right (.imp_right ?_)⟩
    rintro ⟨world, rfl⟩
    exact ⟨world, rfl⟩
  | key quit => exact hsame hfollows
  | tick => exact hsame hfollows
  | start => exact hsame hfollows
  | finish => exact hsame hfollows
  | deliver => exact hsame hfollows
  | exit => exact hsame hfollows

end Guarantees

theorem init_consistent {world : σ} (h : init steps world = some s) :
    Consistent steps s ∧ s.world = world ∧ s.remaining steps = runSteps steps := by
  cases steps with
  | nil => cases h
  | cons stp steps =>
    obtain rfl : (⟨world, ⟨0, false, false, none⟩, .waiting 0, [], false, false⟩ :
        SpinnerState σ ε) = s := by
      simpa [init, Spinner.init, exec] using h
    refine ⟨⟨by simp, fun index hi => by simpa using hi.symm, fun hne => absurd rfl hne,
      fun hq => by simp at hq, fun he => by simp at he, rfl⟩, rfl, rfl⟩

theorem Consistent.result (hs : Consistent steps s) (hexited : s.exited = true)
    {result : Except ε Unit} (hresult : s.model.result = some result) :
    s.job = .none ∧ s.model.stepError = (match result with | .ok () => none | .error e => some e) := by
  have hinterrupt : s.model.interrupt = false := by
    by_contra hne
    simp [Spinner.result, hne] at hresult
  refine ⟨(hs.quitting (hs.exited hexited)).resolve_left (by simp [hinterrupt]), ?_⟩
  cases herror : s.model.stepError with
  | none =>
    obtain rfl : .ok () = result := by simpa [Spinner.result, hinterrupt, herror] using hresult
    rfl
  | some e =>
    obtain rfl : .error e = result := by simpa [Spinner.result, hinterrupt, herror] using hresult
    rfl

/-- Whatever keys are pressed and in whatever order the loop handles its messages, the calls made
are those of the steps one after the other up to the first that fails; what the loop returns is
the result of these, and the lines printed are the successes and then the failure. -/
theorem run_refines_steps {world : σ} {ms : List (SpinnerMove σ)} (h0 : init steps world = some s)
    (h : Framework.run (SpinnerState.step steps) s ms = some t) :
    Framework.run ProcessState.step ⟨world, runSteps steps⟩ (processMoves ms) =
        some ⟨t.world, t.remaining steps⟩ ∧
      (t.exited = true → ∀ result, t.model.result = some result →
        t.remaining steps = .done result ∧
          match result with
          | .ok () => t.printed = successes steps
          | .error _ => ∃ before stp after, steps = before ++ stp :: after ∧
              t.printed = successes before ++ [(false, stp.desc)]) := by
  obtain ⟨hs, hworld, hremaining⟩ := init_consistent h0
  obtain ⟨ht, hrun⟩ := hs.run h
  rw [hworld, hremaining] at hrun
  refine ⟨hrun, fun hexited result hresult => ?_⟩
  obtain ⟨hjob, herror⟩ := ht.result hexited hresult
  have hprinted := ht.printed
  have hlt := ht.index_lt
  cases result with
  | ok u =>
    refine ⟨by simp [remaining, hjob, herror], ?_⟩
    simpa [hjob, herror] using hprinted
  | error e =>
    refine ⟨by simp [remaining, hjob, herror], ?_⟩
    refine ⟨steps.take t.model.index, steps[t.model.index], steps.drop (t.model.index + 1), ?_, ?_⟩
    · rw [← List.drop_eq_getElem_cons hlt, List.take_append_drop]
    · simpa [hjob, herror, List.getElem?_eq_getElem hlt] using hprinted

/-- The others change the world only as in `R`. -/
def OthersKeepTo (R : σ → σ → Prop) (s : SpinnerState σ ε) (m : SpinnerMove σ) : Prop :=
  ∀ world, m = .process (.other world) → R s.world world

instance (R : σ → σ → Prop) [DecidableRel R] (s : SpinnerState σ ε) (m : SpinnerMove σ) :
    Decidable (OthersKeepTo R s m) :=
  match m with
  | .process (.other world) =>
    decidable_of_iff (R s.world world) ⟨fun h _ hw => by cases hw; exact h, fun h => h world rfl⟩
  | .process .call | .process .fail | .process .lost | .key _ | .tick | .start | .finish
  | .deliver | .exit => .isTrue fun _ hw => nomatch hw

theorem othersKeepTo_alone {R : σ → σ → Prop} {ms : List (SpinnerMove σ)}
    (h : ∀ m ∈ ms, ∀ world, m ≠ .process (.other world)) :
    AlongRun (SpinnerState.step steps) (OthersKeepTo R) s ms :=
  AlongRun.imp (P := fun _ m => ∀ world, m ≠ .process (.other world)) (fun _ => True)
    (fun _ _ _ _ _ _ => trivial) (fun _ _ _ hm world hw => absurd hw (hm world)) trivial
    (AlongRun.of_forall h)

/-- The command itself changes the world only as in `G`. -/
def WritesIn (steps : List (Step σ ε)) (G : σ → σ → Prop) (s : SpinnerState σ ε)
    (m : SpinnerMove σ) : Prop :=
  ∀ t, s.step steps m = some t →
    t.world = s.world ∨ (∃ world, m = .process (.other world)) ∨ G s.world t.world

/-- What the steps guarantee one after the other is kept by every run, and holds at the end of
one that returns no error. -/
theorem run_guarantees {R G : σ → σ → Prop} {P : σ → Prop} {world : σ}
    {ms : List (SpinnerMove σ)} (hrefl : ∀ s, R s s) (htrans : ∀ s t u, R s t → R t u → R s u)
    (hsteps : (runSteps steps).Guarantees R G (Process.onSuccess P) world)
    (h0 : init steps world = some s)
    (hothers : AlongRun (SpinnerState.step steps) (OthersKeepTo R) s ms)
    (h : Framework.run (SpinnerState.step steps) s ms = some t) :
    AlongRun (SpinnerState.step steps) (WritesIn steps G) s ms ∧
      (t.exited = true → t.model.result = some (.ok ()) → P t.world) := by
  obtain ⟨hs, hworld, hremaining⟩ := init_consistent h0
  let Inv (s : SpinnerState σ ε) : Prop :=
    Consistent steps s ∧ (s.remaining steps).Guarantees R G (Process.onSuccess P) s.world
  have hinit : Inv s := by
    refine ⟨hs, ?_⟩
    rw [hremaining, hworld]
    exact hsteps
  have hinv : ∀ s m t, Inv s → OthersKeepTo R s m → s.step steps m = some t → Inv t :=
    fun s m t hs hm hstep =>
      ⟨(hs.1.step hstep).1, (hs.1.guarantees_step hrefl htrans hs.2 hm hstep).1⟩
  constructor
  · refine AlongRun.imp Inv hinv (fun u m hu hm v hstep => ?_) hinit hothers
    rcases (hu.1.guarantees_step hrefl htrans hu.2 hm hstep).2 with hsame | hwrite | hother
    · exact .inl hsame
    · exact .inr (.inr hwrite)
    · exact .inr (.inl hother)
  · intro hexited hresult
    obtain ⟨ht, hg⟩ := run_invariant_along Inv hinv hinit hothers h
    obtain ⟨hjob, herror⟩ := ht.result hexited hresult
    have hdone : t.remaining steps = .done (.ok ()) := by simp [remaining, hjob, herror]
    rw [hdone] at hg
    exact hg t.world (hrefl t.world)

def sampleSteps : List (Step Nat Unit) :=
  let f : Process Nat Unit := .call (· + 1) (fun _ => .done (.ok ())) (.done (.error ()))
  [⟨ascii "first", f⟩, ⟨ascii "second", f⟩]

def sampleMoves : List (SpinnerMove Nat) :=
  [.tick, .start, .process .call, .key false, .finish, .process (.other 7), .deliver, .start,
    .process .fail, .tick, .finish, .deliver, .exit]

theorem run_refines_steps_sample :
    ∃ s t, init sampleSteps 0 = some s ∧
      Framework.run (SpinnerState.step sampleSteps) s sampleMoves = some t ∧
      t.printed = [(true, ascii "first"), (false, ascii "second")] ∧
      Framework.run ProcessState.step ⟨0, runSteps sampleSteps⟩ (processMoves sampleMoves) =
        some ⟨7, .done (.error ())⟩ := by
  have hends : ((init sampleSteps 0).bind fun s =>
      (Framework.run (SpinnerState.step sampleSteps) s sampleMoves).map fun t =>
        (t.printed, t.world, t.exited, decide (t.model.result = some (.error ())))) =
      some ([(true, ascii "first"), (false, ascii "second")], 7, true, true) := by decide +kernel
  obtain ⟨s, hs, hends⟩ := Option.bind_eq_some_iff.mp hends
  obtain ⟨t, ht, hends⟩ := Option.map_eq_some_iff.mp hends
  obtain ⟨hprinted, hworld, hexited, hresult⟩ :
      t.printed = [(true, ascii "first"), (false, ascii "second")] ∧ t.world = 7 ∧
        t.exited = true ∧ t.model.result = some (.error ()) := by
    simpa only [Prod.mk.injEq, decide_eq_true_eq] using hends
  obtain ⟨hrun, hrest⟩ := run_refines_steps hs ht
  obtain ⟨hremaining, -⟩ := hrest hexited (.error ()) hresult
  exact ⟨s, t, hs, ht, hprinted, by rw [hrun, hworld, hremaining]⟩

end SpinnerState

end OpenEverest.Cli
