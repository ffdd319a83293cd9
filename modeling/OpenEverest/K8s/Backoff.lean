import OpenEverest.Framework.Run
import OpenEverest.K8s.ApproveUpgrade

/-!
# One retry counter for all calls

Five operations are retried with the same package-level value, whose wrapper
counts the retries. Every call sets the count to zero when it starts and counts
its failures there, whichever other calls do the same meanwhile.
-/

namespace OpenEverest.K8s

open Framework

/-- The operations wrapped in `backoff.Retry` with `everestAPIConstantBackoff`. -/
inductive RetriedOperation where
  | ensureBackupStorageProtection
  | ensureBackupForegroundDeletion
  | setLockDBEnginesForUpgrade
  | startOperatorUpgrade
  | approveInstallPlan
  deriving DecidableEq

/-- Calls of retried operations in requests. An install plan is approved within an
attempt of the operator upgrade, and no other operation is nested. -/
structure RetriedCalls (ι ρ : Type) where
  operation : ι → RetriedOperation
  request : ι → ρ
  parent : ι → Option ι
  nested : ∀ i, (parent i).isSome = true ↔ operation i = .approveInstallPlan
  parent_upgrade : ∀ i j, parent i = some j →
    operation j = .startOperatorUpgrade ∧ request j = request i

inductive RetryCall where
  | new
  | attempting (attempts : Nat)
  | waiting (attempts : Nat)
  | ended (succeeded : Bool) (attempts : Nat)
  deriving DecidableEq

def RetryCall.isActive : RetryCall → Bool
  | .attempting _ => true
  | .waiting _ => true
  | _ => false

/-- The steps a call has taken, at least. -/
def RetryCall.rank : RetryCall → Nat
  | .new => 0
  | .attempting attempts => 2 * attempts
  | .waiting attempts => 2 * attempts + 1
  | .ended _ attempts => 2 * attempts + 2

/-- The shared count, the calls with the one running inside of each, and the requests
whose context is done. -/
structure RetryState (ι ρ : Type) where
  numTries : Nat
  call : ι → RetryCall
  inner : ι → Option ι
  done : ρ → Bool

inductive RetryStep (ι ρ : Type) where
  | start (i : ι)
  | succeed (i : ι)
  | fail (i : ι)
  | wake (i : ι)
  | giveUp (i : ι)
  | cancel (r : ρ)

/-- The call whose step it is. -/
def RetryStep.of? {ι ρ : Type} : RetryStep ι ρ → Option ι
  | .start i | .succeed i | .fail i | .wake i | .giveUp i => some i
  | .cancel _ => none

namespace RetryState

variable {ι ρ : Type} [DecidableEq ι] [DecidableEq ρ] (calls : RetriedCalls ι ρ)

def start (numTries : Nat) : RetryState ι ρ :=
  ⟨numTries, fun _ => .new, fun _ => none, fun _ => false⟩

def attempt (s : RetryState ι ρ) (i : ι) : Option Nat :=
  match s.call i, s.inner i with
  | .attempting attempts, none => some attempts
  | _, _ => none

def setCall (s : RetryState ι ρ) (i : ι) (c : RetryCall) : RetryState ι ρ :=
  { s with call := Function.update s.call i c }

def setInner (s : RetryState ι ρ) (i : ι) (inner : Option ι) : RetryState ι ρ :=
  match calls.parent i with
  | none => s
  | some p => { s with inner := Function.update s.inner p inner }

/-- The loop of `backoff.Retry`, one step at a time. -/
def step (s : RetryState ι ρ) : RetryStep ι ρ → Option (RetryState ι ρ)
  | .start i =>
    if s.call i = .new ∧ (∀ p ∈ calls.parent i, (s.attempt p).isSome = true) then
      -- `b.Reset()`
      some { (s.setInner calls i (some i)).setCall i (.attempting 1) with numTries := 0 }
    else none
  | .succeed i =>
    (s.attempt i).map fun attempts => (s.setInner calls i none).setCall i (.ended true attempts)
  | .fail i =>
    (s.attempt i).map fun attempts =>
      -- `NextBackOff`
      if s.done (calls.request i) = true ∨ everestAPIMaxRetries ≤ s.numTries then
        (s.setInner calls i none).setCall i (.ended false attempts)
      else { s.setCall i (.waiting attempts) with numTries := s.numTries + 1 }
  | .wake i =>
    match s.call i with
    | .waiting attempts => some (s.setCall i (.attempting (attempts + 1)))
    | _ => none
  | .giveUp i =>
    match s.call i with
    | .waiting attempts =>
      if s.done (calls.request i) = true then
        some ((s.setInner calls i none).setCall i (.ended false attempts))
      else none
    | _ => none
  | .cancel r => some { s with done := Function.update s.done r true }

def maxAttempts : Nat := everestAPIMaxRetries + 1

/-- A call has no more attempts than it may, and fails with fewer only when its context is done. -/
def CallKept (done : Bool) : RetryCall → Prop
  | .new => True
  | .attempting attempts => attempts ≤ maxAttempts
  | .waiting attempts => attempts < maxAttempts
  | .ended true attempts => attempts ≤ maxAttempts
  | .ended false attempts => attempts ≤ maxAttempts ∧ (done = false → attempts = maxAttempts)

def Kept (s : RetryState ι ρ) : Prop := ∀ i, CallKept (s.done (calls.request i)) (s.call i)

/-- When an attempt fails, the shared count is at its end exactly at the call's last attempt. -/
def CountsOwn (s : RetryState ι ρ) : RetryStep ι ρ → Prop
  | .fail i => ∀ attempts, s.attempt i = some attempts → s.done (calls.request i) = false →
      (everestAPIMaxRetries ≤ s.numTries ↔ attempts = maxAttempts)
  | _ => True

variable {calls} {s t : RetryState ι ρ}

omit [DecidableEq ρ] in
@[simp] theorem setInner_call (i : ι) (inner : Option ι) :
    (s.setInner calls i inner).call = s.call := by
  unfold setInner
  split <;> rfl

omit [DecidableEq ρ] in
@[simp] theorem setInner_done (i : ι) (inner : Option ι) :
    (s.setInner calls i inner).done = s.done := by
  unfold setInner
  split <;> rfl

omit [DecidableEq ρ] in
@[simp] theorem setInner_numTries (i : ι) (inner : Option ι) :
    (s.setInner calls i inner).numTries = s.numTries := by
  unfold setInner
  split <;> rfl

omit [DecidableEq ι] [DecidableEq ρ] in
theorem attempt_eq_some {i : ι} {attempts : Nat} (h : s.attempt i = some attempts) :
    s.call i = .attempting attempts := by
  unfold attempt at h
  split at h
  · rename_i hcall _
    rw [hcall, Option.some.inj h]
  · cases h

/-- What a step does to the count and to the call whose step it is. -/
inductive Effect (calls : RetriedCalls ι ρ) (s : RetryState ι ρ) :
    RetryStep ι ρ → Nat → RetryCall → Prop
  | start {i : ι} (hcall : s.call i = .new) : Effect calls s (.start i) 0 (.attempting 1)
  | succeed {i : ι} {attempts : Nat} (hcall : s.attempt i = some attempts) :
      Effect calls s (.succeed i) s.numTries (.ended true attempts)
  | stop {i : ι} {attempts : Nat} (hcall : s.attempt i = some attempts)
      (hstop : s.done (calls.request i) = true ∨ everestAPIMaxRetries ≤ s.numTries) :
      Effect calls s (.fail i) s.numTries (.ended false attempts)
  | retry {i : ι} {attempts : Nat} (hcall : s.attempt i = some attempts)
      (halive : s.done (calls.request i) = false) (hleft : s.numTries < everestAPIMaxRetries) :
      Effect calls s (.fail i) (s.numTries + 1) (.waiting attempts)
  | wake {i : ι} {attempts : Nat} (hcall : s.call i = .waiting attempts) :
      Effect calls s (.wake i) s.numTries (.attempting (attempts + 1))
  | giveUp {i : ι} {attempts : Nat} (hcall : s.call i = .waiting attempts)
      (hdone : s.done (calls.request i) = true) :
      Effect calls s (.giveUp i) s.numTries (.ended false attempts)

theorem step_effect {a : RetryStep ι ρ} (h : s.step calls a = some t) :
    (∃ i c, a.of? = some i ∧ Effect calls s a t.numTries c ∧
        t.call = Function.update s.call i c ∧ t.done = s.done) ∨
      ∃ r, a = .cancel r ∧ t = { s with done := Function.update s.done r true } := by
  cases a with
  | start i =>
    simp only [step, Option.ite_none_right_eq_some, Option.some.injEq] at h
    obtain ⟨⟨hcall, -⟩, rfl⟩ := h
    exact .inl ⟨i, _, rfl, .start hcall, by simp [setCall], by simp [setCall]⟩
  | succeed i =>
    obtain ⟨attempts, hattempt, rfl⟩ := Option.map_eq_some_iff.mp h
    refine .inl ⟨i, _, rfl, ?_, by simp [setCall]; rfl, by simp [setCall]⟩
    have heffect : Effect calls s .. := .succeed hattempt
    simpa [setCall] using heffect
  | fail i =>
    obtain ⟨attempts, hattempt, heq⟩ := Option.map_eq_some_iff.mp h
    split at heq
    · rename_i hstop
      subst heq
      refine .inl ⟨i, _, rfl, ?_, by simp [setCall]; rfl, by simp [setCall]⟩
      have heffect := Effect.stop hattempt hstop
      simpa [setCall] using heffect
    · rename_i hgo
      subst heq
      rw [not_or, Bool.not_eq_true, not_le] at hgo
      exact .inl ⟨i, _, rfl, .retry hattempt hgo.1 hgo.2, rfl, rfl⟩
  | wake i =>
    simp only [step] at h
    split at h
    · rename_i attempts hcall
      obtain rfl := Option.some.inj h
      exact .inl ⟨i, _, rfl, .wake hcall, rfl, rfl⟩
    · cases h
  | giveUp i =>
    simp only [step] at h
    split at h
    · rename_i attempts hcall
      split at h
      · rename_i hdone
        obtain rfl := Option.some.inj h
        refine .inl ⟨i, _, rfl, ?_, by simp [setCall]; rfl, by simp [setCall]⟩
        have heffect := Effect.giveUp hcall hdone
        simpa [setCall] using heffect
      · cases h
    · cases h
  | cancel r =>
    obtain rfl := Option.some.inj h
    exact .inr ⟨r, rfl, rfl⟩

omit [DecidableEq ι] [DecidableEq ρ] in
theorem CallKept.of_done {c : RetryCall} {done done' : Bool} (h : CallKept done c)
    (hdone : done = true → done' = true) : CallKept done' c := by
  cases c with
  | ended succeeded attempts =>
    cases succeeded with
    | true => exact h
    | false =>
      refine ⟨h.1, fun halive => h.2 ?_⟩
      cases done with
      | false => rfl
      | true => rw [hdone rfl] at halive; cases halive
  | _ => exact h

omit [DecidableEq ι] [DecidableEq ρ] in
theorem Effect.kept {a : RetryStep ι ρ} {n : Nat} {c : RetryCall} {i : ι}
    (h : Effect calls s a n c) (hi : a.of? = some i) (hs : Kept calls s)
    (hcounts : CountsOwn calls s a) : CallKept (s.done (calls.request i)) c := by
  have hkept := hs i
  cases h with
  | start hcall => exact Nat.succ_le_succ (Nat.zero_le _)
  | succeed hattempt =>
    obtain rfl := Option.some.inj hi
    rw [attempt_eq_some hattempt] at hkept
    exact hkept
  | stop hattempt hstop =>
    obtain rfl := Option.some.inj hi
    rw [attempt_eq_some hattempt] at hkept
    refine ⟨hkept, fun halive => (hcounts _ hattempt halive).mp ?_⟩
    exact hstop.resolve_left (by simp [halive])
  | retry hattempt halive hleft =>
    obtain rfl := Option.some.inj hi
    rw [attempt_eq_some hattempt] at hkept
    refine lt_of_le_of_ne hkept fun hlast => ?_
    have hended := (hcounts _ hattempt halive).mpr hlast
    exact absurd hended (not_le.mpr hleft)
  | wake hcall =>
    obtain rfl := Option.some.inj hi
    rw [hcall] at hkept
    exact hkept
  | giveUp hcall hdone =>
    obtain rfl := Option.some.inj hi
    rw [hcall] at hkept
    exact ⟨Nat.le_of_lt hkept, fun halive => absurd hdone (by simp [halive])⟩

theorem Kept.step {a : RetryStep ι ρ} (hs : Kept calls s) (hcounts : CountsOwn calls s a)
    (h : s.step calls a = some t) : Kept calls t := by
  intro j
  rcases step_effect h with ⟨i, c, hi, heffect, hcall, hdone⟩ | ⟨r, -, rfl⟩
  · rw [hcall, hdone]
    by_cases hj : j = i
    · subst hj
      rw [Function.update_self]
      exact heffect.kept hi hs hcounts
    · rw [Function.update_of_ne hj]
      exact hs j
  · refine (hs j).of_done fun hj => ?_
    simp only [Function.update_apply]
    split <;> simp_all

theorem Kept.broken {a : RetryStep ι ρ} (hs : Kept calls s) (hnot : ¬ CountsOwn calls s a) :
    ∃ t, s.step calls a = some t ∧ ¬ Kept calls t := by
  cases a with
  | fail i =>
    simp only [CountsOwn, not_forall] at hnot
    obtain ⟨attempts, hattempt, halive, hdiff⟩ := hnot
    have hkept := hs i
    rw [attempt_eq_some hattempt] at hkept
    have hle : attempts ≤ maxAttempts := hkept
    by_cases hstop : everestAPIMaxRetries ≤ s.numTries
    · have hearly : attempts ≠ maxAttempts := fun hlast => hdiff (iff_of_true hstop hlast)
      refine ⟨(s.setInner calls i none).setCall i (.ended false attempts), ?_, fun hkept' => ?_⟩
      · simp only [RetryState.step, hattempt, Option.map_some, if_pos (Or.inr hstop)]
      · have hended := hkept' i
        simp only [setCall, setInner_done, setInner_call, Function.update_self] at hended
        exact hearly (hended.2 halive)
    · have hlate : attempts = maxAttempts := by
        by_contra hne
        exact hdiff (iff_of_false hstop hne)
      have hgo : ¬ (s.done (calls.request i) = true ∨ everestAPIMaxRetries ≤ s.numTries) := by
        simp [halive, hstop]
      refine ⟨{ s.setCall i (.waiting attempts) with numTries := s.numTries + 1 }, ?_,
        fun hkept' => ?_⟩
      · simp only [RetryState.step, hattempt, Option.map_some, if_neg hgo]
      · have hwaiting := hkept' i
        simp only [setCall, Function.update_self] at hwaiting
        exact absurd hwaiting (not_lt.mpr hlate.ge)
  | _ => exact absurd trivial hnot

def ownSteps (i : ι) (steps : List (RetryStep ι ρ)) : Nat :=
  steps.countP fun a => decide (a.of? = some i)

omit [DecidableEq ι] [DecidableEq ρ] in
theorem Effect.rank_lt {a : RetryStep ι ρ} {n : Nat} {c : RetryCall} {i : ι}
    (h : Effect calls s a n c) (hi : a.of? = some i) : (s.call i).rank < c.rank := by
  cases h with
  | start hcall =>
    obtain rfl := Option.some.inj hi
    rw [hcall]
    decide
  | succeed hattempt =>
    obtain rfl := Option.some.inj hi
    rw [attempt_eq_some hattempt]
    simp only [RetryCall.rank]
    omega
  | stop hattempt hstop =>
    obtain rfl := Option.some.inj hi
    rw [attempt_eq_some hattempt]
    simp only [RetryCall.rank]
    omega
  | retry hattempt halive hleft =>
    obtain rfl := Option.some.inj hi
    rw [attempt_eq_some hattempt]
    simp only [RetryCall.rank]
    omega
  | wake hcall =>
    obtain rfl := Option.some.inj hi
    rw [hcall]
    simp only [RetryCall.rank]
    omega
  | giveUp hcall hdone =>
    obtain rfl := Option.some.inj hi
    rw [hcall]
    simp only [RetryCall.rank]
    omega

theorem ownSteps_le_rank (i : ι) {steps : List (RetryStep ι ρ)}
    (h : run (step calls) s steps = some t) :
    ownSteps i steps + (s.call i).rank ≤ (t.call i).rank := by
  induction steps generalizing s with
  | nil =>
    obtain rfl : s = t := by simpa using h
    simp [ownSteps]
  | cons a steps ih =>
    obtain ⟨u, hu, hrun⟩ := (run_cons_eq_some ..).mp h
    have hrest := ih hrun
    have hfirst : (if a.of? = some i then 1 else 0) + (s.call i).rank ≤ (u.call i).rank := by
      rcases step_effect hu with ⟨j, c, hj, heffect, hcall, -⟩ | ⟨r, rfl, rfl⟩
      · rw [hcall]
        by_cases hij : i = j
        · subst hij
          have hlt := heffect.rank_lt hj
          rw [Function.update_self, if_pos hj]
          omega
        · have hne : a.of? ≠ some i := by
            rw [hj]
            exact fun h => hij (Option.some.inj h).symm
          rw [Function.update_of_ne hij, if_neg hne, Nat.zero_add]
      · simp [RetryStep.of?]
    have hcount : ownSteps i (a :: steps) =
        ownSteps i steps + if a.of? = some i then 1 else 0 := by
      simp [ownSteps, List.countP_cons]
    omega

omit [DecidableEq ι] [DecidableEq ρ] in
theorem CallKept.rank_le {done : Bool} {c : RetryCall} (h : CallKept done c) :
    c.rank ≤ 2 * maxAttempts + 2 := by
  cases c with
  | new => exact Nat.zero_le _
  | attempting attempts =>
    have hle : attempts ≤ maxAttempts := h
    simp only [RetryCall.rank]
    omega
  | waiting attempts =>
    have hlt : attempts < maxAttempts := h
    simp only [RetryCall.rank]
    omega
  | ended succeeded attempts =>
    have hle : attempts ≤ maxAttempts := by
      cases succeeded with
      | true => exact h
      | false => exact h.1
    simp only [RetryCall.rank]
    omega

variable (calls) in
/-- In every state each call keeps to its attempts, and each ends after boundedly many
steps of its own. -/
structure RetriesKept (s : RetryState ι ρ) (steps : List (RetryStep ι ρ)) : Prop where
  kept : Always (step calls) (Kept calls) s steps
  ends : ∀ before, before <+: steps → ∀ t, run (step calls) s before = some t →
    ∀ i, ownSteps i before ≤ 2 * maxAttempts + 2

omit [DecidableEq ι] [DecidableEq ρ] in
theorem kept_start (numTries : Nat) : Kept calls (start numTries) := fun _ => trivial

/-- The calls keep to their attempts exactly when every failure finds its own count. -/
theorem retriesKept_iff (calls : RetriedCalls ι ρ) (numTries : Nat)
    (steps : List (RetryStep ι ρ)) : RetriesKept calls (start numTries) steps ↔
      AlongRun (step calls) (CountsOwn calls) (start numTries) steps := by
  have hiff : Always (step calls) (Kept calls) (start numTries) steps ↔
      AlongRun (step calls) (CountsOwn calls) (start numTries) steps :=
    always_iff_alongRun (Kept calls) (fun _ _ _ hs hc h => hs.step hc h) (fun _ hs => hs)
      (fun _ _ hs hnot => hs.broken hnot) (kept_start numTries)
  refine ⟨fun h => hiff.mp h.kept, fun h => ⟨hiff.mpr h, ?_⟩⟩
  intro before hbefore t ht i
  have hkept := hiff.mpr h before hbefore t ht i
  have hrank := ownSteps_le_rank i ht
  exact (Nat.le_of_add_right_le hrank).trans hkept.rank_le

/-- A call starts when no other is in progress. -/
def Alone (s : RetryState ι ρ) : RetryStep ι ρ → Prop
  | .start _ => ∀ j, (s.call j).isActive = false
  | _ => True

/-- The call in progress is the only one, and the count is that of its failures. -/
structure OneCall (s : RetryState ι ρ) : Prop where
  unique : ∀ i j, (s.call i).isActive = true → (s.call j).isActive = true → i = j
  attempting : ∀ i attempts, s.call i = .attempting attempts → attempts = s.numTries + 1
  waiting : ∀ i attempts, s.call i = .waiting attempts → attempts = s.numTries
  bound : ∀ i, (s.call i).isActive = true → s.numTries ≤ everestAPIMaxRetries

omit [DecidableEq ι] [DecidableEq ρ] in
theorem oneCall_start (numTries : Nat) : OneCall (start numTries : RetryState ι ρ) where
  unique _ _ h := nomatch h
  attempting _ _ h := nomatch h
  waiting _ _ h := nomatch h
  bound _ h := nomatch h

omit [DecidableEq ρ] in
private theorem OneCall.of_update {i : ι} {c : RetryCall}
    (hcall : t.call = Function.update s.call i c)
    (halone : ∀ j, j ≠ i → (s.call j).isActive = false)
    (hattempting : ∀ attempts, c = .attempting attempts → attempts = t.numTries + 1)
    (hwaiting : ∀ attempts, c = .waiting attempts → attempts = t.numTries)
    (hbound : c.isActive = true → t.numTries ≤ everestAPIMaxRetries) : OneCall t := by
  have hactive : ∀ j, (t.call j).isActive = true → j = i := by
    intro j hj
    by_contra hne
    rw [hcall, Function.update_of_ne hne, halone j hne] at hj
    cases hj
  have hself : t.call i = c := by rw [hcall, Function.update_self]
  refine ⟨fun j k hj hk => (hactive j hj).trans (hactive k hk).symm, ?_, ?_, ?_⟩
  · intro j attempts hj
    obtain rfl := hactive j (by rw [hj]; rfl)
    exact hattempting attempts (hself.symm.trans hj)
  · intro j attempts hj
    obtain rfl := hactive j (by rw [hj]; rfl)
    exact hwaiting attempts (hself.symm.trans hj)
  · intro j hj
    obtain rfl := hactive j hj
    exact hbound (hself ▸ hj)

theorem OneCall.step {a : RetryStep ι ρ} (hs : OneCall s) (halone : Alone s a)
    (h : s.step calls a = some t) : OneCall t := by
  rcases step_effect h with ⟨i, c, hi, heffect, hcall, -⟩ | ⟨r, -, rfl⟩
  · have hothers : (s.call i).isActive = true → ∀ j, j ≠ i → (s.call j).isActive = false := by
      intro hactive j hne
      rw [Bool.eq_false_iff]
      exact fun hj => hne (hs.unique j i hj hactive)
    generalize hn : t.numTries = n at heffect
    cases heffect with
    | @start j hnew =>
      obtain rfl : j = i := Option.some.inj hi
      refine .of_update hcall (fun k _ => halone k) ?_ (fun _ h => nomatch h) ?_
      · intro attempts hattempts
        rw [hn]
        exact (RetryCall.attempting.inj hattempts).symm
      · intro _
        rw [hn]
        exact Nat.zero_le _
    | @succeed j _ hattempt =>
      obtain rfl : j = i := Option.some.inj hi
      have hactive : (s.call j).isActive = true := by rw [attempt_eq_some hattempt]; rfl
      exact .of_update hcall (hothers hactive) (fun _ h => nomatch h) (fun _ h => nomatch h)
        (fun h => nomatch h)
    | @stop j _ hattempt hstop =>
      obtain rfl : j = i := Option.some.inj hi
      have hactive : (s.call j).isActive = true := by rw [attempt_eq_some hattempt]; rfl
      exact .of_update hcall (hothers hactive) (fun _ h => nomatch h) (fun _ h => nomatch h)
        (fun h => nomatch h)
    | @retry j _ hattempt halive hleft =>
      obtain rfl : j = i := Option.some.inj hi
      have hactive : (s.call j).isActive = true := by rw [attempt_eq_some hattempt]; rfl
      refine .of_update hcall (hothers hactive) (fun _ h => nomatch h) ?_ (fun _ => ?_)
      · intro attempts hattempts
        obtain rfl := RetryCall.waiting.inj hattempts
        rw [hn]
        exact hs.attempting j _ (attempt_eq_some hattempt)
      · rw [hn]
        exact hleft
    | @wake j _ hwaiting =>
      obtain rfl : j = i := Option.some.inj hi
      have hactive : (s.call j).isActive = true := by rw [hwaiting]; rfl
      refine .of_update hcall (hothers hactive) ?_ (fun _ h => nomatch h) (fun _ => ?_)
      · intro attempts hattempts
        obtain rfl := RetryCall.attempting.inj hattempts
        rw [hn, hs.waiting j _ hwaiting]
      · rw [hn]
        exact hs.bound j hactive
    | @giveUp j _ hwaiting hdone =>
      obtain rfl : j = i := Option.some.inj hi
      have hactive : (s.call j).isActive = true := by rw [hwaiting]; rfl
      exact .of_update hcall (hothers hactive) (fun _ h => nomatch h) (fun _ h => nomatch h)
        (fun h => nomatch h)
  · exact ⟨hs.unique, hs.attempting, hs.waiting, hs.bound⟩

omit [DecidableEq ι] [DecidableEq ρ] in
theorem OneCall.countsOwn (hs : OneCall s) (a : RetryStep ι ρ) : CountsOwn calls s a := by
  cases a with
  | fail i =>
    intro attempts hattempt _
    have hcall := attempt_eq_some hattempt
    have heq := hs.attempting i attempts hcall
    have hbound := hs.bound i (by rw [hcall]; rfl)
    unfold maxAttempts
    omega
  | _ => trivial

theorem retriesKept_of_alone (calls : RetriedCalls ι ρ) (numTries : Nat)
    (steps : List (RetryStep ι ρ)) (h : AlongRun (step calls) Alone (start numTries) steps) :
    AlongRun (step calls) (CountsOwn calls) (start numTries) steps :=
  h.imp OneCall (fun _ _ _ hs ha hstep => hs.step ha hstep) (fun _ a hs _ => hs.countsOwn a)
    (oneCall_start numTries)

end RetryState

def twoDeletions : RetriedCalls Bool Bool where
  operation _ := .ensureBackupForegroundDeletion
  request i := i
  parent _ := none
  nested _ := by simp
  parent_upgrade _ _ h := nomatch h

def alternatingFailures : List (RetryStep Bool Bool) :=
  [.start true, .start false] ++
    (List.replicate 5 [.fail true, .wake true, .fail false, .wake false]).flatten ++ [.fail true]

/-- Two calls use up one count: the first ends after its sixth attempt. -/
theorem alternatingFailures_not_kept : ¬ ∀ (ι ρ : Type) (_ : DecidableEq ι) (_ : DecidableEq ρ)
    (calls : RetriedCalls ι ρ) (numTries : Nat) (steps : List (RetryStep ι ρ)),
    RetryState.RetriesKept calls (.start numTries) steps := by
  intro h
  have hended : (run (RetryState.step twoDeletions) (.start 0) alternatingFailures).any (fun s =>
      decide (s.call true = .ended false 6 ∧ s.done true = false)) = true := by decide +kernel
  obtain ⟨s, hs, hfacts⟩ := (Option.any_eq_true ..).mp hended
  obtain ⟨hcall, halive⟩ := of_decide_eq_true hfacts
  have hkept := (h Bool Bool _ _ twoDeletions 0 alternatingFailures).kept _ List.prefix_rfl s hs true
  rw [hcall] at hkept
  have hall : 6 = RetryState.maxAttempts := hkept.2 halive
  cases hall

end OpenEverest.K8s
