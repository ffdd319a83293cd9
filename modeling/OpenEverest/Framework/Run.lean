import Mathlib.Data.List.Basic

/-!
# Runs of a partial step function

A system is a step function that answers `none` where a label is not enabled.
A run folds it along a list of labels; an invariant needs one step lemma, and a
guarded run may assume of each step a condition on the state it is taken in.
-/

namespace OpenEverest.Framework

variable {σ α : Type*}

def run (step : σ → α → Option σ) : σ → List α → Option σ
  | s, [] => some s
  | s, a :: as => (step s a).bind fun s' => run step s' as

@[simp] theorem run_nil (step : σ → α → Option σ) (s : σ) : run step s [] = some s := rfl

theorem run_cons_eq_some (step : σ → α → Option σ) (s t : σ) (a : α) (as : List α) :
    run step s (a :: as) = some t ↔ ∃ s', step s a = some s' ∧ run step s' as = some t := by
  simp only [run, Option.bind_eq_some_iff]

theorem run_append (step : σ → α → Option σ) (s : σ) (as bs : List α) :
    run step s (as ++ bs) = (run step s as).bind fun s' => run step s' bs := by
  induction as generalizing s with
  | nil => rfl
  | cons a as ih =>
    simp only [List.cons_append, run]
    cases step s a with
    | none => rfl
    | some s' => exact ih s'

theorem run_append_eq_some (step : σ → α → Option σ) (s t : σ) (as bs : List α) :
    run step s (as ++ bs) = some t ↔
      ∃ s', run step s as = some s' ∧ run step s' bs = some t := by
  rw [run_append, Option.bind_eq_some_iff]

/-- Every step of the run is taken in a state where `P` holds of its label. -/
def AlongRun (step : σ → α → Option σ) (P : σ → α → Prop) : σ → List α → Prop
  | _, [] => True
  | s, a :: as => P s a ∧ ∀ s', step s a = some s' → AlongRun step P s' as

theorem AlongRun.cons {step : σ → α → Option σ} {P : σ → α → Prop} {s t : σ} {a : α}
    {as : List α} (ha : P s a) (hs : step s a = some t) (has : AlongRun step P t as) :
    AlongRun step P s (a :: as) := by
  refine ⟨ha, fun u hu => ?_⟩
  obtain rfl : t = u := Option.some.inj (hs.symm.trans hu)
  exact has

instance AlongRun.decidable {step : σ → α → Option σ} {P : σ → α → Prop}
    [∀ s a, Decidable (P s a)] : ∀ s as, Decidable (AlongRun step P s as)
  | _, [] => .isTrue trivial
  | s, a :: as =>
    match h : step s a with
    | none => decidable_of_iff (P s a) ⟨fun ha => ⟨ha, fun _ ht => nomatch h.symm.trans ht⟩, (·.1)⟩
    | some t =>
      have : Decidable (AlongRun step P t as) := AlongRun.decidable t as
      decidable_of_iff (P s a ∧ AlongRun step P t as)
        ⟨fun hrun => .cons hrun.1 h hrun.2, fun hrun => ⟨hrun.1, hrun.2 t h⟩⟩

theorem AlongRun.of_forall {step : σ → α → Option σ} {P : α → Prop} {s : σ} {as : List α}
    (h : ∀ a ∈ as, P a) : AlongRun step (fun _ a => P a) s as := by
  induction as generalizing s with
  | nil => trivial
  | cons a as ih => exact ⟨h a (by simp), fun _ _ => ih fun b hb => h b (by simp [hb])⟩

theorem AlongRun.of_run {step : σ → α → Option σ} {s t : σ} {as : List α}
    (h : run step s as = some t) : AlongRun step (fun s a => ∃ s', step s a = some s') s as := by
  induction as generalizing s with
  | nil => trivial
  | cons a as ih =>
    obtain ⟨u, hu, hr⟩ := (run_cons_eq_some ..).mp h
    exact .cons ⟨u, hu⟩ hu (ih hr)

theorem run_of_alongRun {step : σ → α → Option σ} {P : σ → α → Prop}
    (henabled : ∀ s a, P s a → ∃ t, step s a = some t) {s : σ} {as : List α}
    (h : AlongRun step P s as) : ∃ t, run step s as = some t := by
  induction as generalizing s with
  | nil => exact ⟨s, rfl⟩
  | cons a as ih =>
    obtain ⟨u, hu⟩ := henabled s a h.1
    obtain ⟨t, ht⟩ := ih (h.2 u hu)
    exact ⟨t, (run_cons_eq_some ..).mpr ⟨u, hu, ht⟩⟩

theorem AlongRun.and {step : σ → α → Option σ} {P Q : σ → α → Prop} {s : σ} {as : List α}
    (hP : AlongRun step P s as) (hQ : AlongRun step Q s as) :
    AlongRun step (fun s a => P s a ∧ Q s a) s as := by
  induction as generalizing s with
  | nil => trivial
  | cons a as ih => exact ⟨⟨hP.1, hQ.1⟩, fun t ht => ih (hP.2 t ht) (hQ.2 t ht)⟩

theorem AlongRun.append {step : σ → α → Option σ} {P : σ → α → Prop} {s s' : σ}
    {as bs : List α} (h : AlongRun step P s (as ++ bs)) (hr : run step s as = some s') :
    AlongRun step P s as ∧ AlongRun step P s' bs := by
  induction as generalizing s with
  | nil =>
    obtain rfl : s = s' := by simpa using hr
    exact ⟨trivial, h⟩
  | cons a as ih =>
    obtain ⟨u, hu, hr⟩ := (run_cons_eq_some ..).mp hr
    have hrest := ih (h.2 u hu) hr
    refine ⟨⟨h.1, ?_⟩, hrest.2⟩
    intro v hv
    obtain rfl : u = v := Option.some.inj (hu.symm.trans hv)
    exact hrest.1

/-- The converse of `AlongRun.append`. -/
theorem AlongRun.concat {step : σ → α → Option σ} {P : σ → α → Prop} {s s' : σ}
    {as bs : List α} (has : AlongRun step P s as) (hr : run step s as = some s')
    (hbs : AlongRun step P s' bs) : AlongRun step P s (as ++ bs) := by
  induction as generalizing s with
  | nil =>
    obtain rfl : s = s' := by simpa using hr
    exact hbs
  | cons a as ih =>
    obtain ⟨u, hu, hr⟩ := (run_cons_eq_some ..).mp hr
    exact .cons has.1 hu (ih (has.2 u hu) hr)

theorem run_invariant_along {step : σ → α → Option σ} {P : σ → α → Prop} (Inv : σ → Prop)
    (hstep : ∀ s a s', Inv s → P s a → step s a = some s' → Inv s')
    {s t : σ} {as : List α} (hs : Inv s) (hP : AlongRun step P s as)
    (hr : run step s as = some t) : Inv t := by
  induction as generalizing s with
  | nil =>
    obtain rfl : s = t := by simpa using hr
    exact hs
  | cons a as ih =>
    obtain ⟨u, hu, hr⟩ := (run_cons_eq_some ..).mp hr
    exact ih (hstep s a u hs hP.1 hu) (hP.2 u hu) hr

theorem AlongRun.imp {step : σ → α → Option σ} {P Q : σ → α → Prop} (Inv : σ → Prop)
    (hstep : ∀ s a s', Inv s → P s a → step s a = some s' → Inv s')
    (hQ : ∀ s a, Inv s → P s a → Q s a) {s : σ} {as : List α} (hs : Inv s)
    (hP : AlongRun step P s as) : AlongRun step Q s as := by
  induction as generalizing s with
  | nil => trivial
  | cons a as ih =>
    refine ⟨hQ s a hs hP.1, fun t ht => ih (hstep s a t hs hP.1 ht) (hP.2 t ht)⟩

theorem run_invariant {step : σ → α → Option σ} (Inv : σ → Prop)
    (hstep : ∀ s a s', Inv s → step s a = some s' → Inv s')
    {s t : σ} {as : List α} (hs : Inv s) (hr : run step s as = some t) : Inv t := by
  apply run_invariant_along Inv _ hs (AlongRun.of_run hr) hr
  intro s a s' hs _ h
  exact hstep s a s' hs h

/-- `Q` holds in every state the run reaches. -/
def Always (step : σ → α → Option σ) (Q : σ → Prop) (s : σ) (as : List α) : Prop :=
  ∀ before, before <+: as → ∀ t, run step s before = some t → Q t

theorem always_nil (step : σ → α → Option σ) (Q : σ → Prop) (s : σ) :
    Always step Q s [] ↔ Q s := by
  constructor
  · exact fun h => h [] List.prefix_rfl s rfl
  · intro h before hb t ht
    obtain rfl := List.prefix_nil.mp hb
    exact Option.some.inj ht ▸ h

theorem always_cons (step : σ → α → Option σ) (Q : σ → Prop) (s : σ) (a : α) (as : List α) :
    Always step Q s (a :: as) ↔ Q s ∧ ∀ t, step s a = some t → Always step Q t as := by
  constructor
  · intro h
    refine ⟨h [] List.nil_prefix s rfl, fun t ht before hb u hu => ?_⟩
    exact h (a :: before) (List.cons_prefix_cons.mpr ⟨rfl, hb⟩) u
      ((run_cons_eq_some ..).mpr ⟨t, ht, hu⟩)
  · rintro ⟨hs, h⟩ before hb t ht
    cases before with
    | nil => exact Option.some.inj ht ▸ hs
    | cons b before =>
      obtain ⟨rfl, hb'⟩ := List.cons_prefix_cons.mp hb
      obtain ⟨u, hu, ht⟩ := (run_cons_eq_some ..).mp ht
      exact h u hu before hb' t ht

theorem always_of_alongRun {step : σ → α → Option σ} {P : σ → α → Prop} {Q : σ → Prop}
    (Inv : σ → Prop) (hstep : ∀ s a s', Inv s → P s a → step s a = some s' → Inv s')
    (hQ : ∀ s, Inv s → Q s) {s : σ} {as : List α} (hs : Inv s) (hP : AlongRun step P s as) :
    Always step Q s as := by
  intro before hbefore t ht
  obtain ⟨after, rfl⟩ := hbefore
  exact hQ t (run_invariant_along Inv hstep hs (hP.append ht).1 ht)

/-- A guard is exact for `Q`, in runs along which `G` holds, when it keeps an
invariant that gives `Q` and a step outside of it breaks `Q` at once. -/
theorem always_iff_alongRun_within {step : σ → α → Option σ} {G P : σ → α → Prop} {Q : σ → Prop}
    (Inv : σ → Prop) (hstep : ∀ s a s', Inv s → G s a → P s a → step s a = some s' → Inv s')
    (hQ : ∀ s, Inv s → Q s)
    (hbad : ∀ s a, Inv s → G s a → ¬ P s a → ∃ t, step s a = some t ∧ ¬ Q t)
    {s : σ} {as : List α} (hs : Inv s) (hG : AlongRun step G s as) :
    Always step Q s as ↔ AlongRun step P s as := by
  induction as generalizing s with
  | nil => simpa [always_nil, AlongRun] using hQ s hs
  | cons a as ih =>
    rw [always_cons, AlongRun]
    constructor
    · rintro ⟨-, h⟩
      have hP : P s a := by
        by_contra hP
        obtain ⟨t, ht, hnot⟩ := hbad s a hs hG.1 hP
        exact hnot (h t ht [] List.nil_prefix t rfl)
      exact ⟨hP, fun t ht => (ih (hstep s a t hs hG.1 hP ht) (hG.2 t ht)).mp (h t ht)⟩
    · rintro ⟨hP, h⟩
      exact ⟨hQ s hs, fun t ht => (ih (hstep s a t hs hG.1 hP ht) (hG.2 t ht)).mpr (h t ht)⟩

theorem always_iff_alongRun {step : σ → α → Option σ} {P : σ → α → Prop} {Q : σ → Prop}
    (Inv : σ → Prop) (hstep : ∀ s a s', Inv s → P s a → step s a = some s' → Inv s')
    (hQ : ∀ s, Inv s → Q s) (hbad : ∀ s a, Inv s → ¬ P s a → ∃ t, step s a = some t ∧ ¬ Q t)
    {s : σ} {as : List α} (hs : Inv s) : Always step Q s as ↔ AlongRun step P s as :=
  always_iff_alongRun_within Inv (fun s a s' hs _ => hstep s a s' hs) hQ
    (fun s a hs _ => hbad s a hs) hs (.of_forall fun _ _ => trivial)

end OpenEverest.Framework
