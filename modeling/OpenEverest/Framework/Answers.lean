import OpenEverest.Framework.Run

/-!
# Systems that answer

A system takes every label in every state and answers it. Two systems that answer alike in
related states, and stay related, cannot be told apart by their answers.
-/

namespace OpenEverest.Framework

variable {σ τ α β : Type*}

def answers (step : σ → α → σ × β) : σ → List α → List β
  | _, [] => []
  | s, a :: as => (step s a).2 :: answers step (step s a).1 as

def next (step : σ → α → σ × β) (s : σ) (a : α) : Option σ := some (step s a).1

/-- `P` is a condition on the labels that depends on the state of the second system. -/
theorem answers_eq_of_simulation {step : σ → α → σ × β} {step' : τ → α → τ × β}
    {P : τ → α → Prop} (R : σ → τ → Prop)
    (hstep : ∀ s t a, R s t → P t a →
      (step s a).2 = (step' t a).2 ∧ R (step s a).1 (step' t a).1)
    {s : σ} {t : τ} {as : List α} (hR : R s t) (hP : AlongRun (next step') P t as) :
    answers step s as = answers step' t as := by
  induction as generalizing s t with
  | nil => rfl
  | cons a as ih =>
    obtain ⟨hanswer, hnext⟩ := hstep s t a hR hP.1
    rw [answers, answers, hanswer, ih hnext (hP.2 _ rfl)]

end OpenEverest.Framework
