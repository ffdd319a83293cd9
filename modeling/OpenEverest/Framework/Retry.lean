import Mathlib.Data.List.Basic

/-!
# Retried operations

An operation is attempted until an attempt is done or the retries are used up,
and a walk runs an operation along a list until one fails. Each of the two adds
to a state what the attempts it made add.
-/

namespace OpenEverest.Framework

variable {σ α : Type*}

/-- How an attempt ends. An exhausted one has failed and leaves no retry. -/
inductive Attempt where
  | done
  | failed
  | exhausted
  deriving DecidableEq

/-- At most `retries` more attempts after the one numbered `i`. -/
def retry (op : Nat → σ → Attempt × σ) : Nat → Nat → σ → Bool × σ
  | 0, i, s => (decide ((op i s).1 = .done), (op i s).2)
  | retries + 1, i, s =>
    match (op i s).1 with
    | .done => (true, (op i s).2)
    | .failed => retry op retries (i + 1) (op i s).2
    | .exhausted => (false, (op i s).2)

/-- The operation on each element in turn, up to the first that fails. -/
def walk (op : Nat → α → σ → Bool × σ) : Nat → List α → σ → Bool × σ
  | _, [], s => (true, s)
  | j, a :: as, s =>
    if (op j a s).1 = true then walk op (j + 1) as (op j a s).2 else (false, (op j a s).2)

/-- The first index at which a search ends is the next one or comes after it. -/
theorem exists_prefix_iff {S V : Nat → Prop} (i : Nat) :
    (∃ k, (∀ l, l < k → S (i + l)) ∧ V k) ↔
      V 0 ∨ (S i ∧ ∃ k, (∀ l, l < k → S (i + 1 + l)) ∧ V (k + 1)) := by
  have hshift (k : Nat) : (∀ l, l < k + 1 → S (i + l)) ↔
      S i ∧ ∀ l, l < k → S (i + 1 + l) := by
    rw [Nat.forall_lt_succ_left]
    simp only [Nat.add_zero, Nat.add_assoc, Nat.add_comm 1]
  rw [← Nat.or_exists_add_one]
  simp only [hshift, and_assoc, exists_and_left]
  simp

section Retry

variable (op : Nat → σ → Attempt × σ)

theorem retry_inv (Inv : σ → Prop) (hop : ∀ i s, Inv s → Inv (op i s).2) (retries i : Nat) (s : σ)
    (hs : Inv s) : Inv (retry op retries i s).2 := by
  induction retries generalizing i s with
  | zero => exact hop i s hs
  | succ retries ih =>
    have hnext := hop i s hs
    unfold retry
    cases (op i s).1 with
    | done => exact hnext
    | failed => exact ih (i + 1) _ hnext
    | exhausted => exact hnext

theorem retry_last (retries i : Nat) (s : σ) (h : (retry op retries i s).1 = true) :
    ∃ k s', (op k s').1 = .done ∧ (retry op retries i s).2 = (op k s').2 := by
  induction retries generalizing i s with
  | zero => exact ⟨i, s, by simpa [retry] using h, rfl⟩
  | succ retries ih =>
    unfold retry at h ⊢
    cases hattempt : (op i s).1 with
    | done => exact ⟨i, s, hattempt, rfl⟩
    | failed =>
      rw [hattempt] at h
      exact ih (i + 1) _ h
    | exhausted =>
      rw [hattempt] at h
      cases h

variable {op} {S : Nat → Prop}

theorem retry_isDone_iff (hdone : ∀ i s, (op i s).1 = .done ↔ S i)
    (hnever : ∀ i s, (op i s).1 ≠ .exhausted) (retries i : Nat) (s : σ) :
    (retry op retries i s).1 = true ↔ ∃ k, k ≤ retries ∧ S (i + k) := by
  induction retries generalizing i s with
  | zero => simp [retry, hdone]
  | succ retries ih =>
    have hshift : (∃ k, k ≤ retries + 1 ∧ S (i + k)) ↔
        S i ∨ ∃ k, k ≤ retries ∧ S (i + 1 + k) := by
      rw [← Nat.or_exists_add_one]
      simp only [Nat.zero_le, true_and, Nat.add_zero, Nat.add_le_add_iff_right,
        Nat.add_assoc, Nat.add_comm 1]
    rw [hshift]
    unfold retry
    cases hattempt : (op i s).1 with
    | done => simpa using Or.inl ((hdone i s).mp hattempt)
    | failed =>
      have hnot : ¬ S i := by
        rw [← hdone i s, hattempt]
        simp
      simpa [hnot] using ih (i + 1) (op i s).2
    | exhausted => exact absurd hattempt (hnever i s)

theorem retry_adds {P : σ → Prop} {W : Nat → Prop} (hdone : ∀ i s, (op i s).1 = .done ↔ S i)
    (hnever : ∀ i s, (op i s).1 ≠ .exhausted) (hadds : ∀ i s, P (op i s).2 ↔ P s ∨ W i)
    (retries i : Nat) (s : σ) :
    P (retry op retries i s).2 ↔
      P s ∨ ∃ k, k ≤ retries ∧ (∀ l, l < k → ¬ S (i + l)) ∧ W (i + k) := by
  induction retries generalizing i s with
  | zero =>
    have hone : (∃ k, k ≤ 0 ∧ (∀ l, l < k → ¬ S (i + l)) ∧ W (i + k)) ↔ W i := by simp
    rw [hone]
    exact hadds i s
  | succ retries ih =>
    have hshift : (∃ k, k ≤ retries + 1 ∧ (∀ l, l < k → ¬ S (i + l)) ∧ W (i + k)) ↔
        W i ∨ (¬ S i ∧ ∃ k, k ≤ retries ∧ (∀ l, l < k → ¬ S (i + 1 + l)) ∧ W (i + 1 + k)) := by
      have hnext := exists_prefix_iff (S := fun n => ¬ S n)
        (V := fun k => k ≤ retries + 1 ∧ W (i + k)) i
      simp only [Nat.zero_le, true_and, Nat.add_zero, Nat.add_le_add_iff_right,
        ← Nat.add_right_comm i 1, ← Nat.add_assoc, and_left_comm] at hnext ⊢
      exact hnext
    rw [hshift]
    unfold retry
    cases hattempt : (op i s).1 with
    | done =>
      have hfirst := (hdone i s).mp hattempt
      simpa [hfirst] using hadds i s
    | failed =>
      have hfirst : ¬ S i := by
        rw [← hdone i s, hattempt]
        simp
      have hrest := ih (i + 1) (op i s).2
      rw [hadds i s, or_assoc] at hrest
      simpa [hfirst] using hrest
    | exhausted => exact absurd hattempt (hnever i s)

end Retry

section Walk

variable (op : Nat → α → σ → Bool × σ)

theorem walk_inv (Inv : σ → Prop) (hop : ∀ j a s, Inv s → Inv (op j a s).2) (j : Nat)
    (as : List α) (s : σ) (hs : Inv s) : Inv (walk op j as s).2 := by
  induction as generalizing j s with
  | nil => exact hs
  | cons a as ih =>
    have hnext := hop j a s hs
    unfold walk
    split
    · exact ih (j + 1) _ hnext
    · exact hnext

theorem walk_establishes {Q : α → σ → Prop} (hop : ∀ j a s, (op j a s).1 = true → Q a (op j a s).2)
    (hkeep : ∀ j a b s, Q b s → Q b (op j a s).2) (j : Nat) (as : List α) (s : σ)
    (h : (walk op j as s).1 = true) : ∀ a ∈ as, Q a (walk op j as s).2 := by
  induction as generalizing j s with
  | nil => simp
  | cons a as ih =>
    unfold walk at h ⊢
    by_cases hstep : (op j a s).1 = true
    · rw [if_pos hstep] at h ⊢
      intro b hb
      rcases List.mem_cons.mp hb with rfl | hb
      · have hhere := hop j b s hstep
        exact walk_inv op (Q b) (fun j a s => hkeep j a b s) (j + 1) as _ hhere
      · exact ih (j + 1) _ h b hb
    · rw [if_neg hstep] at h
      cases h

variable {op} {S : Nat → Prop}

theorem walk_isDone_iff (hdone : ∀ j a s, (op j a s).1 = true ↔ S j) (j : Nat) (as : List α)
    (s : σ) : (walk op j as s).1 = true ↔ ∀ k, k < as.length → S (j + k) := by
  induction as generalizing j s with
  | nil => simp [walk]
  | cons a as ih =>
    rw [List.length_cons, Nat.forall_lt_succ_left]
    unfold walk
    by_cases hstep : (op j a s).1 = true
    · have hfirst := (hdone j a s).mp hstep
      have hrest := ih (j + 1) (op j a s).2
      rw [if_pos hstep, hrest]
      simp only [Nat.add_zero, hfirst, true_and, Nat.add_assoc, Nat.add_comm 1]
    · have hfirst : ¬ S j := fun h => hstep ((hdone j a s).mpr h)
      simp [if_neg hstep, hfirst]

theorem walk_adds {P : σ → Prop} {W : Nat → α → Prop}
    (hdone : ∀ j a s, (op j a s).1 = true ↔ S j)
    (hadds : ∀ j a s, P (op j a s).2 ↔ P s ∨ W j a) (j : Nat) (as : List α) (s : σ) :
    P (walk op j as s).2 ↔
      P s ∨ ∃ k a, as[k]? = some a ∧ (∀ l, l < k → S (j + l)) ∧ W (j + k) a := by
  induction as generalizing j s with
  | nil => simp [walk]
  | cons a as ih =>
    have hshift : (∃ k b, (a :: as)[k]? = some b ∧ (∀ l, l < k → S (j + l)) ∧ W (j + k) b) ↔
        W j a ∨ (S j ∧ ∃ k b, as[k]? = some b ∧ (∀ l, l < k → S (j + 1 + l)) ∧
          W (j + 1 + k) b) := by
      have hnext := exists_prefix_iff (S := S)
        (V := fun k => ∃ b, (a :: as)[k]? = some b ∧ W (j + k) b) j
      simp only [← exists_and_left, List.getElem?_cons_zero, List.getElem?_cons_succ,
        Option.some.injEq, exists_eq_left', Nat.add_zero, ← Nat.add_right_comm j 1,
        ← Nat.add_assoc, and_left_comm] at hnext ⊢
      exact hnext
    rw [hshift]
    unfold walk
    by_cases hstep : (op j a s).1 = true
    · have hfirst := (hdone j a s).mp hstep
      have hrest := ih (j + 1) (op j a s).2
      rw [hadds j a s, or_assoc] at hrest
      simpa [if_pos hstep, hfirst] using hrest
    · have hfirst : ¬ S j := fun h => hstep ((hdone j a s).mpr h)
      simpa [if_neg hstep, hfirst] using hadds j a s

end Walk

end OpenEverest.Framework
