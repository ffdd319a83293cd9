import OpenEverest.Framework.Run

/-!
# A process among others

A process makes one call after the other on a state that others change as well. A call reads
the state and writes it at once; it may also fail, without its write or after it. What the
process guarantees rests on a relation that the changes of the others keep to.
-/

namespace OpenEverest.Framework

variable {σ ε : Type}

/-- `next` is told the state that the call came to. -/
inductive Process (σ ε : Type) where
  | done (result : Except ε Unit)
  | call (write : σ → σ) (next : σ → Process σ ε) (failed : Process σ ε)

namespace Process

def andThen : Process σ ε → Process σ ε → Process σ ε
  | .done (.ok ()), q => q
  | .done (.error e), _ => .done (.error e)
  | .call write next failed, q => .call write (fun s => (next s).andThen q) (failed.andThen q)

def sequence : List (Process σ ε) → Process σ ε
  | [] => .done (.ok ())
  | p :: ps => p.andThen (sequence ps)

theorem andThen_assoc (p q r : Process σ ε) :
    (p.andThen q).andThen r = p.andThen (q.andThen r) := by
  induction p with
  | done result =>
    cases result with
    | ok u => rfl
    | error e => rfl
  | call write next failed ihn ihf => simp [andThen, ihn, ihf]

theorem sequence_append (ps qs : List (Process σ ε)) :
    sequence (ps ++ qs) = (sequence ps).andThen (sequence qs) := by
  induction ps with
  | nil => rfl
  | cons p ps ih => simp [sequence, ih, andThen_assoc]

def mapError (f : ε → ε) : Process σ ε → Process σ ε
  | .done (.ok ()) => .done (.ok ())
  | .done (.error e) => .done (.error (f e))
  | .call write next failed => .call write (fun s => (next s).mapError f) (failed.mapError f)

def lift {τ ε' : Type} (get : τ → σ) (set : σ → τ → τ) (f : ε → ε') : Process σ ε → Process τ ε'
  | .done (.ok ()) => .done (.ok ())
  | .done (.error e) => .done (.error (f e))
  | .call write next failed =>
    .call (fun t => set (write (get t)) t) (fun t => (next (get t)).lift get set f)
      (failed.lift get set f)

theorem lift_andThen {τ ε' : Type} (get : τ → σ) (set : σ → τ → τ) (f : ε → ε')
    (p q : Process σ ε) :
    (p.andThen q).lift get set f = (p.lift get set f).andThen (q.lift get set f) := by
  induction p with
  | done result =>
    cases result with
    | ok u => rfl
    | error e => rfl
  | call write next failed ihn ihf => simp [andThen, lift, ihn, ihf]

/-- At most `n` rounds of `body`, which is told what follows a round that is not the last. -/
def poll (timeout : ε) (body : Process σ ε → Process σ ε) : Nat → Process σ ε
  | 0 => .done (.error timeout)
  | n + 1 => body (poll timeout body n)

def access (write : σ → σ) (next : σ → Process σ ε) (e : ε) : Process σ ε :=
  .call write next (.done (.error e))

/-- What the process does from `s` on, while all others keep to `R`: its own writes are in `G`,
and its result is right in every state after. -/
def Guarantees (R G : σ → σ → Prop) (Q : Except ε Unit → σ → Prop) : Process σ ε → σ → Prop
  | .done r, s => ∀ s', R s s' → Q r s'
  | .call write next failed, s => ∀ s', R s s' →
      G s' (write s') ∧ (next s').Guarantees R G Q (write s') ∧
        failed.Guarantees R G Q s' ∧ failed.Guarantees R G Q (write s')

def onSuccess (P : σ → Prop) : Except ε Unit → σ → Prop
  | .ok (), s => P s
  | .error _, _ => True

section Guarantees

variable {R G G' : σ → σ → Prop} {Q Q' : Except ε Unit → σ → Prop} {p q : Process σ ε} {s : σ}

theorem Guarantees.later (htrans : ∀ s t u, R s t → R t u → R s u) {s' : σ}
    (h : p.Guarantees R G Q s) (hs : R s s') : p.Guarantees R G Q s' := by
  cases p with
  | done r => exact fun t ht => h t (htrans s s' t hs ht)
  | call write next failed => exact fun t ht => h t (htrans s s' t hs ht)

theorem Guarantees.imp (hG : ∀ s t, G s t → G' s t) (hQ : ∀ r s, Q r s → Q' r s)
    (h : p.Guarantees R G Q s) : p.Guarantees R G' Q' s := by
  induction p generalizing s with
  | done r => exact fun t ht => hQ r t (h t ht)
  | call write next failed ihn ihf =>
    intro t ht
    obtain ⟨hg, hnext, hfail, hlost⟩ := h t ht
    exact ⟨hG _ _ hg, ihn t hnext, ihf hfail, ihf hlost⟩

/-- A call is made from a state that the others have changed, but only so that `P` stays. -/
theorem guarantees_access {write : σ → σ} {next : σ → Process σ ε} {e : ε} {P : σ → Prop}
    (hP : ∀ s t, P s → R s t → P t) (herror : ∀ s, Q (.error e) s)
    (h : ∀ s, P s → G s (write s) ∧ (next s).Guarantees R G Q (write s)) (hs : P s) :
    (access write next e).Guarantees R G Q s := by
  intro t ht
  obtain ⟨hg, hnext⟩ := h t (hP s t hs ht)
  exact ⟨hg, hnext, fun u _ => herror u, fun u _ => herror u⟩

theorem guarantees_done {r : Except ε Unit} {P : σ → Prop} (hP : ∀ s t, P s → R s t → P t)
    (h : ∀ s, P s → Q r s) (hs : P s) : (Process.done r).Guarantees R G Q s :=
  fun t ht => h t (hP s t hs ht)

theorem Guarantees.frame {F : σ → Prop} (hR : ∀ s t, F s → R s t → F t)
    (hG : ∀ s t, F s → G s t → F t) (h : p.Guarantees R G Q s) (hF : F s) :
    p.Guarantees R G (fun r s => Q r s ∧ F s) s := by
  induction p generalizing s with
  | done r => exact fun t ht => ⟨h t ht, hR s t hF ht⟩
  | call write next failed ihn ihf =>
    intro t ht
    have hFt := hR s t hF ht
    obtain ⟨hg, hnext, hfail, hlost⟩ := h t ht
    exact ⟨hg, ihn t hnext (hG _ _ hFt hg), ihf hfail hFt, ihf hlost (hG _ _ hFt hg)⟩

/-- What the first process leaves behind is what the second one starts from. -/
theorem Guarantees.andThen (hrefl : ∀ s, R s s) {P : σ → Prop}
    (hp : p.Guarantees R G (fun r s => match r with | .ok () => P s | .error e => Q (.error e) s) s)
    (hq : ∀ t, P t → q.Guarantees R G Q t) : (p.andThen q).Guarantees R G Q s := by
  induction p generalizing s with
  | done r =>
    cases r with
    | ok u => exact hq s (hp s (hrefl s))
    | error e => exact hp
  | call write next failed ihn ihf =>
    intro t ht
    obtain ⟨hg, hnext, hfail, hlost⟩ := hp t ht
    exact ⟨hg, ihn t hnext, ihf hfail, ihf hlost⟩

theorem guarantees_error (P : σ → Prop) (e : ε) :
    (done (.error e)).Guarantees R G (onSuccess P) s :=
  fun _ _ => trivial

theorem Guarantees.success {P P' : σ → Prop} (h : p.Guarantees R G (onSuccess P) s)
    (hP : ∀ s, P s → P' s) : p.Guarantees R G (onSuccess P') s := by
  refine h.imp (fun _ _ hg => hg) fun r t ht => ?_
  cases r with
  | ok u => exact hP t ht
  | error e => trivial

theorem guarantees_andThen {P P' : σ → Prop} (hrefl : ∀ s, R s s)
    (hp : p.Guarantees R G (onSuccess P) s)
    (hq : ∀ t, P t → q.Guarantees R G (onSuccess P') t) :
    (p.andThen q).Guarantees R G (onSuccess P') s := by
  refine Guarantees.andThen hrefl (hp.imp (fun _ _ h => h) fun r t h => ?_) hq
  cases r with
  | ok u => exact h
  | error e => trivial

theorem Guarantees.mapError {P : σ → Prop} (f : ε → ε) (h : p.Guarantees R G (onSuccess P) s) :
    (p.mapError f).Guarantees R G (onSuccess P) s := by
  induction p generalizing s with
  | done r =>
    cases r with
    | ok u => exact h
    | error e => exact fun _ _ => trivial
  | call write next failed ihn ihf =>
    intro t ht
    obtain ⟨hg, hnext, hfail, hlost⟩ := h t ht
    exact ⟨hg, ihn t hnext, ihf hfail, ihf hlost⟩

/-- The rest of the state is not written, and what the others change of the part is as before. -/
theorem Guarantees.lift {τ ε' : Type} {get : τ → σ} {set : σ → τ → τ} (f : ε → ε')
    (hget : ∀ s t, get (set s t) = s) {S W : τ → τ → Prop}
    (hR : ∀ t t', S t t' → R (get t) (get t')) (hW : ∀ t s, G (get t) s → W t (set s t))
    {P : σ → Prop} {t : τ} (h : p.Guarantees R G (onSuccess P) (get t)) :
    (p.lift get set f).Guarantees S W (onSuccess fun t => P (get t)) t := by
  induction p generalizing t with
  | done r =>
    cases r with
    | ok u => exact fun t' ht => h (get t') (hR t t' ht)
    | error e => exact fun _ _ => trivial
  | call write next failed ihn ihf =>
    intro t' ht
    obtain ⟨hg, hnext, hfail, hlost⟩ := h (get t') (hR t t' ht)
    refine ⟨hW t' _ hg, ihn (get t') ?_, ihf hfail, ihf ?_⟩
    · rwa [hget]
    · rwa [hget]

/-- What the processes of the elements before leave behind is what the one of an element starts
from; the list is taken apart into those that are done and those that are left. -/
theorem guarantees_sequence_from {α : Type} {f : α → Process σ ε} {P : List α → σ → Prop}
    (hrefl : ∀ s, R s s) (hP : ∀ l s t, P l s → R s t → P l t) {before after : List α}
    (hf : ∀ l a l', before ++ after = l ++ a :: l' → ∀ s, P l s →
      (f a).Guarantees R G (onSuccess (P (l ++ [a]))) s) (hs : P before s) :
    (sequence (after.map f)).Guarantees R G (onSuccess (P (before ++ after))) s := by
  induction after generalizing before s with
  | nil =>
    rw [List.append_nil]
    exact fun t ht => hP before s t hs ht
  | cons a after ih =>
    have hrest : ∀ t, P (before ++ [a]) t → (sequence (after.map f)).Guarantees R G
        (onSuccess (P (before ++ a :: after))) t := by
      intro t ht
      have heq : before ++ a :: after = before ++ [a] ++ after := by simp
      rw [heq]
      exact ih (fun l b l' hl => hf l b l' (heq.trans hl)) ht
    exact guarantees_andThen hrefl (hf before a after rfl s hs) hrest

theorem guarantees_sequence {α : Type} {f : α → Process σ ε} {P : List α → σ → Prop}
    (hrefl : ∀ s, R s s) (hP : ∀ l s t, P l s → R s t → P l t) {as : List α}
    (hf : ∀ l a l', as = l ++ a :: l' → ∀ s, P l s →
      (f a).Guarantees R G (onSuccess (P (l ++ [a]))) s) (hs : P [] s) :
    (sequence (as.map f)).Guarantees R G (onSuccess (P as)) s := by
  rw [← List.nil_append as] at hf
  exact guarantees_sequence_from hrefl hP hf hs

/-- A round that starts from `P` and leaves `P` behind can be made any number of times. -/
theorem guarantees_poll {timeout : ε} {body : Process σ ε → Process σ ε} {P : σ → Prop}
    (hbody : ∀ again, (∀ s, P s → again.Guarantees R G Q s) →
      ∀ s, P s → (body again).Guarantees R G Q s)
    (htimeout : ∀ s, Q (.error timeout) s) (n : Nat) (hs : P s) :
    (poll timeout body n).Guarantees R G Q s := by
  induction n generalizing s with
  | zero => exact fun t _ => htimeout t
  | succ n ih => exact hbody _ (fun t ht => ih ht) s hs

end Guarantees

end Process

structure ProcessState (σ ε : Type) where
  state : σ
  process : Process σ ε

/-- `lost` is a call whose answer does not come through. -/
inductive ProcessMove (σ : Type) where
  | call
  | fail
  | lost
  | other (state : σ)

namespace ProcessState

def step (s : ProcessState σ ε) : ProcessMove σ → Option (ProcessState σ ε)
  | .other state => some { s with state }
  | .call =>
    match s.process with
    | .done _ => none
    | .call write next _ => some ⟨write s.state, next s.state⟩
  | .fail =>
    match s.process with
    | .done _ => none
    | .call _ _ failed => some ⟨s.state, failed⟩
  | .lost =>
    match s.process with
    | .done _ => none
    | .call write _ failed => some ⟨write s.state, failed⟩

variable {R G : σ → σ → Prop} {Q : Except ε Unit → σ → Prop} {s t : ProcessState σ ε}
  {m : ProcessMove σ}

theorem step_andThen {world world' : σ} {p p' : Process σ ε}
    (h : step ⟨world, p⟩ m = some ⟨world', p'⟩) (q : Process σ ε) :
    step ⟨world, p.andThen q⟩ m = some ⟨world', p'.andThen q⟩ := by
  cases m with
  | other state =>
    obtain ⟨rfl, rfl⟩ : state = world' ∧ p = p' := by simpa [step] using h
    rfl
  | call =>
    cases p with
    | done r => cases h
    | call write next failed =>
      obtain ⟨rfl, rfl⟩ : write world = world' ∧ next world = p' := by simpa [step] using h
      rfl
  | fail =>
    cases p with
    | done r => cases h
    | call write next failed =>
      obtain ⟨rfl, rfl⟩ : world = world' ∧ failed = p' := by simpa [step] using h
      rfl
  | lost =>
    cases p with
    | done r => cases h
    | call write next failed =>
      obtain ⟨rfl, rfl⟩ : write world = world' ∧ failed = p' := by simpa [step] using h
      rfl

/-- The others keep to `R`. -/
def Kept (R : σ → σ → Prop) (s : ProcessState σ ε) (m : ProcessMove σ) : Prop :=
  ∀ state, m = .other state → R s.state state

/-- One step of a process that guarantees `G`. -/
theorem guarantees_step (hrefl : ∀ s, R s s) (htrans : ∀ s t u, R s t → R t u → R s u)
    (hs : s.process.Guarantees R G Q s.state) (hm : s.Kept R m) (h : s.step m = some t) :
    t.process.Guarantees R G Q t.state ∧
      (t.state = s.state ∨ G s.state t.state ∨ ∃ state, m = .other state) := by
  cases m with
  | other state =>
    obtain rfl := Option.some.inj h
    exact ⟨hs.later htrans (hm state rfl), .inr (.inr ⟨state, rfl⟩)⟩
  | call =>
    cases hp : s.process with
    | done r => simp [step, hp] at h
    | call write next failed =>
      obtain rfl : ⟨write s.state, next s.state⟩ = t := by simpa [step, hp] using h
      rw [hp] at hs
      obtain ⟨hg, hnext, -, -⟩ := hs s.state (hrefl _)
      exact ⟨hnext, .inr (.inl hg)⟩
  | fail =>
    cases hp : s.process with
    | done r => simp [step, hp] at h
    | call write next failed =>
      obtain rfl : ⟨s.state, failed⟩ = t := by simpa [step, hp] using h
      rw [hp] at hs
      obtain ⟨-, -, hfail, -⟩ := hs s.state (hrefl _)
      exact ⟨hfail, .inl rfl⟩
  | lost =>
    cases hp : s.process with
    | done r => simp [step, hp] at h
    | call write next failed =>
      obtain rfl : ⟨write s.state, failed⟩ = t := by simpa [step, hp] using h
      rw [hp] at hs
      obtain ⟨hg, -, -, hlost⟩ := hs s.state (hrefl _)
      exact ⟨hlost, .inr (.inl hg)⟩

end ProcessState

end OpenEverest.Framework
