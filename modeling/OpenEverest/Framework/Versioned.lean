import OpenEverest.Framework.Run
import Mathlib.Logic.Function.Basic

/-!
# Clients of one versioned object

An API server holds an object under a resource version and refuses an update
that was computed from another version. A client is a program over that API:
it reads the object, reads the clock, and writes. `exec` runs a client alone;
`System.step` interleaves the actions of any number of clients.
-/

namespace OpenEverest.Framework

structure Versioned (Obj : Type*) where
  resourceVersion : Nat
  value : Obj

namespace Versioned

variable {Obj : Type*}

/-- The write is applied when the version sent is the stored one, and refused otherwise. -/
def update (o : Versioned Obj) (rv : Nat) (v : Obj) : Option (Versioned Obj) :=
  if rv = o.resourceVersion then some ⟨o.resourceVersion + 1, v⟩ else none

/-- `copy` was stored at this or an earlier version of the object. -/
structure Snapshot (o copy : Versioned Obj) : Prop where
  version_le : copy.resourceVersion ≤ o.resourceVersion
  value_eq : copy.resourceVersion = o.resourceVersion → copy.value = o.value

theorem update_eq_some (o o' : Versioned Obj) (rv : Nat) (v : Obj) :
    o.update rv v = some o' ↔ rv = o.resourceVersion ∧ o' = ⟨o.resourceVersion + 1, v⟩ := by
  unfold update
  split <;> simp_all [eq_comm]

theorem update_eq_none (o : Versioned Obj) (rv : Nat) (v : Obj) :
    o.update rv v = none ↔ rv ≠ o.resourceVersion := by
  unfold update
  split <;> simp_all

theorem update_current (o : Versioned Obj) (v : Obj) :
    o.update o.resourceVersion v = some ⟨o.resourceVersion + 1, v⟩ := if_pos rfl

theorem Snapshot.refl (o : Versioned Obj) : Snapshot o o := ⟨Nat.le_refl _, fun _ => rfl⟩

theorem Snapshot.of_lt {o copy : Versioned Obj} (h : copy.resourceVersion < o.resourceVersion) :
    Snapshot o copy :=
  ⟨Nat.le_of_lt h, fun he => absurd he (Nat.ne_of_lt h)⟩

theorem Snapshot.write {o copy : Versioned Obj} (h : Snapshot o copy) (v : Obj) :
    Snapshot ⟨o.resourceVersion + 1, v⟩ copy := by
  refine ⟨Nat.le_succ_of_le h.version_le, ?_⟩
  intro he
  have hle := h.version_le
  simp only at he
  omega

end Versioned

/-- A program over the API: `get` may fail, `update` answers whether it succeeded. -/
inductive Client (Obj ρ : Type*) where
  | done (r : ρ)
  | get (k : Option (Versioned Obj) → Client Obj ρ)
  | now (k : Int → Client Obj ρ)
  | update (rv : Nat) (o : Obj) (k : Bool → Client Obj ρ)

namespace Client

variable {Obj ρ ρ' : Type*}

def bind : Client Obj ρ → (ρ → Client Obj ρ') → Client Obj ρ'
  | .done r, f => f r
  | .get k, f => .get fun copy => (k copy).bind f
  | .now k, f => .now fun t => (k t).bind f
  | .update rv o k, f => .update rv o fun ok => (k ok).bind f

/-- Run the client again while it fails, at most `n` more times. -/
def retry {ε α : Type*} : Nat → Client Obj (Except ε α) → Client Obj (Except ε α)
  | 0, p => p
  | n + 1, p => p.bind fun
    | .ok a => .done (.ok a)
    | .error _ => retry n p

def result : Client Obj ρ → Option ρ
  | .done r => some r
  | _ => none

theorem result_eq_some (p : Client Obj ρ) (r : ρ) : p.result = some r ↔ p = .done r := by
  cases p <;> simp [result]

/-- The client runs alone at time `t` and every call of it reaches the server. -/
def exec (t : Int) : Client Obj ρ → Versioned Obj → Versioned Obj × ρ
  | .done r, o => (o, r)
  | .get k, o => exec t (k (some o)) o
  | .now k, o => exec t (k t) o
  | .update rv v k, o =>
    match o.update rv v with
    | some o' => exec t (k true) o'
    | none => exec t (k false) o

theorem exec_bind (t : Int) (p : Client Obj ρ) (f : ρ → Client Obj ρ') (o : Versioned Obj) :
    (p.bind f).exec t o = (f (p.exec t o).2).exec t (p.exec t o).1 := by
  induction p generalizing o with
  | done r => rfl
  | get k ih => exact ih (some o) o
  | now k ih => exact ih t o
  | update rv v k ih =>
    simp only [bind, exec]
    cases o.update rv v with
    | none => exact ih false o
    | some o' => exact ih true o'

theorem exec_retry_ok {ε α : Type*} (t : Int) (n : Nat) (p : Client Obj (Except ε α))
    (o o' : Versioned Obj) (a : α) (h : p.exec t o = (o', .ok a)) :
    (retry n p).exec t o = (o', .ok a) := by
  cases n with
  | zero => exact h
  | succ n => simp only [retry, exec_bind, h, exec]

end Client

/-- Clients share the object and the clock. `reads` and `commits` only record
what happened: the copies each client was given, newest first, and the clients
whose updates were applied, in order. -/
structure System (ι Obj ρ : Type*) where
  store : Versioned Obj
  clock : Int
  client : ι → Client Obj ρ
  reads : ι → List (Versioned Obj)
  commits : List ι

inductive Move (ι Obj : Type*) where
  | call (i : ι)
  | stale (i : ι) (copy : Versioned Obj)
  | fail (i : ι)
  | lost (i : ι)
  | tick (d : Nat)

def Move.client {ι Obj : Type*} : Move ι Obj → Option ι
  | .call i => some i
  | .stale i _ => some i
  | .fail i => some i
  | .lost i => some i
  | .tick _ => none

namespace System

variable {ι Obj ρ : Type*}

def start (o : Obj) (clock : Int) (client : ι → Client Obj ρ) : System ι Obj ρ :=
  ⟨⟨0, o⟩, clock, client, fun _ => [], []⟩

variable [DecidableEq ι]

def goto (s : System ι Obj ρ) (i : ι) (p : Client Obj ρ) : System ι Obj ρ :=
  { s with client := Function.update s.client i p }

def give (s : System ι Obj ρ) (i : ι) (copy : Versioned Obj) (p : Client Obj ρ) : System ι Obj ρ :=
  { s with client := Function.update s.client i p
           reads := Function.update s.reads i (copy :: s.reads i) }

def commit (s : System ι Obj ρ) (i : ι) (o : Versioned Obj) (p : Client Obj ρ) : System ι Obj ρ :=
  { s with store := o
           client := Function.update s.client i p
           commits := s.commits ++ [i] }

/-- `call` is answered as the server answers it; `stale` serves a read from an
older version; `fail` loses a call before it takes effect and `lost` loses the
answer of an update that was applied. -/
def step (s : System ι Obj ρ) : Move ι Obj → Option (System ι Obj ρ)
  | .tick d => some { s with clock := s.clock + d }
  | .call i =>
    match s.client i with
    | .done _ => none
    | .get k => some (s.give i s.store (k (some s.store)))
    | .now k => some (s.goto i (k s.clock))
    | .update rv o k =>
      match s.store.update rv o with
      | some o' => some (s.commit i o' (k true))
      | none => some (s.goto i (k false))
  | .stale i copy =>
    match s.client i with
    | .get k =>
      if copy.resourceVersion < s.store.resourceVersion then
        some (s.give i copy (k (some copy)))
      else none
    | _ => none
  | .fail i =>
    match s.client i with
    | .get k => some (s.goto i (k none))
    | .update _ _ k => some (s.goto i (k false))
    | _ => none
  | .lost i =>
    match s.client i with
    | .update rv o k => (s.store.update rv o).map fun o' => s.commit i o' (k false)
    | _ => none

/-- Everything one step can do to the shared state and to the client it moves. -/
inductive Effect (s : System ι Obj ρ) : Move ι Obj → System ι Obj ρ → Prop where
  | tick (d : Nat) : Effect s (.tick d) { s with clock := s.clock + d }
  | read (i : ι) (k) (hi : s.client i = .get k) :
      Effect s (.call i) (s.give i s.store (k (some s.store)))
  | readStale (i : ι) (k) (copy : Versioned Obj) (hi : s.client i = .get k)
      (hc : copy.resourceVersion < s.store.resourceVersion) :
      Effect s (.stale i copy) (s.give i copy (k (some copy)))
  | readFail (i : ι) (k) (hi : s.client i = .get k) : Effect s (.fail i) (s.goto i (k none))
  | clock (i : ι) (k) (hi : s.client i = .now k) : Effect s (.call i) (s.goto i (k s.clock))
  | write (i : ι) (o : Obj) (k) (hi : s.client i = .update s.store.resourceVersion o k) :
      Effect s (.call i) (s.commit i ⟨s.store.resourceVersion + 1, o⟩ (k true))
  | writeLost (i : ι) (o : Obj) (k) (hi : s.client i = .update s.store.resourceVersion o k) :
      Effect s (.lost i) (s.commit i ⟨s.store.resourceVersion + 1, o⟩ (k false))
  | refuse (i : ι) (rv : Nat) (o : Obj) (k) (hi : s.client i = .update rv o k)
      (hrv : rv ≠ s.store.resourceVersion) : Effect s (.call i) (s.goto i (k false))
  | writeFail (i : ι) (rv : Nat) (o : Obj) (k) (hi : s.client i = .update rv o k) :
      Effect s (.fail i) (s.goto i (k false))

theorem step_effect {s s' : System ι Obj ρ} {m : Move ι Obj} (h : s.step m = some s') :
    Effect s m s' := by
  cases m with
  | tick d =>
    obtain rfl := Option.some.inj h
    exact .tick d
  | call i =>
    simp only [step] at h
    cases hi : s.client i with
    | done r => simp [hi] at h
    | get k =>
      simp only [hi, Option.some.injEq] at h
      exact h ▸ .read i k hi
    | now k =>
      simp only [hi, Option.some.injEq] at h
      exact h ▸ .clock i k hi
    | update rv o k =>
      simp only [hi] at h
      cases hu : s.store.update rv o with
      | none =>
        simp only [hu, Option.some.injEq] at h
        exact h ▸ .refuse i rv o k hi ((Versioned.update_eq_none ..).mp hu)
      | some o' =>
        simp only [hu, Option.some.injEq] at h
        obtain ⟨rfl, rfl⟩ := (Versioned.update_eq_some ..).mp hu
        exact h ▸ .write i o k hi
  | stale i copy =>
    simp only [step] at h
    cases hi : s.client i with
    | get k =>
      simp only [hi] at h
      split at h
      · exact Option.some.inj h ▸ .readStale i k copy hi ‹_›
      · cases h
    | done _ => simp [hi] at h
    | now _ => simp [hi] at h
    | update _ _ _ => simp [hi] at h
  | fail i =>
    simp only [step] at h
    cases hi : s.client i with
    | get k =>
      simp only [hi, Option.some.injEq] at h
      exact h ▸ .readFail i k hi
    | update rv o k =>
      simp only [hi, Option.some.injEq] at h
      exact h ▸ .writeFail i rv o k hi
    | done _ => simp [hi] at h
    | now _ => simp [hi] at h
  | lost i =>
    simp only [step] at h
    cases hi : s.client i with
    | update rv o k =>
      simp only [hi, Option.map_eq_some_iff] at h
      obtain ⟨o', hu, rfl⟩ := h
      obtain ⟨rfl, rfl⟩ := (Versioned.update_eq_some ..).mp hu
      exact .writeLost i o k hi
    | done _ => simp [hi] at h
    | get _ => simp [hi] at h
    | now _ => simp [hi] at h

theorem step_store {s s' : System ι Obj ρ} {m : Move ι Obj} (h : s.step m = some s') :
    s'.store = s.store ∧ s'.commits = s.commits ∨
      ∃ i v k, s.client i = .update s.store.resourceVersion v k ∧ (m = .call i ∨ m = .lost i) ∧
        s'.store = ⟨s.store.resourceVersion + 1, v⟩ ∧ s'.commits = s.commits ++ [i] := by
  cases step_effect h with
  | tick d => exact .inl ⟨rfl, rfl⟩
  | read i k hi => exact .inl ⟨rfl, rfl⟩
  | readStale i k copy hi hc => exact .inl ⟨rfl, rfl⟩
  | readFail i k hi => exact .inl ⟨rfl, rfl⟩
  | clock i k hi => exact .inl ⟨rfl, rfl⟩
  | write i v k hi => exact .inr ⟨i, v, k, hi, .inl rfl, rfl, rfl⟩
  | writeLost i v k hi => exact .inr ⟨i, v, k, hi, .inr rfl, rfl, rfl⟩
  | refuse i rv v k hi hrv => exact .inl ⟨rfl, rfl⟩
  | writeFail i rv v k hi => exact .inl ⟨rfl, rfl⟩

theorem step_other {s s' : System ι Obj ρ} {m : Move ι Obj} (h : s.step m = some s') {j : ι}
    (hj : m.client ≠ some j) : s'.client j = s.client j ∧ s'.reads j = s.reads j := by
  have hne {i : ι} (hi : m.client = some i) : j ≠ i := by
    rintro rfl
    exact hj hi
  cases step_effect h with
  | tick d => exact ⟨rfl, rfl⟩
  | read i k hi => simp [give, hne rfl]
  | readStale i k copy hi hc => simp [give, hne rfl]
  | readFail i k hi => simp [goto, hne rfl]
  | clock i k hi => simp [goto, hne rfl]
  | write i v k hi => simp [commit, hne rfl]
  | writeLost i v k hi => simp [commit, hne rfl]
  | refuse i rv v k hi hrv => simp [goto, hne rfl]
  | writeFail i rv v k hi => simp [goto, hne rfl]

theorem run_unmoved {s s' : System ι Obj ρ} {ms : List (Move ι Obj)} {j : ι}
    (h : run step s ms = some s') (hj : ∀ m ∈ ms, m.client ≠ some j) :
    s'.client j = s.client j := by
  refine run_invariant_along (fun t => t.client j = s.client j) ?_ rfl
    (.of_forall hj) h
  intro t m t' ht hm hstep
  rw [(step_other hstep hm).1, ht]

theorem step_moves {s s' : System ι Obj ρ} {m : Move ι Obj} (h : s.step m = some s') {i : ι}
    (hm : m.client = some i) (r : ρ) : s.client i ≠ .done r := by
  intro hr
  cases m with
  | tick d => cases hm
  | call j =>
    obtain rfl : j = i := Option.some.inj hm
    simp [step, hr] at h
  | stale j copy =>
    obtain rfl : j = i := Option.some.inj hm
    simp [step, hr] at h
  | fail j =>
    obtain rfl : j = i := Option.some.inj hm
    simp [step, hr] at h
  | lost j =>
    obtain rfl : j = i := Option.some.inj hm
    simp [step, hr] at h

theorem step_done {s s' : System ι Obj ρ} {m : Move ι Obj} (h : s.step m = some s') {i : ι} {r : ρ}
    (hi : s.client i = .done r) : s'.client i = .done r := by
  have hm : m.client ≠ some i := fun hm => step_moves h hm r hi
  rw [(step_other h hm).1, hi]

theorem run_done {s s' : System ι Obj ρ} {ms : List (Move ι Obj)} (h : run step s ms = some s')
    {i : ι} {r : ρ} (hi : s.client i = .done r) : s'.client i = .done r :=
  run_invariant (fun s => s.client i = .done r) (fun _ _ _ hi h => step_done h hi) hi h

end System

end OpenEverest.Framework
