import OpenEverest.Framework.Versioned
import Mathlib.Data.List.AList

/-!
# Programs that edit stored objects

A program lists the objects of a store, edits some of them and issues a call. An edit reads an
object and writes back what it makes of it, and the write is refused when the object has
changed in between. Others change the store between any two calls, and any call may fail or
lose its answer. What a program ensures is read off its calls.
-/

namespace OpenEverest.Framework

/-- An edit is two calls, a read and a write of what is made of the copy. -/
inductive Editor (κ Obj ρ : Type) where
  | done (r : ρ)
  | list (k : Option (List (κ × Obj)) → Editor κ Obj ρ)
  | edit (key : κ) (f : Obj → Obj) (k : Bool → Editor κ Obj ρ)
  | issue (k : Bool → Editor κ Obj ρ)

namespace Editor

variable {κ Obj ρ ρ' : Type}

def bind : Editor κ Obj ρ → (ρ → Editor κ Obj ρ') → Editor κ Obj ρ'
  | .done r, g => g r
  | .list k, g => .list fun items => (k items).bind g
  | .edit key f k, g => .edit key f fun ok => (k ok).bind g
  | .issue k, g => .issue fun ok => (k ok).bind g

/-- Run the program again while it fails, at most `n` more times. -/
def retry : Nat → Editor κ Obj Bool → Editor κ Obj Bool
  | 0, p => p
  | n + 1, p => p.bind fun ok => if ok then .done true else retry n p

/-- A write that was stored, with the object it replaced and what the program had listed. -/
structure Written (κ Obj : Type) where
  key : κ
  before : Obj
  after : Obj
  listed : Option (List (κ × Obj))

/-- What a program was given when it listed, and what it has stored. -/
structure Progress (κ Obj : Type) where
  listed : Option (List (κ × Obj)) := none
  writes : List (Written κ Obj) := []

/-- The progress made, and the one made when the call was issued. -/
structure History (κ Obj : Type) where
  progress : Progress κ Obj := {}
  issued : Option (Progress κ Obj) := none

/-- In the middle of an edit there is the copy it has read. -/
structure System (κ Obj ρ : Type) where
  store : AList fun _ : κ => Versioned Obj
  revision : Nat
  client : Editor κ Obj ρ
  copy : Option (Versioned Obj) := none
  history : History κ Obj := {}

/-- `lost` is a write that was stored and whose answer did not arrive. The last two are moves
of others. -/
inductive Move (κ Obj : Type) where
  | call
  | fail
  | lost
  | put (key : κ) (o : Obj)
  | remove (key : κ)

namespace History

variable (h : History κ Obj)

def list (items : List (κ × Obj)) : History κ Obj :=
  { h with progress := { h.progress with listed := some items } }

def written (key : κ) (before after : Obj) : Written κ Obj :=
  ⟨key, before, after, h.progress.listed⟩

def write (w : Written κ Obj) : History κ Obj :=
  { h with progress := { h.progress with writes := h.progress.writes ++ [w] } }

def issue : History κ Obj := { h with issued := some h.progress }

end History

namespace System

variable [DecidableEq κ]

def goto (s : System κ Obj ρ) (p : Editor κ Obj ρ) : System κ Obj ρ :=
  { s with client := p, copy := none }

def items (s : System κ Obj ρ) : List (κ × Obj) := s.store.entries.map fun e => (e.1, e.2.value)

def put (s : System κ Obj ρ) (key : κ) (o : Obj) : System κ Obj ρ :=
  { s with store := s.store.insert key ⟨s.revision + 1, o⟩, revision := s.revision + 1 }

def writeBack (s : System κ Obj ρ) (key : κ) (copy : Versioned Obj) (f : Obj → Obj) :
    Option (System κ Obj ρ) :=
  match s.store.lookup key with
  | none => none
  | some o =>
    if o.resourceVersion = copy.resourceVersion then
      some { s.put key (f copy.value) with
        history := s.history.write (s.history.written key o.value (f copy.value)) }
    else none

def step (s : System κ Obj ρ) : Move κ Obj → Option (System κ Obj ρ)
  | .put key o => some (s.put key o)
  | .remove key => some { s with store := s.store.erase key }
  | .call =>
    match s.client with
    | .done _ => none
    | .list k => some { s.goto (k (some s.items)) with history := s.history.list s.items }
    | .edit key f k =>
      match s.copy with
      | none =>
        match s.store.lookup key with
        | none => some (s.goto (k false))
        | some copy => some { s with copy := some copy }
      | some copy =>
        match s.writeBack key copy f with
        | none => some (s.goto (k false))
        | some s' => some (s'.goto (k true))
    | .issue k => some { s.goto (k true) with history := s.history.issue }
  | .fail =>
    match s.client with
    | .done _ => none
    | .list k => some (s.goto (k none))
    | .edit _ _ k => some (s.goto (k false))
    | .issue k => some { s.goto (k false) with history := s.history.issue }
  | .lost =>
    match s.client, s.copy with
    | .edit key f k, some copy => (s.writeBack key copy f).map fun s' => s'.goto (k false)
    | _, _ => none

end System

/-- What holds of each stored object, which writes may be made, and when the call may be
issued. -/
structure Contract (κ Obj : Type) where
  inv : κ → Obj → Prop
  allowed : Written κ Obj → Prop
  ready : Progress κ Obj → Prop

variable (c : Contract κ Obj)

/-- From this history on the program keeps to the contract, and what it returns meets `Q`.
Whether or not a write is answered, it may have been stored. -/
def Ensures (Q : ρ → History κ Obj → Prop) : Editor κ Obj ρ → History κ Obj → Prop
  | .done r, h => Q r h
  | .list k, h => Ensures Q (k none) h ∧
      ∀ items : List (κ × Obj), (∀ e ∈ items, c.inv e.1 e.2) → Ensures Q (k (some items)) (h.list items)
  | .edit key f k, h => Ensures Q (k false) h ∧
      ∀ o, c.inv key o → c.inv key (f o) ∧ c.allowed (h.written key o (f o)) ∧
        ∀ ok, Ensures Q (k ok) (h.write (h.written key o (f o)))
  | .issue k, h => c.ready h.progress ∧ ∀ ok, Ensures Q (k ok) h.issue

variable {c}

theorem ensures_bind {Q : ρ → History κ Obj → Prop} {Q' : ρ' → History κ Obj → Prop}
    {p : Editor κ Obj ρ} {g : ρ → Editor κ Obj ρ'} {h : History κ Obj} (hp : Ensures c Q p h)
    (hg : ∀ r h', Q r h' → Ensures c Q' (g r) h') : Ensures c Q' (p.bind g) h := by
  induction p generalizing h with
  | done r => exact hg r h hp
  | list k ih =>
    refine ⟨ih none hp.1, ?_⟩
    intro items hitems
    exact ih (some items) (hp.2 items hitems)
  | edit key f k ih =>
    refine ⟨ih false hp.1, ?_⟩
    intro o ho
    obtain ⟨hinv, hallowed, hrest⟩ := hp.2 o ho
    exact ⟨hinv, hallowed, fun ok => ih ok (hrest ok)⟩
  | issue k ih => exact ⟨hp.1, fun ok => ih ok (hp.2 ok)⟩

theorem Ensures.imp {Q Q' : ρ → History κ Obj → Prop} {p : Editor κ Obj ρ} {h : History κ Obj}
    (hp : Ensures c Q p h) (hQ : ∀ r h', Q r h' → Q' r h') : Ensures c Q' p h := by
  induction p generalizing h with
  | done r => exact hQ r h hp
  | list k ih =>
    refine ⟨ih none hp.1, ?_⟩
    intro items hitems
    exact ih (some items) (hp.2 items hitems)
  | edit key f k ih =>
    refine ⟨ih false hp.1, ?_⟩
    intro o ho
    obtain ⟨hinv, hallowed, hrest⟩ := hp.2 o ho
    exact ⟨hinv, hallowed, fun ok => ih ok (hrest ok)⟩
  | issue k ih => exact ⟨hp.1, fun ok => ih ok (hp.2 ok)⟩

/-- A program that is retried ensures what holds whenever it ends, and the last time also
what holds when it succeeds. -/
theorem ensures_retry {I : History κ Obj → Prop} {Q : Bool → History κ Obj → Prop}
    {p : Editor κ Obj Bool} (hp : ∀ h, I h → Ensures c (fun ok h' => I h' ∧ Q ok h') p h) (n : Nat)
    {h : History κ Obj} (hI : I h) : Ensures c (fun ok h' => I h' ∧ Q ok h') (retry n p) h := by
  induction n generalizing h with
  | zero => exact hp h hI
  | succ n ih =>
    refine ensures_bind (hp h hI) ?_
    rintro ok h' ⟨hI', hQ⟩
    cases ok with
    | true => exact ⟨hI', hQ⟩
    | false => exact ih hI'

/-- The objects meet the invariant, a copy is an earlier state of its object, and the program
ensures the contract from here on, as it did so far. -/
structure Sound [DecidableEq κ] (c : Contract κ Obj) (Q : ρ → History κ Obj → Prop)
    (s : System κ Obj ρ) : Prop where
  fresh : ∀ key o, s.store.lookup key = some o → o.resourceVersion ≤ s.revision
  inv : ∀ key o, s.store.lookup key = some o → c.inv key o.value
  held : ∀ copy, s.copy = some copy → ∀ key f k, s.client = .edit key f k →
    copy.resourceVersion ≤ s.revision ∧
      ∀ o, s.store.lookup key = some o → o.resourceVersion = copy.resourceVersion → o = copy
  ensures : Ensures c Q s.client s.history
  writes : ∀ w ∈ s.history.progress.writes, c.allowed w
  issued : ∀ progress, s.history.issued = some progress → c.ready progress

/-- What others may do. -/
def Move.Keeps (c : Contract κ Obj) : Move κ Obj → Prop
  | .put key o => c.inv key o
  | _ => True

section Soundness

variable [DecidableEq κ] {Q : ρ → History κ Obj → Prop} {s : System κ Obj ρ}

theorem System.lookup_put (s : System κ Obj ρ) (key : κ) (o : Obj) (other : κ) :
    (s.put key o).store.lookup other =
      if other = key then some ⟨s.revision + 1, o⟩ else s.store.lookup other := by
  unfold System.put
  by_cases hkey : other = key
  · rw [if_pos hkey, hkey, AList.lookup_insert]
  · rw [if_neg hkey, AList.lookup_insert_ne hkey]

theorem mem_items {key : κ} {o : Obj} (h : (key, o) ∈ s.items) :
    ∃ copy, s.store.lookup key = some copy ∧ copy.value = o := by
  obtain ⟨⟨k, copy⟩, hmem, heq⟩ := List.mem_map.mp h
  cases heq
  exact ⟨copy, AList.mem_lookup_iff.mpr hmem, rfl⟩

theorem System.writeBack_eq_some {key : κ} {copy : Versioned Obj} {f : Obj → Obj}
    {t : System κ Obj ρ} (h : s.writeBack key copy f = some t) :
    ∃ o, s.store.lookup key = some o ∧ o.resourceVersion = copy.resourceVersion ∧
      t = { s.put key (f copy.value) with
        history := s.history.write (s.history.written key o.value (f copy.value)) } := by
  unfold System.writeBack at h
  split at h
  · cases h
  · rename_i o ho
    split at h
    · rename_i hversion
      exact ⟨o, ho, hversion, (Option.some.inj h).symm⟩
    · cases h

namespace Sound

theorem goto (hs : Sound c Q s) {p : Editor κ Obj ρ} {h : History κ Obj} (hp : Ensures c Q p h)
    (hwrites : ∀ w ∈ h.progress.writes, c.allowed w)
    (hissued : ∀ progress, h.issued = some progress → c.ready progress) :
    Sound c Q { s.goto p with history := h } where
  fresh := hs.fresh
  inv := hs.inv
  held copy hcopy := by cases hcopy
  ensures := hp
  writes := hwrites
  issued := hissued

theorem put (hs : Sound c Q s) {key : κ} {o : Obj} (ho : c.inv key o) :
    Sound c Q (s.put key o) := by
  refine ⟨?_, ?_, ?_, hs.ensures, hs.writes, hs.issued⟩
  · intro other copy hcopy
    rw [System.lookup_put] at hcopy
    split at hcopy
    · cases hcopy
      exact Nat.le_refl _
    · exact Nat.le_succ_of_le (hs.fresh other copy hcopy)
  · intro other copy hcopy
    rw [System.lookup_put] at hcopy
    split at hcopy
    · rename_i hkey
      cases hcopy
      rw [hkey]
      exact ho
    · exact hs.inv other copy hcopy
  · intro copy hcopy held f k hclient
    obtain ⟨hle, hsame⟩ := hs.held copy hcopy held f k hclient
    refine ⟨Nat.le_succ_of_le hle, ?_⟩
    intro o' ho' hversion
    rw [System.lookup_put] at ho'
    split at ho'
    -- The object is at a version of its own, later than the copy.
    · cases ho'
      simp only at hversion
      omega
    · exact hsame o' ho' hversion

theorem erase (hs : Sound c Q s) (key : κ) :
    Sound c Q { s with store := s.store.erase key } := by
  have hlookup : ∀ other o, (s.store.erase key).lookup other = some o →
      s.store.lookup other = some o := by
    intro other o ho
    by_cases hkey : other = key
    · rw [hkey, AList.lookup_erase] at ho
      cases ho
    · rwa [AList.lookup_erase_ne hkey] at ho
  refine ⟨?_, ?_, ?_, hs.ensures, hs.writes, hs.issued⟩
  · intro other o ho
    exact hs.fresh other o (hlookup other o ho)
  · intro other o ho
    exact hs.inv other o (hlookup other o ho)
  · intro copy hcopy held f k hclient
    obtain ⟨hle, hsame⟩ := hs.held copy hcopy held f k hclient
    exact ⟨hle, fun o ho => hsame o (hlookup held o ho)⟩

/-- The copy is what the object is, so that its write is one the program ensures. -/
theorem writeBack (hs : Sound c Q s) {key : κ} {f : Obj → Obj} {k : Bool → Editor κ Obj ρ}
    {copy : Versioned Obj} (hclient : s.client = .edit key f k) (hcopy : s.copy = some copy)
    {t : System κ Obj ρ} (ht : s.writeBack key copy f = some t) (ok : Bool) :
    Sound c Q (t.goto (k ok)) := by
  obtain ⟨o, ho, hversion, rfl⟩ := System.writeBack_eq_some ht
  obtain rfl : o = copy := (hs.held copy hcopy key f k hclient).2 o ho hversion
  have hensures := hs.ensures
  rw [hclient] at hensures
  obtain ⟨hinv, hallowed, hrest⟩ := hensures.2 o.value (hs.inv key o ho)
  have hput := hs.put hinv
  apply hput.goto (hrest ok) ?_ hs.issued
  intro w hw
  rcases List.mem_append.mp hw with hw | hw
  · exact hs.writes w hw
  · rw [List.mem_singleton.mp hw]
    exact hallowed

theorem read (hs : Sound c Q s) {key : κ} {f : Obj → Obj} {k : Bool → Editor κ Obj ρ}
    {copy : Versioned Obj} (hclient : s.client = .edit key f k)
    (ho : s.store.lookup key = some copy) : Sound c Q { s with copy := some copy } := by
  refine ⟨hs.fresh, hs.inv, ?_, hs.ensures, hs.writes, hs.issued⟩
  intro copy' hcopy' key' f' k' hclient'
  obtain rfl := Option.some.inj hcopy'
  obtain ⟨rfl, -, -⟩ := Editor.edit.inj (hclient.symm.trans hclient')
  refine ⟨hs.fresh key copy ho, ?_⟩
  intro o ho' _
  exact Option.some.inj (ho'.symm.trans ho)

theorem issue (hs : Sound c Q s) {k : Bool → Editor κ Obj ρ} (hclient : s.client = .issue k)
    (ok : Bool) : Sound c Q { s.goto (k ok) with history := s.history.issue } := by
  have hensures := hs.ensures
  rw [hclient] at hensures
  refine hs.goto (hensures.2 ok) hs.writes ?_
  intro progress hprogress
  rw [← Option.some.inj hprogress]
  exact hensures.1

/-- Each move of the program, and each of the others that keeps the objects as they have to be,
leaves the system sound. -/
theorem step (hs : Sound c Q s) {m : Move κ Obj} (hm : m.Keeps c) {t : System κ Obj ρ}
    (ht : s.step m = some t) : Sound c Q t := by
  have hensures := hs.ensures
  cases m with
  | put key o =>
    obtain rfl := Option.some.inj ht
    exact hs.put hm
  | remove key =>
    obtain rfl := Option.some.inj ht
    exact hs.erase key
  | call =>
    simp only [System.step] at ht
    split at ht
    · cases ht
    · rename_i k hclient
      rw [hclient] at hensures
      obtain rfl := Option.some.inj ht
      refine hs.goto (hensures.2 s.items ?_) hs.writes hs.issued
      rintro ⟨key, o⟩ hmem
      obtain ⟨copy, hcopy, rfl⟩ := mem_items hmem
      exact hs.inv key copy hcopy
    · rename_i key f k hclient
      rw [hclient] at hensures
      split at ht
      · split at ht
        · obtain rfl := Option.some.inj ht
          exact hs.goto hensures.1 hs.writes hs.issued
        · rename_i copy ho
          obtain rfl := Option.some.inj ht
          exact hs.read hclient ho
      · rename_i copy hcopy
        split at ht
        · obtain rfl := Option.some.inj ht
          exact hs.goto hensures.1 hs.writes hs.issued
        · rename_i u hu
          obtain rfl := Option.some.inj ht
          exact hs.writeBack hclient hcopy hu true
    · rename_i k hclient
      obtain rfl := Option.some.inj ht
      exact hs.issue hclient true
  | fail =>
    simp only [System.step] at ht
    split at ht
    · cases ht
    all_goals
      rename_i hclient
      obtain rfl := Option.some.inj ht
    · rw [hclient] at hensures
      exact hs.goto hensures.1 hs.writes hs.issued
    · rw [hclient] at hensures
      exact hs.goto hensures.1 hs.writes hs.issued
    · exact hs.issue hclient false
  | lost =>
    simp only [System.step] at ht
    split at ht
    · rename_i key f k copy hclient hcopy
      obtain ⟨u, hu, rfl⟩ := Option.map_eq_some_iff.mp ht
      exact hs.writeBack hclient hcopy hu false
    · cases ht

theorem run (hs : Sound c Q s) {ms : List (Move κ Obj)} (hms : ∀ m ∈ ms, m.Keeps c)
    {t : System κ Obj ρ} (ht : Framework.run System.step s ms = some t) : Sound c Q t := by
  induction ms generalizing s with
  | nil =>
    obtain rfl : s = t := by simpa using ht
    exact hs
  | cons m ms ih =>
    obtain ⟨u, hu, ht⟩ := (run_cons_eq_some ..).mp ht
    have hm := hms m List.mem_cons_self
    exact ih (hs.step hm hu) (fun m' hm' => hms m' (List.mem_cons_of_mem m hm')) ht

end Sound

end Soundness

end Editor

end OpenEverest.Framework
