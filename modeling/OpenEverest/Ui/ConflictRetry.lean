import OpenEverest.Framework.Linearization
import OpenEverest.Ui.DbCluster

/-!
# Sending an edit again after a conflict

On a refused update the hook reads the cluster again and sends the object it
had, with the metadata just read. The version check then passes whatever was
stored in between.
-/

namespace OpenEverest.Ui

open Framework Api

section Hook

variable {F V : Type}

/-- `UPDATE_RETRY_TIMEOUT_MS`. -/
def updateRetryTimeoutMs : Int := 5000

abbrev Mutation (F V : Type) := Client (StoredCluster F V) (Except Unit Unit)

/-- `watchStartTime.current`, set at the first conflict, and the time now. -/
def watch (watchStartTime : Option Int) (k : Int → Int → Mutation F V) : Mutation F V :=
  match watchStartTime with
  | none => .now fun start => .now fun now => k start now
  | some start => .now fun now => k start now

/-- `mutate` of `useUpdateDbClusterWithConflictRetry`, with at most `n` retries. -/
def mutate (tz : TimeZone) : Nat → Option Int → DbCluster F V → Mutation F V
  | 0, _, dbCluster =>
    .update dbCluster.metadata.resourceVersion (updateDbCluster tz dbCluster) fun ok =>
      .done (if ok then .ok () else .error ())
  | n + 1, watchStartTime, dbCluster =>
    .update dbCluster.metadata.resourceVersion (updateDbCluster tz dbCluster) fun
      | true => .done (.ok ())
      | false => watch watchStartTime fun start now =>
        if now - start > updateRetryTimeoutMs then .done (.error ())
        else .get fun
          | none => .done (.error ())
          | some data =>
            let freshDbCluster := mergeNewDbClusterData tz data
            mutate tz n (some start) { dbCluster with metadata := freshDbCluster.metadata }

end Hook

section Runs

variable {ι F V : Type} [DecidableEq ι] (tz : ι → TimeZone) (edit : ι → Edit F V)
  (retries : ι → Nat) (o : StoredCluster F V)

def mutation (i : ι) : Mutation F V :=
  mutate (tz i) (retries i) none ((edit i).apply (mergeNewDbClusterData (tz i) ⟨0, o⟩))

def ApiAnswers (s : System ι (StoredCluster F V) (Except Unit Unit)) :
    Move ι (StoredCluster F V) → Prop
  | .lost _ => False
  | .fail i => ∀ rv v k, s.client i ≠ .update rv v k
  | _ => True

/-- When every mutation has reported success, the stored cluster contains all edits. -/
def EditsStored (s : System ι (StoredCluster F V) (Except Unit Unit)) : Prop :=
  (∀ i, s.client i = .done (.ok ())) → ∀ i, (edit i).StoredIn (tz i) s.store.value

/-- An update that is applied after another one finds the annotations of its edit
stored already, and the other edit has changed nothing of the spec. -/
def EditsApart (s : System ι (StoredCluster F V) (Except Unit Unit))
    (m : Move ι (StoredCluster F V)) : Prop :=
  ∀ i v k, m = .call i → s.client i = .update s.store.resourceVersion v k → ∀ c ∈ s.commits,
    (edit i).AnnotationsIn s.store.value.annotations ∧
      (edit c).KeepsSpec (tz c) (tz i) o.spec

end Runs

section Sends

variable {F V : Type} (tz : TimeZone)

theorem mutate_first (n : Nat) (watchStartTime : Option Int) (dbCluster : DbCluster F V) :
    ∃ k, mutate tz n watchStartTime dbCluster =
      .update dbCluster.metadata.resourceVersion (updateDbCluster tz dbCluster) k := by
  cases n with
  | zero => exact ⟨_, rfl⟩
  | succ n => exact ⟨_, rfl⟩

theorem watch_writesLast (watchStartTime : Option Int) {k : Int → Int → Mutation F V}
    (h : ∀ start now, WritesLast (k start now)) : WritesLast (watch watchStartTime k) := by
  cases watchStartTime with
  | none => exact .now fun start => .now fun now => h start now
  | some start => exact .now fun now => h start now

theorem mutate_writesLast (n : Nat) (watchStartTime : Option Int) (dbCluster : DbCluster F V) :
    WritesLast (mutate tz n watchStartTime dbCluster) := by
  induction n generalizing watchStartTime dbCluster with
  | zero => exact .update rfl (.error _)
  | succ n ih =>
    refine .update rfl (watch_writesLast _ fun start now => ?_)
    split
    · exact .error _
    · refine .get fun copy => ?_
      cases copy with
      | none => exact .error _
      | some data => exact ih _ _

/-- The first update is the edited object; every other has the metadata last read. -/
def SendsEdit (e : Edit F V) (o : StoredCluster F V) (reads : List (Versioned (StoredCluster F V)))
    (rv : Nat) (v : StoredCluster F V) : Prop :=
  match reads with
  | [] => rv = 0 ∧ v = e.sent tz ⟨0, o⟩
  | copy :: _ => rv = copy.resourceVersion ∧
      v = ⟨copy.value.annotations, (e.sent tz ⟨0, o⟩).spec⟩

theorem watch_sends {Φ : List (Versioned (StoredCluster F V)) → Nat → StoredCluster F V → Prop}
    {reads : List (Versioned (StoredCluster F V))} (watchStartTime : Option Int)
    {k : Int → Int → Mutation F V} (h : ∀ start now, Sends Φ reads (k start now)) :
    Sends Φ reads (watch watchStartTime k) := by
  cases watchStartTime with
  | none => exact .now fun start => .now fun now => h start now
  | some start => exact .now fun now => h start now

theorem mutate_sends (e : Edit F V) (o : StoredCluster F V) (n : Nat) (watchStartTime : Option Int)
    (dbCluster : DbCluster F V) (reads : List (Versioned (StoredCluster F V)))
    (hspec : (updateDbCluster tz dbCluster).spec = (e.sent tz ⟨0, o⟩).spec)
    (hsend : SendsEdit tz e o reads dbCluster.metadata.resourceVersion
      (updateDbCluster tz dbCluster)) :
    Sends (SendsEdit tz e o) reads (mutate tz n watchStartTime dbCluster) := by
  induction n generalizing watchStartTime dbCluster reads with
  | zero => exact .update hsend fun ok => .done _
  | succ n ih =>
    refine .update hsend fun ok => ?_
    cases ok with
    | true => exact .done _
    | false =>
      refine watch_sends _ fun start now => ?_
      split
      · exact .done _
      · refine .get (.done _) fun data => ih _ _ _ hspec ⟨rfl, ?_⟩
        exact congrArg (StoredCluster.mk data.value.annotations) hspec

end Sends

section Stored

variable {ι F V : Type} [DecidableEq ι] (tz : ι → TimeZone) (edit : ι → Edit F V)
  (retries : ι → Nat) (o : StoredCluster F V)

/-- Where every update applied so far kept the edits apart. -/
structure Retrying (s : System ι (StoredCluster F V) (Except Unit Unit)) : Prop where
  committed : Committed s
  tracked : Tracked (fun i => SendsEdit (tz i) (edit i) o) s
  version : s.store.resourceVersion = s.commits.length
  unmoved : s.commits = [] → ∀ i, s.client i = mutation tz edit retries o i ∧ s.reads i = []
  stored : ∀ c ∈ s.commits, (edit c).StoredIn (tz c) s.store.value

omit [DecidableEq ι] in
theorem retrying_start (clock : Int) :
    Retrying tz edit retries o (.start o clock (mutation tz edit retries o)) := by
  refine ⟨?_, ?_, rfl, fun _ i => ⟨rfl, rfl⟩, fun c hc => nomatch hc⟩
  · exact ⟨List.nodup_nil, fun i => .inr ⟨List.not_mem_nil, mutate_writesLast ..⟩⟩
  · exact .start fun i => mutate_sends _ _ _ _ _ _ _ rfl ⟨rfl, rfl⟩

namespace Retrying

variable {tz edit retries o} {s s' : System ι (StoredCluster F V) (Except Unit Unit)}
  {m : Move ι (StoredCluster F V)}

omit [DecidableEq ι] in
/-- The first update applied is the edited object of its client, and every other
is that object under the annotations stored. -/
theorem applied (h : Retrying tz edit retries o s) {i : ι} {v : StoredCluster F V}
    {k : Bool → Mutation F V} (hi : s.client i = .update s.store.resourceVersion v k) :
    s.commits = [] ∧ v = (edit i).sent (tz i) ⟨0, o⟩ ∨
    s.commits ≠ [] ∧
      v = ⟨s.store.value.annotations, ((edit i).sent (tz i) ⟨0, o⟩).spec⟩ := by
  cases h.tracked.sends_at hi with
  | update hsend _ =>
    cases hreads : s.reads i with
    | nil =>
      obtain ⟨hrv, hv⟩ : _ ∧ _ := by simpa only [hreads, SendsEdit] using hsend
      have hempty : s.commits = [] := List.length_eq_zero_iff.mp (h.version.symm.trans hrv)
      exact .inl ⟨hempty, hv⟩
    | cons copy older =>
      obtain ⟨hrv, hv⟩ : _ ∧ _ := by simpa only [hreads, SendsEdit] using hsend
      have hsnapshot := h.tracked.snapshot i copy (by simp [hreads])
      have hne : s.commits ≠ [] := by
        intro hempty
        simp [(h.unmoved hempty i).2] at hreads
      rw [hsnapshot.value_eq hrv.symm] at hv
      exact .inr ⟨hne, hv⟩

private theorem unmoved_step (h : Retrying tz edit retries o s) (hm : s.step m = some s')
    (hanswers : ApiAnswers s m) (hempty : s'.commits = []) (i : ι) :
    s'.client i = mutation tz edit retries o i ∧ s'.reads i = [] := by
  have hstill (hs : s.commits = []) (j : ι) : ∃ v k,
      s.client j = .update s.store.resourceVersion v k := by
    obtain ⟨k, hk⟩ := mutate_first (tz j) (retries j) none
      ((edit j).apply (mergeNewDbClusterData (tz j) ⟨0, o⟩))
    have hrv : s.store.resourceVersion = 0 := by rw [h.version, hs]; rfl
    refine ⟨(edit j).sent (tz j) ⟨0, o⟩, k, ?_⟩
    rw [(h.unmoved hs j).1, hrv]
    exact hk
  cases System.step_effect hm with
  | tick d => exact h.unmoved hempty i
  | read j k hj =>
    obtain ⟨v, k', hj'⟩ := hstill hempty j
    cases hj.symm.trans hj'
  | readStale j k copy hj _ =>
    obtain ⟨v, k', hj'⟩ := hstill hempty j
    cases hj.symm.trans hj'
  | readFail j k hj =>
    obtain ⟨v, k', hj'⟩ := hstill hempty j
    cases hj.symm.trans hj'
  | clock j k hj =>
    obtain ⟨v, k', hj'⟩ := hstill hempty j
    cases hj.symm.trans hj'
  | write j v k hj => simp [System.commit] at hempty
  | writeLost j v k hj => exact hanswers.elim
  | refuse j rv v k hj hrv =>
    obtain ⟨v', k', hj'⟩ := hstill hempty j
    obtain ⟨rfl, -, -⟩ := Client.update.inj (hj.symm.trans hj')
    exact absurd rfl hrv
  | writeFail j rv v k hj => exact absurd hj (hanswers rv v k)

private theorem stored_step (h : Retrying tz edit retries o s) (hm : s.step m = some s')
    (hdisjoint : ∀ i j, i ≠ j → (edit i).Disjoint (edit j)) (hanswers : ApiAnswers s m)
    (hapart : EditsApart tz edit o s m) :
    ∀ c ∈ s'.commits, (edit c).StoredIn (tz c) s'.store.value := by
  rcases System.step_store hm with ⟨hstore, hcommits⟩ | ⟨i, v, k, hi, hmove, hstore, hcommits⟩
  · rw [hstore, hcommits]
    exact h.stored
  · rw [hstore, hcommits]
    have hcall : m = .call i := by
      rcases hmove with rfl | rfl
      · rfl
      · exact hanswers.elim
    have hnot : i ∉ s.commits := (h.committed.writesLast_at hi (by simp)).1
    rcases h.applied hi with ⟨hempty, rfl⟩ | ⟨hne, rfl⟩
    · intro c hc
      obtain rfl : c = i := by simpa [hempty] using hc
      exact ⟨Edit.sent_spec .., Edit.sent_annotations _ _ _⟩
    · intro c hc
      rcases List.mem_append.mp hc with hc | hc
      · have hci : c ≠ i := fun he => hnot (he ▸ hc)
        have hkeeps := (hapart i _ k hcall hi c hc).2
        exact ⟨(Edit.specIn_sent_iff (hdisjoint c i hci) ..).mpr hkeeps,
          (h.stored c hc).annotations⟩
      · obtain rfl := List.mem_singleton.mp hc
        obtain ⟨c', hc'⟩ := List.exists_mem_of_ne_nil _ hne
        exact ⟨Edit.sent_spec .., (hapart c _ k hcall hi c' hc').1⟩

theorem step (h : Retrying tz edit retries o s) (hm : s.step m = some s')
    (hdisjoint : ∀ i j, i ≠ j → (edit i).Disjoint (edit j)) (hanswers : ApiAnswers s m)
    (hapart : EditsApart tz edit o s m) : Retrying tz edit retries o s' := by
  have hans : m.Answered := by
    cases m with
    | lost i => exact hanswers.elim
    | call i => trivial
    | stale i copy => trivial
    | fail i => trivial
    | tick d => trivial
  refine ⟨h.committed.step hm hans, h.tracked.step hm, ?_, h.unmoved_step hm hanswers,
    h.stored_step hm hdisjoint hanswers hapart⟩
  rcases System.step_store hm with ⟨hstore, hcommits⟩ | ⟨i, v, k, -, -, hstore, hcommits⟩
  · rw [hstore, hcommits]
    exact h.version
  · rw [hstore, hcommits, List.length_append, ← h.version]
    rfl

omit [DecidableEq ι] in
theorem editsStored (h : Retrying tz edit retries o s) : EditsStored tz edit s := by
  intro hall i
  exact h.stored i ((h.committed.mem_iff i).mpr ⟨(), hall i⟩)

theorem lost_of_not_apart (h : Retrying tz edit retries o s)
    (hdisjoint : ∀ i j, i ≠ j → (edit i).Disjoint (edit j))
    (hlast : ∀ i ∉ s.commits, ∀ c ∈ s.commits, ∀ j, j = i ∨ j ∈ s.commits)
    (hnot : ¬ EditsApart tz edit o s m) :
    ∃ t, s.step m = some t ∧ ¬ EditsStored tz edit t := by
  unfold EditsApart at hnot
  push Not at hnot
  obtain ⟨i, v, k, rfl, hi, c, hc, hlost⟩ := hnot
  obtain ⟨hni, hwrites⟩ := h.committed.writesLast_at hi (by simp)
  have hsuccess : k true = .done (.ok ()) := by
    cases hwrites with
    | update htrue _ => exact htrue
  refine ⟨s.commit i ⟨s.store.resourceVersion + 1, v⟩ (k true), ?_, ?_⟩
  · simp only [System.step, hi, Versioned.update_current]
  · intro hstored
    have hall : ∀ j, (s.commit i ⟨s.store.resourceVersion + 1, v⟩ (k true)).client j =
        .done (.ok ()) := by
      intro j
      by_cases hj : j = i
      · subst hj
        simpa [System.commit] using hsuccess
      · obtain ⟨a, ha⟩ := (h.committed.mem_iff j).mp ((hlast i hni c hc j).resolve_left hj)
        simpa [System.commit, hj] using ha
    rcases h.applied hi with ⟨hempty, -⟩ | ⟨-, rfl⟩
    · simp [hempty] at hc
    · have hci : c ≠ i := fun he => hni (he ▸ hc)
      refine hlost (hstored hall i).annotations ?_
      exact (Edit.specIn_sent_iff (hdisjoint c i hci) ..).mp (hstored hall c).spec

end Retrying

end Stored

/-- Of two clients that edit different fields of the cluster both have read, both
edits are stored when both report success if and only if every update applied
second finds its own annotations stored and follows an edit of nothing in the spec. -/
theorem edits_stored_iff {F V : Type} (tz : Bool → TimeZone) (edit : Bool → Edit F V)
    (retries : Bool → Nat) (o : StoredCluster F V) (clock : Int)
    (hdisjoint : (edit true).Disjoint (edit false)) (ms : List (Move Bool (StoredCluster F V)))
    (hanswers : AlongRun System.step ApiAnswers
      (.start o clock (mutation tz edit retries o)) ms) :
    Always System.step (EditsStored tz edit) (.start o clock (mutation tz edit retries o)) ms ↔
      AlongRun System.step (EditsApart tz edit o)
        (.start o clock (mutation tz edit retries o)) ms := by
  have hpair : ∀ i j, i ≠ j → (edit i).Disjoint (edit j) := by
    intro i j hij
    cases i <;> cases j
    · exact absurd rfl hij
    · exact hdisjoint.symm
    · exact hdisjoint
    · exact absurd rfl hij
  refine always_iff_alongRun_within (Retrying tz edit retries o) ?_ ?_ ?_
    (retrying_start ..) hanswers
  · exact fun s m s' h hans hapart hm => h.step hm hpair hans hapart
  · exact fun s h => h.editsStored
  · intro s m h _ hnot
    refine h.lost_of_not_apart hpair ?_ hnot
    intro i hi c hc j
    by_cases hj : j = i
    · exact .inl hj
    · have hci : c ≠ i := fun he => hi (he ▸ hc)
      exact .inr (by rwa [Bool.eq_not_of_ne hj, ← Bool.eq_not_of_ne hci])

def plainCluster : StoredCluster Unit GoString where
  annotations _ := none
  spec := ⟨none, none, fun _ => []⟩

def utc (_ : Bool) : TimeZone := ⟨id, id⟩

def twoEdits (first second : Edit Unit GoString) (i : Bool) : Edit Unit GoString :=
  if i then first else second

/-- Client `true` is first, and client `false` is refused, reads and sends again. -/
def secondRefused : List (Move Bool (StoredCluster Unit GoString)) :=
  [.call true, .call false, .call false, .call false, .call false, .call false]

def twoMutations (first second : Edit Unit GoString) :
    System Bool (StoredCluster Unit GoString) (Except Unit Unit) :=
  .start plainCluster 0 (mutation utc (twoEdits first second) (fun _ => 1) plainCluster)

theorem secondRefused_answers (first second : Edit Unit GoString) :
    AlongRun System.step ApiAnswers (twoMutations first second) secondRefused := by
  refine .imp (fun _ => True) (fun _ _ _ _ _ _ => trivial) ?_ trivial
    (.of_forall (P := fun m => ∃ i, m = .call i) (by simp [secondRefused]))
  rintro s m - ⟨i, rfl⟩
  trivial

theorem restart_pause_disjoint :
    (twoEdits .restart (.pause true) true).Disjoint (twoEdits .restart (.pause true) false) :=
  ⟨.inl rfl, .inl rfl, fun _ => .inl rfl, fun _ => .inr rfl⟩

theorem edits_stored_iff_sample :
    Always System.step (EditsStored utc (twoEdits .restart (.pause true)))
      (twoMutations .restart (.pause true)) secondRefused := by
  refine (edits_stored_iff utc _ (fun _ => 1) plainCluster 0 restart_pause_disjoint secondRefused
    (secondRefused_answers _ _)).mpr ?_
  refine .cons ?_ rfl (.cons ?_ rfl (.cons ?_ rfl (.cons ?_ rfl (.cons ?_ rfl
    (.cons ?_ rfl trivial)))))
  · intro i v k _ _ c hc
    cases hc
  all_goals
    intro i v k hm _ c hc
    cases hm
    obtain rfl : c = true := List.mem_singleton.mp hc
    exact ⟨Edit.pause_annotationsIn true _, Edit.restart_keepsSpec _ _ _⟩

def monitor (name : GoString) : Edit Unit GoString := { others := fun _ => some name }

/-- A pause is lost to an edit of the monitoring config sent again, and a pause
and a restart sent again are both lost. -/
theorem edits_lost :
    ((twoEdits (.pause true) (monitor (ascii "pmm")) true).Disjoint
        (twoEdits (.pause true) (monitor (ascii "pmm")) false) ∧
      ∃ s, run System.step (twoMutations (.pause true) (monitor (ascii "pmm"))) secondRefused =
          some s ∧
        (∀ i, s.client i = .done (.ok ())) ∧ s.store.value.spec.paused = none) ∧
    (twoEdits (.pause true) .restart true).Disjoint (twoEdits (.pause true) .restart false) ∧
      ∃ s, run System.step (twoMutations (.pause true) .restart) secondRefused = some s ∧
        (∀ i, s.client i = .done (.ok ())) ∧ s.store.value.spec.paused = none ∧
        s.store.value.annotations restartAnnotationKey = none := by
  refine ⟨⟨?_, _, rfl, ?_, rfl⟩, ?_, _, rfl, ?_, rfl, rfl⟩
  · exact ⟨.inr rfl, .inl rfl, fun _ => .inl rfl, fun _ => .inl rfl⟩
  · intro i
    cases i <;> rfl
  · exact ⟨.inr rfl, .inl rfl, fun _ => .inl rfl, fun _ => .inl rfl⟩
  · intro i
    cases i <;> rfl

end OpenEverest.Ui
