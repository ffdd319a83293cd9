import OpenEverest.Validation.UpdateRuns

/-!
# Versions and replicas along a run

Each update is checked against the cluster it replaces, but an empty version and
a replica count of zero are let through, and the next check compares with them.
-/

namespace OpenEverest.Validation

open Framework Api

/-- Between an earlier and a later stored cluster: no downgrade, no new major
version but for PSMDB, and no single replica after several. -/
structure VersionLaw (old new : DatabaseCluster) : Prop where
  not_below : Semver.compareVersion (ensureV new.spec.engine.version)
    (ensureV old.spec.engine.version) ≠ .lt
  major_eq : old.spec.engine.type ≠ databaseEnginePSMDB →
    Semver.major (ensureV new.spec.engine.version) = Semver.major (ensureV old.spec.engine.version)
  not_one : 1 < old.spec.engine.replicas → new.spec.engine.replicas ≠ 1

/-- The update empties no valid version, and takes no cluster of several replicas below one. -/
structure KeepsKnown (old new : DatabaseCluster) : Prop where
  version : new.spec.engine.version = [] → old.spec.engine.version ≠ [] →
    Semver.isValid (ensureV old.spec.engine.version) = false
  replicas : 1 < old.spec.engine.replicas → 0 < new.spec.engine.replicas

/-- What such an update keeps, and a chain of them. -/
structure VersionStep (old new : DatabaseCluster) : Prop where
  isGE : (Semver.compareVersion (ensureV new.spec.engine.version)
    (ensureV old.spec.engine.version)).isGE
  type_eq : new.spec.engine.type = old.spec.engine.type
  major_eq : old.spec.engine.type ≠ databaseEnginePSMDB →
    Semver.major (ensureV new.spec.engine.version) = Semver.major (ensureV old.spec.engine.version)
  several : 1 < old.spec.engine.replicas → 1 < new.spec.engine.replicas

namespace VersionStep

theorem refl (db : DatabaseCluster) : VersionStep db db where
  isGE := by rw [Semver.compareVersion_self]; rfl
  type_eq := rfl
  major_eq _ := rfl
  several h := h

theorem trans {a b c : DatabaseCluster} (hab : VersionStep a b) (hbc : VersionStep b c) :
    VersionStep a c where
  isGE := Semver.compareVersion_isGE_trans hbc.isGE hab.isGE
  type_eq := hbc.type_eq.trans hab.type_eq
  major_eq hne := by
    have hb : b.spec.engine.type ≠ databaseEnginePSMDB := by rwa [hab.type_eq]
    exact (hbc.major_eq hb).trans (hab.major_eq hne)
  several h := hbc.several (hab.several h)

theorem of_chain {a b : DatabaseCluster} (h : Relation.ReflTransGen VersionStep a b) :
    VersionStep a b := by
  induction h with
  | refl => exact refl a
  | tail _ hstep ih => exact ih.trans hstep

theorem versionLaw {a b : DatabaseCluster} (h : VersionStep a b) : VersionLaw a b where
  not_below hlt := by
    have hge := h.isGE
    rw [hlt] at hge
    cases hge
  major_eq := h.major_eq
  not_one hmany := by
    have hstill := h.several hmany
    omega

end VersionStep

theorem upgrade_allowed {engineType newVersion oldVersion : GoString}
    (h : validateDBEngineVersionUpgrade engineType newVersion oldVersion = .ok ()) :
    (Semver.compareVersion (ensureV newVersion) (ensureV oldVersion)).isGE ∧
      (engineType ≠ databaseEnginePSMDB →
        Semver.major (ensureV newVersion) = Semver.major (ensureV oldVersion)) := by
  simp only [validateDBEngineVersionUpgrade, check_bind_eq_ok, failWhen_eq_ok] at h
  obtain ⟨-, hcompare, hmajor, -⟩ := h
  constructor
  · cases hc : Semver.compareVersion (ensureV newVersion) (ensureV oldVersion) with
    | lt => exact absurd hc hcompare
    | eq => rfl
    | gt => rfl
  · intro hne
    by_contra hdiffer
    exact hmajor ⟨hne, fun heq => hdiffer heq.symm⟩

theorem parse_of_invalid {version : GoString} (h : Semver.isValid version = false) :
    Semver.parse version = none := by
  simpa [Semver.isValid] using h

theorem emptied_invalid {oldVersion : GoString}
    (h : Semver.isValid (ensureV oldVersion) = false) :
    Semver.compareVersion (ensureV []) (ensureV oldVersion) = .eq ∧
      Semver.major (ensureV []) = Semver.major (ensureV oldVersion) := by
  have hempty : Semver.parse (ensureV []) = none := by decide
  have hold := parse_of_invalid h
  simp [Semver.compareVersion, Semver.major, hempty, hold]

theorem VersionStep.of_check {h : ValidateHandler} {db oldDB : DatabaseCluster}
    (hcheck : validateDatabaseClusterOnUpdate h db oldDB = .ok ())
    (htype : db.spec.engine.type = oldDB.spec.engine.type) (hkeeps : KeepsKnown oldDB db) :
    VersionStep oldDB db := by
  simp only [validateDatabaseClusterOnUpdate, engineVersionCheck, check_bind_eq_ok, checkWhen_eq_ok, failWhen_eq_ok]
    at hcheck
  obtain ⟨-, hversion, hreplicas, -, -⟩ := hcheck
  have hversions : (Semver.compareVersion (ensureV db.spec.engine.version)
        (ensureV oldDB.spec.engine.version)).isGE ∧
      (oldDB.spec.engine.type ≠ databaseEnginePSMDB →
        Semver.major (ensureV db.spec.engine.version) =
          Semver.major (ensureV oldDB.spec.engine.version)) := by
    by_cases hsame : db.spec.engine.version = oldDB.spec.engine.version
    · rw [hsame, Semver.compareVersion_self]
      exact ⟨rfl, fun _ => rfl⟩
    · by_cases hempty : db.spec.engine.version = []
      · have hold : oldDB.spec.engine.version ≠ [] := fun h => hsame (hempty.trans h.symm)
        have hinvalid := emptied_invalid (hkeeps.version hempty hold)
        rw [hempty, hinvalid.1]
        exact ⟨rfl, fun _ => hinvalid.2⟩
      · exact upgrade_allowed (hversion (by simp [hempty, hsame]))
  exact
    { isGE := hversions.1
      type_eq := htype
      major_eq := hversions.2
      several := fun hmany => by
        have hpositive := hkeeps.replicas hmany
        by_contra hfew
        exact hreplicas ⟨by omega, by omega⟩ }

section Runs

variable {ι κ : Type} (request : ι → UpdateRequest) (status : κ → DatabaseClusterStatus)

/-- An update request that is about to be applied keeps what the checks go by. -/
def AppliesKeeping (s : UpdateSystem ι κ) (m : Move (ι ⊕ κ) DatabaseCluster) : Prop :=
  ∀ i v k, (m = .call (.inl i) ∨ m = .lost (.inl i)) →
    s.client (.inl i) = .update s.store.resourceVersion v k → KeepsKnown s.store.value v

variable [DecidableEq ι] [DecidableEq κ]

/-- In a run whose requests keep known versions and replica counts, every two
stored clusters obey the law. -/
theorem versionLaw_of_keeping (o : DatabaseCluster) (clock : Int)
    (ms ms' : List (Move (ι ⊕ κ) DatabaseCluster)) (s s' : UpdateSystem ι κ)
    (hsent : AlongRun System.step (SentStored request) (.start o clock (program request status))
      (ms ++ ms'))
    (hkeeps : AlongRun System.step AppliesKeeping (.start o clock (program request status))
      (ms ++ ms'))
    (h : run System.step (.start o clock (program request status)) ms = some s)
    (h' : run System.step s ms' = some s') : VersionLaw s.store.value s'.store.value := by
  have hchain : Relation.ReflTransGen VersionStep s.store.value s'.store.value := by
    refine run_replaces request status ?_ hsent hkeeps h h'
    intro t m i v k hm hmove hi hstep
    cases i with
    | inl i =>
      have hknown := hm i v k hmove hi
      obtain ⟨-, hcheck, htype, rfl⟩ := hstep
      have hdb := VersionStep.of_check hcheck htype ⟨hknown.version, hknown.replicas⟩
      exact ⟨hdb.isGE, hdb.type_eq, hdb.major_eq, hdb.several⟩
    | inr j =>
      obtain ⟨status, rfl⟩ := hstep
      have hrefl := VersionStep.refl t.store.value
      exact ⟨hrefl.isGE, hrefl.type_eq, hrefl.major_eq, hrefl.several⟩
  exact (VersionStep.of_chain hchain).versionLaw

end Runs

def upgradeRequest : UpdateRequest :=
  sampleRequest { sampleCluster.spec.engine with version := ascii "8.0.36" } 0

theorem upgradeRequest_accepted : upgradeRequest.Accepted ⟨0, sampleCluster⟩ where
  engine := by decide
  cr := by decide +kernel
  onUpdate := by decide +kernel
  sameType := rfl
  version := rfl

theorem versionLaw_of_keeping_sample : ∃ s' : UpdateSystem Unit Empty,
    s'.store.value = upgradeRequest.db ∧ VersionLaw sampleCluster s'.store.value := by
  let start : UpdateSystem Unit Empty :=
    System.start sampleCluster 0 (program (fun _ => upgradeRequest) Empty.elim)
  obtain ⟨t, s', h⟩ := accepted_stored (fun _ => upgradeRequest) (s := start) (i := ()) rfl
    upgradeRequest_accepted
  have hsent := h.sentStored upgradeRequest_accepted [] trivial
  have hkeeps : AlongRun System.step AppliesKeeping start [.call (.inl ()), .call (.inl ())] := by
    refine h.along ?_ ?_ trivial
    · intro i v k _ hi
      obtain ⟨k', hk'⟩ := h.pending
      exact absurd (hi.symm.trans hk') (by simp)
    · intro i v k _ hi
      obtain ⟨k', hk'⟩ := h.client
      obtain ⟨-, rfl, -⟩ := Client.update.inj (hi.symm.trans hk')
      rw [h.store]
      exact ⟨by decide, by decide⟩
  refine ⟨s', by rw [h.stored]; rfl, ?_⟩
  exact versionLaw_of_keeping (fun _ => upgradeRequest) Empty.elim sampleCluster 0 [] _ start s'
    hsent hkeeps rfl (h.run_eq [])

def scaleRequest : Bool → UpdateRequest
  | false => sampleRequest { sampleCluster.spec.engine with replicas := 0 } 0
  | true => sampleRequest { sampleCluster.spec.engine with replicas := 1 } 1

def emptyVersionRequest : UpdateRequest :=
  sampleRequest { sampleCluster.spec.engine with version := [] } 0

theorem scaleRequest_accepted_none : (scaleRequest false).Accepted ⟨0, sampleCluster⟩ where
  engine := by decide
  cr := by decide +kernel
  onUpdate := by decide +kernel
  sameType := rfl
  version := rfl

theorem scaleRequest_accepted_one : (scaleRequest true).Accepted ⟨1, (scaleRequest false).db⟩ where
  engine := by decide
  cr := by decide +kernel
  onUpdate := by decide +kernel
  sameType := rfl
  version := rfl

theorem emptyVersionRequest_accepted : emptyVersionRequest.Accepted ⟨0, sampleCluster⟩ where
  engine := by decide
  cr := by decide +kernel
  onUpdate := by decide +kernel
  sameType := rfl
  version := rfl

/-- Two accepted requests take a cluster of three replicas to one, and one accepted
request takes the version away. -/
theorem versionLaw_broken :
    (∃ (ms : List (Move (Bool ⊕ Empty) DatabaseCluster)) (s : UpdateSystem Bool Empty),
      AlongRun System.step (SentStored scaleRequest)
        (.start sampleCluster 0 (program scaleRequest Empty.elim)) ms ∧
      run System.step (.start sampleCluster 0 (program scaleRequest Empty.elim)) ms = some s ∧
      ¬ VersionLaw sampleCluster s.store.value) ∧
    ∃ (ms : List (Move (Unit ⊕ Empty) DatabaseCluster)) (s : UpdateSystem Unit Empty),
      AlongRun System.step (SentStored fun _ => emptyVersionRequest)
        (.start sampleCluster 0 (program (fun _ => emptyVersionRequest) Empty.elim)) ms ∧
      run System.step (.start sampleCluster 0 (program (fun _ => emptyVersionRequest) Empty.elim))
        ms = some s ∧ ¬ VersionLaw sampleCluster s.store.value := by
  constructor
  · let start : UpdateSystem Bool Empty :=
      System.start sampleCluster 0 (program scaleRequest Empty.elim)
    obtain ⟨t, s, hnone⟩ := accepted_stored scaleRequest (s := start) (i := false) rfl
      scaleRequest_accepted_none
    have hclient : s.client (.inl true) = (scaleRequest true).updateDatabaseCluster :=
      hnone.others (.inl true) (by simp)
    have haccepted : (scaleRequest true).Accepted s.store := by
      rw [hnone.stored]
      exact scaleRequest_accepted_one
    obtain ⟨t', s', hone⟩ := accepted_stored scaleRequest hclient haccepted
    refine ⟨_, s', hnone.sentStored scaleRequest_accepted_none _
      (hone.sentStored haccepted [] trivial), ?_, fun hlaw => ?_⟩
    · rw [hnone.run_eq, hone.run_eq]
      rfl
    · rw [hone.stored] at hlaw
      exact hlaw.not_one (by decide) rfl
  · let start : UpdateSystem Unit Empty :=
      System.start sampleCluster 0 (program (fun _ => emptyVersionRequest) Empty.elim)
    obtain ⟨t, s, h⟩ := accepted_stored (fun _ => emptyVersionRequest) (s := start) (i := ())
      rfl emptyVersionRequest_accepted
    refine ⟨_, s, h.sentStored emptyVersionRequest_accepted [] trivial, h.run_eq [],
      fun hlaw => ?_⟩
    rw [h.stored] at hlaw
    exact hlaw.not_below (by decide +kernel)

end OpenEverest.Validation
