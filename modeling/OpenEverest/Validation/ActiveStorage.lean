import OpenEverest.Validation.PgRepos

/-!
# The active storage of a PSMDB cluster

All schedules of a PSMDB cluster use one storage. Which one is active the operator
reports in the status of the stored cluster; an update is checked against the status
that its own object carries.
-/

namespace OpenEverest.Validation

open Framework GoString Api

def OnOneStorage (db : DatabaseCluster) : Prop :=
  ∀ a ∈ db.spec.schedules, ∀ b ∈ db.spec.schedules, a.backupStorageName = b.backupStorageName

def OnStorage (db : DatabaseCluster) (storage : GoString) : Prop :=
  ∀ sched ∈ db.spec.schedules, sched.backupStorageName = storage

section Checks

variable {h : ValidateHandler} {db : DatabaseCluster}

theorem mem_scheduleStorages {name : GoString} :
    name ∈ scheduleStorages db ↔ ∃ sched ∈ db.spec.schedules, sched.backupStorageName = name := by
  rw [scheduleStorages, List.mem_dedup, List.mem_map]

theorem onOneStorage_of_length (hlength : (scheduleStorages db).length ≤ 1) : OnOneStorage db := by
  intro a ha b hb
  have hmem_a : a.backupStorageName ∈ scheduleStorages db := mem_scheduleStorages.mpr ⟨a, ha, rfl⟩
  have hmem_b : b.backupStorageName ∈ scheduleStorages db := mem_scheduleStorages.mpr ⟨b, hb, rfl⟩
  cases hnames : scheduleStorages db with
  | nil => simp [hnames] at hmem_a
  | cons name names =>
    obtain rfl : names = [] := by
      rw [hnames] at hlength
      exact List.length_eq_zero_iff.mp (by simpa using hlength)
    rw [hnames, List.mem_singleton] at hmem_a hmem_b
    exact hmem_a.trans hmem_b.symm

theorem validateBackupStoragesFor_psmdb {namespaceName : GoString}
    (hpsmdb : db.spec.engine.type = databaseEnginePSMDB)
    (hvalid : validateBackupStoragesFor h namespaceName db = .ok ()) :
    OnOneStorage db ∧ (db.status.activeStorage ≠ [] → OnStorage db db.status.activeStorage) := by
  rw [validateBackupStoragesFor, if_pos hpsmdb, check_bind_eq_ok, failWhen_eq_ok] at hvalid
  obtain ⟨hlength, hvalid⟩ := hvalid
  obtain ⟨_, hactive, _⟩ := (bind_eq_ok ..).mp hvalid
  refine ⟨onOneStorage_of_length (not_lt.mp hlength), ?_⟩
  intro hne sched hsched
  by_contra hother
  apply (failWhen_eq_ok ..).mp hactive
  exact ⟨hne, sched.backupStorageName, mem_scheduleStorages.mpr ⟨sched, hsched, rfl⟩, hother⟩

theorem validateDatabaseClusterCR_psmdb {existing : Except Unit (Option DatabaseCluster)}
    {backups : Except Unit (List DatabaseClusterBackup)}
    (hvalid : validateDatabaseClusterCR h existing backups db = .ok ())
    (hpsmdb : db.spec.engine.type = databaseEnginePSMDB) :
    OnOneStorage db ∧ (db.status.activeStorage ≠ [] → OnStorage db db.status.activeStorage) := by
  rw [validateDatabaseClusterCR, check_bind_eq_ok] at hvalid
  have hbefore := hvalid.1
  simp only [validateBeforeRepos, check_bind_eq_ok] at hbefore
  have hengine := hbefore.2.2.2
  split at hengine
  · cases hengine
  · obtain ⟨_, hengine⟩ := (check_bind_eq_ok ..).mp hengine
    split at hengine
    · obtain ⟨_, hengine⟩ := (check_bind_eq_ok ..).mp hengine
      simp only [check_bind_eq_ok] at hengine
      exact validateBackupStoragesFor_psmdb hpsmdb hengine.2.1
    · simp only [check_bind_eq_ok] at hengine
      exact validateBackupStoragesFor_psmdb hpsmdb hengine.2.1

end Checks

/-- A request, and a status that the operator reports of a stored cluster. -/
inductive ClusterMove where
  | request (r : ClusterRequest)
  | reportCluster (namespaceName name : GoString) (status : DatabaseClusterStatus)

namespace ClusterStore

def move (s : ClusterStore) : ClusterMove → Option ClusterStore
  | .request r => s.handle r
  | .reportCluster namespaceName name status =>
    (s.cluster namespaceName name).map fun db =>
      { s with
        cluster := Function.update s.cluster namespaceName
          (Function.update (s.cluster namespaceName) name (some { db with status })) }

/-- Every stored PSMDB cluster has its schedules on at most one storage. -/
def OneStorageEach (s : ClusterStore) : Prop :=
  ∀ namespaceName name db, s.cluster namespaceName name = some db →
    db.spec.engine.type = databaseEnginePSMDB → OnOneStorage db

/-- The schedules of an update of a PSMDB cluster use the active storage that is stored. -/
def UsesActive (s : ClusterStore) : ClusterMove → Prop
  | .request (.updateDatabaseCluster _ db) =>
    ∀ current, s.cluster db.namespaceName db.name = some current →
      current.spec.engine.type = databaseEnginePSMDB → current.status.activeStorage ≠ [] →
        OnStorage db current.status.activeStorage
  | _ => True

/-- An update of a PSMDB cluster carries the active storage that is stored in its own
status, unless it has no schedules. -/
def CarriesActive (s : ClusterStore) : ClusterMove → Prop
  | .request (.updateDatabaseCluster _ db) =>
    ∀ current, s.cluster db.namespaceName db.name = some current →
      current.spec.engine.type = databaseEnginePSMDB → current.status.activeStorage ≠ [] →
        db.status.activeStorage = current.status.activeStorage ∨ db.spec.schedules = []
  | _ => True

variable {s t : ClusterStore}

theorem oneStorageEach_put (hs : OneStorageEach s) {db : DatabaseCluster}
    (hdb : db.spec.engine.type = databaseEnginePSMDB → OnOneStorage db) :
    OneStorageEach (s.put db) := by
  intro namespaceName name of hof hpsmdb
  by_cases hkey : namespaceName = db.namespaceName ∧ name = db.name
  · obtain ⟨rfl, rfl⟩ := hkey
    obtain rfl : db = of := Option.some.inj ((put_self db).symm.trans hof)
    exact hdb hpsmdb
  · rw [put_other db hkey] at hof
    exact hs namespaceName name of hof hpsmdb

theorem oneStorageEach_update (hs : OneStorageEach s) {namespaceName name : GoString}
    {db : Option DatabaseCluster}
    (hdb : ∀ of ∈ db, of.spec.engine.type = databaseEnginePSMDB → OnOneStorage of) :
    OneStorageEach { s with
      cluster := Function.update s.cluster namespaceName
        (Function.update (s.cluster namespaceName) name db) } := by
  intro ns n of hof hpsmdb
  by_cases hns : ns = namespaceName
  · subst hns
    by_cases hn : n = name
    · subst hn
      exact hdb of (by simpa using hof) hpsmdb
    · exact hs ns n of (by simpa [hn] using hof) hpsmdb
  · exact hs ns n of (by simpa [hns] using hof) hpsmdb

theorem handle_oneStorageEach (hs : OneStorageEach s) {r : ClusterRequest}
    (h : s.handle r = some t) : OneStorageEach t := by
  cases r with
  | createDatabaseCluster v db =>
    obtain ⟨hcr, rfl⟩ := createDatabaseCluster_accepted h
    have hone : db.spec.engine.type = databaseEnginePSMDB → OnOneStorage db :=
      fun hpsmdb => (validateDatabaseClusterCR_psmdb hcr hpsmdb).1
    exact oneStorageEach_put hs hone
  | updateDatabaseCluster v db =>
    obtain ⟨_, _, hcr, _, rfl⟩ := updateDatabaseCluster_accepted h
    have hone : db.spec.engine.type = databaseEnginePSMDB → OnOneStorage db :=
      fun hpsmdb => (validateDatabaseClusterCR_psmdb hcr hpsmdb).1
    exact oneStorageEach_put hs hone
  | removeDatabaseCluster namespaceName name =>
    obtain rfl := Option.some.inj h
    apply oneStorageEach_update hs
    intro of hof
    cases hof
  | createDatabaseClusterBackup backup clusterLabel =>
    obtain rfl := createDatabaseClusterBackup_accepted h
    exact hs
  | deleteDatabaseClusterBackup namespaceName name =>
    obtain rfl := deleteDatabaseClusterBackup_accepted h
    exact hs
  | reportBackup namespaceName name clusterLabel state =>
    obtain rfl := Option.some.inj h
    exact hs
  | removeBackup namespaceName name =>
    obtain rfl := Option.some.inj h
    exact hs

theorem move_oneStorageEach (hs : OneStorageEach s) {m : ClusterMove} (h : s.move m = some t) :
    OneStorageEach t := by
  cases m with
  | request r => exact handle_oneStorageEach hs h
  | reportCluster namespaceName name status =>
    obtain ⟨db, hdb, rfl⟩ := Option.map_eq_some_iff.mp h
    apply oneStorageEach_update hs
    intro of hof hpsmdb
    obtain rfl := Option.some.inj hof
    exact hs namespaceName name db hdb hpsmdb

theorem move_usesActive {m : ClusterMove} (h : s.move m = some t) (hm : s.CarriesActive m) :
    s.UsesActive m := by
  cases m with
  | reportCluster namespaceName name status => trivial
  | request r =>
    cases r with
    | updateDatabaseCluster v db =>
      intro current hcurrent hpsmdb hactive
      obtain ⟨stored, hstored, hcr, htype, _⟩ := updateDatabaseCluster_accepted h
      obtain rfl := Option.some.inj (hcurrent.symm.trans hstored)
      rcases hm current hcurrent hpsmdb hactive with hcarries | hnone
      · have hvalid := validateDatabaseClusterCR_psmdb hcr (htype.trans hpsmdb)
        rw [← hcarries] at hactive ⊢
        exact hvalid.2 hactive
      · intro sched hsched
        rw [hnone] at hsched
        cases hsched
    | _ => trivial

/-- In every run the stored PSMDB clusters are on one storage each; and where the updates
carry the active storage that is stored, their schedules use it. -/
theorem psmdb_storages_of_carries (s t : ClusterStore) (moves : List ClusterMove)
    (hs : OneStorageEach s) (hrun : run move s moves = some t) :
    OneStorageEach t ∧ (AlongRun move CarriesActive s moves → AlongRun move UsesActive s moves) := by
  constructor
  · exact run_invariant OneStorageEach (fun _ _ _ hs h => move_oneStorageEach hs h) hs hrun
  · intro hcarries
    apply ((AlongRun.of_run hrun).and hcarries).imp (fun _ => True)
    · intro _ _ _ _ _ _
      trivial
    · intro s m _ ⟨⟨t, h⟩, hm⟩
      exact move_usesActive h hm
    · trivial

theorem empty_oneStorageEach : OneStorageEach empty := by
  intro _ _ _ hdb
  cases hdb

def psmdbHandler : ValidateHandler :=
  { sampleHandler with getDatabaseEngine := fun _ _ => .ok ⟨[], [ascii "7.0.8"]⟩ }

def psmdbCluster (storage : GoString) : DatabaseCluster :=
  { sampleCluster with
    spec := { sampleCluster.spec with
      engine := ⟨databaseEnginePSMDB, ascii "7.0.8", 3, 10000000000, sampleResources⟩
      proxy := ⟨ascii "mongos", none, [], sampleResources⟩
      schedules := [⟨ascii "nightly", true, storage, ascii "0 0 * * *", 3⟩] }
    status := ⟨[], []⟩ }

/-- The cluster is created on `s1`, which becomes active, and is updated. -/
def psmdbRun (db : DatabaseCluster) : List ClusterMove :=
  [.request (.createDatabaseCluster psmdbHandler (psmdbCluster (ascii "s1"))),
    .reportCluster (ascii "ns") (ascii "db") ⟨ascii "ready", ascii "s1"⟩,
    .request (.updateDatabaseCluster psmdbHandler db)]

def readObject : DatabaseCluster :=
  { psmdbCluster (ascii "s1") with status := ⟨ascii "ready", ascii "s1"⟩ }

theorem psmdb_storages_of_carries_sample : ∃ t, run move empty (psmdbRun readObject) = some t ∧
    (AlongRun move CarriesActive empty (psmdbRun readObject) →
      AlongRun move UsesActive empty (psmdbRun readObject)) := by
  have hrun : (run move empty (psmdbRun readObject)).isSome = true := by decide +kernel
  obtain ⟨t, ht⟩ := Option.isSome_iff_exists.mp hrun
  exact ⟨t, ht, (psmdb_storages_of_carries empty t _ empty_oneStorageEach ht).2⟩

/-- An update without a status moves the schedule away from the active storage. -/
theorem psmdb_leaves_active_storage :
    (run move empty (psmdbRun (psmdbCluster (ascii "s2")))).any (fun t =>
      decide (t.cluster (ascii "ns") (ascii "db") =
        some { psmdbCluster (ascii "s2") with status := ⟨ascii "ready", ascii "s1"⟩ })) = true ∧
    ¬ AlongRun move UsesActive empty (psmdbRun (psmdbCluster (ascii "s2"))) := by
  constructor
  · decide +kernel
  · intro hrun
    have hbefore : (run move empty ((psmdbRun (psmdbCluster (ascii "s2"))).take 2)).any (fun t =>
        decide (t.cluster (ascii "ns") (ascii "db") = some readObject)) = true := by
      decide +kernel
    obtain ⟨t, ht, hcluster⟩ := (Option.any_eq_true ..).mp hbefore
    have hsplit : AlongRun move UsesActive empty ((psmdbRun (psmdbCluster (ascii "s2"))).take 2 ++
        (psmdbRun (psmdbCluster (ascii "s2"))).drop 2) := hrun
    have huses := (hsplit.append ht).2.1
    have hon := huses readObject (of_decide_eq_true hcluster) rfl (by decide +kernel)
    have hsame := hon _ List.mem_cons_self
    revert hsame
    decide +kernel

end ClusterStore

end OpenEverest.Validation
