import OpenEverest.Api.DatabaseCluster
import OpenEverest.Framework.SortFunc
import OpenEverest.Rbac.Enforce

/-!
# Creating, updating and reading a database cluster

Three walks over the resources a cluster refers to: the reading one checks them
all, the creating and the updating one check some. A create or an update returns
the object it passes on to the next handler.
-/

namespace OpenEverest.Rbac

open Framework GoString Api

/-- What the handler reads through the next one: the source cluster of a backup,
and the stored cluster, which is one of the namespace asked for. -/
structure ClusterReader where
  getDatabaseClusterBackup : GoString → GoString → Except Unit GoString
  getDatabaseCluster : GoString → GoString → Except Unit DatabaseCluster
  namespaceName_eq : ∀ namespaceName name db,
    getDatabaseCluster namespaceName name = .ok db → db.namespaceName = namespaceName

/-- `strings.Compare(a.Name, b.Name) <= 0`. -/
def sortFn (a b : BackupSchedule) : Prop := a.name ≤ b.name

instance : DecidableRel sortFn := fun a b => inferInstanceAs (Decidable (a.name ≤ b.name))

instance : Std.Total sortFn := ⟨fun a b => List.le_total a.name b.name⟩

instance : IsTrans BackupSchedule sortFn := ⟨fun _ _ _ hab hbc => List.le_trans hab hbc⟩

/-- The loop over both lists after their lengths were compared. -/
def backupSchedulesEqual (oldSched updatedSched : List BackupSchedule) : Bool :=
  if oldSched.length ≠ updatedSched.length then false
  else (oldSched.zip updatedSched).all fun (o, u) =>
    !(o.name ≠ u.name || o.enabled ≠ u.enabled || o.backupStorageName ≠ u.backupStorageName ||
      o.schedule ≠ u.schedule || o.retentionCopies ≠ u.retentionCopies)

namespace RbacHandler

variable (h : RbacHandler)

def enforceDBRestore (namespaceName clusterName : GoString) : Except RbacError Unit := do
  h.enforce resourceDatabaseClusterCredentials actionRead (objectName [namespaceName, clusterName])
  h.enforce resourceDatabaseClusterBackups actionRead (objectName [namespaceName, clusterName])
  h.enforce resourceDatabaseClusterRestores actionRead (objectName [namespaceName, clusterName])

def enforceSchedulesRead (namespaceName : GoString) (schedules : List BackupSchedule) :
    Except RbacError Unit :=
  checkAll (fun sched =>
    h.enforce resourceBackupStorages actionRead (objectName [namespaceName, sched.backupStorageName]))
    schedules

def enforceEngineFeaturesRead (db : DatabaseCluster) : Except RbacError Unit :=
  checkWhen (db.spec.engine.type = databaseEnginePSMDB)
    (checkWhen (db.splitHorizonDNSConfig ≠ [])
      (h.enforce resourceEngineFeaturesSplitHorizonDNSConfigs actionRead
        (objectName [db.namespaceName, db.splitHorizonDNSConfig])))

def enforceDBClusterRead (db : DatabaseCluster) : Except RbacError Unit := do
  h.enforce resourceDatabaseClusters actionRead (objectName [db.namespaceName, db.name])
  h.enforceSchedulesRead db.namespaceName db.spec.backup.schedules
  checkWhen (db.pitrStorage ≠ [])
    (h.enforce resourceBackupStorages actionRead (objectName [db.namespaceName, db.pitrStorage]))
  checkWhen (db.monitoringConfig ≠ [])
    (h.enforce resourceMonitoringInstances actionRead
      (objectName [db.namespaceName, db.monitoringConfig]))
  h.enforce resourceDatabaseEngines actionRead
    (objectName [db.namespaceName, operatorTypeToName db.spec.engine.type])
  checkWhen (db.spec.proxy.expose.loadBalancerConfigName ≠ [])
    (h.enforce resourceLoadBalancerConfigs actionRead db.spec.proxy.expose.loadBalancerConfigName)
  h.enforceEngineFeaturesRead db

def enforceDataSource (next : ClusterReader) (db : DatabaseCluster) (sourceBackup : GoString) :
    Except RbacError Unit := do
  h.enforce resourceDatabaseClusterRestores actionCreate (objectName [db.namespaceName, db.name])
  match next.getDatabaseClusterBackup db.namespaceName sourceBackup with
  | .error _ => .error (.wrap "failed to get database cluster backup" .next)
  | .ok sourceDB => h.enforceDBRestore db.namespaceName sourceDB

def createDatabaseCluster (next : ClusterReader) (db : DatabaseCluster) :
    Except RbacError DatabaseCluster := do
  h.enforce resourceDatabaseClusters actionCreate (objectName [db.namespaceName, db.name])
  h.enforce resourceDatabaseEngines actionRead
    (objectName [db.namespaceName, operatorTypeToName db.spec.engine.type])
  checkWhen (db.spec.backup.schedules.length > 0) do
    h.enforce resourceDatabaseClusterBackups actionCreate (objectName [db.namespaceName, db.name])
    h.enforceSchedulesRead db.namespaceName db.spec.backup.schedules
  checkWhen (db.sourceBackup ≠ []) (h.enforceDataSource next db db.sourceBackup)
  h.enforceEngineFeaturesRead db
  return db

/-- The updated schedules are sorted in place, so they are passed on in that order. -/
def updateDatabaseCluster (next : ClusterReader) (slices : SortFunc BackupSchedule sortFn)
    (db : DatabaseCluster) : Except RbacError DatabaseCluster := do
  h.enforce resourceDatabaseClusters actionUpdate (objectName [db.namespaceName, db.name])
  h.enforce resourceDatabaseEngines actionRead
    (objectName [db.namespaceName, operatorTypeToName db.spec.engine.type])
  match next.getDatabaseCluster db.namespaceName db.name with
  | .error _ => .error .next
  | .ok oldDB =>
    let oldSched := slices.sort oldDB.spec.backup.schedules
    let updatedSched := slices.sort db.spec.backup.schedules
    checkWhen (!backupSchedulesEqual oldSched updatedSched)
      (h.enforce resourceDatabaseClusterBackups actionCreate
        (objectName [oldDB.namespaceName, db.name]))
    h.enforceSchedulesRead oldDB.namespaceName updatedSched
    h.enforceEngineFeaturesRead db
    return db.withSchedules updatedSched

end RbacHandler

section Walks

variable (h : RbacHandler) (next : ClusterReader) (slices : SortFunc BackupSchedule sortFn)
  (db : DatabaseCluster)

def SchedulesReadable : Prop :=
  ∀ sched ∈ db.spec.backup.schedules,
    h.enforce resourceBackupStorages actionRead
      (objectName [db.namespaceName, sched.backupStorageName]) = .ok ()

def PITRReadable : Prop :=
  db.pitrStorage ≠ [] →
    h.enforce resourceBackupStorages actionRead (objectName [db.namespaceName, db.pitrStorage]) =
      .ok ()

def MonitoringReadable : Prop :=
  db.monitoringConfig ≠ [] →
    h.enforce resourceMonitoringInstances actionRead
      (objectName [db.namespaceName, db.monitoringConfig]) = .ok ()

def EngineReadable : Prop :=
  h.enforce resourceDatabaseEngines actionRead
    (objectName [db.namespaceName, operatorTypeToName db.spec.engine.type]) = .ok ()

def LoadBalancerReadable : Prop :=
  db.spec.proxy.expose.loadBalancerConfigName ≠ [] →
    h.enforce resourceLoadBalancerConfigs actionRead db.spec.proxy.expose.loadBalancerConfigName =
      .ok ()

def FeaturesReadable : Prop :=
  db.spec.engine.type = databaseEnginePSMDB → db.splitHorizonDNSConfig ≠ [] →
    h.enforce resourceEngineFeaturesSplitHorizonDNSConfigs actionRead
      (objectName [db.namespaceName, db.splitHorizonDNSConfig]) = .ok ()

structure ReferencesReadable : Prop where
  schedules : SchedulesReadable h db
  pitr : PITRReadable h db
  monitoring : MonitoringReadable h db
  engine : EngineReadable h db
  loadBalancer : LoadBalancerReadable h db
  features : FeaturesReadable h db

/-- The references that neither a create nor an update looks at. -/
structure UncheckedReadable : Prop where
  pitr : PITRReadable h db
  monitoring : MonitoringReadable h db
  loadBalancer : LoadBalancerReadable h db

structure SourceGranted (sourceDB : GoString) : Prop where
  create : h.enforce resourceDatabaseClusterRestores actionCreate
    (objectName [db.namespaceName, db.name]) = .ok ()
  credentials : h.enforce resourceDatabaseClusterCredentials actionRead
    (objectName [db.namespaceName, sourceDB]) = .ok ()
  backups : h.enforce resourceDatabaseClusterBackups actionRead
    (objectName [db.namespaceName, sourceDB]) = .ok ()
  restores : h.enforce resourceDatabaseClusterRestores actionRead
    (objectName [db.namespaceName, sourceDB]) = .ok ()

/-- What a create checks. -/
structure CreateGranted : Prop where
  create : h.enforce resourceDatabaseClusters actionCreate
    (objectName [db.namespaceName, db.name]) = .ok ()
  engine : EngineReadable h db
  backups : db.spec.backup.schedules ≠ [] →
    h.enforce resourceDatabaseClusterBackups actionCreate
      (objectName [db.namespaceName, db.name]) = .ok ()
  schedules : SchedulesReadable h db
  source : db.sourceBackup ≠ [] → ∃ sourceDB,
    next.getDatabaseClusterBackup db.namespaceName db.sourceBackup = .ok sourceDB ∧
      SourceGranted h db sourceDB
  features : FeaturesReadable h db

/-- What an update of the stored cluster checks. -/
structure UpdateGranted (oldDB : DatabaseCluster) : Prop where
  update : h.enforce resourceDatabaseClusters actionUpdate
    (objectName [db.namespaceName, db.name]) = .ok ()
  engine : EngineReadable h db
  stored : next.getDatabaseCluster db.namespaceName db.name = .ok oldDB
  backups : backupSchedulesEqual (slices.sort oldDB.spec.backup.schedules)
      (slices.sort db.spec.backup.schedules) = false →
    h.enforce resourceDatabaseClusterBackups actionCreate
      (objectName [db.namespaceName, db.name]) = .ok ()
  schedules : SchedulesReadable h db
  features : FeaturesReadable h db

end Walks

section Decisions

variable {h : RbacHandler} {next : ClusterReader} {slices : SortFunc BackupSchedule sortFn}
  {db : DatabaseCluster}

theorem enforceEngineFeaturesRead_eq_ok :
    h.enforceEngineFeaturesRead db = .ok () ↔ FeaturesReadable h db := by
  simp only [RbacHandler.enforceEngineFeaturesRead, FeaturesReadable, checkWhen_eq_ok,
    decide_eq_true_eq]

theorem enforceSchedulesRead_eq_ok (namespaceName : GoString) (schedules : List BackupSchedule) :
    h.enforceSchedulesRead namespaceName schedules = .ok () ↔
      ∀ sched ∈ schedules, h.enforce resourceBackupStorages actionRead
        (objectName [namespaceName, sched.backupStorageName]) = .ok () :=
  checkAll_eq_ok _ schedules

theorem enforceDBClusterRead_eq_ok :
    h.enforceDBClusterRead db = .ok () ↔
      h.enforce resourceDatabaseClusters actionRead (objectName [db.namespaceName, db.name]) =
        .ok () ∧ ReferencesReadable h db := by
  simp only [RbacHandler.enforceDBClusterRead, check_bind_eq_ok, checkWhen_eq_ok,
    enforceSchedulesRead_eq_ok, enforceEngineFeaturesRead_eq_ok, decide_eq_true_eq]
  constructor
  · rintro ⟨hread, hschedules, hpitr, hmonitoring, hengine, hbalancer, hfeatures⟩
    exact ⟨hread, hschedules, hpitr, hmonitoring, hengine, hbalancer, hfeatures⟩
  · rintro ⟨hread, hrefs⟩
    exact ⟨hread, hrefs.schedules, hrefs.pitr, hrefs.monitoring, hrefs.engine,
      hrefs.loadBalancer, hrefs.features⟩

theorem enforceDataSource_eq_ok (sourceBackup : GoString) :
    h.enforceDataSource next db sourceBackup = .ok () ↔
      ∃ sourceDB, next.getDatabaseClusterBackup db.namespaceName sourceBackup = .ok sourceDB ∧
        SourceGranted h db sourceDB := by
  rw [RbacHandler.enforceDataSource, check_bind_eq_ok]
  cases hsource : next.getDatabaseClusterBackup db.namespaceName sourceBackup with
  | error e => simp
  | ok sourceDB =>
    simp only [RbacHandler.enforceDBRestore, check_bind_eq_ok, Except.ok.injEq, exists_eq_left']
    exact ⟨fun ⟨hc, hr, hb, hs⟩ => ⟨hc, hr, hb, hs⟩,
      fun hg => ⟨hg.create, hg.credentials, hg.backups, hg.restores⟩⟩

theorem createDatabaseCluster_eq_ok (forwarded : DatabaseCluster) :
    h.createDatabaseCluster next db = .ok forwarded ↔
      CreateGranted h next db ∧ forwarded = db := by
  have hne : db.spec.backup.schedules.length > 0 ↔ db.spec.backup.schedules ≠ [] :=
    List.length_pos_iff
  simp only [RbacHandler.createDatabaseCluster, check_bind_eq_ok, checkWhen_eq_ok,
    enforceSchedulesRead_eq_ok, enforceEngineFeaturesRead_eq_ok, enforceDataSource_eq_ok,
    decide_eq_true_eq, hne]
  constructor
  · rintro ⟨hcreate, hengine, hschedules, hsource, hfeatures, hdb⟩
    refine ⟨⟨hcreate, hengine, fun hs => (hschedules hs).1, ?_, hsource, hfeatures⟩,
      (Except.ok.inj hdb).symm⟩
    intro sched hsched
    exact (hschedules (List.ne_nil_of_mem hsched)).2 sched hsched
  · rintro ⟨hg, rfl⟩
    exact ⟨hg.create, hg.engine, fun hs => ⟨hg.backups hs, hg.schedules⟩, hg.source,
      hg.features, rfl⟩

theorem updateDatabaseCluster_eq_ok (forwarded : DatabaseCluster) :
    h.updateDatabaseCluster next slices db = .ok forwarded ↔
      (∃ oldDB, UpdateGranted h next slices db oldDB) ∧
        forwarded = db.withSchedules (slices.sort db.spec.backup.schedules) := by
  simp only [RbacHandler.updateDatabaseCluster, check_bind_eq_ok]
  cases hstored : next.getDatabaseCluster db.namespaceName db.name with
  | error e =>
    constructor
    · rintro ⟨-, -, hdb⟩
      cases hdb
    · rintro ⟨⟨oldDB, hg⟩, -⟩
      cases hstored.symm.trans hg.stored
  | ok oldDB =>
    simp only [check_bind_eq_ok, checkWhen_eq_ok, enforceSchedulesRead_eq_ok,
      enforceEngineFeaturesRead_eq_ok, Bool.not_eq_eq_eq_not, Bool.not_true,
      SortFunc.mem_sort, next.namespaceName_eq _ _ _ hstored]
    constructor
    · rintro ⟨hupdate, hengine, hbackups, hschedules, hfeatures, hdb⟩
      exact ⟨⟨oldDB, hupdate, hengine, hstored, hbackups, hschedules, hfeatures⟩,
        (Except.ok.inj hdb).symm⟩
    · rintro ⟨⟨oldDB', hg⟩, rfl⟩
      obtain rfl := Except.ok.inj (hstored.symm.trans hg.stored)
      exact ⟨hg.update, hg.engine, hg.backups, hg.schedules, hg.features, rfl⟩

theorem referencesReadable_sorted :
    ReferencesReadable h (db.withSchedules (slices.sort db.spec.backup.schedules)) ↔
      ReferencesReadable h db := by
  constructor
  · intro hrefs
    refine ⟨fun sched hsched => ?_, hrefs.pitr, hrefs.monitoring, hrefs.engine,
      hrefs.loadBalancer, hrefs.features⟩
    exact hrefs.schedules sched ((slices.mem_sort _ _).mpr hsched)
  · intro hrefs
    refine ⟨fun sched hsched => ?_, hrefs.pitr, hrefs.monitoring, hrefs.engine,
      hrefs.loadBalancer, hrefs.features⟩
    exact hrefs.schedules sched ((slices.mem_sort _ _).mp hsched)

theorem referencesReadable_iff_unchecked (hschedules : SchedulesReadable h db)
    (hengine : EngineReadable h db) (hfeatures : FeaturesReadable h db) :
    ReferencesReadable h db ↔ UncheckedReadable h db := by
  constructor
  · intro hrefs
    exact ⟨hrefs.pitr, hrefs.monitoring, hrefs.loadBalancer⟩
  · intro hunchecked
    exact ⟨hschedules, hunchecked.pitr, hunchecked.monitoring, hengine, hunchecked.loadBalancer,
      hfeatures⟩

theorem CreateGranted.referencesReadable_iff (hg : CreateGranted h next db) :
    ReferencesReadable h db ↔ UncheckedReadable h db :=
  referencesReadable_iff_unchecked hg.schedules hg.engine hg.features

theorem UpdateGranted.referencesReadable_iff {oldDB : DatabaseCluster}
    (hg : UpdateGranted h next slices db oldDB) :
    ReferencesReadable h db ↔ UncheckedReadable h db :=
  referencesReadable_iff_unchecked hg.schedules hg.engine hg.features

end Decisions

/-- A create or an update passes on only what its user may read if and only if
its own checks leave no storage of point-in-time recovery, monitoring config or
load-balancer config that the user may not read. -/
theorem forwarded_readable_iff (h : RbacHandler) (next : ClusterReader)
    (slices : SortFunc BackupSchedule sortFn) (db : DatabaseCluster) :
    ((∀ forwarded, h.createDatabaseCluster next db = .ok forwarded →
        ReferencesReadable h forwarded) ↔
      (CreateGranted h next db → UncheckedReadable h db)) ∧
    ((∀ forwarded, h.updateDatabaseCluster next slices db = .ok forwarded →
        ReferencesReadable h forwarded) ↔
      (∀ oldDB, UpdateGranted h next slices db oldDB → UncheckedReadable h db)) := by
  constructor
  · constructor
    · intro hall hg
      exact hg.referencesReadable_iff.mp (hall db ((createDatabaseCluster_eq_ok _).mpr ⟨hg, rfl⟩))
    · intro hunchecked forwarded hforward
      obtain ⟨hg, rfl⟩ := (createDatabaseCluster_eq_ok _).mp hforward
      exact hg.referencesReadable_iff.mpr (hunchecked hg)
  · constructor
    · intro hall oldDB hg
      have hrefs := hall _ ((updateDatabaseCluster_eq_ok _).mpr ⟨⟨oldDB, hg⟩, rfl⟩)
      exact hg.referencesReadable_iff.mp (referencesReadable_sorted.mp hrefs)
    · intro hunchecked forwarded hforward
      obtain ⟨⟨oldDB, hg⟩, rfl⟩ := (updateDatabaseCluster_eq_ok _).mp hforward
      exact referencesReadable_sorted.mpr
        (hg.referencesReadable_iff.mpr (hunchecked oldDB hg))

def sampleCluster : DatabaseCluster where
  namespaceName := ascii "ns"
  name := ascii "db"
  spec :=
    { engine := ⟨databaseEnginePXC, ascii "8.0"⟩
      backup :=
        { schedules := [⟨ascii "nightly", true, ascii "daily", ascii "0 0 * * *", 3⟩]
          pitr := ⟨some (ascii "archive")⟩ }
      dataSource := none
      monitoring := some ⟨ascii "pmm"⟩
      proxy := ⟨⟨ascii "lbc"⟩⟩
      engineFeatures := none }
  status := ⟨ascii "ready", none⟩

def ClusterReader.storing (stored : DatabaseCluster) : ClusterReader where
  getDatabaseClusterBackup _ _ := .error ()
  getDatabaseCluster namespaceName name :=
    if namespaceName = stored.namespaceName ∧ name = stored.name then .ok stored else .error ()
  namespaceName_eq := by
    intro namespaceName name db hget
    split at hget
    · rename_i hkey
      rw [hkey.1, ← Except.ok.inj hget]
    · cases hget

def sampleReader : ClusterReader := .storing sampleCluster

def managesClusters : Policy := fun sub resource action object =>
  decide (sub = ascii "alice" ∧
    (resource = resourceDatabaseClusters ∨
      resource = resourceDatabaseEngines ∧ action = actionRead ∨
      resource = resourceDatabaseClusterBackups ∧ action = actionCreate ∨
      resource = resourceBackupStorages ∧ action = actionRead ∧ object = ascii "ns/daily"))

def clusterManager : RbacHandler := policyHandler managesClusters ⟨ascii "alice", []⟩

/-- The cluster is created and updated although its other storage, its monitoring
config and its load-balancer config may not be read, nor then the cluster itself. -/
theorem forwarded_unreadable :
    clusterManager.createDatabaseCluster sampleReader sampleCluster = .ok sampleCluster ∧
    clusterManager.updateDatabaseCluster sampleReader (.insertion sortFn) sampleCluster =
      .ok sampleCluster ∧
    ¬ PITRReadable clusterManager sampleCluster ∧
    ¬ MonitoringReadable clusterManager sampleCluster ∧
    ¬ LoadBalancerReadable clusterManager sampleCluster ∧
    clusterManager.enforceDBClusterRead sampleCluster = .error .errInsufficientPermissions := by
  refine ⟨rfl, rfl, ?_, ?_, ?_, ?_⟩
  · unfold PITRReadable
    decide +kernel
  · unfold MonitoringReadable
    decide +kernel
  · unfold LoadBalancerReadable
    decide +kernel
  · decide +kernel

end OpenEverest.Rbac
