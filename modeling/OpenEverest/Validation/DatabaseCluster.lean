import OpenEverest.Api.Objects
import OpenEverest.Framework.Checks
import OpenEverest.Framework.Semver
import OpenEverest.Validation.Objects

/-!
# Validating a database cluster

The checks of a create or update request on the cluster it carries, and those
of an update against the stored cluster.
-/

namespace OpenEverest.Validation

open Framework GoString Api

inductive ValidationError where
  | getDatabaseEngine
  | getDatabaseCluster
  | getBackupStorage
  | getPodSchedulingPolicy
  | listDatabaseClusterBackups
  | conflict
  | panic
  | errEmptyNamespace
  | errEmptyName
  | errInvalidName
  | errUnsupportedEngine
  | errVersionNotAllowed
  | errVersionNotAvailable
  | errEvenEngineReplicas
  | errMaxPXCEngineReplicas
  | errUnsupportedPXCProxy
  | errUnsupportedPGProxy
  | errUnsupportedPSMDBProxy
  | errMinPXCProxyReplicas
  | errDuplicateSourceRange
  | errPitrNoBackupStorageName
  | errPitrUploadInterval
  | errNoNameInSchedule
  | errScheduleNoBackupStorageName
  | errDuplicatedSchedules
  | errPSMDBMultipleStorages
  | errPSMDBViolateActiveStorage
  | errPXCPitrS3Only
  | errDataSourceConfig
  | errDataSourceNoBackupStorageName
  | errDataSourceNoPath
  | errDataSourceNoPitrDateSpecified
  | errDataSourceWrongDateFormat
  | errUnsupportedPitrType
  | errDuplicatedStoragePG
  | errStorageChangePG
  | errTooManyPGStorages
  | errShardingIsNotSupported
  | errShardingVersion
  | errInsufficientShardsNumber
  | errInsufficientCfgSrvNumber1Node
  | errInsufficientCfgSrvNumber
  | errEvenServersNumber
  | errPSPEngineTypeMismatch
  | errPSPAffinityConfig
  | errPSPAffinityEmpty
  | errPSPAffinityComponentsEmpty
  | errNoResourceDefined
  | errNotEnoughCPU
  | errNotEnoughMemory
  | errCPURequestAboveLimit
  | errMemoryRequestAboveLimit
  | errNotEnoughDiskSize
  | errOperationNotAllowed
  | errInvalidVersion
  | errDBEngineDowngrade
  | errDBEngineMajorVersionUpgrade
  | errDBEngineMajorUpgradeNotSeq
  | errScaleDownToOne
  | errCannotShrinkStorageSize
  | errShardingEnablingNotSupported
  | errDisableShardingNotSupported
  | engineTypeChanged
  deriving DecidableEq

/-- What the handler looks up, and the functions of packages it calls: the check of
resource names, and parsing and constraints of the package `goversion`. -/
structure ValidateHandler where
  getDatabaseEngine : GoString → GoString → Except Unit DatabaseEngine
  getBackupStorageType : GoString → GoString → Except Unit GoString
  getPodSchedulingPolicy : GoString → Except Unit PodSchedulingPolicy
  validateEverestResourceName : GoString → Bool
  newVersion : GoString → Bool
  checkConstraint : GoString → GoString → Bool

def minShardsNum : Int := 1

def minConfigServersNumNNodeReplset : Int := 3

def maxPXCEngineReplicas : Int := 5

def minPXCProxyReplicas : Int := 2

def minConfigServersNum1NodeReplset : Int := 1

def pgReposLimit : Nat := 3

/-- `600m`, `512M` and `1G`. -/
def minCPUQuantity : ℚ := 6 / 10

def minMemQuantity : ℚ := 512000000

def minStorageQuantity : ℚ := 1000000000

def failWhen (c : Prop) [Decidable c] (e : ValidationError) : Except ValidationError Unit :=
  if c then .error e else .ok ()

theorem failWhen_eq_ok (c : Prop) [Decidable c] (e : ValidationError) :
    failWhen c e = .ok () ↔ ¬ c := by
  unfold failWhen
  split <;> simp_all

def validateMetadata (db : DatabaseCluster) : Except ValidationError Unit := do
  failWhen (db.namespaceName = []) .errEmptyNamespace
  failWhen (db.name = []) .errEmptyName

def validateVersion (version : GoString) (engine : DatabaseEngine) : Except ValidationError Unit :=
  if version = [] then .ok ()
  else if 0 < engine.allowedVersions.length then
    failWhen (version ∉ engine.allowedVersions) .errVersionNotAllowed
  else failWhen (version ∉ engine.availableVersions) .errVersionNotAvailable

def validateEngine (db : DatabaseCluster) (engine : DatabaseEngine) :
    Except ValidationError Unit := do
  validateVersion db.spec.engine.version engine
  let replicas := db.spec.engine.replicas
  if db.spec.engine.type = databaseEnginePXC then do
    failWhen (0 < replicas ∧ replicas % 2 = 0) .errEvenEngineReplicas
    failWhen (0 < replicas ∧ maxPXCEngineReplicas < replicas) .errMaxPXCEngineReplicas
  else if db.spec.engine.type = databaseEnginePSMDB then
    failWhen (0 < replicas ∧ replicas % 2 = 0) .errEvenEngineReplicas
  else .ok ()

def validateProxyType (engineType proxyType : GoString) : Except ValidationError Unit := do
  failWhen (engineType = databaseEnginePXC ∧ proxyType ≠ ascii "proxysql" ∧
    proxyType ≠ ascii "haproxy") .errUnsupportedPXCProxy
  failWhen (engineType = databaseEnginePostgresql ∧ proxyType ≠ ascii "pgbouncer")
    .errUnsupportedPGProxy
  failWhen (engineType = databaseEnginePSMDB ∧ proxyType ≠ ascii "mongos")
    .errUnsupportedPSMDBProxy

def validateProxy (db : DatabaseCluster) : Except ValidationError Unit := do
  validateProxyType db.spec.engine.type db.spec.proxy.type
  failWhen (db.spec.engine.type = databaseEnginePXC ∧ 1 < db.spec.engine.replicas ∧
    ∃ n ∈ db.spec.proxy.replicas, n < minPXCProxyReplicas) .errMinPXCProxyReplicas
  failWhen (¬ db.spec.proxy.ipSourceRanges.Nodup) .errDuplicateSourceRange

def validatePitrSpec (db : DatabaseCluster) : Except ValidationError Unit :=
  if !db.spec.pitr.enabled then .ok ()
  else do
    failWhen (db.spec.engine.type = databaseEnginePXC ∧ db.spec.pitr.backupStorageName.getD [] = [])
      .errPitrNoBackupStorageName
    failWhen (∃ n ∈ db.spec.pitr.uploadIntervalSec, n ≤ 0) .errPitrUploadInterval

def validateBackupSpec (db : DatabaseCluster) : Except ValidationError Unit := do
  validatePitrSpec db
  checkAll (fun schedule => do
    failWhen (schedule.name = []) .errNoNameInSchedule
    failWhen (schedule.enabled = true ∧ schedule.backupStorageName = [])
      .errScheduleNoBackupStorageName) db.spec.schedules
  -- `checkDuplicateSchedules`
  failWhen (¬ (db.spec.schedules.map (·.schedule)).Nodup) .errDuplicatedSchedules

def scheduleStorages (db : DatabaseCluster) : List GoString :=
  (db.spec.schedules.map (·.backupStorageName)).dedup

def validateBackupStoragesFor (h : ValidateHandler) (namespaceName : GoString)
    (db : DatabaseCluster) : Except ValidationError Unit := do
  if db.spec.engine.type = databaseEnginePSMDB then
    failWhen (1 < (scheduleStorages db).length) .errPSMDBMultipleStorages
    failWhen (db.status.activeStorage ≠ [] ∧
      ∃ name ∈ scheduleStorages db, name ≠ db.status.activeStorage) .errPSMDBViolateActiveStorage
  if db.spec.pitr.enabled = true ∧ db.spec.engine.type = databaseEnginePXC then
    match db.spec.pitr.backupStorageName with
    | none => .error .errPitrNoBackupStorageName
    | some name =>
      if name = [] then .error .errPitrNoBackupStorageName
      else match h.getBackupStorageType namespaceName name with
        | .error _ => .error .getBackupStorage
        | .ok type => failWhen (type ≠ ascii "s3") .errPXCPitrS3Only

def validateDataSource (dataSource : DataSource) : Except ValidationError Unit := do
  let sources := (if dataSource.dbClusterBackupName ≠ [] then 1 else 0) +
    (if dataSource.backupSource.isSome then 1 else 0) + (if dataSource.hasDataImport then 1 else 0)
  failWhen (sources ≠ 1) .errDataSourceConfig
  failWhen (∃ source ∈ dataSource.backupSource, source.backupStorageName = [])
    .errDataSourceNoBackupStorageName
  failWhen (∃ source ∈ dataSource.backupSource, source.path = []) .errDataSourceNoPath
  match dataSource.pitr with
  | none => .ok ()
  | some pitr =>
    if pitr.type = [] ∨ pitr.type = ascii "date" then
      match pitr.dateIsZero with
      | none => .error .errDataSourceNoPitrDateSpecified
      | some isZero => failWhen (isZero = true) .errDataSourceWrongDateFormat
    else .error .errUnsupportedPitrType

def checkStorageDuplicates (db : DatabaseCluster) : Except ValidationError Unit :=
  failWhen (¬ (db.spec.schedules.map (·.backupStorageName)).Nodup) .errDuplicatedStoragePG

def checkSchedulesChanges (oldDb newDb : DatabaseCluster) : Except ValidationError Unit :=
  if newDb.spec.schedules.length = 0 then .ok ()
  else do
    failWhen (∃ oldSched ∈ oldDb.spec.schedules, ∃ newSched ∈ newDb.spec.schedules,
      oldSched.name = newSched.name ∧ oldSched.backupStorageName ≠ newSched.backupStorageName)
      .errStorageChangePG
    checkStorageDuplicates newDb

/-- `none` for a cluster that is not found, which is one being created. -/
def validatePGSchedulesRestrictions (existing : Option DatabaseCluster) (newDb : DatabaseCluster) :
    Except ValidationError Unit :=
  match existing with
  | none => checkStorageDuplicates newDb
  | some existing => checkSchedulesChanges existing newDb

/-- The storages of the schedules and of the backups listed, without repetitions. -/
def pgRepos (db : DatabaseCluster) (backups : List DatabaseClusterBackup) : List GoString :=
  (db.spec.schedules.map (·.backupStorageName) ++ backups.map (·.backupStorageName)).dedup

def validatePGReposForAPIDB (db : DatabaseCluster)
    (backups : Except Unit (List DatabaseClusterBackup)) : Except ValidationError Unit :=
  match backups with
  | .error _ => .error .listDatabaseClusterBackups
  | .ok backups => failWhen (pgReposLimit < (pgRepos db backups).length) .errTooManyPGStorages

def validateSharding (h : ValidateHandler) (db : DatabaseCluster) : Except ValidationError Unit :=
  match db.spec.sharding with
  | none => .ok ()
  | some sharding =>
    if !sharding.enabled then .ok ()
    else do
      failWhen (db.spec.engine.type ≠ databaseEnginePSMDB) .errShardingIsNotSupported
      failWhen (db.spec.engine.version = []) .errShardingVersion
      failWhen (h.newVersion db.spec.engine.version = false) .errShardingVersion
      failWhen (h.checkConstraint db.spec.engine.version (ascii ">=1.17.0") = false)
        .errShardingVersion
      failWhen (sharding.shards < minShardsNum) .errInsufficientShardsNumber
      failWhen (db.spec.engine.replicas ≠ 0 ∧ db.spec.engine.replicas = 1 ∧
        sharding.configServerReplicas < minConfigServersNum1NodeReplset)
        .errInsufficientCfgSrvNumber1Node
      failWhen (db.spec.engine.replicas ≠ 0 ∧ 1 < db.spec.engine.replicas ∧
        sharding.configServerReplicas < minConfigServersNumNNodeReplset)
        .errInsufficientCfgSrvNumber
      failWhen (sharding.configServerReplicas % 2 = 0) .errEvenServersNumber

/-- `none` where the policy has no part for the engine. -/
def checkAffinity (components : Option Bool) : Except ValidationError Unit :=
  match components with
  | none => .error .errPSPAffinityEmpty
  | some any => failWhen (any = false) .errPSPAffinityComponentsEmpty

def validateDBClusterPSPAffinityConfig (engineType : GoString) (config : AffinityConfig) :
    Except ValidationError Unit :=
  if engineType = databaseEnginePXC then
    checkAffinity (config.pxc.map fun c => c.engine || c.proxy)
  else if engineType = databaseEnginePSMDB then
    checkAffinity (config.psmdb.map fun c => c.engine || c.proxy || c.configServer)
  else if engineType = databaseEnginePostgresql then
    checkAffinity (config.postgresql.map fun c => c.engine || c.proxy)
  else .ok ()

def validatePodSchedulingPolicy (h : ValidateHandler) (db : DatabaseCluster) :
    Except ValidationError Unit :=
  if db.spec.podSchedulingPolicyName = [] then .ok ()
  else match h.getPodSchedulingPolicy db.spec.podSchedulingPolicyName with
    | .error _ => .error .getPodSchedulingPolicy
    | .ok psp => do
      failWhen (psp.engineType ≠ db.spec.engine.type) .errPSPEngineTypeMismatch
      match psp.affinityConfig with
      | none => .error .errPSPAffinityConfig
      | some config => validateDBClusterPSPAffinityConfig psp.engineType config

def requestsNotAboveLimits (resources : Resources) : Except ValidationError Unit :=
  match resources.effectiveRequests with
  | none => .ok ()
  | some requests => do
    let limits := resources.effectiveLimits
    failWhen (requests.cpu ≠ 0 ∧ limits.cpu ≠ 0 ∧ limits.cpu < requests.cpu) .errCPURequestAboveLimit
    failWhen (requests.memory ≠ 0 ∧ limits.memory ≠ 0 ∧ limits.memory < requests.memory)
      .errMemoryRequestAboveLimit

def validateResourceLimits (db : DatabaseCluster) : Except ValidationError Unit := do
  let limits := db.spec.engine.resources.effectiveLimits
  failWhen (limits.cpu = 0 ∧ limits.memory = 0) .errNoResourceDefined
  failWhen (limits.cpu = 0) .errNotEnoughCPU
  failWhen (limits.memory = 0) .errNotEnoughMemory
  failWhen (limits.cpu < minCPUQuantity) .errNotEnoughCPU
  failWhen (limits.memory < minMemQuantity) .errNotEnoughMemory
  requestsNotAboveLimits db.spec.engine.resources
  requestsNotAboveLimits db.spec.proxy.resources
  failWhen (db.spec.engine.storageSize < minStorageQuantity) .errNotEnoughDiskSize

section Handler

variable (h : ValidateHandler)

def validateBeforeRepos (db : DatabaseCluster) : Except ValidationError Unit := do
  validateMetadata db
  failWhen (h.validateEverestResourceName db.name = false) .errInvalidName
  failWhen (operatorTypeToName db.spec.engine.type = []) .errUnsupportedEngine
  match h.getDatabaseEngine db.namespaceName (operatorTypeToName db.spec.engine.type) with
  | .error _ => .error .getDatabaseEngine
  | .ok engine => do
    validateEngine db engine
    if db.spec.proxy.type ≠ [] then validateProxy db
    validateBackupSpec db
    validateBackupStoragesFor h db.namespaceName db
    match db.spec.dataSource with
    | none => .ok ()
    | some dataSource => validateDataSource dataSource

def validateRepos (existing : Except Unit (Option DatabaseCluster))
    (backups : Except Unit (List DatabaseClusterBackup)) (db : DatabaseCluster) :
    Except ValidationError Unit :=
  if db.spec.engine.type = databaseEnginePostgresql then
    match existing with
    | .error _ => .error .getDatabaseCluster
    | .ok existing => do
      validatePGSchedulesRestrictions existing db
      validatePGReposForAPIDB db backups
  else .ok ()

def validateAfterRepos (db : DatabaseCluster) : Except ValidationError Unit := do
  validateSharding h db
  validatePodSchedulingPolicy h db
  validateResourceLimits db

def validateDatabaseClusterCR (existing : Except Unit (Option DatabaseCluster))
    (backups : Except Unit (List DatabaseClusterBackup)) (db : DatabaseCluster) :
    Except ValidationError Unit := do
  validateBeforeRepos h db
  validateRepos existing backups db
  validateAfterRepos h db

end Handler

def isDatabaseClusterUpdateAllowed (currentDB : DatabaseCluster) : Bool :=
  !decide (currentDB.status.status ∈ [ascii "restoring", ascii "deleting", ascii "upgrading",
    ascii "resizingVolumes"])

def ensureV (version : GoString) : GoString :=
  if version.head? = some 118 then version else 118 :: version

/-- `strconv.Atoi` of digits, its error ignored: zero for none, the largest `int` for too many. -/
def atoi (digits : GoString) : Int :=
  match parseUint digits with
  | none => 0
  | some n => if n < 2 ^ 63 then n else 2 ^ 63 - 1

def validateDBEngineVersionUpgrade (engineType newVersion oldVersion : GoString) :
    Except ValidationError Unit := do
  let newVersion := ensureV newVersion
  let oldVersion := ensureV oldVersion
  failWhen (Semver.isValid newVersion = false) .errInvalidVersion
  failWhen (Semver.compareVersion newVersion oldVersion = .lt) .errDBEngineDowngrade
  failWhen (engineType ≠ databaseEnginePSMDB ∧
    Semver.major oldVersion ≠ Semver.major newVersion) .errDBEngineMajorVersionUpgrade
  -- `semver.Major(oldVersion)[1:]` of an invalid version
  failWhen (Semver.major oldVersion = []) .panic
  failWhen (1 < atoi ((Semver.major newVersion).drop 1) - atoi ((Semver.major oldVersion).drop 1))
    .errDBEngineMajorUpgradeNotSeq

def validateShardingOnUpdate (h : ValidateHandler) (db oldDB : DatabaseCluster) :
    Except ValidationError Unit :=
  if !oldDB.shardingEnabled then
    failWhen (db.shardingEnabled = true) .errShardingEnablingNotSupported
  else do
    failWhen (db.shardingEnabled = false) .errDisableShardingNotSupported
    validateSharding h db

/-- What `validateDatabaseClusterOnUpdate` checks of the versions. -/
def engineVersionCheck (engineType newVersion oldVersion : GoString) :
    Except ValidationError Unit :=
  checkWhen (newVersion ≠ [] ∧ newVersion ≠ oldVersion)
    (validateDBEngineVersionUpgrade engineType newVersion oldVersion)

def validateDatabaseClusterOnUpdate (h : ValidateHandler) (db oldDB : DatabaseCluster) :
    Except ValidationError Unit := do
  failWhen (isDatabaseClusterUpdateAllowed oldDB = false) .errOperationNotAllowed
  engineVersionCheck oldDB.spec.engine.type db.spec.engine.version oldDB.spec.engine.version
  failWhen (db.spec.engine.replicas < oldDB.spec.engine.replicas ∧ db.spec.engine.replicas = 1)
    .errScaleDownToOne
  failWhen (db.spec.engine.storageSize < oldDB.spec.engine.storageSize) .errCannotShrinkStorageSize
  validateShardingOnUpdate h db oldDB

end OpenEverest.Validation
