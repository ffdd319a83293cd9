import OpenEverest.Framework.GoString

/-!
# Database clusters and engines

The parts of the custom resources that the handlers read. An absent optional
object is `none`; its fields are then read as empty, as through `pointer.Get`.
-/

namespace OpenEverest.Api

open Framework

def databaseEnginePXC : GoString := ascii "pxc"

def databaseEnginePSMDB : GoString := ascii "psmdb"

def databaseEnginePostgresql : GoString := ascii "postgresql"

structure BackupSchedule where
  name : GoString
  enabled : Bool
  backupStorageName : GoString
  schedule : GoString
  retentionCopies : Int
  deriving DecidableEq

structure PITRSpec where
  backupStorageName : Option GoString

structure Backup where
  schedules : List BackupSchedule
  pitr : PITRSpec

structure DataSource where
  dbClusterBackupName : GoString

structure Monitoring where
  monitoringConfigName : GoString

structure Engine where
  type : GoString
  version : GoString

structure Expose where
  loadBalancerConfigName : GoString

structure Proxy where
  expose : Expose

structure PSMDBEngineFeatures where
  splitHorizonDNSConfigName : GoString

structure EngineFeatures where
  psmdb : Option PSMDBEngineFeatures

structure DatabaseClusterSpec where
  engine : Engine
  backup : Backup
  dataSource : Option DataSource
  monitoring : Option Monitoring
  proxy : Proxy
  engineFeatures : Option EngineFeatures

structure DatabaseClusterStatus where
  status : GoString
  recommendedCRVersion : Option GoString

structure DatabaseCluster where
  namespaceName : GoString
  name : GoString
  spec : DatabaseClusterSpec
  status : DatabaseClusterStatus

namespace DatabaseCluster

variable (db : DatabaseCluster)

/-- `pointer.Get(db.Spec.Backup.PITR.BackupStorageName)`. -/
def pitrStorage : GoString := db.spec.backup.pitr.backupStorageName.getD []

/-- `pointer.Get(db.Spec.Monitoring).MonitoringConfigName`. -/
def monitoringConfig : GoString := (db.spec.monitoring.map (·.monitoringConfigName)).getD []

/-- The backup a cluster is created from, empty when there is no data source. -/
def sourceBackup : GoString := (db.spec.dataSource.map (·.dbClusterBackupName)).getD []

def withSchedules (schedules : List BackupSchedule) : DatabaseCluster :=
  { db with spec := { db.spec with backup := { db.spec.backup with schedules } } }

/-- `pointer.Get(pointer.Get(db.Spec.EngineFeatures).PSMDB).SplitHorizonDNSConfigName`. -/
def splitHorizonDNSConfig : GoString :=
  ((db.spec.engineFeatures.bind (·.psmdb)).map (·.splitHorizonDNSConfigName)).getD []

end DatabaseCluster

structure PendingOperatorUpgrade where
  targetVersion : GoString
  installPlanRef : GoString
  deriving DecidableEq

structure DatabaseEngineStatus where
  operatorVersion : GoString
  pendingOperatorUpgrades : List PendingOperatorUpgrade
  deriving DecidableEq

structure DatabaseEngine where
  namespaceName : GoString
  name : GoString
  type : GoString
  status : DatabaseEngineStatus
  deriving DecidableEq

/-- `common.OperatorTypeToName`, which has no entry for other types. -/
def operatorTypeToName (type : GoString) : GoString :=
  if type = databaseEnginePXC then ascii "percona-xtradb-cluster-operator"
  else if type = databaseEnginePSMDB then ascii "percona-server-mongodb-operator"
  else if type = databaseEnginePostgresql then ascii "percona-postgresql-operator"
  else []

/-- `versionservice.EngineTypeToOperatorName`. -/
def engineTypeToOperatorName (type : GoString) : Option GoString :=
  if type = databaseEnginePXC then some (ascii "pxc-operator")
  else if type = databaseEnginePSMDB then some (ascii "psmdb-operator")
  else if type = databaseEnginePostgresql then some (ascii "pg-operator")
  else none

end OpenEverest.Api
