import OpenEverest.Api.DatabaseCluster
import Mathlib.Data.Rat.Defs

/-!
# The objects the validators read

The fields of a database cluster that its validators look at, and the parts of
the objects they look up for it. A quantity is its exact value; the resources
are those that `EffectiveLimits` and `EffectiveRequests` return.
-/

namespace OpenEverest.Validation

open Framework Api

structure ResourceList where
  cpu : ℚ
  memory : ℚ
  deriving DecidableEq

structure Resources where
  effectiveLimits : ResourceList
  effectiveRequests : Option ResourceList
  deriving DecidableEq

structure Engine where
  type : GoString
  version : GoString
  replicas : Int
  storageSize : ℚ
  resources : Resources
  deriving DecidableEq

structure Proxy where
  type : GoString
  replicas : Option Int
  ipSourceRanges : List GoString
  resources : Resources
  deriving DecidableEq

structure PITRSpec where
  enabled : Bool
  backupStorageName : Option GoString
  uploadIntervalSec : Option Int
  deriving DecidableEq

structure BackupSource where
  backupStorageName : GoString
  path : GoString
  deriving DecidableEq

/-- The restore point of a data source; of its date, whether it is the zero time. -/
structure DataSourcePITR where
  type : GoString
  dateIsZero : Option Bool
  deriving DecidableEq

structure DataSource where
  dbClusterBackupName : GoString
  backupSource : Option BackupSource
  hasDataImport : Bool
  pitr : Option DataSourcePITR
  deriving DecidableEq

structure Sharding where
  enabled : Bool
  shards : Int
  configServerReplicas : Int
  deriving DecidableEq

structure DatabaseClusterSpec where
  engine : Engine
  proxy : Proxy
  schedules : List BackupSchedule
  pitr : PITRSpec
  dataSource : Option DataSource
  sharding : Option Sharding
  podSchedulingPolicyName : GoString
  deriving DecidableEq

structure DatabaseClusterStatus where
  status : GoString
  activeStorage : GoString
  deriving DecidableEq

structure DatabaseCluster where
  namespaceName : GoString
  name : GoString
  spec : DatabaseClusterSpec
  status : DatabaseClusterStatus
  deriving DecidableEq

/-- `spec.sharding != nil && spec.sharding.enabled`. -/
def DatabaseCluster.shardingEnabled (db : DatabaseCluster) : Bool :=
  (db.spec.sharding.map (·.enabled)).getD false

structure DatabaseEngine where
  allowedVersions : List GoString
  availableVersions : List GoString

structure AffinityComponents where
  engine : Bool
  proxy : Bool
  configServer : Bool

structure AffinityConfig where
  pxc : Option AffinityComponents
  psmdb : Option AffinityComponents
  postgresql : Option AffinityComponents

structure PodSchedulingPolicy where
  engineType : GoString
  affinityConfig : Option AffinityConfig

end OpenEverest.Validation
