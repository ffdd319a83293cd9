import OpenEverest.Framework.GoString

/-!
# The objects around a database cluster

Backups, restores and the configurations a cluster refers to: the names and the
references that the handlers read.
-/

namespace OpenEverest.Api

open Framework

structure DatabaseClusterBackup where
  namespaceName : GoString
  name : GoString
  dbClusterName : GoString
  backupStorageName : GoString
  deriving DecidableEq

structure DatabaseClusterRestore where
  name : GoString
  dbClusterName : GoString
  deriving DecidableEq

structure BackupStorage where
  name : GoString
  deriving DecidableEq

structure MonitoringConfig where
  name : GoString
  deriving DecidableEq

structure PodSchedulingPolicy where
  name : GoString
  deriving DecidableEq

structure LoadBalancerConfig where
  name : GoString
  deriving DecidableEq

structure SplitHorizonDNSConfig where
  namespaceName : GoString
  name : GoString
  deriving DecidableEq

end OpenEverest.Api
