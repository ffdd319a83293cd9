import OpenEverest.Framework.GoString

/-!
# Backup storages and monitoring instances

Both keep their credentials in a secret, which their spec names. The parameters of
an update hold the fields that it sets.
-/

namespace OpenEverest.Api

open Framework

structure Secret where
  data : List (GoString × GoString)
  deriving DecidableEq

/-- `string(secret.Data[key])`, empty for a key that is not there. -/
def Secret.get (secret : Secret) (key : GoString) : GoString := (secret.data.lookup key).getD []

structure BackupStorageSpec where
  type : GoString
  bucket : GoString
  region : GoString
  endpointURL : GoString
  description : GoString
  credentialsSecretName : GoString
  allowedNamespaces : List GoString
  verifyTLS : Option Bool
  forcePathStyle : Option Bool
  deriving DecidableEq

/-- A stored backup storage, and whether a database cluster uses it. -/
structure StoredBackupStorage where
  spec : BackupStorageSpec
  inUse : Bool
  deriving DecidableEq

structure CreateBackupStorageParams where
  name : GoString
  type : GoString
  bucketName : GoString
  region : GoString
  accessKey : GoString
  secretKey : GoString
  url : Option GoString
  description : Option GoString
  allowedNamespaces : Option (List GoString)
  verifyTLS : Option Bool
  forcePathStyle : Option Bool

structure UpdateBackupStorageParams where
  bucketName : Option GoString := none
  region : Option GoString := none
  accessKey : Option GoString := none
  secretKey : Option GoString := none
  url : Option GoString := none
  description : Option GoString := none
  allowedNamespaces : Option (List GoString) := none
  verifyTLS : Option Bool := none
  forcePathStyle : Option Bool := none

structure MonitoringConfigSpec where
  type : GoString
  pmmURL : GoString
  credentialsSecretName : GoString
  allowedNamespaces : List GoString
  verifyTLS : Option Bool
  deriving DecidableEq

structure PMMCredentials where
  apiKey : GoString
  user : GoString
  password : GoString

structure MonitoringInstanceCreateParams where
  name : GoString
  type : GoString
  url : GoString
  pmm : Option PMMCredentials
  verifyTLS : Option Bool

structure MonitoringInstanceUpdateParams where
  url : GoString := []
  pmm : Option PMMCredentials := none
  allowedNamespaces : Option (List GoString) := none
  verifyTLS : Option Bool := none

end OpenEverest.Api
