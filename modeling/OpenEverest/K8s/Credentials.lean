import OpenEverest.Api.Storages
import OpenEverest.Framework.Checks
import OpenEverest.Framework.ObjectStore

/-!
# Credentials of backup storages and monitoring instances

The Kubernetes layer keeps the credentials of an object in a secret of the object's
name. It writes the secret first, and each of its calls may fail.
-/

namespace OpenEverest.K8s

open Framework GoString Api

inductive ObjectKind where
  | secret
  | backupStorage
  | monitoringConfig
  deriving DecidableEq

inductive Call where
  | get (kind : ObjectKind)
  | create (kind : ObjectKind)
  | update (kind : ObjectKind)
  | delete (kind : ObjectKind)
  deriving DecidableEq

/-- The error that a call of a request fails with; no request makes a call twice. -/
abbrev Failures := Call → Option StoreError

def noFailures : Failures := fun _ => none

structure NamespaceObjects where
  secrets : ObjectStore GoString Secret
  backupStorages : ObjectStore GoString StoredBackupStorage
  monitoringConfigs : ObjectStore GoString MonitoringConfigSpec

namespace NamespaceObjects

def putSecret (ns : NamespaceObjects) (name : GoString) (secret : Secret) : NamespaceObjects :=
  { ns with secrets := ns.secrets.put name secret }

def eraseSecret (ns : NamespaceObjects) (name : GoString) : NamespaceObjects :=
  { ns with secrets := ns.secrets.erase name }

def putStorage (ns : NamespaceObjects) (name : GoString) (bs : StoredBackupStorage) :
    NamespaceObjects :=
  { ns with backupStorages := ns.backupStorages.put name bs }

def putConfig (ns : NamespaceObjects) (name : GoString) (m : MonitoringConfigSpec) :
    NamespaceObjects :=
  { ns with monitoringConfigs := ns.monitoringConfigs.put name m }

def Has (ns : NamespaceObjects) (kind : ObjectKind) (name : GoString) : Prop :=
  match kind with
  | .secret => ns.secrets name ≠ none
  | .backupStorage => ns.backupStorages name ≠ none
  | .monitoringConfig => ns.monitoringConfigs name ≠ none

variable (fails : Failures) (ns : NamespaceObjects) (name : GoString)

def createSecret (secret : Secret) : Except StoreError NamespaceObjects :=
  inject (fails (.create .secret))
    ((ns.secrets.create name secret).map fun secrets => { ns with secrets })

def updateSecret (secret : Secret) : Except StoreError NamespaceObjects :=
  inject (fails (.update .secret))
    ((ns.secrets.update name secret).map fun secrets => { ns with secrets })

def deleteSecret : Except StoreError NamespaceObjects :=
  inject (fails (.delete .secret))
    ((ns.secrets.delete name).map fun secrets => { ns with secrets })

def getBackupStorage : Except StoreError StoredBackupStorage :=
  inject (fails (.get .backupStorage)) (ns.backupStorages.get name)

def createBackupStorage (bs : StoredBackupStorage) : Except StoreError NamespaceObjects :=
  inject (fails (.create .backupStorage))
    ((ns.backupStorages.create name bs).map fun backupStorages => { ns with backupStorages })

def updateBackupStorage (bs : StoredBackupStorage) : Except StoreError NamespaceObjects :=
  inject (fails (.update .backupStorage))
    ((ns.backupStorages.update name bs).map fun backupStorages => { ns with backupStorages })

def deleteBackupStorage : Except StoreError NamespaceObjects :=
  inject (fails (.delete .backupStorage))
    ((ns.backupStorages.delete name).map fun backupStorages => { ns with backupStorages })

def getMonitoringConfig : Except StoreError MonitoringConfigSpec :=
  inject (fails (.get .monitoringConfig)) (ns.monitoringConfigs.get name)

def createMonitoringConfig (m : MonitoringConfigSpec) : Except StoreError NamespaceObjects :=
  inject (fails (.create .monitoringConfig))
    ((ns.monitoringConfigs.create name m).map fun monitoringConfigs =>
      { ns with monitoringConfigs })

def updateMonitoringConfig (m : MonitoringConfigSpec) : Except StoreError NamespaceObjects :=
  inject (fails (.update .monitoringConfig))
    ((ns.monitoringConfigs.update name m).map fun monitoringConfigs =>
      { ns with monitoringConfigs })

def deleteMonitoringConfig : Except StoreError NamespaceObjects :=
  inject (fails (.delete .monitoringConfig))
    ((ns.monitoringConfigs.delete name).map fun monitoringConfigs =>
      { ns with monitoringConfigs })

section Calls

variable {fails ns name}

theorem createSecret_eq_ok {secret : Secret} {t : NamespaceObjects} :
    ns.createSecret fails name secret = .ok t ↔
      fails (.create .secret) = none ∧ ns.secrets name = none ∧ t = ns.putSecret name secret := by
  simp [createSecret, inject_eq_ok, map_eq_ok, ObjectStore.create_eq_ok, putSecret, and_assoc]

theorem createSecret_eq_error {secret : Secret} {e : StoreError} :
    ns.createSecret fails name secret = .error e ↔ fails (.create .secret) = some e ∨
      fails (.create .secret) = none ∧ ns.secrets name ≠ none ∧ e = .alreadyExists := by
  simp [createSecret, inject_eq_error, map_eq_error, ObjectStore.create_eq_error]

theorem updateSecret_eq_ok {secret : Secret} {t : NamespaceObjects} :
    ns.updateSecret fails name secret = .ok t ↔
      fails (.update .secret) = none ∧ ns.secrets name ≠ none ∧ t = ns.putSecret name secret := by
  simp [updateSecret, inject_eq_ok, map_eq_ok, ObjectStore.update_eq_ok, putSecret, and_assoc]

theorem deleteSecret_eq_ok {t : NamespaceObjects} :
    ns.deleteSecret fails name = .ok t ↔
      fails (.delete .secret) = none ∧ ns.secrets name ≠ none ∧ t = ns.eraseSecret name := by
  simp [deleteSecret, inject_eq_ok, map_eq_ok, ObjectStore.delete_eq_ok, eraseSecret, and_assoc]

theorem getBackupStorage_eq_ok {bs : StoredBackupStorage} :
    ns.getBackupStorage fails name = .ok bs ↔
      fails (.get .backupStorage) = none ∧ ns.backupStorages name = some bs := by
  rw [getBackupStorage, inject_eq_ok, ObjectStore.get_eq_ok]

theorem createBackupStorage_eq_ok {bs : StoredBackupStorage} {t : NamespaceObjects} :
    ns.createBackupStorage fails name bs = .ok t ↔ fails (.create .backupStorage) = none ∧
      ns.backupStorages name = none ∧ t = ns.putStorage name bs := by
  simp [createBackupStorage, inject_eq_ok, map_eq_ok, ObjectStore.create_eq_ok, putStorage,
    and_assoc]

theorem updateBackupStorage_eq_ok {bs : StoredBackupStorage} {t : NamespaceObjects} :
    ns.updateBackupStorage fails name bs = .ok t ↔ fails (.update .backupStorage) = none ∧
      ns.backupStorages name ≠ none ∧ t = ns.putStorage name bs := by
  simp [updateBackupStorage, inject_eq_ok, map_eq_ok, ObjectStore.update_eq_ok, putStorage,
    and_assoc]

theorem getMonitoringConfig_eq_ok {m : MonitoringConfigSpec} :
    ns.getMonitoringConfig fails name = .ok m ↔
      fails (.get .monitoringConfig) = none ∧ ns.monitoringConfigs name = some m := by
  rw [getMonitoringConfig, inject_eq_ok, ObjectStore.get_eq_ok]

theorem createMonitoringConfig_eq_ok {m : MonitoringConfigSpec} {t : NamespaceObjects} :
    ns.createMonitoringConfig fails name m = .ok t ↔ fails (.create .monitoringConfig) = none ∧
      ns.monitoringConfigs name = none ∧ t = ns.putConfig name m := by
  simp [createMonitoringConfig, inject_eq_ok, map_eq_ok, ObjectStore.create_eq_ok, putConfig,
    and_assoc]

theorem updateMonitoringConfig_eq_ok {m : MonitoringConfigSpec} {t : NamespaceObjects} :
    ns.updateMonitoringConfig fails name m = .ok t ↔ fails (.update .monitoringConfig) = none ∧
      ns.monitoringConfigs name ≠ none ∧ t = ns.putConfig name m := by
  simp [updateMonitoringConfig, inject_eq_ok, map_eq_ok, ObjectStore.update_eq_ok, putConfig,
    and_assoc]

theorem deleteMonitoringConfig_eq_ok {t : NamespaceObjects} :
    ns.deleteMonitoringConfig fails name = .ok t ↔ fails (.delete .monitoringConfig) = none ∧
      ns.monitoringConfigs name ≠ none ∧
      t = { ns with monitoringConfigs := ns.monitoringConfigs.erase name } := by
  simp [deleteMonitoringConfig, inject_eq_ok, map_eq_ok, ObjectStore.delete_eq_ok, and_assoc]

end Calls

/-- `ctrlclient.IgnoreNotFound` of a deletion. -/
def ignoreNotFound : Except StoreError NamespaceObjects → Except StoreError NamespaceObjects
  | .error .notFound => .ok ns
  | deleted => deleted

end NamespaceObjects

inductive HandlerError where
  | kube (e : StoreError)
  | alreadyExists (resource : String) (name : GoString)
  | couldNotUpdateSecret (name : GoString)
  | failedCreatingSecret
  | failedCleaningUp
  | createPMMApiKey
  | nilPointer
  | join (e e' : HandlerError)
  | wrap (context : String) (e : HandlerError)
  deriving DecidableEq

abbrev Answer (α : Type) := Except HandlerError α × NamespaceObjects

/-- The errors of a creation that differ between the two kinds of objects. -/
structure CreateErrors where
  onUpdateSecret : StoreError → HandlerError
  onCreateSecret : StoreError → HandlerError
  onCleanUp : StoreError → StoreError → HandlerError
  onCreate : StoreError → HandlerError

section Handler

variable (fails : Failures) (ns : NamespaceObjects)

/-- `CreateSecret`, and `UpdateSecret` of a secret that exists. -/
def createOrUpdateSecret (errors : CreateErrors) (name : GoString) (secret : Secret) :
    Except HandlerError NamespaceObjects :=
  match ns.createSecret fails name secret with
  | .ok written => .ok written
  | .error .alreadyExists =>
    match ns.updateSecret fails name secret with
    | .ok written => .ok written
    | .error e => .error (errors.onUpdateSecret e)
  | .error e => .error (errors.onCreateSecret e)

/-- The secret and then the object; the secret of an object that is not created is deleted. -/
def createWithSecret {α : Type} (errors : CreateErrors) (name : GoString) (secret : Secret)
    (create : NamespaceObjects → Except StoreError NamespaceObjects) (object : α) : Answer α :=
  match createOrUpdateSecret fails ns errors name secret with
  | .error e => (.error e, ns)
  | .ok written =>
    match create written with
    | .ok created => (.ok object, created)
    | .error e =>
      match written.deleteSecret fails name with
      | .error dErr => (.error (errors.onCleanUp e dErr), written)
      | .ok cleaned => (.error (errors.onCreate e), cleaned)

def secretKeyEntry : GoString := ascii "AWS_SECRET_ACCESS_KEY"

def accessKeyEntry : GoString := ascii "AWS_ACCESS_KEY_ID"

def backupSecretData (secretKey accessKey : GoString) : Secret :=
  ⟨[(secretKeyEntry, secretKey), (accessKeyEntry, accessKey)]⟩

def backupStorageErrors : CreateErrors where
  onUpdateSecret e := .wrap "failed to update secret" (.kube e)
  onCreateSecret e := .wrap "failed to create secret" (.kube e)
  onCleanUp e dErr := .join (.kube e) (.kube dErr)
  onCreate e := .wrap "failed to create backup storage" (.kube e)

def backupStorageFromParams (req : CreateBackupStorageParams) : StoredBackupStorage where
  spec :=
    { type := req.type
      bucket := req.bucketName
      region := req.region
      endpointURL := req.url.getD []
      description := req.description.getD []
      credentialsSecretName := req.name
      allowedNamespaces := req.allowedNamespaces.getD []
      verifyTLS := req.verifyTLS
      forcePathStyle := req.forcePathStyle }
  inUse := false

def createBackupStorage (req : CreateBackupStorageParams) : Answer StoredBackupStorage :=
  match ns.getBackupStorage fails req.name with
  | .ok _ => (.error (.alreadyExists "backupstorages" req.name), ns)
  | .error .notFound =>
    createWithSecret fails ns backupStorageErrors req.name
      (backupSecretData req.secretKey req.accessKey)
      (fun written => written.createBackupStorage fails req.name (backupStorageFromParams req))
      (backupStorageFromParams req)
  | .error e => (.error (.wrap "failed to get backup storage" (.kube e)), ns)

def updatedBackupStorage (req : UpdateBackupStorageParams) (bs : StoredBackupStorage) :
    StoredBackupStorage :=
  { bs with
    spec :=
      { bs.spec with
        bucket := req.bucketName.getD bs.spec.bucket
        region := req.region.getD bs.spec.region
        endpointURL := req.url.getD bs.spec.endpointURL
        description := req.description.getD bs.spec.description
        allowedNamespaces := req.allowedNamespaces.getD bs.spec.allowedNamespaces
        verifyTLS := req.verifyTLS.or bs.spec.verifyTLS
        forcePathStyle := req.forcePathStyle.or bs.spec.forcePathStyle } }

/-- The secret is written when one half of the credentials is present, the other as "". -/
def updateBackupSecret (name : GoString) (req : UpdateBackupStorageParams) :
    Except StoreError NamespaceObjects :=
  if req.accessKey.isSome || req.secretKey.isSome then
    ns.updateSecret fails name
      (backupSecretData (req.secretKey.getD []) (req.accessKey.getD []))
  else .ok ns

/-- The object is read and written after the secret. -/
def updateStorageObject (name : GoString) (req : UpdateBackupStorageParams) :
    Answer StoredBackupStorage :=
  match ns.getBackupStorage fails name with
  | .error e => (.error (.wrap "failed to get backup storage" (.kube e)), ns)
  | .ok bs =>
    match ns.updateBackupStorage fails name (updatedBackupStorage req bs) with
    | .error e => (.error (.kube e), ns)
    | .ok updated => (.ok (updatedBackupStorage req bs), updated)

def updateBackupStorage (name : GoString) (req : UpdateBackupStorageParams) :
    Answer StoredBackupStorage :=
  match updateBackupSecret fails ns name req with
  | .error e => (.error (.wrap "failed to update secret" (.kube e)), ns)
  | .ok written => updateStorageObject fails written name req

def deleteBackupStorage (name : GoString) : Answer Unit :=
  match ns.ignoreNotFound (ns.deleteBackupStorage fails name) with
  | .error e => (.error (.wrap "failed to delete backup storage" (.kube e)), ns)
  | .ok deleted =>
    match deleted.ignoreNotFound (deleted.deleteSecret fails name) with
    | .error e => (.error (.wrap "failed to delete secret" (.kube e)), deleted)
    | .ok cleaned => (.ok (), cleaned)

/-- The monitoring server of a request: `CreatePMMApiKey` of its URL, a name for the
key, user, password and whether TLS goes unverified, and the new UUID in that name. -/
structure PMM where
  newString : GoString
  createPMMApiKey : GoString → GoString → GoString → GoString → Bool → Except Unit GoString

def PMM.keyName (pmm : PMM) (name : GoString) : GoString :=
  ascii "everest-" ++ name ++ ascii "-" ++ pmm.newString

def PMM.createKey (pmm : PMM) (url name : GoString) (credentials : PMMCredentials)
    (verifyTLS : Option Bool) : Except HandlerError GoString :=
  match pmm.createPMMApiKey url (pmm.keyName name) credentials.user credentials.password
      (!verifyTLS.getD false) with
  | .error _ => .error .createPMMApiKey
  | .ok apiKey => .ok apiKey

def monitoringConfigSecretData (apiKey : GoString) : Secret :=
  ⟨[(ascii "apiKey", apiKey), (ascii "username", ascii "api_key")]⟩

def monitoringErrors (name : GoString) : CreateErrors where
  onUpdateSecret _ := .couldNotUpdateSecret name
  onCreateSecret _ := .failedCreatingSecret
  onCleanUp _ _ := .failedCleaningUp
  onCreate e := .kube e

def getPMMApiKey (pmm : PMM) (params : MonitoringInstanceCreateParams) :
    Except HandlerError GoString :=
  match params.pmm with
  | none => .error .nilPointer
  | some credentials =>
    if credentials.apiKey ≠ [] then .ok credentials.apiKey
    else pmm.createKey params.url params.name credentials params.verifyTLS

def monitoringConfigFromParams (params : MonitoringInstanceCreateParams) :
    MonitoringConfigSpec where
  type := params.type
  pmmURL := params.url
  credentialsSecretName := params.name
  allowedNamespaces := []
  verifyTLS := params.verifyTLS

def createMonitoringK8sResources (params : MonitoringInstanceCreateParams) (apiKey : GoString) :
    Answer MonitoringConfigSpec :=
  createWithSecret fails ns (monitoringErrors params.name) params.name
    (monitoringConfigSecretData apiKey)
    (fun written =>
      written.createMonitoringConfig fails params.name (monitoringConfigFromParams params))
    (monitoringConfigFromParams params)

def createMonitoringInstance (pmm : PMM) (req : MonitoringInstanceCreateParams) :
    Answer MonitoringConfigSpec :=
  match ns.getMonitoringConfig fails req.name with
  | .ok _ => (.error (.alreadyExists "monitoringconfigs" req.name), ns)
  | .error .notFound =>
    match getPMMApiKey pmm req with
    | .error e => (.error e, ns)
    | .ok apiKey => createMonitoringK8sResources fails ns req apiKey
  | .error e => (.error (.kube e), ns)

/-- The key an update supplies, empty for none: one made for the user wins. -/
def updatedApiKey (pmm : PMM) (m : MonitoringConfigSpec) (name : GoString)
    (req : MonitoringInstanceUpdateParams) : Except HandlerError GoString :=
  match req.pmm with
  | none => .ok []
  | some credentials =>
    if credentials.user ≠ [] ∧ credentials.password ≠ [] then
      pmm.createKey m.pmmURL name credentials req.verifyTLS
    else .ok credentials.apiKey

def updatedMonitoringConfig (req : MonitoringInstanceUpdateParams) (m : MonitoringConfigSpec) :
    MonitoringConfigSpec :=
  { m with
    pmmURL := if req.url ≠ [] then req.url else m.pmmURL
    allowedNamespaces := req.allowedNamespaces.getD m.allowedNamespaces
    verifyTLS := req.verifyTLS.or m.verifyTLS }

def updateMonitoringSecret (name apiKey : GoString) : Except StoreError NamespaceObjects :=
  if apiKey ≠ [] then ns.updateSecret fails name (monitoringConfigSecretData apiKey) else .ok ns

/-- The object that was read before is written after the secret. -/
def updateConfigObject (name : GoString) (m : MonitoringConfigSpec) :
    Answer MonitoringConfigSpec :=
  match ns.updateMonitoringConfig fails name m with
  | .error e => (.error (.kube e), ns)
  | .ok updated => (.ok m, updated)

def updateMonitoringInstance (pmm : PMM) (name : GoString) (req : MonitoringInstanceUpdateParams) :
    Answer MonitoringConfigSpec :=
  match ns.getMonitoringConfig fails name with
  | .error e => (.error (.kube e), ns)
  | .ok m =>
    match updatedApiKey pmm m name req with
    | .error e => (.error e, ns)
    | .ok apiKey =>
      match updateMonitoringSecret fails ns name apiKey with
      | .error _ => (.error (.couldNotUpdateSecret name), ns)
      | .ok written => updateConfigObject fails written name (updatedMonitoringConfig req m)

def deleteMonitoringInstance (name : GoString) : Answer Unit :=
  match ns.deleteMonitoringConfig fails name with
  | .error e => (.error (.kube e), ns)
  | .ok deleted =>
    match deleted.deleteSecret fails name with
    | .error e => (.error (.kube e), deleted)
    | .ok cleaned => (.ok (), cleaned)

end Handler

end OpenEverest.K8s
