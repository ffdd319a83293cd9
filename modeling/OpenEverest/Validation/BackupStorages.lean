import OpenEverest.Framework.Run
import OpenEverest.K8s.CredentialRuns

/-!
# Validating backup storages

The checks of a create or update request on a backup storage, the access test among
them: an update is tested with the fields it carries and else with the stored ones,
its two flags apart, which are off when they are absent.
-/

namespace OpenEverest.Validation

open Framework GoString Api

inductive StorageError where
  | listBackupStorages
  | getBackupStorage (e : StoreError)
  | getSecret (e : StoreError)
  | errEditInUseBackupStorage (name : GoString)
  | errDuplicatedBackupStorage
  | errInvalidName
  | errInvalidBucketName
  | errInvalidURL (fieldName : String)
  | regionRequired
  | errCreateStorageNotSupported (type : GoString)
  | errUpdateStorageNotSupported (type : GoString)
  | access (message : String)
  deriving DecidableEq

/-- What an access is made with: the endpoint, the keys and the flags. -/
structure StorageAccess where
  url : GoString
  bucketName : GoString
  region : GoString
  accessKey : GoString
  secretKey : GoString
  verifyTLS : Bool
  forcePathStyle : Bool
  deriving DecidableEq

/-- The session of an S3 access; an empty endpoint is none. -/
structure S3Session where
  endpoint : Option GoString
  access : StorageAccess

structure AzureSession where
  accountName : GoString
  accountKey : GoString
  containerName : GoString

inductive S3Call where
  | newSession
  | headBucket
  | putObject
  | getObject
  | listObjectsV2
  | deleteObject

inductive AzureCall where
  | newSharedKeyCredential
  | newClient
  | nextPage
  | uploadBuffer
  | downloadBuffer
  | deleteBlob

/-- What the validator asks: the checks of names and URLs, the storages listed, whether
debugging is on, and which calls of the storage services succeed. -/
structure StorageValidator where
  validateEverestResourceName : GoString → Bool
  validateURL : GoString → Bool
  listBackupStorages : Except Unit (List (GoString × BackupStorageSpec))
  debug : Bool
  s3 : S3Session → S3Call → Bool
  azure : AzureSession → AzureCall → Bool

def s3Calls : List (S3Call × String) :=
  [(.newSession, "could not initialize S3 session"),
    (.headBucket, "unable to connect to s3. Check your credentials"),
    (.putObject, "could not write to S3 bucket"),
    (.getObject, "could not read from S3 bucket"),
    (.listObjectsV2, "could not list objects in S3 bucket"),
    (.deleteObject, "could not delete an object from S3 bucket")]

def azureCalls : List (AzureCall × String) :=
  [(.newSharedKeyCredential, "could not initialize Azure credentials"),
    (.newClient, "could not initialize Azure client"),
    (.nextPage, "could not list blobs in Azure container"),
    (.uploadBuffer, "could not write to Azure container"),
    (.downloadBuffer, "could not read from Azure container"),
    (.deleteBlob, "could not delete a blob from Azure container")]

def refuseWhen (c : Prop) [Decidable c] (e : StorageError) : Except StorageError Unit :=
  if c then .error e else .ok ()

theorem refuseWhen_eq_ok (c : Prop) [Decidable c] (e : StorageError) :
    refuseWhen c e = .ok () ↔ ¬ c := by
  unfold refuseWhen
  split <;> simp_all

section Access

variable (v : StorageValidator)

def s3Access (endpoint : Option GoString) (access : StorageAccess) : Except StorageError Unit :=
  if v.debug then .ok ()
  else
    let session := ⟨if endpoint = some [] then none else endpoint, access⟩
    checkAll (fun (call, message) => refuseWhen (v.s3 session call = false) (.access message)) s3Calls

def azureAccess (accountName accountKey containerName : GoString) : Except StorageError Unit :=
  if v.debug then .ok ()
  else
    let session := ⟨accountName, accountKey, containerName⟩
    checkAll (fun (call, message) => refuseWhen (v.azure session call = false) (.access message))
      azureCalls

def validateBackupStorageAccess (type : GoString) (access : StorageAccess) :
    Except StorageError Unit :=
  if type = ascii "s3" then do
    refuseWhen (access.region = []) .regionRequired
    s3Access v (some access.url) access
  else if type = ascii "azure" then
    azureAccess v access.accessKey access.secretKey access.bucketName
  else .error (.errUpdateStorageNotSupported type)

def validateStorageAccessByCreate (params : CreateBackupStorageParams) : Except StorageError Unit :=
  if params.type = ascii "s3" then
    s3Access v params.url
      { url := params.url.getD []
        bucketName := params.bucketName
        region := params.region
        accessKey := params.accessKey
        secretKey := params.secretKey
        verifyTLS := params.verifyTLS.getD false
        forcePathStyle := params.forcePathStyle.getD false }
  else if params.type = ascii "azure" then
    azureAccess v params.accessKey params.secretKey params.bucketName
  else .error (.errCreateStorageNotSupported params.type)

end Access

def isBucketNameByte (b : UInt8) : Bool :=
  decide (97 ≤ b ∧ b ≤ 122 ∨ 48 ≤ b ∧ b ≤ 57 ∨ b = 46 ∨ b = 45)

/-- `^[a-z0-9\.\-]{3,63}$`. -/
def validateBucketName (s : GoString) : Except StorageError Unit :=
  refuseWhen (¬ (s.all isBucketNameByte ∧ 3 ≤ s.length ∧ s.length ≤ 63)) .errInvalidBucketName

def basicStorageParamsAreChanged (bs : StoredBackupStorage) (params : UpdateBackupStorageParams) :
    Bool :=
  if params.bucketName ≠ none ∧ bs.spec.bucket ≠ params.bucketName.getD [] then true
  else if params.region ≠ none ∧ bs.spec.region ≠ params.region.getD [] then true
  else false

def regionOrDefault (params : UpdateBackupStorageParams) (defaultRegion : GoString) : GoString :=
  params.region.getD defaultRegion

def bucketNameOrDefault (params : UpdateBackupStorageParams) (defaultBucketName : GoString) :
    GoString :=
  params.bucketName.getD defaultBucketName

def urlOrDefault (params : UpdateBackupStorageParams) (defaultURL : GoString) : GoString :=
  params.url.getD defaultURL

/-- The three parts are compared as one string. -/
def validateDuplicateStorageByUpdate (currentStorageName : GoString)
    (currentStorage : BackupStorageSpec) (existingStorages : List (GoString × BackupStorageSpec))
    (params : UpdateBackupStorageParams) : Bool :=
  let toCompare := regionOrDefault params currentStorage.region ++
    bucketNameOrDefault params currentStorage.bucket ++
    urlOrDefault params currentStorage.endpointURL
  existingStorages.any fun (name, spec) =>
    name ≠ currentStorageName && spec.region ++ spec.bucket ++ spec.endpointURL = toCompare

def testedAccess (existing : StoredBackupStorage) (secret : Secret)
    (params : UpdateBackupStorageParams) : StorageAccess where
  url := params.url.getD existing.spec.endpointURL
  bucketName := params.bucketName.getD existing.spec.bucket
  region := params.region.getD existing.spec.region
  accessKey := params.accessKey.getD (secret.get K8s.accessKeyEntry)
  secretKey := params.secretKey.getD (secret.get K8s.secretKeyEntry)
  verifyTLS := params.verifyTLS.getD false
  forcePathStyle := params.forcePathStyle.getD false

section Requests

variable (v : StorageValidator)

def validateCreateBackupStorageRequest (params : CreateBackupStorageParams)
    (existingStorages : List (GoString × BackupStorageSpec)) : Except StorageError Unit := do
  refuseWhen (existingStorages.any fun (_, spec) =>
    spec.region = params.region && spec.endpointURL = params.url.getD [] &&
      spec.bucket = params.bucketName) .errDuplicatedBackupStorage
  refuseWhen (v.validateEverestResourceName params.name = false) .errInvalidName
  validateBucketName params.bucketName
  refuseWhen (∃ url ∈ params.url, v.validateURL url = false) (.errInvalidURL "url")
  refuseWhen (params.type = ascii "s3" ∧ params.region = []) .regionRequired
  validateStorageAccessByCreate v params

def validateUpdateBackupStorageRequest (params : UpdateBackupStorageParams) (name : GoString)
    (existing : StoredBackupStorage) (secret : Secret) : Except StorageError Unit := do
  refuseWhen (existing.inUse = true ∧ basicStorageParamsAreChanged existing params = true)
    (.errEditInUseBackupStorage name)
  match v.listBackupStorages with
  | .error _ => .error .listBackupStorages
  | .ok existingStorages => do
    refuseWhen (validateDuplicateStorageByUpdate name existing.spec existingStorages params = true)
      .errDuplicatedBackupStorage
    refuseWhen (∃ url ∈ params.url, v.validateURL url = false) (.errInvalidURL "url")
    checkAll validateBucketName params.bucketName.toList
    validateBackupStorageAccess v existing.spec.type (testedAccess existing secret params)

/-- `validateHandler.CreateBackupStorage`, up to the next handler. -/
def createBackupStorage (params : CreateBackupStorageParams) : Except StorageError Unit :=
  match v.listBackupStorages with
  | .error _ => .error .listBackupStorages
  | .ok existingStorages => validateCreateBackupStorageRequest v params existingStorages

/-- `validateHandler.UpdateBackupStorage`, up to the next handler. -/
def updateBackupStorage (ns : K8s.NamespaceObjects) (name : GoString)
    (params : UpdateBackupStorageParams) : Except StorageError Unit :=
  match ns.backupStorages.get name with
  | .error e => .error (.getBackupStorage e)
  | .ok bs =>
    match ns.secrets.get bs.spec.credentialsSecretName with
    | .error e => .error (.getSecret e)
    | .ok secret => validateUpdateBackupStorageRequest v params name bs secret

end Requests

theorem updateBackupStorage_eq_ok {v : StorageValidator} {ns : K8s.NamespaceObjects}
    {name : GoString} {params : UpdateBackupStorageParams} :
    updateBackupStorage v ns name params = .ok () ↔ ∃ bs secret,
      ns.backupStorages name = some bs ∧ ns.secrets bs.spec.credentialsSecretName = some secret ∧
        validateUpdateBackupStorageRequest v params name bs secret = .ok () := by
  unfold updateBackupStorage ObjectStore.get
  cases ns.backupStorages name with
  | none => simp
  | some bs =>
    cases hsecret : ns.secrets bs.spec.credentialsSecretName with
    | none => simp [hsecret]
    | some secret => simp [hsecret]

/-- An unset flag verifies TLS, and does not force the path style. -/
def accessInForce (bs : StoredBackupStorage) (secret : Secret) : StorageAccess where
  url := bs.spec.endpointURL
  bucketName := bs.spec.bucket
  region := bs.spec.region
  accessKey := secret.get K8s.accessKeyEntry
  secretKey := secret.get K8s.secretKeyEntry
  verifyTLS := bs.spec.verifyTLS.getD true
  forcePathStyle := bs.spec.forcePathStyle.getD false

/-- What an update leaves of the fields that its request does not carry. -/
structure AbsentUnchanged (params : UpdateBackupStorageParams) (bs bs' : StoredBackupStorage)
    (secret secret' : Secret) : Prop where
  accessKey : params.accessKey = none →
    secret'.get K8s.accessKeyEntry = secret.get K8s.accessKeyEntry
  secretKey : params.secretKey = none →
    secret'.get K8s.secretKeyEntry = secret.get K8s.secretKeyEntry
  bucket : params.bucketName = none → bs'.spec.bucket = bs.spec.bucket
  region : params.region = none → bs'.spec.region = bs.spec.region
  url : params.url = none → bs'.spec.endpointURL = bs.spec.endpointURL
  description : params.description = none → bs'.spec.description = bs.spec.description
  allowedNamespaces : params.allowedNamespaces = none →
    bs'.spec.allowedNamespaces = bs.spec.allowedNamespaces
  verifyTLS : params.verifyTLS = none → bs'.spec.verifyTLS = bs.spec.verifyTLS
  forcePathStyle : params.forcePathStyle = none → bs'.spec.forcePathStyle = bs.spec.forcePathStyle

/-- After the update the settings tested are in force, and the rest is as it was. -/
def TestedInForce (ns t : K8s.NamespaceObjects) (name : GoString)
    (params : UpdateBackupStorageParams) : Prop :=
  ∃ bs secret bs' secret', ns.backupStorages name = some bs ∧
    ns.secrets bs.spec.credentialsSecretName = some secret ∧ t.backupStorages name = some bs' ∧
    t.secrets bs'.spec.credentialsSecretName = some secret' ∧
    accessInForce bs' secret' = testedAccess bs secret params ∧
    AbsentUnchanged params bs bs' secret secret'

/-- Both halves of the credentials come together, into the secret that the storage refers
to, unless nothing is lost without; and a flag that is absent is off. -/
structure CarriesTested (name : GoString) (params : UpdateBackupStorageParams)
    (bs : StoredBackupStorage) (secret : Secret) : Prop where
  verifyTLS : params.verifyTLS = none → bs.spec.verifyTLS.getD true = false
  forcePathStyle : params.forcePathStyle = none → bs.spec.forcePathStyle.getD false = false
  keys : (params.accessKey.isSome || params.secretKey.isSome) = true →
    if bs.spec.credentialsSecretName = name then
      (params.accessKey = none → secret.get K8s.accessKeyEntry = []) ∧
        (params.secretKey = none → secret.get K8s.secretKeyEntry = [])
    else
      params.accessKey.getD (secret.get K8s.accessKeyEntry) = secret.get K8s.accessKeyEntry ∧
        params.secretKey.getD (secret.get K8s.secretKeyEntry) = secret.get K8s.secretKeyEntry

section Secrets

variable (params : UpdateBackupStorageParams)

theorem writtenSecret_accessKey :
    (K8s.writtenSecret params).get K8s.accessKeyEntry = params.accessKey.getD [] := by
  have hne : (K8s.accessKeyEntry == K8s.secretKeyEntry) = false := by decide +kernel
  simp [K8s.writtenSecret, K8s.backupSecretData, Secret.get, List.lookup_cons, hne]

theorem writtenSecret_secretKey :
    (K8s.writtenSecret params).get K8s.secretKeyEntry = params.secretKey.getD [] := by
  simp [K8s.writtenSecret, K8s.backupSecretData, Secret.get]

/-- The secret the storage refers to, after the update of the secret `name`. -/
def secretAfter (name : GoString) (bs : StoredBackupStorage) (secret : Secret) : Secret :=
  if (params.accessKey.isSome || params.secretKey.isSome) = true ∧
    bs.spec.credentialsSecretName = name then K8s.writtenSecret params else secret

theorem secretAfter_key (name : GoString) (bs : StoredBackupStorage) (secret : Secret) :
    (secretAfter params name bs secret).get K8s.accessKeyEntry =
        params.accessKey.getD (secret.get K8s.accessKeyEntry) ∧
      (secretAfter params name bs secret).get K8s.secretKeyEntry =
        params.secretKey.getD (secret.get K8s.secretKeyEntry) ↔
    ((params.accessKey.isSome || params.secretKey.isSome) = true →
      if bs.spec.credentialsSecretName = name then
        (params.accessKey = none → secret.get K8s.accessKeyEntry = []) ∧
          (params.secretKey = none → secret.get K8s.secretKeyEntry = [])
      else
        params.accessKey.getD (secret.get K8s.accessKeyEntry) = secret.get K8s.accessKeyEntry ∧
          params.secretKey.getD (secret.get K8s.secretKeyEntry) = secret.get K8s.secretKeyEntry) := by
  unfold secretAfter
  by_cases hkeys : (params.accessKey.isSome || params.secretKey.isSome) = true
  · by_cases hname : bs.spec.credentialsSecretName = name
    · rw [if_pos ⟨hkeys, hname⟩, writtenSecret_accessKey, writtenSecret_secretKey]
      simp only [hkeys, hname, if_true, true_imp_iff]
      apply and_congr
      · cases params.accessKey with
        | none => exact ⟨fun h _ => h.symm, fun h => (h rfl).symm⟩
        | some key => simp
      · cases params.secretKey with
        | none => exact ⟨fun h _ => h.symm, fun h => (h rfl).symm⟩
        | some key => simp
    · rw [if_neg fun h => hname h.2]
      simp only [hkeys, hname, if_false, true_imp_iff]
      exact and_congr eq_comm eq_comm
  · have habsent : params.accessKey = none ∧ params.secretKey = none := by simpa using hkeys
    simp [habsent]

theorem or_getD_eq (flag stored : Option Bool) (unset : Bool) :
    (flag.or stored).getD unset = flag.getD false ↔ (flag = none → stored.getD unset = false) := by
  cases flag with
  | none => simp
  | some b => simp

/-- The settings tested come into force exactly when the request carries them. -/
theorem inForce_eq_tested_iff (name : GoString) (bs : StoredBackupStorage) (secret : Secret) :
    accessInForce (K8s.updatedBackupStorage params bs) (secretAfter params name bs secret) =
      testedAccess bs secret params ↔ CarriesTested name params bs secret := by
  have hkeys := secretAfter_key params name bs secret
  have hverify := or_getD_eq params.verifyTLS bs.spec.verifyTLS true
  have hforce := or_getD_eq params.forcePathStyle bs.spec.forcePathStyle false
  simp only [accessInForce, testedAccess, K8s.updatedBackupStorage, StorageAccess.mk.injEq,
    true_and]
  constructor
  · intro ⟨haccess, hsecret, htls, hstyle⟩
    exact ⟨hverify.mp htls, hforce.mp hstyle, hkeys.mp ⟨haccess, hsecret⟩⟩
  · intro hcarries
    obtain ⟨haccess, hsecret⟩ := hkeys.mpr hcarries.keys
    exact ⟨haccess, hsecret, hverify.mpr hcarries.verifyTLS, hforce.mpr hcarries.forcePathStyle⟩

theorem absentUnchanged (name : GoString) (bs : StoredBackupStorage) (secret : Secret)
    (h : CarriesTested name params bs secret) :
    AbsentUnchanged params bs (K8s.updatedBackupStorage params bs) secret
      (secretAfter params name bs secret) := by
  obtain ⟨haccess, hsecret⟩ := (secretAfter_key params name bs secret).mpr h.keys
  constructor
  · intro hnone
    rw [haccess, hnone]
    rfl
  · intro hnone
    rw [hsecret, hnone]
    rfl
  all_goals
    intro hnone
    simp [K8s.updatedBackupStorage, hnone]

end Secrets

theorem updateBackupStorage_stored {ns t : K8s.NamespaceObjects} {name : GoString}
    {params : UpdateBackupStorageParams} {bs updated : StoredBackupStorage} {secret : Secret}
    (hbs : ns.backupStorages name = some bs)
    (hsecret : ns.secrets bs.spec.credentialsSecretName = some secret)
    (h : K8s.updateBackupStorage K8s.noFailures ns name params = (.ok updated, t)) :
    t.backupStorages name = some (K8s.updatedBackupStorage params bs) ∧
      t.secrets bs.spec.credentialsSecretName = some (secretAfter params name bs secret) := by
  obtain ⟨written, stored, hwritten, hstored, rfl⟩ := K8s.updateBackupStorage_ok h
  obtain rfl : bs = stored := Option.some.inj (hbs.symm.trans hstored)
  refine ⟨by simp [K8s.NamespaceObjects.putStorage], ?_⟩
  rw [K8s.updateBackupSecret_eq_ok] at hwritten
  unfold secretAfter
  split at hwritten
  · rename_i hkeys
    obtain ⟨_, rfl⟩ := hwritten
    by_cases hname : bs.spec.credentialsSecretName = name
    · rw [if_pos ⟨hkeys, hname⟩, hname]
      simp [K8s.NamespaceObjects.putStorage, K8s.NamespaceObjects.putSecret]
    · rw [if_neg fun hboth => hname hboth.2, ← hsecret]
      simp [K8s.NamespaceObjects.putStorage, K8s.NamespaceObjects.putSecret,
        ObjectStore.put_of_ne _ _ _ hname]
  · rename_i hkeys
    subst hwritten
    rw [if_neg fun hboth => hkeys hboth.1, ← hsecret]
    rfl

/-- After an accepted update the settings tested are in force, and the fields that are
absent as they were, if and only if the request carries what the test took from it. -/
theorem tested_inForce_iff_carries (v : StorageValidator) (ns t : K8s.NamespaceObjects)
    (name : GoString) (params : UpdateBackupStorageParams) (updated : StoredBackupStorage)
    (haccept : updateBackupStorage v ns name params = .ok ())
    (hupdate : K8s.updateBackupStorage K8s.noFailures ns name params = (.ok updated, t)) :
    TestedInForce ns t name params ↔ ∀ bs secret, ns.backupStorages name = some bs →
      ns.secrets bs.spec.credentialsSecretName = some secret →
        CarriesTested name params bs secret := by
  constructor
  · intro ⟨bs, secret, bs', secret', hbs, hsecret, hbs', hsecret', htested, _⟩ bs₁ secret₁ hbs₁ hsecret₁
    obtain rfl := Option.some.inj (hbs.symm.trans hbs₁)
    obtain rfl := Option.some.inj (hsecret.symm.trans hsecret₁)
    obtain ⟨hstored, hwritten⟩ := updateBackupStorage_stored hbs hsecret hupdate
    obtain rfl := Option.some.inj (hstored.symm.trans hbs')
    obtain rfl := Option.some.inj (hwritten.symm.trans hsecret')
    exact (inForce_eq_tested_iff params name bs secret).mp htested
  · intro hcarries
    obtain ⟨bs, secret, hbs, hsecret, _⟩ := updateBackupStorage_eq_ok.mp haccept
    obtain ⟨hstored, hwritten⟩ := updateBackupStorage_stored hbs hsecret hupdate
    have hall := hcarries bs secret hbs hsecret
    exact ⟨bs, secret, _, _, hbs, hsecret, hstored, hwritten,
      (inForce_eq_tested_iff params name bs secret).mpr hall,
      absentUnchanged params name bs secret hall⟩

def reachableStorages : StorageValidator where
  validateEverestResourceName _ := true
  validateURL _ := true
  listBackupStorages := .ok []
  debug := false
  s3 _ _ := true
  azure _ _ := true

def completeRotation : UpdateBackupStorageParams where
  accessKey := some (ascii "AK2")
  secretKey := some (ascii "SK2")
  verifyTLS := some true
  forcePathStyle := some false

def halfRotation : UpdateBackupStorageParams where
  accessKey := some (ascii "AK2")
  verifyTLS := some true
  forcePathStyle := some false

def rotatedObjects (params : UpdateBackupStorageParams) : K8s.NamespaceObjects :=
  (K8s.updateBackupStorage K8s.noFailures K8s.createdObjects (ascii "s3") params).2

theorem tested_inForce_iff_carries_sample :
    updateBackupStorage reachableStorages K8s.createdObjects (ascii "s3") completeRotation =
        .ok () ∧
      (TestedInForce K8s.createdObjects (rotatedObjects completeRotation) (ascii "s3")
          completeRotation ↔
        ∀ bs secret, K8s.createdObjects.backupStorages (ascii "s3") = some bs →
          K8s.createdObjects.secrets bs.spec.credentialsSecretName = some secret →
            CarriesTested (ascii "s3") completeRotation bs secret) :=
  ⟨by decide +kernel, tested_inForce_iff_carries reachableStorages K8s.createdObjects
    (rotatedObjects completeRotation) (ascii "s3") completeRotation
    (K8s.updatedBackupStorage completeRotation (K8s.backupStorageFromParams K8s.s3Params))
    (by decide +kernel) rfl⟩

/-- The new access key is tested with the stored secret key, which the update empties. -/
theorem tested_not_inForce :
    updateBackupStorage reachableStorages K8s.createdObjects (ascii "s3") halfRotation = .ok () ∧
    (K8s.updateBackupStorage K8s.noFailures K8s.createdObjects (ascii "s3") halfRotation).1 =
      .ok (K8s.updatedBackupStorage halfRotation (K8s.backupStorageFromParams K8s.s3Params)) ∧
    ((rotatedObjects halfRotation).secrets (ascii "s3")).map (·.get K8s.secretKeyEntry) =
      some [] ∧
    ¬ TestedInForce K8s.createdObjects (rotatedObjects halfRotation) (ascii "s3") halfRotation := by
  refine ⟨by decide +kernel, by decide +kernel, by decide +kernel, ?_⟩
  intro ⟨bs, secret, bs', secret', hbs, hsecret, hbs', hsecret', htested, _⟩
  have hold : K8s.createdObjects.backupStorages (ascii "s3") =
      some (K8s.backupStorageFromParams K8s.s3Params) := by decide +kernel
  obtain rfl := Option.some.inj (hold.symm.trans hbs)
  have hkeys : K8s.createdObjects.secrets (ascii "s3") =
      some (K8s.backupSecretData (ascii "SK") (ascii "AK")) := by decide +kernel
  obtain rfl := Option.some.inj (hkeys.symm.trans hsecret)
  have hnew : (rotatedObjects halfRotation).backupStorages (ascii "s3") =
      some (K8s.updatedBackupStorage halfRotation (K8s.backupStorageFromParams K8s.s3Params)) := by
    decide +kernel
  obtain rfl := Option.some.inj (hnew.symm.trans hbs')
  have hwritten : (rotatedObjects halfRotation).secrets (ascii "s3") =
      some (K8s.backupSecretData [] (ascii "AK2")) := by decide +kernel
  obtain rfl := Option.some.inj (hwritten.symm.trans hsecret')
  revert htested
  decide +kernel

end OpenEverest.Validation
