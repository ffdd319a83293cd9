import OpenEverest.Framework.Run
import OpenEverest.K8s.CredentialFailures

/-!
# Runs of requests on credentials

Backup storages and monitoring instances of one name share a secret. An update of one
half of a storage's credentials writes the other half as "".
-/

namespace OpenEverest.K8s

open Framework GoString Api

section Success

variable {ns t : NamespaceObjects}

theorem createWithSecret_ok {α : Type} {errors : CreateErrors} {name : GoString} {secret : Secret}
    {create : NamespaceObjects → Except StoreError NamespaceObjects} {object a : α}
    (h : createWithSecret noFailures ns errors name secret create object = (.ok a, t)) :
    create (ns.putSecret name secret) = .ok t := by
  unfold createWithSecret at h
  cases hsecret : createOrUpdateSecret noFailures ns errors name secret with
  | error e =>
    rw [hsecret] at h
    cases h
  | ok written =>
    obtain ⟨_, rfl⟩ := createOrUpdateSecret_eq_ok.mp hsecret
    rw [hsecret] at h
    cases hobject : create (ns.putSecret name secret) with
    | ok created =>
      simp only [hobject, Prod.mk.injEq, Except.ok.injEq] at h
      rw [h.2]
    | error e =>
      simp only [hobject] at h
      split at h <;> cases h

theorem createBackupStorage_ok {req : CreateBackupStorageParams} {bs : StoredBackupStorage}
    (h : createBackupStorage noFailures ns req = (.ok bs, t)) :
    ns.backupStorages req.name = none ∧
      t = (ns.putSecret req.name (backupSecretData req.secretKey req.accessKey)).putStorage
        req.name (backupStorageFromParams req) := by
  unfold createBackupStorage at h
  split at h
  · cases h
  · have hcreate := createWithSecret_ok h
    obtain ⟨_, hnone, ht⟩ := NamespaceObjects.createBackupStorage_eq_ok.mp hcreate
    exact ⟨hnone, ht⟩
  · cases h

theorem createMonitoringInstance_ok {pmm : PMM} {req : MonitoringInstanceCreateParams}
    {m : MonitoringConfigSpec} (h : createMonitoringInstance noFailures ns pmm req = (.ok m, t)) :
    ns.monitoringConfigs req.name = none ∧ ∃ apiKey, getPMMApiKey pmm req = .ok apiKey ∧
      t = (ns.putSecret req.name (monitoringConfigSecretData apiKey)).putConfig
        req.name (monitoringConfigFromParams req) := by
  unfold createMonitoringInstance at h
  split at h
  · cases h
  · cases hkey : getPMMApiKey pmm req with
    | error e =>
      simp only [hkey] at h
      cases h
    | ok apiKey =>
      simp only [hkey, createMonitoringK8sResources] at h
      have hcreate := createWithSecret_ok h
      obtain ⟨_, hnone, ht⟩ := NamespaceObjects.createMonitoringConfig_eq_ok.mp hcreate
      exact ⟨hnone, apiKey, rfl, ht⟩
  · cases h

theorem updateBackupSecret_eq_ok {name : GoString} {req : UpdateBackupStorageParams} :
    updateBackupSecret noFailures ns name req = .ok t ↔
      if req.accessKey.isSome || req.secretKey.isSome then
        ns.secrets name ≠ none ∧ t = ns.putSecret name (writtenSecret req)
      else t = ns := by
  unfold updateBackupSecret
  split
  · rw [NamespaceObjects.updateSecret_eq_ok]
    exact ⟨fun h => h.2, fun h => ⟨rfl, h⟩⟩
  · simp [eq_comm]

theorem updateBackupSecret_storages {fails : Failures} {name : GoString}
    {req : UpdateBackupStorageParams} (h : updateBackupSecret fails ns name req = .ok t) :
    t.backupStorages = ns.backupStorages := by
  unfold updateBackupSecret at h
  split at h
  · obtain ⟨_, _, rfl⟩ := NamespaceObjects.updateSecret_eq_ok.mp h
    rfl
  · cases h
    rfl

theorem updateBackupStorage_ok {name : GoString} {req : UpdateBackupStorageParams}
    {bs : StoredBackupStorage} (h : updateBackupStorage noFailures ns name req = (.ok bs, t)) :
    ∃ written stored, updateBackupSecret noFailures ns name req = .ok written ∧
      ns.backupStorages name = some stored ∧
      t = written.putStorage name (updatedBackupStorage req stored) := by
  unfold updateBackupStorage at h
  cases hsecret : updateBackupSecret noFailures ns name req with
  | error e =>
    simp only [hsecret] at h
    cases h
  | ok written =>
    simp only [hsecret, updateStorageObject] at h
    cases hget : written.getBackupStorage noFailures name with
    | error e =>
      simp only [hget] at h
      cases h
    | ok stored =>
      have hstored := (NamespaceObjects.getBackupStorage_eq_ok.mp hget).2
      rw [updateBackupSecret_storages hsecret] at hstored
      simp only [hget] at h
      cases hupdate : written.updateBackupStorage noFailures name
          (updatedBackupStorage req stored) with
      | error e =>
        simp only [hupdate] at h
        cases h
      | ok updated =>
        simp only [hupdate, Prod.mk.injEq] at h
        obtain ⟨_, _, ht⟩ := NamespaceObjects.updateBackupStorage_eq_ok.mp hupdate
        exact ⟨written, stored, rfl, hstored, h.2 ▸ ht⟩

theorem updateMonitoringInstance_ok {pmm : PMM} {name : GoString}
    {req : MonitoringInstanceUpdateParams} {m : MonitoringConfigSpec}
    (h : updateMonitoringInstance noFailures ns pmm name req = (.ok m, t)) :
    ∃ stored apiKey written, ns.monitoringConfigs name = some stored ∧
      updatedApiKey pmm stored name req = .ok apiKey ∧
      updateMonitoringSecret noFailures ns name apiKey = .ok written ∧
      t = written.putConfig name (updatedMonitoringConfig req stored) := by
  unfold updateMonitoringInstance at h
  cases hget : ns.getMonitoringConfig noFailures name with
  | error e =>
    simp only [hget] at h
    cases h
  | ok stored =>
    have hstored := (NamespaceObjects.getMonitoringConfig_eq_ok.mp hget).2
    simp only [hget] at h
    cases hkey : updatedApiKey pmm stored name req with
    | error e =>
      simp only [hkey] at h
      cases h
    | ok apiKey =>
      simp only [hkey] at h
      cases hsecret : updateMonitoringSecret noFailures ns name apiKey with
      | error e =>
        simp only [hsecret] at h
        cases h
      | ok written =>
        simp only [hsecret, updateConfigObject] at h
        cases hupdate : written.updateMonitoringConfig noFailures name
            (updatedMonitoringConfig req stored) with
        | error e =>
          simp only [hupdate] at h
          cases h
        | ok updated =>
          simp only [hupdate, Prod.mk.injEq] at h
          obtain ⟨_, _, ht⟩ := NamespaceObjects.updateMonitoringConfig_eq_ok.mp hupdate
          exact ⟨stored, apiKey, written, hstored, hkey, hsecret, h.2 ▸ ht⟩

def NamespaceObjects.eraseStorage (ns : NamespaceObjects) (name : GoString) : NamespaceObjects :=
  { ns with
    secrets := ns.secrets.erase name
    backupStorages := ns.backupStorages.erase name }

def NamespaceObjects.eraseConfig (ns : NamespaceObjects) (name : GoString) : NamespaceObjects :=
  { ns with
    secrets := ns.secrets.erase name
    monitoringConfigs := ns.monitoringConfigs.erase name }

theorem ignoreNotFound_delete {α : Type} {store : ObjectStore GoString α} {name : GoString}
    {f : ObjectStore GoString α → NamespaceObjects} {d : NamespaceObjects}
    (hf : f store = d)
    (h : d.ignoreNotFound (inject none ((store.delete name).map f)) = .ok t) :
    t = f (store.erase name) := by
  unfold inject ObjectStore.delete at h
  cases hname : store name with
  | none =>
    rw [hname] at h
    have ht : d = t := Except.ok.inj h
    rw [← ht, ← hf, (ObjectStore.erase_eq_self store name).mpr hname]
  | some a =>
    rw [hname] at h
    exact (Except.ok.inj h).symm

theorem deleteBackupStorage_ok {name : GoString}
    (h : deleteBackupStorage noFailures ns name = (.ok (), t)) : t = ns.eraseStorage name := by
  unfold deleteBackupStorage at h
  cases hobject : ns.ignoreNotFound (ns.deleteBackupStorage noFailures name) with
  | error e =>
    simp only [hobject] at h
    cases h
  | ok deleted =>
    simp only [hobject] at h
    cases hsecret : deleted.ignoreNotFound (deleted.deleteSecret noFailures name) with
    | error e =>
      simp only [hsecret] at h
      cases h
    | ok cleaned =>
      simp only [hsecret, Prod.mk.injEq, true_and] at h
      have hdeleted := ignoreNotFound_delete rfl hobject
      have hcleaned := ignoreNotFound_delete rfl hsecret
      rw [← h, hcleaned, hdeleted]
      rfl

theorem deleteMonitoringInstance_ok {name : GoString}
    (h : deleteMonitoringInstance noFailures ns name = (.ok (), t)) :
    ns.monitoringConfigs name ≠ none ∧ t = ns.eraseConfig name := by
  unfold deleteMonitoringInstance at h
  cases hobject : ns.deleteMonitoringConfig noFailures name with
  | error e =>
    simp only [hobject] at h
    cases h
  | ok deleted =>
    simp only [hobject] at h
    cases hsecret : deleted.deleteSecret noFailures name with
    | error e =>
      simp only [hsecret] at h
      cases h
    | ok cleaned =>
      simp only [hsecret, Prod.mk.injEq, true_and] at h
      obtain ⟨_, _, hcleaned⟩ := NamespaceObjects.deleteSecret_eq_ok.mp hsecret
      obtain ⟨_, hsome, hdeleted⟩ := NamespaceObjects.deleteMonitoringConfig_eq_ok.mp hobject
      refine ⟨hsome, ?_⟩
      rw [← h, hcleaned, hdeleted]
      rfl

end Success

/-! ### Runs -/

structure BackupCredentials where
  secretKey : GoString
  accessKey : GoString
  deriving DecidableEq

inductive CredentialRequest where
  | createBackupStorage (req : CreateBackupStorageParams)
  | updateBackupStorage (name : GoString) (req : UpdateBackupStorageParams)
  | deleteBackupStorage (name : GoString)
  | createMonitoringInstance (pmm : PMM) (req : MonitoringInstanceCreateParams)
  | updateMonitoringInstance (pmm : PMM) (name : GoString) (req : MonitoringInstanceUpdateParams)
  | deleteMonitoringInstance (name : GoString)

/-- The objects of a namespace, with the credentials last supplied for each. -/
structure CredentialState where
  ns : NamespaceObjects
  storageKeys : GoString → BackupCredentials
  apiKeys : GoString → GoString

def succeeded {α : Type} (answer : Answer α) : Option NamespaceObjects :=
  match answer.1 with
  | .error _ => none
  | .ok _ => some answer.2

theorem succeeded_eq_some {α : Type} {answer : Answer α} {t : NamespaceObjects} :
    succeeded answer = some t ↔ ∃ a, answer = (.ok a, t) := by
  obtain ⟨result, ns⟩ := answer
  unfold succeeded
  cases result with
  | error e => simp
  | ok a => simp

namespace CredentialState

variable (s : CredentialState)

/-- The halves of an update that are present, and those supplied before. -/
def suppliedKeys (name : GoString) (req : UpdateBackupStorageParams) : BackupCredentials :=
  ⟨req.secretKey.getD (s.storageKeys name).secretKey,
    req.accessKey.getD (s.storageKeys name).accessKey⟩

def createdKey (pmm : PMM) (req : MonitoringInstanceCreateParams) : GoString :=
  match getPMMApiKey pmm req with
  | .ok apiKey => apiKey
  | .error _ => s.apiKeys req.name

def suppliedKey (pmm : PMM) (name : GoString) (req : MonitoringInstanceUpdateParams) : GoString :=
  match s.ns.monitoringConfigs name with
  | none => s.apiKeys name
  | some m =>
    match updatedApiKey pmm m name req with
    | .ok apiKey => if apiKey ≠ [] then apiKey else s.apiKeys name
    | .error _ => s.apiKeys name

def step : CredentialRequest → Option CredentialState
  | .createBackupStorage req =>
    (succeeded (K8s.createBackupStorage noFailures s.ns req)).map fun ns =>
      { s with
        ns
        storageKeys := Function.update s.storageKeys req.name ⟨req.secretKey, req.accessKey⟩ }
  | .updateBackupStorage name req =>
    (succeeded (K8s.updateBackupStorage noFailures s.ns name req)).map fun ns =>
      { s with
        ns
        storageKeys := Function.update s.storageKeys name (s.suppliedKeys name req) }
  | .deleteBackupStorage name =>
    (succeeded (K8s.deleteBackupStorage noFailures s.ns name)).map fun ns => { s with ns }
  | .createMonitoringInstance pmm req =>
    (succeeded (K8s.createMonitoringInstance noFailures s.ns pmm req)).map fun ns =>
      { s with
        ns
        apiKeys := Function.update s.apiKeys req.name (s.createdKey pmm req) }
  | .updateMonitoringInstance pmm name req =>
    (succeeded (K8s.updateMonitoringInstance noFailures s.ns pmm name req)).map fun ns =>
      { s with
        ns
        apiKeys := Function.update s.apiKeys name (s.suppliedKey pmm name req) }
  | .deleteMonitoringInstance name =>
    (succeeded (K8s.deleteMonitoringInstance noFailures s.ns name)).map fun ns => { s with ns }

/-- The secret that holds what was supplied for a storage, or for an instance. -/
def storageSecret (name : GoString) : Secret :=
  backupSecretData (s.storageKeys name).secretKey (s.storageKeys name).accessKey

def configSecret (name : GoString) : Secret := monitoringConfigSecretData (s.apiKeys name)

/-- Every object refers to a secret with the credentials last supplied for it. -/
structure CredentialsHeld : Prop where
  storage : ∀ name bs, s.ns.backupStorages name = some bs →
    s.ns.secrets bs.spec.credentialsSecretName = some (s.storageSecret name)
  config : ∀ name m, s.ns.monitoringConfigs name = some m →
    s.ns.secrets m.credentialsSecretName = some (s.configSecret name)

/-- The objects of one name, which refer to the secret of that name. -/
structure HeldAt (name : GoString) : Prop where
  storage : ∀ bs, s.ns.backupStorages name = some bs →
    bs.spec.credentialsSecretName = name ∧ s.ns.secrets name = some (s.storageSecret name)
  config : ∀ m, s.ns.monitoringConfigs name = some m →
    m.credentialsSecretName = name ∧ s.ns.secrets name = some (s.configSecret name)

end CredentialState

/-! ### One step -/

def CredentialRequest.name : CredentialRequest → GoString
  | .createBackupStorage req => req.name
  | .updateBackupStorage name _ => name
  | .deleteBackupStorage name => name
  | .createMonitoringInstance _ req => req.name
  | .updateMonitoringInstance _ name _ => name
  | .deleteMonitoringInstance name => name

/-- The halves that an update does not supply were supplied as "". -/
def KeepsHalves (keys : BackupCredentials) (req : UpdateBackupStorageParams) : Prop :=
  (req.accessKey.isSome || req.secretKey.isSome) = true →
    (req.secretKey = none → keys.secretKey = []) ∧ (req.accessKey = none → keys.accessKey = [])

theorem backupSecretData_inj {a b c d : GoString}
    (h : backupSecretData a b = backupSecretData c d) : a = c ∧ b = d := by
  simpa [backupSecretData] using h

theorem backupSecretData_ne (secretKey accessKey apiKey : GoString) :
    backupSecretData secretKey accessKey ≠ monitoringConfigSecretData apiKey := by
  intro h
  have hentry : secretKeyEntry = ascii "apiKey" := by
    simp only [backupSecretData, monitoringConfigSecretData, Secret.mk.injEq, List.cons.injEq,
      Prod.mk.injEq] at h
    exact h.1.1
  revert hentry
  decide +kernel

theorem updateMonitoringSecret_eq_ok {ns t : NamespaceObjects} {name apiKey : GoString} :
    updateMonitoringSecret noFailures ns name apiKey = .ok t ↔
      if apiKey ≠ [] then
        ns.secrets name ≠ none ∧ t = ns.putSecret name (monitoringConfigSecretData apiKey)
      else t = ns := by
  unfold updateMonitoringSecret
  split
  · rw [NamespaceObjects.updateSecret_eq_ok]
    exact ⟨fun h => h.2, fun h => ⟨rfl, h⟩⟩
  · simp [eq_comm]

namespace CredentialState

variable {s t : CredentialState}

theorem step_createBackupStorage {req : CreateBackupStorageParams}
    (h : s.step (.createBackupStorage req) = some t) :
    s.ns.backupStorages req.name = none ∧
      t = { s with
        ns := (s.ns.putSecret req.name (backupSecretData req.secretKey req.accessKey)).putStorage
          req.name (backupStorageFromParams req)
        storageKeys := Function.update s.storageKeys req.name ⟨req.secretKey, req.accessKey⟩ } := by
  obtain ⟨ns, hns, rfl⟩ := Option.map_eq_some_iff.mp h
  obtain ⟨_, hok⟩ := succeeded_eq_some.mp hns
  obtain ⟨hnone, rfl⟩ := createBackupStorage_ok hok
  exact ⟨hnone, rfl⟩

theorem step_updateBackupStorage {name : GoString} {req : UpdateBackupStorageParams}
    (h : s.step (.updateBackupStorage name req) = some t) :
    ∃ stored ns, s.ns.backupStorages name = some stored ∧
      ((req.accessKey.isSome || req.secretKey.isSome) = true ∧
          ns = s.ns.putSecret name (writtenSecret req) ∨
        (req.accessKey = none ∧ req.secretKey = none) ∧ ns = s.ns) ∧
      t = { s with
        ns := ns.putStorage name (updatedBackupStorage req stored)
        storageKeys := Function.update s.storageKeys name (s.suppliedKeys name req) } := by
  obtain ⟨ns, hns, rfl⟩ := Option.map_eq_some_iff.mp h
  obtain ⟨_, hok⟩ := succeeded_eq_some.mp hns
  obtain ⟨written, stored, hwritten, hstored, rfl⟩ := updateBackupStorage_ok hok
  refine ⟨stored, written, hstored, ?_, rfl⟩
  rw [updateBackupSecret_eq_ok] at hwritten
  split at hwritten
  · rename_i hkeys
    exact Or.inl ⟨hkeys, hwritten.2⟩
  · rename_i hkeys
    exact Or.inr ⟨by simpa using hkeys, hwritten⟩

theorem step_deleteBackupStorage {name : GoString}
    (h : s.step (.deleteBackupStorage name) = some t) :
    t = { s with ns := s.ns.eraseStorage name } := by
  obtain ⟨ns, hns, rfl⟩ := Option.map_eq_some_iff.mp h
  obtain ⟨_, hok⟩ := succeeded_eq_some.mp hns
  rw [deleteBackupStorage_ok hok]

theorem step_createMonitoringInstance {pmm : PMM} {req : MonitoringInstanceCreateParams}
    (h : s.step (.createMonitoringInstance pmm req) = some t) :
    t = { s with
      ns := (s.ns.putSecret req.name
        (monitoringConfigSecretData (s.createdKey pmm req))).putConfig
          req.name (monitoringConfigFromParams req)
      apiKeys := Function.update s.apiKeys req.name (s.createdKey pmm req) } := by
  obtain ⟨ns, hns, rfl⟩ := Option.map_eq_some_iff.mp h
  obtain ⟨_, hok⟩ := succeeded_eq_some.mp hns
  obtain ⟨_, apiKey, hkey, rfl⟩ := createMonitoringInstance_ok hok
  have hcreated : s.createdKey pmm req = apiKey := by
    unfold createdKey
    rw [hkey]
  rw [hcreated]

theorem step_updateMonitoringInstance {pmm : PMM} {name : GoString}
    {req : MonitoringInstanceUpdateParams}
    (h : s.step (.updateMonitoringInstance pmm name req) = some t) :
    ∃ stored ns, s.ns.monitoringConfigs name = some stored ∧
      (ns = s.ns.putSecret name (monitoringConfigSecretData (s.suppliedKey pmm name req)) ∨
        s.suppliedKey pmm name req = s.apiKeys name ∧ ns = s.ns) ∧
      t = { s with
        ns := ns.putConfig name (updatedMonitoringConfig req stored)
        apiKeys := Function.update s.apiKeys name (s.suppliedKey pmm name req) } := by
  obtain ⟨ns, hns, rfl⟩ := Option.map_eq_some_iff.mp h
  obtain ⟨_, hok⟩ := succeeded_eq_some.mp hns
  obtain ⟨stored, apiKey, written, hstored, hkey, hwritten, rfl⟩ := updateMonitoringInstance_ok hok
  refine ⟨stored, written, hstored, ?_, rfl⟩
  have hsupplied : s.suppliedKey pmm name req =
      if apiKey ≠ [] then apiKey else s.apiKeys name := by
    simp only [suppliedKey, hstored, hkey]
  rw [updateMonitoringSecret_eq_ok] at hwritten
  split at hwritten
  · rename_i hapiKey
    rw [hsupplied, if_pos hapiKey]
    exact Or.inl hwritten.2
  · rename_i hapiKey
    rw [hsupplied, if_neg hapiKey]
    exact Or.inr ⟨rfl, hwritten⟩

theorem step_deleteMonitoringInstance {name : GoString}
    (h : s.step (.deleteMonitoringInstance name) = some t) :
    s.ns.monitoringConfigs name ≠ none ∧ t = { s with ns := s.ns.eraseConfig name } := by
  obtain ⟨ns, hns, rfl⟩ := Option.map_eq_some_iff.mp h
  obtain ⟨_, hok⟩ := succeeded_eq_some.mp hns
  obtain ⟨hsome, rfl⟩ := deleteMonitoringInstance_ok hok
  exact ⟨hsome, rfl⟩

structure SameAt (s t : CredentialState) (name : GoString) : Prop where
  secret : t.ns.secrets name = s.ns.secrets name
  storage : t.ns.backupStorages name = s.ns.backupStorages name
  config : t.ns.monitoringConfigs name = s.ns.monitoringConfigs name
  storageKeys : t.storageKeys name = s.storageKeys name
  apiKey : t.apiKeys name = s.apiKeys name

theorem HeldAt.of_sameAt {name : GoString} (h : s.HeldAt name) (hsame : SameAt s t name) :
    t.HeldAt name := by
  have hstorage : t.storageSecret name = s.storageSecret name := by
    unfold storageSecret
    rw [hsame.storageKeys]
  have hconfig : t.configSecret name = s.configSecret name := by
    unfold configSecret
    rw [hsame.apiKey]
  constructor
  · rw [hsame.storage, hsame.secret, hstorage]
    exact h.storage
  · rw [hsame.config, hsame.secret, hconfig]
    exact h.config

attribute [local simp] NamespaceObjects.putSecret NamespaceObjects.putStorage
  NamespaceObjects.putConfig NamespaceObjects.eraseStorage NamespaceObjects.eraseConfig
  CredentialRequest.name storageSecret configSecret

theorem step_sameAt {r : CredentialRequest} (h : s.step r = some t) {name : GoString}
    (hname : name ≠ r.name) : SameAt s t name := by
  cases r with
  | createBackupStorage req =>
    have hne : name ≠ req.name := hname
    obtain ⟨_, rfl⟩ := step_createBackupStorage h
    constructor <;> simp [ObjectStore.put_of_ne, hne]
  | updateBackupStorage n req =>
    have hne : name ≠ n := hname
    obtain ⟨_, _, _, ⟨_, rfl⟩ | ⟨_, rfl⟩, rfl⟩ := step_updateBackupStorage h
    · constructor <;> simp [ObjectStore.put_of_ne, hne]
    · constructor <;> simp [ObjectStore.put_of_ne, hne]
  | deleteBackupStorage n =>
    have hne : name ≠ n := hname
    obtain rfl := step_deleteBackupStorage h
    constructor <;> simp [ObjectStore.erase_of_ne, hne]
  | createMonitoringInstance pmm req =>
    have hne : name ≠ req.name := hname
    obtain rfl := step_createMonitoringInstance h
    constructor <;> simp [ObjectStore.put_of_ne, hne]
  | updateMonitoringInstance pmm n req =>
    have hne : name ≠ n := hname
    obtain ⟨_, _, _, rfl | ⟨_, rfl⟩, rfl⟩ := step_updateMonitoringInstance h
    · constructor <;> simp [ObjectStore.put_of_ne, hne]
    · constructor <;> simp [ObjectStore.put_of_ne, hne]
  | deleteMonitoringInstance n =>
    have hne : name ≠ n := hname
    obtain ⟨_, rfl⟩ := step_deleteMonitoringInstance h
    constructor <;> simp [ObjectStore.erase_of_ne, hne]

theorem HeldAt.config_none {name : GoString} (h : s.HeldAt name) {bs : StoredBackupStorage}
    (hbs : s.ns.backupStorages name = some bs) : s.ns.monitoringConfigs name = none := by
  by_contra hconfig
  obtain ⟨m, hm⟩ := Option.ne_none_iff_exists'.mp hconfig
  have hsecret := (h.storage bs hbs).2.symm.trans (h.config m hm).2
  exact backupSecretData_ne _ _ _ (Option.some.inj hsecret)

theorem HeldAt.storage_none {name : GoString} (h : s.HeldAt name) {m : MonitoringConfigSpec}
    (hm : s.ns.monitoringConfigs name = some m) : s.ns.backupStorages name = none := by
  by_contra hstorage
  obtain ⟨bs, hbs⟩ := Option.ne_none_iff_exists'.mp hstorage
  rw [h.config_none hbs] at hm
  cases hm

theorem CredentialsHeld.of_heldAt (h : ∀ name, s.HeldAt name) : s.CredentialsHeld := by
  constructor
  · intro name bs hbs
    obtain ⟨hsecretName, hsecret⟩ := (h name).storage bs hbs
    rw [hsecretName, hsecret]
  · intro name m hm
    obtain ⟨hsecretName, hsecret⟩ := (h name).config m hm
    rw [hsecretName, hsecret]

theorem writtenSecret_eq_iff {name : GoString} {req : UpdateBackupStorageParams}
    (hkeys : (req.accessKey.isSome || req.secretKey.isSome) = true) :
    writtenSecret req = backupSecretData (s.suppliedKeys name req).secretKey
        (s.suppliedKeys name req).accessKey ↔ KeepsHalves (s.storageKeys name) req := by
  unfold KeepsHalves writtenSecret suppliedKeys
  constructor
  · intro hwritten _
    obtain ⟨hsecretKey, haccessKey⟩ := backupSecretData_inj hwritten
    constructor
    · intro hnone
      rw [hnone] at hsecretKey
      exact hsecretKey.symm
    · intro hnone
      rw [hnone] at haccessKey
      exact haccessKey.symm
  · intro hkeeps
    obtain ⟨hsecretKey, haccessKey⟩ := hkeeps hkeys
    congr 1
    · cases hreq : req.secretKey with
      | none => simp [hsecretKey hreq]
      | some key => rfl
    · cases hreq : req.accessKey with
      | none => simp [haccessKey hreq]
      | some key => rfl

/-- The request takes no name, and deletes no secret, of the other kind of objects, and it
supplies both halves of a storage's credentials. -/
def Separate (s : CredentialState) : CredentialRequest → Prop
  | .createBackupStorage req => s.ns.monitoringConfigs req.name = none
  | .updateBackupStorage name req => KeepsHalves (s.storageKeys name) req
  | .deleteBackupStorage name => s.ns.monitoringConfigs name = none
  | .createMonitoringInstance _ req => s.ns.backupStorages req.name = none
  | .updateMonitoringInstance _ _ _ => True
  | .deleteMonitoringInstance _ => True

theorem HeldAt.of_storage {name : GoString} (bs : StoredBackupStorage)
    (hbs : s.ns.backupStorages name = some bs) (hname : bs.spec.credentialsSecretName = name)
    (hsecret : s.ns.secrets name = some (s.storageSecret name))
    (hnone : s.ns.monitoringConfigs name = none) : s.HeldAt name := by
  constructor
  · intro bs' hbs'
    obtain rfl : bs = bs' := Option.some.inj (hbs.symm.trans hbs')
    exact ⟨hname, hsecret⟩
  · intro m hm
    cases hnone.symm.trans hm

theorem HeldAt.of_config {name : GoString} (m : MonitoringConfigSpec)
    (hm : s.ns.monitoringConfigs name = some m) (hname : m.credentialsSecretName = name)
    (hsecret : s.ns.secrets name = some (s.configSecret name))
    (hnone : s.ns.backupStorages name = none) : s.HeldAt name := by
  constructor
  · intro bs hbs
    cases hnone.symm.trans hbs
  · intro m' hm'
    obtain rfl : m = m' := Option.some.inj (hm.symm.trans hm')
    exact ⟨hname, hsecret⟩

theorem HeldAt.of_none {name : GoString} (hstorage : s.ns.backupStorages name = none)
    (hconfig : s.ns.monitoringConfigs name = none) : s.HeldAt name := by
  constructor
  · intro bs hbs
    cases hstorage.symm.trans hbs
  · intro m hm
    cases hconfig.symm.trans hm

theorem step_heldAt {r : CredentialRequest} (hs : ∀ name, s.HeldAt name) (hr : s.Separate r)
    (h : s.step r = some t) : t.HeldAt r.name := by
  cases r with
  | createBackupStorage req =>
    obtain ⟨_, rfl⟩ := step_createBackupStorage h
    exact .of_storage (backupStorageFromParams req) (by simp) rfl (by simp) hr
  | updateBackupStorage name req =>
    obtain ⟨stored, _, hstored, hwritten, rfl⟩ := step_updateBackupStorage h
    obtain ⟨hsecretName, hsecret⟩ := (hs name).storage stored hstored
    have hnone := (hs name).config_none hstored
    rcases hwritten with ⟨hkeys, rfl⟩ | ⟨habsent, rfl⟩
    · have heq := (writtenSecret_eq_iff hkeys).mpr hr
      exact .of_storage (updatedBackupStorage req stored) (by simp) hsecretName
        (by simp [heq]) hnone
    · have hsame : s.suppliedKeys name req = s.storageKeys name := by simp [suppliedKeys, habsent]
      exact .of_storage (updatedBackupStorage req stored) (by simp) hsecretName
        (by simpa [hsame] using hsecret) hnone
  | deleteBackupStorage name =>
    obtain rfl := step_deleteBackupStorage h
    exact .of_none (by simp) hr
  | createMonitoringInstance pmm req =>
    obtain rfl := step_createMonitoringInstance h
    exact .of_config (monitoringConfigFromParams req) (by simp) rfl (by simp) hr
  | updateMonitoringInstance pmm name req =>
    obtain ⟨stored, _, hstored, hwritten, rfl⟩ := step_updateMonitoringInstance h
    obtain ⟨hsecretName, hsecret⟩ := (hs name).config stored hstored
    have hnone := (hs name).storage_none hstored
    rcases hwritten with rfl | ⟨hsame, rfl⟩
    · exact .of_config (updatedMonitoringConfig req stored) (by simp) hsecretName (by simp) hnone
    · exact .of_config (updatedMonitoringConfig req stored) (by simp) hsecretName
        (by simpa [hsame] using hsecret) hnone
  | deleteMonitoringInstance name =>
    obtain ⟨hsome, rfl⟩ := step_deleteMonitoringInstance h
    obtain ⟨stored, hstored⟩ := Option.ne_none_iff_exists'.mp hsome
    exact .of_none ((hs name).storage_none hstored) (by simp)

theorem step_held {r : CredentialRequest} (hs : ∀ name, s.HeldAt name) (hr : s.Separate r)
    (h : s.step r = some t) : ∀ name, t.HeldAt name := by
  intro name
  by_cases hname : name = r.name
  · rw [hname]
    exact step_heldAt hs hr h
  · exact (hs name).of_sameAt (step_sameAt h hname)

theorem step_breaks {r : CredentialRequest} (hs : ∀ name, s.HeldAt name) (hr : ¬ s.Separate r)
    (h : s.step r = some t) : ¬ t.CredentialsHeld := by
  intro hheld
  cases r with
  | createBackupStorage req =>
    obtain ⟨_, rfl⟩ := step_createBackupStorage h
    obtain ⟨m, hm⟩ := Option.ne_none_iff_exists'.mp hr
    have hsecret := hheld.config req.name m hm
    simp only [((hs req.name).config m hm).1] at hsecret
    exact backupSecretData_ne _ _ _ (by simpa using hsecret)
  | updateBackupStorage name req =>
    obtain ⟨stored, _, hstored, hwritten, rfl⟩ := step_updateBackupStorage h
    obtain ⟨hsecretName, _⟩ := (hs name).storage stored hstored
    rcases hwritten with ⟨hkeys, rfl⟩ | ⟨habsent, rfl⟩
    · have hsecret := hheld.storage name (updatedBackupStorage req stored) (by simp)
      have hname : (updatedBackupStorage req stored).spec.credentialsSecretName = name :=
        hsecretName
      rw [hname] at hsecret
      exact hr ((writtenSecret_eq_iff hkeys).mp (by simpa using hsecret))
    · apply hr
      intro hkeys
      simp [habsent] at hkeys
  | deleteBackupStorage name =>
    obtain rfl := step_deleteBackupStorage h
    obtain ⟨m, hm⟩ := Option.ne_none_iff_exists'.mp hr
    have hsecret := hheld.config name m hm
    simp only [((hs name).config m hm).1] at hsecret
    simp at hsecret
  | createMonitoringInstance pmm req =>
    obtain rfl := step_createMonitoringInstance h
    obtain ⟨bs, hbs⟩ := Option.ne_none_iff_exists'.mp hr
    have hsecret := hheld.storage req.name bs hbs
    simp only [((hs req.name).storage bs hbs).1] at hsecret
    exact backupSecretData_ne _ _ _ (by simpa using hsecret.symm)
  | updateMonitoringInstance pmm name req => exact hr trivial
  | deleteMonitoringInstance name => exact hr trivial

end CredentialState

/-! ### Whole runs -/

def emptyState (secrets : ObjectStore GoString Secret) : CredentialState where
  ns := ⟨secrets, fun _ => none, fun _ => none⟩
  storageKeys _ := ⟨[], []⟩
  apiKeys _ := []

/-- Over a run of requests that succeed every object keeps a secret with its own
credentials if and only if each request is separate: storages and instances take
different names, and updates of credentials supply both halves. -/
theorem credentialsHeld_iff_separate (secrets : ObjectStore GoString Secret)
    (rs : List CredentialRequest) (t : CredentialState)
    (h : run CredentialState.step (emptyState secrets) rs = some t) :
    Always CredentialState.step CredentialState.CredentialsHeld (emptyState secrets) rs ↔
      AlongRun CredentialState.step CredentialState.Separate (emptyState secrets) rs := by
  apply always_iff_alongRun_within (fun s => ∀ name, s.HeldAt name) _ _ _ _ (.of_run h)
  · intro s r s' hs _ hr hstep
    exact CredentialState.step_held hs hr hstep
  · intro s hs
    exact .of_heldAt hs
  · intro s r hs ⟨s', hstep⟩ hr
    exact ⟨s', hstep, CredentialState.step_breaks hs hr hstep⟩
  · intro name
    exact .of_none rfl rfl

def sampleInstance : MonitoringInstanceCreateParams where
  name := ascii "s3"
  type := ascii "pmm"
  url := ascii "https://pmm"
  pmm := some ⟨ascii "key", [], []⟩
  verifyTLS := none

def otherInstance : MonitoringInstanceCreateParams := { sampleInstance with name := ascii "pmm" }

def sampleRotation : UpdateBackupStorageParams where
  accessKey := some (ascii "AK2")
  secretKey := some (ascii "SK2")

def separateRequests : List CredentialRequest :=
  [.createBackupStorage s3Params, .createMonitoringInstance samplePMM otherInstance,
    .updateBackupStorage (ascii "s3") sampleRotation, .deleteMonitoringInstance (ascii "pmm")]

theorem credentialsHeld_iff_separate_sample :
    ∃ t, run CredentialState.step (emptyState fun _ => none) separateRequests = some t ∧
      (Always CredentialState.step CredentialState.CredentialsHeld (emptyState fun _ => none)
          separateRequests ↔
        AlongRun CredentialState.step CredentialState.Separate (emptyState fun _ => none)
          separateRequests) := by
  have hrun : (run CredentialState.step (emptyState fun _ => none) separateRequests).isSome = true := by
    decide +kernel
  obtain ⟨t, ht⟩ := Option.isSome_iff_exists.mp hrun
  exact ⟨t, ht, credentialsHeld_iff_separate (fun _ => none) separateRequests t ht⟩

/-- An instance of a storage's name puts its API key where the storage has its keys. -/
theorem storage_with_api_key :
    ∃ t, run CredentialState.step (emptyState fun _ => none)
        [.createBackupStorage s3Params, .createMonitoringInstance samplePMM sampleInstance] =
        some t ∧
      (t.ns.backupStorages (ascii "s3")).map (·.spec.credentialsSecretName) = some (ascii "s3") ∧
      t.ns.secrets (ascii "s3") = some (monitoringConfigSecretData (ascii "key")) ∧
      ¬ t.CredentialsHeld := by
  have hrun : (run CredentialState.step (emptyState fun _ => none)
      [.createBackupStorage s3Params, .createMonitoringInstance samplePMM sampleInstance]).any
      (fun t => decide ((t.ns.backupStorages (ascii "s3")).map (·.spec.credentialsSecretName) =
          some (ascii "s3") ∧
        t.ns.secrets (ascii "s3") = some (monitoringConfigSecretData (ascii "key")))) = true := by
    decide +kernel
  obtain ⟨t, ht, hshared⟩ := (Option.any_eq_true ..).mp hrun
  obtain ⟨hstorage, hsecret⟩ := of_decide_eq_true hshared
  refine ⟨t, ht, hstorage, hsecret, ?_⟩
  intro hheld
  obtain ⟨bs, hbs, hname⟩ := Option.map_eq_some_iff.mp hstorage
  have hown := hheld.storage (ascii "s3") bs hbs
  rw [hname, hsecret] at hown
  exact backupSecretData_ne _ _ _ (Option.some.inj hown).symm

end OpenEverest.K8s
