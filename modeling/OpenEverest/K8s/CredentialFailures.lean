import OpenEverest.K8s.Credentials

/-!
# Requests that fail

A creation deletes the secret when its object is not created, also one that was there
before and that it overwrote. An update writes the secret before the object.
-/

namespace OpenEverest.K8s

open Framework GoString Api

/-- An error leaves the namespace as it was. -/
def KeepsOnError {α : Type} (ns : NamespaceObjects) (answer : Answer α) : Prop :=
  ∀ e, answer.1 = .error e → answer.2 = ns

section Answers

variable {α : Type} (ns : NamespaceObjects)

theorem keepsOnError_same (e : HandlerError) : KeepsOnError ns ((.error e, ns) : Answer α) :=
  fun _ _ => rfl

theorem keepsOnError_ok (a : α) (t : NamespaceObjects) :
    KeepsOnError ns ((.ok a, t) : Answer α) := by
  intro e he
  cases he

theorem keepsOnError_error (e : HandlerError) (t : NamespaceObjects) :
    KeepsOnError ns ((.error e, t) : Answer α) ↔ t = ns :=
  ⟨fun h => h e rfl, fun h _ _ => h⟩

end Answers

section Failures

variable {fails : Failures} {ns : NamespaceObjects}

/-- The creation of the secret comes to replace the data of one that is there. -/
structure Overwrites (fails : Failures) (ns : NamespaceObjects) (name : GoString) : Prop where
  existing : ns.secrets name ≠ none
  create : fails (.create .secret) = none ∨ fails (.create .secret) = some .alreadyExists
  update : fails (.update .secret) = none

theorem createOrUpdateSecret_eq_ok {errors : CreateErrors} {name : GoString} {secret : Secret}
    {t : NamespaceObjects} :
    createOrUpdateSecret fails ns errors name secret = .ok t ↔
      (Overwrites fails ns name ∨ ns.secrets name = none ∧ fails (.create .secret) = none) ∧
        t = ns.putSecret name secret := by
  unfold createOrUpdateSecret
  cases hcreate : ns.createSecret fails name secret with
  | ok written =>
    obtain ⟨hfails, hnone, rfl⟩ := NamespaceObjects.createSecret_eq_ok.mp hcreate
    simp [hfails, hnone, eq_comm]
  | error e =>
    have hcases := NamespaceObjects.createSecret_eq_error.mp hcreate
    have hnot : ¬ (ns.secrets name = none ∧ fails (.create .secret) = none) := by
      intro ⟨hnone, hfails⟩
      rcases hcases with hsome | ⟨_, hsome, _⟩
      · simp [hfails] at hsome
      · exact hsome hnone
    have hother : e ≠ .alreadyExists → ¬ Overwrites fails ns name := by
      intro hne hover
      rcases hcases with hsome | ⟨_, _, hexists⟩
      · rcases hover.create with hfails | hfails
        · cases hsome.symm.trans hfails
        · exact hne (Option.some.inj (hsome.symm.trans hfails))
      · exact hne hexists
    cases e with
    | alreadyExists =>
      have hmay : fails (.create .secret) = none ∨
          fails (.create .secret) = some .alreadyExists := by
        rcases hcases with hsome | ⟨hfails, _⟩
        · exact .inr hsome
        · exact .inl hfails
      cases hupdate : ns.updateSecret fails name secret with
      | ok written =>
        obtain ⟨hfails, hsome, rfl⟩ := NamespaceObjects.updateSecret_eq_ok.mp hupdate
        have hover : Overwrites fails ns name := ⟨hsome, hmay, hfails⟩
        simp [hover, eq_comm]
      | error e =>
        have hover : ¬ Overwrites fails ns name := by
          intro hover
          have hok : ns.updateSecret fails name secret = .ok (ns.putSecret name secret) :=
            NamespaceObjects.updateSecret_eq_ok.mpr ⟨hover.update, hover.existing, rfl⟩
          rw [hok] at hupdate
          cases hupdate
        simp [hover, hnot]
    | notFound => simp [hother (by decide), hnot]
    | other => simp [hother (by decide), hnot]

/-- A creation whose clean-up succeeds loses exactly the secret that it overwrote. -/
theorem createWithSecret_keeps_iff {α : Type} {errors : CreateErrors} {name : GoString}
    {secret : Secret} {create : NamespaceObjects → Except StoreError NamespaceObjects} {object : α}
    (hclean : fails (.delete .secret) = none) :
    KeepsOnError ns (createWithSecret fails ns errors name secret create object) ↔
      (Overwrites fails ns name → ∃ t, create (ns.putSecret name secret) = .ok t) := by
  unfold createWithSecret
  cases hsecret : createOrUpdateSecret fails ns errors name secret with
  | error e =>
    have hover : ¬ Overwrites fails ns name := by
      intro hover
      have hok : createOrUpdateSecret fails ns errors name secret =
          .ok (ns.putSecret name secret) :=
        createOrUpdateSecret_eq_ok.mpr ⟨.inl hover, rfl⟩
      rw [hok] at hsecret
      cases hsecret
    simp [hover, keepsOnError_same]
  | ok written =>
    obtain ⟨hwritten, rfl⟩ := createOrUpdateSecret_eq_ok.mp hsecret
    cases hobject : create (ns.putSecret name secret) with
    | ok created => simp [hobject, keepsOnError_ok]
    | error e =>
      have hdelete : (ns.putSecret name secret).deleteSecret fails name =
          .ok ((ns.putSecret name secret).eraseSecret name) := by
        rw [NamespaceObjects.deleteSecret_eq_ok]
        exact ⟨hclean, by simp [NamespaceObjects.putSecret], rfl⟩
      simp only [hobject, hdelete, keepsOnError_error, reduceCtorEq, exists_false, imp_false]
      constructor
      · intro heq hover
        apply hover.existing
        rw [← heq]
        exact ObjectStore.erase_self ..
      · intro hover
        have hnone : ns.secrets name = none := by
          rcases hwritten with hwritten | ⟨hnone, _⟩
          · exact absurd hwritten hover
          · exact hnone
        simp only [NamespaceObjects.eraseSecret, NamespaceObjects.putSecret,
          ObjectStore.erase_put _ _ _ hnone]

def ReadsNotFound (fails : Failures) (ns : NamespaceObjects) (kind : ObjectKind)
    (name : GoString) : Prop :=
  fails (.get kind) = some .notFound ∨ fails (.get kind) = none ∧ ¬ ns.Has kind name

theorem getBackupStorage_notFound {name : GoString} :
    ns.getBackupStorage fails name = .error .notFound ↔
      ReadsNotFound fails ns .backupStorage name := by
  simp [NamespaceObjects.getBackupStorage, inject_eq_error, ObjectStore.get_eq_error,
    ReadsNotFound, NamespaceObjects.Has]

theorem getMonitoringConfig_notFound {name : GoString} :
    ns.getMonitoringConfig fails name = .error .notFound ↔
      ReadsNotFound fails ns .monitoringConfig name := by
  simp [NamespaceObjects.getMonitoringConfig, inject_eq_error, ObjectStore.get_eq_error,
    ReadsNotFound, NamespaceObjects.Has]

/-- An object that is not created takes with it a secret that was there before. -/
structure LosesOnCreate (fails : Failures) (ns : NamespaceObjects) (kind : ObjectKind)
    (name : GoString) : Prop where
  read : ReadsNotFound fails ns kind name
  overwrites : Overwrites fails ns name
  create : ¬ (fails (.create kind) = none ∧ ¬ ns.Has kind name)

theorem not_losesOnCreate_iff {kind : ObjectKind} {name : GoString}
    (hread : ReadsNotFound fails ns kind name) :
    ¬ LosesOnCreate fails ns kind name ↔
      (Overwrites fails ns name → fails (.create kind) = none ∧ ¬ ns.Has kind name) := by
  constructor
  · intro hkeeps hover
    by_contra hcreate
    exact hkeeps ⟨hread, hover, hcreate⟩
  · intro hcreate hloses
    exact hloses.create (hcreate hloses.overwrites)

theorem createBackupStorage_keeps_iff (req : CreateBackupStorageParams)
    (hclean : fails (.delete .secret) = none) :
    KeepsOnError ns (createBackupStorage fails ns req) ↔
      ¬ LosesOnCreate fails ns .backupStorage req.name := by
  unfold createBackupStorage
  by_cases hread : ReadsNotFound fails ns .backupStorage req.name
  · rw [getBackupStorage_notFound.mpr hread, not_losesOnCreate_iff hread]
    simp [createWithSecret_keeps_iff hclean, NamespaceObjects.createBackupStorage_eq_ok,
      NamespaceObjects.putSecret, NamespaceObjects.Has]
  · have hkeeps : ¬ LosesOnCreate fails ns .backupStorage req.name := fun hloses =>
      hread hloses.read
    rw [← getBackupStorage_notFound] at hread
    simp only [hkeeps, not_false_eq_true, iff_true]
    split
    · exact keepsOnError_same _ _
    · contradiction
    · exact keepsOnError_same _ _

theorem createMonitoringInstance_keeps_iff (pmm : PMM) (req : MonitoringInstanceCreateParams)
    (hclean : fails (.delete .secret) = none) :
    KeepsOnError ns (createMonitoringInstance fails ns pmm req) ↔
      ∀ apiKey, getPMMApiKey pmm req = .ok apiKey →
        ¬ LosesOnCreate fails ns .monitoringConfig req.name := by
  unfold createMonitoringInstance
  by_cases hread : ReadsNotFound fails ns .monitoringConfig req.name
  · rw [getMonitoringConfig_notFound.mpr hread, not_losesOnCreate_iff hread]
    cases hkey : getPMMApiKey pmm req with
    | error e => simp [keepsOnError_same]
    | ok apiKey =>
      simp [createMonitoringK8sResources, createWithSecret_keeps_iff hclean,
        NamespaceObjects.createMonitoringConfig_eq_ok, NamespaceObjects.putSecret,
        NamespaceObjects.Has]
  · have hkeeps : ¬ LosesOnCreate fails ns .monitoringConfig req.name := fun hloses =>
      hread hloses.read
    rw [← getMonitoringConfig_notFound] at hread
    simp only [hkeeps, not_false_eq_true, implies_true, iff_true]
    split
    · exact keepsOnError_same _ _
    · contradiction
    · exact keepsOnError_same _ _

/-- The secret's data is replaced by other data, and the object is then not updated. -/
structure LosesOnUpdate (fails : Failures) (ns : NamespaceObjects) (kind : ObjectKind)
    (name : GoString) (secret : Secret) : Prop where
  existing : ns.secrets name ≠ none
  changed : ns.secrets name ≠ some secret
  update : fails (.update .secret) = none
  object : ¬ (fails (.get kind) = none ∧ ns.Has kind name ∧ fails (.update kind) = none)

def writtenSecret (req : UpdateBackupStorageParams) : Secret :=
  backupSecretData (req.secretKey.getD []) (req.accessKey.getD [])

theorem putSecret_eq_self {name : GoString} {secret : Secret} :
    ns.putSecret name secret = ns ↔ ns.secrets name = some secret := by
  rw [← ObjectStore.put_eq_self]
  constructor
  · exact fun h => congrArg NamespaceObjects.secrets h
  · intro h
    simp only [NamespaceObjects.putSecret, h]

theorem keepsOnError_put {α : Type} {name : GoString} {secret : Secret} (e : HandlerError) :
    KeepsOnError ns ((.error e, ns.putSecret name secret) : Answer α) ↔
      ns.secrets name = some secret :=
  (keepsOnError_error ..).trans putSecret_eq_self

theorem not_losesOnUpdate_iff {kind : ObjectKind} {name : GoString} {secret t}
    (hupdate : ns.updateSecret fails name secret = .ok t) :
    ¬ LosesOnUpdate fails ns kind name secret ↔ ns.secrets name = some secret ∨
      fails (.get kind) = none ∧ ns.Has kind name ∧ fails (.update kind) = none := by
  obtain ⟨hfails, hsome, _⟩ := NamespaceObjects.updateSecret_eq_ok.mp hupdate
  constructor
  · intro hkeeps
    by_contra hnot
    rw [not_or] at hnot
    exact hkeeps ⟨hsome, hnot.1, hfails, hnot.2⟩
  · intro hor hloses
    rcases hor with hsame | hobject
    · exact hloses.changed hsame
    · exact hloses.object hobject

theorem losesOnUpdate_update {kind : ObjectKind} {name : GoString} {secret : Secret}
    (h : LosesOnUpdate fails ns kind name secret) :
    ns.updateSecret fails name secret = .ok (ns.putSecret name secret) :=
  NamespaceObjects.updateSecret_eq_ok.mpr ⟨h.update, h.existing, rfl⟩

theorem updateStorageObject_keeps_iff (name : GoString) (secret : Secret)
    (req : UpdateBackupStorageParams) :
    KeepsOnError ns (updateStorageObject fails (ns.putSecret name secret) name req) ↔
      ns.secrets name = some secret ∨ fails (.get .backupStorage) = none ∧
        ns.Has .backupStorage name ∧ fails (.update .backupStorage) = none := by
  unfold updateStorageObject
  cases hget : (ns.putSecret name secret).getBackupStorage fails name with
  | error e =>
    have hnot : ¬ (fails (.get .backupStorage) = none ∧ ns.Has .backupStorage name) := by
      intro ⟨hfails, hhas⟩
      obtain ⟨bs, hbs⟩ := Option.ne_none_iff_exists'.mp hhas
      cases hget.symm.trans (NamespaceObjects.getBackupStorage_eq_ok.mpr ⟨hfails, hbs⟩)
    simp only [keepsOnError_put, ← and_assoc, hnot, false_and, or_false]
  | ok bs =>
    obtain ⟨hfails, hbs⟩ := NamespaceObjects.getBackupStorage_eq_ok.mp hget
    have hhas : ns.Has .backupStorage name := Option.ne_none_iff_exists'.mpr ⟨bs, hbs⟩
    simp only [hfails, hhas, true_and]
    cases hupdate : (ns.putSecret name secret).updateBackupStorage fails name
        (updatedBackupStorage req bs) with
    | error e =>
      have hnot : fails (.update .backupStorage) ≠ none := by
        intro hfails
        cases hupdate.symm.trans
          (NamespaceObjects.updateBackupStorage_eq_ok.mpr ⟨hfails, hhas, rfl⟩)
      simp only [keepsOnError_put, hnot, or_false]
    | ok updated =>
      have hfails := (NamespaceObjects.updateBackupStorage_eq_ok.mp hupdate).1
      simp only [keepsOnError_ok, hfails, or_true]

theorem updateBackupStorage_keeps_iff (name : GoString) (req : UpdateBackupStorageParams) :
    KeepsOnError ns (updateBackupStorage fails ns name req) ↔
      ((req.accessKey.isSome || req.secretKey.isSome) = true →
        ¬ LosesOnUpdate fails ns .backupStorage name (writtenSecret req)) := by
  unfold updateBackupStorage
  by_cases hkeys : (req.accessKey.isSome || req.secretKey.isSome) = true
  · have hwrite : updateBackupSecret fails ns name req =
        ns.updateSecret fails name (writtenSecret req) := if_pos hkeys
    rw [hwrite]
    simp only [hkeys, true_imp_iff]
    cases hupdate : ns.updateSecret fails name (writtenSecret req) with
    | error e =>
      have hkeeps : ¬ LosesOnUpdate fails ns .backupStorage name (writtenSecret req) := by
        intro hloses
        rw [losesOnUpdate_update hloses] at hupdate
        cases hupdate
      simp only [hkeeps, not_false_eq_true, iff_true]
      exact keepsOnError_same _ _
    | ok written =>
      rw [not_losesOnUpdate_iff hupdate]
      obtain ⟨_, _, rfl⟩ := NamespaceObjects.updateSecret_eq_ok.mp hupdate
      exact updateStorageObject_keeps_iff name (writtenSecret req) req
  · have hskip : updateBackupSecret fails ns name req = .ok ns := if_neg hkeys
    rw [hskip]
    simp only [hkeys, Bool.false_eq_true, false_imp_iff, iff_true]
    unfold updateStorageObject
    split
    · exact keepsOnError_same _ _
    · split
      · exact keepsOnError_same _ _
      · exact keepsOnError_ok _ _ _

theorem updateConfigObject_keeps_iff (name : GoString) (secret : Secret)
    (m : MonitoringConfigSpec) (hhas : ns.Has .monitoringConfig name) :
    KeepsOnError ns (updateConfigObject fails (ns.putSecret name secret) name m) ↔
      ns.secrets name = some secret ∨ fails (.update .monitoringConfig) = none := by
  unfold updateConfigObject
  cases hupdate : (ns.putSecret name secret).updateMonitoringConfig fails name m with
  | error e =>
    have hnot : fails (.update .monitoringConfig) ≠ none := by
      intro hfails
      cases hupdate.symm.trans
        (NamespaceObjects.updateMonitoringConfig_eq_ok.mpr ⟨hfails, hhas, rfl⟩)
    simp only [keepsOnError_put, hnot, or_false]
  | ok updated =>
    have hfails := (NamespaceObjects.updateMonitoringConfig_eq_ok.mp hupdate).1
    simp only [keepsOnError_ok, hfails, or_true]

theorem updateMonitoringInstance_keeps_iff (pmm : PMM) (name : GoString)
    (req : MonitoringInstanceUpdateParams) :
    KeepsOnError ns (updateMonitoringInstance fails ns pmm name req) ↔
      ∀ m, ns.monitoringConfigs name = some m → ∀ apiKey,
        updatedApiKey pmm m name req = .ok apiKey → apiKey ≠ [] →
          fails (.get .monitoringConfig) = none →
          ¬ LosesOnUpdate fails ns .monitoringConfig name (monitoringConfigSecretData apiKey) := by
  unfold updateMonitoringInstance
  cases hget : ns.getMonitoringConfig fails name with
  | error e =>
    simp only [keepsOnError_same, true_iff]
    intro m hm apiKey _ _ hfails _
    rw [NamespaceObjects.getMonitoringConfig_eq_ok.mpr ⟨hfails, hm⟩] at hget
    cases hget
  | ok m =>
    obtain ⟨hfails, hm⟩ := NamespaceObjects.getMonitoringConfig_eq_ok.mp hget
    have hhas : ns.Has .monitoringConfig name := Option.ne_none_iff_exists'.mpr ⟨m, hm⟩
    simp only [hm, Option.some.injEq, forall_eq', hfails, true_imp_iff]
    cases hkey : updatedApiKey pmm m name req with
    | error e => simp [keepsOnError_same]
    | ok apiKey =>
      simp only [Except.ok.injEq, forall_eq', updateMonitoringSecret]
      by_cases hempty : apiKey = []
      · simp only [hempty, ne_eq, not_true, if_false, false_imp_iff, iff_true]
        unfold updateConfigObject
        split
        · exact keepsOnError_same _ _
        · exact keepsOnError_ok _ _ _
      · simp only [ne_eq, hempty, not_false_eq_true, if_true, true_imp_iff]
        cases hupdate : ns.updateSecret fails name (monitoringConfigSecretData apiKey) with
        | error e =>
          have hkeeps : ¬ LosesOnUpdate fails ns .monitoringConfig name
              (monitoringConfigSecretData apiKey) := by
            intro hloses
            rw [losesOnUpdate_update hloses] at hupdate
            cases hupdate
          simp only [keepsOnError_same, hkeeps, not_false_eq_true]
        | ok written =>
          rw [not_losesOnUpdate_iff hupdate]
          obtain ⟨_, _, rfl⟩ := NamespaceObjects.updateSecret_eq_ok.mp hupdate
          simp only [hfails, hhas, true_and]
          exact updateConfigObject_keeps_iff name _ _ hhas

end Failures

/-- A request that fails, its clean-up apart, leaves secrets and objects as they were if and
only if no object is refused after its secret was overwritten: on a creation over a
secret that was there, on an update over other data. -/
theorem requests_keep_iff (fails : Failures) (ns : NamespaceObjects) (pmm : PMM)
    (hclean : fails (.delete .secret) = none) :
    (∀ req, KeepsOnError ns (createBackupStorage fails ns req) ↔
      ¬ LosesOnCreate fails ns .backupStorage req.name) ∧
    (∀ name req, KeepsOnError ns (updateBackupStorage fails ns name req) ↔
      ((req.accessKey.isSome || req.secretKey.isSome) = true →
        ¬ LosesOnUpdate fails ns .backupStorage name (writtenSecret req))) ∧
    (∀ req, KeepsOnError ns (createMonitoringInstance fails ns pmm req) ↔
      ∀ apiKey, getPMMApiKey pmm req = .ok apiKey →
        ¬ LosesOnCreate fails ns .monitoringConfig req.name) ∧
    (∀ name req, KeepsOnError ns (updateMonitoringInstance fails ns pmm name req) ↔
      ∀ m, ns.monitoringConfigs name = some m → ∀ apiKey,
        updatedApiKey pmm m name req = .ok apiKey → apiKey ≠ [] →
          fails (.get .monitoringConfig) = none →
          ¬ LosesOnUpdate fails ns .monitoringConfig name (monitoringConfigSecretData apiKey)) := by
  refine ⟨?_, ?_, ?_, ?_⟩
  · intro req
    exact createBackupStorage_keeps_iff req hclean
  · intro name req
    exact updateBackupStorage_keeps_iff name req
  · intro req
    exact createMonitoringInstance_keeps_iff pmm req hclean
  · intro name req
    exact updateMonitoringInstance_keeps_iff pmm name req

def objectFails (call : Call) : Failures := fun c => if c = call then some .other else none

def s3Params : CreateBackupStorageParams where
  name := ascii "s3"
  type := ascii "s3"
  bucketName := ascii "bucket"
  region := ascii "us-east-1"
  accessKey := ascii "AK"
  secretKey := ascii "SK"
  url := none
  description := none
  allowedNamespaces := none
  verifyTLS := some true
  forcePathStyle := some false

def sampleObjects : NamespaceObjects where
  secrets name := if name = ascii "s3" then some ⟨[(ascii "token", ascii "t")]⟩ else none
  backupStorages _ := none
  monitoringConfigs _ := none

def createdObjects : NamespaceObjects := (createBackupStorage noFailures sampleObjects s3Params).2

def samplePMM : PMM where
  newString := ascii "1"
  createPMMApiKey _ _ _ _ _ := .error ()

theorem requests_keep_iff_sample :
    objectFails (.create .backupStorage) (.delete .secret) = none ∧
      (KeepsOnError sampleObjects
          (createBackupStorage (objectFails (.create .backupStorage)) sampleObjects s3Params) ↔
        ¬ LosesOnCreate (objectFails (.create .backupStorage)) sampleObjects .backupStorage
          s3Params.name) :=
  ⟨by decide, (requests_keep_iff (objectFails (.create .backupStorage)) sampleObjects samplePMM
    (by decide)).1 s3Params⟩

/-- A refused creation deletes the secret of another component, and a refused update
leaves the storage with the new access key and no secret key. -/
theorem failed_requests_lose_secrets :
    ¬ KeepsOnError sampleObjects
      (createBackupStorage (objectFails (.create .backupStorage)) sampleObjects s3Params) ∧
    (createBackupStorage (objectFails (.create .backupStorage)) sampleObjects
      s3Params).2.secrets (ascii "s3") = none ∧
    ¬ KeepsOnError createdObjects
      (updateBackupStorage (objectFails (.update .backupStorage)) createdObjects (ascii "s3")
        { accessKey := some (ascii "AK2") }) ∧
    (updateBackupStorage (objectFails (.update .backupStorage)) createdObjects (ascii "s3")
      { accessKey := some (ascii "AK2") }).2.secrets (ascii "s3") =
        some (backupSecretData [] (ascii "AK2")) := by
  refine ⟨?_, by decide +kernel, ?_, by decide +kernel⟩
  · intro hkeeps
    have hsame := congrArg (fun ns => ns.secrets (ascii "s3"))
      (hkeeps (.wrap "failed to create backup storage" (.kube .other)) (by decide +kernel))
    revert hsame
    decide +kernel
  · intro hkeeps
    have hsame := congrArg (fun ns => ns.secrets (ascii "s3"))
      (hkeeps (.kube .other) (by decide +kernel))
    revert hsame
    decide +kernel

end OpenEverest.K8s
