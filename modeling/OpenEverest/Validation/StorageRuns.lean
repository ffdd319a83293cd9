import OpenEverest.Validation.BackupStorages

/-!
# Runs of updates of backup storages

The operator marks the storages that clusters use. An update of a storage in use may
not change its bucket or region; its endpoint URL is not compared.
-/

namespace OpenEverest.Validation

open Framework GoString Api

/-- An update that is accepted and succeeds, and a mark of the operator. -/
inductive StorageMove where
  | update (v : StorageValidator) (name : GoString) (params : UpdateBackupStorageParams)
  | mark (name : GoString) (inUse : Bool)

def storageStep (ns : K8s.NamespaceObjects) : StorageMove → Option K8s.NamespaceObjects
  | .update v name params =>
    match updateBackupStorage v ns name params with
    | .error _ => none
    | .ok _ => K8s.succeeded (K8s.updateBackupStorage K8s.noFailures ns name params)
  | .mark name inUse =>
    (ns.backupStorages name).map fun bs => ns.putStorage name { bs with inUse }

structure Location where
  bucket : GoString
  region : GoString
  endpointURL : GoString
  deriving DecidableEq

def locationOf (bs : StoredBackupStorage) : Location :=
  ⟨bs.spec.bucket, bs.spec.region, bs.spec.endpointURL⟩

def storedLocation (ns : K8s.NamespaceObjects) (name : GoString) : Option Location :=
  (ns.backupStorages name).map locationOf

def InUse (ns : K8s.NamespaceObjects) (name : GoString) : Prop :=
  (ns.backupStorages name).map (·.inUse) = some true

instance (ns : K8s.NamespaceObjects) (name : GoString) : Decidable (InUse ns name) :=
  inferInstanceAs (Decidable (_ = _))

/-- An update of this storage carries no endpoint URL but the stored one. -/
def KeepsURL (name : GoString) (ns : K8s.NamespaceObjects) : StorageMove → Prop
  | .update _ updated params =>
    updated = name → ∀ url ∈ params.url,
      (storedLocation ns name).map (·.endpointURL) = some url
  | .mark _ _ => True

theorem basicStorageParamsAreChanged_eq_false {bs : StoredBackupStorage}
    {params : UpdateBackupStorageParams} (h : basicStorageParamsAreChanged bs params = false) :
    params.bucketName.getD bs.spec.bucket = bs.spec.bucket ∧
      params.region.getD bs.spec.region = bs.spec.region := by
  unfold basicStorageParamsAreChanged at h
  constructor
  · cases hbucket : params.bucketName with
    | none => rfl
    | some bucket =>
      have hsame : bs.spec.bucket = bucket := by
        by_contra hne
        simp [hbucket, hne] at h
      exact hsame.symm
  · cases hregion : params.region with
    | none => rfl
    | some region =>
      have hsame : bs.spec.region = region := by
        by_contra hne
        simp [hregion, hne] at h
      exact hsame.symm

theorem validateUpdate_inUse {v : StorageValidator} {params : UpdateBackupStorageParams}
    {name : GoString} {bs : StoredBackupStorage} {secret : Secret} (huse : bs.inUse = true)
    (h : validateUpdateBackupStorageRequest v params name bs secret = .ok ()) :
    locationOf (K8s.updatedBackupStorage params bs) =
      { locationOf bs with endpointURL := params.url.getD bs.spec.endpointURL } := by
  rw [validateUpdateBackupStorageRequest, check_bind_eq_ok, refuseWhen_eq_ok] at h
  have hchanged : basicStorageParamsAreChanged bs params = false := by
    simpa [huse] using h.1
  obtain ⟨hbucket, hregion⟩ := basicStorageParamsAreChanged_eq_false hchanged
  simp only [locationOf, K8s.updatedBackupStorage, hbucket, hregion]

theorem storageStep_update {ns t : K8s.NamespaceObjects} {v : StorageValidator} {name : GoString}
    {params : UpdateBackupStorageParams} (h : storageStep ns (.update v name params) = some t) :
    ∃ bs secret, ns.backupStorages name = some bs ∧
      validateUpdateBackupStorageRequest v params name bs secret = .ok () ∧
      t.backupStorages = ns.backupStorages.put name (K8s.updatedBackupStorage params bs) := by
  rw [storageStep] at h
  split at h
  · cases h
  · rename_i haccept
    obtain ⟨bs, secret, hbs, _, hvalid⟩ := updateBackupStorage_eq_ok.mp haccept
    obtain ⟨_, hok⟩ := K8s.succeeded_eq_some.mp h
    obtain ⟨written, stored, hwritten, hstored, rfl⟩ := K8s.updateBackupStorage_ok hok
    obtain rfl : bs = stored := Option.some.inj (hbs.symm.trans hstored)
    refine ⟨bs, secret, hbs, hvalid, ?_⟩
    rw [← K8s.updateBackupSecret_storages hwritten]
    rfl

theorem storageStep_location {ns t : K8s.NamespaceObjects} {v : StorageValidator} {name : GoString}
    {params : UpdateBackupStorageParams} (huse : InUse ns name)
    (h : storageStep ns (.update v name params) = some t) :
    ∃ bs, ns.backupStorages name = some bs ∧ storedLocation t name =
      some { locationOf bs with endpointURL := params.url.getD bs.spec.endpointURL } := by
  obtain ⟨bs, secret, hbs, hvalid, ht⟩ := storageStep_update h
  have hin : bs.inUse = true := by simpa [InUse, hbs] using huse
  refine ⟨bs, hbs, ?_⟩
  rw [storedLocation, ht, ObjectStore.put_self, Option.map_some, validateUpdate_inUse hin hvalid]

theorem storageStep_other {ns t : K8s.NamespaceObjects} {name : GoString} {move : StorageMove}
    (hother : ∀ v params, move ≠ .update v name params) (h : storageStep ns move = some t) :
    storedLocation t name = storedLocation ns name := by
  cases move with
  | update v updated params =>
    have hne : name ≠ updated := by
      intro heq
      exact hother v params (heq ▸ rfl)
    obtain ⟨bs, secret, _, _, ht⟩ := storageStep_update h
    rw [storedLocation, ht, ObjectStore.put_of_ne _ _ _ hne]
    rfl
  | mark marked inUse =>
    obtain ⟨bs, hbs, rfl⟩ := Option.map_eq_some_iff.mp h
    by_cases heq : name = marked
    · subst heq
      simp [storedLocation, K8s.NamespaceObjects.putStorage, hbs, locationOf]
    · simp [storedLocation, K8s.NamespaceObjects.putStorage, ObjectStore.put_of_ne _ _ _ heq]

theorem storageStep_keeps_iff {ns t : K8s.NamespaceObjects} {name : GoString} {move : StorageMove}
    (huse : InUse ns name) (h : storageStep ns move = some t) :
    storedLocation t name = storedLocation ns name ↔ KeepsURL name ns move := by
  by_cases hupdate : ∃ v params, move = .update v name params
  · obtain ⟨v, params, rfl⟩ := hupdate
    obtain ⟨bs, hbs, ht⟩ := storageStep_location huse h
    rw [ht]
    simp only [KeepsURL, storedLocation, hbs, Option.map_some, true_imp_iff, Option.some.injEq]
    cases params.url with
    | none => simp [locationOf]
    | some url => simp [locationOf, eq_comm]
  · have hother : ∀ v params, move ≠ .update v name params := by
      intro v params heq
      exact hupdate ⟨v, params, heq⟩
    simp only [storageStep_other hother h, true_iff]
    cases move with
    | update v updated params =>
      intro heq
      exact absurd (heq ▸ rfl) (hother v params)
    | mark marked inUse => trivial

/-- While a storage is in use its location never changes if and only if the updates of
it that carry an endpoint URL carry the stored one. -/
theorem location_kept_iff (ns t : K8s.NamespaceObjects) (name : GoString) (moves : List StorageMove)
    (hrun : run storageStep ns moves = some t)
    (huse : AlongRun storageStep (fun ns _ => InUse ns name) ns moves) :
    Always storageStep (fun t => storedLocation t name = storedLocation ns name) ns moves ↔
      AlongRun storageStep (KeepsURL name) ns moves := by
  apply always_iff_alongRun_within (fun t => storedLocation t name = storedLocation ns name)
    _ _ _ rfl ((AlongRun.of_run hrun).and huse)
  · intro s move s' hs ⟨_, huse⟩ hkeeps hstep
    exact ((storageStep_keeps_iff huse hstep).mpr hkeeps).trans hs
  · exact fun _ hs => hs
  · intro s move hs ⟨⟨s', hstep⟩, huse⟩ hkeeps
    refine ⟨s', hstep, ?_⟩
    rw [← hs, storageStep_keeps_iff huse hstep]
    exact hkeeps

def usedObjects : K8s.NamespaceObjects :=
  K8s.createdObjects.putStorage (ascii "s3")
    { K8s.backupStorageFromParams K8s.s3Params with inUse := true }

def describe : List StorageMove :=
  [.update reachableStorages (ascii "s3") { description := some (ascii "nightly") },
    .mark (ascii "s3") false]

def moveURL : List StorageMove :=
  [.update reachableStorages (ascii "s3") { url := some (ascii "https://other") }]

theorem location_kept_iff_sample :
    ∃ t, run storageStep usedObjects describe = some t ∧
      (Always storageStep (fun t => storedLocation t (ascii "s3") =
          storedLocation usedObjects (ascii "s3")) usedObjects describe ↔
        AlongRun storageStep (KeepsURL (ascii "s3")) usedObjects describe) := by
  have hrun : (run storageStep usedObjects describe).isSome = true := by decide +kernel
  obtain ⟨t, ht⟩ := Option.isSome_iff_exists.mp hrun
  exact ⟨t, ht, location_kept_iff usedObjects t (ascii "s3") describe ht (by decide +kernel)⟩

/-- The endpoint URL of a storage in use is changed. -/
theorem location_moved :
    AlongRun storageStep (fun ns _ => InUse ns (ascii "s3")) usedObjects moveURL ∧
    (run storageStep usedObjects moveURL).any (fun t => decide (InUse t (ascii "s3") ∧
      storedLocation t (ascii "s3") =
        some ⟨ascii "bucket", ascii "us-east-1", ascii "https://other"⟩)) = true ∧
    ¬ Always storageStep (fun t => storedLocation t (ascii "s3") =
      storedLocation usedObjects (ascii "s3")) usedObjects moveURL := by
  have hmoved : (run storageStep usedObjects moveURL).any (fun t => decide (InUse t (ascii "s3") ∧
      storedLocation t (ascii "s3") =
        some ⟨ascii "bucket", ascii "us-east-1", ascii "https://other"⟩)) = true := by
    decide +kernel
  refine ⟨by decide +kernel, hmoved, ?_⟩
  intro hkept
  obtain ⟨t, ht, hlocation⟩ := (Option.any_eq_true ..).mp hmoved
  have hsame : storedLocation t (ascii "s3") = storedLocation usedObjects (ascii "s3") :=
    hkept moveURL List.prefix_rfl t ht
  rw [(of_decide_eq_true hlocation).2] at hsame
  revert hsame
  decide +kernel

end OpenEverest.Validation
