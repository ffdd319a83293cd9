import OpenEverest.Validation.BackupStorages

/-!
# Duplicates of a backup storage

A created storage is compared with the others field by field; an updated one is compared by
its three fields written one after the other. Two storages with the same such text are the
same where the text is cut at the same places.
-/

namespace OpenEverest.Validation

open Framework GoString Api

/-- The three fields that tell storages apart. -/
@[ext]
structure StorageKey where
  region : GoString
  bucket : GoString
  endpointURL : GoString
  deriving DecidableEq

namespace StorageKey

def ofSpec (spec : BackupStorageSpec) : StorageKey := ⟨spec.region, spec.bucket, spec.endpointURL⟩

def text (k : StorageKey) : GoString := k.region ++ k.bucket ++ k.endpointURL

/-- The same text with its parts ending at other places. -/
structure CutElsewhere (k l : StorageKey) : Prop where
  text : k.text = l.text
  cut : ¬ (k.region.length = l.region.length ∧ k.bucket.length = l.bucket.length)

instance (k l : StorageKey) : Decidable (CutElsewhere k l) :=
  decidable_of_iff (k.text = l.text ∧
      ¬ (k.region.length = l.region.length ∧ k.bucket.length = l.bucket.length))
    ⟨fun h => ⟨h.1, h.2⟩, fun h => ⟨h.text, h.cut⟩⟩

theorem eq_of_text_eq {k l : StorageKey} (htext : k.text = l.text)
    (hregion : k.region.length = l.region.length) (hbucket : k.bucket.length = l.bucket.length) :
    k = l := by
  have hlength : (k.region ++ k.bucket).length = (l.region ++ l.bucket).length := by
    rw [List.length_append, List.length_append, hregion, hbucket]
  have hparts := List.append_inj htext hlength
  have hfront := List.append_inj hparts.1 hregion
  cases k
  cases l
  rw [StorageKey.mk.injEq]
  exact ⟨hfront.1, hfront.2, hparts.2⟩

theorem text_eq_iff (k l : StorageKey) : k.text = l.text ↔ k = l ∨ CutElsewhere k l := by
  constructor
  · intro htext
    by_cases hcut : k.region.length = l.region.length ∧ k.bucket.length = l.bucket.length
    · exact .inl (eq_of_text_eq htext hcut.1 hcut.2)
    · exact .inr ⟨htext, hcut⟩
  · intro h
    apply h.elim
    · intro heq
      rw [heq]
    · exact CutElsewhere.text

end StorageKey

def duplicateByCreate (params : CreateBackupStorageParams)
    (existingStorages : List (GoString × BackupStorageSpec)) : Bool :=
  existingStorages.any fun (_, spec) =>
    spec.region = params.region && spec.endpointURL = params.url.getD [] &&
      spec.bucket = params.bucketName

theorem duplicateByCreate_eq_true (params : CreateBackupStorageParams)
    (existingStorages : List (GoString × BackupStorageSpec)) :
    duplicateByCreate params existingStorages = true ↔
      ∃ s ∈ existingStorages,
        StorageKey.ofSpec s.2 = ⟨params.region, params.bucketName, params.url.getD []⟩ := by
  simp only [duplicateByCreate, List.any_eq_true, Bool.and_eq_true, decide_eq_true_eq,
    StorageKey.ofSpec, StorageKey.mk.injEq]
  refine exists_congr fun s => and_congr_right fun _ => ?_
  tauto

theorem create_refused_of_duplicate (v : StorageValidator) {params : CreateBackupStorageParams}
    {existingStorages : List (GoString × BackupStorageSpec)}
    (h : duplicateByCreate params existingStorages = true) :
    validateCreateBackupStorageRequest v params existingStorages =
      .error .errDuplicatedBackupStorage := by
  have hrefuse : refuseWhen (duplicateByCreate params existingStorages = true)
      .errDuplicatedBackupStorage = .error .errDuplicatedBackupStorage := if_pos h
  unfold validateCreateBackupStorageRequest
  exact congrArg (fun x => x >>= fun _ => _) hrefuse

section Update

variable (currentStorageName : GoString) (currentStorage : BackupStorageSpec)
  (existingStorages : List (GoString × BackupStorageSpec)) (params : UpdateBackupStorageParams)

def updatedKey : StorageKey where
  region := params.region.getD currentStorage.region
  bucket := params.bucketName.getD currentStorage.bucket
  endpointURL := params.url.getD currentStorage.endpointURL

def otherStorages : List (GoString × BackupStorageSpec) :=
  existingStorages.filter fun (name, _) => name ≠ currentStorageName

/-- A request to create a storage with the fields of the updated one. -/
def createUpdated : CreateBackupStorageParams where
  name := currentStorageName
  type := currentStorage.type
  bucketName := (updatedKey currentStorage params).bucket
  region := (updatedKey currentStorage params).region
  accessKey := []
  secretKey := []
  url := some (updatedKey currentStorage params).endpointURL
  description := none
  allowedNamespaces := none
  verifyTLS := none
  forcePathStyle := none

/-- The update is a duplicate exactly of another storage with the same three fields, as it
would be to create such a storage. -/
structure DuplicateLaw : Prop where
  fields : validateDuplicateStorageByUpdate currentStorageName currentStorage existingStorages
      params = true ↔
    ∃ s ∈ existingStorages, s.1 ≠ currentStorageName ∧
      s.2.region = (updatedKey currentStorage params).region ∧
      s.2.bucket = (updatedKey currentStorage params).bucket ∧
      s.2.endpointURL = (updatedKey currentStorage params).endpointURL
  create : validateDuplicateStorageByUpdate currentStorageName currentStorage existingStorages
      params = duplicateByCreate (createUpdated currentStorageName currentStorage params)
        (otherStorages currentStorageName existingStorages)

/-- Another storage has the text of the updated one, cut at other places. -/
def HasCutElsewhere : Prop :=
  ∃ s ∈ otherStorages currentStorageName existingStorages,
    (StorageKey.ofSpec s.2).CutElsewhere (updatedKey currentStorage params)

def HasSameKey : Prop :=
  ∃ s ∈ otherStorages currentStorageName existingStorages,
    StorageKey.ofSpec s.2 = updatedKey currentStorage params

variable {currentStorageName currentStorage existingStorages params}

theorem duplicateByUpdate_iff :
    validateDuplicateStorageByUpdate currentStorageName currentStorage existingStorages params =
        true ↔
      HasSameKey currentStorageName currentStorage existingStorages params ∨
        HasCutElsewhere currentStorageName currentStorage existingStorages params := by
  have htext : ∀ s : GoString × BackupStorageSpec,
      s.2.region ++ s.2.bucket ++ s.2.endpointURL =
        regionOrDefault params currentStorage.region ++
          bucketNameOrDefault params currentStorage.bucket ++
          urlOrDefault params currentStorage.endpointURL ↔
        StorageKey.ofSpec s.2 = updatedKey currentStorage params ∨
          (StorageKey.ofSpec s.2).CutElsewhere (updatedKey currentStorage params) :=
    fun s => StorageKey.text_eq_iff (.ofSpec s.2) (updatedKey currentStorage params)
  simp only [validateDuplicateStorageByUpdate, List.any_eq_true, Bool.and_eq_true,
    decide_eq_true_eq, HasSameKey, HasCutElsewhere, ← exists_or, ← and_or_left, otherStorages,
    List.mem_filter, htext, and_assoc]

theorem hasSameKey_iff : HasSameKey currentStorageName currentStorage existingStorages params ↔
    ∃ s ∈ existingStorages, s.1 ≠ currentStorageName ∧
      s.2.region = (updatedKey currentStorage params).region ∧
      s.2.bucket = (updatedKey currentStorage params).bucket ∧
      s.2.endpointURL = (updatedKey currentStorage params).endpointURL := by
  simp only [HasSameKey, otherStorages, List.mem_filter, decide_eq_true_eq, and_assoc,
    StorageKey.ofSpec, StorageKey.ext_iff]

theorem duplicateByCreate_iff :
    duplicateByCreate (createUpdated currentStorageName currentStorage params)
        (otherStorages currentStorageName existingStorages) = true ↔
      HasSameKey currentStorageName currentStorage existingStorages params := by
  exact duplicateByCreate_eq_true _ _

end Update

/-- The update is judged by its fields unless its text alone comes again, cut elsewhere. -/
theorem duplicateLaw_iff (currentStorageName : GoString) (currentStorage : BackupStorageSpec)
    (existingStorages : List (GoString × BackupStorageSpec)) (params : UpdateBackupStorageParams) :
    DuplicateLaw currentStorageName currentStorage existingStorages params ↔
      (HasCutElsewhere currentStorageName currentStorage existingStorages params →
        HasSameKey currentStorageName currentStorage existingStorages params) := by
  constructor
  · intro hlaw hcut
    exact hasSameKey_iff.mpr (hlaw.fields.mp (duplicateByUpdate_iff.mpr (.inr hcut)))
  · intro h
    have hsame : validateDuplicateStorageByUpdate currentStorageName currentStorage
        existingStorages params = true ↔
          HasSameKey currentStorageName currentStorage existingStorages params := by
      rw [duplicateByUpdate_iff]
      exact or_iff_left_of_imp h
    exact ⟨hsame.trans hasSameKey_iff,
      Bool.eq_iff_iff.mpr (hsame.trans duplicateByCreate_iff.symm)⟩

def storageAt (region bucket : String) : BackupStorageSpec where
  type := ascii "s3"
  bucket := ascii bucket
  region := ascii region
  endpointURL := ascii "https://s3.local"
  description := []
  credentialsSecretName := ascii "keys"
  allowedNamespaces := []
  verifyTLS := none
  forcePathStyle := none

/-- Region `eu-10` with bucket `backups` is refused for region `eu-1` with bucket `0backups`. -/
theorem duplicateLaw_broken : ¬ DuplicateLaw (ascii "a") (storageAt "eu-2" "backups")
    [(ascii "a", storageAt "eu-2" "backups"), (ascii "b", storageAt "eu-1" "0backups")]
    { region := some (ascii "eu-10") } := by
  intro hlaw
  have hcreate := hlaw.create
  revert hcreate
  decide +kernel

end OpenEverest.Validation
