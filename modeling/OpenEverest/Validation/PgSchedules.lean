import OpenEverest.Framework.KeyScan
import OpenEverest.Validation.PgRepos

/-!
# The schedules and storages of a PostgreSQL cluster

The checks of its schedules and repositories as the loops they are, with their maps as sets
of keys, and what they accept. The loops agree with the checks that
`validateDatabaseClusterCR` is made of.
-/

namespace OpenEverest.Validation.PgLoops

open Framework Api

def checkStorageDuplicates (dbc : DatabaseCluster) : Except ValidationError Unit :=
  if dbc.spec.schedules.length = 0 then .ok ()
  else failOnRepeat (·.backupStorageName) .errDuplicatedStoragePG ∅ dbc.spec.schedules

def checkStorageKept (oldSched : BackupSchedule) : List BackupSchedule → Except ValidationError Unit
  | [] => .ok ()
  | newSched :: newSchedules =>
    if oldSched.name = newSched.name then
      if oldSched.backupStorageName ≠ newSched.backupStorageName then .error .errStorageChangePG
      else checkStorageKept oldSched newSchedules
    else checkStorageKept oldSched newSchedules

def checkStoragesKept (newSchedules : List BackupSchedule) :
    List BackupSchedule → Except ValidationError Unit
  | [] => .ok ()
  | oldSched :: oldSchedules => do
    checkStorageKept oldSched newSchedules
    checkStoragesKept newSchedules oldSchedules

def checkSchedulesChanges (oldDbc newDbc : DatabaseCluster) : Except ValidationError Unit :=
  if newDbc.spec.schedules.length = 0 then .ok ()
  else do
    checkStoragesKept newDbc.spec.schedules oldDbc.spec.schedules
    checkStorageDuplicates newDbc

/-- `none` for a cluster that is not found. -/
def validatePGSchedulesRestrictions (existingDbc : Option DatabaseCluster)
    (newDbc : DatabaseCluster) : Except ValidationError Unit :=
  match existingDbc with
  | none => checkStorageDuplicates newDbc
  | some existingDbc => checkSchedulesChanges existingDbc newDbc

/-- The second loop adds a backup's storage only where it is not used. -/
def addBackupStorages (bs : Finset GoString) : List DatabaseClusterBackup → Finset GoString
  | [] => bs
  | backup :: backups =>
    if backup.backupStorageName ∉ bs then
      addBackupStorages (insert backup.backupStorageName bs) backups
    else addBackupStorages bs backups

def validatePGReposForAPIDB (dbc : DatabaseCluster)
    (backups : Except Unit (List DatabaseClusterBackup)) : Except ValidationError Unit :=
  let bs := collectKeys (·.backupStorageName) ∅ dbc.spec.schedules
  match backups with
  | .error _ => .error .listDatabaseClusterBackups
  | .ok backups =>
    if pgReposLimit < (addBackupStorages bs backups).card then .error .errTooManyPGStorages
    else .ok ()

/-- Both checks, in the order in which a PostgreSQL object goes through them. -/
def validatePG (existingDbc : Option DatabaseCluster)
    (backups : Except Unit (List DatabaseClusterBackup)) (dbc : DatabaseCluster) :
    Except ValidationError Unit := do
  validatePGSchedulesRestrictions existingDbc dbc
  validatePGReposForAPIDB dbc backups

theorem checkStorageDuplicates_eq (dbc : DatabaseCluster) :
    checkStorageDuplicates dbc = Validation.checkStorageDuplicates dbc := by
  rw [checkStorageDuplicates, Validation.checkStorageDuplicates, failWhen]
  split
  · rename_i hempty
    rw [List.length_eq_zero_iff.mp hempty]
    rfl
  · have hscan := failOnRepeat_eq_ok (fun s : BackupSchedule => s.backupStorageName)
      ValidationError.errDuplicatedStoragePG ∅ dbc.spec.schedules
    simp only [Finset.notMem_empty, not_false_eq_true, implies_true, and_true] at hscan
    split
    · rename_i hrepeats
      apply (failOnRepeat_ok_or_error _ _ _ _).resolve_left
      intro hok
      exact hrepeats (hscan.mp hok)
    · rename_i hnodup
      exact hscan.mpr (not_not.mp hnodup)

theorem checkStorageKept_eq (oldSched : BackupSchedule) (newSchedules : List BackupSchedule) :
    checkStorageKept oldSched newSchedules =
      failWhen (∃ newSched ∈ newSchedules, oldSched.name = newSched.name ∧
        oldSched.backupStorageName ≠ newSched.backupStorageName) .errStorageChangePG := by
  induction newSchedules with
  | nil => simp [checkStorageKept, failWhen]
  | cons newSched newSchedules ih =>
    by_cases hname : oldSched.name = newSched.name
    · by_cases hstorage : oldSched.backupStorageName = newSched.backupStorageName
      · simp [checkStorageKept, hname, hstorage, ih, failWhen]
      · simp [checkStorageKept, hname, hstorage, failWhen]
    · simp [checkStorageKept, hname, ih, failWhen]

theorem checkStoragesKept_eq (newSchedules oldSchedules : List BackupSchedule) :
    checkStoragesKept newSchedules oldSchedules =
      failWhen (∃ oldSched ∈ oldSchedules, ∃ newSched ∈ newSchedules,
        oldSched.name = newSched.name ∧
          oldSched.backupStorageName ≠ newSched.backupStorageName) .errStorageChangePG := by
  induction oldSchedules with
  | nil => simp [checkStoragesKept, failWhen]
  | cons oldSched oldSchedules ih =>
    rw [checkStoragesKept, checkStorageKept_eq, ih]
    by_cases hchanged : ∃ newSched ∈ newSchedules, oldSched.name = newSched.name ∧
        oldSched.backupStorageName ≠ newSched.backupStorageName
    · simp only [failWhen, List.exists_mem_cons_iff, hchanged, true_or, if_true]
      rfl
    · simp only [failWhen, List.exists_mem_cons_iff, hchanged, false_or, if_false]
      rfl

theorem checkSchedulesChanges_eq (oldDbc newDbc : DatabaseCluster) :
    checkSchedulesChanges oldDbc newDbc = Validation.checkSchedulesChanges oldDbc newDbc := by
  rw [checkSchedulesChanges, Validation.checkSchedulesChanges, checkStoragesKept_eq,
    checkStorageDuplicates_eq]

theorem validatePGSchedulesRestrictions_eq (existingDbc : Option DatabaseCluster)
    (newDbc : DatabaseCluster) : validatePGSchedulesRestrictions existingDbc newDbc =
      Validation.validatePGSchedulesRestrictions existingDbc newDbc := by
  cases existingDbc with
  | none => exact checkStorageDuplicates_eq newDbc
  | some existingDbc => exact checkSchedulesChanges_eq existingDbc newDbc

theorem addBackupStorages_eq (bs : Finset GoString) (backups : List DatabaseClusterBackup) :
    addBackupStorages bs backups = collectKeys (·.backupStorageName) bs backups := by
  induction backups generalizing bs with
  | nil => rfl
  | cons backup backups ih =>
    rw [addBackupStorages, collectKeys]
    split
    · exact ih _
    · rename_i hused
      rw [Finset.insert_eq_of_mem (not_not.mp hused)]
      exact ih bs

theorem addBackupStorages_card (dbc : DatabaseCluster) (backups : List DatabaseClusterBackup) :
    (addBackupStorages (collectKeys (·.backupStorageName) ∅ dbc.spec.schedules) backups).card =
      (pgRepos dbc backups).length := by
  rw [addBackupStorages_eq, collectKeys_eq, collectKeys_eq, Finset.empty_union,
    ← List.toFinset_append, List.card_toFinset]
  rfl

theorem validatePGReposForAPIDB_eq (dbc : DatabaseCluster)
    (backups : Except Unit (List DatabaseClusterBackup)) :
    validatePGReposForAPIDB dbc backups = Validation.validatePGReposForAPIDB dbc backups := by
  cases backups with
  | error e => rfl
  | ok backups =>
    simp only [validatePGReposForAPIDB, addBackupStorages_card]
    rfl

theorem validatePG_eq (existingDbc : Option DatabaseCluster)
    (backups : Except Unit (List DatabaseClusterBackup)) {dbc : DatabaseCluster}
    (hpg : dbc.spec.engine.type = databaseEnginePostgresql) :
    validatePG existingDbc backups dbc = validateRepos (.ok existingDbc) backups dbc := by
  simp only [validateRepos, if_pos hpg]
  rw [validatePG, validatePGSchedulesRestrictions_eq, validatePGReposForAPIDB_eq]

theorem validatePGSchedulesRestrictions_eq_ok (existingDbc : Option DatabaseCluster)
    (newDbc : DatabaseCluster) : validatePGSchedulesRestrictions existingDbc newDbc = .ok () ↔
      (newDbc.spec.schedules.map (·.backupStorageName)).Nodup ∧
        ∀ stored ∈ existingDbc, ∀ oldSched ∈ stored.spec.schedules,
          ∀ newSched ∈ newDbc.spec.schedules, newSched.name = oldSched.name →
            newSched.backupStorageName = oldSched.backupStorageName := by
  rw [validatePGSchedulesRestrictions_eq]
  cases existingDbc with
  | none =>
    simp [Validation.validatePGSchedulesRestrictions, Validation.checkStorageDuplicates,
      failWhen_eq_ok]
  | some stored =>
    simp only [Validation.validatePGSchedulesRestrictions, Validation.checkSchedulesChanges]
    by_cases hempty : newDbc.spec.schedules.length = 0
    · rw [if_pos hempty, List.length_eq_zero_iff.mp hempty]
      simp
    · rw [if_neg hempty, check_bind_eq_ok, failWhen_eq_ok, Validation.checkStorageDuplicates,
        failWhen_eq_ok, not_not, and_comm]
      simp only [not_exists, not_and, not_not, Option.mem_some_iff, forall_eq',
        eq_comm]

theorem validatePG_eq_ok (existingDbc : Option DatabaseCluster)
    (backups : List DatabaseClusterBackup) (dbc : DatabaseCluster) :
    validatePG existingDbc (.ok backups) dbc = .ok () ↔
      dbc.spec.schedules.Pairwise (fun s t => s.backupStorageName ≠ t.backupStorageName) ∧
        (∀ stored ∈ existingDbc, ∀ oldSched ∈ stored.spec.schedules,
          ∀ newSched ∈ dbc.spec.schedules, newSched.name = oldSched.name →
            newSched.backupStorageName = oldSched.backupStorageName) ∧
        ((dbc.spec.schedules.map (·.backupStorageName)).toFinset ∪
          (backups.map (·.backupStorageName)).toFinset).card ≤ 3 := by
  rw [validatePG, check_bind_eq_ok, validatePGSchedulesRestrictions_eq_ok, List.Nodup,
    List.pairwise_map, and_assoc]
  apply and_congr_right
  intro _
  apply and_congr_right
  intro _
  simp only [validatePGReposForAPIDB, addBackupStorages_eq, collectKeys_eq, Finset.empty_union]
  rw [← not_lt]
  split <;> simp_all [pgReposLimit]

end OpenEverest.Validation.PgLoops
