import OpenEverest.Rbac.DatabaseCluster

/-!
# Changed schedules need the permission to create backups

An update sorts the stored and the new schedules by name and compares them one by one. The
sort may put schedules of one name in any order; no routine makes different lists equal.
-/

namespace OpenEverest.Rbac

open Framework GoString Api

theorem backupSchedulesEqual_iff (oldSched updatedSched : List BackupSchedule) :
    backupSchedulesEqual oldSched updatedSched = true ↔ oldSched = updatedSched := by
  induction oldSched generalizing updatedSched with
  | nil => cases updatedSched <;> simp [backupSchedulesEqual]
  | cons o oldSched ih =>
    cases updatedSched with
    | nil => simp [backupSchedulesEqual]
    | cons u updatedSched =>
      have htail := ih updatedSched
      have hhead : o = u ↔ o.name = u.name ∧ o.enabled = u.enabled ∧
          o.backupStorageName = u.backupStorageName ∧ o.schedule = u.schedule ∧
          o.retentionCopies = u.retentionCopies := by
        cases o
        cases u
        simp
      rw [List.cons.injEq, ← htail, hhead]
      by_cases hlength : oldSched.length = updatedSched.length
      · simp [backupSchedulesEqual, hlength, and_assoc]
      · simp [backupSchedulesEqual, hlength]

section Update

variable (next : ClusterReader) (slices : SortFunc BackupSchedule sortFn) (db : DatabaseCluster)

/-- The object whose backups an update of the cluster may need to create. -/
def backupsObject : GoString := objectName [db.namespaceName, db.name]

/-- Whoever gets the update through may create backups of the cluster. -/
def DemandsBackupCreate : Prop :=
  ∀ (h : RbacHandler) (forwarded : DatabaseCluster),
    h.updateDatabaseCluster next slices db = .ok forwarded →
      h.enforce resourceDatabaseClusterBackups actionCreate (backupsObject db) = .ok ()

/-- The checks of an update other than the one for changed schedules. -/
structure UpdateOtherwiseGranted (h : RbacHandler) : Prop where
  update : h.enforce resourceDatabaseClusters actionUpdate
    (objectName [db.namespaceName, db.name]) = .ok ()
  engine : EngineReadable h db
  schedules : SchedulesReadable h db
  features : FeaturesReadable h db

variable {next slices db} {oldDB : DatabaseCluster}

/-- The checks that an update goes through, by whether its sorted schedules are the stored ones. -/
theorem update_eq_ok_iff (h : RbacHandler)
    (hstored : next.getDatabaseCluster db.namespaceName db.name = .ok oldDB) :
    (∃ forwarded, h.updateDatabaseCluster next slices db = .ok forwarded) ↔
      UpdateOtherwiseGranted db h ∧
        (slices.sort oldDB.spec.backup.schedules ≠ slices.sort db.spec.backup.schedules →
          h.enforce resourceDatabaseClusterBackups actionCreate (backupsObject db) = .ok ()) := by
  have hequal := backupSchedulesEqual_iff (slices.sort oldDB.spec.backup.schedules)
    (slices.sort db.spec.backup.schedules)
  rw [← not_iff_not, Bool.not_eq_true] at hequal
  constructor
  · intro hforward
    obtain ⟨forwarded, hforward⟩ := hforward
    have hgranted := ((updateDatabaseCluster_eq_ok forwarded).mp hforward).1
    obtain ⟨oldDB', hg⟩ := hgranted
    obtain rfl := Except.ok.inj (hstored.symm.trans hg.stored)
    exact ⟨⟨hg.update, hg.engine, hg.schedules, hg.features⟩,
      fun hne => hg.backups (hequal.mpr hne)⟩
  · intro hchecks
    have hg := hchecks.1
    refine ⟨_, (updateDatabaseCluster_eq_ok _).mpr ⟨⟨oldDB, ?_⟩, rfl⟩⟩
    exact ⟨hg.update, hg.engine, hstored, fun hne => hchecks.2 (hequal.mp hne), hg.schedules,
      hg.features⟩

def allButBackups : RbacHandler :=
  policyHandler (fun _ resource action _ =>
    !(decide (resource = resourceDatabaseClusterBackups) && decide (action = actionCreate)))
    ⟨[], []⟩

theorem allButBackups_enforce (resource action object : GoString) :
    allButBackups.enforce resource action object = .ok () ↔
      ¬ (resource = resourceDatabaseClusterBackups ∧ action = actionCreate) := by
  rw [allButBackups, enforce_policy_eq_ok, Policy.Allows]
  simp only [List.mem_singleton, exists_eq_left, Bool.not_eq_true', Bool.and_eq_false_iff,
    decide_eq_false_iff_not]
  exact not_and_or.symm

theorem allButBackups_otherwise : UpdateOtherwiseGranted db allButBackups := by
  have hread : actionRead ≠ actionCreate := by decide
  have hupdate : actionUpdate ≠ actionCreate := by decide
  refine ⟨?_, ?_, ?_, ?_⟩
  · exact (allButBackups_enforce ..).mpr fun h => hupdate h.2
  · exact (allButBackups_enforce ..).mpr fun h => hread h.2
  · intro sched _
    exact (allButBackups_enforce ..).mpr fun h => hread h.2
  · intro _ _
    exact (allButBackups_enforce ..).mpr fun h => hread h.2

/-- The permission is demanded exactly where the sorted lists differ. -/
theorem demandsBackupCreate_iff
    (hstored : next.getDatabaseCluster db.namespaceName db.name = .ok oldDB) :
    DemandsBackupCreate next slices db ↔
      slices.sort oldDB.spec.backup.schedules ≠ slices.sort db.spec.backup.schedules := by
  constructor
  · intro hdemands heq
    have hpass := (update_eq_ok_iff allButBackups hstored).mpr
      ⟨allButBackups_otherwise, fun hne => absurd heq hne⟩
    obtain ⟨forwarded, hforward⟩ := hpass
    have hgranted := hdemands allButBackups forwarded hforward
    exact (allButBackups_enforce ..).mp hgranted ⟨rfl, rfl⟩
  · intro hne h forwarded hforward
    exact ((update_eq_ok_iff h hstored).mp ⟨forwarded, hforward⟩).2 hne

/-- Schedules of distinct names sort the same however they are listed. -/
theorem sort_schedules_eq {l l' : List BackupSchedule} (hnames : (l.map (·.name)).Nodup)
    (h : l.Perm l') : slices.sort l = slices.sort l' := by
  apply slices.sort_eq_of_perm h
  intro a ha b hb hab hba
  have hname : a.name = b.name := List.le_antisymm hab hba
  exact List.inj_on_of_nodup_map hnames ha hb hname

end Update

/-- A change of the schedules needs the permission whatever the sort does with ties. With
distinct names the permission is needed for a change only, and a user who has none of it
may list the same schedules in another order. -/
theorem backupCreate_demanded (next : ClusterReader) (slices : SortFunc BackupSchedule sortFn)
    (oldDB db : DatabaseCluster)
    (hstored : next.getDatabaseCluster db.namespaceName db.name = .ok oldDB) :
    (¬ oldDB.spec.backup.schedules.Perm db.spec.backup.schedules →
      DemandsBackupCreate next slices db) ∧
    ((oldDB.spec.backup.schedules.map (·.name)).Nodup →
      (db.spec.backup.schedules.map (·.name)).Nodup →
        (DemandsBackupCreate next slices db ↔
          ¬ oldDB.spec.backup.schedules.Perm db.spec.backup.schedules) ∧
        (oldDB.spec.backup.schedules.Perm db.spec.backup.schedules →
          ∀ h : RbacHandler, (∃ forwarded, h.updateDatabaseCluster next slices db = .ok forwarded) ↔
            UpdateOtherwiseGranted db h)) := by
  have hdemands : DemandsBackupCreate next slices db ↔ _ := demandsBackupCreate_iff hstored
  have hchanged : ¬ oldDB.spec.backup.schedules.Perm db.spec.backup.schedules →
      DemandsBackupCreate next slices db := by
    intro hperm
    exact hdemands.mpr fun heq => hperm (slices.perm_of_sort_eq heq)
  refine ⟨hchanged, fun hnames _ => ⟨⟨?_, hchanged⟩, ?_⟩⟩
  · intro hdemanded hperm
    exact hdemands.mp hdemanded (sort_schedules_eq hnames hperm)
  · intro hperm h
    rw [update_eq_ok_iff h hstored]
    exact and_iff_left fun hne => absurd (sort_schedules_eq hnames hperm) hne

def weeklySchedule : BackupSchedule :=
  ⟨ascii "weekly", true, ascii "weekly", ascii "0 0 * * 0", 2⟩

def twoSchedules (last : Bool) : DatabaseCluster :=
  let schedules := sampleCluster.spec.backup.schedules
  sampleCluster.withSchedules (if last then schedules ++ [weeklySchedule] else
    weeklySchedule :: schedules)

theorem backupCreate_demanded_sample :
    DemandsBackupCreate sampleReader (.insertion sortFn) (twoSchedules true) ∧
    ¬ DemandsBackupCreate (.storing (twoSchedules true)) (.insertion sortFn)
      (twoSchedules false) := by
  constructor
  · exact (backupCreate_demanded sampleReader (.insertion sortFn) sampleCluster
      (twoSchedules true) rfl).1 (by decide +kernel)
  · have hswapped := (backupCreate_demanded (.storing (twoSchedules true)) (.insertion sortFn)
      (twoSchedules true) (twoSchedules false) rfl).2 (by decide +kernel) (by decide +kernel)
    exact fun hdemands => hswapped.1.mp hdemands (by decide +kernel)

end OpenEverest.Rbac
