import OpenEverest.Validation.UpdateRuns

/-!
# Repositories of a PostgreSQL cluster

The limit on repositories is checked when a cluster is created or updated, over
its schedules and the backups that carry its label. A request for a backup adds
a storage without that check.
-/

namespace OpenEverest.Validation

open Framework Api

inductive BackupState where
  | new
  | starting
  | running
  | other
  deriving DecidableEq

/-- A backup with its label `clusterName`, which its creator or the operator sets. -/
structure StoredBackup where
  backup : DatabaseClusterBackup
  clusterLabel : Option GoString
  state : BackupState
  deleted : Bool

structure ClusterStore where
  cluster : GoString → GoString → Option DatabaseCluster
  backups : List StoredBackup

namespace ClusterStore

variable (s : ClusterStore)

def listDatabaseClusterBackups (namespaceName clusterName : GoString) : List StoredBackup :=
  s.backups.filter fun b =>
    b.backup.namespaceName = namespaceName ∧ b.clusterLabel = some clusterName

def ensureNoBackupsRunningForCluster (dbClusterName namespaceName : GoString) : Bool :=
  !(s.listDatabaseClusterBackups namespaceName dbClusterName).any fun b =>
    decide (b.state = .running ∨ b.state = .starting ∨ b.state = .new) && !b.deleted

def clusterBackups (namespaceName clusterName : GoString) : List DatabaseClusterBackup :=
  (s.backups.map (·.backup)).filter fun b =>
    b.namespaceName = namespaceName ∧ b.dbClusterName = clusterName

def hasBackup (namespaceName name : GoString) : Bool :=
  s.backups.any fun b => b.backup.namespaceName = namespaceName ∧ b.backup.name = name

def put (db : DatabaseCluster) : ClusterStore :=
  { s with
    cluster := Function.update s.cluster db.namespaceName
      (Function.update (s.cluster db.namespaceName) db.name (some db)) }

/-- Change the backup of this name, the object it was created from apart. -/
def mark (namespaceName name : GoString) (clusterLabel : StoredBackup → Option GoString)
    (state : StoredBackup → BackupState) (deleted : StoredBackup → Bool) : ClusterStore :=
  { s with
    backups := s.backups.map fun b =>
      if b.backup.namespaceName = namespaceName ∧ b.backup.name = name then
        ⟨b.backup, clusterLabel b, state b, deleted b⟩
      else b }

end ClusterStore

/-- The requests on clusters and backups, and what the operator does to them: it sets
a backup's label and state, and the objects being deleted are removed in the end. -/
inductive ClusterRequest where
  | createDatabaseCluster (h : ValidateHandler) (db : DatabaseCluster)
  | updateDatabaseCluster (h : ValidateHandler) (db : DatabaseCluster)
  | removeDatabaseCluster (namespaceName name : GoString)
  | createDatabaseClusterBackup (backup : DatabaseClusterBackup) (clusterLabel : Option GoString)
  | deleteDatabaseClusterBackup (namespaceName name : GoString)
  | reportBackup (namespaceName name : GoString) (clusterLabel : Option GoString)
      (state : BackupState)
  | removeBackup (namespaceName name : GoString)

namespace ClusterStore

/-- What `validatePGReposForAPIDB` lists. -/
def listedBackups (s : ClusterStore) (db : DatabaseCluster) : List DatabaseClusterBackup :=
  (s.listDatabaseClusterBackups db.namespaceName db.name).map (·.backup)

/-- The store after an accepted request, `none` when it is refused. No request writes a
status: a new cluster has none, and an update keeps the stored one. -/
def handle (s : ClusterStore) : ClusterRequest → Option ClusterStore
  | .createDatabaseCluster h db =>
    match validateDatabaseClusterCR h (.ok (s.cluster db.namespaceName db.name))
        (.ok (s.listedBackups db)) db, s.cluster db.namespaceName db.name with
    | .ok _, none => some (s.put { db with status := ⟨[], []⟩ })
    | _, _ => none
  | .updateDatabaseCluster h db =>
    match validateDatabaseClusterCR h (.ok (s.cluster db.namespaceName db.name))
        (.ok (s.listedBackups db)) db, s.cluster db.namespaceName db.name with
    | .ok _, some current =>
      match validateDatabaseClusterOnUpdate h db current with
      | .error _ => none
      | .ok _ =>
        -- the resource definition lets no update change the engine type
        if db.spec.engine.type ≠ current.spec.engine.type then none
        else some (s.put { db with status := current.status })
    | _, _ => none
  | .removeDatabaseCluster namespaceName name =>
    some { s with
      cluster := Function.update s.cluster namespaceName
        (Function.update (s.cluster namespaceName) name none) }
  | .createDatabaseClusterBackup backup clusterLabel =>
    if s.ensureNoBackupsRunningForCluster backup.dbClusterName backup.namespaceName = false then
      none
    else if s.hasBackup backup.namespaceName backup.name then none
    else some { s with backups := ⟨backup, clusterLabel, .new, false⟩ :: s.backups }
  | .deleteDatabaseClusterBackup namespaceName name =>
    if s.hasBackup namespaceName name then
      some (s.mark namespaceName name (·.clusterLabel) (·.state) fun _ => true)
    else none
  | .reportBackup namespaceName name clusterLabel state =>
    some (s.mark namespaceName name (fun _ => clusterLabel) (fun _ => state) (·.deleted))
  | .removeBackup namespaceName name =>
    some { s with
      backups := s.backups.filter fun b =>
        !(b.deleted && decide (b.backup.namespaceName = namespaceName ∧ b.backup.name = name)) }

/-- The storages of a cluster's schedules and of its existing backups. -/
def repos (s : ClusterStore) (namespaceName name : GoString) (db : DatabaseCluster) :
    List GoString :=
  pgRepos db (s.clusterBackups namespaceName name)

def WithinLimit (s : ClusterStore) : Prop :=
  ∀ namespaceName name db, s.cluster namespaceName name = some db →
    db.spec.engine.type = databaseEnginePostgresql →
      (s.repos namespaceName name db).length ≤ pgReposLimit

/-- The repositories of the schedules and of the backups that carry the label. -/
def labelledRepos (s : ClusterStore) (db : DatabaseCluster) : List GoString :=
  pgRepos db ((s.listedBackups db).filter fun b => b.dbClusterName = db.name)

/-- The further storages of the cluster's backups that the label does not find. -/
def missedStorages (s : ClusterStore) (db : DatabaseCluster) : List GoString :=
  ((s.clusterBackups db.namespaceName db.name).map (·.backupStorageName)).dedup.filter
    (· ∉ s.labelledRepos db)

/-- The request leaves no storage uncounted beyond the room that is left. -/
def Counted (s : ClusterStore) : ClusterRequest → Prop
  | .createDatabaseCluster _ db | .updateDatabaseCluster _ db =>
    db.spec.engine.type = databaseEnginePostgresql →
      (s.missedStorages db).length ≤ pgReposLimit - (s.labelledRepos db).length
  | .createDatabaseClusterBackup backup _ =>
    ∀ db, s.cluster backup.namespaceName backup.dbClusterName = some db →
      db.spec.engine.type = databaseEnginePostgresql →
        let used := s.repos backup.namespaceName backup.dbClusterName db
        backup.backupStorageName ∈ used ∨ used.length < pgReposLimit
  | _ => True

instance (s : ClusterStore) : ∀ r, Decidable (Counted s r)
  | .createDatabaseCluster _ _ | .updateDatabaseCluster _ _ => inferInstanceAs (Decidable (_ → _))
  | .createDatabaseClusterBackup backup _ =>
    match h : s.cluster backup.namespaceName backup.dbClusterName with
    | none => .isTrue fun _ hdb => nomatch h.symm.trans hdb
    | some db =>
      let used := s.repos backup.namespaceName backup.dbClusterName db
      decidable_of_iff (db.spec.engine.type = databaseEnginePostgresql →
          backup.backupStorageName ∈ used ∨ used.length < pgReposLimit)
        ⟨fun hroom _ hdb => Option.some.inj (h.symm.trans hdb) ▸ hroom, fun hall => hall db h⟩
  | .removeDatabaseCluster _ _ | .deleteDatabaseClusterBackup _ _ | .reportBackup _ _ _ _
  | .removeBackup _ _ => .isTrue trivial

end ClusterStore

theorem mem_pgRepos (db : DatabaseCluster) (backups : List DatabaseClusterBackup) (x : GoString) :
    x ∈ pgRepos db backups ↔ x ∈ db.spec.schedules.map (·.backupStorageName) ∨
      x ∈ backups.map (·.backupStorageName) := by
  simp only [pgRepos, List.mem_dedup, List.mem_append]

theorem pgRepos_nodup (db : DatabaseCluster) (backups : List DatabaseClusterBackup) :
    (pgRepos db backups).Nodup := List.nodup_dedup _

theorem pgRepos_length_le_of_subset (db : DatabaseCluster) {some all : List DatabaseClusterBackup}
    (h : some ⊆ all) : (pgRepos db some).length ≤ (pgRepos db all).length := by
  apply ((pgRepos_nodup db some).subperm ?_).length_le
  intro x hx
  rw [mem_pgRepos] at hx ⊢
  exact hx.imp id fun hx => List.map_subset _ h hx

theorem pgRepos_length_cons (db : DatabaseCluster) (b : DatabaseClusterBackup)
    (backups : List DatabaseClusterBackup) :
    (pgRepos db (b :: backups)).length = (pgRepos db backups).length +
      if b.backupStorageName ∈ pgRepos db backups then 0 else 1 := by
  have hmem : ∀ x, x ∈ pgRepos db (b :: backups) ↔
      x = b.backupStorageName ∨ x ∈ pgRepos db backups := by
    intro x
    simp only [mem_pgRepos, List.map_cons, List.mem_cons]
    tauto
  by_cases hused : b.backupStorageName ∈ pgRepos db backups
  · rw [if_pos hused]
    apply List.Perm.length_eq
    rw [List.perm_ext_iff_of_nodup (pgRepos_nodup ..) (pgRepos_nodup ..)]
    intro x
    rw [hmem x]
    exact ⟨fun h => h.elim (fun h => h ▸ hused) id, .inr⟩
  · rw [if_neg hused]
    have hnodup : (b.backupStorageName :: pgRepos db backups).Nodup :=
      List.nodup_cons.mpr ⟨hused, pgRepos_nodup ..⟩
    have hperm : (pgRepos db (b :: backups)).Perm (b.backupStorageName :: pgRepos db backups) := by
      rw [List.perm_ext_iff_of_nodup (pgRepos_nodup ..) hnodup]
      intro x
      rw [hmem x, List.mem_cons]
    exact hperm.length_eq

theorem validateDatabaseClusterCR_pgRepos {h : ValidateHandler} {db : DatabaseCluster}
    {existing : Option DatabaseCluster} {backups : List DatabaseClusterBackup}
    (hcr : validateDatabaseClusterCR h (.ok existing) (.ok backups) db = .ok ())
    (hpg : db.spec.engine.type = databaseEnginePostgresql) :
    (pgRepos db backups).length ≤ pgReposLimit := by
  simp only [validateDatabaseClusterCR, check_bind_eq_ok, validateRepos, if_pos hpg,
    validatePGReposForAPIDB, failWhen_eq_ok] at hcr
  have hrepos := hcr.2.1.2
  exact not_lt.mp hrepos

namespace ClusterStore

variable {s t : ClusterStore}

@[simp] theorem put_self (db : DatabaseCluster) :
    (s.put db).cluster db.namespaceName db.name = some db := by
  simp [put]

theorem put_other (db : DatabaseCluster) {namespaceName name : GoString}
    (h : ¬ (namespaceName = db.namespaceName ∧ name = db.name)) :
    (s.put db).cluster namespaceName name = s.cluster namespaceName name := by
  by_cases hns : namespaceName = db.namespaceName
  · subst hns
    have hname : name ≠ db.name := fun hname => h ⟨rfl, hname⟩
    simp [put, hname]
  · simp [put, hns]

@[simp] theorem put_repos (db : DatabaseCluster) (namespaceName name : GoString)
    (of : DatabaseCluster) :
    (s.put db).repos namespaceName name of = s.repos namespaceName name of := rfl

@[simp] theorem mark_cluster (namespaceName name : GoString)
    (clusterLabel : StoredBackup → Option GoString) (state : StoredBackup → BackupState)
    (deleted : StoredBackup → Bool) :
    (s.mark namespaceName name clusterLabel state deleted).cluster = s.cluster := rfl

@[simp] theorem mark_repos (namespaceName name : GoString)
    (clusterLabel : StoredBackup → Option GoString) (state : StoredBackup → BackupState)
    (deleted : StoredBackup → Bool) :
    (s.mark namespaceName name clusterLabel state deleted).repos = s.repos := by
  have hbackup : ((s.mark namespaceName name clusterLabel state deleted).backups.map (·.backup)) =
      s.backups.map (·.backup) := by
    simp only [mark, List.map_map]
    apply List.map_congr_left
    intro b _
    simp only [Function.comp_apply]
    split <;> rfl
  funext ns n db
  simp only [repos, clusterBackups, hbackup]

theorem createDatabaseCluster_accepted {v : ValidateHandler} {db : DatabaseCluster}
    (h : s.handle (.createDatabaseCluster v db) = some t) :
    validateDatabaseClusterCR v (.ok (s.cluster db.namespaceName db.name))
        (.ok (s.listedBackups db)) db = .ok () ∧
      t = s.put { db with status := ⟨[], []⟩ } := by
  simp only [handle] at h
  split at h
  · rename_i hcr _
    exact ⟨hcr, (Option.some.inj h).symm⟩
  · cases h

theorem updateDatabaseCluster_accepted {v : ValidateHandler} {db : DatabaseCluster}
    (h : s.handle (.updateDatabaseCluster v db) = some t) :
    ∃ current, s.cluster db.namespaceName db.name = some current ∧
      validateDatabaseClusterCR v (.ok (s.cluster db.namespaceName db.name))
        (.ok (s.listedBackups db)) db = .ok () ∧
      db.spec.engine.type = current.spec.engine.type ∧
      t = s.put { db with status := current.status } := by
  simp only [handle] at h
  split at h
  · rename_i current hcr hcurrent
    split at h
    · cases h
    · split at h
      · cases h
      · rename_i htype
        exact ⟨current, hcurrent, hcr, not_not.mp htype, (Option.some.inj h).symm⟩
  · cases h

theorem createDatabaseClusterBackup_accepted {backup : DatabaseClusterBackup}
    {clusterLabel : Option GoString}
    (h : s.handle (.createDatabaseClusterBackup backup clusterLabel) = some t) :
    t = { s with backups := ⟨backup, clusterLabel, .new, false⟩ :: s.backups } := by
  simp only [handle] at h
  split at h
  · cases h
  · split at h
    · cases h
    · exact (Option.some.inj h).symm

theorem deleteDatabaseClusterBackup_accepted {namespaceName name : GoString}
    (h : s.handle (.deleteDatabaseClusterBackup namespaceName name) = some t) :
    t = s.mark namespaceName name (·.clusterLabel) (·.state) fun _ => true := by
  simp only [handle] at h
  split at h
  · exact (Option.some.inj h).symm
  · cases h

theorem repos_length (s : ClusterStore) (db : DatabaseCluster) :
    (s.repos db.namespaceName db.name db).length =
      (s.labelledRepos db).length + (s.missedStorages db).length := by
  have hlabelled : ((s.listedBackups db).filter fun b => b.dbClusterName = db.name) ⊆
      s.clusterBackups db.namespaceName db.name := by
    intro b hb
    obtain ⟨hb, hname⟩ := List.mem_filter.mp hb
    obtain ⟨stored, hstored, rfl⟩ := List.mem_map.mp hb
    have hlisted := List.mem_filter.mp hstored
    have hns := (of_decide_eq_true hlisted.2).1
    exact List.mem_filter.mpr ⟨List.mem_map_of_mem hlisted.1,
      decide_eq_true ⟨hns, of_decide_eq_true hname⟩⟩
  have hnodup : (s.labelledRepos db ++ s.missedStorages db).Nodup := by
    apply List.Nodup.append (pgRepos_nodup ..) ((List.nodup_dedup _).filter _)
    intro x hx hmissed
    exact of_decide_eq_true (List.mem_filter.mp hmissed).2 hx
  have hperm : (s.repos db.namespaceName db.name db).Perm
      (s.labelledRepos db ++ s.missedStorages db) := by
    apply (List.perm_ext_iff_of_nodup (pgRepos_nodup ..) hnodup).mpr
    intro x
    simp only [List.mem_append, missedStorages, List.mem_filter, List.mem_dedup, decide_eq_true_eq]
    have hsub : x ∈ s.labelledRepos db → x ∈ s.repos db.namespaceName db.name db := by
      intro hx
      rw [labelledRepos, mem_pgRepos] at hx
      rw [repos, mem_pgRepos]
      exact hx.imp id fun hx => List.map_subset _ hlabelled hx
    have hschedules : x ∈ db.spec.schedules.map (·.backupStorageName) → x ∈ s.labelledRepos db :=
      fun hx => (mem_pgRepos ..).mpr (.inl hx)
    have hrepos : x ∈ s.repos db.namespaceName db.name db ↔
        x ∈ db.spec.schedules.map (·.backupStorageName) ∨
          x ∈ (s.clusterBackups db.namespaceName db.name).map (·.backupStorageName) :=
      mem_pgRepos ..
    rw [hrepos] at hsub
    rw [mem_pgRepos]
    tauto
  rw [hperm.length_eq, List.length_append]

theorem withinLimit_put_iff (hs : WithinLimit s) (db : DatabaseCluster) :
    WithinLimit (s.put db) ↔ (db.spec.engine.type = databaseEnginePostgresql →
      (s.repos db.namespaceName db.name db).length ≤ pgReposLimit) := by
  constructor
  · intro h hpg
    exact h db.namespaceName db.name db (put_self db) hpg
  · intro h namespaceName name of hof hpg
    by_cases hkey : namespaceName = db.namespaceName ∧ name = db.name
    · obtain ⟨rfl, rfl⟩ := hkey
      obtain rfl : db = of := Option.some.inj ((put_self db).symm.trans hof)
      exact h hpg
    · rw [put_other db hkey] at hof
      exact hs namespaceName name of hof hpg

theorem withinLimit_put_iff_counted (hs : WithinLimit s) {h : ValidateHandler}
    {db : DatabaseCluster} {existing : Option DatabaseCluster}
    (hcr : validateDatabaseClusterCR h (.ok existing) (.ok (s.listedBackups db)) db = .ok ()) :
    WithinLimit (s.put db) ↔ (db.spec.engine.type = databaseEnginePostgresql →
      (s.missedStorages db).length ≤ pgReposLimit - (s.labelledRepos db).length) := by
  rw [withinLimit_put_iff hs]
  refine imp_congr_right fun hpg => ?_
  have hlisted := validateDatabaseClusterCR_pgRepos hcr hpg
  have hlabelled : (s.labelledRepos db).length ≤ (pgRepos db (s.listedBackups db)).length :=
    pgRepos_length_le_of_subset db (List.filter_subset_self _)
  rw [repos_length]
  omega

theorem create_repos_length (s : ClusterStore) (b : StoredBackup) (ns name : GoString)
    (db : DatabaseCluster) :
    (({ s with backups := b :: s.backups } : ClusterStore).repos ns name db).length =
      (s.repos ns name db).length +
        if (b.backup.namespaceName = ns ∧ b.backup.dbClusterName = name) ∧
          b.backup.backupStorageName ∉ s.repos ns name db then 1 else 0 := by
  by_cases hkey : b.backup.namespaceName = ns ∧ b.backup.dbClusterName = name
  · have hown : ({ s with backups := b :: s.backups } : ClusterStore).clusterBackups ns name =
        b.backup :: s.clusterBackups ns name := by
      simp only [clusterBackups, List.map_cons, List.filter_cons, decide_eq_true_eq, if_pos hkey]
    have hlength := pgRepos_length_cons db b.backup (s.clusterBackups ns name)
    rw [← hown] at hlength
    change (ClusterStore.repos _ ns name db).length = (s.repos ns name db).length +
      if b.backup.backupStorageName ∈ s.repos ns name db then 0 else 1 at hlength
    rw [hlength]
    by_cases hused : b.backup.backupStorageName ∈ s.repos ns name db
    · rw [if_pos hused, if_neg fun h => h.2 hused]
    · rw [if_neg hused, if_pos ⟨hkey, hused⟩]
  · have hown : ({ s with backups := b :: s.backups } : ClusterStore).clusterBackups ns name =
        s.clusterBackups ns name := by
      simp only [clusterBackups, List.map_cons, List.filter_cons, decide_eq_true_eq, if_neg hkey]
    have hrepos : ({ s with backups := b :: s.backups } : ClusterStore).repos ns name db =
        s.repos ns name db := congrArg (pgRepos db) hown
    rw [hrepos, if_neg fun h => hkey h.1, Nat.add_zero]

theorem withinLimit_create_iff (hs : WithinLimit s) (b : StoredBackup) :
    WithinLimit { s with backups := b :: s.backups } ↔
      s.Counted (.createDatabaseClusterBackup b.backup b.clusterLabel) := by
  constructor
  · intro h db hdb hpg used
    have hle := h _ _ db hdb hpg
    rw [create_repos_length] at hle
    by_cases hused : b.backup.backupStorageName ∈ used
    · exact .inl hused
    · rw [if_pos ⟨⟨rfl, rfl⟩, hused⟩] at hle
      exact .inr (Nat.lt_of_succ_le hle)
  · intro h ns name db hdb hpg
    have hle := hs ns name db hdb hpg
    rw [create_repos_length]
    split
    · rename_i hnew
      obtain ⟨⟨rfl, rfl⟩, hunused⟩ := hnew
      have hroom := (h db hdb hpg).resolve_left hunused
      exact hroom
    · exact hle

theorem withinLimit_remove (hs : WithinLimit s) (namespaceName name : GoString) :
    WithinLimit { s with
      cluster := Function.update s.cluster namespaceName
        (Function.update (s.cluster namespaceName) name none) } := by
  intro ns n db hdb hpg
  refine hs ns n db ?_ hpg
  by_cases hns : ns = namespaceName
  · subst hns
    by_cases hn : n = name
    · subst hn
      simp at hdb
    · simpa [hn] using hdb
  · simpa [hns] using hdb

theorem withinLimit_filter (hs : WithinLimit s) (keep : StoredBackup → Bool) :
    WithinLimit { s with backups := s.backups.filter keep } := by
  intro ns n db hdb hpg
  have hsub : ({ s with backups := s.backups.filter keep } : ClusterStore).clusterBackups ns n ⊆
      s.clusterBackups ns n := by
    have hmap : (s.backups.filter keep).map (·.backup) ⊆ s.backups.map (·.backup) :=
      List.map_subset _ (List.filter_subset_self _)
    exact List.filter_subset _ hmap
  have hle := pgRepos_length_le_of_subset db hsub
  have hlimit := hs ns n db hdb hpg
  exact hle.trans hlimit

/-- An accepted request keeps the limit exactly when it leaves no storage uncounted. -/
theorem handle_withinLimit_iff (hs : WithinLimit s) {r : ClusterRequest}
    (h : s.handle r = some t) : WithinLimit t ↔ s.Counted r := by
  cases r with
  | createDatabaseCluster v db =>
    obtain ⟨hcr, rfl⟩ := createDatabaseCluster_accepted h
    have hput := withinLimit_put_iff hs { db with status := ⟨[], []⟩ }
    exact hput.trans ((withinLimit_put_iff hs db).symm.trans
      (withinLimit_put_iff_counted hs hcr))
  | updateDatabaseCluster v db =>
    obtain ⟨current, _, hcr, _, rfl⟩ := updateDatabaseCluster_accepted h
    have hput := withinLimit_put_iff hs { db with status := current.status }
    exact hput.trans ((withinLimit_put_iff hs db).symm.trans
      (withinLimit_put_iff_counted hs hcr))
  | removeDatabaseCluster namespaceName name =>
    obtain rfl := Option.some.inj h
    exact iff_of_true (withinLimit_remove hs namespaceName name) trivial
  | createDatabaseClusterBackup backup clusterLabel =>
    obtain rfl := createDatabaseClusterBackup_accepted h
    exact withinLimit_create_iff hs ⟨backup, clusterLabel, .new, false⟩
  | deleteDatabaseClusterBackup namespaceName name =>
    obtain rfl := deleteDatabaseClusterBackup_accepted h
    refine iff_of_true ?_ trivial
    simpa only [WithinLimit, mark_cluster, mark_repos] using hs
  | reportBackup namespaceName name clusterLabel state =>
    obtain rfl := Option.some.inj h
    refine iff_of_true ?_ trivial
    simpa only [WithinLimit, mark_cluster, mark_repos] using hs
  | removeBackup namespaceName name =>
    obtain rfl := Option.some.inj h
    exact iff_of_true (withinLimit_filter hs _) trivial

/-- Along a run of accepted requests every state keeps the limit exactly when no
request leaves a storage uncounted. -/
theorem repos_within_limit_iff (s t : ClusterStore) (rs : List ClusterRequest)
    (hs : WithinLimit s) (hrun : run handle s rs = some t) :
    Always handle WithinLimit s rs ↔ AlongRun handle Counted s rs := by
  apply always_iff_alongRun_within (G := fun s r => ∃ t, s.handle r = some t) WithinLimit
  · intro s r t hs _ hcounted h
    exact (handle_withinLimit_iff hs h).mpr hcounted
  · exact fun s hs => hs
  · intro s r hs haccepted hnot
    obtain ⟨t, h⟩ := haccepted
    exact ⟨t, h, fun ht => hnot ((handle_withinLimit_iff hs h).mp ht)⟩
  · exact hs
  · exact AlongRun.of_run hrun

def empty : ClusterStore := ⟨fun _ _ => none, []⟩

theorem empty_withinLimit : WithinLimit empty := by
  intro ns name db hdb
  cases hdb

def pgHandler : ValidateHandler :=
  { sampleHandler with getDatabaseEngine := fun _ _ => .ok ⟨[], [ascii "16.3"]⟩ }

def pgCluster : DatabaseCluster :=
  { sampleCluster with
    spec := { sampleCluster.spec with
      engine := ⟨databaseEnginePostgresql, ascii "16.3", 3, 10000000000, sampleResources⟩
      proxy := ⟨ascii "pgbouncer", none, [], sampleResources⟩ } }

def backupOn (storage : GoString) : DatabaseClusterBackup :=
  ⟨pgCluster.namespaceName, ascii "backup-" ++ storage, pgCluster.name, storage⟩

def takeBackup (storage : GoString) : List ClusterRequest :=
  [.createDatabaseClusterBackup (backupOn storage) none,
    .reportBackup pgCluster.namespaceName (backupOn storage).name (some pgCluster.name) .other]

def backupRun (storages : List GoString) : List ClusterRequest :=
  .createDatabaseCluster pgHandler pgCluster :: storages.flatMap takeBackup

def fullRun : List ClusterRequest :=
  backupRun [ascii "s1", ascii "s2", ascii "s3"] ++
    [.createDatabaseClusterBackup { backupOn (ascii "s1") with name := ascii "backup-again" } none]

theorem repos_within_limit_iff_sample :
    ∃ t, run handle empty fullRun = some t ∧
      (t.repos pgCluster.namespaceName pgCluster.name pgCluster).length = pgReposLimit ∧
      t.backups.length = 4 ∧ Always handle WithinLimit empty fullRun := by
  have hrun : (run handle empty fullRun).any (fun t =>
      decide ((t.repos pgCluster.namespaceName pgCluster.name pgCluster).length = pgReposLimit ∧
        t.backups.length = 4)) = true := by
    decide +kernel
  obtain ⟨t, ht, hfull⟩ := (Option.any_eq_true ..).mp hrun
  obtain ⟨hlength, hbackups⟩ := of_decide_eq_true hfull
  have hiff := repos_within_limit_iff empty t fullRun empty_withinLimit ht
  exact ⟨t, ht, hlength, hbackups, hiff.mpr (by decide +kernel)⟩

/-- Four backups on demand take a cluster without schedules over the limit. -/
theorem repos_beyond_limit : ¬ ∀ (rs : List ClusterRequest) (t : ClusterStore),
    run handle empty rs = some t → WithinLimit t := by
  intro h
  let rs := backupRun [ascii "s1", ascii "s2", ascii "s3", ascii "s4"]
  have hrun : (run handle empty rs).any (fun t =>
      decide (t.cluster pgCluster.namespaceName pgCluster.name =
          some { pgCluster with status := ⟨[], []⟩ } ∧
        pgReposLimit < (t.repos pgCluster.namespaceName pgCluster.name pgCluster).length)) = true := by
    decide +kernel
  obtain ⟨t, ht, hbeyond⟩ := (Option.any_eq_true ..).mp hrun
  obtain ⟨hcluster, hlength⟩ := of_decide_eq_true hbeyond
  have hle := h rs t ht _ _ _ hcluster rfl
  exact absurd hlength (not_lt.mpr hle)

end ClusterStore

end OpenEverest.Validation
