import OpenEverest.Framework.Editor
import OpenEverest.Framework.GoString

/-!
# Deleting a database cluster

The backups of a cluster outlive it when its storage is not to be cleaned up. Before the cluster
is deleted, each of them is given a finalizer that protects its storage and one that keeps it
visible while it is deleted.
-/

namespace OpenEverest.K8s

open Framework

/-- A `DatabaseClusterBackup`: whether it has a deletion timestamp, and all other fields. -/
structure BackupObject (F : Type) where
  dbClusterName : GoString
  deleting : Bool
  finalizers : List GoString
  other : F
  deriving DecidableEq

def foregroundDeletionFinalizer : GoString := ascii "foregroundDeletion"

/-- `controllerutil.AddFinalizer`. -/
def addFinalizer {F : Type} (finalizer : GoString) (backup : BackupObject F) : BackupObject F :=
  if finalizer ∈ backup.finalizers then backup
  else { backup with finalizers := backup.finalizers ++ [finalizer] }

inductive DeleteError where
  | listDatabaseClusterBackups
  /-- `could not ensure backup storage protection`. -/
  | storageProtection
  /-- `could not ensure foreground deletion`. -/
  | foregroundDeletion
  | deleteDatabaseCluster
  deriving DecidableEq

section Delete

variable {F : Type} (storageProtectionFinalizer : GoString) (name : GoString)

/-- `retries` is what the shared back-off leaves for the calls of a backup. -/
def ensureBackupStorageProtection (retries : GoString → Nat) (backupName : GoString) :
    Editor GoString (BackupObject F) Bool :=
  .retry (retries backupName) (.edit backupName (fun backup =>
    addFinalizer foregroundDeletionFinalizer (addFinalizer storageProtectionFinalizer backup)) .done)

def ensureBackupForegroundDeletion (retries : GoString → Nat) (backupName : GoString) :
    Editor GoString (BackupObject F) Bool :=
  .retry (retries backupName) (.edit backupName (addFinalizer foregroundDeletionFinalizer) .done)

/-- The loops over the listed backups, which pass over those of other clusters and those that
are being deleted. -/
def ensureBackups (ensure : GoString → Editor GoString (BackupObject F) Bool) (e : DeleteError) :
    List (GoString × BackupObject F) → Editor GoString (BackupObject F) (Except DeleteError Unit)
  | [] => .done (.ok ())
  | (backupName, backup) :: rest =>
    if backup.dbClusterName ≠ name ∨ backup.deleting = true then ensureBackups ensure e rest
    else (ensure backupName).bind fun ok =>
      if ok then ensureBackups ensure e rest else .done (.error e)

def deleteDatabaseCluster (cleanupStorage : Bool)
    (protectionRetries foregroundRetries : GoString → Nat) :
    Editor GoString (BackupObject F) (Except DeleteError Unit) :=
  .list fun
    | none => .done (.error .listDatabaseClusterBackups)
    | some backups =>
      (if cleanupStorage then .done (.ok ())
        else ensureBackups name
          (ensureBackupStorageProtection storageProtectionFinalizer protectionRetries)
          .storageProtection backups).bind fun
        | .error e => .done (.error e)
        | .ok () =>
          (ensureBackups name (ensureBackupForegroundDeletion foregroundRetries)
            .foregroundDeletion backups).bind fun
            | .error e => .done (.error e)
            | .ok () => .issue fun ok =>
              .done (if ok then .ok () else .error .deleteDatabaseCluster)

end Delete

section Law

variable {F : Type} (storageProtectionFinalizer : GoString) (name : GoString)

/-- The write adds the two finalizers at most, and changes nothing else. -/
structure AddsFinalizers (before after : BackupObject F) : Prop where
  dbClusterName : after.dbClusterName = before.dbClusterName
  deleting : after.deleting = before.deleting
  other : after.other = before.other
  kept : ∀ finalizer ∈ before.finalizers, finalizer ∈ after.finalizers
  added : ∀ finalizer ∈ after.finalizers, finalizer ∈ before.finalizers ∨
    finalizer = storageProtectionFinalizer ∨ finalizer = foregroundDeletionFinalizer

/-- The backup has been stored with both finalizers. -/
def StoredProtected (progress : Editor.Progress GoString (BackupObject F)) (backupName : GoString) : Prop :=
  ∃ w ∈ progress.writes, w.key = backupName ∧ storageProtectionFinalizer ∈ w.after.finalizers ∧
    foregroundDeletionFinalizer ∈ w.after.finalizers

/-- The backup was listed as one of the cluster that is not being deleted. -/
def Selected (backups : List (GoString × BackupObject F)) (backupName : GoString) : Prop :=
  ∃ backup, (backupName, backup) ∈ backups ∧ backup.dbClusterName = name ∧ backup.deleting = false

/-- Each backup of the cluster that was listed as not being deleted has been. -/
def AllProtected (progress : Editor.Progress GoString (BackupObject F)) : Prop :=
  ∃ backups, progress.listed = some backups ∧ ∀ backupName, Selected name backups backupName →
    StoredProtected storageProtectionFinalizer progress backupName

/-- A write is to a backup that was listed as one of the cluster, and adds the finalizers to what
the backup is. -/
structure ProtectingWrite (w : Editor.Written GoString (BackupObject F)) : Prop where
  selected : ∃ backups, w.listed = some backups ∧ Selected name backups w.key
  adds : AddsFinalizers storageProtectionFinalizer w.before w.after

structure DeleteLaw
    (s : Editor.System GoString (BackupObject F) (Except DeleteError Unit)) : Prop where
  protected_first : ∀ progress, s.history.issued = some progress →
    AllProtected storageProtectionFinalizer name progress
  writes : ∀ w ∈ s.history.progress.writes, ProtectingWrite storageProtectionFinalizer name w
  failed_not_deleted : ∀ e, s.client = .done (.error e) → e ≠ .deleteDatabaseCluster →
    s.history.issued = none

end Law

section Calls

variable {F : Type} {storageProtectionFinalizer name : GoString}

theorem mem_addFinalizer {finalizer other : GoString} {backup : BackupObject F} :
    other ∈ (addFinalizer finalizer backup).finalizers ↔
      other ∈ backup.finalizers ∨ other = finalizer := by
  unfold addFinalizer
  by_cases hmem : finalizer ∈ backup.finalizers
  · rw [if_pos hmem]
    constructor
    · exact Or.inl
    · rintro (hother | rfl)
      · exact hother
      · exact hmem
  · rw [if_neg hmem, List.mem_append, List.mem_singleton]

@[simp] theorem addFinalizer_dbClusterName (finalizer : GoString) (backup : BackupObject F) :
    (addFinalizer finalizer backup).dbClusterName = backup.dbClusterName := by
  unfold addFinalizer
  split <;> rfl

@[simp] theorem addFinalizer_deleting (finalizer : GoString) (backup : BackupObject F) :
    (addFinalizer finalizer backup).deleting = backup.deleting := by
  unfold addFinalizer
  split <;> rfl

@[simp] theorem addFinalizer_other (finalizer : GoString) (backup : BackupObject F) :
    (addFinalizer finalizer backup).other = backup.other := by
  unfold addFinalizer
  split <;> rfl

theorem addsForeground (backup : BackupObject F) : AddsFinalizers storageProtectionFinalizer backup
    (addFinalizer foregroundDeletionFinalizer backup) where
  dbClusterName := by simp
  deleting := by simp
  other := by simp
  kept finalizer hmem := mem_addFinalizer.mpr (Or.inl hmem)
  added finalizer hmem := by
    rcases mem_addFinalizer.mp hmem with hbefore | hnew
    · exact Or.inl hbefore
    · exact Or.inr (Or.inr hnew)

theorem addsBoth (backup : BackupObject F) : AddsFinalizers storageProtectionFinalizer backup
    (addFinalizer foregroundDeletionFinalizer
      (addFinalizer storageProtectionFinalizer backup)) where
  dbClusterName := by simp
  deleting := by simp
  other := by simp
  kept finalizer hmem := mem_addFinalizer.mpr (Or.inl (mem_addFinalizer.mpr (Or.inl hmem)))
  added finalizer hmem := by
    rcases mem_addFinalizer.mp hmem with hmem | hforeground
    · exact (mem_addFinalizer.mp hmem).imp_right Or.inl
    · exact Or.inr (Or.inr hforeground)

variable (storageProtectionFinalizer name) in
/-- The writes are those of the law, and the cluster is deleted after all its backups are
protected. When each backup `keeps` its cluster, the backups written are of this cluster. -/
def deleteContract (keeps : Prop) (cluster : GoString → GoString) :
    Editor.Contract GoString (BackupObject F) where
  inv backupName backup := keeps → backup.dbClusterName = cluster backupName
  allowed w := ProtectingWrite storageProtectionFinalizer name w ∧
    (keeps → w.before.dbClusterName = name)
  ready := AllProtected storageProtectionFinalizer name

/-- What was stored before stays so, and neither a list nor the deletion comes in between. -/
structure Extends (h h' : Editor.History GoString (BackupObject F)) : Prop where
  issued : h'.issued = h.issued
  listed : h'.progress.listed = h.progress.listed
  writes : h.progress.writes ⊆ h'.progress.writes

theorem Extends.refl (h : Editor.History GoString (BackupObject F)) : Extends h h :=
  ⟨rfl, rfl, List.Subset.refl _⟩

theorem Extends.trans {h h' h'' : Editor.History GoString (BackupObject F)} (hfirst : Extends h h')
    (hsecond : Extends h' h'') : Extends h h'' :=
  ⟨hsecond.issued.trans hfirst.issued, hsecond.listed.trans hfirst.listed,
    List.Subset.trans hfirst.writes hsecond.writes⟩

theorem Extends.write {h h' : Editor.History GoString (BackupObject F)} (hextends : Extends h h')
    (w : Editor.Written GoString (BackupObject F)) : Extends h (h'.write w) :=
  ⟨hextends.issued, hextends.listed, fun _ hmem => List.mem_append_left _ (hextends.writes hmem)⟩

theorem StoredProtected.mono {h h' : Editor.History GoString (BackupObject F)}
    (hextends : Extends h h') {backupName : GoString}
    (hstored : StoredProtected storageProtectionFinalizer h.progress backupName) :
    StoredProtected storageProtectionFinalizer h'.progress backupName := by
  obtain ⟨w, hw, hprotected⟩ := hstored
  exact ⟨w, hextends.writes hw, hprotected⟩

variable {keeps : Prop} {cluster : GoString → GoString}
  {backups : List (GoString × BackupObject F)} {backupName : GoString}

theorem protectingWrite {h : Editor.History GoString (BackupObject F)}
    (hlisted : h.progress.listed = some backups) (hselected : Selected name backups backupName)
    (hname : keeps → cluster backupName = name) {backup after : BackupObject F}
    (hbackup : keeps → backup.dbClusterName = cluster backupName)
    (hadds : AddsFinalizers storageProtectionFinalizer backup after) :
    (deleteContract storageProtectionFinalizer name keeps cluster).allowed
      (h.written backupName backup after) :=
  ⟨⟨⟨backups, hlisted, hselected⟩, hadds⟩, fun hkeeps => (hbackup hkeeps).trans (hname hkeeps)⟩

theorem ensureBackupStorageProtection_ensures (retries : GoString → Nat)
    (hselected : Selected name backups backupName) (hname : keeps → cluster backupName = name)
    {h : Editor.History GoString (BackupObject F)} (hlisted : h.progress.listed = some backups) :
    Editor.Ensures (deleteContract storageProtectionFinalizer name keeps cluster)
      (fun ok h' => Extends h h' ∧ (ok = true →
        StoredProtected storageProtectionFinalizer h'.progress backupName))
      (ensureBackupStorageProtection storageProtectionFinalizer retries backupName) h := by
  apply Editor.ensures_retry ?_ _ (Extends.refl h)
  intro h' hextends
  refine ⟨⟨hextends, by simp⟩, ?_⟩
  intro backup hbackup
  refine ⟨by simpa [deleteContract] using hbackup, ?_, ?_⟩
  · exact protectingWrite (hextends.listed.trans hlisted) hselected hname hbackup (addsBoth backup)
  · intro ok
    refine ⟨hextends.write _, fun _ => ⟨_, List.mem_append_right _ (List.mem_singleton_self _), rfl,
      ?_, ?_⟩⟩
    · exact mem_addFinalizer.mpr (Or.inl (mem_addFinalizer.mpr (Or.inr rfl)))
    · exact mem_addFinalizer.mpr (Or.inr rfl)

theorem ensureBackupForegroundDeletion_ensures (retries : GoString → Nat)
    (hselected : Selected name backups backupName) (hname : keeps → cluster backupName = name)
    {h : Editor.History GoString (BackupObject F)} (hlisted : h.progress.listed = some backups) :
    Editor.Ensures (deleteContract storageProtectionFinalizer name keeps cluster)
      (fun ok h' => Extends h h' ∧ (ok = true → True))
      (ensureBackupForegroundDeletion retries backupName) h := by
  apply Editor.ensures_retry ?_ _ (Extends.refl h)
  intro h' hextends
  refine ⟨⟨hextends, by simp⟩, ?_⟩
  intro backup hbackup
  refine ⟨by simpa [deleteContract] using hbackup, ?_, fun ok => ⟨hextends.write _, by simp⟩⟩
  exact protectingWrite (hextends.listed.trans hlisted) hselected hname hbackup
    (addsForeground backup)

variable (storageProtectionFinalizer name cluster) in
theorem ensureBackups_ensures {ensure : GoString → Editor GoString (BackupObject F) Bool}
    (e : DeleteError) {P : Editor.Progress GoString (BackupObject F) → GoString → Prop}
    (hmono : ∀ h h' backupName, Extends h h' → P h.progress backupName → P h'.progress backupName)
    (hensure : ∀ backupName, Selected name backups backupName →
      (keeps → cluster backupName = name) → ∀ h, h.progress.listed = some backups →
      Editor.Ensures (deleteContract storageProtectionFinalizer name keeps cluster)
        (fun ok h' => Extends h h' ∧ (ok = true → P h'.progress backupName)) (ensure backupName) h)
    (hbackups : ∀ b ∈ backups, keeps → b.2.dbClusterName = cluster b.1)
    {left : List (GoString × BackupObject F)} (hleft : left ⊆ backups)
    {h : Editor.History GoString (BackupObject F)} (hlisted : h.progress.listed = some backups) :
    Editor.Ensures (deleteContract storageProtectionFinalizer name keeps cluster)
      (fun r h' => Extends h h' ∧ (r = .ok () →
        ∀ backupName, Selected name left backupName → P h'.progress backupName))
      (ensureBackups name ensure e left) h := by
  induction left generalizing h with
  | nil =>
    refine ⟨Extends.refl h, ?_⟩
    rintro - backupName ⟨backup, hmem, -⟩
    cases hmem
  | cons b rest ih =>
    obtain ⟨backupName, backup⟩ := b
    have hmem : (backupName, backup) ∈ backups := hleft List.mem_cons_self
    have hrest := @ih (fun b hb => hleft (List.mem_cons_of_mem _ hb))
    rw [ensureBackups]
    split
    · rename_i hpassed
      refine (hrest hlisted).imp ?_
      rintro r h' ⟨hextends, hok⟩
      refine ⟨hextends, ?_⟩
      rintro hr other ⟨backup', hb, hname, hdeleting⟩
      rcases List.mem_cons.mp hb with hb | hb
      · cases hb
        rcases hpassed with hother | hgone
        · exact absurd hname hother
        · rw [hdeleting] at hgone
          cases hgone
      · exact hok hr other ⟨backup', hb, hname, hdeleting⟩
    · rename_i hpassed
      have hname : backup.dbClusterName = name := not_not.mp (not_or.mp hpassed).1
      have hselected : Selected name backups backupName :=
        ⟨backup, hmem, hname, by simpa using (not_or.mp hpassed).2⟩
      have hcluster : keeps → cluster backupName = name :=
        fun hkeeps => (hbackups _ hmem hkeeps).symm.trans hname
      apply Editor.ensures_bind (hensure backupName hselected hcluster h hlisted)
      rintro ok h' ⟨hextends, hdone⟩
      cases ok with
      | false => exact ⟨hextends, by simp⟩
      | true =>
        refine (hrest (hextends.listed.trans hlisted)).imp ?_
        rintro r h'' ⟨hextends', hok⟩
        refine ⟨hextends.trans hextends', ?_⟩
        rintro hr other ⟨backup', hb, hother⟩
        rcases List.mem_cons.mp hb with hb | hb
        · cases hb
          exact hmono h' h'' backupName hextends' (hdone rfl)
        · exact hok hr other ⟨backup', hb, hother⟩

/-- A deletion that keeps the storage ensures the contract, and does not issue the delete when
it fails before. -/
theorem deleteDatabaseCluster_ensures (protectionRetries foregroundRetries : GoString → Nat)
    {h : Editor.History GoString (BackupObject F)} (hnone : h.issued = none) :
    Editor.Ensures (deleteContract storageProtectionFinalizer name keeps cluster)
      (fun r h' => ∀ e, r = .error e → e ≠ .deleteDatabaseCluster → h'.issued = none)
      (deleteDatabaseCluster storageProtectionFinalizer name false protectionRetries
        foregroundRetries) h := by
  refine ⟨fun e _ _ => hnone, ?_⟩
  intro backups hbackups
  have hprotect := ensureBackups_ensures storageProtectionFinalizer name cluster .storageProtection
    (fun _ _ _ hextends hstored => StoredProtected.mono hextends hstored)
    (fun _ hselected hname _ hlisted =>
      ensureBackupStorageProtection_ensures protectionRetries hselected hname hlisted)
    hbackups (List.Subset.refl backups) (h := h.list backups) rfl
  apply Editor.ensures_bind hprotect
  rintro r h' ⟨hextends, hprotected⟩
  cases r with
  | error e =>
    intro e' _ _
    rw [hextends.issued]
    exact hnone
  | ok u =>
    have hforeground := ensureBackups_ensures storageProtectionFinalizer name cluster
      .foregroundDeletion (P := fun _ _ => True) (fun _ _ _ _ _ => trivial)
      (fun _ hselected hname _ hlisted =>
        ensureBackupForegroundDeletion_ensures foregroundRetries hselected hname hlisted)
      hbackups (List.Subset.refl backups) hextends.listed
    apply Editor.ensures_bind hforeground
    rintro r h'' ⟨hextends', -⟩
    cases r with
    | error e =>
      intro e' _ _
      rw [hextends'.issued, hextends.issued]
      exact hnone
    | ok u =>
      refine ⟨⟨backups, ?_, ?_⟩, ?_⟩
      · rw [hextends'.listed, hextends.listed]
        rfl
      · intro backupName hselected
        exact (hprotected rfl backupName hselected).mono hextends'
      · intro ok e he hother
        cases ok with
        | true => cases he
        | false => exact absurd (Except.error.inj he).symm hother

end Calls

structure Starts {F : Type}
    (s : Editor.System GoString (BackupObject F) (Except DeleteError Unit)) : Prop where
  copy : s.copy = none
  history : s.history = {}
  fresh : ∀ backupName backup, s.store.lookup backupName = some backup →
    backup.resourceVersion ≤ s.revision

/-- From `s` on, each backup has the cluster of its name, and others that change a backup or
create it anew do not move it to another one. -/
structure KeepsCluster {F : Type} (cluster : GoString → GoString)
    (s : Editor.System GoString (BackupObject F) (Except DeleteError Unit))
    (ms : List (Editor.Move GoString (BackupObject F))) : Prop where
  stored : ∀ backupName backup, s.store.lookup backupName = some backup →
    backup.value.dbClusterName = cluster backupName
  put : ∀ backupName backup, .put backupName backup ∈ ms → backup.dbClusterName = cluster backupName

section Runs

variable {F : Type} {storageProtectionFinalizer name : GoString}
  {protectionRetries foregroundRetries : GoString → Nat}
  {s t : Editor.System GoString (BackupObject F) (Except DeleteError Unit)}
  {ms : List (Editor.Move GoString (BackupObject F))}

theorem sound_of_run (keeps : Prop) (cluster : GoString → GoString)
    (hcluster : keeps → KeepsCluster cluster s ms) (hstarts : Starts s)
    (hclient : s.client = deleteDatabaseCluster storageProtectionFinalizer name false
      protectionRetries foregroundRetries)
    (ht : run Editor.System.step s ms = some t) :
    Editor.Sound (deleteContract storageProtectionFinalizer name keeps cluster)
      (fun r h' => ∀ e, r = .error e → e ≠ .deleteDatabaseCluster → h'.issued = none) t := by
  have hsound : Editor.Sound (deleteContract storageProtectionFinalizer name keeps cluster)
      (fun r h' => ∀ e, r = .error e → e ≠ .deleteDatabaseCluster → h'.issued = none) s := by
    refine ⟨hstarts.fresh, ?_, ?_, ?_, ?_, ?_⟩
    · intro backupName backup hlookup hkeeps
      exact (hcluster hkeeps).stored backupName backup hlookup
    · intro copy hcopy
      rw [hstarts.copy] at hcopy
      cases hcopy
    · rw [hclient, hstarts.history]
      exact deleteDatabaseCluster_ensures protectionRetries foregroundRetries rfl
    · rw [hstarts.history]
      rintro w ⟨⟩
    · rw [hstarts.history]
      rintro progress ⟨⟩
  refine hsound.run ?_ ht
  intro m hm
  cases m with
  | put backupName backup => exact fun hkeeps => (hcluster hkeeps).put backupName backup hm
  | call => trivial
  | fail => trivial
  | lost => trivial
  | remove backupName => trivial

end Runs

/-- Whatever fails, conflicts or is deleted, the law holds of every state of a deletion, and
unless others move a backup to another cluster, the backups written are of this one. -/
theorem deleteLaw_of_run {F : Type} (storageProtectionFinalizer name : GoString)
    (protectionRetries foregroundRetries : GoString → Nat)
    {s t : Editor.System GoString (BackupObject F) (Except DeleteError Unit)} (hstarts : Starts s)
    (hclient : s.client = deleteDatabaseCluster storageProtectionFinalizer name false
      protectionRetries foregroundRetries)
    {ms : List (Editor.Move GoString (BackupObject F))}
    (ht : run Editor.System.step s ms = some t) :
    DeleteLaw storageProtectionFinalizer name t ∧
      ∀ cluster, KeepsCluster cluster s ms →
        ∀ w ∈ t.history.progress.writes, w.before.dbClusterName = name := by
  have hend := sound_of_run False id False.elim hstarts hclient ht
  refine ⟨⟨hend.issued, fun w hw => (hend.writes w hw).1, ?_⟩, ?_⟩
  · intro e he hother
    have hensures := hend.ensures
    rw [he] at hensures
    exact hensures e rfl hother
  · intro cluster hkeeps w hw
    have hend := sound_of_run True cluster (fun _ => hkeeps) hstarts hclient ht
    exact (hend.writes w hw).2 trivial

section Sample

def sampleBackup (cluster : GoString) (finalizers : List GoString) : BackupObject Unit :=
  ⟨cluster, false, finalizers, ()⟩

def sampleStart : Editor.System GoString (BackupObject Unit) (Except DeleteError Unit) where
  store :=
    { entries := [⟨ascii "a", 1, sampleBackup (ascii "db") []⟩,
        ⟨ascii "b", 2, sampleBackup (ascii "db") [ascii "kept"]⟩,
        ⟨ascii "c", 3, sampleBackup (ascii "other") []⟩]
      nodupKeys := by
        show [ascii "a", ascii "b", ascii "c"].Nodup
        decide }
  revision := 3
  client := deleteDatabaseCluster (ascii "protection") (ascii "db") false (fun _ => 1) (fun _ => 0)

/-- The backup `a` is changed while it is edited, and the answer of the first write of `b` is
lost. -/
def sampleMoves : List (Editor.Move GoString (BackupObject Unit)) :=
  [.call, .call, .put (ascii "a") (sampleBackup (ascii "db") [ascii "new"]), .call, .call, .call,
    .call, .lost, .call, .call, .call, .call, .call, .call, .call]

theorem deleteLaw_of_run_sample : ∃ t, run Editor.System.step sampleStart sampleMoves = some t ∧
    t.history.issued.isSome ∧ DeleteLaw (ascii "protection") (ascii "db") t := by
  have hissued : (run Editor.System.step sampleStart sampleMoves).any
      fun t => t.history.issued.isSome := by
    decide +kernel
  obtain ⟨t, ht, hissued⟩ := (Option.any_eq_true ..).mp hissued
  have hstarts : Starts sampleStart := by
    refine ⟨rfl, rfl, ?_⟩
    intro backupName backup hlookup
    have hmem := AList.mem_lookup_iff.mp hlookup
    simp only [sampleStart, List.mem_cons, List.not_mem_nil, or_false] at hmem
    rcases hmem with hmem | hmem | hmem <;> cases hmem <;> decide
  exact ⟨t, ht, hissued,
    (deleteLaw_of_run (ascii "protection") (ascii "db") (fun _ => 1) (fun _ => 0) hstarts rfl ht).1⟩

end Sample

end OpenEverest.K8s
