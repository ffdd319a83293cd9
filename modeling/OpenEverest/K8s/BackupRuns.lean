import OpenEverest.Validation.PgRepos

/-!
# Concurrent requests for backups

A request for a backup lists the backups that carry the label of its cluster and, when
none of them is new, starting or running, creates its object. Other requests and the
operator act between the two.
-/

namespace OpenEverest.K8s

open Framework Api Validation

structure BackupRequest where
  backup : DatabaseClusterBackup
  clusterLabel : Option GoString

inductive Phase where
  | waiting
  | checked
  | refused
  | created
  deriving DecidableEq

/-- A stored backup, with the request that created it or none for the operator. -/
structure OwnedBackup (ι : Type) where
  stored : StoredBackup
  creator : Option ι

structure BackupSystem (ι : Type) where
  backups : List (OwnedBackup ι)
  phase : ι → Phase

/-- The two steps of a request, a scheduled backup of the operator and what it reports of a
backup, and the deletion of one: it stays listed until it is removed. -/
inductive BackupMove (ι : Type) where
  | list (i : ι)
  | create (i : ι)
  | schedule (backup : DatabaseClusterBackup) (clusterLabel : Option GoString)
  | report (namespaceName name : GoString) (clusterLabel : Option GoString) (state : BackupState)
  | delete (namespaceName name : GoString)
  | remove (namespaceName name : GoString)

/-- What the operator reports of a backup; one that ended stays so. -/
def reportBackup (b : StoredBackup) (clusterLabel : Option GoString) (state : BackupState) :
    StoredBackup :=
  { b with clusterLabel, state := if b.state = .other then .other else state }

namespace BackupSystem

variable {ι : Type}

def start : BackupSystem ι := ⟨[], fun _ => .waiting⟩

def store (s : BackupSystem ι) : ClusterStore := ⟨fun _ _ => none, s.backups.map (·.stored)⟩

variable [DecidableEq ι] (requests : ι → BackupRequest)

def enter (s : BackupSystem ι) (i : ι) (phase : Phase) : BackupSystem ι :=
  { s with phase := Function.update s.phase i phase }

def add (s : BackupSystem ι) (backup : DatabaseClusterBackup) (clusterLabel : Option GoString)
    (creator : Option ι) : BackupSystem ι :=
  { s with backups := ⟨⟨backup, clusterLabel, .new, false⟩, creator⟩ :: s.backups }

def mark (s : BackupSystem ι) (namespaceName name : GoString)
    (change : StoredBackup → StoredBackup) : BackupSystem ι :=
  { s with
    backups := s.backups.map fun b =>
      if b.stored.backup.namespaceName = namespaceName ∧ b.stored.backup.name = name then
        ⟨change b.stored, b.creator⟩
      else b }

def step (s : BackupSystem ι) : BackupMove ι → Option (BackupSystem ι)
  | .list i =>
    let backup := (requests i).backup
    if s.phase i ≠ .waiting then none
    else if s.store.ensureNoBackupsRunningForCluster backup.dbClusterName backup.namespaceName then
      some (s.enter i .checked)
    else some (s.enter i .refused)
  | .create i =>
    let backup := (requests i).backup
    if s.phase i ≠ .checked then none
    else if s.store.hasBackup backup.namespaceName backup.name then some (s.enter i .refused)
    else some ((s.enter i .created).add backup (requests i).clusterLabel (some i))
  | .schedule backup clusterLabel =>
    if s.store.hasBackup backup.namespaceName backup.name then none
    else some (s.add backup clusterLabel none)
  | .report namespaceName name clusterLabel state =>
    some (s.mark namespaceName name fun b => reportBackup b clusterLabel state)
  | .delete namespaceName name => some (s.mark namespaceName name fun b => { b with deleted := true })
  | .remove namespaceName name =>
    some { s with
      backups := s.backups.filter fun b =>
        !(b.stored.deleted &&
          decide (b.stored.backup.namespaceName = namespaceName ∧ b.stored.backup.name = name)) }

end BackupSystem

structure ClusterKey where
  namespaceName : GoString
  name : GoString
  deriving DecidableEq

def clusterOf (backup : DatabaseClusterBackup) : ClusterKey :=
  ⟨backup.namespaceName, backup.dbClusterName⟩

def Unfinished (b : StoredBackup) : Prop :=
  b.state = .running ∨ b.state = .starting ∨ b.state = .new

instance (b : StoredBackup) : Decidable (Unfinished b) :=
  inferInstanceAs (Decidable (_ ∨ _ ∨ _))

namespace BackupSystem

variable {ι : Type} (requests : ι → BackupRequest)

def unfinishedOf (s : BackupSystem ι) (cluster : ClusterKey) : List (OwnedBackup ι) :=
  s.backups.filter fun b =>
    b.creator.isSome && decide (clusterOf b.stored.backup = cluster ∧ Unfinished b.stored)

def AtMostOne (s : BackupSystem ι) : Prop := ∀ cluster, (s.unfinishedOf cluster).length ≤ 1

def Idle (s : BackupSystem ι) (cluster : ClusterKey) : Prop :=
  ∀ b ∈ s.backups, clusterOf b.stored.backup = cluster → ¬ Unfinished b.stored

/-- A request creates its backup while no other one of the cluster is unfinished. -/
def CreatesIdle (s : BackupSystem ι) : BackupMove ι → Prop
  | .create i => s.phase i = .checked → s.Idle (clusterOf (requests i).backup)
  | _ => True

/-- No request of the cluster is between its list and its creation. -/
def NoneChecked (s : BackupSystem ι) (cluster : ClusterKey) : Prop :=
  ∀ j, s.phase j = .checked → clusterOf (requests j).backup ≠ cluster

/-- When a request passes its check, the unfinished backups of its cluster carry the label
and are not being deleted, and no other request of the cluster is before its creation.
Scheduled backups do not come between a request's steps. -/
def Serial (s : BackupSystem ι) : BackupMove ι → Prop
  | .list i =>
    let backup := (requests i).backup
    s.store.ensureNoBackupsRunningForCluster backup.dbClusterName backup.namespaceName = true →
      (∀ b ∈ s.backups, clusterOf b.stored.backup = clusterOf backup → Unfinished b.stored →
        b.stored.clusterLabel = some backup.dbClusterName ∧ b.stored.deleted = false) ∧
      s.NoneChecked requests (clusterOf backup)
  | .schedule backup _ => s.NoneChecked requests (clusterOf backup)
  | _ => True

instance [Fintype ι] (s : BackupSystem ι) (m : BackupMove ι) : Decidable (s.Serial requests m) := by
  cases m <;> unfold Serial NoneChecked <;> infer_instance

structure SerialInv (s : BackupSystem ι) : Prop where
  idle : ∀ i, s.phase i = .checked → s.Idle (clusterOf (requests i).backup)
  alone : ∀ i j, s.phase i = .checked → s.phase j = .checked →
    clusterOf (requests i).backup = clusterOf (requests j).backup → i = j
  atMostOne : s.AtMostOne

variable {requests : ι → BackupRequest} {s t : BackupSystem ι}

theorem unfinished_iff (b : StoredBackup) : Unfinished b ↔ b.state ≠ .other := by
  unfold Unfinished
  cases b.state <;> simp

theorem labelled_finished {backup : DatabaseClusterBackup}
    (hpass : s.store.ensureNoBackupsRunningForCluster backup.dbClusterName backup.namespaceName =
      true) {b : OwnedBackup ι} (hb : b ∈ s.backups)
    (hcluster : clusterOf b.stored.backup = clusterOf backup)
    (hlabel : b.stored.clusterLabel = some backup.dbClusterName)
    (hkept : b.stored.deleted = false) : ¬ Unfinished b.stored := by
  intro hunfinished
  have hns : b.stored.backup.namespaceName = backup.namespaceName :=
    congrArg ClusterKey.namespaceName hcluster
  have hlisted : b.stored ∈ s.store.listDatabaseClusterBackups backup.namespaceName
      backup.dbClusterName :=
    List.mem_filter.mpr ⟨List.mem_map_of_mem hb, decide_eq_true ⟨hns, hlabel⟩⟩
  have hany : (s.store.listDatabaseClusterBackups backup.namespaceName backup.dbClusterName).any
      (fun b => decide (b.state = .running ∨ b.state = .starting ∨ b.state = .new) &&
        !b.deleted) = true := by
    refine List.any_eq_true.mpr ⟨b.stored, hlisted, ?_⟩
    have hstates : decide (b.stored.state = .running ∨ b.stored.state = .starting ∨
        b.stored.state = .new) = true := decide_eq_true hunfinished
    rw [hkept, hstates]
    rfl
  rw [ClusterStore.ensureNoBackupsRunningForCluster, hany] at hpass
  cases hpass

theorem idle_of_pass {backup : DatabaseClusterBackup}
    (hpass : s.store.ensureNoBackupsRunningForCluster backup.dbClusterName backup.namespaceName =
      true)
    (hlabels : ∀ b ∈ s.backups, clusterOf b.stored.backup = clusterOf backup →
      Unfinished b.stored →
        b.stored.clusterLabel = some backup.dbClusterName ∧ b.stored.deleted = false) :
    s.Idle (clusterOf backup) := by
  intro b hb hcluster hunfinished
  obtain ⟨hlabel, hkept⟩ := hlabels b hb hcluster hunfinished
  exact labelled_finished hpass hb hcluster hlabel hkept hunfinished

theorem unfinishedOf_idle {cluster : ClusterKey} (h : s.Idle cluster) :
    s.unfinishedOf cluster = [] := by
  apply List.filter_eq_nil_iff.mpr
  intro b hb hcounted
  simp only [Bool.and_eq_true, decide_eq_true_eq] at hcounted
  exact h b hb hcounted.2.1 hcounted.2.2

section Steps

variable [DecidableEq ι]

theorem SerialInv.enter (hs : s.SerialInv requests) (i : ι) {phase : Phase}
    (hphase : phase ≠ .checked) : (s.enter i phase).SerialInv requests := by
  have hbefore : ∀ j, (s.enter i phase).phase j = .checked → s.phase j = .checked := by
    intro j hj
    by_cases hij : j = i
    · subst hij
      simp [BackupSystem.enter, hphase] at hj
    · simpa [BackupSystem.enter, hij] using hj
  constructor
  · intro j hj
    exact hs.idle j (hbefore j hj)
  · intro j k hj hk
    exact hs.alone j k (hbefore j hj) (hbefore k hk)
  · exact hs.atMostOne

theorem SerialInv.check (hs : s.SerialInv requests) {i : ι}
    (hidle : s.Idle (clusterOf (requests i).backup))
    (hnone : s.NoneChecked requests (clusterOf (requests i).backup)) :
    (s.enter i .checked).SerialInv requests := by
  have hbefore : ∀ j, j ≠ i → (s.enter i .checked).phase j = .checked → s.phase j = .checked := by
    intro j hij hj
    simpa [BackupSystem.enter, hij] using hj
  constructor
  · intro j hj
    by_cases hij : j = i
    · rw [hij]
      exact hidle
    · exact hs.idle j (hbefore j hij hj)
  · intro j k hj hk hsame
    by_cases hji : j = i
    · by_cases hki : k = i
      · rw [hji, hki]
      · rw [hji] at hsame
        exact absurd hsame.symm (hnone k (hbefore k hki hk))
    · by_cases hki : k = i
      · rw [hki] at hsame
        exact absurd hsame (hnone j (hbefore j hji hj))
      · exact hs.alone j k (hbefore j hji hj) (hbefore k hki hk) hsame
  · exact hs.atMostOne

omit [DecidableEq ι] in
/-- A new backup keeps the invariant where no request of its cluster passed its check; one
of a request needs its cluster to be idle. -/
theorem SerialInv.add (hs : s.SerialInv requests) {backup : DatabaseClusterBackup}
    {clusterLabel : Option GoString} {creator : Option ι}
    (hnone : s.NoneChecked requests (clusterOf backup))
    (hidle : creator.isSome = true → s.Idle (clusterOf backup)) :
    (s.add backup clusterLabel creator).SerialInv requests := by
  constructor
  · intro j hj b hb hcluster
    rcases List.mem_cons.mp hb with rfl | hb
    · exact absurd hcluster.symm (hnone j hj)
    · exact hs.idle j hj b hb hcluster
  · exact hs.alone
  · intro cluster
    have hle := hs.atMostOne cluster
    unfold unfinishedOf BackupSystem.add
    rw [List.filter_cons]
    split
    · rename_i hcounted
      simp only [Bool.and_eq_true, decide_eq_true_eq] at hcounted
      obtain ⟨hcreator, rfl, _⟩ := hcounted
      have hnil := unfinishedOf_idle (hidle hcreator)
      rw [unfinishedOf] at hnil
      rw [hnil, List.length_singleton]
    · exact hle

theorem reportBackup_unfinished {b : StoredBackup} {clusterLabel : Option GoString}
    {state : BackupState} (h : Unfinished (reportBackup b clusterLabel state)) : Unfinished b := by
  rw [unfinished_iff] at h ⊢
  intro hended
  apply h
  simp [reportBackup, hended]

omit [DecidableEq ι] in
/-- A backup that ended stays so whatever is marked on it. -/
theorem SerialInv.mark (hs : s.SerialInv requests) (namespaceName name : GoString)
    {change : StoredBackup → StoredBackup} (hbackup : ∀ b, (change b).backup = b.backup)
    (hended : ∀ b, Unfinished (change b) → Unfinished b) :
    (s.mark namespaceName name change).SerialInv requests := by
  have hmarked : ∀ c ∈ (s.mark namespaceName name change).backups, ∃ b ∈ s.backups,
      clusterOf c.stored.backup = clusterOf b.stored.backup ∧
        (Unfinished c.stored → Unfinished b.stored) := by
    intro c hc
    obtain ⟨b, hb, rfl⟩ := List.mem_map.mp hc
    refine ⟨b, hb, ?_⟩
    split
    · exact ⟨congrArg clusterOf (hbackup b.stored), hended b.stored⟩
    · exact ⟨rfl, id⟩
  constructor
  · intro j hj c hc hcluster hunfinished
    obtain ⟨b, hb, hsame, hbefore⟩ := hmarked c hc
    rw [hsame] at hcluster
    exact hs.idle j hj b hb hcluster (hbefore hunfinished)
  · exact hs.alone
  · intro cluster
    apply le_trans _ (hs.atMostOne cluster)
    unfold unfinishedOf BackupSystem.mark
    rw [← List.countP_eq_length_filter, ← List.countP_eq_length_filter, List.countP_map]
    apply List.countP_mono_left
    intro b _ hcounted
    simp only [Function.comp_apply, Bool.and_eq_true, decide_eq_true_eq] at hcounted ⊢
    split at hcounted
    · rw [hbackup] at hcounted
      exact ⟨hcounted.1, hcounted.2.1, hended b.stored hcounted.2.2⟩
    · exact hcounted

omit [DecidableEq ι] in
theorem SerialInv.remove (hs : s.SerialInv requests) (keep : OwnedBackup ι → Bool) :
    ({ s with backups := s.backups.filter keep } : BackupSystem ι).SerialInv requests := by
  constructor
  · intro j hj b hb
    exact hs.idle j hj b (List.mem_of_mem_filter hb)
  · exact hs.alone
  · intro cluster
    apply le_trans _ (hs.atMostOne cluster)
    exact (List.filter_sublist.filter _).length_le

theorem SerialInv.step (hs : s.SerialInv requests) {m : BackupMove ι}
    (hserial : s.Serial requests m) (hstep : s.step requests m = some t) :
    t.SerialInv requests := by
  cases m with
  | list i =>
    simp only [BackupSystem.step] at hstep
    split at hstep
    · cases hstep
    split at hstep
    · rename_i hpass
      cases hstep
      obtain ⟨hlabels, hnone⟩ := hserial hpass
      exact hs.check (idle_of_pass hpass hlabels) hnone
    · cases hstep
      exact hs.enter i (by decide)
  | create i =>
    simp only [BackupSystem.step] at hstep
    split at hstep
    · cases hstep
    rename_i hphase
    have hchecked : s.phase i = .checked := not_not.mp hphase
    split at hstep
    · cases hstep
      exact hs.enter i (by decide)
    · cases hstep
      apply (hs.enter i (by decide)).add
      · intro j hj hsame
        by_cases hij : j = i
        · subst hij
          simp [BackupSystem.enter] at hj
        · have hj : s.phase j = .checked := by simpa [BackupSystem.enter, hij] using hj
          exact hij (hs.alone j i hj hchecked hsame)
      · intro _
        exact hs.idle i hchecked
  | schedule backup clusterLabel =>
    simp only [BackupSystem.step] at hstep
    split at hstep
    · cases hstep
    · cases hstep
      apply hs.add hserial
      intro h
      cases h
  | report namespaceName name clusterLabel state =>
    cases hstep
    apply hs.mark
    · intro b
      rfl
    · intro b
      exact reportBackup_unfinished
  | delete namespaceName name =>
    cases hstep
    apply hs.mark
    · intro b
      rfl
    · intro b
      exact id
  | remove namespaceName name =>
    cases hstep
    exact hs.remove _

omit [DecidableEq ι] in
theorem SerialInv.create (hs : s.SerialInv requests) (m : BackupMove ι) :
    s.CreatesIdle requests m := by
  cases m with
  | create i => exact hs.idle i
  | _ => trivial

omit [DecidableEq ι] in
theorem SerialInv.start (requests : ι → BackupRequest) :
    (BackupSystem.start : BackupSystem ι).SerialInv requests := by
  constructor
  · intro i hi
    cases hi
  · intro i j hi
    cases hi
  · intro cluster
    exact Nat.zero_le 1

/-- Where every step is serial, at most one backup of a cluster that requests created is
unfinished at any time, and no request creates one while another is. -/
theorem serial_atMostOne (moves : List (BackupMove ι))
    (hserial : AlongRun (step requests) (Serial requests) start moves) :
    Always (step requests) AtMostOne start moves ∧
      AlongRun (step requests) (CreatesIdle requests) start moves := by
  have hstep : ∀ (s : BackupSystem ι) (m : BackupMove ι) (t : BackupSystem ι),
      s.SerialInv requests → s.Serial requests m → s.step requests m = some t →
        t.SerialInv requests := fun _ _ _ hs hserial hstep => hs.step hserial hstep
  constructor
  · exact always_of_alongRun (SerialInv requests) hstep (fun _ hs => hs.atMostOne)
      (SerialInv.start requests) hserial
  · exact hserial.imp (SerialInv requests) hstep (fun _ m hs _ => hs.create m)
      (SerialInv.start requests)

end Steps

def mysqlKey : ClusterKey := ⟨ascii "ns", ascii "mysql"⟩

def labelledRequests (i : Fin 2) : BackupRequest where
  backup := ⟨mysqlKey.namespaceName, if i = 0 then ascii "a" else ascii "b", mysqlKey.name,
    ascii "s3"⟩
  clusterLabel := some mysqlKey.name

def oneAfterTheOther : List (BackupMove (Fin 2)) :=
  [.list 0, .create 0, .report (ascii "ns") (ascii "a") (some (ascii "mysql")) .running,
    .report (ascii "ns") (ascii "a") (some (ascii "mysql")) .other, .list 1, .create 1]

theorem serial_atMostOne_sample :
    (run (step labelledRequests) start oneAfterTheOther).any
      (fun t => decide ((t.unfinishedOf mysqlKey).length = 1)) = true ∧
    Always (step labelledRequests) AtMostOne start oneAfterTheOther ∧
      AlongRun (step labelledRequests) (CreatesIdle labelledRequests) start oneAfterTheOther :=
  ⟨by decide +kernel, serial_atMostOne oneAfterTheOther (by decide +kernel)⟩

def bothAtOnce : List (BackupMove (Fin 2)) := [.list 0, .list 1, .create 0, .create 1]

def unlabelledRequests (i : Fin 2) : BackupRequest :=
  { labelledRequests i with clusterLabel := none }

def withoutLabel : List (BackupMove (Fin 2)) := [.list 0, .create 0, .list 1, .create 1]

theorem two_backups_unfinished :
    ¬ Always (step labelledRequests) AtMostOne start bothAtOnce ∧
    ¬ Always (step unlabelledRequests) AtMostOne start withoutLabel := by
  have hboth : (run (step labelledRequests) start bothAtOnce).any
      (fun t => decide ((t.unfinishedOf mysqlKey).length = 2)) = true := by decide +kernel
  have hlater : (run (step unlabelledRequests) start withoutLabel).any
      (fun t => decide ((t.unfinishedOf mysqlKey).length = 2)) = true := by decide +kernel
  constructor
  · intro halways
    obtain ⟨t, ht, htwo⟩ := (Option.any_eq_true ..).mp hboth
    have hle := halways bothAtOnce List.prefix_rfl t ht mysqlKey
    rw [of_decide_eq_true htwo] at hle
    omega
  · intro halways
    obtain ⟨t, ht, htwo⟩ := (Option.any_eq_true ..).mp hlater
    have hle := halways withoutLabel List.prefix_rfl t ht mysqlKey
    rw [of_decide_eq_true htwo] at hle
    omega

end BackupSystem

end OpenEverest.K8s
