import OpenEverest.Api.DatabaseCluster
import OpenEverest.Framework.Duration
import OpenEverest.Framework.SortFunc
import Mathlib.Data.Int.ConditionallyCompleteOrder
import Mathlib.Data.Prod.Lex

/-!
# Point in time recovery

A cluster can be restored to any time between its latest backup and the latest restorable
date. That date is the one the backup carries, or the current time less the interval at which
the logs are uploaded.
-/

namespace OpenEverest.K8s.Pitr

open Framework GoString Api

/-! ### The latest restorable date -/

def latestRestorableDate (now latestBackupTime heuristicsInterval : Int) : Option Int :=
  if heuristicsInterval = 0 then none
  else
    let now := truncate now (nanosecond now)
    let date := now + wrapInt64 (wrapInt64 (-heuristicsInterval) * second)
    if date < latestBackupTime then none else some date

/-- The last whole second that is an interval ago. -/
def wholeSecondDate (now heuristicsInterval : Int) : Int :=
  now - heuristicsInterval * second - nanosecond (now - heuristicsInterval * second)

/-- A restorable date is the whole second, unless the backup is later. -/
structure RestorableDateLaw (now latestBackupTime heuristicsInterval : Int) : Prop where
  whole : ∀ date, latestRestorableDate now latestBackupTime heuristicsInterval = some date →
    nanosecond date = 0
  not_later : ∀ date, latestRestorableDate now latestBackupTime heuristicsInterval = some date →
    date ≤ now - heuristicsInterval * second
  within : ∀ date, latestRestorableDate now latestBackupTime heuristicsInterval = some date →
    now - heuristicsInterval * second - second < date
  not_before : ∀ date, latestRestorableDate now latestBackupTime heuristicsInterval = some date →
    latestBackupTime ≤ date
  none_iff : latestRestorableDate now latestBackupTime heuristicsInterval = none ↔
    wholeSecondDate now heuristicsInterval < latestBackupTime

/-- The fraction that is left of a time when it is truncated to a multiple of its own. -/
def keptFraction (t : Int) : Int :=
  if nanosecond t = 0 then 0 else nanosecond t - (t - nanosecond t - zeroTime) % nanosecond t

/-- The longest interval, in seconds, that a duration can hold. -/
def maxInterval : Int := 9223372036

/-- What a longer one is off by as a duration. -/
def overflow (heuristicsInterval : Int) : Int :=
  wrapInt64 (-heuristicsInterval * second) + heuristicsInterval * second

theorem nanosecond_bounds (t : Int) : 0 ≤ nanosecond t ∧ nanosecond t < second := by
  unfold nanosecond second
  omega

theorem truncate_nanosecond (t : Int) :
    truncate t (nanosecond t) = t - nanosecond t + keptFraction t := by
  have hbounds := nanosecond_bounds t
  unfold truncate keptFraction
  by_cases hzero : nanosecond t = 0
  · simp [hzero]
  · have hpos : ¬ nanosecond t ≤ 0 := by omega
    have hmod : (t - zeroTime) % nanosecond t = (t - nanosecond t - zeroTime) % nanosecond t := by
      rw [show t - nanosecond t - zeroTime = t - zeroTime - nanosecond t by ring,
        Int.sub_emod_right]
    rw [if_neg hpos, if_neg hzero, hmod]
    ring

/-- The fraction is there unless the time has none of its own. -/
theorem keptFraction_spec (t : Int) :
    0 ≤ keptFraction t ∧ keptFraction t < second ∧ (keptFraction t = 0 ↔ nanosecond t = 0) := by
  have hbounds := nanosecond_bounds t
  unfold keptFraction
  by_cases hzero : nanosecond t = 0
  · simp [hzero, second]
  · have hpos : 0 < nanosecond t := by omega
    have hnonneg := Int.emod_nonneg (t - nanosecond t - zeroTime) hzero
    have hless := Int.emod_lt_of_pos (t - nanosecond t - zeroTime) hpos
    rw [if_neg hzero]
    omega

theorem wrapped_interval (h : Int) :
    wrapInt64 (wrapInt64 (-h) * second) = overflow h - h * second := by
  have hproduct : wrapInt64 (wrapInt64 (-h) * second) = wrapInt64 (-h * second) := by
    unfold wrapInt64
    exact Int.bmod_mul_bmod
  rw [hproduct, overflow, add_sub_cancel_right]

theorem overflow_spec {h : Int} (hpos : 0 < h) :
    (overflow h = 0 ↔ h ≤ maxInterval) ∧ (overflow h ≠ 0 → second ≤ overflow h) := by
  obtain ⟨⟨k, hk⟩, hlo, hhi⟩ := wrapInt64_spec (-h * second)
  unfold overflow maxInterval
  rw [hk] at hlo hhi ⊢
  unfold minDuration at hlo
  unfold maxDuration at hhi
  unfold second at *
  omega

section Date

variable {now latestBackupTime heuristicsInterval : Int}

theorem wholeSecondDate_eq (now heuristicsInterval : Int) :
    wholeSecondDate now heuristicsInterval =
      now - nanosecond now - heuristicsInterval * second := by
  unfold wholeSecondDate nanosecond second
  omega

theorem latestRestorableDate_eq (hpos : 0 < heuristicsInterval) :
    latestRestorableDate now latestBackupTime heuristicsInterval =
      if wholeSecondDate now heuristicsInterval + keptFraction now + overflow heuristicsInterval <
          latestBackupTime then none
      else some (wholeSecondDate now heuristicsInterval + keptFraction now +
        overflow heuristicsInterval) := by
  rw [latestRestorableDate, if_neg (ne_of_gt hpos), truncate_nanosecond, wrapped_interval,
    wholeSecondDate_eq]
  have hdate : now - nanosecond now + keptFraction now +
      (overflow heuristicsInterval - heuristicsInterval * second) =
        now - nanosecond now - heuristicsInterval * second + keptFraction now +
          overflow heuristicsInterval := by
    ring
  simp only [hdate]

/-- What the date is off by is not negative, and nothing only without a fraction and an
overflow. -/
theorem off_by_spec (now : Int) (hpos : 0 < heuristicsInterval) :
    0 ≤ keptFraction now + overflow heuristicsInterval ∧
      (keptFraction now + overflow heuristicsInterval = 0 ↔
        nanosecond now = 0 ∧ heuristicsInterval ≤ maxInterval) := by
  obtain ⟨hmax, hlong⟩ := overflow_spec hpos
  obtain ⟨hkept, hless, hzero⟩ := keptFraction_spec now
  rw [← hzero, ← hmax]
  unfold second at *
  omega

theorem eq_wholeSecondDate {date : Int} (hwhole : nanosecond date = 0)
    (hle : date ≤ now - heuristicsInterval * second)
    (hlt : now - heuristicsInterval * second - second < date) :
    date = wholeSecondDate now heuristicsInterval := by
  unfold wholeSecondDate nanosecond second at *
  omega

theorem wholeSecondDate_whole (now heuristicsInterval : Int) :
    nanosecond (wholeSecondDate now heuristicsInterval) = 0 ∧
      wholeSecondDate now heuristicsInterval ≤ now - heuristicsInterval * second ∧
      now - heuristicsInterval * second - second < wholeSecondDate now heuristicsInterval := by
  unfold wholeSecondDate nanosecond second
  omega

theorem law_of_wholeSecondDate
    (hdate : latestRestorableDate now latestBackupTime heuristicsInterval =
      if wholeSecondDate now heuristicsInterval < latestBackupTime then none
      else some (wholeSecondDate now heuristicsInterval)) :
    RestorableDateLaw now latestBackupTime heuristicsInterval := by
  obtain ⟨hwhole, hle, hlt⟩ := wholeSecondDate_whole now heuristicsInterval
  by_cases hlate : wholeSecondDate now heuristicsInterval < latestBackupTime
  · rw [if_pos hlate] at hdate
    constructor <;> simp [hdate, hlate]
  · rw [if_neg hlate] at hdate
    constructor <;> simp [hdate, hwhole, hle, hlt, not_lt.mp hlate]

/-- The law holds exactly when no fraction is left and the interval does not overflow, or the
backup is so much later that there is no date. -/
theorem restorableDateLaw_iff (hpos : 0 < heuristicsInterval) :
    RestorableDateLaw now latestBackupTime heuristicsInterval ↔
      nanosecond now = 0 ∧ heuristicsInterval ≤ maxInterval ∨
        wholeSecondDate now heuristicsInterval + keptFraction now + overflow heuristicsInterval <
          latestBackupTime := by
  obtain ⟨hnonneg, hexact⟩ := off_by_spec now hpos
  have hdate : latestRestorableDate now latestBackupTime heuristicsInterval = _ :=
    latestRestorableDate_eq hpos
  rw [add_assoc] at hdate ⊢
  constructor
  · intro hlaw
    by_contra hnot
    obtain ⟨hinexact, hearly⟩ := not_or.mp hnot
    rw [if_neg hearly] at hdate
    have hwhole := eq_wholeSecondDate (hlaw.whole _ hdate) (hlaw.not_later _ hdate)
      (hlaw.within _ hdate)
    exact hinexact (hexact.mp (by omega))
  · rintro (hnone | hlate)
    · apply law_of_wholeSecondDate
      rw [hdate, hexact.mpr hnone, add_zero]
    · apply law_of_wholeSecondDate
      rw [hdate, if_pos hlate, if_pos (by omega)]

end Date

def noon : Int := 1710244800 * second

theorem restorableDateLaw_iff_sample : RestorableDateLaw noon (noon - 900 * second) 600 :=
  (restorableDateLaw_iff (by decide)).mpr (Or.inl (by decide))

/-- Half a second past noon the date keeps the half second. -/
theorem restorableDateLaw_broken :
    ¬ RestorableDateLaw (noon + 500 * millisecond) (noon - 900 * second) 600 := by
  intro hlaw
  have hdate : latestRestorableDate (noon + 500 * millisecond) (noon - 900 * second) 600 =
      some (noon + 500 * millisecond - 600 * second) := by decide
  exact absurd (hlaw.whole _ hdate) (by decide)

/-! ### The latest backup -/

structure BackupStatus where
  state : GoString
  createdAt : Option Int
  completedAt : Option Int
  latestRestorableTime : Option Int
  gaps : Bool
  deriving DecidableEq

/-- What the handler reads of a `DatabaseClusterBackup`. -/
structure Backup where
  name : GoString
  status : BackupStatus
  deriving DecidableEq

def backupSucceeded : GoString := ascii "Succeeded"

def sortFunc (a b : Backup) : Int :=
  match a.status.createdAt with
  | none => 1
  | some createdA =>
    match b.status.createdAt with
    | none => -1
    | some createdB => if createdA < createdB then 1 else -1

/-- The comparison never answers that two backups are equal. What it leaves of an order is
that `b` need not come before `a`, whichever way round they are compared. -/
def InOrder (a b : Backup) : Prop := ¬ (0 < sortFunc a b ∧ sortFunc b a < 0)

/-- `slices.SortFunc` with `sortFunc`, which fixes no order of backups created at one time. -/
abbrev SortBackups := SortFunc Backup InOrder

def latestSuccessfulBackup (sort : SortBackups) (backups : List Backup) : Option Backup :=
  (sort.sort backups).find? fun backup => decide (backup.status.state = backupSucceeded)

/-- No backup without a creation time, and none created earlier, comes first. -/
theorem inOrder_iff (a b : Backup) :
    InOrder a b ↔ ∀ createdB, b.status.createdAt = some createdB →
      ∃ createdA, a.status.createdAt = some createdA ∧ createdB ≤ createdA := by
  unfold InOrder sortFunc
  cases a.status.createdAt with
  | none => cases b.status.createdAt <;> simp
  | some createdA =>
    cases b.status.createdAt with
    | none => simp
    | some createdB =>
      by_cases hlt : createdA < createdB
      · have hgt : ¬ createdB < createdA := lt_asymm hlt
        simp [hlt, hgt]
      · simp [hlt, not_lt.mp hlt]

/-- The creation time, an absent one below all others. -/
def createdKey (backup : Backup) : WithBot Int := backup.status.createdAt

theorem inOrder_iff_createdKey (a b : Backup) : InOrder a b ↔ createdKey b ≤ createdKey a := by
  rw [inOrder_iff]
  exact WithBot.le_iff_forall.symm

/-! ### The handler -/

def pxcDefaultUploadInterval : Int := 60

def psmdbDefaultUploadInterval : Int := 600

def pgDefaultUploadInterval : Int := 60

/-- The package `goversion` and `common.CheckConstraint`. -/
structure Constraints (V : Type) where
  newVersion : GoString → Option V
  checkConstraint : V → GoString → Bool

def valueOrDefault (value : Option Int) (defaultValue : Int) : Int := value.getD defaultValue

def getDefaultUploadInterval {V : Type} (goversion : Constraints V) (engine : Engine)
    (uploadInterval : Option Int) : Int :=
  match goversion.newVersion engine.version with
  | none => 0
  | some version =>
    if engine.type = databaseEnginePXC then
      if goversion.checkConstraint version (ascii "<1.14.0") then
        valueOrDefault uploadInterval pxcDefaultUploadInterval
      else 0
    else if engine.type = databaseEnginePSMDB then
      valueOrDefault uploadInterval psmdbDefaultUploadInterval
    else if engine.type = databaseEnginePostgresql then
      valueOrDefault uploadInterval pgDefaultUploadInterval
    else 0

/-- What the handler reads of a `DatabaseCluster`. -/
structure Cluster where
  engine : Engine
  pitrEnabled : Bool
  uploadIntervalSec : Option Int

inductive PitrError where
  | getDatabaseCluster
  | listDatabaseClusterBackups
  /-- A nil pointer is read. -/
  | panic
  deriving DecidableEq

structure DatabaseClusterPitr where
  earliestDate : Option Int := none
  gaps : Option Bool := none
  latestBackupName : Option GoString := none
  latestDate : Option Int := none
  deriving DecidableEq

/-- What the handler reads: the cluster and the backups with its label, and the clock. -/
structure PitrHandler (V : Type) where
  getDatabaseCluster : Except PitrError Cluster
  listDatabaseClusterBackups : Except PitrError (List Backup)
  goversion : Constraints V
  now : Int

section Handler

variable {V : Type} (h : PitrHandler V)

def latestDate (databaseCluster : Cluster) (latestBackup : Backup) (backupTime : Int) :
    Option Int :=
  match latestBackup.status.latestRestorableTime with
  | some t =>
    if databaseCluster.engine.type ≠ databaseEnginePSMDB then
      if backupTime < t then some t else none
    else
      latestRestorableDate h.now backupTime
        (getDefaultUploadInterval h.goversion databaseCluster.engine
          databaseCluster.uploadIntervalSec)
  | none =>
    latestRestorableDate h.now backupTime
      (getDefaultUploadInterval h.goversion databaseCluster.engine
        databaseCluster.uploadIntervalSec)

def pitrOfBackup (databaseCluster : Cluster) (latestBackup : Backup) :
    Except PitrError DatabaseClusterPitr :=
  match latestBackup.status.createdAt with
  | none => .ok {}
  | some _ =>
    match latestBackup.status.completedAt with
    -- `latestBackup.Status.CompletedAt.UTC()`
    | none => .error .panic
    | some backupTime =>
      let latest := latestDate h databaseCluster latestBackup backupTime
      .ok
        { latestDate := latest
          earliestDate := latest.map fun _ => backupTime
          latestBackupName := some latestBackup.name
          gaps := some latestBackup.status.gaps }

def getDatabaseClusterPitr (sort : SortBackups) : Except PitrError DatabaseClusterPitr := do
  let databaseCluster ← h.getDatabaseCluster
  if databaseCluster.pitrEnabled = false ∧
      databaseCluster.engine.type ≠ databaseEnginePostgresql then .ok {}
  else
    let backups ← h.listDatabaseClusterBackups
    if backups.length = 0 then .ok {}
    else
      match latestSuccessfulBackup sort backups with
      | none => .ok {}
      | some latestBackup => pitrOfBackup h databaseCluster latestBackup

end Handler

/-! ### What the handler answers -/

/-- A succeeded backup of the greatest creation time. -/
structure IsLatest (backups : List Backup) (backup : Backup) : Prop where
  mem : backup ∈ backups
  succeeded : backup.status.state = backupSucceeded
  created : ∃ createdAt, backup.status.createdAt = some createdAt
  greatest : ∀ other ∈ backups, other.status.state = backupSucceeded →
    createdKey other ≤ createdKey backup

/-- For engines PostgreSQL it is always enabled. -/
def Cluster.Recoverable (databaseCluster : Cluster) : Prop :=
  databaseCluster.pitrEnabled = true ∨ databaseCluster.engine.type = databaseEnginePostgresql

structure PitrLaw (databaseCluster : Cluster) (backups : List Backup)
    (result : Except PitrError DatabaseClusterPitr) : Prop where
  no_panic : result ≠ .error .panic
  latest_backup : ∀ response name, result = .ok response → response.latestBackupName = some name →
    ∃ backup, IsLatest backups backup ∧ backup.name = name
  backup_named : databaseCluster.Recoverable → (∃ backup, IsLatest backups backup) →
    ∀ response, result = .ok response → response.latestBackupName ≠ none
  earliest_given : ∀ response, result = .ok response → response.latestDate ≠ none →
    response.earliestDate ≠ none
  earliest_not_after : ∀ response earliest latest, result = .ok response →
    response.earliestDate = some earliest → response.latestDate = some latest → earliest ≤ latest

theorem created_iff (backup : Backup) :
    (∃ createdAt, backup.status.createdAt = some createdAt) ↔ createdKey backup ≠ ⊥ :=
  Option.isSome_iff_exists.symm.trans Option.isSome_iff_ne_none

theorem isLatest_of_found {sort : SortBackups} {backups : List Backup} {backup : Backup}
    (hfound : latestSuccessfulBackup sort backups = some backup) :
    backup ∈ backups ∧ backup.status.state = backupSucceeded ∧
      ∀ other ∈ backups, other.status.state = backupSucceeded →
        createdKey other ≤ createdKey backup := by
  obtain ⟨hmem, hstate, hfirst⟩ := sort.find?_first hfound
  refine ⟨hmem, of_decide_eq_true hstate, ?_⟩
  intro other hother hsucceeded
  rcases hfirst other hother (decide_eq_true hsucceeded) with rfl | horder
  · exact le_refl _
  · exact (inOrder_iff_createdKey backup other).mp horder

theorem found_of_isLatest (sort : SortBackups) {backups : List Backup} {backup : Backup}
    (hlatest : IsLatest backups backup) :
    ∃ found, latestSuccessfulBackup sort backups = some found ∧ IsLatest backups found := by
  obtain ⟨found, hfound⟩ := sort.find?_isSome hlatest.mem
    (p := fun backup => decide (backup.status.state = backupSucceeded))
    (decide_eq_true hlatest.succeeded)
  obtain ⟨hmem, hstate, hgreatest⟩ := isLatest_of_found hfound
  refine ⟨found, hfound, hmem, hstate, ?_, hgreatest⟩
  -- Its creation time is not absent, since it is not below that of the other.
  rw [created_iff]
  have hcreated := (created_iff backup).mp hlatest.created
  have hle := hgreatest backup hlatest.mem hlatest.succeeded
  intro hbot
  rw [hbot, le_bot_iff] at hle
  exact hcreated hle

/-- Where two backups are created at one time, the one given comes first. -/
def favouring (backup : Backup) (a b : Backup) : Prop :=
  toLex (createdKey b, decide (b = backup)) ≤ toLex (createdKey a, decide (a = backup))

instance (backup : Backup) : DecidableRel (favouring backup) :=
  fun _ _ => inferInstanceAs (Decidable (_ ≤ _))

instance (backup : Backup) : Std.Total (favouring backup) :=
  ⟨fun _ _ => le_total _ _⟩

instance (backup : Backup) : IsTrans Backup (favouring backup) :=
  ⟨fun _ _ _ hab hbc => le_trans hbc hab⟩

theorem inOrder_of_favouring {backup a b : Backup} (h : favouring backup a b) : InOrder a b := by
  rw [inOrder_iff_createdKey]
  rcases Prod.Lex.toLex_le_toLex.mp h with hlt | ⟨heq, -⟩
  · exact le_of_lt hlt
  · exact le_of_eq heq

def sortFavouring (backup : Backup) : SortBackups :=
  (SortFunc.insertion (favouring backup)).weaken fun _ _ => inOrder_of_favouring

theorem latest_sortFavouring {backups : List Backup} {backup : Backup}
    (hlatest : IsLatest backups backup) :
    latestSuccessfulBackup (sortFavouring backup) backups = some backup := by
  obtain ⟨found, hfound, hgreatest⟩ := found_of_isLatest (sortFavouring backup) hlatest
  obtain ⟨-, -, hfirst⟩ := (SortFunc.insertion (favouring backup)).find?_first hfound
  rcases hfirst backup hlatest.mem (decide_eq_true hlatest.succeeded) with rfl | horder
  · exact hfound
  · rcases Prod.Lex.toLex_le_toLex.mp horder with hlt | ⟨-, hfavoured⟩
    · exact absurd hlt
        (not_lt.mpr (hlatest.greatest found hgreatest.mem hgreatest.succeeded))
    · have hsame : found = backup := by simpa [Bool.le_iff_imp] using hfavoured
      rw [hfound, hsame]

section Law

variable {V : Type} {h : PitrHandler V} {databaseCluster : Cluster} {backups : List Backup}

theorem latestDate_ge {latestBackup : Backup} {backupTime latest : Int}
    (hlatest : latestDate h databaseCluster latestBackup backupTime = some latest) :
    backupTime ≤ latest := by
  have hheuristics : ∀ interval, latestRestorableDate h.now backupTime interval = some latest →
      backupTime ≤ latest := by
    intro interval hdate
    unfold latestRestorableDate at hdate
    simp only at hdate
    split at hdate
    · cases hdate
    · split at hdate
      · cases hdate
      · rename_i hnot
        rw [← Option.some.inj hdate]
        exact not_lt.mp hnot
  unfold latestDate at hlatest
  split at hlatest
  · rename_i t _
    split at hlatest
    · split at hlatest
      · rename_i hafter
        rw [← Option.some.inj hlatest]
        exact le_of_lt hafter
      · cases hlatest
    · exact hheuristics _ hlatest
  · exact hheuristics _ hlatest

theorem emptyLaw (hnone : databaseCluster.Recoverable → ¬ ∃ backup, IsLatest backups backup) :
    PitrLaw databaseCluster backups (.ok {}) := by
  constructor
  · simp
  · rintro response name ⟨⟩ hname
    cases hname
  · intro hrecoverable hlatest
    exact absurd hlatest (hnone hrecoverable)
  · rintro response ⟨⟩ hdate
    exact absurd rfl hdate
  · rintro response earliest latest ⟨⟩ hdate
    cases hdate

theorem pitrOfBackup_law {latestBackup : Backup} {backupTime : Int}
    (hlatest : IsLatest backups latestBackup)
    (hcompleted : latestBackup.status.completedAt = some backupTime) :
    PitrLaw databaseCluster backups (pitrOfBackup h databaseCluster latestBackup) := by
  obtain ⟨createdAt, hcreated⟩ := hlatest.created
  simp only [pitrOfBackup, hcreated, hcompleted]
  constructor
  · simp
  · rintro response name ⟨⟩ hname
    exact ⟨latestBackup, hlatest, Option.some.inj hname⟩
  · rintro hrecoverable hexists response ⟨⟩
    simp
  · rintro response ⟨⟩ hdate
    simpa using hdate
  · rintro response earliest latest ⟨⟩ hearliest hdate
    simp only [Option.map_eq_some_iff] at hearliest
    obtain ⟨date, -, rfl⟩ := hearliest
    exact latestDate_ge hdate

variable (hcluster : h.getDatabaseCluster = .ok databaseCluster)
  (hbackups : h.listDatabaseClusterBackups = .ok backups)
include hcluster hbackups

theorem getDatabaseClusterPitr_eq (hrecoverable : databaseCluster.Recoverable)
    (sort : SortBackups) :
    getDatabaseClusterPitr h sort =
      match latestSuccessfulBackup sort backups with
      | none => .ok {}
      | some latestBackup => pitrOfBackup h databaseCluster latestBackup := by
  have hon : ¬ (databaseCluster.pitrEnabled = false ∧
      databaseCluster.engine.type ≠ databaseEnginePostgresql) := by
    rintro ⟨hoff, htype⟩
    rcases hrecoverable with henabled | hpg
    · rw [hoff] at henabled
      cases henabled
    · exact htype hpg
  simp only [getDatabaseClusterPitr, hcluster, hbackups, bind, Except.bind, if_neg hon]
  by_cases hempty : backups.length = 0
  · have hsorted : sort.sort backups = [] := by
      apply List.eq_nil_of_length_eq_zero
      rw [(sort.perm backups).length_eq, hempty]
    rw [if_pos hempty, latestSuccessfulBackup, hsorted]
    rfl
  · rw [if_neg hempty]

omit hbackups in
theorem getDatabaseClusterPitr_off (hoff : ¬ databaseCluster.Recoverable) (sort : SortBackups) :
    getDatabaseClusterPitr h sort = .ok {} := by
  have hboth : databaseCluster.pitrEnabled = false ∧
      databaseCluster.engine.type ≠ databaseEnginePostgresql := by
    simpa [Cluster.Recoverable] using hoff
  simp only [getDatabaseClusterPitr, hcluster, bind, Except.bind]
  rw [if_pos hboth]

theorem law_of_completed (hcompleted : databaseCluster.Recoverable →
      ∀ backup, IsLatest backups backup → backup.status.completedAt ≠ none)
    (sort : SortBackups) : PitrLaw databaseCluster backups (getDatabaseClusterPitr h sort) := by
  by_cases hrecoverable : databaseCluster.Recoverable
  · rw [getDatabaseClusterPitr_eq hcluster hbackups hrecoverable sort]
    by_cases hexists : ∃ backup, IsLatest backups backup
    · obtain ⟨backup, hbackup⟩ := hexists
      obtain ⟨found, hfound, hlatest⟩ := found_of_isLatest sort hbackup
      obtain ⟨backupTime, htime⟩ := Option.ne_none_iff_exists'.mp
        (hcompleted hrecoverable found hlatest)
      rw [hfound]
      exact pitrOfBackup_law hlatest htime
    · cases hfound : latestSuccessfulBackup sort backups with
      | none => exact emptyLaw fun _ => hexists
      | some found =>
        obtain ⟨hmem, hstate, hgreatest⟩ := isLatest_of_found hfound
        have habsent : found.status.createdAt = none := by
          by_contra hcreated
          exact hexists ⟨found, hmem, hstate, Option.ne_none_iff_exists'.mp hcreated, hgreatest⟩
        simp only [pitrOfBackup, habsent]
        exact emptyLaw fun _ => hexists
  · rw [getDatabaseClusterPitr_off hcluster hrecoverable sort]
    exact emptyLaw fun h => absurd h hrecoverable

/-- The law holds for every routine of sorting exactly when each latest backup has a
completion time. -/
theorem pitrLaw_iff :
    (∀ sort, PitrLaw databaseCluster backups (getDatabaseClusterPitr h sort)) ↔
      (databaseCluster.Recoverable → ∀ backup, IsLatest backups backup →
        backup.status.completedAt ≠ none) := by
  constructor
  · intro hlaw hrecoverable backup hlatest hnone
    apply (hlaw (sortFavouring backup)).no_panic
    obtain ⟨createdAt, hcreated⟩ := hlatest.created
    rw [getDatabaseClusterPitr_eq hcluster hbackups hrecoverable, latest_sortFavouring hlatest]
    simp only [pitrOfBackup, hcreated, hnone]
  · intro hcompleted sort
    exact law_of_completed hcluster hbackups hcompleted sort

end Law

def backupBeforeNoon (completedAt : Option Int) : Backup :=
  { name := ascii "backup-1"
    status :=
      { state := backupSucceeded
        createdAt := some (noon - 960 * second)
        completedAt := completedAt
        latestRestorableTime := none
        gaps := false } }

def psmdbCluster : Cluster :=
  { engine := ⟨databaseEnginePSMDB, ascii "8.0.4"⟩
    pitrEnabled := true
    uploadIntervalSec := none }

def noonHandler (backups : List Backup) : PitrHandler GoString :=
  { getDatabaseCluster := .ok psmdbCluster
    listDatabaseClusterBackups := .ok backups
    goversion := ⟨some, fun _ _ => false⟩
    now := noon }

theorem isLatest_singleton (completedAt : Option Int) :
    IsLatest [backupBeforeNoon completedAt] (backupBeforeNoon completedAt) where
  mem := List.mem_singleton_self _
  succeeded := rfl
  created := ⟨_, rfl⟩
  greatest other hother _ := by rw [List.mem_singleton.mp hother]

def backupOfYesterday : Backup :=
  { name := ascii "backup-0"
    status :=
      { state := backupSucceeded
        createdAt := some (noon - 86400 * second)
        completedAt := none
        latestRestorableTime := none
        gaps := false } }

theorem pitrLaw_iff_sample :
    let backup := backupBeforeNoon (some (noon - 900 * second))
    let backups := [backupOfYesterday, backup]
    PitrLaw psmdbCluster backups
      (getDatabaseClusterPitr (noonHandler backups) (sortFavouring backup)) := by
  intro backup backups
  refine (pitrLaw_iff rfl rfl).mpr (fun _ latest hlatest hnone => ?_) (sortFavouring backup)
  rcases List.mem_cons.mp hlatest.mem with rfl | hmem
  · have hgreatest := hlatest.greatest backup (List.mem_cons_of_mem _ (List.mem_singleton_self _)) rfl
    revert hgreatest
    decide +kernel
  · rw [List.mem_singleton.mp hmem] at hnone
    cases hnone

/-- A succeeded backup without a completion time makes the handler panic. -/
theorem pitrLaw_broken : ¬ ∃ sort, PitrLaw psmdbCluster [backupBeforeNoon none]
    (getDatabaseClusterPitr (noonHandler [backupBeforeNoon none]) sort) := by
  rintro ⟨sort, hlaw⟩
  apply hlaw.no_panic
  obtain ⟨found, hfound, hlatest⟩ := found_of_isLatest sort (isLatest_singleton none)
  rw [getDatabaseClusterPitr_eq rfl rfl (Or.inl rfl) sort, hfound, List.mem_singleton.mp hlatest.mem]
  rfl

end OpenEverest.K8s.Pitr
