import OpenEverest.Api.DatabaseCluster
import OpenEverest.Framework.Versioned

/-!
# Clusters in the web UI

The UI shows a cluster with its schedules in local time and sends the whole
edited object back with the schedules in UTC. The fields of the spec other than
the pause and the schedules are of any kind.
-/

namespace OpenEverest.Ui

open Framework Api

structure DbClusterSpec (F V : Type) where
  paused : Option Bool
  schedules : Option (List BackupSchedule)
  others : F → V

structure StoredCluster (F V : Type) where
  annotations : GoString → Option GoString
  spec : DbClusterSpec F V

structure Metadata where
  annotations : GoString → Option GoString
  resourceVersion : Nat

structure DbCluster (F V : Type) where
  metadata : Metadata
  spec : DbClusterSpec F V

/-- The conversions of `cronConverter` between UTC and the browser's time zone. -/
structure TimeZone where
  toUtc : GoString → GoString
  toLocal : GoString → GoString

section Clusters

variable {F V : Type}

def convertSchedules (cronConverter : GoString → GoString) (schedules : Option (List BackupSchedule)) :
    Option (List BackupSchedule) :=
  schedules.map (List.map fun schedule =>
    { schedule with schedule := cronConverter schedule.schedule })

/-- `mergeNewDbClusterData` of what the API answered, converted to local time. -/
def mergeNewDbClusterData (tz : TimeZone) (data : Versioned (StoredCluster F V)) : DbCluster F V where
  metadata := ⟨data.value.annotations, data.resourceVersion⟩
  spec := { data.value.spec with
    schedules := convertSchedules tz.toLocal data.value.spec.schedules }

/-- The body of the request that `updateDbCluster` sends, without its version. -/
def updateDbCluster (tz : TimeZone) (dbCluster : DbCluster F V) : StoredCluster F V where
  annotations := dbCluster.metadata.annotations
  spec := { dbCluster.spec with schedules := convertSchedules tz.toUtc dbCluster.spec.schedules }

def setDbClusterPausedStatus (dbCluster : DbCluster F V) (paused : Bool) : DbCluster F V :=
  { dbCluster with spec := { dbCluster.spec with paused := some paused } }

def restartAnnotationKey : GoString := ascii "everest.percona.com/restart"

def setDbClusterRestart (dbCluster : DbCluster F V) : DbCluster F V :=
  { dbCluster with metadata := { dbCluster.metadata with
      annotations := Function.update dbCluster.metadata.annotations restartAnnotationKey
        (some (ascii "true")) } }

end Clusters

/-- The fields that an edit sets, with their new values in local time. -/
structure Edit (F V : Type) where
  paused : Option Bool := none
  schedules : Option (Option (List BackupSchedule)) := none
  others : F → Option V := fun _ => none
  annotations : GoString → Option GoString := fun _ => none

namespace Edit

variable {F V : Type}

def apply (e : Edit F V) (dbCluster : DbCluster F V) : DbCluster F V where
  metadata := { dbCluster.metadata with
    annotations := fun key => (e.annotations key).or (dbCluster.metadata.annotations key) }
  spec :=
    { paused := e.paused.or dbCluster.spec.paused
      schedules := e.schedules.getD dbCluster.spec.schedules
      others := fun field => (e.others field).getD (dbCluster.spec.others field) }

def pause (paused : Bool) : Edit F V := { paused := some paused }

def restart : Edit F V :=
  { annotations := Function.update (fun _ => none) restartAnnotationKey (some (ascii "true")) }

theorem pause_apply (paused : Bool) (dbCluster : DbCluster F V) :
    (pause paused).apply dbCluster = setDbClusterPausedStatus dbCluster paused := by
  simp [apply, pause, setDbClusterPausedStatus]

theorem restart_apply (dbCluster : DbCluster F V) :
    restart.apply dbCluster = setDbClusterRestart dbCluster := by
  have hannotations : (fun key => (Function.update (fun _ => none) restartAnnotationKey
        (some (ascii "true")) key).or (dbCluster.metadata.annotations key)) =
      Function.update dbCluster.metadata.annotations restartAnnotationKey (some (ascii "true")) := by
    funext key
    by_cases hkey : key = restartAnnotationKey
    · simp [hkey]
    · simp [hkey]
  simp [apply, restart, setDbClusterRestart, hannotations]

structure Disjoint (e e' : Edit F V) : Prop where
  paused : e.paused = none ∨ e'.paused = none
  schedules : e.schedules = none ∨ e'.schedules = none
  others : ∀ field, e.others field = none ∨ e'.others field = none
  annotations : ∀ key, e.annotations key = none ∨ e'.annotations key = none

theorem Disjoint.symm {e e' : Edit F V} (h : e.Disjoint e') : e'.Disjoint e :=
  ⟨h.paused.symm, h.schedules.symm, fun field => (h.others field).symm,
    fun key => (h.annotations key).symm⟩

structure SpecIn (e : Edit F V) (tz : TimeZone) (spec : DbClusterSpec F V) : Prop where
  paused : ∀ paused, e.paused = some paused → spec.paused = some paused
  schedules : ∀ schedules, e.schedules = some schedules →
    spec.schedules = convertSchedules tz.toUtc schedules
  others : ∀ field v, e.others field = some v → spec.others field = v

def AnnotationsIn (e : Edit F V) (annotations : GoString → Option GoString) : Prop :=
  ∀ key v, e.annotations key = some v → annotations key = some v

structure StoredIn (e : Edit F V) (tz : TimeZone) (stored : StoredCluster F V) : Prop where
  spec : e.SpecIn tz stored.spec
  annotations : e.AnnotationsIn stored.annotations

def sent (e : Edit F V) (tz : TimeZone) (data : Versioned (StoredCluster F V)) :
    StoredCluster F V :=
  updateDbCluster tz (e.apply (mergeNewDbClusterData tz data))

theorem sent_spec (e : Edit F V) (tz : TimeZone) (data : Versioned (StoredCluster F V)) :
    e.SpecIn tz (e.sent tz data).spec := by
  refine ⟨fun paused h => ?_, fun schedules h => ?_, fun field v h => ?_⟩
  · simp [sent, updateDbCluster, apply, h]
  · simp [sent, updateDbCluster, apply, h]
  · simp [sent, updateDbCluster, apply, h]

theorem sent_annotations (e : Edit F V) (tz : TimeZone) (data : Versioned (StoredCluster F V)) :
    e.AnnotationsIn (e.sent tz data).annotations := by
  intro key v h
  simp [sent, updateDbCluster, apply, h]

/-- The edit sets no field of the spec to anything that a client in the time zone
`other`, sending back the spec unedited, would not send as well. -/
structure KeepsSpec (e : Edit F V) (tz other : TimeZone) (spec : DbClusterSpec F V) : Prop where
  paused : ∀ paused, e.paused = some paused → spec.paused = some paused
  schedules : ∀ schedules, e.schedules = some schedules →
    convertSchedules other.toUtc (convertSchedules other.toLocal spec.schedules) =
      convertSchedules tz.toUtc schedules
  others : ∀ field v, e.others field = some v → spec.others field = v

theorem pause_annotationsIn (paused : Bool) (annotations : GoString → Option GoString) :
    (pause paused : Edit F V).AnnotationsIn annotations := by
  intro key v h
  simp [pause] at h

theorem restart_keepsSpec (tz other : TimeZone) (spec : DbClusterSpec F V) :
    restart.KeepsSpec tz other spec := by
  refine ⟨fun paused h => ?_, fun schedules h => ?_, fun field v h => ?_⟩
  · simp [restart] at h
  · simp [restart] at h
  · simp [restart] at h

theorem specIn_sent_iff {e e' : Edit F V} (h : e.Disjoint e') (tz tz' : TimeZone)
    (data : Versioned (StoredCluster F V)) :
    e.SpecIn tz (e'.sent tz' data).spec ↔ e.KeepsSpec tz tz' data.value.spec := by
  have hpaused (paused : Bool) (he : e.paused = some paused) :
      (e'.sent tz' data).spec.paused = data.value.spec.paused := by
    have hnone : e'.paused = none := h.paused.resolve_left (by simp [he])
    simp [sent, updateDbCluster, apply, mergeNewDbClusterData, hnone]
  have hschedules (schedules : Option (List BackupSchedule)) (he : e.schedules = some schedules) :
      (e'.sent tz' data).spec.schedules =
        convertSchedules tz'.toUtc (convertSchedules tz'.toLocal data.value.spec.schedules) := by
    have hnone : e'.schedules = none := h.schedules.resolve_left (by simp [he])
    simp [sent, updateDbCluster, apply, mergeNewDbClusterData, hnone]
  have hothers (field : F) (v : V) (he : e.others field = some v) :
      (e'.sent tz' data).spec.others field = data.value.spec.others field := by
    have hnone : e'.others field = none := (h.others field).resolve_left (by simp [he])
    simp [sent, updateDbCluster, apply, mergeNewDbClusterData, hnone]
  constructor
  · intro hin
    refine ⟨fun paused he => ?_, fun schedules he => ?_, fun field v he => ?_⟩
    · exact (hpaused paused he).symm.trans (hin.paused paused he)
    · exact (hschedules schedules he).symm.trans (hin.schedules schedules he)
    · exact (hothers field v he).symm.trans (hin.others field v he)
  · intro hkeeps
    refine ⟨fun paused he => ?_, fun schedules he => ?_, fun field v he => ?_⟩
    · exact (hpaused paused he).trans (hkeeps.paused paused he)
    · exact (hschedules schedules he).trans (hkeeps.schedules schedules he)
    · exact (hothers field v he).trans (hkeeps.others field v he)

end Edit

end OpenEverest.Ui
