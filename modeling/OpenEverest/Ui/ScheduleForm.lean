import OpenEverest.Framework.JsArray
import OpenEverest.Framework.JsNumber
import OpenEverest.Ui.DbType
import OpenEverest.Ui.DbVersion
import OpenEverest.Ui.TimeSelection

/-!
# Saving a schedule

What the form for a schedule is saved as is a whole cluster. A new schedule goes into a copy of the
schedules; an edited one is written into the array that the cluster came with.
-/

namespace OpenEverest.Ui.ScheduleForm

open Framework JsString

structure Schedule where
  enabled : Bool
  name : JsString
  backupStorageName : JsString
  retentionCopies : Option JsNumber
  schedule : GoString
  deriving DecidableEq

structure PITR where
  enabled : Option Bool
  backupStorageName : Option JsString

structure Backup where
  pitr : Option PITR
  schedules : Option (JsArray Schedule)

/-- The other fields of the spec are of any kind, and so is the metadata. -/
structure Spec (R : Type) where
  engineType : DbEngineType
  backup : Option Backup
  rest : R

structure DbCluster (M R S : Type) where
  apiVersion : JsString
  kind : JsString
  metadata : M
  spec : Spec R
  status : Option S

inductive StorageLocation where
  | text (name : JsString)
  | object (name : JsString)

def StorageLocation.backupStorageName : StorageLocation → JsString
  | .text name => name
  | .object name => name

/-- The fields of the form; those for the time are of any type. -/
structure ScheduleFormData (T : Type) where
  scheduleName : JsString
  storageLocation : Option StorageLocation
  retentionCopies : JsString
  time : T

namespace DbCluster

variable {M R S : Type} (dbCluster : DbCluster M R S)

def schedulesArray : Option (JsArray Schedule) := dbCluster.spec.backup.bind Backup.schedules

def schedules : List Schedule := (dbCluster.schedulesArray.map JsArray.elements).getD []

def pitr : Option PITR := dbCluster.spec.backup.bind Backup.pitr

/-- `pitr?.backupStorageName || ''`. -/
def pitrStorage : JsString := (dbCluster.pitr.bind PITR.backupStorageName).getD []

/-- `!!pitr?.enabled`. -/
def pitrEnabled : Bool := (dbCluster.pitr.bind PITR.enabled).getD false

def withArray (array : JsArray Schedule) : DbCluster M R S :=
  { dbCluster with
    spec := { dbCluster.spec with
      backup := dbCluster.spec.backup.map fun backup => { backup with schedules := some array } } }

end DbCluster

section Payload

variable (round : ℚ → JsNumber) {T M R S : Type} (getCronExpressionFromFormValues : T → GoString)

def scheduleAt (dbPayload : ScheduleFormData T) (storageLocation : StorageLocation) : Schedule where
  enabled := true
  name := dbPayload.scheduleName
  retentionCopies := some (parseInt round dbPayload.retentionCopies)
  backupStorageName := storageLocation.backupStorageName
  schedule := getCronExpressionFromFormValues dbPayload.time

/-- The schedule of the form; without a storage location its name is read of `null`. -/
def scheduleOf (dbPayload : ScheduleFormData T) : Except TypeError Schedule :=
  match dbPayload.storageLocation with
  | none => .error (.reading (js "name"))
  | some storageLocation =>
    .ok (scheduleAt round getCronExpressionFromFormValues dbPayload storageLocation)

def payloadOf (dbCluster : DbCluster M R S) (schedulesPayload : JsArray Schedule) :
    DbCluster M R S where
  apiVersion := js "everest.percona.com/v1alpha1"
  kind := js "DatabaseCluster"
  metadata := dbCluster.metadata
  spec := { dbCluster.spec with
    backup := some
      { pitr := some
          { backupStorageName := some dbCluster.pitrStorage
            enabled := some (if dbCluster.spec.engineType = .postgresql then
                decide (schedulesPayload.elements.length > 0)
              else dbCluster.pitrEnabled) }
        schedules := if schedulesPayload.elements.length > 0 then some schedulesPayload
          else none } }
  status := none

def editedScheduleIndex (scheduleName : JsString) (schedules : List Schedule) :
    Except TypeError (Option Nat) :=
  findIndex (fun item => .ok (decide (item.name = scheduleName))) schedules

/-- What is returned, and the cluster that was given as it is afterwards. -/
def backupScheduleFormValuesToDbClusterPayload (dbPayload : ScheduleFormData T)
    (dbCluster : DbCluster M R S) :
    WizardMode → Except TypeError (DbCluster M R S × DbCluster M R S)
  | .new => do
    let schedule ← scheduleOf round getCronExpressionFromFormValues dbPayload
    return (payloadOf dbCluster ⟨dbCluster.schedules ++ [schedule], none⟩, dbCluster)
  | .edit => do
    let index ← editedScheduleIndex dbPayload.scheduleName dbCluster.schedules
    let schedule ← scheduleOf round getCronExpressionFromFormValues dbPayload
    match dbCluster.schedulesArray with
    -- `schedules || []` is an array of its own.
    | none => return (payloadOf dbCluster (JsArray.write ⟨[], none⟩ index schedule), dbCluster)
    | some schedulesArray =>
      let written := schedulesArray.write index schedule
      return (payloadOf dbCluster written, dbCluster.withArray written)
  | .restore => return (payloadOf dbCluster ⟨[], none⟩, dbCluster)

/-- The schedules of the form when a cluster is created; the array that is written to is a copy. -/
def getSchedulesPayload (formData : ScheduleFormData T) (schedules : Option (JsArray Schedule)) :
    WizardMode → Except TypeError (JsArray Schedule)
  | .new => do
    let schedule ← scheduleOf round getCronExpressionFromFormValues formData
    return ⟨(schedules.map JsArray.elements).getD [] ++ [schedule], none⟩
  | .edit =>
    match schedules with
    | none => .ok ⟨[], none⟩
    | some schedules => do
      let index ← editedScheduleIndex formData.scheduleName schedules.elements
      let schedule ← scheduleOf round getCronExpressionFromFormValues formData
      return JsArray.write ⟨schedules.elements, none⟩ index schedule
  | .restore => .ok ⟨[], none⟩

/-- The schedule has the name, the time, the storage and the retention of the form. -/
structure ScheduleFormData.Describes (dbPayload : ScheduleFormData T) (s : Schedule) : Prop where
  name : s.name = dbPayload.scheduleName
  schedule : s.schedule = getCronExpressionFromFormValues dbPayload.time
  backupStorageName : ∃ storageLocation ∈ dbPayload.storageLocation,
    s.backupStorageName = storageLocation.backupStorageName
  retentionCopies : s.retentionCopies = some (parseInt round dbPayload.retentionCopies)

/-- Nothing but the schedules differs; PITR is read with the values that stand for absent ones,
and is on for PostgreSQL while there are schedules. -/
structure KeepsRest (dbCluster result : DbCluster M R S) : Prop where
  metadata : result.metadata = dbCluster.metadata
  engineType : result.spec.engineType = dbCluster.spec.engineType
  rest : result.spec.rest = dbCluster.spec.rest
  pitrStorage : result.pitrStorage = dbCluster.pitrStorage
  pitrEnabled : result.pitrEnabled =
    if dbCluster.spec.engineType = .postgresql then decide (result.schedules ≠ [])
    else dbCluster.pitrEnabled

variable (dbPayload : ScheduleFormData T) (dbCluster : DbCluster M R S)

/-- In new mode one schedule is appended, and the given cluster stays as it is. -/
def Appends : Prop :=
  ∃ result s, backupScheduleFormValuesToDbClusterPayload round getCronExpressionFromFormValues
      dbPayload dbCluster .new = .ok (result, dbCluster) ∧
    KeepsRest dbCluster result ∧
    dbPayload.Describes round getCronExpressionFromFormValues s ∧ s.enabled = true ∧
    result.schedules = dbCluster.schedules ++ [s]

def Named (name : JsString) (schedules before : List Schedule) (s : Schedule)
    (after : List Schedule) : Prop :=
  schedules = before ++ s :: after ∧ (∀ b ∈ before, b.name ≠ name) ∧ s.name = name

/-- In edit mode the schedule of the name is replaced but for its flag; or, if there is none, the
edit is in the result nonetheless. -/
def Replaces : Prop :=
  ∃ result given s', backupScheduleFormValuesToDbClusterPayload round
      getCronExpressionFromFormValues dbPayload dbCluster .edit = .ok (result, given) ∧
    KeepsRest dbCluster result ∧
    dbPayload.Describes round getCronExpressionFromFormValues s' ∧
    ((∃ before s after, Named dbPayload.scheduleName dbCluster.schedules before s after ∧
        s'.enabled = s.enabled ∧ result.schedules = before ++ s' :: after) ∨
      (∀ s ∈ dbCluster.schedules, s.name ≠ dbPayload.scheduleName) ∧ s' ∈ result.schedules)

/-- In edit mode the given cluster stays as it is. -/
def LeavesUnmodified : Prop :=
  ∃ result, backupScheduleFormValuesToDbClusterPayload round getCronExpressionFromFormValues
    dbPayload dbCluster .edit = .ok (result, dbCluster)

def WritesNothing (array : JsArray Schedule) (s : Schedule) : Prop :=
  (∃ before after, Named s.name array.elements before s after) ∨
    (∀ b ∈ array.elements, b.name ≠ s.name) ∧ array.minusOne = some s

end Payload

section Rest

variable {M R S : Type} (dbCluster : DbCluster M R S)

theorem payloadOf_schedules (schedulesPayload : JsArray Schedule) :
    (payloadOf dbCluster schedulesPayload).schedules = schedulesPayload.elements := by
  obtain ⟨elements, minusOne⟩ := schedulesPayload
  cases elements <;> rfl

theorem payloadOf_keepsRest (schedulesPayload : JsArray Schedule) :
    KeepsRest dbCluster (payloadOf dbCluster schedulesPayload) := by
  refine ⟨rfl, rfl, rfl, rfl, ?_⟩
  rw [payloadOf_schedules]
  have henabled : (payloadOf dbCluster schedulesPayload).pitrEnabled =
      if dbCluster.spec.engineType = .postgresql then
        decide (schedulesPayload.elements.length > 0)
      else dbCluster.pitrEnabled := rfl
  rw [henabled]
  simp only [gt_iff_lt, List.length_pos_iff]

theorem withArray_eq_self_iff {array : JsArray Schedule}
    (harray : dbCluster.schedulesArray = some array) (written : JsArray Schedule) :
    dbCluster.withArray written = dbCluster ↔ written = array := by
  obtain ⟨apiVersion, kind, metadata, ⟨engineType, backup, rest⟩, status⟩ := dbCluster
  cases backup with
  | none => cases harray
  | some backup =>
    obtain ⟨pitr, schedules⟩ := backup
    obtain rfl : schedules = some array := harray
    simp [DbCluster.withArray]

end Rest

theorem editedScheduleIndex_none {name : JsString} {schedules : List Schedule}
    (h : ∀ s ∈ schedules, s.name ≠ name) : editedScheduleIndex name schedules = .ok none :=
  findIndex_eq_none fun s hs => by rw [decide_eq_false (h s hs)]

theorem editedScheduleIndex_named {name : JsString} {schedules before after : List Schedule}
    {s : Schedule} (h : Named name schedules before s after) :
    editedScheduleIndex name schedules = .ok (some before.length) := by
  obtain ⟨rfl, hbefore, hs⟩ := h
  exact findIndex_found (fun b hb => by rw [decide_eq_false (hbefore b hb)])
    (by rw [decide_eq_true hs])

theorem named_or_missing (name : JsString) (schedules : List Schedule) :
    (∀ s ∈ schedules, s.name ≠ name) ∨ ∃ before s after, Named name schedules before s after := by
  rcases findIndex_cases (fun s : Schedule => decide (s.name = name)) schedules with
    hmissing | ⟨before, s, after, hschedules, hbefore, hs⟩
  · exact .inl fun s hs => of_decide_eq_false (hmissing s hs)
  · exact .inr ⟨before, s, after, hschedules, fun b hb => of_decide_eq_false (hbefore b hb),
      of_decide_eq_true hs⟩

theorem Named.unique {name : JsString} {schedules before before' after after' : List Schedule}
    {s s' : Schedule} (h : Named name schedules before s after)
    (h' : Named name schedules before' s' after') : before = before' ∧ s = s' ∧ after = after' :=
  first_unique (h.1.symm.trans h'.1) (fun b hb => decide_eq_false (h.2.1 b hb))
    (decide_eq_true h.2.2) (fun b hb => decide_eq_false (h'.2.1 b hb)) (decide_eq_true h'.2.2)

theorem Named.not_missing {name : JsString} {schedules before after : List Schedule} {s : Schedule}
    (h : Named name schedules before s after) : ¬ ∀ s ∈ schedules, s.name ≠ name := by
  intro hmissing
  exact hmissing s (by rw [h.1]; simp) h.2.2

section Results

variable {round : ℚ → JsNumber} {T M R S : Type} {getCronExpressionFromFormValues : T → GoString}
  {dbPayload : ScheduleFormData T} {dbCluster : DbCluster M R S}

theorem schedules_of_array {array : JsArray Schedule}
    (h : dbCluster.schedulesArray = some array) : dbCluster.schedules = array.elements := by
  rw [DbCluster.schedules, h]
  rfl

theorem schedules_of_none (h : dbCluster.schedulesArray = none) : dbCluster.schedules = [] := by
  rw [DbCluster.schedules, h]
  rfl

theorem storageLocation_of_ok {mode : WizardMode} {returned : DbCluster M R S × DbCluster M R S}
    (h : backupScheduleFormValuesToDbClusterPayload round getCronExpressionFromFormValues dbPayload
      dbCluster mode = .ok returned) (hmode : mode ≠ .restore) :
    ∃ storageLocation, dbPayload.storageLocation = some storageLocation := by
  cases hstorage : dbPayload.storageLocation with
  | some storageLocation => exact ⟨storageLocation, rfl⟩
  | none =>
    have hschedule : scheduleOf round getCronExpressionFromFormValues dbPayload =
        .error (.reading (js "name")) := by
      rw [scheduleOf, hstorage]
    cases mode with
    | new =>
      rw [backupScheduleFormValuesToDbClusterPayload, hschedule] at h
      cases h
    | edit =>
      rw [backupScheduleFormValuesToDbClusterPayload, hschedule] at h
      cases hindex : editedScheduleIndex dbPayload.scheduleName dbCluster.schedules <;>
        (rw [hindex] at h; cases h)
    | restore => exact absurd rfl hmode

theorem scheduleOf_eq {storageLocation : StorageLocation}
    (hstorage : dbPayload.storageLocation = some storageLocation) :
    scheduleOf round getCronExpressionFromFormValues dbPayload =
      .ok (scheduleAt round getCronExpressionFromFormValues dbPayload storageLocation) := by
  rw [scheduleOf, hstorage]

theorem scheduleAt_describes {storageLocation : StorageLocation}
    (hstorage : dbPayload.storageLocation = some storageLocation) :
    dbPayload.Describes round getCronExpressionFromFormValues
      (scheduleAt round getCronExpressionFromFormValues dbPayload storageLocation) :=
  ⟨rfl, rfl, ⟨storageLocation, hstorage, rfl⟩, rfl⟩

theorem getSchedulesPayload_elements {storageLocation : StorageLocation}
    (hstorage : dbPayload.storageLocation = some storageLocation) (mode : WizardMode) :
    (backupScheduleFormValuesToDbClusterPayload round getCronExpressionFromFormValues dbPayload
        dbCluster mode).map (fun returned => returned.1.schedules) =
      (getSchedulesPayload round getCronExpressionFromFormValues dbPayload
        dbCluster.schedulesArray mode).map JsArray.elements := by
  cases mode with
  | restore => rfl
  | new =>
    rw [backupScheduleFormValuesToDbClusterPayload, getSchedulesPayload, scheduleOf_eq hstorage]
    exact congrArg Except.ok (payloadOf_schedules _ _)
  | edit =>
    rw [backupScheduleFormValuesToDbClusterPayload, scheduleOf_eq hstorage]
    cases harray : dbCluster.schedulesArray with
    | none =>
      rw [schedules_of_none harray]
      exact congrArg Except.ok (payloadOf_schedules _ _)
    | some array =>
      rw [schedules_of_array harray, getSchedulesPayload, scheduleOf_eq hstorage]
      cases editedScheduleIndex dbPayload.scheduleName array.elements with
      | error e => rfl
      | ok index =>
        refine congrArg Except.ok ((payloadOf_schedules _ _).trans ?_)
        cases index <;> rfl

theorem appends_iff :
    Appends round getCronExpressionFromFormValues dbPayload dbCluster ↔
      dbPayload.storageLocation ≠ none := by
  constructor
  · rintro ⟨result, s, hok, -⟩
    obtain ⟨storageLocation, hstorage⟩ := storageLocation_of_ok hok nofun
    rw [hstorage]
    nofun
  · intro h
    obtain ⟨storageLocation, hstorage⟩ := Option.ne_none_iff_exists'.mp h
    have hok : backupScheduleFormValuesToDbClusterPayload round getCronExpressionFromFormValues
        dbPayload dbCluster .new = .ok (payloadOf dbCluster ⟨dbCluster.schedules ++
          [scheduleAt round getCronExpressionFromFormValues dbPayload storageLocation], none⟩,
            dbCluster) := by
      rw [backupScheduleFormValuesToDbClusterPayload, scheduleOf_eq hstorage]
      rfl
    exact ⟨_, _, hok, payloadOf_keepsRest _ _, scheduleAt_describes hstorage, rfl,
      payloadOf_schedules _ _⟩

variable (round getCronExpressionFromFormValues) in
theorem edit_missing {storageLocation : StorageLocation}
    (hstorage : dbPayload.storageLocation = some storageLocation)
    (hmissing : ∀ s ∈ dbCluster.schedules, s.name ≠ dbPayload.scheduleName) :
    ∃ result given, backupScheduleFormValuesToDbClusterPayload round
        getCronExpressionFromFormValues dbPayload dbCluster .edit = .ok (result, given) ∧
      result.schedules = dbCluster.schedules ∧
      (given = dbCluster ↔ ∀ array ∈ dbCluster.schedulesArray,
        array.minusOne = some (scheduleAt round getCronExpressionFromFormValues dbPayload
          storageLocation)) := by
  rw [backupScheduleFormValuesToDbClusterPayload, editedScheduleIndex_none hmissing,
    scheduleOf_eq hstorage]
  cases harray : dbCluster.schedulesArray with
  | none =>
    refine ⟨_, _, rfl, ?_, by simp⟩
    rw [payloadOf_schedules, schedules_of_none harray]
    rfl
  | some array =>
    refine ⟨_, _, rfl, ?_, ?_⟩
    · rw [payloadOf_schedules, schedules_of_array harray]
      rfl
    · rw [withArray_eq_self_iff dbCluster harray, JsArray.write_minusOne_eq_self_iff]
      simp

variable (round getCronExpressionFromFormValues) in
theorem edit_named {storageLocation : StorageLocation}
    (hstorage : dbPayload.storageLocation = some storageLocation)
    {before after : List Schedule} {s : Schedule}
    (hnamed : Named dbPayload.scheduleName dbCluster.schedules before s after) :
    ∃ result given, backupScheduleFormValuesToDbClusterPayload round
        getCronExpressionFromFormValues dbPayload dbCluster .edit = .ok (result, given) ∧
      KeepsRest dbCluster result ∧
      result.schedules = before ++
        scheduleAt round getCronExpressionFromFormValues dbPayload storageLocation :: after ∧
      (given = dbCluster ↔
        s = scheduleAt round getCronExpressionFromFormValues dbPayload storageLocation) := by
  rw [backupScheduleFormValuesToDbClusterPayload, editedScheduleIndex_named hnamed,
    scheduleOf_eq hstorage]
  cases harray : dbCluster.schedulesArray with
  | none =>
    have hnil := hnamed.1.symm.trans (schedules_of_none harray)
    exact absurd hnil (by simp)
  | some array =>
    have helements := (schedules_of_array harray).symm.trans hnamed.1
    refine ⟨_, _, rfl, payloadOf_keepsRest _ _, ?_, ?_⟩
    · rw [payloadOf_schedules, array.write_elements helements]
    · rw [withArray_eq_self_iff dbCluster harray, array.write_eq_self_iff helements]

theorem replaces_iff :
    Replaces round getCronExpressionFromFormValues dbPayload dbCluster ↔
      dbPayload.storageLocation ≠ none ∧
        ∃ before s after, Named dbPayload.scheduleName dbCluster.schedules before s after ∧
          s.enabled = true := by
  constructor
  · rintro ⟨result, given, s', hok, -, hdescribes, hreplaced⟩
    obtain ⟨storageLocation, hstorage⟩ := storageLocation_of_ok hok nofun
    refine ⟨by rw [hstorage]; nofun, ?_⟩
    rcases hreplaced with ⟨before, s, after, hnamed, henabled, hschedules⟩ | ⟨hmissing, hmem⟩
    · obtain ⟨result', given', hok', -, hschedules', -⟩ :=
        edit_named round getCronExpressionFromFormValues hstorage hnamed
      obtain ⟨rfl, rfl⟩ := Prod.mk.inj (Except.ok.inj (hok.symm.trans hok'))
      have hcons := List.append_cancel_left (hschedules.symm.trans hschedules')
      obtain ⟨rfl, -⟩ := List.cons.inj hcons
      exact ⟨before, s, after, hnamed, henabled.symm⟩
    · obtain ⟨result', given', hok', hschedules', -⟩ :=
        edit_missing round getCronExpressionFromFormValues hstorage hmissing
      obtain ⟨rfl, rfl⟩ := Prod.mk.inj (Except.ok.inj (hok.symm.trans hok'))
      exact absurd hdescribes.name (hmissing s' (hschedules' ▸ hmem))
  · rintro ⟨hstorage, before, s, after, hnamed, henabled⟩
    obtain ⟨storageLocation, hstorage⟩ := Option.ne_none_iff_exists'.mp hstorage
    obtain ⟨result, given, hok, hkeeps, hschedules, -⟩ :=
      edit_named round getCronExpressionFromFormValues hstorage hnamed
    exact ⟨result, given, _, hok, hkeeps, scheduleAt_describes hstorage,
      .inl ⟨before, s, after, hnamed, henabled.symm, hschedules⟩⟩

theorem leavesUnmodified_iff :
    LeavesUnmodified round getCronExpressionFromFormValues dbPayload dbCluster ↔
      ∃ storageLocation ∈ dbPayload.storageLocation, ∀ array ∈ dbCluster.schedulesArray,
        WritesNothing array
          (scheduleAt round getCronExpressionFromFormValues dbPayload storageLocation) := by
  constructor
  · rintro ⟨result, hok⟩
    obtain ⟨storageLocation, hstorage⟩ := storageLocation_of_ok hok nofun
    refine ⟨storageLocation, hstorage, fun array harray => ?_⟩
    have helements := schedules_of_array harray
    rcases named_or_missing dbPayload.scheduleName dbCluster.schedules with
      hmissing | ⟨before, s, after, hnamed⟩
    · obtain ⟨result', given', hok', -, hgiven⟩ :=
        edit_missing round getCronExpressionFromFormValues hstorage hmissing
      obtain ⟨rfl, rfl⟩ := Prod.mk.inj (Except.ok.inj (hok.symm.trans hok'))
      exact .inr ⟨helements ▸ hmissing, hgiven.mp rfl array harray⟩
    · obtain ⟨result', given', hok', -, -, hgiven⟩ :=
        edit_named round getCronExpressionFromFormValues hstorage hnamed
      obtain ⟨rfl, rfl⟩ := Prod.mk.inj (Except.ok.inj (hok.symm.trans hok'))
      obtain rfl := hgiven.mp rfl
      exact .inl ⟨before, after, helements ▸ hnamed⟩
  · rintro ⟨storageLocation, hstorage, hwrites⟩
    rcases named_or_missing dbPayload.scheduleName dbCluster.schedules with
      hmissing | ⟨before, s, after, hnamed⟩
    · obtain ⟨result, given, hok, -, hgiven⟩ :=
        edit_missing round getCronExpressionFromFormValues hstorage hmissing
      have hsame : given = dbCluster := by
        refine hgiven.mpr fun array harray => ?_
        rcases hwrites array harray with ⟨before, after, hnamed⟩ | ⟨-, hminusOne⟩
        · exact absurd (schedules_of_array harray ▸ hmissing) hnamed.not_missing
        · exact hminusOne
      exact ⟨result, hsame ▸ hok⟩
    · obtain ⟨result, given, hok, -, -, hgiven⟩ :=
        edit_named round getCronExpressionFromFormValues hstorage hnamed
      have hsame : given = dbCluster := by
        refine hgiven.mpr ?_
        cases harray : dbCluster.schedulesArray with
        | none => exact absurd (schedules_of_none harray ▸ hnamed.1) (by simp)
        | some array =>
          have hnamedArray := schedules_of_array harray ▸ hnamed
          rcases hwrites array harray with ⟨before', after', hnamed'⟩ | ⟨hmissing, -⟩
          · exact (hnamedArray.unique hnamed').2.1
          · exact absurd hmissing hnamedArray.not_missing
      exact ⟨result, hsame ▸ hok⟩

/-- A new schedule is appended as it should be wherever a storage location is given. An edit is
returned as it should be if and only if the named schedule is there and enabled, and the cluster
it is made in stays as it was if and only if there is no array or nothing new is written to it. -/
theorem saved_iff (round : ℚ → JsNumber) (getCronExpressionFromFormValues : T → GoString)
    (dbPayload : ScheduleFormData T) (dbCluster : DbCluster M R S) :
    (Appends round getCronExpressionFromFormValues dbPayload dbCluster ↔
      dbPayload.storageLocation ≠ none) ∧
    (Replaces round getCronExpressionFromFormValues dbPayload dbCluster ↔
      dbPayload.storageLocation ≠ none ∧
        ∃ before s after, Named dbPayload.scheduleName dbCluster.schedules before s after ∧
          s.enabled = true) ∧
    (LeavesUnmodified round getCronExpressionFromFormValues dbPayload dbCluster ↔
      ∃ storageLocation ∈ dbPayload.storageLocation, ∀ array ∈ dbCluster.schedulesArray,
        WritesNothing array
          (scheduleAt round getCronExpressionFromFormValues dbPayload storageLocation)) :=
  ⟨appends_iff, replaces_iff, leavesUnmodified_iff⟩

end Results

def hourlyForm (scheduleName : JsString) : ScheduleFormData TimeProps where
  scheduleName
  storageLocation := some (.object (js "s3"))
  retentionCopies := js "2"
  time :=
    { selectedTime := .hours, minute := 5, hour := 1, amPm := .AM, onDay := 1, weekDay := .Su
      minute_offered := by decide, hour_offered := by decide, onDay_offered := by decide }

def disabledCluster : DbCluster Unit Unit Unit where
  apiVersion := js "everest.percona.com/v1alpha1"
  kind := js "DatabaseCluster"
  metadata := ()
  spec :=
    { engineType := .pxc, rest := ()
      backup := some ⟨none, some ⟨[⟨false, js "nightly", js "s3", none, ascii "0 1 * * *"⟩], none⟩⟩ }
  status := none

/-- Editing the schedule enables it, also in the given cluster; an edit of another name is lost. -/
theorem edit_enables_and_loses :
    (backupScheduleFormValuesToDbClusterPayload .finite
        (TimeProps.getCronExpressionFromFormValues · TimeProps.sampleCronTime) (hourlyForm (js "nightly")) disabledCluster
        .edit).map (fun returned => (returned.1.schedules.map Schedule.enabled,
          returned.2.schedules.map Schedule.enabled)) = .ok ([true], [true]) ∧
      disabledCluster.schedules.map Schedule.enabled = [false] ∧
    (backupScheduleFormValuesToDbClusterPayload .finite
        (TimeProps.getCronExpressionFromFormValues · TimeProps.sampleCronTime) (hourlyForm (js "weekly")) disabledCluster
        .edit).map (fun returned => returned.1.schedules) = .ok disabledCluster.schedules :=
  ⟨rfl, rfl, rfl⟩

end OpenEverest.Ui.ScheduleForm
