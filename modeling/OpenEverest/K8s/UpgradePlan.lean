import OpenEverest.Api.DatabaseCluster
import OpenEverest.Framework.Checks
import Mathlib.Data.List.Lex
import Mathlib.Data.List.Sort

/-!
# The upgrade plan

The Kubernetes layer computes the operator upgrades of a namespace: one for each
engine with a next version, and a task for each cluster of such an engine.
-/

namespace OpenEverest.K8s

open Framework GoString Api

inductive PendingTask where
  | notReady
  | ready
  | restart
  | upgradeEngine
  deriving DecidableEq

structure UpgradeTask where
  name : GoString
  pendingTask : PendingTask
  message : Option GoString
  deriving DecidableEq

structure Upgrade where
  currentVersion : GoString
  name : GoString
  targetVersion : GoString
  deriving DecidableEq

/-- `api.UpgradePlan`. A nil list reads as an empty one. -/
structure UpgradePlan where
  upgrades : Option (List Upgrade) := none
  pendingActions : Option (List UpgradeTask) := none
  deriving DecidableEq

def UpgradePlan.upgradeList (plan : UpgradePlan) : List Upgrade := plan.upgrades.getD []

inductive K8sError where
  | kube
  | versionService
  | invalidVersion
  | errDBEngineUpgradeUnavailable
  | errDBEngineInvalidTargetVersion
  | unsupportedEngineType (type : GoString)
  | noMinimumVersion (operator : GoString)
  | wrap (context : String) (e : K8sError)
  deriving DecidableEq

/-- The package `goversion`: parsing, the order, the first segment and the text of a version. -/
structure VersionLib (V : Type) where
  newSemver : GoString → Option V
  newVersion : GoString → Option V
  lessThan : V → V → Bool
  major : V → Int
  original : V → GoString

/-- What the handler reads: the cluster through its connector, the methods of the
engine status, and the version service. -/
structure K8sHandler (V : Type) where
  listDatabaseEngines : GoString → Except K8sError (List DatabaseEngine)
  listDatabaseClusters : GoString → Except K8sError (List DatabaseCluster)
  getNextUpgradeVersion : DatabaseEngineStatus → GoString
  getPendingUpgrade : DatabaseEngineStatus → GoString → Option PendingOperatorUpgrade
  goversion : VersionLib V
  getSupportedEngineVersions : GoString → GoString → Except K8sError (List GoString)

section Preflight

variable {V : Type} (h : K8sHandler V)

def validateOperatorUpgradeVersion (currentVersion targetVersion : GoString) :
    Except K8sError Unit :=
  match h.goversion.newSemver targetVersion with
  | none => .error .invalidVersion
  | some target =>
    match h.goversion.newSemver currentVersion with
    | none => .error .invalidVersion
    | some current =>
      -- `targetsv.LessThanOrEqual(currentsv)`
      if h.goversion.lessThan current target then .ok ()
      else .error .errDBEngineInvalidTargetVersion

def minSupportedMajVersion (current : V) : Option V → List GoString → Except K8sError (Option V)
  | min, [] => .ok min
  | min, supportedVersion :: rest =>
    match h.goversion.newVersion supportedVersion with
    | none => .error .invalidVersion
    | some ver =>
      if h.goversion.major ver < h.goversion.major current then
        minSupportedMajVersion current min rest
      else
        match min with
        | none => minSupportedMajVersion current (some ver) rest
        | some m =>
          minSupportedMajVersion current (some (if h.goversion.lessThan ver m then ver else m)) rest

def preflightCheckDBEngineVersion (database : DatabaseCluster) (engine : DatabaseEngine)
    (targetVersion : GoString) : Except K8sError (Bool × GoString) :=
  match engineTypeToOperatorName engine.type with
  | none => .error (.unsupportedEngineType engine.type)
  | some operator => do
    let allSupportedVersions ← h.getSupportedEngineVersions operator targetVersion
    match h.goversion.newVersion database.spec.engine.version with
    | none => .error .invalidVersion
    | some currentVersion =>
      match ← minSupportedMajVersion h currentVersion none allSupportedVersions with
      | none => .error (.noMinimumVersion operator)
      | some min => .ok (!h.goversion.lessThan currentVersion min, h.goversion.original min)

def getUpgradePreflightCheckResultForDatabase (database : DatabaseCluster)
    (engine : DatabaseEngine) (targetVersion : GoString) : Except K8sError UpgradeTask :=
  match preflightCheckDBEngineVersion h database engine targetVersion with
  | .error e => .error (.wrap "failed to validate database engine version for operator upgrade" e)
  | .ok (false, minReqVer) =>
    .ok ⟨database.name, .upgradeEngine,
      some (ascii "Upgrade DB version to " ++ minReqVer ++ ascii " or higher")⟩
  | .ok (true, _) =>
    match database.status.recommendedCRVersion with
    | some recCRVersion =>
      .ok ⟨database.name, .restart, some (ascii "Update CRVersion to " ++ recCRVersion)⟩
    | none =>
      if database.status.status ≠ ascii "ready" then
        .ok ⟨database.name, .notReady, some (ascii "Database is not ready")⟩
      else .ok ⟨database.name, .ready, none⟩

def getUpgradePreflightChecksResult (dbs : List DatabaseCluster) (engine : DatabaseEngine)
    (targetVersion : GoString) : Except K8sError (List UpgradeTask) :=
  match h.getPendingUpgrade engine.status targetVersion with
  | none => .error .errDBEngineUpgradeUnavailable
  | some _ => do
    let dbResults ← dbs.mapM fun db =>
      getUpgradePreflightCheckResultForDatabase h db engine targetVersion
    .ok (dbResults.insertionSort fun a b => a.name ≤ b.name)

def getOperatorUpgradePreflight (targetVersion : GoString) (engine : DatabaseEngine) :
    Except K8sError (List UpgradeTask) := do
  let databases ← h.listDatabaseClusters engine.namespaceName
  let databases := databases.filter fun db => db.spec.engine.type = engine.type
  validateOperatorUpgradeVersion h engine.status.operatorVersion targetVersion
  match getUpgradePreflightChecksResult h databases engine targetVersion with
  | .error e => .error (.wrap "failed to run preflight checks" e)
  | .ok result => .ok result

end Preflight

section Plan

variable {V : Type} (h : K8sHandler V)

/-- The loop of `getUpgradePlan`: an engine without a next version is passed over. -/
def planEngines : List DatabaseEngine → Except K8sError (List Upgrade × List UpgradeTask)
  | [] => .ok ([], [])
  | engine :: engines =>
    let nextVersion := h.getNextUpgradeVersion engine.status
    if nextVersion = [] then planEngines engines
    else do
      let databases ← getOperatorUpgradePreflight h nextVersion engine
      let (upgrades, pendingActions) ← planEngines engines
      .ok (⟨engine.status.operatorVersion, engine.name, nextVersion⟩ :: upgrades,
        databases ++ pendingActions)

def getUpgradePlan (namespaceName : GoString) : Except K8sError UpgradePlan := do
  let engines ← h.listDatabaseEngines namespaceName
  let (upgrades, pendingActions) ← planEngines h engines
  .ok ⟨some upgrades, some pendingActions⟩

def postUpgradeTask (cluster : DatabaseCluster) : UpgradeTask :=
  match cluster.status.recommendedCRVersion with
  | none => ⟨cluster.name, .ready, none⟩
  | some recVer =>
    ⟨cluster.name, .restart,
      some (ascii "Database needs restart to use CRVersion '" ++ recVer ++ ascii "'")⟩

def getDBPostUpgradeTasks (engine : DatabaseEngine) : Except K8sError (List UpgradeTask) := do
  let clusters ← h.listDatabaseClusters engine.namespaceName
  .ok ((clusters.filter fun cluster => cluster.spec.engine.type = engine.type).map postUpgradeTask)

/-- `GetUpgradePlan`: without upgrades, the tasks left from the last one. -/
def handlerGetUpgradePlan (namespaceName : GoString) : Except K8sError UpgradePlan :=
  match getUpgradePlan h namespaceName with
  | .error e => .error (.wrap "failed to getUpgradePlan" e)
  | .ok result =>
    if result.upgradeList.length = 0 then do
      let engines ← h.listDatabaseEngines namespaceName
      let tasks ← engines.mapM (getDBPostUpgradeTasks h)
      .ok { result with pendingActions := some tasks.flatten }
    else .ok result

end Plan

section Engines

variable {V : Type} {h : K8sHandler V}

theorem handlerGetUpgradePlan_upgrades {namespaceName : GoString} {shown : UpgradePlan}
    (hshown : handlerGetUpgradePlan h namespaceName = .ok shown) :
    ∃ plan, getUpgradePlan h namespaceName = .ok plan ∧ shown.upgrades = plan.upgrades := by
  unfold handlerGetUpgradePlan at hshown
  cases hplan : getUpgradePlan h namespaceName with
  | error e => simp [hplan] at hshown
  | ok plan =>
    refine ⟨plan, rfl, ?_⟩
    simp only [hplan] at hshown
    split at hshown
    · obtain ⟨engines, -, hshown⟩ := (bind_eq_ok ..).mp hshown
      obtain ⟨tasks, -, hshown⟩ := (bind_eq_ok ..).mp hshown
      obtain rfl := Except.ok.inj hshown
      rfl
    · obtain rfl := Except.ok.inj hshown
      rfl

theorem handlerGetUpgradePlan_upgradeList {namespaceName : GoString} {shown : UpgradePlan}
    (hshown : handlerGetUpgradePlan h namespaceName = .ok shown) :
    ∃ plan, getUpgradePlan h namespaceName = .ok plan ∧ shown.upgradeList = plan.upgradeList := by
  obtain ⟨plan, hplan, hsame⟩ := handlerGetUpgradePlan_upgrades hshown
  exact ⟨plan, hplan, by simp only [UpgradePlan.upgradeList, hsame]⟩

theorem handlerGetUpgradePlan_of_upgrades {namespaceName : GoString} {plan : UpgradePlan}
    (hplan : getUpgradePlan h namespaceName = .ok plan) (hne : plan.upgradeList ≠ []) :
    handlerGetUpgradePlan h namespaceName = .ok plan := by
  have hlength : ¬ plan.upgradeList.length = 0 := by simpa using hne
  simp only [handlerGetUpgradePlan, hplan, if_neg hlength]

end Engines

def sampleVersions : VersionLib Nat :=
  { newSemver := parseUint
    newVersion := parseUint
    lessThan := fun a b => decide (a < b)
    major := fun a => a
    original := decimal }

/-- A namespace `ns` with one engine `pxc` at version 1, to be upgraded to 2, and no cluster. -/
def sampleHandler : K8sHandler Nat :=
  { listDatabaseEngines := fun _ =>
      .ok [⟨ascii "ns", ascii "pxc", databaseEnginePXC,
        ⟨ascii "1", [⟨ascii "2", ascii "install"⟩]⟩⟩]
    listDatabaseClusters := fun _ => .ok []
    getNextUpgradeVersion := fun status =>
      ((status.pendingOperatorUpgrades.head?).map (·.targetVersion)).getD []
    getPendingUpgrade := fun status target =>
      status.pendingOperatorUpgrades.find? fun upgrade => upgrade.targetVersion = target
    goversion := sampleVersions
    getSupportedEngineVersions := fun _ _ => .ok [] }

end OpenEverest.K8s
