import OpenEverest.Cli.Spinner
import OpenEverest.Framework.Checks

/-!
# Removing namespaces

`namespaces remove` deletes the database clusters, the backup storages and the monitoring
configs of each namespace, waits until each kind is gone, and then removes the release and the
namespace. Controllers and other clients go on changing the Kubernetes cluster meanwhile.
-/

namespace OpenEverest.Cli

open Framework GoString

/-- The characters above ASCII that `unicode.IsSpace` knows, in UTF-8. -/
def wideSpaces : List GoString :=
  [[0xC2, 0x85], [0xC2, 0xA0], [0xE1, 0x9A, 0x80], [0xE2, 0x80, 0xA8], [0xE2, 0x80, 0xA9],
    [0xE2, 0x80, 0xAF], [0xE2, 0x81, 0x9F], [0xE3, 0x80, 0x80]] ++
    (List.range 11).map fun n => [0xE2, 0x80, (0x80 + n).toUInt8]

/-- Spaces of the list in front; the fuel is the length of the text. -/
def trimLeft (spaces : List GoString) : Nat → GoString → GoString
  | 0, s => s
  | n + 1, s =>
    match spaces.find? (·.isPrefixOf s) with
    | none => s
    | some space => trimLeft spaces n (s.drop space.length)

/-- `strings.TrimSpace`. -/
def trimSpace (s : GoString) : GoString :=
  let spaces := [9, 10, 11, 12, 13, 32].map ([·]) ++ wideSpaces
  let left := trimLeft spaces s.length s
  (trimLeft (spaces.map List.reverse) left.length left.reverse).reverse

def parseNamespaceNames (namespaces : GoString) : List GoString :=
  (split 44 namespaces).foldl (fun result ns =>
    let ns := trimSpace ns
    if ns = [] then result else if ns ∈ result then result else result ++ [ns]) []

example : parseNamespaceNames (ascii "b, a ,,b,") = [ascii "b", ascii "a"] := by decide +kernel

theorem parseNamespaceNames_nodup (namespaces : GoString) :
    (parseNamespaceNames namespaces).Nodup := by
  unfold parseNamespaceNames
  generalize split 44 namespaces = parts
  have hfold : ∀ result : List GoString, result.Nodup → (parts.foldl (fun result ns =>
      let ns := trimSpace ns
      if ns = [] then result else if ns ∈ result then result else result ++ [ns]) result).Nodup := by
    induction parts with
    | nil => exact fun result h => h
    | cons ns parts ih =>
      intro result h
      apply ih
      dsimp only
      split_ifs with hempty hmem
      · exact h
      · exact h
      · exact h.append (List.nodup_singleton _) (by simpa using hmem)
  exact hfold [] List.nodup_nil

def everest : GoString := ascii "everest"

def systemNamespace : GoString := ascii "everest-system"

def monitoringNamespace : GoString := ascii "everest-monitoring"

def olmNamespace : GoString := ascii "everest-olm"

def reservedNamespaces : List GoString := [systemNamespace, monitoringNamespace, olmNamespace]

inductive NamespaceError where
  | listEmpty
  | reserved (ns : GoString)
  | invalidName (text : GoString)
  | notExist (ns : GoString)
  | notManagedByEverest (ns : GoString)
  | notEmpty
  | notFound
  | timeout
  | api
  deriving DecidableEq

/-- `validateRFC1035` is told the name and the field of the error. -/
def validateNamespaceNames (validateRFC1035 : GoString → GoString → Except GoString Unit)
    (nsList : List GoString) : Except NamespaceError Unit := do
  if nsList = [] then .error .listEmpty else .ok ()
  checkAll (fun ns => do
    if ns ∈ reservedNamespaces then .error (.reserved ns) else .ok ()
    (validateRFC1035 ns (ascii "namespace name")).mapError .invalidName) nsList

inductive Kind where
  | databaseCluster
  | backupStorage
  | monitoringConfig
  deriving DecidableEq

structure KubeObject where
  kind : Kind
  ns : GoString
  name : GoString
  finalizers : List GoString
  terminating : Bool
  deriving DecidableEq

structure KubeNamespace where
  name : GoString
  labels : List (GoString × GoString)
  resourceVersion : Nat
  terminating : Bool
  deriving DecidableEq

/-- A release is known by its name and its namespace. -/
structure Kube where
  objects : List KubeObject
  namespaces : List KubeNamespace
  releases : List (GoString × GoString)

def managedByLabel : GoString := ascii "app.kubernetes.io/managed-by"

def KubeNamespace.isManagedByEverest (ns : KubeNamespace) : Bool :=
  ns.labels.lookup managedByLabel == some everest

namespace Kube

variable (s : Kube)

def listMeta (kind : Kind) (ns : GoString) : List KubeObject :=
  s.objects.filter fun o => decide (o.kind = kind ∧ o.ns = ns)

/-- An object without finalizers is gone at once. -/
def deleteAllOf (kind : Kind) (ns : GoString) : Kube :=
  { s with
    objects := s.objects.filterMap fun o =>
      if o.kind = kind ∧ o.ns = ns then
        if o.finalizers = [] then none else some { o with terminating := true }
      else some o }

def getNamespace (ns : GoString) : Option KubeNamespace := s.namespaces.find? (·.name == ns)

/-- A namespace stays until all that is in it is gone. -/
def deleteNamespace (ns : GoString) : Kube :=
  { s with
    namespaces := s.namespaces.map fun n =>
      if n.name = ns then { n with terminating := true } else n }

/-- The labels of a copy are written over those of the version it was read at. -/
def updateNamespace (copy : KubeNamespace) : Kube :=
  { s with
    namespaces := s.namespaces.map fun n =>
      if n.name = copy.name ∧ n.resourceVersion = copy.resourceVersion then
        { n with labels := copy.labels, resourceVersion := n.resourceVersion + 1 }
      else n }

def uninstallRelease (release : GoString × GoString) : Kube :=
  { s with releases := s.releases.filter (· ≠ release) }

end Kube

abbrev KubeProcess := Process Kube NamespaceError

section Steps

variable (rounds : Nat) (ns : GoString)

/-- `DeleteDatabaseClusters`, `DeleteBackupStorages` and `DeleteMonitoringConfigs`: the first
round of the polling goes without another list. -/
def deleteObjects (kind : Kind) : KubeProcess :=
  let deleteAll (again : KubeProcess) : KubeProcess :=
    .access (·.deleteAllOf kind ns) (fun _ => again) .api
  .access id (fun s =>
    if s.listMeta kind ns = [] then .done (.ok ())
    else match rounds with
      | 0 => .done (.error .timeout)
      | rounds + 1 =>
        deleteAll (.poll .timeout (fun again => .access id (fun s =>
          if s.listMeta kind ns = [] then .done (.ok ()) else deleteAll again) .api) rounds)) .api

def deleteDatabaseClusters : KubeProcess := deleteObjects rounds ns .databaseCluster

def deleteBackupStorages : KubeProcess := deleteObjects rounds ns .backupStorage

def deleteMonitoringConfigs : KubeProcess := deleteObjects rounds ns .monitoringConfig

def removeEverestLabelFromNamespace : KubeProcess :=
  .poll .timeout (fun again => .access id (fun s =>
    match s.getNamespace ns with
    | none => .done (.error .notFound)
    | some n =>
      if n.isManagedByEverest = false then .done (.ok ())
      else
        let copy := { n with labels := n.labels.filter (·.1 ≠ managedByLabel) }
        .access (·.updateNamespace copy) (fun s =>
          match s.getNamespace ns with
          | none => .done (.error .notFound)
          | some n' => if n'.resourceVersion = n.resourceVersion then .done (.ok ()) else again)
          .api) .api) rounds

def ensureNamespaceGone : KubeProcess :=
  .poll .timeout (fun again => .access id (fun s =>
    match s.getNamespace ns with
    | none => .done (.ok ())
    | some _ => again) .api) rounds

def deleteNamespace : KubeProcess :=
  .access (·.deleteNamespace ns) (fun s =>
    match s.getNamespace ns with
    | none => .done (.error .notFound)
    | some _ => .done (.ok ())) .api

/-- The last step of the removal of a namespace. -/
def removeNamespace (keepNs : Bool) : KubeProcess :=
  .access (·.uninstallRelease (ns, ns)) (fun _ =>
    if keepNs then removeEverestLabelFromNamespace rounds ns
    else (deleteNamespace ns).andThen (ensureNamespaceGone rounds ns)) .api

def quoted (text : String) : GoString := ascii text ++ ascii " '" ++ ns ++ ascii "'"

def newRemoveNamespaceSteps (keepNs : Bool) : List (Step Kube NamespaceError) :=
  [⟨quoted ns "Deleting database clusters in namespace", deleteDatabaseClusters rounds ns⟩,
    ⟨quoted ns "Deleting backup storages in namespace", deleteBackupStorages rounds ns⟩,
    ⟨quoted ns "Deleting monitoring instances in namespace", deleteMonitoringConfigs rounds ns⟩,
    ⟨quoted ns (if keepNs then "Deleting resources from namespace"
        else "Deleting database namespace"),
      removeNamespace rounds ns keepNs⟩]

end Steps

/-- The steps that `Run` of the removal hands to the spinner. -/
def removalSteps (rounds : Nat) (keepNs : Bool) (nsList : List GoString) :
    List (Step Kube NamespaceError) :=
  nsList.flatMap fun ns => newRemoveNamespaceSteps rounds ns keepNs

end OpenEverest.Cli
