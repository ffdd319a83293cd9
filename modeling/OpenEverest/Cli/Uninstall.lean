import OpenEverest.Cli.NamespaceRemoval

/-!
# The steps of an uninstallation

All namespaces for databases are removed as the removal of namespaces does it, then the release
of Everest, the namespaces of its own, and at last the custom resource definitions.
-/

namespace OpenEverest.Cli

open Framework GoString

structure CustomResourceDefinition where
  name : GoString
  labels : List (GoString × GoString)
  finalizers : List GoString
  terminating : Bool
  deriving DecidableEq

structure Installed where
  kube : Kube
  crds : List CustomResourceDefinition

def perconaEverestCRDLabel : GoString := ascii "everest.percona.com/crd"

def CustomResourceDefinition.isEverest (crd : CustomResourceDefinition) : Bool :=
  crd.labels.lookup perconaEverestCRDLabel == some (ascii "true")

inductive UninstallError where
  | removal (e : NamespaceError)
  /-- The text that an error of the API is wrapped in. -/
  | failed (text : GoString)
  | api
  | timeout
  deriving DecidableEq

abbrev UninstallProcess := Process Installed UninstallError

namespace Installed

variable (s : Installed)

def setKube (kube : Kube) : Installed := { s with kube }

def deleteCRD (name : GoString) : Installed :=
  { s with
    crds := s.crds.filterMap fun crd =>
      if crd.name = name then
        if crd.finalizers = [] then none else some { crd with terminating := true }
      else some crd }

end Installed

/-- `NewUninstaller` and `Uninstall`; what follows is told whether there was a release. -/
def uninstallChart (release : GoString × GoString) (newUninstaller : String)
    (next : Bool → UninstallProcess) : UninstallProcess :=
  .access id (fun _ => .access (fun s => s.setKube (s.kube.uninstallRelease release))
    (fun s => next (decide (release ∈ s.kube.releases)))
    (.failed (ascii "failed to uninstall Helm chart"))) (.failed (ascii newUninstaller))

def everestRelease : GoString × GoString := (systemNamespace, systemNamespace)

def uninstallHelmChart : UninstallProcess :=
  uninstallChart everestRelease "failed to create Helm uninstaller" fun _ => .done (.ok ())

/-- The step `Deleting namespace`. -/
def deleteOwnNamespace (rounds : Nat) (ns : GoString) : UninstallProcess :=
  .poll .timeout (fun again => .access (fun s => s.setKube (s.kube.deleteNamespace ns)) (fun s =>
    match s.kube.getNamespace ns with
    | none => .done (.ok ())
    | some _ => again) .api) rounds

def deleteListedCRD (crd : CustomResourceDefinition) : UninstallProcess :=
  .access (·.deleteCRD crd.name) (fun s =>
    if ∃ c ∈ s.crds, c.name = crd.name then .done (.ok ())
    else .done (.error (.failed (ascii "failed to delete CRD"))))
    (.failed (ascii "failed to delete CRD"))

def listAndDeleteEverestCRDs : UninstallProcess :=
  .access id (fun s => .sequence ((s.crds.filter (·.isEverest)).map deleteListedCRD))
    (.failed (ascii "failed to list CRDs"))

def crdRelease : GoString × GoString := (ascii "everest-crds", systemNamespace)

/-- Helm does not delete the definitions that were installed with Everest itself. -/
def deleteEverestCRDs : UninstallProcess :=
  uninstallChart crdRelease "failed to create Helm uninstaller (everest-crds)" fun chartFound =>
    if chartFound then .done (.ok ()) else listAndDeleteEverestCRDs

/-- `GetDBNamespaces`. -/
def Kube.getDBNamespaces (s : Kube) : List GoString :=
  (s.namespaces.filter fun n =>
    n.isManagedByEverest && decide (n.name ∉ [systemNamespace, monitoringNamespace])).map
      KubeNamespace.name

def newUninstallSteps (rounds : Nat) (nsList : List GoString) :
    List (Step Installed UninstallError) :=
  (removalSteps rounds false nsList).map (Step.lift Installed.kube (fun k s => s.setKube k) .removal)
    ++ [⟨ascii "Uninstalling Helm chart", uninstallHelmChart⟩,
      ⟨quoted monitoringNamespace "Deleting namespace",
        deleteOwnNamespace rounds monitoringNamespace⟩,
      ⟨quoted systemNamespace "Deleting namespace", deleteOwnNamespace rounds systemNamespace⟩,
      ⟨ascii "Uninstalling CRDs", deleteEverestCRDs⟩]

end OpenEverest.Cli
