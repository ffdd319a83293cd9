import OpenEverest.Cli.HelmTemplate
import OpenEverest.Cli.NamespaceRemoval
import OpenEverest.Cli.Upgrade
import OpenEverest.Framework.ObjectStore

/-!
# The steps of an upgrade

An upgrade first brings the custom resource definitions to the new version, then the releases
of the database namespaces, and then the release of Everest itself; it ends by waiting for what
that release deploys. An installation from before Helm is taken over by a release instead.
-/

namespace OpenEverest.Cli

open Framework GoString Helm

structure NamespacedName where
  ns : GoString
  name : GoString
  deriving DecidableEq

/-- What a rollout is judged by; `progressing` is the reason of that condition. -/
structure Deployment where
  generation : Int
  observedGeneration : Int
  progressing : Option GoString
  specReplicas : Option Int
  replicas : Int
  updatedReplicas : Int
  availableReplicas : Int

structure CRDObject where
  name : GoString
  manifest : Text

structure Held (α : Type) where
  value : α
  finalizers : List GoString

/-- An object with finalizers stays until others have taken these away. -/
def deleteHeld {α : Type} (objects : ObjectStore NamespacedName (Held α)) (key : NamespacedName) :
    ObjectStore NamespacedName (Held α) :=
  match objects key with
  | none => objects
  | some o => if o.finalizers = [] then objects.erase key else objects

/-- A release is the version of its chart, a catalog source the state of its connection, and a
subscription the service version that it installed. -/
structure Installation where
  releases : ObjectStore NamespacedName GoString
  namespaces : List KubeNamespace
  crds : ObjectStore GoString Text
  deployments : ObjectStore NamespacedName (Held Deployment)
  catalogSources : ObjectStore NamespacedName (Held GoString)
  subscriptions : ObjectStore NamespacedName (Held GoString)
  clusterServiceVersions : ObjectStore NamespacedName (Held Unit)

inductive UpgradeStepError where
  | wrap (text : GoString) (e : UpgradeStepError)
  | api
  | alreadyExists
  | notFound
  | timeout
  | chart
  | releaseInUse
  | noDeployedReleases
  /-- `cannot overwrite existing release with a different chart version`. -/
  | differentVersion (expected got : GoString)
  | progressDeadlineExceeded
  | render
  | template (e : TemplateError)
  | decode
  | panic
  deriving DecidableEq

abbrev UpgradeProcess := Process Installation UpgradeStepError

def wrap (text : GoString) (p : UpgradeProcess) : UpgradeProcess := p.mapError (.wrap text)

namespace Installation

variable (s : Installation)

def putRelease (key : NamespacedName) (version : GoString) : Installation :=
  { s with releases := s.releases.put key version }

def putCRD (o : CRDObject) : Installation := { s with crds := s.crds.put o.name o.manifest }

/-- `GetDBNamespaces`. -/
def dbNamespaces : List GoString :=
  (s.namespaces.filter fun n =>
    n.isManagedByEverest && decide (n.name ∉ [systemNamespace, monitoringNamespace])).map
      KubeNamespace.name

end Installation

structure HelmInstaller where
  releaseName : GoString
  releaseNamespace : GoString
  /-- The version of the chart that `Init` has resolved. -/
  version : GoString

namespace HelmInstaller

variable (i : HelmInstaller)

def key : NamespacedName := ⟨i.releaseNamespace, i.releaseName⟩

/-- `Init` reads the chart from its directory or its repository. -/
def init (_ : HelmInstaller) (next : UpgradeProcess) : UpgradeProcess :=
  .access id (fun _ => next) (.wrap (ascii "could not initialize Helm installer") .chart)

def upgrade : UpgradeProcess :=
  .access (fun s => if (s.releases i.key).isSome then s.putRelease i.key i.version else s)
    (fun s =>
      if (s.releases i.key).isSome then .done (.ok ()) else .done (.error .noDeployedReleases)) .api

/-- The unexported `install`. -/
def installNew : UpgradeProcess :=
  .access (fun s => if (s.releases i.key).isSome then s else s.putRelease i.key i.version)
    (fun s =>
      if (s.releases i.key).isSome then .done (.error .releaseInUse) else .done (.ok ())) .api

/-- A release that exists is only written again at its own version. -/
def install : UpgradeProcess :=
  .access id (fun s =>
    match s.releases i.key with
    | none => i.installNew
    | some version =>
      if i.version ≠ version then .done (.error (.differentVersion version i.version))
      else i.upgrade) .api

end HelmInstaller

def createObject (o : CRDObject) : UpgradeProcess :=
  .access (fun s => if (s.crds o.name).isSome then s else s.putCRD o)
    (fun s =>
      if (s.crds o.name).isSome then .done (.error .alreadyExists) else .done (.ok ())) .api

def replaceObject (o : CRDObject) : UpgradeProcess :=
  .access (fun s => if (s.crds o.name).isSome then s.putCRD o else s)
    (fun s => if (s.crds o.name).isSome then .done (.ok ()) else .done (.error .notFound)) .api

/-- `ApplyObject` discovers the API groups first; whatever the read answers but the object, it
is created. -/
def applyObject (o : CRDObject) : UpgradeProcess :=
  .access id (fun _ => .call id
    (fun s => if (s.crds o.name).isSome then replaceObject o else createObject o)
    (createObject o)) .api

def documentSeparator : Text := "\n---\n".toList

def yamlStringsToBytes (strs : List Text) : Text :=
  let s := strs.flatMap (· ++ documentSeparator)
  if documentSeparator <:+ s then s.take (s.length - documentSeparator.length) else s

/-- What the chart renders to, before and after its release is written; `unmarshal` reads a
namespace from a document, `getObjects` the objects of a file. -/
structure EverestChart where
  dryRun : Text
  manifest : Text
  unmarshal : Text → Option Text
  getObjects : Text → Option (List CRDObject)

namespace EverestChart

variable (chart : EverestChart)

def crds : Except UpgradeStepError (List CRDObject) :=
  match (newRenderedTemplate chart.dryRun).getCRDs with
  | .error e => .error (.wrap (ascii "could not get CRDs") (.template e))
  | .ok crds => (chart.getObjects (yamlStringsToBytes crds)).elim (.error .decode) .ok

def catalogNamespace : Except UpgradeStepError GoString :=
  match (newRenderedTemplate chart.manifest).getEverestCatalogNamespace chart.unmarshal with
  | .error e => .error (.wrap (ascii "could not get Everest CatalogSource namespace") (.template e))
  | .ok ns => .ok (ascii (String.ofList ns))

end EverestChart

/-- `ApplyManifestFile` for the definitions of the chart. -/
def legacyUpgradeCRDs (chart : EverestChart) : UpgradeProcess :=
  .access id (fun _ =>
    match chart.crds with
    | .error e => .done (.error e)
    | .ok objs => .sequence (objs.map applyObject))
    (.wrap (ascii "could not render Helm templates") .render)

section Versions

variable {V : Type} (lib : GoVersion V)

/-- The core of the version is `0.0.0`; a text that is no version panics. -/
def isDev (version : GoString) : Option Bool :=
  if version = [] then some false
  else (lib.newVersion version).map fun v => (lib.segments v).all (· = 0)

def beforeCRDChart (version : GoString) : Option Bool := do
  let v ← lib.newVersion version
  let limit ← lib.newVersion (ascii "1.9.0")
  let dev ← isDev lib version
  pure (decide (lib.lessThan v limit) && !dev)

end Versions

def everestCRDs : NamespacedName := ⟨systemNamespace, ascii "everest-crds"⟩

/-- `legacy` is `none` where the version cannot be parsed. -/
def upgradeCustomResourceDefinitions (chart : EverestChart) (legacy : Option Bool)
    (version : GoString) : UpgradeProcess :=
  match legacy with
  | none => .done (.error .panic)
  | some true => legacyUpgradeCRDs chart
  | some false =>
    let installer : HelmInstaller := ⟨everestCRDs.name, everestCRDs.ns, version⟩
    installer.init installer.install

namespace Deployment

def rolloutComplete (d : Deployment) : Except UpgradeStepError Bool :=
  if d.generation ≤ d.observedGeneration then
    if d.progressing = some (ascii "ProgressDeadlineExceeded") then
      .error .progressDeadlineExceeded
    else if ∃ replicas ∈ d.specReplicas, d.updatedReplicas < replicas then .ok false
    else if d.replicas > d.updatedReplicas then .ok false
    else if d.availableReplicas < d.updatedReplicas then .ok false
    else .ok true
  else .ok false

end Deployment

section Steps

variable (rounds : Nat)

/-- It ends when the deployment is rolled out, or with its context after the rounds. -/
def waitForRollout (key : NamespacedName) : UpgradeProcess :=
  .poll .timeout (fun again => .access id (fun s =>
    match s.deployments key with
    | none => again
    | some d =>
      match d.value.rolloutComplete with
      | .error e => .done (.error e)
      | .ok complete => if complete then .done (.ok ()) else again) .api) rounds

def everestServer : NamespacedName := ⟨systemNamespace, ascii "everest-server"⟩

def everestOperator : NamespacedName := ⟨systemNamespace, ascii "everest-operator"⟩

def everestCatalog : GoString := ascii "everest-catalog"

def ensureCatalogSource (chart : EverestChart) : UpgradeProcess :=
  .access id (fun _ =>
    match chart.catalogNamespace with
    | .error e => .done (.error e)
    | .ok catalogNs =>
      .poll .timeout (fun again => .access id (fun s =>
        match s.catalogSources ⟨catalogNs, everestCatalog⟩ with
        | none => .done (.error (.wrap (ascii "cannot get CatalogSource") .notFound))
        | some cs => if cs.value = ascii "READY" then .done (.ok ()) else again)
        (.wrap (ascii "cannot get CatalogSource") .api)) rounds)
    (.wrap (ascii "could not render Helm templates") .render)

def quotedNs (before : String) (ns : GoString) (after : String) : GoString :=
  ascii before ++ ns ++ ascii after

def dbNamespaceInstaller (ns version : GoString) : HelmInstaller := ⟨ns, ns, version⟩

def upgradeEverestDBNamespaceHelmChart (version ns : GoString) : UpgradeProcess :=
  let installer := dbNamespaceInstaller ns version
  installer.init installer.upgrade

def upgradeEverestDBNamespaceHelmCharts (version : GoString) : UpgradeProcess :=
  .access id (fun s => .sequence (s.dbNamespaces.map fun ns =>
    wrap (quotedNs "could not upgrade DB namespace '" ns "' Helm chart")
      (upgradeEverestDBNamespaceHelmChart version ns)))
    (.wrap (ascii "could not get database namespaces") .api)

/-- Lists the engines of the namespace for the values of the chart, installs it, and writes it
once more so that it takes over what is there. -/
def helmAdoptDBNamespaces (version ns : GoString) : UpgradeProcess :=
  let installer := dbNamespaceInstaller ns version
  .access id (fun _ => installer.init
    ((wrap (ascii "could not install Helm chart") installer.install).andThen installer.upgrade))
    (.wrap (quotedNs "cannot list database engines in namespace " ns "") .api)

def deleteUntilGone (delete : Installation → Installation) (gone : Installation → Bool) :
    UpgradeProcess :=
  .poll .timeout (fun again =>
    .access delete (fun s => if gone s then .done (.ok ()) else again) .api) rounds

def deleteClusterServiceVersion (key : NamespacedName) (s : Installation) : Installation :=
  { s with clusterServiceVersions := deleteHeld s.clusterServiceVersions key }

def deleteSubscription (key : NamespacedName) (s : Installation) : Installation :=
  { s with subscriptions := deleteHeld s.subscriptions key }

def deleteClusterServiceVersionUntilGone (key : NamespacedName) : UpgradeProcess :=
  deleteUntilGone rounds (deleteClusterServiceVersion key) fun s =>
    (s.clusterServiceVersions key).isNone

def packageServer : NamespacedName := ⟨olmNamespace, ascii "packageserver"⟩

def deletePackageServerCSV : UpgradeProcess :=
  deleteClusterServiceVersionUntilGone rounds packageServer

/-- The polling of a subscription, with the service version that was read last. -/
def deleteSubscriptionUntilGone (key : NamespacedName) (next : GoString → UpgradeProcess) :
    Nat → GoString → UpgradeProcess
  | 0, _ => .done (.error .timeout)
  | n + 1, currentCSV => .access id (fun s =>
      match s.subscriptions key with
      | none => next currentCSV
      | some sub =>
        .access (deleteSubscription key) (fun s =>
          if (s.subscriptions key).isNone then .done (.error .notFound)
          else deleteSubscriptionUntilGone key next n sub.value) .api) .api

def deleteOLMOperator (subscription : NamespacedName) : UpgradeProcess :=
  deleteSubscriptionUntilGone subscription (fun currentCSV =>
    if currentCSV ≠ [] then
      deleteClusterServiceVersionUntilGone rounds ⟨subscription.ns, currentCSV⟩
    else .done (.ok ())) rounds []

def couldNotDelete (kind : String) (key : NamespacedName) : GoString :=
  ascii "could not delete " ++ ascii kind ++ ascii "='" ++ key.name ++ ascii "' in namespace='" ++
    key.ns ++ ascii "'"

def victoriaMetricsOperator : NamespacedName :=
  ⟨monitoringNamespace, ascii "victoriametrics-operator"⟩

def legacyCatalog : NamespacedName := ⟨olmNamespace, everestCatalog⟩

def cleanupLegacyResources : UpgradeProcess :=
  .sequence
    [deletePackageServerCSV rounds,
      wrap (couldNotDelete "operator" everestOperator) (deleteOLMOperator rounds everestOperator),
      wrap (couldNotDelete "operator" victoriaMetricsOperator)
        (deleteOLMOperator rounds victoriaMetricsOperator),
      .access (fun s => { s with deployments := deleteHeld s.deployments everestServer })
        (fun _ => .done (.ok ())) (.wrap (couldNotDelete "deployment" everestServer) .api),
      .access (fun s => { s with catalogSources := deleteHeld s.catalogSources legacyCatalog })
        (fun _ => .done (.ok ())) (.wrap (couldNotDelete "CatalogSource" legacyCatalog) .api)]

def everestInstaller (version : GoString) : HelmInstaller :=
  ⟨systemNamespace, systemNamespace, version⟩

def migrateLegacyInstallationToHelm (version : GoString) : UpgradeProcess :=
  .sequence
    [wrap (ascii "failed to cleanupLegacyResources") (cleanupLegacyResources rounds),
      wrap (ascii "failed to install Helm chart") (everestInstaller version).install,
      .access id (fun s => .sequence (s.dbNamespaces.map fun ns =>
        wrap (quotedNs "could not migrate DB namespace '" ns "' installation to Helm")
          (helmAdoptDBNamespaces version ns)))
        (.wrap (ascii "could not get database namespaces") .api)]

def upgradeHelmChart (helmReleaseExists : Bool) (version : GoString) : UpgradeProcess :=
  if helmReleaseExists then
    (wrap (ascii "could not upgrade DB namespaces Helm charts")
      (upgradeEverestDBNamespaceHelmCharts version)).andThen (everestInstaller version).upgrade
  else migrateLegacyInstallationToHelm rounds version

end Steps

/-- The fields of the command that are set when it runs, and how often it polls. -/
structure Upgrade where
  upgradeToVersion : GoString
  legacyCRDs : Option Bool
  helmReleaseExists : Bool
  chart : EverestChart
  rounds : Nat

def Upgrade.newUpgradeSteps (u : Upgrade) : List (Step Installation UpgradeStepError) :=
  [⟨ascii "Upgrading Custom Resource Definitions",
      upgradeCustomResourceDefinitions u.chart u.legacyCRDs u.upgradeToVersion⟩,
    ⟨ascii "Upgrading Helm chart",
      upgradeHelmChart u.rounds u.helmReleaseExists u.upgradeToVersion⟩,
    ⟨ascii "Ensuring Everest API deployment is ready", waitForRollout u.rounds everestServer⟩,
    ⟨ascii "Ensuring Everest operator deployment is ready",
      waitForRollout u.rounds everestOperator⟩,
    ⟨ascii "Ensuring Everest CatalogSource is ready", ensureCatalogSource u.rounds u.chart⟩]

end OpenEverest.Cli
