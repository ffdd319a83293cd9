import OpenEverest.Ui.DbVersion
import OpenEverest.Ui.K8ResourceParser

/-!
# The resources form of the cluster overview

The values the form opens with, what its effects make of them, and the cluster that is saved. A
quantity that is a number in the object stands here as its text.
-/

namespace OpenEverest.Ui

open Framework JsString

structure Sharding where
  enabled : Bool
  shards : JsNumber
  configServerReplicas : JsNumber
  deriving DecidableEq

/-- What the form reads and writes of a cluster, where no proxy is one without any field. -/
structure DbClusterResources where
  engineType : DbEngineType
  version : Option GoString := none
  replicas : JsNumber
  resources : Option Resources := none
  storageSize : JsString
  proxy : Proxy := {}
  sharding : Option Sharding := none
  deriving DecidableEq

namespace DbClusterResources

variable (dbCluster : DbClusterResources)

def dbType : DbType := dbEngineToDbType dbCluster.engineType

/-- `sharding?.enabled`. -/
def shardingEnabled : Bool := dbCluster.sharding.any (·.enabled)

end DbClusterResources

def isProxy (proxy : Proxy) : Bool := proxy.expose.isSome

def mapDeprecatedExposeType (type : Option GoString) : ProxyExposeType :=
  if type = some (ascii "internal") then .clusterIP
  else if type = some (ascii "external") then .loadBalancer
  else ([.clusterIP, .loadBalancer, .nodePort].find? fun t =>
    some (ProxyExposeType.name t) = type).getD .clusterIP

inductive ResourceSize where
  | small
  | medium
  | large
  | custom
  deriving DecidableEq

structure Size where
  cpu : ℚ
  memory : ℚ

structure Sizes where
  small : Size
  medium : Size
  large : Size

/-- `none` for the custom size. -/
def Sizes.get (sizes : Sizes) : ResourceSize → Option Size
  | .small => some sizes.small
  | .medium => some sizes.medium
  | .large => some sizes.large
  | .custom => none

section Version

-- The function `coerce` of the package.
variable (coerce : GoString → Option SemVer)

def isVersion84x (version : GoString) : Bool :=
  (coerce version).any fun s => s.major = 8 && s.minor = 4

def nodesDefaultSizes (dbType : DbType) (dbVersion : GoString) : Sizes where
  small := match dbType with
    | .mysql => ⟨1, if isVersion84x coerce dbVersion then 3 else 2⟩
    | .mongo => ⟨1, 4⟩
    | .postresql => ⟨1, 2⟩
  medium := ⟨4, 8⟩
  large := ⟨8, 32⟩

end Version

def proxiesDefaultSizes : DbType → Sizes
  | .mysql => ⟨⟨2 / 10, 2 / 10⟩, ⟨5 / 10, 8 / 10⟩, ⟨8 / 10, 3⟩⟩
  | .mongo => ⟨⟨1, 2⟩, ⟨2, 4⟩, ⟨4, 16⟩⟩
  | .postresql => ⟨⟨1, 3 / 100⟩, ⟨4, 6 / 100⟩, ⟨8, 1 / 10⟩⟩

/-- An extracted value that counts as false: the number 0 or no text. -/
def falsy (value : Option JsString) : Prop := value.getD [] = []

instance (value : Option JsString) : Decidable (falsy value) :=
  inferInstanceAs (Decidable (_ = _))

def matchFieldsValueToResourceSize (sizes : Sizes) (resources : Option Resources) : ResourceSize :=
  let extractedCpu := extractResourceCpuValue resources
  let extractedMemory := extractResourceMemoryValue resources
  if falsy extractedCpu ∨ falsy extractedMemory then .custom
  else
    ([.small, .medium, .large].find? fun size => (sizes.get size).any fun item =>
      (cpuParser (JsNumber.toString (.finite item.cpu))).equal (cpuParser (extractedCpu.getD [])) &&
      (memoryValue (JsNumber.toString (.finite item.memory))).equal
        (memoryValue (extractedMemory.getD []))).getD .custom

structure UnitValues where
  cpu : JsNumber
  memory : JsNumber
  cpuRequests : JsNumber
  memoryRequests : JsNumber
  requestsSynced : Bool

/-- `value || 0` and its text. -/
def orZero (value : Option JsString) : JsString := if falsy value then js "0" else value.getD []

def unitDefaultValues (resources : Option Resources) : UnitValues :=
  let cpu := orZero (extractResourceCpuValue resources)
  let memory := orZero (extractResourceMemoryValue resources)
  let requestsSynced := areResourceRequestsSynced resources
  { cpu := cpuParser cpu
    memory := memoryValue memory
    cpuRequests := if requestsSynced then cpuParser cpu
      else cpuParser (orZero (some ((extractResourceCpuRequestValue resources).getD cpu)))
    memoryRequests := if requestsSynced then memoryValue memory
      else memoryValue ((extractResourceMemoryRequestValue resources).getD memory)
    requestsSynced }

/-- A size that is chosen sets the limits, and requests kept equal to the limits follow them. -/
def UnitValues.settle (sizes : Sizes) (size : ResourceSize) (values : UnitValues) : UnitValues :=
  let (cpu, memory) := match sizes.get size with
    | some item => (.finite item.cpu, .finite item.memory)
    | none => (values.cpu, values.memory)
  { values with
    cpu, memory
    cpuRequests := if values.requestsSynced then cpu else values.cpuRequests
    memoryRequests := if values.requestsSynced then memory else values.memoryRequests }

section Form

variable (coerce : GoString → Option SemVer) (dbCluster : DbClusterResources)

namespace DbClusterResources

def dbVersion : GoString := dbCluster.version.getD []

def proxyResources : Option Resources :=
  if isProxy dbCluster.proxy then dbCluster.proxy.resources else none

def nodesSize : ResourceSize :=
  matchFieldsValueToResourceSize (nodesDefaultSizes coerce dbCluster.dbType dbCluster.dbVersion)
    dbCluster.resources

def proxiesSize : ResourceSize :=
  matchFieldsValueToResourceSize (proxiesDefaultSizes dbCluster.dbType) dbCluster.proxyResources

/-- MySQL 8.4 with 3 GB of memory takes the small size where no size is chosen. -/
def settledSize (size : ResourceSize) (memory : JsNumber) : ResourceSize :=
  if size = .custom ∧ dbCluster.dbType = .mysql ∧ isVersion84x coerce dbCluster.dbVersion = true ∧
    memory.equal (.ofInt 3) = true then .small else size

def nodes : UnitValues :=
  let values := unitDefaultValues dbCluster.resources
  values.settle (nodesDefaultSizes coerce dbCluster.dbType dbCluster.dbVersion)
    (dbCluster.settledSize coerce (dbCluster.nodesSize coerce) values.memory)

/-- The proxies have no part in the form for a replica set of MongoDB. -/
def hideProxies : Prop := dbCluster.dbType = .mongo ∧ dbCluster.shardingEnabled = false

instance : Decidable dbCluster.hideProxies := inferInstanceAs (Decidable (_ ∧ _))

def proxies : UnitValues :=
  let values := unitDefaultValues dbCluster.proxyResources
  if dbCluster.hideProxies then values
  else values.settle (proxiesDefaultSizes dbCluster.dbType)
    (dbCluster.settledSize coerce dbCluster.proxiesSize values.memory)

end DbClusterResources

def nodesDbTypeMap : DbType → List JsString
  | .mongo => [js "1", js "3", js "5"]
  | .mysql => [js "1", js "3", js "5"]
  | .postresql => [js "1", js "2", js "3"]

def numberOfUnits (dbType : DbType) (units : JsString) : JsString :=
  if units ∈ nodesDbTypeMap dbType then units else customNrUnitsInputValue

namespace DbClusterResources

def replicasText : JsString := dbCluster.replicas.toString

def proxiesText : JsString :=
  if isProxy dbCluster.proxy then
    (dbCluster.proxy.replicas.getD (.ofInt 0)).toString
  else []

/-- The values of the form once the effects of opening it have run. -/
def form : ResourcesForm FormNumber :=
  let nodes := dbCluster.nodes coerce
  let proxies := dbCluster.proxies coerce
  let disk := memoryParser dbCluster.storageSize none
  let sharding := dbCluster.sharding.filter (·.enabled)
  { dbType := dbCluster.dbType
    sharding := dbCluster.shardingEnabled
    shardNr := sharding.map fun s => s.shards.toString
    shardConfigServers := sharding.map (·.configServerReplicas)
    cpu := .number nodes.cpu
    cpuRequests := some (.number nodes.cpuRequests)
    memory := .number nodes.memory
    memoryRequests := some (.number nodes.memoryRequests)
    disk := .number disk.value
    diskUnit := disk.originalUnit
    numberOfNodes := numberOfUnits dbCluster.dbType dbCluster.replicasText
    customNrOfNodes := some dbCluster.replicasText
    proxyCpu := .number proxies.cpu
    proxyCpuRequests := some (.number proxies.cpuRequests)
    proxyMemory := .number proxies.memory
    proxyMemoryRequests := some (.number proxies.memoryRequests)
    nodeRequestsSynced := some nodes.requestsSynced
    proxyRequestsSynced := some proxies.requestsSynced
    numberOfProxies := numberOfUnits dbCluster.dbType dbCluster.proxiesText
    customNrOfProxies := some dbCluster.proxiesText }

/-- The values the form opens with, as far as the schema compares with them. -/
def defaultValues : DefaultValues where
  numberOfNodes := some (numberOfUnits dbCluster.dbType dbCluster.replicasText)
  customNrOfNodes := some dbCluster.replicasText
  shardNr := (dbCluster.sharding.filter (·.enabled)).map fun s => s.shards.toString
  disk := some (memoryParser dbCluster.storageSize none).value

end DbClusterResources

end Form

structure NewResources where
  cpu : JsNumber
  cpuRequests : Option JsNumber
  memory : JsNumber
  memoryRequests : Option JsNumber
  disk : JsNumber
  diskUnit : JsString
  numberOfNodes : JsNumber
  proxyCpu : JsNumber
  proxyCpuRequests : Option JsNumber
  proxyMemory : JsNumber
  proxyMemoryRequests : Option JsNumber
  numberOfProxies : JsNumber
  nodeRequestsSynced : Option Bool
  proxyRequestsSynced : Option Bool

/-- Requests that are kept equal to the limits are left out where there were none, except for PXC. -/
def omitRequests (engineType : DbEngineType) (synced : Option Bool) (resources : Option Resources) : Bool :=
  decide (engineType ≠ .pxc) && synced.getD false && (resources.bind (·.requests)).isNone

def changeDbClusterResources (dbCluster : DbClusterResources) (newResources : NewResources) (sharding : Bool)
    (shardNr : Option JsString) (shardConfigServers : Option JsNumber) : DbClusterResources :=
  let mappedExposeType := mapDeprecatedExposeType (dbCluster.proxy.expose.bind (·.type))
  { dbCluster with
    replicas := newResources.numberOfNodes
    resources := some (resourcesSpec JsNumber.toString newResources.cpu newResources.memory
      newResources.cpuRequests newResources.memoryRequests
      (omitRequests dbCluster.engineType newResources.nodeRequestsSynced dbCluster.resources))
    storageSize := newResources.disk.toString ++ newResources.diskUnit
    proxy := getProxySpec .finite JsNumber.toString (dbEngineToDbType dbCluster.engineType)
      newResources.numberOfProxies.toString [] mappedExposeType newResources.proxyCpu
      newResources.proxyMemory sharding newResources.proxyCpuRequests
      newResources.proxyMemoryRequests
      (((dbCluster.proxy.expose.bind (·.ipSourceRanges)).getD []).map some)
      (if mappedExposeType = .loadBalancer then
        dbCluster.proxy.expose.bind (·.loadBalancerConfigName) else none)
      (decide (dbCluster.proxy.config.getD [] ≠ [])) (dbCluster.proxy.config.getD [])
      (omitRequests dbCluster.engineType newResources.proxyRequestsSynced
        dbCluster.proxy.resources)
    sharding := if dbCluster.engineType = .psmdb ∧ sharding = true then
      some
        { enabled := sharding
          shards := toNumber .finite (shardNr.getD [])
          configServerReplicas := shardConfigServers.getD (.ofInt 3) }
    else dbCluster.sharding }

/-- A custom number, `'1'` where there is none. -/
def customOrOne (custom : Option JsString) : JsString :=
  if falsy custom then js "1" else custom.getD []

def onSubmit (dbCluster : DbClusterResources) (v : ResourcesForm JsNumber) : DbClusterResources :=
  changeDbClusterResources dbCluster
    { cpu := v.cpu
      cpuRequests := v.cpuRequests
      memory := v.memory
      memoryRequests := v.memoryRequests
      disk := v.disk
      diskUnit := v.diskUnit
      numberOfNodes := unitsNr .finite v.numberOfNodes (customOrOne v.customNrOfNodes)
      proxyCpu := v.proxyCpu
      proxyCpuRequests := v.proxyCpuRequests
      proxyMemory := v.proxyMemory
      proxyMemoryRequests := v.proxyMemoryRequests
      numberOfProxies := unitsNr .finite v.numberOfProxies (customOrOne v.customNrOfProxies)
      nodeRequestsSynced := v.nodeRequestsSynced
      proxyRequestsSynced := v.proxyRequestsSynced }
    dbCluster.shardingEnabled v.shardNr v.shardConfigServers

/-- The cluster after opening the form and saving it unchanged, where the form accepts it. -/
def saveUnchanged (coerce : GoString → Option SemVer) (dbCluster : DbClusterResources) :
    Option DbClusterResources :=
  (resourcesFormSchema .finite dbCluster.defaultValues false false false (dbCluster.form coerce)).map
    (onSubmit dbCluster)

end OpenEverest.Ui
