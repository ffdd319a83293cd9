import OpenEverest.Framework.JsNumber
import OpenEverest.Ui.DbType

/-!
# The schema of the resources form

The form for the nodes, the proxies and their resources, when a cluster is created and when its
resources are edited. A resource is entered as a text or a number and comes out as a number.
-/

namespace OpenEverest.Ui

open Framework JsString

/-- The values of the form; a resource is an `N`. -/
structure ResourcesForm (N : Type) where
  dbType : DbType
  sharding : Bool
  shardNr : Option JsString
  shardConfigServers : Option JsNumber
  cpu : N
  cpuRequests : Option N
  memory : N
  memoryRequests : Option N
  disk : N
  diskUnit : JsString
  numberOfNodes : JsString
  customNrOfNodes : Option JsString
  proxyCpu : N
  proxyCpuRequests : Option N
  proxyMemory : N
  proxyMemoryRequests : Option N
  nodeRequestsSynced : Option Bool
  proxyRequestsSynced : Option Bool
  numberOfProxies : JsString
  customNrOfProxies : Option JsString
  deriving DecidableEq

inductive FormNumber where
  | text (s : JsString)
  | number (x : JsNumber)
  deriving DecidableEq

structure DefaultValues where
  numberOfNodes : Option JsString := none
  customNrOfNodes : Option JsString := none
  shardNr : Option JsString := none
  disk : Option JsNumber := none

structure Issue where
  path : JsString
  message : JsString
  deriving DecidableEq

def customNrUnitsInputValue : JsString := js "custom-units-nr"

def minNumberOfShards : JsString := js "1"

def issueWhen (c : Prop) [Decidable c] (path message : String) : List Issue :=
  if c then [⟨js path, js message⟩] else []

theorem issueWhen_eq_nil (c : Prop) [Decidable c] (path message : String) :
    issueWhen c path message = [] ↔ ¬ c := by
  unfold issueWhen
  split <;> simp [*]

section Schema

variable (round : ℚ → JsNumber)

def atLeast (minimum x : JsNumber) : Option JsNumber :=
  if x = .nan ∨ x.lt minimum then none else some x

def resourceToNumber (minimum : ℚ) : FormNumber → Option JsNumber
  | .text s => if s = [] then none else atLeast (round minimum) (toNumber round s)
  | .number x => atLeast (round minimum) x

def optionalResourceToNumber (minimum : ℚ) : Option FormNumber → Option (Option JsNumber)
  | none => some none
  | some (.text []) => some none
  | some (.text s) => (atLeast (round minimum) (toNumber round s)).map some
  | some (.number x) => (atLeast (round minimum) x).map some

def parseFields (v : ResourcesForm FormNumber) : Option (ResourcesForm JsNumber) := do
  -- `z.number()`
  if v.shardConfigServers = some .nan then none
  let cpu ← resourceToNumber round (6 / 10) v.cpu
  let cpuRequests ← optionalResourceToNumber round 0 v.cpuRequests
  let memory ← resourceToNumber round (512 / 1000) v.memory
  let memoryRequests ← optionalResourceToNumber round 0 v.memoryRequests
  let disk ← resourceToNumber round 1 v.disk
  let proxyCpu ← resourceToNumber round 0 v.proxyCpu
  let proxyCpuRequests ← optionalResourceToNumber round 0 v.proxyCpuRequests
  let proxyMemory ← resourceToNumber round 0 v.proxyMemory
  let proxyMemoryRequests ← optionalResourceToNumber round 0 v.proxyMemoryRequests
  some { v with
    cpu, cpuRequests, memory, memoryRequests, disk
    proxyCpu, proxyCpuRequests, proxyMemory, proxyMemoryRequests }

def numberOfResourcesValidator (numberOfResourcesStr customNrOfResoucesStr : JsString)
    (fieldPath : String) : List Issue :=
  if numberOfResourcesStr = customNrUnitsInputValue then
    let intNr := parseInt round customNrOfResoucesStr
    issueWhen (intNr = .nan ∨ intNr.lt (.ofInt 1)) fieldPath "Please enter a valid number"
  else []

/-- A request that is not kept equal to its limit is to be given, and not above it. -/
def requestIssues (synced : Option Bool) (request : Option JsNumber) (limit : JsNumber)
    (path message : String) : List Issue :=
  if synced = some true then []
  else match request with
    | none => [⟨js path, js "This field is required"⟩]
    | some request => issueWhen (limit.lt request) path message

/-- The number that a field stands for, when it may be the custom one. -/
def unitsNr (number custom : JsString) : JsNumber :=
  parseInt round (if number = customNrUnitsInputValue then custom else number)

/-- `parseInt` of a text that may be undefined. -/
def parseIntOptional (s : Option JsString) : JsNumber := (s.map (parseInt round)).getD .nan

def shardingIssues (defaultValues : DefaultValues) (allowShardingDescaling : Bool)
    (v : ResourcesForm JsNumber) : List Issue :=
  let intShardNr := parseInt round (v.shardNr.getD [])
  (if intShardNr = .nan ∨ intShardNr.lt (.ofInt 0) then
    [⟨js "shardNr", js "Please fill in valid values for sharding"⟩]
  else
    issueWhen (intShardNr.lt (toNumber round minNumberOfShards)) "shardNr"
      "The value cannot be less than 1" ++
    issueWhen (allowShardingDescaling = false ∧
        intShardNr.lt (parseInt round (defaultValues.shardNr.getD [])))
      "shardNr" "Descaling is not allowed") ++
  issueWhen (v.shardConfigServers = some (.ofInt 1) ∧
      (JsNumber.ofInt 1).lt (toNumber round (if v.numberOfNodes = customNrUnitsInputValue then
        v.customNrOfNodes.getD [] else v.numberOfNodes)))
    "shardConfigServers"
    "The number of configuration servers cannot be 1 if the number of database nodes is greater than 1"

def superRefine (defaultValues : DefaultValues) (allowShardingDescaling allowDescalingToOneNode
    allowDiskDescaling : Bool) (v : ResourcesForm JsNumber) : List Issue :=
  let customNrOfNodes := v.customNrOfNodes.getD []
  let customNrOfProxies := v.customNrOfProxies.getD []
  let areNodesCustom := v.numberOfNodes = customNrUnitsInputValue
  let areProxiesCustom := v.numberOfProxies = customNrUnitsInputValue
  let intNrNodes := unitsNr round v.numberOfNodes customNrOfNodes
  let intNrProxies := unitsNr round v.numberOfProxies customNrOfProxies
  numberOfResourcesValidator round v.numberOfNodes customNrOfNodes "customNrOfNodes" ++
  (if v.dbType ≠ .mongo ∨ v.dbType = .mongo ∧ v.sharding = true then
    numberOfResourcesValidator round v.numberOfProxies customNrOfProxies "customNrOfProxies"
  else []) ++
  issueWhen (areNodesCustom ∧ v.dbType = .mongo ∧ (parseInt round customNrOfNodes).isEven)
    "customNrOfNodes" "The number of nodes cannot be even" ++
  issueWhen (v.dbType = .mysql ∧ (JsNumber.ofInt 1).lt intNrNodes ∧ intNrProxies.equal (.ofInt 1))
    (if areProxiesCustom then "customNrOfProxies" else "numberOfProxies")
    "Number of proxies must be more than 1" ++
  issueWhen (allowDescalingToOneNode = false ∧ intNrNodes.equal (.ofInt 1) ∧
      (JsNumber.ofInt 1).lt (if defaultValues.numberOfNodes = some customNrUnitsInputValue then
        parseIntOptional round defaultValues.customNrOfNodes
      else parseIntOptional round defaultValues.numberOfNodes))
    "numberOfNodes" "Cannot scale down to one node." ++
  (if v.sharding = true then shardingIssues round defaultValues allowShardingDescaling v else []) ++
  issueWhen (allowDiskDescaling = false ∧ ∃ prevDiskValue ∈ defaultValues.disk,
      v.disk.lt prevDiskValue) "disk" "Descaling is not allowed" ++
  issueWhen (v.disk.isInteger = false) "disk" "Disk size must be an integer number." ++
  requestIssues v.nodeRequestsSynced v.cpuRequests v.cpu "cpuRequests"
    "CPU request cannot exceed CPU limit" ++
  requestIssues v.nodeRequestsSynced v.memoryRequests v.memory "memoryRequests"
    "Memory request cannot exceed Memory limit" ++
  requestIssues v.proxyRequestsSynced v.proxyCpuRequests v.proxyCpu "proxyCpuRequests"
    "Proxy CPU request cannot exceed CPU limit" ++
  requestIssues v.proxyRequestsSynced v.proxyMemoryRequests v.proxyMemory "proxyMemoryRequests"
    "Proxy Memory request cannot exceed Memory limit"

def resourcesFormSchema (defaultValues : DefaultValues) (allowShardingDescaling
    allowDescalingToOneNode allowDiskDescaling : Bool) (v : ResourcesForm FormNumber) :
    Option (ResourcesForm JsNumber) := do
  let parsed ← parseFields round v
  if superRefine round defaultValues allowShardingDescaling allowDescalingToOneNode
    allowDiskDescaling parsed = [] then some parsed else none

end Schema

end OpenEverest.Ui
