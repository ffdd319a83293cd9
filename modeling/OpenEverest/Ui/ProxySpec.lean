import OpenEverest.Ui.ResourcesForm

/-!
# The proxy spec of a cluster

Both the form that creates a cluster and the one that edits its resources build the whole spec
of the proxies. A field that is absent is `none`.
-/

namespace OpenEverest.Ui

open Framework JsString

structure ResourceRequirements where
  cpu : Option JsString := none
  memory : Option JsString := none
  deriving DecidableEq

structure Resources where
  limits : Option ResourceRequirements := none
  requests : Option ResourceRequirements := none
  cpu : Option JsString := none
  memory : Option JsString := none
  deriving DecidableEq

inductive ProxyExposeType where
  | clusterIP
  | loadBalancer
  | nodePort
  deriving DecidableEq

def ProxyExposeType.name : ProxyExposeType → GoString
  | clusterIP => ascii "ClusterIP"
  | loadBalancer => ascii "LoadBalancer"
  | nodePort => ascii "NodePort"

structure ProxyExposeConfig where
  type : Option GoString := none
  loadBalancerConfigName : Option GoString := none
  ipSourceRanges : Option (List GoString) := none
  deriving DecidableEq

structure Proxy where
  type : Option GoString := none
  replicas : Option JsNumber := none
  resources : Option Resources := none
  expose : Option ProxyExposeConfig := none
  config : Option GoString := none
  deriving DecidableEq

def emptyLoadBalancerConfiguration : GoString := ascii "- No configuration -"

def getExposteConfig (exposureMethod : ProxyExposeType) (loadBalancerConfigName : Option GoString)
    (sourceRanges : List (Option GoString)) : ProxyExposeConfig where
  type := some exposureMethod.name
  loadBalancerConfigName := loadBalancerConfigName
  ipSourceRanges :=
    if exposureMethod = .loadBalancer then
      some (sourceRanges.filterMap fun sourceRange => sourceRange.filter (· ≠ []))
    else none

section Proxy

-- The texts of numbers.
variable (round : ℚ → JsNumber) (toString : JsNumber → JsString)

/-- The limits that are written for a CPU and a memory, and the requests unless they are left
out: those given, or else the limits. -/
def resourcesSpec (cpu memory : JsNumber) (cpuRequests memoryRequests : Option JsNumber)
    (omitRequests : Bool) : Resources where
  limits := some ⟨some (toString cpu), some (toString memory ++ js "G")⟩
  requests := if omitRequests then none else
    some ⟨some (toString (cpuRequests.getD cpu)),
      some (toString (memoryRequests.getD memory) ++ js "G")⟩

def getProxySpec (dbType : DbType) (numberOfProxies customNrOfProxies : JsString)
    (exposureMethod : ProxyExposeType) (cpu memory : JsNumber) (sharding : Bool)
    (cpuRequests memoryRequests : Option JsNumber) (sourceRanges : List (Option GoString))
    (loadBalancerConfigName : Option GoString) (proxyConfigEnabled : Bool) (proxyConfig : GoString)
    (omitRequests : Bool) : Proxy :=
  let expose := getExposteConfig exposureMethod
    (if loadBalancerConfigName ≠ some emptyLoadBalancerConfiguration then loadBalancerConfigName
      else some [])
    sourceRanges
  if dbType = .mongo ∧ sharding = false then { expose := some expose }
  else
    { type := some (dbTypeToProxyType dbType)
      replicas := some (unitsNr round numberOfProxies customNrOfProxies)
      resources := some
        (resourcesSpec toString cpu memory cpuRequests memoryRequests omitRequests)
      expose := some expose
      config := if proxyConfigEnabled = true ∧ proxyConfig ≠ [] then some proxyConfig else none }

end Proxy

end OpenEverest.Ui
