import OpenEverest.Ui.ResourceAmounts

/-!
# What saving the resources form keeps

A cluster that is saved unchanged is compared with the one before: its limits, requests and disk
by what they denote, its counts, its proxy type, its exposure and its sharding.
-/

namespace OpenEverest.Ui

open Framework JsString

/-! ### What a cluster denotes -/

@[ext] structure Exposure where
  type : ProxyExposeType
  loadBalancerConfigName : GoString
  ipSourceRanges : List GoString
  deriving DecidableEq

/-- An absent type is a cluster IP, and the deprecated types have new names. -/
def exposure (proxy : Proxy) : Exposure where
  type := mapDeprecatedExposeType (proxy.expose.bind (·.type))
  loadBalancerConfigName := (proxy.expose.bind (·.loadBalancerConfigName)).getD []
  ipSourceRanges := (proxy.expose.bind (·.ipSourceRanges)).getD []

section Same

variable (defaultRequest : DbEngineType → ℚ → Option ℚ)

/-- Every part is as before. -/
structure SameCluster (before after : DbClusterResources) : Prop where
  replicas : after.replicas = before.replicas
  disk : quantityValue after.storageSize = quantityValue before.storageSize
  cpu : SameAmount defaultRequest before.engineType (cpuAmount before.resources) (cpuAmount after.resources)
  memory : SameAmount defaultRequest before.engineType (memoryAmount before.resources)
    (memoryAmount after.resources)
  proxyType : after.proxy.type.getD [] = before.proxy.type.getD []
  proxyReplicas : after.proxy.replicas = before.proxy.replicas
  proxyCpu : SameAmount defaultRequest before.engineType (cpuAmount before.proxy.resources)
    (cpuAmount after.proxy.resources)
  proxyMemory : SameAmount defaultRequest before.engineType (memoryAmount before.proxy.resources)
    (memoryAmount after.proxy.resources)
  exposure : exposure after.proxy = exposure before.proxy
  sharding : after.sharding = before.sharding

end Same

/-! ### Clusters -/

def IsInt32 (x : JsNumber) : Prop := ∃ n : Int, x = .ofInt n ∧ -2 ^ 31 ≤ n ∧ n < 2 ^ 31

/-- The fields have the types of the API. -/
structure ValidCluster (c : DbClusterResources) : Prop where
  resources : ∀ r ∈ c.resources, ValidResources r
  proxyResources : ∀ r ∈ c.proxy.resources, ValidResources r
  disk : IsQuantity c.storageSize
  replicas : IsInt32 c.replicas
  proxyReplicas : ∀ n ∈ c.proxy.replicas, IsInt32 n
  shards : ∀ s ∈ c.sharding, IsInt32 s.shards

section Kept

variable (coerce : GoString → Option SemVer) (defaultRequest : DbEngineType → ℚ → Option ℚ)

/-- What is kept of an exposure: a load balancer has no source range without a text and not the
placeholder for its configuration, and any other exposure has neither. -/
def ExposureKept (e : Exposure) : Prop :=
  if e.type = .loadBalancer then
    e.loadBalancerConfigName ≠ emptyLoadBalancerConfiguration ∧ [] ∉ e.ipSourceRanges
  else e.loadBalancerConfigName = [] ∧ e.ipSourceRanges = []

def DbClusterResources.chosenNodes (c : DbClusterResources) : Option Size :=
  c.chosenSize coerce (nodesDefaultSizes coerce c.dbType c.dbVersion) (c.nodesSize coerce) c.resources

def DbClusterResources.chosenProxies (c : DbClusterResources) : Option Size :=
  c.chosenSize coerce (proxiesDefaultSizes c.dbType) c.proxiesSize c.proxyResources

/-- Saving the cluster unchanged keeps it. -/
structure Kept (c : DbClusterResources) : Prop where
  disk : QuantityKept DiskExact c.storageSize
  nodes : UnitsKept defaultRequest c.engineType (c.chosenNodes coerce) c.resources
  proxyType : c.proxy.type.getD [] = if c.hideProxies then [] else dbTypeToProxyType c.dbType
  proxies : ¬ c.hideProxies →
    UnitsKept defaultRequest c.engineType (c.chosenProxies coerce) c.proxy.resources
  hidden : c.hideProxies → c.proxy.replicas = none ∧
    NoAmount defaultRequest c.engineType (cpuAmount c.proxy.resources) ∧
    NoAmount defaultRequest c.engineType (memoryAmount c.proxy.resources)
  exposure : ExposureKept (exposure c.proxy)

end Kept

/-! ### What the form accepts -/

def NotInfinite (x : JsNumber) : Prop := x = .nan ∨ ∃ q, x = .finite q

theorem ResourceKind.notInfinite (k : ResourceKind) {s : JsString} (hs : IsQuantity s) :
    NotInfinite (k.read s) := by
  obtain ⟨Q, rfl⟩ := hs
  exact (k.read_text Q).imp_right fun ⟨q, hq, _⟩ => ⟨q, hq⟩

theorem NotInfinite.exists_le {x : JsNumber} (hx : NotInfinite x) {minimum : ℚ}
    (h : atLeast (.finite minimum) x = some x) : ∃ q, x = .finite q ∧ minimum ≤ q := by
  rw [atLeast] at h
  split at h
  · cases h
  · rename_i hbound
    rw [not_or] at hbound
    obtain ⟨q, rfl⟩ := hx.resolve_left hbound.1
    refine ⟨q, rfl, ?_⟩
    simpa [JsNumber.lt] using hbound.2

theorem atLeast_eq_some {minimum x y : JsNumber} (h : atLeast minimum x = some y) :
    y = x ∧ atLeast minimum x = some x := by
  have hy := h
  rw [atLeast] at h
  split at h
  · cases h
  · obtain rfl := Option.some.inj h
    exact ⟨rfl, hy⟩

theorem number_accepted {minimum : ℚ} {x y : JsNumber}
    (h : resourceToNumber .finite minimum (.number x) = some y) :
    y = x ∧ atLeast (.finite minimum) x = some x :=
  atLeast_eq_some h

theorem optionalNumber_accepted {minimum : ℚ} {x : JsNumber} {y : Option JsNumber}
    (h : optionalResourceToNumber .finite minimum (some (.number x)) = some y) :
    y = some x ∧ atLeast (.finite minimum) x = some x := by
  obtain ⟨z, hz, rfl⟩ := Option.map_eq_some_iff.mp h
  obtain ⟨rfl, haccepted⟩ := atLeast_eq_some hz
  exact ⟨rfl, haccepted⟩

section Accepted

variable (coerce : GoString → Option SemVer) (c : DbClusterResources)

def DbClusterResources.submitted : ResourcesForm JsNumber :=
  let form := c.form coerce
  let nodes := c.nodes coerce
  let proxies := c.proxies coerce
  { form with
    cpu := nodes.cpu
    cpuRequests := some nodes.cpuRequests
    memory := nodes.memory
    memoryRequests := some nodes.memoryRequests
    disk := (memoryParser c.storageSize none).value
    proxyCpu := proxies.cpu
    proxyCpuRequests := some proxies.cpuRequests
    proxyMemory := proxies.memory
    proxyMemoryRequests := some proxies.memoryRequests }

structure UnitBounds (minimumCpu minimumMemory : ℚ) (u : UnitValues) : Prop where
  cpu : atLeast (.finite minimumCpu) u.cpu = some u.cpu
  cpuRequests : atLeast (.finite 0) u.cpuRequests = some u.cpuRequests
  memory : atLeast (.finite minimumMemory) u.memory = some u.memory
  memoryRequests : atLeast (.finite 0) u.memoryRequests = some u.memoryRequests

variable {coerce c}

theorem parseFields_form {v : ResourcesForm JsNumber} (h : parseFields .finite (c.form coerce) = some v) :
    v = c.submitted coerce ∧ UnitBounds (6 / 10) (512 / 1000) (c.nodes coerce) ∧
      UnitBounds 0 0 (c.proxies coerce) ∧
      atLeast (.finite 1) (memoryParser c.storageSize none).value =
        some (memoryParser c.storageSize none).value := by
  unfold parseFields at h
  split at h
  · cases h
  · simp only [Option.bind_eq_bind, Option.bind_eq_some_iff, Option.some.injEq] at h
    obtain ⟨cpu, hcpu, cpuRequests, hcpuRequests, memory, hmemory, memoryRequests, hmemoryRequests,
      disk, hdisk, proxyCpu, hproxyCpu, proxyCpuRequests, hproxyCpuRequests, proxyMemory,
      hproxyMemory, proxyMemoryRequests, hproxyMemoryRequests, rfl⟩ := h
    obtain ⟨rfl, bcpu⟩ := number_accepted hcpu
    obtain ⟨rfl, bcpuRequests⟩ := optionalNumber_accepted hcpuRequests
    obtain ⟨rfl, bmemory⟩ := number_accepted hmemory
    obtain ⟨rfl, bmemoryRequests⟩ := optionalNumber_accepted hmemoryRequests
    obtain ⟨rfl, bdisk⟩ := number_accepted hdisk
    obtain ⟨rfl, bproxyCpu⟩ := number_accepted hproxyCpu
    obtain ⟨rfl, bproxyCpuRequests⟩ := optionalNumber_accepted hproxyCpuRequests
    obtain ⟨rfl, bproxyMemory⟩ := number_accepted hproxyMemory
    obtain ⟨rfl, bproxyMemoryRequests⟩ := optionalNumber_accepted hproxyMemoryRequests
    exact ⟨rfl, ⟨bcpu, bcpuRequests, bmemory, bmemoryRequests⟩,
      ⟨bproxyCpu, bproxyCpuRequests, bproxyMemory, bproxyMemoryRequests⟩, bdisk⟩

/-- What the refinement has checked of the counts. -/
structure CountsChecked (v : ResourcesForm JsNumber) : Prop where
  proxies : ¬ (v.dbType = .mongo ∧ v.sharding = false) →
    v.numberOfProxies = customNrUnitsInputValue →
    parseInt .finite (v.customNrOfProxies.getD []) ≠ .nan ∧
      (parseInt .finite (v.customNrOfProxies.getD [])).lt (.ofInt 1) = false
  shards : v.sharding = true → parseInt .finite (v.shardNr.getD []) ≠ .nan ∧
    (parseInt .finite (v.shardNr.getD [])).lt (toNumber .finite minNumberOfShards) = false

theorem countsChecked_of_superRefine {defaultValues : DefaultValues} {v : ResourcesForm JsNumber}
    (h : superRefine .finite defaultValues false false false v = []) : CountsChecked v := by
  simp only [superRefine, List.append_eq_nil_iff] at h
  obtain ⟨⟨⟨⟨⟨⟨⟨⟨⟨⟨⟨-, hproxies⟩, -⟩, -⟩, -⟩, hsharding⟩, -⟩, -⟩, -⟩, -⟩, -⟩, -⟩ := h
  constructor
  · intro hproxied hcustom
    have hchecked : v.dbType ≠ .mongo ∨ v.dbType = .mongo ∧ v.sharding = true := by
      by_contra hnot
      rw [not_or, not_not, not_and] at hnot
      exact hproxied ⟨hnot.1, Bool.eq_false_iff.mpr (hnot.2 hnot.1)⟩
    rw [if_pos hchecked, numberOfResourcesValidator, if_pos hcustom, issueWhen_eq_nil, not_or] at hproxies
    exact ⟨hproxies.1, by simpa using hproxies.2⟩
  · intro hsharded
    rw [if_pos hsharded, shardingIssues, List.append_eq_nil_iff] at hsharding
    obtain ⟨hshards, -⟩ := hsharding
    split at hshards
    · cases hshards
    · rename_i hnumber
      rw [not_or] at hnumber
      rw [List.append_eq_nil_iff, issueWhen_eq_nil] at hshards
      exact ⟨hnumber.1, by simpa using hshards.1⟩

end Accepted

section Counts

theorem IsInt32.parse {x : JsNumber} (hx : IsInt32 x) : parseInt .finite x.toString = x := by
  obtain ⟨n, rfl, hlower, hupper⟩ := hx
  exact JsNumber.parseInt_toString (by omega)

theorem IsInt32.text_ne {x : JsNumber} (hx : IsInt32 x) {s : JsString} (hs : parseInt .finite s = .nan) :
    x.toString ≠ s := by
  intro h
  have hparse := hx.parse
  rw [h, hs] at hparse
  obtain ⟨n, rfl, -⟩ := hx
  cases hparse

theorem parseInt_custom : parseInt .finite customNrUnitsInputValue = .nan := by decide +kernel

theorem nodesDbTypeMap_ne_custom (dbType : DbType) :
    ∀ units ∈ nodesDbTypeMap dbType, units ≠ customNrUnitsInputValue := by
  cases dbType <;> decide

theorem unitsNr_numberOfUnits (dbType : DbType) {text : JsString} (htext : text ≠ []) :
    unitsNr .finite (numberOfUnits dbType text) (customOrOne (some text)) = parseInt .finite text := by
  have hcustom : customOrOne (some text) = text := if_neg htext
  rw [unitsNr, numberOfUnits, hcustom]
  by_cases hmem : text ∈ nodesDbTypeMap dbType
  · rw [if_pos hmem, if_neg (nodesDbTypeMap_ne_custom dbType text hmem)]
  · rw [if_neg hmem, if_pos rfl]

theorem units_kept (dbType : DbType) {x : JsNumber} (hx : IsInt32 x) :
    unitsNr .finite (numberOfUnits dbType x.toString) (customOrOne (some x.toString)) = x := by
  rw [unitsNr_numberOfUnits dbType (hx.text_ne rfl), hx.parse]

variable {coerce : GoString → Option SemVer} {c : DbClusterResources}

theorem proxies_given (hchecked : CountsChecked (c.submitted coerce)) (hshown : ¬ c.hideProxies) :
    isProxy c.proxy = true ∧ ∃ n, c.proxy.replicas = some n := by
  have hcustom : c.proxiesText ∉ nodesDbTypeMap c.dbType →
      parseInt .finite c.proxiesText ≠ .nan ∧ (parseInt .finite c.proxiesText).lt (.ofInt 1) = false :=
    fun h => hchecked.proxies hshown (if_neg h)
  have hnone : [] ∉ nodesDbTypeMap c.dbType ∧ js "0" ∉ nodesDbTypeMap c.dbType := by
    cases c.dbType <;> decide
  cases hproxy : isProxy c.proxy with
  | false =>
    have htext : c.proxiesText = [] := by simp [DbClusterResources.proxiesText, hproxy]
    rw [htext] at hcustom
    exact absurd rfl (hcustom hnone.1).1
  | true =>
    refine ⟨rfl, ?_⟩
    cases hreplicas : c.proxy.replicas with
    | some n => exact ⟨n, rfl⟩
    | none =>
      have htext : c.proxiesText = js "0" := by
        simp only [DbClusterResources.proxiesText, hproxy, hreplicas, if_true, Option.getD_none]
        decide +kernel
      rw [htext] at hcustom
      exact absurd (hcustom hnone.2).2 (by decide +kernel)

theorem toNumber_toString {n : Int} (hn : 0 ≤ n) (hbound : n.natAbs < 10 ^ 21) :
    toNumber .finite (JsNumber.ofInt n).toString = .ofInt n := by
  have htext : (JsNumber.ofInt n).toString = natDigits n.natAbs := by
    rw [JsNumber.toString_ofInt hbound, JsNumber.intSign, if_neg (not_lt.mpr hn)]
    rfl
  rw [htext, toNumber_digits (natDigits_digits _) (natDigits_ne_nil _), decimalValue_natDigits,
    Nat.cast_natAbs, abs_of_nonneg hn, JsNumber.ofInt]

variable (coerce) in
theorem shards_submitted {s : Sharding} (hs : c.sharding = some s) (henabled : s.enabled = true) :
    (c.submitted coerce).shardNr = some s.shards.toString ∧
      (c.submitted coerce).shardConfigServers = some s.configServerReplicas := by
  have hfilter : c.sharding.filter (·.enabled) = some s := by rw [hs, Option.filter_some_pos henabled]
  constructor
  · exact congrArg (Option.map fun s : Sharding => s.shards.toString) hfilter
  · exact congrArg (Option.map fun s : Sharding => s.configServerReplicas) hfilter

theorem sharding_kept (hshards : ∀ s ∈ c.sharding, IsInt32 s.shards)
    (hchecked : CountsChecked (c.submitted coerce)) :
    (onSubmit c (c.submitted coerce)).sharding = c.sharding := by
  by_cases hsharded : c.engineType = .psmdb ∧ c.shardingEnabled = true
  · obtain ⟨s, hs, henabled⟩ := (Option.any_eq_true _ _).mp hsharded.2
    obtain ⟨hshardNr, hconfigServers⟩ := shards_submitted coerce hs henabled
    obtain ⟨n, hn, hlower, hupper⟩ := hshards s hs
    have hparse : parseInt .finite s.shards.toString = s.shards := (hshards s hs).parse
    have hone : 0 ≤ n := by
      have h := (hchecked.shards hsharded.2).2
      rw [hshardNr, Option.getD_some, hparse, hn,
        show toNumber .finite minNumberOfShards = .ofInt 1 by decide +kernel, JsNumber.lt_ofInt] at h
      have hle : ¬ n < 1 := of_decide_eq_false h
      omega
    have hnumber : toNumber .finite ((c.submitted coerce).shardNr.getD []) = s.shards := by
      rw [hshardNr, Option.getD_some, hn]
      exact toNumber_toString hone (by omega)
    have hservers : (c.submitted coerce).shardConfigServers.getD (.ofInt 3) = s.configServerReplicas := by
      rw [hconfigServers, Option.getD_some]
    rw [hs]
    refine (if_pos hsharded).trans ?_
    rw [hnumber, hservers, hsharded.2, ← henabled]
  · exact if_neg hsharded

end Counts

/-! ### The exposure -/

theorem mapDeprecatedExposeType_name (t : ProxyExposeType) :
    mapDeprecatedExposeType (some t.name) = t := by
  cases t <;> decide

theorem filterMap_ranges (ranges : List GoString) :
    (ranges.map some).filterMap (fun sourceRange => sourceRange.filter (· ≠ [])) =
      ranges.filter (· ≠ []) := by
  rw [List.filterMap_map, ← List.filterMap_eq_filter]
  congr 1

section Exposure

variable {coerce : GoString → Option SemVer} {c : DbClusterResources}

theorem expose_submitted (v : ResourcesForm JsNumber) : (onSubmit c v).proxy.expose =
    some (getExposteConfig (exposure c.proxy).type
      (if (if (exposure c.proxy).type = .loadBalancer then
          c.proxy.expose.bind (·.loadBalancerConfigName) else none) ≠ some emptyLoadBalancerConfiguration
        then (if (exposure c.proxy).type = .loadBalancer then
          c.proxy.expose.bind (·.loadBalancerConfigName) else none)
        else some [])
      (((exposure c.proxy).ipSourceRanges).map some)) := by
  unfold onSubmit changeDbClusterResources getProxySpec
  split
  · rfl
  · rfl

theorem exposure_getExposteConfig {proxy : Proxy} {t : ProxyExposeType} {name : Option GoString}
    {ranges : List GoString} (h : proxy.expose = some (getExposteConfig t name (ranges.map some))) :
    exposure proxy = ⟨t, name.getD [], if t = .loadBalancer then ranges.filter (· ≠ []) else []⟩ := by
  rw [exposure, h]
  simp only [Option.bind_some, getExposteConfig, mapDeprecatedExposeType_name, filterMap_ranges]
  split <;> rfl

theorem exposure_iff (v : ResourcesForm JsNumber) :
    exposure (onSubmit c v).proxy = exposure c.proxy ↔ ExposureKept (exposure c.proxy) := by
  rw [exposure_getExposteConfig (expose_submitted v), ExposureKept]
  by_cases hbalancer : (exposure c.proxy).type = .loadBalancer
  · have hname : ∀ name : Option GoString,
        (if name ≠ some emptyLoadBalancerConfiguration then name else some []).getD [] = name.getD [] ↔
          name.getD [] ≠ emptyLoadBalancerConfiguration := by
      intro name
      have hplaceholder : emptyLoadBalancerConfiguration ≠ [] := by decide
      cases name with
      | none => simp [hplaceholder.symm]
      | some name =>
        by_cases h : name = emptyLoadBalancerConfiguration
        · simp [h, hplaceholder.symm]
        · simp [h]
    have hranges : (exposure c.proxy).ipSourceRanges.filter (· ≠ []) = (exposure c.proxy).ipSourceRanges ↔
        [] ∉ (exposure c.proxy).ipSourceRanges := by
      rw [List.filter_eq_self]
      constructor
      · intro h hmem
        exact absurd (h [] hmem) (by simp)
      · intro h range hrange
        rw [decide_eq_true_iff]
        rintro rfl
        exact h hrange
    rw [Exposure.ext_iff]
    simp only [hbalancer, if_true, true_and, hranges]
    exact and_congr_left' (hname _)
  · rw [Exposure.ext_iff]
    simp only [hbalancer, if_false, true_and]
    rw [eq_comm, eq_comm (a := [])]
    exact Iff.rfl

end Exposure

/-! ### The whole cluster -/

theorem unitAccepted_of_bounds {chosen : Option Size} {resources : Option Resources} {u : UnitValues}
    {minimumCpu minimumMemory : ℚ} (hvalid : ∀ r ∈ resources, ValidResources r)
    (hread : UnitRead chosen resources u) (hbounds : UnitBounds minimumCpu minimumMemory u)
    (hcpu : 0 ≤ minimumCpu) (hmemory : 0 ≤ minimumMemory) : UnitAccepted u := by
  have hcpuAmount := quantityAmount_cpu hvalid
  have hmemoryAmount := quantityAmount_memory hvalid
  have hrequest : ∀ {a : Amount}, QuantityAmount a → IsQuantity a.requestText := by
    intro a ha
    cases hgiven : a.request with
    | none =>
      rw [Amount.requestText_none hgiven]
      exact ha.limit
    | some request =>
      rw [Amount.requestText_some hgiven]
      exact ha.request request hgiven
  have hcpuLimit : NotInfinite u.cpu := by
    rw [hread.cpu]
    cases chosen with
    | none => exact cpuKind.notInfinite hcpuAmount.limit
    | some size => exact Or.inr ⟨size.cpu, rfl⟩
  have hmemoryLimit : NotInfinite u.memory := by
    rw [hread.memory]
    cases chosen with
    | none => exact memoryKind.notInfinite hmemoryAmount.limit
    | some size => exact Or.inr ⟨size.memory, rfl⟩
  have hcpuRequests : NotInfinite u.cpuRequests := by
    rw [hread.cpuRequests]
    split
    · exact hcpuLimit
    · exact cpuKind.notInfinite (hrequest hcpuAmount)
  have hmemoryRequests : NotInfinite u.memoryRequests := by
    rw [hread.memoryRequests]
    split
    · exact hmemoryLimit
    · exact memoryKind.notInfinite (hrequest hmemoryAmount)
  have hnonneg : ∀ {x : JsNumber} {minimum : ℚ}, NotInfinite x → 0 ≤ minimum →
      atLeast (.finite minimum) x = some x → Nonneg x := by
    intro x minimum hx hminimum h
    obtain ⟨q, hq, hle⟩ := hx.exists_le h
    exact ⟨q, hq, hminimum.trans hle⟩
  exact ⟨hnonneg hcpuLimit hcpu hbounds.cpu, hnonneg hmemoryLimit hmemory hbounds.memory,
    hnonneg hcpuRequests le_rfl hbounds.cpuRequests,
    hnonneg hmemoryRequests le_rfl hbounds.memoryRequests⟩

section Cluster

variable (coerce : GoString → Option SemVer) (defaultRequest : DbEngineType → ℚ → Option ℚ)
  {c : DbClusterResources}

/-- What the schema has checked where it accepts the form. -/
structure FormAccepted (coerce : GoString → Option SemVer) (c : DbClusterResources) : Prop where
  nodes : UnitBounds (6 / 10) (512 / 1000) (c.nodes coerce)
  proxies : UnitBounds 0 0 (c.proxies coerce)
  disk : atLeast (.finite 1) (memoryParser c.storageSize none).value =
    some (memoryParser c.storageSize none).value
  counts : CountsChecked (c.submitted coerce)

theorem formAccepted_of_saved {c' : DbClusterResources} (h : saveUnchanged coerce c = some c') :
    FormAccepted coerce c ∧ c' = onSubmit c (c.submitted coerce) := by
  obtain ⟨v, hv, rfl⟩ := Option.map_eq_some_iff.mp h
  simp only [resourcesFormSchema, Option.bind_eq_bind, Option.bind_eq_some_iff] at hv
  obtain ⟨parsed, hparsed, hv⟩ := hv
  split at hv
  · rename_i hissues
    obtain rfl := Option.some.inj hv
    obtain ⟨rfl, hnodes, hproxies, hdisk⟩ := parseFields_form hparsed
    exact ⟨⟨hnodes, hproxies, hdisk, countsChecked_of_superRefine hissues⟩, rfl⟩
  · cases hv

theorem nodes_read (hvalid : ValidCluster c) :
    UnitRead (c.chosenNodes coerce) c.resources (c.nodes coerce) ∧
      ChosenSize (c.chosenNodes coerce) c.resources := by
  have hsizes := nodesDefaultSizes_hundredths coerce c.dbType c.dbVersion
  exact ⟨settle_read hsizes hvalid.resources, chosenSize_size hsizes hvalid.resources _⟩

theorem proxies_read (hvalid : ValidCluster c) (hshown : ¬ c.hideProxies) (hproxy : isProxy c.proxy = true) :
    UnitRead (c.chosenProxies coerce) c.proxy.resources (c.proxies coerce) ∧
      ChosenSize (c.chosenProxies coerce) c.proxy.resources := by
  have hsizes := proxiesDefaultSizes_hundredths c.dbType
  have hresources : c.proxyResources = c.proxy.resources := if_pos hproxy
  rw [DbClusterResources.chosenProxies, DbClusterResources.proxies, DbClusterResources.proxiesSize,
    hresources]
  simp only [if_neg hshown]
  exact ⟨settle_read hsizes hvalid.proxyResources, chosenSize_size hsizes hvalid.proxyResources _⟩

theorem proxy_shown (hshown : ¬ c.hideProxies) :
    (onSubmit c (c.submitted coerce)).proxy.type = some (dbTypeToProxyType c.dbType) ∧
    (onSubmit c (c.submitted coerce)).proxy.replicas = some (unitsNr .finite
      (unitsNr .finite (numberOfUnits c.dbType c.proxiesText) (customOrOne (some c.proxiesText))).toString []) ∧
    (onSubmit c (c.submitted coerce)).proxy.resources =
      some (unitSpec c.engineType c.proxy.resources (c.proxies coerce)) := by
  have h : ¬ (dbEngineToDbType c.engineType = .mongo ∧ c.shardingEnabled = false) := hshown
  exact ⟨congrArg Proxy.type (if_neg h), congrArg Proxy.replicas (if_neg h),
    congrArg Proxy.resources (if_neg h)⟩

theorem proxy_hidden (hhidden : c.hideProxies) (v : ResourcesForm JsNumber) :
    (onSubmit c v).proxy.type = none ∧ (onSubmit c v).proxy.replicas = none ∧
      (onSubmit c v).proxy.resources = none := by
  have h : dbEngineToDbType c.engineType = .mongo ∧ c.shardingEnabled = false := hhidden
  exact ⟨congrArg Proxy.type (if_pos h), congrArg Proxy.replicas (if_pos h),
    congrArg Proxy.resources (if_pos h)⟩

theorem sameAmount_none (field : ResourceRequirements → Option JsString)
    (flat : Resources → Option JsString) {engineType : DbEngineType} {a : Amount} :
    SameAmount defaultRequest engineType a (amount field flat none) ↔
      NoAmount defaultRequest engineType a := by
  have hzero : quantityValue (js "0") = some 0 := by decide +kernel
  have hlimit : quantityValue (amount field flat none).limit = some 0 := hzero
  have hrequest : (amount field flat none).effectiveRequest defaultRequest engineType =
      some (defaultRequest engineType 0) := congrArg (Option.map (defaultRequest engineType)) hzero
  have hgiven : quantityValue a.limit = some 0 →
      (some (defaultRequest engineType 0) = a.effectiveRequest defaultRequest engineType ↔
        ∀ s ∈ a.request, (quantityValue s).map some = some (defaultRequest engineType 0)) := by
    intro hsame
    unfold Amount.effectiveRequest
    cases a.request with
    | none => simp [hsame]
    | some request => simp [eq_comm]
  constructor
  · rintro ⟨hl, hr⟩
    rw [hlimit] at hl
    rw [hrequest] at hr
    exact ⟨hl.symm, (hgiven hl.symm).mp hr⟩
  · rintro ⟨hl, hr⟩
    exact ⟨hlimit.trans hl.symm, hrequest.trans ((hgiven hl).mpr hr)⟩

theorem disk_iff (hdisk : IsQuantity c.storageSize)
    (haccepted : atLeast (.finite 1) (memoryParser c.storageSize none).value =
      some (memoryParser c.storageSize none).value) :
    quantityValue (onSubmit c (c.submitted coerce)).storageSize = quantityValue c.storageSize ↔
      QuantityKept DiskExact c.storageSize := by
  have hkept : ∀ Q : Quantity, Q.text = c.storageSize →
      (quantityValue (onSubmit c (c.submitted coerce)).storageSize = some Q.value ↔ DiskExact Q) := by
    intro Q hQ
    have hread : NotInfinite (memoryParser c.storageSize none).value := by
      rw [← hQ]
      exact Or.inr ⟨_, disk_value Q⟩
    obtain ⟨q, hq, hone⟩ := hread.exists_le haccepted
    have hsaved : (onSubmit c (c.submitted coerce)).storageSize =
        JsNumber.toString (memoryParser c.storageSize none).value ++
          (memoryParser c.storageSize none).originalUnit := rfl
    rw [hsaved, hq, ← hQ]
    rw [← hQ] at hq
    exact disk_written hq hone
  have hvalue : ∀ Q : Quantity, Q.text = c.storageSize → quantityValue c.storageSize = some Q.value := by
    intro Q hQ
    rw [← hQ, quantityValue_text]
  obtain ⟨Q, hQ⟩ := hdisk
  constructor
  · intro hsame
    exact ⟨Q, hQ, (hkept Q hQ).mp (hsame.trans (hvalue Q hQ))⟩
  · rintro ⟨Q', hQ', hexact⟩
    exact ((hkept Q' hQ').mpr hexact).trans (hvalue Q' hQ').symm

theorem nodes_iff (hvalid : ValidCluster c) (haccepted : FormAccepted coerce c) :
    SameAmount defaultRequest c.engineType (cpuAmount c.resources)
        (cpuAmount (onSubmit c (c.submitted coerce)).resources) ∧
      SameAmount defaultRequest c.engineType (memoryAmount c.resources)
        (memoryAmount (onSubmit c (c.submitted coerce)).resources) ↔
      UnitsKept defaultRequest c.engineType (c.chosenNodes coerce) c.resources := by
  obtain ⟨hread, hchosen⟩ := nodes_read coerce hvalid
  exact sameUnits_iff hvalid.resources hread hchosen
    (unitAccepted_of_bounds hvalid.resources hread haccepted.nodes (by norm_num) (by norm_num))

theorem proxies_iff_shown (hvalid : ValidCluster c) (haccepted : FormAccepted coerce c)
    (hshown : ¬ c.hideProxies) :
    SameAmount defaultRequest c.engineType (cpuAmount c.proxy.resources)
        (cpuAmount (onSubmit c (c.submitted coerce)).proxy.resources) ∧
      SameAmount defaultRequest c.engineType (memoryAmount c.proxy.resources)
        (memoryAmount (onSubmit c (c.submitted coerce)).proxy.resources) ↔
      UnitsKept defaultRequest c.engineType (c.chosenProxies coerce) c.proxy.resources := by
  obtain ⟨hproxy, -⟩ := proxies_given haccepted.counts hshown
  obtain ⟨hread, hchosen⟩ := proxies_read coerce hvalid hshown hproxy
  rw [(proxy_shown coerce hshown).2.2]
  exact sameUnits_iff hvalid.proxyResources hread hchosen
    (unitAccepted_of_bounds hvalid.proxyResources hread haccepted.proxies le_rfl le_rfl)

theorem proxyReplicas_shown (hvalid : ValidCluster c) (haccepted : FormAccepted coerce c)
    (hshown : ¬ c.hideProxies) :
    (onSubmit c (c.submitted coerce)).proxy.replicas = c.proxy.replicas := by
  obtain ⟨hproxy, n, hn⟩ := proxies_given haccepted.counts hshown
  have hint : IsInt32 n := hvalid.proxyReplicas n hn
  have htext : c.proxiesText = n.toString := by
    rw [DbClusterResources.proxiesText, if_pos hproxy, hn, Option.getD_some]
  rw [(proxy_shown coerce hshown).2.1, htext, units_kept c.dbType hint, hn, unitsNr,
    if_neg (hint.text_ne parseInt_custom), hint.parse]

theorem replicas_kept (hvalid : ValidCluster c) :
    (onSubmit c (c.submitted coerce)).replicas = c.replicas :=
  units_kept c.dbType hvalid.replicas

theorem proxies_iff (hvalid : ValidCluster c) (haccepted : FormAccepted coerce c) :
    ((onSubmit c (c.submitted coerce)).proxy.type.getD [] = c.proxy.type.getD [] ∧
      (onSubmit c (c.submitted coerce)).proxy.replicas = c.proxy.replicas ∧
      SameAmount defaultRequest c.engineType (cpuAmount c.proxy.resources)
        (cpuAmount (onSubmit c (c.submitted coerce)).proxy.resources) ∧
      SameAmount defaultRequest c.engineType (memoryAmount c.proxy.resources)
        (memoryAmount (onSubmit c (c.submitted coerce)).proxy.resources)) ↔
    (c.proxy.type.getD [] = if c.hideProxies then [] else dbTypeToProxyType c.dbType) ∧
      (¬ c.hideProxies →
        UnitsKept defaultRequest c.engineType (c.chosenProxies coerce) c.proxy.resources) ∧
      (c.hideProxies → c.proxy.replicas = none ∧
        NoAmount defaultRequest c.engineType (cpuAmount c.proxy.resources) ∧
        NoAmount defaultRequest c.engineType (memoryAmount c.proxy.resources)) := by
  by_cases hhidden : c.hideProxies
  · obtain ⟨htype, hcount, hresources⟩ := proxy_hidden hhidden (c.submitted coerce)
    have hcpu : SameAmount defaultRequest c.engineType (cpuAmount c.proxy.resources) (cpuAmount none) ↔ _ :=
      sameAmount_none defaultRequest _ _
    have hmemory : SameAmount defaultRequest c.engineType (memoryAmount c.proxy.resources)
        (memoryAmount none) ↔ _ := sameAmount_none defaultRequest _ _
    rw [htype, hcount, hresources, hcpu, hmemory, if_pos hhidden, Option.getD_none, eq_comm,
      eq_comm (a := none)]
    simp only [hhidden, not_true_eq_false, false_implies, true_implies, true_and]
  · have htype := (proxy_shown coerce hhidden).1
    rw [proxies_iff_shown coerce defaultRequest hvalid haccepted hhidden,
      proxyReplicas_shown coerce hvalid haccepted hhidden, htype, if_neg hhidden, Option.getD_some,
      eq_comm]
    simp only [hhidden, not_false_eq_true, false_implies, true_implies, true_and, and_true]

/-- Saving the form unchanged leaves the cluster as it was exactly when it is kept. -/
theorem sameCluster_iff {c' : DbClusterResources} (hvalid : ValidCluster c)
    (hsaved : saveUnchanged coerce c = some c') :
    SameCluster defaultRequest c c' ↔ Kept coerce defaultRequest c := by
  obtain ⟨haccepted, rfl⟩ := formAccepted_of_saved coerce hsaved
  have hdisk := disk_iff coerce hvalid.disk haccepted.disk
  have hnodes := nodes_iff coerce defaultRequest hvalid haccepted
  have hproxies := proxies_iff coerce defaultRequest hvalid haccepted
  have hexposure := exposure_iff (c := c) (c.submitted coerce)
  constructor
  · intro h
    obtain ⟨htype, hshown, hhidden⟩ :=
      hproxies.mp ⟨h.proxyType, h.proxyReplicas, h.proxyCpu, h.proxyMemory⟩
    exact ⟨hdisk.mp h.disk, hnodes.mp ⟨h.cpu, h.memory⟩, htype, hshown, hhidden,
      hexposure.mp h.exposure⟩
  · intro h
    obtain ⟨hcpu, hmemory⟩ := hnodes.mpr h.nodes
    obtain ⟨htype, hcount, hproxyCpu, hproxyMemory⟩ :=
      hproxies.mpr ⟨h.proxyType, h.proxies, h.hidden⟩
    exact ⟨replicas_kept coerce hvalid, hdisk.mpr h.disk, hcpu, hmemory, htype, hcount, hproxyCpu,
      hproxyMemory, hexposure.mpr h.exposure, sharding_kept hvalid.shards haccepted.counts⟩

end Cluster

/-! ### Samples -/

def sampleCluster (engineType : DbEngineType) (proxyType memory : String) : DbClusterResources where
  engineType := engineType
  replicas := .ofInt 3
  resources := some { limits := some ⟨some (js "1500m"), some (js memory)⟩ }
  storageSize := js "25Gi"
  proxy :=
    { type := some (ascii proxyType)
      replicas := some (.ofInt 3)
      resources := some { limits := some ⟨some (js "200m"), some (js "500M")⟩ }
      expose := some { type := some (ascii "ClusterIP") } }

theorem isQuantity_of_eq {s : JsString} (n : Nat) (u : SIUnit) (h : natDigits n ++ u.text = s) :
    IsQuantity s :=
  h ▸ isQuantity_natDigits n u

theorem sampleCluster_valid (engineType : DbEngineType) (proxyType : String) {memory : String}
    (hmemory : IsQuantity (js memory)) : ValidCluster (sampleCluster engineType proxyType memory) := by
  have hthree : IsInt32 (.ofInt 3) := ⟨3, rfl, by norm_num, by norm_num⟩
  have hlimits : ∀ {cpu memory : JsString}, IsQuantity cpu → IsQuantity memory →
      ∀ r ∈ some { limits := some ⟨some cpu, some memory⟩ : Resources }, ValidResources r := by
    rintro cpu memory hcpu hmemory r hr
    obtain rfl := Option.some.inj hr
    constructor
    · rintro limits hlimits
      obtain rfl := Option.some.inj hlimits
      exact ⟨fun s hs => Option.some.inj hs ▸ hcpu, fun s hs => Option.some.inj hs ▸ hmemory⟩
    · intro requests hrequests
      cases hrequests
    · intro s hs
      cases hs
    · intro s hs
      cases hs
  constructor
  · exact hlimits (isQuantity_of_eq 1500 .milli (by decide +kernel)) hmemory
  · exact hlimits (isQuantity_of_eq 200 .milli (by decide +kernel))
      (isQuantity_of_eq 500 .mega (by decide +kernel))
  · have hdisk : natDigits 25 ++ SIUnit.gibi.text = js "25Gi" := by decide +kernel
    exact isQuantity_of_eq 25 .gibi hdisk
  · exact hthree
  · intro n hn
    obtain rfl := Option.some.inj hn
    exact hthree
  · intro s hs
    cases hs

theorem sameCluster_iff_sample : ∃ saved,
    saveUnchanged (fun _ => none) (sampleCluster .postgresql "pgbouncer" "2Gi") = some saved ∧
      (SameCluster (fun _ q => some q) (sampleCluster .postgresql "pgbouncer" "2Gi") saved ↔
        Kept (fun _ => none) (fun _ q => some q) (sampleCluster .postgresql "pgbouncer" "2Gi")) := by
  have haccepted : (saveUnchanged (fun _ => none) (sampleCluster .postgresql "pgbouncer" "2Gi")).isSome := by
    decide +kernel
  obtain ⟨saved, hsaved⟩ := Option.isSome_iff_exists.mp haccepted
  exact ⟨saved, hsaved, sameCluster_iff (fun _ => none) (fun _ q => some q)
    (sampleCluster_valid .postgresql "pgbouncer" (isQuantity_of_eq 2 .gibi (by decide +kernel))) hsaved⟩

/-- ProxySQL becomes HAProxy, and a memory in bytes one in gigabytes. -/
theorem sameCluster_broken :
    (ValidCluster (sampleCluster .pxc "proxysql" "2Gi") ∧ ∃ saved,
      saveUnchanged (fun _ => none) (sampleCluster .pxc "proxysql" "2Gi") = some saved ∧
        ¬ SameCluster (fun _ q => some q) (sampleCluster .pxc "proxysql" "2Gi") saved) ∧
    (ValidCluster (sampleCluster .postgresql "pgbouncer" "4294967296") ∧ ∃ saved,
      saveUnchanged (fun _ => none) (sampleCluster .postgresql "pgbouncer" "4294967296") = some saved ∧
        ¬ SameCluster (fun _ q => some q) (sampleCluster .postgresql "pgbouncer" "4294967296") saved) := by
  have hproxysql : (saveUnchanged (fun _ => none) (sampleCluster .pxc "proxysql" "2Gi")).map
      (fun saved => saved.proxy.type) = some (some (ascii "haproxy")) := by decide +kernel
  have hbytes : (saveUnchanged (fun _ => none) (sampleCluster .postgresql "pgbouncer" "4294967296")).map
      (fun saved => (memoryAmount saved.resources).limit) = some (js "4294967296G") := by
    decide +kernel
  obtain ⟨saved, hsaved, htype⟩ := Option.map_eq_some_iff.mp hproxysql
  obtain ⟨saved', hsaved', hlimit⟩ := Option.map_eq_some_iff.mp hbytes
  refine ⟨⟨sampleCluster_valid .pxc "proxysql" (isQuantity_of_eq 2 .gibi (by decide +kernel)),
    saved, hsaved, ?_⟩, sampleCluster_valid .postgresql "pgbouncer"
      (isQuantity_of_eq 4294967296 .one (by decide +kernel)), saved', hsaved', ?_⟩
  · intro hsame
    have h := hsame.proxyType
    rw [htype] at h
    exact absurd h (by decide)
  · intro hsame
    have h := hsame.memory.limit
    rw [hlimit] at h
    exact absurd h (by decide +kernel)

end OpenEverest.Ui
