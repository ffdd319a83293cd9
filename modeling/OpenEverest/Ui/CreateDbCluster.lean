import OpenEverest.Ui.ProxySpec
import OpenEverest.Validation.ShardingCounts

/-!
# Creating a cluster from the form

The form's texts become numbers of a cluster object, which is sent as JSON and read into 32-bit
integers. The schema of the form and the validators of the server look at the same counts.
-/

namespace OpenEverest.Ui

open Framework JsString Api

/-- The values of the other steps that the mapping takes; the step of the source ranges refuses
one that comes twice. -/
structure DbWizard where
  dbVersion : GoString
  exposureMethod : ProxyExposeType
  sourceRanges : List (Option GoString)
  loadBalancerConfigName : Option GoString
  proxyConfigEnabled : Bool
  proxyConfig : GoString
  ranges_nodup : exposureMethod = .loadBalancer →
    (sourceRanges.filterMap fun sourceRange => sourceRange.filter (· ≠ [])).Nodup

structure ShardingPayload where
  enabled : Bool
  shards : JsNumber
  configServerReplicas : JsNumber

structure DbClusterPayload where
  engineType : GoString
  version : GoString
  replicas : JsNumber
  resources : Resources
  storageSize : JsString
  proxy : Proxy
  sharding : Option ShardingPayload

section Payload

variable (round : ℚ → JsNumber) (toString : JsNumber → JsString)

def formValuesToPayloadMapping (w : DbWizard) (v : ResourcesForm JsNumber) : DbClusterPayload where
  engineType := (dbTypeToDbEngine v.dbType).name
  version := w.dbVersion
  replicas := unitsNr round v.numberOfNodes (v.customNrOfNodes.getD [])
  resources := resourcesSpec toString v.cpu v.memory v.cpuRequests v.memoryRequests false
  storageSize := toString v.disk ++ v.diskUnit
  proxy := getProxySpec round toString v.dbType v.numberOfProxies (v.customNrOfProxies.getD [])
    w.exposureMethod v.proxyCpu v.proxyMemory v.sharding v.proxyCpuRequests v.proxyMemoryRequests
    w.sourceRanges
    (if w.exposureMethod = .loadBalancer ∨
        w.loadBalancerConfigName = some emptyLoadBalancerConfiguration then
      w.loadBalancerConfigName else none)
    w.proxyConfigEnabled w.proxyConfig false
  sharding := if v.dbType = .mongo then some
      { enabled := v.sharding
        shards := toNumber round (v.shardNr.getD minNumberOfShards)
        configServerReplicas := v.shardConfigServers.getD (.ofInt 3) }
    else none

end Payload

/-! ### What the server reads -/

/-- A number in JSON, read as an `int32`: what is no number is sent as `null`, which sets nothing,
and any other than a 32-bit integer is an error. -/
def jsonInt32 : JsNumber → Option (Option Int)
  | .finite q => if q.den = 1 ∧ -2 ^ 31 ≤ q.num ∧ q.num < 2 ^ 31 then some (some q.num) else none
  | _ => some none

def sentInt (x : JsNumber) : Option Int := (jsonInt32 x).map (·.getD 0)

def readReplicas : Option JsNumber → Option (Option Int)
  | none => some none
  | some n => jsonInt32 n

def readSharding : Option ShardingPayload → Option (Option Validation.Sharding)
  | none => some none
  | some s => do
    let shards ← sentInt s.shards
    let configServerReplicas ← sentInt s.configServerReplicas
    some (some ⟨s.enabled, shards, configServerReplicas⟩)

/-- The object that is read from the payload; what the checks of the counts do not look at is
that of `rest`. -/
def readPayload (rest : Validation.DatabaseCluster) (payload : DbClusterPayload) :
    Option Validation.DatabaseCluster := do
  let replicas ← sentInt payload.replicas
  let proxyReplicas ← readReplicas payload.proxy.replicas
  let sharding ← readSharding payload.sharding
  let expose := payload.proxy.expose.getD {}
  some { rest with spec := { rest.spec with
    engine := { rest.spec.engine with
      type := payload.engineType
      version := payload.version
      replicas := replicas }
    proxy := { rest.spec.proxy with
      type := payload.proxy.type.getD []
      replicas := proxyReplicas
      ipSourceRanges := expose.ipSourceRanges.getD [] }
    sharding := sharding } }

/-- The checks of `validateDatabaseClusterCR` that look at counts. -/
def countChecks (h : Validation.ValidateHandler) (engine : Validation.DatabaseEngine)
    (db : Validation.DatabaseCluster) : Except Validation.ValidationError Unit := do
  Validation.validateEngine db engine
  if db.spec.proxy.type ≠ [] then Validation.validateProxy db
  Validation.validateSharding h db

section Law

variable (round : ℚ → JsNumber) (toString : JsNumber → JsString)
  (h : Validation.ValidateHandler) (engine : Validation.DatabaseEngine)
  (rest : Validation.DatabaseCluster) (w : DbWizard)

def PassesChecks (v : ResourcesForm JsNumber) : Prop :=
  ∃ db, readPayload rest (formValuesToPayloadMapping round toString w v) = some db ∧
    countChecks h engine db = .ok ()

instance (v : ResourcesForm JsNumber) :
    Decidable (PassesChecks round toString h engine rest w v) :=
  decidable_of_iff ((readPayload rest (formValuesToPayloadMapping round toString w v)).any fun db =>
      countChecks h engine db = .ok ()) (by simp [PassesChecks, Option.any_eq_true])

/-- The engine version is allowed, and where the cluster is sharded it is recent enough. -/
structure VersionTaken (sharded : Bool) : Prop where
  allowed : Validation.validateVersion w.dbVersion engine = .ok ()
  recent : sharded = true → w.dbVersion ≠ [] ∧ h.newVersion w.dbVersion = true ∧
    h.checkConstraint w.dbVersion (ascii ">=1.17.0") = true

variable {N : Type} (form : ResourcesForm N)

def ResourcesForm.Proxied : Prop := ¬ (form.dbType = .mongo ∧ form.sharding = false)

/-- What the schema leaves open, for `n` nodes sent. -/
structure CountsTaken (n : Int) : Prop where
  mysql_nodes : form.dbType = .mysql → 0 < n → n % 2 ≠ 0 ∧ n ≤ 5
  -- The schema refuses an even number only where it is a custom one.
  mongo_nodes : form.dbType = .mongo → form.numberOfNodes ≠ customNrUnitsInputValue →
    0 < n → n % 2 ≠ 0
  proxies : form.Proxied → ∃ p, jsonInt32
      (unitsNr round form.numberOfProxies (form.customNrOfProxies.getD [])) = some p ∧
    (form.dbType = .mysql → 1 < n → form.numberOfProxies ≠ customNrUnitsInputValue →
      ∀ k ∈ p, 1 ≤ k)
  sharding : form.dbType = .mongo → ∃ shards configServers,
    sentInt (toNumber round (form.shardNr.getD minNumberOfShards)) = some shards ∧
    sentInt (form.shardConfigServers.getD (.ofInt 3)) = some configServers ∧
    (form.sharding = true → 1 ≤ shards ∧ configServers % 2 ≠ 0 ∧ (n = 1 → 1 ≤ configServers) ∧
      (1 < n → 3 ≤ configServers))

def AllCountsTaken : Prop := ∃ n,
  sentInt (unitsNr round form.numberOfNodes (form.customNrOfNodes.getD [])) = some n ∧
    CountsTaken round form n

end Law

section Accepted

variable {round : ℚ → JsNumber} {toString : JsNumber → JsString}

/-- What the schema of a new cluster has checked of the counts. -/
structure CountsAccepted (round : ℚ → JsNumber) {N : Type} (form : ResourcesForm N) : Prop where
  mongo_nodes : form.numberOfNodes = customNrUnitsInputValue → form.dbType = .mongo →
    (unitsNr round form.numberOfNodes (form.customNrOfNodes.getD [])).isEven = false
  mysql_proxies : form.dbType = .mysql →
    (JsNumber.ofInt 1).lt (unitsNr round form.numberOfNodes (form.customNrOfNodes.getD [])) →
    (unitsNr round form.numberOfProxies (form.customNrOfProxies.getD [])).equal (.ofInt 1) = false
  custom_proxies : form.Proxied → form.numberOfProxies = customNrUnitsInputValue →
    (unitsNr round form.numberOfProxies (form.customNrOfProxies.getD [])).lt (.ofInt 1) = false

/-- The fields of the counts come out as they went in. -/
structure SameCounts {N N' : Type} (form : ResourcesForm N) (v : ResourcesForm N') : Prop where
  dbType : v.dbType = form.dbType
  sharding : v.sharding = form.sharding
  shardNr : v.shardNr = form.shardNr
  shardConfigServers : v.shardConfigServers = form.shardConfigServers
  numberOfNodes : v.numberOfNodes = form.numberOfNodes
  customNrOfNodes : v.customNrOfNodes = form.customNrOfNodes
  numberOfProxies : v.numberOfProxies = form.numberOfProxies
  customNrOfProxies : v.customNrOfProxies = form.customNrOfProxies

theorem sameCounts_of_parseFields {form : ResourcesForm FormNumber} {v : ResourcesForm JsNumber}
    (h : parseFields round form = some v) : SameCounts form v := by
  unfold parseFields at h
  split at h
  · cases h
  · simp only [Option.bind_eq_bind, Option.bind_eq_some_iff, Option.some.injEq] at h
    obtain ⟨_, -, _, -, _, -, _, -, _, -, _, -, _, -, _, -, _, -, _, -, rfl⟩ := h
    exact ⟨rfl, rfl, rfl, rfl, rfl, rfl, rfl, rfl⟩

theorem unitsNr_custom (custom : JsString) :
    unitsNr round customNrUnitsInputValue custom = parseInt round custom := by
  rw [unitsNr, if_pos rfl]

theorem countsAccepted_of_superRefine {defaultValues : DefaultValues} {v : ResourcesForm JsNumber}
    (h : superRefine round defaultValues true true true v = []) : CountsAccepted round v := by
  simp only [superRefine, List.append_eq_nil_iff, issueWhen_eq_nil] at h
  obtain ⟨⟨⟨⟨⟨⟨⟨⟨⟨⟨⟨-, hproxies⟩, hmongo⟩, hmysql⟩, -⟩, -⟩, -⟩, -⟩, -⟩, -⟩, -⟩, -⟩ := h
  refine ⟨?_, ?_, ?_⟩
  · intro hcustom htype
    rw [hcustom, unitsNr_custom]
    simpa [hcustom, htype] using hmongo
  · intro htype hnodes
    simpa [htype, hnodes] using hmysql
  · intro hproxied hcustom
    have hchecked : v.dbType ≠ .mongo ∨ v.dbType = .mongo ∧ v.sharding = true := by
      by_contra hnot
      rw [not_or, not_not, not_and] at hnot
      exact hproxied ⟨hnot.1, Bool.eq_false_iff.mpr (hnot.2 hnot.1)⟩
    rw [if_pos hchecked, numberOfResourcesValidator, if_pos hcustom, issueWhen_eq_nil, not_or] at hproxies
    rw [hcustom, unitsNr_custom]
    simpa using hproxies.2

theorem counts_of_accepted {defaultValues : DefaultValues} {form : ResourcesForm FormNumber}
    {v : ResourcesForm JsNumber}
    (h : resourcesFormSchema round defaultValues true true true form = some v) :
    SameCounts form v ∧ CountsAccepted round v := by
  simp only [resourcesFormSchema, Option.bind_eq_bind, Option.bind_eq_some_iff] at h
  obtain ⟨parsed, hparsed, h⟩ := h
  split at h
  · rename_i hissues
    obtain rfl := Option.some.inj h
    exact ⟨sameCounts_of_parseFields hparsed, countsAccepted_of_superRefine hissues⟩
  · cases h

end Accepted

section Validators

open Validation

variable {h : ValidateHandler} {engine : Validation.DatabaseEngine} {db : Validation.DatabaseCluster}

theorem validateEngine_eq_ok : validateEngine db engine = .ok () ↔
    validateVersion db.spec.engine.version engine = .ok () ∧
    (db.spec.engine.type = databaseEnginePXC → 0 < db.spec.engine.replicas →
      db.spec.engine.replicas % 2 ≠ 0 ∧ db.spec.engine.replicas ≤ 5) ∧
    (db.spec.engine.type = databaseEnginePSMDB → 0 < db.spec.engine.replicas →
      db.spec.engine.replicas % 2 ≠ 0) := by
  have hdistinct : databaseEnginePXC ≠ databaseEnginePSMDB := by decide
  rw [validateEngine, check_bind_eq_ok]
  apply and_congr_right
  intro _
  by_cases hpxc : db.spec.engine.type = databaseEnginePXC
  · simp only [hpxc, if_true, check_bind_eq_ok, failWhen_eq_ok, hdistinct, false_implies, and_true,
      true_implies, not_and, not_lt, ne_eq]
    exact ⟨fun hok hpos => ⟨hok.1 hpos, hok.2 hpos⟩,
      fun hok => ⟨fun hpos => (hok hpos).1, fun hpos => (hok hpos).2⟩⟩
  · by_cases hpsmdb : db.spec.engine.type = databaseEnginePSMDB
    · simp only [hpsmdb, if_true, failWhen_eq_ok, hdistinct.symm, if_false, false_implies, true_and,
        true_implies, not_and, ne_eq]
    · simp only [hpxc, hpsmdb, if_false, false_implies, and_self]

theorem validateProxy_eq_ok : validateProxy db = .ok () ↔
    validateProxyType db.spec.engine.type db.spec.proxy.type = .ok () ∧
    (db.spec.engine.type = databaseEnginePXC → 1 < db.spec.engine.replicas →
      ∀ n ∈ db.spec.proxy.replicas, 2 ≤ n) ∧ db.spec.proxy.ipSourceRanges.Nodup := by
  simp only [validateProxy, check_bind_eq_ok, failWhen_eq_ok, not_and, not_exists, not_lt, not_not]
  rfl

theorem countChecks_eq_ok : countChecks h engine db = .ok () ↔
    validateEngine db engine = .ok () ∧ (db.spec.proxy.type ≠ [] → validateProxy db = .ok ()) ∧
      validateSharding h db = .ok () := by
  unfold countChecks
  by_cases htype : db.spec.proxy.type = []
  · simp [htype, check_bind_eq_ok]
  · simp [htype, check_bind_eq_ok]

end Validators

section Checks

variable {round : ℚ → JsNumber} {toString : JsNumber → JsString}
  {h : Validation.ValidateHandler} {engine : Validation.DatabaseEngine}
  {rest : Validation.DatabaseCluster} {w : DbWizard} {v : ResourcesForm JsNumber}

theorem eq_ofInt_of_jsonInt32 {x : JsNumber} {n : Int} (hx : jsonInt32 x = some (some n)) :
    x = .ofInt n := by
  cases x with
  | finite q =>
    rw [jsonInt32] at hx
    split at hx
    · rename_i hq
      obtain rfl : q.num = n := by simpa using hx
      rw [JsNumber.ofInt, (Rat.den_eq_one_iff q).mp hq.1]
    · cases hx
  | nan => cases hx
  | infinity negative => cases hx

theorem eq_ofInt_of_sentInt {x : JsNumber} {n : Int} (hx : sentInt x = some n) (hn : n ≠ 0) :
    x = .ofInt n := by
  obtain ⟨m, hm, hmn⟩ := Option.map_eq_some_iff.mp hx
  cases m with
  | none => exact absurd hmn.symm hn
  | some m =>
    obtain rfl : m = n := hmn
    exact eq_ofInt_of_jsonInt32 hm

theorem replicas_eq : readReplicas (formValuesToPayloadMapping round toString w v).proxy.replicas =
    if v.dbType = .mongo ∧ v.sharding = false then some none
    else jsonInt32 (unitsNr round v.numberOfProxies (v.customNrOfProxies.getD [])) := by
  unfold formValuesToPayloadMapping getProxySpec
  by_cases hbare : v.dbType = .mongo ∧ v.sharding = false
  · rw [if_pos hbare, if_pos hbare]
    rfl
  · rw [if_neg hbare, if_neg hbare]
    rfl

theorem proxyType_eq : (formValuesToPayloadMapping round toString w v).proxy.type.getD [] =
    if v.dbType = .mongo ∧ v.sharding = false then [] else dbTypeToProxyType v.dbType := by
  unfold formValuesToPayloadMapping getProxySpec
  by_cases hbare : v.dbType = .mongo ∧ v.sharding = false
  · rw [if_pos hbare, if_pos hbare]
    rfl
  · rw [if_neg hbare, if_neg hbare]
    rfl

theorem ranges_nodup :
    (((formValuesToPayloadMapping round toString w v).proxy.expose.getD {}).ipSourceRanges.getD []).Nodup := by
  have hexpose : (formValuesToPayloadMapping round toString w v).proxy.expose.map (·.ipSourceRanges) =
      some (if w.exposureMethod = .loadBalancer then
        some (w.sourceRanges.filterMap fun sourceRange => sourceRange.filter (· ≠ [])) else none) := by
    unfold formValuesToPayloadMapping getProxySpec
    by_cases hbare : v.dbType = .mongo ∧ v.sharding = false
    · rw [if_pos hbare]
      rfl
    · rw [if_neg hbare]
      rfl
  obtain ⟨expose, hsome, hranges⟩ := Option.map_eq_some_iff.mp hexpose
  rw [hsome, Option.getD_some, hranges]
  split
  · rename_i hbalancer
    exact w.ranges_nodup hbalancer
  · exact List.nodup_nil

theorem dbTypeToProxyType_ne_nil (dbType : DbType) : dbTypeToProxyType dbType ≠ [] := by
  cases dbType <;> decide

theorem validateProxyType_eq_ok (dbType : DbType) :
    Validation.validateProxyType (dbTypeToDbEngine dbType).name (dbTypeToProxyType dbType) = .ok () := by
  cases dbType <;> decide

theorem engine_eq_pxc (dbType : DbType) :
    (dbTypeToDbEngine dbType).name = databaseEnginePXC ↔ dbType = .mysql := by
  cases dbType <;> decide

theorem engine_eq_psmdb (dbType : DbType) :
    (dbTypeToDbEngine dbType).name = databaseEnginePSMDB ↔ dbType = .mongo := by
  cases dbType <;> decide

/-- The checks pass when the counts that are sent meet the server's bounds. -/
structure CountsPass (v : ResourcesForm JsNumber) (n : Int) (p : Option Int)
    (sharding : Option Validation.Sharding) : Prop where
  mysql_nodes : v.dbType = .mysql → 0 < n → n % 2 ≠ 0 ∧ n ≤ 5
  mongo_nodes : v.dbType = .mongo → 0 < n → n % 2 ≠ 0
  proxies : v.Proxied → v.dbType = .mysql → 1 < n → ∀ k ∈ p, 2 ≤ k
  sharding : ∀ s ∈ sharding, s.enabled = true → v.dbType = .mongo ∧ 1 ≤ s.shards ∧
    (n = 1 → 1 ≤ s.configServerReplicas) ∧ (1 < n → 3 ≤ s.configServerReplicas) ∧
    s.configServerReplicas % 2 ≠ 0

/-- What of an object comes from the form, its counts apart. -/
structure SentBy (w : DbWizard) (v : ResourcesForm JsNumber) (db : Validation.DatabaseCluster) :
    Prop where
  engineType : db.spec.engine.type = (dbTypeToDbEngine v.dbType).name
  version : db.spec.engine.version = w.dbVersion
  proxyType : db.spec.proxy.type =
    if v.dbType = .mongo ∧ v.sharding = false then [] else dbTypeToProxyType v.dbType
  ranges : db.spec.proxy.ipSourceRanges.Nodup
  sharded : ∀ s ∈ db.spec.sharding, s.enabled = true →
    (decide (v.dbType = .mongo) && v.sharding) = true

theorem countChecks_iff
    (hversion : VersionTaken h engine w (decide (v.dbType = .mongo) && v.sharding))
    {db : Validation.DatabaseCluster} (hsent : SentBy w v db) :
    countChecks h engine db = .ok () ↔
      CountsPass v db.spec.engine.replicas db.spec.proxy.replicas db.spec.sharding := by
  rw [countChecks_eq_ok, validateEngine_eq_ok, validateProxy_eq_ok, Validation.validateSharding_eq_ok,
    hsent.engineType, hsent.version, engine_eq_pxc, engine_eq_psmdb]
  have hproxied : db.spec.proxy.type ≠ [] ↔ v.Proxied := by
    rw [hsent.proxyType, ResourcesForm.Proxied]
    split <;> simp [*, dbTypeToProxyType_ne_nil]
  constructor
  · rintro ⟨⟨-, hmysql, hmongo⟩, hproxy, hsharding⟩
    refine ⟨hmysql, hmongo, ?_, ?_⟩
    · intro hp
      exact (hproxy (hproxied.mpr hp)).2.1
    · intro s hs henabled
      obtain ⟨htype, -, hcounts⟩ := hsharding s hs henabled
      exact ⟨htype, hcounts⟩
  · intro hpass
    refine ⟨⟨hversion.allowed, hpass.mysql_nodes, hpass.mongo_nodes⟩, ?_, ?_⟩
    · intro hp
      have hp' := hproxied.mp hp
      refine ⟨?_, hpass.proxies hp', hsent.ranges⟩
      rw [hsent.proxyType, if_neg hp']
      exact validateProxyType_eq_ok v.dbType
    · intro s hs henabled
      obtain ⟨htype, hcounts⟩ := hpass.sharding s hs henabled
      exact ⟨htype, hversion.recent (hsent.sharded s hs henabled), hcounts⟩

theorem readSharding_eq :
    readSharding (formValuesToPayloadMapping round toString w v).sharding =
      if v.dbType = .mongo then
        (sentInt (toNumber round (v.shardNr.getD minNumberOfShards))).bind fun shards =>
          (sentInt (v.shardConfigServers.getD (.ofInt 3))).map fun configServers =>
            some ⟨v.sharding, shards, configServers⟩
      else some none := by
  unfold formValuesToPayloadMapping
  by_cases htype : v.dbType = .mongo
  · rw [if_pos htype, if_pos htype, readSharding]
    simp only [Option.bind_eq_bind, Option.map_eq_bind, Function.comp_def]
  · rw [if_neg htype, if_neg htype, readSharding]

theorem sharded_of_readSharding {sharding : Option Validation.Sharding}
    (hsharding : readSharding (formValuesToPayloadMapping round toString w v).sharding = some sharding)
    (s : Validation.Sharding) (hs : s ∈ sharding) (henabled : s.enabled = true) :
    (decide (v.dbType = .mongo) && v.sharding) = true := by
  rw [readSharding_eq] at hsharding
  split at hsharding
  · rename_i htype
    obtain ⟨shards, -, hsharding⟩ := Option.bind_eq_some_iff.mp hsharding
    obtain ⟨configServers, -, rfl⟩ := Option.map_eq_some_iff.mp hsharding
    obtain rfl := Option.some.inj hs
    simp only at henabled
    simp [htype, henabled]
  · obtain rfl := Option.some.inj hsharding
    cases hs

theorem passesChecks_iff
    (hversion : VersionTaken h engine w (decide (v.dbType = .mongo) && v.sharding)) :
    PassesChecks round toString h engine rest w v ↔ ∃ n p sharding,
      sentInt (unitsNr round v.numberOfNodes (v.customNrOfNodes.getD [])) = some n ∧
      readReplicas (formValuesToPayloadMapping round toString w v).proxy.replicas = some p ∧
      readSharding (formValuesToPayloadMapping round toString w v).sharding = some sharding ∧
      CountsPass v n p sharding := by
  simp only [PassesChecks, readPayload, Option.bind_eq_bind, Option.bind_eq_some_iff,
    Option.some.injEq]
  constructor
  · rintro ⟨_, ⟨n, hn, p, hp, sharding, hsharding, rfl⟩, hchecks⟩
    refine ⟨n, p, sharding, hn, hp, hsharding, ?_⟩
    exact (countChecks_iff hversion
      ⟨rfl, rfl, proxyType_eq, ranges_nodup, sharded_of_readSharding hsharding⟩).mp hchecks
  · rintro ⟨n, p, sharding, hn, hp, hsharding, hpass⟩
    refine ⟨_, ⟨n, hn, p, hp, sharding, hsharding, rfl⟩, ?_⟩
    exact (countChecks_iff hversion
      ⟨rfl, rfl, proxyType_eq, ranges_nodup, sharded_of_readSharding hsharding⟩).mpr hpass

variable (toString w) in
theorem countsPass_iff (haccepted : CountsAccepted round v) (n : Int)
    (hn : sentInt (unitsNr round v.numberOfNodes (v.customNrOfNodes.getD [])) = some n) :
    (∃ p sharding,
      readReplicas (formValuesToPayloadMapping round toString w v).proxy.replicas = some p ∧
      readSharding (formValuesToPayloadMapping round toString w v).sharding = some sharding ∧
      CountsPass v n p sharding) ↔ CountsTaken round v n := by
  rw [replicas_eq, readSharding_eq]
  constructor
  · rintro ⟨p, sharding, hp, hsharding, hpass⟩
    refine ⟨hpass.mysql_nodes, fun htype _ => hpass.mongo_nodes htype, ?_, ?_⟩
    · intro hproxied
      rw [if_neg hproxied] at hp
      refine ⟨p, hp, ?_⟩
      intro htype hmore _ k hk
      have htwo := hpass.proxies hproxied htype hmore k hk
      omega
    · intro htype
      rw [if_pos htype] at hsharding
      obtain ⟨shards, hshards, hsharding⟩ := Option.bind_eq_some_iff.mp hsharding
      obtain ⟨configServers, hconfig, rfl⟩ := Option.map_eq_some_iff.mp hsharding
      refine ⟨shards, configServers, hshards, hconfig, ?_⟩
      intro hsharded
      obtain ⟨-, hmin, hone, hmore, hodd⟩ := hpass.sharding _ rfl hsharded
      exact ⟨hmin, hodd, hone, hmore⟩
  · intro htaken
    have hmongo : v.dbType = .mongo → 0 < n → n % 2 ≠ 0 := by
      intro htype hpos
      by_cases hcustom : v.numberOfNodes = customNrUnitsInputValue
      · have hodd := haccepted.mongo_nodes hcustom htype
        rw [eq_ofInt_of_sentInt hn (by omega), JsNumber.isEven_ofInt] at hodd
        exact of_decide_eq_false hodd
      · exact htaken.mongo_nodes htype hcustom hpos
    have hproxies : ∀ p, v.Proxied →
        jsonInt32 (unitsNr round v.numberOfProxies (v.customNrOfProxies.getD [])) = some p →
        v.dbType = .mysql → 1 < n → ∀ k ∈ p, 2 ≤ k := by
      intro p hproxied hp htype hmore k hk
      obtain rfl : p = some k := hk
      have hnr := eq_ofInt_of_jsonInt32 hp
      have hnotone : k ≠ 1 := by
        have hequal := haccepted.mysql_proxies htype
          (by simp [eq_ofInt_of_sentInt hn (by omega), hmore])
        rw [hnr, JsNumber.equal_ofInt] at hequal
        exact of_decide_eq_false hequal
      have hpos : 1 ≤ k := by
        by_cases hcustom : v.numberOfProxies = customNrUnitsInputValue
        · have hlt := haccepted.custom_proxies hproxied hcustom
          rw [hnr, JsNumber.lt_ofInt] at hlt
          exact not_lt.mp (of_decide_eq_false hlt)
        · obtain ⟨p, hp', hleft⟩ := htaken.proxies hproxied
          obtain rfl := Option.some.inj (hp.symm.trans hp')
          exact hleft htype hmore hcustom k rfl
      omega
    obtain ⟨p, hp⟩ : ∃ p, (if v.dbType = .mongo ∧ v.sharding = false then some none else
        jsonInt32 (unitsNr round v.numberOfProxies (v.customNrOfProxies.getD []))) = some p := by
      by_cases hbare : v.dbType = .mongo ∧ v.sharding = false
      · exact ⟨none, if_pos hbare⟩
      · obtain ⟨p, hp, -⟩ := htaken.proxies hbare
        exact ⟨p, (if_neg hbare).trans hp⟩
    have hproxies' : v.Proxied → v.dbType = .mysql → 1 < n → ∀ k ∈ p, 2 ≤ k := by
      intro hproxied
      rw [if_neg hproxied] at hp
      exact hproxies p hproxied hp
    by_cases htype : v.dbType = .mongo
    · obtain ⟨shards, configServers, hshards, hconfig, hcounts⟩ := htaken.sharding htype
      refine ⟨p, some ⟨v.sharding, shards, configServers⟩, hp, ?_,
        htaken.mysql_nodes, hmongo, hproxies', ?_⟩
      · rw [if_pos htype, hshards, hconfig]
        rfl
      · intro s hs hsharded
        obtain rfl := Option.some.inj hs
        obtain ⟨hmin, hodd, hone, hmore⟩ := hcounts hsharded
        exact ⟨htype, hmin, hone, hmore, hodd⟩
    · refine ⟨p, none, hp, if_neg htype, htaken.mysql_nodes, hmongo, hproxies', ?_⟩
      rintro s ⟨⟩

theorem allCountsTaken_congr {N N' : Type} {form : ResourcesForm N} {v : ResourcesForm N'}
    (hsame : SameCounts form v) : AllCountsTaken round v ↔ AllCountsTaken round form := by
  have htaken : ∀ n, CountsTaken round v n ↔ CountsTaken round form n := by
    intro n
    constructor
    · rintro ⟨hmysql, hmongo, hproxies, hsharding⟩
      simp only [ResourcesForm.Proxied, hsame.dbType, hsame.sharding, hsame.shardNr,
        hsame.shardConfigServers, hsame.numberOfNodes, hsame.numberOfProxies,
        hsame.customNrOfProxies] at hmysql hmongo hproxies hsharding
      exact ⟨hmysql, hmongo, hproxies, hsharding⟩
    · rintro ⟨hmysql, hmongo, hproxies, hsharding⟩
      simp only [ResourcesForm.Proxied, ← hsame.dbType, ← hsame.sharding, ← hsame.shardNr,
        ← hsame.shardConfigServers, ← hsame.numberOfNodes, ← hsame.numberOfProxies,
        ← hsame.customNrOfProxies] at hmysql hmongo hproxies hsharding
      exact ⟨hmysql, hmongo, hproxies, hsharding⟩
  simp only [AllCountsTaken, htaken, hsame.numberOfNodes, hsame.customNrOfNodes]

end Checks

/-- The object that is built from the values the schema accepts passes the server's checks just
when the counts are of those that the schema leaves to the server. -/
theorem accepted_passes_iff (round : ℚ → JsNumber) (toString : JsNumber → JsString)
    (h : Validation.ValidateHandler) (engine : Validation.DatabaseEngine)
    (rest : Validation.DatabaseCluster) (w : DbWizard) (defaultValues : DefaultValues)
    (form : ResourcesForm FormNumber) (v : ResourcesForm JsNumber)
    (haccepted : resourcesFormSchema round defaultValues true true true form = some v)
    (hversion : VersionTaken h engine w (decide (form.dbType = .mongo) && form.sharding)) :
    PassesChecks round toString h engine rest w v ↔ AllCountsTaken round form := by
  obtain ⟨hsame, hcounts⟩ := counts_of_accepted haccepted
  rw [← hsame.dbType, ← hsame.sharding] at hversion
  rw [passesChecks_iff hversion, ← allCountsTaken_congr hsame, AllCountsTaken]
  constructor
  · rintro ⟨n, p, sharding, hn, hp, hsharding, hpass⟩
    exact ⟨n, hn, (countsPass_iff toString w hcounts n hn).mp ⟨p, sharding, hp, hsharding, hpass⟩⟩
  · rintro ⟨n, hn, htaken⟩
    obtain ⟨p, sharding, hp, hsharding, hpass⟩ :=
      (countsPass_iff toString w hcounts n hn).mpr htaken
    exact ⟨n, p, sharding, hn, hp, hsharding, hpass⟩

section Sample

def sampleCounts {N : Type} (x : N) (dbType : DbType) (shardNr customNrOfNodes : String)
    (configServers : Int) : ResourcesForm N where
  dbType := dbType
  sharding := decide (dbType = .mongo)
  shardNr := some (js shardNr)
  shardConfigServers := some (.ofInt configServers)
  cpu := x
  cpuRequests := none
  memory := x
  memoryRequests := none
  disk := x
  diskUnit := js "Gi"
  numberOfNodes := customNrUnitsInputValue
  customNrOfNodes := some (js customNrOfNodes)
  proxyCpu := x
  proxyCpuRequests := none
  proxyMemory := x
  proxyMemoryRequests := none
  nodeRequestsSynced := some true
  proxyRequestsSynced := some true
  numberOfProxies := js "3"
  customNrOfProxies := none

def sampleWizard : DbWizard where
  dbVersion := ascii "8.0.36-28.1"
  exposureMethod := .clusterIP
  sourceRanges := []
  loadBalancerConfigName := none
  proxyConfigEnabled := false
  proxyConfig := []
  ranges_nodup := by decide

def sampleValidateHandler : Validation.ValidateHandler where
  getDatabaseEngine _ _ := .error ()
  getBackupStorageType _ _ := .error ()
  getPodSchedulingPolicy _ := .error ()
  validateEverestResourceName _ := true
  newVersion _ := true
  checkConstraint _ _ := true

def sampleEngine : Validation.DatabaseEngine where
  allowedVersions := []
  availableVersions := [ascii "8.0.36-28.1"]

def sampleRest : Validation.DatabaseCluster where
  namespaceName := ascii "everest"
  name := ascii "db"
  spec :=
    { engine := ⟨[], [], 0, 0, ⟨0, 0⟩, none⟩
      proxy := ⟨[], none, [], ⟨0, 0⟩, none⟩
      schedules := []
      pitr := ⟨false, none, none⟩
      dataSource := none
      sharding := none
      podSchedulingPolicyName := [] }
  status := ⟨[], []⟩

theorem sampleVersion (sharded : Bool) :
    VersionTaken sampleValidateHandler sampleEngine sampleWizard sharded :=
  ⟨by decide, fun _ => ⟨by decide, rfl, rfl⟩⟩

theorem accepted_passes_iff_sample :
    PassesChecks .finite (fun _ => js "1") sampleValidateHandler sampleEngine sampleRest sampleWizard
        (sampleCounts (.ofInt 1) .mysql "2" "5" 3) ∧
      AllCountsTaken .finite (sampleCounts (FormNumber.number (.ofInt 1)) .mysql "2" "5" 3) := by
  have hpasses : PassesChecks .finite (fun _ => js "1") sampleValidateHandler sampleEngine sampleRest
      sampleWizard (sampleCounts (.ofInt 1) .mysql "2" "5" 3) := by decide +kernel
  exact ⟨hpasses, (accepted_passes_iff .finite (fun _ => js "1") sampleValidateHandler sampleEngine
    sampleRest sampleWizard {} (sampleCounts (FormNumber.number (.ofInt 1)) .mysql "2" "5" 3) _
    (by decide +kernel) (sampleVersion _)).mp hpasses⟩

/-- One and a half shards, two nodes of MySQL, and an even number of configuration servers. -/
theorem accepted_passes_broken :
    (resourcesFormSchema .finite {} true true true
        (sampleCounts (.number (.ofInt 1)) .mongo "1.5" "3" 3) =
          some (sampleCounts (.ofInt 1) .mongo "1.5" "3" 3) ∧
      ¬ PassesChecks .finite (fun _ => js "1") sampleValidateHandler sampleEngine sampleRest
        sampleWizard (sampleCounts (.ofInt 1) .mongo "1.5" "3" 3)) ∧
    (resourcesFormSchema .finite {} true true true
        (sampleCounts (.number (.ofInt 1)) .mysql "2" "2" 3) =
          some (sampleCounts (.ofInt 1) .mysql "2" "2" 3) ∧
      ¬ PassesChecks .finite (fun _ => js "1") sampleValidateHandler sampleEngine sampleRest
        sampleWizard (sampleCounts (.ofInt 1) .mysql "2" "2" 3)) ∧
    resourcesFormSchema .finite {} true true true
        (sampleCounts (.number (.ofInt 1)) .mongo "2" "3" 4) =
          some (sampleCounts (.ofInt 1) .mongo "2" "3" 4) ∧
      ¬ PassesChecks .finite (fun _ => js "1") sampleValidateHandler sampleEngine sampleRest
        sampleWizard (sampleCounts (.ofInt 1) .mongo "2" "3" 4) :=
  ⟨⟨by decide +kernel, by decide +kernel⟩, ⟨by decide +kernel, by decide +kernel⟩,
    by decide +kernel, by decide +kernel⟩

end Sample

end OpenEverest.Ui
