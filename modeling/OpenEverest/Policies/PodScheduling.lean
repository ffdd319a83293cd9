import OpenEverest.Framework.ApiServer
import OpenEverest.Framework.Checks
import OpenEverest.Rbac.Lists
import OpenEverest.Validation.DatabaseCluster

/-!
# Pod-scheduling policies

A policy is a cluster-wide object with the affinity of the components of one engine
type. A request goes through the validation handler, the RBAC handler and the
Kubernetes handler. What an affinity holds is not looked into.
-/

namespace OpenEverest.Policies

open Framework GoString Api

section Objects

variable (A : Type)

structure PXCAffinityConfig where
  engine : Option A
  proxy : Option A
  deriving DecidableEq

structure PSMDBAffinityConfig where
  engine : Option A
  proxy : Option A
  configServer : Option A
  deriving DecidableEq

structure PostgreSQLAffinityConfig where
  engine : Option A
  proxy : Option A
  deriving DecidableEq

structure AffinityConfig where
  pxc : Option (PXCAffinityConfig A)
  psmdb : Option (PSMDBAffinityConfig A)
  postgresql : Option (PostgreSQLAffinityConfig A)
  deriving DecidableEq

structure PodSchedulingPolicySpec where
  engineType : GoString
  affinityConfig : Option (AffinityConfig A)
  deriving DecidableEq

structure PodSchedulingPolicy where
  name : GoString
  resourceVersion : Option Nat
  finalizers : List GoString
  spec : PodSchedulingPolicySpec A

abbrev PolicyServer := ApiServer GoString GoString (PodSchedulingPolicySpec A)

abbrev StoredPolicy := Stored GoString (PodSchedulingPolicySpec A)

end Objects

variable {A : Type}

def PodSchedulingPolicy.manifest (psp : PodSchedulingPolicy A) :
    Manifest GoString (PodSchedulingPolicySpec A) :=
  ⟨psp.resourceVersion, psp.finalizers, psp.spec⟩

def readOnlyFinalizer : GoString := ascii "everest.percona.com/readonly-protection"

def inUseResourceFinalizer : GoString := ascii "everest.percona.com/in-use-protection"

def isEverestReadOnlyObject (o : StoredPolicy A) : Bool :=
  o.finalizers.contains readOnlyFinalizer

def isEverestObjectInUse (o : StoredPolicy A) : Bool :=
  o.finalizers.contains inUseResourceFinalizer

/-- `operatorUtils.ValidateRFC1035` of a value and the field it is in, with the text of its error. -/
abbrev ValidateRFC1035 := GoString → GoString → Except GoString Unit

inductive PolicyError where
  | invalidName (text : GoString)
  | invalidPSPEngineType (engineType : GoString)
  | notApplicable (part engineType : GoString)
  | required (part : GoString)
  | componentsRequired (part : GoString) (components : List GoString)
  | updatePSPEngineType
  | updateDefaultPSP (name : GoString)
  | deleteDefaultPSP (name : GoString)
  | deleteInUsePSP (name : GoString)
  | getPSP (e : ApiError)
  deriving DecidableEq

def affinityPath (part : GoString) : GoString := ascii ".spec.affinityConfig." ++ part

/-- An error of the API server carries its own text. -/
def PolicyError.text : PolicyError → Option GoString
  | .invalidName text => some text
  | .invalidPSPEngineType engineType =>
    some (ascii "unsupported .spec.engineType='" ++ engineType ++ ascii "'")
  | .notApplicable part engineType =>
    some (ascii "invalid affinity config: " ++ affinityPath part ++
      ascii " is not applicable with engineType='" ++ engineType ++ ascii "'")
  | .required part =>
    some (ascii "invalid affinity config: " ++ affinityPath part ++ ascii " is required")
  | .componentsRequired part components =>
    some (ascii "invalid affinity config: " ++
      (ascii " or ").intercalate
        (components.map fun component => affinityPath part ++ ascii "." ++ component) ++
      ascii " is required")
  | .updatePSPEngineType => some (ascii "changing .spec.engineType is forbidden")
  | .updateDefaultPSP name =>
    some (ascii "pod scheduling policy with name='" ++ name ++
      ascii "' is default and cannot be updated")
  | .deleteDefaultPSP name =>
    some (ascii "pod scheduling policy with name='" ++ name ++
      ascii "' is default and cannot be deleted")
  | .deleteInUsePSP name =>
    some (ascii "pod scheduling policy with name='" ++ name ++
      ascii "' is used by some DB cluster and cannot be deleted")
  | .getPSP _ => none

/-- What a handler answers with in place of calling the next one. -/
inductive Refusal where
  | invalidRequest (e : PolicyError)
  | notFound
  | rbac (e : Rbac.RbacError)
  | api (e : ApiError)

/-- A failed check: an object that is not found is reported as it is. -/
def refusal : PolicyError → Refusal
  | .getPSP .notFound => .notFound
  | e => .invalidRequest e

def failIf (c : Bool) (e : PolicyError) : Except PolicyError Unit := if c then .error e else .ok ()

theorem failIf_eq_ok (c : Bool) (e : PolicyError) : failIf c e = .ok () ↔ c = false := by
  cases c <;> simp [failIf]

/-- Whether the parts of the two other engines are there, in the order they are looked at,
and which components the engine's own part has. -/
def checkAffinityConfig (engineType : GoString) (others : List (GoString × Bool))
    (own : Option (List Bool)) (components : List GoString) : Except PolicyError Unit := do
  checkAll (fun other => failIf other.2 (.notApplicable other.1 engineType)) others
  match own with
  | none => .error (.required engineType)
  | some present => failIf (present.all (!·)) (.componentsRequired engineType components)

section AffinityConfig

variable (affinityConfig : AffinityConfig A)

def pxcPart : GoString × Bool := (ascii "pxc", affinityConfig.pxc.isSome)

def psmdbPart : GoString × Bool := (ascii "psmdb", affinityConfig.psmdb.isSome)

def postgresqlPart : GoString × Bool := (ascii "postgresql", affinityConfig.postgresql.isSome)

def validatePSPAffinityConfigPXC : Except PolicyError Unit :=
  checkAffinityConfig databaseEnginePXC [psmdbPart affinityConfig, postgresqlPart affinityConfig]
    (affinityConfig.pxc.map fun c => [c.engine.isSome, c.proxy.isSome])
    [ascii "engine", ascii "proxy"]

def validatePSPAffinityConfigPSMDB : Except PolicyError Unit :=
  checkAffinityConfig databaseEnginePSMDB [pxcPart affinityConfig, postgresqlPart affinityConfig]
    (affinityConfig.psmdb.map fun c => [c.engine.isSome, c.proxy.isSome, c.configServer.isSome])
    [ascii "engine", ascii "proxy", ascii "configServer"]

def validatePSPAffinityConfigPostgresql : Except PolicyError Unit :=
  checkAffinityConfig databaseEnginePostgresql [pxcPart affinityConfig, psmdbPart affinityConfig]
    (affinityConfig.postgresql.map fun c => [c.engine.isSome, c.proxy.isSome])
    [ascii "engine", ascii "proxy"]

end AffinityConfig

def validatePSPCR (validateRFC1035 : ValidateRFC1035) (name : GoString)
    (spec : PodSchedulingPolicySpec A) : Except PolicyError Unit := do
  match validateRFC1035 name (ascii "metadata.name") with
  | .error text => .error (.invalidName text)
  | .ok () =>
    failIf (decide (operatorTypeToName spec.engineType = []))
      (.invalidPSPEngineType spec.engineType)
    match spec.affinityConfig with
    | none => .ok ()
    | some affinityConfig =>
      if spec.engineType = databaseEnginePXC then validatePSPAffinityConfigPXC affinityConfig
      else if spec.engineType = databaseEnginePSMDB then
        validatePSPAffinityConfigPSMDB affinityConfig
      else if spec.engineType = databaseEnginePostgresql then
        validatePSPAffinityConfigPostgresql affinityConfig
      else .ok ()

/-- `GetPodSchedulingPolicy` or `GetPodSchedulingPolicyMeta` of the API server. -/
def getPodSchedulingPolicy (server : PolicyServer A) (name : GoString) :
    Except PolicyError (StoredPolicy A) :=
  (server.get name).mapError .getPSP

def validatePSPOnUpdate (server : PolicyServer A) (newPsp : PodSchedulingPolicy A) :
    Except PolicyError Unit := do
  let oldPsp ← getPodSchedulingPolicy server newPsp.name
  failIf (isEverestReadOnlyObject oldPsp) (.updateDefaultPSP newPsp.name)
  failIf (decide (oldPsp.value.engineType ≠ newPsp.spec.engineType)) .updatePSPEngineType

def validatePSPOnDelete (server : PolicyServer A) (pspName : GoString) :
    Except PolicyError Unit := do
  let psp ← getPodSchedulingPolicy server pspName
  failIf (isEverestReadOnlyObject psp) (.deleteDefaultPSP pspName)
  failIf (isEverestObjectInUse psp) (.deleteInUsePSP pspName)

/-- `SetName` in the handler of the HTTP request: the name is that of the path. -/
def PodSchedulingPolicy.setName (psp : PodSchedulingPolicy A) (policyName : GoString) :
    PodSchedulingPolicy A := { psp with name := policyName }

inductive PolicyOperation (A : Type) where
  | create (psp : PodSchedulingPolicy A)
  | update (policyName : GoString) (psp : PodSchedulingPolicy A)
  | delete (policyName : GoString)

namespace PolicyOperation

def name : PolicyOperation A → GoString
  | .create psp => psp.name
  | .update policyName _ => policyName
  | .delete policyName => policyName

def action : PolicyOperation A → GoString
  | .create _ => Rbac.actionCreate
  | .update _ _ => Rbac.actionUpdate
  | .delete _ => ascii "delete"

/-- What the validation handler does before it calls the next one. -/
def validate (validateRFC1035 : ValidateRFC1035) (server : PolicyServer A) :
    PolicyOperation A → Except Refusal Unit
  | .create psp => (validatePSPCR validateRFC1035 psp.name psp.spec).mapError .invalidRequest
  | .update policyName psp => do
    (validatePSPCR validateRFC1035 policyName psp.spec).mapError .invalidRequest
    (validatePSPOnUpdate server (psp.setName policyName)).mapError refusal
  | .delete policyName => (validatePSPOnDelete server policyName).mapError refusal

/-- What the RBAC handler does before it calls the next one. -/
def authorize (h : Rbac.RbacHandler) (op : PolicyOperation A) : Except Refusal Unit :=
  (h.enforce Rbac.resourcePodSchedulingPolicies op.action (Rbac.objectName [op.name])).mapError
    .rbac

variable [DecidableEq A]

def apply (server : PolicyServer A) : PolicyOperation A → Except ApiError (PolicyServer A)
  | .create psp => server.create psp.name psp.manifest
  | .update policyName psp => server.update policyName (psp.setName policyName).manifest
  | .delete policyName => server.delete policyName

end PolicyOperation

theorem checkAffinityConfig_eq_ok (engineType : GoString) (others : List (GoString × Bool))
    (own : Option (List Bool)) (components : List GoString) :
    checkAffinityConfig engineType others own components = .ok () ↔
      (∀ other ∈ others, other.2 = false) ∧ ∃ present, own = some present ∧ true ∈ present := by
  unfold checkAffinityConfig
  rw [check_bind_eq_ok, checkAll_eq_ok]
  simp only [failIf_eq_ok]
  refine and_congr_right fun _ => ?_
  cases own with
  | none => simp
  | some present => simp [failIf_eq_ok]

/-- The config has a part for the engine type alone, with a component. -/
def AffinityConfig.FitsEngine (c : AffinityConfig A) (engineType : GoString) : Prop :=
  (c.pxc.isSome = true → engineType = databaseEnginePXC) ∧
    (c.psmdb.isSome = true → engineType = databaseEnginePSMDB) ∧
    (c.postgresql.isSome = true → engineType = databaseEnginePostgresql) ∧
    ((∃ p, c.pxc = some p ∧ (p.engine.isSome = true ∨ p.proxy.isSome = true)) ∨
      (∃ p, c.psmdb = some p ∧
        (p.engine.isSome = true ∨ p.proxy.isSome = true ∨ p.configServer.isSome = true)) ∨
      ∃ p, c.postgresql = some p ∧ (p.engine.isSome = true ∨ p.proxy.isSome = true))

section FitsEngine

variable (c : AffinityConfig A)

theorem validatePSPAffinityConfigPXC_eq_ok :
    validatePSPAffinityConfigPXC c = .ok () ↔ c.FitsEngine databaseEnginePXC := by
  have hpsmdb : databaseEnginePXC ≠ databaseEnginePSMDB := by decide
  have hpg : databaseEnginePXC ≠ databaseEnginePostgresql := by decide
  rw [validatePSPAffinityConfigPXC, checkAffinityConfig_eq_ok]
  cases hx : c.pxc <;> cases hm : c.psmdb <;> cases hp : c.postgresql <;>
    simp [AffinityConfig.FitsEngine, psmdbPart, postgresqlPart, hx, hm, hp, hpsmdb, hpg]

theorem validatePSPAffinityConfigPSMDB_eq_ok :
    validatePSPAffinityConfigPSMDB c = .ok () ↔ c.FitsEngine databaseEnginePSMDB := by
  have hpxc : databaseEnginePSMDB ≠ databaseEnginePXC := by decide
  have hpg : databaseEnginePSMDB ≠ databaseEnginePostgresql := by decide
  rw [validatePSPAffinityConfigPSMDB, checkAffinityConfig_eq_ok]
  cases hx : c.pxc <;> cases hm : c.psmdb <;> cases hp : c.postgresql <;>
    simp [AffinityConfig.FitsEngine, pxcPart, postgresqlPart, hx, hm, hp, hpxc, hpg]

theorem validatePSPAffinityConfigPostgresql_eq_ok :
    validatePSPAffinityConfigPostgresql c = .ok () ↔ c.FitsEngine databaseEnginePostgresql := by
  have hpxc : databaseEnginePostgresql ≠ databaseEnginePXC := by decide
  have hpsmdb : databaseEnginePostgresql ≠ databaseEnginePSMDB := by decide
  rw [validatePSPAffinityConfigPostgresql, checkAffinityConfig_eq_ok]
  cases hx : c.pxc <;> cases hm : c.psmdb <;> cases hp : c.postgresql <;>
    simp [AffinityConfig.FitsEngine, pxcPart, psmdbPart, hx, hm, hp, hpxc, hpsmdb]

end FitsEngine

theorem operatorTypeToName_ne_nil (type : GoString) :
    operatorTypeToName type ≠ [] ↔
      type = databaseEnginePXC ∨ type = databaseEnginePSMDB ∨ type = databaseEnginePostgresql := by
  have hnames : ascii "percona-xtradb-cluster-operator" ≠ [] ∧
      ascii "percona-server-mongodb-operator" ≠ [] ∧ ascii "percona-postgresql-operator" ≠ [] := by
    decide
  unfold operatorTypeToName
  split
  · simp_all
  · split
    · simp_all
    · split <;> simp_all

/-- What `validatePSPCR` accepts. -/
structure ValidPolicy (validateRFC1035 : ValidateRFC1035) (name : GoString)
    (spec : PodSchedulingPolicySpec A) : Prop where
  name_ok : validateRFC1035 name (ascii "metadata.name") = .ok ()
  engineType_supported : operatorTypeToName spec.engineType ≠ []
  affinity_fits : ∀ c, spec.affinityConfig = some c → c.FitsEngine spec.engineType

theorem validatePSPCR_eq_ok (validateRFC1035 : ValidateRFC1035) (name : GoString)
    (spec : PodSchedulingPolicySpec A) :
    validatePSPCR validateRFC1035 name spec = .ok () ↔ ValidPolicy validateRFC1035 name spec := by
  have haffinity (hengine : operatorTypeToName spec.engineType ≠ []) (c : AffinityConfig A) :
      (if spec.engineType = databaseEnginePXC then validatePSPAffinityConfigPXC c
        else if spec.engineType = databaseEnginePSMDB then validatePSPAffinityConfigPSMDB c
        else if spec.engineType = databaseEnginePostgresql then
          validatePSPAffinityConfigPostgresql c
        else .ok ()) = .ok () ↔ c.FitsEngine spec.engineType := by
    rcases (operatorTypeToName_ne_nil _).mp hengine with h | h | h
    · rw [h, if_pos rfl, validatePSPAffinityConfigPXC_eq_ok]
    · rw [h, if_neg (by decide), if_pos rfl, validatePSPAffinityConfigPSMDB_eq_ok]
    · rw [h, if_neg (by decide), if_neg (by decide), if_pos rfl,
        validatePSPAffinityConfigPostgresql_eq_ok]
  unfold validatePSPCR
  cases hname : validateRFC1035 name (ascii "metadata.name") with
  | error text =>
    refine ⟨fun h => (by simp at h), fun h => ?_⟩
    rw [h.name_ok] at hname
    cases hname
  | ok u =>
    simp only [check_bind_eq_ok, failIf_eq_ok, decide_eq_false_iff_not]
    constructor
    · rintro ⟨hengine, hconfig⟩
      refine ⟨hname, hengine, fun c hc => ?_⟩
      rw [hc] at hconfig
      exact (haffinity hengine c).mp hconfig
    · intro h
      refine ⟨h.engineType_supported, ?_⟩
      cases hc : spec.affinityConfig with
      | none => rfl
      | some c => exact (haffinity h.engineType_supported c).mpr (h.affinity_fits c hc)

def AffinityConfig.present (c : AffinityConfig A) : Validation.AffinityConfig where
  pxc := c.pxc.map fun p => ⟨p.engine.isSome, p.proxy.isSome, false⟩
  psmdb := c.psmdb.map fun p => ⟨p.engine.isSome, p.proxy.isSome, p.configServer.isSome⟩
  postgresql := c.postgresql.map fun p => ⟨p.engine.isSome, p.proxy.isSome, false⟩

theorem AffinityConfig.FitsEngine.validateDBClusterPSPAffinityConfig {c : AffinityConfig A}
    {engineType : GoString} (h : c.FitsEngine engineType) :
    Validation.validateDBClusterPSPAffinityConfig engineType c.present = .ok () := by
  obtain ⟨hpxc, hpsmdb, hpg, ⟨p, hp, hparts⟩ | ⟨p, hp, hparts⟩ | ⟨p, hp, hparts⟩⟩ := h
  · obtain rfl := hpxc (by simp [hp])
    rcases hparts with h | h <;>
      simp [Validation.validateDBClusterPSPAffinityConfig, Validation.checkAffinity,
        Validation.failWhen, present, hp, h]
  · obtain rfl := hpsmdb (by simp [hp])
    have hne : databaseEnginePSMDB ≠ databaseEnginePXC := by decide
    rcases hparts with h | h | h <;>
      simp [Validation.validateDBClusterPSPAffinityConfig, Validation.checkAffinity,
        Validation.failWhen, present, hp, h, hne]
  · obtain rfl := hpg (by simp [hp])
    have hne : databaseEnginePostgresql ≠ databaseEnginePXC ∧
        databaseEnginePostgresql ≠ databaseEnginePSMDB := by decide
    rcases hparts with h | h <;>
      simp [Validation.validateDBClusterPSPAffinityConfig, Validation.checkAffinity,
        Validation.failWhen, present, hp, h, hne.1, hne.2]

end OpenEverest.Policies
