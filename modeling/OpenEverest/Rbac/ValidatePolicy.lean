import OpenEverest.Framework.PathMatch
import OpenEverest.Framework.Reachability
import OpenEverest.Rbac.Lists
import OpenEverest.Rbac.PolicyText

/-!
# Validating and evaluating a policy

The terms of a rule are checked against a class of characters and a list of
resources; the matcher then reads the same terms as glob patterns. It looks at
every rule, and an error at one of them is the answer to the request.
-/

namespace OpenEverest.Rbac

open Framework GoString

def globMatch (key1 key2 : GoString) : Except PatternError Bool := pathMatch key2 key1

/-- A conjunct of the matcher, which is read only where those before it hold. -/
def andMatch (x y : Except PatternError Bool) : Except PatternError Bool :=
  match x with
  | .ok true => y
  | _ => x

/-- `globMatch(r.res, p.res) && globMatch(r.act, p.act) && globMatch(r.obj, p.obj)`. -/
def PolicyRule.covers (rule : PolicyRule) (res act obj : GoString) : Except PatternError Bool :=
  andMatch (globMatch res rule.res) (andMatch (globMatch act rule.act) (globMatch obj rule.obj))

namespace CasbinModel

/-- The matcher of `model.conf` at one rule. -/
def matcher (m : CasbinModel) (sub res act obj : GoString) (rule : PolicyRule) :
    Except PatternError Bool :=
  andMatch (.ok (hasLink m.links sub rule.sub)) (rule.covers res act obj)

def matchRules (m : CasbinModel) (sub res act obj : GoString) :
    List PolicyRule → Except PatternError Bool
  | [] => .ok false
  | rule :: rules => do
    let hit ← m.matcher sub res act obj rule
    let more ← m.matchRules sub res act obj rules
    .ok (hit || more)

/-- The rules the matcher is evaluated at; without any it sees empty terms. -/
def rules (m : CasbinModel) : List PolicyRule := if m.p = [] then [⟨[], [], [], []⟩] else m.p

end CasbinModel

/-- The enforcer; `EnableEnforce` sets its flag. -/
structure CasbinEnforcer where
  model : CasbinModel
  enabled : Bool
  deriving DecidableEq

def CasbinEnforcer.enforce (e : CasbinEnforcer) (sub res act obj : GoString) :
    Except PatternError Bool :=
  if e.enabled = false then .ok true else e.model.matchRules sub res act obj e.model.rules

def CasbinEnforcer.toEnforcer (e : CasbinEnforcer) : Enforcer := fun sub res act obj =>
  match e.enforce sub res act obj with
  | .error _ => .error ()
  | .ok allowed => .ok allowed

def resourceNamespaces : GoString := ascii "namespaces"

def resourceDataImportJobs : GoString := ascii "data-import-jobs"

def globalResources : List GoString :=
  [resourceNamespaces, resourcePodSchedulingPolicies, resourceLoadBalancerConfigs,
    resourceDataImporters]

def isGlobalResource (resource : GoString) : Bool := decide (resource ∈ globalResources)

def apiResources : List GoString :=
  [resourceNamespaces, resourceDatabaseClusters, resourceDatabaseClusterBackups,
    resourceDatabaseClusterRestores, resourceDatabaseClusterCredentials, resourceDataImportJobs,
    resourceDatabaseEngines, resourceBackupStorages, resourceMonitoringInstances,
    resourcePodSchedulingPolicies, resourceDataImporters, resourceLoadBalancerConfigs,
    resourceEngineFeaturesSplitHorizonDNSConfigs]

def everestRBACRolePrefix : GoString := ascii "role:"

def everestAdminRole : GoString := ascii "role:admin"

def adminRule (resource : GoString) : PolicyRule :=
  ⟨everestAdminRole, resource, ascii "*",
    if isGlobalResource resource then ascii "*" else ascii "*/*"⟩

/-- The resources in the order a range over their map takes them. -/
abbrev ResourceOrder : Type := { order : List GoString // order.Perm apiResources }

def ResourceOrder.listed : ResourceOrder := ⟨apiResources, .rfl⟩

/-- The built-in rules of some resources, one after the other. -/
def CasbinModel.addAdmin (m : CasbinModel) (resources : List GoString) : CasbinModel :=
  resources.foldl (fun m resource => m.addPolicy (adminRule resource)) m

/-- `loadAdminPolicy`. -/
def CasbinModel.loadAdminPolicy (m : CasbinModel) (order : ResourceOrder) : CasbinModel :=
  m.addAdmin order.1

/-- A byte of the class `[/*-_:a-zA-Z0-9]`, whose range `*-_` holds brackets too. -/
def isTermByte (b : UInt8) : Bool := decide ((0x2A ≤ b ∧ b ≤ 0x5F) ∨ (0x61 ≤ b ∧ b ≤ 0x7A))

def validateTerm (term : GoString) : Except PolicyError Unit :=
  if term ≠ [] ∧ term.all isTermByte then .ok () else .error (.invalidPolicyTerm term)

def validateTerms (rule : PolicyRule) : Except PolicyError Unit :=
  checkAll validateTerm [rule.sub, rule.res, rule.act, rule.obj]

def checkRole (roles : List GoString) (rule : PolicyRule) : Except PolicyError Unit :=
  if ¬ everestRBACRolePrefix <+: rule.sub then .ok ()
  -- the admin role need not be assigned to anyone
  else if rule.sub = everestAdminRole then .ok ()
  else if rule.sub ∈ roles then .ok ()
  else .error (.roleDoesNotExist rule.sub)

def checkResourceName (rule : PolicyRule) : Except PolicyError Unit :=
  if rule.res = ascii "*" then .ok ()
  else if rule.res ∈ apiResources then .ok ()
  else .error (.unknownResourceName rule.res)

def validatePolicy (m : CasbinModel) : Except PolicyError Unit := do
  checkAll validateTerms m.p
  checkAll (checkRole m.roles) m.p
  checkAll checkResourceName m.p

/-- The rule is evaluated without error, for whatever request reaches it. -/
def PolicyRule.Total (rule : PolicyRule) : Prop :=
  WellFormed rule.act ∧
    ((∃ act, pathMatch rule.act act = .ok true) → WellFormed rule.obj)

theorem andMatch_eq_ok (x y : Except PatternError Bool) :
    (∃ b, andMatch x y = .ok b) ↔ (∃ b, x = .ok b) ∧ (x = .ok true → ∃ b, y = .ok b) := by
  cases x with
  | error e => simp [andMatch]
  | ok b => cases b <;> simp [andMatch]

theorem andMatch_eq_true (x y : Except PatternError Bool) :
    andMatch x y = .ok true ↔ x = .ok true ∧ y = .ok true := by
  cases x with
  | error e => simp [andMatch]
  | ok b => cases b <;> simp [andMatch]

theorem CasbinModel.matchRules_eq_ok (m : CasbinModel) (sub res act obj : GoString)
    (rules : List PolicyRule) : (∃ b, m.matchRules sub res act obj rules = .ok b) ↔
      ∀ rule ∈ rules, ∃ b, m.matcher sub res act obj rule = .ok b := by
  induction rules with
  | nil => simp [matchRules]
  | cons rule rules ih =>
    rw [List.forall_mem_cons, ← ih]
    simp only [matchRules, bind_eq_ok]
    constructor
    · rintro ⟨b, hit, hhit, more, hmore, -⟩
      exact ⟨⟨hit, hhit⟩, ⟨more, hmore⟩⟩
    · rintro ⟨⟨hit, hhit⟩, ⟨more, hmore⟩⟩
      exact ⟨_, hit, hhit, more, hmore, rfl⟩

theorem apiResource_wellFormed : ∀ resource ∈ apiResources,
    WellFormed resource ∧ pathMatch resource resource = .ok true := by
  decide +kernel

theorem checkResourceName_wellFormed {rule : PolicyRule} (h : checkResourceName rule = .ok ()) :
    WellFormed rule.res ∧ ∃ res, pathMatch rule.res res = .ok true := by
  unfold checkResourceName at h
  split at h
  · rename_i hall
    rw [hall]
    exact ⟨by decide +kernel, [], by decide +kernel⟩
  · split at h
    · rename_i hknown
      obtain ⟨hwell, hmatch⟩ := apiResource_wellFormed rule.res hknown
      exact ⟨hwell, rule.res, hmatch⟩
    · cases h

theorem PolicyRule.covers_total_iff {rule : PolicyRule} (h : checkResourceName rule = .ok ()) :
    (∀ res act obj, ∃ b, rule.covers res act obj = .ok b) ↔ rule.Total := by
  obtain ⟨hwell, res, hres⟩ := checkResourceName_wellFormed h
  constructor
  · intro htotal
    have hmatched : ∀ act obj, ∃ b, andMatch (globMatch act rule.act) (globMatch obj rule.obj) =
        .ok b := by
      intro act obj
      exact ((andMatch_eq_ok ..).mp (htotal res act obj)).2 hres
    have hact := ((andMatch_eq_ok ..).mp (hmatched [] [])).1
    refine ⟨(pathMatch_total_iff ..).mp hact, ?_⟩
    rintro ⟨act, hmatch⟩
    have hobj := ((andMatch_eq_ok ..).mp (hmatched act [])).2 hmatch
    exact (pathMatch_total_iff ..).mp hobj
  · rintro ⟨hact, hobj⟩ res act obj
    unfold PolicyRule.covers
    rw [andMatch_eq_ok, andMatch_eq_ok]
    refine ⟨(pathMatch_total_iff ..).mpr hwell, fun _ => ⟨(pathMatch_total_iff ..).mpr hact, ?_⟩⟩
    intro hmatch
    exact (pathMatch_total_iff ..).mpr (hobj ⟨act, hmatch⟩)

namespace CasbinModel

variable (m : CasbinModel)

theorem addPolicy_ne_nil (rule : PolicyRule) : (m.addPolicy rule).p ≠ [] := by
  unfold addPolicy
  split
  · rename_i hkey
    intro hnil
    simp [hnil] at hkey
  · simp

theorem addAdmin_concat (resources : List GoString) (resource : GoString) :
    m.addAdmin (resources ++ [resource]) =
      (m.addAdmin resources).addPolicy (adminRule resource) := by
  simp [addAdmin, List.foldl_append]

theorem mem_addAdmin {resources : List GoString} {rule : PolicyRule}
    (h : rule ∈ (m.addAdmin resources).p) :
    rule ∈ m.p ∨ ∃ resource ∈ resources, rule = adminRule resource := by
  induction resources using List.reverseRecOn with
  | nil => exact .inl h
  | append_singleton resources resource ih =>
    rw [addAdmin_concat] at h
    rcases mem_addPolicy h with h | h
    · exact (ih h).imp id fun ⟨other, hother, h⟩ => ⟨other, List.mem_append_left _ hother, h⟩
    · exact .inr ⟨resource, List.mem_concat_self, h⟩

theorem subset_addAdmin (resources : List GoString) : m.p ⊆ (m.addAdmin resources).p := by
  induction resources using List.reverseRecOn with
  | nil => exact fun _ h => h
  | append_singleton resources resource ih =>
    rw [addAdmin_concat]
    exact fun r h => subset_addPolicy _ _ (ih h)

theorem mem_loadAdminPolicy {order : ResourceOrder} {rule : PolicyRule}
    (h : rule ∈ (m.loadAdminPolicy order).p) :
    rule ∈ m.p ∨ ∃ resource ∈ apiResources, rule = adminRule resource := by
  rcases m.mem_addAdmin h with h | ⟨resource, hresource, h⟩
  · exact .inl h
  · exact .inr ⟨resource, order.2.mem_iff.mp hresource, h⟩

theorem subset_loadAdminPolicy (order : ResourceOrder) : m.p ⊆ (m.loadAdminPolicy order).p :=
  subset_addAdmin ..

theorem loadAdminPolicy_rules (order : ResourceOrder) :
    (m.loadAdminPolicy order).rules = (m.loadAdminPolicy order).p := by
  have hne : (m.loadAdminPolicy order).p ≠ [] := by
    obtain ⟨resource, rest, horder⟩ : ∃ resource rest, order.1 = resource :: rest := by
      cases horder : order.1 with
      | nil =>
        have hlength := order.2.length_eq
        rw [horder] at hlength
        cases hlength
      | cons resource rest => exact ⟨resource, rest, rfl⟩
    intro hnil
    unfold loadAdminPolicy addAdmin at hnil
    rw [horder, List.foldl_cons] at hnil
    have hsub := (m.addPolicy (adminRule resource)).subset_addAdmin rest
    unfold addAdmin at hsub
    rw [hnil] at hsub
    exact m.addPolicy_ne_nil _ (List.subset_nil.mp hsub)
  rw [rules, if_neg hne]

end CasbinModel

theorem adminRule_total : ∀ resource ∈ apiResources, WellFormed (adminRule resource).act ∧
    WellFormed (adminRule resource).obj := by
  decide +kernel

/-- A policy text that loads and is accepted, as `newEnforcer` does both. -/
structure ValidPolicy where
  text : GoString
  order : ResourceOrder
  loaded : CasbinModel
  loads : loadPolicyText text = .ok loaded
  valid : validatePolicy (loaded.loadAdminPolicy order) = .ok ()

namespace ValidPolicy

variable (policy : ValidPolicy)

/-- The model of the enforcer: the loaded rules with the built-in ones. -/
def model : CasbinModel := policy.loaded.loadAdminPolicy policy.order

def enforcer : CasbinEnforcer := ⟨policy.model, true⟩

theorem checkResourceName_ok : ∀ rule ∈ policy.model.p, checkResourceName rule = .ok () := by
  have h := policy.valid
  simp only [validatePolicy, check_bind_eq_ok, checkAll_eq_ok] at h
  exact h.2.2

/-- No evaluation of the matcher fails, and every request is allowed or denied. -/
structure ErrorFree : Prop where
  matcher : ∀ sub res act obj, ∀ rule ∈ policy.model.rules,
    ∃ b, policy.model.matcher sub res act obj rule = .ok b
  answer : ∀ user res act obj,
    (RbacHandler.mk policy.enforcer.toEnforcer (.ok user)).enforce res act obj = .ok () ∨
      (RbacHandler.mk policy.enforcer.toEnforcer (.ok user)).enforce res act obj =
        .error .errInsufficientPermissions

end ValidPolicy

theorem CasbinEnforcer.toEnforcer_eq_error (e : CasbinEnforcer) (sub res act obj : GoString) :
    e.toEnforcer sub res act obj = .error () ↔ ¬ ∃ b, e.enforce sub res act obj = .ok b := by
  unfold toEnforcer
  cases e.enforce sub res act obj with
  | error err => simp
  | ok b => simp

theorem enforceAny_total {enforcer : Enforcer} {res act obj : GoString} {subs : List GoString}
    (h : ∀ sub ∈ subs, enforcer sub res act obj ≠ .error ()) :
    enforceAny enforcer res act obj subs = .ok () ∨
      enforceAny enforcer res act obj subs = .error .errInsufficientPermissions := by
  induction subs with
  | nil => exact .inr rfl
  | cons sub subs ih =>
    rw [List.forall_mem_cons] at h
    unfold enforceAny
    cases hsub : enforcer sub res act obj with
    | error e => exact absurd hsub h.1
    | ok allowed =>
      cases allowed with
      | true => exact .inl rfl
      | false => exact ih h.2

namespace ValidPolicy

variable {policy : ValidPolicy}

theorem model_rules (policy : ValidPolicy) : policy.model.rules = policy.model.p :=
  policy.loaded.loadAdminPolicy_rules policy.order

theorem ErrorFree.total (h : policy.ErrorFree) : ∀ rule ∈ policy.loaded.p, rule.Total := by
  intro rule hrule
  have hmem : rule ∈ policy.model.p := policy.loaded.subset_loadAdminPolicy _ hrule
  apply (PolicyRule.covers_total_iff (policy.checkResourceName_ok rule hmem)).mp
  intro res act obj
  -- the rule's own subject reaches it
  have hmatcher := h.matcher rule.sub res act obj rule (policy.model_rules ▸ hmem)
  have hlink : (.ok (hasLink policy.model.links rule.sub rule.sub) :
      Except PatternError Bool) = .ok true := by rw [hasLink_self]
  exact ((andMatch_eq_ok ..).mp hmatcher).2 hlink

theorem matcher_total (h : ∀ rule ∈ policy.loaded.p, rule.Total) (sub res act obj : GoString) :
    ∀ rule ∈ policy.model.rules, ∃ b, policy.model.matcher sub res act obj rule = .ok b := by
  intro rule hrule
  rw [model_rules] at hrule
  have htotal : rule.Total := by
    rcases policy.loaded.mem_loadAdminPolicy hrule with hloaded | ⟨resource, hresource, rfl⟩
    · exact h rule hloaded
    · have hadmin := adminRule_total resource hresource
      exact ⟨hadmin.1, fun _ => hadmin.2⟩
  have hcovers := PolicyRule.covers_total_iff (policy.checkResourceName_ok rule hrule)
  exact (andMatch_eq_ok ..).mpr ⟨⟨_, rfl⟩, fun _ => hcovers.mpr htotal res act obj⟩

/-- A valid policy answers every request exactly when its rules are total. -/
theorem errorFree_iff (policy : ValidPolicy) :
    policy.ErrorFree ↔ ∀ rule ∈ policy.loaded.p, rule.Total := by
  refine ⟨fun h => h.total, fun h => ⟨matcher_total h, ?_⟩⟩
  intro user res act obj
  apply enforceAny_total
  intro sub _ herror
  have hmatch := (policy.model.matchRules_eq_ok sub res act obj policy.model.rules).mpr
    (matcher_total h sub res act obj)
  exact (CasbinEnforcer.toEnforcer_eq_error ..).mp herror hmatch

end ValidPolicy

def ValidPolicy.ofText (text : GoString) (m : CasbinModel) (loads : loadPolicyText text = .ok m)
    (valid : validatePolicy (m.loadAdminPolicy .listed) = .ok ()) : ValidPolicy :=
  ⟨text, .listed, m, loads, valid⟩

def bracketRule : PolicyRule :=
  ⟨ascii "alice", resourceDatabaseClusters, actionRead, ascii "["⟩

def bracketPolicy : ValidPolicy :=
  .ofText (ascii "p, alice, database-clusters, read, [") ⟨[bracketRule], []⟩ (by decide +kernel)
    (by decide +kernel)

/-- The bytes a term may have do not exclude malformed patterns. -/
theorem bracketPolicy_not_errorFree : ¬ ∀ policy : ValidPolicy, policy.ErrorFree := by
  intro h
  have hmem : bracketRule ∈ bracketPolicy.loaded.p := List.mem_singleton_self _
  have htotal := (h bracketPolicy).total bracketRule hmem
  have hread : pathMatch actionRead actionRead = .ok true := by decide +kernel
  have hwell : WellFormed (ascii "[") := htotal.2 ⟨actionRead, hread⟩
  have hnot : ¬ WellFormed (ascii "[") := by decide +kernel
  exact hnot hwell

end OpenEverest.Rbac
