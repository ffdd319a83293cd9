import OpenEverest.Framework.Checks
import OpenEverest.Framework.GoString

/-!
# RBAC checks

The RBAC layer asks the enforcer for the user's subject and each of its groups.
The enforcer and the user of a request are parameters: the policy may be any.
-/

namespace OpenEverest.Rbac

open Framework GoString

def resourceBackupStorages : GoString := ascii "backup-storages"

def resourceDatabaseClusters : GoString := ascii "database-clusters"

def resourceDatabaseClusterBackups : GoString := ascii "database-cluster-backups"

def resourceDatabaseClusterCredentials : GoString := ascii "database-cluster-credentials"

def resourceDatabaseClusterRestores : GoString := ascii "database-cluster-restores"

def resourceDatabaseEngines : GoString := ascii "database-engines"

def resourceDataImporters : GoString := ascii "data-importers"

def resourceLoadBalancerConfigs : GoString := ascii "load-balancer-configs"

def resourceMonitoringInstances : GoString := ascii "monitoring-instances"

def resourceEngineFeaturesSplitHorizonDNSConfigs : GoString :=
  ascii "enginefeatures/split-horizon-dns-configs"

def actionCreate : GoString := ascii "create"

def actionRead : GoString := ascii "read"

def actionUpdate : GoString := ascii "update"

/-- `rbac.ObjectName`: the arguments joined by slashes. -/
def objectName (args : List GoString) : GoString := join 47 args

structure User where
  subject : GoString
  groups : List GoString

/-- `Enforce(sub, resource, action, object)`, which may fail. -/
abbrev Enforcer := GoString → GoString → GoString → GoString → Except Unit Bool

inductive RbacError where
  | errInsufficientPermissions
  | getUser
  | enforcer
  | next
  | wrap (context : String) (e : RbacError)
  deriving DecidableEq

/-- `errors.Is(err, ErrInsufficientPermissions)`. -/
def RbacError.isInsufficient : RbacError → Bool
  | .errInsufficientPermissions => true
  | .wrap _ e => e.isInsufficient
  | _ => false

/-- The handler with the user of the request, as `userGetter` returns it. -/
structure RbacHandler where
  enforcer : Enforcer
  user : Except Unit User

/-- The loop over the subject and the groups: the first that is allowed decides. -/
def enforceAny (enforcer : Enforcer) (resource action object : GoString) :
    List GoString → Except RbacError Unit
  | [] => .error .errInsufficientPermissions
  | sub :: subs =>
    match enforcer sub resource action object with
    | .error _ => .error (.wrap "enforce error" .enforcer)
    | .ok true => .ok ()
    | .ok false => enforceAny enforcer resource action object subs

def RbacHandler.enforce (h : RbacHandler) (resource action object : GoString) :
    Except RbacError Unit :=
  match h.user with
  | .error _ => .error .getUser
  | .ok user => enforceAny h.enforcer resource action object (user.subject :: user.groups)

abbrev Policy := GoString → GoString → GoString → GoString → Bool

def policyHandler (policy : Policy) (user : User) : RbacHandler :=
  ⟨fun sub resource action object => .ok (policy sub resource action object), .ok user⟩

/-- The policy allows the request to the subject or one of the groups. -/
def Policy.Allows (policy : Policy) (user : User) (resource action object : GoString) : Prop :=
  ∃ sub ∈ user.subject :: user.groups, policy sub resource action object = true

section Policy

variable (policy : Policy) (user : User) (resource action object : GoString)

private theorem enforceAny_policy (subs : List GoString) :
    enforceAny (fun sub resource action object => .ok (policy sub resource action object))
        resource action object subs =
      if subs.any (policy · resource action object) then .ok ()
      else .error .errInsufficientPermissions := by
  induction subs with
  | nil => rfl
  | cons sub subs ih =>
    cases hsub : policy sub resource action object with
    | true => simp [enforceAny, hsub]
    | false => simpa [enforceAny, hsub] using ih

private theorem enforce_policy :
    (policyHandler policy user).enforce resource action object =
      if (user.subject :: user.groups).any (policy · resource action object) then .ok ()
      else .error .errInsufficientPermissions :=
  enforceAny_policy policy resource action object (user.subject :: user.groups)

theorem enforce_policy_eq_ok :
    (policyHandler policy user).enforce resource action object = .ok () ↔
      policy.Allows user resource action object := by
  rw [enforce_policy, Policy.Allows, ← List.any_eq_true]
  split <;> simp_all

theorem enforce_policy_eq_error (e : RbacError) :
    (policyHandler policy user).enforce resource action object = .error e ↔
      ¬ policy.Allows user resource action object ∧ e = .errInsufficientPermissions := by
  rw [enforce_policy, Policy.Allows, ← List.any_eq_true]
  split
  · rename_i hany
    simp only [hany, not_true, false_and, reduceCtorEq]
  · rename_i hany
    rw [Except.error.injEq, eq_comm]
    exact ⟨fun he => ⟨hany, he⟩, fun he => he.2⟩

end Policy

/-- The second policy allows every read the first does, and else the same. -/
structure MoreReads (p q : Policy) : Prop where
  read : ∀ sub resource object, p sub resource actionRead object = true →
    q sub resource actionRead object = true
  same : ∀ sub resource action object, action ≠ actionRead →
    q sub resource action object = p sub resource action object

def Policy.readAll (p : Policy) : Policy :=
  fun sub resource action object => decide (action = actionRead) || p sub resource action object

namespace MoreReads

theorem readAll (p : Policy) : MoreReads p p.readAll := by
  refine ⟨?_, ?_⟩
  · intro sub resource object _
    simp [Policy.readAll]
  · intro sub resource action object hne
    simp [Policy.readAll, hne]

variable {p q : Policy} (h : MoreReads p q) (user : User)

include h

theorem allows_read {resource object : GoString}
    (hp : p.Allows user resource actionRead object) :
    q.Allows user resource actionRead object := by
  obtain ⟨sub, hsub, hallow⟩ := hp
  exact ⟨sub, hsub, h.read sub resource object hallow⟩

theorem allows_iff {resource action object : GoString} (hne : action ≠ actionRead) :
    q.Allows user resource action object ↔ p.Allows user resource action object := by
  simp only [Policy.Allows, h.same _ resource action object hne]

end MoreReads

theorem readAll_allows (p : Policy) (user : User) (resource object : GoString) :
    p.readAll.Allows user resource actionRead object :=
  ⟨user.subject, List.mem_cons_self, by simp [Policy.readAll]⟩

end OpenEverest.Rbac
