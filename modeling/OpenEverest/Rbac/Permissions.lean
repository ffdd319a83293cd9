import OpenEverest.Rbac.ValidatePolicy

/-!
# The permissions of a user

The list of a user's permissions is collected through the role graph; the check
of a request asks the matcher for the subject and each group in turn. They agree
where no malformed pattern ends the check before a subject is allowed.
-/

namespace OpenEverest.Rbac

open Framework GoString

/-- `GetImplicitPermissionsForUser`: the rules of the subject and of the roles it has. -/
def CasbinModel.implicitPermissions (m : CasbinModel) (sub : GoString) : List PolicyRule :=
  m.p.filter fun rule => rule.sub ∈ reached m.links [sub]

structure UserPermissions where
  permissions : List PolicyRule
  enabled : Bool
  deriving DecidableEq

def resolvedPermissions (m : CasbinModel) (user : User) : List PolicyRule :=
  (((user.subject :: user.groups).flatMap m.implicitPermissions).map fun perm =>
    { perm with sub := user.subject }).dedup

/-- `rbacHandler.GetUserPermissions`; the next handler tells whether RBAC is enabled. -/
def getUserPermissions (e : CasbinEnforcer) (user : Except Unit User) (next : Except Unit Bool) :
    Except RbacError UserPermissions :=
  match user with
  | .error _ => .error .getUser
  | .ok user =>
    let result := resolvedPermissions e.model user
    match next with
    | .error _ => .error (.wrap "failed to GetUserPermissions" .next)
    | .ok enabled => .ok ⟨if enabled then result else [], enabled⟩

structure PolicyRule.Matches (rule : PolicyRule) (res act obj : GoString) : Prop where
  res : pathMatch rule.res res = .ok true
  act : pathMatch rule.act act = .ok true
  obj : pathMatch rule.obj obj = .ok true

theorem PolicyRule.covers_eq_true (rule : PolicyRule) (res act obj : GoString) :
    rule.covers res act obj = .ok true ↔ rule.Matches res act obj := by
  unfold covers
  rw [andMatch_eq_true, andMatch_eq_true]
  exact ⟨fun ⟨hres, hact, hobj⟩ => ⟨hres, hact, hobj⟩, fun h => ⟨h.res, h.act, h.obj⟩⟩

section Subject

variable (m : CasbinModel) (sub res act obj : GoString)

def Hits : Prop :=
  ∃ rule ∈ m.p, LeadsTo m.links sub rule.sub ∧ rule.Matches res act obj

/-- A rule the subject reaches has a malformed pattern where the matcher reads it. -/
def Fails : Prop :=
  ∃ rule ∈ m.p, LeadsTo m.links sub rule.sub ∧ ∃ e, rule.covers res act obj = .error e

theorem matchRules_eq_true (rules : List PolicyRule) :
    m.matchRules sub res act obj rules = .ok true ↔
      (∃ b, m.matchRules sub res act obj rules = .ok b) ∧
        ∃ rule ∈ rules, m.matcher sub res act obj rule = .ok true := by
  induction rules with
  | nil => simp [CasbinModel.matchRules]
  | cons rule rules ih =>
    have htail : ∀ more, m.matchRules sub res act obj rules = .ok more →
        (more = true ↔ ∃ rule ∈ rules, m.matcher sub res act obj rule = .ok true) := by
      intro more hmore
      have hiff := ih
      rw [hmore] at hiff
      simpa using hiff
    simp only [CasbinModel.matchRules, bind_eq_ok, List.exists_mem_cons_iff]
    constructor
    · rintro ⟨hit, hhit, more, hmore, heq⟩
      refine ⟨⟨_, hit, hhit, more, hmore, rfl⟩, ?_⟩
      rcases Bool.or_eq_true_iff.mp (Except.ok.inj heq) with rfl | hmore'
      · exact .inl hhit
      · exact .inr ((htail more hmore).mp hmore')
    · rintro ⟨⟨b, hit, hhit, more, hmore, -⟩, hsome⟩
      refine ⟨hit, hhit, more, hmore, congrArg _ ?_⟩
      rw [Bool.or_eq_true]
      rcases hsome with htrue | hsome
      · rw [hhit] at htrue
        exact .inl (Except.ok.inj htrue)
      · exact .inr ((htail more hmore).mpr hsome)

theorem matcher_eq_true (rule : PolicyRule) : m.matcher sub res act obj rule = .ok true ↔
    LeadsTo m.links sub rule.sub ∧ rule.Matches res act obj := by
  unfold CasbinModel.matcher
  rw [andMatch_eq_true, PolicyRule.covers_eq_true, Except.ok.injEq, hasLink_iff]

theorem matcher_eq_ok (rule : PolicyRule) : (∃ b, m.matcher sub res act obj rule = .ok b) ↔
    ¬ (LeadsTo m.links sub rule.sub ∧ ∃ e, rule.covers res act obj = .error e) := by
  unfold CasbinModel.matcher
  rw [andMatch_eq_ok, Except.ok.injEq, hasLink_iff]
  have hlink : ∃ b, (.ok (hasLink m.links sub rule.sub) : Except PatternError Bool) = .ok b :=
    ⟨_, rfl⟩
  cases rule.covers res act obj with
  | error e =>
    have hfails : ∃ e', (.error e : Except PatternError Bool) = .error e' := ⟨e, rfl⟩
    have hnone : ¬ ∃ b, (.error e : Except PatternError Bool) = .ok b := fun ⟨_, hb⟩ => nomatch hb
    tauto
  | ok b => simp

variable {m}

theorem enforce_eq_ok (hrules : m.rules = m.p) :
    (∃ b, (CasbinEnforcer.mk m true).enforce sub res act obj = .ok b) ↔
      ¬ Fails m sub res act obj := by
  have henforce : (CasbinEnforcer.mk m true).enforce sub res act obj =
      m.matchRules sub res act obj m.p := by simp [CasbinEnforcer.enforce, hrules]
  rw [henforce, CasbinModel.matchRules_eq_ok]
  simp only [matcher_eq_ok, Fails, not_exists, not_and]

theorem enforce_eq_true (hrules : m.rules = m.p) :
    (CasbinEnforcer.mk m true).enforce sub res act obj = .ok true ↔
      ¬ Fails m sub res act obj ∧ Hits m sub res act obj := by
  have henforce : (CasbinEnforcer.mk m true).enforce sub res act obj =
      m.matchRules sub res act obj m.p := by simp [CasbinEnforcer.enforce, hrules]
  rw [← enforce_eq_ok sub res act obj hrules, henforce, matchRules_eq_true]
  simp only [matcher_eq_true, Hits]

end Subject

theorem enforceAny_eq_ok (enforcer : Enforcer) (res act obj : GoString) (subs : List GoString) :
    enforceAny enforcer res act obj subs = .ok () ↔
      ∃ before sub after, subs = before ++ sub :: after ∧ enforcer sub res act obj = .ok true ∧
        ∀ s ∈ before, ∃ b, enforcer s res act obj = .ok b := by
  induction subs with
  | nil => simp [enforceAny]
  | cons first subs ih =>
    unfold enforceAny
    cases hfirst : enforcer first res act obj with
    | error e =>
      refine iff_of_false (by simp) ?_
      rintro ⟨before, sub, after, hsubs, hsub, hbefore⟩
      cases before with
      | nil =>
        obtain ⟨rfl, -⟩ := List.cons.inj hsubs
        rw [hfirst] at hsub
        cases hsub
      | cons s before =>
        obtain ⟨rfl, -⟩ := List.cons.inj hsubs
        obtain ⟨b, hb⟩ := hbefore first List.mem_cons_self
        rw [hfirst] at hb
        cases hb
    | ok allowed =>
      cases allowed with
      | true => exact iff_of_true rfl ⟨[], first, subs, rfl, hfirst, by simp⟩
      | false =>
        rw [ih]
        constructor
        · rintro ⟨before, sub, after, rfl, hsub, hbefore⟩
          exact ⟨first :: before, sub, after, rfl, hsub,
            List.forall_mem_cons.mpr ⟨⟨false, hfirst⟩, hbefore⟩⟩
        · rintro ⟨before, sub, after, hsubs, hsub, hbefore⟩
          cases before with
          | nil =>
            obtain ⟨rfl, -⟩ := List.cons.inj hsubs
            rw [hfirst] at hsub
            cases hsub
          | cons s before =>
            obtain ⟨rfl, rfl⟩ := List.cons.inj hsubs
            exact ⟨before, sub, after, rfl, hsub, fun s hs => hbefore s (List.mem_cons_of_mem _ hs)⟩

namespace ValidPolicy

variable (policy : ValidPolicy) (user : User) (res act obj : GoString)

def handler : RbacHandler := ⟨policy.enforcer.toEnforcer, .ok user⟩

def Listed : Prop :=
  ∃ perms, getUserPermissions policy.enforcer (.ok user) (.ok true) = .ok perms ∧
    ∃ entry ∈ perms.permissions, entry.Matches res act obj

/-- The check allows the request exactly when the list has an entry that matches. -/
def PermissionsAgree : Prop :=
  (policy.handler user).enforce res act obj = .ok () ↔ policy.Listed user res act obj

theorem listed_iff : policy.Listed user res act obj ↔
    ∃ sub ∈ user.subject :: user.groups, Hits policy.model sub res act obj := by
  unfold Listed getUserPermissions
  simp only [if_true, Except.ok.injEq, exists_eq_left']
  simp only [resolvedPermissions, List.mem_dedup, List.mem_map, List.mem_flatMap,
    CasbinModel.implicitPermissions, List.mem_filter, decide_eq_true_eq, mem_reached_singleton,
    hasLink_iff, Hits]
  constructor
  · rintro ⟨entry, ⟨rule, ⟨sub, hsub, hrule, hlink⟩, rfl⟩, hmatches⟩
    exact ⟨sub, hsub, rule, hrule, hlink, hmatches.res, hmatches.act, hmatches.obj⟩
  · rintro ⟨sub, hsub, rule, hrule, hlink, hmatches⟩
    exact ⟨_, ⟨rule, ⟨sub, hsub, hrule, hlink⟩, rfl⟩, hmatches.res, hmatches.act, hmatches.obj⟩

/-- One of the subjects asked is allowed, and neither it nor one before it fails. -/
def AllowedBeforeFailure : Prop :=
  ∃ before sub after, user.subject :: user.groups = before ++ sub :: after ∧
    Hits policy.model sub res act obj ∧ ∀ s ∈ before ++ [sub], ¬ Fails policy.model s res act obj

theorem enforce_iff : (policy.handler user).enforce res act obj = .ok () ↔
    policy.AllowedBeforeFailure user res act obj := by
  let e : CasbinEnforcer := ⟨policy.model, true⟩
  have hok : ∀ sub b, e.toEnforcer sub res act obj = .ok b ↔ e.enforce sub res act obj = .ok b := by
    intro sub b
    unfold CasbinEnforcer.toEnforcer
    cases e.enforce sub res act obj <;> simp
  have hallowed : ∀ sub, e.enforce sub res act obj = .ok true ↔
      ¬ Fails policy.model sub res act obj ∧ Hits policy.model sub res act obj :=
    fun sub => enforce_eq_true sub res act obj policy.model_rules
  have hanswers : ∀ sub, (∃ b, e.enforce sub res act obj = .ok b) ↔
      ¬ Fails policy.model sub res act obj :=
    fun sub => enforce_eq_ok sub res act obj policy.model_rules
  change enforceAny e.toEnforcer res act obj (user.subject :: user.groups) = .ok () ↔ _
  rw [enforceAny_eq_ok]
  simp only [hok, hallowed, hanswers, AllowedBeforeFailure, List.forall_mem_append,
    List.forall_mem_singleton]
  constructor
  · rintro ⟨before, sub, after, hsubs, ⟨hfails, hhits⟩, hbefore⟩
    exact ⟨before, sub, after, hsubs, hhits, hbefore, hfails⟩
  · rintro ⟨before, sub, after, hsubs, hhits, hbefore, hfails⟩
    exact ⟨before, sub, after, hsubs, ⟨hfails, hhits⟩, hbefore⟩

theorem enforce_listed (h : policy.AllowedBeforeFailure user res act obj) :
    policy.Listed user res act obj := by
  obtain ⟨before, sub, after, hsubs, hhits, -⟩ := h
  rw [listed_iff]
  exact ⟨sub, by simp [hsubs], hhits⟩

theorem permissionsAgree_iff (policy : ValidPolicy) (user : User) (res act obj : GoString) :
    policy.PermissionsAgree user res act obj ↔
      ((∃ sub ∈ user.subject :: user.groups, Hits policy.model sub res act obj) →
        policy.AllowedBeforeFailure user res act obj) := by
  unfold PermissionsAgree
  rw [enforce_iff, ← listed_iff]
  exact ⟨fun h => h.mpr, fun h => ⟨policy.enforce_listed user res act obj, h⟩⟩

end ValidPolicy

def openRule : PolicyRule := ⟨ascii "alice", resourceDatabaseClusters, ascii "*", ascii "*/*"⟩

def openPolicy : ValidPolicy :=
  .ofText (ascii "p, alice, database-clusters, *, */*\np, alice, database-clusters, read, [")
    ⟨[openRule, bracketRule], []⟩ (by decide +kernel) (by decide +kernel)

theorem openPolicy_disagrees : ¬ ∀ (policy : ValidPolicy) (user : User) (res act obj : GoString),
    policy.PermissionsAgree user res act obj := by
  intro h
  let user : User := ⟨ascii "alice", []⟩
  let object : GoString := objectName [ascii "ns", ascii "db"]
  have hagree := h openPolicy user resourceDatabaseClusters actionRead object
  have hmem : openRule ∈ openPolicy.model.p :=
    openPolicy.loaded.subset_loadAdminPolicy _ List.mem_cons_self
  have hmatches : openRule.Matches resourceDatabaseClusters actionRead object :=
    ⟨by decide +kernel, by decide +kernel, by decide +kernel⟩
  have hlisted : openPolicy.Listed user resourceDatabaseClusters actionRead object := by
    rw [ValidPolicy.listed_iff]
    exact ⟨user.subject, List.mem_cons_self, openRule, hmem, .refl, hmatches⟩
  have hfails : (openPolicy.handler user).enforce resourceDatabaseClusters actionRead object =
      .error (.wrap "enforce error" .enforcer) := by decide +kernel
  have hallowed := hagree.mpr hlisted
  rw [hfails] at hallowed
  cases hallowed

end OpenEverest.Rbac
