import OpenEverest.Framework.Run
import OpenEverest.Rbac.Permissions

/-!
# Refreshing the policy

One enforcer serves every request. An update of the ConfigMap is handled in steps
on it: the policy is loaded anew, checked, the built-in rules are added one by one,
and enforcement is switched. The policy is read from the ConfigMap as it is then,
the switch is that of the update. The watch begins after the enforcer is built and
handles updates only.
-/

namespace OpenEverest.Rbac

open Framework GoString

/-! ### Contents of the ConfigMap -/

/-- A content whose policy loads and is accepted. -/
structure ValidConfig where
  text : GoString
  enabledData : Option GoString
  loaded : CasbinModel
  loads : loadPolicyText text = .ok loaded
  valid : validatePolicy loaded = .ok ()

namespace ValidConfig

variable (c : ValidConfig)

def configMap : ConfigMap := ⟨some c.text, c.enabledData⟩

def isEnabled : Bool := c.configMap.isEnabled

theorem loadPolicy_eq : c.configMap.loadPolicy = .ok c.loaded := c.loads

end ValidConfig

/-! ### The steps -/

/-- What the enforcer's owner does next, with the ConfigMap of the update it handles. -/
inductive RefreshPhase where
  | start
  | built
  | idle
  | loading (newObj : ValidConfig)
  | validating (newObj : ValidConfig)
  | adding (newObj : ValidConfig) (remaining : List GoString)

/-- `seen` is the content the informer last learnt, `pending` are the changes since.
`base` records what the policy was last loaded from, and `history` all contents. -/
structure RefreshState where
  store : ValidConfig
  enforcer : CasbinEnforcer
  phase : RefreshPhase
  seen : Option ValidConfig
  pending : List ValidConfig
  base : ValidConfig
  history : List ValidConfig

inductive RefreshStep where
  | change (c : ValidConfig)
  | newEnforcer (order : ResourceOrder)
  | enableEnforce
  | watch
  | deliver
  | resync
  | loadPolicy
  | validate
  | addPolicy (resource : GoString)
  | switch
  | enforce (sub res act obj : GoString)

namespace RefreshState

def start (c : ValidConfig) : RefreshState :=
  ⟨c, ⟨.empty, true⟩, .start, none, [], c, [c]⟩

/-- A failing load or validation makes the server panic, and there is no step. -/
def step (s : RefreshState) : RefreshStep → Option RefreshState
  | .change c =>
    some { s with
      store := c
      history := s.history ++ [c]
      pending := if s.seen.isSome then s.pending ++ [c] else s.pending }
  | .newEnforcer order =>
    match s.phase, s.store.configMap.loadPolicy with
    | .start, .ok m =>
      match validatePolicy (m.loadAdminPolicy order) with
      | .error _ => none
      | .ok _ =>
        some { s with
          enforcer := ⟨m.loadAdminPolicy order, true⟩
          phase := .built
          base := s.store }
    | _, _ => none
  -- the second read of the ConfigMap
  | .enableEnforce =>
    match s.phase with
    | .built => some { s with enforcer := ⟨s.enforcer.model, s.store.isEnabled⟩, phase := .idle }
    | _ => none
  -- the informer's first list: additions, which have no handler
  | .watch =>
    match s.phase, s.seen with
    | .idle, none => some { s with seen := some s.store }
    | _, _ => none
  | .deliver =>
    match s.phase, s.pending with
    | .idle, newObj :: pending =>
      some { s with phase := .loading newObj, seen := some newObj, pending }
    | _, _ => none
  | .resync =>
    match s.phase, s.seen with
    | .idle, some obj => some { s with phase := .loading obj }
    | _, _ => none
  | .loadPolicy =>
    match s.phase, s.store.configMap.loadPolicy with
    | .loading newObj, .ok m =>
      some { s with
        enforcer := ⟨m, s.enforcer.enabled⟩
        phase := .validating newObj
        base := s.store }
    | _, _ => none
  | .validate =>
    match s.phase, validatePolicy s.enforcer.model with
    | .validating newObj, .ok _ => some { s with phase := .adding newObj apiResources }
    | _, _ => none
  | .addPolicy resource =>
    match s.phase with
    | .adding newObj remaining =>
      if resource ∈ remaining then
        some { s with
          enforcer := ⟨s.enforcer.model.addPolicy (adminRule resource), s.enforcer.enabled⟩
          phase := .adding newObj (remaining.erase resource) }
      else none
    | _ => none
  | .switch =>
    match s.phase with
    | .adding newObj [] =>
      some { s with enforcer := ⟨s.enforcer.model, newObj.isEnabled⟩, phase := .idle }
    | _ => none
  -- requests are served once the enforcer is built
  | .enforce _ _ _ _ =>
    match s.phase with
    | .start => none
    | .built => none
    | _ => some s

end RefreshState

/-! ### Decisions -/

/-- The two enforcers decide every request alike. -/
def SameDecisions (e e' : CasbinEnforcer) : Prop :=
  ∀ sub res act obj, e.enforce sub res act obj = e'.enforce sub res act obj

/-- What `NewEnforcer` builds from a content. -/
def ValidConfig.enforcer (c : ValidConfig) : CasbinEnforcer :=
  ⟨c.loaded.loadAdminPolicy .listed, c.isEnabled⟩

/-- The decision of a request is that of one complete configuration of the sequence. -/
def RefreshState.Decided (s : RefreshState) : RefreshStep → Prop
  | .enforce sub res act obj =>
    ∃ c ∈ s.history, s.enforcer.enforce sub res act obj = c.enforcer.enforce sub res act obj
  | _ => True

/-- The watch runs, and every change has been delivered and handled. -/
structure RefreshState.Settled (s : RefreshState) : Prop where
  watching : s.seen.isSome = true
  idle : s.phase = .idle
  delivered : s.pending = []

section Rules

/-- The rules alone decide, not their order. -/
theorem matchRules_congr {m m' : CasbinModel} (hlinks : m.links = m'.links)
    {rules rules' : List PolicyRule} (h : ∀ rule, rule ∈ rules ↔ rule ∈ rules')
    (sub res act obj : GoString) :
    m.matchRules sub res act obj rules = m'.matchRules sub res act obj rules' := by
  have hmatcher : ∀ rule, m.matcher sub res act obj rule = m'.matcher sub res act obj rule := by
    intro rule
    simp only [CasbinModel.matcher, hlinks]
  have hok : (∃ b, m.matchRules sub res act obj rules = .ok b) ↔
      ∃ b, m'.matchRules sub res act obj rules' = .ok b := by
    simp only [CasbinModel.matchRules_eq_ok, hmatcher, h]
  have htrue : m.matchRules sub res act obj rules = .ok true ↔
      m'.matchRules sub res act obj rules' = .ok true := by
    rw [matchRules_eq_true, matchRules_eq_true, hok]
    simp only [hmatcher, h]
  cases hl : m.matchRules sub res act obj rules with
  | error e =>
    cases hr : m'.matchRules sub res act obj rules' with
    | error e' => rfl
    | ok b => simp [hl, hr] at hok
  | ok b =>
    cases hr : m'.matchRules sub res act obj rules' with
    | error e' => simp [hl, hr] at hok
    | ok b' =>
      rw [hl, hr] at htrue
      cases b <;> cases b' <;> simp_all

private theorem count_join (a b c d : GoString) : (join 44 [a, b, c, d]).count 44 =
    a.count 44 + b.count 44 + c.count 44 + d.count 44 + 3 := by
  simp [join, List.intercalate, List.intersperse, List.count_append]
  omega

theorem PolicyRule.eq_of_key_eq {rule other : PolicyRule} (h : rule.key = other.key)
    (hsub : 44 ∉ other.sub) (hres : 44 ∉ other.res) (hact : 44 ∉ other.act)
    (hobj : 44 ∉ other.obj) : rule = other := by
  have hcount := congrArg (List.count 44) h
  simp only [PolicyRule.key, count_join, List.count_eq_zero.mpr hsub, List.count_eq_zero.mpr hres,
    List.count_eq_zero.mpr hact, List.count_eq_zero.mpr hobj] at hcount
  have hfree : ∀ term ∈ [rule.sub, rule.res, rule.act, rule.obj], (44 : UInt8) ∉ term := by
    intro term hterm
    apply List.count_eq_zero.mp
    simp only [List.mem_cons, List.not_mem_nil, or_false] at hterm
    rcases hterm with rfl | rfl | rfl | rfl <;> omega
  have hfree' : ∀ term ∈ [other.sub, other.res, other.act, other.obj], (44 : UInt8) ∉ term := by
    simp [hsub, hres, hact, hobj]
  have hsplit := congrArg (split 44) h
  simp only [PolicyRule.key] at hsplit
  rw [split_join 44 _ (by simp) hfree, split_join 44 _ (by simp) hfree'] at hsplit
  cases rule
  cases other
  simpa using hsplit

theorem adminRule_free : ∀ resource ∈ apiResources,
    44 ∉ (adminRule resource).sub ∧ 44 ∉ (adminRule resource).res ∧
      44 ∉ (adminRule resource).act ∧ 44 ∉ (adminRule resource).obj := by
  decide +kernel

theorem mem_addPolicy_admin (m : CasbinModel) {resource : GoString} (h : resource ∈ apiResources)
    (rule : PolicyRule) : rule ∈ (m.addPolicy (adminRule resource)).p ↔
      rule ∈ m.p ∨ rule = adminRule resource := by
  constructor
  · exact CasbinModel.mem_addPolicy
  · intro hrule
    unfold CasbinModel.addPolicy
    split
    · rename_i hkey
      obtain ⟨other, hother, heq⟩ := List.mem_map.mp hkey
      obtain ⟨hsub, hres, hact, hobj⟩ := adminRule_free resource h
      obtain rfl := PolicyRule.eq_of_key_eq heq hsub hres hact hobj
      exact hrule.elim id fun h => h ▸ hother
    · simpa using hrule

@[simp] theorem addAdmin_links (m : CasbinModel) (added : List GoString) :
    (m.addAdmin added).links = m.links := by
  induction added using List.reverseRecOn with
  | nil => rfl
  | append_singleton added resource ih =>
    rw [CasbinModel.addAdmin_concat, CasbinModel.addPolicy_links, ih]

theorem mem_addAdmin_iff (m : CasbinModel) {added : List GoString}
    (h : ∀ resource ∈ added, resource ∈ apiResources) (rule : PolicyRule) :
    rule ∈ (m.addAdmin added).p ↔ rule ∈ m.p ∨ ∃ resource ∈ added, rule = adminRule resource := by
  induction added using List.reverseRecOn with
  | nil => simp [CasbinModel.addAdmin]
  | append_singleton added resource ih =>
    have hadded := ih fun r hr => h r (List.mem_append_left _ hr)
    rw [CasbinModel.addAdmin_concat, mem_addPolicy_admin _ (h resource (by simp)), hadded]
    simp only [List.mem_append, List.mem_singleton]
    grind

theorem mem_loadAdminPolicy_iff (m : CasbinModel) (order : ResourceOrder) (rule : PolicyRule) :
    rule ∈ (m.loadAdminPolicy order).p ↔
      rule ∈ m.p ∨ ∃ resource ∈ apiResources, rule = adminRule resource := by
  have hiff := mem_addAdmin_iff m (fun r hr => order.2.mem_iff.mp hr) rule
  simp only [order.2.mem_iff] at hiff
  exact hiff

/-- In whatever order the built-in rules are added, the decisions are the same. -/
theorem sameDecisions_of_perm (c : ValidConfig) (order : ResourceOrder) :
    SameDecisions ⟨c.loaded.loadAdminPolicy order, c.isEnabled⟩ c.enforcer := by
  intro sub res act obj
  have hlinks : (c.loaded.loadAdminPolicy order).links =
      (c.loaded.loadAdminPolicy .listed).links :=
    (addAdmin_links c.loaded order.1).trans (addAdmin_links c.loaded apiResources).symm
  have hrules : ∀ rule, rule ∈ (c.loaded.loadAdminPolicy order).rules ↔
      rule ∈ (c.loaded.loadAdminPolicy .listed).rules := by
    intro rule
    rw [CasbinModel.loadAdminPolicy_rules, CasbinModel.loadAdminPolicy_rules,
      mem_loadAdminPolicy_iff, mem_loadAdminPolicy_iff]
  have hmatch := matchRules_congr hlinks hrules sub res act obj
  have henforce : ∀ o, (CasbinEnforcer.mk (c.loaded.loadAdminPolicy o) c.isEnabled).enforce
      sub res act obj = if c.isEnabled = false then .ok true else
        (c.loaded.loadAdminPolicy o).matchRules sub res act obj
          (c.loaded.loadAdminPolicy o).rules := fun _ => rfl
  rw [ValidConfig.enforcer, henforce, henforce, hmatch]

end Rules

namespace RefreshState

/-- The requests and the reads of the run come where they do no harm: no request while
a policy is loaded but not complete, no read of a switch other than the one that
belongs to the policy read before, and no change missed before the watch. -/
def Timely (s : RefreshState) : RefreshStep → Prop
  | .enforce _ _ _ _ => ∀ newObj, s.phase ≠ .validating newObj ∧
      ∀ remaining, s.phase ≠ .adding newObj remaining
  | .loadPolicy => ∀ newObj, s.phase = .loading newObj → s.store.isEnabled = newObj.isEnabled
  | .enableEnforce => s.store.isEnabled = s.base.isEnabled
  | .watch => s.store = s.base
  | _ => True

/-- The enforcer is the complete one of the content it was last loaded from. -/
def Complete (s : RefreshState) : Prop :=
  ∃ order, s.enforcer = ⟨s.base.loaded.loadAdminPolicy order, s.base.isEnabled⟩

/-- How far the enforcer is from complete in each phase. -/
def Progress (s : RefreshState) : Prop :=
  match s.phase with
  | .start => True
  | .built => ∃ order, s.enforcer.model = s.base.loaded.loadAdminPolicy order
  | .idle => s.Complete
  | .loading _ => s.Complete
  | .validating newObj =>
    s.enforcer.model = s.base.loaded ∧ s.base.isEnabled = newObj.isEnabled
  | .adding newObj remaining =>
    (∃ added, (added ++ remaining).Perm apiResources ∧
      s.enforcer.model = s.base.loaded.addAdmin added) ∧ s.base.isEnabled = newObj.isEnabled

structure Inv (s : RefreshState) : Prop where
  base_mem : s.base ∈ s.history
  store_mem : s.store ∈ s.history
  progress : s.Progress
  /-- Without a change to come or to load, the policy is that of the ConfigMap. -/
  current : s.seen.isSome = true → s.pending = [] → (∀ newObj, s.phase ≠ .loading newObj) →
    s.base = s.store

theorem inv_start (c : ValidConfig) : Inv (start c) :=
  ⟨List.mem_singleton_self c, List.mem_singleton_self c, trivial, fun h => nomatch h⟩

theorem Progress.complete {s : RefreshState} (h : s.Progress)
    (hphase : s.phase = .idle ∨ ∃ newObj, s.phase = .loading newObj) : s.Complete := by
  rcases hphase with hphase | ⟨newObj, hphase⟩
  · simpa only [Progress, hphase] using h
  · simpa only [Progress, hphase] using h

theorem Progress.adding {s : RefreshState} (h : s.Progress) {newObj : ValidConfig}
    {remaining : List GoString} (hphase : s.phase = .adding newObj remaining) :
    (∃ added, (added ++ remaining).Perm apiResources ∧
      s.enforcer.model = s.base.loaded.addAdmin added) ∧ s.base.isEnabled = newObj.isEnabled := by
  simpa only [Progress, hphase] using h

theorem addAdmin_next {m loaded : CasbinModel} {remaining : List GoString} {resource : GoString}
    (h : ∃ added, (added ++ remaining).Perm apiResources ∧ m = loaded.addAdmin added)
    (hresource : resource ∈ remaining) :
    ∃ added, (added ++ remaining.erase resource).Perm apiResources ∧
      m.addPolicy (adminRule resource) = loaded.addAdmin added := by
  obtain ⟨added, hperm, rfl⟩ := h
  refine ⟨added ++ [resource], ?_, (CasbinModel.addAdmin_concat ..).symm⟩
  rw [List.append_assoc, List.singleton_append]
  exact ((List.perm_cons_erase hresource).symm.append_left added).trans hperm

theorem Inv.step {s t : RefreshState} {a : RefreshStep} (h : Inv s) (htimely : s.Timely a)
    (hstep : s.step a = some t) : Inv t := by
  obtain ⟨hbase, hstore, hprogress, hcurrent⟩ := h
  cases a with
  | change c =>
    obtain rfl := Option.some.inj hstep
    refine ⟨List.mem_append_left _ hbase, by simp, hprogress, ?_⟩
    intro hseen hpending
    simp only [hseen, if_true] at hpending
    simp at hpending
  | newEnforcer order =>
    simp only [RefreshState.step] at hstep
    split at hstep
    · rename_i m hphase hload
      split at hstep
      · cases hstep
      · obtain rfl := Option.some.inj hstep
        rw [ValidConfig.loadPolicy_eq] at hload
        obtain rfl := Except.ok.inj hload
        exact ⟨hstore, hstore, ⟨order, rfl⟩, fun _ _ _ => rfl⟩
    · cases hstep
  | enableEnforce =>
    simp only [RefreshState.step] at hstep
    split at hstep
    · rename_i hphase
      obtain rfl := Option.some.inj hstep
      have hmodel : ∃ order, s.enforcer.model = s.base.loaded.loadAdminPolicy order := by
        simpa only [Progress, hphase] using hprogress
      obtain ⟨order, hmodel⟩ := hmodel
      have hflag : s.store.isEnabled = s.base.isEnabled := htimely
      refine ⟨hbase, hstore, ⟨order, ?_⟩, fun hseen hpending _ => ?_⟩
      · rw [hmodel, hflag]
      · exact hcurrent hseen hpending (by simp [hphase])
    · cases hstep
  | watch =>
    simp only [RefreshState.step] at hstep
    split at hstep
    · obtain rfl := Option.some.inj hstep
      exact ⟨hbase, hstore, hprogress, fun _ _ _ => Eq.symm htimely⟩
    · cases hstep
  | deliver =>
    simp only [RefreshState.step] at hstep
    split at hstep
    · rename_i newObj pending hphase hpending
      obtain rfl := Option.some.inj hstep
      exact ⟨hbase, hstore, hprogress.complete (.inl hphase), fun _ _ h => absurd rfl (h newObj)⟩
    · cases hstep
  | resync =>
    simp only [RefreshState.step] at hstep
    split at hstep
    · rename_i obj hphase _
      obtain rfl := Option.some.inj hstep
      exact ⟨hbase, hstore, hprogress.complete (.inl hphase), fun _ _ h => absurd rfl (h obj)⟩
    · cases hstep
  | loadPolicy =>
    simp only [RefreshState.step] at hstep
    split at hstep
    · rename_i newObj m hphase hload
      obtain rfl := Option.some.inj hstep
      rw [ValidConfig.loadPolicy_eq] at hload
      obtain rfl := Except.ok.inj hload
      exact ⟨hstore, hstore, ⟨rfl, htimely newObj hphase⟩, fun _ _ _ => rfl⟩
    · cases hstep
  | validate =>
    simp only [RefreshState.step] at hstep
    split at hstep
    · rename_i newObj _ hphase _
      obtain rfl := Option.some.inj hstep
      have hloaded : s.enforcer.model = s.base.loaded ∧ s.base.isEnabled = newObj.isEnabled := by
        simpa only [Progress, hphase] using hprogress
      refine ⟨hbase, hstore, ⟨⟨[], .rfl, hloaded.1⟩, hloaded.2⟩, fun hseen hpending _ => ?_⟩
      exact hcurrent hseen hpending (by simp [hphase])
    · cases hstep
  | addPolicy resource =>
    simp only [RefreshState.step] at hstep
    split at hstep
    · rename_i newObj remaining hphase
      split at hstep
      · rename_i hresource
        obtain rfl := Option.some.inj hstep
        obtain ⟨hadded, hflag⟩ := hprogress.adding hphase
        refine ⟨hbase, hstore, ⟨addAdmin_next hadded hresource, hflag⟩, fun hseen hpending _ => ?_⟩
        exact hcurrent hseen hpending (by simp [hphase])
      · cases hstep
    · cases hstep
  | switch =>
    simp only [RefreshState.step] at hstep
    split at hstep
    · rename_i newObj hphase
      obtain rfl := Option.some.inj hstep
      obtain ⟨⟨added, hperm, hmodel⟩, hflag⟩ := hprogress.adding hphase
      rw [List.append_nil] at hperm
      refine ⟨hbase, hstore, ⟨⟨added, hperm⟩, ?_⟩, fun hseen hpending _ => ?_⟩
      · rw [hmodel, ← hflag]
        rfl
      · exact hcurrent hseen hpending (by simp [hphase])
    · cases hstep
  | enforce sub res act obj =>
    simp only [RefreshState.step] at hstep
    split at hstep
    · cases hstep
    · cases hstep
    · obtain rfl := Option.some.inj hstep
      exact ⟨hbase, hstore, hprogress, hcurrent⟩

/-- A complete enforcer decides as the one `NewEnforcer` builds from its content. -/
theorem Complete.sameDecisions {s : RefreshState} (h : s.Complete) :
    SameDecisions s.enforcer s.base.enforcer := by
  obtain ⟨order, he⟩ := h
  rw [he]
  exact sameDecisions_of_perm s.base order

theorem Inv.decided {s t : RefreshState} {a : RefreshStep} (h : Inv s) (htimely : s.Timely a)
    (hstep : s.step a = some t) : s.Decided a := by
  cases a with
  | enforce sub res act obj =>
    have hcomplete : s.Complete := by
      have hprogress := h.progress
      have hrefuse : ∀ p, s.phase = p → p ≠ .start ∧ p ≠ .built := by
        intro p hp
        constructor <;> rintro rfl <;> simp [RefreshState.step, hp] at hstep
      cases hphase : s.phase with
      | start => exact absurd rfl (hrefuse _ hphase).1
      | built => exact absurd rfl (hrefuse _ hphase).2
      | idle => exact hprogress.complete (.inl hphase)
      | loading newObj => exact hprogress.complete (.inr ⟨newObj, hphase⟩)
      | validating newObj => exact absurd hphase (htimely newObj).1
      | adding newObj remaining => exact absurd hphase ((htimely newObj).2 remaining)
    exact ⟨s.base, h.base_mem, hcomplete.sameDecisions sub res act obj⟩
  | _ => trivial

theorem Inv.settled {s : RefreshState} (h : Inv s) (hsettled : s.Settled) :
    SameDecisions s.enforcer s.store.enforcer := by
  have hcomplete : s.Complete := h.progress.complete (.inl hsettled.idle)
  have hbase : s.base = s.store :=
    h.current hsettled.watching hsettled.delivered (by simp [hsettled.idle])
  rw [← hbase]
  exact hcomplete.sameDecisions

/-- Every request is decided by one complete configuration, and once all changes are
handled by the current one. -/
theorem refresh_consistent (c : ValidConfig) (steps : List RefreshStep) (s : RefreshState)
    (htimely : AlongRun step Timely (start c) steps) (hrun : run step (start c) steps = some s) :
    AlongRun step Decided (start c) steps ∧
      (s.Settled → SameDecisions s.enforcer s.store.enforcer) := by
  have htaken := htimely.and (AlongRun.of_run hrun)
  have hkeeps : ∀ s a t, Inv s → s.Timely a → step s a = some t → Inv t :=
    fun _ _ _ hs ht h => hs.step ht h
  constructor
  · exact htaken.imp Inv (fun s a t hs ht h => hkeeps s a t hs ht.1 h)
      (fun s a hs ⟨ht, _, h⟩ => hs.decided ht h) (inv_start c)
  · exact (run_invariant_along Inv hkeeps (inv_start c) htimely hrun).settled

/-! ### A policy that is changed -/

def adminConfig : ValidConfig where
  text := ascii "g, admin, role:admin"
  enabledData := some (ascii "true")
  loaded := ⟨[], [[ascii "admin", everestAdminRole]]⟩
  loads := by decide +kernel
  valid := by decide +kernel

def aliceConfig : ValidConfig where
  text := ascii "g, admin, role:admin\np, alice, database-clusters, *, */*"
  enabledData := some (ascii "true")
  loaded := ⟨[openRule], [[ascii "admin", everestAdminRole]]⟩
  loads := by decide +kernel
  valid := by decide +kernel

def readCluster (sub : GoString) : RefreshStep :=
  .enforce sub resourceDatabaseClusters actionRead (objectName [ascii "ns", ascii "db"])

def startSteps : List RefreshStep := [.newEnforcer .listed, .enableEnforce]

theorem run_addPolicies {s : RefreshState} {newObj : ValidConfig} {resources : List GoString}
    (hphase : s.phase = .adding newObj resources) :
    run step s (resources.map .addPolicy) = some { s with
      enforcer := ⟨s.enforcer.model.addAdmin resources, s.enforcer.enabled⟩
      phase := .adding newObj [] } := by
  induction resources generalizing s with
  | nil =>
    obtain ⟨_, _, _, _, _, _, _⟩ := s
    obtain rfl : _ = RefreshPhase.adding newObj [] := hphase
    rfl
  | cons resource rest ih =>
    have hadd : s.step (.addPolicy resource) = some { s with
        enforcer := ⟨s.enforcer.model.addPolicy (adminRule resource), s.enforcer.enabled⟩
        phase := .adding newObj rest } := by
      simp only [step, hphase, List.mem_cons_self, if_true, List.erase_cons_head]
    exact (run_cons_eq_some ..).mpr ⟨_, hadd, ih rfl⟩

def loadingSteps (newObj : ValidConfig) : List RefreshStep :=
  [.change newObj, .deliver, .loadPolicy, .validate]

def refreshSteps (newObj : ValidConfig) : List RefreshStep :=
  loadingSteps newObj ++ apiResources.map .addPolicy ++ [.switch]

/-- Where the policy of a change is loaded and accepted, without its built-in rules. -/
def accepted (s : RefreshState) (newObj : ValidConfig) : RefreshState :=
  { s with
    store := newObj
    history := s.history ++ [newObj]
    seen := some newObj
    pending := []
    enforcer := ⟨newObj.loaded, s.enforcer.enabled⟩
    phase := .adding newObj apiResources
    base := newObj }

/-- Where the refresh is complete. -/
def refreshed (s : RefreshState) (newObj : ValidConfig) : RefreshState :=
  { s.accepted newObj with
    enforcer := ⟨newObj.loaded.addAdmin apiResources, newObj.isEnabled⟩
    phase := .idle }

section Refreshed

variable {s : RefreshState} (newObj : ValidConfig) (hidle : s.phase = .idle)
  (hseen : s.seen.isSome = true) (hpending : s.pending = [])

include hidle hseen hpending

theorem run_loadingSteps : run step s (loadingSteps newObj) = some (s.accepted newObj) ∧
    AlongRun step Timely s (loadingSteps newObj) := by
  let changed : RefreshState :=
    { s with store := newObj, history := s.history ++ [newObj], pending := [newObj] }
  let loading : RefreshState :=
    { changed with phase := .loading newObj, seen := some newObj, pending := [] }
  let loaded : RefreshState :=
    { loading with
      enforcer := ⟨newObj.loaded, s.enforcer.enabled⟩
      phase := .validating newObj
      base := newObj }
  have hchanged : s.step (.change newObj) = some changed := by
    simp only [step, hseen, hpending, if_true, List.nil_append, changed]
  have hdelivered : changed.step .deliver = some loading := by
    simp only [step, changed, hidle, loading]
  have hloaded : loading.step .loadPolicy = some loaded := by
    have hload : newObj.configMap.loadPolicy = .ok newObj.loaded := newObj.loadPolicy_eq
    simp only [step, loading, changed, hload, loaded]
  have hvalidated : loaded.step .validate = some (s.accepted newObj) := by
    have hvalid : validatePolicy newObj.loaded = .ok () := newObj.valid
    simp only [step, loaded, hvalid, loading, changed, accepted]
  constructor
  · simp only [loadingSteps, run, hchanged, hdelivered, hloaded, hvalidated, Option.bind_some]
  · exact .cons trivial hchanged (.cons trivial hdelivered
      (.cons (fun _ h => by cases h; rfl) hloaded (.cons trivial hvalidated trivial)))

theorem run_refreshSteps : run step s (refreshSteps newObj) = some (s.refreshed newObj) ∧
    AlongRun step Timely s (refreshSteps newObj) := by
  obtain ⟨hloading, htimely⟩ := run_loadingSteps newObj hidle hseen hpending
  let added : RefreshState :=
    { s.accepted newObj with
      enforcer := ⟨newObj.loaded.addAdmin apiResources, s.enforcer.enabled⟩
      phase := .adding newObj [] }
  have hadded : run step (s.accepted newObj) (apiResources.map .addPolicy) = some added :=
    run_addPolicies rfl
  have hbefore : run step s (loadingSteps newObj ++ apiResources.map .addPolicy) = some added :=
    (run_append_eq_some ..).mpr ⟨_, hloading, hadded⟩
  have hswitched : added.step .switch = some (s.refreshed newObj) := by
    simp only [step, added, refreshed]
  have hrules : AlongRun step Timely (s.accepted newObj) (apiResources.map .addPolicy) := by
    apply AlongRun.imp (P := fun _ a => ∃ r, a = .addPolicy r) (fun _ => True)
      (fun _ _ _ _ _ _ => trivial) _ trivial
    · apply AlongRun.of_forall
      intro a ha
      obtain ⟨r, -, rfl⟩ := List.mem_map.mp ha
      exact ⟨r, rfl⟩
    · rintro _ _ - ⟨r, rfl⟩
      trivial
  have hlast : run step added [.switch] = some (s.refreshed newObj) := by
    simp only [run, hswitched, Option.bind_some]
  have hlast' : AlongRun step Timely added [.switch] := .cons trivial hswitched trivial
  rw [refreshSteps]
  exact ⟨(run_append_eq_some ..).mpr ⟨added, hbefore, hlast⟩,
    (htimely.concat hloading hrules).concat hbefore hlast'⟩

end Refreshed

def watchSteps : List RefreshStep := startSteps ++ [.watch]

/-- A change after the watch has begun, all steps of its refresh, and a read that only
the new policy allows. -/
theorem refresh_consistent_sample : ∃ s : RefreshState,
    run step (start adminConfig)
        (watchSteps ++ refreshSteps aliceConfig ++ [readCluster (ascii "alice")]) = some s ∧
      s.Settled ∧ s.history = [adminConfig, aliceConfig] ∧
      s.enforcer.enforce (ascii "alice") resourceDatabaseClusters actionRead
        (objectName [ascii "ns", ascii "db"]) = .ok true ∧
      AlongRun step Decided (start adminConfig)
        (watchSteps ++ refreshSteps aliceConfig ++ [readCluster (ascii "alice")]) ∧
      SameDecisions s.enforcer s.store.enforcer := by
  let built : RefreshState :=
    { start adminConfig with
      enforcer := ⟨adminConfig.loaded.loadAdminPolicy .listed, true⟩
      phase := .built }
  let watching : RefreshState := { built with phase := .idle, seen := some adminConfig }
  have hbuilt : (start adminConfig).step (.newEnforcer .listed) = some built := by
    have hload : (start adminConfig).store.configMap.loadPolicy = .ok adminConfig.loaded :=
      adminConfig.loadPolicy_eq
    simp only [step, hload]
    rfl
  have hready : built.step .enableEnforce = some { built with phase := .idle } := rfl
  have hwatching : RefreshState.step { built with phase := .idle } .watch = some watching := rfl
  have hstarted : run step (start adminConfig) watchSteps = some watching := by
    simp only [watchSteps, startSteps, List.cons_append, List.nil_append, run, hbuilt, hready,
      hwatching, Option.bind_some]
  obtain ⟨hrefreshed, htimely⟩ := run_refreshSteps (s := watching) aliceConfig rfl rfl rfl
  let served := watching.refreshed aliceConfig
  have hserved : served.step (readCluster (ascii "alice")) = some served := rfl
  have hchanged := (run_append_eq_some ..).mpr ⟨_, hstarted, hrefreshed⟩
  have hread : run step served [readCluster (ascii "alice")] = some served := by
    simp only [run, hserved, Option.bind_some]
  have hrun := (run_append_eq_some ..).mpr ⟨served, hchanged, hread⟩
  have hidle : served.Timely (readCluster (ascii "alice")) := by
    intro newObj
    constructor
    · intro h
      cases h
    · intro remaining h
      cases h
  have htimely' : AlongRun step Timely served [readCluster (ascii "alice")] :=
    .cons hidle hserved trivial
  have hbegun : AlongRun step Timely (start adminConfig) watchSteps :=
    .cons trivial hbuilt (.cons rfl hready (.cons rfl hwatching trivial))
  have hsettled : served.Settled := ⟨rfl, rfl, rfl⟩
  have hboth := refresh_consistent adminConfig _ served
    ((hbegun.concat hstarted htimely).concat hchanged htimely') hrun
  have hallowed : served.enforcer.enforce (ascii "alice") resourceDatabaseClusters actionRead
      (objectName [ascii "ns", ascii "db"]) = .ok true := by decide +kernel
  exact ⟨served, hrun, hsettled, rfl, hallowed, hboth.1, hboth.2 hsettled⟩

private def isIdle (s : RefreshState) : Bool :=
  match s.phase with
  | .idle => true
  | _ => false

private def decidesRead (e : CasbinEnforcer) (sub : GoString) : Except PatternError Bool :=
  e.enforce sub resourceDatabaseClusters actionRead (objectName [ascii "ns", ascii "db"])

/-- A request between the load and the built-in rules is denied though every content allows
it, and a change before the watch is not handled. -/
theorem refresh_inconsistent :
    (¬ ∀ (c : ValidConfig) (steps : List RefreshStep) (s : RefreshState),
      run step (start c) steps = some s → AlongRun step Decided (start c) steps) ∧
    ¬ ∀ (c : ValidConfig) (steps : List RefreshStep) (s : RefreshState),
      run step (start c) steps = some s → s.Settled → SameDecisions s.enforcer s.store.enforcer := by
  constructor
  · intro h
    let before := startSteps ++ [.watch, .change aliceConfig, .deliver, .loadPolicy]
    have hdenied : (run step (start adminConfig) before).any (fun s =>
        decide (decidesRead s.enforcer (ascii "admin") = .ok false) &&
          s.history.all (fun c => decide (decidesRead c.enforcer (ascii "admin") = .ok true)) &&
          (s.step (readCluster (ascii "admin"))).isSome) = true := by decide +kernel
    obtain ⟨s, hs, hfacts⟩ := (Option.any_eq_true ..).mp hdenied
    simp only [Bool.and_eq_true, decide_eq_true_eq, List.all_eq_true] at hfacts
    obtain ⟨⟨hdecision, hhistory⟩, hserved⟩ := hfacts
    obtain ⟨t, ht⟩ := Option.isSome_iff_exists.mp hserved
    have hrun : run step (start adminConfig) (before ++ [readCluster (ascii "admin")]) = some t := by
      rw [run_append_eq_some]
      exact ⟨s, hs, (run_cons_eq_some ..).mpr ⟨t, ht, rfl⟩⟩
    obtain ⟨c, hc, heq⟩ := ((h adminConfig _ t hrun).append hs).2.1
    have hallowed := hhistory c hc
    change decidesRead s.enforcer (ascii "admin") = decidesRead c.enforcer (ascii "admin") at heq
    rw [hdecision, hallowed] at heq
    cases heq
  · intro h
    have hmissed : (run step (start adminConfig) (startSteps ++ [.change aliceConfig, .watch])).any
        (fun s => s.seen.isSome && isIdle s &&
          s.pending.isEmpty && decide (decidesRead s.enforcer (ascii "alice") = .ok false) &&
          decide (decidesRead s.store.enforcer (ascii "alice") = .ok true)) = true := by
      decide +kernel
    obtain ⟨s, hs, hfacts⟩ := (Option.any_eq_true ..).mp hmissed
    simp only [Bool.and_eq_true, decide_eq_true_eq, List.isEmpty_iff] at hfacts
    obtain ⟨⟨⟨⟨hseen, hphase⟩, hpending⟩, hdenied⟩, hallowed⟩ := hfacts
    have hidle : s.phase = .idle := by
      unfold isIdle at hphase
      cases hp : s.phase <;> simp_all
    have heq := h adminConfig _ s hs ⟨hseen, hidle, hpending⟩ (ascii "alice")
      resourceDatabaseClusters actionRead (objectName [ascii "ns", ascii "db"])
    change decidesRead s.enforcer (ascii "alice") = decidesRead s.store.enforcer (ascii "alice") at heq
    rw [hdenied, hallowed] at heq
    cases heq

end RefreshState

end OpenEverest.Rbac
