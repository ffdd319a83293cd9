import OpenEverest.K8s.UpgradePlan
import OpenEverest.Rbac.Enforce

/-!
# Approving an upgrade plan

The RBAC layer shows a user no plan when one of its engines may not be read, and
checks an approval against the plan it would show. The layer below approves the
plan it computes itself.
-/

namespace OpenEverest.Rbac

open Framework GoString K8s

section Handler

variable {V : Type} (h : RbacHandler) (next : K8sHandler V) (namespaceName : GoString)

def enforceEngine (action name : GoString) : Except RbacError Unit :=
  h.enforce resourceDatabaseEngines action (objectName [namespaceName, name])

/-- The loop of `GetUpgradePlan` over the upgrades of `result`. -/
def showPlan (result : UpgradePlan) : List Upgrade → Except RbacError UpgradePlan
  | [] => .ok result
  | upg :: upgrades =>
    match enforceEngine h namespaceName actionRead upg.name with
    | .ok _ => showPlan result upgrades
    | .error e => if e.isInsufficient then .ok {} else .error (.wrap "enforce failed" e)

def getUpgradePlan : Except RbacError UpgradePlan := do
  h.enforce resourceDatabaseClusters actionRead (objectName [namespaceName, []])
  match handlerGetUpgradePlan next namespaceName with
  | .error _ => .error (.wrap "GetUpgradePlan failed" .next)
  | .ok result => showPlan h namespaceName result result.upgradeList

/-- `ApproveUpgradePlan` up to its last line, the call of the next handler's. -/
def approveUpgradePlan : Except RbacError Unit := do
  let plan ← getUpgradePlan h next namespaceName
  checkAll (fun upg => enforceEngine h namespaceName actionUpdate upg.name) plan.upgradeList

end Handler

section Approval

variable {V : Type} (h : RbacHandler) (next : K8sHandler V) (namespaceName : GoString)

/-- The first engine of the plan that cannot be read is one the user has no permission for. -/
def HidesPlan (upgrades : List Upgrade) : Prop :=
  ∃ before upg after e, upgrades = before ++ upg :: after ∧
    (∀ u ∈ before, enforceEngine h namespaceName actionRead u.name = .ok ()) ∧
    enforceEngine h namespaceName actionRead upg.name = .error e ∧ e.isInsufficient = true

def UpdatesGranted : Prop :=
  ∀ plan, K8s.getUpgradePlan next namespaceName = .ok plan → ∀ upg ∈ plan.upgradeList,
    enforceEngine h namespaceName actionUpdate upg.name = .ok ()

def ApprovesOnlyGranted : Prop :=
  approveUpgradePlan h next namespaceName = .ok () → UpdatesGranted h next namespaceName

/-- Where the plan would be hidden from the user, the updates are granted all the same. -/
def HiddenOnlyGranted : Prop :=
  h.enforce resourceDatabaseClusters actionRead (objectName [namespaceName, []]) = .ok () →
    ∀ plan, K8s.getUpgradePlan next namespaceName = .ok plan →
      HidesPlan h namespaceName plan.upgradeList → UpdatesGranted h next namespaceName

end Approval

section Decisions

variable {V : Type} {h : RbacHandler} {next : K8sHandler V} {namespaceName : GoString}

theorem HidesPlan.ne_nil {upgrades : List Upgrade} (hhides : HidesPlan h namespaceName upgrades) :
    upgrades ≠ [] := by
  obtain ⟨before, upg, after, e, hsplit, -⟩ := hhides
  simp [hsplit]

theorem showPlan_eq_ok (result shown : UpgradePlan) (upgrades : List Upgrade) :
    showPlan h namespaceName result upgrades = .ok shown ↔
      ((∀ u ∈ upgrades, enforceEngine h namespaceName actionRead u.name = .ok ()) ∧
          shown = result) ∨
        (HidesPlan h namespaceName upgrades ∧ shown = {}) := by
  induction upgrades with
  | nil =>
    have hshown : ¬ HidesPlan h namespaceName [] := fun hhides => hhides.ne_nil rfl
    simpa [showPlan, hshown] using eq_comm
  | cons upg upgrades ih =>
    have hcons : HidesPlan h namespaceName (upg :: upgrades) ↔
        (∃ e, enforceEngine h namespaceName actionRead upg.name = .error e ∧
          e.isInsufficient = true) ∨
        (enforceEngine h namespaceName actionRead upg.name = .ok () ∧
          HidesPlan h namespaceName upgrades) := by
      constructor
      · rintro ⟨before, u, after, e, hsplit, hbefore, hu, he⟩
        cases before with
        | nil =>
          obtain ⟨rfl, -⟩ := List.cons.inj hsplit
          exact .inl ⟨e, hu, he⟩
        | cons b before =>
          obtain ⟨rfl, rfl⟩ := List.cons.inj hsplit
          exact .inr ⟨hbefore upg (by simp), before, u, after, e, rfl,
            fun v hv => hbefore v (by simp [hv]), hu, he⟩
      · rintro (⟨e, hu, he⟩ | ⟨hok, before, u, after, e, rfl, hbefore, hu, he⟩)
        · exact ⟨[], upg, upgrades, e, rfl, by simp, hu, he⟩
        · refine ⟨upg :: before, u, after, e, rfl, ?_, hu, he⟩
          intro v hv
          rcases List.mem_cons.mp hv with rfl | hv
          · exact hok
          · exact hbefore v hv
    rw [hcons]
    simp only [showPlan, List.forall_mem_cons]
    cases hread : enforceEngine h namespaceName actionRead upg.name with
    | ok a => simpa using ih
    | error e =>
      cases he : e.isInsufficient with
      | true => simpa [he] using eq_comm
      | false => simp [he]

theorem approveUpgradePlan_eq_ok :
    approveUpgradePlan h next namespaceName = .ok () ↔
      h.enforce resourceDatabaseClusters actionRead (objectName [namespaceName, []]) = .ok () ∧
      ∃ shown, handlerGetUpgradePlan next namespaceName = .ok shown ∧
        (((∀ u ∈ shown.upgradeList, enforceEngine h namespaceName actionRead u.name = .ok ()) ∧
            ∀ u ∈ shown.upgradeList, enforceEngine h namespaceName actionUpdate u.name = .ok ()) ∨
          HidesPlan h namespaceName shown.upgradeList) := by
  unfold approveUpgradePlan getUpgradePlan
  rw [bind_eq_ok]
  simp only [check_bind_eq_ok, checkAll_eq_ok]
  constructor
  · rintro ⟨plan, ⟨hcluster, hplan⟩, hupdate⟩
    refine ⟨hcluster, ?_⟩
    cases hshown : handlerGetUpgradePlan next namespaceName with
    | error e => simp [hshown] at hplan
    | ok shown =>
      refine ⟨shown, rfl, ?_⟩
      simp only [hshown] at hplan
      rcases (showPlan_eq_ok ..).mp hplan with ⟨hread, rfl⟩ | ⟨hhides, -⟩
      · exact .inl ⟨hread, hupdate⟩
      · exact .inr hhides
  · rintro ⟨hcluster, shown, hshown, ⟨hread, hupdate⟩ | hhides⟩
    · refine ⟨shown, ⟨hcluster, ?_⟩, hupdate⟩
      simp only [hshown]
      exact (showPlan_eq_ok ..).mpr (.inl ⟨hread, rfl⟩)
    · refine ⟨{}, ⟨hcluster, ?_⟩, by simp [UpgradePlan.upgradeList]⟩
      simp only [hshown]
      exact (showPlan_eq_ok ..).mpr (.inr ⟨hhides, rfl⟩)

theorem approvesOnlyGranted_iff :
    ApprovesOnlyGranted h next namespaceName ↔ HiddenOnlyGranted h next namespaceName := by
  unfold ApprovesOnlyGranted HiddenOnlyGranted
  rw [approveUpgradePlan_eq_ok]
  constructor
  · intro happrove hcluster plan hplan hhides
    have hshown := handlerGetUpgradePlan_of_upgrades hplan hhides.ne_nil
    exact happrove ⟨hcluster, plan, hshown, .inr hhides⟩
  · rintro hhidden ⟨hcluster, shown, hshown, hdecided⟩
    obtain ⟨plan, hplan, hlist⟩ := handlerGetUpgradePlan_upgradeList hshown
    rw [hlist] at hdecided
    rcases hdecided with ⟨-, hupdate⟩ | hhides
    · intro plan' hplan'
      obtain rfl := Except.ok.inj (hplan.symm.trans hplan')
      exact hupdate
    · exact hhidden hcluster plan hplan hhides

end Decisions

section Policies

variable {V : Type} {next : K8sHandler V} {namespaceName : GoString} {p q : Policy} (user : User)

theorem hidesPlan_policy (upgrades : List Upgrade) :
    HidesPlan (policyHandler p user) namespaceName upgrades ↔
      ∃ u ∈ upgrades, ¬ p.Allows user resourceDatabaseEngines actionRead
        (objectName [namespaceName, u.name]) := by
  unfold HidesPlan enforceEngine
  constructor
  · rintro ⟨before, upg, after, e, rfl, -, hupg, -⟩
    exact ⟨upg, by simp, ((enforce_policy_eq_error ..).mp hupg).1⟩
  · rintro ⟨u, hu, hdenied⟩
    induction upgrades with
    | nil => simp at hu
    | cons upg upgrades ih =>
      by_cases hread : p.Allows user resourceDatabaseEngines actionRead
          (objectName [namespaceName, upg.name])
      · have hrest : u ∈ upgrades := by
          rcases List.mem_cons.mp hu with rfl | hu
          · exact absurd hread hdenied
          · exact hu
        obtain ⟨before, v, after, e, rfl, hbefore, hv⟩ := ih hrest
        refine ⟨upg :: before, v, after, e, rfl, ?_, hv⟩
        intro w hw
        rcases List.mem_cons.mp hw with rfl | hw
        · exact (enforce_policy_eq_ok ..).mpr hread
        · exact hbefore w hw
      · exact ⟨[], upg, upgrades, _, rfl, by simp,
          (enforce_policy_eq_error ..).mpr ⟨hread, rfl⟩, rfl⟩

theorem MoreReads.enforceEngine_update (h : MoreReads p q) (name : GoString) :
    enforceEngine (policyHandler q user) namespaceName actionUpdate name = .ok () ↔
      enforceEngine (policyHandler p user) namespaceName actionUpdate name = .ok () := by
  unfold enforceEngine
  rw [enforce_policy_eq_ok, enforce_policy_eq_ok]
  exact h.allows_iff user (by decide)

private theorem approve_of_moreReads (h : MoreReads p q)
    (hgranted : HiddenOnlyGranted (policyHandler p user) next namespaceName)
    (happrove : approveUpgradePlan (policyHandler p user) next namespaceName = .ok ()) :
    approveUpgradePlan (policyHandler q user) next namespaceName = .ok () := by
  rw [approveUpgradePlan_eq_ok] at happrove ⊢
  obtain ⟨hcluster, shown, hshown, hdecided⟩ := happrove
  have hcluster' := h.allows_read user ((enforce_policy_eq_ok ..).mp hcluster)
  refine ⟨(enforce_policy_eq_ok ..).mpr hcluster', shown, hshown, ?_⟩
  have hupdate : ∀ u ∈ shown.upgradeList,
      enforceEngine (policyHandler p user) namespaceName actionUpdate u.name = .ok () := by
    rcases hdecided with ⟨-, hupdate⟩ | hhides
    · exact hupdate
    · obtain ⟨plan, hplan, hlist⟩ := handlerGetUpgradePlan_upgradeList hshown
      rw [hlist] at hhides ⊢
      exact hgranted hcluster plan hplan hhides plan hplan
  by_cases hhides : HidesPlan (policyHandler q user) namespaceName shown.upgradeList
  · exact .inr hhides
  · refine .inl ⟨fun u hu => ?_, fun u hu => (h.enforceEngine_update user u.name).mpr (hupdate u hu)⟩
    by_contra hdenied
    refine hhides ((hidesPlan_policy user _).mpr ⟨u, hu, fun hallow => hdenied ?_⟩)
    exact (enforce_policy_eq_ok ..).mpr hallow

private theorem granted_of_readAll
    (hmore : approveUpgradePlan (policyHandler p user) next namespaceName = .ok () →
      approveUpgradePlan (policyHandler p.readAll user) next namespaceName = .ok ()) :
    HiddenOnlyGranted (policyHandler p user) next namespaceName := by
  intro hcluster plan hplan hhides
  have hshown := handlerGetUpgradePlan_of_upgrades hplan hhides.ne_nil
  have hall := hmore (approveUpgradePlan_eq_ok.mpr ⟨hcluster, plan, hshown, .inr hhides⟩)
  obtain ⟨-, shown, hshown', hdecided⟩ := approveUpgradePlan_eq_ok.mp hall
  obtain rfl := Except.ok.inj (hshown.symm.trans hshown')
  rcases hdecided with ⟨-, hupdate⟩ | hhidden
  · intro plan' hplan' u hu
    obtain rfl := Except.ok.inj (hplan.symm.trans hplan')
    exact ((MoreReads.readAll p).enforceEngine_update user u.name).mp (hupdate u hu)
  · obtain ⟨u, -, hdenied⟩ := (hidesPlan_policy user _).mp hhidden
    exact absurd (readAll_allows p user _ _) hdenied

end Policies

/-- Approvals are passed on only with all updates granted, and for a policy no
less is approved with more reads allowed, if and only if the updates are granted
wherever the plan would be hidden. -/
theorem approve_granted_iff {V : Type} (next : K8sHandler V) (namespaceName : GoString) :
    (∀ h, ApprovesOnlyGranted h next namespaceName ↔ HiddenOnlyGranted h next namespaceName) ∧
    ∀ (p : Policy) (user : User),
      (∀ q, MoreReads p q →
        approveUpgradePlan (policyHandler p user) next namespaceName = .ok () →
        approveUpgradePlan (policyHandler q user) next namespaceName = .ok ()) ↔
      HiddenOnlyGranted (policyHandler p user) next namespaceName := by
  refine ⟨fun h => approvesOnlyGranted_iff, fun p user => ⟨?_, ?_⟩⟩
  · exact fun hmore => granted_of_readAll user (hmore _ (.readAll p))
  · exact fun hgranted q hq => approve_of_moreReads user hq hgranted

/-- The one permission is to read the clusters of the namespace `ns`. -/
def readsClusters : Policy := fun sub resource action object =>
  decide (sub = ascii "alice" ∧ resource = resourceDatabaseClusters ∧ action = actionRead ∧
    object = ascii "ns/")

def alice : User := ⟨ascii "alice", []⟩

/-- A user who may not even read the engine has its upgrade approved, and is
refused as soon as the engine may be read. -/
theorem approve_ungranted :
    approveUpgradePlan (policyHandler readsClusters alice) sampleHandler (ascii "ns") = .ok () ∧
    K8s.getUpgradePlan sampleHandler (ascii "ns") =
      .ok ⟨some [⟨ascii "1", ascii "pxc", ascii "2"⟩], some []⟩ ∧
    enforceEngine (policyHandler readsClusters alice) (ascii "ns") actionUpdate (ascii "pxc") =
      .error .errInsufficientPermissions ∧
    approveUpgradePlan (policyHandler readsClusters.readAll alice) sampleHandler (ascii "ns") =
      .error .errInsufficientPermissions := by
  refine ⟨?_, ?_, ?_, ?_⟩
  all_goals decide +kernel

end OpenEverest.Rbac
