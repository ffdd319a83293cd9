import OpenEverest.Framework.SortFunc
import OpenEverest.K8s.ApproveUpgrade

/-!
# The install plans of an upgrade

Each install plan is approved by a write that is retried while it fails. A write that ends in a
conflict has not failed, so that it is not retried, and nothing tells that it was not stored.
-/

namespace OpenEverest.K8s

open Framework GoString Api

section Plans

variable {V : Type} {h : K8sHandler V} {engines : List DatabaseEngine}

/-- The install plan of the next upgrade of an engine. -/
def NextInstallPlan (h : K8sHandler V) (engine : DatabaseEngine) (plan : GoString) : Prop :=
  h.getNextUpgradeVersion engine.status ≠ [] ∧
    ∃ pending ∈ engine.status.pendingOperatorUpgrades,
      pending.targetVersion = h.getNextUpgradeVersion engine.status ∧
        pending.installPlanRef = plan

theorem mem_installPlansToApprove (plan : GoString) :
    plan ∈ installPlansToApprove h engines ↔
      ∃ engine ∈ engines, NextInstallPlan h engine plan := by
  simp only [installPlansToApprove, mem_destutter_ne, List.mem_insertionSort, List.mem_flatMap,
    NextInstallPlan]
  apply exists_congr
  intro engine
  by_cases hnext : h.getNextUpgradeVersion engine.status = []
  · simp [hnext]
  · simp only [hnext, if_false, List.mem_map, List.mem_filter, decide_eq_true_iff, and_assoc,
      not_false_eq_true, true_and, ne_eq]

theorem nodup_installPlansToApprove : (installPlansToApprove h engines).Nodup :=
  nodup_destutter_ne (List.pairwise_insertionSort _ _)

end Plans

/-- An attempt that is not retried: the write is done, or ends in a conflict. -/
def ReadWrite.settles (c : ReadWrite) : Prop :=
  c.get = true ∧ (c.update = .done ∨ c.update = .conflict)

/-- One of the attempts is not retried. -/
def Settles (calls : Nat → ReadWrite) : Prop := ∃ k, k ≤ everestAPIMaxRetries ∧ (calls k).settles

/-- One of the attempts that are made stores the approval. -/
def StoresApproval (calls : Nat → ReadWrite) : Prop :=
  ∃ k, k ≤ everestAPIMaxRetries ∧ (∀ l, l < k → ¬ (calls l).settles) ∧ (calls k).stored = true

theorem approveInstallPlanOnce_isDone (plan : GoString) (c : ReadWrite) (s : UpgradeState) :
    (approveInstallPlanOnce plan c s).1 = .done ↔ c.settles := by
  unfold approveInstallPlanOnce ReadWrite.settles
  split <;> simp_all

theorem approveInstallPlanOnce_not_exhausted (plan : GoString) (c : ReadWrite)
    (s : UpgradeState) : (approveInstallPlanOnce plan c s).1 ≠ .exhausted := by
  unfold approveInstallPlanOnce
  split <;> simp

theorem approveInstallPlanOnce_approved (plan other : GoString) (c : ReadWrite)
    (s : UpgradeState) :
    (approveInstallPlanOnce plan c s).2.approved other = true ↔
      s.approved other = true ∨ (plan = other ∧ c.stored = true) := by
  unfold approveInstallPlanOnce
  by_cases hstored : c.stored = true
  · simp only [hstored, if_true, and_true]
    by_cases hplan : other = plan
    · subst hplan
      simp
    · have hplan' : plan ≠ other := fun h => hplan h.symm
      simp [Function.update_of_ne hplan, hplan']
  · simp [hstored]

theorem approveInstallPlan_isDone (calls : Nat → ReadWrite) (plan : GoString) (s : UpgradeState) :
    (approveInstallPlan calls plan s).1 = true ↔ Settles calls := by
  have h := retry_isDone_iff (fun k => approveInstallPlanOnce_isDone plan (calls k))
    (fun k => approveInstallPlanOnce_not_exhausted plan (calls k)) everestAPIMaxRetries 0 s
  simp only [Nat.zero_add] at h
  exact h

theorem approveInstallPlan_approved (calls : Nat → ReadWrite) (plan other : GoString)
    (s : UpgradeState) :
    (approveInstallPlan calls plan s).2.approved other = true ↔
      s.approved other = true ∨ (plan = other ∧ StoresApproval calls) := by
  have h := retry_adds (P := fun s => s.approved other = true)
    (fun k => approveInstallPlanOnce_isDone plan (calls k))
    (fun k => approveInstallPlanOnce_not_exhausted plan (calls k))
    (fun k => approveInstallPlanOnce_approved plan other (calls k)) everestAPIMaxRetries 0 s
  rw [approveInstallPlan, h]
  simp only [Nat.zero_add, StoresApproval]
  constructor
  · rintro (hs | ⟨k, hk, hbefore, hplan, hstored⟩)
    · exact Or.inl hs
    · exact Or.inr ⟨hplan, k, hk, hbefore, hstored⟩
  · rintro (hs | ⟨hplan, k, hk, hbefore, hstored⟩)
    · exact Or.inl hs
    · exact Or.inr ⟨k, hk, hbefore, hplan, hstored⟩

section Start

variable {V : Type} {h : K8sHandler V} {engines : List DatabaseEngine}
  {calls : Nat → Nat → ReadWrite} {s : UpgradeState}

/-- No error is returned exactly when the attempts at each plan come to an end. -/
theorem startOperatorUpgrade_isDone :
    (startOperatorUpgrade h (some engines) calls s).1 = .done ↔
      ∀ j, j < (installPlansToApprove h engines).length → Settles (calls j) := by
  have hwalk := walk_isDone_iff (fun j plan => approveInstallPlan_isDone (calls j) plan) 0
    (installPlansToApprove h engines) s
  simp only [Nat.zero_add] at hwalk
  rw [← hwalk]
  simp only [startOperatorUpgrade]
  split <;> simp_all

theorem startOperatorUpgrade_approved (plan : GoString) :
    (startOperatorUpgrade h (some engines) calls s).2.approved plan = true ↔
      s.approved plan = true ∨ ∃ j, (installPlansToApprove h engines)[j]? = some plan ∧
        (∀ l, l < j → Settles (calls l)) ∧ StoresApproval (calls j) := by
  have hwalk := walk_adds (P := fun s => s.approved plan = true)
    (fun j other => approveInstallPlan_isDone (calls j) other)
    (fun j other => approveInstallPlan_approved (calls j) other plan) 0
    (installPlansToApprove h engines) s
  simp only [Nat.zero_add] at hwalk
  simp only [startOperatorUpgrade]
  rw [hwalk]
  constructor
  · rintro (hs | ⟨j, other, hj, hbefore, rfl, hstores⟩)
    · exact Or.inl hs
    · exact Or.inr ⟨j, hj, hbefore, hstores⟩
  · rintro (hs | ⟨j, hj, hbefore, hstores⟩)
    · exact Or.inl hs
    · exact Or.inr ⟨j, plan, hj, hbefore, rfl, hstores⟩

/-- Without an error, the install plan of the next upgrade of each engine is approved. -/
def ApprovesPlans (h : K8sHandler V) (engines : List DatabaseEngine)
    (calls : Nat → Nat → ReadWrite) (s : UpgradeState) : Prop :=
  (startOperatorUpgrade h (some engines) calls s).1 = .done →
    ∀ engine ∈ engines, ∀ plan, NextInstallPlan h engine plan →
      (startOperatorUpgrade h (some engines) calls s).2.approved plan = true

/-- An approval is lost exactly where the attempts come to an end for every plan, and for one
that is not approved yet they end in a conflict before any is stored. -/
theorem approvesPlans_iff :
    ApprovesPlans h engines calls s ↔
      (∃ j, j < (installPlansToApprove h engines).length ∧ ¬ Settles (calls j)) ∨
        ∀ j plan, (installPlansToApprove h engines)[j]? = some plan →
          s.approved plan = true ∨ StoresApproval (calls j) := by
  constructor
  · intro happroves
    by_cases hsettles : ∀ j, j < (installPlansToApprove h engines).length → Settles (calls j)
    · refine Or.inr fun j plan hj => ?_
      obtain ⟨engine, hengine, hnext⟩ :=
        (mem_installPlansToApprove plan).mp (List.mem_of_getElem? hj)
      have happroved := happroves (startOperatorUpgrade_isDone.mpr hsettles) engine hengine plan hnext
      rcases (startOperatorUpgrade_approved plan).mp happroved with hs | ⟨k, hk, -, hstores⟩
      · exact Or.inl hs
      · have hlength := (List.getElem?_eq_some_iff.mp hj).1
        obtain rfl : j = k :=
          (List.getElem?_inj hlength nodup_installPlansToApprove).mp (hj.trans hk.symm)
        exact Or.inr hstores
    · refine Or.inl ?_
      by_contra hnone
      exact hsettles fun j hj => by_contra fun hnot => hnone ⟨j, hj, hnot⟩
  · rintro (⟨j, hj, hnot⟩ | hstores) hdone engine hengine plan hnext
    · exact absurd (startOperatorUpgrade_isDone.mp hdone j hj) hnot
    · have hmem := (mem_installPlansToApprove plan).mpr ⟨engine, hengine, hnext⟩
      obtain ⟨j, hj⟩ := List.mem_iff_getElem?.mp hmem
      refine (startOperatorUpgrade_approved plan).mpr ?_
      refine (hstores j plan hj).imp_right fun hstored => ⟨j, hj, ?_, hstored⟩
      intro l hl
      have hlength := (List.getElem?_eq_some_iff.mp hj).1
      exact startOperatorUpgrade_isDone.mp hdone l (hl.trans hlength)

end Start

def engineToUpgrade : DatabaseEngine :=
  ⟨ascii "ns", ascii "pxc", databaseEnginePXC, ⟨ascii "1", [⟨ascii "2", ascii "install"⟩]⟩⟩

/-- The only attempt ends in a conflict, and the install plan stays as it was. -/
theorem approvesPlans_broken :
    ¬ ApprovesPlans sampleHandler [engineToUpgrade] (fun _ _ => ⟨true, .conflict⟩)
      unlockedState := by
  intro happroves
  have hdone : (startOperatorUpgrade sampleHandler (some [engineToUpgrade])
      (fun _ _ => ⟨true, .conflict⟩) unlockedState).1 = .done := by decide +kernel
  have hnext : NextInstallPlan sampleHandler engineToUpgrade (ascii "install") :=
    ⟨by decide, ⟨ascii "2", ascii "install"⟩, List.mem_singleton_self _, by decide, rfl⟩
  have happroved := happroves hdone engineToUpgrade (List.mem_singleton_self _) _ hnext
  exact absurd happroved (by decide +kernel)

end OpenEverest.K8s
