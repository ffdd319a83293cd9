import OpenEverest.Framework.Retry
import OpenEverest.K8s.UpgradePlan
import Mathlib.Data.List.Destutter

/-!
# Approving an upgrade plan

The engines of the plan are locked one after the other, their clusters' tasks
are looked at, and the install plans are approved. Two exits release the locks;
a failure while locking releases none.
-/

namespace OpenEverest.K8s

open Framework GoString Api

/-- How an update ends. A lost one was stored and its answer did not arrive. -/
inductive UpdateOutcome where
  | done
  | conflict
  | failed
  | lost
  deriving DecidableEq

def UpdateOutcome.stored (o : UpdateOutcome) : Bool := decide (o = .done ∨ o = .lost)

/-- The outcomes of reading an object and of writing it back. -/
structure ReadWrite where
  get : Bool
  update : UpdateOutcome

def ReadWrite.stored (c : ReadWrite) : Bool := c.get && c.update.stored

/-- The outcomes of all calls one approval may make, by the attempt of the outer
loop, the position in the list it walks, and the attempt of the inner loop. -/
structure ApproveCalls where
  lock : Nat → Nat → Nat → ReadWrite
  unlock : Nat → Nat → Nat → ReadWrite
  list : Nat → Option (List DatabaseEngine)
  approve : Nat → Nat → Nat → ReadWrite

/-- The lock annotations of the engines of a namespace, and the approved install plans. -/
structure UpgradeState where
  locked : GoString → Bool
  approved : GoString → Bool

/-- `backoffMaxRetries` of the package `kubernetes`. -/
def backoffMaxRetries : Nat := 5

/-- The retries of `everestAPIConstantBackoff`. -/
def everestAPIMaxRetries : Nat := 10

def UpgradeState.setLock (s : UpgradeState) (name : GoString) (lock : Bool) : UpgradeState :=
  { s with locked := Function.update s.locked name lock }

/-- One attempt of `SetDatabaseEngineLock`. -/
def setLockOnce (name : GoString) (lock : Bool) (c : ReadWrite) (s : UpgradeState) :
    Attempt × UpgradeState :=
  (if c.get = true ∧ c.update = .done then .done else .failed,
    if c.stored then s.setLock name lock else s)

def setDatabaseEngineLock (calls : Nat → ReadWrite) (name : GoString) (lock : Bool)
    (s : UpgradeState) : Bool × UpgradeState :=
  retry (fun k => setLockOnce name lock (calls k)) backoffMaxRetries 0 s

/-- One attempt over the list, which ends at the first engine that fails. -/
def lockEngines (calls : Nat → Nat → ReadWrite) (upgrades : List Upgrade) (lock : Bool)
    (s : UpgradeState) : Attempt × UpgradeState :=
  let result := walk (fun j upgrade => setDatabaseEngineLock (calls j) upgrade.name lock) 0 upgrades s
  (if result.1 then .done else .failed, result.2)

def setLockDBEnginesForUpgrade (calls : Nat → Nat → Nat → ReadWrite) (up : UpgradePlan)
    (lock : Bool) (s : UpgradeState) : Bool × UpgradeState :=
  retry (fun i => lockEngines (calls i) up.upgradeList lock) everestAPIMaxRetries 0 s

section Upgrade

variable {V : Type} (h : K8sHandler V)

/-- The install plans of the engines' next versions, sorted and without duplicates. -/
def installPlansToApprove (engines : List DatabaseEngine) : List GoString :=
  let installPlans := engines.flatMap fun engine =>
    let nextVer := h.getNextUpgradeVersion engine.status
    if nextVer = [] then []
    else (engine.status.pendingOperatorUpgrades.filter (·.targetVersion = nextVer)).map
      (·.installPlanRef)
  (installPlans.insertionSort (· ≤ ·)).destutter (· ≠ ·)

/-- One attempt to approve. A conflict is no error: the plan is left as it is. -/
def approveInstallPlanOnce (plan : GoString) (c : ReadWrite) (s : UpgradeState) :
    Attempt × UpgradeState :=
  (if c.get = true ∧ (c.update = .done ∨ c.update = .conflict) then .done else .failed,
    if c.stored then { s with approved := Function.update s.approved plan true } else s)

def approveInstallPlan (calls : Nat → ReadWrite) (plan : GoString) (s : UpgradeState) :
    Bool × UpgradeState :=
  retry (fun k => approveInstallPlanOnce plan (calls k)) everestAPIMaxRetries 0 s

/-- One attempt of the upgrade. An install plan that could not be approved has used
up the retries, which the outer loop counts on the same value. -/
def startOperatorUpgrade (engines : Option (List DatabaseEngine)) (calls : Nat → Nat → ReadWrite)
    (s : UpgradeState) : Attempt × UpgradeState :=
  match engines with
  | none => (.failed, s)
  | some engines =>
    let result := walk (fun j plan => approveInstallPlan (calls j) plan) 0
      (installPlansToApprove h engines) s
    (if result.1 then .done else .exhausted, result.2)

def startOperatorUpgradeWithRetry (calls : ApproveCalls) (s : UpgradeState) : Bool × UpgradeState :=
  retry (fun i => startOperatorUpgrade h (calls.list i) (calls.approve i)) everestAPIMaxRetries 0 s

inductive ApproveError where
  | plan (e : K8sError)
  | lockEngines
  | notReady
  | releaseLock
  | upgrade
  deriving DecidableEq

def releaseLocks (calls : ApproveCalls) (up : UpgradePlan) (e : ApproveError) (s : UpgradeState) :
    Except ApproveError Unit × UpgradeState :=
  let (released, s) := setLockDBEnginesForUpgrade calls.unlock up false s
  (.error (if released then e else .releaseLock), s)

def UpgradePlan.isReady (up : UpgradePlan) : Bool :=
  (up.pendingActions.getD []).all fun task => task.pendingTask = .ready

def approveUpgradePlan (namespaceName : GoString) (calls : ApproveCalls) (s : UpgradeState) :
    Except ApproveError Unit × UpgradeState :=
  match getUpgradePlan h namespaceName with
  | .error e => (.error (.plan e), s)
  | .ok up =>
    match setLockDBEnginesForUpgrade calls.lock up true s with
    | (false, s) => (.error .lockEngines, s)
    | (true, s) =>
      if !up.isReady then releaseLocks calls up .notReady s
      else match startOperatorUpgradeWithRetry h calls s with
        | (false, s) => releaseLocks calls up .upgrade s
        | (true, s) => (.ok (), s)

end Upgrade

/-- One of the attempts of a `SetDatabaseEngineLock` call is done. -/
def Sets (calls : Nat → ReadWrite) : Prop :=
  ∃ k, k ≤ backoffMaxRetries ∧ (calls k).get = true ∧ (calls k).update = .done

def Stores (calls : Nat → ReadWrite) : Prop :=
  ∃ k, k ≤ backoffMaxRetries ∧ (∀ l, l < k → ¬ ((calls l).get = true ∧ (calls l).update = .done)) ∧
    (calls k).stored = true

/-- One of the attempts over a list of `n` engines reaches its end. -/
def SetsAll (calls : Nat → Nat → Nat → ReadWrite) (n : Nat) : Prop :=
  ∃ i, i ≤ everestAPIMaxRetries ∧ ∀ j, j < n → Sets (calls i j)

/-- The attempt reaches the engine, and an update of its lock is stored. -/
def StoresAt (calls : Nat → Nat → ReadWrite) (upgrades : List Upgrade) (engine : GoString) : Prop :=
  ∃ j upgrade, upgrades[j]? = some upgrade ∧ (∀ l, l < j → Sets (calls l)) ∧
    upgrade.name = engine ∧ Stores (calls j)

section Spec

variable {lock : Bool}

theorem setLockOnce_isDone (name : GoString) (c : ReadWrite) (s : UpgradeState) :
    (setLockOnce name lock c s).1 = .done ↔ c.get = true ∧ c.update = .done := by
  unfold setLockOnce
  split <;> simp_all

theorem setLockOnce_not_exhausted (name : GoString) (c : ReadWrite) (s : UpgradeState) :
    (setLockOnce name lock c s).1 ≠ .exhausted := by
  unfold setLockOnce
  split <;> simp

theorem setLockOnce_stored (name : GoString) {c : ReadWrite} (s : UpgradeState)
    (hstored : c.stored = true) : (setLockOnce name lock c s).2 = s.setLock name lock :=
  if_pos hstored

theorem setLockOnce_not_stored (name : GoString) {c : ReadWrite} (s : UpgradeState)
    (hstored : ¬ c.stored = true) : (setLockOnce name lock c s).2 = s := if_neg hstored

theorem stored_of_setLockOnce_done {name : GoString} {c : ReadWrite} {s : UpgradeState}
    (h : (setLockOnce name lock c s).1 = .done) : c.stored = true := by
  obtain ⟨hget, hupdate⟩ := (setLockOnce_isDone name c s).mp h
  simp [ReadWrite.stored, UpdateOutcome.stored, hget, hupdate]

theorem setLock_same (name : GoString) (s : UpgradeState) :
    (s.setLock name lock).locked name = lock := Function.update_self ..

theorem setLock_other {name engine : GoString} (s : UpgradeState) (h : engine ≠ name) :
    (s.setLock name lock).locked engine = s.locked engine := Function.update_of_ne h ..

theorem setLockOnce_locked (name engine : GoString) (c : ReadWrite) (s : UpgradeState) :
    (setLockOnce name true c s).2.locked engine = true ↔
      s.locked engine = true ∨ (name = engine ∧ c.stored = true) := by
  by_cases hstored : c.stored = true
  · rw [setLockOnce_stored name s hstored]
    by_cases hname : engine = name
    · subst hname
      simp [setLock_same, hstored]
    · have hname' : name ≠ engine := fun h => hname h.symm
      simp [setLock_other s hname, hname']
  · simp [setLockOnce_not_stored name s hstored, hstored]

theorem setDatabaseEngineLock_isDone (calls : Nat → ReadWrite) (name : GoString)
    (s : UpgradeState) : (setDatabaseEngineLock calls name lock s).1 = true ↔ Sets calls := by
  have h : (setDatabaseEngineLock calls name lock s).1 = true ↔ _ :=
    retry_isDone_iff (fun k => setLockOnce_isDone name (calls k))
      (fun k => setLockOnce_not_exhausted name (calls k)) backoffMaxRetries 0 s
  simp only [Nat.zero_add] at h
  exact h

theorem setDatabaseEngineLock_locked (calls : Nat → ReadWrite) (name engine : GoString)
    (s : UpgradeState) :
    (setDatabaseEngineLock calls name true s).2.locked engine = true ↔
      s.locked engine = true ∨ (name = engine ∧ Stores calls) := by
  have h := retry_adds (P := fun s => s.locked engine = true)
    (fun k => setLockOnce_isDone name (calls k)) (fun k => setLockOnce_not_exhausted name (calls k))
    (fun k => setLockOnce_locked name engine (calls k)) backoffMaxRetries 0 s
  rw [setDatabaseEngineLock, h]
  simp only [Nat.zero_add, Stores]
  constructor
  · rintro (hs | ⟨k, hk, hbefore, hname, hstored⟩)
    · exact .inl hs
    · exact .inr ⟨hname, k, hk, hbefore, hstored⟩
  · rintro (hs | ⟨hname, k, hk, hbefore, hstored⟩)
    · exact .inl hs
    · exact .inr ⟨k, hk, hbefore, hname, hstored⟩

theorem lockEngines_isDone (calls : Nat → Nat → ReadWrite) (upgrades : List Upgrade)
    (s : UpgradeState) :
    (lockEngines calls upgrades lock s).1 = .done ↔ ∀ j, j < upgrades.length → Sets (calls j) := by
  have h : (walk (fun j upgrade => setDatabaseEngineLock (calls j) upgrade.name lock) 0 upgrades
      s).1 = true ↔ _ :=
    walk_isDone_iff (fun j upgrade => setDatabaseEngineLock_isDone (calls j) upgrade.name) 0
      upgrades s
  simp only [Nat.zero_add] at h
  rw [← h]
  dsimp only [lockEngines]
  split <;> simp_all

theorem lockEngines_not_exhausted (calls : Nat → Nat → ReadWrite) (upgrades : List Upgrade)
    (s : UpgradeState) : (lockEngines calls upgrades lock s).1 ≠ .exhausted := by
  dsimp only [lockEngines]
  split <;> simp

theorem lockEngines_locked (calls : Nat → Nat → ReadWrite) (upgrades : List Upgrade)
    (engine : GoString) (s : UpgradeState) :
    (lockEngines calls upgrades true s).2.locked engine = true ↔
      s.locked engine = true ∨ StoresAt calls upgrades engine := by
  have h := walk_adds (P := fun s => s.locked engine = true)
    (fun j upgrade => setDatabaseEngineLock_isDone (calls j) upgrade.name)
    (fun j upgrade => setDatabaseEngineLock_locked (calls j) upgrade.name engine) 0 upgrades s
  simp only [Nat.zero_add] at h
  exact h

variable (calls : Nat → Nat → Nat → ReadWrite) (up : UpgradePlan)

theorem setLock_isDone (s : UpgradeState) :
    (setLockDBEnginesForUpgrade calls up lock s).1 = true ↔
      SetsAll calls up.upgradeList.length := by
  have h : (setLockDBEnginesForUpgrade calls up lock s).1 = true ↔ _ :=
    retry_isDone_iff (fun i => lockEngines_isDone (calls i) up.upgradeList)
      (fun i => lockEngines_not_exhausted (calls i) up.upgradeList) everestAPIMaxRetries 0 s
  simp only [Nat.zero_add] at h
  exact h

theorem setLock_locked (s : UpgradeState) (engine : GoString) :
    (setLockDBEnginesForUpgrade calls up true s).2.locked engine = true ↔
      s.locked engine = true ∨ ∃ i, i ≤ everestAPIMaxRetries ∧
        (∀ l, l < i → ¬ ∀ j, j < up.upgradeList.length → Sets (calls l j)) ∧
        StoresAt (calls i) up.upgradeList engine := by
  have h := retry_adds (P := fun s => s.locked engine = true)
    (fun i => lockEngines_isDone (calls i) up.upgradeList)
    (fun i => lockEngines_not_exhausted (calls i) up.upgradeList)
    (fun i => lockEngines_locked (calls i) up.upgradeList engine) everestAPIMaxRetries 0 s
  simp only [Nat.zero_add] at h
  exact h

theorem setLock_locked_of_failed (s : UpgradeState) (engine : GoString)
    (hfailed : ¬ SetsAll calls up.upgradeList.length) :
    (setLockDBEnginesForUpgrade calls up true s).2.locked engine = true ↔
      s.locked engine = true ∨
        ∃ i, i ≤ everestAPIMaxRetries ∧ StoresAt (calls i) up.upgradeList engine := by
  have hnone (i : Nat) (hi : i ≤ everestAPIMaxRetries) :
      ¬ ∀ j, j < up.upgradeList.length → Sets (calls i j) := fun hall => hfailed ⟨i, hi, hall⟩
  rw [setLock_locked]
  constructor
  · rintro (hs | ⟨i, hi, -, hstores⟩)
    · exact .inl hs
    · exact .inr ⟨i, hi, hstores⟩
  · rintro (hs | ⟨i, hi, hstores⟩)
    · exact .inl hs
    · exact .inr ⟨i, hi, fun l hl => hnone l (by omega), hstores⟩

theorem setLock_adds (s : UpgradeState) (engine : GoString)
    (hlocked : (setLockDBEnginesForUpgrade calls up true s).2.locked engine = true) :
    s.locked engine = true ∨ ∃ upgrade ∈ up.upgradeList, upgrade.name = engine := by
  rcases (setLock_locked calls up s engine).mp hlocked with hs | ⟨i, -, -, j, upgrade, hj, -, hname, -⟩
  · exact .inl hs
  · exact .inr ⟨upgrade, List.mem_of_getElem? hj, hname⟩

theorem setLockOnce_unlocks (name engine : GoString) (c : ReadWrite) (s : UpgradeState)
    (hs : s.locked engine = false) : (setLockOnce name false c s).2.locked engine = false := by
  by_cases hstored : c.stored = true
  · rw [setLockOnce_stored name s hstored]
    by_cases hname : engine = name
    · rw [hname, setLock_same]
    · rw [setLock_other s hname, hs]
  · rw [setLockOnce_not_stored name s hstored, hs]

theorem setDatabaseEngineLock_unlocks (calls : Nat → ReadWrite) (name engine : GoString)
    (s : UpgradeState) (hs : s.locked engine = false) :
    (setDatabaseEngineLock calls name false s).2.locked engine = false :=
  retry_inv _ (fun s => s.locked engine = false)
    (fun k => setLockOnce_unlocks name engine (calls k)) backoffMaxRetries 0 s hs

theorem setDatabaseEngineLock_unlocked (calls : Nat → ReadWrite) (name : GoString)
    (s : UpgradeState) (h : (setDatabaseEngineLock calls name false s).1 = true) :
    (setDatabaseEngineLock calls name false s).2.locked name = false := by
  obtain ⟨k, s', hdone, hlast⟩ := retry_last _ _ _ _ h
  rw [setDatabaseEngineLock, hlast, setLockOnce_stored name s' (stored_of_setLockOnce_done hdone),
    setLock_same]

theorem lockEngines_unlocks (calls : Nat → Nat → ReadWrite) (upgrades : List Upgrade)
    (engine : GoString) (s : UpgradeState) (hs : s.locked engine = false) :
    (lockEngines calls upgrades false s).2.locked engine = false :=
  walk_inv _ (fun s => s.locked engine = false)
    (fun j upgrade => setDatabaseEngineLock_unlocks (calls j) upgrade.name engine) 0 upgrades s hs

theorem setLock_unlocks (s : UpgradeState) (engine : GoString) (hs : s.locked engine = false) :
    (setLockDBEnginesForUpgrade calls up false s).2.locked engine = false :=
  retry_inv _ (fun s => s.locked engine = false)
    (fun i => lockEngines_unlocks (calls i) up.upgradeList engine) everestAPIMaxRetries 0 s hs

theorem setLock_unlocked (s : UpgradeState) (hset : SetsAll calls up.upgradeList.length)
    (upgrade : Upgrade) (hmem : upgrade ∈ up.upgradeList) :
    (setLockDBEnginesForUpgrade calls up false s).2.locked upgrade.name = false := by
  have hdone : (setLockDBEnginesForUpgrade calls up false s).1 = true :=
    (setLock_isDone calls up s).mpr hset
  obtain ⟨i, s', hattempt, hlast⟩ := retry_last _ _ _ _ hdone
  rw [setLockDBEnginesForUpgrade, hlast]
  have hwalk : (walk (fun j upgrade => setDatabaseEngineLock (calls i j) upgrade.name false) 0
      up.upgradeList s').1 = true := by
    dsimp only [lockEngines] at hattempt
    by_contra hfailed
    simp [hfailed] at hattempt
  exact walk_establishes (Q := fun upgrade s => s.locked upgrade.name = false) _
    (fun j upgrade s => setDatabaseEngineLock_unlocked (calls i j) upgrade.name s)
    (fun j upgrade other s => setDatabaseEngineLock_unlocks (calls i j) upgrade.name other.name s)
    0 up.upgradeList s' hwalk upgrade hmem

end Spec

section Locks

variable {V : Type} (h : K8sHandler V) (namespaceName : GoString) (calls : ApproveCalls)
  (s : UpgradeState)

/-- After an error every locked engine was locked before. -/
def LeavesNoLock : Prop :=
  ∀ e, (approveUpgradePlan h namespaceName calls s).1 = .error e →
    ∀ engine, (approveUpgradePlan h namespaceName calls s).2.locked engine = true →
      s.locked engine = true

/-- The calls that release the locks of the plan succeed. -/
def ReleasesSucceed : Prop :=
  ∀ up, getUpgradePlan h namespaceName = .ok up → SetsAll calls.unlock up.upgradeList.length

/-- Where no attempt locks all engines, those that one of them locks were locked before. -/
def FailsOnLockedOnly : Prop :=
  ∀ up, getUpgradePlan h namespaceName = .ok up → ¬ SetsAll calls.lock up.upgradeList.length →
    ∀ i, i ≤ everestAPIMaxRetries → ∀ engine, StoresAt (calls.lock i) up.upgradeList engine →
      s.locked engine = true

variable {h namespaceName calls s}

theorem approveInstallPlan_locked (plan : GoString) (c : Nat → ReadWrite) (s : UpgradeState) :
    (approveInstallPlan c plan s).2.locked = s.locked := by
  apply retry_inv _ (fun t => t.locked = s.locked) _ _ _ s rfl
  intro k t ht
  dsimp only [approveInstallPlanOnce]
  split <;> exact ht

theorem startOperatorUpgrade_locked (s : UpgradeState) :
    (startOperatorUpgradeWithRetry h calls s).2.locked = s.locked := by
  apply retry_inv _ (fun t => t.locked = s.locked) _ _ _ s rfl
  intro i t ht
  dsimp only [startOperatorUpgrade]
  split
  · exact ht
  · apply walk_inv _ (fun u => u.locked = s.locked) _ _ _ t ht
    intro j plan u hu
    rw [approveInstallPlan_locked, hu]

theorem releaseLocks_locked (up : UpgradePlan) (e : ApproveError) (t : UpgradeState)
    (hrelease : SetsAll calls.unlock up.upgradeList.length) (engine : GoString)
    (hadds : t.locked engine = true →
      s.locked engine = true ∨ ∃ upgrade ∈ up.upgradeList, upgrade.name = engine)
    (hlocked : (releaseLocks calls up e t).2.locked engine = true) : s.locked engine = true := by
  dsimp only [releaseLocks] at hlocked
  have ht : t.locked engine = true := by
    by_contra hfree
    have hstays := setLock_unlocks calls.unlock up t engine (by simpa using hfree)
    simp [hstays] at hlocked
  rcases hadds ht with hs | ⟨upgrade, hmem, rfl⟩
  · exact hs
  · have hfree := setLock_unlocked calls.unlock up t hrelease upgrade hmem
    simp [hfree] at hlocked

theorem approve_of_lock_failed {up : UpgradePlan} (hplan : getUpgradePlan h namespaceName = .ok up)
    (hfailed : ¬ SetsAll calls.lock up.upgradeList.length) :
    approveUpgradePlan h namespaceName calls s =
      (.error .lockEngines, (setLockDBEnginesForUpgrade calls.lock up true s).2) := by
  have hresult : (setLockDBEnginesForUpgrade calls.lock up true s).1 = false := by
    rw [← Bool.not_eq_true, setLock_isDone]
    exact hfailed
  simp only [approveUpgradePlan, hplan]
  split
  · rename_i t ht
    rw [ht]
  · rename_i t ht
    simp [ht] at hresult

theorem approve_releases {up : UpgradePlan} (hplan : getUpgradePlan h namespaceName = .ok up)
    (hlock : SetsAll calls.lock up.upgradeList.length)
    (hrelease : SetsAll calls.unlock up.upgradeList.length) (e : ApproveError)
    (he : (approveUpgradePlan h namespaceName calls s).1 = .error e) (engine : GoString)
    (hlocked : (approveUpgradePlan h namespaceName calls s).2.locked engine = true) :
    s.locked engine = true := by
  have hdone : (setLockDBEnginesForUpgrade calls.lock up true s).1 = true :=
    (setLock_isDone calls.lock up s).mpr hlock
  have hadds := setLock_adds calls.lock up s engine
  simp only [approveUpgradePlan, hplan] at he hlocked
  split at he
  · rename_i t ht
    simp [ht] at hdone
  · rename_i t ht
    rw [ht] at hadds hlocked
    by_cases hready : (!up.isReady) = true
    · simp only [hready, if_true] at hlocked
      exact releaseLocks_locked up .notReady t hrelease engine hadds hlocked
    · simp only [hready, Bool.false_eq_true, if_false] at he hlocked
      have hframe : (startOperatorUpgradeWithRetry h calls t).2.locked = t.locked :=
        startOperatorUpgrade_locked t
      split at he
      · rename_i u hu
        rw [hu] at hframe hlocked
        rw [← hframe] at hadds
        exact releaseLocks_locked up .upgrade u hrelease engine hadds hlocked
      · cases he

/-- Locks are left behind exactly where the locking itself fails on its way. -/
theorem approve_leaves_no_lock_iff (hrelease : ReleasesSucceed h namespaceName calls) :
    LeavesNoLock h namespaceName calls s ↔ FailsOnLockedOnly h namespaceName calls s := by
  constructor
  · intro hleaves up hplan hfailed i hi engine hstores
    have hrun := approve_of_lock_failed (s := s) hplan hfailed
    have hlocked := (setLock_locked_of_failed calls.lock up s engine hfailed).mpr
      (.inr ⟨i, hi, hstores⟩)
    rw [LeavesNoLock, hrun] at hleaves
    exact hleaves .lockEngines rfl engine hlocked
  · intro honly e he engine hlocked
    cases hplan : getUpgradePlan h namespaceName with
    | error k =>
      simp only [approveUpgradePlan, hplan] at hlocked
      exact hlocked
    | ok up =>
      by_cases hlock : SetsAll calls.lock up.upgradeList.length
      · exact approve_releases hplan hlock (hrelease up hplan) e he engine hlocked
      · rw [approve_of_lock_failed hplan hlock] at hlocked
        rcases (setLock_locked_of_failed calls.lock up s engine hlock).mp hlocked with
          hs | ⟨i, hi, hstores⟩
        · exact hs
        · exact honly up hplan hlock i hi engine hstores

end Locks

def twoEngines : K8sHandler Nat :=
  { sampleHandler with
    listDatabaseEngines := fun _ =>
      .ok [⟨ascii "ns", ascii "pxc", databaseEnginePXC, ⟨ascii "1", [⟨ascii "2", ascii "install"⟩]⟩⟩,
        ⟨ascii "ns", ascii "psmdb", databaseEnginePSMDB,
          ⟨ascii "1", [⟨ascii "2", ascii "install"⟩]⟩⟩] }

def secondEngineFails : ApproveCalls where
  lock := fun _ j _ => ⟨true, if j = 1 then .failed else .done⟩
  unlock := fun _ _ _ => ⟨true, .done⟩
  list := fun _ => none
  approve := fun _ _ _ => ⟨true, .done⟩

def unlockedState : UpgradeState := ⟨fun _ => false, fun _ => false⟩

theorem secondEngineFails_releases :
    ReleasesSucceed twoEngines (ascii "ns") secondEngineFails :=
  fun _ _ => ⟨0, by decide, fun _ _ => ⟨0, by decide, rfl, rfl⟩⟩

theorem approve_leaves_no_lock_iff_sample :
    ReleasesSucceed twoEngines (ascii "ns") secondEngineFails ∧
      (LeavesNoLock twoEngines (ascii "ns") secondEngineFails unlockedState ↔
        FailsOnLockedOnly twoEngines (ascii "ns") secondEngineFails unlockedState) :=
  ⟨secondEngineFails_releases, approve_leaves_no_lock_iff secondEngineFails_releases⟩

/-- The first engine stays locked when the second cannot be. -/
theorem approve_leaves_lock :
    ReleasesSucceed twoEngines (ascii "ns") secondEngineFails ∧
      ¬ LeavesNoLock twoEngines (ascii "ns") secondEngineFails unlockedState := by
  refine ⟨secondEngineFails_releases, fun hleaves => ?_⟩
  have hlocked := hleaves .lockEngines (by decide +kernel) (ascii "pxc") (by decide +kernel)
  cases hlocked

end OpenEverest.K8s
