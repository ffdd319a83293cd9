import OpenEverest.Framework.Run
import OpenEverest.K8s.ApproveUpgrade
import Mathlib.Data.Fintype.Defs

/-!
# Interleaved approvals

Approvals of one namespace run among cluster requests and new pending upgrades.
An approval reads the engines, checks the clusters of one after the other, locks
what it has planned, and reads the engines again for the install plans. The
middleware looks at the locks when a request comes, not when it acts.
-/

namespace OpenEverest.K8s

open Framework GoString Api

/-! ### The middleware -/

structure HttpRequest where
  method : GoString
  path : GoString
  namespaceName : GoString

def approvalRequest : HttpRequest :=
  ⟨ascii "POST", ascii "/v1/namespaces/ns/database-engines/upgrade-plan/approval", ascii "ns"⟩

def HttpRequest.writesCluster (c : HttpRequest) : Bool :=
  decide (c.method ≠ ascii "GET" ∧ c.namespaceName ≠ []) &&
    contains c.path (ascii "database-clusters")

def targetResources : List GoString :=
  [ascii "database-clusters", ascii "database-engines", ascii "database-cluster-restores",
    ascii "database-cluster-backups"]

def shouldAllowRequestDuringEngineUpgrade
    (listDatabaseEngines : GoString → Except K8sError (List DatabaseEngine))
    (locked : GoString → Bool) (c : HttpRequest) : Except K8sError Bool :=
  if c.method = ascii "GET" then .ok true
  else if ¬ targetResources.any fun targetResource => contains c.path targetResource then .ok true
  else if c.namespaceName = [] then .ok true
  else do
    let engines ← listDatabaseEngines c.namespaceName
    .ok !(engines.any fun engine => locked engine.name)

/-! ### One approval -/

structure PlannedUpgrade where
  engine : DatabaseEngine
  targetVersion : GoString
  tasks : List UpgradeTask
  deriving DecidableEq

def PlannedUpgrade.upgrade (entry : PlannedUpgrade) : GoString × GoString :=
  (entry.engine.name, entry.targetVersion)

def PlannedUpgrade.isReady (entry : PlannedUpgrade) : Bool :=
  entry.tasks.all fun task => task.pendingTask = .ready

/-- Kept for the first lock an approval sets for an entry: whether its clusters were
ready then, and whether a request has changed one since. -/
structure LockRecord where
  entry : PlannedUpgrade
  ready : Bool
  changed : Bool
  deriving DecidableEq

inductive ApprovalPhase where
  | new
  | admitted
  | planning (engines : List DatabaseEngine)
  | locking (remaining : List PlannedUpgrade)
  | starting
  | approving (engines : List DatabaseEngine) (installPlans : List GoString)
  | unlocking (remaining : List PlannedUpgrade)
  | finished

/-- `read` are the engines the plan is made of. -/
structure Approval where
  phase : ApprovalPhase
  read : List DatabaseEngine
  planned : List PlannedUpgrade
  locks : List LockRecord

structure NamespaceState where
  engines : List DatabaseEngine
  clusters : List DatabaseCluster
  upgrade : UpgradeState

/-- How many attempts are made before an approval begins `again` or gives up is left open:
the retries of an approval are counted together with those of all other calls. -/
inductive ApprovalAction where
  | enter (c : HttpRequest)
  | list
  | preflight
  | lock (c : ReadWrite)
  | checkReady
  | startUpgrade
  | approveInstallPlan (c : ReadWrite)
  | unlock (c : ReadWrite)
  | again
  | giveUp
  | finish

def NamespaceState.allows (n : NamespaceState) (c : HttpRequest) : Bool :=
  decide (shouldAllowRequestDuringEngineUpgrade (fun _ => .ok n.engines) n.upgrade.locked c =
    .ok true)

namespace Approval

def goto (a : Approval) (phase : ApprovalPhase) : Approval := { a with phase }

def lockedEntries (a : Approval) : List PlannedUpgrade := a.locks.map (·.entry)

def isReady (a : Approval) : Bool := a.planned.all (·.isReady)

def upgrades (a : Approval) : List (GoString × GoString) := a.planned.map (·.upgrade)

def recordLock (a : Approval) (entry : PlannedUpgrade) (ready : Bool) : Approval :=
  if entry ∈ a.lockedEntries then a else { a with locks := a.locks ++ [⟨entry, ready, false⟩] }

def markChanged (a : Approval) : Approval :=
  { a with locks := a.locks.map fun lock => { lock with changed := true } }

def isFinished (a : Approval) : Bool :=
  match a.phase with
  | .finished => true
  | _ => false

def mayApprove (a : Approval) : Bool :=
  match a.phase with
  | .unlocking _ => false
  | .finished => false
  | _ => true

/-- The upgrade was planned with ready clusters, and its engine locked while they were;
no request has changed a cluster since. -/
def LockedReady (a : Approval) (upgrade : GoString × GoString) : Prop :=
  ∃ lock ∈ a.locks, lock.entry.upgrade = upgrade ∧ lock.entry ∈ a.planned ∧
    lock.entry.isReady = true ∧ lock.ready = true ∧ lock.changed = false

instance (a : Approval) (upgrade : GoString × GoString) : Decidable (a.LockedReady upgrade) :=
  inferInstanceAs (Decidable (∃ lock ∈ a.locks, _))

end Approval

section Next

variable {V : Type} (h : K8sHandler V)

def NamespaceState.handler (n : NamespaceState) : K8sHandler V :=
  { h with
    listDatabaseEngines := fun _ => .ok n.engines
    listDatabaseClusters := fun _ => .ok n.clusters }

def clustersReady (clusters : List DatabaseCluster) (entry : PlannedUpgrade) : Bool :=
  (clusters.filter fun db => db.spec.engine.type = entry.engine.type).all fun db =>
    match getUpgradePreflightCheckResultForDatabase h db entry.engine entry.targetVersion with
    | .ok task => task.pendingTask = .ready
    | .error _ => false

def nextUpgrades (engines : List DatabaseEngine) : List (GoString × GoString) :=
  (engines.filter fun engine => h.getNextUpgradeVersion engine.status ≠ []).map fun engine =>
    (engine.name, h.getNextUpgradeVersion engine.status)

/-- The upgrades an install plan is approved for: to the next versions it is selected by. -/
def upgradesOfInstallPlan (engines : List DatabaseEngine) (plan : GoString) :
    List (GoString × GoString) :=
  nextUpgrades h <| engines.filter fun engine =>
    engine.status.pendingOperatorUpgrades.any fun pending =>
      pending.targetVersion = h.getNextUpgradeVersion engine.status ∧ pending.installPlanRef = plan

namespace Approval

variable (n : NamespaceState) (a : Approval)

/-- The planned engines that are not locked yet keep their clusters ready. -/
def KeepsReady (clusters clusters' : List DatabaseCluster) : Prop :=
  ∀ entry ∈ a.planned, entry ∉ a.lockedEntries → clustersReady h clusters entry = true →
    clustersReady h clusters' entry = true

instance (clusters clusters' : List DatabaseCluster) : Decidable (a.KeepsReady h clusters clusters') :=
  inferInstanceAs (Decidable (∀ entry ∈ a.planned, _))

/-- `ApproveUpgradePlan`, cut where it reads or writes the objects of the namespace. -/
def next : ApprovalAction → Option (Approval × NamespaceState)
  | .enter c =>
    match a.phase with
    | .new => if n.allows c then some (a.goto .admitted, n) else none
    | _ => none
  | .list =>
    match a.phase with
    | .admitted => some ({ a with phase := .planning n.engines, read := n.engines }, n)
    | _ => none
  | .preflight =>
    match a.phase with
    | .planning [] => some (a.goto (.locking a.planned), n)
    | .planning (engine :: engines) =>
      let nextVersion := h.getNextUpgradeVersion engine.status
      if nextVersion = [] then some (a.goto (.planning engines), n)
      else
        match getOperatorUpgradePreflight (n.handler h) nextVersion engine with
        | .error _ => some (a.goto .finished, n)
        | .ok tasks =>
          some ({ a with
            phase := .planning engines
            planned := a.planned ++ [⟨engine, nextVersion, tasks⟩] }, n)
    | _ => none
  | .lock c =>
    match a.phase with
    | .locking (entry :: remaining) =>
      let (attempt, upgrade) := setLockOnce entry.engine.name true c n.upgrade
      let a := if c.stored then a.recordLock entry (clustersReady h n.clusters entry) else a
      some (a.goto (.locking (if attempt = .done then remaining else entry :: remaining)),
        { n with upgrade })
    | _ => none
  | .checkReady =>
    match a.phase with
    | .locking [] => some (a.goto (if a.isReady then .starting else .unlocking a.planned), n)
    | _ => none
  | .startUpgrade =>
    match a.phase with
    | .starting => some (a.goto (.approving n.engines (installPlansToApprove h n.engines)), n)
    | _ => none
  | .approveInstallPlan c =>
    match a.phase with
    | .approving engines (plan :: plans) =>
      let (attempt, upgrade) := approveInstallPlanOnce plan c n.upgrade
      some (a.goto (.approving engines (if attempt = .done then plans else plan :: plans)),
        { n with upgrade })
    | _ => none
  | .unlock c =>
    match a.phase with
    | .unlocking (entry :: remaining) =>
      let (attempt, upgrade) := setLockOnce entry.engine.name false c n.upgrade
      some (a.goto (.unlocking (if attempt = .done then remaining else entry :: remaining)),
        { n with upgrade })
    | _ => none
  -- the whole list is walked again after an engine that failed, and the engines are
  -- read again after an install plan that failed
  | .again =>
    match a.phase with
    | .locking (_ :: _) => some (a.goto (.locking a.planned), n)
    | .approving _ (_ :: _) => some (a.goto .starting, n)
    | .unlocking (_ :: _) => some (a.goto (.unlocking a.planned), n)
    | _ => none
  | .giveUp =>
    match a.phase with
    | .admitted => some (a.goto .finished, n)
    | .planning _ => some (a.goto .finished, n)
    -- without releasing the locks
    | .locking (_ :: _) => some (a.goto .finished, n)
    | .starting => some (a.goto (.unlocking a.planned), n)
    | .approving _ (_ :: _) => some (a.goto (.unlocking a.planned), n)
    | .unlocking (_ :: _) => some (a.goto .finished, n)
    | _ => none
  | .finish =>
    match a.phase with
    | .approving _ [] => some (a.goto .finished, n)
    | .unlocking [] => some (a.goto .finished, n)
    | _ => none

inductive Effect : ApprovalAction → Approval → NamespaceState → Prop where
  | enter {c : HttpRequest} (hphase : a.phase = .new) (hallows : n.allows c = true) :
      Effect (.enter c) (a.goto .admitted) n
  | list (hphase : a.phase = .admitted) :
      Effect .list { a with phase := .planning n.engines, read := n.engines } n
  | planned (hphase : a.phase = .planning []) : Effect .preflight (a.goto (.locking a.planned)) n
  | pass {engine : DatabaseEngine} {engines : List DatabaseEngine}
      (hphase : a.phase = .planning (engine :: engines))
      (hnext : h.getNextUpgradeVersion engine.status = []) :
      Effect .preflight (a.goto (.planning engines)) n
  | planFails {engine : DatabaseEngine} {engines : List DatabaseEngine}
      (hphase : a.phase = .planning (engine :: engines)) :
      Effect .preflight (a.goto .finished) n
  | plan {engine : DatabaseEngine} {engines : List DatabaseEngine} {tasks : List UpgradeTask}
      (hphase : a.phase = .planning (engine :: engines))
      (htasks : getOperatorUpgradePreflight (n.handler h)
        (h.getNextUpgradeVersion engine.status) engine = .ok tasks) :
      Effect .preflight
        { a with
          phase := .planning engines
          planned := a.planned ++ [⟨engine, h.getNextUpgradeVersion engine.status, tasks⟩] } n
  | lock {c : ReadWrite} {entry : PlannedUpgrade} {remaining left : List PlannedUpgrade}
      (hphase : a.phase = .locking (entry :: remaining)) (hstored : c.stored = true)
      (hleft : left = remaining ∨ left = entry :: remaining) :
      Effect (.lock c)
        ((a.recordLock entry (clustersReady h n.clusters entry)).goto (.locking left))
        { n with upgrade := n.upgrade.setLock entry.engine.name true }
  | lockFails {c : ReadWrite} {entry : PlannedUpgrade} {remaining : List PlannedUpgrade}
      (hphase : a.phase = .locking (entry :: remaining)) :
      Effect (.lock c) (a.goto (.locking (entry :: remaining))) n
  | ready (hphase : a.phase = .locking []) (hready : a.isReady = true) :
      Effect .checkReady (a.goto .starting) n
  | notReady (hphase : a.phase = .locking []) : Effect .checkReady (a.goto (.unlocking a.planned)) n
  | start (hphase : a.phase = .starting) :
      Effect .startUpgrade (a.goto (.approving n.engines (installPlansToApprove h n.engines))) n
  | approve {c : ReadWrite} {engines : List DatabaseEngine} {plan : GoString}
      {plans left : List GoString} {upgrade : UpgradeState}
      (hphase : a.phase = .approving engines (plan :: plans))
      (hleft : left = plans ∨ left = plan :: plans)
      (hlocked : upgrade.locked = n.upgrade.locked) :
      Effect (.approveInstallPlan c) (a.goto (.approving engines left)) { n with upgrade }
  | unlock {c : ReadWrite} {entry : PlannedUpgrade} {remaining left : List PlannedUpgrade}
      {upgrade : UpgradeState} (hphase : a.phase = .unlocking (entry :: remaining))
      (hleft : left = remaining ∨ left = entry :: remaining)
      (hlocked : ∀ name, name ≠ entry.engine.name → upgrade.locked name = n.upgrade.locked name) :
      Effect (.unlock c) (a.goto (.unlocking left)) { n with upgrade }
  | lockAgain {entry : PlannedUpgrade} {remaining : List PlannedUpgrade}
      (hphase : a.phase = .locking (entry :: remaining)) :
      Effect .again (a.goto (.locking a.planned)) n
  | startAgain {engines : List DatabaseEngine} {plan : GoString} {plans : List GoString}
      (hphase : a.phase = .approving engines (plan :: plans)) : Effect .again (a.goto .starting) n
  | unlockAgain {entry : PlannedUpgrade} {remaining : List PlannedUpgrade}
      (hphase : a.phase = .unlocking (entry :: remaining)) :
      Effect .again (a.goto (.unlocking a.planned)) n
  | giveUp (hphase : a.phase ≠ .finished) : Effect .giveUp (a.goto .finished) n
  | fail (hphase : a.phase = .starting ∨
      ∃ engines plan plans, a.phase = .approving engines (plan :: plans)) :
      Effect .giveUp (a.goto (.unlocking a.planned)) n
  | finish (hphase : a.phase ≠ .finished) : Effect .finish (a.goto .finished) n

variable {h n a}

theorem next_effect {action : ApprovalAction} {a' : Approval} {n' : NamespaceState}
    (hnext : a.next h n action = some (a', n')) : Effect h n a action a' n' := by
  cases action with
  | enter c =>
    simp only [next] at hnext
    split at hnext
    · rename_i hphase
      split at hnext
      · rename_i hallows
        cases hnext
        exact .enter hphase hallows
      · cases hnext
    · cases hnext
  | list =>
    simp only [next] at hnext
    split at hnext
    · rename_i hphase
      cases hnext
      exact .list hphase
    · cases hnext
  | preflight =>
    simp only [next] at hnext
    split at hnext
    · rename_i hphase
      cases hnext
      exact .planned hphase
    · rename_i engine engines hphase
      split at hnext
      · rename_i hnone
        cases hnext
        exact .pass hphase hnone
      · split at hnext
        · cases hnext
          exact .planFails hphase
        · rename_i tasks htasks
          cases hnext
          exact .plan hphase htasks
    · cases hnext
  | lock c =>
    simp only [next] at hnext
    split at hnext
    · rename_i entry remaining hphase
      cases hnext
      by_cases hstored : c.stored = true
      · rw [setLockOnce_stored _ _ hstored, if_pos hstored]
        exact .lock hphase hstored (ite_eq_or_eq ..)
      · have hfailed : (setLockOnce entry.engine.name true c n.upgrade).1 ≠ .done :=
          fun h => hstored (stored_of_setLockOnce_done h)
        rw [setLockOnce_not_stored _ _ hstored, if_neg hstored, if_neg hfailed]
        exact .lockFails hphase
    · cases hnext
  | checkReady =>
    simp only [next] at hnext
    split at hnext
    · rename_i hphase
      cases hnext
      split
      · rename_i hready
        exact .ready hphase hready
      · exact .notReady hphase
    · cases hnext
  | startUpgrade =>
    simp only [next] at hnext
    split at hnext
    · rename_i hphase
      cases hnext
      exact .start hphase
    · cases hnext
  | approveInstallPlan c =>
    simp only [next] at hnext
    split at hnext
    · rename_i engines plan plans hphase
      cases hnext
      refine .approve hphase (ite_eq_or_eq ..) ?_
      dsimp only [approveInstallPlanOnce]
      split <;> rfl
    · cases hnext
  | unlock c =>
    simp only [next] at hnext
    split at hnext
    · rename_i entry remaining hphase
      cases hnext
      refine .unlock hphase (ite_eq_or_eq ..) fun name hname => ?_
      by_cases hstored : c.stored = true
      · rw [setLockOnce_stored _ _ hstored, setLock_other _ hname]
      · rw [setLockOnce_not_stored _ _ hstored]
    · cases hnext
  | again =>
    simp only [next] at hnext
    split at hnext
    · rename_i hphase
      cases hnext
      exact .lockAgain hphase
    · rename_i hphase
      cases hnext
      exact .startAgain hphase
    · rename_i hphase
      cases hnext
      exact .unlockAgain hphase
    · cases hnext
  | giveUp =>
    simp only [next] at hnext
    split at hnext
    all_goals cases hnext
    · rename_i hphase
      exact .giveUp (by simp [hphase])
    · rename_i hphase
      exact .giveUp (by simp [hphase])
    · rename_i hphase
      exact .giveUp (by simp [hphase])
    · rename_i hphase
      exact .fail (.inl hphase)
    · rename_i hphase
      exact .fail (.inr ⟨_, _, _, hphase⟩)
    · rename_i hphase
      exact .giveUp (by simp [hphase])
  | finish =>
    simp only [next] at hnext
    split at hnext
    all_goals cases hnext
    all_goals
      rename_i hphase
      exact .finish (by simp [hphase])

end Approval

end Next

/-! ### Interleavings -/

inductive RequestPhase where
  | waiting
  | admitted
  | done
  deriving DecidableEq

structure ApprovalState (ι κ : Type) extends NamespaceState where
  run : ι → Approval
  request : κ → RequestPhase

inductive ApprovalStep (ι κ : Type) where
  | approval (r : ι) (action : ApprovalAction)
  | admitRequest (q : κ) (c : HttpRequest)
  | actRequest (q : κ) (clusters : List DatabaseCluster)
  | reportClusters (clusters : List DatabaseCluster)
  | upgradesAppear (engines : List DatabaseEngine)

namespace ApprovalState

variable {ι κ V : Type} (h : K8sHandler V)

def start (n : NamespaceState) : ApprovalState ι κ :=
  ⟨n, fun _ => ⟨.new, [], [], []⟩, fun _ => .waiting⟩

def step [DecidableEq ι] [DecidableEq κ] (s : ApprovalState ι κ) :
    ApprovalStep ι κ → Option (ApprovalState ι κ)
  | .approval r action =>
    match (s.run r).next h s.toNamespaceState action with
    | some (a, n) => some { s with toNamespaceState := n, run := Function.update s.run r a }
    | none => none
  | .admitRequest q c =>
    if s.request q = .waiting ∧ c.writesCluster = true ∧ s.allows c = true then
      some { s with request := Function.update s.request q .admitted }
    else none
  | .actRequest q clusters =>
    if s.request q = .admitted then
      some { s with
        clusters
        run := fun r => (s.run r).markChanged
        request := Function.update s.request q .done }
    else none
  | .reportClusters clusters => some { s with clusters }
  | .upgradesAppear engines => some { s with engines }

def LockedByNoOther (s : ApprovalState ι κ) (r : ι) (entry : PlannedUpgrade) : Prop :=
  ∀ other, other ≠ r → (s.run other).isFinished = false →
    ∀ lock ∈ (s.run other).locks, lock.entry.engine.name ≠ entry.engine.name

/-- What an approval may approve, and what its failure path may unlock. -/
def Safe (s : ApprovalState ι κ) : ApprovalStep ι κ → Prop
  | .approval r (.approveInstallPlan _) =>
    match (s.run r).phase with
    | .approving engines (plan :: _) =>
      upgradesOfInstallPlan h engines plan ≠ [] ∧
        ∀ upgrade ∈ upgradesOfInstallPlan h engines plan,
          (s.run r).LockedReady upgrade ∧ s.upgrade.locked upgrade.1 = true
    | _ => True
  | .approval r (.unlock _) =>
    match (s.run r).phase with
    | .unlocking (entry :: _) => s.LockedByNoOther r entry
    | _ => True
  | _ => True

/-- No engine is locked by two approvals under way, no request acts on locked engines,
clusters stay ready from the check to the lock, and engines that are read again have no
upgrades that the plan was made without. -/
def Undisturbed (s : ApprovalState ι κ) : ApprovalStep ι κ → Prop
  | .approval r (.lock c) =>
    match (s.run r).phase with
    | .locking (entry :: _) => c.stored = true → s.LockedByNoOther r entry
    | _ => True
  | .approval r .startUpgrade => nextUpgrades h s.engines ⊆ nextUpgrades h (s.run r).read
  | .actRequest _ clusters =>
    ∀ r, (s.run r).mayApprove = true →
      (s.run r).locks = [] ∧ (s.run r).KeepsReady h s.clusters clusters
  | .reportClusters clusters =>
    ∀ r, (s.run r).mayApprove = true → (s.run r).KeepsReady h s.clusters clusters
  | _ => True

section Decidable

variable [DecidableEq ι] [Fintype ι] {h}

instance (s : ApprovalState ι κ) (r : ι) (entry : PlannedUpgrade) :
    Decidable (s.LockedByNoOther r entry) :=
  inferInstanceAs (Decidable (∀ _, _))

instance (s : ApprovalState ι κ) (step : ApprovalStep ι κ) : Decidable (s.Safe h step) := by
  unfold Safe
  split
  · split <;> infer_instance
  · split <;> infer_instance
  · infer_instance

instance (s : ApprovalState ι κ) (step : ApprovalStep ι κ) :
    Decidable (s.Undisturbed h step) := by
  unfold Undisturbed
  split
  · split <;> infer_instance
  all_goals infer_instance

end Decidable

end ApprovalState

/-! ### What the middleware decides -/

theorem allows_iff (n : NamespaceState) (c : HttpRequest) (hwrites : c.writesCluster = true) :
    n.allows c = true ↔ ∀ engine ∈ n.engines, n.upgrade.locked engine.name = false := by
  simp only [HttpRequest.writesCluster, Bool.and_eq_true, decide_eq_true_eq] at hwrites
  obtain ⟨⟨hmethod, hnamespace⟩, hpath⟩ := hwrites
  have htarget : targetResources.any (fun resource => contains c.path resource) = true :=
    List.any_eq_true.mpr ⟨ascii "database-clusters", by simp [targetResources], hpath⟩
  have hresult : shouldAllowRequestDuringEngineUpgrade (fun _ => .ok n.engines) n.upgrade.locked c =
      .ok !(n.engines.any fun engine => n.upgrade.locked engine.name) := by
    simp only [shouldAllowRequestDuringEngineUpgrade, if_neg hmethod, if_neg hnamespace, htarget]
    rfl
  simp [NamespaceState.allows, hresult]

section Preflight

variable {V : Type} {h : K8sHandler V}

@[simp] theorem handler_goversion (n : NamespaceState) :
    (n.handler h).goversion = h.goversion := rfl

@[simp] theorem handler_getSupportedEngineVersions (n : NamespaceState) :
    (n.handler h).getSupportedEngineVersions = h.getSupportedEngineVersions := rfl

theorem minSupportedMajVersion_handler (n : NamespaceState) (current : V) (min : Option V)
    (versions : List GoString) : minSupportedMajVersion (n.handler h) current min versions =
      minSupportedMajVersion h current min versions := by
  induction versions generalizing min with
  | nil => rfl
  | cons version versions ih =>
    simp only [minSupportedMajVersion, ih, handler_goversion]
    rfl

theorem checkResult_handler (n : NamespaceState) (db : DatabaseCluster) (engine : DatabaseEngine)
    (targetVersion : GoString) :
    getUpgradePreflightCheckResultForDatabase (n.handler h) db engine targetVersion =
      getUpgradePreflightCheckResultForDatabase h db engine targetVersion := by
  have hversion : preflightCheckDBEngineVersion (n.handler h) db engine targetVersion =
      preflightCheckDBEngineVersion h db engine targetVersion := by
    simp only [preflightCheckDBEngineVersion, minSupportedMajVersion_handler, handler_goversion,
      handler_getSupportedEngineVersions]
  simp only [getUpgradePreflightCheckResultForDatabase, hversion]

theorem mem_getUpgradePreflightChecksResult {dbs : List DatabaseCluster} {engine : DatabaseEngine}
    {targetVersion : GoString} {tasks : List UpgradeTask}
    (htasks : getUpgradePreflightChecksResult h dbs engine targetVersion = .ok tasks) :
    ∀ db ∈ dbs, ∃ task ∈ tasks,
      getUpgradePreflightCheckResultForDatabase h db engine targetVersion = .ok task := by
  unfold getUpgradePreflightChecksResult at htasks
  split at htasks
  · cases htasks
  · obtain ⟨dbResults, hresults, hsorted⟩ := (bind_eq_ok ..).mp htasks
    obtain rfl := Except.ok.inj hsorted
    intro db hdb
    obtain ⟨task, htask, hcheck⟩ := exists_of_mapM_eq_ok hresults db hdb
    exact ⟨task, (List.perm_insertionSort _ dbResults).mem_iff.mpr htask, hcheck⟩

theorem clustersReady_of_preflight {n : NamespaceState} {engine : DatabaseEngine}
    {targetVersion : GoString} {tasks : List UpgradeTask}
    (htasks : getOperatorUpgradePreflight (n.handler h) targetVersion engine = .ok tasks)
    (hready : PlannedUpgrade.isReady ⟨engine, targetVersion, tasks⟩ = true) :
    clustersReady h n.clusters ⟨engine, targetVersion, tasks⟩ = true := by
  obtain ⟨databases, hdatabases, htasks⟩ := (bind_eq_ok ..).mp htasks
  obtain rfl := Except.ok.inj hdatabases
  obtain ⟨-, htasks⟩ := (check_bind_eq_ok ..).mp htasks
  split at htasks
  · cases htasks
  · rename_i result hresult
    obtain rfl := Except.ok.inj htasks
    rw [clustersReady, List.all_eq_true]
    intro db hdb
    obtain ⟨task, htask, hcheck⟩ := mem_getUpgradePreflightChecksResult hresult db hdb
    rw [checkResult_handler] at hcheck
    simp only [hcheck]
    exact List.all_eq_true.mp hready task htask

end Preflight

section InstallPlans

variable {V : Type} {h : K8sHandler V}

theorem mem_nextUpgrades {engines : List DatabaseEngine} {upgrade : GoString × GoString} :
    upgrade ∈ nextUpgrades h engines ↔ ∃ engine ∈ engines,
      h.getNextUpgradeVersion engine.status ≠ [] ∧
        (engine.name, h.getNextUpgradeVersion engine.status) = upgrade := by
  simp [nextUpgrades, and_assoc]

theorem upgradesOfInstallPlan_subset (engines : List DatabaseEngine) (plan : GoString) :
    upgradesOfInstallPlan h engines plan ⊆ nextUpgrades h engines := by
  intro upgrade hupgrade
  obtain ⟨engine, hengine, hnext⟩ := mem_nextUpgrades.mp hupgrade
  exact mem_nextUpgrades.mpr ⟨engine, List.mem_of_mem_filter hengine, hnext⟩

theorem upgradesOfInstallPlan_ne_nil {engines : List DatabaseEngine} {plan : GoString}
    (hplan : plan ∈ installPlansToApprove h engines) : upgradesOfInstallPlan h engines plan ≠ [] := by
  have hsorted := (List.destutter_sublist _ _).subset hplan
  obtain ⟨engine, hengine, hplan⟩ :=
    List.mem_flatMap.mp ((List.perm_insertionSort _ _).mem_iff.mp hsorted)
  dsimp only at hplan
  split at hplan
  · cases hplan
  · rename_i hnext
    obtain ⟨pending, hpending, href⟩ := List.mem_map.mp hplan
    have htarget := List.mem_filter.mp hpending
    have hmem : engine ∈ engines.filter fun engine =>
        engine.status.pendingOperatorUpgrades.any fun pending =>
          pending.targetVersion = h.getNextUpgradeVersion engine.status ∧
            pending.installPlanRef = plan := by
      simp only [List.mem_filter, List.any_eq_true, decide_eq_true_eq] at htarget ⊢
      exact ⟨hengine, pending, htarget.1, htarget.2, href⟩
    exact List.ne_nil_of_mem (mem_nextUpgrades.mpr ⟨engine, hmem, hnext, rfl⟩)

/-- The preflight steps of an approval that nothing comes between compute the upgrades
and the tasks of `getUpgradePlan`. -/
theorem preflights_eq_plan {n : NamespaceState} {engines : List DatabaseEngine}
    {upgrades : List Upgrade} {tasks : List UpgradeTask} {a : Approval}
    (hplan : planEngines (n.handler h) engines = .ok (upgrades, tasks))
    (hphase : a.phase = .planning engines) :
    ∃ entries, run (fun a action => (a.next h n action).map Prod.fst) a
        (List.replicate (engines.length + 1) .preflight) =
          some ⟨.locking (a.planned ++ entries), a.read, a.planned ++ entries, a.locks⟩ ∧
      entries.map (·.upgrade) = upgrades.map (fun upgrade => (upgrade.name, upgrade.targetVersion)) ∧
        entries.flatMap (·.tasks) = tasks := by
  induction engines generalizing upgrades tasks a with
  | nil =>
    simp only [planEngines, Except.ok.injEq, Prod.mk.injEq] at hplan
    obtain ⟨rfl, rfl⟩ := hplan
    exact ⟨[], by simp [run, Approval.next, hphase, Approval.goto], rfl, rfl⟩
  | cons engine engines ih =>
    simp only [planEngines] at hplan
    rw [List.length_cons, List.replicate_succ]
    by_cases hnext : (n.handler h).getNextUpgradeVersion engine.status = []
    · rw [if_pos hnext] at hplan
      have hnext : h.getNextUpgradeVersion engine.status = [] := hnext
      obtain ⟨entries, hrun, hsame⟩ := ih (a := a.goto (.planning engines)) hplan rfl
      have hstep : a.next h n .preflight = some (a.goto (.planning engines), n) := by
        simp [Approval.next, hphase, hnext]
      exact ⟨entries, (run_cons_eq_some ..).mpr ⟨_, by rw [hstep]; rfl, hrun⟩, hsame⟩
    · rw [if_neg hnext, bind_eq_ok] at hplan
      have hnext : h.getNextUpgradeVersion engine.status ≠ [] := hnext
      obtain ⟨databases, hdatabases, hplan⟩ := hplan
      have hdatabases : getOperatorUpgradePreflight (n.handler h)
        (h.getNextUpgradeVersion engine.status) engine = .ok databases := hdatabases
      obtain ⟨⟨rest, restTasks⟩, hrest, hplan⟩ := (bind_eq_ok ..).mp hplan
      simp only [Except.ok.injEq, Prod.mk.injEq] at hplan
      obtain ⟨rfl, rfl⟩ := hplan
      let entry : PlannedUpgrade := ⟨engine, h.getNextUpgradeVersion engine.status, databases⟩
      obtain ⟨entries, hrun, hupgrades, htasks⟩ :=
        ih (a := { a with phase := .planning engines, planned := a.planned ++ [entry] }) hrest rfl
      have hstep : a.next h n .preflight =
          some ({ a with phase := .planning engines, planned := a.planned ++ [entry] }, n) := by
        simp only [Approval.next, hphase, if_neg hnext, hdatabases, entry]
      refine ⟨entry :: entries, (run_cons_eq_some ..).mpr ⟨_, by rw [hstep]; rfl, ?_⟩, ?_, ?_⟩
      · simpa using hrun
      · simp only [List.map_cons, hupgrades]
        rfl
      · simp only [List.flatMap_cons, htasks, entry]

end InstallPlans

namespace Approval

section Progress

variable {V : Type} (h : K8sHandler V) (clusters : List DatabaseCluster) (a : Approval)

/-- A planned engine that is not locked yet has the ready clusters its tasks tell of. -/
def ReadyToLock : Prop :=
  ∀ entry ∈ a.planned, entry ∉ a.lockedEntries → entry.isReady = true →
    clustersReady h clusters entry = true

def LocksGood : Prop :=
  ∀ lock ∈ a.locks, lock.changed = false ∧ (lock.entry.isReady = true → lock.ready = true)

/-- Every upgrade of the engines that were read is planned. -/
def AllPlanned : Prop := nextUpgrades h a.read ⊆ a.upgrades

/-- What is locked and known in each phase, while `clusters` are there. -/
def Progress : Prop :=
  match a.phase with
  | .new => a.planned = [] ∧ a.locks = []
  | .admitted => a.planned = [] ∧ a.locks = []
  | .planning remaining =>
    a.locks = [] ∧ nextUpgrades h a.read ⊆ a.upgrades ++ nextUpgrades h remaining ∧
      a.ReadyToLock h clusters
  | .locking remaining =>
    (remaining ⊆ a.planned ∧ a.planned ⊆ remaining ++ a.lockedEntries) ∧
      a.AllPlanned h ∧ a.ReadyToLock h clusters ∧ a.LocksGood
  | .starting =>
    a.planned ⊆ a.lockedEntries ∧ a.isReady = true ∧ a.AllPlanned h ∧ a.LocksGood
  | .approving engines plans =>
    (a.planned ⊆ a.lockedEntries ∧ a.isReady = true ∧ a.AllPlanned h ∧ a.LocksGood) ∧
      nextUpgrades h engines ⊆ a.upgrades ∧
        ∀ plan ∈ plans, upgradesOfInstallPlan h engines plan ≠ []
  | .unlocking remaining => a.planned ⊆ a.lockedEntries ∧ remaining ⊆ a.planned
  | .finished => True

end Progress

section Step

variable {V : Type} {h : K8sHandler V} {n n' : NamespaceState} {a a' : Approval}
  {action : ApprovalAction}

theorem recordLock_lockedEntries (entry : PlannedUpgrade) (ready : Bool) :
    entry ∈ (a.recordLock entry ready).lockedEntries ∧
      a.lockedEntries ⊆ (a.recordLock entry ready).lockedEntries := by
  unfold recordLock
  split
  · rename_i hmem
    exact ⟨hmem, List.Subset.refl _⟩
  · simp [lockedEntries]

@[simp] theorem recordLock_planned (entry : PlannedUpgrade) (ready : Bool) :
    (a.recordLock entry ready).planned = a.planned := by
  unfold recordLock
  split <;> rfl

@[simp] theorem recordLock_read (entry : PlannedUpgrade) (ready : Bool) :
    (a.recordLock entry ready).read = a.read := by
  unfold recordLock
  split <;> rfl

theorem mem_recordLock {entry : PlannedUpgrade} {ready : Bool} {lock : LockRecord}
    (hlock : lock ∈ (a.recordLock entry ready).locks) :
    lock ∈ a.locks ∨ (entry ∉ a.lockedEntries ∧ lock = ⟨entry, ready, false⟩) := by
  unfold recordLock at hlock
  split at hlock
  · exact .inl hlock
  · rename_i hnew
    exact (List.mem_append.mp hlock).imp id fun hmem => ⟨hnew, List.mem_singleton.mp hmem⟩

theorem Effect.clusters (heffect : Effect h n a action a' n') : n'.clusters = n.clusters := by
  cases heffect <;> rfl

theorem Progress.lock {clusters : List DatabaseCluster} {entry : PlannedUpgrade}
    {remaining left : List PlannedUpgrade} (hprogress : a.Progress h clusters)
    (hphase : a.phase = .locking (entry :: remaining))
    (hleft : left = remaining ∨ left = entry :: remaining) :
    ((a.recordLock entry (clustersReady h clusters entry)).goto (.locking left)).Progress h
      clusters := by
  simp only [Progress, hphase] at hprogress
  obtain ⟨⟨hremaining, hcovered⟩, hupgrades, hready, hgood⟩ := hprogress
  have hentry : entry ∈ a.planned := hremaining (List.mem_cons_self ..)
  obtain ⟨hlocked, hkept⟩ :=
    recordLock_lockedEntries (a := a) entry (clustersReady h clusters entry)
  have hleftPlanned : left ⊆ a.planned := by
    rcases hleft with rfl | rfl
    · exact List.subset_of_cons_subset hremaining
    · exact hremaining
  have hall : a.planned ⊆
      left ++ (a.recordLock entry (clustersReady h clusters entry)).lockedEntries := by
    intro other hother
    rcases List.mem_append.mp (hcovered hother) with hmem | hmem
    · rcases List.mem_cons.mp hmem with rfl | hmem
      · exact List.mem_append_right _ hlocked
      · refine List.mem_append_left _ ?_
        rcases hleft with rfl | rfl
        · exact hmem
        · exact List.mem_cons_of_mem entry hmem
    · exact List.mem_append_right _ (hkept hmem)
  have hgood' : (a.recordLock entry (clustersReady h clusters entry)).LocksGood := by
    intro lock hlock
    rcases mem_recordLock hlock with hold | ⟨hnew, rfl⟩
    · exact hgood lock hold
    · exact ⟨rfl, hready entry hentry hnew⟩
  have hready' : (a.recordLock entry (clustersReady h clusters entry)).ReadyToLock h
      clusters := by
    intro other hother hnew
    rw [recordLock_planned] at hother
    exact hready other hother fun hmem => hnew (hkept hmem)
  rw [← recordLock_planned entry (clustersReady h clusters entry)] at hleftPlanned hall
  have hupgrades' : (a.recordLock entry (clustersReady h clusters entry)).AllPlanned h := by
    rwa [AllPlanned, upgrades, recordLock_planned, recordLock_read]
  exact ⟨⟨hleftPlanned, hall⟩, hupgrades', hready', hgood'⟩

theorem Effect.progress (heffect : Effect h n a action a' n')
    (hprogress : a.Progress h n.clusters)
    (hread : action = .startUpgrade → nextUpgrades h n.engines ⊆ nextUpgrades h a.read) :
    a'.Progress h n.clusters := by
  cases heffect with
  | enter hphase _ =>
    simp only [Progress, hphase] at hprogress
    exact hprogress
  | list hphase =>
    simp only [Progress, hphase] at hprogress
    obtain ⟨hplanned, hlocks⟩ := hprogress
    refine ⟨hlocks, List.subset_append_right _ _, fun entry hentry => ?_⟩
    change entry ∈ a.planned at hentry
    simp [hplanned] at hentry
  | planned hphase =>
    simp only [Progress, hphase] at hprogress
    obtain ⟨hlocks, hupgrades, hready⟩ := hprogress
    have hgood : a.LocksGood := by simp [LocksGood, hlocks]
    have hcovered : a.AllPlanned h := by
      simpa [AllPlanned, nextUpgrades] using hupgrades
    exact ⟨⟨List.Subset.refl _, List.subset_append_left _ _⟩, hcovered, hready, hgood⟩
  | @pass engine engines hphase hnext =>
    simp only [Progress, hphase] at hprogress
    obtain ⟨hlocks, hupgrades, hready⟩ := hprogress
    have hsame : nextUpgrades h (engine :: engines) = nextUpgrades h engines := by
      simp [nextUpgrades, hnext]
    rw [hsame] at hupgrades
    exact ⟨hlocks, hupgrades, hready⟩
  | planFails _ => trivial
  | @plan engine engines tasks hphase htasks =>
    simp only [Progress, hphase] at hprogress
    obtain ⟨hlocks, hupgrades, hready⟩ := hprogress
    refine ⟨hlocks, fun upgrade hupgrade => ?_, fun entry hentry hnew hentryReady => ?_⟩
    · rcases List.mem_append.mp (hupgrades hupgrade) with hplanned | hremaining
      · simp [upgrades] at hplanned ⊢
        exact .inl hplanned
      · obtain ⟨other, hother, hnext, rfl⟩ := mem_nextUpgrades.mp hremaining
        rcases List.mem_cons.mp hother with rfl | hother
        · simp [upgrades, PlannedUpgrade.upgrade]
        · exact List.mem_append_right _ (mem_nextUpgrades.mpr ⟨other, hother, hnext, rfl⟩)
    · rcases List.mem_append.mp hentry with hplanned | hlast
      · exact hready entry hplanned hnew hentryReady
      · obtain rfl := List.mem_singleton.mp hlast
        exact clustersReady_of_preflight htasks hentryReady
  | lock hphase _ hleft => exact hprogress.lock hphase hleft
  | lockFails hphase =>
    simp only [Progress, hphase] at hprogress
    exact hprogress
  | ready hphase hready =>
    simp only [Progress, hphase] at hprogress
    obtain ⟨⟨-, hcovered⟩, hupgrades, -, hgood⟩ := hprogress
    exact ⟨hcovered, hready, hupgrades, hgood⟩
  | notReady hphase =>
    simp only [Progress, hphase] at hprogress
    exact ⟨hprogress.1.2, List.Subset.refl _⟩
  | start hphase =>
    simp only [Progress, hphase] at hprogress
    have hupgrades := List.Subset.trans (hread rfl) hprogress.2.2.1
    exact ⟨hprogress, hupgrades, fun plan => upgradesOfInstallPlan_ne_nil⟩
  | @approve c engines plan plans left upgrade hphase hleft hlocked =>
    simp only [Progress, hphase] at hprogress
    obtain ⟨hstarted, hupgrades, hplans⟩ := hprogress
    refine ⟨hstarted, hupgrades, fun other hother => hplans other ?_⟩
    rcases hleft with rfl | rfl
    · exact List.mem_cons_of_mem plan hother
    · exact hother
  | @unlock c entry remaining left upgrade hphase hleft _ =>
    simp only [Progress, hphase] at hprogress
    obtain ⟨hlocked, hremaining⟩ := hprogress
    refine ⟨hlocked, ?_⟩
    rcases hleft with rfl | rfl
    · exact List.subset_of_cons_subset hremaining
    · exact hremaining
  | lockAgain hphase =>
    simp only [Progress, hphase] at hprogress
    exact ⟨⟨List.Subset.refl _, List.subset_append_left _ _⟩, hprogress.2⟩
  | startAgain hphase =>
    simp only [Progress, hphase] at hprogress
    exact hprogress.1
  | unlockAgain hphase =>
    simp only [Progress, hphase] at hprogress
    exact ⟨hprogress.1, List.Subset.refl _⟩
  | giveUp _ => trivial
  | fail hphase =>
    have hlocked : a.planned ⊆ a.lockedEntries := by
      rcases hphase with hphase | ⟨_, _, _, hphase⟩
      · simp only [Progress, hphase] at hprogress
        exact hprogress.1
      · simp only [Progress, hphase] at hprogress
        exact hprogress.1.1
    exact ⟨hlocked, List.Subset.refl _⟩
  | finish _ => trivial

theorem Effect.not_finished (heffect : Effect h n a action a' n') : a.isFinished = false := by
  cases heffect with
  | giveUp hphase | finish hphase =>
    unfold isFinished
    split
    · exact absurd ‹_› hphase
    · rfl
  | fail hphase =>
    rcases hphase with hphase | ⟨_, _, _, hphase⟩
    all_goals simp [isFinished, hphase]
  | _ => simp [isFinished, *]

theorem Effect.mayApprove (heffect : Effect h n a action a' n') (hmay : a'.mayApprove = true) :
    a.mayApprove = true := by
  cases heffect with
  | notReady _ | unlock _ _ _ | unlockAgain _ | giveUp _ | fail _ | finish _ | planFails _ =>
    cases hmay
  | _ => simp [Approval.mayApprove, *]

theorem Effect.locks (heffect : Effect h n a action a' n') {lock : LockRecord}
    (hlock : lock ∈ a'.locks) :
    lock ∈ a.locks ∨ ∃ c remaining, action = .lock c ∧ c.stored = true ∧
      a.phase = .locking (lock.entry :: remaining) ∧
        n'.upgrade = n.upgrade.setLock lock.entry.engine.name true := by
  cases heffect with
  | lock hphase hstored _ =>
    rcases mem_recordLock hlock with hold | ⟨-, rfl⟩
    · exact .inl hold
    · exact .inr ⟨_, _, rfl, hstored, hphase, rfl⟩
  | _ => exact .inl hlock

theorem Effect.locked (heffect : Effect h n a action a' n') {name : GoString}
    (hlocked : n.upgrade.locked name = true) :
    n'.upgrade.locked name = true ∨
      ∃ entry remaining, a.phase = .unlocking (entry :: remaining) ∧ entry.engine.name = name := by
  cases heffect with
  | @lock _ entry _ _ _ _ _ =>
    by_cases hname : name = entry.engine.name
    · exact .inl (by rw [hname, setLock_same])
    · exact .inl (by rw [setLock_other _ hname, hlocked])
  | approve _ _ hsame =>
    rw [hsame]
    exact .inl hlocked
  | @unlock _ entry remaining _ _ hphase _ hother =>
    by_cases hname : name = entry.engine.name
    · exact .inr ⟨entry, remaining, hphase, hname.symm⟩
    · exact .inl ((hother name hname).trans hlocked)
  | _ => exact .inl hlocked

end Step

section Interference

variable {V : Type} {h : K8sHandler V} {clusters : List DatabaseCluster} {a : Approval}

theorem ReadyToLock.keep {clusters' : List DatabaseCluster} (hready : a.ReadyToLock h clusters)
    (hkeeps : a.KeepsReady h clusters clusters') : a.ReadyToLock h clusters' :=
  fun entry hentry hnew hentryReady =>
    hkeeps entry hentry hnew (hready entry hentry hnew hentryReady)

theorem Progress.clusters_change {clusters' : List DatabaseCluster}
    (hprogress : a.Progress h clusters)
    (hkeeps : a.mayApprove = true → a.KeepsReady h clusters clusters') :
    a.Progress h clusters' := by
  cases hphase : a.phase with
  | planning remaining =>
    simp only [Progress, hphase] at hprogress ⊢
    obtain ⟨hlocks, hupgrades, hready⟩ := hprogress
    exact ⟨hlocks, hupgrades, hready.keep (hkeeps (by simp [mayApprove, hphase]))⟩
  | locking remaining =>
    simp only [Progress, hphase] at hprogress ⊢
    obtain ⟨hremaining, hupgrades, hready, hgood⟩ := hprogress
    exact ⟨hremaining, hupgrades, hready.keep (hkeeps (by simp [mayApprove, hphase])), hgood⟩
  | new | admitted | starting | approving _ _ | unlocking _ =>
    simp only [Progress, hphase] at hprogress ⊢
    exact hprogress
  | finished => simp only [Progress, hphase]

@[simp] theorem markChanged_lockedEntries : a.markChanged.lockedEntries = a.lockedEntries := by
  simp [markChanged, lockedEntries]

theorem markChanged_of_locks_nil (hlocks : a.locks = []) : a.markChanged = a := by
  cases a
  simp_all [markChanged]

theorem Progress.mark (hprogress : a.Progress h clusters)
    (hfree : a.mayApprove = true → a.locks = []) : a.markChanged.Progress h clusters := by
  by_cases hmay : a.mayApprove = true
  · rw [markChanged_of_locks_nil (hfree hmay)]
    exact hprogress
  · cases hphase : a.phase with
    | unlocking remaining =>
      simp only [Progress, hphase] at hprogress
      have hphase' : a.markChanged.phase = .unlocking remaining := hphase
      simp only [Progress, hphase', markChanged_lockedEntries]
      exact hprogress
    | finished =>
      have hphase' : a.markChanged.phase = .finished := hphase
      simp only [Progress, hphase']
    | new | admitted | planning _ | locking _ | starting | approving _ _ =>
      simp [mayApprove, hphase] at hmay

end Interference

end Approval

namespace ApprovalState

variable {ι κ V : Type} [DecidableEq ι] [DecidableEq κ] {h : K8sHandler V}

/-- Approvals under way are as far as they should be, their locks are set, and no two of
them have locked the same engine. -/
structure Inv (h : K8sHandler V) (s : ApprovalState ι κ) : Prop where
  progress : ∀ r, (s.run r).Progress h s.clusters
  held : ∀ r, (s.run r).mayApprove = true → ∀ lock ∈ (s.run r).locks,
    s.upgrade.locked lock.entry.engine.name = true
  apart : ∀ r other, other ≠ r → (s.run r).isFinished = false →
    (s.run other).isFinished = false → ∀ lock ∈ (s.run r).locks,
      ∀ lock' ∈ (s.run other).locks, lock'.entry.engine.name ≠ lock.entry.engine.name

omit [DecidableEq ι] [DecidableEq κ] in
theorem inv_start (n : NamespaceState) : (start n : ApprovalState ι κ).Inv h :=
  ⟨fun _ => ⟨rfl, rfl⟩, fun _ _ _ hlock => (List.not_mem_nil hlock).elim,
    fun _ _ _ _ _ _ hlock => (List.not_mem_nil hlock).elim⟩

omit [DecidableEq ι] [DecidableEq κ] in
theorem Inv.unlocks_own {s : ApprovalState ι κ} (hinv : s.Inv h) {r : ι} {entry : PlannedUpgrade}
    {remaining : List PlannedUpgrade} (hphase : (s.run r).phase = .unlocking (entry :: remaining)) :
    s.LockedByNoOther r entry := by
  intro other hother hunfinished lock' hlock'
  have hprogress := hinv.progress r
  simp only [Approval.Progress, hphase] at hprogress
  obtain ⟨lock, hlock, rfl⟩ :=
    List.mem_map.mp (hprogress.1 (hprogress.2 (List.mem_cons_self ..)))
  exact hinv.apart r other hother (by simp [Approval.isFinished, hphase]) hunfinished lock hlock
    lock' hlock'

omit [DecidableEq κ] in
theorem Inv.approval {s : ApprovalState ι κ} (hinv : s.Inv h) {r : ι} {action : ApprovalAction}
    (hfree : s.Undisturbed h (.approval r action)) {a : Approval} {n : NamespaceState}
    (heffect : (s.run r).Effect h s.toNamespaceState action a n) :
    Inv h { s with toNamespaceState := n, run := Function.update s.run r a } := by
  have hread : action = .startUpgrade →
      nextUpgrades h s.engines ⊆ nextUpgrades h (s.run r).read := by
    rintro rfl
    exact hfree
  -- a lock that is new is set on an engine that no other approval has locked
  have hnew : ∀ lock ∈ a.locks, lock ∉ (s.run r).locks → s.LockedByNoOther r lock.entry ∧
      n.upgrade = s.upgrade.setLock lock.entry.engine.name true := by
    intro lock hlock hnotOld
    rcases heffect.locks hlock with hold | ⟨c, remaining, rfl, hstored, hphase, hset⟩
    · exact absurd hold hnotOld
    · simp only [Undisturbed, hphase] at hfree
      exact ⟨hfree hstored, hset⟩
  have hapart : ∀ j, j ≠ r → (s.run j).isFinished = false → ∀ lock ∈ a.locks,
      ∀ lock' ∈ (s.run j).locks, lock'.entry.engine.name ≠ lock.entry.engine.name := by
    intro j hj hunfinished lock hlock lock' hlock'
    by_cases hold : lock ∈ (s.run r).locks
    · exact hinv.apart r j hj heffect.not_finished hunfinished lock hold lock' hlock'
    · exact (hnew lock hlock hold).1 j hj hunfinished lock' hlock'
  refine ⟨?_, ?_, ?_⟩
  · intro j
    simp only [heffect.clusters]
    by_cases hj : j = r
    · subst hj
      simpa using heffect.progress (hinv.progress j) hread
    · simpa [Function.update_of_ne hj] using hinv.progress j
  · intro j hmay lock hlock
    by_cases hj : j = r
    · subst hj
      simp only [Function.update_self] at hmay hlock
      by_cases hold : lock ∈ (s.run j).locks
      · have hmayOld := heffect.mayApprove hmay
        rcases heffect.locked (hinv.held j hmayOld lock hold) with hlocked | ⟨_, _, hphase, _⟩
        · exact hlocked
        · simp [Approval.mayApprove, hphase] at hmayOld
      · rw [(hnew lock hlock hold).2, setLock_same]
    · simp only [Function.update_of_ne hj] at hmay hlock
      rcases heffect.locked (hinv.held j hmay lock hlock) with hlocked | ⟨_, _, hphase, hname⟩
      · exact hlocked
      · have hunfinished : (s.run j).isFinished = false := by
          unfold Approval.isFinished
          split
          · rename_i hfinished
            simp [Approval.mayApprove, hfinished] at hmay
          · rfl
        exact absurd hname.symm (hinv.unlocks_own hphase j hj hunfinished lock hlock)
  · intro j other hother hj hunfinished lock hlock lock' hlock'
    by_cases hjr : j = r
    · subst hjr
      simp only [Function.update_self, Function.update_of_ne hother] at hlock hlock' hunfinished
      exact hapart other hother hunfinished lock hlock lock' hlock'
    · simp only [Function.update_of_ne hjr] at hlock hj
      by_cases hor : other = r
      · subst hor
        simp only [Function.update_self] at hlock'
        exact (hapart j hjr hj lock' hlock' lock hlock).symm
      · simp only [Function.update_of_ne hor] at hlock' hunfinished
        exact hinv.apart j other hother hj hunfinished lock hlock lock' hlock'

theorem Inv.step {s t : ApprovalState ι κ} {step : ApprovalStep ι κ} (hinv : s.Inv h)
    (hfree : s.Undisturbed h step) (hstep : s.step h step = some t) : t.Inv h := by
  obtain ⟨hprogress, hheld, hapart⟩ := hinv
  cases step with
  | approval r action =>
    simp only [ApprovalState.step] at hstep
    split at hstep
    · rename_i a n hnext
      obtain rfl := Option.some.inj hstep
      exact Inv.approval ⟨hprogress, hheld, hapart⟩ hfree (Approval.next_effect hnext)
    · cases hstep
  | admitRequest q c =>
    simp only [ApprovalState.step] at hstep
    split at hstep
    · obtain rfl := Option.some.inj hstep
      exact ⟨hprogress, hheld, hapart⟩
    · cases hstep
  | actRequest q clusters =>
    simp only [ApprovalState.step] at hstep
    split at hstep
    · obtain rfl := Option.some.inj hstep
      refine ⟨fun r => ?_, fun r hmay lock hlock => ?_, fun r other hother hr hunfinished => ?_⟩
      · exact ((hprogress r).clusters_change fun hmay => (hfree r hmay).2).mark fun hmay =>
          (hfree r hmay).1
      · obtain ⟨old, hold, rfl⟩ := List.mem_map.mp hlock
        exact hheld r hmay old hold
      · intro lock hlock lock' hlock'
        obtain ⟨old, hold, rfl⟩ := List.mem_map.mp hlock
        obtain ⟨old', hold', rfl⟩ := List.mem_map.mp hlock'
        exact hapart r other hother hr hunfinished old hold old' hold'
    · cases hstep
  | reportClusters clusters =>
    obtain rfl := Option.some.inj hstep
    exact ⟨fun r => (hprogress r).clusters_change (hfree r), hheld, hapart⟩
  | upgradesAppear engines =>
    obtain rfl := Option.some.inj hstep
    exact ⟨hprogress, hheld, hapart⟩

omit [DecidableEq ι] [DecidableEq κ] in
theorem Inv.safe {s : ApprovalState ι κ} (hinv : s.Inv h) (step : ApprovalStep ι κ) :
    s.Safe h step := by
  unfold Safe
  split
  · rename_i r c
    split
    · rename_i engines plan plans hphase
      have hprogress := hinv.progress r
      simp only [Approval.Progress, hphase] at hprogress
      obtain ⟨⟨hlocked, hready, -, hgood⟩, hupgrades, hplans⟩ := hprogress
      refine ⟨hplans plan (List.mem_cons_self ..), fun upgrade hupgrade => ?_⟩
      obtain ⟨entry, hentry, rfl⟩ :=
        List.mem_map.mp (hupgrades (upgradesOfInstallPlan_subset engines plan hupgrade))
      obtain ⟨lock, hlock, rfl⟩ := List.mem_map.mp (hlocked hentry)
      have hentryReady := List.all_eq_true.mp hready lock.entry hentry
      obtain ⟨hunchanged, hgood⟩ := hgood lock hlock
      have hset := hinv.held r (by simp [Approval.mayApprove, hphase]) lock hlock
      exact ⟨⟨lock, hlock, rfl, hentry, hentryReady, hgood hentryReady, hunchanged⟩, hset⟩
    · trivial
  · rename_i r c
    split
    · rename_i entry remaining hphase
      exact hinv.unlocks_own hphase
    · trivial
  · trivial

/-- In a run without disturbance, an install plan is approved only for upgrades that were
planned and locked with ready clusters, which stay as they were, and a failure path
unlocks no engine of another approval. -/
theorem approvals_safe (n : NamespaceState) (steps : List (ApprovalStep ι κ))
    (hfree : AlongRun (step h) (Undisturbed h) (start n) steps) :
    AlongRun (step h) (Safe h) (start n) steps :=
  AlongRun.imp (Inv h) (fun _ _ _ => Inv.step) (fun _ step hinv _ => hinv.safe step) (inv_start n)
    hfree

/-! ### Disturbances -/

def upgradeHandler : K8sHandler Nat :=
  { sampleHandler with getSupportedEngineVersions := fun _ _ => .ok [ascii "1"] }

def pxcCluster (status : String) : DatabaseCluster :=
  { namespaceName := ascii "ns"
    name := ascii "db"
    spec :=
      { engine := ⟨databaseEnginePXC, ascii "1"⟩
        backup := ⟨[], ⟨none⟩⟩
        dataSource := none
        monitoring := none
        proxy := ⟨⟨[]⟩⟩
        engineFeatures := none }
    status := ⟨ascii status, none⟩ }

def pxcAndPsmdb (psmdbUpgrades : List PendingOperatorUpgrade) : List DatabaseEngine :=
  [⟨ascii "ns", ascii "pxc", databaseEnginePXC, ⟨ascii "1", [⟨ascii "2", ascii "install"⟩]⟩⟩,
    ⟨ascii "ns", ascii "psmdb", databaseEnginePSMDB, ⟨ascii "1", psmdbUpgrades⟩⟩]

abbrev sampleStart (status : String) : ApprovalState Bool Unit :=
  start ⟨pxcAndPsmdb [], [pxcCluster status], unlockedState⟩

abbrev SampleStep := ApprovalStep Bool Unit

def admitSteps : List SampleStep :=
  [.approval false (.enter approvalRequest), .approval true (.enter approvalRequest),
    .admitRequest () ⟨ascii "PUT", ascii "/v1/namespaces/ns/database-clusters/db", ascii "ns"⟩]

def planSteps (r : Bool) : List SampleStep :=
  [.approval r .list, .approval r .preflight, .approval r .preflight, .approval r .preflight]

def lockStep (r : Bool) : SampleStep := .approval r (.lock ⟨true, .done⟩)

def approveSteps (r : Bool) : List SampleStep :=
  [.approval r .checkReady, .approval r .startUpgrade,
    .approval r (.approveInstallPlan ⟨true, .done⟩)]

def undisturbedSteps : List SampleStep :=
  admitSteps ++ [.actRequest () [pxcCluster "ready"]] ++
    planSteps false ++ [lockStep false] ++ approveSteps false ++ [.approval false .finish] ++
    planSteps true ++ [lockStep true] ++ approveSteps true ++ [.approval true .finish]

theorem approvals_safe_sample :
    (Framework.run (step upgradeHandler) (sampleStart "ready") undisturbedSteps).isSome = true ∧
      AlongRun (step upgradeHandler) (Undisturbed upgradeHandler) (sampleStart "ready")
        undisturbedSteps ∧
      AlongRun (step upgradeHandler) (Safe upgradeHandler) (sampleStart "ready")
        undisturbedSteps := by
  have hfree : AlongRun (step upgradeHandler) (Undisturbed upgradeHandler) (sampleStart "ready")
      undisturbedSteps := by decide +kernel
  exact ⟨by decide +kernel, hfree, approvals_safe _ _ hfree⟩

def lateUpgrade : List SampleStep :=
  admitSteps ++ planSteps false ++ [lockStep false] ++
    [.upgradesAppear (pxcAndPsmdb [⟨ascii "2", ascii "apply"⟩])] ++ approveSteps false

def lateRequest : List SampleStep :=
  admitSteps ++ planSteps false ++ [lockStep false, .actRequest () [pxcCluster "error"]] ++
    approveSteps false

def earlyRequest : List SampleStep :=
  admitSteps ++ planSteps false ++ [.actRequest () [pxcCluster "error"], lockStep false] ++
    approveSteps false

def sharedLock : List SampleStep :=
  admitSteps ++ planSteps false ++ [.reportClusters [pxcCluster "ready"]] ++ planSteps true ++
    [lockStep false, lockStep true, .approval false .checkReady,
      .approval false (.unlock ⟨true, .done⟩)]

/-- Each disturbance alone makes an approval unsafe. -/
theorem approvals_unsafe :
    ¬ AlongRun (step upgradeHandler) (Safe upgradeHandler) (sampleStart "ready") lateUpgrade ∧
      ¬ AlongRun (step upgradeHandler) (Safe upgradeHandler) (sampleStart "ready") lateRequest ∧
      ¬ AlongRun (step upgradeHandler) (Safe upgradeHandler) (sampleStart "ready") earlyRequest ∧
      ¬ AlongRun (step upgradeHandler) (Safe upgradeHandler) (sampleStart "error") sharedLock := by
  refine ⟨?_, ?_, ?_, ?_⟩
  all_goals decide +kernel

end ApprovalState

end OpenEverest.K8s
