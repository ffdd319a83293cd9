import OpenEverest.K8s.Convertors

/-!
# The consumed resources

The requests of the containers of running pods are summed, with those of the init containers
that have not terminated. Whether an init container has terminated is asked of all statuses of
the pod at once.
-/

namespace OpenEverest.K8s

open Framework

/-- A `corev1.ContainerState`: which of its three parts are present. -/
structure ContainerState where
  waiting : Bool
  running : Bool
  terminated : Bool

structure ContainerStatus where
  name : GoString
  state : ContainerState

structure Container where
  name : GoString
  requests : ResourceList

structure Pod where
  phase : GoString
  initContainers : List Container
  containers : List Container
  initContainerStatuses : List ContainerStatus

def podRunning : GoString := ascii "Running"

def containerStateWaiting : GoString := ascii "waiting"

def containerStateRunning : GoString := ascii "running"

def containerStateTerminated : GoString := ascii "terminated"

/-- The keys of the object that `json.Marshal` writes for a state. -/
def ContainerState.keys (state : ContainerState) : List GoString :=
  (if state.waiting then [containerStateWaiting] else []) ++
    (if state.running then [containerStateRunning] else []) ++
    (if state.terminated then [containerStateTerminated] else [])

/-- The loop of `IsContainerInState`: each status is unmarshalled into the same map, which keeps
the keys that it has. -/
def isContainerInState (containerState : List GoString) (state : GoString) :
    List ContainerStatus → Bool
  | [] => false
  | status :: rest =>
    let containerState := containerState ++ status.state.keys
    if state ∈ containerState then true else isContainerInState containerState state rest

namespace Pod

variable (pod : Pod)

def nonTerminatedInitContainers : List Container :=
  pod.initContainers.filter fun _ =>
    !isContainerInState [] containerStateTerminated pod.initContainerStatuses

def added : List Container :=
  if pod.phase ≠ podRunning then [] else pod.containers ++ pod.nonTerminatedInitContainers

end Pod

/-- The loop of `GetConsumedCPUAndMemory`. -/
def getConsumedCPUAndMemory (beyond : Int → UInt64) (cpuMillis memoryBytes : Nat) :
    List Pod → Except ResourceError (Nat × Nat)
  | [] => .ok (cpuMillis, memoryBytes)
  | ppod :: rest =>
    if ppod.phase ≠ podRunning then getConsumedCPUAndMemory beyond cpuMillis memoryBytes rest
    else do
      let sums ← sumResources beyond cpuMillis memoryBytes
        ((ppod.containers ++ ppod.nonTerminatedInitContainers).map Container.requests)
      getConsumedCPUAndMemory beyond sums.1 sums.2 rest

theorem terminated_mem_keys (state : ContainerState) :
    containerStateTerminated ∈ state.keys ↔ state.terminated = true := by
  obtain ⟨waiting, running, terminated⟩ := state
  cases waiting <;> cases running <;> cases terminated <;> decide +kernel

theorem isContainerInState_iff (seen : List GoString) (state : GoString) (hseen : state ∉ seen)
    (statuses : List ContainerStatus) :
    isContainerInState seen state statuses = true ↔
      ∃ status ∈ statuses, state ∈ status.state.keys := by
  induction statuses generalizing seen with
  | nil => simp [isContainerInState]
  | cons status rest ih =>
    rw [isContainerInState]
    by_cases hkey : state ∈ status.state.keys
    · rw [if_pos (List.mem_append_right seen hkey)]
      simp [hkey]
    · have hnot : state ∉ seen ++ status.state.keys := by simp [hseen, hkey]
      rw [if_neg hnot, ih _ hnot]
      simp [hkey]

namespace Pod

variable (pod : Pod)

def SomeTerminated : Prop :=
  ∃ status ∈ pod.initContainerStatuses, status.state.terminated = true

/-- The init container has a status of its own that says so. -/
def Terminated (container : Container) : Prop :=
  ∃ status ∈ pod.initContainerStatuses,
    status.name = container.name ∧ status.state.terminated = true

instance : Decidable pod.SomeTerminated :=
  inferInstanceAs (Decidable (∃ status ∈ pod.initContainerStatuses, status.state.terminated = true))

instance : DecidablePred pod.Terminated := fun container =>
  inferInstanceAs (Decidable (∃ status ∈ pod.initContainerStatuses,
    status.name = container.name ∧ status.state.terminated = true))

theorem someTerminated_iff :
    isContainerInState [] containerStateTerminated pod.initContainerStatuses = true ↔
      pod.SomeTerminated := by
  rw [isContainerInState_iff [] _ List.not_mem_nil]
  simp only [terminated_mem_keys, SomeTerminated]

theorem nonTerminatedInitContainers_eq :
    pod.nonTerminatedInitContainers = if pod.SomeTerminated then [] else pod.initContainers := by
  rw [nonTerminatedInitContainers]
  by_cases h : pod.SomeTerminated
  · rw [if_pos h, pod.someTerminated_iff.mpr h]
    simp
  · have hfalse := mt pod.someTerminated_iff.mp h
    rw [if_neg h, Bool.eq_false_of_not_eq_true hfalse]
    simp

/-- The containers that count: those of a running pod, and its init containers that are not
themselves terminated. -/
def counted : List Container :=
  if pod.phase ≠ podRunning then []
  else pod.containers ++ pod.initContainers.filter fun c => ¬ pod.Terminated c

/-- The init containers that count and are not added. -/
def leftOut : List Container :=
  if pod.phase = podRunning ∧ pod.SomeTerminated then
    pod.initContainers.filter fun c => ¬ pod.Terminated c
  else []

theorem counted_eq : pod.counted = pod.added ++ pod.leftOut := by
  rw [counted, added, leftOut, nonTerminatedInitContainers_eq]
  by_cases hphase : pod.phase = podRunning
  · by_cases hsome : pod.SomeTerminated
    · simp [hphase, hsome]
    · have hnone : ∀ c ∈ pod.initContainers, decide (¬ pod.Terminated c) = true := by
        intro c _
        rw [decide_eq_true_eq]
        intro hterminated
        obtain ⟨status, hstatus, -, hstate⟩ := hterminated
        exact hsome ⟨status, hstatus, hstate⟩
      simp only [hphase, hsome, List.filter_eq_self.mpr hnone]
      simp
  · simp [hphase]

end Pod

variable {beyond : Int → UInt64}

theorem sumResources_append (a b : Nat) (l l' : List ResourceList) :
    sumResources beyond a b (l ++ l') =
      (sumResources beyond a b l).bind fun sums => sumResources beyond sums.1 sums.2 l' := by
  induction l generalizing a b with
  | nil => rfl
  | cons resources rest ih =>
    rw [List.cons_append, sumResources, sumResources]
    cases getResources beyond resources with
    | error e => rfl
    | ok read => exact ih _ _

def requestsOf (which : Pod → List Container) (pods : List Pod) : List ResourceList :=
  pods.flatMap fun pod => (which pod).map Container.requests

theorem getConsumedCPUAndMemory_eq (a b : Nat) (pods : List Pod) :
    getConsumedCPUAndMemory beyond a b pods =
      sumResources beyond a b (requestsOf Pod.added pods) := by
  induction pods generalizing a b with
  | nil => rfl
  | cons pod rest ih =>
    rw [getConsumedCPUAndMemory, requestsOf, List.flatMap_cons, sumResources_append, Pod.added]
    split
    · exact ih a b
    · cases sumResources beyond a b
        ((pod.containers ++ pod.nonTerminatedInitContainers).map Container.requests) with
      | error e => rfl
      | ok sums => exact ih _ _

theorem totalOf_append (amount : ResourceList → Nat) (l l' : List ResourceList) :
    totalOf amount (l ++ l') = totalOf amount l + totalOf amount l' := by
  simp [totalOf]

theorem totalOf_eq_zero (amount : ResourceList → Nat) (l : List ResourceList) :
    totalOf amount l = 0 ↔ ∀ r ∈ l, amount r = 0 := by
  induction l with
  | nil => simp [totalOf]
  | cons r rest ih => simp [ih]

theorem totalOf_counted (amount : ResourceList → Nat) (pods : List Pod) :
    totalOf amount (requestsOf Pod.counted pods) =
      totalOf amount (requestsOf Pod.added pods) + totalOf amount (requestsOf Pod.leftOut pods) := by
  induction pods with
  | nil => rfl
  | cons pod rest ih =>
    simp only [requestsOf, List.flatMap_cons, totalOf_append] at ih ⊢
    rw [pod.counted_eq, List.map_append, totalOf_append, ih]
    omega

theorem mem_requestsOf {which : Pod → List Container} {pods : List Pod} {r : ResourceList} :
    r ∈ requestsOf which pods ↔ ∃ pod ∈ pods, ∃ c ∈ which pod, c.requests = r := by
  simp [requestsOf]

/-- When nothing is lost: the init containers left out request nothing, the requests that are
added can be read, and the sums fit. -/
structure NothingLost (pods : List Pod) : Prop where
  leftOut : ∀ pod ∈ pods, pod.phase = podRunning → pod.SomeTerminated →
    ∀ c ∈ pod.initContainers, ¬ pod.Terminated c →
      cpuAmount c.requests = 0 ∧ memoryAmount c.requests = 0
  readable : ∀ pod ∈ pods, pod.phase = podRunning → (∀ c ∈ pod.containers,
    ResourcesReadable c.requests) ∧ (¬ pod.SomeTerminated → ∀ c ∈ pod.initContainers,
      ResourcesReadable c.requests)
  cpu : totalOf cpuAmount (requestsOf Pod.counted pods) < 2 ^ 64
  memory : totalOf memoryAmount (requestsOf Pod.counted pods) < 2 ^ 64

theorem leftOut_zero_iff (pods : List Pod) :
    totalOf cpuAmount (requestsOf Pod.leftOut pods) = 0 ∧
        totalOf memoryAmount (requestsOf Pod.leftOut pods) = 0 ↔
      ∀ pod ∈ pods, pod.phase = podRunning → pod.SomeTerminated →
        ∀ c ∈ pod.initContainers, ¬ pod.Terminated c →
          cpuAmount c.requests = 0 ∧ memoryAmount c.requests = 0 := by
  rw [totalOf_eq_zero, totalOf_eq_zero]
  constructor
  · intro h pod hpod hphase hsome c hc hnot
    have hmem : c.requests ∈ requestsOf Pod.leftOut pods := by
      refine mem_requestsOf.mpr ⟨pod, hpod, c, ?_, rfl⟩
      rw [Pod.leftOut, if_pos ⟨hphase, hsome⟩]
      exact List.mem_filter.mpr ⟨hc, decide_eq_true hnot⟩
    exact ⟨h.1 _ hmem, h.2 _ hmem⟩
  · intro h
    have hall : ∀ r ∈ requestsOf Pod.leftOut pods, cpuAmount r = 0 ∧ memoryAmount r = 0 := by
      intro r hr
      obtain ⟨pod, hpod, c, hc, rfl⟩ := mem_requestsOf.mp hr
      rw [Pod.leftOut] at hc
      split at hc
      · rename_i hrunning
        obtain ⟨hc, hnot⟩ := List.mem_filter.mp hc
        exact h pod hpod hrunning.1 hrunning.2 c hc (of_decide_eq_true hnot)
      · cases hc
    exact ⟨fun r hr => (hall r hr).1, fun r hr => (hall r hr).2⟩

theorem added_readable_iff (pods : List Pod) :
    (∀ r ∈ requestsOf Pod.added pods, ResourcesReadable r) ↔
      ∀ pod ∈ pods, pod.phase = podRunning → (∀ c ∈ pod.containers,
        ResourcesReadable c.requests) ∧ (¬ pod.SomeTerminated → ∀ c ∈ pod.initContainers,
          ResourcesReadable c.requests) := by
  constructor
  · intro h pod hpod hphase
    have hadded : ∀ c ∈ pod.added, ResourcesReadable c.requests :=
      fun c hc => h _ (mem_requestsOf.mpr ⟨pod, hpod, c, hc, rfl⟩)
    rw [Pod.added, if_neg (not_not.mpr hphase), Pod.nonTerminatedInitContainers_eq] at hadded
    constructor
    · exact fun c hc => hadded c (List.mem_append_left _ hc)
    · intro hnone c hc
      apply hadded c
      rw [if_neg hnone]
      exact List.mem_append_right _ hc
  · intro h r hr
    obtain ⟨pod, hpod, c, hc, rfl⟩ := mem_requestsOf.mp hr
    rw [Pod.added, Pod.nonTerminatedInitContainers_eq] at hc
    split at hc
    · cases hc
    · rename_i hphase
      have hpod' := h pod hpod (not_not.mp hphase)
      rcases List.mem_append.mp hc with hc | hc
      · exact hpod'.1 c hc
      · split at hc
        · cases hc
        · rename_i hnone
          exact hpod'.2 hnone c hc

/-- The sums are those over the containers that count exactly where nothing is lost. -/
theorem consumed_exact_iff (beyond : Int → UInt64) (pods : List Pod) :
    getConsumedCPUAndMemory beyond 0 0 pods =
        .ok (totalOf cpuAmount (requestsOf Pod.counted pods),
          totalOf memoryAmount (requestsOf Pod.counted pods)) ↔ NothingLost pods := by
  have hcpu := totalOf_counted cpuAmount pods
  have hmemory := totalOf_counted memoryAmount pods
  have hexact := @sumResources_exact_iff beyond _ _ (Nat.two_pow_pos 64) (Nat.two_pow_pos 64)
    (requestsOf Pod.added pods)
  simp only [Nat.zero_add] at hexact
  rw [getConsumedCPUAndMemory_eq]
  constructor
  · intro h
    -- What is summed is at most what is added, so that nothing may be left out.
    have hle := sumResources_le h
    simp only [Nat.zero_add] at hle
    have hzero := (leftOut_zero_iff pods).mp ⟨by omega, by omega⟩
    have hleft := (leftOut_zero_iff pods).mpr hzero
    rw [hcpu, hmemory, hleft.1, hleft.2, Nat.add_zero, Nat.add_zero, hexact] at h
    exact ⟨hzero, (added_readable_iff pods).mp h.1, by omega, by omega⟩
  · intro h
    have hleft := (leftOut_zero_iff pods).mpr h.leftOut
    have hsmall := h.cpu
    have hsmall' := h.memory
    rw [hcpu, hmemory, hleft.1, hleft.2, Nat.add_zero, Nat.add_zero, hexact]
    exact ⟨(added_readable_iff pods).mpr h.readable, by omega, by omega⟩

def sidecarPod : Pod where
  phase := podRunning
  initContainers := [⟨ascii "setup", ⟨none, none⟩⟩, ⟨ascii "proxy", ⟨some ⟨100, .unit .milli⟩, none⟩⟩]
  containers := []
  initContainerStatuses :=
    [⟨ascii "setup", false, false, true⟩, ⟨ascii "proxy", false, true, false⟩]

/-- The init container that still runs is not counted. -/
theorem sidecar_not_counted :
    getConsumedCPUAndMemory (fun _ => 0) 0 0 [sidecarPod] = .ok (0, 0) ∧
      getConsumedCPUAndMemory (fun _ => 0) 0 0 [sidecarPod] ≠
        .ok (totalOf cpuAmount (requestsOf Pod.counted [sidecarPod]),
          totalOf memoryAmount (requestsOf Pod.counted [sidecarPod])) := by
  have hnothing : getConsumedCPUAndMemory (fun _ => 0) 0 0 [sidecarPod] = .ok (0, 0) := rfl
  have hcounted : Pod.counted sidecarPod =
      [⟨ascii "proxy", ⟨some ⟨100, .unit .milli⟩, none⟩⟩] := rfl
  refine ⟨hnothing, ?_⟩
  rw [hnothing]
  simp [requestsOf, hcounted, totalOf, cpuAmount, amountOf]

end OpenEverest.K8s
