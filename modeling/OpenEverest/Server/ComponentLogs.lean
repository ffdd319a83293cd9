import OpenEverest.Rbac.Enforce

/-!
# Logs of a database cluster component

A request names a namespace, a cluster and a pod. The cluster is what the RBAC
layer authorises, and the pod is what the log stream is opened for.
-/

namespace OpenEverest.Server

open Framework GoString Rbac

/-- `api.GetDatabaseClusterComponentLogsParams`. -/
structure LogsParams where
  container : Option GoString
  follow : Option Bool
  tailLines : Option Int
  sinceSeconds : Option Int
  sinceTime : Option Int
  timestamps : Option Bool
  previous : Option Bool
  limitBytes : Option Int

structure PodLogOptions where
  container : GoString
  follow : Bool
  tailLines : Option Int
  sinceSeconds : Option Int
  sinceTime : Option Int
  previous : Bool
  timestamps : Bool
  limitBytes : Option Int

inductive ReadError where
  | eof
  | failed (text : GoString)

structure LogRead where
  data : List UInt8
  err : Option ReadError

/-- A pod with its instance label, which names the cluster it belongs to, and
what the node answers for its logs. -/
structure Pod where
  instanceLabel : Option GoString
  containers : List GoString
  logs : PodLogOptions → Except GoString (List LogRead)

structure PodStore where
  pods : GoString → GoString → Option Pod
  listPodsFails : Bool

def PodStore.getLogs (st : PodStore) (namespaceName podName : GoString) (opts : PodLogOptions) :
    Except GoString (List LogRead) :=
  match st.pods namespaceName podName with
  | none => .error (ascii "pods \"" ++ podName ++ ascii "\" not found")
  | some pod => pod.logs opts

inductive LogError where
  | invalidRequest (text : String)
  | rbac (e : RbacError)
  | limitBytesTooLarge
  | badGateway (text : GoString)
  | read (text : GoString)

/-- The bytes written to the client and the error the handler ends with. -/
structure LogResponse where
  body : List UInt8
  err : Option LogError

def defaultTailLines : Int := 200

def maxLimitBytes : Int := 100 * 1024 * 1024

def getDefaultContainer (st : PodStore) (namespaceName podName : GoString)
    (componentName : Option GoString) : GoString :=
  match componentName with
  | some name => name
  | none =>
    if st.listPodsFails then []
    else match st.pods namespaceName podName with
      | none => []
      | some pod => pod.containers.headD []

def buildPodLogOptions (st : PodStore) (namespaceName componentName : GoString)
    (params : LogsParams) : Except LogError PodLogOptions :=
  let follow := params.follow.getD false
  let tailLines :=
    match params.tailLines with
    | some n => some n
    | none => if follow then none else some defaultTailLines
  if params.limitBytes.any (· > maxLimitBytes) then .error .limitBytesTooLarge
  else .ok
    { container := getDefaultContainer st namespaceName componentName params.container
      follow
      tailLines
      sinceSeconds := params.sinceSeconds
      sinceTime := params.sinceTime
      previous := params.previous.getD false
      timestamps := params.timestamps.getD false
      limitBytes := params.limitBytes }

/-- The loop over the reads, which are finitely many until the request ends. -/
def streamToResponse : List LogRead → LogResponse
  | [] => ⟨[], none⟩
  | r :: rs =>
    match r.err with
    | none => ⟨r.data ++ (streamToResponse rs).body, (streamToResponse rs).err⟩
    | some .eof => ⟨r.data, none⟩
    | some (.failed text) => ⟨r.data, some (.read text)⟩

/-- `handlers.StreamFunc`: namespace, cluster, component and parameters. -/
abbrev StreamFunc := GoString → GoString → GoString → LogsParams → LogResponse

/-- The closure that the HTTP handler hands down, which ignores the cluster. -/
def stream (st : PodStore) : StreamFunc := fun namespaceName _ componentName params =>
  match buildPodLogOptions st namespaceName componentName params with
  | .error e => ⟨[], some e⟩
  | .ok opts =>
    match st.getLogs namespaceName componentName opts with
    | .error text => ⟨[], some (.badGateway (ascii "failed to open log stream: " ++ text))⟩
    | .ok reads => streamToResponse reads

/-- `GetDatabaseClusterComponentLogs` of one handler. -/
abbrev LogsHandler := GoString → GoString → GoString → LogsParams → StreamFunc → LogResponse

def k8sComponentLogs : LogsHandler := fun namespaceName clusterName componentName params stream =>
  stream namespaceName clusterName componentName params

def rbacComponentLogs (h : RbacHandler) (next : LogsHandler) : LogsHandler :=
  fun namespaceName clusterName componentName params stream =>
    match h.enforce resourceDatabaseClusters actionRead (objectName [namespaceName, clusterName]) with
    | .error e => ⟨[], some (.rbac e)⟩
    | .ok _ => next namespaceName clusterName componentName params stream

def validateComponentLogs (next : LogsHandler) : LogsHandler :=
  fun namespaceName clusterName componentName params stream =>
    if params.sinceSeconds.isSome && params.sinceTime.isSome then
      ⟨[], some (.invalidRequest "at most one of sinceSeconds or sinceTime may be specified")⟩
    else next namespaceName clusterName componentName params stream

def getDatabaseClusterComponentLogs (h : RbacHandler) (st : PodStore)
    (namespaceName clusterName componentName : GoString) (params : LogsParams) : LogResponse :=
  validateComponentLogs (rbacComponentLogs h k8sComponentLogs)
    namespaceName clusterName componentName params (stream st)

section Guard

variable (h : RbacHandler) (namespaceName : GoString) (clusters : GoString → Prop)

def ClusterReadable (clusterName : GoString) : Prop :=
  h.enforce resourceDatabaseClusters actionRead (objectName [namespaceName, clusterName]) = .ok ()

def PodReadable (pod : Pod) : Prop :=
  ∀ clusterName, clusters clusterName → pod.instanceLabel = some clusterName →
    ClusterReadable h namespaceName clusterName

def ValidParams (params : LogsParams) : Prop :=
  ¬ (params.sinceSeconds.isSome ∧ params.sinceTime.isSome)

def Emits (st : PodStore) (podName : GoString) (params : LogsParams) (pod : Pod) : Prop :=
  ∃ opts reads, buildPodLogOptions st namespaceName podName params = .ok opts ∧
    pod.logs opts = .ok reads ∧ (streamToResponse reads).body ≠ []

def StreamsOnlyReadable (st : PodStore) : Prop :=
  ∀ clusterName podName params pod, st.pods namespaceName podName = some pod →
    (getDatabaseClusterComponentLogs h st namespaceName clusterName podName params).body ≠ [] →
    PodReadable h namespaceName clusters pod

def LogsReadable (st : PodStore) : Prop :=
  ∀ podName params pod, st.pods namespaceName podName = some pod → ValidParams params →
    Emits namespaceName st podName params pod → PodReadable h namespaceName clusters pod

/-- The stores differ only in pods of clusters that the user may not read. -/
structure DifferInUnreadable (st st' : PodStore) : Prop where
  listPods : st.listPodsFails = st'.listPodsFails
  pods : ∀ podName, st.pods namespaceName podName = st'.pods namespaceName podName ∨
    (∀ pod, st.pods namespaceName podName = some pod → ¬ PodReadable h namespaceName clusters pod) ∧
    (∀ pod, st'.pods namespaceName podName = some pod → ¬ PodReadable h namespaceName clusters pod)

/-- Pods of unreadable clusters do not show in the answer to any request. -/
def Noninterfering : Prop :=
  ∀ st st', DifferInUnreadable h namespaceName clusters st st' →
    ∀ clusterName podName params,
      getDatabaseClusterComponentLogs h st namespaceName clusterName podName params =
        getDatabaseClusterComponentLogs h st' namespaceName clusterName podName params

end Guard

section Responses

variable {h : RbacHandler} {namespaceName : GoString} {clusters : GoString → Prop}
  {st st' : PodStore} {clusterName podName : GoString} {params : LogsParams}

theorem response_of_readable (hvalid : ValidParams params)
    (hread : ClusterReadable h namespaceName clusterName) :
    getDatabaseClusterComponentLogs h st namespaceName clusterName podName params =
      stream st namespaceName clusterName podName params := by
  unfold ValidParams at hvalid
  unfold ClusterReadable at hread
  simp only [getDatabaseClusterComponentLogs, validateComponentLogs, rbacComponentLogs,
    k8sComponentLogs, Bool.and_eq_true, hvalid, if_false, hread]

/-- A request for a cluster that may not be read gets one answer whatever pods there are. -/
theorem response_of_unreadable (podName : GoString) (params : LogsParams)
    (hread : ¬ ClusterReadable h namespaceName clusterName) :
    ∃ refused : LogResponse, refused.body = [] ∧ ∀ st,
      getDatabaseClusterComponentLogs h st namespaceName clusterName podName params = refused := by
  cases hcheck : h.enforce resourceDatabaseClusters actionRead
      (objectName [namespaceName, clusterName]) with
  | ok a => exact absurd hcheck hread
  | error e =>
    simp only [getDatabaseClusterComponentLogs, validateComponentLogs, rbacComponentLogs, hcheck]
    split
    · exact ⟨_, rfl, fun _ => rfl⟩
    · exact ⟨_, rfl, fun _ => rfl⟩

theorem stream_body_ne_nil {pod : Pod} (hpod : st.pods namespaceName podName = some pod) :
    (stream st namespaceName clusterName podName params).body ≠ [] ↔
      Emits namespaceName st podName params pod := by
  unfold stream Emits
  cases hopts : buildPodLogOptions st namespaceName podName params with
  | error e => simp
  | ok opts =>
    simp only [PodStore.getLogs, hpod, Except.ok.injEq]
    cases hreads : pod.logs opts with
    | error text => simp [hreads]
    | ok reads => simp [hreads]

theorem body_ne_nil_iff {pod : Pod} (hpod : st.pods namespaceName podName = some pod) :
    (getDatabaseClusterComponentLogs h st namespaceName clusterName podName params).body ≠ [] ↔
      ValidParams params ∧ ClusterReadable h namespaceName clusterName ∧
        Emits namespaceName st podName params pod := by
  by_cases hvalid : ValidParams params
  · by_cases hread : ClusterReadable h namespaceName clusterName
    · rw [response_of_readable hvalid hread, stream_body_ne_nil hpod]
      exact ⟨fun hemits => ⟨hvalid, hread, hemits⟩, fun hall => hall.2.2⟩
    · obtain ⟨refused, hempty, hrefused⟩ := response_of_unreadable podName params hread
      simp [hrefused, hempty, hread]
  · have hboth : params.sinceSeconds.isSome ∧ params.sinceTime.isSome := not_not.mp hvalid
    simp [getDatabaseClusterComponentLogs, validateComponentLogs, hboth, hvalid]

theorem response_congr (hlist : st.listPodsFails = st'.listPodsFails)
    (hpods : st.pods namespaceName podName = st'.pods namespaceName podName) :
    getDatabaseClusterComponentLogs h st namespaceName clusterName podName params =
      getDatabaseClusterComponentLogs h st' namespaceName clusterName podName params := by
  have hstream : stream st namespaceName clusterName podName params =
      stream st' namespaceName clusterName podName params := by
    simp only [stream, buildPodLogOptions, getDefaultContainer, PodStore.getLogs, hlist, hpods]
  simp only [getDatabaseClusterComponentLogs, validateComponentLogs, rbacComponentLogs,
    k8sComponentLogs, hstream]

theorem streamsOnlyReadable_iff :
    StreamsOnlyReadable h namespaceName clusters st ↔
      ((∃ clusterName, ClusterReadable h namespaceName clusterName) →
        LogsReadable h namespaceName clusters st) := by
  constructor
  · rintro hall ⟨clusterName, hread⟩ podName params pod hpod hvalid hemits
    exact hall clusterName podName params pod hpod
      ((body_ne_nil_iff hpod).mpr ⟨hvalid, hread, hemits⟩)
  · intro hlogs clusterName podName params pod hpod hbody
    obtain ⟨hvalid, hread, hemits⟩ := (body_ne_nil_iff hpod).mp hbody
    exact hlogs ⟨clusterName, hread⟩ podName params pod hpod hvalid hemits

end Responses

section TwoRuns

variable {h : RbacHandler} {namespaceName : GoString} {clusters : GoString → Prop}

def noPods : PodStore := ⟨fun _ _ => none, false⟩

def podOf (clusterName : GoString) : Pod :=
  ⟨some clusterName, [ascii "database"], fun _ => .ok [⟨ascii "secret", some .eof⟩]⟩

def onePod (clusterName : GoString) : PodStore := ⟨fun _ _ => some (podOf clusterName), false⟩

def noParams : LogsParams := ⟨none, none, none, none, none, none, none, none⟩

theorem podOf_emits (st : PodStore) (podName clusterName : GoString) :
    Emits namespaceName st podName noParams (podOf clusterName) :=
  ⟨_, _, rfl, rfl, by decide⟩

theorem onePod_differs {clusterName : GoString} (hcluster : clusters clusterName)
    (hunread : ¬ ClusterReadable h namespaceName clusterName) :
    DifferInUnreadable h namespaceName clusters noPods (onePod clusterName) := by
  refine ⟨rfl, fun podName => .inr ⟨fun pod hpod => ?_, fun pod hpod => ?_⟩⟩
  · cases hpod
  · obtain rfl := Option.some.inj hpod
    exact fun hread => hunread (hread clusterName hcluster rfl)

theorem noninterfering_iff :
    Noninterfering h namespaceName clusters ↔
      ((∃ clusterName, ClusterReadable h namespaceName clusterName) →
        ∀ clusterName, clusters clusterName → ClusterReadable h namespaceName clusterName) := by
  constructor
  · rintro hsame ⟨readName, hread⟩ clusterName hcluster
    by_contra hunread
    have hvalid : ValidParams noParams := by simp [ValidParams, noParams]
    have hpod : (onePod clusterName).pods namespaceName clusterName = some (podOf clusterName) :=
      rfl
    have hbody := (body_ne_nil_iff hpod).mpr ⟨hvalid, hread, podOf_emits _ _ clusterName⟩
    rw [← hsame _ _ (onePod_differs hcluster hunread), response_of_readable hvalid hread] at hbody
    exact hbody rfl
  · intro hall st st' hdiffer clusterName podName params
    by_cases hread : ClusterReadable h namespaceName clusterName
    · refine response_congr hdiffer.listPods ?_
      have hreadable : ∀ pod, PodReadable h namespaceName clusters pod :=
        fun pod name hname _ => hall ⟨clusterName, hread⟩ name hname
      rcases hdiffer.pods podName with hsame | ⟨hleft, hright⟩
      · exact hsame
      · have hnone : st.pods namespaceName podName = none :=
          Option.eq_none_iff_forall_not_mem.mpr fun pod hpod => hleft pod hpod (hreadable pod)
        have hnone' : st'.pods namespaceName podName = none :=
          Option.eq_none_iff_forall_not_mem.mpr fun pod hpod => hright pod hpod (hreadable pod)
        rw [hnone, hnone']
    · obtain ⟨refused, -, hrefused⟩ := response_of_unreadable podName params hread
      rw [hrefused st, hrefused st']

/-- Streams stay with readable clusters if and only if a user who may read some
cluster name may read the cluster of every pod with logs, and no pod of an
unreadable cluster shows if and only if such a user may read every cluster. -/
theorem componentLogs_guarded_iff (h : RbacHandler) (namespaceName : GoString)
    (clusters : GoString → Prop) :
    (∀ st, StreamsOnlyReadable h namespaceName clusters st ↔
      ((∃ clusterName, ClusterReadable h namespaceName clusterName) →
        LogsReadable h namespaceName clusters st)) ∧
    (Noninterfering h namespaceName clusters ↔
      ((∃ clusterName, ClusterReadable h namespaceName clusterName) →
        ∀ clusterName, clusters clusterName → ClusterReadable h namespaceName clusterName)) :=
  ⟨fun _ => streamsOnlyReadable_iff, noninterfering_iff⟩

/-- The one permission is to read the cluster `a` of the namespace `ns`. -/
def readsOneCluster : Policy := fun sub resource action object =>
  decide (sub = ascii "alice" ∧ resource = resourceDatabaseClusters ∧ action = actionRead ∧
    object = ascii "ns/a")

def oneClusterReader : RbacHandler := policyHandler readsOneCluster ⟨ascii "alice", []⟩

def bothClusters (clusterName : GoString) : Prop := clusterName = ascii "a" ∨ clusterName = ascii "b"

theorem b_unreadable : ¬ ClusterReadable oneClusterReader (ascii "ns") (ascii "b") := by
  unfold ClusterReadable
  decide +kernel

/-- The logs of a pod of `b` are streamed to a user who may read `a` only, and
the answer tells whether there is such a pod. -/
theorem componentLogs_unguarded :
    (getDatabaseClusterComponentLogs oneClusterReader (onePod (ascii "b")) (ascii "ns") (ascii "a")
      (ascii "b-0") noParams).body = ascii "secret" ∧
    ¬ StreamsOnlyReadable oneClusterReader (ascii "ns") bothClusters (onePod (ascii "b")) ∧
    (getDatabaseClusterComponentLogs oneClusterReader noPods (ascii "ns") (ascii "a")
      (ascii "b-0") noParams).body = [] ∧
    ¬ Noninterfering oneClusterReader (ascii "ns") bothClusters := by
  have hsecret : (getDatabaseClusterComponentLogs oneClusterReader (onePod (ascii "b"))
      (ascii "ns") (ascii "a") (ascii "b-0") noParams).body = ascii "secret" := by decide +kernel
  have hnone : (getDatabaseClusterComponentLogs oneClusterReader noPods
      (ascii "ns") (ascii "a") (ascii "b-0") noParams).body = [] := by decide +kernel
  refine ⟨hsecret, ?_, hnone, ?_⟩
  · intro hall
    have hpod := hall (ascii "a") (ascii "b-0") noParams (podOf (ascii "b")) rfl
      (by rw [hsecret]; decide)
    exact b_unreadable (hpod (ascii "b") (.inr rfl) rfl)
  · intro hsame
    have hresp := hsame _ _ (onePod_differs (.inr rfl) b_unreadable) (ascii "a") (ascii "b-0")
      noParams
    rw [hresp, hsecret] at hnone
    cases hnone

end TwoRuns

end OpenEverest.Server
