import OpenEverest.Api.Objects
import OpenEverest.Rbac.DatabaseCluster

/-!
# Listing and getting

Six of the lists skip the items the user may not read and stop at any other
failure. The lists of pod-scheduling policies, load-balancer configs and
split-horizon DNS configs delete every item whose check fails, for any reason.
-/

namespace OpenEverest.Rbac

open Framework GoString Api

def resourcePodSchedulingPolicies : GoString := ascii "pod-scheduling-policies"

section Filters

variable {α : Type}

/-- The loop over the items: `ErrInsufficientPermissions` skips one, another error ends it. -/
def filterReadable (onEnforce : RbacError → RbacError) (check : α → Except RbacError Unit) :
    List α → Except RbacError (List α)
  | [] => .ok []
  | item :: items =>
    match check item with
    | .ok _ => do
      let filtered ← filterReadable onEnforce check items
      .ok (item :: filtered)
    | .error e =>
      if e.isInsufficient then filterReadable onEnforce check items else .error (onEnforce e)

/-- `slices.DeleteFunc` of the items whose check fails. -/
def deleteUnreadable (check : α → Except RbacError Unit) (items : List α) : List α :=
  items.filter fun item => (check item).isOk

/-- The next handler's answer, its error passed on through `onNext`. -/
def fromNext (onNext : RbacError → RbacError) : Except Unit α → Except RbacError α
  | .error _ => .error (onNext .next)
  | .ok a => .ok a

end Filters

namespace RbacHandler

variable (h : RbacHandler) (namespaceName : GoString)

def listDatabaseClusters (next : Except Unit (List DatabaseCluster)) :
    Except RbacError (List DatabaseCluster) := do
  let items ← fromNext (.wrap "ListDatabaseClusters failed") next
  filterReadable (.wrap "enforce failed") h.enforceDBClusterRead items

def getDatabaseCluster (next : Except Unit DatabaseCluster) : Except RbacError DatabaseCluster := do
  let result ← fromNext id next
  h.enforceDBClusterRead result
  .ok result

def enforceDBBackupRead (dbbackup : DatabaseClusterBackup) : Except RbacError Unit := do
  h.enforce resourceBackupStorages actionRead
    (objectName [dbbackup.namespaceName, dbbackup.backupStorageName])
  h.enforce resourceDatabaseClusterBackups actionRead
    (objectName [dbbackup.namespaceName, dbbackup.dbClusterName])

def listDatabaseClusterBackups (next : Except Unit (List DatabaseClusterBackup)) :
    Except RbacError (List DatabaseClusterBackup) := do
  let items ← fromNext id next
  filterReadable id h.enforceDBBackupRead items

/-- The backup is read twice: for the check, and for the answer. -/
def getDatabaseClusterBackup (next again : Except Unit DatabaseClusterBackup) :
    Except RbacError DatabaseClusterBackup := do
  let dbbackup ← fromNext id next
  h.enforceDBBackupRead dbbackup
  fromNext id again

def enforceDBRestoreRead (restore : DatabaseClusterRestore) : Except RbacError Unit :=
  h.enforce resourceDatabaseClusterRestores actionRead
    (objectName [namespaceName, restore.dbClusterName])

def listDatabaseClusterRestores (next : Except Unit (List DatabaseClusterRestore)) :
    Except RbacError (List DatabaseClusterRestore) := do
  let items ← fromNext id next
  filterReadable id (h.enforceDBRestoreRead namespaceName) items

def getDatabaseClusterRestore (next : Except Unit DatabaseClusterRestore) :
    Except RbacError DatabaseClusterRestore := do
  let restore ← fromNext (.wrap "GetDatabaseClusterRestore failed") next
  h.enforceDBRestoreRead namespaceName restore
  .ok restore

/-- Read on an object of a namespace, by its name. -/
def enforceNamedRead (resource name : GoString) : Except RbacError Unit :=
  h.enforce resource actionRead (objectName [namespaceName, name])

/-- A `Get` that checks the name it was asked for, before it reads. -/
def getNamed {α : Type} (resource name : GoString) (next : Except Unit α) : Except RbacError α := do
  h.enforceNamedRead namespaceName resource name
  fromNext id next

def listBackupStorages (next : Except Unit (List BackupStorage)) :
    Except RbacError (List BackupStorage) := do
  let items ← fromNext (.wrap "ListBackupStorages failed") next
  filterReadable (.wrap "enforce failed")
    (fun bs => h.enforceNamedRead namespaceName resourceBackupStorages bs.name) items

def getBackupStorage (name : GoString) (next : Except Unit BackupStorage) :
    Except RbacError BackupStorage :=
  h.getNamed namespaceName resourceBackupStorages name next

def listDatabaseEngines (next : Except Unit (List DatabaseEngine)) :
    Except RbacError (List DatabaseEngine) := do
  let items ← fromNext id next
  filterReadable (.wrap "enforce failed")
    (fun dbengine => h.enforceNamedRead namespaceName resourceDatabaseEngines dbengine.name) items

def getDatabaseEngine (name : GoString) (next : Except Unit DatabaseEngine) :
    Except RbacError DatabaseEngine :=
  h.getNamed namespaceName resourceDatabaseEngines name next

def listMonitoringInstances (next : Except Unit (List MonitoringConfig)) :
    Except RbacError (List MonitoringConfig) := do
  let items ← fromNext (.wrap "ListMonitoringInstances failed") next
  filterReadable (.wrap "enforce failed")
    (fun mon => h.enforceNamedRead namespaceName resourceMonitoringInstances mon.name) items

def getMonitoringInstance (name : GoString) (next : Except Unit MonitoringConfig) :
    Except RbacError MonitoringConfig :=
  h.getNamed namespaceName resourceMonitoringInstances name next

/-- Read on an object of the whole cluster, by its name. -/
def enforceGlobalRead (resource name : GoString) : Except RbacError Unit :=
  h.enforce resource actionRead (objectName [name])

def getGlobal {α : Type} (resource name : GoString) (next : Except Unit α) :
    Except RbacError α := do
  h.enforceGlobalRead resource name
  fromNext id next

def listPodSchedulingPolicies (next : Except Unit (List PodSchedulingPolicy)) :
    Except RbacError (List PodSchedulingPolicy) := do
  let items ← fromNext (.wrap "ListPodSchedulingPolicies failed") next
  .ok (deleteUnreadable
    (fun psp => h.enforceGlobalRead resourcePodSchedulingPolicies psp.name) items)

def getPodSchedulingPolicy (name : GoString) (next : Except Unit PodSchedulingPolicy) :
    Except RbacError PodSchedulingPolicy :=
  h.getGlobal resourcePodSchedulingPolicies name next

def listLoadBalancerConfigs (next : Except Unit (List LoadBalancerConfig)) :
    Except RbacError (List LoadBalancerConfig) := do
  let items ← fromNext (.wrap "ListLoadBalancerConfigs failed") next
  .ok (deleteUnreadable
    (fun lbc => h.enforceGlobalRead resourceLoadBalancerConfigs lbc.name) items)

def getLoadBalancerConfig (name : GoString) (next : Except Unit LoadBalancerConfig) :
    Except RbacError LoadBalancerConfig :=
  h.getGlobal resourceLoadBalancerConfigs name next

/-- The namespace checked is the item's own, where `GetSplitHorizonDNSConfig` has the request's. -/
def listSplitHorizonDNSConfigs (next : Except Unit (List SplitHorizonDNSConfig)) :
    Except RbacError (List SplitHorizonDNSConfig) := do
  let items ← fromNext (.wrap "ListSplitHorizonDNSConfigs failed") next
  .ok (deleteUnreadable
    (fun shdc => h.enforceNamedRead shdc.namespaceName
      resourceEngineFeaturesSplitHorizonDNSConfigs shdc.name) items)

def getSplitHorizonDNSConfig (name : GoString) (next : Except Unit SplitHorizonDNSConfig) :
    Except RbacError SplitHorizonDNSConfig :=
  h.getNamed namespaceName resourceEngineFeaturesSplitHorizonDNSConfigs name next

end RbacHandler

section Agreement

variable {α : Type}

/-- `Get` of each listed item, answered with the item, decides what the list holds. -/
structure MatchesGet (get : α → Except RbacError α) (items : List α)
    (list : Except RbacError (List α)) : Prop where
  readable : (∀ a ∈ items, ∀ e, get a = .error e → e.isInsufficient = true) →
    list = .ok (items.filter fun a => (get a).isOk)
  fails : ∀ a ∈ items, ∀ e, get a = .error e → e.isInsufficient = false → ∃ e', list = .error e'

/-- A check that fails only for want of permission. -/
def AnswersOrDenies (check : Except RbacError Unit) : Prop :=
  ∀ e, check = .error e → e.isInsufficient = true

variable {check : α → Except RbacError Unit}

theorem filterReadable_of_answers (onEnforce : RbacError → RbacError) (items : List α)
    (h : ∀ a ∈ items, AnswersOrDenies (check a)) :
    filterReadable onEnforce check items = .ok (items.filter fun a => (check a).isOk) := by
  induction items with
  | nil => rfl
  | cons a items ih =>
    have hrest := ih fun b hb => h b (List.mem_cons_of_mem a hb)
    have ha := h a List.mem_cons_self
    cases hcheck : check a with
    | ok u =>
      simp [filterReadable, hcheck, hrest, Except.isOk, Except.toBool, bind, Except.bind]
    | error e =>
      have he := ha e hcheck
      simp [filterReadable, hcheck, hrest, he, Except.isOk, Except.toBool]

theorem filterReadable_fails (onEnforce : RbacError → RbacError) (items : List α) (a : α)
    (ha : a ∈ items) (e : RbacError) (hcheck : check a = .error e)
    (he : e.isInsufficient = false) : ∃ e', filterReadable onEnforce check items = .error e' := by
  induction items with
  | nil => simp at ha
  | cons b items ih =>
    rcases List.mem_cons.mp ha with rfl | ha
    · exact ⟨onEnforce e, by simp [filterReadable, hcheck, he]⟩
    · obtain ⟨e', hrest⟩ := ih ha
      cases hb : check b with
      | ok u => exact ⟨e', by simp [filterReadable, hb, hrest, bind, Except.bind]⟩
      | error d =>
        by_cases hd : d.isInsufficient = true
        · exact ⟨e', by simp [filterReadable, hb, hrest, hd]⟩
        · exact ⟨onEnforce d, by simp [filterReadable, hb, hd]⟩

variable (get : α → Except RbacError α) {items : List α}

private theorem error_iff (hget : ∀ a ∈ items, get a = (check a).map fun _ => a) {a : α}
    (ha : a ∈ items) (e : RbacError) : get a = .error e ↔ check a = .error e := by
  rw [hget a ha]
  cases check a <;> simp [Except.map]

private theorem filter_isOk (hget : ∀ a ∈ items, get a = (check a).map fun _ => a) :
    (items.filter fun a => (get a).isOk) = items.filter fun a => (check a).isOk := by
  apply List.filter_congr
  intro a ha
  rw [hget a ha]
  cases check a <;> rfl

/-- A list that skips what its `Get` denies agrees with it. -/
theorem matchesGet_filterReadable (onEnforce : RbacError → RbacError)
    (hget : ∀ a ∈ items, get a = (check a).map fun _ => a) :
    MatchesGet get items (filterReadable onEnforce check items) := by
  constructor
  · intro hdenies
    rw [filter_isOk get hget]
    have hanswers : ∀ a ∈ items, AnswersOrDenies (check a) := by
      intro a ha e he
      exact hdenies a ha e ((error_iff get hget ha e).mpr he)
    exact filterReadable_of_answers onEnforce items hanswers
  · intro a ha e he hother
    have hcheck := (error_iff get hget ha e).mp he
    exact filterReadable_fails onEnforce items a ha e hcheck hother

/-- A list that deletes whatever fails agrees when only permissions are missing. -/
theorem matchesGet_deleteUnreadable_iff
    (hget : ∀ a ∈ items, get a = (check a).map fun _ => a) :
    MatchesGet get items (.ok (deleteUnreadable check items)) ↔
      ∀ a ∈ items, AnswersOrDenies (check a) := by
  constructor
  · intro hmatch a ha e he
    by_contra hother
    have hget_error := (error_iff get hget ha e).mpr he
    have hfails := hmatch.fails a ha e hget_error (by simpa using hother)
    simp at hfails
  · intro hanswers
    constructor
    · intro _
      rw [filter_isOk get hget, deleteUnreadable]
    · intro a ha e he hother
      have hdenied := hanswers a ha e ((error_iff get hget ha e).mp he)
      simp [hother] at hdenied

end Agreement

/-- The items the next handler lists. It lists split-horizon DNS configs of one namespace. -/
structure ListedItems (namespaceName : GoString) where
  databaseClusters : List DatabaseCluster
  databaseClusterBackups : List DatabaseClusterBackup
  databaseClusterRestores : List DatabaseClusterRestore
  backupStorages : List BackupStorage
  databaseEngines : List DatabaseEngine
  monitoringInstances : List MonitoringConfig
  podSchedulingPolicies : List PodSchedulingPolicy
  loadBalancerConfigs : List LoadBalancerConfig
  splitHorizonDNSConfigs : List SplitHorizonDNSConfig
  namespaceName_eq : ∀ shdc ∈ splitHorizonDNSConfigs, shdc.namespaceName = namespaceName

section Lists

variable (h : RbacHandler) {namespaceName : GoString} (items : ListedItems namespaceName)

structure ListsMatchGets : Prop where
  databaseClusters : MatchesGet (fun db => h.getDatabaseCluster (.ok db)) items.databaseClusters
    (h.listDatabaseClusters (.ok items.databaseClusters))
  databaseClusterBackups : MatchesGet (fun b => h.getDatabaseClusterBackup (.ok b) (.ok b))
    items.databaseClusterBackups (h.listDatabaseClusterBackups (.ok items.databaseClusterBackups))
  databaseClusterRestores : MatchesGet
    (fun r => h.getDatabaseClusterRestore namespaceName (.ok r)) items.databaseClusterRestores
    (h.listDatabaseClusterRestores namespaceName (.ok items.databaseClusterRestores))
  backupStorages : MatchesGet (fun bs => h.getBackupStorage namespaceName bs.name (.ok bs))
    items.backupStorages (h.listBackupStorages namespaceName (.ok items.backupStorages))
  databaseEngines : MatchesGet
    (fun engine => h.getDatabaseEngine namespaceName engine.name (.ok engine))
    items.databaseEngines (h.listDatabaseEngines namespaceName (.ok items.databaseEngines))
  monitoringInstances : MatchesGet
    (fun mon => h.getMonitoringInstance namespaceName mon.name (.ok mon))
    items.monitoringInstances
    (h.listMonitoringInstances namespaceName (.ok items.monitoringInstances))
  podSchedulingPolicies : MatchesGet (fun psp => h.getPodSchedulingPolicy psp.name (.ok psp))
    items.podSchedulingPolicies (h.listPodSchedulingPolicies (.ok items.podSchedulingPolicies))
  loadBalancerConfigs : MatchesGet (fun lbc => h.getLoadBalancerConfig lbc.name (.ok lbc))
    items.loadBalancerConfigs (h.listLoadBalancerConfigs (.ok items.loadBalancerConfigs))
  splitHorizonDNSConfigs : MatchesGet
    (fun shdc => h.getSplitHorizonDNSConfig namespaceName shdc.name (.ok shdc))
    items.splitHorizonDNSConfigs
    (h.listSplitHorizonDNSConfigs (.ok items.splitHorizonDNSConfigs))

/-- No check of a list that deletes fails for another reason than permissions. -/
structure DeletesOnlyDenied : Prop where
  podSchedulingPolicies : ∀ psp ∈ items.podSchedulingPolicies,
    AnswersOrDenies (h.enforceGlobalRead resourcePodSchedulingPolicies psp.name)
  loadBalancerConfigs : ∀ lbc ∈ items.loadBalancerConfigs,
    AnswersOrDenies (h.enforceGlobalRead resourceLoadBalancerConfigs lbc.name)
  splitHorizonDNSConfigs : ∀ shdc ∈ items.splitHorizonDNSConfigs,
    AnswersOrDenies (h.enforceNamedRead shdc.namespaceName
      resourceEngineFeaturesSplitHorizonDNSConfigs shdc.name)

omit items in
private theorem getChecked_eq_map {α : Type} (check : Except RbacError Unit) (a : α) :
    (do check; .ok a : Except RbacError α) = check.map fun _ => a := by
  cases check <;> rfl

theorem listsMatchGets_iff : ListsMatchGets h items ↔ DeletesOnlyDenied h items := by
  have hpsps := matchesGet_deleteUnreadable_iff
    (fun psp => h.getPodSchedulingPolicy psp.name (.ok psp))
    fun psp (_ : psp ∈ items.podSchedulingPolicies) =>
      getChecked_eq_map (h.enforceGlobalRead resourcePodSchedulingPolicies psp.name) psp
  have hlbcs := matchesGet_deleteUnreadable_iff
    (fun lbc => h.getLoadBalancerConfig lbc.name (.ok lbc))
    fun lbc (_ : lbc ∈ items.loadBalancerConfigs) =>
      getChecked_eq_map (h.enforceGlobalRead resourceLoadBalancerConfigs lbc.name) lbc
  have hshdc_get : ∀ shdc ∈ items.splitHorizonDNSConfigs,
      h.getSplitHorizonDNSConfig namespaceName shdc.name (.ok shdc) =
        (h.enforceNamedRead shdc.namespaceName resourceEngineFeaturesSplitHorizonDNSConfigs
          shdc.name).map fun _ => shdc := by
    intro shdc hmem
    rw [items.namespaceName_eq shdc hmem]
    exact getChecked_eq_map _ shdc
  have hshdcs := matchesGet_deleteUnreadable_iff
    (fun shdc => h.getSplitHorizonDNSConfig namespaceName shdc.name (.ok shdc)) hshdc_get
  constructor
  · intro hlists
    exact ⟨hpsps.mp hlists.podSchedulingPolicies, hlbcs.mp hlists.loadBalancerConfigs,
      hshdcs.mp hlists.splitHorizonDNSConfigs⟩
  · intro hdenied
    exact
      { databaseClusters := matchesGet_filterReadable _ _ fun db _ =>
          getChecked_eq_map (h.enforceDBClusterRead db) db
        databaseClusterBackups := matchesGet_filterReadable _ _ fun b _ =>
          getChecked_eq_map (h.enforceDBBackupRead b) b
        databaseClusterRestores := matchesGet_filterReadable _ _ fun r _ =>
          getChecked_eq_map (h.enforceDBRestoreRead namespaceName r) r
        backupStorages := matchesGet_filterReadable _ _ fun bs _ =>
          getChecked_eq_map (h.enforceNamedRead namespaceName resourceBackupStorages bs.name) bs
        databaseEngines := matchesGet_filterReadable _ _ fun engine _ =>
          getChecked_eq_map
            (h.enforceNamedRead namespaceName resourceDatabaseEngines engine.name) engine
        monitoringInstances := matchesGet_filterReadable _ _ fun mon _ =>
          getChecked_eq_map
            (h.enforceNamedRead namespaceName resourceMonitoringInstances mon.name) mon
        podSchedulingPolicies := hpsps.mpr hdenied.podSchedulingPolicies
        loadBalancerConfigs := hlbcs.mpr hdenied.loadBalancerConfigs
        splitHorizonDNSConfigs := hshdcs.mpr hdenied.splitHorizonDNSConfigs }

/-- An enforcer that fails on every request, as it does on a malformed pattern. -/
def failingHandler : RbacHandler := ⟨fun _ _ _ _ => .error (), .ok ⟨ascii "alice", []⟩⟩

def sampleItems : ListedItems (ascii "ns") where
  databaseClusters := []
  databaseClusterBackups := []
  databaseClusterRestores := []
  backupStorages := []
  databaseEngines := []
  monitoringInstances := []
  podSchedulingPolicies := []
  loadBalancerConfigs := [⟨ascii "lbc"⟩]
  splitHorizonDNSConfigs := []
  namespaceName_eq := by simp

/-- The list is empty and no error, where its `Get` fails for another reason. -/
theorem lists_differ_from_gets : ¬ ListsMatchGets failingHandler sampleItems := by
  intro hlists
  have hfails := hlists.loadBalancerConfigs.fails ⟨ascii "lbc"⟩ (by decide)
    (.wrap "enforce error" .enforcer) rfl rfl
  obtain ⟨e, he⟩ := hfails
  have hlist : failingHandler.listLoadBalancerConfigs (.ok sampleItems.loadBalancerConfigs) =
      .ok [] := rfl
  rw [hlist] at he
  cases he

end Lists

end OpenEverest.Rbac
