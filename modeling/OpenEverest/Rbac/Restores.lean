import OpenEverest.Framework.Run
import OpenEverest.Rbac.Lists

/-!
# Requests on restores

A read or a delete looks the stored restore up and checks the cluster it names. An
update checks the cluster that its own object names, and replaces the restore that
is stored under its name.
-/

namespace OpenEverest.Rbac

open Framework GoString Api

def actionDelete : GoString := ascii "delete"

namespace RbacHandler

variable (h : RbacHandler) (namespaceName : GoString)

/-- What a create and an update check of the cluster that their object names. -/
def enforceRestoreRequest (action : GoString) (req : DatabaseClusterRestore) :
    Except RbacError Unit := do
  h.enforce resourceDatabaseClusterRestores action (objectName [namespaceName, req.dbClusterName])
  h.enforceDBRestore namespaceName req.dbClusterName

def createDatabaseClusterRestore (req : DatabaseClusterRestore) :
    Except RbacError DatabaseClusterRestore := do
  h.enforceRestoreRequest namespaceName actionCreate req
  .ok req

def updateDatabaseClusterRestore (req : DatabaseClusterRestore) :
    Except RbacError DatabaseClusterRestore := do
  h.enforceRestoreRequest namespaceName actionUpdate req
  .ok req

/-- The name is what is passed on. -/
def deleteDatabaseClusterRestore (name : GoString) (next : Except Unit DatabaseClusterRestore) :
    Except RbacError GoString := do
  let restore ← fromNext (.wrap "GetDatabaseClusterRestore failed") next
  h.enforce resourceDatabaseClusterRestores actionDelete
    (objectName [namespaceName, restore.dbClusterName])
  .ok name

end RbacHandler

abbrev RestoreStore := GoString → GoString → Option DatabaseClusterRestore

namespace RestoreStore

def put (s : RestoreStore) (namespaceName : GoString) (req : DatabaseClusterRestore) :
    RestoreStore :=
  Function.update s namespaceName (Function.update (s namespaceName) req.name (some req))

/-- `k8sHandler.UpdateDatabaseClusterRestore` replaces an object that exists. -/
def updateDatabaseClusterRestore (s : RestoreStore) (namespaceName : GoString)
    (req : DatabaseClusterRestore) : Option RestoreStore :=
  if (s namespaceName req.name).isSome then some (s.put namespaceName req) else none

end RestoreStore

structure RestoreUpdate where
  handler : RbacHandler
  namespaceName : GoString
  req : DatabaseClusterRestore

def RestoreStore.step (s : RestoreStore) (u : RestoreUpdate) : Option RestoreStore :=
  match u.handler.updateDatabaseClusterRestore u.namespaceName u.req with
  | .error _ => none
  | .ok req => s.updateDatabaseClusterRestore u.namespaceName req

structure RestoreGranted (h : RbacHandler) (namespaceName action clusterName : GoString) :
    Prop where
  action : h.enforce resourceDatabaseClusterRestores action
    (objectName [namespaceName, clusterName]) = .ok ()
  credentials : h.enforce resourceDatabaseClusterCredentials actionRead
    (objectName [namespaceName, clusterName]) = .ok ()
  backups : h.enforce resourceDatabaseClusterBackups actionRead
    (objectName [namespaceName, clusterName]) = .ok ()
  restores : h.enforce resourceDatabaseClusterRestores actionRead
    (objectName [namespaceName, clusterName]) = .ok ()

section Decisions

variable (h : RbacHandler) (namespaceName : GoString) (req : DatabaseClusterRestore)

theorem enforceRestoreRequest_eq_ok (action : GoString) :
    h.enforceRestoreRequest namespaceName action req = .ok () ↔
      RestoreGranted h namespaceName action req.dbClusterName := by
  simp only [RbacHandler.enforceRestoreRequest, RbacHandler.enforceDBRestore, check_bind_eq_ok]
  constructor
  · intro hall
    obtain ⟨haction, hcredentials, hbackups, hrestores⟩ := hall
    exact ⟨haction, hcredentials, hbackups, hrestores⟩
  · intro hg
    exact ⟨hg.action, hg.credentials, hg.backups, hg.restores⟩

theorem updateDatabaseClusterRestore_eq_ok (forwarded : DatabaseClusterRestore) :
    h.updateDatabaseClusterRestore namespaceName req = .ok forwarded ↔
      RestoreGranted h namespaceName actionUpdate req.dbClusterName ∧ forwarded = req := by
  rw [RbacHandler.updateDatabaseClusterRestore, check_bind_eq_ok, enforceRestoreRequest_eq_ok]
  apply and_congr_right
  intro _
  exact ⟨fun heq => (Except.ok.inj heq).symm, fun heq => congrArg Except.ok heq.symm⟩

theorem createDatabaseClusterRestore_eq_ok (forwarded : DatabaseClusterRestore) :
    h.createDatabaseClusterRestore namespaceName req = .ok forwarded ↔
      RestoreGranted h namespaceName actionCreate req.dbClusterName ∧ forwarded = req := by
  rw [RbacHandler.createDatabaseClusterRestore, check_bind_eq_ok, enforceRestoreRequest_eq_ok]
  apply and_congr_right
  intro _
  exact ⟨fun heq => (Except.ok.inj heq).symm, fun heq => congrArg Except.ok heq.symm⟩

theorem deleteDatabaseClusterRestore_eq_ok (name forwarded : GoString)
    (next : Except Unit DatabaseClusterRestore) :
    h.deleteDatabaseClusterRestore namespaceName name next = .ok forwarded ↔
      (∃ restore, next = .ok restore ∧ h.enforce resourceDatabaseClusterRestores actionDelete
        (objectName [namespaceName, restore.dbClusterName]) = .ok ()) ∧ forwarded = name := by
  rw [RbacHandler.deleteDatabaseClusterRestore]
  cases next with
  | error e =>
    constructor
    · intro heq
      cases heq
    · intro ⟨⟨_, hnext, _⟩, _⟩
      cases hnext
  | ok restore =>
    change (h.enforce _ _ _ >>= fun _ => .ok name) = .ok forwarded ↔ _
    rw [check_bind_eq_ok]
    simp only [Except.ok.injEq, exists_eq_left', eq_comm]

/-- What is forwarded is granted for the cluster of the restore stored under its name too. -/
def GrantedForStored (s : RestoreStore) : Prop :=
  ∀ forwarded, h.updateDatabaseClusterRestore namespaceName req = .ok forwarded →
    RestoreGranted h namespaceName actionUpdate req.dbClusterName ∧
      ∀ stored, s namespaceName req.name = some stored →
        RestoreGranted h namespaceName actionUpdate stored.dbClusterName

theorem grantedForStored_iff (s : RestoreStore) :
    GrantedForStored h namespaceName req s ↔
      (RestoreGranted h namespaceName actionUpdate req.dbClusterName →
        ∀ stored, s namespaceName req.name = some stored →
          RestoreGranted h namespaceName actionUpdate stored.dbClusterName) := by
  constructor
  · intro hall hreq
    exact (hall req ((updateDatabaseClusterRestore_eq_ok ..).mpr ⟨hreq, rfl⟩)).2
  · intro himp forwarded hforward
    have hreq := ((updateDatabaseClusterRestore_eq_ok ..).mp hforward).1
    exact ⟨hreq, himp hreq⟩

end Decisions

def ownsCluster (namespaceName clusterName : GoString) : Policy :=
  fun _ _ _ object => decide (object = objectName [namespaceName, clusterName])

theorem objectName_cluster_inj {namespaceName a b : GoString}
    (h : objectName [namespaceName, a] = objectName [namespaceName, b]) : a = b := by
  have happend : namespaceName ++ 47 :: a = namespaceName ++ 47 :: b := by
    simpa [objectName, join, List.intercalate] using h
  exact (List.cons.inj (List.append_cancel_left happend)).2

theorem ownsCluster_enforce (user : User) (namespaceName owned resource action clusterName) :
    (policyHandler (ownsCluster namespaceName owned) user).enforce resource action
        (objectName [namespaceName, clusterName]) = .ok () ↔ clusterName = owned := by
  rw [enforce_policy_eq_ok, Policy.Allows]
  constructor
  · intro hallows
    obtain ⟨_, _, hallow⟩ := hallows
    exact objectName_cluster_inj (of_decide_eq_true hallow)
  · intro heq
    exact ⟨user.subject, List.mem_cons_self, by simp [ownsCluster, heq]⟩

theorem ownsCluster_granted (user : User) (namespaceName owned action clusterName) :
    RestoreGranted (policyHandler (ownsCluster namespaceName owned) user) namespaceName action
      clusterName ↔ clusterName = owned := by
  constructor
  · intro hg
    exact (ownsCluster_enforce ..).mp hg.action
  · intro heq
    have hall := fun resource action =>
      (ownsCluster_enforce user namespaceName owned resource action clusterName).mpr heq
    exact ⟨hall _ _, hall _ _, hall _ _, hall _ _⟩

/-- The request names the cluster of the restore that is stored under its name. -/
def NamesStoredCluster (s : RestoreStore) (namespaceName : GoString)
    (req : DatabaseClusterRestore) : Prop :=
  ∀ stored, s namespaceName req.name = some stored → req.dbClusterName = stored.dbClusterName

/-- A forwarded update is granted for the cluster of the restore it replaces if and only
if its user has there what it needs on the request's cluster. No policy and user
violate this exactly when the request names the stored restore's cluster. -/
theorem updateDatabaseClusterRestore_granted_iff (s : RestoreStore) (namespaceName : GoString)
    (req : DatabaseClusterRestore) :
    (∀ h : RbacHandler, GrantedForStored h namespaceName req s ↔
      (RestoreGranted h namespaceName actionUpdate req.dbClusterName →
        ∀ stored, s namespaceName req.name = some stored →
          RestoreGranted h namespaceName actionUpdate stored.dbClusterName)) ∧
    ((∀ policy user, GrantedForStored (policyHandler policy user) namespaceName req s) ↔
      NamesStoredCluster s namespaceName req) := by
  refine ⟨fun h => grantedForStored_iff h namespaceName req s, ?_⟩
  constructor
  · intro hall stored hstored
    have hgranted := hall (ownsCluster namespaceName req.dbClusterName) ⟨ascii "bob", []⟩
    rw [grantedForStored_iff] at hgranted
    have hreq := (ownsCluster_granted ⟨ascii "bob", []⟩ namespaceName req.dbClusterName
      actionUpdate req.dbClusterName).mpr rfl
    exact ((ownsCluster_granted ..).mp (hgranted hreq stored hstored)).symm
  · intro hnames policy user
    rw [grantedForStored_iff]
    intro hreq stored hstored
    exact hnames stored hstored ▸ hreq

def sampleRestore : DatabaseClusterRestore := ⟨ascii "restore", ascii "alices"⟩

def sampleRestores : RestoreStore := fun namespaceName name =>
  if namespaceName = ascii "ns" ∧ name = ascii "restore" then some sampleRestore else none

def bob : RbacHandler := policyHandler (ownsCluster (ascii "ns") (ascii "bobs")) ⟨ascii "bob", []⟩

def takeOver : RestoreUpdate := ⟨bob, ascii "ns", ⟨ascii "restore", ascii "bobs"⟩⟩

/-- Bob may not update restores of the stored restore's cluster, and the restore is his. -/
theorem restore_taken_over :
    ¬ GrantedForStored bob (ascii "ns") takeOver.req sampleRestores ∧
    bob.enforce resourceDatabaseClusterRestores actionUpdate
      (objectName [ascii "ns", sampleRestore.dbClusterName]) = .error .errInsufficientPermissions ∧
    (sampleRestores.step takeOver).any (fun s =>
      decide (s (ascii "ns") (ascii "restore") = some takeOver.req)) = true := by
  refine ⟨?_, by decide +kernel, by decide +kernel⟩
  rw [grantedForStored_iff]
  intro hall
  have hgranted := hall ((ownsCluster_granted ..).mpr rfl) sampleRestore (by decide +kernel)
  have hsame : sampleRestore.dbClusterName = ascii "bobs" := (ownsCluster_granted ..).mp hgranted
  revert hsame
  decide +kernel

theorem RestoreStore.step_eq_some {s t : RestoreStore} {u : RestoreUpdate}
    (h : s.step u = some t) :
    (s u.namespaceName u.req.name).isSome ∧ t = s.put u.namespaceName u.req := by
  unfold RestoreStore.step at h
  split at h
  · cases h
  · rename_i req hforward
    obtain rfl := ((updateDatabaseClusterRestore_eq_ok ..).mp hforward).2
    unfold RestoreStore.updateDatabaseClusterRestore at h
    split at h
    · rename_i hsome
      exact ⟨hsome, (Option.some.inj h).symm⟩
    · cases h

theorem RestoreStore.step_cluster {s t : RestoreStore} {u : RestoreUpdate}
    (hu : NamesStoredCluster s u.namespaceName u.req) (h : s.step u = some t) (namespaceName name : GoString) :
    (t namespaceName name).map (·.dbClusterName) = (s namespaceName name).map (·.dbClusterName) := by
  obtain ⟨hsome, rfl⟩ := RestoreStore.step_eq_some h
  obtain ⟨stored, hstored⟩ := Option.isSome_iff_exists.mp hsome
  by_cases hns : namespaceName = u.namespaceName
  · subst hns
    by_cases hname : name = u.req.name
    · subst hname
      simp [RestoreStore.put, hstored, hu stored hstored]
    · simp [RestoreStore.put, hname]
  · simp [RestoreStore.put, hns]

theorem RestoreStore.run_cluster {s t : RestoreStore} {us : List RestoreUpdate}
    (hus : AlongRun RestoreStore.step (fun s u => NamesStoredCluster s u.namespaceName u.req) s us)
    (h : run RestoreStore.step s us = some t) (namespaceName name : GoString) :
    (t namespaceName name).map (·.dbClusterName) = (s namespaceName name).map (·.dbClusterName) := by
  apply run_invariant_along (fun t => (t namespaceName name).map (·.dbClusterName) =
    (s namespaceName name).map (·.dbClusterName)) _ rfl hus h
  intro t u t' ht hu hstep
  exact (RestoreStore.step_cluster hu hstep namespaceName name).trans ht

end OpenEverest.Rbac
