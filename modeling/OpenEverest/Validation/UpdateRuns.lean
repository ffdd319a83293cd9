import OpenEverest.Framework.Validated
import OpenEverest.Validation.DatabaseCluster

/-!
# Runs of update requests

An update request reads the stored cluster, checks its own object against it and
writes with the resource version it came with. The connector reads without a
cache, so the cluster checked is at least as new as that version.
-/

namespace OpenEverest.Validation

open Framework Api

/-- An update request: the object, its resource version, and what its checks look up. -/
structure UpdateRequest where
  db : DatabaseCluster
  resourceVersion : Nat
  handler : ValidateHandler
  backups : Except Unit (List DatabaseClusterBackup)

abbrev UpdateClient := Client DatabaseCluster (Except ValidationError Unit)

/-- The object stored for a request: the status is not written with it. -/
def UpdateRequest.stored (r : UpdateRequest) (current : DatabaseCluster) : DatabaseCluster :=
  { r.db with status := current.status }

/-- The second read, the check against it and the write. The resource definition lets
no update change the engine type, which the server compares with what is replaced. -/
def UpdateRequest.updateChecked (r : UpdateRequest) : UpdateClient :=
  .get fun
    | none => .done (.error .getDatabaseCluster)
    | some current =>
      match validateDatabaseClusterOnUpdate r.handler r.db current.value with
      | .error e => .done (.error e)
      | .ok _ =>
        if r.db.spec.engine.type ≠ current.value.spec.engine.type then
          .done (.error .engineTypeChanged)
        else .update r.resourceVersion (r.stored current.value) fun ok =>
          .done (if ok then .ok () else .error .conflict)

/-- The checks of the object, before the stored cluster is read for the update. -/
def UpdateRequest.checkCR (r : UpdateRequest) (existing : Except Unit (Option DatabaseCluster)) :
    UpdateClient :=
  match validateDatabaseClusterCR r.handler existing r.backups r.db with
  | .error e => .done (.error e)
  | .ok _ => r.updateChecked

def readCluster : Option (Versioned DatabaseCluster) → Except Unit (Option DatabaseCluster)
  | none => .error ()
  | some copy => .ok (some copy.value)

/-- `validateHandler.UpdateDatabaseCluster`. A PostgreSQL cluster is read once more before. -/
def UpdateRequest.updateDatabaseCluster (r : UpdateRequest) : UpdateClient :=
  if r.db.spec.engine.type = databaseEnginePostgresql then
    .get fun existing => r.checkCR (readCluster existing)
  else r.checkCR (.ok none)

/-- A write of another component, which changes the status of the copy it read. -/
def updateStatus (status : DatabaseClusterStatus) : UpdateClient :=
  .get fun
    | none => .done (.error .getDatabaseCluster)
    | some copy => .update copy.resourceVersion { copy.value with status } fun ok =>
        .done (if ok then .ok () else .error .conflict)

/-- The request passes the checks against the stored cluster, and writes its object. -/
def UpdateRequest.Replaces (r : UpdateRequest) (old new : DatabaseCluster) : Prop :=
  (∃ existing, validateDatabaseClusterCR r.handler existing r.backups r.db = .ok ()) ∧
    validateDatabaseClusterOnUpdate r.handler r.db old = .ok () ∧
    r.db.spec.engine.type = old.spec.engine.type ∧ new = r.stored old

def ChangesStatus (old new : DatabaseCluster) : Prop :=
  ∃ status, new = { old with status }

theorem updateChecked_sends (r : UpdateRequest) {existing : Except Unit (Option DatabaseCluster)}
    (hcr : validateDatabaseClusterCR r.handler existing r.backups r.db = .ok ())
    (reads : List (Versioned DatabaseCluster)) :
    Sends (CheckedBy r.Replaces r.resourceVersion) reads r.updateChecked := by
  refine .get (.done _) fun current => ?_
  cases hcheck : validateDatabaseClusterOnUpdate r.handler r.db current.value with
  | error e =>
    simp only [hcheck]
    exact .done _
  | ok u =>
    simp only [hcheck]
    split
    · exact .done _
    · rename_i htype
      have hreplaces : r.Replaces current.value (r.stored current.value) :=
        ⟨⟨existing, hcr⟩, hcheck, not_not.mp htype, rfl⟩
      have hsent : CheckedBy r.Replaces r.resourceVersion (current :: reads) r.resourceVersion
          (r.stored current.value) :=
        ⟨current, List.mem_cons_self, .inl (Nat.le_refl _), hreplaces⟩
      exact .update hsent fun _ => .done _

theorem checkCR_sends (r : UpdateRequest) (existing : Except Unit (Option DatabaseCluster))
    (reads : List (Versioned DatabaseCluster)) :
    Sends (CheckedBy r.Replaces r.resourceVersion) reads (r.checkCR existing) := by
  unfold UpdateRequest.checkCR
  cases hcr : validateDatabaseClusterCR r.handler existing r.backups r.db with
  | error e => exact .done _
  | ok u => exact updateChecked_sends r hcr reads

theorem updateDatabaseCluster_sends (r : UpdateRequest) :
    Sends (CheckedBy r.Replaces r.resourceVersion) [] r.updateDatabaseCluster := by
  unfold UpdateRequest.updateDatabaseCluster
  split
  · exact .get (checkCR_sends r _ _) fun existing => checkCR_sends r _ _
  · exact checkCR_sends r _ _

theorem updateStatus_sends (status : DatabaseClusterStatus) :
    Sends (CheckedBy ChangesStatus 0) [] (updateStatus status) := by
  refine .get (.done _) fun copy => ?_
  have hsent : CheckedBy ChangesStatus 0 [copy] copy.resourceVersion { copy.value with status } :=
    ⟨copy, List.mem_cons_self, .inr (Nat.le_refl _), status, rfl⟩
  exact .update hsent fun _ => .done _

section Runs

variable {ι κ : Type} (request : ι → UpdateRequest) (status : κ → DatabaseClusterStatus)

/-- Update requests and status writes. -/
def program : ι ⊕ κ → UpdateClient
  | .inl i => (request i).updateDatabaseCluster
  | .inr j => updateStatus (status j)

def learnt : ι ⊕ κ → Nat
  | .inl i => (request i).resourceVersion
  | .inr _ => 0

def Step : ι ⊕ κ → DatabaseCluster → DatabaseCluster → Prop
  | .inl i => (request i).Replaces
  | .inr _ => ChangesStatus

abbrev UpdateSystem (ι κ : Type) := System (ι ⊕ κ) DatabaseCluster (Except ValidationError Unit)

/-- A request's version was stored before it reads, and it reads without a cache. -/
def SentStored (s : UpdateSystem ι κ) : Move (ι ⊕ κ) DatabaseCluster → Prop
  | .call (.inl i) => (∃ k, s.client (.inl i) = .get k) →
      (request i).resourceVersion ≤ s.store.resourceVersion
  | .stale (.inl _) _ => False
  | _ => True

variable [DecidableEq ι] [DecidableEq κ]

omit [DecidableEq ι] [DecidableEq κ] in
theorem SentStored.readsSince {s : UpdateSystem ι κ} {m : Move (ι ⊕ κ) DatabaseCluster}
    (h : SentStored request s m) : ReadsSince (learnt (κ := κ) request) s m := by
  cases m with
  | call i =>
    cases i with
    | inl i => exact h
    | inr j => exact fun _ => Nat.zero_le _
  | stale i copy =>
    cases i with
    | inl i => exact h.elim
    | inr j => exact Nat.zero_le _
  | fail i => trivial
  | lost i => trivial
  | tick d => trivial

theorem run_replaces {P : UpdateSystem ι κ → Move (ι ⊕ κ) DatabaseCluster → Prop}
    {S : DatabaseCluster → DatabaseCluster → Prop}
    (hS : ∀ s m i v k, P s m → (m = .call i ∨ m = .lost i) →
      s.client i = .update s.store.resourceVersion v k → Step request i s.store.value v →
      S s.store.value v)
    {o : DatabaseCluster} {clock : Int} {ms ms' : List (Move (ι ⊕ κ) DatabaseCluster)}
    {s s' : UpdateSystem ι κ}
    (hsent : AlongRun System.step (SentStored request) (.start o clock (program request status))
      (ms ++ ms'))
    (hP : AlongRun System.step P (.start o clock (program request status)) (ms ++ ms'))
    (h : run System.step (.start o clock (program request status)) ms = some s)
    (h' : run System.step s ms' = some s') :
    Relation.ReflTransGen S s.store.value s'.store.value := by
  have hstart : CheckedClients (Step request) (learnt (κ := κ) request)
      (System.start o clock (program request status)) := by
    apply CheckedClients.start
    intro i
    cases i with
    | inl i => exact updateDatabaseCluster_sends (request i)
    | inr j => exact updateStatus_sends (status j)
  have hreads : AlongRun System.step (ReadsSince (learnt (κ := κ) request))
      (.start o clock (program request status)) (ms ++ ms') :=
    hsent.imp (fun _ => True) (fun _ _ _ _ _ _ => trivial)
      (fun _ _ _ hm => SentStored.readsSince request hm) trivial
  have hbefore := hreads.append h
  have hPbefore := hP.append h
  have hmid := (run_chain hS hstart hbefore.1 hPbefore.1 h).1
  exact (run_chain hS hmid hbefore.2 hPbefore.2 h').2

end Runs

/-- The request passes its checks over `o`, at the version it came with. -/
structure UpdateRequest.Accepted (r : UpdateRequest) (o : Versioned DatabaseCluster) : Prop where
  engine : r.db.spec.engine.type ≠ databaseEnginePostgresql
  cr : validateDatabaseClusterCR r.handler (.ok none) r.backups r.db = .ok ()
  onUpdate : validateDatabaseClusterOnUpdate r.handler r.db o.value = .ok ()
  sameType : r.db.spec.engine.type = o.value.spec.engine.type
  version : r.resourceVersion = o.resourceVersion

section Alone

variable {ι κ : Type} (request : ι → UpdateRequest) [DecidableEq ι] [DecidableEq κ]

/-- The two steps of an accepted request: it reads, and its object is stored. -/
structure StoredIn (i : ι) (s t s' : UpdateSystem ι κ) : Prop where
  reads : s.step (.call (.inl i)) = some t
  pending : ∃ k, s.client (.inl i) = .get k
  store : t.store = s.store
  client : ∃ k, t.client (.inl i) =
    .update s.store.resourceVersion ((request i).stored s.store.value) k
  writes : t.step (.call (.inl i)) = some s'
  stored : s'.store = ⟨s.store.resourceVersion + 1, (request i).stored s.store.value⟩
  others : ∀ j, j ≠ .inl i → s'.client j = s.client j

variable {request}

theorem StoredIn.run_eq {i : ι} {s t s' : UpdateSystem ι κ} (h : StoredIn request i s t s')
    (ms : List (Move (ι ⊕ κ) DatabaseCluster)) :
    run System.step s (.call (.inl i) :: .call (.inl i) :: ms) = run System.step s' ms := by
  simp only [run, h.reads, h.writes, Option.bind_some]

theorem StoredIn.along {P : UpdateSystem ι κ → Move (ι ⊕ κ) DatabaseCluster → Prop} {i : ι}
    {s t s' : UpdateSystem ι κ} (h : StoredIn request i s t s') (hs : P s (.call (.inl i)))
    (ht : P t (.call (.inl i))) {ms : List (Move (ι ⊕ κ) DatabaseCluster)}
    (hms : AlongRun System.step P s' ms) :
    AlongRun System.step P s (.call (.inl i) :: .call (.inl i) :: ms) :=
  .cons hs h.reads (.cons ht h.writes hms)

omit [DecidableEq ι] [DecidableEq κ] in
theorem UpdateRequest.Accepted.client {r : UpdateRequest} {o : Versioned DatabaseCluster}
    (h : r.Accepted o) : r.updateDatabaseCluster = r.updateChecked := by
  simp only [UpdateRequest.updateDatabaseCluster, if_neg h.engine, UpdateRequest.checkCR, h.cr]

variable (request) in
/-- An accepted request that runs alone is stored. -/
theorem accepted_stored {s : UpdateSystem ι κ} {i : ι}
    (hi : s.client (.inl i) = (request i).updateDatabaseCluster)
    (haccepted : (request i).Accepted s.store) : ∃ t s', StoredIn request i s t s' := by
  have hclient : s.client (.inl i) = (request i).updateChecked := hi.trans haccepted.client
  let k : Bool → UpdateClient := fun ok => .done (if ok then .ok () else .error .conflict)
  let t : UpdateSystem ι κ := s.give (.inl i) s.store
    (.update (request i).resourceVersion ((request i).stored s.store.value) k)
  let u : UpdateSystem ι κ := t.commit (.inl i)
    ⟨s.store.resourceVersion + 1, (request i).stored s.store.value⟩ (k true)
  have ht : t.client (.inl i) =
      .update s.store.resourceVersion ((request i).stored s.store.value) k := by
    rw [← haccepted.version]
    exact Function.update_self ..
  refine ⟨t, u, ?_, ⟨_, hclient⟩, rfl, ⟨k, ht⟩, ?_, rfl, ?_⟩
  · have htype : ¬ (request i).db.spec.engine.type ≠ s.store.value.spec.engine.type :=
      not_not.mpr haccepted.sameType
    simp only [System.step, hclient, UpdateRequest.updateChecked, haccepted.onUpdate, if_neg htype]
    rfl
  · have hstore := Versioned.update_current s.store ((request i).stored s.store.value)
    have hsame : t.store = s.store := rfl
    simp only [System.step, ht, hsame, hstore]
    rfl
  · intro j hj
    exact (Function.update_of_ne hj ..).trans (Function.update_of_ne hj ..)

theorem StoredIn.sentStored {i : ι} {s t s' : UpdateSystem ι κ} (h : StoredIn request i s t s')
    (haccepted : (request i).Accepted s.store) (ms : List (Move (ι ⊕ κ) DatabaseCluster))
    (hms : AlongRun System.step (SentStored request) s' ms) :
    AlongRun System.step (SentStored request) s (.call (.inl i) :: .call (.inl i) :: ms) := by
  have hversion : (request i).resourceVersion ≤ s.store.resourceVersion := haccepted.version.le
  refine h.along (fun _ => hversion) (fun _ => ?_) hms
  rw [h.store]
  exact hversion

end Alone

/-- The storage does not shrink and sharding is neither switched on nor off. -/
structure KeepsStorage (old new : DatabaseCluster) : Prop where
  size_le : old.spec.engine.storageSize ≤ new.spec.engine.storageSize
  sharding_eq : new.shardingEnabled = old.shardingEnabled

namespace KeepsStorage

theorem refl (db : DatabaseCluster) : KeepsStorage db db := ⟨le_refl _, rfl⟩

theorem trans {a b c : DatabaseCluster} (hab : KeepsStorage a b) (hbc : KeepsStorage b c) :
    KeepsStorage a c :=
  ⟨hab.size_le.trans hbc.size_le, hbc.sharding_eq.trans hab.sharding_eq⟩

theorem of_chain {a b : DatabaseCluster} (h : Relation.ReflTransGen KeepsStorage a b) :
    KeepsStorage a b := by
  induction h with
  | refl => exact refl a
  | tail _ hstep ih => exact ih.trans hstep

theorem of_check {h : ValidateHandler} {db oldDB : DatabaseCluster}
    (hcheck : validateDatabaseClusterOnUpdate h db oldDB = .ok ()) :
    oldDB.spec.engine.storageSize ≤ db.spec.engine.storageSize ∧
      db.shardingEnabled = oldDB.shardingEnabled := by
  simp only [validateDatabaseClusterOnUpdate, engineVersionCheck, check_bind_eq_ok, failWhen_eq_ok] at hcheck
  obtain ⟨-, -, -, hsize, hsharding⟩ := hcheck
  refine ⟨not_lt.mp hsize, ?_⟩
  unfold validateShardingOnUpdate at hsharding
  cases hold : oldDB.shardingEnabled with
  | false =>
    rw [hold] at hsharding
    simpa [failWhen_eq_ok] using hsharding
  | true =>
    rw [hold] at hsharding
    simp only [Bool.not_true, Bool.false_eq_true, if_false, check_bind_eq_ok, failWhen_eq_ok]
      at hsharding
    simpa using hsharding.1

end KeepsStorage

theorem Step.keepsStorage {ι κ : Type} {request : ι → UpdateRequest} {i : ι ⊕ κ}
    {old new : DatabaseCluster} (h : Step request i old new) : KeepsStorage old new := by
  cases i with
  | inl i =>
    obtain ⟨-, hcheck, -, rfl⟩ := h
    have hkeeps := KeepsStorage.of_check hcheck
    exact ⟨hkeeps.1, hkeeps.2⟩
  | inr j =>
    obtain ⟨status, rfl⟩ := h
    exact ⟨le_refl _, rfl⟩

/-- Along the stored versions the storage never shrinks and the sharding flag stays. -/
theorem storage_and_sharding_kept {ι κ : Type} [DecidableEq ι] [DecidableEq κ]
    (request : ι → UpdateRequest) (status : κ → DatabaseClusterStatus) (o : DatabaseCluster)
    (clock : Int) (ms ms' : List (Move (ι ⊕ κ) DatabaseCluster)) (s s' : UpdateSystem ι κ)
    (hsent : AlongRun System.step (SentStored request) (.start o clock (program request status))
      (ms ++ ms'))
    (h : run System.step (.start o clock (program request status)) ms = some s)
    (h' : run System.step s ms' = some s') : KeepsStorage s.store.value s'.store.value := by
  have hany : AlongRun System.step (fun _ _ => True) (.start o clock (program request status))
      (ms ++ ms') := .of_forall fun _ _ => trivial
  have hchain := run_replaces request status
    (fun _ _ _ _ _ _ _ _ hstep => Step.keepsStorage hstep) hsent hany h h'
  exact KeepsStorage.of_chain hchain

def sampleHandler : ValidateHandler where
  getDatabaseEngine _ _ := .ok ⟨[], [ascii "8.0.36", ascii "8.0.35"]⟩
  getBackupStorageType _ _ := .error ()
  getPodSchedulingPolicy _ := .error ()
  validateEverestResourceName name := decide (name ≠ [])
  newVersion _ := true
  checkConstraint _ _ := true

def sampleResources : Resources := ⟨⟨1, 1000000000⟩, none⟩

def sampleCluster : DatabaseCluster where
  namespaceName := ascii "ns"
  name := ascii "db"
  spec :=
    { engine := ⟨databaseEnginePXC, ascii "8.0.35", 3, 10000000000, sampleResources⟩
      proxy := ⟨ascii "haproxy", none, [], sampleResources⟩
      schedules := []
      pitr := ⟨false, none, none⟩
      dataSource := none
      sharding := none
      podSchedulingPolicyName := [] }
  status := ⟨ascii "ready", []⟩

def sampleRequest (engine : Engine) (resourceVersion : Nat) : UpdateRequest where
  db := { sampleCluster with spec := { sampleCluster.spec with engine } }
  resourceVersion := resourceVersion
  handler := sampleHandler
  backups := .ok []

def growRequest : UpdateRequest :=
  sampleRequest { sampleCluster.spec.engine with storageSize := 20000000000 } 0

theorem growRequest_accepted : growRequest.Accepted ⟨0, sampleCluster⟩ where
  engine := by decide
  cr := by decide +kernel
  onUpdate := by decide +kernel
  sameType := rfl
  version := rfl

theorem storage_and_sharding_kept_sample : ∃ s' : UpdateSystem Unit Empty,
    s'.store.value = growRequest.db ∧ KeepsStorage sampleCluster s'.store.value := by
  let start : UpdateSystem Unit Empty :=
    System.start sampleCluster 0 (program (fun _ => growRequest) Empty.elim)
  obtain ⟨t, s', h⟩ := accepted_stored (fun _ => growRequest) (s := start) (i := ()) rfl
    growRequest_accepted
  have hrun := h.run_eq []
  have hsent := h.sentStored growRequest_accepted [] trivial
  refine ⟨s', by rw [h.stored]; rfl, ?_⟩
  exact storage_and_sharding_kept (fun _ => growRequest) Empty.elim sampleCluster 0 [] _ start s'
    hsent rfl hrun

end OpenEverest.Validation
