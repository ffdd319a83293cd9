import OpenEverest.Validation.UpdateRuns
import Mathlib.Algebra.Ring.Int.Parity

/-!
# The counts of a sharded cluster

The region of engine replicas, shards and config servers that the check of a created or
updated object accepts, over all integers. The minimum of config servers is checked where
there is at least one engine replica; the parity is checked always.
-/

namespace OpenEverest.Validation

open Framework Api

variable {h : ValidateHandler} {db : DatabaseCluster}

theorem validateSharding_eq_ok : validateSharding h db = .ok () ↔
    ∀ s ∈ db.spec.sharding, s.enabled = true → db.spec.engine.type = databaseEnginePSMDB ∧
      (db.spec.engine.version ≠ [] ∧ h.newVersion db.spec.engine.version = true ∧
        h.checkConstraint db.spec.engine.version (ascii ">=1.17.0") = true) ∧
      1 ≤ s.shards ∧ (db.spec.engine.replicas = 1 → 1 ≤ s.configServerReplicas) ∧
      (1 < db.spec.engine.replicas → 3 ≤ s.configServerReplicas) ∧
      s.configServerReplicas % 2 ≠ 0 := by
  unfold validateSharding
  cases db.spec.sharding with
  | none => simp
  | some s =>
    cases henabled : s.enabled with
    | false => simp [henabled]
    | true =>
      simp only [check_bind_eq_ok, failWhen_eq_ok, Bool.not_true, Bool.false_eq_true, if_false,
        Option.mem_some_iff, forall_eq', henabled, true_implies, Bool.not_eq_false, not_not, not_lt,
        not_and, ne_eq]
      constructor
      · rintro ⟨htype, hversion, hnew, hrecent, hshards, hone, hmore, hodd⟩
        exact ⟨htype, ⟨hversion, hnew, hrecent⟩, hshards, fun h => hone (by omega) h,
          fun h => hmore (by omega) h, hodd⟩
      · rintro ⟨htype, ⟨hversion, hnew, hrecent⟩, hshards, hone, hmore, hodd⟩
        exact ⟨htype, hversion, hnew, hrecent, hshards, fun _ => hone, fun _ => hmore, hodd⟩

theorem validateSharding_of_accepted {existing : Except Unit (Option DatabaseCluster)}
    {backups : Except Unit (List DatabaseClusterBackup)}
    (hcr : validateDatabaseClusterCR h existing backups db = .ok ()) :
    validateSharding h db = .ok () := by
  rw [validateDatabaseClusterCR, check_bind_eq_ok, check_bind_eq_ok, validateAfterRepos,
    check_bind_eq_ok] at hcr
  exact hcr.2.2.1

/-- What holds of the counts where sharding is enabled. -/
structure ShardingCounts (db : DatabaseCluster) (s : Sharding) : Prop where
  psmdb : db.spec.engine.type = databaseEnginePSMDB
  shards : 1 ≤ s.shards
  odd : Odd s.configServerReplicas
  positive : 0 < db.spec.engine.replicas → 0 < s.configServerReplicas
  nodes : 1 < db.spec.engine.replicas → 3 ≤ s.configServerReplicas

theorem shardingCounts_of_accepted (h : ValidateHandler)
    (existing : Except Unit (Option DatabaseCluster))
    (backups : Except Unit (List DatabaseClusterBackup)) (db : DatabaseCluster)
    (hcr : validateDatabaseClusterCR h existing backups db = .ok ()) :
    ∀ s ∈ db.spec.sharding, s.enabled = true → ShardingCounts db s := by
  intro s hs henabled
  have hsharding := validateSharding_eq_ok.mp (validateSharding_of_accepted hcr) s hs henabled
  obtain ⟨hpsmdb, -, hshards, hone, hmore, hodd⟩ := hsharding
  refine ⟨hpsmdb, hshards, ?_, ?_, hmore⟩
  · apply Int.not_even_iff_odd.mp
    intro heven
    exact hodd (Int.even_iff.mp heven)
  · intro hpos
    rcases eq_or_lt_of_le (Int.add_one_le_of_lt hpos) with heq | hlt
    · have hmin := hone (by omega)
      omega
    · have hmin := hmore (by omega)
      omega

def shardedHandler : ValidateHandler :=
  { sampleHandler with getDatabaseEngine := fun _ _ => .ok ⟨[], [ascii "7.0.8-5"]⟩ }

def shardedCluster (replicas shards configServers : Int) : DatabaseCluster :=
  { sampleCluster with
    spec := { sampleCluster.spec with
      engine := ⟨databaseEnginePSMDB, ascii "7.0.8-5", replicas, 10000000000, sampleResources⟩
      proxy := ⟨ascii "mongos", none, [], sampleResources⟩
      sharding := some ⟨true, shards, configServers⟩ } }

theorem shardingCounts_of_accepted_sample :
    ShardingCounts (shardedCluster 3 2 3) ⟨true, 2, 3⟩ :=
  shardingCounts_of_accepted shardedHandler (.ok none) (.ok []) (shardedCluster 3 2 3)
    (by decide +kernel) _ rfl rfl

/-- Without an engine replica, minus one config server is an odd number of them. -/
theorem negative_configServers_accepted :
    ¬ ∀ (h : ValidateHandler) (existing : Except Unit (Option DatabaseCluster))
        (backups : Except Unit (List DatabaseClusterBackup)) (db : DatabaseCluster),
      validateDatabaseClusterCR h existing backups db = .ok () →
      ∀ s ∈ db.spec.sharding, s.enabled = true →
        db.spec.engine.type = databaseEnginePSMDB ∧ 1 ≤ s.shards ∧ Odd s.configServerReplicas ∧
          0 < s.configServerReplicas ∧
          (1 < db.spec.engine.replicas → 3 ≤ s.configServerReplicas) := by
  intro hlaw
  have haccepted : validateDatabaseClusterCR shardedHandler (.ok none) (.ok [])
      (shardedCluster 0 1 (-1)) = .ok () := by decide +kernel
  have hcounts := hlaw _ _ _ _ haccepted ⟨true, 1, -1⟩ rfl rfl
  exact absurd hcounts.2.2.2.1 (by decide)

end OpenEverest.Validation
