import Miles.ForStd.Except
import Miles.ForStd.PyDict

/-!
# Rollout engine ranks of the data replicas

Pure Lean model of `assign_rollout_engine_ranks_for_data_replica`: which of the trainer ranks that
hold the same weights sends them to which rank of which rollout engine.
-/

namespace Miles.RankAssignment

inductive AssignError where
  /-- The rollout engine needs at least one GPU. -/
  | noGpus (engine : Nat) (gpuCount : Int)
  /-- `max()` of no replicas -/
  | noReplicas
  /-- The data replica's rank is out of range. -/
  | noSuchReplica
deriving DecidableEq

structure RolloutEngineRankAssignment where
  rolloutEngineRank : Nat
  rolloutEngineIndices : List Nat
deriving DecidableEq

/-- The rollout engine indices that a data replica sends to, by rollout engine rank. -/
abbrev Indices := PyDict Nat (List Nat)

/-- Every (rollout engine, rollout engine rank). -/
def targets (engineGpuCounts : List Int) : List (Nat × Nat) :=
  engineGpuCounts.zipIdx.flatMap fun engine =>
    (List.range engine.1.toNat).map fun rank => (engine.2, rank)

/-- `rollout_engine_indices_by_data_replica[data_replica][rank].append(engine)` -/
def give (replicas : List Indices) (replica : Nat) (target : Nat × Nat) : List Indices :=
  replicas.modify replica fun indices =>
    indices.set target.2 (indices.getD target.2 [] ++ [target.1])

/-- The first round: each data replica gets one target. -/
def firstRound (size : Nat) (targets : List (Nat × Nat)) : List Indices :=
  ((List.range size).zip targets).foldl (fun replicas x => give replicas x.1 x.2)
    (List.replicate size .empty)

/-- The least of the data replicas that send this rank: `min((count, data_replica))`. -/
def leastSender (replicas : List Indices) (rank : Nat) : Option (Nat × Nat) :=
  let counts := replicas.map fun indices => (indices.getD rank []).length
  -- the replicas are numbered in order, and the first of the least is taken
  (counts.zipIdx.filter fun x => 0 < x.1).argmin Prod.fst

/-- One target of the second round, with the next data replica of the round robin. -/
def giveNext (state : List Indices × Nat) (target : Nat × Nat) : List Indices × Nat :=
  match leastSender state.1 target.2 with
  | some sender => (give state.1 sender.2 target, state.2)
  | none => (give state.1 (state.2 % state.1.length) target, state.2 + 1)

/-- What a data replica sends. -/
def assignments (indices : Indices) : List RolloutEngineRankAssignment :=
  indices.items.map fun item => ⟨item.1, item.2⟩

/-- `rollout_engine_indices_by_data_replica[data_replica_rank]` as assignments -/
def assignmentsAt (replicas : List Indices) (dataReplicaRank : Nat) :
    Except AssignError (List RolloutEngineRankAssignment) :=
  match replicas[dataReplicaRank]? with
  | some indices => .ok (assignments indices)
  | none => .error .noSuchReplica

/-- `assign_rollout_engine_ranks_for_data_replica` -/
def assignRolloutEngineRanksForDataReplica (dataReplicaRank dataReplicaSize : Nat)
    (engineGpuCounts : List Int) : Except AssignError (List RolloutEngineRankAssignment) := do
  engineGpuCounts.zipIdx.forM fun engine =>
    Except.ensure (0 < engine.1) (.noGpus engine.2 engine.1)
  let targets := targets engineGpuCounts
  Except.ensure (targets.drop dataReplicaSize = [] ∨ dataReplicaSize ≠ 0) .noReplicas
  let replicas :=
    ((targets.drop dataReplicaSize).foldl giveNext (firstRound dataReplicaSize targets, 0)).1
  assignmentsAt replicas dataReplicaRank

end Miles.RankAssignment
