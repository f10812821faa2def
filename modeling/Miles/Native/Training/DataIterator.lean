import Miles.ForStd.Except
import Miles.Native.Training.SeqlenBalancing

/-!
# Dynamic micro-batches on the training side

Model of the dynamic path of `get_data_iterator` in
`miles/backends/training_utils/data/rollout.py`, with `get_minimum_num_micro_batch_size` of
`miles/utils/data.py`: each rank of a DP group estimates how many micro-batches a step needs, the
ranks agree on the largest estimate, and each balances its own samples over that many.

The `all_reduce` needs vectors of one length from all ranks.  The iterators that walk over the
micro-batches, one for each virtual stage, all get the same indices and are left out.
-/

namespace Miles.DataIterator

open Miles.Balancing

/-- What `get_data_iterator` raises. -/
inductive IteratorError where
  /-- `global_batch_size must be divisible by dp_size` -/
  | globalBatchSize (globalBatchSize dpSize : Nat)
  /-- `ZeroDivisionError` -/
  | zeroDivision
  /-- the ranks reduce vectors of different lengths -/
  | reduceShape
  | balance (error : BalanceError)
  /-- `assert len(set(sum(micro_batch_indices, []))) == num_local_samples` -/
  | samplesLost (scheduled samples : Nat)
  deriving DecidableEq, Repr

/-- The arguments and the parallel state that `get_data_iterator` reads. -/
structure IteratorConfig where
  globalBatchSize : Nat
  maxTokensPerGpu : Nat
  dpSize : Nat
  cpSize : Nat
  vppSize : Nat
  microbatchGroupSizePerVpStage : Nat
  deriving Repr

/-- The rollout data of one rank: the lengths of its samples, and their adapter slots. -/
structure LocalData where
  totalLengths : List Nat
  adapterSlots : Option (List Int)
  deriving DecidableEq, Repr

/-- One length of `get_minimum_num_micro_batch_size`: to the first batch with room for it. -/
def addToBatches (maxTokensPerGpu length : Nat) : List Nat → List Nat
  | [] => [length]
  | batch :: batches =>
    if batch + length ≤ maxTokensPerGpu then (batch + length) :: batches
    else batch :: addToBatches maxTokensPerGpu length batches

/-- `get_minimum_num_micro_batch_size` -/
def getMinimumNumMicroBatchSize (totalLengths : List Nat) (maxTokensPerGpu : Nat) : Nat :=
  (totalLengths.foldl (fun batches length => addToBatches maxTokensPerGpu length batches) []).length

namespace IteratorConfig

variable (cfg : IteratorConfig)

/-- `num_local_gbs`: the samples of a step on one rank. -/
def numLocalGbs : Except IteratorError Nat :=
  if cfg.dpSize = 0 then .error .zeroDivision
  else if cfg.globalBatchSize % cfg.dpSize ≠ 0 then
    .error (.globalBatchSize cfg.globalBatchSize cfg.dpSize)
  else if cfg.globalBatchSize / cfg.dpSize = 0 then .error .zeroDivision
  else .ok (cfg.globalBatchSize / cfg.dpSize)

/-- The token budget of a micro-batch. -/
def maxTokens : Nat := cfg.maxTokensPerGpu * cfg.cpSize

/-- Rounding down to whole groups of virtual stages, but not to zero. -/
def clampToGroup (numMicrobatches : Nat) : Nat :=
  if cfg.vppSize > 1 then
    max (numMicrobatches / cfg.microbatchGroupSizePerVpStage * cfg.microbatchGroupSizePerVpStage) 1
  else numMicrobatches

end IteratorConfig

/-- `total_lengths[start:end]` of a step. -/
def stepSamples (numLocalGbs step : Nat) (totalLengths : List Nat) : List Nat :=
  (totalLengths.drop (step * numLocalGbs)).take numLocalGbs

/-- The estimates of one rank, a step each. -/
def localNumMicrobatches (cfg : IteratorConfig) (numLocalGbs : Nat) (data : LocalData) : List Nat :=
  (List.range (data.totalLengths.length / numLocalGbs)).map fun i =>
    getMinimumNumMicroBatchSize (stepSamples numLocalGbs i data.totalLengths) cfg.maxTokens

/-- `all_reduce(..., op=MAX)` -/
def allReduceMax : List (List Nat) → Except IteratorError (List Nat)
  | [] => .ok []
  | v :: vs =>
    if ∀ w ∈ vs, w.length = v.length then .ok (vs.foldl (List.zipWith max) v)
    else .error .reduceShape

/-- The partition of a step's samples into micro-batches. -/
def stepMicroBatchIndices (numLocalGbs : Nat) (data : LocalData) (step numMbs : Nat) :
    Except IteratorError (List (List Nat)) := do
  let partitions ← (getSeqlenBalancedPartitions (stepSamples numLocalGbs step data.totalLengths)
    numMbs false).mapError .balance
  return partitions.map fun part =>
    let indices := part.map (step * numLocalGbs + ·)
    match data.adapterSlots with
    | none => indices
    -- contiguous by slot
    | some slots => indices.mergeSort fun i j => decide (slots.getD i 0 ≤ slots.getD j 0)

/-- The dynamic path of `get_data_iterator` on the rank that holds `data`, in a group of `ranks`:
    the micro-batches of all steps, and how many each step has. -/
def getDataIterator (cfg : IteratorConfig) (ranks : List LocalData) (data : LocalData) :
    Except IteratorError (List (List Nat) × List Nat) := do
  let numLocalGbs ← cfg.numLocalGbs
  let reduced ← allReduceMax (ranks.map (localNumMicrobatches cfg numLocalGbs))
  ensure (cfg.vppSize ≤ 1 ∨ cfg.microbatchGroupSizePerVpStage ≠ 0) IteratorError.zeroDivision
  let numMicrobatches := reduced.map cfg.clampToGroup
  let steps ← numMicrobatches.zipIdx.mapM fun x =>
    stepMicroBatchIndices numLocalGbs data x.2 x.1
  let microBatchIndices := steps.flatten
  let scheduled := microBatchIndices.flatten.dedup.length
  ensure (scheduled = data.totalLengths.length)
    (IteratorError.samplesLost scheduled data.totalLengths.length)
  return (microBatchIndices, numMicrobatches)

end Miles.DataIterator
