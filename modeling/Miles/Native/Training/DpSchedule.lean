import Miles.Native.Training.SeqlenBalancing

/-!
# The data-parallel schedule

Model of `miles/utils/dp_schedule.py`: which rollouts each training step takes, how the
samples of a step are packed into micro-batches, and how these are distributed over the
ranks.

The FLOPs of a sequence come from the HF config (`miles/utils/flops_utils.py`) and are a
parameter, the `Workload`.
-/

namespace Miles.DpSchedule

open Miles.Balancing

/-- What raises in `build_dp_schedule`. -/
inductive ScheduleError where
  /-- `max_tokens_per_gpu` is not set -/
  | noMaxTokens
  /-- `micro_batch_size` is not set -/
  | noMicroBatchSize
  /-- total rollouts < global_batch_size -/
  | tooFewRollouts (rollouts globalBatchSize : Nat)
  /-- the step has fewer samples than ranks -/
  | stepTooFewSamples (rollouts samples dpSize : Nat)
  /-- dynamic path: not enough micro-batches after maximal splitting -/
  | cannotSplit (produced target step samples alignTo : Nat)
  /-- static path: micro-batch count not a multiple of `dp_size * mb_group` -/
  | staticMisaligned (count alignTo samples microBatchSize dpSize : Nat)
  | balance (error : BalanceError)
  deriving DecidableEq, Repr

/-- The parallel sizes of `TrainParallelConfig`.  Sizes are positive, and a run with virtual
    pipelining has a micro-batch group size. -/
structure TrainParallelConfig where
  dpSize : Nat
  cpSize : Nat
  vppSize : Option Nat
  microbatchGroupSizePerVpStage : Option Nat
  dpSize_pos : 0 < dpSize
  cpSize_pos : 0 < cpSize
  group_pos : 1 < vppSize.getD 1 →
    ∃ g, microbatchGroupSizePerVpStage = some g ∧ 0 < g

/-- The FLOPs of one sequence: `fwd_flops([length])`, or its length when the model could not
    be sized.  No sequence has negative FLOPs, and adding them up stays so. -/
structure Workload (W : Type) [LinearOrder W] [Zero W] [Add W] where
  ofLength : Nat → W
  nonneg : ∀ length, 0 ≤ ofLength length
  add_nonneg : ∀ a b : W, 0 ≤ a → 0 ≤ b → 0 ≤ a + b

/-- The arguments `build_dp_schedule` reads.  A token budget and a micro-batch size are
    positive when they are set. -/
structure Args (W : Type) [LinearOrder W] [Zero W] [Add W] where
  useDynamicBatchSize : Bool
  maxTokensPerGpu : Option Nat
  microBatchSize : Option Nat
  allowPartialTrainStep : Bool
  balanceData : Bool
  balanceByFlops : Bool
  workload : Workload W
  maxTokens_pos : ∀ n, maxTokensPerGpu = some n → 0 < n
  microBatchSize_pos : ∀ n, microBatchSize = some n → 0 < n

/-- The samples: one positive length and one rollout id each. -/
structure Samples (ι : Type) where
  totalLengths : List Nat
  rolloutIndices : List ι
  same_length : totalLengths.length = rolloutIndices.length
  positive : ∀ length ∈ totalLengths, 0 < length

/-- `DPSchedule` -/
structure DPSchedule where
  /-- global sample indices of each rank -/
  partitions : List (List Nat)
  /-- indices into the rank's partition, for each of its micro-batches -/
  microBatchIndices : List (List (List Nat))
  /-- shared micro-batch count of each step -/
  numMicrobatches : List Nat
  /-- distinct rollouts of each step -/
  numRollouts : List Nat
  deriving DecidableEq, Repr

variable {ι : Type} [DecidableEq ι] {W : Type} [LinearOrder W] [Zero W] [Add W] [Sub W]

/-- `align_to`: the micro-batch count of a step is a multiple of this. -/
def TrainParallelConfig.alignTo (cfg : TrainParallelConfig) : Nat :=
  let vppSize := match cfg.vppSize with
    | none => 1
    | some n => if n = 0 then 1 else n
  cfg.dpSize * (if 1 < vppSize then cfg.microbatchGroupSizePerVpStage.getD 1 else 1)

/-! ## The rollouts of each step -/

/-- `setdefault(rid, []).append(sample_pos)` on the groups in insertion order. -/
def addSample (rid : ι) (samplePos : Nat) : List (ι × List Nat) → List (ι × List Nat)
  | [] => [(rid, [samplePos])]
  | (id, positions) :: groups =>
    if id = rid then (id, positions ++ [samplePos]) :: groups
    else (id, positions) :: addSample rid samplePos groups

/-- `rollout_id_to_sample_index` -/
def rolloutIdToSampleIndex (rolloutIndices : List ι) : List (ι × List Nat) :=
  rolloutIndices.zipIdx.foldl (fun groups (rid, pos) => addSample rid pos groups) []

/-- `num_rollouts`: full steps, and a partial one for the trailing rollouts if allowed and it
    has a sample for each rank. -/
def planSteps (cfg : TrainParallelConfig) (args : Args W) (globalBatchSize : Nat)
    (groups : List (ι × List Nat)) : List Nat :=
  let numFullSteps := groups.length / globalBatchSize
  let leftover := groups.length - numFullSteps * globalBatchSize
  let leftoverSamples := ((groups.drop (groups.length - leftover)).map (·.2.length)).sum
  List.replicate numFullSteps globalBatchSize ++
    (if leftover ≠ 0 ∧ args.allowPartialTrainStep ∧ args.useDynamicBatchSize ∧
        cfg.dpSize ≤ leftoverSamples then [leftover] else [])

/-! ## The micro-batches of a step -/

/-- `n` rounded up to a multiple of `alignTo`, and at least `alignTo`. -/
def alignedCount (n alignTo : Nat) : Nat :=
  max ((n + alignTo - 1) / alignTo * alignTo) alignTo

/-- The packing of a step before it is aligned: first-fit decreasing under the token budget, or
    FLOPs-balanced partitions under `balance_by_flops`. -/
def packStep (args : Args W) (maxPerBin : Nat) (stepLengths : List Nat) :
    Except ScheduleError (List (List Nat)) :=
  if args.balanceByFlops then
    let microBatchCount := max 1 ((stepLengths.sum + maxPerBin - 1) / maxPerBin)
    if stepLengths.length ≤ microBatchCount then
      .ok ((List.range stepLengths.length).map ([·]))
    else
      (getSeqlenBalancedPartitions (stepLengths.map args.workload.ofLength) microBatchCount
        false).mapError .balance
  else .ok (firstFitDecreasingPack stepLengths maxPerBin)

/-- The dynamic path: pack, then split up to a multiple of `align_to`. -/
def dynamicMicroBatches (args : Args W) (maxPerBin alignTo step : Nat)
    (stepLengths : List Nat) : Except ScheduleError (List (List Nat)) := do
  let packed ← packStep args maxPerBin stepLengths
  let target := alignedCount packed.length alignTo
  if target = packed.length then
    return packed
  let expanded := expandBinsBySplitting stepLengths (target - packed.length) packed
  ensure (expanded.length = target)
    (.cannotSplit expanded.length target step stepLengths.length alignTo)
  return expanded

/-- The static path: fixed-size chunks. -/
def staticMicroBatches (microBatchSize alignTo dpSize : Nat) (stepLengths : List Nat) :
    Except ScheduleError (List (List Nat)) := do
  let n := stepLengths.length
  let chunks := (List.range ((n + microBatchSize - 1) / microBatchSize)).map fun j =>
    List.range' (j * microBatchSize) (min (j * microBatchSize + microBatchSize) n -
      j * microBatchSize)
  ensure (chunks.length % alignTo = 0)
    (.staticMisaligned chunks.length alignTo n microBatchSize dpSize)
  return chunks

/-! ## The distribution over the ranks -/

/-- `rank_micro_batch_ids`: balanced by FLOPs or tokens, or strided. -/
def rankMicroBatchIds (args : Args W) (dpSize : Nat) (stepLengths : List Nat)
    (microBatches : List (List Nat)) : Except ScheduleError (List (List Nat)) :=
  if args.balanceByFlops then
    let workloads := stepLengths.map args.workload.ofLength
    let weights := microBatches.map fun microBatch =>
      microBatch.foldl (fun sum i => sum + workloads.getD i 0) 0
    (getSeqlenBalancedPartitions weights dpSize true).mapError .balance
  else if args.balanceData then
    (getSeqlenBalancedPartitions (microBatches.map (binTokens stepLengths)) dpSize
      true).mapError .balance
  else
    .ok ((List.range dpSize).map fun rank =>
      (List.range' 0 ((microBatches.length + dpSize - 1 - rank) / dpSize)).map
        (rank + · * dpSize))

/-- What one rank has been given so far. -/
structure RankSchedule where
  partition : List Nat := []
  microBatchIndices : List (List Nat) := []
  deriving DecidableEq, Repr

/-- Append a micro-batch of a step to a rank. -/
def RankSchedule.addMicroBatch (sampleIndices : List Nat) (rank : RankSchedule)
    (microBatch : List Nat) : RankSchedule where
  partition := rank.partition ++ microBatch.map (sampleIndices.getD · 0)
  microBatchIndices := rank.microBatchIndices ++
    [List.range' rank.partition.length microBatch.length]

/-- Append the micro-batches of a step to every rank. -/
def distribute (sampleIndices : List Nat) (microBatches rankMicroBatchIds : List (List Nat))
    (ranks : List RankSchedule) : List RankSchedule :=
  List.zipWith (fun rank ids => ids.foldl (fun rank k =>
    rank.addMicroBatch sampleIndices (microBatches.getD k [])) rank) ranks rankMicroBatchIds

/-! ## `build_dp_schedule` -/

/-- The state of the loop over the steps. -/
structure ScheduleState where
  ranks : List RankSchedule
  numMicrobatches : List Nat := []
  deriving DecidableEq, Repr

/-- The micro-batches of a step. -/
def stepMicroBatches (cfg : TrainParallelConfig) (args : Args W) (step : Nat)
    (stepLengths : List Nat) : Except ScheduleError (List (List Nat)) :=
  if args.useDynamicBatchSize then
    match args.maxTokensPerGpu with
    | none => .error .noMaxTokens
    | some maxTokens =>
      dynamicMicroBatches args (maxTokens * cfg.cpSize) cfg.alignTo step stepLengths
  else
    match args.microBatchSize with
    | none => .error .noMicroBatchSize
    | some microBatchSize =>
      staticMicroBatches microBatchSize cfg.alignTo cfg.dpSize stepLengths

/-- One turn of the loop: schedule the rollouts of a step. -/
def scheduleStep (cfg : TrainParallelConfig) (args : Args W) (totalLengths : List Nat)
    (step : Nat) (pickedRollouts : List (ι × List Nat)) (state : ScheduleState) :
    Except ScheduleError ScheduleState := do
  let sampleIndices := pickedRollouts.flatMap (·.2)
  let stepLengths := sampleIndices.map (totalLengths.getD · 0)
  ensure (cfg.dpSize ≤ sampleIndices.length)
    (.stepTooFewSamples pickedRollouts.length sampleIndices.length cfg.dpSize)
  let microBatches ← stepMicroBatches cfg args step stepLengths
  let ids ← rankMicroBatchIds args cfg.dpSize stepLengths microBatches
  return { ranks := distribute sampleIndices microBatches ids state.ranks
           numMicrobatches := state.numMicrobatches ++ [microBatches.length / cfg.dpSize] }

/-- The loop over the steps; `groups` are the rollouts from `step_start` on. -/
def scheduleSteps (cfg : TrainParallelConfig) (args : Args W) (totalLengths : List Nat) :
    Nat → List Nat → List (ι × List Nat) → ScheduleState → Except ScheduleError ScheduleState
  | _, [], _, state => return state
  | step, stepNumRollouts :: rest, groups, state => do
    let state ← scheduleStep cfg args totalLengths step (groups.take stepNumRollouts) state
    scheduleSteps cfg args totalLengths (step + 1) rest (groups.drop stepNumRollouts) state

/-- `build_dp_schedule` -/
def buildDpSchedule (cfg : TrainParallelConfig) (args : Args W) (samples : Samples ι)
    (globalBatchSize : Nat) : Except ScheduleError DPSchedule := do
  ensure (args.useDynamicBatchSize → args.maxTokensPerGpu ≠ none) .noMaxTokens
  let groups := rolloutIdToSampleIndex samples.rolloutIndices
  ensure (1 ≤ groups.length / globalBatchSize) (.tooFewRollouts groups.length globalBatchSize)
  let numRollouts := planSteps cfg args globalBatchSize groups
  let state ← scheduleSteps cfg args samples.totalLengths 0 numRollouts groups
    { ranks := List.replicate cfg.dpSize {} }
  return { partitions := state.ranks.map (·.partition)
           microBatchIndices := state.ranks.map (·.microBatchIndices)
           numMicrobatches := state.numMicrobatches
           numRollouts }

end Miles.DpSchedule
