import Miles.Native.Training.DpSchedule
import Miles.Native.Training.ResponseLayout

/-!
# The loss of a step

Model of `_compute_rollout_mask_sums` and `_package_shards`
(`miles/ray/rollout/train_data_conversion.py`), of the reduction and the scaling in `loss_function`
(`miles/backends/training_utils/loss/objective.py`) and of `aggregate_train_losses`
(`miles/backends/training_utils/metrics/log_utils.py`), for a scheduled split without context
parallelism or independent DP (`indep_dp`, replicas that reduce their losses once more) and a loss
that is not per token.

The losses of a sample's tokens are given; a sample has the columns that their reduction reads.
Numbers are exact.
-/

namespace Miles.RolloutLoss

open DpSchedule ResponseLayout

variable {ι K : Type} [DecidableEq ι]

/-! ## Training data -/

/-- The `totals` of `_compute_rollout_mask_sums` -/
def rolloutTotals (rolloutIds : List ι) (lossMasks : List (List Nat)) : PyDict ι Nat :=
  (rolloutIds.zip lossMasks).foldl (fun totals entry =>
    totals.set entry.1 (totals.getD entry.1 0 + entry.2.sum)) .empty

/-- `_compute_rollout_mask_sums` -/
def computeRolloutMaskSums (rolloutIds : List ι) (lossMasks : List (List Nat)) : List Nat :=
  rolloutIds.map fun rid => (rolloutTotals rolloutIds lossMasks).getD rid 0

/-- The columns of one sample. -/
structure TrainRow (K : Type) where
  lossMask : List Nat
  rolloutMaskSum : Nat
  tokenLosses : List K

/-- The rows of the training data. -/
def trainRows (rolloutIds : List ι) (lossMasks : List (List Nat)) (tokenLosses : List (List K)) :
    List (TrainRow K) :=
  List.zipWith (fun row tokenLosses => ⟨row.1, row.2, tokenLosses⟩)
    (lossMasks.zip (computeRolloutMaskSums rolloutIds lossMasks)) tokenLosses

/-- `[val[i] for i in indices]`: a column of a shard, or of one of its micro-batches. -/
def pick {α : Type} (val : List α) (indices : List Nat) : Option (List α) := indices.mapM (val[·]?)

/-! ## Losses -/

section

variable [Field K] [LinearOrder K]

/-- `sum_of_sample_mean` of the losses of a micro-batch, with `rollout_mask_sums` -/
def microBatchLoss (batch : List (TrainRow K)) : K :=
  getSumOfSampleMean (batch.map (·.lossMask.length))
    (batch.map fun row => row.lossMask.map Nat.cast) false
    (some (batch.map fun row => (row.rolloutMaskSum : K))) (batch.map (·.tokenLosses)).flatten

/-- The losses of the micro-batches of a rank in a step. -/
def stepLosses (rows : List (TrainRow K)) (sched : DPSchedule) (step rank : Nat) :
    Option (List K) := do
  let shard ← pick rows (sched.partitions.getD rank [])
  let microBatches :=
    (sched.numMicrobatches.splitLengths (sched.microBatchIndices.getD rank [])).getD step []
  microBatches.mapM fun indices => (pick shard indices).map microBatchLoss

/-- The scaling of `loss_function` -/
def scaledLoss (applyMegatronLossScaling : Bool) (numMicrobatches numRollouts dpSize : Nat)
    (loss : K) : K :=
  if applyMegatronLossScaling then loss * numMicrobatches / numRollouts * dpSize
  else loss / numRollouts * dpSize

/-- `aggregate_train_losses` of one metric, from the values of all ranks -/
def aggregateTrainLosses (losses : List (List K)) (numRollouts : Nat) : K :=
  (losses.map List.sum).sum / numRollouts

end

end Miles.RolloutLoss
