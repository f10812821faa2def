import Mathlib

/-!
# The data buffer between rollout production and training

Model of `DefaultDataBuffer` in `miles/rollout/fully_async_data_buffer.py`, with the filters
of `miles/rollout/filter_hub` it calls: a FIFO of finished groups that rejects some on `put`
and drops stale ones on `get`.

Metrics and the output store refs that a drop hands to the executor are not modelled; no
decision of the buffer reads them.
-/

namespace Miles.Rollout

/-! ## Samples and groups -/

/-- `Sample.Status` -/
inductive Status where
  | pending | completed | truncated | aborted | failed
  deriving DecidableEq, Repr

/-- A reward: a number, or a dictionary of numbers. -/
inductive Reward where
  | scalar (value : Rat)
  | keyed (values : List (String × Option Rat))
  deriving DecidableEq

/-- The fields of `Sample` that the buffer reads or that tell samples apart. -/
structure Sample where
  index : Nat
  status : Status := .pending
  reward : Option Reward := none
  /-- versions of the spans of each generation call; `none` for one that is not a number -/
  weightVersions : List (List (Option Nat)) := []
  /-- keys of the output store refs that `rollout_store_plan` owns -/
  ownedRefs : List String := []
  /-- routed experts, indexer top-k or a sampling mask held inline -/
  hasInlineReplay : Bool := false
  deriving DecidableEq

/-- `Sample.reset_for_retry`: what generation added is gone. -/
def Sample.resetForRetry (s : Sample) : Sample :=
  { index := s.index, status := .aborted }

/-- A finished group: samples, or lists of samples of one trajectory. -/
abbrev Group := List (Sample ⊕ List Sample)

/-- `iter_samples` -/
def iterSamples (group : Group) : List Sample :=
  group.flatMap fun item =>
    match item with
    | .inl sample => [sample]
    | .inr samples => samples

/-- A prompt group, told apart by how many groups were drawn from the data source before it. -/
structure PromptGroup where
  id : Nat
  samples : List Sample
  deriving DecidableEq

/-- Reset all samples of a group. -/
def PromptGroup.resetForRetry (g : PromptGroup) : PromptGroup :=
  { g with samples := g.samples.map Sample.resetForRetry }

/-- `DataBufferInput` -/
structure DataBufferInput where
  promptGroup : PromptGroup
  group : Group
  deriving DecidableEq

/-- `--async-unused-samples-handler` -/
inductive UnusedHandler where
  | retry | drop
  deriving DecidableEq, Repr

/-- `--rollout-submission-granularity` -/
inductive Granularity where
  | group | sample
  deriving DecidableEq, Repr

/-- The arguments of a fully-async run.  A rollout batch has a group, and the buffer has room
    for a batch. -/
structure Args where
  rolloutBatchSize : Nat
  nSamplesPerPrompt : Nat
  asyncMaxConcurrentSamples : Option Nat
  granularity : Granularity
  /-- `int(async_data_buffer_capacity_factor * rollout_batch_size)` -/
  capacity : Nat
  unusedHandler : UnusedHandler
  rewardKey : Option String
  maxWeightStaleness : Option Nat
  asyncSubmitWithinStaleness : Bool
  useOutputStore : Bool
  /-- `--dynamic-sampling-filter-path`; `none` when it raises -/
  dynamicFilter : Group → Option Bool
  batch_pos : 0 < rolloutBatchSize
  batch_le_capacity : rolloutBatchSize ≤ capacity
  /-- checked with the other arguments -/
  staleness_set : asyncSubmitWithinStaleness = true → maxWeightStaleness.isSome

/-! ## Filters on put -/

/-- Whether `sample.reward` or its value is missing; looking up a key can raise. -/
def missingReward (rewardKey : Option String) (sample : Sample) : Option Bool :=
  match sample.reward with
  | none => some true
  | some reward =>
    match rewardKey with
    | none => some false
    | some key =>
      if key = "" then some false
      else
        match reward with
        | .scalar _ => none
        | .keyed values =>
          match values.find? (·.1 = key) with
          | none => none
          | some (_, value) => some value.isNone

/-- What `_preput_filter` says about a finished group. -/
inductive Verdict where
  | keep | aborted | missingReward | dynamicFilter
  deriving DecidableEq, Repr

/-- `_preput_filter`: the first filter that rejects the group. -/
def preputFilter (args : Args) (group : Group) : Option Verdict := do
  if (iterSamples group).any (·.status = .aborted) then
    return .aborted
  if ← (iterSamples group).anyM (Rollout.missingReward args.rewardKey) then
    return .missingReward
  if ← args.dynamicFilter group then
    return .keep
  else
    return .dynamicFilter

/-! ## The buffer -/

/-- `group_weight_version_stats(group).oldest_version` -/
def oldestVersion (group : Group) : Option Nat :=
  ((iterSamples group).flatMap fun sample => sample.weightVersions.flatten.filterMap id).min?

/-- `group_staleness` -/
def groupStaleness (group : Group) (currentVersion : Option Nat) : Option Int :=
  match oldestVersion group, currentVersion with
  | some oldest, some current => some ((current : Int) - oldest)
  | _, _ => none

/-- A group in the buffer, with the weight version that was current when it entered. -/
structure Buffered extends DataBufferInput where
  enteredAt : Option Nat
  deriving DecidableEq

/-- The condition under which `_drop_stale` keeps a group. -/
def withinStaleness (args : Args) (currentVersion : Option Nat) (entry : Buffered) : Bool :=
  match args.maxWeightStaleness, groupStaleness entry.group currentVersion with
  | some limit, some staleness => staleness ≤ limit
  | _, _ => true

/-- `_drop_stale`: the groups kept, and those for the unused handler. -/
def dropStale (args : Args) (currentVersion : Option Nat) (buffer : List Buffered) :
    List Buffered × List Buffered :=
  (buffer.filter (withinStaleness args currentVersion),
    buffer.filter fun entry => !withinStaleness args currentVersion entry)

/-- `admits`: whether one more group may be submitted. -/
def admits (args : Args) (buffered inFlight : Nat) (getPending : Bool) : Bool :=
  if args.asyncSubmitWithinStaleness then
    let window := args.maxWeightStaleness.getD 0 + if getPending then 1 else 0
    buffered + inFlight < window * args.rolloutBatchSize
  else true

/-- `regenerated_on_restore`: whether a restored group must be generated again. -/
def regeneratedOnRestore (useOutputStore : Bool) (group : Group) : Bool :=
  (iterSamples group).any (!·.ownedRefs.isEmpty) ||
    (useOutputStore && (iterSamples group).any (·.hasInlineReplay))

end Miles.Rollout
