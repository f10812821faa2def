import Miles.ForStd.Lts
import Miles.Native.Rollout.DataBuffer

/-!
# Synchronous rollout generation

Model of `generate_rollout_async` and `abort` in
`miles/rollout/inference_rollout/inference_rollout_train.py`, with the submission scheduler of
`miles/rollout/submission_scheduler.py`.  What stands between two awaits is one step; a run is a
list of events in any order that the awaits allow.

A group is named by the number of its draw.  What its task ends with, the verdict of the dynamic
filter included, is part of the event that finishes it; the data source may return any number of
groups, each of `n_samples_per_prompt` samples.  The requests to the router and its workers, the
agent's abort hook and the filters after the batch is complete are left out: the sample filter
marks samples and does not remove any.
-/

namespace Miles.Rollout.Sync

/-! ## State -/

/-- The arguments of a rollout step.  `groupIndex` is the index of the first sample of a draw. -/
structure SyncArgs where
  rolloutBatchSize : Nat
  nSamplesPerPrompt : Nat
  granularity : Granularity
  partialRollout : Bool
  groupIndex : Nat → Int
  batch_pos : 0 < rolloutBatchSize

/-- What the task of a group ends with. -/
inductive GroupResult where
  /-- the group, whether the dynamic filter keeps it and whether one of its items is a list of
      samples -/
  | returned (keep nested : Bool)
  /-- an exception other than `NonRetryableError` -/
  | failed
  | nonRetryable
  deriving DecidableEq, Repr

/-- The reasons a group is recorded as dropped. -/
inductive DropReason where
  | dynamicFilter
  | oversampling
  | aborted
  deriving DecidableEq, Repr

/-- What a step fails with. -/
inductive SyncError where
  /-- the exception of a group's task -/
  | groupTask (group : Nat) (result : GroupResult)
  /-- `AttributeError` of `sample.response` on a list of samples -/
  | nestedGroup (group : Nat)
  /-- `assert not state.aborted` -/
  | stateAborted
  /-- `assert len(data) == args.rollout_batch_size` -/
  | batchSize
  deriving DecidableEq, Repr

/-- Where the step stands. -/
inductive SyncPhase where
  /-- in the loop that submits groups -/
  | submitting
  /-- in `wait_for_progress` -/
  | waiting
  /-- going through the tasks that are done -/
  | collecting (done : List (Nat × GroupResult))
  /-- `abort` waits for the pending tasks -/
  | draining
  | returned (batch : List Nat)
  | raised (error : SyncError)
  deriving DecidableEq, Repr

/-- The state of a rollout step.  `aborted` is the flag of the `GenerateState`, which outlives
    the step. -/
structure SyncState where
  aborted : Bool := false
  phase : SyncPhase := .submitting
  /-- how many groups the data source has handed out -/
  drawn : Nat := 0
  pendings : List Nat := []
  /-- `SampleBackfillSubmission.samples_in_flight` -/
  samplesInFlight : Int := 0
  data : List Nat := []
  dropped : List (Nat × DropReason) := []
  /-- groups whose task exception is logged -/
  failed : List Nat := []
  abortedSamples : List Nat := []
  deriving DecidableEq, Repr

/-! ## Submission scheduler -/

/-- `has_capacity`, and the samples in flight after it. -/
def hasCapacity (args : SyncArgs) (samplesInFlight : Int) (pendingGroups groupBudget : Nat) :
    Bool × Int :=
  match args.granularity with
  | .group => (pendingGroups < groupBudget, samplesInFlight)
  | .sample =>
    let samplesInFlight := if pendingGroups = 0 then 0 else samplesInFlight
    (samplesInFlight + args.nSamplesPerPrompt ≤ groupBudget * args.nSamplesPerPrompt,
      samplesInFlight)

/-- `on_submit` -/
def onSubmit (args : SyncArgs) (numGroups : Nat) (samplesInFlight : Int) : Int :=
  match args.granularity with
  | .group => samplesInFlight
  | .sample => samplesInFlight + numGroups * args.nSamplesPerPrompt

/-! ## Collecting and draining -/

/-- One task of `done`. -/
def collectGroup (args : SyncArgs) (group : Nat) (result : GroupResult)
    (done : List (Nat × GroupResult)) (s : SyncState) : SyncState :=
  match result with
  | .nonRetryable => { s with phase := .raised (.groupTask group result) }
  | .failed => { s with phase := .collecting done, failed := s.failed ++ [group] }
  | .returned keep _ =>
    let s := { s with phase := .collecting done }
    if !keep then { s with dropped := s.dropped ++ [(group, .dynamicFilter)] }
    else if s.data.length < args.rolloutBatchSize then { s with data := s.data ++ [group] }
    else { s with dropped := s.dropped ++ [(group, .oversampling)] }

/-- The main loop goes on while the batch is not complete; then `abort` sets the flag. -/
def endTurn (args : SyncArgs) (s : SyncState) : SyncState :=
  if s.data.length < args.rolloutBatchSize then { s with phase := .submitting }
  else if s.aborted then { s with phase := .raised .stateAborted }
  else { s with aborted := true, phase := .draining }

/-- One pending task of `abort`: nothing handles its exception. -/
def drainGroup (args : SyncArgs) (group : Nat) (result : GroupResult) (s : SyncState) :
    SyncState :=
  match result with
  | .nonRetryable | .failed => { s with phase := .raised (.groupTask group result) }
  | .returned _ nested =>
    let s := { s with pendings := s.pendings.erase group }
    if !args.partialRollout then { s with dropped := s.dropped ++ [(group, .aborted)] }
    else if nested then { s with phase := .raised (.nestedGroup group) }
    else { s with abortedSamples := s.abortedSamples ++ [group] }

/-- The end of the step: the batch sorted by index, and `state.reset()`. -/
def finishStep (args : SyncArgs) (s : SyncState) : SyncState :=
  if s.data.length ≠ args.rolloutBatchSize then { s with phase := .raised .batchSize }
  else
    { s with
      phase := .returned (s.data.insertionSort fun a b => args.groupIndex a ≤ args.groupIndex b)
      aborted := false }

/-! ## Events -/

/-- What can happen during a step. -/
inductive SyncEvent where
  /-- the data source returns this many groups, and their tasks start -/
  | submit (numGroups : Nat)
  | stopSubmitting
  /-- `sample_done_callback` -/
  | sampleDone
  /-- the wait returns with these tasks -/
  | wake (done : List (Nat × GroupResult))
  | collect
  /-- a pending task ends while `abort` waits -/
  | drain (group : Nat) (result : GroupResult)
  | finish
  deriving DecidableEq, Repr

/-- One step of `generate_rollout_async`; `none` when the event is not possible. -/
def step (args : SyncArgs) (s : SyncState) : SyncEvent → Option SyncState
  | .submit numGroups =>
    let (capacity, samplesInFlight) := hasCapacity args s.samplesInFlight s.pendings.length
      (args.rolloutBatchSize - s.data.length)
    if s.phase = .submitting ∧ capacity then
      some { s with
        drawn := s.drawn + numGroups
        pendings := s.pendings ++ List.range' s.drawn numGroups
        samplesInFlight := onSubmit args numGroups samplesInFlight }
    else none
  | .stopSubmitting =>
    let (capacity, samplesInFlight) := hasCapacity args s.samplesInFlight s.pendings.length
      (args.rolloutBatchSize - s.data.length)
    if s.phase = .submitting ∧ !capacity then some { s with phase := .waiting, samplesInFlight }
    else none
  | .sampleDone =>
    if s.phase = .waiting ∨ s.phase = .draining then
      some { s with samplesInFlight := s.samplesInFlight - 1 }
    else none
  | .wake done =>
    -- with sample backfill the wait may return for a single sample
    if s.phase = .waiting ∧ (done.map Prod.fst).Nodup ∧
        (∀ group ∈ done.map Prod.fst, group ∈ s.pendings) ∧
        (args.granularity = .group → done ≠ []) then
      some { s with
        pendings := s.pendings.filter (· ∉ done.map Prod.fst)
        phase := .collecting done }
    else none
  | .collect =>
    match s.phase with
    | .collecting [] => some (endTurn args s)
    | .collecting ((group, result) :: done) => some (collectGroup args group result done s)
    | _ => none
  | .drain group result =>
    if s.phase = .draining ∧ group ∈ s.pendings then some (drainGroup args group result s) else none
  | .finish => if s.phase = .draining ∧ s.pendings = [] then some (finishStep args s) else none

end Miles.Rollout.Sync
