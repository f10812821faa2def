import Miles.ForStd.Lts
import Miles.Native.Rollout.DataBuffer

/-!
# Fully asynchronous rollout generation

Model of `FullyAsyncRolloutFn` in `miles/rollout/fully_async_rollout.py` and of the submission
scheduler it paces itself with.  The worker, the generation tasks and the drain run on one event
loop, so what stands between two awaits is one step; a run is a list of events in any order
that the awaits allow.

One drain is pending at a time: the training loop awaits a batch before it asks for the next.
-/

namespace Miles.Rollout

/-! ## State -/

/-- What a generation task ended with. -/
inductive TaskResult where
  | finished (group : Group)
  | cancelled
  /-- it raised -/
  | failed
  deriving DecidableEq

/-- `_RunningTask`, with the result of the task once it is done. -/
structure RunningTask where
  task : Nat
  promptGroup : PromptGroup
  result : Option TaskResult := none
  deriving DecidableEq

/-- Where the worker stands. -/
inductive Phase where
  /-- the first training call has not come yet -/
  | notStarted
  /-- at the top of the loop, waiting for `_producer_resumed` -/
  | resuming
  /-- in the loop that submits groups -/
  | submitting
  /-- waiting for progress or for admission -/
  | waiting
  /-- putting the groups of the tasks that are done, one after the other -/
  | collecting (done : List Nat)
  /-- in a `put` that has passed the filters and waits for room -/
  | putting (task : Nat) (entry : DataBufferInput) (done : List Nat)
  /-- cancelled, or ended by an exception -/
  | ended
  deriving DecidableEq

/-- The arguments of the pending `get`. -/
structure GetCall where
  numGroups : Nat
  currentVersion : Option Nat
  deriving DecidableEq

/-- A group returned to training, with the weight version of the `get` that took it. -/
structure Taken where
  entry : Buffered
  version : Option Nat
  deriving DecidableEq

/-- The state of a fully-async rollout.  `drawn`, `returned` and `dropped` record what happened
    to the groups; no step reads the last two. -/
structure State where
  retryBuffer : List PromptGroup := []
  runningTasks : List RunningTask := []
  /-- the worker's `active` tasks -/
  active : List Nat := []
  phase : Phase := .notStarted
  producerResumed : Bool := true
  /-- `SampleBackfillSubmission.samples_in_flight` -/
  samplesInFlight : Int := 0
  buffer : List Buffered := []
  /-- `_get_pending`, with the arguments of the `get` -/
  pendingGet : Option GetCall := none
  /-- the weight version published to the executor -/
  weightVersion : Option Nat := none
  nextTask : Nat := 0
  /-- how many groups the data source has handed out -/
  drawn : Nat := 0
  returned : List Taken := []
  dropped : List PromptGroup := []
  deriving DecidableEq

/-- `_recycle` or `_drop_unused` -/
def handleUnused (args : Args) (promptGroup : PromptGroup) (s : State) : State :=
  match args.unusedHandler with
  | .retry => { s with retryBuffer := s.retryBuffer ++ [promptGroup.resetForRetry] }
  | .drop => { s with dropped := s.dropped ++ [promptGroup] }

/-! ## Producer -/

/-- `_max_in_flight_groups` -/
def maxInFlightGroups (args : Args) : Nat :=
  match args.asyncMaxConcurrentSamples with
  | some x => max 1 (x / args.nSamplesPerPrompt)
  | none => args.rolloutBatchSize

/-- `has_capacity`, and the samples in flight after it. -/
def hasCapacity (args : Args) (samplesInFlight : Int) (pendingGroups groupBudget : Nat) :
    Bool × Int :=
  match args.granularity with
  | .group => (pendingGroups < groupBudget, samplesInFlight)
  | .sample =>
    let samplesInFlight := if pendingGroups = 0 then 0 else samplesInFlight
    (samplesInFlight + args.nSamplesPerPrompt ≤ groupBudget * args.nSamplesPerPrompt,
      samplesInFlight)

/-- `_submit_one_group`: a group to retry, or a new one of the data source. -/
def submitOneGroup (args : Args) (dataSource : Nat → List Sample) (s : State) : State :=
  let (promptGroup, s) := match s.retryBuffer with
    | promptGroup :: rest => (promptGroup, { s with retryBuffer := rest })
    | [] => ({ id := s.drawn, samples := dataSource s.drawn }, { s with drawn := s.drawn + 1 })
  { s with
    runningTasks := s.runningTasks ++ [{ task := s.nextTask, promptGroup }]
    active := s.active ++ [s.nextTask]
    nextTask := s.nextTask + 1
    samplesInFlight := match args.granularity with
      | .group => s.samplesInFlight
      | .sample => s.samplesInFlight + promptGroup.samples.length }

/-- `_collect_group_result`: a cancelled task counts as aborted; `none` if the task raised. -/
def collectGroupResult (promptGroup : PromptGroup) : TaskResult → Option DataBufferInput
  | .finished group => some { promptGroup, group }
  | .cancelled => some {
      promptGroup
      group := promptGroup.samples.map fun sample => .inl { sample with status := .aborted } }
  | .failed => none

/-- The running tasks without one of them. -/
def dropTask (task : Nat) (runningTasks : List RunningTask) : List RunningTask :=
  runningTasks.filter fun x => x.task ≠ task

/-- The end of a generation task, which may have changed the samples of its prompt group. -/
def finishTask (task : Nat) (samples : List Sample) (result : TaskResult) (x : RunningTask) :
    RunningTask :=
  if x.task = task then
    { x with promptGroup := { x.promptGroup with samples }, result := some result }
  else x

/-- Collect the next task that is done, and `put` its group up to the wait for room. -/
def collectTask (args : Args) (task : Nat) (done : List Nat) (s : State) : Option State := do
  let running ← s.runningTasks.find? (·.task = task)
  let result ← running.result
  match collectGroupResult running.promptGroup result with
  | none => return { s with phase := .ended }
  | some entry =>
    match preputFilter args entry.group with
    | none => return { s with phase := .ended }
    | some .keep => return { s with phase := .putting task entry done }
    | some verdict =>
      -- only an aborted group goes to the unused handler
      let s := if verdict = .aborted then handleUnused args entry.promptGroup s
        else { s with dropped := s.dropped ++ [entry.promptGroup] }
      return { s with runningTasks := dropTask task s.runningTasks, phase := .collecting done }

/-! ## Consumer -/

/-- One turn of `_take`: drop stale groups, and take a batch if there are enough. -/
def takeTurn (args : Args) (call : GetCall) (s : State) : State :=
  let (kept, stale) := dropStale args call.currentVersion s.buffer
  let s := stale.foldl (fun s entry => handleUnused args entry.promptGroup s) s
  if call.numGroups ≤ kept.length then
    { s with
      buffer := kept.drop call.numGroups
      returned := s.returned ++ (kept.take call.numGroups).map (⟨·, call.currentVersion⟩)
      pendingGet := none }
  else { s with buffer := kept }

/-! ## Checkpoints -/

/-- `_FullyAsyncRolloutState` -/
structure SavedState where
  retryBuffer : List PromptGroup
  running : List PromptGroup
  output : List Buffered
  deriving DecidableEq

/-- `save` -/
def save (s : State) : SavedState where
  retryBuffer := s.retryBuffer
  running := s.runningTasks.map (·.promptGroup.resetForRetry)
  output := s.buffer

/-- `DefaultDataBuffer.load_state_dict` -/
def loadStateDict (args : Args) (output : List Buffered) (s : State) : State :=
  output.foldl (fun s entry =>
    if regeneratedOnRestore args.useOutputStore entry.group then
      handleUnused args entry.promptGroup s
    else { s with buffer := s.buffer ++ [entry] }) s

/-- `load`, into a rollout function that has not started. -/
def load (args : Args) (saved : SavedState) (s : State) : State :=
  loadStateDict args saved.output { s with retryBuffer := saved.retryBuffer ++ saved.running }

/-! ## Events -/

/-- What can happen on the event loop. -/
inductive Event where
  /-- the first training call starts the worker -/
  | startWorker
  /-- an evaluation on the shared engines pauses and resumes submissions -/
  | pauseProducer
  | resumeProducer
  | beginTurn
  | submit
  | stopSubmitting
  /-- `sample_done_callback` -/
  | sampleDone
  /-- a generation task ends -/
  | finish (task : Nat) (samples : List Sample) (result : TaskResult)
  /-- the wait returns with these tasks -/
  | wake (done : List Nat)
  | collect
  /-- there is room: the put that waits appends its group -/
  | append
  /-- the worker is cancelled while it awaits -/
  | endWorker
  | get
  | takeTurn
  | cancelGet
  /-- `set_weight_version` -/
  | publish (version : Nat)
  /-- a new process loads what this one saves -/
  | restart
  deriving DecidableEq

/-- One step of the fully-async rollout; `none` when the event is not possible. -/
def step (args : Args) (dataSource : Nat → List Sample) (s : State) : Event → Option State
  | .startWorker =>
    if s.phase = .notStarted then some { s with phase := .resuming } else none
  | .pauseProducer => some { s with producerResumed := false }
  | .resumeProducer => some { s with producerResumed := true }
  | .beginTurn =>
    if s.phase = .resuming ∧ s.producerResumed then some { s with phase := .submitting } else none
  | .submit =>
    let (capacity, samplesInFlight) := hasCapacity args s.samplesInFlight s.active.length
      (maxInFlightGroups args)
    if s.phase = .submitting ∧ admits args s.buffer.length s.active.length s.pendingGet.isSome ∧
        capacity then
      some (submitOneGroup args dataSource { s with samplesInFlight })
    else none
  | .stopSubmitting =>
    let (capacity, samplesInFlight) := hasCapacity args s.samplesInFlight s.active.length
      (maxInFlightGroups args)
    if s.phase ≠ .submitting then none
    else if admits args s.buffer.length s.active.length s.pendingGet.isSome then
      if capacity then none else some { s with phase := .waiting, samplesInFlight }
    else some { s with phase := .waiting }
  | .sampleDone => some { s with samplesInFlight := s.samplesInFlight - 1 }
  | .finish task samples result =>
    if s.runningTasks.any fun x => x.task = task ∧ x.result = none then
      some { s with runningTasks := s.runningTasks.map (finishTask task samples result) }
    else none
  | .wake done =>
    if s.phase = .waiting ∧ done.Nodup ∧ (∀ task ∈ done, task ∈ s.active) ∧
        ∀ task ∈ done, s.runningTasks.any fun x => x.task = task ∧ x.result.isSome then
      some { s with phase := .collecting done, active := s.active.filter (· ∉ done) }
    else none
  | .collect =>
    match s.phase with
    | .collecting [] => some { s with phase := .resuming }
    | .collecting (task :: done) => collectTask args task done s
    | _ => none
  | .append =>
    match s.phase with
    | .putting task entry done =>
      if s.buffer.length < args.capacity then
        some { s with
          buffer := s.buffer ++ [{ entry with enteredAt := s.weightVersion }]
          runningTasks := dropTask task s.runningTasks
          phase := .collecting done }
      else none
    | _ => none
  | .endWorker =>
    match s.phase with
    | .resuming | .waiting | .putting _ _ _ => some { s with phase := .ended }
    | _ => none
  | .get =>
    if s.pendingGet = none ∧ s.phase ≠ .notStarted ∧ s.phase ≠ .ended then
      some { s with pendingGet := some ⟨args.rolloutBatchSize, s.weightVersion⟩ }
    else none
  | .takeTurn => s.pendingGet.map fun call => takeTurn args call s
  | .cancelGet => if s.pendingGet = none then none else some { s with pendingGet := none }
  | .publish version =>
    if s.weightVersion.all (· ≤ version) then some { s with weightVersion := some version } else none
  | .restart =>
    some (load args (save s) { drawn := s.drawn, returned := s.returned, dropped := s.dropped })

end Miles.Rollout
