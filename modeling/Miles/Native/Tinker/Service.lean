import Miles.Native.Tinker.Scheduler

/-!
# Tinker service

Model of `miles/tinker/core/service.py` and `future.py`: sessions, models and their adapter
slots, request futures, the trainer lock and the dispatcher.

All of it runs on one event loop, so what stands between two awaits is one step.  The trainer
lock is granted in the order in which the tasks asked for it.  Its holder stands at an await,
with the rest of its critical section as a list of jobs; a reply of the trainer ends the await.
While it waits, clients submit commands, create models and sample.
-/

namespace Miles.Tinker

structure GatewayConfig where
  nSlots : Nat
  batchTokenBudget : Nat
  leaseTimeout : Nat

/-! ## Futures -/

/-- `_FINISHED_TTL_S`, in the ticks of the clock. -/
def finishedTtl : Nat := 3600000

inductive Result where
  | createModel (modelId : Nat)
  | outputs (op : CommandOp) (outputs : List (Option Output))
  | barrier (op : CommandOp)
  | sample
  deriving DecidableEq

/-- What a request ends with. -/
inductive Outcome where
  | result (result : Result)
  | error (error : String) (category : Category)
  deriving DecidableEq

inductive FutureState where
  | pending
  | settled (outcome : Outcome)
  deriving DecidableEq

/-- What a future belongs to: a model, or a sampling request. -/
inductive FutureOwner where
  | model (modelId : Nat)
  | sampler
  deriving DecidableEq

structure RequestFuture where
  requestId : Nat
  owner : FutureOwner
  tenant : String
  state : FutureState := .pending
  finishedAt : Option Nat := none
  deriving DecidableEq

namespace RequestFutureStore

/-- `_sweep`: forget the answers given long ago. -/
def sweep (now : Nat) (futures : List RequestFuture) : List RequestFuture :=
  futures.filter fun f =>
    match f.finishedAt with
    | some finishedAt => now - finishedAt ≤ finishedTtl
    | none => true

/-- `resolve` and `fail`: only a pending future takes an answer. -/
def settle (requestId : Nat) (outcome : Outcome) (now : Nat) (futures : List RequestFuture) :
    List RequestFuture :=
  futures.map fun f =>
    if f.requestId = requestId ∧ f.state = .pending then
      { f with state := .settled outcome, finishedAt := some now }
    else f

end RequestFutureStore

/-! ## State -/

structure ModelRecord where
  modelId : Nat
  sessionId : Nat
  tenant : String
  slot : Nat
  createRequestId : Nat
  requestIdBySeq : List (Nat × Nat) := []
  slotInitialized : Bool := false
  deriving DecidableEq

structure SessionRecord where
  sessionId : Nat
  tenant : String
  lastHeartbeat : Nat
  /-- request and model of each `model_seq_id` -/
  modelsBySeq : List (Nat × Nat × Nat) := []
  deriving DecidableEq

/-- Who can hold the trainer lock. -/
inductive Task where
  | dispatcher
  | createModel (modelId : Nat)
  | finishSession (tenant : String) (sessionId : Nat)
  | expireSessions
  | deleteCheckpoint
  | expireCheckpoints
  deriving DecidableEq

/-- Tasks whose exception stops the dispatcher, and which it cancels when it stops. -/
def Task.isBackground : Task → Bool
  | .createModel _ | .expireSessions | .expireCheckpoints => true
  | _ => false

/-- What the holder of the lock waits for. -/
inductive Await where
  /-- `load_slot` of a new model -/
  | loadSlot (modelId : Nat) (slot : Nat)
  | forward (unit : BatchUnit) (refs : List DatumRef)
  | barrier (unit : BarrierUnit)
  /-- `trainer_dead` after a unit -/
  | checkTrainer
  /-- `trainer_dead` in `_close_model` -/
  | closeTrainerDead (record : ModelRecord)
  /-- `unload_slot` in `_close_model` -/
  | closeUnload (record : ModelRecord)
  /-- work on checkpoint files -/
  | checkpoints
  deriving DecidableEq

/-- What is left to do in a critical section. -/
inductive Job where
  /-- `_finish_request` -/
  | finish (command : Command) (outcome : Outcome)
  /-- `_close_model` -/
  | close (modelId : Nat) (error : String) (category : Category)
  | checkTrainer
  deriving DecidableEq

structure Holder where
  task : Task
  awaiting : Await
  jobs : List Job
  deriving DecidableEq

/-- Where the dispatcher stands. -/
inductive Dispatcher where
  /-- at the top of its loop -/
  | atLoop
  /-- waiting for the trainer lock -/
  | waiting
  /-- in its critical section -/
  | running
  /-- waiting for `_wake` -/
  | asleep
  /-- ended by an exception -/
  | stopped
  deriving DecidableEq

/-- Why a slot does not return to the free slots when its model closes. -/
inductive WithheldReason where
  | trainerDead
  | unloadFailed
  /-- the trainer call of the close raised, or the service is stopping -/
  | interrupted
  deriving DecidableEq

/-- What happened, in order; no step reads it. -/
inductive TraceEvent where
  /-- a command was admitted, and is not a retry -/
  | submitted (command : Command)
  | loaded (modelId : Nat) (slot : Nat)
  | unloadStarted (slot : Nat)
  /-- data handed to the trainer, in the order of the call -/
  | batchIssued (refs : List DatumRef)
  | barrierIssued (entries : List BarrierEntry)
  /-- the trainer's answer to a batch, aligned to its data -/
  | answered (refs : List DatumRef) (outputs : List Output)
  /-- a command left its queue -/
  | finished (modelId : Nat) (seqId : Nat) (outcome : Outcome)
  deriving DecidableEq

/-- The state of the service.  `withheld` and `trace` are only written. -/
structure Service where
  models : List ModelRecord := []
  sessions : List SessionRecord := []
  /-- the scheduler's `_model_queues` -/
  queues : List ModelRequestQueue := []
  freeSlots : List Nat
  futures : List RequestFuture := []
  /-- running samples, with their sessions -/
  sampleTasks : List (Nat × Option Nat) := []
  /-- identifiers below this one are in use -/
  nextId : Nat := 0
  arrivalCounter : Nat := 0
  holder : Option Holder := none
  waiters : List Task := []
  /-- create tasks that have not run yet -/
  starting : List Nat := []
  dispatcher : Dispatcher := .atLoop
  wake : Bool := false
  backgroundError : Bool := false
  clock : Nat := 0
  withheld : List (Nat × WithheldReason) := []
  trace : List TraceEvent := []
  deriving DecidableEq

/-- `TinkerService.__init__` -/
def init (config : GatewayConfig) : Service where
  freeSlots := List.range config.nSlots

namespace Service

/-! ## Small operations -/

def record (e : TraceEvent) (s : Service) : Service := { s with trace := s.trace ++ [e] }

def findModel (modelId : Nat) (s : Service) : Option ModelRecord :=
  s.models.find? (·.modelId = modelId)

def settle (requestId : Nat) (outcome : Outcome) (s : Service) : Service :=
  { s with futures := RequestFutureStore.settle requestId outcome s.clock s.futures }

/-- Several requests end the same way. -/
def settleAll (requestIds : List Nat) (outcome : Outcome) (s : Service) : Service :=
  let settleOne := fun futures requestId =>
    RequestFutureStore.settle requestId outcome s.clock futures
  { s with futures := requestIds.foldl settleOne s.futures }

def sweepFutures (s : Service) : Service :=
  { s with futures := RequestFutureStore.sweep s.clock s.futures }

/-- `futures.create`; the new future has the next identifier. -/
def createFuture (owner : FutureOwner) (tenant : String) (s : Service) : Service :=
  { s with
    futures := s.futures ++ [{ requestId := s.nextId, owner, tenant }]
    nextId := s.nextId + 1 }

/-- `request_id_for_retry`: an answer that was forgotten is replaced by a failure. -/
def requestIdForRetry (requestId : Nat) (owner : FutureOwner) (tenant : String) (s : Service) :
    Nat × Service :=
  let s := s.sweepFutures
  if s.futures.any (·.requestId = requestId) then (requestId, s)
  else (s.nextId, (s.createFuture owner tenant).settle s.nextId
    (.error "result expired after retention" .user))

/-- Change the model with this identifier. -/
def modifyModel (modelId : Nat) (f : ModelRecord → ModelRecord) (s : Service) : Service :=
  { s with models := s.models.map fun r => if r.modelId = modelId then f r else r }

/-- Change the queue of one model. -/
def modifyQueue (modelId : Nat) (f : ModelRequestQueue → ModelRequestQueue) (s : Service) :
    Service :=
  { s with queues := s.queues.map fun q => if q.modelId = modelId then f q else q }

/-! ## Closing models -/

/-- `_close_model` up to its first await: the model and its queue go, and its requests fail. -/
def closeModel (modelId : Nat) (error : String) (category : Category) (s : Service) :
    Service × Option Await :=
  match s.findModel modelId with
  | none => (s, none)
  | some record =>
    let requestIds := record.createRequestId :: record.requestIdBySeq.map (·.2)
    ({ s.sweepFutures.settleAll requestIds (.error error category) with
      models := s.models.filter (·.modelId ≠ modelId)
      queues := s.queues.filter (·.modelId ≠ modelId) }, some (.closeTrainerDead record))

/-- A request gets its answer and leaves its queue. -/
def finishPending (command : Command) (outcome : Outcome) (s : Service) : Service :=
  ((s.settle command.requestId outcome).modifyQueue command.modelId
    (·.finish command.seqId)).record (.finished command.modelId command.seqId outcome)

/-- `_finish_request` -/
def finishRequest (command : Command) (outcome : Outcome) (s : Service) :
    Service × Option Await :=
  match outcome with
  | .error error category =>
    if command.op.requiresModelCloseOnFailure category then
      s.closeModel command.modelId
        ("model training failed (" ++ error ++
          "); create a new model and restore from a checkpoint") category
    else (s.finishPending command outcome, none)
  | .result _ => (s.finishPending command outcome, none)

def runJob : Job → Service → Service × Option Await
  | .finish command outcome, s => s.finishRequest command outcome
  | .close modelId error category, s => s.closeModel modelId error category
  | .checkTrainer, s => (s, some .checkTrainer)

/-! ## The trainer lock -/

/-- The holder leaves its critical section. -/
def release (task : Task) (s : Service) : Service :=
  { s with
    holder := none
    dispatcher := if task = .dispatcher then .atLoop else s.dispatcher }

/-- Run what is left of a critical section up to its next await or its end. -/
def runJobs (task : Task) : List Job → Service → Service
  | [], s => s.release task
  | job :: jobs, s =>
    match s.runJob job with
    | (s, none) => runJobs task jobs s
    | (s, some awaiting) => { s with holder := some { task, awaiting, jobs } }

/-- The `finally` of `run`: background tasks are cancelled. -/
def stopDispatcher (s : Service) : Service :=
  { s with
    dispatcher := .stopped
    starting := []
    waiters := s.waiters.filter fun task => !task.isBackground }

/-- An exception leaves the critical section. -/
def abort (task : Task) (s : Service) : Service :=
  let s := s.release task
  if task = .dispatcher then s.stopDispatcher
  else if task.isBackground then { s with backgroundError := true, wake := true }
  else s

/-- The data of a unit in the order of the trainer call: slot after slot. -/
def slotOrder (refs : List DatumRef) : List DatumRef :=
  refs.insertionSort fun a b => a.slot ≤ b.slot

/-- The dispatcher's critical section: refused commands first, else one unit. -/
def dispatch (config : GatewayConfig) (s : Service) : Service :=
  match RequestScheduler.readyRejections s.queues with
  | p :: ps =>
    runJobs .dispatcher ((p :: ps).map fun p =>
      .finish p.command (.error (p.command.validationError.getD "") .user)) s
  | [] =>
    match RequestScheduler.scheduleNext config.batchTokenBudget s.queues with
    | none => { s.release .dispatcher with dispatcher := .asleep }
    | some (.batch unit) =>
      let refs := slotOrder unit.datums
      { s.record (.batchIssued refs) with
        queues := RequestScheduler.markIssued unit.datums s.queues
        holder := some {
          task := .dispatcher, awaiting := .forward unit refs, jobs := [.checkTrainer] } }
    | some (.barrier unit) =>
      { s.record (.barrierIssued unit.entries) with
        holder := some {
          task := .dispatcher, awaiting := .barrier unit, jobs := [.checkTrainer] } }

/-- `_end_sessions` up to the first close, and the closes. -/
def endSessions (sessionIds : List Nat) (error : String) (s : Service) : Service × List Job :=
  let samples := (s.sampleTasks.filter fun x => x.2.any (· ∈ sessionIds)).map (·.1)
  ({ s.settleAll samples (.error error .user) with
      sessions := s.sessions.filter fun x => x.sessionId ∉ sessionIds },
    (s.models.filter (·.sessionId ∈ sessionIds)).map fun r => .close r.modelId error .user)

/-- The critical section of a task that got the lock, up to its first await. -/
def enter (config : GatewayConfig) (task : Task) (s : Service) : Service :=
  match task with
  | .dispatcher => { s with dispatcher := .running }.dispatch config
  | .createModel modelId =>
    match s.findModel modelId with
    | none => s.release task
    | some r => { s with
        holder := some { task, awaiting := .loadSlot modelId r.slot, jobs := [] } }
  | .finishSession tenant sessionId =>
    if s.sessions.any fun x => x.sessionId = sessionId ∧ x.tenant = tenant then
      let (s, jobs) := s.endSessions [sessionId] "session finished"
      s.runJobs task jobs
    else s.release task
  | .expireSessions =>
    let expired := (s.sessions.filter fun x =>
      config.leaseTimeout ≤ s.clock - x.lastHeartbeat).map (·.sessionId)
    let (s, jobs) := s.endSessions expired "lease expired"
    s.runJobs task jobs
  | .deleteCheckpoint | .expireCheckpoints =>
    { s with holder := some { task, awaiting := .checkpoints, jobs := [] } }

/-- `async with self._trainer_lock`: a free lock is taken at once, else the task queues up. -/
def acquire (config : GatewayConfig) (task : Task) (s : Service) : Service :=
  if s.holder.isNone ∧ s.waiters = [] then s.enter config task
  else { s with
    waiters := s.waiters ++ [task]
    dispatcher := if task = .dispatcher then .waiting else s.dispatcher }

/-! ## Replies of the trainer -/

/-- How the call the lock holder waits for can end. -/
inductive Reply where
  /-- without a failure -/
  | done
  /-- with an error result -/
  | failed (error : String)
  /-- `UserInputError` or `OwnershipError` -/
  | refused (error : String)
  | outputs (outputs : List Output)
  /-- of the entries of a barrier; `none` is a success -/
  | outcomes (outcomes : List (Option (String × Category)))
  /-- the answer of `trainer_dead` -/
  | trainerDead (dead : Bool)
  /-- any other exception -/
  | raised
  /-- the task was cancelled -/
  | cancelled
  deriving DecidableEq

/-- The outcome of a request whose data all reported. -/
def batchResult (p : PendingRequest) : Outcome := .result (.outputs p.command.op p.outputs)

/-- Store one output, and finish its request if it was the last one. -/
def recordOutput (ref : DatumRef) (output : Output) (s : Service) : Service :=
  let s := s.modifyQueue ref.modelId
    (·.modify ref.command.seqId (·.recordOutput ref.localIndex output))
  match (s.queues.find? (·.modelId = ref.modelId)).bind fun q =>
      q.queue.find? (·.command.seqId = ref.command.seqId) with
  | none => s
  | some p => if p.remaining = 0 then (s.finishRequest p.command (batchResult p)).1 else s

/-- The loop over the outputs in `_run_batch`. -/
def recordOutputs : List (DatumRef × Output) → Service → Service
  | [], s => s
  | (ref, output) :: rest, s => recordOutputs rest (s.recordOutput ref output)

/-- `_fail_batch`: each request of the unit fails once. -/
def failBatch (refs : List DatumRef) (error : String) (category : Category) : List Job :=
  ((refs.map (·.command)).eraseDups).map fun command => .finish command (.error error category)

/-- The outcome of one entry of a barrier. -/
def barrierOutcome (op : CommandOp) : Option (String × Category) → Outcome
  | none => .result (.barrier op)
  | some (error, category) => .error error category

/-- The requests of a barrier with their outcomes. -/
def finishEntries (entries : List BarrierEntry) (outcomes : List (Option (String × Category))) :
    List Job :=
  (entries.zip outcomes).map fun x => .finish x.1.command (barrierOutcome x.1.command.op x.2)

/-- The slot of a closed model that does not return to the free slots. -/
def withhold (record : ModelRecord) (reason : WithheldReason) (s : Service) : Service :=
  { s with withheld := s.withheld ++ [(record.slot, reason)] }

def freeSlot (slot : Nat) (s : Service) : Service :=
  { s with freeSlots := s.freeSlots.insert slot }

/-- An exception ends the critical section; no other reply is possible. -/
def resumeException (h : Holder) (reply : Reply) (s : Service) : Option Service :=
  match reply with
  | .raised => some (s.abort h.task)
  -- the dispatcher cancels the background tasks when it stops
  | .cancelled =>
    if s.dispatcher = .stopped ∧ h.task.isBackground then some (s.release h.task) else none
  | _ => none

/-- `_run_create_model` after `load_slot`. -/
def resumeLoadSlot (h : Holder) (modelId slot : Nat) (reply : Reply) (s : Service) :
    Option Service :=
  match reply with
  | .done => do
    let r ← s.findModel modelId
    let s := s.modifyModel modelId ({ · with slotInitialized := true })
    let s := s.settle r.createRequestId (.result (.createModel modelId))
    return (s.record (.loaded modelId slot)).runJobs h.task h.jobs
  | .failed error =>
    let s := s.modifyModel modelId ({ · with slotInitialized := true })
    some (s.runJobs h.task (.close modelId error .server :: h.jobs))
  | reply => s.resumeException h reply

/-- `_run_batch` after the forward pass. -/
def resumeForward (h : Holder) (unit : BatchUnit) (refs : List DatumRef) (reply : Reply)
    (s : Service) : Option Service :=
  match reply with
  | .outputs outputs =>
    if outputs.length = refs.length then
      some (((s.record (.answered refs outputs)).recordOutputs (refs.zip outputs)).runJobs
        h.task h.jobs)
    else some (s.abort h.task)
  | .failed error => some (s.runJobs h.task (failBatch unit.datums error .server ++ h.jobs))
  | .refused error => some (s.runJobs h.task (failBatch unit.datums error .user ++ h.jobs))
  | reply => s.resumeException h reply

/-- `_run_barrier` after the trainer call. -/
def resumeBarrier (h : Holder) (unit : BarrierUnit) (reply : Reply) (s : Service) :
    Option Service :=
  match reply with
  | .outcomes outcomes =>
    if outcomes.length = unit.entries.length then
      some (s.runJobs h.task (finishEntries unit.entries outcomes ++ h.jobs))
    else some (s.abort h.task)
  | .refused error =>
    some (s.runJobs h.task
      (finishEntries unit.entries (unit.entries.map fun _ => some (error, .user)) ++ h.jobs))
  | reply => s.resumeException h reply

/-- The dispatcher after a unit: a dead trainer stops it. -/
def resumeCheckTrainer (h : Holder) (reply : Reply) (s : Service) : Option Service :=
  match reply with
  | .trainerDead true => some (s.abort h.task)
  | .trainerDead false => some (s.runJobs h.task h.jobs)
  | reply => s.resumeException h reply

/-- `_close_model` after `trainer_dead`. -/
def resumeClose (h : Holder) (record : ModelRecord) (reply : Reply) (s : Service) :
    Option Service :=
  match reply with
  | .trainerDead true => some ((s.withhold record .trainerDead).runJobs h.task h.jobs)
  | .trainerDead false =>
    if record.slotInitialized then
      some { s.record (.unloadStarted record.slot) with
        holder := some { h with awaiting := .closeUnload record } }
    else some ((s.freeSlot record.slot).runJobs h.task h.jobs)
  | reply => (s.withhold record .interrupted).resumeException h reply

/-- `_close_model` after `unload_slot`. -/
def resumeUnload (h : Holder) (record : ModelRecord) (reply : Reply) (s : Service) :
    Option Service :=
  match reply with
  | .done => some ((s.freeSlot record.slot).runJobs h.task h.jobs)
  | .failed _ => some ((s.withhold record .unloadFailed).runJobs h.task h.jobs)
  | .raised => (s.withhold record .unloadFailed).resumeException h .raised
  | reply => (s.withhold record .interrupted).resumeException h reply

/-- The call the lock holder waits for ends. -/
def resume (reply : Reply) (s : Service) : Option Service :=
  match s.holder with
  | none => none
  | some h =>
    match h.awaiting with
    | .loadSlot modelId slot => s.resumeLoadSlot h modelId slot reply
    | .forward unit refs => s.resumeForward h unit refs reply
    | .barrier unit => s.resumeBarrier h unit reply
    | .checkTrainer => s.resumeCheckTrainer h reply
    | .closeTrainerDead record => s.resumeClose h record reply
    | .closeUnload record => s.resumeUnload h record reply
    | .checkpoints =>
      if reply = .done then some (s.runJobs h.task h.jobs) else s.resumeException h reply

/-! ## Requests of clients -/

inductive RequestError where
  | unknownSession
  | unknownModel
  | unsupportedModel
  | noFreeSlots
  | ownership
  | invalidSeqId
  deriving DecidableEq

/-- `create_model`, with the identifiers of the request and the model; `supported` is the
    verdict on the base model and the adapter configuration. -/
def createModel (tenant : String) (sessionId modelSeqId : Nat) (supported : Bool)
    (s : Service) : Except RequestError (Nat × Nat × Service) :=
  match s.sessions.find? fun x => x.sessionId = sessionId ∧ x.tenant = tenant with
  | none => .error .unknownSession
  | some session =>
    match session.modelsBySeq.lookup modelSeqId with
    | some (requestId, modelId) =>
      let (requestId, s) := s.requestIdForRetry requestId (.model modelId) tenant
      .ok (requestId, modelId, { s with
        sessions := s.sessions.map fun x =>
          if x.sessionId = sessionId then
            { x with modelsBySeq := (modelSeqId, requestId, modelId) ::
                x.modelsBySeq.filter (·.1 ≠ modelSeqId) }
          else x })
    | none =>
      if !supported then .error .unsupportedModel
      else match s.freeSlots.min? with
        | none => .error .noFreeSlots
        | some slot =>
          let modelId := s.nextId
          let requestId := s.nextId + 1
          let s := { s with nextId := s.nextId + 1 }.createFuture (.model modelId) tenant
          .ok (requestId, modelId, { s with
            freeSlots := s.freeSlots.erase slot
            models := s.models ++ [{
              modelId, sessionId, tenant, slot, createRequestId := requestId }]
            queues := s.queues ++ [{ modelId, tenant, slot }]
            starting := s.starting ++ [modelId]
            sessions := s.sessions.map fun x =>
              if x.sessionId = sessionId then
                { x with modelsBySeq := (modelSeqId, requestId, modelId) :: x.modelsBySeq }
              else x })

/-- `get_model` -/
def getModel (tenant : String) (modelId : Nat) (s : Service) : Except RequestError ModelRecord :=
  match s.findModel modelId with
  | none => .error .unknownModel
  | some r => if r.tenant = tenant then .ok r else .error .ownership

/-- `submit`, with the identifier of the request; `validationError` is the verdict on the
    payload's content. -/
def submit (tenant : String) (modelId : Nat) (seqId : Int) (op : CommandOp) (payload : Payload)
    (validationError : Option String) (s : Service) : Except RequestError (Nat × Service) := do
  let r ← s.getModel tenant modelId
  if seqId < 1 then .error .invalidSeqId
  else
    let seqId := seqId.toNat
    match r.requestIdBySeq.lookup seqId with
    | some requestId =>
      -- a retry must not accumulate gradients twice
      let (requestId, s) := s.requestIdForRetry requestId (.model modelId) tenant
      return (requestId, s.modifyModel modelId fun r => { r with
        requestIdBySeq := (seqId, requestId) :: r.requestIdBySeq.filter (·.1 ≠ seqId) })
    | none =>
      let requestId := s.nextId
      let command : Command := {
        modelId, seqId, op, payload, requestId, arrival := s.arrivalCounter + 1, validationError }
      let s := s.createFuture (.model modelId) tenant
      let s := s.modifyModel modelId fun r => { r with
        requestIdBySeq := (seqId, requestId) :: r.requestIdBySeq }
      let s := (s.modifyQueue modelId (·.submit command)).record (.submitted command)
      return (requestId, { s with arrivalCounter := s.arrivalCounter + 1, wake := true })

/-! ## Events -/

/-- What can happen on the event loop. -/
inductive Event where
  | createSession (tenant : String)
  | heartbeat (tenant : String) (sessionId : Nat)
  /-- time passes -/
  | tick (duration : Nat)
  | createModel (tenant : String) (sessionId modelSeqId : Nat) (supported : Bool)
  /-- a create task runs for the first time and asks for the lock -/
  | startCreate (modelId : Nat)
  | submit (tenant : String) (modelId : Nat) (seqId : Int) (op : CommandOp) (payload : Payload)
      (validationError : Option String)
  /-- a client reads a future -/
  | poll
  /-- a session finish, a sweep or a checkpoint deletion asks for the lock -/
  | ask (task : Task)
  | dispatcherLoop
  | wakeUp
  /-- the lock passes to the first waiter -/
  | grant
  | resume (reply : Reply)
  | startSample (tenant : String) (sessionId : Option Nat)
  | endSample (requestId : Nat) (outcome : Outcome)
  deriving DecidableEq

/-- The state after a request, which is unchanged if it was refused. -/
def afterRequest {α : Type} (s : Service) (result : Except RequestError (α × Service)) : Service :=
  match result with
  | .ok (_, s) => s
  | .error _ => s

/-- One event; `none` if it cannot happen. -/
def step (config : GatewayConfig) (s : Service) : Event → Option Service
  | .createSession tenant => some { s with
      sessions := s.sessions ++ [{
        sessionId := s.nextId, tenant, lastHeartbeat := s.clock }]
      nextId := s.nextId + 1 }
  | .heartbeat tenant sessionId => some { s with
      sessions := s.sessions.map fun x =>
        if x.sessionId = sessionId ∧ x.tenant = tenant then { x with lastHeartbeat := s.clock }
        else x }
  | .tick duration => some { s with clock := s.clock + duration }
  | .createModel tenant sessionId modelSeqId supported =>
    some (s.afterRequest
      ((s.createModel tenant sessionId modelSeqId supported).map fun x => ((x.1, x.2.1), x.2.2)))
  | .startCreate modelId =>
    if modelId ∈ s.starting then
      some ({ s with starting := s.starting.erase modelId }.acquire config (.createModel modelId))
    else none
  | .submit tenant modelId seqId op payload validationError =>
    some (s.afterRequest (s.submit tenant modelId seqId op payload validationError))
  | .poll => some s.sweepFutures
  | .ask task =>
    match task with
    | .dispatcher | .createModel _ => none
    | _ => some (s.acquire config task)
  | .dispatcherLoop =>
    if s.dispatcher = .atLoop then
      some (if s.backgroundError then s.stopDispatcher else s.acquire config .dispatcher)
    else none
  | .wakeUp =>
    if s.dispatcher = .asleep ∧ s.wake then
      some { s with dispatcher := .atLoop, wake := false }
    else none
  | .grant =>
    match s.holder, s.waiters with
    | none, task :: waiters => some ({ s with waiters }.enter config task)
    | _, _ => none
  | .resume reply => s.resume reply
  | .startSample tenant sessionId =>
    if sessionId.all fun id => s.sessions.any (·.sessionId = id) then
      some { s.createFuture .sampler tenant with
        sampleTasks := s.sampleTasks ++ [(s.nextId, sessionId)] }
    else none
  | .endSample requestId outcome =>
    if s.sampleTasks.any (·.1 = requestId) then
      some { s.settle requestId outcome with
        sampleTasks := s.sampleTasks.filter (·.1 ≠ requestId) }
    else none

end Service

end Miles.Tinker
