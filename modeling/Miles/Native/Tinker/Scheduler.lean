import Miles.ForStd.Lts

/-!
# Tinker request scheduling

Model of `miles/tinker/core/types.py`, `model_queue.py` and `scheduler.py`: each model's
commands wait in a reorder buffer until their sequence numbers are contiguous, then in a queue,
from which the scheduler packs data of several models into one trainer call or issues a barrier.

The source points at requests by reference; here a `DatumRef` or a `BarrierEntry` carries the
command, which the pair of model and sequence number identifies.
-/

namespace Miles.Tinker

/-! ## Commands -/

inductive CommandOp where
  | forwardBackward
  | forwardOnly
  | optimStep
  | saveState
  | loadState
  | saveWeightsForSampler
  | saveWeightsExternal
  deriving DecidableEq

/-- Whose fault a failure is. -/
inductive Category where
  | user
  | server
  deriving DecidableEq

namespace CommandOp

/-- Batch ops pack into batch units; every other op is a barrier. -/
def isBatch : CommandOp → Bool
  | forwardBackward | forwardOnly => true
  | _ => false

/-- Whether a failed command leaves the model's training state unusable. -/
def requiresModelCloseOnFailure (op : CommandOp) (category : Category) : Bool :=
  match op with
  -- a load is refused as a user error before the slot changes
  | loadState => category ≠ .user
  | forwardBackward | optimStep => true
  | _ => false

end CommandOp

/-- One training example; only the number of its tokens matters to the scheduler. -/
structure Datum where
  tokens : List Int
  deriving DecidableEq

/-- The payload fields that scheduling reads. -/
structure Payload where
  datums : List Datum := []
  lossFn : Option String := none
  lossFnConfig : Option (List (String × Rat)) := none
  deriving DecidableEq

structure Command where
  modelId : Nat
  seqId : Nat
  op : CommandOp
  payload : Payload
  requestId : Nat
  /-- global submit order -/
  arrival : Nat
  validationError : Option String := none
  deriving DecidableEq

/-- What the trainer returns for one datum. -/
structure Output where
  loss : Rat
  logprobs : List Rat
  deriving DecidableEq

/-! ## Model queues -/

/-- One submitted command and its completion accounting. -/
structure PendingRequest where
  command : Command
  datums : List Datum := []
  numIssuedDatums : Nat := 0
  outputs : List (Option Output) := []
  remaining : Int := 0
  deriving DecidableEq

namespace PendingRequest

def isBatchOp (p : PendingRequest) : Bool := p.command.op.isBatch

/-- The request a command starts as. -/
def ofCommand (command : Command) : PendingRequest :=
  if command.op.isBatch && command.validationError.isNone then
    { command
      datums := command.payload.datums
      remaining := command.payload.datums.length
      outputs := List.replicate command.payload.datums.length none }
  else { command }

/-- `record_output`; every datum has reported once `remaining` is zero. -/
def recordOutput (p : PendingRequest) (localIndex : Nat) (output : Output) : PendingRequest :=
  { p with outputs := p.outputs.set localIndex (some output), remaining := p.remaining - 1 }

end PendingRequest

/-- Data of two commands share a trainer call only if these agree. -/
def Command.packKey (c : Command) : CommandOp × Option String × List (String × Rat) :=
  (c.op, c.payload.lossFn,
    (c.payload.lossFnConfig.getD []).insertionSort fun a b => a.1 ≤ b.1)

structure ModelRequestQueue where
  modelId : Nat
  tenant : String
  slot : Nat
  /-- sequence numbers start at 1 -/
  lastEnqueuedSeqId : Nat := 0
  /-- commands that wait for an earlier sequence number -/
  pendingBySeq : List Command := []
  queue : List PendingRequest := []
  deriving DecidableEq

namespace ModelRequestQueue

/-- `_enqueue_contiguous_commands`; each round moves one buffered command, so their number
    bounds the rounds. -/
def enqueueContiguous : Nat → ModelRequestQueue → ModelRequestQueue
  | 0, q => q
  | fuel + 1, q =>
    match q.pendingBySeq.find? (·.seqId = q.lastEnqueuedSeqId + 1) with
    | none => q
    | some command =>
      enqueueContiguous fuel { q with
        lastEnqueuedSeqId := q.lastEnqueuedSeqId + 1
        pendingBySeq := q.pendingBySeq.filter (·.seqId ≠ q.lastEnqueuedSeqId + 1)
        queue := q.queue ++ [.ofCommand command] }

/-- Accept one deduplicated command and feed the queue in sequence order. -/
def submit (command : Command) (q : ModelRequestQueue) : ModelRequestQueue :=
  enqueueContiguous (q.pendingBySeq.length + 1) { q with
    pendingBySeq := q.pendingBySeq.filter (·.seqId ≠ command.seqId) ++ [command] }

/-- The leading run of batch commands; their data can all be issued. -/
def openBatchRun (q : ModelRequestQueue) : List PendingRequest :=
  q.queue.takeWhile fun p => p.isBatchOp && p.command.validationError.isNone

/-- The head of the queue, if it is a barrier. -/
def readyBarrier (q : ModelRequestQueue) : Option PendingRequest :=
  q.queue.head?.filter fun p => !p.isBatchOp && p.command.validationError.isNone

/-- The head of the queue, if its content was refused. -/
def rejectedHead (q : ModelRequestQueue) : Option PendingRequest :=
  q.queue.head?.filter fun p => p.command.validationError.isSome

/-- `finish`: the request leaves the queue. -/
def finish (seqId : Nat) (q : ModelRequestQueue) : ModelRequestQueue :=
  { q with queue := q.queue.filter (·.command.seqId ≠ seqId) }

/-- Change one queued request in place. -/
def modify (seqId : Nat) (f : PendingRequest → PendingRequest) (q : ModelRequestQueue) :
    ModelRequestQueue :=
  { q with queue := q.queue.map fun p => if p.command.seqId = seqId then f p else p }

end ModelRequestQueue

/-! ## Units -/

/-- Pointer to one datum of a queued request. -/
structure DatumRef where
  modelId : Nat
  slot : Nat
  command : Command
  localIndex : Nat
  datum : Datum
  deriving DecidableEq

/-- One forward pass on the trainer. -/
structure BatchUnit where
  op : CommandOp
  lossFn : Option String
  lossFnConfig : Option (List (String × Rat))
  datums : List DatumRef
  deriving DecidableEq

structure BarrierEntry where
  modelId : Nat
  slot : Nat
  command : Command
  deriving DecidableEq

/-- One barrier call; only optimizer steps of several models share one. -/
structure BarrierUnit where
  op : CommandOp
  entries : List BarrierEntry
  deriving DecidableEq

inductive TrainerUnit where
  | batch (unit : BatchUnit)
  | barrier (unit : BarrierUnit)
  deriving DecidableEq

namespace RequestScheduler

/-- The rejected heads of all queues, with their models. -/
def readyRejections (queues : List ModelRequestQueue) : List PendingRequest :=
  queues.filterMap (·.rejectedHead)

/-- The data of a request that were not issued yet. -/
def unissued (q : ModelRequestQueue) (p : PendingRequest) : List DatumRef :=
  (p.datums.zipIdx.drop p.numIssuedDatums).map fun x =>
    { modelId := q.modelId, slot := q.slot, command := p.command, localIndex := x.2, datum := x.1 }

def readyDatums (queues : List ModelRequestQueue) : List DatumRef :=
  queues.flatMap fun q => q.openBatchRun.flatMap (unissued q)

def readyBarriers (queues : List ModelRequestQueue) : List BarrierEntry :=
  queues.filterMap fun q => q.readyBarrier.map fun p =>
    { modelId := q.modelId, slot := q.slot, command := p.command }

/-- The longest prefix that keeps the unit within the budget. -/
def pickWithin (budget : Nat) : Nat → List DatumRef → List DatumRef
  | _, [] => []
  | tokens, ref :: refs =>
    if budget < tokens + ref.datum.tokens.length then []
    else ref :: pickWithin budget (tokens + ref.datum.tokens.length) refs

/-- A unit takes its first datum whatever its size. -/
def pick (budget : Nat) : List DatumRef → List DatumRef
  | [] => []
  | ref :: refs => ref :: pickWithin budget ref.datum.tokens.length refs

/-- Arrival order, then the order inside a request. -/
def refLe (a b : DatumRef) : Prop :=
  a.command.arrival < b.command.arrival ∨
    a.command.arrival = b.command.arrival ∧ a.localIndex ≤ b.localIndex

instance : DecidableRel refLe := fun _ _ => inferInstanceAs (Decidable (_ ∨ _))

/-- The data `_pack_batch` picks around a seed. -/
def pickCompatible (budget : Nat) (seed : DatumRef) (datums : List DatumRef) : List DatumRef :=
  pick budget
    ((datums.filter (·.command.packKey = seed.command.packKey)).insertionSort refLe)

/-- `_pack_batch`, without the accounting. -/
def packBatch (budget : Nat) (seed : DatumRef) (datums : List DatumRef) : BatchUnit where
  op := seed.command.op
  lossFn := seed.command.payload.lossFn
  lossFnConfig := seed.command.payload.lossFnConfig
  datums := pickCompatible budget seed datums

def mergeBarriers (seed : BarrierEntry) (barriers : List BarrierEntry) : BarrierUnit where
  op := seed.command.op
  entries :=
    if seed.command.op = .optimStep then barriers.filter (·.command.op = .optimStep) else [seed]

/-- Arrival order selects the seed; compatible work may overtake requests in between. -/
def scheduleNext (budget : Nat) (queues : List ModelRequestQueue) : Option TrainerUnit :=
  let datums := readyDatums queues
  let barriers := readyBarriers queues
  match datums.argmin (·.command.arrival), barriers.argmin (·.command.arrival) with
  | none, none => none
  | none, some barrierSeed => some (.barrier (mergeBarriers barrierSeed barriers))
  | some datumSeed, none => some (.batch (packBatch budget datumSeed datums))
  | some datumSeed, some barrierSeed =>
    if barrierSeed.command.arrival < datumSeed.command.arrival then
      some (.barrier (mergeBarriers barrierSeed barriers))
    else some (.batch (packBatch budget datumSeed datums))

/-- `num_issued_datums += 1` for each picked datum of a request. -/
def markIssued (picked : List DatumRef) (queues : List ModelRequestQueue) :
    List ModelRequestQueue :=
  queues.map fun q => { q with
    queue := q.queue.map fun p => { p with
      numIssuedDatums := p.numIssuedDatums + picked.countP fun ref =>
        ref.modelId = q.modelId ∧ ref.command.seqId = p.command.seqId } }

end RequestScheduler

end Miles.Tinker
