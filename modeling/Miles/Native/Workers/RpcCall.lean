import Miles.ForStd.PyDict

/-!
# Worker RPC calls

Model of one `RpcCall` (`miles/utils/workers/rpc/client/call.py`, `client/misc.py`), of the network
and of the servers that may answer it (`miles/utils/workers/rpc/server/{app,core,store,executor}.py`).

Several boots of the server may live next to each other, and a request may reach any of them at any
time after it was sent, or none.  Other users of the same handle may pin and unpin the boot UUID at
any time.  An answer of status 500 and above that no server has sent, such as a gateway's, is an
error of the attempt.  A server that shuts down answers nothing any more, as one that crashes.

Deadlines and time-outs are choices of the schedule.
-/

namespace Miles.Workers.Rpc

variable {Val Payload : Type}

/-! ## Messages -/

/-- `CallStatusResponse` -/
inductive CallStatus (Payload : Type) where
  | pending
  | success (result : Payload)
  | failed (error : String)
  deriving DecidableEq, Repr

/-- The body of an answer. -/
inductive Response (Payload : Type) where
  /-- `SubmitResponse` -/
  | submitted
  | callStatus (status : CallStatus Payload)
  /-- the text of a refusal -/
  | detail
  deriving DecidableEq, Repr

/-- A request that no server has handled. -/
structure Request where
  requestId : Nat
  isSubmit : Bool
  /-- `EXPECTED_BOOT_UUID_HEADER` -/
  expected : Option Nat
  deriving DecidableEq, Repr

/-- An answer on its way to the client, with its `BOOT_UUID_HEADER`. -/
structure Answer (Payload : Type) where
  requestId : Nat
  bootUuid : Nat
  statusCode : Nat
  response : Response Payload
  deriving DecidableEq, Repr

/-! ## The client -/

/-- `BootUuidPin` -/
structure BootUuidPin where
  required : Bool
  fixedValue : Option Nat
  value : Option Nat
  deriving DecidableEq, Repr

namespace BootUuidPin

/-- `__init__` -/
def create (required : Bool) (expected : Option Nat) : BootUuidPin where
  required := required || expected.isSome
  fixedValue := expected
  value := expected

/-- `expected` -/
def expected (pin : BootUuidPin) : Option Nat := if pin.required then pin.value else none

/-- `unpin` and `repin`; `none` when they raise. -/
def repin (pin : BootUuidPin) (value : Option Nat) : Option BootUuidPin :=
  if pin.fixedValue.isSome ∧ value ≠ pin.fixedValue then none else some { pin with value }

/-- `verify`; `none` when it raises. -/
def verify (pin : BootUuidPin) (bootUuid : Nat) : Option BootUuidPin :=
  if ¬ pin.required then some pin
  else
    match pin.value with
    | none => some { pin with value := some bootUuid }
    | some value => if bootUuid ≠ value then none else some pin

end BootUuidPin

/-- The errors of an attempt without an answer. -/
inductive AttemptError where
  /-- `NEVER_REACHED_SERVER_ERRORS` -/
  | neverReached
  /-- another `httpx.TransportError` -/
  | transport
  | timeout
  /-- `RetryableResponseError` -/
  | retryableResponse
  deriving DecidableEq, Repr

/-- How `run()` ends. -/
inductive Result (Val : Type) where
  | returned (value : Val)
  /-- `RpcWorkerCallError` -/
  | workerCallError (error : String)
  /-- `ServerRestartedError` -/
  | serverRestarted
  /-- `RpcProtocolError` -/
  | protocolError
  /-- `WorkerUnreachableError` -/
  | unreachable
  /-- `TimeoutError` -/
  | stillPending
  /-- the answer or its result does not validate -/
  | invalid
  | cancelled
  deriving DecidableEq, Repr

/-- Where `run()` stands. -/
inductive Phase (Val : Type) where
  /-- before an attempt to submit -/
  | submit
  | submitting (requestId : Nat)
  /-- before a poll -/
  | poll
  | polling (requestId : Nat)
  | done (result : Result Val)
  deriving DecidableEq, Repr

/-- What is fixed for a call. -/
structure Config (Val Payload : Type) where
  callId : Nat
  /-- `serializer.encode_result`, which may raise -/
  encodeResult : Val → Except String Payload
  /-- `serializer.decode_result`, which may raise -/
  decodeResult : Payload → Except String Val
  retrievedTtlSeconds : ℚ
  finishedTtlSeconds : ℚ

/-- `RpcTransport.send` after the answer has come: the pin and the accepted body. -/
def receive (pin : BootUuidPin) (answer : Answer Payload) :
    Except (Result Val) (BootUuidPin × Response Payload) :=
  if answer.statusCode = 412 then .error .serverRestarted
  else if 500 ≤ answer.statusCode then .error .unreachable
  else if answer.statusCode ≠ 200 then .error .protocolError
  else
    match pin.verify answer.bootUuid with
    | none => .error .serverRestarted
    | some pin => .ok (pin, answer.response)

/-- `run()` with the outcome of the polls. -/
def finishRun (cfg : Config Val Payload) : CallStatus Payload → Phase Val
  | .pending => .poll
  | .failed error => .done (.workerCallError error)
  | .success result =>
    match cfg.decodeResult result with
    | .ok value => .done (.returned value)
    | .error _ => .done .invalid

/-! ## The store of a server -/

/-- `_CallRecord`, with the call it was begun for. -/
structure CallRecord (Payload : Type) where
  callId : Nat
  outcome : Option (CallStatus Payload) := none
  finishedAt : Option ℚ := none
  firstRetrievedAt : Option ℚ := none
  deriving DecidableEq

/-- `CallStore`: the record objects ever made, and the dictionary of those that are kept. -/
structure CallStore (Payload : Type) where
  objects : List (CallRecord Payload) := []
  records : PyDict Nat Nat := .empty

namespace CallStore

/-- `_is_live` -/
def isLive (cfg : Config Val Payload) (record : CallRecord Payload) (now : ℚ) : Bool :=
  match record.finishedAt with
  | none => true
  | some finishedAt =>
    match record.firstRetrievedAt with
    | some retrievedAt => now - retrievedAt ≤ cfg.retrievedTtlSeconds
    | none => now - finishedAt ≤ cfg.finishedTtlSeconds

/-- `_purge_expired` -/
def purgeExpired (cfg : Config Val Payload) (store : CallStore Payload) (now : ℚ) :
    CallStore Payload :=
  { store with
    records := store.records.filter fun _ a =>
      (store.objects[a]?).any fun record => isLive cfg record now }

/-- `begin`: the store, and whether the call is a new one. -/
def start (cfg : Config Val Payload) (store : CallStore Payload) (callId : Nat) (now : ℚ) :
    CallStore Payload × Bool :=
  let store := store.purgeExpired cfg now
  if (store.records.get? callId).isSome then (store, false)
  else
    ({ objects := store.objects ++ [{ callId }]
       records := store.records.set callId store.objects.length }, true)

/-- `finish`; `none` when it raises. -/
def finish (store : CallStore Payload) (callId : Nat) (outcome : CallStatus Payload) (now : ℚ) :
    Option (CallStore Payload) := do
  let a ← store.records.get? callId
  let record ← store.objects[a]?
  if record.outcome.isSome then none
  else
    return { store with
      objects := store.objects.set a { record with outcome := some outcome, finishedAt := some now } }

/-- The end of `wait` on a record: the store and the outcome. -/
def retrieve (store : CallStore Payload) (a : Nat) (now : ℚ) :
    CallStore Payload × Option (CallStatus Payload) :=
  match store.objects[a]? with
  | none => (store, none)
  | some record =>
    if record.outcome.isSome ∧ record.firstRetrievedAt.isNone then
      ({ store with objects := store.objects.set a { record with firstRetrievedAt := some now } },
        record.outcome)
    else (store, record.outcome)

end CallStore

/-! ## The servers -/

/-- A boot of the server. -/
structure Server (Payload : Type) where
  alive : Bool := true
  store : CallStore Payload := {}

/-- How far the executor is with a call it has started. -/
inductive TaskState (Val : Type) where
  /-- the task exists, the worker's method has not been called -/
  | created
  | running
  /-- the method returned or raised -/
  | finished (result : Except String Val)

/-- A task of `RpcCallExecutor`. -/
structure ExecutorTask (Val : Type) where
  bootUuid : Nat
  callId : Nat
  state : TaskState Val := .created

/-- The outcome that `_run` makes of what the method did. -/
def outcomeOf (cfg : Config Val Payload) : Except String Val → CallStatus Payload
  | .error error => .failed error
  | .ok value =>
    match cfg.encodeResult value with
    | .ok payload => .success payload
    | .error error => .failed error

/-- A long poll that a server holds on a record. -/
structure Query where
  requestId : Nat
  bootUuid : Nat
  record : Nat

/-- What a server makes of the method's name and of the query of a submit. -/
inductive Verdict where
  | unknownMethod
  | invalidQuery
  /-- another exception of the decoding -/
  | unhandled
  | valid
  deriving DecidableEq, Repr

/-! ## The world -/

/-- The call, its messages and the servers. -/
structure World (Val Payload : Type) where
  phase : Phase Val := .submit
  pin : BootUuidPin
  nextRequest : Nat := 0
  requests : List Request := []
  answers : List (Answer Payload) := []
  /-- by boot UUID -/
  servers : List (Server Payload) := []
  /-- of all boots -/
  tasks : List (ExecutorTask Val) := []
  queries : List Query := []

/-- What can happen. -/
inductive Event (Val Payload : Type) where
  /-- the next attempt to submit, or to poll, sends its request -/
  | send
  /-- the attempt fails; `deadline` says that the window for retries is over -/
  | attemptFails (error : AttemptError) (deadline : Bool)
  /-- the answer at this position, which is the attempt's, comes in; `deadline` as above, for an
      outcome that is pending -/
  | answered (answer : Nat) (deadline : Bool)
  /-- the task that awaits `run()` is cancelled -/
  | cancel
  /-- a request gets lost -/
  | lose (requestId : Nat)
  /-- a request reaches a boot -/
  | deliver (requestId bootUuid : Nat) (verdict : Verdict) (now : ℚ)
  /-- a boot answers a long poll -/
  | answerQuery (query : Nat) (now : ℚ)
  /-- the executor calls the worker's method -/
  | execute (task : Nat)
  /-- the method returns or raises -/
  | finishTask (task : Nat) (result : Except String Val) (now : ℚ)
  /-- a submit of another call reaches a boot -/
  | otherSubmit (callId bootUuid : Nat) (now : ℚ)
  /-- a new boot -/
  | boot
  | crash (bootUuid : Nat)
  /-- another user of the handle pins or unpins the boot UUID -/
  | repin (value : Option Nat)

namespace World

/-- Send a request of the call. -/
def sendRequest (w : World Val Payload) (isSubmit : Bool) (phase : Nat → Phase Val) :
    World Val Payload :=
  { w with
    phase := phase w.nextRequest
    nextRequest := w.nextRequest + 1
    requests := { requestId := w.nextRequest, isSubmit, expected := w.pin.expected } :: w.requests }

/-- The network drops a request. -/
def loseRequest (w : World Val Payload) (requestId : Nat) : World Val Payload :=
  { w with requests := w.requests.filter (·.requestId ≠ requestId) }

/-- A failed attempt.  Submitting is retried on `NEVER_REACHED_SERVER_ERRORS` only, polling on
    all errors.  That error says that the request has reached no server and will not. -/
def failAttempt (w : World Val Payload) (requestId : Nat) (isSubmit : Bool) (error : AttemptError)
    (deadline : Bool) : Option (World Val Payload) :=
  let failed : World Val Payload → World Val Payload := fun w =>
    if isSubmit then
      { w with
        phase := if error = .neverReached ∧ ¬ deadline then .submit else .done .unreachable }
    else { w with phase := if deadline then .done .stillPending else .poll }
  if error = .neverReached then
    if w.requests.any fun r => r.requestId = requestId ∧ r.isSubmit = isSubmit then
      some (failed (w.loseRequest requestId))
    else none
  else some (failed w)

/-- `submit()` after the answer of an attempt. -/
def submitAnswered (w : World Val Payload) (answer : Answer Payload) : World Val Payload :=
  match receive w.pin answer with
  | .error result => { w with phase := .done result }
  | .ok (pin, response) =>
    { w with pin, phase := if response matches .submitted then .poll else .done .invalid }

/-- `_poll_once` after the answer. -/
def pollAnswered (cfg : Config Val Payload) (w : World Val Payload) (answer : Answer Payload)
    (deadline : Bool) : World Val Payload :=
  let again : Phase Val := if deadline then .done .stillPending else .poll
  match receive w.pin answer with
  | .error .unreachable => { w with phase := again }
  | .error result => { w with phase := .done result }
  | .ok (pin, response) =>
    { w with
      pin
      phase :=
        match response with
        | .callStatus .pending => again
        | .callStatus status => finishRun cfg status
        | _ => .done .invalid }

/-- An answer of a boot. -/
def reply (w : World Val Payload) (requestId bootUuid statusCode : Nat)
    (response : Response Payload) : World Val Payload :=
  { w with answers := w.answers ++ [{ requestId, bootUuid, statusCode, response }] }

/-- `submit_call`: begin the call in the store and start a task for it. -/
def submitCall (cfg : Config Val Payload) (w : World Val Payload) (callId bootUuid : Nat)
    (server : Server Payload) (now : ℚ) : World Val Payload × Bool :=
  let started := server.store.start cfg callId now
  let w := { w with servers := w.servers.set bootUuid { server with store := started.1 } }
  if started.2 then ({ w with tasks := w.tasks ++ [{ bootUuid, callId }] }, true) else (w, false)

/-- A request of the call reaches a boot. -/
def handle (cfg : Config Val Payload) (w : World Val Payload) (r : Request) (bootUuid : Nat)
    (server : Server Payload) (verdict : Verdict) (now : ℚ) : World Val Payload :=
  let reply := fun (w : World Val Payload) => w.reply r.requestId bootUuid
  if r.expected.any (· ≠ bootUuid) then reply w 412 .detail
  else if r.isSubmit then
    match verdict with
    | .unknownMethod => reply w 404 .detail
    | .invalidQuery => reply w 400 .detail
    | .unhandled => reply w 500 .detail
    | .valid =>
      let submitted := w.submitCall cfg cfg.callId bootUuid server now
      if submitted.2 then reply submitted.1 200 .submitted else reply submitted.1 409 .detail
  else
    match server.store.records.get? cfg.callId with
    | none => reply w 404 .detail
    | some record =>
      { w with queries := w.queries ++ [{ requestId := r.requestId, bootUuid, record }] }

/-- The boot with this UUID, if it lives. -/
def server? (w : World Val Payload) (bootUuid : Nat) : Option (Server Payload) :=
  w.servers[bootUuid]?.filter (·.alive)

/-- One event; `none` when it cannot happen. -/
def step (cfg : Config Val Payload) (w : World Val Payload) :
    Event Val Payload → Option (World Val Payload)
  | .send =>
    match w.phase with
    | .submit => some (w.sendRequest true .submitting)
    | .poll => some (w.sendRequest false .polling)
    | _ => none
  | .attemptFails error deadline =>
    match w.phase with
    | .submitting requestId => w.failAttempt requestId true error deadline
    | .polling requestId => w.failAttempt requestId false error deadline
    | _ => none
  | .answered i deadline => do
    let answer ← w.answers[i]?
    match w.phase with
    | .submitting requestId =>
      if answer.requestId = requestId then some (w.submitAnswered answer) else none
    | .polling requestId =>
      if answer.requestId = requestId then some (w.pollAnswered cfg answer deadline) else none
    | _ => none
  | .cancel => match w.phase with
    | .done _ => none
    | _ => some { w with phase := .done .cancelled }
  | .lose requestId => some (w.loseRequest requestId)
  | .deliver requestId bootUuid verdict now => do
    let r ← w.requests.find? (·.requestId = requestId)
    let server ← w.server? bootUuid
    return (w.loseRequest requestId).handle cfg r bootUuid server verdict now
  | .answerQuery i now => do
    let query ← w.queries[i]?
    let server ← w.server? query.bootUuid
    let retrieved := server.store.retrieve query.record now
    let w := { w with
      queries := w.queries.eraseIdx i
      servers := w.servers.set query.bootUuid { server with store := retrieved.1 } }
    return w.reply query.requestId query.bootUuid 200 (.callStatus (retrieved.2.getD .pending))
  | .execute i => do
    let task ← w.tasks[i]?
    let _ ← w.server? task.bootUuid
    match task.state with
    | .created => some { w with tasks := w.tasks.set i { task with state := .running } }
    | _ => none
  | .finishTask i result now => do
    let task ← w.tasks[i]?
    let server ← w.server? task.bootUuid
    match task.state with
    | .running =>
      let w := { w with tasks := w.tasks.set i { task with state := .finished result } }
      -- a finish that raises ends the task without an outcome
      match server.store.finish task.callId (outcomeOf cfg result) now with
      | none => some w
      | some store =>
        some { w with servers := w.servers.set task.bootUuid { server with store } }
    | _ => none
  | .otherSubmit callId bootUuid now => do
    let server ← w.server? bootUuid
    if callId = cfg.callId then none else some (w.submitCall cfg callId bootUuid server now).1
  | .boot => some { w with servers := w.servers ++ [{}] }
  | .crash bootUuid => do
    let server ← w.server? bootUuid
    return { w with
      servers := w.servers.set bootUuid { server with alive := false }
      queries := w.queries.filter (·.bootUuid ≠ bootUuid) }
  | .repin value => (w.pin.repin value).map fun pin => { w with pin }

end World

end Miles.Workers.Rpc
