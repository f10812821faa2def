import Miles.ForStd.Lts
import Miles.Native.Session.LinearTrajectory

/-!
# Concurrent chat requests on one session

Model of `SessionCore.chat_completions` and `SessionCore.delete_session`
(`miles/rollout/session/core.py`) for one session, as a transition system.  A chat
request takes two steps with the lock held and no suspension point inside, `chat` (its
phase 1) and `answer` (the end of its proxy call, and phase 3); any events of other
requests happen in between.

The world keeps three things the server does not, to state what a commit did: with
every request in flight, the session it was prepared against (`base`) and whether a
later request rolled that base back (`overtaken`); and for every commit, the session it
was committed to.
-/

namespace Miles.Session

variable {Msg Args : Type}

/-- The `finish_reason` of a choice; only `abort` is treated apart. -/
inductive FinishReason where
  | stop | length | toolCalls | abort | other
  deriving DecidableEq, Repr

/-- `meta_info` with its `output_token_logprobs`, reduced to the token ids. -/
structure MetaInfo where
  outputTokenIds : List Nat
  completionTokens : Nat
  deriving DecidableEq, Repr

/-- The first choice of a chat response.  `metaInfo` is `none` when it is no object or has
    no `output_token_logprobs`; `message` is `none` when its content is. -/
structure Choice (Msg : Type) where
  finishReason : FinishReason
  metaInfo : Option MetaInfo
  message : Option Msg
  deriving DecidableEq, Repr

/-- What the backend answers to the proxied request. -/
structure ProxyResult (Msg : Type) where
  statusCode : Nat
  choice : Choice Msg
  deriving DecidableEq, Repr

/-- `extract_completion`: the assistant message and the completion's token ids. -/
def extractCompletion (result : ProxyResult Msg) : Except SessionError (Msg × List Nat) :=
  if result.choice.finishReason = .abort then .error .upstreamAborted
  else
    match result.choice.metaInfo, result.choice.message with
    | none, _ => .error (.upstreamResponse "meta_info and output_token_logprobs must be in choice")
    | some _, none => .error (.upstreamResponse "assistant message content is None")
    | some metaInfo, some message =>
      if metaInfo.outputTokenIds.length ≠ metaInfo.completionTokens then
        .error (.upstreamResponse "invalid chat completion response")
      else .ok (message, metaInfo.outputTokenIds)

/-- `_maybe_request_addition_r3`: ask only for the routed-expert rows the session has not
    retained, which needs the checkpoint's rows to be a prefix of the new prompt. -/
def maybeRequestAdditionR3 (useAdditionR3 : Bool) (body : RequestBody Msg Args)
    (checkpointTokenIds promptTokenIds : List Nat) :
    Except SessionError (RequestBody Msg Args) :=
  if ¬ (useAdditionR3 ∧ body.returnRoutedExperts) then .ok body
  else
    let previousRows := checkpointTokenIds.length - 1
    if promptTokenIds.take previousRows = checkpointTokenIds.take previousRows then
      .ok { body with routedExpertsStartLen := some previousRows }
    else
      .error (.unstableR3Prefix previousRows (lcpLen checkpointTokenIds promptTokenIds))

/-- Phase 1 of `chat_completions` under the lock: the request body to proxy, and the
    number of checkpoints expected at the commit. -/
def prepareRequest (cfg : Config Msg Args) (client : ClientArgs Msg Args) :
    SessionM Msg Args (RequestBody Msg Args × Nat) := do
  if (← get).closing then
    throw .sessionNotFound
  let body ← prepareTokenIdsAndRequestArgs cfg client
  let s ← get
  let body ← ExceptT.mk (pure
    (maybeRequestAdditionR3 cfg.useAdditionR3 body s.tokenIds body.inputIds))
  return (body, s.numAssistant)

/-- Phase 3 of `chat_completions` under the lock; `true` when the generation was recorded. -/
def commitResponse (cfg : Config Msg Args) (requestId : Nat) (body : RequestBody Msg Args)
    (expectedNumAssistant : Nat) (assistantMessage : Msg) (completionTokenIds : List Nat) :
    SessionM Msg Args Bool := do
  let s ← get
  if s.closing then
    return false
  if s.numAssistant ≠ expectedNumAssistant then
    return false
  let storedRequestMessages := cfg.tokenizer.preserveServerMessageState s.messages body.messages
  updatePretokenizedState cfg.tokenizer.maxTrimTokens storedRequestMessages assistantMessage
    body.inputIds completionTokenIds body
  appendRecord { requestId, request := body, assistantMessage, completionTokenIds }
  return true

/-- Phases 2 and 3 of `chat_completions`: the assistant message and token ids that were
    recorded, if any. -/
def finishRequest (cfg : Config Msg Args) (requestId : Nat) (body : RequestBody Msg Args)
    (expectedNumAssistant : Nat) (result : ProxyResult Msg) :
    SessionM Msg Args (Option (Msg × List Nat)) := do
  if result.statusCode ≠ 200 then
    return none
  let (message, completionTokenIds) ← ExceptT.mk (pure (extractCompletion result))
  let assistantMessage := cfg.tokenizer.postprocessCompletion message completionTokenIds
  if ← commitResponse cfg requestId body expectedNumAssistant assistantMessage
      completionTokenIds then
    return some (assistantMessage, completionTokenIds)
  else
    return none

/-! ## Interleavings -/

/-- A request between its phase 1 and the end of its proxy call. -/
structure InFlight (Msg Args : Type) where
  requestId : Nat
  body : RequestBody Msg Args
  expectedNumAssistant : Nat
  /-- the session this request was prepared against, after its own rollback -/
  base : LinearTrajectory Msg Args
  /-- a later request rolled the session back below `base` -/
  overtaken : Bool := false
  deriving DecidableEq, Repr

/-- A generation that was recorded, with the session it was recorded in. -/
structure Commit (Msg Args : Type) where
  request : InFlight Msg Args
  before : LinearTrajectory Msg Args
  assistantMessage : Msg
  completionTokenIds : List Nat
  deriving DecidableEq, Repr

/-- One session of the server with its requests in flight. -/
structure SessionWorld (Msg Args : Type) where
  session : LinearTrajectory Msg Args := {}
  /-- the registry still lists the session -/
  registered : Bool := true
  inFlight : List (InFlight Msg Args) := []
  /-- the ids of all requests that came in -/
  started : List Nat := []
  commits : List (Commit Msg Args) := []
  deriving DecidableEq, Repr

/-- What can happen to a session. -/
inductive Event (Msg Args : Type) where
  /-- a chat request runs its phase 1 -/
  | chat (requestId : Nat) (client : ClientArgs Msg Args)
  /-- the backend answers a request, which then runs its phase 3 -/
  | answer (requestId : Nat) (result : ProxyResult Msg)
  /-- a request's handler is cancelled while it is proxied -/
  | cancel (requestId : Nat)
  /-- a DELETE marks the session as closing -/
  | delete
  /-- that DELETE got the lock and drops the session -/
  | remove
  deriving DecidableEq, Repr

/-- Mark the request if the session now has fewer checkpoints than its base. -/
def InFlight.markOvertaken (numAssistant : Nat) (r : InFlight Msg Args) : InFlight Msg Args :=
  { r with overtaken := r.overtaken || decide (numAssistant < r.expectedNumAssistant) }

namespace SessionWorld

/-- The request in flight with this id. -/
def find (w : SessionWorld Msg Args) (requestId : Nat) : Option (InFlight Msg Args) :=
  w.inFlight.find? (·.requestId = requestId)

/-- The requests in flight other than this one. -/
def others (w : SessionWorld Msg Args) (requestId : Nat) : List (InFlight Msg Args) :=
  w.inFlight.filter (·.requestId ≠ requestId)

/-- A chat request comes in and runs its phase 1. -/
def chat (cfg : Config Msg Args) (w : SessionWorld Msg Args) (requestId : Nat)
    (client : ClientArgs Msg Args) : SessionWorld Msg Args :=
  if w.registered then
    match prepareRequest cfg client w.session with
    | (.error _, session) =>
      { w with
        session
        started := requestId :: w.started
        inFlight := w.inFlight.map (·.markOvertaken session.numAssistant) }
    | (.ok (body, expectedNumAssistant), session) =>
      { w with
        session
        started := requestId :: w.started
        inFlight := { requestId, body, expectedNumAssistant, base := session } ::
          w.inFlight.map (·.markOvertaken session.numAssistant) }
  else { w with started := requestId :: w.started }

/-- The proxy call of a request ends and the request runs its phase 3. -/
def answer (cfg : Config Msg Args) (w : SessionWorld Msg Args) (r : InFlight Msg Args)
    (result : ProxyResult Msg) : SessionWorld Msg Args :=
  match finishRequest cfg r.requestId r.body r.expectedNumAssistant result w.session with
  | (.ok (some (assistantMessage, completionTokenIds)), session) =>
    { w with
      session
      inFlight := w.others r.requestId
      commits := w.commits ++
        [{ request := r, before := w.session, assistantMessage, completionTokenIds }] }
  | (_, session) => { w with session, inFlight := w.others r.requestId }

/-- One event; `none` when it cannot happen. -/
def step (cfg : Config Msg Args) (w : SessionWorld Msg Args) :
    Event Msg Args → Option (SessionWorld Msg Args)
  | .chat requestId client =>
    if requestId ∈ w.started then none else some (w.chat cfg requestId client)
  | .answer requestId result => (w.find requestId).map fun r => w.answer cfg r result
  | .cancel requestId =>
    (w.find requestId).map fun r => { w with inFlight := w.others r.requestId }
  | .delete =>
    if w.registered ∧ ¬ w.session.closing then
      some { w with session := { w.session with closing := true } }
    else none
  | .remove =>
    if w.registered ∧ w.session.closing then some { w with registered := false } else none

end SessionWorld

end Miles.Session
