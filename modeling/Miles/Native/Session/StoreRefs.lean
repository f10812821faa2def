import Miles.ForStd.Lts
import Miles.ForStd.PyDict
import Miles.Native.Rollout.StorePlan
import Miles.Native.Session.Core

/-!
# Output store refs of a session

Model of `miles/rollout/session/store_refs.py` and of the methods of `SessionCore`
(`miles/rollout/session/core.py`, `v2/core.py`) that use it, for one session with its chat
requests, its sample collections and its DELETE.

A section that holds the session lock has no suspension point inside, so it is one event, as is
every stretch of the event loop between two of its `await`s.  The worker thread that assembles
samples runs next to the event loop: `kept_by_session` reads the handed-over keys one ref at a
time, and a collection may hand its refs over between two reads.

The records of the session are its v1 records or the nodes of its v2 tree.  What a request makes
of them is left open, but for the refs: a chat request may roll back, an answered one may be
recorded or not, and a collection may fail, come out empty or take any samples that own refs of
the records it saw.

The world keeps the refs that the engine has handed out (`stored`) and the calls that reached
`delete_many`.
-/

namespace Miles.Session.StoreRefs

open Miles.Rollout (StoreRef)

/-! ## The session -/

/-- `SessionStoreRefs`; the keys of `handed_over` are a set. -/
structure SessionStoreRefs where
  arrived : PyDict String StoreRef := PyDict.empty
  handedOver : List String := []
  contractError : Option String := none

/-- The plan of a sample, reduced to its `owned_refs`. -/
structure Sample where
  rolloutStorePlan : Option (List StoreRef)
  deriving DecidableEq, Repr

/-- `store_refs_of` -/
def storeRefsOf (samples : List Sample) : PyDict String StoreRef :=
  .ofList (samples.flatMap fun sample =>
    (sample.rolloutStorePlan.getD []).map fun ref => (ref.key, ref))

namespace SessionStoreRefs

/-- `hand_over` -/
def handOver (refs : SessionStoreRefs) (samples : List Sample) : SessionStoreRefs :=
  { refs with handedOver := refs.handedOver ++ (storeRefsOf samples).keys }

/-- The test of `kept_by_session` on a key. -/
def keeps (refs : SessionStoreRefs) (samplesReceived : Bool) (key : String) : Bool :=
  !samplesReceived || decide (key ∉ refs.handedOver)

end SessionStoreRefs

/-- A record, reduced to the ref of its response. -/
structure Record where
  ref : Option StoreRef
  deriving DecidableEq, Repr

/-- `LinearTrajectory` and `SessionStateV2`, reduced to what the refs depend on. -/
structure SessionState where
  closing : Bool := false
  storeRefs : SessionStoreRefs := {}
  records : List Record := []

/-! ## Responses -/

/-- The value under `OUTPUT_STORE_REF_KEY` in the `meta_info` of a choice. -/
inductive RefField where
  | absent
  | ref (ref : StoreRef)
  /-- a value that `StoreRef.from_builtins` rejects -/
  | malformed
  deriving DecidableEq, Repr

/-- `choices[0]` of a response body. -/
structure Choice where
  finishReason : FinishReason
  outputStoreRef : RefField
  deriving DecidableEq, Repr

/-- What the backend answers; `choice` is `none` when the body has no `choices[0]`. -/
structure ProxyResult where
  statusCode : Nat
  choice : Option Choice
  deriving DecidableEq, Repr

/-- The ref that came with a response of status 200 that parses as a chat completion. -/
def ProxyResult.arrivedRef (result : ProxyResult) : Option StoreRef :=
  if result.statusCode ≠ 200 then none
  else
    match result.choice with
    | some ⟨_, .ref ref⟩ => some ref
    | _ => none

/-- How reading the ref of a response fails. -/
inductive RefError where
  | storePlan (message : String)
  /-- the error of `StoreRef.from_builtins` -/
  | fromBuiltins
  deriving DecidableEq, Repr

/-- `response_store_ref`; `optedIn` is the `OUTPUT_STORE_REQUEST_KEY` of the request body. -/
def responseStoreRef (optedIn : Bool) (result : ProxyResult) :
    Except RefError (Option StoreRef) :=
  if ¬ optedIn ∨ result.statusCode ≠ 200 then .ok none
  else
    match result.choice with
    | none => .ok none
    | some choice =>
      match choice.outputStoreRef with
      | .ref ref => .ok (some ref)
      | .malformed => .error .fromBuiltins
      | .absent =>
        if choice.finishReason ≠ .abort then
          .error (.storePlan <|
            "the request set return_outputs_via_store, but the response carries no " ++
            "output_store_ref: the router or engine dropped the opt-in")
        else .ok none

/-! ## Requests -/

/-- A chat request. -/
inductive Chat where
  /-- phase 2, with the `OUTPUT_STORE_REQUEST_KEY` of its body -/
  | proxying (optedIn : Bool)
  | answered
  deriving DecidableEq, Repr

/-- Where the server stands with a `/samples` request. -/
inductive Handling where
  /-- the request has not come to the session lock -/
  | sent
  /-- the job of `_sample_executor`, with the records of the snapshot -/
  | assembling (records : List Record)
  /-- a reply of status 200 was built -/
  | replied (samples : List Sample)
  /-- any other answer -/
  | raised
  deriving DecidableEq, Repr

/-- What the client knows of its `/samples` request. -/
inductive Outcome where
  | pending
  /-- the reply of status 200 came and was decoded -/
  | received
  /-- an error, a timeout, or a reply that was lost or not decoded -/
  | failed
  deriving DecidableEq, Repr

structure SamplesCall where
  handling : Handling
  outcome : Outcome
  deriving DecidableEq, Repr

/-- `delete_session` -/
inductive Deletion where
  | notBegun
  /-- the session is closing, the DELETE waits for the lock -/
  | closing (samplesReceived : Bool)
  /-- the loop of `kept_by_session`: the refs it keeps and the items it has not looked at -/
  | selecting (samplesReceived : Bool) (kept : List StoreRef) (rest : List (String × StoreRef))
  | done (samplesReceived : Bool)
  deriving DecidableEq, Repr

/-- How the assembly of `_collect_samples` ends. -/
inductive Assembly where
  /-- samples that were encoded; `[]` is a reply with an `empty_reason` -/
  | samples (samples : List Sample)
  /-- a 422, a 424 or another exception -/
  | error
  deriving DecidableEq, Repr

structure World where
  /-- the registry still lists the session -/
  registered : Bool := true
  session : SessionState := {}
  chats : List Chat := []
  calls : List SamplesCall := []
  deletion : Deletion := .notBegun
  /-- the refs of the responses of status 200 that parse as a chat completion -/
  stored : List StoreRef := []
  /-- the arguments of the calls of `delete_many` -/
  deleteManyCalls : List (List StoreRef) := []

inductive Event where
  /-- a chat request runs its phase 1: the records it keeps, and whether it asks for any of
      the stored fields -/
  | chat (kept : Nat) (asks : Bool)
  /-- the backend answers a chat request; `recorded` says whether its phase 3 records it -/
  | answer (chat : Nat) (result : ProxyResult) (recorded : Bool)
  /-- the client sends a `/samples` request -/
  | samples
  /-- a `/samples` request comes to the session lock -/
  | collect (call : Nat)
  /-- `_sample_executor` ends a job -/
  | assemble (call : Nat) (assembly : Assembly)
  /-- the client gets and decodes a reply of status 200 -/
  | receive (call : Nat)
  /-- a `/samples` request ends for the client without a decoded reply -/
  | fail (call : Nat)
  /-- a DELETE comes in -/
  | delete (samplesReceived : Bool)
  /-- that DELETE got the lock and drops the session -/
  | remove
  /-- `kept_by_session` looks at the next ref -/
  | select
  /-- the refs it kept are deleted -/
  | deleteKept
  deriving DecidableEq, Repr

namespace World

/-- `_delete_store_refs`; `none` when it raises.  An error of `delete_many` is logged only. -/
def deleteStoreRefs (outputStore : Bool) (w : World) (refs : List StoreRef) : Option World :=
  if refs = [] then some w
  else if ¬ outputStore then none
  else some { w with deleteManyCalls := w.deleteManyCalls ++ [refs] }

def setContractError (w : World) (message : String) : World :=
  { w with session :=
      { w.session with storeRefs :=
        { w.session.storeRefs with contractError := some message } } }

/-- `session.store_refs.arrived[ref.key] = ref` -/
def addArrived (w : World) (ref : StoreRef) : World :=
  { w with session :=
      { w.session with storeRefs :=
        { w.session.storeRefs with arrived := w.session.storeRefs.arrived.set ref.key ref } } }

/-- `session.append_record`, or a new node of the tree -/
def addRecord (w : World) (record : Record) : World :=
  { w with session := { w.session with records := w.session.records ++ [record] } }

/-- `_take_store_ref`: the world after it, and its value or that it raised. -/
def takeStoreRef (outputStore : Bool) (w : World) (optedIn : Bool) (result : ProxyResult) :
    World × Option (Option StoreRef) :=
  match responseStoreRef optedIn result with
  | .error (.storePlan message) => (w.setContractError message, none)
  | .error .fromBuiltins => (w, none)
  | .ok none => (w, some none)
  | .ok (some ref) =>
    if w.session.closing then
      match w.deleteStoreRefs outputStore [ref] with
      | some w => (w, some (some ref))
      | none => (w, none)
    else (w.addArrived ref, some (some ref))

/-- Phase 1 of `chat_completions`; the opt-in is set by `prepare_chat_request`. -/
def chat (outputStore : Bool) (w : World) (kept : Nat) (asks : Bool) : World :=
  if w.registered ∧ ¬ w.session.closing then
    { w with
      session := { w.session with records := w.session.records.take kept }
      chats := w.chats ++ [.proxying (outputStore && asks)] }
  else { w with chats := w.chats ++ [.answered] }

/-- The answer of a proxied request, then phase 3.  Only a response of status 200 whose ref did
    not raise comes to phase 3, and a closing session records none. -/
def answer (outputStore : Bool) (w : World) (i : Nat) (optedIn : Bool) (result : ProxyResult)
    (recorded : Bool) : World :=
  let w : World :=
    { w with
      chats := w.chats.set i .answered
      stored := w.stored ++ result.arrivedRef.toList }
  match w.takeStoreRef outputStore optedIn result with
  | (w, some ref) =>
    if result.statusCode = 200 ∧ recorded ∧ ¬ w.session.closing then w.addRecord ⟨ref⟩ else w
  | (w, none) => w

/-- `collect_samples` up to its snapshot. -/
def collect (w : World) : Handling :=
  if ¬ w.registered then .raised
  else if w.session.closing then .raised
  else if w.session.storeRefs.contractError.isSome then .raised
  else .assembling w.session.records

/-- The samples own refs of the records only. -/
def OwnedBy (records : List Record) (samples : List Sample) : Prop :=
  ∀ sample ∈ samples, ∀ ref ∈ sample.rolloutStorePlan.getD [],
    some ref ∈ records.map Record.ref

instance (records : List Record) (samples : List Sample) : Decidable (OwnedBy records samples) :=
  inferInstanceAs (Decidable (∀ sample ∈ samples, ∀ ref ∈ sample.rolloutStorePlan.getD [],
    some ref ∈ records.map Record.ref))

def setHandling (w : World) (k : Nat) (call : SamplesCall) (handling : Handling) : World :=
  { w with calls := w.calls.set k { call with handling } }

def setOutcome (w : World) (k : Nat) (call : SamplesCall) (outcome : Outcome) : World :=
  { w with calls := w.calls.set k { call with outcome } }

/-- The end of `_collect_samples`: the reply is encoded, then its refs are handed over. -/
def assemble (w : World) (k : Nat) (call : SamplesCall) : Assembly → World
  | .error => w.setHandling k call .raised
  | .samples samples =>
    { w.setHandling k call (.replied samples) with
      session :=
        { w.session with storeRefs := w.session.storeRefs.handOver samples } }

/-- One event; `none` when it cannot happen. -/
def step (outputStore : Bool) (w : World) : Event → Option World
  | .chat kept asks => some (w.chat outputStore kept asks)
  | .answer i result recorded =>
    match w.chats[i]? with
    | some (.proxying optedIn) => some (w.answer outputStore i optedIn result recorded)
    | _ => none
  | .samples => some { w with calls := w.calls ++ [⟨.sent, .pending⟩] }
  | .collect k =>
    match w.calls[k]? with
    | some call =>
      if call.handling = .sent then some (w.setHandling k call w.collect) else none
    | none => none
  | .assemble k assembly =>
    match w.calls[k]? with
    | some call =>
      match call.handling, assembly with
      | .assembling records, .samples samples =>
        if OwnedBy records samples then some (w.assemble k call (.samples samples)) else none
      | .assembling _, .error => some (w.assemble k call .error)
      | _, _ => none
    | none => none
  | .receive k =>
    match w.calls[k]? with
    | some call =>
      match call.outcome, call.handling with
      | .pending, .replied _ => some (w.setOutcome k call .received)
      | _, _ => none
    | none => none
  | .fail k =>
    match w.calls[k]? with
    | some call => if call.outcome = .pending then some (w.setOutcome k call .failed) else none
    | none => none
  | .delete samplesReceived =>
    -- a DELETE of a session that is gone or closing is answered with a 404
    if w.registered ∧ ¬ w.session.closing then
      some { w with
        session := { w.session with closing := true }
        deletion := .closing samplesReceived }
    else some w
  | .remove =>
    match w.deletion with
    | .closing samplesReceived =>
      some { w with
        registered := false
        deletion := .selecting samplesReceived [] w.session.storeRefs.arrived.items }
    | _ => none
  | .select =>
    match w.deletion with
    | .selecting samplesReceived kept (item :: rest) =>
      if w.session.storeRefs.keeps samplesReceived item.1 then
        some { w with deletion := .selecting samplesReceived (kept ++ [item.2]) rest }
      else some { w with deletion := .selecting samplesReceived kept rest }
    | _ => none
  | .deleteKept =>
    match w.deletion with
    | .selecting samplesReceived kept [] =>
      let w : World := { w with deletion := .done samplesReceived }
      some ((w.deleteStoreRefs outputStore kept).getD w)
    | _ => none

end World

end Miles.Session.StoreRefs
