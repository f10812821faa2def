import Miles.Native.Tinker.Encoding
import Miles.Native.Tinker.Service

/-!
# Submission of decoded commands

`TinkerService.submit` on what the decoder returns, with the validation that it calls.  The future
and the entry of the sequence number are recorded before the content is validated, so what an
exception leaves behind is part of the state here.
-/

namespace Miles.Tinker

/-- A decoded command: a batch with its content, or another op; a `validation_error` stands in
    for the content. -/
inductive WireCommand where
  | batch (forwardOnly : Bool) (content : Except String BatchContent)
  | barrier (type : Encoding.RequestType) (validationError : Option String)

namespace WireCommand

def op : WireCommand → CommandOp
  | batch true _ => .forwardOnly
  | batch false _ => .forwardBackward
  | barrier type _ => type.op

/-- The validation error that is recorded with the command.  Only `UserInputError` is caught, and
    only batch ops are checked. -/
def validationError (py : PyRuntime) (limits : GatewayLimits) :
    WireCommand → Checked (Option String)
  | batch _ (.error text) => .ok (some text)
  | batch _ (.ok content) =>
    match validateBatchPayload py limits content with
    | .ok _ => .ok none
    | .error (.raised e) => .ok (some e.text)
    | .error e => .error e
  | barrier _ error => .ok error

end WireCommand

namespace Service

/-- What `submit` raises. -/
inductive SubmitError where
  | request (e : RequestError)
  | raised (e : PyError UserInputError)

/-- `submit` of a decoded command, with the state it leaves; `payload` is what scheduling reads
    of the command. -/
def submitDecoded (py : PyRuntime) (limits : GatewayLimits) (tenant : String) (modelId : Nat)
    (seqId : Int) (command : WireCommand) (payload : Payload) (s : Service) :
    Service × Except SubmitError Nat :=
  match s.getModel tenant modelId with
  | .error e => (s, .error (.request e))
  | .ok r =>
    if seqId < 1 then (s, .error (.request .invalidSeqId))
    else
      let seqId := seqId.toNat
      match r.requestIdBySeq.lookup seqId with
      | some requestId =>
        let (requestId, s) := s.requestIdForRetry requestId (.model modelId) tenant
        (s.modifyModel modelId fun r => { r with
          requestIdBySeq := (seqId, requestId) :: r.requestIdBySeq.filter (·.1 ≠ seqId) },
          .ok requestId)
      | none =>
        let requestId := s.nextId
        let s := s.createFuture (.model modelId) tenant
        let s := s.modifyModel modelId fun r => { r with
          requestIdBySeq := (seqId, requestId) :: r.requestIdBySeq }
        let s := { s with arrivalCounter := s.arrivalCounter + 1 }
        match command.validationError py limits with
        -- the future and the entry stay
        | .error e => (s, .error (.raised e))
        | .ok validationError =>
          let command : Command := {
            modelId, seqId, op := command.op, payload, requestId, arrival := s.arrivalCounter,
            validationError }
          let s := (s.modifyQueue modelId (·.submit command)).record (.submitted command)
          ({ s with wake := true }, .ok requestId)

/-- What can happen on the event loop, with commands as they arrive. -/
inductive WireEvent where
  | submit (tenant : String) (modelId : Nat) (seqId : Int) (command : WireCommand)
      (payload : Payload)
  /-- anything but a submission -/
  | other (e : Event)

/-- One event; `none` if it cannot happen. -/
def wireStep (py : PyRuntime) (limits : GatewayLimits) (config : GatewayConfig) (s : Service) :
    WireEvent → Option Service
  | .submit tenant modelId seqId command payload =>
    some (s.submitDecoded py limits tenant modelId seqId command payload).1
  | .other (.submit ..) => none
  | .other e => step config s e

end Service

end Miles.Tinker
