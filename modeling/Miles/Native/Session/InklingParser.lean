import Miles.ForStd.PyJson

/-!
# Raw Inkling completions

Model of `miles/utils/chat_template_utils/inkling_parser.py`.  The tokenizer and the library
functions the parser calls are parameters; a token id is a signed 32-bit integer, as the
digest of a tool call requires.
-/

namespace Miles.InklingParser

abbrev TokenId := BitVec 32

/-- What `json.loads` may raise on a text. -/
inductive LoadsError where
  | type
  | jsonDecode
  /-- another `ValueError` -/
  | value
  | recursion
  deriving DecidableEq, Repr

/-- What `parse` may raise. -/
inductive ParseException where
  | loads (error : LoadsError)
  /-- `OverflowError` of `to_bytes` -/
  | overflow
  deriving DecidableEq, Repr

/-- What the parser calls. -/
structure Runtime where
  /-- `tokenizer.decode` that keeps special tokens -/
  decode : List TokenId → String
  loads : String → Except LoadsError PyJson
  /-- `json.dumps` without spaces -/
  dumps : PyJson → String
  /-- the hex digest of `sha256` -/
  sha256 : List (BitVec 8) → String

/-- `self.ids` and the special ids of the tokenizer.  Different control tokens have different
    ids. -/
structure ControlIds where
  messageModel : TokenId
  contentThinking : TokenId
  contentText : TokenId
  contentInvokeToolJson : TokenId
  contentInvokeToolText : TokenId
  endMessage : TokenId
  endSampling : TokenId
  allSpecialIds : List TokenId
  distinct : [messageModel, contentThinking, contentText, contentInvokeToolJson,
    contentInvokeToolText, endMessage, endSampling].Nodup

/-- `self._control_ids` -/
def ControlIds.controlIds (ids : ControlIds) : List TokenId :=
  [ids.messageModel, ids.contentThinking, ids.contentText, ids.contentInvokeToolJson,
    ids.contentInvokeToolText, ids.endMessage, ids.endSampling] ++ ids.allSpecialIds

inductive BlockKind where
  | thinking | text | toolJson | toolText
  deriving DecidableEq, Repr

/-- The kind of block a marker opens. -/
def ControlIds.markerKind (ids : ControlIds) (tokenId : TokenId) : Option BlockKind :=
  if tokenId = ids.contentThinking then some .thinking
  else if tokenId = ids.contentText then some .text
  else if tokenId = ids.contentInvokeToolJson then some .toolJson
  else if tokenId = ids.contentInvokeToolText then some .toolText
  else none

/-- An entry of `content_blocks`. -/
inductive ContentBlock where
  | thinking (text : String)
  | text (text : String)
  | toolCall (recipient name : String) (arguments : PyJson) (rawJson : String)

structure ToolCall where
  id : String
  type : String
  name : String
  arguments : String
  deriving DecidableEq, Repr

/-- The first thing wrong with a completion. -/
inductive ParseFailure where
  | endMessageWithoutContent
  | unexpectedThinkingRecipient
  | unexpectedTextRecipient
  | malformedToolJson
  | toolPayloadNotObject
  | invalidToolPayloadShape
  | unsupportedTextToolCall
  | tokensAfterEndSampling
  | controlTokenInsideOpenBlock
  | missingMessageModelBoundary
  | unexpectedControlTokenInHeader
  | unterminatedContentBlock
  | unterminatedMessageHeader
  | missingEndSampling
  deriving DecidableEq, Repr

/-- `parse_error` -/
def ParseFailure.text : ParseFailure → String
  | endMessageWithoutContent => "end_message_without_content"
  | unexpectedThinkingRecipient => "unexpected_thinking_recipient"
  | unexpectedTextRecipient => "unexpected_text_recipient"
  | malformedToolJson => "malformed_tool_json"
  | toolPayloadNotObject => "tool_payload_not_object"
  | invalidToolPayloadShape => "invalid_tool_payload_shape"
  | unsupportedTextToolCall => "unsupported_text_tool_call"
  | tokensAfterEndSampling => "tokens_after_end_sampling"
  | controlTokenInsideOpenBlock => "control_token_inside_open_block"
  | missingMessageModelBoundary => "missing_message_model_boundary"
  | unexpectedControlTokenInHeader => "unexpected_control_token_in_header"
  | unterminatedContentBlock => "unterminated_content_block"
  | unterminatedMessageHeader => "unterminated_message_header"
  | missingEndSampling => "missing_end_sampling"

/-- `state` -/
inductive Phase where
  | header | payload | between
  deriving DecidableEq, Repr

/-- The local variables of `parse`. -/
structure ParseState where
  blocks : List ContentBlock
  visibleParts : List String
  reasoningParts : List String
  toolCalls : List ToolCall
  error : Option ParseFailure
  ended : Bool
  phase : Phase
  headerIds : List TokenId
  payloadIds : List TokenId
  blockKind : Option BlockKind

/-- Before the first token: the generation prompt has supplied the first `message_model`. -/
def ParseState.start : ParseState where
  blocks := []
  visibleParts := []
  reasoningParts := []
  toolCalls := []
  error := none
  ended := false
  phase := .header
  headerIds := []
  payloadIds := []
  blockKind := none

/-- `fail`: the first reason stays. -/
def ParseState.fail (st : ParseState) (reason : ParseFailure) : ParseState :=
  { st with error := st.error.or (some reason) }

/-- `to_bytes(4, "big")` -/
def bytesBigEndian (x : BitVec 32) : List (BitVec 8) :=
  [x.extractLsb' 24 8, x.extractLsb' 16 8, x.extractLsb' 8 8, x.extractLsb' 0 8]

/-- `_tool_call_id` -/
def toolCallId (rt : Runtime) (completionTokenIds : List TokenId) (index : Nat) :
    Except ParseException String := do
  if ¬ index < 2 ^ 32 then throw .overflow
  let digest := rt.sha256 (bytesBigEndian (BitVec.ofNat 32 index) ++
    completionTokenIds.flatMap bytesBigEndian)
  return "call_" ++ String.ofList (digest.toList.take 24)

/-- `json.loads` on a payload; some exceptions make the payload `None`. -/
def loadPayload (rt : Runtime) (text : String) (st : ParseState) :
    Except ParseException (PyJson × ParseState) :=
  match rt.loads text with
  | .ok payload => .ok (payload, st)
  | .error .type => .ok (.null, st.fail .malformedToolJson)
  | .error .jsonDecode => .ok (.null, st.fail .malformedToolJson)
  | .error e => .error (.loads e)

/-- The branch of `close_block` for a tool call in JSON. -/
def closeToolJson (rt : Runtime) (completionTokenIds : List TokenId) (text recipient : String)
    (st : ParseState) : Except ParseException ParseState := do
  let (payload, st) ← loadPayload rt text st
  if ¬ payload.isObj then return st.fail .toolPayloadNotObject
  match payload.field? "name", payload.field? "args" with
  | some (.str name), some (.obj arguments) =>
    let id ← toolCallId rt completionTokenIds st.toolCalls.length
    return { st with
      toolCalls := st.toolCalls ++
        [{ id, type := "function", name, arguments := rt.dumps (.obj arguments) }]
      blocks := st.blocks ++ [.toolCall recipient name (.obj arguments) text] }
  | _, _ => return st.fail .invalidToolPayloadShape

/-- `close_block` -/
def closeBlock (rt : Runtime) (completionTokenIds : List TokenId) (st : ParseState) :
    Except ParseException ParseState := do
  let some kind := st.blockKind | return st.fail .endMessageWithoutContent
  let text := rt.decode st.payloadIds
  let recipient := rt.decode st.headerIds
  let st ← match kind with
    | .thinking =>
      let st := if recipient ≠ "" then st.fail .unexpectedThinkingRecipient else st
      pure { st with
        blocks := st.blocks ++ [.thinking text]
        reasoningParts := st.reasoningParts ++ [text] }
    | .text =>
      let st := if recipient ≠ "" then st.fail .unexpectedTextRecipient else st
      pure { st with
        blocks := st.blocks ++ [.text text]
        visibleParts := st.visibleParts ++ [text] }
    | .toolJson => closeToolJson rt completionTokenIds text recipient st
    | .toolText => pure (st.fail .unsupportedTextToolCall)
  return { st with blockKind := none, headerIds := [], payloadIds := [] }

/-- One turn of the loop; `true` leaves it. -/
def step (rt : Runtime) (ids : ControlIds) (completionTokenIds : List TokenId) (st : ParseState)
    (tokenId : TokenId) : Except ParseException (ParseState × Bool) :=
  if st.ended then .ok (st.fail .tokensAfterEndSampling, true)
  else
    match st.phase with
    | .payload =>
      if tokenId = ids.endMessage then do
        let st ← closeBlock rt completionTokenIds st
        return ({ st with phase := .between }, false)
      else if tokenId ∈ ids.controlIds then .ok (st.fail .controlTokenInsideOpenBlock, true)
      else .ok ({ st with payloadIds := st.payloadIds ++ [tokenId] }, false)
    | .between =>
      if tokenId = ids.messageModel then .ok ({ st with phase := .header }, false)
      else if tokenId = ids.endSampling then .ok ({ st with ended := true }, false)
      else .ok (st.fail .missingMessageModelBoundary, true)
    | .header =>
      -- ordinary ids are the recipient of the invocation
      if tokenId = ids.messageModel ∧ st.headerIds = [] then .ok (st, false)
      else
        match ids.markerKind tokenId with
        | some kind =>
          .ok ({ st with blockKind := some kind, payloadIds := [], phase := .payload }, false)
        | none =>
          if tokenId = ids.endSampling ∧ st.headerIds = [] then
            .ok ({ st with ended := true, phase := .between }, false)
          else if tokenId ∈ ids.controlIds then
            .ok (st.fail .unexpectedControlTokenInHeader, true)
          else .ok ({ st with headerIds := st.headerIds ++ [tokenId] }, false)

/-- The loop over the tokens. -/
def run (rt : Runtime) (ids : ControlIds) (completionTokenIds : List TokenId) :
    List TokenId → ParseState → Except ParseException ParseState
  | [], st => .ok st
  | tokenId :: rest, st => do
    let (st, stop) ← step rt ids completionTokenIds st tokenId
    if stop then return st
    run rt ids completionTokenIds rest st

/-- What is checked after the loop. -/
def finish (st : ParseState) : ParseState :=
  if st.phase = .payload then st.fail .unterminatedContentBlock
  else if st.phase = .header ∧ st.headerIds ≠ [] then st.fail .unterminatedMessageHeader
  else if ¬ st.ended then st.fail .missingEndSampling
  else st

structure ClientMessage where
  role : String
  content : String
  reasoningContent : Option String
  toolCalls : Option (List ToolCall)

structure StoredMessage extends ClientMessage where
  contentBlocks : List ContentBlock

structure ParsedAssistantCompletion where
  clientMessage : ClientMessage
  storedMessage : StoredMessage
  parserName : String
  parseError : Option String

/-- `InklingResponseParser.parse` -/
def parse (rt : Runtime) (ids : ControlIds) (completionTokenIds : List TokenId) :
    Except ParseException ParsedAssistantCompletion := do
  let st ← run rt ids completionTokenIds completionTokenIds .start
  let st := finish st
  let clientMessage : ClientMessage := {
    role := "assistant"
    content := String.join st.visibleParts
    reasoningContent :=
      if st.reasoningParts ≠ [] then some (String.join st.reasoningParts) else none
    toolCalls := if st.toolCalls ≠ [] ∧ st.error = none then some st.toolCalls else none }
  return {
    clientMessage
    storedMessage := { clientMessage with contentBlocks := st.blocks }
    parserName := "inkling"
    parseError := st.error.map ParseFailure.text }

end Miles.InklingParser
