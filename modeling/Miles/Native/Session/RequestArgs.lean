import Miles.ForStd.PyEq

/-!
# Chat request arguments

Pure Lean model of `rollout/session/request_args.py`, of the request rules of
`utils/chat_template_utils/tito_tokenizer.py`, and of the sampling checks of
`rollout/generate_utils/{rollout_topk_logprobs,sampling_mask}.py`.

A request is a dictionary of JSON values.  The model rules of a tokenizer merge its
`chat_template_kwargs` and `tools` with the launch defaults and with the recorded request of the
turn it continues; the rest of `prepare_chat_request` sets what the server owns.
-/

namespace Miles.RequestArgs

/-- A request body, or its template kwargs. -/
abbrev Args := PyDict String PyJson

inductive RequestError where
  | valueError (text : String)
  | messageValidation (text : String)
  deriving DecidableEq

abbrev Result (α : Type) := Except (PyError RequestError) α

/-- `raise ValueError(text)` -/
def raiseValue {α : Type} (text : String) : Result α := .error (.raised (.valueError text))

/-- `raise MessageValidationError(text)` -/
def reject {α : Type} (text : String) : Result α := .error (.raised (.messageValidation text))

/-- What the rules call: Python's conversions, and the validation of `list[Tool]` with the
    `model_dump` of each tool. -/
structure Runtime extends PyRuntime where
  intOfStr : String → Option Int
  toolDumps : List PyJson → Result (List PyJson)

/-- `except ValueError as e: raise MessageValidationError(str(e))` -/
def Runtime.asMessageValidation (rt : Runtime) : PyError RequestError → PyError RequestError
  | .raised (.valueError text) => .raised (.messageValidation text)
  | .builtin .value => .raised (.messageValidation (rt.message .value))
  | e => e

/-! ## Reading a request -/

/-- `args.get(key)`, with a value of `None` as none. -/
def value? (args : Args) (key : String) : Option PyJson :=
  match args.get? key with
  | some .null => none
  | v => v

/-- `bool(args.get(key))` -/
def truthyAt (args : Args) (key : String) : Bool :=
  match args.get? key with
  | some v => v.truthy
  | none => false

/-- `args.get(key) or None` -/
def orNone (args : Args) (key : String) : PyJson :=
  match args.get? key with
  | some v => if v.truthy then v else .null
  | none => .null

/-- `args.get("chat_template_kwargs") or {}`, used as a dictionary. -/
def templateKwargs (args : Args) : Result Args :=
  match args.get? "chat_template_kwargs" with
  | some (.obj fields) => .ok (PyDict.ofList fields)
  | some v => if v.truthy then .error (.builtin .type) else .ok PyDict.empty
  | none => .ok PyDict.empty

/-- `request_args["chat_template_kwargs"] = kwargs` -/
def setKwargs (args kwargs : Args) : Args := args.set "chat_template_kwargs" (.obj kwargs.items)

/-- Select renderer kwargs from an already resolved request, including tools. -/
def extractTemplateArgs (args : Args) : Result Args := do
  let kwargs ← templateKwargs args
  return if truthyAt args "tools" then kwargs.set "tools" (orNone args "tools") else kwargs

/-! ## Tools -/

/-- A tool in the form the validation expects. -/
def wrapTool (tool : PyJson) : PyJson :=
  if (tool.field? "function").isSome then tool
  else .obj [("type", .str "function"), ("function", tool)]

/-- Canonicalize tools via Pydantic, returning full Tool model dumps. -/
def extractToolDicts (rt : Runtime) (tools : PyJson) : Result (Option (List PyJson)) :=
  if tools.truthy then do
    let items ← tools.iter
    let dumps ← rt.toolDumps (items.map wrapTool)
    return some dumps
  else .ok none

/-- `==` of two canonical tool lists. -/
def toolsEq : Option (List PyJson) → Option (List PyJson) → Bool
  | none, none => true
  | some tools, some others => PyJson.pyEqItems tools others
  | _, _ => false

/-! ## Families -/

/-- A family's fixed renderer contract: the kwargs it forces, and the fields that must retain
    their recorded value in a continued turn. -/
structure FixedTemplate where
  extraKwargs : Args := PyDict.empty
  consistantKwargs : List String := []

inductive TITOTokenizerType where
  | default
  | qwen3
  | qwen35
  | qwen36
  | qwen38Small
  | qwen4Exp
  | qwenNext
  | glm47
  | glm53
  | nemotron3
  | kimi25
  | kimi26
  | minimaxM25
  | minimaxM27
  | deepSeekV32
  | deepSeekV4
  | deepSeekV41
  | inkling
  deriving DecidableEq

/-- `FIXED_TEMPLATE` of the family's class. -/
def TITOTokenizerType.fixedTemplate : TITOTokenizerType → FixedTemplate
  | .default => {}
  | .qwen3 => { extraKwargs := .ofList [("clear_thinking", .bool false)] }
  | .qwen35 =>
    { extraKwargs := .ofList [("preserve_thinking", .bool true)]
      consistantKwargs := ["add_vision_id"] }
  | .qwen36 =>
    { extraKwargs := .ofList [("preserve_thinking", .bool true)]
      consistantKwargs := ["add_vision_id"] }
  | .qwen38Small | .qwen4Exp =>
    { extraKwargs := .ofList [("preserve_thinking", .bool true)]
      consistantKwargs := ["add_vision_id", "enable_thinking", "reasoning_effort"] }
  | .qwenNext => { extraKwargs := .ofList [("clear_thinking", .bool false)] }
  | .glm47 => { extraKwargs := .ofList [("clear_thinking", .bool false)] }
  | .glm53 =>
    { extraKwargs := .ofList [("clear_thinking", .bool false), ("enable_thinking", .bool true)]
      consistantKwargs := ["reasoning_effort"] }
  | .nemotron3 =>
    { extraKwargs := .ofList [("truncate_history_thinking", .bool false)]
      consistantKwargs := ["low_effort"] }
  | .kimi25 =>
    { extraKwargs := .ofList [("preserve_thinking", .bool true)]
      consistantKwargs := ["thinking", "tools_ts_str"] }
  | .kimi26 =>
    { extraKwargs := .ofList [("preserve_thinking", .bool true)]
      consistantKwargs := ["tools_ts_str"] }
  | .minimaxM25 => { extraKwargs := .ofList [("clear_thinking", .bool false)] }
  | .minimaxM27 => { extraKwargs := .ofList [("clear_thinking", .bool false)] }
  | .deepSeekV32 =>
    { extraKwargs := .ofList [("drop_thinking", .bool false)]
      consistantKwargs := ["add_default_bos_token", "context"] }
  | .deepSeekV4 | .deepSeekV41 =>
    { extraKwargs := .ofList [("drop_thinking", .bool false)]
      consistantKwargs := ["add_default_bos_token", "context", "reasoning_effort"] }
  | .inkling => { consistantKwargs := ["reasoning_effort"] }

def TITOTokenizerType.isDeepSeek : TITOTokenizerType → Bool
  | .deepSeekV32 | .deepSeekV4 | .deepSeekV41 => true
  | _ => false

/-- The family and the launch kwargs of a tokenizer. -/
structure TITOTokenizer where
  type : TITOTokenizerType
  chatTemplateKwargs : Args

/-! ## The rules of a family -/

/-- A rule: the request so far, the request as it came, and the recorded request of the turn that
    is continued. -/
abbrev Rule := Args → Args → Option Args → Result Args

/-- `(turn_args or {}).get("chat_template_kwargs") or {}` -/
def turnKwargs : Option Args → Result Args
  | some turnArgs => templateKwargs turnArgs
  | none => .ok PyDict.empty

namespace TITOTokenizer

/-- Merge request template fields over history and launch defaults. -/
def resolveTemplateKwargs (tok : TITOTokenizer) : Rule := fun args source turn => do
  let kwargs := (tok.chatTemplateKwargs.update (← turnKwargs turn)).update (← templateKwargs source)
  -- launch kwargs may contain tools; requests carry them at the top level
  return setKwargs args (kwargs.erase "tools")

/-- Inherit omitted tools and reject changes to tools in a reused prefix. -/
def resolveTools (rt : Runtime) (tok : TITOTokenizer) : Rule := fun args source turn => do
  let tools := orNone source "tools"
  match turn with
  | none =>
    return args.set "tools" (if tools.truthy then tools else tok.chatTemplateKwargs.getD "tools" .null)
  | some turnArgs =>
    let recorded := turnArgs.getD "tools" .null
    if tools.isNull then return args.set "tools" recorded
    else
      if toolsEq (← extractToolDicts rt tools) (← extractToolDicts rt recorded) then
        return args.set "tools" tools
      else
        raiseValue <|
          "tools changed on a continued turn: the turn being continued was rendered with " ++
          "different tools, and this model family renders tools in the prompt prefix"

/-- Keep selected historical fields, including their absence, in a continued turn. -/
def resolveHistoryArgs (tok : TITOTokenizer) : Rule := fun args _ turn =>
  match turn with
  | none => .ok args
  | some turnArgs => do
    let keys := tok.type.fixedTemplate.consistantKwargs
    let recorded ← templateKwargs turnArgs
    let kwargs ← templateKwargs args
    return setKwargs args ((kwargs.eraseAll keys).update (recorded.restrict keys))

/-- Override requested template values with the family's required settings. -/
def applyFixedTemplateKwargs (tok : TITOTokenizer) : Rule := fun args _ _ =>
  if tok.type.fixedTemplate.extraKwargs.size = 0 then .ok args
  else do
    let kwargs ← templateKwargs args
    return setKwargs args (kwargs.update tok.type.fixedTemplate.extraKwargs)

end TITOTokenizer

/-! ### DeepSeek -/

namespace DeepSeek

/-- `_DEEPSEEK_MODE_KWARG_ALIASES` -/
def modeKwargAliases : List String := ["thinking_mode", "enable_thinking", "thinking"]

/-- `kwargs.setdefault("thinking_mode", "thinking" if flag else "chat")`, for a flag that is there. -/
def defaultMode (kwargs : Args) (flag : Option PyJson) : Args :=
  match flag, kwargs.get? "thinking_mode" with
  | some flag, none =>
    kwargs.set "thinking_mode" (.str (if flag.truthy then "thinking" else "chat"))
  | _, _ => kwargs

/-- `_build_encode_config`; the V4.1 family sets a `reasoning_effort` after it. -/
def buildEncodeConfig (kwargs : Args) : Args :=
  let enableThinking := value? kwargs "enable_thinking"
  let kwargs := defaultMode (kwargs.erase "enable_thinking") enableThinking
  let thinking := value? kwargs "thinking"
  let kwargs := defaultMode (kwargs.erase "thinking") thinking
  -- thinking-on matches the server default
  defaultMode kwargs (some (.bool true))

/-- Whether the kwargs resolve to thinking mode, through the path that renders. -/
def renderThinkingEnabled (kwargs : Args) : Bool :=
  match (buildEncodeConfig kwargs).get? "thinking_mode" with
  | some mode => mode.isText "thinking"
  | none => false

/-- The first source that sets the mode says what it is. -/
def modeOf : List Args → Args
  | [] => PyDict.empty
  | source :: sources =>
    let mode := source.restrict modeKwargAliases
    if mode.items = [] then modeOf sources else mode

/-- `resolve_template_kwargs` of the V3.2 and the V4 tokenizer: thinking aliases are one setting,
    and history overrides the request and launch defaults. -/
def resolveTemplateKwargs (tok : TITOTokenizer) : Rule := fun args source turn => do
  let args ← tok.resolveTemplateKwargs args source turn
  let mode := modeOf [← turnKwargs turn, ← templateKwargs source, tok.chatTemplateKwargs]
  let kwargs ← templateKwargs args
  return setKwargs args ((kwargs.eraseAll modeKwargAliases).update mode)

/-- `resolve_thinking` of the V3.2 and the V4 tokenizer. -/
def resolveThinking : Rule := fun args _ _ => do
  let kwargs ← templateKwargs args
  let thinking := renderThinkingEnabled kwargs
  -- SGLang's reasoning parser reads the canonical thinking flag
  return setKwargs args ((kwargs.eraseAll modeKwargAliases).set "thinking" (.bool thinking))

end DeepSeek

/-! ### Resolution -/

namespace TITOTokenizer

/-- This model's rules in execution order. -/
def requestArgRules (rt : Runtime) (tok : TITOTokenizer) : List Rule :=
  if tok.type.isDeepSeek then
    [DeepSeek.resolveTemplateKwargs tok, tok.resolveTools rt, tok.resolveHistoryArgs,
      tok.applyFixedTemplateKwargs, DeepSeek.resolveThinking]
  else
    [tok.resolveTemplateKwargs, tok.resolveTools rt, tok.resolveHistoryArgs,
      tok.applyFixedTemplateKwargs]

/-- Apply model rules and return the full request. -/
def resolveRequestArgs (rt : Runtime) (tok : TITOTokenizer) (source : Args) (turn : Option Args) :
    Result Args :=
  (tok.requestArgRules rt).foldlM (fun args rule => rule args source turn) source

/-- The tokenizer of a family, with its launch kwargs resolved. -/
def init (rt : Runtime) (type : TITOTokenizerType) (chatTemplateKwargs : Args) :
    Result TITOTokenizer := do
  let launchArgs ← resolveRequestArgs rt ⟨type, chatTemplateKwargs⟩ PyDict.empty none
  return ⟨type, ← extractTemplateArgs launchArgs⟩

end TITOTokenizer

/-! ## Server rules -/

structure SessionServerConfig where
  useRolloutRoutingReplay : Bool
  useRolloutIndexerReplay : Bool
  loraRank : Int
  loraAdapterPath : Option String
  loraTrainOnly : Bool
  rolloutTopLogprobsNum : Int
  rolloutSamplingLogprobsMode : String
  rolloutTemperature : Float64
  outputStoreBackendConfig : Option Args

def isLoraEnabled (config : SessionServerConfig) : Bool :=
  0 < config.loraRank || config.loraAdapterPath.isSome

def loraRolloutEnabled (config : SessionServerConfig) : Bool :=
  isLoraEnabled config && !config.loraTrainOnly

/-- `LORA_ADAPTER_NAME` -/
def loraAdapterName : String := "miles_lora"

/-- What the client's own request asked the response to carry. -/
structure ClientResponseIntent where
  stream : Bool
  logprobs : Bool

/-- Drop a field that the client may not set; a value of it is out of scope. -/
def refuse (rt : Runtime) (args : Args) (key reason : String) : Result Args :=
  match value? args key with
  | some v => reject s!"{key}={rt.repr v} is not accepted: {reason}"
  | none => .ok (args.erase key)

/-- The served adapter is selected by training: the client may only name it. -/
def checkLoraPath (rt : Runtime) (args : Args) (loraPath : Option String) : Result Unit :=
  match value? args "lora_path" with
  | some v =>
    if loraPath.any fun path => v.isText path then .ok ()
    else reject s!"lora_path={rt.repr v} is not accepted: the served adapter is selected by training"
  | none => .ok ()

/-- SGLang lets a base:adapter model beat `lora_path`, so that spelling is refused too. -/
def checkModel (rt : Runtime) (args : Args) : Result Unit :=
  let model := orNone args "model"
  if model.truthy ∧ ':' ∈ (rt.str model).toList then
    reject "model must not name a LoRA adapter; the session server serves the trained adapter"
  else .ok ()

/-- The adapter field of the backend request. -/
def resolveLoraPath (rt : Runtime) (args : Args) : Option String → Result Args
  | none => do
    checkLoraPath rt args none
    return args.erase "lora_path"
  | some path => do
    checkLoraPath rt args (some path)
    let args := args.set "lora_path" (.str path)
    checkModel rt args
    return args

/-- R3 offsets are computed by the session server; eval never requests replay outputs. -/
def refuseStartLen (rt : Runtime) (args : Args) (evaluation : Bool) : Result Args :=
  if evaluation then .ok (args.erase "routed_experts_start_len")
  else refuse rt args "routed_experts_start_len" "R3 offsets are computed by the session server"

def checkTemplateKwargs (args : Args) : Result Unit :=
  match value? args "chat_template_kwargs" with
  | some (.obj fields) =>
    if "tools" ∈ fields.map Prod.fst then
      reject "tools belongs at the top level of the request, not in chat_template_kwargs"
    else .ok ()
  | some _ => reject "chat_template_kwargs must be an object"
  | none => .ok ()

/-- Apply server constraints and return the same request and the client's response intent. -/
def resolveRequestArgsByConfig (rt : Runtime) (args : Args) (config : SessionServerConfig)
    (evaluation : Bool) : Result (Args × ClientResponseIntent) := do
  -- the client's own value decides whether its reply carries logprobs
  let clientLogprobs := truthyAt args "logprobs"
  let args := (args.set "logprobs" (.bool true)).set "return_meta_info" (.bool true)
  let args := args.set "no_stop_trim" (.bool false)
  let args := args.set "return_routed_experts" (.bool (!evaluation && config.useRolloutRoutingReplay))
  let args := args.set "return_indexer_topk" (.bool (!evaluation && config.useRolloutIndexerReplay))
  let args ← resolveLoraPath rt args
    (if loraRolloutEnabled config then some loraAdapterName else none)
  let args ← refuse rt args "input_ids" "TITO token ids are rendered by the session server"
  let args ← refuseStartLen rt args evaluation
  let args ← refuse rt args "logprob_start_len" "not supported on the session chat path"
  let clientStream := truthyAt args "stream"
  let args := (args.erase "stream").erase "stream_options"
  checkTemplateKwargs args
  return (args, ⟨clientStream, clientLogprobs⟩)

/-- The values of a session for the sampling fields that a request omits. -/
structure SamplingDefaults where
  temperature : Option Float64 := none
  topP : Option Float64 := none
  topK : Option Int := none

/-- `model_dump(exclude_none=True)` -/
def SamplingDefaults.items (defaults : SamplingDefaults) : List (String × PyJson) :=
  (defaults.temperature.map fun x => ("temperature", .float x)).toList ++
    (defaults.topP.map fun x => ("top_p", .float x)).toList ++
    (defaults.topK.map fun n => ("top_k", .int n)).toList

/-- Fill one sampling field; an explicit value is kept, except that a training temperature must be
    the session's. -/
def fillDefault (rt : Runtime) (args : Args) (key : String) (value : PyJson) (evaluation : Bool) :
    Result Args :=
  match value? args key with
  | none => .ok (args.set key value)
  | some v =>
    if !evaluation && key = "temperature" && !v.pyEq value then
      reject <| s!"temperature={rt.repr v} does not match the training session " ++
        s!"temperature={rt.repr value}"
    else .ok args

/-- Fill the sampling fields the client left unset; `None` counts as unset. -/
def applySessionSamplingDefaults (rt : Runtime) (args : Args) (defaults : SamplingDefaults)
    (evaluation : Bool) : Result Args :=
  defaults.items.foldlM (fun args item => fillDefault rt args item.1 item.2 evaluation) args

/-! ## Sampling checks -/

/-- `float(v)` -/
def toFloat (rt : Runtime) (v : PyJson) : Result Float64 := v.toFloat rt.toPyRuntime

/-- `int(v)` -/
def toInt (rt : Runtime) (v : PyJson) : Result Int :=
  match v with
  | .int n => .ok n
  | .bool b => .ok b.toInt
  | .float x =>
    match x.value with
    | .fin q => .ok (if 0 ≤ q then ⌊q⌋ else ⌈q⌉)
    | .inf _ => .error (.builtin .overflow)
    | .nan => .error (.builtin .value)
  | .str s =>
    match rt.intOfStr s with
    | some n => .ok n
    | none => .error (.builtin .value)
  | _ => .error (.builtin .type)

/-- `requests_support_logprobs` -/
def requestsSupportLogprobs (config : SessionServerConfig) : Bool :=
  config.rolloutTopLogprobsNum ≠ 0 && config.rolloutSamplingLogprobsMode = "support"

/-- `any(tool.get("function", {}).get("strict") for tool in tools)` -/
def anyStrict : List PyJson → Result Bool
  | [] => .ok false
  | tool :: tools => do
    let function ← tool.get "function"
    let strict ← (function.getD (.obj [])).get "strict"
    if strict.any PyJson.truthy then return true else anyStrict tools

/-- `response_format` is absent or asks for text. -/
def freeFormat (v : Option PyJson) : Bool :=
  match v with
  | some (.obj fields) =>
    fields.isEmpty || ((fields.lookup "type").getD (.str "text")).isText "text"
  | some v => !v.truthy
  | none => true

/-- Require per-call sampling whose distribution the recorded candidates describe. -/
def validateRolloutTopkLogprobsSampling (sampling : Args) (temperature : Float64)
    (candidateCount : Int) : Result Unit := do
  if !(sampling.getD "temperature" (.float temperature)).pyEq (.float temperature) ||
      !temperature.isFinite || temperature.value.le (.fin 0) then
    raiseValue <| "Rollout top-k logprobs collection requires the same positive rollout " ++
      "temperature on every generation call"
  match (sampling.getD "top_k" (.int (-1))).number? with
  | none => .error (.builtin .type)
  | some topK =>
    if PyNum.lt (.fin candidateCount) topK then
      raiseValue <| "Rollout top-k logprobs collection requires top_k <= " ++
        "--rollout-top-logprobs-num to hold the whole support"
  if !(sampling.getD "min_p" (.float 0)).pyEq (.float 0) then
    raiseValue "Rollout top-k logprobs collection requires min_p=0.0"
  ["json_schema", "regex", "ebnf", "structural_tag", "custom_logit_processor", "logit_bias"].forM
    fun key =>
      if truthyAt sampling key then
        raiseValue <| "Rollout top-k logprobs collection does not support constrained/custom " ++
          s!"sampling ({key})"
      else .ok ()
  if !freeFormat (sampling.get? "response_format") then
    raiseValue "Rollout top-k logprobs collection does not support constrained response_format"
  let toolChoice := sampling.getD "tool_choice" (.str "auto")
  if !(toolChoice.isNull || toolChoice.isText "auto" || toolChoice.isText "none") then
    raiseValue "Rollout top-k logprobs collection does not support constrained tool_choice"
  if !toolChoice.isText "none" then
    let tools := orNone sampling "tools"
    if ← anyStrict (← if tools.isNull then .ok [] else tools.iter) then
      raiseValue "Rollout top-k logprobs collection does not support strict tool schemas"

/-- `configure_rollout_topk_logprobs_request` with `openai=True`: request candidate
    probabilities, validating the actual per-call settings. -/
def configureRolloutTopkLogprobsRequest (config : SessionServerConfig) (request : Args) :
    Result Args :=
  if config.rolloutTopLogprobsNum = 0 then .ok request
  else do
    -- explicit defaults avoid model generation_config changing the distribution
    let request := [("temperature", .float config.rolloutTemperature), ("top_p", .float 0x3ff0000000000000),
      ("top_k", .int (-1)), ("min_p", .float 0)].foldl
      (fun request (item : String × PyJson) =>
        if (value? request item.1).isNone then request.set item.1 item.2 else request) request
    validateRolloutTopkLogprobsSampling request config.rolloutTemperature
      config.rolloutTopLogprobsNum
    if requestsSupportLogprobs config then
      return (request.eraseAll ["top_logprobs", "top_logprobs_num",
        "return_flat_raw_output_top_logprobs", "return_flat_raw_top_logprobs_b64"]).set
          "sampling_logprobs_mode" (.str "support")
    else
      let request := (request.erase "sampling_logprobs_mode").set "top_logprobs"
        (.int config.rolloutTopLogprobsNum)
      return (request.set "return_flat_raw_output_top_logprobs" (.bool true)).set
        "return_flat_raw_top_logprobs_b64" (.bool true)

/-- The values a field may have with sampling-support replay; `None` is always allowed. -/
def supportedValues : List (String × List PyJson) :=
  [("frequency_penalty", [.int 0]), ("presence_penalty", [.int 0]),
    ("repetition_penalty", [.int 1]), ("logit_bias", [.obj []]), ("custom_logit_processor", [])]

/-- Validate one resolved training request against its sampling replay contract. -/
def validateSamplingSupportRequest (rt : Runtime) (params : Args) (replayEnabled : Bool)
    (expectedTemperature : Option Float64) : Result Bool := do
  let topP ← toFloat rt ((value? params "top_p").getD (.float 0x3ff0000000000000))
  if !(PyNum.lt (.fin 0) topP.value && topP.value.le (.fin 1)) then
    raiseValue s!"training request top_p must be in (0, 1], got {rt.repr (.float topP)}"
  if !replayEnabled then
    let topK ←
      match value? params "top_k" with
      | none => .ok (-1)
      | some v => toInt rt v
    if topP.value.lt (.fin 1) || 0 < topK then
      raiseValue "bounded training-request sampling requires bounded rollout sampling"
    return false
  let missing := ["top_p", "top_k", "temperature"].filter fun key => (value? params key).isNone
  if missing ≠ [] then
    raiseValue <| "sampling-support replay requires explicit request parameters: " ++
      ", ".intercalate missing
  let topK ← toInt rt (params.getD "top_k" .null)
  if topK ≤ 0 then raiseValue s!"training request top_k must be positive, got {topK}"
  let temperature ← toFloat rt (params.getD "temperature" .null)
  match expectedTemperature with
  | none => raiseValue "sampling-support replay requires a registered training temperature"
  | some expected =>
    if !temperature.value.eq expected.value then
      raiseValue <| s!"request temperature {rt.repr (.float temperature)} does not match the " ++
        s!"training temperature {rt.repr (.float expected)}"
  supportedValues.forM fun (item : String × List PyJson) =>
    match value? params item.1 with
    | none => .ok ()
    | some v =>
      if item.2.any v.pyEq then .ok ()
      else raiseValue <| s!"{item.1} is not supported with sampling-support replay because " ++
        "the trainer cannot reproduce its logit transformation"
  return true

/-! ## The prepared request -/

/-- Outbound body before adding `input_ids`, template args to render them, and what the client
    asked the response to carry. -/
structure PreparedChatRequest where
  body : Args
  templateArgs : Args
  responseIntent : ClientResponseIntent

/-- `OUTPUT_STORE_REQUEST_KEY` -/
def outputStoreRequestKey : String := "return_outputs_via_store"

/-- `[field.request_key for field in FIELDS]` -/
def storeRequestKeys : List String :=
  ["return_routed_experts", "return_indexer_topk", "return_sampling_mask"]

/-- The fields that the rollout args own, after the model rules. -/
def resolveReplayOutputs (rt : Runtime) (config : SessionServerConfig) (args : Args)
    (evaluation : Bool) (defaults : SamplingDefaults) (samplingSupportReplay : Bool) :
    Result Args := do
  let args := args.erase "sampling_logprobs_mode"
  if evaluation then
    -- model rules must not re-enable training replay outputs for evaluation
    let args := args.set "return_sampling_mask" (.bool false)
    let args := args.set "return_routed_experts" (.bool false)
    let args := args.set "return_indexer_topk" (.bool false)
    return args.erase "routed_experts_start_len"
  else
    let args ← (configureRolloutTopkLogprobsRequest config args).mapError rt.asMessageValidation
    let returnSamplingMask ← (validateSamplingSupportRequest rt args samplingSupportReplay
      defaults.temperature).mapError rt.asMessageValidation
    return if returnSamplingMask then args.set "return_sampling_mask" (.bool true)
      else args.erase "return_sampling_mask"

/-- What of a request does not depend on the turn it continues. -/
structure ChatRequest where
  clientArgs : Args
  evaluation : Bool := false
  samplingDefaults : SamplingDefaults := {}
  samplingSupportReplay : Bool := false

/-- Resolve an owned request using server rules, session defaults, model rules, and prior turn
    args. -/
def prepareChatRequest (rt : Runtime) (tok : TITOTokenizer) (config : SessionServerConfig)
    (request : ChatRequest) (turn : Option Args) : Result PreparedChatRequest := do
  let (args, responseIntent) ←
    resolveRequestArgsByConfig rt request.clientArgs config request.evaluation
  let args ← applySessionSamplingDefaults rt args request.samplingDefaults request.evaluation
  let args ← (tok.resolveRequestArgs rt args turn).mapError rt.asMessageValidation
  let args ← resolveReplayOutputs rt config args request.evaluation request.samplingDefaults
    request.samplingSupportReplay
  -- the launch flag owns the output store: a client's value is replaced
  let args := args.erase outputStoreRequestKey
  let args :=
    if config.outputStoreBackendConfig.isSome && !request.evaluation &&
        storeRequestKeys.any (truthyAt args) then
      args.set outputStoreRequestKey (.bool true)
    else args
  return ⟨args, ← extractTemplateArgs args, responseIntent⟩

/-- What the session records of a turn: the resolved request with the rendered prompt, and the
    offset from which the additional routed experts are asked for. The `extra_key` that a v2 session
    with one adds is left out. -/
def recordedTurn (body : Args) (inputIds : List Nat) (startLen : Option Nat) : Args :=
  let body := body.set "input_ids" (.arr (inputIds.map fun id => .int id))
  match startLen with
  | some rows => body.set "routed_experts_start_len" (.int rows)
  | none => body

end Miles.RequestArgs
