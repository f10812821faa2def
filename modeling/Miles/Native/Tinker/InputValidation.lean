import Miles.ForStd.PyJson
import Miles.Native.Tinker.Scheduler

/-!
# Validation of Tinker commands

Model of the content checks in `miles/tinker/core/input_validation.py`, on the JSON values that
a decoded command carries.  A check raises `UserInputError`, or whatever the operation it uses
raises on a value of the wrong shape.
-/

namespace Miles.Tinker

/-- Rejected request content. -/
structure UserInputError where
  text : String
  deriving DecidableEq

/-- A computation on request content. -/
abbrev Checked (α : Type) := Except (PyError UserInputError) α

/-- `raise UserInputError(text)` -/
def reject {α : Type} (text : String) : Checked α := .error (.raised ⟨text⟩)

/-! ## Loss functions -/

/-- `LOSS_INPUT_KEYS`: the key of an input on the wire, and in a decoded datum. -/
def lossInputKeys : List (String × String) :=
  [("weights", "weights"), ("advantages", "advantages"), ("logprobs", "sampling_logprobs")]

/-- `LOSS_FN_INPUTS`: what each loss function reads. -/
def lossFnInputs : List (String × List String) :=
  [("cross_entropy", ["weights"]),
    ("importance_sampling", ["logprobs", "advantages"]),
    ("ppo", ["logprobs", "advantages"]),
    ("cispo", ["logprobs", "advantages"]),
    ("dro", ["logprobs", "advantages"])]

/-- The numbers in the configuration of a loss function. -/
def lossConfigKeys : List (String × List String) :=
  [("ppo", ["clip_low_threshold", "clip_high_threshold"]),
    ("cispo", ["clip_low_threshold", "clip_high_threshold"]),
    ("dro", ["beta"])]

/-! ## Decoded commands -/

/-- A decoded datum: `tokens` is the model input with the last target. -/
structure WireDatum where
  tokens : List PyJson
  targetLen : Nat
  targetTokens : List PyJson
  /-- by the key of the decoded datum -/
  lossInputs : List (String × List Float64)

/-- What a decoded batch command carries besides its envelope. -/
structure BatchContent where
  datums : List WireDatum
  lossFn : PyJson
  lossFnConfig : PyJson

/-- The bounds of a gateway that content is checked against. -/
structure GatewayLimits where
  vocabSize : Nat
  maxDatumsPerRequest : Nat := 1024
  maxTokensPerDatum : Nat := 32768
  maxTokensPerRequest : Nat := 4000000

/-! ## Checks -/

/-- `type(token) is int and 0 <= token < vocab_size` -/
def isTokenId (vocabSize : Nat) : PyJson → Bool
  | .int n => 0 ≤ n ∧ n < vocabSize
  | _ => false

def validateTokenIds (tokens : List PyJson) (vocabSize : Nat) (field : String) : Checked Unit :=
  if tokens.all (isTokenId vocabSize) then .ok ()
  else reject s!"{field} must contain integer token IDs in [0, {vocabSize})"

/-- `LOSS_FN_INPUTS.get(loss_fn)`; a list or an object has no hash. -/
def lossFnInputsOf : PyJson → Checked (Option (List String))
  | .arr _ | .obj _ => .error (.builtin .type)
  | .str name => .ok (lossFnInputs.lookup name)
  | _ => .ok none

/-- `type(value) in (int, float) and math.isfinite(value)` -/
def isFiniteNumber : PyJson → Checked Bool
  -- `isfinite` converts an integer to a double first
  | .int n => if PyJson.FitsFloat n then .ok true else .error (.builtin .overflow)
  | .float x => .ok x.isFinite
  | _ => .ok false

/-- The check of one number of `loss_fn_config`. -/
def validateConfigKey (py : PyRuntime) (config : List (String × PyJson)) (key : String) :
    Checked Unit :=
  match config.lookup key with
  | none => .ok ()
  | some value => do
    if ← isFiniteNumber value then .ok ()
    else reject s!"loss_fn_config[{py.repr (.str key)}] must be a finite number"

def validateLossFnConfig (py : PyRuntime) (lossFn : PyJson) : PyJson → Checked Unit
  | .null => .ok ()
  | .obj config =>
    let keys := match lossFn with
      | .str name => (lossConfigKeys.lookup name).getD []
      | _ => []
    keys.forM (validateConfigKey py config)
  | _ => reject "loss_fn_config must be an object"

/-- The check of one input that the loss function reads. -/
def validateRequiredInput (py : PyRuntime) (lossFn : PyJson) (index : Nat) (datum : WireDatum)
    (wireKey : String) : Checked Unit :=
  match (lossInputKeys.lookup wireKey).bind (datum.lossInputs.lookup ·) with
  | none =>
    reject s!"datum {index}: loss_fn {py.repr lossFn} needs loss_fn_inputs[{py.repr (.str wireKey)}]"
  | some values =>
    if values.length = datum.targetLen then .ok ()
    else
      let key := py.repr (.str wireKey)
      reject (s!"datum {index}: loss_fn_inputs[{key}] has {values.length} values " ++
        s!"for {datum.targetLen} target tokens")

/-- The loss inputs of a datum that the loss function does not read. -/
def unreadInputs (required : List String) (datum : WireDatum) : List String :=
  (lossInputKeys.filter fun x =>
    x.1 ∉ required ∧ (datum.lossInputs.lookup x.2).isSome).map (·.1)

/-- The check of one datum, with the number of its tokens. -/
def validateDatum (py : PyRuntime) (limits : GatewayLimits) (lossFn : PyJson)
    (required : List String) (index : Nat) (datum : WireDatum) : Checked Nat := do
  validateTokenIds datum.tokens limits.vocabSize s!"datum {index}: model_input"
  validateTokenIds datum.targetTokens limits.vocabSize s!"datum {index}: target_tokens"
  if limits.maxTokensPerDatum < datum.tokens.length then
    reject s!"datum {index}: {datum.tokens.length} tokens exceeds {limits.maxTokensPerDatum}"
  else
    required.forM (validateRequiredInput py lossFn index datum)
    let unread := unreadInputs required datum
    if unread = [] then return datum.tokens.length
    else
      let shown := py.repr (.arr (unread.map .str))
      reject s!"datum {index}: loss_fn {py.repr lossFn} does not read loss_fn_inputs {shown}"

/-- `validate_batch_payload` for a batch op; other ops are not checked. -/
def validateBatchPayload (py : PyRuntime) (limits : GatewayLimits) (content : BatchContent) :
    Checked Unit := do
  if content.datums = [] then reject "forward_backward with no data"
  else if limits.maxDatumsPerRequest < content.datums.length then
    reject (s!"{content.datums.length} datums exceeds " ++
      s!"max_datums_per_request={limits.maxDatumsPerRequest}")
  else
    match ← lossFnInputsOf content.lossFn with
    | none =>
      let known := py.repr (.arr ((lossFnInputs.map (·.1)).mergeSort.map .str))
      reject s!"unknown loss_fn {py.repr content.lossFn}; known: {known}"
    | some required =>
      validateLossFnConfig py content.lossFn content.lossFnConfig
      let lengths ← content.datums.zipIdx.mapM fun x =>
        validateDatum py limits content.lossFn required x.2 x.1
      if limits.maxTokensPerRequest < lengths.sum then
        reject s!"{lengths.sum} tokens exceeds max_tokens_per_request={limits.maxTokensPerRequest}"
      else .ok ()

end Miles.Tinker
