import Miles.Native.Tinker.InputValidation

/-!
# Decoding of Tinker commands

Model of `decode_command` and the functions below it in `miles/tinker/server/encoding.py`.  The
envelope of a command is read first; what is wrong with the rest becomes a `validation_error`, so
that the command can take its place in the sequence of its model.

The request models of the client library, and the parser of age recipients, are parameters.
-/

namespace Miles.Tinker.Encoding

/-! ## Requests that travel as JSON -/

/-- The keys of `REQUEST_TYPES`. -/
inductive RequestType where
  | optimStep
  | saveState
  | loadState
  | saveWeightsForSampler
  | saveWeightsExternal
  deriving DecidableEq

/-- The ops that `decode_command` is called with. -/
inductive WireOp where
  | forwardBackward
  | request (type : RequestType)
  deriving DecidableEq

def RequestType.op : RequestType → CommandOp
  | optimStep => .optimStep
  | saveState => .saveState
  | loadState => .loadState
  | saveWeightsForSampler => .saveWeightsForSampler
  | saveWeightsExternal => .saveWeightsExternal

/-- The first error of a request model: where it is, and what is wrong there. -/
structure ValidationError where
  loc : List (String ⊕ Nat)
  msg : String

/-- Optimizer parameters: `AdamParams`, or those of another optimizer. -/
structure OptimParams where
  isAdamParams : Bool
  /-- `model_dump()`, with every default filled in -/
  dump : PyJson

structure OptimStepRequest where
  optimParams : OptimParams

/-- `SaveWeightsRequest` -/
structure SaveWeightsRequest where
  path : PyJson
  overwrite : PyJson
  ttlSeconds : PyJson
  userMetadata : PyJson

structure LoadWeightsRequest where
  path : PyJson
  optimizer : PyJson
  weightsAccessToken : PyJson
  optimizerConfig : PyJson

structure SaveWeightsForSamplerRequest where
  path : PyJson
  ttlSeconds : PyJson
  userMetadata : PyJson

structure SaveWeightsExternalRequest where
  path : PyJson
  ttlSeconds : PyJson
  ageEncryptionRecipients : Option (List String)

/-- The code outside the gateway that decoding calls: `model_validate` of each request model, and
    the recipient parsers of `pyrage` if that is installed. -/
structure Libraries where
  optimStep : PyJson → Except ValidationError OptimStepRequest
  saveState : PyJson → Except ValidationError SaveWeightsRequest
  loadState : PyJson → Except ValidationError LoadWeightsRequest
  saveWeightsForSampler : PyJson → Except ValidationError SaveWeightsForSamplerRequest
  saveWeightsExternal : PyJson → Except ValidationError SaveWeightsExternalRequest
  /-- the parsers of `ssh` and of `x25519` recipients, with the text of their error -/
  pyrage : Option ((String → Except String Unit) × (String → Except String Unit))

variable (py : PyRuntime) (lib : Libraries)

/-- `validate_against_sdk`: the request models are the wire contract. -/
def validateAgainstSdk {α : Type} (modelValidate : PyJson → Except ValidationError α)
    (payload : PyJson) : Checked α :=
  match modelValidate payload with
  | .ok request => .ok request
  | .error first =>
    let location := ".".intercalate (first.loc.map fun part => part.elim id toString)
    let named := if location = "" then "request" else location
    reject s!"{named}: {first.msg}"

def validatePlainAdam (field : String) (value : OptimParams) : Checked Unit :=
  if value.isAdamParams then .ok ()
  else reject (s!"{field} {py.str value.dump} is not supported: " ++
    "this gateway serves only plain Adam (AdamParams)")

def minTtl : Int := 3600
def maxTtl : Int := 10 * 365 * 24 * 3600

def validTtl : PyJson → Bool
  | .null => true
  | .int n => minTtl ≤ n ∧ n ≤ maxTtl
  | _ => false

def validateTtlSeconds (ttlSeconds : PyJson) : Checked Unit :=
  if validTtl ttlSeconds then .ok ()
  else reject (s!"ttl_seconds must be an integer between {minTtl} and {maxTtl}, " ++
    s!"got {py.repr ttlSeconds}")

def validateSaveOptions (ttlSeconds userMetadata : PyJson) : Checked Unit := do
  validateTtlSeconds py ttlSeconds
  if userMetadata.isNull then .ok ()
  else reject "user_metadata is not supported by this gateway"

/-- `MAX_AGE_RECIPIENTS` -/
def maxAgeRecipients : Nat := 10

def validateAgeRecipient (parsers : (String → Except String Unit) × (String → Except String Unit))
    (recipient : String) : Checked Unit :=
  match (if recipient.startsWith "ssh-" then parsers.1 else parsers.2) recipient with
  | .ok _ => .ok ()
  | .error error =>
    reject (s!"{py.repr (.str recipient)} is not an age recipient (age1... or ssh-...): {error}")

def validateAgeRecipients (recipients : List String) : Checked Unit :=
  if maxAgeRecipients < recipients.length then
    reject s!"at most {maxAgeRecipients} age recipients, got {recipients.length}"
  else if recipients = [] then .ok ()
  else
    -- only encrypted saves import it
    match lib.pyrage with
    | none => .error (.builtin .importing)
    | some parsers => recipients.forM (validateAgeRecipient py parsers)

/-! ## Data of a batch -/

/-- One chunk of `model_input_tokens`. -/
def chunkTokens (chunk : PyJson) : Checked (List PyJson) := do
  match ← chunk.get "type" with
  | some (.str "encoded_text") => (← chunk.getItem "tokens").iter
  | type => reject s!"unsupported model_input chunk type: {py.str (type.getD .null)}"

def modelInputTokens (modelInput : PyJson) : Checked (List PyJson) := do
  let chunks ← (← modelInput.getItem "chunks").iter
  return (← chunks.mapM (chunkTokens py)).flatten

/-- The assignments `dense[col] = value`. -/
def fillColumns : List PyJson → List (PyJson × PyJson) → Checked (List PyJson)
  | dense, [] => .ok dense
  | dense, (col, value) :: rest => do fillColumns (← PyJson.setItem dense col value) rest

/-- `_dense_from_csr` -/
def denseFromCsr (tensorData : PyJson) : Checked (List PyJson) := do
  let length ← (← tensorData.getItem "shape").unpackOne
  if (← (← tensorData.getItem "sparse_crow_indices").len) ≠ 2 then reject "1-D CSR expected"
  else
    let dense ← PyJson.repeated py (.int 0) length
    let cols ← tensorData.getItem "sparse_col_indices"
    let data ← tensorData.getItem "data"
    let cols ← cols.iter
    let data ← data.iter
    let dense ← fillColumns dense (cols.zip data)
    -- `zip(strict=True)` compares the lengths at the end
    if cols.length = data.length then return dense else .error (.builtin .value)

/-- `len(tensor_data.get("shape") or [])` -/
def shapeLength (tensorData : PyJson) : Checked Nat := do
  match ← tensorData.get "shape" with
  | some shape => if shape.truthy then shape.len else return 0
  | none => return 0

def tensorDataToList (tensorData : PyJson) : Checked (List PyJson) :=
  match tensorData with
  | .arr items => .ok items
  | .obj _ => do
    if 1 < (← shapeLength tensorData) then
      reject "multi-target inputs are not supported; loss_fn_inputs must be 1-D"
    else
      match ← tensorData.get "sparse_crow_indices" with
      | none | some .null =>
        match ← tensorData.get "data" with
        | none | some .null => reject "TensorData without data"
        | some data => data.iter
      | some _ => denseFromCsr py tensorData
  | _ => reject s!"expected TensorData, got {tensorData.typeName}"

/-- `_decode_inputs` -/
def decodeInputs (lossFnInputs : PyJson) : Checked (List (String × List PyJson)) := do
  (← lossFnInputs.items).mapM fun x => do return (x.1, ← tensorDataToList py x.2)

/-- The check that an input is one-dimensional. -/
def checkOneDim (index : Nat) (input : String × List PyJson) : Checked Unit :=
  if input.2.any (·.isArr) then
    reject (s!"datum {index}: loss_fn_inputs[{py.repr (.str input.1)}] must be 1-D; " ++
      "multi-target inputs are not supported")
  else .ok ()

/-- The loss inputs that `build_datum` converts, with their keys in the datum. -/
def presentInputs (inputs : List (String × List PyJson)) : List (String × List PyJson) :=
  lossInputKeys.filterMap fun x => (inputs.lookup x.1).map (x.2, ·)

def unknownInputs (inputs : List (String × List PyJson)) : List String :=
  (inputs.map (·.1)).filter fun name =>
    (lossInputKeys.lookup name).isNone ∧ name ≠ "target_tokens"

/-- `build_datum` -/
def buildDatum (inputTokens : List PyJson) (inputs : List (String × List PyJson))
    (index : Nat) : Checked WireDatum := do
  if unknownInputs inputs ≠ [] then
    let unknown := py.repr (.arr ((unknownInputs inputs).mergeSort.map .str))
    reject s!"datum {index}: unknown loss_fn_inputs {unknown}"
  else
    inputs.forM (checkOneDim py index)
    match inputs.lookup "target_tokens" with
    | none => .error (.builtin (.key "target_tokens"))
    | some targets =>
      if targets.length ≠ inputTokens.length then
        reject (s!"datum {index}: target_tokens length {targets.length} != " ++
          s!"model_input length {inputTokens.length}")
      else
        let lossInputs ← (presentInputs inputs).mapM fun x => do
          return (x.1, ← x.2.mapM (PyJson.toFloat py))
        return {
          tokens := inputTokens ++ targets.getLast?.toList
          targetLen := targets.length
          targetTokens := targets
          lossInputs }

/-! ## Commands -/

/-- What a decoded command carries besides its envelope. -/
inductive Content where
  | batch (content : BatchContent)
  | optimStep (adamParams : PyJson)
  | saveState (name overwrite ttlSeconds : PyJson)
  | loadState (path optimizer weightsAccessToken : PyJson)
  | saveWeightsForSampler (samplerPath ttlSeconds : PyJson)
  | saveWeightsExternal (name ttlSeconds : PyJson) (ageEncryptionRecipients : List String)

/-- A decoded payload: the envelope with the content, or with the `validation_error`. -/
structure Decoded where
  modelId : PyJson
  seqId : PyJson
  body : Except String Content

/-- One element of the data: its tokens, and its loss inputs. -/
def decodeElement (datum : PyJson) : Checked (List PyJson × List (String × List PyJson)) := do
  let tokens ← modelInputTokens py (← datum.getItem "model_input")
  let inputs ← decodeInputs py (← datum.getItem "loss_fn_inputs")
  return (tokens, inputs)

/-- The content of a `forward_backward` request. -/
def decodeBatch (payload : PyJson) : Checked BatchContent := do
  let fbInput ← payload.getItem "forward_backward_input"
  let elements ← (← (← fbInput.getItem "data").iter).mapM (decodeElement py)
  -- no datum is built before all elements are read
  let datums ← elements.zipIdx.mapM fun x => buildDatum py x.1.1 x.1.2 x.2
  let lossFn ← fbInput.getItem "loss_fn"
  let config := (← fbInput.get "loss_fn_config").getD .null
  return { datums, lossFn, lossFnConfig := if config.truthy then config else .obj [] }

/-- The content of a request that its request model describes. -/
def decodeRequest (type : RequestType) (payload : PyJson) : Checked Content :=
  match type with
  | .optimStep => do
    let request ← validateAgainstSdk lib.optimStep payload
    validatePlainAdam py "optim_params" request.optimParams
    return .optimStep request.optimParams.dump
  | .saveState => do
    let request ← validateAgainstSdk lib.saveState payload
    validateSaveOptions py request.ttlSeconds request.userMetadata
    return .saveState request.path request.overwrite request.ttlSeconds
  | .loadState => do
    let request ← validateAgainstSdk lib.loadState payload
    if request.optimizerConfig.isNull then
      return .loadState request.path request.optimizer request.weightsAccessToken
    else reject ("optimizer_config is not supported: " ++
      "this gateway does not create models via load_weights")
  | .saveWeightsForSampler => do
    let request ← validateAgainstSdk lib.saveWeightsForSampler payload
    validateSaveOptions py request.ttlSeconds request.userMetadata
    return .saveWeightsForSampler request.path request.ttlSeconds
  | .saveWeightsExternal => do
    let request ← validateAgainstSdk lib.saveWeightsExternal payload
    validateTtlSeconds py request.ttlSeconds
    let recipients := request.ageEncryptionRecipients.getD []
    validateAgeRecipients py lib recipients
    return .saveWeightsExternal request.path request.ttlSeconds recipients

/-- `_decode_command`, without the envelope. -/
def decodeContent (op : WireOp) (payload : PyJson) : Checked Content :=
  match op with
  | .forwardBackward => return .batch (← decodeBatch py payload)
  | .request type => decodeRequest py lib type payload

/-- The exceptions that `decode_command` turns into a `validation_error`. -/
def isContentError : PyError UserInputError → Bool
  | .raised _ => true
  | .builtin (.key _) | .builtin .type | .builtin .value | .builtin .index => true
  | .builtin _ => false

/-- `str(error)` -/
def errorText : PyError UserInputError → String
  | .raised e => e.text
  | .builtin (.key key) => py.repr (.str key)
  | .builtin e => py.message e

/-- The op of the command: a batch may ask for the forward pass only. -/
def commandOp (op : WireOp) (payload : List (String × PyJson)) : CommandOp :=
  match op with
  | .forwardBackward =>
    if ((payload.lookup "forward_only").getD .null).truthy then .forwardOnly else .forwardBackward
  | .request type => type.op

/-- `decode_command`: content errors become failures that keep their place. -/
def decodeCommand (op : WireOp) (payload : List (String × PyJson)) :
    Checked (CommandOp × Decoded) :=
  match payload.lookup "model_id", payload.lookup "seq_id" with
  | some modelId, some seqId =>
    match decodeContent py lib op (.obj payload) with
    | .ok content => .ok (commandOp op payload, ⟨modelId, seqId, .ok content⟩)
    | .error e =>
      if isContentError e then
        .ok (commandOp op payload, ⟨modelId, seqId, .error (errorText py e)⟩)
      else .error e
  | none, _ => reject ("missing command envelope field " ++ py.repr (.str "model_id"))
  | some _, none => reject ("missing command envelope field " ++ py.repr (.str "seq_id"))

end Miles.Tinker.Encoding
