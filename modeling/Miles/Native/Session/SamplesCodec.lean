import Miles.ForStd.PyDict
import Miles.ForStd.PyJson
import Miles.Native.Rollout.SampleArrays

/-!
# The wire codec of assembled samples

Model of `miles/rollout/session/samples/codec.py`: `encode_samples` splits the computed fields of
each sample between a JSON header and a table of tensors, and
`decode_samples_and_merge_input_sample` overlays them onto copies of the driver's input sample.

The tensor container is the dictionary it holds, and JSON text a pair of functions.  JSON fields
are the JSON values that Python has for them, of whatever type.  Nested lists of numbers have a
shape, like the arrays made of them; an array over the wire's integer dtypes holds integers,
and the conversion to one checks that they fit.  A store plan counts rows in natural numbers, and
one that does not is refused when it is read.
-/

namespace Miles.Session.SamplesCodec

open Miles.Rollout

/-! ## Arrays -/

/-- The integer dtypes of the wire. -/
inductive IntKind where
  | int64 | int32 | uint8
  deriving DecidableEq, Repr

/-- A dtype: of the wire, or another one by its name. -/
inductive DType where
  | int (kind : IntKind)
  | float64
  | float32
  | other (name : String)
  deriving DecidableEq, Repr

/-- A Python list of numbers, nested as deep as its shape says. -/
structure Nested (α : Type) where
  shape : List Nat
  elems : List α
  deriving DecidableEq, Repr

/-- A flat list. -/
def Nested.ofList {α : Type} (xs : List α) : Nested α := ⟨[xs.length], xs⟩

/-- `np.ndarray` -/
inductive NdArray where
  | ints (kind : IntKind) (xs : Nested Int)
  | float64 (xs : Nested Float64)
  | float32 (xs : Nested Float32Bits)
  | other (name : String) (shape : List Nat)
  deriving DecidableEq, Repr

namespace NdArray

def dtype : NdArray → DType
  | .ints kind _ => .int kind
  | .float64 _ => .float64
  | .float32 _ => .float32
  | .other name _ => .other name

def ndim : NdArray → Nat
  | .ints _ xs => xs.shape.length
  | .float64 xs => xs.shape.length
  | .float32 xs => xs.shape.length
  | .other _ shape => shape.length

end NdArray

/-- The integers of a dtype. -/
def IntKind.Fits : IntKind → Int → Prop
  | .int64, n => -2 ^ 63 ≤ n ∧ n < 2 ^ 63
  | .int32, n => -2 ^ 31 ≤ n ∧ n < 2 ^ 31
  | .uint8, n => 0 ≤ n ∧ n < 2 ^ 8

instance (kind : IntKind) (n : Int) : Decidable (kind.Fits n) := by
  cases kind <;> exact inferInstanceAs (Decidable (_ ∧ _))

/-! ## Fields -/

/-- The fields of `SAMPLES_VALUE_SPEC_V2`. -/
inductive WireField where
  | tokens
  | response
  | responseLength
  | lossMask
  | rolloutLogProbs
  | rolloutTopkTokenIds
  | rolloutTopkLogProbs
  | rolloutSamplingMask
  | rolloutRoutedExperts
  | rolloutIndexerTopk
  | rolloutStorePlan
  | status
  | weightVersions
  | specInfo
  | prefixCacheInfo
  | metadata
  | reward
  deriving DecidableEq, Repr

namespace WireField

/-- The attribute's name. -/
def name : WireField → String
  | tokens => "tokens"
  | response => "response"
  | responseLength => "response_length"
  | lossMask => "loss_mask"
  | rolloutLogProbs => "rollout_log_probs"
  | rolloutTopkTokenIds => "rollout_topk_token_ids"
  | rolloutTopkLogProbs => "rollout_topk_log_probs"
  | rolloutSamplingMask => "rollout_sampling_mask"
  | rolloutRoutedExperts => "rollout_routed_experts"
  | rolloutIndexerTopk => "rollout_indexer_topk"
  | rolloutStorePlan => "rollout_store_plan"
  | status => "status"
  | weightVersions => "weight_versions"
  | specInfo => "spec_info"
  | prefixCacheInfo => "prefix_cache_info"
  | metadata => "metadata"
  | reward => "reward"

/-- `_TENSOR_FIELDS`: the fields of the tensor codecs and of the sampling mask's. -/
def isTensor : WireField → Bool
  | tokens | lossMask | rolloutLogProbs | rolloutTopkTokenIds | rolloutTopkLogProbs
  | rolloutSamplingMask | rolloutRoutedExperts | rolloutIndexerTopk => true
  | _ => false

/-- `_ROLLOUT_TOPK_LOGPROBS_FIELDS` -/
def isRolloutTopk : WireField → Bool
  | rolloutTopkTokenIds | rolloutTopkLogProbs => true
  | _ => false

/-- The integer dtype of a field's spec; the other fields have none. -/
def intKind : WireField → Option IntKind
  | tokens => some .int64
  | lossMask => some .uint8
  | rolloutTopkTokenIds | rolloutRoutedExperts | rolloutIndexerTopk => some .int32
  | _ => none

/-- The dtype of a field's spec. -/
def dtype : WireField → Option DType
  | rolloutLogProbs => some .float64
  | rolloutTopkLogProbs => some .float32
  | field => field.intKind.map .int

/-- `SAMPLES_VALUE_SPEC_V2`, in order. -/
def all : List WireField :=
  [tokens, response, responseLength, lossMask, rolloutLogProbs, rolloutTopkTokenIds,
    rolloutTopkLogProbs, rolloutSamplingMask, rolloutRoutedExperts, rolloutIndexerTopk,
    rolloutStorePlan, status, weightVersions, specInfo, prefixCacheInfo, metadata, reward]

end WireField

/-- `COMPUTED_FIELDS` -/
def computedFields : List WireField :=
  WireField.all.filter fun field => field ≠ .rolloutSamplingMask ∧ field ≠ .reward

/-- `COMPUTED_FIELDS_V2` -/
def computedFieldsV2 : List WireField :=
  WireField.all.filter fun field => field ≠ .rolloutSamplingMask

/-- The field set of a server: v1 or v2, and whether masks are on the wire. -/
def wireFields (v2 samplingMask : Bool) : List WireField :=
  (if v2 then computedFieldsV2 else computedFields) ++
    if samplingMask then [.rolloutSamplingMask] else []

/-! ## Errors -/

/-- What the codec raises itself. -/
inductive CodecError where
  /-- `{field} values do not fit wire dtype {dtype}` -/
  | doesNotFit (field : WireField)
  /-- `{field} must have dtype {spec.dtype}, got {arr.dtype}` -/
  | wrongDtype (field : WireField) (got : DType)
  /-- `_samples_meta must be a rank-one uint8 tensor` -/
  | metaTensor (got : DType) (rank : Nat)
  /-- null markers reference non-tensor fields -/
  | nonTensorNulls (nulls : List PyJson)
  /-- `metadata must be a JSON object` -/
  | metadataNotObject (typeName : String)
  /-- `{field} must use int32 ids and int64 offsets` -/
  | maskDtypes (ids offsets : DType)
  /-- sampling-mask ids and offsets must be one-dimensional -/
  | maskRank
  | samplingMask (error : MaskError)
  | storePlan (error : StoreError)
  /-- a store plan with a row that is not a natural number -/
  | planRow (row : PyJson)
  | unknownStatus (value : PyJson)
  /-- `payload carries unreferenced tensors` -/
  | unreferencedTensors (names : List String)
  /-- an assertion on a JSON value's type -/
  | notDict
  /-- the input sample carries a field that the overlay would corrupt -/
  | inputSample (name : String)

/-- What encoding and decoding may raise. -/
abbrev WireError : Type := PyError CodecError

/-! ## Values of the JSON fields -/

/-- `WeightVersionSpan` -/
structure WeightVersionSpan where
  version : PyJson
  absStart : PyJson
  absEnd : PyJson

/-- `asdict(span)` -/
def WeightVersionSpan.toDict (span : WeightVersionSpan) : PyJson :=
  .obj [("version", span.version), ("abs_start", span.absStart), ("abs_end", span.absEnd)]

/-- `WeightVersionSpan(**span)`: exactly its three keywords. -/
def WeightVersionSpan.fromDict (value : PyJson) : Except WireError WeightVersionSpan :=
  match value.field? "version", value.field? "abs_start", value.field? "abs_end", value with
  | some version, some absStart, some absEnd, .obj fields =>
    if ∀ x ∈ fields, x.1 ∈ ["version", "abs_start", "abs_end"] then
      .ok ⟨version, absStart, absEnd⟩
    else .error (.builtin .type)
  | _, _, _, _ => .error (.builtin .type)

/-- `WeightVersionsPerCall` -/
structure WeightVersionsPerCall where
  spans : List WeightVersionSpan
  prefillSpans : List WeightVersionSpan
  outputStart : PyJson
  promptTokens : PyJson

namespace WeightVersionsPerCall

/-- `to_dict` -/
def toDict (call : WeightVersionsPerCall) : PyJson :=
  .obj [("spans", .arr (call.spans.map (·.toDict))),
    ("prefill_spans", .arr (call.prefillSpans.map (·.toDict))),
    ("output_start", call.outputStart), ("prompt_tokens", call.promptTokens)]

/-- `from_dict`: a list is the legacy form, the spans alone. -/
def fromDict (value : PyJson) : Except WireError WeightVersionsPerCall :=
  match value with
  | .arr items => do
    let spans ← items.mapM WeightVersionSpan.fromDict
    return ⟨spans, [], (spans.head?.map (·.absStart)).getD .null, .null⟩
  | .obj _ => do
    let spans ← (← (← value.getItem "spans").iter).mapM WeightVersionSpan.fromDict
    let prefillSpans ← (← (← value.getItem "prefill_spans").iter).mapM WeightVersionSpan.fromDict
    let outputStart ← value.getItem "output_start"
    return ⟨spans, prefillSpans, outputStart, (value.field? "prompt_tokens").getD .null⟩
  | _ => .error (.raised .notDict)

end WeightVersionsPerCall

/-- `v == 0` -/
def isZero : PyJson → Bool
  | .int n => n = 0
  | .bool b => !b
  | .float x => x <<< 1 = 0
  | _ => false

/-- `Sample.SpecInfo` -/
structure SpecInfo where
  specNumCorrectDrafts : PyJson := .int 0
  specNumProposedDrafts : PyJson := .int 0
  specVerifyCt : PyJson := .int 0
  completionTokens : PyJson := .int 0

namespace SpecInfo

def toDict (info : SpecInfo) : PyJson :=
  .obj [("spec_num_correct_drafts", info.specNumCorrectDrafts),
    ("spec_num_proposed_drafts", info.specNumProposedDrafts),
    ("spec_verify_ct", info.specVerifyCt), ("completion_tokens", info.completionTokens)]

/-- `from_dict`, which also reads the former names of three fields. -/
def fromDict (value : PyJson) : Except WireError SpecInfo := do
  let get (key : String) : Except WireError (Option PyJson) := value.get key
  let legacyCorrect := (← get "spec_accept_token_num").getD (.int 0)
  let correct := (← get "spec_num_correct_drafts").getD legacyCorrect
  let legacyProposed := (← get "spec_draft_token_num").getD (.int 0)
  let proposed := (← get "spec_num_proposed_drafts").getD legacyProposed
  let verifyCt := (← get "spec_verify_ct").getD (.int 0)
  let legacyCompletion := (← get "completion_token_num").getD (.int 0)
  let completion := (← get "completion_tokens").getD legacyCompletion
  return ⟨correct, proposed, verifyCt, completion⟩

/-- `info.to_dict() == Sample.SpecInfo().to_dict()` -/
def IsDefault (info : SpecInfo) : Prop :=
  isZero info.specNumCorrectDrafts ∧ isZero info.specNumProposedDrafts ∧
    isZero info.specVerifyCt ∧ isZero info.completionTokens

instance (info : SpecInfo) : Decidable info.IsDefault :=
  inferInstanceAs (Decidable (_ ∧ _ ∧ _ ∧ _))

end SpecInfo

/-- `Sample.PrefixCacheInfo` -/
structure PrefixCacheInfo where
  cachedTokens : PyJson := .int 0
  totalPromptTokens : PyJson := .int 0

namespace PrefixCacheInfo

def toDict (info : PrefixCacheInfo) : PyJson :=
  .obj [("cached_tokens", info.cachedTokens), ("total_prompt_tokens", info.totalPromptTokens)]

def fromDict (value : PyJson) : Except WireError PrefixCacheInfo := do
  let get (key : String) : Except WireError (Option PyJson) := value.get key
  let cachedTokens := (← get "cached_tokens").getD (.int 0)
  let totalPromptTokens := (← get "total_prompt_tokens").getD (.int 0)
  return ⟨cachedTokens, totalPromptTokens⟩

/-- `info.to_dict() == Sample.PrefixCacheInfo().to_dict()` -/
def IsDefault (info : PrefixCacheInfo) : Prop :=
  isZero info.cachedTokens ∧ isZero info.totalPromptTokens

instance (info : PrefixCacheInfo) : Decidable info.IsDefault :=
  inferInstanceAs (Decidable (_ ∧ _))

end PrefixCacheInfo

/-- `Sample.Status` -/
abbrev Status : Type := SampleArrays.Status

/-- `status.value` -/
def statusValue : Status → String
  | .pending => "pending"
  | .completed => "completed"
  | .truncated => "truncated"
  | .aborted => "aborted"
  | .failed => "failed"

/-- `Sample.Status(value)` -/
def statusOf (value : PyJson) : Except WireError Status :=
  match value with
  | .str s =>
    match [SampleArrays.Status.pending, .completed, .truncated, .aborted, .failed].find?
        (statusValue · = s) with
    | some status => .ok status
    | none => .error (.raised (.unknownStatus value))
  | _ => .error (.raised (.unknownStatus value))

/-! ### Store plans -/

/-- A segment `[store key, start, end]` as JSON. -/
def segItemToJson (item : SegItem) : PyJson :=
  .arr [(item.key.map .str).getD .null, .int item.start, .int item.stop]

/-- The dict of a plan as JSON. -/
def planDictToJson (value : PlanDict PyJson) : PyJson :=
  .obj [("fields", .obj (value.fields.items.map fun x => (x.1, .arr (x.2.map segItemToJson)))),
    ("refs", .arr value.refs)]

/-- A row of a segment. -/
def rowFromJson (value : PyJson) : Except WireError Nat :=
  match value with
  | .int (.ofNat n) => .ok n
  | _ => .error (.raised (.planRow value))

/-- `key, start, end = item`, with a key that may name a ref. -/
def segItemFromJson (value : PyJson) : Except WireError SegItem :=
  match value.elems? with
  | some [key, start, stop] => do
    let start ← rowFromJson start
    let stop ← rowFromJson stop
    match key with
    | .null => return ⟨none, start, stop⟩
    | .str key => return ⟨some key, start, stop⟩
    | _ => throw (.raised (.storePlan .keyError))
  | some _ => .error (.builtin .value)
  | none => .error (.builtin .type)

/-- The dict of a plan read from JSON. -/
def planDictFromJson (value : PyJson) : Except WireError (PlanDict PyJson) := do
  let refs ← (← value.getItem "refs").iter
  let items ← (← value.getItem "fields").items
  let fields ← items.mapM fun (x : String × PyJson) => do
    let segs ← (← x.2.iter).mapM segItemFromJson
    return (x.1, segs)
  return ⟨PyDict.ofList fields, refs⟩

/-- `StorePlan.from_dict` of a JSON value. -/
def planFromJson (refs : RefCodec PyJson) (value : PyJson) : Except WireError StorePlan := do
  let dict ← planDictFromJson value
  (StorePlan.fromDict refs dict).mapError fun e => .raised (.storePlan e)

/-! ## Samples -/

/-- The type of a field of `Sample`. -/
def WireField.Attr : WireField → Type
  | .tokens | .lossMask => Option (Nested Int)
  | .rolloutLogProbs => Option (Nested Float64)
  | .rolloutTopkTokenIds | .rolloutTopkLogProbs | .rolloutRoutedExperts | .rolloutIndexerTopk =>
    Option NdArray
  | .rolloutSamplingMask => Option RolloutSamplingMask
  | .rolloutStorePlan => Option StorePlan
  | .response | .responseLength | .reward => PyJson
  | .status => Status
  | .weightVersions => List WeightVersionsPerCall
  | .specInfo => SpecInfo
  | .prefixCacheInfo => PrefixCacheInfo
  | .metadata => PyDict String PyJson

/-- `Sample`: the fields that may cross the wire, those that the decoder checks, and the rest. -/
structure Sample (Rest : Type) where
  attr : (field : WireField) → field.Attr
  teacherLogProbs : Option (List Float64)
  opdReverseKl : Option (List Float64)
  rest : Rest

/-- `setattr(sample, field, value)` -/
def Sample.set {Rest : Type} (s : Sample Rest) (field : WireField) (value : field.Attr) :
    Sample Rest :=
  { s with attr := Function.update s.attr field value }

/-! ## Encoding -/

/-- The dictionary of a tensor container. -/
abbrev Tensors : Type := PyDict String NdArray

/-- `f"{name}.{sample_index}"` -/
def tensorKey (name : String) (sampleIndex : Nat) : String :=
  name ++ "." ++ toString sampleIndex

/-- `_SAMPLES_META_KEY` -/
def samplesMetaKey : String := "_samples_meta"

/-- `_asarray_wire` of integers: every value survives the conversion. -/
def asarrayWire (field : WireField) (kind : IntKind) (value : Nested Int) :
    Except WireError NdArray :=
  if ∀ n ∈ value.elems, kind.Fits n then .ok (.ints kind value)
  else .error (.raised (.doesNotFit field))

/-- The check of a field that encoding and decoding never convert. -/
def checkDtype (field : WireField) (arr : NdArray) : Except WireError NdArray :=
  if some arr.dtype = field.dtype then .ok arr
  else .error (.raised (.wrongDtype field arr.dtype))

section Encode

variable {Rest : Type} (refs : RefCodec PyJson)

/-- What a JSON field leaves in the sample's header; a missing plan leaves no key. -/
def jsonValue (s : Sample Rest) : WireField → Option PyJson
  | .response => some (s.attr .response)
  | .responseLength => some (s.attr .responseLength)
  | .rolloutStorePlan => (s.attr .rolloutStorePlan).map fun plan : StorePlan =>
      planDictToJson (plan.toDict refs)
  | .status => some (.str (statusValue (s.attr .status)))
  | .weightVersions =>
    some (.arr ((s.attr .weightVersions).map fun call : WeightVersionsPerCall => call.toDict))
  | .specInfo => some (SpecInfo.toDict (s.attr .specInfo))
  | .prefixCacheInfo => some (PrefixCacheInfo.toDict (s.attr .prefixCacheInfo))
  | .metadata => some (.obj (PyDict.items (s.attr .metadata)))
  | .reward => some (s.attr .reward)
  | _ => none

/-- A tensor field that is marked null: the top-k fields are left out instead. -/
def isNull (s : Sample Rest) : WireField → Bool
  | .tokens => Option.isNone (s.attr .tokens)
  | .lossMask => Option.isNone (s.attr .lossMask)
  | .rolloutLogProbs => Option.isNone (s.attr .rolloutLogProbs)
  | .rolloutSamplingMask => Option.isNone (s.attr .rolloutSamplingMask)
  | .rolloutRoutedExperts => Option.isNone (s.attr .rolloutRoutedExperts)
  | .rolloutIndexerTopk => Option.isNone (s.attr .rolloutIndexerTopk)
  | _ => false

/-- The tensor of a field with one, under its key. -/
def fieldTensor {α : Type} (field : WireField) (sampleIndex : Nat) (value : Option α)
    (encode : α → Except WireError NdArray) : Except WireError (List (String × NdArray)) :=
  match value with
  | none => .ok []
  | some value => do
    let arr ← encode value
    return [(tensorKey field.name sampleIndex, arr)]

/-- The tensors that a field of a sample adds. -/
def fieldTensors (s : Sample Rest) (sampleIndex : Nat) (field : WireField) :
    Except WireError (List (String × NdArray)) :=
  match field with
  | .tokens =>
    fieldTensor .tokens sampleIndex (s.attr .tokens) (asarrayWire .tokens .int64)
  | .lossMask =>
    fieldTensor .lossMask sampleIndex (s.attr .lossMask) (asarrayWire .lossMask .uint8)
  | .rolloutLogProbs =>
    fieldTensor .rolloutLogProbs sampleIndex (s.attr .rolloutLogProbs) fun xs => .ok (.float64 xs)
  | .rolloutTopkTokenIds =>
    fieldTensor .rolloutTopkTokenIds sampleIndex (s.attr .rolloutTopkTokenIds)
      (checkDtype .rolloutTopkTokenIds)
  | .rolloutTopkLogProbs =>
    fieldTensor .rolloutTopkLogProbs sampleIndex (s.attr .rolloutTopkLogProbs)
      (checkDtype .rolloutTopkLogProbs)
  | .rolloutRoutedExperts =>
    fieldTensor .rolloutRoutedExperts sampleIndex (s.attr .rolloutRoutedExperts)
      (checkDtype .rolloutRoutedExperts)
  | .rolloutIndexerTopk =>
    fieldTensor .rolloutIndexerTopk sampleIndex (s.attr .rolloutIndexerTopk)
      (checkDtype .rolloutIndexerTopk)
  | .rolloutSamplingMask =>
    match s.attr .rolloutSamplingMask with
    | none => .ok []
    | some (mask : RolloutSamplingMask) =>
      .ok [(tensorKey (WireField.name .rolloutSamplingMask ++ ".ids") sampleIndex,
          .ints .int32 (.ofList mask.ids)),
        (tensorKey (WireField.name .rolloutSamplingMask ++ ".offsets") sampleIndex,
          .ints .int64 (.ofList (mask.offsets.map Int.ofNat)))]
  | _ => .ok []

/-- `sample_meta`: the JSON fields, and which tensor fields are null. -/
def sampleMeta (fields : List WireField) (s : Sample Rest) : PyJson :=
  let values := fields.filterMap fun field => (jsonValue refs s field).map (field.name, ·)
  let nulls := (fields.filter (isNull s)).map fun field => PyJson.str field.name
  .obj ((PyDict.ofList values).set "nulls" (.arr nulls)).items

/-- `meta`: the header of the payload. -/
def payloadMeta (samples : List (Sample Rest)) (sessionMetadata : PyJson)
    (emptyReason : Option String) (fields : List WireField) : PyJson :=
  .obj [("samples", .arr (samples.map (sampleMeta refs fields))),
    ("session_metadata", sessionMetadata), ("empty_reason", (emptyReason.map .str).getD .null)]

/-- `json.dumps` to UTF-8 bytes, and `json.loads` of bytes. -/
structure JsonText where
  dumps : PyJson → List Int
  loads : List Int → Except WireError PyJson

/-- The tensors of all samples, in the order they are assigned. -/
def sampleTensors (samples : List (Sample Rest)) (fields : List WireField) :
    Except WireError (List (String × NdArray)) := do
  let tensors ← samples.zipIdx.mapM fun x => fields.mapM (fieldTensors x.1 x.2)
  return tensors.flatten.flatten

/-- `encode_samples`: what the tensor container is made of. -/
def encodeSamples (json : JsonText) (samples : List (Sample Rest)) (sessionMetadata : PyJson)
    (emptyReason : Option String) (fields : List WireField) : Except WireError Tensors := do
  let tensors ← sampleTensors samples fields
  let metaBytes := json.dumps (payloadMeta refs samples sessionMetadata emptyReason fields)
  return (PyDict.ofList tensors).set samplesMetaKey (.ints .uint8 (.ofList metaBytes))

end Encode

/-! ## Decoding -/

/-- `tensors.pop(key)` -/
def pop (tensors : Tensors) (key : String) : Except WireError (NdArray × Tensors) :=
  match tensors.get? key with
  | some arr => .ok (arr, tensors.erase key)
  | none => .error (.builtin (.key key))

/-- `arr.tolist()` of an array of the field's integer dtype. -/
def readInts (field : WireField) (arr : NdArray) : Except WireError (Nested Int) :=
  match arr with
  | .ints kind xs =>
    if some kind = field.intKind then .ok xs else .error (.raised (.wrongDtype field arr.dtype))
  | _ => .error (.raised (.wrongDtype field arr.dtype))

/-- `arr.tolist()` of a `float64` array. -/
def readFloats (field : WireField) (arr : NdArray) : Except WireError (Nested Float64) :=
  match arr with
  | .float64 xs => .ok xs
  | _ => .error (.raised (.wrongDtype field arr.dtype))

/-- The value of a tensor field: none where it is null or, for a top-k field, not there. -/
def popField {α : Type} (field : WireField) (read : NdArray → Except WireError α)
    (sampleIndex : Nat) (nulls : List String) (tensors : Tensors) :
    Except WireError (Option α × Tensors) :=
  if field.name ∈ nulls then .ok (none, tensors)
  -- older producers have no candidate fields
  else if field.isRolloutTopk ∧ (tensors.get? (tensorKey field.name sampleIndex)).isNone then
    .ok (none, tensors)
  else do
    let (arr, tensors) ← pop tensors (tensorKey field.name sampleIndex)
    let value ← read arr
    return (some value, tensors)

/-- `RolloutSamplingMask(ids=..., offsets=...)` of two tensors. -/
def maskOfTensors (ids offsets : NdArray) : Except WireError RolloutSamplingMask :=
  match ids, offsets with
  | .ints .int32 ids, .ints .int64 offsets =>
    if ids.shape.length ≠ 1 ∨ offsets.shape.length ≠ 1 then .error (.raised .maskRank)
    else if offsets.elems.head? ≠ some 0 ∨ offsets.elems.getLast? ≠ some (ids.elems.length : Int) then
      .error (.raised (.samplingMask .offsetBounds))
    -- offsets that start at zero and increase are not negative
    else if ∃ offset ∈ offsets.elems, offset < 0 then .error (.raised (.samplingMask .offsetOrder))
    else
      (RolloutSamplingMask.ofArrays ids.elems (offsets.elems.map Int.toNat)).mapError
        fun e => .raised (.samplingMask e)
  | ids, offsets => .error (.raised (.maskDtypes ids.dtype offsets.dtype))

/-- The sampling mask of a sample, from its two tensors. -/
def popMask (sampleIndex : Nat) (nulls : List String) (tensors : Tensors) :
    Except WireError (Option RolloutSamplingMask × Tensors) :=
  if WireField.name .rolloutSamplingMask ∈ nulls then .ok (none, tensors)
  else do
    let (ids, tensors) ←
      pop tensors (tensorKey (WireField.name .rolloutSamplingMask ++ ".ids") sampleIndex)
    let (offsets, tensors) ←
      pop tensors (tensorKey (WireField.name .rolloutSamplingMask ++ ".offsets") sampleIndex)
    let mask ← maskOfTensors ids offsets
    return (some mask, tensors)

/-- `metadata.update(value)` -/
def updateMetadata (metadata : PyDict String PyJson) (value : PyJson) :
    Except WireError (PyDict String PyJson) :=
  match value with
  | .obj fields => .ok (fields.foldl (fun d x => d.set x.1 x.2) metadata)
  | _ => .error (.raised (.metadataNotObject value.typeName))

/-- A null marker names a tensor field. -/
def readNull (nulls : List PyJson) : PyJson → Except WireError String
  | .str name =>
    if (WireField.all.filter (·.isTensor)).any (·.name = name) then .ok name
    else .error (.raised (.nonTensorNulls nulls))
  | _ => .error (.raised (.nonTensorNulls nulls))

/-- `set(sample_meta["nulls"])`, all of them tensor fields. -/
def readNulls (sampleMeta : PyJson) : Except WireError (List String) := do
  let nulls ← (← sampleMeta.getItem "nulls").iter
  -- a set has no lists and no dictionaries
  nulls.forM fun x => if x.isArr ∨ x.isObj then throw (.builtin .type) else pure ()
  nulls.mapM (readNull nulls)

section Decode

variable {Rest : Type} (refs : RefCodec PyJson)

/-- One field of a sample: overlaid onto the sample, with the tensors that are left. -/
def decodeField (sampleIndex : Nat) (sampleMeta : PyJson) (nulls : List String)
    (state : Sample Rest × Tensors) (field : WireField) : Except WireError (Sample Rest × Tensors) :=
  let (s, tensors) := state
  match field with
  | .tokens => do
    let (value, tensors) ← popField .tokens (readInts .tokens) sampleIndex nulls tensors
    -- null tokens are an empty list
    return (s.set .tokens (some (value.getD (.ofList []))), tensors)
  | .lossMask => do
    let (value, tensors) ← popField .lossMask (readInts .lossMask) sampleIndex nulls tensors
    return (s.set .lossMask value, tensors)
  | .rolloutLogProbs => do
    let (value, tensors) ←
      popField .rolloutLogProbs (readFloats .rolloutLogProbs) sampleIndex nulls tensors
    return (s.set .rolloutLogProbs value, tensors)
  | .rolloutTopkTokenIds => do
    let (value, tensors) ←
      popField .rolloutTopkTokenIds (checkDtype .rolloutTopkTokenIds) sampleIndex nulls tensors
    return (s.set .rolloutTopkTokenIds value, tensors)
  | .rolloutTopkLogProbs => do
    let (value, tensors) ←
      popField .rolloutTopkLogProbs (checkDtype .rolloutTopkLogProbs) sampleIndex nulls tensors
    return (s.set .rolloutTopkLogProbs value, tensors)
  | .rolloutRoutedExperts => do
    let (value, tensors) ←
      popField .rolloutRoutedExperts (checkDtype .rolloutRoutedExperts) sampleIndex nulls tensors
    return (s.set .rolloutRoutedExperts value, tensors)
  | .rolloutIndexerTopk => do
    let (value, tensors) ←
      popField .rolloutIndexerTopk (checkDtype .rolloutIndexerTopk) sampleIndex nulls tensors
    return (s.set .rolloutIndexerTopk value, tensors)
  | .rolloutSamplingMask => do
    let (value, tensors) ← popMask sampleIndex nulls tensors
    return (s.set .rolloutSamplingMask value, tensors)
  | .rolloutStorePlan => do
    -- no key means no plan
    match ← sampleMeta.get "rollout_store_plan" with
    | none | some .null => return (s.set .rolloutStorePlan none, tensors)
    | some value =>
      let plan ← planFromJson refs value
      return (s.set .rolloutStorePlan (some plan), tensors)
  | .response => do
    let value ← sampleMeta.getItem "response"
    return (s.set .response value, tensors)
  | .responseLength => do
    let value ← sampleMeta.getItem "response_length"
    return (s.set .responseLength value, tensors)
  | .status => do
    let value ← statusOf (← sampleMeta.getItem "status")
    return (s.set .status value, tensors)
  | .weightVersions => do
    let calls ← (← sampleMeta.getItem "weight_versions").iter
    let value ← calls.mapM WeightVersionsPerCall.fromDict
    return (s.set .weightVersions value, tensors)
  | .specInfo => do
    let value ← SpecInfo.fromDict (← sampleMeta.getItem "spec_info")
    return (s.set .specInfo value, tensors)
  | .prefixCacheInfo => do
    let value ← PrefixCacheInfo.fromDict (← sampleMeta.getItem "prefix_cache_info")
    return (s.set .prefixCacheInfo value, tensors)
  | .reward => do
    -- a null keeps the input's local reward
    match ← sampleMeta.getItem "reward" with
    | .null => return (s, tensors)
    | value => return (s.set .reward value, tensors)
  | .metadata => do
    let value ← updateMetadata (s.attr .metadata) (← sampleMeta.getItem "metadata")
    return (s.set .metadata value, tensors)

/-- One sample of the payload, over the input sample. -/
def decodeSample (inputSample : Sample Rest) (fields : List WireField) (tensors : Tensors)
    (sampleIndex : Nat) (sampleMeta : PyJson) : Except WireError (Sample Rest × Tensors) := do
  let nulls ← readNulls sampleMeta
  fields.foldlM (decodeField refs sampleIndex sampleMeta nulls) (inputSample, tensors)

/-- The samples of the payload from one position on, with the tensors that are left. -/
def decodeEntries (inputSample : Sample Rest) (fields : List WireField) :
    List PyJson → Nat → Tensors → Except WireError (List (Sample Rest) × Tensors)
  | [], _, tensors => .ok ([], tensors)
  | sampleMeta :: rest, sampleIndex, tensors => do
    let (s, tensors) ← decodeSample refs inputSample fields tensors sampleIndex sampleMeta
    let (samples, tensors) ← decodeEntries inputSample fields rest (sampleIndex + 1) tensors
    return (s :: samples, tensors)

/-- `assert` -/
def ensure (p : Prop) [Decidable p] (name : String) : Except WireError Unit :=
  if p then .ok () else .error (.raised (.inputSample name))

/-- `assert_input_sample_defaults` -/
def assertInputSampleDefaults (s : Sample Rest) : Except WireError Unit := do
  let prefixCacheInfo : PrefixCacheInfo := s.attr .prefixCacheInfo
  let specInfo : SpecInfo := s.attr .specInfo
  ensure (List.isEmpty (s.attr .weightVersions)) "weight_versions"
  ensure prefixCacheInfo.IsDefault "prefix_cache_info"
  ensure specInfo.IsDefault "spec_info"
  ensure (s.teacherLogProbs = none ∧ s.opdReverseKl = none) "teacher_log_probs/opd_reverse_kl"
  ensure (PyDict.get? (s.attr .metadata) "opd_student_top_logprobs" |>.isNone)
    "opd_student_top_logprobs"

/-- `SamplesReply` -/
structure SamplesReply (Rest : Type) where
  samples : List (Sample Rest)
  sessionMetadata : PyJson
  emptyReason : PyJson

/-- The header's tensor, which must be the bytes of a text. -/
def readMeta (json : JsonText) (arr : NdArray) : Except WireError PyJson :=
  match arr with
  | .ints .uint8 ⟨[_], bytes⟩ => json.loads bytes
  | arr => .error (.raised (.metaTensor arr.dtype arr.ndim))

/-- A payload with samples needs an input sample with defaults. -/
def checkInputSample (sampleMetas : PyJson) (inputSample : Sample Rest) : Except WireError Unit :=
  if sampleMetas.truthy then assertInputSampleDefaults inputSample else .ok ()

/-- Every tensor belongs to a sample. -/
def checkReferenced (tensors : Tensors) : Except WireError Unit :=
  if tensors.items ≠ [] then .error (.raised (.unreferencedTensors tensors.keys)) else .ok ()

/-- `decode_samples_and_merge_input_sample` of the tensors that a payload holds. -/
def decodeSamplesAndMergeInputSample (json : JsonText) (tensors : Tensors)
    (inputSample : Sample Rest) (fields : List WireField) :
    Except WireError (SamplesReply Rest) := do
  let (metaArr, tensors) ← pop tensors samplesMetaKey
  let header ← readMeta json metaArr
  let sampleMetas ← header.getItem "samples"
  checkInputSample sampleMetas inputSample
  let (samples, tensors) ←
    decodeEntries refs inputSample fields (← sampleMetas.iter) 0 tensors
  checkReferenced tensors
  let sessionMetadata ← header.getItem "session_metadata"
  let emptyReason ← header.getItem "empty_reason"
  return ⟨samples, sessionMetadata, emptyReason⟩

end Decode

end Miles.Session.SamplesCodec
