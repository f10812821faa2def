import Miles.Native.Rollout.PlanWire

/-!
# A sample and its per-token arrays

Model of `Sample` in `miles/utils/types.py` as far as its per-token data go: `validate`,
`strip_last_output_tokens` and the weight-version spans of its generation calls.

The fields that a merge only requires to be equal (indices, label, reward and so on) are one
value of an arbitrary type `Shared`.  Lengths and positions that the code asserts to be
nonnegative are natural numbers.  A decoder of tokens is a function; floats are their bits.
-/

namespace Miles.Rollout.SampleArrays

/-- The bits of a Python `float`. -/
abbrev Float64Bits : Type := BitVec 64

/-! ## Weight versions -/

/-- `WeightVersionSpan` -/
structure WeightVersionSpan where
  version : String
  absStart : Nat
  absEnd : Nat
  deriving DecidableEq, Repr

/-- `WeightVersionsPerCall` -/
structure WeightVersionsPerCall where
  spans : List WeightVersionSpan := []
  prefillSpans : List WeightVersionSpan := []
  outputStart : Option Nat := none
  promptTokens : Option Nat := none
  deriving DecidableEq, Repr

/-- `Sample.Status` -/
inductive Status where
  | pending | completed | truncated | aborted | failed
  deriving DecidableEq, Repr

/-- The per-token lists of a sample that must be as long as the response. -/
inductive PerToken where
  | lossMask | rolloutLogProbs | topk | samplingMask | teacherLogProbs | opdReverseKl
  | opdStudentTopLogprobs
  deriving DecidableEq, Repr

/-- What `validate`, `strip_last_output_tokens` and `merge_samples` raise. -/
inductive SampleError where
  /-- `tokens length must be >= response_length` -/
  | tokens (length responseLength : Nat)
  | perToken (field : PerToken) (length responseLength : Nat)
  /-- top-k ids and log-probs must both be present -/
  | topkMissing
  | topkShapes
  | routedExperts (rows : Nat) (expected expanded : Int)
  | indexerTopk (rows : Nat) (expected : Int)
  | storePlan (error : StoreError)
  | emptyVersion (span : WeightVersionSpan)
  | spanOrder (span : WeightVersionSpan) (previousEnd numTokens : Nat)
  | prefillWithoutStart
  | outputStart (start numTokens : Nat)
  | spanGap (span : WeightVersionSpan) (expectedStart : Nat)
  | prefillEnd (prefillEnd promptTokens : Nat)
  | outputEnd (outputEnd numTokens : Nat)
  /-- weight version spans extend past the output tokens -/
  | spansPastOutput
  /-- a weight version, but no output token to anchor it to -/
  | noOutputTokens
  /-- cannot strip that many tokens -/
  | strip (n responseLength : Nat)
  /-- `TypeError`: the log-probs of the top-k candidates are `None` -/
  | notSubscriptable
  | samplingMask (error : MaskError)
  /-- cannot merge unless both turns carry the field -/
  | oneSided (field : PerToken)
  | promptPrefix
  | tokensPrefix
  | observation (obsLen : Int)
  /-- `NotImplementedError` of `_startswith` -/
  | promptTypes
  | missingRows (field : ForwardField)
  | fewerRows (field : ForwardField) (rows laterRows : Nat)
  | notCompleted
  | sharedDiffers
  | mediaDiffers
  /-- `IndexError`: no samples -/
  | noSamples
  deriving DecidableEq, Repr

/-- `assert p, e` -/
def ensure (p : Prop) [Decidable p] (e : SampleError) : Except SampleError Unit :=
  if p then .ok () else .error e

/-- `_assert_spans_run_in_order` -/
def assertSpansRunInOrder : Nat → List WeightVersionSpan → Except SampleError Nat
  | expectedStart, [] => .ok expectedStart
  | expectedStart, span :: spans => do
    ensure (span.absStart = expectedStart ∧ span.absStart < span.absEnd)
      (.spanGap span expectedStart)
    assertSpansRunInOrder span.absEnd spans

/-- `assert span.version` for every span. -/
def assertVersions (spans : List WeightVersionSpan) : Except SampleError Unit :=
  spans.forM fun span => ensure (span.version ≠ "") (.emptyVersion span)

/-- The prefill spans of a call must cover its prompt. -/
def WeightVersionsPerCall.validatePrefill (call : WeightVersionsPerCall) (outputStart : Nat) :
    Except SampleError Unit :=
  if call.prefillSpans = [] then .ok ()
  else do
    let prefillEnd ← assertSpansRunInOrder 0 call.prefillSpans
    let promptTokens := call.promptTokens.getD outputStart
    ensure (prefillEnd = promptTokens) (.prefillEnd prefillEnd promptTokens)

/-- `WeightVersionsPerCall.validate` -/
def WeightVersionsPerCall.validate (call : WeightVersionsPerCall) (numTokens : Nat) :
    Except SampleError Unit := do
  assertVersions (call.prefillSpans ++ call.spans)
  match call.outputStart with
  | none => ensure (call.prefillSpans = []) .prefillWithoutStart
  | some outputStart =>
    ensure (outputStart ≤ numTokens) (.outputStart outputStart numTokens)
    call.validatePrefill outputStart
    let outputEnd ← assertSpansRunInOrder outputStart call.spans
    ensure (outputEnd ≤ numTokens) (.outputEnd outputEnd numTokens)

/-! ## Samples -/

/-- `sample.prompt` -/
inductive Prompt where
  | text (prompt : String)
  | messages (prompt : List (List (String × String)))
  deriving DecidableEq, Repr

/-- A candidate array `[tokens, k]`. -/
structure CandidateArray (α : Type) where
  k : Nat
  rows : List (List α)
  deriving DecidableEq, Repr

/-- What `multimodal_train_inputs` says about media sentinels: how many tokens the trainer's
    processor puts in the place of each. -/
structure MediaCounts where
  mmVisionNumPatches : List Int := []
  mmAudioNumTokens : List Int := []
  deriving DecidableEq, Repr

/-- `sum(int(c) - 1 ...)`: by how much the expansion lengthens the sequence. -/
def MediaCounts.extra (media : MediaCounts) : Int :=
  ((media.mmVisionNumPatches ++ media.mmAudioNumTokens).map (· - 1)).sum

/-- `Sample` -/
structure Sample (Shared : Type) where
  shared : Shared
  prompt : Prompt := .text ""
  tokens : List Int := []
  media : MediaCounts := {}
  response : String := ""
  responseLength : Nat := 0
  lossMask : Option (List Int) := none
  weightVersions : List WeightVersionsPerCall := []
  rolloutLogProbs : Option (List Float64Bits) := none
  rolloutTopkTokenIds : Option (CandidateArray Int) := none
  rolloutTopkLogProbs : Option (CandidateArray Float32Bits) := none
  rolloutSamplingMask : Option RolloutSamplingMask := none
  rolloutRoutedExperts : Option ForwardArray := none
  rolloutIndexerTopk : Option ForwardArray := none
  rolloutStorePlan : Option StorePlan := none
  teacherLogProbs : Option (List Float64Bits) := none
  opdReverseKl : Option (List Float64Bits) := none
  /-- `metadata["opd_student_top_logprobs"]` -/
  opdStudentTopLogprobs : Option (List (List (Int × Float64Bits))) := none
  status : Status := .pending
  deriving DecidableEq

/-- `StorePlan.validate` of a field. -/
def validateField (fields : Fields Segments) (numTokens responseLength : Nat) (field : Field) :
    Except SampleError Unit :=
  match fields.get field with
  | none => .ok ()
  | some segs =>
    let expected := field.expectedRows numTokens responseLength
    ensure ((PieceTable.numRows segs : Int) = expected)
      (.storePlan (.rowCount field (PieceTable.numRows segs) expected))

/-- `StorePlan.validate` -/
def validatePlan (plan : StorePlan) (numTokens responseLength : Nat) :
    Except SampleError Unit := do
  validateField plan.fields numTokens responseLength (.forward .routedExperts)
  validateField plan.fields numTokens responseLength (.forward .indexerTopk)
  validateField plan.fields numTokens responseLength .samplingMask

/-- A per-token list is absent or as long as the response. -/
def ensureLength (field : PerToken) (length : Option Nat) (responseLength : Nat) :
    Except SampleError Unit :=
  match length with
  | none => .ok ()
  | some length => ensure (length = responseLength) (.perToken field length responseLength)

namespace Sample

variable {Shared : Type}

/-- `all_weight_version_spans` -/
def allWeightVersionSpans (s : Sample Shared) : List WeightVersionSpan :=
  s.weightVersions.flatMap (·.spans)

/-- The checks of the top-k candidates. -/
def validateTopk (s : Sample Shared) : Except SampleError Unit :=
  match s.rolloutTopkTokenIds, s.rolloutTopkLogProbs with
  | none, none => .ok ()
  | some ids, some logps => do
    ensure (ids.rows.length = logps.rows.length ∧ ids.k = logps.k) .topkShapes
    ensureLength .topk (some ids.rows.length) s.responseLength
  | _, _ => .error .topkMissing

/-- The check of the routed experts' rows, which may cover the expanded sequence. -/
def validateRoutedExperts (s : Sample Shared) : Except SampleError Unit :=
  match s.rolloutRoutedExperts with
  | none => .ok ()
  | some array =>
    let expected : Int := s.tokens.length - 1
    ensure ((array.rows.length : Int) = expected ∨
        (array.rows.length : Int) = expected + s.media.extra)
      (.routedExperts array.rows.length expected (expected + s.media.extra))

/-- The check of the indexer's rows. -/
def validateIndexerTopk (s : Sample Shared) : Except SampleError Unit :=
  match s.rolloutIndexerTopk with
  | none => .ok ()
  | some array =>
    let expected : Int := s.tokens.length - 1
    ensure ((array.rows.length : Int) = expected) (.indexerTopk array.rows.length expected)

/-- The check of the store plan. -/
def validateStorePlan (s : Sample Shared) : Except SampleError Unit :=
  match s.rolloutStorePlan with
  | none => .ok ()
  | some plan => validatePlan plan s.tokens.length s.responseLength

/-- The spans of all calls lie in the sequence, in order. -/
def validateSpans (numTokens : Nat) : Nat → List WeightVersionSpan → Except SampleError Unit
  | _, [] => .ok ()
  | previousEnd, span :: spans => do
    ensure (span.version ≠ "") (.emptyVersion span)
    ensure (previousEnd ≤ span.absStart ∧ span.absStart < span.absEnd ∧ span.absEnd ≤ numTokens)
      (.spanOrder span previousEnd numTokens)
    validateSpans numTokens span.absEnd spans

/-- `validate` -/
def validate (s : Sample Shared) : Except SampleError Unit := do
  ensure (s.responseLength ≤ s.tokens.length) (.tokens s.tokens.length s.responseLength)
  ensureLength .lossMask (s.lossMask.map List.length) s.responseLength
  ensureLength .rolloutLogProbs (s.rolloutLogProbs.map List.length) s.responseLength
  s.validateTopk
  ensureLength .samplingMask (s.rolloutSamplingMask.map (·.length)) s.responseLength
  ensureLength .teacherLogProbs (s.teacherLogProbs.map List.length) s.responseLength
  ensureLength .opdReverseKl (s.opdReverseKl.map List.length) s.responseLength
  s.validateRoutedExperts
  s.validateIndexerTopk
  s.validateStorePlan
  validateSpans s.tokens.length 0 s.allWeightVersionSpans
  s.weightVersions.forM (·.validate s.tokens.length)

end Sample

/-! ## Stripping the tail of the response -/

/-- `xs[:-n]` for a positive `n`. -/
def dropTail {α : Type} (n : Nat) (xs : List α) : List α := xs.take (xs.length - n)

/-- The spans of a call within the first `numTokens` tokens. -/
def cutSpans (numTokens : Nat) (spans : List WeightVersionSpan) : List WeightVersionSpan :=
  (spans.filter fun span => span.absStart < numTokens).map fun span =>
    if span.absEnd ≤ numTokens then span else { span with absEnd := numTokens }

/-- `call.output_start is None or call.output_start <= num_tokens` -/
def WeightVersionsPerCall.startedBy (call : WeightVersionsPerCall) (numTokens : Nat) : Bool :=
  call.outputStart.all (· ≤ numTokens)

/-- The calls that started within the first `numTokens` tokens, with their spans cut. -/
def cutCalls (numTokens : Nat) (calls : List WeightVersionsPerCall) : List WeightVersionsPerCall :=
  (calls.filter (·.startedBy numTokens)).map fun call =>
    { call with spans := cutSpans numTokens call.spans }

/-- `array[:-n]` of the candidates, both or none. -/
def stripTopk (n : Nat) (ids : Option (CandidateArray Int))
    (logps : Option (CandidateArray Float32Bits)) :
    Except SampleError (Option (CandidateArray Int) × Option (CandidateArray Float32Bits)) :=
  match ids, logps with
  | none, logps => .ok (none, logps)
  | some _, none => .error .notSubscriptable
  | some ids, some logps =>
    .ok (some { ids with rows := dropTail n ids.rows },
      some { logps with rows := dropTail n logps.rows })

/-- `prefix` of the mask, where there is one. -/
def stripMask (responseLength : Nat) (mask : Option RolloutSamplingMask) :
    Except SampleError (Option RolloutSamplingMask) :=
  match mask with
  | none => .ok none
  | some mask => some <$> (mask.prefixMask responseLength).mapError .samplingMask

/-- `tokenizer.decode(tokens[-responseLength:])`, or the empty text. -/
def decodeTail (decode : List Int → String) (tokens : List Int) (responseLength : Nat) : String :=
  if 0 < responseLength then decode (tokens.drop (tokens.length - responseLength)) else ""

/-- `Sample.strip_last_output_tokens` -/
def Sample.stripLastOutputTokens {Shared : Type} (decode : List Int → String) (s : Sample Shared)
    (n : Nat) : Except SampleError (Sample Shared) :=
  if n = 0 then .ok s
  else do
    ensure (n ≤ s.responseLength) (.strip n s.responseLength)
    let tokens := dropTail n s.tokens
    let responseLength := s.responseLength - n
    let topk ← stripTopk n s.rolloutTopkTokenIds s.rolloutTopkLogProbs
    let mask ← stripMask responseLength s.rolloutSamplingMask
    return { s with
      tokens
      responseLength
      rolloutTopkTokenIds := topk.1
      rolloutTopkLogProbs := topk.2
      rolloutLogProbs := s.rolloutLogProbs.map (dropTail n)
      rolloutSamplingMask := mask
      teacherLogProbs := s.teacherLogProbs.map (dropTail n)
      opdReverseKl := s.opdReverseKl.map (dropTail n)
      opdStudentTopLogprobs := s.opdStudentTopLogprobs.map (dropTail n)
      lossMask := s.lossMask.map (dropTail n)
      response := decodeTail decode tokens responseLength
      rolloutRoutedExperts := s.rolloutRoutedExperts.map fun array =>
        { array with rows := dropTail n array.rows }
      rolloutIndexerTopk := s.rolloutIndexerTopk.map fun array =>
        { array with rows := dropTail n array.rows }
      rolloutStorePlan := s.rolloutStorePlan.map (·.stripTail n)
      weightVersions := cutCalls tokens.length s.weightVersions }

end Miles.Rollout.SampleArrays
