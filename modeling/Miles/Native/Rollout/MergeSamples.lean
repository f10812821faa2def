import Miles.Native.Rollout.SampleArrays

/-!
# Merging the turns of a trajectory

Model of `merge_samples` in `miles/rollout/generate_utils/sample_utils.py`, with the mask and
candidate merges of `sampling_mask.py` and `rollout_topk_logprobs.py`, of
`truncate_samples_by_total_tokens` in `miles/rollout/session/samples/merge.py`, and of the weight
versions that a response stamps on its turn.
-/

namespace Miles.Rollout.SampleArrays

/-! ## The weight versions of a turn -/

/-- What a response's `meta_info` says of weight versions; spans are relative to the output. -/
structure MetaInfo where
  /-- `len(meta_info.get("output_token_logprobs") or [])` -/
  numOutputTokens : Nat
  weightVersions : Option (List (String × Nat × Nat)) := none
  weightVersion : Option String := none
  completionTokens : Option Nat := none
  prefillWeightVersions : Option (List WeightVersionSpan) := none
  promptTokens : Option Nat := none

namespace MetaInfo

/-- The versions of the output tokens, as the response gives them. -/
def outputRelative (info : MetaInfo) : Except SampleError (List (String × Nat × Nat)) :=
  match info.weightVersions, info.weightVersion with
  | some rawSpans, _ => do
    ensure (∀ span ∈ rawSpans, span.2.2 ≤ info.numOutputTokens) .spansPastOutput
    return rawSpans
  | none, some version => do
    ensure (0 < info.numOutputTokens ∨ info.completionTokens.getD 0 = 0) .noOutputTokens
    return [(version, 0, info.numOutputTokens)]
  | none, none => .ok []

end MetaInfo

/-- `WeightVersionsPerCall.from_meta_info`; the sample holds the output tokens already, so its
    end is not before their number. -/
def WeightVersionsPerCall.fromMetaInfo (info : MetaInfo) (outputEnd : Nat) :
    Except SampleError WeightVersionsPerCall := do
  let outputRelative ← info.outputRelative
  let outputStart := outputEnd - info.numOutputTokens
  return {
    spans := (outputRelative.filter fun span => span.2.1 < span.2.2).map fun span =>
      ⟨span.1, outputStart + span.2.1, outputStart + span.2.2⟩
    prefillSpans := info.prefillWeightVersions.getD []
    outputStart := some outputStart
    promptTokens := info.promptTokens }

/-! ## Fields of two turns -/

/-- `_startswith` of the prompts. -/
def Prompt.startsWith : Prompt → Prompt → Except SampleError Bool
  | .text short, .text long => .ok (short.toList.isPrefixOf long.toList)
  | .messages short, .messages long => .ok (short.isPrefixOf long)
  | _, _ => .error .promptTypes

/-- The values of `a`, `fill` for each observation token, and the values of `b`. -/
def joinTurns {α : Type} (fill : α) (obsLen : Nat) (a b : List α) : List α :=
  a ++ List.replicate obsLen fill ++ b

/-- `_per_token` -/
def perToken {α : Type} (values : Option (List α)) (default : α) (responseLength : Nat) : List α :=
  values.getD (List.replicate responseLength default)

/-- `_merge_optional_per_token` -/
def mergeOptionalPerToken (obsLen : Nat) (a b : Option (List Float64Bits)) (aLength bLength : Nat) :
    Option (List Float64Bits) :=
  if a = none ∧ b = none then none
  else some (joinTurns 0 obsLen (perToken a 0 aLength) (perToken b 0 bLength))

/-- `merge_sampling_masks` -/
def mergeSamplingMasks (first : Option RolloutSamplingMask) (observationTokenIds : List Int)
    (second : Option RolloutSamplingMask) : Except SampleError (Option RolloutSamplingMask) :=
  match first, second with
  | none, none => .ok none
  | some first, some second =>
    Except.mapError .samplingMask do
      let observation ← forcedSamplingMask observationTokenIds
      let merged ← RolloutSamplingMask.concatenate [first, observation, second]
      return some merged
  | _, _ => .error (.oneSided .samplingMask)

/-- `merge_rollout_topk_logprobs_field` -/
def mergeTopkField {α : Type} (fill : α) (gap : Nat) (a b : Option (CandidateArray α)) :
    Except SampleError (Option (CandidateArray α)) :=
  match a, b with
  | none, none => .ok none
  | some a, some b =>
    if a.k ≠ b.k then .error (.oneSided .topk)
    else .ok (some ⟨a.k, joinTurns (List.replicate a.k fill) gap a.rows b.rows⟩)
  | _, _ => .error (.oneSided .topk)

/-- A later turn has the rows of a replay field that an earlier one has. -/
def checkRows (field : ForwardField) (a b : Option ForwardArray) : Except SampleError Unit :=
  match a, b with
  | none, _ => .ok ()
  | some _, none => .error (.missingRows field)
  | some a, some b =>
    ensure (a.rows.length ≤ b.rows.length) (.fewerRows field a.rows.length b.rows.length)

/-- `_merge_opd_student_top_logprobs` -/
def mergeOpdStudentTopLogprobs (obsLen : Nat) (a b : Option (List (List (Int × Float64Bits))))
    (aLength bLength : Nat) : Except SampleError (Option (List (List (Int × Float64Bits)))) :=
  match a, b with
  | none, none => .ok none
  | some a, some b => do
    ensure (a.length = aLength) (.perToken .opdStudentTopLogprobs a.length aLength)
    ensure (b.length = bLength) (.perToken .opdStudentTopLogprobs b.length bLength)
    return some (joinTurns [] obsLen a b)
  | _, _ => .error (.oneSided .opdStudentTopLogprobs)

/-! ## Merging -/

section

variable {Shared : Type} [DecidableEq Shared] (decode : List Int → String)

/-- `_introduces_replay_gap` -/
def introducesReplayGap (a b : Sample Shared) : Bool :=
  (a.rolloutRoutedExperts.isSome && b.rolloutRoutedExperts.isNone) ||
    (a.rolloutIndexerTopk.isSome && b.rolloutIndexerTopk.isNone) ||
    (a.rolloutSamplingMask.isSome && b.rolloutSamplingMask.isNone)

/-- `_merge_sample_pair` -/
def mergeSamplePair (a b : Sample Shared) : Except SampleError (Sample Shared) := do
  let obsLen : Int := b.tokens.length - a.tokens.length - b.responseLength
  a.validate
  b.validate
  let samePrompt ← a.prompt.startsWith b.prompt
  ensure samePrompt .promptPrefix
  ensure (a.tokens <+: b.tokens) .tokensPrefix
  ensure (0 < obsLen) (.observation obsLen)
  let obsLen := obsLen.toNat
  let obsTokens := (b.tokens.drop a.tokens.length).take obsLen
  let samplingMask ← mergeSamplingMasks a.rolloutSamplingMask obsTokens b.rolloutSamplingMask
  let storePlan ← (combinePlans a.rolloutStorePlan b.rolloutStorePlan
    (·.mergeTurn · obsLen)).mapError .storePlan
  checkRows .routedExperts a.rolloutRoutedExperts b.rolloutRoutedExperts
  checkRows .indexerTopk a.rolloutIndexerTopk b.rolloutIndexerTopk
  ensure (a.status = .completed) .notCompleted
  ensure (a.shared = b.shared) .sharedDiffers
  ensure (a.media = b.media) .mediaDiffers
  let topkTokenIds ← mergeTopkField (-1) obsLen a.rolloutTopkTokenIds b.rolloutTopkTokenIds
  let topkLogProbs ← mergeTopkField negInf obsLen a.rolloutTopkLogProbs b.rolloutTopkLogProbs
  let studentTopLogprobs ← mergeOpdStudentTopLogprobs obsLen a.opdStudentTopLogprobs
    b.opdStudentTopLogprobs a.responseLength b.responseLength
  return {
    shared := a.shared
    prompt := b.prompt
    tokens := b.tokens
    media := a.media
    response := a.response ++ decode obsTokens ++ b.response
    responseLength := a.responseLength + obsLen + b.responseLength
    lossMask := some (joinTurns 0 obsLen (perToken a.lossMask 1 a.responseLength)
      (perToken b.lossMask 1 b.responseLength))
    weightVersions := a.weightVersions ++ b.weightVersions
    rolloutLogProbs := some (joinTurns 0 obsLen (perToken a.rolloutLogProbs 0 a.responseLength)
      (perToken b.rolloutLogProbs 0 b.responseLength))
    rolloutTopkTokenIds := topkTokenIds
    rolloutTopkLogProbs := topkLogProbs
    rolloutSamplingMask := samplingMask
    rolloutRoutedExperts := b.rolloutRoutedExperts
    rolloutIndexerTopk := b.rolloutIndexerTopk
    rolloutStorePlan := storePlan
    teacherLogProbs := mergeOptionalPerToken obsLen a.teacherLogProbs b.teacherLogProbs
      a.responseLength b.responseLength
    opdReverseKl := mergeOptionalPerToken obsLen a.opdReverseKl b.opdReverseKl
      a.responseLength b.responseLength
    opdStudentTopLogprobs := studentTopLogprobs
    status := b.status }

/-- The loop of `merge_samples`. -/
def mergeLoop : Sample Shared → List (Sample Shared) → Except SampleError (Sample Shared)
  | acc, [] => .ok acc
  | acc, sample :: rest =>
    -- only a completed turn can be extended, and the replay rows must stay complete
    if acc.status ≠ .completed then .ok acc
    else if introducesReplayGap acc sample then .ok acc
    else do
      let acc ← mergeSamplePair decode acc sample
      mergeLoop acc rest

/-- `merge_samples` -/
def mergeSamples : List (Sample Shared) → Except SampleError (Sample Shared)
  | [] => .error .noSamples
  | sample :: rest => mergeLoop decode sample rest

end

/-! ## Truncating -/

section

variable {Shared : Type} (decode : List Int → String)

/-- Later turns are dropped, so a completed last kept turn is marked as cut off. -/
def truncateLast (result : List (Sample Shared)) : List (Sample Shared) :=
  match result.getLast? with
  | none => result
  | some last =>
    if last.status = .completed then result.dropLast ++ [{ last with status := .truncated }]
    else result

/-- The loop of `truncate_samples_by_total_tokens`. -/
def truncateLoop (maxSeqLen : Int) :
    List (Sample Shared) → List (Sample Shared) → Except SampleError (List (Sample Shared))
  | result, [] => .ok result
  | result, sample :: rest =>
    let total : Int := sample.tokens.length
    if total ≤ maxSeqLen then truncateLoop maxSeqLen (result ++ [sample]) rest
    else
      let overshoot := total - maxSeqLen
      let allowedOutput := sample.responseLength - overshoot
      if allowedOutput ≤ 0 then .ok (truncateLast result)
      else do
        let sample ← sample.stripLastOutputTokens decode overshoot.toNat
        return result ++ [{ sample with status := .truncated }]

/-- `truncate_samples_by_total_tokens` -/
def truncateSamplesByTotalTokens (samples : List (Sample Shared)) (maxSeqLen : Int) :
    Except SampleError (List (Sample Shared)) :=
  truncateLoop decode maxSeqLen [] samples

end

end Miles.Rollout.SampleArrays
