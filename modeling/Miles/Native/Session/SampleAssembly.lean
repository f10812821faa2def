import Miles.Native.Session.LinearTrajectory
import Miles.Native.Session.Core

/-!
# Training samples from session records

Model of `miles/rollout/session/samples/merge.py` and of `merge_samples`
(`miles/rollout/generate_utils/sample_utils.py`): the turns of a chain of records, cut to a
token budget and merged into one sample.

A sample is its tokens, its response, the loss mask and the status, and which replay arrays it
carries.  The other arrays of a sample are cut and joined like these or only checked.
-/

namespace Miles.Session

/-- The replay arrays that a sample carries, `_REPLAY_FIELDS`. -/
structure Replay where
  routedExperts : Bool := false
  indexerTopk : Bool := false
  samplingMask : Bool := false
  deriving DecidableEq, Repr

/-- What the assembly reads of a record. -/
structure Turn where
  inputIds : List Nat
  /-- the ids in `output_token_logprobs` -/
  outputIds : List Nat
  finishReason : FinishReason
  replay : Replay := {}
  deriving DecidableEq, Repr

/-- `Sample.Status` -/
inductive Status where
  | pending | completed | truncated | aborted | failed
  deriving DecidableEq, Repr

/-- `Sample` -/
structure Sample where
  tokens : List Nat
  responseLength : Nat
  lossMask : List Nat
  status : Status := .pending
  replay : Replay := {}
  deriving DecidableEq, Repr

/-- The assertions of the assembly. -/
inductive AssemblyError where
  /-- `trim_count` exceeds what is allowed -/
  | trim (count allowed : Nat)
  /-- the cursor is not at the end of the accumulated ids -/
  | cursor (cursor accumulated : Nat)
  | strip (n responseLength : Nat)
  /-- `Sample.validate` -/
  | validate
  /-- the tokens of a turn do not start with those of the turns before it -/
  | notPrefix
  /-- no observation between two turns -/
  | observation (obsLen : Int)
  /-- one of two turns has no sampling mask -/
  | samplingMask
  deriving DecidableEq, Repr

namespace Sample

/-- `strip_last_output_tokens` -/
def stripLastOutputTokens (sample : Sample) (n : Nat) : Except AssemblyError Sample :=
  if n = 0 then .ok sample
  else if n ≤ sample.responseLength then
    .ok { sample with
      tokens := sample.tokens.take (sample.tokens.length - n)
      responseLength := sample.responseLength - n
      lossMask := sample.lossMask.take (sample.lossMask.length - n) }
  else .error (.strip n sample.responseLength)

/-- `validate`, on the arrays of the model. -/
def validate (sample : Sample) : Bool :=
  sample.responseLength ≤ sample.tokens.length ∧ sample.lossMask.length = sample.responseLength

end Sample

/-! ## Turns -/

/-- The status of a turn; an unknown finish reason leaves it pending. -/
def turnStatus : FinishReason → Status
  | .stop | .toolCalls => .completed
  | .length => .truncated
  | .abort => .aborted
  | .other => .pending

/-- `_compute_sample_from_openai_record` -/
def computeSampleFromOpenaiRecord (turn : Turn) (trimCount : Nat) : Except AssemblyError Sample := do
  let sample : Sample :=
    { tokens := turn.inputIds ++ turn.outputIds
      responseLength := turn.outputIds.length
      lossMask := List.replicate turn.outputIds.length 1
      replay := turn.replay }
  let sample ← sample.stripLastOutputTokens trimCount
  return { sample with status := turnStatus turn.finishReason }

/-- `matched`: the outputs that the accumulated ids continue with after the turn's prompt. -/
def matchedOutputs (accumulatedTokenIds : List Nat) (turn : Turn) : Nat :=
  lcpLen turn.outputIds (accumulatedTokenIds.drop turn.inputIds.length)

/-- The loop of `compute_samples_from_openai_records` from a turn on: the samples of the turns and
    the last cursor. -/
def computeTurns (accumulatedTokenIds : List Nat) (maxTrimTokens : Nat) :
    Nat → List Turn → Except AssemblyError (List Sample × Nat)
  | cursor, [] => .ok ([], cursor)
  | _, turn :: rest => do
    let matched := matchedOutputs accumulatedTokenIds turn
    let trimCount := turn.outputIds.length - matched
    let allowed := if rest.isEmpty then 0 else maxTrimTokens
    if allowed < trimCount then throw (.trim trimCount allowed)
    let sample ← computeSampleFromOpenaiRecord turn trimCount
    let (samples, cursor) ←
      computeTurns accumulatedTokenIds maxTrimTokens (turn.inputIds.length + matched) rest
    return (sample :: samples, cursor)

/-- `compute_samples_from_openai_records`; the session always passes accumulated ids. -/
def computeSamplesFromOpenaiRecords (turns : List Turn) (accumulatedTokenIds : List Nat)
    (maxTrimTokens : Nat) : Except AssemblyError (List Sample) := do
  let (samples, cursor) ← computeTurns accumulatedTokenIds maxTrimTokens 0 turns
  if cursor ≠ accumulatedTokenIds.length then
    throw (.cursor cursor accumulatedTokenIds.length)
  return samples

/-! ## The token budget -/

/-- Mark a completed last sample as cut off. -/
def truncateLast (result : List Sample) : List Sample :=
  match result.getLast? with
  | some last =>
    if last.status = .completed then result.dropLast ++ [{ last with status := .truncated }]
    else result
  | none => result

/-- The loop of `truncate_samples_by_total_tokens`. -/
def truncateLoop (maxSeqLen : Int) : List Sample → List Sample → Except AssemblyError (List Sample)
  | result, [] => .ok result
  | result, sample :: rest =>
    let total : Int := sample.tokens.length
    if total ≤ maxSeqLen then truncateLoop maxSeqLen (result ++ [sample]) rest
    else
      let overshoot := total - maxSeqLen
      if sample.responseLength - overshoot ≤ 0 then .ok (truncateLast result)
      else do
        let sample ← sample.stripLastOutputTokens overshoot.toNat
        return result ++ [{ sample with status := .truncated }]

/-- `truncate_samples_by_total_tokens` -/
def truncateSamplesByTotalTokens (samples : List Sample) (maxSeqLen : Int) :
    Except AssemblyError (List Sample) :=
  truncateLoop maxSeqLen [] samples

/-! ## Merging -/

/-- `_introduces_replay_gap` -/
def introducesReplayGap (a b : Sample) : Bool :=
  (a.replay.routedExperts && !b.replay.routedExperts) ||
  (a.replay.indexerTopk && !b.replay.indexerTopk) ||
  (a.replay.samplingMask && !b.replay.samplingMask)

/-- `_merge_sample_pair` -/
def mergeSamplePair (a b : Sample) : Except AssemblyError Sample := do
  let obsLen : Int := b.tokens.length - a.tokens.length - b.responseLength
  if ¬ (a.validate ∧ b.validate) then throw .validate
  if ¬ a.tokens <+: b.tokens then throw .notPrefix
  if obsLen ≤ 0 then throw (.observation obsLen)
  if a.replay.samplingMask ≠ b.replay.samplingMask then throw .samplingMask
  return {
    tokens := b.tokens
    responseLength := a.responseLength + obsLen.toNat + b.responseLength
    lossMask := a.lossMask ++ List.replicate obsLen.toNat 0 ++ b.lossMask
    status := b.status
    replay := b.replay }

/-- The loop of `merge_samples`. -/
def mergeLoop : Sample → List Sample → Except AssemblyError Sample
  | acc, [] => .ok acc
  | acc, sample :: rest =>
    -- only a completed turn is extended, and replay arrays must be complete
    if acc.status ≠ .completed then .ok acc
    else if introducesReplayGap acc sample then .ok acc
    else do
      let acc ← mergeSamplePair acc sample
      mergeLoop acc rest

/-- `merge_samples`; `none` for no samples, on which it raises. -/
def mergeSamples : List Sample → Option (Except AssemblyError Sample)
  | [] => none
  | sample :: rest => some (mergeLoop sample rest)

end Miles.Session
