import Miles.Native.Rollout.StorePlan

/-!
# The replay edits of a sample

What happens to one sample between its first response and training: responses, inserted
observation tokens, stripped tails and merges with the session's next turn.  `storePlan`
performs the edits on the sample's output store plan.  `inlineArrays` performs the same
edits on the arrays themselves, as a sample without the output store carries them
(`update_sample_from_response`, `append_observation_tokens`, `_merge_sample_pair`,
`Sample.strip_last_output_tokens`): it is the statement of what the plan stands for.
-/

namespace Miles.Rollout

/-- A response with the arrays its engine computed, which go inline or to the store. -/
structure Response extends StoreResponse where
  routedExperts : Option ForwardArray
  indexerTopk : Option ForwardArray
  supports : Option (List (List Int))
  supportLogprobs : List (List Float32Bits)

/-- The forward array the engine computed for a field. -/
def Response.forward (r : Response) : ForwardField → Option ForwardArray
  | .routedExperts => r.routedExperts
  | .indexerTopk => r.indexerTopk

/-- The edits of a sample, from its first response. -/
inductive SampleEdits where
  | response (r : Response)
  | append (edits : SampleEdits) (r : Response)
  | insert (edits : SampleEdits) (tokenIds : List Int)
  | strip (edits : SampleEdits) (n : Nat)
  /-- the session's next turn, after observation tokens -/
  | merge (edits : SampleEdits) (observation : List Int) (later : SampleEdits)

namespace SampleEdits

/-- The first response. -/
def first : SampleEdits → Response
  | response r => r
  | append edits _ | insert edits _ | strip edits _ | merge edits _ _ => edits.first

/-- Every response. -/
def responses : SampleEdits → List Response
  | response r => [r]
  | append edits r => edits.responses ++ [r]
  | insert edits _ | strip edits _ => edits.responses
  | merge edits _ later => edits.responses ++ later.responses

/-- The number of sequence positions a forward field covers after the edits: those before
    the start of the last forward and those the engine returned for it, less the stripped
    ones. -/
def forwardRows (field : ForwardField) : SampleEdits → Nat
  | response r | append _ r =>
    r.startLen field + (match r.forward field with
      | some array => array.rows.length
      | none => 0)
  | insert edits _ => edits.forwardRows field
  | strip edits n => edits.forwardRows field - n
  | merge _ _ later => later.forwardRows field

/-- The edits on the plan. -/
def storePlan : SampleEdits → Except StoreError StorePlan
  | response r => StorePlan.appendStoreResponse none r.toStoreResponse
  | append edits r => do
    let plan ← edits.storePlan
    StorePlan.appendStoreResponse (some plan) r.toStoreResponse
  | insert edits tokenIds => do
    let plan ← edits.storePlan
    return plan.insertTokens tokenIds.length
  | strip edits n => do
    let plan ← edits.storePlan
    return plan.stripTail n
  | merge edits observation later => do
    let plan ← edits.storePlan
    let laterPlan ← later.storePlan
    plan.mergeTurn laterPlan observation.length

end SampleEdits

/-! ### The same edits on arrays -/

/-- The rows of a forward field from a sequence position on; no array before one came back. -/
structure ForwardRows where
  start : Nat
  array : Option ForwardArray
  deriving DecidableEq, Repr

namespace ForwardRows

/-- The rows that came back. -/
def rows (v : ForwardRows) : List (List (List Int)) :=
  match v.array with
  | some array => array.rows
  | none => []

/-- The number of positions covered, those before the start included. -/
def total (v : ForwardRows) : Nat := v.start + v.rows.length

/-- A response's own rows: one per position of its forward, from where it started. -/
def ofResponse (field : ForwardField) (indexerStreams : Option Nat) (r : Response) :
    Except StoreError ForwardRows :=
  let start := r.startLen field
  match r.forward field with
  | none =>
    if r.noOutputAbort then .ok ⟨start, none⟩ else .error (.missingField (.forward field))
  | some array => do
    let expected := (Field.forward field).expectedRows r.numTokens r.outputTokens.length - start
    if (array.rows.length : Int) ≠ expected then
      throw (.rowCount (.forward field) array.rows.length expected)
    field.check indexerStreams array
    return ⟨start, some array⟩

/-- Rows that start at or before the earlier ones replace them; later ones continue them. -/
def append (field : ForwardField) (v new : ForwardRows) : Except StoreError ForwardRows :=
  if v.total < new.start then .error (.gap (.forward field) new.start v.total)
  else if new.start ≤ v.start then .ok new
  else match v.array, new.array with
    | some array, some newArray =>
      if array.shape ≠ newArray.shape then .error .shapesDiffer
      else .ok ⟨v.start, some ⟨array.shape, array.rows.take (new.start - v.start) ++ newArray.rows⟩⟩
    | some array, none =>
      .ok ⟨v.start, some { array with rows := array.rows.take (new.start - v.start) }⟩
    | none, _ => .ok v

/-- Drop the rows of the last `n` positions. -/
def strip (v : ForwardRows) (n : Nat) : ForwardRows :=
  let kept := v.total - n
  ⟨min v.start kept, v.array.map fun array => { array with rows := array.rows.take (kept - v.start) }⟩

end ForwardRows

/-- A mask with its top-k candidates, which only support mode has. -/
structure InlineMask where
  mask : RolloutSamplingMask
  topk : Option (List (List Int) × List (List Float32Bits))
  deriving DecidableEq

/-- The replay arrays of a sample without the output store, and its response tokens. -/
structure InlineArrays where
  responseTokens : List Int
  routedExperts : Option ForwardRows
  indexerTopk : Option ForwardRows
  samplingMask : Option InlineMask
  deriving DecidableEq

namespace InlineMask

/-- `append_sampling_metadata` on a sample without a mask, with its candidates. -/
def ofResponse (k : Nat) (r : Response) : Except StoreError InlineMask :=
  match r.supports with
  | none => do
    if r.noOutputAbort = false then throw (.missingField .samplingMask)
    let mask ← (RolloutSamplingMask.fromMaskList []).mapError .mask
    return ⟨mask, if k > 0 then some ([], []) else none⟩
  | some supports => do
    let mask ← (samplingMaskFromSupports r.outputTokens supports).mapError .mask
    if k > 0 then
      (checkSupportLogprobs r.outputTokens supports r.supportLogprobs).mapError .mask
      let candidates ← (supportCandidates k supports r.supportLogprobs).mapError .mask
      return ⟨mask, some candidates⟩
    else return ⟨mask, none⟩

/-- `np.concatenate` of candidate arrays. -/
def joinTopk (a b : Option (List (List Int) × List (List Float32Bits))) :
    Option (List (List Int) × List (List Float32Bits)) :=
  match a, b with
  | some a, some b => some (a.1 ++ b.1, a.2 ++ b.2)
  | _, _ => none

/-- `pad_rollout_topk_logprobs`: the candidates of inserted tokens. -/
def padding (k n : Nat) : List (List Int) × List (List Float32Bits) :=
  (List.replicate n (List.replicate k (-1)), List.replicate n (List.replicate k negInf))

/-- A later response of the same sample. -/
def append (responseLength : Nat) (a new : InlineMask) : Except StoreError InlineMask := do
  let mask ← (appendSamplingMask responseLength a.mask new.mask).mapError .mask
  return ⟨mask, joinTopk a.topk new.topk⟩

/-- `append_forced_sampling_tokens` and `pad_rollout_topk_logprobs`. -/
def insert (responseLength k : Nat) (a : InlineMask) (tokenIds : List Int) :
    Except StoreError InlineMask := do
  let forced ← (forcedSamplingMask tokenIds).mapError .mask
  let mask ← (appendSamplingMask responseLength a.mask forced).mapError .mask
  return ⟨mask, joinTopk a.topk (some (padding k tokenIds.length))⟩

/-- `merge_sampling_masks` and `merge_rollout_topk_logprobs_field`. -/
def merge (k : Nat) (a : InlineMask) (observation : List Int) (later : InlineMask) :
    Except StoreError InlineMask := do
  let forced ← (forcedSamplingMask observation).mapError .mask
  let mask ← (RolloutSamplingMask.concatenate [a.mask, forced, later.mask]).mapError .mask
  return ⟨mask, joinTopk (joinTopk a.topk (some (padding k observation.length))) later.topk⟩

/-- The mask and candidates of all but the last `n` tokens. -/
def strip (responseLength : Nat) (a : InlineMask) (n : Nat) : Except StoreError InlineMask := do
  let mask ← (a.mask.prefixMask (responseLength - n)).mapError .mask
  return ⟨mask, a.topk.map fun topk =>
    (topk.1.take (topk.1.length - n), topk.2.take (topk.2.length - n))⟩

end InlineMask

namespace InlineArrays

/-- Both samples carry a field, or neither. -/
def zipField {α : Type} (a b : Option α) (combine : α → α → Except StoreError α) :
    Except StoreError (Option α) :=
  match a, b with
  | some a, some b => some <$> combine a b
  | none, none => .ok none
  | _, _ => .error .fieldsDiffer

/-- A forward field of the arrays. -/
def forward (a : InlineArrays) : ForwardField → Option ForwardRows
  | .routedExperts => a.routedExperts
  | .indexerTopk => a.indexerTopk

/-- A forward field of a response: nothing unless it was requested. -/
def forwardOf (indexerStreams : Option Nat) (r : Response) (field : ForwardField) :
    Except StoreError (Option ForwardRows) :=
  if r.requested (.forward field) then some <$> ForwardRows.ofResponse field indexerStreams r
  else pure none

/-- The mask of a response: nothing unless it was requested. -/
def maskOf (k : Nat) (r : Response) : Except StoreError (Option InlineMask) :=
  if r.requested .samplingMask then some <$> InlineMask.ofResponse k r else pure none

/-- The arrays of one response. -/
def ofResponse (k : Nat) (indexerStreams : Option Nat) (r : Response) :
    Except StoreError InlineArrays := do
  let routedExperts ← forwardOf indexerStreams r .routedExperts
  let indexerTopk ← forwardOf indexerStreams r .indexerTopk
  let samplingMask ← maskOf k r
  return ⟨r.outputTokens, routedExperts, indexerTopk, samplingMask⟩

/-- A later response of the same sample. -/
def append (a new : InlineArrays) : Except StoreError InlineArrays := do
  let routedExperts ←
    zipField a.routedExperts new.routedExperts (ForwardRows.append .routedExperts)
  let indexerTopk ← zipField a.indexerTopk new.indexerTopk (ForwardRows.append .indexerTopk)
  let samplingMask ←
    zipField a.samplingMask new.samplingMask (InlineMask.append a.responseTokens.length)
  return ⟨a.responseTokens ++ new.responseTokens, routedExperts, indexerTopk, samplingMask⟩

/-- Tokens the engine did not sample: the next forward covers them. -/
def insert (k : Nat) (a : InlineArrays) (tokenIds : List Int) : Except StoreError InlineArrays := do
  let samplingMask ← a.samplingMask.mapM fun mask =>
    InlineMask.insert a.responseTokens.length k mask tokenIds
  return { a with responseTokens := a.responseTokens ++ tokenIds, samplingMask }

/-- The session's next turn. -/
def merge (k : Nat) (a : InlineArrays) (observation : List Int) (later : InlineArrays) :
    Except StoreError InlineArrays := do
  let routedExperts ←
    zipField a.routedExperts later.routedExperts (ForwardRows.append .routedExperts)
  let indexerTopk ← zipField a.indexerTopk later.indexerTopk (ForwardRows.append .indexerTopk)
  let samplingMask ← zipField a.samplingMask later.samplingMask fun mask laterMask =>
    InlineMask.merge k mask observation laterMask
  return ⟨a.responseTokens ++ observation ++ later.responseTokens, routedExperts, indexerTopk,
    samplingMask⟩

/-- `strip_last_output_tokens`: only output tokens can be stripped. -/
def strip (a : InlineArrays) (n : Nat) : Except StoreError InlineArrays := do
  if n = 0 then return a
  if n > a.responseTokens.length then throw .indexError
  let samplingMask ← a.samplingMask.mapM fun mask =>
    InlineMask.strip a.responseTokens.length mask n
  return ⟨a.responseTokens.take (a.responseTokens.length - n), a.routedExperts.map (·.strip n),
    a.indexerTopk.map (·.strip n), samplingMask⟩

/-- The training columns of the arrays. -/
def columns (a : InlineArrays) : ReplayColumns where
  routedExperts := a.routedExperts.bind (·.array)
  indexerTopk := a.indexerTopk.bind (·.array)
  samplingMask := a.samplingMask.map fun m => ⟨m.mask.ids, m.mask.offsets, m.topk⟩

end InlineArrays

/-- The edits on arrays. -/
def SampleEdits.inlineArrays (k : Nat) (indexerStreams : Option Nat) :
    SampleEdits → Except StoreError InlineArrays
  | .response r => InlineArrays.ofResponse k indexerStreams r
  | .append edits r => do
    let arrays ← edits.inlineArrays k indexerStreams
    let new ← InlineArrays.ofResponse k indexerStreams r
    arrays.append new
  | .insert edits tokenIds => do
    let arrays ← edits.inlineArrays k indexerStreams
    arrays.insert k tokenIds
  | .strip edits n => do
    let arrays ← edits.inlineArrays k indexerStreams
    arrays.strip n
  | .merge edits observation later => do
    let arrays ← edits.inlineArrays k indexerStreams
    let laterArrays ← later.inlineArrays k indexerStreams
    arrays.merge k observation laterArrays

end Miles.Rollout
