import Miles.ForStd.Csr

/-!
# Sampling masks

Model of `miles/utils/sampling_mask.py` and of the per-sample edits of
`rollout/generate_utils/sampling_mask.py` and `rollout_topk_logprobs.py`: the support each
response token was sampled from, in compressed rows, and the top-k candidates read from it
when the sampler runs in support mode.

Log-probabilities are the bits of a `float32`; the code only copies them.
-/

namespace Miles.Rollout

/-- The bits of a `float32` log-probability. -/
abbrev Float32Bits : Type := BitVec 32

/-- `-np.inf` -/
def negInf : Float32Bits := 0xFF800000

/-- The `ValueError`s of the sampling mask and of its edits. -/
inductive MaskError where
  /-- offsets must start at zero and end at the flattened id count -/
  | offsetBounds
  /-- offsets must be strictly increasing -/
  | offsetOrder
  | prefixLength (length rows : Nat)
  /-- as many supports as tokens -/
  | supportCount (supports tokens : Nat)
  | emptySupport
  | sampledTokenAbsent (token : Int)
  /-- support log-probs must align with the sampling support -/
  | logprobsUnaligned
  | sampledTokenRepeated
  | supportExceedsTopk
  /-- the mask is not aligned with `response_length` before appending -/
  | misaligned (rows responseLength : Nat)
  deriving DecidableEq, Repr

/-- `RolloutSamplingMask`: supports concatenated in `ids`, the support of token `t` being
    `ids[offsets[t] : offsets[t + 1]]`, never empty. -/
structure RolloutSamplingMask where
  ids : List Int
  offsets : List Nat
  starts : offsets.head? = some 0
  ends : offsets.getLast? = some ids.length
  increasing : offsets.IsChain (· < ·)
  deriving DecidableEq

namespace RolloutSamplingMask

/-- The constructor, with the checks of `__post_init__`. -/
def ofArrays (ids : List Int) (offsets : List Nat) : Except MaskError RolloutSamplingMask :=
  if hbounds : offsets.head? = some 0 ∧ offsets.getLast? = some ids.length then
    if hincreasing : offsets.IsChain (· < ·) then
      .ok ⟨ids, offsets, hbounds.1, hbounds.2, hincreasing⟩
    else .error .offsetOrder
  else .error .offsetBounds

/-- `from_mask_list` -/
def fromMaskList (maskList : List (List Int)) : Except MaskError RolloutSamplingMask :=
  ofArrays maskList.flatten (Csr.offsets (maskList.map List.length))

/-- The offsets of masks joined after `idCount` entries. -/
def shiftedOffsets (idCount : Nat) : List RolloutSamplingMask → List Nat
  | [] => []
  | mask :: masks =>
    mask.offsets.tail.map (idCount + ·) ++ shiftedOffsets (idCount + mask.ids.length) masks

/-- `concatenate` -/
def concatenate : List RolloutSamplingMask → Except MaskError RolloutSamplingMask
  | [] => ofArrays [] [0]
  | [mask] => .ok mask
  | masks => ofArrays (masks.flatMap (·.ids)) (0 :: shiftedOffsets 0 masks)

/-- `len(mask)` -/
def length (mask : RolloutSamplingMask) : Nat := mask.offsets.length - 1

/-- `prefix`: the supports of the first `responseLength` tokens. -/
def prefixMask (mask : RolloutSamplingMask) (responseLength : Nat) :
    Except MaskError RolloutSamplingMask :=
  if responseLength > mask.length then .error (.prefixLength responseLength mask.length)
  else if responseLength = mask.length then .ok mask
  else
    let idCount := mask.offsets.getD responseLength 0
    ofArrays (mask.ids.take idCount) (mask.offsets.take (responseLength + 1))

end RolloutSamplingMask

/-- `_sampling_mask_from_supports` -/
def samplingMaskFromSupports (tokenIds : List Int) (supports : List (List Int)) :
    Except MaskError RolloutSamplingMask := do
  if tokenIds.length ≠ supports.length then
    throw (.supportCount supports.length tokenIds.length)
  (tokenIds.zip supports).forM fun (tokenId, support) => do
    if support = [] then throw .emptySupport
    if tokenId ∉ support then throw (.sampledTokenAbsent tokenId)
  RolloutSamplingMask.fromMaskList supports

/-- The support-mode checks of `append_sampling_metadata`: log-probs aligned with each
    support, which holds its sampled token exactly once. -/
def checkSupportLogprobs (outputTokenIds : List Int) (supports : List (List Int))
    (logProbs : List (List Float32Bits)) : Except MaskError Unit := do
  if logProbs.length ≠ outputTokenIds.length then throw .logprobsUnaligned
  ((outputTokenIds.zip supports).zip logProbs).forM fun ((tokenId, support), row) => do
    if row.length ≠ support.length then throw .logprobsUnaligned
    if support.count tokenId ≠ 1 then throw .sampledTokenRepeated

/-- The candidate arrays `append_rollout_topk_logprobs` appends in support mode: one row of
    `k` slots a token, the unused ones holding `-1` and `-inf`. -/
def supportCandidates (k : Nat) (supports : List (List Int)) (logProbs : List (List Float32Bits)) :
    Except MaskError (List (List Int) × List (List Float32Bits)) := do
  logProbs.forM fun row => if row.length > k then throw .supportExceedsTopk else pure ()
  return (supports.map (Csr.pad (-1) k), logProbs.map (Csr.pad negInf k))

/-- `append_forced_sampling_tokens`: the singleton supports of inserted tokens. -/
def forcedSamplingMask (tokenIds : List Int) : Except MaskError RolloutSamplingMask :=
  RolloutSamplingMask.fromMaskList (tokenIds.map fun tokenId => [tokenId])

/-- `_append_sampling_mask` on a sample that has a mask. -/
def appendSamplingMask (responseLength : Nat) (mask new : RolloutSamplingMask) :
    Except MaskError RolloutSamplingMask :=
  if mask.length ≠ responseLength then .error (.misaligned mask.length responseLength)
  else RolloutSamplingMask.concatenate [mask, new]

end Miles.Rollout
