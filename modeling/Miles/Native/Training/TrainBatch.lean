import Miles.Native.Training.ContextParallel

/-!
# Input loss masks

Model of `_prepare_loss_masks` and of the part of `get_batch`
(`miles/backends/training_utils/data/rollout.py`) that packs a micro-batch and its loss masks.
The loss mask of a sample has an entry for each response token; the mask of the batch has one for
each token.
-/

namespace Miles.ContextParallel

open PyList

variable {α : Type}

/-- What packing a micro-batch raises. -/
inductive BatchError where
  | layout (error : LayoutError)
  /-- `torch.stack` of tensors of different sizes -/
  | stack
  /-- `input_loss_masks.shape` is not `tokens.shape` -/
  | maskShape
  deriving DecidableEq, Repr

/-- A sample of a micro-batch.  The rollout gives a mask entry to each response token and counts
    the tokens of the whole sample. -/
structure TrainSample where
  tokens : List Int
  lossMask : List Int
  totalLength : Nat
  responseLength : Nat
  total_eq : totalLength = tokens.length
  response_le : responseLength ≤ totalLength
  mask_length : lossMask.length = responseLength
  deriving DecidableEq

/-- `F.pad` in front; a negative amount crops. -/
def padFront (xs : List α) (amount : Int) (pad : α) : List α :=
  if amount < 0 then xs.drop (-amount).toNat
  else List.replicate amount.toNat pad ++ xs

/-- The sizes `torch.stack` accepts. -/
def SameLength (rows : List (List α)) : Prop :=
  ∀ row ∈ rows, ∀ other ∈ rows, row.length = other.length

instance (rows : List (List α)) : Decidable (SameLength rows) := by
  unfold SameLength
  infer_instance

/-- `_prepare_loss_masks`, flattened.  A sample is its mask, its total length and its response
    length; the columns of a batch have one entry for each sample. -/
def prepareLossMasks (samples : List (List Int × Nat × Nat)) (qkvFormat : QkvFormat)
    (maxSeqlen pad : Nat) (allgatherCp : Bool) (cp : CpState) : Except BatchError (List Int) := do
  let alignedMasks := samples.map fun s =>
    let promptLength : Int := s.2.1 - s.2.2
    let lossMask := padFront s.1 promptLength 0
    if allgatherCp then lossMask else sliceWithCp lossMask 0 qkvFormat maxSeqlen cp
  match qkvFormat with
  | .bshd =>
    let localLen := maxSeqlen / cp.size
    let start := cp.rank * localLen
    let alignedMasks :=
      if allgatherCp then
        alignedMasks.map fun mask =>
          slice (padEnd mask (maxSeqlen - mask.length) 0) start (start + localLen : Nat)
      else alignedMasks
    if ¬ SameLength alignedMasks then throw .stack
    return alignedMasks.flatten
  | .thd =>
    let lossMask := padEnd alignedMasks.flatten pad 0
    if allgatherCp then return chunkAt lossMask cp.size cp.rank
    return lossMask

/-- `pad` and `max_seqlen` of `get_batch`, which it passes to `_prepare_loss_masks`. -/
def packing (tokens : List (List α)) (pad : α) (padSize : Nat) (qkvFormat : QkvFormat)
    (maxSeqLens : Option (List Nat)) (allgatherCp : Bool) (cp : CpState) : Nat × Nat :=
  match qkvFormat with
  | .bshd => (0, (maxSeqLens.getD []).headD 0)
  | .thd =>
    let lengths := tokens.map fun t =>
      if allgatherCp then t.length else (sliceWithCp t pad .thd 0 cp).length
    let multiple := if allgatherCp then cp.size * padSize else padSize
    let padLen := (multiple - lengths.sum % multiple) % multiple
    -- the largest gap of `cu_seqlens`, which counts the padding as one more sample
    let gaps := if padLen = 0 then lengths else lengths ++ [padLen]
    (padLen, gaps.foldl max 0 * if allgatherCp then 1 else cp.size)

/-- The tensors of `get_batch` for the model. -/
structure TrainBatch where
  tokens : List Int
  inputLossMasks : List Int
  deriving DecidableEq, Repr

/-- `pad_token_id` -/
def padTokenId : Int := 0

/-- `get_batch`: the local tokens and their loss mask. -/
def getTrainBatch (samples : List TrainSample) (padSize : Nat) (qkvFormat : QkvFormat)
    (maxSeqLens : Option (List Nat)) (allgatherCp : Bool) (cp : CpState) :
    Except BatchError TrainBatch := do
  let unconcatTokens := samples.map (·.tokens)
  let tokens ← (getBatch unconcatTokens padTokenId padSize qkvFormat maxSeqLens allgatherCp
    cp).mapError .layout
  let (pad, maxSeqlen) := packing unconcatTokens padTokenId padSize qkvFormat maxSeqLens
    allgatherCp cp
  let inputLossMasks ← prepareLossMasks
    (samples.map fun s => (s.lossMask, s.totalLength, s.responseLength)) qkvFormat maxSeqlen pad
    allgatherCp cp
  -- a bshd mask has a row for each sample, so its shape is determined by its size
  if inputLossMasks.length ≠ tokens.length then throw .maskShape
  return { tokens, inputLossMasks }

end Miles.ContextParallel
