import Miles.Native.Training.ContextParallel

/-!
# Response tensors under context parallelism

Model of the functions of `miles/backends/training_utils/data/context_parallel.py` that split a
response tensor over the ranks of a context-parallel group and put it together again.

A tensor is the list of its entries along the response.  The `all_reduce` of the group is the sum
of what its ranks contribute, entry by entry.
-/

namespace Miles.ContextParallel

open PyList

variable {α : Type}

/-- What splitting and gathering raise. -/
inductive GatherError where
  | layout (error : LayoutError)
  /-- `assert len(log_prob) == response_length` -/
  | notResponse
  /-- `assert chunk_1.shape[0] == logits_offset[1][1] - logits_offset[1][0]` -/
  | chunkShape
  /-- a tensor of a negative size -/
  | negativeSize
  /-- `Expected {response_length}, got {full_tensor.shape}` -/
  | fullShape
  /-- no reassembly needed at `cp_size=1` -/
  | noReassembly
  /-- the ranks that are missing -/
  | missing (ranks : List Nat)
  /-- an assignment of a tensor of another shape -/
  | assignShape
  /-- not all values of a rank are consumed -/
  | consumed (rank taken length : Nat)
  deriving DecidableEq, Repr

/-- `slice_log_prob_with_cp` -/
def sliceLogProbWithCp (logProb : List α) (totalLength responseLength : Nat)
    (qkvFormat : QkvFormat) (maxTokenLen : Option Nat) (cp : CpState) :
    Except GatherError (List α) := do
  if logProb.length ≠ responseLength then throw .notResponse
  if cp.size = 1 then return logProb
  let promptLength : Int := totalLength - responseLength
  let offsets ← (getLogitsAndTokensOffsetWithCp totalLength responseLength qkvFormat maxTokenLen
    cp).mapError .layout
  return slice logProb (offsets.logits.1.1 - (promptLength - 1))
      (offsets.logits.1.2 - (promptLength - 1)) ++
    slice logProb (offsets.logits.2.1 - (promptLength - 1))
      (offsets.logits.2.2 - (promptLength - 1))

/-- `_slice_loss_mask_for_local_cp` -/
def sliceLossMaskForLocalCp (totalLength responseLength : Nat) (lossMask : List α)
    (qkvFormat : QkvFormat) (maxSeqLen : Option Nat) (cp : CpState) :
    Except GatherError (List α) := do
  let promptLength : Int := totalLength - responseLength
  let offsets ← (getLogitsAndTokensOffsetWithCp totalLength responseLength qkvFormat maxSeqLen
    cp).mapError .layout
  return slice lossMask (offsets.tokens.1.1 - promptLength) (offsets.tokens.1.2 - promptLength) ++
    slice lossMask (offsets.tokens.2.1 - promptLength) (offsets.tokens.2.2 - promptLength)

section Gather

variable [Zero α]

/-- `zero(len)` -/
def zeros (len : Int) : Except GatherError (List α) :=
  if len < 0 then .error .negativeSize else .ok (List.replicate len.toNat 0)

/-- What a rank brings to the `all_reduce` of `all_gather_with_cp`: its two chunks, padded to the
    whole response. -/
def paddedForGather (tensor : List α) (totalLength responseLength : Nat) (qkvFormat : QkvFormat)
    (maxSeqLen : Option Nat) (cp : CpState) : Except GatherError (List α) := do
  let offsets ← (getLogitsAndTokensOffsetWithCp totalLength responseLength qkvFormat maxSeqLen
    cp).mapError .layout
  let (logits0, logits1) := offsets.logits
  let promptLength : Int := totalLength - responseLength
  let chunk0 := slice tensor 0 (logits0.2 - logits0.1)
  let chunk1 := slice tensor (logits0.2 - logits0.1) tensor.length
  if (chunk1.length : Int) ≠ logits1.2 - logits1.1 then throw .chunkShape
  let fullTensor ←
    match chunk0.isEmpty, chunk1.isEmpty with
    | true, true => zeros responseLength
    | false, true => do
      let left ← zeros (logits0.1 - (promptLength - 1))
      let right ← zeros (totalLength - 1 - logits0.2)
      pure (left ++ chunk0 ++ right)
    | true, false => do
      let left ← zeros (logits1.1 - (promptLength - 1))
      let right ← zeros (totalLength - 1 - logits1.2)
      pure (left ++ chunk1 ++ right)
    | false, false => do
      let left ← zeros (logits0.1 - (promptLength - 1))
      let mid ← zeros (logits1.1 - logits0.2)
      let right ← zeros (totalLength - 1 - logits1.2)
      pure (left ++ chunk0 ++ mid ++ chunk1 ++ right)
  if fullTensor.length ≠ responseLength then throw .fullShape
  return fullTensor

/-- `all_gather_with_cp` in a group whose rank `i` has the `i`-th tensor; every rank gets the
    same. -/
def allGatherWithCp [Add α] (tensors : List (List α)) (totalLength responseLength : Nat)
    (qkvFormat : QkvFormat) (maxSeqLen : Option Nat) : Except GatherError (List α) :=
  match tensors with
  | [tensor] => .ok tensor
  | tensors => do
    let padded ← tensors.zipIdx.mapM fun x =>
      paddedForGather x.1 totalLength responseLength qkvFormat maxSeqLen ⟨x.2, tensors.length⟩
    return padded.foldl (List.zipWith (· + ·)) (List.replicate responseLength 0)

/-- `out[start:stop] = values`; one value is written everywhere. -/
def assignSlice (out : List α) (start stop : Int) (values : List α) :
    Except GatherError (List α) :=
  let first := clampIndex out.length start
  let width := clampIndex out.length stop - first
  if values.length = width then
    .ok (out.take first ++ values ++ out.drop (first + width))
  else match values with
    | [value] => .ok (out.take first ++ List.replicate width value ++ out.drop (first + width))
    | _ => .error .assignShape

/-- The loop of `assemble_log_prob_from_cp` over one rank's ranges of logits. -/
def writeRanges (promptLength : Int) (chunk : List α) :
    List (Int × Int) → List α × Nat → Except GatherError (List α × Nat)
  | [], state => .ok state
  | (lo, hi) :: ranges, (out, taken) => do
    let start := lo - (promptLength - 1)
    let stop := hi - (promptLength - 1)
    if stop - start ≤ 0 then writeRanges promptLength chunk ranges (out, taken)
    else
      let width := (stop - start).toNat
      let out ← assignSlice out start stop ((chunk.take (taken + width)).drop taken)
      writeRanges promptLength chunk ranges (out, taken + width)

/-- `assemble_log_prob_from_cp`; `chunks` are the items of the dictionary. -/
def assembleLogProbFromCp (chunks : List (Nat × List α)) (totalLength responseLength cpSize : Nat)
    (qkvFormat : QkvFormat) (maxSeqLen : Option Nat) : Except GatherError (List α) := do
  if ¬ 1 < cpSize then throw .noReassembly
  let missing := (List.range cpSize).filter fun rank => rank ∉ chunks.map Prod.fst
  if missing ≠ [] then throw (.missing missing)
  let promptLength : Int := totalLength - responseLength
  chunks.foldlM (fun out (item : Nat × List α) => do
      let offsets ← (getLogitsAndTokensOffsetWithCp totalLength responseLength qkvFormat maxSeqLen
        ⟨item.1, cpSize⟩).mapError .layout
      let (out, taken) ← writeRanges promptLength item.2 [offsets.logits.1, offsets.logits.2]
        (out, 0)
      if taken ≠ item.2.length then throw (.consumed item.1 taken item.2.length)
      return out)
    (List.replicate responseLength 0)

end Gather

end Miles.ContextParallel
