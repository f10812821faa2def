import Miles.Native.Training.CpGather

/-!
# Generalized advantage estimation

Model of `vanilla_gae`, `chunked_gae` and `get_advantages_and_returns_batch` in
`miles/backends/training_utils/loss/hub/math_utils.py`, over an arbitrary commutative ring in the
place of the floating-point numbers.

A matrix is the list of its rows, which do not depend on one another.  The lists of the batch that
run over the samples are one list of samples, so that the assertions on their lengths hold.
-/

namespace Miles.Gae

open Miles.ContextParallel

variable {R : Type} [CommRing R] [DecidableEq R]

/-! ## The recursion -/

/-- The loop of `vanilla_gae` over one row: the last state and the reversed advantages. -/
def vanillaStep (rewards values : List R) (gamma lambd : R) (state : R × List R) (t : Nat) :
    R × List R :=
  let nextValue := if t < rewards.length - 1 then values.getD (t + 1) 0 else 0
  let delta := rewards.getD t 0 + gamma * nextValue - values.getD t 0
  let lastgaelam := delta + gamma * lambd * state.1
  (lastgaelam, state.2 ++ [lastgaelam])

/-- `vanilla_gae` on one row: advantages and returns. -/
def vanillaGae (rewards values : List R) (gamma lambd : R) : List R × List R :=
  let advRev := ((List.range rewards.length).reverse.foldl
    (vanillaStep rewards values gamma lambd) (0, [])).2
  let advantages := advRev.reverse
  (advantages, List.zipWith (· + ·) advantages values)

/-! ## The chunked scan -/

/-- `M[row, col]`, the scan inside a chunk as a matrix. -/
def scanMatrix (w : R) (row col : Nat) : R :=
  if row ≤ col then
    if w = 0 then (if col - row = 0 then 1 else 0) else w ^ (col - row)
  else 0

/-- `pow_vec[t]` -/
def powVec (w : R) (t : Nat) : R :=
  if w = 0 then 0 else w ^ (t + 1)

/-- A row of `deltas_flat @ M`. -/
def chunkMatmul (w : R) (chunkSize : Nat) (chunk : List R) : List R :=
  (List.range chunkSize).map fun col =>
    ∑ row ∈ Finset.range chunkSize, chunk.getD row 0 * scanMatrix w row col

/-- The loop of `chunked_gae` over the chunks: what is written of `S_rev`, and `s_prev`. -/
def chunkStep (w : R) (chunkSize nChunks pad : Nat) (deltasRev : List R) (state : List R × R)
    (c : Nat) : List R × R :=
  let length := if 0 < pad ∧ c = nChunks - 1 then chunkSize - pad else chunkSize
  let start := c * chunkSize
  let sLocal := (chunkMatmul w chunkSize ((deltasRev.drop start).take chunkSize)).take length
  let sGlobal := sLocal.mapIdx fun t y => y + state.2 * powVec w t
  (state.1.take start ++ sGlobal ++ state.1.drop (start + length), sGlobal.getLastD 0)

/-- `chunked_gae` on one row: advantages and returns. -/
def chunkedGae (rewards values : List R) (gamma lambd : R) (chunkSize : Nat) : List R × List R :=
  let nextValues := values.drop 1 ++ [0]
  let deltas := List.zipWith (· - ·)
    (List.zipWith (fun reward nextValue => reward + gamma * nextValue) rewards nextValues) values
  let w := gamma * lambd
  let pad := if rewards.length % chunkSize ≠ 0 then chunkSize - rewards.length % chunkSize else 0
  let deltasRev := deltas.reverse ++ List.replicate pad 0
  let nChunks := deltasRev.length / chunkSize
  let sRev := ((List.range nChunks).foldl (chunkStep w chunkSize nChunks pad deltasRev)
    (List.replicate deltasRev.length 0, 0)).1
  let sRev := if 0 < pad then sRev.take rewards.length else sRev
  let advantages := sRev.reverse
  (advantages, List.zipWith (· + ·) advantages values)

/-! ## The batch -/

/-- What `get_advantages_and_returns_batch` raises. -/
inductive GaeError where
  /-- `values_list[0]` of an empty batch -/
  | emptyBatch
  /-- `max_seq_lens is required for BSHD with CP` -/
  | noMaxSeqLens
  | gather (error : GatherError)
  /-- a mask position outside the gathered values -/
  | indexError
  deriving DecidableEq, Repr

/-- A sample of the batch.  `values` and `rewards` are its tensors on the ranks of the
    context-parallel group. -/
structure GaeSample (R : Type) where
  totalLength : Nat
  responseLength : Nat
  maxSeqLen : Option Nat
  values : List (List R)
  rewards : List (List R)
  terminalReward : R
  lossMask : List Int

namespace GaeSample

variable (s : GaeSample R)

/-- `max_seq_lens_per_sample` -/
def layoutLen (cpSize : Nat) (qkvFormat : QkvFormat) : Option Nat :=
  if 1 < cpSize ∧ qkvFormat = .bshd then s.maxSeqLen else none

/-- The response of a tensor that is spread over the ranks. -/
def gathered (tensors : List (List R)) (cpSize : Nat) (qkvFormat : QkvFormat) :
    Except GaeError (List R) :=
  if 1 < cpSize then
    (allGatherWithCp tensors s.totalLength s.responseLength qkvFormat
      (s.layoutLen cpSize qkvFormat)).mapError .gather
  else .ok (tensors.headD [])

/-- `loss_mask[:response_length].nonzero()` -/
def trainableIndices : List Nat :=
  (List.range (s.lossMask.take s.responseLength).length).filter fun i =>
    decide ((s.lossMask.take s.responseLength).getD i 0 ≠ 0)

end GaeSample

/-- `tensor[idx]` -/
def pick (tensor : List R) (indices : List Nat) : Except GaeError (List R) :=
  indices.mapM fun i =>
    match tensor[i]? with
    | some x => .ok x
    | none => .error .indexError

/-- The trainable values and rewards of a sample, with the terminal reward at the last of them. -/
def packSample (s : GaeSample R) (cpSize : Nat) (qkvFormat : QkvFormat) :
    Except GaeError (List R × List R) := do
  let fullValues ← s.gathered s.values cpSize qkvFormat
  let fullRewards ← s.gathered s.rewards cpSize qkvFormat
  let values ← pick fullValues s.trainableIndices
  let rewards ← pick fullRewards s.trainableIndices
  return (values, rewards.modify (s.trainableIndices.length - 1) (· + s.terminalReward))

/-- A row of `packed_values` or `packed_rewards`. -/
def padRow (maxLen : Nat) (row : List R) : List R :=
  row ++ List.replicate (maxLen - row.length) 0

/-- `full[idx] = packed[:K]`, over zeros. -/
def scatter (responseLength : Nat) (indices : List Nat) (packed : List R) : List R :=
  (indices.zip packed).foldl (fun full x => full.set x.1 x.2) (List.replicate responseLength 0)

/-- The part of a rank. -/
def localPart (s : GaeSample R) (full : List R) (qkvFormat : QkvFormat) (cp : CpState) :
    Except GaeError (List R) :=
  if 1 < cp.size then
    (sliceLogProbWithCp full s.totalLength s.responseLength qkvFormat
      (s.layoutLen cp.size qkvFormat) cp).mapError .gather
  else .ok full

/-- `get_advantages_and_returns_batch` on one rank: the advantages and the returns of every
    sample. -/
def getAdvantagesAndReturnsBatch (samples : List (GaeSample R)) (qkvFormat : QkvFormat)
    (cp : CpState) (gamma lambd : R) (chunked : Bool) : Except GaeError (List (List R × List R)) := do
  if 1 < cp.size ∧ qkvFormat = .bshd ∧ (∃ s ∈ samples, s.maxSeqLen = none) then
    throw .noMaxSeqLens
  if samples = [] then throw .emptyBatch
  let packed ← samples.mapM fun s => packSample s cp.size qkvFormat
  let maxLen := (samples.map (·.trainableIndices.length)).foldl max 0
  (samples.zip packed).mapM fun (x : GaeSample R × List R × List R) => do
    let values := padRow maxLen x.2.1
    let rewards := padRow maxLen x.2.2
    let (advantages, returns) :=
      if maxLen = 0 then ([], [])
      else if chunked then chunkedGae rewards values gamma lambd 128
      else vanillaGae rewards values gamma lambd
    let indices := x.1.trainableIndices
    let advFull := scatter x.1.responseLength indices (advantages.take indices.length)
    let retFull := scatter x.1.responseLength indices (returns.take indices.length)
    return (← localPart x.1 advFull qkvFormat cp, ← localPart x.1 retFull qkvFormat cp)

end Miles.Gae
