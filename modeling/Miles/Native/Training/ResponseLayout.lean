import Miles.ForStd.PyDict
import Miles.ForStd.Ragged
import Miles.Native.Training.ContextParallel
import Mathlib.Algebra.Field.Defs

/-!
# Response layouts

Pure Lean model of `PackedSlices` and `PaddedRows`, of `_iter_response_chunks`,
`get_sum_of_sample_mean` and `compute_ess_ratio_contribution`, for a thd micro-batch without context
parallelism. A row tensor is the list of its rows, which may be anything; the numbers that are
reduced are exact. Dtypes, devices and copies to the host are left out.
-/

namespace Miles.ResponseLayout

open ContextParallel PyList
open Ragged (split oddItems scatter indexAdd)

variable {α β τ L S K : Type}

/-- What the layouts read of a micro-batch; a list of it has one entry for each sample. -/
structure RolloutBatch (τ K : Type) where
  unconcatTokens : List (List τ)
  totalLengths : List Nat
  responseLengths : List Nat
  lossMasks : List (List K)
  rolloutMaskSums : Option (List K)
  cuSeqlensHost : List Nat

/-- `cu_seqlens_host`, as `get_batch` fills it: the padding is an entry of its own. -/
def cuSeqlensHost (lengths : List Nat) (pad : Nat) : List Nat :=
  let cuSeqlens := lengths.scanl (· + ·) 0
  if pad ≠ 0 then cuSeqlens ++ [lengths.sum + pad] else cuSeqlens

/-- `fn(chunk logits, targets, per-row side input)`: named per-row results -/
abbrev RowFn (L τ S β : Type) := List L → List τ → Option (List S) → PyDict String (List β)

/-- `side(sample index, positions of its rows in the response)` -/
abbrev SideFn (S : Type) := Nat → List Int → List S

/-! ## Reductions -/

section
variable [Field K] [LinearOrder K]

/-- `(x_i * loss_mask_i).sum()` -/
def maskedSum (x mask : List K) : K := (List.zipWith (· * ·) x mask).sum

/-- `get_sum_of_sample_mean` without context parallelism -/
def getSumOfSampleMean (responseLengths : List Nat) (lossMasks : List (List K))
    (calculatePerTokenLoss : Bool) (denominators : Option (List K)) (x : List K) : K :=
  let denominators := denominators.getD (lossMasks.map List.sum)
  if calculatePerTokenLoss then
    (List.zipWith maskedSum (split x responseLengths) lossMasks).sum
  else
    (List.zipWith (fun sum denominator => sum / max denominator 1)
      (List.zipWith maskedSum (split x responseLengths) lossMasks) denominators).sum

/-- `1e-8` -/
def epsilon : K := 1 / 10 ^ 8

/-- `(sum_w * sum_w) / (num_valid_tokens * torch.clamp_min(sum_w2, 1e-8))` -/
def essRatioOf (sumW sumW2 numValid : K) : K := sumW * sumW / (numValid * max sumW2 epsilon)

/-- `compute_ess_ratio_contribution` without context parallelism; `safeExpNegPpoKl` is
    `_safe_exp_neg_ppo_kl`. -/
def computeEssRatioContribution (safeExpNegPpoKl : K → K) (ppoKl : List K)
    (lossMasks : List (List K)) (calculatePerTokenLoss : Bool) : K :=
  let isWeightsPerSample := split (ppoKl.map safeExpNegPpoKl) (lossMasks.map List.length)
  (List.zipWith (fun weights mask =>
    let maskedWeights := List.zipWith (· * ·) weights mask
    let numValidTokens := max mask.sum 1
    let essRatio := essRatioOf maskedWeights.sum
      (List.zipWith (· * ·) maskedWeights maskedWeights).sum numValidTokens
    if calculatePerTokenLoss then essRatio * numValidTokens else essRatio)
    isWeightsPerSample lossMasks).sum

end

/-! ## The chunks of the packed logits -/

/-- The sizes that the logits are split into: those of what lies between the responses, and those of
    the responses. -/
def splitSizes (numRows previousEnd : Int) :
    List (LocalResponseRows τ) → Except LayoutError (List Int)
  | [] => .ok [numRows - previousEnd]
  | rows :: layout =>
    match rows.rowRanges with
    | [(start, stop)] => do
      let sizes ← splitSizes numRows stop layout
      return (start - previousEnd) :: (stop - start) :: sizes
    | _ => .error .rowRange

/-- The logits, the tokens and the response indices of one sample -/
structure ResponseChunk (L τ : Type) where
  logits : List L
  tokens : List τ
  responseIndices : List Int

/-- `_iter_response_chunks` -/
def iterResponseChunks (logits : List L) (batch : RolloutBatch τ K)
    (includeResponseIndices : Bool) : Except LayoutError (List (ResponseChunk L τ)) := do
  let config : RowsConfig := {
    numRows := logits.length
    qkvFormat := .thd
    allgatherCp := false
    maxSeqLens := none
    includeResponseIndices
    cp := ⟨0, 1⟩ }
  let layout ← iterLocalResponseRows config batch.unconcatTokens batch.totalLengths
    batch.responseLengths
  let sizes ← splitSizes logits.length 0 layout
  check (∀ size ∈ sizes, 0 ≤ size) .rowRange
  let responseLogits := oddItems (split logits (sizes.map Int.toNat))
  return List.zipWith (fun chunk rows => ⟨chunk, rows.tokens, rows.responseIndices⟩)
    responseLogits layout

/-! ## `PackedSlices` -/

structure PackedSlices (τ K : Type) where
  batch : RolloutBatch τ K
  calculatePerTokenLoss : Bool
  dispatcherSumOfSampleMean : Option (List K → K)

namespace PackedSlices
variable (p : PackedSlices τ K)

def localLossMasks : List (List K) := p.batch.lossMasks

def rows (_ : PackedSlices τ K) (perSample : List (List α)) : List α := perSample.flatten

def perSample (rows : List α) : List (List α) := split rows (p.localLossMasks.map List.length)

def lossMasks : List K := p.localLossMasks.flatten

/-- `results.setdefault(key, []).append(value)`, concatenated -/
def extend (results out : PyDict String (List β)) : PyDict String (List β) :=
  out.items.foldl (fun results x => results.set x.1 (results.getD x.1 [] ++ x.2)) results

def mapLogitRows (logits : List L) (fn : RowFn L τ S β) (side : Option (SideFn S)) :
    Except LayoutError (PyDict String (List β)) := do
  let chunks ← iterResponseChunks logits p.batch side.isSome
  return chunks.zipIdx.foldl (fun results x =>
    let extra := side.map fun side => side x.2 x.1.responseIndices
    extend results (fn x.1.logits x.1.tokens extra)) PyDict.empty

/-- The logit rows that `score` scores, each with its target, by sample -/
def scored (logits : List L) : Except LayoutError (List (List (L × τ))) := do
  let chunks ← iterResponseChunks logits p.batch false
  return chunks.map fun chunk => chunk.logits.zip chunk.tokens

variable [Field K] [LinearOrder K]

def reducer (lossMasks : List (List K)) : List K → K :=
  getSumOfSampleMean p.batch.responseLengths lossMasks p.calculatePerTokenLoss
    p.batch.rolloutMaskSums

def sumOfSampleMean : List K → K :=
  p.dispatcherSumOfSampleMean.getD (p.reducer p.batch.lossMasks)

def essRatio (safeExpNegPpoKl : K → K) (ppoKl : List K) : K :=
  computeEssRatioContribution safeExpNegPpoKl ppoKl p.batch.lossMasks p.calculatePerTokenLoss

end PackedSlices

/-! ## `PaddedRows` -/

inductive BuildError where
  /-- `{ends[-1]} packed tokens do not fit {num_rows} logit rows` -/
  | doesNotFit
  /-- not one end for each sample -/
  | lengths
  /-- `the first sample of a microbatch needs at least one prompt token` -/
  | noPrompt
  deriving DecidableEq, Repr

structure PaddedRows (τ K : Type) where
  batch : RolloutBatch τ K
  calculatePerTokenLoss : Bool
  /-- the row of every response token, in sample order -/
  rowIndex : List Int
  responseLengths : List Nat
  numRows : Nat

namespace PaddedRows

def build (calculatePerTokenLoss : Bool) (batch : RolloutBatch τ K) (logits : List L) :
    Except BuildError (PaddedRows τ K) :=
  let responseLengths := batch.responseLengths
  let numRows := logits.length
  -- the packer's sample ends; a trailing entry, when present, closes the microbatch's padding
  let ends := (batch.cuSeqlensHost.drop 1).take responseLengths.length
  if ∃ last ∈ ends.getLast?, numRows < last then .error .doesNotFit
  else if ends.length ≠ responseLengths.length then .error .lengths
  else
    let rowIndex := (ends.zip responseLengths).flatMap fun x =>
      PyList.range (x.1 - x.2 - 1) (x.1 - 1)
    if ∃ row ∈ rowIndex.head?, row < 0 then .error .noPrompt
    else .ok { batch, calculatePerTokenLoss, rowIndex, responseLengths, numRows }

variable (p : PaddedRows τ K)

/-- A negative row counts from the end. -/
def index : List Nat :=
  p.rowIndex.map fun row : Int => if row < 0 then (row + p.numRows).toNat else row.toNat

def rows (perSample : List (List α)) (fill : α) : List α :=
  scatter p.index perSample.flatten (List.replicate p.numRows fill)

/-- An index out of bounds is an error. -/
def perSample (rows : List α) : Option (List (List α)) :=
  (p.index.mapM fun i => rows[i]?).map fun values => split values p.responseLengths

def rowsAtPositions (side : SideFn S) (fill : S) : List S :=
  p.rows (p.responseLengths.zipIdx.map fun x => side x.2 (PyList.range 0 x.1)) fill

/-- The token each row predicts; `pad` is the token 0. -/
def targets (pad : τ) : List τ :=
  p.rows (List.zipWith (fun (tokens : List τ) (length : Nat) =>
    slice tokens (tokens.length - length : Int) tokens.length)
    p.batch.unconcatTokens p.responseLengths) pad

def mapLogitRows (pad : τ) (logits : List L) (fn : RowFn L τ S β) (side : Option (SideFn S))
    (sideFill : S) : PyDict String (List β) :=
  let extra := side.map fun side => p.rowsAtPositions side sideFill
  fn logits (p.targets pad) extra

/-- The logit rows that `score` scores, each with its target -/
def scored (pad : τ) (logits : List L) : List (L × τ) := logits.zip (p.targets pad)

variable [Field K] [LinearOrder K]

def lossMasks : List K := p.rows p.batch.lossMasks 0

/-- `_mean_denominators` -/
def meanDenominators (lossMasks : List (List K)) : List K :=
  if p.calculatePerTokenLoss then List.replicate p.numRows 1
  else
    let denominators := p.batch.rolloutMaskSums.getD (lossMasks.map List.sum)
    p.rows (List.zipWith (fun denominator length => List.replicate length (max denominator 1))
      denominators p.responseLengths) 1

/-- `(x * masks / denominators).sum()` -/
def reduceRows (masks denominators x : List K) : K :=
  (List.zipWith (· / ·) (List.zipWith (· * ·) x masks) denominators).sum

def sumOfSampleMean (x : List K) : K :=
  reduceRows p.lossMasks (p.meanDenominators p.batch.lossMasks) x

def reducer (lossMasks : List (List K)) (x : List K) : K :=
  reduceRows (p.rows lossMasks 0) (p.meanDenominators lossMasks) x

def essRatio (safeExpNegPpoKl : K → K) (ppoKl : List K) : K :=
  let sampleIds := p.rows (p.responseLengths.zipIdx.map fun x => List.replicate x.1 x.2) 0
  let numValid := p.batch.lossMasks.map (fun mask => max mask.sum 1) ++
    (List.replicate p.numRows 1).drop p.responseLengths.length
  let isWeights := List.zipWith (· * ·) (ppoKl.map safeExpNegPpoKl) p.lossMasks
  let zeros := List.replicate isWeights.length 0
  let sumW := indexAdd sampleIds isWeights zeros
  let sumW2 := indexAdd sampleIds (List.zipWith (· * ·) isWeights isWeights) zeros
  let essRatio := List.zipWith (fun sums numValid => essRatioOf sums.1 sums.2 numValid)
    (sumW.zip sumW2) numValid
  if p.calculatePerTokenLoss then (List.zipWith (· * ·) essRatio numValid).sum
  else essRatio.sum

end PaddedRows

end Miles.ResponseLayout
