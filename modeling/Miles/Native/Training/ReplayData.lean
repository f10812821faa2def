import Miles.Native.Training.TrainBatch

/-!
# Replay data

Model of `fill_replay_data` (`miles/backends/training_utils/replay/data.py`) on one micro-batch:
the rows it registers for the replay of the rollout's routing.
-/

namespace Miles.ContextParallel

open PyList

variable {α : Type}

/-- What `fill_replay_data` raises on a micro-batch. -/
inductive ReplayError where
  | layout (error : LayoutError)
  /-- `len(replay_data)` is not `len(tokens)` -/
  | sampleCount
  /-- `a.shape[0]` is not `b.shape[0] - 1` -/
  | rowCount
  /-- a padding of a negative size -/
  | negativeSize
  /-- `torch.stack` of tensors of different sizes -/
  | stack
  /-- the rows do not divide by `tp_size` -/
  | splitLength
  deriving DecidableEq, Repr

/-- The row of a token: its `topk` entries for each stream. -/
abbrev ReplayRow := List (List Int)

/-- What `fill_replay_data` reads of `args`, and its options. -/
structure ReplayConfig where
  qkvFormat : QkvFormat
  allgatherCp : Bool
  dataPadSizeMultiplier : Nat
  /-- `args.train_backend == "megatron"` -/
  megatron : Bool
  sequenceParallel : Bool
  ifSpRegion : Bool
  indicesAreTokenPositions : Bool
  sequenceFirst : Bool
  /-- the shape of a row -/
  numLayers : Nat
  topk : Nat
  deriving DecidableEq, Repr

/-- `parallel_state.tp` -/
structure TpState where
  rank : Nat
  size : Nat
  deriving DecidableEq, Repr

/-- A row of `-1`. -/
def padRow (numLayers topk : Nat) : ReplayRow :=
  List.replicate numLayers (List.replicate topk (-1))

/-- `pad_func` -/
def padFunc (padRow : α) (data : List α) (pad : Int) : Except ReplayError (List α) :=
  if pad < 0 then .error .negativeSize else .ok (data ++ List.replicate pad.toNat padRow)

/-- `slice_with_cp` with a padding function. -/
def sliceWithCpBy (padFunc : List α → Int → Except ReplayError (List α)) (tokens : List α)
    (qkvFormat : QkvFormat) (maxSeqLen : Nat) (cp : CpState) : Except ReplayError (List α) := do
  if cp.size = 1 then
    match qkvFormat with
    | .bshd => padFunc tokens (maxSeqLen - tokens.length)
    | .thd => return tokens
  else
    let chunk := match qkvFormat with
      | .thd => chunkSize tokens.length cp.size
      | .bshd => chunkSize maxSeqLen cp.size
    let padded ← padFunc tokens (2 * cp.size * chunk - tokens.length)
    return slice padded (chunk * cp.rank) (chunk * (cp.rank + 1)) ++
      slice padded (chunk * (2 * cp.size - cp.rank - 1)) (chunk * (2 * cp.size - cp.rank))

/-- `transpose(0, 1)` of a `[B, S]` tensor, flattened. -/
def transposeFlat (rows : List (List α)) (seqlen : Nat) : List α :=
  (List.range seqlen).flatMap fun s => rows.filterMap (·[s]?)

/-- `torch.where(r != -1, r + offset, r)` -/
def shiftRow (offset : Nat) (row : ReplayRow) : ReplayRow :=
  row.map (·.map fun e => if e ≠ -1 then e + offset else e)

/-- The loop that maps indices to thd format. -/
def mapIndices (offset : Nat) : List (List ReplayRow) → List (List ReplayRow)
  | [] => []
  | r :: rs => r.map (shiftRow offset) :: mapIndices (offset + r.length) rs

/-- The rows of a bshd micro-batch. -/
def fillReplayBshd (cfg : ReplayConfig) (replayData : List (List ReplayRow))
    (maxSeqLens : Option (List Nat)) (cp : CpState) : Except ReplayError (List ReplayRow) := do
  let pad := padFunc (padRow cfg.numLayers cfg.topk)
  let some (maxSeqlen :: _) := maxSeqLens | throw (.layout .noMaxSeqLen)
  let rows ←
    if cfg.allgatherCp ∧ 1 < cp.size then do
      (check (maxSeqlen % cp.size = 0) .notDivisible).mapError .layout
      let localLen := maxSeqlen / cp.size
      let start := cp.rank * localLen
      replayData.mapM fun r => do
        return slice (← pad r (maxSeqlen - r.length)) start (start + localLen : Nat)
    else replayData.mapM fun r => sliceWithCpBy pad r .bshd maxSeqlen cp
  if ¬ SameLength rows then throw .stack
  if cfg.sequenceFirst then return transposeFlat rows (rows.headD []).length
  return rows.flatten

/-- The rows of a thd micro-batch. -/
def fillReplayThd (cfg : ReplayConfig) (replayData : List (List ReplayRow)) (cp : CpState)
    (tp : TpState) : Except ReplayError (List ReplayRow) := do
  let pad := padFunc (padRow cfg.numLayers cfg.topk)
  let padSize := tp.size * cfg.dataPadSizeMultiplier
  if cfg.allgatherCp ∧ 1 < cp.size then
    let stream := replayData.flatten
    let globalPadSize := cp.size * padSize
    let padLen := (globalPadSize - stream.length % globalPadSize) % globalPadSize
    let stream ← pad stream padLen
    return chunkAt stream cp.size cp.rank
  else
    let rows ← replayData.mapM fun r => sliceWithCpBy pad r .thd 0 cp
    let rows := if cfg.indicesAreTokenPositions then mapIndices 0 rows else rows
    let stream := rows.flatten
    let padLen := (padSize - stream.length % padSize) % padSize
    pad stream padLen

/-- The rows of a micro-batch on a context-parallel rank. -/
def fillReplayLayout (cfg : ReplayConfig) (replayData : List (List ReplayRow))
    (maxSeqLens : Option (List Nat)) (cp : CpState) (tp : TpState) :
    Except ReplayError (List ReplayRow) :=
  match cfg.qkvFormat with
  | .bshd => fillReplayBshd cfg replayData maxSeqLens cp
  | .thd => fillReplayThd cfg replayData cp tp

/-- Whether the rows are split over the tensor-parallel ranks. -/
def ReplayConfig.splits (cfg : ReplayConfig) : Prop :=
  cfg.megatron ∧ cfg.sequenceParallel ∧ cfg.ifSpRegion

instance (cfg : ReplayConfig) : Decidable cfg.splits := by
  unfold ReplayConfig.splits
  infer_instance

/-- The rows `fill_replay_data` registers for a micro-batch. -/
def fillReplayData (cfg : ReplayConfig) (replayData : List (List ReplayRow))
    (tokens : List (List Int)) (maxSeqLens : Option (List Nat)) (cp : CpState) (tp : TpState) :
    Except ReplayError (List ReplayRow) := do
  if replayData.length ≠ tokens.length then throw .sampleCount
  if ¬ ∀ x ∈ replayData.zip tokens, (x.1.length : Int) = x.2.length - 1 then throw .rowCount
  -- one padding row for the last token, which is masked from the loss
  let replayData ← replayData.mapM fun r => padFunc (padRow cfg.numLayers cfg.topk) r 1
  let rows ← fillReplayLayout cfg replayData maxSeqLens cp tp
  if cfg.splits then
    let seqlen := rows.length
    if seqlen % tp.size ≠ 0 then throw .splitLength
    return slice rows (seqlen / tp.size * tp.rank : Nat) (seqlen / tp.size * (tp.rank + 1) : Nat)
  return rows

end Miles.ContextParallel
