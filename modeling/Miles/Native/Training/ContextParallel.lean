import Miles.ForStd.PyList

/-!
# Context-parallel layouts

Model of `miles/backends/training_utils/data/context_parallel.py` and of the token layout
of `get_batch` (`data/rollout.py`).  A tensor of tokens is a list; a bshd batch
`[B, S]` is the list of its rows one after the other, which is how its logits are
flattened to `[num_rows, V]`.

Offsets are integers, as in the source, and a slice with a negative bound counts from the
end.  The token type is arbitrary: the layouts only move tokens and append `pad`.
-/

namespace Miles.ContextParallel

open PyList

variable {α : Type}

/-- `qkv_format` -/
inductive QkvFormat where
  | thd | bshd
  deriving DecidableEq, Repr

/-- `parallel_state.cp` -/
structure CpState where
  rank : Nat
  size : Nat
  deriving DecidableEq, Repr

/-- The assertions of the layout code. -/
inductive LayoutError where
  /-- `cp_size > 1` -/
  | cpSize
  /-- `max_seq_len` must be provided for bshd -/
  | noMaxSeqLen
  /-- a sample is longer than `max_seqlen` -/
  | sampleTooLong
  /-- `max_seqlen` is not divisible by `cp_size` -/
  | notDivisible
  /-- a batch without samples -/
  | emptyBatch
  /-- a row range outside the logits -/
  | rowRange
  /-- not one token for each row -/
  | tokenCount
  /-- not one response index for each row -/
  | indexCount
  deriving DecidableEq, Repr

/-- `assert` -/
def check (p : Prop) [Decidable p] (e : LayoutError) : Except LayoutError Unit :=
  if p then .ok () else .error e

/-! ## The token layout of `get_batch` -/

/-- `F.pad` at the end; a negative amount crops. -/
def padEnd (xs : List α) (amount : Int) (pad : α) : List α :=
  if amount < 0 then xs.take (xs.length + amount).toNat
  else xs ++ List.replicate amount.toNat pad

/-- The length of one of the `2 * cp_size` zigzag chunks. -/
def chunkSize (length cpSize : Int) : Int :=
  (length + 2 * cpSize - 1) / (2 * cpSize)

/-- `slice_with_cp` with a constant pad value. -/
def sliceWithCp (tokens : List α) (pad : α) (qkvFormat : QkvFormat) (maxSeqLen : Nat)
    (cp : CpState) : List α :=
  if cp.size = 1 then
    match qkvFormat with
    | .bshd => padEnd tokens (maxSeqLen - tokens.length) pad
    | .thd => tokens
  else
    let chunk := match qkvFormat with
      | .thd => chunkSize tokens.length cp.size
      | .bshd => chunkSize maxSeqLen cp.size
    let padded := padEnd tokens (2 * cp.size * chunk - tokens.length) pad
    slice padded (chunk * cp.rank) (chunk * (cp.rank + 1)) ++
      slice padded (chunk * (2 * cp.size - cp.rank - 1)) (chunk * (2 * cp.size - cp.rank))

/-- `tensor.chunk(n)[i]` -/
def chunkAt (xs : List α) (n i : Nat) : List α :=
  let size := (xs.length + n - 1) / n
  (xs.drop (size * i)).take size

/-- The local tokens of `get_batch`, flattened.  `padSize` is `tp.size * pad_multiplier`. -/
def getBatch (tokens : List (List α)) (pad : α) (padSize : Nat) (qkvFormat : QkvFormat)
    (maxSeqLens : Option (List Nat)) (allgatherCp : Bool) (cp : CpState) :
    Except LayoutError (List α) := do
  check (tokens ≠ []) .emptyBatch
  match qkvFormat with
  | .bshd =>
    let some (maxSeqlen :: _) := maxSeqLens | throw .noMaxSeqLen
    check (∀ t ∈ tokens, t.length ≤ maxSeqlen) .sampleTooLong
    if allgatherCp then
      check (maxSeqlen % cp.size = 0) .notDivisible
      let localLen := maxSeqlen / cp.size
      let start := cp.rank * localLen
      return (tokens.map fun t =>
        slice (padEnd t (maxSeqlen - t.length) pad) start (start + localLen : Nat)).flatten
    else
      return (tokens.map fun t => sliceWithCp t pad .bshd maxSeqlen cp).flatten
  | .thd =>
    if allgatherCp then
      let stream := tokens.flatten
      let globalPadSize := cp.size * padSize
      let padLen := (globalPadSize - stream.length % globalPadSize) % globalPadSize
      return chunkAt (stream ++ List.replicate padLen pad) cp.size cp.rank
    else
      let stream := (tokens.map fun t => sliceWithCp t pad .thd 0 cp).flatten
      let padLen := (padSize - stream.length % padSize) % padSize
      return stream ++ List.replicate padLen pad

/-! ## The rows that score a response -/

/-- The offsets of the two zigzag chunks, of the logits in them that score the response, and
    of the tokens these score; all from the beginning of the prompt. -/
structure CpOffsets where
  chunkSize : Int
  chunks : (Int × Int) × (Int × Int)
  logits : (Int × Int) × (Int × Int)
  tokens : (Int × Int) × (Int × Int)
  deriving DecidableEq, Repr

/-- An empty range becomes `(0, 0)`, and the tokens a range of logits scores come one later. -/
def logitsAndTokens (logits : Int × Int) : (Int × Int) × (Int × Int) :=
  if logits.1 < logits.2 then (logits, (logits.1 + 1, logits.2 + 1)) else ((0, 0), (0, 0))

/-- `get_logits_and_tokens_offset_with_cp` -/
def getLogitsAndTokensOffsetWithCp (totalLength responseLength : Int) (qkvFormat : QkvFormat)
    (maxSeqLen : Option Nat) (cp : CpState) : Except LayoutError CpOffsets := do
  check (1 < cp.size) .cpSize
  let promptLength := totalLength - responseLength
  let chunk ← match qkvFormat, maxSeqLen with
    | .thd, _ => pure (chunkSize totalLength cp.size)
    | .bshd, some m => pure (chunkSize m cp.size)
    | .bshd, none => throw .noMaxSeqLen
  let chunk0 : Int × Int := (cp.rank * chunk, (cp.rank + 1) * chunk)
  let chunk1 : Int × Int :=
    ((2 * cp.size - cp.rank - 1) * chunk, (2 * cp.size - cp.rank) * chunk)
  let (logits0, tokens0) := logitsAndTokens
    (max chunk0.1 (promptLength - 1), min chunk0.2 (totalLength - 1))
  let (logits1, tokens1) := logitsAndTokens
    (max chunk1.1 (promptLength - 1), min chunk1.2 (totalLength - 1))
  return { chunkSize := chunk, chunks := (chunk0, chunk1), logits := (logits0, logits1),
           tokens := (tokens0, tokens1) }

/-- The rows of this rank's flattened logits that score one sample's response. -/
structure LocalResponseRows (α : Type) where
  /-- half-open, in order; each row scores the next token -/
  rowRanges : List (Int × Int)
  /-- the token each of those rows scores -/
  tokens : List α
  /-- index in the full response of each row, if requested -/
  responseIndices : List Int
  deriving DecidableEq, Repr

/-- The rows of the ranges, one by one. -/
def LocalResponseRows.rows (r : LocalResponseRows α) : List Int :=
  r.rowRanges.flatMap fun range => PyList.range range.1 range.2

/-- `_response_rows_without_cp` -/
def responseRowsWithoutCp (tokens : List α) (slotStart totalLength responseLength : Int)
    (includeResponseIndices : Bool) : LocalResponseRows α :=
  let stop := slotStart + totalLength - 1
  { rowRanges := [(stop - responseLength, stop)]
    tokens := if responseLength ≠ 0 then slice tokens (-responseLength) tokens.length else []
    responseIndices := if includeResponseIndices then PyList.range 0 responseLength else [] }

/-- `_response_rows_allgather_cp` -/
def responseRowsAllgatherCp (tokens : List α)
    (localStart globalStart pieceRows seqStart totalLength responseLength : Int)
    (includeResponseIndices : Bool) : LocalResponseRows α :=
  let logitStart := seqStart + totalLength - responseLength - 1
  let logitEnd := seqStart + totalLength - 1
  let start := max logitStart globalStart
  let stop := min logitEnd (globalStart + pieceRows)
  if stop ≤ start then
    { rowRanges := [(localStart, localStart)], tokens := [], responseIndices := [] }
  else
    let offset := localStart - globalStart
    { rowRanges := [(start + offset, stop + offset)]
      tokens := slice tokens (start + 1 - seqStart) (stop + 1 - seqStart)
      responseIndices :=
        if includeResponseIndices then PyList.range (start - logitStart) (stop - logitStart)
        else [] }

/-- `_zigzag_half_rows` -/
def zigzagHalfRows (halfStart : Int) (logits : Int × Int) (chunkStart : Int) : Int × Int :=
  if logits.2 ≤ logits.1 then (halfStart, halfStart)
  else (halfStart + logits.1 - chunkStart, halfStart + logits.2 - chunkStart)

/-- `_response_rows_zigzag_cp`: two runs, and the number of rows the sample's slot takes. -/
def responseRowsZigzagCp (tokens : List α) (slotStart totalLength responseLength : Int)
    (qkvFormat : QkvFormat) (maxSeqLen : Option Nat) (includeResponseIndices : Bool)
    (cp : CpState) : Except LayoutError (LocalResponseRows α × Int) := do
  let offsets ← getLogitsAndTokensOffsetWithCp totalLength responseLength qkvFormat maxSeqLen cp
  let rows0 := zigzagHalfRows slotStart offsets.logits.1 offsets.chunks.1.1
  let rows1 := zigzagHalfRows (slotStart + offsets.chunkSize) offsets.logits.2 offsets.chunks.2.1
  let half0 := slice tokens offsets.tokens.1.1 offsets.tokens.1.2
  let half1 := slice tokens offsets.tokens.2.1 offsets.tokens.2.2
  check (rows0.2 - rows0.1 = half0.length) .tokenCount
  check (rows1.2 - rows1.1 = half1.length) .tokenCount
  let promptLength := totalLength - responseLength
  let responseIndices :=
    if includeResponseIndices then
      (PyList.range offsets.tokens.1.1 offsets.tokens.1.2 ++
        PyList.range offsets.tokens.2.1 offsets.tokens.2.2).map (· - promptLength)
    else []
  return ({ rowRanges := [rows0, rows1], tokens := half0 ++ half1, responseIndices },
    2 * offsets.chunkSize)

/-- The assertions on one sample's rows before they are yielded. -/
def checkRows (numRows : Nat) (includeResponseIndices : Bool) (r : LocalResponseRows α) :
    Except LayoutError Unit := do
  check (∀ range ∈ r.rowRanges, 0 ≤ range.1 ∧ range.1 ≤ range.2 ∧ range.2 ≤ numRows) .rowRange
  check ((r.rowRanges.map fun range => range.2 - range.1).sum = r.tokens.length) .tokenCount
  if includeResponseIndices then
    check (r.responseIndices.length = r.tokens.length) .indexCount

/-- What `iter_local_response_rows` is called with, besides the samples. -/
structure RowsConfig where
  numRows : Nat
  qkvFormat : QkvFormat
  allgatherCp : Bool
  maxSeqLens : Option (List Nat)
  includeResponseIndices : Bool
  cp : CpState
  deriving DecidableEq, Repr

/-- One turn of the loop of `iter_local_response_rows`: the rows of sample `i`, and where the
    next slot starts, given where its slot and its tokens in the stream start. -/
def sampleRows (cfg : RowsConfig) (i : Nat) (slotStart seqStart : Int) (tokens : List α)
    (totalLength responseLength : Nat) :
    Except LayoutError (LocalResponseRows α × Int) := do
  let maxSeqLen := cfg.maxSeqLens.bind (·[i]?)
  if cfg.cp.size = 1 then
    let slotStart ← match cfg.qkvFormat, maxSeqLen with
      | .bshd, some m => pure ((m : Int) * i)
      | .bshd, none => throw .noMaxSeqLen
      | .thd, _ => pure slotStart
    let rows := responseRowsWithoutCp tokens slotStart totalLength responseLength
      cfg.includeResponseIndices
    return (rows, slotStart + totalLength)
  else if cfg.allgatherCp then
    let (localStart, seqStart, pieceRows) ← match cfg.qkvFormat, maxSeqLen with
      | .bshd, some m =>
        let pieceRows : Int := m / cfg.cp.size
        pure (pieceRows * i, 0, pieceRows)
      | .bshd, none => throw .noMaxSeqLen
      | .thd, _ => pure (0, seqStart, (cfg.numRows : Int))
    let rows := responseRowsAllgatherCp tokens localStart (cfg.cp.rank * pieceRows) pieceRows
      seqStart totalLength responseLength cfg.includeResponseIndices
    return (rows, slotStart)
  else
    let (rows, slotRows) ← responseRowsZigzagCp tokens slotStart totalLength responseLength
      cfg.qkvFormat maxSeqLen cfg.includeResponseIndices cfg.cp
    return (rows, slotStart + slotRows)

/-- The loop of `iter_local_response_rows` from sample `i` on. -/
def iterLocalResponseRowsFrom (cfg : RowsConfig) (i : Nat) (slotStart seqStart : Int) :
    List (List α × Nat × Nat) → Except LayoutError (List (LocalResponseRows α))
  | [] => return []
  | (tokens, totalLength, responseLength) :: samples => do
    let (rows, nextSlotStart) ←
      sampleRows cfg i slotStart seqStart tokens totalLength responseLength
    checkRows cfg.numRows cfg.includeResponseIndices rows
    let rest ← iterLocalResponseRowsFrom cfg (i + 1) nextSlotStart (seqStart + totalLength) samples
    return rows :: rest

/-- `iter_local_response_rows` -/
def iterLocalResponseRows (cfg : RowsConfig) (unconcatTokens : List (List α))
    (totalLengths responseLengths : List Nat) :
    Except LayoutError (List (LocalResponseRows α)) :=
  iterLocalResponseRowsFrom cfg 0 0 0 (unconcatTokens.zip (totalLengths.zip responseLengths))

end Miles.ContextParallel
