import Miles.Native.Training.ContextParallel

/-!
# What the rows of one sample score

A run of local rows that hold consecutive positions of a sample scores the part of the
response that follows these positions.  The three ways `iter_local_response_rows` computes
rows each yield one or two such runs.
-/

namespace Miles.ContextParallel

open PyList

variable {α : Type}

/-! ### Samples -/

/-- A sample with a prompt of at least one token. -/
structure Sample (α : Type) where
  tokens : List α
  responseLength : Nat
  has_prompt : responseLength < tokens.length

namespace Sample

/-- The length of the prompt. -/
def promptLength (s : Sample α) : Nat := s.tokens.length - s.responseLength

theorem promptLength_pos (s : Sample α) : 0 < s.promptLength := by
  have := s.has_prompt
  simp only [promptLength]
  omega

theorem promptLength_add (s : Sample α) :
    s.promptLength + s.responseLength = s.tokens.length := by
  have := s.has_prompt
  simp only [promptLength]
  omega

end Sample

/-! ### What rows score -/

/-- The rows score the response tokens `indices`, in this order: each is in range, holds the
    token just before the one it scores, and comes with that token and its index. -/
structure Scores (localTokens : List α) (s : Sample α) (indices : List Nat)
    (includeResponseIndices : Bool) (r : LocalResponseRows α) : Prop where
  bounds : ∀ range ∈ r.rowRanges,
    0 ≤ range.1 ∧ range.1 ≤ range.2 ∧ range.2 ≤ localTokens.length
  rows : List.Forall₂ (fun row j => 0 ≤ row ∧
    localTokens[row.toNat]? = s.tokens[s.promptLength + j - 1]?) r.rows indices
  tokens : r.tokens.map some = indices.map fun j => s.tokens[s.promptLength + j]?
  responseIndices : r.responseIndices =
    if includeResponseIndices then indices.map fun j : Nat => (j : Int) else []

/-- The local rows from `base` on hold the positions `[lo, hi)` of a sample. -/
structure HoldsChunk (localTokens : List α) (s : Sample α) (base lo hi : Nat) : Prop where
  bound : lo < hi → base + (hi - lo) ≤ localTokens.length
  holds : ∀ p, lo ≤ p → p < hi → p < s.tokens.length →
    localTokens[base + (p - lo)]? = s.tokens[p]?

/-- The response tokens that follow the positions `[lo, hi)`. -/
def scoredBy (s : Sample α) (lo hi : Nat) : List Nat :=
  (window lo hi (s.promptLength - 1) (s.tokens.length - 1)).map (· - (s.promptLength - 1))

/-- Rows of two runs. -/
def LocalResponseRows.append (r₁ r₂ : LocalResponseRows α) : LocalResponseRows α where
  rowRanges := r₁.rowRanges ++ r₂.rowRanges
  tokens := r₁.tokens ++ r₂.tokens
  responseIndices := r₁.responseIndices ++ r₂.responseIndices

variable {localTokens : List α} {s : Sample α} {inc : Bool}

/-- Two runs score what they score one after the other. -/
theorem Scores.append {js₁ js₂ : List Nat} {r₁ r₂ : LocalResponseRows α}
    (h₁ : Scores localTokens s js₁ inc r₁) (h₂ : Scores localTokens s js₂ inc r₂) :
    Scores localTokens s (js₁ ++ js₂) inc (r₁.append r₂) where
  bounds range hr := (List.mem_append.mp hr).elim (h₁.bounds range) (h₂.bounds range)
  rows := by
    simp only [LocalResponseRows.rows, LocalResponseRows.append, List.flatMap_append]
    exact List.rel_append h₁.rows h₂.rows
  tokens := by
    simp only [LocalResponseRows.append, List.map_append, h₁.tokens, h₂.tokens]
  responseIndices := by
    simp only [LocalResponseRows.append, h₁.responseIndices, h₂.responseIndices]
    split <;> simp

/-- Consecutive ranges have as many rows as their lengths add up to. -/
private theorem sum_range_lengths (ranges : List (Int × Int))
    (hle : ∀ range ∈ ranges, range.1 ≤ range.2) :
    (ranges.map fun range => range.2 - range.1).sum =
      ((ranges.flatMap fun range => PyList.range range.1 range.2).length : Int) := by
  induction ranges with
  | nil => rfl
  | cons range ranges ih =>
    have hrange := hle range (List.mem_cons_self ..)
    have hrest := ih fun range' hr => hle range' (List.mem_cons_of_mem _ hr)
    simp only [List.map_cons, List.sum_cons, List.flatMap_cons, List.length_append,
      length_range, hrest]
    omega

/-- There is one token for each row. -/
theorem Scores.sum_ranges {js : List Nat} {r : LocalResponseRows α}
    (h : Scores localTokens s js inc r) :
    (r.rowRanges.map fun range => range.2 - range.1).sum = r.tokens.length := by
  have htokens : r.tokens.length = js.length := by
    have hlen := congrArg List.length h.tokens
    simpa using hlen
  rw [sum_range_lengths r.rowRanges fun range hr => (h.bounds range hr).2.1, htokens,
    ← h.rows.length_eq]
  rfl

/-- The token counts of the rows agree, so the assertions before a yield pass. -/
theorem Scores.checkRows {js : List Nat} {r : LocalResponseRows α}
    (h : Scores localTokens s js inc r) : checkRows localTokens.length inc r = .ok () := by
  have htokens : r.tokens.length = js.length := by
    have hlen := congrArg List.length h.tokens
    simpa using hlen
  have hindices : inc = true → r.responseIndices.length = r.tokens.length := by
    intro hinc
    simp [h.responseIndices, hinc, htokens]
  simp only [ContextParallel.checkRows, check, if_pos h.bounds, h.sum_ranges, if_true]
  cases inc with
  | false => rfl
  | true => simp [hindices rfl, bind, Except.bind]

/-- A run that holds no position before a response token scores nothing. -/
theorem scores_empty {lo hi : Nat} {row : Int}
    (hempty : min hi (s.tokens.length - 1) ≤ max lo (s.promptLength - 1))
    (hrow : 0 ≤ row ∧ row ≤ localTokens.length) :
    Scores localTokens s (scoredBy s lo hi) inc
      { rowRanges := [(row, row)], tokens := [], responseIndices := [] } := by
  have hwindow : scoredBy s lo hi = [] := by
    have hzero : min hi (s.tokens.length - 1) - max lo (s.promptLength - 1) = 0 := by omega
    simp [scoredBy, window, hzero]
  rw [hwindow]
  refine ⟨fun range hr => ?_, ?_, rfl, by simp⟩
  · obtain rfl := List.mem_singleton.mp hr
    exact ⟨hrow.1, le_refl _, hrow.2⟩
  · simp [LocalResponseRows.rows, range_of_le]

variable (inc) in
/-- A run that holds the positions `[lo, hi)` scores the response tokens after these. -/
theorem scores_run {base lo hi start stop : Nat} (h : HoldsChunk localTokens s base lo hi)
    (hstart : start = max lo (s.promptLength - 1)) (hstop : stop = min hi (s.tokens.length - 1))
    (hlt : start < stop) :
    Scores localTokens s (scoredBy s lo hi) inc
      { rowRanges := [((base : Int) + start - lo, (base : Int) + stop - lo)]
        tokens := slice s.tokens (start + 1) (stop + 1)
        responseIndices :=
          if inc then PyList.range (start - (s.promptLength - 1 : Nat))
            (stop - (s.promptLength - 1 : Nat)) else [] } := by
  have hprompt := s.promptLength_pos
  have htotal := s.promptLength_add
  have hwindow : scoredBy s lo hi =
      (List.range' start (stop - start)).map (· - (s.promptLength - 1)) := by
    rw [scoredBy, window, ← hstart, ← hstop]
  have hbound := h.bound (by omega)
  rw [hwindow]
  refine ⟨fun range hr => ?_, ?_, ?_, ?_⟩
  · obtain rfl := List.mem_singleton.mp hr
    refine ⟨?_, ?_, ?_⟩ <;> dsimp only <;> omega
  · -- row `base + p - lo` holds position `p`
    have hrange : PyList.range ((base : Int) + start - lo) ((base : Int) + stop - lo) =
        (List.range' start (stop - start)).map fun p : Nat => ((base : Int) - lo) + p := by
      rw [← range_add_natCast]
      congr 1 <;> omega
    simp only [LocalResponseRows.rows, List.flatMap_singleton, hrange,
      List.forall₂_map_left_iff, List.forall₂_map_right_iff, List.forall₂_same,
      List.mem_range'_1]
    intro p hp
    have hrow : ((base : Int) - lo + p).toNat = base + (p - lo) := by omega
    have hpos : s.promptLength + (p - (s.promptLength - 1)) - 1 = p := by omega
    refine ⟨by omega, ?_⟩
    rw [hrow, hpos]
    exact h.holds p (by omega) (by omega) (by omega)
  · have hcast : ((stop : Int) + 1) = ((start + 1 + (stop - start) : Nat) : Int) := by omega
    have hcast' : ((start : Int) + 1) = ((start + 1 : Nat) : Int) := by omega
    dsimp only
    rw [hcast, hcast', slice_map_some (.inr (by omega)), List.map_map]
    rw [show List.range' (start + 1) (stop - start) =
      (List.range' start (stop - start)).map (· + 1) from by
        rw [List.range'_eq_map_range, List.range'_eq_map_range, List.map_map]
        apply List.map_congr_left
        intro k _
        simp only [Function.comp_apply]
        omega]
    rw [List.map_map]
    apply List.map_congr_left
    intro p hp
    simp only [List.mem_range'_1] at hp
    have hpos : s.promptLength + (p - (s.promptLength - 1)) = p + 1 := by omega
    simp only [Function.comp_apply, hpos]
  · split
    · have hrange := range_add_natCast (-((s.promptLength - 1 : Nat) : Int)) start (stop - start)
      rw [show (start : Int) - (s.promptLength - 1 : Nat) =
          -((s.promptLength - 1 : Nat) : Int) + start by omega,
        show (stop : Int) - (s.promptLength - 1 : Nat) =
          -((s.promptLength - 1 : Nat) : Int) + start + (stop - start : Nat) by omega,
        hrange, List.map_map]
      apply List.map_congr_left
      intro p hp
      simp only [List.mem_range'_1] at hp
      simp only [Function.comp_apply]
      omega
    · rfl

/-! ### The rows of one sample -/

variable (inc) in
/-- Without context parallelism the rows are one run, the whole sample. -/
theorem responseRowsWithoutCp_scores {base : Nat}
    (h : HoldsChunk localTokens s base 0 s.tokens.length) :
    Scores localTokens s (scoredBy s 0 s.tokens.length) inc
      (responseRowsWithoutCp s.tokens base s.tokens.length s.responseLength inc) := by
  have hprompt := s.promptLength_pos
  have htotal := s.promptLength_add
  have hbound := h.bound (by omega)
  by_cases hR : s.responseLength = 0
  · have hrows : responseRowsWithoutCp s.tokens base s.tokens.length s.responseLength inc =
        { rowRanges := [((base : Int) + s.tokens.length - 1, (base : Int) + s.tokens.length - 1)],
          tokens := [], responseIndices := [] } := by
      simp [responseRowsWithoutCp, hR, range_of_le]
    rw [hrows]
    exact scores_empty (by omega) (by omega)
  · have hrun := scores_run inc h (show s.promptLength - 1 = _ by omega)
      (show s.tokens.length - 1 = _ by omega) (by omega)
    have hslice : slice s.tokens (-(s.responseLength : Int)) s.tokens.length =
        slice s.tokens ((s.promptLength - 1 : Nat) + 1) ((s.tokens.length - 1 : Nat) + 1) := by
      have hstart : ((s.promptLength - 1 : Nat) : Int) + 1 = (s.promptLength : Nat) := by omega
      have hstop : ((s.tokens.length - 1 : Nat) : Int) + 1 = (s.tokens.length : Nat) := by omega
      rw [slice_neg (by omega) (by omega), hstart, hstop, slice_natCast, List.take_length]
      rfl
    have hrows : responseRowsWithoutCp s.tokens base s.tokens.length s.responseLength inc =
        { rowRanges := [((base : Int) + (s.promptLength - 1 : Nat) - (0 : Nat),
            (base : Int) + (s.tokens.length - 1 : Nat) - (0 : Nat))]
          tokens := slice s.tokens ((s.promptLength - 1 : Nat) + 1)
            ((s.tokens.length - 1 : Nat) + 1)
          responseIndices :=
            if inc then PyList.range ((s.promptLength - 1 : Nat) - (s.promptLength - 1 : Nat))
              ((s.tokens.length - 1 : Nat) - (s.promptLength - 1 : Nat)) else [] } := by
      have hne : (s.responseLength : Int) ≠ 0 := by omega
      have hfirst : (base : Int) + s.tokens.length - 1 - s.responseLength =
          (base : Int) + (s.promptLength - 1 : Nat) - (0 : Nat) := by omega
      have hlast : (base : Int) + s.tokens.length - 1 =
          (base : Int) + (s.tokens.length - 1 : Nat) - (0 : Nat) := by omega
      have hzero : ((s.promptLength - 1 : Nat) : Int) - (s.promptLength - 1 : Nat) = 0 := by omega
      have hlen : ((s.tokens.length - 1 : Nat) : Int) - (s.promptLength - 1 : Nat) =
          s.responseLength := by omega
      simp only [responseRowsWithoutCp, ← hslice, hzero, hlen, if_pos hne]
      rw [hfirst, hlast]
    rw [hrows]
    exact hrun

variable (inc) in
/-- Under all-gather CP the rows are one run, the part of the sample in this rank's piece of
    the sequence, or none. -/
theorem responseRowsAllgatherCp_scores (localStart globalStart pieceRows seqStart : Nat)
    (h : HoldsChunk localTokens s (localStart + (seqStart - globalStart))
      (globalStart - seqStart) (globalStart + pieceRows - seqStart))
    (hlocal : localStart ≤ localTokens.length) :
    Scores localTokens s
      (scoredBy s (globalStart - seqStart) (globalStart + pieceRows - seqStart)) inc
      (responseRowsAllgatherCp s.tokens localStart globalStart pieceRows seqStart
        s.tokens.length s.responseLength inc) := by
  have hprompt := s.promptLength_pos
  have htotal := s.promptLength_add
  by_cases hlt : max (globalStart - seqStart) (s.promptLength - 1) <
      min (globalStart + pieceRows - seqStart) (s.tokens.length - 1)
  · have hrun := scores_run inc h rfl rfl hlt
    generalize hstart : max (globalStart - seqStart) (s.promptLength - 1) = start at hrun hlt
    generalize hstop : min (globalStart + pieceRows - seqStart) (s.tokens.length - 1) = stop
      at hrun hlt
    -- the source counts from the start of the stream, the run from the start of the sample
    have hstart' : max ((seqStart : Int) + s.tokens.length - s.responseLength - 1) globalStart =
        seqStart + start := by omega
    have hstop' : min ((seqStart : Int) + s.tokens.length - 1) (globalStart + pieceRows) =
        seqStart + stop := by omega
    have hne : ¬ ((seqStart : Int) + stop ≤ seqStart + start) := by omega
    have hrows : responseRowsAllgatherCp s.tokens localStart globalStart pieceRows seqStart
        s.tokens.length s.responseLength inc =
        { rowRanges := [(((localStart + (seqStart - globalStart) : Nat) : Int) + start -
              (globalStart - seqStart : Nat),
            ((localStart + (seqStart - globalStart) : Nat) : Int) + stop -
              (globalStart - seqStart : Nat))]
          tokens := slice s.tokens (start + 1) (stop + 1)
          responseIndices :=
            if inc then PyList.range (start - (s.promptLength - 1 : Nat))
              (stop - (s.promptLength - 1 : Nat)) else [] } := by
      simp only [responseRowsAllgatherCp, hstart', hstop', if_neg hne]
      congr 1
      · congr 2 <;> omega
      · congr 1 <;> omega
      · split
        · congr 1 <;> omega
        · rfl
    rw [hrows]
    exact hrun
  · have hrows : responseRowsAllgatherCp s.tokens localStart globalStart pieceRows seqStart
        s.tokens.length s.responseLength inc =
        { rowRanges := [((localStart : Int), (localStart : Int))], tokens := [],
          responseIndices := [] } := by
      simp only [responseRowsAllgatherCp]
      rw [if_pos (by omega)]
    rw [hrows]
    exact scores_empty (by omega) (by omega)

/-- One zigzag half: its rows, their tokens and their indices. -/
def zigzagHalf (s : Sample α) (inc : Bool) (halfStart lo hi : Nat) : LocalResponseRows α :=
  let offsets := logitsAndTokens
    (max (lo : Int) (s.tokens.length - s.responseLength - 1), min (hi : Int) (s.tokens.length - 1))
  { rowRanges := [zigzagHalfRows halfStart offsets.1 lo]
    tokens := slice s.tokens offsets.2.1 offsets.2.2
    responseIndices :=
      if inc then (PyList.range offsets.2.1 offsets.2.2).map
        (· - ((s.tokens.length : Int) - s.responseLength))
      else [] }

variable (inc) in
/-- A zigzag half is the run of its chunk, or empty at its start. -/
theorem zigzagHalf_scores {halfStart lo hi : Nat} (h : HoldsChunk localTokens s halfStart lo hi)
    (hhalf : halfStart ≤ localTokens.length) :
    Scores localTokens s (scoredBy s lo hi) inc (zigzagHalf s inc halfStart lo hi) := by
  have hprompt := s.promptLength_pos
  have htotal := s.promptLength_add
  have hstart : max (lo : Int) (s.tokens.length - s.responseLength - 1) =
      (max lo (s.promptLength - 1) : Nat) := by omega
  have hstop : min (hi : Int) (s.tokens.length - 1) =
      (min hi (s.tokens.length - 1) : Nat) := by omega
  by_cases hlt : max lo (s.promptLength - 1) < min hi (s.tokens.length - 1)
  · have hrun := scores_run inc h rfl rfl hlt
    generalize max lo (s.promptLength - 1) = start at hstart hrun hlt
    generalize min hi (s.tokens.length - 1) = stop at hstop hrun hlt
    have hlt' : (start : Int) < stop := by omega
    have hindices : (PyList.range ((start : Int) + 1) ((stop : Int) + 1)).map
        (· - ((s.tokens.length : Int) - s.responseLength)) =
        PyList.range (start - (s.promptLength - 1 : Nat)) (stop - (s.promptLength - 1 : Nat)) := by
      simp only [PyList.range, List.map_map]
      have hlen : ((stop : Int) + 1 - (start + 1)).toNat =
        ((stop : Int) - (s.promptLength - 1 : Nat) -
          (start - (s.promptLength - 1 : Nat))).toNat := by omega
      rw [hlen]
      apply List.map_congr_left
      intro k _
      simp only [Function.comp_apply]
      omega
    have hne : ¬ ((stop : Int) ≤ start) := by omega
    have hhalf : zigzagHalf s inc halfStart lo hi =
        { rowRanges := [((halfStart : Int) + start - lo, (halfStart : Int) + stop - lo)]
          tokens := slice s.tokens (start + 1) (stop + 1)
          responseIndices :=
            if inc then PyList.range (start - (s.promptLength - 1 : Nat))
              (stop - (s.promptLength - 1 : Nat)) else [] } := by
      simp only [zigzagHalf, hstart, hstop, logitsAndTokens, if_pos hlt', zigzagHalfRows,
        if_neg hne, hindices]
    rw [hhalf]
    exact hrun
  · have hlt' : ¬ (((max lo (s.promptLength - 1) : Nat) : Int) <
        (min hi (s.tokens.length - 1) : Nat)) := by omega
    have hzero : slice s.tokens 0 0 = [] := by
      have h0 := slice_natCast s.tokens 0 0
      simpa using h0
    have hhalf : zigzagHalf s inc halfStart lo hi =
        { rowRanges := [((halfStart : Int), (halfStart : Int))], tokens := [],
          responseIndices := [] } := by
      simp only [zigzagHalf, hstart, hstop, logitsAndTokens, if_neg hlt', zigzagHalfRows,
        le_refl, if_true, hzero, range_of_le, List.map_nil, ite_self]
    rw [hhalf]
    exact scores_empty (by omega) (by omega)

/-- The logits of the chunk `[lo, hi)` that score the response, and the tokens they score. -/
def halfOffsets (totalLength responseLength lo hi : Nat) : (Int × Int) × (Int × Int) :=
  logitsAndTokens
    (max (lo : Int) (totalLength - responseLength - 1), min (hi : Int) (totalLength - 1))

/-- The offsets of the chunks `[lo₁, hi₁)` and `[lo₂, hi₂)`. -/
def offsetsOfChunks (totalLength responseLength chunk lo₁ hi₁ lo₂ hi₂ : Nat) : CpOffsets where
  chunkSize := chunk
  chunks := ((lo₁, hi₁), (lo₂, hi₂))
  logits := ((halfOffsets totalLength responseLength lo₁ hi₁).1,
    (halfOffsets totalLength responseLength lo₂ hi₂).1)
  tokens := ((halfOffsets totalLength responseLength lo₁ hi₁).2,
    (halfOffsets totalLength responseLength lo₂ hi₂).2)

/-- The offsets of the chunks `[lo₁, hi₁)` and `[lo₂, hi₂)` of a sample. -/
def zigzagOffsets (s : Sample α) (chunk lo₁ hi₁ lo₂ hi₂ : Nat) : CpOffsets :=
  let half (lo hi : Nat) := logitsAndTokens
    (max (lo : Int) (s.tokens.length - s.responseLength - 1), min (hi : Int) (s.tokens.length - 1))
  { chunkSize := chunk
    chunks := ((lo₁, hi₁), (lo₂, hi₂))
    logits := ((half lo₁ hi₁).1, (half lo₂ hi₂).1)
    tokens := ((half lo₁ hi₁).2, (half lo₂ hi₂).2) }

/-- The zigzag chunk size of a sample: of its own length, or of the padded one. -/
def ChunkIs (qkvFormat : QkvFormat) (maxSeqLen : Option Nat) (length cpSize chunk : Nat) : Prop :=
  match qkvFormat, maxSeqLen with
  | .thd, _ => chunkSize length cpSize = chunk
  | .bshd, some m => chunkSize m cpSize = chunk
  | .bshd, none => False

/-- The offsets of a rank are those of its two chunks. -/
theorem getLogitsAndTokensOffsetWithCp_eq {totalLength responseLength chunk : Nat} {cp : CpState}
    {qkvFormat : QkvFormat} {maxSeqLen : Option Nat} (hcp : 1 < cp.size) (hrank : cp.rank < cp.size)
    (hchunk : ChunkIs qkvFormat maxSeqLen totalLength cp.size chunk) :
    getLogitsAndTokensOffsetWithCp totalLength responseLength qkvFormat maxSeqLen cp =
      .ok (offsetsOfChunks totalLength responseLength chunk (cp.rank * chunk)
        ((cp.rank + 1) * chunk) ((2 * cp.size - cp.rank - 1) * chunk)
        ((2 * cp.size - cp.rank) * chunk)) := by
  -- the offsets of the two chunks, as naturals
  have hlo₁ : (cp.rank : Int) * chunk = ((cp.rank * chunk : Nat) : Int) := by
    push_cast
    rfl
  have hhi₁ : ((cp.rank : Int) + 1) * chunk = (((cp.rank + 1) * chunk : Nat) : Int) := by
    push_cast
    rfl
  have hlo₂ : (2 * (cp.size : Int) - cp.rank - 1) * chunk =
      (((2 * cp.size - cp.rank - 1) * chunk : Nat) : Int) := by
    rw [Int.natCast_mul]
    congr 1
    omega
  have hhi₂ : (2 * (cp.size : Int) - cp.rank) * chunk =
      (((2 * cp.size - cp.rank) * chunk : Nat) : Int) := by
    rw [Int.natCast_mul]
    congr 1
    omega
  simp only [getLogitsAndTokensOffsetWithCp, check, if_pos hcp, bind, Except.bind, pure,
    Except.pure]
  cases qkvFormat with
  | thd =>
    dsimp only [ChunkIs] at hchunk
    simp only [hchunk, hlo₁, hhi₁, hlo₂, hhi₂]
    rfl
  | bshd =>
    cases maxSeqLen with
    | none => exact hchunk.elim
    | some m =>
      dsimp only [ChunkIs] at hchunk
      simp only [hchunk, hlo₁, hhi₁, hlo₂, hhi₂]
      rfl

variable (inc) in
/-- Under zigzag CP the rows are two runs, the rank's two chunks. -/
theorem responseRowsZigzagCp_scores {cp : CpState} {qkvFormat : QkvFormat}
    {maxSeqLen : Option Nat} {slotStart chunk : Nat} (hcp : 1 < cp.size) (hrank : cp.rank < cp.size)
    (hchunk : ChunkIs qkvFormat maxSeqLen s.tokens.length cp.size chunk)
    (h₁ : HoldsChunk localTokens s slotStart (cp.rank * chunk) ((cp.rank + 1) * chunk))
    (h₂ : HoldsChunk localTokens s (slotStart + chunk) ((2 * cp.size - cp.rank - 1) * chunk)
      ((2 * cp.size - cp.rank) * chunk))
    (hslot : slotStart + chunk ≤ localTokens.length) :
    ∃ rows, responseRowsZigzagCp s.tokens slotStart s.tokens.length s.responseLength qkvFormat
        maxSeqLen inc cp = .ok (rows, 2 * (chunk : Int)) ∧
      Scores localTokens s (scoredBy s (cp.rank * chunk) ((cp.rank + 1) * chunk) ++
        scoredBy s ((2 * cp.size - cp.rank - 1) * chunk) ((2 * cp.size - cp.rank) * chunk)) inc
        rows := by
  have hhalf₁ := zigzagHalf_scores inc h₁ (by omega)
  have hhalf₂ := zigzagHalf_scores inc h₂ hslot
  have hcount₁ := hhalf₁.sum_ranges
  have hcount₂ := hhalf₂.sum_ranges
  refine ⟨_, ?_, hhalf₁.append hhalf₂⟩
  have hoffsets : getLogitsAndTokensOffsetWithCp s.tokens.length s.responseLength qkvFormat
      maxSeqLen cp = .ok (zigzagOffsets s chunk (cp.rank * chunk) ((cp.rank + 1) * chunk)
        ((2 * cp.size - cp.rank - 1) * chunk) ((2 * cp.size - cp.rank) * chunk)) :=
    getLogitsAndTokensOffsetWithCp_eq hcp hrank hchunk
  have hsum : ∀ (range : Int × Int) (n : Nat),
      ([range].map fun range : Int × Int => range.2 - range.1).sum = n → range.2 - range.1 = n := by
    simp
  have hcheck₁ := hsum _ _ hcount₁
  have hcheck₂ := hsum _ _ hcount₂
  simp only [zigzagHalf, Int.natCast_add] at hcheck₁ hcheck₂
  simp only [responseRowsZigzagCp, hoffsets, zigzagOffsets, bind, Except.bind, check,
    if_pos hcheck₁, if_pos hcheck₂, pure, Except.pure]
  simp only [LocalResponseRows.append, zigzagHalf, Int.natCast_add]
  cases inc <;> simp

end Miles.ContextParallel
