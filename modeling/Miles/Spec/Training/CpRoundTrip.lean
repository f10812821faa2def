import Miles.ForStd.Except
import Miles.ForStd.Segments
import Miles.Native.Training.CpGather
import Miles.Spec.Training.ScoringCoverage

/-!
# Splitting and gathering a response

The ranks of a context-parallel group deal out the positions of a response among them: each has
the positions that its two chunks of logits score.  Writing or adding up what they have gives the
response back.
-/

namespace Miles.ContextParallel

open PyList Segments

/-- A sample with a prompt in a zigzag layout whose chunks cover it. -/
structure CpLayout where
  totalLength : Nat
  responseLength : Nat
  qkvFormat : QkvFormat
  maxSeqLen : Option Nat
  cpSize : Nat
  chunk : Nat
  has_prompt : responseLength < totalLength
  one_lt : 1 < cpSize
  chunk_is : ChunkIs qkvFormat maxSeqLen totalLength cpSize chunk
  covers : totalLength ≤ 2 * cpSize * chunk

namespace CpLayout

variable (l : CpLayout) {α : Type}

/-- The position of the last prompt token, whose logits score the first response token. -/
def first : Nat := l.totalLength - l.responseLength - 1

theorem first_add : l.first + 1 + l.responseLength = l.totalLength := by
  have := l.has_prompt
  simp only [first]
  omega

/-- Where the response tokens that chunk `k` scores start. -/
def start (k : Nat) : Nat := max (k * l.chunk) l.first - l.first

/-- Where the response tokens that chunk `k` scores stop. -/
def stop (k : Nat) : Nat := min ((k + 1) * l.chunk) (l.totalLength - 1) - l.first

theorem stop_le (k : Nat) : l.stop k ≤ l.responseLength := by
  have := l.first_add
  simp only [stop]
  omega

/-- The chunks of a rank. -/
def chunks (rank : Nat) : List Nat := [rank, 2 * l.cpSize - rank - 1]

/-- The response positions that chunk `k` scores. -/
def run (k : Nat) : List Nat := List.range' (l.start k) (l.stop k - l.start k)

/-- The response positions of a rank. -/
def positions (rank : Nat) : List Nat := (l.chunks rank).flatMap l.run

/-- The ranks have every position of the response once. -/
theorem perm_positions :
    ((List.range l.cpSize).flatMap l.positions).Perm (List.range l.responseLength) := by
  have hfirst := l.first_add
  have hmono : Monotone fun k => k * l.chunk := fun _ _ h => Nat.mul_le_mul_right _ h
  have htile := perm_flatMap_window hmono (a := l.first) (b := l.totalLength - 1) (by simp)
    ((Nat.sub_le _ _).trans l.covers) (PackedBatch.perm_zigzag l.cpSize)
  have hmap := htile.map (· - l.first)
  have hrun : ∀ k, l.run k =
      (window (k * l.chunk) ((k + 1) * l.chunk) l.first (l.totalLength - 1)).map (· - l.first) := by
    intro k
    rw [window, List.range'_eq_map_range, List.map_map, run, List.range'_eq_map_range]
    have hlen : l.stop k - l.start k =
        min ((k + 1) * l.chunk) (l.totalLength - 1) - max (k * l.chunk) l.first := by
      simp only [start, stop]
      omega
    rw [hlen]
    apply List.map_congr_left
    intro i _
    show l.start k + i = max (k * l.chunk) l.first + i - l.first
    simp only [start]
    omega
  have hleft : (List.range l.cpSize).flatMap l.positions =
      (((List.range l.cpSize).flatMap l.chunks).flatMap fun k =>
        window (k * l.chunk) ((k + 1) * l.chunk) l.first (l.totalLength - 1)).map
          (· - l.first) := by
    rw [List.map_flatMap, List.flatMap_assoc]
    show ((List.range l.cpSize).flatMap fun rank => (l.chunks rank).flatMap l.run) = _
    rw [funext hrun]
  have hright : (List.range' l.first (l.totalLength - 1 - l.first)).map (· - l.first) =
      List.range l.responseLength := by
    rw [List.range'_eq_map_range, List.map_map, show l.totalLength - 1 - l.first =
      l.responseLength by omega]
    conv_rhs => rw [← List.map_id (List.range l.responseLength)]
    apply List.map_congr_left
    intro i _
    show l.first + i - l.first = i
    omega
  rw [hleft, ← hright]
  exact hmap

/-- What a rank has of a response. -/
def piece (logProb : List α) (rank : Nat) : List α :=
  (l.chunks rank).flatMap fun k => segment logProb (l.start k) (l.stop k)

/-- A rank has the entries at its positions. -/
theorem piece_map_some {logProb : List α} (hlen : logProb.length = l.responseLength) (rank : Nat) :
    (l.piece logProb rank).map some = (l.positions rank).map fun i => logProb[i]? := by
  have hseg : ∀ k, (segment logProb (l.start k) (l.stop k)).map some =
      (l.run k).map fun i => logProb[i]? := fun k =>
    segment_map_some logProb (hlen ▸ l.stop_le k)
  rw [piece, positions, List.map_flatMap, List.map_flatMap]
  simp only [hseg]

/-! ## Slicing -/

/-- The offsets of chunk `k`. -/
def offsets (k : Nat) : (Int × Int) × (Int × Int) :=
  halfOffsets l.totalLength l.responseLength (k * l.chunk) ((k + 1) * l.chunk)

theorem getOffsets_eq {rank : Nat} (hrank : rank < l.cpSize) :
    ∃ offsets, getLogitsAndTokensOffsetWithCp l.totalLength l.responseLength l.qkvFormat
        l.maxSeqLen ⟨rank, l.cpSize⟩ = .ok offsets ∧
      offsets.logits = ((l.offsets rank).1, (l.offsets (2 * l.cpSize - rank - 1)).1) ∧
      offsets.tokens = ((l.offsets rank).2, (l.offsets (2 * l.cpSize - rank - 1)).2) := by
  have hlast : 2 * l.cpSize - rank = 2 * l.cpSize - rank - 1 + 1 := by omega
  refine ⟨_, getLogitsAndTokensOffsetWithCp_eq l.one_lt hrank l.chunk_is, ?_, ?_⟩
  · simp only [offsetsOfChunks, offsets, ← hlast]
  · simp only [offsetsOfChunks, offsets, ← hlast]

/-- The logits of a chunk, counted from the first one that scores the response: its run, or an
    empty range. -/
theorem offsets_cases (k : Nat) :
    (l.start k < l.stop k ∧
      l.offsets k =
        ((((l.first + l.start k : Nat) : Int), ((l.first + l.stop k : Nat) : Int)),
          (((l.first + l.start k + 1 : Nat) : Int), ((l.first + l.stop k + 1 : Nat) : Int)))) ∨
    (l.stop k ≤ l.start k ∧ l.offsets k = ((0, 0), (0, 0))) := by
  have hfirst := l.first_add
  have hlo : max ((k * l.chunk : Nat) : Int) ((l.totalLength : Int) - l.responseLength - 1) =
      (max (k * l.chunk) l.first : Nat) := by omega
  have hhi : min (((k + 1) * l.chunk : Nat) : Int) ((l.totalLength : Int) - 1) =
      (min ((k + 1) * l.chunk) (l.totalLength - 1) : Nat) := by omega
  rw [offsets, halfOffsets, hlo, hhi, logitsAndTokens]
  by_cases hlt : max (k * l.chunk) l.first < min ((k + 1) * l.chunk) (l.totalLength - 1)
  · refine .inl ⟨by simp only [start, stop]; omega, ?_⟩
    have hstart : l.first + l.start k = max (k * l.chunk) l.first := by
      simp only [start]
      omega
    have hstop : l.first + l.stop k = min ((k + 1) * l.chunk) (l.totalLength - 1) := by
      simp only [stop]
      omega
    rw [if_pos (by dsimp only; exact_mod_cast hlt), hstart, hstop]
    push_cast
    rfl
  · refine .inr ⟨by simp only [start, stop]; omega, ?_⟩
    rw [if_neg (by dsimp only; exact_mod_cast hlt)]

theorem slice_self (xs : List α) (i : Int) : slice xs i i = [] := by
  apply List.eq_nil_of_length_eq_zero
  rw [slice, List.length_drop, List.length_take]
  omega

/-- Both slices of a chunk are its segment. -/
theorem slice_logits (xs : List α) (k : Nat) :
    slice xs ((l.offsets k).1.1 - ((l.totalLength : Int) - l.responseLength - 1))
      ((l.offsets k).1.2 - ((l.totalLength : Int) - l.responseLength - 1)) =
      segment xs (l.start k) (l.stop k) := by
  have hfirst := l.first_add
  rcases l.offsets_cases k with ⟨hlt, hoffsets⟩ | ⟨hle, hoffsets⟩
  · rw [hoffsets]
    have hstart : ((l.first + l.start k : Nat) : Int) -
        ((l.totalLength : Int) - l.responseLength - 1) = (l.start k : Nat) := by omega
    have hstop : ((l.first + l.stop k : Nat) : Int) -
        ((l.totalLength : Int) - l.responseLength - 1) = (l.stop k : Nat) := by omega
    show slice xs (((l.first + l.start k : Nat) : Int) - _) (((l.first + l.stop k : Nat) : Int) - _) = _
    rw [hstart, hstop, slice_natCast]
    rfl
  · rw [hoffsets, slice_self, segment_of_le xs hle]

theorem slice_tokens (xs : List α) (k : Nat) :
    slice xs ((l.offsets k).2.1 - ((l.totalLength : Int) - l.responseLength))
      ((l.offsets k).2.2 - ((l.totalLength : Int) - l.responseLength)) =
      segment xs (l.start k) (l.stop k) := by
  have hfirst := l.first_add
  rcases l.offsets_cases k with ⟨hlt, hoffsets⟩ | ⟨hle, hoffsets⟩
  · rw [hoffsets]
    have hstart : ((l.first + l.start k + 1 : Nat) : Int) -
        ((l.totalLength : Int) - l.responseLength) = (l.start k : Nat) := by omega
    have hstop : ((l.first + l.stop k + 1 : Nat) : Int) -
        ((l.totalLength : Int) - l.responseLength) = (l.stop k : Nat) := by omega
    show slice xs (((l.first + l.start k + 1 : Nat) : Int) - _)
      (((l.first + l.stop k + 1 : Nat) : Int) - _) = _
    rw [hstart, hstop, slice_natCast]
    rfl
  · rw [hoffsets, slice_self, segment_of_le xs hle]

/-- A rank's slice of the log-probs is its piece. -/
theorem sliceLogProbWithCp_eq {logProb : List α} (hlen : logProb.length = l.responseLength)
    {rank : Nat} (hrank : rank < l.cpSize) :
    sliceLogProbWithCp logProb l.totalLength l.responseLength l.qkvFormat l.maxSeqLen
      ⟨rank, l.cpSize⟩ = .ok (l.piece logProb rank) := by
  obtain ⟨offsets, hok, hlogits, -⟩ := l.getOffsets_eq hrank
  have hcp : l.cpSize ≠ 1 := by
    have := l.one_lt
    omega
  simp only [sliceLogProbWithCp, hlen, ne_eq, not_true_eq_false, if_false, hcp, hok,
    Except.mapError]
  show Except.ok _ = Except.ok _
  rw [hlogits, l.slice_logits, l.slice_logits, piece, chunks, List.flatMap_cons, List.flatMap_singleton]

/-- So is its slice of the loss mask. -/
theorem sliceLossMaskForLocalCp_eq (lossMask : List α) {rank : Nat} (hrank : rank < l.cpSize) :
    sliceLossMaskForLocalCp l.totalLength l.responseLength lossMask l.qkvFormat l.maxSeqLen
      ⟨rank, l.cpSize⟩ = .ok (l.piece lossMask rank) := by
  obtain ⟨offsets, hok, -, htokens⟩ := l.getOffsets_eq hrank
  simp only [sliceLossMaskForLocalCp, hok, Except.mapError]
  show Except.ok _ = Except.ok _
  rw [htokens, l.slice_tokens, l.slice_tokens, piece, chunks, List.flatMap_cons, List.flatMap_singleton]

/-! ## Assembling -/

section Assemble

variable {logProb out : List α}

theorem clampIndex_natCast {n i : Nat} (h : i ≤ n) : clampIndex n (i : Int) = i := by
  rw [clampIndex, if_neg (by omega), Int.toNat_natCast, Nat.min_eq_left h]

/-- A chunk's entries are written over its run. -/
theorem writeRanges_cons (hlen : logProb.length = l.responseLength)
    (hout : out.length = l.responseLength) (before after : List α) (k : Nat)
    (ranges : List (Int × Int)) :
    writeRanges ((l.totalLength : Int) - l.responseLength)
        (before ++ segment logProb (l.start k) (l.stop k) ++ after)
        ((l.offsets k).1 :: ranges) (out, before.length) =
      writeRanges ((l.totalLength : Int) - l.responseLength)
        (before ++ segment logProb (l.start k) (l.stop k) ++ after) ranges
        (overwrite logProb (l.start k) (l.stop k) out,
          before.length + (segment logProb (l.start k) (l.stop k)).length) := by
  have hfirst := l.first_add
  have hstop := l.stop_le k
  rcases l.offsets_cases k with ⟨hlt, hoffsets⟩ | ⟨hle, hoffsets⟩
  · have hlo : ((l.first + l.start k : Nat) : Int) -
        ((l.totalLength : Int) - l.responseLength - 1) = (l.start k : Nat) := by omega
    have hhi : ((l.first + l.stop k : Nat) : Int) -
        ((l.totalLength : Int) - l.responseLength - 1) = (l.stop k : Nat) := by omega
    have hwidth : (((l.stop k : Nat) : Int) - (l.start k : Nat)).toNat =
        l.stop k - l.start k := by omega
    have hseg : (segment logProb (l.start k) (l.stop k)).length = l.stop k - l.start k := by
      rw [length_segment, Nat.min_eq_left (by omega)]
    have hvalues : ((before ++ segment logProb (l.start k) (l.stop k) ++ after).take
        (before.length + (l.stop k - l.start k))).drop before.length =
        segment logProb (l.start k) (l.stop k) := by
      rw [← hseg, ← List.length_append, List.take_left, List.drop_left]
    have hassign : assignSlice out ((l.start k : Nat) : Int) ((l.stop k : Nat) : Int)
        (segment logProb (l.start k) (l.stop k)) =
        .ok (overwrite logProb (l.start k) (l.stop k) out) := by
      unfold assignSlice
      rw [clampIndex_natCast (by omega), clampIndex_natCast (by omega)]
      dsimp only
      rw [if_pos hseg, overwrite, if_pos hlt, Nat.add_sub_cancel' hlt.le]
    rw [hoffsets, writeRanges]
    simp only [hlo, hhi]
    rw [if_neg (by omega), hwidth, hvalues, hassign, hseg]
    rfl
  · rw [hoffsets, writeRanges, if_pos (by simp), overwrite, if_neg (by omega),
      segment_of_le _ hle]
    rfl

theorem length_segment_run (hlen : logProb.length = l.responseLength) (k : Nat) :
    ((segment logProb (l.start k) (l.stop k)).length : Int) =
      (l.offsets k).1.2 - (l.offsets k).1.1 := by
  have hstop := l.stop_le k
  rw [length_segment, hlen, Nat.min_eq_left hstop]
  rcases l.offsets_cases k with ⟨hlt, hoffsets⟩ | ⟨hle, hoffsets⟩
  · rw [hoffsets]
    dsimp only
    omega
  · rw [hoffsets]
    dsimp only
    omega

/-- What a rank writes, and what it leaves. -/
theorem writeRanges_piece (hlen : logProb.length = l.responseLength)
    (hout : out.length = l.responseLength) (rank : Nat) :
    ∃ out', writeRanges ((l.totalLength : Int) - l.responseLength) (l.piece logProb rank)
        [(l.offsets rank).1, (l.offsets (2 * l.cpSize - rank - 1)).1] (out, 0) =
          .ok (out', (l.piece logProb rank).length) ∧
      out'.length = l.responseLength ∧
      ∀ i, (i ∈ l.positions rank → out'[i]? = logProb[i]?) ∧
        (i ∉ l.positions rank → out'[i]? = out[i]?) := by
  have hpiece : l.piece logProb rank = segment logProb (l.start rank) (l.stop rank) ++
      segment logProb (l.start (2 * l.cpSize - rank - 1)) (l.stop (2 * l.cpSize - rank - 1)) := by
    rw [piece, chunks, List.flatMap_cons, List.flatMap_singleton]
  have hmem : ∀ i, i ∈ l.positions rank ↔ i ∈ l.run rank ∨ i ∈ l.run (2 * l.cpSize - rank - 1) := by
    intro i
    rw [positions, chunks, List.flatMap_cons, List.flatMap_singleton, List.mem_append]
  have hrun : ∀ k i, i ∈ l.run k ↔ l.start k ≤ i ∧ i < l.stop k := by
    intro k i
    rw [run, List.mem_range'_1]
    omega
  generalize 2 * l.cpSize - rank - 1 = k at hpiece hmem
  have hout₁ : (overwrite logProb (l.start rank) (l.stop rank) out).length = logProb.length :=
    length_overwrite (hout.trans hlen.symm) (hlen ▸ l.stop_le rank)
  have hfirst := l.writeRanges_cons hlen hout [] (segment logProb (l.start k) (l.stop k)) rank
    [(l.offsets k).1]
  have hsecond := l.writeRanges_cons hlen (hout₁.trans hlen)
    (segment logProb (l.start rank) (l.stop rank)) [] k []
  rw [List.nil_append, List.length_nil, Nat.zero_add] at hfirst
  rw [List.append_nil] at hsecond
  refine ⟨overwrite logProb (l.start k) (l.stop k)
    (overwrite logProb (l.start rank) (l.stop rank) out), ?_, ?_, ?_⟩
  · rw [hpiece, hfirst, hsecond, List.length_append]
    rfl
  · rw [length_overwrite hout₁ (hlen ▸ l.stop_le k), hlen]
  · intro i
    rw [getElem?_overwrite hout₁ (hlen ▸ l.stop_le k),
      getElem?_overwrite (hout.trans hlen.symm) (hlen ▸ l.stop_le rank), hmem, hrun, hrun]
    constructor
    · intro hi
      split
      · rfl
      · rw [if_pos (by omega)]
    · intro hi
      rw [if_neg (by omega), if_neg (by omega)]

/-- Every dictionary with the pieces of all ranks is assembled to the response. -/
theorem assembleLogProbFromCp_eq [Zero α] (hlen : logProb.length = l.responseLength)
    {chunks : List (Nat × List α)}
    (hchunks : ∀ item ∈ chunks, item.1 < l.cpSize ∧ item.2 = l.piece logProb item.1)
    (hranks : ∀ rank < l.cpSize, rank ∈ chunks.map Prod.fst) :
    assembleLogProbFromCp chunks l.totalLength l.responseLength l.cpSize l.qkvFormat
      l.maxSeqLen = .ok logProb := by
  have hmissing : ((List.range l.cpSize).filter fun rank => rank ∉ chunks.map Prod.fst) = [] := by
    rw [List.filter_eq_nil_iff]
    intro rank hrank
    simpa using hranks rank (List.mem_range.mp hrank)
  -- the loop keeps what is right, and adds the positions of the rank
  have hloop : ∀ (chunks : List (Nat × List α)) (out : List α),
      (∀ item ∈ chunks, item.1 < l.cpSize ∧ item.2 = l.piece logProb item.1) →
      out.length = l.responseLength →
      ∃ out', chunks.foldlM (fun out (item : Nat × List α) => do
          let offsets ← (getLogitsAndTokensOffsetWithCp l.totalLength l.responseLength l.qkvFormat
            l.maxSeqLen ⟨item.1, l.cpSize⟩).mapError GatherError.layout
          let written ← writeRanges ((l.totalLength : Int) - l.responseLength) item.2
            [offsets.logits.1, offsets.logits.2] (out, 0)
          if written.2 ≠ item.2.length then
            throw (GatherError.consumed item.1 written.2 item.2.length)
          return written.1) out = .ok out' ∧ out'.length = l.responseLength ∧
        ∀ i, (out[i]? = logProb[i]? ∨ ∃ item ∈ chunks, i ∈ l.positions item.1) →
          out'[i]? = logProb[i]? := by
    intro chunks
    induction chunks with
    | nil =>
      intro out _ hout
      refine ⟨out, rfl, hout, ?_⟩
      intro i hi
      rcases hi with hi | ⟨item, hitem, -⟩
      · exact hi
      · cases hitem
    | cons item chunks ih =>
      intro out hall hout
      obtain ⟨hrank, hpiece⟩ := hall item List.mem_cons_self
      obtain ⟨offsets, hok, hlogits, -⟩ := l.getOffsets_eq hrank
      obtain ⟨out₁, hwrite, hout₁, hget₁⟩ := l.writeRanges_piece hlen hout item.1
      obtain ⟨out', hrest, hout', hget⟩ := ih out₁
        (fun item' hitem' => hall item' (List.mem_cons_of_mem _ hitem')) hout₁
      refine ⟨out', ?_, hout', ?_⟩
      · rw [List.foldlM_cons, hok, ← hrest, hpiece]
        simp only [Except.mapError, Except.ok_bind, hlogits, hwrite, ne_eq, not_true_eq_false,
          if_false]
        rfl
      · intro i hi
        apply hget
        by_cases hmem : i ∈ l.positions item.1
        · exact .inl ((hget₁ i).1 hmem)
        · rw [(hget₁ i).2 hmem]
          rcases hi with hi | ⟨item', hitem', hi⟩
          · exact .inl hi
          · rcases List.mem_cons.mp hitem' with rfl | hitem'
            · exact absurd hi hmem
            · exact .inr ⟨item', hitem', hi⟩
  obtain ⟨out, hok, hout, hget⟩ := hloop chunks (List.replicate l.responseLength 0) hchunks
    List.length_replicate
  have hone : ¬ ¬ 1 < l.cpSize := not_not.mpr l.one_lt
  have hall : out = logProb := by
    apply eq_of_agree (hout.trans hlen.symm)
    intro i hi
    apply hget i
    have hmem : i ∈ (List.range l.cpSize).flatMap l.positions :=
      l.perm_positions.mem_iff.mpr (List.mem_range.mpr (hlen ▸ hi))
    obtain ⟨rank, hrank, hpos⟩ := List.mem_flatMap.mp hmem
    obtain ⟨item, hitem, rfl⟩ := List.mem_map.mp (hranks rank (List.mem_range.mp hrank))
    exact .inr ⟨item, hitem, hpos⟩
  rw [assembleLogProbFromCp]
  simp only [if_neg hone, hmissing, ne_eq, not_true_eq_false, if_false]
  rw [← hall]
  exact hok

end Assemble

/-! ## Gathering -/

section Gather

variable [AddCommMonoid α] {logProb : List α}

theorem zeros_natCast (n : Nat) : zeros (n : Int) = .ok (List.replicate n (0 : α)) := by
  rw [zeros, if_neg (by omega), Int.toNat_natCast]

/-- The zeros around a run come from its offsets. -/
theorem zeros_around {k : Nat} (hlt : l.start k < l.stop k) :
    (zeros ((l.offsets k).1.1 - ((l.totalLength : Int) - l.responseLength - 1)) :
        Except GatherError (List α)) = .ok (List.replicate (l.start k) 0) ∧
      (zeros ((l.totalLength : Int) - 1 - (l.offsets k).1.2) : Except GatherError (List α)) =
        .ok (List.replicate (l.responseLength - l.stop k) 0) := by
  have hfirst := l.first_add
  have hstop := l.stop_le k
  rcases l.offsets_cases k with ⟨-, hoffsets⟩ | ⟨hle, -⟩
  · rw [hoffsets]
    dsimp only
    constructor
    · rw [show ((l.first + l.start k : Nat) : Int) -
        ((l.totalLength : Int) - l.responseLength - 1) = (l.start k : Nat) by omega, zeros_natCast]
    · rw [show (l.totalLength : Int) - 1 - ((l.first + l.stop k : Nat) : Int) =
        (l.responseLength - l.stop k : Nat) by omega, zeros_natCast]
  · omega

/-- The zeros between two runs. -/
theorem zeros_between {k k' : Nat} (hlt : l.start k < l.stop k) (hlt' : l.start k' < l.stop k')
    (hle : l.stop k ≤ l.start k') :
    (zeros ((l.offsets k').1.1 - (l.offsets k).1.2) : Except GatherError (List α)) =
      .ok (List.replicate (l.start k' - l.stop k) 0) := by
  rcases l.offsets_cases k with ⟨-, hoffsets⟩ | ⟨hle, -⟩
  · rcases l.offsets_cases k' with ⟨-, hoffsets'⟩ | ⟨hle', -⟩
    · rw [hoffsets, hoffsets']
      dsimp only
      rw [show ((l.first + l.start k' : Nat) : Int) - ((l.first + l.stop k : Nat) : Int) =
        (l.start k' - l.stop k : Nat) by omega, zeros_natCast]
    · omega
  · omega

/-- A rank brings its entries, and zeros elsewhere. -/
theorem paddedForGather_eq (hlen : logProb.length = l.responseLength) {rank : Nat}
    (hrank : rank < l.cpSize) :
    paddedForGather (l.piece logProb rank) l.totalLength l.responseLength l.qkvFormat l.maxSeqLen
      ⟨rank, l.cpSize⟩ = .ok (masked logProb (l.positions rank)) := by
  obtain ⟨offsets, hok, hlogits, -⟩ := l.getOffsets_eq hrank
  have horder : l.start rank < l.stop rank →
      l.start (2 * l.cpSize - rank - 1) < l.stop (2 * l.cpSize - rank - 1) →
      l.stop rank ≤ l.start (2 * l.cpSize - rank - 1) := by
    intro _ _
    have hmul : (rank + 1) * l.chunk ≤ (2 * l.cpSize - rank - 1) * l.chunk :=
      Nat.mul_le_mul_right l.chunk (by omega)
    simp only [start, stop]
    omega
  have hpositions : l.positions rank = List.range' (l.start rank) (l.stop rank - l.start rank) ++
      List.range' (l.start (2 * l.cpSize - rank - 1))
        (l.stop (2 * l.cpSize - rank - 1) - l.start (2 * l.cpSize - rank - 1)) := by
    rw [positions, chunks, List.flatMap_cons, List.flatMap_singleton]
    rfl
  have hpiece : l.piece logProb rank = segment logProb (l.start rank) (l.stop rank) ++
      segment logProb (l.start (2 * l.cpSize - rank - 1)) (l.stop (2 * l.cpSize - rank - 1)) := by
    rw [piece, chunks, List.flatMap_cons, List.flatMap_singleton]
  generalize 2 * l.cpSize - rank - 1 = k at hlogits horder hpositions hpiece
  have hwidth := l.length_segment_run hlen rank
  have hwidth' := l.length_segment_run hlen k
  have hstop := l.stop_le rank
  have hstop' := l.stop_le k
  -- the two chunks of the tensor
  have hchunk₀ : slice (l.piece logProb rank) 0 ((l.offsets rank).1.2 - (l.offsets rank).1.1) =
      segment logProb (l.start rank) (l.stop rank) := by
    rw [← hwidth, show (0 : Int) = ((0 : Nat) : Int) from rfl, slice_natCast, hpiece,
      List.take_left, List.drop_zero]
  have hchunk₁ : slice (l.piece logProb rank) ((l.offsets rank).1.2 - (l.offsets rank).1.1)
      (l.piece logProb rank).length = segment logProb (l.start k) (l.stop k) := by
    rw [← hwidth, slice_natCast, List.take_length, hpiece, List.drop_left]
  have hmasked : ∀ full : List α, full = masked logProb (l.positions rank) →
      (if full.length ≠ l.responseLength then throw GatherError.fullShape else pure full :
        Except GatherError (List α)) = .ok (masked logProb (l.positions rank)) := by
    intro full hfull
    rw [hfull, length_masked, if_neg (by omega)]
    rfl
  have hempty : ∀ j, l.start j < l.stop j ∨ l.stop j ≤ l.start j := fun j => Nat.lt_or_ge _ _
  have hnil : ∀ {j}, l.stop j ≤ l.start j → segment logProb (l.start j) (l.stop j) = [] :=
    fun h => segment_of_le logProb h
  have hcons : ∀ {j}, l.start j < l.stop j → l.stop j ≤ l.responseLength →
      (segment logProb (l.start j) (l.stop j)).isEmpty = false := by
    intro j hlt hle
    rw [List.isEmpty_eq_false_iff, ← List.length_pos_iff, length_segment]
    omega
  unfold paddedForGather
  simp only [hok, hlogits, Except.mapError, Except.ok_bind, hchunk₀, hchunk₁, hwidth', ne_eq,
    not_true_eq_false, if_false]
  rcases hempty rank with hlt | hle
  · obtain ⟨hleft, hright⟩ := l.zeros_around (α := α) hlt
    rcases hempty k with hlt' | hle'
    · obtain ⟨-, hright'⟩ := l.zeros_around (α := α) hlt'
      rw [hcons hlt hstop, hcons hlt' hstop']
      dsimp only
      rw [hleft, l.zeros_between hlt hlt' (horder hlt hlt'), hright']
      apply hmasked
      rw [hpositions, masked_runs hlt.le (horder hlt hlt') hlt'.le (by omega), hlen]
    · rw [hcons hlt hstop, hnil hle']
      dsimp only [List.isEmpty_nil]
      rw [hleft, hright]
      apply hmasked
      rw [hpositions, Nat.sub_eq_zero_of_le hle', List.range'_zero, List.append_nil,
        masked_run hlt.le (by omega), hlen]
  · rcases hempty k with hlt' | hle'
    · obtain ⟨hleft', hright'⟩ := l.zeros_around (α := α) hlt'
      rw [hcons hlt' hstop', hnil hle]
      dsimp only [List.isEmpty_nil]
      rw [hleft', hright']
      apply hmasked
      rw [hpositions, Nat.sub_eq_zero_of_le hle, List.range'_zero, List.nil_append,
        masked_run hlt'.le (by omega), hlen]
    · rw [hnil hle, hnil hle']
      dsimp only [List.isEmpty_nil]
      rw [zeros_natCast]
      apply hmasked
      rw [hpositions, Nat.sub_eq_zero_of_le hle, Nat.sub_eq_zero_of_le hle', List.range'_zero,
        List.range'_zero, List.append_nil, masked_nil, hlen]

/-- What the ranks bring adds up to the response. -/
theorem allGatherWithCp_eq (hlen : logProb.length = l.responseLength) :
    allGatherWithCp ((List.range l.cpSize).map (l.piece logProb)) l.totalLength l.responseLength
      l.qkvFormat l.maxSeqLen = .ok logProb := by
  have hone := l.one_lt
  have hpadded : ((List.range l.cpSize).map (l.piece logProb)).zipIdx.mapM (fun x =>
      paddedForGather x.1 l.totalLength l.responseLength l.qkvFormat l.maxSeqLen
        ⟨x.2, l.cpSize⟩) =
      .ok ((List.range l.cpSize).map fun rank => masked logProb (l.positions rank)) := by
    have hvalue : ∀ x ∈ ((List.range l.cpSize).map (l.piece logProb)).zipIdx,
        paddedForGather x.1 l.totalLength l.responseLength l.qkvFormat l.maxSeqLen
          ⟨x.2, l.cpSize⟩ = .ok (masked logProb (l.positions x.2)) := by
      intro x hx
      obtain ⟨hlt, heq⟩ := List.getElem?_eq_some_iff.mp (List.mem_zipIdx_iff_getElem?.mp hx)
      rw [List.length_map, List.length_range] at hlt
      rw [List.getElem_map, List.getElem_range] at heq
      rw [← heq]
      exact l.paddedForGather_eq hlen hlt
    have hsnd := List.zipIdx_map_snd 0 ((List.range l.cpSize).map (l.piece logProb))
    rw [List.length_map, List.length_range, ← List.range_eq_range'] at hsnd
    rw [Except.mapM_of_ok hvalue]
    conv_rhs => rw [← hsnd, List.map_map]
    rfl
  have hgroup : ∀ tensors : List (List α), tensors.length = l.cpSize →
      allGatherWithCp tensors l.totalLength l.responseLength l.qkvFormat l.maxSeqLen = (do
        let padded ← tensors.zipIdx.mapM fun x =>
          paddedForGather x.1 l.totalLength l.responseLength l.qkvFormat l.maxSeqLen
            ⟨x.2, tensors.length⟩
        return padded.foldl (List.zipWith (· + ·)) (List.replicate l.responseLength 0)) := by
    intro tensors htensors
    rcases tensors with _ | ⟨tensor, _ | ⟨tensor', tensors⟩⟩
    · rfl
    · rw [List.length_singleton] at htensors
      omega
    · rfl
  rw [hgroup _ (by simp), List.length_map, List.length_range, hpadded]
  show Except.ok _ = Except.ok _
  rw [← hlen, sum_masked (hlen ▸ l.perm_positions)]

end Gather

end CpLayout

/-- A sample with a prompt, whose padded length covers it, has a layout. -/
theorem exists_layout {totalLength responseLength cpSize : Nat} {qkvFormat : QkvFormat}
    {maxSeqLen : Option Nat} (hcp : 1 < cpSize) (hprompt : responseLength < totalLength)
    (hpadded : qkvFormat = .bshd → ∃ m, maxSeqLen = some m ∧ totalLength ≤ m) :
    ∃ l : CpLayout, l.totalLength = totalLength ∧ l.responseLength = responseLength ∧
      l.qkvFormat = qkvFormat ∧ l.maxSeqLen = maxSeqLen ∧ l.cpSize = cpSize := by
  have hceil : ∀ n, n ≤ 2 * cpSize * ((n + 2 * cpSize - 1) / (2 * cpSize)) := fun n =>
    PackedBatch.le_mul_ceilDiv (by omega)
  cases qkvFormat with
  | thd =>
    exact ⟨⟨totalLength, responseLength, .thd, maxSeqLen, cpSize, _, hprompt, hcp,
      PackedBatch.chunkSize_eq (by omega), hceil totalLength⟩, rfl, rfl, rfl, rfl, rfl⟩
  | bshd =>
    obtain ⟨m, rfl, hle⟩ := hpadded rfl
    exact ⟨⟨totalLength, responseLength, .bshd, some m, cpSize, _, hprompt, hcp,
      PackedBatch.chunkSize_eq (by omega), hle.trans (hceil m)⟩, rfl, rfl, rfl, rfl, rfl⟩

/-- The slices of the ranks are the response dealt out by position; the local loss masks are dealt
    out alike.  Gathering and assembling the slices, in any order, give the response back. -/
theorem logProb_roundTrip {α : Type} [AddCommMonoid α] {totalLength responseLength cpSize : Nat}
    {qkvFormat : QkvFormat} {maxSeqLen : Option Nat} (hcp : 1 < cpSize)
    (hprompt : responseLength < totalLength)
    (hpadded : qkvFormat = .bshd → ∃ m, maxSeqLen = some m ∧ totalLength ≤ m) :
    (∀ logProb : List α, logProb.length = responseLength →
      sliceLogProbWithCp logProb totalLength responseLength qkvFormat maxSeqLen ⟨0, 1⟩ =
        .ok logProb ∧
      allGatherWithCp [logProb] totalLength responseLength qkvFormat maxSeqLen = .ok logProb) ∧
    ∃ positions : Nat → List Nat,
      ((List.range cpSize).flatMap positions).Perm (List.range responseLength) ∧
      (∀ {β : Type} (lossMask : List β), lossMask.length = responseLength →
        ∀ rank < cpSize, ∃ localMask,
        sliceLossMaskForLocalCp totalLength responseLength lossMask qkvFormat maxSeqLen
          ⟨rank, cpSize⟩ = .ok localMask ∧
        localMask.map some = (positions rank).map fun i => lossMask[i]?) ∧
      ∀ logProb : List α, logProb.length = responseLength → ∃ pieces : List (List α),
        pieces.length = cpSize ∧
        (∀ rank < cpSize,
          sliceLogProbWithCp logProb totalLength responseLength qkvFormat maxSeqLen
            ⟨rank, cpSize⟩ = .ok (pieces.getD rank []) ∧
          (pieces.getD rank []).map some = (positions rank).map fun i => logProb[i]?) ∧
        allGatherWithCp pieces totalLength responseLength qkvFormat maxSeqLen = .ok logProb ∧
        ∀ chunks : List (Nat × List α), (chunks.map Prod.fst).Perm (List.range cpSize) →
          (∀ item ∈ chunks, item.2 = pieces.getD item.1 []) →
          assembleLogProbFromCp chunks totalLength responseLength cpSize qkvFormat maxSeqLen =
            .ok logProb := by
  obtain ⟨l, rfl, rfl, rfl, rfl, rfl⟩ := exists_layout hcp hprompt hpadded
  constructor
  · intro logProb hlen
    refine ⟨?_, rfl⟩
    simp only [sliceLogProbWithCp, hlen, ne_eq, not_true_eq_false, if_false, if_true]
    rfl
  refine ⟨l.positions, l.perm_positions, ?_, ?_⟩
  · intro β lossMask hlen rank hrank
    exact ⟨_, l.sliceLossMaskForLocalCp_eq lossMask hrank, l.piece_map_some hlen rank⟩
  · intro logProb hlen
    have hget : ∀ rank < l.cpSize,
        ((List.range l.cpSize).map (l.piece logProb)).getD rank [] = l.piece logProb rank := by
      intro rank hrank
      rw [List.getD_eq_getElem _ _ (by simpa using hrank), List.getElem_map, List.getElem_range]
    refine ⟨(List.range l.cpSize).map (l.piece logProb), by simp, ?_,
      l.allGatherWithCp_eq hlen, ?_⟩
    · intro rank hrank
      rw [hget rank hrank]
      exact ⟨l.sliceLogProbWithCp_eq hlen hrank, l.piece_map_some hlen rank⟩
    · intro chunks hkeys hchunks
      apply l.assembleLogProbFromCp_eq hlen
      · intro item hitem
        have hrank : item.1 < l.cpSize :=
          List.mem_range.mp (hkeys.mem_iff.mp (List.mem_map_of_mem hitem))
        exact ⟨hrank, (hchunks item hitem).trans (hget item.1 hrank)⟩
      · intro rank hrank
        exact hkeys.mem_iff.mpr (List.mem_range.mpr hrank)

/-- A prompt of two tokens and three response tokens on two ranks. -/
theorem logProb_roundTrip_threeTokens : ∃ pieces : List (List Int),
    (∀ rank < 2, sliceLogProbWithCp [-1, -2, -3] 5 3 .thd none ⟨rank, 2⟩ =
      .ok (pieces.getD rank [])) ∧
    allGatherWithCp pieces 5 3 .thd none = .ok [-1, -2, -3] := by
  obtain ⟨-, positions, -, -, hpieces⟩ := @logProb_roundTrip Int _ 5 3 2 .thd none (by decide)
    (by decide) (fun h => by cases h)
  obtain ⟨pieces, -, hslices, hgather, -⟩ := hpieces [-1, -2, -3] rfl
  exact ⟨pieces, fun rank hrank => (hslices rank hrank).1, hgather⟩

/-- Nothing scores the first token of a sample without a prompt: its log-prob is on no rank. -/
theorem logProb_lost_without_prompt :
    sliceLogProbWithCp [7] 1 1 .thd none ⟨0, 2⟩ = .ok ([] : List Int) ∧
    sliceLogProbWithCp [7] 1 1 .thd none ⟨1, 2⟩ = .ok ([] : List Int) ∧
    assembleLogProbFromCp [(0, []), (1, [])] 1 1 2 .thd none = .ok ([0] : List Int) ∧
    allGatherWithCp [[], []] 1 1 .thd none = .ok ([0] : List Int) ∧ ([0] : List Int) ≠ [7] := by
  decide

end Miles.ContextParallel
