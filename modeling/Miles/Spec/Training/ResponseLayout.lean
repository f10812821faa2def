import Miles.Native.Training.ResponseLayout
import Miles.Spec.Training.ResponseRows
import Miles.ForStd.Except

/-!
# Where the rows of a micro-batch are

The samples of a micro-batch are packed in order. Both layouts score each response at the rows just
before its tokens: `PackedSlices` splits them out of the logits, `PaddedRows` indexes them.
-/

namespace Miles.ResponseLayout

open ContextParallel PyList
open Ragged (split oddItems scatter indexAdd span runs gaps positions weave)

variable {α β τ L S K : Type}

/-- A thd micro-batch of samples that each have a prompt, packed in order. -/
structure MicroBatch (τ K : Type) where
  samples : List (Sample τ)
  nonempty : samples ≠ []
  lossMasks : List (List K)
  length_lossMasks : lossMasks.map List.length = samples.map Sample.responseLength
  rolloutMaskSums : Option (List K)
  length_rolloutMaskSums : ∀ sums ∈ rolloutMaskSums, sums.length = samples.length
  /-- the padding of `get_batch` -/
  pad : Nat

namespace MicroBatch

variable (b : MicroBatch τ K)

def responseLengths : List Nat := b.samples.map Sample.responseLength

def totalLengths : List Nat := b.samples.map fun s => s.tokens.length

/-- What the layouts read of it. -/
def batch : RolloutBatch τ K where
  unconcatTokens := b.samples.map Sample.tokens
  totalLengths := b.totalLengths
  responseLengths := b.responseLengths
  lossMasks := b.lossMasks
  rolloutMaskSums := b.rolloutMaskSums
  cuSeqlensHost := ResponseLayout.cuSeqlensHost b.totalLengths b.pad

end MicroBatch

/-- The tokens of a response. -/
def response (s : Sample τ) : List τ := s.tokens.drop s.promptLength

theorem length_response (s : Sample τ) : (response s).length = s.responseLength := by
  have hadd := s.promptLength_add
  rw [response, List.length_drop]
  omega

/-! ## The rows of the responses -/

/-- The responses on the rows after `previousEnd`, of samples that are packed from `start` on: a
    response's rows are those just before its tokens. -/
def layoutFrom (start previousEnd : Nat) : List (Sample τ) → Ragged.Layout
  | [] => []
  | s :: samples =>
    (start + s.promptLength - 1 - previousEnd, s.responseLength) ::
      layoutFrom (start + s.tokens.length) (start + s.tokens.length - 1) samples

def MicroBatch.layout (b : MicroBatch τ K) : Ragged.Layout := layoutFrom 0 0 b.samples

theorem map_snd_layoutFrom (start previousEnd : Nat) (samples : List (Sample τ)) :
    (layoutFrom start previousEnd samples).map Prod.snd = samples.map Sample.responseLength := by
  induction samples generalizing start previousEnd with
  | nil => rfl
  | cons s samples ih => simp [layoutFrom, ih]

/-- The last response ends before the last token. -/
theorem span_layoutFrom {start previousEnd : Nat} (h : previousEnd ≤ start)
    (samples : List (Sample τ)) :
    previousEnd + span (layoutFrom start previousEnd samples) ≤
      start + (samples.map fun s => s.tokens.length).sum := by
  induction samples generalizing start previousEnd with
  | nil => simpa [layoutFrom, span] using h
  | cons s samples ih =>
    have hprompt := s.promptLength_pos
    have hadd := s.promptLength_add
    have hrest := @ih (start + s.tokens.length) (start + s.tokens.length - 1) (by omega)
    rw [layoutFrom, Ragged.span_cons, List.map_cons, List.sum_cons]
    show previousEnd + (start + s.promptLength - 1 - previousEnd + s.responseLength + _) ≤ _
    omega

theorem MicroBatch.span_layout (b : MicroBatch τ K) : span b.layout ≤ b.totalLengths.sum := by
  have h := span_layoutFrom (Nat.le_refl 0) b.samples
  rw [Nat.zero_add, Nat.zero_add] at h
  exact h

/-! ## The chunks of the packed logits -/

/-- What `iter_local_response_rows` yields. -/
def packedRows (includeResponseIndices : Bool) (start : Nat) :
    List (Sample τ) → List (LocalResponseRows τ)
  | [] => []
  | s :: samples =>
    responseRowsWithoutCp s.tokens start s.tokens.length s.responseLength includeResponseIndices ::
      packedRows includeResponseIndices (start + s.tokens.length) samples

theorem tokens_responseRowsWithoutCp (s : Sample τ) (start : Int) (inc : Bool) :
    (responseRowsWithoutCp s.tokens start s.tokens.length s.responseLength inc).tokens =
      response s := by
  have hprompt := s.has_prompt
  have hadd := s.promptLength_add
  unfold responseRowsWithoutCp
  by_cases hzero : s.responseLength = 0
  · have hdrop : response s = [] := by
      apply List.eq_nil_of_length_eq_zero
      rw [length_response, hzero]
    simp [hzero, hdrop]
  · have hne : (s.responseLength : Int) ≠ 0 := by omega
    rw [if_pos hne, slice_neg (by omega) (by omega)]
    rfl

theorem iterLocalResponseRowsFrom_packed {numRows : Nat} {inc : Bool} (i start : Nat) (seq : Int)
    (samples : List (Sample τ))
    (h : start + (samples.map fun s => s.tokens.length).sum ≤ numRows) :
    iterLocalResponseRowsFrom ⟨numRows, .thd, false, none, inc, ⟨0, 1⟩⟩ i start seq
        (samples.map fun s => (s.tokens, s.tokens.length, s.responseLength)) =
      .ok (packedRows inc start samples) := by
  induction samples generalizing i start seq with
  | nil => rfl
  | cons s samples ih =>
    rw [List.map_cons, List.sum_cons] at h
    have hprompt := s.promptLength_pos
    have hadd := s.promptLength_add
    have htokens := tokens_responseRowsWithoutCp s start inc
    have hlength := length_response s
    -- the assertions before the yield
    have hcheck : checkRows numRows inc (responseRowsWithoutCp s.tokens start s.tokens.length
        s.responseLength inc) = .ok () := by
      have hrange : ∀ range ∈ (responseRowsWithoutCp s.tokens start s.tokens.length
          s.responseLength inc).rowRanges,
          0 ≤ range.1 ∧ range.1 ≤ range.2 ∧ range.2 ≤ numRows := by
        intro range hr
        rw [List.mem_singleton.mp hr]
        show (0 : Int) ≤ start + s.tokens.length - 1 - s.responseLength ∧
          (start + s.tokens.length - 1 - s.responseLength : Int) ≤ start + s.tokens.length - 1 ∧
          (start + s.tokens.length - 1 : Int) ≤ numRows
        omega
      have hcount : ((responseRowsWithoutCp s.tokens start s.tokens.length
          s.responseLength inc).rowRanges.map fun range => range.2 - range.1).sum =
          (responseRowsWithoutCp s.tokens start s.tokens.length s.responseLength inc).tokens.length := by
        rw [htokens, hlength]
        show (start + s.tokens.length - 1 : Int) - (start + s.tokens.length - 1 - s.responseLength) + 0 = _
        omega
      unfold checkRows
      rw [check, if_pos hrange, check, if_pos hcount, htokens, hlength]
      cases inc with
      | false => rfl
      | true => simp [responseRowsWithoutCp, check, bind, Except.bind]
    have hrest := ih (i + 1) (start + s.tokens.length) (seq + s.tokens.length) (by omega)
    have hstep : sampleRows ⟨numRows, .thd, false, none, inc, ⟨0, 1⟩⟩ i start seq s.tokens
        s.tokens.length s.responseLength = .ok (responseRowsWithoutCp s.tokens start
          s.tokens.length s.responseLength inc, (start : Int) + s.tokens.length) := rfl
    rw [List.map_cons, iterLocalResponseRowsFrom, hstep, Except.ok_bind]
    show (checkRows numRows inc _ >>= fun _ => _) = _
    rw [hcheck, Except.ok_bind, ← Int.natCast_add, hrest]
    rfl

/-- The sizes that the logits are split into are those of the gaps and of the responses. -/
theorem splitSizes_packedRows (numRows : Nat) {start previousEnd : Nat} (h : previousEnd ≤ start)
    (samples : List (Sample τ)) (inc : Bool)
    (hrows : start + (samples.map fun s => s.tokens.length).sum ≤ numRows) :
    ∃ tail : Nat, splitSizes numRows previousEnd (packedRows inc start samples) =
      .ok (((layoutFrom start previousEnd samples).flatMap (fun l => [l.1, l.2]) ++ [tail]).map
        Int.ofNat) := by
  induction samples generalizing start previousEnd with
  | nil =>
    refine ⟨numRows - previousEnd, ?_⟩
    have htail : (numRows : Int) - previousEnd = ((numRows - previousEnd : Nat) : Int) := by
      simp at hrows
      omega
    simp only [packedRows, splitSizes, layoutFrom, htail]
    rfl
  | cons s samples ih =>
    rw [List.map_cons, List.sum_cons] at hrows
    have hprompt := s.promptLength_pos
    have hadd := s.promptLength_add
    obtain ⟨tail, hrest⟩ :=
      @ih (start + s.tokens.length) (start + s.tokens.length - 1) (by omega) (by omega)
    refine ⟨tail, ?_⟩
    have hstop : (start : Int) + s.tokens.length - 1 = ((start + s.tokens.length - 1 : Nat) : Int) := by
      omega
    have hgap : ((start + s.tokens.length - 1 : Nat) : Int) - s.responseLength - previousEnd =
        ((start + s.promptLength - 1 - previousEnd : Nat) : Int) := by
      omega
    have hlength : ((start + s.tokens.length - 1 : Nat) : Int) -
        ((start + s.tokens.length - 1 : Nat) - s.responseLength) = (s.responseLength : Int) := by
      omega
    show (splitSizes numRows (start + s.tokens.length - 1) _ >>= fun sizes => _) = _
    rw [hstop, hrest, Except.ok_bind, hgap, hlength]
    rfl

/-- What `PackedSlices` scores of a sample. -/
theorem iterResponseChunks_eq (b : MicroBatch τ K) {logits : List L} (inc : Bool)
    (h : b.totalLengths.sum ≤ logits.length) :
    iterResponseChunks logits b.batch inc = .ok (List.zipWith
      (fun chunk s => ⟨chunk, response s, if inc then PyList.range 0 s.responseLength else []⟩)
      (runs b.layout logits) b.samples) := by
  have hlayout : iterLocalResponseRows ⟨logits.length, .thd, false, none, inc, ⟨0, 1⟩⟩
      b.batch.unconcatTokens b.batch.totalLengths b.batch.responseLengths =
        .ok (packedRows inc 0 b.samples) := by
    have hzip : (b.samples.map Sample.tokens).zip
        ((b.samples.map fun s => s.tokens.length).zip (b.samples.map Sample.responseLength)) =
          b.samples.map fun s => (s.tokens, s.tokens.length, s.responseLength) := by
      rw [List.zip_map', List.zip_map']
    unfold iterLocalResponseRows
    show iterLocalResponseRowsFrom _ 0 0 0 ((b.samples.map Sample.tokens).zip
      ((b.samples.map fun s => s.tokens.length).zip (b.samples.map Sample.responseLength))) = _
    rw [hzip]
    exact iterLocalResponseRowsFrom_packed 0 0 0 b.samples (by rw [Nat.zero_add]; exact h)
  obtain ⟨tail, hsizes⟩ := splitSizes_packedRows logits.length (Nat.le_refl 0) b.samples inc
    (by rw [Nat.zero_add]; exact h)
  have hnonneg : ∀ size ∈ ((layoutFrom 0 0 b.samples).flatMap (fun l => [l.1, l.2]) ++
      [tail]).map Int.ofNat, 0 ≤ size := by
    intro size hsize
    obtain ⟨n, -, rfl⟩ := List.mem_map.mp hsize
    exact Int.natCast_nonneg n
  have hrows : ∀ (chunks : List (List L)) (start : Nat) (samples : List (Sample τ)),
      List.zipWith (fun chunk rows => (⟨chunk, rows.tokens, rows.responseIndices⟩ : ResponseChunk L τ))
        chunks (packedRows inc start samples) =
      List.zipWith (fun chunk s =>
        ⟨chunk, response s, if inc then PyList.range 0 s.responseLength else []⟩) chunks samples := by
    intro chunks start samples
    induction samples generalizing chunks start with
    | nil => simp [packedRows]
    | cons s samples ih =>
      cases chunks with
      | nil => rfl
      | cons chunk chunks =>
        rw [packedRows, List.zipWith_cons_cons, List.zipWith_cons_cons, ih,
          tokens_responseRowsWithoutCp]
        rfl
  unfold iterResponseChunks
  simp only [hlayout, Except.ok_bind]
  rw [Nat.cast_zero] at hsizes
  rw [hsizes, Except.ok_bind, check, if_pos hnonneg, Except.ok_bind, List.map_map]
  have hnat : (Int.toNat ∘ Int.ofNat) = id := rfl
  rw [hnat, List.map_id, Ragged.oddItems_split, hrows]
  rfl

/-! ## The rows of the padded micro-batch -/

/-- The ends of the samples -/
def endsFrom (start : Nat) : List Nat → List Nat
  | [] => []
  | length :: lengths => (start + length) :: endsFrom (start + length) lengths

theorem length_endsFrom (start : Nat) (lengths : List Nat) :
    (endsFrom start lengths).length = lengths.length := by
  induction lengths generalizing start with
  | nil => rfl
  | cons length lengths ih => simp [endsFrom, ih]

theorem le_of_mem_endsFrom {start : Nat} {lengths : List Nat} {stop : Nat}
    (h : stop ∈ endsFrom start lengths) : stop ≤ start + lengths.sum := by
  induction lengths generalizing start with
  | nil => cases h
  | cons length lengths ih =>
    rw [List.sum_cons]
    rcases List.mem_cons.mp h with heq | hmem
    · omega
    · have hrest := ih hmem
      omega

theorem take_scanl (start : Nat) (lengths extra : List Nat) :
    ((lengths.scanl (· + ·) start ++ extra).drop 1).take lengths.length =
      endsFrom start lengths := by
  induction lengths generalizing start with
  | nil => simp [endsFrom]
  | cons length lengths ih =>
    have hrest := ih (start + length)
    cases hscan : lengths.scanl (· + ·) (start + length) with
    | nil =>
      have hlength := congrArg List.length hscan
      simp at hlength
    | cons first rest =>
      have hfirst : first = start + length := by
        cases lengths with
        | nil =>
          simp at hscan
          exact hscan.1.symm
        | cons l ls =>
          rw [List.scanl_cons] at hscan
          exact (List.cons.inj hscan).1.symm
      rw [hscan] at hrest
      rw [List.scanl_cons, hscan, endsFrom, ← hrest, hfirst]
      rfl

/-- The sample ends that the packer has left. -/
theorem take_cuSeqlensHost (lengths : List Nat) (pad : Nat) :
    ((cuSeqlensHost lengths pad).drop 1).take lengths.length = endsFrom 0 lengths := by
  unfold cuSeqlensHost
  split
  · exact take_scanl 0 lengths [lengths.sum + pad]
  · have h := take_scanl 0 lengths []
    rw [List.append_nil] at h
    exact h

/-- The rows of the responses, one by one. -/
theorem flatMap_range_endsFrom {start previousEnd : Nat} (h : previousEnd ≤ start)
    (samples : List (Sample τ)) :
    ((endsFrom start (samples.map fun s => s.tokens.length)).zip
        (samples.map Sample.responseLength)).flatMap (fun x =>
      PyList.range ((x.1 : Int) - x.2 - 1) ((x.1 : Int) - 1)) =
    (positions previousEnd (layoutFrom start previousEnd samples)).map Int.ofNat := by
  induction samples generalizing start previousEnd with
  | nil => rfl
  | cons s samples ih =>
    have hprompt := s.promptLength_pos
    have hadd := s.promptLength_add
    have hrest := @ih (start + s.tokens.length) (start + s.tokens.length - 1) (by omega)
    have hbegin : ((start + s.tokens.length : Nat) : Int) - s.responseLength - 1 =
        ((start + s.promptLength - 1 : Nat) : Int) := by
      omega
    have hstop : ((start + s.tokens.length : Nat) : Int) - 1 =
        ((start + s.promptLength - 1 : Nat) : Int) + (s.responseLength : Int) := by
      omega
    have hfirst : previousEnd + (start + s.promptLength - 1 - previousEnd) =
        start + s.promptLength - 1 := by
      omega
    have hsecond : start + s.promptLength - 1 + s.responseLength =
        start + s.tokens.length - 1 := by
      omega
    have hrange := range_add_natCast 0 (start + s.promptLength - 1) s.responseLength
    simp only [Int.zero_add] at hrange
    rw [List.map_cons, List.map_cons, endsFrom, List.zip_cons_cons, List.flatMap_cons, hrest,
      layoutFrom, positions, List.map_append]
    show PyList.range (((start + s.tokens.length : Nat) : Int) - s.responseLength - 1)
      (((start + s.tokens.length : Nat) : Int) - 1) ++ _ = _
    rw [hbegin, hstop, hfirst, hsecond, hrange]
    rfl

/-- The padded layout of a micro-batch, on rows that are as many as the logits. -/
def MicroBatch.padded (b : MicroBatch τ K) (calculatePerTokenLoss : Bool) (numRows : Nat) :
    PaddedRows τ K where
  batch := b.batch
  calculatePerTokenLoss := calculatePerTokenLoss
  rowIndex := (positions 0 b.layout).map Int.ofNat
  responseLengths := b.responseLengths
  numRows := numRows

/-- The rows that `PaddedRows` indexes. -/
theorem build_eq (b : MicroBatch τ K) (calculatePerTokenLoss : Bool) {logits : List L}
    (h : b.totalLengths.sum ≤ logits.length) :
    PaddedRows.build calculatePerTokenLoss b.batch logits =
      .ok (b.padded calculatePerTokenLoss logits.length) := by
  have hlengths : b.responseLengths.length = b.totalLengths.length := by
    simp [MicroBatch.responseLengths, MicroBatch.totalLengths]
  have hends : (b.batch.cuSeqlensHost.drop 1).take b.batch.responseLengths.length =
      endsFrom 0 b.totalLengths := by
    show ((cuSeqlensHost b.totalLengths b.pad).drop 1).take b.responseLengths.length = _
    rw [hlengths, take_cuSeqlensHost]
  have hindex := flatMap_range_endsFrom (Nat.le_refl 0) b.samples
  have hfits : ¬ ∃ last ∈ (endsFrom 0 b.totalLengths).getLast?, logits.length < last := by
    intro hlast
    obtain ⟨last, hmem, hlt⟩ := hlast
    have hle := le_of_mem_endsFrom (List.mem_of_getLast? hmem)
    omega
  have hprompt : ¬ ∃ row ∈ ((positions 0 b.layout).map Int.ofNat).head?, row < 0 := by
    intro hrow
    obtain ⟨row, hmem, hlt⟩ := hrow
    obtain ⟨n, -, rfl⟩ := List.mem_map.mp (List.mem_of_head? hmem)
    exact absurd (Int.natCast_nonneg n) (Int.not_le.mpr hlt)
  have hcount : ¬ (endsFrom 0 b.totalLengths).length ≠ b.batch.responseLengths.length := by
    rw [length_endsFrom]
    exact not_not.mpr hlengths.symm
  unfold PaddedRows.build
  simp only [hends]
  rw [if_neg hfits, if_neg hcount]
  have hrows : ((endsFrom 0 b.totalLengths).zip b.batch.responseLengths).flatMap (fun x =>
      PyList.range ((x.1 : Int) - x.2 - 1) ((x.1 : Int) - 1)) =
        (positions 0 b.layout).map Int.ofNat := hindex
  rw [hrows, if_neg hprompt]
  rfl

section
variable (b : MicroBatch τ K) (calculatePerTokenLoss : Bool) {numRows : Nat}

theorem index_padded : (b.padded calculatePerTokenLoss numRows).index = positions 0 b.layout := by
  unfold PaddedRows.index
  show (((positions 0 b.layout).map Int.ofNat).map fun row : Int =>
    if row < 0 then (row + numRows).toNat else row.toNat) = _
  rw [List.map_map]
  apply (List.map_congr_left _).trans (List.map_id _)
  intro n _
  have hneg : ¬ ((n : Int) < 0) := by omega
  show (if (n : Int) < 0 then ((n : Int) + numRows).toNat else (n : Int).toNat) = n
  rw [if_neg hneg]
  rfl

theorem map_snd_layout : b.layout.map Prod.snd = b.responseLengths :=
  map_snd_layoutFrom 0 0 b.samples

/-- The rows hold the values on the responses, and `fill` elsewhere. -/
theorem rows_padded {perSample : List (List α)} (fill : α)
    (hvalues : perSample.map List.length = b.responseLengths)
    (h : b.totalLengths.sum ≤ numRows) :
    (b.padded calculatePerTokenLoss numRows).rows perSample fill =
      weave b.layout perSample (List.replicate numRows fill) := by
  unfold PaddedRows.rows
  rw [index_padded]
  have hspan := b.span_layout
  apply Ragged.scatter_positions b.layout [] (List.replicate numRows fill) perSample
  · rw [map_snd_layout, hvalues]
  · rw [List.length_replicate]
    omega

/-- The values on the responses. -/
theorem perSample_eq {rows : List α} (h : b.totalLengths.sum ≤ rows.length) :
    (b.padded calculatePerTokenLoss numRows).perSample rows = some (runs b.layout rows) := by
  have hspan := b.span_layout
  have hmap := @Ragged.map_getElem?_positions _ b.layout rows [] (by omega)
  have hvalues : (positions 0 b.layout).mapM (fun i => rows[i]?) =
      some (runs b.layout rows).flatten := by
    rw [List.mapM_eq_some]
    have hrel := List.forall₂_map_left_iff.mp (List.forall₂_eq_eq_eq ▸ hmap :
      List.Forall₂ Eq ((positions 0 b.layout).map fun i => rows[i]?)
        ((runs b.layout rows).flatten.map some))
    exact List.forall₂_map_right_iff.mp hrel
  unfold PaddedRows.perSample
  rw [index_padded, hvalues, Option.map_some]
  have hlengths := @Ragged.map_length_runs _ b.layout rows (by omega)
  rw [map_snd_layout] at hlengths
  show some (split _ b.responseLengths) = _
  rw [← hlengths, Ragged.split_flatten]

/-- What is laid out on the rows is read back. -/
theorem perSample_rows {perSample : List (List α)} (fill : α)
    (hvalues : perSample.map List.length = b.responseLengths)
    (h : b.totalLengths.sum ≤ numRows) :
    (b.padded calculatePerTokenLoss numRows).perSample
      ((b.padded calculatePerTokenLoss numRows).rows perSample fill) = some perSample := by
  have hspan := b.span_layout
  have hsnd : perSample.map List.length = b.layout.map Prod.snd := by
    rw [hvalues, map_snd_layout]
  have hlength : span b.layout ≤ (List.replicate numRows fill).length := by
    rw [List.length_replicate]
    omega
  rw [rows_padded _ _ _ hvalues h, perSample_eq]
  · rw [Ragged.runs_weave hsnd hlength]
  · rw [Ragged.length_weave hsnd hlength, List.length_replicate]
    exact h

end

end Miles.ResponseLayout
