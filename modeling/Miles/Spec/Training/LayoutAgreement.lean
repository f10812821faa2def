import Miles.Spec.Training.LayoutReductions

/-!
# The response layouts agree

`PaddedRows` scores every response token at the logit row and with the target that `PackedSlices`
scores it with, and reduces row tensors that agree on the responses to the same numbers.
-/

namespace Miles.ResponseLayout

open ContextParallel PyList
open Ragged (split span runs gaps)

variable {α β τ L S K : Type}

/-! ## Scoring -/

section
variable (b : MicroBatch τ K) (calculatePerTokenLoss : Bool)

theorem map_length_responses : (b.samples.map response).map List.length = b.responseLengths := by
  rw [List.map_map]
  apply List.map_congr_left
  intro s _
  exact length_response s

/-- The rows of a response predict its tokens. -/
theorem targets_padded (pad : τ) (numRows : Nat) :
    (b.padded calculatePerTokenLoss numRows).targets pad =
      (b.padded calculatePerTokenLoss numRows).rows (b.samples.map response) pad := by
  unfold PaddedRows.targets
  congr 1
  show List.zipWith _ (b.samples.map Sample.tokens) (b.samples.map Sample.responseLength) = _
  rw [List.zipWith_map, List.zipWith_self]
  apply List.map_congr_left
  intro s _
  have hprompt := s.has_prompt
  have hstart : (s.tokens.length : Int) - s.responseLength =
      ((s.tokens.length - s.responseLength : Nat) : Int) := by
    omega
  rw [hstart, slice_natCast, List.take_length]
  rfl

/-- Both layouts score a response token at the same logit row, and with the same target. -/
theorem scored_agree (pad : τ) (dispatcher : Option (List K → K)) {logits : List L}
    (h : b.totalLengths.sum ≤ logits.length) :
    ∃ scored, (⟨b.batch, calculatePerTokenLoss, dispatcher⟩ : PackedSlices τ K).scored logits =
        .ok scored ∧
      (b.padded calculatePerTokenLoss logits.length).perSample
        ((b.padded calculatePerTokenLoss logits.length).scored pad logits) = some scored := by
  have hresponses := map_length_responses b
  have htargets := targets_padded b calculatePerTokenLoss pad logits.length
  have hlength := length_rows_padded b calculatePerTokenLoss pad hresponses h
  refine ⟨List.zipWith List.zip (runs b.layout logits) (b.samples.map response), ?_, ?_⟩
  · unfold PackedSlices.scored
    rw [iterResponseChunks_eq b false h, Except.ok_bind, List.zipWith_map_right]
    show Except.ok ((List.zipWith _ _ _).map _) = _
    rw [List.map_zipWith]
  · unfold PaddedRows.scored
    rw [htargets, perSample_eq]
    · rw [List.zip, Ragged.runs_zipWith, runs_rows_padded _ _ _ hresponses h]
    · rw [List.length_zip, hlength, Nat.min_self]
      exact h

/-! ### Row-wise functions -/

/-- A function of the rows that gives each row its results under some names. -/
structure RowWise (L τ S β : Type) where
  keys : List String
  nodup : keys.Nodup
  value : String → L → τ → Option S → β

/-- The results of one name -/
def RowWise.results (f : RowWise L τ S β) (key : String) (logits : List L) (targets : List τ) :
    Option (List S) → List β
  | none => List.zipWith (fun row target => f.value key row target none) logits targets
  | some extra =>
    List.zipWith (fun row side => f.value key row.1 row.2 (some side)) (logits.zip targets) extra

def RowWise.rowFn (f : RowWise L τ S β) : RowFn L τ S β := fun logits targets extra =>
  PyDict.ofList (f.keys.map fun key => (key, f.results key logits targets extra))

theorem RowWise.items_rowFn (f : RowWise L τ S β) (logits : List L) (targets : List τ)
    (extra : Option (List S)) :
    (f.rowFn logits targets extra).items =
      f.keys.map fun key => (key, f.results key logits targets extra) := by
  apply PyDict.items_ofList
  rw [List.map_map]
  have hkeys : (Prod.fst ∘ fun key => (key, f.results key logits targets extra)) = id := rfl
  rw [hkeys, List.map_id]
  exact f.nodup

theorem RowWise.get?_rowFn (f : RowWise L τ S β) {key : String} (hkey : key ∈ f.keys)
    (logits : List L) (targets : List τ) (extra : Option (List S)) :
    (f.rowFn logits targets extra).get? key = some (f.results key logits targets extra) := by
  rw [PyDict.get?_eq_some, f.items_rowFn]
  exact List.mem_map.mpr ⟨key, hkey, rfl⟩

/-- Extending results with those of one more sample -/
theorem get?_extend (results out : PyDict String (List β)) (key : String) :
    (PackedSlices.extend results out).get? key =
      if key ∈ out.keys then some (results.getD key [] ++ out.getD key []) else results.get? key := by
  unfold PackedSlices.extend
  have hfold : ∀ (items : List (String × List β)) (results : PyDict String (List β)),
      (items.map Prod.fst).Nodup →
      (items.foldl (fun results x => results.set x.1 (results.getD x.1 [] ++ x.2)) results).get? key =
        if key ∈ items.map Prod.fst then
          some (results.getD key [] ++ (items.lookup key).getD [])
        else results.get? key := by
    intro items
    induction items with
    | nil => exact fun results _ => rfl
    | cons item items ih =>
      intro results hnodup
      rw [List.map_cons, List.nodup_cons] at hnodup
      rw [List.foldl_cons, ih _ hnodup.2]
      by_cases heq : key = item.1
      · subst heq
        obtain ⟨k, v⟩ := item
        rw [if_neg hnodup.1, if_pos (by simp), PyDict.get?_set, if_pos rfl]
        simp
      · have hlookup : (item :: items).lookup key = items.lookup key := by
          have hne : (key == item.1) = false := by simpa using heq
          obtain ⟨k, v⟩ := item
          simp only [List.lookup, hne]
        have hget : (results.set item.1 (results.getD item.1 [] ++ item.2)).get? key =
            results.get? key := by
          rw [PyDict.get?_set, if_neg heq]
        rw [hlookup, PyDict.getD, hget, PyDict.getD]
        simp only [List.map_cons, List.mem_cons, heq, false_or]
  rw [hfold out.items results out.nodup_keys, PyDict.lookup_items]
  rfl

/-- The results of the samples, one after the other -/
theorem get?_foldl_extend {γ : Type} (out : γ → PyDict String (List β)) {key : String}
    (chunks : List γ) (hkey : ∀ chunk ∈ chunks, key ∈ (out chunk).keys)
    {results : PyDict String (List β)} {value : List β} (h : results.get? key = some value) :
    (chunks.foldl (fun results chunk => PackedSlices.extend results (out chunk)) results).get? key =
      some (value ++ (chunks.map fun chunk => (out chunk).getD key []).flatten) := by
  induction chunks generalizing results value with
  | nil => simpa using h
  | cons chunk chunks ih =>
    have hone : (PackedSlices.extend results (out chunk)).get? key =
        some (value ++ (out chunk).getD key []) := by
      rw [get?_extend, if_pos (hkey chunk List.mem_cons_self), PyDict.getD, h]
      rfl
    rw [List.foldl_cons, ih (fun c hc => hkey c (List.mem_cons_of_mem _ hc)) hone]
    simp

theorem get?_foldl_extend_empty {γ : Type} (out : γ → PyDict String (List β)) {key : String}
    {chunks : List γ} (hchunks : chunks ≠ []) (hkey : ∀ chunk ∈ chunks, key ∈ (out chunk).keys) :
    (chunks.foldl (fun results chunk => PackedSlices.extend results (out chunk))
      PyDict.empty).get? key = some (chunks.map fun chunk => (out chunk).getD key []).flatten := by
  cases chunks with
  | nil => exact absurd rfl hchunks
  | cons chunk chunks =>
    have hone : (PackedSlices.extend PyDict.empty (out chunk)).get? key =
        some ((out chunk).getD key []) := by
      rw [get?_extend, if_pos (hkey chunk List.mem_cons_self)]
      rfl
    rw [List.foldl_cons, get?_foldl_extend out chunks (fun c hc => hkey c (List.mem_cons_of_mem _ hc))
      hone]
    rfl

/-- The side input on the rows -/
theorem rowsAtPositions_padded {numRows : Nat} {side : SideFn S} (sideFill : S)
    (hside : ∀ i positions, (side i positions).length = positions.length)
    (h : b.totalLengths.sum ≤ numRows) :
    ((b.padded calculatePerTokenLoss numRows).rowsAtPositions side sideFill).length = numRows ∧
      runs b.layout ((b.padded calculatePerTokenLoss numRows).rowsAtPositions side sideFill) =
        b.responseLengths.zipIdx.map fun x => side x.2 (PyList.range 0 x.1) := by
  have hvalues : (b.responseLengths.zipIdx.map fun x =>
      side x.2 (PyList.range 0 x.1)).map List.length = b.responseLengths := by
    rw [List.map_map]
    have hlength : (List.length ∘ fun x : Nat × Nat => side x.2 (PyList.range 0 x.1)) = Prod.fst := by
      funext x
      simp [hside]
    rw [hlength, List.zipIdx_map_fst]
  exact ⟨length_rows_padded b _ sideFill hvalues h, runs_rows_padded b _ sideFill hvalues h⟩

/-- What a row-wise function gives on the rows of each response. -/
theorem runs_results (f : RowWise L τ S β) (key : String) (pad : τ) {side : Option (SideFn S)}
    (hside : ∀ g ∈ side, ∀ i positions, (g i positions).length = positions.length) (sideFill : S)
    {logits : List L} (h : b.totalLengths.sum ≤ logits.length) :
    let padded := b.padded calculatePerTokenLoss logits.length
    (f.results key logits (padded.targets pad)
        (side.map fun side => padded.rowsAtPositions side sideFill)).length = logits.length ∧
      runs b.layout (f.results key logits (padded.targets pad)
        (side.map fun side => padded.rowsAtPositions side sideFill)) =
      ((List.zipWith (fun chunk s => (⟨chunk, response s,
          if side.isSome then PyList.range 0 s.responseLength else []⟩ : ResponseChunk L τ))
        (runs b.layout logits) b.samples).zipIdx.map fun x =>
          f.results key x.1.logits x.1.tokens (side.map fun side => side x.2 x.1.responseIndices)) := by
  intro padded
  have hresponses := map_length_responses b
  have htargets := targets_padded b calculatePerTokenLoss pad logits.length
  have htargetsLength := length_rows_padded b calculatePerTokenLoss pad hresponses h
  have htargetsRuns := runs_rows_padded b calculatePerTokenLoss pad hresponses h
  rw [← htargets] at htargetsLength htargetsRuns
  have hcount : (runs b.layout logits).length = b.samples.length := by
    rw [Ragged.length_runs, length_layout]
  cases side with
  | none =>
    constructor
    · show (List.zipWith _ logits (padded.targets pad)).length = _
      rw [List.length_zipWith, htargetsLength, Nat.min_self]
    · show runs b.layout (List.zipWith _ logits (padded.targets pad)) = _
      rw [Ragged.runs_zipWith, htargetsRuns]
      apply List.ext_getElem
      · simp
      · intro i hi hi'
        simp [RowWise.results]
  | some g =>
    obtain ⟨hextraLength, hextraRuns⟩ :=
      rowsAtPositions_padded b calculatePerTokenLoss sideFill (hside g rfl) h
    constructor
    · show (List.zipWith _ (logits.zip (padded.targets pad)) (padded.rowsAtPositions g sideFill)).length = _
      rw [List.length_zipWith, List.length_zip, htargetsLength, hextraLength, Nat.min_self,
        Nat.min_self]
    · show runs b.layout (List.zipWith _ (logits.zip (padded.targets pad))
        (padded.rowsAtPositions g sideFill)) = _
      rw [Ragged.runs_zipWith, hextraRuns, List.zip, Ragged.runs_zipWith, htargetsRuns]
      apply List.ext_getElem
      · simp [hcount, MicroBatch.responseLengths]
      · intro i hi hi'
        simp [RowWise.results, MicroBatch.responseLengths, List.zip]

/-- A row-wise function has the same result for every response token. -/
theorem mapLogitRows_agree (f : RowWise L τ S β) (pad : τ) {side : Option (SideFn S)}
    (hside : ∀ g ∈ side, ∀ i positions, (g i positions).length = positions.length) (sideFill : S)
    (dispatcher : Option (List K → K)) {logits : List L} (h : b.totalLengths.sum ≤ logits.length) :
    ∃ results, (⟨b.batch, calculatePerTokenLoss, dispatcher⟩ : PackedSlices τ K).mapLogitRows logits
        f.rowFn side = .ok results ∧
      ∀ key ∈ f.keys, ∃ x y,
        ((b.padded calculatePerTokenLoss logits.length).mapLogitRows pad logits f.rowFn side
          sideFill).get? key = some x ∧
        results.get? key = some y ∧
        (b.padded calculatePerTokenLoss logits.length).perSample x =
          some ((⟨b.batch, calculatePerTokenLoss, dispatcher⟩ : PackedSlices τ K).perSample y) := by
  have hspan := b.span_layout
  unfold PackedSlices.mapLogitRows
  rw [iterResponseChunks_eq b side.isSome h, Except.ok_bind]
  refine ⟨_, rfl, fun key hkey => ?_⟩
  obtain ⟨hlength, hruns⟩ := runs_results b calculatePerTokenLoss f key pad hside sideFill h
  refine ⟨_, _, f.get?_rowFn hkey _ _ _, get?_foldl_extend_empty _ ?_ ?_, ?_⟩
  · -- a micro-batch has a sample
    intro hnil
    have hzero := congrArg List.length hnil
    have hcount : (runs b.layout logits).length = b.samples.length := by
      rw [Ragged.length_runs, length_layout]
    simp [hcount] at hzero
    exact b.nonempty hzero
  · intro chunk _
    exact PyDict.mem_keys_iff.mpr ⟨_, f.get?_rowFn hkey _ _ _⟩
  · have hvalues (logits : List L) (targets : List τ) (extra : Option (List S)) :
        (f.rowFn logits targets extra).getD key [] = f.results key logits targets extra := by
      rw [PyDict.getD, f.get?_rowFn hkey]
      rfl
    simp only [hvalues]
    rw [perSample_eq b _ (by rw [hlength]; exact h), ← hruns]
    have hlengths := @Ragged.map_length_runs _ b.layout (f.results key logits
      ((b.padded calculatePerTokenLoss logits.length).targets pad)
      (side.map fun side =>
        (b.padded calculatePerTokenLoss logits.length).rowsAtPositions side sideFill))
      (by rw [hlength]; omega)
    rw [map_snd_layout] at hlengths
    show _ = some (split _ (b.lossMasks.map List.length))
    rw [map_length_lossMasks, ← hlengths, Ragged.split_flatten]

end

/-! ## The layouts -/

/-- The packed layout of a micro-batch -/
def MicroBatch.packed (b : MicroBatch τ K) (calculatePerTokenLoss : Bool)
    (dispatcher : Option (List K → K)) : PackedSlices τ K where
  batch := b.batch
  calculatePerTokenLoss := calculatePerTokenLoss
  dispatcherSumOfSampleMean := dispatcher

/-- Reading back what is laid out on packed rows. -/
theorem perSample_packed (b : MicroBatch τ K) (calculatePerTokenLoss : Bool)
    (dispatcher : Option (List K → K)) {perSample : List (List α)}
    (hvalues : perSample.map List.length = b.responseLengths) :
    (b.packed calculatePerTokenLoss dispatcher).perSample
      ((b.packed calculatePerTokenLoss dispatcher).rows perSample) = perSample := by
  show split perSample.flatten (b.lossMasks.map List.length) = perSample
  rw [map_length_lossMasks, ← hvalues, Ragged.split_flatten]

/-- For every micro-batch whose samples have a prompt, on any number of rows that it fits: both
    layouts read back what they lay out, score each response token at the same logit row with the
    same target, and reduce rows that agree on the responses to the per-sample definition, whatever
    stands in the other rows. -/
theorem layouts_agree [Field K] [LinearOrder K] (b : MicroBatch τ K) (calculatePerTokenLoss : Bool)
    {dispatcher : Option (List K → K)}
    (hdispatcher : ∀ reduce ∈ dispatcher, reduce = getSumOfSampleMean b.responseLengths b.lossMasks
      calculatePerTokenLoss b.rolloutMaskSums)
    {logits : List L} (hrows : b.totalLengths.sum ≤ logits.length) :
    ∃ padded, PaddedRows.build calculatePerTokenLoss b.batch logits = .ok padded ∧
      (∀ (α : Type) (v : List (List α)) (fill : α), v.map List.length = b.responseLengths →
        padded.perSample (padded.rows v fill) = some v ∧
        (b.packed calculatePerTokenLoss dispatcher).perSample
          ((b.packed calculatePerTokenLoss dispatcher).rows v) = v) ∧
      (∀ pad, ∃ scored,
        (b.packed calculatePerTokenLoss dispatcher).scored logits = .ok scored ∧
        padded.perSample (padded.scored pad logits) = some scored) ∧
      (∀ (S β : Type) (f : RowWise L τ S β) (pad : τ) (side : Option (SideFn S)) (sideFill : S),
        (∀ g ∈ side, ∀ i positions, (g i positions).length = positions.length) →
        ∃ results,
          (b.packed calculatePerTokenLoss dispatcher).mapLogitRows logits f.rowFn side =
            .ok results ∧
          ∀ key ∈ f.keys, ∃ x y,
            (padded.mapLogitRows pad logits f.rowFn side sideFill).get? key = some x ∧
            results.get? key = some y ∧
            padded.perSample x =
              some ((b.packed calculatePerTokenLoss dispatcher).perSample y)) ∧
      padded.perSample padded.lossMasks = some b.lossMasks ∧
      (b.packed calculatePerTokenLoss dispatcher).perSample
        (b.packed calculatePerTokenLoss dispatcher).lossMasks = b.lossMasks ∧
      ∀ x y : List K, x.length = logits.length →
        padded.perSample x = some ((b.packed calculatePerTokenLoss dispatcher).perSample y) →
        padded.sumOfSampleMean x = getSumOfSampleMean b.responseLengths b.lossMasks
          calculatePerTokenLoss b.rolloutMaskSums y ∧
        (b.packed calculatePerTokenLoss dispatcher).sumOfSampleMean y =
          getSumOfSampleMean b.responseLengths b.lossMasks calculatePerTokenLoss
            b.rolloutMaskSums y ∧
        (∀ masks : List (List K), masks.map List.length = b.responseLengths →
          padded.reducer masks x = getSumOfSampleMean b.responseLengths masks
            calculatePerTokenLoss b.rolloutMaskSums y ∧
          (b.packed calculatePerTokenLoss dispatcher).reducer masks y =
            getSumOfSampleMean b.responseLengths masks calculatePerTokenLoss
              b.rolloutMaskSums y) ∧
        ∀ safeExpNegPpoKl : K → K, padded.essRatio safeExpNegPpoKl x =
          (b.packed calculatePerTokenLoss dispatcher).essRatio safeExpNegPpoKl y := by
  have hmasks := map_length_lossMasks b
  refine ⟨_, build_eq b calculatePerTokenLoss hrows, ?_, ?_, ?_, ?_, ?_, ?_⟩
  · intro α v fill hv
    exact ⟨perSample_rows b _ fill hv hrows, perSample_packed b _ _ hv⟩
  · exact fun pad => scored_agree b _ pad dispatcher hrows
  · exact fun S β f pad side sideFill hside =>
      mapLogitRows_agree b _ f pad hside sideFill dispatcher hrows
  · exact perSample_rows b _ 0 hmasks hrows
  · exact perSample_packed b _ dispatcher hmasks
  · intro x y hx hxy
    rw [← hx] at hrows
    rw [← hx, perSample_eq b _ hrows] at hxy
    -- the padded rows carry the response parts of the packed ones
    have hagree : runs b.layout x = split y b.responseLengths := by
      rw [← hmasks]
      exact Option.some.inj hxy
    rw [← hx]
    refine ⟨reducer_padded b _ hmasks hrows hagree, ?_, fun masks hother => ?_, fun f => ?_⟩
    · cases hdispatch : dispatcher with
      | none => rfl
      | some reduce => exact congrFun (hdispatcher reduce hdispatch) y
    · exact ⟨reducer_padded b _ hother hrows hagree, rfl⟩
    · exact essRatio_padded b _ f hrows hagree

/-- Two samples, of which the second has no response -/
def twoSamples : MicroBatch Nat ℚ where
  samples := [⟨[5, 6, 7], 2, by decide⟩, ⟨[8, 9], 0, by decide⟩]
  nonempty := by decide
  lossMasks := [[1, 0], []]
  length_lossMasks := rfl
  rolloutMaskSums := none
  length_rolloutMaskSums := fun sums h => by cases h
  pad := 1

theorem layouts_agree_twoSamples : ∃ padded,
    PaddedRows.build false twoSamples.batch (List.range 8) = .ok padded ∧
      padded.sumOfSampleMean [4, 3, 5, 6, 7, 8, 9, 1] =
        (twoSamples.packed false none).sumOfSampleMean [4, 3] := by
  have hnone : ∀ reduce ∈ (none : Option (List ℚ → ℚ)), reduce =
      getSumOfSampleMean twoSamples.responseLengths twoSamples.lossMasks false
        twoSamples.rolloutMaskSums := by
    intro reduce hreduce
    cases hreduce
  obtain ⟨padded, hbuild, -, -, -, -, -, hreduce⟩ :=
    @layouts_agree Nat Nat ℚ _ _ twoSamples false none hnone (List.range 8) (by decide)
  have hrows : padded.perSample [4, 3, 5, 6, 7, 8, 9, 1] =
      some ((twoSamples.packed false none).perSample [(4 : ℚ), 3]) := by
    have hpadded := (@build_eq Nat Nat ℚ twoSamples false (List.range 8) (by decide)).symm.trans hbuild
    cases hpadded
    rfl
  obtain ⟨hsum, hsum', -⟩ := hreduce [4, 3, 5, 6, 7, 8, 9, 1] [4, 3] rfl hrows
  exact ⟨padded, hbuild, hsum.trans hsum'.symm⟩

end Miles.ResponseLayout
