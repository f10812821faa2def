import Miles.Spec.Training.ResponseLayout
import Mathlib.Algebra.BigOperators.Ring.List
import Mathlib.Tactic.Ring

/-!
# What the layouts reduce to

The rows of `PaddedRows` outside the responses are masked out, and every row of a response is
divided by the divisor of its sample: the reductions over all rows are those over the responses.
-/

namespace Miles.ResponseLayout

open ContextParallel PyList
open Ragged (split scatter indexAdd span runs gaps positions weave)

variable {α τ K : Type}

/-! ## Rows -/

section
variable (b : MicroBatch τ K) (calculatePerTokenLoss : Bool) {numRows : Nat}

theorem length_of_map {x : List (List α)} (hx : x.map List.length = b.responseLengths) :
    x.length = b.samples.length := by
  have hlength := congrArg List.length hx
  simpa [MicroBatch.responseLengths] using hlength

theorem length_rows_padded {perSample : List (List α)} (fill : α)
    (hvalues : perSample.map List.length = b.responseLengths)
    (h : b.totalLengths.sum ≤ numRows) :
    ((b.padded calculatePerTokenLoss numRows).rows perSample fill).length = numRows := by
  have hspan := b.span_layout
  rw [rows_padded _ _ _ hvalues h, Ragged.length_weave, List.length_replicate]
  · rw [hvalues, map_snd_layout]
  · rw [List.length_replicate]
    omega

theorem runs_rows_padded {perSample : List (List α)} (fill : α)
    (hvalues : perSample.map List.length = b.responseLengths)
    (h : b.totalLengths.sum ≤ numRows) :
    runs b.layout ((b.padded calculatePerTokenLoss numRows).rows perSample fill) = perSample := by
  have hspan := b.span_layout
  rw [rows_padded _ _ _ hvalues h, Ragged.runs_weave]
  · rw [hvalues, map_snd_layout]
  · rw [List.length_replicate]
    omega

/-- Outside the responses stands `fill`. -/
theorem eq_of_mem_gaps_rows {perSample : List (List α)} {fill a : α}
    (hvalues : perSample.map List.length = b.responseLengths)
    (h : b.totalLengths.sum ≤ numRows)
    (ha : a ∈ gaps b.layout ((b.padded calculatePerTokenLoss numRows).rows perSample fill)) :
    a = fill := by
  have hspan := b.span_layout
  rw [rows_padded _ _ _ hvalues h, Ragged.gaps_weave] at ha
  · exact List.eq_of_mem_replicate (Ragged.mem_gaps ha)
  · rw [hvalues, map_snd_layout]
  · rw [List.length_replicate]
    omega

/-- A sample has a row of its own to hold its sums. -/
theorem length_samples_le : b.samples.length ≤ b.totalLengths.sum := by
  unfold MicroBatch.totalLengths
  induction b.samples with
  | nil => exact Nat.le_refl 0
  | cons s samples ih =>
    have hprompt := s.has_prompt
    rw [List.length_cons, List.map_cons, List.sum_cons]
    omega

theorem length_layout : b.layout.length = b.samples.length := by
  have hlength := congrArg List.length (map_snd_layout b)
  simpa [MicroBatch.responseLengths] using hlength

theorem map_length_lossMasks : b.lossMasks.map List.length = b.responseLengths :=
  b.length_lossMasks

/-- The ids of the samples, on their rows -/
theorem runs_sampleIds (h : b.totalLengths.sum ≤ numRows) :
    runs b.layout ((b.padded calculatePerTokenLoss numRows).rows
      (b.responseLengths.zipIdx.map fun x => List.replicate x.1 x.2) 0) =
        (b.layout.map Prod.snd).zipIdx.map fun x => List.replicate x.1 x.2 := by
  rw [runs_rows_padded, map_snd_layout]
  · rw [List.map_map]
    have hlength : (List.length ∘ fun x : Nat × Nat => List.replicate x.1 x.2) = Prod.fst := by
      funext x
      simp
    rw [hlength, List.zipIdx_map_fst]
  · exact h

theorem length_sampleIds (h : b.totalLengths.sum ≤ numRows) :
    ((b.padded calculatePerTokenLoss numRows).rows
      (b.responseLengths.zipIdx.map fun x => List.replicate x.1 x.2) 0).length = numRows := by
  apply length_rows_padded
  · rw [List.map_map]
    have hlength : (List.length ∘ fun x : Nat × Nat => List.replicate x.1 x.2) = Prod.fst := by
      funext x
      simp
    rw [hlength, List.zipIdx_map_fst]
  · exact h

end

/-! ## Sums -/

section
variable [Field K]

theorem sum_zipWith_div (x : List K) (d : K) :
    (List.zipWith (· / ·) x (List.replicate x.length d)).sum = x.sum / d := by
  induction x with
  | nil => simp
  | cons a x ih =>
    rw [List.length_cons, List.replicate_succ, List.zipWith_cons_cons, List.sum_cons, ih,
      List.sum_cons, add_div]

/-- Dividing every row of a sample divides the sum of the sample. -/
theorem sums_div {products : List (List K)} {denominators : List K}
    (h : denominators.length = products.length) :
    (List.zipWith (List.zipWith (· / ·)) products
        (List.zipWith (fun denominator length => List.replicate length denominator) denominators
          (products.map List.length))).map List.sum =
      List.zipWith (· / ·) (products.map List.sum) denominators := by
  induction products generalizing denominators with
  | nil => simp
  | cons product products ih =>
    cases denominators with
    | nil => cases h
    | cons denominator denominators =>
      simp only [List.map_cons, List.zipWith_cons_cons, sum_zipWith_div, ih (Nat.succ.inj h)]

theorem map_sum_zipWith_mul (x masks : List (List K)) :
    (List.zipWith (List.zipWith (· * ·)) x masks).map List.sum = List.zipWith maskedSum x masks := by
  rw [List.map_zipWith]
  rfl

/-- The masked rows of a sample are as many as its response. -/
theorem length_products {x masks : List (List K)} {lengths : List Nat}
    (hx : x.map List.length = lengths) (hmasks : masks.map List.length = lengths) :
    (List.zipWith (List.zipWith (· * ·)) x masks).map List.length = lengths := by
  rw [← hx] at hmasks ⊢
  clear hx
  induction x generalizing masks with
  | nil => rfl
  | cons run x ih =>
    cases masks with
    | nil => cases hmasks
    | cons mask masks =>
      rw [List.map_cons, List.map_cons, List.cons.injEq] at hmasks
      rw [List.zipWith_cons_cons, List.map_cons, List.map_cons, ih hmasks.2, List.length_zipWith,
        hmasks.1, Nat.min_self]

/-- A reduction over rows whose gaps are masked out. -/
theorem reduceRows_eq (layout : Ragged.Layout) {x masks denominators : List K}
    (hx : x.length = masks.length) (hd : denominators.length = masks.length)
    (hmasks : ∀ a ∈ gaps layout masks, a = 0) :
    PaddedRows.reduceRows masks denominators x =
      ((List.zipWith (List.zipWith (· / ·))
        (List.zipWith (List.zipWith (· * ·)) (runs layout x) (runs layout masks))
        (runs layout denominators)).map List.sum).sum := by
  have hproduct : (List.zipWith (· * ·) x masks).length = denominators.length := by
    rw [List.length_zipWith]
    omega
  unfold PaddedRows.reduceRows
  rw [Ragged.sum_of_gaps_zero, Ragged.runs_zipWith, Ragged.runs_zipWith]
  intro a ha
  rw [Ragged.gaps_zipWith _ hproduct, Ragged.gaps_zipWith _ hx] at ha
  obtain ⟨i, hi, rfl⟩ := List.getElem_of_mem ha
  rw [List.getElem_zipWith, List.getElem_zipWith, hmasks _ (List.getElem_mem _), mul_zero, zero_div]

/-- A row without a sample has no ratio. -/
theorem sum_ratios_append (ratio : K → K → K → K) (hratio : ratio 0 0 1 = 0)
    {sumW sumW2 numValid : List K} (rest : Nat) (hw : sumW.length = sumW2.length)
    (hn : sumW.length = numValid.length) :
    (List.zipWith (fun sums numValid => ratio sums.1 sums.2 numValid)
      ((sumW ++ List.replicate rest 0).zip (sumW2 ++ List.replicate rest 0))
      (numValid ++ List.replicate rest 1)).sum =
    (List.zipWith (fun sums numValid => ratio sums.1 sums.2 numValid) (sumW.zip sumW2)
      numValid).sum := by
  have hzip : (sumW.zip sumW2).length = numValid.length := by
    rw [List.length_zip, ← hw, Nat.min_self, hn]
  rw [List.zip_append hw, List.zipWith_append hzip, List.sum_append]
  simp [hratio]

theorem zipWith_mul_right {β : Type} (f : β → K → K) (x : List β) (y : List K) :
    List.zipWith (· * ·) (List.zipWith f x y) y = List.zipWith (fun a b => f a b * b) x y := by
  induction x generalizing y with
  | nil => rfl
  | cons a x ih =>
    cases y with
    | nil => rfl
    | cons b y => simp [ih]

end

/-! ## Reductions -/

section
variable [Field K] [LinearOrder K] (b : MicroBatch τ K) (calculatePerTokenLoss : Bool) {numRows : Nat}

/-- The divisors of a sample's rows. -/
theorem runs_meanDenominators {masks : List (List K)}
    (hmasks : masks.map List.length = b.responseLengths) (h : b.totalLengths.sum ≤ numRows) :
    ((b.padded calculatePerTokenLoss numRows).meanDenominators masks).length = numRows ∧
      runs b.layout ((b.padded calculatePerTokenLoss numRows).meanDenominators masks) =
        List.zipWith (fun denominator length => List.replicate length denominator)
          (if calculatePerTokenLoss then List.replicate b.samples.length 1
          else (b.rolloutMaskSums.getD (masks.map List.sum)).map (max · 1)) b.responseLengths := by
  have hspan := b.span_layout
  have hcount := length_of_map b hmasks
  unfold PaddedRows.meanDenominators
  cases calculatePerTokenLoss with
  | true =>
    show (List.replicate numRows (1 : K)).length = numRows ∧
      runs b.layout (List.replicate numRows (1 : K)) =
        List.zipWith (fun denominator length => List.replicate length denominator)
          (List.replicate b.samples.length 1) b.responseLengths
    rw [Ragged.runs_replicate b.layout (by omega), List.length_replicate, ← map_snd_layout]
    have hlayout : b.samples.length = b.layout.length := by
      have hlength := congrArg List.length (map_snd_layout b)
      simpa [MicroBatch.responseLengths] using hlength.symm
    refine ⟨rfl, ?_⟩
    rw [hlayout]
    apply List.ext_getElem
    · simp
    · intro i hi hi'
      simp
  | false =>
    have hsums : (b.rolloutMaskSums.getD (masks.map List.sum)).length = b.responseLengths.length := by
      have hsamples : b.responseLengths.length = b.samples.length := List.length_map ..
      cases hsome : b.rolloutMaskSums with
      | none =>
        show (masks.map List.sum).length = _
        rw [List.length_map, hcount, hsamples]
      | some sums =>
        show sums.length = _
        rw [b.length_rolloutMaskSums sums hsome, hsamples]
    have hvalues : (List.zipWith (fun denominator length =>
        List.replicate length (max denominator 1)) (b.rolloutMaskSums.getD (masks.map List.sum))
          b.responseLengths).map List.length = b.responseLengths := by
      rw [List.map_zipWith]
      apply List.ext_getElem
      · simp [hsums]
      · intro i hi hi'
        simp
    constructor
    · exact length_rows_padded b false 1 hvalues h
    · refine (runs_rows_padded b false 1 hvalues h).trans ?_
      show _ = List.zipWith (fun denominator length => List.replicate length denominator)
        ((b.rolloutMaskSums.getD (masks.map List.sum)).map (max · 1)) b.responseLengths
      rw [List.zipWith_map_left]

/-- `reducer` reduces like `get_sum_of_sample_mean`. -/
theorem reducer_padded {masks : List (List K)} {x y : List K}
    (hmasks : masks.map List.length = b.responseLengths) (h : b.totalLengths.sum ≤ x.length)
    (hxy : runs b.layout x = split y b.responseLengths) :
    (b.padded calculatePerTokenLoss x.length).reducer masks x =
      getSumOfSampleMean b.responseLengths masks calculatePerTokenLoss b.rolloutMaskSums y := by
  have hspan := b.span_layout
  obtain ⟨hlength, hruns⟩ := runs_meanDenominators b calculatePerTokenLoss hmasks h
  have hy : (split y b.responseLengths).map List.length = b.responseLengths := by
    rw [← hxy, Ragged.map_length_runs (by omega), map_snd_layout]
  have hproducts := length_products hy hmasks
  have hcount := length_of_map b hproducts
  -- a sample's rows are divided by its divisor
  have hsums (denominators : List K) (hd : denominators.length = b.samples.length) :
      (List.zipWith (List.zipWith (· / ·))
        (List.zipWith (List.zipWith (· * ·)) (split y b.responseLengths) masks)
        (List.zipWith (fun denominator length => List.replicate length denominator)
          denominators b.responseLengths)).map List.sum =
        List.zipWith (· / ·) (List.zipWith maskedSum (split y b.responseLengths) masks)
          denominators := by
    have hdiv := sums_div (hd.trans hcount.symm)
    rw [hproducts, map_sum_zipWith_mul] at hdiv
    exact hdiv
  have hmasked : (List.zipWith maskedSum (split y b.responseLengths) masks).length =
      b.samples.length := by
    rw [← map_sum_zipWith_mul, List.length_map, hcount]
  unfold PaddedRows.reducer
  rw [reduceRows_eq b.layout, runs_rows_padded _ _ _ hmasks h, hruns, hxy]
  · cases calculatePerTokenLoss with
    | true =>
      have hones : List.zipWith (· / ·) (List.zipWith maskedSum (split y b.responseLengths) masks)
          (List.replicate b.samples.length 1) =
            List.zipWith maskedSum (split y b.responseLengths) masks := by
        apply List.ext_getElem
        · rw [List.length_zipWith, List.length_replicate, hmasked, Nat.min_self]
        · intro i hi hi'
          rw [List.getElem_zipWith, List.getElem_replicate, div_one]
      show ((List.zipWith _ _ (List.zipWith _ (List.replicate b.samples.length 1) _)).map
        List.sum).sum = _
      rw [hsums _ List.length_replicate, hones]
      rfl
    | false =>
      have hd : ((b.rolloutMaskSums.getD (masks.map List.sum)).map (max · 1)).length =
          b.samples.length := by
        rw [List.length_map]
        cases hsome : b.rolloutMaskSums with
        | none =>
          show (masks.map List.sum).length = _
          rw [List.length_map, length_of_map b hmasks]
        | some sums => exact b.length_rolloutMaskSums sums hsome
      show ((List.zipWith _ _ (List.zipWith _
        ((b.rolloutMaskSums.getD (masks.map List.sum)).map (max · 1)) _)).map List.sum).sum = _
      rw [hsums _ hd, List.zipWith_map_right]
      rfl
  · rw [length_rows_padded _ _ _ hmasks h]
  · rw [hlength, length_rows_padded _ _ _ hmasks h]
  · exact fun a ha => eq_of_mem_gaps_rows b _ hmasks h ha

/-! ## Effective sample size -/

/-- The ratios of the samples, from the sums of their masked weights. -/
theorem zipWith_sums (ratio : K → K → K → K) (weights masks : List (List K)) :
    List.zipWith (fun sums numValid => ratio sums.1 sums.2 numValid)
      (((List.zipWith (List.zipWith (· * ·)) weights masks).map List.sum).zip
        ((List.zipWith (List.zipWith (· * ·)) (List.zipWith (List.zipWith (· * ·)) weights masks)
          (List.zipWith (List.zipWith (· * ·)) weights masks)).map List.sum))
      (masks.map fun mask => max mask.sum 1) =
    List.zipWith (fun weights mask => ratio (List.zipWith (· * ·) weights mask).sum
      (List.zipWith (· * ·) (List.zipWith (· * ·) weights mask)
        (List.zipWith (· * ·) weights mask)).sum (max mask.sum 1)) weights masks := by
  induction weights generalizing masks with
  | nil => rfl
  | cons w weights ih =>
    cases masks with
    | nil => rfl
    | cons mask masks =>
      simp only [List.zipWith_cons_cons, List.map_cons, List.zip_cons_cons, ih]

/-- A sample's part of the contribution. -/
def ratioOf (calculatePerTokenLoss : Bool) (sumW sumW2 numValid : K) : K :=
  if calculatePerTokenLoss then essRatioOf sumW sumW2 numValid * numValid
  else essRatioOf sumW sumW2 numValid

/-- What the ratios are taken of. -/
theorem essRatio_eq (safeExpNegPpoKl : K → K) (x : List K) {p : PaddedRows τ K} :
    p.essRatio safeExpNegPpoKl x =
      let ids := p.rows (p.responseLengths.zipIdx.map fun x => List.replicate x.1 x.2) 0
      let weights := List.zipWith (· * ·) (x.map safeExpNegPpoKl) (p.rows p.batch.lossMasks 0)
      let zeros := List.replicate weights.length 0
      (List.zipWith (fun sums numValid => ratioOf p.calculatePerTokenLoss sums.1 sums.2 numValid)
        ((indexAdd ids weights zeros).zip (indexAdd ids (List.zipWith (· * ·) weights weights) zeros))
        (p.batch.lossMasks.map (fun mask => max mask.sum 1) ++
          (List.replicate p.numRows 1).drop p.responseLengths.length)).sum := by
  unfold PaddedRows.essRatio
  cases p.calculatePerTokenLoss with
  | true =>
    simp only [if_true]
    rw [zipWith_mul_right]
    rfl
  | false => rfl

/-- `ess_ratio` is the per-sample definition. -/
theorem essRatio_padded (safeExpNegPpoKl : K → K) {x y : List K}
    (h : b.totalLengths.sum ≤ x.length) (hxy : runs b.layout x = split y b.responseLengths) :
    (b.padded calculatePerTokenLoss x.length).essRatio safeExpNegPpoKl x =
      computeEssRatioContribution safeExpNegPpoKl y b.lossMasks calculatePerTokenLoss := by
  have hspan := b.span_layout
  have hsamples := length_samples_le b
  have hmasks := map_length_lossMasks b
  have hlayout := length_layout b
  have hmaskLength := length_rows_padded b calculatePerTokenLoss (0 : K) hmasks h
  -- the masked weights on the rows
  obtain ⟨weights, hweights⟩ : ∃ weights, weights = List.zipWith (· * ·) (x.map safeExpNegPpoKl)
    ((b.padded calculatePerTokenLoss x.length).rows b.lossMasks 0) := ⟨_, rfl⟩
  have hlength : weights.length = x.length := by
    rw [hweights, List.length_zipWith, List.length_map, hmaskLength, Nat.min_self]
  have hgaps : ∀ a ∈ gaps b.layout weights, a = 0 := by
    intro a ha
    rw [hweights, Ragged.gaps_zipWith _ (by rw [List.length_map, hmaskLength])] at ha
    obtain ⟨i, hi, rfl⟩ := List.getElem_of_mem ha
    rw [List.getElem_zipWith, eq_of_mem_gaps_rows b _ hmasks h (List.getElem_mem _), mul_zero]
  have hruns : runs b.layout weights = List.zipWith (List.zipWith (· * ·))
      (split (y.map safeExpNegPpoKl) b.responseLengths) b.lossMasks := by
    rw [hweights, Ragged.runs_zipWith, Ragged.runs_map, hxy, ← Ragged.split_map,
      runs_rows_padded _ _ _ hmasks h]
  have hsquares : ∀ a ∈ gaps b.layout (List.zipWith (· * ·) weights weights), a = 0 := by
    intro a ha
    rw [Ragged.gaps_zipWith _ rfl] at ha
    obtain ⟨i, hi, rfl⟩ := List.getElem_of_mem ha
    rw [List.getElem_zipWith, hgaps _ (List.getElem_mem _), mul_zero]
  have hsquaresLength : (List.zipWith (· * ·) weights weights).length = x.length := by
    rw [List.length_zipWith, Nat.min_self, hlength]
  have hids := runs_sampleIds b calculatePerTokenLoss h
  have hidsLength := length_sampleIds b calculatePerTokenLoss h
  -- the sums of the samples land in the first rows
  have hsumW := Ragged.indexAdd_runs (hidsLength.trans hlength.symm) (by omega) hids hgaps
    (n := x.length) (by omega)
  have hsumW2 := Ragged.indexAdd_runs (hidsLength.trans hsquaresLength.symm) (by omega) hids hsquares
    (n := x.length) (by omega)
  have hcount : (runs b.layout weights).length = b.lossMasks.length := by
    rw [Ragged.length_runs, hlayout, length_of_map b hmasks]
  have hlengths : b.responseLengths.length = b.layout.length := by
    rw [hlayout]
    exact List.length_map ..
  have hess : (b.padded calculatePerTokenLoss x.length).essRatio safeExpNegPpoKl x =
      (List.zipWith (fun sums numValid => ratioOf calculatePerTokenLoss sums.1 sums.2 numValid)
        ((indexAdd ((b.padded calculatePerTokenLoss x.length).rows
            (b.responseLengths.zipIdx.map fun x => List.replicate x.1 x.2) 0) weights
            (List.replicate weights.length 0)).zip
          (indexAdd ((b.padded calculatePerTokenLoss x.length).rows
            (b.responseLengths.zipIdx.map fun x => List.replicate x.1 x.2) 0)
            (List.zipWith (· * ·) weights weights) (List.replicate weights.length 0)))
        (b.lossMasks.map (fun mask => max mask.sum 1) ++
          (List.replicate x.length 1).drop b.responseLengths.length)).sum := by
    rw [hweights]
    exact essRatio_eq safeExpNegPpoKl x
  have hzero : ratioOf calculatePerTokenLoss (0 : K) 0 1 = 0 := by
    simp [ratioOf, essRatioOf]
  rw [hess, hlength, hsumW, hsumW2, List.drop_replicate, hlengths,
    sum_ratios_append _ hzero _ (by simp [Ragged.length_runs]) (by simp [hcount]),
    Ragged.runs_zipWith, hruns, zipWith_sums]
  unfold computeEssRatioContribution
  rw [hmasks]
  rfl

end

end Miles.ResponseLayout
