import Miles.Native.Training.RolloutLoss
import Miles.Spec.Training.DpSchedule

/-!
# A step trains the mean over its rollouts

The samples of a rollout are trained on several ranks and in several micro-batches, each divided
by the mask total of the whole rollout.  Summed up, the losses of a step are one token-weighted
mean for each of its rollouts, whatever the schedule.
-/

namespace Miles.RolloutLoss

open DpSchedule ResponseLayout

variable {ι K : Type} [DecidableEq ι]

/-! ## Mask totals -/

/-- The supervised tokens of a rollout. -/
def maskTotal (rolloutIds : List ι) (lossMasks : List (List Nat)) (rid : ι) : Nat :=
  ((samplesOf rolloutIds rid).map fun pos => (lossMasks.getD pos []).sum).sum

/-- What the loop adds up for a rollout is its mask total. -/
theorem getD_rolloutTotals (rolloutIds : List ι) (lossMasks : List (List Nat))
    (h : lossMasks.length = rolloutIds.length) (rid : ι) :
    (rolloutTotals rolloutIds lossMasks).getD rid 0 = maskTotal rolloutIds lossMasks rid := by
  -- induction from the end, as the loop adds the last sample last
  induction rolloutIds using List.reverseRecOn generalizing lossMasks with
  | nil => rfl
  | append_singleton ids x ih =>
    obtain ⟨masks, mask, rfl⟩ : ∃ masks mask, lossMasks = masks ++ [mask] := by
      have hne : lossMasks ≠ [] := by
        intro hnil
        simp [hnil] at h
      exact ⟨_, _, (List.dropLast_append_getLast hne).symm⟩
    have hlength : masks.length = ids.length := by simpa using h
    have hold : ((samplesOf ids rid).map fun pos => ((masks ++ [mask]).getD pos []).sum) =
        (samplesOf ids rid).map fun pos => (masks.getD pos []).sum := by
      apply List.map_congr_left
      intro pos hpos
      have hlt := (List.getElem?_eq_some_iff.mp (mem_samplesOf.mp hpos)).1
      rw [List.getD_append _ _ _ _ (by omega)]
    have hfold : rolloutTotals (ids ++ [x]) (masks ++ [mask]) = (rolloutTotals ids masks).set x
        ((rolloutTotals ids masks).getD x 0 + mask.sum) := by
      unfold rolloutTotals
      rw [List.zip_append hlength.symm, List.foldl_append]
      rfl
    have hlast : ((masks ++ [mask]).getD ids.length []).sum = mask.sum := by
      rw [← hlength, List.getD_append_right _ _ _ _ (Nat.le_refl _), Nat.sub_self]
      rfl
    have hbefore := ih masks hlength
    unfold maskTotal at hbefore ⊢
    rw [hfold, samplesOf_concat, List.map_append, hold, List.sum_append, ← hbefore]
    unfold PyDict.getD
    rw [PyDict.get?_set]
    by_cases hrid : rid = x
    · subst hrid
      rw [if_pos rfl, if_pos rfl, List.map_singleton, List.sum_singleton, hlast]
      rfl
    · simp [hrid]

/-! ## Rows -/

/-- The row of a sample. -/
def sampleRow (rolloutIds : List ι) (lossMasks : List (List Nat)) (tokenLosses : List (List K))
    (pos : Nat) : TrainRow K where
  lossMask := lossMasks.getD pos []
  rolloutMaskSum := (computeRolloutMaskSums rolloutIds lossMasks).getD pos 0
  tokenLosses := tokenLosses.getD pos []

theorem getElem?_trainRows {rolloutIds : List ι} {lossMasks : List (List Nat)}
    {tokenLosses : List (List K)} (hmasks : lossMasks.length = rolloutIds.length)
    (hlosses : tokenLosses.length = lossMasks.length) {pos : Nat} (hpos : pos < rolloutIds.length) :
    (trainRows rolloutIds lossMasks tokenLosses)[pos]? =
      some (sampleRow rolloutIds lossMasks tokenLosses pos) := by
  have hmask : pos < lossMasks.length := by omega
  have hloss : pos < tokenLosses.length := by omega
  simp [trainRows, sampleRow, computeRolloutMaskSums, List.zip, hpos, hmask, hloss]

/-! ## Micro-batches -/

theorem pick_eq {α : Type} {val : List α} {indices : List Nat} {f : Nat → α}
    (h : ∀ i ∈ indices, val[i]? = some (f i)) : pick val indices = some (indices.map f) := by
  unfold pick
  rw [List.mapM_eq_some, List.forall₂_map_right_iff, List.forall₂_same]
  exact h

section

variable [Field K] [LinearOrder K]

/-- The share of a sample in the mean of its rollout. -/
def sampleShare (row : TrainRow K) : K :=
  maskedSum row.tokenLosses (row.lossMask.map Nat.cast) / max (row.rolloutMaskSum : K) 1

/-- The reduction of a micro-batch is a sum over its samples. -/
theorem microBatchLoss_eq {batch : List (TrainRow K)}
    (h : ∀ row ∈ batch, row.tokenLosses.length = row.lossMask.length) :
    microBatchLoss batch = (batch.map sampleShare).sum := by
  have hlengths : batch.map (·.lossMask.length) =
      (batch.map (·.tokenLosses)).map List.length := by
    rw [List.map_map]
    exact List.map_congr_left fun row hrow => (h row hrow).symm
  unfold microBatchLoss getSumOfSampleMean
  rw [hlengths, Ragged.split_flatten, Option.getD_some, if_neg Bool.false_ne_true]
  congr 1
  clear h hlengths
  induction batch with
  | nil => rfl
  | cons row batch ih =>
    simp only [List.map_cons, List.zipWith_cons_cons]
    rw [ih]
    rfl

/-! ## Rollouts -/

section Rollouts

variable {rolloutIds : List ι} {lossMasks : List (List Nat)} {tokenLosses : List (List K)}

/-- The token-weighted mean of a rollout. -/
def rolloutMean (rolloutIds : List ι) (lossMasks : List (List Nat)) (tokenLosses : List (List K))
    (rid : ι) : K :=
  ((samplesOf rolloutIds rid).map fun pos =>
      maskedSum (tokenLosses.getD pos []) ((lossMasks.getD pos []).map Nat.cast)).sum /
    max (maskTotal rolloutIds lossMasks rid : K) 1

/-- The shares of the samples of a rollout add up to its mean. -/
theorem sum_sampleShare (hmasks : lossMasks.length = rolloutIds.length) (rid : ι) :
    ((samplesOf rolloutIds rid).map fun pos =>
        sampleShare (sampleRow rolloutIds lossMasks tokenLosses pos)).sum =
      rolloutMean rolloutIds lossMasks tokenLosses rid := by
  unfold rolloutMean
  simp only [div_eq_mul_inv]
  rw [← List.sum_map_mul_right]
  congr 1
  apply List.map_congr_left
  intro pos hpos
  -- all samples of the rollout have its mask total
  have htotal : (computeRolloutMaskSums rolloutIds lossMasks).getD pos 0 =
      maskTotal rolloutIds lossMasks rid := by
    rw [← getD_rolloutTotals rolloutIds lossMasks hmasks]
    simp [computeRolloutMaskSums, mem_samplesOf.mp hpos]
  unfold sampleShare sampleRow
  rw [htotal, div_eq_mul_inv]

end Rollouts

/-! ## Sums -/

section Sums

omit [LinearOrder K]

variable {numMicrobatches numRollouts dpSize : Nat}

theorem sum_map_flatMap {α β : Type} (xs : List α) (f : α → List β) (g : β → K) :
    ((xs.flatMap f).map g).sum = (xs.map fun x => ((f x).map g).sum).sum := by
  rw [List.flatMap_def, List.map_flatten, List.sum_flatten, List.map_map, List.map_map]
  rfl

/-- Averaged over the ranks, scaled losses are divided by the number of rollouts. -/
theorem sum_scaledLoss (hdp : (dpSize : K) ≠ 0) (losses : List K) :
    (losses.map (scaledLoss false numMicrobatches numRollouts dpSize)).sum / dpSize =
      losses.sum / numRollouts := by
  show (losses.map fun loss : K => loss / numRollouts * dpSize).sum / dpSize = _
  simp only [div_eq_mul_inv]
  rw [List.sum_map_mul_right, List.sum_map_mul_right, List.map_id', mul_inv_cancel_right₀ hdp]

/-- The scaling for Megatron cancels its average over the micro-batches. -/
theorem scaledLoss_div (h : (numMicrobatches : K) ≠ 0) (loss : K) :
    scaledLoss true numMicrobatches numRollouts dpSize loss / numMicrobatches =
      scaledLoss false numMicrobatches numRollouts dpSize loss := by
  show loss * numMicrobatches / numRollouts * dpSize / numMicrobatches =
    loss / numRollouts * dpSize
  field_simp

end Sums

/-! ## Steps -/

section Steps

variable {W : Type} [LinearOrder W] [Zero W] [Add W] [Sub W] {cfg : TrainParallelConfig}
  {args : Args W} {samples : Samples ι} {sched : DPSchedule} {rows : List (TrainRow K)}
  {rowOf : Nat → TrainRow K} {step rank : Nat}

/-- A planned step has as many rollouts as it counts. -/
theorem length_stepRollouts {globalBatchSize : Nat}
    (hsched : buildDpSchedule cfg args samples globalBatchSize = .ok sched) :
    ((stepRollouts samples.rolloutIndices sched.numRollouts).getD step []).length =
      sched.numRollouts.getD step 0 := by
  have hsum : sched.numRollouts.sum ≤ samples.rolloutIndices.eraseDups.length := by
    rw [(buildDpSchedule_ok hsched).1]
    unfold planSteps
    rw [rolloutIdToSampleIndex_eq, List.length_map, List.sum_append, List.sum_replicate,
      smul_eq_mul]
    have hfull := Nat.div_mul_le_self samples.rolloutIndices.eraseDups.length globalBatchSize
    split_ifs
    · rw [List.sum_singleton]
      omega
    · simpa using hfull
  exact List.length_getD_splitLengths hsum step

theorem getD_rankSteps : (sched.rankSteps rank).getD step [] =
    ((sched.numMicrobatches.splitLengths (sched.microBatchIndices.getD rank [])).getD step []).map
      fun microBatch => microBatch.map ((sched.partitions.getD rank []).getD · 0) :=
  List.getD_map _ [] _

omit [Sub W] in
/-- Each rank has the micro-batches counted for a step. -/
theorem length_rankSteps (valid : ValidSchedule cfg args samples sched)
    (hrank : rank < cfg.dpSize) :
    ((sched.rankSteps rank).getD step []).length = sched.numMicrobatches.getD step 0 := by
  rw [getD_rankSteps, List.length_map]
  exact List.length_getD_splitLengths (valid.counts.2 rank hrank).ge step

omit [Sub W] in
/-- The rows that the ranks read are those of their samples. -/
theorem stepLosses_eq (valid : ValidSchedule cfg args samples sched)
    (hrows : ∀ pos < samples.rolloutIndices.length, rows[pos]? = some (rowOf pos))
    (hrank : rank < cfg.dpSize) :
    stepLosses rows sched step rank = some (((sched.rankSteps rank).getD step []).map
      fun microBatch => microBatchLoss (microBatch.map rowOf)) := by
  have hmem : sched.partitions.getD rank [] ∈ sched.partitions := by
    rw [List.getD_eq_getElem _ _ (by rw [valid.ranks.1]; exact hrank)]
    exact List.getElem_mem _
  have hshard : pick rows (sched.partitions.getD rank []) =
      some ((sched.partitions.getD rank []).map rowOf) := by
    apply pick_eq
    intro pos hpos
    obtain ⟨rid, -, hrid⟩ := (valid.union pos).mp (List.mem_flatten_of_mem hmem hpos)
    exact hrows pos (List.getElem?_eq_some_iff.mp hrid).1
  unfold stepLosses
  rw [hshard]
  simp only [Option.bind_eq_bind, Option.bind_some]
  rw [List.mapM_eq_some, getD_rankSteps, List.map_map, List.forall₂_map_right_iff,
    List.forall₂_same]
  intro microBatch hmicro
  -- the indices of a micro-batch are within the shard
  have hindices : ∀ i ∈ microBatch, i < (sched.partitions.getD rank []).length := by
    intro i hi
    have hgiven := List.mem_flatten_of_mem_getD hmicro
    rw [List.flatten_splitLengths_take] at hgiven
    have htiled := List.mem_flatten_of_mem (List.mem_of_mem_take hgiven) hi
    rw [valid.tiles rank hrank] at htiled
    exact List.mem_range.mp htiled
  have hpick : pick ((sched.partitions.getD rank []).map rowOf) microBatch =
      some (microBatch.map fun i => rowOf ((sched.partitions.getD rank []).getD i 0)) := by
    apply pick_eq
    intro i hi
    rw [List.getElem?_map, List.getElem?_eq_getElem (hindices i hi),
      List.getD_eq_getElem _ _ (hindices i hi)]
    rfl
  rw [hpick]
  simp [Function.comp_def]

end Steps

/-- The losses of a step, summed over the ranks and divided by its number of rollouts, are the mean
    over the rollouts of their token-weighted means, whatever the schedule.  So are the scaled
    losses, averaged over the ranks: added up over a rank's micro-batches, or averaged over them
    with the scaling for Megatron. -/
theorem step_loss [IsStrictOrderedRing K] {W : Type} [LinearOrder W] [Zero W] [Add W] [Sub W]
    (cfg : TrainParallelConfig) (args : Args W) (samples : Samples ι) (globalBatchSize : Nat)
    (sched : DPSchedule) (hsched : buildDpSchedule cfg args samples globalBatchSize = .ok sched)
    (lossMasks : List (List Nat)) (hmasks : lossMasks.length = samples.rolloutIndices.length)
    (tokenLosses : List (List K))
    (hlosses : tokenLosses.map List.length = lossMasks.map List.length)
    (step : Nat) (hstep : step < sched.numRollouts.length) :
    let rollouts := (stepRollouts samples.rolloutIndices sched.numRollouts).getD step []
    let mean := (rollouts.map (rolloutMean samples.rolloutIndices lossMasks tokenLosses)).sum /
      rollouts.length
    let numRollouts := sched.numRollouts.getD step 0
    let numMicrobatches := sched.numMicrobatches.getD step 0
    ∃ losses, (List.range cfg.dpSize).mapM (stepLosses (trainRows samples.rolloutIndices lossMasks
        tokenLosses) sched step) = some losses ∧
      aggregateTrainLosses losses numRollouts = mean ∧
      (losses.flatten.map (scaledLoss false numMicrobatches numRollouts cfg.dpSize)).sum /
        cfg.dpSize = mean ∧
      (losses.flatten.map fun loss : K =>
        scaledLoss true numMicrobatches numRollouts cfg.dpSize loss / (numMicrobatches : K)).sum /
          cfg.dpSize = mean := by
  intro rollouts mean numRollouts numMicrobatches
  have valid := (buildDpSchedule_ok hsched).2
  have hcount : tokenLosses.length = lossMasks.length := by
    simpa using congrArg List.length hlosses
  let row := sampleRow samples.rolloutIndices lossMasks tokenLosses
  have htokens : ∀ pos, (row pos).tokenLosses.length = (row pos).lossMask.length := by
    intro pos
    have h := congrArg (·[pos]?.getD 0) hlosses
    simp only [List.getElem?_map] at h
    simp only [row, sampleRow, List.getD_eq_getElem?_getD]
    cases htoken : tokenLosses[pos]? <;> cases hmask : lossMasks[pos]? <;> simp_all
  -- what the ranks have, and what they have added up
  let losses := (List.range cfg.dpSize).map fun rank =>
    ((sched.rankSteps rank).getD step []).map fun microBatch => microBatchLoss (microBatch.map row)
  have hranks : losses.map List.sum = (List.range cfg.dpSize).map fun rank =>
      (((sched.rankSteps rank).getD step []).flatten.map fun pos => sampleShare (row pos)).sum := by
    rw [List.map_map]
    apply List.map_congr_left
    intro rank _
    rw [List.map_flatten, List.sum_flatten, List.map_map]
    show (List.map _ _).sum = _
    congr 1
    apply List.map_congr_left
    intro microBatch _
    rw [microBatchLoss_eq (by simpa using fun pos _ => htokens pos), List.map_map]
    rfl
  have hsum : losses.flatten.sum =
      (rollouts.map (rolloutMean samples.rolloutIndices lossMasks tokenLosses)).sum := by
    have hperm := ((valid.steps step hstep).map fun pos => sampleShare (row pos)).sum_eq
    unfold DPSchedule.stepSamples at hperm
    rw [valid.ranks.1, sum_map_flatMap, sum_map_flatMap] at hperm
    rw [List.sum_flatten, hranks, hperm]
    congr 1
    apply List.map_congr_left
    intro rid _
    exact sum_sampleShare hmasks rid
  have hmean : losses.flatten.sum / numRollouts = mean := by
    rw [hsum]
    show _ / _ = _ / _
    rw [length_stepRollouts hsched]
  have hscaled : (losses.flatten.map
      (scaledLoss false numMicrobatches numRollouts cfg.dpSize)).sum / cfg.dpSize = mean := by
    rw [sum_scaledLoss (Nat.cast_ne_zero.mpr cfg.dpSize_pos.ne'), hmean]
  refine ⟨losses, ?_, ?_, hscaled, ?_⟩
  · rw [List.mapM_eq_some, List.forall₂_map_right_iff, List.forall₂_same]
    intro rank hrank
    apply stepLosses_eq valid _ (List.mem_range.mp hrank)
    intro pos hpos
    exact getElem?_trainRows hmasks hcount hpos
  · rw [← hmean, List.sum_flatten]
    rfl
  · rw [← hscaled]
    congr 2
    apply List.map_congr_left
    intro loss hloss
    -- a rank with a loss has a micro-batch
    have hpos : (numMicrobatches : K) ≠ 0 := by
      obtain ⟨_, hmem, hloss⟩ := List.mem_flatten.mp hloss
      obtain ⟨rank, hrank, rfl⟩ := List.mem_map.mp hmem
      have hne := List.length_pos_of_mem hloss
      rw [List.length_map, length_rankSteps valid (List.mem_range.mp hrank)] at hne
      exact Nat.cast_ne_zero.mpr hne.ne'
    exact scaledLoss_div hpos loss

/-- Both ranks have a sample of rollout 10, of mean 4, and one of rollout 11, of mean 3. -/
theorem step_loss_fiveSamples :
    ∃ losses : List (List ℚ), (List.range 2).mapM (stepLosses (trainRows fiveSamples.rolloutIndices
        [[1], [1, 1], [1, 0], [1], [1]] [[3], [1, 2], [5, 9], [0], [6]]) fiveSchedule 0) =
      some losses ∧ aggregateTrainLosses losses 2 = 7 / 2 := by
  obtain ⟨losses, hread, hloss, -⟩ := step_loss (K := ℚ) twoRanks eightTokensEach fiveSamples 2
    fiveSchedule buildDpSchedule_fiveSamples [[1], [1, 1], [1, 0], [1], [1]] rfl
    [[3], [1, 2], [5, 9], [0], [6]] rfl 0 (by decide)
  exact ⟨losses, hread, hloss.trans (by decide +kernel)⟩

end

end Miles.RolloutLoss
