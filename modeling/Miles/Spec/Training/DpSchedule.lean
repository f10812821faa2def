import Mathlib
import Miles.ForStd.Except
import Miles.Native.Training.DpSchedule
import Miles.Spec.Training.Balancing

/-!
# The data-parallel schedule trains each sample once

A schedule is compared with what it is for: the rollouts in first-seen order are cut into
steps, and the samples of a step are spread over the ranks in micro-batches of one count.
-/

namespace Miles.DpSchedule

open Miles.Balancing

set_option linter.unusedSectionVars false

variable {ι : Type} [DecidableEq ι] {W : Type} [LinearOrder W] [Zero W] [Add W] [Sub W]

/-! ## What a schedule is for -/

/-- The samples of a rollout, in the order of the batch. -/
def samplesOf (rolloutIndices : List ι) (rid : ι) : List Nat :=
  (List.range rolloutIndices.length).filter fun pos => rolloutIndices[pos]? = some rid

/-- The rollouts of each step: consecutive ones in first-seen order. -/
def stepRollouts (rolloutIndices : List ι) (numRollouts : List Nat) : List (List ι) :=
  numRollouts.splitLengths rolloutIndices.eraseDups

namespace DPSchedule

/-- The micro-batches a rank trains in each step, as global sample indices. -/
def rankSteps (sched : DPSchedule) (rank : Nat) : List (List (List Nat)) :=
  (sched.numMicrobatches.splitLengths (sched.microBatchIndices.getD rank [])).map
    fun microBatches => microBatches.map fun microBatch =>
      microBatch.map ((sched.partitions.getD rank []).getD · 0)

/-- The samples all ranks train in a step. -/
def stepSamples (sched : DPSchedule) (step : Nat) : List Nat :=
  (List.range sched.partitions.length).flatMap fun rank =>
    ((sched.rankSteps rank).getD step []).flatten

end DPSchedule

/-- What a schedule of `samples` promises to the ranks that train it. -/
structure ValidSchedule (cfg : TrainParallelConfig) (args : Args W) (samples : Samples ι)
    (sched : DPSchedule) : Prop where
  /-- one partition and one list of micro-batches a rank -/
  ranks : sched.partitions.length = cfg.dpSize ∧ sched.microBatchIndices.length = cfg.dpSize
  /-- no sample is given to two ranks, or to one rank twice -/
  nodup : sched.partitions.flatten.Nodup
  /-- the ranks have the samples of the first `sum(num_rollouts)` rollouts -/
  union : ∀ pos, pos ∈ sched.partitions.flatten ↔
    ∃ rid ∈ samples.rolloutIndices.eraseDups.take sched.numRollouts.sum,
      samples.rolloutIndices[pos]? = some rid
  /-- the micro-batches of a rank tile its partition, in order -/
  tiles : ∀ rank < cfg.dpSize, (sched.microBatchIndices.getD rank []).flatten =
    List.range (sched.partitions.getD rank []).length
  /-- each step has one micro-batch count, and a rank has no other micro-batches -/
  counts : sched.numMicrobatches.length = sched.numRollouts.length ∧
    ∀ rank < cfg.dpSize, (sched.microBatchIndices.getD rank []).length =
      sched.numMicrobatches.sum
  /-- with virtual pipelining the count is a multiple of the micro-batch group size -/
  groups : 1 < cfg.vppSize.getD 1 → ∀ group, cfg.microbatchGroupSizePerVpStage = some group →
    ∀ count ∈ sched.numMicrobatches, group ∣ count
  /-- a step trains all samples of its rollouts and no others -/
  steps : ∀ step < sched.numRollouts.length, (sched.stepSamples step).Perm
    (((stepRollouts samples.rolloutIndices sched.numRollouts).getD step []).flatMap
      (samplesOf samples.rolloutIndices))
  /-- the samples of a rollout fall in one step or are all dropped -/
  together : ∀ rid, (∃ step < sched.numRollouts.length,
      ∀ pos, samples.rolloutIndices[pos]? = some rid → pos ∈ sched.stepSamples step) ∨
    ∀ pos, samples.rolloutIndices[pos]? = some rid → pos ∉ sched.partitions.flatten
  /-- on the token-budget path a micro-batch of several samples is within the budget -/
  budget : args.useDynamicBatchSize → ¬ args.balanceByFlops →
    ∀ maxTokens, args.maxTokensPerGpu = some maxTokens → ∀ rank < cfg.dpSize,
      ∀ microBatch ∈ sched.microBatchIndices.getD rank [], 1 < microBatch.length →
        binTokens samples.totalLengths
          (microBatch.map ((sched.partitions.getD rank []).getD · 0)) ≤ maxTokens * cfg.cpSize

/-! ## The rollouts and their samples -/

@[simp] theorem mem_samplesOf {rolloutIndices : List ι} {rid : ι} {pos : Nat} :
    pos ∈ samplesOf rolloutIndices rid ↔ rolloutIndices[pos]? = some rid := by
  simp only [samplesOf, List.mem_filter, List.mem_range, decide_eq_true_eq, and_iff_right_iff_imp]
  intro h
  exact (List.getElem?_eq_some_iff.mp h).1

theorem samplesOf_nodup (rolloutIndices : List ι) (rid : ι) :
    (samplesOf rolloutIndices rid).Nodup :=
  List.nodup_range.filter _

/-- A new last sample is one more sample of its rollout. -/
theorem samplesOf_concat (rolloutIndices : List ι) (x rid : ι) :
    samplesOf (rolloutIndices ++ [x]) rid =
      samplesOf rolloutIndices rid ++ if rid = x then [rolloutIndices.length] else [] := by
  simp only [samplesOf, List.length_append, List.length_singleton, List.range_succ,
    List.filter_append]
  congr 1
  · apply List.filter_congr
    intro pos hpos
    rw [List.getElem?_append_left (List.mem_range.mp hpos)]
  · by_cases h : rid = x
    · simp [h]
    · simp [h, Ne.symm h]

/-- Adding a sample changes the entry of its rollout only. -/
theorem addSample_map {rids : List ι} (hnodup : rids.Nodup) (f : ι → List Nat) (x : ι)
    (pos : Nat) :
    addSample x pos (rids.map fun rid => (rid, f rid)) =
      if x ∈ rids then rids.map fun rid => (rid, f rid ++ if rid = x then [pos] else [])
      else rids.map (fun rid => (rid, f rid)) ++ [(x, [pos])] := by
  induction rids with
  | nil => rfl
  | cons rid rids ih =>
    obtain ⟨hnotin, hrest⟩ := List.nodup_cons.mp hnodup
    simp only [List.map_cons, addSample]
    by_cases h : rid = x
    · subst h
      have hothers : rids.map (fun r => (r, f r ++ if r = rid then [pos] else [])) =
          rids.map fun r => (r, f r) := by
        apply List.map_congr_left
        intro r hr
        have hne : r ≠ rid := fun heq => hnotin (heq ▸ hr)
        simp [hne]
      simp [hothers]
    · have hx : x ∈ rid :: rids ↔ x ∈ rids := by simp [Ne.symm h]
      simp only [h, if_false, ih hrest, hx]
      split <;> simp

/-- The groups are the rollouts in first-seen order, each with its samples. -/
theorem rolloutIdToSampleIndex_eq (rolloutIndices : List ι) :
    rolloutIdToSampleIndex rolloutIndices =
      rolloutIndices.eraseDups.map fun rid => (rid, samplesOf rolloutIndices rid) := by
  induction rolloutIndices using List.reverseRecOn with
  | nil => rfl
  | append_singleton rolloutIndices x ih =>
    have hstep : rolloutIdToSampleIndex (rolloutIndices ++ [x]) =
        addSample x rolloutIndices.length (rolloutIdToSampleIndex rolloutIndices) := by
      simp [rolloutIdToSampleIndex, List.zipIdx_append]
    rw [hstep, ih, addSample_map (List.nodup_eraseDups _), List.eraseDups_concat]
    simp only [samplesOf_concat, List.mem_eraseDups]
    by_cases hx : x ∈ rolloutIndices
    · simp only [hx, if_true]
    · simp only [hx, if_false, List.map_append, List.map_cons, List.map_nil, if_true]
      have hnone : samplesOf rolloutIndices x = [] := by
        apply List.eq_nil_iff_forall_not_mem.mpr
        intro pos hpos
        exact hx (List.mem_of_getElem? (mem_samplesOf.mp hpos))
      have hothers : rolloutIndices.eraseDups.map (fun rid =>
          (rid, samplesOf rolloutIndices rid ++
            if rid = x then [rolloutIndices.length] else [])) =
          rolloutIndices.eraseDups.map fun rid => (rid, samplesOf rolloutIndices rid) := by
        apply List.map_congr_left
        intro rid hrid
        have hne : rid ≠ x := fun heq => hx (heq ▸ List.mem_eraseDups.mp hrid)
        simp [hne]
      rw [hothers, hnone, List.nil_append]

/-- The samples of distinct rollouts are distinct. -/
theorem flatMap_samplesOf_nodup (rolloutIndices : List ι) {rids : List ι} (h : rids.Nodup) :
    (rids.flatMap (samplesOf rolloutIndices)).Nodup := by
  rw [List.nodup_flatMap]
  refine ⟨fun rid _ => samplesOf_nodup _ _, h.imp fun hne pos h₁ h₂ => hne ?_⟩
  rw [mem_samplesOf] at h₁ h₂
  exact Option.some.inj (h₁.symm.trans h₂)

/-! ## The micro-batches of a step -/

/-- A failed check is its error, and a passed one goes on. -/
theorem ensure_bind_ok {ε β : Type} {p : Prop} [Decidable p] {e : ε} {x : Except ε β} {b : β} :
    (ensure p e >>= fun _ => x) = .ok b ↔ p ∧ x = .ok b := by
  by_cases h : p <;> simp [ensure, h, bind, Except.bind]

theorem ensure_bind_error {ε β : Type} {p : Prop} [Decidable p] {e e' : ε} {x : Except ε β} :
    (ensure p e >>= fun _ => x) = .error e' ↔ (¬ p ∧ e = e') ∨ (p ∧ x = .error e') := by
  by_cases h : p <;> simp [ensure, h, bind, Except.bind]

/-- `align_to` is the number of ranks times the micro-batch group size, if there is one. -/
theorem TrainParallelConfig.alignTo_eq (cfg : TrainParallelConfig) :
    ∃ group, 0 < group ∧ cfg.alignTo = cfg.dpSize * group ∧
      (1 < cfg.vppSize.getD 1 → cfg.microbatchGroupSizePerVpStage = some group) := by
  have heq : cfg.alignTo = cfg.dpSize * (if 1 < cfg.vppSize.getD 1 then
      cfg.microbatchGroupSizePerVpStage.getD 1 else 1) := by
    unfold TrainParallelConfig.alignTo
    cases cfg.vppSize with
    | none => rfl
    | some n =>
      -- `vpp_size or 1`: a size of zero counts as one
      by_cases hn : n = 0
      · simp [hn]
      · simp [hn]
  by_cases h : 1 < cfg.vppSize.getD 1
  · obtain ⟨group, hgroup, hpos⟩ := cfg.group_pos h
    exact ⟨group, hpos, by rw [heq, if_pos h, hgroup]; rfl, fun _ => hgroup⟩
  · exact ⟨1, Nat.one_pos, by rw [heq, if_neg h], fun h' => absurd h' h⟩

theorem TrainParallelConfig.alignTo_pos (cfg : TrainParallelConfig) : 0 < cfg.alignTo := by
  obtain ⟨group, hpos, heq, -⟩ := cfg.alignTo_eq
  rw [heq]
  exact Nat.mul_pos cfg.dpSize_pos hpos

theorem TrainParallelConfig.dpSize_dvd (cfg : TrainParallelConfig) :
    cfg.dpSize ∣ cfg.alignTo := by
  obtain ⟨group, -, heq, -⟩ := cfg.alignTo_eq
  exact ⟨group, heq⟩

/-- The aligned count is a multiple, enough for `n`, and not zero. -/
theorem alignedCount_spec {n alignTo : Nat} (h : 0 < alignTo) :
    n ≤ alignedCount n alignTo ∧ alignTo ∣ alignedCount n alignTo ∧
      alignTo ≤ alignedCount n alignTo := by
  have hdiv := Nat.div_add_mod (n + alignTo - 1) alignTo
  have hmod := Nat.mod_lt (n + alignTo - 1) h
  rw [Nat.mul_comm] at hdiv
  unfold alignedCount
  refine ⟨by omega, ?_, Nat.le_max_right ..⟩
  obtain hmax | hmax := Nat.le_total ((n + alignTo - 1) / alignTo * alignTo) alignTo
  · exact (Nat.max_eq_right hmax).symm ▸ Nat.dvd_refl alignTo
  · rw [Nat.max_eq_left hmax]
    exact Nat.dvd_mul_left ..

/-- The micro-batches hold each of the `n` samples of a step once, and their count is a
    multiple of `alignTo`. -/
structure Packs (n alignTo : Nat) (microBatches : List (List Nat)) : Prop where
  perm : microBatches.flatten.Perm (List.range n)
  aligned : alignTo ∣ microBatches.length

private theorem flatten_singletons (n : Nat) :
    ((List.range n).map ([·])).flatten = List.range n := by
  rw [List.flatten_eq_flatMap, List.flatMap_map]
  simp

variable {cfg : TrainParallelConfig} {args : Args W} {stepLengths : List Nat}

/-- The packing holds each sample once, in bins that are not empty and, unless FLOPs-balanced,
    within the budget when they have more than one sample. -/
theorem packStep_spec {maxPerBin : Nat}
    {packed : List (List Nat)} (h : packStep args maxPerBin stepLengths = .ok packed) :
    packed.flatten.Perm (List.range stepLengths.length) ∧ (∀ bin ∈ packed, bin ≠ []) ∧
      (¬ args.balanceByFlops → ∀ bin ∈ packed, 1 < bin.length →
        binTokens stepLengths bin ≤ maxPerBin) := by
  unfold packStep at h
  split at h
  · next hflops =>
    have hbudget : ¬ args.balanceByFlops → ∀ bin ∈ packed, 1 < bin.length →
        binTokens stepLengths bin ≤ maxPerBin := fun hnot => absurd hflops hnot
    dsimp only at h
    split at h
    · -- as many micro-batches as samples
      cases h
      refine ⟨by rw [flatten_singletons], fun bin hbin => ?_, hbudget⟩
      obtain ⟨i, -, rfl⟩ := List.mem_map.mp hbin
      exact List.cons_ne_nil _ _
    · rw [Except.mapError_eq_ok] at h
      have hk : 0 < max 1 ((stepLengths.sum + maxPerBin - 1) / maxPerBin) := by omega
      obtain ⟨-, hperm, hne, -⟩ := getSeqlenBalancedPartitions_perm hk h
      rw [List.length_map] at hperm
      exact ⟨hperm, hne, hbudget⟩
  · cases h
    exact ⟨firstFitDecreasingPack_perm _ _, fun bin hbin => (firstFitDecreasingPack_budget hbin).1,
      fun _ bin hbin => (firstFitDecreasingPack_budget hbin).2⟩

/-- Packing does not fail: the FLOPs-balanced partition has fewer parts than samples, and no
    sequence has negative FLOPs. -/
theorem packStep_ok (args : Args W) (maxPerBin : Nat) (stepLengths : List Nat) :
    ∃ packed, packStep args maxPerBin stepLengths = .ok packed := by
  unfold packStep
  split
  · dsimp only
    split
    · exact ⟨_, rfl⟩
    · next hmany =>
      obtain ⟨packed, hpacked⟩ := getSeqlenBalancedPartitions_ok
        (stepLengths.map args.workload.ofLength)
        (k := max 1 ((stepLengths.sum + maxPerBin - 1) / maxPerBin)) (by omega)
        (by rw [List.length_map]; omega) false
        (.inr ⟨rfl, args.workload.add_nonneg, fun weight hweight => by
          obtain ⟨length, -, rfl⟩ := List.mem_map.mp hweight
          exact args.workload.nonneg length⟩)
      exact ⟨packed, by rw [hpacked]; rfl⟩
  · exact ⟨_, rfl⟩

/-- The dynamic path packs the step when it succeeds.  It fails when the step has fewer samples
    than the aligned count of the packing. -/
theorem dynamicMicroBatches_spec (args : Args W) (maxPerBin : Nat) {alignTo : Nat} (step : Nat)
    (halign : 0 < alignTo) (hpos : ∀ length ∈ stepLengths, 0 < length) :
    (∀ microBatches, dynamicMicroBatches args maxPerBin alignTo step stepLengths =
        .ok microBatches → Packs stepLengths.length alignTo microBatches ∧
      microBatches.length ≠ 0 ∧
      (¬ args.balanceByFlops → ∀ microBatch ∈ microBatches, 1 < microBatch.length →
        binTokens stepLengths microBatch ≤ maxPerBin)) ∧
    (∀ e, dynamicMicroBatches args maxPerBin alignTo step stepLengths = .error e →
      ∃ packed, packStep args maxPerBin stepLengths = .ok packed ∧
        stepLengths.length < alignedCount packed.length alignTo) := by
  obtain ⟨packed, hpacked⟩ := packStep_ok args maxPerBin stepLengths
  obtain ⟨hperm, hne, hbudget⟩ := packStep_spec hpacked
  obtain ⟨hle, hdvd, hge⟩ := alignedCount_spec (n := packed.length) halign
  have hlengths : ∀ idx ∈ packed.flatten, 0 < stepLengths.getD idx 0 := by
    intro idx hidx
    have hlt := List.mem_range.mp (hperm.mem_iff.mp hidx)
    rw [List.getD_eq_getElem _ _ hlt]
    exact hpos _ (List.getElem_mem hlt)
  have heq : dynamicMicroBatches args maxPerBin alignTo step stepLengths =
      if alignedCount packed.length alignTo = packed.length then .ok packed
      else
        let expanded := expandBinsBySplitting stepLengths
          (alignedCount packed.length alignTo - packed.length) packed
        if expanded.length = alignedCount packed.length alignTo then .ok expanded
        else .error (.cannotSplit expanded.length (alignedCount packed.length alignTo) step
          stepLengths.length alignTo) := by
    simp only [dynamicMicroBatches, hpacked, bind, Except.bind, ensure, pure, Except.pure]
    split
    · rfl
    · by_cases hlen : (expandBinsBySplitting stepLengths
        (alignedCount packed.length alignTo - packed.length) packed).length =
          alignedCount packed.length alignTo
      · simp only [if_pos hlen]
      · simp only [if_neg hlen]
  rw [heq]
  by_cases htarget : alignedCount packed.length alignTo = packed.length
  · rw [if_pos htarget]
    refine ⟨fun microBatches h => ?_, fun e h => by cases h⟩
    cases h
    exact ⟨⟨hperm, htarget ▸ hdvd⟩, by omega, hbudget⟩
  · rw [if_neg htarget]
    dsimp only
    obtain ⟨hperm', -, -⟩ := expandBinsBySplitting_spec 0
      (n := alignedCount packed.length alignTo - packed.length) hlengths
    split
    · next hlen =>
      refine ⟨fun microBatches h => ?_, fun e h => by cases h⟩
      cases h
      refine ⟨⟨hperm'.trans hperm, by rw [hlen]; exact hdvd⟩, by omega, fun hflops => ?_⟩
      exact (expandBinsBySplitting_spec maxPerBin hlengths).2.2 (hbudget hflops)
    · next hlen =>
      refine ⟨fun microBatches h => (by cases h), fun e _ => ⟨packed, hpacked, ?_⟩⟩
      -- splitting reaches every count up to the number of samples
      apply Nat.lt_of_not_le
      intro henough
      apply hlen
      rw [expandBinsBySplitting_length hlengths hne]
      · omega
      · rw [hperm.length_eq, List.length_range]
        omega

/-- Fixed-size chunks hold the samples in order. -/
theorem staticMicroBatches_spec {microBatchSize alignTo dpSize : Nat}
    {microBatches : List (List Nat)} (hsize : 0 < microBatchSize)
    (h : staticMicroBatches microBatchSize alignTo dpSize stepLengths = .ok microBatches) :
    Packs stepLengths.length alignTo microBatches := by
  unfold staticMicroBatches at h
  obtain ⟨haligned, hchunks⟩ := ensure_bind_ok.mp h
  cases hchunks
  refine ⟨?_, Nat.dvd_of_mod_eq_zero haligned⟩
  -- the chunks are those of `range n`
  generalize stepLengths.length = n at *
  have hchunk : ∀ j, List.range' (j * microBatchSize)
      (min (j * microBatchSize + microBatchSize) n - j * microBatchSize) =
      ((List.range n).drop (j * microBatchSize)).take microBatchSize := by
    intro j
    apply List.ext_getElem
    · simp only [List.length_range', List.length_take, List.length_drop, List.length_range]
      omega
    · intro i h₁ h₂
      simp
  rw [List.flatten_eq_flatMap, List.flatMap_map]
  simp only [id_eq, hchunk]
  rw [List.flatMap_chunks, List.take_of_length_le]
  rw [List.length_range]
  have hdiv := Nat.div_add_mod (n + microBatchSize - 1) microBatchSize
  have hmod := Nat.mod_lt (n + microBatchSize - 1) hsize
  rw [Nat.mul_comm] at hdiv
  omega

/-! ## The distribution over the ranks -/

/-- Dealing `c` micro-batches to each rank in turn deals every micro-batch once. -/
private theorem strided_perm (dpSize c : Nat) :
    ((List.range dpSize).flatMap fun rank => (List.range c).map (rank + · * dpSize)).Perm
      (List.range (c * dpSize)) := by
  apply (List.perm_ext_iff_of_nodup ?_ List.nodup_range).mpr
  · intro i
    simp only [List.mem_flatMap, List.mem_map, List.mem_range]
    constructor
    · rintro ⟨rank, hrank, k, hk, rfl⟩
      have hmul : (k + 1) * dpSize ≤ c * dpSize := Nat.mul_le_mul_right dpSize hk
      rw [Nat.succ_mul] at hmul
      omega
    · intro hi
      have hpos : 0 < dpSize := by
        apply Nat.pos_of_ne_zero
        intro hzero
        simp [hzero] at hi
      refine ⟨i % dpSize, Nat.mod_lt i hpos, i / dpSize, Nat.div_lt_of_lt_mul ?_, ?_⟩
      · rwa [Nat.mul_comm]
      · rw [Nat.mul_comm]
        exact Nat.mod_add_div i dpSize
  · rw [List.nodup_flatMap]
    constructor
    · intro rank hrank
      have hpos : 0 < dpSize := Nat.lt_of_le_of_lt (Nat.zero_le _) (List.mem_range.mp hrank)
      refine List.nodup_range.map fun k k' hk => ?_
      exact Nat.eq_of_mul_eq_mul_right hpos (Nat.add_left_cancel hk)
    · -- two ranks get different remainders
      refine List.nodup_range.imp_of_mem fun {rank rank'} hrank hrank' hne i hi hi' => hne ?_
      obtain ⟨k, -, rfl⟩ := List.mem_map.mp hi
      obtain ⟨k', -, heq⟩ := List.mem_map.mp hi'
      have hmod := congrArg (· % dpSize) heq
      simp only [Nat.add_mul_mod_self_right] at hmod
      rw [Nat.mod_eq_of_lt (List.mem_range.mp hrank),
        Nat.mod_eq_of_lt (List.mem_range.mp hrank')] at hmod
      exact hmod.symm

/-- What the ranks get of a step: every micro-batch once, in equal numbers. -/
structure Deals (dpSize count : Nat) (ids : List (List Nat)) : Prop where
  ranks : ids.length = dpSize
  perm : ids.flatten.Perm (List.range (count * dpSize))
  equal : ∀ micro_batch_ids ∈ ids, micro_batch_ids.length = count

/-- Balanced parts of one size are a deal. -/
private theorem deals_of_balanced {V : Type} [LinearOrder V] [Zero V] [Add V] [Sub V]
    {weights : List V} {dpSize count : Nat} {ids : List (List Nat)} (hdp : 0 < dpSize)
    (hlen : weights.length = count * dpSize)
    (h : getSeqlenBalancedPartitions weights dpSize true = .ok ids) : Deals dpSize count ids := by
  obtain ⟨hranks, hperm, -, hequal⟩ := getSeqlenBalancedPartitions_perm hdp h
  rw [hlen] at hperm hequal
  exact ⟨hranks, hperm, fun r hr => Nat.eq_of_mul_eq_mul_right hdp (hequal rfl r hr)⟩

/-- Every way to distribute an aligned step is a deal. -/
theorem rankMicroBatchIds_spec {dpSize count : Nat}
    {microBatches ids : List (List Nat)} (hdp : 0 < dpSize)
    (hlen : microBatches.length = count * dpSize)
    (h : rankMicroBatchIds args dpSize stepLengths microBatches = .ok ids) :
    Deals dpSize count ids := by
  unfold rankMicroBatchIds at h
  split at h
  · exact deals_of_balanced hdp (by rw [List.length_map, hlen]) (Except.mapError_eq_ok.mp h)
  · split at h
    · exact deals_of_balanced hdp (by rw [List.length_map, hlen]) (Except.mapError_eq_ok.mp h)
    · cases h
      have hcount : ∀ rank ∈ List.range dpSize,
          (microBatches.length + dpSize - 1 - rank) / dpSize = count := by
        intro rank hrank
        have hrank := List.mem_range.mp hrank
        have hsplit : microBatches.length + dpSize - 1 - rank =
            (dpSize - 1 - rank) + count * dpSize := by omega
        rw [hsplit, Nat.add_mul_div_right _ _ hdp, Nat.div_eq_of_lt (by omega), Nat.zero_add]
      refine ⟨by simp, ?_, fun r hr => ?_⟩
      · rw [List.flatten_eq_flatMap, List.flatMap_map]
        refine List.Perm.trans (.of_eq ?_) (strided_perm dpSize count)
        apply List.flatMap_congr
        intro rank hrank
        rw [id_eq, hcount rank hrank, List.range_eq_range']
      · obtain ⟨rank, hrank, rfl⟩ := List.mem_map.mp hr
        rw [List.length_map, List.length_range', hcount rank hrank]

/-- An aligned step with a micro-batch for each rank is distributed without an error. -/
theorem rankMicroBatchIds_ok (args : Args W) {dpSize : Nat} (stepLengths : List Nat)
    {microBatches : List (List Nat)} (hdp : 0 < dpSize) (hdvd : dpSize ∣ microBatches.length)
    (hne : microBatches.length ≠ 0) :
    ∃ ids, rankMicroBatchIds args dpSize stepLengths microBatches = .ok ids := by
  have hle : dpSize ≤ microBatches.length := Nat.le_of_dvd (Nat.pos_of_ne_zero hne) hdvd
  unfold rankMicroBatchIds
  split
  · obtain ⟨ids, hids⟩ := getSeqlenBalancedPartitions_ok
      (microBatches.map fun microBatch => microBatch.foldl
        (fun sum i => sum + (stepLengths.map args.workload.ofLength).getD i 0) 0) hdp
      (by rwa [List.length_map]) true (.inl ⟨rfl, by rwa [List.length_map]⟩)
    exact ⟨ids, by dsimp only; rw [hids]; rfl⟩
  · split
    · obtain ⟨ids, hids⟩ := getSeqlenBalancedPartitions_ok
        (microBatches.map (binTokens stepLengths)) hdp
        (by rwa [List.length_map]) true (.inl ⟨rfl, by rwa [List.length_map]⟩)
      exact ⟨ids, by rw [hids]; rfl⟩
    · exact ⟨_, rfl⟩

/-! ## The loop over the steps -/

/-- The rank that was given `microBatches`, as global sample indices. -/
def RankSchedule.ofMicroBatches (microBatches : List (List Nat)) : RankSchedule where
  partition := microBatches.flatten
  microBatchIndices := microBatches.tile 0

/-- Giving a rank the micro-batches `ids` of a step. -/
theorem foldl_addMicroBatch (sampleIndices : List Nat) (stepMicroBatches : List (List Nat))
    (ids : List Nat) (given : List (List Nat)) :
    ids.foldl (fun rank k => rank.addMicroBatch sampleIndices (stepMicroBatches.getD k []))
        (RankSchedule.ofMicroBatches given) =
      .ofMicroBatches (given ++
        ids.map fun k => (stepMicroBatches.getD k []).map (sampleIndices.getD · 0)) := by
  induction ids generalizing given with
  | nil => simp
  | cons k ids ih =>
    have hadd : (RankSchedule.ofMicroBatches given).addMicroBatch sampleIndices
        (stepMicroBatches.getD k []) = .ofMicroBatches (given ++
          [(stepMicroBatches.getD k []).map (sampleIndices.getD · 0)]) := by
      simp [RankSchedule.addMicroBatch, RankSchedule.ofMicroBatches, List.tile_append, List.tile]
    rw [List.foldl_cons, hadd, ih, List.map_cons, List.append_assoc, List.singleton_append]

/-- The micro-batches each rank trains in one step, as global sample indices, and their number
    on every rank. -/
structure StepPlan where
  ranks : List (List (List Nat))
  count : Nat

/-- A plan trains each sample of a step once, and the ranks run it in lockstep. -/
structure StepPlan.Valid (cfg : TrainParallelConfig) (args : Args W) (totalLengths : List Nat)
    (sampleIndices : List Nat) (plan : StepPlan) : Prop where
  ranks : plan.ranks.length = cfg.dpSize
  counts : ∀ microBatches ∈ plan.ranks, microBatches.length = plan.count
  perm : (plan.ranks.flatMap List.flatten).Perm sampleIndices
  aligned : cfg.alignTo ∣ plan.count * cfg.dpSize
  budget : args.useDynamicBatchSize → ¬ args.balanceByFlops →
    ∀ maxTokens, args.maxTokensPerGpu = some maxTokens → ∀ microBatches ∈ plan.ranks,
      ∀ microBatch ∈ microBatches, 1 < microBatch.length →
        binTokens totalLengths microBatch ≤ maxTokens * cfg.cpSize

/-- The state of the loop when it has scheduled `plans`. -/
structure ScheduleState.Holds (dpSize : Nat) (plans : List StepPlan) (state : ScheduleState) :
    Prop where
  ranks : state.ranks = (List.range dpSize).map fun rank =>
    .ofMicroBatches (plans.flatMap fun plan => plan.ranks.getD rank [])
  counts : state.numMicrobatches = plans.map (·.count)

/-- Distributing a step appends to every rank its part of the plan. -/
theorem distribute_spec {dpSize : Nat} {sampleIndices : List Nat}
    {microBatches ids : List (List Nat)} (hids : ids.length = dpSize)
    (given : Nat → List (List Nat)) :
    distribute sampleIndices microBatches ids
        ((List.range dpSize).map fun rank => .ofMicroBatches (given rank)) =
      (List.range dpSize).map fun rank => .ofMicroBatches (given rank ++
        (ids.map fun rankIds => rankIds.map fun k =>
          (microBatches.getD k []).map (sampleIndices.getD · 0)).getD rank []) := by
  apply List.ext_getElem
  · simp [distribute, hids]
  · intro rank h₁ h₂
    have hrank : rank < ids.length := by
      rw [List.length_map, List.length_range] at h₂
      omega
    simp only [distribute, List.getElem_zipWith, List.getElem_map, List.getElem_range]
    rw [foldl_addMicroBatch, List.getD_eq_getElem _ _ (by rwa [List.length_map]),
      List.getElem_map]

/-- A packed and dealt step has a valid plan. -/
theorem plan_valid
    {totalLengths sampleIndices : List Nat}
    {microBatches ids : List (List Nat)} {count : Nat}
    (hpacks : Packs sampleIndices.length cfg.alignTo microBatches)
    (hlen : microBatches.length = count * cfg.dpSize) (hdeals : Deals cfg.dpSize count ids)
    (hbudget : args.useDynamicBatchSize → ¬ args.balanceByFlops →
      ∀ maxTokens, args.maxTokensPerGpu = some maxTokens →
        ∀ microBatch ∈ microBatches, 1 < microBatch.length →
          binTokens (sampleIndices.map (totalLengths.getD · 0)) microBatch ≤
            maxTokens * cfg.cpSize) :
    StepPlan.Valid cfg args totalLengths sampleIndices {
      ranks := ids.map fun rankIds => rankIds.map fun k =>
        (microBatches.getD k []).map (sampleIndices.getD · 0)
      count } where
  ranks := by rw [List.length_map, hdeals.ranks]
  counts := by
    intro r hr
    obtain ⟨rankIds, hrankIds, rfl⟩ := List.mem_map.mp hr
    rw [List.length_map]
    exact hdeals.equal rankIds hrankIds
  perm := by
    have hglobal : ∀ n, n = sampleIndices.length →
        (List.range n).map (sampleIndices.getD · 0) = sampleIndices := by
      rintro n rfl
      have hread := List.map_getD_range' [] sampleIndices [] 0
      rwa [List.nil_append, List.append_nil, List.length_nil, ← List.range_eq_range'] at hread
    have hall : (List.range microBatches.length).map (microBatches.getD · []) = microBatches := by
      have hread := List.map_getD_range' [] microBatches [] []
      rwa [List.nil_append, List.append_nil, List.length_nil, ← List.range_eq_range'] at hread
    have hflat : (ids.map fun rankIds => rankIds.map fun k =>
        (microBatches.getD k []).map (sampleIndices.getD · 0)).flatMap List.flatten =
        ids.flatten.flatMap fun k => (microBatches.getD k []).map (sampleIndices.getD · 0) := by
      simp only [List.flatMap_map, List.flatten_eq_flatMap, List.flatMap_assoc, id_eq]
    rw [hflat]
    have hdealt := hdeals.perm
    rw [← hlen] at hdealt
    refine (hdealt.flatMap_right _).trans ?_
    have hjoin : ((List.range microBatches.length).flatMap fun k =>
        (microBatches.getD k []).map (sampleIndices.getD · 0)) =
        microBatches.flatten.map (sampleIndices.getD · 0) := by
      conv_rhs => rw [← hall]
      rw [List.map_flatten, List.map_map, List.flatten_eq_flatMap, List.flatMap_map]
      rfl
    rw [hjoin]
    refine (hpacks.perm.map _).trans ?_
    rw [hglobal _ rfl]
  aligned := hlen ▸ hpacks.aligned
  budget := by
    intro hdyn hflops maxTokens hmax r hr microBatch hmb hmany
    obtain ⟨rankIds, hrankIds, rfl⟩ := List.mem_map.mp hr
    obtain ⟨k, hk, rfl⟩ := List.mem_map.mp hmb
    have hklt : k < microBatches.length := by
      rw [hlen, ← List.mem_range]
      exact hdeals.perm.mem_iff.mp (List.mem_flatten.mpr ⟨rankIds, hrankIds, hk⟩)
    rw [List.getD_eq_getElem _ _ hklt] at hmany ⊢
    rw [List.length_map] at hmany
    have hmem := List.getElem_mem hklt
    refine Nat.le_trans (Nat.le_of_eq ?_) (hbudget hdyn hflops maxTokens hmax _ hmem hmany)
    -- global and local indices read the same lengths
    simp only [binTokens, List.map_map]
    congr 1
    apply List.map_congr_left
    intro i hi
    have hi' : i < sampleIndices.length := List.mem_range.mp
      (hpacks.perm.mem_iff.mp (List.mem_flatten.mpr ⟨_, hmem, hi⟩))
    simp [List.getD_eq_getElem?_getD, hi']

/-- Every sample of a step has a positive length. -/
private theorem stepLengths_pos {totalLengths sampleIndices : List Nat}
    (hpos : ∀ length ∈ totalLengths, 0 < length)
    (hin : ∀ pos ∈ sampleIndices, pos < totalLengths.length) :
    ∀ length ∈ sampleIndices.map (totalLengths.getD · 0), 0 < length := by
  intro length hlength
  obtain ⟨pos, hmem, rfl⟩ := List.mem_map.mp hlength
  rw [List.getD_eq_getElem _ _ (hin pos hmem)]
  exact hpos _ (List.getElem_mem _)

/-- The micro-batches of a step hold each of its samples once, and are within the budget on the
    token-budget path. -/
theorem stepMicroBatches_spec {step : Nat}
    {microBatches : List (List Nat)}
    (hpos : ∀ length ∈ stepLengths, 0 < length)
    (h : stepMicroBatches cfg args step stepLengths = .ok microBatches) :
    Packs stepLengths.length cfg.alignTo microBatches ∧
    (args.useDynamicBatchSize → ¬ args.balanceByFlops →
      ∀ maxTokens, args.maxTokensPerGpu = some maxTokens →
        ∀ microBatch ∈ microBatches, 1 < microBatch.length →
          binTokens stepLengths microBatch ≤ maxTokens * cfg.cpSize) := by
  unfold stepMicroBatches at h
  split at h
  · cases hmax : args.maxTokensPerGpu with
    | none => simp only [hmax] at h; cases h
    | some maxTokens =>
      simp only [hmax] at h
      obtain ⟨hpacks, -, hbudget⟩ :=
        (dynamicMicroBatches_spec args _ step cfg.alignTo_pos hpos).1 _ h
      refine ⟨hpacks, fun _ hflops n hn => ?_⟩
      cases hn
      exact hbudget hflops
  · next hstatic =>
    cases hsize : args.microBatchSize with
    | none => simp only [hsize] at h; cases h
    | some microBatchSize =>
      simp only [hsize] at h
      exact ⟨staticMicroBatches_spec (args.microBatchSize_pos _ hsize) h,
        fun hdyn => absurd hdyn hstatic⟩

/-- A scheduled step has a valid plan, which the ranks have been given. -/
theorem scheduleStep_spec {totalLengths : List Nat}
    {step : Nat} {pickedRollouts : List (ι × List Nat)} {plans : List StepPlan}
    {state state' : ScheduleState} (hpos : ∀ length ∈ totalLengths, 0 < length)
    (hin : ∀ pos ∈ pickedRollouts.flatMap (·.2), pos < totalLengths.length)
    (hstate : state.Holds cfg.dpSize plans)
    (h : scheduleStep cfg args totalLengths step pickedRollouts state = .ok state') :
    ∃ plan : StepPlan, plan.Valid cfg args totalLengths (pickedRollouts.flatMap (·.2)) ∧
      state'.Holds cfg.dpSize (plans ++ [plan]) := by
  unfold scheduleStep at h
  obtain ⟨-, h⟩ := ensure_bind_ok.mp h
  obtain ⟨microBatches, hmicro, h⟩ := Except.bind_eq_ok.mp h
  obtain ⟨ids, hids, h⟩ := Except.bind_eq_ok.mp h
  cases h
  obtain ⟨hpacks, hbudget⟩ := stepMicroBatches_spec (stepLengths_pos hpos hin) hmicro
  rw [List.length_map] at hpacks
  obtain ⟨count, hcount⟩ := Nat.dvd_trans cfg.dpSize_dvd hpacks.aligned
  rw [Nat.mul_comm] at hcount
  have hdeals := rankMicroBatchIds_spec cfg.dpSize_pos hcount hids
  refine ⟨_, plan_valid hpacks hcount hdeals hbudget, ?_, ?_⟩
  · show distribute _ microBatches ids state.ranks = _
    rw [hstate.ranks, distribute_spec hdeals.ranks]
    simp
  · show state.numMicrobatches ++ [microBatches.length / cfg.dpSize] = _
    rw [hstate.counts, hcount, Nat.mul_div_cancel _ cfg.dpSize_pos]
    simp

/-- The micro-batch count of a step is too large for its samples. -/
def TooFewSamples (cfg : TrainParallelConfig) (args : Args W) (maxTokens : Nat)
    (stepLengths : List Nat) : Prop :=
  ∃ packed, packStep args (maxTokens * cfg.cpSize) stepLengths = .ok packed ∧
    stepLengths.length < alignedCount packed.length cfg.alignTo

/-- On the dynamic path a step fails only when it has too few samples. -/
theorem scheduleStep_error {totalLengths : List Nat}
    {step maxTokens : Nat} {pickedRollouts : List (ι × List Nat)} {state : ScheduleState}
    {e : ScheduleError} (hpos : ∀ length ∈ totalLengths, 0 < length)
    (hin : ∀ pos ∈ pickedRollouts.flatMap (·.2), pos < totalLengths.length)
    (hdyn : args.useDynamicBatchSize) (hmax : args.maxTokensPerGpu = some maxTokens)
    (h : scheduleStep cfg args totalLengths step pickedRollouts state = .error e) :
    TooFewSamples cfg args maxTokens
      ((pickedRollouts.flatMap (·.2)).map (totalLengths.getD · 0)) := by
  have hlengths := stepLengths_pos hpos hin
  unfold scheduleStep at h
  obtain ⟨hfew, -⟩ | ⟨-, h⟩ := ensure_bind_error.mp h
  · -- fewer samples than ranks are fewer than the aligned count
    obtain ⟨packed, hpacked⟩ := packStep_ok args (maxTokens * cfg.cpSize)
      ((pickedRollouts.flatMap (·.2)).map (totalLengths.getD · 0))
    refine ⟨packed, hpacked, ?_⟩
    obtain ⟨-, -, hge⟩ := alignedCount_spec (n := packed.length) cfg.alignTo_pos
    have hdp := Nat.le_of_dvd cfg.alignTo_pos cfg.dpSize_dvd
    rw [List.length_map]
    omega
  · have hmicro : stepMicroBatches cfg args step
        ((pickedRollouts.flatMap (·.2)).map (totalLengths.getD · 0)) =
        dynamicMicroBatches args (maxTokens * cfg.cpSize) cfg.alignTo step
          ((pickedRollouts.flatMap (·.2)).map (totalLengths.getD · 0)) := by
      unfold stepMicroBatches
      rw [if_pos hdyn, hmax]
    obtain ⟨hok, herr⟩ := dynamicMicroBatches_spec args (maxTokens * cfg.cpSize) step
      cfg.alignTo_pos hlengths
    obtain h | ⟨microBatches, hmicro', h⟩ := Except.bind_eq_error.mp h
    · exact herr e (hmicro ▸ h)
    · -- what is packed can be distributed
      obtain ⟨hpacks, hne, -⟩ := hok microBatches (hmicro ▸ hmicro')
      obtain ⟨ids, hids⟩ := rankMicroBatchIds_ok args
        ((pickedRollouts.flatMap (·.2)).map (totalLengths.getD · 0)) cfg.dpSize_pos
        (Nat.dvd_trans cfg.dpSize_dvd hpacks.aligned) hne
      obtain h | ⟨ids', -, h⟩ := Except.bind_eq_error.mp h
      · rw [hids] at h
        cases h
      · cases h
/-- The loop gives the ranks a valid plan for every step. -/
theorem scheduleSteps_spec {totalLengths : List Nat}
    (hpos : ∀ length ∈ totalLengths, 0 < length) {step : Nat} {numRollouts : List Nat}
    {groups : List (ι × List Nat)} {plans : List StepPlan} {state state' : ScheduleState}
    (hin : ∀ group ∈ groups, ∀ pos ∈ group.2, pos < totalLengths.length)
    (hstate : state.Holds cfg.dpSize plans)
    (h : scheduleSteps cfg args totalLengths step numRollouts groups state = .ok state') :
    ∃ plans' : List StepPlan, state'.Holds cfg.dpSize (plans ++ plans') ∧
      List.Forall₂ (fun picked plan =>
          StepPlan.Valid cfg args totalLengths (picked.flatMap Prod.snd) plan)
        (numRollouts.splitLengths groups) plans' := by
  induction numRollouts generalizing step groups plans state with
  | nil =>
    cases h
    exact ⟨[], by rwa [List.append_nil], .nil⟩
  | cons n rest ih =>
    unfold scheduleSteps at h
    obtain ⟨state₁, hstep, h⟩ := Except.bind_eq_ok.mp h
    have hpicked : ∀ pos ∈ (groups.take n).flatMap (·.2), pos < totalLengths.length := by
      intro pos hmem
      obtain ⟨group, hgroup, hmem⟩ := List.mem_flatMap.mp hmem
      exact hin group (List.mem_of_mem_take hgroup) pos hmem
    obtain ⟨plan, hvalid, hstate₁⟩ := scheduleStep_spec hpos hpicked hstate hstep
    obtain ⟨plans', hholds, hall⟩ := ih
      (fun group hgroup => hin group (List.mem_of_mem_drop hgroup)) hstate₁ h
    refine ⟨plan :: plans', by simpa using hholds, ?_⟩
    rw [List.splitLengths_cons]
    exact .cons hvalid hall

/-- On the dynamic path the loop fails only on a step with too few samples. -/
theorem scheduleSteps_error {totalLengths : List Nat}
    {maxTokens : Nat} {e : ScheduleError} (hpos : ∀ length ∈ totalLengths, 0 < length)
    (hdyn : args.useDynamicBatchSize) (hmax : args.maxTokensPerGpu = some maxTokens)
    {step : Nat} {numRollouts : List Nat} {groups : List (ι × List Nat)} {state : ScheduleState}
    (hin : ∀ group ∈ groups, ∀ pos ∈ group.2, pos < totalLengths.length)
    (h : scheduleSteps cfg args totalLengths step numRollouts groups state = .error e) :
    ∃ picked ∈ numRollouts.splitLengths groups, TooFewSamples cfg args maxTokens
      ((picked.flatMap Prod.snd).map (totalLengths.getD · 0)) := by
  induction numRollouts generalizing step groups state with
  | nil => cases h
  | cons n rest ih =>
    rw [List.splitLengths_cons]
    unfold scheduleSteps at h
    obtain h | ⟨state₁, -, h⟩ := Except.bind_eq_error.mp h
    · refine ⟨groups.take n, List.mem_cons_self .., ?_⟩
      apply scheduleStep_error hpos _ hdyn hmax h
      intro pos hmem
      obtain ⟨group, hgroup, hmem⟩ := List.mem_flatMap.mp hmem
      exact hin group (List.mem_of_mem_take hgroup) pos hmem
    · obtain ⟨picked, hpicked, hfew⟩ := ih
        (fun group hgroup => hin group (List.mem_of_mem_drop hgroup)) h
      exact ⟨picked, List.mem_cons_of_mem _ hpicked, hfew⟩

/-! ## The schedule -/

/-- The micro-batches a rank trains over all steps. -/
def given (plans : List StepPlan) (rank : Nat) : List (List Nat) :=
  plans.flatMap fun plan => plan.ranks.getD rank []

/-- The schedule `build_dp_schedule` returns from the last state of its loop. -/
def ScheduleState.schedule (numRollouts : List Nat) (state : ScheduleState) : DPSchedule where
  partitions := state.ranks.map (·.partition)
  microBatchIndices := state.ranks.map (·.microBatchIndices)
  numMicrobatches := state.numMicrobatches
  numRollouts := numRollouts

section Schedule

variable {dpSize : Nat} {plans : List StepPlan} {state : ScheduleState} {numRollouts : List Nat}

theorem ScheduleState.Holds.partition (h : state.Holds dpSize plans) {rank : Nat}
    (hrank : rank < dpSize) :
    (state.schedule numRollouts).partitions.getD rank [] = (given plans rank).flatten := by
  unfold ScheduleState.schedule
  rw [h.ranks, List.map_map, List.getD_eq_getElem _ _ (by simpa using hrank)]
  simp [RankSchedule.ofMicroBatches, given]

theorem ScheduleState.Holds.microBatches (h : state.Holds dpSize plans) {rank : Nat}
    (hrank : rank < dpSize) :
    (state.schedule numRollouts).microBatchIndices.getD rank [] = (given plans rank).tile 0 := by
  unfold ScheduleState.schedule
  rw [h.ranks, List.map_map, List.getD_eq_getElem _ _ (by simpa using hrank)]
  simp [RankSchedule.ofMicroBatches, given]

/-- Reading the local indices of a rank gives its global micro-batches back. -/
theorem ScheduleState.Holds.read_back (h : state.Holds dpSize plans) {rank : Nat}
    (hrank : rank < dpSize) :
    ((state.schedule numRollouts).microBatchIndices.getD rank []).map (fun microBatch =>
      microBatch.map (((state.schedule numRollouts).partitions.getD rank []).getD · 0)) =
      given plans rank := by
  rw [h.partition hrank, h.microBatches hrank]
  have hread := List.map_tile [] [] (given plans rank) 0
  rwa [List.nil_append, List.append_nil] at hread

/-- The part of a rank in the plan of a step is one of the plan's parts. -/
theorem getD_ranks_mem {plan : StepPlan} {rank : Nat} (hlen : plan.ranks.length = dpSize)
    (hrank : rank < dpSize) : plan.ranks.getD rank [] ∈ plan.ranks := by
  rw [List.getD_eq_getElem _ _ (by omega)]
  exact List.getElem_mem _

/-- Taking the parts of all ranks is taking the whole plan. -/
theorem flatMap_getD_ranks {plan : StepPlan} (hlen : plan.ranks.length = dpSize) :
    ((List.range dpSize).flatMap fun rank => (plan.ranks.getD rank []).flatten) =
      plan.ranks.flatMap List.flatten := by
  have hread := List.map_getD_range' [] plan.ranks [] []
  rw [List.nil_append, List.append_nil, List.length_nil, ← List.range_eq_range', hlen] at hread
  conv_rhs => rw [← hread]
  rw [List.flatMap_map]

/-- A rank trains its parts of the plans, step by step. -/
theorem ScheduleState.Holds.rankSteps (h : state.Holds dpSize plans)
    (hlen : ∀ plan ∈ plans, plan.ranks.length = dpSize)
    (hcounts : ∀ plan ∈ plans, ∀ microBatches ∈ plan.ranks, microBatches.length = plan.count)
    {rank : Nat} (hrank : rank < dpSize) :
    (state.schedule numRollouts).rankSteps rank =
      plans.map fun plan => plan.ranks.getD rank [] := by
  unfold DPSchedule.rankSteps
  rw [← List.splitLengths_map, h.read_back hrank]
  show state.numMicrobatches.splitLengths _ = _
  rw [h.counts, given, List.flatMap_def]
  apply List.splitLengths_flatten_of_lengths
  rw [List.map_map]
  apply List.map_congr_left
  intro plan hplan
  exact (hcounts plan hplan _ (getD_ranks_mem (hlen plan hplan) hrank)).symm

/-- All ranks together train the plan of a step. -/
theorem ScheduleState.Holds.stepSamples (h : state.Holds dpSize plans)
    (hlen : ∀ plan ∈ plans, plan.ranks.length = dpSize)
    (hcounts : ∀ plan ∈ plans, ∀ microBatches ∈ plan.ranks, microBatches.length = plan.count)
    {step : Nat} (hstep : step < plans.length) :
    (state.schedule numRollouts).stepSamples step = plans[step].ranks.flatMap List.flatten := by
  unfold DPSchedule.stepSamples
  have hranks : (state.schedule numRollouts).partitions.length = dpSize := by
    simp [ScheduleState.schedule, h.ranks]
  rw [hranks, ← flatMap_getD_ranks (hlen _ (List.getElem_mem hstep))]
  apply List.flatMap_congr
  intro rank hrank
  rw [h.rankSteps hlen hcounts (List.mem_range.mp hrank),
    List.getD_eq_getElem _ _ (by rwa [List.length_map]), List.getElem_map]

/-- The partitions hold what the plans hold. -/
theorem ScheduleState.Holds.partitions_perm (h : state.Holds dpSize plans)
    (hlen : ∀ plan ∈ plans, plan.ranks.length = dpSize) :
    (state.schedule numRollouts).partitions.flatten.Perm
      (plans.flatMap fun plan => plan.ranks.flatMap List.flatten) := by
  have hparts : (state.schedule numRollouts).partitions.flatten =
      (List.range dpSize).flatMap fun rank => plans.flatMap fun plan =>
        (plan.ranks.getD rank []).flatten := by
    simp only [ScheduleState.schedule, h.ranks, List.map_map, List.flatten_eq_flatMap,
      List.flatMap_map, Function.comp_apply, id_eq, RankSchedule.ofMicroBatches,
      List.flatMap_assoc]
  rw [hparts]
  refine (List.perm_flatMap_comm ..).trans (List.Perm.flatMap_left _ fun plan hplan => ?_)
  rw [flatMap_getD_ranks (hlen plan hplan)]

end Schedule

/-- Valid plans for the steps make a valid schedule. -/
theorem validSchedule_of_plans {samples : Samples ι}
    {numRollouts : List Nat} {plans : List StepPlan} {state : ScheduleState}
    (hstate : state.Holds cfg.dpSize plans)
    (hplans : List.Forall₂ (fun rollouts plan => StepPlan.Valid cfg args samples.totalLengths
        (rollouts.flatMap (samplesOf samples.rolloutIndices)) plan)
      (stepRollouts samples.rolloutIndices numRollouts) plans) :
    ValidSchedule cfg args samples (state.schedule numRollouts) := by
  have hsteps : plans.length = numRollouts.length := by
    rw [← hplans.length_eq, stepRollouts, List.length_splitLengths]
  have hvalid : ∀ plan ∈ plans, ∃ rollouts : List ι, StepPlan.Valid cfg args samples.totalLengths
      (rollouts.flatMap (samplesOf samples.rolloutIndices)) plan := by
    intro plan hplan
    obtain ⟨i, hi, rfl⟩ := List.mem_iff_getElem.mp hplan
    have hi' : i < (stepRollouts samples.rolloutIndices numRollouts).length := by
      rwa [hplans.length_eq]
    exact ⟨_, hplans.get hi' hi⟩
  have hlen : ∀ plan ∈ plans, plan.ranks.length = cfg.dpSize := fun plan hplan =>
    (hvalid plan hplan).elim fun _ h => h.ranks
  have hcounts : ∀ plan ∈ plans, ∀ microBatches ∈ plan.ranks,
      microBatches.length = plan.count := fun plan hplan =>
    (hvalid plan hplan).elim fun _ h => h.counts
  -- the ranks hold the samples of the first rollouts, each once
  have hfirst : (state.schedule numRollouts).partitions.flatten.Perm
      ((samples.rolloutIndices.eraseDups.take numRollouts.sum).flatMap
        (samplesOf samples.rolloutIndices)) := by
    refine (hstate.partitions_perm hlen).trans ?_
    rw [← List.flatten_splitLengths_take, List.flatten_eq_flatMap, List.flatMap_assoc]
    have hjoin : ∀ {steps : List (List ι)} {plans : List StepPlan},
        List.Forall₂ (fun rollouts plan => StepPlan.Valid cfg args samples.totalLengths
          (rollouts.flatMap (samplesOf samples.rolloutIndices)) plan) steps plans →
        (plans.flatMap fun plan => plan.ranks.flatMap List.flatten).Perm
          (steps.flatMap fun rollouts =>
            rollouts.flatMap (samplesOf samples.rolloutIndices)) := by
      intro steps plans h
      induction h with
      | nil => exact .refl _
      | cons hvalid _ ih => exact hvalid.perm.append ih
    exact hjoin hplans
  have hunion : ∀ pos, pos ∈ (state.schedule numRollouts).partitions.flatten ↔
      ∃ rid ∈ samples.rolloutIndices.eraseDups.take numRollouts.sum,
        samples.rolloutIndices[pos]? = some rid := by
    intro pos
    rw [hfirst.mem_iff, List.mem_flatMap]
    simp only [mem_samplesOf]
  have hstep : ∀ step < numRollouts.length, ((state.schedule numRollouts).stepSamples step).Perm
      (((stepRollouts samples.rolloutIndices numRollouts).getD step []).flatMap
        (samplesOf samples.rolloutIndices)) := by
    intro step hlt
    have hlt' : step < (stepRollouts samples.rolloutIndices numRollouts).length := by
      rwa [stepRollouts, List.length_splitLengths]
    rw [hstate.stepSamples hlen hcounts (hsteps ▸ hlt), List.getD_eq_getElem _ _ hlt']
    exact (hplans.get hlt' (hsteps ▸ hlt)).perm
  exact {
    ranks := by simp [ScheduleState.schedule, hstate.ranks]
    nodup := hfirst.nodup_iff.mpr (flatMap_samplesOf_nodup _
      ((List.nodup_eraseDups _).sublist (List.take_sublist ..)))
    union := hunion
    tiles := fun rank hrank => by
      rw [hstate.partition hrank, hstate.microBatches hrank, List.flatten_tile,
        List.range_eq_range']
    counts := by
      refine ⟨by simpa [ScheduleState.schedule, hstate.counts] using hsteps,
        fun rank hrank => ?_⟩
      rw [hstate.microBatches hrank, List.length_tile]
      show (given plans rank).length = state.numMicrobatches.sum
      rw [hstate.counts, given, List.length_flatMap]
      congr 1
      apply List.map_congr_left
      intro plan hplan
      exact hcounts plan hplan _ (getD_ranks_mem (hlen plan hplan) hrank)
    groups := by
      intro hvpp group hgroup count hcount
      change count ∈ state.numMicrobatches at hcount
      rw [hstate.counts] at hcount
      obtain ⟨plan, hplan, rfl⟩ := List.mem_map.mp hcount
      obtain ⟨rollouts, hplan⟩ := hvalid plan hplan
      obtain ⟨group', -, halign, hgroup'⟩ := cfg.alignTo_eq
      obtain rfl : group' = group := Option.some.inj ((hgroup' hvpp).symm.trans hgroup)
      have hdvd := hplan.aligned
      rw [halign, Nat.mul_comm] at hdvd
      exact Nat.dvd_of_mul_dvd_mul_right cfg.dpSize_pos hdvd
    steps := hstep
    together := by
      intro rid
      by_cases hrid : rid ∈ samples.rolloutIndices.eraseDups.take numRollouts.sum
      · left
        rw [← List.flatten_splitLengths_take] at hrid
        obtain ⟨rollouts, hrollouts, hmem⟩ := List.mem_flatten.mp hrid
        obtain ⟨step, hlt, rfl⟩ := List.mem_iff_getElem.mp hrollouts
        have hlt' : step < numRollouts.length := by rwa [List.length_splitLengths] at hlt
        refine ⟨step, hlt', fun pos hpos => (hstep step hlt').mem_iff.mpr ?_⟩
        rw [stepRollouts, List.getD_eq_getElem _ _ hlt]
        exact List.mem_flatMap.mpr ⟨rid, hmem, mem_samplesOf.mpr hpos⟩
      · right
        intro pos hpos hmem
        obtain ⟨rid', hrid', hpos'⟩ := (hunion pos).mp hmem
        obtain rfl := Option.some.inj (hpos.symm.trans hpos')
        exact hrid hrid'
    budget := by
      intro hdyn hflops maxTokens hmax rank hrank microBatch hmb hmany
      -- the global micro-batch is one of its step's plan
      have hglobal := List.mem_map_of_mem (f := fun microBatch : List Nat => microBatch.map
        (((state.schedule numRollouts).partitions.getD rank []).getD · 0)) hmb
      rw [hstate.read_back hrank] at hglobal
      obtain ⟨plan, hplan, hmem⟩ := List.mem_flatMap.mp hglobal
      obtain ⟨rollouts, hvalidPlan⟩ := hvalid plan hplan
      apply hvalidPlan.budget hdyn hflops maxTokens hmax _
        (getD_ranks_mem (hlen plan hplan) hrank) _ hmem
      rwa [List.length_map] }

/-- Every group holds positions of samples. -/
private theorem groups_in_range {samples : Samples ι} :
    ∀ group ∈ rolloutIdToSampleIndex samples.rolloutIndices, ∀ pos ∈ group.2,
      pos < samples.totalLengths.length := by
  intro group hgroup pos hpos
  rw [rolloutIdToSampleIndex_eq] at hgroup
  obtain ⟨rid, -, rfl⟩ := List.mem_map.mp hgroup
  rw [samples.same_length]
  exact (List.getElem?_eq_some_iff.mp (mem_samplesOf.mp hpos)).1

/-- The groups of each step are its rollouts with their samples. -/
private theorem splitLengths_groups (rolloutIndices : List ι) (numRollouts : List Nat) :
    numRollouts.splitLengths (rolloutIdToSampleIndex rolloutIndices) =
      (stepRollouts rolloutIndices numRollouts).map fun rollouts =>
        rollouts.map fun rid => (rid, samplesOf rolloutIndices rid) := by
  rw [rolloutIdToSampleIndex_eq, List.splitLengths_map]
  rfl

/-- A returned schedule is that of its plan, and valid. -/
theorem buildDpSchedule_ok {samples : Samples ι}
    {globalBatchSize : Nat} {sched : DPSchedule}
    (h : buildDpSchedule cfg args samples globalBatchSize = .ok sched) :
    sched.numRollouts = planSteps cfg args globalBatchSize
        (rolloutIdToSampleIndex samples.rolloutIndices) ∧
      ValidSchedule cfg args samples sched := by
  unfold buildDpSchedule at h
  obtain ⟨-, h⟩ := ensure_bind_ok.mp h
  obtain ⟨-, h⟩ := ensure_bind_ok.mp h
  obtain ⟨state, hsteps, h⟩ := Except.bind_eq_ok.mp h
  cases h
  have hstart : ScheduleState.Holds cfg.dpSize [] { ranks := List.replicate cfg.dpSize {} } := by
    refine ⟨?_, rfl⟩
    apply List.ext_getElem <;> simp [RankSchedule.ofMicroBatches, List.tile]
  obtain ⟨plans, hstate, hplans⟩ :=
    scheduleSteps_spec samples.positive groups_in_range hstart hsteps
  rw [splitLengths_groups, List.forall₂_map_left_iff] at hplans
  simp only [List.flatMap_map] at hplans
  exact ⟨rfl, validSchedule_of_plans hstate hplans⟩

/-- A returned schedule gives the ranks the samples of its rollouts, each once, in steps that
    keep rollouts together and ranks in lockstep.  With a token budget and at least one full
    step, the dynamic path fails only on a step that has fewer samples than the aligned count of
    its packing. -/
theorem buildDpSchedule_correct (cfg : TrainParallelConfig) (args : Args W) (samples : Samples ι)
    (globalBatchSize : Nat) :
    (∀ sched, buildDpSchedule cfg args samples globalBatchSize = .ok sched →
      sched.numRollouts = planSteps cfg args globalBatchSize
        (rolloutIdToSampleIndex samples.rolloutIndices) ∧
      ValidSchedule cfg args samples sched) ∧
    (∀ e maxTokens, args.useDynamicBatchSize → args.maxTokensPerGpu = some maxTokens →
      1 ≤ samples.rolloutIndices.eraseDups.length / globalBatchSize →
      buildDpSchedule cfg args samples globalBatchSize = .error e →
      ∃ rollouts ∈ stepRollouts samples.rolloutIndices (planSteps cfg args globalBatchSize
          (rolloutIdToSampleIndex samples.rolloutIndices)),
        TooFewSamples cfg args maxTokens
          ((rollouts.flatMap (samplesOf samples.rolloutIndices)).map
            (samples.totalLengths.getD · 0))) := by
  constructor
  · exact fun sched h => buildDpSchedule_ok h
  · intro e maxTokens hdyn hmax hfull h
    unfold buildDpSchedule at h
    obtain ⟨hnone, -⟩ | ⟨-, h⟩ := ensure_bind_error.mp h
    · exact absurd (fun _ => by rw [hmax]; exact Option.some_ne_none _) hnone
    obtain ⟨hfew, -⟩ | ⟨-, h⟩ := ensure_bind_error.mp h
    · rw [rolloutIdToSampleIndex_eq, List.length_map] at hfew
      exact absurd hfull hfew
    obtain h | ⟨state, -, h⟩ := Except.bind_eq_error.mp h
    · obtain ⟨picked, hpicked, hfew⟩ :=
        scheduleSteps_error samples.positive hdyn hmax groups_in_range h
      rw [splitLengths_groups] at hpicked
      obtain ⟨rollouts, hrollouts, rfl⟩ := List.mem_map.mp hpicked
      refine ⟨rollouts, hrollouts, ?_⟩
      simpa only [List.flatMap_map] using hfew
    · cases h

/-! ## Five samples on two ranks -/

def twoRanks : TrainParallelConfig where
  dpSize := 2
  cpSize := 1
  vppSize := none
  microbatchGroupSizePerVpStage := none
  dpSize_pos := Nat.two_pos
  cpSize_pos := Nat.one_pos
  group_pos h := absurd h (by decide)

/-- Micro-batches of at most eight tokens -/
def eightTokensEach : Args Nat where
  useDynamicBatchSize := true
  maxTokensPerGpu := some 8
  microBatchSize := none
  allowPartialTrainStep := false
  balanceData := false
  balanceByFlops := false
  workload := ⟨id, Nat.zero_le, fun _ _ _ _ => Nat.zero_le _⟩
  maxTokens_pos := by simp
  microBatchSize_pos := by simp

def fiveSamples : Samples Nat where
  totalLengths := [7, 5, 3, 9, 4]
  rolloutIndices := [10, 11, 10, 12, 11]
  same_length := rfl
  positive := by decide

/-- Three micro-batches would do, and two for each rank make four. -/
def fiveSchedule : DPSchedule where
  partitions := [[0, 4], [1, 2]]
  microBatchIndices := [[[0], [1]], [[0], [1]]]
  numMicrobatches := [2]
  numRollouts := [2]

/-- One sample cannot be packed for two ranks. -/
def singleSample : Samples Nat where
  totalLengths := [7]
  rolloutIndices := [10]
  same_length := rfl
  positive := by decide

/-- The third rollout does not fill a step. -/
theorem buildDpSchedule_fiveSamples :
    buildDpSchedule twoRanks eightTokensEach fiveSamples 2 = .ok fiveSchedule := by
  have horder : longestFirst [0, 1, 2, 3] [7, 3, 5, 4] = [0, 2, 3, 1] := by
    simp [longestFirst, List.mergeSort, List.MergeSort.Internal.splitInTwo]
  have hsplit : longestFirst [2, 1] [7, 3, 5, 4] = [2, 1] := by
    simp [longestFirst, List.mergeSort, List.MergeSort.Internal.splitInTwo]
  have hpack : firstFitDecreasingPack [7, 3, 5, 4] 8 = [[0], [2, 1], [3]] := by
    show firstFit (longestFirst [0, 1, 2, 3] _) _ _ = _
    rw [horder]
    rfl
  have hexpand : expandBinsBySplitting [7, 3, 5, 4] 1 [[0], [2, 1], [3]] =
      [[0], [2], [3], [1]] := by
    show [[0], (splitBinByTokens [2, 1] [7, 3, 5, 4]).1, [3],
      (splitBinByTokens [2, 1] [7, 3, 5, 4]).2] = _
    unfold splitBinByTokens
    rw [hsplit]
    rfl
  have hmicro : stepMicroBatches twoRanks eightTokensEach 0 [7, 3, 5, 4] =
      .ok [[0], [2], [3], [1]] := by
    show (do let packed ← Except.ok (firstFitDecreasingPack [7, 3, 5, 4] 8); _) = _
    rw [hpack]
    show (do
      let expanded := expandBinsBySplitting [7, 3, 5, 4] 1 [[0], [2, 1], [3]]
      ensure (expanded.length = 4) (ScheduleError.cannotSplit expanded.length 4 0 4 2)
      return expanded) = _
    rw [hexpand]
    rfl
  have hstep : scheduleStep twoRanks eightTokensEach [7, 5, 3, 9, 4] 0
      [(10, [0, 2]), (11, [1, 4])] { ranks := List.replicate 2 {} } =
      .ok { ranks := [⟨[0, 4], [[0], [1]]⟩, ⟨[1, 2], [[0], [1]]⟩], numMicrobatches := [2] } := by
    show (stepMicroBatches twoRanks eightTokensEach 0 [7, 3, 5, 4] >>= _) = _
    rw [hmicro]
    rfl
  show ((scheduleStep twoRanks eightTokensEach [7, 5, 3, 9, 4] 0
    [(10, [0, 2]), (11, [1, 4])] { ranks := List.replicate 2 {} } >>= _) >>= _) = _
  rw [hstep]
  rfl

theorem buildDpSchedule_correct_eightTokens :
    ValidSchedule twoRanks eightTokensEach fiveSamples fiveSchedule ∧
      TooFewSamples twoRanks eightTokensEach 8 [7] := by
  have hvalid := ((buildDpSchedule_correct twoRanks eightTokensEach fiveSamples 2).1 _
    buildDpSchedule_fiveSamples).2
  have hfail : buildDpSchedule twoRanks eightTokensEach singleSample 1 =
      .error (.stepTooFewSamples 1 1 2) := rfl
  obtain ⟨rollouts, hmem, hfew⟩ := (buildDpSchedule_correct twoRanks eightTokensEach
    singleSample 1).2 _ 8 rfl rfl (by decide) hfail
  obtain rfl : rollouts = [10] := List.mem_singleton.mp hmem
  exact ⟨hvalid, hfew⟩

end Miles.DpSchedule
