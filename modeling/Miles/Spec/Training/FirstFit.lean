import Miles.ForStd.BinPacking
import Miles.Spec.Training.Balancing

/-!
# First-fit decreasing against first-fit

Both pack every sample once and keep bins of several samples within the budget.  Sorting the
samples first is no guarantee of fewer bins: six samples of two lengths are enough for one more.
Samples longer than a third of the budget are never the reason; what decides is which bins the
shorter ones open, and `firstFitDecreasing_against_firstFit` says so exactly.
-/

namespace Miles.Balancing

open BinPacking

variable {order lengths : List Nat} {maxTokens : Nat}

/-! ## Opening a bin -/

/-- The bins after some samples, with their sums. -/
def firstFitBins (order lengths : List Nat) (maxTokens : Nat) : List Bin :=
  order.foldl (fun bins idx => firstFitInsert maxTokens idx (lengths.getD idx 0) bins) []

theorem firstFit_eq (order lengths : List Nat) (maxTokens : Nat) :
    firstFit order lengths maxTokens = (firstFitBins order lengths maxTokens).map (·.indices) := rfl

theorem firstFitBins_concat (order lengths : List Nat) (maxTokens idx : Nat) :
    firstFitBins (order ++ [idx]) lengths maxTokens =
      firstFitInsert maxTokens idx (lengths.getD idx 0) (firstFitBins order lengths maxTokens) := by
  rw [firstFitBins, List.foldl_append]
  rfl

theorem firstFitBins_packed (order lengths : List Nat) (maxTokens : Nat) :
    ∀ bin ∈ firstFitBins order lengths maxTokens, bin.Packed lengths maxTokens := by
  induction order using List.reverseRecOn with
  | nil => simp [firstFitBins]
  | append_singleton order idx ih =>
    rw [firstFitBins_concat]
    exact firstFitInsert_packed idx ih

/-- A sample opens a bin only if there is no room for it in the others. -/
theorem length_firstFitInsert (maxTokens idx length : Nat) (bins : List Bin) :
    (firstFitInsert maxTokens idx length bins).length = bins.length ∨
      (firstFitInsert maxTokens idx length bins).length = bins.length + 1 ∧
        ∀ bin ∈ bins, maxTokens < bin.sum + length := by
  induction bins with
  | nil => exact .inr ⟨rfl, by simp⟩
  | cons b bins ih =>
    rw [firstFitInsert]
    split
    · exact .inl rfl
    · rename_i hfull
      rcases ih with hlen | ⟨hlen, hroom⟩
      · exact .inl (by rw [List.length_cons, hlen, List.length_cons])
      · right
        rw [List.length_cons, hlen, List.length_cons]
        refine ⟨rfl, ?_⟩
        intro bin hbin
        rcases List.mem_cons.mp hbin with rfl | hbin
        · omega
        · exact hroom bin hbin

theorem length_firstFitInsert_of_full {maxTokens length : Nat} (idx : Nat) {bins : List Bin}
    (h : ∀ bin ∈ bins, maxTokens < bin.sum + length) :
    (firstFitInsert maxTokens idx length bins).length = bins.length + 1 := by
  induction bins with
  | nil => rfl
  | cons b bins ih =>
    have hfull := h b (by simp)
    rw [firstFitInsert, if_neg (by omega), List.length_cons, List.length_cons,
      ih fun bin hbin => h bin (by simp [hbin])]

/-- A sample of the order finds as many bins open and no room in any of them, so it opens one. -/
def OpensBin (order lengths : List Nat) (maxTokens bins x : Nat) : Prop :=
  ∃ before after, order = before ++ x :: after ∧
    (firstFitBins before lengths maxTokens).length = bins ∧
    ∀ bin ∈ firstFitBins before lengths maxTokens, maxTokens < bin.sum + lengths.getD x 0

/-- No bin is closed again. -/
theorem length_firstFitBins_le (order after lengths : List Nat) (maxTokens : Nat) :
    (firstFitBins order lengths maxTokens).length ≤
      (firstFitBins (order ++ after) lengths maxTokens).length := by
  induction after using List.reverseRecOn with
  | nil => simp
  | append_singleton after idx ih =>
    rw [← List.append_assoc, firstFitBins_concat]
    rcases length_firstFitInsert maxTokens idx (lengths.getD idx 0)
        (firstFitBins (order ++ after) lengths maxTokens) with hlen | ⟨hlen, -⟩
    · omega
    · omega

/-- There are more bins than a number exactly if a sample finds so many of them and opens one. -/
theorem lt_length_iff_opensBin {bins : Nat} :
    bins < (firstFit order lengths maxTokens).length ↔
      ∃ x, OpensBin order lengths maxTokens bins x := by
  rw [firstFit_eq, List.length_map]
  constructor
  · intro hlt
    induction order using List.reverseRecOn with
    | nil => simp [firstFitBins] at hlt
    | append_singleton order idx ih =>
      by_cases hbefore : bins < (firstFitBins order lengths maxTokens).length
      · obtain ⟨x, before, after, rfl, hbins, hroom⟩ := ih hbefore
        exact ⟨x, before, after ++ [idx], by simp, hbins, hroom⟩
      · -- the last sample opens the bin
        rw [firstFitBins_concat] at hlt
        rcases length_firstFitInsert maxTokens idx (lengths.getD idx 0)
            (firstFitBins order lengths maxTokens) with hlen | ⟨hlen, hroom⟩
        · omega
        · exact ⟨idx, order, [], rfl, by omega, hroom⟩
  · rintro ⟨x, before, after, rfl, hbins, hroom⟩
    have hopened := length_firstFitInsert_of_full x hroom
    rw [← firstFitBins_concat] at hopened
    have hle := length_firstFitBins_le (before ++ [x]) after lengths maxTokens
    rw [List.append_assoc, List.singleton_append] at hle
    omega

/-- First-fit packs its samples. -/
theorem firstFit_packs (order lengths : List Nat) (maxTokens : Nat) :
    Packs (lengths.getD · 0) maxTokens (firstFit order lengths maxTokens) order where
  perm := (firstFit_spec order lengths maxTokens).1
  fits bin hbin hlen := ((firstFit_spec order lengths maxTokens).2 bin hbin).2 hlen

/-- In an order from the longest sample to the shortest, a sample that opens a bin is no longer than
    those before it. -/
theorem OpensBin.opens {bins x : Nat} (h : OpensBin order lengths maxTokens bins x)
    (horder : order.Pairwise fun i j => lengths.getD j 0 ≤ lengths.getD i 0) :
    ∃ before after, order = before ++ x :: after ∧
      (firstFit before lengths maxTokens).length = bins ∧
      Opens (lengths.getD · 0) maxTokens (firstFit before lengths maxTokens) before x := by
  obtain ⟨before, after, rfl, hlen, hroom⟩ := h
  refine ⟨before, after, rfl, by simpa [firstFit_eq] using hlen, ?_⟩
  refine ⟨firstFit_packs before lengths maxTokens, ?_, ?_, ?_⟩
  · exact fun bin hbin => ((firstFit_spec before lengths maxTokens).2 bin hbin).1
  · intro bin hbin
    obtain ⟨b, hb, rfl⟩ := List.mem_map.mp hbin
    have hsum := (firstFitBins_packed before lengths maxTokens b hb).sum
    have hfull := hroom b hb
    rw [hsum] at hfull
    exact hfull
  · intro i hi
    exact (List.pairwise_append.mp horder).2.2 i hi x (by simp)

theorem pairwise_longestFirst (indices lengths : List Nat) :
    (longestFirst indices lengths).Pairwise fun i j => lengths.getD j 0 ≤ lengths.getD i 0 := by
  have hsorted := @List.pairwise_mergeSort _
    (fun i j => decide (lengths.getD j 0 ≤ lengths.getD i 0))
    (fun i j k hij hjk => by
      simp only [decide_eq_true_eq] at hij hjk ⊢
      exact hjk.trans hij)
    (fun i j => by
      simp only [Bool.or_eq_true, decide_eq_true_eq]
      exact le_total _ _) indices
  simp only [decide_eq_true_eq] at hsorted
  exact hsorted

/-- The order of arrival stays if the samples arrive from the longest to the shortest. -/
theorem longestFirst_range (h : lengths.Pairwise (· ≥ ·)) :
    longestFirst (List.range lengths.length) lengths = List.range lengths.length := by
  refine List.mergeSort_of_pairwise ?_
  refine List.pairwise_lt_range.imp_of_mem ?_
  intro i j hi hj hij
  rw [List.mem_range] at hi hj
  rw [decide_eq_true_iff, List.getD_eq_getElem _ _ hi, List.getD_eq_getElem _ _ hj]
  exact List.pairwise_iff_getElem.mp h i j hi hj hij

/-! ## How many bins -/

/-- The samples from the longest to the shortest. -/
def decreasingOrder (lengths : List Nat) : List Nat :=
  longestFirst (List.range lengths.length) lengths

/-- The volume of the samples, one longer than the budget counted as a full bin. -/
def cappedTokens (lengths : List Nat) (maxTokens : Nat) : Nat :=
  (lengths.map (min · maxTokens)).sum

/-- The bins that the volume of all samples needs. -/
def volumeBins (lengths : List Nat) (maxTokens : Nat) : Nat :=
  (cappedTokens lengths maxTokens + maxTokens - 1) / maxTokens

/-- Where a sample of at most a third of the budget finds all bins too full in decreasing order, some
    sample finds as many bins, all too full for it, in the order of arrival. -/
def ShortSamplesMatched (lengths : List Nat) (maxTokens : Nat) : Prop :=
  ∀ bins x, OpensBin (decreasingOrder lengths) lengths maxTokens bins x →
    3 * lengths.getD x 0 ≤ maxTokens →
      ∃ y, OpensBin (List.range lengths.length) lengths maxTokens bins y

/-- In decreasing order such a sample opens no bin that the volume does not need. -/
def ShortSamplesEarly (lengths : List Nat) (maxTokens : Nat) : Prop :=
  ∀ bins x, OpensBin (decreasingOrder lengths) lengths maxTokens bins x →
    3 * lengths.getD x 0 ≤ maxTokens → bins < volumeBins lengths maxTokens

/-- The space that a short sample could leave in each bin does not add up to a bin more than the
    volume of all samples needs. -/
def SlackBelowBin (lengths : List Nat) (maxTokens : Nat) : Prop :=
  ∀ s ∈ lengths, 3 * s ≤ maxTokens → cappedTokens lengths maxTokens <
    (maxTokens - s + 1) * volumeBins lengths maxTokens + s

theorem firstFitPack_packs (lengths : List Nat) (maxTokens : Nat) :
    Packs (lengths.getD · 0) maxTokens (firstFitPack lengths maxTokens)
      (List.range lengths.length) :=
  firstFit_packs _ lengths maxTokens

/-- First-fit packs what another order lists. -/
theorem firstFitPack_packs_of_split {before after : List Nat} {x : Nat}
    (h : decreasingOrder lengths = before ++ x :: after) :
    Packs (lengths.getD · 0) maxTokens (firstFitPack lengths maxTokens) (before ++ x :: after) := by
  have hpacks := firstFitPack_packs lengths maxTokens
  refine ⟨hpacks.perm.trans ?_, hpacks.fits⟩
  rw [← h]
  exact (longestFirst_perm _ _).symm

theorem volume_decreasingOrder (lengths : List Nat) (maxTokens : Nat) :
    volume (lengths.getD · 0) maxTokens (decreasingOrder lengths) =
      cappedTokens lengths maxTokens := by
  rw [volume, decreasingOrder, load_perm (longestFirst_perm _ _), load, cappedTokens]
  congr 1
  apply List.ext_getElem
  · simp
  · intro i hi hi'
    have hlt : i < lengths.length := by simpa using hi'
    simp [cappedSize, hlt]

section
variable {bins x : Nat}

theorem OpensBin.getD_mem (h : OpensBin (decreasingOrder lengths) lengths maxTokens bins x) :
    lengths.getD x 0 ∈ lengths := by
  obtain ⟨before, after, horder, -⟩ := h
  have hx : x ∈ decreasingOrder lengths := by simp [horder]
  have hlt := List.mem_range.mp ((longestFirst_perm _ _).subset hx)
  rw [List.getD_eq_getElem _ _ hlt]
  exact List.getElem_mem hlt

/-- A sample over a third of the budget opens a bin that no packing does without. -/
theorem OpensBin.lt_of_long (h : OpensBin (decreasingOrder lengths) lengths maxTokens bins x)
    (hlong : maxTokens < 3 * lengths.getD x 0) : bins < (firstFitPack lengths maxTokens).length := by
  obtain ⟨before, after, horder, hlen, hopens⟩ := h.opens (pairwise_longestFirst _ lengths)
  rw [← hlen]
  exact hopens.length_lt_of_large hlong (firstFitPack_packs_of_split horder)

/-- A shorter one opens at most every third bin too many. -/
theorem OpensBin.lt_of_short (h : OpensBin (decreasingOrder lengths) lengths maxTokens bins x)
    (hpos : 0 < lengths.getD x 0) (hshort : 3 * lengths.getD x 0 ≤ maxTokens) :
    2 * bins < 3 * (firstFitPack lengths maxTokens).length := by
  obtain ⟨before, after, horder, hlen, hopens⟩ := h.opens (pairwise_longestFirst _ lengths)
  rw [← hlen]
  exact hopens.length_lt_of_third hpos hshort (firstFitPack_packs_of_split horder)

/-- First-fit decreasing opens no more bins than first-fit exactly if its short samples are matched:
    the long ones open none that first-fit does without. -/
theorem length_le_iff_matched :
    (firstFitDecreasingPack lengths maxTokens).length ≤ (firstFitPack lengths maxTokens).length ↔
      ShortSamplesMatched lengths maxTokens := by
  constructor
  · intro hle bins x hopens _
    have hlt := lt_length_iff_opensBin.mpr ⟨x, hopens⟩
    exact lt_length_iff_opensBin.mp (hlt.trans_le hle)
  · intro hmatched
    by_contra hmore
    -- the first bin that is too many
    obtain ⟨x, hopens⟩ := lt_length_iff_opensBin.mp (not_le.mp hmore)
    by_cases hlong : maxTokens < 3 * lengths.getD x 0
    · have hlt := hopens.lt_of_long hlong
      omega
    · obtain ⟨y, hy⟩ := hmatched _ x hopens (not_lt.mp hlong)
      have hlt := lt_length_iff_opensBin.mpr ⟨y, hy⟩
      exact absurd hlt (lt_irrefl _)

/-- First-fit opens the bins that the volume needs. -/
theorem ShortSamplesEarly.matched (h : ShortSamplesEarly lengths maxTokens)
    (hpos : ∀ length ∈ lengths, 0 < length) : ShortSamplesMatched lengths maxTokens := by
  intro bins x hopens hshort
  have hx := hpos _ hopens.getD_mem
  have hneed := (firstFitPack_packs lengths maxTokens).ceil_volume_le (by omega)
  rw [volume, ← load_perm (longestFirst_perm (List.range lengths.length) lengths)] at hneed
  change (volume _ _ (decreasingOrder lengths) + _ - 1) / _ ≤ _ at hneed
  rw [volume_decreasingOrder] at hneed
  exact lt_length_iff_opensBin.mp ((h bins x hopens hshort).trans_le hneed)

theorem SlackBelowBin.early (h : SlackBelowBin lengths maxTokens)
    (hpos : ∀ length ∈ lengths, 0 < length) : ShortSamplesEarly lengths maxTokens := by
  intro bins x hopens hshort
  have hmem := hopens.getD_mem
  have hx := hpos _ hmem
  obtain ⟨before, after, horder, hlen, hopened⟩ := hopens.opens (pairwise_longestFirst _ lengths)
  have hvolume := volume_decreasingOrder lengths maxTokens
  rw [horder] at hvolume
  rw [← hlen]
  apply hopened.length_lt_of_volume hx (by omega)
  rw [hvolume]
  exact h _ hmem hshort

end

end Miles.Balancing
