import Miles.ForStd.List
import Miles.Native.Training.WitnessAllocator

/-!
# Which witness ids are cleared before they are reused

The ids of a run are the residues of one unbounded counter. The stale ids of an allocation are the
positions ahead of the counter, up to where the kept ones come round again.
-/

namespace Miles.WitnessAllocator

/-! ## Positions on the ring -/

/-- Two positions less than one turn apart are one position if they have one residue. -/
theorem eq_of_mod_eq {size a b : Nat} (hle : a ≤ b) (hlt : b < a + size)
    (h : a % size = b % size) : a = b := by
  have hdvd : size ∣ b - a := (Nat.modEq_iff_dvd' hle).mp h
  have hzero := Nat.eq_zero_of_dvd_of_lt hdvd (by omega)
  omega

/-- Two positions of one residue are at least one turn apart. -/
theorem add_le_of_mod_eq {size a b : Nat} (hlt : a < b) (h : a % size = b % size) :
    a + size ≤ b := by
  by_contra hnear
  have heq := eq_of_mod_eq (Nat.le_of_lt hlt) (Nat.lt_of_not_le hnear) h
  omega

/-- The ids of the positions from `counter` on. -/
def idsFrom (bufferSize counter numIds : Nat) : List Nat :=
  (List.range numIds).map fun i => (counter + i) % bufferSize

theorem mem_idsFrom {bufferSize counter numIds id : Nat} :
    id ∈ idsFrom bufferSize counter numIds ↔
      ∃ position, counter ≤ position ∧ position < counter + numIds ∧ position % bufferSize = id := by
  unfold idsFrom
  rw [List.mem_map]
  constructor
  · intro h
    obtain ⟨i, hi, rfl⟩ := h
    have hlt := List.mem_range.mp hi
    exact ⟨counter + i, by omega, by omega, rfl⟩
  · intro h
    obtain ⟨position, hle, hlt, rfl⟩ := h
    refine ⟨position - counter, List.mem_range.mpr (by omega), ?_⟩
    rw [Nat.add_sub_cancel' hle]

/-- The ids of less than one turn are distinct. -/
theorem nodup_idsFrom {bufferSize counter numIds : Nat} (h : numIds ≤ bufferSize) :
    (idsFrom bufferSize counter numIds).Nodup := by
  unfold idsFrom
  apply List.Nodup.map_on _ List.nodup_range
  intro i hi j hj heq
  have hi := List.mem_range.mp hi
  have hj := List.mem_range.mp hj
  cases Nat.le_total i j with
  | inl hle => have := eq_of_mod_eq (by omega) (by omega) heq; omega
  | inr hle => have := eq_of_mod_eq (by omega) (by omega) heq.symm; omega

/-- How many ids an allocation lists as stale. -/
def numStale (keep counter bufferSize : Nat) : Nat := bufferSize - min keep (min counter bufferSize)

/-- The stale ids are those of the positions ahead of the counter. -/
theorem computeStaleIds_eq {keep counter bufferSize : Nat} (h : counter ≠ 0) :
    computeStaleIds keep counter bufferSize =
      idsFrom bufferSize counter (numStale keep counter bufferSize) := by
  unfold computeStaleIds idsFrom
  rw [if_neg h]
  simp only [Nat.mod_add_mod]
  rfl

/-- A position that was handed out less than one turn ago is stale if its next turn is ahead, within
    the window. -/
theorem mem_staleIds {keep counter bufferSize position : Nat} (hpositive : 0 < counter)
    (hlt : position < counter) (hturn : counter ≤ position + bufferSize) :
    position % bufferSize ∈ computeStaleIds keep counter bufferSize ↔
      position + min keep (min counter bufferSize) < counter := by
  rw [computeStaleIds_eq (Nat.ne_of_gt hpositive), mem_idsFrom]
  have hnum : numStale keep counter bufferSize =
    bufferSize - min keep (min counter bufferSize) := rfl
  constructor
  · intro h
    obtain ⟨stale, hle, hstale, hmod⟩ := h
    have hnext := add_le_of_mod_eq (by omega) hmod.symm
    omega
  · intro h
    exact ⟨position + bufferSize, hturn, by omega, Nat.add_mod_right ..⟩

/-- The last positions that were handed out are not stale. -/
theorem kept_not_stale {keep counter bufferSize position : Nat} (hlt : position < counter)
    (hkept : counter ≤ position + keep) :
    position % bufferSize ∉ computeStaleIds keep counter bufferSize := by
  by_cases hturn : counter ≤ position + bufferSize
  · rw [mem_staleIds (by omega) hlt hturn]
    omega
  · -- more than the whole ring is kept
    have hzero : numStale keep counter bufferSize = 0 := by
      unfold numStale
      omega
    rw [computeStaleIds_eq (by omega), hzero]
    exact List.not_mem_nil

/-! ## Runs -/

/-- The counter before allocation `i` of a run. -/
def counterAt (numIds : List Int) (i : Nat) : Nat := ((numIds.take i).map Int.toNat).sum

theorem counterAt_succ {numIds : List Int} {i : Nat} {n : Int} (h : numIds[i]? = some n) :
    counterAt numIds (i + 1) = counterAt numIds i + n.toNat := by
  unfold counterAt
  rw [List.take_add_one, h]
  simp

theorem counterAt_mono (numIds : List Int) {i j : Nat} (h : i ≤ j) :
    counterAt numIds i ≤ counterAt numIds j := by
  unfold counterAt
  obtain ⟨k, rfl⟩ := Nat.exists_eq_add_of_le h
  rw [List.take_add, List.map_append, List.sum_append]
  omega

/-- What an allocation returns. -/
def infoAt (keep bufferSize counter numIds : Nat) : WitnessInfo :=
  ⟨idsFrom bufferSize counter numIds, computeStaleIds keep (counter + numIds) bufferSize⟩

/-- An admitted allocation, and the allocator after it. -/
theorem allocate_eq_ok {allocator : WitnessIdAllocator} {keep : Nat} {numIds : Int}
    {allocated : WitnessInfo × WitnessIdAllocator}
    (hkeep : keepCount allocator.bufferSize = .ok keep)
    (h : allocate allocator numIds = .ok allocated) :
    0 ≤ numIds ∧ numIds ≤ allocator.bufferSize ∧
      allocated.1 = infoAt keep allocator.bufferSize allocator.counter numIds.toNat ∧
      allocated.2.bufferSize = allocator.bufferSize ∧
      allocated.2.counter = allocator.counter + numIds.toNat := by
  unfold allocate at h
  obtain ⟨_, hnegative, h⟩ := Except.bind_eq_ok.mp h
  obtain ⟨_, hexceeds, h⟩ := Except.bind_eq_ok.mp h
  rw [hkeep] at h
  cases h
  exact ⟨Except.ensure_eq_ok.mp hnegative, Except.ensure_eq_ok.mp hexceeds, rfl, rfl, rfl⟩

/-- What the allocations of a run return. -/
theorem allocateAll_eq_ok {allocator : WitnessIdAllocator} {keep : Nat} {numIds : List Int}
    {infos : List WitnessInfo} (hkeep : keepCount allocator.bufferSize = .ok keep)
    (h : allocateAll allocator numIds = .ok infos) :
    (∀ n ∈ numIds, 0 ≤ n ∧ n ≤ allocator.bufferSize) ∧
      ∀ i, infos[i]? = numIds[i]?.map fun n =>
        infoAt keep allocator.bufferSize (allocator.counter + counterAt numIds i) n.toNat := by
  induction numIds generalizing allocator infos with
  | nil =>
    cases h
    simp
  | cons n rest ih =>
    obtain ⟨allocated, hallocated, h⟩ := Except.bind_eq_ok.mp h
    obtain ⟨infos, hinfos, h⟩ := Except.bind_eq_ok.mp h
    cases h
    obtain ⟨hnonneg, hle, hinfo, hsize, hcounter⟩ := allocate_eq_ok hkeep hallocated
    obtain ⟨hbounds, hrest⟩ := ih (hsize ▸ hkeep) hinfos
    constructor
    · rw [hsize] at hbounds
      exact List.forall_mem_cons.mpr ⟨⟨hnonneg, hle⟩, hbounds⟩
    · intro i
      cases i with
      | zero => simp [hinfo, counterAt]
      | succ i =>
        have hcounterAt : counterAt (n :: rest) (i + 1) = n.toNat + counterAt rest i := by
          simp [counterAt]
        rw [List.getElem?_cons_succ, List.getElem?_cons_succ, hrest, hsize, hcounter, hcounterAt,
          Nat.add_assoc]

/-- A run of ids can be cut anywhere. -/
theorem idsFrom_append (bufferSize counter m n : Nat) :
    idsFrom bufferSize counter (m + n) =
      idsFrom bufferSize counter m ++ idsFrom bufferSize (counter + m) n := by
  unfold idsFrom
  rw [List.range_add, List.map_append, List.map_map]
  simp [Function.comp_def, Nat.add_assoc]

@[simp] theorem length_idsFrom (bufferSize counter n : Nat) :
    (idsFrom bufferSize counter n).length = n := by
  simp [idsFrom]

/-- The ids that the first `i` allocations handed out. -/
theorem flatMap_witnessIds {keep bufferSize : Nat} {numIds : List Int} {infos : List WitnessInfo}
    (hinfos : ∀ i, infos[i]? = numIds[i]?.map fun n =>
      infoAt keep bufferSize (counterAt numIds i) n.toNat) (i : Nat) :
    (infos.take i).flatMap WitnessInfo.witnessIds =
      idsFrom bufferSize 0 (counterAt numIds i) := by
  induction i with
  | zero => rfl
  | succ i ih =>
    rw [List.take_add_one, List.flatMap_append, ih, hinfos]
    cases hn : numIds[i]? with
    | none =>
      have hlength := List.getElem?_eq_none_iff.mp hn
      have hsame : counterAt numIds (i + 1) = counterAt numIds i := by
        unfold counterAt
        rw [List.take_of_length_le hlength, List.take_of_length_le (by omega)]
      rw [hsame]
      simp
    | some n =>
      rw [counterAt_succ hn, idsFrom_append, Nat.zero_add]
      simp [infoAt]

/-- The last `keep` ids that were handed out. -/
def lastHandedOut (keep : Nat) (infos : List WitnessInfo) : List Nat :=
  let handedOut := infos.flatMap WitnessInfo.witnessIds
  handedOut.drop (handedOut.length - keep)

/-- Between two hand-outs of one id it was listed as stale. -/
def Cleared (infos : List WitnessInfo) : Prop :=
  ∀ (i j : Nat) (earlier later : WitnessInfo), i < j → infos[i]? = some earlier →
    infos[j]? = some later → ∀ id ∈ earlier.witnessIds, id ∈ later.witnessIds →
      ∃ m between, i < m ∧ m < j ∧ infos[m]? = some between ∧ id ∈ between.staleIds

section
variable {keep bufferSize : Nat} {numIds : List Int} {infos : List WitnessInfo}

/-- An allocation lists none of its own ids exactly when it is not larger than what is kept. -/
theorem ownIds_fresh_iff {counter n : Nat} (hsize : n ≤ bufferSize) :
    (∀ id ∈ (infoAt keep bufferSize counter n).witnessIds,
      id ∉ (infoAt keep bufferSize counter n).staleIds) ↔ n ≤ keep := by
  constructor
  · intro hfresh
    by_contra hlarge
    -- the first id of a larger allocation is not kept
    have hfirst : counter % bufferSize ∈ idsFrom bufferSize counter n :=
      mem_idsFrom.mpr ⟨counter, Nat.le_refl _, by omega, rfl⟩
    apply hfresh _ hfirst
    apply (mem_staleIds (by omega) (by omega) (by omega)).mpr
    omega
  · intro hsmall id hid
    obtain ⟨position, hle, hlt, rfl⟩ := mem_idsFrom.mp hid
    exact kept_not_stale hlt (by omega)

/-- A position that was handed out belongs to one of the allocations. -/
theorem exists_allocation {position j : Nat} (h : position < counterAt numIds j) :
    ∃ i n, i < j ∧ numIds[i]? = some n ∧ counterAt numIds i ≤ position ∧
      position < counterAt numIds i + n.toNat := by
  induction j with
  | zero => cases h
  | succ j ih =>
    by_cases hearlier : position < counterAt numIds j
    · obtain ⟨i, n, hi, hn, hle, hlt⟩ := ih hearlier
      exact ⟨i, n, by omega, hn, hle, hlt⟩
    · cases hn : numIds[j]? with
      | none =>
        have hlength := List.getElem?_eq_none_iff.mp hn
        unfold counterAt at h hearlier
        rw [List.take_of_length_le (by omega)] at h hearlier
        exact absurd h hearlier
      | some n =>
        rw [counterAt_succ hn] at h
        exact ⟨j, n, Nat.lt_succ_self j, hn, by omega, h⟩

/-- When no allocation is larger than what is kept, every reused id was cleared exactly when no
    allocation is larger than the window that was listed before it. -/
theorem cleared_iff
    (hinfos : ∀ i, infos[i]? = numIds[i]?.map fun n =>
      infoAt keep bufferSize (counterAt numIds i) n.toNat)
    (hbounds : ∀ n ∈ numIds, 0 ≤ n ∧ n ≤ bufferSize) (hsmall : ∀ n ∈ numIds, n ≤ keep) :
    Cleared infos ↔ ∀ (j : Nat) (n : Int), numIds[j]? = some n →
      n ≤ numStale keep (counterAt numIds j) bufferSize := by
  have hinfo (i : Nat) (n : Int) (h : numIds[i]? = some n) :
      infos[i]? = some (infoAt keep bufferSize (counterAt numIds i) n.toNat) := by
    rw [hinfos, h]
    rfl
  constructor
  · intro hcleared j n hn
    by_contra hlarge
    have hbound := (hbounds n (List.mem_of_getElem? hn)).2
    -- the first position past the window, and its previous turn
    let kept := min keep (min (counterAt numIds j) bufferSize)
    have hkept : kept = min keep (min (counterAt numIds j) bufferSize) := rfl
    have hstale : numStale keep (counterAt numIds j) bufferSize = bufferSize - kept := rfl
    obtain ⟨i, nEarlier, hi, hnEarlier, hle, hlt⟩ :=
      @exists_allocation numIds (counterAt numIds j - kept) j (by omega)
    have hreused : (counterAt numIds j - kept) % bufferSize ∈
        idsFrom bufferSize (counterAt numIds j) n.toNat := by
      refine mem_idsFrom.mpr ⟨counterAt numIds j - kept + bufferSize, by omega, by omega, ?_⟩
      exact Nat.add_mod_right ..
    obtain ⟨m, between, him, hmj, hbetween, hmem⟩ :=
      hcleared i j _ _ hi (hinfo i _ hnEarlier) (hinfo j _ hn) _
        (mem_idsFrom.mpr ⟨_, hle, hlt, rfl⟩) hreused
    -- every allocation in between still keeps that position
    obtain ⟨nBetween, hnBetween, rfl⟩ := Option.map_eq_some_iff.mp ((hinfos m).symm.trans hbetween)
    have hafter := counterAt_mono numIds (Nat.succ_le_of_lt hmj)
    have hbefore := counterAt_mono numIds (Nat.succ_le_of_lt him)
    rw [counterAt_succ hnBetween] at hafter
    rw [Nat.succ_eq_add_one, counterAt_succ hnEarlier] at hbefore
    have hwindow := (mem_staleIds (by omega) (by omega) (by omega)).mp hmem
    omega
  · intro hwindow i j earlier later hij hearlier hlater id hidEarlier hidLater
    obtain ⟨nEarlier, hnEarlier, rfl⟩ := Option.map_eq_some_iff.mp ((hinfos i).symm.trans hearlier)
    obtain ⟨nLater, hnLater, rfl⟩ := Option.map_eq_some_iff.mp ((hinfos j).symm.trans hlater)
    obtain ⟨q, hqle, hqlt, rfl⟩ := mem_idsFrom.mp hidEarlier
    obtain ⟨p, hple, hplt, hmod⟩ := mem_idsFrom.mp hidLater
    have hmono := counterAt_mono numIds (Nat.succ_le_of_lt hij)
    rw [Nat.succ_eq_add_one, counterAt_succ hnEarlier] at hmono
    have hturn := add_le_of_mod_eq (show q < p by omega) hmod.symm
    have hfits := hwindow j nLater hnLater
    have hstale : numStale keep (counterAt numIds j) bufferSize =
      bufferSize - min keep (min (counterAt numIds j) bufferSize) := rfl
    have hsmallEarlier := hsmall nEarlier (List.mem_of_getElem? hnEarlier)
    have hboundEarlier := hbounds nEarlier (List.mem_of_getElem? hnEarlier)
    have hboundLater := hbounds nLater (List.mem_of_getElem? hnLater)
    -- the allocation just before lists the window that holds the reused id
    obtain ⟨m, rfl⟩ := Nat.exists_eq_succ_of_ne_zero (Nat.ne_of_gt (Nat.zero_lt_of_lt hij))
    have hm : m < numIds.length := by
      have := (List.getElem?_eq_some_iff.mp hnLater).1
      omega
    have hnBetween := List.getElem?_eq_getElem hm
    have hcounter := counterAt_succ hnBetween
    rw [Nat.succ_eq_add_one] at hple hplt hfits hstale hmono
    have him : i < m := by
      by_contra hnot
      have hsame : i = m := by omega
      subst hsame
      rw [hnEarlier] at hnBetween
      rw [hstale, counterAt_succ hnEarlier] at hfits
      rw [counterAt_succ hnEarlier] at hple hplt
      omega
    refine ⟨m, _, him, Nat.lt_succ_self m, hinfo m _ hnBetween, ?_⟩
    show q % bufferSize ∈ computeStaleIds keep (counterAt numIds m + numIds[m].toNat) bufferSize
    rw [← hcounter, ← hmod]
    have hprevious : p % bufferSize = (p - bufferSize) % bufferSize := by
      conv_lhs => rw [show p = p - bufferSize + bufferSize by omega]
      exact Nat.add_mod_right ..
    rw [hprevious]
    apply (mem_staleIds (by omega) (by omega) (by omega)).mpr
    omega

end

/-- The ids of one allocation are distinct, and the last ids handed out are not stale. An allocation
    lists none of its own ids exactly when it is not larger than what is kept; and then every reused
    id was listed in between exactly when no allocation is larger than the window listed before. -/
theorem allocate_freshness {bufferSize : Int} {allocator : WitnessIdAllocator} {keep : Nat}
    {numIds : List Int} {infos : List WitnessInfo} (hnew : new bufferSize = .ok allocator)
    (hkeep : keepCount allocator.bufferSize = .ok keep)
    (h : allocateAll allocator numIds = .ok infos) :
    (∀ info ∈ infos, info.witnessIds.Nodup) ∧
      (∀ (i : Nat) (info : WitnessInfo), infos[i]? = some info →
        ∀ id ∈ lastHandedOut keep (infos.take (i + 1)), id ∉ info.staleIds) ∧
      (∀ (i : Nat) (info : WitnessInfo) (n : Int), infos[i]? = some info → numIds[i]? = some n →
        ((∀ id ∈ info.witnessIds, id ∉ info.staleIds) ↔ n ≤ keep)) ∧
      ((∀ n ∈ numIds, n ≤ keep) →
        (Cleared infos ↔ ∀ (j : Nat) (n : Int), numIds[j]? = some n →
          n ≤ bufferSize - min keep (min (counterAt numIds j) bufferSize.toNat))) := by
  have hfresh : allocator.bufferSize = bufferSize.toNat ∧ allocator.counter = 0 := by
    unfold new at hnew
    split at hnew
    · cases hnew
      exact ⟨rfl, rfl⟩
    · cases hnew
  have hpositive := allocator.bufferSize_pos
  obtain ⟨hbounds, hinfos⟩ := allocateAll_eq_ok hkeep h
  simp only [hfresh.2, Nat.zero_add] at hinfos
  -- an information and the size it was allocated for
  have hinfo (i : Nat) (info : WitnessInfo) (hget : infos[i]? = some info) :
      ∃ n, numIds[i]? = some n ∧ (0 ≤ n ∧ n ≤ allocator.bufferSize) ∧
        info = infoAt keep allocator.bufferSize (counterAt numIds i) n.toNat := by
    obtain ⟨n, hn, rfl⟩ := Option.map_eq_some_iff.mp ((hinfos i).symm.trans hget)
    exact ⟨n, hn, hbounds n (List.mem_of_getElem? hn), rfl⟩
  refine ⟨?_, ?_, ?_, ?_⟩
  · intro info hmem
    obtain ⟨i, hget⟩ := List.mem_iff_getElem?.mp hmem
    obtain ⟨n, -, hbound, rfl⟩ := hinfo i info hget
    exact nodup_idsFrom (by omega)
  · intro i info hget id hid
    obtain ⟨n, hn, -, rfl⟩ := hinfo i info hget
    unfold lastHandedOut at hid
    simp only [flatMap_witnessIds hinfos, length_idsFrom] at hid
    have hsplit := idsFrom_append allocator.bufferSize 0
      (counterAt numIds (i + 1) - keep) (min keep (counterAt numIds (i + 1)))
    have hsum : counterAt numIds (i + 1) - keep + min keep (counterAt numIds (i + 1)) =
      counterAt numIds (i + 1) := by omega
    rw [hsum] at hsplit
    rw [hsplit, List.drop_left' (length_idsFrom ..)] at hid
    obtain ⟨position, hle, hlt, rfl⟩ := mem_idsFrom.mp hid
    show _ ∉ computeStaleIds keep (counterAt numIds i + n.toNat) allocator.bufferSize
    rw [← counterAt_succ hn]
    exact kept_not_stale (by omega) (by omega)
  · intro i info n hget hn
    obtain ⟨n', hn', hbound, rfl⟩ := hinfo i info hget
    obtain rfl : n = n' := Option.some.inj (hn.symm.trans hn')
    rw [ownIds_fresh_iff (by omega)]
    omega
  · intro hsmall
    rw [cleared_iff hinfos hbounds hsmall]
    have hwindow (counter : Nat) : (numStale keep counter allocator.bufferSize : Int) =
        bufferSize - min keep (min counter bufferSize.toNat) := by
      unfold numStale
      omega
    simp only [hwindow]

/-- Three allocations of three ids from a ring of ten. -/
theorem allocate_freshness_ten :
    (∀ info ∈ [infoAt 7 10 0 3, infoAt 7 10 3 3, infoAt 7 10 6 3], info.witnessIds.Nodup) ∧
      Cleared [infoAt 7 10 0 3, infoAt 7 10 3 3, infoAt 7 10 6 3] := by
  have hall := @allocate_freshness 10 ⟨10, 0, by decide⟩ 7 [3, 3, 3]
    [infoAt 7 10 0 3, infoAt 7 10 3 3, infoAt 7 10 6 3] rfl (by decide +kernel) (by decide +kernel)
  refine ⟨hall.1, (hall.2.2.2 (by decide)).mpr ?_⟩
  intro j n hn
  have hj : j < 3 := (List.getElem?_eq_some_iff.mp hn).1
  interval_cases j <;> cases hn <;> decide

/-- The first of eight ids out of ten is listed at once, and of three times four ids out of ten the
    id `1` is handed out again without having been listed in between. -/
theorem allocate_not_fresh :
    (∃ info, allocateAll ⟨10, 0, by decide⟩ [8] = .ok [info] ∧
      0 ∈ info.witnessIds ∧ 0 ∈ info.staleIds) ∧
      ∃ infos, allocateAll ⟨10, 0, by decide⟩ [4, 4, 4] = .ok infos ∧ ¬ Cleared infos := by
  refine ⟨⟨infoAt 7 10 0 8, by decide +kernel, by decide, by decide⟩,
    [infoAt 7 10 0 4, infoAt 7 10 4 4, infoAt 7 10 8 4], by decide +kernel, ?_⟩
  intro hcleared
  obtain ⟨m, between, him, hmj, hbetween, hmem⟩ :=
    hcleared 0 2 _ _ (by decide) rfl rfl 1 (by decide) (by decide)
  obtain rfl : m = 1 := by omega
  cases hbetween
  exact absurd hmem (by decide)

end Miles.WitnessAllocator
