import Miles.Native.Workers.ColocatePairing

/-!
# Placement of colocated inference pods

The trainer's gpus are counted over all of its nodes. An inference pod takes an interval of them
that lies on one node, a cell's interval lies in one trainer cell, and the intervals of a
configuration's pods are disjoint: so no two pods are given one gpu.
-/

namespace Miles.ColocatePairing

/-! ## One layout -/

theorem atLeastOne_eq_ok {field : String} {value : Int} {n : { n : Nat // 1 ≤ n }} :
    atLeastOne field value = .ok n ↔ value = n.1 := by
  have hpos := n.2
  unfold atLeastOne
  split
  · rw [Except.ok.injEq, Subtype.ext_iff]
    show value.toNat = n.1 ↔ _
    omega
  · constructor
    · intro h
      cases h
    · omega

/-- The validator makes a layout of its own fields, and of no others. -/
theorem LayoutFields.validate_eq_ok {fields : LayoutFields} {layout : PairingLayout} :
    fields.validate = .ok layout ↔ fields = layout.fields := by
  simp only [LayoutFields.validate, Except.bind_eq_ok, atLeastOne_eq_ok, Except.ensure_eq_ok]
  constructor
  · intro h
    obtain ⟨cells, hcells, trainerCells, htrainerCells, pods, hpods, trainerPods, htrainerPods,
      node, hnode, gpus, hgpus, _, hoffset, h⟩ := h
    split at h
    · split at h
      · split at h
        · split at h
          · split at h
            · cases h
              rw [PairingLayout.fields, ← hcells, ← htrainerCells, ← hpods, ← htrainerPods, ← hnode,
                ← hgpus, Int.toNat_of_nonneg hoffset]
            · cases h
          · cases h
        · cases h
      · cases h
    · cases h
  · intro h
    obtain ⟨hcells, htrainerCells, hpods, htrainerPods, hnode, hgpus⟩ := layout.positive
    subst h
    refine ⟨⟨_, hcells⟩, rfl, ⟨_, htrainerCells⟩, rfl, ⟨_, hpods⟩, rfl, ⟨_, htrainerPods⟩, rfl,
      ⟨_, hnode⟩, rfl, ⟨_, hgpus⟩, rfl, ⟨⟩, Int.natCast_nonneg _, ?_⟩
    apply (dif_pos layout.cellFits).trans
    apply (dif_pos layout.wholeCells).trans
    apply (dif_pos layout.wholeOffset).trans
    apply (dif_pos layout.wholePods).trans
    exact dif_pos layout.enoughGpus

section
variable {layout : PairingLayout} {cell pod : Nat}

theorem dvd_absoluteGpu : layout.numGpusPerInferencePod ∣ absoluteGpu layout cell pod := by
  have hoffset : layout.numGpusPerInferencePod ∣ layout.gpuOffset :=
    (Nat.dvd_mul_left _ _).trans (Nat.dvd_of_mod_eq_zero layout.wholeOffset)
  exact Nat.dvd_add hoffset (Nat.dvd_mul_left _ _)

/-- The gpus of a pod lie in those of its pool. -/
theorem absoluteGpu_add_le (hcell : cell < layout.numInferenceCells)
    (hpod : pod < layout.numPodsPerInferenceCell) :
    absoluteGpu layout cell pod + layout.numGpusPerInferencePod ≤
      layout.gpuOffset + layout.totalInferenceGpus := by
  have hindex : cell * layout.numPodsPerInferenceCell + pod + 1 ≤
      layout.numInferenceCells * layout.numPodsPerInferenceCell := by
    calc cell * layout.numPodsPerInferenceCell + pod + 1
        ≤ cell * layout.numPodsPerInferenceCell + layout.numPodsPerInferenceCell := by omega
      _ = (cell + 1) * layout.numPodsPerInferenceCell := by ring
      _ ≤ layout.numInferenceCells * layout.numPodsPerInferenceCell :=
          Nat.mul_le_mul_right _ hcell
  calc absoluteGpu layout cell pod + layout.numGpusPerInferencePod
      = layout.gpuOffset + (cell * layout.numPodsPerInferenceCell + pod + 1) *
          layout.numGpusPerInferencePod := by
        unfold absoluteGpu
        ring
    _ ≤ layout.gpuOffset + layout.totalInferenceGpus :=
        Nat.add_le_add_left (Nat.mul_le_mul_right _ hindex) _

theorem absoluteGpu_lt (hcell : cell < layout.numInferenceCells)
    (hpod : pod < layout.numPodsPerInferenceCell) :
    absoluteGpu layout cell pod < layout.totalTrainerGpus := by
  have hle := absoluteGpu_add_le hcell hpod
  have henough : layout.gpuOffset + layout.totalInferenceGpus ≤ layout.totalTrainerGpus :=
    layout.enoughGpus
  have hpositive := layout.positive.2.2.2.2.2
  omega

/-- Two multiples of one number are at least that number apart. -/
theorem add_le_of_dvd_of_lt {a b d : Nat} (ha : d ∣ a) (hb : d ∣ b) (h : a < b) : a + d ≤ b := by
  obtain ⟨m, rfl⟩ := ha
  obtain ⟨n, rfl⟩ := hb
  have hmn : m < n := Nat.lt_of_mul_lt_mul_left h
  calc d * m + d = d * (m + 1) := by ring
    _ ≤ d * n := Nat.mul_le_mul_left d hmn

/-- The gpus of a pod are on one node. -/
theorem baseGpu_add_le :
    absoluteGpu layout cell pod % layout.numGpusPerNode + layout.numGpusPerInferencePod ≤
      layout.numGpusPerNode := by
  have hnode : layout.numGpusPerInferencePod ∣ layout.numGpusPerNode :=
    Nat.dvd_of_mod_eq_zero layout.wholePods
  have hbase := (Nat.dvd_mod_iff hnode).mpr (@dvd_absoluteGpu layout cell pod)
  exact add_le_of_dvd_of_lt hbase hnode (Nat.mod_lt _ layout.positive.2.2.2.2.1)

/-- The trainer cell of a pod is that of its inference cell. -/
theorem trainerCell_eq (hpod : pod < layout.numPodsPerInferenceCell) :
    absoluteGpu layout cell pod / layout.numGpusPerNode / layout.numPodsPerTrainerCell =
      absoluteGpu layout cell 0 / layout.numGpusPerNode / layout.numPodsPerTrainerCell := by
  -- a trainer cell is a whole number of inference cells, and the pool starts with a whole one
  have hcells := Nat.dvd_of_mod_eq_zero layout.wholeCells
  have hpods := Nat.dvd_of_mod_eq_zero layout.wholePods
  obtain ⟨count, hcount⟩ := Nat.mul_dvd_mul hcells hpods
  obtain ⟨first, hfirst⟩ := Nat.dvd_of_mod_eq_zero layout.wholeOffset
  have hcell : ∀ pod < layout.numPodsPerInferenceCell,
      absoluteGpu layout cell pod / layout.numGpusPerNode / layout.numPodsPerTrainerCell =
        (first + cell) / count := by
    intro pod hpod
    have hpositive := layout.positive.2.2.2.2.2
    have hinside : pod * layout.numGpusPerInferencePod < layout.gpusPerInferenceCell :=
      Nat.mul_lt_mul_of_pos_right hpod hpositive
    have habsolute : absoluteGpu layout cell pod =
        pod * layout.numGpusPerInferencePod + layout.gpusPerInferenceCell * (first + cell) := by
      rw [absoluteGpu, hfirst, PairingLayout.gpusPerInferenceCell]
      ring
    rw [Nat.div_div_eq_div_mul, Nat.mul_comm layout.numGpusPerNode, hcount,
      ← Nat.div_div_eq_div_mul, habsolute]
    congr 1
    rw [show layout.numPodsPerInferenceCell * layout.numGpusPerInferencePod =
        layout.gpusPerInferenceCell from rfl,
      Nat.add_mul_div_left _ _ (by omega), Nat.div_eq_of_lt hinside, Nat.zero_add]
  rw [hcell pod hpod, hcell 0 (by omega)]

/-- Every pod of the layout is placed on a trainer pod that exists, with all its gpus. -/
theorem placement_exists {trainerPoolId : String} (hcell : cell < layout.numInferenceCells)
    (hpod : pod < layout.numPodsPerInferenceCell) :
    ∃ placement, placeInferencePod cell pod layout trainerPoolId = some placement ∧
      placement.trainerCoord.poolId = trainerPoolId ∧
      placement.trainerCoord.cellIndex < layout.numTrainerCells ∧
      placement.trainerCoord.podInCellIndex < layout.numPodsPerTrainerCell ∧
      placement.baseGpuId + layout.numGpusPerInferencePod ≤ layout.numGpusPerNode := by
  refine ⟨_, if_pos ⟨hcell, hpod⟩, rfl, ?_, ?_, baseGpu_add_le⟩
  · have hlt := absoluteGpu_lt hcell hpod
    show absoluteGpu layout cell pod / layout.numGpusPerNode / layout.numPodsPerTrainerCell <
      layout.numTrainerCells
    rw [Nat.div_div_eq_div_mul]
    apply Nat.div_lt_of_lt_mul
    calc absoluteGpu layout cell pod
        < layout.numTrainerCells * layout.numPodsPerTrainerCell * layout.numGpusPerNode := hlt
      _ = layout.numGpusPerNode * layout.numPodsPerTrainerCell * layout.numTrainerCells := by ring
  · exact Nat.mod_lt _ layout.positive.2.2.2.1

end

/-! ## The validator of the configuration -/

/-- Claiming a list of gpus succeeds when none of them has an owner and none is there twice. -/
theorem claimGpus_eq_ok {poolId : String} {gpus : List Nat} {owners owners' : PyDict Nat String}
    (h : gpus.foldlM (claimGpu poolId) owners = .ok owners') :
    gpus.Nodup ∧ (∀ gpu ∈ gpus, owners.get? gpu = none) ∧
      ∀ gpu, (owners'.get? gpu).isSome ↔ gpu ∈ gpus ∨ (owners.get? gpu).isSome := by
  induction gpus generalizing owners with
  | nil =>
    cases h
    simp
  | cons gpu gpus ih =>
    rw [List.foldlM_cons, Except.bind_eq_ok] at h
    obtain ⟨claimed, hclaim, hrest⟩ := h
    have hfree : owners.get? gpu = none ∧ claimed = owners.set gpu poolId := by
      unfold claimGpu at hclaim
      split at hclaim
      · cases hclaim
      · cases hclaim
        exact ⟨‹_›, rfl⟩
    obtain ⟨hnodup, hunclaimed, howners⟩ := ih hrest
    have hget : ∀ other, claimed.get? other = if other = gpu then some poolId else owners.get? other := by
      intro other
      rw [hfree.2, PyDict.get?_set]
    refine ⟨List.nodup_cons.mpr ⟨?_, hnodup⟩, ?_, ?_⟩
    · intro hmem
      have hnone := hunclaimed gpu hmem
      rw [hget, if_pos rfl] at hnone
      cases hnone
    · intro other hother
      obtain rfl | hother := List.mem_cons.mp hother
      · exact hfree.1
      · have hnone := hunclaimed other hother
        rw [hget] at hnone
        split at hnone
        · cases hnone
        · exact hnone
    · intro other
      rw [howners, hget, List.mem_cons]
      by_cases hother : other = gpu
      · simp [hother]
      · simp [hother]

/-- The spans of the pools of a configuration are disjoint. -/
theorem assertPoolsClaimDistinctGpus_disjoint {pools : List InferencePool}
    {owners owners' : PyDict Nat String}
    (h : pools.foldlM (fun owners pool => pool.span.foldlM (claimGpu pool.poolId) owners) owners =
      .ok owners') :
    pools.Pairwise (fun pool other => pool.span.Disjoint other.span) ∧
      ∀ pool ∈ pools, ∀ gpu ∈ pool.span, owners.get? gpu = none := by
  induction pools generalizing owners with
  | nil => simp
  | cons pool pools ih =>
    rw [List.foldlM_cons, Except.bind_eq_ok] at h
    obtain ⟨claimed, hclaim, hrest⟩ := h
    obtain ⟨-, hfree, hclaimed⟩ := claimGpus_eq_ok hclaim
    obtain ⟨hpairwise, hunclaimed⟩ := ih hrest
    have hsome : ∀ other ∈ pools, ∀ gpu ∈ other.span, gpu ∉ pool.span ∧ owners.get? gpu = none := by
      intro other hother gpu hgpu
      have hnone := hunclaimed other hother gpu hgpu
      have hiff := hclaimed gpu
      rw [hnone] at hiff
      constructor
      · intro hmem
        have hfalse := hiff.mpr (.inl hmem)
        cases hfalse
      · rw [← Option.not_isSome_iff_eq_none]
        intro hisSome
        have hfalse := hiff.mpr (.inr hisSome)
        cases hfalse
    constructor
    · refine List.pairwise_cons.mpr ⟨fun other hother gpu hgpu hgpu' => ?_, hpairwise⟩
      exact (hsome other hother gpu hgpu').1 hgpu
    · intro other hother gpu hgpu
      obtain rfl | hother := List.mem_cons.mp hother
      · exact hfree gpu hgpu
      · exact (hsome other hother gpu hgpu).2

/-! ## A whole configuration -/

/-- The gpus that a pod of a layout takes, over all nodes. -/
theorem mem_span {pool : InferencePool} {cell pod gpu : Nat}
    (hcell : cell < pool.layout.numInferenceCells)
    (hpod : pod < pool.layout.numPodsPerInferenceCell)
    (hle : absoluteGpu pool.layout cell pod ≤ gpu)
    (hlt : gpu < absoluteGpu pool.layout cell pod + pool.layout.numGpusPerInferencePod) :
    gpu ∈ pool.span := by
  have hinside := absoluteGpu_add_le hcell hpod
  have hoffset : pool.layout.gpuOffset ≤ absoluteGpu pool.layout cell pod := Nat.le_add_right _ _
  rw [InferencePool.span, List.mem_range'_1]
  omega

/-- The gpus of two pods of one layout are disjoint, unless they are the same pod. -/
theorem pod_eq_of_common_gpu {layout : PairingLayout} {cell pod cell' pod' gpu : Nat}
    (hpod : pod < layout.numPodsPerInferenceCell) (hpod' : pod' < layout.numPodsPerInferenceCell)
    (hle : absoluteGpu layout cell pod ≤ gpu)
    (hlt : gpu < absoluteGpu layout cell pod + layout.numGpusPerInferencePod)
    (hle' : absoluteGpu layout cell' pod' ≤ gpu)
    (hlt' : gpu < absoluteGpu layout cell' pod' + layout.numGpusPerInferencePod) :
    cell = cell' ∧ pod = pod' := by
  have hindex : ∀ cell pod, absoluteGpu layout cell pod ≤ gpu →
      gpu < absoluteGpu layout cell pod + layout.numGpusPerInferencePod →
      cell * layout.numPodsPerInferenceCell + pod =
        (gpu - layout.gpuOffset) / layout.numGpusPerInferencePod := by
    intro cell pod hle hlt
    unfold absoluteGpu at hle hlt
    symm
    rw [Nat.div_eq_iff layout.positive.2.2.2.2.2]
    constructor
    · omega
    · have hsub : layout.numGpusPerInferencePod - 1 + 1 = layout.numGpusPerInferencePod :=
        Nat.sub_add_cancel layout.positive.2.2.2.2.2
      omega
  have heq := (hindex cell pod hle hlt).trans (hindex cell' pod' hle' hlt').symm
  have hpositive := layout.positive.2.2.1
  constructor
  · have hdiv := congrArg (· / layout.numPodsPerInferenceCell) heq
    rwa [Nat.mul_comm cell, Nat.mul_comm cell', Nat.mul_add_div hpositive,
      Nat.mul_add_div hpositive, Nat.div_eq_of_lt hpod, Nat.div_eq_of_lt hpod', Nat.add_zero,
      Nat.add_zero] at hdiv
  · have hmod := congrArg (· % layout.numPodsPerInferenceCell) heq
    rwa [Nat.mul_add_mod', Nat.mul_add_mod', Nat.mod_eq_of_lt hpod, Nat.mod_eq_of_lt hpod'] at hmod

theorem placeInferencePod_eq_some {cell pod : Nat} {layout : PairingLayout} {trainerPoolId : String}
    {placement : InferencePlacement}
    (h : placeInferencePod cell pod layout trainerPoolId = some placement) :
    cell < layout.numInferenceCells ∧ pod < layout.numPodsPerInferenceCell ∧
      placement.trainerCoord.cellIndex =
        absoluteGpu layout cell pod / layout.numGpusPerNode / layout.numPodsPerTrainerCell ∧
      placement.trainerCoord.podInCellIndex =
        absoluteGpu layout cell pod / layout.numGpusPerNode % layout.numPodsPerTrainerCell ∧
      placement.baseGpuId = absoluteGpu layout cell pod % layout.numGpusPerNode := by
  unfold placeInferencePod at h
  split at h
  · rename_i hin
    cases h
    exact ⟨hin.1, hin.2, rfl, rfl, rfl⟩
  · cases h

/-- A trainer pod and a gpu of its node say which of the trainer's gpus is meant. -/
theorem absoluteGpu_eq {cell pod : Nat} {layout : PairingLayout} {trainerPoolId : String}
    {placement : InferencePlacement}
    (h : placeInferencePod cell pod layout trainerPoolId = some placement) :
    absoluteGpu layout cell pod =
      (placement.trainerCoord.cellIndex * layout.numPodsPerTrainerCell +
        placement.trainerCoord.podInCellIndex) * layout.numGpusPerNode + placement.baseGpuId := by
  obtain ⟨-, -, hcell, hpod, hbase⟩ := placeInferencePod_eq_some h
  rw [hcell, hpod, hbase, Nat.div_add_mod', Nat.div_add_mod']

/-- Two pods that share a gpu of one trainer pod are one pod of one pool. -/
theorem same_pod_of_common_gpu {config : PairingConfig} {i j : Nat} {pool pool' : InferencePool}
    (hpool : config.inferencePools[i]? = some pool)
    (hpool' : config.inferencePools[j]? = some pool')
    (hnode : pool.layout.numGpusPerNode = pool'.layout.numGpusPerNode)
    (hpods : pool.layout.numPodsPerTrainerCell = pool'.layout.numPodsPerTrainerCell)
    {cell pod cell' pod' gpu : Nat} {placement placement' : InferencePlacement}
    (h : placeInferencePod cell pod pool.layout config.trainerPoolId = some placement)
    (h' : placeInferencePod cell' pod' pool'.layout config.trainerPoolId = some placement')
    (hcoord : placement.trainerCoord = placement'.trainerCoord)
    (hle : placement.baseGpuId ≤ gpu)
    (hlt : gpu < placement.baseGpuId + pool.layout.numGpusPerInferencePod)
    (hle' : placement'.baseGpuId ≤ gpu)
    (hlt' : gpu < placement'.baseGpuId + pool'.layout.numGpusPerInferencePod) :
    i = j ∧ cell = cell' ∧ pod = pod' := by
  have habsolute := absoluteGpu_eq h
  have habsolute' := absoluteGpu_eq h'
  rw [← hcoord, ← hnode, ← hpods] at habsolute'
  obtain ⟨hcell, hpod, -⟩ := placeInferencePod_eq_some h
  obtain ⟨hcell', hpod', -⟩ := placeInferencePod_eq_some h'
  -- the same gpu, counted over all nodes
  have hshared : ∃ shared, absoluteGpu pool.layout cell pod ≤ shared ∧
      shared < absoluteGpu pool.layout cell pod + pool.layout.numGpusPerInferencePod ∧
      absoluteGpu pool'.layout cell' pod' ≤ shared ∧
      shared < absoluteGpu pool'.layout cell' pod' + pool'.layout.numGpusPerInferencePod := by
    refine ⟨(placement.trainerCoord.cellIndex * pool.layout.numPodsPerTrainerCell +
      placement.trainerCoord.podInCellIndex) * pool.layout.numGpusPerNode + gpu, ?_⟩
    omega
  obtain ⟨shared, hge, hbelow, hge', hbelow'⟩ := hshared
  have hmem := mem_span hcell hpod hge hbelow
  have hmem' := mem_span hcell' hpod' hge' hbelow'
  have hij : i = j := by
    obtain ⟨owners, howners⟩ := config.distinctGpus
    have hdisjoint := List.pairwise_iff_getElem.mp (assertPoolsClaimDistinctGpus_disjoint howners).1
    obtain ⟨hi, rfl⟩ := List.getElem?_eq_some_iff.mp hpool
    obtain ⟨hj, rfl⟩ := List.getElem?_eq_some_iff.mp hpool'
    obtain hlt | heq | hgt := Nat.lt_trichotomy i j
    · exact absurd hmem' (fun hmem' => hdisjoint i j hi hj hlt hmem hmem')
    · exact heq
    · exact absurd hmem (fun hmem => hdisjoint j i hj hi hgt hmem' hmem)
  subst hij
  obtain rfl : pool = pool' := Option.some.inj (hpool.symm.trans hpool')
  exact ⟨rfl, pod_eq_of_common_gpu hpod hpod' hge hbelow hge' hbelow'⟩

/-- The table of the controller holds the placement of every pod of pools with names of their own. -/
theorem placementOfInference_get? {config : PairingConfig}
    (hids : (config.inferencePools.map InferencePool.poolId).Nodup) :
    ∃ table, placementOfInference config = some table ∧
      ∀ pool ∈ config.inferencePools, ∀ cell < pool.layout.numInferenceCells,
        ∀ pod < pool.layout.numPodsPerInferenceCell,
          table.get? ⟨pool.poolId, cell, pod⟩ =
            placeInferencePod cell pod pool.layout config.trainerPoolId := by
  have hpods : ∀ (pool : InferencePool) (p : Nat × Nat), p ∈ pool.pods ↔
      p.1 < pool.layout.numInferenceCells ∧ p.2 < pool.layout.numPodsPerInferenceCell := by
    intro pool p
    simp [InferencePool.pods, Prod.ext_iff]
  have hplaced : ∀ (pool : InferencePool), ∀ p ∈ pool.pods,
      (placedPod config.trainerPoolId pool p).isSome := by
    intro pool p hp
    obtain ⟨placement, hplacement, -⟩ := @placement_exists pool.layout p.1 p.2 config.trainerPoolId
      ((hpods pool p).mp hp).1 ((hpods pool p).mp hp).2
    rw [placedPod, hplacement]
    rfl
  obtain ⟨pairs, hpairs⟩ := @List.exists_mapM_eq_some _ _
    (fun pool : InferencePool => pool.pods.mapM (placedPod config.trainerPoolId pool))
    config.inferencePools fun pool _ => by
      obtain ⟨ys, hys⟩ := List.exists_mapM_eq_some (hplaced pool)
      rw [hys]
      rfl
  refine ⟨.ofList pairs.flatten, by rw [placementOfInference, hpairs]; rfl, ?_⟩
  have hmem : ∀ {pair : PodCoordinate × InferencePlacement}, pair ∈ pairs.flatten ↔
      ∃ pool ∈ config.inferencePools, ∃ p ∈ pool.pods,
        placedPod config.trainerPoolId pool p = some pair := by
    intro pair
    rw [List.mem_flatten]
    constructor
    · intro h
      obtain ⟨ys, hys, hpair⟩ := h
      obtain ⟨pool, hpool, hmap⟩ := (List.mem_of_mapM_eq_some hpairs).mp hys
      exact ⟨pool, hpool, (List.mem_of_mapM_eq_some hmap).mp hpair⟩
    · intro h
      obtain ⟨pool, hpool, hp⟩ := h
      obtain ⟨ys, hys⟩ := List.exists_mapM_eq_some (hplaced pool)
      exact ⟨ys, (List.mem_of_mapM_eq_some hpairs).mpr ⟨pool, hpool, hys⟩,
        (List.mem_of_mapM_eq_some hys).mpr hp⟩
  intro pool hpool cell hcell pod hpod
  obtain ⟨placement, hplacement, -⟩ :=
    @placement_exists pool.layout cell pod config.trainerPoolId hcell hpod
  have hkey : (⟨pool.poolId, cell, pod⟩ : PodCoordinate) ∈ pairs.flatten.map Prod.fst := by
    refine List.mem_map.mpr ⟨(⟨pool.poolId, cell, pod⟩, placement), hmem.mpr ?_, rfl⟩
    exact ⟨pool, hpool, (cell, pod), (hpods pool (cell, pod)).mpr ⟨hcell, hpod⟩,
      by rw [placedPod, hplacement]; rfl⟩
  obtain ⟨found, hfound⟩ := PyDict.mem_keys_iff.mp (PyDict.mem_keys_ofList.mpr hkey)
  -- what the table holds was placed for a pool of this name, and only this pool has it
  obtain ⟨pool', hpool', p, -, hpair⟩ := hmem.mp (PyDict.mem_of_get?_ofList hfound)
  obtain ⟨placement', hplacement', hcoord⟩ := Option.map_eq_some_iff.mp hpair
  simp only [Prod.mk.injEq, PodCoordinate.mk.injEq] at hcoord
  obtain ⟨⟨hid, hcell', hpod'⟩, rfl⟩ := hcoord
  obtain rfl : pool' = pool := List.inj_on_of_nodup_map hids hpool' hpool hid
  rw [hfound, ← hplacement', hcell', hpod']

/-- The placement of a configuration whose pools describe one trainer: every inference pod is on a
    trainer pod that exists with all of its gpus, the pods of a cell are in one trainer cell, and
    no two pods are given one gpu of one trainer pod. -/
theorem pairing_placement (config : PairingConfig) (node trainerPods trainerCells : Nat)
    (hcommon : ∀ pool ∈ config.inferencePools, pool.layout.numGpusPerNode = node ∧
      pool.layout.numPodsPerTrainerCell = trainerPods ∧
      pool.layout.numTrainerCells = trainerCells) :
    (∀ pool ∈ config.inferencePools, ∀ cell < pool.layout.numInferenceCells,
      ∀ pod < pool.layout.numPodsPerInferenceCell, ∃ placement,
        placeInferencePod cell pod pool.layout config.trainerPoolId = some placement ∧
        placement.trainerCoord.poolId = config.trainerPoolId ∧
        placement.trainerCoord.cellIndex < trainerCells ∧
        placement.trainerCoord.podInCellIndex < trainerPods ∧
        placement.baseGpuId + pool.layout.numGpusPerInferencePod ≤ node) ∧
    (∀ pool ∈ config.inferencePools, ∀ cell pod pod' placement placement',
      placeInferencePod cell pod pool.layout config.trainerPoolId = some placement →
      placeInferencePod cell pod' pool.layout config.trainerPoolId = some placement' →
      placement.trainerCoord.cellIndex = placement'.trainerCoord.cellIndex) ∧
    ∀ (i j : Nat) (pool pool' : InferencePool) (cell pod cell' pod' : Nat)
        (placement placement' : InferencePlacement),
      config.inferencePools[i]? = some pool → config.inferencePools[j]? = some pool' →
      placeInferencePod cell pod pool.layout config.trainerPoolId = some placement →
      placeInferencePod cell' pod' pool'.layout config.trainerPoolId = some placement' →
      placement.trainerCoord = placement'.trainerCoord →
      (∃ gpu, (placement.baseGpuId ≤ gpu ∧
          gpu < placement.baseGpuId + pool.layout.numGpusPerInferencePod) ∧
        placement'.baseGpuId ≤ gpu ∧
          gpu < placement'.baseGpuId + pool'.layout.numGpusPerInferencePod) →
      i = j ∧ cell = cell' ∧ pod = pod' := by
  refine ⟨?_, ?_, ?_⟩
  · intro pool hpool cell hcell pod hpod
    obtain ⟨rfl, rfl, rfl⟩ := hcommon pool hpool
    exact placement_exists hcell hpod
  · intro pool _ cell pod pod' placement placement' h h'
    obtain ⟨-, hpod, hcell, -⟩ := placeInferencePod_eq_some h
    obtain ⟨-, hpod', hcell', -⟩ := placeInferencePod_eq_some h'
    rw [hcell, hcell', trainerCell_eq hpod, trainerCell_eq hpod']
  · intro i j pool pool' cell pod cell' pod' placement placement' hpool hpool' h h' hcoord hgpu
    obtain ⟨gpu, hin, hin'⟩ := hgpu
    have hfirst := hcommon pool (List.mem_of_getElem? hpool)
    have hsecond := hcommon pool' (List.mem_of_getElem? hpool')
    exact same_pod_of_common_gpu hpool hpool' (hfirst.1.trans hsecond.1.symm)
      (hfirst.2.1.trans hsecond.2.1.symm) h h' hcoord hin.1 hin.2 hin'.1 hin'.2

/-- A trainer of two cells with two nodes of eight gpus each, and a pool on the second cell. -/
def pairLayout : PairingLayout where
  numInferenceCells := 2
  numTrainerCells := 2
  numPodsPerInferenceCell := 2
  numPodsPerTrainerCell := 2
  numGpusPerNode := 8
  numGpusPerInferencePod := 4
  gpuOffset := 16
  positive := by decide
  cellFits := by decide
  wholeCells := by decide
  wholeOffset := by decide
  wholePods := by decide
  enoughGpus := by decide

def pairConfig : PairingConfig where
  namespaceName := "default"
  release := "run"
  trainerPoolId := "trainer"
  inferencePools := [⟨"inference", pairLayout⟩]
  nonempty := by simp
  distinctGpus := ⟨_, rfl⟩

theorem pairing_placement_secondCell :
    ∃ placement, placeInferencePod 1 1 pairLayout "trainer" = some placement ∧
      placement.trainerCoord.cellIndex < 2 ∧ placement.trainerCoord.podInCellIndex < 2 ∧
      placement.baseGpuId + 4 ≤ 8 := by
  have hcommon : ∀ pool ∈ pairConfig.inferencePools, pool.layout.numGpusPerNode = 8 ∧
      pool.layout.numPodsPerTrainerCell = 2 ∧ pool.layout.numTrainerCells = 2 := by
    intro pool hpool
    obtain rfl := List.mem_singleton.mp hpool
    decide
  obtain ⟨placement, hplace, -, hexists⟩ := (pairing_placement pairConfig 8 2 2 hcommon).1
    ⟨"inference", pairLayout⟩ (List.mem_singleton.mpr rfl) 1 (by decide) 1 (by decide)
  exact ⟨placement, hplace, hexists⟩

end Miles.ColocatePairing
