import Miles.ForStd.Except
import Miles.ForStd.PyDict

/-!
# Colocate pairing

Pure Lean model of `utils/external_utils/colocate_pairing`: the layouts that its configuration
accepts, and the trainer pod and first GPU that its controller gives to each inference pod.
-/

namespace Miles.ColocatePairing

/-- What a validator of the configuration asserts. -/
inductive ConfigError where
  /-- `Field(ge=1)` -/
  | belowOne (field : String)
  | negative (field : String)
  | cellTooLarge
  | straddlesTrainerCells
  | offsetNotWhole
  | straddlesTrainerPods
  | outOfGpus
  | noPools
  /-- Both pools claim the trainer's gpu. -/
  | claimedTwice (pool owner : String) (gpu : Nat)
deriving DecidableEq

/-- The fields of a `PairingLayout` before they are validated. -/
structure LayoutFields where
  numInferenceCells : Int
  numTrainerCells : Int
  numPodsPerInferenceCell : Int
  numPodsPerTrainerCell : Int
  numGpusPerNode : Int
  numGpusPerInferencePod : Int
  gpuOffset : Int
deriving DecidableEq

/-- A layout that its validator lets through. -/
structure PairingLayout where
  numInferenceCells : Nat
  numTrainerCells : Nat
  numPodsPerInferenceCell : Nat
  numPodsPerTrainerCell : Nat
  numGpusPerNode : Nat
  numGpusPerInferencePod : Nat
  gpuOffset : Nat
  positive : 1 ≤ numInferenceCells ∧ 1 ≤ numTrainerCells ∧ 1 ≤ numPodsPerInferenceCell ∧
    1 ≤ numPodsPerTrainerCell ∧ 1 ≤ numGpusPerNode ∧ 1 ≤ numGpusPerInferencePod
  cellFits : numPodsPerInferenceCell ≤ numPodsPerTrainerCell
  wholeCells : numPodsPerTrainerCell % numPodsPerInferenceCell = 0
  wholeOffset : gpuOffset % (numPodsPerInferenceCell * numGpusPerInferencePod) = 0
  wholePods : numGpusPerNode % numGpusPerInferencePod = 0
  enoughGpus : gpuOffset + numInferenceCells * numPodsPerInferenceCell * numGpusPerInferencePod ≤
    numTrainerCells * numPodsPerTrainerCell * numGpusPerNode

namespace PairingLayout

/-- `gpus_per_inference_cell` -/
def gpusPerInferenceCell (layout : PairingLayout) : Nat :=
  layout.numPodsPerInferenceCell * layout.numGpusPerInferencePod

/-- `total_inference_gpus` -/
def totalInferenceGpus (layout : PairingLayout) : Nat :=
  layout.numInferenceCells * layout.numPodsPerInferenceCell * layout.numGpusPerInferencePod

/-- `total_trainer_gpus` -/
def totalTrainerGpus (layout : PairingLayout) : Nat :=
  layout.numTrainerCells * layout.numPodsPerTrainerCell * layout.numGpusPerNode

/-- The fields of an accepted layout -/
def fields (layout : PairingLayout) : LayoutFields :=
  ⟨layout.numInferenceCells, layout.numTrainerCells, layout.numPodsPerInferenceCell,
    layout.numPodsPerTrainerCell, layout.numGpusPerNode, layout.numGpusPerInferencePod,
    layout.gpuOffset⟩

end PairingLayout

/-- `Field(ge=1)` of a count, as a natural number. -/
def atLeastOne (field : String) (value : Int) : Except ConfigError { n : Nat // 1 ≤ n } :=
  if h : 1 ≤ value then .ok ⟨value.toNat, by omega⟩ else .error (.belowOne field)

/-- `PairingLayout(...)`: the bounds of the fields, then `_assert_inference_pods_pair`. -/
def LayoutFields.validate (fields : LayoutFields) : Except ConfigError PairingLayout := do
  let cells ← atLeastOne "num_inference_cells" fields.numInferenceCells
  let trainerCells ← atLeastOne "num_trainer_cells" fields.numTrainerCells
  let pods ← atLeastOne "num_pods_per_inference_cell" fields.numPodsPerInferenceCell
  let trainerPods ← atLeastOne "num_pods_per_trainer_cell" fields.numPodsPerTrainerCell
  let node ← atLeastOne "num_gpus_per_node" fields.numGpusPerNode
  let gpus ← atLeastOne "num_gpus_per_inference_pod" fields.numGpusPerInferencePod
  Except.ensure (0 ≤ fields.gpuOffset) (.negative "gpu_offset")
  let offset := fields.gpuOffset.toNat
  if hfits : pods.1 ≤ trainerPods.1 then
    if hcells : trainerPods.1 % pods.1 = 0 then
      if hoffset : offset % (pods.1 * gpus.1) = 0 then
        if hpods : node.1 % gpus.1 = 0 then
          if hgpus : offset + cells.1 * pods.1 * gpus.1 ≤ trainerCells.1 * trainerPods.1 * node.1
          then
            .ok {
              numInferenceCells := cells.1
              numTrainerCells := trainerCells.1
              numPodsPerInferenceCell := pods.1
              numPodsPerTrainerCell := trainerPods.1
              numGpusPerNode := node.1
              numGpusPerInferencePod := gpus.1
              gpuOffset := offset
              positive := ⟨cells.2, trainerCells.2, pods.2, trainerPods.2, node.2, gpus.2⟩
              cellFits := hfits
              wholeCells := hcells
              wholeOffset := hoffset
              wholePods := hpods
              enoughGpus := hgpus }
          else .error .outOfGpus
        else .error .straddlesTrainerPods
      else .error .offsetNotWhole
    else .error .straddlesTrainerCells
  else .error .cellTooLarge

structure InferencePool where
  poolId : String
  layout : PairingLayout

/-- The trainer's gpus that a pool takes. -/
def InferencePool.span (pool : InferencePool) : List Nat :=
  List.range' pool.layout.gpuOffset pool.layout.totalInferenceGpus

/-- One gpu in the loop of `_assert_pools_claim_distinct_gpus`. -/
def claimGpu (poolId : String) (owners : PyDict Nat String) (gpu : Nat) :
    Except ConfigError (PyDict Nat String) :=
  match owners.get? gpu with
  | some owner => .error (.claimedTwice poolId owner gpu)
  | none => .ok (owners.set gpu poolId)

/-- `_assert_pools_claim_distinct_gpus` -/
def assertPoolsClaimDistinctGpus (pools : List InferencePool) :
    Except ConfigError (PyDict Nat String) :=
  pools.foldlM (fun owners pool => pool.span.foldlM (claimGpu pool.poolId) owners) .empty

/-- A configuration that its validators let through. -/
structure PairingConfig where
  namespaceName : String
  release : String
  trainerPoolId : String
  inferencePools : List InferencePool
  nonempty : inferencePools ≠ []
  distinctGpus : ∃ owners, assertPoolsClaimDistinctGpus inferencePools = .ok owners

structure PodCoordinate where
  poolId : String
  cellIndex : Nat
  podInCellIndex : Nat
deriving DecidableEq

structure InferencePlacement where
  trainerCoord : PodCoordinate
  baseGpuId : Nat
deriving DecidableEq

/-- The trainer's gpu, counted over all its nodes, where an inference pod starts. -/
def absoluteGpu (layout : PairingLayout) (inferenceCellIndex inferencePodIndex : Nat) : Nat :=
  layout.gpuOffset +
    (inferenceCellIndex * layout.numPodsPerInferenceCell + inferencePodIndex) *
      layout.numGpusPerInferencePod

/-- `_place_inference_pod`; none where an index is out of the layout. -/
def placeInferencePod (inferenceCellIndex inferencePodIndex : Nat) (layout : PairingLayout)
    (trainerPoolId : String) : Option InferencePlacement :=
  if inferenceCellIndex < layout.numInferenceCells ∧
      inferencePodIndex < layout.numPodsPerInferenceCell then
    let absolute := absoluteGpu layout inferenceCellIndex inferencePodIndex
    let node := absolute / layout.numGpusPerNode
    some {
      trainerCoord := {
        poolId := trainerPoolId
        cellIndex := node / layout.numPodsPerTrainerCell
        podInCellIndex := node % layout.numPodsPerTrainerCell }
      baseGpuId := absolute % layout.numGpusPerNode }
  else none

/-- The pods of a pool: their cells and their places in them. -/
def InferencePool.pods (pool : InferencePool) : List (Nat × Nat) :=
  (List.range pool.layout.numInferenceCells).flatMap fun cell =>
    (List.range pool.layout.numPodsPerInferenceCell).map fun pod => (cell, pod)

/-- An inference pod with its placement. -/
def placedPod (trainerPoolId : String) (pool : InferencePool) (pod : Nat × Nat) :
    Option (PodCoordinate × InferencePlacement) :=
  (placeInferencePod pod.1 pod.2 pool.layout trainerPoolId).map fun placement =>
    (⟨pool.poolId, pod.1, pod.2⟩, placement)

/-- `placement_of_inference` of the controller. -/
def placementOfInference (config : PairingConfig) :
    Option (PyDict PodCoordinate InferencePlacement) :=
  (config.inferencePools.mapM fun (pool : InferencePool) =>
    pool.pods.mapM (placedPod config.trainerPoolId pool)).map fun pairs => .ofList pairs.flatten

end Miles.ColocatePairing
