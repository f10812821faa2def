import Miles.ForStd.PyDict
import Miles.Native.Rollout.SampleArrays

/-!
# Resetting a sample for a retry

Model of the whole dataclass `Sample` in `miles/utils/types.py` and of its `reset_for_retry`. What
only travels with a sample (processed media, metadata) has values of an arbitrary type `V`.
-/

namespace Miles.Rollout.SampleRetry

open SampleArrays

structure SampleLineage where
  sourceSampleIndex : Int
  outputIndex : Int
  outputCount : Int
deriving DecidableEq

structure RewardSpec where
  rmType : Option String := none
  customRmPath : Option String := none
deriving DecidableEq

inductive Reward (V : Type) where
  | value (reward : Float64Bits)
  | dict (rewards : PyDict String V)

/-- `multimodal_train_inputs`, with the counts that `validate` reads apart -/
structure TrainInputs (V : Type) where
  media : MediaCounts
  values : PyDict String V

/-- `Sample.SpecInfo` -/
structure SpecInfo where
  specNumCorrectDrafts : Int := 0
  specNumProposedDrafts : Int := 0
  specVerifyCt : Int := 0
  completionTokens : Int := 0
deriving DecidableEq

/-- `Sample.PrefixCacheInfo` -/
structure PrefixCacheInfo where
  cachedTokens : Int := 0
  totalPromptTokens : Int := 0
deriving DecidableEq

/-- `Sample` with its defaults -/
structure Sample (V : Type) where
  groupIndex : Option Int := none
  index : Option Int := none
  lineage : Option SampleLineage := none
  rolloutId : Option Int := none
  -- prompt
  prompt : Prompt := .text ""
  tokens : List Int := []
  multimodalInputs : Option (PyDict String V) := none
  multimodalTrainInputs : Option (TrainInputs V) := none
  -- response
  response : String := ""
  responseLength : Nat := 0
  label : Option String := none
  reward : Option (Reward V) := none
  lossMask : Option (List Int) := none
  weightVersions : List WeightVersionsPerCall := []
  rolloutLogProbs : Option (List Float64Bits) := none
  rolloutTopkTokenIds : Option (CandidateArray Int) := none
  rolloutTopkLogProbs : Option (CandidateArray Float32Bits) := none
  rolloutSamplingMask : Option RolloutSamplingMask := none
  rolloutRoutedExperts : Option ForwardArray := none
  rolloutIndexerTopk : Option ForwardArray := none
  rolloutStorePlan : Option StorePlan := none
  removeSample : Bool := false
  teacherLogProbs : Option (List Float64Bits) := none
  opdReverseKl : Option (List Float64Bits) := none
  status : SampleArrays.Status := .pending
  metadata : PyDict String V := .empty
  generateFunctionPath : Option String := none
  maxResponseLen : Option Int := none
  agentFunctionPath : Option String := none
  maxSeqLen : Option Int := none
  trainMetadata : Option (PyDict String V) := none
  rewardSpec : Option RewardSpec := none
  routingKey : Option String := none
  trainerModelId : Option String := none
  kvCacheNamespace : Option String := none
  nonGenerationTime : Float64Bits := 0
  specInfo : SpecInfo := {}
  prefixCacheInfo : PrefixCacheInfo := {}

namespace Sample

variable {V : Type}

/-- What `validate` reads of a sample -/
def arrays (s : Sample V) : SampleArrays.Sample Unit where
  shared := ()
  prompt := s.prompt
  tokens := s.tokens
  media := (s.multimodalTrainInputs.map TrainInputs.media).getD {}
  response := s.response
  responseLength := s.responseLength
  lossMask := s.lossMask
  weightVersions := s.weightVersions
  rolloutLogProbs := s.rolloutLogProbs
  rolloutTopkTokenIds := s.rolloutTopkTokenIds
  rolloutTopkLogProbs := s.rolloutTopkLogProbs
  rolloutSamplingMask := s.rolloutSamplingMask
  rolloutRoutedExperts := s.rolloutRoutedExperts
  rolloutIndexerTopk := s.rolloutIndexerTopk
  rolloutStorePlan := s.rolloutStorePlan
  teacherLogProbs := s.teacherLogProbs
  opdReverseKl := s.opdReverseKl
  status := s.status

def validate (s : Sample V) : Except SampleError Unit := s.arrays.validate

/-- `reset_for_retry`, field by field as it assigns them -/
def resetForRetry (s : Sample V) : Sample V :=
  { s with
    tokens := []
    multimodalTrainInputs := none
    response := ""
    responseLength := 0
    reward := none
    lossMask := none
    weightVersions := []
    rolloutLogProbs := none
    rolloutTopkTokenIds := none
    rolloutTopkLogProbs := none
    rolloutSamplingMask := none
    rolloutRoutedExperts := none
    rolloutIndexerTopk := none
    rolloutStorePlan := none
    status := .aborted
    trainerModelId := none
    kvCacheNamespace := none
    nonGenerationTime := 0
    specInfo := {}
    prefixCacheInfo := {}
    removeSample := false
    trainMetadata := none }

end Sample

end Miles.Rollout.SampleRetry
