import Miles.ForStd.PyDict

/-!
# Rollout data sources

Model of `RolloutDataSource` and `MixedRolloutDataSource` in `miles/rollout/data_source.py`,
with `Dataset` of `miles/utils/data.py` as far as they use it and the dataset entries of
`miles/utils/rollout_data_config.py`.

A prompt row is an arbitrary type `Row`, and the free-form `agent` block of a dataset is an
arbitrary type `Agent` with its `==`, which need not be reflexive (it holds floats).  What is
outside the program is `DataFiles` (reading, filtering and hashing a dataset file) and
`Shuffler` (the permutation that a seeded generator applies to a list of some length).

Loading the tokenizer, resolving the functions a config names and the `metadata` dictionary of
`RolloutDataSource`, which only its buffered subclass writes, are left out.
-/

namespace Miles.Rollout.DataSource

/-! ## Outside the program -/

/-- `random.seed(seed)` and then `random.shuffle(xs)`: which position each place of the
    shuffled list comes from.  It depends on the seed and the length alone. -/
structure Shuffler where
  permutation : Int → Nat → List Nat
  perm_range : ∀ seed n, (permutation seed n).Perm (List.range n)

/-- `[xs[i] for i in order]` -/
def reorder {α : Type} (order : List Nat) (xs : List α) : List α :=
  order.filterMap fun i => xs[i]?

theorem length_reorder {α : Type} {order : List Nat} {xs : List α}
    (h : order.Perm (List.range xs.length)) : (reorder order xs).length = xs.length := by
  have hall : ∀ i ∈ order, (xs[i]?).isSome := by
    intro i hi
    have hlt : i < xs.length := List.mem_range.mp (h.mem_iff.mp hi)
    simp [hlt]
  rw [reorder, List.length_filterMap_eq_countP, List.countP_eq_length.mpr hall, h.length_eq,
    List.length_range]

/-- The dataset files: `loadPrompts path maxLength` are the rows of a file within the length,
    `hashFile path` the digest of a plain file. -/
structure DataFiles (Row : Type) where
  loadPrompts : String → Option Nat → List Row
  hashFile : String → Option String
  /-- `isinstance(prompt.metadata, dict)` -/
  metadataIsMapping : Row → Bool

/-! ## Dataset -/

/-- `Dataset`: a shuffle reorders the samples and keeps their number. -/
structure Dataset (Row : Type) where
  originSamples : List Row
  seed : Int
  epochId : Int
  samples : List Row
  length_samples : samples.length = originSamples.length

namespace Dataset

variable {Row : Type}

/-- `Dataset.__init__` -/
def new (rows : List Row) (seed : Int) : Dataset Row where
  originSamples := rows
  seed := seed
  epochId := -1
  samples := rows
  length_samples := rfl

/-- `Dataset.shuffle` -/
def shuffle (rng : Shuffler) (d : Dataset Row) (newEpochId : Int) : Dataset Row :=
  if d.epochId = newEpochId then d
  else
    { d with
      samples := reorder (rng.permutation (d.seed + newEpochId) d.samples.length) d.originSamples
      epochId := newEpochId
      length_samples := length_reorder (d.length_samples ▸ rng.perm_range _ _) }

end Dataset

/-! ## Groups of samples -/

/-- What `_make_group` of the mixed source sets on a sample, besides its ids. -/
structure MixTags (Agent : Type) where
  datasetName : String
  /-- `metadata["agent_config"]`; `none` leaves the row's own -/
  agentConfig : Option Agent
  agentFunctionPath : Option String
  maxSeqLen : Option Nat
  maxResponseLen : Option Nat
  generateFunctionPath : Option String
  /-- `(rm_type, custom_rm_path)`; `none` leaves the run-wide reward -/
  rewardSpec : Option (Option String × Option String)
  deriving DecidableEq, Repr

/-- A copy of a prompt row in a group; `row = none` is the empty `Sample()`. -/
structure DrawnSample (Row Agent : Type) where
  row : Option Row
  groupIndex : Nat
  index : Nat
  tags : Option (MixTags Agent)
  deriving DecidableEq, Repr

/-- The counters that number groups and samples. -/
structure SampleIds where
  sampleGroupIndex : Nat := 0
  sampleIndex : Nat := 0
  deriving DecidableEq, Repr

/-- The group of one prompt: `n` copies with consecutive indices. -/
def makeGroup {Row Agent : Type} (n : Nat) (ids : SampleIds) (row : Option Row)
    (tags : Option (MixTags Agent)) : List (DrawnSample Row Agent) × SampleIds :=
  ((List.range n).map fun j =>
      { row, groupIndex := ids.sampleGroupIndex, index := ids.sampleIndex + j, tags },
    { sampleGroupIndex := ids.sampleGroupIndex + 1, sampleIndex := ids.sampleIndex + n })

/-- The groups of several prompts, in order. -/
def makeGroups {Row Agent : Type} (n : Nat) :
    SampleIds → List (Option Row × Option (MixTags Agent)) →
    List (List (DrawnSample Row Agent)) × SampleIds
  | ids, [] => ([], ids)
  | ids, (row, tags) :: rest =>
    let (group, ids) := makeGroup n ids row tags
    let (groups, ids) := makeGroups n ids rest
    (group :: groups, ids)

/-! ## Checkpoints and errors -/

/-- A value of a dataset's settings, as `model_dump` gives it. -/
inductive SettingValue (Agent : Type) where
  | int (value : Nat)
  | str (value : String)
  | agent (value : Agent)
  deriving BEq

/-- The entries that only a mixed source saves. -/
structure MixState (Agent : Type) where
  offsets : PyDict String Nat
  epochIds : PyDict String Nat
  credits : PyDict String Int
  numRequests : Nat
  sha256 : PyDict String (Option String)
  /-- absent from checkpoints saved before the settings were recorded -/
  settings : Option (PyDict String (List (String × SettingValue Agent)))

/-- The state a data source saves.  `mix` is there exactly when `"offsets"` is a key. -/
structure StateDict (Agent : Type) where
  sampleOffset : Option Nat := none
  epochId : Option Nat := none
  sampleGroupIndex : Option Nat := none
  sampleIndex : Option Nat := none
  mix : Option (MixState Agent) := none

/-- The reasons of a `RolloutDataResumeMismatch`. -/
inductive ResumeMismatch where
  | holdsMix
  | noState
  | holdsSingleDataset
  | otherDatasets (saved now : List String)
  | changedSettings (name : String) (changed : List String)
  | changedFile (name : String) (saved now : Option String)
  | tooFar (positions : List (String × Nat))
  deriving DecidableEq, Repr

/-- The errors of a data source. -/
inductive DataSourceError where
  | resumeMismatch (reason : ResumeMismatch) (needsFlag : Bool)
  /-- `AssertionError` of `load_simple_checkpoint` -/
  | missingState
  | keyError (key : String)
  /-- `ValueError` of `zip(..., strict=True)` -/
  | zipLengths
  /-- `ValueError`s of `MixedRolloutDataSource.__init__` -/
  | noPrompts (name path : String)
  | metadataNotMapping (name : String) (row : Nat)
  | sha256NotAFile (name path : String)
  | sha256Mismatch (name path expected got : String)
  deriving DecidableEq, Repr

/-- What a directory holds: the saved state, or nothing. -/
abbrev Directory (Agent : Type) := Option (StateDict Agent)

/-- `load_simple_checkpoint` -/
def loadSimpleCheckpoint {Agent : Type} (directory : Directory Agent) :
    Except DataSourceError (StateDict Agent) :=
  match directory with
  | none => .error .missingState
  | some state => .ok state

/-! ## RolloutDataSource -/

/-- The arguments `RolloutDataSource` reads. -/
structure SingleArgs where
  rolloutGlobalDataset : Bool
  promptData : String
  rolloutMaxPromptLen : Option Nat
  rolloutSeed : Int
  rolloutShuffle : Bool
  nSamplesPerPrompt : Nat
  deriving DecidableEq, Repr

/-- `RolloutDataSource` -/
structure RolloutDataSource (Row : Type) where
  epochId : Nat
  ids : SampleIds
  sampleOffset : Nat
  dataset : Option (Dataset Row)

namespace RolloutDataSource

variable {Row Agent : Type} (rng : Shuffler) (args : SingleArgs)

/-- `if self.args.rollout_shuffle: dataset.shuffle(epoch_id)` -/
def shuffleIf (rng : Shuffler) (rolloutShuffle : Bool) (d : Dataset Row) (epochId : Nat) :
    Dataset Row :=
  if rolloutShuffle then d.shuffle rng epochId else d

/-- `RolloutDataSource.__init__` -/
def new (files : DataFiles Row) : RolloutDataSource Row where
  epochId := 0
  ids := {}
  sampleOffset := 0
  dataset :=
    if args.rolloutGlobalDataset then
      let rows := files.loadPrompts args.promptData args.rolloutMaxPromptLen
      some (shuffleIf rng args.rolloutShuffle (Dataset.new rows args.rolloutSeed) 0)
    else none

/-- The prompts of a request, and where the source stands after it.  A request past the end
    reads the rest of the epoch and the start of the next one, whatever it still lacks. -/
def drawPrompts (s : RolloutDataSource Row) (numSamples : Nat) :
    List (Option Row) × RolloutDataSource Row :=
  match s.dataset with
  | none => (List.replicate numSamples none, s)
  | some d =>
    if s.sampleOffset + numSamples ≤ d.samples.length then
      (((d.samples.take (s.sampleOffset + numSamples)).drop s.sampleOffset).map some,
        { s with sampleOffset := s.sampleOffset + numSamples })
    else
      let promptSamples := d.samples.drop s.sampleOffset
      let numSamples := numSamples - promptSamples.length
      let epochId := s.epochId + 1
      let d := shuffleIf rng args.rolloutShuffle d epochId
      ((promptSamples ++ d.samples.take numSamples).map some,
        { s with epochId, dataset := some d, sampleOffset := numSamples })

/-- `RolloutDataSource.get_samples` -/
def getSamples (s : RolloutDataSource Row) (numSamples : Nat) :
    List (List (DrawnSample Row Agent)) × RolloutDataSource Row :=
  let (prompts, s) := drawPrompts rng args s numSamples
  let (groups, ids) := makeGroups args.nSamplesPerPrompt s.ids (prompts.map (·, none))
  (groups, { s with ids })

/-- `RolloutDataSource.save`: what the directory holds afterwards. -/
def save (s : RolloutDataSource Row) (directory : Directory Agent) :
    Except DataSourceError (Directory Agent) :=
  if args.rolloutGlobalDataset then
    .ok (some
      { sampleOffset := some s.sampleOffset
        epochId := some s.epochId
        sampleGroupIndex := some s.ids.sampleGroupIndex
        sampleIndex := some s.ids.sampleIndex })
  else .ok directory

/-- `RolloutDataSource.load` -/
def load (s : RolloutDataSource Row) (directory : Directory Agent) :
    Except DataSourceError (RolloutDataSource Row) := do
  if ¬ args.rolloutGlobalDataset then
    return s
  let state ← loadSimpleCheckpoint directory
  if state.mix.isSome then
    throw (.resumeMismatch .holdsMix false)
  let epochId := state.epochId.getD 0
  return {
    sampleOffset := state.sampleOffset.getD 0
    epochId
    ids := ⟨state.sampleGroupIndex.getD 0, state.sampleIndex.getD 0⟩
    dataset := s.dataset.map fun d => shuffleIf rng args.rolloutShuffle d epochId }

end RolloutDataSource

/-! ## Dataset entries of the mix -/

/-- A key of the `datasets` mapping: YAML also reads numbers and other scalars. -/
inductive YamlKey where
  | str (text : String)
  | int (value : Int)
  /-- any other scalar, with the text `str` gives it -/
  | scalar (kind text : String)
  deriving DecidableEq, Repr

/-- `str(name)` -/
def YamlKey.toStr : YamlKey → String
  | .str text => text
  | .int value => toString value
  | .scalar _ text => text

/-- The fields of a dataset entry. -/
structure DatasetFields (Agent : Type) where
  path : String
  samplesPerStep : Nat
  sha256 : Option String := none
  maxPromptLen : Option Nat := none
  maxResponseLen : Option Nat := none
  customGenerateFunctionPath : Option String := none
  customAgentFunctionPath : Option String := none
  maxSeqLen : Option Nat := none
  customRmPath : Option String := none
  rmType : Option String := none
  agent : Option Agent := none

/-- `RolloutDatasetConfig` -/
structure RolloutDatasetConfig (Agent : Type) extends DatasetFields Agent where
  name : String

/-- The `datasets` mapping: its keys are distinct. -/
structure DatasetsMapping (Agent : Type) where
  entries : List (YamlKey × DatasetFields Agent)
  nodup_keys : (entries.map Prod.fst).Nodup
  nonempty : entries ≠ []

/-- `parse_rollout_datasets`: every entry is named by the text of its key. -/
def parseRolloutDatasets {Agent : Type} (mapping : DatasetsMapping Agent) :
    List (RolloutDatasetConfig Agent) :=
  mapping.entries.map fun (key, fields) => { fields with name := key.toStr }

/-- `_resumed_settings`: the fields that must not change on resume, without the unset ones. -/
def resumedSettings {Agent : Type} (config : RolloutDatasetConfig Agent) :
    List (String × SettingValue Agent) :=
  [("max_prompt_len", config.maxPromptLen.map .int),
    ("max_response_len", config.maxResponseLen.map .int),
    ("custom_generate_function_path", config.customGenerateFunctionPath.map .str),
    ("custom_agent_function_path", config.customAgentFunctionPath.map .str),
    ("max_seq_len", config.maxSeqLen.map .int),
    ("custom_rm_path", config.customRmPath.map .str),
    ("rm_type", config.rmType.map .str),
    ("agent", config.agent.map .agent)].filterMap fun (key, value) => value.map (key, ·)

/-- The keys whose saved and current values differ, sorted. -/
def changedKeys {Agent : Type} [BEq Agent] (saved now : List (String × SettingValue Agent)) :
    List String :=
  let keys := (saved.map Prod.fst ++ now.map Prod.fst).dedup
  (keys.filter fun key => saved.lookup key != now.lookup key).mergeSort

/-- `lower_limit` of a dataset's limit and the run-wide one. -/
def lowerLimit : Option Nat → Option Nat → Option Nat
  | some a, some b => some (min a b)
  | some a, none => some a
  | none, b => b

/-- `actual[:8]` -/
def digestStart (actual : String) : String := String.ofList (actual.toList.take 8)

/-- `_check_dataset_sha256`: the digest of the file, which must begin with the configured one. -/
def checkDatasetSha256 {Row Agent : Type} (files : DataFiles Row)
    (config : RolloutDatasetConfig Agent) : Except DataSourceError (Option String) :=
  match files.hashFile config.path, config.sha256 with
  | none, some _ => .error (.sha256NotAFile config.name config.path)
  | none, none => .ok none
  | some actual, none => .ok (some actual)
  | some actual, some expected =>
    if expected ≠ digestStart actual then
      .error (.sha256Mismatch config.name config.path expected (digestStart actual))
    else .ok (some actual)

/-! ## Smooth weighted round-robin -/

/-- `max(range(len(credits)), key=lambda i: (credits[i], -i))`: the first position of a
    largest credit. -/
def chooseLargest (credits : List Int) : Nat :=
  (List.range credits.length).foldl
    (fun best i => if credits.getD best 0 < credits.getD i 0 then i else best) 0

/-- One prompt: every dataset gains its weight, and the one with the most credit pays. -/
def splitStep (weights : List Int) (state : List Nat × List Int) : List Nat × List Int :=
  let credits := List.zipWith (· + ·) state.2 weights
  let chosen := chooseLargest credits
  (state.1.modify chosen (· + 1), credits.modify chosen (· - weights.sum))

/-- `split_by_weight` -/
def splitByWeight (numSamples : Nat) (weights credits : List Int) :
    Except DataSourceError (List Nat × List Int) :=
  if 0 < numSamples ∧ credits.length ≠ weights.length then .error .zipLengths
  else .ok ((splitStep weights)^[numSamples] (List.replicate weights.length 0, credits))

/-! ## MixedRolloutDataSource -/

/-- The arguments `MixedRolloutDataSource` reads. -/
structure MixedArgs (Agent : Type) where
  datasets : DatasetsMapping Agent
  rolloutMaxPromptLen : Option Nat
  rolloutSeed : Int
  rolloutShuffle : Bool
  nSamplesPerPrompt : Nat

/-- `self.dataset_configs` -/
def MixedArgs.datasetConfigs {Agent : Type} (args : MixedArgs Agent) :
    List (RolloutDatasetConfig Agent) :=
  parseRolloutDatasets args.datasets

/-- `_MIX_SEED_STRIDE` -/
def mixSeedStride : Int := 1000003

/-- A dataset of the mix with its entries of `offsets` and `epoch_ids`.  Construction refuses
    a dataset without prompts. -/
structure DatasetPosition (Row : Type) where
  dataset : Dataset Row
  offset : Nat
  epochId : Nat
  nonempty : 0 < dataset.samples.length

/-- `MixedRolloutDataSource`.  `sources` are the dictionaries `datasets`, `offsets` and
    `epoch_ids`, which have the same keys. -/
structure MixedRolloutDataSource (Row : Type) where
  datasetSha256 : PyDict String (Option String)
  sources : PyDict String (DatasetPosition Row)
  credits : List Int
  numRequests : Nat
  ids : SampleIds

namespace DatasetPosition

variable {Row : Type} (rng : Shuffler) (rolloutShuffle : Bool)

theorem length_shuffleIf (d : Dataset Row) (epochId : Nat) :
    (RolloutDataSource.shuffleIf rng rolloutShuffle d epochId).samples.length =
      d.samples.length := by
  unfold RolloutDataSource.shuffleIf Dataset.shuffle
  split
  · split
    · rfl
    · exact (length_reorder (d.length_samples ▸ rng.perm_range _ _)).trans d.length_samples.symm
  · rfl

/-- `if self.args.rollout_shuffle: dataset.shuffle(epoch_id)` for the dataset's own epoch. -/
def reshuffle (p : DatasetPosition Row) : DatasetPosition Row :=
  { p with
    dataset := RolloutDataSource.shuffleIf rng rolloutShuffle p.dataset p.epochId
    nonempty := by rw [length_shuffleIf]; exact p.nonempty }

/-- Move on by the prompts of one chunk; at the end the next epoch starts. -/
def advance (p : DatasetPosition Row) (taken : Nat) : DatasetPosition Row :=
  if p.dataset.samples.length ≤ p.offset + taken then
    reshuffle rng rolloutShuffle { p with offset := 0, epochId := p.epochId + 1 }
  else { p with offset := p.offset + taken }

/-- `dataset.samples[offset : offset + count]` -/
def chunk (p : DatasetPosition Row) (count : Nat) : List Row :=
  (p.dataset.samples.drop p.offset).take count

/-- What bounds the loop of `_take`: the prompts still to take, and whether the position is
    past the end, from where the next pass takes none. -/
def remaining (p : DatasetPosition Row) (count : Nat) : Nat :=
  2 * count + if p.dataset.samples.length ≤ p.offset then 1 else 0

theorem length_advance (p : DatasetPosition Row) (taken : Nat) :
    (p.advance rng rolloutShuffle taken).dataset.samples.length = p.dataset.samples.length := by
  unfold advance reshuffle
  split
  · exact length_shuffleIf rng rolloutShuffle p.dataset (p.epochId + 1)
  · rfl

theorem remaining_advance_lt (p : DatasetPosition Row) {count : Nat} (h : count ≠ 0) :
    (p.advance rng rolloutShuffle (p.chunk count).length).remaining
        (count - (p.chunk count).length) < p.remaining count := by
  have hpos := p.nonempty
  have hchunk : (p.chunk count).length = min count (p.dataset.samples.length - p.offset) := by
    simp [chunk]
  have hlen := length_advance rng rolloutShuffle p (p.chunk count).length
  unfold remaining
  rw [hlen, hchunk]
  by_cases hend : p.dataset.samples.length ≤ p.offset
  · -- past the end the chunk is empty and the position goes back to 0
    have hoffset : (p.advance rng rolloutShuffle
        (min count (p.dataset.samples.length - p.offset))).offset = 0 := by
      rw [advance, if_pos (by omega)]
      rfl
    rw [hoffset, if_pos hend, if_neg (by omega)]
    omega
  · rw [if_neg hend]
    split <;> omega

/-- `_take`: the prompts, epoch after epoch, and the position afterwards. -/
def take (p : DatasetPosition Row) (count : Nat) : List Row × DatasetPosition Row :=
  if _h : count = 0 then ([], p)
  else
    let prompts := p.chunk count
    let rest := take (p.advance rng rolloutShuffle prompts.length) (count - prompts.length)
    (prompts ++ rest.1, rest.2)
termination_by p.remaining count
decreasing_by exact remaining_advance_lt rng rolloutShuffle p _h

end DatasetPosition

namespace MixedRolloutDataSource

variable {Row Agent : Type} (rng : Shuffler) (files : DataFiles Row) (args : MixedArgs Agent)

/-- One dataset of `__init__`, refused when it has no prompts or a row cannot be tagged. -/
def loadDataset (config : RolloutDatasetConfig Agent) :
    Except DataSourceError (String × DatasetPosition Row) :=
  let rows := files.loadPrompts config.path (lowerLimit config.maxPromptLen args.rolloutMaxPromptLen)
  if h : rows.length = 0 then .error (.noPrompts config.name config.path)
  else
    match rows.findIdx? (!files.metadataIsMapping ·) with
    | some bad => .error (.metadataNotMapping config.name bad)
    | none =>
      .ok (config.name,
        { dataset := Dataset.new rows args.rolloutSeed
          offset := 0
          epochId := 0
          nonempty := Nat.pos_of_ne_zero h })

/-- `MixedRolloutDataSource.__init__` -/
def new : Except DataSourceError (MixedRolloutDataSource Row) := do
  let digests ← args.datasetConfigs.mapM (checkDatasetSha256 files)
  let datasets ← args.datasetConfigs.mapM (loadDataset files args)
  return {
    datasetSha256 := PyDict.ofList ((args.datasetConfigs.map (·.name)).zip digests)
    sources := (PyDict.ofList datasets).mapValues fun _ p => p.reshuffle rng args.rolloutShuffle
    credits := List.replicate args.datasetConfigs.length 0
    numRequests := 0
    ids := {} }

/-- The tags of a config's samples. -/
def mixTags (config : RolloutDatasetConfig Agent) : MixTags Agent where
  datasetName := config.name
  agentConfig := config.agent
  agentFunctionPath := config.customAgentFunctionPath
  maxSeqLen := config.maxSeqLen
  maxResponseLen := config.maxResponseLen
  generateFunctionPath := config.customGenerateFunctionPath
  rewardSpec :=
    if config.customRmPath.isSome ∨ config.rmType.isSome then
      some (config.rmType, config.customRmPath)
    else none

/-- `self._take(config.name, count)` for every config in turn. -/
def takeAll : PyDict String (DatasetPosition Row) → List (RolloutDatasetConfig Agent × Nat) →
    List (Option Row × Option (MixTags Agent)) × PyDict String (DatasetPosition Row)
  | sources, [] => ([], sources)
  | sources, (config, count) :: rest =>
    match sources.get? config.name with
    | none => takeAll sources rest  -- every config has its entry from construction on
    | some p =>
      let (rows, p) := p.take rng args.rolloutShuffle count
      let (prompts, sources) := takeAll (sources.set config.name p) rest
      (rows.map (some ·, some (mixTags config)) ++ prompts, sources)

/-- `MixedRolloutDataSource.get_samples` -/
def getSamples (s : MixedRolloutDataSource Row) (numSamples : Nat) :
    Except DataSourceError (List (List (DrawnSample Row Agent))) × MixedRolloutDataSource Row :=
  let weights := args.datasetConfigs.map fun config => (config.samplesPerStep : Int)
  match splitByWeight numSamples weights s.credits with
  | .error e => (.error e, s)
  | .ok (counts, credits) =>
    let (prompts, sources) := takeAll rng args s.sources (args.datasetConfigs.zip counts)
    let order := rng.permutation (args.rolloutSeed * mixSeedStride + s.numRequests) prompts.length
    let (groups, ids) := makeGroups args.nSamplesPerPrompt s.ids (reorder order prompts)
    (.ok groups, { s with credits, sources, ids, numRequests := s.numRequests + 1 })

/-- The entries of a mix in the saved state. -/
def mixState (s : MixedRolloutDataSource Row) (credits : PyDict String Int) : MixState Agent where
  offsets := s.sources.mapValues fun _ p => p.offset
  epochIds := s.sources.mapValues fun _ p => p.epochId
  credits := credits
  numRequests := s.numRequests
  sha256 := s.datasetSha256
  settings := some (PyDict.ofList
    (args.datasetConfigs.map fun config => (config.name, resumedSettings config)))

/-- `MixedRolloutDataSource.save`: what the directory holds afterwards. -/
def save (s : MixedRolloutDataSource Row) : Except DataSourceError (Directory Agent) :=
  match s.sources.zipStrict s.credits with
  | none => .error .zipLengths
  | some credits =>
    .ok (some
      { sampleGroupIndex := some s.ids.sampleGroupIndex
        sampleIndex := some s.ids.sampleIndex
        mix := some (mixState args s credits) })

/-! ### Loading -/

/-- The checkpoint must be one of a mix. -/
def requireMix (directory : Directory Agent) :
    Except DataSourceError (StateDict Agent × MixState Agent) :=
  match directory with
  | none => .error (.resumeMismatch .noState true)
  | some state =>
    match state.mix with
    | none => .error (.resumeMismatch .holdsSingleDataset true)
    | some mix => .ok (state, mix)

/-- `set(state_dict["offsets"]) != set(self.datasets)` is refused. -/
def checkNames (s : MixedRolloutDataSource Row) (mix : MixState Agent) :
    Except DataSourceError Unit :=
  if (∀ name ∈ mix.offsets.keys, name ∈ s.sources.keys) ∧
      (∀ name ∈ s.sources.keys, name ∈ mix.offsets.keys) then .ok ()
  else .error (.resumeMismatch
    (.otherDatasets mix.offsets.keys.mergeSort s.sources.keys.mergeSort) true)

/-- The settings of one config must be the saved ones. -/
def checkSettings [BEq Agent] (settings : PyDict String (List (String × SettingValue Agent)))
    (config : RolloutDatasetConfig Agent) : Except DataSourceError Unit :=
  match settings.get? config.name with
  | none => .error (.keyError config.name)
  | some saved =>
    let changed := changedKeys saved (resumedSettings config)
    if changed ≠ [] then .error (.resumeMismatch (.changedSettings config.name changed) true)
    else .ok ()

/-- The digest of a dataset's file must be the saved one. -/
def checkDigest (s : MixedRolloutDataSource Row) (entry : String × Option String) :
    Except DataSourceError Unit :=
  match s.datasetSha256.get? entry.1 with
  | none => .error (.keyError entry.1)
  | some now =>
    if entry.2 ≠ now then .error (.resumeMismatch (.changedFile entry.1 entry.2 now) true)
    else .ok ()

/-- A position past the end of its dataset is refused. -/
def checkPositions (s : MixedRolloutDataSource Row) (mix : MixState Agent) :
    Except DataSourceError Unit :=
  let tooFar := mix.offsets.items.filter fun entry =>
    (s.sources.get? entry.1).any fun p => p.dataset.samples.length < entry.2
  if tooFar ≠ [] then .error (.resumeMismatch (.tooFar tooFar) true)
  else .ok ()

/-- The value of a key that must be there. -/
def requireKey {α : Type} (key : String) (value : Option α) : Except DataSourceError α :=
  match value with
  | none => .error (.keyError key)
  | some value => .ok value

/-- The saved position of a dataset, with the order of its epoch.  The checkpoint's offsets
    and epochs have the keys of the datasets, so the defaults are not read. -/
def restorePosition (mix : MixState Agent) (name : String) (p : DatasetPosition Row) :
    DatasetPosition Row :=
  { p with offset := mix.offsets.getD name 0, epochId := mix.epochIds.getD name 0 }.reshuffle
    rng args.rolloutShuffle

/-- `MixedRolloutDataSource.load` -/
def load [BEq Agent] (s : MixedRolloutDataSource Row) (directory : Directory Agent) :
    Except DataSourceError (MixedRolloutDataSource Row) := do
  let (state, mix) ← requireMix directory
  checkNames s mix
  match mix.settings with
  | none => pure ()
  | some settings => args.datasetConfigs.forM (checkSettings settings)
  mix.sha256.items.forM (checkDigest s)
  checkPositions s mix
  let credits ← s.sources.keys.mapM fun name => requireKey name (mix.credits.get? name)
  let sampleGroupIndex ← requireKey "sample_group_index" state.sampleGroupIndex
  let sampleIndex ← requireKey "sample_index" state.sampleIndex
  return {
    datasetSha256 := s.datasetSha256
    sources := s.sources.mapValues (restorePosition rng args mix)
    credits
    numRequests := mix.numRequests
    ids := ⟨sampleGroupIndex, sampleIndex⟩ }

end MixedRolloutDataSource

end Miles.Rollout.DataSource
