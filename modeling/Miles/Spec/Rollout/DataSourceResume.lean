import Miles.ForStd.Except
import Miles.ForStd.Resume
import Miles.Native.Rollout.DataSource

/-!
# Resuming a data source from its checkpoint

A saved data source records positions, epochs and counters, and loading rebuilds the order of
the epoch it stopped in from the seed.  So the invariant of a run is that every dataset is the
freshly constructed one shuffled for the current epoch: then loading restores the state, and
the resumed source answers every request as the uninterrupted one.

Two kinds of mix do not resume.  Keys of the `datasets` mapping with the same text (`1` and
`"1"`) name one dataset twice, so that the credits outnumber the datasets and saving raises.
An `agent` block that differs from its own saved copy (a NaN in it) is refused on load.

## Key results

- `Dataset.shuffle_shuffle`: the order after a shuffle depends on the last epoch only
- `RolloutDataSource.load_save` / `MixedRolloutDataSource.load_save`: loading restores what
  was saved
- `resumesExactly_sources`: a single dataset always resumes exactly, and a mix does iff
  `MixedArgs.Resumable`
-/

namespace Miles.Rollout.DataSource

open Resume RolloutDataSource

/-! ## The order of an epoch -/

namespace Dataset

variable {Row : Type} {rng : Shuffler}

/-- The samples are in file order before the first shuffle, and in the order of the last
    shuffled epoch after it. -/
def Ordered (rng : Shuffler) (d : Dataset Row) : Prop :=
  d.epochId = -1 ∨
    d.samples = reorder (rng.permutation (d.seed + d.epochId) d.samples.length) d.originSamples

theorem ext_samples {d e : Dataset Row} (horigin : d.originSamples = e.originSamples)
    (hseed : d.seed = e.seed) (hepoch : d.epochId = e.epochId) (hsamples : d.samples = e.samples) :
    d = e := by
  cases d
  cases e
  cases horigin
  cases hseed
  cases hepoch
  cases hsamples
  rfl

theorem ordered_new (rows : List Row) (seed : Int) : (Dataset.new rows seed).Ordered rng :=
  .inl rfl

@[simp] theorem length_shuffle (d : Dataset Row) (e : Int) :
    (d.shuffle rng e).samples.length = d.samples.length := by
  unfold shuffle
  split
  · rfl
  · exact (length_reorder (d.length_samples ▸ rng.perm_range _ _)).trans d.length_samples.symm

/-- What a shuffle for an epoch leaves, whether or not the dataset was in it already. -/
theorem shuffle_fields (d : Dataset Row) {e : Int} (he : e ≠ -1) (h : d.Ordered rng) :
    (d.shuffle rng e).originSamples = d.originSamples ∧ (d.shuffle rng e).seed = d.seed ∧
      (d.shuffle rng e).epochId = e ∧
      (d.shuffle rng e).samples =
        reorder (rng.permutation (d.seed + e) d.samples.length) d.originSamples := by
  unfold shuffle
  split
  · rename_i heq
    subst heq
    exact ⟨rfl, rfl, rfl, h.resolve_left he⟩
  · exact ⟨rfl, rfl, rfl, rfl⟩

theorem Ordered.shuffle {d : Dataset Row} (h : d.Ordered rng) {e : Int} (he : e ≠ -1) :
    (d.shuffle rng e).Ordered rng := by
  obtain ⟨horigin, hseed, hepoch, hsamples⟩ := shuffle_fields d he h
  right
  rw [hepoch, horigin, hseed, length_shuffle]
  exact hsamples

/-- The order after a shuffle depends on the last epoch only. -/
theorem shuffle_shuffle {d : Dataset Row} (h : d.Ordered rng) {a b : Int} (ha : a ≠ -1)
    (hb : b ≠ -1) : (d.shuffle rng a).shuffle rng b = d.shuffle rng b := by
  obtain ⟨horigin, hseed, -, -⟩ := shuffle_fields d ha h
  obtain ⟨horigin', hseed', hepoch', hsamples'⟩ := shuffle_fields _ hb (h.shuffle ha)
  obtain ⟨horigin'', hseed'', hepoch'', hsamples''⟩ := shuffle_fields d hb h
  apply ext_samples
  · rw [horigin', horigin, horigin'']
  · rw [hseed', hseed, hseed'']
  · rw [hepoch', hepoch'']
  · rw [hsamples', hsamples'', hseed, horigin, length_shuffle]

end Dataset

variable {Row Agent : Type} {rng : Shuffler}

theorem natCast_ne_neg_one (e : Nat) : (e : Int) ≠ -1 := by omega

theorem ordered_shuffleIf {d : Dataset Row} (h : d.Ordered rng) (rolloutShuffle : Bool) (e : Nat) :
    (shuffleIf rng rolloutShuffle d e).Ordered rng := by
  unfold shuffleIf
  split
  · exact h.shuffle (natCast_ne_neg_one e)
  · exact h

/-- Shuffling for one epoch and then for another is shuffling for the other. -/
theorem shuffleIf_shuffleIf {d : Dataset Row} (h : d.Ordered rng) (rolloutShuffle : Bool)
    (a b : Nat) :
    shuffleIf rng rolloutShuffle (shuffleIf rng rolloutShuffle d a) b =
      shuffleIf rng rolloutShuffle d b := by
  unfold shuffleIf
  split
  · exact Dataset.shuffle_shuffle h (natCast_ne_neg_one a) (natCast_ne_neg_one b)
  · rfl

/-! ## A single dataset -/

namespace RolloutDataSource

variable {args : SingleArgs} {files : DataFiles Row}

/-- The dataset of a source is the one of `fresh`, in the order of the source's epoch. -/
def InEpoch (rng : Shuffler) (args : SingleArgs) (fresh s : RolloutDataSource Row) : Prop :=
  s.dataset = fresh.dataset.map fun d => shuffleIf rng args.rolloutShuffle d s.epochId

theorem ordered_new_dataset {d : Dataset Row} (h : (new rng args files).dataset = some d) :
    d.Ordered rng := by
  unfold new at h
  simp only at h
  split at h
  · cases h
    exact ordered_shuffleIf (Dataset.ordered_new ..) ..
  · cases h

theorem inEpoch_new : InEpoch rng args (new rng args files) (new rng args files) := by
  unfold InEpoch new
  simp only
  split
  · rw [Option.map_some, shuffleIf_shuffleIf (Dataset.ordered_new ..)]
  · rfl

/-- Drawing prompts keeps the dataset in the order of the epoch, which a request past the end
    moves on by one. -/
theorem inEpoch_drawPrompts {s : RolloutDataSource Row} (numSamples : Nat)
    (h : InEpoch rng args (new rng args files) s) :
    InEpoch rng args (new rng args files) (drawPrompts rng args s numSamples).2 := by
  unfold drawPrompts
  split
  · exact h
  · rename_i d hd
    split
    · exact h
    · obtain ⟨d₀, hd₀, heq⟩ := Option.map_eq_some_iff.mp (h.symm.trans hd)
      have hordered := ordered_new_dataset hd₀
      unfold InEpoch
      simp only [hd₀, Option.map_some, ← heq]
      rw [shuffleIf_shuffleIf hordered]

theorem inEpoch_getSamples {s : RolloutDataSource Row} (numSamples : Nat)
    (h : InEpoch rng args (new rng args files) s) :
    InEpoch rng args (new rng args files)
      (@getSamples Row Agent rng args s numSamples).2 :=
  inEpoch_drawPrompts numSamples h

/-- Loading restores what was saved. -/
theorem load_save {s : RolloutDataSource Row} (hglobal : args.rolloutGlobalDataset = true)
    (h : InEpoch rng args (new rng args files) s) (directory : Directory Agent) :
    ∃ checkpoint, save args s directory = .ok checkpoint ∧
      load rng args (new rng args files) checkpoint = .ok s := by
  refine ⟨_, by rw [save, if_pos hglobal], ?_⟩
  have hdataset := h.symm
  simp only [load, hglobal, loadSimpleCheckpoint, Except.ok_bind, not_true_eq_false, if_false,
    Option.isSome_none, Bool.false_eq_true, Option.getD_some, hdataset, pure, Except.pure]

end RolloutDataSource

/-! ## Positions of a mix -/

namespace DatasetPosition

variable {sh : Bool}

/-- The position `p₀` at another offset and epoch, with the order of that epoch. -/
def moveTo (rng : Shuffler) (sh : Bool) (p₀ : DatasetPosition Row) (offset epochId : Nat) :
    DatasetPosition Row :=
  { p₀ with offset, epochId }.reshuffle rng sh

/-- `p` is `p₀` moved on within the dataset. -/
def Continues (rng : Shuffler) (sh : Bool) (p₀ p : DatasetPosition Row) : Prop :=
  p = p₀.moveTo rng sh p.offset p.epochId ∧ p.offset ≤ p₀.dataset.samples.length

theorem ext_fields {p q : DatasetPosition Row} (hdataset : p.dataset = q.dataset)
    (hoffset : p.offset = q.offset) (hepoch : p.epochId = q.epochId) : p = q := by
  cases p
  cases q
  cases hdataset
  cases hoffset
  cases hepoch
  rfl

theorem continues_reshuffle {p : DatasetPosition Row} (h : p.dataset.Ordered rng)
    (hoffset : p.offset ≤ p.dataset.samples.length) :
    Continues rng sh (p.reshuffle rng sh) (p.reshuffle rng sh) := by
  refine ⟨ext_fields ?_ rfl rfl, ?_⟩
  · exact (shuffleIf_shuffleIf h sh p.epochId p.epochId).symm
  · exact hoffset.trans (le_of_eq (length_shuffleIf rng sh p.dataset p.epochId).symm)

/-- Moving on by a chunk stays within the dataset. -/
theorem Continues.advance {p₀ p : DatasetPosition Row} (hordered : p₀.dataset.Ordered rng)
    (h : Continues rng sh p₀ p) (taken : Nat) : Continues rng sh p₀ (p.advance rng sh taken) := by
  obtain ⟨hp, -⟩ := h
  have hdataset : p.dataset = shuffleIf rng sh p₀.dataset p.epochId :=
    congrArg DatasetPosition.dataset hp
  unfold DatasetPosition.advance
  split
  · refine ⟨ext_fields ?_ rfl rfl, Nat.zero_le _⟩
    show shuffleIf rng sh p.dataset (p.epochId + 1) = shuffleIf rng sh p₀.dataset (p.epochId + 1)
    rw [hdataset, shuffleIf_shuffleIf hordered]
  · rename_i hwithin
    refine ⟨ext_fields hdataset rfl rfl, ?_⟩
    show p.offset + taken ≤ p₀.dataset.samples.length
    rw [hdataset, length_shuffleIf] at hwithin
    omega

/-- The loop of `_take` stays within the dataset. -/
theorem Continues.take {p₀ p : DatasetPosition Row} (hordered : p₀.dataset.Ordered rng)
    (h : Continues rng sh p₀ p) (count : Nat) :
    Continues rng sh p₀ (p.take rng sh count).2 := by
  induction p, count using DatasetPosition.take.induct rng sh with
  | case1 p =>
    rw [DatasetPosition.take, dif_pos rfl]
    exact h
  | case2 p count hcount prompts ih =>
    rw [DatasetPosition.take, dif_neg hcount]
    exact ih (h.advance hordered _)

end DatasetPosition

/-! ## Saved settings -/

/-- The only `agent` value among the settings is the config's. -/
theorem agent_of_mem_resumedSettings {config : RolloutDatasetConfig Agent} {key : String}
    {agent : Agent} (h : (key, SettingValue.agent agent) ∈ resumedSettings config) :
    config.agent = some agent := by
  simp only [resumedSettings, List.mem_filterMap, List.mem_cons, List.not_mem_nil, or_false] at h
  obtain ⟨⟨k, v⟩, hmem, hv⟩ := h
  obtain ⟨w, hw, heq⟩ := Option.map_eq_some_iff.mp hv
  obtain ⟨-, rfl⟩ := Prod.mk.inj heq
  have hvalue : v = some (.agent agent) := hw
  simp only [Prod.mk.injEq, hvalue] at hmem
  -- the seven other fields hold numbers and strings
  rcases hmem with h | h | h | h | h | h | h | h <;>
    (obtain ⟨-, h⟩ := h; obtain ⟨x, hx, hxe⟩ := Option.map_eq_some_iff.mp h.symm; cases hxe)
  exact hx

/-- A config with an `agent` block saves it under the key `agent`. -/
theorem lookup_agent {config : RolloutDatasetConfig Agent} {agent : Agent}
    (h : config.agent = some agent) :
    (resumedSettings config).lookup "agent" = some (.agent agent) := by
  have hnone : ∀ entries : List (String × Option (SettingValue Agent)),
      "agent" ∉ entries.map Prod.fst →
        (entries.filterMap fun entry => entry.2.map (entry.1, ·)).lookup "agent" = none := by
    intro entries hkey
    rw [List.lookup_eq_none_iff]
    intro p hp
    obtain ⟨⟨k, v⟩, hmem, hv⟩ := List.mem_filterMap.mp hp
    obtain ⟨w, hw, rfl⟩ := Option.map_eq_some_iff.mp hv
    have hne : "agent" ≠ k := fun he => hkey (List.mem_map.mpr ⟨(k, v), hmem, he.symm⟩)
    simpa using hne
  -- the `agent` entry is the last of eight
  show (List.filterMap _ ([_, _, _, _, _, _, _] ++
    [("agent", config.agent.map SettingValue.agent)])).lookup
    "agent" = _
  rw [List.filterMap_append, List.lookup_append, hnone _ (by simp), Option.none_or, h]
  rfl

/-! ## A mix -/

section Mixed

variable [BEq Agent]

/-- The mixes that resume exactly: dataset names are distinct, and every `agent` block equals
    itself. -/
def MixedArgs.Resumable (args : MixedArgs Agent) : Prop :=
  (args.datasetConfigs.map (·.name)).Nodup ∧
    ∀ config ∈ args.datasetConfigs, ∀ agent, config.agent = some agent → (agent == agent) = true

/-- A saved setting equals itself, except for an `agent` block that does not. -/
theorem beq_settingValue {value : SettingValue Agent}
    (h : ∀ agent, value = .agent agent → (agent == agent) = true) : (value == value) = true := by
  cases value with
  | int v => exact beq_self_eq_true v
  | str v => exact beq_self_eq_true v
  | agent a => exact h a rfl

/-- Settings compared with themselves differ exactly where the `agent` block does. -/
theorem changedKeys_self {config : RolloutDatasetConfig Agent} :
    changedKeys (resumedSettings config) (resumedSettings config) = [] ↔
      ∀ agent, config.agent = some agent → (agent == agent) = true := by
  have hempty : ∀ keys : List String, keys.mergeSort = [] ↔ keys = [] := by
    intro keys
    rw [← List.length_eq_zero_iff, List.length_mergeSort, List.length_eq_zero_iff]
  rw [changedKeys, hempty, List.filter_eq_nil_iff]
  constructor
  · intro h agent hagent
    have hlookup := lookup_agent hagent
    have hmem : "agent" ∈ ((resumedSettings config).map Prod.fst ++
        (resumedSettings config).map Prod.fst).dedup := by
      rw [List.mem_dedup, List.mem_append]
      left
      have hsome := List.lookup_eq_some_iff.mp hlookup
      obtain ⟨l₁, l₂, heq, -⟩ := hsome
      rw [heq]
      simp
    have heq := h "agent" hmem
    rw [hlookup] at heq
    have hself : ¬ (!(agent == agent)) = true := heq
    simpa using hself
  · intro h key _
    cases hlookup : (resumedSettings config).lookup key with
    | none => exact Bool.false_ne_true
    | some value =>
      have hmem : (key, value) ∈ resumedSettings config := by
        obtain ⟨l₁, l₂, heq, -⟩ := List.lookup_eq_some_iff.mp hlookup
        rw [heq]
        simp
      have hself : (value == value) = true := by
        apply beq_settingValue
        rintro agent rfl
        exact h agent (agent_of_mem_resumedSettings hmem)
      show ¬ (!(value == value)) = true
      simp [hself]

/-! ### The invariant of a run -/

namespace MixedRolloutDataSource

variable {files : DataFiles Row} {args : MixedArgs Agent}

omit [BEq Agent]

/-- Every dataset of `fresh` has its position in `sources`, moved on within the dataset. -/
def SourcesContinue (rng : Shuffler) (args : MixedArgs Agent)
    (fresh sources : PyDict String (DatasetPosition Row)) : Prop :=
  sources.keys = fresh.keys ∧
    ∀ name p₀, fresh.get? name = some p₀ → ∃ p, sources.get? name = some p ∧
      DatasetPosition.Continues rng args.rolloutShuffle p₀ p

/-- What the requests of a run keep, relative to the constructed source. -/
structure Resumes (rng : Shuffler) (args : MixedArgs Agent)
    (fresh s : MixedRolloutDataSource Row) : Prop where
  datasetSha256 : s.datasetSha256 = fresh.datasetSha256
  sources : SourcesContinue rng args fresh.sources s.sources
  length_credits : s.credits.length = args.datasetConfigs.length

/-- What construction gives: an ordered dataset for each name, at its first position. -/
structure Constructed (rng : Shuffler) (args : MixedArgs Agent)
    (fresh : MixedRolloutDataSource Row) : Prop where
  length_credits : fresh.credits.length = args.datasetConfigs.length
  ordered : ∀ name p₀, fresh.sources.get? name = some p₀ → p₀.dataset.Ordered rng
  continues : ∀ name p₀, fresh.sources.get? name = some p₀ →
    DatasetPosition.Continues rng args.rolloutShuffle p₀ p₀
  /-- the datasets are keyed by the names of the configs -/
  keyed : ∃ datasets : List (String × DatasetPosition Row),
    datasets.map Prod.fst = args.datasetConfigs.map (·.name) ∧
    fresh.sources.keys = (PyDict.ofList datasets).keys

/-- A loaded dataset keeps the config's name, in file order at the start. -/
theorem loadDataset_eq_ok (rng : Shuffler) {config : RolloutDatasetConfig Agent}
    {entry : String × DatasetPosition Row} (h : loadDataset files args config = .ok entry) :
    entry.1 = config.name ∧ entry.2.dataset.Ordered rng ∧ entry.2.offset = 0 := by
  unfold loadDataset at h
  simp only at h
  split at h
  · cases h
  · split at h
    · cases h
    · cases h
      exact ⟨rfl, Dataset.ordered_new .., rfl⟩

/-- The datasets of a mix are loaded one by one, in the order of the configs. -/
theorem mapM_loadDataset (rng : Shuffler) {configs : List (RolloutDatasetConfig Agent)}
    {datasets : List (String × DatasetPosition Row)}
    (h : configs.mapM (loadDataset files args) = .ok datasets) :
    datasets.map Prod.fst = configs.map (·.name) ∧
      ∀ entry ∈ datasets, entry.2.dataset.Ordered rng ∧ entry.2.offset = 0 := by
  induction configs generalizing datasets with
  | nil =>
    cases h
    exact ⟨rfl, by simp⟩
  | cons config configs ih =>
    rw [List.mapM_cons] at h
    obtain ⟨entry, hentry, h⟩ := Except.bind_eq_ok.mp h
    obtain ⟨entries, hentries, h⟩ := Except.bind_eq_ok.mp h
    cases h
    obtain ⟨hname, hordered⟩ := loadDataset_eq_ok rng hentry
    obtain ⟨hnames, hall⟩ := ih hentries
    refine ⟨by rw [List.map_cons, hname, hnames, List.map_cons], ?_⟩
    intro e he
    rcases List.mem_cons.mp he with rfl | he
    · exact hordered
    · exact hall e he

/-- A constructed mix has the datasets of its configs, each at its start. -/
theorem constructed_new {fresh : MixedRolloutDataSource Row} (h : new rng files args = .ok fresh) :
    Constructed rng args fresh := by
  unfold new at h
  obtain ⟨digests, -, h⟩ := Except.bind_eq_ok.mp h
  obtain ⟨datasets, hdatasets, h⟩ := Except.bind_eq_ok.mp h
  cases h
  obtain ⟨hnames, hordered⟩ := mapM_loadDataset rng hdatasets
  have hfresh : ∀ name p₀,
      ((PyDict.ofList datasets).mapValues fun _ p => p.reshuffle rng args.rolloutShuffle).get? name =
        some p₀ → ∃ p : DatasetPosition Row, p.dataset.Ordered rng ∧ p.offset = 0 ∧
          p.reshuffle rng args.rolloutShuffle = p₀ := by
    intro name p₀ hget
    rw [PyDict.get?_mapValues] at hget
    obtain ⟨p, hp, rfl⟩ := Option.map_eq_some_iff.mp hget
    obtain ⟨hord, hoffset⟩ := hordered (name, p) (PyDict.mem_of_get?_ofList hp)
    exact ⟨p, hord, hoffset, rfl⟩
  refine ⟨List.length_replicate .., ?_, ?_, datasets, hnames, PyDict.keys_mapValues ..⟩
  · intro name p₀ hget
    obtain ⟨p, hord, -, rfl⟩ := hfresh name p₀ hget
    exact ordered_shuffleIf hord ..
  · intro name p₀ hget
    obtain ⟨p, hord, hoffset, rfl⟩ := hfresh name p₀ hget
    exact DatasetPosition.continues_reshuffle hord (by omega)

/-- A freshly constructed mix is where a run starts. -/
theorem Constructed.resumes {fresh : MixedRolloutDataSource Row}
    (h : Constructed rng args fresh) : Resumes rng args fresh fresh where
  datasetSha256 := rfl
  sources := ⟨rfl, fun name p₀ hget => ⟨p₀, hget, h.continues name p₀ hget⟩⟩
  length_credits := h.length_credits

/-- Drawing from one dataset after another moves each of them on. -/
theorem sourcesContinue_takeAll {fresh : PyDict String (DatasetPosition Row)}
    (hordered : ∀ name p₀, fresh.get? name = some p₀ → p₀.dataset.Ordered rng)
    (counts : List (RolloutDatasetConfig Agent × Nat))
    {sources : PyDict String (DatasetPosition Row)} (h : SourcesContinue rng args fresh sources) :
    SourcesContinue rng args fresh (takeAll rng args sources counts).2 := by
  induction counts generalizing sources with
  | nil => exact h
  | cons entry counts ih =>
    obtain ⟨config, count⟩ := entry
    unfold takeAll
    split
    · exact ih h
    · rename_i p hp
      apply ih
      have hmem : config.name ∈ sources.keys := PyDict.mem_keys_iff.mpr ⟨p, hp⟩
      refine ⟨(PyDict.keys_set_of_mem _ hmem).trans h.1, ?_⟩
      intro name p₀ hget
      obtain ⟨q, hq, hcontinues⟩ := h.2 name p₀ hget
      rw [PyDict.get?_set]
      split
      · rename_i heq
        subst heq
        rw [hp] at hq
        cases hq
        exact ⟨_, rfl, hcontinues.take (hordered _ p₀ hget) count⟩
      · exact ⟨q, hq, hcontinues⟩

/-- A split gives one credit a dataset, as many as there were. -/
theorem length_splitStep (weights : List Int) {state : List Nat × List Int}
    (h : state.2.length = weights.length) :
    (splitStep weights state).2.length = weights.length := by
  simp [splitStep, h]

theorem length_splitByWeight {numSamples : Nat} {weights credits credits' : List Int}
    {counts : List Nat} (hlen : credits.length = weights.length)
    (h : splitByWeight numSamples weights credits = .ok (counts, credits')) :
    credits'.length = weights.length := by
  unfold splitByWeight at h
  split at h
  · cases h
  · have hiterate : ∀ n, (((splitStep weights)^[n]
        (List.replicate weights.length 0, credits)).2).length = weights.length := by
      intro n
      induction n with
      | zero => exact hlen
      | succ n ih =>
        rw [Function.iterate_succ_apply']
        exact length_splitStep weights ih
    have hcredits := hiterate numSamples
    rw [Except.ok.inj h] at hcredits
    exact hcredits

variable {fresh s : MixedRolloutDataSource Row}

/-- A request keeps what a checkpoint relies on. -/
theorem Resumes.getSamples
    (hfresh : Constructed rng args fresh) (h : Resumes rng args fresh s) (numSamples : Nat) :
    Resumes rng args fresh (getSamples rng args s numSamples).2 := by
  unfold MixedRolloutDataSource.getSamples
  simp only
  split
  · exact h
  · rename_i counts credits hsplit
    have hlen : s.credits.length =
        (args.datasetConfigs.map fun config => (config.samplesPerStep : Int)).length := by
      rw [h.length_credits, List.length_map]
    exact ⟨h.datasetSha256, sourcesContinue_takeAll hfresh.ordered _ h.sources,
      (length_splitByWeight hlen hsplit).trans (List.length_map ..)⟩

/-! ### Saving -/

theorem Constructed.size_keys {fresh : MixedRolloutDataSource Row}
    (h : Constructed rng args fresh) :
    fresh.sources.keys.length = args.datasetConfigs.length ↔
      (args.datasetConfigs.map (·.name)).Nodup := by
  obtain ⟨datasets, hnames, hkeys⟩ := h.keyed
  have hlen : datasets.length = args.datasetConfigs.length := by
    have := congrArg List.length hnames
    simpa using this
  rw [hkeys, ← hnames, ← hlen]
  constructor
  · intro heq
    by_contra hdup
    have hlt := PyDict.length_keys_ofList_lt hdup
    omega
  · intro hnodup
    rw [PyDict.length_keys, PyDict.size, PyDict.items_ofList hnodup]

/-- Saving succeeds exactly when the dataset names are distinct. -/
theorem Resumes.save_isOk
    (hfresh : Constructed rng args fresh) (h : Resumes rng args fresh s) :
    (∃ credits, s.sources.zipStrict s.credits = some credits) ↔
      (args.datasetConfigs.map (·.name)).Nodup := by
  rw [← hfresh.size_keys, ← Option.isSome_iff_exists, ← Option.ne_none_iff_isSome, Ne,
    PyDict.zipStrict_eq_none, h.sources.1, h.length_credits, not_not]

/-! ### Loading -/

theorem checkNames_ok {s : MixedRolloutDataSource Row} {mix : MixState Agent}
    (h : mix.offsets.keys = s.sources.keys) : checkNames s mix = .ok () := by
  unfold checkNames
  rw [if_pos]
  rw [h]
  exact ⟨fun _ hname => hname, fun _ hname => hname⟩

theorem checkDigest_ok {s : MixedRolloutDataSource Row} :
    s.datasetSha256.items.forM (checkDigest s) = .ok () := by
  rw [Except.forM_eq_ok]
  rintro ⟨name, digest⟩ hmem
  have hget : s.datasetSha256.get? name = some digest := PyDict.get?_eq_some.mpr hmem
  simp [checkDigest, hget]

/-- A key per value reads the values back. -/
theorem mapM_requireKey {credits : PyDict String Int} :
    (credits.keys.mapM fun name => requireKey name (credits.get? name)) =
      .ok (credits.items.map Prod.snd) := by
  have hall : ∀ items : List (String × Int), (∀ p ∈ items, credits.get? p.1 = some p.2) →
      ((items.map Prod.fst).mapM fun name => requireKey name (credits.get? name)) =
        .ok (items.map Prod.snd) := by
    intro items
    induction items with
    | nil => exact fun _ => rfl
    | cons p items ih =>
      intro hget
      rw [List.map_cons, List.mapM_cons, hget p (by simp),
        ih fun q hq => hget q (by simp [hq])]
      rfl
  exact hall credits.items fun p hp => PyDict.get?_eq_some.mpr hp

/-- No saved position is past the end of its dataset. -/
theorem checkPositions_ok {mix : MixState Agent}
    (h : SourcesContinue rng args fresh.sources s.sources)
    (hoffsets : mix.offsets = s.sources.mapValues fun _ p => p.offset) :
    checkPositions fresh mix = .ok () := by
  have hnone : (mix.offsets.items.filter fun entry =>
      (fresh.sources.get? entry.1).any fun p => p.dataset.samples.length < entry.2) = [] := by
    rw [List.filter_eq_nil_iff]
    rintro ⟨name, offset⟩ hmem
    have hget := PyDict.get?_eq_some.mpr hmem
    rw [hoffsets, PyDict.get?_mapValues] at hget
    obtain ⟨p, hp, rfl⟩ := Option.map_eq_some_iff.mp hget
    cases hfresh : fresh.sources.get? name with
    | none => simp
    | some p₀ =>
      obtain ⟨q, hq, hcontinues⟩ := h.2 name p₀ hfresh
      rw [hp] at hq
      cases hq
      have hle := hcontinues.2
      simpa using hle
  simp [checkPositions, hnone]

/-- The settings of every config are the saved ones, when names are distinct and `agent`
    blocks equal themselves. -/
theorem checkSettings_ok [BEq Agent] (h : args.Resumable) :
    args.datasetConfigs.forM (checkSettings (PyDict.ofList
      (args.datasetConfigs.map fun config => (config.name, resumedSettings config)))) =
        .ok () := by
  rw [Except.forM_eq_ok]
  intro config hconfig
  have hget : (PyDict.ofList (args.datasetConfigs.map fun config =>
      (config.name, resumedSettings config))).get? config.name = some (resumedSettings config) := by
    rw [PyDict.get?_eq_some, PyDict.items_ofList (by simpa [Function.comp_def] using h.1)]
    exact List.mem_map.mpr ⟨config, hconfig, rfl⟩
  have hsame := changedKeys_self.mpr (h.2 config hconfig)
  simp [checkSettings, hget, hsame]

/-- Settings that pass the check hold no `agent` block that differs from itself. -/
theorem agent_of_checkSettings [BEq Agent]
    (hnodup : (args.datasetConfigs.map (·.name)).Nodup)
    (h : args.datasetConfigs.forM (checkSettings (PyDict.ofList
      (args.datasetConfigs.map fun config => (config.name, resumedSettings config)))) = .ok ()) :
    args.Resumable := by
  refine ⟨hnodup, fun config hconfig => ?_⟩
  have hcheck := Except.forM_eq_ok.mp h config hconfig
  have hget : (PyDict.ofList (args.datasetConfigs.map fun config =>
      (config.name, resumedSettings config))).get? config.name = some (resumedSettings config) := by
    rw [PyDict.get?_eq_some, PyDict.items_ofList (by simpa [Function.comp_def] using hnodup)]
    exact List.mem_map.mpr ⟨config, hconfig, rfl⟩
  simp only [checkSettings, hget] at hcheck
  split at hcheck
  · cases hcheck
  · rename_i hsame
    exact changedKeys_self.mp (not_not.mp hsame)

/-- Restoring the saved position of every dataset gives the saved datasets. -/
theorem mapValues_restorePosition {mix : MixState Agent}
    (h : SourcesContinue rng args fresh.sources s.sources)
    (hoffsets : mix.offsets = s.sources.mapValues fun _ p => p.offset)
    (hepochs : mix.epochIds = s.sources.mapValues fun _ p => p.epochId) :
    fresh.sources.mapValues (restorePosition rng args mix) = s.sources := by
  apply PyDict.ext_get?
  · rw [PyDict.keys_mapValues, h.1]
  · intro name hname
    rw [PyDict.keys_mapValues] at hname
    obtain ⟨p₀, hp₀⟩ := PyDict.mem_keys_iff.mp hname
    obtain ⟨p, hp, hcontinues⟩ := h.2 name p₀ hp₀
    have hoffset : mix.offsets.getD name 0 = p.offset := by
      simp [PyDict.getD, hoffsets, hp]
    have hepoch : mix.epochIds.getD name 0 = p.epochId := by
      simp [PyDict.getD, hepochs, hp]
    rw [PyDict.get?_mapValues, hp₀, hp, Option.map_some, restorePosition, hoffset, hepoch]
    exact congrArg some hcontinues.1.symm

/-- Loading restores what was saved. -/
theorem load_save [BEq Agent]
    (hfresh : Constructed rng args fresh) (h : Resumes rng args fresh s) (hargs : args.Resumable) :
    ∃ checkpoint, save args s = .ok checkpoint ∧ load rng args fresh checkpoint = .ok s := by
  obtain ⟨credits, hcredits⟩ := (h.save_isOk hfresh).mpr hargs.1
  obtain ⟨hkeys, hvalues⟩ := PyDict.zipStrict_eq_some hcredits
  refine ⟨_, by rw [save, hcredits], ?_⟩
  have hnames : (s.sources.mapValues fun _ p => p.offset).keys = fresh.sources.keys := by
    rw [PyDict.keys_mapValues, h.sources.1]
  have hread : (credits.keys.mapM fun name => requireKey name (credits.get? name)) =
      .ok (credits.items.map Prod.snd) := mapM_requireKey
  rw [hkeys, h.sources.1, hvalues] at hread
  have hrestore : fresh.sources.mapValues (restorePosition rng args (mixState args s credits)) =
      s.sources := mapValues_restorePosition h.sources rfl rfl
  unfold load
  rw [requireMix, Except.ok_bind]
  simp only [mixState]
  rw [checkNames_ok hnames, Except.ok_bind, checkSettings_ok hargs, Except.ok_bind,
    h.datasetSha256, checkDigest_ok, Except.ok_bind, checkPositions_ok h.sources rfl,
    Except.ok_bind, hread, Except.ok_bind, requireKey, Except.ok_bind, requireKey, Except.ok_bind]
  have hsame : (⟨fresh.datasetSha256, s.sources, s.credits, s.numRequests, s.ids⟩ :
      MixedRolloutDataSource Row) = s := by
    rw [← h.datasetSha256]
  show Except.ok (MixedRolloutDataSource.mk fresh.datasetSha256
    (fresh.sources.mapValues (restorePosition rng args (mixState args s credits))) s.credits
    s.numRequests s.ids) = Except.ok s
  rw [hrestore, hsame]

/-- A mix whose saved state loads has settings that compare equal to themselves. -/
theorem resumable_of_load [BEq Agent] {fresh s resumed : MixedRolloutDataSource Row}
    {checkpoint : Directory Agent} (hnodup : (args.datasetConfigs.map (·.name)).Nodup)
    (hsave : save args s = .ok checkpoint) (hload : load rng args fresh checkpoint = .ok resumed) :
    args.Resumable := by
  unfold save at hsave
  split at hsave
  · cases hsave
  · cases hsave
    unfold load at hload
    rw [requireMix, Except.ok_bind] at hload
    simp only [mixState] at hload
    obtain ⟨⟨⟩, -, hload⟩ := Except.bind_eq_ok.mp hload
    obtain ⟨⟨⟩, hsettings, -⟩ := Except.bind_eq_ok.mp hload
    exact agent_of_checkSettings hnodup hsettings

end MixedRolloutDataSource

/-! ## Resuming exactly -/

/-- A data source over one global dataset always resumes exactly.  A mix resumes exactly if
    and only if its dataset names are distinct and its `agent` blocks equal themselves. -/
theorem resumesExactly_sources (rng : Shuffler) (files : DataFiles Row) :
    (∀ (args : SingleArgs) (directory : Directory Agent), args.rolloutGlobalDataset = true →
      ResumesExactly (@RolloutDataSource.getSamples Row Agent rng args)
        (RolloutDataSource.save args · directory) (RolloutDataSource.load rng args)
        (RolloutDataSource.new rng args files)) ∧
    (∀ (args : MixedArgs Agent) (fresh : MixedRolloutDataSource Row),
      MixedRolloutDataSource.new rng files args = .ok fresh →
      (ResumesExactly (MixedRolloutDataSource.getSamples rng args)
        (MixedRolloutDataSource.save args) (MixedRolloutDataSource.load rng args) fresh ↔
          args.Resumable)) := by
  constructor
  · intro args directory hglobal
    apply resumesExactly_of_restores (I := InEpoch rng args (RolloutDataSource.new rng args files))
    · exact inEpoch_new
    · exact fun s numSamples hs => inEpoch_getSamples numSamples hs
    · exact fun s hs => RolloutDataSource.load_save hglobal hs directory
  · intro args fresh hnew
    have hfresh := MixedRolloutDataSource.constructed_new hnew
    constructor
    · intro hresumes
      obtain ⟨checkpoint, resumed, hsave, hload, -⟩ := hresumes [] []
      have hcredits : ∃ credits, fresh.sources.zipStrict fresh.credits = some credits := by
        cases hzip : fresh.sources.zipStrict fresh.credits with
        | none =>
          have herror : MixedRolloutDataSource.save args fresh = .error .zipLengths := by
            rw [MixedRolloutDataSource.save, hzip]
          rw [show runState _ fresh [] = fresh from rfl, herror] at hsave
          cases hsave
        | some credits => exact ⟨credits, rfl⟩
      have hnodup := (hfresh.resumes.save_isOk hfresh).mp hcredits
      exact MixedRolloutDataSource.resumable_of_load hnodup hsave hload
    · intro hargs
      apply resumesExactly_of_restores (I := MixedRolloutDataSource.Resumes rng args fresh)
      · exact hfresh.resumes
      · exact fun s numSamples hs => hs.getSamples hfresh numSamples
      · exact fun s hs => MixedRolloutDataSource.load_save hfresh hs hargs

end Mixed

/-! ### Two mixes -/

/-- A generator that reverses every list. -/
def reverseShuffler : Shuffler where
  permutation _ n := (List.range n).reverse
  perm_range _ _ := List.reverse_perm _

/-- Two files of five and three rows. -/
def twoFiles : DataFiles Nat where
  loadPrompts path _ := if path = "math.jsonl" then [10, 11, 12, 13, 14] else [20, 21, 22]
  hashFile _ := some "51b70c3d00"
  metadataIsMapping _ := true

/-- `math: {…}, code: {…}` -/
def mathAndCode : MixedArgs String where
  datasets :=
    { entries :=
        [(.str "math", { path := "math.jsonl", samplesPerStep := 3, sha256 := some "51b70c3d" }),
          (.str "code", { path := "code.jsonl", samplesPerStep := 5, agent := some "swe" })]
      nodup_keys := by decide
      nonempty := by decide }
  rolloutMaxPromptLen := none
  rolloutSeed := 42
  rolloutShuffle := true
  nSamplesPerPrompt := 2

/-- `1.5: {…}, "1.5": {…}` -/
def sameNames : MixedArgs String where
  datasets :=
    { entries :=
        [(.scalar "float" "1.5", { path := "math.jsonl", samplesPerStep := 3 }),
          (.str "1.5", { path := "code.jsonl", samplesPerStep := 5 })]
      nodup_keys := by decide
      nonempty := by decide }
  rolloutMaxPromptLen := none
  rolloutSeed := 42
  rolloutShuffle := true
  nSamplesPerPrompt := 2

/-- `--prompt-data math.jsonl` -/
def mathOnly : SingleArgs where
  rolloutGlobalDataset := true
  promptData := "math.jsonl"
  rolloutMaxPromptLen := none
  rolloutSeed := 42
  rolloutShuffle := true
  nSamplesPerPrompt := 2

/-- A shuffled dataset and a mix of two named datasets. -/
theorem resumesExactly_sources_mathAndCode :
    ResumesExactly (@RolloutDataSource.getSamples Nat String reverseShuffler mathOnly)
      (RolloutDataSource.save mathOnly · (none : Directory String))
      (RolloutDataSource.load reverseShuffler mathOnly)
      (RolloutDataSource.new reverseShuffler mathOnly twoFiles) ∧
    ∃ fresh, MixedRolloutDataSource.new reverseShuffler twoFiles mathAndCode = .ok fresh ∧
      ResumesExactly (MixedRolloutDataSource.getSamples reverseShuffler mathAndCode)
        (MixedRolloutDataSource.save mathAndCode)
        (MixedRolloutDataSource.load reverseShuffler mathAndCode) fresh := by
  refine ⟨(resumesExactly_sources reverseShuffler twoFiles).1 mathOnly none rfl, _, rfl, ?_⟩
  apply ((resumesExactly_sources reverseShuffler twoFiles).2 mathAndCode _ rfl).mpr
  exact ⟨by decide, fun _ _ agent _ => beq_self_eq_true agent⟩

/-- A mix whose two keys have the text `1.5` is constructed, but its state cannot be saved. -/
theorem sameNames_not_resumed :
    ∃ fresh, MixedRolloutDataSource.new reverseShuffler twoFiles sameNames = .ok fresh ∧
      ¬ ResumesExactly (MixedRolloutDataSource.getSamples reverseShuffler sameNames)
        (MixedRolloutDataSource.save sameNames)
        (MixedRolloutDataSource.load reverseShuffler sameNames) fresh := by
  refine ⟨_, rfl, fun h => ?_⟩
  obtain ⟨checkpoint, -, hsave, -⟩ := h [] []
  cases hsave

end Miles.Rollout.DataSource
