import Miles.Spec.Rollout.DataSourceResume

/-!
# The prompts of a single data source

`RolloutDataSource.get_samples` reads its dataset epoch after epoch, every epoch in the order
of its own shuffle.  A request that does not fit in the rest of the epoch reads on in the next
one, once: what it lacks after that epoch is not drawn, and the offset it leaves lies past the
end.  So the prompts are the concatenation of the epochs as long as every request ends within
the epoch after the one it starts in.
-/

namespace Miles.Rollout.DataSource.RolloutDataSource

open Resume

/-! ## Epochs -/

section Epochs

variable {Row : Type} (rng : Shuffler) (args : SingleArgs) (rows : List Row)

/-- The prompts of an epoch in the order it reads them. -/
def epochPrompts (epochId : Nat) : List Row :=
  if args.rolloutShuffle then
    reorder (rng.permutation (args.rolloutSeed + epochId) rows.length) rows
  else rows

/-- The prompts of `count` epochs from the given one on. -/
def epochsFrom (epochId count : Nat) : List Row :=
  (List.range' epochId count).flatMap (epochPrompts rng args rows)

theorem filterMap_getElem?_range (xs : List Row) (n : Nat) :
    (List.range n).filterMap (fun i => xs[i]?) = xs.take n := by
  induction n with
  | zero => rfl
  | succ n ih =>
    rw [List.range_succ, List.filterMap_append, ih, List.take_add_one]
    cases h : xs[n]? <;> simp [h]

/-- A shuffled list has the same elements. -/
theorem perm_reorder {order : List Nat} {xs : List Row}
    (h : order.Perm (List.range xs.length)) : (reorder order xs).Perm xs := by
  have hfilter := h.filterMap fun i => xs[i]?
  rw [filterMap_getElem?_range, List.take_length] at hfilter
  exact hfilter

/-- Every epoch has every prompt once. -/
theorem perm_epochPrompts (epochId : Nat) : (epochPrompts rng args rows epochId).Perm rows := by
  unfold epochPrompts
  split
  · exact perm_reorder (rng.perm_range _ _)
  · exact .refl _

@[simp] theorem length_epochPrompts (epochId : Nat) :
    (epochPrompts rng args rows epochId).length = rows.length :=
  (perm_epochPrompts rng args rows epochId).length_eq

theorem epochsFrom_succ (epochId count : Nat) :
    epochsFrom rng args rows epochId (count + 1) =
      epochPrompts rng args rows epochId ++ epochsFrom rng args rows (epochId + 1) count := by
  simp [epochsFrom, List.range'_succ]

/-- Past the whole epochs of a stream its later epochs follow. -/
theorem drop_epochsFrom (epochId passed offset count : Nat) (h : passed ≤ count) :
    (epochsFrom rng args rows epochId count).drop (passed * rows.length + offset) =
      (epochsFrom rng args rows (epochId + passed) (count - passed)).drop offset := by
  induction passed generalizing epochId count with
  | zero => simp
  | succ passed ih =>
    obtain ⟨count, rfl⟩ : ∃ c, count = c + 1 := ⟨count - 1, by omega⟩
    have hskip : (epochPrompts rng args rows epochId).drop ((passed + 1) * rows.length + offset) =
        [] := by
      apply List.drop_eq_nil_of_le
      rw [length_epochPrompts, Nat.succ_mul]
      omega
    have hrest : (passed + 1) * rows.length + offset - rows.length =
        passed * rows.length + offset := by
      rw [Nat.succ_mul]
      omega
    rw [epochsFrom_succ, List.drop_append, hskip, List.nil_append, length_epochPrompts, hrest,
      ih _ _ (by omega)]
    congr 2 <;> omega

end Epochs

/-! ## One request -/

section Request

variable {Row Agent : Type} {rng : Shuffler} {args : SingleArgs} {rows : List Row}

/-- The source stands within an epoch or at its end, and its dataset is in the epoch's order. -/
structure Standing (rng : Shuffler) (args : SingleArgs) (rows : List Row)
    (s : RolloutDataSource Row) : Prop where
  dataset : ∃ d, s.dataset = some d ∧ d.Ordered rng ∧ d.originSamples = rows ∧
    d.seed = args.rolloutSeed ∧ d.samples = epochPrompts rng args rows s.epochId
  offset_le : s.sampleOffset ≤ rows.length

theorem samples_shuffleIf {d : Dataset Row} (hordered : d.Ordered rng)
    (horigin : d.originSamples = rows) (hseed : d.seed = args.rolloutSeed)
    (hplain : args.rolloutShuffle = false → d.samples = rows) (epochId : Nat) :
    let d' := shuffleIf rng args.rolloutShuffle d epochId
    d'.Ordered rng ∧ d'.originSamples = rows ∧ d'.seed = args.rolloutSeed ∧
      d'.samples = epochPrompts rng args rows epochId := by
  intro d'
  have hordered' : d'.Ordered rng := ordered_shuffleIf hordered _ _
  unfold d' shuffleIf epochPrompts at *
  split
  · obtain ⟨horigin', hseed', -, hsamples⟩ :=
      Dataset.shuffle_fields d (natCast_ne_neg_one epochId) hordered
    rename_i hshuffle
    rw [if_pos hshuffle] at hordered'
    refine ⟨hordered', horigin'.trans horigin, hseed'.trans hseed, ?_⟩
    rw [hsamples, hseed, d.length_samples, horigin]
  · rename_i hplain'
    rw [if_neg hplain'] at hordered'
    exact ⟨hordered', horigin, hseed, hplain (by simpa using hplain')⟩

theorem standing_new {files : DataFiles Row} (hglobal : args.rolloutGlobalDataset = true)
    (hrows : files.loadPrompts args.promptData args.rolloutMaxPromptLen = rows) :
    Standing rng args rows (new rng args files) := by
  have hdataset := @samples_shuffleIf Row rng args rows (Dataset.new rows args.rolloutSeed)
    (Dataset.ordered_new ..) rfl rfl (fun _ => rfl) 0
  refine ⟨⟨shuffleIf rng args.rolloutShuffle (Dataset.new rows args.rolloutSeed) 0, ?_,
    hdataset⟩, Nat.zero_le _⟩
  rw [new, if_pos hglobal, hrows]

/-- What a request draws, and where the source stands after it. -/
theorem drawPrompts_spec {s : RolloutDataSource Row} (h : Standing rng args rows s)
    (numSamples : Nat) :
    ((drawPrompts rng args s numSamples).1.length = numSamples ↔
      s.sampleOffset + numSamples ≤ 2 * rows.length) ∧
    (s.sampleOffset + numSamples ≤ 2 * rows.length →
      Standing rng args rows (drawPrompts rng args s numSamples).2 ∧
      ∃ passed, (drawPrompts rng args s numSamples).2.epochId = s.epochId + passed ∧
        passed * rows.length + (drawPrompts rng args s numSamples).2.sampleOffset =
          s.sampleOffset + numSamples ∧
        ∀ count, s.sampleOffset + numSamples ≤ count * rows.length →
          (drawPrompts rng args s numSamples).1 =
            (((epochsFrom rng args rows s.epochId count).drop s.sampleOffset).take
              numSamples).map some) := by
  obtain ⟨⟨d, hd, hordered, horigin, hseed, hsamples⟩, hle⟩ := h
  have hlen : d.samples.length = rows.length := by rw [hsamples, length_epochPrompts]
  unfold drawPrompts
  simp only [hd]
  -- a request crosses at most one epoch boundary
  by_cases hwithin : s.sampleOffset + numSamples ≤ d.samples.length
  · rw [if_pos hwithin]
    refine ⟨?_, fun _ => ⟨⟨⟨d, rfl, hordered, horigin, hseed, hsamples⟩, hlen ▸ hwithin⟩, 0, rfl,
      by simp, fun count hcount => ?_⟩⟩
    · simp only [List.length_map, List.length_drop, List.length_take]
      omega
    · cases count with
      | zero =>
        have hnone : s.sampleOffset + numSamples = 0 := by omega
        rw [hnone, List.take_zero, List.drop_nil, Nat.add_eq_zero_iff.mp hnone |>.2,
          List.take_zero]
      | succ count =>
        rw [epochsFrom_succ, ← hsamples, List.drop_append_of_le_length (by omega),
          List.take_append_of_le_length (by rw [List.length_drop]; omega), List.drop_take,
          Nat.add_sub_cancel_left]
  · rw [if_neg hwithin]
    obtain ⟨hordered', horigin', hseed', hsamples'⟩ :=
      samples_shuffleIf hordered horigin hseed
        (fun hplain => by rw [hsamples, epochPrompts, if_neg (by simp [hplain])]) (s.epochId + 1)
    have hrest : (d.samples.drop s.sampleOffset).length = rows.length - s.sampleOffset := by
      rw [List.length_drop, hlen]
    refine ⟨?_, fun hfits => ⟨⟨⟨_, rfl, hordered', horigin', hseed', hsamples'⟩, ?_⟩, 1, rfl, ?_,
      fun count hcount => ?_⟩⟩
    · rw [hsamples']
      simp only [List.length_map, List.length_append, hrest, List.length_take, length_epochPrompts]
      omega
    · show numSamples - (d.samples.drop s.sampleOffset).length ≤ rows.length
      omega
    · show 1 * rows.length + (numSamples - (d.samples.drop s.sampleOffset).length) = _
      omega
    · -- the request ends in the next epoch
      obtain ⟨count, rfl⟩ : ∃ c, count = c + 2 := by
        refine ⟨count - 2, ?_⟩
        have htwo : 2 ≤ count := by
          by_contra hlt
          have hmul : count * rows.length ≤ 1 * rows.length :=
            Nat.mul_le_mul_right _ (by omega)
          omega
        omega
      have hall : (d.samples.drop s.sampleOffset).take numSamples =
          d.samples.drop s.sampleOffset := List.take_of_length_le (by omega)
      have hnext : (epochPrompts rng args rows (s.epochId + 1) ++
            epochsFrom rng args rows (s.epochId + 1 + 1) count).take
              (numSamples - (rows.length - s.sampleOffset)) =
          (epochPrompts rng args rows (s.epochId + 1)).take
            (numSamples - (rows.length - s.sampleOffset)) :=
        List.take_append_of_le_length (by rw [length_epochPrompts]; omega)
      rw [epochsFrom_succ, epochsFrom_succ, ← hsamples,
        List.drop_append_of_le_length (by omega), List.take_append, hrest, hall, hnext, ← hsamples']

/-- The groups of some prompts: copies of the prompt in each, numbered in order. -/
theorem makeGroups_spec (n : Nat) (ids : SampleIds)
    (prompts : List (Option Row × Option (MixTags Agent))) :
    (makeGroups n ids prompts).1.length = prompts.length ∧
    (makeGroups n ids prompts).1.map (·.map (·.row)) =
      prompts.map (fun prompt => List.replicate n prompt.1) ∧
    (makeGroups n ids prompts).1.map (·.map (·.groupIndex)) =
      (List.range' ids.sampleGroupIndex prompts.length).map (List.replicate n) ∧
    (makeGroups n ids prompts).1.flatten.map (·.index) =
      List.range' ids.sampleIndex (prompts.length * n) ∧
    (makeGroups n ids prompts).2 =
      ⟨ids.sampleGroupIndex + prompts.length, ids.sampleIndex + prompts.length * n⟩ := by
  induction prompts generalizing ids with
  | nil => simp [makeGroups]
  | cons prompt prompts ih =>
    obtain ⟨row, tags⟩ := prompt
    obtain ⟨hlength, hrows, hgroups, hindices, hids⟩ := ih (makeGroup n ids row tags).2
    simp only [makeGroups, makeGroup] at hlength hrows hgroups hindices hids ⊢
    refine ⟨by simp [hlength], ?_, ?_, ?_, ?_⟩
    · rw [List.map_cons, List.map_cons, hrows, List.map_map]
      simp [Function.comp_def]
    · rw [List.map_cons, List.length_cons, List.range'_succ, List.map_cons, hgroups, List.map_map]
      simp [Function.comp_def]
    · rw [List.flatten_cons, List.map_append, hindices, List.length_cons, Nat.succ_mul,
        Nat.add_comm (prompts.length * n), ← List.range'_append_1, List.map_map]
      congr 1
      rw [List.range'_eq_map_range]
      rfl
    · rw [hids, List.length_cons, Nat.succ_mul]
      simp only [SampleIds.mk.injEq]
      constructor <;> omega

end Request

/-! ## Runs -/

section Runs

variable {Row Agent : Type} {rng : Shuffler} {args : SingleArgs} {rows : List Row}

/-- Every request of the run ends within the epoch after the one it starts in. -/
def RequestsFit (Agent : Type) (rng : Shuffler) (args : SingleArgs) (numPrompts : Nat) :
    RolloutDataSource Row → List Nat → Prop
  | _, [] => True
  | s, numSamples :: requests =>
    s.sampleOffset + numSamples ≤ 2 * numPrompts ∧
      RequestsFit Agent rng args numPrompts (@getSamples Row Agent rng args s numSamples).2 requests

/-- The calls return as many groups as they are asked for, their prompts are those of the
    epochs in order, and groups and samples are numbered in order. -/
structure StreamsEpochs (rng : Shuffler) (args : SingleArgs) (rows : List Row)
    (requests : List Nat) (calls : List (List (List (DrawnSample Row Agent)))) : Prop where
  lengths : calls.map List.length = requests
  prompts : ∀ count, requests.sum ≤ count * rows.length →
    calls.flatten.map (·.map (·.row)) =
      ((epochsFrom rng args rows 0 count).take requests.sum).map
        fun row => List.replicate args.nSamplesPerPrompt (some row)
  groupIndices : calls.flatten.map (·.map (·.groupIndex)) =
    (List.range calls.flatten.length).map (List.replicate args.nSamplesPerPrompt)
  indices : calls.flatten.flatten.map (·.index) =
    List.range (calls.flatten.length * args.nSamplesPerPrompt)

@[simp] theorem ids_drawPrompts (s : RolloutDataSource Row) (numSamples : Nat) :
    (drawPrompts rng args s numSamples).2.ids = s.ids := by
  unfold drawPrompts
  split
  · rfl
  · split <;> rfl

/-- Groups and samples are numbered in order, whatever the requests. -/
theorem numbered_requests (s : RolloutDataSource Row) (requests : List Nat) :
    let calls := runOutputs (@getSamples Row Agent rng args) s requests
    calls.flatten.map (·.map (·.groupIndex)) =
      (List.range' s.ids.sampleGroupIndex calls.flatten.length).map
        (List.replicate args.nSamplesPerPrompt) ∧
    calls.flatten.flatten.map (·.index) =
      List.range' s.ids.sampleIndex (calls.flatten.length * args.nSamplesPerPrompt) := by
  induction requests generalizing s with
  | nil => simp [runOutputs]
  | cons numSamples requests ih =>
    obtain ⟨hlength, -, hgroups, hindices, hids⟩ := makeGroups_spec args.nSamplesPerPrompt s.ids
      ((drawPrompts rng args s numSamples).1.map (·, (none : Option (MixTags Agent))))
    obtain ⟨hgroups', hindices'⟩ := ih (@getSamples Row Agent rng args s numSamples).2
    simp only [runOutputs, getSamples, ids_drawPrompts, hids] at hgroups' hindices' ⊢
    constructor
    · rw [List.flatten_cons, List.map_append, hgroups, hgroups', ← List.map_append,
        List.range'_append_1, List.length_append, hlength]
    · rw [List.flatten_cons, List.flatten_append, List.map_append, hindices, hindices',
        List.range'_append_1, List.length_append, hlength, Nat.add_mul]

/-- The prompts and the sizes of the answers, from where the source stands. -/
theorem prompts_requests (hpos : 0 < rows.length) {s : RolloutDataSource Row}
    (h : Standing rng args rows s) (requests : List Nat) :
    let calls := runOutputs (@getSamples Row Agent rng args) s requests
    (calls.map List.length = requests ↔ RequestsFit Agent rng args rows.length s requests) ∧
    (RequestsFit Agent rng args rows.length s requests →
      ∀ count, s.sampleOffset + requests.sum ≤ count * rows.length →
        calls.flatten.map (·.map (·.row)) =
          (((epochsFrom rng args rows s.epochId count).drop s.sampleOffset).take requests.sum).map
            fun row => List.replicate args.nSamplesPerPrompt (some row)) := by
  induction requests generalizing s with
  | nil => simp [runOutputs, RequestsFit]
  | cons numSamples requests ih =>
    obtain ⟨hlength, hrows, -⟩ := makeGroups_spec args.nSamplesPerPrompt
      (drawPrompts rng args s numSamples).2.ids
      ((drawPrompts rng args s numSamples).1.map (·, (none : Option (MixTags Agent))))
    obtain ⟨hfits, hdrawn⟩ := drawPrompts_spec h numSamples
    rw [List.length_map] at hlength
    simp only [runOutputs, RequestsFit, List.map_cons, List.cons.injEq]
    have hreturned : ((@getSamples Row Agent rng args s numSamples).1.length = numSamples) ↔
        s.sampleOffset + numSamples ≤ 2 * rows.length := by
      rw [← hfits, ← hlength]
      rfl
    by_cases hfit : s.sampleOffset + numSamples ≤ 2 * rows.length
    · obtain ⟨hstanding, passed, hepoch, hoffset, hprompts⟩ := hdrawn hfit
      -- the source stands where the drawing left it, with other counters
      have hstanding' : Standing rng args rows (@getSamples Row Agent rng args s numSamples).2 :=
        ⟨hstanding.dataset, hstanding.offset_le⟩
      obtain ⟨hlengths, hrest⟩ := ih hstanding'
      refine ⟨by rw [hreturned, hlengths], ?_⟩
      intro hfits count hcount
      have hfitRest := hfits.2
      rw [List.sum_cons] at hcount ⊢
      have hpassed : passed ≤ count := by
        have hmul : passed * rows.length ≤ count * rows.length := by omega
        exact Nat.le_of_mul_le_mul_right hmul hpos
      have hlater := hrest hfitRest (count - passed) (by
        show (drawPrompts rng args s numSamples).2.sampleOffset + requests.sum ≤ _
        rw [Nat.sub_mul]
        omega)
      rw [List.flatten_cons, List.map_append, hlater]
      have hnow : (@getSamples Row Agent rng args s numSamples).1.map (·.map (·.row)) =
          (((epochsFrom rng args rows s.epochId count).drop s.sampleOffset).take numSamples).map
            fun row => List.replicate args.nSamplesPerPrompt (some row) := by
        refine hrows.trans ?_
        rw [hprompts count (by omega), List.map_map, List.map_map]
        rfl
      rw [hnow, List.take_add, List.map_append, List.drop_drop]
      show _ ++ List.map _ (((epochsFrom rng args rows (drawPrompts rng args s numSamples).2.epochId
        (count - passed)).drop (drawPrompts rng args s numSamples).2.sampleOffset).take _) = _
      rw [hepoch, ← drop_epochsFrom _ _ _ _ _ _ _ hpassed, hoffset]
    · refine ⟨?_, fun hall => absurd hall.1 hfit⟩
      rw [hreturned]
      simp [hfit]

/-- A run from a new source with a nonempty dataset: groups and samples are always numbered in
    order, every epoch has every prompt once, and the calls return as many groups as they are
    asked for, with the prompts of the epochs in order, iff every request ends within the epoch
    after the one it starts in. -/
theorem get_samples_streams {files : DataFiles Row} (hglobal : args.rolloutGlobalDataset = true)
    (hrows : files.loadPrompts args.promptData args.rolloutMaxPromptLen = rows)
    (hne : rows ≠ []) (requests : List Nat) :
    let calls := runOutputs (@getSamples Row Agent rng args) (new rng args files) requests
    (calls.flatten.map (·.map (·.groupIndex)) =
        (List.range calls.flatten.length).map (List.replicate args.nSamplesPerPrompt) ∧
      calls.flatten.flatten.map (·.index) =
        List.range (calls.flatten.length * args.nSamplesPerPrompt)) ∧
    (∀ epochId, (epochPrompts rng args rows epochId).Perm rows) ∧
    (StreamsEpochs rng args rows requests calls ↔
      RequestsFit Agent rng args rows.length (new rng args files) requests) := by
  intro calls
  obtain ⟨hgroups, hindices⟩ := @numbered_requests Row Agent rng args (new rng args files) requests
  have hstanding : Standing rng args rows (new rng args files) := standing_new hglobal hrows
  obtain ⟨hlengths, hprompts⟩ :=
    @prompts_requests Row Agent rng args rows (List.length_pos_iff.mpr hne) _ hstanding requests
  rw [show (new rng args files).ids = {} from rfl, ← List.range_eq_range'] at hgroups hindices
  refine ⟨⟨hgroups, hindices⟩, perm_epochPrompts rng args rows,
    fun hstreams => hlengths.mp hstreams.lengths, fun hfit => ⟨hlengths.mpr hfit, ?_, hgroups,
      hindices⟩⟩
  intro count hcount
  have hstart : (new rng args files).sampleOffset = 0 := rfl
  have hfirst := hprompts hfit count (by rw [hstart, Nat.zero_add]; exact hcount)
  rw [hstart, List.drop_zero] at hfirst
  exact hfirst

/-- Three requests that cross the end of an epoch of five prompts. -/
theorem get_samples_streams_mathOnly :
    StreamsEpochs reverseShuffler mathOnly [10, 11, 12, 13, 14] [3, 4, 3]
      (runOutputs (@getSamples Nat String reverseShuffler mathOnly)
        (new reverseShuffler mathOnly twoFiles) [3, 4, 3]) := by
  have hstreams := (@get_samples_streams Nat String reverseShuffler mathOnly [10, 11, 12, 13, 14]
    twoFiles rfl rfl (by decide) [3, 4, 3]).2.2
  exact hstreams.mpr ⟨by decide, by decide, by decide, trivial⟩

/-- A request for eleven prompts of a dataset of five returns ten groups. -/
theorem get_samples_short :
    ¬ ∀ (rng : Shuffler) (args : SingleArgs) (files : DataFiles Nat) (requests : List Nat),
      args.rolloutGlobalDataset = true →
      files.loadPrompts args.promptData args.rolloutMaxPromptLen ≠ [] →
      (runOutputs (@getSamples Nat String rng args) (new rng args files) requests).map
        List.length = requests := by
  intro hclaim
  have heleven := hclaim reverseShuffler mathOnly twoFiles [11] rfl (by decide)
  revert heleven
  decide

end Runs

end Miles.Rollout.DataSource.RolloutDataSource
