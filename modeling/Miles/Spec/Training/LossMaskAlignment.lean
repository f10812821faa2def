import Miles.Spec.Training.TokenOrigins

/-!
# The input loss mask marks the supervised tokens

The mask of a sample, padded in front by its prompt, has an entry for each token.  `get_batch`
then lays it out like the tokens, so an entry of the mask is the entry of the token there.
-/

namespace Miles.ContextParallel

open PyList

namespace TrainSample

/-- The length of the prompt. -/
def promptLength (s : TrainSample) : Nat := s.totalLength - s.responseLength

/-- The mask in front of which the prompt is padded. -/
def alignedMask (s : TrainSample) : List Int :=
  List.replicate s.promptLength 0 ++ s.lossMask

theorem padFront_lossMask (s : TrainSample) :
    padFront s.lossMask ((s.totalLength : Int) - s.responseLength) 0 = s.alignedMask := by
  have hle := s.response_le
  have hnonneg : ¬ ((s.totalLength : Int) - s.responseLength < 0) := by omega
  have hcount : ((s.totalLength : Int) - s.responseLength).toNat = s.promptLength := by
    simp only [promptLength]
    omega
  rw [padFront, if_neg hnonneg, hcount, alignedMask]

theorem length_alignedMask (s : TrainSample) : s.alignedMask.length = s.tokens.length := by
  have hle := s.response_le
  have hmask := s.mask_length
  have htotal := s.total_eq
  simp only [alignedMask, promptLength, List.length_append, List.length_replicate]
  omega

theorem alignedMask_prompt (s : TrainSample) {j : Nat} (h : j < s.promptLength) :
    s.alignedMask[j]? = some 0 := by
  rw [alignedMask, List.getElem?_append_left (by simpa using h)]
  simp [h]

theorem alignedMask_response (s : TrainSample) {j : Nat} (h : s.promptLength ≤ j) :
    s.alignedMask[j]? = s.lossMask[j - s.promptLength]? := by
  rw [alignedMask, List.getElem?_append_right (by simpa using h)]
  simp

end TrainSample

/-- The columns of the masks, as `get_batch` passes them. -/
def maskColumns (samples : List TrainSample) : List (List Int × Nat × Nat) :=
  samples.map fun s => (s.lossMask, s.totalLength, s.responseLength)

/-- The masks that have an entry for each token. -/
def alignedMasks (samples : List TrainSample) : List (List Int) :=
  samples.map (·.alignedMask)

theorem length_alignedMasks (samples : List TrainSample) :
    (alignedMasks samples).map List.length = (samples.map (·.tokens)).map List.length := by
  simp only [alignedMasks, List.map_map]
  exact List.map_congr_left fun s _ => s.length_alignedMask

/-- The masks of the samples before the batch is padded. -/
theorem map_maskColumns (samples : List TrainSample) (place : List Int → List Int) :
    (maskColumns samples).map (fun s => place (padFront s.1 ((s.2.1 : Int) - s.2.2) 0)) =
      (alignedMasks samples).map place := by
  simp only [maskColumns, alignedMasks, List.map_map]
  apply List.map_congr_left
  intro s _
  show place (padFront s.lossMask _ 0) = place s.alignedMask
  rw [s.padFront_lossMask]

variable {samples : List TrainSample}

/-- The masks of a bshd batch are laid out like tokens. -/
theorem prepareLossMasks_bshd {padSize : Nat}
    {maxSeqLens : Option (List Nat)} {allgatherCp : Bool} {cp : CpState} (hcp : 0 < cp.size)
    {masks : List Int}
    (h : getBatch (alignedMasks samples) 0 padSize .bshd maxSeqLens allgatherCp cp = .ok masks)
    (pad : Nat) :
    prepareLossMasks (maskColumns samples) .bshd ((maxSeqLens.getD []).headD 0) pad allgatherCp
      cp = .ok masks := by
  obtain ⟨-, m, rest, rfl, hfits, -, rfl⟩ := getBatch_bshd_eq_ok.mp h
  have hsame := sameLength_bshd hcp hfits 0 allgatherCp
  cases allgatherCp with
  | true =>
    simp only [if_true] at hsame ⊢
    have hcolumns := map_maskColumns samples fun mask => mask
    rw [List.map_id'] at hcolumns
    simp only [prepareLossMasks, if_true, hcolumns, Option.getD_some, List.headD_cons, hsame,
      not_true_eq_false, if_false, pure, Except.pure, bind, Except.bind]
  | false =>
    simp only [Bool.false_eq_true, if_false] at hsame ⊢
    have hcolumns := map_maskColumns samples fun mask => sliceWithCp mask 0 .bshd m cp
    simp only [prepareLossMasks, Bool.false_eq_true, if_false, Option.getD_some,
      List.headD_cons, hcolumns, hsame, not_true_eq_false, pure, Except.pure, bind, Except.bind]

/-- The masks of a thd batch are laid out like tokens, with the padding the tokens have. -/
theorem prepareLossMasks_thd {padSize : Nat}
    {maxSeqLens : Option (List Nat)} {allgatherCp : Bool} {cp : CpState} {masks : List Int}
    (h : getBatch (alignedMasks samples) 0 padSize .thd maxSeqLens allgatherCp cp = .ok masks)
    (maxSeqlen : Nat) :
    prepareLossMasks (maskColumns samples) .thd maxSeqlen
      (packing (samples.map (·.tokens)) padTokenId padSize .thd maxSeqLens allgatherCp cp).1
      allgatherCp cp = .ok masks := by
  obtain ⟨-, rfl⟩ := getBatch_thd_eq_ok.mp h
  have hpad : ∀ (xs : List Int) (n : Nat), padEnd xs n 0 = xs ++ List.replicate n 0 := by
    intro xs n
    have hnonneg : ¬ ((n : Int) < 0) := by omega
    rw [padEnd, if_neg hnonneg, Int.toNat_natCast]
  cases allgatherCp with
  | true =>
    have hcolumns := map_maskColumns samples fun mask => mask
    rw [List.map_id'] at hcolumns
    -- the stream of the masks is as long as the stream of the tokens
    have hlength : (samples.map fun s => s.tokens.length).sum =
        (alignedMasks samples).flatten.length := by
      rw [List.length_flatten, length_alignedMasks, List.map_map]
      rfl
    simp only [prepareLossMasks, packing, if_true, hcolumns, hpad, padTo, List.map_map,
      pure, Except.pure, ← hlength]
    rfl
  | false =>
    have hcolumns := map_maskColumns samples fun mask => sliceWithCp mask 0 .thd 0 cp
    have hslots : ∀ t : List Int, sliceWithCp t 0 .thd maxSeqlen cp = sliceWithCp t 0 .thd 0 cp :=
      fun _ => rfl
    have hlength : (samples.map fun s => (sliceWithCp s.tokens padTokenId .thd 0 cp).length).sum =
        ((alignedMasks samples).map fun t => sliceWithCp t 0 .thd 0 cp).flatten.length := by
      rw [List.length_flatten, alignedMasks, List.map_map, List.map_map]
      congr 1
      apply List.map_congr_left
      intro s _
      exact length_sliceWithCp_eq s.length_alignedMask.symm _ _ _ _ _
    simp only [prepareLossMasks, packing, Bool.false_eq_true, if_false, hslots, hcolumns, hpad,
      padTo, List.map_map, pure, Except.pure]
    rw [← hlength]
    rfl

/-- The masks of a batch that `get_batch` accepts are laid out like its tokens. -/
theorem prepareLossMasks_eq {padSize : Nat} {qkvFormat : QkvFormat}
    {maxSeqLens : Option (List Nat)} {allgatherCp : Bool} {cp : CpState} (hcp : 0 < cp.size)
    {masks : List Int}
    (h : getBatch (alignedMasks samples) 0 padSize qkvFormat maxSeqLens allgatherCp cp =
      .ok masks) :
    prepareLossMasks (maskColumns samples) qkvFormat
      (packing (samples.map (·.tokens)) padTokenId padSize qkvFormat maxSeqLens allgatherCp cp).2
      (packing (samples.map (·.tokens)) padTokenId padSize qkvFormat maxSeqLens allgatherCp cp).1
      allgatherCp cp = .ok masks := by
  cases qkvFormat with
  | bshd => exact prepareLossMasks_bshd hcp h _
  | thd => exact prepareLossMasks_thd h _

/-! ### What a position of the batch is -/

/-- A response token whose mask entry is 1. -/
def Supervised (samples : List TrainSample) (o : Origin) : Prop :=
  ∃ i j s, o = some (i, j) ∧ samples[i]? = some s ∧ s.promptLength ≤ j ∧
    s.lossMask[j - s.promptLength]? = some 1

/-- Padding, a prompt token, or a response token whose mask entry is 0. -/
def Unsupervised (samples : List TrainSample) (o : Origin) : Prop :=
  o = none ∨ ∃ i j s, o = some (i, j) ∧ samples[i]? = some s ∧
    (j < s.promptLength ∨ s.promptLength ≤ j ∧ s.lossMask[j - s.promptLength]? = some 0)

/-- The entry of the mask that an origin has. -/
def maskAt (samples : List TrainSample) (o : Origin) : Int :=
  entryAt (alignedMasks samples) 0 o

theorem maskAt_some {i j : Nat} {s : TrainSample}
    (hs : samples[i]? = some s) : maskAt samples (some (i, j)) = (s.alignedMask[j]?).getD 0 := by
  simp [maskAt, entryAt, alignedMasks, hs]

/-- The mask is 1 on the supervised tokens only. -/
theorem maskAt_eq_one {o : Origin} :
    maskAt samples o = 1 ↔ Supervised samples o := by
  constructor
  · intro h
    cases o with
    | none => cases h
    | some x =>
      obtain ⟨i, j⟩ := x
      cases hs : samples[i]? with
      | none => simp [maskAt, entryAt, alignedMasks, hs] at h
      | some s =>
        rw [maskAt_some hs] at h
        by_cases hj : j < s.promptLength
        · rw [s.alignedMask_prompt hj] at h
          cases h
        · have hj := Nat.le_of_not_lt hj
          rw [s.alignedMask_response hj] at h
          cases hm : s.lossMask[j - s.promptLength]? with
          | none =>
            rw [hm] at h
            cases h
          | some m =>
            rw [hm] at h
            have hone : m = 1 := h
            exact ⟨i, j, s, rfl, hs, hj, by rw [hm, hone]⟩
  · intro h
    obtain ⟨i, j, s, ho, hs, hj, hone⟩ := h
    rw [ho, maskAt_some hs, s.alignedMask_response hj, hone]
    rfl

/-- The mask is 0 elsewhere. -/
theorem maskAt_eq_zero {o : Origin} (h : Unsupervised samples o) :
    maskAt samples o = 0 := by
  cases h with
  | inl h => rw [h]; rfl
  | inr h =>
    obtain ⟨i, j, s, ho, hs, h⟩ := h
    rw [ho, maskAt_some hs]
    cases h with
    | inl hj => rw [s.alignedMask_prompt hj]; rfl
    | inr h =>
      rw [s.alignedMask_response h.1, h.2]
      rfl

/-- The mask of a batch has the shape of its tokens.  It is 1 at a local position exactly when
    the token there is a response token that its sample's mask marks with 1, and 0 on prompts,
    padding and the tokens that the masks mark with 0; and packing a batch whose tokens have a
    layout does not fail. -/
theorem getTrainBatch_lossMasks (samples : List TrainSample) (padSize : Nat)
    (qkvFormat : QkvFormat) (maxSeqLens : Option (List Nat)) (allgatherCp : Bool) (cp : CpState)
    (hcp : 0 < cp.size) (localTokens : List Int)
    (h : getBatch (samples.map (·.tokens)) padTokenId padSize qkvFormat maxSeqLens allgatherCp
      cp = .ok localTokens) :
    ∃ batch os, getTrainBatch samples padSize qkvFormat maxSeqLens allgatherCp cp = .ok batch ∧
      origins (samples.map (·.tokens)) padSize qkvFormat maxSeqLens allgatherCp cp = .ok os ∧
      batch.tokens = localTokens ∧ os.length = batch.tokens.length ∧
      batch.inputLossMasks.length = batch.tokens.length ∧
      ∀ p o, os[p]? = some o →
        HoldsOrigin (samples.map (·.tokens)) padTokenId batch.tokens p o ∧
        (batch.inputLossMasks[p]? = some 1 ↔ Supervised samples o) ∧
        (Unsupervised samples o → batch.inputLossMasks[p]? = some 0) := by
  obtain ⟨os, hos, rfl, hmasks⟩ := exists_layout_of_lengths (length_alignedMasks samples) 0 h
  have hprepare := prepareLossMasks_eq hcp hmasks
  refine ⟨⟨os.map (entryAt (samples.map (·.tokens)) padTokenId), os.map (maskAt samples)⟩, os, ?_,
    hos, rfl, by simp, by simp, fun p o hp => ⟨holdsOrigin hos _ hp, ?_⟩⟩
  · generalize hpacking : packing (samples.map (·.tokens)) padTokenId padSize qkvFormat maxSeqLens
      allgatherCp cp = sizes at hprepare
    obtain ⟨pad, maxSeqlen⟩ := sizes
    rw [getTrainBatch, h, hpacking]
    show (prepareLossMasks (maskColumns samples) qkvFormat maxSeqlen pad allgatherCp cp >>= _) = _
    rw [hprepare, Except.ok_bind]
    have hshape : ¬ (os.map (entryAt (alignedMasks samples) 0)).length ≠
        (os.map (entryAt (samples.map (·.tokens)) padTokenId)).length := by simp
    rw [if_neg hshape]
    rfl
  · have hread : (os.map (maskAt samples))[p]? = some (maskAt samples o) := by
      rw [List.getElem?_map, hp]
      rfl
    simp only [hread, Option.some.injEq]
    exact ⟨maskAt_eq_one, maskAt_eq_zero⟩

/-- A prompt of two tokens and a response of two, the second of them marked. -/
def shortSample : TrainSample where
  tokens := [11, 12, 13, 14]
  lossMask := [0, 1]
  totalLength := 4
  responseLength := 2
  total_eq := rfl
  response_le := by decide
  mask_length := rfl

/-- Two such samples over two ranks, padded to a multiple of three: the marked token of the second
    sample, its prompt and the padding. -/
theorem getTrainBatch_lossMasks_twoSamples :
    ∃ batch, getTrainBatch [shortSample, shortSample] 3 .thd none false ⟨0, 2⟩ = .ok batch ∧
      batch.tokens = [11, 14, 11, 14, 0, 0] ∧ batch.inputLossMasks[3]? = some 1 ∧
      batch.inputLossMasks[2]? = some 0 ∧ batch.inputLossMasks[4]? = some 0 := by
  obtain ⟨batch, os, hbatch, horigins, htokens, -, -, hmasks⟩ :=
    getTrainBatch_lossMasks [shortSample, shortSample] 3 .thd none false ⟨0, 2⟩ (by decide)
      [11, 14, 11, 14, 0, 0] (by decide)
  obtain rfl : os = [some (0, 0), some (0, 3), some (1, 0), some (1, 3), none, none] :=
    Except.ok.inj (horigins.symm.trans (by decide))
  refine ⟨batch, hbatch, htokens, ?_, ?_, ?_⟩
  · exact (hmasks 3 (some (1, 3)) rfl).2.1.mpr ⟨1, 3, shortSample, rfl, rfl, by decide, rfl⟩
  · exact (hmasks 2 (some (1, 0)) rfl).2.2
      (.inr ⟨1, 0, shortSample, rfl, rfl, .inl (by decide)⟩)
  · exact (hmasks 4 none rfl).2.2 (.inl rfl)

end Miles.ContextParallel
