import Miles.Native.Rollout.MergeSamples
import Miles.Spec.Rollout.MaskSegments
import Miles.Spec.Rollout.PlanRoundTrip
import Miles.Spec.Rollout.SampleStrip

/-!
# What merging turns gives

The turns of a trajectory extend one another: each starts with the tokens of the one before,
then observation tokens, then its own output.  Whatever number of them `merge_samples` takes,
the merged sample validates and says of every output token what that token's turn says.

## Key results

- `mergeSamplePair_eq_ok`: when two samples merge, and into what
- `PairMerged.valid`: the merged sample validates
- `mergeLoop_eq_ok`: the loop merges a first part of the turns and stops where it should
- `merge_samples_describes`: the merged sample, for chains of any length
-/

namespace Miles.Rollout

open PieceTable (numRows)

/-! ### Joined masks and plans -/

/-- Inserted tokens have a mask, a row each. -/
theorem forcedSamplingMask_eq (tokenIds : List Int) :
    ∃ mask, forcedSamplingMask tokenIds = .ok mask ∧ mask.length = tokenIds.length := by
  have hnonempty : ∀ row ∈ tokenIds.map fun tokenId => [tokenId], row ≠ [] := by
    intro row hrow
    obtain ⟨_, _, rfl⟩ := List.mem_map.mp hrow
    simp
  obtain ⟨mask, hmask⟩ := RolloutSamplingMask.ofArrays_of_nonempty hnonempty
  have hmask : RolloutSamplingMask.fromMaskList (tokenIds.map fun tokenId => [tokenId]) = .ok mask :=
    hmask
  refine ⟨mask, hmask, ?_⟩
  rw [(RolloutSamplingMask.holds_fromMaskList hmask).length_eq, List.length_map]

/-- The rows a later plan takes from an earlier one are the ones its object does not hold. -/
theorem ForwardField.numRows_append {field : ForwardField} {segs new out : Segments}
    (h : field.append segs new = .ok out) : numRows out = numRows new := by
  unfold ForwardField.append at h
  simp only at h
  split at h
  · cases h
  · rename_i hrows
    cases h
    have happend : ∀ xs ys : Segments, numRows (xs ++ ys) = numRows xs + numRows ys := by
      intro xs ys
      simp [numRows]
    rw [happend, Segments.prefixRows, PieceTable.numRows_take]
    cases new with
    | nil => simp [Segments.coveredRows, numRows]
    | cons first rest =>
      by_cases hsource : first.source = none
      · have hcovered : Segments.coveredRows (first :: rest) = first.length := by
          simp [Segments.coveredRows, hsource]
        rw [hcovered] at hrows ⊢
        by_cases hzero : first.length = 0
        · simp [hzero]
        · rw [if_pos hzero, List.drop_one, List.tail_cons]
          show min (Int.toNat (first.length : Int)) (numRows segs) + numRows rest =
            first.length + numRows rest
          omega
      · have hcovered : Segments.coveredRows (first :: rest) = 0 := by
          simp [Segments.coveredRows, hsource]
        rw [hcovered]
        simp

/-- A plan continued after observation tokens has the rows the longer sample needs. -/
theorem SampleArrays.StorePlanValid.mergeTurn {a b out : StorePlan}
    {aTokens aLength bTokens bLength obsLen : Nat}
    (ha : SampleArrays.StorePlanValid a aTokens aLength)
    (hb : SampleArrays.StorePlanValid b bTokens bLength) (h : a.mergeTurn b obsLen = .ok out) :
    SampleArrays.StorePlanValid out bTokens (aLength + obsLen + bLength) := by
  unfold StorePlan.mergeTurn StorePlan.appendResponse at h
  obtain ⟨fields, hfields, h⟩ := Except.bind_eq_ok.mp h
  cases h
  intro field segs hsegs
  obtain ⟨inserted, new, hinserted, hnew, hcombine⟩ := Fields.get_of_zip hfields hsegs
  obtain ⟨old, hold, rfl⟩ := Fields.get_map hinserted
  have hnewRows := hb field new hnew
  have holdRows := ha field old hold
  cases field with
  | forward field =>
    rw [ForwardField.numRows_append hcombine]
    exact hnewRows
  | samplingMask =>
    cases hcombine
    simp only [Field.expectedRows] at hnewRows holdRows ⊢
    have hinsert : numRows (Field.samplingMask.insert old obsLen) = numRows old + obsLen := by
      unfold Field.insert
      simp only
      split
      · simp [numRows, Piece.length]
      · omega
    have hjoined : numRows (Field.samplingMask.insert old obsLen ++ new) =
        numRows (Field.samplingMask.insert old obsLen) + numRows new := by
      simp [numRows]
    omega

namespace SampleArrays

/-! ### Fields of two turns -/

theorem length_joinTurns {α : Type} (fill : α) (obsLen : Nat) (xs ys : List α) :
    (joinTurns fill obsLen xs ys).length = xs.length + obsLen + ys.length := by
  simp [joinTurns, Nat.add_assoc]

theorem length_perToken {α : Type} {values : Option (List α)} {default : α} {responseLength : Nat}
    (h : ∀ xs ∈ values, xs.length = responseLength) :
    (perToken values default responseLength).length = responseLength := by
  cases values with
  | none => simp [perToken]
  | some xs => exact h xs rfl

theorem length_mergeOptionalPerToken {obsLen aLength bLength : Nat}
    {as bs : Option (List Float64Bits)} (ha : ∀ xs ∈ as, xs.length = aLength)
    (hb : ∀ xs ∈ bs, xs.length = bLength) :
    ∀ xs ∈ mergeOptionalPerToken obsLen as bs aLength bLength,
      xs.length = aLength + obsLen + bLength := by
  intro xs hxs
  unfold mergeOptionalPerToken at hxs
  split at hxs
  · cases hxs
  · cases hxs
    rw [length_joinTurns, length_perToken ha, length_perToken hb]

/-- The masks of two turns are joined around the observation, or both are missing. -/
theorem mergeSamplingMasks_eq_ok {first second out : Option RolloutSamplingMask}
    {tokenIds : List Int} (h : mergeSamplingMasks first tokenIds second = .ok out) :
    (first = none ∧ second = none ∧ out = none) ∨
      ∃ x y z, first = some x ∧ second = some y ∧ out = some z ∧
        z.length = x.length + tokenIds.length + y.length := by
  cases first with
  | none =>
    cases second with
    | none =>
      cases h
      exact .inl ⟨rfl, rfl, rfl⟩
    | some y => cases h
  | some x =>
    cases second with
    | none => cases h
    | some y =>
      obtain ⟨observation, hobservation, hlength⟩ := forcedSamplingMask_eq tokenIds
      simp only [mergeSamplingMasks, Except.mapError_eq_ok, hobservation, Except.ok_bind] at h
      obtain ⟨z, hz, h⟩ := Except.bind_eq_ok.mp h
      cases h
      refine .inr ⟨x, y, z, rfl, rfl, rfl, ?_⟩
      rw [RolloutSamplingMask.length_concatenate hz, ← hlength]
      simp [Nat.add_assoc]

/-- Candidate arrays of one width are joined around rows of `fill`, or both are missing. -/
theorem mergeTopkField_eq_ok {α : Type} {fill : α} {gap : Nat}
    {as bs out : Option (CandidateArray α)} (h : mergeTopkField fill gap as bs = .ok out) :
    (as = none ∧ bs = none ∧ out = none) ∨
      ∃ x y, as = some x ∧ bs = some y ∧ x.k = y.k ∧
        out = some ⟨x.k, joinTurns (List.replicate x.k fill) gap x.rows y.rows⟩ := by
  cases as with
  | none =>
    cases bs with
    | none =>
      cases h
      exact .inl ⟨rfl, rfl, rfl⟩
    | some y => cases h
  | some x =>
    cases bs with
    | none => cases h
    | some y =>
      simp only [mergeTopkField] at h
      split at h
      · cases h
      · rename_i hk
        cases h
        exact .inr ⟨x, y, rfl, rfl, not_not.mp hk, rfl⟩

/-- Plans combine where both samples have one, or neither has. -/
theorem combinePlans_eq_ok {a b out : Option StorePlan}
    {combine : StorePlan → StorePlan → Except StoreError StorePlan}
    (h : combinePlans a b combine = .ok out) :
    (a = none ∧ b = none ∧ out = none) ∨
      ∃ x y z, a = some x ∧ b = some y ∧ out = some z ∧ combine x y = .ok z := by
  cases a with
  | none =>
    cases b with
    | none =>
      cases h
      exact .inl ⟨rfl, rfl, rfl⟩
    | some y => cases h
  | some x =>
    cases b with
    | none => cases h
    | some y =>
      cases hz : combine x y with
      | error e => simp [combinePlans, hz, Functor.map, Except.map] at h
      | ok z =>
        simp only [combinePlans, hz, Functor.map, Except.map, Except.ok.injEq] at h
        exact .inr ⟨x, y, z, rfl, rfl, h.symm, hz⟩

/-! ### One merge -/

section

variable {Shared : Type}

/-- How many observation tokens lie between two turns. -/
def obsLength (a b : Sample Shared) : Nat :=
  b.tokens.length - a.tokens.length - b.responseLength

/-- The observation tokens between two turns. -/
def obsTokens (a b : Sample Shared) : List Int :=
  (b.tokens.drop a.tokens.length).take (obsLength a b)

/-- The merged sample, given the fields whose merge may fail. -/
def mergedSample (decode : List Int → String) (a b : Sample Shared)
    (topkTokenIds : Option (CandidateArray Int)) (topkLogProbs : Option (CandidateArray Float32Bits))
    (samplingMask : Option RolloutSamplingMask) (storePlan : Option StorePlan)
    (studentTopLogprobs : Option (List (List (Int × Float64Bits)))) : Sample Shared where
  shared := a.shared
  prompt := b.prompt
  tokens := b.tokens
  media := a.media
  response := a.response ++ decode (obsTokens a b) ++ b.response
  responseLength := a.responseLength + obsLength a b + b.responseLength
  lossMask := some (joinTurns 0 (obsLength a b) (perToken a.lossMask 1 a.responseLength)
    (perToken b.lossMask 1 b.responseLength))
  weightVersions := a.weightVersions ++ b.weightVersions
  rolloutLogProbs := some (joinTurns 0 (obsLength a b)
    (perToken a.rolloutLogProbs 0 a.responseLength) (perToken b.rolloutLogProbs 0 b.responseLength))
  rolloutTopkTokenIds := topkTokenIds
  rolloutTopkLogProbs := topkLogProbs
  rolloutSamplingMask := samplingMask
  rolloutRoutedExperts := b.rolloutRoutedExperts
  rolloutIndexerTopk := b.rolloutIndexerTopk
  rolloutStorePlan := storePlan
  teacherLogProbs := mergeOptionalPerToken (obsLength a b) a.teacherLogProbs b.teacherLogProbs
    a.responseLength b.responseLength
  opdReverseKl := mergeOptionalPerToken (obsLength a b) a.opdReverseKl b.opdReverseKl
    a.responseLength b.responseLength
  opdStudentTopLogprobs := studentTopLogprobs
  status := b.status

/-- Two turns merge into a third sample: what the merge checks, and what it makes. -/
structure PairMerged (decode : List Int → String) (a b c : Sample Shared) : Prop where
  validA : a.Valid
  validB : b.Valid
  samePrompt : a.prompt.startsWith b.prompt = .ok true
  tokensStart : a.tokens <+: b.tokens
  observed : 0 < obsLength a b
  samplingMask : mergeSamplingMasks a.rolloutSamplingMask (obsTokens a b) b.rolloutSamplingMask =
    .ok c.rolloutSamplingMask
  storePlan : combinePlans a.rolloutStorePlan b.rolloutStorePlan (·.mergeTurn · (obsLength a b)) =
    .ok c.rolloutStorePlan
  routedExperts : checkRows .routedExperts a.rolloutRoutedExperts b.rolloutRoutedExperts = .ok ()
  indexerTopk : checkRows .indexerTopk a.rolloutIndexerTopk b.rolloutIndexerTopk = .ok ()
  completed : a.status = .completed
  shared : a.shared = b.shared
  media : a.media = b.media
  topkTokenIds : mergeTopkField (-1) (obsLength a b) a.rolloutTopkTokenIds b.rolloutTopkTokenIds =
    .ok c.rolloutTopkTokenIds
  topkLogProbs : mergeTopkField negInf (obsLength a b) a.rolloutTopkLogProbs
    b.rolloutTopkLogProbs = .ok c.rolloutTopkLogProbs
  student : mergeOpdStudentTopLogprobs (obsLength a b) a.opdStudentTopLogprobs
    b.opdStudentTopLogprobs a.responseLength b.responseLength = .ok c.opdStudentTopLogprobs
  merged : c = mergedSample decode a b c.rolloutTopkTokenIds c.rolloutTopkLogProbs
    c.rolloutSamplingMask c.rolloutStorePlan c.opdStudentTopLogprobs

variable {decode : List Int → String} {a b c : Sample Shared}

theorem exists_unit {p : Unit → Prop} : (∃ x, p x) ↔ p () :=
  ⟨fun ⟨_, h⟩ => h, fun h => ⟨(), h⟩⟩

/-- When `_merge_sample_pair` succeeds, and with what. -/
theorem mergeSamplePair_eq_ok [DecidableEq Shared] :
    mergeSamplePair decode a b = .ok c ↔ PairMerged decode a b c := by
  have hobs : ((b.tokens.length : Int) - a.tokens.length - b.responseLength).toNat =
      obsLength a b := by
    unfold obsLength
    omega
  have hpos : (0 : Int) < (b.tokens.length : Int) - a.tokens.length - b.responseLength ↔
      0 < obsLength a b := by
    unfold obsLength
    omega
  unfold mergeSamplePair
  simp only [hobs, hpos, Except.bind_eq_ok, exists_unit, ensure_eq_ok, Sample.validate_eq_ok,
    Except.mapError_eq_ok]
  constructor
  · rintro ⟨hvalidA, hvalidB, _, hprompt, rfl, htokens, hobserved, mask, hmask, plan, hplan, hrouted,
      hindexer, hcompleted, hshared, hmedia, ids, hids, logps, hlogps, student, hstudent, hc⟩
    cases hc
    exact ⟨hvalidA, hvalidB, hprompt, htokens, hobserved, hmask, hplan, hrouted, hindexer,
      hcompleted, hshared, hmedia, hids, hlogps, hstudent, rfl⟩
  · intro h
    refine ⟨h.validA, h.validB, true, h.samePrompt, rfl, h.tokensStart, h.observed, _,
      h.samplingMask, _, h.storePlan, h.routedExperts, h.indexerTopk, h.completed, h.shared,
      h.media, _, h.topkTokenIds, _, h.topkLogProbs, _, h.student, ?_⟩
    exact congrArg Except.ok h.merged.symm

namespace PairMerged

variable (h : PairMerged decode a b c)
include h

/-- The later turn is the earlier one's tokens, the observation and its own output. -/
theorem lengths : b.tokens.length = a.tokens.length + obsLength a b + b.responseLength := by
  have := h.observed
  unfold obsLength at this ⊢
  omega

theorem tokens : c.tokens = b.tokens := by rw [h.merged]; rfl

theorem responseLength :
    c.responseLength = a.responseLength + obsLength a b + b.responseLength := by
  rw [h.merged]
  rfl

theorem status : c.status = b.status := by rw [h.merged]; rfl

theorem weightVersions : c.weightVersions = a.weightVersions ++ b.weightVersions := by
  rw [h.merged]
  rfl

theorem rolloutRoutedExperts : c.rolloutRoutedExperts = b.rolloutRoutedExperts := by
  rw [h.merged]
  rfl

theorem rolloutIndexerTopk : c.rolloutIndexerTopk = b.rolloutIndexerTopk := by
  rw [h.merged]
  rfl

theorem lossMask : c.lossMask = some (joinTurns 0 (obsLength a b)
    (perToken a.lossMask 1 a.responseLength) (perToken b.lossMask 1 b.responseLength)) := by
  rw [h.merged]
  rfl

theorem rolloutLogProbs : c.rolloutLogProbs = some (joinTurns 0 (obsLength a b)
    (perToken a.rolloutLogProbs 0 a.responseLength)
    (perToken b.rolloutLogProbs 0 b.responseLength)) := by
  rw [h.merged]
  rfl

theorem teacherLogProbs : c.teacherLogProbs = mergeOptionalPerToken (obsLength a b)
    a.teacherLogProbs b.teacherLogProbs a.responseLength b.responseLength := by
  rw [h.merged]
  rfl

theorem opdReverseKl : c.opdReverseKl = mergeOptionalPerToken (obsLength a b)
    a.opdReverseKl b.opdReverseKl a.responseLength b.responseLength := by
  rw [h.merged]
  rfl

theorem length_obsTokens : (obsTokens a b).length = obsLength a b := by
  have := h.lengths
  rw [obsTokens, List.length_take, List.length_drop]
  omega

theorem topk : c.TopkValid := by
  rcases mergeTopkField_eq_ok h.topkTokenIds with ⟨ha, -, hc⟩ | ⟨ids, ids', ha, hb, -, hc⟩
  · rcases mergeTopkField_eq_ok h.topkLogProbs with ⟨-, -, hc'⟩ | ⟨logps, _, ha', -, -, -⟩
    · exact .inl ⟨hc, hc'⟩
    · -- the earlier turn has both candidate arrays or none
      rcases h.validA.topk with ⟨-, hnone⟩ | ⟨_, _, hsome, -⟩
      · simp [ha'] at hnone
      · simp [ha] at hsome
  · rcases mergeTopkField_eq_ok h.topkLogProbs with ⟨ha', -, -⟩ | ⟨logps, logps', ha', hb', -, hc'⟩
    · rcases h.validA.topk with ⟨hnone, -⟩ | ⟨_, _, -, hsome, -⟩
      · simp [ha] at hnone
      · simp [ha'] at hsome
    · rcases h.validA.topk with ⟨hnone, -⟩ | ⟨x, y, hx, hy, hk, hxLength, hyLength⟩
      · simp [ha] at hnone
      · rcases h.validB.topk with ⟨hnone, -⟩ | ⟨x', y', hx', hy', hk', hxLength', hyLength'⟩
        · simp [hb] at hnone
        · cases ha.symm.trans hx
          cases ha'.symm.trans hy
          cases hb.symm.trans hx'
          cases hb'.symm.trans hy'
          refine .inr ⟨_, _, hc, hc', hk, ?_, ?_⟩
          · rw [length_joinTurns, h.responseLength, hxLength, hxLength']
          · rw [length_joinTurns, h.responseLength, hyLength, hyLength']

/-- The merged sample is valid, if the later turn's weight versions are those of its output. -/
theorem valid (hanchored : ∀ span ∈ b.allWeightVersionSpans,
    b.tokens.length - b.responseLength ≤ span.absStart) : c.Valid := by
  have hlengths := h.lengths
  have hresponse := h.responseLength
  -- lengths add up: the response of the merge is both responses and the observation between
  constructor
  case response =>
    have := h.validA.response
    rw [h.tokens]
    omega
  case lossMask =>
    intro mask hmask
    rw [h.lossMask] at hmask
    cases hmask
    rw [length_joinTurns, length_perToken h.validA.lossMask, length_perToken h.validB.lossMask,
      hresponse]
  case rolloutLogProbs =>
    intro logProbs hlogProbs
    rw [h.rolloutLogProbs] at hlogProbs
    cases hlogProbs
    rw [length_joinTurns, length_perToken h.validA.rolloutLogProbs,
      length_perToken h.validB.rolloutLogProbs, hresponse]
  case topk => exact h.topk
  case samplingMask =>
    intro mask hmask
    rcases mergeSamplingMasks_eq_ok h.samplingMask with ⟨-, -, hnone⟩ | ⟨x, y, z, ha, hb, hc, hlength⟩
    · cases (Option.mem_def.mp hmask).symm.trans hnone
    · cases (Option.mem_def.mp hmask).symm.trans hc
      rw [hlength, h.length_obsTokens, h.validA.samplingMask x ha, h.validB.samplingMask y hb,
        hresponse]
  case teacherLogProbs =>
    rw [h.teacherLogProbs, hresponse]
    exact length_mergeOptionalPerToken h.validA.teacherLogProbs h.validB.teacherLogProbs
  case opdReverseKl =>
    rw [h.opdReverseKl, hresponse]
    exact length_mergeOptionalPerToken h.validA.opdReverseKl h.validB.opdReverseKl
  case routedExperts =>
    have hmedia : c.media = b.media := by
      rw [h.merged]
      exact h.media
    rw [h.rolloutRoutedExperts, h.tokens, hmedia]
    exact h.validB.routedExperts
  case indexerTopk =>
    rw [h.rolloutIndexerTopk, h.tokens]
    exact h.validB.indexerTopk
  case storePlan =>
    intro plan hplan
    rcases combinePlans_eq_ok h.storePlan with ⟨-, -, hnone⟩ | ⟨x, y, z, ha, hb, hc, hz⟩
    · cases (Option.mem_def.mp hplan).symm.trans hnone
    · cases (Option.mem_def.mp hplan).symm.trans hc
      rw [h.tokens, hresponse]
      exact (h.validA.storePlan x ha).mergeTurn (h.validB.storePlan y hb) hz
  case spans =>
    -- the later spans lie in the later output, after all of the earlier ones
    have hspans : c.allWeightVersionSpans =
        a.allWeightVersionSpans ++ b.allWeightVersionSpans := by
      simp only [Sample.allWeightVersionSpans, h.weightVersions, List.flatMap_append]
    rw [hspans, h.tokens]
    refine h.validA.spans.append (h.validB.spans.after fun span hspan => ?_) (by omega)
      (Nat.zero_le _)
    have := hanchored span hspan
    omega
  case calls =>
    intro call hcall
    rw [h.weightVersions] at hcall
    rw [h.tokens]
    rcases List.mem_append.mp hcall with hcall | hcall
    · exact (h.validA.calls call hcall).extend (by omega)
    · exact h.validB.calls call hcall

end PairMerged

/-! ### The tokens of a turn -/

namespace Sample

/-- The position of the first output token. -/
def outputStart (s : Sample Shared) : Nat := s.tokens.length - s.responseLength

/-- The token at the position is one of the sample's output. -/
def Covers (s : Sample Shared) (p : Nat) : Prop := s.outputStart ≤ p ∧ p < s.tokens.length

/-- The entry of a per-token list for the token at a position, if it is one of the output. -/
def outputAt {α : Type} (s : Sample Shared) (values : List α) (p : Nat) : Option α :=
  if s.outputStart ≤ p then values[p - s.outputStart]? else none

/-- The loss mask of the token at a position. -/
def lossMaskAt (s : Sample Shared) (p : Nat) : Option Int :=
  s.outputAt (perToken s.lossMask 1 s.responseLength) p

/-- The rollout log-prob of the token at a position. -/
def logProbAt (s : Sample Shared) (p : Nat) : Option Float64Bits :=
  s.outputAt (perToken s.rolloutLogProbs 0 s.responseLength) p

/-- A sample of one turn: it validates, and its weight versions are those of its output. -/
structure IsTurn (s : Sample Shared) : Prop where
  validates : s.validate = .ok ()
  anchored : ∀ span ∈ s.allWeightVersionSpans, s.outputStart ≤ span.absStart

end Sample

namespace PairMerged

variable (h : PairMerged decode a b c)
include h

/-- The output of the merged sample starts where the earlier one's does. -/
theorem outputStart : c.outputStart = a.outputStart := by
  have hlengths := h.lengths
  rw [Sample.outputStart, Sample.outputStart, h.tokens, h.responseLength]
  omega

/-- The later output starts after the observation. -/
theorem outputStart_later : b.outputStart = a.tokens.length + obsLength a b := by
  have hlengths := h.lengths
  rw [Sample.outputStart]
  omega

/-- A joined list says of each token what the turn it belongs to says. -/
theorem outputAt_joinTurns {α : Type} {fill : α} {xs ys : List α}
    (hxs : xs.length = a.responseLength) (p : Nat) :
    c.outputAt (joinTurns fill (obsLength a b) xs ys) p =
      if p < a.tokens.length then a.outputAt xs p
      else if p < b.outputStart then some fill else b.outputAt ys p := by
  have ha := h.validA.response
  have hlater := h.outputStart_later
  unfold Sample.outputAt
  rw [h.outputStart]
  have hstart : a.outputStart + a.responseLength = a.tokens.length := by
    unfold Sample.outputStart
    omega
  by_cases hp : p < a.tokens.length
  · rw [if_pos hp]
    by_cases hout : a.outputStart ≤ p
    · rw [if_pos hout, if_pos hout, joinTurns, List.append_assoc,
        List.getElem?_append_left (by omega)]
    · rw [if_neg hout, if_neg hout]
  · rw [if_neg hp, if_pos (by omega), joinTurns]
    by_cases hobs : p < b.outputStart
    · rw [if_pos hobs, List.getElem?_append_left (by simp; omega),
        List.getElem?_append_right (by omega), List.getElem?_replicate, if_pos (by omega)]
    · rw [if_neg hobs, if_pos (by omega), List.getElem?_append_right (by simp; omega)]
      congr 1
      simp only [List.length_append, List.length_replicate]
      omega

theorem lossMaskAt (p : Nat) :
    c.lossMaskAt p = if p < a.tokens.length then a.lossMaskAt p
      else if p < b.outputStart then some 0 else b.lossMaskAt p := by
  unfold Sample.lossMaskAt
  rw [h.lossMask]
  exact h.outputAt_joinTurns (length_perToken h.validA.lossMask) p

theorem logProbAt (p : Nat) :
    c.logProbAt p = if p < a.tokens.length then a.logProbAt p
      else if p < b.outputStart then some 0 else b.logProbAt p := by
  unfold Sample.logProbAt
  rw [h.rolloutLogProbs]
  exact h.outputAt_joinTurns (length_perToken h.validA.rolloutLogProbs) p

end PairMerged

/-- The spans a response stamps on its turn start within the output. -/
theorem WeightVersionsPerCall.anchored_fromMetaInfo {info : MetaInfo} {outputEnd : Nat}
    {call : WeightVersionsPerCall} (h : fromMetaInfo info outputEnd = .ok call) :
    ∀ span ∈ call.spans, outputEnd - info.numOutputTokens ≤ span.absStart := by
  obtain ⟨relative, -, h⟩ := Except.bind_eq_ok.mp h
  cases h
  intro span hspan
  obtain ⟨raw, -, rfl⟩ := List.mem_map.mp hspan
  exact Nat.le_add_right _ _

/-- A sample that validates is one of a turn if its calls are stamped by responses whose output
    tokens its response holds. -/
theorem Sample.IsTurn.of_fromMetaInfo {s : Sample Shared} (hvalid : s.validate = .ok ())
    (hcalls : ∀ call ∈ s.weightVersions, ∃ info : MetaInfo,
      WeightVersionsPerCall.fromMetaInfo info s.tokens.length = .ok call ∧
        info.numOutputTokens ≤ s.responseLength) : s.IsTurn where
  validates := hvalid
  anchored := by
    intro span hspan
    obtain ⟨call, hcall, hspan⟩ := List.mem_flatMap.mp hspan
    obtain ⟨info, hinfo, hlength⟩ := hcalls call hcall
    have := WeightVersionsPerCall.anchored_fromMetaInfo hinfo span hspan
    rw [Sample.outputStart]
    omega

/-! ### A chain of turns -/

/-- The merged sample says of each output token what its turn says, and `fill` of each
    observation token between them. -/
structure Carries {α : Type} (value : Sample Shared → Nat → Option α) (fill : α)
    (turns : List (Sample Shared)) (merged : Sample Shared) : Prop where
  own : ∀ turn ∈ turns, ∀ p, turn.Covers p → value merged p = value turn p
  observation : ∀ p, merged.Covers p → (∀ turn ∈ turns, ¬ turn.Covers p) →
    value merged p = some fill

/-- A turn extends another: that one is complete, and its replay rows continue. -/
def Extends (a b : Sample Shared) : Prop :=
  a.status = .completed ∧ introducesReplayGap a b = false

instance (a b : Sample Shared) : Decidable (Extends a b) :=
  inferInstanceAs (Decidable (_ ∧ _))

/-- The merged sample of the turns from `first` to `last`. -/
structure Describes (first : Sample Shared) (turns : List (Sample Shared)) (last : Sample Shared)
    (merged : Sample Shared) : Prop where
  valid : merged.Valid
  first_mem : turns.head? = some first
  last_mem : turns.getLast? = some last
  tokens : merged.tokens = last.tokens
  outputStart : merged.outputStart = first.outputStart
  status : merged.status = last.status
  routedExperts : merged.rolloutRoutedExperts = last.rolloutRoutedExperts
  indexerTopk : merged.rolloutIndexerTopk = last.rolloutIndexerTopk
  samplingMask : merged.rolloutSamplingMask.isSome = last.rolloutSamplingMask.isSome
  within : ∀ turn ∈ turns, merged.outputStart ≤ turn.outputStart ∧
    turn.tokens.length ≤ merged.tokens.length
  lossMask : Carries Sample.lossMaskAt 0 turns merged
  logProbs : Carries Sample.logProbAt 0 turns merged
  extend : turns.IsChain Extends

/-- Extending a list of turns by one extends what the merged sample carries. -/
theorem Carries.concat {α : Type} {value : Sample Shared → Nat → Option α} {fill : α}
    {turns : List (Sample Shared)} (hcarries : Carries value fill turns a)
    (h : PairMerged decode a b c)
    (hwithin : ∀ turn ∈ turns, a.outputStart ≤ turn.outputStart ∧
      turn.tokens.length ≤ a.tokens.length)
    (hvalue : ∀ p, value c p = if p < a.tokens.length then value a p
      else if p < b.outputStart then some fill else value b p) :
    Carries value fill (turns ++ [b]) c := by
  have hlater := h.outputStart_later
  constructor
  · intro turn hturn p hp
    rw [hvalue]
    rcases List.mem_append.mp hturn with hturn | hturn
    · have hlt : p < a.tokens.length := by
        have := (hwithin turn hturn).2
        have := hp.2
        omega
      rw [if_pos hlt, hcarries.own turn hturn p hp]
    · cases List.mem_singleton.mp hturn
      have := hp.1
      rw [if_neg (by omega), if_neg (by omega)]
  · intro p hp hnone
    rw [hvalue]
    by_cases hlt : p < a.tokens.length
    · rw [if_pos hlt]
      refine hcarries.observation p ⟨?_, hlt⟩ fun turn hturn => hnone turn (by simp [hturn])
      rw [← h.outputStart]
      exact hp.1
    · rw [if_neg hlt, if_pos]
      -- a token at the later output or after it would be one of the later turn's
      by_contra hout
      refine hnone b (by simp) ⟨by omega, ?_⟩
      rw [← h.tokens]
      exact hp.2

/-- A single turn describes itself. -/
theorem Describes.single (h : a.Valid) : Describes a [a] a a where
  valid := h
  first_mem := rfl
  last_mem := rfl
  tokens := rfl
  outputStart := rfl
  status := rfl
  routedExperts := rfl
  indexerTopk := rfl
  samplingMask := rfl
  within := by simp
  lossMask := ⟨by simp, fun p hp hnone => absurd hp (hnone a (by simp))⟩
  logProbs := ⟨by simp, fun p hp hnone => absurd hp (hnone a (by simp))⟩
  extend := List.isChain_singleton a

/-- A gap is seen from the last turn alone. -/
theorem introducesReplayGap_congr {acc last : Sample Shared}
    (hrouted : acc.rolloutRoutedExperts = last.rolloutRoutedExperts)
    (hindexer : acc.rolloutIndexerTopk = last.rolloutIndexerTopk)
    (hmask : acc.rolloutSamplingMask.isSome = last.rolloutSamplingMask.isSome)
    (next : Sample Shared) : introducesReplayGap acc next = introducesReplayGap last next := by
  unfold introducesReplayGap
  rw [hrouted, hindexer, hmask]

/-- One more turn is merged. -/
theorem Describes.concat {first last : Sample Shared} {turns : List (Sample Shared)}
    (hdescribes : Describes first turns last a) (h : PairMerged decode a b c) (hturn : b.IsTurn)
    (hgap : introducesReplayGap a b = false) : Describes first (turns ++ [b]) b c where
  valid := h.valid hturn.anchored
  first_mem := by rw [List.head?_append, hdescribes.first_mem]; rfl
  last_mem := List.getLast?_concat
  tokens := h.tokens
  outputStart := h.outputStart.trans hdescribes.outputStart
  status := h.status
  routedExperts := h.rolloutRoutedExperts
  indexerTopk := h.rolloutIndexerTopk
  samplingMask := by
    rcases mergeSamplingMasks_eq_ok h.samplingMask with ⟨-, hb, hc⟩ | ⟨_, _, _, -, hb, hc, -⟩
    · rw [hb, hc]
    · rw [hb, hc]
      rfl
  within := by
    have hlengths := h.lengths
    have hlater := h.outputStart_later
    have ha := h.validA.response
    intro turn hmem
    rw [h.outputStart, h.tokens]
    rcases List.mem_append.mp hmem with hmem | hmem
    · have := hdescribes.within turn hmem
      omega
    · cases List.mem_singleton.mp hmem
      refine ⟨?_, le_rfl⟩
      rw [hlater, Sample.outputStart]
      omega
  lossMask := hdescribes.lossMask.concat h hdescribes.within h.lossMaskAt
  logProbs := hdescribes.logProbs.concat h hdescribes.within h.logProbAt
  extend := by
    refine List.IsChain.append hdescribes.extend (List.isChain_singleton b) ?_
    intro x hx y hy
    cases (Option.mem_def.mp hx).symm.trans hdescribes.last_mem
    cases hy
    refine ⟨hdescribes.status ▸ h.completed, ?_⟩
    rw [← introducesReplayGap_congr hdescribes.routedExperts hdescribes.indexerTopk
      hdescribes.samplingMask]
    exact hgap

/-! ### The loop -/

/-- `turns`, one after the other, are merged to `acc`. -/
inductive Merges (decode : List Int → String) : Sample Shared → List (Sample Shared) →
    Sample Shared → Prop
  | nil (acc : Sample Shared) : Merges decode acc [] acc
  | cons {acc acc' merged turn : Sample Shared} {turns : List (Sample Shared)}
      (hgap : introducesReplayGap acc turn = false) (hpair : PairMerged decode acc turn acc')
      (hrest : Merges decode acc' turns merged) : Merges decode acc (turn :: turns) merged

/-- The next turn, if there is one, does not extend the merged sample. -/
def Stops (merged : Sample Shared) (dropped : List (Sample Shared)) : Prop :=
  ∀ next ∈ dropped.head?, ¬ Extends merged next

/-- The loop merges a first part of the turns, up to the first that cannot be extended or does
    not extend. -/
theorem mergeLoop_eq_ok [DecidableEq Shared] {acc merged : Sample Shared}
    {turns : List (Sample Shared)} :
    mergeLoop decode acc turns = .ok merged ↔
      ∃ done dropped, turns = done ++ dropped ∧ Merges decode acc done merged ∧
        Stops merged dropped := by
  induction turns generalizing acc with
  | nil =>
    constructor
    · intro h
      cases h
      exact ⟨[], [], rfl, .nil _, by simp [Stops]⟩
    · rintro ⟨done, dropped, hsplit, hmerges, -⟩
      obtain ⟨rfl, rfl⟩ := List.append_eq_nil_iff.mp hsplit.symm
      cases hmerges
      rfl
  | cons turn turns ih =>
    unfold mergeLoop
    by_cases hextends : Extends acc turn
    · rw [if_neg (not_not.mpr hextends.1), if_neg (by simp [hextends.2]), Except.bind_eq_ok]
      constructor
      · rintro ⟨acc', hpair, hloop⟩
        obtain ⟨done, dropped, rfl, hmerges, hstops⟩ := ih.mp hloop
        exact ⟨turn :: done, dropped, rfl,
          .cons hextends.2 (mergeSamplePair_eq_ok.mp hpair) hmerges, hstops⟩
      · rintro ⟨done, dropped, hsplit, hmerges, hstops⟩
        cases hmerges with
        | nil =>
          -- the turn extends the sample, so the loop cannot stop before it
          rw [List.nil_append] at hsplit
          subst hsplit
          exact absurd hextends (hstops turn rfl)
        | cons hgap hpair hrest =>
          rw [List.cons_append] at hsplit
          obtain ⟨rfl, rfl⟩ := List.cons.inj hsplit
          exact ⟨_, mergeSamplePair_eq_ok.mpr hpair, ih.mpr ⟨_, _, rfl, hrest, hstops⟩⟩
    · have hstop : (if acc.status ≠ .completed then .ok acc
          else if introducesReplayGap acc turn = true then .ok acc
          else do
            let acc ← mergeSamplePair decode acc turn
            mergeLoop decode acc turns : Except SampleError (Sample Shared)) = .ok acc := by
        by_cases hstatus : acc.status = .completed
        · have hgap : introducesReplayGap acc turn = true := by
            by_contra hgap
            exact hextends ⟨hstatus, by simpa using hgap⟩
          rw [if_neg (not_not.mpr hstatus), if_pos hgap]
        · rw [if_pos hstatus]
      rw [hstop]
      constructor
      · intro h
        cases h
        refine ⟨[], turn :: turns, rfl, .nil _, fun next hnext => ?_⟩
        cases hnext
        exact hextends
      · rintro ⟨done, dropped, hsplit, hmerges, -⟩
        cases hmerges with
        | nil => rfl
        | cons hgap hpair hrest =>
          rw [List.cons_append] at hsplit
          obtain ⟨rfl, rfl⟩ := List.cons.inj hsplit
          exact absurd ⟨hpair.completed, hgap⟩ hextends

/-- Merging any number of turns. -/
theorem Merges.describes {first last acc merged : Sample Shared} {turns done : List (Sample Shared)}
    (h : Merges decode acc done merged) (hdescribes : Describes first turns last acc)
    (hturns : ∀ turn ∈ done, turn.IsTurn) :
    ∃ last', Describes first (turns ++ done) last' merged := by
  induction h generalizing turns last with
  | nil acc => exact ⟨last, by rwa [List.append_nil]⟩
  | cons hgap hpair _ ih =>
    have hnext := hdescribes.concat hpair (hturns _ (by simp)) hgap
    obtain ⟨last', hlast'⟩ := ih hnext fun turn hturn => hturns turn (by simp [hturn])
    rw [List.append_assoc] at hlast'
    exact ⟨last', hlast'⟩

end

/-- Whatever chain of turns `merge_samples` merges, it takes a first part of it, up to the first
    turn that is not complete or whose replay rows the next does not continue; the merged
    sample validates, has the tokens of the last turn it took, and has at each output token
    of these turns that turn's own loss mask and log-prob, and 0 at the tokens between. -/
theorem merge_samples_describes {Shared : Type} [DecidableEq Shared] (decode : List Int → String)
    (samples : List (Sample Shared)) (merged : Sample Shared)
    (hturns : ∀ s ∈ samples, s.IsTurn) (hmerge : mergeSamples decode samples = .ok merged) :
    ∃ turns dropped first last, samples = turns ++ dropped ∧ merged.validate = .ok () ∧
      Describes first turns last merged ∧ (∀ next ∈ dropped.head?, ¬ Extends last next) := by
  cases samples with
  | nil => cases hmerge
  | cons first rest =>
    obtain ⟨done, dropped, rfl, hmerges, hstops⟩ := mergeLoop_eq_ok.mp hmerge
    have hfirst := Sample.validate_eq_ok.mp (hturns first (by simp)).validates
    obtain ⟨last, hdescribes⟩ := hmerges.describes (.single hfirst) fun turn hturn =>
      hturns turn (by simp [hturn])
    refine ⟨first :: done, dropped, first, last, rfl, Sample.validate_eq_ok.mpr hdescribes.valid,
      hdescribes, fun next hnext hextends => hstops next hnext ?_⟩
    refine ⟨hdescribes.status.trans hextends.1, ?_⟩
    rw [introducesReplayGap_congr hdescribes.routedExperts hdescribes.indexerTopk
      hdescribes.samplingMask]
    exact hextends.2

/-- A prompt of two tokens, and two sampled ones of which the second is not trained on. -/
def firstTurn : Sample Unit where
  shared := ()
  tokens := [1, 2, 3, 4]
  responseLength := 2
  lossMask := some [1, 0]
  rolloutLogProbs := some [0xbff0000000000000, 0xc000000000000000]
  rolloutRoutedExperts := some ⟨(1, 1), [[[0]], [[1]], [[2]]]⟩
  weightVersions := [{ spans := [⟨"1", 2, 4⟩], outputStart := some 2 }]
  status := .completed

/-- The tokens of the first turn, one observed and one sampled. -/
def secondTurn : Sample Unit where
  shared := ()
  tokens := [1, 2, 3, 4, 5, 6]
  responseLength := 1
  lossMask := some [1]
  rolloutLogProbs := some [0x3ff0000000000000]
  rolloutRoutedExperts := some ⟨(1, 1), [[[0]], [[1]], [[2]], [[3]], [[4]]]⟩
  weightVersions := [{ spans := [⟨"2", 5, 6⟩], outputStart := some 5 }]
  status := .truncated

/-- Both turns. -/
def bothTurns : Sample Unit :=
  { secondTurn with
    responseLength := 4
    lossMask := some [1, 0, 0, 1]
    rolloutLogProbs := some [0xbff0000000000000, 0xc000000000000000, 0, 0x3ff0000000000000]
    weightVersions := firstTurn.weightVersions ++ secondTurn.weightVersions }

theorem merge_samples_describes_bothTurns :
    ∃ turns dropped first last, [firstTurn, secondTurn, secondTurn] = turns ++ dropped ∧
      bothTurns.validate = .ok () ∧ Describes first turns last bothTurns ∧
      (∀ next ∈ dropped.head?, ¬ Extends last next) :=
  merge_samples_describes (fun _ => "") [firstTurn, secondTurn, secondTurn] bothTurns
    (by
      intro s hs
      have hs : s = firstTurn ∨ s = secondTurn := by simpa using hs
      rcases hs with rfl | rfl
      · exact ⟨by decide, by decide⟩
      · exact ⟨by decide, by decide⟩)
    rfl

end SampleArrays

end Miles.Rollout
