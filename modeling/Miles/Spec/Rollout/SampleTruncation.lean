import Miles.Spec.Rollout.SampleMerge

/-!
# Truncating a chain of turns

Cutting the turns of a trajectory to a token budget and merging what is left gives the first
tokens of the sample that all turns merge to, unless nothing is left.
-/

namespace Miles.Rollout

open PieceTable (numRows)

/-! ### Plans of a stripped turn -/

/-- When two dicts of values combine. -/
theorem Fields.zip_succeeds_iff {α : Type} {a b : Fields α}
    {combine : Field → α → α → Except StoreError α} :
    (∃ out, a.zip b combine = .ok out) ↔
      (∀ field, (a.get field).isSome = (b.get field).isSome) ∧
        ∀ field x y, a.get field = some x → b.get field = some y →
          ∃ z, combine field x y = .ok z := by
  have hentry : ∀ field, (∃ z, Fields.zipEntry a b combine field = .ok z) ↔
      ∀ x y, a.get field = some x → b.get field = some y → ∃ z, combine field x y = .ok z := by
    intro field
    unfold Fields.zipEntry
    cases a.get field with
    | none => exact ⟨fun _ x y hx => absurd hx (by simp), fun _ => ⟨none, rfl⟩⟩
    | some x =>
      cases b.get field with
      | none => exact ⟨fun _ x y _ hy => absurd hy (by simp), fun _ => ⟨none, rfl⟩⟩
      | some y =>
        cases hz : combine field x y with
        | ok z =>
          refine ⟨fun _ x' y' hx hy => ?_, fun _ => ⟨some z, by simp [hz]⟩⟩
          cases hx
          cases hy
          exact ⟨z, hz⟩
        | error e =>
          constructor
          · rintro ⟨z, h⟩
            simp [hz, Functor.map, Except.map] at h
          · intro h
            obtain ⟨z, h⟩ := h x y rfl rfl
            rw [hz] at h
            cases h
  constructor
  · rintro ⟨out, h⟩
    simp only [Fields.zip] at h
    split at h
    · cases h
    · rename_i hsame
      obtain ⟨routed, hrouted, h⟩ := Except.bind_eq_ok.mp h
      obtain ⟨indexer, hindexer, h⟩ := Except.bind_eq_ok.mp h
      obtain ⟨mask, hmask, h⟩ := Except.bind_eq_ok.mp h
      simp only [not_or, not_not] at hsame
      obtain ⟨hsameRouted, hsameIndexer, hsameMask⟩ := hsame
      refine ⟨fun field => ?_, fun field => (hentry field).mp ?_⟩
      · cases field with
        | forward field => cases field <;> assumption
        | samplingMask => exact hsameMask
      · cases field with
        | forward field =>
          cases field with
          | routedExperts => exact ⟨_, hrouted⟩
          | indexerTopk => exact ⟨_, hindexer⟩
        | samplingMask => exact ⟨_, hmask⟩
  · rintro ⟨hsame, hcombine⟩
    obtain ⟨routed, hrouted⟩ := (hentry _).mpr (hcombine (.forward .routedExperts))
    obtain ⟨indexer, hindexer⟩ := (hentry _).mpr (hcombine (.forward .indexerTopk))
    obtain ⟨mask, hmask⟩ := (hentry _).mpr (hcombine .samplingMask)
    refine ⟨⟨routed, indexer, mask⟩, Fields.zip_eq_ok hsame fun field => ?_⟩
    cases field with
    | forward field => cases field <;> assumption
    | samplingMask => exact hmask

/-- A cut table continues from no later row. -/
theorem coveredRows_prefixRows (segs : Segments) (n : Int) :
    (segs.prefixRows n).coveredRows ≤ segs.coveredRows := by
  cases segs with
  | nil => exact le_rfl
  | cons first rest =>
    unfold Segments.prefixRows
    by_cases hn : n ≤ 0
    · rw [PieceTable.take_of_nonpos _ hn]
      exact Nat.zero_le _
    · rw [PieceTable.take, if_neg hn]
      simp only [Segments.coveredRows, List.head?_cons]
      split
      · show first.start + (min n (first.length : Int)).toNat - first.start ≤ first.length
        omega
      · exact le_rfl

/-- A plan that continues an earlier one does so stripped as well. -/
theorem StorePlan.mergeTurn_stripTail {a b out : StorePlan} {obsLen : Nat}
    (h : a.mergeTurn b obsLen = .ok out) (n : Nat) :
    ∃ out', a.mergeTurn (b.stripTail n) obsLen = .ok out' := by
  unfold mergeTurn appendResponse at h ⊢
  obtain ⟨fields, hfields, -⟩ := Except.bind_eq_ok.mp h
  obtain ⟨hsame, hcombine⟩ := Fields.zip_succeeds_iff.mp ⟨fields, hfields⟩
  obtain ⟨fields', hfields'⟩ : ∃ fields', Fields.zip (a.insertTokens obsLen).fields
      (b.stripTail n).fields Field.append = .ok fields' := by
    refine Fields.zip_succeeds_iff.mpr ⟨fun field => ?_, fun field x y hx hy => ?_⟩
    · rw [get_stripTail, Option.isSome_map]
      exact hsame field
    · rw [get_stripTail] at hy
      obtain ⟨new, hnew, rfl⟩ := Option.map_eq_some_iff.mp hy
      cases field with
      | samplingMask => exact ⟨_, rfl⟩
      | forward field =>
        obtain ⟨z, hz⟩ := hcombine (.forward field) x new hx hnew
        have hcovered := coveredRows_prefixRows new ((numRows new : Int) - n)
        have hrows : ¬ numRows x < new.coveredRows := by
          intro hlt
          simp [Field.append, ForwardField.append, if_pos hlt] at hz
        simp only [Field.append, ForwardField.append]
        rw [if_neg (by omega)]
        exact ⟨_, rfl⟩
  rw [hfields']
  exact ⟨_, rfl⟩

namespace SampleArrays

/-! ### Merging a stripped turn -/

section

variable {Shared : Type} {decode : List Int → String} {a b c : Sample Shared}

/-- The status is not validated. -/
theorem Sample.Valid.withStatus (h : a.Valid) (status : Status) :
    ({ a with status } : Sample Shared).Valid :=
  ⟨h.response, h.lossMask, h.rolloutLogProbs, h.topk, h.samplingMask, h.teacherLogProbs,
    h.opdReverseKl, h.routedExperts, h.indexerTopk, h.storePlan, h.spans, h.calls⟩

/-- A turn with another status merges into the sample with that status. -/
theorem PairMerged.withStatus (h : PairMerged decode a b c) (status : Status) :
    PairMerged decode a { b with status } { c with status } where
  validA := h.validA
  validB := h.validB.withStatus status
  samePrompt := h.samePrompt
  tokensStart := h.tokensStart
  observed := h.observed
  samplingMask := h.samplingMask
  storePlan := h.storePlan
  routedExperts := h.routedExperts
  indexerTopk := h.indexerTopk
  completed := h.completed
  shared := h.shared
  media := h.media
  topkTokenIds := h.topkTokenIds
  topkLogProbs := h.topkLogProbs
  student := h.student
  merged := by
    conv_lhs => rw [h.merged]
    rfl

theorem mergeSamplingMasks_succeeds {first second : Option RolloutSamplingMask}
    (h : first.isSome = second.isSome) (tokenIds : List Int) :
    ∃ out, mergeSamplingMasks first tokenIds second = .ok out := by
  cases first with
  | none =>
    cases second with
    | none => exact ⟨none, rfl⟩
    | some y => simp at h
  | some x =>
    cases second with
    | none => simp at h
    | some y =>
      obtain ⟨observation, hobservation, -⟩ := forcedSamplingMask_eq tokenIds
      obtain ⟨z, hz⟩ := RolloutSamplingMask.concatenate_succeeds [x, observation, y]
      refine ⟨some z, ?_⟩
      simp only [mergeSamplingMasks, hobservation, hz, Except.ok_bind]
      rfl

/-- The rows of a routed-expert array cover the tokens, or the media-expanded sequence. -/
def Sample.RowsLayout (expanded : Bool) (s : Sample Shared) : Prop :=
  ∀ array ∈ s.rolloutRoutedExperts, (array.rows.length : Int) =
    s.tokens.length - 1 + if expanded then s.media.extra else 0

/-- A later turn of the same layout has at least the earlier one's rows, even stripped. -/
theorem PairMerged.checkRows_routedExperts (h : PairMerged decode a b c) {expanded : Bool}
    (ha : a.RowsLayout expanded) (hb : b.RowsLayout expanded) {n : Nat} (hn : n ≤ b.responseLength) :
    checkRows .routedExperts a.rolloutRoutedExperts (b.rolloutRoutedExperts.map fun array =>
      { array with rows := dropTail n array.rows }) = .ok () := by
  have hlengths := h.lengths
  have hcheck := h.routedExperts
  have hmedia := h.media
  cases hrowsA : a.rolloutRoutedExperts with
  | none => rfl
  | some x =>
    rw [hrowsA] at hcheck
    cases hrowsB : b.rolloutRoutedExperts with
    | none =>
      rw [hrowsB] at hcheck
      cases hcheck
    | some y =>
      have hx := ha x hrowsA
      have hy := hb y hrowsB
      rw [hmedia] at hx
      rw [Option.map_some, checkRows, ensure_eq_ok, length_dropTail]
      omega

theorem PairMerged.checkRows_indexerTopk (h : PairMerged decode a b c) {n : Nat}
    (hn : n ≤ b.responseLength) :
    checkRows .indexerTopk a.rolloutIndexerTopk (b.rolloutIndexerTopk.map fun array =>
      { array with rows := dropTail n array.rows }) = .ok () := by
  have hlengths := h.lengths
  have hcheck := h.indexerTopk
  cases hrowsA : a.rolloutIndexerTopk with
  | none => rfl
  | some x =>
    rw [hrowsA] at hcheck
    cases hrowsB : b.rolloutIndexerTopk with
    | none =>
      rw [hrowsB] at hcheck
      cases hcheck
    | some y =>
      have hx := h.validA.indexerTopk x hrowsA
      have hy := h.validB.indexerTopk y hrowsB
      rw [Option.map_some, checkRows, ensure_eq_ok, length_dropTail]
      omega

theorem mergeTopkField_dropTail {α : Type} {fill : α} {gap : Nat}
    {as bs out : Option (CandidateArray α)} (h : mergeTopkField fill gap as bs = .ok out) (n : Nat) :
    ∃ out', mergeTopkField fill gap as
      (bs.map fun array => { array with rows := dropTail n array.rows }) = .ok out' := by
  rcases mergeTopkField_eq_ok h with ⟨rfl, rfl, -⟩ | ⟨x, y, rfl, rfl, hk, -⟩
  · exact ⟨none, rfl⟩
  · refine ⟨some ⟨x.k, joinTurns (List.replicate x.k fill) gap x.rows (dropTail n y.rows)⟩, ?_⟩
    rw [Option.map_some, mergeTopkField, if_neg (not_not.mpr hk)]

theorem mergeOpdStudentTopLogprobs_dropTail {obsLen aLength bLength n : Nat}
    {as bs out : Option (List (List (Int × Float64Bits)))}
    (h : mergeOpdStudentTopLogprobs obsLen as bs aLength bLength = .ok out) :
    ∃ out', mergeOpdStudentTopLogprobs obsLen as (bs.map (dropTail n)) aLength (bLength - n) =
      .ok out' := by
  cases as with
  | none =>
    cases bs with
    | none => exact ⟨none, rfl⟩
    | some y => cases h
  | some x =>
    cases bs with
    | none => cases h
    | some y =>
      rw [mergeOpdStudentTopLogprobs, check_bind_eq_ok, check_bind_eq_ok, ensure_eq_ok,
        ensure_eq_ok] at h
      refine ⟨some (joinTurns [] obsLen x (dropTail n y)), ?_⟩
      rw [Option.map_some, mergeOpdStudentTopLogprobs, check_bind_eq_ok, check_bind_eq_ok,
        ensure_eq_ok, ensure_eq_ok, length_dropTail]
      exact ⟨h.1, by rw [h.2.1], rfl⟩

/-- A turn that merges into a sample does so stripped. -/
theorem PairMerged.strip (h : PairMerged decode a b c) {expanded : Bool}
    (ha : a.RowsLayout expanded) (hb : b.RowsLayout expanded) (hexpanded : b.ExpandedPrompt)
    {n : Nat} (hn : n ≤ b.responseLength) {mask : Option RolloutSamplingMask}
    (hmask : Option.Rel (fun mask mask' => mask.prefixMask (b.responseLength - n) = .ok mask')
      b.rolloutSamplingMask mask) :
    ∃ c', PairMerged decode a (b.cut decode n mask) c' := by
  have hlengths := h.lengths
  have hobserved := h.observed
  have htokens : (b.cut decode n mask).tokens = b.tokens.take (b.tokens.length - n) := rfl
  -- the strip takes output tokens, so the observation between the turns is the same
  have hobs : obsLength a (b.cut decode n mask) = obsLength a b := by
    have : (b.cut decode n mask).responseLength = b.responseLength - n := rfl
    unfold obsLength
    rw [Sample.length_tokens_cut]
    omega
  have hobsTokens : obsTokens a (b.cut decode n mask) = obsTokens a b := by
    rw [obsTokens, obsTokens, hobs, htokens, List.drop_take, List.take_take]
    congr 1
    omega
  have hpresent : a.rolloutSamplingMask.isSome = mask.isSome := by
    have hsame : b.rolloutSamplingMask.isSome = mask.isSome := by
      generalize b.rolloutSamplingMask = old at hmask
      cases hmask <;> rfl
    rw [← hsame]
    rcases mergeSamplingMasks_eq_ok h.samplingMask with ⟨ha, hb, -⟩ | ⟨_, _, _, ha, hb, -, -⟩
    · rw [ha, hb]
    · rw [ha, hb]
      rfl
  obtain ⟨newMask, hnewMask⟩ := mergeSamplingMasks_succeeds hpresent (obsTokens a b)
  obtain ⟨newPlan, hnewPlan⟩ : ∃ plan, combinePlans a.rolloutStorePlan
      (b.rolloutStorePlan.map (·.stripTail n)) (·.mergeTurn · (obsLength a b)) = .ok plan := by
    rcases combinePlans_eq_ok h.storePlan with ⟨ha, hb, -⟩ | ⟨x, y, z, ha, hb, -, hz⟩
    · rw [ha, hb]
      exact ⟨none, rfl⟩
    · obtain ⟨out, hout⟩ := StorePlan.mergeTurn_stripTail hz n
      rw [ha, hb]
      refine ⟨some out, ?_⟩
      simp only [Option.map_some, combinePlans, hout]
      rfl
  obtain ⟨ids, hids⟩ := mergeTopkField_dropTail h.topkTokenIds n
  obtain ⟨logps, hlogps⟩ := mergeTopkField_dropTail h.topkLogProbs n
  obtain ⟨student, hstudent⟩ := @mergeOpdStudentTopLogprobs_dropTail _ _ _ n _ _ _ h.student
  refine ⟨mergedSample decode a (b.cut decode n mask) ids logps newMask newPlan student, ?_⟩
  constructor
  case validA => exact h.validA
  case validB => exact h.validB.cut_valid (by omega) hexpanded hn hmask
  case samePrompt => exact h.samePrompt
  case tokensStart =>
    rw [htokens, List.prefix_take_iff]
    exact ⟨h.tokensStart, by omega⟩
  case observed => rw [hobs]; exact hobserved
  case samplingMask => rw [hobsTokens]; exact hnewMask
  case storePlan => rw [hobs]; exact hnewPlan
  case routedExperts => exact h.checkRows_routedExperts ha hb hn
  case indexerTopk => exact h.checkRows_indexerTopk hn
  case completed => exact h.completed
  case shared => exact h.shared
  case media => exact h.media
  case topkTokenIds => rw [hobs]; exact hids
  case topkLogProbs => rw [hobs]; exact hlogps
  case student => rw [hobs]; exact hstudent
  case merged => rfl

/-! ### The first tokens of a sample -/

/-- `a` has the first tokens of `b`, with its response, and the same loss mask for them. -/
structure FirstTokens (a b : Sample Shared) : Prop where
  tokens : a.tokens <+: b.tokens
  outputStart : a.outputStart = b.outputStart
  lossMask : perToken a.lossMask 1 a.responseLength <+: perToken b.lossMask 1 b.responseLength

theorem FirstTokens.refl : FirstTokens a a := ⟨List.prefix_rfl, rfl, List.prefix_rfl⟩

theorem FirstTokens.trans (h : FirstTokens a b) (h' : FirstTokens b c) : FirstTokens a c :=
  ⟨h.tokens.trans h'.tokens, h.outputStart.trans h'.outputStart, h.lossMask.trans h'.lossMask⟩

/-- A merge keeps the first sample's tokens first. -/
theorem PairMerged.firstTokens (h : PairMerged decode a b c) : FirstTokens a c where
  tokens := h.tokens ▸ h.tokensStart
  outputStart := h.outputStart.symm
  lossMask := by
    rw [h.lossMask]
    show _ <+: joinTurns _ _ _ _
    rw [joinTurns, List.append_assoc]
    exact List.prefix_append _ _

/-- Merging with less of a turn gives less of the merged sample. -/
theorem PairMerged.firstTokens_of {b' c' : Sample Shared} (h : PairMerged decode a b c)
    (h' : PairMerged decode a b' c') (hb : FirstTokens b' b) : FirstTokens c' c where
  tokens := by rw [h.tokens, h'.tokens]; exact hb.tokens
  outputStart := h'.outputStart.trans h.outputStart.symm
  lossMask := by
    have hobs : obsLength a b' = obsLength a b := by
      have hstart := h.outputStart_later
      have hstart' := h'.outputStart_later
      have := hb.outputStart
      omega
    rw [h.lossMask, h'.lossMask, hobs]
    show joinTurns _ _ _ _ <+: joinTurns _ _ _ _
    rw [joinTurns, joinTurns]
    exact (List.prefix_append_right_inj _).mpr hb.lossMask

theorem firstTokens_cut {n : Nat} {mask : Option RolloutSamplingMask} (h : a.Valid)
    (hn : n ≤ a.responseLength) : FirstTokens (a.cut decode n mask) a where
  tokens := List.take_prefix _ _
  outputStart := by
    have hresponse : (a.cut decode n mask).responseLength = a.responseLength - n := rfl
    have := h.response
    rw [Sample.outputStart, Sample.outputStart, Sample.length_tokens_cut, hresponse]
    omega
  lossMask := by
    show perToken (a.lossMask.map (dropTail n)) 1 (a.responseLength - n) <+: _
    cases a.lossMask with
    | none =>
      show List.replicate (a.responseLength - n) (1 : Int) <+: List.replicate a.responseLength 1
      rw [← Nat.min_eq_left (show a.responseLength - n ≤ a.responseLength by omega),
        ← List.take_replicate]
      exact List.take_prefix _ _
    | some xs => exact List.take_prefix _ _

theorem FirstTokens.withStatus (h : FirstTokens a b) (status : Status) :
    FirstTokens { a with status } b := ⟨h.tokens, h.outputStart, h.lossMask⟩

/-! ### Merging a first part of a chain -/

/-- Turns merged one list after the other. -/
theorem Merges.append_inv {xs ys : List (Sample Shared)} (h : Merges decode a (xs ++ ys) c) :
    ∃ m, Merges decode a xs m ∧ Merges decode m ys c := by
  induction xs generalizing a with
  | nil => exact ⟨a, .nil a, h⟩
  | cons x xs ih =>
    cases h with
    | cons hgap hpair hrest =>
      obtain ⟨m, hxs, hys⟩ := ih hrest
      exact ⟨m, .cons hgap hpair hxs, hys⟩

theorem Merges.append {xs ys : List (Sample Shared)} {m : Sample Shared}
    (h : Merges decode a xs m) (h' : Merges decode m ys c) : Merges decode a (xs ++ ys) c := by
  induction h with
  | nil => exact h'
  | cons hgap hpair _ ih => exact .cons hgap hpair (ih h')

theorem Merges.firstTokens {xs : List (Sample Shared)} (h : Merges decode a xs c) :
    FirstTokens a c := by
  induction h with
  | nil => exact .refl
  | cons _ hpair _ ih => exact hpair.firstTokens.trans ih

/-- The merged sample has the tokens, the status and the layout of the last turn. -/
theorem Merges.last {xs : List (Sample Shared)} (h : Merges decode a xs c) :
    ∃ last, (a :: xs).getLast? = some last ∧ c.tokens = last.tokens ∧ c.status = last.status := by
  induction h with
  | nil acc => exact ⟨acc, rfl, rfl, rfl⟩
  | @cons acc acc' merged turn turns _ hpair _ ih =>
    obtain ⟨last, hlast, htokens, hstatus⟩ := ih
    rw [List.getLast?_cons_cons]
    cases turns with
    | nil =>
      cases hlast
      exact ⟨turn, rfl, htokens.trans hpair.tokens, hstatus.trans hpair.status⟩
    | cons next turns => exact ⟨last, by simpa using hlast, htokens, hstatus⟩

theorem Merges.withStatus {xs : List (Sample Shared)} (h : Merges decode a (xs ++ [b]) c)
    (status : Status) : Merges decode a (xs ++ [{ b with status }]) { c with status } := by
  obtain ⟨m, hxs, hb⟩ := h.append_inv
  cases hb with
  | cons hgap hpair hrest =>
    cases hrest
    refine hxs.append (.cons ?_ (hpair.withStatus status) (.nil _))
    exact hgap

/-! ### What the truncation keeps -/

/-- The status of a turn after which later ones are dropped. -/
def cutOff (status : Status) : Status := if status = .completed then .truncated else status

theorem cutOff_ne_completed (status : Status) : cutOff status ≠ .completed := by
  unfold cutOff
  split
  · simp
  · assumption

theorem truncateLast_concat (xs : List (Sample Shared)) (last : Sample Shared) :
    truncateLast (xs ++ [last]) = xs ++ [{ last with status := cutOff last.status }] := by
  unfold truncateLast cutOff
  rw [List.getLast?_concat]
  by_cases hstatus : last.status = .completed
  · simp only [if_pos hstatus, List.dropLast_concat]
  · simp only [if_neg hstatus]

/-- The samples kept of a chain whose first ones, `pre`, fit into the budget. -/
inductive Truncates (decode : List Int → String) (maxSeqLen : Int) (pre : List (Sample Shared)) :
    List (Sample Shared) → List (Sample Shared) → Prop
  /-- every sample fits -/
  | all : Truncates decode maxSeqLen pre [] pre
  /-- the budget ends before the output of the next sample -/
  | before (s : Sample Shared) (rest : List (Sample Shared)) (hlong : maxSeqLen < s.tokens.length)
      (hprompt : maxSeqLen ≤ s.outputStart) :
      Truncates decode maxSeqLen pre (s :: rest) (truncateLast pre)
  /-- the budget ends within the output of the next sample -/
  | within (s : Sample Shared) (rest : List (Sample Shared)) (n : Nat)
      (mask : Option RolloutSamplingMask) (hn : n < s.responseLength)
      (hlength : (s.tokens.length : Int) = maxSeqLen + n) (hpos : 0 < n)
      (hmask : Option.Rel (fun mask mask' => mask.prefixMask (s.responseLength - n) = .ok mask')
        s.rolloutSamplingMask mask) :
      Truncates decode maxSeqLen pre (s :: rest)
        (pre ++ [{ s.cut decode n mask with status := .truncated }])

/-- The truncation of valid samples keeps the first ones that fit, and possibly one more cut. -/
theorem truncateLoop_eq_ok {maxSeqLen : Int} (samples result : List (Sample Shared))
    (hvalid : ∀ s ∈ samples, s.Valid) :
    ∃ pre rest kept, samples = pre ++ rest ∧
      (∀ s ∈ pre, (s.tokens.length : Int) ≤ maxSeqLen) ∧
      truncateLoop decode maxSeqLen result samples = .ok kept ∧
      Truncates decode maxSeqLen (result ++ pre) rest kept := by
  induction samples generalizing result with
  | nil => exact ⟨[], [], result, rfl, by simp, rfl, by simpa using .all⟩
  | cons s samples ih =>
    have hs := hvalid s (by simp)
    have hresponse := hs.response
    unfold truncateLoop
    by_cases hfits : (s.tokens.length : Int) ≤ maxSeqLen
    · obtain ⟨pre, rest, kept, rfl, hpre, hloop, hkept⟩ :=
        ih (result ++ [s]) fun s hs => hvalid s (by simp [hs])
      refine ⟨s :: pre, rest, kept, rfl, ?_, by simpa only [if_pos hfits] using hloop,
        by simpa using hkept⟩
      intro x hx
      rcases List.mem_cons.mp hx with rfl | hx
      · exact hfits
      · exact hpre x hx
    · by_cases hallowed : (s.responseLength : Int) - (s.tokens.length - maxSeqLen) ≤ 0
      · refine ⟨[], s :: samples, truncateLast result, rfl, by simp,
          by simp only [if_neg hfits, if_pos hallowed], ?_⟩
        rw [List.append_nil]
        refine .before s samples (by omega) ?_
        unfold Sample.outputStart
        omega
      · obtain ⟨mask, -, hmask, hstrip⟩ := hs.strip_eq decode
          (show ((s.tokens.length : Int) - maxSeqLen).toNat ≠ 0 by omega)
          (show ((s.tokens.length : Int) - maxSeqLen).toNat ≤ s.responseLength by omega)
        refine ⟨[], s :: samples, result ++ [{ s.cut decode
          ((s.tokens.length : Int) - maxSeqLen).toNat mask with status := .truncated }], rfl,
          by simp, ?_, ?_⟩
        · simp only [if_neg hfits, if_neg hallowed, hstrip]
          rfl
        · rw [List.append_nil]
          exact .within s samples _ mask (by omega) (by omega) (by omega) hmask

/-! ### Merging what is kept -/

variable {maxSeqLen : Int} {merged first : Sample Shared} {done : List (Sample Shared)}

/-- What merging the kept samples gives, against the whole chain. -/
structure CutOf (maxSeqLen : Int) (merged cut : Sample Shared) : Prop where
  fits : (cut.tokens.length : Int) ≤ maxSeqLen
  first : FirstTokens cut merged
  status : cut.tokens ≠ merged.tokens → cut.status ≠ .completed

/-- The merge stops at the same turn if the next one is only cut or marked. -/
theorem Stops.congr {dropped dropped' : List (Sample Shared)} (h : Stops merged dropped)
    (hnext : ∀ next' ∈ dropped'.head?, ∃ next ∈ dropped.head?,
      introducesReplayGap merged next' = introducesReplayGap merged next) :
    Stops merged dropped' := by
  intro next' hmem hextends
  obtain ⟨next, hnextMem, hgap⟩ := hnext next' hmem
  exact h next hnextMem ⟨hextends.1, hgap ▸ hextends.2⟩

theorem introducesReplayGap_cut {s : Sample Shared} {n : Nat} {mask : Option RolloutSamplingMask}
    (hmask : Option.Rel (fun mask mask' => mask.prefixMask (s.responseLength - n) = .ok mask')
      s.rolloutSamplingMask mask) (status : Status) :
    introducesReplayGap a { s.cut decode n mask with status } = introducesReplayGap a s := by
  have hsame : mask.isNone = s.rolloutSamplingMask.isNone := by
    generalize s.rolloutSamplingMask = old at hmask
    cases hmask <;> rfl
  show ((_ && Option.isNone (Option.map _ _)) || (_ && Option.isNone (Option.map _ _)) ||
    (_ && mask.isNone)) = _
  rw [Option.isNone_map, Option.isNone_map, hsame]
  rfl

/-- The layout of the last turn is the layout of the merged sample. -/
theorem Merges.rowsLayout {expanded : Bool} (h : Merges decode first done merged)
    (hfirst : first.RowsLayout expanded) (hdone : ∀ s ∈ done, s.RowsLayout expanded) :
    merged.RowsLayout expanded := by
  induction h with
  | nil => exact hfirst
  | @cons acc acc' merged turn turns _ hpair _ ih =>
    refine ih ?_ fun s hs => hdone s (by simp [hs])
    have hmedia : acc'.media = turn.media := by
      rw [hpair.merged]
      exact hpair.media
    intro array harray
    rw [hpair.rolloutRoutedExperts] at harray
    rw [hpair.tokens, hmedia]
    exact hdone turn (by simp) array harray

section

variable [DecidableEq Shared]

theorem Merges.mergeSamples_eq {dropped : List (Sample Shared)} (h : Merges decode first done merged)
    (hstops : Stops merged dropped) :
    mergeSamples decode ((first :: done) ++ dropped) = .ok merged :=
  mergeLoop_eq_ok.mpr ⟨done, dropped, rfl, h, hstops⟩

/-- Marking the last turn as cut off marks the merged sample. -/
theorem Merges.mergeSamples_truncateLast (h : Merges decode first done merged) :
    mergeSamples decode (truncateLast (first :: done)) =
      .ok { merged with status := cutOff merged.status } := by
  rcases List.eq_nil_or_concat' done with rfl | ⟨turns, last, rfl⟩
  · cases h
    exact congrArg (mergeSamples decode) (truncateLast_concat [] _)
  · obtain ⟨_, hlast, -, hstatus⟩ := h.last
    rw [← List.cons_append, List.getLast?_concat] at hlast
    cases hlast
    have hstops : Stops { merged with status := cutOff last.status } [] := by simp [Stops]
    have hmarked := (h.withStatus (cutOff last.status)).mergeSamples_eq hstops
    rw [← List.cons_append, truncateLast_concat, List.cons_append, hstatus]
    rwa [List.append_nil] at hmarked

/-- The whole merged chain is among the samples kept: the merge gives the same tokens. -/
theorem Truncates.cutOf_of_kept {later tail kept : List (Sample Shared)}
    (h : Truncates decode maxSeqLen ((first :: done) ++ later) tail kept)
    (hfits : ∀ s ∈ (first :: done) ++ later, (s.tokens.length : Int) ≤ maxSeqLen)
    (hmerges : Merges decode first done merged) (hstops : Stops merged (later ++ tail)) :
    ∃ cut, mergeSamples decode kept = .ok cut ∧ CutOf maxSeqLen merged cut := by
  obtain ⟨last, hlast, htokens, -⟩ := hmerges.last
  have hlength : (merged.tokens.length : Int) ≤ maxSeqLen := by
    rw [htokens]
    exact hfits last (List.mem_append_left _ (List.mem_of_getLast? hlast))
  have hself : CutOf maxSeqLen merged merged := ⟨hlength, .refl, fun hne => absurd rfl hne⟩
  cases h with
  | all =>
    rw [List.append_nil] at hstops
    exact ⟨merged, hmerges.mergeSamples_eq hstops, hself⟩
  | before s rest hlong hprompt =>
    rcases List.eq_nil_or_concat' later with rfl | ⟨later, l, rfl⟩
    · -- the last turn merged is the last one kept
      rw [List.append_nil]
      exact ⟨_, hmerges.mergeSamples_truncateLast, hlength,
        FirstTokens.refl.withStatus _, fun hne => absurd rfl hne⟩
    · rw [← List.append_assoc, truncateLast_concat, List.append_assoc]
      refine ⟨merged, hmerges.mergeSamples_eq (hstops.congr fun next' hnext' => ?_), hself⟩
      cases later with
      | nil =>
        cases hnext'
        exact ⟨l, rfl, rfl⟩
      | cons x later =>
        exact ⟨next', hnext', rfl⟩
  | within s rest n mask hn hlen hpos hmask =>
    rw [List.append_assoc]
    refine ⟨merged, hmerges.mergeSamples_eq (hstops.congr fun next' hnext' => ?_), hself⟩
    cases later with
    | nil =>
      cases hnext'
      exact ⟨s, rfl, introducesReplayGap_cut hmask _⟩
    | cons l later =>
      exact ⟨next', hnext', rfl⟩

/-- The merged chain goes on after the samples kept: the merge gives its first tokens. -/
theorem Truncates.cutOf_of_dropped {s m c : Sample Shared} {rest later kept : List (Sample Shared)}
    (h : Truncates decode maxSeqLen (first :: done) (s :: rest) kept)
    (hfits : ∀ s ∈ first :: done, (s.tokens.length : Int) ≤ maxSeqLen)
    (hmerges : Merges decode first done m) (hgap : introducesReplayGap m s = false)
    (hpair : PairMerged decode m s c) (hlater : Merges decode c later merged) {expanded : Bool}
    (hm : m.RowsLayout expanded) (hs : s.RowsLayout expanded) (hprompt : s.ExpandedPrompt) :
    ∃ cut, mergeSamples decode kept = .ok cut ∧ CutOf maxSeqLen merged cut := by
  cases h with
  | before s rest hlong hstart =>
    obtain ⟨last, hlast, htokens, -⟩ := hmerges.last
    refine ⟨_, hmerges.mergeSamples_truncateLast, ?_, ?_, fun _ => cutOff_ne_completed _⟩
    · show (m.tokens.length : Int) ≤ maxSeqLen
      rw [htokens]
      exact hfits last (List.mem_of_getLast? hlast)
    · exact (hpair.firstTokens.trans hlater.firstTokens).withStatus _
  | within s rest n mask hn hlength hpos hmask =>
    obtain ⟨c', hc'⟩ := hpair.strip hm hs hprompt hn.le hmask
    have hcut := hc'.withStatus .truncated
    have hall : Merges decode first (done ++ [{ s.cut decode n mask with status := .truncated }])
        { c' with status := .truncated } :=
      hmerges.append (.cons ((introducesReplayGap_cut hmask _).trans hgap) hcut (.nil _))
    have hstops : Stops { c' with status := .truncated } [] := by simp [Stops]
    refine ⟨{ c' with status := .truncated }, ?_, ?_, ?_, fun _ => by simp⟩
    · have hmerge := hall.mergeSamples_eq hstops
      rwa [List.append_nil, ← List.cons_append] at hmerge
    · have := hpair.validB.response
      show (c'.tokens.length : Int) ≤ maxSeqLen
      rw [hc'.tokens, Sample.length_tokens_cut]
      omega
    · have hfirst := hpair.firstTokens_of hc' (firstTokens_cut hpair.validB hn.le)
      exact (hfirst.trans hlater.firstTokens).withStatus _

/-- The chain is cut within its first sample. -/
theorem Truncates.cutOf_first {rest kept : List (Sample Shared)}
    (h : Truncates decode maxSeqLen [] (first :: rest) kept) (hfirst : first.Valid)
    (hmerges : Merges decode first done merged) :
    (kept = [] ∧ maxSeqLen < first.tokens.length ∧ maxSeqLen ≤ first.outputStart) ∨
      ∃ cut, mergeSamples decode kept = .ok cut ∧ CutOf maxSeqLen merged cut := by
  cases h with
  | before s rest hlong hstart => exact .inl ⟨rfl, hlong, hstart⟩
  | within s rest n mask hn hlength hpos hmask =>
    refine .inr ⟨_, rfl, ?_, ?_, fun _ => by simp⟩
    · have := hfirst.response
      show ((first.cut decode n mask).tokens.length : Int) ≤ maxSeqLen
      rw [Sample.length_tokens_cut]
      omega
    · exact ((firstTokens_cut hfirst hn.le).trans hmerges.firstTokens).withStatus _

end

end

/-- Merging a chain of turns truncated to `maxSeqLen` tokens gives at most that many tokens, the
    first of the merged whole chain, with their loss mask, and a sample that is not complete if
    any token is missing; unless the first prompt leaves no room for output, and nothing is
    kept. -/
theorem truncate_then_merge {Shared : Type} [DecidableEq Shared] (decode : List Int → String)
    (samples : List (Sample Shared)) (maxSeqLen : Int) (expanded : Bool) (merged : Sample Shared)
    (hvalid : ∀ s ∈ samples, s.validate = .ok ()) (hlayout : ∀ s ∈ samples, s.RowsLayout expanded)
    (hprompt : ∀ s ∈ samples, s.ExpandedPrompt)
    (hmerge : mergeSamples decode samples = .ok merged) :
    ∃ kept, truncateSamplesByTotalTokens decode samples maxSeqLen = .ok kept ∧
      ((kept = [] ∧ ∃ first ∈ samples.head?,
          maxSeqLen < first.tokens.length ∧ maxSeqLen ≤ first.outputStart) ∨
        ∃ cut, mergeSamples decode kept = .ok cut ∧ CutOf maxSeqLen merged cut) := by
  have hvalid : ∀ s ∈ samples, s.Valid := fun s hs => Sample.validate_eq_ok.mp (hvalid s hs)
  obtain ⟨pre, rest, kept, hsplit, hfits, hloop, hkept⟩ :=
    @truncateLoop_eq_ok _ decode maxSeqLen samples [] hvalid
  rw [List.nil_append] at hkept
  refine ⟨kept, hloop, ?_⟩
  cases samples with
  | nil => cases hmerge
  | cons first turns =>
    obtain ⟨done, dropped, rfl, hmerges, hstops⟩ := mergeLoop_eq_ok.mp hmerge
    rcases List.append_eq_append_iff.mp (show (first :: done) ++ dropped = pre ++ rest from hsplit)
      with ⟨later, rfl, rfl⟩ | ⟨later, hpre, rfl⟩
    · -- every turn that was merged is kept
      exact .inr (hkept.cutOf_of_kept hfits hmerges hstops)
    · cases later with
      | nil =>
        rw [List.append_nil] at hpre
        subst hpre
        have hkept' : Truncates decode maxSeqLen ((first :: done) ++ []) dropped kept := by
          simpa using hkept
        exact .inr (hkept'.cutOf_of_kept (by simpa using hfits) hmerges hstops)
      | cons s later =>
        cases pre with
        | nil =>
          -- the first turn itself does not fit
          obtain ⟨rfl, rfl⟩ := List.cons.inj hpre
          rcases hkept.cutOf_first (hvalid first (by simp)) hmerges with hempty | hcut
          · exact .inl ⟨hempty.1, first, rfl, hempty.2⟩
          · exact .inr hcut
        | cons x pre =>
          obtain ⟨rfl, rfl⟩ := List.cons.inj hpre
          obtain ⟨m, hpreMerges, hlater⟩ := hmerges.append_inv
          cases hlater with
          | cons hgap hpair hlater =>
            have hm := hpreMerges.rowsLayout (hlayout first (by simp)) fun s hs =>
              hlayout s (by simp [hs])
            exact .inr (hkept.cutOf_of_dropped hfits hpreMerges hgap hpair hlater hm
              (hlayout s (by simp)) (hprompt s (by simp)))

/-- The two turns, cut to five tokens: the second one is dropped, and the first is TRUNCATED. -/
theorem truncate_then_merge_bothTurns :
    ∃ kept, truncateSamplesByTotalTokens (fun _ => "") [firstTurn, secondTurn] 5 = .ok kept ∧
      ((kept = [] ∧ ∃ first ∈ [firstTurn, secondTurn].head?,
          (5 : Int) < first.tokens.length ∧ (5 : Int) ≤ first.outputStart) ∨
        ∃ cut, mergeSamples (fun _ => "") kept = .ok cut ∧ CutOf 5 bothTurns cut) := by
  have hmem : ∀ s ∈ [firstTurn, secondTurn], s = firstTurn ∨ s = secondTurn := by simp
  refine truncate_then_merge (fun _ => "") [firstTurn, secondTurn] 5 false bothTurns ?_ ?_ ?_ rfl
  · intro s hs
    rcases hmem s hs with rfl | rfl
    · decide
    · decide
  · intro s hs array harray
    rcases hmem s hs with rfl | rfl
    · cases harray
      rfl
    · cases harray
      rfl
  · intro s hs array harray
    rcases hmem s hs with rfl | rfl
    · cases harray
      exact .inl rfl
    · cases harray
      exact .inl rfl

/-- A turn whose media expand by three tokens, with rows for the expanded sequence. -/
def expandedTurn : Sample Unit where
  shared := ()
  tokens := [1, 2]
  media := { mmVisionNumPatches := [4] }
  responseLength := 1
  rolloutRoutedExperts := some ⟨(1, 1), [[[0]], [[1]], [[2]], [[3]]]⟩
  status := .completed

/-- A later turn with rows for the tokens. -/
def plainTurn : Sample Unit where
  shared := ()
  tokens := [1, 2, 3, 4, 5, 6, 7]
  media := { mmVisionNumPatches := [4] }
  responseLength := 4
  rolloutRoutedExperts := some ⟨(1, 1), [[[0]], [[1]], [[2]], [[3]], [[4]], [[5]]]⟩
  status := .completed

/-- Nothing is kept of a turn whose prompt is longer than the budget; and of turns whose rows
    are laid out differently, the second may be left with fewer rows than the first.  Neither
    merges, although the whole chain does. -/
theorem truncate_then_merge_fails :
    (firstTurn.validate = .ok () ∧ mergeSamples (fun _ => "") [firstTurn] = .ok firstTurn ∧
      truncateSamplesByTotalTokens (fun _ => "") [firstTurn] 1 = .ok [] ∧
      mergeSamples (fun _ => "") ([] : List (Sample Unit)) = .error .noSamples) ∧
    (expandedTurn.validate = .ok () ∧ plainTurn.validate = .ok () ∧
      (∃ merged, mergeSamples (fun _ => "") [expandedTurn, plainTurn] = .ok merged) ∧
      ∃ kept, truncateSamplesByTotalTokens (fun _ => "") [expandedTurn, plainTurn] 4 = .ok kept ∧
        mergeSamples (fun _ => "") kept = .error (.fewerRows .routedExperts 4 3)) :=
  ⟨⟨by decide, rfl, rfl, rfl⟩, by decide, by decide, ⟨_, rfl⟩, _, rfl, rfl⟩

end SampleArrays

end Miles.Rollout
