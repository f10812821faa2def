import Miles.Spec.Rollout.SampleValid

/-!
# Stripping output tokens

Stripping the last tokens of a valid sample leaves a valid sample that describes the tokens
before them, in every per-token array, and stripping twice is stripping once.

A sample whose routed-expert rows cover the media-expanded sequence must also have a
nonempty prompt there; media that expand to no token can take all of it away.
-/

namespace Miles.Rollout

open PieceTable (numRows)

/-! ### Dropping the tail of a list -/

namespace SampleArrays

theorem length_dropTail {α : Type} (n : Nat) (xs : List α) :
    (dropTail n xs).length = xs.length - n := by
  rw [dropTail, List.length_take]
  omega

theorem dropTail_dropTail {α : Type} (a b : Nat) (xs : List α) :
    dropTail b (dropTail a xs) = dropTail (a + b) xs := by
  rw [dropTail, length_dropTail, dropTail, dropTail, List.take_take]
  congr 1
  omega

end SampleArrays

/-! ### The first supports of a mask -/

namespace RolloutSamplingMask

/-- The ids the token at position `t` was sampled from. -/
def support (mask : RolloutSamplingMask) (t : Nat) : List Int :=
  (mask.ids.take (mask.offsets.getD (t + 1) 0)).drop (mask.offsets.getD t 0)

theorem eq_of_arrays {a b : RolloutSamplingMask} (hids : a.ids = b.ids)
    (hoffsets : a.offsets = b.offsets) : a = b := by
  cases a
  cases b
  cases hids
  cases hoffsets
  rfl

theorem offsets_length (mask : RolloutSamplingMask) : mask.offsets.length = mask.length + 1 := by
  have hstart := mask.starts
  cases hoffsets : mask.offsets with
  | nil => simp [hoffsets] at hstart
  | cons first rest => simp [length, hoffsets]

theorem getElem?_offsets (mask : RolloutSamplingMask) {t : Nat} (ht : t ≤ mask.length) :
    mask.offsets[t]? = some (mask.offsets.getD t 0) := by
  have hlt : t < mask.offsets.length := by
    rw [mask.offsets_length]
    omega
  rw [List.getD_eq_getElem?_getD, List.getElem?_eq_getElem hlt]
  rfl

/-- Offsets do not go back. -/
theorem offsets_mono (mask : RolloutSamplingMask) {s t : Nat} (hst : s ≤ t)
    (ht : t ≤ mask.length) : mask.offsets.getD s 0 ≤ mask.offsets.getD t 0 := by
  rcases Nat.eq_or_lt_of_le hst with rfl | hlt
  · exact le_rfl
  · have hpairwise := List.isChain_iff_pairwise.mp mask.increasing
    have hs := mask.getElem?_offsets (show s ≤ mask.length by omega)
    have ht' := mask.getElem?_offsets ht
    obtain ⟨hs', hs⟩ := List.getElem?_eq_some_iff.mp hs
    obtain ⟨ht'', ht'⟩ := List.getElem?_eq_some_iff.mp ht'
    have := List.pairwise_iff_getElem.mp hpairwise s t hs' ht'' hlt
    omega

theorem offsets_last (mask : RolloutSamplingMask) :
    mask.offsets.getD mask.length 0 = mask.ids.length := by
  have hend := mask.ends
  rw [List.getLast?_eq_getElem?, mask.offsets_length, Nat.add_sub_cancel,
    mask.getElem?_offsets le_rfl] at hend
  exact Option.some.inj hend

/-- A mask has a prefix of every length up to its own. -/
theorem prefixMask_of_le (mask : RolloutSamplingMask) {n : Nat} (hn : n ≤ mask.length) :
    ∃ new, mask.prefixMask n = .ok new ∧ new.ids = mask.ids.take (mask.offsets.getD n 0) ∧
      new.offsets = mask.offsets.take (n + 1) := by
  unfold prefixMask
  rw [if_neg (by omega)]
  by_cases heq : n = mask.length
  · rw [if_pos heq]
    refine ⟨mask, rfl, ?_, ?_⟩
    · rw [heq, mask.offsets_last, List.take_length]
    · rw [heq, ← mask.offsets_length, List.take_length]
  · rw [if_neg heq]
    have hcount : mask.offsets.getD n 0 ≤ mask.ids.length := by
      rw [← mask.offsets_last]
      exact mask.offsets_mono hn le_rfl
    have hstart : (mask.offsets.take (n + 1)).head? = some 0 := by
      rw [List.head?_take, if_neg (by omega)]
      exact mask.starts
    have hend : (mask.offsets.take (n + 1)).getLast? =
        some (mask.ids.take (mask.offsets.getD n 0)).length := by
      have hlen : (mask.offsets.take (n + 1)).length = n + 1 := by
        rw [List.length_take, mask.offsets_length]
        omega
      rw [List.getLast?_eq_getElem?, hlen, Nat.add_sub_cancel, List.getElem?_take,
        if_pos (by omega), mask.getElem?_offsets hn, List.length_take, Nat.min_eq_left hcount]
    have hchain : (mask.offsets.take (n + 1)).IsChain (· < ·) := mask.increasing.take (n + 1)
    simp only [ofArrays]
    rw [dif_pos ⟨hstart, hend⟩, dif_pos hchain]
    exact ⟨_, rfl, rfl, rfl⟩

variable {mask new : RolloutSamplingMask} {n : Nat}

/-- A prefix of a mask takes the rows from the front. -/
theorem prefixMask_eq_ok (h : mask.prefixMask n = .ok new) :
    n ≤ mask.length ∧ new.ids = mask.ids.take (mask.offsets.getD n 0) ∧
      new.offsets = mask.offsets.take (n + 1) := by
  have hn : n ≤ mask.length := by
    by_contra hlt
    rw [prefixMask, if_pos (by omega)] at h
    cases h
  obtain ⟨new', h', hnew⟩ := mask.prefixMask_of_le hn
  rw [h] at h'
  cases h'
  exact ⟨hn, hnew⟩

theorem length_prefixMask (h : mask.prefixMask n = .ok new) : new.length = n := by
  obtain ⟨hn, _, hoffsets⟩ := prefixMask_eq_ok h
  rw [length, hoffsets, List.length_take, mask.offsets_length]
  omega

theorem getD_offsets_prefixMask (h : mask.prefixMask n = .ok new) {t : Nat} (ht : t ≤ n) :
    new.offsets.getD t 0 = mask.offsets.getD t 0 := by
  obtain ⟨_, _, hoffsets⟩ := prefixMask_eq_ok h
  rw [hoffsets, List.getD_eq_getElem?_getD, List.getD_eq_getElem?_getD, List.getElem?_take,
    if_pos (by omega)]

/-- A prefix has the supports of its tokens. -/
theorem support_prefixMask (h : mask.prefixMask n = .ok new) {t : Nat} (ht : t < n) :
    new.support t = mask.support t := by
  obtain ⟨hn, hids, _⟩ := prefixMask_eq_ok h
  have hle := mask.offsets_mono (show t + 1 ≤ n by omega) hn
  rw [support, support, getD_offsets_prefixMask h (by omega), getD_offsets_prefixMask h (by omega),
    hids, List.take_take, Nat.min_eq_left hle]

/-- A second, shorter prefix is the only one that counts. -/
theorem prefixMask_prefixMask (h : mask.prefixMask n = .ok new) {m : Nat} (hm : m ≤ n) :
    new.prefixMask m = mask.prefixMask m := by
  obtain ⟨hn, hids, hoffsets⟩ := prefixMask_eq_ok h
  have hle := mask.offsets_mono hm hn
  obtain ⟨a, ha, haids, haoffsets⟩ :=
    new.prefixMask_of_le (show m ≤ new.length by rw [length_prefixMask h]; exact hm)
  obtain ⟨b, hb, hbids, hboffsets⟩ := mask.prefixMask_of_le (show m ≤ mask.length by omega)
  rw [ha, hb]
  congr 1
  apply eq_of_arrays
  · rw [haids, hbids, getD_offsets_prefixMask h hm, hids, List.take_take, Nat.min_eq_left hle]
  · rw [haoffsets, hboffsets, hoffsets, List.take_take]
    congr 1
    omega

end RolloutSamplingMask

/-! ### The first rows of a store plan -/

theorem Fields.map_get {α β : Type} (fields : Fields α) (f : Field → α → β) (field : Field) :
    (fields.map f).get field = (fields.get field).map (f field) := by
  cases field with
  | samplingMask => rfl
  | forward field => cases field <;> rfl

namespace StorePlan

theorem get_stripTail (plan : StorePlan) (n : Nat) (field : Field) :
    (plan.stripTail n).fields.get field =
      (plan.fields.get field).map fun segs => segs.prefixRows ((numRows segs : Int) - n) :=
  Fields.map_get _ _ _

/-- Two strips are one. -/
theorem stripTail_stripTail (plan : StorePlan) (a b : Nat) :
    (plan.stripTail a).stripTail b = plan.stripTail (a + b) := by
  have hsegs : ∀ segs : Segments,
      Segments.prefixRows (segs.prefixRows ((numRows segs : Int) - a))
        ((numRows (segs.prefixRows ((numRows segs : Int) - a)) : Int) - b) =
      segs.prefixRows ((numRows segs : Int) - (a + b : Nat)) := by
    intro segs
    unfold Segments.prefixRows
    rw [PieceTable.numRows_take]
    by_cases hpos : (numRows segs : Int) - a ≤ 0
    · rw [PieceTable.take_of_nonpos segs hpos, PieceTable.take_of_nonpos segs (by omega)]
      rfl
    · rw [PieceTable.take_take _ (by omega)]
      congr 1
      omega
  have hcomp : ((fun segs : Segments => segs.prefixRows ((numRows segs : Int) - b)) ∘
      fun segs : Segments => segs.prefixRows ((numRows segs : Int) - a)) =
        fun segs : Segments => segs.prefixRows ((numRows segs : Int) - (a + b : Nat)) :=
    funext hsegs
  simp only [stripTail, Fields.map, Option.map_map, hcomp]

/-- The rows of a field that are left. -/
theorem rows_prefixRows (segs : Segments) (n : Nat) :
    PieceTable.rows (segs.prefixRows ((numRows segs : Int) - n)) =
      (PieceTable.rows segs).take (numRows segs - n) := by
  rw [Segments.prefixRows, PieceTable.rows_take]
  congr 1
  omega

end StorePlan

namespace SampleArrays

/-! ### Weight versions up to a position -/

theorem WeightVersionsPerCall.startedBy_iff {call : WeightVersionsPerCall} {numTokens : Nat} :
    call.startedBy numTokens ↔ ∀ outputStart ∈ call.outputStart, outputStart ≤ numTokens := by
  unfold startedBy
  cases call.outputStart with
  | none => simp
  | some outputStart => simp

/-- What a cut keeps of the calls, the first one at a time. -/
theorem cutCalls_cons (numTokens : Nat) (call : WeightVersionsPerCall)
    (calls : List WeightVersionsPerCall) :
    cutCalls numTokens (call :: calls) =
      if call.startedBy numTokens then
        { call with spans := cutSpans numTokens call.spans } :: cutCalls numTokens calls
      else cutCalls numTokens calls := by
  unfold cutCalls
  by_cases hstart : call.startedBy numTokens
  · rw [List.filter_cons, if_pos hstart, List.map_cons, if_pos hstart]
  · rw [List.filter_cons, if_neg hstart, if_neg hstart]

/-- A call that started within the cut still validates, and its spans end at the cut. -/
theorem WeightVersionsPerCall.Valid.cut {call : WeightVersionsPerCall} {n numTokens : Nat}
    (h : call.Valid n) (hstart : call.startedBy numTokens) :
    ({ call with spans := cutSpans numTokens call.spans } : WeightVersionsPerCall).Valid
      numTokens where
  versions := by
    intro span hspan
    rcases List.mem_append.mp hspan with hspan | hspan
    · exact h.versions span (List.mem_append_left _ hspan)
    · obtain ⟨old, hold, rfl⟩ := List.mem_map.mp hspan
      have hversion := h.versions old (List.mem_append_right _ (List.mem_of_mem_filter hold))
      split <;> exact hversion
  prefillAnchored := h.prefillAnchored
  startsIn := startedBy_iff.mp hstart
  prefillCovers := h.prefillCovers
  outputRuns := by
    intro outputStart hmem
    obtain ⟨outputEnd, hrun, _⟩ := h.outputRuns outputStart hmem
    have hcut := startedBy_iff.mp hstart outputStart hmem
    exact ⟨_, assertSpansRunInOrder_cutSpans hrun hcut, by omega⟩

/-- The spans of a call that starts after the cut all do. -/
theorem WeightVersionsPerCall.Valid.cutSpans_eq_nil {call : WeightVersionsPerCall}
    {n numTokens : Nat} (h : call.Valid n) (hstart : ¬ call.startedBy numTokens) :
    cutSpans numTokens call.spans = [] := by
  rw [startedBy_iff] at hstart
  push Not at hstart
  obtain ⟨outputStart, houtput, hafter⟩ := hstart
  obtain ⟨_, hrun, _⟩ := h.outputRuns outputStart houtput
  apply SampleArrays.cutSpans_eq_nil
  intro span hspan
  have := (assertSpansRunInOrder_bounds hrun).2 span hspan
  omega

/-- Cutting the calls cuts their spans, whichever call they belong to. -/
theorem flatMap_cutCalls {calls : List WeightVersionsPerCall} {n numTokens : Nat}
    (h : ∀ call ∈ calls, call.Valid n) :
    (cutCalls numTokens calls).flatMap (·.spans) =
      cutSpans numTokens (calls.flatMap (·.spans)) := by
  induction calls with
  | nil => rfl
  | cons call calls ih =>
    have ih := ih fun call hcall => h call (by simp [hcall])
    rw [List.flatMap_cons, cutSpans_append, ← ih, cutCalls_cons]
    by_cases hstart : call.startedBy numTokens
    · rw [if_pos hstart, List.flatMap_cons]
    · rw [if_neg hstart, (h call (by simp)).cutSpans_eq_nil hstart, List.nil_append]

/-- The calls that are left are valid for fewer tokens. -/
theorem valid_of_mem_cutCalls {calls : List WeightVersionsPerCall} {n numTokens : Nat}
    (h : ∀ call ∈ calls, call.Valid n) {call : WeightVersionsPerCall}
    (hcall : call ∈ cutCalls numTokens calls) : call.Valid numTokens := by
  obtain ⟨old, hold, rfl⟩ := List.mem_map.mp hcall
  obtain ⟨hmem, hstart⟩ := List.mem_filter.mp hold
  exact (h old hmem).cut hstart

/-- A second cut of the calls at an earlier position is the only one that counts. -/
theorem cutCalls_cutCalls {m n : Nat} (hmn : m ≤ n) (calls : List WeightVersionsPerCall) :
    cutCalls m (cutCalls n calls) = cutCalls m calls := by
  induction calls with
  | nil => rfl
  | cons call calls ih =>
    rw [cutCalls_cons n, cutCalls_cons m call]
    by_cases hn : call.startedBy n
    · rw [if_pos hn, cutCalls_cons, ih]
      simp only [cutSpans_cutSpans hmn]
      rfl
    · -- a call that starts after the later position starts after the earlier one
      have hm : ¬ call.startedBy m := by
        rw [WeightVersionsPerCall.startedBy_iff] at hn ⊢
        exact fun hm => hn fun outputStart houtput => (hm outputStart houtput).trans hmn
      rw [if_neg hn, if_neg hm, ih]

/-- The rows of a store plan that are left cover what is left of the sample. -/
theorem StorePlanValid.stripTail {plan : StorePlan} {numTokens responseLength n : Nat}
    (h : StorePlanValid plan numTokens responseLength) (hn : n ≤ responseLength)
    (hprompt : responseLength < numTokens) :
    StorePlanValid (plan.stripTail n) (numTokens - n) (responseLength - n) := by
  intro field segs hsegs
  rw [StorePlan.get_stripTail] at hsegs
  obtain ⟨old, hold, rfl⟩ := Option.map_eq_some_iff.mp hsegs
  have hrows := h field old hold
  rw [Segments.prefixRows, PieceTable.numRows_take]
  cases field with
  | samplingMask =>
    simp only [Field.expectedRows] at hrows ⊢
    omega
  | forward field =>
    simp only [Field.expectedRows] at hrows ⊢
    omega

/-! ### Stripped samples -/

namespace Sample

variable {Shared : Type} {decode : List Int → String} {s s' : Sample Shared}

/-- The version that the token at a position was sampled by. -/
def versionAt (s : Sample Shared) (position : Nat) : Option String :=
  SampleArrays.versionAt s.allWeightVersionSpans position

/-- `s'` describes the prompt and the first `r` response tokens of `s`, in every array. -/
structure KeepsFirst (s s' : Sample Shared) (r : Nat) : Prop where
  tokens : s'.tokens = s.tokens.take (s.tokens.length - s.responseLength + r)
  responseLength : s'.responseLength = r
  lossMask : s'.lossMask = s.lossMask.map (·.take r)
  rolloutLogProbs : s'.rolloutLogProbs = s.rolloutLogProbs.map (·.take r)
  topkTokenIds : s'.rolloutTopkTokenIds =
    s.rolloutTopkTokenIds.map fun ids => { ids with rows := ids.rows.take r }
  topkLogProbs : s'.rolloutTopkLogProbs =
    s.rolloutTopkLogProbs.map fun logps => { logps with rows := logps.rows.take r }
  samplingMask : Option.Rel
    (fun mask mask' => mask'.length = r ∧ ∀ t < r, mask'.support t = mask.support t)
    s.rolloutSamplingMask s'.rolloutSamplingMask
  teacherLogProbs : s'.teacherLogProbs = s.teacherLogProbs.map (·.take r)
  opdReverseKl : s'.opdReverseKl = s.opdReverseKl.map (·.take r)
  /-- in the layout of the tokens or of the media-expanded sequence -/
  routedExperts : Option.Rel
    (fun array array' => ∃ extra : Int, (extra = 0 ∨ extra = s.media.extra) ∧
      (array.rows.length : Int) = s.tokens.length - 1 + extra ∧
      array' = { array with rows := array.rows.take ((s'.tokens.length : Int) - 1 + extra).toNat })
    s.rolloutRoutedExperts s'.rolloutRoutedExperts
  indexerTopk : s'.rolloutIndexerTopk =
    s.rolloutIndexerTopk.map fun array =>
      { array with rows := array.rows.take (s'.tokens.length - 1) }
  storePlan : Option.Rel
    (fun plan plan' => plan'.ownedRefs = plan.ownedRefs ∧ ∀ field : Field,
      (plan'.fields.get field).map PieceTable.rows =
        (plan.fields.get field).map fun segs =>
          (PieceTable.rows segs).take (field.expectedRows s'.tokens.length r).toNat)
    s.rolloutStorePlan s'.rolloutStorePlan
  versionAt : ∀ position, s'.versionAt position =
    if position < s'.tokens.length then s.versionAt position else none
  shared : s'.shared = s.shared
  prompt : s'.prompt = s.prompt
  media : s'.media = s.media
  status : s'.status = s.status

/-- Where the routed-expert rows cover the media-expanded sequence, the prompt is nonempty
    there too. -/
def ExpandedPrompt (s : Sample Shared) : Prop :=
  ∀ array ∈ s.rolloutRoutedExperts, (array.rows.length : Int) = s.tokens.length - 1 ∨
    0 < (s.tokens.length : Int) - s.responseLength + s.media.extra

/-- The sample less its last `n` tokens, with what is left of its sampling mask. -/
def cut (decode : List Int → String) (s : Sample Shared) (n : Nat)
    (mask : Option RolloutSamplingMask) : Sample Shared :=
  { s with
    tokens := dropTail n s.tokens
    responseLength := s.responseLength - n
    rolloutTopkTokenIds := s.rolloutTopkTokenIds.map fun ids =>
      { ids with rows := dropTail n ids.rows }
    rolloutTopkLogProbs := s.rolloutTopkLogProbs.map fun logps =>
      { logps with rows := dropTail n logps.rows }
    rolloutLogProbs := s.rolloutLogProbs.map (dropTail n)
    rolloutSamplingMask := mask
    teacherLogProbs := s.teacherLogProbs.map (dropTail n)
    opdReverseKl := s.opdReverseKl.map (dropTail n)
    opdStudentTopLogprobs := s.opdStudentTopLogprobs.map (dropTail n)
    lossMask := s.lossMask.map (dropTail n)
    response := decodeTail decode (dropTail n s.tokens) (s.responseLength - n)
    rolloutRoutedExperts := s.rolloutRoutedExperts.map fun array =>
      { array with rows := dropTail n array.rows }
    rolloutIndexerTopk := s.rolloutIndexerTopk.map fun array =>
      { array with rows := dropTail n array.rows }
    rolloutStorePlan := s.rolloutStorePlan.map (·.stripTail n)
    weightVersions := cutCalls (dropTail n s.tokens).length s.weightVersions }

/-- The candidates of a valid sample are both cut, or both absent. -/
theorem TopkValid.stripTopk_eq (h : s.TopkValid) (n : Nat) :
    stripTopk n s.rolloutTopkTokenIds s.rolloutTopkLogProbs =
      .ok (s.rolloutTopkTokenIds.map fun ids => { ids with rows := dropTail n ids.rows },
        s.rolloutTopkLogProbs.map fun logps => { logps with rows := dropTail n logps.rows }) := by
  rcases h with ⟨hids, hlogps⟩ | ⟨ids, logps, hids, hlogps, -⟩
  · rw [hids, hlogps]
    rfl
  · rw [hids, hlogps]
    rfl

/-- A valid sample's mask has a prefix for every number of response tokens. -/
theorem Valid.stripMask_eq (h : s.Valid) {r : Nat} (hr : r ≤ s.responseLength) :
    ∃ mask, stripMask r s.rolloutSamplingMask = .ok mask ∧
      Option.Rel (fun mask mask' => mask.prefixMask r = .ok mask') s.rolloutSamplingMask mask := by
  cases hmask : s.rolloutSamplingMask with
  | none => exact ⟨none, rfl, .none⟩
  | some mask =>
    obtain ⟨new, hnew, -⟩ :=
      mask.prefixMask_of_le (show r ≤ mask.length by rw [h.samplingMask mask hmask]; exact hr)
    refine ⟨some new, ?_, .some hnew⟩
    simp [stripMask, hnew, Except.mapError]

/-- What stripping does to a valid sample. -/
theorem Valid.strip_eq (h : s.Valid) (decode : List Int → String) {n : Nat} (hpos : n ≠ 0) (hn : n ≤ s.responseLength) :
    ∃ mask, stripMask (s.responseLength - n) s.rolloutSamplingMask = .ok mask ∧
      Option.Rel (fun mask mask' => mask.prefixMask (s.responseLength - n) = .ok mask')
        s.rolloutSamplingMask mask ∧
      s.stripLastOutputTokens decode n = .ok (s.cut decode n mask) := by
  obtain ⟨mask, hmask, hrel⟩ := h.stripMask_eq (show s.responseLength - n ≤ s.responseLength by omega)
  refine ⟨mask, hmask, hrel, ?_⟩
  rw [stripLastOutputTokens, if_neg hpos, check_bind_eq_ok]
  refine ⟨ensure_eq_ok.mpr hn, ?_⟩
  simp only [h.topk.stripTopk_eq, hmask, Except.ok_bind]
  rfl

theorem length_tokens_cut (n : Nat) (mask : Option RolloutSamplingMask) :
    (s.cut decode n mask).tokens.length = s.tokens.length - n := length_dropTail _ _

variable {n : Nat} {mask : Option RolloutSamplingMask}

/-- The stripped sample validates. -/
theorem Valid.cut_valid (h : s.Valid) (hprompt : s.responseLength < s.tokens.length)
    (hexpanded : s.ExpandedPrompt) (hn : n ≤ s.responseLength)
    (hmask : Option.Rel (fun mask mask' => mask.prefixMask (s.responseLength - n) = .ok mask')
      s.rolloutSamplingMask mask) : (s.cut decode n mask).Valid := by
  have hlength {α : Type} {xs : Option (List α)} (hxs : ∀ x ∈ xs, x.length = s.responseLength) :
      ∀ x ∈ xs.map (dropTail n), x.length = s.responseLength - n := by
    rw [Option.forall_mem_map]
    intro x hx
    rw [length_dropTail, hxs x hx]
  have htokens : (s.cut decode n mask).tokens.length = s.tokens.length - n := length_dropTail _ _
  constructor
  case response =>
    rw [htokens]
    show s.responseLength - n ≤ s.tokens.length - n
    omega
  case lossMask => exact hlength h.lossMask
  case rolloutLogProbs => exact hlength h.rolloutLogProbs
  case teacherLogProbs => exact hlength h.teacherLogProbs
  case opdReverseKl => exact hlength h.opdReverseKl
  case topk =>
    rcases h.topk with ⟨hids, hlogps⟩ | ⟨ids, logps, hids, hlogps, hk, hidsLength, hlogpsLength⟩
    · exact .inl ⟨by simp [cut, hids], by simp [cut, hlogps]⟩
    · refine .inr ⟨{ ids with rows := dropTail n ids.rows },
        { logps with rows := dropTail n logps.rows }, by simp [cut, hids], by simp [cut, hlogps],
        hk, ?_, ?_⟩
      · rw [length_dropTail, hidsLength]
        rfl
      · rw [length_dropTail, hlogpsLength]
        rfl
  case samplingMask =>
    intro new hnew
    have hnew : mask = some new := hnew
    rw [hnew] at hmask
    cases hold : s.rolloutSamplingMask with
    | none =>
      rw [hold] at hmask
      cases hmask
    | some old =>
      rw [hold] at hmask
      cases hmask with
      | some hprefix => exact RolloutSamplingMask.length_prefixMask hprefix
  case routedExperts =>
    show ∀ array ∈ s.rolloutRoutedExperts.map _, _
    rw [Option.forall_mem_map, htokens]
    intro array harray
    rw [length_dropTail]
    rcases h.routedExperts array harray with hrows | hrows
    · left
      omega
    · -- a plain array stays plain; an expanded one has prompt rows that the strip leaves
      rcases hexpanded array harray with hplain | hpos
      · left
        omega
      · right
        show ((array.rows.length - n : Nat) : Int) = ((s.tokens.length - n : Nat) : Int) - 1 +
          s.media.extra
        omega
  case indexerTopk =>
    show ∀ array ∈ s.rolloutIndexerTopk.map _, _
    rw [Option.forall_mem_map, htokens]
    intro array harray
    have hrows := h.indexerTopk array harray
    rw [length_dropTail]
    omega
  case storePlan =>
    show ∀ plan ∈ s.rolloutStorePlan.map _, _
    rw [Option.forall_mem_map, htokens]
    intro plan hplan
    exact (h.storePlan plan hplan).stripTail hn hprompt
  case spans =>
    show SpansIn _ 0 ((cutCalls _ s.weightVersions).flatMap (·.spans))
    rw [flatMap_cutCalls h.calls]
    exact h.spans.cut
  case calls => exact fun call hcall => valid_of_mem_cutCalls h.calls hcall

/-- The stripped sample keeps the first tokens of the response. -/
theorem Valid.cut_keeps (h : s.Valid) (hprompt : s.responseLength < s.tokens.length)
    (hn : n ≤ s.responseLength)
    (hmask : Option.Rel (fun mask mask' => mask.prefixMask (s.responseLength - n) = .ok mask')
      s.rolloutSamplingMask mask) :
    s.KeepsFirst (s.cut decode n mask) (s.responseLength - n) := by
  have hlength {α : Type} {xs : Option (List α)} (hxs : ∀ x ∈ xs, x.length = s.responseLength) :
      xs.map (dropTail n) = xs.map (·.take (s.responseLength - n)) := by
    cases xs with
    | none => rfl
    | some x => rw [Option.map_some, Option.map_some, dropTail, hxs x rfl]
  have htokens : (s.cut decode n mask).tokens.length = s.tokens.length - n := length_dropTail _ _
  constructor
  case tokens =>
    show s.tokens.take (s.tokens.length - n) = _
    congr 1
    omega
  case responseLength => rfl
  case lossMask => exact hlength h.lossMask
  case rolloutLogProbs => exact hlength h.rolloutLogProbs
  case teacherLogProbs => exact hlength h.teacherLogProbs
  case opdReverseKl => exact hlength h.opdReverseKl
  case topkTokenIds =>
    rcases h.topk with ⟨hids, -⟩ | ⟨ids, _, hids, -, -, hrows, -⟩
    · simp [cut, hids]
    · simp only [cut, hids, Option.map_some, dropTail, hrows]
  case topkLogProbs =>
    rcases h.topk with ⟨-, hlogps⟩ | ⟨_, logps, -, hlogps, -, -, hrows⟩
    · simp [cut, hlogps]
    · simp only [cut, hlogps, Option.map_some, dropTail, hrows]
  case samplingMask =>
    show Option.Rel _ s.rolloutSamplingMask mask
    generalize s.rolloutSamplingMask = old at hmask ⊢
    cases hmask with
    | none => exact .none
    | some hprefix =>
      exact .some ⟨RolloutSamplingMask.length_prefixMask hprefix,
        fun t ht => RolloutSamplingMask.support_prefixMask hprefix ht⟩
  case routedExperts =>
    rw [htokens]
    show Option.Rel _ s.rolloutRoutedExperts (s.rolloutRoutedExperts.map _)
    cases harray : s.rolloutRoutedExperts with
    | none => exact .none
    | some array =>
      have hrows := h.routedExperts array harray
      -- `validate` allows the rows of the media too; the strip keeps which count it was
      obtain ⟨extra, hextra, hcount⟩ : ∃ extra : Int, (extra = 0 ∨ extra = s.media.extra) ∧
          (array.rows.length : Int) = s.tokens.length - 1 + extra := by
        rcases hrows with hrows | hrows
        · exact ⟨0, .inl rfl, by omega⟩
        · exact ⟨_, .inr rfl, hrows⟩
      refine .some ⟨extra, hextra, hcount, ?_⟩
      show ({ array with rows := array.rows.take (array.rows.length - n) } : ForwardArray) = _
      congr 2
      omega
  case indexerTopk =>
    rw [htokens]
    show s.rolloutIndexerTopk.map _ = _
    cases harray : s.rolloutIndexerTopk with
    | none => rfl
    | some array =>
      have hrows := h.indexerTopk array harray
      show some ({ array with rows := array.rows.take (array.rows.length - n) } : ForwardArray) = _
      rw [Option.map_some]
      congr 3
      omega
  case storePlan =>
    rw [htokens]
    show Option.Rel _ s.rolloutStorePlan (s.rolloutStorePlan.map _)
    cases hplan : s.rolloutStorePlan with
    | none => exact .none
    | some plan =>
      refine .some ⟨rfl, fun field => ?_⟩
      -- every field loses the same rows as the response
      rw [StorePlan.get_stripTail, Option.map_map]
      cases hsegs : plan.fields.get field with
      | none => rfl
      | some segs =>
        have hrows := h.storePlan plan hplan field segs hsegs
        rw [Option.map_some, Option.map_some, Function.comp_apply, StorePlan.rows_prefixRows]
        congr 2
        cases field with
        | samplingMask =>
          simp only [Field.expectedRows] at hrows ⊢
          omega
        | forward field =>
          simp only [Field.expectedRows] at hrows ⊢
          omega
  case versionAt =>
    intro position
    show SampleArrays.versionAt ((cutCalls _ s.weightVersions).flatMap (·.spans)) position = _
    rw [flatMap_cutCalls h.calls, versionAt_cutSpans]
    rfl
  case shared => rfl
  case prompt => rfl
  case media => rfl
  case status => rfl

/-- Stripping again is stripping all at once. -/
theorem Valid.strip_strip (h : s.Valid) (hn : n ≤ s.responseLength)
    (hs' : s.stripLastOutputTokens decode n = .ok s') {m : Nat} (hm : m ≤ s.responseLength - n) :
    s'.stripLastOutputTokens decode m = s.stripLastOutputTokens decode (n + m) := by
  by_cases hn0 : n = 0
  · rw [stripLastOutputTokens, if_pos hn0] at hs'
    cases hs'
    rw [hn0, Nat.zero_add]
  · by_cases hm0 : m = 0
    · rw [hm0, Nat.add_zero, hs']
      rfl
    · obtain ⟨mask, -, hrel, hcut⟩ := h.strip_eq decode hn0 hn
      rw [hcut] at hs'
      cases hs'
      obtain ⟨mask', hmask', -, hcut'⟩ := h.strip_eq decode
        (show n + m ≠ 0 by omega) (show n + m ≤ s.responseLength by omega)
      rw [hcut', stripLastOutputTokens, if_neg hm0, check_bind_eq_ok]
      refine ⟨ensure_eq_ok.mpr hm, ?_⟩
      -- the candidates are both there or both missing, so the second cut succeeds too
      have htopk : stripTopk m (s.cut decode n mask).rolloutTopkTokenIds
          (s.cut decode n mask).rolloutTopkLogProbs =
            .ok ((s.cut decode (n + m) mask').rolloutTopkTokenIds,
              (s.cut decode (n + m) mask').rolloutTopkLogProbs) := by
        rcases h.topk with ⟨hids, hlogps⟩ | ⟨ids, logps, hids, hlogps, -⟩
        · simp [cut, hids, hlogps, stripTopk]
        · simp [cut, hids, hlogps, stripTopk, dropTail_dropTail]
      have hmask : stripMask ((s.cut decode n mask).responseLength - m)
          (s.cut decode n mask).rolloutSamplingMask = .ok mask' := by
        rw [← hmask']
        show stripMask (s.responseLength - n - m) mask = _
        rw [Nat.sub_sub]
        generalize s.rolloutSamplingMask = old at hrel ⊢
        cases hrel with
        | none => rfl
        | some hprefix =>
          simp only [stripMask]
          rw [RolloutSamplingMask.prefixMask_prefixMask hprefix (by omega)]
      simp only [htopk, hmask, Except.ok_bind]
      simp only [cut, Option.map_map, Function.comp_def, dropTail_dropTail, length_dropTail,
        Nat.sub_sub, pure, Except.pure, StorePlan.stripTail_stripTail,
        cutCalls_cutCalls (show s.tokens.length - (n + m) ≤ s.tokens.length - n by omega)]

/-- A valid sample describes all its own tokens. -/
theorem Valid.keepsFirst_self (h : s.Valid) : s.KeepsFirst s s.responseLength := by
  have hlength {α : Type} {xs : Option (List α)} (hxs : ∀ x ∈ xs, x.length = s.responseLength) :
      xs = xs.map (·.take s.responseLength) := by
    cases xs with
    | none => rfl
    | some x => rw [Option.map_some, ← hxs x rfl, List.take_length]
  constructor
  case tokens =>
    rw [Nat.sub_add_cancel h.response, List.take_length]
  case responseLength => rfl
  case lossMask => exact hlength h.lossMask
  case rolloutLogProbs => exact hlength h.rolloutLogProbs
  case teacherLogProbs => exact hlength h.teacherLogProbs
  case opdReverseKl => exact hlength h.opdReverseKl
  case topkTokenIds =>
    rcases h.topk with ⟨hids, -⟩ | ⟨ids, _, hids, -, -, hrows, -⟩
    · simp [hids]
    · rw [hids, Option.map_some, ← hrows, List.take_length]
  case topkLogProbs =>
    rcases h.topk with ⟨-, hlogps⟩ | ⟨_, logps, -, hlogps, -, -, hrows⟩
    · simp [hlogps]
    · rw [hlogps, Option.map_some, ← hrows, List.take_length]
  case samplingMask =>
    cases hmask : s.rolloutSamplingMask with
    | none => exact .none
    | some mask => exact .some ⟨h.samplingMask mask hmask, fun _ _ => rfl⟩
  case routedExperts =>
    cases harray : s.rolloutRoutedExperts with
    | none => exact .none
    | some array =>
      have hall {k : Nat} (hk : array.rows.length = k) : array.rows.take k = array.rows := by
        rw [← hk, List.take_length]
      rcases h.routedExperts array harray with hrows | hrows
      · refine .some ⟨0, .inl rfl, by omega, ?_⟩
        rw [hall (by omega)]
      · refine .some ⟨_, .inr rfl, hrows, ?_⟩
        rw [hall (by omega)]
  case indexerTopk =>
    cases harray : s.rolloutIndexerTopk with
    | none => rfl
    | some array =>
      have hrows := h.indexerTopk array harray
      have hcount : s.tokens.length - 1 = array.rows.length := by omega
      rw [Option.map_some, hcount, List.take_length]
  case storePlan =>
    cases hplan : s.rolloutStorePlan with
    | none => exact .none
    | some plan =>
      refine .some ⟨rfl, fun field => ?_⟩
      cases hsegs : plan.fields.get field with
      | none => rfl
      | some segs =>
        have hrows := h.storePlan plan hplan field segs hsegs
        rw [Option.map_some, Option.map_some, ← hrows, Int.toNat_natCast,
          ← PieceTable.length_rows, List.take_length]
  case versionAt =>
    intro position
    by_cases hin : position < s.tokens.length
    · rw [if_pos hin]
    · -- no span reaches past the last token
      rw [if_neg hin, versionAt, SampleArrays.versionAt, Option.map_eq_none_iff,
        List.find?_eq_none]
      intro span hspan
      have := h.spans.bounds hspan
      simp only [decide_eq_true_eq]
      omega
  case shared => rfl
  case prompt => rfl
  case media => rfl
  case status => rfl

end Sample

/-- Stripping `n` output tokens of a valid sample leaves a valid sample, which describes the
    response tokens before them in every array; stripping more from it is stripping them all
    at once. -/
theorem strip_last_output_tokens_keeps {Shared : Type} (decode : List Int → String)
    (s : Sample Shared) (n : Nat) (hvalid : s.validate = .ok ())
    (hprompt : s.responseLength < s.tokens.length) (hexpanded : s.ExpandedPrompt)
    (hn : n ≤ s.responseLength) :
    ∃ s', s.stripLastOutputTokens decode n = .ok s' ∧ s'.validate = .ok () ∧
      s.KeepsFirst s' (s.responseLength - n) ∧
      ∀ m ≤ s.responseLength - n,
        s'.stripLastOutputTokens decode m = s.stripLastOutputTokens decode (n + m) := by
  have h := Sample.validate_eq_ok.mp hvalid
  by_cases hn0 : n = 0
  · subst hn0
    refine ⟨s, rfl, hvalid, h.keepsFirst_self, fun m _ => ?_⟩
    rw [Nat.zero_add]
  · obtain ⟨mask, -, hrel, hcut⟩ := h.strip_eq decode hn0 hn
    exact ⟨_, hcut, Sample.validate_eq_ok.mpr (h.cut_valid hprompt hexpanded hn hrel),
      h.cut_keeps hprompt hn hrel, fun m hm => h.strip_strip hn hcut hm⟩

/-- A prompt of one token and three sampled ones, by two weight versions. -/
def threeSampled : Sample Unit where
  shared := ()
  tokens := [1, 2, 3, 4]
  responseLength := 3
  lossMask := some [1, 1, 0]
  rolloutLogProbs := some [0x3ff0000000000000, 0, 0]
  rolloutSamplingMask := some ⟨[2, 7, 3, 4], [0, 2, 3, 4], rfl, rfl, by decide⟩
  rolloutRoutedExperts := some ⟨(1, 1), [[[0]], [[1]], [[2]]]⟩
  rolloutStorePlan := some ⟨⟨none, none, some [⟨none, 0, 3⟩]⟩, []⟩
  weightVersions :=
    [{ spans := [⟨"1", 1, 3⟩, ⟨"2", 3, 4⟩], prefillSpans := [⟨"1", 0, 1⟩], outputStart := some 1 }]
  status := .completed

theorem strip_last_output_tokens_keeps_threeSampled :
    ∃ s', threeSampled.stripLastOutputTokens (fun _ => "") 2 = .ok s' ∧ s'.validate = .ok () ∧
      threeSampled.KeepsFirst s' 1 ∧
      ∀ m ≤ 1, s'.stripLastOutputTokens (fun _ => "") m =
        threeSampled.stripLastOutputTokens (fun _ => "") (2 + m) :=
  strip_last_output_tokens_keeps (fun _ => "") threeSampled 2 (by decide) (by decide)
    (fun array harray => .inl (by cases harray; rfl)) (by decide)

/-- A prompt of two media tokens that the processor expands to none, and two sampled tokens. -/
def emptyMedia : Sample Unit where
  shared := ()
  tokens := [9, 9, 5, 6]
  media := { mmVisionNumPatches := [0, 0] }
  responseLength := 2
  rolloutRoutedExperts := some ⟨(1, 1), [[[0]]]⟩

/-- The expanded sequence is the response alone, one row short of its tokens; less the whole
    response, fewer than no rows should be left. -/
theorem strip_breaks_expanded_rows :
    emptyMedia.validate = .ok () ∧ emptyMedia.responseLength < emptyMedia.tokens.length ∧
      2 ≤ emptyMedia.responseLength ∧
      ∃ s', emptyMedia.stripLastOutputTokens (fun _ => "") 2 = .ok s' ∧
        s'.validate = .error (.routedExperts 0 1 (-1)) :=
  ⟨by decide, by decide, by decide, _, rfl, by decide⟩

end SampleArrays

end Miles.Rollout
