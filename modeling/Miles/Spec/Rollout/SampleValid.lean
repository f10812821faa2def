import Miles.ForStd.Except
import Miles.Native.Rollout.SampleArrays

/-!
# Samples that validate

What `Sample.validate` checks, as one proposition, and how weight-version spans in order
behave when they are cut or joined.

## Key results

- `Sample.validate_eq_ok`: `validate` succeeds exactly on a `Valid` sample
- `assertSpansRunInOrder_cutSpans`, `SpansIn.cut`: cut spans still run in order
- `versionAt_cutSpans`: the version stamped on each token that is left
-/

namespace Miles.Rollout.SampleArrays

open PieceTable (numRows)

@[simp] theorem ensure_eq_ok {p : Prop} [Decidable p] {e : SampleError} :
    ensure p e = .ok () ↔ p := by
  unfold ensure
  split <;> simp_all

/-- A check and then another step. -/
theorem check_bind_eq_ok {β : Type} {x : Except SampleError Unit} {y : Except SampleError β}
    {b : β} : (x >>= fun _ => y) = .ok b ↔ x = .ok () ∧ y = .ok b := by
  rw [Except.bind_eq_ok]
  exact ⟨fun ⟨_, hx, hy⟩ => ⟨hx, hy⟩, fun ⟨hx, hy⟩ => ⟨(), hx, hy⟩⟩

@[simp] theorem ensureLength_eq_ok {field : PerToken} {length : Option Nat} {responseLength : Nat} :
    ensureLength field length responseLength = .ok () ↔ ∀ n ∈ length, n = responseLength := by
  cases length with
  | none => simp [ensureLength]
  | some n => simp [ensureLength]

/-! ### Spans in order -/

/-- The spans lie between `previousEnd` and `numTokens`, in order, each with a version. -/
def SpansIn (numTokens : Nat) : Nat → List WeightVersionSpan → Prop
  | _, [] => True
  | previousEnd, span :: spans =>
    span.version ≠ "" ∧
      (previousEnd ≤ span.absStart ∧ span.absStart < span.absEnd ∧ span.absEnd ≤ numTokens) ∧
      SpansIn numTokens span.absEnd spans

variable {spans : List WeightVersionSpan}

/-- The spans are checked to run in order within the tokens. -/
theorem validateSpans_eq_ok {numTokens : Nat} {previousEnd : Nat} :
    Sample.validateSpans numTokens previousEnd spans = .ok () ↔
      SpansIn numTokens previousEnd spans := by
  induction spans generalizing previousEnd with
  | nil => simp [Sample.validateSpans, SpansIn]
  | cons span spans ih =>
    rw [Sample.validateSpans, check_bind_eq_ok, check_bind_eq_ok, ensure_eq_ok, ensure_eq_ok, ih]
    rfl

namespace SpansIn

variable {numTokens previousEnd : Nat} {spans : List WeightVersionSpan}

/-- Spans that come after a position come after every earlier one. -/
theorem mono (h : SpansIn numTokens previousEnd spans) {p : Nat} (hp : p ≤ previousEnd) :
    SpansIn numTokens p spans := by
  cases spans with
  | nil => trivial
  | cons span spans =>
    obtain ⟨hversion, hspan, hrest⟩ := h
    exact ⟨hversion, ⟨by omega, hspan.2⟩, hrest⟩

/-- Spans that start at a position or later come after it. -/
theorem after (h : SpansIn numTokens previousEnd spans) {p : Nat}
    (hp : ∀ span ∈ spans, p ≤ span.absStart) : SpansIn numTokens p spans := by
  cases spans with
  | nil => trivial
  | cons span spans =>
    obtain ⟨hversion, hspan, hrest⟩ := h
    exact ⟨hversion, ⟨hp span (by simp), hspan.2⟩, hrest⟩

theorem bounds (h : SpansIn numTokens previousEnd spans) {span : WeightVersionSpan}
    (hspan : span ∈ spans) :
    previousEnd ≤ span.absStart ∧ span.absStart < span.absEnd ∧ span.absEnd ≤ numTokens := by
  induction spans generalizing previousEnd with
  | nil => exact absurd hspan (by simp)
  | cons first spans ih =>
    obtain ⟨_, hfirst, hrest⟩ := h
    rcases List.mem_cons.mp hspan with rfl | hspan
    · exact hfirst
    · have hbounds := ih hrest hspan
      exact ⟨by omega, hbounds.2⟩

/-- Spans of a shorter sequence, and then spans that start at its end or later. -/
theorem append {middle : Nat} {later : List WeightVersionSpan}
    (h : SpansIn middle previousEnd spans) (hlater : SpansIn numTokens middle later)
    (hmiddle : middle ≤ numTokens) (hprevious : previousEnd ≤ middle) :
    SpansIn numTokens previousEnd (spans ++ later) := by
  induction spans generalizing previousEnd with
  | nil => exact hlater.mono hprevious
  | cons span spans ih =>
    obtain ⟨hversion, hspan, hrest⟩ := h
    exact ⟨hversion, ⟨hspan.1, hspan.2.1, by omega⟩, ih hrest hspan.2.2⟩

end SpansIn

/-! ### Spans of one call -/

/-- A run of spans starts where it should and never goes back. -/
theorem assertSpansRunInOrder_bounds {start stop : Nat}
    (h : assertSpansRunInOrder start spans = .ok stop) :
    start ≤ stop ∧ ∀ span ∈ spans, start ≤ span.absStart := by
  induction spans generalizing start with
  | nil =>
    cases h
    exact ⟨le_rfl, fun span hspan => absurd hspan (by simp)⟩
  | cons first spans ih =>
    rw [assertSpansRunInOrder, Except.bind_eq_ok] at h
    obtain ⟨_, hfirst, h⟩ := h
    rw [ensure_eq_ok] at hfirst
    obtain ⟨hstop, hstarts⟩ := ih h
    refine ⟨by omega, fun span hspan => ?_⟩
    rcases List.mem_cons.mp hspan with rfl | hspan
    · omega
    · have := hstarts span hspan
      omega

/-- Nothing is left of spans that start at the cut or later. -/
theorem cutSpans_eq_nil {numTokens : Nat}
    (h : ∀ span ∈ spans, numTokens ≤ span.absStart) : cutSpans numTokens spans = [] := by
  rw [cutSpans, List.map_eq_nil_iff, List.filter_eq_nil_iff]
  intro span hspan
  have := h span hspan
  simp only [decide_eq_true_eq]
  omega

/-- What a cut keeps of a list of spans, the first one at a time. -/
theorem cutSpans_cons (numTokens : Nat) (span : WeightVersionSpan) (spans : List WeightVersionSpan) :
    cutSpans numTokens (span :: spans) =
      if span.absStart < numTokens then
        { span with absEnd := min span.absEnd numTokens } :: cutSpans numTokens spans
      else cutSpans numTokens spans := by
  unfold cutSpans
  by_cases hstart : span.absStart < numTokens
  · rw [List.filter_cons_of_pos (by simpa using hstart), List.map_cons, if_pos hstart]
    by_cases hend : span.absEnd ≤ numTokens
    · rw [if_pos hend, Nat.min_eq_left hend]
    · rw [if_neg hend, Nat.min_eq_right (by omega)]
  · rw [List.filter_cons_of_neg (by simpa using hstart), if_neg hstart]

theorem cutSpans_append (numTokens : Nat) (spans later : List WeightVersionSpan) :
    cutSpans numTokens (spans ++ later) = cutSpans numTokens spans ++ cutSpans numTokens later := by
  simp [cutSpans]

/-- A cut run of spans is a run that ends at the cut, unless it ended before. -/
theorem assertSpansRunInOrder_cutSpans {start stop numTokens : Nat}
    (h : assertSpansRunInOrder start spans = .ok stop) (hstart : start ≤ numTokens) :
    assertSpansRunInOrder start (cutSpans numTokens spans) = .ok (min stop numTokens) := by
  induction spans generalizing start with
  | nil =>
    cases h
    rw [Nat.min_eq_left hstart]
    rfl
  | cons span spans ih =>
    rw [assertSpansRunInOrder, Except.bind_eq_ok] at h
    obtain ⟨_, hspan, h⟩ := h
    rw [ensure_eq_ok] at hspan
    obtain ⟨hstop, hstarts⟩ := assertSpansRunInOrder_bounds h
    rw [cutSpans_cons]
    by_cases hlt : span.absStart < numTokens
    · rw [if_pos hlt, assertSpansRunInOrder, Except.bind_eq_ok]
      refine ⟨(), ensure_eq_ok.mpr ⟨hspan.1, by simp only; omega⟩, ?_⟩
      by_cases hend : span.absEnd ≤ numTokens
      · simp only [Nat.min_eq_left hend]
        exact ih h hend
      · -- the cut falls inside this span, and every later span starts after it
        rw [cutSpans_eq_nil fun later hlater => by have := hstarts later hlater; omega]
        show Except.ok (min span.absEnd numTokens) = _
        congr 1
        omega
    · rw [if_neg hlt, cutSpans_eq_nil fun later hlater => by have := hstarts later hlater; omega]
      show Except.ok start = _
      congr 1
      omega

/-- Cut spans still run in order. -/
theorem SpansIn.cut {n previousEnd numTokens : Nat}
    (h : SpansIn n previousEnd spans) : SpansIn numTokens previousEnd (cutSpans numTokens spans) := by
  induction spans generalizing previousEnd with
  | nil => trivial
  | cons span spans ih =>
    obtain ⟨hversion, hspan, hrest⟩ := h
    rw [cutSpans_cons]
    split
    · exact ⟨hversion, ⟨hspan.1, by simp only; omega, by simp only; omega⟩,
        (ih hrest).mono (by simp only; omega)⟩
    · exact (ih hrest).mono (by omega)

/-- A second cut at an earlier position is the only one that counts. -/
theorem cutSpans_cutSpans {m n : Nat} (hmn : m ≤ n) (spans : List WeightVersionSpan) :
    cutSpans m (cutSpans n spans) = cutSpans m spans := by
  induction spans with
  | nil => rfl
  | cons span spans ih =>
    rw [cutSpans_cons n, cutSpans_cons m span]
    by_cases hlt : span.absStart < n
    · rw [if_pos hlt, cutSpans_cons, ih]
      simp only [Nat.min_assoc, Nat.min_eq_right hmn]
    · rw [if_neg hlt, if_neg (by omega), ih]

/-! ### The version of a token -/

/-- The version a token is stamped with: that of the span over its position. -/
def versionAt (spans : List WeightVersionSpan) (position : Nat) : Option String :=
  (spans.find? fun span => span.absStart ≤ position ∧ position < span.absEnd).map (·.version)

theorem versionAt_cons (span : WeightVersionSpan) (spans : List WeightVersionSpan)
    (position : Nat) :
    versionAt (span :: spans) position =
      if span.absStart ≤ position ∧ position < span.absEnd then some span.version
      else versionAt spans position := by
  unfold versionAt
  by_cases h : span.absStart ≤ position ∧ position < span.absEnd
  · rw [if_pos h, List.find?_cons_of_pos (by simpa using h)]
    rfl
  · rw [if_neg h, List.find?_cons_of_neg (by simpa using h)]

/-- A cut keeps the stamps before it and leaves none after it. -/
theorem versionAt_cutSpans (numTokens : Nat) (spans : List WeightVersionSpan) (position : Nat) :
    versionAt (cutSpans numTokens spans) position =
      if position < numTokens then versionAt spans position else none := by
  induction spans with
  | nil => simp [cutSpans, versionAt]
  | cons span spans ih =>
    rw [cutSpans_cons, versionAt_cons]
    by_cases hstart : span.absStart < numTokens
    · rw [if_pos hstart, versionAt_cons, ih]
      by_cases hposition : position < numTokens
      · have hcut : position < min span.absEnd numTokens ↔ position < span.absEnd := by omega
        simp only [if_pos hposition, hcut]
      · rw [if_neg hposition, if_neg hposition, if_neg (by simp only; omega)]
    · rw [if_neg hstart, ih]
      by_cases hposition : position < numTokens
      · rw [if_pos hposition, if_pos hposition, if_neg (by omega)]
      · rw [if_neg hposition, if_neg hposition]

/-! ### Weight versions of one call -/

/-- What `WeightVersionsPerCall.validate` checks. -/
structure WeightVersionsPerCall.Valid (call : WeightVersionsPerCall) (numTokens : Nat) : Prop where
  versions : ∀ span ∈ call.prefillSpans ++ call.spans, span.version ≠ ""
  prefillAnchored : call.outputStart = none → call.prefillSpans = []
  startsIn : ∀ outputStart ∈ call.outputStart, outputStart ≤ numTokens
  prefillCovers : ∀ outputStart ∈ call.outputStart, call.prefillSpans ≠ [] →
    assertSpansRunInOrder 0 call.prefillSpans = .ok (call.promptTokens.getD outputStart)
  outputRuns : ∀ outputStart ∈ call.outputStart, ∃ outputEnd,
    assertSpansRunInOrder outputStart call.spans = .ok outputEnd ∧ outputEnd ≤ numTokens

/-- A call of a shorter sample is one of the longer sample too. -/
theorem WeightVersionsPerCall.Valid.extend {call : WeightVersionsPerCall} {numTokens n : Nat}
    (h : call.Valid numTokens) (hn : numTokens ≤ n) : call.Valid n where
  versions := h.versions
  prefillAnchored := h.prefillAnchored
  startsIn := fun outputStart houtput => (h.startsIn outputStart houtput).trans hn
  prefillCovers := h.prefillCovers
  outputRuns := fun outputStart houtput => by
    obtain ⟨outputEnd, hrun, hend⟩ := h.outputRuns outputStart houtput
    exact ⟨outputEnd, hrun, hend.trans hn⟩

theorem assertVersions_eq_ok :
    assertVersions spans = .ok () ↔ ∀ span ∈ spans, span.version ≠ "" := by
  unfold assertVersions
  rw [Except.forM_eq_ok]
  simp only [ensure_eq_ok]

theorem validatePrefill_eq_ok {call : WeightVersionsPerCall} {outputStart : Nat} :
    call.validatePrefill outputStart = .ok () ↔ (call.prefillSpans ≠ [] →
      assertSpansRunInOrder 0 call.prefillSpans = .ok (call.promptTokens.getD outputStart)) := by
  unfold WeightVersionsPerCall.validatePrefill
  by_cases hprefill : call.prefillSpans = []
  · simp [hprefill]
  · rw [if_neg hprefill, Except.bind_eq_ok]
    simp only [ensure_eq_ok, ne_eq, hprefill, not_false_eq_true, true_implies]
    constructor
    · rintro ⟨prefillEnd, hrun, rfl⟩
      exact hrun
    · intro hrun
      exact ⟨_, hrun, rfl⟩

/-- `validate` succeeds exactly on a valid call. -/
theorem WeightVersionsPerCall.validate_eq_ok {call : WeightVersionsPerCall} {numTokens : Nat} :
    call.validate numTokens = .ok () ↔ call.Valid numTokens := by
  unfold WeightVersionsPerCall.validate
  rw [check_bind_eq_ok, assertVersions_eq_ok]
  cases hstart : call.outputStart with
  | none =>
    simp only [ensure_eq_ok]
    constructor
    · rintro ⟨hversions, hprefill⟩
      exact ⟨hversions, fun _ => hprefill, by simp [hstart], by simp [hstart], by simp [hstart]⟩
    · intro h
      exact ⟨h.versions, h.prefillAnchored hstart⟩
  | some outputStart =>
    rw [check_bind_eq_ok, check_bind_eq_ok, ensure_eq_ok, validatePrefill_eq_ok, Except.bind_eq_ok]
    simp only [ensure_eq_ok]
    constructor
    · rintro ⟨hversions, hin, hprefill, houtput⟩
      exact ⟨hversions, by simp [hstart], by simpa [hstart] using hin,
        by simpa [hstart] using hprefill, by simpa [hstart] using houtput⟩
    · intro h
      exact ⟨h.versions, h.startsIn _ hstart, h.prefillCovers _ hstart, h.outputRuns _ hstart⟩

/-! ### The store plan -/

/-- Every field of the plan has as many rows as the sample needs. -/
def StorePlanValid (plan : StorePlan) (numTokens responseLength : Nat) : Prop :=
  ∀ field, ∀ segs ∈ plan.fields.get field,
    (numRows segs : Int) = field.expectedRows numTokens responseLength

theorem validateField_eq_ok {fields : Fields Segments} {numTokens responseLength : Nat}
    {field : Field} :
    validateField fields numTokens responseLength field = .ok () ↔
      ∀ segs ∈ fields.get field,
        (numRows segs : Int) = field.expectedRows numTokens responseLength := by
  unfold validateField
  cases fields.get field with
  | none => simp
  | some segs => simp

/-- The plan of a sample has the rows that its fields are to have. -/
theorem validatePlan_eq_ok {plan : StorePlan} {numTokens responseLength : Nat} :
    validatePlan plan numTokens responseLength = .ok () ↔
      StorePlanValid plan numTokens responseLength := by
  unfold validatePlan
  rw [check_bind_eq_ok, check_bind_eq_ok, validateField_eq_ok, validateField_eq_ok, validateField_eq_ok]
  constructor
  · rintro ⟨hrouted, hindexer, hmask⟩ field
    cases field with
    | samplingMask => exact hmask
    | forward field =>
      cases field with
      | routedExperts => exact hrouted
      | indexerTopk => exact hindexer
  · intro h
    exact ⟨h _, h _, h _⟩

/-! ### Samples -/

namespace Sample

variable {Shared : Type}

/-- Both candidate arrays or none, of one shape and as long as the response. -/
def TopkValid (s : Sample Shared) : Prop :=
  (s.rolloutTopkTokenIds = none ∧ s.rolloutTopkLogProbs = none) ∨
    ∃ ids logps, s.rolloutTopkTokenIds = some ids ∧ s.rolloutTopkLogProbs = some logps ∧
      ids.k = logps.k ∧ ids.rows.length = s.responseLength ∧ logps.rows.length = s.responseLength

/-- What `validate` checks. -/
structure Valid (s : Sample Shared) : Prop where
  response : s.responseLength ≤ s.tokens.length
  lossMask : ∀ mask ∈ s.lossMask, mask.length = s.responseLength
  rolloutLogProbs : ∀ logProbs ∈ s.rolloutLogProbs, logProbs.length = s.responseLength
  topk : s.TopkValid
  samplingMask : ∀ mask ∈ s.rolloutSamplingMask, mask.length = s.responseLength
  teacherLogProbs : ∀ logProbs ∈ s.teacherLogProbs, logProbs.length = s.responseLength
  opdReverseKl : ∀ kl ∈ s.opdReverseKl, kl.length = s.responseLength
  routedExperts : ∀ array ∈ s.rolloutRoutedExperts,
    (array.rows.length : Int) = s.tokens.length - 1 ∨
      (array.rows.length : Int) = s.tokens.length - 1 + s.media.extra
  indexerTopk : ∀ array ∈ s.rolloutIndexerTopk, (array.rows.length : Int) = s.tokens.length - 1
  storePlan : ∀ plan ∈ s.rolloutStorePlan, StorePlanValid plan s.tokens.length s.responseLength
  spans : SpansIn s.tokens.length 0 s.allWeightVersionSpans
  calls : ∀ call ∈ s.weightVersions, call.Valid s.tokens.length

/-- The candidates have one row for each response token. -/
theorem validateTopk_eq_ok {s : Sample Shared} : s.validateTopk = .ok () ↔ s.TopkValid := by
  unfold validateTopk TopkValid
  cases s.rolloutTopkTokenIds with
  | none =>
    cases s.rolloutTopkLogProbs with
    | none => simp
    | some logps => simp
  | some ids =>
    cases s.rolloutTopkLogProbs with
    | none => simp
    | some logps =>
      simp only [check_bind_eq_ok, ensure_eq_ok, ensureLength_eq_ok, Option.mem_def]
      constructor
      · rintro ⟨⟨hrows, hk⟩, hlength⟩
        have hlength := hlength _ rfl
        exact .inr ⟨ids, logps, rfl, rfl, hk, hlength, hrows ▸ hlength⟩
      · rintro (⟨h, -⟩ | ⟨_, _, hids, hlogps, hk, hlength, hlength'⟩)
        · cases h
        · cases hids
          cases hlogps
          refine ⟨⟨hlength.trans hlength'.symm, hk⟩, fun n hn => ?_⟩
          cases hn
          exact hlength

/-- The routed experts may have the rows of the media too. -/
theorem validateRoutedExperts_eq_ok {s : Sample Shared} :
    s.validateRoutedExperts = .ok () ↔ ∀ array ∈ s.rolloutRoutedExperts,
      (array.rows.length : Int) = s.tokens.length - 1 ∨
        (array.rows.length : Int) = s.tokens.length - 1 + s.media.extra := by
  unfold validateRoutedExperts
  cases s.rolloutRoutedExperts with
  | none => simp
  | some array => simp

theorem validateIndexerTopk_eq_ok {s : Sample Shared} :
    s.validateIndexerTopk = .ok () ↔ ∀ array ∈ s.rolloutIndexerTopk,
      (array.rows.length : Int) = s.tokens.length - 1 := by
  unfold validateIndexerTopk
  cases s.rolloutIndexerTopk with
  | none => simp
  | some array => simp

theorem validateStorePlan_eq_ok {s : Sample Shared} :
    s.validateStorePlan = .ok () ↔ ∀ plan ∈ s.rolloutStorePlan,
      StorePlanValid plan s.tokens.length s.responseLength := by
  unfold validateStorePlan
  cases s.rolloutStorePlan with
  | none => simp
  | some plan => simp [validatePlan_eq_ok]

/-- `validate` succeeds exactly on a `Valid` sample. -/
theorem validate_eq_ok {s : Sample Shared} : s.validate = .ok () ↔ s.Valid := by
  unfold validate
  simp only [check_bind_eq_ok, ensure_eq_ok, ensureLength_eq_ok, validateTopk_eq_ok,
    validateRoutedExperts_eq_ok, validateIndexerTopk_eq_ok, validateStorePlan_eq_ok,
    validateSpans_eq_ok, Except.forM_eq_ok, WeightVersionsPerCall.validate_eq_ok,
    Option.forall_mem_map]
  constructor
  · rintro ⟨h1, h2, h3, h4, h5, h6, h7, h8, h9, h10, h11, h12⟩
    exact ⟨h1, h2, h3, h4, h5, h6, h7, h8, h9, h10, h11, h12⟩
  · intro h
    exact ⟨h.response, h.lossMask, h.rolloutLogProbs, h.topk, h.samplingMask, h.teacherLogProbs,
      h.opdReverseKl, h.routedExperts, h.indexerTopk, h.storePlan, h.spans, h.calls⟩

instance (s : Sample Shared) : Decidable s.Valid :=
  decidable_of_iff (s.validate = .ok ()) validate_eq_ok

end Sample

end Miles.Rollout.SampleArrays
