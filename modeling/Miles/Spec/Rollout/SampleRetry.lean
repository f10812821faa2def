import Miles.Native.Rollout.SampleRetry
import Miles.Spec.Rollout.SampleValid

/-!
# What a reset leaves behind

A reset assigns its fields by hand. Five fields of the dataclass are neither assigned nor among those
that it says it keeps: the teacher's log-probs, the distillation estimate, the lineage, the rollout id
and the reward spec.
-/

namespace Miles.Rollout.SampleRetry

open SampleArrays

variable {V : Type}

namespace Sample

/-- A fresh copy of the prompt: the fields that a reset keeps, and the defaults. -/
def fresh (s : Sample V) : Sample V where
  groupIndex := s.groupIndex
  index := s.index
  prompt := s.prompt
  label := s.label
  multimodalInputs := s.multimodalInputs
  metadata := s.metadata
  generateFunctionPath := s.generateFunctionPath
  maxResponseLen := s.maxResponseLen
  agentFunctionPath := s.agentFunctionPath
  maxSeqLen := s.maxSeqLen
  routingKey := s.routingKey

/-- The fields that a reset neither keeps by its own account nor assigns are at their defaults. -/
structure UntouchedByAttempts (s : Sample V) : Prop where
  teacherLogProbs : s.teacherLogProbs = none
  opdReverseKl : s.opdReverseKl = none
  lineage : s.lineage = none
  rolloutId : s.rolloutId = none
  rewardSpec : s.rewardSpec = none

/-- The reset sample validates, it is a fresh copy of the prompt but for its status, and whatever is
    sampled from it is sampled from the fresh copy too. -/
structure LeavesNothingBehind (s : Sample V) : Prop where
  validates : s.resetForRetry.validate = .ok ()
  defaults : { s.resetForRetry with status := .pending } = s.fresh
  resamples : ∀ (β : Type) (generate : Sample V → β),
    (∀ t : Sample V, generate { t with status := .aborted } = generate { t with status := .pending }) →
    generate s.resetForRetry = generate s.fresh

/-- No response is left, so the lists that are left must be empty. -/
theorem validate_resetForRetry (s : Sample V) :
    s.resetForRetry.validate = .ok () ↔
      (∀ values ∈ s.teacherLogProbs, values.length = 0) ∧
        ∀ values ∈ s.opdReverseKl, values.length = 0 := by
  show SampleArrays.Sample.validate _ = _ ↔ _
  rw [SampleArrays.Sample.validate_eq_ok]
  constructor
  · intro h
    exact ⟨h.teacherLogProbs, h.opdReverseKl⟩
  · intro h
    have hnone {α : Type} {P : α → Prop} : ∀ a ∈ (none : Option α), P a := by
      intro a ha
      cases ha
    exact ⟨le_refl 0, hnone, hnone, .inl ⟨rfl, rfl⟩, hnone, h.1, h.2, hnone, hnone, hnone, trivial,
      fun call hcall => absurd hcall List.not_mem_nil⟩

/-- But for its status, a reset sample is a fresh copy exactly when those fields are at their
    defaults. -/
theorem resetForRetry_eq_fresh_iff (s : Sample V) :
    { s.resetForRetry with status := .pending } = s.fresh ↔ s.UntouchedByAttempts := by
  constructor
  · intro h
    -- each of the fields is the one of the fresh copy
    exact ⟨congrArg teacherLogProbs h, congrArg opdReverseKl h, congrArg lineage h,
      congrArg rolloutId h, congrArg rewardSpec h⟩
  · intro h
    cases s
    obtain ⟨hteacher, hopd, hlineage, hrollout, hspec⟩ := h
    cases hteacher
    cases hopd
    cases hlineage
    cases hrollout
    cases hspec
    rfl

/-- A reset leaves nothing of an attempt behind exactly on the samples whose five fields are at
    their defaults. -/
theorem leavesNothingBehind_iff (s : Sample V) :
    s.LeavesNothingBehind ↔ s.UntouchedByAttempts := by
  constructor
  · intro h
    exact (resetForRetry_eq_fresh_iff s).mp h.defaults
  · intro h
    have hdefaults := (resetForRetry_eq_fresh_iff s).mpr h
    constructor
    · rw [validate_resetForRetry, h.teacherLogProbs, h.opdReverseKl]
      decide
    · exact hdefaults
    · intro β generate hstatus
      rw [← hdefaults, ← hstatus]
      rfl

/-- A finished sample of one token, scored by the teacher -/
def scored : Sample Unit :=
  { prompt := .text "2 + 2 =", tokens := [17, 19], response := "4", responseLength := 1,
    teacherLogProbs := some [0], status := .completed }

/-- It validates, and after a reset it does not. -/
theorem scored_resetForRetry_invalid :
    scored.validate = .ok () ∧
      scored.resetForRetry.validate = .error (.perToken .teacherLogProbs 1 0) := by
  decide

end Sample

end Miles.Rollout.SampleRetry
