import Miles.Native.Tinker.Submission
import Miles.Spec.Tinker.DecodeTotal
import Miles.Spec.Tinker.PendingRuns

/-!
# Submission is atomic up to what escapes validation

A submission should either be refused, with nothing changed, or record one future and enqueue one
command.  Content whose validation raises anything but `UserInputError` breaks this: a loss
function with no hash, or an integer in the configuration that is too large for a float.
-/

namespace Miles.Tinker

open PyJson Encoding

variable {py : PyRuntime} {limits : GatewayLimits}

/-! ## What escapes validation -/

/-- `submit` turns only `UserInputError` into a validation error. -/
def isUserError : PyError UserInputError → Bool
  | .raised _ => true
  | .builtin _ => false

@[simp] theorem isUserError_raised (e : UserInputError) : isUserError (.raised e) = true := rfl

@[simp] theorem isUserError_builtin (e : PyBuiltin) : isUserError (.builtin e) = false := rfl

@[simp] theorem not_escapes_rejected {α : Type} (text : String) :
    ¬ (reject text : Checked α).Escapes isUserError := by simp [reject]

/-- A list or an object has no hash. -/
def Unhashable (v : PyJson) : Prop := v.isArr = true ∨ v.isObj = true

/-- A number of the configuration that passes its check, if it is given. -/
def FiniteIfGiven (config : List (String × PyJson)) (key : String) : Prop :=
  ∀ v, config.lookup key = some v →
    (∃ n, v = .int n ∧ FitsFloat n) ∨ ∃ x, v = .float x ∧ x.isFinite = true

/-- A given integer that is too large for a float. -/
def HugeGiven (config : List (String × PyJson)) (key : String) : Prop :=
  ∃ v, config.lookup key = some v ∧ v.IsHuge

/-- The keys of the configuration that are checked for a loss function. -/
def checkedKeys (name : String) : List String := (lossConfigKeys.lookup name).getD []

/-- Data in an allowed number, with a loss function that has no hash, or with a known one and an
    integer in its configuration that is too large, after numbers that pass. -/
def EscapingContent (limits : GatewayLimits) (content : BatchContent) : Prop :=
  content.datums ≠ [] ∧ content.datums.length ≤ limits.maxDatumsPerRequest ∧
    (Unhashable content.lossFn ∨ ∃ name config, content.lossFn = .str name ∧
      (lossFnInputs.lookup name).isSome = true ∧ content.lossFnConfig = .obj config ∧
      (checkedKeys name).FirstAt (FiniteIfGiven config) (HugeGiven config))

theorem returns_validateConfigKey {config : List (String × PyJson)} {key : String} :
    (validateConfigKey py config key).Returns ↔ FiniteIfGiven config key := by
  unfold validateConfigKey FiniteIfGiven
  cases config.lookup key with
  | none => simp
  | some v =>
    dsimp only
    rw [Except.returns_bind]
    cases v with
    | int n => by_cases h : FitsFloat n <;> simp [isFiniteNumber, h]
    | float x => cases h : x.isFinite <;> simp [isFiniteNumber, h]
    | _ => simp [isFiniteNumber]

theorem escapes_validateConfigKey {config : List (String × PyJson)} {key : String} :
    (validateConfigKey py config key).Escapes isUserError ↔ HugeGiven config key := by
  unfold validateConfigKey HugeGiven
  cases config.lookup key with
  | none => simp
  | some v =>
    dsimp only
    rw [Except.escapes_bind]
    cases v with
    | int n => by_cases h : FitsFloat n <;> simp [isFiniteNumber, IsHuge, h]
    | float x => cases h : x.isFinite <;> simp [isFiniteNumber, IsHuge, h]
    | _ => simp [isFiniteNumber, IsHuge]

/-- A check of a condition. -/
theorem not_escapes_if {α : Type} {p : Prop} [Decidable p] {a : α} {text : String} :
    ¬ (if p then .ok a else reject text : Checked α).Escapes isUserError := by
  split
  · exact Except.not_escapes_ok a
  · exact not_escapes_rejected text

theorem not_escapes_validateRequiredInput (lossFn : PyJson) (index : Nat) (datum : WireDatum)
    (wireKey : String) :
    ¬ (validateRequiredInput py lossFn index datum wireKey).Escapes isUserError := by
  unfold validateRequiredInput
  split
  · exact not_escapes_rejected _
  · exact not_escapes_if

theorem not_escapes_forM {α : Type} {xs : List α} {f : α → Checked Unit}
    (hf : ∀ x, ¬ (f x).Escapes isUserError) : ¬ (xs.forM f).Escapes isUserError := by
  rw [Except.escapes_forM]
  rintro ⟨_, x, _, _, _, hx⟩
  exact hf x hx

/-- The checks of a datum reject, and raise nothing else. -/
theorem not_escapes_validateDatum (lossFn : PyJson) (required : List String) (index : Nat)
    (datum : WireDatum) :
    ¬ (validateDatum py limits lossFn required index datum).Escapes isUserError := by
  unfold validateDatum
  refine Except.not_escapes_bind not_escapes_if fun _ => ?_
  refine Except.not_escapes_bind not_escapes_if fun _ => ?_
  split
  · exact not_escapes_rejected _
  · refine Except.not_escapes_bind
      (not_escapes_forM (not_escapes_validateRequiredInput lossFn index datum)) fun _ => ?_
    dsimp only
    split
    · exact Except.not_escapes_pure _
    · exact not_escapes_rejected _

/-- What is checked once the loss function is known. -/
theorem not_escapes_datums (content : BatchContent) (required : List String) :
    ¬ (content.datums.zipIdx.mapM fun x =>
      validateDatum py limits content.lossFn required x.2 x.1).Escapes isUserError := by
  rw [Except.escapes_mapM]
  rintro ⟨_, x, _, _, _, hx⟩
  exact not_escapes_validateDatum content.lossFn required x.2 x.1 hx

theorem escapes_validateLossFnConfig {lossFn config : PyJson} :
    (validateLossFnConfig py lossFn config).Escapes isUserError ↔
      ∃ name fields, lossFn = .str name ∧ config = .obj fields ∧
        (checkedKeys name).FirstAt (FiniteIfGiven fields) (HugeGiven fields) := by
  unfold validateLossFnConfig
  cases config with
  | obj fields =>
    dsimp only
    rw [Except.escapes_forM]
    simp only [returns_validateConfigKey, escapes_validateConfigKey]
    cases lossFn with
    | str name => simp [checkedKeys]
    | _ => simp [List.firstAt_nil]
  | _ => simp [not_escapes_rejected]

theorem escapes_lossFnInputsOf {lossFn : PyJson} :
    (lossFnInputsOf lossFn).Escapes isUserError ↔ Unhashable lossFn := by
  cases lossFn <;> simp [lossFnInputsOf, Unhashable, isArr, isObj]

/-- Exactly this content escapes validation. -/
theorem escapes_validateBatchPayload (py : PyRuntime) {content : BatchContent} :
    (validateBatchPayload py limits content).Escapes isUserError ↔
      EscapingContent limits content := by
  unfold validateBatchPayload EscapingContent
  split
  · next hempty => exact iff_of_false (not_escapes_rejected _) fun h => h.1 hempty
  · next hnonempty =>
    split
    · next hmany => exact iff_of_false (not_escapes_rejected _) fun h => by omega
    · next hfew =>
      rw [Except.escapes_bind, escapes_lossFnInputsOf, and_iff_right hnonempty,
        and_iff_right (by omega)]
      refine or_congr_right ?_
      constructor
      · rintro ⟨required, hrequired, h⟩
        split at h
        · exact absurd h (not_escapes_rejected _)
        · next required =>
          rcases Except.escapes_bind.mp h with h | ⟨_, -, h⟩
          · obtain ⟨name, config, hname, hconfig, hfirst⟩ := escapes_validateLossFnConfig.mp h
            refine ⟨name, config, hname, ?_, hconfig, hfirst⟩
            rw [hname] at hrequired
            rw [Except.ok.inj hrequired]
            rfl
          · rcases Except.escapes_bind.mp h with h | ⟨lengths, -, h⟩
            · exact absurd h (not_escapes_datums content required)
            · split at h
              · exact absurd h (not_escapes_rejected _)
              · exact absurd h (Except.not_escapes_ok _)
      · rintro ⟨name, config, hname, hknown, hconfig, hfirst⟩
        obtain ⟨required, hrequired⟩ := Option.isSome_iff_exists.mp hknown
        refine ⟨some required, ?_, Except.escapes_bind.mpr (.inl ?_)⟩
        · rw [hname]
          exact congrArg Except.ok hrequired
        · exact escapes_validateLossFnConfig.mpr ⟨name, config, hname, hconfig, hfirst⟩

namespace WireCommand

/-- A batch whose content escapes validation. -/
def Escaping (limits : GatewayLimits) (command : WireCommand) : Prop :=
  ∃ forwardOnly content, command = batch forwardOnly (.ok content) ∧
    EscapingContent limits content

variable {command : WireCommand}

/-- Validation ends with a verdict unless the content escapes. -/
theorem validationError_returns (py : PyRuntime) :
    (command.validationError py limits).Returns ↔ ¬ command.Escaping limits := by
  unfold Escaping
  cases command with
  | barrier type error => exact iff_of_true ⟨error, rfl⟩ fun ⟨_, _, h, _⟩ => nomatch h
  | batch forwardOnly content =>
    cases content with
    | error text => exact iff_of_true ⟨some text, rfl⟩ fun ⟨_, _, h, _⟩ => nomatch h
    | ok content =>
      simp only [batch.injEq, Except.ok.injEq, and_assoc, exists_and_left, exists_eq_left']
      rw [← escapes_validateBatchPayload py]
      unfold validationError
      cases hvalid : validateBatchPayload py limits content with
      | ok u => simp [hvalid]
      | error e => cases e <;> simp [hvalid]

end WireCommand

/-! ## One submission -/

namespace Service

open Lts Relation

variable {config : GatewayConfig} {s s' : Service}

/-- The submission reaches validation: the model is the tenant's, and the sequence number is
    valid and new. -/
def New (s : Service) (tenant : String) (modelId : Nat) (seqId : Int) : Prop :=
  1 ≤ seqId ∧ ∃ r, s.getModel tenant modelId = .ok r ∧
    r.requestIdBySeq.lookup seqId.toNat = none

/-- The sequence number is in use. -/
def Retry (s : Service) (tenant : String) (modelId : Nat) (seqId : Int) : Prop :=
  1 ≤ seqId ∧ ∃ r requestId, s.getModel tenant modelId = .ok r ∧
    r.requestIdBySeq.lookup seqId.toNat = some requestId

/-- Exactly one future is recorded, under the sequence number, and exactly one command is put
    into the queue of the model. -/
structure Admitted (s s' : Service) (tenant : String) (modelId seqId requestId : Nat) : Prop where
  future : s'.futures = s.futures ++ [{ requestId, owner := .model modelId, tenant }]
  named : s'.models = (s.modifyModel modelId fun r =>
    { r with requestIdBySeq := (seqId, requestId) :: r.requestIdBySeq }).models
  command : ∃ command : Command, command.key = (modelId, seqId) ∧ command.requestId = requestId ∧
    submissions s'.trace = submissions s.trace ++ [command] ∧
    s'.queues = (s.modifyQueue modelId (·.submit command)).queues

/-- A submission that raises changes nothing; one that returns is a retry, which puts nothing
    into a queue, or is admitted. -/
def Atomic (s : Service) (tenant : String) (modelId : Nat) (seqId : Int)
    (res : Service × Except SubmitError Nat) : Prop :=
  (∃ e, res.2 = .error e ∧ res.1 = s) ∨
  (∃ requestId, res.2 = .ok requestId ∧ s.Retry tenant modelId seqId ∧ res.1.queues = s.queues ∧
    submissions res.1.trace = submissions s.trace) ∨
  ∃ requestId, res.2 = .ok requestId ∧ s.New tenant modelId seqId ∧
    Admitted s res.1 tenant modelId seqId.toNat requestId

/-- The answer of the service model, with the state after it. -/
def answerOf (s : Service) : Except RequestError (Nat × Service) → Service × Except SubmitError Nat
  | .ok (requestId, s') => (s', .ok requestId)
  | .error e => (s, .error (.request e))

/-- If validation ends with a verdict, a submission is one with this verdict. -/
theorem submitDecoded_eq {verdict : Option String}
    (hverdict : command.validationError py limits = .ok verdict) (tenant : String)
    (modelId : Nat) (seqId : Int) (payload : Payload) :
    s.submitDecoded py limits tenant modelId seqId command payload =
      s.answerOf (s.submit tenant modelId seqId command.op payload verdict) := by
  unfold submitDecoded submit
  cases s.getModel tenant modelId with
  | error e => rfl
  | ok r =>
    rw [Except.ok_bind]
    dsimp only
    split
    · rfl
    · cases r.requestIdBySeq.lookup seqId.toNat with
      | some requestId => rfl
      | none =>
        dsimp only
        rw [hverdict]
        rfl

theorem submissions_submitted (c : Command) (s : Service) :
    submissions (s.record (.submitted c)).trace = submissions s.trace ++ [c] :=
  submissions_append _ _

/-- A submission with a verdict is atomic. -/
theorem atomic_of_verdict {verdict : Option String}
    (hverdict : command.validationError py limits = .ok verdict) (tenant : String)
    (modelId : Nat) (seqId : Int) (payload : Payload) :
    s.Atomic tenant modelId seqId
      (s.submitDecoded py limits tenant modelId seqId command payload) := by
  rw [submitDecoded_eq hverdict]
  cases hsubmit : s.submit tenant modelId seqId command.op payload verdict with
  | error e => exact .inl ⟨.request e, rfl, rfl⟩
  | ok res =>
    obtain ⟨r, hr, hseq, ⟨requestId, hlookup, rfl⟩ | ⟨hlookup, admitted, hadmitted, rfl⟩⟩ :=
      submit_cases hsubmit
    · obtain ⟨futures, nextId, -, hframe⟩ :=
        requestIdForRetry_frame requestId (.model modelId) tenant s
      refine .inr (.inl ⟨_, rfl, ⟨hseq, r, requestId, hr, hlookup⟩, ?_, ?_⟩)
      · show (s.requestIdForRetry requestId (.model modelId) tenant).2.queues = s.queues
        rw [hframe]
      · show submissions (s.requestIdForRetry requestId (.model modelId) tenant).2.trace = _
        rw [hframe]
    · refine .inr (.inr ⟨s.nextId, rfl, ⟨hseq, r, hr, hlookup⟩, rfl, rfl, admitted, ?_, ?_, ?_,
        rfl⟩)
      · rw [hadmitted]
        rfl
      · rw [hadmitted]
      · exact submissions_submitted admitted s

/-- A new submission whose validation raises leaves a future, and no command. -/
theorem stranded (py : PyRuntime) (hescapes : command.Escaping limits) {tenant : String}
    {modelId : Nat} {seqId : Int} (hnew : s.New tenant modelId seqId) (payload : Payload) :
    ∃ e, (s.submitDecoded py limits tenant modelId seqId command payload).2 = .error e ∧
      (s.submitDecoded py limits tenant modelId seqId command payload).1.futures =
        s.futures ++ [{ requestId := s.nextId, owner := .model modelId, tenant }] := by
  obtain ⟨hseq, r, hr, hlookup⟩ := hnew
  unfold submitDecoded
  rw [hr]
  dsimp only
  rw [if_neg (by omega), hlookup]
  dsimp only
  cases hverdict : command.validationError py limits with
  | ok verdict =>
    exact absurd hescapes ((WireCommand.validationError_returns py).mp ⟨verdict, hverdict⟩)
  | error e => exact ⟨.raised e, rfl, rfl⟩

/-- A submission that does not reach validation does not depend on what it would say. -/
theorem submitDecoded_of_not_new {tenant : String} {modelId : Nat} {seqId : Int}
    (hnew : ¬ s.New tenant modelId seqId) (command other : WireCommand) (payload : Payload) :
    s.submitDecoded py limits tenant modelId seqId command payload =
      s.submitDecoded py limits tenant modelId seqId other payload := by
  unfold submitDecoded
  cases hr : s.getModel tenant modelId with
  | error e => rfl
  | ok r =>
    dsimp only
    split
    · rfl
    · next hseq =>
      cases hlookup : r.requestIdBySeq.lookup seqId.toNat with
      | some requestId => rfl
      | none => exact absurd ⟨by omega, r, hr, hlookup⟩ hnew

/-- The submission leaves a future without a command. -/
def Strands (limits : GatewayLimits) (s : Service) : WireEvent → Prop
  | .submit tenant modelId seqId command _ =>
    s.New tenant modelId seqId ∧ command.Escaping limits
  | .other _ => False

theorem atomic_iff {tenant : String} {modelId : Nat} {seqId : Int}
    {payload : Payload} :
    s.Atomic tenant modelId seqId
        (s.submitDecoded py limits tenant modelId seqId command payload) ↔
      ¬ Strands limits s (.submit tenant modelId seqId command payload) := by
  by_cases hnew : s.New tenant modelId seqId
  · by_cases hescapes : command.Escaping limits
    · refine iff_of_false (fun h => ?_) (not_not.mpr ⟨hnew, hescapes⟩)
      obtain ⟨e, herror, hfutures⟩ := stranded py hescapes hnew payload
      obtain ⟨_, -, hsame⟩ | ⟨_, hok, -⟩ | ⟨_, hok, -⟩ := h
      · rw [hsame] at hfutures
        have hlen := congrArg List.length hfutures
        rw [List.length_append] at hlen
        simp at hlen
      · rw [herror] at hok
        cases hok
      · rw [herror] at hok
        cases hok
    · obtain ⟨verdict, hverdict⟩ :=
        (WireCommand.validationError_returns py).mpr hescapes
      exact iff_of_true (atomic_of_verdict hverdict tenant modelId seqId payload)
        fun h => hescapes h.2
  · refine iff_of_true ?_ fun h => hnew h.1
    rw [submitDecoded_of_not_new hnew command (.barrier .optimStep none)]
    exact atomic_of_verdict rfl tenant modelId seqId payload

/-! ## Runs -/

/-- A submission that strands nothing keeps the invariant. -/
theorem HolderInv.submitDecoded (h : s.HolderInv) {tenant : String} {modelId : Nat} {seqId : Int}
    {payload : Payload}
    (hclean : ¬ Strands limits s (.submit tenant modelId seqId command payload)) :
    (s.submitDecoded py limits tenant modelId seqId command payload).1.HolderInv := by
  -- it is a submission of the service model, with the verdict of some command
  have hverdict : ∃ other verdict, other.validationError py limits = .ok verdict ∧
      s.submitDecoded py limits tenant modelId seqId command payload =
        s.submitDecoded py limits tenant modelId seqId other payload := by
    by_cases hescapes : command.Escaping limits
    · have hnew : ¬ s.New tenant modelId seqId := fun hnew => hclean ⟨hnew, hescapes⟩
      exact ⟨.barrier .optimStep none, none, rfl, submitDecoded_of_not_new hnew _ _ payload⟩
    · obtain ⟨verdict, hverdict⟩ :=
        (WireCommand.validationError_returns py).mpr hescapes
      exact ⟨command, verdict, hverdict, rfl⟩
  obtain ⟨other, verdict, hverdict, heq⟩ := hverdict
  rw [heq, submitDecoded_eq hverdict]
  have hstep : Service.step ⟨0, 0, 0⟩ s (.submit tenant modelId seqId other.op payload verdict) =
      some (s.answerOf (s.submit tenant modelId seqId other.op payload verdict)).1 := by
    show some (s.afterRequest _) = _
    cases s.submit tenant modelId seqId other.op payload verdict <;> rfl
  exact h.step hstep

theorem HolderInv.wireStep (h : s.HolderInv) {e : WireEvent} (hclean : ¬ Strands limits s e)
    (hs : Service.wireStep py limits config s e = some s') : s'.HolderInv := by
  cases e with
  | submit tenant modelId seqId command payload =>
    cases hs
    exact h.submitDecoded hclean
  | other e =>
    have hstep : Service.step config s e = some s' := by
      unfold Service.wireStep at hs
      split at hs
      · next heq => cases heq
      · cases hs
      · next heq =>
        cases heq
        exact hs
    exact h.step hstep

/-- A submission is atomic exactly if it strands no future; and in every run without such a
    submission, the pending sequence numbers of a live model are those of the commands in its
    queue or reorder buffer, and every sequence number it knows is one of an admitted command. -/
theorem submit_atomic (py : PyRuntime) (limits : GatewayLimits) (config : GatewayConfig) :
    (∀ (s : Service) tenant modelId seqId command payload,
      s.Atomic tenant modelId seqId
          (s.submitDecoded py limits tenant modelId seqId command payload) ↔
        ¬ Strands limits s (.submit tenant modelId seqId command payload)) ∧
    ∀ (es : List WireEvent) (s : Service),
      StepsWhere (wireStep py limits config) (fun m e => ¬ Strands limits m e)
        (Tinker.init config) es →
      run (wireStep py limits config) (Tinker.init config) es = some s →
      ∀ r ∈ s.models, ∀ seqId : Nat,
        ((∃ requestId, r.requestIdBySeq.lookup seqId = some requestId ∧ s.Pending requestId) ↔
          ∃ q ∈ s.queues, q.modelId = r.modelId ∧ seqId ∈ q.outstanding.map (·.seqId)) ∧
        ∀ requestId, r.requestIdBySeq.lookup seqId = some requestId →
          ∃ c ∈ submissions s.trace, c.key = (r.modelId, seqId) := by
  refine ⟨fun s tenant modelId seqId command payload => atomic_iff, ?_⟩
  intro es s hclean hrun r hr seqId
  have hinv : s.HolderInv :=
    run_invariant_where (fun _ _ _ h hc hs => h.wireStep hc hs) (.init config) hclean hrun
  refine ⟨hinv.pending.pending_iff_outstanding r hr seqId, fun requestId hlookup => ?_⟩
  exact hinv.pending.commands r.modelId seqId requestId ⟨r, hr, rfl, List.mem_of_lookup hlookup⟩

/-- A gateway with a small vocabulary. -/
def smallLimits : GatewayLimits := { vocabSize := 100 }

/-- One datum without weights. -/
def plainContent (lossFn : PyJson) : BatchContent where
  datums := [⟨[.int 1, .int 2], 1, [.int 2], []⟩]
  lossFn := lossFn
  lossFnConfig := .obj []

/-- A model, and a batch of it with this loss function. -/
def batchRun (lossFn : PyJson) : List WireEvent :=
  [.other (.createSession "a"), .other (.createModel "a" 0 0 true),
    .submit "a" 1 1 (.batch false (.ok (plainContent lossFn))) {}]

/-- The state after `batchRun`. -/
def batchState (lossFn : PyJson) : Service :=
  (run (wireStep Encoding.plainRuntime smallLimits ⟨1, 10, 100⟩) (Tinker.init ⟨1, 10, 100⟩)
    (batchRun lossFn)).getD (Tinker.init ⟨1, 10, 100⟩)

theorem submit_atomic_unknownLoss :
    ∀ r ∈ (batchState (.str "mse")).models, ∀ seqId : Nat,
      ((∃ requestId, r.requestIdBySeq.lookup seqId = some requestId ∧
          (batchState (.str "mse")).Pending requestId) ↔
        ∃ q ∈ (batchState (.str "mse")).queues, q.modelId = r.modelId ∧
          seqId ∈ q.outstanding.map (·.seqId)) ∧
      ∀ requestId, r.requestIdBySeq.lookup seqId = some requestId →
        ∃ c ∈ submissions (batchState (.str "mse")).trace, c.key = (r.modelId, seqId) := by
  refine (submit_atomic Encoding.plainRuntime smallLimits ⟨1, 10, 100⟩).2
    (batchRun (.str "mse")) (batchState (.str "mse")) ⟨id, fun s₁ h₁ => ?_⟩ rfl
  refine ⟨id, fun s₂ h₂ => ⟨?_, fun _ _ => trivial⟩⟩
  -- an unknown name has a hash, and is rejected
  rintro ⟨-, forwardOnly, content, hcommand, hescapes⟩
  cases hcommand
  obtain ⟨-, -, hhash | ⟨name, config, hname, hknown, -⟩⟩ := hescapes
  · obtain h | h := hhash <;> cases h
  · cases hname
    exact absurd hknown (by decide)

/-- A list as loss function: the future of the sequence number is pending, no queue has a command
    for it, and a second submission is answered as a retry. -/
theorem submit_listLoss_stranded :
    run (wireStep Encoding.plainRuntime smallLimits ⟨1, 10, 100⟩) (Tinker.init ⟨1, 10, 100⟩)
      (batchRun (.arr [])) = some (batchState (.arr [])) ∧
    (∃ r ∈ (batchState (.arr [])).models, r.requestIdBySeq.lookup 1 = some 3 ∧
      (batchState (.arr [])).Pending 3 ∧
      ¬ ∃ q ∈ (batchState (.arr [])).queues, q.modelId = r.modelId ∧
        1 ∈ q.outstanding.map (·.seqId)) ∧
    ((batchState (.arr [])).submitDecoded Encoding.plainRuntime smallLimits "a" 1 1
      (.batch false (.ok (plainContent (.arr [])))) {}).2 = .ok 3 := by
  refine ⟨rfl, ?_, rfl⟩
  refine ⟨_, List.mem_singleton.mpr rfl, rfl, ?_, ?_⟩
  · exact ⟨_, List.mem_cons_of_mem _ List.mem_cons_self, rfl, rfl⟩
  · rintro ⟨q, hq, -, hseq⟩
    obtain rfl := List.mem_singleton.mp hq
    exact absurd hseq List.not_mem_nil

end Service

end Miles.Tinker
