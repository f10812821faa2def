import Miles.Spec.Session.Operations

/-!
# The representation invariant of a session

The parallel lists of a session describe one chain of checkpoints: equal lengths, strictly
increasing message ends, the last one at the end of the messages, and before each end the
assistant message of that checkpoint.

A commit appends the end computed from the request's messages, but builds the messages from
the current session.  The two agree exactly when the session has no more messages than the
request, and nothing in phase 3 checks that.

## Key results

- `RepInvariant.upTo`, `RepInvariant.withGeneration`: what the operations preserve
- `repInvariant_iff_commits_reach_end`: the invariant holds in all states of a run iff
  every commit of the run finds no more messages than its request has
- `repInvariant_broken`: a run that breaks it
-/

namespace Miles.Session

variable {Msg Args : Type}

/-- The parallel lists of a session describe one chain of checkpoints. -/
structure RepInvariant (s : LinearTrajectory Msg Args) : Prop where
  records : s.records.length = s.numAssistant
  tokens : s.trajectoryTokenIds.length = s.numAssistant
  turnArgs : s.turnArgsHistory.length = s.numAssistant
  ends : s.generatedCheckpointMessageEnds.length = s.numAssistant
  increasing : s.generatedCheckpointMessageEnds.Pairwise (· < ·)
  lastEnd : ∀ e, s.generatedCheckpointMessageEnds.getLast? = some e → e = s.messages.length
  generated : ∀ (i e : Nat) (record : SessionRecord Msg Args),
    s.generatedCheckpointMessageEnds[i]? = some e → s.records[i]? = some record →
    0 < e ∧ s.messages[e - 1]? = some record.assistantMessage

open LinearTrajectory

namespace RepInvariant

variable {s : LinearTrajectory Msg Args}

/-- A new session satisfies the invariant. -/
theorem init : RepInvariant ({} : LinearTrajectory Msg Args) where
  records := rfl
  tokens := rfl
  turnArgs := rfl
  ends := rfl
  increasing := .nil
  lastEnd := by simp
  generated := by simp

/-- No checkpoint ends past an end at a later index. -/
theorem end_mono (h : RepInvariant s) {i j e f : Nat} (hij : i ≤ j)
    (hi : s.generatedCheckpointMessageEnds[i]? = some e)
    (hj : s.generatedCheckpointMessageEnds[j]? = some f) : e ≤ f := by
  obtain rfl | hlt := Nat.eq_or_lt_of_le hij
  · rw [hi] at hj
    cases hj
    exact Nat.le_refl _
  · obtain ⟨hi', rfl⟩ := List.getElem?_eq_some_iff.mp hi
    obtain ⟨hj', rfl⟩ := List.getElem?_eq_some_iff.mp hj
    exact Nat.le_of_lt (List.pairwise_iff_getElem.mp h.increasing i j hi' hj' hlt)

/-- No checkpoint ends past the messages. -/
theorem end_le (h : RepInvariant s) {i e : Nat}
    (hi : s.generatedCheckpointMessageEnds[i]? = some e) : e ≤ s.messages.length := by
  obtain ⟨hlt, -⟩ := List.getElem?_eq_some_iff.mp hi
  have hlast : s.generatedCheckpointMessageEnds[s.generatedCheckpointMessageEnds.length - 1]? =
      some s.generatedCheckpointMessageEnds[s.generatedCheckpointMessageEnds.length - 1] :=
    List.getElem?_eq_getElem (by omega)
  rw [← h.lastEnd _ (List.getLast?_eq_getElem?.trans hlast)]
  exact h.end_mono (by omega) hi hlast

/-- The first `n` checkpoints do not end past the messages. -/
theorem messageEnd_le (h : RepInvariant s) (n : Nat) :
    s.checkpointMessageEnd (checkpointAt n) ≤ s.messages.length := by
  cases n with
  | zero => exact Nat.zero_le _
  | succ i =>
    simp only [checkpointAt, checkpointMessageEnd, List.getD_eq_getElem?_getD]
    cases hi : s.generatedCheckpointMessageEnds[i]? with
    | none => exact Nat.zero_le _
    | some e => exact h.end_le hi

/-- Rolling back keeps the invariant. -/
theorem upTo (h : RepInvariant s) (n : Nat) : RepInvariant (s.upTo n) := by
  by_cases hn : n < s.numAssistant
  · rw [upTo_of_lt s hn]
    have hmin : min n s.numAssistant = n := by omega
    refine ⟨?_, ?_, ?_, ?_, h.increasing.sublist (List.take_sublist ..), ?_, ?_⟩
    · simp [h.records, h.ends]
    · simp [h.tokens, h.ends]
    · simp [h.turnArgs, h.ends]
    · simp [h.ends]
    · intro e he
      cases n with
      | zero => simp at he
      | succ i =>
        rw [List.getLast?_eq_getElem?, List.length_take, h.ends, hmin,
          List.getElem?_take_of_lt (by omega)] at he
        simp only [Nat.add_sub_cancel] at he
        have hle : e ≤ s.messages.length := h.end_le he
        simp only [checkpointAt, checkpointMessageEnd, List.getD_eq_getElem?_getD, he,
          Option.getD_some, List.length_take]
        omega
    · intro i e record he hr
      simp only [List.getElem?_take] at he hr
      split at he
      · rename_i hi
        rw [if_pos hi] at hr
        obtain ⟨hpos, hmsg⟩ := h.generated i e record he hr
        refine ⟨hpos, ?_⟩
        cases n with
        | zero => exact absurd hi (by omega)
        | succ m =>
          obtain ⟨f, hf⟩ : ∃ f, s.generatedCheckpointMessageEnds[m]? = some f :=
            ⟨_, List.getElem?_eq_getElem (by have := h.ends; omega)⟩
          have hef : e ≤ f := h.end_mono (by omega) he hf
          simp only [checkpointAt, checkpointMessageEnd, List.getD_eq_getElem?_getD, hf,
            Option.getD_some]
          rw [List.getElem?_take_of_lt (by omega)]
          exact hmsg
      · cases he
  · rw [upTo_of_le s (by omega)]
    exact h

/-- Committing a generation keeps the invariant if its request has all messages of the session. -/
theorem withGeneration (h : RepInvariant s) {body : RequestBody Msg Args}
    (hlen : s.messages.length ≤ body.messages.length) (requestId : Nat)
    (assistantMessage : Msg) (completionTokenIds : List Nat) :
    RepInvariant (s.withGeneration requestId body assistantMessage completionTokenIds) := by
  refine ⟨?_, ?_, ?_, ?_, ?_, ?_, ?_⟩
  · simp [LinearTrajectory.withGeneration, h.records, h.ends]
  · simp [LinearTrajectory.withGeneration, h.tokens, h.ends]
  · simp [LinearTrajectory.withGeneration, h.turnArgs, h.ends]
  · simp [LinearTrajectory.withGeneration]
  · simp only [LinearTrajectory.withGeneration, List.pairwise_append, List.pairwise_singleton,
      List.mem_singleton, forall_eq, true_and]
    refine ⟨h.increasing, fun e he => ?_⟩
    obtain ⟨i, hi⟩ := List.mem_iff_getElem?.mp he
    have := h.end_le hi
    omega
  · intro e he
    simp only [LinearTrajectory.withGeneration, List.getLast?_append, List.getLast?_singleton,
      Option.some_or, Option.some.injEq] at he
    simp only [LinearTrajectory.withGeneration, List.length_append, List.length_drop,
      List.length_singleton]
    omega
  · intro i e record he hr
    simp only [LinearTrajectory.withGeneration] at he hr ⊢
    by_cases hi : i < s.numAssistant
    · rw [List.getElem?_append_left (by have := h.ends; omega)] at he
      rw [List.getElem?_append_left (by have := h.records; omega)] at hr
      obtain ⟨hpos, hmsg⟩ := h.generated i e record he hr
      have := h.end_le he
      refine ⟨hpos, ?_⟩
      rw [List.append_assoc, List.getElem?_append_left (by omega)]
      exact hmsg
    · rw [List.getElem?_append_right (by have := h.ends; omega), h.ends] at he
      rw [List.getElem?_append_right (by have := h.records; omega), h.records] at hr
      -- the appended entry
      rw [List.getElem?_singleton] at he hr
      split at he
      · rename_i h0
        rw [if_pos h0] at hr
        cases he
        cases hr
        refine ⟨by omega, ?_⟩
        have hidx : body.messages.length + 1 - 1 =
            (s.messages ++ body.messages.drop s.messages.length).length := by
          simp only [List.length_append, List.length_drop]
          omega
        rw [hidx, List.getElem?_append_right (Nat.le_refl _)]
        simp
      · cases he
/-- A commit that keeps the invariant is of a request with all messages of the session. -/
theorem length_le_of_withGeneration {requestId : Nat} {body : RequestBody Msg Args}
    {assistantMessage : Msg} {completionTokenIds : List Nat}
    (h : RepInvariant (s.withGeneration requestId body assistantMessage completionTokenIds)) :
    s.messages.length ≤ body.messages.length := by
  have hlast := h.lastEnd (body.messages.length + 1) (by
    simp [LinearTrajectory.withGeneration])
  simp only [LinearTrajectory.withGeneration, List.length_append, List.length_drop,
    List.length_singleton] at hlast
  omega

end RepInvariant

namespace SessionWorld

/-- The session has no more messages than the request. -/
def RequestReachesEnd (w : SessionWorld Msg Args) (r : InFlight Msg Args) : Prop :=
  w.session.messages.length ≤ r.body.messages.length

/-- An event keeps the invariant when every commit finds no more messages than its request
    has. -/
theorem repInvariant_step {cfg : Config Msg Args} {w w' : SessionWorld Msg Args}
    {e : Event Msg Args} (hs : w.session.Aligned ∧ RepInvariant w.session)
    (hcommit : AtCommit cfg RequestReachesEnd w e) (h : step cfg w e = some w') :
    w'.session.Aligned ∧ RepInvariant w'.session := by
  obtain ⟨haligned, hrep⟩ := hs
  refine ⟨aligned_step haligned h, ?_⟩
  cases step_transition haligned h with
  | turnedAway => exact hrep
  | refused _ _ n => exact hrep.upTo n
  | prepared _ _ n => exact hrep.upTo n
  | skipped => exact hrep
  | committed r result a ids found completion admits =>
    exact hrep.withGeneration (hcommit r a ids found completion admits) _ _ _
  | cancelled => exact hrep
  | closed =>
    exact ⟨hrep.records, hrep.tokens, hrep.turnArgs, hrep.ends, hrep.increasing, hrep.lastEnd,
      hrep.generated⟩
  | removed => exact hrep

/-- A response that passes the checks of phase 3 is committed. -/
theorem step_committed {cfg : Config Msg Args} {w : SessionWorld Msg Args} {id : Nat}
    {result : ProxyResult Msg} {r : InFlight Msg Args} {a : Msg} {ids : List Nat}
    (hfind : w.find id = some r) (hcompletion : result.completion cfg = some (a, ids))
    (hadmits : w.session.Admits cfg r.body r.expectedNumAssistant ids) :
    step cfg w (.answer id result) = some { w with
      session := w.session.withGeneration r.requestId r.body a ids
      inFlight := w.others r.requestId
      commits := w.commits ++
        [{ request := r, before := w.session, assistantMessage := a,
           completionTokenIds := ids }] } := by
  simp only [step, hfind, Option.map_some, answer]
  obtain ⟨hnot, -⟩ | ⟨a', ids', hcompletion', -, hrun⟩ :=
    finishRequest_cases cfg r.requestId r.body r.expectedNumAssistant result w.session
  · exact absurd hadmits (hnot a ids hcompletion)
  · rw [hcompletion] at hcompletion'
    cases hcompletion'
    rw [hrun]

/-- In every run, the invariant holds in all states iff every commit finds no more messages
    in the session than its request has. -/
theorem repInvariant_iff_commits_reach_end (cfg : Config Msg Args)
    (es : List (Event Msg Args)) :
    Lts.StatesWhere (step cfg) (fun w => RepInvariant w.session) {} es ↔
      Lts.StepsWhere (step cfg) (AtCommit cfg RequestReachesEnd) {} es := by
  constructor
  · intro h
    rw [Lts.stepsWhere_iff]
    rintro pre e post w rfl hrun
    cases e with
    | answer id result =>
      intro r a ids hfind hcompletion hadmits
      have hstep := step_committed hfind hcompletion hadmits
      have hinv := h (pre ++ [.answer id result]) post _ (by simp)
        (Lts.run_concat.mpr ⟨w, hrun, hstep⟩)
      exact hinv.length_le_of_withGeneration
    | _ => trivial
  · intro h
    have hboth := Lts.statesWhere_of_stepsWhere
      (I := fun w => w.session.Aligned ∧ RepInvariant w.session)
      (fun _ _ _ hs hC => repInvariant_step hs hC) ⟨.init, .init⟩ h
    exact fun pre post w heq hrun => (hboth pre post w heq hrun).2

end SessionWorld

/-! ### A run that breaks the invariant -/

/-- A message of one token, with a field that the template does not render. -/
structure PlainMessage where
  token : Nat
  unrendered : Nat := 0
  deriving DecidableEq, Repr

/-- A template that renders one token for each message. -/
def plainTokenizer : TitoTokenizer PlainMessage Unit where
  maxTrimTokens := 0
  allowedAppendRole _ := true
  applyChatTemplate messages _ := .ok (messages.map (·.token))
  mergeTokens old new tokenIds _ := .ok (tokenIds ++ (new.drop old.length).map (·.token))
  postprocessCompletion message _ := message
  preserveServerMessageState _ request := request
  preserve_length _ _ := rfl
  preserve_drop _ _ := rfl

/-- A server that compares messages by all their fields. -/
def plainConfig : Config PlainMessage Unit where
  tokenizer := plainTokenizer
  matcher a b := .ok (decide (a = b))
  prepareChatRequest client _ := .ok
    { messages := client.messages, inputIds := [], returnRoutedExperts := false,
      routedExpertsStartLen := none, args := () }
  useAdditionR3 := false
  prepare_messages _ _ _ h := by
    cases h
    rfl

/-- A complete answer of the backend. -/
def plainAnswer (message : PlainMessage) (tokenIds : List Nat) : ProxyResult PlainMessage where
  statusCode := 200
  choice :=
    { finishReason := .stop
      metaInfo := some { outputTokenIds := tokenIds, completionTokens := tokenIds.length }
      message := some message }

/-- Request 1 continues the first answer.  While it is proxied, request 2 resends that
    answer with another unrendered field, so the session is rolled back to empty, and
    its own answer brings the session back to one checkpoint, with two more messages. -/
def resentAnswerRun : List (Event PlainMessage Unit) :=
  [.chat 0 ⟨[⟨1, 0⟩], ()⟩, .answer 0 (plainAnswer ⟨2, 0⟩ [2]),
   .chat 1 ⟨[⟨1, 0⟩, ⟨2, 0⟩, ⟨3, 0⟩], ()⟩,
   .chat 2 ⟨[⟨1, 0⟩, ⟨2, 1⟩, ⟨3, 0⟩], ()⟩, .answer 2 (plainAnswer ⟨4, 0⟩ [4]),
   .answer 1 (plainAnswer ⟨5, 0⟩ [4, 5])]

/-- After that run the message ends are `[4, 4]`, with five messages. -/
theorem repInvariant_broken :
    ∃ w, Lts.run (SessionWorld.step plainConfig) {} resentAnswerRun = some w ∧
      w.session.generatedCheckpointMessageEnds = [4, 4] ∧
      w.session.messages.length = 5 ∧ ¬ RepInvariant w.session := by
  refine ⟨_, rfl, rfl, rfl, fun h => ?_⟩
  have hincreasing := h.increasing
  revert hincreasing
  decide

end Miles.Session
