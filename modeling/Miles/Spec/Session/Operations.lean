import Miles.Native.Session.Core

/-!
# What one session operation does

One inversion lemma for each operation: every way it can end, with the state it leaves.
The proofs about interleavings use these and never unfold the operations.
-/

namespace Miles.Session

variable {Msg Args : Type}

namespace LinearTrajectory

/-- The index of the last of the first `n` checkpoints. -/
def checkpointAt : Nat → Option Nat
  | 0 => none
  | n + 1 => some n

/-- The session with its first `n` checkpoints only. -/
def upTo (s : LinearTrajectory Msg Args) (n : Nat) : LinearTrajectory Msg Args :=
  s.rollbackToCheckpoint (checkpointAt n)

/-- The session after a generation was committed to it. -/
def withGeneration (s : LinearTrajectory Msg Args) (requestId : Nat)
    (body : RequestBody Msg Args) (assistantMessage : Msg) (completionTokenIds : List Nat) :
    LinearTrajectory Msg Args :=
  { s with
    messages := s.messages ++ body.messages.drop s.messages.length ++ [assistantMessage]
    records := s.records ++
      [{ requestId, request := body, assistantMessage, completionTokenIds }]
    trajectoryTokenIds := s.trajectoryTokenIds ++ [body.inputIds ++ completionTokenIds]
    turnArgsHistory := s.turnArgsHistory ++ [body]
    generatedCheckpointMessageEnds :=
      s.generatedCheckpointMessageEnds ++ [body.messages.length + 1]
    numAssistant := s.generatedCheckpointMessageEnds.length + 1 }

/-- The parallel lists have one entry per checkpoint, and no checkpoint means no message. -/
structure Aligned (s : LinearTrajectory Msg Args) : Prop where
  records : s.records.length = s.numAssistant
  tokens : s.trajectoryTokenIds.length = s.numAssistant
  turnArgs : s.turnArgsHistory.length = s.numAssistant
  ends : s.generatedCheckpointMessageEnds.length = s.numAssistant
  messages : s.numAssistant = 0 → s.messages = []

/-- The checks a response passes before it changes the session. -/
structure Admits (s : LinearTrajectory Msg Args) (cfg : Config Msg Args)
    (body : RequestBody Msg Args) (expectedNumAssistant : Nat)
    (completionTokenIds : List Nat) : Prop where
  open_ : s.closing = false
  count : s.numAssistant = expectedNumAssistant
  stored_prefix : assertPretokenizedPrefix s.tokenIds (body.inputIds ++ completionTokenIds)
    cfg.tokenizer.maxTrimTokens = .ok ()

/-- The request was prepared against this session: its prompt was rendered from the last
    checkpoint, and the routed-expert rows it asks for start where that one's end. -/
structure PreparedFor (cfg : Config Msg Args) (s : LinearTrajectory Msg Args)
    (body : RequestBody Msg Args) : Prop where
  rendered : s.renderTokenIds cfg body.messages (checkpointAt s.numAssistant) body.args =
    .ok body.inputIds
  routedExperts : cfg.useAdditionR3 → body.returnRoutedExperts →
    body.routedExpertsStartLen = some (s.tokenIds.length - 1) ∧
    body.inputIds.take (s.tokenIds.length - 1) = s.tokenIds.take (s.tokenIds.length - 1)

/-! ### The first checkpoints of a session -/

@[simp] theorem keptCheckpoints_checkpointAt (n : Nat) :
    keptCheckpoints (checkpointAt n) = n := by
  cases n <;> rfl

@[simp] theorem checkpointAt_keptCheckpoints (k : Option Nat) :
    checkpointAt (keptCheckpoints k) = k := by
  cases k <;> rfl

/-- Keeping at least all checkpoints changes nothing. -/
theorem upTo_of_le (s : LinearTrajectory Msg Args) {n : Nat} (h : s.numAssistant ≤ n) :
    s.upTo n = s := by
  simp only [upTo, rollbackToCheckpoint, keptCheckpoints_checkpointAt]
  rw [if_pos (by omega)]

/-- Keeping fewer checkpoints truncates every list. -/
theorem upTo_of_lt (s : LinearTrajectory Msg Args) {n : Nat} (h : n < s.numAssistant) :
    s.upTo n = { s with
      messages := s.messages.take (s.checkpointMessageEnd (checkpointAt n))
      trajectoryTokenIds := s.trajectoryTokenIds.take n
      turnArgsHistory := s.turnArgsHistory.take n
      records := s.records.take n
      generatedCheckpointMessageEnds := s.generatedCheckpointMessageEnds.take n
      numAssistant := (s.generatedCheckpointMessageEnds.take n).length } := by
  simp only [upTo, rollbackToCheckpoint, keptCheckpoints_checkpointAt]
  rw [if_neg (by omega)]

namespace Aligned

variable {s : LinearTrajectory Msg Args}

/-- A new session is aligned. -/
theorem init : Aligned ({} : LinearTrajectory Msg Args) where
  records := rfl
  tokens := rfl
  turnArgs := rfl
  ends := rfl
  messages _ := rfl

theorem numAssistant_upTo (h : s.Aligned) (n : Nat) :
    (s.upTo n).numAssistant = min n s.numAssistant := by
  by_cases hn : n < s.numAssistant
  · simp [upTo_of_lt s hn, h.ends]
  · rw [upTo_of_le s (by omega)]
    omega

/-- Rolling back keeps the lists aligned. -/
theorem upTo (h : s.Aligned) (n : Nat) : (s.upTo n).Aligned := by
  by_cases hn : n < s.numAssistant
  · rw [upTo_of_lt s hn]
    constructor <;> simp [h.records, h.tokens, h.turnArgs, h.ends]
    intro h0
    have h0 : n = 0 := by omega
    simp [h0, checkpointAt, checkpointMessageEnd]
  · rw [upTo_of_le s (by omega)]
    exact h

/-- Committing a generation keeps the lists aligned. -/
theorem withGeneration (h : s.Aligned) (requestId : Nat) (body : RequestBody Msg Args)
    (assistantMessage : Msg) (completionTokenIds : List Nat) :
    (s.withGeneration requestId body assistantMessage completionTokenIds).Aligned := by
  constructor <;> simp [LinearTrajectory.withGeneration, h.records, h.tokens, h.turnArgs, h.ends]

end Aligned

/-- Rendering from a checkpoint sees only the checkpoints up to it. -/
theorem renderTokenIds_upTo {s : LinearTrajectory Msg Args} (hs : s.Aligned)
    (cfg : Config Msg Args) (requestMessages : List Msg) (args : Args) {n : Nat}
    (hn : n ≤ s.numAssistant) :
    (s.upTo n).renderTokenIds cfg requestMessages (checkpointAt n) args =
      s.renderTokenIds cfg requestMessages (checkpointAt n) args := by
  by_cases hlt : n < s.numAssistant
  · cases n with
    | zero => rfl
    | succ i =>
      have hi : i < s.trajectoryTokenIds.length := by have := hs.tokens; omega
      have he : i < s.generatedCheckpointMessageEnds.length := by have := hs.ends; omega
      simp only [renderTokenIds, checkpointAt, upTo_of_lt s hlt, checkpointTokenIds,
        checkpointMessageEnd, List.getD_eq_getElem?_getD, List.getElem?_take, Nat.lt_succ_self, if_true,
        List.take_take, Nat.min_self]
  · rw [upTo_of_le s (by omega)]

end LinearTrajectory

/-! ### Running a session method -/

section SessionM

variable {α β : Type}

private theorem bind_run (x : SessionM Msg Args α) (f : α → SessionM Msg Args β)
    (s : LinearTrajectory Msg Args) :
    (x >>= f) s = match x s with
      | (.error e, s') => (.error e, s')
      | (.ok a, s') => f a s' := by
  change (ExceptT.bindCont f (x s).1) (x s).2 = _
  rcases x s with ⟨e | a, s'⟩ <;> rfl

private theorem get_run (s : LinearTrajectory Msg Args) :
    (get : SessionM Msg Args _) s = (.ok s, s) := rfl

private theorem pure_run (a : α) (s : LinearTrajectory Msg Args) :
    (pure a : SessionM Msg Args α) s = (.ok a, s) := rfl

private theorem modify_run (f : LinearTrajectory Msg Args → LinearTrajectory Msg Args)
    (s : LinearTrajectory Msg Args) :
    (modify f : SessionM Msg Args Unit) s = (.ok (), f s) := rfl

private theorem lift_run (x : Except SessionError α) (s : LinearTrajectory Msg Args) :
    (ExceptT.mk (pure x) : SessionM Msg Args α) s = (x, s) := rfl

end SessionM

/-! ### Preparation -/

open LinearTrajectory

/-- The checkpoint a request continues is one of the session's. -/
theorem findRollbackCheckpoint_le {s : LinearTrajectory Msg Args} (hs : s.Aligned)
    {matcher : Msg → Msg → Except SessionError Bool} {requestMessages : List Msg}
    {k : Option Nat} (h : s.findRollbackCheckpoint matcher requestMessages = .ok k) :
    keptCheckpoints k ≤ s.numAssistant := by
  simp only [findRollbackCheckpoint, bind, Except.bind, pure, Except.pure] at h
  split at h
  · cases h
    exact Nat.zero_le _
  · split at h
    · cases h
    · split at h
      · cases h
        split
        · exact Nat.zero_le _
        · simp only [keptCheckpoints]
          omega
      · split at h
        · cases h
        · cases h
          cases hfind : (List.range s.generatedCheckpointMessageEnds.length).reverse.find?
            fun i => s.generatedCheckpointMessageEnds.getD i 0 ≤ _ with
          | none => exact Nat.zero_le _
          | some i =>
            have hi := List.mem_of_find?_eq_some hfind
            simp only [List.mem_reverse, List.mem_range, hs.ends] at hi
            exact hi

/-- Every match it counts is a request message. -/
theorem matchLen_le {matcher : Msg → Msg → Except SessionError Bool} {stored request : List Msg}
    {matched : Nat} (h : matchLen matcher stored request = .ok matched) :
    matched ≤ request.length := by
  induction stored generalizing request matched with
  | nil =>
    cases h
    exact Nat.zero_le _
  | cons m ms ih =>
    cases request with
    | nil =>
      cases h
      exact Nat.zero_le _
    | cons r rs =>
      simp only [matchLen, bind, Except.bind, pure, Except.pure] at h
      split at h
      · cases h
      · split at h
        · split at h
          · cases h
          · rename_i hrest
            cases h
            simp only [List.length_cons]
            exact Nat.succ_le_succ (ih hrest)
        · cases h
          exact Nat.zero_le _

/-- The selected checkpoint's messages are at most as many as the request's, provided the
    last checkpoint's end is within the stored messages. -/
theorem findRollbackCheckpoint_end {s : LinearTrajectory Msg Args}
    (hlast : s.checkpointMessageEnd (checkpointAt s.numAssistant) ≤ s.messages.length)
    {matcher : Msg → Msg → Except SessionError Bool} {requestMessages : List Msg}
    {k : Option Nat} (h : s.findRollbackCheckpoint matcher requestMessages = .ok k) :
    s.checkpointMessageEnd k ≤ requestMessages.length := by
  simp only [findRollbackCheckpoint, bind, Except.bind, pure, Except.pure] at h
  split at h
  · cases h
    exact Nat.zero_le _
  · split at h
    · cases h
    · rename_i matched hmatched
      have hle := matchLen_le hmatched
      split at h
      · -- the whole stored history matches, and the request continues its last checkpoint
        cases h
        cases hn : s.numAssistant with
        | zero => exact Nat.zero_le _
        | succ n =>
          rw [hn] at hlast
          simp only [checkpointAt] at hlast
          simp only [Nat.succ_ne_zero, if_false, Nat.add_sub_cancel]
          omega
      · split at h
        · cases h
        · cases h
          cases hfind : (List.range s.generatedCheckpointMessageEnds.length).reverse.find?
            fun i => s.generatedCheckpointMessageEnds.getD i 0 ≤ matched with
          | none => exact Nat.zero_le _
          | some i =>
            have hend := List.find?_some hfind
            simp only [decide_eq_true_eq] at hend
            exact Nat.le_trans hend hle

/-- `prepare_token_ids_and_request_args` raises without a change, or rolls back to the
    checkpoint it selected and rendered from. -/
theorem prepareTokenIdsAndRequestArgs_cases (cfg : Config Msg Args)
    (client : ClientArgs Msg Args) (s : LinearTrajectory Msg Args) :
    (∃ e, prepareTokenIdsAndRequestArgs cfg client s = (.error e, s)) ∨
    ∃ (checkpointIndex : Option Nat) (body : RequestBody Msg Args),
      s.findRollbackCheckpoint cfg.matcher body.messages = .ok checkpointIndex ∧
      s.renderTokenIds cfg body.messages checkpointIndex body.args = .ok body.inputIds ∧
      prepareTokenIdsAndRequestArgs cfg client s =
        (.ok body, s.rollbackToCheckpoint checkpointIndex) := by
  simp only [prepareTokenIdsAndRequestArgs, prepareTokenIdsAndRequestArgs.liftExcept,
    bind_run, get_run, lift_run, modify_run, pure_run]
  cases hfind : s.findRollbackCheckpoint cfg.matcher client.messages with
  | error e => exact .inl ⟨e, rfl⟩
  | ok k =>
    dsimp only
    cases hbody : cfg.prepareChatRequest client (k.bind fun i => s.turnArgsHistory[i]?) with
    | error e => exact .inl ⟨e, rfl⟩
    | ok body =>
      dsimp only
      cases hrender : s.renderTokenIds cfg client.messages k body.args with
      | error e => exact .inl ⟨e, rfl⟩
      | ok inputIds =>
        have hmessages : body.messages = client.messages := cfg.prepare_messages _ _ _ hbody
        rw [← hmessages] at hfind hrender
        exact .inr ⟨k, { body with inputIds }, hfind, hrender, rfl⟩

/-- A prepared request has the client's messages. -/
theorem prepared_messages {cfg : Config Msg Args} {client : ClientArgs Msg Args}
    {s s' : LinearTrajectory Msg Args} {body : RequestBody Msg Args}
    (h : prepareTokenIdsAndRequestArgs cfg client s = (.ok body, s')) :
    body.messages = client.messages := by
  simp only [prepareTokenIdsAndRequestArgs, prepareTokenIdsAndRequestArgs.liftExcept,
    bind_run, get_run, lift_run, modify_run, pure_run] at h
  cases hfind : s.findRollbackCheckpoint cfg.matcher client.messages with
  | error e =>
    rw [hfind] at h
    cases h
  | ok k =>
    rw [hfind] at h
    dsimp only at h
    cases hbody : cfg.prepareChatRequest client (k.bind fun i => s.turnArgsHistory[i]?) with
    | error e =>
      rw [hbody] at h
      cases h
    | ok resolved =>
      rw [hbody] at h
      dsimp only at h
      cases hrender : s.renderTokenIds cfg client.messages k resolved.args with
      | error e =>
        rw [hrender] at h
        cases h
      | ok inputIds =>
        rw [hrender] at h
        cases h
        show resolved.messages = client.messages
        exact cfg.prepare_messages _ _ _ hbody

/-- The R3 rule keeps the prompt and asks for the rows after the retained ones. -/
private theorem maybeRequestAdditionR3_ok {useAdditionR3 : Bool}
    {body body' : RequestBody Msg Args} {checkpointTokenIds : List Nat}
    (h : maybeRequestAdditionR3 useAdditionR3 body checkpointTokenIds body.inputIds = .ok body') :
    body'.messages = body.messages ∧ body'.inputIds = body.inputIds ∧ body'.args = body.args ∧
    (useAdditionR3 → body'.returnRoutedExperts →
      body'.routedExpertsStartLen = some (checkpointTokenIds.length - 1) ∧
      body'.inputIds.take (checkpointTokenIds.length - 1) =
        checkpointTokenIds.take (checkpointTokenIds.length - 1)) := by
  simp only [maybeRequestAdditionR3] at h
  split at h
  · rename_i hoff
    cases h
    exact ⟨rfl, rfl, rfl, fun hr3 hrows => absurd ⟨hr3, hrows⟩ hoff⟩
  · split at h
    · rename_i hprefix
      cases h
      exact ⟨rfl, rfl, rfl, fun _ _ => ⟨rfl, hprefix⟩⟩
    · cases h
/-- A preparation leaves the first `n` checkpoints.  When it succeeds, the request was
    prepared against these, chosen by its messages. -/
theorem prepareRequest_cases (cfg : Config Msg Args) (client : ClientArgs Msg Args)
    {s : LinearTrajectory Msg Args} (hs : s.Aligned) :
    ∃ n ≤ s.numAssistant,
      (∃ e, prepareRequest cfg client s = (.error e, s.upTo n)) ∨
      ∃ body, s.closing = false ∧ PreparedFor cfg (s.upTo n) body ∧
        s.findRollbackCheckpoint cfg.matcher body.messages = .ok (checkpointAt n) ∧
        prepareRequest cfg client s = (.ok (body, n), s.upTo n) := by
  have hunchanged : s.upTo s.numAssistant = s := upTo_of_le s (Nat.le_refl _)
  simp only [prepareRequest, bind_run, get_run]
  cases hclosing : s.closing with
  | true => exact ⟨s.numAssistant, Nat.le_refl _, .inl ⟨_, by rw [hunchanged]; rfl⟩⟩
  | false =>
    simp only [Bool.false_eq_true, if_false]
    obtain ⟨e, he⟩ | ⟨k, body, hfind, hrender, hok⟩ :=
      prepareTokenIdsAndRequestArgs_cases cfg client s
    · simp only [bind_run, he]
      exact ⟨s.numAssistant, Nat.le_refl _, .inl ⟨e, by rw [hunchanged]⟩⟩
    · have hle : keptCheckpoints k ≤ s.numAssistant := findRollbackCheckpoint_le hs hfind
      have hroll : s.rollbackToCheckpoint k = s.upTo (keptCheckpoints k) := by simp [upTo]
      have hn : (s.upTo (keptCheckpoints k)).numAssistant = keptCheckpoints k := by
        rw [hs.numAssistant_upTo]
        omega
      simp only [bind_run, get_run, hok, hroll, lift_run]
      refine ⟨keptCheckpoints k, hle, ?_⟩
      cases hr3 : maybeRequestAdditionR3 cfg.useAdditionR3 body
          (s.upTo (keptCheckpoints k)).tokenIds body.inputIds with
      | error e => exact .inl ⟨e, rfl⟩
      | ok body' =>
        obtain ⟨hmessages, hids, hargs, hrows⟩ := maybeRequestAdditionR3_ok hr3
        refine .inr ⟨body', trivial, ⟨?_, hrows⟩, by simpa [hmessages] using hfind,
          by rw [hn]; rfl⟩
        rw [hn, renderTokenIds_upTo hs cfg _ _ hle, hmessages, hids, hargs]
        simpa using hrender

/-! ### Commit -/

/-- The state update appends the generation when the stored tokens are a prefix of the new
    ones, and leaves the session as it was when not. -/
theorem updatePretokenizedState_cases (maxTrimTokens : Nat) (requestMessages : List Msg)
    (assistantMessage : Msg) (promptTokenIds completionTokenIds : List Nat)
    (turnArgs : RequestBody Msg Args) (s : LinearTrajectory Msg Args) :
    (∃ e, assertPretokenizedPrefix s.tokenIds (promptTokenIds ++ completionTokenIds)
        maxTrimTokens = .error e ∧
      updatePretokenizedState maxTrimTokens requestMessages assistantMessage promptTokenIds
        completionTokenIds turnArgs s = (.error e, s)) ∨
    (assertPretokenizedPrefix s.tokenIds (promptTokenIds ++ completionTokenIds)
        maxTrimTokens = .ok () ∧
      updatePretokenizedState maxTrimTokens requestMessages assistantMessage promptTokenIds
        completionTokenIds turnArgs s =
        (.ok (), { s with
          messages := s.messages ++ requestMessages.drop s.messages.length ++ [assistantMessage]
          trajectoryTokenIds := s.trajectoryTokenIds ++ [promptTokenIds ++ completionTokenIds]
          turnArgsHistory := s.turnArgsHistory ++ [turnArgs]
          generatedCheckpointMessageEnds :=
            s.generatedCheckpointMessageEnds ++ [requestMessages.length + 1]
          numAssistant := s.generatedCheckpointMessageEnds.length + 1 })) := by
  simp only [updatePretokenizedState, bind_run, get_run, lift_run, modify_run]
  cases hprefix : assertPretokenizedPrefix s.tokenIds (promptTokenIds ++ completionTokenIds)
    maxTrimTokens with
  | error e => exact .inl ⟨e, rfl, rfl⟩
  | ok _ => exact .inr ⟨rfl, by simp⟩

/-- Phase 3 appends one generation when the session admits it.  Otherwise it leaves the
    session as it was and raises or returns `false`. -/
theorem commitResponse_cases (cfg : Config Msg Args) (requestId : Nat)
    (body : RequestBody Msg Args) (expected : Nat) (assistantMessage : Msg)
    (completionTokenIds : List Nat) (s : LinearTrajectory Msg Args) :
    (¬ s.Admits cfg body expected completionTokenIds ∧
      ∃ r, r ≠ .ok true ∧ commitResponse cfg requestId body expected assistantMessage
        completionTokenIds s = (r, s)) ∨
    (s.Admits cfg body expected completionTokenIds ∧
      commitResponse cfg requestId body expected assistantMessage completionTokenIds s =
        (.ok true, s.withGeneration requestId body assistantMessage completionTokenIds)) := by
  simp only [commitResponse, bind_run, get_run]
  cases hclosing : s.closing with
  | true => exact .inl ⟨fun h => by simp [h.open_] at hclosing, .ok false, by simp, rfl⟩
  | false =>
    simp only [Bool.false_eq_true, if_false]
    by_cases hcount : s.numAssistant = expected
    · simp only [hcount, ne_eq, not_true_eq_false, if_false, pure_run, bind_run]
      obtain ⟨e, he, hrun⟩ | ⟨hok, hrun⟩ := updatePretokenizedState_cases
        cfg.tokenizer.maxTrimTokens
        (cfg.tokenizer.preserveServerMessageState s.messages body.messages) assistantMessage
        body.inputIds completionTokenIds body s
      · refine .inl ⟨fun h => ?_, .error e, by simp, by rw [hrun]⟩
        rw [h.stored_prefix] at he
        cases he
      · refine .inr ⟨⟨hclosing, hcount, hok⟩, ?_⟩
        rw [hrun]
        -- only the new part of the request's messages is stored, and that part is kept as is
        simp [appendRecord, modify_run, withGeneration, cfg.tokenizer.preserve_length,
          cfg.tokenizer.preserve_drop]
    · simp only [hcount, ne_eq, not_false_eq_true, if_true]
      exact .inl ⟨fun h => hcount h.count, .ok false, by simp, rfl⟩

/-- What a response has to be for phase 3 to be reached. -/
def ProxyResult.completion (cfg : Config Msg Args) (result : ProxyResult Msg) :
    Option (Msg × List Nat) :=
  if result.statusCode = 200 then
    match extractCompletion result with
    | .ok (message, ids) => some (cfg.tokenizer.postprocessCompletion message ids, ids)
    | .error _ => none
  else none

/-- An answer that carries a completion the session admits is recorded.  Any other answer
    leaves the session as it was. -/
theorem finishRequest_cases (cfg : Config Msg Args) (requestId : Nat)
    (body : RequestBody Msg Args) (expected : Nat) (result : ProxyResult Msg)
    (s : LinearTrajectory Msg Args) :
    ((∀ a ids, result.completion cfg = some (a, ids) → ¬ s.Admits cfg body expected ids) ∧
      ∃ r, (∀ x, r ≠ .ok (some x)) ∧
        finishRequest cfg requestId body expected result s = (r, s)) ∨
    ∃ assistantMessage ids, result.completion cfg = some (assistantMessage, ids) ∧
      s.Admits cfg body expected ids ∧
      finishRequest cfg requestId body expected result s =
        (.ok (some (assistantMessage, ids)),
          s.withGeneration requestId body assistantMessage ids) := by
  simp only [finishRequest, ProxyResult.completion]
  by_cases hstatus : result.statusCode = 200
  · simp only [hstatus, ne_eq, not_true_eq_false, if_false, if_true, bind_run, lift_run]
    cases hextract : extractCompletion result with
    | error e => exact .inl ⟨by simp, .error e, by simp, rfl⟩
    | ok p =>
      obtain ⟨message, ids⟩ := p
      obtain ⟨hnot, r, hr, hrun⟩ | ⟨hadm, hrun⟩ := commitResponse_cases cfg requestId body
        expected (cfg.tokenizer.postprocessCompletion message ids) ids s
      · refine .inl ⟨?_, ?_⟩
        · rintro a ids' h
          cases h
          exact hnot
        · match r, hr with
          | .error e, _ => exact ⟨.error e, by simp, by simp only [hrun]⟩
          | .ok false, _ => exact ⟨.ok none, by simp, by simp only [hrun]; rfl⟩
      · exact .inr ⟨_, ids, rfl, hadm, by simp only [hrun]; rfl⟩
  · simp only [hstatus, ne_eq, not_false_eq_true, if_true, if_false]
    exact .inl ⟨by simp, .ok none, by simp, rfl⟩

/-! ### Events -/

namespace SessionWorld

/-- What an event does to a world whose session is aligned, one constructor for each way it
    can go. -/
inductive Transition (cfg : Config Msg Args) (w : SessionWorld Msg Args) :
    Event Msg Args → SessionWorld Msg Args → Prop
  /-- the registry no longer lists the session -/
  | turnedAway (id : Nat) (client : ClientArgs Msg Args) (fresh : id ∉ w.started) :
    Transition cfg w (.chat id client) { w with started := id :: w.started }
  /-- phase 1 raised, with the rollback applied or not -/
  | refused (id : Nat) (client : ClientArgs Msg Args) (n : Nat) (fresh : id ∉ w.started)
      (le : n ≤ w.session.numAssistant) :
    Transition cfg w (.chat id client)
      { w with
        session := w.session.upTo n
        started := id :: w.started
        inFlight := w.inFlight.map (·.markOvertaken n) }
  /-- phase 1 prepared the request against the first `n` checkpoints -/
  | prepared (id : Nat) (client : ClientArgs Msg Args) (n : Nat) (body : RequestBody Msg Args)
      (fresh : id ∉ w.started) (le : n ≤ w.session.numAssistant)
      (open_ : w.session.closing = false) (preparedFor : PreparedFor cfg (w.session.upTo n) body)
      (selected : w.session.findRollbackCheckpoint cfg.matcher body.messages =
        .ok (checkpointAt n)) :
    Transition cfg w (.chat id client)
      { w with
        session := w.session.upTo n
        started := id :: w.started
        inFlight := { requestId := id, body, expectedNumAssistant := n,
                      base := w.session.upTo n } ::
          w.inFlight.map (·.markOvertaken n) }
  /-- the answer is not recorded -/
  | skipped (r : InFlight Msg Args) (result : ProxyResult Msg)
      (found : w.find r.requestId = some r)
      (refused : ∀ a ids, result.completion cfg = some (a, ids) →
        ¬ w.session.Admits cfg r.body r.expectedNumAssistant ids) :
    Transition cfg w (.answer r.requestId result)
      { w with inFlight := w.others r.requestId }
  /-- the answer is recorded -/
  | committed (r : InFlight Msg Args) (result : ProxyResult Msg) (assistantMessage : Msg)
      (ids : List Nat) (found : w.find r.requestId = some r)
      (completion : result.completion cfg = some (assistantMessage, ids))
      (admits : w.session.Admits cfg r.body r.expectedNumAssistant ids) :
    Transition cfg w (.answer r.requestId result)
      { w with
        session := w.session.withGeneration r.requestId r.body assistantMessage ids
        inFlight := w.others r.requestId
        commits := w.commits ++
          [{ request := r, before := w.session, assistantMessage, completionTokenIds := ids }] }
  | cancelled (r : InFlight Msg Args) (found : w.find r.requestId = some r) :
    Transition cfg w (.cancel r.requestId) { w with inFlight := w.others r.requestId }
  | closed : Transition cfg w .delete { w with session := { w.session with closing := true } }
  | removed : Transition cfg w .remove { w with registered := false }

/-- The request found under an id has that id. -/
theorem find_requestId {w : SessionWorld Msg Args} {id : Nat} {r : InFlight Msg Args}
    (h : w.find id = some r) : r.requestId = id := by
  simpa using List.find?_some h

theorem mem_of_find {w : SessionWorld Msg Args} {id : Nat} {r : InFlight Msg Args}
    (h : w.find id = some r) : r ∈ w.inFlight :=
  List.mem_of_find?_eq_some h

theorem mem_of_mem_others {w : SessionWorld Msg Args} {id : Nat} {r : InFlight Msg Args}
    (h : r ∈ w.others id) : r ∈ w.inFlight :=
  (List.mem_filter.mp h).1

/-- Every event that happens is one of the transitions. -/
theorem step_transition {cfg : Config Msg Args} {w w' : SessionWorld Msg Args}
    {e : Event Msg Args} (hs : w.session.Aligned) (h : step cfg w e = some w') :
    Transition cfg w e w' := by
  cases e with
  | chat id client =>
    simp only [step] at h
    split at h
    · cases h
    · rename_i hfresh
      cases h
      simp only [chat]
      split
      · -- the rollback happens before the arguments can be refused
        obtain ⟨n, hle, ⟨e, herr⟩ | ⟨body, hopen, hprep, hsel, hok⟩⟩ :=
          prepareRequest_cases cfg client hs
        · have hn : (w.session.upTo n).numAssistant = n := by
            rw [hs.numAssistant_upTo]
            omega
          simp only [herr, hn]
          exact .refused id client n hfresh hle
        · have hn : (w.session.upTo n).numAssistant = n := by
            rw [hs.numAssistant_upTo]
            omega
          simp only [hok, hn]
          exact .prepared id client n body hfresh hle hopen hprep hsel
      · exact .turnedAway id client hfresh
  | answer id result =>
    simp only [step, Option.map_eq_some_iff] at h
    obtain ⟨r, hfind, rfl⟩ := h
    obtain rfl := find_requestId hfind
    -- an answer that cannot be committed only leaves `inFlight`
    obtain ⟨hnot, res, hres, hrun⟩ | ⟨a, ids, hcompl, hadm, hrun⟩ :=
      finishRequest_cases cfg r.requestId r.body r.expectedNumAssistant result w.session
    · have heq : w.answer cfg r result = { w with inFlight := w.others r.requestId } := by
        simp only [answer, hrun]
        split
        · rename_i heq
          cases heq
          exact absurd rfl (hres _)
        · rename_i heq
          cases heq
          rfl
      rw [heq]
      exact .skipped r result hfind hnot
    · simp only [answer, hrun]
      exact .committed r result a ids hfind hcompl hadm
  | cancel id =>
    simp only [step, Option.map_eq_some_iff] at h
    obtain ⟨r, hfind, rfl⟩ := h
    obtain rfl := find_requestId hfind
    exact .cancelled r hfind
  | delete =>
    simp only [step] at h
    split at h
    · cases h
      exact .closed
    · cases h
  | remove =>
    simp only [step] at h
    split at h
    · cases h
      exact .removed
    · cases h
/-- Every event keeps the session's lists aligned. -/
theorem aligned_step {cfg : Config Msg Args} {w w' : SessionWorld Msg Args}
    {e : Event Msg Args} (hs : w.session.Aligned) (h : step cfg w e = some w') :
    w'.session.Aligned := by
  cases step_transition hs h with
  | turnedAway => exact hs
  | refused _ _ n => exact hs.upTo n
  | prepared _ _ n => exact hs.upTo n
  | skipped => exact hs
  | committed r _ a ids => exact hs.withGeneration r.requestId r.body a ids
  | cancelled => exact hs
  | closed => exact ⟨hs.records, hs.tokens, hs.turnArgs, hs.ends, hs.messages⟩
  | removed => exact hs

/-- The parallel lists of a session have one length in every reachable state. -/
theorem aligned_of_run {cfg : Config Msg Args} {es : List (Event Msg Args)}
    {w : SessionWorld Msg Args} (h : Lts.run (step cfg) {} es = some w) : w.session.Aligned :=
  Lts.run_invariant (I := fun w => w.session.Aligned) (fun _ _ _ => aligned_step) .init h

/-- Every response that passes the checks of phase 3 in this step is of a request with the
    property `P`, in the world before the step. -/
def AtCommit (cfg : Config Msg Args) (P : SessionWorld Msg Args → InFlight Msg Args → Prop)
    (w : SessionWorld Msg Args) : Event Msg Args → Prop
  | .answer id result => ∀ r a ids, w.find id = some r → result.completion cfg = some (a, ids) →
      w.session.Admits cfg r.body r.expectedNumAssistant ids → P w r
  | _ => True

end SessionWorld

end Miles.Session
