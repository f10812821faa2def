import Mathlib

/-!
# The v1 session trajectory

Model of `miles/rollout/session/linear_trajectory.py`: the checkpoint history of one
session, the preparation of a request against it (with at most one checkpoint rolled
back) and the state update after a generation.

A message is an arbitrary type `Msg`, and the resolved request fields other than the
ones the session itself reads or writes are an arbitrary type `Args`.  The message
matcher, the tokenizer and the argument rules are functions the session is
configured with; each may raise.

Methods that change the session run in `SessionM`, where a raised error keeps every
change made before it, as in Python.
-/

namespace Miles.Session

/-- `MAX_ASSISTANT_ROLLBACK_STEPS` -/
def maxAssistantRollbackSteps : Nat := 1

/-- The `ValueError`s of `assert_messages_append_only_with_allowed_role`. -/
inductive AppendOnlyError where
  /-- new messages are fewer than stored messages -/
  | fewerMessages (new stored : Nat)
  | messageMismatch (index : Nat)
  /-- an appended message has a role outside `allowed_append_roles` -/
  | appendedRole (index : Nat)
  deriving DecidableEq, Repr

/-- The errors a session operation raises, with the numbers their texts report. -/
inductive SessionError where
  /-- `MessageValidationError`: the request's arguments are refused. -/
  | messageValidation (reason : String)
  /-- `MessageValidationError`: the TITO fixed template does not support the append. -/
  | appendOnly (error : AppendOnlyError)
  /-- `MessageValidationError` of a rollback past the allowed number of checkpoints. -/
  | rollbackFailed (discardCount maxSteps storedMessages requestMessages : Nat)
  /-- `TokenizationError` of the stored-prefix check. -/
  | prefixMismatch (stored checkLen total : Nat)
  /-- `AssertionError` of the additional-R3 prefix check. -/
  | unstableR3Prefix (previousRows commonPrefix : Nat)
  | upstreamAborted
  | upstreamResponse (reason : String)
  | sessionNotFound
  /-- Any other exception of a matcher, a tokenizer or a rule. -/
  | other (reason : String)
  deriving DecidableEq, Repr

/-- The chat request as the session receives it: its messages and its other arguments. -/
structure ClientArgs (Msg Args : Type) where
  messages : List Msg
  args : Args
  deriving DecidableEq, Repr

/-- The resolved request body that is proxied, recorded and kept as `turn_args`. -/
structure RequestBody (Msg Args : Type) where
  messages : List Msg
  inputIds : List Nat
  returnRoutedExperts : Bool
  routedExpertsStartLen : Option Nat
  args : Args
  deriving DecidableEq, Repr

/-- A committed request with its generated answer.  `requestId` is the identity of the
    `chat_completions` call that made the record, and `assistantMessage` the answer's
    message as that call stored it. -/
structure SessionRecord (Msg Args : Type) where
  requestId : Nat
  request : RequestBody Msg Args
  assistantMessage : Msg
  completionTokenIds : List Nat
  deriving DecidableEq, Repr

/-- `LinearTrajectory`: messages, and one entry per generated checkpoint in each of the
    other lists. -/
structure LinearTrajectory (Msg Args : Type) where
  closing : Bool := false
  messages : List Msg := []
  records : List (SessionRecord Msg Args) := []
  trajectoryTokenIds : List (List Nat) := []
  generatedCheckpointMessageEnds : List Nat := []
  numAssistant : Nat := 0
  turnArgsHistory : List (RequestBody Msg Args) := []
  deriving DecidableEq, Repr

/-- `TITOTokenizer`, as far as the session uses it.  The two laws of
    `preserveServerMessageState` hold of every family: the default returns the request,
    and the one override only rewrites entries that have a stored counterpart. -/
structure TitoTokenizer (Msg Args : Type) where
  maxTrimTokens : Nat
  /-- the message's role is in `allowed_append_roles` -/
  allowedAppendRole : Msg → Bool
  applyChatTemplate : List Msg → Args → Except SessionError (List Nat)
  /-- `merge_tokens(old_messages, new_messages, pretokenized_token_ids, template_args)` -/
  mergeTokens : List Msg → List Msg → List Nat → Args → Except SessionError (List Nat)
  postprocessCompletion : Msg → List Nat → Msg
  preserveServerMessageState : List Msg → List Msg → List Msg
  preserve_length : ∀ stored request,
    (preserveServerMessageState stored request).length = request.length
  preserve_drop : ∀ stored request,
    (preserveServerMessageState stored request).drop stored.length = request.drop stored.length

/-- What a session is configured with.  `prepareChatRequest` resolves the client's
    arguments given the turn it continues; it shares the client's messages. -/
structure Config (Msg Args : Type) where
  tokenizer : TitoTokenizer Msg Args
  matcher : Msg → Msg → Except SessionError Bool
  prepareChatRequest : ClientArgs Msg Args → Option (RequestBody Msg Args) →
    Except SessionError (RequestBody Msg Args)
  useAdditionR3 : Bool
  prepare_messages : ∀ client turnArgs body,
    prepareChatRequest client turnArgs = .ok body → body.messages = client.messages

/-- A session method: it may raise, and keeps the changes made before it raises. -/
abbrev SessionM (Msg Args : Type) := ExceptT SessionError (StateM (LinearTrajectory Msg Args))

variable {Msg Args : Type}

/-! ## Pure token and message checks -/

/-- `assert_pretokenized_prefix`: stored tokens must be a prefix of the new checkpoint,
    up to `maxTrimTokens` trailing differences. -/
def assertPretokenizedPrefix (prev allTokenIds : List Nat) (maxTrimTokens : Nat) :
    Except SessionError Unit :=
  if prev.isEmpty then .ok ()
  else
    let checkLen := prev.length - maxTrimTokens
    if 0 < checkLen ∧ allTokenIds.take checkLen ≠ prev.take checkLen then
      .error (.prefixMismatch prev.length checkLen allTokenIds.length)
    else .ok ()

/-- `_lcp_len`: length of the longest common prefix of two token lists. -/
def lcpLen : List Nat → List Nat → Nat
  | a :: as, b :: bs => if a = b then lcpLen as bs + 1 else 0
  | _, _ => 0

/-- The number of leading stored messages that the request's messages match pointwise
    (the `match_len` loop of `_find_rollback_checkpoint`). -/
def matchLen (matcher : Msg → Msg → Except SessionError Bool) :
    List Msg → List Msg → Except SessionError Nat
  | stored :: ss, request :: rs => do
    if ← matcher stored request then
      return (← matchLen matcher ss rs) + 1
    else
      return 0
  | _, _ => return 0

/-- The pairwise comparison of `assert_messages_append_only_with_allowed_role`, from
    position `index` on. -/
def assertStoredPrefix (matcher : Msg → Msg → Except SessionError Bool) (index : Nat) :
    List Msg → List Msg → Except SessionError Unit
  | stored :: ss, new :: ns => do
    if ← matcher stored new then
      assertStoredPrefix matcher (index + 1) ss ns
    else
      throw (.appendOnly (.messageMismatch index))
  | _, _ => return ()

/-- `assert_messages_append_only_with_allowed_role`: the stored messages are a prefix of
    the new ones, and every appended message has an allowed role. -/
def assertMessagesAppendOnlyWithAllowedRole (matcher : Msg → Msg → Except SessionError Bool)
    (allowedAppendRole : Msg → Bool) (stored new : List Msg) : Except SessionError Unit := do
  if stored.isEmpty then
    return ()
  if new.length < stored.length then
    throw (.appendOnly (.fewerMessages new.length stored.length))
  assertStoredPrefix matcher 0 stored new
  match (new.drop stored.length).findIdx? (!allowedAppendRole ·) with
  | none => return ()
  | some j => throw (.appendOnly (.appendedRole (stored.length + j)))

namespace LinearTrajectory

/-- `token_ids`: the latest checkpoint, empty before the first one. -/
def tokenIds (s : LinearTrajectory Msg Args) : List Nat :=
  s.trajectoryTokenIds.getLast?.getD []

/-- How many checkpoints an index selects; `none` is the empty checkpoint (-1). -/
def keptCheckpoints : Option Nat → Nat
  | none => 0
  | some i => i + 1

/-- The tokens of the checkpoint at an index. -/
def checkpointTokenIds (s : LinearTrajectory Msg Args) : Option Nat → List Nat
  | none => []
  | some i => s.trajectoryTokenIds.getD i []

/-- Where the messages of the checkpoint at an index end. -/
def checkpointMessageEnd (s : LinearTrajectory Msg Args) : Option Nat → Nat
  | none => 0
  | some i => s.generatedCheckpointMessageEnds.getD i 0

/-! ## Choosing the checkpoint a request continues -/

/-- `_find_rollback_checkpoint`: the last generated checkpoint within the matching
    prefix, refused when more than one checkpoint would be discarded. -/
def findRollbackCheckpoint (s : LinearTrajectory Msg Args)
    (matcher : Msg → Msg → Except SessionError Bool) (requestMessages : List Msg) :
    Except SessionError (Option Nat) := do
  if s.messages.isEmpty ∨ s.trajectoryTokenIds.isEmpty then
    return none
  let matched ← matchLen matcher s.messages requestMessages
  if s.messages.length ≤ matched then
    return if s.numAssistant = 0 then none else some (s.numAssistant - 1)
  let checkpointIndex := (List.range s.generatedCheckpointMessageEnds.length).reverse.find?
    fun i => s.generatedCheckpointMessageEnds.getD i 0 ≤ matched
  let discardCount := s.numAssistant - keptCheckpoints checkpointIndex
  if maxAssistantRollbackSteps < discardCount then
    throw (.rollbackFailed discardCount maxAssistantRollbackSteps s.messages.length
      requestMessages.length)
  return checkpointIndex

/-- `_render_token_ids`: the prompt's tokens, reusing the selected checkpoint's. -/
def renderTokenIds (s : LinearTrajectory Msg Args) (cfg : Config Msg Args)
    (requestMessages : List Msg) (checkpointIndex : Option Nat) (templateArgs : Args) :
    Except SessionError (List Nat) := do
  let tokenIds := s.checkpointTokenIds checkpointIndex
  if tokenIds.isEmpty then
    cfg.tokenizer.applyChatTemplate requestMessages templateArgs
  else
    let storedMessages := s.messages.take (s.checkpointMessageEnd checkpointIndex)
    assertMessagesAppendOnlyWithAllowedRole cfg.matcher cfg.tokenizer.allowedAppendRole
      storedMessages requestMessages
    let effectiveMessages := storedMessages ++ requestMessages.drop storedMessages.length
    cfg.tokenizer.mergeTokens storedMessages effectiveMessages tokenIds templateArgs

/-- `_rollback_to_checkpoint`: discard the history after the selected checkpoint. -/
def rollbackToCheckpoint (s : LinearTrajectory Msg Args) (checkpointIndex : Option Nat) :
    LinearTrajectory Msg Args :=
  let kept := keptCheckpoints checkpointIndex
  if s.numAssistant - kept = 0 then s
  else
    { s with
      messages := s.messages.take (s.checkpointMessageEnd checkpointIndex)
      trajectoryTokenIds := s.trajectoryTokenIds.take kept
      turnArgsHistory := s.turnArgsHistory.take kept
      records := s.records.take kept
      generatedCheckpointMessageEnds := s.generatedCheckpointMessageEnds.take kept
      numAssistant := (s.generatedCheckpointMessageEnds.take kept).length }

end LinearTrajectory

/-! ## Methods that change the session -/

/-- `prepare_token_ids_and_request_args`: choose the checkpoint, resolve the arguments,
    render the prompt, and only then roll back. -/
def prepareTokenIdsAndRequestArgs (cfg : Config Msg Args) (client : ClientArgs Msg Args) :
    SessionM Msg Args (RequestBody Msg Args) := do
  let s ← get
  let checkpointIndex ← liftExcept (s.findRollbackCheckpoint cfg.matcher client.messages)
  let turnArgs := checkpointIndex.bind fun i => s.turnArgsHistory[i]?
  let body ← liftExcept (cfg.prepareChatRequest client turnArgs)
  let inputIds ← liftExcept (s.renderTokenIds cfg client.messages checkpointIndex body.args)
  modify (·.rollbackToCheckpoint checkpointIndex)
  return { body with inputIds }
where
  /-- Run a computation that does not touch the session. -/
  liftExcept {α : Type} (x : Except SessionError α) : SessionM Msg Args α :=
    ExceptT.mk (pure x)

/-- `update_pretokenized_state`: append the generation as a new checkpoint. -/
def updatePretokenizedState (maxTrimTokens : Nat) (requestMessages : List Msg)
    (assistantMessage : Msg) (promptTokenIds completionTokenIds : List Nat)
    (turnArgs : RequestBody Msg Args) : SessionM Msg Args Unit := do
  let s ← get
  let allTokenIds := promptTokenIds ++ completionTokenIds
  ExceptT.mk (pure (assertPretokenizedPrefix s.tokenIds allTokenIds maxTrimTokens))
  modify fun s =>
    let ends := s.generatedCheckpointMessageEnds ++ [requestMessages.length + 1]
    { s with
      messages := s.messages ++ requestMessages.drop s.messages.length ++ [assistantMessage]
      trajectoryTokenIds := s.trajectoryTokenIds ++ [allTokenIds]
      turnArgsHistory := s.turnArgsHistory ++ [turnArgs]
      generatedCheckpointMessageEnds := ends
      numAssistant := ends.length }

/-- `append_record` -/
def appendRecord (record : SessionRecord Msg Args) : SessionM Msg Args Unit :=
  modify fun s => { s with records := s.records ++ [record] }

end Miles.Session
