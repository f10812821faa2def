import Miles.ForStd.Except
import Miles.Native.Session.InklingParser

/-!
# What the Inkling parser accepts and returns

A completion is read as a sequence of blocks.  The parser closes the blocks at the front of the
completion one after the other and returns what they decode to, whatever follows; it reports no
error exactly when nothing but the end of sampling follows and every block is valid.
-/

namespace Miles.InklingParser

/-! ### Blocks -/

/-- A block as the model writes it. -/
structure RawBlock where
  /-- the `message_model` tokens before it -/
  boundary : Nat
  recipient : List TokenId
  kind : BlockKind
  payload : List TokenId

/-- The token that opens a block. -/
def ControlIds.marker (ids : ControlIds) : BlockKind → TokenId
  | .thinking => ids.contentThinking
  | .text => ids.contentText
  | .toolJson => ids.contentInvokeToolJson
  | .toolText => ids.contentInvokeToolText

/-- A token that is not a control token. -/
def ControlIds.Ordinary (ids : ControlIds) (tokenId : TokenId) : Prop :=
  tokenId ∉ ids.controlIds

namespace RawBlock

/-- The tokens of a block. -/
def tokens (ids : ControlIds) (b : RawBlock) : List TokenId :=
  List.replicate b.boundary ids.messageModel ++ b.recipient ++
    ids.marker b.kind :: b.payload ++ [ids.endMessage]

/-- Recipient and payload are ordinary tokens. -/
structure Framed (ids : ControlIds) (b : RawBlock) : Prop where
  recipient : ∀ t ∈ b.recipient, ids.Ordinary t
  payload : ∀ t ∈ b.payload, ids.Ordinary t

end RawBlock

/-- The name and the arguments of a tool call. -/
def toolPayload (rt : Runtime) (text : String) : Option (String × PyJson) :=
  match rt.loads text with
  | .ok payload =>
    match payload.field? "name", payload.field? "args" with
    | some (.str name), some (.obj arguments) => some (name, .obj arguments)
    | _, _ => none
  | .error _ => none

/-- What is wrong with the payload of a tool call. -/
def payloadFailure (rt : Runtime) (text : String) : Option ParseFailure :=
  match rt.loads text with
  | .ok payload =>
    if ¬ payload.isObj then some .toolPayloadNotObject
    else if (toolPayload rt text).isNone then some .invalidToolPayloadShape
    else none
  | .error _ => some .malformedToolJson

namespace RawBlock

/-- What is wrong with a block. -/
def failure (rt : Runtime) (b : RawBlock) : Option ParseFailure :=
  match b.kind with
  | .thinking => if rt.decode b.recipient ≠ "" then some .unexpectedThinkingRecipient else none
  | .text => if rt.decode b.recipient ≠ "" then some .unexpectedTextRecipient else none
  | .toolJson => payloadFailure rt (rt.decode b.payload)
  | .toolText => some .unsupportedTextToolCall

/-- Thinking and text without a recipient, or a tool call in JSON with a name and arguments. -/
def Valid (rt : Runtime) (b : RawBlock) : Prop :=
  match b.kind with
  | .thinking => rt.decode b.recipient = ""
  | .text => rt.decode b.recipient = ""
  | .toolJson => ∃ fields name arguments, rt.loads (rt.decode b.payload) = .ok (.obj fields) ∧
      fields.lookup "name" = some (.str name) ∧ fields.lookup "args" = some (.obj arguments)
  | .toolText => False

/-- What a block decodes to; tool calls that are not valid are left out. -/
def content (rt : Runtime) (b : RawBlock) : Option ContentBlock :=
  match b.kind with
  | .thinking => some (.thinking (rt.decode b.payload))
  | .text => some (.text (rt.decode b.payload))
  | .toolJson => (toolPayload rt (rt.decode b.payload)).map fun x =>
      .toolCall (rt.decode b.recipient) x.1 x.2 (rt.decode b.payload)
  | .toolText => none

/-- The text a text block shows. -/
def visible (rt : Runtime) (b : RawBlock) : Option String :=
  if b.kind = .text then some (rt.decode b.payload) else none

/-- The text of a thinking block. -/
def reasoning (rt : Runtime) (b : RawBlock) : Option String :=
  if b.kind = .thinking then some (rt.decode b.payload) else none

/-- The call of a tool block. -/
def call (rt : Runtime) (b : RawBlock) : Option (String × PyJson) :=
  if b.kind = .toolJson then toolPayload rt (rt.decode b.payload) else none

/-- The exception of `json.loads` on the payload that the parser does not handle. -/
def escape (rt : Runtime) (b : RawBlock) : Option LoadsError :=
  if b.kind = .toolJson then
    match rt.loads (rt.decode b.payload) with
    | .error .value => some .value
    | .error .recursion => some .recursion
    | _ => none
  else none

end RawBlock

/-! ### Payloads -/

variable {rt : Runtime}

theorem toolPayload_eq_some {text name : String} {v : PyJson} :
    toolPayload rt text = some (name, v) ↔ ∃ fields arguments, v = .obj arguments ∧
      rt.loads text = .ok (.obj fields) ∧ fields.lookup "name" = some (.str name) ∧
      fields.lookup "args" = some (.obj arguments) := by
  unfold toolPayload
  cases hloads : rt.loads text with
  | error e => simp
  | ok payload =>
    cases payload with
    | obj fields =>
      simp only [PyJson.field?]
      constructor
      · intro h
        split at h
        · rename_i name' arguments hname hargs
          cases h
          exact ⟨fields, arguments, rfl, rfl, hname, hargs⟩
        · cases h
      · intro h
        obtain ⟨fields', arguments, hv, hfields, hname, hargs⟩ := h
        cases hfields
        rw [hname, hargs, hv]
    | _ => simp [PyJson.field?]

theorem payloadFailure_eq_none {text : String} :
    payloadFailure rt text = none ↔ (toolPayload rt text).isSome := by
  cases hloads : rt.loads text with
  | error e => simp [payloadFailure, toolPayload, hloads]
  | ok payload =>
    cases payload with
    | obj fields =>
      cases hpayload : toolPayload rt text with
      | none => simp [payloadFailure, hloads, hpayload, PyJson.isObj]
      | some x => simp [payloadFailure, hloads, hpayload, PyJson.isObj]
    | _ => simp [payloadFailure, toolPayload, hloads, PyJson.isObj, PyJson.field?]

/-- A block is valid when nothing is wrong with it. -/
theorem RawBlock.failure_eq_none {b : RawBlock} :
    b.failure rt = none ↔ b.Valid rt := by
  unfold RawBlock.failure RawBlock.Valid
  cases b.kind with
  | thinking => simp
  | text => simp
  | toolText => simp
  | toolJson =>
    simp only [payloadFailure_eq_none, Option.isSome_iff_exists]
    constructor
    · rintro ⟨x, hx⟩
      obtain ⟨name, v⟩ := x
      obtain ⟨fields, arguments, -, hloads, hname, hargs⟩ := toolPayload_eq_some.mp hx
      exact ⟨fields, name, arguments, hloads, hname, hargs⟩
    · rintro ⟨fields, name, arguments, hloads, hname, hargs⟩
      exact ⟨(name, .obj arguments),
        toolPayload_eq_some.mpr ⟨fields, arguments, rfl, hloads, hname, hargs⟩⟩

/-! ### Closing a block -/

/-- The identifier of a call, if its index has one. -/
def callId (rt : Runtime) (completionTokenIds : List TokenId) (index : Nat) : String :=
  "call_" ++ String.ofList ((rt.sha256 (bytesBigEndian (BitVec.ofNat 32 index) ++
    completionTokenIds.flatMap bytesBigEndian)).toList.take 24)

theorem toolCallId_eq {completionTokenIds : List TokenId} {index : Nat} :
    toolCallId rt completionTokenIds index =
      if index < 2 ^ 32 then .ok (callId rt completionTokenIds index) else .error .overflow := by
  unfold toolCallId
  by_cases h : index < 2 ^ 32
  · simp only [h, not_true_eq_false, if_false, if_true]
    rfl
  · simp only [h, not_false_eq_true, if_true, if_false]
    rfl

/-- The calls with their identifiers, from an index on. -/
def toolCallsFrom (rt : Runtime) (completionTokenIds : List TokenId) (index : Nat)
    (calls : List (String × PyJson)) : List ToolCall :=
  (calls.zipIdx index).map fun x =>
    { id := callId rt completionTokenIds x.2, type := "function", name := x.1.1,
      arguments := rt.dumps x.1.2 }

/-- The state after a block. -/
def ParseState.after (rt : Runtime) (completionTokenIds : List TokenId) (st : ParseState)
    (b : RawBlock) : ParseState where
  blocks := st.blocks ++ (b.content rt).toList
  visibleParts := st.visibleParts ++ (b.visible rt).toList
  reasoningParts := st.reasoningParts ++ (b.reasoning rt).toList
  toolCalls := st.toolCalls ++
    toolCallsFrom rt completionTokenIds st.toolCalls.length (b.call rt).toList
  error := st.error.or (b.failure rt)
  ended := st.ended
  phase := .between
  headerIds := []
  payloadIds := []
  blockKind := none

/-- What closing a block does, or raises. -/
def closed (rt : Runtime) (completionTokenIds : List TokenId) (st : ParseState) (b : RawBlock) :
    Except ParseException ParseState :=
  match b.escape rt with
  | some e => .error (.loads e)
  | none =>
    if (b.call rt).isSome ∧ ¬ st.toolCalls.length < 2 ^ 32 then .error .overflow
    else .ok (st.after rt completionTokenIds b)

/-- A payload that is not a tool call. -/
theorem closeToolJson_none {completionTokenIds : List TokenId} {text : String}
    (recipient : String) (st : ParseState) {payload : PyJson} (hloads : rt.loads text = .ok payload)
    (h : toolPayload rt text = none) :
    ∃ reason, payloadFailure rt text = some reason ∧
      closeToolJson rt completionTokenIds text recipient st = .ok (st.fail reason) := by
  unfold closeToolJson loadPayload payloadFailure
  rw [hloads, h]
  cases payload with
  | obj fields =>
    refine ⟨.invalidToolPayloadShape, rfl, ?_⟩
    simp only [bind, Except.bind, PyJson.isObj, not_true_eq_false, if_false, PyJson.field?]
    split
    · rename_i hname hargs
      rw [toolPayload_eq_some.mpr ⟨fields, _, rfl, hloads, hname, hargs⟩] at h
      cases h
    · rfl
  | _ => exact ⟨.toolPayloadNotObject, rfl, rfl⟩

/-- A payload that is a tool call. -/
theorem closeToolJson_some {completionTokenIds : List TokenId} {text : String}
    (recipient : String) (st : ParseState) {name : String} {v : PyJson}
    (h : toolPayload rt text = some (name, v)) :
    payloadFailure rt text = none ∧
      closeToolJson rt completionTokenIds text recipient st =
        (toolCallId rt completionTokenIds st.toolCalls.length).map fun id =>
          { st with
            toolCalls := st.toolCalls ++
              [{ id, type := "function", name, arguments := rt.dumps v }]
            blocks := st.blocks ++ [.toolCall recipient name v text] } := by
  refine ⟨payloadFailure_eq_none.mpr (by rw [h]; rfl), ?_⟩
  obtain ⟨fields, arguments, rfl, hloads, hname, hargs⟩ := toolPayload_eq_some.mp h
  unfold closeToolJson loadPayload
  rw [hloads]
  simp only [bind, Except.bind, PyJson.isObj, not_true_eq_false, if_false, PyJson.field?, hname,
    hargs]
  cases toolCallId rt completionTokenIds st.toolCalls.length <;> rfl

/-- Leaving a block resets what belongs to it. -/
def ParseState.leaveBlock (st : ParseState) : ParseState :=
  { st with blockKind := none, headerIds := [], payloadIds := [], phase := .between }

/-- Closing a tool call in JSON. -/
theorem closeToolJson_eq {completionTokenIds : List TokenId} {st : ParseState}
    {b : RawBlock} (hkind : b.kind = .toolJson) :
    (closeToolJson rt completionTokenIds (rt.decode b.payload) (rt.decode b.recipient) st).map
      ParseState.leaveBlock = closed rt completionTokenIds st b := by
  unfold closed RawBlock.escape ParseState.after
  simp only [hkind, if_true, RawBlock.call, RawBlock.content, RawBlock.visible, RawBlock.reasoning,
    RawBlock.failure, reduceCtorEq, if_false, Option.toList_none, List.append_nil]
  cases hloads : rt.loads (rt.decode b.payload) with
  | error e =>
    unfold closeToolJson loadPayload payloadFailure toolPayload
    rw [hloads]
    cases e with
    | value => rfl
    | recursion => rfl
    | type =>
      simp [PyJson.isObj, ParseState.fail, ParseState.leaveBlock, toolCallsFrom, bind, Except.bind,
        pure, Except.pure, Except.map]
    | jsonDecode =>
      simp [PyJson.isObj, ParseState.fail, ParseState.leaveBlock, toolCallsFrom, bind, Except.bind,
        pure, Except.pure, Except.map]
  | ok payload =>
    cases hpayload : toolPayload rt (rt.decode b.payload) with
    | none =>
      obtain ⟨reason, hreason, hclose⟩ :=
        closeToolJson_none (rt.decode b.recipient) st hloads hpayload
      rw [hclose, hreason]
      simp [ParseState.fail, ParseState.leaveBlock, toolCallsFrom, Except.map]
    | some x =>
      obtain ⟨name, v⟩ := x
      obtain ⟨hnone, hclose⟩ := closeToolJson_some (rt.decode b.recipient) st hpayload
      rw [hclose, hnone, toolCallId_eq]
      by_cases hindex : st.toolCalls.length < 2 ^ 32
      · rw [if_pos hindex]
        simp only [Option.isSome_some, hindex, not_true_eq_false, and_false, if_false, Except.map,
          ParseState.leaveBlock, Option.map_some, Option.toList_some, toolCallsFrom, List.zipIdx_cons,
          List.zipIdx_nil, List.map_cons, List.map_nil, Option.or_none]
      · rw [if_neg hindex]
        simp only [Option.isSome_some, hindex, not_false_eq_true, and_self, if_true, Except.map]

/-- Closing a block in the state in which its end is reached. -/
theorem closeBlock_eq {completionTokenIds : List TokenId} {st : ParseState}
    {b : RawBlock} (hblock : st.blockKind = some b.kind) (hheader : st.headerIds = b.recipient)
    (hpayload : st.payloadIds = b.payload) :
    (do let st ← closeBlock rt completionTokenIds st
        return ({ st with phase := .between }, false)) =
      (closed rt completionTokenIds st b).map fun st => (st, false) := by
  unfold closeBlock
  rw [hblock, hheader, hpayload]
  cases hkind : b.kind with
  | toolJson =>
    rw [← closeToolJson_eq hkind]
    show (closeToolJson _ _ _ _ st >>= _) >>= _ = _
    cases closeToolJson rt completionTokenIds (rt.decode b.payload) (rt.decode b.recipient) st <;>
      rfl
  | thinking =>
    by_cases hrecipient : rt.decode b.recipient = "" <;>
    simp [closed, RawBlock.escape, RawBlock.call, ParseState.after, RawBlock.content,
      RawBlock.visible, RawBlock.reasoning, RawBlock.failure, hkind, hrecipient, toolCallsFrom,
      ParseState.fail, bind, Except.bind, pure, Except.pure, Except.map]
  | text =>
    by_cases hrecipient : rt.decode b.recipient = "" <;>
    simp [closed, RawBlock.escape, RawBlock.call, ParseState.after, RawBlock.content,
      RawBlock.visible, RawBlock.reasoning, RawBlock.failure, hkind, hrecipient, toolCallsFrom,
      ParseState.fail, bind, Except.bind, pure, Except.pure, Except.map]
  | toolText =>
    simp [closed, RawBlock.escape, RawBlock.call, ParseState.after, RawBlock.content,
      RawBlock.visible, RawBlock.reasoning, RawBlock.failure, hkind, toolCallsFrom,
      ParseState.fail, bind, Except.bind, pure, Except.pure, Except.map]

/-! ### The loop -/

section Run

variable {rt : Runtime} {ids : ControlIds} {completionTokenIds : List TokenId}

theorem run_cons (st : ParseState) (t : TokenId) (rest : List TokenId) :
    run rt ids completionTokenIds (t :: rest) st = (do
      let (st, stop) ← step rt ids completionTokenIds st t
      if stop then return st
      run rt ids completionTokenIds rest st) := rfl

/-- A turn that goes on. -/
theorem run_of_step {st : ParseState} (st' : ParseState) {t : TokenId} (rest : List TokenId)
    (h : step rt ids completionTokenIds st t = .ok (st', false)) :
    run rt ids completionTokenIds (t :: rest) st = run rt ids completionTokenIds rest st' := by
  rw [run_cons, h]
  rfl

/-- A turn that leaves the loop. -/
theorem run_of_stop {st st' : ParseState} {t : TokenId} (rest : List TokenId)
    (h : step rt ids completionTokenIds st t = .ok (st', true)) :
    run rt ids completionTokenIds (t :: rest) st = .ok st' := by
  rw [run_cons, h]
  rfl

/-- Control tokens that no header or payload contains. -/
theorem mem_controlIds (ids : ControlIds) :
    ids.messageModel ∈ ids.controlIds ∧ ids.endMessage ∈ ids.controlIds ∧
    ids.endSampling ∈ ids.controlIds ∧ ∀ kind, ids.marker kind ∈ ids.controlIds := by
  refine ⟨by simp [ControlIds.controlIds], by simp [ControlIds.controlIds],
    by simp [ControlIds.controlIds], fun kind => ?_⟩
  cases kind <;> simp [ControlIds.controlIds, ControlIds.marker]

theorem markerKind_marker (ids : ControlIds) (kind : BlockKind) :
    ids.markerKind (ids.marker kind) = some kind := by
  have h := ids.distinct
  simp only [List.nodup_cons, List.mem_cons, List.not_mem_nil, not_or, or_false] at h
  cases kind <;> simp [ControlIds.markerKind, ControlIds.marker] <;> grind

theorem marker_of_markerKind {ids : ControlIds} {t : TokenId} {kind : BlockKind}
    (h : ids.markerKind t = some kind) : t = ids.marker kind := by
  unfold ControlIds.markerKind at h
  split at h
  · cases h; assumption
  · split at h
    · cases h; assumption
    · split at h
      · cases h; assumption
      · split at h
        · cases h; assumption
        · cases h

/-- Markers are none of the other control tokens. -/
theorem marker_ne (ids : ControlIds) (kind : BlockKind) :
    ids.marker kind ≠ ids.messageModel ∧ ids.marker kind ≠ ids.endMessage ∧
    ids.marker kind ≠ ids.endSampling := by
  have h := ids.distinct
  simp only [List.nodup_cons, List.mem_cons, List.not_mem_nil, not_or, or_false] at h
  cases kind <;> simp only [ControlIds.marker] <;> grind

theorem endings_ne (ids : ControlIds) :
    ids.messageModel ≠ ids.endMessage ∧ ids.messageModel ≠ ids.endSampling ∧
    ids.endMessage ≠ ids.endSampling := by
  have h := ids.distinct
  simp only [List.nodup_cons, List.mem_cons, List.not_mem_nil, not_or, or_false] at h
  grind

theorem markerKind_ordinary {t : TokenId} (h : ids.Ordinary t) : ids.markerKind t = none := by
  cases hkind : ids.markerKind t with
  | none => rfl
  | some kind => exact absurd (marker_of_markerKind hkind ▸ (mem_controlIds ids).2.2.2 kind) h

/-- `message_model` tokens at the start of a header are skipped. -/
theorem run_boundary (st : ParseState) (hended : st.ended = false) (hphase : st.phase = .header)
    (hheader : st.headerIds = []) (n : Nat) (rest : List TokenId) :
    run rt ids completionTokenIds (List.replicate n ids.messageModel ++ rest) st =
      run rt ids completionTokenIds rest st := by
  induction n with
  | zero => rfl
  | succ n ih =>
    rw [List.replicate_succ, List.cons_append, run_of_step st, ih]
    simp [step, hended, hphase, hheader]

/-- Ordinary tokens in a header are the recipient. -/
theorem run_recipient (st : ParseState) (hended : st.ended = false) (hphase : st.phase = .header)
    {xs : List TokenId} (hxs : ∀ t ∈ xs, ids.Ordinary t) (rest : List TokenId) :
    run rt ids completionTokenIds (xs ++ rest) st =
      run rt ids completionTokenIds rest { st with headerIds := st.headerIds ++ xs } := by
  induction xs generalizing st with
  | nil => simp
  | cons t xs ih =>
    have hordinary := hxs t List.mem_cons_self
    have hmodel : t ≠ ids.messageModel := fun h => hordinary (h ▸ (mem_controlIds ids).1)
    have hsampling : t ≠ ids.endSampling := fun h => hordinary (h ▸ (mem_controlIds ids).2.2.1)
    have hcontrol : t ∉ ids.controlIds := hordinary
    have hrest := @ih { st with headerIds := st.headerIds ++ [t] } hended hphase
      fun t ht => hxs t (List.mem_cons_of_mem _ ht)
    rw [List.cons_append, run_of_step { st with headerIds := st.headerIds ++ [t] }, hrest]
    · simp
    · simp [step, hended, hphase, hmodel, hsampling, markerKind_ordinary hordinary, hcontrol]

/-- A marker opens a block. -/
theorem run_marker (st : ParseState) (hended : st.ended = false) (hphase : st.phase = .header)
    (kind : BlockKind) (rest : List TokenId) :
    run rt ids completionTokenIds (ids.marker kind :: rest) st =
      run rt ids completionTokenIds rest
        { st with blockKind := some kind, payloadIds := [], phase := .payload } := by
  rw [run_of_step]
  simp [step, hended, hphase, (marker_ne ids kind).1, markerKind_marker]

/-- Ordinary tokens in a block are its payload. -/
theorem run_payload (st : ParseState) (hended : st.ended = false) (hphase : st.phase = .payload)
    {xs : List TokenId} (hxs : ∀ t ∈ xs, ids.Ordinary t) (rest : List TokenId) :
    run rt ids completionTokenIds (xs ++ rest) st =
      run rt ids completionTokenIds rest { st with payloadIds := st.payloadIds ++ xs } := by
  induction xs generalizing st with
  | nil => simp
  | cons t xs ih =>
    have hordinary := hxs t List.mem_cons_self
    have hmessage : t ≠ ids.endMessage := fun h => hordinary (h ▸ (mem_controlIds ids).2.1)
    have hcontrol : t ∉ ids.controlIds := hordinary
    have hrest := @ih { st with payloadIds := st.payloadIds ++ [t] } hended hphase
      fun t ht => hxs t (List.mem_cons_of_mem _ ht)
    rw [List.cons_append, run_of_step { st with payloadIds := st.payloadIds ++ [t] }, hrest]
    · simp
    · simp [step, hended, hphase, hmessage, hcontrol]

/-- A state between blocks: before the first one, or after another. -/
structure AtBoundary (st : ParseState) (first : Bool) : Prop where
  ended : st.ended = false
  header : st.headerIds = []
  phase : st.phase = if first then .header else .between

/-- Whether a block may stand first, or after another. -/
def RawBlock.Placed (b : RawBlock) (first : Bool) : Prop := first = true ∨ 1 ≤ b.boundary

/-- The loop closes a block at the front. -/
theorem run_block {st : ParseState} {first : Bool} (hst : AtBoundary st first) {b : RawBlock}
    (hb : b.Framed ids) (hplaced : b.Placed first) (rest : List TokenId) :
    run rt ids completionTokenIds (b.tokens ids ++ rest) st = (do
      let st ← closed rt completionTokenIds st b
      run rt ids completionTokenIds rest st) := by
  -- the tokens of the header, whether or not the first of them is read between two blocks
  have hheader : run rt ids completionTokenIds (b.tokens ids ++ rest) st =
      run rt ids completionTokenIds
        (b.recipient ++ ids.marker b.kind :: (b.payload ++ ids.endMessage :: rest))
        { st with phase := .header } := by
    have hphase := hst.phase
    have htokens : b.tokens ids ++ rest = List.replicate b.boundary ids.messageModel ++
        (b.recipient ++ ids.marker b.kind :: (b.payload ++ ids.endMessage :: rest)) := by
      simp [RawBlock.tokens]
    rw [htokens]
    cases first with
    | true =>
      rw [if_pos rfl] at hphase
      rw [run_boundary st hst.ended hphase hst.header]
      congr 1
      rw [← hphase]
    | false =>
      rw [if_neg (by decide)] at hphase
      obtain ⟨n, hn⟩ : ∃ n, b.boundary = n + 1 := by
        cases hplaced with
        | inl h => cases h
        | inr h => exact ⟨b.boundary - 1, by omega⟩
      rw [hn, List.replicate_succ, List.cons_append, run_of_step { st with phase := .header },
        run_boundary { st with phase := .header } hst.ended rfl hst.header]
      simp [step, hst.ended, hphase]
  have hrecipient : run rt ids completionTokenIds
      (b.recipient ++ ids.marker b.kind :: (b.payload ++ ids.endMessage :: rest))
      { st with phase := .header } =
      run rt ids completionTokenIds (ids.marker b.kind :: (b.payload ++ ids.endMessage :: rest))
        { st with phase := .header, headerIds := b.recipient } := by
    rw [run_recipient { st with phase := .header } hst.ended rfl hb.recipient, hst.header]
    rfl
  have hmarker : run rt ids completionTokenIds
      (ids.marker b.kind :: (b.payload ++ ids.endMessage :: rest))
      { st with phase := .header, headerIds := b.recipient } =
      run rt ids completionTokenIds (b.payload ++ ids.endMessage :: rest)
        { st with phase := .payload, headerIds := b.recipient, blockKind := some b.kind,
                  payloadIds := [] } :=
    run_marker { st with phase := .header, headerIds := b.recipient } hst.ended rfl b.kind _
  have hpayload : run rt ids completionTokenIds (b.payload ++ ids.endMessage :: rest)
      { st with phase := .payload, headerIds := b.recipient, blockKind := some b.kind,
                payloadIds := [] } =
      run rt ids completionTokenIds (ids.endMessage :: rest)
        { st with phase := .payload, headerIds := b.recipient, blockKind := some b.kind,
                  payloadIds := b.payload } :=
    run_payload { st with phase := .payload, headerIds := b.recipient, blockKind := some b.kind,
                          payloadIds := [] } hst.ended rfl hb.payload _
  rw [hheader, hrecipient, hmarker, hpayload, run_cons]
  have hclose := @closeBlock_eq rt completionTokenIds
    { st with phase := .payload, headerIds := b.recipient, blockKind := some b.kind,
              payloadIds := b.payload } b rfl rfl rfl
  have hsame : closed rt completionTokenIds
      { st with phase := .payload, headerIds := b.recipient, blockKind := some b.kind,
                payloadIds := b.payload } b = closed rt completionTokenIds st b := rfl
  rw [hsame] at hclose
  have hended : ¬ st.ended = true := by simp [hst.ended]
  have hend : step rt ids completionTokenIds
      { st with phase := .payload, headerIds := b.recipient, blockKind := some b.kind,
                payloadIds := b.payload } ids.endMessage =
      (closed rt completionTokenIds st b).map fun st => (st, false) := by
    rw [← hclose]
    unfold step
    rw [if_neg hended]
    exact if_pos rfl
  rw [hend]
  cases closed rt completionTokenIds st b <;> rfl

/-- After a block comes another one, or the end. -/
theorem atBoundary_after {st : ParseState} {first : Bool} (hst : AtBoundary st first)
    (b : RawBlock) : AtBoundary (st.after rt completionTokenIds b) false where
  ended := hst.ended
  header := rfl
  phase := rfl

theorem closed_eq_ok {st st' : ParseState} {b : RawBlock}
    (h : closed rt completionTokenIds st b = .ok st') :
    st' = st.after rt completionTokenIds b := by
  unfold closed at h
  split at h
  · cases h
  · split at h
    · cases h
    · exact (Except.ok.inj h).symm

/-- Blocks that stand one after the other. -/
def Framing (ids : ControlIds) : Bool → List RawBlock → Prop
  | _, [] => True
  | first, b :: bs => b.Framed ids ∧ b.Placed first ∧ Framing ids false bs

/-- The tokens of blocks. -/
def blockTokens (ids : ControlIds) (bs : List RawBlock) : List TokenId :=
  bs.flatMap (·.tokens ids)

/-- Closing blocks one after the other. -/
def closeAll (rt : Runtime) (completionTokenIds : List TokenId) (st : ParseState)
    (bs : List RawBlock) : Except ParseException ParseState :=
  bs.foldlM (closed rt completionTokenIds) st

/-- The state after blocks. -/
def ParseState.afterAll (rt : Runtime) (completionTokenIds : List TokenId) (st : ParseState)
    (bs : List RawBlock) : ParseState :=
  bs.foldl (ParseState.after rt completionTokenIds) st

/-- The loop closes the blocks at the front. -/
theorem run_blocks {st : ParseState} {first : Bool} (hst : AtBoundary st first)
    {bs : List RawBlock} (hbs : Framing ids first bs) (rest : List TokenId) :
    run rt ids completionTokenIds (blockTokens ids bs ++ rest) st = (do
      let st ← closeAll rt completionTokenIds st bs
      run rt ids completionTokenIds rest st) := by
  induction bs generalizing st first with
  | nil => rfl
  | cons b bs ih =>
    obtain ⟨hb, hplaced, hbs⟩ := hbs
    have htokens : blockTokens ids (b :: bs) ++ rest =
        b.tokens ids ++ (blockTokens ids bs ++ rest) := by
      simp [blockTokens]
    rw [htokens, run_block hst hb hplaced]
    show _ = (closed rt completionTokenIds st b >>= fun st =>
      closeAll rt completionTokenIds st bs) >>= _
    cases hclose : closed rt completionTokenIds st b with
    | error e => rfl
    | ok st' =>
      rw [Except.ok_bind, Except.ok_bind]
      exact ih (closed_eq_ok hclose ▸ atBoundary_after hst b) hbs

theorem atBoundary_afterAll {st : ParseState} {first : Bool} (hst : AtBoundary st first)
    (bs : List RawBlock) :
    AtBoundary (st.afterAll rt completionTokenIds bs) (first && bs.isEmpty) := by
  induction bs generalizing st first with
  | nil =>
    rw [List.isEmpty_nil, Bool.and_true]
    exact hst
  | cons b bs ih =>
    have h := ih (@atBoundary_after rt completionTokenIds st first hst b)
    rw [Bool.false_and] at h
    rw [List.isEmpty_cons, Bool.and_false]
    exact h

theorem filterMap_cons_toList {α β : Type} (f : α → Option β) (x : α) (xs : List α) :
    (x :: xs).filterMap f = (f x).toList ++ xs.filterMap f := by
  cases hf : f x <;> simp [hf]

theorem length_toolCallsFrom (index : Nat) (calls : List (String × PyJson)) :
    (toolCallsFrom rt completionTokenIds index calls).length = calls.length := by
  simp [toolCallsFrom]

theorem toolCallsFrom_append (index : Nat) (calls calls' : List (String × PyJson)) :
    toolCallsFrom rt completionTokenIds index (calls ++ calls') =
      toolCallsFrom rt completionTokenIds index calls ++
        toolCallsFrom rt completionTokenIds (index + calls.length) calls' := by
  simp [toolCallsFrom, List.zipIdx_append]

/-- What closing blocks collects. -/
theorem afterAll_fields (st : ParseState) (bs : List RawBlock) :
    (st.afterAll rt completionTokenIds bs).blocks =
      st.blocks ++ bs.filterMap (·.content rt) ∧
    (st.afterAll rt completionTokenIds bs).visibleParts =
      st.visibleParts ++ bs.filterMap (·.visible rt) ∧
    (st.afterAll rt completionTokenIds bs).reasoningParts =
      st.reasoningParts ++ bs.filterMap (·.reasoning rt) ∧
    (st.afterAll rt completionTokenIds bs).toolCalls =
      st.toolCalls ++ toolCallsFrom rt completionTokenIds st.toolCalls.length
        (bs.filterMap (·.call rt)) ∧
    ((st.afterAll rt completionTokenIds bs).error = none ↔
      st.error = none ∧ ∀ b ∈ bs, b.Valid rt) := by
  induction bs generalizing st with
  | nil => simp [ParseState.afterAll, toolCallsFrom]
  | cons b bs ih =>
    obtain ⟨hblocks, hvisible, hreasoning, hcalls, herror⟩ := ih (st.after rt completionTokenIds b)
    have hcons : st.afterAll rt completionTokenIds (b :: bs) =
        (st.after rt completionTokenIds b).afterAll rt completionTokenIds bs := rfl
    simp only [hcons, filterMap_cons_toList]
    refine ⟨?_, ?_, ?_, ?_, ?_⟩
    · rw [hblocks, ← List.append_assoc]
      rfl
    · rw [hvisible, ← List.append_assoc]
      rfl
    · rw [hreasoning, ← List.append_assoc]
      rfl
    · rw [hcalls, toolCallsFrom_append, ← List.append_assoc]
      simp only [ParseState.after, List.length_append, length_toolCallsFrom]
    · rw [herror, List.forall_mem_cons, ← and_assoc]
      apply and_congr_left'
      simp only [ParseState.after, Option.or_eq_none_iff, RawBlock.failure_eq_none]

/-- Closing blocks succeeds if the library's exceptions are handled and every call gets an
    index. -/
theorem closeAll_eq_ok {st : ParseState} (hindex : st.toolCalls.length ≤ 2 ^ 32)
    (bs : List RawBlock) :
    ((∀ b ∈ bs, b.escape rt = none) ∧
        st.toolCalls.length + (bs.filterMap (·.call rt)).length ≤ 2 ^ 32 →
      closeAll rt completionTokenIds st bs = .ok (st.afterAll rt completionTokenIds bs)) ∧
    (∀ st', closeAll rt completionTokenIds st bs = .ok st' →
      (∀ b ∈ bs, b.escape rt = none) ∧
        st.toolCalls.length + (bs.filterMap (·.call rt)).length ≤ 2 ^ 32) := by
  induction bs generalizing st with
  | nil => exact ⟨fun _ => rfl, fun _ _ => ⟨by simp, by simpa using hindex⟩⟩
  | cons b bs ih =>
    have hcons : closeAll rt completionTokenIds st (b :: bs) =
        (closed rt completionTokenIds st b >>= fun st => closeAll rt completionTokenIds st bs) :=
      rfl
    have hcalls : (st.after rt completionTokenIds b).toolCalls.length =
        st.toolCalls.length + (b.call rt).toList.length := by
      simp only [ParseState.after, List.length_append, length_toolCallsFrom]
    rw [hcons, filterMap_cons_toList, List.length_append]
    constructor
    · rintro ⟨hescape, hbound⟩
      -- the bound on all calls leaves room for the call of this block
      have hroom : ¬ ((b.call rt).isSome ∧ ¬ st.toolCalls.length < 2 ^ 32) := by
        rintro ⟨hcall, hfull⟩
        obtain ⟨c, hc⟩ := Option.isSome_iff_exists.mp hcall
        rw [hc, Option.toList_some, List.length_singleton] at hbound
        omega
      have hclose : closed rt completionTokenIds st b = .ok (st.after rt completionTokenIds b) := by
        rw [closed, hescape b List.mem_cons_self]
        exact if_neg hroom
      rw [hclose, Except.ok_bind]
      refine (ih (by omega)).1 ⟨fun b' hb' => hescape b' (List.mem_cons_of_mem _ hb'), ?_⟩
      rw [hcalls]
      omega
    · intro st' h
      obtain ⟨st₁, hclose, h⟩ := Except.bind_eq_ok.mp h
      have hst₁ := closed_eq_ok hclose
      have hescape : b.escape rt = none := by
        cases hb : b.escape rt with
        | none => rfl
        | some e =>
          rw [closed, hb] at hclose
          cases hclose
      have hroom : (b.call rt).isSome → st.toolCalls.length < 2 ^ 32 := by
        intro hcall
        by_contra hfull
        rw [closed, hescape] at hclose
        have herror : (if (b.call rt).isSome ∧ ¬ st.toolCalls.length < 2 ^ 32 then
            Except.error ParseException.overflow
            else Except.ok (st.after rt completionTokenIds b)) =
            Except.error ParseException.overflow := if_pos ⟨hcall, hfull⟩
        rw [herror] at hclose
        cases hclose
      have hlen : (b.call rt).toList.length + st.toolCalls.length ≤ 2 ^ 32 := by
        cases hcall : b.call rt with
        | none => simpa using hindex
        | some c =>
          have hlt := hroom (by rw [hcall]; rfl)
          rw [Option.toList_some, List.length_singleton]
          omega
      rw [hst₁] at h
      obtain ⟨hall, hbound⟩ := (ih (by omega)).2 st' h
      refine ⟨List.forall_mem_cons.mpr ⟨hescape, hall⟩, ?_⟩
      rw [hcalls] at hbound
      omega

/-! ### What follows the blocks -/

/-- No block stands at the front. -/
def NoBlock (ids : ControlIds) (first : Bool) (rest : List TokenId) : Prop :=
  ∀ (b : RawBlock) (r : List TokenId), b.Framed ids → b.Placed first →
    rest ≠ b.tokens ids ++ r

/-- The end of a completion. -/
def Ending (ids : ControlIds) (rest : List TokenId) : Prop :=
  ∃ k, rest = List.replicate k ids.messageModel ++ [ids.endSampling]

/-- The elements at the front that satisfy a predicate. -/
theorem exists_front {α : Type} (p : α → Prop) (xs : List α) :
    ∃ front rest, xs = front ++ rest ∧ (∀ x ∈ front, p x) ∧ ∀ c u, rest = c :: u → ¬ p c := by
  induction xs with
  | nil => exact ⟨[], [], rfl, by simp, by simp⟩
  | cons x xs ih =>
    by_cases hx : p x
    · obtain ⟨front, rest, rfl, hfront, hrest⟩ := ih
      exact ⟨x :: front, rest, rfl, List.forall_mem_cons.mpr ⟨hx, hfront⟩, hrest⟩
    · refine ⟨[], x :: xs, rfl, by simp, fun c u h => ?_⟩
      cases h
      exact hx

/-- Two ways to split a list at the first element that does not satisfy a predicate. -/
theorem front_unique {α : Type} {p : α → Prop} {xs ys : List α} {c d : α} {u v : List α}
    (hxs : ∀ x ∈ xs, p x) (hys : ∀ y ∈ ys, p y) (hc : ¬ p c) (hd : ¬ p d)
    (h : xs ++ c :: u = ys ++ d :: v) : xs = ys ∧ c = d ∧ u = v := by
  induction xs generalizing ys with
  | nil =>
    cases ys with
    | nil =>
      cases h
      exact ⟨rfl, rfl, rfl⟩
    | cons y ys =>
      cases h
      exact absurd (hys c List.mem_cons_self) hc
  | cons x xs ih =>
    cases ys with
    | nil =>
      cases h
      exact absurd (hxs d List.mem_cons_self) hd
    | cons y ys =>
      obtain ⟨rfl, htail⟩ := List.cons.inj h
      obtain ⟨rfl, rfl, rfl⟩ := ih (fun z hz => hxs z (List.mem_cons_of_mem _ hz))
        (fun z hz => hys z (List.mem_cons_of_mem _ hz)) htail
      exact ⟨rfl, rfl, rfl⟩

/-- The first element after the `message_model` tokens of a block. -/
theorem RawBlock.exists_head (ids : ControlIds) {b : RawBlock} (hb : b.Framed ids)
    (u : List TokenId) : ∃ c v, b.recipient ++ ids.marker b.kind :: u = c :: v ∧
      c ≠ ids.messageModel := by
  cases hrecipient : b.recipient with
  | nil => exact ⟨_, _, rfl, (marker_ne ids b.kind).1⟩
  | cons t ts =>
    refine ⟨t, _, rfl, fun h => ?_⟩
    exact hb.recipient t (by simp [hrecipient]) (h ▸ (mem_controlIds ids).1)

/-- A block at the front is determined by the tokens. -/
theorem RawBlock.tokens_inj {b b' : RawBlock} (hb : b.Framed ids) (hb' : b'.Framed ids)
    {x y : List TokenId} (h : b.tokens ids ++ x = b'.tokens ids ++ y) : b = b' ∧ x = y := by
  have htokens : ∀ (c : RawBlock) (z : List TokenId), c.tokens ids ++ z =
      List.replicate c.boundary ids.messageModel ++
        (c.recipient ++ ids.marker c.kind :: (c.payload ++ ids.endMessage :: z)) := by
    intro c z
    simp [RawBlock.tokens]
  rw [htokens, htokens] at h
  obtain ⟨c, v, hcons, hc⟩ := exists_head ids hb (b.payload ++ ids.endMessage :: x)
  obtain ⟨c', v', hcons', hc'⟩ := exists_head ids hb' (b'.payload ++ ids.endMessage :: y)
  rw [hcons, hcons'] at h
  obtain ⟨hboundary, rfl, rfl⟩ := front_unique (p := (· = ids.messageModel))
    (fun t ht => List.eq_of_mem_replicate ht) (fun t ht => List.eq_of_mem_replicate ht) hc hc' h
  rw [← hcons'] at hcons
  have hmarker : ∀ kind, ¬ ids.Ordinary (ids.marker kind) := fun kind h =>
    h ((mem_controlIds ids).2.2.2 kind)
  have hend : ¬ ids.Ordinary ids.endMessage := fun h => h (mem_controlIds ids).2.1
  obtain ⟨hrecipient, hkind, hrest⟩ := front_unique hb.recipient hb'.recipient (hmarker _)
    (hmarker _) hcons
  obtain ⟨hpayload, -, hxy⟩ := front_unique hb.payload hb'.payload hend hend hrest
  have hlength := congrArg List.length hboundary
  rw [List.length_replicate, List.length_replicate] at hlength
  have hkinds : b.kind = b'.kind := by
    have hsome := markerKind_marker ids b.kind
    rw [hkind, markerKind_marker] at hsome
    exact (Option.some.inj hsome).symm
  refine ⟨?_, hxy⟩
  cases b
  cases b'
  simp_all

/-- What a failing or finishing turn keeps. -/
structure Keeps (st st' : ParseState) : Prop where
  blocks : st'.blocks = st.blocks
  visibleParts : st'.visibleParts = st.visibleParts
  reasoningParts : st'.reasoningParts = st.reasoningParts
  toolCalls : st'.toolCalls = st.toolCalls

theorem fail_error (st : ParseState) (reason : ParseFailure) : (st.fail reason).error ≠ none := by
  simp [ParseState.fail]

theorem keeps_finish (st : ParseState) : Keeps st (finish st) := by
  unfold finish
  split
  · exact ⟨rfl, rfl, rfl, rfl⟩
  · split
    · exact ⟨rfl, rfl, rfl, rfl⟩
    · split <;> exact ⟨rfl, rfl, rfl, rfl⟩

theorem Keeps.finish {st st' : ParseState} (h : Keeps st st') :
    Keeps st (InklingParser.finish st') where
  blocks := (keeps_finish st').blocks.trans h.blocks
  visibleParts := (keeps_finish st').visibleParts.trans h.visibleParts
  reasoningParts := (keeps_finish st').reasoningParts.trans h.reasoningParts
  toolCalls := (keeps_finish st').toolCalls.trans h.toolCalls

theorem finish_error_of_error {st : ParseState} (h : st.error ≠ none) :
    (finish st).error ≠ none := by
  unfold finish
  split
  · exact fail_error _ _
  · split
    · exact fail_error _ _
    · split
      · exact fail_error _ _
      · exact h

theorem finish_error_of_not_ended {st : ParseState} (h : st.ended = false) :
    (finish st).error ≠ none := by
  unfold finish
  split
  · exact fail_error _ _
  · split
    · exact fail_error _ _
    · rw [if_pos (by simp [h])]
      exact fail_error _ _

/-- How the loop ends on what follows the blocks. -/
def Ends (rt : Runtime) (ids : ControlIds) (completionTokenIds : List TokenId) (st : ParseState)
    (rest : List TokenId) : Prop :=
  ∃ st', run rt ids completionTokenIds rest st = .ok st' ∧ Keeps st (finish st') ∧
    ((finish st').error = none ↔ st.error = none ∧ Ending ids rest)

/-- The loop ends with an error. -/
theorem ends_of_error {st st' : ParseState} {rest : List TokenId}
    (hrun : run rt ids completionTokenIds rest st = .ok st') (hkeeps : Keeps st (finish st'))
    (herror : (finish st').error ≠ none) (hrest : ¬ Ending ids rest) :
    Ends rt ids completionTokenIds st rest :=
  ⟨st', hrun, hkeeps, fun h => absurd h herror, fun h => absurd h.2 hrest⟩

/-- The end of a completion has two control tokens only. -/
theorem Ending.mem {rest : List TokenId} (h : Ending ids rest) :
    ids.endSampling ∈ rest ∧ ∀ t ∈ rest, t = ids.messageModel ∨ t = ids.endSampling := by
  obtain ⟨k, rfl⟩ := h
  refine ⟨by simp, fun t ht => ?_⟩
  rw [List.mem_append, List.mem_singleton] at ht
  exact ht.imp_left List.eq_of_mem_replicate

/-- An open block without an end. -/
theorem ends_payload {st : ParseState} (hended : st.ended = false) (hphase : st.phase = .payload)
    {ys rest : List TokenId} (hys : ∀ t ∈ ys, ids.Ordinary t)
    (hrest : ∀ c u, rest = c :: u → ¬ ids.Ordinary c ∧ c ≠ ids.endMessage) :
    ∃ st', run rt ids completionTokenIds (ys ++ rest) st = .ok st' ∧ Keeps st (finish st') ∧
      (finish st').error ≠ none := by
  rw [run_payload st hended hphase hys]
  cases rest with
  | nil =>
    have hkeeps : Keeps st { st with payloadIds := st.payloadIds ++ ys } := ⟨rfl, rfl, rfl, rfl⟩
    exact ⟨_, rfl, hkeeps.finish, finish_error_of_not_ended hended⟩
  | cons c u =>
    obtain ⟨hordinary, hmessage⟩ := hrest c u rfl
    have hcontrol : c ∈ ids.controlIds := not_not.mp hordinary
    have hkeeps : Keeps st (ParseState.fail { st with payloadIds := st.payloadIds ++ ys }
        .controlTokenInsideOpenBlock) := ⟨rfl, rfl, rfl, rfl⟩
    refine ⟨_, run_of_stop u ?_, hkeeps.finish, finish_error_of_error (fail_error _ _)⟩
    simp [step, hended, hphase, hmessage, hcontrol]

/-- A header that no block follows. -/
theorem ends_header {st : ParseState} (hended : st.ended = false) (hphase : st.phase = .header)
    (hheader : st.headerIds = []) {rest : List TokenId} (hrest : NoBlock ids true rest) :
    Ends rt ids completionTokenIds st rest := by
  obtain ⟨front, r₁, hsplit₁, hfront, hr₁⟩ := exists_front (· = ids.messageModel) rest
  obtain ⟨xs, r₂, hsplit₂, hxs, hr₂⟩ := exists_front ids.Ordinary r₁
  obtain ⟨n, rfl⟩ : ∃ n, front = List.replicate n ids.messageModel :=
    ⟨front.length, List.eq_replicate_of_mem hfront⟩
  have hrun : run rt ids completionTokenIds rest st =
      run rt ids completionTokenIds r₂ { st with headerIds := xs } := by
    rw [hsplit₁, run_boundary st hended hphase hheader, hsplit₂,
      run_recipient st hended hphase hxs, hheader]
    rfl
  have hmem : ∀ t ∈ r₂, t ∈ rest := fun t ht => by
    rw [hsplit₁, hsplit₂]
    exact List.mem_append_right _ (List.mem_append_right _ ht)
  have hrecipient : xs ≠ [] → ¬ Ending ids rest := by
    intro hne hending
    obtain ⟨t, ts, rfl⟩ := List.exists_cons_of_ne_nil hne
    have hordinary := hxs t List.mem_cons_self
    have hin : t ∈ rest := by
      rw [hsplit₁, hsplit₂]
      exact List.mem_append_right _ (List.mem_append_left _ List.mem_cons_self)
    cases hending.mem.2 t hin with
    | inl h => exact hordinary (h ▸ (mem_controlIds ids).1)
    | inr h => exact hordinary (h ▸ (mem_controlIds ids).2.2.1)
  cases r₂ with
  | nil =>
    have hkeeps : Keeps st { st with headerIds := xs } := ⟨rfl, rfl, rfl, rfl⟩
    refine ends_of_error hrun hkeeps.finish (finish_error_of_not_ended hended) fun hending => ?_
    have hin := hending.mem.1
    rw [hsplit₁, hsplit₂, List.append_nil, List.mem_append] at hin
    cases hin with
    | inl h => exact (endings_ne ids).2.1 (hfront _ h).symm
    | inr h => exact hxs _ h (mem_controlIds ids).2.2.1
  | cons c u =>
    have hcontrol : c ∈ ids.controlIds := not_not.mp (hr₂ c u rfl)
    have hnotModel : ¬ (c = ids.messageModel ∧ xs = []) := by
      rintro ⟨hc, hnil⟩
      refine hr₁ c u ?_ hc
      rw [hsplit₂, hnil]
      rfl
    cases hkind : ids.markerKind c with
    | some kind =>
      -- a marker opens a block, which does not end
      have hmarker := marker_of_markerKind hkind
      obtain ⟨ys, r₃, hsplit₃, hys, hr₃⟩ := exists_front ids.Ordinary u
      have hopen : run rt ids completionTokenIds (c :: u) { st with headerIds := xs } =
          run rt ids completionTokenIds u
            { st with headerIds := xs, blockKind := some kind, payloadIds := [],
                      phase := .payload } := by
        rw [hmarker]
        exact run_marker { st with headerIds := xs } hended hphase kind u
      obtain ⟨st', hpayload, hkeeps, herror⟩ := @ends_payload rt ids completionTokenIds
        { st with headerIds := xs, blockKind := some kind, payloadIds := [], phase := .payload }
        hended rfl ys r₃ hys (fun d v hd => by
          refine ⟨hr₃ d v hd, fun hmessage => ?_⟩
          refine hrest ⟨n, xs, kind, ys⟩ v ⟨hxs, hys⟩ (.inl rfl) ?_
          rw [hsplit₁, hsplit₂, hsplit₃, hd, hmessage, hmarker]
          simp [RawBlock.tokens])
      rw [← hsplit₃, ← hopen, ← hrun] at hpayload
      refine ends_of_error hpayload
        ⟨hkeeps.blocks, hkeeps.visibleParts, hkeeps.reasoningParts, hkeeps.toolCalls⟩ herror ?_
      intro hending
      have hin := hending.mem.2 c (hmem c List.mem_cons_self)
      rw [hmarker] at hin
      exact hin.elim (marker_ne ids kind).1 (marker_ne ids kind).2.2
    | none =>
      by_cases hend : c = ids.endSampling ∧ xs = []
      · -- the end of sampling, after which nothing may come
        obtain ⟨rfl, rfl⟩ := hend
        have hstep : step rt ids completionTokenIds { st with headerIds := [] } ids.endSampling =
            .ok ({ st with headerIds := [], ended := true, phase := .between }, false) := by
          simp [step, hended, hphase, (endings_ne ids).2.1.symm, hkind]
        rw [run_of_step _ u hstep] at hrun
        cases u with
        | nil =>
          refine ⟨_, hrun, ⟨rfl, rfl, rfl, rfl⟩, ?_⟩
          have hending : Ending ids rest := ⟨n, by rw [hsplit₁, hsplit₂]; rfl⟩
          have hfinish : (finish { st with headerIds := [], ended := true, phase := .between }).error =
              st.error := rfl
          rw [hfinish]
          exact ⟨fun h => ⟨h, hending⟩, fun h => h.1⟩
        | cons t v =>
          have hstop : step rt ids completionTokenIds
              { st with headerIds := [], ended := true, phase := .between } t =
              .ok (ParseState.fail { st with headerIds := [], ended := true, phase := .between }
                .tokensAfterEndSampling, true) := rfl
          rw [run_of_stop v hstop] at hrun
          refine ends_of_error hrun (Keeps.finish ⟨rfl, rfl, rfl, rfl⟩)
            (finish_error_of_error (fail_error _ _)) ?_
          rintro ⟨k, hk⟩
          rw [hsplit₁, hsplit₂] at hk
          have hsampling : ¬ ids.endSampling = ids.messageModel := (endings_ne ids).2.1.symm
          obtain ⟨-, -, htail⟩ := front_unique (p := (· = ids.messageModel)) hfront
            (fun t ht => List.eq_of_mem_replicate ht) hsampling hsampling hk
          cases htail
      · have hstop : step rt ids completionTokenIds { st with headerIds := xs } c =
            .ok (ParseState.fail { st with headerIds := xs } .unexpectedControlTokenInHeader,
              true) := by
          simp only [step, hended, hphase, hnotModel, hkind, hend, hcontrol, Bool.false_eq_true,
            if_false, if_true]
        rw [run_of_stop u hstop] at hrun
        refine ends_of_error hrun (Keeps.finish ⟨rfl, rfl, rfl, rfl⟩)
          (finish_error_of_error (fail_error _ _)) fun hending => ?_
        have hnil : xs = [] := by
          by_contra hne
          exact hrecipient hne hending
        cases hending.mem.2 c (hmem c List.mem_cons_self) with
        | inl h => exact hnotModel ⟨h, hnil⟩
        | inr h => exact hend ⟨h, hnil⟩

/-- What follows the blocks adds nothing but the error. -/
theorem run_tail {st : ParseState} {first : Bool} (hst : AtBoundary st first)
    {rest : List TokenId} (hrest : NoBlock ids first rest) :
    Ends rt ids completionTokenIds st rest := by
  have hphase := hst.phase
  cases first with
  | true => exact ends_header hst.ended hphase hst.header hrest
  | false =>
    rw [if_neg (by decide)] at hphase
    cases rest with
    | nil =>
      refine ends_of_error rfl (keeps_finish st) (finish_error_of_not_ended hst.ended) ?_
      intro hending
      cases hending.mem.1
    | cons t rest =>
      by_cases hmodel : t = ids.messageModel
      · -- a header follows; a block there would stand after another one
        subst hmodel
        have hstep : step rt ids completionTokenIds st ids.messageModel =
            .ok ({ st with phase := .header }, false) := by
          simp [step, hst.ended, hphase]
        obtain ⟨st', hrun, hkeeps, herror⟩ := @ends_header rt ids completionTokenIds
          { st with phase := .header } hst.ended rfl hst.header rest (fun b r hb _ heq => by
            refine hrest { b with boundary := b.boundary + 1 } r ⟨hb.recipient, hb.payload⟩
              (.inr (Nat.le_add_left _ _)) ?_
            rw [heq]
            rfl)
        refine ⟨st', ?_,
          ⟨hkeeps.blocks, hkeeps.visibleParts, hkeeps.reasoningParts, hkeeps.toolCalls⟩, ?_⟩
        · rw [run_of_step _ rest hstep, hrun]
        · rw [herror]
          apply and_congr_right'
          constructor
          · rintro ⟨k, hk⟩
            exact ⟨k + 1, by rw [hk]; rfl⟩
          · rintro ⟨k, hk⟩
            cases k with
            | zero =>
              obtain ⟨hsampling, -⟩ := List.cons.inj hk
              exact absurd hsampling (endings_ne ids).2.1
            | succ k => exact ⟨k, (List.cons.inj hk).2⟩
      · -- the sampling ends here; whatever follows is an error
        by_cases hsampling : t = ids.endSampling
        · subst hsampling
          have hstep : step rt ids completionTokenIds st ids.endSampling =
              .ok ({ st with ended := true }, false) := by
            simp [step, hst.ended, hphase, hmodel]
          cases rest with
          | nil =>
            refine ⟨{ st with ended := true }, by rw [run_of_step _ _ hstep]; rfl, ?_, ?_⟩
            · exact Keeps.finish ⟨rfl, rfl, rfl, rfl⟩
            · have hfinish : (finish { st with ended := true }).error = st.error := by
                simp [finish, hphase]
              rw [hfinish]
              exact ⟨fun h => ⟨h, 0, rfl⟩, fun h => h.1⟩
          | cons t' v =>
            have hstop : step rt ids completionTokenIds { st with ended := true } t' =
                .ok (ParseState.fail { st with ended := true } .tokensAfterEndSampling, true) := rfl
            have hrun := @run_of_step rt ids completionTokenIds st _ _ (t' :: v) hstep
            rw [run_of_stop v hstop] at hrun
            refine ends_of_error hrun (Keeps.finish ⟨rfl, rfl, rfl, rfl⟩)
              (finish_error_of_error (fail_error _ _)) ?_
            rintro ⟨k, hk⟩
            cases k with
            | zero => cases (List.cons.inj hk).2
            | succ k => exact hmodel (List.cons.inj hk).1
        · have hstop : step rt ids completionTokenIds st t =
              .ok (st.fail .missingMessageModelBoundary, true) := by
            simp [step, hst.ended, hphase, hmodel, hsampling]
          refine ends_of_error (run_of_stop rest hstop) (Keeps.finish ⟨rfl, rfl, rfl, rfl⟩)
            (finish_error_of_error (fail_error _ _)) fun hending => ?_
          exact (hending.mem.2 t List.mem_cons_self).elim hmodel hsampling

end Run

/-! ### The blocks of a completion -/

/-- The blocks closed before the first framing error: every sequence of blocks at the front is a
    part of them. -/
structure ClosedBlocks (ids : ControlIds) (tokens : List TokenId) (bs : List RawBlock) : Prop where
  framing : Framing ids true bs
  front : ∃ rest, tokens = blockTokens ids bs ++ rest
  longest : ∀ bs' rest', Framing ids true bs' → tokens = blockTokens ids bs' ++ rest' → bs' <+: bs

variable {ids : ControlIds}

theorem blockTokens_cons (b : RawBlock) (bs : List RawBlock) (rest : List TokenId) :
    blockTokens ids (b :: bs) ++ rest = b.tokens ids ++ (blockTokens ids bs ++ rest) := by
  simp [blockTokens]

/-- A block has a token. -/
theorem length_tokens_pos (b : RawBlock) : 0 < (b.tokens ids).length := by
  simp only [RawBlock.tokens, List.length_append, List.length_singleton]
  omega

/-- Every completion starts with blocks, and what follows starts with no other. -/
theorem exists_blocks (tokens : List TokenId) (first : Bool) :
    ∃ bs rest, Framing ids first bs ∧ tokens = blockTokens ids bs ++ rest ∧
      NoBlock ids (first && bs.isEmpty) rest := by
  induction hn : tokens.length using Nat.strong_induction_on generalizing tokens first with
  | _ n ih =>
    by_cases h : NoBlock ids first tokens
    · exact ⟨[], tokens, trivial, rfl, by simpa using h⟩
    · simp only [NoBlock, not_forall, not_not] at h
      obtain ⟨b, r, hb, hplaced, htokens⟩ := h
      have hlt : r.length < n := by
        have hpos := @length_tokens_pos ids b
        rw [← hn, htokens, List.length_append]
        omega
      obtain ⟨bs, rest, hbs, hr, hrest⟩ := ih r.length hlt r false rfl
      refine ⟨b :: bs, rest, ⟨hb, hplaced, hbs⟩, ?_, by simpa using hrest⟩
      rw [blockTokens_cons, htokens, hr]

/-- Blocks at the front are a part of the blocks that nothing else continues. -/
theorem framing_unique {first : Bool} {bs bs' : List RawBlock} {rest rest' : List TokenId}
    (hbs : Framing ids first bs) (hbs' : Framing ids first bs')
    (hrest : NoBlock ids (first && bs.isEmpty) rest)
    (h : blockTokens ids bs ++ rest = blockTokens ids bs' ++ rest') : bs' <+: bs := by
  induction bs' generalizing bs first with
  | nil => exact List.nil_prefix
  | cons b' bs' ih =>
    rw [blockTokens_cons] at h
    cases bs with
    | nil =>
      rw [List.isEmpty_nil, Bool.and_true] at hrest
      exact absurd h (hrest b' _ hbs'.1 hbs'.2.1)
    | cons b bs =>
      rw [blockTokens_cons] at h
      obtain ⟨rfl, htail⟩ := RawBlock.tokens_inj hbs.1 hbs'.1 h
      rw [List.isEmpty_cons, Bool.and_false] at hrest
      exact List.prefix_cons_inj b |>.mpr (ih hbs.2.2 hbs'.2.2 (by simpa using hrest) htail)

theorem closedBlocks_of_noBlock {bs : List RawBlock} {rest : List TokenId}
    (hbs : Framing ids true bs) (hrest : NoBlock ids (true && bs.isEmpty) rest) :
    ClosedBlocks ids (blockTokens ids bs ++ rest) bs where
  framing := hbs
  front := ⟨rest, rfl⟩
  longest _ _ hbs' h := framing_unique hbs hbs' hrest h

/-- The blocks closed before the first framing error are determined by the tokens. -/
theorem closed_unique {tokens : List TokenId} {bs bs' : List RawBlock}
    (h : ClosedBlocks ids tokens bs) (h' : ClosedBlocks ids tokens bs') : bs = bs' := by
  obtain ⟨rest, hrest⟩ := h.front
  obtain ⟨rest', hrest'⟩ := h'.front
  have hle := h.longest bs' rest' h'.framing hrest'
  have hge := h'.longest bs rest h.framing hrest
  exact hge.eq_of_length (Nat.le_antisymm hge.length_le hle.length_le)

/-- A completion without a fault: valid blocks, and the end of sampling. -/
def WellFormed (rt : Runtime) (ids : ControlIds) (tokens : List TokenId) : Prop :=
  ∃ bs rest, Framing ids true bs ∧ (∀ b ∈ bs, b.Valid rt) ∧ Ending ids rest ∧
    tokens = blockTokens ids bs ++ rest

/-- What `parse` returns for the closed blocks of a completion. -/
structure Projects (rt : Runtime) (ids : ControlIds) (tokens : List TokenId) (bs : List RawBlock)
    (result : ParsedAssistantCompletion) : Prop where
  error : result.parseError = none ↔ WellFormed rt ids tokens
  stored : result.storedMessage.toClientMessage = result.clientMessage
  blocks : result.storedMessage.contentBlocks = bs.filterMap (·.content rt)
  content : result.clientMessage.content = String.join (bs.filterMap (·.visible rt))
  reasoning : result.clientMessage.reasoningContent =
    if bs.filterMap (·.reasoning rt) = [] then none
    else some (String.join (bs.filterMap (·.reasoning rt)))
  toolCalls : result.clientMessage.toolCalls =
    if result.parseError = none ∧ bs.filterMap (·.call rt) ≠ [] then
      some (toolCallsFrom rt tokens 0 (bs.filterMap (·.call rt)))
    else none

/-- `json.loads` raises nothing but a decode error on the payloads of the closed tool calls, and
    there are at most `2 ^ 32` of them. -/
def Handled (rt : Runtime) (ids : ControlIds) (tokens : List TokenId) : Prop :=
  ∀ bs, ClosedBlocks ids tokens bs → (∀ b ∈ bs, b.escape rt = none) ∧
    (bs.filterMap (·.call rt)).length ≤ 2 ^ 32

/-- The end of a completion is not a block. -/
theorem noBlock_of_ending {first : Bool} {rest : List TokenId} (h : Ending ids rest) :
    NoBlock ids first rest := by
  intro b r hb _ heq
  have hin := h.mem.2 (ids.marker b.kind) (by
    rw [heq]
    simp [RawBlock.tokens])
  exact hin.elim (marker_ne ids b.kind).1 (marker_ne ids b.kind).2.2

theorem atBoundary_start : AtBoundary .start true where
  ended := rfl
  header := rfl
  phase := rfl

/-- `parse` when the blocks of the completion can be closed. -/
theorem parse_closed {tokens rest : List TokenId} {bs : List RawBlock}
    (hbs : Framing ids true bs) (htokens : tokens = blockTokens ids bs ++ rest)
    (hrest : NoBlock ids (true && bs.isEmpty) rest)
    (hclose : closeAll rt tokens .start bs = .ok (ParseState.start.afterAll rt tokens bs)) :
    ∃ result, parse rt ids tokens = .ok result ∧ Projects rt ids tokens bs result := by
  have hst := @atBoundary_afterAll rt tokens .start true atBoundary_start bs
  obtain ⟨st, hrun, hkeeps, herror⟩ := @run_tail rt ids tokens _ _ hst rest hrest
  obtain ⟨hblocks, hvisible, hreasoning, hcalls, hvalid⟩ :=
    @afterAll_fields rt tokens .start bs
  have hloop : run rt ids tokens tokens .start = .ok st := by
    have h := @run_blocks rt ids tokens .start true atBoundary_start bs hbs rest
    rw [← htokens, hclose, Except.ok_bind, hrun] at h
    exact h
  have hwellFormed : (finish st).error = none ↔ WellFormed rt ids tokens := by
    rw [herror, hvalid]
    constructor
    · rintro ⟨⟨_, hall⟩, hending⟩
      exact ⟨bs, rest, hbs, hall, hending, htokens⟩
    · rintro ⟨bs', rest', hbs', hall, hending, htokens'⟩
      have hsame : bs' = bs := by
        have hclosed := closedBlocks_of_noBlock hbs hrest
        have hclosed' := closedBlocks_of_noBlock hbs' (noBlock_of_ending hending)
        rw [← htokens] at hclosed
        rw [← htokens'] at hclosed'
        exact closed_unique hclosed' hclosed
      subst hsame
      rw [htokens] at htokens'
      exact ⟨⟨rfl, hall⟩, List.append_cancel_left htokens' ▸ hending⟩
  have hcallsEmpty : (finish st).toolCalls =
      toolCallsFrom rt tokens 0 (bs.filterMap (·.call rt)) := by
    rw [hkeeps.toolCalls, hcalls]
    rfl
  have hparseError : ∀ e : Option ParseFailure, e.map ParseFailure.text = none ↔ e = none := by
    intro e
    cases e <;> simp
  refine ⟨_, by rw [parse, hloop, Except.ok_bind]; rfl, ?_⟩
  constructor
  case error =>
    show (finish st).error.map ParseFailure.text = none ↔ _
    rw [hparseError, hwellFormed]
  case stored => rfl
  case blocks => exact hkeeps.blocks.trans hblocks
  case content =>
    show String.join (finish st).visibleParts = _
    rw [hkeeps.visibleParts, hvisible]
    rfl
  case reasoning =>
    have hparts : (finish st).reasoningParts = bs.filterMap (·.reasoning rt) :=
      hkeeps.reasoningParts.trans hreasoning
    show (if (finish st).reasoningParts ≠ [] then some (String.join (finish st).reasoningParts)
      else none) = _
    rw [hparts, ite_not]
  case toolCalls =>
    have hempty : toolCallsFrom rt tokens 0 (bs.filterMap (·.call rt)) ≠ [] ↔
        bs.filterMap (·.call rt) ≠ [] := by
      rw [← List.length_pos_iff, ← List.length_pos_iff, length_toolCallsFrom]
    show (if (finish st).toolCalls ≠ [] ∧ (finish st).error = none then
      some (finish st).toolCalls else none) = if (finish st).error.map ParseFailure.text = none ∧ _
      then _ else _
    simp only [hcallsEmpty, hempty, hparseError, and_comm]

/-- `parse` returns the decoded blocks that are closed before the first framing error, with an
    error exactly when the completion is not well formed, if and only if `json.loads` raises
    nothing but a decode error on the payloads of the closed tool calls and these have indices
    of four bytes. -/
theorem parse_projects_iff (rt : Runtime) (ids : ControlIds) (tokens : List TokenId) :
    (∃ result bs, parse rt ids tokens = .ok result ∧ ClosedBlocks ids tokens bs ∧
      Projects rt ids tokens bs result) ↔ Handled rt ids tokens := by
  obtain ⟨bs, rest, hbs, htokens, hrest⟩ := @exists_blocks ids tokens true
  have hclosed : ClosedBlocks ids tokens bs := htokens ▸ closedBlocks_of_noBlock hbs hrest
  have hstart : ParseState.start.toolCalls.length ≤ 2 ^ 32 := Nat.zero_le _
  obtain ⟨hcloses, hescapes⟩ := @closeAll_eq_ok rt tokens .start hstart bs
  rw [show ParseState.start.toolCalls.length = 0 from rfl, Nat.zero_add] at hcloses hescapes
  constructor
  · rintro ⟨result, _, hparse, _, _⟩ bs' hbs'
    rw [closed_unique hbs' hclosed]
    obtain ⟨st, hloop, -⟩ := Except.bind_eq_ok.mp hparse
    have h := @run_blocks rt ids tokens .start true atBoundary_start bs hbs rest
    rw [← htokens, hloop] at h
    obtain ⟨st', hclose, -⟩ := Except.bind_eq_ok.mp h.symm
    exact hescapes st' hclose
  · intro hhandled
    obtain ⟨result, hparse, hprojects⟩ :=
      parse_closed hbs htokens hrest (hcloses (hhandled bs hclosed))
    exact ⟨result, bs, hparse, hclosed, hprojects⟩

/-- Control tokens from 1 to 7. -/
def sevenIds : ControlIds where
  messageModel := 1
  contentThinking := 2
  contentText := 3
  contentInvokeToolJson := 4
  contentInvokeToolText := 5
  endMessage := 6
  endSampling := 7
  allSpecialIds := []
  distinct := by decide

/-- An exception of `json.loads` leaves the parser. -/
theorem parse_raises {text : String} (hdecode : rt.decode [100#32] = text)
    (hloads : rt.loads text = .error .value) :
    parse rt sevenIds [4, 100, 6, 7] = .error (.loads .value) := by
  simp [parse, run, step, sevenIds, ControlIds.markerKind, ControlIds.controlIds,
    ParseState.start, closeBlock, closeToolJson, loadPayload, hdecode, hloads, bind, Except.bind]

/-- A call with an integer of 4301 digits, more than `json.loads` converts. -/
def longInteger : String :=
  "\x7b\"name\":\"f\",\"args\":\x7b\"n\":" ++ String.ofList (List.replicate 4301 '1') ++ "\x7d\x7d"

/-- A tokenizer with one token for a text, on which `json.loads` raises a `ValueError`. -/
def refusedRuntime (refused : String) : Runtime where
  decode tokens := if tokens = [100#32] then refused else ""
  loads text := if text = refused then .error .value else .error .jsonDecode
  dumps _ := ""
  sha256 _ := ""

theorem refusedRuntime_spec (refused : String) :
    (refusedRuntime refused).decode [100#32] = refused ∧
    (refusedRuntime refused).loads refused = .error .value := by
  simp [refusedRuntime]

/-- So does the `ValueError` for that integer. -/
theorem parse_raises_longInteger :
    parse (refusedRuntime longInteger) sevenIds [4, 100, 6, 7] = .error (.loads .value) :=
  parse_raises (refusedRuntime_spec longInteger).1 (refusedRuntime_spec longInteger).2

end Miles.InklingParser
