import Miles.Native.Session.Core

/-!
# The v2 trajectory tree

Model of `miles/rollout/session/v2/tree_trajectory.py` and of
`miles/rollout/session/v2/session_state.py`: the forest of committed generations, the search for
the node that a request continues, the commit under it and the snapshot for collection.

Node objects live in a heap and refer to each other by their position in it, so that a snapshot
shares no object with the live tree, or does.  The wall clock and the response id of a node, which
only logs and clients read, are left out.
-/

namespace Miles.Session.V2

variable {Msg Args : Type}

/-- `MAX_NODES` -/
def maxNodes : Nat := 1024

/-- `TrajectoryNode`: the end of one generation. -/
structure TrajectoryNode (Msg Args : Type) where
  deltaMessages : List Msg
  /-- the snapshot of the whole path -/
  tokenIds : List Nat
  completionSpan : Nat × Nat
  seq : Nat
  record : SessionRecord Msg Args
  finishReason : FinishReason
  turnArgs : RequestBody Msg Args
  parent : Option Nat := none
  children : List Nat := []
  deriving DecidableEq, Repr

/-- `truncated` -/
def TrajectoryNode.truncated (node : TrajectoryNode Msg Args) : Bool :=
  node.finishReason = .length

/-- The node objects ever created, by address. -/
abbrev Heap (Msg Args : Type) := List (TrajectoryNode Msg Args)

/-- `SessionTree`, with the addresses of its nodes. -/
structure SessionTree where
  roots : List Nat := []
  /-- in the order of creation -/
  nodes : List Nat := []
  deriving DecidableEq, Repr

namespace Heap

/-- The walk of `path_nodes` along the parent pointers, for at most `fuel` nodes. -/
def climb (heap : Heap Msg Args) : Nat → Option Nat → List Nat
  | 0, _ => []
  | _, none => []
  | fuel + 1, some a =>
    match heap[a]? with
    | none => []
    | some node => a :: climb heap fuel node.parent

/-- `path_nodes`: from the root to the node. -/
def pathNodes (heap : Heap Msg Args) (a : Nat) : List Nat :=
  (heap.climb heap.length (some a)).reverse

/-- The messages that one node adds. -/
def deltaMessages (heap : Heap Msg Args) (a : Nat) : List Msg :=
  (heap[a]?.map TrajectoryNode.deltaMessages).getD []

/-- `path_messages` -/
def pathMessages (heap : Heap Msg Args) (a : Nat) : List Msg :=
  (heap.pathNodes a).flatMap heap.deltaMessages

/-- `seq` of the node at an address. -/
def seq (heap : Heap Msg Args) (a : Nat) : Nat := (heap[a]?.map TrajectoryNode.seq).getD 0

/-- `parent.children.append(child)` -/
def appendChild (heap : Heap Msg Args) (parent child : Nat) : Heap Msg Args :=
  heap.modify parent fun node => { node with children := node.children ++ [child] }

end Heap

namespace SessionTree

/-- `leaves` -/
def leaves (tree : SessionTree) (heap : Heap Msg Args) : List Nat :=
  tree.nodes.filter fun a => (heap[a]?).all fun node => node.children.isEmpty

/-- Register a new node at the end of the heap with the tree and with its parent. -/
def adopt (heap : Heap Msg Args) (tree : SessionTree) (node : TrajectoryNode Msg Args) :
    Heap Msg Args × SessionTree :=
  let a := heap.length
  let tree := { tree with nodes := tree.nodes ++ [a] }
  match node.parent with
  | none => (heap ++ [node], { tree with roots := tree.roots ++ [a] })
  | some parent => (Heap.appendChild (heap ++ [node]) parent a, tree)

/-- `create_node`; the fields that the caller gives come as `node`. -/
def createNode (heap : Heap Msg Args) (tree : SessionTree) (parent : Option Nat)
    (node : TrajectoryNode Msg Args) : Except SessionError (Heap Msg Args × SessionTree) :=
  if maxNodes ≤ tree.nodes.length then .error (.other "node cap reached")
  else .ok (adopt heap tree { node with seq := tree.nodes.length, parent, children := [] })

/-- `snapshot`: copies of the nodes, with fresh children lists. -/
def snapshot (heap : Heap Msg Args) (tree : SessionTree) :
    Option (Heap Msg Args × SessionTree) :=
  tree.nodes.foldlM (fun (heap, copy) a => do
    let node ← heap[a]?
    let parent ← node.parent.elim (some none) fun p => (copy.nodes[heap.seq p]?).map some
    return adopt heap copy { node with parent, children := [] }) (heap, {})

/-! ## The attach point -/

/-- The variables of the search. -/
structure Search where
  best : Option Nat := none
  bestMatched : Int := -1
  bestOverlap : Nat := 0
  deriving DecidableEq, Repr

/-- The candidate `a` with `matched` messages replaces the best one so far. -/
def Search.better (heap : Heap Msg Args) (search : Search) (a matched : Nat) : Bool :=
  search.bestMatched < matched ∨
    search.bestMatched = matched ∧ search.best.any fun best => heap.seq best < heap.seq a

/-- The loop of `find_attach_point`, for at most `fuel` rounds.  The head of `stack` is its top. -/
def searchLoop (heap : Heap Msg Args) (matcher : Msg → Msg → Except SessionError Bool)
    (requestMessages : List Msg) : Nat → List (Nat × Nat) → Search → Except SessionError Search
  | 0, _, search => .ok search
  | _, [], search => .ok search
  | fuel + 1, (a, offset) :: stack, search => do
    let delta := heap.deltaMessages a
    let i ← matchLen matcher delta (requestMessages.drop offset)
    let search := { search with bestOverlap := max search.bestOverlap (offset + i) }
    if i < delta.length then
      -- neither this node nor its subtree is a candidate
      searchLoop heap matcher requestMessages fuel stack search
    else
      let matched := offset + delta.length
      let search :=
        if search.better heap a matched then { search with best := some a, bestMatched := matched }
        else search
      let children := (heap[a]?.map TrajectoryNode.children).getD []
      searchLoop heap matcher requestMessages fuel (children.map (·, matched) ++ stack) search

/-- `AttachPoint` -/
structure AttachPoint where
  node : Option Nat
  matchedMessages : Nat
  bestOverlap : Nat
  deriving DecidableEq, Repr

/-- `find_attach_point`; every round visits another node, so `tree.nodes.length` rounds do. -/
def findAttachPoint (heap : Heap Msg Args) (tree : SessionTree)
    (matcher : Msg → Msg → Except SessionError Bool) (requestMessages : List Msg) :
    Except SessionError AttachPoint := do
  let search ← searchLoop heap matcher requestMessages tree.nodes.length (tree.roots.map (·, 0)) {}
  match search.best with
  | none => return { node := none, matchedMessages := 0, bestOverlap := search.bestOverlap }
  | some a =>
    return { node := some a, matchedMessages := search.bestMatched.toNat,
             bestOverlap := search.bestOverlap }

end SessionTree

/-! ## Serving -/

/-- `attach_point_for_request` -/
def attachPointForRequest (cfg : Config Msg Args) (heap : Heap Msg Args) (tree : SessionTree)
    (requestMessages : List Msg) : Except SessionError SessionTree.AttachPoint := do
  let attach ← tree.findAttachPoint heap cfg.matcher requestMessages
  if attach.node.any fun a => (heap[a]?).any TrajectoryNode.truncated then
    throw (.other "truncated generation cannot be extended")
  return attach

/-- `_render_token_ids` -/
def renderTokenIds (cfg : Config Msg Args) (heap : Heap Msg Args) (parent : Option Nat)
    (requestMessages : List Msg) (templateArgs : Args) : Except SessionError (List Nat) :=
  match parent with
  | none => cfg.tokenizer.applyChatTemplate requestMessages templateArgs
  | some a => do
    let stored := heap.pathMessages a
    let suffix := requestMessages.drop stored.length
    -- `_validate_suffix_roles`
    if suffix.any (!cfg.tokenizer.allowedAppendRole ·) then
      throw (.messageValidation "appended message role not allowed")
    cfg.tokenizer.mergeTokens stored (stored ++ suffix)
      ((heap[a]?.map TrajectoryNode.tokenIds).getD []) templateArgs

/-- `prepare_token_ids_and_request_args`: the prepared request and the node it continues. -/
def prepareTokenIdsAndRequestArgs (cfg : Config Msg Args) (heap : Heap Msg Args)
    (tree : SessionTree) (client : ClientArgs Msg Args) :
    Except SessionError (RequestBody Msg Args × Option Nat) := do
  let attach ← attachPointForRequest cfg heap tree client.messages
  let turnArgs := attach.node.bind fun a => heap[a]?.map TrajectoryNode.turnArgs
  let body ← cfg.prepareChatRequest client turnArgs
  let inputIds ← renderTokenIds cfg heap attach.node client.messages body.args
  return ({ body with inputIds }, attach.node)

/-- `commit_generation`, with the record and the resolved request of the generation. -/
def commitGeneration (cfg : Config Msg Args) (heap : Heap Msg Args) (tree : SessionTree)
    (parent : Option Nat) (record : SessionRecord Msg Args) (finishReason : FinishReason) :
    Except SessionError (Heap Msg Args × SessionTree) := do
  let body := record.request
  let allTokenIds := body.inputIds ++ record.completionTokenIds
  let parentTokenIds := (parent.bind fun a => heap[a]?.map TrajectoryNode.tokenIds).getD []
  assertPretokenizedPrefix parentTokenIds allTokenIds cfg.tokenizer.maxTrimTokens
  let parentMessages := parent.elim [] heap.pathMessages
  tree.createNode heap parent
    { deltaMessages := body.messages.drop parentMessages.length ++ [record.assistantMessage]
      tokenIds := allTokenIds
      completionSpan := (body.inputIds.length, allTokenIds.length)
      seq := 0
      record
      finishReason
      turnArgs := body }

/-- `latest` -/
def latest (tree : SessionTree) : Option Nat := tree.nodes.getLast?

/-! ## Interleavings -/

/-- A request between its phase 1 and the end of its proxy call. -/
structure InFlight (Msg Args : Type) where
  requestId : Nat
  body : RequestBody Msg Args
  parent : Option Nat
  deriving DecidableEq, Repr

/-- One v2 session of the server with its requests in flight and the snapshots taken of it. -/
structure SessionWorld (Msg Args : Type) where
  heap : Heap Msg Args := []
  tree : SessionTree := {}
  closing : Bool := false
  registered : Bool := true
  inFlight : List (InFlight Msg Args) := []
  started : List Nat := []
  snapshots : List SessionTree := []
  deriving DecidableEq, Repr

/-- What can happen to a session. -/
inductive Event (Msg Args : Type) where
  /-- a chat request runs its phase 1 -/
  | chat (requestId : Nat) (client : ClientArgs Msg Args)
  /-- the backend answers a request, which then runs its phase 3 -/
  | answer (requestId : Nat) (result : ProxyResult Msg)
  /-- a request's handler is cancelled while it is proxied -/
  | cancel (requestId : Nat)
  /-- a sample collection takes its snapshot -/
  | collect
  /-- a DELETE marks the session as closing -/
  | delete
  /-- that DELETE got the lock and drops the session -/
  | remove
  deriving DecidableEq, Repr

namespace SessionWorld

/-- Phase 1 of `chat_completions` under the lock. -/
def prepareRequest (cfg : Config Msg Args) (w : SessionWorld Msg Args)
    (client : ClientArgs Msg Args) : Except SessionError (RequestBody Msg Args × Option Nat) := do
  if w.closing then
    throw .sessionNotFound
  let (body, parent) ← prepareTokenIdsAndRequestArgs cfg w.heap w.tree client
  let checkpointTokenIds := (parent.bind fun a => w.heap[a]?.map TrajectoryNode.tokenIds).getD []
  let body ← maybeRequestAdditionR3 cfg.useAdditionR3 body checkpointTokenIds body.inputIds
  return (body, parent)

/-- Phases 2 and 3 of `chat_completions`: the heap and the tree after a commit, if there is one. -/
def finishRequest (cfg : Config Msg Args) (w : SessionWorld Msg Args) (r : InFlight Msg Args)
    (result : ProxyResult Msg) : Except SessionError (Option (Heap Msg Args × SessionTree)) := do
  if result.statusCode ≠ 200 then
    return none
  let (message, completionTokenIds) ← extractCompletion result
  let assistantMessage := cfg.tokenizer.postprocessCompletion message completionTokenIds
  if w.closing then
    return none
  let record : SessionRecord Msg Args :=
    { requestId := r.requestId, request := r.body, assistantMessage, completionTokenIds }
  some <$> commitGeneration cfg w.heap w.tree r.parent record result.choice.finishReason

/-- The request in flight with this id. -/
def find (w : SessionWorld Msg Args) (requestId : Nat) : Option (InFlight Msg Args) :=
  w.inFlight.find? (·.requestId = requestId)

/-- The requests in flight other than this one. -/
def others (w : SessionWorld Msg Args) (requestId : Nat) : List (InFlight Msg Args) :=
  w.inFlight.filter (·.requestId ≠ requestId)

/-- A chat request comes in and runs its phase 1, which changes no node. -/
def chat (cfg : Config Msg Args) (w : SessionWorld Msg Args) (requestId : Nat)
    (client : ClientArgs Msg Args) : SessionWorld Msg Args :=
  let w := { w with started := requestId :: w.started }
  if w.registered then
    match w.prepareRequest cfg client with
    | .error _ => w
    | .ok (body, parent) => { w with inFlight := { requestId, body, parent } :: w.inFlight }
  else w

/-- The proxy call of a request ends and the request runs its phase 3. -/
def answer (cfg : Config Msg Args) (w : SessionWorld Msg Args) (r : InFlight Msg Args)
    (result : ProxyResult Msg) : SessionWorld Msg Args :=
  let rest := { w with inFlight := w.others r.requestId }
  match w.finishRequest cfg r result with
  | .ok (some (heap, tree)) => { rest with heap, tree }
  | _ => rest

/-- One event; `none` when it cannot happen. -/
def step (cfg : Config Msg Args) (w : SessionWorld Msg Args) :
    Event Msg Args → Option (SessionWorld Msg Args)
  | .chat requestId client =>
    if requestId ∈ w.started then none else some (w.chat cfg requestId client)
  | .answer requestId result => (w.find requestId).map fun r => w.answer cfg r result
  | .cancel requestId =>
    (w.find requestId).map fun r => { w with inFlight := w.others r.requestId }
  | .collect =>
    if w.registered ∧ ¬ w.closing then
      (w.tree.snapshot w.heap).map fun (heap, copy) =>
        { w with heap, snapshots := w.snapshots ++ [copy] }
    else none
  | .delete => if w.registered ∧ ¬ w.closing then some { w with closing := true } else none
  | .remove => if w.registered ∧ w.closing then some { w with registered := false } else none

end SessionWorld

end Miles.Session.V2
