import Miles.ForStd.PyDict
import Miles.Native.Session.SampleAssembly
import Miles.Native.Session.TreeTrajectory

/-!
# Leaf samples of a v2 session

Model of `miles/rollout/session/v2/utils.py` and of the hooks in `v2/picker_hub`: one sample for
each leaf of the forest, and the leaves that a picker keeps.

Which replay arrays a response brings is a function of its record.  Wall clocks, response ids, the
mismatch report and the agent's metadata are left out: the hooks log them or pass them on.
-/

namespace Miles.Session.V2

variable {Msg Args : Type}

/-! ## Metadata -/

/-- A row of `tree["nodes"]`. -/
structure NodeRow where
  id : Nat
  parent : Option Nat
  completionSpan : Nat × Nat
  numTokens : Nat
  deriving DecidableEq, Repr

/-- A row of `tree["leaves"]`. -/
structure LeafRow where
  nodeId : Nat
  pathNodeIds : List Nat
  deriving DecidableEq, Repr

/-- `session_metadata["tree"]` -/
structure TreeMetadata where
  nodes : List NodeRow
  leaves : List LeafRow
  deriving DecidableEq, Repr

/-- The row of a node. -/
def nodeRow (heap : Heap Msg Args) (a : Nat) : NodeRow where
  id := heap.seq a
  parent := (heap[a]?.bind TrajectoryNode.parent).map heap.seq
  completionSpan := (heap[a]?.map TrajectoryNode.completionSpan).getD (0, 0)
  numTokens := (heap[a]?.elim [] TrajectoryNode.tokenIds).length

/-- The seqs on the path to a node. -/
def pathNodeIds (heap : Heap Msg Args) (a : Nat) : List Nat := (heap.pathNodes a).map heap.seq

/-- `tree_metadata` -/
def treeMetadata (heap : Heap Msg Args) (tree : SessionTree) : TreeMetadata where
  nodes := tree.nodes.map (nodeRow heap)
  leaves := (tree.leaves heap).map fun a => ⟨heap.seq a, pathNodeIds heap a⟩

/-! ## Samples of the leaves -/

/-- `metadata["leaf"]` of a sample. -/
structure LeafDescriptor where
  nodeId : Nat
  parent : Option Nat
  pathNodeIds : List Nat
  deriving DecidableEq, Repr

/-- A sample with the keys of its metadata that the hooks read. -/
structure LeafSample where
  sample : Sample
  accumulatedTokenIds : List Nat
  leaf : LeafDescriptor
  deriving DecidableEq, Repr

/-- What the assembly reads of a node's record. -/
def nodeTurn (replayOf : SessionRecord Msg Args → Replay) (node : TrajectoryNode Msg Args) :
    Turn where
  inputIds := node.record.request.inputIds
  outputIds := node.record.completionTokenIds
  finishReason := node.finishReason
  replay := replayOf node.record

/-- The turns on the path to a node. -/
def pathTurns (replayOf : SessionRecord Msg Args → Replay) (heap : Heap Msg Args) (a : Nat) :
    List Turn :=
  (heap.pathNodes a).filterMap fun b => heap[b]?.map (nodeTurn replayOf)

/-- The turns within the token budget, if there is one. -/
def withinBudget (maxSeqLen : Option Int) (turns : List Sample) :
    Except AssemblyError (List Sample) :=
  maxSeqLen.elim (.ok turns) (truncateSamplesByTotalTokens turns)

/-- One round of the loop of `build_leaf_material`; `none` when every turn truncates away. -/
def leafSample (replayOf : SessionRecord Msg Args → Replay) (maxTrimTokens : Nat)
    (maxSeqLen : Option Int) (heap : Heap Msg Args) (a : Nat) :
    Except AssemblyError (Option LeafSample) := do
  let accumulatedTokenIds := heap[a]?.elim [] TrajectoryNode.tokenIds
  let turns ← computeSamplesFromOpenaiRecords (pathTurns replayOf heap a) accumulatedTokenIds
    maxTrimTokens
  let turns ← withinBudget maxSeqLen turns
  match mergeSamples turns with
  | none => return none
  | some merged =>
    let sample ← merged
    return some
      { sample
        accumulatedTokenIds
        leaf :=
          { nodeId := heap.seq a
            parent := (heap[a]?.bind TrajectoryNode.parent).map heap.seq
            pathNodeIds := pathNodeIds heap a } }

/-- `build_leaf_material` -/
def buildLeafMaterial (replayOf : SessionRecord Msg Args → Replay) (maxTrimTokens : Nat)
    (maxSeqLen : Option Int) (heap : Heap Msg Args) (tree : SessionTree) :
    Except AssemblyError (List LeafSample) := do
  let samples ← (tree.leaves heap).mapM (leafSample replayOf maxTrimTokens maxSeqLen heap)
  return samples.filterMap id

/-! ## Picking -/

/-- The exceptions of the hooks. -/
inductive HookError where
  | keyError
  /-- `max()` of no values -/
  | emptyMax
  deriving DecidableEq, Repr

/-- `nodes`: the rows by id. -/
def nodesById (tree : TreeMetadata) : PyDict Nat NodeRow :=
  .ofList (tree.nodes.map fun row => (row.id, row))

/-- `nodes[node_id]` -/
def nodeById (tree : TreeMetadata) (nodeId : Nat) : Except HookError NodeRow :=
  ((nodesById tree).get? nodeId).elim (.error .keyError) .ok

/-- `children[parent]`; a parent that no row names is no key. -/
def childrenOf (tree : TreeMetadata) (parent : Option Nat) : Except HookError (List Nat) :=
  let ids := (tree.nodes.filter (·.parent = parent)).map NodeRow.id
  if ids = [] then .error .keyError else .ok ids

/-- The first leaf sample whose path covers a node. -/
def coveringSample (leafSamples : List LeafSample) (nodeId : Nat) : Option LeafSample :=
  leafSamples.find? fun s => nodeId ∈ s.leaf.pathNodeIds

/-- `_same_prompt` -/
def samePrompt (tree : TreeMetadata) (leafSamples : List LeafSample) (sample : LeafSample)
    (nodeId : Nat) : Except HookError Bool := do
  let promptLen := (← nodeById tree sample.leaf.nodeId).completionSpan.1
  if (← nodeById tree nodeId).completionSpan.1 ≠ promptLen then
    return false
  match coveringSample leafSamples nodeId with
  | none => return false
  | some covering =>
    return covering.accumulatedTokenIds.take promptLen = sample.accumulatedTokenIds.take promptLen

/-- A comprehension `[x for x in xs if test(x)]` whose test may raise. -/
def filterRaising {α : Type} (test : α → Except HookError Bool) : List α → Except HookError (List α)
  | [] => .ok []
  | x :: xs => do
    let keep ← test x
    let rest ← filterRaising test xs
    return if keep then x :: rest else rest

/-- `later`: the siblings that supersede the leaf of a sample. -/
def laterSiblings (siblingPromptMustMatch : Bool) (tree : TreeMetadata)
    (leafSamples : List LeafSample) (sample : LeafSample) : Except HookError (List Nat) := do
  let children ← childrenOf tree sample.leaf.parent
  let later := children.filter (sample.leaf.nodeId < ·)
  if sample.leaf.parent = none ∨ siblingPromptMustMatch then
    filterRaising (samePrompt tree leafSamples sample) later
  else return later

/-- `survivors_max`, which only a log line reads. -/
def survivorsMax (tree : TreeMetadata) (later : List Nat) : Except HookError Nat := do
  let rows := tree.leaves.filter fun row => later.any (· ∈ row.pathNodeIds)
  let numTokens ← rows.mapM fun row => NodeRow.numTokens <$> nodeById tree row.nodeId
  (numTokens.max?).elim (.error .emptyMax) .ok

/-- One round of the loop of `drop_rolled_back_leaves`: whether the sample is kept. -/
def keepsSample (siblingPromptMustMatch : Bool) (tree : TreeMetadata)
    (leafSamples : List LeafSample) (sample : LeafSample) : Except HookError Bool := do
  let later ← laterSiblings siblingPromptMustMatch tree leafSamples sample
  if later = [] then return true
  -- the lookups of the two log lines
  let _ ← later.mapM (nodeById tree)
  let _ ← nodeById tree sample.leaf.nodeId
  let _ ← survivorsMax tree later
  return false

/-- The order of `sorted(..., reverse=True)`: by path length, then by node id, both descending. -/
def pickedBefore (s t : LeafSample) : Bool :=
  t.leaf.pathNodeIds.length < s.leaf.pathNodeIds.length ∨
    t.leaf.pathNodeIds.length = s.leaf.pathNodeIds.length ∧ t.leaf.nodeId ≤ s.leaf.nodeId

/-- `drop_rolled_back_leaves` -/
def dropRolledBackLeaves (leafSamples : List LeafSample) (tree : TreeMetadata)
    (siblingPromptMustMatch : Bool) : Except HookError (List LeafSample) := do
  let kept ← filterRaising (keepsSample siblingPromptMustMatch tree leafSamples) leafSamples
  return kept.mergeSort pickedBefore

/-- `drop_same_prompt_retries` -/
def dropSamePromptRetries (leafSamples : List LeafSample) (tree : TreeMetadata) :
    Except HookError (List LeafSample) :=
  dropRolledBackLeaves leafSamples tree true

end Miles.Session.V2
