import Miles.Native.Session.LeafSamples
import Miles.Spec.Session.AttachPoint
import Miles.Spec.Session.ForestRuns
import Miles.Spec.Session.SampleLaws

/-!
# Picking the leaves that no later sibling supersedes

The picker decides on each leaf by the siblings of that leaf alone, whose own leaves may be
dropped in turn or may have no sample.  Following the latest child from the latest superseding
sibling ends at a leaf that nothing supersedes, so a dropped leaf always leaves one to keep, if that
leaf has a sample.  It has one where the first turn of a path survives the token budget on all paths
through one root or on none.
-/

namespace Miles.Session.V2

variable {Msg Args : Type}

open Except (bind_eq_ok)
open SessionTree

/-! ## Leaves -/

section Leaves

variable {heap : Heap Msg Args} {tree : SessionTree} {a b : Nat}

theorem mem_leaves (h : Shape heap tree) :
    a ∈ tree.leaves heap ↔ a ∈ tree.nodes ∧ ∀ c ∈ tree.nodes, heap.parentOf c ≠ some a := by
  unfold SessionTree.leaves
  rw [List.mem_filter]
  refine and_congr_right fun ha => ?_
  obtain ⟨node, hnode⟩ := h.node ha
  rw [hnode, Option.all_some, List.isEmpty_iff, h.children a ha node hnode, List.filter_eq_nil_iff]
  simp

/-- The only leaf below a leaf is that leaf. -/
theorem eq_of_mem_pathNodes_leaf (h : Shape heap tree) (hb : b ∈ tree.leaves heap)
    (ha : a ∈ tree.nodes) (hba : b ∈ heap.pathNodes a) : a = b := by
  by_contra hne
  obtain ⟨c, hc, hparent, -⟩ := h.exists_child ha hba (Ne.symm hne)
  exact ((mem_leaves h).mp hb).2 c hc hparent

/-- Below a node with leaves of some kind `P` there is one that no later sibling with such leaves
    comes after, or the node itself is the leaf. -/
theorem exists_last_leaf (h : Shape heap tree) {P : Nat → Prop} (hb : b ∈ tree.nodes)
    (hex : ∃ a ∈ tree.leaves heap, P a ∧ b ∈ heap.pathNodes a) :
    ∃ m ∈ tree.leaves heap, P m ∧ b ∈ heap.pathNodes m ∧
      (m = b ∨ heap.parentOf m ≠ none ∧ ∀ c ∈ tree.nodes, heap.parentOf c = heap.parentOf m →
        m < c → ∀ a ∈ tree.leaves heap, P a → c ∉ heap.pathNodes a) := by
  -- induction on the number of addresses after `b`: a child has a larger one
  induction hn : heap.length - b using Nat.strongRecOn generalizing b with
  | ind n ih =>
    obtain ⟨a, haleaf, hPa, hba⟩ := hex
    have ha := ((mem_leaves h).mp haleaf).1
    by_cases hab : a = b
    · subst hab
      exact ⟨a, haleaf, hPa, hba, .inl rfl⟩
    · -- the latest child with such a leaf below it
      classical
      let ends := fun c => heap.parentOf c = some b ∧
        ∃ x ∈ tree.leaves heap, P x ∧ c ∈ heap.pathNodes x
      have hnonempty : (tree.nodes.toFinset.filter ends).Nonempty := by
        obtain ⟨c, hc, hparent, hca⟩ := h.exists_child ha hba (Ne.symm hab)
        exact ⟨c, Finset.mem_filter.mpr
          ⟨List.mem_toFinset.mpr hc, hparent, a, haleaf, hPa, hca⟩⟩
      obtain ⟨c, hcmem, hmax⟩ := Finset.exists_max_image _ id hnonempty
      obtain ⟨hc, hparent, hbelow⟩ := Finset.mem_filter.mp hcmem
      have hc := List.mem_toFinset.mp hc
      have hlt : b < c := (h.parent c hc b hparent).2
      have hlength : c < heap.length := h.present c hc
      obtain ⟨m, hm, hPm, hcm, hlast⟩ := ih (heap.length - c) (by omega) hc hbelow rfl
      have hbc : b ∈ heap.pathNodes c :=
        (h.mem_pathNodes_iff hc).mpr (.inr ⟨b, hparent, h.mem_pathNodes_self hb⟩)
      refine ⟨m, hm, hPm, h.pathNodes_trans ((mem_leaves h).mp hm).1 hbc hcm, .inr ?_⟩
      rcases hlast with rfl | hlast
      · refine ⟨by rw [hparent]; simp, fun d hd hsibling hlater x hx hPx hdx => ?_⟩
        have hle := hmax d (Finset.mem_filter.mpr
          ⟨List.mem_toFinset.mpr hd, by rw [hsibling, hparent], x, hx, hPx, hdx⟩)
        simp only [id_eq] at hle
        omega
      · exact hlast

/-- Every node has a leaf below it. -/
theorem exists_leaf_below (h : Shape heap tree) (hb : b ∈ tree.nodes) :
    ∃ a ∈ tree.leaves heap, b ∈ heap.pathNodes a := by
  induction hn : heap.length - b using Nat.strongRecOn generalizing b with
  | ind n ih =>
    by_cases hleaf : b ∈ tree.leaves heap
    · exact ⟨b, hleaf, h.mem_pathNodes_self hb⟩
    · rw [mem_leaves h] at hleaf
      push Not at hleaf
      obtain ⟨c, hc, hparent⟩ := hleaf hb
      have hlt : b < c := (h.parent c hc b hparent).2
      have hlength : c < heap.length := h.present c hc
      obtain ⟨a, ha, hca⟩ := ih (heap.length - c) (by omega) hc rfl
      have hbc : b ∈ heap.pathNodes c :=
        (h.mem_pathNodes_iff hc).mpr (.inr ⟨b, hparent, h.mem_pathNodes_self hb⟩)
      exact ⟨a, ha, h.pathNodes_trans ((mem_leaves h).mp ha).1 hbc hca⟩

/-- A path starts at a root. -/
theorem pathNodes_root (h : Shape heap tree) (ha : a ∈ tree.nodes) :
    ∃ r rest, heap.pathNodes a = r :: rest ∧ r ∈ tree.nodes ∧ heap.parentOf r = none := by
  induction a using Nat.strongRecOn with
  | ind a ih =>
    rw [h.pathNodes_eq ha]
    cases hp : heap.parentOf a with
    | none => exact ⟨a, [], rfl, ha, hp⟩
    | some p =>
      obtain ⟨hpm, hlt⟩ := h.parent a ha p hp
      obtain ⟨r, rest, hpath, hr, hroot⟩ := ih p hlt hpm
      exact ⟨r, rest ++ [a], by rw [Option.elim_some, hpath]; rfl, hr, hroot⟩

/-- A path with a root on it starts there. -/
theorem pathNodes_head_of_root (h : Shape heap tree) (ha : a ∈ tree.nodes) {r : Nat}
    (hra : r ∈ heap.pathNodes a) (hroot : heap.parentOf r = none) :
    ∃ rest, heap.pathNodes a = r :: rest := by
  induction a using Nat.strongRecOn with
  | ind a ih =>
    rcases (h.mem_pathNodes_iff ha).mp hra with rfl | ⟨p, hp, hrp⟩
    · exact ⟨[], by rw [h.pathNodes_eq ha, hroot]; rfl⟩
    · obtain ⟨hpm, hlt⟩ := h.parent a ha p hp
      obtain ⟨rest, hpath⟩ := ih p hlt hpm hrp
      exact ⟨rest ++ [a], by rw [h.pathNodes_eq ha, hp, Option.elim_some, hpath]; rfl⟩

end Leaves

/-! ## Samples -/

section Samples

variable {replayOf : SessionRecord Msg Args → Replay} {maxTrimTokens : Nat}
  {maxSeqLen : Option Int} {heap : Heap Msg Args} {tree : SessionTree} {a r : Nat}
  {leafSamples : List LeafSample} {s : LeafSample}

/-- The tokens of a node. -/
def Heap.tokenIds (heap : Heap Msg Args) (a : Nat) : List Nat :=
  heap[a]?.elim [] TrajectoryNode.tokenIds

/-- The prompt of a node is as long as this. -/
def Heap.promptLen (heap : Heap Msg Args) (a : Nat) : Nat :=
  (heap[a]?.elim [] fun node => node.record.request.inputIds).length

/-- How many outputs of the root's turn a path keeps. -/
def rootKept (heap : Heap Msg Args) (r a : Nat) : Nat :=
  lcpLen (heap[r]?.elim [] fun node => node.record.completionTokenIds)
    ((heap.tokenIds a).drop (heap.promptLen r))

/-- What a leaf sample says of its leaf. -/
theorem leafSample_fields
    (hs : leafSample replayOf maxTrimTokens maxSeqLen heap a = .ok (some s)) :
    s.accumulatedTokenIds = heap.tokenIds a ∧ s.leaf.nodeId = heap.seq a ∧
      s.leaf.parent = (heap.parentOf a).map heap.seq ∧
      s.leaf.pathNodeIds = pathNodeIds heap a := by
  unfold leafSample at hs
  obtain ⟨turns, -, hs⟩ := bind_eq_ok.mp hs
  obtain ⟨cut, -, hs⟩ := bind_eq_ok.mp hs
  cases hmerge : mergeSamples cut with
  | none =>
    rw [hmerge] at hs
    cases hs
  | some merged =>
    rw [hmerge] at hs
    obtain ⟨sample, -, hs⟩ := bind_eq_ok.mp hs
    cases hs
    exact ⟨rfl, rfl, rfl, rfl⟩

/-- A leaf has a sample unless the token budget cuts its first turn: the root's prompt must leave
    room for a token, or nothing of the root's completion is kept. -/
theorem leafSample_isSome_iff (h : Shape heap tree) (ha : a ∈ tree.nodes)
    (hroot : heap.parentOf r = none) (hra : r ∈ heap.pathNodes a) {o : Option LeafSample}
    (ho : leafSample replayOf maxTrimTokens maxSeqLen heap a = .ok o) :
    o.isSome = true ↔ ∀ budget, maxSeqLen = some budget →
      (heap.promptLen r : Int) < budget ∨
        (heap.promptLen r : Int) = budget ∧ rootKept heap r a = 0 := by
  obtain ⟨rest, hpath⟩ := pathNodes_head_of_root h ha hra hroot
  obtain ⟨node, hnode⟩ := h.node (h.mem_nodes_of_mem_pathNodes ha hra).1
  have hturns : pathTurns replayOf heap a = nodeTurn replayOf node ::
      rest.filterMap fun b => heap[b]?.map (nodeTurn replayOf) := by
    simp [pathTurns, hpath, hnode]
  have hprompt : heap.promptLen r = (nodeTurn replayOf node).inputIds.length := by
    simp [Heap.promptLen, hnode, nodeTurn]
  have hkept : rootKept heap r a = matchedOutputs (heap.tokenIds a) (nodeTurn replayOf node) := by
    simp [rootKept, matchedOutputs, hprompt, hnode, nodeTurn]
  unfold leafSample at ho
  obtain ⟨turns, hcompute, ho⟩ := bind_eq_ok.mp ho
  obtain ⟨cut, hcut, ho⟩ := bind_eq_ok.mp ho
  have hsome : o.isSome = true ↔ cut ≠ [] := by
    cases cut with
    | nil =>
      cases ho
      simp
    | cons first others =>
      obtain ⟨sample, -, ho⟩ := bind_eq_ok.mp ho
      cases ho
      simp
  obtain ⟨-, -, rfl⟩ := computeSamples_eq_ok.mp hcompute
  rw [hsome]
  cases maxSeqLen with
  | none =>
    cases hcut
    simp [turnSamples, hturns]
  | some budget =>
    have hcut : truncateSamplesByTotalTokens
        (turnSamples (heap.tokenIds a) (pathTurns replayOf heap a)) budget = .ok cut := hcut
    rw [hturns] at hcut
    rw [truncate_turnSamples_nonempty_iff hcut, hprompt, hkept]
    simp [Heap.tokenIds]

/-- The leaf samples are those of the leaves that have one. -/
theorem mem_leafSamples
    (hbuild : buildLeafMaterial replayOf maxTrimTokens maxSeqLen heap tree = .ok leafSamples) :
    s ∈ leafSamples ↔
      ∃ a ∈ tree.leaves heap, leafSample replayOf maxTrimTokens maxSeqLen heap a = .ok (some s) := by
  obtain ⟨samples, hmap, heq⟩ := bind_eq_ok.mp hbuild
  cases heq
  rw [List.mem_filterMap]
  constructor
  · rintro ⟨o, ho, rfl⟩
    exact (Except.mem_mapM hmap).mp ho
  · intro hsample
    exact ⟨some s, (Except.mem_mapM hmap).mpr hsample, rfl⟩

/-- The assembly of every leaf ends. -/
theorem exists_leafSample
    (hbuild : buildLeafMaterial replayOf maxTrimTokens maxSeqLen heap tree = .ok leafSamples)
    (ha : a ∈ tree.leaves heap) :
    ∃ o, leafSample replayOf maxTrimTokens maxSeqLen heap a = .ok o := by
  obtain ⟨samples, hmap, -⟩ := bind_eq_ok.mp hbuild
  exact Except.exists_of_mapM hmap ha

end Samples

/-! ## What supersedes a leaf -/

/-- A node has the prompt of the leaf `a` with sample `s`: a prompt of the same length, and the same
    tokens in the first leaf sample that covers the node. -/
def SamePrompt (heap : Heap Msg Args) (leafSamples : List LeafSample) (a : Nat) (s : LeafSample)
    (b : Nat) : Prop :=
  (nodeRow heap b).completionSpan.1 = (nodeRow heap a).completionSpan.1 ∧
    ∃ t ∈ coveringSample leafSamples (heap.seq b),
      t.accumulatedTokenIds.take (nodeRow heap a).completionSpan.1 =
        s.accumulatedTokenIds.take (nodeRow heap a).completionSpan.1

/-- The node `b` is a sibling of the leaf `a` that was committed after it; a sibling of a root, and
    every sibling if prompts must match, has the prompt of the leaf. -/
structure Supersedes (heap : Heap Msg Args) (leafSamples : List LeafSample)
    (siblingPromptMustMatch : Bool) (a : Nat) (s : LeafSample) (b : Nat) : Prop where
  sibling : heap.parentOf b = heap.parentOf a
  later : heap.seq a < heap.seq b
  prompt : heap.parentOf a = none ∨ siblingPromptMustMatch = true →
    SamePrompt heap leafSamples a s b

section Picking

variable {replayOf : SessionRecord Msg Args → Replay} {maxTrimTokens : Nat}
  {maxSeqLen : Option Int} {heap : Heap Msg Args} {tree : SessionTree} {a b : Nat}
  {leafSamples : List LeafSample} {s : LeafSample}

/-- A comprehension whose test never raises keeps what passes, in order. -/
theorem filterRaising_spec {α : Type} {test : α → Except HookError Bool} {xs : List α}
    (h : ∀ x ∈ xs, ∃ keep, test x = .ok keep) :
    ∃ ys, filterRaising test xs = .ok ys ∧ ys.Sublist xs ∧
      ∀ x, x ∈ ys ↔ x ∈ xs ∧ test x = .ok true := by
  induction xs with
  | nil => exact ⟨[], rfl, .slnil, by simp⟩
  | cons x xs ih =>
    obtain ⟨ys, hys, hsub, hmem⟩ := ih fun y hy => h y (List.mem_cons_of_mem _ hy)
    obtain ⟨keep, hkeep⟩ := h x (List.mem_cons_self ..)
    cases keep with
    | false =>
      refine ⟨ys, by simp [filterRaising, hkeep, hys, bind, Except.bind, pure, Except.pure],
        hsub.cons x, fun y => ?_⟩
      rw [hmem, List.mem_cons]
      constructor
      · exact fun hy => ⟨.inr hy.1, hy.2⟩
      · rintro ⟨rfl | hy, htest⟩
        · rw [hkeep] at htest
          cases htest
        · exact ⟨hy, htest⟩
    | true =>
      refine ⟨x :: ys, by simp [filterRaising, hkeep, hys, bind, Except.bind, pure, Except.pure],
        hsub.cons_cons x, fun y => ?_⟩
      rw [List.mem_cons, List.mem_cons, hmem]
      constructor
      · rintro (rfl | hy)
        · exact ⟨.inl rfl, hkeep⟩
        · exact ⟨.inr hy.1, hy.2⟩
      · rintro ⟨rfl | hy, htest⟩
        · exact .inl rfl
        · exact .inr ⟨hy, htest⟩

/-- Every node is found by its seq. -/
theorem nodeById_eq (h : Shape heap tree) (ha : a ∈ tree.nodes) :
    nodeById (treeMetadata heap tree) (heap.seq a) = .ok (nodeRow heap a) := by
  have hkeys : ((treeMetadata heap tree).nodes.map fun row => (row.id, row)).map Prod.fst =
      tree.nodes.map heap.seq := by
    simp [treeMetadata, nodeRow, Function.comp_def]
  have hnodup : (((treeMetadata heap tree).nodes.map fun row => (row.id, row)).map
      Prod.fst).Nodup := by
    rw [hkeys, h.map_seq]
    exact List.nodup_range
  have hget : (nodesById (treeMetadata heap tree)).get? (heap.seq a) = some (nodeRow heap a) := by
    rw [PyDict.get?_eq_some, nodesById, PyDict.items_ofList hnodup]
    exact List.mem_map.mpr ⟨nodeRow heap a, List.mem_map_of_mem ha, rfl⟩
  rw [nodeById, hget]
  rfl

theorem parent_eq_iff (h : Shape heap tree) (ha : a ∈ tree.nodes) (hb : b ∈ tree.nodes) :
    (nodeRow heap b).parent = (heap.parentOf a).map heap.seq ↔
      heap.parentOf b = heap.parentOf a := by
  show (heap.parentOf b).map heap.seq = (heap.parentOf a).map heap.seq ↔ _
  constructor
  · intro heq
    cases hpa : heap.parentOf a with
    | none =>
      rw [hpa] at heq
      exact Option.map_eq_none_iff.mp heq
    | some p =>
      rw [hpa, Option.map_some] at heq
      obtain ⟨q, hq, hseq⟩ := Option.map_eq_some_iff.mp heq
      rw [hq, h.seq_inj (h.parent b hb q hq).1 (h.parent a ha p hpa).1 hseq]
  · exact fun heq => by rw [heq]

/-- The children of a node's parent are its siblings and itself. -/
theorem childrenOf_eq (h : Shape heap tree) (ha : a ∈ tree.nodes) :
    ∃ ids, childrenOf (treeMetadata heap tree) ((heap.parentOf a).map heap.seq) = .ok ids ∧
      ∀ id, id ∈ ids ↔ ∃ b ∈ tree.nodes, heap.parentOf b = heap.parentOf a ∧ heap.seq b = id := by
  have hmem : ∀ id, id ∈ ((treeMetadata heap tree).nodes.filter
      (·.parent = (heap.parentOf a).map heap.seq)).map NodeRow.id ↔
      ∃ b ∈ tree.nodes, heap.parentOf b = heap.parentOf a ∧ heap.seq b = id := by
    intro id
    simp only [treeMetadata, List.mem_map, List.mem_filter, decide_eq_true_eq]
    constructor
    · rintro ⟨row, ⟨⟨b, hb, rfl⟩, hparent⟩, rfl⟩
      exact ⟨b, hb, (parent_eq_iff h ha hb).mp hparent, rfl⟩
    · rintro ⟨b, hb, hparent, rfl⟩
      exact ⟨nodeRow heap b, ⟨⟨b, hb, rfl⟩, (parent_eq_iff h ha hb).mpr hparent⟩, rfl⟩
  refine ⟨_, if_neg fun hnil => ?_, hmem⟩
  have hself := (hmem (heap.seq a)).mpr ⟨a, ha, rfl, rfl⟩
  rw [hnil] at hself
  cases hself

theorem samePrompt_eq (leafSamples : List LeafSample) (h : Shape heap tree) (ha : a ∈ tree.nodes) (hb : b ∈ tree.nodes)
    (hid : s.leaf.nodeId = heap.seq a) :
    ∃ same, samePrompt (treeMetadata heap tree) leafSamples s (heap.seq b) = .ok same ∧
      (same = true ↔ SamePrompt heap leafSamples a s b) := by
  unfold samePrompt SamePrompt
  rw [hid, nodeById_eq h ha, nodeById_eq h hb]
  simp only [Except.ok_bind]
  split_ifs with hlen
  · exact ⟨false, rfl, by simp [hlen]⟩
  · cases hcovering : coveringSample leafSamples (heap.seq b) with
    | none => exact ⟨false, rfl, by simp⟩
    | some t => exact ⟨_, rfl, by simp [not_not.mp hlen]⟩

/-- The list `later` holds what supersedes the leaf. -/
theorem laterSiblings_eq (siblingPromptMustMatch : Bool) (leafSamples : List LeafSample)
    (h : Shape heap tree) (ha : a ∈ tree.nodes)
    (hid : s.leaf.nodeId = heap.seq a) (hparent : s.leaf.parent = (heap.parentOf a).map heap.seq) :
    ∃ later, laterSiblings siblingPromptMustMatch (treeMetadata heap tree) leafSamples s =
        .ok later ∧
      ∀ id, id ∈ later ↔ ∃ b ∈ tree.nodes, heap.seq b = id ∧
        Supersedes heap leafSamples siblingPromptMustMatch a s b := by
  obtain ⟨ids, hids, hmem⟩ := childrenOf_eq h ha
  have hroot : s.leaf.parent = none ↔ heap.parentOf a = none := by
    rw [hparent, Option.map_eq_none_iff]
  unfold laterSiblings
  rw [hparent, hids, Except.ok_bind, hid, ← hparent]
  by_cases hmatch : s.leaf.parent = none ∨ siblingPromptMustMatch = true
  · have htest : ∀ id ∈ ids.filter (heap.seq a < ·),
        ∃ keep, samePrompt (treeMetadata heap tree) leafSamples s id = .ok keep := by
      intro id hfilter
      obtain ⟨b, hb, -, rfl⟩ := (hmem id).mp (List.mem_of_mem_filter hfilter)
      obtain ⟨same, hsame, -⟩ := samePrompt_eq leafSamples h ha hb hid
      exact ⟨same, hsame⟩
    obtain ⟨later, hlater, -, hin⟩ := filterRaising_spec htest
    rw [if_pos hmatch]
    refine ⟨later, hlater, fun id => ?_⟩
    rw [hin, List.mem_filter, decide_eq_true_iff, hmem]
    constructor
    · rintro ⟨⟨⟨b, hb, hsibling, rfl⟩, hlt⟩, hprompt⟩
      obtain ⟨same, hsame, hiff⟩ := samePrompt_eq leafSamples h ha hb hid
      rw [hsame] at hprompt
      cases hprompt
      exact ⟨b, hb, rfl, hsibling, hlt, fun _ => hiff.mp rfl⟩
    · rintro ⟨b, hb, rfl, hsuper⟩
      obtain ⟨same, hsame, hiff⟩ := samePrompt_eq leafSamples h ha hb hid
      rw [hroot] at hmatch
      refine ⟨⟨⟨b, hb, hsuper.sibling, rfl⟩, hsuper.later⟩, ?_⟩
      rw [hsame, hiff.mpr (hsuper.prompt hmatch)]
  · rw [if_neg hmatch]
    refine ⟨_, rfl, fun id => ?_⟩
    rw [List.mem_filter, decide_eq_true_iff, hmem]
    rw [hroot] at hmatch
    constructor
    · rintro ⟨⟨b, hb, hsibling, rfl⟩, hlt⟩
      exact ⟨b, hb, rfl, hsibling, hlt, fun hyes => absurd hyes hmatch⟩
    · rintro ⟨b, hb, rfl, hsuper⟩
      exact ⟨⟨b, hb, hsuper.sibling, rfl⟩, hsuper.later⟩

/-- The maximum over the leaves below some nodes exists: every node has a leaf below it. -/
theorem survivorsMax_eq (h : Shape heap tree) {later : List Nat} (hne : later ≠ [])
    (hlater : ∀ id ∈ later, ∃ b ∈ tree.nodes, heap.seq b = id) :
    ∃ m, survivorsMax (treeMetadata heap tree) later = .ok m := by
  obtain ⟨id, hid⟩ := List.exists_mem_of_ne_nil later hne
  obtain ⟨b, hb, rfl⟩ := hlater id hid
  obtain ⟨c, hc, hbc⟩ := exists_leaf_below h hb
  have hlookup : ∀ row ∈ (treeMetadata heap tree).leaves.filter
      (fun row => later.any (· ∈ row.pathNodeIds)),
      (NodeRow.numTokens <$> nodeById (treeMetadata heap tree) row.nodeId) =
        .ok ((((nodesById (treeMetadata heap tree)).get? row.nodeId).map
          NodeRow.numTokens).getD 0) := by
    intro row hrow
    obtain ⟨x, hx, rfl⟩ := List.mem_map.mp (List.mem_of_mem_filter hrow)
    have heq := nodeById_eq h ((mem_leaves h).mp hx).1
    unfold nodeById at heq ⊢
    cases hget : (nodesById (treeMetadata heap tree)).get? (heap.seq x) with
    | none =>
      rw [hget] at heq
      cases heq
    | some row => rfl
  unfold survivorsMax
  dsimp only
  rw [Except.mapM_of_ok hlookup, Except.ok_bind]
  have hmem : (⟨heap.seq c, pathNodeIds heap c⟩ : LeafRow) ∈
      (treeMetadata heap tree).leaves.filter (fun row => later.any (· ∈ row.pathNodeIds)) := by
    refine List.mem_filter.mpr ⟨List.mem_map.mpr ⟨c, hc, rfl⟩, List.any_eq_true.mpr ?_⟩
    exact ⟨heap.seq b, hid, decide_eq_true (List.mem_map_of_mem hbc)⟩
  cases hmax : (((treeMetadata heap tree).leaves.filter
      (fun row => later.any (· ∈ row.pathNodeIds))).map fun row =>
        (((nodesById (treeMetadata heap tree)).get? row.nodeId).map NodeRow.numTokens).getD 0).max?
    with
  | none =>
    have hnil := List.map_eq_nil_iff.mp (List.max?_eq_none_iff.mp hmax)
    rw [hnil] at hmem
    cases hmem
  | some m => exact ⟨m, rfl⟩

/-- One round of the picker never raises, and keeps the sample if nothing supersedes its leaf. -/
theorem keepsSample_eq (siblingPromptMustMatch : Bool) (leafSamples : List LeafSample)
    (h : Shape heap tree) (ha : a ∈ tree.nodes)
    (hid : s.leaf.nodeId = heap.seq a) (hparent : s.leaf.parent = (heap.parentOf a).map heap.seq) :
    ∃ keep, keepsSample siblingPromptMustMatch (treeMetadata heap tree) leafSamples s = .ok keep ∧
      (keep = true ↔ ∀ b ∈ tree.nodes,
        ¬ Supersedes heap leafSamples siblingPromptMustMatch a s b) := by
  obtain ⟨later, hlater, hmem⟩ :=
    laterSiblings_eq siblingPromptMustMatch leafSamples h ha hid hparent
  unfold keepsSample
  rw [hlater, Except.ok_bind]
  by_cases hnil : later = []
  · rw [if_pos hnil]
    refine ⟨true, rfl, iff_of_true rfl fun b hb hsuper => ?_⟩
    have hin := (hmem (heap.seq b)).mpr ⟨b, hb, rfl, hsuper⟩
    rw [hnil] at hin
    cases hin
  · rw [if_neg hnil]
    have hnodes : ∀ id ∈ later, ∃ b ∈ tree.nodes, heap.seq b = id := by
      intro id hin
      obtain ⟨b, hb, heq, -⟩ := (hmem id).mp hin
      exact ⟨b, hb, heq⟩
    have hlookup : ∀ id ∈ later, nodeById (treeMetadata heap tree) id =
        .ok (((nodesById (treeMetadata heap tree)).get? id).getD ⟨0, none, (0, 0), 0⟩) := by
      intro id hin
      obtain ⟨b, hb, rfl⟩ := hnodes id hin
      have heq := nodeById_eq h hb
      unfold nodeById at heq ⊢
      cases hget : (nodesById (treeMetadata heap tree)).get? (heap.seq b) with
      | none =>
        rw [hget] at heq
        cases heq
      | some row => rfl
    obtain ⟨m, hm⟩ := survivorsMax_eq h hnil hnodes
    rw [Except.mapM_of_ok hlookup, hid, nodeById_eq h ha, hm]
    refine ⟨false, rfl, iff_of_false (by simp) fun hnone => ?_⟩
    obtain ⟨id, hin⟩ := List.exists_mem_of_ne_nil later hnil
    obtain ⟨b, hb, -, hsuper⟩ := (hmem id).mp hin
    exact hnone b hb hsuper

end Picking

/-! ## What is kept -/

/-- The paths through a root that is as long as the token budget keep nothing of the root's
    completion, or all of them keep some of it. -/
def RootsTrimAlike (maxSeqLen : Option Int) (heap : Heap Msg Args) (tree : SessionTree) : Prop :=
  ∀ r ∈ tree.nodes, heap.parentOf r = none → maxSeqLen = some (heap.promptLen r : Int) →
    ∀ a ∈ tree.leaves heap, ∀ b ∈ tree.leaves heap,
      r ∈ heap.pathNodes a → r ∈ heap.pathNodes b → rootKept heap r a = 0 → rootKept heap r b = 0

section Kept

variable {replayOf : SessionRecord Msg Args → Replay} {maxTrimTokens : Nat}
  {maxSeqLen : Option Int} {heap : Heap Msg Args} {tree : SessionTree} {a b : Nat}
  {leafSamples : List LeafSample} {s t : LeafSample} {siblingPromptMustMatch : Bool}

theorem mem_pathNodeIds (h : Shape heap tree) (ha : a ∈ tree.nodes) (hb : b ∈ tree.nodes) :
    heap.seq b ∈ pathNodeIds heap a ↔ b ∈ heap.pathNodes a := by
  constructor
  · intro hmem
    obtain ⟨c, hc, hseq⟩ := List.mem_map.mp hmem
    rw [← h.seq_inj (h.mem_nodes_of_mem_pathNodes ha hc).1 hb hseq]
    exact hc
  · exact fun hmem => List.mem_map_of_mem hmem

/-- The sample that covers a node is the one of a leaf below it. -/
theorem covering_leaf (h : Shape heap tree)
    (hbuild : buildLeafMaterial replayOf maxTrimTokens maxSeqLen heap tree = .ok leafSamples)
    (hb : b ∈ tree.nodes) (ht : t ∈ coveringSample leafSamples (heap.seq b)) :
    ∃ x ∈ tree.leaves heap, leafSample replayOf maxTrimTokens maxSeqLen heap x = .ok (some t) ∧
      b ∈ heap.pathNodes x := by
  have hfind : leafSamples.find? (fun s => heap.seq b ∈ s.leaf.pathNodeIds) = some t := ht
  obtain ⟨x, hx, hsample⟩ := (mem_leafSamples hbuild).mp (List.mem_of_find?_eq_some hfind)
  have hpath : heap.seq b ∈ t.leaf.pathNodeIds := by simpa using List.find?_some hfind
  rw [(leafSample_fields hsample).2.2.2] at hpath
  exact ⟨x, hx, hsample, (mem_pathNodeIds h ((mem_leaves h).mp hx).1 hb).mp hpath⟩

/-- If one leaf below a root has a sample, every leaf below it has. -/
theorem exists_sample_of_alike (h : Shape heap tree)
    (hbuild : buildLeafMaterial replayOf maxTrimTokens maxSeqLen heap tree = .ok leafSamples)
    (halike : RootsTrimAlike maxSeqLen heap tree) {r : Nat} (hroot : heap.parentOf r = none)
    (ha : a ∈ tree.leaves heap) (hb : b ∈ tree.leaves heap) (hra : r ∈ heap.pathNodes a)
    (hrb : r ∈ heap.pathNodes b)
    (hs : leafSample replayOf maxTrimTokens maxSeqLen heap a = .ok (some s)) :
    ∃ t, leafSample replayOf maxTrimTokens maxSeqLen heap b = .ok (some t) := by
  obtain ⟨o, ho⟩ := exists_leafSample hbuild hb
  have han := ((mem_leaves h).mp ha).1
  have hbn := ((mem_leaves h).mp hb).1
  have hsurvives := (leafSample_isSome_iff h han hroot hra hs).mp rfl
  have hsome : o.isSome = true := by
    rw [leafSample_isSome_iff h hbn hroot hrb ho]
    intro budget hbudget
    rcases hsurvives budget hbudget with hlt | ⟨heq, hzero⟩
    · exact .inl hlt
    · refine .inr ⟨heq, ?_⟩
      exact halike r (h.mem_nodes_of_mem_pathNodes han hra).1 hroot (by rw [hbudget, heq]) a ha b hb
        hra hrb hzero
  obtain ⟨t, rfl⟩ := Option.isSome_iff_exists.mp hsome
  exact ⟨t, ho⟩

/-- What supersedes a superseding leaf supersedes the leaf. -/
theorem Supersedes.trans (h : Shape heap tree)
    (hbuild : buildLeafMaterial replayOf maxTrimTokens maxSeqLen heap tree = .ok leafSamples)
    (hb : b ∈ tree.leaves heap)
    (ht : leafSample replayOf maxTrimTokens maxSeqLen heap b = .ok (some t))
    (hab : Supersedes heap leafSamples siblingPromptMustMatch a s b) {c : Nat}
    (hbc : Supersedes heap leafSamples siblingPromptMustMatch b t c) :
    Supersedes heap leafSamples siblingPromptMustMatch a s c where
  sibling := hbc.sibling.trans hab.sibling
  later := hab.later.trans hbc.later
  prompt := by
    intro hmode
    obtain ⟨hlen, t', ht', hprompt⟩ := hab.prompt hmode
    rw [← hab.sibling] at hmode
    obtain ⟨hlen', t'', ht'', hprompt'⟩ := hbc.prompt hmode
    -- the leaf's own sample is the one that covers it
    obtain ⟨x, hx, hsample, hbx⟩ := covering_leaf h hbuild ((mem_leaves h).mp hb).1 ht'
    obtain rfl := eq_of_mem_pathNodes_leaf h hb ((mem_leaves h).mp hx).1 hbx
    rw [ht] at hsample
    cases hsample
    rw [hlen] at hlen' hprompt'
    exact ⟨hlen', t'', ht'', hprompt'.trans hprompt⟩

/-- A superseded leaf leaves one to keep below the last node that supersedes it. -/
theorem exists_kept_below (h : Shape heap tree)
    (hbuild : buildLeafMaterial replayOf maxTrimTokens maxSeqLen heap tree = .ok leafSamples)
    (hmode : siblingPromptMustMatch = true ∨ RootsTrimAlike maxSeqLen heap tree)
    (ha : a ∈ tree.leaves heap)
    (hs : leafSample replayOf maxTrimTokens maxSeqLen heap a = .ok (some s))
    (hsuper : ∃ b ∈ tree.nodes, Supersedes heap leafSamples siblingPromptMustMatch a s b) :
    ∃ b ∈ tree.nodes, Supersedes heap leafSamples siblingPromptMustMatch a s b ∧
      ∃ m ∈ tree.leaves heap, ∃ t,
        leafSample replayOf maxTrimTokens maxSeqLen heap m = .ok (some t) ∧
        b ∈ heap.pathNodes m ∧
        ∀ c ∈ tree.nodes, ¬ Supersedes heap leafSamples siblingPromptMustMatch m t c := by
  classical
  have han := ((mem_leaves h).mp ha).1
  -- the last node that supersedes the leaf
  have hnonempty : (tree.nodes.toFinset.filter
      fun b => Supersedes heap leafSamples siblingPromptMustMatch a s b).Nonempty := by
    obtain ⟨b, hb, hsuper⟩ := hsuper
    exact ⟨b, Finset.mem_filter.mpr ⟨List.mem_toFinset.mpr hb, hsuper⟩⟩
  obtain ⟨b, hbmem, hmax⟩ := Finset.exists_max_image _ heap.seq hnonempty
  obtain ⟨hb, hab⟩ := Finset.mem_filter.mp hbmem
  have hb := List.mem_toFinset.mp hb
  have hlast : ∀ c ∈ tree.nodes, Supersedes heap leafSamples siblingPromptMustMatch a s c →
      heap.seq c ≤ heap.seq b :=
    fun c hc hac => hmax c (Finset.mem_filter.mpr ⟨List.mem_toFinset.mpr hc, hac⟩)
  -- with matching prompts only leaves with a sample count, otherwise all leaves do
  let P := fun x => siblingPromptMustMatch = true →
    ∃ t, leafSample replayOf maxTrimTokens maxSeqLen heap x = .ok (some t)
  have hbelow : ∀ c ∈ tree.nodes,
      (siblingPromptMustMatch = true → ∃ t, t ∈ coveringSample leafSamples (heap.seq c)) →
      ∃ x ∈ tree.leaves heap, P x ∧ c ∈ heap.pathNodes x := by
    intro c hc hcovered
    by_cases hflag : siblingPromptMustMatch = true
    · obtain ⟨t, ht⟩ := hcovered hflag
      obtain ⟨x, hx, hsample, hcx⟩ := covering_leaf h hbuild hc ht
      exact ⟨x, hx, fun _ => ⟨t, hsample⟩, hcx⟩
    · obtain ⟨x, hx, hcx⟩ := exists_leaf_below h hc
      exact ⟨x, hx, fun hyes => absurd hyes hflag, hcx⟩
  obtain ⟨m, hm, hPm, hbm, hend⟩ := exists_last_leaf h hb <| hbelow b hb fun hflag => by
    obtain ⟨-, t, ht, -⟩ := hab.prompt (.inr hflag)
    exact ⟨t, ht⟩
  have hmn := ((mem_leaves h).mp hm).1
  have hsample : ∃ t, leafSample replayOf maxTrimTokens maxSeqLen heap m = .ok (some t) := by
    by_cases hflag : siblingPromptMustMatch = true
    · exact hPm hflag
    · have halike := hmode.resolve_left hflag
      cases hparent : heap.parentOf a with
      | none =>
        -- a later root supersedes only if a sample covers it
        obtain ⟨-, t, ht, -⟩ := hab.prompt (.inl hparent)
        obtain ⟨x, hx, hsample, hbx⟩ := covering_leaf h hbuild hb ht
        exact exists_sample_of_alike h hbuild halike (hab.sibling.trans hparent) hx hm hbx hbm
          hsample
      | some p =>
        obtain ⟨r, rest, hpath, -, hroot⟩ := pathNodes_root h (h.parent a han p hparent).1
        have hrp : r ∈ heap.pathNodes p := by simp [hpath]
        have hra : r ∈ heap.pathNodes a :=
          (h.mem_pathNodes_iff han).mpr (.inr ⟨p, hparent, hrp⟩)
        have hrb : r ∈ heap.pathNodes b :=
          (h.mem_pathNodes_iff hb).mpr (.inr ⟨p, hab.sibling.trans hparent, hrp⟩)
        exact exists_sample_of_alike h hbuild halike hroot ha hm hra
          (h.pathNodes_trans hmn hrb hbm) hs
  obtain ⟨t, ht⟩ := hsample
  refine ⟨b, hb, hab, m, hm, t, ht, hbm, fun c hc hmc => ?_⟩
  rcases hend with rfl | ⟨hnonroot, hnone⟩
  · have hle := hlast c hc (hab.trans h hbuild hm ht hmc)
    have hlt := hmc.later
    omega
  · have hlt : m < c := by
      by_contra hge
      rcases Nat.lt_or_eq_of_le (Nat.not_lt.mp hge) with hcm | rfl
      · have hseq := h.seq_lt_seq hc hmn hcm
        have hlater := hmc.later
        omega
      · exact absurd hmc.later (Nat.lt_irrefl _)
    obtain ⟨x, hx, hPx, hcx⟩ := hbelow c hc fun hflag => by
      obtain ⟨-, t', ht', -⟩ := hmc.prompt (.inr hflag)
      exact ⟨t', ht'⟩
    exact hnone c hc hmc.sibling hlt x hx hPx hcx

/-- The picker never raises.  It drops the sample of a leaf if and only if a later sibling
    supersedes the leaf, and sorts the others by path length and seq, descending.  When prompts must
    match, or the paths through a root trim it alike, a dropped leaf has a superseding sibling with
    a kept leaf below it, so something is kept of every nonempty input. -/
theorem picker_spec (h : Shape heap tree) (siblingPromptMustMatch : Bool)
    (hbuild : buildLeafMaterial replayOf maxTrimTokens maxSeqLen heap tree = .ok leafSamples) :
    ∃ kept, dropRolledBackLeaves leafSamples (treeMetadata heap tree) siblingPromptMustMatch =
        .ok kept ∧
      kept.Subperm leafSamples ∧
      (∀ a ∈ tree.leaves heap, ∀ s,
        leafSample replayOf maxTrimTokens maxSeqLen heap a = .ok (some s) →
        (s ∉ kept ↔
          ∃ b ∈ tree.nodes, Supersedes heap leafSamples siblingPromptMustMatch a s b)) ∧
      kept.Pairwise (fun s t => pickedBefore s t = true) ∧
      (siblingPromptMustMatch = true ∨ RootsTrimAlike maxSeqLen heap tree →
        (∀ a ∈ tree.leaves heap, ∀ s,
          leafSample replayOf maxTrimTokens maxSeqLen heap a = .ok (some s) → s ∉ kept →
          ∃ b ∈ tree.nodes, Supersedes heap leafSamples siblingPromptMustMatch a s b ∧
            ∃ t ∈ kept, heap.seq b ∈ t.leaf.pathNodeIds) ∧
        (leafSamples ≠ [] → kept ≠ [])) := by
  -- every lookup of the picker finds its row
  have htest : ∀ s ∈ leafSamples, ∃ keep, keepsSample siblingPromptMustMatch
      (treeMetadata heap tree) leafSamples s = .ok keep := by
    intro s hs
    obtain ⟨a, ha, hsample⟩ := (mem_leafSamples hbuild).mp hs
    obtain ⟨-, hid, hparent, -⟩ := leafSample_fields hsample
    obtain ⟨keep, hkeep, -⟩ := keepsSample_eq siblingPromptMustMatch leafSamples h
      ((mem_leaves h).mp ha).1 hid hparent
    exact ⟨keep, hkeep⟩
  obtain ⟨picked, hpicked, hsub, hmem⟩ := filterRaising_spec htest
  have hperm : (picked.mergeSort pickedBefore).Perm picked := List.mergeSort_perm ..
  -- kept are the samples that nothing supersedes
  have hkeeps : ∀ a ∈ tree.leaves heap, ∀ s,
      leafSample replayOf maxTrimTokens maxSeqLen heap a = .ok (some s) →
      (s ∈ picked.mergeSort pickedBefore ↔
        ∀ b ∈ tree.nodes, ¬ Supersedes heap leafSamples siblingPromptMustMatch a s b) := by
    intro a ha s hsample
    obtain ⟨-, hid, hparent, -⟩ := leafSample_fields hsample
    obtain ⟨keep, hkeep, hiff⟩ := keepsSample_eq siblingPromptMustMatch leafSamples h
      ((mem_leaves h).mp ha).1 hid hparent
    rw [hperm.mem_iff, hmem, hkeep, Except.ok.injEq, hiff, and_iff_right_iff_imp]
    exact fun _ => (mem_leafSamples hbuild).mpr ⟨a, ha, hsample⟩
  have hdropped : ∀ a ∈ tree.leaves heap, ∀ s,
      leafSample replayOf maxTrimTokens maxSeqLen heap a = .ok (some s) →
      (s ∉ picked.mergeSort pickedBefore ↔
        ∃ b ∈ tree.nodes, Supersedes heap leafSamples siblingPromptMustMatch a s b) := by
    intro a ha s hsample
    rw [hkeeps a ha s hsample]
    push Not
    rfl
  refine ⟨picked.mergeSort pickedBefore, ?_, hperm.subperm.trans hsub.subperm, hdropped, ?_, ?_⟩
  · unfold dropRolledBackLeaves
    rw [hpicked]
    rfl
  · refine List.pairwise_mergeSort ?_ ?_ picked
    · intro s t u hst htu
      simp only [pickedBefore, decide_eq_true_eq] at hst htu ⊢
      omega
    · intro s t
      simp only [pickedBefore, Bool.or_eq_true, decide_eq_true_eq]
      omega
  · intro hmode
    -- below a superseding sibling there is a kept leaf
    have hbelow : ∀ a ∈ tree.leaves heap, ∀ s,
        leafSample replayOf maxTrimTokens maxSeqLen heap a = .ok (some s) →
        s ∉ picked.mergeSort pickedBefore →
        ∃ b ∈ tree.nodes, Supersedes heap leafSamples siblingPromptMustMatch a s b ∧
          ∃ t ∈ picked.mergeSort pickedBefore, heap.seq b ∈ t.leaf.pathNodeIds := by
      intro a ha s hsample hdrop
      obtain ⟨b, hb, hab, m, hm, t, ht, hbm, hnone⟩ := exists_kept_below h hbuild hmode ha hsample
        ((hdropped a ha s hsample).mp hdrop)
      refine ⟨b, hb, hab, t, (hkeeps m hm t ht).mpr hnone, ?_⟩
      rw [(leafSample_fields ht).2.2.2]
      exact List.mem_map_of_mem hbm
    refine ⟨hbelow, fun hne hnil => ?_⟩
    obtain ⟨s, hs⟩ := List.exists_mem_of_ne_nil _ hne
    obtain ⟨a, ha, hsample⟩ := (mem_leafSamples hbuild).mp hs
    obtain ⟨-, -, -, t, ht, -⟩ := hbelow a ha s hsample (by rw [hnil]; exact List.not_mem_nil)
    rw [hnil] at ht
    cases ht

/-- The paths through a root trim it alike if its completion is longer than the tolerance, or
    empty. -/
theorem rootsTrimAlike_of_length (h : Shape heap tree)
    (hbuild : buildLeafMaterial replayOf maxTrimTokens maxSeqLen heap tree = .ok leafSamples)
    (hlength : ∀ r ∈ tree.nodes, heap.parentOf r = none → ∀ node, heap[r]? = some node →
      node.record.completionTokenIds = [] ∨ maxTrimTokens < node.record.completionTokenIds.length) :
    RootsTrimAlike maxSeqLen heap tree := by
  intro r hr hroot _ a ha b _ hra _ hzero
  have han := ((mem_leaves h).mp ha).1
  obtain ⟨node, hnode⟩ := h.node hr
  rcases hlength r hr hroot node hnode with hempty | hlong
  · simp [rootKept, hnode, hempty, lcpLen]
  · -- the path of `a` trims the root by more than the tolerance
    obtain ⟨o, ho⟩ := exists_leafSample hbuild ha
    obtain ⟨rest, hpath⟩ := pathNodes_head_of_root h han hra hroot
    have hturns : pathTurns replayOf heap a = nodeTurn replayOf node ::
        rest.filterMap fun b => heap[b]?.map (nodeTurn replayOf) := by
      simp [pathTurns, hpath, hnode]
    obtain ⟨turns, hcompute, -⟩ := bind_eq_ok.mp ho
    obtain ⟨htrims, -, -⟩ := computeSamples_eq_ok.mp hcompute
    rw [hturns] at htrims
    have hkept : rootKept heap r a = matchedOutputs (heap.tokenIds a) (nodeTurn replayOf node) := by
      simp [rootKept, matchedOutputs, Heap.promptLen, hnode, nodeTurn]
    have htrim := htrims.1
    have hzero : matchedOutputs (heap[a]?.elim [] TrajectoryNode.tokenIds)
        (nodeTurn replayOf node) = 0 := hkept.symm.trans hzero
    rw [hzero] at htrim
    have hout : (nodeTurn replayOf node).outputIds = node.record.completionTokenIds := rfl
    rw [hout] at htrim
    split_ifs at htrim <;> omega

end Kept

/-! ### A budget that ends with the root's prompt -/

/-- Like `plainTokenizer`, but a stop token 8 or 9 at the end of a turn gives way to the first token
    of the next message. -/
def boundaryTokenizer : TitoTokenizer PlainMessage Unit :=
  { plainTokenizer with
    maxTrimTokens := 1
    mergeTokens := fun old new tokenIds _ =>
      let ends := tokenIds.getLast?.any fun last => decide (last = 8 ∨ last = 9)
      .ok ((if ends then tokenIds.dropLast else tokenIds) ++ (new.drop old.length).map (·.token)) }

def boundaryConfig : Config PlainMessage Unit := { plainConfig with tokenizer := boundaryTokenizer }

/-- The first answer is the stop token 9 alone.  One request continues it with a message that starts
    with 8, a later one with a message that starts with 9. -/
def boundaryRun : List (Event PlainMessage Unit) :=
  [.chat 0 ⟨[⟨1, 0⟩, ⟨2, 0⟩], ()⟩, .answer 0 (plainAnswer ⟨9, 0⟩ [9]),
   .chat 1 ⟨[⟨1, 0⟩, ⟨2, 0⟩, ⟨9, 0⟩, ⟨8, 0⟩, ⟨5, 0⟩], ()⟩, .answer 1 (plainAnswer ⟨6, 0⟩ [6]),
   .chat 2 ⟨[⟨1, 0⟩, ⟨2, 0⟩, ⟨9, 0⟩, ⟨9, 0⟩, ⟨5, 0⟩], ()⟩, .answer 2 (plainAnswer ⟨6, 0⟩ [6])]

/-- A node of that run, answered with one message of one token. -/
def boundaryNode (seq : Nat) (messages delta : List PlainMessage) (inputIds : List Nat)
    (answer : PlainMessage) (parent : Option Nat) (children : List Nat) :
    TrajectoryNode PlainMessage Unit :=
  let request : RequestBody PlainMessage Unit :=
    { messages, inputIds, returnRoutedExperts := false, routedExpertsStartLen := none, args := () }
  { deltaMessages := delta ++ [answer]
    tokenIds := inputIds ++ [answer.token]
    completionSpan := (inputIds.length, inputIds.length + 1)
    seq
    record :=
      { requestId := seq, request, assistantMessage := answer, completionTokenIds := [answer.token] }
    finishReason := .stop
    turnArgs := request
    parent
    children }

/-- The nodes after that run. -/
def boundaryHeap : Heap PlainMessage Unit :=
  [boundaryNode 0 [⟨1, 0⟩, ⟨2, 0⟩] [⟨1, 0⟩, ⟨2, 0⟩] [1, 2] ⟨9, 0⟩ none [1, 2],
   boundaryNode 1 [⟨1, 0⟩, ⟨2, 0⟩, ⟨9, 0⟩, ⟨8, 0⟩, ⟨5, 0⟩] [⟨8, 0⟩, ⟨5, 0⟩] [1, 2, 8, 5] ⟨6, 0⟩
     (some 0) [],
   boundaryNode 2 [⟨1, 0⟩, ⟨2, 0⟩, ⟨9, 0⟩, ⟨9, 0⟩, ⟨5, 0⟩] [⟨9, 0⟩, ⟨5, 0⟩] [1, 2, 9, 5] ⟨6, 0⟩
     (some 0) []]

def boundaryTree : SessionTree := ⟨[0], [0, 1, 2]⟩

theorem boundaryRun_eq :
    ∃ w, Lts.run (SessionWorld.step boundaryConfig) {} boundaryRun = some w ∧
      w.heap = boundaryHeap ∧ w.tree = boundaryTree :=
  ⟨_, rfl, by decide, by decide⟩

theorem boundaryShape : Shape boundaryHeap boundaryTree := by
  obtain ⟨w, hrun, hheap, htree⟩ := boundaryRun_eq
  rw [← hheap, ← htree]
  exact (SessionWorld.inv_run SessionWorld.inv_initial hrun).1.forest.toShape

/-- The sample of the leaf `nodeId` that ends with the first answer. -/
def boundarySample (nodeId : Nat) (kept accumulatedTokenIds : List Nat) : LeafSample where
  sample :=
    { tokens := [1, 2] ++ kept
      responseLength := kept.length
      lossMask := kept.map fun _ => 1
      status := .truncated }
  accumulatedTokenIds
  leaf := { nodeId, parent := some 0, pathNodeIds := [0, nodeId] }

/-- With room for one token of the first answer both leaves have a sample, and something is kept. -/
theorem picker_spec_boundaryRun :
    let leafSamples := [boundarySample 1 [] [1, 2, 8, 5, 6], boundarySample 2 [9] [1, 2, 9, 5, 6]]
    buildLeafMaterial (fun _ => {}) 1 (some 4) boundaryHeap boundaryTree = .ok leafSamples ∧
    ∃ kept,
      dropRolledBackLeaves leafSamples (treeMetadata boundaryHeap boundaryTree) false = .ok kept ∧
      kept ≠ [] ∧ kept.Subperm leafSamples := by
  intro leafSamples
  have hbuild : buildLeafMaterial (fun _ => {}) 1 (some 4) boundaryHeap boundaryTree =
      .ok leafSamples := by decide
  obtain ⟨kept, hkept, hsub, -, -, hnonempty⟩ := picker_spec boundaryShape false hbuild
  refine ⟨hbuild, kept, hkept, (hnonempty (.inr ?_)).2 (by decide), hsub⟩
  -- no root is as long as the budget
  intro r hr _ hbudget
  revert hbudget
  revert r
  decide

/-- With a budget of the root's prompt the earlier leaf alone has a sample, an empty response, and
    the later one supersedes it.  Nothing is kept. -/
theorem picker_keeps_nothing :
    ¬ ∀ (w : SessionWorld PlainMessage Unit) (maxSeqLen : Option Int)
        (leafSamples : List LeafSample),
        Lts.run (SessionWorld.step boundaryConfig) {} boundaryRun = some w →
        buildLeafMaterial (fun _ => {}) boundaryTokenizer.maxTrimTokens maxSeqLen w.heap w.tree =
          .ok leafSamples →
        leafSamples ≠ [] →
        ∃ kept, dropRolledBackLeaves leafSamples (treeMetadata w.heap w.tree) false = .ok kept ∧
          kept ≠ [] := by
  intro hclaim
  obtain ⟨w, hrun, hheap, htree⟩ := boundaryRun_eq
  have hbuild : buildLeafMaterial (fun _ => {}) 1 (some 2) boundaryHeap boundaryTree =
      .ok [boundarySample 1 [] [1, 2, 8, 5, 6]] := by decide
  obtain ⟨kept, hkept, hne⟩ := hclaim w (some 2) [boundarySample 1 [] [1, 2, 8, 5, 6]] hrun
    (by rw [hheap, htree]; exact hbuild) (by decide)
  rw [hheap, htree] at hkept
  have hfilter : filterRaising (keepsSample false (treeMetadata boundaryHeap boundaryTree)
      [boundarySample 1 [] [1, 2, 8, 5, 6]]) [boundarySample 1 [] [1, 2, 8, 5, 6]] = .ok [] := by
    decide
  have hnil : dropRolledBackLeaves [boundarySample 1 [] [1, 2, 8, 5, 6]]
      (treeMetadata boundaryHeap boundaryTree) false = .ok [] := by
    unfold dropRolledBackLeaves
    rw [hfilter]
    simp [bind, Except.bind, pure, Except.pure]
  rw [hnil] at hkept
  cases hkept
  exact hne rfl

end Miles.Session.V2
