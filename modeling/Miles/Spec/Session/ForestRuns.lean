import Miles.ForStd.Except
import Miles.ForStd.Lts
import Miles.Spec.Session.AttachPoint
import Miles.Spec.Session.RepInvariant

/-!
# The forest over all interleavings

A request keeps the node it continues from its phase 1 to its phase 3, and other requests commit in
between.  What its phase 1 has checked stays true: nodes are never dropped and a finish reason
never changes.  Snapshots stand on objects of their own, which no commit writes to.
-/

namespace Miles.Session.V2

open Except (bind_eq_ok)

variable {Msg Args : Type}

/-! ## Attach points -/

/-- The request's first messages match all stored ones. -/
def Matches (matcher : Msg → Msg → Except SessionError Bool) (stored request : List Msg) : Prop :=
  matchLen matcher stored request = .ok stored.length

section Matching

variable {matcher : Msg → Msg → Except SessionError Bool}

theorem Matches.nil (request : List Msg) : Matches matcher [] request := by
  cases request <;> rfl

theorem Matches.append {xs ys request : List Msg} (hxs : Matches matcher xs request)
    (hys : Matches matcher ys (request.drop xs.length)) : Matches matcher (xs ++ ys) request := by
  induction xs generalizing request with
  | nil => exact hys
  | cons x xs ih =>
    cases request with
    | nil => cases hxs
    | cons r rs =>
      unfold Matches at hxs ⊢
      rw [List.cons_append, matchLen]
      rw [matchLen] at hxs
      obtain ⟨same, hsame, hxs⟩ := bind_eq_ok.mp hxs
      rw [hsame]
      cases same with
      | false => cases hxs
      | true =>
        obtain ⟨k, hk, hlength⟩ := bind_eq_ok.mp hxs
        have hxs' : Matches matcher xs rs := by
          have hk' : k = xs.length := by simpa using Except.ok.inj hlength
          rw [Matches, hk, hk']
        have hrest := ih hxs' hys
        rw [Matches] at hrest
        show (do return (← matchLen matcher (xs ++ ys) rs) + 1) = _
        rw [hrest]
        rfl

/-- Every match is a stored message. -/
theorem matchLen_le_stored {stored request : List Msg} {matched : Nat}
    (h : matchLen matcher stored request = .ok matched) : matched ≤ stored.length := by
  induction stored generalizing request matched with
  | nil =>
    cases h
    exact Nat.le_refl _
  | cons m ms ih =>
    cases request with
    | nil =>
      cases h
      exact Nat.zero_le _
    | cons r rs =>
      rw [matchLen] at h
      obtain ⟨same, -, h⟩ := bind_eq_ok.mp h
      cases same with
      | false =>
        cases h
        exact Nat.zero_le _
      | true =>
        obtain ⟨k, hk, hmatched⟩ := bind_eq_ok.mp h
        cases hmatched
        exact Nat.succ_le_succ (ih hk)

variable {heap : Heap Msg Args} {tree : SessionTree} {request : List Msg}

/-- Every node that the search still has to look at continues a path that the request matches. -/
theorem searchLoop_matches (h : Shape heap tree) {fuel : Nat} {stack : List (Nat × Nat)}
    {search final : SessionTree.Search}
    (hstack : ∀ e ∈ stack, e.1 ∈ tree.nodes ∧ Matches matcher (heap.parentMessages e.1) request ∧
      e.2 = (heap.parentMessages e.1).length)
    (hbest : ∀ a, search.best = some a →
      a ∈ tree.nodes ∧ Matches matcher (heap.pathMessages a) request)
    (hrun : SessionTree.searchLoop heap matcher request fuel stack search = .ok final) :
    ∀ a, final.best = some a →
      a ∈ tree.nodes ∧ Matches matcher (heap.pathMessages a) request := by
  induction fuel generalizing stack search with
  | zero =>
    cases hrun
    exact hbest
  | succ fuel ih =>
    cases stack with
    | nil =>
      cases hrun
      exact hbest
    | cons e stack =>
      obtain ⟨a, offset⟩ := e
      obtain ⟨ha, hparent, hoffset⟩ := hstack _ (List.mem_cons_self ..)
      have hrest := fun e he => hstack e (List.mem_cons_of_mem _ he)
      rw [SessionTree.searchLoop] at hrun
      obtain ⟨i, hmatch, hrun⟩ := bind_eq_ok.mp hrun
      have hle := matchLen_le_stored hmatch
      dsimp only at hoffset hmatch hrun hle ha hparent
      split at hrun
      · apply ih hrest _ hrun
        exact hbest
      · -- the node's own messages match as well
        have hpath : Matches matcher (heap.pathMessages a) request := by
          rw [h.pathMessages_eq ha]
          apply hparent.append
          rw [← hoffset, Matches, hmatch]
          congr 1
          omega
        have hlength : (heap.pathMessages a).length = offset + (heap.deltaMessages a).length := by
          rw [h.pathMessages_eq ha, List.length_append, hoffset]
        apply ih _ _ hrun
        · intro e he
          rcases List.mem_append.mp he with hchild | hmem
          · obtain ⟨c, hc, rfl⟩ := List.mem_map.mp hchild
            obtain ⟨hcm, hcp⟩ := (mem_children h ha).mp hc
            have hmessages : heap.parentMessages c = heap.pathMessages a := by
              unfold Heap.parentMessages
              rw [hcp]
              rfl
            dsimp only
            rw [hmessages]
            exact ⟨hcm, hpath, hlength.symm⟩
          · exact hrest e hmem
        · intro b hb
          split at hb
          · cases hb
            exact ⟨ha, hpath⟩
          · exact hbest b hb

/-- The attach point is a node of the tree, and the request matches all messages on its path,
    whatever the matcher does. -/
theorem findAttachPoint_matches (h : Shape heap tree) {attach : SessionTree.AttachPoint}
    (hfind : tree.findAttachPoint heap matcher request = .ok attach) {a : Nat}
    (ha : attach.node = some a) :
    a ∈ tree.nodes ∧ Matches matcher (heap.pathMessages a) request := by
  obtain ⟨final, hrun, hrest⟩ := bind_eq_ok.mp hfind
  have hroots : ∀ e ∈ tree.roots.map (·, 0), e.1 ∈ tree.nodes ∧
      Matches matcher (heap.parentMessages e.1) request ∧
      e.2 = (heap.parentMessages e.1).length := by
    intro e he
    obtain ⟨r, hr, rfl⟩ := List.mem_map.mp he
    rw [h.roots, List.mem_filter, decide_eq_true_iff] at hr
    have hnone : heap.parentMessages r = [] := by
      unfold Heap.parentMessages
      rw [hr.2]
      rfl
    dsimp only
    rw [hnone]
    exact ⟨hr.1, .nil request, rfl⟩
  have hmatches := searchLoop_matches h hroots (fun b hb => by cases hb) hrun
  cases hbest : final.best with
  | none =>
    rw [hbest] at hrest
    cases hrest
    cases ha
  | some b =>
    rw [hbest] at hrest
    cases hrest
    cases ha
    exact hmatches a hbest

end Matching

/-! ## The law of the forest -/

/-- What the forest of a session promises, by seq. -/
structure Lawful (heap : Heap Msg Args) (tree : SessionTree) : Prop where
  seq : tree.nodes.map heap.seq = List.range tree.nodes.length
  parent : ∀ a ∈ tree.nodes, ∀ p, heap.parentOf a = some p →
    p ∈ tree.nodes ∧ heap.seq p < heap.seq a
  /-- the children lists are the inverse of the parent pointers, in increasing seq order -/
  children : ∀ a ∈ tree.nodes, ∀ n, heap[a]? = some n →
    (∀ b, b ∈ n.children ↔ b ∈ tree.nodes ∧ heap.parentOf b = some a) ∧
      (n.children.map heap.seq).Pairwise (· < ·)
  answer : ∀ a ∈ tree.nodes, ∀ n, heap[a]? = some n →
    n.deltaMessages ≠ [] ∧ n.deltaMessages.getLast? = some n.record.assistantMessage
  latest : ∀ a, latest tree = some a → a ∈ tree.leaves heap
  truncated : ∀ a ∈ tree.nodes, ∀ n, heap[a]? = some n → n.finishReason = .length →
    n.children = []
  cap : tree.nodes.length ≤ maxNodes

/-- A forest keeps its promises. -/
theorem Forest.lawful {heap : Heap Msg Args} {tree : SessionTree} (h : Forest heap tree) :
    Lawful heap tree where
  seq := h.map_seq
  parent := by
    intro a ha p hp
    obtain ⟨hpm, hlt⟩ := h.parent a ha p hp
    exact ⟨hpm, h.seq_lt_seq hpm ha hlt⟩
  children := by
    intro a ha n hn
    have hchildren := h.children a ha n hn
    constructor
    · intro b
      rw [hchildren, List.mem_filter, decide_eq_true_iff]
    · rw [hchildren, List.pairwise_map]
      refine (List.Pairwise.and_mem.mp (h.increasing.filter _)).imp ?_
      intro b c hbc
      exact h.seq_lt_seq (List.mem_of_mem_filter hbc.1) (List.mem_of_mem_filter hbc.2.1) hbc.2.2
  answer := by
    intro a ha n hn
    have hlast := h.answer a ha n hn
    refine ⟨fun hnil => ?_, hlast⟩
    rw [hnil] at hlast
    cases hlast
  latest := by
    intro a ha
    have hmem : a ∈ tree.nodes := List.mem_of_getLast? ha
    obtain ⟨n, hn⟩ := h.node hmem
    unfold SessionTree.leaves
    rw [List.mem_filter, hn]
    exact ⟨hmem, by rw [Option.all_some, h.latest_leaf ha hn]; rfl⟩
  truncated := fun a ha n hn hlength => h.truncated a ha n hn (decide_eq_true hlength)
  cap := h.cap

/-! ## Commits -/

/-- A node that a commit may continue: none, or a node of the tree that is not truncated. -/
def Attachable (heap : Heap Msg Args) (tree : SessionTree) (parent : Option Nat) : Prop :=
  ∀ p, parent = some p → p ∈ tree.nodes ∧ ∀ n, heap[p]? = some n → n.truncated = false

section Commit

variable {cfg : Config Msg Args} {heap heap' : Heap Msg Args} {tree tree' : SessionTree}
  {parent : Option Nat}

/-- Phase 1 gives a request a node that it may continue. -/
theorem prepare_attachable (h : Forest heap tree) {client : ClientArgs Msg Args}
    {body : RequestBody Msg Args}
    (hprepare : prepareTokenIdsAndRequestArgs cfg heap tree client = .ok (body, parent)) :
    Attachable heap tree parent := by
  obtain ⟨attach, hattach, hrest⟩ := bind_eq_ok.mp hprepare
  obtain ⟨body', -, hrest⟩ := bind_eq_ok.mp hrest
  obtain ⟨inputIds, -, hrest⟩ := bind_eq_ok.mp hrest
  cases hrest
  obtain ⟨found, hfind, hguard⟩ := bind_eq_ok.mp hattach
  split at hguard
  · cases hguard
  · rename_i hopen
    cases hguard
    intro p hp
    refine ⟨(findAttachPoint_matches h.toShape hfind hp).1, fun n hn => ?_⟩
    rw [hp, Option.any_some, hn, Option.any_some] at hopen
    exact Bool.eq_false_of_not_eq_true hopen

/-- The node that a commit adopts. -/
def committedNode (heap : Heap Msg Args) (tree : SessionTree) (parent : Option Nat)
    (record : SessionRecord Msg Args) (finishReason : FinishReason) : TrajectoryNode Msg Args :=
  let allTokenIds := record.request.inputIds ++ record.completionTokenIds
  { deltaMessages := record.request.messages.drop (parent.elim [] heap.pathMessages).length ++
      [record.assistantMessage]
    tokenIds := allTokenIds
    completionSpan := (record.request.inputIds.length, allTokenIds.length)
    seq := tree.nodes.length
    record
    finishReason
    turnArgs := record.request
    parent }

theorem commitGeneration_eq_ok {record : SessionRecord Msg Args} {finishReason : FinishReason}
    (hcommit : commitGeneration cfg heap tree parent record finishReason = .ok (heap', tree')) :
    assertPretokenizedPrefix ((parent.bind fun a => heap[a]?.map TrajectoryNode.tokenIds).getD [])
        (record.request.inputIds ++ record.completionTokenIds) cfg.tokenizer.maxTrimTokens =
      .ok () ∧
    tree.nodes.length < maxNodes ∧
    (heap', tree') =
      SessionTree.adopt heap tree (committedNode heap tree parent record finishReason) := by
  obtain ⟨_, hcheck, hcreate⟩ := bind_eq_ok.mp hcommit
  unfold SessionTree.createNode at hcreate
  split at hcreate
  · cases hcreate
  · rename_i hcap
    exact ⟨hcheck, Nat.lt_of_not_le hcap, (Except.ok.inj hcreate).symm⟩

/-- A commit adopts a node under its attach point, with the tokens that it checked against that
    node's. -/
theorem commitGeneration_adoptable {record : SessionRecord Msg Args}
    {finishReason : FinishReason} (hparent : Attachable heap tree parent)
    (hcommit : commitGeneration cfg heap tree parent record finishReason = .ok (heap', tree')) :
    assertPretokenizedPrefix ((parent.bind fun a => heap[a]?.map TrajectoryNode.tokenIds).getD [])
        (record.request.inputIds ++ record.completionTokenIds) cfg.tokenizer.maxTrimTokens =
      .ok () ∧
    ∃ node, Adoptable heap tree node ∧ node.parent = parent ∧ node.record = record ∧
      node.tokenIds = record.request.inputIds ++ record.completionTokenIds ∧
      (heap', tree') = SessionTree.adopt heap tree node := by
  obtain ⟨hcheck, hcap, hadopt⟩ := commitGeneration_eq_ok hcommit
  refine ⟨hcheck, _, ⟨rfl, rfl, ?_, ?_, hcap⟩, rfl, rfl, rfl, hadopt⟩
  · exact List.getLast?_concat ..
  · exact hparent

/-- A commit writes to the nodes of its own tree only. -/
theorem adopt_agree {node : TrajectoryNode Msg Args} (hparent : Attachable heap tree node.parent)
    {b : Nat} (hb : b < heap.length) (hother : b ∉ tree.nodes) :
    (SessionTree.adopt heap tree node).1[b]? = heap[b]? := by
  have hne : node.parent ≠ some b := fun hp => hother (hparent b hp).1
  rw [getElem?_adopt hb]
  cases heap[b]? with
  | none => rfl
  | some n =>
    show some (withChild heap node b n) = some n
    rw [withChild, if_neg hne]

/-- What may be continued stays so while other generations are committed. -/
theorem Attachable.adopt (h : Attachable heap tree parent) (hforest : Forest heap tree)
    (node : TrajectoryNode Msg Args) :
    Attachable (SessionTree.adopt heap tree node).1 (SessionTree.adopt heap tree node).2
      parent := by
  intro p hp
  obtain ⟨hmem, hopen⟩ := h p hp
  refine ⟨by rw [nodes_adopt]; exact List.mem_append_left _ hmem, fun n hn => ?_⟩
  rw [getElem?_adopt (hforest.present p hmem)] at hn
  obtain ⟨n₀, hn₀, rfl⟩ := Option.map_eq_some_iff.mp hn
  unfold TrajectoryNode.truncated
  rw [(withChild_fields p n₀).2.2.2.2]
  exact hopen n₀ hn₀

end Commit

/-! ## Runs -/

namespace SessionWorld

/-- What holds between any two events. -/
structure Inv (w : SessionWorld Msg Args) : Prop where
  forest : Forest w.heap w.tree
  inFlight : ∀ r ∈ w.inFlight, Attachable w.heap w.tree r.parent
  /-- a snapshot is a forest that shares no node with the live tree -/
  snapshots : ∀ copy ∈ w.snapshots, Forest w.heap copy ∧ ∀ b ∈ copy.nodes, b ∉ w.tree.nodes

/-- What an event keeps of the snapshots. -/
def Keeps (w w' : SessionWorld Msg Args) : Prop :=
  ∀ copy ∈ w.snapshots, copy ∈ w'.snapshots ∧ copy.view w'.heap = copy.view w.heap

variable {cfg : Config Msg Args} {w w' : SessionWorld Msg Args}

/-- What phase 3 commits, if it commits. -/
theorem finishRequest_commit {r : InFlight Msg Args} {result : ProxyResult Msg}
    {heap : Heap Msg Args} {tree : SessionTree}
    (hfinish : w.finishRequest cfg r result = .ok (some (heap, tree))) :
    ∃ message ids, result.statusCode = 200 ∧ extractCompletion result = .ok (message, ids) ∧
      w.closing = false ∧
      commitGeneration cfg w.heap w.tree r.parent
        { requestId := r.requestId, request := r.body,
          assistantMessage := cfg.tokenizer.postprocessCompletion message ids,
          completionTokenIds := ids } result.choice.finishReason = .ok (heap, tree) := by
  unfold finishRequest at hfinish
  split at hfinish
  · cases hfinish
  · rename_i hstatus
    obtain ⟨⟨message, ids⟩, hextract, hfinish⟩ := bind_eq_ok.mp hfinish
    dsimp only at hfinish
    split at hfinish
    · cases hfinish
    · rename_i hopen
      refine ⟨message, ids, not_not.mp hstatus, hextract, Bool.eq_false_of_not_eq_true hopen, ?_⟩
      cases hcommit : commitGeneration cfg w.heap w.tree r.parent
          { requestId := r.requestId, request := r.body,
            assistantMessage := cfg.tokenizer.postprocessCompletion message ids,
            completionTokenIds := ids } result.choice.finishReason with
      | error e =>
        rw [hcommit] at hfinish
        cases hfinish
      | ok state =>
        rw [hcommit] at hfinish
        exact congrArg Except.ok (Option.some.inj (Except.ok.inj hfinish))

/-- An event that writes to no node. -/
theorem inv_of_same (h : Inv w) (hheap : w'.heap = w.heap) (htree : w'.tree = w.tree)
    (hsnapshots : w'.snapshots = w.snapshots)
    (hinFlight : ∀ r ∈ w'.inFlight, Attachable w.heap w.tree r.parent) :
    Inv w' ∧ Keeps w w' := by
  refine ⟨⟨?_, ?_, ?_⟩, fun copy hcopy => ?_⟩
  · rw [hheap, htree]
    exact h.forest
  · rw [hheap, htree]
    exact hinFlight
  · rw [hheap, htree, hsnapshots]
    exact h.snapshots
  · rw [hheap, hsnapshots]
    exact ⟨hcopy, rfl⟩

/-- A commit of a request in flight. -/
theorem inv_commit (h : Inv w) {node : TrajectoryNode Msg Args}
    (hnode : Adoptable w.heap w.tree node)
    (hheap : w'.heap = (SessionTree.adopt w.heap w.tree node).1)
    (htree : w'.tree = (SessionTree.adopt w.heap w.tree node).2)
    (hsnapshots : w'.snapshots = w.snapshots) (hinFlight : ∀ r ∈ w'.inFlight, r ∈ w.inFlight) :
    Inv w' ∧ Keeps w w' := by
  have hagree : ∀ copy ∈ w.snapshots, ∀ b ∈ copy.nodes, w'.heap[b]? = w.heap[b]? := by
    intro copy hcopy b hb
    obtain ⟨hforest, hdisjoint⟩ := h.snapshots copy hcopy
    rw [hheap]
    exact adopt_agree hnode.parent (hforest.present b hb) (hdisjoint b hb)
  refine ⟨⟨?_, ?_, ?_⟩, fun copy hcopy => ?_⟩
  · rw [hheap, htree]
    exact h.forest.adopt hnode
  · intro r hr
    rw [hheap, htree]
    exact (h.inFlight r (hinFlight r hr)).adopt h.forest node
  · intro copy hcopy
    rw [hsnapshots] at hcopy
    obtain ⟨hforest, hdisjoint⟩ := h.snapshots copy hcopy
    refine ⟨(hforest.of_agree (hagree copy hcopy)).1, fun b hb hmem => ?_⟩
    rw [htree, nodes_adopt, List.mem_append, List.mem_singleton] at hmem
    rcases hmem with hold | rfl
    · exact hdisjoint b hb hold
    · exact Nat.lt_irrefl _ (hforest.present _ hb)
  · rw [hsnapshots]
    exact ⟨hcopy, ((h.snapshots copy hcopy).1.of_agree (hagree copy hcopy)).2⟩

/-- A collection can always take its snapshot, which is isomorphic to the live tree. -/
theorem collect_spec (cfg : Config Msg Args) (h : Inv w) (hregistered : w.registered = true)
    (hopen : w.closing = false) :
    ∃ w' copy, step cfg w .collect = some w' ∧ Inv w' ∧ Keeps w w' ∧
      w'.snapshots = w.snapshots ++ [copy] ∧ copy.view w'.heap = w.tree.view w.heap := by
  obtain ⟨heap', copy, hsnapshot, hforest, hview, hold, hfresh, hgrown⟩ := snapshot_spec h.forest
  have hagree : ∀ tree : SessionTree, Forest w.heap tree →
      ∀ b ∈ tree.nodes, heap'[b]? = w.heap[b]? := fun tree htree b hb =>
    hold b (htree.present b hb)
  have hstep : step cfg w .collect =
      some { w with heap := heap', snapshots := w.snapshots ++ [copy] } := by
    simp [step, hregistered, hopen, hsnapshot]
  refine ⟨_, copy, hstep, ⟨?_, ?_, ?_⟩, ?_, rfl, hview⟩
  · exact (h.forest.of_agree (hagree _ h.forest)).1
  · intro r hr p hp
    obtain ⟨hmem, hopen⟩ := h.inFlight r hr p hp
    refine ⟨hmem, fun n hn => hopen n ?_⟩
    rw [← hagree _ h.forest p hmem]
    exact hn
  · intro other hother
    rcases List.mem_append.mp hother with hmem | hmem
    · obtain ⟨hotherForest, hdisjoint⟩ := h.snapshots other hmem
      exact ⟨(hotherForest.of_agree (hagree _ hotherForest)).1, hdisjoint⟩
    · obtain rfl : other = copy := List.mem_singleton.mp hmem
      refine ⟨hforest, fun b hb hlive => ?_⟩
      have hge := hfresh b hb
      have hlt := h.forest.present b hlive
      omega
  · intro other hother
    have hotherForest := (h.snapshots other hother).1
    exact ⟨List.mem_append_left _ hother, (hotherForest.of_agree (hagree _ hotherForest)).2⟩

/-- Every event keeps the forest, the attach points in flight and the snapshots. -/
theorem inv_step (h : Inv w) {e : Event Msg Args} (hstep : step cfg w e = some w') :
    Inv w' ∧ Keeps w w' := by
  have hothers : ∀ requestId, ∀ r ∈ w.others requestId, r ∈ w.inFlight :=
    fun _ _ hr => List.mem_of_mem_filter hr
  cases e with
  | chat requestId client =>
    simp only [step] at hstep
    split at hstep
    · cases hstep
    · cases hstep
      unfold chat
      dsimp only
      split
      · split
        · exact inv_of_same h rfl rfl rfl h.inFlight
        · rename_i body parent hprepare
          refine inv_of_same h rfl rfl rfl fun r hr => ?_
          rcases List.mem_cons.mp hr with rfl | hmem
          · -- the request has just looked its attach point up
            unfold prepareRequest at hprepare
            split at hprepare
            · cases hprepare
            · obtain ⟨found, hfound, hrest⟩ := bind_eq_ok.mp hprepare
              obtain ⟨body', -, hrest⟩ := bind_eq_ok.mp hrest
              cases hrest
              exact prepare_attachable h.forest hfound
          · exact h.inFlight r hmem
      · exact inv_of_same h rfl rfl rfl h.inFlight
  | answer requestId result =>
    obtain ⟨r, hfind, rfl⟩ := Option.map_eq_some_iff.mp hstep
    have hr : r ∈ w.inFlight := List.mem_of_find?_eq_some hfind
    have hrest : ∀ r' ∈ w.others r.requestId, Attachable w.heap w.tree r'.parent :=
      fun r' hr' => h.inFlight r' (hothers _ r' hr')
    unfold answer
    dsimp only
    split
    · rename_i heap tree hfinish
      -- only a commit changes the forest, by the node that it adopts
      obtain ⟨node, hnode, hadopt⟩ : ∃ node, Adoptable w.heap w.tree node ∧
          (heap, tree) = SessionTree.adopt w.heap w.tree node := by
        obtain ⟨message, ids, -, -, -, hcommit⟩ := finishRequest_commit hfinish
        obtain ⟨-, node, hnode, -, -, -, hadopt⟩ :=
          commitGeneration_adoptable (h.inFlight r hr) hcommit
        exact ⟨node, hnode, hadopt⟩
      exact inv_commit h hnode (congrArg Prod.fst hadopt) (congrArg Prod.snd hadopt) rfl
        (hothers r.requestId)
    · exact inv_of_same h rfl rfl rfl hrest
  | cancel requestId =>
    obtain ⟨r, -, rfl⟩ := Option.map_eq_some_iff.mp hstep
    exact inv_of_same h rfl rfl rfl fun r' hr' => h.inFlight r' (hothers _ r' hr')
  | collect =>
    by_cases hlive : w.registered = true ∧ ¬ w.closing = true
    · obtain ⟨w₁, copy, hcollect, hinv, hkeeps, -, -⟩ := collect_spec cfg h hlive.1
        (Bool.eq_false_of_not_eq_true hlive.2)
      rw [hcollect] at hstep
      cases hstep
      exact ⟨hinv, hkeeps⟩
    · rw [step, if_neg hlive] at hstep
      cases hstep
  | delete =>
    simp only [step] at hstep
    split at hstep
    · cases hstep
      exact inv_of_same h rfl rfl rfl h.inFlight
    · cases hstep
  | remove =>
    simp only [step] at hstep
    split at hstep
    · cases hstep
      exact inv_of_same h rfl rfl rfl h.inFlight
    · cases hstep

theorem inv_initial : Inv ({} : SessionWorld Msg Args) where
  forest := Forest.empty []
  inFlight := fun _ hr => nomatch hr
  snapshots := fun _ hcopy => nomatch hcopy

/-- What a run keeps. -/
theorem inv_run (h : Inv w) {es : List (Event Msg Args)} (hrun : Lts.run (step cfg) w es = some w') :
    Inv w' ∧ Keeps w w' := by
  have hkept : ∀ (v : SessionWorld Msg Args) e v', Inv v ∧ Keeps w v → step cfg v e = some v' →
      Inv v' ∧ Keeps w v' := by
    intro v e v' ⟨hv, hbefore⟩ hstep
    obtain ⟨hv', hafter⟩ := inv_step hv hstep
    refine ⟨hv', fun copy hcopy => ?_⟩
    obtain ⟨hmem, hview⟩ := hbefore copy hcopy
    obtain ⟨hmem', hview'⟩ := hafter copy hmem
    exact ⟨hmem', hview'.trans hview⟩
  exact Lts.run_invariant hkept ⟨h, fun copy hcopy => ⟨hcopy, rfl⟩⟩ hrun

/-- In every interleaving of requests, commits, cancellations and collections the session's forest
    keeps its promises; a collection of an open session takes a snapshot that is isomorphic to the
    forest at that time, and no later event changes it. -/
theorem forest_of_run (cfg : Config Msg Args) (es : List (Event Msg Args))
    (w : SessionWorld Msg Args) (h : Lts.run (step cfg) {} es = some w) :
    Lawful w.heap w.tree ∧
    (w.registered = true → w.closing = false →
      ∃ w₁ copy, step cfg w .collect = some w₁ ∧ w₁.snapshots = w.snapshots ++ [copy] ∧
        ∀ fs w₂, Lts.run (step cfg) w₁ fs = some w₂ →
          copy ∈ w₂.snapshots ∧ copy.view w₂.heap = w.tree.view w.heap ∧
            Lawful w₂.heap copy) := by
  have hinv : Inv w := (inv_run inv_initial h).1
  refine ⟨hinv.forest.lawful, fun hregistered hopen => ?_⟩
  obtain ⟨w₁, copy, hcollect, hinv₁, -, hsnapshots, hview⟩ :=
    collect_spec cfg hinv hregistered hopen
  refine ⟨w₁, copy, hcollect, hsnapshots, fun fs w₂ hrun => ?_⟩
  have hmem : copy ∈ w₁.snapshots := by
    rw [hsnapshots]
    exact List.mem_append_right _ (List.mem_singleton.mpr rfl)
  obtain ⟨hinv₂, hkeeps⟩ := inv_run hinv₁ hrun
  obtain ⟨hmem₂, hview₂⟩ := hkeeps copy hmem
  exact ⟨hmem₂, hview₂.trans hview, (hinv₂.snapshots copy hmem₂).1.lawful⟩

/-- Two requests continue the first answer at the same time, a collection comes between their
    commits and a third request continues the first of them. -/
def branchingRun : List (Event PlainMessage Unit) :=
  [.chat 0 ⟨[⟨1, 0⟩], ()⟩, .answer 0 (plainAnswer ⟨2, 0⟩ [2]),
   .chat 1 ⟨[⟨1, 0⟩, ⟨2, 0⟩, ⟨3, 0⟩], ()⟩, .chat 2 ⟨[⟨1, 0⟩, ⟨2, 0⟩, ⟨4, 0⟩], ()⟩,
   .answer 2 (plainAnswer ⟨5, 0⟩ [5])]

/-- The snapshot between the two commits stays without the second. -/
theorem forest_of_branchingRun :
    ∃ w w₁ w₂, ∃ copy : SessionTree, Lts.run (step plainConfig) {} branchingRun = some w ∧
      step plainConfig w .collect = some w₁ ∧
      Lts.run (step plainConfig) w₁ [.answer 1 (plainAnswer ⟨6, 0⟩ [6])] = some w₂ ∧
      Lawful w.heap w.tree ∧ copy.view w₂.heap = w.tree.view w.heap ∧
      w₂.tree.view w₂.heap ≠ w.tree.view w.heap := by
  have h : Lts.run (step plainConfig) {} branchingRun = some _ := rfl
  obtain ⟨hlawful, hcollect⟩ := forest_of_run plainConfig branchingRun _ h
  obtain ⟨w₁, copy, hstep, -, hlater⟩ := hcollect rfl rfl
  cases hstep
  exact ⟨_, _, _, copy, h, rfl, rfl, hlawful,
    (hlater [.answer 1 (plainAnswer ⟨6, 0⟩ [6])] _ rfl).2.1, by decide⟩

end SessionWorld

end Miles.Session.V2
