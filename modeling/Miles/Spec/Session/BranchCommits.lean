import Miles.Spec.Session.CollectionChains

/-!
# What a v2 session commits

Requests of a v2 session are prepared and committed apart, and others are committed in between.  A
commit goes under the node that the request was prepared against, and committed nodes do not change,
so what the request was rendered from is what its node continues.
-/

namespace Miles.Session.V2

open Except (bind_eq_ok)

variable {Msg Args : Type}

/-! ## Stored nodes -/

/-- What a node stores; only the list of its children changes. -/
def Heap.data (heap : Heap Msg Args) (a : Nat) : Option (TrajectoryNode Msg Args) :=
  heap[a]?.map fun node => { node with children := [] }

/-- The request that a node was committed for. -/
def Heap.requestId (heap : Heap Msg Args) (a : Nat) : Nat :=
  (heap[a]?.map fun node => node.record.requestId).getD 0

/-- A tree that keeps its nodes, in order, with what they store. -/
structure Kept (heap heap' : Heap Msg Args) (tree tree' : SessionTree) : Prop where
  nodes : tree.nodes <+: tree'.nodes
  data : ∀ a ∈ tree.nodes, heap'.data a = heap.data a

section Data

variable {heap heap' heap'' : Heap Msg Args} {tree tree' tree'' : SessionTree} {a : Nat}

/-- What is read of a stored node does not depend on its children. -/
theorem reads_of_data {β : Type} (f : TrajectoryNode Msg Args → β)
    (hf : ∀ node children, f { node with children } = f node) (h : heap'.data a = heap.data a) :
    heap'[a]?.map f = heap[a]?.map f := by
  have hdata : ∀ hp : Heap Msg Args, (hp.data a).map f = hp[a]?.map f := by
    intro hp
    unfold Heap.data
    rw [Option.map_map]
    cases hp[a]? with
    | none => rfl
    | some node => exact congrArg some (hf node [])
  rw [← hdata, ← hdata, h]

theorem parentOf_of_some {node : TrajectoryNode Msg Args} (h : heap[a]? = some node) :
    heap.parentOf a = node.parent := by
  unfold Heap.parentOf
  rw [h]
  rfl

theorem parentOf_of_data (h : heap'.data a = heap.data a) : heap'.parentOf a = heap.parentOf a := by
  have hread := reads_of_data TrajectoryNode.parent (fun _ _ => rfl) h
  have hjoin : ∀ hp : Heap Msg Args, hp.parentOf a = (hp[a]?.map TrajectoryNode.parent).join := by
    intro hp
    unfold Heap.parentOf
    cases hp[a]? <;> rfl
  rw [hjoin, hjoin, hread]

theorem deltaMessages_of_data (h : heap'.data a = heap.data a) :
    heap'.deltaMessages a = heap.deltaMessages a := by
  unfold Heap.deltaMessages
  rw [reads_of_data TrajectoryNode.deltaMessages (fun _ _ => rfl) h]

theorem parentTokenIds_of_data (h : heap'.data a = heap.data a) :
    parentTokenIds heap' (some a) = parentTokenIds heap (some a) := by
  unfold parentTokenIds
  rw [Option.bind_some, Option.bind_some, reads_of_data TrajectoryNode.tokenIds (fun _ _ => rfl) h]

theorem requestId_of_data (h : heap'.data a = heap.data a) :
    heap'.requestId a = heap.requestId a := by
  unfold Heap.requestId
  rw [reads_of_data (fun node => node.record.requestId) (fun _ _ => rfl) h]

theorem Kept.refl (heap : Heap Msg Args) (tree : SessionTree) : Kept heap heap tree tree :=
  ⟨List.prefix_rfl, fun _ _ => rfl⟩

/-- Keeping a tree is transitive. -/
theorem Kept.trans (h : Kept heap heap' tree tree') (h' : Kept heap' heap'' tree' tree'') :
    Kept heap heap'' tree tree'' :=
  ⟨h.nodes.trans h'.nodes, fun a ha => (h'.data a (h.nodes.subset ha)).trans (h.data a ha)⟩

/-- A path of stored nodes keeps its messages. -/
theorem Kept.pathMessages (h : Kept heap heap' tree tree') (hshape : Shape heap tree)
    (hshape' : Shape heap' tree') (ha : a ∈ tree.nodes) :
    heap'.pathMessages a = heap.pathMessages a := by
  induction a using Nat.strongRecOn with
  | ind a ih =>
    have hdata := h.data a ha
    rw [hshape.pathMessages_eq ha, hshape'.pathMessages_eq (h.nodes.subset ha),
      deltaMessages_of_data hdata]
    unfold Heap.parentMessages
    rw [parentOf_of_data hdata]
    cases hp : heap.parentOf a with
    | none => rfl
    | some p =>
      obtain ⟨hpm, hlt⟩ := hshape.parent a ha p hp
      show heap'.pathMessages p ++ _ = heap.pathMessages p ++ _
      rw [ih p hlt hpm]

/-- A commit keeps the nodes of its tree. -/
theorem Kept.adopt (hshape : Shape heap tree) (node : TrajectoryNode Msg Args) :
    Kept heap (SessionTree.adopt heap tree node).1 tree (SessionTree.adopt heap tree node).2 := by
  constructor
  · rw [nodes_adopt]
    exact List.prefix_append ..
  · intro a ha
    unfold Heap.data
    rw [getElem?_adopt (hshape.present a ha), Option.map_map]
    congr 1
    funext n
    show { withChild heap node a n with children := [] } = { n with children := [] }
    unfold withChild
    split <;> rfl

end Data

/-! ## Rendered requests -/

/-- A request of the run, with the prompt that the node it continues gives. -/
structure Rendered (cfg : Config Msg Args) (heap : Heap Msg Args) (es : List (Event Msg Args))
    (requestId : Nat) (parent : Option Nat) (body : RequestBody Msg Args) : Prop where
  asked : ∃ client, .chat requestId client ∈ es ∧ body.messages = client.messages
  /-- all messages stored on the path come first in the request -/
  matched : ∀ p, parent = some p → Matches cfg.matcher (heap.pathMessages p) body.messages
  prompt : renderTokenIds cfg heap parent body.messages body.args = .ok body.inputIds
  /-- the rows asked for start behind those of the stored tokens, which the prompt repeats -/
  addition : cfg.useAdditionR3 = true → body.returnRoutedExperts = true →
    let previousRows := (parentTokenIds heap parent).length - 1
    body.routedExpertsStartLen = some previousRows ∧
      body.inputIds.take previousRows = (parentTokenIds heap parent).take previousRows

/-- A committed node: the answer to one request of the run, under the node that the request was
    rendered from. -/
structure Stored (cfg : Config Msg Args) (heap : Heap Msg Args) (es : List (Event Msg Args))
    (node : TrajectoryNode Msg Args) : Prop where
  request : Rendered cfg heap es node.record.requestId node.parent node.record.request
  answered : ∃ result message, .answer node.record.requestId result ∈ es ∧
    result.statusCode = 200 ∧
    extractCompletion result = .ok (message, node.record.completionTokenIds) ∧
    node.record.assistantMessage =
      cfg.tokenizer.postprocessCompletion message node.record.completionTokenIds ∧
    node.finishReason = result.choice.finishReason
  /-- the path's messages are the stored ones, the rest of the request and the answer -/
  messages : node.deltaMessages =
    node.record.request.messages.drop (node.parent.elim [] heap.pathMessages).length ++
      [node.record.assistantMessage]
  tokens : node.tokenIds = node.record.request.inputIds ++ node.record.completionTokenIds
  checked : assertPretokenizedPrefix (parentTokenIds heap node.parent) node.tokenIds
    cfg.tokenizer.maxTrimTokens = .ok ()

section Rendering

variable {cfg : Config Msg Args} {heap heap' : Heap Msg Args} {tree tree' : SessionTree}
  {es : List (Event Msg Args)} {requestId : Nat} {parent : Option Nat} {body : RequestBody Msg Args}

/-- What a request is rendered from: the messages and the tokens of its attach point. -/
structure SameParent (heap heap' : Heap Msg Args) (parent : Option Nat) : Prop where
  pathMessages : ∀ p, parent = some p → heap'.pathMessages p = heap.pathMessages p
  tokenIds : parentTokenIds heap' parent = parentTokenIds heap parent

/-- What is kept of a tree is kept of a parent. -/
theorem Kept.sameParent (h : Kept heap heap' tree tree') (hshape : Shape heap tree)
    (hshape' : Shape heap' tree') (hparent : ∀ p, parent = some p → p ∈ tree.nodes) :
    SameParent heap heap' parent := by
  constructor
  · intro p hp
    exact h.pathMessages hshape hshape' (hparent p hp)
  · cases parent with
    | none => rfl
    | some p => exact parentTokenIds_of_data (h.data p (hparent p rfl))

/-- The same parent renders alike. -/
theorem renderTokenIds_of_same (h : SameParent heap heap' parent) (request : List Msg)
    (args : Args) :
    renderTokenIds cfg heap' parent request args = renderTokenIds cfg heap parent request args := by
  cases parent with
  | none => rfl
  | some p =>
    have htokens := h.tokenIds
    unfold parentTokenIds at htokens
    rw [Option.bind_some, Option.bind_some] at htokens
    unfold renderTokenIds
    dsimp only
    rw [h.pathMessages p rfl, htokens]

/-- What a request was rendered from does not change. -/
theorem Rendered.of_same (h : Rendered cfg heap es requestId parent body)
    (hsame : SameParent heap heap' parent) : Rendered cfg heap' es requestId parent body where
  asked := h.asked
  matched := by
    intro p hp
    rw [hsame.pathMessages p hp]
    exact h.matched p hp
  prompt := by
    rw [renderTokenIds_of_same hsame]
    exact h.prompt
  addition := by
    rw [hsame.tokenIds]
    exact h.addition

theorem Stored.of_same {node : TrajectoryNode Msg Args} (h : Stored cfg heap es node)
    (hsame : SameParent heap heap' node.parent) : Stored cfg heap' es node where
  request := h.request.of_same hsame
  answered := h.answered
  messages := by
    have hpath : node.parent.elim [] heap'.pathMessages =
        node.parent.elim [] heap.pathMessages := by
      cases hp : node.parent with
      | none => rfl
      | some p => exact hsame.pathMessages p hp
    rw [hpath]
    exact h.messages
  tokens := h.tokens
  checked := by
    rw [hsame.tokenIds]
    exact h.checked

theorem Stored.of_children {node : TrajectoryNode Msg Args} {children : List Nat}
    (h : Stored cfg heap es node) : Stored cfg heap es { node with children } :=
  ⟨h.request, h.answered, h.messages, h.tokens, h.checked⟩

/-- Phase 1 renders a request from its attach point. -/
theorem prepareRequest_rendered {w : SessionWorld Msg Args} (h : Shape w.heap w.tree)
    {client : ClientArgs Msg Args} (hasked : .chat requestId client ∈ es)
    (hprepare : w.prepareRequest cfg client = .ok (body, parent)) :
    Rendered cfg w.heap es requestId parent body := by
  unfold SessionWorld.prepareRequest at hprepare
  split at hprepare
  · cases hprepare
  · obtain ⟨⟨prepared, attached⟩, hturn, hprepare⟩ := bind_eq_ok.mp hprepare
    obtain ⟨final, haddition, hprepare⟩ := bind_eq_ok.mp hprepare
    cases hprepare
    obtain ⟨attach, hattach, hturn⟩ := bind_eq_ok.mp hturn
    obtain ⟨made, hmade, hturn⟩ := bind_eq_ok.mp hturn
    obtain ⟨inputIds, hrender, hturn⟩ := bind_eq_ok.mp hturn
    cases hturn
    have hmessages := cfg.prepare_messages _ _ _ hmade
    have hmatched : ∀ p, attach.node = some p →
        Matches cfg.matcher (w.heap.pathMessages p) client.messages := by
      intro p hp
      obtain ⟨found, hfind, hguard⟩ := bind_eq_ok.mp hattach
      split at hguard
      · cases hguard
      · cases hguard
        exact (findAttachPoint_matches h hfind hp).2
    -- the flags of additional rows are set on top of the rendered request
    unfold maybeRequestAdditionR3 at haddition
    split at haddition
    · rename_i hoff
      cases haddition
      refine ⟨⟨client, hasked, hmessages⟩, ?_, ?_, fun huse hreturn => absurd ⟨huse, hreturn⟩ hoff⟩
      · rw [hmessages]
        exact hmatched
      · dsimp only
        rw [hmessages]
        exact hrender
    · dsimp only at haddition
      split at haddition
      · rename_i hrows
        cases haddition
        refine ⟨⟨client, hasked, hmessages⟩, ?_, ?_, fun _ _ => ⟨rfl, hrows⟩⟩
        · rw [hmessages]
          exact hmatched
        · dsimp only
          rw [hmessages]
          exact hrender
      · cases haddition

end Rendering

/-! ## Runs -/

namespace SessionWorld

variable {cfg : Config Msg Args} {w w' : SessionWorld Msg Args} {es : List (Event Msg Args)}

/-- A request enters phase 2. -/
structure Enters (cfg : Config Msg Args) (w w' : SessionWorld Msg Args) (e : Event Msg Args)
    (client : ClientArgs Msg Args) (r : InFlight Msg Args) : Prop where
  event : e = .chat r.requestId client
  fresh : r.requestId ∉ w.started
  prepared : w.prepareRequest cfg client = .ok (r.body, r.parent)
  result : w' = { w with started := r.requestId :: w.started, inFlight := r :: w.inFlight }

/-- No node is written, and no request enters phase 2. -/
structure Quiet (w w' : SessionWorld Msg Args) : Prop where
  tree : w'.tree = w.tree
  heap : ∀ a ∈ w.tree.nodes, w'.heap[a]? = w.heap[a]?
  inFlight : w'.inFlight.Sublist w.inFlight
  started : w.started ⊆ w'.started

/-- The record of an answered request. -/
def record (cfg : Config Msg Args) (r : InFlight Msg Args) (message : Msg) (ids : List Nat) :
    SessionRecord Msg Args where
  requestId := r.requestId
  request := r.body
  assistantMessage := cfg.tokenizer.postprocessCompletion message ids
  completionTokenIds := ids

/-- The answer of a request in flight is committed. -/
structure Commits (cfg : Config Msg Args) (w w' : SessionWorld Msg Args) (e : Event Msg Args)
    (r : InFlight Msg Args) (result : ProxyResult Msg) (message : Msg) (ids : List Nat) : Prop where
  event : e = .answer r.requestId result
  inFlight : r ∈ w.inFlight
  status : result.statusCode = 200
  completion : extractCompletion result = .ok (message, ids)
  checked : assertPretokenizedPrefix (parentTokenIds w.heap r.parent) (r.body.inputIds ++ ids)
    cfg.tokenizer.maxTrimTokens = .ok ()
  adopted : (w'.heap, w'.tree) = SessionTree.adopt w.heap w.tree
    (committedNode w.heap w.tree r.parent (record cfg r message ids) result.choice.finishReason)
  rest : w'.inFlight = w.others r.requestId
  started : w'.started = w.started

variable {e : Event Msg Args}

/-- What one event does to the nodes and to the requests in flight. -/
theorem step_effect (h : Inv w) (hstep : step cfg w e = some w') :
    (∃ client r, Enters cfg w w' e client r) ∨ Quiet w w' ∨
      ∃ r result message ids, Commits cfg w w' e r result message ids := by
  -- an event that writes no node is quiet
  have hsame : ∀ v : SessionWorld Msg Args, v.tree = w.tree → v.heap = w.heap →
      v.inFlight.Sublist w.inFlight → w.started ⊆ v.started → Quiet w v := by
    intro v htree hheap hinFlight hstarted
    exact ⟨htree, fun a _ => by rw [hheap], hinFlight, hstarted⟩
  cases e with
  | chat requestId client =>
    simp only [step] at hstep
    split at hstep
    · cases hstep
    · rename_i hfresh
      cases hstep
      unfold chat
      dsimp only
      split
      · split
        · exact .inr (.inl (hsame _ rfl rfl (List.Sublist.refl _) (List.subset_cons_self ..)))
        · rename_i body parent hprepare
          exact .inl ⟨client, ⟨requestId, body, parent⟩, rfl, hfresh, hprepare, rfl⟩
      · exact .inr (.inl (hsame _ rfl rfl (List.Sublist.refl _) (List.subset_cons_self ..)))
  | answer requestId result =>
    obtain ⟨r, hfind, rfl⟩ := Option.map_eq_some_iff.mp hstep
    have hid : r.requestId = requestId := by simpa using List.find?_some hfind
    subst hid
    unfold answer
    dsimp only
    split
    · rename_i heap tree hfinish
      -- the answer commits, or its request is dropped
      obtain ⟨message, ids, hstatus, hextract, -, hcommit⟩ := finishRequest_commit hfinish
      obtain ⟨hcheck, -, hadopt⟩ := commitGeneration_eq_ok hcommit
      exact .inr (.inr ⟨r, result, message, ids, rfl, List.mem_of_find?_eq_some hfind, hstatus,
        hextract, hcheck, hadopt, rfl, rfl⟩)
    · exact .inr (.inl (hsame _ rfl rfl List.filter_sublist (List.Subset.refl _)))
  | cancel requestId =>
    obtain ⟨r, -, rfl⟩ := Option.map_eq_some_iff.mp hstep
    exact .inr (.inl (hsame _ rfl rfl List.filter_sublist (List.Subset.refl _)))
  | collect =>
    simp only [step] at hstep
    split at hstep
    · -- a snapshot writes to nodes of its own
      obtain ⟨heap', copy, hsnapshot, -, -, hold, -, -⟩ := snapshot_spec h.forest
      rw [hsnapshot] at hstep
      cases hstep
      exact .inr (.inl ⟨rfl, fun a ha => hold a (h.forest.present a ha), List.Sublist.refl _,
        List.Subset.refl _⟩)
    · cases hstep
  | delete =>
    simp only [step] at hstep
    split at hstep
    · cases hstep
      exact .inr (.inl (hsame _ rfl rfl (List.Sublist.refl _) (List.Subset.refl _)))
    · cases hstep
  | remove =>
    simp only [step] at hstep
    split at hstep
    · cases hstep
      exact .inr (.inl (hsame _ rfl rfl (List.Sublist.refl _) (List.Subset.refl _)))
    · cases hstep

/-- One event keeps all committed nodes. -/
theorem kept_step (h : Inv w) (hstep : step cfg w e = some w') :
    Kept w.heap w'.heap w.tree w'.tree := by
  rcases step_effect h hstep with
    ⟨client, r, henters⟩ | hquiet | ⟨r, result, message, ids, hcommits⟩
  · rw [henters.result]
    exact Kept.refl _ _
  · constructor
    · rw [hquiet.tree]
    · intro a ha
      unfold Heap.data
      rw [hquiet.heap a ha]
  · obtain ⟨hheap, htree⟩ := Prod.mk.inj hcommits.adopted
    rw [hheap, htree]
    exact Kept.adopt h.forest.toShape _

/-- Committed nodes stay as they are. -/
theorem kept_run (h : Inv w) (hrun : Lts.run (step cfg) w es = some w') :
    Inv w' ∧ Kept w.heap w'.heap w.tree w'.tree := by
  have hkept : ∀ (v : SessionWorld Msg Args) e v', Inv v ∧ Kept w.heap v.heap w.tree v.tree →
      step cfg v e = some v' → Inv v' ∧ Kept w.heap v'.heap w.tree v'.tree := by
    intro v e v' hv hstep
    exact ⟨(inv_step hv.1 hstep).1, hv.2.trans (kept_step hv.1 hstep)⟩
  exact Lts.run_invariant hkept ⟨h, Kept.refl _ _⟩ hrun

/-- The requests in flight and those that were committed. -/
def requestIds (w : SessionWorld Msg Args) : List Nat :=
  w.inFlight.map InFlight.requestId ++ w.tree.nodes.map w.heap.requestId

/-- What holds between any two events of a run. -/
structure Ledger (cfg : Config Msg Args) (es : List (Event Msg Args))
    (w : SessionWorld Msg Args) : Prop where
  inv : Inv w
  /-- no request is committed twice, or committed and still in flight -/
  once : w.requestIds.Nodup
  started : w.requestIds ⊆ w.started
  inFlight : ∀ r ∈ w.inFlight, Rendered cfg w.heap es r.requestId r.parent r.body
  nodes : ∀ a ∈ w.tree.nodes, ∀ node, w.heap[a]? = some node → Stored cfg w.heap es node

theorem Ledger.initial : Ledger cfg es ({} : SessionWorld Msg Args) where
  inv := inv_initial
  once := List.nodup_nil
  started := List.nil_subset _
  inFlight := by simp
  nodes := by simp

/-- A request enters phase 2 with a new id, rendered from the nodes that there are. -/
theorem Ledger.enters (h : Ledger cfg es w) (hinv : Inv w') (he : e ∈ es)
    {client : ClientArgs Msg Args} {r : InFlight Msg Args} (henters : Enters cfg w w' e client r) :
    Ledger cfg es w' := by
  have hprepared := henters.prepared
  have hfresh := henters.fresh
  rw [henters.event] at he
  obtain rfl := henters.result
  refine ⟨hinv, ?_, ?_, ?_, h.nodes⟩
  · exact List.nodup_cons.mpr ⟨fun hmem => hfresh (h.started hmem), h.once⟩
  · exact List.cons_subset_cons _ h.started
  · intro q hq
    rcases List.mem_cons.mp hq with rfl | hold
    · exact prepareRequest_rendered h.inv.forest.toShape he hprepared
    · exact h.inFlight q hold

/-- Whatever a request in flight was rendered from stays. -/
theorem Ledger.inFlight_kept (h : Ledger cfg es w) (hinv : Inv w')
    (hkept : Kept w.heap w'.heap w.tree w'.tree) (hsub : ∀ r ∈ w'.inFlight, r ∈ w.inFlight) :
    ∀ r ∈ w'.inFlight, Rendered cfg w'.heap es r.requestId r.parent r.body := by
  intro r hr
  have hold := hsub r hr
  apply (h.inFlight r hold).of_same
  apply hkept.sameParent h.inv.forest.toShape hinv.forest.toShape
  exact fun p hp => (h.inv.inFlight r hold p hp).1

/-- Whatever a committed node was rendered from stays. -/
theorem Ledger.stored_kept (h : Ledger cfg es w) (hinv : Inv w')
    (hkept : Kept w.heap w'.heap w.tree w'.tree) {a : Nat} (ha : a ∈ w.tree.nodes)
    {node : TrajectoryNode Msg Args} (hnode : w'.heap[a]? = some node) :
    Stored cfg w'.heap es node := by
  obtain ⟨old, hold⟩ := h.inv.forest.node ha
  have hdata := hkept.data a ha
  unfold Heap.data at hdata
  rw [hnode, hold, Option.map_some, Option.map_some, Option.some.injEq] at hdata
  have hstored := h.nodes a ha old hold
  have hsame : SameParent w.heap w'.heap old.parent := by
    apply hkept.sameParent h.inv.forest.toShape hinv.forest.toShape
    intro p hp
    exact (h.inv.forest.parent a ha p ((parentOf_of_some hold).trans hp)).1
  have hnew : node = { old with children := node.children } := by
    have hchildren := congrArg (fun n => { n with children := node.children }) hdata
    exact hchildren
  rw [hnew]
  exact (hstored.of_same hsame).of_children

/-- An answer moves its request from those in flight to the committed ones. -/
theorem Ledger.commits (h : Ledger cfg es w) (hinv : Inv w')
    (hkept : Kept w.heap w'.heap w.tree w'.tree) (he : e ∈ es)
    {r : InFlight Msg Args} {result : ProxyResult Msg} {message : Msg} {ids : List Nat}
    (hcommits : Commits cfg w w' e r result message ids) : Ledger cfg es w' := by
  have hheap := congrArg Prod.fst hcommits.adopted
  have htree := congrArg Prod.snd hcommits.adopted
  dsimp only at hheap htree
  have hr := hcommits.inFlight
  have hrest : ∀ q ∈ w'.inFlight, q ∈ w.inFlight := by
    rw [hcommits.rest]
    exact fun q hq => List.mem_of_mem_filter hq
  rw [hcommits.event] at he
  have hparent := h.inv.inFlight r hr
  have hself : w'.heap[w.heap.length]? = some (committedNode w.heap w.tree r.parent
      (record cfg r message ids) result.choice.finishReason) := by
    rw [hheap]
    exact getElem?_adopt_self w.tree fun p hp => h.inv.forest.present p (hparent p hp).1
  have hnodes : w'.tree.nodes = w.tree.nodes ++ [w.heap.length] := by
    rw [htree]
    exact nodes_adopt
  have hids : w'.requestIds = (w.others r.requestId).map InFlight.requestId ++
      w.tree.nodes.map w.heap.requestId ++ [r.requestId] := by
    have hnew : w'.heap.requestId w.heap.length = r.requestId := by
      unfold Heap.requestId
      rw [hself]
      rfl
    have hold : w.tree.nodes.map w'.heap.requestId = w.tree.nodes.map w.heap.requestId :=
      List.map_congr_left fun a ha => requestId_of_data (hkept.data a ha)
    unfold requestIds
    rw [hcommits.rest, hnodes, List.map_append, hold, List.map_singleton, hnew, List.append_assoc]
  have hsub : ((w.others r.requestId).map InFlight.requestId ++
      w.tree.nodes.map w.heap.requestId).Sublist w.requestIds :=
    (List.filter_sublist.map _).append_right _
  have hmem : r.requestId ∈ w.inFlight.map InFlight.requestId := List.mem_map_of_mem hr
  refine ⟨hinv, ?_, ?_, h.inFlight_kept hinv hkept hrest, ?_⟩
  · rw [hids, List.nodup_append]
    refine ⟨h.once.sublist hsub, List.nodup_singleton _, ?_⟩
    intro id hid x hx heq
    rw [heq, List.mem_singleton.mp hx] at hid
    rcases List.mem_append.mp hid with hother | hnode
    · obtain ⟨q, hq, hqid⟩ := List.mem_map.mp hother
      have hne := (List.mem_filter.mp hq).2
      simp [hqid] at hne
    · exact (List.nodup_append.mp h.once).2.2 _ hmem _ hnode rfl
  · rw [hids, hcommits.started]
    intro id hid
    rcases List.mem_append.mp hid with hold | hnew
    · exact h.started (hsub.subset hold)
    · rw [List.mem_singleton.mp hnew]
      exact h.started (List.mem_append_left _ hmem)
  · intro a ha node hnode
    rw [hnodes, List.mem_append, List.mem_singleton] at ha
    rcases ha with hold | rfl
    · exact h.stored_kept hinv hkept hold hnode
    · rw [hself] at hnode
      cases hnode
      have hsame : SameParent w.heap w'.heap r.parent :=
        hkept.sameParent h.inv.forest.toShape hinv.forest.toShape fun p hp => (hparent p hp).1
      -- the node was rendered when its request was
      apply Stored.of_same _ hsame
      exact ⟨h.inFlight r hr, ⟨result, message, he, hcommits.status, hcommits.completion, rfl, rfl⟩,
        rfl, rfl, hcommits.checked⟩

/-- An event that commits nothing keeps the ledger. -/
theorem Ledger.quiet (h : Ledger cfg es w) (hinv : Inv w')
    (hkept : Kept w.heap w'.heap w.tree w'.tree) (hquiet : Quiet w w') : Ledger cfg es w' := by
  have hold : w'.tree.nodes.map w'.heap.requestId = w.tree.nodes.map w.heap.requestId := by
    rw [hquiet.tree]
    exact List.map_congr_left fun a ha => requestId_of_data (hkept.data a ha)
  have hsub : w'.requestIds.Sublist w.requestIds := by
    unfold requestIds
    rw [hold]
    exact (hquiet.inFlight.map _).append_right _
  refine ⟨hinv, h.once.sublist hsub, ?_, ?_, ?_⟩
  · exact fun id hid => hquiet.started (h.started (hsub.subset hid))
  · exact h.inFlight_kept hinv hkept fun r hr => hquiet.inFlight.subset hr
  · intro a ha node hnode
    rw [hquiet.tree] at ha
    exact h.stored_kept hinv hkept ha hnode

/-- Every event keeps the ledger. -/
theorem Ledger.step (h : Ledger cfg es w) (he : e ∈ es)
    (hstep : step cfg w e = some w') : Ledger cfg es w' := by
  have hinv := (inv_step h.inv hstep).1
  have hkept := kept_step h.inv hstep
  rcases step_effect h.inv hstep with ⟨client, r, henters⟩ | hquiet |
    ⟨r, result, message, ids, hcommits⟩
  · exact h.enters hinv he henters
  · exact h.quiet hinv hkept hquiet
  · exact h.commits hinv hkept he hcommits

/-- The ledger holds in every run. -/
theorem ledger_of_run (h : Lts.run (step cfg) {} es = some w) : Ledger cfg es w :=
  Lts.run_invariant_mem (fun _ _ _ he hv hstep => Ledger.step hv he hstep) Ledger.initial h

end SessionWorld

/-- In every reachable state of a v2 session, whatever the interleaving: every committed node is the
    answer to one request of the run, stored under the node that the request was prepared against,
    whose whole path the request matches and from whose messages and tokens its prompt was
    rendered; no request is committed twice; and no later event changes what a node stores. -/
theorem branch_commits (cfg : Config Msg Args) (es : List (Event Msg Args))
    (w : SessionWorld Msg Args) (hrun : Lts.run (SessionWorld.step cfg) {} es = some w) :
    (∀ a ∈ w.tree.nodes, ∀ node, w.heap[a]? = some node → Stored cfg w.heap es node) ∧
    (w.tree.nodes.map w.heap.requestId).Nodup ∧
    ∀ later w', Lts.run (SessionWorld.step cfg) w later = some w' →
      Kept w.heap w'.heap w.tree w'.tree := by
  have h := SessionWorld.ledger_of_run hrun
  refine ⟨h.nodes, (List.nodup_append.mp h.once).2.1, ?_⟩
  intro later w' hlater
  exact (SessionWorld.kept_run h.inv hlater).2

/-- The second branch was rendered before the first one was committed, and is stored under the node
    that it was rendered from. -/
theorem branch_commits_twoBranches :
    ∃ w node, Lts.run (SessionWorld.step plainConfig) {} (SessionWorld.branchingRun ++
        [.answer 1 (plainAnswer ⟨6, 0⟩ [6])]) = some w ∧
      w.tree.nodes.map w.heap.requestId = [0, 2, 1] ∧
      w.heap[2]? = some node ∧ node.parent = some 0 ∧ node.tokenIds = [1, 2, 3, 6] ∧
      Stored plainConfig w.heap (SessionWorld.branchingRun ++
        [.answer 1 (plainAnswer ⟨6, 0⟩ [6])]) node := by
  have h : Lts.run (SessionWorld.step plainConfig) {} (SessionWorld.branchingRun ++
    [.answer 1 (plainAnswer ⟨6, 0⟩ [6])]) = some _ := rfl
  have hstored := (branch_commits plainConfig _ _ h).1 2 (by decide) _ rfl
  exact ⟨_, _, h, rfl, rfl, rfl, rfl, hstored⟩

end Miles.Session.V2
