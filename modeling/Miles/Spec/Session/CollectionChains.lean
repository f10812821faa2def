import Miles.Spec.Session.ChainLaw
import Miles.Spec.Session.CommitSafety
import Miles.Spec.Session.LeafPicking

/-!
# Collection of a committed chain

The records of a v1 session and the path to a node of a v2 session are committed chains of turns,
with the token ids of the session or of the node as the last checkpoint.  So the law of a chain says
when a collection passes its assertions: always, unless a commit stored fewer tokens than the
checkpoint it extends.

A v1 commit does this when its request was overtaken: its prompt was rendered from a checkpoint that
a retry has rolled back, and the number of checkpoints is the same again.

## Key results

- `linked_step`, `V2.linked_step`: every event keeps the relation between a checkpoint and the next
- `collection_accepts_chains`: when collections pass their assertions, for all runs
- `collection_rejects_chain`: a run of a v1 session whose collection raises
-/

namespace Miles.Session

variable {Msg Args : Type}

/-- The token ids that the commit of a record stores. -/
def SessionRecord.tokenIds (record : SessionRecord Msg Args) : List Nat :=
  record.request.inputIds ++ record.completionTokenIds

/-- The last checkpoint is the last of the checkpoints. -/
theorem lastCheckpoint_eq (turns : List Turn) :
    lastCheckpoint turns = (turns.map Turn.checkpoint).getLast?.getD [] := by
  rw [List.getLast?_map]
  unfold lastCheckpoint
  cases turns.getLast? <;> rfl

theorem committed_iff (maxTrimTokens : Nat) (turns : List Turn) :
    Committed maxTrimTokens turns ↔ (turns.map Turn.checkpoint).IsChain fun a b =>
      assertPretokenizedPrefix a b maxTrimTokens = .ok () := by
  rw [List.isChain_map, Committed]

theorem growing_iff (turns : List Turn) :
    Growing turns ↔ (turns.map Turn.checkpoint).IsChain fun a b => a.length ≤ b.length := by
  rw [List.isChain_map, Growing]

/-! ## v1 sessions -/

/-- What the assembly reads of a record of a v1 session. -/
def recordTurn (finishReasonOf : SessionRecord Msg Args → FinishReason)
    (replayOf : SessionRecord Msg Args → Replay) (record : SessionRecord Msg Args) : Turn where
  inputIds := record.request.inputIds
  outputIds := record.completionTokenIds
  finishReason := finishReasonOf record
  replay := replayOf record

namespace LinearTrajectory

/-- The turns of a session. -/
def turns (finishReasonOf : SessionRecord Msg Args → FinishReason)
    (replayOf : SessionRecord Msg Args → Replay) (s : LinearTrajectory Msg Args) : List Turn :=
  s.records.map (recordTurn finishReasonOf replayOf)

/-- The checkpoints are those of the records, and each stands in a relation to the next. -/
structure Linked (R : List Nat → List Nat → Prop) (s : LinearTrajectory Msg Args) : Prop where
  aligned : s.Aligned
  stored : s.trajectoryTokenIds = s.records.map SessionRecord.tokenIds
  related : s.trajectoryTokenIds.IsChain R

namespace Linked

variable {R : List Nat → List Nat → Prop} {s : LinearTrajectory Msg Args}

theorem init : Linked R ({} : LinearTrajectory Msg Args) where
  aligned := .init
  stored := rfl
  related := .nil

/-- A rollback keeps the first checkpoints. -/
theorem upTo (h : Linked R s) (n : Nat) : Linked R (s.upTo n) := by
  by_cases hn : n < s.numAssistant
  · apply Linked.mk (h.aligned.upTo n)
    · rw [upTo_of_lt s hn]
      show s.trajectoryTokenIds.take n = (s.records.take n).map SessionRecord.tokenIds
      rw [h.stored, List.map_take]
    · rw [upTo_of_lt s hn]
      exact h.related.take n
  · rw [upTo_of_le s (by omega)]
    exact h

/-- A commit adds a checkpoint after the last one. -/
theorem withGeneration (h : Linked R s) {requestId : Nat} {body : RequestBody Msg Args}
    {assistantMessage : Msg} {ids : List Nat} (hR : R s.tokenIds (body.inputIds ++ ids)) :
    Linked R (s.withGeneration requestId body assistantMessage ids) := by
  apply Linked.mk (h.aligned.withGeneration requestId body assistantMessage ids)
  · show s.trajectoryTokenIds ++ [body.inputIds ++ ids] = (s.records ++ _).map _
    rw [h.stored, List.map_append]
    rfl
  · apply List.isChain_append.mpr
    refine ⟨h.related, List.isChain_singleton _, ?_⟩
    intro last hlast new hnew
    have htokens : s.tokenIds = last := by
      unfold LinearTrajectory.tokenIds
      rw [Option.mem_def.mp hlast]
      rfl
    cases hnew
    rw [← htokens]
    exact hR

/-- The turns of a session are its checkpoints, and the session's token ids are the last one. -/
theorem turns_checkpoints (h : Linked R s) (finishReasonOf : SessionRecord Msg Args → FinishReason)
    (replayOf : SessionRecord Msg Args → Replay) :
    (s.turns finishReasonOf replayOf).map Turn.checkpoint = s.trajectoryTokenIds := by
  rw [h.stored]
  unfold turns
  rw [List.map_map]
  rfl

/-- The last checkpoint of the turns is the session's. -/
theorem lastCheckpoint_turns (h : Linked R s)
    (finishReasonOf : SessionRecord Msg Args → FinishReason)
    (replayOf : SessionRecord Msg Args → Replay) :
    lastCheckpoint (s.turns finishReasonOf replayOf) = s.tokenIds := by
  rw [lastCheckpoint_eq, h.turns_checkpoints]
  rfl

end Linked

end LinearTrajectory

namespace SessionWorld

open LinearTrajectory (Linked)

/-- Whatever this step commits stands in a relation to the checkpoint that it extends. -/
def CommitsRelated (cfg : Config Msg Args) (R : List Nat → List Nat → Prop)
    (w : SessionWorld Msg Args) : Event Msg Args → Prop
  | .answer id result => ∀ r a ids, w.find id = some r → result.completion cfg = some (a, ids) →
      w.session.Admits cfg r.body r.expectedNumAssistant ids →
      R w.session.tokenIds (r.body.inputIds ++ ids)
  | _ => True

/-- This step commits no fewer tokens than the checkpoint that it extends has. -/
def GrowsAtCommit (cfg : Config Msg Args) : SessionWorld Msg Args → Event Msg Args → Prop :=
  CommitsRelated cfg fun prev allTokenIds => prev.length ≤ allTokenIds.length

instance (s : LinearTrajectory Msg Args) (cfg : Config Msg Args) (body : RequestBody Msg Args)
    (expected : Nat) (ids : List Nat) : Decidable (s.Admits cfg body expected ids) :=
  decidable_of_iff (s.closing = false ∧ s.numAssistant = expected ∧
      assertPretokenizedPrefix s.tokenIds (body.inputIds ++ ids) cfg.tokenizer.maxTrimTokens = .ok ())
    ⟨fun h => ⟨h.1, h.2.1, h.2.2⟩, fun h => ⟨h.open_, h.count, h.stored_prefix⟩⟩

instance (cfg : Config Msg Args) (R : List Nat → List Nat → Prop) [DecidableRel R]
    (w : SessionWorld Msg Args) : ∀ e, Decidable (w.CommitsRelated cfg R e)
  | .chat .. | .cancel _ | .delete | .remove => .isTrue trivial
  | .answer id result =>
    match hfind : w.find id, hcompletion : result.completion cfg with
    | some r, some (_, ids) =>
      decidable_of_iff (w.session.Admits cfg r.body r.expectedNumAssistant ids →
        R w.session.tokenIds (r.body.inputIds ++ ids)) (by simp [CommitsRelated, hfind, hcompletion])
    | none, _ => .isTrue (by simp [CommitsRelated, hfind])
    | _, none => .isTrue (by simp [CommitsRelated, hcompletion])

instance (cfg : Config Msg Args) (w : SessionWorld Msg Args) (e : Event Msg Args) :
    Decidable (GrowsAtCommit cfg w e) :=
  inferInstanceAs (Decidable (w.CommitsRelated cfg _ e))

/-- Every event keeps the relation between a checkpoint and the next. -/
theorem linked_step {cfg : Config Msg Args} {R : List Nat → List Nat → Prop}
    {w w' : SessionWorld Msg Args} {e : Event Msg Args} (h : Linked R w.session)
    (hcommits : w.CommitsRelated cfg R e) (hstep : step cfg w e = some w') :
    Linked R w'.session := by
  cases step_transition h.aligned hstep with
  | turnedAway => exact h
  | refused _ _ n => exact h.upTo n
  | prepared _ _ n => exact h.upTo n
  | skipped => exact h
  | committed r result a ids found completion admits =>
    exact h.withGeneration (hcommits r a ids found completion admits)
  | cancelled => exact h
  | closed => exact ⟨aligned_step h.aligned hstep, h.stored, h.related⟩
  | removed => exact h

variable {cfg : Config Msg Args} {es : List (Event Msg Args)} {w : SessionWorld Msg Args}

/-- Every checkpoint has passed the commit's check against the one before it. -/
theorem checked_of_run (h : Lts.run (step cfg) {} es = some w) :
    Linked (fun a b => assertPretokenizedPrefix a b cfg.tokenizer.maxTrimTokens = .ok ())
      w.session := by
  apply Lts.run_invariant (I := fun w => Linked _ w.session) _ .init h
  intro v e v' hv hstep
  apply linked_step hv _ hstep
  cases e with
  | answer id result => exact fun r a ids _ _ hadmits => hadmits.stored_prefix
  | _ => trivial

theorem growing_of_run (hgrows : Lts.StepsWhere (step cfg) (GrowsAtCommit cfg) {} es)
    (h : Lts.run (step cfg) {} es = some w) :
    Linked (fun a b => a.length ≤ b.length) w.session :=
  Lts.run_invariant_where (I := fun w => Linked _ w.session)
    (fun _ _ _ hv hC hstep => linked_step hv hC hstep) .init hgrows h

end SessionWorld

/-! ## v2 sessions -/

namespace V2

/-- The checkpoints are those of the records, and each stands in a relation to those of the node's
    children. -/
structure Linked (R : List Nat → List Nat → Prop) (heap : Heap Msg Args) (tree : SessionTree) :
    Prop where
  stored : ∀ a ∈ tree.nodes, ∀ node, heap[a]? = some node →
    node.tokenIds = node.record.tokenIds
  related : ∀ a ∈ tree.nodes, ∀ p, heap.parentOf a = some p → R (heap.tokenIds p) (heap.tokenIds a)

section Linked

variable {R : List Nat → List Nat → Prop} {heap heap' : Heap Msg Args} {tree tree' : SessionTree}

theorem Linked.empty (heap : Heap Msg Args) : Linked R heap {} where
  stored := by simp
  related := by simp

/-- The checkpoint of the node that a request continues. -/
def parentTokenIds (heap : Heap Msg Args) (parent : Option Nat) : List Nat :=
  (parent.bind fun a => heap[a]?.map TrajectoryNode.tokenIds).getD []

theorem parentTokenIds_some (heap : Heap Msg Args) (p : Nat) :
    parentTokenIds heap (some p) = heap.tokenIds p := by
  show (heap[p]?.map TrajectoryNode.tokenIds).getD [] = heap[p]?.elim [] TrajectoryNode.tokenIds
  cases heap[p]? <;> rfl

/-- The other nodes keep their tokens. -/
theorem tokenIds_adopt {node : TrajectoryNode Msg Args} {b : Nat} (hb : b < heap.length) :
    (SessionTree.adopt heap tree node).1.tokenIds b = heap.tokenIds b := by
  unfold Heap.tokenIds
  rw [getElem?_adopt hb]
  cases heap[b]? with
  | none => rfl
  | some n =>
    show (withChild heap node b n).tokenIds = n.tokenIds
    unfold withChild
    split <;> rfl

/-- A commit adds a checkpoint after that of the node it continues. -/
theorem Linked.adopt (h : Linked R heap tree) (hforest : Forest heap tree)
    {node : TrajectoryNode Msg Args} (hnode : Adoptable heap tree node)
    (hstored : node.tokenIds = node.record.tokenIds)
    (hR : R (parentTokenIds heap node.parent) node.tokenIds) :
    Linked R (SessionTree.adopt heap tree node).1 (SessionTree.adopt heap tree node).2 := by
  have hself := getElem?_adopt_self tree fun p hp => hforest.present p (hnode.parent p hp).1
  constructor
  case stored =>
    intro a ha n hn
    rw [nodes_adopt, List.mem_append, List.mem_singleton] at ha
    rcases ha with hold | rfl
    · rw [getElem?_adopt (hforest.present a hold)] at hn
      obtain ⟨n₀, hn₀, rfl⟩ := Option.map_eq_some_iff.mp hn
      have htokens : (withChild heap node a n₀).tokenIds = n₀.tokenIds := by
        unfold withChild
        split <;> rfl
      rw [htokens, (withChild_fields a n₀).2.2.2.1]
      exact h.stored a hold n₀ hn₀
    · rw [hself] at hn
      cases hn
      exact hstored
  case related =>
    intro a ha p hp
    rw [nodes_adopt, List.mem_append, List.mem_singleton] at ha
    rcases ha with hold | rfl
    · have hlt := hforest.present a hold
      rw [parentOf_adopt hlt] at hp
      have hpm := (hforest.parent a hold p hp).1
      rw [tokenIds_adopt hlt, tokenIds_adopt (hforest.present p hpm)]
      exact h.related a hold p hp
    · have hparent : node.parent = some p := by
        unfold Heap.parentOf at hp
        rw [hself] at hp
        exact hp
      have hpm := (hnode.parent p hparent).1
      have htokens : (SessionTree.adopt heap tree node).1.tokenIds heap.length = node.tokenIds := by
        unfold Heap.tokenIds
        rw [hself]
        rfl
      rw [htokens, tokenIds_adopt (hforest.present p hpm), ← parentTokenIds_some, ← hparent]
      exact hR

/-! ### Isomorphic trees -/

theorem tokenIds_of_byseq {a b : Nat} (h : heap'.byseq b = heap.byseq a) :
    heap'.tokenIds b = heap.tokenIds a := by
  have htokens : ∀ (hp : Heap Msg Args) (x : Nat),
      hp.tokenIds x = (hp.byseq x).elim [] TrajectoryNode.tokenIds := by
    intro hp x
    unfold Heap.tokenIds Heap.byseq
    cases hp[x]? <;> rfl
  rw [htokens, htokens, h]

/-- An isomorphic tree has the same checkpoints. -/
theorem Linked.of_view (h : Linked R heap tree) (hforest : Forest heap tree)
    (hforest' : Forest heap' tree') (hview : tree'.view heap' = tree.view heap) :
    Linked R heap' tree' := by
  have hnodes : tree'.nodes.map heap'.byseq = tree.nodes.map heap.byseq := congrArg Prod.fst hview
  -- every node of the one tree has its counterpart at the same place of the other
  have hsame : ∀ (i b : Nat), tree'.nodes[i]? = some b →
      ∃ a, tree.nodes[i]? = some a ∧ heap'.byseq b = heap.byseq a := by
    intro i b hb
    have hget := congrArg (·[i]?) hnodes
    simp only [List.getElem?_map, hb, Option.map_some] at hget
    obtain ⟨a, ha, heq⟩ := Option.map_eq_some_iff.mp hget.symm
    exact ⟨a, ha, heq.symm⟩
  constructor
  case stored =>
    intro b hb n hn
    obtain ⟨i, hi⟩ := List.getElem?_of_mem hb
    obtain ⟨a, ha, heq⟩ := hsame i b hi
    obtain ⟨m, hm⟩ := hforest.node (List.mem_of_getElem? ha)
    have hstored := h.stored a (List.mem_of_getElem? ha) m hm
    unfold Heap.byseq at heq
    rw [hn, hm, Option.map_some, Option.map_some, Option.some.injEq] at heq
    simp only [TrajectoryNode.mk.injEq] at heq
    rw [heq.2.1, heq.2.2.2.2.1]
    exact hstored
  case related =>
    intro b hb q hq
    obtain ⟨i, hi⟩ := List.getElem?_of_mem hb
    obtain ⟨a, ha, heq⟩ := hsame i b hi
    have ham := List.mem_of_getElem? ha
    obtain ⟨j, hj⟩ := List.getElem?_of_mem (hforest'.parent b hb q hq).1
    obtain ⟨p, hp, heqp⟩ := hsame j q hj
    -- the counterpart of the parent is the parent of the counterpart
    have hparents : (heap'.parentOf b).map heap'.seq = (heap.parentOf a).map heap.seq := by
      have hparent : ∀ (hp : Heap Msg Args) (x : Nat),
          (hp.parentOf x).map hp.seq = (hp.byseq x).bind TrajectoryNode.parent := by
        intro hp x
        unfold Heap.parentOf Heap.byseq
        cases hp[x]? <;> rfl
      rw [hparent, hparent, heq]
    rw [hq, Option.map_some, hforest'.seq j q hj] at hparents
    obtain ⟨p', hp', hseq⟩ := Option.map_eq_some_iff.mp hparents.symm
    have hpp : p' = p := hforest.seq_inj (hforest.parent a ham p' hp').1 (List.mem_of_getElem? hp)
      (by rw [hseq, hforest.seq j p hp])
    subst hpp
    rw [tokenIds_of_byseq heq, tokenIds_of_byseq heqp]
    exact h.related a ham p' hp'

/-! ### Paths -/

/-- The turns on a path are the checkpoints of its nodes. -/
theorem Linked.pathTurns_checkpoints (h : Linked R heap tree) (hshape : Shape heap tree) {a : Nat}
    (ha : a ∈ tree.nodes) (replayOf : SessionRecord Msg Args → Replay) :
    (pathTurns replayOf heap a).map Turn.checkpoint = (heap.pathNodes a).map heap.tokenIds := by
  have hpath : ∀ b ∈ heap.pathNodes a, b ∈ tree.nodes := fun b hb =>
    (hshape.mem_nodes_of_mem_pathNodes ha hb).1
  unfold pathTurns
  revert hpath
  induction heap.pathNodes a with
  | nil => exact fun _ => rfl
  | cons b rest ih =>
    intro hpath
    have hb := hpath b (List.mem_cons_self ..)
    obtain ⟨n, hn⟩ := hshape.node hb
    have hstored := h.stored b hb n hn
    have htokens : heap.tokenIds b = n.tokenIds := by
      unfold Heap.tokenIds
      rw [hn]
      rfl
    have hturn : heap[b]?.map (nodeTurn replayOf) = some (nodeTurn replayOf n) := by rw [hn]; rfl
    simp only [List.filterMap_cons, hturn, List.map_cons]
    rw [ih fun c hc => hpath c (List.mem_cons_of_mem _ hc), htokens, hstored]
    rfl

/-- The checkpoints on a path are related one by one, and the node's own is the last. -/
theorem Linked.path (h : Linked R heap tree) (hshape : Shape heap tree) {a : Nat}
    (ha : a ∈ tree.nodes) : ((heap.pathNodes a).map heap.tokenIds).IsChain R := by
  -- induction on the address: parents come first
  induction a using Nat.strong_induction_on with
  | _ a ih =>
    rw [hshape.pathNodes_eq ha]
    cases hp : heap.parentOf a with
    | none => simp
    | some p =>
      obtain ⟨hpm, hlt⟩ := hshape.parent a ha p hp
      rw [Option.elim_some, List.map_append]
      apply List.isChain_append.mpr
      refine ⟨ih p hlt hpm, List.isChain_singleton _, ?_⟩
      intro x hx y hy
      rw [hshape.pathNodes_eq hpm, List.map_append, List.map_singleton, List.getLast?_concat] at hx
      cases hx
      cases hy
      exact h.related a ha p hp

/-- The last checkpoint of a path is that of its leaf. -/
theorem Linked.lastCheckpoint_pathTurns (h : Linked R heap tree) (hshape : Shape heap tree)
    {a : Nat} (ha : a ∈ tree.nodes) (replayOf : SessionRecord Msg Args → Replay) :
    lastCheckpoint (pathTurns replayOf heap a) = heap.tokenIds a := by
  rw [lastCheckpoint_eq, h.pathTurns_checkpoints hshape ha, hshape.pathNodes_eq ha, List.map_append,
    List.map_singleton, List.getLast?_concat]
  rfl

end Linked

namespace SessionWorld

variable {cfg : Config Msg Args} {R : List Nat → List Nat → Prop} {w w' : SessionWorld Msg Args}
  {es : List (Event Msg Args)}

/-- Whatever this step commits stands in a relation to the checkpoint of the node that it
    continues. -/
def CommitsRelated (cfg : Config Msg Args) (R : List Nat → List Nat → Prop)
    (w : SessionWorld Msg Args) : Event Msg Args → Prop
  | .answer id result => ∀ r message ids, w.find id = some r → result.statusCode = 200 →
      extractCompletion result = .ok (message, ids) → w.closing = false →
      assertPretokenizedPrefix (parentTokenIds w.heap r.parent) (r.body.inputIds ++ ids)
        cfg.tokenizer.maxTrimTokens = .ok () →
      R (parentTokenIds w.heap r.parent) (r.body.inputIds ++ ids)
  | _ => True

/-- This step commits no fewer tokens than the checkpoint that it extends has. -/
def GrowsAtCommit (cfg : Config Msg Args) : SessionWorld Msg Args → Event Msg Args → Prop :=
  CommitsRelated cfg fun prev allTokenIds => prev.length ≤ allTokenIds.length

instance (cfg : Config Msg Args) (R : List Nat → List Nat → Prop) [DecidableRel R]
    (w : SessionWorld Msg Args) : ∀ e, Decidable (w.CommitsRelated cfg R e)
  | .chat .. | .cancel _ | .collect | .delete | .remove => .isTrue trivial
  | .answer id result =>
    match hfind : w.find id, hextract : extractCompletion result with
    | some r, .ok (_, ids) =>
      decidable_of_iff (result.statusCode = 200 → w.closing = false →
        assertPretokenizedPrefix (parentTokenIds w.heap r.parent) (r.body.inputIds ++ ids)
          cfg.tokenizer.maxTrimTokens = .ok () →
        R (parentTokenIds w.heap r.parent) (r.body.inputIds ++ ids)) (by
          constructor
          · intro h r' message ids' hr hstatus hextract' hopen hcheck
            cases hfind.symm.trans hr
            cases hextract.symm.trans hextract'
            exact h hstatus hopen hcheck
          · intro h hstatus hopen hcheck
            exact h r _ ids hfind hstatus hextract hopen hcheck)
    | none, _ => .isTrue (by simp [CommitsRelated, hfind])
    | _, .error _ => .isTrue (by simp [CommitsRelated, hextract])

instance (cfg : Config Msg Args) (w : SessionWorld Msg Args) (e : Event Msg Args) :
    Decidable (GrowsAtCommit cfg w e) :=
  inferInstanceAs (Decidable (w.CommitsRelated cfg _ e))

/-- The checkpoints of the live tree and of all snapshots are linked. -/
structure AllLinked (R : List Nat → List Nat → Prop) (w : SessionWorld Msg Args) : Prop where
  inv : Inv w
  live : Linked R w.heap w.tree
  snapshots : ∀ copy ∈ w.snapshots, Linked R w.heap copy

/-- What an event does to the nodes: nothing, or it commits the answer of a request in flight, or
    it takes a snapshot. -/
theorem step_nodes {e : Event Msg Args} (h : Inv w) (hstep : step cfg w e = some w') :
    (w'.heap = w.heap ∧ w'.tree = w.tree ∧ w'.snapshots = w.snapshots) ∨
    (∃ r result message ids, e = .answer r.requestId result ∧ w.find r.requestId = some r ∧
      result.statusCode = 200 ∧ extractCompletion result = .ok (message, ids) ∧
      w.closing = false ∧ w'.snapshots = w.snapshots ∧
      commitGeneration cfg w.heap w.tree r.parent
        { requestId := r.requestId, request := r.body,
          assistantMessage := cfg.tokenizer.postprocessCompletion message ids,
          completionTokenIds := ids } result.choice.finishReason = .ok (w'.heap, w'.tree)) ∨
    (∃ copy, w'.snapshots = w.snapshots ++ [copy] ∧
      w'.tree.view w'.heap = w.tree.view w.heap ∧ copy.view w'.heap = w.tree.view w.heap) := by
  cases e with
  | chat requestId client =>
    simp only [step] at hstep
    split at hstep
    · cases hstep
    · cases hstep
      apply Or.inl
      unfold chat
      dsimp only
      split
      · split <;> exact ⟨rfl, rfl, rfl⟩
      · exact ⟨rfl, rfl, rfl⟩
  | answer requestId result =>
    obtain ⟨r, hfind, rfl⟩ := Option.map_eq_some_iff.mp hstep
    have hid : r.requestId = requestId := by simpa using List.find?_some hfind
    subst hid
    unfold answer
    dsimp only
    split
    · rename_i heap tree hfinish
      obtain ⟨message, ids, hstatus, hextract, hopen, hcommit⟩ := finishRequest_commit hfinish
      exact .inr (.inl ⟨r, result, message, ids, rfl, hfind, hstatus, hextract, hopen, rfl, hcommit⟩)
    · exact .inl ⟨rfl, rfl, rfl⟩
  | cancel requestId =>
    obtain ⟨r, -, rfl⟩ := Option.map_eq_some_iff.mp hstep
    exact .inl ⟨rfl, rfl, rfl⟩
  | collect =>
    by_cases hlive : w.registered = true ∧ ¬ w.closing = true
    · obtain ⟨heap', copy, hsnapshot, -, hview, hold, -, -⟩ := snapshot_spec h.forest
      rw [step, if_pos hlive, hsnapshot] at hstep
      cases hstep
      have hlive := (h.forest.of_agree fun a ha => hold a (h.forest.present a ha)).2
      exact .inr (.inr ⟨copy, rfl, hlive, hview⟩)
    · rw [step, if_neg hlive] at hstep
      cases hstep
  | delete =>
    simp only [step] at hstep
    split at hstep
    · cases hstep
      exact .inl ⟨rfl, rfl, rfl⟩
    · cases hstep
  | remove =>
    simp only [step] at hstep
    split at hstep
    · cases hstep
      exact .inl ⟨rfl, rfl, rfl⟩
    · cases hstep

/-- Every event keeps the relation between a checkpoint and the next. -/
theorem linked_step {e : Event Msg Args} (h : AllLinked R w) (hcommits : w.CommitsRelated cfg R e)
    (hstep : step cfg w e = some w') : AllLinked R w' := by
  obtain ⟨hinv, hkeeps⟩ := inv_step h.inv hstep
  -- a snapshot of before keeps its view
  have hold : ∀ copy ∈ w.snapshots, Linked R w'.heap copy := by
    intro copy hcopy
    obtain ⟨hmem, hview⟩ := hkeeps copy hcopy
    exact (h.snapshots copy hcopy).of_view (h.inv.snapshots copy hcopy).1
      (hinv.snapshots copy hmem).1 hview
  obtain ⟨hheap, htree, hsnapshots⟩ |
      ⟨r, result, message, ids, rfl, hfind, hstatus, hextract, hopen, hsnapshots, hcommit⟩ |
      ⟨copy, hsnapshots, hlive, hview⟩ := step_nodes h.inv hstep
  · refine ⟨hinv, ?_, ?_⟩
    · rw [hheap, htree]
      exact h.live
    · rw [hsnapshots]
      exact hold
  · have hr : r ∈ w.inFlight := List.mem_of_find?_eq_some hfind
    obtain ⟨hcheck, node, hnode, hparent, hrecord, htokens, hadopt⟩ :=
      commitGeneration_adoptable (h.inv.inFlight r hr) hcommit
    refine ⟨hinv, ?_, ?_⟩
    · obtain ⟨hheap, htree⟩ := Prod.mk.inj hadopt
      rw [hheap, htree]
      apply h.live.adopt h.inv.forest hnode
      · rw [htokens, hrecord]
        rfl
      · rw [htokens, hparent]
        exact hcommits r message ids hfind hstatus hextract hopen hcheck
    · rw [hsnapshots]
      exact hold
  · have hcopy : copy ∈ w'.snapshots := by
      rw [hsnapshots]
      exact List.mem_append_right _ (List.mem_singleton.mpr rfl)
    have hlinked : Linked R w'.heap copy :=
      h.live.of_view h.inv.forest (hinv.snapshots copy hcopy).1 hview
    refine ⟨hinv, ?_, ?_⟩
    · exact h.live.of_view h.inv.forest hinv.forest hlive
    · intro other hother
      rw [hsnapshots] at hother
      rcases List.mem_append.mp hother with hmem | hmem
      · exact hold other hmem
      · rw [List.mem_singleton.mp hmem]
        exact hlinked

theorem AllLinked.initial : AllLinked R ({} : SessionWorld Msg Args) where
  inv := inv_initial
  live := .empty []
  snapshots := by simp

/-- Every checkpoint has passed the commit's check against that of the node it continues. -/
theorem checked_of_run (h : Lts.run (step cfg) {} es = some w) :
    AllLinked (fun a b => assertPretokenizedPrefix a b cfg.tokenizer.maxTrimTokens = .ok ()) w := by
  apply Lts.run_invariant (I := fun w => AllLinked _ w) _ .initial h
  intro v e v' hv hstep
  apply linked_step hv _ hstep
  cases e with
  | answer id result => exact fun r message ids _ _ _ _ hcheck => hcheck
  | _ => trivial

theorem growing_of_run (hgrows : Lts.StepsWhere (step cfg) (GrowsAtCommit cfg) {} es)
    (h : Lts.run (step cfg) {} es = some w) :
    AllLinked (fun a b => a.length ≤ b.length) w :=
  Lts.run_invariant_where (I := fun w => AllLinked _ w)
    (fun _ _ _ hv hC hstep => linked_step hv hC hstep) .initial hgrows h

theorem AllLinked.of_mem (h : AllLinked R w) {tree : SessionTree}
    (htree : tree ∈ w.tree :: w.snapshots) : Linked R w.heap tree ∧ Shape w.heap tree := by
  rcases List.mem_cons.mp htree with rfl | hcopy
  · exact ⟨h.live, h.inv.forest.toShape⟩
  · exact ⟨h.snapshots tree hcopy, (h.inv.snapshots tree hcopy).1.toShape⟩

end SessionWorld

end V2

/-! ## Collection -/

/-- In every reachable v1 session, and on every path of a live v2 tree or of a snapshot of it, the
    assembly of the chain raises nothing, and every turn keeps a slice of the accumulated ids, if
    and only if the last checkpoint has the outputs that a later commit did not look at.  In
    particular it does so in every run whose commits store no fewer tokens than the checkpoints
    that they extend. -/
theorem collection_accepts_chains (cfg : Config Msg Args)
    (finishReasonOf : SessionRecord Msg Args → FinishReason)
    (replayOf : SessionRecord Msg Args → Replay) :
    (∀ (es : List (Event Msg Args)) (w : SessionWorld Msg Args),
      Lts.run (SessionWorld.step cfg) {} es = some w →
      (Collected cfg.tokenizer.maxTrimTokens (w.session.turns finishReasonOf replayOf)
          w.session.tokenIds ↔
        KeepsUnchecked cfg.tokenizer.maxTrimTokens (w.session.turns finishReasonOf replayOf)) ∧
      (Lts.StepsWhere (SessionWorld.step cfg) (SessionWorld.GrowsAtCommit cfg) {} es →
        Collected cfg.tokenizer.maxTrimTokens (w.session.turns finishReasonOf replayOf)
          w.session.tokenIds)) ∧
    ∀ (es : List (V2.Event Msg Args)) (w : V2.SessionWorld Msg Args),
      Lts.run (V2.SessionWorld.step cfg) {} es = some w →
      ∀ tree ∈ w.tree :: w.snapshots, ∀ a ∈ tree.nodes,
      (Collected cfg.tokenizer.maxTrimTokens (V2.pathTurns replayOf w.heap a)
          (w.heap.tokenIds a) ↔
        KeepsUnchecked cfg.tokenizer.maxTrimTokens (V2.pathTurns replayOf w.heap a)) ∧
      (Lts.StepsWhere (V2.SessionWorld.step cfg) (V2.SessionWorld.GrowsAtCommit cfg) {} es →
        Collected cfg.tokenizer.maxTrimTokens (V2.pathTurns replayOf w.heap a)
          (w.heap.tokenIds a)) := by
  constructor
  · intro es w h
    have hchecked := SessionWorld.checked_of_run h
    have hcommitted : Committed cfg.tokenizer.maxTrimTokens
        (w.session.turns finishReasonOf replayOf) := by
      rw [committed_iff, hchecked.turns_checkpoints]
      exact hchecked.related
    rw [← hchecked.lastCheckpoint_turns finishReasonOf replayOf]
    refine ⟨collected_iff hcommitted, fun hgrows => collected_of_growing hcommitted ?_⟩
    have hgrowing := SessionWorld.growing_of_run hgrows h
    rw [growing_iff, hgrowing.turns_checkpoints]
    exact hgrowing.related
  · intro es w h tree htree a ha
    obtain ⟨hchecked, hshape⟩ := (V2.SessionWorld.checked_of_run h).of_mem htree
    have hcommitted : Committed cfg.tokenizer.maxTrimTokens (V2.pathTurns replayOf w.heap a) := by
      rw [committed_iff, hchecked.pathTurns_checkpoints hshape ha]
      exact hchecked.path hshape ha
    rw [← hchecked.lastCheckpoint_pathTurns hshape ha replayOf]
    refine ⟨collected_iff hcommitted, fun hgrows => collected_of_growing hcommitted ?_⟩
    obtain ⟨hgrowing, -⟩ := (V2.SessionWorld.growing_of_run hgrows h).of_mem htree
    rw [growing_iff, hgrowing.pathTurns_checkpoints hshape ha]
    exact hgrowing.path hshape ha

/-- Two turns that grow, in a v1 session with a retry and in a v2 session with two branches. -/
theorem collection_accepts_chains_twoTurns :
    (∃ w, Lts.run (SessionWorld.step plainConfig) {} retriedFirstTurnRun = some w ∧
      w.session.tokenIds = [1, 2, 3, 4, 6] ∧
      Collected 0 (w.session.turns (fun _ => .stop) fun _ => {}) [1, 2, 3, 4, 6]) ∧
    ∃ w, Lts.run (V2.SessionWorld.step plainConfig) {} V2.SessionWorld.branchingRun = some w ∧
      w.heap.tokenIds 1 = [1, 2, 4, 5] ∧
      Collected 0 (V2.pathTurns (fun _ => {}) w.heap 1) [1, 2, 4, 5] := by
  constructor
  · refine ⟨_, rfl, ?_⟩
    have hcollected := (collection_accepts_chains plainConfig (fun _ => .stop) fun _ => {}).1
      retriedFirstTurnRun _ rfl
    exact ⟨rfl, hcollected.2 (by decide +kernel)⟩
  · have h : Lts.run (V2.SessionWorld.step plainConfig) {} V2.SessionWorld.branchingRun =
        some _ := rfl
    have hcollected := (collection_accepts_chains plainConfig (fun _ => .stop) fun _ => {}).2
      V2.SessionWorld.branchingRun _ h _ (List.mem_cons_self ..) 1 (by decide)
    exact ⟨_, h, rfl, hcollected.2 (by decide +kernel)⟩

/-! ### A chain with a short checkpoint -/

/-- Request 1 continues the first answer.  While it is proxied, request 2 retries the first turn and
    gets a longer answer.  Request 1 is committed on top of that one, one token shorter, and ends
    with a stop token that request 3 replaces. -/
def shortCommitRun : List (Event PlainMessage Unit) :=
  [.chat 0 ⟨[⟨1, 0⟩], ()⟩, .answer 0 (plainAnswer ⟨2, 0⟩ [2, 8]),
   .chat 1 ⟨[⟨1, 0⟩, ⟨2, 0⟩, ⟨9, 0⟩, ⟨3, 0⟩], ()⟩,
   .chat 2 ⟨[⟨1, 0⟩], ()⟩, .answer 2 (plainAnswer ⟨4, 0⟩ [2, 9, 3, 9, 6]),
   .answer 1 (plainAnswer ⟨5, 0⟩ [9]),
   .chat 3 ⟨[⟨1, 0⟩, ⟨4, 0⟩, ⟨9, 0⟩, ⟨3, 0⟩, ⟨5, 0⟩, ⟨8, 0⟩, ⟨7, 0⟩], ()⟩,
   .answer 3 (plainAnswer ⟨6, 0⟩ [6])]

/-- After that run the first turn would lose two tokens where one may be trimmed. -/
theorem collection_rejects_chain :
    ∃ w, Lts.run (SessionWorld.step V2.boundaryConfig) {} shortCommitRun = some w ∧
      w.session.trajectoryTokenIds =
        [[1, 2, 9, 3, 9, 6], [1, 2, 9, 3, 9], [1, 2, 9, 3, 8, 7, 6]] ∧
      V2.boundaryTokenizer.maxTrimTokens = 1 ∧
      computeSamplesFromOpenaiRecords (w.session.turns (fun _ => .stop) fun _ => {})
        w.session.tokenIds 1 = .error (.trim 2 1) ∧
      ¬ Collected 1 (w.session.turns (fun _ => .stop) fun _ => {}) w.session.tokenIds := by
  refine ⟨_, rfl, rfl, rfl, (and_iff_left_of_imp ?_).mpr (by decide +kernel)⟩
  intro hraises h
  obtain ⟨samples, hrun, -⟩ := h
  rw [hraises] at hrun
  cases hrun

end Miles.Session
