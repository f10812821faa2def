import Miles.ForStd.List
import Miles.Native.Session.TreeTrajectory

/-!
# The forest of a v2 session

The node objects of a session form a forest in commit order: node `i` has seq `i`, parents come
before their children, and the children lists and the roots are determined by the parent pointers.
A snapshot is a second forest on fresh objects with the same nodes, so later commits, which write
to the children lists of the live tree only, leave it as it was.
-/

namespace Miles.Session.V2

variable {Msg Args : Type}

/-- The parent pointer of the node at an address. -/
def Heap.parentOf (heap : Heap Msg Args) (a : Nat) : Option Nat :=
  heap[a]?.bind TrajectoryNode.parent

/-- The tree's nodes are in commit order, and its children lists and roots are determined by the
    parent pointers. -/
structure Shape (heap : Heap Msg Args) (tree : SessionTree) : Prop where
  present : ∀ a ∈ tree.nodes, a < heap.length
  /-- addresses grow with the commits -/
  increasing : tree.nodes.Pairwise (· < ·)
  seq : ∀ (i a : Nat), tree.nodes[i]? = some a → heap.seq a = i
  parent : ∀ a ∈ tree.nodes, ∀ p, heap.parentOf a = some p → p ∈ tree.nodes ∧ p < a
  /-- the children lists are the inverse of the parent pointers, in commit order -/
  children : ∀ a ∈ tree.nodes, ∀ node, heap[a]? = some node →
    node.children = tree.nodes.filter fun b => heap.parentOf b = some a
  roots : tree.roots = tree.nodes.filter fun b => heap.parentOf b = none

/-- A forest of committed generations. -/
structure Forest (heap : Heap Msg Args) (tree : SessionTree) : Prop extends Shape heap tree where
  /-- a node's messages end with its generated answer -/
  answer : ∀ a ∈ tree.nodes, ∀ node, heap[a]? = some node →
    node.deltaMessages.getLast? = some node.record.assistantMessage
  truncated : ∀ a ∈ tree.nodes, ∀ node, heap[a]? = some node → node.truncated = true →
    node.children = []
  cap : tree.nodes.length ≤ maxNodes

namespace Shape

variable {heap : Heap Msg Args} {tree : SessionTree} {a b : Nat}

theorem node (h : Shape heap tree) (ha : a ∈ tree.nodes) : ∃ n, heap[a]? = some n :=
  ⟨_, List.getElem?_eq_getElem (h.present a ha)⟩

/-- The seqs of the nodes count up from zero. -/
theorem map_seq (h : Shape heap tree) : tree.nodes.map heap.seq = List.range tree.nodes.length := by
  refine List.ext_getElem? fun i => ?_
  rw [List.getElem?_map]
  cases hi : tree.nodes[i]? with
  | none =>
    have hlen := List.getElem?_eq_none_iff.mp hi
    rw [List.getElem?_eq_none (by simpa using hlen)]
    rfl
  | some a =>
    have hlt := (List.getElem?_eq_some_iff.mp hi).1
    rw [Option.map_some, h.seq i a hi, List.getElem?_range hlt]

/-- No two nodes have one sequence number. -/
theorem seq_inj (h : Shape heap tree) (ha : a ∈ tree.nodes) (hb : b ∈ tree.nodes)
    (heq : heap.seq a = heap.seq b) : a = b := by
  obtain ⟨i, hi⟩ := List.getElem?_of_mem ha
  obtain ⟨j, hj⟩ := List.getElem?_of_mem hb
  have hij : i = j := by rw [← h.seq i a hi, ← h.seq j b hj, heq]
  subst hij
  exact Option.some.inj (hi.symm.trans hj)

theorem seq_lt_seq (h : Shape heap tree) (ha : a ∈ tree.nodes) (hb : b ∈ tree.nodes)
    (hlt : a < b) : heap.seq a < heap.seq b := by
  obtain ⟨i, hi⟩ := List.getElem?_of_mem ha
  obtain ⟨j, hj⟩ := List.getElem?_of_mem hb
  rw [h.seq i a hi, h.seq j b hj]
  obtain ⟨hilt, rfl⟩ := List.getElem?_eq_some_iff.mp hi
  obtain ⟨hjlt, rfl⟩ := List.getElem?_eq_some_iff.mp hj
  by_contra hge
  rcases Nat.lt_or_eq_of_le (Nat.not_lt.mp hge) with hji | rfl
  · have hdec := List.pairwise_iff_getElem.mp h.increasing j i hjlt hilt hji
    omega
  · omega

end Shape

namespace Forest

variable {heap : Heap Msg Args} {tree : SessionTree} {a b : Nat}

theorem empty (heap : Heap Msg Args) : Forest heap {} where
  present := by simp
  increasing := List.Pairwise.nil
  seq := by simp
  parent := by simp
  children := by simp
  roots := rfl
  answer := by simp
  truncated := by simp
  cap := Nat.zero_le _

/-- The latest commit is a leaf. -/
theorem latest_leaf (h : Forest heap tree) (ha : latest tree = some a) {n : TrajectoryNode Msg Args}
    (hn : heap[a]? = some n) : n.children = [] := by
  have hmem : a ∈ tree.nodes := List.mem_of_getLast? ha
  rw [h.children a hmem n hn, List.filter_eq_nil_iff]
  intro b hb hparent
  rw [decide_eq_true_iff] at hparent
  have hlt := (h.parent b hb a hparent).2
  -- no address is beyond the last one
  obtain ⟨init, hinit⟩ := List.getLast?_eq_some_iff.mp ha
  have hincreasing := h.increasing
  rw [hinit, List.pairwise_append] at hincreasing
  rw [hinit, List.mem_append, List.mem_singleton] at hb
  rcases hb with hb | rfl
  · have hle := hincreasing.2.2 b hb a (List.mem_singleton.mpr rfl)
    omega
  · omega

end Forest

/-! ## A new node -/

section Adopt

variable {heap : Heap Msg Args} {tree : SessionTree} {node : TrajectoryNode Msg Args}

/-- The new node continues a node of the tree that may gain a child. -/
structure Adoptable (heap : Heap Msg Args) (tree : SessionTree)
    (node : TrajectoryNode Msg Args) : Prop where
  seq : node.seq = tree.nodes.length
  children : node.children = []
  answer : node.deltaMessages.getLast? = some node.record.assistantMessage
  parent : ∀ p, node.parent = some p → p ∈ tree.nodes ∧
    ∀ n, heap[p]? = some n → n.truncated = false
  cap : tree.nodes.length < maxNodes

/-- A node with one more child, if it is the parent of the new one. -/
def withChild (heap : Heap Msg Args) (node : TrajectoryNode Msg Args) (b : Nat)
    (n : TrajectoryNode Msg Args) : TrajectoryNode Msg Args :=
  if node.parent = some b then { n with children := n.children ++ [heap.length] } else n

/-- An adopted node is the last of the tree. -/
theorem nodes_adopt : (SessionTree.adopt heap tree node).2.nodes = tree.nodes ++ [heap.length] := by
  unfold SessionTree.adopt
  cases node.parent <;> rfl

theorem roots_adopt : (SessionTree.adopt heap tree node).2.roots =
    tree.roots ++ if node.parent = none then [heap.length] else [] := by
  unfold SessionTree.adopt
  cases node.parent <;> simp

theorem length_adopt : (SessionTree.adopt heap tree node).1.length = heap.length + 1 := by
  unfold SessionTree.adopt
  cases node.parent <;> simp [Heap.appendChild]

theorem getElem?_adopt_self (tree : SessionTree) (h : ∀ p, node.parent = some p → p < heap.length) :
    (SessionTree.adopt heap tree node).1[heap.length]? = some node := by
  unfold SessionTree.adopt
  cases hp : node.parent with
  | none => simp
  | some p =>
    have hlt := h p hp
    have hne : p ≠ heap.length := by omega
    show (Heap.appendChild (heap ++ [node]) p heap.length)[heap.length]? = some node
    rw [Heap.appendChild, List.getElem?_modify_ne _ _ hne, List.getElem?_concat_length]

/-- The other nodes only gain a child. -/
theorem getElem?_adopt {b : Nat} (hb : b < heap.length) :
    (SessionTree.adopt heap tree node).1[b]? = heap[b]?.map (withChild heap node b) := by
  have hold : (heap ++ [node])[b]? = heap[b]? := List.getElem?_append_left hb
  unfold SessionTree.adopt withChild
  cases hp : node.parent with
  | none => simp [hold]
  | some p =>
    simp only [Heap.appendChild, List.getElem?_modify, hold, Option.some.injEq]
    by_cases hpb : p = b <;> simp [hpb]

theorem withChild_fields (b : Nat) (n : TrajectoryNode Msg Args) :
    (withChild heap node b n).parent = n.parent ∧ (withChild heap node b n).seq = n.seq ∧
      (withChild heap node b n).deltaMessages = n.deltaMessages ∧
      (withChild heap node b n).record = n.record ∧
      (withChild heap node b n).finishReason = n.finishReason := by
  unfold withChild
  split <;> simp

theorem parentOf_adopt {b : Nat} (hb : b < heap.length) :
    (SessionTree.adopt heap tree node).1.parentOf b = heap.parentOf b := by
  unfold Heap.parentOf
  rw [getElem?_adopt hb]
  cases heap[b]? with
  | none => rfl
  | some n => exact (withChild_fields b n).1

theorem seq_adopt {b : Nat} (hb : b < heap.length) :
    (SessionTree.adopt heap tree node).1.seq b = heap.seq b := by
  unfold Heap.seq
  rw [getElem?_adopt hb]
  cases heap[b]? with
  | none => rfl
  | some n => exact (withChild_fields b n).2.1

/-- A new node under a node that is not truncated keeps the forest. -/
theorem Forest.adopt (h : Forest heap tree) (hnode : Adoptable heap tree node) :
    Forest (SessionTree.adopt heap tree node).1 (SessionTree.adopt heap tree node).2 := by
  have hself := getElem?_adopt_self tree fun p hp => h.present p (hnode.parent p hp).1
  have hparent : (SessionTree.adopt heap tree node).1.parentOf heap.length = node.parent := by
    unfold Heap.parentOf
    rw [hself]
    rfl
  have hmem : ∀ {b}, b ∈ (SessionTree.adopt heap tree node).2.nodes ↔
      b ∈ tree.nodes ∨ b = heap.length := by
    intro b
    rw [nodes_adopt, List.mem_append, List.mem_singleton]
  -- filtering the nodes by a parent
  have hfilter : ∀ q : Option Nat, (SessionTree.adopt heap tree node).2.nodes.filter
      (fun b => (SessionTree.adopt heap tree node).1.parentOf b = q) =
        tree.nodes.filter (fun b => heap.parentOf b = q) ++
          if node.parent = q then [heap.length] else [] := by
    intro q
    rw [nodes_adopt, List.filter_append]
    congr 1
    · refine List.filter_congr fun b hb => ?_
      rw [parentOf_adopt (h.present b hb)]
    · rw [List.filter_singleton, hparent]
      by_cases hq : node.parent = q <;> simp [hq]
  refine ⟨⟨?present, ?increasing, ?seq, ?parent, ?children, ?roots⟩, ?answer, ?truncated, ?cap⟩
  case present =>
    intro b hb
    rw [length_adopt]
    rcases hmem.mp hb with hold | rfl
    · have := h.present b hold
      omega
    · omega
  case increasing =>
    rw [nodes_adopt, List.pairwise_append]
    refine ⟨h.increasing, List.pairwise_singleton _ _, fun b hb c hc => ?_⟩
    rw [List.mem_singleton.mp hc]
    exact h.present b hb
  case seq =>
    intro i b hb
    rw [nodes_adopt] at hb
    rw [List.getElem?_append] at hb
    split at hb
    · rw [seq_adopt (h.present b (List.mem_of_getElem? hb))]
      exact h.seq i b hb
    · obtain ⟨hi, hget⟩ := List.getElem?_eq_some_iff.mp hb
      rw [List.length_singleton] at hi
      have hbl : heap.length = b := by simpa using hget
      subst hbl
      unfold Heap.seq
      rw [hself, Option.map_some, Option.getD_some, hnode.seq]
      omega
  case parent =>
    intro b hb p hp
    rcases hmem.mp hb with hold | rfl
    · rw [parentOf_adopt (h.present b hold)] at hp
      obtain ⟨hpm, hlt⟩ := h.parent b hold p hp
      exact ⟨hmem.mpr (.inl hpm), hlt⟩
    · rw [hparent] at hp
      have hpm := (hnode.parent p hp).1
      exact ⟨hmem.mpr (.inl hpm), h.present p hpm⟩
  case children =>
    intro b hb n hn
    rw [hfilter]
    rcases hmem.mp hb with hold | rfl
    · rw [getElem?_adopt (h.present b hold)] at hn
      obtain ⟨n₀, hn₀, rfl⟩ := Option.map_eq_some_iff.mp hn
      rw [← h.children b hold n₀ hn₀]
      unfold withChild
      split <;> simp
    · rw [hself] at hn
      cases hn
      have hnone : tree.nodes.filter (fun b => heap.parentOf b = some heap.length) = [] := by
        rw [List.filter_eq_nil_iff]
        intro c hc hpc
        rw [decide_eq_true_iff] at hpc
        have hin := h.present _ (h.parent c hc _ hpc).1
        omega
      have hne : node.parent ≠ some heap.length := by
        intro hp
        have hin := h.present _ (hnode.parent _ hp).1
        omega
      rw [hnone, hnode.children, if_neg hne, List.append_nil]
  case roots =>
    rw [hfilter, roots_adopt, h.roots]
  case answer =>
    intro b hb n hn
    rcases hmem.mp hb with hold | rfl
    · rw [getElem?_adopt (h.present b hold)] at hn
      obtain ⟨n₀, hn₀, rfl⟩ := Option.map_eq_some_iff.mp hn
      rw [(withChild_fields b n₀).2.2.1, (withChild_fields b n₀).2.2.2.1]
      exact h.answer b hold n₀ hn₀
    · rw [hself] at hn
      cases hn
      exact hnode.answer
  case truncated =>
    intro b hb n hn htrunc
    rcases hmem.mp hb with hold | rfl
    · rw [getElem?_adopt (h.present b hold)] at hn
      obtain ⟨n₀, hn₀, rfl⟩ := Option.map_eq_some_iff.mp hn
      have htrunc₀ : n₀.truncated = true := by
        unfold TrajectoryNode.truncated at htrunc ⊢
        rwa [(withChild_fields b n₀).2.2.2.2] at htrunc
      unfold withChild
      split
      · rename_i hp
        have hfalse := (hnode.parent b hp).2 n₀ hn₀
        rw [htrunc₀] at hfalse
        cases hfalse
      · exact h.truncated b hold n₀ hn₀ htrunc₀
    · rw [hself] at hn
      cases hn
      exact hnode.children
  case cap =>
    have hcap := hnode.cap
    rw [nodes_adopt, List.length_append, List.length_singleton]
    omega

end Adopt

/-! ## Forests up to their objects -/

/-- A node without its children, with its parent by seq. -/
def Heap.skeleton (heap : Heap Msg Args) (a : Nat) : Option (TrajectoryNode Msg Args) :=
  heap[a]?.map fun node => { node with parent := node.parent.map heap.seq, children := [] }

/-- A node with its relatives by seq. -/
def Heap.byseq (heap : Heap Msg Args) (a : Nat) : Option (TrajectoryNode Msg Args) :=
  heap[a]?.map fun node =>
    { node with parent := node.parent.map heap.seq, children := node.children.map heap.seq }

/-- A tree with all references by seq: two trees with one view are isomorphic. -/
def SessionTree.view (tree : SessionTree) (heap : Heap Msg Args) :
    List (Option (TrajectoryNode Msg Args)) × List Nat :=
  (tree.nodes.map heap.byseq, tree.roots.map heap.seq)

section View

variable {heap heap' : Heap Msg Args} {tree tree' : SessionTree}

/-- The seqs of the nodes with a parent, or of the roots. -/
theorem map_seq_filter (h : Forest heap tree) {q : Option Nat} (hq : ∀ p, q = some p → p ∈ tree.nodes) :
    (tree.nodes.filter fun b => heap.parentOf b = q).map heap.seq =
      (tree.nodes.filter fun b => (heap.parentOf b).map heap.seq = q.map heap.seq).map heap.seq := by
  congr 1
  refine List.filter_congr fun b hb => ?_
  rw [decide_eq_decide]
  constructor
  · intro heq
    rw [heq]
  · intro heq
    cases hp : heap.parentOf b with
    | none =>
      rw [hp] at heq
      cases q with
      | none => rfl
      | some p => cases heq
    | some p =>
      rw [hp] at heq
      cases q with
      | none => cases heq
      | some p' =>
        have hpp := h.seq_inj (h.parent b hb p hp).1 (hq p' rfl) (Option.some.inj heq)
        rw [hpp]

theorem seq_eq_of_skeleton {a b : Nat} (h : heap.skeleton a = heap'.skeleton b) :
    heap.seq a = heap'.seq b := by
  unfold Heap.skeleton at h
  unfold Heap.seq
  cases ha : heap[a]? with
  | none =>
    rw [ha] at h
    cases hb : heap'[b]? with
    | none => rfl
    | some n =>
      rw [hb] at h
      cases h
  | some m =>
    rw [ha] at h
    cases hb : heap'[b]? with
    | none =>
      rw [hb] at h
      cases h
    | some n =>
      rw [hb, Option.map_some, Option.map_some, Option.some.injEq] at h
      exact (TrajectoryNode.mk.injEq .. ▸ h).2.2.2.1

theorem parentSeq_eq_of_skeleton {a b : Nat} (h : heap.skeleton a = heap'.skeleton b) :
    (heap.parentOf a).map heap.seq = (heap'.parentOf b).map heap'.seq := by
  have hparent : ∀ (hp : Heap Msg Args) (x : Nat),
      (hp.parentOf x).map hp.seq = (hp.skeleton x).bind TrajectoryNode.parent := by
    intro hp x
    unfold Heap.parentOf Heap.skeleton
    cases hp[x]? <;> rfl
  rw [hparent, hparent, h]

/-- A forest is determined by its nodes' data and parents. -/
theorem view_eq_of_sameNodes (h : Forest heap tree) (h' : Forest heap' tree')
    (hsame : List.Forall₂ (fun a b => heap.skeleton a = heap'.skeleton b) tree.nodes tree'.nodes) :
    tree.view heap = tree'.view heap' := by
  have hfilter : ∀ q : Option Nat,
      (tree.nodes.filter fun b => (heap.parentOf b).map heap.seq = q).map heap.seq =
        (tree'.nodes.filter fun b => (heap'.parentOf b).map heap'.seq = q).map heap'.seq := by
    intro q
    refine List.map_filter_eq_of_forall₂ ?_ (fun a b hab => seq_eq_of_skeleton hab) hsame
    intro a b hab
    rw [parentSeq_eq_of_skeleton hab]
  have hroots : tree.roots.map heap.seq = tree'.roots.map heap'.seq := by
    rw [h.roots, h'.roots, map_seq_filter h (by simp), map_seq_filter h' (by simp)]
    exact hfilter none
  have hnodes : ∀ a b, a ∈ tree.nodes → b ∈ tree'.nodes → heap.skeleton a = heap'.skeleton b →
      heap.byseq a = heap'.byseq b := by
    intro a b ha hb hab
    obtain ⟨m, hm⟩ := h.node ha
    obtain ⟨n, hn⟩ := h'.node hb
    have hchildren : m.children.map heap.seq = n.children.map heap'.seq := by
      rw [h.children a ha m hm, h'.children b hb n hn, map_seq_filter h (by simpa using ha),
        map_seq_filter h' (by simpa using hb), Option.map_some, Option.map_some,
        seq_eq_of_skeleton hab]
      exact hfilter _
    unfold Heap.skeleton at hab
    unfold Heap.byseq
    rw [hm, hn, Option.map_some, Option.map_some, Option.some.injEq] at hab ⊢
    rw [hchildren]
    simp only [TrajectoryNode.mk.injEq] at hab ⊢
    exact ⟨hab.1, hab.2.1, hab.2.2.1, hab.2.2.2.1, hab.2.2.2.2.1, hab.2.2.2.2.2.1,
      hab.2.2.2.2.2.2.1, hab.2.2.2.2.2.2.2.1, trivial⟩
  refine Prod.ext ?_ hroots
  show tree.nodes.map heap.byseq = tree'.nodes.map heap'.byseq
  refine List.forall₂_eq_eq_eq ▸ ?_
  rw [List.forall₂_map_left_iff, List.forall₂_map_right_iff]
  refine List.forall₂_iff_get.mpr ⟨hsame.length_eq, fun i hi hi' => ?_⟩
  exact hnodes _ _ (List.get_mem ..) (List.get_mem ..) ((List.forall₂_iff_get.mp hsame).2 i hi hi')

/-- Writes outside of the tree's objects change neither its forest nor its view. -/
theorem Forest.of_agree (h : Forest heap tree) (hagree : ∀ a ∈ tree.nodes, heap'[a]? = heap[a]?) :
    Forest heap' tree ∧ tree.view heap' = tree.view heap := by
  have hparent : ∀ b ∈ tree.nodes, heap'.parentOf b = heap.parentOf b := by
    intro b hb
    unfold Heap.parentOf
    rw [hagree b hb]
  have hseq : ∀ b ∈ tree.nodes, heap'.seq b = heap.seq b := by
    intro b hb
    unfold Heap.seq
    rw [hagree b hb]
  have hfilter : ∀ q : Option Nat, tree.nodes.filter (fun b => heap'.parentOf b = q) =
      tree.nodes.filter fun b => heap.parentOf b = q := by
    intro q
    exact List.filter_congr fun b hb => by rw [hparent b hb]
  have hforest : Forest heap' tree := {
    present := by
      intro a ha
      obtain ⟨n, hn⟩ := h.node ha
      exact (List.getElem?_eq_some_iff.mp ((hagree a ha).trans hn)).1
    increasing := h.increasing
    seq := fun i a ha => (hseq a (List.mem_of_getElem? ha)).trans (h.seq i a ha)
    parent := fun a ha p hp => h.parent a ha p (hparent a ha ▸ hp)
    children := by
      intro a ha n hn
      rw [hfilter]
      exact h.children a ha n (hagree a ha ▸ hn)
    roots := by rw [hfilter, h.roots]
    answer := fun a ha n hn => h.answer a ha n (hagree a ha ▸ hn)
    truncated := fun a ha n hn => h.truncated a ha n (hagree a ha ▸ hn)
    cap := h.cap }
  refine ⟨hforest, view_eq_of_sameNodes hforest h ?_⟩
  rw [List.forall₂_same]
  intro a ha
  unfold Heap.skeleton
  rw [hagree a ha]
  obtain ⟨n, hn⟩ := h.node ha
  rw [hn, Option.map_some, Option.map_some]
  cases hp : n.parent with
  | none => rfl
  | some p =>
    have hpm := (h.parent a ha p (by unfold Heap.parentOf; rw [hn]; exact hp)).1
    rw [Option.map_some, Option.map_some, hseq p hpm]

end View

/-! ## Snapshots -/

section Snapshot

variable {heap : Heap Msg Args} {tree : SessionTree}

/-- The step of the copying loop. -/
def copyNode (state : Heap Msg Args × SessionTree) (a : Nat) :
    Option (Heap Msg Args × SessionTree) := do
  let node ← state.1[a]?
  let parent ← node.parent.elim (some none) fun p => (state.2.nodes[state.1.seq p]?).map some
  return SessionTree.adopt state.1 state.2 { node with parent, children := [] }

/-- The copies of the nodes in `done`, next to the old objects. -/
structure Copied (heap : Heap Msg Args) (done : List Nat) (state : Heap Msg Args × SessionTree) :
    Prop where
  forest : Forest state.1 state.2
  old : ∀ a < heap.length, state.1[a]? = heap[a]?
  fresh : ∀ b ∈ state.2.nodes, heap.length ≤ b
  grown : heap.length ≤ state.1.length
  same : List.Forall₂ (fun a b => heap.skeleton a = state.1.skeleton b) done state.2.nodes

/-- The copies keep what they have while a further node is adopted. -/
theorem skeleton_adopt {state : Heap Msg Args × SessionTree} (h : Forest state.1 state.2)
    {node : TrajectoryNode Msg Args} {b : Nat} (hb : b ∈ state.2.nodes) :
    (SessionTree.adopt state.1 state.2 node).1.skeleton b = state.1.skeleton b := by
  unfold Heap.skeleton
  rw [getElem?_adopt (h.present b hb)]
  obtain ⟨n, hn⟩ := h.node hb
  rw [hn, Option.map_some, Option.map_some, Option.map_some]
  have hparent : n.parent.map (SessionTree.adopt state.1 state.2 node).1.seq =
      n.parent.map state.1.seq := by
    cases hp : n.parent with
    | none => rfl
    | some p =>
      have hpm := (h.parent b hb p (by unfold Heap.parentOf; rw [hn]; exact hp)).1
      rw [Option.map_some, Option.map_some, seq_adopt (h.present p hpm)]
  unfold withChild
  split <;> simp [hparent]

/-- Copying one more node of a forest. -/
theorem copied_step (h : Forest heap tree) {done rest : List Nat} {a : Nat}
    (hnodes : tree.nodes = done ++ a :: rest) {state : Heap Msg Args × SessionTree}
    (hcopied : Copied heap done state) :
    ∃ state', copyNode state a = some state' ∧ Copied heap (done ++ [a]) state' := by
  have ha : a ∈ tree.nodes := by rw [hnodes]; simp
  have hpos : tree.nodes[done.length]? = some a := by rw [hnodes]; simp
  obtain ⟨n, hn⟩ := h.node ha
  have hn' : state.1[a]? = some n := (hcopied.old a (h.present a ha)).trans hn
  have hseqn : n.seq = done.length := by
    have hseq := h.seq _ a hpos
    unfold Heap.seq at hseq
    rwa [hn] at hseq
  have hlen : done.length = state.2.nodes.length := hcopied.same.length_eq
  -- the copy of the parent stands at the parent's seq
  have hparent : ∀ p, n.parent = some p → ∃ b, state.2.nodes[state.1.seq p]? = some b ∧
      heap.skeleton p = state.1.skeleton b := by
    intro p hp
    have hpa : heap.parentOf a = some p := by
      unfold Heap.parentOf
      rw [hn]
      exact hp
    obtain ⟨hpm, hlt⟩ := h.parent a ha p hpa
    have hseqp : state.1.seq p = heap.seq p := by
      unfold Heap.seq
      rw [hcopied.old p (h.present p hpm)]
    obtain ⟨i, hi⟩ := List.getElem?_of_mem hpm
    have hip : heap.seq p = i := h.seq i p hi
    have hilt : i < done.length := by
      have hlts := h.seq_lt_seq hpm ha hlt
      rw [hip, h.seq _ a hpos] at hlts
      exact hlts
    have hdone : done[i] = p := by
      rw [hnodes, List.getElem?_append_left hilt] at hi
      exact (List.getElem?_eq_some_iff.mp hi).2
    have hilt' : i < state.2.nodes.length := by omega
    refine ⟨state.2.nodes[i], ?_, ?_⟩
    · rw [hseqp, hip]
      exact List.getElem?_eq_getElem hilt'
    · have hskeleton := (List.forall₂_iff_get.mp hcopied.same).2 i hilt hilt'
      simp only [List.get_eq_getElem] at hskeleton
      rwa [hdone] at hskeleton
  obtain ⟨parent, hmatch, hseqs, hmem⟩ : ∃ parent : Option Nat,
      (n.parent.elim (some none) fun p => (state.2.nodes[state.1.seq p]?).map some) =
        some parent ∧
      n.parent.map heap.seq = parent.map state.1.seq ∧
      ∀ b, parent = some b → ∃ p, n.parent = some p ∧ b ∈ state.2.nodes ∧
        heap.skeleton p = state.1.skeleton b := by
    cases hp : n.parent with
    | none => exact ⟨none, rfl, rfl, by simp⟩
    | some p =>
      obtain ⟨b, hb, hskeleton⟩ := hparent p hp
      refine ⟨some b, by simp [hb], ?_, ?_⟩
      · rw [Option.map_some, Option.map_some, seq_eq_of_skeleton hskeleton]
      · intro b' hb'
        cases hb'
        exact ⟨p, rfl, List.mem_of_getElem? hb, hskeleton⟩
  have hstep : copyNode state a =
      some (SessionTree.adopt state.1 state.2 { n with parent, children := [] }) := by
    unfold copyNode
    rw [hn', Option.bind_eq_bind, Option.bind_some, hmatch]
    rfl
  have hadoptable : Adoptable state.1 state.2 { n with parent, children := [] } := {
    seq := hseqn.trans hlen
    children := rfl
    answer := h.answer a ha n hn
    parent := by
      intro b hb
      obtain ⟨p, hp, hbm, hskeleton⟩ := hmem b hb
      refine ⟨hbm, fun m hm => ?_⟩
      have hpa : heap.parentOf a = some p := by
        unfold Heap.parentOf
        rw [hn]
        exact hp
      obtain ⟨hpm, -⟩ := h.parent a ha p hpa
      obtain ⟨np, hnp⟩ := h.node hpm
      -- the copied parent has a child, so it is not truncated
      unfold Heap.skeleton at hskeleton
      rw [hnp, hm, Option.map_some, Option.map_some, Option.some.injEq] at hskeleton
      have hfinish : np.finishReason = m.finishReason :=
        (TrajectoryNode.mk.injEq .. ▸ hskeleton).2.2.2.2.2.1
      by_contra htrunc
      rw [Bool.not_eq_false] at htrunc
      have htrunc' : np.truncated = true := by
        unfold TrajectoryNode.truncated at htrunc ⊢
        rw [hfinish]
        exact htrunc
      have hnone := h.truncated p hpm np hnp htrunc'
      rw [h.children p hpm np hnp, List.filter_eq_nil_iff] at hnone
      exact hnone a ha (decide_eq_true hpa)
    cap := by
      have hcap := h.cap
      rw [hnodes, List.length_append, List.length_cons] at hcap
      omega }
  refine ⟨_, hstep, ?_⟩
  constructor
  case forest => exact hcopied.forest.adopt hadoptable
  case old =>
    intro c hc
    have hgrown := hcopied.grown
    rw [getElem?_adopt (by omega), hcopied.old c hc]
    unfold withChild
    split
    · rename_i hp
      obtain ⟨-, -, hbm, -⟩ := hmem c hp
      have hge := hcopied.fresh c hbm
      omega
    · exact Option.map_id'
  case fresh =>
    intro b hb
    rw [nodes_adopt, List.mem_append, List.mem_singleton] at hb
    rcases hb with hold | rfl
    · exact hcopied.fresh b hold
    · exact hcopied.grown
  case grown =>
    rw [length_adopt]
    have hgrown := hcopied.grown
    omega
  case same =>
    rw [nodes_adopt]
    refine List.rel_append ?_ (List.Forall₂.cons ?_ .nil)
    · refine List.forall₂_iff_get.mpr ⟨hlen, fun i hi hi' => ?_⟩
      rw [skeleton_adopt hcopied.forest (List.get_mem ..)]
      exact (List.forall₂_iff_get.mp hcopied.same).2 i hi hi'
    · unfold Heap.skeleton
      have hself := getElem?_adopt_self state.2
        fun p hp => hcopied.forest.present p (hadoptable.parent p hp).1
      rw [hn, hself, Option.map_some, Option.map_some]
      have hparents : n.parent.map heap.seq = parent.map
          (SessionTree.adopt state.1 state.2 { n with parent, children := [] }).1.seq := by
        rw [hseqs]
        cases hp : parent with
        | none => rfl
        | some b =>
          obtain ⟨-, -, hbm, -⟩ := hmem b hp
          rw [Option.map_some, Option.map_some, seq_adopt (hcopied.forest.present b hbm)]
      rw [hparents]

/-- A snapshot is an isomorphic forest on fresh objects, and writes to no old one. -/
theorem snapshot_spec (h : Forest heap tree) :
    ∃ heap' copy, tree.snapshot heap = some (heap', copy) ∧ Forest heap' copy ∧
      copy.view heap' = tree.view heap ∧ (∀ a < heap.length, heap'[a]? = heap[a]?) ∧
      (∀ b ∈ copy.nodes, heap.length ≤ b) ∧ heap.length ≤ heap'.length := by
  have hcopy : ∀ rest done state, tree.nodes = done ++ rest → Copied heap done state →
      ∃ state', rest.foldlM copyNode state = some state' ∧ Copied heap tree.nodes state' := by
    intro rest
    induction rest with
    | nil =>
      intro done state hnodes hcopied
      rw [List.append_nil] at hnodes
      exact ⟨state, rfl, hnodes ▸ hcopied⟩
    | cons a rest ih =>
      intro done state hnodes hcopied
      obtain ⟨state', hstep, hcopied'⟩ := copied_step h hnodes hcopied
      obtain ⟨final, hrest, hfinal⟩ := ih (done ++ [a]) state' (by simp [hnodes]) hcopied'
      exact ⟨final, by rw [List.foldlM_cons, hstep, Option.bind_eq_bind, Option.bind_some, hrest],
        hfinal⟩
  have hstart : Copied heap [] (heap, ({} : SessionTree)) :=
    ⟨Forest.empty heap, fun _ _ => rfl, by simp, Nat.le_refl _, .nil⟩
  obtain ⟨⟨heap', copy⟩, hfold, hfinal⟩ := hcopy tree.nodes [] _ rfl hstart
  exact ⟨heap', copy, hfold, hfinal.forest, (view_eq_of_sameNodes h hfinal.forest hfinal.same).symm,
    hfinal.old, hfinal.fresh, hfinal.grown⟩

end Snapshot

end Miles.Session.V2
