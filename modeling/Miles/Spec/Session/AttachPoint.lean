import Miles.Spec.Session.Forest

/-!
# The attach point of a request

`find_attach_point` walks the forest depth first and prunes what the request does not match.  The
walk sees every node once, so it ends, and what it prunes can neither be a candidate nor overlap
the request further than its pruned ancestor does.

## Key results

- `Shape.pathMessages_eq`: a path is the parent's path and the node's own messages
- `leadingMatches_append`: how far a request matches a path and what is appended to it
- `searchLoop_cons`: one round of the search
- `searchLoop_scans`: the search sees every node and ends
- `findAttachPoint_eq_reference`: the search gives the best of all candidates
-/

namespace Miles.Session.V2

variable {Msg Args : Type}

/-! ## Leading matches -/

/-- The number of leading messages that match pointwise. -/
def leadingMatches (matches? : Msg → Msg → Bool) : List Msg → List Msg → Nat
  | stored :: ss, request :: rs =>
    if matches? stored request then leadingMatches matches? ss rs + 1 else 0
  | _, _ => 0

section LeadingMatches

variable {matches? : Msg → Msg → Bool}

/-- A matcher that never raises counts the leading matches. -/
theorem matchLen_pure (stored request : List Msg) :
    matchLen (fun a b => .ok (matches? a b)) stored request =
      .ok (leadingMatches matches? stored request) := by
  induction stored generalizing request with
  | nil => cases request <;> rfl
  | cons m ms ih =>
    cases request with
    | nil => rfl
    | cons r rs =>
      simp only [matchLen, leadingMatches, bind, Except.bind, pure, Except.pure, ih]
      split <;> rfl

theorem leadingMatches_le (stored request : List Msg) :
    leadingMatches matches? stored request ≤ stored.length := by
  induction stored generalizing request with
  | nil => cases request <;> exact Nat.le_refl _
  | cons m ms ih =>
    cases request with
    | nil => exact Nat.zero_le _
    | cons r rs =>
      have hle := ih rs
      simp only [leadingMatches, List.length_cons]
      split <;> omega

/-- How far a request matches a path and what is appended to it. -/
theorem leadingMatches_append (xs ys request : List Msg) :
    leadingMatches matches? (xs ++ ys) request =
      if leadingMatches matches? xs request = xs.length then
        xs.length + leadingMatches matches? ys (request.drop xs.length)
      else leadingMatches matches? xs request := by
  induction xs generalizing request with
  | nil => simp [leadingMatches]
  | cons x xs ih =>
    cases request with
    | nil => simp [leadingMatches]
    | cons r rs =>
      simp only [List.cons_append, leadingMatches, List.length_cons, List.drop_succ_cons, ih]
      split
      · have hle : leadingMatches matches? xs rs ≤ xs.length := leadingMatches_le xs rs
        split
        · rw [if_pos (by omega)]
          omega
        · rw [if_neg (by omega)]
      · rw [if_neg (by omega)]

/-- All of the stored messages match when they match a prefix of the request pointwise. -/
theorem leadingMatches_eq_length (stored request : List Msg) :
    leadingMatches matches? stored request = stored.length ↔
      List.Forall₂ (fun s r => matches? s r = true) stored (request.take stored.length) := by
  induction stored generalizing request with
  | nil => simp [leadingMatches]
  | cons m ms ih =>
    cases request with
    | nil => simp [leadingMatches]
    | cons r rs =>
      rw [leadingMatches, List.length_cons, List.take_succ_cons, List.forall₂_cons, ← ih]
      by_cases hm : matches? m r = true
      · rw [if_pos hm, Nat.add_right_cancel_iff]
        exact ⟨fun h => ⟨hm, h⟩, And.right⟩
      · rw [if_neg hm]
        exact ⟨fun h => absurd h (Nat.succ_ne_zero _).symm, fun h => absurd h.1 hm⟩

end LeadingMatches

/-! ## Paths -/

/-- The messages on the path to the parent, none for a root. -/
def Heap.parentMessages (heap : Heap Msg Args) (a : Nat) : List Msg :=
  (heap.parentOf a).elim [] heap.pathMessages

namespace Shape

variable {heap : Heap Msg Args} {tree : SessionTree} {a b c : Nat}

/-- The walk to the root needs no more fuel than the address of its start. -/
theorem climb_eq (h : Shape heap tree) (ha : a ∈ tree.nodes) {fuel : Nat} (hfuel : a < fuel) :
    heap.climb fuel (some a) = a :: (heap.parentOf a).elim [] fun p =>
      heap.climb (p + 1) (some p) := by
  induction a using Nat.strongRecOn generalizing fuel with
  | ind a ih =>
    obtain ⟨n, hn⟩ := h.node ha
    obtain ⟨fuel, rfl⟩ : ∃ k, fuel = k + 1 := ⟨fuel - 1, by omega⟩
    have hparent : heap.parentOf a = n.parent := by
      unfold Heap.parentOf
      rw [hn]
      rfl
    simp only [Heap.climb, hn, hparent]
    cases hp : n.parent with
    | none => cases fuel <;> rfl
    | some p =>
      obtain ⟨hpm, hlt⟩ := h.parent a ha p (hparent.trans hp)
      show _ = a :: heap.climb (p + 1) (some p)
      rw [ih p hlt hpm (by omega : p < fuel), ih p hlt hpm (Nat.lt_succ_self p)]

/-- A path is the parent's path and the node. -/
theorem pathNodes_eq (h : Shape heap tree) (ha : a ∈ tree.nodes) :
    heap.pathNodes a = (heap.parentOf a).elim [] heap.pathNodes ++ [a] := by
  unfold Heap.pathNodes
  rw [h.climb_eq ha (h.present a ha), List.reverse_cons]
  congr 1
  cases hp : heap.parentOf a with
  | none => rfl
  | some p =>
    obtain ⟨hpm, hlt⟩ := h.parent a ha p hp
    show (heap.climb (p + 1) (some p)).reverse = (heap.climb heap.length (some p)).reverse
    rw [h.climb_eq hpm (Nat.lt_succ_self p), h.climb_eq hpm (h.present p hpm)]

/-- A path's messages are the parent's and the node's own. -/
theorem pathMessages_eq (h : Shape heap tree) (ha : a ∈ tree.nodes) :
    heap.pathMessages a = heap.parentMessages a ++ heap.deltaMessages a := by
  unfold Heap.pathMessages Heap.parentMessages
  rw [h.pathNodes_eq ha, List.flatMap_append, List.flatMap_singleton]
  cases heap.parentOf a <;> rfl

theorem mem_pathNodes_self (h : Shape heap tree) (ha : a ∈ tree.nodes) : a ∈ heap.pathNodes a := by
  rw [h.pathNodes_eq ha]
  simp

/-- An ancestor is the node or an ancestor of its parent. -/
theorem mem_pathNodes_iff (h : Shape heap tree) (hb : b ∈ tree.nodes) :
    a ∈ heap.pathNodes b ↔ a = b ∨ ∃ p, heap.parentOf b = some p ∧ a ∈ heap.pathNodes p := by
  rw [h.pathNodes_eq hb, List.mem_append, List.mem_singleton, or_comm]
  cases heap.parentOf b <;> simp

theorem mem_nodes_of_mem_pathNodes (h : Shape heap tree) (hb : b ∈ tree.nodes)
    (ha : a ∈ heap.pathNodes b) : a ∈ tree.nodes ∧ a ≤ b := by
  induction b using Nat.strongRecOn with
  | ind b ih =>
    rcases (h.mem_pathNodes_iff hb).mp ha with rfl | ⟨p, hp, hap⟩
    · exact ⟨hb, Nat.le_refl _⟩
    · obtain ⟨hpm, hlt⟩ := h.parent b hb p hp
      obtain ⟨ham, hle⟩ := ih p hlt hpm hap
      exact ⟨ham, by omega⟩

theorem pathNodes_trans (h : Shape heap tree) (hc : c ∈ tree.nodes) (hab : a ∈ heap.pathNodes b)
    (hbc : b ∈ heap.pathNodes c) : a ∈ heap.pathNodes c := by
  induction c using Nat.strongRecOn with
  | ind c ih =>
    rcases (h.mem_pathNodes_iff hc).mp hbc with rfl | ⟨p, hp, hbp⟩
    · exact hab
    · obtain ⟨hpm, hlt⟩ := h.parent c hc p hp
      exact (h.mem_pathNodes_iff hc).mpr (.inr ⟨p, hp, ih p hlt hpm hbp⟩)

/-- The path from an ancestor goes through one of its children. -/
theorem exists_child (h : Shape heap tree) (hb : b ∈ tree.nodes) (ha : a ∈ heap.pathNodes b)
    (hne : a ≠ b) : ∃ c ∈ tree.nodes, heap.parentOf c = some a ∧ c ∈ heap.pathNodes b := by
  induction b using Nat.strongRecOn with
  | ind b ih =>
    rcases (h.mem_pathNodes_iff hb).mp ha with rfl | ⟨p, hp, hap⟩
    · exact absurd rfl hne
    · by_cases hpa : a = p
      · subst hpa
        exact ⟨b, hb, hp, h.mem_pathNodes_self hb⟩
      · obtain ⟨hpm, hlt⟩ := h.parent b hb p hp
        obtain ⟨c, hc, hparent, hcp⟩ := ih p hlt hpm hap hpa
        exact ⟨c, hc, hparent, (h.mem_pathNodes_iff hb).mpr (.inr ⟨p, hp, hcp⟩)⟩

/-- An ancestor's messages come first on a path. -/
theorem pathMessages_prefix (h : Shape heap tree) (hb : b ∈ tree.nodes)
    (ha : a ∈ heap.pathNodes b) : heap.pathMessages a <+: heap.pathMessages b := by
  induction b using Nat.strongRecOn with
  | ind b ih =>
    rcases (h.mem_pathNodes_iff hb).mp ha with rfl | ⟨p, hp, hap⟩
    · exact List.prefix_rfl
    · obtain ⟨hpm, hlt⟩ := h.parent b hb p hp
      rw [h.pathMessages_eq hb]
      unfold Heap.parentMessages
      rw [hp]
      exact (ih p hlt hpm hap).trans (List.prefix_append ..)

end Shape

/-! ## The search -/

section Search

variable (matches? : Msg → Msg → Bool) (heap : Heap Msg Args) (tree : SessionTree)
  (request : List Msg)

/-- How far the request matches the path of a node. -/
def overlap (a : Nat) : Nat := leadingMatches matches? (heap.pathMessages a) request

/-- The whole path of a node matches a prefix of the request pointwise. -/
def Candidate (a : Nat) : Prop :=
  List.Forall₂ (fun stored r => matches? stored r = true) (heap.pathMessages a)
    (request.take (heap.pathMessages a).length)

instance (a : Nat) : Decidable (Candidate matches? heap request a) :=
  inferInstanceAs (Decidable (List.Forall₂ _ _ _))

/-- Candidates are ordered by the number of messages on their path, then by commit order. -/
def key (a : Nat) : Nat ×ₗ Nat := toLex ((heap.pathMessages a).length, heap.seq a)

/-- A node that the search is still to see. -/
def Pending (stack : List (Nat × Nat)) (b : Nat) : Prop := ∃ e ∈ stack, e.1 ∈ heap.pathNodes b

instance (stack : List (Nat × Nat)) (b : Nat) : Decidable (Pending heap stack b) :=
  inferInstanceAs (Decidable (∃ e ∈ stack, _))

/-- How many nodes the search is still to see. -/
def pendingCount (stack : List (Nat × Nat)) : Nat :=
  tree.nodes.countP fun b => Pending heap stack b

/-- What holds before every round of the search. -/
structure Scans (stack : List (Nat × Nat)) (search : SessionTree.Search) : Prop where
  /-- the path to every node on the stack is matched -/
  entries : ∀ e ∈ stack, e.1 ∈ tree.nodes ∧ e.2 = (heap.parentMessages e.1).length ∧
    leadingMatches matches? (heap.parentMessages e.1) request = e.2
  /-- no node on the stack is an ancestor of another one -/
  antichain : stack.Pairwise fun e f => e.1 ∉ heap.pathNodes f.1 ∧ f.1 ∉ heap.pathNodes e.1
  found : ∀ a, search.best = some a → a ∈ tree.nodes ∧ Candidate matches? heap request a ∧
    search.bestMatched = (heap.pathMessages a).length
  none : search.best = none → search.bestMatched = -1
  best : ∀ b ∈ tree.nodes, ¬ Pending heap stack b → Candidate matches? heap request b →
    ∃ a, search.best = some a ∧ key heap b ≤ key heap a
  covered : ∀ b ∈ tree.nodes, ¬ Pending heap stack b →
    overlap matches? heap request b ≤ search.bestOverlap
  attained : search.bestOverlap = 0 ∨
    ∃ b ∈ tree.nodes, overlap matches? heap request b = search.bestOverlap

variable {matches? heap tree request} {stack : List (Nat × Nat)} {search : SessionTree.Search}
  {a offset : Nat}

theorem candidate_iff : Candidate matches? heap request a ↔
    overlap matches? heap request a = (heap.pathMessages a).length :=
  (leadingMatches_eq_length _ _).symm

/-- The overlap of a node whose parent's path is matched. -/
theorem overlap_eq (h : Shape heap tree) (ha : a ∈ tree.nodes)
    (hoffset : offset = (heap.parentMessages a).length)
    (hmatched : leadingMatches matches? (heap.parentMessages a) request = offset) :
    overlap matches? heap request a =
      offset + leadingMatches matches? (heap.deltaMessages a) (request.drop offset) := by
  subst hoffset
  unfold overlap
  rw [h.pathMessages_eq ha, leadingMatches_append, if_pos hmatched]

/-- What is below a node that is not matched is no candidate and overlaps no further. -/
theorem pruned (h : Shape heap tree) {b : Nat} (hb : b ∈ tree.nodes) (hab : a ∈ heap.pathNodes b)
    (hnot : ¬ Candidate matches? heap request a) :
    ¬ Candidate matches? heap request b ∧
      overlap matches? heap request b = overlap matches? heap request a := by
  obtain ⟨rest, hrest⟩ := h.pathMessages_prefix hb hab
  have hsame : overlap matches? heap request b = overlap matches? heap request a := by
    rw [candidate_iff, overlap] at hnot
    unfold overlap
    rw [← hrest, leadingMatches_append, if_neg hnot]
  refine ⟨fun hcandidate => hnot ?_, hsame⟩
  have hle : overlap matches? heap request a ≤ (heap.pathMessages a).length :=
    leadingMatches_le _ _
  rw [candidate_iff] at hcandidate ⊢
  rw [hsame, ← hrest, List.length_append] at hcandidate
  omega

/-- A round leaves pending what it does not see. -/
theorem not_pending_cons {b : Nat} (h : ¬ Pending heap stack b) (hne : a ∉ heap.pathNodes b) :
    ¬ Pending heap ((a, offset) :: stack) b := by
  rintro ⟨e, he, hb⟩
  rcases List.mem_cons.mp he with rfl | hmem
  · exact hne hb
  · exact h ⟨e, hmem, hb⟩

/-- The better of the best candidate and a further one. -/
theorem better_iff (hfound : ∀ b, search.best = some b → b ∈ tree.nodes ∧
      Candidate matches? heap request b ∧ search.bestMatched = (heap.pathMessages b).length)
    (hnone : search.best = none → search.bestMatched = -1) :
    search.better heap a (heap.pathMessages a).length = true ↔
      ∀ b, search.best = some b → key heap b < key heap a := by
  unfold SessionTree.Search.better key
  rw [decide_eq_true_iff]
  cases hbest : search.best with
  | none =>
    rw [hnone hbest]
    simp only [reduceCtorEq, false_implies, implies_true, iff_true]
    left
    omega
  | some b =>
    rw [(hfound b hbest).2.2]
    simp only [Option.any_some, decide_eq_true_eq, Option.some.injEq, forall_eq',
      Prod.Lex.toLex_lt_toLex]
    omega

/-- A round that prunes. -/
theorem scans_prune (h : Shape heap tree)
    (hscan : Scans matches? heap tree request ((a, offset) :: stack) search)
    (hnot : ¬ Candidate matches? heap request a) :
    Scans matches? heap tree request stack
      { search with bestOverlap := max search.bestOverlap (overlap matches? heap request a) } where
  entries := fun e he => hscan.entries e (List.mem_cons_of_mem _ he)
  antichain := hscan.antichain.of_cons
  found := hscan.found
  none := hscan.none
  best := by
    intro b hb hpending hcandidate
    by_cases hab : a ∈ heap.pathNodes b
    · exact absurd hcandidate (pruned h hb hab hnot).1
    · exact hscan.best b hb (not_pending_cons hpending hab) hcandidate
  covered := by
    intro b hb hpending
    show _ ≤ max _ _
    by_cases hab : a ∈ heap.pathNodes b
    · rw [(pruned h hb hab hnot).2]
      exact Nat.le_max_right _ _
    · exact (hscan.covered b hb (not_pending_cons hpending hab)).trans (Nat.le_max_left _ _)
  attained := by
    rcases Nat.le_total search.bestOverlap (overlap matches? heap request a) with hle | hle
    · exact .inr ⟨a, (hscan.entries _ (List.mem_cons_self ..)).1, (Nat.max_eq_right hle).symm⟩
    · simp only [Nat.max_eq_left hle]
      exact hscan.attained

/-- The children of a node of the tree. -/
theorem mem_children (h : Shape heap tree) (ha : a ∈ tree.nodes) {c : Nat} :
    c ∈ ((heap[a]?.map TrajectoryNode.children).getD []) ↔
      c ∈ tree.nodes ∧ heap.parentOf c = some a := by
  obtain ⟨n, hn⟩ := h.node ha
  rw [hn, Option.map_some, Option.getD_some, h.children a ha n hn, List.mem_filter,
    decide_eq_true_iff]

theorem children_pairwise (h : Shape heap tree) (ha : a ∈ tree.nodes) :
    ((heap[a]?.map TrajectoryNode.children).getD []).Pairwise (· < ·) := by
  obtain ⟨n, hn⟩ := h.node ha
  rw [hn, Option.map_some, Option.getD_some, h.children a ha n hn]
  exact h.increasing.filter _

/-- A sibling is no ancestor. -/
theorem not_mem_pathNodes_sibling (h : Shape heap tree) {c d : Nat} (hc : c ∈ tree.nodes)
    (hd : d ∈ tree.nodes) (hpc : heap.parentOf c = some a) (hpd : heap.parentOf d = some a)
    (hne : c ≠ d) : c ∉ heap.pathNodes d := by
  intro hcd
  rcases (h.mem_pathNodes_iff hd).mp hcd with heq | ⟨p, hp, hcp⟩
  · exact hne heq
  · obtain rfl : a = p := Option.some.inj (hpd.symm.trans hp)
    have hle := (h.mem_nodes_of_mem_pathNodes (h.parent c hc a hpc).1 hcp).2
    have hlt := (h.parent c hc a hpc).2
    omega

/-- The search after it took a candidate into account. -/
def considered (heap : Heap Msg Args) (search : SessionTree.Search) (a : Nat) :
    SessionTree.Search :=
  if search.better heap a (heap.pathMessages a).length then
    { search with best := some a, bestMatched := (heap.pathMessages a).length }
  else search

/-- The best candidate is the better of the former best and the new one. -/
theorem considered_best (hfound : ∀ b, search.best = some b → b ∈ tree.nodes ∧
      Candidate matches? heap request b ∧ search.bestMatched = (heap.pathMessages b).length)
    (hnone : search.best = none → search.bestMatched = -1) :
    ∃ best, (considered heap search a).best = some best ∧ key heap a ≤ key heap best ∧
      (∀ b, search.best = some b → key heap b ≤ key heap best) ∧
      (considered heap search a = search ∨
        best = a ∧ (considered heap search a).bestMatched = (heap.pathMessages a).length) := by
  unfold considered
  split
  · rename_i hbetter
    have hlt := (better_iff hfound hnone).mp hbetter
    exact ⟨a, rfl, le_refl _, fun b hb => le_of_lt (hlt b hb), .inr ⟨rfl, rfl⟩⟩
  · rename_i hbetter
    rw [better_iff hfound hnone] at hbetter
    push Not at hbetter
    obtain ⟨b, hb, hle⟩ := hbetter
    refine ⟨b, hb, hle, fun b' hb' => ?_, .inl rfl⟩
    rw [hb] at hb'
    cases hb'
    exact le_refl _

/-- A round that finds a candidate and goes on with its children. -/
theorem scans_enter (h : Shape heap tree)
    (hscan : Scans matches? heap tree request ((a, offset) :: stack) search)
    (hcandidate : Candidate matches? heap request a) :
    Scans matches? heap tree request
      (((heap[a]?.map TrajectoryNode.children).getD []).map (·, (heap.pathMessages a).length) ++
        stack)
      { considered heap search a with
        bestOverlap := max search.bestOverlap (overlap matches? heap request a) } := by
  have ha : a ∈ tree.nodes := (hscan.entries _ (List.mem_cons_self ..)).1
  obtain ⟨hhead, htail⟩ := List.pairwise_cons.mp hscan.antichain
  obtain ⟨best, hbest, hkey, hold, hcases⟩ := considered_best (a := a) hscan.found hscan.none
  -- what is still pending below the node is below one of its children
  have hback : ∀ b ∈ tree.nodes, ¬ Pending heap
      (((heap[a]?.map TrajectoryNode.children).getD []).map (·, (heap.pathMessages a).length) ++
        stack) b → b = a ∨ ¬ Pending heap ((a, offset) :: stack) b := by
    intro b hb hpending
    by_cases hab : a ∈ heap.pathNodes b
    · by_cases heq : a = b
      · exact .inl heq.symm
      · obtain ⟨c, hc, hparent, hcb⟩ := h.exists_child hb hab heq
        refine absurd ⟨(c, (heap.pathMessages a).length), ?_, hcb⟩ hpending
        exact List.mem_append_left _ (List.mem_map.mpr ⟨c, (mem_children h ha).mpr ⟨hc, hparent⟩, rfl⟩)
    · refine .inr (not_pending_cons ?_ hab)
      rintro ⟨e, he, heb⟩
      exact hpending ⟨e, List.mem_append_right _ he, heb⟩
  constructor
  case entries =>
    intro e he
    rcases List.mem_append.mp he with hchild | hrest
    · obtain ⟨c, hc, rfl⟩ := List.mem_map.mp hchild
      obtain ⟨hcm, hparent⟩ := (mem_children h ha).mp hc
      have hmessages : heap.parentMessages c = heap.pathMessages a := by
        unfold Heap.parentMessages
        rw [hparent]
        rfl
      refine ⟨hcm, by rw [hmessages], ?_⟩
      rw [hmessages]
      exact candidate_iff.mp hcandidate
    · exact hscan.entries e (List.mem_cons_of_mem _ hrest)
  case antichain =>
    rw [List.pairwise_append]
    refine ⟨?_, htail, ?_⟩
    · rw [List.pairwise_map]
      refine (List.Pairwise.and_mem.mp (children_pairwise h ha)).imp ?_
      rintro c d ⟨hc, hd, hlt⟩
      obtain ⟨hcm, hpc⟩ := (mem_children h ha).mp hc
      obtain ⟨hdm, hpd⟩ := (mem_children h ha).mp hd
      exact ⟨not_mem_pathNodes_sibling h hcm hdm hpc hpd (by omega),
        not_mem_pathNodes_sibling h hdm hcm hpd hpc (by omega)⟩
    · intro e he f hf
      obtain ⟨c, hc, rfl⟩ := List.mem_map.mp he
      obtain ⟨hcm, hpc⟩ := (mem_children h ha).mp hc
      obtain ⟨haf, hfa⟩ := hhead f hf
      have hfm := (hscan.entries f (List.mem_cons_of_mem _ hf)).1
      have hac : a ∈ heap.pathNodes c :=
        (h.mem_pathNodes_iff hcm).mpr (.inr ⟨a, hpc, h.mem_pathNodes_self ha⟩)
      refine ⟨fun hcf => haf (h.pathNodes_trans hfm hac hcf), fun hfc => ?_⟩
      rcases (h.mem_pathNodes_iff hcm).mp hfc with heq | ⟨p, hp, hfp⟩
      · exact haf (heq ▸ hac)
      · obtain rfl : a = p := Option.some.inj (hpc.symm.trans hp)
        exact hfa hfp
  case found =>
    intro b hb
    rcases hcases with hsame | ⟨rfl, hmatched⟩
    · rw [hsame] at hb ⊢
      exact hscan.found b hb
    · obtain rfl : best = b := Option.some.inj (hbest.symm.trans hb)
      exact ⟨ha, hcandidate, hmatched⟩
  case none =>
    intro hnone
    cases hbest.symm.trans hnone
  case best =>
    intro b hb hpending hb'
    rcases hback b hb hpending with rfl | hnot
    · exact ⟨best, hbest, hkey⟩
    · obtain ⟨old, hsome, hle⟩ := hscan.best b hb hnot hb'
      exact ⟨best, hbest, hle.trans (hold old hsome)⟩
  case covered =>
    intro b hb hpending
    show _ ≤ max _ _
    rcases hback b hb hpending with rfl | hnot
    · exact Nat.le_max_right _ _
    · exact (hscan.covered b hb hnot).trans (Nat.le_max_left _ _)
  case attained =>
    rcases Nat.le_total search.bestOverlap (overlap matches? heap request a) with hle | hle
    · exact .inr ⟨a, ha, (Nat.max_eq_right hle).symm⟩
    · simp only [Nat.max_eq_left hle]
      exact hscan.attained

/-- Every round sees another node. -/
theorem pendingCount_lt (h : Shape heap tree)
    (hscan : Scans matches? heap tree request ((a, offset) :: stack) search)
    {below : List (Nat × Nat)}
    (hbelow : ∀ e ∈ below, e.1 ∈ tree.nodes ∧ heap.parentOf e.1 = some a) :
    pendingCount heap tree (below ++ stack) < pendingCount heap tree ((a, offset) :: stack) := by
  have ha : a ∈ tree.nodes := (hscan.entries _ (List.mem_cons_self ..)).1
  obtain ⟨hhead, -⟩ := List.pairwise_cons.mp hscan.antichain
  unfold pendingCount
  apply List.countP_lt_countP (a := a)
  · intro b hb hpending
    rw [decide_eq_true_iff] at hpending ⊢
    obtain ⟨e, he, heb⟩ := hpending
    rcases List.mem_append.mp he with hchild | hrest
    · obtain ⟨hem, hparent⟩ := hbelow e hchild
      have hae : a ∈ heap.pathNodes e.1 :=
        (h.mem_pathNodes_iff hem).mpr (.inr ⟨a, hparent, h.mem_pathNodes_self ha⟩)
      exact ⟨(a, offset), List.mem_cons_self .., h.pathNodes_trans hb hae heb⟩
    · exact ⟨e, List.mem_cons_of_mem _ hrest, heb⟩
  · exact ha
  · rw [decide_eq_true_iff]
    exact ⟨(a, offset), List.mem_cons_self .., h.mem_pathNodes_self ha⟩
  · -- the node itself is neither below one of its children nor below the rest of the stack
    rw [decide_eq_true_iff]
    rintro ⟨e, he, hea⟩
    rcases List.mem_append.mp he with hchild | hrest
    · obtain ⟨hem, hparent⟩ := hbelow e hchild
      have hlt := (h.parent e.1 hem a hparent).2
      have hle := (h.mem_nodes_of_mem_pathNodes ha hea).2
      omega
    · exact (hhead e hrest).2 hea

/-- What the search does in a round, in the terms of the whole path. -/
theorem searchLoop_cons (h : Shape heap tree)
    (hscan : Scans matches? heap tree request ((a, offset) :: stack) search) (fuel : Nat) :
    SessionTree.searchLoop heap (fun x y => .ok (matches? x y)) request (fuel + 1)
        ((a, offset) :: stack) search =
      if Candidate matches? heap request a then
        SessionTree.searchLoop heap (fun x y => .ok (matches? x y)) request fuel
          (((heap[a]?.map TrajectoryNode.children).getD []).map (·, (heap.pathMessages a).length) ++
            stack)
          { considered heap search a with
            bestOverlap := max search.bestOverlap (overlap matches? heap request a) }
      else
        SessionTree.searchLoop heap (fun x y => .ok (matches? x y)) request fuel stack
          { search with
            bestOverlap := max search.bestOverlap (overlap matches? heap request a) } := by
  obtain ⟨ha, hoffset, hmatched⟩ := hscan.entries _ (List.mem_cons_self ..)
  have hoverlap : overlap matches? heap request a =
      offset + leadingMatches matches? (heap.deltaMessages a) (request.drop offset) :=
    overlap_eq h ha hoffset hmatched
  replace hoffset : offset = (heap.parentMessages a).length := hoffset
  have hlength : (heap.pathMessages a).length = offset + (heap.deltaMessages a).length := by
    rw [h.pathMessages_eq ha, List.length_append, ← hoffset]
  have hle : leadingMatches matches? (heap.deltaMessages a) (request.drop offset) ≤
      (heap.deltaMessages a).length := leadingMatches_le _ _
  have hiff : leadingMatches matches? (heap.deltaMessages a) (request.drop offset) <
      (heap.deltaMessages a).length ↔ ¬ Candidate matches? heap request a := by
    rw [candidate_iff]
    omega
  rw [SessionTree.searchLoop, matchLen_pure]
  simp only [bind, Except.bind, hiff, ← hoverlap, ← hlength]
  by_cases hcandidate : Candidate matches? heap request a
  · rw [if_neg (not_not_intro hcandidate), if_pos hcandidate]
    unfold considered SessionTree.Search.better
    split <;> rfl
  · rw [if_pos hcandidate, if_neg hcandidate]

/-- The search sees every node and ends. -/
theorem searchLoop_scans (h : Shape heap tree) :
    ∀ (fuel : Nat) (stack : List (Nat × Nat)) (search : SessionTree.Search),
      Scans matches? heap tree request stack search → pendingCount heap tree stack ≤ fuel →
      ∃ final, SessionTree.searchLoop heap (fun x y => .ok (matches? x y)) request fuel stack search
        = .ok final ∧ Scans matches? heap tree request [] final := by
  intro fuel
  induction fuel with
  | zero =>
    intro stack search hscan hcount
    cases stack with
    | nil => exact ⟨search, rfl, hscan⟩
    | cons e stack =>
      obtain ⟨a, offset⟩ := e
      have hlt : pendingCount heap tree ([] ++ stack) < pendingCount heap tree ((a, offset) :: stack)
        := pendingCount_lt h hscan (by simp)
      omega
  | succ fuel ih =>
    intro stack search hscan hcount
    cases stack with
    | nil => exact ⟨search, rfl, hscan⟩
    | cons e stack =>
      obtain ⟨a, offset⟩ := e
      have ha : a ∈ tree.nodes := (hscan.entries _ (List.mem_cons_self ..)).1
      rw [searchLoop_cons h hscan]
      split
      · rename_i hcandidate
        apply ih _ _ (scans_enter h hscan hcandidate)
        have hbelow : ∀ e ∈ ((heap[a]?.map TrajectoryNode.children).getD []).map
            (·, (heap.pathMessages a).length), e.1 ∈ tree.nodes ∧ heap.parentOf e.1 = some a := by
          intro e he
          obtain ⟨c, hc, rfl⟩ := List.mem_map.mp he
          exact (mem_children h ha).mp hc
        have hlt := pendingCount_lt h hscan hbelow
        omega
      · rename_i hnot
        apply ih _ _ (scans_prune h hscan hnot)
        have hlt : pendingCount heap tree ([] ++ stack) <
            pendingCount heap tree ((a, offset) :: stack) := pendingCount_lt h hscan (by simp)
        rw [List.nil_append] at hlt
        omega

/-- Before the first round every node is still to be seen. -/
theorem pending_roots (h : Shape heap tree) {b : Nat} (hb : b ∈ tree.nodes) :
    Pending heap (tree.roots.map (·, 0)) b := by
  induction b using Nat.strongRecOn with
  | ind b ih =>
    cases hp : heap.parentOf b with
    | none =>
      have hroot : b ∈ tree.roots := by
        rw [h.roots, List.mem_filter, decide_eq_true_iff]
        exact ⟨hb, hp⟩
      exact ⟨(b, 0), List.mem_map.mpr ⟨b, hroot, rfl⟩, h.mem_pathNodes_self hb⟩
    | some p =>
      obtain ⟨hpm, hlt⟩ := h.parent b hb p hp
      obtain ⟨e, he, hep⟩ := ih p hlt hpm
      exact ⟨e, he, (h.mem_pathNodes_iff hb).mpr (.inr ⟨p, hp, hep⟩)⟩

theorem scans_roots (h : Shape heap tree) :
    Scans matches? heap tree request (tree.roots.map (·, 0)) {} where
  entries := by
    intro e he
    obtain ⟨r, hr, rfl⟩ := List.mem_map.mp he
    rw [h.roots, List.mem_filter, decide_eq_true_iff] at hr
    have hnone : heap.parentMessages r = [] := by
      unfold Heap.parentMessages
      rw [hr.2]
      rfl
    show r ∈ tree.nodes ∧ 0 = _ ∧ leadingMatches _ (heap.parentMessages r) _ = 0
    rw [hnone]
    exact ⟨hr.1, rfl, rfl⟩
  antichain := by
    rw [List.pairwise_map, h.roots]
    refine (List.Pairwise.and_mem.mp (h.increasing.filter _)).imp ?_
    rintro r s ⟨hr, hs, hlt⟩
    rw [List.mem_filter, decide_eq_true_iff] at hr hs
    constructor
    · intro hrs
      rcases (h.mem_pathNodes_iff hs.1).mp hrs with heq | ⟨p, hp, -⟩
      · omega
      · cases hs.2.symm.trans hp
    · intro hsr
      have hle := (h.mem_nodes_of_mem_pathNodes hr.1 hsr).2
      omega
  found := fun _ ha => nomatch ha
  none := fun _ => rfl
  best := fun _ hb hpending _ => absurd (pending_roots h hb) hpending
  covered := fun _ hb hpending => absurd (pending_roots h hb) hpending
  attained := .inl rfl

end Search

/-! ## The reference -/

namespace SessionTree

variable (matches? : Msg → Msg → Bool) (heap : Heap Msg Args) (tree : SessionTree)
  (request : List Msg)

/-- The candidate with the most messages on its path, the latest of these. -/
def bestCandidate : Option Nat :=
  (tree.nodes.filter (Candidate matches? heap request)).argmax (key heap)

/-- The attach point by exhaustive comparison of the request with every path. -/
def referenceAttachPoint : AttachPoint where
  node := bestCandidate matches? heap tree request
  matchedMessages := (bestCandidate matches? heap tree request).elim 0 fun a =>
    (heap.pathMessages a).length
  bestOverlap := tree.nodes.toFinset.sup (overlap matches? heap request)

variable {matches? heap tree request}

/-- A search that saw every node found the best candidate. -/
theorem best_eq_bestCandidate (h : Shape heap tree) {final : Search}
    (hscan : Scans matches? heap tree request [] final) :
    final.best = bestCandidate matches? heap tree request := by
  have hseen : ∀ b, ¬ Pending heap [] b := fun b ⟨_, he, _⟩ => nomatch he
  unfold bestCandidate
  symm
  cases hbest : final.best with
  | none =>
    rw [List.argmax_eq_none, List.filter_eq_nil_iff]
    intro b hb hcandidate
    rw [decide_eq_true_iff] at hcandidate
    obtain ⟨a, ha, -⟩ := hscan.best b hb (hseen b) hcandidate
    cases hbest.symm.trans ha
  | some a =>
    obtain ⟨ha, hcandidate, -⟩ := hscan.found a hbest
    rw [List.argmax_eq_some_iff]
    have hmax : ∀ b ∈ tree.nodes.filter (Candidate matches? heap request),
        key heap b ≤ key heap a := by
      intro b hb
      rw [List.mem_filter, decide_eq_true_iff] at hb
      obtain ⟨a', ha', hle⟩ := hscan.best b hb.1 (hseen b) hb.2
      obtain rfl : a = a' := Option.some.inj (hbest.symm.trans ha')
      exact hle
    refine ⟨List.mem_filter.mpr ⟨ha, decide_eq_true hcandidate⟩, hmax, fun b hb hle => ?_⟩
    -- two candidates with the same key are the same node
    have heq : key heap b = key heap a := le_antisymm (hmax b hb) hle
    have hseq : heap.seq b = heap.seq a := congrArg (fun k => (ofLex k).2) heq
    rw [h.seq_inj (List.mem_filter.mp hb).1 ha hseq]

theorem bestOverlap_eq_sup {final : Search} (hscan : Scans matches? heap tree request [] final) :
    final.bestOverlap = tree.nodes.toFinset.sup (overlap matches? heap request) := by
  apply Nat.le_antisymm
  · rcases hscan.attained with hzero | ⟨b, hb, heq⟩
    · rw [hzero]
      exact Nat.zero_le _
    · rw [← heq]
      exact Finset.le_sup (List.mem_toFinset.mpr hb)
  · apply Finset.sup_le
    intro b hb
    exact hscan.covered b (List.mem_toFinset.mp hb) fun ⟨_, he, _⟩ => nomatch he

/-- The search with pruning gives what the comparison with every path gives. -/
theorem findAttachPoint_eq_reference (h : Shape heap tree) :
    findAttachPoint heap tree (fun x y => .ok (matches? x y)) request =
      .ok (referenceAttachPoint matches? heap tree request) := by
  have hstart : Scans matches? heap tree request (tree.roots.map (·, 0)) {} := scans_roots h
  obtain ⟨final, hrun, hscan⟩ :=
    searchLoop_scans h tree.nodes.length _ _ hstart List.countP_le_length
  unfold findAttachPoint referenceAttachPoint
  rw [hrun, ← best_eq_bestCandidate h hscan, ← bestOverlap_eq_sup hscan]
  simp only [bind, Except.bind]
  cases hbest : final.best with
  | none => rfl
  | some a =>
    simp only [Option.elim_some, (hscan.found a hbest).2.2, Int.toNat_natCast]
    rfl

/-- A generation that adds these messages under a node. -/
def turnNode (parent : Option Nat) (seq : Nat) (question answer : Nat) : TrajectoryNode Nat Unit :=
  let request : RequestBody Nat Unit :=
    { messages := [question], inputIds := [], returnRoutedExperts := false,
      routedExpertsStartLen := none, args := () }
  { deltaMessages := [question, answer]
    tokenIds := []
    completionSpan := (0, 0)
    seq
    record := { requestId := seq, request, assistantMessage := answer, completionTokenIds := [] }
    finishReason := .stop
    turnArgs := request
    parent }

/-- A root with one child. -/
def twoTurns : Heap Nat Unit × SessionTree :=
  let state := adopt [] {} (turnNode none 0 1 2)
  adopt state.1 state.2 (turnNode (some 0) 1 3 4)

theorem twoTurns_forest : Forest twoTurns.1 twoTurns.2 := by
  have hnode : Adoptable ([] : Heap Nat Unit) {} (turnNode none 0 1 2) :=
    ⟨rfl, rfl, rfl, by rintro p ⟨⟩, by decide⟩
  have hroot := (Forest.empty ([] : Heap Nat Unit)).adopt hnode
  apply hroot.adopt
  refine ⟨rfl, rfl, rfl, ?_, by decide⟩
  rintro p hp
  cases hp
  exact ⟨by decide, fun n hn => by cases hn; rfl⟩

/-- A request that leaves the child's path at its last message continues the root. -/
theorem findAttachPoint_twoTurns :
    findAttachPoint twoTurns.1 twoTurns.2 (fun x y => .ok (decide (x = y))) [1, 2, 3, 5] =
      .ok { node := some 0, matchedMessages := 2, bestOverlap := 3 } :=
  (findAttachPoint_eq_reference twoTurns_forest.toShape).trans (by decide)

end SessionTree

end Miles.Session.V2
