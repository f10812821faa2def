import Mathlib
import Miles.ForStd.List
import Miles.Native.Training.SeqlenBalancing

/-!
# Balanced partitions and packings

Whatever the weights are, balancing only moves indices: a partition is a permutation of
the indices, a packing and its splits are permutations of the samples.
-/

set_option linter.unusedSectionVars false

namespace Miles.Balancing

section KarmarkarKarp

variable {W : Type} [LinearOrder W] [Zero W] [Add W] [Sub W]

/-! ### Sets -/

namespace KSet

/-- The indices in a set. -/
def indices (s : KSet W) : List Nat := s.items.map Prod.fst

/-- A merged set has the items of both. -/
theorem merge_items (s t : KSet W) : (s.merge t).items = s.items ++ t.items := by
  have hfold : ∀ (items : List (Nat × W)) (u : KSet W),
      (items.foldl (fun u item => u.add item.1 item.2) u).items = u.items ++ items := by
    intro items
    induction items with
    | nil => simp
    | cons item items ih =>
      intro u
      rw [List.foldl_cons, ih]
      simp [add]
  exact hfold t.items s

theorem merge_indices (s t : KSet W) : (s.merge t).indices = s.indices ++ t.indices := by
  simp [indices, merge_items]

/-- A set of items with nonnegative values, and a nonnegative sum of these. -/
structure Nonneg (s : KSet W) : Prop where
  sum : 0 ≤ s.sum
  items : ∀ item ∈ s.items, 0 ≤ item.2
  empty : s.items = [] → s.sum = 0

/-- Merging keeps the sums nonnegative. -/
theorem Nonneg.merge (hadd : ∀ a b : W, 0 ≤ a → 0 ≤ b → 0 ≤ a + b) {s t : KSet W}
    (hs : s.Nonneg) (ht : t.Nonneg) : (s.merge t).Nonneg := by
  have hfold : ∀ (items : List (Nat × W)) (u : KSet W), (∀ item ∈ items, 0 ≤ item.2) →
      0 ≤ u.sum → 0 ≤ (items.foldl (fun u item => u.add item.1 item.2) u).sum := by
    intro items
    induction items with
    | nil => exact fun u _ hu => hu
    | cons item items ih =>
      intro u hitems hu
      exact ih _ (fun i hi => hitems i (List.mem_cons_of_mem _ hi))
        (hadd _ _ hu (hitems item (List.mem_cons_self ..)))
  refine ⟨hfold t.items s ht.items hs.sum, fun item hitem => ?_, fun hnil => ?_⟩
  · rw [merge_items] at hitem
    exact (List.mem_append.mp hitem).elim (hs.items item) (ht.items item)
  · rw [merge_items, List.append_eq_nil_iff] at hnil
    have hsum : (s.merge t).sum = s.sum := by
      rw [KSet.merge, hnil.2]
      rfl
    rw [hsum]
    exact hs.empty hnil.1

theorem sortDesc_perm (sets : List (KSet W)) : (sortDesc sets).Perm sets :=
  List.mergeSort_perm ..

theorem sortDesc_pairwise (sets : List (KSet W)) :
    (sortDesc sets).Pairwise fun a b => b.key ≤ a.key := by
  have hsorted := @List.pairwise_mergeSort _ (fun a b : KSet W => decide (b.key ≤ a.key))
    (fun a b c hab hbc => by
      simp only [decide_eq_true_eq] at hab hbc ⊢
      exact hbc.trans hab)
    (fun a b => by
      simp only [Bool.or_eq_true, decide_eq_true_eq]
      exact le_total _ _) sets
  simp only [decide_eq_true_eq] at hsorted
  exact hsorted

/-- An empty set comes after every other one. -/
theorem key_lt_of_empty {s t : KSet W} (hs : s.Nonneg) (ht : t.Nonneg) (hempty : s.items = [])
    (hne : t.items ≠ []) : s.key < t.key := by
  have hsum : s.sum = 0 := hs.empty hempty
  rw [key, key, Prod.Lex.toLex_lt_toLex]
  obtain hlt | heq := lt_or_eq_of_le ht.sum
  · exact .inl (by simpa [hsum] using hlt)
  · refine .inr ⟨by simp [hsum, ← heq], ?_⟩
    rw [Prod.Lex.toLex_lt_toLex]
    exact .inl (by simpa [hempty] using List.length_pos_iff.mpr hne)

end KSet

/-! ### States -/

namespace KState

/-- The indices in a state. -/
def indices (s : KState W) : List Nat := s.sets.flatMap (·.indices)

theorem getPartitions_flatten (s : KState W) : s.getPartitions.flatten = s.indices := by
  simp only [getPartitions, indices, List.flatMap_def]
  rfl

/-- Merging states of `k` sets moves the indices of both into `k` sets. -/
theorem merge_perm {s t : KState W} (hlen : s.sets.length = t.sets.length) :
    (s.merge t).indices.Perm (s.indices ++ t.indices) := by
  have hzip : (List.zipWith KSet.merge s.sets t.sets.reverse).flatMap KSet.indices |>.Perm
      (s.sets.flatMap KSet.indices ++ t.sets.reverse.flatMap KSet.indices) :=
    List.perm_flatMap_zipWith KSet.merge_indices (by simpa using hlen)
  have hrev : (t.sets.reverse.flatMap (·.indices)).Perm t.indices :=
    (List.reverse_perm _).flatMap_right _
  exact ((KSet.sortDesc_perm _).flatMap_right _).trans (hzip.trans (hrev.append_left _))

theorem merge_length {s t : KState W} (hlen : s.sets.length = t.sets.length) :
    (s.merge t).sets.length = s.sets.length := by
  rw [merge, (KSet.sortDesc_perm _).length_eq, List.length_zipWith, List.length_reverse, ← hlen,
    Nat.min_self]

/-- The sets before the queue is sorted. -/
private def rawSets (items : List (Nat × W)) (k : Nat) : List (KSet W) :=
  (List.range k).map fun i =>
    match items[i]? with
    | some (idx, seqlen) => KSet.empty.add idx seqlen
    | none => KSet.empty

private theorem rawSets_eq {items : List (Nat × W)} {k : Nat} (hlen : items.length ≤ k) :
    rawSets items k = items.map (fun item => KSet.empty.add item.1 item.2) ++
      List.replicate (k - items.length) KSet.empty := by
  apply List.ext_getElem?
  intro i
  simp only [rawSets, List.getElem?_map]
  by_cases hi : i < items.length
  · rw [List.getElem?_append_left (by simpa using hi), List.getElem?_range (by omega)]
    simp [List.getElem?_eq_getElem hi]
  · rw [List.getElem?_append_right (by simpa using hi), List.length_map]
    by_cases hk : i < k
    · rw [List.getElem?_range hk, List.getElem?_replicate_of_lt (by omega)]
      simp [List.getElem?_eq_none (Nat.le_of_not_lt hi)]
    · rw [List.getElem?_eq_none (by simpa using hk), List.getElem?_replicate, if_neg (by omega)]
      rfl

theorem ofItems_length (items : List (Nat × W)) (k : Nat) : (ofItems items k).sets.length = k := by
  rw [ofItems, (KSet.sortDesc_perm _).length_eq]
  simp

/-- A new state has the given items. -/
theorem ofItems_perm {items : List (Nat × W)} {k : Nat} (hlen : items.length ≤ k) :
    (ofItems items k).indices.Perm (items.map Prod.fst) := by
  refine ((KSet.sortDesc_perm _).flatMap_right _).trans ?_
  change ((rawSets items k).flatMap _).Perm _
  rw [rawSets_eq hlen, List.flatMap_append, List.flatMap_map]
  have hempty : (List.replicate (k - items.length) (KSet.empty : KSet W)).flatMap (·.indices) =
      [] := by
    simp [KSet.empty, KSet.indices]
  rw [hempty, List.append_nil]
  have hsingle : ∀ item : Nat × W, (KSet.empty.add item.1 item.2).indices = [item.1] :=
    fun _ => rfl
  simp only [hsingle]
  rw [List.map_eq_flatMap]

/-- With as many items as sets, every set has one item. -/
theorem ofItems_full {items : List (Nat × W)} {k : Nat} (hlen : items.length = k) :
    ∀ set ∈ (ofItems items k).sets, set.items.length = 1 := by
  intro set hset
  have hraw : set ∈ rawSets items k := (KSet.sortDesc_perm _).mem_iff.mp hset
  rw [rawSets_eq (Nat.le_of_eq hlen), hlen, Nat.sub_self, List.replicate_zero,
    List.append_nil] at hraw
  obtain ⟨item, -, rfl⟩ := List.mem_map.mp hraw
  rfl

/-- All sets of a state have the same size. -/
def Even (k : Nat) (s : KState W) : Prop :=
  s.sets.length = k ∧ ∃ m, ∀ set ∈ s.sets, set.items.length = m

/-- Merging even states gives an even state. -/
theorem Even.merge {k : Nat} {s t : KState W} (hs : s.Even k) (ht : t.Even k) :
    (s.merge t).Even k := by
  obtain ⟨hslen, m, hm⟩ := hs
  obtain ⟨htlen, n, hn⟩ := ht
  refine ⟨(merge_length (hslen.trans htlen.symm)).trans hslen, m + n, fun set hset => ?_⟩
  have hzip := (KSet.sortDesc_perm _).mem_iff.mp hset
  obtain ⟨i, hi, rfl⟩ := List.mem_iff_getElem.mp hzip
  rw [List.getElem_zipWith, KSet.merge_items, List.length_append]
  rw [hm _ (List.getElem_mem _), hn _ (List.mem_reverse.mp (List.getElem_mem _))]

/-- A state of `k` sets in decreasing order, with nonnegative sums, that has as many nonempty
    sets as its items allow. -/
structure Filled (k : Nat) (s : KState W) : Prop where
  length : s.sets.length = k
  nonneg : ∀ set ∈ s.sets, set.Nonneg
  sorted : s.sets.Pairwise fun a b => b.key ≤ a.key
  count : min k s.indices.length ≤ s.sets.countP fun set => !set.items.isEmpty

/-- The nonempty sets of a filled state come first. -/
theorem Filled.nonempty_first {k : Nat} {s : KState W} (h : s.Filled k) {i : Nat}
    (hi : i < s.sets.length) (hcount : i < min k s.indices.length) : s.sets[i].items ≠ [] := by
  intro hempty
  -- every set from `i` on is empty, so at most `i` are not
  have hrest : ∀ j (hj : j < s.sets.length), i ≤ j → s.sets[j].items = [] := by
    intro j hj hij
    obtain rfl | hlt := Nat.eq_or_lt_of_le hij
    · exact hempty
    · by_contra hne
      have hle := List.pairwise_iff_getElem.mp h.sorted i j hi hj hlt
      exact absurd (KSet.key_lt_of_empty (h.nonneg _ (List.getElem_mem hi))
        (h.nonneg _ (List.getElem_mem hj)) hempty hne) (not_lt.mpr hle)
  have hle := h.count
  have hsplit := List.take_append_drop i s.sets
  rw [← hsplit, List.countP_append] at hle
  have hdrop : (s.sets.drop i).countP (fun set => !set.items.isEmpty) = 0 := by
    rw [List.countP_eq_zero]
    intro set hset
    obtain ⟨j, hj, rfl⟩ := List.mem_drop_iff_getElem.mp hset
    simp [hrest (i + j) (by omega) (Nat.le_add_right _ _)]
  have htake : (s.sets.take i).countP (fun set => !set.items.isEmpty) ≤ i :=
    Nat.le_trans List.countP_le_length (List.length_take_le _ _)
  omega

/-- Merging filled states gives a filled state: the nonempty sets of one meet the empty sets of
    the other. -/
theorem Filled.merge (hadd : ∀ a b : W, 0 ≤ a → 0 ≤ b → 0 ≤ a + b) {k : Nat} {s t : KState W}
    (hs : s.Filled k) (ht : t.Filled k) : (s.merge t).Filled k := by
  have hlen : s.sets.length = t.sets.length := hs.length.trans ht.length.symm
  have hziplen : (List.zipWith KSet.merge s.sets t.sets.reverse).length = k := by
    rw [List.length_zipWith, List.length_reverse, hs.length, ht.length, Nat.min_self]
  refine ⟨(merge_length hlen).trans hs.length, fun set hset => ?_, KSet.sortDesc_pairwise _, ?_⟩
  · have hzip := (KSet.sortDesc_perm _).mem_iff.mp hset
    obtain ⟨i, hi, rfl⟩ := List.mem_iff_getElem.mp hzip
    rw [List.getElem_zipWith]
    exact (hs.nonneg _ (List.getElem_mem _)).merge hadd
      (ht.nonneg _ (List.mem_reverse.mp (List.getElem_mem _)))
  · rw [(merge_perm hlen).length_eq, List.length_append, KState.merge,
      (KSet.sortDesc_perm _).countP_eq]
    have hends := List.le_countP_of_ends
      (fun set : KSet W => !set.items.isEmpty)
      (List.zipWith KSet.merge s.sets t.sets.reverse)
      (a := min k s.indices.length)
      (b := min (min k t.indices.length) (k - min k s.indices.length))
      (by omega)
      (fun i hi hia => by
        have hne := hs.nonempty_first (i := i) (by rw [hs.length]; omega) hia
        simp [List.getElem_zipWith, KSet.merge_items, hne])
      (fun i hi hib => by
        have hne := ht.nonempty_first (i := t.sets.length - 1 - i)
          (by rw [ht.length]; omega) (by rw [ht.length]; omega)
        simp [List.getElem_zipWith, KSet.merge_items, List.getElem_reverse, hne])
    omega

/-- A new state of one item is filled. -/
theorem Filled.single (hadd : ∀ a b : W, 0 ≤ a → 0 ≤ b → 0 ≤ a + b) {k : Nat} (hk : 0 < k)
    {item : Nat × W} (hitem : 0 ≤ item.2) : (ofItems [item] k).Filled k := by
  have hraw : rawSets [item] k = KSet.empty.add item.1 item.2 ::
      List.replicate (k - 1) KSet.empty := rawSets_eq hk
  refine ⟨ofItems_length _ _, fun set hset => ?_, KSet.sortDesc_pairwise _, ?_⟩
  · have hmem : set ∈ rawSets [item] k := (KSet.sortDesc_perm _).mem_iff.mp hset
    rw [hraw] at hmem
    obtain rfl | hrest := List.mem_cons.mp hmem
    · exact ⟨hadd _ _ (le_refl _) hitem, by simpa [KSet.empty, KSet.add] using hitem,
        by simp [KSet.empty, KSet.add]⟩
    · obtain rfl := List.eq_of_mem_replicate hrest
      exact ⟨le_refl _, by simp [KSet.empty], fun _ => rfl⟩
  · rw [(ofItems_perm hk).length_eq, ofItems, (KSet.sortDesc_perm _).countP_eq]
    change _ ≤ (rawSets [item] k).countP _
    rw [hraw, List.countP_cons]
    simp only [KSet.empty, KSet.add, List.nil_append, List.isEmpty_cons, Bool.not_false, if_true,
      List.map_cons, List.map_nil, List.length_singleton]
    omega

end KState

/-! ### The queue -/

/-- Popping takes one state out of the queue. -/
theorem heapPop_perm (s : KState W) (ts : List (KState W)) :
    ((heapPop s ts).1 :: (heapPop s ts).2).Perm (s :: ts) := by
  induction ts generalizing s with
  | nil => exact .refl _
  | cons t ts ih =>
    simp only [heapPop]
    split
    · exact (List.Perm.swap _ _ _).trans ((ih t).cons s)
    · exact (ih t).cons s

/-- One turn of the loop replaces two states of the queue by their merge. -/
theorem mergeStates_succ (n : Nat) (s t : KState W) (ts : List (KState W)) :
    ∃ s₀ s₁ rest, (s₀ :: s₁ :: rest).Perm (s :: t :: ts) ∧
      mergeStates (n + 1) (s :: t :: ts) = mergeStates n (s₀.merge s₁ :: rest) := by
  have hfirst := heapPop_perm s (t :: ts)
  cases hpop : heapPop s (t :: ts) with
  | mk s₀ queue =>
    rw [hpop] at hfirst
    cases queue with
    | nil => exact absurd hfirst.length_eq (by simp)
    | cons u us =>
      have hsecond := heapPop_perm u us
      refine ⟨s₀, (heapPop u us).1, (heapPop u us).2, (hsecond.cons s₀).trans hfirst, ?_⟩
      simp only [mergeStates, hpop]

/-- What merging preserves holds of all states that are left. -/
theorem mergeStates_forall {P : KState W → Prop} (hmerge : ∀ s t, P s → P t → P (s.merge t))
    {n : Nat} {queue : List (KState W)} (h : ∀ s ∈ queue, P s) :
    ∀ s ∈ mergeStates n queue, P s := by
  induction n generalizing queue with
  | zero => exact h
  | succ n ih =>
    match queue, h with
    | [], h => exact h
    | [s], h => exact h
    | s :: t :: ts, h =>
      obtain ⟨s₀, s₁, rest, hperm, hturn⟩ := mergeStates_succ n s t ts
      have hmem : ∀ u ∈ s₀ :: s₁ :: rest, P u := fun u hu => h u (hperm.mem_iff.mp hu)
      rw [hturn]
      refine ih fun u hu => ?_
      obtain rfl | hrest := List.mem_cons.mp hu
      · exact hmerge _ _ (hmem _ (by simp)) (hmem _ (by simp))
      · exact hmem u (by simp [hrest])

/-- Merging moves all indices along. -/
theorem mergeStates_perm {k : Nat} {n : Nat} {queue : List (KState W)}
    (h : ∀ s ∈ queue, s.sets.length = k) :
    ((mergeStates n queue).flatMap (·.indices)).Perm (queue.flatMap (·.indices)) := by
  induction n generalizing queue with
  | zero => exact .refl _
  | succ n ih =>
    match queue, h with
    | [], _ => exact .refl _
    | [s], _ => exact .refl _
    | s :: t :: ts, h =>
      obtain ⟨s₀, s₁, rest, hperm, hturn⟩ := mergeStates_succ n s t ts
      have hmem : ∀ u ∈ s₀ :: s₁ :: rest, u.sets.length = k :=
        fun u hu => h u (hperm.mem_iff.mp hu)
      have hlen : s₀.sets.length = s₁.sets.length :=
        (hmem _ (by simp)).trans (hmem _ (by simp)).symm
      rw [hturn]
      have hrest := @ih (s₀.merge s₁ :: rest) fun u hu => by
        obtain rfl | hu := List.mem_cons.mp hu
        · exact (KState.merge_length hlen).trans (hmem _ (by simp))
        · exact hmem u (by simp [hu])
      refine hrest.trans (List.Perm.trans ?_ (hperm.flatMap_right _))
      simp only [List.flatMap_cons]
      rw [← List.append_assoc]
      exact (KState.merge_perm hlen).append_right _

/-- With enough turns one state is left. -/
theorem mergeStates_length {n : Nat} {queue : List (KState W)} (hne : queue ≠ [])
    (hlen : queue.length ≤ n + 1) : (mergeStates n queue).length = 1 := by
  induction n generalizing queue with
  | zero =>
    have hpos := List.length_pos_iff.mpr hne
    show queue.length = 1
    omega
  | succ n ih =>
    match queue, hne, hlen with
    | [s], _, _ => rfl
    | s :: t :: ts, _, hlen =>
      obtain ⟨s₀, s₁, rest, hperm, hturn⟩ := mergeStates_succ n s t ts
      have hcount := hperm.length_eq
      simp only [List.length_cons] at hcount hlen
      rw [hturn]
      exact ih (by simp) (by simp only [List.length_cons]; omega)

/-! ### The partitions -/

theorem sortedSeqlenList_perm (seqlenList : List W) :
    ((sortedSeqlenList seqlenList).map Prod.fst).Perm (List.range seqlenList.length) := by
  rw [sortedSeqlenList, List.map_map]
  refine ((List.mergeSort_perm _ _).map _).trans ?_
  have hidx : (seqlenList.zipIdx).map (Prod.fst ∘ Prod.swap) = List.range seqlenList.length := by
    simp [List.range_eq_range', Function.comp_def]
  rw [hidx]

theorem sortedSeqlenList_length (seqlenList : List W) :
    (sortedSeqlenList seqlenList).length = seqlenList.length := by
  simpa using (sortedSeqlenList_perm seqlenList).length_eq

/-- The queue starts with states of `k` sets that together have all items. -/
theorem initialStates_spec (sorted : List (Nat × W)) {k : Nat} (hk : 0 < k) {equalSize : Bool}
    (hdvd : equalSize = true → k ∣ sorted.length) :
    (∀ s ∈ initialStates sorted k equalSize, s.sets.length = k) ∧
    ((initialStates sorted k equalSize).flatMap (·.indices)).Perm (sorted.map Prod.fst) := by
  cases equalSize with
  | false =>
    refine ⟨fun s hs => ?_, ?_⟩
    · obtain ⟨item, -, rfl⟩ := List.mem_map.mp hs
      exact KState.ofItems_length _ _
    · simp only [initialStates, Bool.false_eq_true, if_false, List.flatMap_map]
      rw [List.map_eq_flatMap]
      exact List.Perm.flatMap_left _ fun item _ => KState.ofItems_perm hk
  | true =>
    refine ⟨fun s hs => ?_, ?_⟩
    · obtain ⟨j, -, rfl⟩ := List.mem_map.mp hs
      exact KState.ofItems_length _ _
    · simp only [initialStates, if_true, List.flatMap_map]
      have hchunks := List.flatMap_chunks sorted k (sorted.length / k)
      rw [Nat.div_mul_cancel (hdvd rfl), List.take_length] at hchunks
      conv_rhs => rw [← hchunks, List.map_flatMap]
      exact List.Perm.flatMap_left _ fun j _ => KState.ofItems_perm (List.length_take_le _ _)

/-- The partitions of `karmarkar_karp` before its last check. -/
def rawPartitions (seqlenList : List W) (k : Nat) (equalSize : Bool) : List (List Nat) :=
  let states := initialStates (sortedSeqlenList seqlenList) k equalSize
  match mergeStates states.length states with
  | [] => []
  | final :: _ => final.getPartitions

/-- One state is left, and it has all indices. -/
theorem rawPartitions_spec {seqlenList : List W} {k : Nat} (hk : 0 < k) (equalSize : Bool)
    (hne : seqlenList ≠ []) (hdvd : equalSize = true → k ∣ seqlenList.length)
    {P : KState W → Prop} (hmerge : ∀ s t, P s → P t → P (s.merge t))
    (hinit : ∀ s ∈ initialStates (sortedSeqlenList seqlenList) k equalSize, P s) :
    ∃ final, P final ∧ final.sets.length = k ∧
      rawPartitions seqlenList k equalSize = final.getPartitions ∧
      final.indices.Perm (List.range seqlenList.length) := by
  have hlen := sortedSeqlenList_length seqlenList
  obtain ⟨hsets, hperm⟩ := initialStates_spec (sortedSeqlenList seqlenList) hk
    (show equalSize = true → _ by rw [hlen]; exact hdvd)
  generalize hq : initialStates (sortedSeqlenList seqlenList) k equalSize = queue
    at hsets hperm hinit
  have hqueue : queue ≠ [] := by
    rintro rfl
    have hnil := hperm.length_eq
    simp only [List.flatMap_nil, List.length_nil, List.length_map, hlen] at hnil
    exact hne (List.eq_nil_of_length_eq_zero hnil.symm)
  have hone := mergeStates_length hqueue (Nat.le_succ _)
  have hall := mergeStates_forall (n := queue.length) hmerge hinit
  have hmoved := (mergeStates_perm (n := queue.length) hsets).trans
    (hperm.trans (sortedSeqlenList_perm seqlenList))
  have hsetsAll := mergeStates_forall (n := queue.length)
    (P := fun s : KState W => s.sets.length = k)
    (fun s t hs ht => (KState.merge_length (hs.trans ht.symm)).trans hs) hsets
  obtain ⟨final, hfinal⟩ := List.length_eq_one_iff.mp hone
  rw [hfinal] at hall hmoved hsetsAll
  refine ⟨final, hall final (by simp), hsetsAll final (by simp), ?_, by simpa using hmoved⟩
  simp only [rawPartitions, hq, hfinal]

/-- The last check of `karmarkar_karp`: the parts of `n` items have one size. -/
def checkSizes (partitions : List (List Nat)) (k n : Nat) :
    Except BalanceError (List (List Nat)) :=
  match partitions.find? fun p => p.length * k ≠ n with
  | some p => .error (.unequalPartition p.length k n)
  | none => .ok partitions

/-- `karmarkar_karp` returns its partitions unless a check fails. -/
theorem karmarkarKarp_cases (seqlenList : List W) (k : Nat) (equalSize : Bool) :
    (∃ e, karmarkarKarp seqlenList k equalSize = .error e ∧ equalSize = true ∧
      (seqlenList.length % k ≠ 0 ∨
        ∃ p ∈ rawPartitions seqlenList k equalSize, p.length * k ≠ seqlenList.length)) ∨
    (karmarkarKarp seqlenList k equalSize = .ok (rawPartitions seqlenList k equalSize) ∧
      (equalSize = true → seqlenList.length % k = 0 ∧
        ∀ p ∈ rawPartitions seqlenList k equalSize, p.length * k = seqlenList.length)) := by
  cases equalSize with
  | false => exact .inr ⟨rfl, by simp⟩
  | true =>
    by_cases hmod : seqlenList.length % k = 0
    · have hraw : karmarkarKarp seqlenList k true =
          checkSizes (rawPartitions seqlenList k true) k seqlenList.length := by
        simp only [karmarkarKarp, if_true, ensure, if_pos hmod, bind, Except.bind]
        rfl
      rw [hraw, checkSizes]
      cases hfind : (rawPartitions seqlenList k true).find? fun p =>
          p.length * k ≠ seqlenList.length with
      | some p =>
        refine .inl ⟨_, rfl, rfl, .inr ⟨p, List.mem_of_find?_eq_some hfind, ?_⟩⟩
        simpa using List.find?_some hfind
      | none =>
        refine .inr ⟨rfl, fun _ => ⟨hmod, fun p hp => ?_⟩⟩
        have hnone := List.find?_eq_none.mp hfind p hp
        simpa using hnone
    · refine .inl ⟨.notDivisible seqlenList.length k, ?_, rfl, .inl hmod⟩
      simp only [karmarkarKarp, if_true, ensure, if_neg hmod, bind, Except.bind]

/-- The last check passes when there are `k` nonempty partitions with exactly the indices. -/
theorem checkAndSortPartitions_cases (partitions : List (List Nat)) (k n : Nat) :
    (∃ e, checkAndSortPartitions partitions k n = .error e ∧
      ¬ (partitions.length = k ∧ (∀ p ∈ partitions, p ≠ []) ∧
        ∀ idx, idx ∈ partitions.flatten ↔ idx < n)) ∨
    (checkAndSortPartitions partitions k n =
        .ok (partitions.map fun p => p.mergeSort fun a b => decide (a ≤ b)) ∧
      partitions.length = k ∧ ∀ p ∈ partitions, p ≠ []) := by
  simp only [checkAndSortPartitions, ensure, bind, Except.bind]
  by_cases hlen : partitions.length = k
  · rw [if_pos hlen]
    dsimp only
    cases hempty : partitions.findIdx? (·.isEmpty) with
    | some i =>
      refine .inl ⟨_, rfl, fun h => ?_⟩
      obtain ⟨hi, hp, -⟩ := List.findIdx?_eq_some_iff_getElem.mp hempty
      exact h.2.1 _ (List.getElem_mem hi) (List.isEmpty_iff.mp hp)
    | none =>
      have hne : ∀ p ∈ partitions, p ≠ [] := by
        intro p hp hnil
        have hfalse := List.findIdx?_eq_none_iff.mp hempty p hp
        simp [hnil] at hfalse
      by_cases hseen : (∀ idx ∈ partitions.flatten, idx < n) ∧
          ∀ idx < n, idx ∈ partitions.flatten
      · refine .inr ⟨?_, hlen, hne⟩
        simp only [if_pos hseen]
        rfl
      · refine .inl ⟨.indicesSeen, by simp only [if_neg hseen], fun h => hseen ?_⟩
        exact ⟨fun idx hidx => (h.2.2 idx).mp hidx, fun idx hidx => (h.2.2 idx).mpr hidx⟩
  · exact .inl ⟨.partitionCount partitions.length k, by simp only [if_neg hlen], fun h => hlen h.1⟩

/-- Sorting every part keeps the indices. -/
private theorem sorted_parts_perm (partitions : List (List Nat)) :
    (partitions.map fun p => p.mergeSort fun a b => decide (a ≤ b)).flatten.Perm
      partitions.flatten := by
  rw [List.flatten_eq_flatMap, List.flatMap_map, List.flatten_eq_flatMap]
  exact List.Perm.flatMap_left _ fun p _ => List.mergeSort_perm _ _

/-- A balanced partition is the one of `karmarkar_karp` with every part sorted. -/
theorem getSeqlenBalancedPartitions_raw {seqlenList : List W} {k : Nat} {equalSize : Bool}
    {partitions : List (List Nat)}
    (h : getSeqlenBalancedPartitions seqlenList k equalSize = .ok partitions) :
    k ≤ seqlenList.length ∧
      partitions = (rawPartitions seqlenList k equalSize).map
        (fun p => p.mergeSort fun a b => decide (a ≤ b)) ∧
      (rawPartitions seqlenList k equalSize).length = k ∧
      (∀ p ∈ rawPartitions seqlenList k equalSize, p ≠ []) ∧
      (equalSize = true → seqlenList.length % k = 0 ∧
        ∀ p ∈ rawPartitions seqlenList k equalSize, p.length * k = seqlenList.length) := by
  simp only [getSeqlenBalancedPartitions, ensure, bind, Except.bind] at h
  by_cases hle : k ≤ seqlenList.length
  · rw [if_pos hle] at h
    dsimp only at h
    obtain ⟨e, herr, -⟩ | ⟨hok, hequal⟩ := karmarkarKarp_cases seqlenList k equalSize
    · rw [herr] at h
      cases h
    · rw [hok] at h
      dsimp only at h
      obtain ⟨e, herr, -⟩ | ⟨hcheck, hlen, hne⟩ :=
        checkAndSortPartitions_cases (rawPartitions seqlenList k equalSize) k seqlenList.length
      · rw [herr] at h
        cases h
      · rw [hcheck] at h
        cases h
        exact ⟨hle, rfl, hlen, hne, hequal⟩
  · rw [if_neg hle] at h
    cases h

/-- The parts of a balanced partition are nonempty and hold every index once, and have one size
    if that is asked for. -/
theorem getSeqlenBalancedPartitions_perm {seqlenList : List W} {k : Nat} (hk : 0 < k)
    {equalSize : Bool} {partitions : List (List Nat)}
    (h : getSeqlenBalancedPartitions seqlenList k equalSize = .ok partitions) :
    partitions.length = k ∧ partitions.flatten.Perm (List.range seqlenList.length) ∧
    (∀ p ∈ partitions, p ≠ []) ∧
    (equalSize = true → ∀ p ∈ partitions, p.length * k = seqlenList.length) := by
  obtain ⟨hle, rfl, hlen, hne, hequal⟩ := getSeqlenBalancedPartitions_raw h
  obtain ⟨final, -, -, hraw, hperm⟩ := rawPartitions_spec (P := fun _ => True) hk
    equalSize (show seqlenList ≠ [] by rintro rfl; simp at hle; omega)
    (fun he => Nat.dvd_of_mod_eq_zero (hequal he).1) (fun _ _ _ _ => trivial)
    (fun _ _ => trivial)
  refine ⟨by rw [List.length_map]; exact hlen, ?_, ?_, ?_⟩
  · refine (sorted_parts_perm _).trans ?_
    rw [hraw, KState.getPartitions_flatten]
    exact hperm
  · intro p hp hnil
    obtain ⟨q, hq, rfl⟩ := List.mem_map.mp hp
    have hqlen := (List.mergeSort_perm q fun a b => decide (a ≤ b)).length_eq
    rw [hnil] at hqlen
    exact hne q hq (List.eq_nil_of_length_eq_zero hqlen.symm)
  · intro he p hp
    obtain ⟨q, hq, rfl⟩ := List.mem_map.mp hp
    rw [(List.mergeSort_perm q fun a b => decide (a ≤ b)).length_eq]
    exact (hequal he).2 q hq

/-- No check fails when there are enough items: for parts of one size if the count is
    divisible, and for parts of any size if no weight is negative. -/
theorem getSeqlenBalancedPartitions_ok (seqlenList : List W) {k : Nat} (hk : 0 < k)
    (hle : k ≤ seqlenList.length) (equalSize : Bool)
    (hcase : (equalSize = true ∧ k ∣ seqlenList.length) ∨
      (equalSize = false ∧ (∀ a b : W, 0 ≤ a → 0 ≤ b → 0 ≤ a + b) ∧
        ∀ weight ∈ seqlenList, 0 ≤ weight)) :
    ∃ partitions, getSeqlenBalancedPartitions seqlenList k equalSize = .ok partitions := by
  have hne : seqlenList ≠ [] := by
    rintro rfl
    simp at hle
    omega
  -- the state that is left has no empty set, and even ones if these are asked for
  have hfinal : ∃ final : KState W, final.sets.length = k ∧
      rawPartitions seqlenList k equalSize = final.getPartitions ∧
      final.indices.Perm (List.range seqlenList.length) ∧
      (∀ set ∈ final.sets, set.items ≠ []) ∧
      (equalSize = true → ∀ set ∈ final.sets, set.items.length * k = seqlenList.length) := by
    obtain ⟨rfl, hdvd⟩ | ⟨rfl, hadd, hnonneg⟩ := hcase
    · obtain ⟨final, ⟨-, m, hm⟩, hlen, hraw, hperm⟩ := rawPartitions_spec
        (P := KState.Even k) hk true hne (fun _ => hdvd)
        (fun _ _ hs ht => hs.merge ht) (fun s hs => by
          obtain ⟨j, hj, rfl⟩ := List.mem_map.mp hs
          have hj' := List.mem_range.mp hj
          rw [sortedSeqlenList_length] at hj'
          refine ⟨KState.ofItems_length _ _, 1, KState.ofItems_full ?_⟩
          rw [List.length_take, List.length_drop, sortedSeqlenList_length]
          have hmul := Nat.div_mul_cancel hdvd
          have hjk : (j + 1) * k ≤ seqlenList.length := by
            rw [← hmul]
            exact Nat.mul_le_mul_right k hj'
          rw [Nat.succ_mul] at hjk
          omega)
      have htotal : m * k = seqlenList.length := by
        have hcount := hperm.length_eq
        rw [List.length_range, KState.indices, List.length_flatMap] at hcount
        have hconst : (final.sets.map fun set => set.indices.length) =
            List.replicate k m := by
          rw [List.eq_replicate_iff]
          refine ⟨by simpa using hlen, fun n hn => ?_⟩
          obtain ⟨set, hset, rfl⟩ := List.mem_map.mp hn
          simpa [KSet.indices] using hm set hset
        rw [hconst] at hcount
        simpa [Nat.mul_comm] using hcount
      refine ⟨final, hlen, hraw, hperm, fun set hset hnil => ?_, fun _ set hset => ?_⟩
      · have hzero := hm set hset
        rw [hnil] at hzero
        simp only [List.length_nil] at hzero
        rw [← hzero, Nat.zero_mul] at htotal
        omega
      · rw [hm set hset]
        exact htotal
    · obtain ⟨final, hfilled, hlen, hraw, hperm⟩ := rawPartitions_spec
        (P := KState.Filled k) hk false hne (fun h => by cases h)
        (fun _ _ hs ht => hs.merge hadd ht) (fun s hs => by
          obtain ⟨item, hitem, rfl⟩ := List.mem_map.mp hs
          refine KState.Filled.single hadd hk ?_
          obtain ⟨pair, hpair, rfl⟩ := List.mem_map.mp hitem
          have hzip := (List.mergeSort_perm _ _).mem_iff.mp hpair
          exact hnonneg _ (List.fst_mem_of_mem_zipIdx hzip))
      refine ⟨final, hlen, hraw, hperm, fun set hset => ?_, fun h => by cases h⟩
      obtain ⟨i, hi, rfl⟩ := List.mem_iff_getElem.mp hset
      refine hfilled.nonempty_first hi ?_
      rw [hperm.length_eq, List.length_range]
      omega
  obtain ⟨final, hlen, hraw, hperm, hnonempty, hequal⟩ := hfinal
  simp only [getSeqlenBalancedPartitions, ensure, bind, Except.bind, if_pos hle]
  obtain ⟨e, -, heq, hfail⟩ | ⟨hok, -⟩ := karmarkarKarp_cases seqlenList k equalSize
  · exfalso
    obtain hmod | ⟨p, hp, hsize⟩ := hfail
    · obtain ⟨-, hdvd⟩ | ⟨hfalse, -⟩ := hcase
      · exact hmod (Nat.mod_eq_zero_of_dvd hdvd)
      · rw [heq] at hfalse
        cases hfalse
    · rw [hraw] at hp
      obtain ⟨set, hset, rfl⟩ := List.mem_map.mp hp
      rw [List.length_map] at hsize
      exact hsize (hequal heq set hset)
  · rw [hok]
    dsimp only
    obtain ⟨e, -, hfail⟩ | ⟨hcheck, -⟩ :=
      checkAndSortPartitions_cases (rawPartitions seqlenList k equalSize) k seqlenList.length
    · exfalso
      refine hfail ⟨?_, fun p hp => ?_, fun idx => ?_⟩
      · rw [hraw, KState.getPartitions, List.length_map]
        exact hlen
      · rw [hraw] at hp
        obtain ⟨set, hset, rfl⟩ := List.mem_map.mp hp
        simpa using hnonempty set hset
      · rw [hraw, KState.getPartitions_flatten, hperm.mem_iff, List.mem_range]
    · exact ⟨_, hcheck⟩

end KarmarkarKarp

/-! ### First-fit packing -/

/-- The tokens of a bin in its parts. -/
theorem binTokens_append (lengths xs ys : List Nat) :
    binTokens lengths (xs ++ ys) = binTokens lengths xs + binTokens lengths ys := by
  simp [binTokens]

theorem binTokens_perm {lengths xs ys : List Nat} (h : xs.Perm ys) :
    binTokens lengths xs = binTokens lengths ys :=
  (h.map _).sum_nat

/-- A bin of the packing: its sum is kept, it is not empty, and only a bin of one sample may
    exceed the budget. -/
structure Bin.Packed (lengths : List Nat) (maxTokens : Nat) (bin : Bin) : Prop where
  sum : bin.sum = binTokens lengths bin.indices
  nonempty : bin.indices ≠ []
  budget : 1 < bin.indices.length → bin.sum ≤ maxTokens

variable {lengths : List Nat} {bins : List (List Nat)}

/-- Inserting keeps the bins packed. -/
theorem firstFitInsert_packed {maxTokens : Nat} (idx : Nat) {bins : List Bin}
    (h : ∀ bin ∈ bins, bin.Packed lengths maxTokens) :
    ∀ bin ∈ firstFitInsert maxTokens idx (lengths.getD idx 0) bins,
      bin.Packed lengths maxTokens := by
  induction bins with
  | nil =>
    intro bin hbin
    obtain rfl := List.mem_singleton.mp hbin
    exact ⟨by simp [binTokens], by simp, by simp⟩
  | cons b bins ih =>
    have hb := h b (List.mem_cons_self ..)
    have hrest : ∀ bin ∈ bins, bin.Packed lengths maxTokens :=
      fun bin hbin => h bin (List.mem_cons_of_mem _ hbin)
    simp only [firstFitInsert]
    split
    · rename_i hfits
      intro bin hbin
      obtain rfl | hbin := List.mem_cons.mp hbin
      · refine ⟨?_, by simp, fun _ => hfits⟩
        rw [binTokens_append, ← hb.sum]
        simp [binTokens]
      · exact hrest bin hbin
    · intro bin hbin
      obtain rfl | hbin := List.mem_cons.mp hbin
      · exact hb
      · exact ih hrest bin hbin

/-- Inserting adds the index to one bin. -/
theorem firstFitInsert_perm (maxTokens idx length : Nat) (bins : List Bin) :
    ((firstFitInsert maxTokens idx length bins).flatMap (·.indices)).Perm
      (idx :: bins.flatMap (·.indices)) := by
  induction bins with
  | nil => exact .refl _
  | cons b bins ih =>
    simp only [firstFitInsert]
    split
    · simp only [List.flatMap_cons, List.append_assoc, List.singleton_append]
      exact List.perm_middle
    · simp only [List.flatMap_cons]
      exact (ih.append_left _).trans List.perm_middle

/-- First-fit packs every sample once, within the budget. -/
theorem firstFit_spec (order lengths : List Nat) (maxTokens : Nat) :
    (firstFit order lengths maxTokens).flatten.Perm order ∧
    ∀ bin ∈ firstFit order lengths maxTokens, bin ≠ [] ∧
      (1 < bin.length → binTokens lengths bin ≤ maxTokens) := by
  have hfold : ∀ (order : List Nat) (bins : List Bin),
      (∀ bin ∈ bins, bin.Packed lengths maxTokens) →
      let packed := order.foldl (fun bins idx =>
        firstFitInsert maxTokens idx (lengths.getD idx 0) bins) bins
      (packed.flatMap (·.indices)).Perm (order ++ bins.flatMap (·.indices)) ∧
        ∀ bin ∈ packed, bin.Packed lengths maxTokens := by
    intro order
    induction order with
    | nil => exact fun bins hbins => ⟨.refl _, hbins⟩
    | cons idx order ih =>
      intro bins hbins
      obtain ⟨hperm, hpacked⟩ := ih _ (firstFitInsert_packed idx hbins)
      refine ⟨hperm.trans ?_, hpacked⟩
      exact ((firstFitInsert_perm _ _ _ _).append_left order).trans List.perm_middle
  obtain ⟨hperm, hpacked⟩ := hfold order [] (by simp)
  refine ⟨?_, fun bin hbin => ?_⟩
  · rw [firstFit, List.flatten_eq_flatMap, List.flatMap_map]
    simpa using hperm
  · obtain ⟨b, hb, rfl⟩ := List.mem_map.mp hbin
    have hb := hpacked b hb
    exact ⟨hb.nonempty, fun hlt => hb.sum ▸ hb.budget hlt⟩

theorem longestFirst_perm (indices lengths : List Nat) :
    (longestFirst indices lengths).Perm indices :=
  List.mergeSort_perm ..

/-- First-fit decreasing packs every sample once. -/
theorem firstFitDecreasingPack_perm (lengths : List Nat) (maxTokens : Nat) :
    (firstFitDecreasingPack lengths maxTokens).flatten.Perm (List.range lengths.length) :=
  (firstFit_spec _ _ _).1.trans (longestFirst_perm _ _)

/-- A bin with more than one sample is within the budget. -/
theorem firstFitDecreasingPack_budget {maxTokens : Nat} {bin : List Nat}
    (h : bin ∈ firstFitDecreasingPack lengths maxTokens) :
    bin ≠ [] ∧ (1 < bin.length → binTokens lengths bin ≤ maxTokens) :=
  (firstFit_spec _ _ _).2 bin h

/-! ### Splitting bins -/

/-- One step of the split. -/
private def splitStep (lengths : List Nat) (halves : Bin × Bin) (idx : Nat) : Bin × Bin :=
  if halves.1.sum ≤ halves.2.sum then
    ({ indices := halves.1.indices ++ [idx], sum := halves.1.sum + lengths.getD idx 0 }, halves.2)
  else
    (halves.1, { indices := halves.2.indices ++ [idx], sum := halves.2.sum + lengths.getD idx 0 })

private theorem splitBinByTokens_eq (bin lengths : List Nat) :
    splitBinByTokens bin lengths =
      let halves := (longestFirst bin lengths).foldl (splitStep lengths) (⟨[], 0⟩, ⟨[], 0⟩)
      (halves.1.indices, halves.2.indices) :=
  rfl

/-- Every index goes to one half, and a half that has an index keeps it. -/
private theorem foldl_splitStep (lengths order : List Nat) (halves : Bin × Bin) :
    let split := order.foldl (splitStep lengths) halves
    (split.1.indices ++ split.2.indices).Perm
      (halves.1.indices ++ halves.2.indices ++ order) ∧
    (halves.1.indices ≠ [] → split.1.indices ≠ []) ∧
    (halves.2.indices ≠ [] → split.2.indices ≠ []) := by
  induction order generalizing halves with
  | nil => simp
  | cons idx order ih =>
    simp only [List.foldl_cons]
    obtain ⟨hperm, hleft, hright⟩ := ih (splitStep lengths halves idx)
    refine ⟨hperm.trans ?_, fun h => hleft ?_, fun h => hright ?_⟩
    · simp only [splitStep]
      split
      · simp only [List.append_assoc, List.singleton_append]
        refine List.Perm.append_left _ ?_
        exact List.perm_middle.symm
      · simp only [List.append_assoc, List.singleton_append]
        exact .refl _
    · simp only [splitStep]
      split <;> simp [h]
    · simp only [splitStep]
      split <;> simp [h]

/-- The halves of a bin have its samples. -/
theorem splitBinByTokens_perm (bin lengths : List Nat) :
    ((splitBinByTokens bin lengths).1 ++ (splitBinByTokens bin lengths).2).Perm bin := by
  rw [splitBinByTokens_eq]
  obtain ⟨hperm, -⟩ := foldl_splitStep lengths (longestFirst bin lengths) (⟨[], 0⟩, ⟨[], 0⟩)
  exact (hperm.trans (by simp)).trans (longestFirst_perm bin lengths)

/-- A bin of two or more nonempty samples has two nonempty halves: the second sample finds the
    right half lighter. -/
theorem splitBinByTokens_nonempty {bin lengths : List Nat} (hlen : 1 < bin.length)
    (hpos : ∀ idx ∈ bin, 0 < lengths.getD idx 0) :
    (splitBinByTokens bin lengths).1 ≠ [] ∧ (splitBinByTokens bin lengths).2 ≠ [] := by
  have hperm := longestFirst_perm bin lengths
  have hcount := hperm.length_eq
  rw [splitBinByTokens_eq]
  match hsorted : longestFirst bin lengths with
  | [] => simp [hsorted] at hcount; omega
  | [a] => simp [hsorted] at hcount; omega
  | a :: b :: rest =>
    have hapos := hpos a (hperm.mem_iff.mp (by simp [hsorted]))
    have hlighter : ¬ (0 + lengths.getD a 0 ≤ 0) := by omega
    simp only [List.foldl_cons]
    have hfirst : splitStep lengths (splitStep lengths (⟨[], 0⟩, ⟨[], 0⟩) a) b =
        (⟨[a], 0 + lengths.getD a 0⟩, ⟨[b], 0 + lengths.getD b 0⟩) := by
      simp only [splitStep, le_refl, if_true, if_neg hlighter, List.nil_append]
    rw [hfirst]
    obtain ⟨-, hleft, hright⟩ := foldl_splitStep lengths rest
      (⟨[a], 0 + lengths.getD a 0⟩, ⟨[b], 0 + lengths.getD b 0⟩)
    exact ⟨hleft (by simp), hright (by simp)⟩

/-- Whatever is preferred, the pick of a nonempty list is one of its elements. -/
private theorem foldl_pick (prefer : Nat → Nat → Prop) [∀ a b, Decidable (prefer a b)]
    (candidates : List Nat) (best : Option Nat) :
    let pick := candidates.foldl (fun best idx =>
      match best with
      | none => some idx
      | some b => if prefer b idx then some idx else some b) best
    (∀ idx, pick = some idx → best = some idx ∨ idx ∈ candidates) ∧
    (pick = none → best = none ∧ candidates = []) := by
  induction candidates generalizing best with
  | nil => simp
  | cons c candidates ih =>
    simp only [List.foldl_cons]
    obtain ⟨hsome, hnone⟩ := ih (match best with
      | none => some c
      | some b => if prefer b c then some c else some b)
    refine ⟨fun idx hidx => ?_, fun h => ?_⟩
    · obtain hbest | hmem := hsome idx hidx
      · cases best with
        | none =>
          cases hbest
          exact .inr (List.mem_cons_self ..)
        | some b =>
          dsimp only at hbest
          split at hbest
          · cases hbest
            exact .inr (List.mem_cons_self ..)
          · exact .inl hbest
      · exact .inr (List.mem_cons_of_mem _ hmem)
    · obtain ⟨hbest, -⟩ := hnone h
      cases best with
      | none => cases hbest
      | some b =>
        dsimp only at hbest
        split at hbest <;> cases hbest
/-- The bin to split is one of the bins and has more than one sample. -/
theorem largestSplittable_some {idx : Nat}
    (h : largestSplittable bins lengths = some idx) :
    idx < bins.length ∧ 1 < (bins.getD idx []).length := by
  obtain ⟨hsome, -⟩ := foldl_pick (fun b idx =>
    binTokens lengths (bins.getD b []) ≤ binTokens lengths (bins.getD idx []))
    ((List.range bins.length).filter fun idx => 1 < (bins.getD idx []).length) none
  obtain hnone | hmem := hsome idx h
  · cases hnone
  · simpa using hmem

/-- There is no bin to split when all of them have at most one sample. -/
theorem largestSplittable_none
    (h : largestSplittable bins lengths = none) : ∀ bin ∈ bins, bin.length ≤ 1 := by
  obtain ⟨-, hnone⟩ := foldl_pick (fun b idx =>
    binTokens lengths (bins.getD b []) ≤ binTokens lengths (bins.getD idx []))
    ((List.range bins.length).filter fun idx => 1 < (bins.getD idx []).length) none
  obtain ⟨-, hempty⟩ := hnone h
  intro bin hbin
  obtain ⟨i, hi, rfl⟩ := List.mem_iff_getElem.mp hbin
  have hfalse := List.filter_eq_nil_iff.mp hempty i (List.mem_range.mpr hi)
  rw [List.getD_eq_getElem _ _ hi] at hfalse
  simpa using hfalse

/-- One split: the samples stay, one more bin, and both halves are parts of the bin. -/
private theorem split_bin {idx : Nat}
    (hidx : largestSplittable bins lengths = some idx)
    (hpos : ∀ i ∈ bins.flatten, 0 < lengths.getD i 0) :
    let halves := splitBinByTokens (bins.getD idx []) lengths
    (bins.set idx halves.1 ++ [halves.2]).flatten.Perm bins.flatten ∧
    halves.1 ≠ [] ∧ halves.2 ≠ [] ∧ bins.getD idx [] ∈ bins ∧
    (bins.getD idx []).length = halves.1.length + halves.2.length ∧
    binTokens lengths (bins.getD idx []) =
      binTokens lengths halves.1 + binTokens lengths halves.2 := by
  obtain ⟨hi, hlen⟩ := largestSplittable_some hidx
  have hget : bins.getD idx [] = bins[idx] := List.getD_eq_getElem _ _ hi
  have hmem : bins.getD idx [] ∈ bins := hget ▸ List.getElem_mem hi
  have hperm := splitBinByTokens_perm (bins.getD idx []) lengths
  obtain ⟨hleft, hright⟩ := splitBinByTokens_nonempty hlen
    fun i hi' => hpos i (List.mem_flatten.mpr ⟨_, hmem, hi'⟩)
  refine ⟨List.perm_flatten_set_append hi (hget ▸ hperm), hleft, hright, hmem, ?_, ?_⟩
  · rw [← hperm.length_eq, List.length_append]
  · rw [← binTokens_perm hperm, binTokens_append]

/-- The bins after one split are the other bins and the two halves. -/
private theorem mem_split {idx : Nat} {left right bin : List Nat}
    (h : bin ∈ bins.set idx left ++ [right]) : bin ∈ bins ∨ bin = left ∨ bin = right := by
  obtain h | h := List.mem_append.mp h
  · obtain h | h := List.mem_or_eq_of_mem_set h
    · exact .inl h
    · exact .inr (.inl h)
  · exact .inr (.inr (List.mem_singleton.mp h))

/-- Splitting bins of nonempty samples moves samples only, leaves no bin empty, and keeps the
    bins of more than one sample within a budget. -/
theorem expandBinsBySplitting_spec (maxTokens : Nat) {n : Nat}
    (hpos : ∀ idx ∈ bins.flatten, 0 < lengths.getD idx 0) :
    (expandBinsBySplitting lengths n bins).flatten.Perm bins.flatten ∧
    ((∀ bin ∈ bins, bin ≠ []) → ∀ bin ∈ expandBinsBySplitting lengths n bins, bin ≠ []) ∧
    ((∀ bin ∈ bins, 1 < bin.length → binTokens lengths bin ≤ maxTokens) →
      ∀ bin ∈ expandBinsBySplitting lengths n bins,
        1 < bin.length → binTokens lengths bin ≤ maxTokens) := by
  induction n generalizing bins with
  | zero => exact ⟨.refl _, fun h => h, fun h => h⟩
  | succ n ih =>
    simp only [expandBinsBySplitting]
    cases hidx : largestSplittable bins lengths with
    | none => exact ⟨.refl _, fun h => h, fun h => h⟩
    | some idx =>
      obtain ⟨hperm, hleft, hright, hmem, hlen, htokens⟩ := split_bin hidx hpos
      obtain ⟨hperm', hne, hbudget⟩ := ih fun i hi => hpos i (hperm.mem_iff.mp hi)
      refine ⟨hperm'.trans hperm, fun h => hne fun bin hbin => ?_,
        fun h => hbudget fun bin hbin hmany => ?_⟩
      · obtain hbin | rfl | rfl := mem_split hbin
        · exact h bin hbin
        · exact hleft
        · exact hright
      · have hleftPos := List.length_pos_iff.mpr hleft
        have hrightPos := List.length_pos_iff.mpr hright
        have hwhole := h _ hmem (by omega)
        obtain hbin | rfl | rfl := mem_split hbin
        · exact h bin hbin hmany
        · omega
        · omega

/-- Splitting reaches every count up to the number of samples. -/
theorem expandBinsBySplitting_length {n : Nat}
    (hpos : ∀ idx ∈ bins.flatten, 0 < lengths.getD idx 0) (hne : ∀ bin ∈ bins, bin ≠ [])
    (hle : bins.length + n ≤ bins.flatten.length) :
    (expandBinsBySplitting lengths n bins).length = bins.length + n := by
  induction n generalizing bins with
  | zero => rfl
  | succ n ih =>
    simp only [expandBinsBySplitting]
    cases hidx : largestSplittable bins lengths with
    | none =>
      -- no bin has two samples, so there are as many bins as samples
      have hone := largestSplittable_none hidx
      have hcount := List.length_flatten_le_of_forall hone
      omega
    | some idx =>
      obtain ⟨hperm, hleft, hright, hmem, hlen, htokens⟩ := split_bin hidx hpos
      have hmore : (bins.set idx (splitBinByTokens (bins.getD idx []) lengths).1 ++
          [(splitBinByTokens (bins.getD idx []) lengths).2]).length = bins.length + 1 := by
        simp
      have hrest := ih (fun i hi => hpos i (hperm.mem_iff.mp hi))
        (fun bin hbin => by
          obtain hbin | rfl | rfl := mem_split hbin
          · exact hne bin hbin
          · exact hleft
          · exact hright)
        (by rw [hmore, hperm.length_eq]; omega)
      rw [hmore] at hrest
      dsimp only
      rw [hrest]
      omega

end Miles.Balancing
