import Miles.Native.Training.DataIterator
import Miles.Spec.Training.FirstFit

/-!
# What the micro-batches of a DP group share

The largest-differencing partition does not see the token budget, but it spreads the tokens evenly:
two parts differ by at most one sample.  With a number of parts that some first-fit packing needs,
no part exceeds the budget by more than that.
-/

namespace Miles.Balancing

/-! ## How far two parts differ -/

/-- A state of `k` sets from the largest sum to the smallest, which differ by at most `longest`;
    the items of a set are samples with their lengths. -/
structure KState.Spread (lengths : List Nat) (longest k : Nat) (s : KState Nat) : Prop where
  length : s.sets.length = k
  sums : ∀ set ∈ s.sets, set.sum = (set.items.map Prod.snd).sum
  values : ∀ set ∈ s.sets, ∀ item ∈ set.items, item.2 = lengths.getD item.1 0
  sorted : s.sets.Pairwise fun a b => b.sum ≤ a.sum
  close : ∀ a ∈ s.sets, ∀ b ∈ s.sets, a.sum ≤ b.sum + longest

/-- The sum of a merged set, from the sets and from its items. -/
theorem KSet.sum_merge {s t : KSet Nat} (hs : s.sum = (s.items.map Prod.snd).sum) :
    (s.merge t).sum = s.sum + (t.items.map Prod.snd).sum ∧
      (s.merge t).sum = ((s.merge t).items.map Prod.snd).sum := by
  have hfold : ∀ (items : List (Nat × Nat)) (u : KSet Nat),
      (items.foldl (fun u item => u.add item.1 item.2) u).sum =
        u.sum + (items.map Prod.snd).sum := by
    intro items
    induction items with
    | nil => simp
    | cons item items ih =>
      intro u
      rw [List.foldl_cons, ih, List.map_cons, List.sum_cons]
      simp only [KSet.add]
      omega
  refine ⟨hfold t.items s, ?_⟩
  rw [KSet.merge_items, List.map_append, List.sum_append, ← hs]
  exact hfold t.items s

theorem KSet.sortDesc_sums (sets : List (KSet Nat)) :
    (KSet.sortDesc sets).Pairwise fun a b => b.sum ≤ a.sum := by
  refine (KSet.sortDesc_pairwise sets).imp ?_
  intro a b h
  rcases Prod.Lex.toLex_le_toLex.mp h with hlt | ⟨heq, -⟩
  · exact hlt.le
  · exact heq.le

namespace KState

variable {lengths : List Nat} {longest k : Nat}

theorem mem_ofItems_single {item : Nat × Nat} {set : KSet Nat}
    (h : set ∈ (ofItems [item] k).sets) : set = ⟨item.2, [item]⟩ ∨ set = ⟨0, []⟩ := by
  obtain ⟨i, -, rfl⟩ := List.mem_map.mp ((KSet.sortDesc_perm _).mem_iff.mp h)
  cases i with
  | zero =>
    left
    simp [KSet.add, KSet.empty]
  | succ i => exact .inr rfl

/-- A state with one sample. -/
theorem Spread.single {item : Nat × Nat} (hvalue : item.2 = lengths.getD item.1 0)
    (hlongest : item.2 ≤ longest) : (ofItems [item] k).Spread lengths longest k where
  length := ofItems_length _ _
  sums set hset := by
    rcases mem_ofItems_single hset with rfl | rfl <;> simp
  values set hset it hit := by
    rcases mem_ofItems_single hset with rfl | rfl
    · obtain rfl := List.mem_singleton.mp hit
      exact hvalue
    · cases hit
  sorted := KSet.sortDesc_sums _
  close a ha b hb := by
    have hle : a.sum ≤ longest := by
      rcases mem_ofItems_single ha with rfl | rfl
      · exact hlongest
      · exact Nat.zero_le _
    omega

/-- Merging the larger sets of one state with the smaller ones of the other keeps them close. -/
theorem Spread.merge {s t : KState Nat} (hs : s.Spread lengths longest k)
    (ht : t.Spread lengths longest k) : (s.merge t).Spread lengths longest k := by
  have hlen := hs.length.trans ht.length.symm
  have hperm := KSet.sortDesc_perm (List.zipWith KSet.merge s.sets t.sets.reverse)
  -- the sets before they are sorted
  have hraw : ∀ set ∈ (s.merge t).sets, ∃ i, ∃ (hi : i < s.sets.length)
      (hj : t.sets.length - 1 - i < t.sets.length),
      set = s.sets[i].merge t.sets[t.sets.length - 1 - i] := by
    intro set hset
    obtain ⟨i, hi, rfl⟩ := List.mem_iff_getElem.mp (hperm.mem_iff.mp hset)
    have hi' : i < s.sets.length := by
      rw [List.length_zipWith] at hi
      omega
    refine ⟨i, hi', by omega, ?_⟩
    rw [List.getElem_zipWith, List.getElem_reverse]
  have hsum : ∀ i (hi : i < s.sets.length) (hj : t.sets.length - 1 - i < t.sets.length),
      (s.sets[i].merge t.sets[t.sets.length - 1 - i]).sum =
        s.sets[i].sum + t.sets[t.sets.length - 1 - i].sum := by
    intro i hi hj
    rw [(KSet.sum_merge (hs.sums _ (List.getElem_mem hi))).1, ht.sums _ (List.getElem_mem hj)]
  refine ⟨(merge_length hlen).trans hs.length, ?_, ?_, KSet.sortDesc_sums _, ?_⟩
  · intro set hset
    obtain ⟨i, hi, hj, rfl⟩ := hraw set hset
    exact (KSet.sum_merge (hs.sums _ (List.getElem_mem hi))).2
  · intro set hset item hitem
    obtain ⟨i, hi, hj, rfl⟩ := hraw set hset
    rw [KSet.merge_items] at hitem
    rcases List.mem_append.mp hitem with hitem | hitem
    · exact hs.values _ (List.getElem_mem hi) item hitem
    · exact ht.values _ (List.getElem_mem hj) item hitem
  · intro a ha b hb
    obtain ⟨i, hi, hi', rfl⟩ := hraw a ha
    obtain ⟨j, hj, hj', rfl⟩ := hraw b hb
    rw [hsum i hi hi', hsum j hj hj']
    have hsclose := hs.close _ (List.getElem_mem hi) _ (List.getElem_mem hj)
    have htclose := ht.close _ (List.getElem_mem hi') _ (List.getElem_mem hj')
    -- where one state has the larger set, the other has the smaller one
    rcases lt_trichotomy i j with hij | rfl | hij
    · have hpair := List.pairwise_iff_getElem.mp ht.sorted _ _ hj' hi' (by omega)
      omega
    · omega
    · have hpair := List.pairwise_iff_getElem.mp hs.sorted _ _ hj hi hij
      omega

end KState

theorem mem_sortedSeqlenList {lengths : List Nat} {item : Nat × Nat}
    (h : item ∈ sortedSeqlenList lengths) :
    item.2 = lengths.getD item.1 0 ∧ item.2 ∈ lengths := by
  obtain ⟨⟨length, idx⟩, hpair, rfl⟩ := List.mem_map.mp h
  have hget := List.mem_zipIdx_iff_getElem?.mp ((List.mergeSort_perm _ _).mem_iff.mp hpair)
  refine ⟨?_, List.mem_of_getElem? hget⟩
  show length = lengths.getD idx 0
  rw [List.getD_eq_getElem?_getD, hget]
  rfl

/-- Two parts of a partition into parts of any size differ by at most the longest sample. -/
theorem getSeqlenBalancedPartitions_close {lengths : List Nat} {k longest : Nat} (hk : 0 < k)
    {partitions : List (List Nat)}
    (h : getSeqlenBalancedPartitions lengths k false = .ok partitions)
    (hlongest : ∀ length ∈ lengths, length ≤ longest) :
    ∀ p ∈ partitions, ∀ q ∈ partitions, binTokens lengths p ≤ binTokens lengths q + longest := by
  obtain ⟨hle, rfl, -, -, -⟩ := getSeqlenBalancedPartitions_raw h
  obtain ⟨final, hspread, -, hraw, -⟩ := rawPartitions_spec
    (P := KState.Spread lengths longest k) hk false
    (show lengths ≠ [] by rintro rfl; simp at hle; omega) (fun h => by cases h)
    (fun _ _ hs ht => hs.merge ht) (fun s hs => by
      obtain ⟨item, hitem, rfl⟩ := List.mem_map.mp hs
      obtain ⟨hvalue, hmem⟩ := mem_sortedSeqlenList hitem
      exact .single hvalue (hlongest _ hmem))
  -- a part has the tokens of its set
  have htokens : ∀ p ∈ (rawPartitions lengths k false).map
      (fun p => p.mergeSort fun a b => decide (a ≤ b)),
      ∃ set ∈ final.sets, binTokens lengths p = set.sum := by
    intro p hp
    obtain ⟨q, hq, rfl⟩ := List.mem_map.mp hp
    rw [hraw] at hq
    obtain ⟨set, hset, rfl⟩ := List.mem_map.mp hq
    refine ⟨set, hset, ?_⟩
    rw [binTokens_perm (List.mergeSort_perm _ _), hspread.sums set hset, binTokens, List.map_map]
    congr 1
    exact List.map_congr_left fun item hitem => (hspread.values set hset item hitem).symm
  intro p hp q hq
  obtain ⟨a, ha, hpa⟩ := htokens p hp
  obtain ⟨b, hb, hqb⟩ := htokens q hq
  rw [hpa, hqb]
  exact hspread.close a ha b hb

/-! ## A batch that is split unevenly -/

/-- A turn of the merging loop. -/
theorem mergeStates_turn {n : Nat} {s t s₀ s₁ m : KState Nat} {ts rest : List (KState Nat)}
    (u : KState Nat) (us : List (KState Nat)) (hm : s₀.merge s₁ = m)
    (h₀ : heapPop s (t :: ts) = (s₀, u :: us)) (h₁ : heapPop u us = (s₁, rest)) :
    mergeStates (n + 1) (s :: t :: ts) = mergeStates n (m :: rest) := by
  simp only [mergeStates, h₀, h₁, hm]

/-- Two sets are sorted by one comparison. -/
theorem sortDesc_pair (a b : KSet Nat) :
    KSet.sortDesc [a, b] = if b.key ≤ a.key then [a, b] else [b, a] := by
  simp [KSet.sortDesc, List.mergeSort, List.MergeSort.Internal.splitInTwo, List.merge]

theorem merge_pair {a b c d x y : KSet Nat}
    (hsort : (if (b.merge c).key ≤ (a.merge d).key then [a.merge d, b.merge c]
      else [b.merge c, a.merge d]) = [x, y]) :
    KState.merge ⟨[a, b]⟩ ⟨[c, d]⟩ = ⟨[x, y]⟩ := by
  rw [← hsort, ← sortDesc_pair]
  rfl

/-- The state of one sample and an empty set. -/
def sampleState (i v : Nat) : KState Nat := ⟨[⟨v, [(i, v)]⟩, ⟨0, []⟩]⟩

theorem ofItems_pair {i v : Nat} (hv : 0 < v) : KState.ofItems [(i, v)] 2 = sampleState i v := by
  have hkey : (KSet.empty : KSet Nat).key ≤ (KSet.empty.add i v).key := by
    refine le_of_lt (Prod.Lex.toLex_lt_toLex.mpr (.inl ?_))
    simpa [KSet.add, KSet.empty] using hv
  show KState.mk (KSet.sortDesc [KSet.empty.add i v, KSet.empty]) = _
  rw [sortDesc_pair, if_pos hkey]
  simp [KSet.add, KSet.empty, sampleState]

/-- First-fit packs these samples into two micro-batches of six tokens; the largest differences
    first, they are split less evenly. -/
theorem getSeqlenBalancedPartitions_uneven :
    getSeqlenBalancedPartitions [2, 2, 2, 3, 3] 2 false = .ok [[0, 1, 3], [2, 4]] := by
  have hsorted : sortedSeqlenList [2, 2, 2, 3, 3] =
      [(0, 2), (1, 2), (2, 2), (3, 3), (4, 3)] := by
    rw [sortedSeqlenList, @List.mergeSort_eq_insertionSort _
      (fun a b : Nat × Nat => toLex a ≤ toLex b) _ ⟨fun a b => le_total _ _⟩
      ⟨fun a b c => le_trans⟩ ⟨fun a b h h' => toLex.injective (le_antisymm h h')⟩]
    decide
  have hstates : initialStates [(0, 2), (1, 2), (2, 2), (3, 3), (4, 3)] 2 false =
      [sampleState 0 2, sampleState 1 2, sampleState 2 2, sampleState 3 3, sampleState 4 3] := by
    simp only [initialStates, Bool.false_eq_true, if_false, List.map_cons, List.map_nil]
    rw [ofItems_pair (by decide), ofItems_pair (by decide), ofItems_pair (by decide),
      ofItems_pair (by decide), ofItems_pair (by decide)]
  -- the two long samples are set against each other, then two of the short ones, and the last
  -- short one goes on top of a long one
  have hturns : mergeStates 5 [sampleState 0 2, sampleState 1 2, sampleState 2 2, sampleState 3 3,
      sampleState 4 3] = [⟨[⟨7, [(0, 2), (3, 3), (1, 2)]⟩, ⟨5, [(4, 3), (2, 2)]⟩]⟩] := by
    have hlong : (sampleState 4 3).merge (sampleState 3 3) =
        ⟨[⟨3, [(4, 3)]⟩, ⟨3, [(3, 3)]⟩]⟩ := merge_pair (by decide)
    have hshort : (sampleState 2 2).merge (sampleState 1 2) =
        ⟨[⟨2, [(2, 2)]⟩, ⟨2, [(1, 2)]⟩]⟩ := merge_pair (by decide)
    have hlast : (sampleState 0 2).merge ⟨[⟨3, [(4, 3)]⟩, ⟨3, [(3, 3)]⟩]⟩ =
        ⟨[⟨5, [(0, 2), (3, 3)]⟩, ⟨3, [(4, 3)]⟩]⟩ := merge_pair (by decide)
    have hfinal : KState.merge ⟨[⟨5, [(0, 2), (3, 3)]⟩, ⟨3, [(4, 3)]⟩]⟩
        ⟨[⟨2, [(2, 2)]⟩, ⟨2, [(1, 2)]⟩]⟩ =
        ⟨[⟨7, [(0, 2), (3, 3), (1, 2)]⟩, ⟨5, [(4, 3), (2, 2)]⟩]⟩ := merge_pair (by decide)
    rw [mergeStates_turn (sampleState 0 2) [sampleState 1 2, sampleState 2 2, sampleState 3 3]
        hlong (by decide) (show _ = (_, [sampleState 0 2, sampleState 1 2, sampleState 2 2]) by
          decide),
      mergeStates_turn ⟨[⟨3, [(4, 3)]⟩, ⟨3, [(3, 3)]⟩]⟩ [sampleState 0 2, sampleState 1 2]
        hshort (by decide)
        (show _ = (_, [⟨[⟨3, [(4, 3)]⟩, ⟨3, [(3, 3)]⟩]⟩, sampleState 0 2]) by decide),
      mergeStates_turn ⟨[⟨2, [(2, 2)]⟩, ⟨2, [(1, 2)]⟩]⟩ [⟨[⟨3, [(4, 3)]⟩, ⟨3, [(3, 3)]⟩]⟩]
        hlast (by decide) (show _ = (_, [⟨[⟨2, [(2, 2)]⟩, ⟨2, [(1, 2)]⟩]⟩]) by decide),
      mergeStates_turn ⟨[⟨2, [(2, 2)]⟩, ⟨2, [(1, 2)]⟩]⟩ [] hfinal (by decide)
        (show _ = (_, []) by decide)]
    rfl
  have hparts : karmarkarKarp [2, 2, 2, 3, 3] 2 false = .ok [[0, 3, 1], [4, 2]] := by
    simp only [karmarkarKarp, hsorted, hstates]
    rw [show [sampleState 0 2, sampleState 1 2, sampleState 2 2, sampleState 3 3,
      sampleState 4 3].length = 5 from rfl, hturns]
    rfl
  have hfirst : [0, 3, 1].mergeSort (fun a b : Nat => decide (a ≤ b)) = [0, 1, 3] := by
    simp [List.mergeSort, List.MergeSort.Internal.splitInTwo]
  have hsecond : [4, 2].mergeSort (fun a b : Nat => decide (a ≤ b)) = [2, 4] := by
    simp [List.mergeSort, List.MergeSort.Internal.splitInTwo]
  have hcheck : checkAndSortPartitions [[0, 3, 1], [4, 2]] 2 5 =
      .ok ([[0, 3, 1], [4, 2]].map fun p => p.mergeSort fun a b => decide (a ≤ b)) := rfl
  rw [List.map_cons, List.map_cons, List.map_nil, hfirst, hsecond] at hcheck
  simp only [getSeqlenBalancedPartitions, hparts]
  exact hcheck

end Miles.Balancing

namespace Miles.DataIterator

open Miles.Balancing BinPacking

variable {cfg : IteratorConfig} {data : LocalData} {numLocalGbs step : Nat}

/-! ## The estimate -/

/-- The estimate is the number of bins of first-fit. -/
theorem getMinimumNumMicroBatchSize_eq (lengths : List Nat) (maxTokens : Nat) :
    getMinimumNumMicroBatchSize lengths maxTokens = (firstFitPack lengths maxTokens).length := by
  have hinsert : ∀ (idx length : Nat) (bins : List Bin),
      (firstFitInsert maxTokens idx length bins).map (·.sum) =
        addToBatches maxTokens length (bins.map (·.sum)) := by
    intro idx length bins
    induction bins with
    | nil => rfl
    | cons bin bins ih =>
      simp only [firstFitInsert, addToBatches, List.map_cons]
      split
      · rfl
      · rw [List.map_cons, ih]
  have hfold : ∀ (order : List Nat) (bins : List Bin),
      (order.foldl (fun bins idx => firstFitInsert maxTokens idx (lengths.getD idx 0) bins)
        bins).map (·.sum) =
      (order.map (lengths.getD · 0)).foldl
        (fun batches length => addToBatches maxTokens length batches) (bins.map (·.sum)) := by
    intro order
    induction order with
    | nil => simp
    | cons idx order ih =>
      intro bins
      rw [List.foldl_cons, ih, List.map_cons, List.foldl_cons, hinsert]
  have hlengths : (List.range lengths.length).map (lengths.getD · 0) = lengths := by
    apply List.ext_getElem
    · simp
    · intro i hi hi'
      simp [hi']
  have hbins := congrArg List.length (hfold (List.range lengths.length) [])
  rw [hlengths, List.length_map, List.map_nil] at hbins
  rw [getMinimumNumMicroBatchSize, ← hbins, firstFitPack, firstFit, List.length_map]

/-- No more micro-batches than samples, and one at least for a sample. -/
theorem getMinimumNumMicroBatchSize_bounds {lengths : List Nat} (maxTokens : Nat)
    (hne : lengths ≠ []) :
    0 < getMinimumNumMicroBatchSize lengths maxTokens ∧
      getMinimumNumMicroBatchSize lengths maxTokens ≤ lengths.length := by
  rw [getMinimumNumMicroBatchSize_eq]
  obtain ⟨hperm, hbins⟩ := firstFit_spec (List.range lengths.length) lengths maxTokens
  have hcount := hperm.length_eq
  rw [List.length_range] at hcount
  have hpos := List.length_pos_iff.mpr hne
  constructor
  · by_contra hzero
    rw [firstFitPack, Nat.not_lt, Nat.le_zero, List.length_eq_zero_iff] at hzero
    rw [hzero] at hcount
    simp only [List.flatten_nil, List.length_nil] at hcount
    omega
  · rw [← hcount, List.length_flatten]
    have hone : ∀ n ∈ (firstFit (List.range lengths.length) lengths maxTokens).map List.length,
        1 ≤ n := by
      intro n hn
      obtain ⟨bin, hbin, rfl⟩ := List.mem_map.mp hn
      exact List.length_pos_iff.mpr (hbins bin hbin).1
    have hsum := List.card_nsmul_le_sum _ 1 hone
    simpa [firstFitPack] using hsum

/-- Samples within the budget fit into the estimated number of micro-batches. -/
theorem sum_le_of_getMinimumNumMicroBatchSize {lengths : List Nat} {maxTokens : Nat}
    (h : ∀ length ∈ lengths, length ≤ maxTokens) :
    lengths.sum ≤ maxTokens * getMinimumNumMicroBatchSize lengths maxTokens := by
  rw [getMinimumNumMicroBatchSize_eq]
  have hvolume := (firstFit_packs (List.range lengths.length) lengths maxTokens).volume_le
  have heq : volume (lengths.getD · 0) maxTokens (List.range lengths.length) = lengths.sum := by
    rw [volume, load]
    congr 1
    apply List.ext_getElem
    · simp
    · intro i hi hi'
      have hlt : i < lengths.length := hi'
      simp [cappedSize, hlt, h _ (List.getElem_mem hlt)]
  rwa [heq] at hvolume

/-! ## Reducing -/

/-- The reduced vector holds the largest entry of all ranks at every position. -/
theorem allReduceMax_spec {vectors : List (List Nat)} {n : Nat} (hne : vectors ≠ [])
    (hlen : ∀ v ∈ vectors, v.length = n) :
    ∃ reduced, allReduceMax vectors = .ok reduced ∧ reduced.length = n ∧
      ∀ i < n, (∀ v ∈ vectors, v.getD i 0 ≤ reduced.getD i 0) ∧
        ∃ v ∈ vectors, v.getD i 0 = reduced.getD i 0 := by
  obtain ⟨v, vs, rfl⟩ := List.exists_cons_of_ne_nil hne
  have hfold : ∀ (vs : List (List Nat)) (v : List Nat), v.length = n → (∀ w ∈ vs, w.length = n) →
      (vs.foldl (List.zipWith max) v).length = n ∧
        ∀ i < n, (∀ w ∈ v :: vs, w.getD i 0 ≤ (vs.foldl (List.zipWith max) v).getD i 0) ∧
          ∃ w ∈ v :: vs, w.getD i 0 = (vs.foldl (List.zipWith max) v).getD i 0 := by
    intro vs
    induction vs with
    | nil =>
      intro v hv _
      exact ⟨hv, fun i _ => ⟨by simp, v, by simp, rfl⟩⟩
    | cons u us ih =>
      intro v hv hall
      have hu := hall u (by simp)
      have hmax : (List.zipWith max v u).length = n := by
        rw [List.length_zipWith, hv, hu, Nat.min_self]
      obtain ⟨hlength, hget⟩ := ih _ hmax fun w hw => hall w (by simp [hw])
      refine ⟨hlength, fun i hi => ?_⟩
      obtain ⟨hle, w, hw, heq⟩ := hget i hi
      have hzip : (List.zipWith max v u).getD i 0 = max (v.getD i 0) (u.getD i 0) := by
        rw [List.getD_eq_getElem _ _ (by omega), List.getD_eq_getElem _ _ (by omega),
          List.getD_eq_getElem _ _ (by omega), List.getElem_zipWith]
      have hfirst := hle _ List.mem_cons_self
      rw [hzip] at hfirst
      rw [List.foldl_cons]
      constructor
      · intro x hx
        rcases List.mem_cons.mp hx with rfl | hx
        · exact (le_max_left _ _).trans hfirst
        · rcases List.mem_cons.mp hx with rfl | hx
          · exact (le_max_right _ _).trans hfirst
          · exact hle x (by simp [hx])
      · rcases List.mem_cons.mp hw with rfl | hw
        · rw [hzip] at heq
          rcases max_choice (v.getD i 0) (u.getD i 0) with hmaxeq | hmaxeq
          · exact ⟨v, List.mem_cons_self, by rw [← hmaxeq]; exact heq⟩
          · exact ⟨u, List.mem_cons_of_mem _ List.mem_cons_self, by rw [← hmaxeq]; exact heq⟩
        · exact ⟨w, List.mem_cons_of_mem _ (List.mem_cons_of_mem _ hw), heq⟩
  have hv := hlen v (by simp)
  obtain ⟨hlength, hget⟩ := hfold vs v hv fun w hw => hlen w (by simp [hw])
  refine ⟨_, if_pos ?_, hlength, hget⟩
  intro w hw
  rw [hv, hlen w (by simp [hw])]

/-! ## A step -/

theorem stepSamples_length {lengths : List Nat}
    (h : step * numLocalGbs + numLocalGbs ≤ lengths.length) :
    (stepSamples numLocalGbs step lengths).length = numLocalGbs := by
  rw [stepSamples, List.length_take, List.length_drop]
  omega

theorem step_fits {lengths : List Nat} {steps : Nat} (h : lengths.length = steps * numLocalGbs)
    (hstep : step < steps) : step * numLocalGbs + numLocalGbs ≤ lengths.length := by
  rw [h, ← Nat.succ_mul]
  exact Nat.mul_le_mul_right numLocalGbs hstep

/-- What a balanced step looks like: the samples of the step, each in one micro-batch. -/
structure StepSchedule (numLocalGbs step numMbs : Nat) (lengths : List Nat)
    (microBatches : List (List Nat)) : Prop where
  count : microBatches.length = numMbs
  partition : microBatches.flatten.Perm (List.range' (step * numLocalGbs) numLocalGbs)
  nonempty : ∀ mb ∈ microBatches, mb ≠ []
  close : ∀ longest, (∀ length ∈ stepSamples numLocalGbs step lengths, length ≤ longest) →
    ∀ a ∈ microBatches, ∀ b ∈ microBatches, binTokens lengths a ≤ binTokens lengths b + longest

/-- The tokens of a part, read in the step and in the whole rollout. -/
theorem binTokens_step {lengths part : List Nat} (h : ∀ j ∈ part, j < numLocalGbs) :
    binTokens lengths (part.map (step * numLocalGbs + ·)) =
      binTokens (stepSamples numLocalGbs step lengths) part := by
  rw [binTokens, binTokens, List.map_map]
  congr 1
  apply List.map_congr_left
  intro j hj
  have hlt := h j hj
  simp only [Function.comp_apply, List.getD_eq_getElem?_getD, stepSamples]
  rw [List.getElem?_take_of_lt hlt, List.getElem?_drop]

/-- The micro-batch of a part, among the samples of the rollout. -/
def placeInRollout (numLocalGbs : Nat) (data : LocalData) (step : Nat) (part : List Nat) :
    List Nat :=
  match data.adapterSlots with
  | none => part.map (step * numLocalGbs + ·)
  | some slots => (part.map (step * numLocalGbs + ·)).mergeSort
      fun i j => decide (slots.getD i 0 ≤ slots.getD j 0)

/-- Sorting a micro-batch by adapter slot changes only the order inside it. -/
theorem placeInRollout_perm (numLocalGbs : Nat) (data : LocalData) (step : Nat) (part : List Nat) :
    (placeInRollout numLocalGbs data step part).Perm (part.map (step * numLocalGbs + ·)) := by
  unfold placeInRollout
  split
  · exact .refl _
  · exact List.mergeSort_perm _ _

theorem placeInRollout_flatten (data : LocalData) (parts : List (List Nat)) :
    (parts.map (placeInRollout numLocalGbs data step)).flatten.Perm
      (parts.flatten.map (step * numLocalGbs + ·)) := by
  induction parts with
  | nil => exact .refl _
  | cons part parts ih =>
    rw [List.map_cons, List.flatten_cons, List.flatten_cons, List.map_append]
    exact (placeInRollout_perm _ _ _ part).append ih

theorem stepMicroBatchIndices_ok {numMbs : Nat} (hpos : 0 < numMbs) (hle : numMbs ≤ numLocalGbs)
    (hlen : step * numLocalGbs + numLocalGbs ≤ data.totalLengths.length) :
    ∃ microBatches, stepMicroBatchIndices numLocalGbs data step numMbs = .ok microBatches ∧
      StepSchedule numLocalGbs step numMbs data.totalLengths microBatches := by
  have hsamples := stepSamples_length hlen
  obtain ⟨partitions, hok⟩ := getSeqlenBalancedPartitions_ok
    (stepSamples numLocalGbs step data.totalLengths) hpos (by omega) false
    (.inr ⟨rfl, fun a b _ _ => Nat.zero_le _, fun _ _ => Nat.zero_le _⟩)
  obtain ⟨hcount, hperm, hne, -⟩ := getSeqlenBalancedPartitions_perm hpos hok
  rw [hsamples] at hperm
  have hbound : ∀ part ∈ partitions, ∀ j ∈ part, j < numLocalGbs := by
    intro part hpart j hj
    exact List.mem_range.mp (hperm.mem_iff.mp (List.mem_flatten.mpr ⟨part, hpart, hj⟩))
  refine ⟨partitions.map (placeInRollout numLocalGbs data step), ?_, ?_, ?_, ?_, ?_⟩
  · rw [stepMicroBatchIndices, hok]
    rfl
  · rw [List.length_map, hcount]
  · have hrange : (List.range numLocalGbs).map (step * numLocalGbs + ·) =
        List.range' (step * numLocalGbs) numLocalGbs := by
      rw [List.range_eq_range', List.map_add_range', Nat.add_zero]
    rw [← hrange]
    exact (placeInRollout_flatten data partitions).trans (hperm.map _)
  · intro mb hmb hnil
    obtain ⟨part, hpart, rfl⟩ := List.mem_map.mp hmb
    have hlength := (placeInRollout_perm numLocalGbs data step part).length_eq
    rw [hnil, List.length_map] at hlength
    exact hne part hpart (List.eq_nil_of_length_eq_zero hlength.symm)
  · intro longest hlongest a ha b hb
    obtain ⟨p, hp, rfl⟩ := List.mem_map.mp ha
    obtain ⟨q, hq, rfl⟩ := List.mem_map.mp hb
    rw [binTokens_perm (placeInRollout_perm numLocalGbs data step p),
      binTokens_perm (placeInRollout_perm numLocalGbs data step q), binTokens_step (hbound p hp),
      binTokens_step (hbound q hq)]
    exact getSeqlenBalancedPartitions_close hpos hok hlongest p hp q hq

/-- No micro-batch exceeds the budget by more than the longest sample, when there are as many
    as the samples of the step need. -/
theorem StepSchedule.tokens_le {numMbs maxTokens longest : Nat} {lengths : List Nat}
    {microBatches : List (List Nat)}
    (h : StepSchedule numLocalGbs step numMbs lengths microBatches)
    (hlen : step * numLocalGbs + numLocalGbs ≤ lengths.length)
    (hlongest : ∀ length ∈ stepSamples numLocalGbs step lengths, length ≤ longest)
    (hbudget : longest ≤ maxTokens)
    (henough : getMinimumNumMicroBatchSize (stepSamples numLocalGbs step lengths) maxTokens ≤
      numMbs) :
    ∀ mb ∈ microBatches, binTokens lengths mb ≤ maxTokens + longest := by
  intro mb hmb
  have hsum := sum_le_of_getMinimumNumMicroBatchSize fun length hmem =>
    (hlongest length hmem).trans hbudget
  -- all tokens of the step
  have htotal : (microBatches.map (binTokens lengths)).sum =
      (stepSamples numLocalGbs step lengths).sum := by
    have hflat : ∀ mbs : List (List Nat),
        (mbs.map (binTokens lengths)).sum = binTokens lengths mbs.flatten := by
      intro mbs
      induction mbs with
      | nil => rfl
      | cons mb mbs ih =>
        rw [List.map_cons, List.sum_cons, ih, List.flatten_cons, binTokens_append]
    rw [hflat, binTokens_perm h.partition, binTokens]
    congr 1
    apply List.ext_getElem
    · rw [List.length_map, List.length_range', stepSamples_length hlen]
    · intro j hj hj'
      rw [stepSamples_length hlen] at hj'
      simp only [List.getElem_map, List.getElem_range', Nat.one_mul, stepSamples, List.getElem_take,
        List.getElem_drop]
      rw [List.getD_eq_getElem _ _ (by omega)]
  by_contra hover
  rw [Nat.not_le] at hover
  -- then every micro-batch has more than the budget
  have hall : ∀ tokens ∈ microBatches.map (binTokens lengths), maxTokens + 1 ≤ tokens := by
    intro tokens htokens
    obtain ⟨other, hother, rfl⟩ := List.mem_map.mp htokens
    have hclose := h.close longest hlongest mb hmb other hother
    omega
  have hcard := List.card_nsmul_le_sum _ _ hall
  rw [List.length_map, h.count, htotal, smul_eq_mul] at hcard
  have hpos : 0 < numMbs := by
    rw [← h.count]
    exact List.length_pos_of_mem hmb
  have hmul := Nat.mul_le_mul_left maxTokens henough
  rw [Nat.mul_succ] at hcard
  have hcomm := Nat.mul_comm numMbs maxTokens
  omega

/-! ## A rollout -/

/-- What a rank needs for a step by its own samples. -/
def estimate (cfg : IteratorConfig) (numLocalGbs : Nat) (data : LocalData) (step : Nat) : Nat :=
  getMinimumNumMicroBatchSize (stepSamples numLocalGbs step data.totalLengths) cfg.maxTokens

namespace IteratorConfig

theorem clampToGroup_bounds (cfg : IteratorConfig) {n : Nat} (hpos : 0 < n) :
    0 < cfg.clampToGroup n ∧ cfg.clampToGroup n ≤ n := by
  rw [clampToGroup]
  split
  · have hle := Nat.div_mul_le_self n cfg.microbatchGroupSizePerVpStage
    omega
  · exact ⟨hpos, Nat.le_refl n⟩

/-- A whole group is left for rounding down. -/
theorem clampToGroup_dvd (cfg : IteratorConfig) {n : Nat} (hvpp : cfg.vppSize > 1)
    (hgroup : cfg.microbatchGroupSizePerVpStage ≠ 0)
    (hle : cfg.microbatchGroupSizePerVpStage ≤ n) :
    cfg.microbatchGroupSizePerVpStage ∣ cfg.clampToGroup n := by
  have hquot := Nat.div_pos hle (by omega)
  have hmul := Nat.mul_le_mul hquot (show 1 ≤ cfg.microbatchGroupSizePerVpStage by omega)
  rw [clampToGroup, if_pos hvpp, Nat.max_eq_left hmul]
  exact Nat.dvd_mul_left _ _

theorem getD_map_clampToGroup (cfg : IteratorConfig) {most : List Nat} {i : Nat}
    (hi : i < most.length) :
    (most.map cfg.clampToGroup).getD i 0 = cfg.clampToGroup (most.getD i 0) := by
  rw [List.getD_eq_getElem _ _ (by rwa [List.length_map]), List.getD_eq_getElem _ _ hi,
    List.getElem_map]

theorem numLocalGbs_ok (cfg : IteratorConfig) (hdvd : cfg.dpSize ∣ cfg.globalBatchSize)
    (hgbs : cfg.globalBatchSize ≠ 0) :
    cfg.numLocalGbs = .ok (cfg.globalBatchSize / cfg.dpSize) ∧
      0 < cfg.globalBatchSize / cfg.dpSize := by
  have hdp : cfg.dpSize ≠ 0 := fun h => hgbs (Nat.eq_zero_of_zero_dvd (h ▸ hdvd))
  have hpos : 0 < cfg.globalBatchSize / cfg.dpSize :=
    Nat.div_pos (Nat.le_of_dvd (by omega) hdvd) (by omega)
  refine ⟨?_, hpos⟩
  rw [numLocalGbs, if_neg hdp, if_neg (by rw [Nat.mod_eq_zero_of_dvd hdvd]; exact fun h => h rfl),
    if_neg (by omega)]

end IteratorConfig

/-- The samples of the steps are the samples of the rollout. -/
theorem flatMap_steps_perm {schedule : Nat → List Nat} {steps : Nat}
    (h : ∀ i < steps, (schedule i).Perm (List.range' (i * numLocalGbs) numLocalGbs)) :
    ((List.range steps).flatMap schedule).Perm (List.range (steps * numLocalGbs)) := by
  induction steps with
  | zero => simp
  | succ steps ih =>
    rw [List.range_succ, List.flatMap_append, List.flatMap_singleton, Nat.succ_mul,
      List.range_add]
    have hlast := h steps (by omega)
    rw [show List.range' (steps * numLocalGbs) numLocalGbs =
      (List.range numLocalGbs).map (steps * numLocalGbs + ·) by
        rw [List.range_eq_range', List.map_add_range', Nat.add_zero]] at hlast
    exact (ih fun i hi => h i (by omega)).append hlast

/-- The estimates that are reduced, and what their maximum is. -/
theorem reduced_estimates (cfg : IteratorConfig) {ranks : List LocalData} {steps : Nat} (hne : ranks ≠ [])
    (hpos : 0 < numLocalGbs)
    (hsamples : ∀ data ∈ ranks, data.totalLengths.length = steps * numLocalGbs) :
    ∃ most, allReduceMax (ranks.map (localNumMicrobatches cfg numLocalGbs)) = .ok most ∧
      most.length = steps ∧
      ∀ i < steps, (∀ data ∈ ranks, estimate cfg numLocalGbs data i ≤ most.getD i 0) ∧
        ∃ data ∈ ranks, estimate cfg numLocalGbs data i = most.getD i 0 := by
  have hlocal : ∀ data ∈ ranks, localNumMicrobatches cfg numLocalGbs data =
      (List.range steps).map (estimate cfg numLocalGbs data) := by
    intro data hdata
    rw [localNumMicrobatches, hsamples data hdata, Nat.mul_div_cancel _ hpos]
    rfl
  have hget : ∀ data ∈ ranks, ∀ i < steps,
      (localNumMicrobatches cfg numLocalGbs data).getD i 0 = estimate cfg numLocalGbs data i := by
    intro data hdata i hi
    rw [hlocal data hdata, List.getD_eq_getElem _ _ (by simpa using hi), List.getElem_map,
      List.getElem_range]
  have hlengths : ∀ v ∈ ranks.map (localNumMicrobatches cfg numLocalGbs), v.length = steps := by
    intro v hv
    obtain ⟨data, hdata, rfl⟩ := List.mem_map.mp hv
    rw [hlocal data hdata, List.length_map, List.length_range]
  obtain ⟨most, hok, hlength, hmost⟩ := allReduceMax_spec (by simpa using hne) hlengths
  refine ⟨most, hok, hlength, fun i hi => ⟨?_, ?_⟩⟩
  · intro data hdata
    rw [← hget data hdata i hi]
    exact (hmost i hi).1 _ (List.mem_map_of_mem hdata)
  · obtain ⟨v, hv, heq⟩ := (hmost i hi).2
    obtain ⟨data, hdata, rfl⟩ := List.mem_map.mp hv
    exact ⟨data, hdata, by rw [← hget data hdata i hi, heq]⟩

/-- What a rank builds once the ranks have agreed on how much the neediest one needs. -/
theorem getDataIterator_of_reduced {ranks : List LocalData} {steps : Nat} {most : List Nat}
    (hlocalGbs : cfg.numLocalGbs = .ok numLocalGbs)
    (hvirtual : cfg.vppSize ≤ 1 ∨ cfg.microbatchGroupSizePerVpStage ≠ 0)
    (hreduced : allReduceMax (ranks.map (localNumMicrobatches cfg numLocalGbs)) = .ok most)
    (hlength : most.length = steps)
    (hrange : ∀ i < steps, 0 < most.getD i 0 ∧ most.getD i 0 ≤ numLocalGbs)
    (hsamples : data.totalLengths.length = steps * numLocalGbs) :
    ∃ schedule : List (List (List Nat)),
      getDataIterator cfg ranks data = .ok (schedule.flatten, most.map cfg.clampToGroup) ∧
      schedule.length = steps ∧
      ∀ i < steps, StepSchedule numLocalGbs i (cfg.clampToGroup (most.getD i 0))
        data.totalLengths (schedule.getD i []) := by
  have hstep : ∀ i, ∃ microBatches, i < steps →
      stepMicroBatchIndices numLocalGbs data i (cfg.clampToGroup (most.getD i 0)) =
        .ok microBatches ∧
      StepSchedule numLocalGbs i (cfg.clampToGroup (most.getD i 0)) data.totalLengths
        microBatches := by
    intro i
    by_cases hi : i < steps
    · obtain ⟨hpos, hle⟩ := cfg.clampToGroup_bounds (hrange i hi).1
      obtain ⟨microBatches, hok, hspec⟩ := stepMicroBatchIndices_ok hpos
        (hle.trans (hrange i hi).2) (step_fits hsamples hi)
      exact ⟨microBatches, fun _ => ⟨hok, hspec⟩⟩
    · exact ⟨[], fun h => absurd h hi⟩
  choose schedule hschedule using hstep
  have hsteps : (most.map cfg.clampToGroup).zipIdx.mapM
      (fun x => stepMicroBatchIndices numLocalGbs data x.2 x.1) =
      .ok ((List.range steps).map schedule) := by
    have hvalue : ∀ x ∈ (most.map cfg.clampToGroup).zipIdx,
        stepMicroBatchIndices numLocalGbs data x.2 x.1 = .ok (schedule x.2) := by
      intro x hx
      obtain ⟨hlt, heq⟩ := List.getElem?_eq_some_iff.mp (List.mem_zipIdx_iff_getElem?.mp hx)
      have hi : x.2 < most.length := by rwa [List.length_map] at hlt
      rw [← heq, ← List.getD_eq_getElem _ 0 hlt, cfg.getD_map_clampToGroup hi]
      exact (hschedule x.2 (hlength ▸ hi)).1
    have hsnd := List.zipIdx_map_snd 0 (most.map cfg.clampToGroup)
    rw [List.length_map, hlength, ← List.range_eq_range'] at hsnd
    rw [Except.mapM_of_ok hvalue, ← hsnd, List.map_map]
    rfl
  -- no sample is lost
  have hall : ((List.range steps).map schedule).flatten.flatten.Perm
      (List.range (steps * numLocalGbs)) := by
    have hflat : ((List.range steps).map schedule).flatten.flatten =
        (List.range steps).flatMap fun i => (schedule i).flatten := by
      rw [List.flatten_flatten, List.map_map, List.flatMap_def]
      rfl
    rw [hflat]
    exact flatMap_steps_perm fun i hi => (hschedule i hi).2.partition
  have hcount : ((List.range steps).map schedule).flatten.flatten.dedup.length =
      data.totalLengths.length := by
    rw [List.dedup_eq_self.mpr (hall.nodup_iff.mpr List.nodup_range), hall.length_eq,
      List.length_range, hsamples]
  refine ⟨(List.range steps).map schedule, ?_, by simp, ?_⟩
  · simp only [getDataIterator, hlocalGbs, hreduced, Except.ok_bind, ensure, if_pos hvirtual,
      hsteps, if_pos hcount]
    rfl
  · intro i hi
    have hget : ((List.range steps).map schedule).getD i [] = schedule i := by
      rw [List.getD_eq_getElem _ _ (by rwa [List.length_map, List.length_range]),
        List.getElem_map, List.getElem_range]
    rw [hget]
    exact (hschedule i hi).2

/-- All ranks of a DP group build as many micro-batches for a step: as many as the rank that needs
    most, rounded down to whole groups of virtual stages.  On every rank they hold each of its
    samples once, none is empty, and two of them differ by the longest sample at most. -/
theorem getDataIterator_schedule {ranks : List LocalData} {steps : Nat}
    (hranks : ranks.length = cfg.dpSize) (hdvd : cfg.dpSize ∣ cfg.globalBatchSize)
    (hgbs : cfg.globalBatchSize ≠ 0)
    (hgroup : cfg.vppSize > 1 → cfg.microbatchGroupSizePerVpStage ≠ 0)
    (hsamples : ∀ data ∈ ranks,
      data.totalLengths.length = steps * (cfg.globalBatchSize / cfg.dpSize)) :
    ∃ most nums : List Nat, most.length = steps ∧ nums = most.map cfg.clampToGroup ∧
      (∀ i < steps,
        (∀ data ∈ ranks,
          estimate cfg (cfg.globalBatchSize / cfg.dpSize) data i ≤ most.getD i 0) ∧
        (∃ data ∈ ranks,
          estimate cfg (cfg.globalBatchSize / cfg.dpSize) data i = most.getD i 0) ∧
        0 < nums.getD i 0 ∧
        (cfg.vppSize > 1 → cfg.microbatchGroupSizePerVpStage ≤ most.getD i 0 →
          cfg.microbatchGroupSizePerVpStage ∣ nums.getD i 0)) ∧
      ∀ data ∈ ranks, ∃ schedule : List (List (List Nat)),
        getDataIterator cfg ranks data = .ok (schedule.flatten, nums) ∧
        schedule.length = steps ∧
        ∀ i < steps,
          StepSchedule (cfg.globalBatchSize / cfg.dpSize) i (nums.getD i 0) data.totalLengths
            (schedule.getD i []) ∧
          ∀ longest, longest ≤ cfg.maxTokens →
            (∀ length ∈ stepSamples (cfg.globalBatchSize / cfg.dpSize) i data.totalLengths,
              length ≤ longest) →
            estimate cfg (cfg.globalBatchSize / cfg.dpSize) data i ≤ nums.getD i 0 →
            ∀ mb ∈ schedule.getD i [],
              binTokens data.totalLengths mb ≤ cfg.maxTokens + longest := by
  obtain ⟨hlocalGbs, hpos⟩ := cfg.numLocalGbs_ok hdvd hgbs
  set numLocalGbs := cfg.globalBatchSize / cfg.dpSize with hdef
  have hne : ranks ≠ [] := by
    rintro rfl
    rw [List.length_nil] at hranks
    rw [hdef, ← hranks, Nat.div_zero] at hpos
    exact Nat.lt_irrefl 0 hpos
  obtain ⟨most, hreduced, hlength, hmost⟩ := reduced_estimates cfg hne hpos hsamples
  -- the largest estimate is one of a rank, between one and the samples of the step
  have hrange : ∀ i < steps, 0 < most.getD i 0 ∧ most.getD i 0 ≤ numLocalGbs := by
    intro i hi
    obtain ⟨data, hdata, heq⟩ := (hmost i hi).2
    have hlen := stepSamples_length (step_fits (hsamples data hdata) hi)
    have hbounds := getMinimumNumMicroBatchSize_bounds cfg.maxTokens
      (List.ne_nil_of_length_pos (by rw [hlen]; exact hpos))
    rw [hlen] at hbounds
    rw [← heq]
    exact hbounds
  have hvirtual : cfg.vppSize ≤ 1 ∨ cfg.microbatchGroupSizePerVpStage ≠ 0 := by
    by_cases hvpp : cfg.vppSize > 1
    · exact .inr (hgroup hvpp)
    · exact .inl (by omega)
  refine ⟨most, most.map cfg.clampToGroup, hlength, rfl, ?_, ?_⟩
  · intro i hi
    rw [cfg.getD_map_clampToGroup (hlength ▸ hi)]
    exact ⟨(hmost i hi).1, (hmost i hi).2, (cfg.clampToGroup_bounds (hrange i hi).1).1,
      fun hvpp hle => cfg.clampToGroup_dvd hvpp (hgroup hvpp) hle⟩
  · intro data hdata
    obtain ⟨schedule, hok, hcount, hspec⟩ := getDataIterator_of_reduced hlocalGbs hvirtual
      hreduced hlength hrange (hsamples data hdata)
    refine ⟨schedule, hok, hcount, ?_⟩
    intro i hi
    rw [cfg.getD_map_clampToGroup (hlength ▸ hi)]
    refine ⟨hspec i hi, ?_⟩
    intro longest hbudget hlongest henough
    exact (hspec i hi).tokens_le (step_fits (hsamples data hdata) hi) hlongest hbudget henough

/-- Two ranks, whose samples need two micro-batches and four. -/
theorem getDataIterator_schedule_twoRanks : ∃ nums : List Nat, 0 < nums.getD 0 0 ∧
    ∀ data ∈ [LocalData.mk [3, 3, 3, 3] none, LocalData.mk [5, 5, 5, 5] (some [1, 0, 1, 0])],
      ∃ schedule : List (List (List Nat)), getDataIterator ⟨8, 3, 2, 2, 2, 2⟩
        [LocalData.mk [3, 3, 3, 3] none, LocalData.mk [5, 5, 5, 5] (some [1, 0, 1, 0])] data =
          .ok (schedule.flatten, nums) := by
  have hsamples : ∀ data ∈
      [LocalData.mk [3, 3, 3, 3] none, LocalData.mk [5, 5, 5, 5] (some [1, 0, 1, 0])],
      data.totalLengths.length = 1 * (8 / 2) := by decide
  obtain ⟨most, nums, -, -, hnums, hranks⟩ :=
    @getDataIterator_schedule ⟨8, 3, 2, 2, 2, 2⟩ _ 1 rfl (by decide) (by decide) (by decide) hsamples
  refine ⟨nums, (hnums 0 (by decide)).2.2.1, ?_⟩
  intro data hdata
  obtain ⟨schedule, hok, -⟩ := hranks data hdata
  exact ⟨schedule, hok⟩

/-! ## The budget is not kept -/

/-- A budget of six tokens, and a micro-batch of seven; two virtual stages in groups of two, and
    one micro-batch. -/
theorem getDataIterator_over_budget :
    (getDataIterator ⟨5, 6, 1, 1, 1, 1⟩ [LocalData.mk [2, 2, 2, 3, 3] none]
        (LocalData.mk [2, 2, 2, 3, 3] none) = .ok ([[0, 1, 3], [2, 4]], [2]) ∧
      6 < binTokens [2, 2, 2, 3, 3] [0, 1, 3]) ∧
    ∃ microBatches, getDataIterator ⟨2, 10, 1, 1, 2, 2⟩ [LocalData.mk [1, 1] none]
        (LocalData.mk [1, 1] none) = .ok (microBatches, [1]) ∧ ¬ 2 ∣ 1 := by
  refine ⟨⟨?_, by decide⟩, ?_⟩
  · have hlocal : IteratorConfig.numLocalGbs ⟨5, 6, 1, 1, 1, 1⟩ = .ok 5 := rfl
    have hreduced : allReduceMax ([LocalData.mk [2, 2, 2, 3, 3] none].map
        (localNumMicrobatches ⟨5, 6, 1, 1, 1, 1⟩ 5)) = .ok [2] := by decide
    have hstep : stepMicroBatchIndices 5 (LocalData.mk [2, 2, 2, 3, 3] none) 0 2 =
        .ok [[0, 1, 3], [2, 4]] := by
      rw [stepMicroBatchIndices, show stepSamples 5 0 [2, 2, 2, 3, 3] = [2, 2, 2, 3, 3] from rfl,
        getSeqlenBalancedPartitions_uneven]
      rfl
    have hnums : [2].map (IteratorConfig.clampToGroup ⟨5, 6, 1, 1, 1, 1⟩) = [2] := rfl
    have hsteps : [2].zipIdx.mapM (fun x =>
        stepMicroBatchIndices 5 (LocalData.mk [2, 2, 2, 3, 3] none) x.2 x.1) =
        .ok [[[0, 1, 3], [2, 4]]] := by
      show [(2, 0)].mapM _ = _
      rw [List.mapM_cons, hstep]
      rfl
    simp only [getDataIterator, hlocal, hreduced, Except.ok_bind, hnums, hsteps]
    rfl
  · obtain ⟨schedule, hok, -⟩ := @getDataIterator_of_reduced ⟨2, 10, 1, 1, 2, 2⟩
      (LocalData.mk [1, 1] none) 2 [LocalData.mk [1, 1] none] 1 [1] rfl (by decide) (by decide) rfl
      (by decide) rfl
    exact ⟨schedule.flatten, hok, by decide⟩

end Miles.DataIterator
