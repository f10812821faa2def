import Mathlib

/-!
# Sequence-length balancing

Model of `miles/utils/seqlen_balancing.py`: the Karmarkar-Karp partition, first-fit
packing under a token budget, and the splitting of packed bins.

Weights are of an arbitrary linearly ordered type `W` (token counts, or the floating-point
FLOPs of a sequence); sums are taken in the order of the source, since floating-point
addition is not associative.  `heapq` is used as a priority queue only: popping removes the
least state.
-/

namespace Miles.Balancing

/-- The assertions of the balancing code. -/
inductive BalanceError where
  /-- number of items < k_partitions -/
  | tooFewItems (items partitions : Nat)
  /-- `len(seqlen_list) % k_partitions == 0` -/
  | notDivisible (items partitions : Nat)
  /-- `len(partition) * k_partitions == len(seqlen_list)` -/
  | unequalPartition (size partitions items : Nat)
  /-- `len(partitions) == k_partitions` -/
  | partitionCount (count partitions : Nat)
  /-- the i-th partition is empty -/
  | emptyPartition (index : Nat)
  /-- `seen_idx == set(range(len(seqlen_list)))` -/
  | indicesSeen
  deriving DecidableEq, Repr

/-- `assert` -/
def ensure {ε : Type} (p : Prop) [Decidable p] (e : ε) : Except ε Unit :=
  if p then .ok () else .error e

section KarmarkarKarp

variable {W : Type} [LinearOrder W] [Zero W] [Add W] [Sub W]

/-- `Set`: items with their sum. -/
structure KSet (W : Type) where
  sum : W
  items : List (Nat × W)
  deriving DecidableEq, Repr

namespace KSet

/-- `Set()` -/
def empty : KSet W := { sum := 0, items := [] }

/-- `Set.add` -/
def add (s : KSet W) (idx : Nat) (val : W) : KSet W :=
  { sum := s.sum + val, items := s.items ++ [(idx, val)] }

/-- `Set.merge` -/
def merge (s other : KSet W) : KSet W :=
  other.items.foldl (fun s item => s.add item.1 item.2) s

/-- What `Set.__lt__` compares, in this order: the sum, the number of items, the items. -/
def key (s : KSet W) : W ×ₗ Nat ×ₗ List (Nat ×ₗ W) :=
  toLex (s.sum, toLex (s.items.length, s.items.map toLex))

/-- `sorted(sets, reverse=True)` -/
def sortDesc (sets : List (KSet W)) : List (KSet W) :=
  sets.mergeSort fun a b => decide (b.key ≤ a.key)

end KSet

/-- `State`: `k` sets in decreasing order. -/
structure KState (W : Type) where
  sets : List (KSet W)
  deriving DecidableEq, Repr

namespace KState

/-- `State(items, k)`: one set for each item, and empty sets up to `k`. -/
def ofItems (items : List (Nat × W)) (k : Nat) : KState W where
  sets := KSet.sortDesc ((List.range k).map fun i =>
    match items[i]? with
    | some (idx, seqlen) => KSet.empty.add idx seqlen
    | none => KSet.empty)

/-- `State.merge`: the largest set takes the other's smallest one. -/
def merge (s other : KState W) : KState W where
  sets := KSet.sortDesc (List.zipWith KSet.merge s.sets other.sets.reverse)

/-- `State.get_partitions` -/
def getPartitions (s : KState W) : List (List Nat) :=
  s.sets.map fun set => set.items.map Prod.fst

/-- `State.spread` -/
def spread (s : KState W) : W :=
  (s.sets.head?.getD KSet.empty).sum - (s.sets.getLast?.getD KSet.empty).sum

/-- `State.__lt__`: the larger spread first, then the larger first set. -/
def lt (s t : KState W) : Bool :=
  if s.spread ≠ t.spread then decide (t.spread < s.spread)
  else decide ((t.sets.head?.getD KSet.empty).key < (s.sets.head?.getD KSet.empty).key)

end KState

/-- `heapq.heappop` of a nonempty queue: the least state, and the rest. -/
def heapPop : KState W → List (KState W) → KState W × List (KState W)
  | s, [] => (s, [])
  | s, t :: ts =>
    let (least, rest) := heapPop t ts
    if least.lt s then (least, s :: rest) else (s, least :: rest)

/-- The loop that merges the two least states until one is left; a queue of `n` states takes
    less than `n` turns. -/
def mergeStates : Nat → List (KState W) → List (KState W)
  | n + 1, s :: t :: ts =>
    let (state0, queue) := heapPop s (t :: ts)
    match queue with
    | [] => [state0]
    | u :: us =>
      let (state1, queue) := heapPop u us
      mergeStates n (state0.merge state1 :: queue)
  | _, queue => queue

/-- `sorted([(seqlen, i) for i, seqlen in enumerate(seqlen_list)])`, as `(i, seqlen)`. -/
def sortedSeqlenList (seqlenList : List W) : List (Nat × W) :=
  (seqlenList.zipIdx.mergeSort fun a b => decide (toLex a ≤ toLex b)).map Prod.swap

/-- The states the queue starts with. -/
def initialStates (sorted : List (Nat × W)) (k : Nat) (equalSize : Bool) : List (KState W) :=
  if equalSize then
    (List.range (sorted.length / k)).map fun j => KState.ofItems ((sorted.drop (j * k)).take k) k
  else
    sorted.map fun item => KState.ofItems [item] k

/-- `karmarkar_karp`, for at least one partition: with none and no items the source raises. -/
def karmarkarKarp (seqlenList : List W) (k : Nat) (equalSize : Bool) :
    Except BalanceError (List (List Nat)) := do
  if equalSize then
    ensure (seqlenList.length % k = 0) (.notDivisible seqlenList.length k)
  let states := initialStates (sortedSeqlenList seqlenList) k equalSize
  let partitions := match mergeStates states.length states with
    | [] => []
    | final :: _ => final.getPartitions
  if equalSize then
    match partitions.find? fun p => p.length * k ≠ seqlenList.length with
    | some p => throw (.unequalPartition p.length k seqlenList.length)
    | none => return partitions
  else
    return partitions

/-- `_check_and_sort_partitions` -/
def checkAndSortPartitions (partitions : List (List Nat)) (k n : Nat) :
    Except BalanceError (List (List Nat)) := do
  ensure (partitions.length = k) (.partitionCount partitions.length k)
  match partitions.findIdx? (·.isEmpty) with
  | some i => throw (.emptyPartition i)
  | none =>
    ensure ((∀ idx ∈ partitions.flatten, idx < n) ∧ ∀ idx < n, idx ∈ partitions.flatten)
      .indicesSeen
    return partitions.map fun p => p.mergeSort fun a b => decide (a ≤ b)

/-- `get_seqlen_balanced_partitions` -/
def getSeqlenBalancedPartitions (seqlenList : List W) (k : Nat) (equalSize : Bool) :
    Except BalanceError (List (List Nat)) := do
  ensure (k ≤ seqlenList.length) (.tooFewItems seqlenList.length k)
  let partitions ← karmarkarKarp seqlenList k equalSize
  checkAndSortPartitions partitions k seqlenList.length

end KarmarkarKarp

/-! ## First-fit packing -/

/-- A bin with the tokens in it. -/
structure Bin where
  indices : List Nat
  sum : Nat
  deriving DecidableEq, Repr

/-- Put an index into the first bin it fits into, or into a new one. -/
def firstFitInsert (maxTokensPerBin idx length : Nat) : List Bin → List Bin
  | [] => [{ indices := [idx], sum := length }]
  | bin :: bins =>
    if bin.sum + length ≤ maxTokensPerBin then
      { indices := bin.indices ++ [idx], sum := bin.sum + length } :: bins
    else bin :: firstFitInsert maxTokensPerBin idx length bins

/-- `_first_fit` -/
def firstFit (order totalLengths : List Nat) (maxTokensPerBin : Nat) : List (List Nat) :=
  (order.foldl (fun bins idx =>
    firstFitInsert maxTokensPerBin idx (totalLengths.getD idx 0) bins) []).map (·.indices)

/-- `first_fit_pack` -/
def firstFitPack (totalLengths : List Nat) (maxTokensPerBin : Nat) : List (List Nat) :=
  firstFit (List.range totalLengths.length) totalLengths maxTokensPerBin

/-- The indices sorted by length, the longest first. -/
def longestFirst (indices totalLengths : List Nat) : List Nat :=
  indices.mergeSort fun i j => decide (totalLengths.getD j 0 ≤ totalLengths.getD i 0)

/-- `first_fit_decreasing_pack` -/
def firstFitDecreasingPack (totalLengths : List Nat) (maxTokensPerBin : Nat) : List (List Nat) :=
  firstFit (longestFirst (List.range totalLengths.length) totalLengths) totalLengths
    maxTokensPerBin

/-! ## Splitting bins -/

/-- The tokens of a bin. -/
def binTokens (lengths bin : List Nat) : Nat :=
  (bin.map (lengths.getD · 0)).sum

/-- `_split_bin_by_tokens`: the longest first, each to the lighter half. -/
def splitBinByTokens (bin lengths : List Nat) : List Nat × List Nat :=
  let halves := (longestFirst bin lengths).foldl (fun (halves : Bin × Bin) idx =>
    let length := lengths.getD idx 0
    if halves.1.sum ≤ halves.2.sum then
      ({ indices := halves.1.indices ++ [idx], sum := halves.1.sum + length }, halves.2)
    else
      (halves.1, { indices := halves.2.indices ++ [idx], sum := halves.2.sum + length }))
    (⟨[], 0⟩, ⟨[], 0⟩)
  (halves.1.indices, halves.2.indices)

/-- The bin to split: the largest one with more than one index, the last among equals. -/
def largestSplittable (bins : List (List Nat)) (lengths : List Nat) : Option Nat :=
  let candidates := (List.range bins.length).filter fun idx => 1 < (bins.getD idx []).length
  candidates.foldl (fun best idx =>
    match best with
    | none => some idx
    | some b =>
      if binTokens lengths (bins.getD b []) ≤ binTokens lengths (bins.getD idx []) then some idx
      else some b) none

/-- `expand_bins_by_splitting` with `n` bins missing. -/
def expandBinsBySplitting (lengths : List Nat) : Nat → List (List Nat) → List (List Nat)
  | 0, bins => bins
  | n + 1, bins =>
    match largestSplittable bins lengths with
    | none => bins
    | some idx =>
      let (left, right) := splitBinByTokens (bins.getD idx []) lengths
      expandBinsBySplitting lengths n (bins.set idx left ++ [right])

end Miles.Balancing
