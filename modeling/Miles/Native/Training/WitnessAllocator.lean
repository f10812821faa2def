import Miles.ForStd.Except

/-!
# Witness ids

Pure Lean model of `WitnessIdAllocator`: the witness ids of the samples of a rollout, taken from a
ring, and the ids whose rows are stale and get cleared.
-/

namespace Miles.WitnessAllocator

structure WitnessInfo where
  witnessIds : List Nat
  staleIds : List Nat
deriving DecidableEq

inductive AllocatorError where
  /-- `buffer_size must be positive` -/
  | notPositive (bufferSize : Int)
  /-- `num_ids must be non-negative` -/
  | negative (numIds : Int)
  /-- `num_ids exceeds buffer_size` -/
  | exceedsBuffer (numIds : Int)
  /-- `int too large to convert to float` -/
  | overflow
  /-- `assert counter >= self._counter` -/
  | backwards
deriving DecidableEq

/-! ## `int(buffer_size * 0.7)` -/

/-- The nearest number with 53 significant bits, the even one of two that are as near. -/
def roundTo53 (n : Nat) : Nat :=
  let unit := 2 ^ (Nat.log2 n + 1 - 53)
  let quotient := n / unit
  let rest := n % unit
  if unit < 2 * rest ∨ (2 * rest = unit ∧ quotient % 2 = 1) then (quotient + 1) * unit
  else quotient * unit

/-- `int(buffer_size * 0.7)` in double precision, where `0.7` is `6305039478318694 / 2 ^ 53` -/
def keepCount (bufferSize : Nat) : Except AllocatorError Nat :=
  if roundTo53 bufferSize < 2 ^ 1024 then
    .ok (roundTo53 (roundTo53 bufferSize * 6305039478318694) / 2 ^ 53)
  else .error .overflow

/-! ## The allocator -/

/-- `_compute_stale_ids` -/
def computeStaleIds (keepCount counter bufferSize : Nat) : List Nat :=
  if counter = 0 then []
  else
    let numStale := bufferSize - min keepCount (min counter bufferSize)
    let head := counter % bufferSize
    (List.range numStale).map fun i => (head + i) % bufferSize

structure WitnessIdAllocator where
  bufferSize : Nat
  counter : Nat
  bufferSize_pos : 0 < bufferSize

/-- `WitnessIdAllocator(buffer_size=...)` -/
def new (bufferSize : Int) : Except AllocatorError WitnessIdAllocator :=
  if h : 0 < bufferSize.toNat then .ok ⟨bufferSize.toNat, 0, h⟩
  else .error (.notPositive bufferSize)

/-- `resume` -/
def resume (allocator : WitnessIdAllocator) (counter : Nat) :
    Except AllocatorError WitnessIdAllocator := do
  Except.ensure (allocator.counter ≤ counter) .backwards
  return { allocator with counter }

/-- `allocate` -/
def allocate (allocator : WitnessIdAllocator) (numIds : Int) :
    Except AllocatorError (WitnessInfo × WitnessIdAllocator) := do
  Except.ensure (0 ≤ numIds) (.negative numIds)
  Except.ensure (numIds ≤ allocator.bufferSize) (.exceedsBuffer numIds)
  let ids := (List.range numIds.toNat).map fun i =>
    (allocator.counter + i) % allocator.bufferSize
  let keep ← keepCount allocator.bufferSize
  let counter := allocator.counter + numIds.toNat
  return (⟨ids, computeStaleIds keep counter allocator.bufferSize⟩, { allocator with counter })

/-- A sequence of `allocate` calls that are all admitted. -/
def allocateAll (allocator : WitnessIdAllocator) :
    List Int → Except AllocatorError (List WitnessInfo)
  | [] => .ok []
  | numIds :: rest => do
    let allocated ← allocate allocator numIds
    let infos ← allocateAll allocated.2 rest
    return allocated.1 :: infos

end Miles.WitnessAllocator
