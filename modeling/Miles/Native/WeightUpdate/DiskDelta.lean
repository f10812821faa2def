import Miles.ForStd.LittleEndian

/-!
# Disk deltas

Pure Lean model of `overwrite_encode` and of `UpdateWeightFromDiskDelta._diff_and_compress`: what a
trainer publishes for one tensor whose bytes changed. The new bytes and the snapshot's have one
length, as the tensor has one dtype and shape.
-/

namespace Miles.DiskDelta

/-- `np.flatnonzero(mask)` -/
def flatnonzero (mask : List Bool) : List Nat :=
  mask.zipIdx.filterMap fun x => if x.1 then some x.2 else none

/-- `data[mask]` -/
def select (data : List UInt8) (mask : List Bool) : List UInt8 :=
  (data.zip mask).filterMap fun x => if x.2 then some x.1 else none

/-- `.view(np.uint8)` of an array of `<u4` -/
def u4Bytes (xs : List UInt32) : List UInt8 := xs.flatMap fun x => leBytes 4 x.toNat

/-- `np.array([n], "<u4")`: what becomes of a number that is out of bounds (an error or a narrowed
    number) depends on the numpy version. -/
def u4Array (outOfBounds : Nat → Option UInt32) (n : Nat) : Option UInt32 :=
  if n < 2 ^ 32 then some (UInt32.ofNat n) else outOfBounds n

/-- `overwrite_encode` -/
def overwriteEncode (outOfBounds : Nat → Option UInt32) (new : List UInt8)
    (changedMask : List Bool) : Option (List UInt8) := do
  let pos := (flatnonzero changedMask).map UInt32.ofNat
  let count ← u4Array outOfBounds pos.length
  return u4Bytes [count] ++ u4Bytes pos ++ select new changedMask

/-- `new != old` -/
def changedMask (new old : List UInt8) : List Bool := List.zipWith (· != ·) new old

/-- `new ^ old` -/
def xorEncode (new old : List UInt8) : List UInt8 := List.zipWith (· ^^^ ·) new old

inductive DiffError where
  /-- `unknown delta encoding` -/
  | unknownEncoding (encoding : String)
  /-- The number of changed positions is out of bounds for an `<u4`. -/
  | countOutOfBounds
deriving DecidableEq

/-- The diff of one tensor and the number of its changed bytes. -/
def diff (outOfBounds : Nat → Option UInt32) (deltaEncoding : String) (new old : List UInt8) :
    Except DiffError (List UInt8 × Nat) :=
  if deltaEncoding = "xor" then
    .ok (xorEncode new old, (xorEncode new old).countP (· ≠ 0))
  else if deltaEncoding = "overwrite" then
    match overwriteEncode outOfBounds new (changedMask new old) with
    | some encoded => .ok (encoded, (changedMask new old).count true)
    | none => .error .countOutOfBounds
  else .error (.unknownEncoding deltaEncoding)

/-- What is published of one tensor: its compressed diff and the checksum of its new bytes, if any
    byte changed. -/
structure Published where
  new : List UInt8
  delta : Option (List UInt8 × String)
  changed : Nat

/-- `_diff_and_compress`, with the zstd compressor and the checksum as parameters -/
def diffAndCompress (compress : List UInt8 → List UInt8) (checksum : List UInt8 → String)
    (outOfBounds : Nat → Option UInt32) (deltaEncoding : String) (new old : List UInt8) :
    Except DiffError Published := do
  let diffed ← diff outOfBounds deltaEncoding new old
  if diffed.2 = 0 then
    return ⟨new, none, 0⟩
  else
    return ⟨new, some (compress diffed.1, checksum new), diffed.2⟩

end Miles.DiskDelta
