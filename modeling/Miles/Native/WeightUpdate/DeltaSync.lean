import Miles.Native.WeightUpdate.DiskDelta
import Miles.ForStd.PyDict

/-!
# Disk-delta weight syncs

Pure Lean model of `UpdateWeightFromDiskDelta`: the baseline that every source rank captures, the
pool that diffs the tensors of a sync against the snapshot of the previous one, and what the ranks
publish of them together. Metrics, pinned buffers and the engines' calls are left out.
-/

namespace Miles.DiskDelta

/-- The compressor, the checksum, the numpy version and the configured encoding. -/
structure Codec where
  compress : List UInt8 → List UInt8
  checksum : List UInt8 → String
  outOfBounds : Nat → Option UInt32
  deltaEncoding : String

inductive SyncError where
  /-- `Trainer emitted {name!r}, but it is absent from the canonical checkpoint` -/
  | absent (name : String)
  /-- `Checkpoint tensor {name!r} has dtype={dtype}, shape={shape}` -/
  | layout (name : String)
  /-- `Checkpoint tensor {name!r} has {baseline.nbytes} bytes` -/
  | nbytes (name : String)
  | keyError (name : String)
  | diff (e : DiffError)
  /-- `{name!r} published by rank {other_rank} and rank {rank} with different bytes` -/
  | differentBytes
deriving DecidableEq

/-! ## The baseline -/

/-- A tensor's safetensors dtype and its shape -/
structure Layout where
  dtype : String
  shape : List Nat
deriving DecidableEq

/-- A tensor as the iterator of the buckets emits it -/
structure Emitted where
  name : String
  layout : Layout
  bytes : List UInt8

/-- A checkpoint directory: the layout and the bytes of every tensor -/
abbrev Checkpoint := PyDict String (Layout × List UInt8)

abbrev Snapshot := PyDict String (List UInt8)

/-- One tensor of `_capture_baseline` -/
def captureTensor (hfCheckpoint : Checkpoint) (snapshot : Snapshot) (tensor : Emitted) :
    Except SyncError Snapshot :=
  match hfCheckpoint.get? tensor.name with
  | none => .error (.absent tensor.name)
  | some (layout, baseline) =>
    if layout ≠ tensor.layout then .error (.layout tensor.name)
    else if tensor.bytes.length ≠ baseline.length then .error (.nbytes tensor.name)
    else .ok (snapshot.set tensor.name baseline)

/-- `_capture_baseline`, of one rank -/
def captureBaseline (hfCheckpoint : Checkpoint) (snapshot : Snapshot) (stream : List Emitted) :
    Except SyncError Snapshot := stream.foldlM (captureTensor hfCheckpoint) snapshot

/-! ## The pool -/

/-- A tensor in flight, and what a worker has made of it. -/
structure Future where
  name : String
  new : List UInt8
  result : Option (Except SyncError Published)

structure Pipeline where
  snapshot : Snapshot
  delta : PyDict String (List UInt8)
  checksums : PyDict String String
  inflight : List Future

/-- `_begin_encode` -/
def beginEncode (snapshot : Snapshot) : Pipeline :=
  ⟨snapshot, PyDict.empty, PyDict.empty, []⟩

/-- `send_bucket`, for one tensor -/
def Pipeline.submit (p : Pipeline) (name : String) (new : List UInt8) : Pipeline :=
  { p with inflight := p.inflight ++ [⟨name, new, none⟩] }

/-- `_diff_and_compress`: what a worker makes of a tensor, with the snapshot that it finds. -/
def diffTensor (codec : Codec) (snapshot : Snapshot) (name : String) (new : List UInt8) :
    Except SyncError Published :=
  match snapshot.get? name with
  | none => .error (.keyError name)
  | some old =>
    (diffAndCompress codec.compress codec.checksum codec.outOfBounds codec.deltaEncoding new
      old).mapError .diff

/-- `_collect` -/
def Pipeline.collect (p : Pipeline) (name : String) (published : Published)
    (inflight : List Future) : Pipeline :=
  match published.delta with
  | none => { p with snapshot := p.snapshot.set name published.new, inflight := inflight }
  | some (compressed, digest) =>
    { snapshot := p.snapshot.set name published.new
      delta := p.delta.set name compressed
      checksums := p.checksums.set name digest
      inflight := inflight }

/-- What a rank's main thread and its workers may do next, with the tensors that are still to be
    sent. -/
inductive PoolStep (codec : Codec) (maxInflight : Nat) :
    List (String × List UInt8) → Pipeline → List (String × List UInt8) → Pipeline → Prop
  | submit {name : String} {new : List UInt8} {stream : List (String × List UInt8)} {p : Pipeline}
      (hroom : p.inflight.length < maxInflight) :
      PoolStep codec maxInflight ((name, new) :: stream) p stream (p.submit name new)
  | work {stream : List (String × List UInt8)} {p : Pipeline} {front back : List Future}
      {name : String} {new : List UInt8} (hinflight : p.inflight = front ++ ⟨name, new, none⟩ :: back) :
      PoolStep codec maxInflight stream p stream
        { p with inflight := front ++
            ⟨name, new, some (diffTensor codec p.snapshot name new)⟩ :: back }
  /-- `send_bucket` collects once enough tensors are in flight, `after_base_weights` in the end. -/
  | collect {stream : List (String × List UInt8)} {p : Pipeline} {rest : List Future}
      {name : String} {new : List UInt8} {published : Published}
      (hinflight : p.inflight = ⟨name, new, some (.ok published)⟩ :: rest)
      (hdue : maxInflight ≤ p.inflight.length ∨ stream = []) :
      PoolStep codec maxInflight stream p stream (p.collect name published rest)

/-- A rank has sent all its tensors and drained the pool. -/
inductive Pooled (codec : Codec) (maxInflight : Nat) :
    List (String × List UInt8) → Pipeline → Pipeline → Prop
  | drained {p : Pipeline} (hinflight : p.inflight = []) : Pooled codec maxInflight [] p p
  | step {stream stream' : List (String × List UInt8)} {p p' p'' : Pipeline}
      (hstep : PoolStep codec maxInflight stream p stream' p')
      (hrest : Pooled codec maxInflight stream' p' p'') : Pooled codec maxInflight stream p p''

/-! ## What is published -/

/-- The changed tensors of a rank: a safetensors file and its metadata. -/
structure Shard where
  delta : PyDict String (List UInt8)
  checksums : PyDict String String

/-- One rank's checksums, in `_drop_duplicate_names` -/
def dropNames (own : Shard) (other : PyDict String String) : Except SyncError Shard :=
  let names := own.delta.keys.filter (· ∈ other.keys)
  if ∀ name ∈ names, other.get? name = own.checksums.get? name then
    .ok ⟨own.delta.filter fun name _ => name ∉ names, own.checksums.filter fun name _ => name ∉ names⟩
  else .error .differentBytes

/-- `_drop_duplicate_names`: the lowest-rank copy is kept. -/
def dropDuplicateNames (lower : List (PyDict String String)) (own : Shard) :
    Except SyncError Shard := lower.foldlM dropNames own

/-- `f"{n:0{width}d}"` -/
def zeroPad (width n : Nat) : String :=
  String.ofList (List.leftpad width '0' (Nat.toDigits 10 n))

/-- The name of the file at this place among those of a version. -/
def fileName (offset total : Nat) : String :=
  "model-" ++ zeroPad 5 offset ++ "-of-" ++ zeroPad 5 total ++ ".safetensors"

/-- `model.safetensors.index.json` -/
structure Index where
  version : String
  baseVersion : String
  deltaEncoding : String
  weightMap : PyDict String String

/-- The directory of a version -/
structure Version where
  index : Index
  files : PyDict String Shard

/-- Whether a rank has a file: `int(bool(self._delta))` -/
def Shard.count (own : Shard) : Nat := if own.delta.keys = [] then 0 else 1

/-- The files of a version, numbered sequentially across only the ranks that have one (no gaps). -/
def numberFiles (kept : List Shard) : List (String × Shard) :=
  let counts := kept.map Shard.count
  kept.zipIdx.filterMap fun x =>
    if x.1.delta.keys = [] then none else some (fileName (counts.take x.2).sum counts.sum, x.1)

/-- `_write_delta_files`, of all ranks -/
def writeDeltaFiles (codec : Codec) (fileVersion : Nat) (shards : List Shard) :
    Except SyncError Version := do
  let kept ← shards.zipIdx.mapM fun x =>
    dropDuplicateNames ((shards.map Shard.checksums).take x.2) x.1
  let files := numberFiles kept
  return {
    index := {
      version := zeroPad 6 fileVersion
      baseVersion := zeroPad 6 (fileVersion - 1)
      deltaEncoding := codec.deltaEncoding
      weightMap := PyDict.ofList
        (files.flatMap fun file => file.2.delta.keys.map fun name => (name, file.1)) }
    files := PyDict.ofList files }

/-! ## A sync of all ranks -/

/-- What the ranks keep between two syncs, and the directory that they publish to -/
structure Protocol (world : Nat) where
  snapshot : Fin world → Snapshot
  baselineCaptured : Bool
  snapshotFileVersion : Nat
  deltaDir : PyDict String Version

/-- `__init__` -/
def Protocol.init (world : Nat) (deltaDir : PyDict String Version) : Protocol world where
  snapshot _ := PyDict.empty
  baselineCaptured := false
  snapshotFileVersion := 0
  deltaDir := deltaDir

/-- `f"weight_v{n:06d}"` -/
def versionDir (n : Nat) : String := "weight_v" ++ zeroPad 6 n

/-- `begin_sync`, when it succeeds; a rank that is no sender emits no tensors. -/
inductive BeginSync {world : Nat} (hfCheckpoint : Checkpoint) (streams : Fin world → List Emitted) :
    Protocol world → Protocol world → Prop
  /-- The versions of a prior run are removed. -/
  | capture {p : Protocol world} {snapshot : Fin world → Snapshot}
      (hfirst : p.baselineCaptured = false)
      (hcapture : ∀ rank,
        captureBaseline hfCheckpoint (p.snapshot rank) (streams rank) = .ok (snapshot rank)) :
      BeginSync hfCheckpoint streams p ⟨snapshot, true, p.snapshotFileVersion + 1, PyDict.empty⟩
  | captured {p : Protocol world} (hcaptured : p.baselineCaptured = true) :
      BeginSync hfCheckpoint streams p { p with snapshotFileVersion := p.snapshotFileVersion + 1 }

/-- What `send_bucket` reads of a stream -/
def payloads (stream : List Emitted) : List (String × List UInt8) :=
  stream.map fun tensor => (tensor.name, tensor.bytes)

def Pipeline.shard (p : Pipeline) : Shard := ⟨p.delta, p.checksums⟩

/-- A completed sync: every rank sends its tensors and drains its pool, and the files are written. -/
inductive Sync {world : Nat} (codec : Codec) (maxInflight : Nat) (hfCheckpoint : Checkpoint)
    (streams : Fin world → List Emitted) : Protocol world → Protocol world → Prop
  | finalize {p p' : Protocol world} {pipelines : Fin world → Pipeline} {version : Version}
      (hbegin : BeginSync hfCheckpoint streams p p')
      (hpooled : ∀ rank, Pooled codec maxInflight (payloads (streams rank))
        (beginEncode (p'.snapshot rank)) (pipelines rank))
      (hwrite : writeDeltaFiles codec p'.snapshotFileVersion
        (List.ofFn fun rank => (pipelines rank).shard) = .ok version) :
      Sync codec maxInflight hfCheckpoint streams p
        { p' with
          snapshot := fun rank => (pipelines rank).snapshot
          deltaDir := p'.deltaDir.set (versionDir p'.snapshotFileVersion) version }

/-- The completed syncs of a run. -/
inductive Synced {world : Nat} (codec : Codec) (maxInflight : Nat) (hfCheckpoint : Checkpoint) :
    List (Fin world → List Emitted) → Protocol world → Prop
  | init (deltaDir : PyDict String Version) :
      Synced codec maxInflight hfCheckpoint [] (Protocol.init world deltaDir)
  | sync {history : List (Fin world → List Emitted)} {streams : Fin world → List Emitted}
      {p p' : Protocol world} (hsynced : Synced codec maxInflight hfCheckpoint history p)
      (hsync : Sync codec maxInflight hfCheckpoint streams p p') :
      Synced codec maxInflight hfCheckpoint (history ++ [streams]) p'

end Miles.DiskDelta
