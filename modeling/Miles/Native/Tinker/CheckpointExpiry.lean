import Miles.ForStd.CrashHoare
import Miles.ForStd.PyDict

/-!
# Checkpoint expiry

Pure Lean model of `CheckpointExpiry` and of the sweep that acts on it: a map in memory and the file
that it is written to, over file system steps that may fail and between which the process may crash.

A file holds a JSON value, or nothing of one while it is written. What the directory entry names is
durable once the directory is synced; before that a power loss may bring back what it named earlier.
-/

namespace Miles.CheckpointExpiry

open CrashHoare

/-! ## Tinker paths -/

/-- `CHECKPOINT_KINDS` -/
def checkpointKinds : List String := ["weights", "sampler_weights", "external_weights"]

def isAlphanumeric (c : Char) : Bool :=
  ('A' ≤ c ∧ c ≤ 'Z') ∨ ('a' ≤ c ∧ c ≤ 'z') ∨ ('0' ≤ c ∧ c ≤ '9')

/-- `validate_checkpoint_segment`: `[A-Za-z0-9][A-Za-z0-9._-]{0,127}` -/
def validateCheckpointSegment (segment : List Char) : Bool :=
  match segment with
  | [] => false
  | c :: cs =>
    isAlphanumeric c &&
      cs.all (fun c => isAlphanumeric c || c = '.' || c = '_' || c = '-') && decide (cs.length ≤ 127)

/-- `parse_tinker_path`; none where it raises. -/
def parseTinkerPath (path : String) : Option (String × String × String) :=
  let scheme := "tinker://".toList
  if scheme <+: path.toList then
    match (path.toList.drop scheme.length).splitOn '/' with
    | [modelId, kind, name] =>
      if String.ofList kind ∈ checkpointKinds ∧
          [modelId, kind, name].all validateCheckpointSegment then
        some (String.ofList modelId, String.ofList kind, String.ofList name)
      else none
    | _ => none
  else none

/-- A path that parses, as the gateway makes them. -/
structure TinkerPath where
  text : String
  parses : (parseTinkerPath text).isSome

/-! ## The map and its file -/

structure Expiry where
  commitId : String
  expiresAt : ℚ
deriving DecidableEq

abbrev Entries := PyDict String Expiry

/-- A decoded JSON value, as far as the file needs it. -/
inductive Json where
  | str (s : String)
  | num (x : ℚ)
  | obj (members : List (String × Json))
  | other

/-- `entry._asdict()` -/
def asDict (entry : Expiry) : Json :=
  .obj [("commit_id", .str entry.commitId), ("expires_at", .num entry.expiresAt)]

/-- What `_write` dumps, with `sort_keys` -/
def encode (entries : Entries) : Json :=
  .obj ((entries.items.mergeSort fun x y => decide (x.1 ≤ y.1)).map fun p => (p.1, asDict p.2))

/-- A key of an object; of two members with one key the later one counts. -/
def member (members : List (String × Json)) (key : String) : Option Json :=
  (PyDict.ofList members).get? key

/-- One entry of the file -/
def decodeEntry (p : String × Json) : Option (String × Expiry) :=
  -- an entry that does not parse is an error, never a deletion
  if (parseTinkerPath p.1).isSome then
    match p.2 with
    | .obj members =>
      match member members "commit_id", member members "expires_at" with
      | some (.str commitId), some (.num expiresAt) => some (p.1, ⟨commitId, expiresAt⟩)
      | _, _ => none
    | _ => none
  else none

/-- What `CheckpointExpiry.__init__` makes of the JSON value in the file -/
def decode : Json → Option Entries
  | .obj members => ((PyDict.ofList members).items.mapM decodeEntry).map PyDict.ofList
  | _ => none

/-- A file: what is in it while it is written, or when it is written. -/
inductive File where
  | torn
  | whole (json : Json)

/-- The expiry file and the file that is renamed to it -/
structure Disk where
  file : Option File
  /-- What the expiry path may name after a power loss; the last sync left `file` alone there. -/
  durable : List (Option File)
  temporary : Option File
  temporarySynced : Bool

/-- What the map is when the process starts with this file -/
def load : Option File → Option Entries
  | none => some PyDict.empty
  | some .torn => none
  | some (.whole json) => decode json

/-- The process and what is around it; `live` is the commit that the backend resolves a checkpoint
    to, and no step reads `deleted` or `syncMissed`. -/
structure State where
  disk : Disk
  entries : Entries
  live : PyDict String String
  /-- The deletions of expired checkpoints: the live commit and the entry. -/
  deleted : List (Option String × Expiry)
  /-- Since the last sync of the directory that went through, one has failed, or the process has
      stopped between a rename and its sync. -/
  syncMissed : Bool

/-! ## Steps -/

inductive Op where
  /-- Read the attributes of the object. -/
  | read
  /-- `self._entries = entries` -/
  | assign (entries : Entries)
  | openTemporary
  /-- `json.dump` and `flush` -/
  | dump (json : Json)
  | syncTemporary
  | closeTemporary
  | replace
  | openDirectory
  | syncDirectory
  | closeDirectory
  /-- `resolve_checkpoint_files` -/
  | resolve (path : String)
  /-- `delete_adapter` -/
  | delete (path : String) (entry : Option Expiry)

def apply (s : State) : Op → State
  | .read => s
  | .assign entries => { s with entries := entries }
  | .openTemporary =>
    { s with disk := { s.disk with temporary := some .torn, temporarySynced := false } }
  | .dump json => { s with disk := { s.disk with temporary := some (.whole json) } }
  | .syncTemporary => { s with disk := { s.disk with temporarySynced := true } }
  | .closeTemporary => s
  | .replace =>
    -- a file that was not synced may be torn after a power loss
    let durable := if s.disk.temporarySynced then s.disk.temporary else some .torn
    { s with disk := ⟨s.disk.temporary, durable :: s.disk.durable, none, false⟩ }
  | .openDirectory => s
  | .syncDirectory =>
    { s with disk := { s.disk with durable := [s.disk.file] }, syncMissed := false }
  | .closeDirectory => s
  | .resolve _ => s
  | .delete path entry =>
    { s with
      live := s.live.erase path
      deleted := s.deleted ++ (entry.toList.map fun e => (s.live.get? path, e)) }

/-- What an operation that fails leaves behind: a dump may have written a part. -/
def applyFailed (s : State) : Op → State
  | .dump _ => { s with disk := { s.disk with temporary := some .torn } }
  | .openDirectory => { s with syncMissed := true }
  | .syncDirectory => { s with syncMissed := true }
  | _ => s

inductive Err where
  | userInput
  | osError
  /-- A link that the gateway did not write, or a path that leaves the root. -/
  | refused
deriving DecidableEq

/-- An operation goes through or fails, but for those on attributes. -/
inductive Answers : Op → State → Except Err Unit → State → Prop
  | done (op : Op) (s : State) : Answers op s (.ok ()) (apply s op)
  | failed (op : Op) (s : State) (e : Err) (he : e ≠ .userInput) (hread : op ≠ .read)
      (hassign : ∀ entries, op ≠ .assign entries) : Answers op s (.error e) (applyFailed s op)

/-- One of the answers, with an `OSError` where it is asked for. -/
def answer (fault : Bool) (op : Op) (s : State) : Except Err Unit × State :=
  match op with
  | .read => (.ok (), apply s .read)
  | .assign entries => (.ok (), apply s (.assign entries))
  | op => if fault then (.error .osError, applyFailed s op) else (.ok (), apply s op)

abbrev Program (α : Type) := Prog Op State Err α

def perform (op : Op) : Program Unit := do
  let _ ← Prog.perform op
  pure ()

/-! ## The store -/

/-- The `with` block of `_write` -/
def writeTemporary (entries : Entries) : Program Unit := do
  perform .openTemporary
  (do perform (.dump (encode entries)); perform .syncTemporary : Program Unit).onRaise fun e => do
    perform .closeTemporary
    Prog.raise e
  perform .closeTemporary

/-- The last part of `_write`: the rename itself is durable only once the directory is. -/
def syncParent : Program Unit := do
  perform .openDirectory
  (perform .syncDirectory).onRaise fun e => do
    perform .closeDirectory
    Prog.raise e
  perform .closeDirectory

/-- `CheckpointExpiry._write` -/
def write (entries : Entries) : Program Unit := do
  writeTemporary entries
  perform .replace
  -- only now: a failed write leaves the expiries as the file holds them
  perform (.assign entries)
  syncParent

/-- `CheckpointExpiry.drop` -/
def drop (path : String) : Program Unit := do
  let s ← Prog.perform .read
  if (s.entries.get? path).isSome then write (s.entries.erase path) else pure ()

def minTtlS : Int := 3600

def maxTtlS : Int := 10 * 365 * 24 * 3600

/-- `CheckpointExpiry.set` -/
def set (path commitId : String) (ttlSeconds : Option Int) (now : ℚ) : Program Unit := do
  Prog.require (ttlSeconds.all fun ttl => decide (minTtlS ≤ ttl ∧ ttl ≤ maxTtlS)) .userInput
  match ttlSeconds with
  | none => drop path
  | some ttl => do
    let s ← Prog.perform .read
    write (s.entries.set path ⟨commitId, now + ttl⟩)

/-- `CheckpointExpiry.expired`; the paths are distinct, so they alone are compared. -/
def expired (entries : Entries) (now : ℚ) : List (String × Expiry) :=
  (entries.items.filter fun p => decide (p.2.expiresAt ≤ now)).mergeSort fun x y =>
    decide (x.1 ≤ y.1)

/-! ## The sweep -/

/-- `_delete_checkpoint`; `entry` is the expired one that it is called for, if any. -/
def deleteCheckpoint (path : String) (entry : Option Expiry) : Program Unit := do
  perform (.delete path entry)
  drop path

/-- The body of the loop of `_expire_checkpoints` -/
def expireEntry (path : String) (entry : Expiry) : Program Unit := do
  let s ← Prog.perform (.resolve path)
  -- deleted by hand, or the expiry of a commit an overwrite replaced: nothing to remove
  if s.live.get? path = some entry.commitId then deleteCheckpoint path (some entry) else drop path

/-- `_expire_checkpoints`: it holds the trainer lock, which every commit needs, and the expiry lock,
    which every change of an expiry needs, so nothing else happens in between. -/
def sweep (now : ℚ) : Program Unit := do
  let s ← Prog.perform .read
  (expired s.entries now).forM fun p =>
    -- one undeletable checkpoint must not stop the sweep; its entry stays for the next one
    (expireEntry p.1 p.2).onRaise fun e => if e = .userInput then Prog.raise e else pure ()

/-! ## Runs -/

/-- What happens between two states in which nothing is under way -/
inductive Operation where
  | set (path : TinkerPath) (commitId : String) (ttlSeconds : Option Int) (now : ℚ)
  | drop (path : String)
  | sweep (now : ℚ)
  /-- `delete_checkpoint` -/
  | delete (path : String)

def Operation.program : Operation → Program Unit
  | .set path commitId ttlSeconds now => CheckpointExpiry.set path.text commitId ttlSeconds now
  | .drop path => CheckpointExpiry.drop path
  | .sweep now => CheckpointExpiry.sweep now
  | .delete path => deleteCheckpoint path none

/-- The process stopped and starts again. -/
def restart (s : State) : Option State :=
  (load s.disk.file).map fun entries =>
    -- a rename that was not synced has left more than one file to come back
    { s with entries := entries, syncMissed := s.syncMissed || 1 < s.disk.durable.length }

/-- The machine stopped and starts again with one of the files that the path may name then. -/
def restartAfterPowerLoss (s : State) (file : Option File) : Option State :=
  (load file).map fun entries =>
    { s with disk := ⟨file, [file], none, false⟩, entries := entries, syncMissed := false }

end Miles.CheckpointExpiry
