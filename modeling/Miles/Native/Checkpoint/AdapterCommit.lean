import Miles.ForStd.CrashHoare
import Miles.ForStd.PyDict

/-!
# Adapter commits

Pure Lean model of `backends/training_utils/checkpoint/adapter/commit.py`: the directory of the
adapters of one committer, and the programs that write, commit, delete and recover adapters in it.

The file system is a directory of entries. `os.rename` and `os.replace` move one entry at once;
`shutil.rmtree` first takes the files of a directory away and then the directory, and may stop in
between. A failed operation leaves the directory as it was.
-/

namespace Miles.AdapterCommit

open CrashHoare

/-! ## Names -/

/-- `[0-9a-f]` -/
def isHexDigit (c : Char) : Bool := c ∈ "0123456789abcdef".toList

/-- A commit id: `secrets.token_hex(_COMMIT_ID_NBYTES)`. -/
structure CommitId where
  text : String
  hex : text.toList.length = 16 ∧ text.toList.all isHexDigit

theorem CommitId.ext {x y : CommitId} (h : x.text = y.text) : x = y := by
  cases x
  cases y
  cases h
  rfl

instance : DecidableEq CommitId := fun x y =>
  decidable_of_iff (x.text = y.text) ⟨CommitId.ext, congrArg CommitId.text⟩

/-- What kind of entry an internal name is of. -/
inductive Suffix where
  | none
  | deleting
  | link
  | adopting
deriving DecidableEq

/-- `_DELETING_SUFFIX`, `_STAGING_SUFFIX`, `_ADOPTING_SUFFIX` -/
def Suffix.text : Suffix → String
  | .none => ""
  | .deleting => ".deleting"
  | .link => ".link"
  | .adopting => ".adopting"

/-- `_physical_dir` -/
def physicalDir (name : String) (commitId : CommitId) : String :=
  "." ++ name ++ "." ++ commitId.text

/-- The owner in `.{owner}.{sixteen hexadecimal digits}`, read from the end -/
def ownerOf (chars : List Char) : Option (List Char) :=
  let owner := (chars.drop 1).dropLast.take (chars.length - 18)
  let digits := chars.drop (chars.length - 16)
  if 18 < chars.length ∧ chars.head? = some '.' ∧ chars[chars.length - 17]? = some '.' ∧
      digits.all isHexDigit ∧ '\n' ∉ owner then some owner
  else none

/-- `chars` without a suffix that it ends with. -/
def withoutSuffix (suffix chars : List Char) : Option (List Char) :=
  if suffix <:+ chars then some (chars.take (chars.length - suffix.length)) else none

/-- The pattern's `$` also stands before a final line break. -/
def withoutLineBreak (chars : List Char) : List Char :=
  if chars.getLast? = some '\n' then chars.dropLast else chars

/-- `_INTERNAL_ENTRY.match`: the adapter that an internal entry is of, and its kind. The pattern's
    `.` is no line break. -/
def internalEntry (entry : String) : Option (String × Suffix) :=
  [Suffix.none, .deleting, .link, .adopting].findSome? fun suffix =>
    ((withoutSuffix suffix.text.toList (withoutLineBreak entry.toList)).bind ownerOf).map
      fun owner => (String.ofList owner, suffix)

/-- `_assert_user_name` -/
def IsUserName (name : String) : Prop :=
  name.toList.head? ≠ some '.' ∧ name ≠ "" ∧ '/' ∉ name.toList

instance (name : String) : Decidable (IsUserName name) :=
  inferInstanceAs (Decidable (_ ∧ _ ∧ _))

/-! ## The file system -/

/-- What a link points to: an entry of the root, or a path outside of it with this last part. -/
inductive Target where
  | here (entry : String)
  | outside (parent base : String)
deriving DecidableEq

/-- `target.name` -/
def Target.base : Target → String
  | .here entry => entry
  | .outside _ base => base

/-- An entry of the root; the content of a directory that is not whole is none. -/
inductive Entry (C : Type) where
  | file
  | dir (content : Option C)
  | link (target : Target)
deriving DecidableEq

/-- The root directory of a committer. -/
abbrev Root (C : Type) := PyDict String (Entry C)

/-- What the committer cannot see in its root: which paths outside exist and which of them are
    directories, and the order in which a directory is listed. -/
structure Env (C : Type) where
  outsideExists : String → String → Bool
  outsideDir : String → String → Option (Option C)
  listing : Root C → List String
  listing_perm : ∀ root, (listing root).Perm root.keys

/-- How many links the kernel follows. -/
def maxLinks : Nat := 40

variable {C : Type}

/-- `Path.exists`, which follows links -/
def targetExists (env : Env C) (root : Root C) : Nat → Target → Bool
  | _, .outside parent base => env.outsideExists parent base
  | n, .here entry =>
    match root.get? entry with
    | none => false
    | some (.link target) =>
      match n with
      | 0 => false
      | n + 1 => targetExists env root n target
    | some _ => true

/-- `Path.is_dir`, which follows links, with the content of the directory -/
def targetDir (env : Env C) (root : Root C) : Nat → Target → Option (Option C)
  | _, .outside parent base => env.outsideDir parent base
  | n, .here entry =>
    match root.get? entry with
    | some (.dir content) => some content
    | some (.link target) =>
      match n with
      | 0 => none
      | n + 1 => targetDir env root n target
    | _ => none

/-- `Path.is_dir` of an entry that is no link -/
def isPlainDir (root : Root C) (entry : String) : Bool :=
  match root.get? entry with
  | some (.dir _) => true
  | _ => false

/-- `_link_target` -/
def linkTarget (root : Root C) (entry : String) : Option Target :=
  match root.get? entry with
  | some (.link target) => some target
  | _ => none

inductive Op (C : Type) where
  /-- Queries that may fail: `is_dir`, `iterdir`, `readlink`. -/
  | look
  /-- `os.path.lexists`, which never raises. -/
  | lexists
  | mkdir (entry : String)
  | fill (entry : String) (content : C)
  | symlink (entry : String) (target : Target)
  | rename (source destination : String)
  | unlink (entry : String)
  /-- The files of a directory, or some of them, are removed. -/
  | scrub (entry : String)
  | rmdir (entry : String)
  | fsync
deriving DecidableEq

/-- The root after an operation; none where it fails for what the root holds. -/
def apply (root : Root C) : Op C → Option (Root C)
  | .look => some root
  | .lexists => some root
  | .fsync => some root
  | .mkdir entry =>
    match root.get? entry with
    | none => some (root.set entry (.dir none))
    | some _ => none
  | .fill entry content =>
    match root.get? entry with
    | some (.dir _) => some (root.set entry (.dir (some content)))
    | _ => none
  | .symlink entry target =>
    match root.get? entry with
    | none => some (root.set entry (.link target))
    | some _ => none
  | .rename source destination =>
    match root.get? source, root.get? destination with
    | some moved, none => some ((root.erase source).set destination moved)
    -- a directory only takes the place of an empty one
    | some (.dir content), some (.dir none) =>
      some ((root.erase source).set destination (.dir content))
    | some (.dir _), some _ => none
    | some _, some (.dir _) => none
    | some moved, some _ => some ((root.erase source).set destination moved)
    | none, _ => none
  | .unlink entry =>
    match root.get? entry with
    | some (.link _) => some (root.erase entry)
    | some .file => some (root.erase entry)
    | _ => none
  | .scrub entry =>
    match root.get? entry with
    | some (.dir _) => some (root.set entry (.dir none))
    | _ => none
  | .rmdir entry =>
    match root.get? entry with
    | some (.dir _) => some (root.erase entry)
    | _ => none

inductive Err where
  | assertion
  | fileNotFound
  | fileExists
  | foreignLink
  | ownership
  | osError
deriving DecidableEq

/-- No operation fails but for what the root holds. -/
def NoFault (_ : Op C) : Prop := False

/-- What an operation may answer; those of `faults` may fail. -/
inductive Answers (faults : Op C → Prop) : Op C → Root C → Except Err Unit → Root C → Prop
  | done {op : Op C} {root root' : Root C} (h : apply root op = some root') :
      Answers faults op root (.ok ()) root'
  | refused {op : Op C} {root : Root C} (h : apply root op = none) :
      Answers faults op root (.error .osError) root
  /-- A directory that is not whole may not be empty either. -/
  | notEmpty {source destination : String} {root : Root C} {content : Option C}
      (hsource : root.get? source = some (.dir content))
      (hdestination : root.get? destination = some (.dir none)) :
      Answers faults (.rename source destination) root (.error .osError) root
  | fault {op : Op C} {root : Root C} (hfaults : faults op) (hop : op ≠ .lexists) :
      Answers faults op root (.error .osError) root

/-- One of the answers, with a fault where one is asked for. -/
def answer (fault : Bool) (op : Op C) (root : Root C) : Except Err Unit × Root C :=
  match op with
  | .lexists => (.ok (), root)
  | op =>
    if fault then (.error .osError, root)
    else
      match apply root op with
      | some root' => (.ok (), root')
      | none => (.error .osError, root)

/-- A program of the committer. -/
abbrev Program (C α : Type) := Prog (Op C) (Root C) Err α

/-- `shutil.rmtree` -/
def removeTree (entry : String) : Program C Unit := do
  let _ ← Prog.perform (.scrub entry)
  let _ ← Prog.perform (.rmdir entry)
  pure ()

/-- `_rmtree` -/
def rmtree (entry : String) : Program C Unit :=
  -- left for the next recovery pass; a failed cleanup must not fail the commit that triggered it
  (removeTree entry).onRaise fun _ => pure ()

/-! ## Recovery -/

/-- `_is_library_dir` -/
def isLibraryDir (name : String) : Target → Bool
  | .here entry => internalEntry entry = some (name, .none)
  | .outside _ _ => false

/-- Whether a recovery of one adapter, or of all, is about this one. -/
def concerns (name : Option String) (owner : String) : Bool := name.all (· = owner)

/-- Remove a link. -/
def dropLink (entry : String) (referenced : List String) : Program C (List String) := do
  let _ ← Prog.perform (.unlink entry)
  pure referenced

/-- One entry in the first loop of `delete_unreferenced_adapter_dirs`. -/
def recoverLink (env : Env C) (name : Option String) (referenced : List String) (entry : String) :
    Program C (List String) := do
  let root ← Prog.perform .look
  match linkTarget root entry with
  | none => pure referenced
  | some target =>
    match internalEntry entry with
    | some (owner, .adopting) =>
      if concerns name owner then
        if targetExists env root maxLinks target ∧ root.get? owner = none then do
          -- the pre-commit dir was renamed and is reachable only through this link
          let _ ← Prog.perform (.rename entry owner)
          pure (referenced ++ [target.base])
        else dropLink entry referenced
      else pure referenced
    | some (owner, .link) =>
      -- a staging link never made it to its name; it references nothing
      if concerns name owner then dropLink entry referenced else pure referenced
    | _ =>
      if targetExists env root maxLinks target then pure (referenced ++ [target.base])
      else if concerns name entry ∧ isLibraryDir entry target then dropLink entry referenced
      else pure referenced

/-- One entry in its second loop. -/
def recoverDir (name keep : Option String) (referenced : List String) (entry : String) :
    Program C Unit := do
  let root ← Prog.perform .look
  match internalEntry entry with
  | none => pure ()
  | some (owner, suffix) =>
    if suffix = .link ∨ (linkTarget root entry).isSome ∨ keep = some entry then pure ()
    else if suffix = .deleting then
      if name = none then rmtree entry else pure ()
    else if entry ∉ referenced ∧ concerns name owner then rmtree entry
    else pure ()

/-- Remove physical directories no link in `root` points to, retired directories and dangling links
    to them. -/
def deleteUnreferencedAdapterDirs (env : Env C) (name keep : Option String) : Program C Unit := do
  let root ← Prog.perform .look
  let referenced ← (env.listing root).foldlM (recoverLink env name) []
  let root ← Prog.perform .look
  (env.listing root).forM (recoverDir name keep referenced)

/-- Remove the dirs commits and deletes retired. -/
def deleteRetiredAdapterDirs (env : Env C) : Program C Unit := do
  let root ← Prog.perform .look
  (env.listing root).forM fun entry => do
    let root ← Prog.perform .look
    if (internalEntry entry).map Prod.snd = some .deleting ∧ linkTarget root entry = none then
      rmtree entry
    else pure ()

/-! ## Commits -/

structure UncommittedAdapterDir where
  path : String
  commitId : CommitId

structure CommittedAdapterDir where
  path : String
  commitId : String
deriving DecidableEq

/-- Rename a directory `.deleting`. -/
def moveAside (entry : String) : Program C Unit := do
  let _ ← Prog.perform (.rename entry (entry ++ Suffix.deleting.text))
  pure ()

/-- `_retire` -/
def retire (entry : String) : Program C Unit :=
  -- the link already moved; recovery removes the unreferenced dir, so the commit stands
  (moveAside entry).onRaise fun _ => pure ()

/-- Give a checkpoint saved before commits the committed layout; `token` is the new commit id. -/
def adoptPreCommitDir (name : String) (token : CommitId) : Program C Unit := do
  let physical := physicalDir name token
  -- linked before the rename, so recovery finishes an adoption that stops between rename and swap
  let _ ← Prog.perform (.symlink (physical ++ Suffix.adopting.text) (.here physical))
  let _ ← Prog.perform (.rename name physical)
  let _ ← Prog.perform (.rename (physical ++ Suffix.adopting.text) name)
  let _ ← Prog.perform .fsync
  pure ()

/-- The adoption, where a directory stands under the name. -/
def adoptIfPlain (name : String) (token : CommitId) : Program C Unit := do
  let root ← Prog.perform .look
  if isPlainDir root name then adoptPreCommitDir name token else pure ()

/-- `os.path.lexists(link) and not link.is_symlink() and not link.is_dir()` -/
def isFile (root : Root C) (name : String) : Bool :=
  (root.get? name).isSome && (linkTarget root name).isNone && !isPlainDir root name

/-- The part of a commit that an exception undoes: up to the swap of the link. It returns what the
    name pointed to. -/
def swapLink (name : String) (written : UncommittedAdapterDir) (overwrite : Bool)
    (token : CommitId) : Program C (Option Target) := do
  let stagingLink := physicalDir name written.commitId ++ Suffix.link.text
  let root ← Prog.perform .look
  -- a file the library did not write: overwrite replaces commits, never a user's data
  Prog.require (!isFile root name) .fileExists
  Prog.require (overwrite || (root.get? name).isNone) .fileExists
  adoptIfPlain name token
  let root ← Prog.perform .look
  let previous := linkTarget root name
  Prog.require (previous.all (isLibraryDir name)) .foreignLink
  let _ ← Prog.perform (.symlink stagingLink (.here written.path))
  let _ ← Prog.perform (.rename stagingLink name)
  pure previous

/-- Remove an entry if it exists. -/
def unlinkIfPresent (entry : String) : Program C Unit := do
  let root ← Prog.perform .lexists
  if (root.get? entry).isSome then do
    let _ ← Prog.perform (.unlink entry)
    pure ()
  else pure ()

/-- `if previous is not None and previous.exists(): _retire(previous)` -/
def retirePrevious (env : Env C) (previous : Option Target) : Program C Unit := do
  let root ← Prog.perform .look
  match previous with
  | some (.here entry) =>
    if targetExists env root maxLinks (.here entry) then retire entry else pure ()
  | _ => pure ()

/-- The commit proper, after the recovery. -/
def commitWritten (env : Env C) (name : String) (written : UncommittedAdapterDir)
    (overwrite : Bool) (token : CommitId) : Program C CommittedAdapterDir := do
  let previous ← (swapLink name written overwrite token).onRaise fun e => do
    -- nothing points at the written dir before the swap, so a failed commit would leave it on disk
    unlinkIfPresent (physicalDir name written.commitId ++ Suffix.link.text)
    rmtree written.path
    Prog.raise e
  let _ ← Prog.perform .fsync
  retirePrevious env previous
  pure ⟨written.path, written.commitId.text⟩

/-- Atomically point `name` at `written`; the replaced commit is renamed `.deleting`. `token` is the
    commit id of an adopted directory. -/
def commitAdapterDir (env : Env C) (name : String) (written : UncommittedAdapterDir)
    (overwrite : Bool) (token : CommitId) : Program C CommittedAdapterDir := do
  Prog.require (written.path = physicalDir name written.commitId) .assertion
  let root ← Prog.perform .look
  -- a storage condition, not an invariant: another node's write may not be visible yet over NFS
  Prog.require (isPlainDir root written.path) .fileNotFound
  deleteUnreferencedAdapterDirs env (some name) (some written.path)
  let root ← Prog.perform .look
  if linkTarget root name = some (.here written.path) then
    -- a retry after the link swap; the commit already stands
    pure ⟨written.path, written.commitId.text⟩
  else commitWritten env name written overwrite token

/-! ## Writes, resolution and deletion -/

/-- `path.name.rsplit(".", 1)[1]` of a physical directory -/
def commitIdOf (entry : String) : String :=
  String.ofList (entry.toList.drop (entry.toList.length - 16))

/-- The committed directory behind `name`; `tenant` must own it. `owner` is the digest in the
    `tenant.json` of a directory. -/
def resolveAdapterDir (env : Env C) (owner : C → Option String) (root : Root C) (name : String)
    (tenant : Option String) : Except Err (Option CommittedAdapterDir) :=
  if ¬ IsUserName name then .error .assertion
  else
    match linkTarget root name with
    | none => .ok none
    | some (.outside _ _) => .error .foreignLink
    | some (.here entry) =>
      if ¬ isLibraryDir name (.here entry) then .error .foreignLink
      else
        match targetDir env root maxLinks (.here entry) with
        | some content =>
          -- an adapter without a tenant belongs to no tenant
          if tenant.isSome ∧ content.bind owner ≠ tenant then .error .ownership
          else .ok (some ⟨entry, commitIdOf entry⟩)
        | none => .ok none

/-- `resolve_adapter_dir` within a program -/
def resolved (result : Except Err (Option CommittedAdapterDir)) : Program C CommittedAdapterDir :=
  match result with
  | .error e => .raise e
  | .ok none => .raise .fileNotFound
  | .ok (some committed) => .done committed

def deleteAdapterDir (env : Env C) (owner : C → Option String) (name : String)
    (tenant : Option String) : Program C Unit := do
  let root ← Prog.perform .look
  let committed ← resolved (resolveAdapterDir env owner root name tenant)
  let _ ← Prog.perform (.unlink name)
  retire committed.path

/-- What the ranks write, synced -/
def fillDir (entry : String) (content : C) : Program C Unit := do
  let _ ← Prog.perform (.fill entry content)
  let _ ← Prog.perform .fsync
  pure ()

/-- All ranks write into the physical directory; a failed write leaves nothing behind. -/
def writeAdapterDir (name : String) (commitId : CommitId) (content : C) :
    Program C UncommittedAdapterDir := do
  Prog.require (IsUserName name) .assertion
  let _ ← Prog.perform (.mkdir (physicalDir name commitId))
  (fillDir (physicalDir name commitId) content).onRaise fun e => do
    rmtree (physicalDir name commitId)
    Prog.raise e
  pure ⟨physicalDir name commitId, commitId⟩

end Miles.AdapterCommit
