import Miles.Native.Tinker.CheckpointExpiry
import Miles.ForStd.Lts

/-!
# Download URLs

Pure Lean model of `external_weights_urls`, `download_path` and what changes a checkpoint or its
expiry meanwhile. A step is the code of a method between two awaits, or the work of a thread that it
awaits; a change of an expiry reads the clock first and is in force once its thread has stored it.
-/

namespace Miles.Downloads

open CheckpointExpiry (Expiry Entries minTtlS maxTtlS)

/-- `_DOWNLOAD_URL_TTL_S`; no time to live is shorter. -/
def downloadUrlTtlS : Int := 3600

/-- What the backend resolves a committed checkpoint to -/
structure Files where
  commitId : String
  tenant : String
  path : String
  files : List String
deriving DecidableEq

/-- `_Download` -/
structure Download where
  tenant : String
  tinkerPath : String
  commitId : String
  expiresAt : ℚ
deriving DecidableEq

/-- `download[:3]` -/
def Download.key (d : Download) : String × String × String := (d.tenant, d.tinkerPath, d.commitId)

/-- A call of `external_weights_urls` whose checkpoint is resolved -/
structure UrlCall where
  tenant : String
  tinkerPath : String
  files : Files
  baseUrl : String
deriving DecidableEq

/-- An expiry on its way to the store; none drops the entry. -/
structure Pending where
  tinkerPath : String
  new : Option Expiry
deriving DecidableEq

structure World where
  now : ℚ
  /-- The committed checkpoints, by tinker path. -/
  live : PyDict String Files
  expiry : Entries
  /-- What the holder of the expiry lock is storing. -/
  pending : Option Pending
  downloads : PyDict String Download
  downloadTokens : PyDict (String × String × String) String
  urlCalls : List UrlCall
  /-- The calls of `download_path` that have looked their token up. -/
  downloadCalls : List Download
  /-- The commit ids that were used; a new one is none of them. -/
  commits : List String
  /-- The tokens that were issued; a new one is none of them. -/
  issued : List (String × Download)

/-- What `external_weights_urls` answers -/
structure Answer where
  urls : List (String × String)
  token : String
  expires : ℚ

inductive Err where
  | userInput
  | notFound
  | ownership
deriving DecidableEq

/-! ## The methods -/

/-- `_owned_checkpoint` -/
def ownedCheckpoint (w : World) (tenant tinkerPath : String) : Except Err Files :=
  match w.live.get? tinkerPath with
  | none => .error .notFound
  | some files => if files.tenant = tenant then .ok files else .error .ownership

/-- `CheckpointExpiry.expires_at` -/
def expiresAt (entries : Entries) (tinkerPath commitId : String) : Option ℚ :=
  match entries.get? tinkerPath with
  | some entry => if entry.commitId = commitId then some entry.expiresAt else none
  | none => none

/-- The expiry of a URL that is signed now: an hour, and never past its checkpoint's expiry -/
def signedExpiry (w : World) (call : UrlCall) : ℚ :=
  match expiresAt w.expiry call.tinkerPath call.files.commitId with
  | none => w.now + downloadUrlTtlS
  | some checkpointExpiresAt => min (w.now + downloadUrlTtlS) checkpointExpiresAt

def UrlCall.key (call : UrlCall) : String × String × String :=
  (call.tenant, call.tinkerPath, call.files.commitId)

/-- The token of a checkpoint commit with its download, while it has half the life a new one would
    get -/
def reusable (w : World) (call : UrlCall) : Option (String × Download) :=
  match w.downloadTokens.get? call.key with
  | none => none
  | some token =>
    match w.downloads.get? token with
    | none => none
    | some live =>
      if (signedExpiry w call - w.now) / 2 ≤ live.expiresAt - w.now then some (token, live)
      else none

def answer (call : UrlCall) (token : String) (expires : ℚ) : Answer where
  urls := call.files.files.map fun f =>
    (f, call.baseUrl ++ "api/v1/external_weights/" ++ token ++ "/" ++ f)
  token := token
  expires := expires

/-- A new token is signed. -/
def sign (w : World) (call : UrlCall) (token : String) : World :=
  let download := ⟨call.tenant, call.tinkerPath, call.files.commitId, signedExpiry w call⟩
  { w with
    downloadTokens := w.downloadTokens.set call.key token
    downloads := w.downloads.set token download
    issued := w.issued ++ [(token, download)] }

/-- The end of `external_weights_urls`; `token` is what `secrets` would give. -/
def reuseOrSign (w : World) (call : UrlCall) (token : String) : World × Answer :=
  match reusable w call with
  | some (cached, live) => (w, answer call cached live.expiresAt)
  | none => (sign w call token, answer call token (signedExpiry w call))

/-- `external_weights_urls` from its `await` on -/
def externalWeightsUrls (w : World) (call : UrlCall) (token : String) : Except Err (World × Answer) :=
  match expiresAt w.expiry call.tinkerPath call.files.commitId with
  | some checkpointExpiresAt =>
    -- expired, and only not yet swept
    if checkpointExpiresAt ≤ w.now then .error .notFound else .ok (reuseOrSign w call token)
  | none => .ok (reuseOrSign w call token)

/-- `download_path` up to its `await` -/
def lookUp (w : World) (token : String) : Except Err Download :=
  match w.downloads.get? token with
  | none => .error .notFound
  | some download => if download.expiresAt ≤ w.now then .error .notFound else .ok download

/-- `download_path` from its `await` on -/
def downloadPath (w : World) (download : Download) (filename : String) : Except Err String :=
  match ownedCheckpoint w download.tenant download.tinkerPath with
  | .error e => .error e
  | .ok files =>
    if files.commitId ≠ download.commitId then .error .notFound
    else if filename ∉ files.files then .error .notFound
    else .ok (files.path ++ "/" ++ filename)

/-- `_drop_expired_downloads`: a key loses its token if it is the one of the dropped download. -/
def dropExpiredDownloads (w : World) : World :=
  { w with
    downloads := w.downloads.filter fun _ d => decide (w.now < d.expiresAt)
    downloadTokens := w.downloadTokens.filter fun key token =>
      (w.downloads.get? token).all fun d => decide (w.now < d.expiresAt ∨ d.key ≠ key) }

/-! ## Changes of checkpoints and expiries -/

/-- `CheckpointExpiry.set` from the clock to the thread, in `set_checkpoint_ttl` and after a commit -/
def beginSet (w : World) (tinkerPath commitId : String) (ttlSeconds : Option Int) :
    Option World :=
  if w.pending.isNone ∧ ttlSeconds.all fun ttl => decide (minTtlS ≤ ttl ∧ ttl ≤ maxTtlS) then
    some { w with
      pending := some ⟨tinkerPath, ttlSeconds.map fun (ttl : Int) => ⟨commitId, w.now + ttl⟩⟩ }
  else none

/-- The store once the change is in force -/
def Pending.store (p : Pending) (expiry : Entries) : Entries :=
  match p.new with
  | some entry => expiry.set p.tinkerPath entry
  | none => expiry.erase p.tinkerPath

/-- The thread has stored the change, or failed before it did. -/
def endSet (w : World) (stored : Bool) : Option World :=
  w.pending.map fun p =>
    { w with pending := none, expiry := if stored then p.store w.expiry else w.expiry }

/-- `_delete_checkpoint` up to the drop of the entry -/
def deleteCheckpoint (w : World) (tinkerPath : String) : Option World :=
  if w.pending.isNone then
    some { w with live := w.live.erase tinkerPath, pending := some ⟨tinkerPath, none⟩ }
  else none

/-- One entry of `_expire_checkpoints` -/
def expireCheckpoint (w : World) (tinkerPath : String) : Option World :=
  match w.expiry.get? tinkerPath with
  | none => none
  | some entry =>
    if w.now < entry.expiresAt ∨ w.pending.isSome then none
    else if (w.live.get? tinkerPath).map Files.commitId = some entry.commitId then
      deleteCheckpoint w tinkerPath
    else some { w with pending := some ⟨tinkerPath, none⟩ }

inductive Event where
  | elapse (seconds : ℚ)
  | commit (tinkerPath : String) (files : Files)
  | beginSet (tinkerPath commitId : String) (ttlSeconds : Option Int)
  | endSet (stored : Bool)
  | delete (tinkerPath : String)
  | expire (tinkerPath : String)
  | dropExpiredDownloads
  | resolveUrls (tenant modelId checkpointId baseUrl : String)
  | answerUrls (call : Nat) (token : String)
  | lookUp (token : String)
  | finishDownload (call : Nat)

/-- `_tinker_path` -/
def tinkerPathOf (modelId checkpointId : String) : String :=
  "tinker://" ++ modelId ++ "/" ++ checkpointId

/-- `external_weights_urls` up to its `await`, and the thread that resolves the checkpoint -/
def resolveUrls (w : World) (tenant modelId checkpointId baseUrl : String) : Except Err World :=
  if ¬ "external_weights/".toList <+: checkpointId.toList then .error .userInput
  else
    match ownedCheckpoint w tenant (tinkerPathOf modelId checkpointId) with
    | .error e => .error e
    | .ok files => .ok { w with
        urlCalls := w.urlCalls ++ [⟨tenant, tinkerPathOf modelId checkpointId, files, baseUrl⟩] }

def step (w : World) : Event → Option World
  | .elapse seconds => if 0 ≤ seconds then some { w with now := w.now + seconds } else none
  | .commit tinkerPath files =>
    if files.commitId ∉ w.commits then
      some { w with
        live := w.live.set tinkerPath files, commits := w.commits ++ [files.commitId] }
    else none
  | .beginSet tinkerPath commitId ttlSeconds => beginSet w tinkerPath commitId ttlSeconds
  | .endSet stored => endSet w stored
  | .delete tinkerPath => deleteCheckpoint w tinkerPath
  | .expire tinkerPath => expireCheckpoint w tinkerPath
  | .dropExpiredDownloads => some (dropExpiredDownloads w)
  | .resolveUrls tenant modelId checkpointId baseUrl =>
    (resolveUrls w tenant modelId checkpointId baseUrl).toOption
  | .answerUrls i token =>
    match w.urlCalls[i]? with
    | none => none
    | some call =>
      if token ∈ w.issued.map Prod.fst then none
      else
        match externalWeightsUrls w call token with
        | .ok (w', _) => some { w' with urlCalls := w'.urlCalls.eraseIdx i }
        | .error _ => some { w with urlCalls := w.urlCalls.eraseIdx i }
  | .lookUp token =>
    match lookUp w token with
    | .ok download => some { w with downloadCalls := w.downloadCalls ++ [download] }
    | .error _ => some w
  | .finishDownload i => some { w with downloadCalls := w.downloadCalls.eraseIdx i }

/-- A gateway that has just started. -/
def World.initial (now : ℚ) (live : PyDict String Files) (expiry : Entries) : World :=
  ⟨now, live, expiry, none, .empty, .empty, [], [], live.items.map fun p => p.2.commitId, []⟩

end Miles.Downloads
