import Miles.Spec.WeightUpdate.DeltaPool

/-!
# What an engine makes of a version

An engine applies each tensor of a version once, by its documented encoding: an xor delta to bytes
of its length, an overwrite delta at its positions. It checks that the version is based on its own,
and the checksum of every tensor.
-/

namespace Miles.DiskDelta

/-- What a delta makes of a tensor's bytes. -/
def applyDelta (deltaEncoding : String) (old delta : List UInt8) : Option (List UInt8) :=
  if deltaEncoding = "xor" then
    if delta.length = old.length then some (xorEncode delta old) else none
  else if deltaEncoding = "overwrite" then
    (overwriteDecode delta).bind fun writes => overwrite old writes.1 writes.2
  else none

/-- An engine's local checkpoint, and the version that it is at. -/
structure Engine where
  version : Nat
  weights : Snapshot

/-- The base that every engine starts from. -/
def Engine.base (hfCheckpoint : Checkpoint) : Engine := ⟨0, hfCheckpoint.mapValues fun _ x => x.2⟩

section
variable (codec : Codec) (decompress : List UInt8 → Option (List UInt8))

/-- One tensor of the index -/
def pullTensor (version : Version) (weights : Snapshot) (entry : String × String) :
    Option Snapshot := do
  let file ← version.files.get? entry.2
  let compressed ← file.delta.get? entry.1
  let digest ← file.checksums.get? entry.1
  let delta ← decompress compressed
  let old ← weights.get? entry.1
  let new ← applyDelta version.index.deltaEncoding old delta
  if codec.checksum new = digest then some (weights.set entry.1 new) else none

/-- The next version of the directory -/
def Engine.pullVersion (deltaDir : PyDict String Version) (e : Engine) : Option Engine := do
  let version ← deltaDir.get? (versionDir (e.version + 1))
  if version.index.baseVersion = zeroPad 6 e.version then
    let weights ← version.index.weightMap.items.foldlM (pullTensor codec decompress version) e.weights
    some ⟨e.version + 1, weights⟩
  else none

/-- The next versions of the directory, in order -/
def Engine.pull (deltaDir : PyDict String Version) : Nat → Engine → Option Engine
  | 0, e => some e
  | n + 1, e => do
    let next ← e.pullVersion codec decompress deltaDir
    Engine.pull deltaDir n next

end

/-! ## One tensor -/

/-- An encoding that is documented makes a delta that gives the new bytes. -/
theorem exists_diff (outOfBounds : Nat → Option UInt32) {deltaEncoding : String}
    {new old : List UInt8} (hencoding : deltaEncoding = "xor" ∨ deltaEncoding = "overwrite")
    (hlength : old.length = new.length) (hsize : new.length < 2 ^ 32) :
    ∃ encoded changed, diff outOfBounds deltaEncoding new old = .ok (encoded, changed) ∧
      applyDelta deltaEncoding old encoded = some new := by
  rcases hencoding with rfl | rfl
  · refine ⟨xorEncode new old, _, rfl, ?_⟩
    have hsame : (xorEncode new old).length = old.length := by
      rw [xorEncode, List.length_zipWith, hlength, Nat.min_self]
    rw [applyDelta, if_pos rfl, if_pos hsame, xor_exact hlength]
  · have hmask := length_changedMask hlength
    have hcount : (changedMask new old).count true < 2 ^ 32 := by
      have hle := List.count_le_length (a := true) (l := changedMask new old)
      omega
    have hpositions (position : Nat) (h : (changedMask new old)[position]? = some true) :
        position < 2 ^ 32 := by
      have hlt := (List.getElem?_eq_some_iff.mp h).1
      omega
    have hexact := exact_of_fits outOfBounds hlength hcount hpositions
    unfold Exact at hexact
    cases hencoded : overwriteEncode outOfBounds new (changedMask new old) with
    | none =>
      rw [hencoded] at hexact
      cases hexact
    | some encoded =>
      rw [hencoded] at hexact
      refine ⟨encoded, (changedMask new old).count true, ?_, hexact⟩
      simp [diff, hencoded]

variable {codec : Codec} {decompress : List UInt8 → Option (List UInt8)}

/-- What is published of a tensor makes the new bytes of the old ones. -/
theorem published_cases {new old : List UInt8}
    (hencoding : codec.deltaEncoding = "xor" ∨ codec.deltaEncoding = "overwrite")
    (hlength : old.length = new.length) (hsize : new.length < 2 ^ 32) :
    (publishedDelta codec new old = none ∧ new = old) ∨
      (new ≠ old ∧ ∃ encoded,
        publishedDelta codec new old = some (codec.compress encoded, codec.checksum new) ∧
        applyDelta codec.deltaEncoding old encoded = some new) := by
  obtain ⟨encoded, changed, hdiff, happlied⟩ :=
    exists_diff codec.outOfBounds hencoding hlength hsize
  have hok : diffAndCompress codec.compress codec.checksum codec.outOfBounds codec.deltaEncoding
      new old = .ok (if changed = 0 then ⟨new, none, 0⟩
        else ⟨new, some (codec.compress encoded, codec.checksum new), changed⟩) := by
    unfold diffAndCompress
    rw [hdiff, Except.ok_bind]
    split
    · rfl
    · rfl
  have hnone := diffAndCompress_delta_eq_none hlength hok
  unfold publishedDelta
  rw [hok]
  by_cases hchanged : changed = 0
  · rw [if_pos hchanged] at hnone ⊢
    exact .inl ⟨rfl, hnone.mp rfl⟩
  · rw [if_neg hchanged] at hnone ⊢
    refine .inr ⟨fun heq => ?_, encoded, rfl, happlied⟩
    cases hnone.mpr heq

/-- Pulling a tensor from the file that holds its delta. -/
theorem pullTensor_eq {version : Version} {weights : Snapshot} {name fname : String} {file : Shard}
    {encoded new old : List UInt8} (hround : ∀ bytes, decompress (codec.compress bytes) = some bytes)
    (hfile : version.files.get? fname = some file)
    (hdelta : file.delta.get? name = some (codec.compress encoded))
    (hdigest : file.checksums.get? name = some (codec.checksum new))
    (hold : weights.get? name = some old)
    (happlied : applyDelta version.index.deltaEncoding old encoded = some new) :
    pullTensor codec decompress version weights (name, fname) = some (weights.set name new) := by
  simp [pullTensor, hfile, hdelta, hdigest, hround, hold, happlied]

/-- Pulling distinct tensors sets each of them. -/
theorem foldlM_pullTensor {version : Version} {entries : List (String × String)}
    {target : String → List UInt8} {weights : Snapshot} (hnodup : (entries.map Prod.fst).Nodup)
    (h : ∀ entry ∈ entries, ∀ found : Snapshot, found.get? entry.1 = weights.get? entry.1 →
      pullTensor codec decompress version found entry =
        some (found.set entry.1 (target entry.1))) :
    ∃ pulled, entries.foldlM (pullTensor codec decompress version) weights = some pulled ∧
      ∀ name, pulled.get? name =
        if name ∈ entries.map Prod.fst then some (target name) else weights.get? name := by
  induction entries generalizing weights with
  | nil => exact ⟨weights, rfl, fun name => rfl⟩
  | cons entry entries ih =>
    rw [List.map_cons, List.nodup_cons] at hnodup
    have hother (x : String × String) (hx : x ∈ entries) : x.1 ≠ entry.1 := by
      intro heq
      rw [← heq] at hnodup
      exact hnodup.1 (List.mem_map_of_mem hx)
    have hrest (x : String × String) (hx : x ∈ entries) (found : Snapshot)
        (hfound : found.get? x.1 = (weights.set entry.1 (target entry.1)).get? x.1) :
        pullTensor codec decompress version found x = some (found.set x.1 (target x.1)) := by
      apply h x (List.mem_cons_of_mem _ hx)
      rw [hfound, PyDict.get?_set, if_neg (hother x hx)]
    obtain ⟨pulled, hpulled, hget⟩ := ih hnodup.2 hrest
    refine ⟨pulled, ?_, fun name => ?_⟩
    · rw [List.foldlM_cons, h entry List.mem_cons_self weights rfl]
      exact hpulled
    · rw [hget, PyDict.get?_set]
      by_cases hname : name = entry.1
      · subst hname
        simp
      · simp only [List.map_cons, List.mem_cons, hname, false_or, if_false]

/-- Pulling some versions and then others. -/
theorem pull_add (deltaDir : PyDict String Version) (m n : Nat) (e : Engine) :
    e.pull codec decompress deltaDir (m + n) =
      (e.pull codec decompress deltaDir m).bind fun next =>
        next.pull codec decompress deltaDir n := by
  induction m generalizing e with
  | zero =>
    rw [Nat.zero_add]
    rfl
  | succ m ih =>
    rw [Nat.succ_add]
    show (e.pullVersion codec decompress deltaDir).bind _ =
      ((e.pullVersion codec decompress deltaDir).bind _).bind _
    rw [Option.bind_assoc]
    congr 1
    funext next
    exact ih next

end Miles.DiskDelta
