import Miles.Spec.WeightUpdate.DeltaVersion
import Miles.Spec.WeightUpdate.DeltaPull
import Mathlib.Data.Fintype.Basic

/-!
# Disk-delta syncs refine a full copy

Every completed sync publishes, for each tensor whose bytes changed, one delta against the previous
sync. An engine that applies the versions in order holds the trainer's bytes.
-/

namespace Miles.DiskDelta

variable {world : Nat} {codec : Codec} {maxInflight : Nat} {hfCheckpoint : Checkpoint}
  {names : Fin world → List String} {size : String → Nat} {weights : Nat → String → List UInt8}
  {decompress : List UInt8 → Option (List UInt8)}

/-! ## A full copy -/

/-- What the ranks emit in a sync: each its own tensors, whose bytes are the trainer's. -/
structure Emits (names : Fin world → List String) (size : String → Nat)
    (streams : Fin world → List Emitted) (weights : String → List UInt8) : Prop where
  emitted : ∀ rank name, name ∈ (streams rank).map Emitted.name ↔ name ∈ names rank
  bytes : ∀ rank, ∀ tensor ∈ streams rank, tensor.bytes = weights tensor.name
  length : ∀ rank, ∀ name ∈ names rank, (weights name).length = size name

/-- What a full copy of the trainer's tensors at the `k`-th sync makes of the base. -/
def fullCopy (hfCheckpoint : Checkpoint) (names : Fin world → List String)
    (weights : Nat → String → List UInt8) : Nat → String → Option (List UInt8)
  | 0, name => (hfCheckpoint.get? name).map Prod.snd
  | k + 1, name =>
    if ∃ rank, name ∈ names rank then some (weights k name)
    else (hfCheckpoint.get? name).map Prod.snd

theorem fullCopy_of_mem {k : Nat} {rank : Fin world} {name : String} (hname : name ∈ names rank) :
    fullCopy hfCheckpoint names weights (k + 1) name = some (weights k name) :=
  if_pos ⟨rank, hname⟩

theorem fullCopy_of_not_mem {k : Nat} {name : String} (hname : ¬ ∃ rank, name ∈ names rank) :
    fullCopy hfCheckpoint names weights k name = (hfCheckpoint.get? name).map Prod.snd := by
  cases k with
  | zero => rfl
  | succ k => exact if_neg hname

/-! ## The baseline -/

/-- What a rank's baseline holds after `stream`. -/
structure Baseline (hfCheckpoint : Checkpoint) (before : Snapshot) (stream : List Emitted)
    (snapshot : Snapshot) : Prop where
  get? : ∀ name, snapshot.get? name =
    if name ∈ stream.map Emitted.name then (hfCheckpoint.get? name).map Prod.snd
    else before.get? name
  known : ∀ tensor ∈ stream, ∃ baseline,
    hfCheckpoint.get? tensor.name = some (tensor.layout, baseline) ∧
      tensor.bytes.length = baseline.length

theorem captureTensor_eq_ok {snapshot snapshot' : Snapshot} {tensor : Emitted}
    (h : captureTensor hfCheckpoint snapshot tensor = .ok snapshot') :
    ∃ baseline, hfCheckpoint.get? tensor.name = some (tensor.layout, baseline) ∧
      tensor.bytes.length = baseline.length ∧ snapshot' = snapshot.set tensor.name baseline := by
  unfold captureTensor at h
  split at h
  · cases h
  · rename_i layout baseline hfound
    split at h
    · cases h
    · rename_i hlayout
      split at h
      · cases h
      · rename_i hnbytes
        cases h
        rw [not_not] at hlayout hnbytes
        rw [hlayout] at hfound
        exact ⟨baseline, hfound, hnbytes, rfl⟩

/-- A captured baseline holds the checkpoint's bytes of every emitted tensor. -/
theorem captureBaseline_baseline {before snapshot : Snapshot} {stream : List Emitted}
    (h : captureBaseline hfCheckpoint before stream = .ok snapshot) :
    Baseline hfCheckpoint before stream snapshot := by
  unfold captureBaseline at h
  induction stream generalizing before with
  | nil =>
    cases h
    constructor
    · exact fun name => rfl
    · intro tensor htensor
      cases htensor
  | cons tensor stream ih =>
    rw [List.foldlM_cons] at h
    obtain ⟨next, hnext, hrest⟩ := Except.bind_eq_ok.mp h
    obtain ⟨baseline, hfound, hnbytes, rfl⟩ := captureTensor_eq_ok hnext
    have hstream := ih hrest
    constructor
    · intro name
      rw [hstream.get?, PyDict.get?_set]
      by_cases hname : name = tensor.name
      · subst hname
        simp [hfound]
      · simp only [List.map_cons, List.mem_cons, hname, false_or, if_false]
    · intro x hx
      rcases List.mem_cons.mp hx with heq | hmem
      · rw [heq]
        exact ⟨baseline, hfound, hnbytes⟩
      · exact hstream.known x hmem

/-! ## What is published -/

/-- The version that carries an engine from the `k`-th sync to the next. -/
structure Carries (codec : Codec) (hfCheckpoint : Checkpoint) (names : Fin world → List String)
    (weights : Nat → String → List UInt8) (k : Nat) (version : Version) : Prop where
  number : version.index.version = zeroPad 6 (k + 1)
  base : version.index.baseVersion = zeroPad 6 k
  encoding : version.index.deltaEncoding = codec.deltaEncoding
  /-- The files are numbered without gaps. -/
  numbered : ∃ total, version.files.keys = (List.range total).map (fileName · total)
  index : ∀ name fname, version.index.weightMap.get? name = some fname ↔
    ∃ file, version.files.get? fname = some file ∧ name ∈ file.delta.keys
  changed : ∀ name, name ∈ version.index.weightMap.keys ↔
    (∃ rank, name ∈ names rank) ∧
      fullCopy hfCheckpoint names weights k name ≠ some (weights k name)
  held : ∀ fname file name, version.files.get? fname = some file → name ∈ file.delta.keys →
    ∃ old encoded, fullCopy hfCheckpoint names weights k name = some old ∧
      file.delta.get? name = some (codec.compress encoded) ∧
      file.checksums.get? name = some (codec.checksum (weights k name)) ∧
      applyDelta codec.deltaEncoding old encoded = some (weights k name)

/-- What the ranks hold and have published after `k` syncs. -/
structure Publication (codec : Codec) (hfCheckpoint : Checkpoint)
    (names : Fin world → List String) (size : String → Nat) (weights : Nat → String → List UInt8)
    (k : Nat) (p : Protocol world) : Prop where
  captured : p.baselineCaptured = true ↔ 0 < k
  fileVersion : p.snapshotFileVersion = k
  snapshot : 0 < k → ∀ rank, ∀ name ∈ names rank, ∃ old,
    (p.snapshot rank).get? name = some old ∧ old.length = size name ∧
      fullCopy hfCheckpoint names weights k name = some old
  deltaDir : ∀ j < k, ∃ version, p.deltaDir.get? (versionDir (j + 1)) = some version ∧
    Carries codec hfCheckpoint names weights j version

theorem Publication.init (deltaDir : PyDict String Version) :
    Publication codec hfCheckpoint names size weights 0 (Protocol.init world deltaDir) := by
  constructor
  · simp [Protocol.init]
  · rfl
  · intro h
    cases h
  · intro j hj
    cases hj

section
variable {streams : Fin world → List Emitted} {k : Nat} {p p' : Protocol world}

theorem map_fst_payloads (stream : List Emitted) :
    (payloads stream).map Prod.fst = stream.map Emitted.name := by
  rw [payloads, List.map_map]
  rfl

/-- What a rank diffs the tensors of a sync against. -/
theorem Publication.begun (h : Publication codec hfCheckpoint names size weights k p)
    (hemits : Emits names size streams (weights k)) (hbegin : BeginSync hfCheckpoint streams p p') :
    p'.baselineCaptured = true ∧ p'.snapshotFileVersion = k + 1 ∧
      (∀ rank, ∀ name ∈ names rank, ∃ old, (p'.snapshot rank).get? name = some old ∧
        old.length = size name ∧ fullCopy hfCheckpoint names weights k name = some old) ∧
      ∀ j < k, p'.deltaDir.get? (versionDir (j + 1)) = p.deltaDir.get? (versionDir (j + 1)) := by
  cases hbegin with
  | capture hfirst hcapture =>
    -- the first sync: the baseline is the checkpoint's
    have hk : k = 0 := by
      by_contra hne
      rw [h.captured.mpr (Nat.pos_of_ne_zero hne)] at hfirst
      cases hfirst
    subst hk
    refine ⟨rfl, by rw [h.fileVersion], fun rank name hname => ?_, fun j hj => absurd hj (Nat.not_lt_zero j)⟩
    have hbaseline := captureBaseline_baseline (hcapture rank)
    have hemitted := (hemits.emitted rank name).mpr hname
    obtain ⟨tensor, htensor, rfl⟩ := List.mem_map.mp hemitted
    obtain ⟨baseline, hfound, hnbytes⟩ := hbaseline.known tensor htensor
    have hold : (hfCheckpoint.get? tensor.name).map Prod.snd = some baseline := by
      rw [hfound]
      rfl
    refine ⟨baseline, ?_, ?_, hold⟩
    · rw [hbaseline.get?, if_pos hemitted, hold]
    · rw [← hnbytes, hemits.bytes rank tensor htensor, hemits.length rank _ hname]
  | captured hcaptured =>
    exact ⟨hcaptured, congrArg (· + 1) h.fileVersion, h.snapshot (h.captured.mp hcaptured),
      fun j hj => rfl⟩

/-! ### One rank -/

/-- What a rank makes of a tensor. -/
theorem pooled_cases {stream : List Emitted} {snapshot : Snapshot} {pipeline : Pipeline}
    {new : String → List UInt8}
    (hencoding : codec.deltaEncoding = "xor" ∨ codec.deltaEncoding = "overwrite")
    (hpooled : Pooled codec maxInflight (payloads stream) (beginEncode snapshot) pipeline)
    (hsent : ∀ tensor ∈ stream, tensor.bytes = new tensor.name) {name : String} {old : List UInt8}
    (hname : name ∈ stream.map Emitted.name) (hold : snapshot.get? name = some old)
    (hlength : old.length = (new name).length) (hsize : (new name).length < 2 ^ 32) :
    (old = new name ∧ pipeline.delta.get? name = none ∧ pipeline.checksums.get? name = none) ∨
      (old ≠ new name ∧ ∃ encoded, pipeline.delta.get? name = some (codec.compress encoded) ∧
        pipeline.checksums.get? name = some (codec.checksum (new name)) ∧
        applyDelta codec.deltaEncoding old encoded = some (new name)) := by
  have hpayloads : ∀ x ∈ payloads stream, x.2 = new x.1 := by
    intro x hx
    obtain ⟨tensor, htensor, rfl⟩ := List.mem_map.mp hx
    exact hsent tensor htensor
  have hdelta := pooled_delta hpooled hpayloads name
  have hchecksums := pooled_checksums hpooled hpayloads name
  rw [map_fst_payloads, if_pos hname, hold, Option.bind_some] at hdelta hchecksums
  rcases published_cases hencoding hlength hsize with hsame | hchanged
  · rw [hsame.1] at hdelta hchecksums
    exact .inl ⟨hsame.2.symm, hdelta, hchecksums⟩
  · obtain ⟨hne, encoded, hpublished, happlied⟩ := hchanged
    rw [hpublished] at hdelta hchecksums
    exact .inr ⟨hne.symm, encoded, hdelta, hchecksums, happlied⟩

/-- A rank publishes no tensor that it does not emit. -/
theorem pooled_of_not_mem {stream : List Emitted} {snapshot : Snapshot} {pipeline : Pipeline}
    {new : String → List UInt8}
    (hpooled : Pooled codec maxInflight (payloads stream) (beginEncode snapshot) pipeline)
    (hsent : ∀ tensor ∈ stream, tensor.bytes = new tensor.name) {name : String}
    (hname : name ∉ stream.map Emitted.name) :
    pipeline.delta.get? name = none ∧ pipeline.checksums.get? name = none := by
  have hpayloads : ∀ x ∈ payloads stream, x.2 = new x.1 := by
    intro x hx
    obtain ⟨tensor, htensor, rfl⟩ := List.mem_map.mp hx
    exact hsent tensor htensor
  rw [pooled_delta hpooled hpayloads, pooled_checksums hpooled hpayloads, map_fst_payloads,
    if_neg hname, if_neg hname]
  exact ⟨rfl, rfl⟩

/-! ### All ranks -/

/-- A completed sync publishes what carries an engine to it. -/
theorem Publication.sync (hencoding : codec.deltaEncoding = "xor" ∨ codec.deltaEncoding = "overwrite")
    (hsize : ∀ name, size name < 2 ^ 32)
    (h : Publication codec hfCheckpoint names size weights k p)
    (hemits : Emits names size streams (weights k))
    (hsync : Sync codec maxInflight hfCheckpoint streams p p') :
    Publication codec hfCheckpoint names size weights (k + 1) p' := by
  cases hsync with
  | @finalize begun pipelines version hbegin hpooled hwrite =>
    obtain ⟨hcaptured, hversion, hsnapshot, hdirs⟩ := h.begun hemits hbegin
    have hcases (rank : Fin world) (name : String) (hname : name ∈ names rank) :
        ∃ old, fullCopy hfCheckpoint names weights k name = some old ∧
          ((old = weights k name ∧ (pipelines rank).delta.get? name = none ∧
              (pipelines rank).checksums.get? name = none) ∨
            (old ≠ weights k name ∧ ∃ encoded,
              (pipelines rank).delta.get? name = some (codec.compress encoded) ∧
              (pipelines rank).checksums.get? name = some (codec.checksum (weights k name)) ∧
              applyDelta codec.deltaEncoding old encoded = some (weights k name))) := by
      obtain ⟨old, hold, hlength, hcopy⟩ := hsnapshot rank name hname
      have hnew := hemits.length rank name hname
      refine ⟨old, hcopy, pooled_cases hencoding (hpooled rank) (hemits.bytes rank) ?_ hold ?_ ?_⟩
      · exact (hemits.emitted rank name).mpr hname
      · rw [hlength, hnew]
      · rw [hnew]
        exact hsize name
    have hother (rank : Fin world) (name : String) (hname : name ∉ names rank) :
        (pipelines rank).delta.get? name = none ∧ (pipelines rank).checksums.get? name = none :=
      pooled_of_not_mem (hpooled rank) (hemits.bytes rank)
        fun hemitted => hname ((hemits.emitted rank name).mp hemitted)
    have hpaired : ∀ own ∈ List.ofFn fun rank => (pipelines rank).shard, own.Paired := by
      intro own hown name
      obtain ⟨rank, rfl⟩ := List.mem_ofFn.mp hown
      show name ∈ (pipelines rank).delta.keys ↔ name ∈ (pipelines rank).checksums.keys
      rw [PyDict.mem_keys_iff, PyDict.mem_keys_iff]
      by_cases hname : name ∈ names rank
      · obtain ⟨old, -, hsame | hchanged⟩ := hcases rank name hname
        · simp [hsame.2.1, hsame.2.2]
        · obtain ⟨-, encoded, hdelta, hchecksums, -⟩ := hchanged
          simp [hdelta, hchecksums]
      · simp [(hother rank name hname).1, (hother rank name hname).2]
    have hpublishes := writeDeltaFiles_publishes hpaired hwrite
    obtain ⟨hnumber, hbase, hindexed⟩ := writeDeltaFiles_index hwrite
    rw [hversion] at hnumber hbase
    -- a rank publishes a tensor when its bytes changed
    have hkeys (rank : Fin world) (name : String) :
        name ∈ (pipelines rank).delta.keys ↔
          name ∈ names rank ∧ fullCopy hfCheckpoint names weights k name ≠ some (weights k name) := by
      rw [PyDict.mem_keys_iff]
      by_cases hname : name ∈ names rank
      · obtain ⟨old, hcopy, hsame | hchanged⟩ := hcases rank name hname
        · simp [hsame.2.1, hcopy, hsame.1]
        · obtain ⟨hne, encoded, hdelta, -, -⟩ := hchanged
          simp [hdelta, hcopy, hname, hne]
      · simp [(hother rank name hname).1, hname]
    have hcarries : Carries codec hfCheckpoint names weights k version := by
      constructor
      · exact hnumber
      · exact hbase
      · exact hindexed
      · exact hpublishes.names
      · exact hpublishes.index
      · intro name
        rw [hpublishes.indexed]
        constructor
        · intro howned
          obtain ⟨own, hown, hname⟩ := howned
          obtain ⟨rank, rfl⟩ := List.mem_ofFn.mp hown
          have hchanged := (hkeys rank name).mp hname
          exact ⟨⟨rank, hchanged.1⟩, hchanged.2⟩
        · intro hchanged
          obtain ⟨⟨rank, hname⟩, hne⟩ := hchanged
          exact ⟨(pipelines rank).shard, List.mem_ofFn.mpr ⟨rank, rfl⟩,
            (hkeys rank name).mpr ⟨hname, hne⟩⟩
      · intro fname file name hfile hname
        obtain ⟨own, hown, howns, hdelta, hchecksums⟩ := hpublishes.held fname file name hfile hname
        obtain ⟨rank, rfl⟩ := List.mem_ofFn.mp hown
        have hchanged := (hkeys rank name).mp howns
        obtain ⟨old, hcopy, hsame | hcase⟩ := hcases rank name hchanged.1
        · rw [hcopy, hsame.1] at hchanged
          exact absurd rfl hchanged.2
        · obtain ⟨-, encoded, hencoded, hdigest, happlied⟩ := hcase
          exact ⟨old, encoded, hcopy, hdelta.trans hencoded, hchecksums.trans hdigest, happlied⟩
    constructor
    · exact ⟨fun _ => Nat.succ_pos k, fun _ => hcaptured⟩
    · exact hversion
    · intro _ rank name hname
      have hpayloads : ∀ x ∈ payloads (streams rank), x.2 = weights k x.1 := by
        intro x hx
        obtain ⟨tensor, htensor, rfl⟩ := List.mem_map.mp hx
        exact hemits.bytes rank tensor htensor
      have hsnapshots := pooled_snapshot (hpooled rank) hpayloads name
      rw [map_fst_payloads, if_pos ((hemits.emitted rank name).mpr hname)] at hsnapshots
      exact ⟨weights k name, hsnapshots, hemits.length rank name hname, fullCopy_of_mem hname⟩
    · intro j hj
      show ∃ found, (begun.deltaDir.set (versionDir begun.snapshotFileVersion) version).get?
        (versionDir (j + 1)) = some found ∧ _
      rw [hversion, PyDict.get?_set]
      by_cases hlast : j = k
      · subst hlast
        exact ⟨version, if_pos rfl, hcarries⟩
      · have hne : versionDir (j + 1) ≠ versionDir (k + 1) := by
          rw [Ne, versionDir_inj]
          omega
        rw [if_neg hne, hdirs j (by omega)]
        exact h.deltaDir j (by omega)

end

/-- What the ranks hold and have published after the syncs of a run. -/
theorem Synced.publication (hencoding : codec.deltaEncoding = "xor" ∨ codec.deltaEncoding = "overwrite")
    (hsize : ∀ name, size name < 2 ^ 32) {history : List (Fin world → List Emitted)}
    {p : Protocol world}
    (hemits : ∀ k (hk : k < history.length), Emits names size history[k] (weights k))
    (h : Synced codec maxInflight hfCheckpoint history p) :
    Publication codec hfCheckpoint names size weights history.length p := by
  induction h with
  | init deltaDir => exact Publication.init deltaDir
  | @sync history streams p p' hsynced hsync ih =>
    have hlast := hemits history.length (by simp)
    rw [List.getElem_concat_length] at hlast
    · have hbefore : Publication codec hfCheckpoint names size weights history.length p := by
        apply ih
        intro k hk
        have hk' := hemits k (by rw [List.length_append]; omega)
        rw [List.getElem_append_left hk] at hk'
        exact hk'
      rw [List.length_append]
      exact hbefore.sync hencoding hsize hlast hsync
    · rfl

/-! ## Engines -/

/-- An engine that holds what a full copy at the `k`-th sync would have given it. -/
structure HoldsCopy (hfCheckpoint : Checkpoint) (names : Fin world → List String)
    (weights : Nat → String → List UInt8) (k : Nat) (e : Engine) : Prop where
  version : e.version = k
  copied : ∀ name, e.weights.get? name = fullCopy hfCheckpoint names weights k name

theorem HoldsCopy.base : HoldsCopy hfCheckpoint names weights 0 (Engine.base hfCheckpoint) := by
  constructor
  · rfl
  · exact fun name => PyDict.get?_mapValues _ hfCheckpoint name

/-- The next version carries an engine to the next sync. -/
theorem HoldsCopy.pullVersion {k : Nat} {e : Engine} {version : Version}
    {deltaDir : PyDict String Version}
    (hround : ∀ bytes, decompress (codec.compress bytes) = some bytes)
    (h : HoldsCopy hfCheckpoint names weights k e)
    (hversion : deltaDir.get? (versionDir (k + 1)) = some version)
    (hcarries : Carries codec hfCheckpoint names weights k version) :
    ∃ e', e.pullVersion codec decompress deltaDir = some e' ∧
      HoldsCopy hfCheckpoint names weights (k + 1) e' := by
  have hnodup : (version.index.weightMap.items.map Prod.fst).Nodup :=
    version.index.weightMap.nodup_keys
  have hentries : ∀ entry ∈ version.index.weightMap.items, ∀ found : Snapshot,
      found.get? entry.1 = e.weights.get? entry.1 →
        pullTensor codec decompress version found entry =
          some (found.set entry.1 (weights k entry.1)) := by
    intro entry hentry found hfound
    obtain ⟨file, hfile, hname⟩ := (hcarries.index entry.1 entry.2).mp (PyDict.get?_eq_some.mpr hentry)
    obtain ⟨old, encoded, hcopy, hdelta, hdigest, happlied⟩ :=
      hcarries.held entry.2 file entry.1 hfile hname
    apply pullTensor_eq hround hfile hdelta hdigest
    · rw [hfound, h.copied, hcopy]
    · rw [hcarries.encoding]
      exact happlied
  obtain ⟨pulled, hpulled, hget⟩ := foldlM_pullTensor hnodup hentries
  refine ⟨⟨k + 1, pulled⟩, ?_, ?_⟩
  · simp [Engine.pullVersion, h.version, hversion, hcarries.base, hpulled]
  · refine ⟨rfl, fun name => ?_⟩
    show pulled.get? name = _
    rw [hget]
    by_cases hname : name ∈ version.index.weightMap.keys
    · obtain ⟨⟨rank, hrank⟩, -⟩ := (hcarries.changed name).mp hname
      rw [fullCopy_of_mem hrank]
      exact if_pos hname
    · -- a tensor that is not published has the bytes of the previous sync
      refine (if_neg hname).trans ((h.copied name).trans ?_)
      by_cases hrank : ∃ rank, name ∈ names rank
      · have hsame : fullCopy hfCheckpoint names weights k name = some (weights k name) := by
          by_contra hne
          exact hname ((hcarries.changed name).mpr ⟨hrank, hne⟩)
        obtain ⟨rank, hin⟩ := hrank
        rw [hsame, fullCopy_of_mem hin]
      · rw [fullCopy_of_not_mem hrank, fullCopy_of_not_mem hrank]

/-- The versions carry an engine from any sync to any later one. -/
theorem HoldsCopy.pull {p : Protocol world} {total : Nat}
    (hround : ∀ bytes, decompress (codec.compress bytes) = some bytes)
    (hpublication : Publication codec hfCheckpoint names size weights total p) (n : Nat) {j : Nat}
    {e : Engine} (h : HoldsCopy hfCheckpoint names weights j e) (htotal : j + n ≤ total) :
    ∃ e', e.pull codec decompress p.deltaDir n = some e' ∧
      HoldsCopy hfCheckpoint names weights (j + n) e' := by
  induction n generalizing j e with
  | zero => exact ⟨e, rfl, h⟩
  | succ n ih =>
    obtain ⟨version, hversion, hcarries⟩ := hpublication.deltaDir j (by omega)
    obtain ⟨next, hnext, hcopy⟩ := h.pullVersion hround hversion hcarries
    obtain ⟨e', hpull, he'⟩ := ih hcopy (by omega)
    refine ⟨e', ?_, ?_⟩
    · show (e.pullVersion codec decompress p.deltaDir).bind _ = some e'
      rw [hnext]
      exact hpull
    · have hsum : j + 1 + n = j + (n + 1) := by omega
      rw [← hsum]
      exact he'

/-- After any run of completed syncs, an engine that applies the versions `1` to `k` to the base holds
    what a full copy of the trainer's tensors at the `k`-th sync would have given it, whether it pulls
    them at once or in several goes. A version holds the tensors whose bytes changed, each in exactly
    one of its files and in its index, numbers the files without gaps, and is based on the previous
    version. -/
theorem delta_sync_refines_copy
    (hround : ∀ bytes, decompress (codec.compress bytes) = some bytes)
    (hencoding : codec.deltaEncoding = "xor" ∨ codec.deltaEncoding = "overwrite")
    (hsize : ∀ name, size name < 2 ^ 32) {history : List (Fin world → List Emitted)}
    {p : Protocol world}
    (hemits : ∀ k (hk : k < history.length), Emits names size history[k] (weights k))
    (hsynced : Synced codec maxInflight hfCheckpoint history p) :
    (∀ k ≤ history.length, ∃ e,
      (Engine.base hfCheckpoint).pull codec decompress p.deltaDir k = some e ∧
        ∀ name, e.weights.get? name = fullCopy hfCheckpoint names weights k name) ∧
    (∀ j k, j + k ≤ history.length → ∀ e,
      (Engine.base hfCheckpoint).pull codec decompress p.deltaDir j = some e →
        ∃ e', e.pull codec decompress p.deltaDir k = some e' ∧
          ∀ name, e'.weights.get? name = fullCopy hfCheckpoint names weights (j + k) name) ∧
    ∀ k < history.length, ∃ version, p.deltaDir.get? (versionDir (k + 1)) = some version ∧
      version.index.version = zeroPad 6 (k + 1) ∧ version.index.baseVersion = zeroPad 6 k ∧
      (∃ total, version.files.keys = (List.range total).map (fileName · total)) ∧
      ∀ name,
        (name ∈ version.index.weightMap.keys ↔ (∃ rank, name ∈ names rank) ∧
          fullCopy hfCheckpoint names weights k name ≠ some (weights k name)) ∧
        (name ∈ version.index.weightMap.keys →
          ∃! fname, ∃ file, version.files.get? fname = some file ∧ name ∈ file.delta.keys) ∧
        ∀ fname, version.index.weightMap.get? name = some fname ↔
          ∃ file, version.files.get? fname = some file ∧ name ∈ file.delta.keys := by
  have hpublication := hsynced.publication hencoding hsize hemits
  have hpull (k : Nat) (hk : k ≤ history.length) : ∃ e,
      (Engine.base hfCheckpoint).pull codec decompress p.deltaDir k = some e ∧
        ∀ name, e.weights.get? name = fullCopy hfCheckpoint names weights k name := by
    obtain ⟨e, hpulled, hcopy⟩ := HoldsCopy.base.pull hround hpublication k (by omega)
    rw [Nat.zero_add] at hcopy
    exact ⟨e, hpulled, hcopy.copied⟩
  refine ⟨hpull, fun j k hjk e he => ?_, fun k hk => ?_⟩
  · obtain ⟨e', hpulled, hcopy⟩ := hpull (j + k) hjk
    rw [pull_add, he, Option.bind_some] at hpulled
    exact ⟨e', hpulled, hcopy⟩
  · obtain ⟨version, hversion, hcarries⟩ := hpublication.deltaDir k hk
    refine ⟨version, hversion, hcarries.number, hcarries.base, hcarries.numbered, fun name => ?_⟩
    refine ⟨hcarries.changed name, fun hname => ?_, hcarries.index name⟩
    obtain ⟨fname, hfname⟩ := PyDict.mem_keys_iff.mp hname
    refine ⟨fname, (hcarries.index name fname).mp hfname, fun other hother => ?_⟩
    have hsame := (hcarries.index name other).mpr hother
    rw [hfname] at hsame
    exact (Option.some.inj hsame).symm

/-! ### Two ranks that replicate a tensor -/

/-- `zlib.adler32` -/
def adler32 (bytes : List UInt8) : Nat :=
  let sums := bytes.foldl (fun s byte =>
    ((s.1 + byte.toNat) % 65521, (s.2 + (s.1 + byte.toNat) % 65521) % 65521)) (1, 0)
  sums.2 * 65536 + sums.1

/-- A zstd frame of one raw block, as a short input gets. -/
def rawFrame (bytes : List UInt8) : List UInt8 :=
  [0x28, 0xb5, 0x2f, 0xfd, 0x20, .ofNat bytes.length, .ofNat (8 * bytes.length + 1), 0, 0] ++ bytes

def readFrame (bytes : List UInt8) : Option (List UInt8) := some (bytes.drop 9)

def xorCodec : Codec where
  compress := rawFrame
  checksum bytes := String.ofList (List.leftpad 8 '0' (Nat.toDigits 16 (adler32 bytes)))
  outOfBounds _ := none
  deltaEncoding := "xor"

def embedCheckpoint : Checkpoint := PyDict.empty.set "embed" (⟨"U8", [2]⟩, [1, 2])

def embedStreams (bytes : List UInt8) : Fin 2 → List Emitted :=
  fun _ => [⟨"embed", ⟨"U8", [2]⟩, bytes⟩]

def embedBaseline : Snapshot := PyDict.empty.set "embed" [1, 2]

def embedPublished (mask bytes : List UInt8) : Published :=
  ⟨bytes, some (rawFrame mask, xorCodec.checksum bytes), 1⟩

/-- What each of the ranks makes of the tensor. -/
def embedPipeline (snapshot : Snapshot) (mask bytes : List UInt8) : Pipeline :=
  (beginEncode snapshot).collect "embed" (embedPublished mask bytes) []

theorem embed_pooled {snapshot : Snapshot} {mask bytes : List UInt8}
    (h : diffTensor xorCodec snapshot "embed" bytes = .ok (embedPublished mask bytes)) :
    Pooled xorCodec 64 [("embed", bytes)] (beginEncode snapshot)
      (embedPipeline snapshot mask bytes) := by
  apply Pooled.step (PoolStep.submit (Nat.zero_lt_succ _))
  apply Pooled.step (@PoolStep.work _ _ _ _ [] [] _ _ rfl)
  apply Pooled.step (@PoolStep.collect _ _ _ _ [] _ _ (embedPublished mask bytes)
    (by rw [← h]; rfl) (.inr rfl))
  exact Pooled.drained rfl

theorem embed_synced : ∃ p : Protocol 2,
    Synced xorCodec 64 embedCheckpoint [embedStreams [1, 3], embedStreams [2, 3]] p := by
  have hbegin : BeginSync embedCheckpoint (embedStreams [1, 3]) (Protocol.init 2 PyDict.empty)
      ⟨fun _ => embedBaseline, true, 1, PyDict.empty⟩ := by
    apply BeginSync.capture
    · rfl
    · exact fun rank => rfl
  obtain ⟨files, hfiles⟩ : ∃ files, writeDeltaFiles xorCodec 1 (List.ofFn fun _ : Fin 2 =>
      (embedPipeline embedBaseline [0, 1] [1, 3]).shard) = .ok files := ⟨_, rfl⟩
  obtain ⟨files', hfiles'⟩ : ∃ files, writeDeltaFiles xorCodec 2 (List.ofFn fun _ : Fin 2 =>
      (embedPipeline (embedBaseline.set "embed" [1, 3]) [3, 0] [2, 3]).shard) = .ok files :=
    ⟨_, rfl⟩
  have hsynced := (Synced.init PyDict.empty).sync
    (.finalize hbegin (fun rank => embed_pooled rfl) hfiles)
  exact ⟨_, hsynced.sync (.finalize (.captured rfl) (fun rank => embed_pooled rfl) hfiles')⟩

theorem delta_sync_refines_copy_embed :
    ∃ p : Protocol 2,
      Synced xorCodec 64 embedCheckpoint [embedStreams [1, 3], embedStreams [2, 3]] p ∧
      ∃ e e', (Engine.base embedCheckpoint).pull xorCodec readFrame p.deltaDir 1 = some e ∧
        e.weights.get? "embed" = some [1, 3] ∧
        e.pull xorCodec readFrame p.deltaDir 1 = some e' ∧
        e'.weights.get? "embed" = some [2, 3] := by
  obtain ⟨p, hp⟩ := embed_synced
  have hemits : ∀ k (hk : k < [embedStreams [1, 3], embedStreams [2, 3]].length),
      Emits (fun _ => ["embed"]) (fun _ => 2) [embedStreams [1, 3], embedStreams [2, 3]][k]
        (fun _ => if k = 0 then [1, 3] else [2, 3]) := by
    intro k hk
    have hcases : k = 0 ∨ k = 1 := by
      rw [List.length_cons, List.length_singleton] at hk
      omega
    obtain rfl | rfl := hcases <;> constructor
    · intro rank name
      rfl
    · intro rank tensor htensor
      rw [List.mem_singleton.mp htensor]
      rfl
    · intro rank name hname
      rfl
    · intro rank name
      rfl
    · intro rank tensor htensor
      rw [List.mem_singleton.mp htensor]
      rfl
    · intro rank name hname
      rfl
  have hround (bytes : List UInt8) : readFrame (xorCodec.compress bytes) = some bytes := rfl
  obtain ⟨hpull, hmore, -⟩ :=
    delta_sync_refines_copy hround (.inl rfl) (fun name => by decide) hemits hp
  obtain ⟨e, he, hcopy⟩ := hpull 1 (by decide)
  obtain ⟨e', he', hcopy'⟩ := hmore 1 1 (by decide) e he
  exact ⟨p, hp, e, e', he, hcopy "embed", he', hcopy' "embed"⟩

end Miles.DiskDelta
