import Miles.ForStd.Except
import Miles.ForStd.List
import Miles.Native.Rollout.ReplayEdits

/-!
# The sampling mask: inline and deferred

A sampling mask is a list of rows, one a response token: the support an engine sampled it
from, or the token alone where Miles inserted it.  The compressed mask a sample carries
inline and the segments of its store plan both stand for such a list.  Every inline edit is
the edit of the rows (`MaskRow`), and materializing segments that read the same rows gives
the same columns.

## Key results

- `RolloutSamplingMask.holds_concatenate`, `holds_prefixMask`: the compressed edits, on rows
- `InlineMask.holds_*`: each inline edit of the mask and its candidates, on rows
- `materializeMask_eq`: segments that read the rows materialize to the inline columns
-/

namespace Miles.Rollout

open PieceTable (numRows)

/-! ### Compressed masks as rows -/

namespace RolloutSamplingMask

/-- The mask is the compressed form of the rows. -/
structure Holds (mask : RolloutSamplingMask) (rows : List (List Int)) : Prop where
  ids : mask.ids = rows.flatten
  offsets : mask.offsets = Csr.offsets (rows.map List.length)

theorem ofArrays_eq_ok {ids : List Int} {offsets : List Nat} {mask : RolloutSamplingMask}
    (h : ofArrays ids offsets = .ok mask) : mask.ids = ids ∧ mask.offsets = offsets := by
  unfold ofArrays at h
  split at h
  · split at h
    · injection h with h
      subst h
      exact ⟨rfl, rfl⟩
    · cases h
  · cases h

variable {rows : List (List Int)} {k : Nat}

/-- The constructor accepts the compressed form of nonempty rows. -/
theorem ofArrays_of_nonempty (h : ∀ row ∈ rows, row ≠ []) :
    ∃ mask, ofArrays rows.flatten (Csr.offsets (rows.map List.length)) = .ok mask := by
  have hstart : (Csr.offsets (rows.map List.length)).head? = some 0 := by
    cases rows with
    | nil => rfl
    | cons row rows => rw [List.map_cons, Csr.offsets_cons]; rfl
  have hend : (Csr.offsets (rows.map List.length)).getLast? = some rows.flatten.length := by
    rw [Csr.getLast?_offsets, List.length_flatten]
  have hchain : (Csr.offsets (rows.map List.length)).IsChain (· < ·) := by
    rw [List.isChain_iff_pairwise, Csr.pairwise_offsets]
    intro n hn
    obtain ⟨row, hrow, rfl⟩ := List.mem_map.mp hn
    exact List.length_pos_of_ne_nil (h row hrow)
  exact ⟨_, by rw [ofArrays, dif_pos ⟨hstart, hend⟩, dif_pos hchain]⟩

/-- No row of a mask is empty. -/
theorem Holds.nonempty {mask : RolloutSamplingMask}
    (h : mask.Holds rows) : ∀ row ∈ rows, row ≠ [] := by
  have hchain := List.isChain_iff_pairwise.mp mask.increasing
  rw [h.offsets, Csr.pairwise_offsets] at hchain
  intro row hrow
  exact List.ne_nil_of_length_pos (hchain _ (List.mem_map_of_mem hrow))

theorem Holds.length_eq {mask : RolloutSamplingMask}
    (h : mask.Holds rows) : mask.length = rows.length := by
  rw [length, h.offsets, Csr.length_offsets, List.length_map]
  omega

/-- Every mask is the compressed form of some rows. -/
theorem exists_holds (mask : RolloutSamplingMask) : ∃ rows, mask.Holds rows := by
  obtain ⟨rows, hids, hoffsets⟩ := Csr.exists_rows mask.starts mask.ends mask.increasing
  exact ⟨rows, hids.symm, hoffsets.symm⟩

theorem holds_fromMaskList {mask : RolloutSamplingMask}
    (h : fromMaskList rows = .ok mask) : mask.Holds rows :=
  have heq := ofArrays_eq_ok h
  ⟨heq.1, heq.2⟩

/-- The offsets of joined masks are those of the joined rows. -/
theorem shiftedOffsets_eq {masks : List RolloutSamplingMask} {rowss : List (List (List Int))}
    (h : List.Forall₂ Holds masks rowss) (idCount : Nat) :
    shiftedOffsets idCount masks =
      (Csr.offsets (rowss.flatten.map List.length)).tail.map (idCount + ·) := by
  induction h generalizing idCount with
  | nil => rfl
  | @cons mask rows masks rowss hmask _ ih =>
    have hids : mask.ids.length = (rows.map List.length).sum := by
      rw [hmask.ids, List.length_flatten]
    obtain ⟨rest, hrest⟩ : ∃ rest, Csr.offsets (rows.map List.length) = 0 :: rest := by
      cases rows with
      | nil => exact ⟨[], rfl⟩
      | cons row rows => exact ⟨_, by rw [List.map_cons, Csr.offsets_cons]⟩
    rw [shiftedOffsets, ih, hids, hmask.offsets, List.flatten_cons, List.map_append,
      Csr.offsets_append, hrest, List.cons_append, List.tail_cons, List.tail_cons,
      List.map_append, List.map_map]
    congr 1
    apply List.map_congr_left
    intro i _
    simp only [Function.comp_apply]
    omega

/-- The arrays of joined masks are those of the joined rows. -/
theorem joined_arrays {masks : List RolloutSamplingMask} {rowss : List (List (List Int))}
    (h : List.Forall₂ Holds masks rowss) :
    masks.flatMap (·.ids) = rowss.flatten.flatten ∧
      0 :: shiftedOffsets 0 masks = Csr.offsets (rowss.flatten.map List.length) := by
  constructor
  · induction h with
    | nil => rfl
    | cons hmask _ ih =>
      rw [List.flatMap_cons, ih, hmask.ids, List.flatten_cons, List.flatten_append]
  · have hzero : (fun i : Nat => 0 + i) = id := by
      funext i
      simp
    rw [shiftedOffsets_eq h 0, hzero, List.map_id]
    cases hrows : rowss.flatten.map List.length with
    | nil => rfl
    | cons n ns => rw [Csr.offsets_cons]; rfl

/-- Joining masks joins their rows. -/
theorem holds_concatenate {masks : List RolloutSamplingMask} {rowss : List (List (List Int))}
    (h : List.Forall₂ Holds masks rowss) {mask : RolloutSamplingMask}
    (hok : concatenate masks = .ok mask) : mask.Holds rowss.flatten := by
  obtain ⟨hids, hoffsets⟩ := joined_arrays h
  unfold concatenate at hok
  split at hok
  · cases h
    have heq := ofArrays_eq_ok hok
    exact ⟨heq.1, heq.2⟩
  · cases h with
    | cons hmask hrest =>
      cases hrest
      injection hok with hok
      subst hok
      simpa using hmask
  · have heq := ofArrays_eq_ok hok
    exact ⟨heq.1.trans hids, heq.2.trans hoffsets⟩

theorem exists_forall₂_holds (masks : List RolloutSamplingMask) :
    ∃ rowss, List.Forall₂ Holds masks rowss := by
  induction masks with
  | nil => exact ⟨[], .nil⟩
  | cons mask masks ih =>
    obtain ⟨rows, hrows⟩ := mask.exists_holds
    obtain ⟨rowss, hrowss⟩ := ih
    exact ⟨rows :: rowss, .cons hrows hrowss⟩

/-- Masks can always be joined. -/
theorem concatenate_succeeds (masks : List RolloutSamplingMask) :
    ∃ mask, concatenate masks = .ok mask := by
  obtain ⟨rowss, hrowss⟩ := exists_forall₂_holds masks
  have hnonempty : ∀ row ∈ rowss.flatten, row ≠ [] := by
    induction hrowss with
    | nil => simp
    | cons hmask _ ih =>
      intro row hrow
      rcases List.mem_append.mp hrow with hrow | hrow
      · exact hmask.nonempty row hrow
      · exact ih row hrow
  obtain ⟨hids, hoffsets⟩ := joined_arrays hrowss
  unfold concatenate
  split
  · exact @ofArrays_of_nonempty [] (by simp)
  · exact ⟨_, rfl⟩
  · rw [hids, hoffsets]
    exact ofArrays_of_nonempty hnonempty

/-- A joined mask has a row for each row of its parts. -/
theorem length_concatenate {masks : List RolloutSamplingMask} {mask : RolloutSamplingMask}
    (h : concatenate masks = .ok mask) : mask.length = (masks.map (·.length)).sum := by
  obtain ⟨rowss, hrowss⟩ := exists_forall₂_holds masks
  have hlengths : masks.map (·.length) = rowss.map List.length := by
    clear h
    induction hrowss with
    | nil => rfl
    | cons hmask _ ih => rw [List.map_cons, List.map_cons, hmask.length_eq, ih]
  rw [(holds_concatenate hrowss h).length_eq, hlengths, List.length_flatten]

/-- The first rows of a mask. -/
theorem holds_prefixMask {mask new : RolloutSamplingMask} {n : Nat}
    (h : mask.Holds rows) (hok : mask.prefixMask n = .ok new) : new.Holds (rows.take n) := by
  unfold prefixMask at hok
  rw [h.length_eq] at hok
  split at hok
  · cases hok
  · rename_i hle
    split at hok
    · rename_i heq
      injection hok with hok
      subst hok
      rw [heq, List.take_length]
      exact h
    · have heq := ofArrays_eq_ok hok
      have hn : n ≤ (rows.map List.length).length := by
        rw [List.length_map]
        omega
      have hcount : (Csr.offsets (rows.map List.length)).getD n 0 =
          ((rows.map List.length).take n).sum := by
        rw [List.getD_eq_getElem?_getD, Csr.getElem?_offsets hn]
        rfl
      constructor
      · have hslice := Csr.slice_flatten rows 0 n
        simp only [List.take_zero, List.sum_nil, List.drop_zero] at hslice
        rw [heq.1, h.ids, h.offsets, hcount, hslice]
      · rw [heq.2, h.offsets, Csr.take_offsets, List.map_take]

end RolloutSamplingMask

/-! ### The rows of a mask -/

/-- One response token with what it was sampled from: its support and the log-probs of it,
    or nothing for a token Miles inserted. -/
structure MaskRow where
  token : Int
  sampled : Option (List Int × List Float32Bits)
  deriving DecidableEq

namespace MaskRow

/-- The support: an inserted token is its own. -/
def support (e : MaskRow) : List Int :=
  match e.sampled with
  | some sampled => sampled.1
  | none => [e.token]

/-- The candidates of a row: the support, and nothing for an inserted token. -/
def candidates (k : Nat) (e : MaskRow) : List Int :=
  match e.sampled with
  | some sampled => Csr.pad (-1) k sampled.1
  | none => List.replicate k (-1)

/-- The log-probs of a row's candidates. -/
def candidateLogprobs (k : Nat) (e : MaskRow) : List Float32Bits :=
  match e.sampled with
  | some sampled => Csr.pad negInf k sampled.2
  | none => List.replicate k negInf

/-- The row of an inserted token. -/
def forced (token : Int) : MaskRow := ⟨token, none⟩

/-- What the inline checks say about a row: the token is in its support, and in support mode
    it is there once, and the support fits the candidate slots, a log-prob per entry. -/
structure Valid (k : Nat) (e : MaskRow) : Prop where
  mem : e.token ∈ e.support
  once : 0 < k → e.support.count e.token = 1
  aligned : 0 < k → ∀ s, e.sampled = some s → s.2.length = s.1.length ∧ s.1.length ≤ k

theorem valid_forced (k : Nat) (token : Int) : (forced token).Valid k where
  mem := by simp [forced, support]
  once := fun _ => by simp [forced, support]
  aligned := fun _ s hs => by simp [forced] at hs

end MaskRow

namespace InlineMask

/-- The inline mask and candidates are those of the rows. -/
structure Holds (k : Nat) (m : InlineMask) (entries : List MaskRow) : Prop where
  mask : m.mask.Holds (entries.map MaskRow.support)
  topk : m.topk = if 0 < k then
    some (entries.map (MaskRow.candidates k), entries.map (MaskRow.candidateLogprobs k)) else none
  valid : ∀ e ∈ entries, e.Valid k

/-- Joined candidates are the candidates of joined rows. -/
theorem joinTopk_eq (k : Nat) (es fs : List MaskRow) :
    joinTopk (if 0 < k then some (es.map (MaskRow.candidates k),
        es.map (MaskRow.candidateLogprobs k)) else none)
      (if 0 < k then some (fs.map (MaskRow.candidates k),
        fs.map (MaskRow.candidateLogprobs k)) else none) =
      if 0 < k then some ((es ++ fs).map (MaskRow.candidates k),
        (es ++ fs).map (MaskRow.candidateLogprobs k)) else none := by
  split <;> simp [joinTopk]

/-- The padding of inserted tokens is their candidates. -/
theorem padding_eq (k : Nat) (tokenIds : List Int) :
    padding k tokenIds.length = ((tokenIds.map MaskRow.forced).map (MaskRow.candidates k),
      (tokenIds.map MaskRow.forced).map (MaskRow.candidateLogprobs k)) := by
  simp only [padding, List.map_map, Prod.mk.injEq]
  constructor <;>
  · symm
    rw [List.eq_replicate_iff]
    constructor
    · simp
    · intro row hrow
      obtain ⟨token, _, rfl⟩ := List.mem_map.mp hrow
      rfl

theorem Holds.append {a b : InlineMask} {es fs : List MaskRow} (ha : a.Holds k es)
    (hb : b.Holds k fs) {n : Nat} {c : InlineMask} (hok : InlineMask.append n a b = .ok c) :
    c.Holds k (es ++ fs) := by
  simp only [InlineMask.append, Except.bind_eq_ok, Except.mapError_eq_ok] at hok
  obtain ⟨mask, hmask, hc⟩ := hok
  cases hc
  unfold appendSamplingMask at hmask
  split at hmask
  · cases hmask
  · have hjoin := RolloutSamplingMask.holds_concatenate
      (.cons ha.mask (.cons hb.mask .nil)) hmask
    constructor
    · simpa using hjoin
    · show joinTopk a.topk b.topk = _
      rw [ha.topk, hb.topk, joinTopk_eq]
    · intro e he
      rcases List.mem_append.mp he with he | he
      · exact ha.valid e he
      · exact hb.valid e he

/-- The mask of inserted tokens. -/
theorem holds_forced {tokenIds : List Int} {mask : RolloutSamplingMask}
    (hok : forcedSamplingMask tokenIds = .ok mask) :
    mask.Holds ((tokenIds.map MaskRow.forced).map MaskRow.support) ∧
      ∀ e ∈ tokenIds.map MaskRow.forced, e.Valid k := by
  constructor
  · have h := RolloutSamplingMask.holds_fromMaskList hok
    rw [List.map_map]
    exact h
  · intro e he
    obtain ⟨token, _, rfl⟩ := List.mem_map.mp he
    exact MaskRow.valid_forced k token

theorem Holds.insert {k n : Nat} {a c : InlineMask} {es : List MaskRow} (ha : a.Holds k es)
    {tokenIds : List Int} (hok : InlineMask.insert n k a tokenIds = .ok c) :
    c.Holds k (es ++ tokenIds.map MaskRow.forced) := by
  simp only [InlineMask.insert, Except.bind_eq_ok, Except.mapError_eq_ok] at hok
  obtain ⟨forced, hforced, mask, hmask, hc⟩ := hok
  cases hc
  obtain ⟨hrows, hvalid⟩ := holds_forced (k := k) hforced
  unfold appendSamplingMask at hmask
  split at hmask
  · cases hmask
  · have hjoin := RolloutSamplingMask.holds_concatenate (.cons ha.mask (.cons hrows .nil)) hmask
    constructor
    · simpa using hjoin
    · show joinTopk a.topk (some (padding k tokenIds.length)) = _
      rw [ha.topk, padding_eq, ← joinTopk_eq]
      split <;> rfl
    · intro e he
      rcases List.mem_append.mp he with he | he
      · exact ha.valid e he
      · exact hvalid e he

theorem Holds.merge {a b c : InlineMask} {es fs : List MaskRow} (ha : a.Holds k es)
    (hb : b.Holds k fs) {observation : List Int} (hok : InlineMask.merge k a observation b = .ok c) :
    c.Holds k (es ++ observation.map MaskRow.forced ++ fs) := by
  simp only [InlineMask.merge, Except.bind_eq_ok, Except.mapError_eq_ok] at hok
  obtain ⟨forced, hforced, mask, hmask, hc⟩ := hok
  cases hc
  obtain ⟨hrows, hvalid⟩ := holds_forced (k := k) hforced
  have hjoin := RolloutSamplingMask.holds_concatenate
    (.cons ha.mask (.cons hrows (.cons hb.mask .nil))) hmask
  constructor
  · simpa using hjoin
  · show joinTopk (joinTopk a.topk (some (padding k observation.length))) b.topk = _
    rw [ha.topk, hb.topk, padding_eq, ← joinTopk_eq, ← joinTopk_eq]
    split <;> rfl
  · intro e he
    rcases List.mem_append.mp he with he | he
    · rcases List.mem_append.mp he with he | he
      · exact ha.valid e he
      · exact hvalid e he
    · exact hb.valid e he

theorem Holds.strip {k n : Nat} {a c : InlineMask} {es : List MaskRow} (ha : a.Holds k es)
    (hok : InlineMask.strip es.length a n = .ok c) : c.Holds k (es.take (es.length - n)) := by
  simp only [InlineMask.strip, Except.bind_eq_ok, Except.mapError_eq_ok] at hok
  obtain ⟨mask, hmask, hc⟩ := hok
  cases hc
  have hrows := RolloutSamplingMask.holds_prefixMask ha.mask hmask
  constructor
  · rw [List.map_take]
    exact hrows
  · rw [ha.topk]
    split
    · simp [List.map_take]
    · rfl
  · intro e he
    exact ha.valid e (List.mem_of_mem_take he)

end InlineMask

/-! ### Stored masks -/

/-- The object holds the compressed form of the supports and, in support mode, of their
    log-probs. -/
structure Stash.HoldsMask (k : Nat) (stash : Stash) (supports : List (List Int))
    (logprobs : List (List Float32Bits)) : Prop where
  lengths : stash.maskLengths = some (supports.map List.length)
  tokenIds : stash.maskTokenIds = some supports.flatten
  supportLogprobs : 0 < k → stash.maskSupportLogprobs = some logprobs.flatten
  aligned : 0 < k → logprobs.map List.length = supports.map List.length

/-- What the rows of a mask object were sampled from. -/
def Stash.maskRows (k : Nat) (stash : Stash) : List (List Int × List Float32Bits) :=
  let lengths := stash.maskLengths.getD []
  let supports := lengths.splitLengths (stash.maskTokenIds.getD [])
  supports.zip (if 0 < k then lengths.splitLengths (stash.maskSupportLogprobs.getD [])
    else supports.map fun _ => [])

/-- The rows of supports with their log-probs. -/
def supportRows (k : Nat) (supports : List (List Int)) (logprobs : List (List Float32Bits)) :
    List (List Int × List Float32Bits) :=
  supports.zip (if 0 < k then logprobs else supports.map fun _ => [])

theorem Stash.HoldsMask.maskRows_eq {stash : Stash} {supports : List (List Int)}
    {logprobs : List (List Float32Bits)} (h : stash.HoldsMask k supports logprobs) :
    stash.maskRows k = supportRows k supports logprobs := by
  have hsupports : (supports.map List.length).splitLengths supports.flatten = supports :=
    List.splitLengths_flatten_of_lengths rfl
  simp only [Stash.maskRows, supportRows, h.lengths, h.tokenIds, Option.getD_some, hsupports]
  split
  · rename_i hk
    rw [h.supportLogprobs hk, Option.getD_some,
      List.splitLengths_flatten_of_lengths (h.aligned hk).symm]
  · rfl

theorem map_fst_supportRows {supports : List (List Int)}
    {logprobs : List (List Float32Bits)}
    (h : 0 < k → logprobs.map List.length = supports.map List.length) :
    (supportRows k supports logprobs).map Prod.fst = supports := by
  rw [supportRows]
  split
  · rename_i hk
    have hlen := congrArg List.length (h hk)
    simp only [List.length_map] at hlen
    exact List.map_fst_zip (by omega)
  · exact List.map_fst_zip (by simp)

theorem map_snd_supportRows {supports : List (List Int)}
    {logprobs : List (List Float32Bits)} (hk : 0 < k)
    (h : logprobs.map List.length = supports.map List.length) :
    (supportRows k supports logprobs).map Prod.snd = logprobs := by
  rw [supportRows, if_pos hk]
  have hlen := congrArg List.length h
  simp only [List.length_map] at hlen
  exact List.map_snd_zip (by omega)

/-- What a row of the mask's segments was sampled from: nothing for a row of no object. -/
def maskSource (objects : Objects) (k : Nat) :
    Option StoreRef → Nat → Option (Option (List Int × List Float32Bits))
  | none, _ => some none
  | some ref, i => (((objects ref.key).map (·.maskRows k)).getD [])[i]?.map some

/-- The segments read the rows, from objects that hold masks. -/
structure MaskSegments (objects : Objects) (k : Nat) (segs : Segments)
    (entries : List MaskRow) : Prop where
  solid : PieceTable.Solid segs
  reads : PieceTable.read (maskSource objects k) segs = (entries.map MaskRow.sampled).map some
  stored : ∀ seg ∈ segs, ∀ ref, seg.source = some ref →
    ∃ stash supports logprobs, objects ref.key = some stash ∧ stash.HoldsMask k supports logprobs

namespace MaskSegments

variable {objects : Objects} {k : Nat} {segs new : Segments} {es fs : List MaskRow}

theorem numRows_eq (h : MaskSegments objects k segs es) : numRows segs = es.length := by
  have := congrArg List.length h.reads
  rw [PieceTable.length_read] at this
  simpa using this

theorem append (h : MaskSegments objects k segs es) (hnew : MaskSegments objects k new fs) :
    MaskSegments objects k (segs ++ new) (es ++ fs) where
  solid := h.solid.append hnew.solid
  reads := by rw [PieceTable.read_append, h.reads, hnew.reads, List.map_append, List.map_append]
  stored := by
    intro seg hseg
    rcases List.mem_append.mp hseg with hseg | hseg
    · exact h.stored seg hseg
    · exact hnew.stored seg hseg

/-- The first rows read by a prefix of the segments. -/
theorem prefixRows (h : MaskSegments objects k segs es) (n : Nat) :
    MaskSegments objects k (Segments.prefixRows segs ((numRows segs : Int) - n))
      (es.take (es.length - n)) where
  solid := h.solid.take _
  reads := by
    have hn : ((numRows segs : Int) - n).toNat = es.length - n := by
      rw [h.numRows_eq]
      omega
    rw [Segments.prefixRows, PieceTable.read_take, h.reads, hn, List.map_take, List.map_take]
  stored := by
    intro seg hseg ref href
    obtain ⟨old, hold, hsource⟩ := PieceTable.source_of_mem_take hseg
    exact h.stored old hold ref (hsource ▸ href)

theorem empty : MaskSegments objects k [] [] where
  solid := fun seg hseg => absurd hseg (by simp)
  reads := rfl
  stored := fun seg hseg => absurd hseg (by simp)

/-- A forced segment reads inserted tokens. -/
theorem forced (tokenIds : List Int) (h : tokenIds ≠ []) :
    MaskSegments objects k [⟨none, 0, tokenIds.length⟩] (tokenIds.map MaskRow.forced) where
  solid := by
    intro seg hseg
    rw [List.mem_singleton.mp hseg]
    exact List.length_pos_of_ne_nil h
  reads := by
    have hrow : ∀ i ∈ List.range' 0 tokenIds.length,
        maskSource objects k none i = some none := fun _ _ => rfl
    simp only [PieceTable.read, PieceTable.rows_cons, PieceTable.rows_nil, List.append_nil,
      Piece.rows, Piece.length, Nat.sub_zero, List.map_map]
    apply List.ext_getElem
    · simp
    · intro i h₁ h₂
      simp [maskSource, MaskRow.forced]
  stored := by
    intro seg hseg ref href
    rw [List.mem_singleton.mp hseg] at href
    cases href

theorem cons_inv {seg : Seg} (h : MaskSegments objects k (seg :: segs) es) :
    MaskSegments objects k [seg] (es.take seg.length) ∧
      MaskSegments objects k segs (es.drop seg.length) := by
  have hreads := PieceTable.read_cons_eq h.reads
  constructor
  · constructor
    · intro s hs
      exact h.solid s (by rw [List.mem_singleton.mp hs]; simp)
    · rw [hreads.1]
      simp only [List.map_take]
    · intro s hs
      exact h.stored s (by rw [List.mem_singleton.mp hs]; simp)
  · constructor
    · exact fun s hs => h.solid s (by simp [hs])
    · rw [hreads.2]
      simp only [List.map_drop]
    · exact fun s hs => h.stored s (by simp [hs])

end MaskSegments

/-! ### Materializing the mask -/

/-- The entries of a row's log-probs in the joined array: a zero for an inserted token. -/
def MaskRow.logprobs (e : MaskRow) : List Float32Bits :=
  match e.sampled with
  | some sampled => sampled.2
  | none => [0]

/-- The arrays of some rows. -/
structure MaskParts.Of (k : Nat) (parts : MaskParts) (entries : List MaskRow) : Prop where
  lengths : parts.lengths = entries.map fun e => e.support.length
  ids : parts.ids = (entries.map MaskRow.support).flatten
  logprobs : 0 < k → parts.logprobs = (entries.map MaskRow.logprobs).flatten
  forced : parts.forced = entries.map fun e => e.sampled.isNone

/-- What one segment adds are the arrays of the rows it reads. -/
theorem maskPart_eq {objects : Objects} {seg : Seg} {es : List MaskRow}
    (h : MaskSegments objects k [seg] es) {responseTokens : List Int} {position : Nat}
    (htokens : (responseTokens.drop position).take es.length = es.map MaskRow.token) :
    ∃ parts, maskPart objects responseTokens (decide (k > 0)) position seg = .ok parts ∧
      parts.Of k es := by
  have hlen : seg.length = es.length := by
    have := h.numRows_eq
    simpa [numRows] using this
  unfold maskPart
  cases hsource : seg.source with
  | none =>
    -- every row is an inserted token
    have hnone : ∀ e ∈ es, e.sampled = none := by
      intro e he
      have hreads := h.reads
      simp only [PieceTable.read, PieceTable.rows_cons, PieceTable.rows_nil, List.append_nil,
        Piece.rows, hsource] at hreads
      have hmem : some e.sampled ∈ (es.map MaskRow.sampled).map some :=
        List.mem_map_of_mem (List.mem_map_of_mem he)
      rw [← hreads] at hmem
      obtain ⟨row, hrow, he⟩ := List.mem_map.mp hmem
      obtain ⟨i, _, rfl⟩ := List.mem_map.mp hrow
      simpa [maskSource] using he.symm
    refine ⟨_, rfl, ?_, ?_, ?_, ?_⟩
    · symm
      rw [hlen, List.eq_replicate_iff]
      refine ⟨by simp, fun n hn => ?_⟩
      obtain ⟨e, he, rfl⟩ := List.mem_map.mp hn
      simp [MaskRow.support, hnone e he]
    · have hsupport : es.map MaskRow.support = (es.map MaskRow.token).map fun t => [t] := by
        rw [List.map_map]
        apply List.map_congr_left
        intro e he
        simp [MaskRow.support, hnone e he]
      show (responseTokens.drop position).take seg.length = _
      rw [hlen, htokens, hsupport]
      rw [← List.flatMap_def]
      simp
    · intro _
      have hlogprobs : es.map MaskRow.logprobs = es.map fun _ => [0] := by
        apply List.map_congr_left
        intro e he
        simp [MaskRow.logprobs, hnone e he]
      show List.replicate seg.length (0 : Float32Bits) = _
      rw [hlen, hlogprobs]
      symm
      rw [List.eq_replicate_iff]
      refine ⟨by simp, fun x hx => ?_⟩
      obtain ⟨row, hrow, hx⟩ := List.mem_flatten.mp hx
      obtain ⟨e, _, rfl⟩ := List.mem_map.mp hrow
      exact List.mem_singleton.mp hx
    · symm
      rw [hlen, List.eq_replicate_iff]
      refine ⟨by simp, fun b hb => ?_⟩
      obtain ⟨e, he, rfl⟩ := List.mem_map.mp hb
      simp [hnone e he]
  | some ref =>
    obtain ⟨stash, supports, logprobs, hobject, hmask⟩ := h.stored seg (by simp) ref hsource
    have hrows := hmask.maskRows_eq
    -- the rows it reads are a slice of the object's rows
    have hslice : ((supportRows k supports logprobs).map some |>.take seg.stop).drop seg.start =
        es.map MaskRow.sampled := by
      have hget : ∀ i, maskSource objects k seg.source i =
          ((supportRows k supports logprobs).map some)[i]? := by
        intro i
        simp [hsource, maskSource, hobject, hrows]
      exact PieceTable.slice_eq_of_read hget h.reads
    have hsampled : ∀ e ∈ es, ∃ s, e.sampled = some s := by
      intro e he
      have hmem : e.sampled ∈ es.map MaskRow.sampled := List.mem_map_of_mem he
      rw [← hslice] at hmem
      obtain ⟨s, _, hs⟩ := List.mem_map.mp (List.mem_of_mem_take (List.mem_of_mem_drop hmem))
      exact ⟨s, hs.symm⟩
    have hsupports : (supports.take seg.stop).drop seg.start = es.map MaskRow.support := by
      have hfst := congrArg (List.map fun o : Option (List Int × List Float32Bits) =>
        (o.map Prod.fst).getD []) hslice
      rw [List.map_drop, List.map_take, List.map_map] at hfst
      have hid : ((fun o : Option (List Int × List Float32Bits) => (o.map Prod.fst).getD []) ∘
          some) = Prod.fst := rfl
      rw [hid, map_fst_supportRows hmask.aligned, List.map_map] at hfst
      rw [hfst]
      apply List.map_congr_left
      intro e he
      obtain ⟨s, hs⟩ := hsampled e he
      simp [MaskRow.support, hs]
    have hstop : seg.stop ≤ supports.length := by
      have hsolid : seg.start < seg.stop := h.solid seg (by simp)
      have hcount := congrArg List.length hsupports
      simp only [List.length_drop, List.length_take, List.length_map] at hcount
      have hseg : seg.length = seg.stop - seg.start := rfl
      omega
    have hstart : seg.start ≤ supports.length := by
      have hsolid : seg.start < seg.stop := h.solid seg (by simp)
      omega
    have hoffset : ∀ i ≤ supports.length, offsetAt (Csr.offsets (supports.map List.length)) i =
        .ok ((supports.map List.length).take i).sum := by
      intro i hi
      rw [offsetAt, Csr.getElem?_offsets (by rw [List.length_map]; exact hi)]
    have hids : (supports.flatten.take ((supports.map List.length).take seg.stop).sum).drop
        ((supports.map List.length).take seg.start).sum = (es.map MaskRow.support).flatten := by
      rw [Csr.slice_flatten, hsupports]
    have hlengths : ((supports.map List.length).take seg.stop).drop seg.start =
        es.map fun e => e.support.length := by
      rw [← List.map_take, ← List.map_drop, hsupports, List.map_map]
      rfl
    have hforced : List.replicate seg.length false = es.map fun e => e.sampled.isNone := by
      symm
      rw [hlen, List.eq_replicate_iff]
      refine ⟨by simp, fun b hb => ?_⟩
      obtain ⟨e, he, rfl⟩ := List.mem_map.mp hb
      obtain ⟨s, hs⟩ := hsampled e he
      simp [hs]
    by_cases hk : 0 < k
    · have hlogprobs : (logprobs.take seg.stop).drop seg.start = es.map MaskRow.logprobs := by
        have hsnd := congrArg (List.map fun o : Option (List Int × List Float32Bits) =>
          (o.map Prod.snd).getD []) hslice
        rw [List.map_drop, List.map_take, List.map_map] at hsnd
        have hid : ((fun o : Option (List Int × List Float32Bits) =>
            (o.map Prod.snd).getD []) ∘ some) = Prod.snd := rfl
        rw [hid, map_snd_supportRows hk (hmask.aligned hk), List.map_map] at hsnd
        rw [hsnd]
        apply List.map_congr_left
        intro e he
        obtain ⟨s, hs⟩ := hsampled e he
        simp [MaskRow.logprobs, hs]
      refine ⟨⟨_, _, (es.map MaskRow.logprobs).flatten, _⟩, ?_, hlengths, hids, fun _ => rfl,
        hforced⟩
      simp only [fetchMask, hobject, Option.bind_some, Except.ok_bind, pure_bind, hmask.lengths, hmask.tokenIds,
        hmask.supportLogprobs hk, hoffset _ hstop, hoffset _ hstart, hk, decide_true, if_true,
        ← hlogprobs]
      rw [← Csr.slice_flatten logprobs, hmask.aligned hk]
      rfl
    · refine ⟨⟨_, _, [], _⟩, ?_, hlengths, hids, fun h => absurd h hk, hforced⟩
      simp only [fetchMask, hobject, Option.bind_some, Except.ok_bind, pure_bind, hmask.lengths, hmask.tokenIds,
        hoffset _ hstop, hoffset _ hstart, gt_iff_lt, hk, decide_false, Bool.false_eq_true,
        if_false]
      rfl

/-- The loop over the segments gives the arrays of the rows they read. -/
theorem maskParts_eq {objects : Objects} {segs : Segments} {es : List MaskRow}
    (h : MaskSegments objects k segs es) {responseTokens : List Int} {position : Nat}
    (htokens : (responseTokens.drop position).take es.length = es.map MaskRow.token) :
    ∃ parts, maskParts objects responseTokens (decide (k > 0)) position segs = .ok parts ∧
      parts.Of k es := by
  induction segs generalizing es position with
  | nil =>
    have hnil : es = [] := by
      have := h.numRows_eq
      exact List.length_eq_zero_iff.mp this.symm
    subst hnil
    exact ⟨_, rfl, rfl, rfl, fun _ => rfl, rfl⟩
  | cons seg segs ih =>
    obtain ⟨hseg, hsegs⟩ := h.cons_inv
    have hlen : seg.length ≤ es.length := by
      have := h.numRows_eq
      have hcons : numRows (seg :: segs) = seg.length + numRows segs := rfl
      omega
    have hfirst : (responseTokens.drop position).take (es.take seg.length).length =
        (es.take seg.length).map MaskRow.token := by
      rw [List.map_take, ← htokens, List.take_take, List.length_take, Nat.min_eq_left hlen]
    have hrest : (responseTokens.drop (position + seg.length)).take (es.drop seg.length).length =
        (es.drop seg.length).map MaskRow.token := by
      rw [List.map_drop, ← htokens, List.drop_take, List.drop_drop, List.length_drop]
    obtain ⟨part, hpart, hof⟩ := maskPart_eq hseg hfirst
    obtain ⟨rest, hparts, hofs⟩ := ih hsegs hrest
    refine ⟨_, by rw [maskParts, hpart]; simp only [Except.ok_bind, hparts]; rfl, ?_, ?_, ?_, ?_⟩
    · show part.lengths ++ rest.lengths = _
      rw [hof.lengths, hofs.lengths, ← List.map_append, List.take_append_drop]
    · show part.ids ++ rest.ids = _
      rw [hof.ids, hofs.ids, ← List.flatten_append, ← List.map_append, List.take_append_drop]
    · intro hk
      show part.logprobs ++ rest.logprobs = _
      rw [hof.logprobs hk, hofs.logprobs hk, ← List.flatten_append, ← List.map_append,
        List.take_append_drop]
    · show part.forced ++ rest.forced = _
      rw [hof.forced, hofs.forced, ← List.map_append, List.take_append_drop]

theorem map_length_support (es : List MaskRow) :
    (es.map MaskRow.support).map List.length = es.map fun e => e.support.length := by
  rw [List.map_map]
  rfl

/-- The entries of a row that are its sampled token. -/
theorem supportHits_eq (es : List MaskRow) {r : Nat} (hr : r < es.length) :
    supportHits (es.map MaskRow.support).flatten (Csr.offsets (es.map fun e => e.support.length))
      (es.map MaskRow.token) r = es[r].support.count es[r].token := by
  have hrow : (es.map MaskRow.support)[r]? = some es[r].support := by
    rw [List.getElem?_map, List.getElem?_eq_getElem hr]
    rfl
  have htoken : (es.map MaskRow.token)[r]? = some es[r].token := by
    rw [List.getElem?_map, List.getElem?_eq_getElem hr]
    rfl
  have hcount := Csr.countP_entries (es.map MaskRow.support) (fun id => es[r].token == id) hrow
  rw [map_length_support] at hcount
  simp only [supportHits, htoken, Option.some_beq_some]
  rw [hcount, List.count]
  congr 1
  funext id
  exact Bool.beq_comm

/-- Rows that passed the inline checks pass the trainer's. -/
theorem checkSupport_of_valid {es : List MaskRow} (hvalid : ∀ e ∈ es, e.Valid k) :
    checkSupport (es.map MaskRow.support).flatten
      (Csr.offsets (es.map fun e => e.support.length)) (es.map MaskRow.token) (decide (k > 0)) =
      .ok () := by
  have hempty : (es.map fun e => e.support.length).findIdx? (· = 0) = none := by
    rw [List.findIdx?_eq_none_iff]
    intro n hn
    obtain ⟨e, he, rfl⟩ := List.mem_map.mp hn
    have hpos : 0 < e.support.length := List.length_pos_of_mem (hvalid e he).mem
    simp only [decide_eq_false_iff_not]
    omega
  have hrows : (Csr.entryRow (es.map fun e => e.support.length)).any
      ((es.map MaskRow.token).length ≤ ·) = false := by
    rw [List.any_eq_false]
    intro r hr
    have hlt := Csr.mem_entryRow hr
    simp only [List.length_map] at hlt
    simp only [List.length_map, decide_eq_true_eq]
    omega
  have hlength : (es.map MaskRow.support).flatten.length =
      (Csr.entryRow (es.map fun e => e.support.length)).length := by
    rw [List.length_flatten, Csr.length_entryRow, map_length_support]
  have hhits : ∀ n ∈ (List.range (es.map fun e => e.support.length).length).map
      (supportHits (es.map MaskRow.support).flatten
        (Csr.offsets (es.map fun e => e.support.length)) (es.map MaskRow.token)),
      0 < n ∧ (0 < k → n = 1) := by
    intro n hn
    obtain ⟨r, hr, rfl⟩ := List.mem_map.mp hn
    have hlt : r < es.length := by simpa using hr
    have he := hvalid _ (List.getElem_mem hlt)
    rw [supportHits_eq es hlt]
    exact ⟨List.count_pos_iff.mpr he.mem, he.once⟩
  simp only [checkSupport, Csr.diff_offsets, hempty, hrows, hlength, ne_eq, not_true_eq_false,
    if_false, Bool.false_eq_true]
  by_cases hk : 0 < k
  · have hbad : ((List.range (es.map fun e => e.support.length).length).map
        (supportHits (es.map MaskRow.support).flatten
          (Csr.offsets (es.map fun e => e.support.length)) (es.map MaskRow.token))).findIdx?
        (· ≠ 1) = none := by
      rw [List.findIdx?_eq_none_iff]
      intro n hn
      simp [(hhits n hn).2 hk]
    simp only [gt_iff_lt, hk, decide_true, if_true]
    rw [hbad]
    rfl
  · have hbad : ((List.range (es.map fun e => e.support.length).length).map
        (supportHits (es.map MaskRow.support).flatten
          (Csr.offsets (es.map fun e => e.support.length)) (es.map MaskRow.token))).findIdx?
        (· = 0) = none := by
      rw [List.findIdx?_eq_none_iff]
      intro n hn
      have := (hhits n hn).1
      simp only [decide_eq_false_iff_not]
      omega
    simp only [gt_iff_lt, hk, decide_false, Bool.false_eq_true, if_false]
    rw [hbad]
    rfl

/-- The candidates scattered from the joined arrays are those of the rows. -/
theorem supportTopk_of_valid (hk : 0 < k) {es : List MaskRow}
    (hvalid : ∀ e ∈ es, e.Valid k) :
    supportTopk (es.map MaskRow.support).flatten
      (Csr.offsets (es.map fun e => e.support.length)) (es.map MaskRow.logprobs).flatten
      (es.map fun e => e.sampled.isNone) k =
      .ok (es.map (MaskRow.candidates k), es.map (MaskRow.candidateLogprobs k)) := by
  have hfits : ∀ e ∈ es, e.sampled.isNone = false → e.support.length ≤ k := by
    intro e he hsome
    cases hs : e.sampled with
    | none => simp [hs] at hsome
    | some s =>
      have halign := (hvalid e he).aligned hk s hs
      simp only [MaskRow.support, hs]
      exact halign.2
  have hlong : (List.zipWith (fun length forced => decide (length > k) && !forced)
      (es.map fun e => e.support.length) (es.map fun e => e.sampled.isNone)).findIdx?
      (· = true) = none := by
    rw [List.findIdx?_eq_none_iff]
    intro b hb
    rw [List.zipWith_map, List.zipWith_self] at hb
    obtain ⟨e, he, rfl⟩ := List.mem_map.mp hb
    cases hforced : e.sampled.isNone with
    | true => simp
    | false =>
      have := hfits e he hforced
      have hle : ¬ e.support.length > k := by omega
      simp [hle]
  -- a log-prob array has the row lengths of the supports
  have hlogprobs : (es.map MaskRow.logprobs).map List.length = es.map fun e => e.support.length := by
    rw [List.map_map]
    apply List.map_congr_left
    intro e he
    show e.logprobs.length = e.support.length
    cases hs : e.sampled with
    | none => simp [MaskRow.logprobs, MaskRow.support, hs]
    | some s =>
      simp only [MaskRow.logprobs, MaskRow.support, hs]
      exact ((hvalid e he).aligned hk s hs).1
  have hkeep : ∀ r e, es[r]? = some e →
      ((es.map fun e => e.sampled.isNone).getD r false == false) = e.sampled.isSome := by
    intro r e he
    rw [List.getD_eq_getElem?_getD, List.getElem?_map, he]
    cases hs : e.sampled <;> simp [hs]
  have hids := Csr.scatter_entries (-1 : Int) k (es.map MaskRow.support)
    (fun r => (es.map fun e => e.sampled.isNone).getD r false == false) (by
      intro r row hrow hkept
      rw [List.getElem?_map] at hrow
      obtain ⟨e, he, rfl⟩ := Option.map_eq_some_iff.mp hrow
      rw [hkeep r e he] at hkept
      exact hfits e (List.mem_of_getElem? he) (by simpa using hkept))
  have hlps := Csr.scatter_entries negInf k (es.map MaskRow.logprobs)
    (fun r => (es.map fun e => e.sampled.isNone).getD r false == false) (by
      intro r row hrow hkept
      rw [List.getElem?_map] at hrow
      obtain ⟨e, he, rfl⟩ := Option.map_eq_some_iff.mp hrow
      rw [hkeep r e he] at hkept
      have hlen := congrArg (fun l => l[r]?) hlogprobs
      simp only [List.getElem?_map, he, Option.map_some, Option.some.injEq] at hlen
      rw [hlen]
      exact hfits e (List.mem_of_getElem? he) (by simpa using hkept))
  rw [map_length_support, List.length_map] at hids
  rw [hlogprobs, List.length_map] at hlps
  simp only [supportTopk, Csr.diff_offsets, hlong, List.length_map, hids, hlps]
  have hrows : ∀ {β : Type} (f : MaskRow → List β) (g : MaskRow → List β) (fill : β),
      (∀ e, g e = if e.sampled.isSome then Csr.pad fill k (f e) else List.replicate k fill) →
      ((es.map f).zipIdx.map fun row =>
        if ((es.map fun e => e.sampled.isNone).getD row.2 false == false) = true then
          Csr.pad fill k row.1 else List.replicate k fill) = es.map g := by
    intro β f g fill hg
    apply List.ext_getElem?
    intro r
    rw [List.getElem?_map, List.getElem?_zipIdx, List.getElem?_map, List.getElem?_map]
    cases he : es[r]? with
    | none => rfl
    | some e =>
      simp only [Option.map_some, Nat.zero_add, hkeep r e he, hg]
  rw [hrows MaskRow.support (MaskRow.candidates k) (-1), hrows MaskRow.logprobs
    (MaskRow.candidateLogprobs k) negInf]
  · rfl
  · intro e
    cases hs : e.sampled <;> simp [MaskRow.candidateLogprobs, MaskRow.logprobs, hs]
  · intro e
    cases hs : e.sampled <;> simp [MaskRow.candidates, MaskRow.support, hs]

/-- Segments that read the rows of an inline mask materialize to its columns. -/
theorem materializeMask_eq {objects : Objects} {segs : Segments} {es : List MaskRow}
    {m : InlineMask} (h : MaskSegments objects k segs es) (hm : m.Holds k es) :
    materializeMask objects (es.map MaskRow.token) k segs =
      .ok ⟨m.mask.ids, m.mask.offsets, m.topk⟩ := by
  have htokens : ((es.map MaskRow.token).drop 0).take es.length = es.map MaskRow.token := by
    rw [List.drop_zero, List.take_of_length_le (by simp)]
  obtain ⟨parts, hparts, hof⟩ := maskParts_eq h htokens
  have hids : m.mask.ids = (es.map MaskRow.support).flatten := hm.mask.ids
  have hoffsets : m.mask.offsets = Csr.offsets (es.map fun e => e.support.length) := by
    rw [hm.mask.offsets, map_length_support]
  simp only [materializeMask, hparts, Except.ok_bind, hof.ids, hof.lengths, hof.forced,
    checkSupport_of_valid hm.valid, hids, hoffsets, hm.topk]
  by_cases hk : 0 < k
  · simp only [gt_iff_lt, hk, decide_true, if_true, hof.logprobs hk,
      supportTopk_of_valid hk hm.valid]
    rfl
  · simp only [gt_iff_lt, hk, decide_false, Bool.false_eq_true, if_false]
    rfl

end Miles.Rollout
