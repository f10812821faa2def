import Miles.ForStd.List
import Miles.Native.Training.ReplayData
import Miles.Spec.Training.LossMaskAlignment

/-!
# Replay rows line up with tokens

With a padding row for its last token, the replay data of a sample has a row for each token.
`fill_replay_data` lays the rows out as `get_batch` lays out the tokens, so the row at a position
is the row of the token there; the tensor-parallel ranks get consecutive parts of them.
-/

namespace Miles.ContextParallel

open PyList

variable {α : Type}

/-! ### The same layout -/

/-- A sample of a micro-batch with its replay data. -/
structure ReplaySample where
  tokens : List Int
  replay : List ReplayRow
  rows_eq : replay.length + 1 = tokens.length

theorem padFunc_natCast (pad : α) (xs : List α) (n : Nat) :
    padFunc pad xs n = .ok (xs ++ List.replicate n pad) := by
  have hnonneg : ¬ ((n : Int) < 0) := by omega
  rw [padFunc, if_neg hnonneg, Int.toNat_natCast]

/-- Padding to at least the length of the data. -/
theorem padFunc_eq {pad : α} {xs : List α} {n : Int} (h : (xs.length : Int) ≤ n) :
    padFunc pad xs (n - xs.length) = .ok (padEnd xs (n - xs.length) pad) := by
  have hnonneg : ¬ (n - (xs.length : Int) < 0) := by omega
  rw [padFunc, padEnd, if_neg hnonneg, if_neg hnonneg]

/-- The chunks of a thd sample cover it. -/
theorem le_chunks_thd {n cpSize : Nat} (hcp : 0 < cpSize) :
    (n : Int) ≤ 2 * cpSize * chunkSize n cpSize := le_chunks hcp (Nat.le_refl n)

variable {maxSeqLens : Option (List Nat)} {cfg : ReplayConfig} {cp : CpState}

/-- Slicing with a padding function is slicing with its value, for data that fits. -/
theorem sliceWithCpBy_eq {pad : α} {xs : List α} {qkvFormat : QkvFormat} {m : Nat}
    (hcp : 0 < cp.size) (hfits : qkvFormat = .bshd → xs.length ≤ m) :
    sliceWithCpBy (padFunc pad) xs qkvFormat m cp =
      .ok (sliceWithCp xs pad qkvFormat m cp) := by
  unfold sliceWithCpBy sliceWithCp
  split
  · cases qkvFormat with
    | bshd => exact padFunc_eq (by have := hfits rfl; omega)
    | thd => rfl
  · cases qkvFormat with
    | bshd =>
      simp only [padFunc_eq (le_chunks hcp (hfits rfl)), bind, Except.bind]
      rfl
    | thd =>
      simp only [padFunc_eq (le_chunks_thd hcp), bind, Except.bind]
      rfl

/-- With one rank the two ways to split the tokens are the same. -/
theorem getBatch_allgather_one {tokens : List (List α)} {pad : α} {padSize : Nat}
    {qkvFormat : QkvFormat} (hone : cp.size = 1)
    (hrank : cp.rank = 0) {localTokens : List α} (allgatherCp : Bool)
    (h : getBatch tokens pad padSize qkvFormat maxSeqLens allgatherCp cp = .ok localTokens) :
    getBatch tokens pad padSize qkvFormat maxSeqLens false cp = .ok localTokens := by
  cases allgatherCp with
  | false => exact h
  | true =>
    cases qkvFormat with
    | bshd =>
      obtain ⟨hne, m, rest, hlens, hfits, hdiv, rfl⟩ := getBatch_bshd_eq_ok.mp h
      refine getBatch_bshd_eq_ok.mpr ⟨hne, m, rest, hlens, hfits, (fun h => by cases h), ?_⟩
      congr 1
      apply List.map_congr_left
      intro t ht
      have hle := hfits t ht
      simp only [if_true, Bool.false_eq_true, if_false, sliceWithCp, hone, hrank, Nat.div_one,
        Nat.zero_mul, Nat.zero_add, slice_natCast, List.drop_zero]
      rw [padEnd_eq hle, List.take_of_length_le]
      simp only [List.length_append, List.length_replicate]
      omega
    | thd =>
      obtain ⟨hne, rfl⟩ := getBatch_thd_eq_ok.mp h
      refine getBatch_thd_eq_ok.mpr ⟨hne, ?_⟩
      have hslots : ∀ t : List α, sliceWithCp t pad .thd 0 cp = t := by
        intro t
        rw [sliceWithCp, if_pos hone]
      simp only [if_true, Bool.false_eq_true, if_false, hslots, List.map_id', hone, hrank,
        Nat.one_mul, chunkAt, Nat.mul_zero, List.drop_zero, Nat.div_one, Nat.add_sub_cancel,
        List.take_length]

/-! ### Sequence first -/

/-- A column has an entry for each row. -/
theorem column {rows : List (List α)} {s : Nat} (h : ∀ row ∈ rows, s < row.length) :
    (rows.filterMap fun row => row[s]?).length = rows.length ∧
    ∀ b : Nat, (rows.filterMap fun row => row[s]?)[b]? = rows[b]?.bind fun row => row[s]? := by
  induction rows with
  | nil => exact ⟨rfl, fun _ => rfl⟩
  | cons row rows ih =>
    obtain ⟨x, hrow⟩ : ∃ x, row[s]? = some x :=
      ⟨_, List.getElem?_eq_getElem (h row List.mem_cons_self)⟩
    obtain ⟨hlen, hget⟩ := ih fun row hrow => h row (List.mem_cons_of_mem _ hrow)
    have hcons : (row :: rows).filterMap (fun row => row[s]?) =
        x :: rows.filterMap (fun row => row[s]?) := List.filterMap_cons_some hrow
    rw [hcons]
    refine ⟨by rw [List.length_cons, List.length_cons, hlen], fun b => ?_⟩
    cases b with
    | zero => exact hrow.symm
    | succ b => exact hget b

/-- A transposed tensor has at position `q` what the tensor has in row `q % B` and column
    `q / B`. -/
theorem getElem?_transposeFlat {rows : List (List α)} {seqlen : Nat}
    (h : ∀ row ∈ rows, row.length = seqlen) {q : Nat} (hq : q < rows.length * seqlen) :
    (transposeFlat rows seqlen)[q]? =
      rows.flatten[q % rows.length * seqlen + q / rows.length]? := by
  have hrows : 0 < rows.length := Nat.pos_of_ne_zero fun hzero => by
    rw [hzero, Nat.zero_mul] at hq
    omega
  have hcol : q / rows.length < seqlen := Nat.div_lt_of_lt_mul hq
  have hseq : 0 < seqlen := Nat.zero_lt_of_lt hcol
  have hcolumn : ∀ s < seqlen, ∀ row ∈ rows, s < row.length := fun s hs row hrow => by
    rw [h row hrow]
    exact hs
  have hparts : ∀ part ∈ (List.range seqlen).map fun s => rows.filterMap (·[s]?),
      part.length = rows.length := by
    intro part hpart
    obtain ⟨s, hs, rfl⟩ := List.mem_map.mp hpart
    exact (column (hcolumn s (List.mem_range.mp hs))).1
  have hdiv : (q % rows.length * seqlen + q / rows.length) / seqlen = q % rows.length := by
    rw [Nat.mul_comm, Nat.mul_add_div hseq, Nat.div_eq_of_lt hcol, Nat.add_zero]
  have hmod : (q % rows.length * seqlen + q / rows.length) % seqlen = q / rows.length := by
    rw [Nat.mul_comm, Nat.mul_add_mod, Nat.mod_eq_of_lt hcol]
  rw [transposeFlat, List.flatMap_def, List.getElem?_flatten_const hrows hparts,
    List.getElem?_flatten_const hseq h, hdiv, hmod, List.getElem?_map, List.getElem?_range hcol]
  exact (column (hcolumn _ hcol)).2 _

theorem length_transposeFlat {rows : List (List α)} {seqlen : Nat}
    (h : ∀ row ∈ rows, row.length = seqlen) :
    (transposeFlat rows seqlen).length = rows.length * seqlen := by
  have hparts : ∀ part ∈ (List.range seqlen).map fun s => rows.filterMap (·[s]?),
      part.length = rows.length := by
    intro part hpart
    obtain ⟨s, hs, rfl⟩ := List.mem_map.mp hpart
    refine (column fun row hrow => ?_).1
    rw [h row hrow]
    exact List.mem_range.mp hs
  rw [transposeFlat, List.flatMap_def, List.length_flatten_const hparts, List.length_map,
    List.length_range, Nat.mul_comm]

/-! ### Rows and origins -/

/-- The rows of the samples, one for each token. -/
def paddedRows (pad : ReplayRow) (samples : List ReplaySample) : List (List ReplayRow) :=
  samples.map fun s => s.replay ++ [pad]

theorem length_paddedRows (pad : ReplayRow) (samples : List ReplaySample) :
    (paddedRows pad samples).map List.length = (samples.map (·.tokens)).map List.length := by
  simp only [paddedRows, List.map_map]
  apply List.map_congr_left
  intro s _
  show (s.replay ++ [pad]).length = s.tokens.length
  rw [List.length_append, ← s.rows_eq]
  rfl

@[simp] theorem shiftRow_padRow (offset numLayers topk : Nat) :
    shiftRow offset (padRow numLayers topk) = padRow numLayers topk := by
  simp [shiftRow, padRow]

theorem shiftRow_zero (row : ReplayRow) : shiftRow 0 row = row := by
  simp [shiftRow]

/-- Where the slot of a sample starts among slots, if indices are mapped. -/
def shiftOf (mapped : Bool) (slots : List (List α)) (i : Nat) : Nat :=
  if mapped then ((slots.take i).map List.length).sum else 0

/-- The rows with the indices of each sample mapped by its own offset. -/
def shiftedRows (offset : Nat → Nat) (rows : List (List ReplayRow)) : List (List ReplayRow) :=
  rows.zipIdx.map fun x => x.1.map (shiftRow (offset x.2))

/-- The loop maps each sample by the lengths of the samples before it. -/
theorem mapIndices_eq (start : Nat) (rows : List (List ReplayRow)) :
    mapIndices start rows =
      rows.zipIdx.map fun x =>
        x.1.map (shiftRow (start + ((rows.take x.2).map List.length).sum)) := by
  induction rows generalizing start with
  | nil => rfl
  | cons r rows ih =>
    rw [mapIndices, ih, List.zipIdx_cons, List.map_cons, Nat.zero_add, List.zipIdx_succ,
      List.map_map]
    congr 1
    apply List.map_congr_left
    intro x _
    simp [Nat.add_assoc]

theorem shiftedRows_zero (rows : List (List ReplayRow)) :
    shiftedRows (fun _ => 0) rows = rows := by
  have hid : (fun x : List ReplayRow × Nat => x.1.map (shiftRow 0)) = Prod.fst := by
    funext x
    rw [show shiftRow 0 = id from funext shiftRow_zero, List.map_id]
  rw [shiftedRows, hid, List.zipIdx_map_fst]

theorem length_shiftedRows (offset : Nat → Nat) (rows : List (List ReplayRow)) :
    (shiftedRows offset rows).map List.length = rows.map List.length := by
  have hlen : (fun x : List ReplayRow × Nat => (x.1.map (shiftRow (offset x.2))).length) =
      List.length ∘ Prod.fst := by
    funext x
    exact List.length_map _
  rw [shiftedRows, List.map_map]
  show rows.zipIdx.map (fun x => (x.1.map (shiftRow (offset x.2))).length) = _
  rw [hlen, ← List.map_map, List.zipIdx_map_fst]

/-- Mapping the indices of the slots is slicing the samples with mapped indices. -/
theorem mapIndices_slots (numLayers topk : Nat) (rows : List (List ReplayRow)) (cp : CpState) :
    mapIndices 0 (rows.map fun r => sliceWithCp r (padRow numLayers topk) .thd 0 cp) =
      (shiftedRows
        (shiftOf true (rows.map fun r => sliceWithCp r (padRow numLayers topk) .thd 0 cp)) rows).map
        fun r => sliceWithCp r (padRow numLayers topk) .thd 0 cp := by
  rw [mapIndices_eq, shiftedRows, List.map_map, List.zipIdx_map, List.map_map]
  apply List.map_congr_left
  intro x _
  show (sliceWithCp x.1 _ .thd 0 cp).map _ = sliceWithCp (x.1.map _) _ .thd 0 cp
  simp only [Prod.map, id_eq, Nat.zero_add, shiftOf, if_true]
  rw [← sliceWithCp_map, shiftRow_padRow]

/-- Whether the indices of a micro-batch are mapped. -/
def ReplayConfig.mapsIndices (cfg : ReplayConfig) (cp : CpState) : Prop :=
  cfg.qkvFormat = .thd ∧ cfg.indicesAreTokenPositions ∧ ¬ (cfg.allgatherCp ∧ 1 < cp.size)

instance (cfg : ReplayConfig) (cp : CpState) : Decidable (cfg.mapsIndices cp) := by
  unfold ReplayConfig.mapsIndices
  infer_instance

/-- What is added to the indices of sample `i`. -/
def ReplayConfig.offset (cfg : ReplayConfig) (cp : CpState) (rows : List (List ReplayRow)) :
    Nat → Nat :=
  shiftOf (cfg.mapsIndices cp) (rows.map fun r =>
    sliceWithCp r (padRow cfg.numLayers cfg.topk) .thd 0 cp)

/-- The rows of a thd micro-batch are laid out like tokens. -/
theorem fillReplayThd_eq (hfmt : cfg.qkvFormat = .thd)
    {rows : List (List ReplayRow)} {tp : TpState}
    (hrank : cp.rank < cp.size) {xs : List ReplayRow}
    (h : getBatch (shiftedRows (cfg.offset cp rows) rows) (padRow cfg.numLayers cfg.topk)
      (tp.size * cfg.dataPadSizeMultiplier) .thd maxSeqLens cfg.allgatherCp cp = .ok xs) :
    fillReplayThd cfg rows cp tp = .ok xs := by
  by_cases hgather : cfg.allgatherCp ∧ 1 < cp.size
  · have hmaps : ¬ cfg.mapsIndices cp := fun hmaps => hmaps.2.2 hgather
    have hoffset : cfg.offset cp rows = fun _ => 0 := by
      funext i
      simp [ReplayConfig.offset, shiftOf, hmaps]
    rw [hoffset, shiftedRows_zero] at h
    obtain ⟨-, hxs⟩ := getBatch_thd_eq_ok.mp h
    rw [if_pos hgather.1] at hxs
    rw [fillReplayThd, if_pos hgather, hxs]
    simp only [padFunc_natCast, padTo]
    rfl
  · have hplain := getBatch_thd_eq_ok.mp
      (show getBatch (shiftedRows (cfg.offset cp rows) rows) (padRow cfg.numLayers cfg.topk)
        (tp.size * cfg.dataPadSizeMultiplier) .thd maxSeqLens false cp = .ok xs by
        by_cases hcp : cfg.allgatherCp
        · have hone : cp.size = 1 := by
            have hnot : ¬ 1 < cp.size := fun hlt => hgather ⟨hcp, hlt⟩
            omega
          exact getBatch_allgather_one hone (by omega) cfg.allgatherCp h
        · rw [Bool.not_eq_true] at hcp
          rw [hcp] at h
          exact h)
    simp only [Bool.false_eq_true, if_false] at hplain
    have hslots : rows.mapM (fun r => sliceWithCpBy (padFunc (padRow cfg.numLayers cfg.topk)) r
        .thd 0 cp) = .ok (rows.map fun r =>
          sliceWithCp r (padRow cfg.numLayers cfg.topk) .thd 0 cp) :=
      Except.mapM_of_ok fun r _ => sliceWithCpBy_eq (by omega) fun h => by cases h
    have hmapped : (if cfg.indicesAreTokenPositions then
        mapIndices 0 (rows.map fun r => sliceWithCp r (padRow cfg.numLayers cfg.topk) .thd 0 cp)
        else rows.map fun r => sliceWithCp r (padRow cfg.numLayers cfg.topk) .thd 0 cp) =
        (shiftedRows (cfg.offset cp rows) rows).map fun r =>
          sliceWithCp r (padRow cfg.numLayers cfg.topk) .thd 0 cp := by
      by_cases hindices : cfg.indicesAreTokenPositions
      · have hmaps : cfg.mapsIndices cp := ⟨hfmt, hindices, hgather⟩
        rw [if_pos hindices, mapIndices_slots]
        simp only [ReplayConfig.offset, hmaps, decide_true]
      · have hmaps : ¬ cfg.mapsIndices cp := fun hmaps => hindices hmaps.2.1
        have hoffset : cfg.offset cp rows = fun _ => 0 := by
          funext i
          simp [ReplayConfig.offset, shiftOf, hmaps]
        rw [if_neg hindices, hoffset, shiftedRows_zero]
    rw [fillReplayThd, if_neg hgather]
    simp only [hslots, bind, Except.bind, hmapped, padFunc_natCast]
    rw [hplain.2]
    rfl

/-- The rows of a bshd micro-batch are laid out like tokens, or are transposed. -/
theorem fillReplayBshd_eq {rows : List (List ReplayRow)} {padSize : Nat}
    (hrank : cp.rank < cp.size)
    {xs : List ReplayRow}
    (h : getBatch rows (padRow cfg.numLayers cfg.topk) padSize .bshd maxSeqLens cfg.allgatherCp
      cp = .ok xs) :
    ∃ slots seqlen, slots.length = rows.length ∧ (∀ slot ∈ slots, slot.length = seqlen) ∧
      xs = slots.flatten ∧
      fillReplayBshd cfg rows maxSeqLens cp =
        .ok (if cfg.sequenceFirst then transposeFlat slots seqlen else xs) := by
  -- with one rank the two placements are the same
  have hplace : ∃ gather : Bool, (gather = true ↔ cfg.allgatherCp ∧ 1 < cp.size) ∧
      getBatch rows (padRow cfg.numLayers cfg.topk) padSize .bshd maxSeqLens gather cp =
        .ok xs := by
    by_cases hgather : cfg.allgatherCp ∧ 1 < cp.size
    · exact ⟨true, by simp [hgather], by rw [← hgather.1]; exact h⟩
    · refine ⟨false, by simp only [Bool.false_eq_true, false_iff]; exact hgather, ?_⟩
      by_cases hcp : cfg.allgatherCp
      · have hone : cp.size = 1 := by
          have hnot : ¬ 1 < cp.size := fun hlt => hgather ⟨hcp, hlt⟩
          omega
        exact getBatch_allgather_one hone (by omega) cfg.allgatherCp h
      · rw [Bool.not_eq_true] at hcp
        rw [hcp] at h
        exact h
  obtain ⟨gather, hgather, hplace⟩ := hplace
  obtain ⟨hne, m, rest, rfl, hfits, hdiv, hxs⟩ := getBatch_bshd_eq_ok.mp hplace
  have hsame := sameLength_bshd (show 0 < cp.size by omega) hfits (padRow cfg.numLayers cfg.topk) gather
  generalize hslots : (rows.map fun t =>
      if gather then
        slice (padEnd t (m - t.length) (padRow cfg.numLayers cfg.topk))
          (cp.rank * (m / cp.size) : Nat) (cp.rank * (m / cp.size) + m / cp.size : Nat)
      else sliceWithCp t (padRow cfg.numLayers cfg.topk) .bshd m cp) = slots at hsame hxs
  have hcount : slots.length = rows.length := by rw [← hslots, List.length_map]
  -- the source reads the sequence length off the first slot
  obtain ⟨slot, hslot⟩ : ∃ slot, slots.head? = some slot := by
    cases slots with
    | nil => exact absurd (List.eq_nil_of_length_eq_zero hcount.symm) hne
    | cons slot _ => exact ⟨slot, rfl⟩
  have hmem : slot ∈ slots := List.mem_of_mem_head? hslot
  refine ⟨slots, slot.length, hcount, fun other hother => hsame other hother slot hmem, hxs, ?_⟩
  have hhead : slots.headD [] = slot := by
    rw [List.headD_eq_head?_getD, hslot]
    rfl
  by_cases hg : cfg.allgatherCp ∧ 1 < cp.size
  · have htrue := hgather.mpr hg
    have hrows : (rows.mapM fun r => do
        return slice (← padFunc (padRow cfg.numLayers cfg.topk) r (m - r.length))
          (cp.rank * (m / cp.size) : Nat) (cp.rank * (m / cp.size) + m / cp.size : Nat)) =
        .ok slots := by
      rw [← hslots]
      apply Except.mapM_of_ok
      intro r hr
      have hle := hfits r hr
      rw [padFunc_eq (by omega), if_pos htrue]
      rfl
    simp only [fillReplayBshd, if_pos hg, check, if_pos (hdiv htrue), Except.mapError]
    simp only [bind, Except.bind] at hrows ⊢
    rw [hrows]
    simp only [hsame, not_true_eq_false, if_false, hhead, hxs]
    split <;> rfl
  · have hfalse : ¬ gather = true := fun htrue => hg (hgather.mp htrue)
    have hrows : (rows.mapM fun r =>
        sliceWithCpBy (padFunc (padRow cfg.numLayers cfg.topk)) r .bshd m cp) = .ok slots := by
      rw [← hslots]
      apply Except.mapM_of_ok
      intro r hr
      rw [sliceWithCpBy_eq (by omega) fun _ => hfits r hr, if_neg hfalse]
    simp only [fillReplayBshd, if_neg hg, hrows, bind, Except.bind, hsame, not_true_eq_false,
      if_false, hhead, hxs]
    split <;> rfl

/-! ### What is registered -/

/-- Padding, or the last token of a sample. -/
def IsPadding (samples : List ReplaySample) (o : Origin) : Prop :=
  o = none ∨ ∃ i s, samples[i]? = some s ∧ o = some (i, s.tokens.length - 1)

/-- What is added to the indices of sample `i` of a batch. -/
def ReplayConfig.sampleOffset (cfg : ReplayConfig) (cp : CpState) (samples : List ReplaySample) :
    Nat → Nat :=
  cfg.offset cp (paddedRows (padRow cfg.numLayers cfg.topk) samples)

/-- The row of an origin. -/
def ReplayConfig.rowAt (cfg : ReplayConfig) (cp : CpState) (samples : List ReplaySample)
    (o : Origin) : ReplayRow :=
  entryAt (shiftedRows (cfg.sampleOffset cp samples)
    (paddedRows (padRow cfg.numLayers cfg.topk) samples)) (padRow cfg.numLayers cfg.topk) o

section RowAt

variable {cfg : ReplayConfig} {cp : CpState} {samples : List ReplaySample} {i j : Nat}
  {s : ReplaySample}

theorem rowAt_some (hs : samples[i]? = some s) :
    cfg.rowAt cp samples (some (i, j)) =
      ((((s.replay ++ [padRow cfg.numLayers cfg.topk])[j]?).map
        (shiftRow (cfg.sampleOffset cp samples i))).getD (padRow cfg.numLayers cfg.topk)) := by
  rw [← List.getElem?_map, List.map_append]
  simp [ReplayConfig.rowAt, entryAt, shiftedRows, paddedRows, hs]

/-- A token that has a row in the replay data. -/
theorem rowAt_replay (hs : samples[i]? = some s) {row : ReplayRow} (hj : s.replay[j]? = some row) :
    cfg.rowAt cp samples (some (i, j)) = shiftRow (cfg.sampleOffset cp samples i) row := by
  obtain ⟨hlt, -⟩ := List.getElem?_eq_some_iff.mp hj
  rw [rowAt_some hs, List.getElem?_append_left hlt, hj]
  rfl

/-- Padding and last tokens have the padding row. -/
theorem rowAt_padding {o : Origin} (h : IsPadding samples o) :
    cfg.rowAt cp samples o = padRow cfg.numLayers cfg.topk := by
  cases h with
  | inl h =>
    rw [h]
    rfl
  | inr h =>
    obtain ⟨i, s, hs, rfl⟩ := h
    have hlast : s.tokens.length - 1 = s.replay.length := by
      have := s.rows_eq
      omega
    rw [rowAt_some hs, hlast, List.getElem?_append_right (Nat.le_refl _), Nat.sub_self]
    simp

/-- A row with an entry that is not negative has one after the mapping. -/
theorem shiftRow_ne_padRow {offset numLayers topk : Nat} {row : ReplayRow}
    (h : ∃ entries ∈ row, ∃ e ∈ entries, 0 ≤ e) : shiftRow offset row ≠ padRow numLayers topk := by
  intro heq
  obtain ⟨entries, hentries, e, he, hpos⟩ := h
  have hmem : entries.map (fun e : Int => if e ≠ -1 then e + offset else e) ∈ padRow numLayers topk := by
    rw [← heq]
    exact List.mem_map_of_mem hentries
  have hentry := List.mem_map_of_mem (f := fun e : Int => if e ≠ -1 then e + offset else e) he
  rw [List.eq_of_mem_replicate hmem] at hentry
  have hminus := List.eq_of_mem_replicate hentry
  split at hminus <;> omega

/-- If every row of the replay data has an index, only padding has the padding row. -/
theorem isPadding_of_rowAt {o : Origin}
    (hindices : ∀ s ∈ samples, ∀ row ∈ s.replay, ∃ entries ∈ row, ∃ e ∈ entries, 0 ≤ e)
    (hvalid : ∀ i j, o = some (i, j) → ∃ t, (samples.map (·.tokens))[i]? = some t ∧ j < t.length)
    (h : cfg.rowAt cp samples o = padRow cfg.numLayers cfg.topk) : IsPadding samples o := by
  cases o with
  | none => exact .inl rfl
  | some x =>
    obtain ⟨i, j⟩ := x
    obtain ⟨t, ht, hj⟩ := hvalid i j rfl
    rw [List.getElem?_map, Option.map_eq_some_iff] at ht
    obtain ⟨s, hs, rfl⟩ := ht
    have hrows := s.rows_eq
    by_cases hlast : j < s.replay.length
    · have hread := List.getElem?_eq_getElem hlast
      rw [rowAt_replay hs hread] at h
      exact absurd h (shiftRow_ne_padRow
        (hindices s (List.mem_of_getElem? hs) _ (List.getElem_mem hlast)))
    · refine .inr ⟨i, s, hs, ?_⟩
      have hj' : j = s.tokens.length - 1 := by
        have hj : j < s.tokens.length := hj
        omega
      rw [hj']

end RowAt

/-- The position in the tokens of `get_batch` of the token at position `q` of what the modules
    see: bshd tokens may come sequence first. -/
def ReplayConfig.modulePosition (cfg : ReplayConfig) (batchSize numTokens q : Nat) : Nat :=
  if cfg.qkvFormat = .bshd ∧ cfg.sequenceFirst then
    q % batchSize * (numTokens / batchSize) + q / batchSize
  else q

/-- The position of the token whose row a tensor-parallel rank registers at position `p`. -/
def ReplayConfig.tokenPosition (cfg : ReplayConfig) (tp : TpState) (batchSize numTokens p : Nat) :
    Nat :=
  cfg.modulePosition batchSize numTokens
    ((if cfg.splits then numTokens / tp.size * tp.rank else 0) + p)

/-- The rows of all tensor-parallel ranks, in the order of the modules. -/
theorem fillReplay_order {samples : List ReplaySample}
    (tp : TpState) (hrank : cp.rank < cp.size)
    {os : List Origin} (hne : samples ≠ [])
    (h : getBatch (shiftedRows (cfg.sampleOffset cp samples)
        (paddedRows (padRow cfg.numLayers cfg.topk) samples)) (padRow cfg.numLayers cfg.topk)
      (tp.size * cfg.dataPadSizeMultiplier) cfg.qkvFormat maxSeqLens cfg.allgatherCp cp =
        .ok (os.map (cfg.rowAt cp samples))) :
    ∃ rows, rows.length = os.length ∧
      (∀ q < rows.length, rows[q]? =
        (os[cfg.modulePosition samples.length os.length q]?).map (cfg.rowAt cp samples)) ∧
      fillReplayLayout cfg (paddedRows (padRow cfg.numLayers cfg.topk) samples) maxSeqLens cp tp =
        .ok rows := by
  unfold fillReplayLayout
  cases hfmt : cfg.qkvFormat with
  | thd =>
    rw [hfmt] at h
    refine ⟨os.map (cfg.rowAt cp samples), List.length_map _, fun q _ => ?_,
      fillReplayThd_eq hfmt hrank h⟩
    simp [ReplayConfig.modulePosition, hfmt]
  | bshd =>
    have hmaps : ¬ cfg.mapsIndices cp := fun hmaps => by
      have hthd := hmaps.1
      rw [hfmt] at hthd
      cases hthd
    have hoffset : cfg.sampleOffset cp samples = fun _ => 0 := by
      funext i
      simp [ReplayConfig.sampleOffset, ReplayConfig.offset, shiftOf, hmaps]
    rw [hoffset, shiftedRows_zero, hfmt] at h
    obtain ⟨slots, seqlen, hcount, hslots, hxs, hfill⟩ := fillReplayBshd_eq hrank h
    have hbatch : slots.length = samples.length := by
      rw [hcount, paddedRows, List.length_map]
    have hpos : 0 < samples.length := List.length_pos_iff.mpr hne
    have hlen : os.length = slots.length * seqlen := by
      rw [← List.length_flatten_const hslots, ← hxs, List.length_map]
    have hseq : os.length / samples.length = seqlen := by
      rw [hlen, hbatch, Nat.mul_div_cancel_left _ hpos]
    refine ⟨_, ?_, ?_, hfill⟩
    · split
      · rw [length_transposeFlat hslots, hlen]
      · exact List.length_map _
    · intro q hq
      by_cases hfirst : cfg.sequenceFirst
      · rw [if_pos hfirst] at hq ⊢
        rw [length_transposeFlat hslots] at hq
        rw [getElem?_transposeFlat hslots hq, ← hxs, List.getElem?_map]
        simp only [ReplayConfig.modulePosition, hfmt, hfirst, true_and, if_true, hbatch, hseq]
      · rw [if_neg hfirst]
        simp [ReplayConfig.modulePosition, hfirst]

/-- The part of the rows that a tensor-parallel rank registers. -/
def ReplayConfig.part (cfg : ReplayConfig) (tp : TpState) (rows : List α) : List α :=
  if cfg.splits then
    slice rows (rows.length / tp.size * tp.rank : Nat) (rows.length / tp.size * (tp.rank + 1) : Nat)
  else rows

theorem fillReplayData_eq {samples : List ReplaySample}
    {tp : TpState} {rows : List ReplayRow}
    (hfill : fillReplayLayout cfg (paddedRows (padRow cfg.numLayers cfg.topk) samples) maxSeqLens
      cp tp = .ok rows)
    (hsplit : cfg.splits → rows.length % tp.size = 0) :
    fillReplayData cfg (samples.map (·.replay)) (samples.map (·.tokens)) maxSeqLens cp tp =
      .ok (cfg.part tp rows) := by
  have hcount : ¬ ((samples.map (·.replay)).length ≠ (samples.map (·.tokens)).length) := by simp
  have hrows : ∀ x ∈ (samples.map (·.replay)).zip (samples.map (·.tokens)),
      (x.1.length : Int) = x.2.length - 1 := by
    intro x hx
    rw [List.zip_map'] at hx
    obtain ⟨s, -, rfl⟩ := List.mem_map.mp hx
    have hs := s.rows_eq
    show (s.replay.length : Int) = s.tokens.length - 1
    omega
  have hpad : ((samples.map (·.replay)).mapM fun r =>
      padFunc (padRow cfg.numLayers cfg.topk) r 1) =
      .ok (paddedRows (padRow cfg.numLayers cfg.topk) samples) := by
    have hone : ∀ r : List ReplayRow, padFunc (padRow cfg.numLayers cfg.topk) r 1 =
        .ok (r ++ [padRow cfg.numLayers cfg.topk]) := fun _ => rfl
    rw [Except.mapM_of_ok fun r _ => hone r, List.map_map]
    rfl
  unfold fillReplayData
  rw [if_neg hcount, if_neg (not_not.mpr hrows), hpad]
  simp only [bind, Except.bind, hfill]
  by_cases hcfg : cfg.splits
  · have hdiv : ¬ rows.length % tp.size ≠ 0 := not_not.mpr (hsplit hcfg)
    simp only [if_pos hcfg, if_neg hdiv, ReplayConfig.part]
    rfl
  · simp only [if_neg hcfg, ReplayConfig.part]
    rfl

theorem length_part {tp : TpState} (htp : tp.rank < tp.size)
    (rows : List α) :
    (cfg.part tp rows).length = if cfg.splits then rows.length / tp.size else rows.length := by
  unfold ReplayConfig.part
  split
  · have hle : rows.length / tp.size * (tp.rank + 1) ≤ rows.length :=
      (Nat.mul_le_mul_left _ htp).trans (Nat.div_mul_le_self _ _)
    rw [slice_natCast, List.length_drop, List.length_take, Nat.min_eq_left hle, Nat.mul_succ]
    exact Nat.add_sub_cancel_left _ _
  · rfl

theorem getElem?_part {tp : TpState} (htp : tp.rank < tp.size)
    {rows : List α} {p : Nat} (hp : p < (cfg.part tp rows).length) :
    (cfg.part tp rows)[p]? =
      rows[(if cfg.splits then rows.length / tp.size * tp.rank else 0) + p]? := by
  rw [length_part htp] at hp
  unfold ReplayConfig.part
  by_cases hcfg : cfg.splits
  · rw [if_pos hcfg] at hp
    rw [if_pos hcfg, if_pos hcfg, slice_natCast, List.getElem?_drop, List.getElem?_take_of_lt]
    rw [Nat.mul_succ]
    omega
  · rw [if_neg hcfg, if_neg hcfg, Nat.zero_add]

/-- Where the indices of a sample are mapped to. -/
theorem sampleOffset_eq (hmaps : cfg.mapsIndices cp)
    (hone : cp.size = 1) (samples : List ReplaySample) (i : Nat) :
    cfg.sampleOffset cp samples i = ((samples.take i).map (·.tokens.length)).sum := by
  have hslots : ∀ r : List ReplayRow,
      sliceWithCp r (padRow cfg.numLayers cfg.topk) .thd 0 cp = r := by
    intro r
    rw [sliceWithCp, if_pos hone]
  have hlen : (paddedRows (padRow cfg.numLayers cfg.topk) samples).map List.length =
      samples.map (·.tokens.length) := by
    rw [length_paddedRows, List.map_map]
    rfl
  simp only [ReplayConfig.sampleOffset, ReplayConfig.offset, shiftOf, hmaps, decide_true, if_true,
    hslots, List.map_id']
  rw [List.map_take, hlen, List.map_take]

/-- Without context parallelism a packed batch has the tokens of a sample from its offset on. -/
theorem origins_packed {tokens : List (List α)} {padSize : Nat}
    {allgatherCp : Bool} (hone : cp.size = 1) (hrank : cp.rank = 0)
    {os : List Origin} (h : origins tokens padSize .thd maxSeqLens allgatherCp cp = .ok os)
    {i e : Nat} {t : List α} (ht : tokens[i]? = some t) (he : e < t.length) :
    os[((tokens.take i).map List.length).sum + e]? = some (some (i, e)) := by
  obtain ⟨-, hos⟩ := getBatch_thd_eq_ok.mp (getBatch_allgather_one hone hrank allgatherCp h)
  have hslots : ∀ t : List Origin, sliceWithCp t none .thd 0 cp = t := by
    intro t
    rw [sliceWithCp, if_pos hone]
  simp only [Bool.false_eq_true, if_false, hslots, List.map_id'] at hos
  have hnames : (tokenNames tokens)[i]? = some ((List.range t.length).map fun j => some (i, j)) := by
    simp [tokenNames, ht]
  have hlengths : (tokenNames tokens).map List.length = tokens.map List.length := by
    simp only [tokenNames, List.map_map]
    have hlen : (List.length ∘ fun x : List α × Nat =>
        (List.range x.1.length).map fun j => some (x.2, j)) = List.length ∘ Prod.fst := by
      funext x
      simp
    rw [hlen, ← List.map_map, List.zipIdx_map_fst]
  have hread := List.getElem?_flatten_add hnames (j := e) (by simpa using he)
  rw [List.map_take, hlengths, ← List.map_take] at hread
  have hin : ((tokens.take i).map List.length).sum + e < (tokenNames tokens).flatten.length := by
    apply Nat.lt_of_not_le
    intro hle
    rw [List.getElem?_eq_none hle] at hread
    simp [he] at hread
  rw [hos, List.getElem?_append_left hin, hread]
  simp [he]

/-- Three tokens, with one index for each of the first two. -/
def shortReplay : ReplaySample where
  tokens := [5, 6, 7]
  replay := [[[0]], [[1]]]
  rows_eq := rfl

/-- A packed batch whose rows are split over two ranks. -/
def splitReplayConfig : ReplayConfig where
  qkvFormat := .thd
  allgatherCp := false
  dataPadSizeMultiplier := 2
  megatron := true
  sequenceParallel := true
  ifSpRegion := true
  indicesAreTokenPositions := true
  sequenceFirst := false
  numLayers := 1
  topk := 1

example : fillReplayData splitReplayConfig [shortReplay.replay, shortReplay.replay]
    [shortReplay.tokens, shortReplay.tokens] none ⟨0, 1⟩ ⟨1, 2⟩ =
    .ok [[[4]], [[-1]], [[-1]], [[-1]]] := by decide

end Miles.ContextParallel
