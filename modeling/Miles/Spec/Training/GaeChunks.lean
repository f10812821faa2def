import Miles.ForStd.AffineScan
import Miles.Native.Training.Gae
import Miles.Spec.Training.CpRoundTrip

/-!
# Both estimators compute the same recursion

The advantages of a row are an affine recurrence over its temporal-difference errors, run from the
end.  The chunked estimator runs it over the reversed row, a chunk at a time, and the batch runs it
over the trainable positions of every sample.
-/

namespace Miles.Gae

open AffineScan Miles.ContextParallel

variable {R : Type} [CommRing R]

/-! ## The recursion -/

/-- The temporal-difference errors of a row; the value after its last entry is zero. -/
def tdErrors (gamma : R) : List R → List R → List R
  | reward :: rewards, value :: values =>
    (reward + gamma * values.headD 0 - value) :: tdErrors gamma rewards values
  | _, _ => []

/-- Generalized advantage estimation: every advantage is the error plus the discounted advantage
    after it. -/
def gae (gamma lambd : R) : List R → List R → List R
  | reward :: rewards, value :: values =>
    (reward + gamma * values.headD 0 - value +
      gamma * lambd * (gae gamma lambd rewards values).headD 0) :: gae gamma lambd rewards values
  | _, _ => []

theorem gae_eq_backward (gamma lambd : R) (rewards values : List R) :
    gae gamma lambd rewards values = backward (gamma * lambd) (tdErrors gamma rewards values) := by
  induction rewards generalizing values with
  | nil => rfl
  | cons reward rewards ih =>
    cases values with
    | nil => rfl
    | cons value values => rw [gae, tdErrors, backward, ih]

variable {gamma lambd : R} {rewards values : List R}

theorem length_tdErrors (h : values.length = rewards.length) :
    (tdErrors gamma rewards values).length = rewards.length := by
  induction rewards generalizing values with
  | nil => rfl
  | cons reward rewards ih =>
    cases values with
    | nil => cases h
    | cons value values =>
      rw [tdErrors, List.length_cons, ih (by simpa using h), List.length_cons]

theorem length_gae (h : values.length = rewards.length) :
    (gae gamma lambd rewards values).length = rewards.length := by
  rw [gae_eq_backward, length_backward, length_tdErrors h]

theorem getElem?_tdErrors (h : values.length = rewards.length) {t : Nat} (ht : t < rewards.length) :
    (tdErrors gamma rewards values)[t]? =
      some (rewards.getD t 0 + gamma * values.getD (t + 1) 0 - values.getD t 0) := by
  induction rewards generalizing values t with
  | nil => cases ht
  | cons reward rewards ih =>
    cases values with
    | nil => cases h
    | cons value values =>
      cases t with
      | zero =>
        rw [tdErrors, List.getElem?_cons_zero]
        cases values <;> rfl
      | succ t =>
        rw [tdErrors, List.getElem?_cons_succ, ih (by simpa using h) (by simpa using ht)]
        rfl

/-- Zeros at the end of a row add zeros at the end. -/
theorem gae_append_zeros (h : values.length = rewards.length) (n : Nat) :
    gae gamma lambd (rewards ++ List.replicate n 0) (values ++ List.replicate n 0) =
      gae gamma lambd rewards values ++ List.replicate n 0 := by
  have herrors : tdErrors gamma (rewards ++ List.replicate n 0) (values ++ List.replicate n 0) =
      tdErrors gamma rewards values ++ List.replicate n 0 := by
    induction rewards generalizing values with
    | nil =>
      obtain rfl := List.eq_nil_of_length_eq_zero h
      induction n with
      | zero => rfl
      | succ n ih =>
        rw [List.nil_append, List.replicate_succ, tdErrors]
        rw [List.nil_append] at ih
        rw [ih]
        cases n <;> simp [tdErrors, List.replicate_succ]
    | cons reward rewards ih =>
      cases values with
      | nil => cases h
      | cons value values =>
        rw [List.cons_append, List.cons_append, tdErrors, ih (by simpa using h), tdErrors,
          List.cons_append]
        congr 4
        cases values with
        | nil => cases n <;> rfl
        | cons _ _ => rfl
  rw [gae_eq_backward, gae_eq_backward, herrors, backward_append_zeros]

/-! ## The loop -/

/-- The loop of `vanilla_gae` is the recursion. -/
theorem vanillaGae_eq (h : values.length = rewards.length) :
    vanillaGae rewards values gamma lambd =
      (gae gamma lambd rewards values,
        List.zipWith (· + ·) (gae gamma lambd rewards values) values) := by
  -- the loop is a scan over the errors that it visits
  have hloop : ∀ (ts : List Nat) (state : R) (advRev : List R),
      (∀ t ∈ ts, t < rewards.length) →
      (ts.foldl (vanillaStep rewards values gamma lambd) (state, advRev)).2 =
        advRev ++ scan (gamma * lambd) state
          (ts.map fun t => (tdErrors gamma rewards values).getD t 0) := by
    intro ts
    induction ts with
    | nil => simp [scan]
    | cons t ts ih =>
      intro state advRev hts
      have ht := hts t List.mem_cons_self
      have hnext : (if t < rewards.length - 1 then values.getD (t + 1) 0 else 0) =
          values.getD (t + 1) 0 := by
        split
        · rfl
        · rw [List.getD_eq_default _ _ (by omega)]
      have hdelta : (tdErrors gamma rewards values).getD t 0 =
          rewards.getD t 0 + gamma * values.getD (t + 1) 0 - values.getD t 0 := by
        rw [List.getD_eq_getElem?_getD, getElem?_tdErrors h ht]
        rfl
      have hstep : vanillaStep rewards values gamma lambd (state, advRev) t =
          ((tdErrors gamma rewards values).getD t 0 + gamma * lambd * state,
            advRev ++ [(tdErrors gamma rewards values).getD t 0 + gamma * lambd * state]) := by
        simp only [vanillaStep, hnext, hdelta]
      rw [List.foldl_cons, hstep, ih _ _ fun t' ht' => hts t' (List.mem_cons_of_mem _ ht'),
        List.map_cons, scan, List.append_assoc, List.singleton_append]
  have herrors : (List.range rewards.length).map
      (fun t => (tdErrors gamma rewards values).getD t 0) = tdErrors gamma rewards values := by
    apply List.ext_getElem
    · rw [List.length_map, List.length_range, length_tdErrors h]
    · intro t _ ht
      rw [List.getElem_map, List.getElem_range, List.getD_eq_getElem _ _ ht]
  have hadv : ((List.range rewards.length).reverse.foldl
      (vanillaStep rewards values gamma lambd) (0, [])).2.reverse =
      gae gamma lambd rewards values := by
    rw [hloop _ 0 [] (by simp), List.nil_append, List.map_reverse, herrors, scan_reverse,
      gae_eq_backward]
  simp only [vanillaGae, hadv]

/-! ## The chunks -/

variable [DecidableEq R] {chunkSize : Nat}

theorem scanMatrix_eq (w : R) (row col : Nat) :
    scanMatrix w row col = if row ≤ col then w ^ (col - row) else 0 := by
  rw [scanMatrix]
  by_cases hle : row ≤ col
  · rw [if_pos hle, if_pos hle]
    by_cases hw : w = 0
    · rw [if_pos hw, hw, zero_pow_eq]
    · rw [if_neg hw]
  · rw [if_neg hle, if_neg hle]

theorem powVec_eq (w : R) (t : Nat) : powVec w t = w ^ (t + 1) := by
  rw [powVec]
  split
  · rename_i hw
    rw [hw, zero_pow (Nat.succ_ne_zero t)]
  · rfl

/-- The product with the matrix is the recurrence inside the chunk. -/
theorem chunkMatmul_eq (w : R) {chunk : List R} (h : chunk.length = chunkSize) :
    chunkMatmul w chunkSize chunk = scan w 0 chunk := by
  apply List.ext_getElem?
  intro t
  by_cases ht : t < chunkSize
  · rw [getElem?_scan w 0 chunk (h ▸ ht), chunkMatmul, List.getElem?_map, List.getElem?_range ht,
      Option.map_some, zero_mul, add_zero]
    congr 1
    -- the rows after the column have no part in it
    have hsub : Finset.range (t + 1) ⊆ Finset.range chunkSize := by
      intro k hk
      rw [Finset.mem_range] at hk ⊢
      omega
    rw [← Finset.sum_subset hsub]
    · apply Finset.sum_congr rfl
      intro k hk
      rw [Finset.mem_range] at hk
      rw [scanMatrix_eq, if_pos (by omega)]
    · intro k _ hk
      rw [Finset.mem_range, Nat.not_lt] at hk
      rw [scanMatrix_eq, if_neg (by omega), mul_zero]
  · rw [List.getElem?_eq_none (by simpa [chunkMatmul] using ht),
      List.getElem?_eq_none (by simpa [h] using ht)]

/-- A turn of the loop over the chunks: the recurrence, from where it stands to the end of the chunk
    or of the row. -/
theorem chunkStep_eq (w : R) (deltas : List R) {pad nChunks c : Nat} (hchunk : 0 < chunkSize)
    (hpad : pad < chunkSize) (hlen : deltas.length + pad = nChunks * chunkSize) (hc : c < nChunks) :
    chunkStep w chunkSize nChunks pad (deltas ++ List.replicate pad 0)
        (scan w 0 (deltas.take (c * chunkSize)) ++
          List.replicate (deltas.length + pad - min (c * chunkSize) deltas.length) 0,
          final w 0 (deltas.take (c * chunkSize))) c =
      (scan w 0 (deltas.take ((c + 1) * chunkSize)) ++
        List.replicate (deltas.length + pad - min ((c + 1) * chunkSize) deltas.length) 0,
        final w 0 (deltas.take ((c + 1) * chunkSize))) := by
  -- the chunk, without what is padded
  obtain ⟨length, hlength, hpos, hstop, hfits⟩ : ∃ length, (if 0 < pad ∧ c = nChunks - 1 then
      chunkSize - pad else chunkSize) = length ∧ 0 < length ∧
      c * chunkSize + length = min ((c + 1) * chunkSize) deltas.length ∧ length ≤ chunkSize := by
    have hnext : (c + 1) * chunkSize = c * chunkSize + chunkSize := Nat.succ_mul _ _
    refine ⟨_, rfl, ?_⟩
    by_cases hlast : c = nChunks - 1
    · have hend : nChunks * chunkSize = c * chunkSize + chunkSize := by
        rw [← hnext, hlast]
        congr 1
        omega
      split <;> omega
    · have hend : (c + 2) * chunkSize ≤ nChunks * chunkSize :=
        Nat.mul_le_mul_right chunkSize (by omega)
      have htwo : (c + 2) * chunkSize = c * chunkSize + 2 * chunkSize := Nat.add_mul _ _ _
      rw [if_neg fun h => hlast h.2]
      omega
  have hroom : c * chunkSize + chunkSize ≤ deltas.length + pad := by
    rw [hlen, ← Nat.succ_mul]
    exact Nat.mul_le_mul_right chunkSize hc
  simp only [chunkStep, hlength]
  generalize (c + 1) * chunkSize = next at hstop ⊢
  generalize c * chunkSize = start at hstop hroom ⊢
  have hle : start + length ≤ deltas.length := hstop ▸ Nat.min_le_right _ _
  have hscan : (scan w 0 (deltas.take start)).length = start := by
    rw [length_scan, List.length_take, Nat.min_eq_left (by omega)]
  have hlocal : (chunkMatmul w chunkSize
      (((deltas ++ List.replicate pad 0).drop start).take chunkSize)).take length =
      scan w 0 ((deltas.drop start).take length) := by
    rw [chunkMatmul_eq w (by simp; omega), scan_take, List.take_take, Nat.min_eq_left hfits,
      List.drop_append_of_le_length (by omega), List.take_append_of_le_length (by simp; omega)]
  have hglobal : (scan w 0 ((deltas.drop start).take length)).mapIdx
      (fun t y => y + final w 0 (deltas.take start) * powVec w t) =
      scan w (final w 0 (deltas.take start)) ((deltas.drop start).take length) := by
    rw [scan_eq_mapIdx w (final w 0 (deltas.take start))]
    simp only [powVec_eq]
  have hnext : deltas.take next = deltas.take start ++ (deltas.drop start).take length := by
    rw [← List.take_add, hstop, ← List.take_eq_take_min]
  rw [hlocal, hglobal, hnext, scan_append, final_append]
  congr 1
  · rw [List.take_left' hscan, ← hstop, Nat.min_eq_left (by omega)]
    congr 1
    rw [← List.drop_drop, List.drop_left' hscan, List.drop_replicate]
    congr 1
    omega
  · -- the chunk is not empty
    have hne : (deltas.drop start).take length ≠ [] := by
      rw [← List.length_pos_iff, List.length_take, List.length_drop]
      omega
    obtain ⟨y, ys, hys⟩ := List.exists_cons_of_ne_nil hne
    rw [hys]
    rfl

/-- The chunked estimator is the recursion. -/
theorem chunkedGae_eq (hchunk : 0 < chunkSize) (h : values.length = rewards.length) :
    chunkedGae rewards values gamma lambd chunkSize =
      (gae gamma lambd rewards values,
        List.zipWith (· + ·) (gae gamma lambd rewards values) values) := by
  have hdeltas : List.zipWith (· - ·) (List.zipWith (fun reward nextValue =>
      reward + gamma * nextValue) rewards (values.drop 1 ++ [0])) values =
      tdErrors gamma rewards values := by
    clear hchunk
    induction rewards generalizing values with
    | nil => rfl
    | cons reward rewards ih =>
      cases values with
      | nil => cases h
      | cons value values =>
        rw [tdErrors, ← ih (by simpa using h)]
        cases values with
        | nil =>
          obtain rfl := List.eq_nil_of_length_eq_zero (show rewards.length = 0 by simpa using h.symm)
          rfl
        | cons _ _ => rfl
  have hlength : (tdErrors gamma rewards values).length = rewards.length := length_tdErrors h
  obtain ⟨pad, hpadding, hpad, hdvd⟩ : ∃ pad, (if rewards.length % chunkSize ≠ 0 then
      chunkSize - rewards.length % chunkSize else 0) = pad ∧ pad < chunkSize ∧
      chunkSize ∣ rewards.length + pad := by
    have hmod := Nat.mod_lt rewards.length hchunk
    have hdiv := Nat.div_add_mod rewards.length chunkSize
    refine ⟨_, rfl, ?_⟩
    split
    · refine ⟨by omega, rewards.length / chunkSize + 1, ?_⟩
      rw [Nat.mul_succ]
      omega
    · refine ⟨hchunk, Nat.dvd_of_mod_eq_zero ?_⟩
      rw [Nat.add_zero]
      omega
  obtain ⟨nChunks, hchunks⟩ := hdvd
  rw [Nat.mul_comm] at hchunks
  -- the loop has run the recurrence as far as it has come
  have hloop : ∀ (w : R), ∀ n ≤ nChunks, (List.range n).foldl (chunkStep w chunkSize nChunks pad
      ((tdErrors gamma rewards values).reverse ++ List.replicate pad 0))
      (List.replicate (rewards.length + pad) 0, 0) =
      (scan w 0 ((tdErrors gamma rewards values).reverse.take (n * chunkSize)) ++
        List.replicate (rewards.length + pad - min (n * chunkSize) rewards.length) 0,
        final w 0 ((tdErrors gamma rewards values).reverse.take (n * chunkSize))) := by
    intro w n
    induction n with
    | zero =>
      intro _
      simp [scan, final]
    | succ n ih =>
      intro hn
      have hstep := chunkStep_eq w (tdErrors gamma rewards values).reverse hchunk hpad
        (by rw [List.length_reverse, hlength, hchunks]) hn
      rw [List.length_reverse, hlength] at hstep
      rw [List.range_succ, List.foldl_append, ih (by omega), List.foldl_cons, hstep,
        List.foldl_nil]
  have hpadded : ((tdErrors gamma rewards values).reverse ++ List.replicate pad 0).length =
      rewards.length + pad := by
    rw [List.length_append, List.length_reverse, hlength, List.length_replicate]
  have hall : (tdErrors gamma rewards values).reverse.take (nChunks * chunkSize) =
      (tdErrors gamma rewards values).reverse := by
    apply List.take_of_length_le
    rw [List.length_reverse, hlength]
    omega
  have hscan : (scan (gamma * lambd) 0 (tdErrors gamma rewards values).reverse).length =
      rewards.length := by
    rw [length_scan, List.length_reverse, hlength]
  have hrev := hloop (gamma * lambd) nChunks (Nat.le_refl _)
  rw [hall, Nat.min_eq_right (by omega), Nat.add_sub_cancel_left] at hrev
  have hadv : (if 0 < pad then (scan (gamma * lambd) 0 (tdErrors gamma rewards values).reverse ++
      List.replicate pad 0).take rewards.length else
      scan (gamma * lambd) 0 (tdErrors gamma rewards values).reverse ++ List.replicate pad 0) =
      scan (gamma * lambd) 0 (tdErrors gamma rewards values).reverse := by
    split
    · exact List.take_left' hscan
    · rw [show pad = 0 by omega, List.replicate_zero, List.append_nil]
  unfold chunkedGae
  simp only [hdeltas, hpadding, hpadded]
  rw [show (rewards.length + pad) / chunkSize = nChunks by
    rw [hchunks, Nat.mul_div_cancel _ hchunk], hrev]
  dsimp only
  rw [hadv, scan_reverse, gae_eq_backward]

/-! ## The batch -/

namespace GaeSample

variable (s : GaeSample R)

/-- The entries of a response at the trainable positions. -/
def trainablePart (full : List R) : List R := s.trainableIndices.map (full.getD · 0)

/-- The rewards at the trainable positions, with the terminal reward at the last one. -/
def trainableRewards (rewards : List R) : List R :=
  (s.trainablePart rewards).modify (s.trainableIndices.length - 1) (· + s.terminalReward)

/-- The advantages of a sample: the recursion over its trainable positions. -/
def trainableGae (gamma lambd : R) (values rewards : List R) : List R :=
  gae gamma lambd (s.trainableRewards rewards) (s.trainablePart values)

/-- A response with the given entries at the trainable positions, in order, and zeros at the masked
    ones. -/
structure Scattered (packed full : List R) : Prop where
  length : full.length = s.responseLength
  trainable : ∀ m < s.trainableIndices.length,
    full.getD (s.trainableIndices.getD m 0) 0 = packed.getD m 0
  masked : ∀ j < s.responseLength, s.lossMask.getD j 0 = 0 → full.getD j 0 = 0

/-- The tensors are the parts of the ranks of a response. -/
structure SpreadOver (cpSize : Nat) (qkvFormat : QkvFormat) (full : List R)
    (tensors : List (List R)) : Prop where
  full_length : full.length = s.responseLength
  ranks : tensors.length = cpSize
  parts : ∀ rank < cpSize, sliceLogProbWithCp full s.totalLength s.responseLength qkvFormat
    (s.layoutLen cpSize qkvFormat) ⟨rank, cpSize⟩ = .ok (tensors.getD rank [])

/-- Under context parallelism a sample has a prompt, and fits the padded length. -/
def Fits (cpSize : Nat) (qkvFormat : QkvFormat) : Prop :=
  1 < cpSize → s.responseLength < s.totalLength ∧
    (qkvFormat = .bshd → ∃ m, s.maxSeqLen = some m ∧ s.totalLength ≤ m)

omit [CommRing R] [DecidableEq R] in
theorem mem_trainableIndices {s : GaeSample R} {j : Nat} :
    j ∈ s.trainableIndices ↔ j < s.responseLength ∧ s.lossMask.getD j 0 ≠ 0 := by
  rw [trainableIndices, List.mem_filter, List.mem_range, decide_eq_true_eq, List.length_take,
    List.getD_eq_getElem?_getD, List.getD_eq_getElem?_getD]
  constructor
  · intro h
    obtain ⟨hlt, hne⟩ := h
    rw [List.getElem?_take_of_lt (by omega)] at hne
    exact ⟨by omega, hne⟩
  · intro h
    obtain ⟨hlt, hne⟩ := h
    have hmask : j < s.lossMask.length := by
      by_contra hge
      rw [List.getElem?_eq_none (by omega)] at hne
      exact hne rfl
    rw [List.getElem?_take_of_lt hlt]
    exact ⟨by omega, hne⟩

omit [CommRing R] [DecidableEq R] in
theorem nodup_trainableIndices : s.trainableIndices.Nodup := List.nodup_range.filter _

variable {s} {cpSize : Nat} {qkvFormat : QkvFormat} {full : List R} {tensors : List (List R)}

omit [CommRing R] [DecidableEq R] in
/-- Under context parallelism a sample has a zigzag layout. -/
theorem Fits.layout (h : s.Fits cpSize qkvFormat) (hcp : 1 < cpSize) :
    ∃ l : CpLayout, l.totalLength = s.totalLength ∧ l.responseLength = s.responseLength ∧
      l.qkvFormat = qkvFormat ∧ l.maxSeqLen = s.layoutLen cpSize qkvFormat ∧
      l.cpSize = cpSize := by
  obtain ⟨hprompt, hpadded⟩ := h hcp
  apply exists_layout hcp hprompt
  intro hfmt
  obtain ⟨m, hm, hle⟩ := hpadded hfmt
  exact ⟨m, by rw [layoutLen, if_pos ⟨hcp, hfmt⟩, hm], hle⟩

omit [DecidableEq R] in
/-- Gathering gives the response back. -/
theorem SpreadOver.gathered (h : s.SpreadOver cpSize qkvFormat full tensors)
    (hpos : 0 < cpSize) (hfits : s.Fits cpSize qkvFormat) :
    s.gathered tensors cpSize qkvFormat = .ok full := by
  rw [GaeSample.gathered]
  by_cases hcp : 1 < cpSize
  · obtain ⟨l, htotal, hresponse, hfmt, hmax, hsize⟩ := hfits.layout hcp
    have hlen : full.length = l.responseLength := h.full_length.trans hresponse.symm
    have htensors : tensors = (List.range l.cpSize).map (l.piece full) := by
      apply List.ext_getElem
      · rw [List.length_map, List.length_range, h.ranks, hsize]
      · intro rank hrank _
        have hlt : rank < l.cpSize := by rw [hsize, ← h.ranks]; exact hrank
        have hpart := h.parts rank (hsize ▸ hlt)
        rw [← htotal, ← hresponse, ← hmax, ← hfmt, ← hsize, l.sliceLogProbWithCp_eq hlen hlt,
          List.getD_eq_getElem _ _ hrank] at hpart
        rw [List.getElem_map, List.getElem_range]
        exact (Except.ok.inj hpart).symm
    rw [if_pos hcp, htensors, ← htotal, ← hresponse, ← hmax, ← hfmt, l.allGatherWithCp_eq hlen]
    rfl
  · obtain rfl : cpSize = 1 := by omega
    obtain ⟨tensor, rfl⟩ := List.length_eq_one_iff.mp h.ranks
    have hpart := h.parts 0 (by decide)
    simp only [sliceLogProbWithCp, h.full_length, ne_eq, not_true_eq_false, if_false, if_true]
      at hpart
    rw [if_neg hcp]
    exact congrArg Except.ok (Except.ok.inj hpart).symm

end GaeSample

omit [CommRing R] [DecidableEq R] in
theorem pick_eq [Zero R] {tensor : List R} {indices : List Nat}
    (h : ∀ i ∈ indices, i < tensor.length) :
    pick tensor indices = .ok (indices.map (tensor.getD · 0)) := by
  apply Except.mapM_of_ok
  intro i hi
  rw [List.getElem?_eq_getElem (h i hi), List.getD_eq_getElem _ _ (h i hi)]

omit [DecidableEq R] in
/-- What is written at distinct positions is there, and the rest stays. -/
theorem getD_foldl_set {indices : List Nat} {packed acc : List R} (hnodup : indices.Nodup)
    (hlt : ∀ i ∈ indices, i < acc.length) (hlen : packed.length = indices.length) :
    ((indices.zip packed).foldl (fun full x => full.set x.1 x.2) acc).length = acc.length ∧
      (∀ m < indices.length, ((indices.zip packed).foldl (fun full x => full.set x.1 x.2)
        acc).getD (indices.getD m 0) 0 = packed.getD m 0) ∧
      ∀ j, j ∉ indices → ((indices.zip packed).foldl (fun full x => full.set x.1 x.2) acc).getD j 0 =
        acc.getD j 0 := by
  induction indices generalizing packed acc with
  | nil => simp
  | cons i indices ih =>
    cases packed with
    | nil => cases hlen
    | cons y packed =>
      obtain ⟨hi, hnodup⟩ := List.nodup_cons.mp hnodup
      have hset : ∀ j ∈ indices, j < (acc.set i y).length := by
        intro j hj
        rw [List.length_set]
        exact hlt j (List.mem_cons_of_mem _ hj)
      have hcount : packed.length = indices.length := by simpa using hlen
      obtain ⟨hlength, hget, hrest⟩ := ih hnodup hset hcount
      rw [List.zip_cons_cons, List.foldl_cons]
      refine ⟨by rw [hlength, List.length_set], ?_, ?_⟩
      · intro m hm
        cases m with
        | zero =>
          have hbound := hlt i List.mem_cons_self
          rw [List.getD_cons_zero, hrest i hi, List.getD_eq_getElem _ _ (by simpa using hbound),
            List.getElem_set_self, List.getD_cons_zero]
        | succ m =>
          rw [List.getD_cons_succ, List.getD_cons_succ]
          exact hget m (by simpa using hm)
      · intro j hj
        rw [List.mem_cons, not_or] at hj
        rw [hrest j hj.2, List.getD_eq_getElem?_getD, List.getElem?_set_ne (Ne.symm hj.1),
          List.getD_eq_getElem?_getD]

omit [DecidableEq R] in
/-- The entries of the trainable positions are scattered back to them. -/
theorem scatter_scattered {s : GaeSample R} {packed : List R}
    (hlen : packed.length = s.trainableIndices.length) :
    s.Scattered packed (scatter s.responseLength s.trainableIndices packed) := by
  have hlt : ∀ i ∈ s.trainableIndices, i < (List.replicate s.responseLength (0 : R)).length := by
    intro i hi
    rw [List.length_replicate]
    exact (GaeSample.mem_trainableIndices.mp hi).1
  obtain ⟨hlength, hget, hrest⟩ := getD_foldl_set s.nodup_trainableIndices hlt hlen
  refine ⟨by rw [scatter, hlength, List.length_replicate], hget, ?_⟩
  intro j hj hmask
  have hout : j ∉ s.trainableIndices := fun hmem =>
    (GaeSample.mem_trainableIndices.mp hmem).2 hmask
  rw [scatter, hrest j hout, List.getD_replicate _ hj]

theorem le_foldl_max {ns : List Nat} {n acc : Nat} (h : n ∈ ns ∨ n ≤ acc) :
    n ≤ ns.foldl max acc := by
  induction ns generalizing acc with
  | nil => simpa using h
  | cons m ns ih =>
    rw [List.foldl_cons]
    apply ih
    rcases h with h | h
    · rcases List.mem_cons.mp h with rfl | h
      · exact .inr (Nat.le_max_right _ _)
      · exact .inl h
    · exact .inr (h.trans (Nat.le_max_left _ _))

omit [CommRing R] [DecidableEq R] in
/-- The part of a rank is its slice of the response, which there is. -/
theorem localPart_eq {s : GaeSample R} {cp : CpState} {qkvFormat : QkvFormat} {full : List R}
    (hrank : cp.rank < cp.size) (hfits : s.Fits cp.size qkvFormat)
    (hlen : full.length = s.responseLength) :
    ∃ part, localPart s full qkvFormat cp = .ok part ∧
      sliceLogProbWithCp full s.totalLength s.responseLength qkvFormat
        (s.layoutLen cp.size qkvFormat) cp = .ok part := by
  by_cases hcp : 1 < cp.size
  · obtain ⟨l, htotal, hresponse, hfmt, hmax, hsize⟩ := hfits.layout hcp
    have hslice := l.sliceLogProbWithCp_eq (hlen.trans hresponse.symm) (hsize.symm ▸ hrank)
    rw [htotal, hresponse, hmax, hfmt, hsize] at hslice
    refine ⟨_, ?_, hslice⟩
    rw [localPart, if_pos hcp, hslice]
    rfl
  · refine ⟨full, by rw [localPart, if_neg hcp], ?_⟩
    have hone : cp.size = 1 := by omega
    simp only [sliceLogProbWithCp, hlen, hone, ne_eq, not_true_eq_false, if_false, if_true]
    rfl

omit [DecidableEq R] in
/-- A batch row is a sample's row with zeros after it, and its advantages begin with the sample's. -/
theorem gae_padRow {rewards values : List R} (maxLen : Nat) (gamma lambd : R)
    (h : values.length = rewards.length) :
    (gae gamma lambd (padRow maxLen rewards) (padRow maxLen values)).take rewards.length =
        gae gamma lambd rewards values ∧
      (List.zipWith (· + ·) (gae gamma lambd (padRow maxLen rewards) (padRow maxLen values))
        (padRow maxLen values)).take rewards.length =
        List.zipWith (· + ·) (gae gamma lambd rewards values) values := by
  have hpadded : gae gamma lambd (padRow maxLen rewards) (padRow maxLen values) =
      gae gamma lambd rewards values ++ List.replicate (maxLen - rewards.length) 0 := by
    rw [padRow, padRow, h, gae_append_zeros h]
  have hgae : (gae gamma lambd rewards values).length = rewards.length := length_gae h
  rw [hpadded]
  refine ⟨List.take_left' hgae, ?_⟩
  rw [padRow, List.zipWith_append (hgae.trans h.symm)]
  apply List.take_left'
  rw [List.length_zipWith, hgae, h, Nat.min_self]

/-- Both estimators compute the recursion for every chunk size.  A batch of samples whose tensors
    are spread over the ranks gets, on every rank, its slices of the advantages and the returns of
    every sample: the recursion over the trainable positions of that sample alone, with the
    terminal reward at the last of them, and zeros at the masked ones. -/
theorem getAdvantagesAndReturnsBatch_gae (gamma lambd : R) :
    (∀ (rewards values : List R) (chunkSize : Nat), values.length = rewards.length →
      0 < chunkSize →
      chunkedGae rewards values gamma lambd chunkSize = vanillaGae rewards values gamma lambd ∧
      vanillaGae rewards values gamma lambd = (gae gamma lambd rewards values,
        List.zipWith (· + ·) (gae gamma lambd rewards values) values)) ∧
    ∀ (batch : List (GaeSample R × List R × List R)) (qkvFormat : QkvFormat) (cp : CpState)
      (chunked : Bool), cp.rank < cp.size →
      (∀ x ∈ batch, x.1.Fits cp.size qkvFormat ∧
        x.1.SpreadOver cp.size qkvFormat x.2.1 x.1.values ∧
        x.1.SpreadOver cp.size qkvFormat x.2.2 x.1.rewards) →
      (batch = [] → getAdvantagesAndReturnsBatch (batch.map Prod.fst) qkvFormat cp gamma lambd
        chunked = .error .emptyBatch) ∧
      (batch ≠ [] → ∃ results, getAdvantagesAndReturnsBatch (batch.map Prod.fst) qkvFormat cp gamma
          lambd chunked = .ok results ∧
        List.Forall₂ (fun x result => ∃ advantages returns,
          x.1.Scattered (x.1.trainableGae gamma lambd x.2.1 x.2.2) advantages ∧
          x.1.Scattered (List.zipWith (· + ·) (x.1.trainableGae gamma lambd x.2.1 x.2.2)
            (x.1.trainablePart x.2.1)) returns ∧
          sliceLogProbWithCp advantages x.1.totalLength x.1.responseLength qkvFormat
            (x.1.layoutLen cp.size qkvFormat) cp = .ok result.1 ∧
          sliceLogProbWithCp returns x.1.totalLength x.1.responseLength qkvFormat
            (x.1.layoutLen cp.size qkvFormat) cp = .ok result.2) batch results) := by
  constructor
  · intro rewards values chunkSize h hchunk
    exact ⟨(chunkedGae_eq hchunk h).trans (vanillaGae_eq h).symm, vanillaGae_eq h⟩
  intro batch qkvFormat cp chunked hrank hbatch
  constructor
  · rintro rfl
    simp only [getAdvantagesAndReturnsBatch, List.map_nil, List.not_mem_nil, false_and,
      exists_false, and_false, if_false, if_true]
    rfl
  intro hne
  have hpos : 0 < cp.size := by omega
  have hmax : ¬ (1 < cp.size ∧ qkvFormat = .bshd ∧
      ∃ s ∈ batch.map Prod.fst, s.maxSeqLen = none) := by
    intro h
    obtain ⟨hcp, hfmt, s, hs, hnone⟩ := h
    obtain ⟨x, hx, rfl⟩ := List.mem_map.mp hs
    obtain ⟨m, hm, -⟩ := ((hbatch x hx).1 hcp).2 hfmt
    rw [hnone] at hm
    cases hm
  have hnil : batch.map Prod.fst ≠ [] := by simpa using hne
  -- every sample is packed by itself
  have hpack : ∀ x ∈ batch, packSample x.1 cp.size qkvFormat =
      .ok (x.1.trainablePart x.2.1, x.1.trainableRewards x.2.2) := by
    intro x hx
    obtain ⟨hfits, hvalues, hrewards⟩ := hbatch x hx
    have hbound : ∀ full : List R, full.length = x.1.responseLength →
        ∀ i ∈ x.1.trainableIndices, i < full.length := by
      intro full hlen i hi
      rw [hlen]
      exact (GaeSample.mem_trainableIndices.mp hi).1
    simp only [packSample, hvalues.gathered hpos hfits, hrewards.gathered hpos hfits,
      Except.ok_bind, pick_eq (hbound _ hvalues.full_length),
      pick_eq (hbound _ hrewards.full_length)]
    rfl
  have hpacked : (batch.map Prod.fst).mapM (fun s => packSample s cp.size qkvFormat) =
      .ok (batch.map fun x => (x.1.trainablePart x.2.1, x.1.trainableRewards x.2.2)) := by
    rw [Except.mapM_eq_ok, List.forall₂_map_left_iff, List.forall₂_map_right_iff,
      List.forall₂_same]
    exact hpack
  simp only [getAdvantagesAndReturnsBatch, if_neg hmax, if_neg hnil, hpacked, Except.ok_bind]
  rw [List.zip_map', List.mapM_map]
  apply Except.exists_mapM_forall₂
  intro x hx
  obtain ⟨hfits, -, -⟩ := hbatch x hx
  have hvalues : (x.1.trainablePart x.2.1).length = x.1.trainableIndices.length := by
    rw [GaeSample.trainablePart, List.length_map]
  have hrewards : (x.1.trainableRewards x.2.2).length = x.1.trainableIndices.length := by
    rw [GaeSample.trainableRewards, List.length_modify, GaeSample.trainablePart, List.length_map]
  have hsame := hvalues.trans hrewards.symm
  have hlen : (x.1.trainableGae gamma lambd x.2.1 x.2.2).length = x.1.trainableIndices.length :=
    (length_gae hsame).trans hrewards
  have hlen' : (List.zipWith (· + ·) (x.1.trainableGae gamma lambd x.2.1 x.2.2)
      (x.1.trainablePart x.2.1)).length = x.1.trainableIndices.length := by
    rw [List.length_zipWith, hlen, hvalues, Nat.min_self]
  -- what the rest of the batch pads a row with is cut off again
  generalize hmaxLen : ((batch.map Prod.fst).map (·.trainableIndices.length)).foldl max 0 = maxLen
  have hle : x.1.trainableIndices.length ≤ maxLen := by
    rw [← hmaxLen]
    apply le_foldl_max
    exact .inl (List.mem_map_of_mem (List.mem_map_of_mem hx))
  obtain ⟨hadv, hret⟩ := gae_padRow maxLen gamma lambd hsame
  rw [hrewards] at hadv hret
  have hrow : (padRow maxLen (x.1.trainablePart x.2.1)).length =
      (padRow maxLen (x.1.trainableRewards x.2.2)).length := by
    rw [padRow, padRow, List.length_append, List.length_append, List.length_replicate,
      List.length_replicate, hsame]
  obtain ⟨rows, hrows, htakeAdv, htakeRet⟩ : ∃ rows : List R × List R,
      (if maxLen = 0 then ([], [])
        else if chunked = true then chunkedGae (padRow maxLen (x.1.trainableRewards x.2.2))
          (padRow maxLen (x.1.trainablePart x.2.1)) gamma lambd 128
        else vanillaGae (padRow maxLen (x.1.trainableRewards x.2.2))
          (padRow maxLen (x.1.trainablePart x.2.1)) gamma lambd) = rows ∧
      rows.1.take x.1.trainableIndices.length = x.1.trainableGae gamma lambd x.2.1 x.2.2 ∧
      rows.2.take x.1.trainableIndices.length = List.zipWith (· + ·)
        (x.1.trainableGae gamma lambd x.2.1 x.2.2) (x.1.trainablePart x.2.1) := by
    refine ⟨_, rfl, ?_⟩
    by_cases hzero : maxLen = 0
    · rw [if_pos hzero]
      have hnone : x.1.trainableIndices.length = 0 := by omega
      rw [List.eq_nil_of_length_eq_zero (hlen'.trans hnone),
        List.eq_nil_of_length_eq_zero (hlen.trans hnone)]
      exact ⟨List.take_nil, List.take_nil⟩
    · rw [if_neg hzero, chunkedGae_eq (by decide) hrow, vanillaGae_eq hrow, ite_self]
      exact ⟨hadv, hret⟩
  have hscattered := scatter_scattered hlen
  have hscattered' := scatter_scattered hlen'
  obtain ⟨part, hpart, hslice⟩ := localPart_eq hrank hfits hscattered.length
  obtain ⟨part', hpart', hslice'⟩ := localPart_eq hrank hfits hscattered'.length
  refine ⟨(part, part'), ?_, _, _, hscattered, hscattered', hslice, hslice'⟩
  rw [Function.comp_apply]
  dsimp only
  rw [hrows, htakeAdv, htakeRet, hpart, hpart']
  rfl

/-- Six tokens with two masked ones, spread over two ranks -/
def sixTokenSample : GaeSample Int :=
  ⟨8, 6, none, [[1, 6], [2, 3, 4, 5]], [[0, 0], [0, 0, 0, 0]], 4, [1, 0, 1, 1, 0, 1]⟩

/-- Three tokens that are all trained, spread over two ranks -/
def threeTokenSample : GaeSample Int := ⟨5, 3, none, [[1], [2, 6]], [[0], [0, 0]], 2, [1, 1, 1]⟩

theorem getAdvantagesAndReturnsBatch_gae_twoRanks :
    ∃ first second, getAdvantagesAndReturnsBatch [sixTokenSample, threeTokenSample] .thd ⟨1, 2⟩
        1 1 true = .ok [first, second] ∧
      ∃ advantages, sixTokenSample.Scattered [3, 1, 0, -2] advantages ∧
        sliceLogProbWithCp advantages 8 6 .thd none ⟨1, 2⟩ = .ok first.1 := by
  have hbatch : ∀ x ∈ [(sixTokenSample, ([1, 2, 3, 4, 5, 6] : List Int), [0, 0, 0, 0, 0, 0]),
      (threeTokenSample, [1, 2, 6], [0, 0, 0])], x.1.Fits 2 .thd ∧
      x.1.SpreadOver 2 .thd x.2.1 x.1.values ∧ x.1.SpreadOver 2 .thd x.2.2 x.1.rewards := by
    intro x hx
    obtain rfl | rfl := List.mem_pair.mp hx
    · exact ⟨fun _ => ⟨by decide, fun h => by cases h⟩, ⟨rfl, rfl, by decide⟩,
        ⟨rfl, rfl, by decide⟩⟩
    · exact ⟨fun _ => ⟨by decide, fun h => by cases h⟩, ⟨rfl, rfl, by decide⟩,
        ⟨rfl, rfl, by decide⟩⟩
  obtain ⟨results, hok, hresults⟩ := ((getAdvantagesAndReturnsBatch_gae (1 : Int) 1).2 _ .thd
    ⟨1, 2⟩ true (by decide) hbatch).2 (by simp)
  obtain _ | ⟨hfirst, _ | ⟨-, _ | _⟩⟩ := hresults
  obtain ⟨advantages, -, hscattered, -, hslice, -⟩ := hfirst
  exact ⟨_, _, hok, advantages, hscattered, hslice⟩

end Miles.Gae
