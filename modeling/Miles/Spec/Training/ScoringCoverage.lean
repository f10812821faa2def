import Miles.Spec.Training.ResponseRows

/-!
# Context-parallel scoring covers every response once

Every layout gives a rank one or two chunks of each sample, and the chunks of all ranks
tile the sample.  So the ranks together score every response token once, each from the
row that holds the token before it.
-/

namespace Miles.ContextParallel

open PyList

variable {α : Type}

/-! ### Packed batches -/

/-- A batch that `get_batch` accepts, in one of the layouts. -/
structure PackedBatch (α : Type) where
  samples : List (Sample α)
  qkvFormat : QkvFormat
  allgatherCp : Bool
  cpSize : Nat
  maxSeqLen : Nat
  padSize : Nat
  pad : α
  nonempty : samples ≠ []
  cpSize_pos : 0 < cpSize
  padSize_pos : 0 < padSize
  fits : qkvFormat = .bshd → ∀ s ∈ samples, s.tokens.length ≤ maxSeqLen
  divisible : qkvFormat = .bshd → allgatherCp = true → maxSeqLen % cpSize = 0

namespace PackedBatch

/-- `max_seq_lens`, which only bshd batches have. -/
def maxSeqLens (b : PackedBatch α) : Option (List Nat) :=
  match b.qkvFormat with
  | .bshd => some (List.replicate b.samples.length b.maxSeqLen)
  | .thd => none

/-- The flattened local tokens of a rank. -/
def localTokens (b : PackedBatch α) (rank : Nat) : Except LayoutError (List α) :=
  getBatch (b.samples.map (·.tokens)) b.pad b.padSize b.qkvFormat b.maxSeqLens b.allgatherCp
    { rank, size := b.cpSize }

/-- What a rank with `numRows` local rows calls `iter_local_response_rows` with. -/
def rowsConfig (b : PackedBatch α) (rank numRows : Nat) (includeResponseIndices : Bool) :
    RowsConfig where
  numRows
  qkvFormat := b.qkvFormat
  allgatherCp := b.allgatherCp
  maxSeqLens := b.maxSeqLens
  includeResponseIndices
  cp := { rank, size := b.cpSize }

/-- The rows of a rank, sample by sample. -/
def responseRows (b : PackedBatch α) (rank numRows : Nat) (includeResponseIndices : Bool) :
    Except LayoutError (List (LocalResponseRows α)) :=
  iterLocalResponseRows (b.rowsConfig rank numRows includeResponseIndices)
    (b.samples.map (·.tokens)) (b.samples.map (·.tokens.length))
    (b.samples.map (·.responseLength))

end PackedBatch

/-! ### Slots of the local tokens -/

variable {s : Sample α}

/-- Padding at the end to `n` elements. -/
theorem padEnd_eq {xs : List α} {n : Nat} (h : xs.length ≤ n) (pad : α) :
    padEnd xs ((n : Int) - xs.length) pad = xs ++ List.replicate (n - xs.length) pad := by
  have hnonneg : ¬ ((n : Int) - xs.length < 0) := by omega
  have hcount : ((n : Int) - xs.length).toNat = n - xs.length := by omega
  rw [padEnd, if_neg hnonneg, hcount]

/-- A list that starts with the sample holds all of it. -/
theorem holdsChunk_padded (s : Sample α) (tail : List α) :
    HoldsChunk (s.tokens ++ tail) s 0 0 s.tokens.length where
  bound _ := by
    simp only [List.length_append]
    omega
  holds p _ _ hp := by
    rw [Nat.zero_add, Nat.sub_zero, List.getElem?_append_left hp]

/-- A piece of a list that holds all of a sample from row `base` on: the rows before the
    sample, if any, come first, and the sample's positions before the piece are missing. -/
theorem HoldsChunk.piece {xs : List α} {base : Nat} (h : HoldsChunk xs s base 0 s.tokens.length)
    (start len : Nat) (hlen : start + len ≤ xs.length) :
    HoldsChunk ((xs.drop start).take len) s (base - start) (start - base)
      (start + len - base) where
  bound hlt := by
    simp only [List.length_take, List.length_drop]
    omega
  holds p hlo hhi hp := by
    have hread := h.holds p (Nat.zero_le _) hp hp
    rw [List.getElem?_take_of_lt (by omega), List.getElem?_drop]
    have hidx : start + (base - start + (p - (start - base))) = base + (p - 0) := by omega
    rw [hidx]
    exact hread

/-- Rows keep their content when other rows come before and after them. -/
theorem HoldsChunk.shift {slot : List α} {base lo hi : Nat} (h : HoldsChunk slot s base lo hi)
    (before after : List α) :
    HoldsChunk (before ++ slot ++ after) s (before.length + base) lo hi where
  bound hlt := by
    have hbound := h.bound hlt
    simp only [List.length_append]
    omega
  holds p hlo hhi hp := by
    have hread := h.holds p hlo hhi hp
    have hin : base + (p - lo) < slot.length := by
      have hbound := h.bound (by omega)
      omega
    rw [List.append_assoc, List.getElem?_append_right (by omega),
      List.getElem?_append_left (by omega)]
    have hidx : before.length + base + (p - lo) - before.length = base + (p - lo) := by omega
    rw [hidx]
    exact hread

/-- Where the slot of sample `i` starts. -/
def slotStart (samples : List (Sample α)) (slotLength : Sample α → Nat) (i : Nat) : Nat :=
  ((samples.take i).map slotLength).sum

/-- The next slot starts where the slot before it ends. -/
theorem slotStart_succ {samples : List (Sample α)} (slotLength : Sample α → Nat) {i : Nat}
    (h : samples[i]? = some s) :
    slotStart samples slotLength (i + 1) = slotStart samples slotLength i + slotLength s := by
  simp [slotStart, List.take_add_one, h]

/-- Slots of one length. -/
theorem slotStart_const {samples : List (Sample α)} (slotLength : Sample α → Nat) {n i : Nat}
    (h : ∀ s ∈ samples, slotLength s = n) (hi : i ≤ samples.length) :
    slotStart samples slotLength i = n * i := by
  have hmap : (samples.take i).map slotLength = List.replicate i n := by
    rw [List.eq_replicate_iff]
    refine ⟨by simp [Nat.min_eq_left hi], fun m hm => ?_⟩
    obtain ⟨s, hs, rfl⟩ := List.mem_map.mp hm
    exact h s (List.mem_of_mem_take hs)
  simp [slotStart, hmap, Nat.mul_comm]

/-- The slot of a sample ends within the slots. -/
theorem slotStart_add_le {samples : List (Sample α)} (slot : Sample α → List α) {i : Nat}
    (h : samples[i]? = some s) :
    slotStart samples (fun s => (slot s).length) i + (slot s).length ≤
      (samples.map slot).flatten.length := by
  rw [← slotStart_succ (fun s => (slot s).length) h, slotStart,
    List.length_flatten, List.map_map]
  calc ((samples.take (i + 1)).map fun s => (slot s).length).sum
      ≤ ((samples.take (i + 1)).map fun s => (slot s).length).sum +
        ((samples.drop (i + 1)).map fun s => (slot s).length).sum := Nat.le_add_right _ _
    _ = (samples.map (List.length ∘ slot)).sum := by
        rw [← List.sum_append, ← List.map_append, List.take_append_drop]
        rfl

/-- The slots one after the other hold what every slot holds on its own. -/
theorem HoldsChunk.of_slots {samples : List (Sample α)} (slot : Sample α → List α) {i : Nat}
    (h : samples[i]? = some s) {base lo hi : Nat} (hslot : HoldsChunk (slot s) s base lo hi)
    (tail : List α) :
    HoldsChunk ((samples.map slot).flatten ++ tail) s
      (slotStart samples (fun s => (slot s).length) i + base) lo hi := by
  obtain ⟨hi', heq⟩ := List.getElem?_eq_some_iff.mp h
  have hsplit : (samples.map slot).flatten ++ tail =
      ((samples.take i).map slot).flatten ++ slot s ++
        (((samples.drop (i + 1)).map slot).flatten ++ tail) := by
    conv_lhs => rw [← List.take_append_drop i samples, List.drop_eq_getElem_cons hi', heq]
    simp
  have hlen : slotStart samples (fun s => (slot s).length) i =
      ((samples.take i).map slot).flatten.length := by
    rw [List.length_flatten, List.map_map]
    rfl
  rw [hsplit, hlen]
  exact hslot.shift _ _

/-! ### The loop over the samples -/

/-- If every turn of the loop scores the given tokens of its sample, from any slot start that
    the turns before it can leave, so does the loop. -/
theorem iterLocalResponseRowsFrom_scores {cfg : RowsConfig} {localTokens : List α}
    (hnum : cfg.numRows = localTokens.length) (SlotAt : Nat → Int → Prop) (seqAt : Nat → Int)
    (js : Nat → Sample α → List Nat) (samples : List (Sample α)) (i : Nat)
    (hturn : ∀ k s slot, samples[k]? = some s → SlotAt (i + k) slot → ∃ rows next,
      sampleRows cfg (i + k) slot (seqAt (i + k)) s.tokens s.tokens.length s.responseLength =
        .ok (rows, next) ∧ SlotAt (i + k + 1) next ∧
      Scores localTokens s (js (i + k) s) cfg.includeResponseIndices rows)
    (hseq : ∀ k s, samples[k]? = some s → seqAt (i + k + 1) = seqAt (i + k) + s.tokens.length)
    {slot : Int} (hslot : SlotAt i slot) :
    ∃ outs, iterLocalResponseRowsFrom cfg i slot (seqAt i)
        (samples.map fun s => (s.tokens, s.tokens.length, s.responseLength)) = .ok outs ∧
      outs.length = samples.length ∧
      ∀ k s, samples[k]? = some s → ∃ rows, outs[k]? = some rows ∧
        Scores localTokens s (js (i + k) s) cfg.includeResponseIndices rows := by
  induction samples generalizing i slot with
  | nil => exact ⟨[], rfl, rfl, by simp⟩
  | cons s samples ih =>
    obtain ⟨rows, next, hrows, hnext, hscores⟩ := hturn 0 s slot rfl hslot
    have hassoc : ∀ k, i + (k + 1) = i + 1 + k := fun k => by omega
    obtain ⟨outs, houts, hlen, hall⟩ := ih (i + 1)
      (fun k s' slot' hk hslot' => by
        have hk' := hturn (k + 1) s' slot' (by simpa using hk)
        rw [hassoc k] at hk'
        exact hk' hslot')
      (fun k s' hk => by
        have hk' := hseq (k + 1) s' (by simpa using hk)
        rw [hassoc k] at hk'
        exact hk') hnext
    have hcheck := hscores.checkRows
    have hseq₀ := hseq 0 s rfl
    simp only [Nat.add_zero] at hrows hseq₀
    refine ⟨rows :: outs, ?_, by simp [hlen], fun k s' hk => ?_⟩
    · simp only [List.map_cons, iterLocalResponseRowsFrom, hrows, bind, Except.bind, hnum, hcheck,
        ← hseq₀, houts, pure, Except.pure]
    · cases k with
      | zero =>
        cases hk
        exact ⟨rows, rfl, hscores⟩
      | succ k =>
        obtain ⟨rows', hget, hscores'⟩ := hall k s' (by simpa using hk)
        refine ⟨rows', by simpa using hget, ?_⟩
        rw [hassoc k]
        exact hscores'

/-- The samples as `iter_local_response_rows` receives them. -/
theorem zip_samples (samples : List (Sample α)) :
    (samples.map (·.tokens)).zip
      ((samples.map (·.tokens.length)).zip (samples.map (·.responseLength))) =
    samples.map fun s => (s.tokens, s.tokens.length, s.responseLength) := by
  induction samples with
  | nil => rfl
  | cons s samples ih => simp only [List.map_cons, List.zip_cons_cons, ih]

/-! ### The chunks of a rank -/

/-- The length of the padded stream that all-gather CP cuts into pieces. -/
def padded (length globalPadSize : Nat) : Nat :=
  length + (globalPadSize - length % globalPadSize) % globalPadSize

/-- The padded stream has a whole number of pads. -/
theorem dvd_padded {length globalPadSize : Nat} (hpos : 0 < globalPadSize) :
    globalPadSize ∣ padded length globalPadSize := by
  have hmod := Nat.mod_lt length hpos
  have hdiv := Nat.div_add_mod length globalPadSize
  simp only [padded]
  by_cases hzero : length % globalPadSize = 0
  · rw [hzero, Nat.sub_zero, Nat.mod_self, Nat.add_zero]
    exact Nat.dvd_of_mod_eq_zero hzero
  · rw [Nat.mod_eq_of_lt (by omega : globalPadSize - length % globalPadSize < globalPadSize)]
    refine ⟨length / globalPadSize + 1, ?_⟩
    rw [Nat.mul_add, Nat.mul_one]
    omega

namespace PackedBatch

/-- A rank holds whole samples or all-gather pieces, or two zigzag chunks. -/
def OneChunk (b : PackedBatch α) : Prop := b.cpSize = 1 ∨ b.allgatherCp = true

instance (b : PackedBatch α) : Decidable b.OneChunk :=
  inferInstanceAs (Decidable (_ ∨ _))

/-- How many chunks all ranks have of a sample. -/
def numChunks (b : PackedBatch α) : Nat :=
  if b.OneChunk then b.cpSize else 2 * b.cpSize

/-- The chunks of a rank, in the order of its rows. -/
def chunks (b : PackedBatch α) (rank : Nat) : List Nat :=
  if b.OneChunk then [rank] else [rank, 2 * b.cpSize - rank - 1]

/-- The position of sample `i` at which chunk `k` starts. -/
def boundary (b : PackedBatch α) (i : Nat) (s : Sample α) (k : Nat) : Nat :=
  if b.cpSize = 1 then k * s.tokens.length
  else if b.allgatherCp then
    match b.qkvFormat with
    | .bshd => k * (b.maxSeqLen / b.cpSize)
    | .thd => k * (padded (b.samples.map (·.tokens)).flatten.length (b.cpSize * b.padSize) /
        b.cpSize) - slotStart b.samples (·.tokens.length) i
  else
    match b.qkvFormat with
    | .bshd => k * ((b.maxSeqLen + 2 * b.cpSize - 1) / (2 * b.cpSize))
    | .thd => k * ((s.tokens.length + 2 * b.cpSize - 1) / (2 * b.cpSize))

/-- The response tokens of sample `i` that a rank scores, in the order of its rows. -/
def scored (b : PackedBatch α) (rank i : Nat) (s : Sample α) : List Nat :=
  (b.chunks rank).flatMap fun k => scoredBy s (b.boundary i s k) (b.boundary i s (k + 1))

/-- Zigzag chunks go to the ranks in pairs. -/
theorem perm_zigzag (n : Nat) :
    ((List.range n).flatMap fun r => [r, 2 * n - r - 1]).Perm (List.range (2 * n)) := by
  have hpairs : ∀ (f g : Nat → Nat) (xs : List Nat),
      (xs.flatMap fun r => [f r, g r]).Perm (xs.map f ++ xs.map g) := by
    intro f g xs
    induction xs with
    | nil => exact .nil
    | cons x xs ih =>
      simp only [List.flatMap_cons, List.map_cons, List.cons_append, List.nil_append]
      exact .cons _ ((ih.cons _).trans List.perm_middle.symm)
  have hsecond : (List.range n).map (fun r => 2 * n - r - 1) = (List.range' n n).reverse := by
    rw [List.reverse_range']
    apply List.map_congr_left
    intro r _
    omega
  refine (hpairs id (fun r => 2 * n - r - 1) (List.range n)).trans ?_
  rw [List.map_id, hsecond]
  refine ((List.reverse_perm _).append_left _).trans ?_
  have happend : List.range' 0 n ++ List.range' n n = List.range' 0 (2 * n) := by
    have hjoin := List.range'_append_1 (s := 0) (m := n) (n := n)
    rw [Nat.zero_add, ← Nat.two_mul] at hjoin
    exact hjoin
  rw [List.range_eq_range', List.range_eq_range', happend]

/-- The ranks have every chunk once. -/
theorem perm_chunks (b : PackedBatch α) :
    ((List.range b.cpSize).flatMap b.chunks).Perm (List.range b.numChunks) := by
  unfold chunks numChunks
  by_cases hone : b.OneChunk
  · simp only [if_pos hone, List.flatMap_singleton']
    exact .refl _
  · simp only [if_neg hone]
    exact perm_zigzag b.cpSize

/-- Chunks follow one another. -/
theorem boundary_mono (b : PackedBatch α) (i : Nat) (s : Sample α) :
    Monotone (b.boundary i s) := by
  have hmul : ∀ n : Nat, Monotone fun k => k * n := fun n _ _ h => Nat.mul_le_mul_right n h
  unfold boundary
  split
  · exact hmul _
  · split
    · split
      · exact hmul _
      · exact fun _ _ h => Nat.sub_le_sub_right (hmul _ h) _
    · split <;> exact hmul _

/-- The first chunk starts at the sample's first token or before it. -/
theorem boundary_zero (b : PackedBatch α) (i : Nat) (s : Sample α) : b.boundary i s 0 = 0 := by
  unfold boundary
  split
  · simp
  · split <;> split <;> simp

/-- Rounding up covers. -/
theorem le_mul_ceilDiv {n d : Nat} (hd : 0 < d) : n ≤ d * ((n + d - 1) / d) := by
  have hdiv := Nat.div_add_mod (n + d - 1) d
  have hmod := Nat.mod_lt (n + d - 1) hd
  omega

/-- The last chunk ends at the sample's last token or after it. -/
theorem le_boundary (b : PackedBatch α) {i : Nat} {s : Sample α}
    (h : b.samples[i]? = some s) : s.tokens.length ≤ b.boundary i s b.numChunks := by
  have hcp := b.cpSize_pos
  have hmem : s ∈ b.samples := List.mem_of_getElem? h
  unfold boundary numChunks OneChunk
  by_cases hone : b.cpSize = 1
  · simp [hone]
  · simp only [hone, if_false, false_or]
    cases hgather : b.allgatherCp with
    | true =>
      simp only [if_true]
      cases hfmt : b.qkvFormat with
      | bshd =>
        have hfits := b.fits hfmt s hmem
        have hdiv := Nat.div_add_mod b.maxSeqLen b.cpSize
        have hmod := b.divisible hfmt hgather
        show s.tokens.length ≤ b.cpSize * (b.maxSeqLen / b.cpSize)
        omega
      | thd =>
        have hdvd : b.cpSize ∣ padded (b.samples.map (·.tokens)).flatten.length
            (b.cpSize * b.padSize) :=
          Nat.dvd_trans (Nat.dvd_mul_right _ _) (dvd_padded (Nat.mul_pos hcp b.padSize_pos))
        have hend := slotStart_add_le (fun s : Sample α => s.tokens) h
        show s.tokens.length ≤ b.cpSize * (_ / b.cpSize) - _
        rw [Nat.mul_div_cancel' hdvd]
        simp only [padded]
        omega
    | false =>
      simp only [Bool.false_eq_true, if_false]
      cases hfmt : b.qkvFormat with
      | bshd =>
        have hfits := b.fits hfmt s hmem
        have hceil := le_mul_ceilDiv (n := b.maxSeqLen) (d := 2 * b.cpSize) (by omega)
        exact Nat.le_trans hfits hceil
      | thd => exact le_mul_ceilDiv (by omega)

/-- Every response token of a sample is scored by one rank, once. -/
theorem perm_scored (b : PackedBatch α) {i : Nat} {s : Sample α} (h : b.samples[i]? = some s) :
    ((List.range b.cpSize).flatMap fun rank => b.scored rank i s).Perm
      (List.range s.responseLength) := by
  have hprompt := s.promptLength_pos
  have htotal := s.promptLength_add
  have htile := perm_flatMap_window (b.boundary_mono i s) (a := s.promptLength - 1)
    (b := s.tokens.length - 1) (by rw [b.boundary_zero]; exact Nat.zero_le _)
    (Nat.le_trans (Nat.sub_le _ _) (b.le_boundary h)) b.perm_chunks
  have hmap := htile.map (· - (s.promptLength - 1))
  have hleft : (List.range b.cpSize).flatMap (fun rank => b.scored rank i s) =
      (((List.range b.cpSize).flatMap b.chunks).flatMap fun k =>
        window (b.boundary i s k) (b.boundary i s (k + 1)) (s.promptLength - 1)
          (s.tokens.length - 1)).map (· - (s.promptLength - 1)) := by
    simp only [scored, scoredBy, List.map_flatMap, List.flatMap_assoc]
  have hright : (List.range' (s.promptLength - 1)
      (s.tokens.length - 1 - (s.promptLength - 1))).map (· - (s.promptLength - 1)) =
      List.range s.responseLength := by
    have hlen : s.tokens.length - 1 - (s.promptLength - 1) = s.responseLength := by omega
    rw [hlen, List.range'_eq_map_range, List.map_map]
    conv_rhs => rw [← List.map_id (List.range s.responseLength)]
    apply List.map_congr_left
    intro j _
    simp
  rw [hleft, ← hright]
  exact hmap

/-! ### Every layout -/

/-- What a rank yields: the rows of every sample, with or without their indices. -/
def Yields (b : PackedBatch α) (rank : Nat) (localTokens : List α) : Prop :=
  ∀ inc, ∃ outs, b.responseRows rank localTokens.length inc = .ok outs ∧
    outs.length = b.samples.length ∧
    ∀ i s, b.samples[i]? = some s → ∃ rows, outs[i]? = some rows ∧
      Scores localTokens s (b.scored rank i s) inc rows

/-- The loop yields the rows of every sample when each of its turns does. -/
theorem yields_of_turns (b : PackedBatch α) {rank : Nat} {localTokens : List α}
    (SlotAt : Nat → Int → Prop) (hzero : SlotAt 0 0)
    (hturn : ∀ inc i s slot, b.samples[i]? = some s → SlotAt i slot → ∃ rows next,
      sampleRows (b.rowsConfig rank localTokens.length inc) i slot
        (slotStart b.samples (·.tokens.length) i) s.tokens s.tokens.length s.responseLength =
          .ok (rows, next) ∧ SlotAt (i + 1) next ∧
      Scores localTokens s (b.scored rank i s) inc rows) :
    b.Yields rank localTokens := by
  intro inc
  obtain ⟨outs, houts, hlen, hall⟩ := iterLocalResponseRowsFrom_scores
    (show (b.rowsConfig rank localTokens.length inc).numRows = localTokens.length from rfl)
    SlotAt (fun i => (slotStart b.samples (·.tokens.length) i : Int))
    (fun i s => b.scored rank i s) b.samples 0
    (fun k s slot hk hslot => by
      rw [Nat.zero_add] at hslot ⊢
      exact hturn inc k s slot hk hslot)
    (fun k s hk => by
      rw [Nat.zero_add, slotStart_succ _ hk]
      push_cast
      rfl) hzero
  refine ⟨outs, ?_, hlen, fun i s hi => ?_⟩
  · rw [responseRows, iterLocalResponseRows, zip_samples]
    exact houts
  · have hrows := hall i s hi
    rw [Nat.zero_add] at hrows
    exact hrows

/-- The entry of `max_seq_lens` of a sample. -/
theorem maxSeqLens_bshd (b : PackedBatch α) (hfmt : b.qkvFormat = .bshd) {i : Nat} {s : Sample α}
    (h : b.samples[i]? = some s) : b.maxSeqLens.bind (·[i]?) = some b.maxSeqLen := by
  obtain ⟨hi, -⟩ := List.getElem?_eq_some_iff.mp h
  simp [maxSeqLens, hfmt, hi]

/-- Without context parallelism a rank yields the rows of the samples, padded to one length
    in bshd, one after the other. -/
theorem yields_of_slots (b : PackedBatch α) (hone : b.cpSize = 1) {slot : Sample α → List α}
    (hslot : ∀ s ∈ b.samples, HoldsChunk (slot s) s 0 0 s.tokens.length)
    (hlength : ∀ s ∈ b.samples, (slot s).length =
      match b.qkvFormat with
      | .bshd => b.maxSeqLen
      | .thd => s.tokens.length) (tail : List α) :
    b.Yields 0 ((b.samples.map slot).flatten ++ tail) := by
  -- a bshd turn computes its slot start anew, whatever the turn before left
  refine b.yields_of_turns (fun i slot =>
    b.qkvFormat = .thd → slot = slotStart b.samples (·.tokens.length) i) (fun _ => rfl) ?_
  intro inc i s start hi hstart
  have hmem : s ∈ b.samples := List.mem_of_getElem? hi
  have hle : i ≤ b.samples.length := Nat.le_of_lt (List.getElem?_eq_some_iff.mp hi).1
  have hscored : b.scored 0 i s = scoredBy s 0 s.tokens.length := by
    simp [scored, chunks, OneChunk, hone, boundary]
  have hscores := responseRowsWithoutCp_scores inc
    (HoldsChunk.of_slots _ hi (hslot s hmem) tail)
  rw [Nat.add_zero] at hscores
  rw [hscored]
  cases hfmt : b.qkvFormat with
  | bshd =>
    rw [hfmt] at hlength
    have hconst := slotStart_const (fun s => (slot s).length) hlength hle
    have hmax : b.maxSeqLens.bind (·[i]?) = some b.maxSeqLen := b.maxSeqLens_bshd hfmt hi
    rw [hconst] at hscores
    refine ⟨_, b.maxSeqLen * i + s.tokens.length, ?_, (fun h => by cases h), hscores⟩
    simp only [sampleRows, rowsConfig, hone, ↓reduceIte, hfmt, hmax, bind, Except.bind, pure,
      Except.pure]
    push_cast
    rfl
  | thd =>
    rw [hfmt] at hlength
    have hsame : slotStart b.samples (fun s => (slot s).length) i =
        slotStart b.samples (·.tokens.length) i := by
      simp only [slotStart]
      congr 1
      apply List.map_congr_left
      intro s hs
      exact hlength s (List.mem_of_mem_take hs)
    rw [hsame, ← hstart hfmt] at hscores
    refine ⟨_, start + s.tokens.length, ?_, fun _ => ?_, hscores⟩
    · simp only [sampleRows, rowsConfig, hone, ↓reduceIte, hfmt, bind, Except.bind, pure,
        Except.pure]
    · rw [hstart hfmt, slotStart_succ _ hi]
      push_cast
      rfl

/-- The checks of `get_batch` that do not depend on the layout pass. -/
theorem tokens_ne_nil (b : PackedBatch α) : b.samples.map (·.tokens) ≠ [] := by
  simp [b.nonempty]

/-- A bshd batch passes the checks of `get_batch`, and its `max_seqlen` is the common one. -/
theorem bshd_checks (b : PackedBatch α) (hfmt : b.qkvFormat = .bshd) :
    (∀ t ∈ b.samples.map (·.tokens), t.length ≤ b.maxSeqLen) ∧
    ∃ rest, b.maxSeqLens = some (b.maxSeqLen :: rest) := by
  refine ⟨fun t ht => ?_, ?_⟩
  · obtain ⟨s, hs, rfl⟩ := List.mem_map.mp ht
    exact b.fits hfmt s hs
  · have hpos : b.samples.length ≠ 0 := fun h => b.nonempty (List.eq_nil_of_length_eq_zero h)
    obtain ⟨n, hn⟩ := Nat.exists_eq_succ_of_ne_zero hpos
    refine ⟨List.replicate n b.maxSeqLen, ?_⟩
    simp only [maxSeqLens, hfmt, hn]
    rfl

/-- Without context parallelism. -/
theorem yields_withoutCp (b : PackedBatch α) (hone : b.cpSize = 1) :
    ∃ localTokens, b.localTokens 0 = .ok localTokens ∧ b.Yields 0 localTokens := by
  cases hfmt : b.qkvFormat with
  | bshd =>
    obtain ⟨hfits, rest, hmax⟩ := b.bshd_checks hfmt
    -- all-gather CP with one rank slices nothing off
    have hlocal : b.localTokens 0 = .ok (b.samples.map fun s =>
        padEnd s.tokens ((b.maxSeqLen : Int) - s.tokens.length) b.pad).flatten := by
      have hslice : ∀ t ∈ b.samples.map (·.tokens),
          slice (padEnd t ((b.maxSeqLen : Int) - t.length) b.pad) (0 : Nat)
            ((0 + b.maxSeqLen : Nat) : Int) =
          padEnd t ((b.maxSeqLen : Int) - t.length) b.pad := by
        intro t ht
        rw [slice_natCast, List.drop_zero, padEnd_eq (hfits t ht), List.take_of_length_le]
        have hle := hfits t ht
        simp only [List.length_append, List.length_replicate]
        omega
      simp only [localTokens, getBatch, check, hfmt, hmax, hone, if_pos b.tokens_ne_nil,
        if_pos hfits, Nat.mod_one, if_true, Nat.div_one, Nat.zero_mul, sliceWithCp, bind,
        Except.bind, pure, Except.pure]
      split
      · rw [List.map_congr_left hslice, List.map_map]
        rfl
      · rw [List.map_map]
        rfl
    refine ⟨_, hlocal, ?_⟩
    rw [← List.append_nil (List.flatten _)]
    refine b.yields_of_slots hone (fun s hs => ?_) (fun s hs => ?_) []
    · rw [padEnd_eq (b.fits hfmt s hs)]
      exact holdsChunk_padded s _
    · have hle := b.fits hfmt s hs
      rw [padEnd_eq hle, hfmt]
      simp only [List.length_append, List.length_replicate]
      omega
  | thd =>
    have hlocal : ∃ tail, b.localTokens 0 = .ok ((b.samples.map (·.tokens)).flatten ++ tail) := by
      simp only [localTokens, getBatch, check, hfmt, hone, if_pos b.tokens_ne_nil, if_true,
        sliceWithCp, List.map_id', chunkAt, Nat.mul_zero, List.drop_zero, Nat.div_one,
        Nat.add_sub_cancel, List.take_length, bind, Except.bind, pure, Except.pure]
      split
      · exact ⟨_, rfl⟩
      · exact ⟨_, rfl⟩
    obtain ⟨tail, hlocal⟩ := hlocal
    refine ⟨_, hlocal, b.yields_of_slots hone (fun s _ => ?_) (fun s _ => ?_) tail⟩
    · have h := holdsChunk_padded s []
      rw [List.append_nil] at h
      exact h
    · rw [hfmt]

/-- The length that a sample's zigzag chunks divide. -/
def zigzagLength (b : PackedBatch α) (s : Sample α) : Nat :=
  match b.qkvFormat with
  | .bshd => b.maxSeqLen
  | .thd => s.tokens.length

/-- The length of a sample's zigzag chunks. -/
def zigzagChunk (b : PackedBatch α) (s : Sample α) : Nat :=
  (b.zigzagLength s + 2 * b.cpSize - 1) / (2 * b.cpSize)

/-- The zigzag slot of a sample. -/
def zigzagSlot (b : PackedBatch α) (rank : Nat) (s : Sample α) : List α :=
  sliceWithCp s.tokens b.pad b.qkvFormat (if b.qkvFormat = .bshd then b.maxSeqLen else 0)
    { rank, size := b.cpSize }

theorem chunkSize_eq {n d : Nat} (hd : 0 < d) :
    chunkSize (n : Int) d = ((n + 2 * d - 1) / (2 * d) : Nat) := by
  have hnum : (n : Int) + 2 * d - 1 = ((n + 2 * d - 1 : Nat) : Int) := by omega
  rw [chunkSize, hnum]
  norm_cast

/-- The zigzag slot is two pieces of the padded sample, of one chunk each. -/
theorem zigzagSlot_eq (b : PackedBatch α) {rank : Nat} (hrank : rank < b.cpSize)
    (hcp : b.cpSize ≠ 1) {s : Sample α} (hs : s ∈ b.samples) :
    ∃ padded, HoldsChunk padded s 0 0 s.tokens.length ∧
      padded.length = 2 * b.cpSize * b.zigzagChunk s ∧
      b.zigzagSlot rank s =
        (padded.drop (rank * b.zigzagChunk s)).take (b.zigzagChunk s) ++
        (padded.drop ((2 * b.cpSize - rank - 1) * b.zigzagChunk s)).take (b.zigzagChunk s) := by
  have hchunk : chunkSize (b.zigzagLength s : Int) b.cpSize = (b.zigzagChunk s : Nat) :=
    chunkSize_eq b.cpSize_pos
  have hcover : s.tokens.length ≤ 2 * b.cpSize * b.zigzagChunk s := by
    have hceil := le_mul_ceilDiv (n := b.zigzagLength s) (d := 2 * b.cpSize) (by omega)
    have hle : s.tokens.length ≤ b.zigzagLength s := by
      simp only [zigzagLength]
      cases hfmt : b.qkvFormat with
      | bshd => exact b.fits hfmt s hs
      | thd => exact Nat.le_refl _
    exact Nat.le_trans hle hceil
  have hpiece : ∀ k : Nat, ∀ xs : List α,
      slice xs ((b.zigzagChunk s : Int) * k) ((b.zigzagChunk s : Int) * (k + 1)) =
        (xs.drop (k * b.zigzagChunk s)).take (b.zigzagChunk s) := by
    intro k xs
    have hstart : (b.zigzagChunk s : Int) * k = ((k * b.zigzagChunk s : Nat) : Int) := by
      push_cast
      exact Int.mul_comm _ _
    have hstop : (b.zigzagChunk s : Int) * (k + 1) =
        ((k * b.zigzagChunk s + b.zigzagChunk s : Nat) : Int) := by
      push_cast
      rw [Int.mul_add, Int.mul_one, Int.mul_comm]
    rw [hstart, hstop, slice_natCast, List.drop_take, Nat.add_sub_cancel_left]
  refine ⟨s.tokens ++ List.replicate (2 * b.cpSize * b.zigzagChunk s - s.tokens.length) b.pad,
    holdsChunk_padded s _, ?_, ?_⟩
  · simp only [List.length_append, List.length_replicate]
    omega
  · have hpad : padEnd s.tokens (2 * (b.cpSize : Int) * (b.zigzagChunk s : Nat) -
        s.tokens.length) b.pad = s.tokens ++
          List.replicate (2 * b.cpSize * b.zigzagChunk s - s.tokens.length) b.pad := by
      have hcast : 2 * (b.cpSize : Int) * (b.zigzagChunk s : Nat) =
          ((2 * b.cpSize * b.zigzagChunk s : Nat) : Int) := by
        push_cast
        rfl
      rw [hcast, padEnd_eq hcover]
    have hsecond : 2 * (b.cpSize : Int) - rank - 1 = ((2 * b.cpSize - rank - 1 : Nat) : Int) := by
      omega
    have hlast : 2 * (b.cpSize : Int) - rank =
        ((2 * b.cpSize - rank - 1 : Nat) : Int) + 1 := by omega
    have hslot : b.zigzagSlot rank s =
        slice (padEnd s.tokens (2 * (b.cpSize : Int) * chunkSize (b.zigzagLength s : Int) b.cpSize -
            s.tokens.length) b.pad)
          (chunkSize (b.zigzagLength s : Int) b.cpSize * rank)
          (chunkSize (b.zigzagLength s : Int) b.cpSize * (rank + 1)) ++
        slice (padEnd s.tokens (2 * (b.cpSize : Int) * chunkSize (b.zigzagLength s : Int) b.cpSize -
            s.tokens.length) b.pad)
          (chunkSize (b.zigzagLength s : Int) b.cpSize * (2 * b.cpSize - rank - 1))
          (chunkSize (b.zigzagLength s : Int) b.cpSize * (2 * b.cpSize - rank)) := by
      simp only [zigzagSlot, sliceWithCp, if_neg hcp, zigzagLength]
      cases b.qkvFormat <;> rfl
    rw [hslot, hchunk, hpad, hsecond, hlast]
    simp only [hpiece]

/-- A zigzag slot has two chunks, and holds the rank's two chunks of the sample. -/
theorem zigzagSlot_holds (b : PackedBatch α) {rank : Nat} (hrank : rank < b.cpSize)
    (hcp : b.cpSize ≠ 1) {s : Sample α} (hs : s ∈ b.samples) :
    (b.zigzagSlot rank s).length = 2 * b.zigzagChunk s ∧
    HoldsChunk (b.zigzagSlot rank s) s 0 (rank * b.zigzagChunk s)
      ((rank + 1) * b.zigzagChunk s) ∧
    HoldsChunk (b.zigzagSlot rank s) s (b.zigzagChunk s)
      ((2 * b.cpSize - rank - 1) * b.zigzagChunk s) ((2 * b.cpSize - rank) * b.zigzagChunk s) := by
  obtain ⟨padded, hpadded, hlen, hslot⟩ := b.zigzagSlot_eq hrank hcp hs
  generalize b.zigzagChunk s = c at hlen hslot ⊢
  have hpieces : ∀ k, k < 2 * b.cpSize → k * c + c ≤ padded.length := by
    intro k hk
    rw [hlen, ← Nat.succ_mul]
    exact Nat.mul_le_mul_right c hk
  have hfirst := hpieces rank (by omega)
  have hsecond := hpieces (2 * b.cpSize - rank - 1) (by omega)
  have hnext : (rank + 1) * c = rank * c + c := Nat.succ_mul _ _
  have hnext' : (2 * b.cpSize - rank) * c = (2 * b.cpSize - rank - 1) * c + c := by
    rw [← Nat.succ_mul]
    congr 1
    omega
  have hlen₁ : ((padded.drop (rank * c)).take c).length = c := by
    simp only [List.length_take, List.length_drop]
    omega
  have hlen₂ : ((padded.drop ((2 * b.cpSize - rank - 1) * c)).take c).length = c := by
    simp only [List.length_take, List.length_drop]
    omega
  rw [hslot, hnext, hnext']
  refine ⟨by rw [List.length_append, hlen₁, hlen₂]; omega, ?_, ?_⟩
  · have h := (hpadded.piece _ _ hfirst).shift [] ((padded.drop ((2 * b.cpSize - rank - 1) * c)).take c)
    simpa using h
  · have h := (hpadded.piece _ _ hsecond).shift ((padded.drop (rank * c)).take c) []
    rw [hlen₁, List.append_nil, Nat.zero_sub, Nat.add_zero, Nat.sub_zero, Nat.sub_zero] at h
    exact h

/-- Under zigzag CP a rank's slots follow one another. -/
theorem yields_zigzag (b : PackedBatch α) {rank : Nat} (hrank : rank < b.cpSize)
    (hcp : b.cpSize ≠ 1) (hgather : b.allgatherCp = false) :
    ∃ localTokens, b.localTokens rank = .ok localTokens ∧ b.Yields rank localTokens := by
  -- the slots come first in either format, padding may follow
  have hlocal : ∃ tail, b.localTokens rank =
      .ok ((b.samples.map (b.zigzagSlot rank)).flatten ++ tail) := by
    cases hfmt : b.qkvFormat with
    | bshd =>
      obtain ⟨hfits, rest, hmax⟩ := b.bshd_checks hfmt
      have hslots : (b.samples.map (·.tokens)).map (fun t =>
          sliceWithCp t b.pad .bshd b.maxSeqLen { rank, size := b.cpSize }) =
          b.samples.map (b.zigzagSlot rank) := by
        rw [List.map_map]
        apply List.map_congr_left
        intro s _
        simp only [Function.comp_apply, zigzagSlot, hfmt, if_true]
      simp only [localTokens, getBatch, check, hfmt, hmax, hgather, if_pos b.tokens_ne_nil,
        if_pos hfits, Bool.false_eq_true, if_false, hslots, bind, Except.bind, pure, Except.pure]
      exact ⟨[], by rw [List.append_nil]⟩
    | thd =>
      have hslots : (b.samples.map (·.tokens)).map (fun t =>
          sliceWithCp t b.pad .thd 0 { rank, size := b.cpSize }) =
          b.samples.map (b.zigzagSlot rank) := by
        rw [List.map_map]
        apply List.map_congr_left
        intro s _
        simp only [Function.comp_apply, zigzagSlot, hfmt]
        rfl
      simp only [localTokens, getBatch, check, hfmt, hgather, if_pos b.tokens_ne_nil,
        Bool.false_eq_true, if_false, hslots, bind, Except.bind, pure, Except.pure]
      exact ⟨_, rfl⟩
  obtain ⟨tail, hlocal⟩ := hlocal
  refine ⟨_, hlocal, b.yields_of_turns (fun i slot =>
    slot = slotStart b.samples (fun s => (b.zigzagSlot rank s).length) i) rfl ?_⟩
  rintro inc i s slot hi rfl
  have hmem : s ∈ b.samples := List.mem_of_getElem? hi
  obtain ⟨hlen, hfirst, hsecond⟩ := b.zigzagSlot_holds hrank hcp hmem
  have hbound := slotStart_add_le (b.zigzagSlot rank) hi
  have hchunk : ChunkIs b.qkvFormat (b.maxSeqLens.bind (·[i]?)) s.tokens.length b.cpSize
      (b.zigzagChunk s) := by
    have hlength : chunkSize (b.zigzagLength s : Int) b.cpSize = (b.zigzagChunk s : Nat) :=
      chunkSize_eq b.cpSize_pos
    unfold ChunkIs
    rw [← hlength]
    cases hfmt : b.qkvFormat with
    | bshd =>
      rw [b.maxSeqLens_bshd hfmt hi]
      simp only [zigzagLength, hfmt]
    | thd => simp only [zigzagLength, hfmt]
  have hone : ¬ b.OneChunk := fun h => h.elim hcp (by simp [hgather])
  have hboundary : ∀ k, b.boundary i s k = k * b.zigzagChunk s := by
    intro k
    simp only [boundary, if_neg hcp, hgather, Bool.false_eq_true, if_false, zigzagChunk,
      zigzagLength]
    cases b.qkvFormat <;> rfl
  -- a rank scores the rows of its two chunks, the first and the mirrored one
  have hscored : b.scored rank i s =
      scoredBy s (rank * b.zigzagChunk s) ((rank + 1) * b.zigzagChunk s) ++
      scoredBy s ((2 * b.cpSize - rank - 1) * b.zigzagChunk s)
        ((2 * b.cpSize - rank) * b.zigzagChunk s) := by
    have hlast : 2 * b.cpSize - rank - 1 + 1 = 2 * b.cpSize - rank := by omega
    simp only [scored, chunks, if_neg hone, List.flatMap_cons, List.flatMap_nil,
      List.append_nil, hboundary, hlast]
  obtain ⟨rows, hrows, hscores⟩ := responseRowsZigzagCp_scores inc
    (show 1 < (CpState.mk rank b.cpSize).size by have := b.cpSize_pos; dsimp only; omega) hrank hchunk
    (HoldsChunk.of_slots _ hi hfirst tail) (HoldsChunk.of_slots _ hi hsecond tail)
    (by simp only [List.length_append]; omega)
  rw [hscored]
  refine ⟨rows, slotStart b.samples (fun s => (b.zigzagSlot rank s).length) i +
    2 * (b.zigzagChunk s : Nat), ?_, ?_, hscores⟩
  · simp only [sampleRows, rowsConfig, if_neg hcp, hgather, Bool.false_eq_true, if_false, bind,
      Except.bind, pure, Except.pure]
    rw [Nat.add_zero] at hrows
    rw [hrows]
  · rw [slotStart_succ (fun s => (b.zigzagSlot rank s).length) hi, hlen]
    push_cast
    rfl

/-- Under all-gather CP a rank has one piece of every padded sample. -/
theorem yields_allgather_bshd (b : PackedBatch α) {rank : Nat} (hrank : rank < b.cpSize)
    (hcp : b.cpSize ≠ 1) (hgather : b.allgatherCp = true) (hfmt : b.qkvFormat = .bshd) :
    ∃ localTokens, b.localTokens rank = .ok localTokens ∧ b.Yields rank localTokens := by
  obtain ⟨hfits, rest, hmax⟩ := b.bshd_checks hfmt
  have hdiv := b.divisible hfmt hgather
  generalize hpiece : b.maxSeqLen / b.cpSize = piece
  have hlenMax : b.cpSize * piece = b.maxSeqLen := by
    have hdivmod := Nat.div_add_mod b.maxSeqLen b.cpSize
    rw [hdiv, hpiece] at hdivmod
    omega
  let slot : Sample α → List α := fun s =>
    slice (padEnd s.tokens ((b.maxSeqLen : Int) - s.tokens.length) b.pad)
      ((rank * piece : Nat) : Int) ((rank * piece + piece : Nat) : Int)
  have hlocal : b.localTokens rank = .ok (b.samples.map slot).flatten := by
    simp only [localTokens, getBatch, check, hfmt, hmax, hgather, if_pos b.tokens_ne_nil,
      if_pos hfits, hdiv, if_true, hpiece, List.map_map, bind, Except.bind, pure, Except.pure]
    rfl
  have hin : rank * piece + piece ≤ b.maxSeqLen := by
    rw [← hlenMax, ← Nat.succ_mul]
    exact Nat.mul_le_mul_right piece hrank
  -- slot `i` holds the piece of sample `i` that belongs to this rank
  have hslot : ∀ s ∈ b.samples, (slot s).length = piece ∧
      HoldsChunk (slot s) s 0 (rank * piece) (rank * piece + piece) := by
    intro s hs
    have hle := b.fits hfmt s hs
    have hlen : (s.tokens ++ List.replicate (b.maxSeqLen - s.tokens.length) b.pad).length =
        b.maxSeqLen := by
      simp only [List.length_append, List.length_replicate]
      omega
    have heq : slot s = ((s.tokens ++ List.replicate (b.maxSeqLen - s.tokens.length) b.pad).drop
        (rank * piece)).take piece := by
      simp only [slot, padEnd_eq hle]
      rw [slice_natCast, List.drop_take, Nat.add_sub_cancel_left]
    rw [heq]
    have hholds := (holdsChunk_padded s
      (List.replicate (b.maxSeqLen - s.tokens.length) b.pad)).piece
        (rank * piece) piece (by omega)
    rw [Nat.zero_sub, Nat.sub_zero, Nat.sub_zero] at hholds
    refine ⟨?_, hholds⟩
    rw [List.length_take, List.length_drop, hlen]
    omega
  rw [← List.append_nil (List.flatten _)] at hlocal
  refine ⟨_, hlocal, b.yields_of_turns (fun _ slot => slot = 0) rfl ?_⟩
  -- all slots have one length, so sample `i` starts at `piece * i`
  rintro inc i s start hi rfl
  have hmem : s ∈ b.samples := List.mem_of_getElem? hi
  have hle : i ≤ b.samples.length := Nat.le_of_lt (List.getElem?_eq_some_iff.mp hi).1
  have hbound := slotStart_add_le slot hi
  have hstart := slotStart_const (fun s => (slot s).length)
    (fun s hs => (hslot s hs).1) hle
  have hholds := HoldsChunk.of_slots _ hi (hslot s hmem).2 []
  rw [hstart] at hbound hholds
  have hscored : b.scored rank i s = scoredBy s (rank * piece) (rank * piece + piece) := by
    simp only [scored, chunks, OneChunk, hgather, or_true, if_true, List.flatMap_singleton,
      boundary, if_neg hcp, hfmt, hpiece, Nat.succ_mul]
  have hscores := responseRowsAllgatherCp_scores inc (piece * i) (rank * piece) piece 0
    (by rw [Nat.zero_sub, Nat.sub_zero, Nat.sub_zero]; exact hholds)
    (by simp only [List.length_append]; omega)
  rw [Nat.sub_zero, Nat.sub_zero] at hscores
  rw [hscored]
  refine ⟨_, 0, ?_, rfl, hscores⟩
  have hentry : b.maxSeqLens.bind (·[i]?) = some b.maxSeqLen := b.maxSeqLens_bshd hfmt hi
  have hcast : (b.maxSeqLen : Int) / (b.cpSize : Int) = (piece : Int) := by
    rw [← hpiece]
    norm_cast
  simp only [sampleRows, rowsConfig, if_neg hcp, hgather, if_true, hfmt, hentry, hcast, bind,
    Except.bind, pure, Except.pure]
  push_cast
  rfl

/-- Under all-gather CP a rank has one piece of the padded stream of all samples. -/
theorem yields_allgather_thd (b : PackedBatch α) {rank : Nat} (hrank : rank < b.cpSize)
    (hcp : b.cpSize ≠ 1) (hgather : b.allgatherCp = true) (hfmt : b.qkvFormat = .thd) :
    ∃ localTokens, b.localTokens rank = .ok localTokens ∧ b.Yields rank localTokens := by
  have hpos := b.cpSize_pos
  generalize hstream : (b.samples.map (·.tokens)).flatten = stream
  generalize hpiece : padded stream.length (b.cpSize * b.padSize) / b.cpSize = piece
  generalize htail : List.replicate ((b.cpSize * b.padSize - stream.length %
    (b.cpSize * b.padSize)) % (b.cpSize * b.padSize)) b.pad = tail
  have hlen : (stream ++ tail).length = b.cpSize * piece := by
    have hdvd : b.cpSize ∣ padded stream.length (b.cpSize * b.padSize) :=
      Nat.dvd_trans (Nat.dvd_mul_right _ _) (dvd_padded (Nat.mul_pos hpos b.padSize_pos))
    rw [← hpiece, Nat.mul_div_cancel' hdvd, List.length_append, ← htail, List.length_replicate]
    rfl
  have hsize : ((stream ++ tail).length + b.cpSize - 1) / b.cpSize = piece := by
    rw [hlen, Nat.add_sub_assoc hpos, Nat.mul_add_div hpos, Nat.div_eq_of_lt (by omega),
      Nat.add_zero]
  have hlocal : b.localTokens rank = .ok (((stream ++ tail).drop (rank * piece)).take piece) := by
    simp only [localTokens, getBatch, check, hfmt, hgather, if_pos b.tokens_ne_nil, if_true,
      chunkAt, hstream, htail, hsize, Nat.mul_comm piece, bind, Except.bind, pure, Except.pure]
  have hin : rank * piece + piece ≤ (stream ++ tail).length := by
    rw [hlen, ← Nat.succ_mul]
    exact Nat.mul_le_mul_right piece hrank
  have hlocalLen : (((stream ++ tail).drop (rank * piece)).take piece).length = piece := by
    rw [List.length_take, List.length_drop]
    omega
  refine ⟨_, hlocal, b.yields_of_turns (fun _ slot => slot = 0) rfl ?_⟩
  rintro inc i s start hi rfl
  have hwhole : HoldsChunk (stream ++ tail) s (slotStart b.samples (·.tokens.length) i) 0
      s.tokens.length := by
    have h := holdsChunk_padded s []
    rw [List.append_nil] at h
    rw [← hstream]
    exact HoldsChunk.of_slots (fun s => s.tokens) hi h tail
  have hscored : b.scored rank i s =
      scoredBy s (rank * piece - slotStart b.samples (·.tokens.length) i)
        (rank * piece + piece - slotStart b.samples (·.tokens.length) i) := by
    simp only [scored, chunks, OneChunk, hgather, or_true, if_true, List.flatMap_singleton,
      boundary, if_neg hcp, hfmt, hstream, hpiece, Nat.succ_mul]
  have hscores := responseRowsAllgatherCp_scores inc 0 (rank * piece) piece
    (slotStart b.samples (·.tokens.length) i)
    (by rw [Nat.zero_add]; exact hwhole.piece _ _ hin) (Nat.zero_le _)
  rw [hscored]
  refine ⟨_, 0, ?_, rfl, hscores⟩
  simp only [sampleRows, rowsConfig, if_neg hcp, hgather, if_true, hfmt, hlocalLen, bind,
    Except.bind, pure, Except.pure]
  push_cast
  rfl

/-- In every layout, for every number of ranks and every batch with a prompt token in each
    sample: every rank yields the rows of every sample, each row holds the token before the
    one it scores, and the ranks together score every response token of every sample once. -/
theorem responseRows_cover_each_token_once (b : PackedBatch α) :
    ∃ (localTokens : Nat → List α) (scored : Nat → Nat → List Nat),
      (∀ rank < b.cpSize, b.localTokens rank = .ok (localTokens rank) ∧
        ∀ inc, ∃ outs, b.responseRows rank (localTokens rank).length inc = .ok outs ∧
          outs.length = b.samples.length ∧
          ∀ i s, b.samples[i]? = some s → ∃ rows, outs[i]? = some rows ∧
            Scores (localTokens rank) s (scored rank i) inc rows) ∧
      ∀ i s, b.samples[i]? = some s →
        ((List.range b.cpSize).flatMap fun rank => scored rank i).Perm
          (List.range s.responseLength) := by
  have hall : ∀ rank, ∃ localTokens, rank < b.cpSize →
      b.localTokens rank = .ok localTokens ∧ b.Yields rank localTokens := by
    intro rank
    by_cases hrank : rank < b.cpSize
    · by_cases hone : b.cpSize = 1
      · obtain rfl : rank = 0 := by omega
        obtain ⟨localTokens, h⟩ := b.yields_withoutCp hone
        exact ⟨localTokens, fun _ => h⟩
      · cases hgather : b.allgatherCp with
        | false =>
          obtain ⟨localTokens, h⟩ := b.yields_zigzag hrank hone hgather
          exact ⟨localTokens, fun _ => h⟩
        | true =>
          cases hfmt : b.qkvFormat with
          | bshd =>
            obtain ⟨localTokens, h⟩ := b.yields_allgather_bshd hrank hone hgather hfmt
            exact ⟨localTokens, fun _ => h⟩
          | thd =>
            obtain ⟨localTokens, h⟩ := b.yields_allgather_thd hrank hone hgather hfmt
            exact ⟨localTokens, fun _ => h⟩
    · exact ⟨[], fun h => absurd h hrank⟩
  choose localTokens hlocal using hall
  refine ⟨localTokens, fun rank i => ((b.samples[i]?).map (b.scored rank i)).getD [],
    fun rank hrank => ?_, fun i s hi => ?_⟩
  · obtain ⟨hget, hyields⟩ := hlocal rank hrank
    refine ⟨hget, fun inc => ?_⟩
    obtain ⟨outs, houts, hlen, hrows⟩ := hyields inc
    refine ⟨outs, houts, hlen, fun i s hi => ?_⟩
    obtain ⟨rows, hget', hscores⟩ := hrows i s hi
    refine ⟨rows, hget', ?_⟩
    simp only [hi, Option.map_some, Option.getD_some]
    exact hscores
  · simp only [hi, Option.map_some, Option.getD_some]
    exact b.perm_scored hi

/-- A sample of two prompt and four response tokens -/
def sixTokens : Sample Nat := ⟨[10, 11, 12, 13, 14, 15], 4, by decide⟩

/-- It and a shorter one, in zigzag chunks over two ranks -/
def zigzagBatch : PackedBatch Nat where
  samples := [sixTokens, ⟨[20, 21, 22], 1, by decide⟩]
  qkvFormat := .thd
  allgatherCp := false
  cpSize := 2
  maxSeqLen := 0
  padSize := 8
  pad := 0
  nonempty := List.cons_ne_nil _ _
  cpSize_pos := Nat.two_pos
  padSize_pos := Nat.succ_pos _
  fits h := absurd h (by decide)
  divisible h := absurd h (by decide)

theorem responseRows_cover_each_token_once_zigzag :
    ∃ scored : Nat → List Nat,
      (∃ rows, Scores [10, 11, 0, 0, 20, 0, 0, 0] sixTokens (scored 0) true rows) ∧
      (∃ rows, Scores [12, 13, 14, 15, 21, 22, 0, 0] sixTokens (scored 1) true rows) ∧
      (scored 0 ++ scored 1).Perm [0, 1, 2, 3] := by
  obtain ⟨localTokens, scored, hranks, hperm⟩ := responseRows_cover_each_token_once zigzagBatch
  have hrows : ∀ rank < 2, ∃ rows,
      Scores (localTokens rank) sixTokens (scored rank 0) true rows := by
    intro rank hrank
    obtain ⟨outs, -, -, hout⟩ := (hranks rank hrank).2 true
    obtain ⟨rows, -, hscores⟩ := hout 0 sixTokens rfl
    exact ⟨rows, hscores⟩
  have hfirst : localTokens 0 = [10, 11, 0, 0, 20, 0, 0, 0] :=
    Except.ok.inj ((hranks 0 (by decide)).1.symm.trans (by decide))
  have hsecond : localTokens 1 = [12, 13, 14, 15, 21, 22, 0, 0] :=
    Except.ok.inj ((hranks 1 (by decide)).1.symm.trans (by decide))
  have hcover : (scored 0 0 ++ (scored 1 0 ++ [])).Perm [0, 1, 2, 3] := hperm 0 sixTokens rfl
  rw [List.append_nil] at hcover
  exact ⟨(scored · 0), hfirst ▸ hrows 0 (by decide), hsecond ▸ hrows 1 (by decide), hcover⟩

end PackedBatch

end Miles.ContextParallel
