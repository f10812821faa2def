import Mathlib

/-!
# Lists put together from segments

A list whose positions are dealt out to several holders comes back when every holder writes its
positions over a list of that length, in any order, or when the holders' lists, zero outside
their positions, are added up.

## Key results

- `getElem?_overwrite`: what a written segment changes
- `eq_of_agree`: a list that agrees with another at all its positions
- `sum_masked`: the sum of what the holders have
-/

namespace Segments

variable {α : Type*}

/-! ### Segments -/

/-- The entries from `start` to `stop`. -/
def segment (xs : List α) (start stop : Nat) : List α := (xs.take stop).drop start

@[simp] theorem length_segment (xs : List α) (start stop : Nat) :
    (segment xs start stop).length = min stop xs.length - start := by
  simp [segment]

theorem getElem?_segment (xs : List α) (start stop i : Nat) :
    (segment xs start stop)[i]? = if start + i < stop then xs[start + i]? else none := by
  simp only [segment, List.getElem?_drop, List.getElem?_take]

variable {start stop : Nat}

theorem segment_of_le (xs : List α) (h : stop ≤ start) :
    segment xs start stop = [] := by
  apply List.eq_nil_of_length_eq_zero
  rw [length_segment]
  omega

/-- The positions of a segment inside the list. -/
theorem segment_map_some (xs : List α) (h : stop ≤ xs.length) :
    (segment xs start stop).map some =
      (List.range' start (stop - start)).map fun i => xs[i]? := by
  apply List.ext_getElem
  · simp [Nat.min_eq_left h]
  · intro i hi _
    rw [List.length_map, length_segment] at hi
    rw [List.getElem_map, List.getElem_map, List.getElem_range', Nat.one_mul,
      List.getElem?_eq_getElem (by omega)]
    simp [segment]

/-! ### Writing segments -/

/-- `out` with the segment of `xs` written over its own. -/
def overwrite (xs : List α) (start stop : Nat) (out : List α) : List α :=
  if start < stop then out.take start ++ segment xs start stop ++ out.drop stop else out

theorem length_overwrite {xs out : List α} (hlen : out.length = xs.length)
    (hstop : stop ≤ xs.length) : (overwrite xs start stop out).length = xs.length := by
  rw [overwrite]
  split
  · rw [List.length_append, List.length_append, length_segment, List.length_take,
      List.length_drop]
    omega
  · exact hlen

theorem getElem?_overwrite {xs out : List α} (hlen : out.length = xs.length)
    (hstop : stop ≤ xs.length) (i : Nat) :
    (overwrite xs start stop out)[i]? = if start ≤ i ∧ i < stop then xs[i]? else out[i]? := by
  rw [overwrite]
  split
  · rw [List.append_assoc]
    by_cases hstart : i < start
    · rw [List.getElem?_append_left (by rw [List.length_take]; omega), if_neg (by omega),
        List.getElem?_take_of_lt hstart]
    · have hfirst : (out.take start).length = start := by
        rw [List.length_take]
        omega
      rw [List.getElem?_append_right (by omega), hfirst]
      by_cases hi : i < stop
      · rw [List.getElem?_append_left (by rw [length_segment]; omega), getElem?_segment,
          if_pos (by omega), if_pos (by omega), Nat.add_sub_cancel' (by omega)]
      · rw [List.getElem?_append_right (by rw [length_segment]; omega), length_segment,
          List.getElem?_drop, if_neg (by omega)]
        congr 1
        omega
  · rw [if_neg (by omega)]

/-- A list that agrees with another one at all its positions. -/
theorem eq_of_agree {xs out : List α} (hlen : out.length = xs.length)
    (h : ∀ i < xs.length, out[i]? = xs[i]?) : out = xs := by
  apply List.ext_getElem? 
  intro i
  by_cases hi : i < xs.length
  · exact h i hi
  · rw [List.getElem?_eq_none (by omega), List.getElem?_eq_none (by omega)]

/-! ### Adding up -/

section Sum

variable [AddCommMonoid α]

/-- `xs` at the given positions, zero elsewhere. -/
def masked (xs : List α) (positions : List Nat) : List α :=
  (List.range xs.length).map fun i => if i ∈ positions then xs.getD i 0 else 0

@[simp] theorem length_masked (xs : List α) (positions : List Nat) :
    (masked xs positions).length = xs.length := by
  simp [masked]

theorem getD_masked {xs : List α} {i : Nat} (hi : i < xs.length) (positions : List Nat) :
    (masked xs positions).getD i 0 = if i ∈ positions then xs.getD i 0 else 0 := by
  rw [List.getD_eq_getElem _ _ (by simpa using hi)]
  simp [masked]

/-- Consecutive runs join. -/
theorem range'_join {a b c : Nat} (hab : a ≤ b) (hbc : b ≤ c) :
    List.range' a (b - a) ++ List.range' b (c - b) = List.range' a (c - a) := by
  have hjoin := List.range'_append_1 (s := a) (m := b - a) (n := c - b)
  rw [Nat.add_sub_cancel' hab] at hjoin
  rw [hjoin]
  congr 1
  omega

/-- Outside the given positions there are zeros. -/
theorem map_masked_zero (xs : List α) {positions : List Nat} {start len : Nat}
    (h : ∀ i, start ≤ i → i < start + len → i ∉ positions) :
    (List.range' start len).map (fun i => if i ∈ positions then xs.getD i 0 else 0) =
      List.replicate len 0 := by
  rw [List.eq_replicate_iff]
  refine ⟨by simp, ?_⟩
  intro y hy
  obtain ⟨i, hi, rfl⟩ := List.mem_map.mp hy
  rw [List.mem_range'_1] at hi
  exact if_neg (h i hi.1 hi.2)

/-- At the given positions there is the segment. -/
theorem map_masked_run {xs : List α} {positions : List Nat}
    (hstop : stop ≤ xs.length) (h : ∀ i, start ≤ i → i < stop → i ∈ positions) :
    (List.range' start (stop - start)).map (fun i => if i ∈ positions then xs.getD i 0 else 0) =
      segment xs start stop := by
  apply List.ext_getElem
  · simp [Nat.min_eq_left hstop]
  · intro i hi _
    rw [List.length_map, List.length_range'] at hi
    rw [List.getElem_map, List.getElem_range', Nat.one_mul, if_pos (h _ (by omega) (by omega)),
      List.getD_eq_getElem _ _ (by omega)]
    simp [segment]

/-- A run of positions is a segment between zeros. -/
theorem masked_run {xs : List α} (hle : start ≤ stop)
    (hstop : stop ≤ xs.length) :
    masked xs (List.range' start (stop - start)) =
      List.replicate start 0 ++ segment xs start stop ++ List.replicate (xs.length - stop) 0 := by
  have hsplit : List.range xs.length = List.range' 0 start ++ List.range' start (stop - start) ++
      List.range' stop (xs.length - stop) := by
    rw [List.range_eq_range', List.append_assoc, range'_join hle hstop]
    exact (range'_join (Nat.zero_le start) (by omega)).symm
  rw [masked, hsplit, List.map_append, List.map_append,
    map_masked_zero xs (by simp only [List.mem_range'_1]; omega),
    map_masked_run hstop (by simp only [List.mem_range'_1]; omega),
    map_masked_zero xs (by simp only [List.mem_range'_1]; omega)]

/-- Two runs are two segments between zeros. -/
theorem masked_runs {xs : List α} {a b c d : Nat} (hab : a ≤ b) (hbc : b ≤ c) (hcd : c ≤ d)
    (hd : d ≤ xs.length) :
    masked xs (List.range' a (b - a) ++ List.range' c (d - c)) =
      List.replicate a 0 ++ segment xs a b ++ List.replicate (c - b) 0 ++ segment xs c d ++
        List.replicate (xs.length - d) 0 := by
  have hsplit : List.range xs.length = List.range' 0 a ++ List.range' a (b - a) ++
      List.range' b (c - b) ++ List.range' c (d - c) ++ List.range' d (xs.length - d) := by
    rw [List.append_assoc, range'_join hcd hd, List.append_assoc, range'_join hbc (by omega),
      List.append_assoc, range'_join hab (by omega), List.range_eq_range']
    exact (range'_join (Nat.zero_le a) (by omega)).symm
  rw [masked, hsplit, List.map_append, List.map_append, List.map_append, List.map_append,
    map_masked_zero xs (by simp only [List.mem_append, List.mem_range'_1]; omega),
    map_masked_run (by omega) (by simp only [List.mem_append, List.mem_range'_1]; omega),
    map_masked_zero xs (by simp only [List.mem_append, List.mem_range'_1]; omega),
    map_masked_run hd (by simp only [List.mem_append, List.mem_range'_1]; omega),
    map_masked_zero xs (by simp only [List.mem_append, List.mem_range'_1]; omega)]

/-- Nobody has anything. -/
theorem masked_nil (xs : List α) : masked xs [] = List.replicate xs.length 0 := by
  rw [masked, List.range_eq_range']
  exact map_masked_zero xs (by simp)

/-- The entries of a sum of lists of one length. -/
theorem getD_foldl_zipWith_add {n : Nat} {lists : List (List α)} {acc : List α}
    (hacc : acc.length = n) (h : ∀ xs ∈ lists, xs.length = n) :
    (lists.foldl (List.zipWith (· + ·)) acc).length = n ∧
      ∀ i < n, (lists.foldl (List.zipWith (· + ·)) acc).getD i 0 =
        acc.getD i 0 + (lists.map (·.getD i 0)).sum := by
  induction lists generalizing acc with
  | nil => exact ⟨hacc, fun i _ => by simp⟩
  | cons xs lists ih =>
    have hxs := h xs List.mem_cons_self
    have hzip : (List.zipWith (· + ·) acc xs).length = n := by
      rw [List.length_zipWith, hacc, hxs, Nat.min_self]
    obtain ⟨hlength, hget⟩ := ih hzip fun ys hys => h ys (List.mem_cons_of_mem _ hys)
    refine ⟨hlength, ?_⟩
    intro i hi
    rw [List.foldl_cons, hget i hi, List.getD_eq_getElem _ _ (by omega), List.getElem_zipWith,
      List.map_cons, List.sum_cons, List.getD_eq_getElem _ _ (by omega),
      List.getD_eq_getElem _ _ (by omega), add_assoc]

/-- One holder of several has the position. -/
theorem sum_ite_of_count {κ : Type*} {ks : List κ} {positions : κ → List Nat} {i : Nat} (x : α)
    (h : (ks.flatMap positions).count i = 1) :
    (ks.map fun k => if i ∈ positions k then x else 0).sum = x := by
  induction ks with
  | nil => simp at h
  | cons k ks ih =>
    rw [List.flatMap_cons, List.count_append] at h
    rw [List.map_cons, List.sum_cons]
    by_cases hk : i ∈ positions k
    · have hpos := List.count_pos_iff.mpr hk
      have hrest : i ∉ ks.flatMap positions := by
        rw [← List.count_eq_zero]
        omega
      have hzero : (ks.map fun k => if i ∈ positions k then x else 0).sum = 0 := by
        apply List.sum_eq_zero
        intro y hy
        obtain ⟨k', hk', rfl⟩ := List.mem_map.mp hy
        exact if_neg fun hmem => hrest (List.mem_flatMap.mpr ⟨k', hk', hmem⟩)
      rw [if_pos hk, hzero, add_zero]
    · rw [List.count_eq_zero.mpr hk, Nat.zero_add] at h
      rw [if_neg hk, ih h, zero_add]

/-- The lists of holders that have every position once add up to the list. -/
theorem sum_masked {κ : Type*} {xs : List α} {ks : List κ} {positions : κ → List Nat}
    (h : (ks.flatMap positions).Perm (List.range xs.length)) :
    (ks.map fun k => masked xs (positions k)).foldl (List.zipWith (· + ·))
      (List.replicate xs.length 0) = xs := by
  have hzeros : (List.replicate xs.length (0 : α)).length = xs.length := List.length_replicate
  have hlists : ∀ ys ∈ ks.map fun k => masked xs (positions k), ys.length = xs.length := by
    simp
  obtain ⟨hlength, hget⟩ := getD_foldl_zipWith_add hzeros hlists
  apply List.ext_getElem hlength
  intro i hi hi'
  have hsum := hget i hi'
  rw [List.getD_eq_getElem _ _ hi, List.getD_replicate _ hi', zero_add, List.map_map] at hsum
  rw [hsum, ← List.getD_eq_getElem _ 0 hi']
  have hcount : (ks.flatMap positions).count i = 1 := by
    rw [h.count_eq]
    exact List.count_eq_one_of_mem List.nodup_range (List.mem_range.mpr hi')
  rw [← sum_ite_of_count (xs.getD i 0) hcount]
  congr 1
  apply List.map_congr_left
  intro k _
  exact getD_masked hi' (positions k)

end Sum

end Segments
