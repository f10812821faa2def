import Mathlib

/-!
# Ragged rows in compressed form

A list of rows of different lengths, kept as two flat arrays: all entries in row order, and
for each row the offset of its first entry.  The rows stay the meaning; what is computed
with the flat arrays (slices, joins, per-entry row and column numbers, scattering into a
padded matrix) is stated on the rows.

## Key results

- `slice_flatten`: the entries between two row offsets are those of the rows between them
- `offsets_append`, `take_offsets`: offsets of joined and of cut rows
- `entries_eq`: the numbered entries, row by row
- `scatter_entries`: scattering the entries of some rows pads those and blanks the others
-/

namespace Csr

variable {α : Type*}

/-! ### Offsets -/

/-- `concatenate(([0], cumsum(lengths)))` -/
def offsets (lengths : List Nat) : List Nat := lengths.scanl (· + ·) 0

/-- `diff(offsets)` -/
def diff (offs : List Nat) : List Nat := List.zipWith (fun a b => b - a) offs offs.tail

theorem scanl_add (lengths : List Nat) (base : Nat) :
    lengths.scanl (· + ·) base = (offsets lengths).map (base + ·) := by
  induction lengths generalizing base with
  | nil => simp [offsets]
  | cons n ns ih =>
    rw [List.scanl_cons, ih (base + n)]
    show _ = ((n :: ns).scanl (· + ·) 0).map (base + ·)
    rw [List.scanl_cons, Nat.zero_add, ih n, List.map_cons, List.map_map, Nat.add_zero]
    congr 1
    apply List.map_congr_left
    intro i _
    show base + n + i = base + (n + i)
    omega

theorem offsets_cons (n : Nat) (ns : List Nat) :
    offsets (n :: ns) = 0 :: (offsets ns).map (n + ·) := by
  show (n :: ns).scanl (· + ·) 0 = _
  rw [List.scanl_cons, scanl_add, Nat.zero_add]

@[simp] theorem offsets_nil : offsets [] = [0] := rfl

@[simp] theorem length_offsets (ns : List Nat) : (offsets ns).length = ns.length + 1 := by
  simp [offsets]

theorem getElem?_offsets {ns : List Nat} {i : Nat} (h : i ≤ ns.length) :
    (offsets ns)[i]? = some (ns.take i).sum := by
  induction ns generalizing i with
  | nil =>
    have hzero : i = 0 := by simpa using h
    simp [hzero]
  | cons n ns ih =>
    rw [offsets_cons]
    cases i with
    | zero => simp
    | succ i =>
      have hle : i ≤ ns.length := by simpa using h
      simp [ih hle]

/-- The offsets of joined rows: the second ones follow the entries of the first. -/
theorem offsets_append (ms ns : List Nat) :
    offsets (ms ++ ns) = offsets ms ++ (offsets ns).tail.map (ms.sum + ·) := by
  induction ms with
  | nil =>
    cases ns with
    | nil => rfl
    | cons n ns => simp [offsets_cons]
  | cons m ms ih =>
    rw [List.cons_append, offsets_cons, ih, offsets_cons, List.map_append, List.map_map,
      List.cons_append]
    congr 2
    apply List.map_congr_left
    intro i _
    simp only [Function.comp_apply, List.sum_cons]
    omega

/-- The offsets of the first rows are the first offsets. -/
theorem take_offsets (ns : List Nat) (k : Nat) :
    (offsets ns).take (k + 1) = offsets (ns.take k) := by
  induction ns generalizing k with
  | nil => simp
  | cons n ns ih =>
    cases k with
    | zero => simp [offsets_cons]
    | succ k =>
      rw [offsets_cons, List.take_succ_cons, List.take_succ_cons, offsets_cons, ← List.map_take,
        ih]

@[simp] theorem diff_offsets (ns : List Nat) : diff (offsets ns) = ns := by
  induction ns with
  | nil => rfl
  | cons n ns ih =>
    have htail : (offsets ns).head? = some 0 := by
      cases ns with
      | nil => rfl
      | cons m ms => rw [offsets_cons]; rfl
    obtain ⟨rest, hrest⟩ : ∃ rest, offsets ns = 0 :: rest := by
      cases hoffs : offsets ns with
      | nil => simp [hoffs] at htail
      | cons o rest => exact ⟨rest, by rw [hoffs] at htail; simpa using htail⟩
    have hdiff : diff ((offsets ns).map (n + ·)) = ns := by
      rw [diff, ← List.map_tail, List.zipWith_map]
      have hsub : (fun a b : Nat => n + b - (n + a)) = fun a b => b - a := by
        funext a b
        omega
      rw [hsub]
      exact ih
    rw [offsets_cons, hrest]
    rw [hrest] at hdiff
    simp only [diff, List.tail_cons, List.map_cons, List.zipWith_cons_cons, Nat.add_zero,
      Nat.sub_zero] at hdiff ⊢
    rw [hdiff]

theorem getLast?_offsets (ns : List Nat) : (offsets ns).getLast? = some ns.sum := by
  rw [List.getLast?_eq_getElem?, length_offsets, Nat.add_sub_cancel, getElem?_offsets (le_refl _),
    List.take_length]

/-- Offsets that do not go back are the sums of their differences. -/
theorem scanl_diff {first : Nat} {rest : List Nat} (h : (first :: rest).IsChain (· < ·)) :
    (diff (first :: rest)).scanl (· + ·) first = first :: rest := by
  induction rest generalizing first with
  | nil => rfl
  | cons second rest ih =>
    rw [List.isChain_cons_cons] at h
    have hdiff : diff (first :: second :: rest) = (second - first) :: diff (second :: rest) := rfl
    rw [hdiff, List.scanl_cons, Nat.add_sub_cancel' h.1.le, ih h.2]

/-- Increasing offsets from zero to the number of entries are those of some rows. -/
theorem exists_rows {flat : List α} {offs : List Nat} (hstart : offs.head? = some 0)
    (hend : offs.getLast? = some flat.length) (hchain : offs.IsChain (· < ·)) :
    ∃ rows : List (List α), rows.flatten = flat ∧ offsets (rows.map List.length) = offs := by
  have hoffs : offsets (diff offs) = offs := by
    cases offs with
    | nil => simp at hstart
    | cons first rest =>
      have hzero : first = 0 := by simpa using hstart
      subst hzero
      exact scanl_diff hchain
  have hsum : (diff offs).sum = flat.length := by
    rw [← hoffs, getLast?_offsets] at hend
    exact Option.some.inj hend
  refine ⟨(diff offs).splitLengths flat, List.flatten_splitLengths _ _ hsum.ge, ?_⟩
  rw [List.map_splitLengths_length _ _ hsum.le, hoffs]

/-- Rows without an empty one have increasing offsets, and only those. -/
theorem pairwise_offsets {ns : List Nat} : (offsets ns).Pairwise (· < ·) ↔ ∀ n ∈ ns, 0 < n := by
  induction ns with
  | nil => simp
  | cons n ns ih =>
    rw [offsets_cons, List.pairwise_cons, List.pairwise_map]
    simp only [Nat.add_lt_add_iff_left, ih, List.mem_map, forall_exists_index, and_imp,
      forall_apply_eq_imp_iff₂, List.mem_cons, forall_eq_or_imp]
    constructor
    · rintro ⟨hfirst, hrest⟩
      have hzero : (0 : Nat) ∈ offsets ns := by
        apply List.mem_of_getElem? (i := 0)
        rw [getElem?_offsets (Nat.zero_le _)]
        simp
      have hpos := hfirst 0 hzero
      exact ⟨by omega, hrest⟩
    · rintro ⟨hn, hrest⟩
      exact ⟨fun i _ => by omega, hrest⟩

/-! ### Slices -/

theorem sum_take_le_length_flatten (rows : List (List α)) (i : Nat) :
    ((rows.map List.length).take i).sum = (rows.take i).flatten.length := by
  rw [← List.map_take, List.length_flatten]

/-- The entries between two row offsets are those of the rows between them. -/
theorem slice_flatten (rows : List (List α)) (i j : Nat) :
    (rows.flatten.take ((rows.map List.length).take j).sum).drop
        ((rows.map List.length).take i).sum = ((rows.take j).drop i).flatten := by
  have htake : rows.flatten.take ((rows.map List.length).take j).sum = (rows.take j).flatten := by
    conv_lhs => rw [← List.take_append_drop j rows, List.flatten_append]
    rw [List.take_append_drop, sum_take_le_length_flatten, List.take_left]
  rw [htake]
  by_cases hij : i ≤ j
  · have hsum : ((rows.map List.length).take i).sum = ((rows.take j).take i).flatten.length := by
      rw [sum_take_le_length_flatten, List.take_take, Nat.min_eq_left hij]
    conv_lhs => rw [← List.take_append_drop i (rows.take j), List.flatten_append]
    rw [hsum, List.drop_left]
  · have hnil : (rows.take j).drop i = [] := by
      apply List.drop_eq_nil_of_le
      simp only [List.length_take]
      omega
    rw [hnil, List.flatten_nil, sum_take_le_length_flatten]
    apply List.drop_eq_nil_of_le
    have hsub : (rows.take j).Sublist (rows.take i) := by
      have : rows.take j = (rows.take i).take j := by
        rw [List.take_take, Nat.min_eq_left (by omega)]
      rw [this]
      exact List.take_sublist _ _
    exact hsub.flatten.length_le

/-! ### Numbered entries -/

/-- `repeat(arange(len(lengths)), lengths)` -/
def entryRow (lengths : List Nat) : List Nat :=
  lengths.zipIdx.flatMap fun row => List.replicate row.1 row.2

/-- `arange(len(entry_row)) - offsets[entry_row]` -/
def entryCol (offs : List Nat) (entryRow : List Nat) : List Nat :=
  (List.range entryRow.length).zipWith (fun p r => p - offs.getD r 0) entryRow

/-- Every entry of the flat array with its row and column. -/
def entries (offs : List Nat) (flat : List α) : List ((Nat × Nat) × α) :=
  ((entryRow (diff offs)).zip (entryCol offs (entryRow (diff offs)))).zip flat

theorem entryRow_concat (ns : List Nat) (n : Nat) :
    entryRow (ns ++ [n]) = entryRow ns ++ List.replicate n ns.length := by
  simp [entryRow, List.zipIdx_append]

theorem length_entryRow (ns : List Nat) : (entryRow ns).length = ns.sum := by
  induction ns using List.reverseRecOn with
  | nil => rfl
  | append_singleton ns n ih => simp [entryRow_concat, ih]

theorem mem_entryRow {ns : List Nat} {r : Nat} (h : r ∈ entryRow ns) : r < ns.length := by
  simp only [entryRow, List.mem_flatMap, List.mem_replicate] at h
  obtain ⟨row, hrow, _, rfl⟩ := h
  have := List.snd_lt_of_mem_zipIdx hrow
  omega

theorem entryCol_concat (ns : List Nat) (n : Nat) :
    entryCol (offsets (ns ++ [n])) (entryRow (ns ++ [n])) =
      entryCol (offsets ns) (entryRow ns) ++ List.range n := by
  have hrange : List.range (entryRow (ns ++ [n])).length =
      List.range (entryRow ns).length ++ (List.range n).map (ns.sum + ·) := by
    rw [length_entryRow, length_entryRow, List.sum_append, List.range_add]
    simp
  rw [entryCol, hrange, entryRow_concat, List.zipWith_append (by simp), entryCol]
  congr 1
  · -- the offsets of the rows already there are unchanged
    apply List.ext_getElem?
    intro i
    rw [List.getElem?_zipWith, List.getElem?_zipWith]
    cases hr : (entryRow ns)[i]? with
    | none => simp
    | some r =>
      have hlt : r < ns.length := mem_entryRow (List.mem_of_getElem? hr)
      have hnew : (offsets (ns ++ [n])).getD r 0 = (offsets ns).getD r 0 := by
        rw [List.getD_eq_getElem?_getD, List.getD_eq_getElem?_getD, offsets_append,
          List.getElem?_append_left (by rw [length_offsets]; omega)]
      cases (List.range (entryRow ns).length)[i]? <;> simp only [hnew]
  · apply List.ext_getElem?
    intro i
    have hlast : (offsets (ns ++ [n])).getD ns.length 0 = ns.sum := by
      rw [List.getD_eq_getElem?_getD, getElem?_offsets (by simp), List.take_left]
      rfl
    rw [List.getElem?_zipWith, List.getElem?_map, List.getElem?_replicate]
    by_cases hi : i < n
    · rw [List.getElem?_range hi, if_pos hi]
      simp only [Option.map_some, hlast]
      congr 1
      omega
    · rw [List.getElem?_eq_none (by simpa using hi)]
      simp

/-- The numbered entries, row by row. -/
theorem entries_eq (rows : List (List α)) :
    entries (offsets (rows.map List.length)) rows.flatten =
      rows.zipIdx.flatMap fun row => row.1.zipIdx.map fun e => ((row.2, e.2), e.1) := by
  unfold entries
  rw [diff_offsets]
  induction rows using List.reverseRecOn with
  | nil => rfl
  | append_singleton rows row ih =>
    have hlen : (entryRow (rows.map List.length)).length =
        (entryCol (offsets (rows.map List.length)) (entryRow (rows.map List.length))).length := by
      simp [entryCol]
    have hflat : ((entryRow (rows.map List.length)).zip
        (entryCol (offsets (rows.map List.length)) (entryRow (rows.map List.length)))).length =
        rows.flatten.length := by
      rw [List.length_zip, ← hlen, Nat.min_self, length_entryRow, List.length_flatten]
    rw [List.map_append, List.map_singleton, entryCol_concat, entryRow_concat,
      List.zip_append hlen, List.flatten_append, List.zip_append hflat, ih,
      List.zipIdx_append, List.flatMap_append]
    congr 1
    apply List.ext_getElem?
    intro i
    simp only [List.flatten_cons, List.flatten_nil, List.append_nil, List.length_map,
      List.zipIdx_cons, List.zipIdx_nil, List.flatMap_cons, List.flatMap_nil, Nat.zero_add,
      List.getElem?_map, List.getElem?_zipIdx]
    by_cases hi : i < row.length
    · simp [hi]
    · have hnone : row[i]? = none := List.getElem?_eq_none (by omega)
      rw [hnone, List.getElem?_eq_none]
      · rfl
      · simp only [List.length_zip, List.length_replicate, List.length_range, Nat.min_self]
        omega

/-- An entry of a row, by its position. -/
theorem mem_entries {rows : List (List α)} {r c : Nat} {x : α} :
    ((r, c), x) ∈ entries (offsets (rows.map List.length)) rows.flatten ↔
      ∃ row, rows[r]? = some row ∧ row[c]? = some x := by
  rw [entries_eq]
  simp only [List.mem_flatMap, List.mem_map, Prod.exists, Prod.mk.injEq, List.mem_zipIdx_iff_getElem?]
  constructor
  · rintro ⟨row, i, hrow, y, j, hy, ⟨rfl, rfl⟩, rfl⟩
    exact ⟨row, hrow, hy⟩
  · rintro ⟨row, hrow, hx⟩
    exact ⟨row, r, hrow, x, c, hx, ⟨rfl, rfl⟩, rfl⟩

/-- Counting the entries of one row counts in the row. -/
theorem countP_entries (rows : List (List α)) (p : α → Bool) {r : Nat} {row : List α}
    (hrow : rows[r]? = some row) :
    ((entries (offsets (rows.map List.length)) rows.flatten).countP fun e =>
      e.1.1 == r && p e.2) = row.countP p := by
  rw [entries_eq, List.countP_flatMap]
  have hother : ∀ q ∈ rows.zipIdx, ((fun row : List α × Nat =>
      (row.1.zipIdx.map fun e => ((row.2, e.2), e.1)).countP fun e =>
        e.1.1 == r && p e.2) q) = if q.2 = r then q.1.countP p else 0 := by
    intro q _
    simp only [List.countP_map]
    by_cases hq : q.2 = r
    · rw [if_pos hq]
      have hp : ((fun e : (Nat × Nat) × α => e.1.1 == r && p e.2) ∘
          fun e : α × Nat => ((q.2, e.2), e.1)) = p ∘ Prod.fst := by
        funext e
        simp [hq]
      rw [hp, ← List.countP_map, List.zipIdx_map_fst]
    · rw [if_neg hq, List.countP_eq_zero]
      intro e _
      simp [hq]
  have hsum : rows.zipIdx.map (fun row : List α × Nat =>
      (row.1.zipIdx.map fun e => ((row.2, e.2), e.1)).countP fun e => e.1.1 == r && p e.2) =
      rows.zipIdx.map fun q => if q.2 = r then q.1.countP p else 0 :=
    List.map_congr_left hother
  simp only [Function.comp_def]
  rw [hsum]
  -- only the row numbered `r` contributes
  clear hsum hother
  induction rows using List.reverseRecOn with
  | nil => simp at hrow
  | append_singleton rows last ih =>
    rw [List.zipIdx_append, List.map_append, List.sum_append]
    simp only [List.zipIdx_cons, List.zipIdx_nil, List.map_cons, List.map_nil, Nat.zero_add,
      List.sum_cons, List.sum_nil, Nat.add_zero]
    by_cases hr : r < rows.length
    · rw [List.getElem?_append_left hr] at hrow
      have hne : ¬ rows.length = r := by omega
      rw [ih hrow, if_neg hne, Nat.add_zero]
    · have heq : r = rows.length := by
        have hlt : r < (rows ++ [last]).length := by
          by_contra hge
          rw [List.getElem?_eq_none (by omega)] at hrow
          exact absurd hrow (by simp)
        simp only [List.length_append, List.length_singleton] at hlt
        omega
      subst heq
      have hlast : last = row := by simpa using hrow
      have hzero : (rows.zipIdx.map fun q : List α × Nat =>
          if q.2 = rows.length then q.1.countP p else 0).sum = 0 := by
        apply List.sum_eq_zero
        intro n hn
        obtain ⟨q, hq, rfl⟩ := List.mem_map.mp hn
        have hlt := List.snd_lt_of_mem_zipIdx hq
        have hne : ¬ q.2 = rows.length := by omega
        rw [if_neg hne]
      rw [hzero, if_pos rfl, hlast, Nat.zero_add]

theorem nodup_keys_entries (rows : List (List α)) :
    ((entries (offsets (rows.map List.length)) rows.flatten).map Prod.fst).Nodup := by
  rw [entries_eq]
  induction rows using List.reverseRecOn with
  | nil => simp
  | append_singleton rows row ih =>
    rw [List.zipIdx_append, List.flatMap_append, List.map_append]
    apply List.Nodup.append ih
    · simp only [List.zipIdx_cons, List.zipIdx_nil, List.flatMap_cons, List.flatMap_nil,
        List.append_nil, List.map_map]
      have hcols : (Prod.fst ∘ fun e : α × Nat => ((0 + rows.length, e.2), e.1)) =
          (fun c => (0 + rows.length, c)) ∘ Prod.snd := rfl
      rw [hcols, ← List.map_map, List.zipIdx_map_snd]
      exact List.Nodup.map (fun a b h => (Prod.mk.injEq .. ▸ h).2) (List.nodup_range')
    · -- the rows before have smaller numbers
      intro key hleft hright
      simp only [List.mem_map, List.mem_flatMap, Prod.exists] at hleft hright
      obtain ⟨_, _, _, ⟨left, i, hi, _, _, _, hleft⟩, rfl⟩ := hleft
      obtain ⟨_, _, _, ⟨right, j, hj, _, _, _, hright⟩, hsame⟩ := hright
      have hlt := List.snd_lt_of_mem_zipIdx hi
      have hge := List.le_snd_of_mem_zipIdx hj
      simp only [Prod.mk.injEq] at hleft hright
      grind

/-! ### Scattering -/

/-- A row filled up to `k` columns. -/
def pad (fill : α) (k : Nat) (row : List α) : List α := row ++ List.replicate (k - row.length) fill

/-- `out = full((n, k), fill); out[rows, cols] = values`: a repeated position keeps the last
    value assigned to it. -/
def scatter (fill : α) (n k : Nat) (assignments : List ((Nat × Nat) × α)) : List (List α) :=
  (List.range n).map fun r => (List.range k).map fun c =>
    ((assignments.reverse.find? fun e => decide (e.1 = (r, c))).map Prod.snd).getD fill

theorem find?_reverse_of_nodup {κ : Type*} [DecidableEq κ] {xs : List (κ × α)}
    (hkeys : (xs.map Prod.fst).Nodup) {key : κ} {x : α} (hmem : (key, x) ∈ xs) :
    xs.reverse.find? (fun e => decide (e.1 = key)) = some (key, x) := by
  cases hfind : xs.reverse.find? (fun e => decide (e.1 = key)) with
  | none =>
    rw [List.find?_eq_none] at hfind
    have := hfind (key, x) (by simpa using hmem)
    simp at this
  | some e =>
    have hkey : e.1 = key := by simpa using List.find?_some hfind
    have he : e ∈ xs := by simpa using List.mem_of_find?_eq_some hfind
    have hsame := List.inj_on_of_nodup_map hkeys he hmem hkey
    rw [hsame]

/-- Scattering the entries of the rows to keep pads those and blanks the others. -/
theorem scatter_entries (fill : α) (k : Nat) (rows : List (List α)) (keep : Nat → Bool)
    (hfit : ∀ r row, rows[r]? = some row → keep r → row.length ≤ k) :
    scatter fill rows.length k ((entries (offsets (rows.map List.length)) rows.flatten).filter
        fun e => keep e.1.1) =
      rows.zipIdx.map fun row => if keep row.2 then pad fill k row.1 else List.replicate k fill := by
  apply List.ext_getElem?
  intro r
  rw [scatter, List.getElem?_map, List.getElem?_map, List.getElem?_zipIdx]
  by_cases hr : r < rows.length
  swap
  · rw [List.getElem?_eq_none (by simpa using hr), List.getElem?_eq_none (by omega)]
    rfl
  have hrow : rows[r]? = some rows[r] := List.getElem?_eq_getElem hr
  rw [List.getElem?_range hr, hrow]
  simp only [Option.map_some, Nat.zero_add, Option.some.injEq]
  -- no two entries have one position, so the last write is the only one
  have hkeys : (((entries (offsets (rows.map List.length)) rows.flatten).filter
      fun e => keep e.1.1).map Prod.fst).Nodup :=
    (nodup_keys_entries rows).sublist (List.filter_sublist.map _)
  apply List.ext_getElem?
  intro c
  rw [List.getElem?_map]
  by_cases hc : c < k
  swap
  · rw [List.getElem?_eq_none (by simpa using hc)]
    split
    · rename_i hkeep
      have hfits := hfit r _ hrow hkeep
      rw [pad, List.getElem?_eq_none]
      · rfl
      · simp only [List.length_append, List.length_replicate]
        omega
    · rw [List.getElem?_eq_none (by simpa using hc)]
      rfl
  rw [List.getElem?_range hc]
  simp only [Option.map_some]
  by_cases hkeep : keep r
  · rw [if_pos hkeep, pad]
    by_cases hcol : c < rows[r].length
    · -- the one entry of this position
      have hmem : ((r, c), rows[r][c]) ∈ (entries (offsets (rows.map List.length))
          rows.flatten).filter fun e => keep e.1.1 := by
        rw [List.mem_filter]
        exact ⟨mem_entries.mpr ⟨_, hrow, List.getElem?_eq_getElem hcol⟩, hkeep⟩
      rw [find?_reverse_of_nodup hkeys hmem, List.getElem?_append_left hcol,
        List.getElem?_eq_getElem hcol]
      rfl
    · have hnone : ((entries (offsets (rows.map List.length)) rows.flatten).filter
          fun e => keep e.1.1).reverse.find? (fun e => decide (e.1 = (r, c))) = none := by
        rw [List.find?_eq_none]
        intro e he
        obtain ⟨he, -⟩ := List.mem_filter.mp (List.mem_reverse.mp he)
        intro hkey
        have hpos : e.1 = (r, c) := by simpa using hkey
        have he' : ((r, c), e.2) ∈ entries (offsets (rows.map List.length)) rows.flatten := by
          rw [← hpos]
          exact he
        obtain ⟨row, hrow', hx⟩ := mem_entries.mp he'
        rw [hrow] at hrow'
        rw [← Option.some.inj hrow', List.getElem?_eq_none (by omega)] at hx
        exact absurd hx (by simp)
      rw [hnone, List.getElem?_append_right (by omega), List.getElem?_replicate,
        if_pos (by omega)]
      rfl
  · rw [if_neg hkeep, List.getElem?_replicate, if_pos hc]
    have hnone : ((entries (offsets (rows.map List.length)) rows.flatten).filter
        fun e => keep e.1.1).reverse.find? (fun e => decide (e.1 = (r, c))) = none := by
      rw [List.find?_eq_none]
      intro e he hkey
      obtain ⟨-, he⟩ := List.mem_filter.mp (List.mem_reverse.mp he)
      have hpos : e.1 = (r, c) := by simpa using hkey
      rw [hpos] at he
      exact hkeep he
    rw [hnone]
    rfl

end Csr
