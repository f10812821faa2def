import Mathlib.Algebra.Ring.Nat
import Mathlib.Algebra.BigOperators.Group.List.Basic

/-!
# Runs in a row of values

A row of values holds runs of values, with gaps before, between and after them.  A layout is the
list of the lengths of the runs, each with the length of the gap before it.  Runs are gathered from
a row, and scattered onto one.

## Key results

- `perm_gaps_runs`: a row has the values of its gaps and of its runs
- `map_getElem?_positions`: the values at the positions of the runs
- `runs_scatter`, `gaps_scatter`: scattering values changes the runs alone
- `oddItems_split`: splitting a row at the ends of the gaps and of the runs
- `getElem?_indexAdd`, `indexAdd_runs`: what is added at an index, and the sums of the runs
-/

namespace Ragged

variable {α β γ : Type*}

/-- The lengths of the runs, each with the length of the gap before it. -/
abbrev Layout := List (Nat × Nat)

/-- How far the last run reaches. -/
def span (layout : Layout) : Nat := (layout.map fun l => l.1 + l.2).sum

theorem span_cons (l : Nat × Nat) (layout : Layout) :
    span (l :: layout) = l.1 + l.2 + span layout := by
  simp [span]

/-- The runs of a row -/
def runs : Layout → List α → List (List α)
  | [], _ => []
  | l :: layout, x => (x.drop l.1).take l.2 :: runs layout (x.drop (l.1 + l.2))

/-- What lies outside the runs. -/
def gaps : Layout → List α → List α
  | [], x => x
  | l :: layout, x => x.take l.1 ++ gaps layout (x.drop (l.1 + l.2))

/-- The positions of the runs in a row that begins at `start`. -/
def positions (start : Nat) : Layout → List Nat
  | [] => []
  | l :: layout =>
    List.range' (start + l.1) l.2 ++ positions (start + l.1 + l.2) layout

/-- `x.split(sizes)` -/
def split (x : List α) : List Nat → List (List α)
  | [] => []
  | size :: sizes => x.take size :: split (x.drop size) sizes

/-- `xs[1::2]` -/
def oddItems : List α → List α
  | [] => []
  | [_] => []
  | _ :: b :: rest => b :: oddItems rest

/-! ### Splitting -/

theorem split_flatten (runs : List (List α)) :
    split runs.flatten (runs.map List.length) = runs := by
  induction runs with
  | nil => rfl
  | cons run runs ih => simp [split, ih]

theorem split_map (f : α → β) (x : List α) (sizes : List Nat) :
    split (x.map f) sizes = (split x sizes).map (List.map f) := by
  induction sizes generalizing x with
  | nil => rfl
  | cons size sizes ih => simp [split, ← List.map_take, ← List.map_drop, ih]

/-- Splitting a row at the ends of the gaps and of the runs. -/
theorem oddItems_split (layout : Layout) (x : List α) (tail : Nat) :
    oddItems (split x (layout.flatMap (fun l => [l.1, l.2]) ++ [tail])) = runs layout x := by
  induction layout generalizing x with
  | nil => rfl
  | cons l layout ih =>
    simp only [List.flatMap_cons, List.cons_append, List.nil_append, split, oddItems, ih,
      List.drop_drop, runs]

/-! ### Runs and gaps -/

theorem length_runs (layout : Layout) (x : List α) : (runs layout x).length = layout.length := by
  induction layout generalizing x with
  | nil => rfl
  | cons l layout ih => simp [runs, ih]

variable {layout : Layout}

/-- The runs have the lengths of the layout, if the row is long enough. -/
theorem map_length_runs {x : List α} (h : span layout ≤ x.length) :
    (runs layout x).map List.length = layout.map Prod.snd := by
  induction layout generalizing x with
  | nil => rfl
  | cons l layout ih =>
    rw [span_cons] at h
    have hrest := ih (x := x.drop (l.1 + l.2)) (by rw [List.length_drop]; omega)
    have hfirst : ((x.drop l.1).take l.2).length = l.2 := by
      rw [List.length_take, List.length_drop]
      omega
    rw [runs, List.map_cons, List.map_cons, hrest, hfirst]

/-- A row has the values of its gaps and of its runs. -/
theorem perm_gaps_runs (layout : Layout) (x : List α) :
    x.Perm (gaps layout x ++ (runs layout x).flatten) := by
  induction layout generalizing x with
  | nil => simp [gaps, runs]
  | cons l layout ih =>
    have hparts : x = x.take l.1 ++ ((x.drop l.1).take l.2 ++ x.drop (l.1 + l.2)) := by
      rw [← List.drop_drop, List.take_append_drop, List.take_append_drop]
    -- the run is behind the rest of the gaps now
    have hrest : ((x.drop l.1).take l.2 ++ x.drop (l.1 + l.2)).Perm
        (gaps layout (x.drop (l.1 + l.2)) ++
          ((x.drop l.1).take l.2 ++ (runs layout (x.drop (l.1 + l.2))).flatten)) := by
      refine ((ih _).append_left _).trans ?_
      rw [← List.append_assoc, ← List.append_assoc]
      exact List.perm_append_comm.append_right _
    calc x = x.take l.1 ++ ((x.drop l.1).take l.2 ++ x.drop (l.1 + l.2)) := hparts
      _ |>.Perm _ := hrest.append_left _
      _ = gaps (l :: layout) x ++ (runs (l :: layout) x).flatten := by
        rw [gaps, runs, List.flatten_cons, List.append_assoc]

theorem runs_zipWith (f : α → β → γ) (layout : Layout) (x : List α) (y : List β) :
    runs layout (List.zipWith f x y) =
      List.zipWith (List.zipWith f) (runs layout x) (runs layout y) := by
  induction layout generalizing x y with
  | nil => rfl
  | cons l layout ih =>
    simp only [runs, List.drop_zipWith, List.take_zipWith, ih, List.zipWith_cons_cons]

theorem gaps_zipWith (f : α → β → γ) {x : List α} {y : List β}
    (h : x.length = y.length) :
    gaps layout (List.zipWith f x y) = List.zipWith f (gaps layout x) (gaps layout y) := by
  induction layout generalizing x y with
  | nil => rfl
  | cons l layout ih =>
    have hrest : (x.drop (l.1 + l.2)).length = (y.drop (l.1 + l.2)).length := by
      rw [List.length_drop, List.length_drop, h]
    have hfirst : (x.take l.1).length = (y.take l.1).length := by
      rw [List.length_take, List.length_take, h]
    simp only [gaps, List.drop_zipWith, List.take_zipWith, ih hrest]
    rw [List.zipWith_append hfirst]

theorem runs_map (f : α → β) (layout : Layout) (x : List α) :
    runs layout (x.map f) = (runs layout x).map (List.map f) := by
  induction layout generalizing x with
  | nil => rfl
  | cons l layout ih => simp [runs, ← List.map_drop, ← List.map_take, ih]

theorem runs_replicate (layout : Layout) {a : α} {n : Nat} (h : span layout ≤ n) :
    runs layout (List.replicate n a) = layout.map fun l => List.replicate l.2 a := by
  induction layout generalizing n with
  | nil => rfl
  | cons l layout ih =>
    rw [span_cons] at h
    rw [runs, List.map_cons, List.drop_replicate, List.drop_replicate, List.take_replicate,
      ih (by omega), Nat.min_eq_left (by omega)]

theorem mem_gaps {x : List α} {a : α} (h : a ∈ gaps layout x) : a ∈ x := by
  rw [(perm_gaps_runs layout x).mem_iff]
  exact List.mem_append_left _ h

/-! ### Gathering and scattering -/

/-- The values at the positions of the runs. -/
theorem map_getElem?_positions {x : List α} (front : List α)
    (h : span layout ≤ x.length) :
    (positions front.length layout).map (fun i => (front ++ x)[i]?) =
      (runs layout x).flatten.map some := by
  induction layout generalizing front x with
  | nil => rfl
  | cons l layout ih =>
    rw [span_cons] at h
    have hparts : front ++ x = (front ++ x.take (l.1 + l.2)) ++ x.drop (l.1 + l.2) := by
      rw [List.append_assoc, List.take_append_drop]
    have hlength : (front ++ x.take (l.1 + l.2)).length = front.length + l.1 + l.2 := by
      rw [List.length_append, List.length_take]
      omega
    have hrest := ih (front ++ x.take (l.1 + l.2)) (x := x.drop (l.1 + l.2))
      (by rw [List.length_drop]; omega)
    rw [← hparts, hlength] at hrest
    rw [positions, runs, List.map_append, List.flatten_cons, List.map_append, hrest]
    congr 1
    apply List.ext_getElem
    · simp
      omega
    · intro i hi hi'
      rw [List.length_map, List.length_range'] at hi
      have hget : (front ++ x)[front.length + l.1 + i]? = x[l.1 + i]? := by
        rw [List.getElem?_append_right (by omega)]
        congr 1
        omega
      have hin : l.1 + i < x.length := by omega
      simp [hget, List.getElem?_eq_getElem hin]

/-- Writes the values at these positions, one after the other. -/
def scatter (positions : List Nat) (values : List α) (x : List α) : List α :=
  (positions.zip values).foldl (fun x write => x.set write.1 write.2) x

theorem scatter_append (p q : List Nat) {u : List α} (v x : List α) (h : p.length = u.length) :
    scatter (p ++ q) (u ++ v) x = scatter q v (scatter p u x) := by
  rw [scatter, List.zip_append h, List.foldl_append]
  rfl

theorem scatter_range' (front values old back : List α) (h : old.length = values.length) :
    scatter (List.range' front.length values.length) values (front ++ (old ++ back)) =
      front ++ (values ++ back) := by
  induction values generalizing front old with
  | nil =>
    rw [List.eq_nil_of_length_eq_zero h]
    rfl
  | cons value values ih =>
    cases old with
    | nil => cases h
    | cons a old =>
      have hrest := ih (front ++ [value]) old (Nat.succ.inj h)
      have hset : (front ++ (a :: old ++ back)).set front.length value =
          front ++ [value] ++ (old ++ back) := by
        simp
      rw [List.length_append] at hrest
      rw [List.length_cons, List.range'_succ]
      show scatter (List.range' (front.length + 1) values.length) values
        ((front ++ (a :: old ++ back)).set front.length value) = _
      rw [hset]
      refine hrest.trans ?_
      simp

/-- A row whose runs are the given ones -/
def weave : Layout → List (List α) → List α → List α
  | l :: layout, run :: values, x =>
    x.take l.1 ++ (run ++ weave layout values (x.drop (l.1 + l.2)))
  | _, _, x => x

/-- Scattering values replaces the runs of a row. -/
theorem scatter_positions (layout : Layout) (front x : List α) (values : List (List α))
    (hvalues : values.map List.length = layout.map Prod.snd) (h : span layout ≤ x.length) :
    scatter (positions front.length layout) values.flatten (front ++ x) =
      front ++ weave layout values x := by
  induction layout generalizing front x values with
  | nil =>
    rw [List.map_nil, List.map_eq_nil_iff] at hvalues
    rw [hvalues]
    rfl
  | cons l layout ih =>
    obtain ⟨gap, len⟩ := l
    cases values with
    | nil => cases hvalues
    | cons run values =>
      rw [List.map_cons, List.map_cons, List.cons.injEq] at hvalues
      rw [span_cons] at h
      obtain ⟨rfl, hrest⟩ := hvalues
      have hparts : front ++ x = (front ++ x.take gap) ++
          ((x.drop gap).take run.length ++ x.drop (gap + run.length)) := by
        rw [List.append_assoc, ← List.drop_drop, List.take_append_drop, List.take_append_drop]
      have hlength : (front ++ x.take gap).length = front.length + gap := by
        rw [List.length_append, List.length_take]
        omega
      have hold : ((x.drop gap).take run.length).length = run.length := by
        rw [List.length_take, List.length_drop]
        omega
      have hlength' : (front ++ x.take gap ++ run).length = front.length + gap + run.length := by
        rw [List.length_append, hlength]
      have hstep := ih (front ++ x.take gap ++ run) (x.drop (gap + run.length)) values hrest
        (by rw [List.length_drop]; omega)
      rw [positions, List.flatten_cons, scatter_append _ _ _ _ (by rw [List.length_range']), hparts,
        ← hlength, scatter_range' _ _ _ _ hold, ← List.append_assoc, hlength, ← hlength', hstep]
      simp [weave]

theorem length_weave {values : List (List α)} {x : List α}
    (hvalues : values.map List.length = layout.map Prod.snd) (h : span layout ≤ x.length) :
    (weave layout values x).length = x.length := by
  induction layout generalizing values x with
  | nil => simp [weave]
  | cons l layout ih =>
    cases values with
    | nil => cases hvalues
    | cons run values =>
      rw [List.map_cons, List.map_cons, List.cons.injEq] at hvalues
      rw [span_cons] at h
      rw [weave, List.length_append, List.length_append,
        ih hvalues.2 (by rw [List.length_drop]; omega), List.length_take, List.length_drop, hvalues.1]
      omega

theorem drop_gap_run {gap run : List α} (rest : List α) {g : Nat} (h : gap.length = g) :
    (gap ++ (run ++ rest)).drop (g + run.length) = rest := by
  rw [← List.drop_drop, List.drop_left' h, List.drop_left]

theorem runs_weave {values : List (List α)} {x : List α}
    (hvalues : values.map List.length = layout.map Prod.snd) (h : span layout ≤ x.length) :
    runs layout (weave layout values x) = values := by
  induction layout generalizing values x with
  | nil =>
    rw [List.map_nil, List.map_eq_nil_iff] at hvalues
    rw [hvalues]
    rfl
  | cons l layout ih =>
    obtain ⟨gap, len⟩ := l
    cases values with
    | nil => cases hvalues
    | cons run values =>
      rw [List.map_cons, List.map_cons, List.cons.injEq] at hvalues
      rw [span_cons] at h
      obtain ⟨rfl, hrest⟩ := hvalues
      have hgap : (x.take gap).length = gap := by
        rw [List.length_take]
        omega
      rw [weave, runs, drop_gap_run _ hgap, List.drop_left' hgap, List.take_left,
        ih hrest (by rw [List.length_drop]; omega)]

theorem gaps_weave {values : List (List α)} {x : List α}
    (hvalues : values.map List.length = layout.map Prod.snd) (h : span layout ≤ x.length) :
    gaps layout (weave layout values x) = gaps layout x := by
  induction layout generalizing values x with
  | nil => rfl
  | cons l layout ih =>
    obtain ⟨gap, len⟩ := l
    cases values with
    | nil => cases hvalues
    | cons run values =>
      rw [List.map_cons, List.map_cons, List.cons.injEq] at hvalues
      rw [span_cons] at h
      obtain ⟨rfl, hrest⟩ := hvalues
      have hgap : (x.take gap).length = gap := by
        rw [List.length_take]
        omega
      rw [weave, gaps, gaps, drop_gap_run _ hgap, List.take_left' hgap,
        ih hrest (by rw [List.length_drop]; omega)]

/-! ### Sums -/

/-- The sum of a row whose gaps are zero. -/
theorem sum_of_gaps_zero [AddCommMonoid β] {x : List β}
    (h : ∀ a ∈ gaps layout x, a = 0) : x.sum = ((runs layout x).map List.sum).sum := by
  rw [(perm_gaps_runs layout x).sum_eq, List.sum_append, List.sum_eq_zero h, zero_add,
    List.sum_flatten]

/-- `x.index_add_(0, ids, values)` -/
def indexAdd [Add β] (ids : List Nat) (values : List β) (x : List β) : List β :=
  (ids.zip values).foldl (fun x add => x.modify add.1 (· + add.2)) x

/-- What is added at an index. -/
theorem getElem?_indexAdd [AddCommMonoid β] (ids : List Nat) (values x : List β) (i : Nat) :
    (indexAdd ids values x)[i]? =
      x[i]?.map (· + (((ids.zip values).filter (·.1 = i)).map Prod.snd).sum) := by
  unfold indexAdd
  induction ids.zip values generalizing x with
  | nil => simp
  | cons add adds ih =>
    rw [List.foldl_cons, ih, List.getElem?_modify]
    by_cases hadd : add.1 = i
    · simp [hadd, Function.comp_def, add_assoc]
    · simp [hadd]

/-- Values that are tagged with the number of their run, from `k` on -/
def tagged (k : Nat) : List (List β) → List (Nat × β)
  | [] => []
  | run :: runs => run.map (fun value => (k, value)) ++ tagged (k + 1) runs

theorem flatten_zip_tags (k : Nat) (runs : List (List β)) :
    (List.zipWith List.zip (((runs.map List.length).zipIdx k).map fun x => List.replicate x.1 x.2)
      runs).flatten = tagged k runs := by
  induction runs generalizing k with
  | nil => rfl
  | cons run runs ih =>
    have hzip : (List.replicate run.length k).zip run = run.map fun value => (k, value) := by
      apply List.ext_getElem
      · simp
      · intro i hi hi'
        simp
    rw [List.map_cons, List.zipIdx_cons, List.map_cons, List.zipWith_cons_cons, List.flatten_cons,
      ih, hzip]
    rfl

/-- What is added for a run. -/
theorem sum_tagged [AddCommMonoid β] (k i : Nat) (runs : List (List β)) :
    (((tagged k runs).filter (·.1 = i)).map Prod.snd).sum =
      if k ≤ i then (runs[i - k]?.map List.sum).getD 0 else 0 := by
  induction runs generalizing k with
  | nil => simp [tagged]
  | cons run runs ih =>
    rw [tagged, List.filter_append, List.map_append, List.sum_append, ih]
    by_cases heq : k = i
    · subst heq
      have hnext : ¬ k + 1 ≤ k := by omega
      rw [if_neg hnext, add_zero]
      simp [Function.comp_def, List.filter_map]
    · have hnone : (run.map fun value => (k, value)).filter (·.1 = i) = [] := by
        simp [heq]
      rw [hnone, List.map_nil, List.sum_nil, zero_add]
      by_cases hlt : k ≤ i
      · have hsub : i - k = i - (k + 1) + 1 := by omega
        rw [if_pos (by omega), if_pos hlt, hsub, List.getElem?_cons_succ]
      · rw [if_neg (by omega), if_neg hlt]

/-- The sums of the runs land where the runs are numbered; a row whose gaps are zero adds nothing
    else. -/
theorem indexAdd_runs [AddCommMonoid β] {ids : List Nat} {values : List β}
    {n : Nat} (hlength : ids.length = values.length) (hspan : span layout ≤ values.length)
    (hids : runs layout ids = (layout.map Prod.snd).zipIdx.map fun x => List.replicate x.1 x.2)
    (hvalues : ∀ a ∈ gaps layout values, a = 0) (hn : layout.length ≤ n) :
    indexAdd ids values (List.replicate n 0) =
      (runs layout values).map List.sum ++ List.replicate (n - layout.length) 0 := by
  have hruns : (runs layout values).map List.length = layout.map Prod.snd := map_length_runs hspan
  have hcount := length_runs layout values
  have hsum (i : Nat) : (((ids.zip values).filter (·.1 = i)).map Prod.snd).sum =
      ((runs layout values)[i]?.map List.sum).getD 0 := by
    have hperm := ((perm_gaps_runs layout (ids.zip values)).filter (·.1 = i)).map Prod.snd
    have hgaps : (((gaps layout (ids.zip values)).filter (·.1 = i)).map Prod.snd).sum = 0 := by
      apply List.sum_eq_zero
      intro a ha
      obtain ⟨x, hx, rfl⟩ := List.mem_map.mp ha
      have hmem := (List.mem_filter.mp hx).1
      rw [List.zip, gaps_zipWith _ hlength] at hmem
      exact hvalues _ (List.of_mem_zip hmem).2
    rw [hperm.sum_eq, List.filter_append, List.map_append, List.sum_append, hgaps, zero_add,
      List.zip, runs_zipWith, hids, ← hruns]
    show (((List.zipWith List.zip _ _).flatten.filter _).map _).sum = _
    rw [flatten_zip_tags, sum_tagged, if_pos (Nat.zero_le i), Nat.sub_zero]
  apply List.ext_getElem?
  intro i
  rw [getElem?_indexAdd, hsum, List.getElem?_append, List.length_map, hcount]
  by_cases hi : i < layout.length
  · have hrun : (runs layout values)[i]? = some ((runs layout values)[i]) :=
      List.getElem?_eq_getElem (by omega)
    have hzero : (List.replicate n (0 : β))[i]? = some 0 := by
      rw [List.getElem?_replicate, if_pos (by omega)]
    rw [if_pos hi, hzero, List.getElem?_map, hrun]
    simp
  · have hrun : (runs layout values)[i]? = none := by
      rw [List.getElem?_eq_none]
      omega
    rw [if_neg hi, hrun, List.getElem?_replicate, List.getElem?_replicate]
    by_cases hin : i < n
    · rw [if_pos hin, if_pos (by omega)]
      simp
    · rw [if_neg hin, if_neg (by omega)]
      rfl

end Ragged
