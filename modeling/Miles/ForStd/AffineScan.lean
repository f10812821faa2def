import Mathlib

/-!
# Affine recurrences

The recurrence `y i = x i + w * y (i - 1)`, run over a list from a given state.  It can be run in
chunks: inside a chunk the state only enters through a power of `w`.

## Key results

- `scan_append`: running over a list in two pieces
- `getElem?_scan`: the entries in closed form
- `scan_eq_zipWith`: a chunk from any state, from the same chunk run from zero
- `scan_reverse`: run from the end, the recurrence is a fold from the right
-/

namespace AffineScan

variable {R : Type*} [CommRing R] (w : R)

/-- The states that the recurrence runs through. -/
def scan (state : R) : List R → List R
  | [] => []
  | x :: xs => (x + w * state) :: scan (x + w * state) xs

/-- The state it ends in. -/
def final (state : R) (xs : List R) : R := (scan w state xs).getLastD state

@[simp] theorem length_scan (state : R) (xs : List R) : (scan w state xs).length = xs.length := by
  induction xs generalizing state with
  | nil => rfl
  | cons x xs ih => rw [scan, List.length_cons, ih, List.length_cons]

theorem final_cons (state x : R) (xs : List R) :
    final w state (x :: xs) = final w (x + w * state) xs := by
  rw [final, final, scan]
  cases scan w (x + w * state) xs with
  | nil => rfl
  | cons y ys => rfl

theorem scan_append (state : R) (xs ys : List R) :
    scan w state (xs ++ ys) = scan w state xs ++ scan w (final w state xs) ys := by
  induction xs generalizing state with
  | nil => rfl
  | cons x xs ih => rw [List.cons_append, scan, ih, scan, List.cons_append, final_cons]

theorem final_append (state : R) (xs ys : List R) :
    final w state (xs ++ ys) = final w (final w state xs) ys := by
  induction xs generalizing state with
  | nil => rfl
  | cons x xs ih => rw [List.cons_append, final_cons, ih, final_cons]

theorem scan_take (state : R) (xs : List R) (n : Nat) :
    (scan w state xs).take n = scan w state (xs.take n) := by
  induction xs generalizing state n with
  | nil => simp [scan]
  | cons x xs ih =>
    cases n with
    | zero => rfl
    | succ n => rw [scan, List.take_succ_cons, ih, List.take_succ_cons, scan]

/-- Every entry, from the entries before it and the state. -/
theorem getElem?_scan (state : R) (xs : List R) {t : Nat} (ht : t < xs.length) :
    (scan w state xs)[t]? =
      some ((∑ k ∈ Finset.range (t + 1), xs.getD k 0 * w ^ (t - k)) + state * w ^ (t + 1)) := by
  induction xs generalizing state t with
  | nil => cases ht
  | cons x xs ih =>
    cases t with
    | zero => simp [scan, mul_comm]
    | succ t =>
      rw [scan, List.getElem?_cons_succ, ih (x + w * state) (by simpa using ht)]
      congr 1
      rw [Finset.sum_range_succ' _ (t + 1)]
      simp only [List.getD_cons_succ, List.getD_cons_zero, Nat.sub_zero,
        Nat.add_sub_add_right]
      ring

/-- A run from any state is the run from zero, with the state carried through. -/
theorem scan_eq_mapIdx (state : R) (xs : List R) :
    scan w state xs = (scan w 0 xs).mapIdx fun t y => y + state * w ^ (t + 1) := by
  apply List.ext_getElem?
  intro t
  by_cases ht : t < xs.length
  · rw [List.getElem?_mapIdx, getElem?_scan w state xs ht, getElem?_scan w 0 xs ht, zero_mul,
      add_zero]
    rfl
  · rw [List.getElem?_eq_none (by simpa using ht), List.getElem?_eq_none (by simpa using ht)]

/-! ## From the end -/

/-- The recurrence from the last entry to the first. -/
def backward : List R → List R
  | [] => []
  | x :: xs => (x + w * (backward xs).headD 0) :: backward xs

@[simp] theorem length_backward (xs : List R) : (backward w xs).length = xs.length := by
  induction xs with
  | nil => rfl
  | cons x xs ih => rw [backward, List.length_cons, ih, List.length_cons]

/-- Running over the reversed list is running from the end. -/
theorem scan_reverse (xs : List R) : (scan w 0 xs.reverse).reverse = backward w xs := by
  induction xs with
  | nil => rfl
  | cons x xs ih =>
    have hfinal : final w 0 xs.reverse = (backward w xs).headD 0 := by
      rw [final, ← ih]
      cases scan w 0 xs.reverse using List.reverseRecOn with
      | nil => rfl
      | append_singleton ys y _ => simp
    rw [List.reverse_cons, scan_append, List.reverse_append, ih, backward, hfinal]
    rfl

/-- Zeros at the end stay zeros, and change nothing before them. -/
theorem backward_append_zeros (xs : List R) (n : Nat) :
    backward w (xs ++ List.replicate n 0) = backward w xs ++ List.replicate n 0 := by
  have hzeros : backward w (List.replicate n (0 : R)) = List.replicate n 0 := by
    induction n with
    | zero => rfl
    | succ n ih =>
      rw [List.replicate_succ, backward, ih]
      cases n with
      | zero => simp
      | succ n => simp [List.replicate_succ]
  induction xs with
  | nil => exact hzeros
  | cons x xs ih =>
    have hhead : (backward w xs ++ List.replicate n 0).headD 0 = (backward w xs).headD 0 := by
      cases backward w xs with
      | nil => cases n <;> rfl
      | cons y ys => rfl
    rw [List.cons_append, backward, ih, hhead]
    rfl

end AffineScan
