import Mathlib

/-!
# Python ranges and slices

`range(a, b)` and `xs[a:b]` with integer bounds, where a negative slice bound counts from
the end, and windows of consecutive positions that tile an interval.

## Key results

- `slice_map_some`: a slice with nonnegative bounds reads the positions between them
- `flatMap_window`: the windows between increasing boundaries tile an interval, in order
- `perm_flatMap_window`: the same when they are taken in another order
-/

namespace PyList

/-! ### Ranges -/

/-- `range(a, b)` -/
def range (a b : Int) : List Int :=
  (List.range (b - a).toNat).map fun (k : Nat) => a + (k : Int)

@[simp] theorem length_range (a b : Int) : (range a b).length = (b - a).toNat := by
  simp [range]

/-- An empty range has no elements. -/
theorem range_of_le {a b : Int} (h : b ≤ a) : range a b = [] := by
  have hzero : (b - a).toNat = 0 := by omega
  simp [range, hzero]

/-- A range of consecutive naturals, moved by an offset. -/
theorem range_add_natCast (offset : Int) (start len : Nat) :
    range (offset + start) (offset + start + len) =
      (List.range' start len).map fun p : Nat => offset + (p : Int) := by
  have hlen : (offset + start + len - (offset + start)).toNat = len := by omega
  simp only [range, hlen, List.range'_eq_map_range, List.map_map]
  apply List.map_congr_left
  intro k _
  simp only [Function.comp_apply]
  omega

/-! ### Slices -/

/-- The position a slice bound stands for in a list of `n` elements. -/
def clampIndex (n : Nat) (i : Int) : Nat :=
  if i < 0 then (i + n).toNat else min i.toNat n

/-- `xs[start:stop]` -/
def slice {α : Type*} (xs : List α) (start stop : Int) : List α :=
  (xs.take (clampIndex xs.length stop)).drop (clampIndex xs.length start)

variable {α : Type*}

/-- A slice with nonnegative bounds. -/
theorem slice_natCast (xs : List α) (start stop : Nat) :
    slice xs start stop = (xs.take stop).drop start := by
  have hstart : ¬ ((start : Int) < 0) := by omega
  have hstop : ¬ ((stop : Int) < 0) := by omega
  simp only [slice, clampIndex, hstart, hstop, if_false, Int.toNat_natCast]
  by_cases h : start ≤ xs.length
  · rw [Nat.min_eq_left h, ← List.take_take, List.take_length]
  · rw [List.drop_eq_nil_of_le, List.drop_eq_nil_of_le]
    · simp only [List.length_take]
      omega
    · simp only [List.length_take]
      omega

/-- `xs[-k:]` for a positive `k` within the length. -/
theorem slice_neg {xs : List α} {k : Nat} (hpos : 0 < k) (hle : k ≤ xs.length) :
    slice xs (-(k : Int)) xs.length = xs.drop (xs.length - k) := by
  have hneg : -(k : Int) < 0 := by omega
  have hlen : ¬ ((xs.length : Int) < 0) := by omega
  have hstart : (-(k : Int) + xs.length).toNat = xs.length - k := by omega
  rw [slice, clampIndex, clampIndex, if_pos hneg, if_neg hlen, hstart, Int.toNat_natCast,
    Nat.min_self, List.take_length]

/-- A slice with nonnegative bounds inside the list reads the positions between them. -/
theorem slice_map_some {xs : List α} {start len : Nat} (h : len = 0 ∨ start + len ≤ xs.length) :
    (slice xs start (start + len : Nat)).map some =
      (List.range' start len).map fun p => xs[p]? := by
  rw [slice_natCast]
  apply List.ext_getElem?
  intro k
  simp only [List.getElem?_map, List.getElem?_drop, List.getElem?_take]
  by_cases hk : k < len
  · have hlt : start + k < start + len := by omega
    have hin : start + k < xs.length := by omega
    simp [hk, hlt, List.getElem?_eq_getElem hin]
  · have hge : ¬ (start + k < start + len) := by omega
    simp [hk, hge]

/-! ### Windows -/

/-- The positions of `[a, b)` that are also in `[lo, hi)`. -/
def window (lo hi a b : Nat) : List Nat :=
  List.range' (max lo a) (min hi b - max lo a)

/-- Windows between consecutive boundaries join to one window. -/
theorem window_append {lo mid hi a b : Nat} (h₁ : lo ≤ mid) (h₂ : mid ≤ hi) :
    window lo mid a b ++ window mid hi a b = window lo hi a b := by
  simp only [window]
  by_cases hleft : min mid b ≤ max lo a
  · -- the left window is empty, and the right one starts where the joined one does
    have hzero : min mid b - max lo a = 0 := by omega
    simp only [hzero, List.range'_zero, List.nil_append]
    by_cases hmid : mid ≤ max lo a
    · congr 1 <;> omega
    · have hright : min hi b - max mid a = 0 := by omega
      have hboth : min hi b - max lo a = 0 := by omega
      rw [hright, hboth]
      rfl
  · by_cases hb : mid ≤ b
    · have hstart : max mid a = max lo a + (min mid b - max lo a) := by omega
      rw [hstart, List.range'_append_1]
      congr 1
      omega
    · have hright : min hi b - max mid a = 0 := by omega
      rw [hright]
      simp only [List.range'_zero, List.append_nil]
      congr 1
      omega

/-- The windows between increasing boundaries tile the interval they cover. -/
theorem flatMap_window {boundary : Nat → Nat} (hmono : Monotone boundary) (a b n : Nat) :
    ((List.range n).flatMap fun k => window (boundary k) (boundary (k + 1)) a b) =
      window (boundary 0) (boundary n) a b := by
  induction n with
  | zero =>
    have hempty : min (boundary 0) b - max (boundary 0) a = 0 := by omega
    simp [window, hempty]
  | succ n ih =>
    simp only [List.range_succ, List.flatMap_append, List.flatMap_singleton, ih]
    exact window_append (hmono (Nat.zero_le n)) (hmono (Nat.le_succ n))

/-- The windows between increasing boundaries, in any order, are the interval they cover. -/
theorem perm_flatMap_window {boundary : Nat → Nat} (hmono : Monotone boundary) {a b n : Nat}
    (hfirst : boundary 0 ≤ a) (hlast : b ≤ boundary n) {ks : List Nat}
    (hks : ks.Perm (List.range n)) :
    (ks.flatMap fun k => window (boundary k) (boundary (k + 1)) a b).Perm
      (List.range' a (b - a)) := by
  refine (hks.flatMap_right _).trans ?_
  rw [flatMap_window hmono, window, Nat.max_eq_right hfirst, Nat.min_eq_right hlast]

end PyList
