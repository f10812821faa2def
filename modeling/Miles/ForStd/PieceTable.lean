import Mathlib

/-!
# Piece tables

A list of pieces `[start, stop)` of source arrays, which stands for the rows the pieces
name, in order.  Cutting and joining tables moves no row: it is cutting and joining the
list of row names, whatever the sources hold.

## Key results

- `rows_take`: cutting a table cuts the list of its rows
- `read_append`, `read_take`: reading commutes with joining and cutting
- `slice_eq_of_read`: the slice a piece stands for, from what its rows read
-/

/-- Positions `[start, stop)` of the array `source` names. -/
structure Piece (κ : Type*) where
  source : κ
  start : Nat
  stop : Nat
  deriving DecidableEq, Repr

namespace Piece

variable {κ : Type*}

/-- The number of rows of a piece. -/
def length (p : Piece κ) : Nat := p.stop - p.start

/-- The rows of a piece: a source and a position in it. -/
def rows (p : Piece κ) : List (κ × Nat) :=
  (List.range' p.start p.length).map fun i => (p.source, i)

@[simp] theorem length_rows (p : Piece κ) : p.rows.length = p.length := by
  simp [rows]

/-- The first `n` rows of a piece. -/
theorem rows_cut (p : Piece κ) (n : Nat) (h : n ≤ p.length) :
    ({ p with stop := p.start + n } : Piece κ).rows = p.rows.take n := by
  have hlen : ({ p with stop := p.start + n } : Piece κ).length = n := by
    show p.start + n - p.start = n
    omega
  simp only [rows, hlen, ← List.map_take]
  congr 1
  apply List.ext_getElem?
  intro i
  rw [List.getElem?_take]
  by_cases hi : i < n
  · rw [if_pos hi, List.getElem?_range' hi, List.getElem?_range' (by omega)]
  · rw [if_neg hi, List.getElem?_eq_none (by simpa using hi)]

end Piece

namespace PieceTable

variable {κ α : Type*}

/-- The number of rows of a table. -/
def numRows (ps : List (Piece κ)) : Nat := (ps.map Piece.length).sum

/-- The rows of a table, in order. -/
def rows (ps : List (Piece κ)) : List (κ × Nat) := ps.flatMap Piece.rows

/-- The first `left` rows: whole pieces while they fit, then a cut one. -/
def take : List (Piece κ) → Int → List (Piece κ)
  | [], _ => []
  | p :: ps, left =>
    if left ≤ 0 then []
    else
      let kept := min left p.length
      { p with stop := p.start + kept.toNat } :: take ps (left - kept)

/-- No piece of the table is empty. -/
def Solid (ps : List (Piece κ)) : Prop := ∀ p ∈ ps, p.start < p.stop

@[simp] theorem rows_nil : rows ([] : List (Piece κ)) = [] := rfl

@[simp] theorem rows_cons (p : Piece κ) (ps : List (Piece κ)) :
    rows (p :: ps) = p.rows ++ rows ps := rfl

@[simp] theorem rows_append (ps qs : List (Piece κ)) : rows (ps ++ qs) = rows ps ++ rows qs := by
  simp [rows]

theorem length_rows (ps : List (Piece κ)) : (rows ps).length = numRows ps := by
  induction ps with
  | nil => rfl
  | cons p ps ih =>
    simp only [rows_cons, List.length_append, ih, Piece.length_rows]
    rfl

/-- Cutting a table cuts the list of its rows. -/
theorem rows_take (ps : List (Piece κ)) (n : Int) : rows (take ps n) = (rows ps).take n.toNat := by
  induction ps generalizing n with
  | nil => simp [take]
  | cons p ps ih =>
    unfold take
    split
    · have hzero : n.toNat = 0 := by omega
      simp [hzero]
    · have hcut : (min n p.length).toNat ≤ p.length := by omega
      simp only [rows_cons, ih, Piece.rows_cut p _ hcut]
      by_cases hlt : n ≤ p.length
      · -- the cut falls inside this piece, and nothing is left for the others
        have hkept : (min n (p.length : Int)).toNat = n.toNat := by omega
        have hleft : (n - min n (p.length : Int)).toNat = 0 := by omega
        rw [hkept, hleft, List.take_zero, List.append_nil,
          List.take_append_of_le_length (by rw [Piece.length_rows]; omega)]
      · have hkept : (min n (p.length : Int)).toNat = p.length := by omega
        have hleft : (n - min n (p.length : Int)).toNat = n.toNat - p.length := by omega
        have hall : p.rows.take p.length = p.rows :=
          List.take_of_length_le (by rw [Piece.length_rows])
        have hp : p.rows.take n.toNat = p.rows :=
          List.take_of_length_le (by rw [Piece.length_rows]; omega)
        rw [hkept, hleft, hall, List.take_append, Piece.length_rows, hp]

/-- A cut table has the rows asked for, if there were as many. -/
theorem numRows_take (ps : List (Piece κ)) (n : Int) :
    numRows (take ps n) = min n.toNat (numRows ps) := by
  rw [← length_rows, rows_take, List.length_take, length_rows]

theorem take_of_nonpos (ps : List (Piece κ)) {n : Int} (h : n ≤ 0) : take ps n = [] := by
  cases ps with
  | nil => rfl
  | cons p ps => rw [take, if_pos h]

/-- A second, shorter cut is the only one that counts. -/
theorem take_take (ps : List (Piece κ)) {m n : Int} (h : m ≤ n) : take (take ps n) m = take ps m := by
  induction ps generalizing m n with
  | nil => rfl
  | cons p ps ih =>
    by_cases hm : m ≤ 0
    · rw [take_of_nonpos _ hm, take_of_nonpos _ hm]
    · rw [take, if_neg (by omega), take, if_neg hm, take, if_neg hm]
      have hlen : ({ p with stop := p.start + (min n p.length).toNat } : Piece κ).length =
          (min n p.length).toNat := by
        show p.start + (min n (p.length : Int)).toNat - p.start = _
        omega
      have hkept : min m ((min n (p.length : Int)).toNat : Int) = min m (p.length : Int) := by
        omega
      simp only [hlen, hkept]
      congr 1
      -- what is left of the shorter cut never exceeds what is left of the longer one
      by_cases hfit : m ≤ p.length
      · rw [take_of_nonpos _ (by omega), take_of_nonpos _ (by omega)]
      · exact ih (by omega)

/-- A piece left by a cut is a piece of the table or the start of one. -/
theorem source_of_mem_take {ps : List (Piece κ)} {n : Int} {p : Piece κ} (h : p ∈ take ps n) :
    ∃ q ∈ ps, q.source = p.source := by
  induction ps generalizing n with
  | nil => exact absurd h (by simp [take])
  | cons q ps ih =>
    unfold take at h
    split at h
    · exact absurd h (by simp)
    · rcases List.mem_cons.mp h with rfl | h
      · exact ⟨q, by simp, rfl⟩
      · obtain ⟨r, hr, hsource⟩ := ih h
        exact ⟨r, by simp [hr], hsource⟩

/-- Cutting leaves no empty piece behind. -/
theorem Solid.take {ps : List (Piece κ)} (h : Solid ps) (n : Int) : Solid (take ps n) := by
  induction ps generalizing n with
  | nil => exact fun p hp => absurd hp (by simp [PieceTable.take])
  | cons p ps ih =>
    unfold PieceTable.take
    split
    · exact fun q hq => absurd hq (by simp)
    · rename_i hpos
      have hp : p.start < p.stop := h p (by simp)
      have hlen : 0 < p.length := by
        show 0 < p.stop - p.start
        omega
      intro q hq
      rcases List.mem_cons.mp hq with rfl | hq
      · show p.start < p.start + (min n (p.length : Int)).toNat
        omega
      · exact ih (fun r hr => h r (by simp [hr])) _ q hq

theorem Solid.append {ps qs : List (Piece κ)} (hps : Solid ps) (hqs : Solid qs) :
    Solid (ps ++ qs) := by
  intro p hp
  rcases List.mem_append.mp hp with hp | hp
  · exact hps p hp
  · exact hqs p hp

/-- A table without empty pieces has no rows only when it has no pieces. -/
theorem Solid.rows_eq_nil_iff {ps : List (Piece κ)} (h : Solid ps) : rows ps = [] ↔ ps = [] := by
  cases ps with
  | nil => simp
  | cons p ps =>
    have hp : p.start < p.stop := h p (by simp)
    have hlen : 0 < p.rows.length := by
      rw [Piece.length_rows]
      show 0 < p.stop - p.start
      omega
    have hne : p.rows ≠ [] := List.ne_nil_of_length_pos hlen
    simp [hne]

/-! ### Reading -/

/-- What each row of the table reads. -/
def read (get : κ → Nat → Option α) (ps : List (Piece κ)) : List (Option α) :=
  (rows ps).map fun row => get row.1 row.2

@[simp] theorem read_nil (get : κ → Nat → Option α) : read get [] = [] := rfl

theorem length_read (get : κ → Nat → Option α) (ps : List (Piece κ)) :
    (read get ps).length = numRows ps := by
  rw [read, List.length_map, length_rows]

@[simp] theorem read_append (get : κ → Nat → Option α) (ps qs : List (Piece κ)) :
    read get (ps ++ qs) = read get ps ++ read get qs := by
  simp [read]

theorem read_cons (get : κ → Nat → Option α) (p : Piece κ) (ps : List (Piece κ)) :
    read get (p :: ps) = read get [p] ++ read get ps := by
  simp [read]

theorem read_take (get : κ → Nat → Option α) (ps : List (Piece κ)) (n : Int) :
    read get (take ps n) = (read get ps).take n.toNat := by
  rw [read, rows_take, List.map_take, read]

/-- A joined table splits what it reads between its first piece and the others. -/
theorem read_cons_eq {get : κ → Nat → Option α} {p : Piece κ} {ps : List (Piece κ)}
    {xs : List α} (h : read get (p :: ps) = xs.map some) :
    read get [p] = (xs.take p.length).map some ∧ read get ps = (xs.drop p.length).map some := by
  rw [read_cons] at h
  have hlen : (read get [p]).length = p.length := by
    rw [length_read]
    show p.length + 0 = p.length
    omega
  constructor
  · rw [List.map_take, ← h, List.take_left' hlen]
  · rw [List.map_drop, ← h, List.drop_left' hlen]

/-- The slice a piece stands for, from what its rows read. -/
theorem slice_eq_of_read {get : κ → Nat → Option α} {p : Piece κ} {array xs : List α}
    (hget : ∀ i, get p.source i = array[i]?) (hread : read get [p] = xs.map some) :
    (array.take p.stop).drop p.start = xs := by
  have hrows : (List.range' p.start p.length).map (fun i => array[i]?) = xs.map some := by
    rw [← hread]
    simp [read, Piece.rows, hget]
  have hlen : p.length = xs.length := by
    have := congrArg List.length hrows
    simpa using this
  apply List.ext_getElem?
  intro i
  rw [List.getElem?_drop, List.getElem?_take]
  have hi := congrArg (fun l => l[i]?) hrows
  simp only [List.getElem?_map] at hi
  by_cases hlt : i < p.length
  · have hstop : p.start + i < p.stop := by
      have : i < p.stop - p.start := hlt
      omega
    have hrange : (List.range' p.start p.length)[i]? = some (p.start + i) := by
      rw [List.getElem?_range' hlt]
      simp
    have hx : xs[i]? = some xs[i] := List.getElem?_eq_getElem (by omega)
    rw [hrange, hx] at hi
    simp only [Option.map_some, Option.some.injEq] at hi
    rw [if_pos hstop, hi, hx]
  · have hstop : ¬ p.start + i < p.stop := by
      have : ¬ i < p.stop - p.start := hlt
      omega
    rw [if_neg hstop, List.getElem?_eq_none (by omega)]

end PieceTable
