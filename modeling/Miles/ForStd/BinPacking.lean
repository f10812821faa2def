import Miles.ForStd.List

/-!
# Bin packing

Lower bounds on the number of bins of any packing, and what they say about a greedy one when it
opens a bin.  An item larger than the capacity stands in a bin of its own.

The greedy packing has no room left for the item that opens its last bin.  If three items of its
size exceed the capacity, its bins hold two items each, or one that can share a bin with none of
the others, so no packing does better.  If not, its bins are full up to a third.
-/

namespace BinPacking

variable {ι : Type} {size weight : ι → Nat} {capacity : Nat} {bins other : List (List ι)}
  {items before after : List ι} {x : ι}

/-- What the items of a bin weigh together. -/
def load (size : ι → Nat) (bin : List ι) : Nat := (bin.map size).sum

@[simp] theorem load_nil : load size [] = 0 := rfl

@[simp] theorem load_cons (bin : List ι) : load size (x :: bin) = size x + load size bin := by
  simp [load]

@[simp] theorem load_append (bin bin' : List ι) :
    load size (bin ++ bin') = load size bin + load size bin' := by
  simp [load]

theorem load_perm {bin bin' : List ι} (h : bin.Perm bin') : load size bin = load size bin' :=
  (h.map size).sum_nat

theorem load_congr {bin : List ι} (h : ∀ i ∈ bin, size i = weight i) :
    load size bin = load weight bin := by
  rw [load, load, List.map_congr_left h]

theorem size_le_load {bin : List ι} {i : ι} (h : i ∈ bin) : size i ≤ load size bin :=
  List.le_sum_of_mem (List.mem_map_of_mem h)

/-- Every item is in one bin, and a bin of several items is within the capacity. -/
structure Packs (size : ι → Nat) (capacity : Nat) (bins : List (List ι)) (items : List ι) :
    Prop where
  perm : bins.flatten.Perm items
  fits : ∀ bin ∈ bins, 1 < bin.length → load size bin ≤ capacity

/-! ## Counting bins -/

theorem load_flatten_le {bound : Nat} (h : ∀ bin ∈ bins, load weight bin ≤ bound) :
    load weight bins.flatten ≤ bound * bins.length := by
  induction bins with
  | nil => simp
  | cons bin bins ih =>
    have hbin := h bin (by simp)
    have hbins := ih fun b hb => h b (by simp [hb])
    rw [List.flatten_cons, load_append, List.length_cons, Nat.mul_succ]
    omega

theorem le_load_flatten {bound : Nat} (h : ∀ bin ∈ bins, bound ≤ load weight bin) :
    bound * bins.length ≤ load weight bins.flatten := by
  induction bins with
  | nil => simp
  | cons bin bins ih =>
    have hbin := h bin (by simp)
    have hbins := ih fun b hb => h b (by simp [hb])
    rw [List.flatten_cons, load_append, List.length_cons, Nat.mul_succ]
    omega

/-- A weight of which no bin holds more than a bound counts the bins. -/
theorem Packs.load_le {bound : Nat} (h : Packs size capacity bins items)
    (hbin : ∀ bin ∈ bins, load weight bin ≤ bound) : load weight items ≤ bound * bins.length := by
  rw [← load_perm h.perm]
  exact load_flatten_le hbin

/-! ## Volume -/

/-- The size of an item, or the capacity where it is larger. -/
def cappedSize (size : ι → Nat) (capacity : Nat) (i : ι) : Nat := min (size i) capacity

/-- The volume of the items. -/
def volume (size : ι → Nat) (capacity : Nat) (items : List ι) : Nat :=
  load (cappedSize size capacity) items

/-- Items that fit into a bin together are not capped. -/
theorem volume_eq_load {bin : List ι} (h : load size bin ≤ capacity) :
    volume size capacity bin = load size bin :=
  load_congr fun _ hi => min_eq_left ((size_le_load hi).trans h)

/-- Every packing has room for the volume. -/
theorem Packs.volume_le (h : Packs size capacity bins items) :
    volume size capacity items ≤ capacity * bins.length := by
  refine h.load_le ?_
  intro bin hbin
  match bin, hbin with
  | [], _ => simp
  | [i], _ => simp [cappedSize]
  | i :: j :: rest, hbin =>
    have hfits := h.fits _ hbin (by simp)
    exact (volume_eq_load hfits).trans_le hfits

/-- The volume rounded up to bins -/
theorem Packs.ceil_volume_le (h : Packs size capacity bins items) (hpos : 0 < capacity) :
    (volume size capacity items + capacity - 1) / capacity ≤ bins.length := by
  have hvolume := h.volume_le
  have hlt : (volume size capacity items + capacity - 1) / capacity < bins.length + 1 := by
    rw [Nat.div_lt_iff_lt_mul hpos, Nat.succ_mul, Nat.mul_comm]
    omega
  omega

/-! ## The last bin of a greedy packing -/

/-- The bins hold the items seen so far, and there is no room for another one in them. -/
structure Opens (size : ι → Nat) (capacity : Nat) (bins : List (List ι)) (before : List ι) (x : ι) :
    Prop where
  packs : Packs size capacity bins before
  nonempty : ∀ bin ∈ bins, bin ≠ []
  noRoom : ∀ bin ∈ bins, capacity < load size bin + size x
  smallest : ∀ i ∈ before, size x ≤ size i

/-- The bins are full but for less than the size of the item. -/
theorem Opens.le_volume (h : Opens size capacity bins before x) (hpos : 0 < size x)
    (hfits : size x ≤ capacity) :
    (capacity - size x + 1) * bins.length + size x ≤
      volume size capacity (before ++ x :: after) := by
  have hbins : ∀ bin ∈ bins, capacity - size x + 1 ≤ load (cappedSize size capacity) bin := by
    intro bin hbin
    have hroom := h.noRoom bin hbin
    match bin, hbin with
    | [], hbin => exact absurd rfl (h.nonempty _ hbin)
    | [i], _ =>
      simp only [load_cons, load_nil, cappedSize] at hroom ⊢
      omega
    | i :: j :: rest, hbin =>
      have hload := volume_eq_load (h.packs.fits _ hbin (by simp))
      rw [volume] at hload
      omega
  have hbefore := le_load_flatten hbins
  rw [load_perm h.packs.perm] at hbefore
  have hx : cappedSize size capacity x = size x := min_eq_left hfits
  rw [volume, load_append, load_cons, hx]
  omega

/-- There are fewer bins than `n` if the space that an item could leave in each of so many does not
    add up to what the volume leaves. -/
theorem Opens.length_lt_of_volume (h : Opens size capacity bins before x) (hpos : 0 < size x)
    (hfits : size x ≤ capacity) {n : Nat}
    (hslack : volume size capacity (before ++ x :: after) <
      (capacity - size x + 1) * n + size x) : bins.length < n := by
  have hlower : (capacity - size x + 1) * bins.length + size x ≤
      volume size capacity (before ++ x :: after) := h.le_volume hpos hfits
  by_contra hge
  have hmul := Nat.mul_le_mul_left (capacity - size x + 1) (not_lt.mp hge)
  omega

/-- The number of bins is at most half as large again as that of any packing, if the item is at
    most a third of the capacity. -/
theorem Opens.length_lt_of_third (h : Opens size capacity bins before x) (hpos : 0 < size x)
    (hthird : 3 * size x ≤ capacity) (hother : Packs size capacity other (before ++ x :: after)) :
    2 * bins.length < 3 * other.length := by
  have hlower : (capacity - size x + 1) * bins.length + size x ≤
      volume size capacity (before ++ x :: after) := h.le_volume hpos (by omega)
  have hupper := hother.volume_le
  have hfull : 2 * capacity * bins.length ≤ 3 * (capacity - size x + 1) * bins.length :=
    Nat.mul_le_mul_right _ (by omega)
  have hlt : capacity * (2 * bins.length) < capacity * (3 * other.length) := by
    calc capacity * (2 * bins.length) = 2 * capacity * bins.length := by ring
      _ ≤ 3 * (capacity - size x + 1) * bins.length := hfull
      _ = 3 * ((capacity - size x + 1) * bins.length) := by ring
      _ < 3 * (capacity * other.length) := by omega
      _ = capacity * (3 * other.length) := by ring
  exact Nat.lt_of_mul_lt_mul_left hlt

/-! ### Items over a third of the capacity -/

/-- The share of a bin that an item takes, in halves: all of it if the item leaves no room for the
    one that opens the last bin.  Items that come later take nothing. -/
def halves [DecidableEq ι] (size : ι → Nat) (capacity : Nat) (before : List ι) (x i : ι) : Nat :=
  if i ∈ x :: before then if capacity < size i + size x then 2 else 1 else 0

variable [DecidableEq ι]

/-- The bins are full, counted in halves. -/
theorem Opens.le_halves (h : Opens size capacity bins before x) :
    2 * bins.length + 1 ≤ load (halves size capacity before x) (before ++ x :: after) := by
  have hone : ∀ i ∈ x :: before, 1 ≤ halves size capacity before x i := by
    intro i hi
    rw [halves, if_pos hi]
    split <;> omega
  have hbins : ∀ bin ∈ bins, 2 ≤ load (halves size capacity before x) bin := by
    intro bin hbin
    have hmem : ∀ i ∈ bin, i ∈ x :: before := fun i hi =>
      List.mem_cons_of_mem x (h.packs.perm.subset (List.mem_flatten.mpr ⟨bin, hbin, hi⟩))
    match bin, hbin, hmem with
    | [], hbin, _ => exact absurd rfl (h.nonempty _ hbin)
    | [i], hbin, hmem =>
      have hroom := h.noRoom _ hbin
      rw [load_cons, load_nil, Nat.add_zero] at hroom
      rw [load_cons, load_nil, halves, if_pos (hmem i (by simp)), if_pos hroom]
    | i :: j :: rest, _, hmem =>
      have hi := hone i (hmem i (by simp))
      have hj := hone j (hmem j (by simp))
      rw [load_cons, load_cons]
      omega
  have hbefore := le_load_flatten hbins
  rw [load_perm h.packs.perm] at hbefore
  have hx := hone x (by simp)
  rw [load_append, load_cons]
  omega

theorem halves_le_two (i : ι) : halves size capacity before x i ≤ 2 := by
  unfold halves
  split
  · split <;> omega
  · omega

/-- An item that takes a share is no smaller than the one that opens the last bin. -/
theorem Opens.le_size_of_halves (h : Opens size capacity bins before x) {i : ι}
    (hi : halves size capacity before x i ≠ 0) : size x ≤ size i := by
  unfold halves at hi
  split at hi
  · rename_i hmem
    rcases List.mem_cons.mp hmem with rfl | hmem
    · exact le_rfl
    · exact h.smallest i hmem
  · exact absurd rfl hi

/-- Items that take one half each are large. -/
theorem Opens.mul_halves_le (h : Opens size capacity bins before x) {bin : List ι}
    (hbin : ∀ i ∈ bin, halves size capacity before x i ≠ 2) :
    size x * load (halves size capacity before x) bin ≤ load size bin := by
  induction bin with
  | nil => simp
  | cons i bin ih =>
    have htwo := hbin i (by simp)
    have hle : halves size capacity before x i ≤ 2 := halves_le_two i
    have hrest := ih fun j hj => hbin j (by simp [hj])
    rw [load_cons, load_cons, Nat.mul_add]
    by_cases hzero : halves size capacity before x i = 0
    · rw [hzero]
      omega
    · have hsize := h.le_size_of_halves hzero
      have hone : halves size capacity before x i = 1 := by omega
      rw [hone]
      omega

/-- A bin of any packing takes at most both halves. -/
theorem Opens.halves_le (h : Opens size capacity bins before x) (hthird : capacity < 3 * size x)
    {bin : List ι} (hfits : load size bin ≤ capacity) :
    load (halves size capacity before x) bin ≤ 2 := by
  by_cases hwhole : ∃ i ∈ bin, halves size capacity before x i = 2
  · -- an item that takes a whole bin shares it with later items only
    obtain ⟨i, hi, htwo⟩ := hwhole
    have hlarge : capacity < size i + size x := by
      by_contra hsmall
      rw [halves, if_neg hsmall] at htwo
      split at htwo <;> omega
    obtain ⟨left, right, rfl⟩ := List.append_of_mem hi
    rw [load_append, load_cons] at hfits
    have hzero : ∀ j ∈ left ++ right, halves size capacity before x j = 0 := by
      intro j hj
      by_contra hne
      have hload : size j ≤ load size (left ++ right) := size_le_load hj
      rw [load_append] at hload
      have hsize := h.le_size_of_halves hne
      omega
    have hsum : load (halves size capacity before x) (left ++ right) = 0 := by
      rw [load_congr hzero]
      simp [load]
    rw [load_append] at hsum
    rw [load_append, load_cons, htwo]
    omega
  · -- three items that take a half each exceed the capacity
    have hload : size x * load (halves size capacity before x) bin ≤ capacity :=
      (h.mul_halves_le fun i hi htwo => hwhole ⟨i, hi, htwo⟩).trans hfits
    by_contra hthree
    have hmul := Nat.mul_le_mul_left (size x)
      (show 3 ≤ load (halves size capacity before x) bin by omega)
    omega

/-- No packing has fewer bins, if three items like the one that opens the last bin exceed the
    capacity. -/
theorem Opens.length_lt_of_large (h : Opens size capacity bins before x)
    (hthird : capacity < 3 * size x) (hother : Packs size capacity other (before ++ x :: after)) :
    bins.length < other.length := by
  have hlower : 2 * bins.length + 1 ≤
      load (halves size capacity before x) (before ++ x :: after) := h.le_halves
  have hupper : load (halves size capacity before x) (before ++ x :: after) ≤ 2 * other.length := by
    refine hother.load_le ?_
    intro bin hbin
    match bin, hbin with
    | [], _ => simp
    | [i], _ => exact halves_le_two i
    | i :: j :: rest, hbin => exact h.halves_le hthird (hother.fits _ hbin (by simp))
  omega

end BinPacking
