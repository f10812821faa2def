import Mathlib

/-!
# List lemmas for the standard library

A replaced element, permutations of flattened lists, consecutive chunks, first occurrences,
positions that tile a flattened list, and lookups.
-/

namespace List

variable {α β : Type*}

/-! ### Replacing an element -/

variable {xs : List α} {xss : List (List α)}

/-- What a list holds after an element was replaced. -/
theorem getElem?_set_eq_some {i j : Nat} {old new x : α} (h : xs[i]? = some old) :
    (xs.set i new)[j]? = some x ↔ (j = i ∧ x = new) ∨ (j ≠ i ∧ xs[j]? = some x) := by
  obtain ⟨hlt, -⟩ := getElem?_eq_some_iff.mp h
  by_cases hij : j = i
  · subst hij
    simp [getElem?_set_self hlt, eq_comm]
  · have hne : i ≠ j := fun he => hij he.symm
    simp [getElem?_set_ne hne, hij]

/-- An element other than the replaced one stays. -/
theorem mem_set_of_ne {i : Nat} {old new x : α} (h : xs[i]? = some old)
    (hx : x ∈ xs) (hne : x ≠ old) : x ∈ xs.set i new := by
  obtain ⟨j, hj⟩ := getElem?_of_mem hx
  have hij : j ≠ i := by
    rintro rfl
    exact hne (Option.some_injective _ (hj.symm.trans h))
  exact mem_of_getElem? ((getElem?_set_eq_some h).mpr (.inr ⟨hij, hj⟩))

/-- What some element satisfies after one was replaced by an element that keeps the property. -/
theorem exists_mem_set {i : Nat} {old new : α} {P : α → Prop}
    (h : xs[i]? = some old) (hP : P old → P new) :
    (∃ x ∈ xs.set i new, P x) ↔ P new ∨ ∃ x ∈ xs, P x := by
  obtain ⟨hlt, -⟩ := getElem?_eq_some_iff.mp h
  constructor
  · intro ⟨x, hx, hPx⟩
    rcases mem_or_eq_of_mem_set hx with hold | rfl
    · exact .inr ⟨x, hold, hPx⟩
    · exact .inl hPx
  · intro hex
    have hnew : P new → ∃ x ∈ xs.set i new, P x := fun hPn => ⟨new, mem_set hlt new, hPn⟩
    rcases hex with hPn | ⟨x, hx, hPx⟩
    · exact hnew hPn
    · obtain ⟨j, hj⟩ := getElem?_of_mem hx
      by_cases hij : j = i
      · subst hij
        rw [h] at hj
        cases hj
        exact hnew (hP hPx)
      · exact ⟨x, mem_of_getElem? ((getElem?_set_eq_some h).mpr (.inr ⟨hij, hj⟩)), hPx⟩

/-- Replacing an element by one with the same image keeps the images. -/
theorem map_set_of_eq {i : Nat} {old new : α} (f : α → β) (h : xs[i]? = some old)
    (hf : f new = f old) : (xs.set i new).map f = xs.map f := by
  have hi : (xs.map f)[i]? = some (f old) := by rw [getElem?_map, h, Option.map_some]
  obtain ⟨hlt, hget⟩ := getElem?_eq_some_iff.mp hi
  rw [map_set, hf, ← hget, set_getElem_self]

/-- Filtering two related lists by tests that agree gives related images. -/
theorem map_filter_eq_of_forall₂ {γ : Type*} {R : α → β → Prop} {p : α → Bool} {q : β → Bool}
    {f : α → γ} {g : β → γ} (hpq : ∀ a b, R a b → p a = q b) (hfg : ∀ a b, R a b → f a = g b)
    {ys : List β} (h : Forall₂ R xs ys) :
    (xs.filter p).map f = (ys.filter q).map g := by
  induction h with
  | nil => rfl
  | cons hab _ ih =>
    rw [filter_cons, filter_cons, hpq _ _ hab]
    split
    · rw [map_cons, map_cons, hfg _ _ hab, ih]
    · exact ih

/-- A smaller predicate that misses an element of the list counts fewer. -/
theorem countP_lt_countP {p q : α → Bool} (himp : ∀ x ∈ xs, p x → q x) {a : α}
    (ha : a ∈ xs) (hq : q a) (hp : ¬ p a) : xs.countP p < xs.countP q := by
  obtain ⟨front, back, rfl⟩ := append_of_mem ha
  have hfront := countP_mono_left (l := front) fun x hx => himp x (mem_append_left _ hx)
  have hback := countP_mono_left (l := back) fun x hx =>
    himp x (mem_append_right _ (mem_cons_of_mem _ hx))
  rw [countP_append, countP_append, countP_cons_of_neg hp, countP_cons_of_pos hq]
  omega

/-- Zipping lists of one length with an operation that joins contents keeps all contents. -/
theorem perm_flatMap_zipWith {f : α → α → α} {g : α → List β}
    (hf : ∀ a b, g (f a b) = g a ++ g b) {xs ys : List α} (hlen : xs.length = ys.length) :
    ((zipWith f xs ys).flatMap g).Perm (xs.flatMap g ++ ys.flatMap g) := by
  induction xs generalizing ys with
  | nil =>
    cases ys with
    | nil => exact .nil
    | cons y ys => simp at hlen
  | cons x xs ih =>
    cases ys with
    | nil => simp at hlen
    | cons y ys =>
      simp only [zipWith_cons_cons, flatMap_cons, hf, append_assoc]
      refine Perm.append_left _ ?_
      refine ((ih (by simpa using hlen)).append_left (g y)).trans ?_
      rw [← append_assoc, ← append_assoc]
      exact perm_append_comm.append_right _

/-- Two nested traversals in either order have the same contents. -/
theorem perm_flatMap_comm {γ : Type*} (xs : List α) (ys : List β) (f : α → β → List γ) :
    (xs.flatMap fun a => ys.flatMap fun b => f a b).Perm
      (ys.flatMap fun b => xs.flatMap fun a => f a b) := by
  induction xs with
  | nil => simp
  | cons a xs ih =>
    simp only [flatMap_cons]
    exact (ih.append_left _).trans (flatMap_append_perm ys (f a) _)

/-- A partition of the images is a partition of the elements. -/
theorem exists_flatten_of_map_eq_flatten {f : α → β} {parts : List (List β)}
    (h : xs.map f = parts.flatten) :
    ∃ parts' : List (List α), xs = parts'.flatten ∧ parts = parts'.map (map f) := by
  induction parts generalizing xs with
  | nil => exact ⟨[], map_eq_nil_iff.mp h, rfl⟩
  | cons part parts ih =>
    rw [flatten_cons] at h
    obtain ⟨front, back, rfl, hfront, hback⟩ := map_eq_append_iff.mp h
    obtain ⟨parts', hback', rfl⟩ := ih hback
    exact ⟨front :: parts', by rw [hback', flatten_cons], by rw [map_cons, hfront]⟩

/-- Consecutive chunks of one size are a list's first elements. -/
theorem flatMap_chunks (xs : List α) (k m : Nat) :
    ((range m).flatMap fun j => (xs.drop (j * k)).take k) = xs.take (m * k) := by
  induction m with
  | zero => simp
  | succ m ih =>
    rw [range_succ, flatMap_append, ih, flatMap_singleton, Nat.succ_mul, take_add]

/-- Replacing an element by a part of it and appending the rest keeps all contents. -/
theorem perm_flatten_set_append {i : Nat} (hi : i < xss.length)
    {left right : List α} (h : (left ++ right).Perm xss[i]) :
    (xss.set i left ++ [right]).flatten.Perm xss.flatten := by
  have hsplit : xss = xss.take i ++ xss[i] :: xss.drop (i + 1) := by
    rw [← drop_eq_getElem_cons hi, take_append_drop]
  have hset : xss.set i left = xss.take i ++ left :: xss.drop (i + 1) :=
    set_eq_take_append_cons_drop.trans (if_pos hi)
  rw [hset]
  conv_rhs => rw [hsplit]
  simp only [flatten_append, flatten_cons, flatten_nil, append_nil, append_assoc]
  refine Perm.append_left _ ?_
  -- bring the two parts together
  have hcomm : ((xss.drop (i + 1)).flatten ++ right).Perm (right ++ (xss.drop (i + 1)).flatten) :=
    perm_append_comm
  refine (hcomm.append_left left).trans ?_
  rw [← append_assoc]
  exact h.append_right _

/-- Lists of at most one element have at most as many elements as there are lists. -/
theorem length_flatten_le_of_forall (h : ∀ xs ∈ xss, xs.length ≤ 1) :
    xss.flatten.length ≤ xss.length := by
  induction xss with
  | nil => exact Nat.le_refl _
  | cons xs xss ih =>
    have hxs := h xs (mem_cons_self ..)
    have hrest := ih fun ys hys => h ys (mem_cons_of_mem _ hys)
    simp only [flatten_cons, length_append, length_cons]
    omega

/-- What holds at the first `a` and the last `b` positions holds at `a + b` positions. -/
theorem le_countP_of_ends (p : α → Bool) (xs : List α) {a b : Nat} (hlen : a + b ≤ xs.length)
    (hfirst : ∀ i (hi : i < xs.length), i < a → p xs[i])
    (hlast : ∀ i (hi : i < xs.length), xs.length - b ≤ i → p xs[i]) :
    a + b ≤ xs.countP p := by
  have hsplit : xs = xs.take a ++ ((xs.drop a).take (xs.length - b - a) ++
      xs.drop (xs.length - b)) := by
    have hdrop : xs.drop (xs.length - b) = (xs.drop a).drop (xs.length - b - a) := by
      rw [drop_drop]
      congr 1
      omega
    rw [hdrop, take_append_drop, take_append_drop]
  have htake : (xs.take a).countP p = a := by
    rw [countP_eq_length.mpr]
    · rw [length_take]
      omega
    · intro x hx
      obtain ⟨i, hi, rfl⟩ := mem_take_iff_getElem.mp hx
      exact hfirst i (by omega) (by omega)
  have hdrop : (xs.drop (xs.length - b)).countP p = b := by
    rw [countP_eq_length.mpr]
    · rw [length_drop]
      omega
    · intro x hx
      obtain ⟨i, hi, rfl⟩ := mem_drop_iff_getElem.mp hx
      exact hlast _ (by omega) (by omega)
  have hcount := congrArg (countP p) hsplit
  rw [countP_append, countP_append, htake, hdrop] at hcount
  omega

/-! ### Ranges -/

/-- The numbers below `n` and the next `k` ones. -/
theorem range_append_range' (n k : Nat) : range n ++ range' n k = range (n + k) := by
  rw [range_eq_range', range_eq_range', ← range'_append_1, Nat.zero_add]

/-! ### Selecting -/

/-- A stable sort keeps the order of the elements that were in order already. -/
theorem filter_insertionSort (r : α → α → Prop) [DecidableRel r] (p : α → Bool)
    (h : (xs.filter p).Pairwise r) : (xs.insertionSort r).filter p = xs.filter p := by
  have hsub := (sublist_insertionSort h filter_sublist).filter p
  rw [filter_filter] at hsub
  simp only [Bool.and_self] at hsub
  have hlen := ((perm_insertionSort r xs).filter p).length_eq
  exact (hsub.eq_of_length hlen.symm).symm

/-- Only one of the lists that are joined has elements to contribute. -/
theorem flatMap_eq_of_unique {γ : Type*} {key : α → γ} (hkeys : (xs.map key).Nodup)
    {a : α} (ha : a ∈ xs) {f : α → List β} (hf : ∀ b ∈ xs, key b ≠ key a → f b = []) :
    xs.flatMap f = f a := by
  induction xs with
  | nil => exact absurd ha not_mem_nil
  | cons x xs ih =>
    rw [map_cons, nodup_cons] at hkeys
    rw [flatMap_cons]
    obtain rfl | ha := mem_cons.mp ha
    · have hrest : xs.flatMap f = [] := by
        apply flatMap_eq_nil_iff.mpr
        intro b hb
        refine hf b (mem_cons_of_mem _ hb) fun hkey => hkeys.1 ?_
        exact mem_map.mpr ⟨b, hb, hkey⟩
      rw [hrest, append_nil]
    · have hhead : f x = [] := by
        refine hf x (mem_cons_self ..) fun hkey => hkeys.1 ?_
        exact mem_map.mpr ⟨a, ha, hkey.symm⟩
      rw [hhead, nil_append]
      exact ih hkeys.2 ha fun b hb => hf b (mem_cons_of_mem _ hb)

/-! ### Histories -/

/-- Every entry of a history stands in the relation `P` to the entries before it. -/
def AlwaysBefore (P : List α → α → Prop) (history : List α) : Prop :=
  ∀ pre e post, history = pre ++ e :: post → P pre e

theorem alwaysBefore_nil (P : List α → α → Prop) : AlwaysBefore P [] := by
  intro pre e post h
  simp at h

/-- A history grows by an entry that stands in the relation to all of it. -/
theorem AlwaysBefore.concat {P : List α → α → Prop} {history : List α} {e : α}
    (h : AlwaysBefore P history) (he : P history e) : AlwaysBefore P (history ++ [e]) := by
  intro pre e' post heq
  obtain rfl | ⟨post', last, rfl⟩ := post.eq_nil_or_concat
  · obtain ⟨rfl, rfl⟩ := append_inj' heq rfl |>.imp id fun h => cons.inj h |>.1
    exact he
  · rw [concat_eq_append, ← cons_append, ← append_assoc] at heq
    exact h pre e' post' (append_inj' heq rfl).1

/-- In a sorted list, what stands before an element of the first run is in the run. -/
theorem mem_takeWhile_of_lt {key : α → Nat} {p : α → Bool}
    (h : (xs.map key).Pairwise (· < ·)) {a b : α} (ha : a ∈ xs.takeWhile p) (hb : b ∈ xs)
    (hlt : key b < key a) : p b = true := by
  rw [← takeWhile_append_dropWhile (p := p) (l := xs)] at hb
  obtain hb | hb := mem_append.mp hb
  · exact mem_takeWhile_imp hb
  · rw [pairwise_map, ← takeWhile_append_dropWhile (p := p) (l := xs), pairwise_append] at h
    have hge := h.2.2 a ha b hb
    omega

/-! ### First occurrences -/

/-- A new last element is kept exactly when it did not occur before. -/
theorem eraseDups_concat [DecidableEq α] (xs : List α) (x : α) :
    (xs ++ [x]).eraseDups = if x ∈ xs then xs.eraseDups else xs.eraseDups ++ [x] := by
  rw [eraseDups_append]
  split
  · next hx => simp [removeAll, hx]
  · next hx => simp [removeAll, hx, eraseDups_cons]

theorem nodup_eraseDups [DecidableEq α] (xs : List α) : xs.eraseDups.Nodup := by
  induction xs using reverseRecOn with
  | nil => simp
  | append_singleton xs x ih =>
    rw [eraseDups_concat]
    split
    · exact ih
    · next hx =>
      rw [nodup_append]
      refine ⟨ih, by simp, fun a ha b hb => ?_⟩
      have hxs := mem_eraseDups.mp ha
      rw [mem_singleton.mp hb]
      exact fun hax => hx (hax ▸ hxs)

/-! ### Positions in a flattened list -/

/-- For each list the positions its elements have once the lists are joined, from `start`. -/
def tile (start : Nat) : List (List α) → List (List Nat)
  | [] => []
  | xs :: xss => range' start xs.length :: tile (start + xs.length) xss

theorem tile_append (start : Nat) (xss yss : List (List α)) :
    tile start (xss ++ yss) = tile start xss ++ tile (start + xss.flatten.length) yss := by
  induction xss generalizing start with
  | nil => simp [tile]
  | cons xs xss ih =>
    simp only [cons_append, tile, ih, flatten_cons, length_append, Nat.add_assoc]

@[simp] theorem length_tile (start : Nat) (xss : List (List α)) :
    (tile start xss).length = xss.length := by
  induction xss generalizing start with
  | nil => rfl
  | cons xs xss ih => simp [tile, ih]

/-- The positions are consecutive. -/
theorem flatten_tile (start : Nat) (xss : List (List α)) :
    (tile start xss).flatten = range' start xss.flatten.length := by
  induction xss generalizing start with
  | nil => rfl
  | cons xs xss ih =>
    simp only [tile, flatten_cons, ih, length_append]
    rw [range'_append_1]

/-- Reading a list at consecutive positions. -/
theorem map_getD_range' (pre xs post : List α) (d : α) :
    (range' pre.length xs.length).map ((pre ++ xs ++ post).getD · d) = xs := by
  apply ext_getElem
  · simp
  · intro i h₁ h₂
    simp only [getElem_map, getElem_range', Nat.one_mul]
    rw [getD_eq_getElem _ _ (by simp; omega), getElem_append_left (by simp; omega),
      getElem_append_right (by omega)]
    simp

/-- Reading the joined list at these positions gives the lists back. -/
theorem map_tile (pre post : List α) (xss : List (List α)) (d : α) :
    (tile pre.length xss).map (fun positions =>
      positions.map ((pre ++ xss.flatten ++ post).getD · d)) = xss := by
  induction xss generalizing pre with
  | nil => rfl
  | cons xs xss ih =>
    simp only [tile, map_cons, flatten_cons]
    congr 1
    · have hxs := map_getD_range' pre xs (xss.flatten ++ post) d
      simpa only [append_assoc] using hxs
    · have hrest := ih (pre ++ xs)
      rw [length_append] at hrest
      simpa only [append_assoc] using hrest

/-! ### Splitting at given lengths -/

/-- Lists of the given lengths are recovered from their joined list. -/
theorem splitLengths_flatten_of_lengths {counts : List Nat}
    (h : counts = xss.map length) : counts.splitLengths xss.flatten = xss := by
  subst h
  induction xss with
  | nil => rfl
  | cons xs xss ih => simp [splitLengths_cons, ih]

/-- The lists split off, joined, are the first elements. -/
theorem flatten_splitLengths_take (counts : List Nat) (xs : List α) :
    (counts.splitLengths xs).flatten = xs.take counts.sum := by
  induction counts generalizing xs with
  | nil => simp
  | cons n counts ih => simp [splitLengths_cons, ih, take_add]

theorem splitLengths_map (f : α → β) (counts : List Nat) (xs : List α) :
    counts.splitLengths (xs.map f) = (counts.splitLengths xs).map (map f) := by
  induction counts generalizing xs with
  | nil => rfl
  | cons n counts ih => simp [splitLengths_cons, ← ih]

theorem mem_flatten_of_mem_getD {i : Nat} {x : α} (h : x ∈ xss.getD i []) :
    x ∈ xss.flatten := by
  rw [getD_eq_getElem?_getD] at h
  cases hget : xss[i]? with
  | none => simp [hget] at h
  | some xs => exact mem_flatten_of_mem (mem_of_getElem? hget) (by simpa [hget] using h)

theorem length_getD_splitLengths {counts : List Nat} (h : counts.sum ≤ xs.length)
    (i : Nat) : ((counts.splitLengths xs).getD i []).length = counts.getD i 0 := by
  have hget := congrArg (·.getD i 0) (map_splitLengths_length xs counts h)
  simp only [getD_eq_getElem?_getD, getElem?_map] at hget ⊢
  rw [← hget]
  cases (counts.splitLengths xs)[i]? <;> rfl

/-! ### Positions in a flattened list -/

/-- A position in a flattened list, counted from the start of its part. -/
theorem getElem?_flatten_add {i j : Nat}
    (h : xss[i]? = some xs) (hj : j < xs.length) :
    xss.flatten[((xss.take i).map length).sum + j]? = xs[j]? := by
  induction xss generalizing i with
  | nil => cases h
  | cons ys xss ih =>
    cases i with
    | zero =>
      cases h
      rw [take_zero, map_nil, sum_nil, Nat.zero_add, flatten_cons, getElem?_append_left hj]
    | succ i =>
      have h : xss[i]? = some xs := h
      rw [take_succ_cons, map_cons, sum_cons, flatten_cons, getElem?_append_right (by omega)]
      have hidx : ys.length + ((xss.take i).map length).sum + j - ys.length =
          ((xss.take i).map length).sum + j := by omega
      rw [hidx, ih h]

/-- A position in a list of parts of one length. -/
theorem getElem?_flatten_const {n : Nat} (hn : 0 < n)
    (h : ∀ xs ∈ xss, xs.length = n) (q : Nat) :
    xss.flatten[q]? = xss[q / n]?.bind (·[q % n]?) := by
  induction xss generalizing q with
  | nil => rfl
  | cons ys xss ih =>
    have hys : ys.length = n := h ys mem_cons_self
    by_cases hq : q < n
    · rw [flatten_cons, getElem?_append_left (by omega), Nat.div_eq_of_lt hq, Nat.mod_eq_of_lt hq]
      rfl
    · have hq := Nat.le_of_not_lt hq
      rw [flatten_cons, getElem?_append_right (by omega), hys,
        ih fun xs hxs => h xs (mem_cons_of_mem _ hxs), Nat.div_eq_sub_div hn hq,
        Nat.mod_eq_sub_mod hq]
      rfl

/-- The length of a list of parts of one length. -/
theorem length_flatten_const {n : Nat} (h : ∀ xs ∈ xss, xs.length = n) :
    xss.flatten.length = xss.length * n := by
  rw [length_flatten, map_congr_left (g := fun _ => n) h, map_const', sum_replicate_nat]

/-! ### Association lists -/

section Lookup

variable {κ ν : Type} [BEq κ] [LawfulBEq κ] {pairs others : List (κ × ν)} {key : κ} {v : ν}

theorem mem_of_lookup (h : pairs.lookup key = some v) : (key, v) ∈ pairs := by
  obtain ⟨before, after, hsplit, _⟩ := lookup_eq_some_iff.mp h
  rw [hsplit]
  simp

theorem isSome_lookup : (pairs.lookup key).isSome = true ↔ key ∈ pairs.map Prod.fst := by
  induction pairs with
  | nil => simp
  | cons p pairs ih =>
    rw [lookup_cons, map_cons, mem_cons, ← ih]
    cases hkey : key == p.1 with
    | true => simp [eq_of_beq hkey]
    | false => simp [ne_of_beq_false hkey]

/-- With distinct keys, a lookup finds exactly the pairs. -/
theorem lookup_eq_some_iff_mem (hkeys : (pairs.map Prod.fst).Nodup) :
    pairs.lookup key = some v ↔ (key, v) ∈ pairs := by
  constructor
  · exact mem_of_lookup
  · intro hmem
    obtain ⟨w, hw⟩ := Option.isSome_iff_exists.mp
      (isSome_lookup.mpr (mem_map.mpr ⟨(key, v), hmem, rfl⟩))
    have heq := inj_on_of_nodup_map hkeys (mem_of_lookup hw) hmem rfl
    rw [hw, (Prod.mk.inj heq).2]

/-- The order of the pairs does not matter to a lookup. -/
theorem Perm.lookup_eq (h : pairs.Perm others) (hkeys : (pairs.map Prod.fst).Nodup) (key : κ) :
    pairs.lookup key = others.lookup key := by
  have hkeys' := (h.map Prod.fst).nodup_iff.mp hkeys
  ext v
  rw [lookup_eq_some_iff_mem hkeys, lookup_eq_some_iff_mem hkeys', h.mem_iff]

end Lookup

end List
