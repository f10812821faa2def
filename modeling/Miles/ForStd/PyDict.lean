import Mathlib

/-!
# Insertion-ordered dictionaries

Python's `dict`: the keys are distinct and keep the order in which they were first set.
Setting a key that is there replaces its value in place.

## Key results

- `ext_get?`: a dictionary is determined by its keys in order and its lookups
- `items_ofList` / `length_keys_ofList_lt`: a comprehension over distinct keys keeps every
  pair, one over repeated keys is shorter than its source
-/

/-- A dictionary with its pairs in insertion order. -/
structure PyDict (κ ν : Type*) where
  items : List (κ × ν)
  nodup_keys : (items.map Prod.fst).Nodup

namespace PyDict

variable {κ ν μ : Type*}

theorem ext_items {d e : PyDict κ ν} (h : d.items = e.items) : d = e := by
  cases d
  cases e
  cases h
  rfl

/-- `{}` -/
def empty : PyDict κ ν := ⟨[], List.nodup_nil⟩

/-- `list(d)` -/
def keys (d : PyDict κ ν) : List κ := d.items.map Prod.fst

/-- `len(d)` -/
def size (d : PyDict κ ν) : Nat := d.items.length

theorem length_keys (d : PyDict κ ν) : d.keys.length = d.size := List.length_map ..

theorem keys_nodup (d : PyDict κ ν) : d.keys.Nodup := d.nodup_keys

/-- `{k: f(k, v) for k, v in d.items()}` -/
def mapValues (f : κ → ν → μ) (d : PyDict κ ν) : PyDict κ μ where
  items := d.items.map fun p => (p.1, f p.1 p.2)
  nodup_keys := by
    have h : (d.items.map fun p => (p.1, f p.1 p.2)).map Prod.fst = d.items.map Prod.fst := by
      simp
    rw [h]
    exact d.nodup_keys

@[simp] theorem keys_mapValues (f : κ → ν → μ) (d : PyDict κ ν) :
    (d.mapValues f).keys = d.keys := by
  simp [keys, mapValues]

/-- `dict(zip(d, values, strict=True))`; `none` when the lengths differ. -/
def zipStrict (d : PyDict κ ν) (values : List μ) : Option (PyDict κ μ) :=
  if h : d.keys.length = values.length then
    some ⟨d.keys.zip values, by
      rw [List.map_fst_zip (le_of_eq h)]
      exact d.keys_nodup⟩
  else none

variable {d : PyDict κ ν}

/-- Zipping fails exactly when the lengths differ. -/
theorem zipStrict_eq_none {values : List μ} :
    d.zipStrict values = none ↔ d.keys.length ≠ values.length := by
  unfold zipStrict
  split <;> simp_all

/-- A successful zip pairs the keys with the values in order. -/
theorem zipStrict_eq_some {values : List μ} {e : PyDict κ μ}
    (h : d.zipStrict values = some e) :
    e.keys = d.keys ∧ e.items.map Prod.snd = values := by
  unfold zipStrict at h
  split at h
  · rename_i hlen
    cases h
    exact ⟨List.map_fst_zip (le_of_eq hlen), List.map_snd_zip (ge_of_eq hlen)⟩
  · cases h

variable [DecidableEq κ]

/-- `d.get(k)` -/
def get? (d : PyDict κ ν) (k : κ) : Option ν :=
  (d.items.find? fun p => p.1 = k).map Prod.snd

/-- `d.get(k, dflt)` -/
def getD (d : PyDict κ ν) (k : κ) (dflt : ν) : ν := (d.get? k).getD dflt

theorem mem_keys_iff {k : κ} : k ∈ d.keys ↔ ∃ v, d.get? k = some v := by
  simp only [keys, get?, List.mem_map, Option.map_eq_some_iff]
  constructor
  · rintro ⟨p, hp, rfl⟩
    have hsome : (d.items.find? fun q => q.1 = p.1).isSome := by
      rw [List.find?_isSome]
      exact ⟨p, hp, by simp⟩
    obtain ⟨q, hq⟩ := Option.isSome_iff_exists.mp hsome
    exact ⟨q.2, q, hq, rfl⟩
  · rintro ⟨v, p, hp, rfl⟩
    have hk := List.find?_some hp
    exact ⟨p, List.mem_of_find?_eq_some hp, by simpa using hk⟩

/-- A lookup finds exactly the pairs of the dictionary. -/
theorem get?_eq_some {k : κ} {v : ν} : d.get? k = some v ↔ (k, v) ∈ d.items := by
  obtain ⟨items, hnodup⟩ := d
  show (items.find? fun p => p.1 = k).map Prod.snd = some v ↔ (k, v) ∈ items
  induction items with
  | nil => simp
  | cons p ps ih =>
    simp only [List.map_cons, List.nodup_cons, List.mem_map] at hnodup
    by_cases h : p.1 = k
    · subst h
      have hnot : ∀ w, (p.1, w) ∉ ps := fun w hw => hnodup.1 ⟨(p.1, w), hw, rfl⟩
      have hmem : (p.1, v) ∈ p :: ps ↔ p.2 = v := by
        simp only [List.mem_cons, hnot, or_false, Prod.ext_iff, true_and]
        exact eq_comm
      simp [hmem]
    · have hne : (k, v) ≠ p := fun he => h (by rw [← he])
      have hmem : (k, v) ∈ p :: ps ↔ (k, v) ∈ ps := by
        simp [hne]
      rw [List.find?_cons_of_neg (by simpa using h), hmem]
      exact ih hnodup.2

/-- The pairs of one key. -/
theorem filter_items (d : PyDict κ ν) (k : κ) :
    d.items.filter (fun p => p.1 = k) = ((d.get? k).map fun v => (k, v)).toList := by
  obtain ⟨items, hnodup⟩ := d
  show items.filter _ = (((items.find? fun p => p.1 = k).map Prod.snd).map _).toList
  induction items with
  | nil => rfl
  | cons p ps ih =>
    simp only [List.map_cons, List.nodup_cons, List.mem_map] at hnodup
    by_cases h : p.1 = k
    · -- no later pair has this key
      have hnone : ps.filter (fun q => q.1 = k) = [] := by
        rw [List.filter_eq_nil_iff]
        intro q hq hqk
        exact hnodup.1 ⟨q, hq, by rw [h]; exact of_decide_eq_true hqk⟩
      subst h
      simp [hnone]
    · rw [List.filter_cons_of_neg (by simpa using h), List.find?_cons_of_neg (by simpa using h)]
      exact ih hnodup.2

/-- A lookup in the list of pairs. -/
theorem lookup_items (d : PyDict κ ν) (k : κ) : d.items.lookup k = d.get? k := by
  rw [get?]
  induction d.items with
  | nil => rfl
  | cons p ps ih =>
    by_cases h : p.1 = k
    · subst h
      obtain ⟨k, v⟩ := p
      simp
    · have hne : (k == p.1) = false := by simpa using fun he => h he.symm
      rw [List.lookup_cons, hne, List.find?_cons_of_neg (by simpa using h)]
      exact ih

/-- The same keys in the same order with the same values are the same dictionary. -/
theorem ext_get? {d e : PyDict κ ν} (hkeys : d.keys = e.keys)
    (hget : ∀ k, k ∈ d.keys → d.get? k = e.get? k) : d = e := by
  have hlen : d.items.length = e.items.length := by
    have := congrArg List.length hkeys
    simpa [keys] using this
  apply ext_items
  apply List.ext_getElem hlen
  intro i hd he
  have hkey : d.items[i].1 = e.items[i].1 := by
    have hi : d.keys[i]? = e.keys[i]? := by rw [hkeys]
    simpa [keys, hd, he] using hi
  have hmem : (d.items[i].1, d.items[i].2) ∈ d.items := List.getElem_mem hd
  have hmem' : (e.items[i].1, e.items[i].2) ∈ e.items := List.getElem_mem he
  have hin : d.items[i].1 ∈ d.keys := List.mem_map.mpr ⟨_, hmem, rfl⟩
  have heq := hget _ hin
  rw [get?_eq_some.mpr hmem, hkey, get?_eq_some.mpr hmem'] at heq
  exact Prod.ext hkey (Option.some.inj heq)

@[simp] theorem get?_mapValues (f : κ → ν → μ) (d : PyDict κ ν) (k : κ) :
    (d.mapValues f).get? k = (d.get? k).map (f k) := by
  ext w
  rw [get?_eq_some, Option.map_eq_some_iff]
  simp only [mapValues, List.mem_map, get?_eq_some]
  constructor
  · rintro ⟨p, hp, heq⟩
    obtain ⟨rfl, rfl⟩ := Prod.mk.inj heq
    exact ⟨p.2, hp, rfl⟩
  · rintro ⟨v, hv, rfl⟩
    exact ⟨(k, v), hv, rfl⟩

/-! ### Setting a key -/

/-- The pairs after `d[k] = v`. -/
def setItems (k : κ) (v : ν) : List (κ × ν) → List (κ × ν)
  | [] => [(k, v)]
  | p :: ps => if p.1 = k then (k, v) :: ps else p :: setItems k v ps

theorem map_fst_setItems (k : κ) (v : ν) (ps : List (κ × ν)) :
    (setItems k v ps).map Prod.fst =
      if k ∈ ps.map Prod.fst then ps.map Prod.fst else ps.map Prod.fst ++ [k] := by
  induction ps with
  | nil => rfl
  | cons p ps ih =>
    by_cases h : p.1 = k
    · subst h
      simp [setItems]
    · have hne : k ≠ p.1 := fun he => h he.symm
      rw [setItems, if_neg h, List.map_cons, ih]
      simp only [List.map_cons, List.mem_cons, hne, false_or]
      split <;> rfl

/-- `d[k] = v` -/
def set (d : PyDict κ ν) (k : κ) (v : ν) : PyDict κ ν where
  items := setItems k v d.items
  nodup_keys := by
    rw [map_fst_setItems]
    split
    · exact d.nodup_keys
    · rename_i h
      exact List.nodup_append.mpr ⟨d.nodup_keys, List.nodup_singleton k, by
        rintro a ha b hb rfl
        exact h ((List.mem_singleton.mp hb) ▸ ha)⟩

theorem keys_set (d : PyDict κ ν) (k : κ) (v : ν) :
    (d.set k v).keys = if k ∈ d.keys then d.keys else d.keys ++ [k] :=
  map_fst_setItems k v d.items

/-- Setting a key that is there keeps the keys. -/
theorem keys_set_of_mem {k : κ} (v : ν) (h : k ∈ d.keys) :
    (d.set k v).keys = d.keys := by
  rw [keys_set, if_pos h]

@[simp] theorem get?_set (d : PyDict κ ν) (k : κ) (v : ν) (k' : κ) :
    (d.set k v).get? k' = if k' = k then some v else d.get? k' := by
  show ((setItems k v d.items).find? fun p => p.1 = k').map Prod.snd = _
  unfold get?
  induction d.items with
  | nil =>
    by_cases h : k' = k
    · simp [setItems, h]
    · have hne : ¬ k = k' := fun he => h he.symm
      simp [setItems, h, hne]
  | cons p ps ih =>
    by_cases hp : p.1 = k
    · by_cases h : k' = k
      · simp [setItems, hp, h]
      · have hne : ¬ k = k' := fun he => h he.symm
        simp [setItems, hp, h, hne]
    · simp only [setItems, hp, if_false]
      by_cases hk' : p.1 = k'
      · have h : ¬ k' = k := fun he => hp (hk'.trans he)
        simp [hk', h]
      · rw [List.find?_cons_of_neg (by simpa using hk'),
          List.find?_cons_of_neg (by simpa using hk'), ih]

/-! ### Removing keys -/

/-- `{k: v for k, v in d.items() if keep(k, v)}` -/
def filter (keep : κ → ν → Bool) (d : PyDict κ ν) : PyDict κ ν where
  items := d.items.filter fun p => keep p.1 p.2
  nodup_keys := d.nodup_keys.sublist (List.filter_sublist.map Prod.fst)

theorem get?_filter {keep : κ → ν → Bool} {k : κ} {v : ν} :
    (d.filter keep).get? k = some v ↔ d.get? k = some v ∧ keep k v = true := by
  rw [get?_eq_some, get?_eq_some, filter, List.mem_filter]

/-- The dictionary after `d.pop(k, None)`. -/
def erase (d : PyDict κ ν) (k : κ) : PyDict κ ν where
  items := d.items.filter fun p => p.1 ≠ k
  nodup_keys := d.nodup_keys.sublist (List.filter_sublist.map Prod.fst)

@[simp] theorem get?_erase (d : PyDict κ ν) (k k' : κ) :
    (d.erase k).get? k' = if k' = k then none else d.get? k' := by
  ext v
  rw [get?_eq_some, erase, List.mem_filter, decide_eq_true_iff]
  split
  · rename_i heq
    simp [heq]
  · rename_i hne
    rw [get?_eq_some]
    exact and_iff_left hne

/-- A pair that is set and then removed leaves no trace. -/
theorem erase_set (d : PyDict κ ν) (k : κ) (v : ν) : (d.set k v).erase k = d.erase k := by
  apply ext_items
  show (setItems k v d.items).filter (fun p => p.1 ≠ k) = d.items.filter fun p => p.1 ≠ k
  induction d.items with
  | nil => simp [setItems]
  | cons p ps ih =>
    by_cases hp : p.1 = k
    · simp [setItems, hp]
    · rw [setItems, if_neg hp, List.filter_cons, List.filter_cons, ih]

/-- The pairs of a dictionary, with one of them in front. -/
theorem perm_items_of_get? {k : κ} {v : ν} (h : d.get? k = some v) :
    d.items.Perm ((k, v) :: (d.erase k).items) := by
  have hsplit := (List.filter_append_perm (fun p : κ × ν => p.1 = k) d.items).symm
  rw [filter_items, h] at hsplit
  show d.items.Perm ((k, v) :: d.items.filter fun p => p.1 ≠ k)
  simpa using hsplit

theorem items_erase_of_none {k : κ} (h : d.get? k = none) :
    (d.erase k).items = d.items := by
  show d.items.filter _ = d.items
  rw [List.filter_eq_self]
  intro p hp
  have hne : p.1 ≠ k := by
    rintro rfl
    rw [get?_eq_some.mpr hp] at h
    cases h
  simpa using hne

/-- A pair that was set, in front of all others. -/
theorem perm_items_set (d : PyDict κ ν) (k : κ) (v : ν) :
    (d.set k v).items.Perm ((k, v) :: (d.erase k).items) := by
  have hget : (d.set k v).get? k = some v := by rw [get?_set, if_pos rfl]
  apply (perm_items_of_get? hget).trans
  apply List.Perm.cons
  apply List.Perm.of_eq
  show (setItems k v d.items).filter _ = d.items.filter _
  induction d.items with
  | nil => simp [setItems]
  | cons p ps ih =>
    by_cases hp : p.1 = k
    · simp [setItems, hp]
    · rw [setItems, if_neg hp, List.filter_cons, List.filter_cons, ih]

/-! ### Comprehensions -/

/-- `{k: v for k, v in pairs}` -/
def ofList (pairs : List (κ × ν)) : PyDict κ ν :=
  pairs.foldl (fun d p => d.set p.1 p.2) empty

theorem mem_keys_foldl_set (pairs : List (κ × ν)) (d : PyDict κ ν) (k : κ) :
    k ∈ (pairs.foldl (fun d p => d.set p.1 p.2) d).keys ↔
      k ∈ d.keys ∨ k ∈ pairs.map Prod.fst := by
  induction pairs generalizing d with
  | nil => simp
  | cons p ps ih =>
    rw [List.foldl_cons, ih, keys_set]
    by_cases h : p.1 ∈ d.keys
    · rw [if_pos h]
      simp only [List.map_cons, List.mem_cons]
      constructor
      · rintro (hk | hk)
        · exact .inl hk
        · exact .inr (.inr hk)
      · rintro (hk | rfl | hk)
        · exact .inl hk
        · exact .inl h
        · exact .inr hk
    · rw [if_neg h]
      simp only [List.mem_append, List.map_cons, List.mem_cons, List.not_mem_nil, or_false,
        or_assoc]

/-- The keys of a comprehension are the keys of its pairs. -/
theorem mem_keys_ofList {pairs : List (κ × ν)} {k : κ} :
    k ∈ (ofList pairs).keys ↔ k ∈ pairs.map Prod.fst := by
  rw [ofList, mem_keys_foldl_set]
  simp [keys, empty]

/-- A value of a comprehension is the value of one of its pairs. -/
theorem mem_of_get?_ofList {pairs : List (κ × ν)} {k : κ} {v : ν}
    (h : (ofList pairs).get? k = some v) : (k, v) ∈ pairs := by
  have hfold : ∀ (ps : List (κ × ν)) (d : PyDict κ ν),
      (ps.foldl (fun d p => d.set p.1 p.2) d).get? k = some v → d.get? k = some v ∨ (k, v) ∈ ps := by
    intro ps
    induction ps with
    | nil => exact fun d hd => .inl hd
    | cons p ps ih =>
      intro d hd
      rcases ih (d.set p.1 p.2) hd with hget | hmem
      · rw [get?_set] at hget
        split at hget
        · rename_i heq
          cases hget
          exact .inr (by simp [heq])
        · exact .inl hget
      · exact .inr (List.mem_cons_of_mem _ hmem)
  rcases hfold pairs empty h with hempty | hmem
  · cases hempty
  · exact hmem

/-- Setting the keys of several pairs that are new. -/
theorem items_foldl_set (pairs : List (κ × ν)) (d : PyDict κ ν)
    (h : (d.items.map Prod.fst ++ pairs.map Prod.fst).Nodup) :
    (pairs.foldl (fun d p => d.set p.1 p.2) d).items = d.items ++ pairs := by
  induction pairs generalizing d with
  | nil => simp
  | cons p ps ih =>
    have hset : ∀ qs : List (κ × ν), p.1 ∉ qs.map Prod.fst →
        setItems p.1 p.2 qs = qs ++ [p] := by
      intro qs
      induction qs with
      | nil => intro _; rfl
      | cons q qs ihq =>
        intro hq
        simp only [List.map_cons, List.mem_cons, not_or] at hq
        rw [setItems, if_neg (fun he => hq.1 he.symm), ihq hq.2, List.cons_append]
    have hnot : p.1 ∉ d.items.map Prod.fst := by
      intro hmem
      exact (List.nodup_append.mp h).2.2 _ hmem _ (by simp) rfl
    have hitems : (d.set p.1 p.2).items = d.items ++ [p] := hset d.items hnot
    rw [List.foldl_cons, ih, hitems, List.append_assoc, List.singleton_append]
    rw [hitems]
    simpa [List.append_assoc] using h

/-- A comprehension over distinct keys keeps every pair in order. -/
theorem items_ofList {pairs : List (κ × ν)} (h : (pairs.map Prod.fst).Nodup) :
    (ofList pairs).items = pairs := by
  rw [ofList, items_foldl_set pairs empty (by simpa [empty] using h)]
  rfl

/-- A comprehension over repeated keys is shorter than its source. -/
theorem length_keys_ofList_lt {pairs : List (κ × ν)} (h : ¬ (pairs.map Prod.fst).Nodup) :
    (ofList pairs).keys.length < pairs.length := by
  have hperm : (ofList pairs).keys.Perm (pairs.map Prod.fst).dedup := by
    rw [List.perm_ext_iff_of_nodup (keys_nodup _) (List.nodup_dedup _)]
    intro k
    rw [mem_keys_ofList, List.mem_dedup]
  have hsub := List.dedup_sublist (pairs.map Prod.fst)
  have hle := hsub.length_le
  have hne : (pairs.map Prod.fst).dedup.length ≠ (pairs.map Prod.fst).length := by
    intro heq
    exact h (List.dedup_eq_self.mp (hsub.eq_of_length heq))
  have hmap : (pairs.map Prod.fst).length = pairs.length := List.length_map ..
  rw [hperm.length_eq]
  omega

/-! ### Merging -/

/-- The dictionary after `d.update(e)`; also `{**d, **e}`. -/
def update (d e : PyDict κ ν) : PyDict κ ν := e.items.foldl (fun d p => d.set p.1 p.2) d

@[simp] theorem get?_update (d e : PyDict κ ν) (k : κ) :
    (d.update e).get? k = (e.get? k).or (d.get? k) := by
  have hfold : ∀ (ps : List (κ × ν)) (d : PyDict κ ν), (ps.map Prod.fst).Nodup →
      (ps.foldl (fun d p => d.set p.1 p.2) d).get? k = (ps.lookup k).or (d.get? k) := by
    intro ps
    induction ps with
    | nil => intro d _; rfl
    | cons p ps ih =>
      intro d hnodup
      obtain ⟨key, v⟩ := p
      rw [List.map_cons, List.nodup_cons] at hnodup
      rw [List.foldl_cons, ih _ hnodup.2, get?_set, List.lookup_cons]
      by_cases hk : k = key
      · have hnone : ps.lookup k = none := by
          rw [List.lookup_eq_none_iff]
          intro q hq
          have hne : q.1 ≠ key := fun he => hnodup.1 (List.mem_map.mpr ⟨q, hq, he⟩)
          simp [hk, hne.symm]
        rw [hnone, if_pos hk, beq_iff_eq.mpr hk]
        rfl
      · rw [if_neg hk, beq_eq_false_iff_ne.mpr hk]
  rw [update, hfold e.items d e.nodup_keys, lookup_items]

/-- The dictionary after `d.pop(k, None)` for several keys. -/
def eraseAll (d : PyDict κ ν) (ks : List κ) : PyDict κ ν := ks.foldl erase d

@[simp] theorem get?_eraseAll (d : PyDict κ ν) (ks : List κ) (k : κ) :
    (d.eraseAll ks).get? k = if k ∈ ks then none else d.get? k := by
  induction ks generalizing d with
  | nil => simp [eraseAll]
  | cons k' ks ih =>
    show ((d.erase k').eraseAll ks).get? k = _
    rw [ih, get?_erase]
    by_cases hks : k ∈ ks
    · rw [if_pos hks, if_pos (List.mem_cons_of_mem k' hks)]
    · simp [hks]

/-- `{k: d[k] for k in ks if k in d}` -/
def restrict (d : PyDict κ ν) (ks : List κ) : PyDict κ ν :=
  ofList (ks.filterMap fun k => (d.get? k).map (k, ·))

@[simp] theorem get?_restrict (d : PyDict κ ν) (ks : List κ) (k : κ) :
    (d.restrict ks).get? k = if k ∈ ks then d.get? k else none := by
  have hpairs : ∀ v, (k, v) ∈ ks.filterMap (fun k => (d.get? k).map (k, ·)) ↔
      k ∈ ks ∧ d.get? k = some v := by
    intro v
    rw [List.mem_filterMap]
    constructor
    · rintro ⟨k', hk', h⟩
      obtain ⟨w, hw, heq⟩ := Option.map_eq_some_iff.mp h
      cases heq
      exact ⟨hk', hw⟩
    · rintro ⟨hk, hv⟩
      exact ⟨k, hk, by rw [hv]; rfl⟩
  cases hget : (d.restrict ks).get? k with
  | some v =>
    obtain ⟨hk, hv⟩ := (hpairs v).mp (mem_of_get?_ofList hget)
    rw [if_pos hk, hv]
  | none =>
    split
    · rename_i hk
      cases hv : d.get? k with
      | none => rfl
      | some v =>
        -- a key that is there is a key of the comprehension
        have hmem : k ∈ (d.restrict ks).keys :=
          mem_keys_ofList.mpr (List.mem_map.mpr ⟨_, (hpairs v).mpr ⟨hk, hv⟩, rfl⟩)
        obtain ⟨w, hw⟩ := mem_keys_iff.mp hmem
        rw [hw] at hget
        cases hget
    · rfl

end PyDict
