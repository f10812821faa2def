import Miles.ForStd.List
import Miles.ForStd.PyDict
import Miles.ForStd.PyJson

/-!
# Equality of Python values

`==` of two decoded JSON values: numbers are compared by value across their types, a boolean is a
number, lists are compared in order, and two dictionaries of one size are equal when every key of
the first has an equal value in the second.

## Key results

- `pyEq_trans` and `pyEq_symm`: equality of dictionaries with distinct keys
- `pyEq_refl`: only a NaN differs from itself
-/

/-! ## Numbers -/

/-- The value of a Python number. -/
inductive PyNum where
  | fin (q : ℚ)
  | inf (negative : Bool)
  | nan
  deriving DecidableEq

/-- The number a double stands for. -/
def Float64.value (x : Float64) : PyNum :=
  let exponent := ((x >>> 52) &&& 0x7ff).toNat
  let fraction := (x &&& 0xfffffffffffff).toNat
  if exponent = 0x7ff then
    if fraction = 0 then .inf x.msb else .nan
  else
    -- a subnormal has the exponent of the smallest normal number and no leading bit
    let significand := if exponent = 0 then fraction else 2 ^ 52 + fraction
    let magnitude := mkRat (significand * 2 ^ max exponent 1 : Nat) (2 ^ 1075)
    .fin (if x.msb then -magnitude else magnitude)

namespace PyNum

/-- `x == y` -/
def eq : PyNum → PyNum → Bool
  | .fin q, .fin r => q = r
  | .inf s, .inf t => s = t
  | _, _ => false

/-- `x < y` -/
def lt : PyNum → PyNum → Bool
  | .fin q, .fin r => q < r
  | .fin _, .inf negative => !negative
  | .inf negative, .fin _ => negative
  | .inf s, .inf t => s && !t
  | _, _ => false

/-- `x <= y` -/
def le (x y : PyNum) : Bool := x.lt y || x.eq y

theorem eq_iff {x y : PyNum} : x.eq y = true ↔ x = y ∧ x ≠ .nan := by
  cases x <;> cases y <;> simp [eq]

end PyNum

namespace PyJson

/-- The number a value is in arithmetic. -/
def number? : PyJson → Option PyNum
  | .bool b => some (.fin (if b then 1 else 0))
  | .int n => some (.fin n)
  | .float x => some x.value
  | _ => none

/-- `x == v` for a number `x` -/
def eqNumber (x : PyNum) (v : PyJson) : Bool :=
  match v.number? with
  | some y => x.eq y
  | none => false

/-! ## Values -/

/-- The value is a string with this text. -/
def isText (s : String) : PyJson → Bool
  | .str t => s = t
  | _ => false

/-- The elements of a list. -/
def list? : PyJson → Option (List PyJson)
  | .arr items => some items
  | _ => none

/-- The pairs of a dictionary. -/
def dict? : PyJson → Option (List (String × PyJson))
  | .obj fields => some fields
  | _ => none

mutual

/-- `v == w` -/
def pyEq (v w : PyJson) : Bool :=
  match v with
  | .null => w.isNull
  | .bool b => eqNumber (.fin (if b then 1 else 0)) w
  | .int n => eqNumber (.fin n) w
  | .float x => eqNumber x.value w
  | .str s => w.isText s
  | .arr items =>
    match w.list? with
    | some others => pyEqItems items others
    | none => false
  | .obj fields =>
    match w.dict? with
    | some others => fields.length = others.length && pyEqFields fields others
    | none => false

/-- Two lists are equal. -/
def pyEqItems (items others : List PyJson) : Bool :=
  match items with
  | [] => others.isEmpty
  | v :: items =>
    match others with
    | w :: others => pyEq v w && pyEqItems items others
    | [] => false

/-- The other dictionary has an equal value under every key. -/
def pyEqFields (fields others : List (String × PyJson)) : Bool :=
  match fields with
  | [] => true
  | (key, v) :: fields =>
    (match others.lookup key with
      | some w => pyEq v w
      | none => false) && pyEqFields fields others

end

/-! ## Induction -/

mutual

/-- Values are built from numbers, texts, lists and dictionaries. -/
theorem valueInduction {P : PyJson → Prop} (null : P .null) (bool : ∀ b, P (.bool b))
    (int : ∀ n, P (.int n)) (float : ∀ x, P (.float x)) (str : ∀ s, P (.str s))
    (arr : ∀ items, (∀ v ∈ items, P v) → P (.arr items))
    (obj : ∀ fields, (∀ f ∈ fields, P f.2) → P (.obj fields)) (v : PyJson) : P v :=
  match v with
  | .null => null
  | .bool b => bool b
  | .int n => int n
  | .float x => float x
  | .str s => str s
  | .arr items => arr items (itemsInduction null bool int float str arr obj items)
  | .obj fields => obj fields (fieldsInduction null bool int float str arr obj fields)

theorem itemsInduction {P : PyJson → Prop} (null : P .null) (bool : ∀ b, P (.bool b))
    (int : ∀ n, P (.int n)) (float : ∀ x, P (.float x)) (str : ∀ s, P (.str s))
    (arr : ∀ items, (∀ v ∈ items, P v) → P (.arr items))
    (obj : ∀ fields, (∀ f ∈ fields, P f.2) → P (.obj fields)) (items : List PyJson) :
    ∀ v ∈ items, P v :=
  match items with
  | [] => by simp
  | v :: items => by
    rw [List.forall_mem_cons]
    exact ⟨valueInduction null bool int float str arr obj v,
      itemsInduction null bool int float str arr obj items⟩

theorem fieldsInduction {P : PyJson → Prop} (null : P .null) (bool : ∀ b, P (.bool b))
    (int : ∀ n, P (.int n)) (float : ∀ x, P (.float x)) (str : ∀ s, P (.str s))
    (arr : ∀ items, (∀ v ∈ items, P v) → P (.arr items))
    (obj : ∀ fields, (∀ f ∈ fields, P f.2) → P (.obj fields)) (fields : List (String × PyJson)) :
    ∀ f ∈ fields, P f.2 :=
  match fields with
  | [] => by simp
  | (key, v) :: fields => by
    rw [List.forall_mem_cons]
    exact ⟨valueInduction null bool int float str arr obj v,
      fieldsInduction null bool int float str arr obj fields⟩

end

/-! ## What equality compares -/

theorem pyEqItems_iff {items others : List PyJson} :
    pyEqItems items others = true ↔ List.Forall₂ (fun v w => pyEq v w = true) items others := by
  induction items generalizing others with
  | nil => cases others <;> simp [pyEqItems]
  | cons v items ih =>
    cases others with
    | nil => simp [pyEqItems]
    | cons w others => simp [pyEqItems, ih]

theorem pyEqFields_iff {fields others : List (String × PyJson)} :
    pyEqFields fields others = true ↔
      ∀ f ∈ fields, ∃ w, others.lookup f.1 = some w ∧ pyEq f.2 w = true := by
  induction fields with
  | nil => simp [pyEqFields]
  | cons f fields ih =>
    obtain ⟨key, v⟩ := f
    rw [pyEqFields, Bool.and_eq_true, ih, List.forall_mem_cons]
    cases others.lookup key <;> simp

theorem eqNumber_iff {x : PyNum} {v : PyJson} :
    eqNumber x v = true ↔ v.number? = some x ∧ x ≠ .nan := by
  unfold eqNumber
  cases v.number? with
  | none => simp
  | some y =>
    rw [PyNum.eq_iff]
    constructor
    · intro h
      exact ⟨by rw [h.1], h.2⟩
    · intro h
      exact ⟨(Option.some.inj h.1).symm, h.2⟩

theorem pyEq_arr {items : List PyJson} {w : PyJson} :
    pyEq (.arr items) w = true ↔
      ∃ others, w = .arr others ∧ List.Forall₂ (fun v w => pyEq v w = true) items others := by
  cases w <;> simp [pyEq, list?, pyEqItems_iff]

theorem pyEq_obj {fields : List (String × PyJson)} {w : PyJson} :
    pyEq (.obj fields) w = true ↔
      ∃ others, w = .obj others ∧ fields.length = others.length ∧
        ∀ f ∈ fields, ∃ x, others.lookup f.1 = some x ∧ pyEq f.2 x = true := by
  cases w <;> simp [pyEq, dict?, pyEqFields_iff]

/-- A number equals the values that are the same number. -/
theorem pyEq_number {v w : PyJson} {x : PyNum} (hv : v.number? = some x) :
    pyEq v w = true ↔ w.number? = some x ∧ x ≠ .nan := by
  rw [← eqNumber_iff]
  cases v <;> simp only [number?, Option.some.injEq, reduceCtorEq] at hv <;> rw [pyEq, hv]

/-! ## Equality as a relation -/

/-- The value and everything in it satisfies a predicate. -/
inductive Throughout (p : PyJson → Prop) : PyJson → Prop
  | intro (v : PyJson) (here : p v) (items : ∀ items, v = .arr items → ∀ w ∈ items, Throughout p w)
      (fields : ∀ fields, v = .obj fields → ∀ f ∈ fields, Throughout p f.2) : Throughout p v

variable {p : PyJson → Prop}

theorem Throughout.here {v : PyJson} (h : v.Throughout p) : p v := by
  cases h
  assumption

theorem Throughout.items {items : List PyJson} {w : PyJson}
    (h : (PyJson.arr items).Throughout p) (hw : w ∈ items) : w.Throughout p := by
  cases h with
  | intro _ _ hitems _ => exact hitems items rfl w hw

theorem Throughout.fields {fields : List (String × PyJson)}
    {f : String × PyJson} (h : (PyJson.obj fields).Throughout p) (hf : f ∈ fields) :
    f.2.Throughout p := by
  cases h with
  | intro _ _ _ hfields => exact hfields fields rfl f hf

theorem Throughout.leaf {v : PyJson} (hlist : v.list? = none)
    (hdict : v.dict? = none) (h : p v) : v.Throughout p := by
  refine .intro v h (fun items hv => ?_) fun fields hv => ?_
  · subst hv
    cases hlist
  · subst hv
    cases hdict

theorem Throughout.arr {items : List PyJson} (h : p (.arr items))
    (hitems : ∀ w ∈ items, w.Throughout p) : (PyJson.arr items).Throughout p := by
  refine .intro _ h (fun _ hv => ?_) fun _ hv => (by cases hv)
  cases hv
  exact hitems

theorem Throughout.obj {fields : List (String × PyJson)} (h : p (.obj fields))
    (hfields : ∀ f ∈ fields, f.2.Throughout p) : (PyJson.obj fields).Throughout p := by
  refine .intro _ h (fun _ hv => (by cases hv)) fun _ hv => ?_
  cases hv
  exact hfields

theorem pyEq_trans {u v w : PyJson} (huv : pyEq u v = true) (hvw : pyEq v w = true) :
    pyEq u w = true := by
  induction u using valueInduction generalizing v w with
  | null =>
    cases v with
    | null => exact hvw
    | _ => cases huv
  | bool b =>
    obtain ⟨hv, hnan⟩ := (pyEq_number rfl).mp huv
    exact (pyEq_number rfl).mpr ((pyEq_number hv).mp hvw)
  | int n =>
    obtain ⟨hv, hnan⟩ := (pyEq_number rfl).mp huv
    exact (pyEq_number rfl).mpr ((pyEq_number hv).mp hvw)
  | float x =>
    obtain ⟨hv, hnan⟩ := (pyEq_number rfl).mp huv
    exact (pyEq_number rfl).mpr ((pyEq_number hv).mp hvw)
  | str s =>
    cases v with
    | str t =>
      have hst : s = t := by simpa [pyEq, isText] using huv
      rw [hst]
      exact hvw
    | _ => cases huv
  | arr items ih =>
    obtain ⟨others, rfl, h⟩ := pyEq_arr.mp huv
    obtain ⟨thirds, rfl, h'⟩ := pyEq_arr.mp hvw
    refine pyEq_arr.mpr ⟨thirds, rfl, ?_⟩
    clear huv hvw
    induction h generalizing thirds with
    | nil => exact h'
    | cons hhead _ ihtail =>
      rw [List.forall_mem_cons] at ih
      cases h' with
      | cons hhead' htail' => exact .cons (ih.1 hhead hhead') (ihtail ih.2 _ htail')
  | obj fields ih =>
    obtain ⟨others, rfl, hlength, h⟩ := pyEq_obj.mp huv
    obtain ⟨thirds, rfl, hlength', h'⟩ := pyEq_obj.mp hvw
    refine pyEq_obj.mpr ⟨thirds, rfl, hlength.trans hlength', fun f hf => ?_⟩
    obtain ⟨x, hx, hfx⟩ := h f hf
    obtain ⟨y, hy, hxy⟩ := h' (f.1, x) (List.mem_of_lookup hx)
    exact ⟨y, hy, ih f hf hfx hxy⟩

/-- Every dictionary in the value has distinct keys. -/
def DistinctKeys (v : PyJson) : Prop :=
  v.Throughout fun w => ∀ fields, w = .obj fields → (fields.map Prod.fst).Nodup

/-- No number in the value is a NaN. -/
def NanFree (v : PyJson) : Prop := v.Throughout fun w => w.number? ≠ some .nan

theorem pyEq_refl {v : PyJson} (hkeys : v.DistinctKeys) (hnan : v.NanFree) : pyEq v v = true := by
  induction v using valueInduction with
  | null => rfl
  | bool b => exact (pyEq_number rfl).mpr ⟨rfl, by simp⟩
  | int n => exact (pyEq_number rfl).mpr ⟨rfl, by simp⟩
  | float x =>
    have hx : x.value ≠ .nan := fun hx => hnan.here (by rw [number?, hx])
    exact (pyEq_number rfl).mpr ⟨rfl, hx⟩
  | str s => simp [pyEq, isText]
  | arr items ih =>
    have hall : ∀ v ∈ items, pyEq v v = true := fun v hv => ih v hv (hkeys.items hv) (hnan.items hv)
    exact pyEq_arr.mpr ⟨items, rfl, List.forall₂_same.mpr hall⟩
  | obj fields ih =>
    refine pyEq_obj.mpr ⟨fields, rfl, rfl, fun f hf => ⟨f.2, ?_, ?_⟩⟩
    · exact (List.lookup_eq_some_iff_mem (hkeys.here fields rfl)).mpr hf
    · exact ih f hf (hkeys.fields hf) (hnan.fields hf)

theorem pyEq_symm {v w : PyJson} (hkeys : v.DistinctKeys) (h : pyEq v w = true) :
    pyEq w v = true := by
  induction v using valueInduction generalizing w with
  | null =>
    cases w with
    | null => rfl
    | _ => cases h
  | bool b =>
    obtain ⟨hw, hnan⟩ := (pyEq_number rfl).mp h
    exact (pyEq_number hw).mpr ⟨rfl, hnan⟩
  | int n =>
    obtain ⟨hw, hnan⟩ := (pyEq_number rfl).mp h
    exact (pyEq_number hw).mpr ⟨rfl, hnan⟩
  | float x =>
    obtain ⟨hw, hnan⟩ := (pyEq_number rfl).mp h
    exact (pyEq_number hw).mpr ⟨rfl, hnan⟩
  | str s =>
    cases w with
    | str t =>
      have hst : s = t := by simpa [pyEq, isText] using h
      simp [pyEq, isText, hst]
    | _ => cases h
  | arr items ih =>
    obtain ⟨others, rfl, hitems⟩ := pyEq_arr.mp h
    have hall : ∀ v ∈ items, v.DistinctKeys := fun v hv => hkeys.items hv
    refine pyEq_arr.mpr ⟨items, rfl, ?_⟩
    clear h hkeys
    induction hitems with
    | nil => exact .nil
    | cons hhead _ ihtail =>
      rw [List.forall_mem_cons] at ih hall
      exact .cons (ih.1 hall.1 hhead) (ihtail ih.2 hall.2)
  | obj fields ih =>
    obtain ⟨others, rfl, hlength, hfields⟩ := pyEq_obj.mp h
    have hnodup := hkeys.here fields rfl
    -- as many keys, all of them found: the other dictionary has no further ones
    have hsubset : fields.map Prod.fst ⊆ others.map Prod.fst := by
      intro key hkey
      obtain ⟨f, hf, rfl⟩ := List.mem_map.mp hkey
      obtain ⟨x, hx, -⟩ := hfields f hf
      exact List.mem_map.mpr ⟨_, List.mem_of_lookup hx, rfl⟩
    have hperm := (List.subperm_of_subset hnodup hsubset).perm_of_length_le (by simp [hlength])
    have hnodup' := hperm.nodup_iff.mp hnodup
    refine pyEq_obj.mpr ⟨fields, rfl, hlength.symm, fun g hg => ?_⟩
    obtain ⟨f, hf, hfg⟩ := List.mem_map.mp (hperm.mem_iff.mpr (List.mem_map.mpr ⟨g, hg, rfl⟩))
    obtain ⟨x, hx, hfx⟩ := hfields f hf
    have hxg : x = g.2 := by
      rw [hfg, (List.lookup_eq_some_iff_mem hnodup').mpr hg] at hx
      exact (Option.some.inj hx).symm
    refine ⟨f.2, ?_, ?_⟩
    · rw [← hfg]
      exact (List.lookup_eq_some_iff_mem hnodup).mpr hf
    · rw [← hxg]
      exact ih f hf (hkeys.fields hf) hfx

/-! ## Dictionaries key by key -/

/-- Two dictionaries have the same keys, and related values under each. -/
def FieldsRel {α β : Type} (R : String → α → β → Prop) (fields : List (String × α))
    (others : List (String × β)) : Prop :=
  ∀ key, Option.Rel (R key) (fields.lookup key) (others.lookup key)

section FieldsRel
variable {α : Type} {R : String → α → α → Prop} {fields others thirds : List (String × α)}

theorem FieldsRel.symm (h : FieldsRel R fields others) : FieldsRel (fun key v w => R key w v)
    others fields := by
  intro key
  have hkey := h key
  revert hkey
  cases fields.lookup key <;> cases others.lookup key <;> intro hkey <;> cases hkey
  · exact .none
  · exact .some ‹_›

theorem FieldsRel.imp {S : String → α → α → Prop} (h : FieldsRel R fields others)
    (himp : ∀ key v w, fields.lookup key = some v → others.lookup key = some w → R key v w →
      S key v w) : FieldsRel S fields others := by
  intro key
  have hkey := h key
  cases hv : fields.lookup key <;> cases hw : others.lookup key <;> rw [hv, hw] at hkey <;>
    cases hkey
  · exact .none
  · exact .some (himp key _ _ hv hw ‹_›)

theorem FieldsRel.lookup_isSome (h : FieldsRel R fields others) (key : String) :
    (fields.lookup key).isSome = (others.lookup key).isSome := by
  have hkey := h key
  revert hkey
  cases fields.lookup key <;> cases others.lookup key <;> intro hkey <;> cases hkey <;> rfl

theorem FieldsRel.trans {S T : String → α → α → Prop} (h : FieldsRel R fields others)
    (h' : FieldsRel S others thirds)
    (htrans : ∀ key u v w, fields.lookup key = some u → others.lookup key = some v →
      thirds.lookup key = some w → R key u v → S key v w → T key u w) :
    FieldsRel T fields thirds := by
  intro key
  have hkey := h key
  have hkey' := h' key
  cases hu : fields.lookup key <;> cases hv : others.lookup key <;>
    cases hw : thirds.lookup key <;> rw [hu, hv] at hkey <;> rw [hv, hw] at hkey' <;>
    cases hkey <;> cases hkey'
  · exact .none
  · exact .some (htrans key _ _ _ hu hv hw ‹_› ‹_›)

end FieldsRel

/-- As many keys, and a related value under each of them. -/
theorem fieldsRel_iff {R : PyJson → PyJson → Prop} {fields others : List (String × PyJson)}
    (hnodup : (fields.map Prod.fst).Nodup) (hnodup' : (others.map Prod.fst).Nodup) :
    (fields.length = others.length ∧
      ∀ f ∈ fields, ∃ x, others.lookup f.1 = some x ∧ R f.2 x) ↔
    FieldsRel (fun _ => R) fields others := by
  constructor
  · intro h key
    obtain ⟨hlength, hfields⟩ := h
    have hsubset : fields.map Prod.fst ⊆ others.map Prod.fst := by
      intro key hkey
      obtain ⟨f, hf, rfl⟩ := List.mem_map.mp hkey
      obtain ⟨x, hx, -⟩ := hfields f hf
      exact List.mem_map.mpr ⟨_, List.mem_of_lookup hx, rfl⟩
    have hperm := (List.subperm_of_subset hnodup hsubset).perm_of_length_le (by simp [hlength])
    cases hv : fields.lookup key with
    | some v =>
      obtain ⟨x, hx, hr⟩ := hfields (key, v) (List.mem_of_lookup hv)
      rw [show others.lookup key = some x from hx]
      exact .some hr
    | none =>
      have hnone : others.lookup key = none := by
        rw [← Option.not_isSome_iff_eq_none, List.isSome_lookup, ← hperm.mem_iff,
          ← List.isSome_lookup, hv]
        simp
      rw [hnone]
      exact .none
  · intro h
    have hperm : (fields.map Prod.fst).Perm (others.map Prod.fst) := by
      rw [List.perm_ext_iff_of_nodup hnodup hnodup']
      intro key
      rw [← List.isSome_lookup, ← List.isSome_lookup, h.lookup_isSome]
    refine ⟨by simpa using hperm.length_eq, fun f hf => ?_⟩
    have hkey := h f.1
    rw [(List.lookup_eq_some_iff_mem hnodup).mpr (show (f.1, f.2) ∈ fields from hf)] at hkey
    cases hx : others.lookup f.1 with
    | none =>
      rw [hx] at hkey
      cases hkey
    | some x =>
      rw [hx] at hkey
      cases hkey
      exact ⟨x, rfl, ‹_›⟩

/-! ## Comparison with a bounded stack -/

/-- The value is nested at most this deep. -/
def Within : Nat → PyJson → Prop
  | 0, v => v.list? = none ∧ v.dict? = none
  | n + 1, v =>
    (∀ items, v = .arr items → ∀ w ∈ items, Within n w) ∧
      ∀ fields, v = .obj fields → ∀ f ∈ fields, Within n f.2

/-- `v == w` with room for so many nested comparisons; none stands for `RecursionError`. -/
def eqWithin : Nat → PyJson → PyJson → Option Bool
  | 0, v, w => if v.list?.isSome || v.dict?.isSome then none else some (pyEq v w)
  | n + 1, v, w =>
    match v, w with
    | .arr items, .arr others =>
      if items.length = others.length then
        (items.zip others).allM fun x => eqWithin n x.1 x.2
      else some false
    | .obj fields, .obj others =>
      if fields.length = others.length then
        fields.allM fun f =>
          match others.lookup f.1 with
          | some w => eqWithin n f.2 w
          | none => some false
      else some false
    | v, w => some (pyEq v w)

theorem allM_eq_true {α : Type} {p : α → Option Bool} {xs : List α} :
    xs.allM p = some true ↔ ∀ x ∈ xs, p x = some true := by
  induction xs with
  | nil => simp [List.allM]
  | cons x xs ih =>
    rw [List.forall_mem_cons, ← ih]
    cases hx : p x with
    | none => simp [List.allM, hx]
    | some b => cases b <;> simp [List.allM, hx]

/-- The comparison finds two values equal when they are, and the stack is deep enough. -/
theorem eqWithin_eq_true {n : Nat} {v w : PyJson} :
    eqWithin n v w = some true ↔ pyEq v w = true ∧ Within n v := by
  -- on the depth of the stack; a list and an object go one level down
  induction n generalizing v w with
  | zero => cases v <;> simp [eqWithin, Within, list?, dict?]
  | succ n ih =>
    cases v with
    | arr items =>
      cases w with
      | arr others =>
        rw [pyEq_arr]
        simp only [eqWithin]
        split
        · rename_i hlength
          rw [allM_eq_true]
          constructor
          · intro h
            refine ⟨⟨others, rfl, List.forall₂_iff_zip.mpr ⟨hlength, ?_⟩⟩, ?_, fun _ h => (by cases h)⟩
            · intro v w hvw
              exact (ih.mp (h (v, w) hvw)).1
            · intro _ hitems v hv
              cases hitems
              obtain ⟨i, hi, rfl⟩ := List.getElem_of_mem hv
              -- an item is compared with the one in its place
              have hzip : (items[i], others[i]) ∈ items.zip others := by
                rw [List.mem_iff_getElem]
                exact ⟨i, by simp [hi, ← hlength], by simp⟩
              exact (ih.mp (h _ hzip)).2
          · intro h x hx
            obtain ⟨⟨_, hothers, hall⟩, hitems, -⟩ := h
            cases hothers
            have hpair := (List.forall₂_iff_zip.mp hall).2 hx
            exact ih.mpr ⟨hpair, hitems items rfl x.1 (List.of_mem_zip hx).1⟩
        · rename_i hlength
          simp only [Option.some.injEq, Bool.false_eq_true, false_iff]
          intro h
          obtain ⟨⟨_, hothers, hall⟩, -⟩ := h
          cases hothers
          exact hlength hall.length_eq
      | _ => simp [eqWithin, pyEq, list?]
    | obj fields =>
      cases w with
      | obj others =>
        rw [pyEq_obj]
        simp only [eqWithin]
        split
        · rename_i hlength
          rw [allM_eq_true]
          constructor
          · intro h
            -- a field is compared with the one of its key
            have hfields : ∀ f ∈ fields, ∃ x, others.lookup f.1 = some x ∧
                pyEq f.2 x = true ∧ Within n f.2 := by
              intro f hf
              have hf := h f hf
              cases hx : others.lookup f.1 with
              | none => simp [hx] at hf
              | some x =>
                rw [hx] at hf
                exact ⟨x, rfl, ih.mp hf⟩
            refine ⟨⟨others, rfl, hlength, fun f hf => ?_⟩, fun _ h => (by cases h), ?_⟩
            · obtain ⟨x, hx, heq, -⟩ := hfields f hf
              exact ⟨x, hx, heq⟩
            · intro _ hobj f hf
              cases hobj
              obtain ⟨x, -, -, hwithin⟩ := hfields f hf
              exact hwithin
          · intro h f hf
            obtain ⟨⟨_, hothers, -, hall⟩, -, hfields⟩ := h
            cases hothers
            obtain ⟨x, hx, heq⟩ := hall f hf
            rw [hx]
            exact ih.mpr ⟨heq, hfields fields rfl f hf⟩
        · rename_i hlength
          simp only [Option.some.injEq, Bool.false_eq_true, false_iff]
          intro h
          obtain ⟨⟨_, hothers, heq, -⟩, -⟩ := h
          cases hothers
          exact hlength heq
      | _ => simp [eqWithin, pyEq, dict?]
    | _ => simp [eqWithin, Within]

end PyJson
