import Miles.Native.Session.MessageMatcher

/-!
# Spellings of tool-call arguments

The normalized form of tool-call arguments against the JSON object that they denote: whatever text
or dictionary spells an object, its tagged and key-sorted form says which object it is.
-/

namespace Miles.MessageMatcher

/-! ## JSON values -/

/-- A JSON value: a boolean is not a number, a number is its value, an object is a map. -/
inductive Json where
  | null
  | bool (b : Bool)
  | number (q : ℚ)
  | str (s : List Nat)
  | array (items : List Json)
  | object (fields : List Nat → Option Json)

namespace PyValue

mutual

/-- The JSON value that a parsed value denotes; a float is the number that its text spells. -/
def denote (rt : Runtime) : PyValue → Json
  | .null => .null
  | .bool b => .bool b
  | .int n => .number n
  | .float x =>
    match x.value with
    | .fin q => .number (rt.reprValue q)
    | _ => .null
  | .decimal q => .number q
  | .str s => .str s
  | .arr items => .array (denoteItems rt items)
  | .obj fields => .object (denoteFields rt fields)

def denoteItems (rt : Runtime) : List PyValue → List Json
  | [] => []
  | v :: items => denote rt v :: denoteItems rt items

def denoteFields (rt : Runtime) : List (List Nat × PyValue) → List Nat → Option Json
  | [], _ => none
  | (key, v) :: fields, key' => if key' = key then some (denote rt v) else denoteFields rt fields key'

end

theorem denoteItems_eq (rt : Runtime) (items : List PyValue) :
    denoteItems rt items = items.map (denote rt) := by
  induction items with
  | nil => rfl
  | cons v items ih => rw [denoteItems, ih, List.map_cons]

theorem denoteFields_eq (rt : Runtime) (fields : List (List Nat × PyValue)) (key : List Nat) :
    denoteFields rt fields key = (fields.lookup key).map (denote rt) := by
  induction fields with
  | nil => rfl
  | cons f fields ih =>
    obtain ⟨key', v⟩ := f
    rw [denoteFields, ih, List.lookup_cons]
    by_cases hkey : key = key'
    · rw [if_pos hkey, beq_iff_eq.mpr hkey]
      rfl
    · rw [if_neg hkey, beq_eq_false_iff_ne.mpr hkey]

/-- A JSON value that the tagging handles: nested at most this deep, with finite numbers and
    distinct keys. -/
def Regular (allowDecimal : Bool) : Nat → PyValue → Prop
  | _, .float x => ∃ q, x.value = .fin q
  | _, .decimal _ => allowDecimal = true
  | 0, .arr _ => False
  | 0, .obj _ => False
  | n + 1, .arr items => ∀ v ∈ items, Regular allowDecimal n v
  | n + 1, .obj fields =>
    (fields.map Prod.fst).Nodup ∧ ∀ f ∈ fields, Regular allowDecimal n f.2
  | _, _ => True

end PyValue

namespace Tagged

mutual

/-- The JSON value of a tagged form. -/
def toJson : Tagged → Json
  | .null => .null
  | .boolean b => .bool b
  | .string s => .str s
  | .number q => .number q
  | .array items => .array (toJsonItems items)
  | .object fields => .object (toJsonFields fields)

def toJsonItems : List Tagged → List Json
  | [] => []
  | t :: items => toJson t :: toJsonItems items

def toJsonFields : List (List Nat × Tagged) → List Nat → Option Json
  | [], _ => none
  | (key, t) :: fields, key' => if key' = key then some (toJson t) else toJsonFields fields key'

end

theorem toJsonItems_eq (items : List Tagged) : toJsonItems items = items.map toJson := by
  induction items with
  | nil => rfl
  | cons t items ih => rw [toJsonItems, ih, List.map_cons]

theorem toJsonFields_eq (fields : List (List Nat × Tagged)) (key : List Nat) :
    toJsonFields fields key = (fields.lookup key).map toJson := by
  induction fields with
  | nil => rfl
  | cons f fields ih =>
    obtain ⟨key', t⟩ := f
    rw [toJsonFields, ih, List.lookup_cons]
    by_cases hkey : key = key'
    · rw [if_pos hkey, beq_iff_eq.mpr hkey]
      rfl
    · rw [if_neg hkey, beq_eq_false_iff_ne.mpr hkey]

/-- Every object is sorted by its keys, which are distinct. -/
inductive Normal : Tagged → Prop
  | null : Normal .null
  | boolean (b : Bool) : Normal (.boolean b)
  | string (s : List Nat) : Normal (.string s)
  | number (q : ℚ) : Normal (.number q)
  | array (items : List Tagged) (h : ∀ t ∈ items, Normal t) : Normal (.array items)
  | object (fields : List (List Nat × Tagged))
      (hsorted : (fields.map Prod.fst).Pairwise (· < ·)) (h : ∀ f ∈ fields, Normal f.2) :
      Normal (.object fields)

/-- A sorted form is determined by its JSON value. -/
theorem Normal.toJson_inj {t u : Tagged} (ht : t.Normal) (hu : u.Normal)
    (h : t.toJson = u.toJson) : t = u := by
  induction ht generalizing u with
  | null => cases hu <;> simp [toJson] at h ⊢
  | boolean b => cases hu <;> simp [toJson] at h ⊢; exact h
  | string s => cases hu <;> simp [toJson] at h ⊢; exact h
  | number q => cases hu <;> simp [toJson] at h ⊢; exact h
  | array items hitems ih =>
    cases hu with
    | array others hothers =>
      simp only [toJson, Json.array.injEq, toJsonItems_eq] at h
      have heq : items = others := by
        clear hitems
        induction items generalizing others with
        | nil => cases others <;> simp at h ⊢
        | cons t items ihitems =>
          cases others with
          | nil => simp at h
          | cons u others =>
            rw [List.map_cons, List.map_cons, List.cons.injEq] at h
            rw [List.forall_mem_cons] at ih hothers
            rw [ih.1 hothers.1 h.1, ihitems ih.2 others hothers.2 h.2]
      rw [heq]
    | _ => simp [toJson] at h
  | object fields hsorted hfields ih =>
    cases hu with
    | object others hsorted' hothers =>
      simp only [toJson, Json.object.injEq] at h
      have hnodup : (fields.map Prod.fst).Nodup := hsorted.imp fun h => ne_of_lt h
      have hnodup' : (others.map Prod.fst).Nodup := hsorted'.imp fun h => ne_of_lt h
      have hlookup : ∀ key, (fields.lookup key).map toJson = (others.lookup key).map toJson := by
        intro key
        rw [← toJsonFields_eq, ← toJsonFields_eq, h]
      -- the same pairs, in the same order
      have hmem : ∀ f, f ∈ fields ↔ f ∈ others := by
        intro f
        rw [show f = (f.1, f.2) from rfl, ← List.lookup_eq_some_iff_mem hnodup,
          ← List.lookup_eq_some_iff_mem hnodup']
        have hkey := hlookup f.1
        cases ht : fields.lookup f.1 <;> cases hu : others.lookup f.1 <;> rw [ht, hu] at hkey
        · cases hkey
        · cases hkey
        · rename_i t u
          have htu : t = u := ih (f.1, t) (List.mem_of_lookup ht)
            (hothers (f.1, u) (List.mem_of_lookup hu)) (Option.some.inj hkey)
          rw [htu]
      have hperm : fields.Perm others := by
        rw [List.perm_ext_iff_of_nodup hnodup.of_map hnodup'.of_map]
        exact hmem
      have heq : fields = others :=
        List.Perm.eq_of_pairwise (fun x y _ _ hxy hyx => absurd hyx (lt_asymm hxy))
          (List.pairwise_map.mp hsorted) (List.pairwise_map.mp hsorted') hperm
      rw [heq]
    | _ => simp [toJson] at h

/-- `==` of tagged forms is equality. -/
theorem eq_iff {t u : Tagged} (ht : t.Normal) : t.eq u = true ↔ t = u := by
  induction ht generalizing u with
  | null => cases u <;> simp [Tagged.eq]
  | boolean b => cases u <;> simp [Tagged.eq]
  | string s => cases u <;> simp [Tagged.eq]
  | number q => cases u <;> simp [Tagged.eq]
  | array items hitems ih =>
    cases u with
    | array others =>
      rw [Tagged.eq, array.injEq]
      clear hitems
      induction items generalizing others with
      | nil => cases others <;> simp [Tagged.eqItems]
      | cons t items ihitems =>
        rw [List.forall_mem_cons] at ih
        cases others <;> simp [Tagged.eqItems, ih.1, ihitems ih.2]
    | _ => simp [Tagged.eq]
  | object fields hsorted hfields ih =>
    cases u with
    | object others =>
      rw [Tagged.eq, object.injEq]
      clear hsorted hfields
      induction fields generalizing others with
      | nil => cases others <;> simp [Tagged.eqFields]
      | cons f fields ihfields =>
        rw [List.forall_mem_cons] at ih
        cases others with
        | nil => simp [Tagged.eqFields]
        | cons g others => simp [Tagged.eqFields, ih.1, ihfields ih.2, Prod.ext_iff]
    | _ => simp [Tagged.eq]

end Tagged

/-! ## The tagged form of a value -/

/-- Sorted pairs with distinct keys are in normal form. -/
theorem sortPairs_normal {pairs : List (List Nat × Tagged)} (hnodup : (pairs.map Prod.fst).Nodup)
    (h : ∀ f ∈ pairs, f.2.Normal) : (Tagged.object (sortPairs pairs)).Normal := by
  have hperm : (sortPairs pairs).Perm pairs := List.perm_insertionSort ..
  have : Std.Total (α := List Nat × Tagged) fun x y => x.1 ≤ y.1 := ⟨fun x y => le_total x.1 y.1⟩
  have : IsTrans (List Nat × Tagged) fun x y => x.1 ≤ y.1 := ⟨fun x y z => le_trans⟩
  have hsorted : ((sortPairs pairs).map Prod.fst).Pairwise (· ≤ ·) :=
    List.pairwise_map.mpr (List.pairwise_insertionSort ..)
  have hnodup' : ((sortPairs pairs).map Prod.fst).Nodup := (hperm.map Prod.fst).nodup_iff.mpr hnodup
  refine .object _ ?_ fun f hf => h f (hperm.mem_iff.mp hf)
  exact (hsorted.and hnodup').imp fun h => lt_of_le_of_ne h.1 h.2

/-- Sorting keeps what is under each key. -/
theorem sortPairs_toJson {pairs : List (List Nat × Tagged)} (hnodup : (pairs.map Prod.fst).Nodup)
    (key : List Nat) :
    Tagged.toJsonFields (sortPairs pairs) key = (pairs.lookup key).map Tagged.toJson := by
  have hperm : (sortPairs pairs).Perm pairs := List.perm_insertionSort ..
  rw [Tagged.toJsonFields_eq, ← hperm.symm.lookup_eq hnodup]

section
variable {rt : Runtime} {allow : Bool}

/-- The tagged pairs of an object, one for each pair of the value. -/
theorem mapM_tag {n : Nat} {fields : List (List Nat × PyValue)} {pairs : List (List Nat × Tagged)} :
    (fields.mapM fun f => (tagJsonValue rt allow n f.2).map fun t => (f.1, t)) = some pairs ↔
      List.Forall₂ (fun f x => f.1 = x.1 ∧ tagJsonValue rt allow n f.2 = some x.2) fields pairs := by
  rw [List.mapM_eq_some]
  have hiff : ∀ (f : List Nat × PyValue) (x : List Nat × Tagged),
      ((tagJsonValue rt allow n f.2).map fun t => (f.1, t)) = some x ↔
        f.1 = x.1 ∧ tagJsonValue rt allow n f.2 = some x.2 := by
    intro f x
    rw [Option.map_eq_some_iff]
    constructor
    · intro h
      obtain ⟨t, ht, rfl⟩ := h
      exact ⟨rfl, ht⟩
    · intro h
      exact ⟨x.2, h.2, Prod.ext h.1 rfl⟩
  simp only [hiff]

theorem lookup_tagged {n : Nat} {fields : List (List Nat × PyValue)}
    {pairs : List (List Nat × Tagged)} {key : List Nat}
    (h : List.Forall₂ (fun f x => f.1 = x.1 ∧ tagJsonValue rt allow n f.2 = some x.2) fields pairs) :
    pairs.lookup key = (fields.lookup key).bind (tagJsonValue rt allow n) := by
  induction h with
  | nil => rfl
  | @cons f x fields pairs hfx _ ih =>
    rw [List.lookup_cons, List.lookup_cons, ih, hfx.1]
    cases key == x.1 with
    | true => exact hfx.2.symm
    | false => rfl

/-- What is tagged is a JSON value, whose tagged form has its value. -/
theorem tagJsonValue_of_regular {n : Nat} {p : PyValue} (h : p.Regular allow n) :
    ∃ t, tagJsonValue rt allow n p = some t ∧ t.Normal ∧ t.toJson = p.denote rt := by
  -- the depth bounds the nesting, so the induction is on it
  induction n using Nat.strong_induction_on generalizing p with
  | _ n ih =>
  cases p with
  | null => exact ⟨.null, by cases n <;> rfl, .null, rfl⟩
  | bool b => exact ⟨.boolean b, by cases n <;> rfl, .boolean b, rfl⟩
  | int m => exact ⟨.number m, by cases n <;> rfl, .number m, rfl⟩
  | float x =>
    obtain ⟨q, hq⟩ : ∃ q, x.value = .fin q := by cases n <;> exact h
    refine ⟨.number (rt.reprValue q), ?_, .number _, ?_⟩
    · cases n <;> rw [tagJsonValue, hq]
    · rw [PyValue.denote, hq, Tagged.toJson]
  | decimal q =>
    have hallow : allow = true := by cases n <;> exact h
    exact ⟨.number q, by cases n <;> simp [tagJsonValue, hallow], .number q, rfl⟩
  | str s => exact ⟨.string s, by cases n <;> rfl, .string s, rfl⟩
  | arr items =>
    cases n with
    | zero => cases h
    | succ n =>
      have hitems : ∀ v ∈ items, v.Regular allow n := h
      have hall : ∃ ts, items.mapM (tagJsonValue rt allow n) = some ts ∧
          (∀ t ∈ ts, t.Normal) ∧ ts.map Tagged.toJson = items.map (PyValue.denote rt) := by
        clear h
        induction items with
        | nil => exact ⟨[], rfl, by simp, rfl⟩
        | cons v items ihitems =>
          rw [List.forall_mem_cons] at hitems
          obtain ⟨t, ht, hnormal, hjson⟩ := ih n n.lt_succ_self hitems.1
          obtain ⟨ts, hts, hnormals, hjsons⟩ := ihitems hitems.2
          refine ⟨t :: ts, ?_, List.forall_mem_cons.mpr ⟨hnormal, hnormals⟩, ?_⟩
          · rw [List.mapM_cons, ht, hts]
            rfl
          · rw [List.map_cons, List.map_cons, hjson, hjsons]
      obtain ⟨ts, hts, hnormal, hjson⟩ := hall
      refine ⟨.array ts, by rw [tagJsonValue, hts]; rfl, .array ts hnormal, ?_⟩
      rw [Tagged.toJson, Tagged.toJsonItems_eq, hjson, PyValue.denote, PyValue.denoteItems_eq]
  | obj fields =>
    cases n with
    | zero => cases h
    | succ n =>
      obtain ⟨hnodup, hfields⟩ : (fields.map Prod.fst).Nodup ∧ ∀ f ∈ fields, f.2.Regular allow n := h
      have hall : ∃ pairs : List (List Nat × Tagged),
          List.Forall₂ (fun f x => f.1 = x.1 ∧ tagJsonValue rt allow n f.2 = some x.2) fields pairs ∧
          (∀ x ∈ pairs, x.2.Normal) ∧ pairs.map Prod.fst = fields.map Prod.fst := by
        clear hnodup
        induction fields with
        | nil => exact ⟨[], .nil, by simp, rfl⟩
        | cons f fields ihfields =>
          rw [List.forall_mem_cons] at hfields
          obtain ⟨t, ht, hnormal, -⟩ := ih n n.lt_succ_self hfields.1
          obtain ⟨pairs, hpairs, hnormals, hkeys⟩ := ihfields hfields.2
          exact ⟨(f.1, t) :: pairs, .cons ⟨rfl, ht⟩ hpairs,
            List.forall_mem_cons.mpr ⟨hnormal, hnormals⟩, by rw [List.map_cons, hkeys, List.map_cons]⟩
      obtain ⟨pairs, hpairs, hnormal, hkeys⟩ := hall
      -- the keys are distinct, so sorting the tagged pairs loses none
      rw [← hkeys] at hnodup
      refine ⟨.object (sortPairs pairs), ?_, sortPairs_normal hnodup hnormal, ?_⟩
      · rw [tagJsonValue, mapM_tag.mpr hpairs]
        rfl
      · rw [Tagged.toJson, PyValue.denote, Json.object.injEq]
        funext key
        rw [sortPairs_toJson hnodup, PyValue.denoteFields_eq, lookup_tagged hpairs]
        cases hlookup : fields.lookup key with
        | none => rfl
        | some v =>
          obtain ⟨t, ht, -, hjson⟩ := ih n n.lt_succ_self (hfields (key, v) (List.mem_of_lookup hlookup))
          show (tagJsonValue rt allow n v).map Tagged.toJson = some (v.denote rt)
          rw [ht, ← hjson]
          rfl

end

/-! ### Distinct keys -/

/-- Every object has distinct keys. -/
inductive PyValue.DistinctKeys : PyValue → Prop
  | null : DistinctKeys .null
  | bool (b : Bool) : DistinctKeys (.bool b)
  | int (n : Int) : DistinctKeys (.int n)
  | float (x : Float64) : DistinctKeys (.float x)
  | decimal (q : ℚ) : DistinctKeys (.decimal q)
  | str (s : List Nat) : DistinctKeys (.str s)
  | arr (items : List PyValue) (h : ∀ v ∈ items, DistinctKeys v) : DistinctKeys (.arr items)
  | obj (fields : List (List Nat × PyValue)) (hnodup : (fields.map Prod.fst).Nodup)
      (h : ∀ f ∈ fields, DistinctKeys f.2) : DistinctKeys (.obj fields)

/-- Only JSON values are tagged. -/
theorem regular_of_tagJsonValue {rt : Runtime} {allow : Bool} {n : Nat} {p : PyValue} {t : Tagged}
    (hkeys : p.DistinctKeys) (h : tagJsonValue rt allow n p = some t) : p.Regular allow n := by
  induction hkeys generalizing n t with
  | null => cases n <;> trivial
  | bool b => cases n <;> trivial
  | int m => cases n <;> trivial
  | str s => cases n <;> trivial
  | float x =>
    have hx : ∃ q, x.value = .fin q := by
      cases hvalue : x.value with
      | fin q => exact ⟨q, rfl⟩
      | _ => cases n <;> simp [tagJsonValue, hvalue] at h
    cases n <;> exact hx
  | decimal q =>
    have hallow : allow = true := by
      cases allow with
      | true => rfl
      | false => cases n <;> simp [tagJsonValue] at h
    cases n <;> exact hallow
  | arr items _ ih =>
    cases n with
    | zero => cases h
    | succ n =>
      rw [tagJsonValue, Option.map_eq_some_iff] at h
      obtain ⟨ts, hts, -⟩ := h
      rw [List.mapM_eq_some] at hts
      show ∀ v ∈ items, v.Regular allow n
      intro v hv
      obtain ⟨i, hi, rfl⟩ := List.getElem_of_mem hv
      have hlength := hts.length_eq
      exact ih _ hv (hts.get hi (hlength ▸ hi))
  | obj fields hnodup _ ih =>
    cases n with
    | zero => cases h
    | succ n =>
      rw [tagJsonValue, Option.map_eq_some_iff] at h
      obtain ⟨pairs, hpairs, -⟩ := h
      rw [mapM_tag] at hpairs
      refine ⟨hnodup, fun f hf => ?_⟩
      obtain ⟨i, hi, rfl⟩ := List.getElem_of_mem hf
      have hlength := hpairs.length_eq
      exact ih _ hf (hpairs.get hi (hlength ▸ hi)).2

namespace PyValue

theorem ofItems_eq (items : List PyJson) : ofItems items = items.map ofJson := by
  induction items with
  | nil => rfl
  | cons v items ih => rw [ofItems, ih, List.map_cons]

theorem ofFields_eq (fields : List (String × PyJson)) :
    ofFields fields = fields.map fun f => (codePoints f.1, ofJson f.2) := by
  induction fields with
  | nil => rfl
  | cons f fields ih =>
    obtain ⟨key, v⟩ := f
    rw [ofFields, ih, List.map_cons]

/-- A text is known by its code points. -/
theorem codePoints_injective : Function.Injective codePoints := by
  intro s t h
  have hlist : s.toList = t.toList :=
    List.map_injective_iff.mpr (fun a b hab => Char.toNat_inj.mp hab) h
  exact String.toList_injective hlist

theorem lookup_ofFields (fields : List (String × PyJson)) (key : String) :
    (ofFields fields).lookup (codePoints key) = (fields.lookup key).map ofJson := by
  induction fields with
  | nil => rfl
  | cons f fields ih =>
    obtain ⟨key', v⟩ := f
    rw [ofFields, List.lookup_cons, List.lookup_cons, ih]
    by_cases hkey : key = key'
    · rw [hkey, beq_self_eq_true, beq_self_eq_true]
      rfl
    · rw [beq_eq_false_iff_ne.mpr hkey,
        beq_eq_false_iff_ne.mpr fun h => hkey (codePoints_injective h)]

theorem lookup_ofFields_eq_none {fields : List (String × PyJson)} {key : List Nat}
    (hkey : ¬ ∃ text, codePoints text = key) : (ofFields fields).lookup key = none := by
  rw [List.lookup_eq_none_iff, ofFields_eq]
  intro f hf
  obtain ⟨g, -, rfl⟩ := List.mem_map.mp hf
  have hne : key ≠ codePoints g.1 := fun h => hkey ⟨g.1, h.symm⟩
  simp [hne]

/-- Distinct keys stay distinct as code points. -/
theorem ofJson_distinctKeys {v : PyJson} (h : v.DistinctKeys) : (ofJson v).DistinctKeys := by
  induction v using PyJson.valueInduction with
  | null => exact .null
  | bool b => exact .bool b
  | int n => exact .int n
  | float x => exact .float x
  | str s => exact .str _
  | arr items ih =>
    rw [ofJson, ofItems_eq]
    refine .arr _ fun v hv => ?_
    obtain ⟨w, hw, rfl⟩ := List.mem_map.mp hv
    exact ih w hw (h.items hw)
  | obj fields ih =>
    rw [ofJson, ofFields_eq]
    refine .obj _ ?_ fun f hf => ?_
    · have hnodup := (h.here fields rfl).map codePoints_injective
      rw [List.map_map] at hnodup ⊢
      exact hnodup
    · obtain ⟨g, hg, rfl⟩ := List.mem_map.mp hf
      exact ih g hg (h.fields hg)

mutual

/-- The hook for objects rejects duplicate keys. -/
theorem construct_distinctKeys {t : JsonText} {p : PyValue} (h : construct t = some p) :
    p.DistinctKeys := by
  cases t with
  | null =>
    cases h
    exact .null
  | bool b =>
    cases h
    exact .bool b
  | number raw =>
    obtain ⟨q, _, rfl⟩ := Option.map_eq_some_iff.mp h
    exact .decimal q
  | constant name => cases h
  | str s =>
    cases h
    exact .str s
  | arr items =>
    obtain ⟨vs, hvs, rfl⟩ := Option.map_eq_some_iff.mp h
    exact .arr vs (constructItems_distinctKeys hvs)
  | obj members =>
    rw [construct] at h
    cases hfields : constructMembers members with
    | none =>
      rw [hfields] at h
      cases h
    | some fields =>
      simp only [hfields] at h
      split at h
      · rename_i hnodup
        cases h
        exact .obj fields hnodup (constructMembers_distinctKeys hfields)
      · cases h

theorem constructItems_distinctKeys {items : List JsonText} {vs : List PyValue}
    (h : constructItems items = some vs) : ∀ v ∈ vs, v.DistinctKeys := by
  cases items with
  | nil =>
    cases h
    simp
  | cons t items =>
    rw [constructItems] at h
    cases hv : construct t <;> cases hvs' : constructItems items <;> rw [hv, hvs'] at h <;> cases h
    exact List.forall_mem_cons.mpr ⟨construct_distinctKeys hv, constructItems_distinctKeys hvs'⟩

theorem constructMembers_distinctKeys {members : List (List Nat × JsonText)}
    {fields : List (List Nat × PyValue)} (h : constructMembers members = some fields) :
    ∀ f ∈ fields, f.2.DistinctKeys := by
  cases members with
  | nil =>
    cases h
    simp
  | cons member members =>
    obtain ⟨key, t⟩ := member
    rw [constructMembers] at h
    cases hv : construct t <;> cases hfields : constructMembers members <;>
      rw [hv, hfields] at h <;> cases h
    exact List.forall_mem_cons.mpr
      ⟨construct_distinctKeys hv, constructMembers_distinctKeys hfields⟩

end

end PyValue

/-! ## Tool-call arguments -/

section
variable {rt : Runtime}

/-- The argument value spells this JSON object: as the text of one, or as a dictionary, nested no
    deeper than the interpreter goes. -/
inductive Spells (rt : Runtime) : PyJson → Json → Prop
  | text (s : String) (fields : List (List Nat × PyValue)) (hne : s ≠ "")
      (hloads : PyValue.loads rt s = some (.obj fields))
      (hregular : (PyValue.obj fields).Regular true rt.tagLimit) :
      Spells rt (.str s) ((PyValue.obj fields).denote rt)
  | dict (fields : List (String × PyJson))
      (hregular : (PyValue.ofJson (.obj fields)).Regular false rt.tagLimit) :
      Spells rt (.obj fields) ((PyValue.ofJson (.obj fields)).denote rt)

/-- A spelling is normalized to the sorted form of its object. -/
theorem Spells.normalize {v : PyJson} {j : Json} (h : Spells rt v j) :
    ∃ t, normalizeJsonObject rt v = some t ∧ t.Normal ∧ t.toJson = j := by
  cases h with
  | text s fields hne hloads hregular =>
    obtain ⟨t, ht, hnormal, hjson⟩ := tagJsonValue_of_regular hregular
    refine ⟨t, ?_, hnormal, hjson⟩
    rw [normalizeJsonObject, if_neg hne, hloads]
    exact ht
  | dict fields hregular =>
    obtain ⟨t, ht, hnormal, hjson⟩ := tagJsonValue_of_regular hregular
    exact ⟨t, ht, hnormal, hjson⟩

/-- Two spellings match exactly when they denote the same JSON object. -/
theorem argumentsMatch_iff_denote {v w : PyJson} {j k : Json} (hv : Spells rt v j)
    (hw : Spells rt w k) : argumentsMatch rt v w = true ↔ j = k := by
  obtain ⟨t, ht, hnormal, rfl⟩ := hv.normalize
  obtain ⟨u, hu, hnormal', rfl⟩ := hw.normalize
  rw [argumentsMatch, ht, hu]
  show t.eq u = true ↔ _
  rw [Tagged.eq_iff hnormal]
  constructor
  · intro h
    rw [h]
  · exact hnormal.toJson_inj hnormal'

/-- What is normalized is a sorted form of the value. -/
theorem normalizeJsonObject_normal {v : PyJson} {t : Tagged} (hkeys : v.DistinctKeys)
    (h : normalizeJsonObject rt v = some t) : t.Normal := by
  have hempty : (Tagged.object []).Normal := .object [] .nil (by simp)
  have htag : ∀ {allow : Bool} {p : PyValue}, p.DistinctKeys →
      tagJsonValue rt allow rt.tagLimit p = some t → t.Normal := by
    intro allow p hp ht
    obtain ⟨u, hu, hnormal, _⟩ :=
      @tagJsonValue_of_regular rt _ _ _ (regular_of_tagJsonValue hp ht)
    rw [hu] at ht
    cases ht
    exact hnormal
  cases v with
  | null =>
    cases h
    exact hempty
  | str s =>
    rw [normalizeJsonObject] at h
    split at h
    · cases h
      exact hempty
    · split at h
      · rename_i parsed hloads
        split at h
        · obtain ⟨syn, _, hconstruct⟩ := Option.bind_eq_some_iff.mp hloads
          exact htag (PyValue.construct_distinctKeys hconstruct) h
        · cases h
      · cases h
  | obj fields => exact htag (PyValue.ofJson_distinctKeys hkeys) h
  | _ => cases h

end

end Miles.MessageMatcher
