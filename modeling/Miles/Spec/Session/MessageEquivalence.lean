import Miles.Spec.Session.ArgumentSpelling

/-!
# The comparisons of the message matchers

The type-sensitive comparison of raw values, and from it the comparisons of arguments, functions
and tool calls. Each of them is symmetric and transitive on values with distinct keys.

## Key results

- `rawValuesMatch_symm`, `rawValuesMatch_trans`, `rawValuesMatch_denote`: the raw comparison
- `comparison_argumentsMatch`, `comparison_toolCallMatches`: the comparisons built on it
-/

namespace Miles.MessageMatcher

/-! ## Type-sensitive comparison -/

theorem sameKeys_iff {fields others : List (String × PyJson)} :
    sameKeys fields others = true ↔
      ∀ key, (fields.lookup key).isSome = (others.lookup key).isSome := by
  rw [sameKeys, Bool.and_eq_true, List.all_eq_true, List.all_eq_true]
  constructor
  · intro h key
    rw [Bool.eq_iff_iff]
    constructor
    · intro hkey
      obtain ⟨f, hf, rfl⟩ := List.mem_map.mp (List.isSome_lookup.mp hkey)
      exact h.1 f hf
    · intro hkey
      obtain ⟨f, hf, rfl⟩ := List.mem_map.mp (List.isSome_lookup.mp hkey)
      exact h.2 f hf
  · intro h
    constructor
    · intro f hf
      rw [← h, List.isSome_lookup]
      exact List.mem_map.mpr ⟨f, hf, rfl⟩
    · intro f hf
      rw [h, List.isSome_lookup]
      exact List.mem_map.mpr ⟨f, hf, rfl⟩

/-- A comparison key by key of dictionaries with the same keys. -/
theorem fieldsRel_of_sameKeys {R : String → PyJson → PyJson → Prop}
    {fields others : List (String × PyJson)} (hnodup : (fields.map Prod.fst).Nodup) :
    (sameKeys fields others = true ∧
      ∀ f ∈ fields, ∃ w, others.lookup f.1 = some w ∧ R f.1 f.2 w) ↔
    PyJson.FieldsRel R fields others := by
  rw [sameKeys_iff]
  constructor
  · intro h key
    cases hv : fields.lookup key with
    | some v =>
      obtain ⟨w, hw, hr⟩ := h.2 (key, v) (List.mem_of_lookup hv)
      rw [show others.lookup key = some w from hw]
      exact .some hr
    | none =>
      have hnone : others.lookup key = none := by
        rw [← Option.not_isSome_iff_eq_none, ← h.1, hv]
        simp
      rw [hnone]
      exact .none
  · intro h
    refine ⟨h.lookup_isSome, fun f hf => ?_⟩
    have hkey := h f.1
    rw [(List.lookup_eq_some_iff_mem hnodup).mpr (show (f.1, f.2) ∈ fields from hf)] at hkey
    cases hw : others.lookup f.1 with
    | none =>
      rw [hw] at hkey
      cases hkey
    | some w =>
      rw [hw] at hkey
      cases hkey
      exact ⟨w, rfl, ‹_›⟩

section
attribute [local simp] rawValuesMatch

variable {n : Nat}

theorem rawValuesMatch_arr {items : List PyJson} {w : PyJson} :
    rawValuesMatch n (.arr items) w = true ↔ ∃ m others, n = m + 1 ∧ w = .arr others ∧
      List.Forall₂ (fun v w => rawValuesMatch m v w = true) items others := by
  cases n with
  | zero => simp
  | succ n =>
    cases w with
    | arr others =>
      rw [rawValuesMatch, Bool.and_eq_true, decide_eq_true_iff, List.all_eq_true]
      constructor
      · intro h
        exact ⟨n, others, rfl, rfl, List.forall₂_iff_zip.mpr ⟨h.1, fun hvw => h.2 _ hvw⟩⟩
      · intro h
        obtain ⟨_, _, hn, hothers, h⟩ := h
        cases hn
        cases hothers
        exact ⟨h.length_eq, fun x hx => (List.forall₂_iff_zip.mp h).2 hx⟩
    | _ => simp

theorem rawValuesMatch_obj {fields : List (String × PyJson)} {w : PyJson}
    (hnodup : (fields.map Prod.fst).Nodup) :
    rawValuesMatch n (.obj fields) w = true ↔ ∃ m others, n = m + 1 ∧ w = .obj others ∧
      PyJson.FieldsRel (fun _ v w => rawValuesMatch m v w = true) fields others := by
  cases n with
  | zero => simp
  | succ n =>
    cases w with
    | obj others =>
      have hfields : (rawValuesMatch (n + 1) (.obj fields) (.obj others) = true) ↔
          sameKeys fields others = true ∧ ∀ f ∈ fields, ∃ w, others.lookup f.1 = some w ∧
            rawValuesMatch n f.2 w = true := by
        rw [rawValuesMatch, Bool.and_eq_true, List.all_eq_true]
        refine and_congr_right fun _ => forall₂_congr fun f _ => ?_
        cases others.lookup f.1 <;> simp
      have hrel := @fieldsRel_of_sameKeys (fun _ v w => rawValuesMatch n v w = true) fields others
        hnodup
      rw [hfields, hrel]
      simp
    | _ => simp

theorem rawValuesMatch_null {w : PyJson} :
    rawValuesMatch n .null w = true ↔ w = .null := by
  cases n <;> cases w <;> simp [PyJson.typeName, PyJson.pyEq, PyJson.isNull]

theorem rawValuesMatch_bool {b : Bool} {w : PyJson} :
    rawValuesMatch n (.bool b) w = true ↔ w = .bool b := by
  cases w with
  | bool c =>
    have hbool : rawValuesMatch n (.bool b) (.bool c) = (PyJson.bool b).pyEq (.bool c) := by
      cases n <;> rfl
    rw [hbool]
    cases b <;> cases c <;> simp [PyJson.pyEq, PyJson.eqNumber, PyJson.number?, PyNum.eq]
  | _ => cases n <;> simp [PyJson.typeName]

theorem rawValuesMatch_int {m : Int} {w : PyJson} :
    rawValuesMatch n (.int m) w = true ↔ w = .int m := by
  cases w with
  | int k =>
    have hint : rawValuesMatch n (.int m) (.int k) = decide ((m : ℚ) = k) := by
      cases n <;> rfl
    rw [hint, decide_eq_true_iff, Int.cast_inj, PyJson.int.injEq]
    exact eq_comm
  | _ => cases n <;> simp [PyJson.typeName]

theorem rawValuesMatch_str {s : String} {w : PyJson} :
    rawValuesMatch n (.str s) w = true ↔ w = .str s := by
  cases n <;> cases w <;>
    simp [PyJson.typeName, PyJson.pyEq, PyJson.isText, eq_comm]

theorem rawValuesMatch_float {x : Float64} {w : PyJson} :
    rawValuesMatch n (.float x) w = true ↔
      ∃ y, w = .float y ∧ y.value = x.value ∧ x.value ≠ .nan := by
  cases w with
  | float y =>
    have hfloat : rawValuesMatch n (.float x) (.float y) = (PyJson.float x).pyEq (.float y) := by
      cases n <;> simp [PyJson.typeName]
    rw [hfloat, PyJson.pyEq_number (x := x.value) rfl]
    simp [PyJson.number?]
  | _ => cases n <;> simp [PyJson.typeName]

end

section
variable {n m : Nat} {u v w : PyJson}

/-- A higher limit accepts no less. -/
theorem rawValuesMatch_mono (hkeys : v.DistinctKeys) (hle : n ≤ m)
    (h : rawValuesMatch n v w = true) : rawValuesMatch m v w = true := by
  induction v using PyJson.valueInduction generalizing n m w with
  | null => exact rawValuesMatch_null.mpr (rawValuesMatch_null.mp h)
  | bool b => exact rawValuesMatch_bool.mpr (rawValuesMatch_bool.mp h)
  | int k => exact rawValuesMatch_int.mpr (rawValuesMatch_int.mp h)
  | float x => exact rawValuesMatch_float.mpr (rawValuesMatch_float.mp h)
  | str s => exact rawValuesMatch_str.mpr (rawValuesMatch_str.mp h)
  | arr items ih =>
    obtain ⟨n, others, rfl, rfl, hall⟩ := rawValuesMatch_arr.mp h
    obtain ⟨m, rfl⟩ : ∃ k, m = k + 1 := ⟨m - 1, by omega⟩
    refine rawValuesMatch_arr.mpr ⟨m, others, rfl, rfl, ?_⟩
    rw [List.forall₂_iff_zip] at hall ⊢
    refine ⟨hall.1, fun {v w} hvw => ?_⟩
    have hv := (List.of_mem_zip hvw).1
    exact ih v hv (hkeys.items hv) (by omega) (hall.2 hvw)
  | obj fields ih =>
    have hnodup := hkeys.here fields rfl
    obtain ⟨n, others, rfl, rfl, hall⟩ := (rawValuesMatch_obj hnodup).mp h
    obtain ⟨m, rfl⟩ : ∃ k, m = k + 1 := ⟨m - 1, by omega⟩
    refine (rawValuesMatch_obj hnodup).mpr ⟨m, others, rfl, rfl, hall.imp ?_⟩
    intro key v w hv _ hvw
    have hv := List.mem_of_lookup hv
    exact ih _ hv (hkeys.fields hv) (by omega) hvw

/-- Values that match raw are equal. -/
theorem rawValuesMatch_pyEq (hv : v.DistinctKeys) (hw : w.DistinctKeys)
    (h : rawValuesMatch n v w = true) : v.pyEq w = true := by
  induction v using PyJson.valueInduction generalizing n w with
  | null =>
    rw [rawValuesMatch_null.mp h]
    rfl
  | bool b =>
    rw [rawValuesMatch_bool.mp h]
    cases b <;> decide
  | int k =>
    rw [rawValuesMatch_int.mp h]
    exact (PyJson.pyEq_number rfl).mpr ⟨rfl, by simp⟩
  | float x =>
    obtain ⟨y, rfl, hvalue, hnan⟩ := rawValuesMatch_float.mp h
    exact (PyJson.pyEq_number rfl).mpr ⟨by rw [PyJson.number?, hvalue], hnan⟩
  | str s =>
    rw [rawValuesMatch_str.mp h]
    simp [PyJson.pyEq, PyJson.isText]
  | arr items ih =>
    obtain ⟨n, others, rfl, rfl, hall⟩ := rawValuesMatch_arr.mp h
    refine PyJson.pyEq_arr.mpr ⟨others, rfl, ?_⟩
    rw [List.forall₂_iff_zip] at hall ⊢
    refine ⟨hall.1, fun {v w} hvw => ?_⟩
    have hmem := List.of_mem_zip hvw
    exact ih v hmem.1 (hv.items hmem.1) (hw.items hmem.2) (hall.2 hvw)
  | obj fields ih =>
    have hnodup := hv.here fields rfl
    obtain ⟨n, others, rfl, rfl, hall⟩ := (rawValuesMatch_obj hnodup).mp h
    have hrel := (PyJson.fieldsRel_iff hnodup (hw.here others rfl)).mpr (hall.imp
      (S := fun _ v w => v.pyEq w = true) fun key v w hlookup hlookup' hvw => by
        have hmem := List.mem_of_lookup hlookup
        have hmem' := List.mem_of_lookup hlookup'
        exact ih _ hmem (hv.fields hmem) (hw.fields hmem') hvw)
    exact PyJson.pyEq_obj.mpr ⟨others, rfl, hrel⟩

/-- The raw comparison is symmetric. -/
theorem rawValuesMatch_symm (hv : v.DistinctKeys) (hw : w.DistinctKeys)
    (h : rawValuesMatch n v w = true) : rawValuesMatch n w v = true := by
  induction v using PyJson.valueInduction generalizing n w with
  | null =>
    rw [rawValuesMatch_null.mp h]
    exact rawValuesMatch_null.mpr rfl
  | bool b =>
    rw [rawValuesMatch_bool.mp h]
    exact rawValuesMatch_bool.mpr rfl
  | int k =>
    rw [rawValuesMatch_int.mp h]
    exact rawValuesMatch_int.mpr rfl
  | float x =>
    obtain ⟨y, rfl, hvalue, hnan⟩ := rawValuesMatch_float.mp h
    exact rawValuesMatch_float.mpr ⟨x, rfl, hvalue.symm, hvalue ▸ hnan⟩
  | str s =>
    rw [rawValuesMatch_str.mp h]
    exact rawValuesMatch_str.mpr rfl
  | arr items ih =>
    obtain ⟨n, others, rfl, rfl, hall⟩ := rawValuesMatch_arr.mp h
    refine rawValuesMatch_arr.mpr ⟨n, items, rfl, rfl, List.Forall₂.flip ?_⟩
    rw [List.forall₂_iff_zip] at hall ⊢
    refine ⟨hall.1, fun {v w} hvw => ?_⟩
    have hmem := List.of_mem_zip hvw
    exact ih v hmem.1 (hv.items hmem.1) (hw.items hmem.2) (hall.2 hvw)
  | obj fields ih =>
    obtain ⟨n, others, rfl, rfl, hall⟩ := (rawValuesMatch_obj (hv.here fields rfl)).mp h
    refine (rawValuesMatch_obj (hw.here others rfl)).mpr ⟨n, fields, rfl, rfl, ?_⟩
    refine hall.symm.imp fun key w v hlookup' hlookup hvw => ?_
    have hmem := List.mem_of_lookup hlookup
    have hmem' := List.mem_of_lookup hlookup'
    exact ih _ hmem (hv.fields hmem) (hw.fields hmem') hvw

/-- The raw comparison is transitive. -/
theorem rawValuesMatch_trans (hu : u.DistinctKeys) (hv : v.DistinctKeys)
    (h : rawValuesMatch n u v = true) (h' : rawValuesMatch n v w = true) :
    rawValuesMatch n u w = true := by
  induction u using PyJson.valueInduction generalizing n v w with
  | null =>
    rw [rawValuesMatch_null.mp h] at h'
    exact h'
  | bool b =>
    rw [rawValuesMatch_bool.mp h] at h'
    exact h'
  | int k =>
    rw [rawValuesMatch_int.mp h] at h'
    exact h'
  | float x =>
    obtain ⟨y, rfl, hvalue, hnan⟩ := rawValuesMatch_float.mp h
    obtain ⟨z, rfl, hvalue', -⟩ := rawValuesMatch_float.mp h'
    exact rawValuesMatch_float.mpr ⟨z, rfl, hvalue'.trans hvalue, hnan⟩
  | str s =>
    rw [rawValuesMatch_str.mp h] at h'
    exact h'
  | arr items ih =>
    obtain ⟨n, others, rfl, rfl, hall⟩ := rawValuesMatch_arr.mp h
    obtain ⟨n', thirds, hn, rfl, hall'⟩ := rawValuesMatch_arr.mp h'
    obtain rfl : n = n' := Nat.succ.inj hn
    refine rawValuesMatch_arr.mpr ⟨n, thirds, rfl, rfl, ?_⟩
    have hitems : ∀ v ∈ items, v.DistinctKeys := fun v hmem => hu.items hmem
    have hothers : ∀ v ∈ others, v.DistinctKeys := fun v hmem => hv.items hmem
    clear h h' hu hv hn
    induction hall generalizing thirds with
    | nil => exact hall'
    | cons hhead _ ihtail =>
      rw [List.forall_mem_cons] at ih hitems hothers
      cases hall' with
      | cons hhead' htail' =>
        exact .cons (ih.1 hitems.1 hothers.1 hhead hhead')
          (ihtail ih.2 _ htail' hitems.2 hothers.2)
  | obj fields ih =>
    obtain ⟨n, others, rfl, rfl, hall⟩ := (rawValuesMatch_obj (hu.here fields rfl)).mp h
    obtain ⟨n', thirds, hn, rfl, hall'⟩ := (rawValuesMatch_obj (hv.here others rfl)).mp h'
    obtain rfl : n = n' := Nat.succ.inj hn
    refine (rawValuesMatch_obj (hu.here fields rfl)).mpr ⟨n, thirds, rfl, rfl, ?_⟩
    refine hall.trans hall' fun key u v w hlookup hlookup' _ huv hvw => ?_
    have hmem := List.mem_of_lookup hlookup
    have hmem' := List.mem_of_lookup hlookup'
    exact ih _ hmem (hu.fields hmem) (hv.fields hmem') huv hvw

/-- Values of the same types denote the same JSON value. -/
theorem rawValuesMatch_denote (rt : Runtime) (hv : v.DistinctKeys) (hw : w.DistinctKeys)
    (h : rawValuesMatch n v w = true) :
    (PyValue.ofJson w).denote rt = (PyValue.ofJson v).denote rt ∧
      ∀ {allow : Bool} {m : Nat}, (PyValue.ofJson v).Regular allow m →
        (PyValue.ofJson w).Regular allow m := by
  -- scalars that match are one value, but for floats, which are compared by value
  induction v using PyJson.valueInduction generalizing n w with
  | null =>
    rw [rawValuesMatch_null.mp h]
    exact ⟨rfl, id⟩
  | bool b =>
    rw [rawValuesMatch_bool.mp h]
    exact ⟨rfl, id⟩
  | int k =>
    rw [rawValuesMatch_int.mp h]
    exact ⟨rfl, id⟩
  | float x =>
    obtain ⟨y, rfl, hvalue, -⟩ := rawValuesMatch_float.mp h
    constructor
    · simp only [PyValue.ofJson, PyValue.denote, hvalue]
    · intro allow m hregular
      have hx : ∃ q, x.value = .fin q := by cases m <;> exact hregular
      rw [← hvalue] at hx
      cases m <;> exact hx
  | str s =>
    rw [rawValuesMatch_str.mp h]
    exact ⟨rfl, id⟩
  | arr items ih =>
    obtain ⟨n, others, rfl, rfl, hall⟩ := rawValuesMatch_arr.mp h
    rw [List.forall₂_iff_zip] at hall
    -- the hypothesis, for the items in pairs
    have hpair : ∀ x ∈ items.zip others,
        (PyValue.ofJson x.2).denote rt = (PyValue.ofJson x.1).denote rt ∧
          ∀ {allow : Bool} {m : Nat}, (PyValue.ofJson x.1).Regular allow m →
            (PyValue.ofJson x.2).Regular allow m := by
      intro x hx
      have hmem := List.of_mem_zip (show (x.1, x.2) ∈ items.zip others from hx)
      exact ih x.1 hmem.1 (hv.items hmem.1) (hw.items hmem.2) (hall.2 hx)
    have hfst : (items.zip others).map Prod.fst = items := List.map_fst_zip hall.1.le
    have hsnd : (items.zip others).map Prod.snd = others := List.map_snd_zip hall.1.ge
    constructor
    · rw [PyValue.ofJson, PyValue.ofJson, PyValue.denote, PyValue.denote, PyValue.denoteItems_eq,
        PyValue.denoteItems_eq, PyValue.ofItems_eq, PyValue.ofItems_eq, Json.array.injEq]
      rw [List.map_map, List.map_map]
      calc others.map (PyValue.denote rt ∘ PyValue.ofJson)
          = ((items.zip others).map Prod.snd).map (PyValue.denote rt ∘ PyValue.ofJson) := by
            rw [hsnd]
        _ = ((items.zip others).map Prod.fst).map (PyValue.denote rt ∘ PyValue.ofJson) := by
            rw [List.map_map, List.map_map]
            exact List.map_congr_left fun x hx => (hpair x hx).1
        _ = items.map (PyValue.denote rt ∘ PyValue.ofJson) := by rw [hfst]
    · intro allow m hregular
      cases m with
      | zero => cases hregular
      | succ m =>
        rw [PyValue.ofJson, PyValue.ofItems_eq] at hregular ⊢
        have hregular : ∀ p ∈ items.map PyValue.ofJson, p.Regular allow m := hregular
        show ∀ p ∈ others.map PyValue.ofJson, p.Regular allow m
        intro p hp
        obtain ⟨w, hmem, rfl⟩ := List.mem_map.mp hp
        rw [← hsnd] at hmem
        obtain ⟨x, hx, rfl⟩ := List.mem_map.mp hmem
        have hfirst := (List.of_mem_zip (show (x.1, x.2) ∈ items.zip others from hx)).1
        exact (hpair x hx).2 (hregular _ (List.mem_map.mpr ⟨x.1, hfirst, rfl⟩))
  | obj fields ih =>
    obtain ⟨n, others, rfl, rfl, hall⟩ := (rawValuesMatch_obj (hv.here fields rfl)).mp h
    constructor
    · rw [PyValue.ofJson, PyValue.ofJson, PyValue.denote, PyValue.denote, Json.object.injEq]
      funext key
      rw [PyValue.denoteFields_eq, PyValue.denoteFields_eq]
      by_cases hkey : ∃ text, codePoints text = key
      · obtain ⟨text, rfl⟩ := hkey
        rw [PyValue.lookup_ofFields, PyValue.lookup_ofFields]
        -- a key is in both objects, with values that match, or in neither
        have hrel := hall text
        cases hlookup : fields.lookup text <;> cases hlookup' : others.lookup text <;>
          rw [hlookup, hlookup'] at hrel <;> cases hrel
        · have hmem := List.mem_of_lookup hlookup
          have hmem' := List.mem_of_lookup hlookup'
          have hdenote := (ih _ hmem (hv.fields hmem) (hw.fields hmem') ‹_›).1
          exact congrArg some hdenote
      · -- no field has a key that is no Python string
        rw [PyValue.lookup_ofFields_eq_none hkey, PyValue.lookup_ofFields_eq_none hkey]
    · intro allow m hregular
      cases m with
      | zero => cases hregular
      | succ m =>
        have hdistinct := PyValue.ofJson_distinctKeys hw
        rw [PyValue.ofJson] at hdistinct
        obtain ⟨-, hregular⟩ : _ ∧ ∀ f ∈ PyValue.ofFields fields, f.2.Regular allow m := hregular
        refine ⟨by cases hdistinct; assumption, ?_⟩
        intro f hf
        rw [PyValue.ofFields_eq] at hf hregular
        obtain ⟨g, hg, rfl⟩ := List.mem_map.mp hf
        -- a field of the second object has its match in the first
        have hrel := hall g.1
        rw [(List.lookup_eq_some_iff_mem (hw.here others rfl)).mpr
          (show (g.1, g.2) ∈ others from hg)] at hrel
        cases hlookup : fields.lookup g.1 with
        | none =>
          rw [hlookup] at hrel
          cases hrel
        | some v =>
          rw [hlookup] at hrel
          cases hrel
          have hmem := List.mem_of_lookup hlookup
          exact (ih _ hmem (hv.fields hmem) (hw.fields hg) ‹_›).2
            (hregular _ (List.mem_map.mpr ⟨_, hmem, rfl⟩))

end

/-! ## The comparisons as relations -/

/-- A comparison of values that is symmetric and transitive on values with distinct keys. -/
structure Comparison (R : PyJson → PyJson → Prop) : Prop where
  symm : ∀ {v w : PyJson}, v.DistinctKeys → w.DistinctKeys → R v w → R w v
  trans : ∀ {u v w : PyJson}, u.DistinctKeys → v.DistinctKeys → w.DistinctKeys → R u v → R v w →
    R u w

/-- Equal values are nested equally deep. -/
theorem within_of_pyEq {v w : PyJson} (hv : v.DistinctKeys) (hw : w.DistinctKeys)
    (h : v.pyEq w = true) (hn : v.Within n) : w.Within n := by
  induction n generalizing v w with
  | zero =>
    have hback := PyJson.pyEq_symm hv h
    cases w with
    | arr others =>
      obtain ⟨items, rfl, -⟩ := PyJson.pyEq_arr.mp hback
      cases hn.1
    | obj others =>
      obtain ⟨fields, rfl, -⟩ := PyJson.pyEq_obj.mp hback
      cases hn.2
    | _ => exact ⟨rfl, rfl⟩
  | succ n ih =>
    constructor
    · intro others hothers x hx
      subst hothers
      obtain ⟨items, rfl, hall⟩ := PyJson.pyEq_arr.mp (PyJson.pyEq_symm hv h)
      obtain ⟨i, hi, rfl⟩ := List.getElem_of_mem hx
      have hlength := hall.length_eq
      have hpair := hall.get hi (hlength ▸ hi)
      have hmem : items[i] ∈ items := List.getElem_mem _
      exact ih (hv.items hmem) (hw.items hx) (PyJson.pyEq_symm (hw.items hx) hpair)
        (hn.1 items rfl _ hmem)
    · intro others hothers f hf
      subst hothers
      obtain ⟨fields, rfl, _, hall⟩ := PyJson.pyEq_obj.mp (PyJson.pyEq_symm hv h)
      obtain ⟨x, hlookup, hpair⟩ := hall f hf
      have hmem := List.mem_of_lookup hlookup
      exact ih (hv.fields hmem) (hw.fields hf) (PyJson.pyEq_symm (hw.fields hf) hpair)
        (hn.2 fields rfl _ hmem)

theorem comparison_eqWithin (n : Nat) : Comparison fun v w => v.eqWithin n w = some true where
  symm {v w} hv hw h := by
    rw [PyJson.eqWithin_eq_true] at h ⊢
    exact ⟨PyJson.pyEq_symm hv h.1, within_of_pyEq hv hw h.1 h.2⟩
  trans {u v w} hu hv hw h h' := by
    rw [PyJson.eqWithin_eq_true] at h h' ⊢
    exact ⟨PyJson.pyEq_trans h.1 h'.1, h.2⟩

section
variable {rt : Runtime}

/-- Values of the same types are normalized to the same JSON value, if to any. -/
theorem normalizeJsonObject_raw {v w : PyJson} (hv : v.DistinctKeys)
    (hw : w.DistinctKeys) (h : rawValuesMatch n v w = true) :
    normalizeJsonObject rt v = normalizeJsonObject rt w := by
  cases v with
  | null => rw [rawValuesMatch_null.mp h]
  | bool b => rw [rawValuesMatch_bool.mp h]
  | int k => rw [rawValuesMatch_int.mp h]
  | str s => rw [rawValuesMatch_str.mp h]
  | float x =>
    obtain ⟨y, rfl, -⟩ := rawValuesMatch_float.mp h
    rfl
  | arr items =>
    obtain ⟨_, others, -, rfl, -⟩ := rawValuesMatch_arr.mp h
    rfl
  | obj fields =>
    have hdenote := rawValuesMatch_denote rt hv hw h
    have hback := rawValuesMatch_denote rt hw hv (rawValuesMatch_symm hv hw h)
    obtain ⟨_, others, -, rfl, -⟩ := (rawValuesMatch_obj (hv.here fields rfl)).mp h
    show tagJsonValue rt false rt.tagLimit _ = tagJsonValue rt false rt.tagLimit _
    cases ht : tagJsonValue rt false rt.tagLimit (.ofJson (.obj fields)) with
    | some t =>
      have hregular := regular_of_tagJsonValue (PyValue.ofJson_distinctKeys hv) ht
      obtain ⟨t', ht', hnormal, hjson⟩ := @tagJsonValue_of_regular rt _ _ _ hregular
      obtain ⟨u, hu, hnormal', hjson'⟩ := @tagJsonValue_of_regular rt _ _ _ (hdenote.2 hregular)
      rw [ht'] at ht
      cases ht
      rw [hu, hnormal.toJson_inj hnormal' (by rw [hjson, hjson', hdenote.1])]
    | none =>
      cases hu : tagJsonValue rt false rt.tagLimit (.ofJson (.obj others)) with
      | none => rfl
      | some u =>
        have hregular := regular_of_tagJsonValue (PyValue.ofJson_distinctKeys hw) hu
        obtain ⟨t', ht', -⟩ := @tagJsonValue_of_regular rt _ _ _ (hback.2 hregular)
        rw [ht'] at ht
        cases ht

/-- Arguments match when they are normalized to one form, or are the same with their types. -/
theorem argumentsMatch_iff {v w : PyJson} (hv : v.DistinctKeys) (hw : w.DistinctKeys) :
    argumentsMatch rt v w = true ↔
      (∃ t, normalizeJsonObject rt v = some t ∧ normalizeJsonObject rt w = some t) ∨
        rawValuesMatch rt.rawLimit v w = true := by
  have hraw := @normalizeJsonObject_raw rt rt.rawLimit v w hv hw
  unfold argumentsMatch
  cases ht : normalizeJsonObject rt v with
  | none => simp
  | some t =>
    cases hu : normalizeJsonObject rt w with
    | none => simp
    | some u =>
      show t.eq u = true ↔ _
      rw [Tagged.eq_iff (normalizeJsonObject_normal hv ht)]
      rw [ht, hu] at hraw
      constructor
      · intro h
        exact .inl ⟨t, rfl, by rw [h]⟩
      · intro h
        obtain ⟨s, hs, hs'⟩ | h := h
        · cases hs
          exact (Option.some.inj hs').symm
        · exact Option.some.inj (hraw h)

theorem comparison_argumentsMatch : Comparison fun v w => argumentsMatch rt v w = true where
  symm {v w} hv hw h := by
    rw [argumentsMatch_iff hv hw] at h
    rw [argumentsMatch_iff hw hv]
    obtain ⟨t, hvt, hwt⟩ | h := h
    · exact .inl ⟨t, hwt, hvt⟩
    · exact .inr (rawValuesMatch_symm hv hw h)
  trans {u v w} hu hv hw h h' := by
    rw [argumentsMatch_iff hu hv] at h
    rw [argumentsMatch_iff hv hw] at h'
    rw [argumentsMatch_iff hu hw]
    obtain ⟨t, hut, hvt⟩ | h := h
    · left
      obtain ⟨s, hvs, hws⟩ | h' := h'
      · rw [hvt] at hvs
        cases hvs
        exact ⟨t, hut, hws⟩
      · exact ⟨t, hut, by rw [← normalizeJsonObject_raw hv hw h', hvt]⟩
    · obtain ⟨s, hvs, hws⟩ | h' := h'
      · exact .inl ⟨s, by rw [normalizeJsonObject_raw hu hv h, hvs], hws⟩
      · exact .inr (rawValuesMatch_trans hu hv h h')

/-! ### Dictionaries of a call -/

/-- Fields match when they have the same keys and each pair of values matches. -/
theorem fieldsMatch_iff {compare : String → PyJson → PyJson → Option Bool}
    {fields others : List (String × PyJson)} (hnodup : (fields.map Prod.fst).Nodup) :
    fieldsMatch compare fields others = some true ↔
      PyJson.FieldsRel (fun key v w => compare key v w = some true) fields others := by
  rw [← fieldsRel_of_sameKeys hnodup, fieldsMatch]
  cases sameKeys fields others with
  | false => simp
  | true =>
    rw [if_pos rfl, PyJson.allM_eq_true]
    simp only [true_and]
    refine forall₂_congr fun f _ => ?_
    cases others.lookup f.1 <;> simp

/-- A comparison of what a view shows of two values, and of everything else with its types. -/
def compareView {α : Type} (rt : Runtime) (view : PyJson → Option α) (compare : α → α → Option Bool)
    (v w : PyJson) : Option Bool :=
  match view v, view w with
  | some a, some b => compare a b
  | _, _ => some (rawValuesMatch rt.rawLimit v w)

theorem functionsMatch_eq (v w : PyJson) :
    functionsMatch rt v w =
      compareView rt PyJson.dict? (fieldsMatch (compareFunctionField rt)) v w := by
  cases v <;> cases w <;> rfl

theorem toolCallMatches_eq (v w : PyJson) :
    toolCallMatches rt v w = compareView rt PyJson.dict? (fun fields others =>
      fieldsMatch (compareCallField rt) (projectCall fields) (projectCall others)) v w := by
  cases v <;> cases w <;> rfl

/-- A dictionary or a list is never the same as another kind of value. -/
theorem rawValuesMatch_kind {v w : PyJson} (hv : v.DistinctKeys)
    (h : rawValuesMatch n v w = true) :
    v.dict?.isSome = w.dict?.isSome ∧ v.list?.isSome = w.list?.isSome := by
  cases v with
  | null => simp [rawValuesMatch_null.mp h]
  | bool b => simp [rawValuesMatch_bool.mp h]
  | int k => simp [rawValuesMatch_int.mp h]
  | str s => simp [rawValuesMatch_str.mp h]
  | float x =>
    obtain ⟨y, rfl, -⟩ := rawValuesMatch_float.mp h
    exact ⟨rfl, rfl⟩
  | arr items =>
    obtain ⟨_, others, -, rfl, -⟩ := rawValuesMatch_arr.mp h
    exact ⟨rfl, rfl⟩
  | obj fields =>
    obtain ⟨_, others, -, rfl, -⟩ := (rawValuesMatch_obj (hv.here fields rfl)).mp h
    exact ⟨rfl, rfl⟩

/-- Comparing what a view shows of two values, where it shows something. -/
theorem comparison_compareView {α : Type} {view : PyJson → Option α}
    {compare : α → α → Option Bool}
    (hkind : ∀ {v w}, v.DistinctKeys → rawValuesMatch rt.rawLimit v w = true →
      (view v).isSome = (view w).isSome)
    (hsymm : ∀ {v w a b}, v.DistinctKeys → w.DistinctKeys → view v = some a → view w = some b →
      compare a b = some true → compare b a = some true)
    (htrans : ∀ {u v w a b c}, u.DistinctKeys → v.DistinctKeys → w.DistinctKeys →
      view u = some a → view v = some b → view w = some c →
      compare a b = some true → compare b c = some true → compare a c = some true) :
    Comparison fun v w => compareView rt view compare v w = some true := by
  constructor
  · intro v w hv hw h
    unfold compareView at h ⊢
    cases ha : view v with
    | none =>
      rw [ha] at h
      have hraw := rawValuesMatch_symm hv hw (Option.some.inj h)
      cases view w <;> exact congrArg some hraw
    | some a =>
      cases hb : view w with
      | none =>
        rw [ha, hb] at h
        exact congrArg some (rawValuesMatch_symm hv hw (Option.some.inj h))
      | some b =>
        rw [ha, hb] at h
        exact hsymm hv hw ha hb h
  · intro u v w hu hv hw h h'
    unfold compareView at h h' ⊢
    cases ha : view u with
    | none =>
      rw [ha] at h
      have hraw := Option.some.inj h
      have hnone : view v = none := by
        rw [← Option.not_isSome_iff_eq_none, ← hkind hu hraw, ha]
        simp
      rw [hnone] at h'
      exact congrArg some (rawValuesMatch_trans hu hv hraw (Option.some.inj h'))
    | some a =>
      cases hb : view v with
      | none =>
        -- what the view shows matches such values only
        rw [ha, hb] at h
        have hsame := hkind hu (Option.some.inj h)
        rw [ha, hb] at hsame
        cases hsame
      | some b =>
        cases hc : view w with
        | none =>
          rw [hb, hc] at h'
          have hsame := hkind hv (Option.some.inj h')
          rw [hb, hc] at hsame
          cases hsame
        | some c =>
          rw [ha, hb] at h
          rw [hb, hc] at h'
          exact htrans hu hv hw ha hb hc h h'

theorem dict?_eq_some {v : PyJson} {fields : List (String × PyJson)} :
    v.dict? = some fields ↔ v = .obj fields := by
  cases v <;> simp [PyJson.dict?]

/-- A comparison of dictionaries key by key, on the pairs that a projection keeps. -/
theorem comparison_fieldsMatch {project : List (String × PyJson) → List (String × PyJson)}
    {compare : String → PyJson → PyJson → Option Bool}
    (hproject : ∀ fields, (project fields).Sublist fields)
    (hcompare : ∀ key, Comparison fun v w => compare key v w = some true) :
    Comparison fun v w => compareView rt PyJson.dict? (fun fields others =>
      fieldsMatch compare (project fields) (project others)) v w = some true := by
  have hnodup : ∀ {fields : List (String × PyJson)}, (PyJson.obj fields).DistinctKeys →
      ((project fields).map Prod.fst).Nodup := fun {fields} h =>
    (h.here fields rfl).sublist ((hproject fields).map Prod.fst)
  have hvalues : ∀ {fields : List (String × PyJson)} {key : String} {x : PyJson},
      (PyJson.obj fields).DistinctKeys → (project fields).lookup key = some x →
      x.DistinctKeys := fun {fields key x} h hlookup =>
    h.fields ((hproject fields).subset (List.mem_of_lookup hlookup))
  apply comparison_compareView
  · intro v w hv h
    exact (rawValuesMatch_kind hv h).1
  · intro v w fields others hv hw hfields hothers h
    obtain rfl := dict?_eq_some.mp hfields
    obtain rfl := dict?_eq_some.mp hothers
    rw [fieldsMatch_iff (hnodup hw)]
    refine ((fieldsMatch_iff (hnodup hv)).mp h).symm.imp fun key w v hlookup' hlookup hvw => ?_
    exact (hcompare key).symm (hvalues hv hlookup) (hvalues hw hlookup') hvw
  · intro u v w fields others thirds hu hv hw hfields hothers hthirds h h'
    obtain rfl := dict?_eq_some.mp hfields
    obtain rfl := dict?_eq_some.mp hothers
    obtain rfl := dict?_eq_some.mp hthirds
    rw [fieldsMatch_iff (hnodup hu)]
    refine ((fieldsMatch_iff (hnodup hu)).mp h).trans ((fieldsMatch_iff (hnodup hv)).mp h')
      fun key x y z hlookup hlookup' hlookup'' hxy hyz => ?_
    exact (hcompare key).trans (hvalues hu hlookup) (hvalues hv hlookup')
      (hvalues hw hlookup'') hxy hyz

/-- The comparison of functions is symmetric and transitive. -/
theorem comparison_functionsMatch : Comparison fun v w => functionsMatch rt v w = some true := by
  simp only [functionsMatch_eq]
  refine comparison_fieldsMatch (fun fields => List.Sublist.refl fields) fun key => ?_
  by_cases hkey : key = "arguments"
  · simpa [compareFunctionField, hkey] using comparison_argumentsMatch
  · simpa [compareFunctionField, hkey] using comparison_eqWithin rt.compareLimit

/-- The comparison of calls is symmetric and transitive. -/
theorem comparison_toolCallMatches : Comparison fun v w => toolCallMatches rt v w = some true := by
  simp only [toolCallMatches_eq]
  refine comparison_fieldsMatch (fun fields => List.filter_sublist) fun key => ?_
  by_cases hkey : key = "function"
  · simpa [compareCallField, hkey] using comparison_functionsMatch
  · simpa [compareCallField, hkey] using comparison_eqWithin rt.compareLimit

end

end Miles.MessageMatcher
