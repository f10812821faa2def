import Miles.Spec.Session.MessageEquivalence

/-!
# The loose tool-call matcher

The loose matcher accepts what the strict one accepts and what its own type-sensitive comparison
accepts. Each of the two is symmetric and transitive. Their union is symmetric, and transitive on
messages whose tool calls Python finds equal only where the types are equal too.
-/

namespace Miles.MessageMatcher

/-! ## What a message holds -/

section
variable {v : PyJson} {p : PyJson → Prop}

theorem throughout_get {m : Message} (hnull : p .null)
    (hfields : ∀ f ∈ m.fields.items, f.2.Throughout p) (key : String) :
    (m.get key).Throughout p := by
  unfold Message.get PyDict.getD
  cases hv : m.fields.get? key with
  | none => exact .leaf rfl rfl hnull
  | some v => exact hfields (key, v) (PyDict.get?_eq_some.mp hv)

/-- Normalizing keeps a property that null has. -/
theorem throughout_normalizeValue (hnull : p .null) (h : v.Throughout p) :
    (normalizeValue v).Throughout p := by
  have hnone : PyJson.null.Throughout p := .leaf rfl rfl hnull
  unfold normalizeValue
  split
  · split
    · exact hnone
    · exact h
  · split
    · exact hnone
    · exact h
  · exact h

theorem throughout_projectElement
    (hobj : ∀ fields, p (.obj fields) → p (.obj (projectCall fields))) (h : v.Throughout p) :
    (projectElement v).Throughout p := by
  unfold projectElement
  split
  · exact .obj (hobj _ h.here) fun f hf => h.fields (List.mem_of_mem_filter hf)
  · exact h

/-- Projecting the calls keeps a property that projected objects have. -/
theorem throughout_normalizeToolCalls (harr : ∀ items others, p (.arr items) → p (.arr others))
    (hobj : ∀ fields, p (.obj fields) → p (.obj (projectCall fields))) (h : v.Throughout p) :
    (normalizeToolCalls v).Throughout p := by
  unfold normalizeToolCalls
  split
  · refine .arr (harr _ _ h.here) fun w hw => ?_
    obtain ⟨x, hx, rfl⟩ := List.mem_map.mp hw
    exact throughout_projectElement hobj (h.items hx)
  · exact h

end

theorem distinctKeys_normalizeValue (m : Message) (key : String) :
    (normalizeValue (m.get key)).DistinctKeys :=
  throughout_normalizeValue (fun _ h => (by cases h))
    (throughout_get (fun _ h => (by cases h)) m.distinctKeys key)

theorem distinctKeys_strictValue (m : Message) (key : String) :
    (strictValue m key).DistinctKeys := by
  unfold strictValue
  have hvalue := distinctKeys_normalizeValue m key
  split
  · refine throughout_normalizeToolCalls (fun _ _ _ _ h => (by cases h)) ?_ hvalue
    intro fields h others hothers
    cases hothers
    exact (h fields rfl).sublist (List.filter_sublist.map Prod.fst)
  · exact hvalue

theorem nanFree_strictValue (m : Message) (key : String) : (strictValue m key).NanFree := by
  have hnull : PyJson.null.number? ≠ some .nan := by simp [PyJson.number?]
  have hvalue : (normalizeValue (m.get key)).NanFree :=
    throughout_normalizeValue hnull (throughout_get hnull m.nanFree key)
  unfold strictValue
  split
  · exact throughout_normalizeToolCalls (fun _ _ _ => by simp [PyJson.number?])
      (fun _ _ => by simp [PyJson.number?]) hvalue
  · exact hvalue

/-! ## The strict comparison -/

section
variable {rt : Runtime} {m m' m'' : Message}

/-- Two messages match strictly when all fields that a template reads do. -/
theorem strictMessageMatches_iff : strictMessageMatches rt m m' = some true ↔
    ∀ key ∈ templateRelevantKeys,
      (strictValue m key).eqWithin rt.compareLimit (strictValue m' key) = some true := by
  rw [strictMessageMatches, PyJson.allM_eq_true]

/-- A message within the limit matches itself. -/
theorem strictMessageMatches_refl
    (h : ∀ key ∈ templateRelevantKeys, (strictValue m key).Within rt.compareLimit) :
    strictMessageMatches rt m m = some true := by
  rw [strictMessageMatches_iff]
  intro key hkey
  rw [PyJson.eqWithin_eq_true]
  exact ⟨PyJson.pyEq_refl (distinctKeys_strictValue m key) (nanFree_strictValue m key), h key hkey⟩

theorem strictMessageMatches_symm (h : strictMessageMatches rt m m' = some true) :
    strictMessageMatches rt m' m = some true := by
  rw [strictMessageMatches_iff] at h ⊢
  intro key hkey
  exact (comparison_eqWithin rt.compareLimit).symm (distinctKeys_strictValue m key)
    (distinctKeys_strictValue m' key) (h key hkey)

/-! ## The type-sensitive comparison -/

/-- The calls of two messages, in order. -/
def compareCalls (rt : Runtime) (calls others : List PyJson) : Option Bool :=
  if calls.length = others.length then (calls.zip others).allM fun x => toolCallMatches rt x.1 x.2
  else some false

theorem toolCallsMatch_eq (v w : PyJson) :
    toolCallsMatch rt v w = compareView rt PyJson.list? (compareCalls rt) v w := by
  cases v <;> cases w <;> rfl

/-- Lists of calls match call by call. -/
theorem compareCalls_iff {calls others : List PyJson} : compareCalls rt calls others = some true ↔
    List.Forall₂ (fun v w => toolCallMatches rt v w = some true) calls others := by
  rw [compareCalls, List.forall₂_iff_zip]
  split
  · rename_i hlength
    rw [PyJson.allM_eq_true]
    constructor
    · intro h
      exact ⟨hlength, fun hvw => h _ hvw⟩
    · intro h x hx
      exact h.2 hx
  · rename_i hlength
    simp [hlength]

theorem list?_eq_some {v : PyJson} {items : List PyJson} : v.list? = some items ↔ v = .arr items := by
  cases v <;> simp [PyJson.list?]

/-- The comparison of lists of calls is symmetric and transitive. -/
theorem comparison_toolCallsMatch : Comparison fun v w => toolCallsMatch rt v w = some true := by
  simp only [toolCallsMatch_eq]
  apply comparison_compareView
  · intro v w hv h
    exact (rawValuesMatch_kind hv h).2
  · intro v w calls others hv hw hcalls hothers h
    obtain rfl := list?_eq_some.mp hcalls
    obtain rfl := list?_eq_some.mp hothers
    rw [compareCalls_iff] at h ⊢
    have hflip : List.Forall₂ (fun w v => toolCallMatches rt v w = some true) others calls := h.flip
    rw [List.forall₂_iff_zip] at hflip ⊢
    refine ⟨hflip.1, fun {w v} hwv => ?_⟩
    have hmem := List.of_mem_zip hwv
    exact comparison_toolCallMatches.symm (hv.items hmem.2) (hw.items hmem.1) (hflip.2 hwv)
  · intro u v w calls others thirds hu hv hw hcalls hothers hthirds h h'
    obtain rfl := list?_eq_some.mp hcalls
    obtain rfl := list?_eq_some.mp hothers
    obtain rfl := list?_eq_some.mp hthirds
    rw [compareCalls_iff] at h h' ⊢
    rw [List.forall₂_iff_get] at h h' ⊢
    refine ⟨h.1.trans h'.1, fun i hi hi' => ?_⟩
    have hmid : i < others.length := h.1 ▸ hi
    exact comparison_toolCallMatches.trans (hu.items (List.get_mem ..)) (hv.items (List.get_mem ..))
      (hw.items (List.get_mem ..)) (h.2 i hi hmid) (h'.2 i hmid hi')

/-- What two equivalent messages have in common. -/
theorem equivalentMessages_iff : equivalentMessages rt m m' = some true ↔
    (∀ key ∈ ["role", "content", "reasoning_content"], (normalizeValue (m.get key)).eqWithin
      rt.compareLimit (normalizeValue (m'.get key)) = some true) ∧
    toolCallsMatch rt (normalizeValue (m.get "tool_calls"))
      (normalizeValue (m'.get "tool_calls")) = some true := by
  rw [← PyJson.allM_eq_true]
  unfold equivalentMessages
  cases List.allM (fun key => (normalizeValue (m.get key)).eqWithin rt.compareLimit
    (normalizeValue (m'.get key))) ["role", "content", "reasoning_content"] with
  | none => simp
  | some sameText => cases sameText <;> simp

theorem equivalentMessages_symm (h : equivalentMessages rt m m' = some true) :
    equivalentMessages rt m' m = some true := by
  rw [equivalentMessages_iff] at h ⊢
  constructor
  · intro key hkey
    exact (comparison_eqWithin rt.compareLimit).symm (distinctKeys_normalizeValue m key)
      (distinctKeys_normalizeValue m' key) (h.1 key hkey)
  · exact comparison_toolCallsMatch.symm (distinctKeys_normalizeValue m _)
      (distinctKeys_normalizeValue m' _) h.2

theorem equivalentMessages_trans (h : equivalentMessages rt m m' = some true)
    (h' : equivalentMessages rt m' m'' = some true) : equivalentMessages rt m m'' = some true := by
  rw [equivalentMessages_iff] at h h' ⊢
  constructor
  · intro key hkey
    exact (comparison_eqWithin rt.compareLimit).trans (distinctKeys_normalizeValue m key)
      (distinctKeys_normalizeValue m' key) (distinctKeys_normalizeValue m'' key) (h.1 key hkey)
      (h'.1 key hkey)
  · exact comparison_toolCallsMatch.trans (distinctKeys_normalizeValue m _)
      (distinctKeys_normalizeValue m' _) (distinctKeys_normalizeValue m'' _) h.2 h'.2

/-! ## Where the two agree -/

/-- Python finds the tool calls of these messages equal only where their types are equal too. -/
def TypeFaithful (rt : Runtime) (messages : Set Message) : Prop :=
  ∀ m ∈ messages, ∀ m' ∈ messages,
    (strictValue m "tool_calls").pyEq (strictValue m' "tool_calls") = true →
      rawValuesMatch rt.rawLimit (strictValue m "tool_calls") (strictValue m' "tool_calls") = true

theorem within_mono {n k : Nat} {v : PyJson} (hle : n ≤ k) (h : v.Within n) : v.Within k := by
  induction n generalizing k v with
  | zero =>
    cases k with
    | zero => exact h
    | succ k =>
      constructor
      · intro items hitems
        subst hitems
        cases h.1
      · intro fields hfields
        subst hfields
        cases h.2
  | succ n ih =>
    obtain ⟨k, rfl⟩ : ∃ j, k = j + 1 := ⟨k - 1, by omega⟩
    constructor
    · intro items hitems w hw
      exact ih (by omega) (h.1 items hitems w hw)
    · intro fields hfields f hf
      exact ih (by omega) (h.2 fields hfields f hf)

/-- Dictionaries of the same types pass any comparison that such values pass. -/
theorem fieldsMatch_of_raw {n : Nat} {compare : String → PyJson → PyJson → Option Bool}
    {fields others : List (String × PyJson)} (hfields : (PyJson.obj fields).DistinctKeys)
    (hothers : (PyJson.obj others).DistinctKeys)
    (hwithin : (PyJson.obj fields).Within rt.compareLimit) (hn : n ≤ rt.rawLimit)
    (h : rawValuesMatch n (.obj fields) (.obj others) = true)
    (hcompare : ∀ {key n v w}, v.DistinctKeys → w.DistinctKeys → v.Within rt.compareLimit →
      n ≤ rt.rawLimit → rawValuesMatch n v w = true → compare key v w = some true) :
    fieldsMatch compare fields others = some true := by
  obtain ⟨k, _, rfl, hobj, hrel⟩ := (rawValuesMatch_obj (hfields.here fields rfl)).mp h
  cases hobj
  rw [fieldsMatch_iff (hfields.here fields rfl)]
  refine hrel.imp fun key v w hlookup hlookup' hvw => ?_
  have hmem := List.mem_of_lookup hlookup
  have hmem' := List.mem_of_lookup hlookup'
  have hinside : v.Within rt.compareLimit := by
    cases hlimit : rt.compareLimit with
    | zero =>
      rw [hlimit] at hwithin
      cases hwithin.2
    | succ limit =>
      rw [hlimit] at hwithin
      exact within_mono (by omega) (hwithin.2 fields rfl _ hmem)
  exact hcompare (hfields.fields hmem) (hothers.fields hmem') hinside (by omega) hvw

/-- Values that match raw are equal, within the limit. -/
theorem eqWithin_of_raw {n : Nat} {v w : PyJson} (hv : v.DistinctKeys) (hw : w.DistinctKeys)
    (hwithin : v.Within rt.compareLimit) (h : rawValuesMatch n v w = true) :
    v.eqWithin rt.compareLimit w = some true := by
  rw [PyJson.eqWithin_eq_true]
  exact ⟨rawValuesMatch_pyEq hv hw h, hwithin⟩

theorem functionsMatch_of_raw {n : Nat} {v w : PyJson} (hv : v.DistinctKeys) (hw : w.DistinctKeys)
    (hwithin : v.Within rt.compareLimit) (hn : n ≤ rt.rawLimit)
    (h : rawValuesMatch n v w = true) : functionsMatch rt v w = some true := by
  have hkind := (rawValuesMatch_kind hv h).1
  rw [functionsMatch_eq, compareView]
  cases hfields : v.dict? with
  | none => exact congrArg some (rawValuesMatch_mono hv hn h)
  | some fields =>
    rw [hfields] at hkind
    obtain ⟨others, hothers⟩ := Option.isSome_iff_exists.mp hkind.symm
    rw [hothers]
    obtain rfl := dict?_eq_some.mp hfields
    obtain rfl := dict?_eq_some.mp hothers
    refine fieldsMatch_of_raw hv hw hwithin hn h fun {key n v w} hv hw hwithin hn h => ?_
    unfold compareFunctionField
    split
    · rw [(argumentsMatch_iff hv hw).mpr (.inr (rawValuesMatch_mono hv hn h))]
    · exact eqWithin_of_raw hv hw hwithin h

theorem dict?_projectElement (v : PyJson) :
    (projectElement v).dict? = v.dict?.map projectCall := by
  cases v <;> rfl

theorem toolCallMatches_of_raw {n : Nat} {v w : PyJson} (hv : (projectElement v).DistinctKeys)
    (hw : (projectElement w).DistinctKeys) (hwithin : (projectElement v).Within rt.compareLimit)
    (hn : n ≤ rt.rawLimit) (h : rawValuesMatch n (projectElement v) (projectElement w) = true) :
    toolCallMatches rt v w = some true := by
  have hkind := (rawValuesMatch_kind hv h).1
  rw [dict?_projectElement, dict?_projectElement, Option.isSome_map, Option.isSome_map] at hkind
  rw [toolCallMatches_eq, compareView]
  cases hfields : v.dict? with
  | none =>
    have hothers : w.dict? = none := by
      rw [← Option.not_isSome_iff_eq_none, ← hkind, hfields]
      simp
    have hsame : ∀ {x : PyJson}, x.dict? = none → projectElement x = x := by
      intro x hx
      cases x with
      | obj fields => cases hx
      | _ => rfl
    rw [hsame hfields, hsame hothers] at h
    rw [hsame hfields] at hv
    exact congrArg some (rawValuesMatch_mono hv hn h)
  | some fields =>
    rw [hfields] at hkind
    obtain ⟨others, hothers⟩ := Option.isSome_iff_exists.mp hkind.symm
    rw [hothers]
    obtain rfl := dict?_eq_some.mp hfields
    obtain rfl := dict?_eq_some.mp hothers
    refine fieldsMatch_of_raw hv hw hwithin hn h fun {key n v w} hv hw hwithin hn h => ?_
    unfold compareCallField
    split
    · exact functionsMatch_of_raw hv hw hwithin hn h
    · exact eqWithin_of_raw hv hw hwithin h

/-- Calls that match raw match. -/
theorem toolCallsMatch_of_raw {n : Nat} {v w : PyJson} (hv : (normalizeToolCalls v).DistinctKeys)
    (hw : (normalizeToolCalls w).DistinctKeys)
    (hwithin : (normalizeToolCalls v).Within rt.compareLimit) (hn : n ≤ rt.rawLimit)
    (h : rawValuesMatch n (normalizeToolCalls v) (normalizeToolCalls w) = true) :
    toolCallsMatch rt v w = some true := by
  have hlist : ∀ x : PyJson, (normalizeToolCalls x).list? = x.list?.map (List.map projectElement) := by
    intro x
    cases x <;> rfl
  have hkind := (rawValuesMatch_kind hv h).2
  rw [hlist, hlist, Option.isSome_map, Option.isSome_map] at hkind
  rw [toolCallsMatch_eq, compareView]
  cases hcalls : v.list? with
  | none =>
    have hothers : w.list? = none := by
      rw [← Option.not_isSome_iff_eq_none, ← hkind, hcalls]
      simp
    have hsame : ∀ {x : PyJson}, x.list? = none → normalizeToolCalls x = x := by
      intro x hx
      cases x with
      | arr items => cases hx
      | _ => rfl
    rw [hsame hcalls, hsame hothers] at h
    rw [hsame hcalls] at hv
    exact congrArg some (rawValuesMatch_mono hv hn h)
  | some calls =>
    rw [hcalls] at hkind
    obtain ⟨others, hothers⟩ := Option.isSome_iff_exists.mp hkind.symm
    rw [hothers]
    obtain rfl := list?_eq_some.mp hcalls
    obtain rfl := list?_eq_some.mp hothers
    obtain ⟨k, _, rfl, hitems, hall⟩ := rawValuesMatch_arr.mp h
    cases hitems
    show compareCalls rt calls others = some true
    rw [compareCalls_iff]
    rw [List.forall₂_map_left_iff, List.forall₂_map_right_iff, List.forall₂_iff_zip] at hall
    rw [List.forall₂_iff_zip]
    refine ⟨hall.1, fun {x y} hxy => ?_⟩
    have hmem := List.of_mem_zip hxy
    have hx : projectElement x ∈ calls.map projectElement := List.mem_map.mpr ⟨x, hmem.1, rfl⟩
    have hy : projectElement y ∈ others.map projectElement := List.mem_map.mpr ⟨y, hmem.2, rfl⟩
    have hinside : (projectElement x).Within rt.compareLimit := by
      cases hlimit : rt.compareLimit with
      | zero =>
        rw [hlimit] at hwithin
        cases hwithin.1
      | succ limit =>
        rw [hlimit] at hwithin
        exact within_mono (by omega) (hwithin.1 _ rfl _ hx)
    exact toolCallMatches_of_raw (hv.items hx) (hw.items hy) hinside (by omega) (hall.2 hxy)

/-- On such messages the strict comparison accepts nothing that the type-sensitive one rejects. -/
theorem equivalent_of_strict {messages : Set Message} (hfaithful : TypeFaithful rt messages)
    (hm : m ∈ messages) (hm' : m' ∈ messages) (h : strictMessageMatches rt m m' = some true) :
    equivalentMessages rt m m' = some true := by
  rw [strictMessageMatches_iff] at h
  rw [equivalentMessages_iff]
  constructor
  · intro key hkey
    have hrelevant : key ∈ templateRelevantKeys ∧ key ≠ "tool_calls" := by
      fin_cases hkey <;> decide
    have hvalue : ∀ x : Message, strictValue x key = normalizeValue (x.get key) := by
      intro x
      rw [strictValue, if_neg hrelevant.2]
    rw [← hvalue, ← hvalue]
    exact h key hrelevant.1
  · have hcalls := h "tool_calls" (by decide)
    rw [PyJson.eqWithin_eq_true] at hcalls
    exact toolCallsMatch_of_raw (distinctKeys_strictValue m "tool_calls")
      (distinctKeys_strictValue m' "tool_calls") hcalls.2 (Nat.le_refl _) (hfaithful m hm m' hm' hcalls.1)

/-! ## The loose comparison -/

/-- The loose comparison is the strict one or equivalence. -/
theorem looseToolCallMessageMatches_iff : looseToolCallMessageMatches rt m m' = some true ↔
    strictMessageMatches rt m m' = some true ∨ equivalentMessages rt m m' = some true := by
  unfold looseToolCallMessageMatches
  cases strictMessageMatches rt m m' with
  | none => simp
  | some same => cases same <;> simp

theorem loose_symm (h : looseToolCallMessageMatches rt m m' = some true) :
    looseToolCallMessageMatches rt m' m = some true := by
  rw [looseToolCallMessageMatches_iff] at h ⊢
  exact h.imp strictMessageMatches_symm equivalentMessages_symm

theorem loose_trans {messages : Set Message} (hfaithful : TypeFaithful rt messages)
    (hm : m ∈ messages) (hm' : m' ∈ messages) (hm'' : m'' ∈ messages)
    (h : looseToolCallMessageMatches rt m m' = some true)
    (h' : looseToolCallMessageMatches rt m' m'' = some true) :
    looseToolCallMessageMatches rt m m'' = some true := by
  rw [looseToolCallMessageMatches_iff] at h h' ⊢
  right
  have hfirst := h.elim (equivalent_of_strict hfaithful hm hm') id
  have hsecond := h'.elim (equivalent_of_strict hfaithful hm' hm'') id
  exact equivalentMessages_trans hfirst hsecond

end

/-! ## Messages with one call -/

/-- The fields of a message that calls one function with these arguments. -/
def callFields (arguments : PyJson) : List (String × PyJson) :=
  [("role", .str "assistant"), ("tool_calls",
    .arr [.obj [("function", .obj [("name", .str "look_up"), ("arguments", arguments)])]])]

theorem throughout_callFields {p : PyJson → Prop} {arguments : PyJson} (hstr : ∀ s, p (.str s))
    (harr : ∀ items, p (.arr items))
    (hobj : ∀ fields, (fields.map Prod.fst).Nodup → p (.obj fields))
    (h : arguments.Throughout p) : ∀ f ∈ (PyDict.ofList (callFields arguments)).items,
      f.2.Throughout p := by
  have htext : ∀ s, (PyJson.str s).Throughout p := fun s => .leaf rfl rfl (hstr s)
  have hfunction : (PyJson.obj [("name", .str "look_up"), ("arguments", arguments)]).Throughout p :=
    .obj (hobj _ (by simp)) (by simp [htext, h])
  have hcall := PyJson.Throughout.obj (hobj _ (by simp))
    (List.forall_mem_singleton.mpr (show (("function", _) : String × PyJson).2.Throughout p from
      hfunction))
  rw [PyDict.items_ofList (by show ["role", "tool_calls"].Nodup; decide)]
  intro f hf
  obtain rfl | rfl : f = _ ∨ f = _ := by simpa [callFields] using hf
  · exact htext _
  · exact .arr (harr _) (List.forall_mem_singleton.mpr hcall)

/-- A message that calls one function with these arguments. -/
def callMessage (arguments : PyJson) (hkeys : arguments.DistinctKeys) (hnan : arguments.NanFree) :
    Message where
  fields := .ofList (callFields arguments)
  distinctKeys := throughout_callFields (fun _ _ h => (by cases h)) (fun _ _ h => (by cases h))
    (fun _ h _ hfields => PyJson.obj.inj hfields ▸ h) hkeys
  nanFree := throughout_callFields (by simp [PyJson.number?]) (by simp [PyJson.number?])
    (by simp [PyJson.number?]) hnan

/-- An interpreter whose walks go a hundred levels deep. -/
def shallowRuntime : Runtime where
  compareLimit := 100
  scanLimit := 100
  tagLimit := 100
  rawLimit := 100
  reprValue := id

theorem throughout_argument {p : PyJson → Prop} {v : PyJson} (hlist : v.list? = none)
    (hdict : v.dict? = none) (hobj : p (.obj [("a", v)])) (h : p v) :
    (PyJson.obj [("a", v)]).Throughout p :=
  .obj hobj (List.forall_mem_singleton.mpr (.leaf hlist hdict h))

theorem distinctKeys_argument {v : PyJson} (hlist : v.list? = none) (hdict : v.dict? = none) :
    (PyJson.obj [("a", v)]).DistinctKeys := by
  refine throughout_argument hlist hdict ?_ ?_
  · intro fields h
    cases h
    simp
  · intro fields h
    subst h
    cases hdict

theorem nanFree_argument {v : PyJson} (hlist : v.list? = none) (hdict : v.dict? = none)
    (h : v.number? ≠ some .nan) : (PyJson.obj [("a", v)]).NanFree :=
  throughout_argument hlist hdict (by simp [PyJson.number?]) h

/-- A call with one argument as a dictionary. -/
def dictCall (v : PyJson) (hlist : v.list? = none) (hdict : v.dict? = none)
    (h : v.number? ≠ some .nan) : Message :=
  callMessage (.obj [("a", v)]) (distinctKeys_argument hlist hdict) (nanFree_argument hlist hdict h)

/-- A call with its arguments as a text. -/
def textCall (s : String) : Message :=
  callMessage (.str s) (.leaf rfl rfl fun _ h => (by cases h))
    (.leaf rfl rfl (by simp [PyJson.number?]))

theorem typeFaithful_pair : TypeFaithful shallowRuntime
    {dictCall (.int 1) rfl rfl (by decide), textCall "\x7b\"a\": 1\x7d"} := by
  intro m hm m' hm'
  obtain rfl | rfl := hm <;> obtain rfl | rfl := hm' <;> decide +kernel

/-! ## What the matcher decides -/

/-- What the loose matcher decides: arguments by the objects that they spell, and messages as an
    extension of the strict matcher that is reflexive, symmetric, and transitive where Python's
    equality of tool calls keeps their types apart. There a stored message can be any of the
    messages that it matches. -/
theorem loose_matching (rt : Runtime) :
    (∀ v w j k, Spells rt v j → Spells rt w k → (argumentsMatch rt v w = true ↔ j = k)) ∧
    (∀ m m', strictMessageMatches rt m m' = some true →
      looseToolCallMessageMatches rt m m' = some true) ∧
    (∀ m, (∀ key ∈ templateRelevantKeys, (strictValue m key).Within rt.compareLimit) →
      looseToolCallMessageMatches rt m m = some true) ∧
    (∀ m m', looseToolCallMessageMatches rt m m' = some true →
      looseToolCallMessageMatches rt m' m = some true) ∧
    ∀ messages, TypeFaithful rt messages →
      ∀ m ∈ messages, ∀ m' ∈ messages, ∀ m'' ∈ messages,
        looseToolCallMessageMatches rt m m' = some true →
          (looseToolCallMessageMatches rt m' m'' = some true →
            looseToolCallMessageMatches rt m m'' = some true) ∧
          (looseToolCallMessageMatches rt m m'' = some true →
            looseToolCallMessageMatches rt m' m'' = some true) := by
  refine ⟨fun v w j k => argumentsMatch_iff_denote, ?_, ?_, fun m m' => loose_symm, ?_⟩
  · intro m m' h
    rw [looseToolCallMessageMatches_iff]
    exact .inl h
  · intro m h
    rw [looseToolCallMessageMatches_iff]
    exact .inl (strictMessageMatches_refl h)
  · intro messages hfaithful m hm m' hm' m'' hm'' h
    constructor
    · exact loose_trans hfaithful hm hm' hm'' h
    · exact loose_trans hfaithful hm' hm hm'' (loose_symm h)

/-- Two orders of the keys of one object, and two spellings of one call. -/
theorem loose_matching_spellings :
    argumentsMatch shallowRuntime (.obj [("a", .int 1), ("b", .null)])
      (.obj [("b", .null), ("a", .int 1)]) = true ∧
    looseToolCallMessageMatches shallowRuntime (textCall "\x7b\"a\": 1\x7d")
      (dictCall (.int 1) rfl rfl (by decide)) = some true := by
  have hfaithful := typeFaithful_pair
  have hmatch := loose_matching shallowRuntime
  obtain ⟨harguments, -, -, -, htrans⟩ := hmatch
  constructor
  · refine (harguments _ _ _ _ (.dict _ ?_) (.dict _ ?_)).mpr ?_
    · simp [PyValue.Regular, PyValue.ofJson, PyValue.ofFields, shallowRuntime, codePoints]
    · simp [PyValue.Regular, PyValue.ofJson, PyValue.ofFields, shallowRuntime, codePoints]
    · simp only [PyValue.ofJson, PyValue.ofFields, PyValue.denote, Json.object.injEq]
      funext key
      rw [PyValue.denoteFields, PyValue.denoteFields, PyValue.denoteFields, PyValue.denoteFields]
      split
      · rename_i hkey
        simp [hkey, PyValue.denoteFields, PyValue.denote, codePoints]
      · rename_i hkey
        simp [hkey, PyValue.denoteFields, PyValue.denote]
  · exact (htrans _ hfaithful _ (.inl rfl) _ (.inr rfl) _ (.inl rfl) (by decide +kernel)).2
      (by decide +kernel)

/-- The number one equals a boolean in Python, and does not match the boolean's other spelling. -/
theorem loose_not_transitive : ∃ rt m m' m'', looseToolCallMessageMatches rt m m' = some true ∧
    looseToolCallMessageMatches rt m' m'' = some true ∧
      looseToolCallMessageMatches rt m m'' = some false := by
  refine ⟨shallowRuntime, dictCall (.int 1) rfl rfl (by decide),
    dictCall (.bool true) rfl rfl (by decide), textCall "\x7b\"a\": true\x7d", ?_⟩
  decide +kernel

end Miles.MessageMatcher
