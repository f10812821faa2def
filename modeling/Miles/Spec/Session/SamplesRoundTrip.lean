import Miles.Native.Session.SamplesCodec
import Miles.Spec.Rollout.PlanRoundTrip

/-!
# The samples wire gives back what was sent

The encoder adds the tensors of each field under keys of its own; the decoder takes the same keys
away in the same order, so that it finds each of them and leaves none behind.  The JSON fields
read back from the header one by one.  `decode_encode` puts both together: every wire field of
every sample is the one that was encoded, over the input sample where the code merges instead of
replacing.
-/

namespace Miles.Session.SamplesCodec

open Miles.Rollout

/-! ## The keys of the table -/

/-- The first parts of the keys of a field's tensors. -/
def WireField.tensorNames : WireField → List String
  | .rolloutSamplingMask =>
    [WireField.name .rolloutSamplingMask ++ ".ids", WireField.name .rolloutSamplingMask ++ ".offsets"]
  | field => if field.isTensor then [field.name] else []

/-- The keys that a field of a sample may have. -/
def WireField.keys (field : WireField) (sampleIndex : Nat) : List String :=
  field.tensorNames.map fun name => tensorKey name sampleIndex

/-- The keys that the samples at these positions may have. -/
def payloadKeys (fields : List WireField) (indices : List Nat) : List String :=
  indices.flatMap fun i => fields.flatMap (·.keys i)

/-- The last separator of a list splits it in one way. -/
theorem append_cons_inj {α : Type} {c : α} {xs xs' ys ys' : List α}
    (h : xs ++ c :: ys = xs' ++ c :: ys') (hys : c ∉ ys) (hys' : c ∉ ys') :
    xs = xs' ∧ ys = ys' := by
  rcases List.append_eq_append_iff.mp h with ⟨as, hxs, hrest⟩ | ⟨as, hxs, hrest⟩
  · cases as with
    | nil => simp_all
    | cons a as =>
      obtain ⟨rfl, rfl⟩ := List.cons.inj hrest
      simp at hys
  · cases as with
    | nil => simp_all
    | cons a as =>
      obtain ⟨rfl, rfl⟩ := List.cons.inj hrest
      simp at hys'

theorem dot_notMem_toString (n : Nat) : '.' ∉ (toString n).toList := by
  intro hmem
  rw [Nat.toString_eq_repr, Nat.toList_repr] at hmem
  exact absurd (Nat.isDigit_of_mem_toDigits (by omega) (by omega) hmem) (by decide)

/-- A key tells its field and its sample. -/
theorem tensorKey_inj {a b : String} {i j : Nat} (h : tensorKey a i = tensorKey b j) :
    a = b ∧ i = j := by
  have hlist : a.toList ++ '.' :: (toString i).toList = b.toList ++ '.' :: (toString j).toList := by
    simpa [tensorKey, String.toList_append] using congrArg String.toList h
  -- the digits of the position hold no dot, so the last dot is where it starts
  obtain ⟨ha, hi⟩ := append_cons_inj hlist (dot_notMem_toString i) (dot_notMem_toString j)
  refine ⟨String.toList_inj.mp ha, Nat.repr_injective ?_⟩
  rw [← Nat.toString_eq_repr, ← Nat.toString_eq_repr]
  exact String.toList_inj.mp hi

theorem tensorKey_ne_samplesMetaKey (name : String) (i : Nat) :
    tensorKey name i ≠ samplesMetaKey := by
  intro h
  have hmem : '.' ∈ (tensorKey name i).toList := by simp [tensorKey, String.toList_append]
  rw [h] at hmem
  exact absurd hmem (by decide)

theorem samplesMetaKey_notMem_payloadKeys (fields : List WireField) (indices : List Nat) :
    samplesMetaKey ∉ payloadKeys fields indices := by
  intro h
  obtain ⟨i, -, h⟩ := List.mem_flatMap.mp h
  obtain ⟨field, -, h⟩ := List.mem_flatMap.mp h
  obtain ⟨name, -, h⟩ := List.mem_map.mp h
  exact tensorKey_ne_samplesMetaKey name i h

/-- Different samples and fields have different keys. -/
theorem nodup_payloadKeys {fields : List WireField} {indices : List Nat}
    (hfields : (fields.flatMap (·.tensorNames)).Nodup) (hindices : indices.Nodup) :
    (payloadKeys fields indices).Nodup := by
  have hmap : ∀ i, fields.flatMap (·.keys i) =
      (fields.flatMap (·.tensorNames)).map fun name => tensorKey name i := by
    intro i
    simp only [WireField.keys, List.map_flatMap]
  rw [payloadKeys, List.nodup_flatMap]
  constructor
  · intro i _
    rw [hmap]
    exact hfields.map fun a b h => (tensorKey_inj h).1
  · refine hindices.imp ?_
    intro i j hne
    simp only [Function.onFun, hmap]
    intro key hi hj
    obtain ⟨a, -, rfl⟩ := List.mem_map.mp hi
    obtain ⟨b, -, h⟩ := List.mem_map.mp hj
    exact hne (tensorKey_inj h).2.symm

/-! ## What is left of a table -/

/-- The table holds these tensors and no others. -/
structure Pending (tensors : Tensors) (pairs : List (String × NdArray)) : Prop where
  get : ∀ key arr, tensors.get? key = some arr ↔ (key, arr) ∈ pairs
  nodup : (pairs.map Prod.fst).Nodup

variable {tensors : Tensors} {pairs rest : List (String × NdArray)} {key : String} {arr : NdArray}

theorem Pending.get?_eq_none (h : Pending tensors pairs) (hkey : key ∉ pairs.map Prod.fst) :
    tensors.get? key = none := by
  cases hget : tensors.get? key with
  | none => rfl
  | some arr => exact absurd (List.mem_map_of_mem ((h.get key arr).mp hget)) hkey

/-- Popping the first tensor leaves the others. -/
theorem Pending.pop (h : Pending tensors ((key, arr) :: rest)) :
    pop tensors key = .ok (arr, tensors.erase key) ∧ Pending (tensors.erase key) rest := by
  have hnodup := List.nodup_cons.mp h.nodup
  constructor
  · simp only [SamplesCodec.pop, (h.get key arr).mpr (by simp)]
  · refine ⟨?_, hnodup.2⟩
    intro k a
    rw [PyDict.get?_erase]
    split
    · rename_i heq
      subst heq
      constructor
      · intro hget
        cases hget
      · intro hmem
        exact absurd (List.mem_map_of_mem hmem) hnodup.1
    · rename_i hne
      simp [h.get k a, hne]

/-- When no pairs are pending no tensor is left. -/
theorem Pending.items_eq_nil (h : Pending tensors []) : tensors.items = [] := by
  refine List.eq_nil_iff_forall_not_mem.mpr ?_
  intro x hx
  have hmem := (h.get x.1 x.2).mp (PyDict.get?_eq_some.mpr hx)
  cases hmem

/-- The table that a list of assignments makes. -/
theorem Pending.ofList (h : (pairs.map Prod.fst).Nodup) : Pending (PyDict.ofList pairs) pairs := by
  refine ⟨?_, h⟩
  intro key arr
  rw [PyDict.get?_eq_some, PyDict.items_ofList h]

/-! ## JSON fields -/

section Json

variable {refs : RefCodec PyJson}

theorem statusOf_statusValue (status : Status) : statusOf (.str (statusValue status)) = .ok status := by
  cases status <;> rfl

/-- What iterating over a JSON array yields. -/
theorem iter_arr (items : List PyJson) :
    (PyJson.arr items).iter = (.ok items : Except WireError (List PyJson)) := rfl

theorem fromDict_span (span : WeightVersionSpan) :
    WeightVersionSpan.fromDict span.toDict = .ok span := by
  show (if ∀ x ∈ [("version", span.version), ("abs_start", span.absStart),
      ("abs_end", span.absEnd)], x.1 ∈ ["version", "abs_start", "abs_end"] then
    (.ok span : Except WireError WeightVersionSpan) else .error (.builtin .type)) = .ok span
  rw [if_pos (by simp)]

/-- The versions of a call are read back. -/
theorem fromDict_call (call : WeightVersionsPerCall) :
    WeightVersionsPerCall.fromDict call.toDict = .ok call := by
  have hspans : ∀ xs : List WeightVersionSpan,
      (xs.map (·.toDict)).mapM WeightVersionSpan.fromDict = .ok xs :=
    fun xs => Except.mapM_map_of_ok fun span _ => fromDict_span span
  show ((call.spans.map (·.toDict)).mapM WeightVersionSpan.fromDict >>= fun spans =>
    (call.prefillSpans.map (·.toDict)).mapM WeightVersionSpan.fromDict >>= fun prefillSpans =>
      (.ok ⟨spans, prefillSpans, call.outputStart, call.promptTokens⟩ :
        Except WireError WeightVersionsPerCall)) = .ok call
  rw [hspans, hspans]
  rfl

theorem fromDict_specInfo (info : SpecInfo) : SpecInfo.fromDict info.toDict = .ok info := rfl

theorem fromDict_prefixCacheInfo (info : PrefixCacheInfo) :
    PrefixCacheInfo.fromDict info.toDict = .ok info := rfl

theorem segItemFromJson_toJson (item : SegItem) : segItemFromJson (segItemToJson item) = .ok item := by
  obtain ⟨key, start, stop⟩ := item
  cases key <;> rfl

/-- The dictionary of a plan is read back. -/
theorem planDictFromJson_toJson (value : PlanDict PyJson) :
    planDictFromJson (planDictToJson value) = .ok value := by
  obtain ⟨fields, planRefs⟩ := value
  have hfields : (fields.items.map fun x => (x.1, PyJson.arr (x.2.map segItemToJson))).mapM
      (fun (x : String × PyJson) => (do
        let segs ← (← x.2.iter).mapM segItemFromJson
        return (x.1, segs) : Except WireError (String × List SegItem))) = .ok fields.items := by
    refine Except.mapM_map_of_ok ?_
    intro x _
    have hsegs : (x.2.map segItemToJson).mapM segItemFromJson = .ok x.2 :=
      Except.mapM_map_of_ok fun item _ => segItemFromJson_toJson item
    simp only [iter_arr, Except.ok_bind, hsegs]
    rfl
  have hdict : PyDict.ofList fields.items = fields :=
    PyDict.ext_items (PyDict.items_ofList fields.nodup_keys)
  have hrefs : (planDictToJson ⟨fields, planRefs⟩).getItem "refs" =
      (.ok (.arr planRefs) : Except WireError PyJson) := rfl
  have hitems : (planDictToJson ⟨fields, planRefs⟩).getItem "fields" =
      (.ok (.obj (fields.items.map fun x => (x.1, .arr (x.2.map segItemToJson)))) :
        Except WireError PyJson) := rfl
  simp only [planDictFromJson, hrefs, hitems, Except.ok_bind, iter_arr, PyJson.items]
  rw [hfields, Except.ok_bind, hdict]
  rfl

/-- A plan that owns the refs it uses reads back from its JSON. -/
theorem planFromJson_toJson {plan : StorePlan} {owned : List StoreRef}
    (hrefs : ∀ ref, refs.fromBuiltins (refs.toBuiltins ref) = .ok ref) (h : plan.Owns owned) :
    planFromJson refs (planDictToJson (plan.toDict refs)) = .ok plan := by
  rw [planFromJson, planDictFromJson_toJson, Except.ok_bind, StorePlan.fromDict_toDict hrefs h]
  rfl

end Json

/-! ## One field -/

section Field

variable {Rest : Type} {refs : RefCodec PyJson} {s input out : Sample Rest} {sampleIndex : Nat}
  {nulls : List String} {sampleMeta : PyJson}

/-- What the decoder makes of a field: the sample's value, except where it merges it with the
    input sample's. -/
def restored (s input : Sample Rest) : (field : WireField) → field.Attr
  | .tokens => some (Option.getD (s.attr .tokens) (.ofList []))
  | .metadata =>
    (PyDict.items (s.attr .metadata)).foldl (fun d x => d.set x.1 x.2) (input.attr .metadata)
  | .reward =>
    match s.attr .reward with
    | .null => input.attr .reward
    | value => value
  | field => s.attr field

/-- The header of a sample holds its JSON fields, and nothing in the place of a missing plan. -/
def Describes (refs : RefCodec PyJson) (s : Sample Rest) (sampleMeta : PyJson) (field : WireField) :
    Prop :=
  field.isTensor = false → sampleMeta.field? field.name = jsonValue refs s field

variable {field : WireField}

/-- A tensor field reads back as the value it was encoded from, and takes its tensor along. -/
theorem popField_fieldTensor {α : Type} {value : Option α}
    {encode : α → Except WireError NdArray} {read : NdArray → Except WireError α}
    (hencode : fieldTensor field sampleIndex value encode = .ok pairs)
    (hread : ∀ v arr, encode v = .ok arr → read arr = .ok v)
    (hnull : field.name ∈ nulls ↔ value.isNone = true ∧ field.isRolloutTopk = false)
    (hpending : Pending tensors (pairs ++ rest))
    (hfree : tensorKey field.name sampleIndex ∉ rest.map Prod.fst) :
    ∃ tensors', popField field read sampleIndex nulls tensors = .ok (value, tensors') ∧
      Pending tensors' rest := by
  cases value with
  | none =>
    obtain rfl : [] = pairs := Except.ok.inj hencode
    refine ⟨tensors, ?_, hpending⟩
    by_cases htopk : field.isRolloutTopk = true
    · have hname : field.name ∉ nulls := by simp [hnull, htopk]
      rw [popField, if_neg hname, if_pos ⟨htopk, by simp [hpending.get?_eq_none hfree]⟩]
    · rw [popField, if_pos (hnull.mpr ⟨rfl, by simpa using htopk⟩)]
  | some v =>
    obtain ⟨arr, harr, hpairs⟩ := Except.bind_eq_ok.mp hencode
    obtain rfl : [(tensorKey field.name sampleIndex, arr)] = pairs := Except.ok.inj hpairs
    obtain ⟨hpop, hrest⟩ := hpending.pop
    refine ⟨_, ?_, hrest⟩
    have hname : field.name ∉ nulls := by simp [hnull]
    have hsome := (hpending.get (tensorKey field.name sampleIndex) arr).mpr (by simp)
    rw [popField, if_neg hname, if_neg (by simp [hsome]), hpop, Except.ok_bind]
    show (read arr >>= fun value => _) = _
    rw [hread v arr harr]
    rfl

/-- Integers that fit their dtype are read back. -/
theorem readInts_asarrayWire {kind : IntKind} (hkind : field.intKind = some kind)
    (xs : Nested Int) (arr : NdArray) (h : asarrayWire field kind xs = .ok arr) :
    readInts field arr = .ok xs := by
  unfold asarrayWire at h
  split at h
  · obtain rfl := Except.ok.inj h
    simp [readInts, hkind]
  · cases h

theorem readFloats_float64 (field : WireField) (xs : Nested Float64) (arr : NdArray)
    (h : (.ok (.float64 xs) : Except WireError NdArray) = .ok arr) : readFloats field arr = .ok xs := by
  obtain rfl := Except.ok.inj h
  rfl

theorem checkDtype_checkDtype (xs arr : NdArray)
    (h : checkDtype field xs = .ok arr) : checkDtype field arr = .ok xs := by
  have hcopy := h
  unfold checkDtype at h
  split at h
  · obtain rfl := Except.ok.inj h
    exact hcopy
  · cases h

/-- The two tensors of a mask are read back. -/
theorem maskOfTensors_arrays (mask : RolloutSamplingMask) :
    maskOfTensors (.ints .int32 (.ofList mask.ids))
      (.ints .int64 (.ofList (mask.offsets.map Int.ofNat))) = .ok mask := by
  obtain ⟨ids, offsets, starts, ends, increasing⟩ := mask
  have hnat : (offsets.map Int.ofNat).map Int.toNat = offsets := by
    rw [List.map_map]
    exact List.map_id'' (fun n => by simp) offsets
  have hrank : ¬ ((Nested.ofList ids).shape.length ≠ 1 ∨
      (Nested.ofList (offsets.map Int.ofNat)).shape.length ≠ 1) := by simp [Nested.ofList]
  have hbounds : ¬ ((Nested.ofList (offsets.map Int.ofNat)).elems.head? ≠ some 0 ∨
      (Nested.ofList (offsets.map Int.ofNat)).elems.getLast? ≠
        some ((Nested.ofList ids).elems.length : Int)) := by
    simp [Nested.ofList, starts, ends]
  have hneg : ¬ ∃ offset ∈ (Nested.ofList (offsets.map Int.ofNat)).elems, offset < 0 := by
    simp [Nested.ofList]
  have harrays : RolloutSamplingMask.ofArrays ids offsets =
      .ok ⟨ids, offsets, starts, ends, increasing⟩ := by
    rw [RolloutSamplingMask.ofArrays, dif_pos ⟨starts, ends⟩, dif_pos increasing]
  unfold maskOfTensors
  simp only
  rw [if_neg hrank, if_neg hbounds, if_neg hneg]
  simp only [Nested.ofList, hnat, harrays]
  rfl

/-- A mask reads back from its two tensors. -/
theorem popMask_fieldTensors (htensors : fieldTensors s sampleIndex .rolloutSamplingMask = .ok pairs)
    (hnull : WireField.name .rolloutSamplingMask ∈ nulls ↔
      isNull s .rolloutSamplingMask = true)
    (hpending : Pending tensors (pairs ++ rest)) :
    ∃ tensors', popMask sampleIndex nulls tensors =
        .ok (s.attr .rolloutSamplingMask, tensors') ∧ Pending tensors' rest := by
  simp only [fieldTensors] at htensors
  simp only [isNull] at hnull
  cases hmask : s.attr .rolloutSamplingMask with
  | none =>
    rw [hmask] at htensors hnull
    obtain rfl := Except.ok.inj htensors
    exact ⟨tensors, by rw [popMask, if_pos (hnull.mpr rfl)], hpending⟩
  | some mask =>
    rw [hmask] at htensors hnull
    obtain rfl := Except.ok.inj htensors
    obtain ⟨hids, hrest⟩ := hpending.pop
    obtain ⟨hoffsets, hrest⟩ := hrest.pop
    refine ⟨_, ?_, hrest⟩
    rw [popMask, if_neg (by simp [hnull]), hids, Except.ok_bind]
    simp only [hoffsets, Except.ok_bind, maskOfTensors_arrays]
    rfl

/-- What is read of a field goes on to the rest of its decoding. -/
theorem pending_bind {α β : Type} {value : α} {out' : β}
    {next : α × Tensors → Except WireError (β × Tensors)}
    {popped : Except WireError (α × Tensors)}
    (h : ∃ tensors', popped = .ok (value, tensors') ∧ Pending tensors' rest)
    (hnext : ∀ tensors', next (value, tensors') = .ok (out', tensors')) :
    ∃ tensors', (popped >>= next) = .ok (out', tensors') ∧ Pending tensors' rest := by
  obtain ⟨tensors', rfl, hrest⟩ := h
  exact ⟨tensors', hnext tensors', hrest⟩

theorem getItem_bind {β : Type} {key : String} {value : PyJson} {b : β}
    {next : PyJson → Except WireError β} (h : sampleMeta.field? key = some value)
    (hnext : next value = .ok b) : (sampleMeta.getItem key >>= next) = .ok b := by
  exact Except.bind_eq_ok.mpr ⟨value, PyJson.getItem_eq_ok.mpr h, hnext⟩

/-- One field: the decoder reads the value back and takes the field's tensors away. -/
theorem decodeField_spec (htensors : fieldTensors s sampleIndex field = .ok pairs)
    (hpending : Pending tensors (pairs ++ rest))
    (hfree : ∀ key ∈ field.keys sampleIndex, key ∉ rest.map Prod.fst)
    (hnull : field.isTensor = true → (field.name ∈ nulls ↔ isNull s field = true))
    (hobj : sampleMeta.isObj = true) (hmeta : Describes refs s sampleMeta field)
    (hinput : out.attr field = input.attr field)
    (hplan : ∀ plan, s.attr .rolloutStorePlan = some plan →
      planFromJson refs (planDictToJson (StorePlan.toDict refs plan)) = .ok plan) :
    ∃ tensors', decodeField refs sampleIndex sampleMeta nulls (out, tensors) field =
        .ok (out.set field (restored s input field), tensors') ∧ Pending tensors' rest := by
  -- a JSON field has no tensors
  have hjson : field.isTensor = false → Pending tensors rest := by
    intro hfield
    have hnil : fieldTensors s sampleIndex field = .ok [] := by
      cases field <;> first | rfl | cases hfield
    obtain rfl := Except.ok.inj (hnil.symm.trans htensors)
    exact hpending
  cases field with
  | tokens =>
    exact pending_bind (popField_fieldTensor htensors (readInts_asarrayWire rfl)
      ((hnull rfl).trans (by simp [isNull, WireField.isRolloutTopk])) hpending
      (hfree _ (List.mem_singleton.mpr rfl))) fun _ => rfl
  | lossMask =>
    exact pending_bind (popField_fieldTensor htensors (readInts_asarrayWire rfl)
      ((hnull rfl).trans (by simp [isNull, WireField.isRolloutTopk])) hpending
      (hfree _ (List.mem_singleton.mpr rfl))) fun _ => rfl
  | rolloutLogProbs =>
    exact pending_bind (popField_fieldTensor htensors (readFloats_float64 .rolloutLogProbs)
      ((hnull rfl).trans (by simp [isNull, WireField.isRolloutTopk])) hpending
      (hfree _ (List.mem_singleton.mpr rfl))) fun _ => rfl
  | rolloutSamplingMask =>
    exact pending_bind (popMask_fieldTensors htensors (hnull rfl) hpending) fun _ => rfl
  | rolloutTopkTokenIds | rolloutTopkLogProbs | rolloutRoutedExperts | rolloutIndexerTopk =>
    exact pending_bind (popField_fieldTensor htensors checkDtype_checkDtype
      ((hnull rfl).trans (by simp [isNull, WireField.isRolloutTopk])) hpending
      (hfree _ (List.mem_singleton.mpr rfl))) fun _ => rfl
  | response | responseLength =>
    exact ⟨tensors, getItem_bind (hmeta rfl) rfl, hjson rfl⟩
  | rolloutStorePlan =>
    have hget : sampleMeta.get "rollout_store_plan" =
        (.ok (jsonValue refs s .rolloutStorePlan) : Except WireError (Option PyJson)) :=
      PyJson.get_eq_ok.mpr ⟨hobj, hmeta rfl⟩
    refine ⟨tensors, ?_, hjson rfl⟩
    simp only [decodeField, hget, Except.ok_bind, jsonValue]
    show _ = Except.ok (out.set .rolloutStorePlan (s.attr .rolloutStorePlan), tensors)
    cases hvalue : s.attr .rolloutStorePlan with
    | none => rfl
    | some plan =>
      have hread := hplan plan hvalue
      show (planFromJson refs (planDictToJson (StorePlan.toDict refs plan)) >>= fun plan =>
        (.ok (out.set .rolloutStorePlan (some plan), tensors) :
          Except WireError (Sample Rest × Tensors))) = _
      rw [hread]
      rfl
  | status =>
    exact ⟨tensors, getItem_bind (hmeta rfl)
      (Except.bind_eq_ok.mpr ⟨_, statusOf_statusValue _, rfl⟩), hjson rfl⟩
  | weightVersions =>
    have hcalls : (List.map (fun call : WeightVersionsPerCall => call.toDict)
        (s.attr .weightVersions)).mapM WeightVersionsPerCall.fromDict =
        .ok (s.attr .weightVersions) := Except.mapM_map_of_ok fun call _ => fromDict_call call
    exact ⟨tensors, getItem_bind (hmeta rfl) (Except.bind_eq_ok.mpr
      ⟨_, iter_arr _, Except.bind_eq_ok.mpr ⟨_, hcalls, rfl⟩⟩), hjson rfl⟩
  | specInfo =>
    exact ⟨tensors, getItem_bind (hmeta rfl)
      (Except.bind_eq_ok.mpr ⟨_, fromDict_specInfo _, rfl⟩), hjson rfl⟩
  | prefixCacheInfo =>
    exact ⟨tensors, getItem_bind (hmeta rfl)
      (Except.bind_eq_ok.mpr ⟨_, fromDict_prefixCacheInfo _, rfl⟩), hjson rfl⟩
  | metadata =>
    refine ⟨tensors, getItem_bind (hmeta rfl) ?_, hjson rfl⟩
    simp only [updateMetadata, hinput]
    rfl
  | reward =>
    have hget : sampleMeta.getItem "reward" = (.ok (s.attr .reward) : Except WireError PyJson) :=
      PyJson.getItem_eq_ok.mpr (hmeta rfl)
    refine ⟨tensors, ?_, hjson rfl⟩
    -- a null leaves what the input sample has
    have hkept : out.set .reward (input.attr .reward) = out := by
      simp only [← hinput, Sample.set, Function.update_eq_self]
    simp only [decodeField, hget]
    delta restored
    dsimp only
    generalize s.attr WireField.reward = value
    cases value with
    | null => exact congrArg (fun sample => Except.ok (sample, tensors)) hkept.symm
    | _ => rfl

end Field

/-! ## One sample -/

theorem mem_all (field : WireField) : field ∈ WireField.all := by cases field <;> decide

theorem name_injective : Function.Injective WireField.name := by
  have hnodup : (WireField.all.map WireField.name).Nodup := by decide
  intro f g h
  exact List.inj_on_of_nodup_map hnodup (mem_all f) (mem_all g) h

theorem name_ne_nulls (field : WireField) : field.name ≠ "nulls" := by cases field <;> decide

section OneSample

variable {Rest : Type} {refs : RefCodec PyJson} {s input : Sample Rest} {fields : List WireField}
  {field : WireField} {sampleIndex : Nat}

theorem isTensor_of_isNull (h : isNull s field = true) : field.isTensor = true := by
  cases field <;> first | rfl | cases h

/-- The header of a sample holds exactly its JSON fields. -/
theorem field?_sampleMeta (hfields : fields.Nodup) (h : field ∈ fields) :
    (sampleMeta refs fields s).field? field.name = jsonValue refs s field := by
  have hkeys : ((fields.filterMap fun f => (jsonValue refs s f).map (f.name, ·)).map
      Prod.fst).Nodup := by
    rw [List.map_filterMap]
    refine hfields.filterMap ?_
    intro f g name hf hg
    simp only [Option.map_map, Option.mem_def, Option.map_eq_some_iff] at hf hg
    obtain ⟨_, -, rfl⟩ := hf
    obtain ⟨_, -, heq⟩ := hg
    exact name_injective heq.symm
  show List.lookup field.name (PyDict.items _) = _
  rw [PyDict.lookup_items, PyDict.get?_set, if_neg (name_ne_nulls field)]
  ext v
  rw [PyDict.get?_eq_some, PyDict.items_ofList hkeys, List.mem_filterMap]
  constructor
  · rintro ⟨f, -, heq⟩
    obtain ⟨w, hw, heq⟩ := Option.map_eq_some_iff.mp heq
    obtain ⟨hname, rfl⟩ := Prod.mk.inj heq
    rw [← name_injective hname]
    exact hw
  · intro hv
    exact ⟨field, h, by rw [hv]; rfl⟩

/-- The null markers of a sample are read as the names of its null fields. -/
theorem readNulls_sampleMeta : readNulls (sampleMeta refs fields s) =
    .ok ((fields.filter (isNull s)).map (·.name)) := by
  have hget : (sampleMeta refs fields s).getItem "nulls" =
      (.ok (.arr ((fields.filter (isNull s)).map fun f => .str f.name)) :
        Except WireError PyJson) := by
    refine PyJson.getItem_eq_ok.mpr ?_
    show List.lookup "nulls" (PyDict.items _) = _
    rw [PyDict.lookup_items, PyDict.get?_set, if_pos rfl]
  have hstr : (fields.filter (isNull s)).map (fun f => PyJson.str f.name) =
      ((fields.filter (isNull s)).map (·.name)).map .str := by rw [List.map_map]; rfl
  have hhashable : (((fields.filter (isNull s)).map (·.name)).map PyJson.str).forM
      (fun x => if x.isArr ∨ x.isObj then throw (.builtin .type) else pure ()) =
      (.ok ⟨⟩ : Except WireError Unit) := by
    refine Except.forM_eq_ok.mpr ?_
    intro x hx
    obtain ⟨name, -, rfl⟩ := List.mem_map.mp hx
    rfl
  have hnames : ∀ nulls, (((fields.filter (isNull s)).map (·.name)).map PyJson.str).mapM
      (readNull nulls) = .ok ((fields.filter (isNull s)).map (·.name)) := by
    intro nulls
    refine Except.mapM_map_of_ok ?_
    intro name hname
    obtain ⟨f, hf, rfl⟩ := List.mem_map.mp hname
    refine if_pos (List.any_eq_true.mpr ⟨f, ?_, by simp⟩)
    exact List.mem_filter.mpr ⟨mem_all f, isTensor_of_isNull (List.mem_filter.mp hf).2⟩
  simp only [readNulls, hget, Except.ok_bind, iter_arr, hstr, hhashable, hnames]

theorem mem_nulls (h : field ∈ fields) :
    field.name ∈ (fields.filter (isNull s)).map (·.name) ↔ isNull s field = true := by
  rw [List.mem_map_of_injective name_injective, List.mem_filter]
  exact and_iff_right h

theorem keys_fieldTensor {α : Type} {value : Option α} {encode : α → Except WireError NdArray}
    (h : fieldTensor field sampleIndex value encode = .ok pairs) :
    (pairs.map Prod.fst).Sublist [tensorKey field.name sampleIndex] := by
  cases value with
  | none =>
    obtain rfl := Except.ok.inj h
    exact List.nil_sublist _
  | some v =>
    obtain ⟨arr, -, hpairs⟩ := Except.bind_eq_ok.mp h
    obtain rfl := Except.ok.inj hpairs
    exact List.Sublist.refl _

/-- The tensors of a field stand under the field's own keys. -/
theorem keys_fieldTensors (h : fieldTensors s sampleIndex field = .ok pairs) :
    (pairs.map Prod.fst).Sublist (field.keys sampleIndex) := by
  cases field with
  | rolloutSamplingMask =>
    simp only [fieldTensors] at h
    cases hmask : s.attr .rolloutSamplingMask with
    | none =>
      rw [hmask] at h
      obtain rfl := Except.ok.inj h
      exact List.nil_sublist _
    | some mask =>
      rw [hmask] at h
      obtain rfl := Except.ok.inj h
      exact List.Sublist.refl _
  | tokens | lossMask | rolloutLogProbs | rolloutTopkTokenIds | rolloutTopkLogProbs
  | rolloutRoutedExperts | rolloutIndexerTopk => exact keys_fieldTensor h
  | _ =>
    -- a JSON field has none
    obtain rfl := Except.ok.inj h
    exact List.nil_sublist _

/-- Joined tables have the keys of their parts. -/
theorem keys_flatten {α : Type} {xs : List α} {parts : List (List (String × NdArray))}
    {keys : α → List String}
    (h : List.Forall₂ (fun x part => (part.map Prod.fst).Sublist (keys x)) xs parts) :
    (parts.flatten.map Prod.fst).Sublist (xs.flatMap keys) := by
  induction h with
  | nil => exact List.Sublist.refl _
  | cons hx _ ih =>
    rw [List.flatten_cons, List.map_append, List.flatMap_cons]
    exact hx.append ih

theorem keys_parts {parts : List (List (String × NdArray))}
    (h : fields.mapM (fieldTensors s sampleIndex) = .ok parts) :
    (parts.flatten.map Prod.fst).Sublist (fields.flatMap (·.keys sampleIndex)) :=
  keys_flatten ((Except.mapM_eq_ok.mp h).imp fun _ _ => keys_fieldTensors)

/-- The sample that the decoder puts together: its fields over the input sample. -/
def overlay (fields : List WireField) (s input : Sample Rest) : Sample Rest :=
  { input with attr := fun f => if f ∈ fields then restored s input f else input.attr f }

/-- The decoder reads all fields of a sample back and leaves the tensors of the others.  It may
    skip JSON fields, which have no tensors. -/
theorem decodeFields_spec {keep : WireField → Bool} {sampleMeta : PyJson} {nulls : List String}
    {later : List String} (hkeep : ∀ f : WireField, f.isTensor = true → keep f = true)
    (hnulls : ∀ f : WireField, f.isTensor = true → f ∈ fields →
      (f.name ∈ nulls ↔ isNull s f = true))
    (hobj : sampleMeta.isObj = true) (hmeta : ∀ f ∈ fields, Describes refs s sampleMeta f)
    (hplan : ∀ plan, s.attr .rolloutStorePlan = some plan →
      planFromJson refs (planDictToJson (StorePlan.toDict refs plan)) = .ok plan)
    (hrest : ∀ key ∈ rest.map Prod.fst, key ∈ later) (hfields : fields.Nodup) :
    ∀ (out : Sample Rest) (tensors : Tensors) (parts : List (List (String × NdArray))),
      (∀ f ∈ fields, out.attr f = input.attr f) →
      fields.mapM (fieldTensors s sampleIndex) = .ok parts →
      Pending tensors (parts.flatten ++ rest) →
      (fields.flatMap (·.keys sampleIndex) ++ later).Nodup →
      ∃ tensors', (fields.filter keep).foldlM (decodeField refs sampleIndex sampleMeta nulls)
          (out, tensors) =
        .ok ({ out with attr := fun f =>
          if f ∈ fields.filter keep then restored s input f else out.attr f }, tensors') ∧
        Pending tensors' rest := by
  induction fields with
  | nil =>
    intro out tensors parts _ hparts hpending _
    obtain rfl := Except.ok.inj hparts
    exact ⟨tensors, by simp [pure, Except.pure], hpending⟩
  | cons f fs ih =>
    intro out tensors parts hout hparts hpending hnodup
    obtain ⟨part, parts', hpart, hparts', rfl⟩ : ∃ part parts', fieldTensors s sampleIndex f =
        .ok part ∧ fs.mapM (fieldTensors s sampleIndex) = .ok parts' ∧ parts = part :: parts' := by
      rw [List.mapM_cons] at hparts
      obtain ⟨part, hpart, hparts⟩ := Except.bind_eq_ok.mp hparts
      obtain ⟨parts', hparts', hparts⟩ := Except.bind_eq_ok.mp hparts
      exact ⟨part, parts', hpart, hparts', (Except.ok.inj hparts).symm⟩
    have hnotMem : f ∉ fs := (List.nodup_cons.mp hfields).1
    have ih := ih (fun g hg hmem => hnulls g hg (List.mem_cons_of_mem f hmem))
      (fun g hg => hmeta g (List.mem_cons_of_mem f hg)) (List.nodup_cons.mp hfields).2
    rw [List.flatten_cons, List.append_assoc] at hpending
    rw [List.flatMap_cons, List.append_assoc] at hnodup
    obtain ⟨-, hlater, hdisjoint⟩ := List.nodup_append.mp hnodup
    by_cases hf : keep f = true
    · -- the tensors of a field are under keys of its own
      have hfree : ∀ key ∈ f.keys sampleIndex, key ∉ (parts'.flatten ++ rest).map Prod.fst := by
        intro key hkey hmem
        rw [List.map_append, List.mem_append] at hmem
        refine hdisjoint key hkey key (List.mem_append.mpr ?_) rfl
        rcases hmem with hmem | hmem
        · exact .inl ((keys_parts hparts').subset hmem)
        · exact .inr (hrest key hmem)
      obtain ⟨tensors₁, hdecode, hpending₁⟩ := decodeField_spec hpart hpending hfree
        (fun hg => hnulls f hg (by simp)) hobj (hmeta f (by simp)) (hout f (by simp)) hplan
      have hout₁ : ∀ g ∈ fs, (out.set f (restored s input f)).attr g = input.attr g := by
        intro g hg
        have hne : g ≠ f := fun heq => hnotMem (heq ▸ hg)
        rw [← hout g (List.mem_cons_of_mem f hg)]
        exact Function.update_of_ne hne _ _
      obtain ⟨tensors₂, hloop, hpending₂⟩ := ih _ tensors₁ parts' hout₁ hparts' hpending₁ hlater
      refine ⟨tensors₂, ?_, hpending₂⟩
      rw [List.filter_cons_of_pos hf, List.foldlM_cons, hdecode, Except.ok_bind, hloop]
      congr 2
      simp only [Sample.set, Sample.mk.injEq, and_true]
      funext g
      by_cases hg : g = f
      · subst hg
        have hmem : g ∉ fs.filter keep := fun hmem => hnotMem (List.mem_of_mem_filter hmem)
        simp [hmem]
      · simp [hg]
    · -- the field is skipped, and adds no tensors
      obtain rfl : [] = part := by
        cases f with
        | response | responseLength | rolloutStorePlan | status | weightVersions | specInfo
        | prefixCacheInfo | metadata | reward => exact Except.ok.inj hpart
        | _ => exact absurd (hkeep _ rfl) hf
      obtain ⟨tensors₁, hloop, hpending₁⟩ := ih out tensors parts'
        (fun g hg => hout g (List.mem_cons_of_mem f hg)) hparts' hpending hlater
      exact ⟨tensors₁, by rw [List.filter_cons_of_neg hf, hloop], hpending₁⟩

/-- A sample reads back over the input sample. -/
theorem decodeSample_spec {keep : WireField → Bool} {later : List String}
    {parts : List (List (String × NdArray))}
    (hkeep : ∀ f : WireField, f.isTensor = true → keep f = true)
    (hplan : ∀ plan, s.attr .rolloutStorePlan = some plan →
      planFromJson refs (planDictToJson (StorePlan.toDict refs plan)) = .ok plan)
    (hrest : ∀ key ∈ rest.map Prod.fst, key ∈ later) (hfields : fields.Nodup)
    (hparts : fields.mapM (fieldTensors s sampleIndex) = .ok parts)
    (hpending : Pending tensors (parts.flatten ++ rest))
    (hnodup : (fields.flatMap (·.keys sampleIndex) ++ later).Nodup) :
    ∃ tensors', decodeSample refs input (fields.filter keep) tensors sampleIndex
        (sampleMeta refs fields s) = .ok (overlay (fields.filter keep) s input, tensors') ∧
      Pending tensors' rest := by
  obtain ⟨tensors', hloop, hpending'⟩ : ∃ tensors', (fields.filter keep).foldlM
      (decodeField refs sampleIndex (sampleMeta refs fields s)
        ((fields.filter (isNull s)).map (·.name))) (input, tensors) =
      .ok (overlay (fields.filter keep) s input, tensors') ∧ Pending tensors' rest :=
    decodeFields_spec hkeep (fun f _ hf => mem_nulls hf) rfl
      (fun f hf _ => field?_sampleMeta hfields hf) hplan hrest hfields input tensors parts
      (fun f _ => rfl) hparts hpending hnodup
  refine ⟨tensors', ?_, hpending'⟩
  rw [decodeSample, readNulls_sampleMeta, Except.ok_bind, hloop]

end OneSample

/-! ## All samples -/

section Samples

variable {Rest : Type} {refs : RefCodec PyJson} {input : Sample Rest} {fields : List WireField}

/-- The tensors of all samples have the keys of the payload. -/
theorem keys_samples {samples : List (Sample Rest)} {i : Nat}
    {parts : List (List (List (String × NdArray)))}
    (h : (samples.zipIdx i).mapM (fun x => fields.mapM (fieldTensors x.1 x.2)) = .ok parts) :
    (parts.flatten.flatten.map Prod.fst).Sublist
      (payloadKeys fields (List.range' i samples.length)) := by
  have hkeys : payloadKeys fields (List.range' i samples.length) =
      (samples.zipIdx i).flatMap fun x => fields.flatMap (·.keys x.2) := by
    rw [payloadKeys, ← List.zipIdx_map_snd i samples, List.flatMap_map]
  have hall : List.Forall₂ (fun (x : Sample Rest × Nat) (part : List (String × NdArray)) =>
      (part.map Prod.fst).Sublist (fields.flatMap (·.keys x.2))) (samples.zipIdx i)
      (parts.map List.flatten) :=
    List.forall₂_map_right_iff.mpr ((Except.mapM_eq_ok.mp h).imp fun _ _ => keys_parts)
  rw [hkeys, List.flatten_flatten]
  exact keys_flatten hall

/-- The samples read back one after the other, and no tensor is left. -/
theorem decodeEntries_spec {keep : WireField → Bool}
    (hkeep : ∀ f : WireField, f.isTensor = true → keep f = true) (hfields : fields.Nodup)
    (hnames : (fields.flatMap (·.tensorNames)).Nodup) {samples : List (Sample Rest)}
    (hplans : ∀ s ∈ samples, ∀ plan, s.attr .rolloutStorePlan = some plan →
      planFromJson refs (planDictToJson (StorePlan.toDict refs plan)) = .ok plan)
    (i : Nat) (tensors : Tensors) (parts : List (List (List (String × NdArray))))
    (hparts : (samples.zipIdx i).mapM (fun x => fields.mapM (fieldTensors x.1 x.2)) = .ok parts)
    (hpending : Pending tensors parts.flatten.flatten) :
    ∃ tensors', decodeEntries refs input (fields.filter keep) (samples.map (sampleMeta refs fields))
        i tensors = .ok (samples.map (overlay (fields.filter keep) · input), tensors') ∧
      Pending tensors' [] := by
  induction samples generalizing i tensors parts with
  | nil =>
    obtain rfl := Except.ok.inj hparts
    exact ⟨tensors, rfl, hpending⟩
  | cons s samples ih =>
    obtain ⟨part, parts', hpart, hparts', rfl⟩ : ∃ part parts',
        fields.mapM (fieldTensors s i) = .ok part ∧
        (samples.zipIdx (i + 1)).mapM (fun x => fields.mapM (fieldTensors x.1 x.2)) = .ok parts' ∧
        parts = part :: parts' := by
      rw [List.zipIdx_cons, List.mapM_cons] at hparts
      obtain ⟨part, hpart, hparts⟩ := Except.bind_eq_ok.mp hparts
      obtain ⟨parts', hparts', hparts⟩ := Except.bind_eq_ok.mp hparts
      exact ⟨part, parts', hpart, hparts', (Except.ok.inj hparts).symm⟩
    rw [List.flatten_cons, List.flatten_append] at hpending
    have hindices : (i :: List.range' (i + 1) samples.length).Nodup := by
      rw [← List.range'_succ]
      exact List.nodup_range'
    obtain ⟨tensors₁, hsample, hpending₁⟩ : ∃ tensors', decodeSample refs input
        (fields.filter keep) tensors i (sampleMeta refs fields s) =
        .ok (overlay (fields.filter keep) s input, tensors') ∧
        Pending tensors' parts'.flatten.flatten :=
      decodeSample_spec hkeep (hplans s (by simp)) (fun _ hkey => (keys_samples hparts').subset hkey) hfields
        hpart hpending
        (nodup_payloadKeys hnames hindices)
    obtain ⟨tensors₂, hloop, hpending₂⟩ := ih (fun t ht => hplans t (by simp [ht])) (i + 1) tensors₁
      parts' hparts' hpending₁
    refine ⟨tensors₂, ?_, hpending₂⟩
    simp only [List.map_cons, decodeEntries, hsample, Except.ok_bind, hloop]
    rfl

/-! ## What can be encoded -/

/-- The values of a field survive the conversion to the wire's dtype. -/
def FitsWire (s : Sample Rest) : WireField → Prop
  | .tokens => ∀ xs : Nested Int, s.attr .tokens = some xs → ∀ n ∈ xs.elems, IntKind.int64.Fits n
  | .lossMask => ∀ xs : Nested Int, s.attr .lossMask = some xs → ∀ n ∈ xs.elems, IntKind.uint8.Fits n
  | .rolloutTopkTokenIds =>
    ∀ arr : NdArray, s.attr .rolloutTopkTokenIds = some arr → arr.dtype = .int .int32
  | .rolloutTopkLogProbs =>
    ∀ arr : NdArray, s.attr .rolloutTopkLogProbs = some arr → arr.dtype = .float32
  | .rolloutRoutedExperts =>
    ∀ arr : NdArray, s.attr .rolloutRoutedExperts = some arr → arr.dtype = .int .int32
  | .rolloutIndexerTopk =>
    ∀ arr : NdArray, s.attr .rolloutIndexerTopk = some arr → arr.dtype = .int .int32
  | _ => True

theorem fieldTensor_returns {α : Type} {i : Nat} {value : Option α}
    {encode : α → Except WireError NdArray} :
    (∃ pairs, fieldTensor field i value encode = .ok pairs) ↔
      ∀ v, value = some v → ∃ arr, encode v = .ok arr := by
  cases value with
  | none => simp [fieldTensor]
  | some v =>
    simp only [fieldTensor, Except.bind_eq_ok, Option.some.injEq, forall_eq']
    constructor
    · rintro ⟨pairs, arr, harr, -⟩
      exact ⟨arr, harr⟩
    · rintro ⟨arr, harr⟩
      exact ⟨_, arr, harr, rfl⟩

theorem asarrayWire_returns {kind : IntKind} {xs : Nested Int} :
    (∃ arr, asarrayWire field kind xs = .ok arr) ↔ ∀ n ∈ xs.elems, kind.Fits n := by
  unfold asarrayWire
  split <;> simp_all

theorem checkDtype_returns {arr : NdArray} :
    (∃ arr', checkDtype field arr = .ok arr') ↔ some arr.dtype = field.dtype := by
  unfold checkDtype
  split <;> simp_all

/-- A field is encoded exactly when it fits its wire dtype. -/
theorem fieldTensors_returns {s : Sample Rest} {i : Nat} :
    (∃ pairs, fieldTensors s i field = .ok pairs) ↔ FitsWire s field := by
  cases field with
  | tokens | lossMask =>
    exact fieldTensor_returns.trans (forall₂_congr fun _ _ => asarrayWire_returns)
  | rolloutLogProbs =>
    exact fieldTensor_returns.trans (iff_true_intro fun _ _ => ⟨_, rfl⟩)
  | rolloutTopkTokenIds | rolloutTopkLogProbs | rolloutRoutedExperts | rolloutIndexerTopk =>
    exact fieldTensor_returns.trans
      (forall₂_congr fun _ _ => checkDtype_returns.trans Option.some_inj)
  | rolloutSamplingMask =>
    simp only [fieldTensors, FitsWire, iff_true]
    split <;> exact ⟨_, rfl⟩
  | _ => exact iff_true_intro ⟨_, rfl⟩

/-- The encoder succeeds exactly on values that fit the wire's dtypes. -/
theorem sampleTensors_returns {samples : List (Sample Rest)} :
    (∃ pairs, sampleTensors samples fields = .ok pairs) ↔
      ∀ s ∈ samples, ∀ field ∈ fields, FitsWire s field := by
  have hfields : ∀ (s : Sample Rest) (i : Nat),
      (fields.mapM (fieldTensors s i)).Returns ↔ ∀ field ∈ fields, FitsWire s field := by
    intro s i
    exact Except.returns_mapM.trans (forall₂_congr fun field _ => fieldTensors_returns)
  have hsamples : (∃ pairs, sampleTensors samples fields = .ok pairs) ↔
      (samples.zipIdx.mapM fun x => fields.mapM (fieldTensors x.1 x.2)).Returns := by
    constructor
    · rintro ⟨pairs, h⟩
      obtain ⟨parts, hparts, -⟩ := Except.bind_eq_ok.mp h
      exact ⟨parts, hparts⟩
    · rintro ⟨parts, hparts⟩
      exact ⟨_, Except.bind_eq_ok.mpr ⟨parts, hparts, rfl⟩⟩
  rw [hsamples, Except.returns_mapM]
  constructor
  · intro h s hs
    obtain ⟨i, hi⟩ := List.mem_iff_getElem?.mp hs
    exact (hfields s i).mp (h (s, i) (by rw [List.mem_zipIdx_iff_getElem?]; exact hi))
  · intro h x hx
    exact (hfields x.1 x.2).mpr (h x.1 (List.fst_mem_of_mem_zipIdx hx))

/-! ## The payload -/

/-- What is saved is read back over the input sample, if the decoder reads all tensor fields. -/
theorem decode_encode {keep : WireField → Bool}
    (hkeep : ∀ f : WireField, f.isTensor = true → keep f = true) (hfields : fields.Nodup)
    (hnames : (fields.flatMap (·.tensorNames)).Nodup) {json : JsonText}
    {samples : List (Sample Rest)} {sessionMetadata : PyJson} {emptyReason : Option String}
    {saved loaded : Tensors}
    (hplans : ∀ s ∈ samples, ∀ plan, s.attr .rolloutStorePlan = some plan →
      planFromJson refs (planDictToJson (StorePlan.toDict refs plan)) = .ok plan)
    (hjson : json.loads (json.dumps (payloadMeta refs samples sessionMetadata emptyReason fields)) =
      .ok (payloadMeta refs samples sessionMetadata emptyReason fields))
    (hinput : samples ≠ [] → assertInputSampleDefaults input = .ok ())
    (hsaved : encodeSamples refs json samples sessionMetadata emptyReason fields = .ok saved)
    (hloaded : ∀ key, loaded.get? key = saved.get? key) :
    decodeSamplesAndMergeInputSample refs json loaded input (fields.filter keep) =
      .ok ⟨samples.map (overlay (fields.filter keep) · input), sessionMetadata,
        (emptyReason.map .str).getD .null⟩ := by
  obtain ⟨pairs, hpairs, hsaved⟩ := Except.bind_eq_ok.mp hsaved
  obtain ⟨parts, hparts, hflat⟩ := Except.bind_eq_ok.mp hpairs
  obtain rfl := Except.ok.inj hflat
  obtain rfl := Except.ok.inj hsaved
  -- the table of the payload without its header
  have hkeys := keys_samples hparts
  have hnotMem : samplesMetaKey ∉ parts.flatten.flatten.map Prod.fst :=
    fun hmem => samplesMetaKey_notMem_payloadKeys _ _ (hkeys.subset hmem)
  have hnodup : (parts.flatten.flatten.map Prod.fst).Nodup :=
    hkeys.nodup (nodup_payloadKeys hnames List.nodup_range')
  have hofList := Pending.ofList hnodup
  have hpending : Pending (loaded.erase samplesMetaKey) parts.flatten.flatten := by
    refine ⟨?_, hnodup⟩
    intro key arr
    rw [PyDict.get?_erase]
    by_cases hkey : key = samplesMetaKey
    · subst hkey
      rw [if_pos rfl]
      exact ⟨fun h => (nomatch h), fun h => absurd (List.mem_map_of_mem h) hnotMem⟩
    · rw [if_neg hkey, hloaded, PyDict.get?_set, if_neg hkey, hofList.get]
  have hpop : pop loaded samplesMetaKey = .ok (.ints .uint8 (.ofList (json.dumps
      (payloadMeta refs samples sessionMetadata emptyReason fields))),
      loaded.erase samplesMetaKey) := by
    rw [pop, hloaded, PyDict.get?_set, if_pos rfl]
  have hmeta : readMeta json (.ints .uint8 (.ofList (json.dumps
      (payloadMeta refs samples sessionMetadata emptyReason fields)))) =
      .ok (payloadMeta refs samples sessionMetadata emptyReason fields) := hjson
  have hsamples : (payloadMeta refs samples sessionMetadata emptyReason fields).getItem "samples" =
      (.ok (.arr (samples.map (sampleMeta refs fields))) : Except WireError PyJson) := rfl
  have hdefaults : checkInputSample (.arr (samples.map (sampleMeta refs fields))) input = .ok () := by
    cases samples with
    | nil => rfl
    | cons s samples => exact hinput (List.cons_ne_nil s samples)
  obtain ⟨tensors', hentries, hpending'⟩ : ∃ tensors', decodeEntries refs input
      (fields.filter keep) (samples.map (sampleMeta refs fields)) 0 (loaded.erase samplesMetaKey) =
      .ok (samples.map (overlay (fields.filter keep) · input), tensors') ∧ Pending tensors' [] :=
    decodeEntries_spec hkeep hfields hnames hplans 0 _ parts hparts hpending
  have hleft : checkReferenced tensors' = .ok () := if_neg (not_not.mpr hpending'.items_eq_nil)
  simp only [decodeSamplesAndMergeInputSample, hpop, Except.ok_bind, hmeta, hsamples, hdefaults,
    iter_arr, hentries, hleft]
  rfl

/-! ## Tensors that no sample refers to -/

/-- The sample has the decoder take this tensor: one of a field that is not marked null. -/
def Refers (sampleMeta : PyJson) (fields : List WireField) (sampleIndex : Nat) (key : String) :
    Prop :=
  ∃ nulls, readNulls sampleMeta = .ok nulls ∧
    ∃ field ∈ fields, field.name ∉ nulls ∧ key ∈ field.keys sampleIndex

/-- The tensors that a step takes are referred to; the others are left. -/
def Takes (tensors tensors' : Tensors) (referenced : String → Prop) : Prop :=
  ∀ key, (tensors.get? key).isSome = true → (tensors'.get? key).isSome = true ∨ referenced key

theorem Takes.refl (tensors : Tensors) (referenced : String → Prop) :
    Takes tensors tensors referenced := fun _ h => .inl h

/-- A step that returns the tensors as they were -/
theorem Takes.of_ok {α : Type} {x y : α} {t₁ t₂ : Tensors} {referenced : String → Prop}
    (h : (.ok (x, t₁) : Except WireError (α × Tensors)) = .ok (y, t₂)) :
    Takes t₁ t₂ referenced := by
  obtain ⟨-, rfl⟩ := Prod.mk.inj (Except.ok.inj h)
  exact Takes.refl _ _

theorem Takes.trans {t₁ t₂ t₃ : Tensors} {referenced referenced' : String → Prop}
    (h : Takes t₁ t₂ referenced) (h' : Takes t₂ t₃ referenced') :
    Takes t₁ t₃ fun key => referenced key ∨ referenced' key := by
  intro key hkey
  rcases h key hkey with hkey | hkey
  · exact (h' key hkey).imp_right .inr
  · exact .inr (.inl hkey)

theorem Takes.mono {t₁ t₂ : Tensors} {referenced referenced' : String → Prop} (h : Takes t₁ t₂ referenced)
    (himp : ∀ key, referenced key → referenced' key) : Takes t₁ t₂ referenced' :=
  fun key hkey => (h key hkey).imp_right (himp key)

/-- A pop takes the tensor of its key. -/
theorem pop_takes {t₁ t₂ : Tensors} (h : pop t₁ key = .ok (arr, t₂)) : Takes t₁ t₂ (· = key) := by
  unfold pop at h
  split at h
  · obtain ⟨-, rfl⟩ := Prod.mk.inj (Except.ok.inj h)
    intro k hk
    by_cases heq : k = key
    · exact .inr heq
    · left
      rwa [PyDict.get?_erase, if_neg heq]
  · cases h

section Field

variable {sampleIndex : Nat} {nulls : List String} {t₁ t₂ : Tensors} {out out' : Sample Rest}

theorem popField_takes {α : Type} {read : NdArray → Except WireError α}
    {value : Option α} (h : popField field read sampleIndex nulls t₁ = .ok (value, t₂)) :
    Takes t₁ t₂ fun key => field.name ∉ nulls ∧ key ∈ [tensorKey field.name sampleIndex] := by
  unfold popField at h
  split at h
  · exact .of_ok h
  · rename_i hname
    split at h
    · exact .of_ok h
    · obtain ⟨x, hpop, h⟩ := Except.bind_eq_ok.mp h
      obtain ⟨v, -, h⟩ := Except.bind_eq_ok.mp h
      obtain ⟨-, rfl⟩ := Prod.mk.inj (Except.ok.inj h)
      exact (pop_takes hpop).mono fun key hkey => ⟨hname, List.mem_singleton.mpr hkey⟩

theorem popMask_takes {value : Option RolloutSamplingMask}
    (h : popMask sampleIndex nulls t₁ = .ok (value, t₂)) :
    Takes t₁ t₂ fun key => WireField.name .rolloutSamplingMask ∉ nulls ∧
      key ∈ WireField.keys .rolloutSamplingMask sampleIndex := by
  unfold popMask at h
  split at h
  · exact .of_ok h
  · rename_i hname
    obtain ⟨ids, hids, h⟩ := Except.bind_eq_ok.mp h
    obtain ⟨offsets, hoffsets, h⟩ := Except.bind_eq_ok.mp h
    obtain ⟨mask, -, h⟩ := Except.bind_eq_ok.mp h
    obtain ⟨-, rfl⟩ := Prod.mk.inj (Except.ok.inj h)
    refine ((pop_takes hids).trans (pop_takes hoffsets)).mono ?_
    rintro key (rfl | rfl)
    · exact ⟨hname, by simp [WireField.keys, WireField.tensorNames]⟩
    · exact ⟨hname, by simp [WireField.keys, WireField.tensorNames]⟩

/-- One field takes its own tensors only. -/
theorem decodeField_takes {sampleMeta : PyJson}
    (h : decodeField refs sampleIndex sampleMeta nulls (out, t₁) field = .ok (out', t₂)) :
    Takes t₁ t₂ fun key => field.name ∉ nulls ∧ key ∈ field.keys sampleIndex := by
  cases field with
  | tokens | lossMask | rolloutLogProbs | rolloutTopkTokenIds | rolloutTopkLogProbs
  | rolloutRoutedExperts | rolloutIndexerTopk =>
    obtain ⟨x, hpop, h⟩ := Except.bind_eq_ok.mp h
    obtain ⟨-, rfl⟩ := Prod.mk.inj (Except.ok.inj h)
    exact popField_takes hpop
  | rolloutSamplingMask =>
    obtain ⟨x, hpop, h⟩ := Except.bind_eq_ok.mp h
    obtain ⟨-, rfl⟩ := Prod.mk.inj (Except.ok.inj h)
    exact popMask_takes hpop
  | response | responseLength =>
    obtain ⟨x, -, h⟩ := Except.bind_eq_ok.mp h
    exact .of_ok h
  | status | specInfo | prefixCacheInfo | metadata =>
    obtain ⟨x, -, h⟩ := Except.bind_eq_ok.mp h
    obtain ⟨y, -, h⟩ := Except.bind_eq_ok.mp h
    exact .of_ok h
  | weightVersions =>
    obtain ⟨x, -, h⟩ := Except.bind_eq_ok.mp h
    obtain ⟨y, -, h⟩ := Except.bind_eq_ok.mp h
    obtain ⟨z, -, h⟩ := Except.bind_eq_ok.mp h
    exact .of_ok h
  | rolloutStorePlan =>
    obtain ⟨x, -, h⟩ := Except.bind_eq_ok.mp h
    split at h
    · exact .of_ok h
    · exact .of_ok h
    · obtain ⟨y, -, h⟩ := Except.bind_eq_ok.mp h
      exact .of_ok h
  | reward =>
    obtain ⟨x, -, h⟩ := Except.bind_eq_ok.mp h
    split at h
    · exact .of_ok h
    · exact .of_ok h

/-- The decoder takes only tensors of the fields that it reads. -/
theorem decodeFields_takes {sampleMeta : PyJson} {fields : List WireField}
    (h : fields.foldlM (decodeField refs sampleIndex sampleMeta nulls) (out, t₁) = .ok (out', t₂)) :
    Takes t₁ t₂ fun key => ∃ field ∈ fields, field.name ∉ nulls ∧ key ∈ field.keys sampleIndex := by
  induction fields generalizing out t₁ with
  | nil =>
    exact .of_ok h
  | cons field fields ih =>
    rw [List.foldlM_cons] at h
    obtain ⟨⟨out₁, t⟩, hfield, h⟩ := Except.bind_eq_ok.mp h
    refine ((decodeField_takes hfield).trans (ih h)).mono ?_
    rintro key (hkey | ⟨f, hf, hkey⟩)
    · exact ⟨field, by simp, hkey⟩
    · exact ⟨f, by simp [hf], hkey⟩

end Field

/-- The samples take the tensors that they refer to. -/
theorem decodeEntries_takes {entries : List PyJson} {i : Nat} {t₁ t₂ : Tensors}
    {outs : List (Sample Rest)}
    (h : decodeEntries refs input fields entries i t₁ = .ok (outs, t₂)) :
    Takes t₁ t₂ fun key => ∃ j entry, entries[j]? = some entry ∧ Refers entry fields (i + j) key := by
  induction entries generalizing i t₁ outs with
  | nil =>
    exact .of_ok h
  | cons entry entries ih =>
    obtain ⟨⟨s, t⟩, hsample, h⟩ := Except.bind_eq_ok.mp h
    obtain ⟨⟨rest, t'⟩, hrest, h⟩ := Except.bind_eq_ok.mp h
    obtain ⟨-, rfl⟩ := Prod.mk.inj (Except.ok.inj h)
    obtain ⟨nulls, hnulls, hsample⟩ := Except.bind_eq_ok.mp hsample
    refine ((decodeFields_takes hsample).trans (ih hrest)).mono ?_
    rintro key (hkey | ⟨j, x, hx, hkey⟩)
    · exact ⟨0, entry, rfl, nulls, hnulls, hkey⟩
    · exact ⟨j + 1, x, hx, by rwa [Nat.add_right_comm] at hkey⟩

/-- A payload is read only if one of its samples refers to each tensor but the header. -/
theorem referenced_of_decode {json : JsonText} {loaded : Tensors} {reply : SamplesReply Rest}
    (h : decodeSamplesAndMergeInputSample refs json loaded input fields = .ok reply) :
    ∃ metaArr header entries, loaded.get? samplesMetaKey = some metaArr ∧
      readMeta json metaArr = .ok header ∧ (header.getItem "samples" >>= PyJson.iter) =
        (.ok entries : Except WireError (List PyJson)) ∧
      ∀ key, (loaded.get? key).isSome = true → key = samplesMetaKey ∨
        ∃ i entry, entries[i]? = some entry ∧ Refers entry fields i key := by
  obtain ⟨⟨metaArr, t⟩, hpop, h⟩ := Except.bind_eq_ok.mp h
  obtain ⟨header, hheader, h⟩ := Except.bind_eq_ok.mp h
  obtain ⟨sampleMetas, hsamples, h⟩ := Except.bind_eq_ok.mp h
  obtain ⟨_, -, h⟩ := Except.bind_eq_ok.mp h
  obtain ⟨entries, hentries, h⟩ := Except.bind_eq_ok.mp h
  obtain ⟨⟨outs, t'⟩, hdecode, h⟩ := Except.bind_eq_ok.mp h
  obtain ⟨_, hleft, -⟩ := Except.bind_eq_ok.mp h
  have hmeta : loaded.get? samplesMetaKey = some metaArr := by
    unfold pop at hpop
    split at hpop
    · rename_i arr hget
      rw [hget, (Prod.mk.inj (Except.ok.inj hpop)).1]
    · cases hpop
  refine ⟨metaArr, header, entries, hmeta, hheader,
    Except.bind_eq_ok.mpr ⟨sampleMetas, hsamples, hentries⟩, ?_⟩
  have hempty : t'.items = [] := by
    unfold checkReferenced at hleft
    split at hleft
    · cases hleft
    · rename_i hitems
      exact not_not.mp hitems
  intro key hkey
  rcases pop_takes hpop key hkey with hkey | hkey
  · rcases decodeEntries_takes hdecode key hkey with hkey | ⟨i, entry, hentry, hrefers⟩
    · simp [PyDict.get?, hempty] at hkey
    · exact .inr ⟨i, entry, hentry, by simpa using hrefers⟩
  · exact .inl hkey

end Samples

/-! ## The field sets -/

/-- The sample that the decoder returns: the wire fields read back, the others the input's. -/
structure Restores {Rest : Type} (fields : List WireField) (s input out : Sample Rest) : Prop where
  wire : ∀ field ∈ fields, out.attr field = restored s input field
  others : ∀ field, field ∉ fields → out.attr field = input.attr field
  teacherLogProbs : out.teacherLogProbs = input.teacherLogProbs
  opdReverseKl : out.opdReverseKl = input.opdReverseKl
  rest : out.rest = input.rest

theorem restores_overlay {Rest : Type} (fields : List WireField) (s input : Sample Rest) :
    Restores fields s input (overlay fields s input) where
  wire _ h := if_pos h
  others _ h := if_neg h
  teacherLogProbs := rfl
  opdReverseKl := rfl
  rest := rfl

theorem wireFields_nodup (v2 samplingMask : Bool) : (wireFields v2 samplingMask).Nodup := by
  cases v2 <;> cases samplingMask <;> decide

/-- No two fields share a tensor. -/
theorem wireFields_tensorNames_nodup (v2 samplingMask : Bool) :
    ((wireFields v2 samplingMask).flatMap (·.tensorNames)).Nodup := by
  cases v2 <;> cases samplingMask <;> decide

/-- The fields of v1 are those of v2 without the reward. -/
theorem wireFields_filter {v2 v2' : Bool} (samplingMask : Bool) (h : v2' = true → v2 = true) :
    wireFields v2' samplingMask =
      (wireFields v2 samplingMask).filter fun field => v2' || field ≠ .reward := by
  cases v2 <;> cases v2' <;> cases samplingMask <;> first | decide | exact absurd (h rfl) (by decide)

/-- Samples whose values fit the wire come back, for every field set, and also where the decoder
    reads v1 fields of a v2 payload: each wire field as it was, except that metadata is merged over
    the input sample's, a null reward keeps the input's, and null tokens are an empty list; fields
    off the wire are the input's.  A payload with a tensor that no sample refers to is refused. -/
theorem samples_roundTrip {Rest : Type} (refs : RefCodec PyJson)
    (hrefs : ∀ ref, refs.fromBuiltins (refs.toBuiltins ref) = .ok ref) (json : JsonText)
    (v2 v2' samplingMask : Bool) (hversion : v2' = true → v2 = true)
    (samples : List (Sample Rest)) (sessionMetadata : PyJson) (emptyReason : Option String)
    (input : Sample Rest)
    (hjson : json.loads (json.dumps
        (payloadMeta refs samples sessionMetadata emptyReason (wireFields v2 samplingMask))) =
      .ok (payloadMeta refs samples sessionMetadata emptyReason (wireFields v2 samplingMask)))
    (hfits : ∀ s ∈ samples, ∀ field ∈ wireFields v2 samplingMask, FitsWire s field)
    (hplans : ∀ s ∈ samples, ∀ plan : StorePlan, s.attr .rolloutStorePlan = some plan →
      ∃ edits : PlanEdits, KeysIdentify edits.refs ∧ edits.plan = .ok plan)
    (hinput : samples ≠ [] → assertInputSampleDefaults input = .ok ()) :
    (∃ saved, encodeSamples refs json samples sessionMetadata emptyReason
        (wireFields v2 samplingMask) = .ok saved ∧
      ∀ loaded : Tensors, (∀ key, loaded.get? key = saved.get? key) →
        ∃ outs, decodeSamplesAndMergeInputSample refs json loaded input
            (wireFields v2' samplingMask) =
            .ok ⟨outs, sessionMetadata, (emptyReason.map .str).getD .null⟩ ∧
          List.Forall₂ (fun s out => Restores (wireFields v2' samplingMask) s input out)
            samples outs) ∧
    ∀ (loaded : Tensors) (fields : List WireField) (metaArr : NdArray) (header : PyJson)
      (entries : List PyJson) (key : String),
      loaded.get? samplesMetaKey = some metaArr → readMeta json metaArr = .ok header →
      (header.getItem "samples" >>= PyJson.iter) =
        (.ok entries : Except WireError (List PyJson)) →
      (loaded.get? key).isSome = true → key ≠ samplesMetaKey →
      (∀ i entry, entries[i]? = some entry → ¬ Refers entry fields i key) →
      ∃ e, decodeSamplesAndMergeInputSample refs json loaded input fields = .error e := by
  constructor
  · obtain ⟨pairs, hpairs⟩ := sampleTensors_returns.mpr hfits
    have hsaved : encodeSamples refs json samples sessionMetadata emptyReason
        (wireFields v2 samplingMask) = .ok _ := Except.bind_eq_ok.mpr ⟨pairs, hpairs, rfl⟩
    refine ⟨_, hsaved, ?_⟩
    intro loaded hloaded
    have hread : ∀ s ∈ samples, ∀ plan, s.attr .rolloutStorePlan = some plan →
        planFromJson refs (planDictToJson (StorePlan.toDict refs plan)) = .ok plan := by
      intro s hs plan hplan
      obtain ⟨edits, hkeys, hedits⟩ := hplans s hs plan hplan
      exact planFromJson_toJson hrefs (StorePlan.owns_of_edits hkeys hedits)
    -- the tensor fields are in both sets
    have hkeep : ∀ f : WireField, f.isTensor = true →
        (v2' || decide (f ≠ .reward)) = true := by
      intro f hf
      have hne : f ≠ .reward := by
        rintro rfl
        cases hf
      simp [hne]
    rw [wireFields_filter samplingMask hversion]
    refine ⟨_, decode_encode hkeep (wireFields_nodup v2 samplingMask)
      (wireFields_tensorNames_nodup v2 samplingMask) hread hjson hinput hsaved hloaded, ?_⟩
    rw [List.forall₂_map_right_iff]
    exact List.forall₂_same.mpr fun s _ => restores_overlay _ s input
  · intro loaded fields metaArr header entries key hmeta hheader hentries hkey hne hnone
    cases hdecode : decodeSamplesAndMergeInputSample refs json loaded input fields with
    | error e => exact ⟨e, rfl⟩
    | ok reply =>
      obtain ⟨metaArr', header', entries', hmeta', hheader', hentries', hall⟩ :=
        referenced_of_decode hdecode
      obtain rfl := Option.some.inj (hmeta.symm.trans hmeta')
      obtain rfl := Except.ok.inj (hheader.symm.trans hheader')
      obtain rfl := Except.ok.inj (hentries.symm.trans hentries')
      rcases hall key hkey with heq | ⟨i, entry, hentry, hrefers⟩
      · exact absurd heq hne
      · exact absurd hrefers (hnone i entry hentry)

/-! ### One sample -/

/-- The support of one token. -/
def oneTokenMask : RolloutSamplingMask where
  ids := [6]
  offsets := [0, 1]
  starts := rfl
  ends := rfl
  increasing := by decide

/-- A completed sample with a sampling mask, no replay arrays and no metadata. -/
def oneSample : Sample Unit where
  attr
    | .tokens => some (.ofList [5, 6])
    | .response => .str "b"
    | .responseLength => .int 1
    | .lossMask => some (.ofList [1])
    | .rolloutLogProbs => none
    | .rolloutTopkTokenIds => none
    | .rolloutTopkLogProbs => none
    | .rolloutSamplingMask => some oneTokenMask
    | .rolloutRoutedExperts => none
    | .rolloutIndexerTopk => none
    | .rolloutStorePlan => none
    | .status => SampleArrays.Status.completed
    | .weightVersions => ([] : List WeightVersionsPerCall)
    | .specInfo => ({} : SpecInfo)
    | .prefixCacheInfo => ({} : PrefixCacheInfo)
    | .metadata => (PyDict.empty : PyDict String PyJson)
    | .reward => .null
  teacherLogProbs := none
  opdReverseKl := none
  rest := ()

/-- An input sample with a task of its own. -/
def taskInput : Sample Unit :=
  oneSample.set .metadata (PyDict.set PyDict.empty "task" (.str "t"))

/-- The name of a stored array. -/
def storedNameText : StoredName → String
  | .routedExperts => "routed_experts"
  | .indexerTopk => "indexer_topk"
  | .maskLengths => "output_token_sampling_mask_lengths"
  | .maskTokenIds => "output_token_sampling_mask_token_ids"
  | .maskSupportLogprobs => "output_token_sampling_logprobs"

/-- A stored array of a ref, read from JSON. -/
def specFromJson (value : PyJson) : Except StoreError FieldSpec :=
  match value with
  | .arr [.str name, .int (.ofNat rows)] =>
    match [StoredName.routedExperts, .indexerTopk, .maskLengths, .maskTokenIds,
        .maskSupportLogprobs].find? (storedNameText · = name) with
    | some name => .ok ⟨name, rows⟩
    | none => .error .keyError
  | _ => .error .keyError

/-- Refs as JSON objects. -/
def jsonCodec : RefCodec PyJson where
  toBuiltins ref :=
    .obj [("key", .str ref.key), ("fields", .arr (ref.fields.map fun spec =>
      .arr [.str (storedNameText spec.name), .int spec.rows]))]
  fromBuiltins value :=
    match value.field? "key", value.field? "fields" with
    | some (.str key), some (.arr items) => do return ⟨key, ← items.mapM specFromJson⟩
    | _, _ => .error .keyError

theorem jsonCodec_roundTrip (ref : StoreRef) :
    jsonCodec.fromBuiltins (jsonCodec.toBuiltins ref) = .ok ref := by
  obtain ⟨key, fields⟩ := ref
  have hfields : (fields.map fun spec => PyJson.arr [.str (storedNameText spec.name),
      .int spec.rows]).mapM specFromJson = .ok fields := by
    refine Except.mapM_map_of_ok ?_
    rintro ⟨name, rows⟩ -
    cases name <;> rfl
  show ((fields.map fun spec => PyJson.arr [.str (storedNameText spec.name),
      .int spec.rows]).mapM specFromJson >>= fun fields => Except.ok (StoreRef.mk key fields)) = _
  rw [hfields]
  rfl

/-- The header of the sample as `json.dumps` writes it. -/
def oneSampleText : String :=
  "\x7b\"samples\":[\x7b\"response\":\"b\",\"response_length\":1,\"status\":\"completed\"," ++
  "\"weight_versions\":[],\"spec_info\":\x7b\"spec_num_correct_drafts\":0," ++
  "\"spec_num_proposed_drafts\":0,\"spec_verify_ct\":0,\"completion_tokens\":0\x7d," ++
  "\"prefix_cache_info\":\x7b\"cached_tokens\":0,\"total_prompt_tokens\":0\x7d," ++
  "\"metadata\":\x7b\x7d,\"reward\":null,\"nulls\":[\"rollout_log_probs\"," ++
  "\"rollout_routed_experts\",\"rollout_indexer_topk\"]\x7d]," ++
  "\"session_metadata\":\x7b\x7d,\"empty_reason\":null\x7d"

/-- The bytes of the text, all of them ASCII. -/
def oneSampleBytes : List Int := oneSampleText.toList.map fun c => (c.toNat : Int)

/-- JSON on the one header and its text. -/
def oneSampleJson : JsonText where
  dumps _ := oneSampleBytes
  loads bytes :=
    if bytes = oneSampleBytes then
      .ok (payloadMeta jsonCodec [oneSample] (.obj []) none (wireFields true true))
    else .error (.builtin .value)

theorem oneSampleJson_loads (value : PyJson) : oneSampleJson.loads (oneSampleJson.dumps value) =
    .ok (payloadMeta jsonCodec [oneSample] (.obj []) none (wireFields true true)) := by
  simp only [oneSampleJson, if_true]

theorem fitsWire_oneSample (field : WireField) : FitsWire oneSample field := by
  cases field with
  | tokens | lossMask =>
    rintro xs hxs n hn
    obtain rfl := Option.some.inj hxs
    revert n
    decide
  | rolloutTopkTokenIds | rolloutTopkLogProbs | rolloutRoutedExperts | rolloutIndexerTopk =>
    exact fun arr harr => (nomatch harr)
  | _ => trivial

/-- The decoder reads v1 fields of a v2 payload with a mask, over the input with a task. -/
theorem samples_roundTrip_oneSample :
    ∃ saved, encodeSamples jsonCodec oneSampleJson [oneSample] (.obj []) none
        (wireFields true true) = .ok saved ∧
      ∀ loaded : Tensors, (∀ key, loaded.get? key = saved.get? key) →
        ∃ outs, decodeSamplesAndMergeInputSample jsonCodec oneSampleJson loaded taskInput
            (wireFields false true) = .ok ⟨outs, .obj [], .null⟩ ∧
          List.Forall₂ (fun s out => Restores (wireFields false true) s taskInput out)
            [oneSample] outs := by
  refine (samples_roundTrip jsonCodec jsonCodec_roundTrip oneSampleJson true false true
    (fun _ => rfl) [oneSample] (.obj []) none taskInput (oneSampleJson_loads _) ?_ ?_ (fun _ => rfl)).1
  · intro s hs field _
    obtain rfl := List.mem_singleton.mp hs
    exact fitsWire_oneSample field
  · intro s hs plan hplan
    obtain rfl := List.mem_singleton.mp hs
    cases hplan

/-- The metadata comes back with the input's task, which the sample did not have. -/
theorem metadata_not_restored :
    ∃ saved out, encodeSamples jsonCodec oneSampleJson [oneSample] (.obj []) none
        (wireFields true true) = .ok saved ∧
      decodeSamplesAndMergeInputSample jsonCodec oneSampleJson saved taskInput
        (wireFields true true) = .ok ⟨[out], .obj [], .null⟩ ∧
      PyDict.get? (out.attr .metadata) "task" ≠ PyDict.get? (oneSample.attr .metadata) "task" := by
  obtain ⟨pairs, hpairs⟩ : ∃ pairs, sampleTensors [oneSample] (wireFields true true) = .ok pairs := by
    refine sampleTensors_returns.mpr ?_
    intro s hs field _
    obtain rfl := List.mem_singleton.mp hs
    exact fitsWire_oneSample field
  have hsaved : encodeSamples jsonCodec oneSampleJson [oneSample] (.obj []) none
      (wireFields true true) = .ok _ := Except.bind_eq_ok.mpr ⟨pairs, hpairs, rfl⟩
  have hplans : ∀ s ∈ [oneSample], ∀ plan, s.attr .rolloutStorePlan = some plan →
      planFromJson jsonCodec (planDictToJson (StorePlan.toDict jsonCodec plan)) = .ok plan := by
    intro s hs plan hplan
    obtain rfl := List.mem_singleton.mp hs
    cases hplan
  have hdecode := decode_encode (fun _ _ => rfl : ∀ f : WireField, f.isTensor = true → true = true)
    (wireFields_nodup true true) (wireFields_tensorNames_nodup true true) hplans
    (oneSampleJson_loads _)
    (fun _ => (rfl : assertInputSampleDefaults taskInput = .ok ())) hsaved (fun _ => rfl)
  rw [List.filter_eq_self.mpr (fun _ _ => rfl)] at hdecode
  refine ⟨_, _, hsaved, hdecode, ?_⟩
  intro h
  have htask : some (PyJson.str "t") = none := h
  cases htask

end Miles.Session.SamplesCodec
