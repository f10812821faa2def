import Miles.Native.Rollout.PlanWire
import Miles.Spec.Rollout.StorePlan

/-!
# Plans survive the wire

`to_dict` writes a segment's ref as its key, so `from_dict` finds it only among the refs the
plan owns.  Every edit keeps each ref the sample received in `owned_refs`, whether or not a
segment still uses it, and a segment only takes rows of such a ref.  A store key names one
object, so a key finds its ref again.
-/

namespace Miles.Rollout

open PieceTable (numRows)

/-! ## Unions of refs -/

/-- A store key names one object. -/
def KeysIdentify (refs : List StoreRef) : Prop :=
  ∀ a ∈ refs, ∀ b ∈ refs, a.key = b.key → a = b

theorem KeysIdentify.mono {refs refs' : List StoreRef} (h : KeysIdentify refs')
    (hsub : ∀ ref ∈ refs, ref ∈ refs') : KeysIdentify refs :=
  fun a ha b hb => h a (hsub a ha) b (hsub b hb)

/-- One ref of a union. -/
def addRef (refs : List StoreRef) (ref : StoreRef) : List StoreRef :=
  if refs.any (·.key = ref.key) then refs.map fun old => if old.key = ref.key then ref else old
  else refs ++ [ref]

/-- A ref is added once. -/
theorem addRef_spec {refs : List StoreRef} {ref : StoreRef} (hkeys : KeysIdentify (ref :: refs))
    (hnodup : (refs.map (·.key)).Nodup) :
    ((addRef refs ref).map (·.key)).Nodup ∧ ∀ x, x ∈ addRef refs ref ↔ x ∈ refs ∨ x = ref := by
  unfold addRef
  split
  · rename_i hany
    obtain ⟨old, hold, hkey⟩ := List.any_eq_true.mp hany
    -- the ref is there already, under its key
    have hmem : ref ∈ refs := by
      have heq := hkeys old (List.mem_cons_of_mem _ hold) ref (List.mem_cons_self ..)
        (by simpa using hkey)
      exact heq ▸ hold
    have hsame : (refs.map fun old => if old.key = ref.key then ref else old) = refs := by
      have hid : ∀ x ∈ refs, (if x.key = ref.key then ref else x) = x := by
        intro x hx
        split
        · rename_i heq
          exact (hkeys x (List.mem_cons_of_mem _ hx) ref (List.mem_cons_self ..) heq).symm
        · rfl
      rw [List.map_congr_left hid, List.map_id']
    rw [hsame]
    exact ⟨hnodup, fun x => ⟨.inl, fun h => h.elim id fun heq => heq ▸ hmem⟩⟩
  · rename_i hany
    have hfresh : ref.key ∉ refs.map (·.key) := by
      simpa using hany
    refine ⟨?_, fun x => by simp⟩
    rw [List.map_append]
    exact hnodup.append (by simp) (by simpa using hfresh)

/-- A union keeps the refs of both sides, each under its key once. -/
theorem mem_unionRefs {a b : List StoreRef} (hkeys : KeysIdentify (a ++ b)) :
    ((unionRefs a b).map (·.key)).Nodup ∧ ∀ x, x ∈ unionRefs a b ↔ x ∈ a ∨ x ∈ b := by
  have hfold : ∀ (rest acc : List StoreRef), KeysIdentify (acc ++ rest) →
      (acc.map (·.key)).Nodup →
      ((rest.foldl addRef acc).map (·.key)).Nodup ∧
        ∀ x, x ∈ rest.foldl addRef acc ↔ x ∈ acc ∨ x ∈ rest := by
    intro rest
    induction rest with
    | nil => exact fun acc _ hnodup => ⟨hnodup, by simp⟩
    | cons ref rest ih =>
      intro acc hkeys hnodup
      obtain ⟨hnodup', hmem⟩ := addRef_spec (hkeys.mono (by simp; tauto)) hnodup
      obtain ⟨hnodup'', hmem'⟩ := ih (addRef acc ref)
        (hkeys.mono (by simp [hmem]; tauto)) hnodup'
      refine ⟨hnodup'', fun x => ?_⟩
      rw [List.foldl_cons, hmem', hmem, List.mem_cons]
      tauto
  obtain ⟨hnodup, hmem⟩ := hfold (a ++ b) [] hkeys (by simp)
  refine ⟨hnodup, fun x => ?_⟩
  have hx := hmem x
  rw [List.mem_append] at hx
  exact hx.trans (by simp)

/-! ## The refs of segments -/

variable {field : Field}

theorem Fields.get_of_build {α : Type} {present : Field → Bool} {f : Field → Except StoreError α}
    {out : Fields α} (h : Fields.build present f = .ok out) {x : α}
    (hx : out.get field = some x) : f field = .ok x := by
  have hentry : Fields.buildEntry present f field = .ok (out.get field) := by
    simp only [Fields.build] at h
    obtain ⟨routed, hrouted, h⟩ := Except.bind_eq_ok.mp h
    obtain ⟨indexer, hindexer, h⟩ := Except.bind_eq_ok.mp h
    obtain ⟨mask, hmask, h⟩ := Except.bind_eq_ok.mp h
    cases h
    cases field with
    | forward f => cases f <;> assumption
    | samplingMask => exact hmask
  rw [hx, Fields.buildEntry] at hentry
  split at hentry
  · cases hf : f field with
    | error e => simp [hf, Functor.map, Except.map] at hentry
    | ok y =>
      simp only [hf, Functor.map, Except.map, Except.ok.injEq, Option.some.injEq] at hentry
      rw [hentry]
  · cases hentry

theorem Fields.get_of_zip {α : Type} {a b out : Fields α}
    {combine : Field → α → α → Except StoreError α} (h : a.zip b combine = .ok out)
    {z : α} (hz : out.get field = some z) :
    ∃ x y, a.get field = some x ∧ b.get field = some y ∧ combine field x y = .ok z := by
  have hentry : Fields.zipEntry a b combine field = .ok (out.get field) := by
    simp only [Fields.zip] at h
    split at h
    · cases h
    · obtain ⟨routed, hrouted, h⟩ := Except.bind_eq_ok.mp h
      obtain ⟨indexer, hindexer, h⟩ := Except.bind_eq_ok.mp h
      obtain ⟨mask, hmask, h⟩ := Except.bind_eq_ok.mp h
      cases h
      cases field with
      | forward f => cases f <;> assumption
      | samplingMask => exact hmask
  rw [hz, Fields.zipEntry] at hentry
  split at hentry
  · rename_i x y hx hy
    refine ⟨x, y, hx, hy, ?_⟩
    cases hc : combine field x y with
    | error e => simp [hc, Functor.map, Except.map] at hentry
    | ok w =>
      simp only [hc, Functor.map, Except.map, Except.ok.injEq, Option.some.injEq] at hentry
      rw [hentry]
  · cases hentry

/-- The segments of a response take rows of its ref. -/
theorem source_of_wholeObject {ref : Option StoreRef} {rows : Int}
    {noOutputAbort : Bool} {segs : Segments} (h : wholeObject field ref rows noOutputAbort = .ok segs)
    {seg : Seg} (hseg : seg ∈ segs) : seg.source = ref := by
  unfold wholeObject at h
  split at h
  · split at h
    · cases h
      cases hseg
    · cases h
  · split at h
    · cases h
    · cases h
      split at hseg
      · rw [List.mem_singleton.mp hseg]
      · cases hseg

/-- The segments of a response read its own object. -/
theorem source_of_fieldFromRef {r : StoreResponse} {segs : Segments}
    (h : r.fieldFromRef field = .ok segs) {seg : Seg} (hseg : seg ∈ segs) :
    seg.source = none ∨ seg.source = r.ref := by
  cases field with
  | forward f =>
    simp only [StoreResponse.fieldFromRef] at h
    obtain ⟨whole, hwhole, h⟩ := Except.bind_eq_ok.mp h
    cases h
    rcases List.mem_append.mp hseg with hcovered | hmem
    · left
      split at hcovered
      · rw [List.mem_singleton.mp hcovered]
      · cases hcovered
    · exact .inr (source_of_wholeObject hwhole hmem)
  | samplingMask => exact .inr (source_of_wholeObject h hseg)

/-- An append takes rows of the earlier segments' refs, and of the new ones. -/
theorem source_of_append {segs new out : Segments}
    (h : field.append segs new = .ok out) {seg : Seg} (hseg : seg ∈ out) :
    (∃ old ∈ segs, old.source = seg.source) ∨ seg ∈ new := by
  cases field with
  | forward f =>
    simp only [Field.append, ForwardField.append] at h
    split at h
    · cases h
    · cases h
      rcases List.mem_append.mp hseg with hkept | hmem
      · exact .inl (PieceTable.source_of_mem_take hkept)
      · exact .inr (List.mem_of_mem_drop hmem)
  | samplingMask =>
    cases h
    exact (List.mem_append.mp hseg).imp (fun hmem => ⟨seg, hmem, rfl⟩) id

/-- An insertion reads no object. -/
theorem source_of_insert {segs : Segments} {n : Nat} {seg : Seg}
    (hseg : seg ∈ field.insert segs n) : seg ∈ segs ∨ seg.source = none := by
  cases field with
  | forward f => exact .inl hseg
  | samplingMask =>
    simp only [Field.insert] at hseg
    split at hseg
    · rcases List.mem_append.mp hseg with hmem | hnew
      · exact .inl hmem
      · rw [List.mem_singleton.mp hnew]
        exact .inr rfl
    · exact .inl hseg

theorem Fields.get_map {α β : Type} {fields : Fields α} {f : Field → α → β}
    {y : β} (h : (fields.map f).get field = some y) :
    ∃ x, fields.get field = some x ∧ f field x = y := by
  cases field with
  | forward f => cases f <;> exact Option.map_eq_some_iff.mp h
  | samplingMask => exact Option.map_eq_some_iff.mp h

/-! ## What a plan owns -/

/-- The plan owns exactly these refs, each once, and its segments take rows of them only. -/
structure StorePlan.Owns (plan : StorePlan) (refs : List StoreRef) : Prop where
  segs : ∀ field segs, plan.fields.get field = some segs → ∀ seg ∈ segs, ∀ ref,
    seg.source = some ref → ref ∈ plan.ownedRefs
  nodup : (plan.ownedRefs.map (·.key)).Nodup
  mem_iff : ∀ ref, ref ∈ plan.ownedRefs ↔ ref ∈ refs

namespace StorePlan

variable {plan later out : StorePlan} {refs refs' : List StoreRef}

/-- A plan owns the ref of its response. -/
theorem Owns.fromResponse {r : StoreResponse} (h : StorePlan.fromResponse r = .ok plan) :
    plan.Owns r.ref.toList := by
  simp only [StorePlan.fromResponse] at h
  obtain ⟨fields, hfields, h⟩ := Except.bind_eq_ok.mp h
  cases h
  refine ⟨fun field segs hget seg hseg ref hsource => ?_, ?_, fun _ => Iff.rfl⟩
  · rcases source_of_fieldFromRef (Fields.get_of_build hfields hget) hseg with hnone | hsame
    · rw [hnone] at hsource
      cases hsource
    · rw [← hsame, hsource]
      exact List.mem_singleton.mpr rfl
  · cases r.ref <;> simp

/-- A combined plan owns the refs of both. -/
theorem Owns.appendResponse (h : plan.Owns refs) (h' : later.Owns refs')
    (hkeys : KeysIdentify (refs ++ refs')) (hout : plan.appendResponse later = .ok out) :
    out.Owns (refs ++ refs') := by
  simp only [StorePlan.appendResponse] at hout
  obtain ⟨fields, hfields, hout⟩ := Except.bind_eq_ok.mp hout
  cases hout
  have hkeys' : KeysIdentify (plan.ownedRefs ++ later.ownedRefs) :=
    hkeys.mono (by simp [h.mem_iff, h'.mem_iff])
  obtain ⟨hnodup, hmem⟩ := mem_unionRefs hkeys'
  refine ⟨fun field segs hget seg hseg ref hsource => ?_, hnodup, fun ref => ?_⟩
  · obtain ⟨x, y, hx, hy, hcombine⟩ := Fields.get_of_zip hfields hget
    rw [hmem]
    rcases source_of_append hcombine hseg with ⟨old, hold, hsame⟩ | hnew
    · exact .inl (h.segs field x hx old hold ref (hsame.trans hsource))
    · exact .inr (h'.segs field y hy seg hnew ref hsource)
  · rw [hmem, h.mem_iff, h'.mem_iff, List.mem_append]

theorem Owns.insertTokens (h : plan.Owns refs) (n : Nat) : (plan.insertTokens n).Owns refs := by
  refine ⟨fun field segs hget seg hseg ref hsource => ?_, h.nodup, h.mem_iff⟩
  obtain ⟨old, hold, heq⟩ := Fields.get_map hget
  subst heq
  rcases source_of_insert hseg with hmem | hnone
  · exact h.segs field old hold seg hmem ref hsource
  · rw [hnone] at hsource
    cases hsource

theorem Owns.stripTail (h : plan.Owns refs) (n : Nat) : (plan.stripTail n).Owns refs := by
  refine ⟨fun field segs hget seg hseg ref hsource => ?_, h.nodup, h.mem_iff⟩
  obtain ⟨old, hold, heq⟩ := Fields.get_map hget
  subst heq
  obtain ⟨q, hq, hsame⟩ := PieceTable.source_of_mem_take hseg
  exact h.segs field old hold q hq ref (hsame.trans hsource)

/-- Adopted refs are owned too. -/
theorem Owns.adoptRefs (h : plan.Owns refs) (hkeys : KeysIdentify (refs ++ refs')) :
    (plan.adoptRefs refs').Owns (refs ++ refs') := by
  have hkeys' : KeysIdentify (plan.ownedRefs ++ refs') := hkeys.mono (by simp [h.mem_iff])
  obtain ⟨hnodup, hmem⟩ := mem_unionRefs hkeys'
  refine ⟨fun field segs hget seg hseg ref hsource => ?_, hnodup, fun ref => ?_⟩
  · exact (hmem ref).mpr (.inl (h.segs field segs hget seg hseg ref hsource))
  · show ref ∈ unionRefs plan.ownedRefs refs' ↔ _
    rw [hmem, h.mem_iff, List.mem_append]

/-- Every plan that edits can reach owns the refs the sample received. -/
theorem owns_of_edits {edits : PlanEdits} (hkeys : KeysIdentify edits.refs)
    (h : edits.plan = .ok plan) : plan.Owns edits.refs := by
  induction edits generalizing plan with
  | response r => exact .fromResponse h
  | append edits r ih =>
    simp only [PlanEdits.plan] at h
    obtain ⟨old, hold, h⟩ := Except.bind_eq_ok.mp h
    obtain ⟨new, hnew, h⟩ := Except.bind_eq_ok.mp h
    have hown := ih (hkeys.mono fun _ => List.mem_append_left _) hold
    exact hown.appendResponse (.fromResponse hnew) hkeys h
  | insert edits n ih =>
    simp only [PlanEdits.plan] at h
    obtain ⟨old, hold, h⟩ := Except.bind_eq_ok.mp h
    cases h
    exact (ih hkeys hold).insertTokens n
  | strip edits n ih =>
    simp only [PlanEdits.plan] at h
    obtain ⟨old, hold, h⟩ := Except.bind_eq_ok.mp h
    cases h
    exact (ih hkeys hold).stripTail n
  | merge edits n later ih ihLater =>
    simp only [PlanEdits.plan] at h
    obtain ⟨old, hold, h⟩ := Except.bind_eq_ok.mp h
    obtain ⟨new, hnew, h⟩ := Except.bind_eq_ok.mp h
    have hown := (ih (hkeys.mono fun _ => List.mem_append_left _) hold).insertTokens n
    exact hown.appendResponse (ihLater (hkeys.mono fun _ => List.mem_append_right _) hnew) hkeys h
  | adopt edits refs ih =>
    simp only [PlanEdits.plan] at h
    obtain ⟨old, hold, h⟩ := Except.bind_eq_ok.mp h
    cases h
    exact (ih (hkeys.mono fun _ => List.mem_append_left _) hold).adoptRefs hkeys

/-! ## Reading back -/

theorem refByKey_of_mem {ref : StoreRef} (hnodup : (refs.map (·.key)).Nodup) (h : ref ∈ refs) :
    refByKey refs ref.key = .ok ref := by
  unfold refByKey
  cases hfind : refs.reverse.find? (·.key = ref.key) with
  | none =>
    have hnone := List.find?_eq_none.mp hfind ref (by simpa using h)
    simp at hnone
  | some found =>
    have hkey : found.key = ref.key := by simpa using List.find?_some hfind
    have hmem : found ∈ refs := by simpa using List.mem_of_find?_eq_some hfind
    rw [List.inj_on_of_nodup_map hnodup hmem h hkey]

/-- A segment whose ref is in the table is read back. -/
theorem segFromItem_segToItem {seg : Seg} (hnodup : (refs.map (·.key)).Nodup)
    (h : ∀ ref, seg.source = some ref → ref ∈ refs) :
    segFromItem refs (segToItem seg) = .ok seg := by
  obtain ⟨source, start, stop⟩ := seg
  cases source with
  | none => rfl
  | some ref =>
    have href := refByKey_of_mem hnodup (h ref rfl)
    simp only [segFromItem, segToItem, Option.map_some, href, Except.ok_bind]
    rfl

@[simp] theorem byName_name (field : Field) : Field.byName field.name = .ok field := by
  cases field with
  | forward f => cases f <;> rfl
  | samplingMask => rfl

/-- The fields are those of their items. -/
theorem Fields.ofItems_items {α : Type} (fields : Fields α) :
    Fields.ofItems fields.items = fields := by
  obtain ⟨routed, indexer, mask⟩ := fields
  cases routed <;> cases indexer <;> cases mask <;> rfl

theorem nodup_names {α β : Type} (fields : Fields α) (f : Field × α → β) :
    ((fields.items.map fun x => (x.1.name, f x)).map Prod.fst).Nodup := by
  obtain ⟨routed, indexer, mask⟩ := fields
  cases routed <;> cases indexer <;> cases mask <;> simp [Fields.items, Fields.get, Field.name]

theorem get_of_mem_items {α : Type} {fields : Fields α} {x : Field × α} (h : x ∈ fields.items) :
    fields.get x.1 = some x.2 := by
  obtain ⟨field, -, heq⟩ := List.mem_filterMap.mp h
  obtain ⟨y, hy, rfl⟩ := Option.map_eq_some_iff.mp heq
  exact hy

/-- A plan whose segments take rows of refs it owns reads back as itself. -/
theorem fromDict_toDict {Json : Type} {codec : RefCodec Json}
    (hcodec : ∀ ref, codec.fromBuiltins (codec.toBuiltins ref) = .ok ref) (h : plan.Owns refs) :
    fromDict codec (plan.toDict codec) = .ok plan := by
  have hrefs : (plan.ownedRefs.map codec.toBuiltins).mapM codec.fromBuiltins =
      .ok plan.ownedRefs := Except.mapM_map_of_ok fun ref _ => hcodec ref
  have hfields : (plan.fields.items.map fun x => (x.1.name, x.2.map segToItem)).mapM
      (fieldFromItem plan.ownedRefs) = .ok plan.fields.items := by
    refine Except.mapM_map_of_ok fun x hx => ?_
    have hsegs : (x.2.map segToItem).mapM (segFromItem plan.ownedRefs) = .ok x.2 :=
      Except.mapM_map_of_ok fun seg hseg => segFromItem_segToItem h.nodup
        (h.segs x.1 x.2 (get_of_mem_items hx) seg hseg)
    simp only [fieldFromItem, byName_name, Except.ok_bind, hsegs]
    rfl
  simp only [fromDict, toDict, hrefs, Except.ok_bind,
    PyDict.items_ofList (nodup_names plan.fields _), hfields, Fields.ofItems_items]
  rfl

/-- Every plan that edits can reach reads back as itself; its segments take rows of refs it
    owns, found by a key that names one of them, and it owns every ref the sample received. -/
theorem plan_roundTrip {Json : Type} {codec : RefCodec Json}
    (hcodec : ∀ ref, codec.fromBuiltins (codec.toBuiltins ref) = .ok ref) {edits : PlanEdits}
    (hkeys : KeysIdentify edits.refs) (h : edits.plan = .ok plan) :
    fromDict codec (plan.toDict codec) = .ok plan ∧
      (∀ field segs, plan.fields.get field = some segs → ∀ seg ∈ segs, ∀ ref,
        seg.source = some ref → ref ∈ plan.ownedRefs) ∧
      (plan.ownedRefs.map (·.key)).Nodup ∧
      ∀ ref, ref ∈ plan.ownedRefs ↔ ref ∈ edits.refs := by
  have hown := owns_of_edits hkeys h
  exact ⟨fromDict_toDict hcodec hown, hown.segs, hown.nodup, hown.mem_iff⟩

/-! ### Two turns -/

/-- Refs as key and array shapes. -/
def shapeCodec : RefCodec (String × List (StoredName × Nat)) where
  toBuiltins ref := (ref.key, ref.fields.map fun spec => (spec.name, spec.rows))
  fromBuiltins value := .ok ⟨value.1, value.2.map fun x => ⟨x.1, x.2⟩⟩

def firstRef : StoreRef := ⟨"turn-1", [⟨.routedExperts, 3⟩, ⟨.maskLengths, 2⟩]⟩

def secondRef : StoreRef := ⟨"turn-2", [⟨.routedExperts, 6⟩, ⟨.maskLengths, 1⟩]⟩

/-- A turn with routed experts and a mask. -/
def storedTurn (numTokens : Nat) (outputTokens : List Int) (ref : StoreRef) : StoreResponse where
  requested field := decide (field ≠ .forward .indexerTopk)
  routedExpertsStartLen := none
  numTokens := numTokens
  outputTokens := outputTokens
  aborted := false
  ref := some ref

/-- Two turns with two observation tokens between them; the second turn's only token is
    stripped, and with it the last mask row of its object. -/
def strippedTurn : PlanEdits :=
  .strip (.merge (.response (storedTurn 4 [7, 8] firstRef)) 2
    (.response (storedTurn 7 [9] secondRef))) 1

/-- The plan keeps the first turn's ref for its mask and the second turn's for its routing. -/
def strippedTurnPlan : StorePlan where
  fields := ⟨some [⟨some secondRef, 0, 5⟩], none, some [⟨some firstRef, 0, 2⟩, ⟨none, 0, 2⟩]⟩
  ownedRefs := [firstRef, secondRef]

theorem plan_roundTrip_strippedTurn :
    strippedTurn.plan = .ok strippedTurnPlan ∧
      fromDict shapeCodec (strippedTurnPlan.toDict shapeCodec) = .ok strippedTurnPlan := by
  have hplan : strippedTurn.plan = .ok strippedTurnPlan := by decide
  have hcodec : ∀ ref, shapeCodec.fromBuiltins (shapeCodec.toBuiltins ref) = .ok ref := by
    intro ref
    simp only [shapeCodec, List.map_map, Function.comp_def, List.map_id']
  have hkeys : KeysIdentify strippedTurn.refs := by
    show KeysIdentify [firstRef, secondRef]
    unfold KeysIdentify
    decide
  exact ⟨hplan, (plan_roundTrip hcodec hkeys hplan).1⟩

end StorePlan

end Miles.Rollout
