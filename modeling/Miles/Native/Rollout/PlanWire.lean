import Miles.ForStd.PyDict
import Miles.Native.Rollout.StorePlan

/-!
# Output store plans on the wire

`StorePlan.to_dict` and `from_dict`, with the edits that only the session server makes, of
`miles/utils/output_store/plan.py`.

A ref is written as `StoreRef.to_builtins` gives it and read back by `StoreRef.from_builtins`,
both of the output store's package, which is outside the program: `RefCodec`.
-/

namespace Miles.Rollout

/-! ### Edits of the session server -/

namespace StorePlan

/-- `adopt_refs` -/
def adoptRefs (plan : StorePlan) (refs : List StoreRef) : StorePlan :=
  { plan with ownedRefs := unionRefs plan.ownedRefs refs }

end StorePlan

/-- The edits of a plan, from the plan of a first response. -/
inductive PlanEdits where
  | response (r : StoreResponse)
  | append (edits : PlanEdits) (r : StoreResponse)
  | insert (edits : PlanEdits) (n : Nat)
  | strip (edits : PlanEdits) (n : Nat)
  /-- the session's next turn, after observation tokens -/
  | merge (edits : PlanEdits) (observationTokens : Nat) (later : PlanEdits)
  | adopt (edits : PlanEdits) (refs : List StoreRef)

namespace PlanEdits

/-- The plan after the edits. -/
def plan : PlanEdits → Except StoreError StorePlan
  | response r => StorePlan.fromResponse r
  | append edits r => do
    let plan ← edits.plan
    let new ← StorePlan.fromResponse r
    plan.appendResponse new
  | insert edits n => do
    let plan ← edits.plan
    return plan.insertTokens n
  | strip edits n => do
    let plan ← edits.plan
    return plan.stripTail n
  | merge edits observationTokens later => do
    let plan ← edits.plan
    let laterPlan ← later.plan
    plan.mergeTurn laterPlan observationTokens
  | adopt edits refs => do
    let plan ← edits.plan
    return plan.adoptRefs refs

/-- Every ref the sample received. -/
def refs : PlanEdits → List StoreRef
  | response r => r.ref.toList
  | append edits r => edits.refs ++ r.ref.toList
  | insert edits _ | strip edits _ => edits.refs
  | merge edits _ later => edits.refs ++ later.refs
  | adopt edits refs => edits.refs ++ refs

end PlanEdits

/-! ### The wire form -/

/-- `json.loads(json.dumps(ref.to_builtins()))` and `StoreRef.from_builtins`, for some type of
    JSON values. -/
structure RefCodec (Json : Type) where
  toBuiltins : StoreRef → Json
  fromBuiltins : Json → Except StoreError StoreRef

/-- `Segments.name` of a field. -/
def Field.name : Field → String
  | .forward .routedExperts => "routed_experts"
  | .forward .indexerTopk => "indexer_topk"
  | .samplingMask => "sampling_mask"

/-- `{field.name: field for field in FIELDS}`, read at a name. -/
def Field.byName (name : String) : Except StoreError Field :=
  match [Field.forward .routedExperts, .forward .indexerTopk, .samplingMask].find?
      (·.name = name) with
  | some field => .ok field
  | none => .error .keyError

/-- A segment as `[store key, start, end]`. -/
structure SegItem where
  key : Option String
  start : Nat
  stop : Nat
  deriving DecidableEq, Repr

/-- The plan in JSON types: the segments of each field, and the refs. -/
structure PlanDict (Json : Type) where
  fields : PyDict String (List SegItem)
  refs : List Json

namespace Fields

variable {α : Type}

/-- `fields.items()`: the fields that have a value, in the order of `FIELDS`. -/
def items (fields : Fields α) : List (Field × α) :=
  [Field.forward .routedExperts, .forward .indexerTopk, .samplingMask].filterMap fun field =>
    (fields.get field).map (field, ·)

/-- A dict of values by field. -/
def ofItems (items : List (Field × α)) : Fields α :=
  ⟨items.lookup (.forward .routedExperts), items.lookup (.forward .indexerTopk),
    items.lookup .samplingMask⟩

end Fields

namespace StorePlan

variable {Json : Type} (codec : RefCodec Json)

/-- `[None if seg.ref is None else seg.ref.key, seg.start, seg.end]` -/
def segToItem (seg : Seg) : SegItem := ⟨seg.source.map (·.key), seg.start, seg.stop⟩

/-- `to_dict` -/
def toDict (plan : StorePlan) : PlanDict Json where
  fields := PyDict.ofList (plan.fields.items.map fun x => (x.1.name, x.2.map segToItem))
  refs := plan.ownedRefs.map codec.toBuiltins

/-- `by_key[key]`: the last ref with the key. -/
def refByKey (refs : List StoreRef) (key : String) : Except StoreError StoreRef :=
  match refs.reverse.find? (·.key = key) with
  | some ref => .ok ref
  | none => .error .keyError

/-- `Seg(None if key is None else by_key[key], start, end)` -/
def segFromItem (refs : List StoreRef) (item : SegItem) : Except StoreError Seg :=
  match item.key with
  | none => .ok ⟨none, item.start, item.stop⟩
  | some key => do
    let ref ← refByKey refs key
    return ⟨some ref, item.start, item.stop⟩

/-- One field of `from_dict`. -/
def fieldFromItem (refs : List StoreRef) (entry : String × List SegItem) :
    Except StoreError (Field × Segments) := do
  let field ← Field.byName entry.1
  let segs ← entry.2.mapM (segFromItem refs)
  return (field, segs)

/-- `from_dict` -/
def fromDict (value : PlanDict Json) : Except StoreError StorePlan := do
  let refs ← value.refs.mapM codec.fromBuiltins
  let items ← value.fields.items.mapM (fieldFromItem refs)
  return ⟨Fields.ofItems items, refs⟩

end StorePlan

/-! ### Two plans -/

/-- `combine_plans`: both samples have a plan, or neither. -/
def combinePlans (a b : Option StorePlan)
    (combine : StorePlan → StorePlan → Except StoreError StorePlan) :
    Except StoreError (Option StorePlan) :=
  match a, b with
  | none, none => .ok none
  | some a, some b => some <$> combine a b
  | _, _ => .error .fieldsDiffer

end Miles.Rollout
