import Miles.ForStd.PieceTable
import Miles.Native.Rollout.SamplingMask

/-!
# Output store plans

Model of `miles/utils/output_store/plan.py`: which rows of which stored objects each replay
field of a sample takes, how the events of the sample edit them, and how the trainer builds
the columns from the objects.

The segments of a field are a piece table whose sources are refs; a segment without a ref
holds rows of no object.  Stored arrays keep the dimensions the code reads: the leading one
and, for a forward field, the trailing two.
-/

namespace Miles.Rollout

open PieceTable (numRows)

/-! ### Fields, refs and objects -/

/-- The fields of `ForwardSegments`: a row per sequence position but the last. -/
inductive ForwardField where
  | routedExperts
  | indexerTopk
  deriving DecidableEq, Repr

/-- `FIELDS` -/
inductive Field where
  | forward (field : ForwardField)
  | samplingMask
  deriving DecidableEq, Repr

/-- The stored array names. -/
inductive StoredName where
  | routedExperts
  | indexerTopk
  | maskLengths
  | maskTokenIds
  | maskSupportLogprobs
  deriving DecidableEq, Repr

/-- `Segments.stored[0]`: the array whose leading dimension counts the object's rows. -/
def Field.storedRows : Field → StoredName
  | .forward .routedExperts => .routedExperts
  | .forward .indexerTopk => .indexerTopk
  | .samplingMask => .maskLengths

/-- A stored array of a ref, with its `shape[0]`. -/
structure FieldSpec where
  name : StoredName
  rows : Nat
  deriving DecidableEq, Repr

/-- `StoreRef`: the key of an object and the arrays it holds. -/
structure StoreRef where
  key : String
  fields : List FieldSpec
  deriving DecidableEq, Repr

/-- `{spec.name: spec for spec in ref.fields}`, read at a name. -/
def StoreRef.spec (ref : Option StoreRef) (name : StoredName) : Option FieldSpec :=
  ref.bind fun ref => ref.fields.reverse.find? (·.name = name)

/-- An array `[rows, streams, topk]`, with its trailing dimensions. -/
structure ForwardArray where
  shape : Nat × Nat
  rows : List (List (List Int))
  deriving DecidableEq, Repr

namespace ForwardArray

/-- `array.size` -/
def size (array : ForwardArray) : Nat := array.rows.length * array.shape.1 * array.shape.2

/-- `array.any()` -/
def any (array : ForwardArray) : Bool :=
  array.rows.any fun row => row.any fun stream => stream.any (· ≠ 0)

end ForwardArray

/-- The arrays of one stored object, where it has them. -/
structure Stash where
  routedExperts : Option ForwardArray
  indexerTopk : Option ForwardArray
  maskLengths : Option (List Nat)
  maskTokenIds : Option (List Int)
  maskSupportLogprobs : Option (List Float32Bits)
  deriving DecidableEq, Repr

/-- `objects[key][name]` of a forward field. -/
def Stash.forward (stash : Stash) : ForwardField → Option ForwardArray
  | .routedExperts => stash.routedExperts
  | .indexerTopk => stash.indexerTopk

/-- The stored objects by key. -/
abbrev Objects : Type := String → Option Stash

/-- What an edit or the materialization raises. -/
inductive StoreError where
  /-- the request asked for the field, but the ref has none -/
  | missingField (field : Field)
  /-- stored rows and expected rows -/
  | rowCount (field : Field) (stored : Nat) (expected : Int)
  /-- the field continues from a row, but fewer rows precede it -/
  | gap (field : Field) (continuesFrom preceding : Nat)
  /-- cannot combine samples with different fields -/
  | fieldsDiffer
  | allZeros
  | streams (stored expected : Nat)
  | emptySupport (row : Nat)
  | sampledTokenAbsent (row : Nat)
  | sampledTokenRepeated (row : Nat)
  | supportExceedsTopk (row : Nat)
  /-- `ValueError`: need at least one array to concatenate -/
  | nothingToConcatenate
  /-- `ValueError`: arrays of different shapes -/
  | shapesDiffer
  | keyError
  | indexError
  /-- `AttributeError`: a segment without a ref has no key -/
  | noRef
  | mask (error : MaskError)
  deriving DecidableEq, Repr

/-! ### One field's segments -/

/-- `Seg`: rows `[start, stop)` of an object, or as many rows no object holds. -/
abbrev Seg : Type := Piece (Option StoreRef)

/-- The `segs` of a field. -/
abbrev Segments : Type := List Seg

/-- `Segments.prefix` -/
def Segments.prefixRows (segs : Segments) (n : Int) : Segments := PieceTable.take segs n

/-- `Segments._whole_object` -/
def wholeObject (field : Field) (ref : Option StoreRef) (rows : Int) (noOutputAbort : Bool) :
    Except StoreError Segments :=
  match StoreRef.spec ref field.storedRows with
  | none =>
    -- aborted in the waiting queue: no ref; aborted after prefill: no mask
    if noOutputAbort ∧ (ref = none ∨ rows = 0) then .ok []
    else .error (.missingField field)
  | some spec =>
    if (spec.rows : Int) ≠ rows then .error (.rowCount field spec.rows rows)
    else .ok (if rows ≠ 0 then [⟨ref, 0, rows.toNat⟩] else [])

/-- `first.end - first.start if first is not None and first.ref is None else 0` -/
def Segments.coveredRows (segs : Segments) : Nat :=
  match segs.head? with
  | some first => if first.source = none then first.length else 0
  | none => 0

/-- `ForwardSegments.append`: the earlier plan's first rows fill the ones the new object does
    not cover. -/
def ForwardField.append (field : ForwardField) (segs new : Segments) : Except StoreError Segments :=
  let covered := new.coveredRows
  if numRows segs < covered then .error (.gap (.forward field) covered (numRows segs))
  else .ok (segs.prefixRows covered ++ new.drop (if covered ≠ 0 then 1 else 0))

/-- `append` of a field. -/
def Field.append : Field → Segments → Segments → Except StoreError Segments
  | .forward field, segs, new => field.append segs new
  | .samplingMask, segs, new => .ok (segs ++ new)

/-- `insert` of a field: the next forward covers inserted tokens, the mask gets forced rows. -/
def Field.insert : Field → Segments → Nat → Segments
  | .forward _, segs, _ => segs
  | .samplingMask, segs, n => if n ≠ 0 then segs ++ [⟨none, 0, n⟩] else segs

/-- `expected_rows` of a field. -/
def Field.expectedRows (field : Field) (numTokens responseLength : Nat) : Int :=
  match field with
  | .forward _ => (numTokens : Int) - 1
  | .samplingMask => responseLength

/-! ### Building the columns -/

/-- `np.concatenate` of forward arrays. -/
def concatenateRows : List ForwardArray → Except StoreError ForwardArray
  | [] => .error .nothingToConcatenate
  | array :: arrays =>
    if arrays.all (·.shape = array.shape) then
      .ok ⟨array.shape, (array :: arrays).flatMap (·.rows)⟩
    else .error .shapesDiffer

/-- `seg.ref.key` -/
def Seg.key (seg : Seg) : Except StoreError String :=
  match seg.source with
  | some ref => .ok ref.key
  | none => .error .noRef

/-- `objects[key][name]` of a forward field, raising for a missing one. -/
def fetchForward (objects : Objects) (field : ForwardField) (key : String) :
    Except StoreError ForwardArray :=
  match (objects key).bind (·.forward field) with
  | some array => .ok array
  | none => .error .keyError

/-- `check` of a forward field: every row one response stored. -/
def ForwardField.check (field : ForwardField) (indexerStreams : Option Nat) (array : ForwardArray) :
    Except StoreError Unit :=
  match field with
  | .routedExperts => if array.size ≠ 0 ∧ array.any = false then .error .allZeros else .ok ()
  | .indexerTopk =>
    match indexerStreams with
    | some streams =>
      if array.shape.1 ≠ streams then .error (.streams array.shape.1 streams) else .ok ()
    | none => .ok ()

/-- The slice of an object's rows a segment takes. -/
def Seg.slice (objects : Objects) (field : ForwardField) (seg : Seg) :
    Except StoreError ForwardArray := do
  let key ← Seg.key seg
  let array ← fetchForward objects field key
  return { array with rows := (array.rows.take seg.stop).drop seg.start }

/-- `ForwardSegments.materialize` -/
def ForwardField.materialize (field : ForwardField) (objects : Objects)
    (indexerStreams : Option Nat) (segs : Segments) : Except StoreError ForwardArray := do
  let keys ← segs.mapM Seg.key
  keys.eraseDups.forM fun key => do
    let array ← fetchForward objects field key
    field.check indexerStreams array
  let slices ← segs.mapM (Seg.slice objects field)
  concatenateRows slices

/-- The arrays the mask's segments give, joined: a length and a forced flag per row, ids and
    log-probs per entry. -/
structure MaskParts where
  lengths : List Nat
  ids : List Int
  logprobs : List Float32Bits
  forced : List Bool
  deriving DecidableEq, Repr

/-- `objects[key][name]` of a mask array. -/
def fetchMask {α : Type} (objects : Objects) (key : String) (name : Stash → Option α) :
    Except StoreError α :=
  match (objects key).bind name with
  | some array => .ok array
  | none => .error .keyError

/-- `array[i]` of an offset. -/
def offsetAt (offsets : List Nat) (i : Nat) : Except StoreError Nat :=
  match offsets[i]? with
  | some offset => .ok offset
  | none => .error .indexError

/-- What one segment of the mask, at a response position, adds. -/
def maskPart (objects : Objects) (responseTokens : List Int) (supportMode : Bool)
    (position : Nat) (seg : Seg) : Except StoreError MaskParts :=
  let n := seg.length
  match seg.source with
  | none =>
    .ok ⟨List.replicate n 1, (responseTokens.drop position).take n, List.replicate n 0,
      List.replicate n true⟩
  | some ref => do
    let lengths ← fetchMask objects ref.key (·.maskLengths)
    let entryStarts := Csr.offsets lengths
    let a ← offsetAt entryStarts seg.start
    let b ← offsetAt entryStarts seg.stop
    let ids ← fetchMask objects ref.key (·.maskTokenIds)
    let logprobs ← if supportMode then do
        let logprobs ← fetchMask objects ref.key (·.maskSupportLogprobs)
        pure ((logprobs.take b).drop a)
      else pure []
    return ⟨(lengths.take seg.stop).drop seg.start, (ids.take b).drop a, logprobs,
      List.replicate n false⟩

/-- The loop of `SamplingMaskSegments.materialize` over the segments. -/
def maskParts (objects : Objects) (responseTokens : List Int) (supportMode : Bool) :
    Nat → Segments → Except StoreError MaskParts
  | _, [] => .ok ⟨[], [], [], []⟩
  | position, seg :: segs => do
    let part ← maskPart objects responseTokens supportMode position seg
    let rest ← maskParts objects responseTokens supportMode (position + seg.length) segs
    return ⟨part.lengths ++ rest.lengths, part.ids ++ rest.ids, part.logprobs ++ rest.logprobs,
      part.forced ++ rest.forced⟩

/-- The number of a row's entries that are its sampled token. -/
def supportHits (ids : List Int) (offsets : List Nat) (sampledTokens : List Int) (row : Nat) : Nat :=
  (Csr.entries offsets ids).countP fun e => e.1.1 == row && sampledTokens[row]? == some e.2

/-- `_check_support` -/
def checkSupport (ids : List Int) (offsets : List Nat) (sampledTokens : List Int)
    (exactlyOnce : Bool) : Except StoreError Unit := do
  let rowLengths := Csr.diff offsets
  if let some row := rowLengths.findIdx? (· = 0) then throw (.emptySupport row)
  let entryRow := Csr.entryRow rowLengths
  if entryRow.any (sampledTokens.length ≤ ·) then throw .indexError
  if ids.length ≠ entryRow.length then throw .shapesDiffer
  let hits := (List.range rowLengths.length).map (supportHits ids offsets sampledTokens)
  let bad := if exactlyOnce then hits.findIdx? (· ≠ 1) else hits.findIdx? (· = 0)
  if let some row := bad then
    throw (if exactlyOnce then .sampledTokenRepeated row else .sampledTokenAbsent row)

/-- `_support_topk`: forced rows and unused slots hold `-1` and `-inf`. -/
def supportTopk (ids : List Int) (offsets : List Nat) (logprobs : List Float32Bits)
    (forced : List Bool) (k : Nat) :
    Except StoreError (List (List Int) × List (List Float32Bits)) := do
  let rowLengths := Csr.diff offsets
  let tooLong := List.zipWith (fun length forced => decide (length > k) && !forced) rowLengths forced
  if let some row := tooLong.findIdx? (· = true) then throw (.supportExceedsTopk row)
  let keep := fun row => forced.getD row false == false
  return (Csr.scatter (-1) rowLengths.length k
      ((Csr.entries offsets ids).filter fun e => keep e.1.1),
    Csr.scatter negInf rowLengths.length k
      ((Csr.entries offsets logprobs).filter fun e => keep e.1.1))

/-- The mask's training columns. -/
structure MaskColumns where
  ids : List Int
  offsets : List Nat
  topk : Option (List (List Int) × List (List Float32Bits))
  deriving DecidableEq, Repr

/-- `SamplingMaskSegments.materialize` -/
def materializeMask (objects : Objects) (responseTokens : List Int) (supportTopkCount : Nat)
    (segs : Segments) : Except StoreError MaskColumns := do
  let supportMode := decide (supportTopkCount > 0)
  let parts ← maskParts objects responseTokens supportMode 0 segs
  let offsets := Csr.offsets parts.lengths
  checkSupport parts.ids offsets responseTokens supportMode
  let topk ← if supportMode then
      some <$> supportTopk parts.ids offsets parts.logprobs parts.forced supportTopkCount
    else pure none
  return ⟨parts.ids, offsets, topk⟩

/-! ### One sample's plan -/

/-- A value for each field that has one: `dict[str, …]` over `FIELDS`. -/
structure Fields (α : Type) where
  routedExperts : Option α
  indexerTopk : Option α
  samplingMask : Option α
  deriving DecidableEq, Repr

namespace Fields

variable {α β : Type}

/-- `fields.get(name)` -/
def get (fields : Fields α) : Field → Option α
  | .forward .routedExperts => fields.routedExperts
  | .forward .indexerTopk => fields.indexerTopk
  | .samplingMask => fields.samplingMask

/-- A field of the dict comprehension: left out unless present. -/
def buildEntry (present : Field → Bool) (f : Field → Except StoreError α) (field : Field) :
    Except StoreError (Option α) :=
  if present field then some <$> f field else pure none

/-- `{field.name: f(field) for field in FIELDS if present(field)}` -/
def build (present : Field → Bool) (f : Field → Except StoreError α) :
    Except StoreError (Fields α) := do
  let routedExperts ← buildEntry present f (.forward .routedExperts)
  let indexerTopk ← buildEntry present f (.forward .indexerTopk)
  let samplingMask ← buildEntry present f .samplingMask
  return ⟨routedExperts, indexerTopk, samplingMask⟩

/-- `{name: f(name, segments) for name, segments in fields.items()}` -/
def map (fields : Fields α) (f : Field → α → β) : Fields β :=
  ⟨fields.routedExperts.map (f (.forward .routedExperts)),
    fields.indexerTopk.map (f (.forward .indexerTopk)), fields.samplingMask.map (f .samplingMask)⟩

/-- A field of `_zip_fields`. -/
def zipEntry (a b : Fields α) (combine : Field → α → α → Except StoreError α) (field : Field) :
    Except StoreError (Option α) :=
  match a.get field, b.get field with
  | some x, some y => some <$> combine field x y
  | _, _ => pure none

/-- `_zip_fields` -/
def zip (a b : Fields α) (combine : Field → α → α → Except StoreError α) :
    Except StoreError (Fields α) := do
  let differ := fun field => (a.get field).isSome ≠ (b.get field).isSome
  if differ (.forward .routedExperts) ∨ differ (.forward .indexerTopk) ∨ differ .samplingMask then
    throw .fieldsDiffer
  let routedExperts ← zipEntry a b combine (.forward .routedExperts)
  let indexerTopk ← zipEntry a b combine (.forward .indexerTopk)
  let samplingMask ← zipEntry a b combine .samplingMask
  return ⟨routedExperts, indexerTopk, samplingMask⟩

end Fields

/-- `_union_refs`: refs by key, a repeated one in its first place. -/
def unionRefs (a b : List StoreRef) : List StoreRef :=
  (a ++ b).foldl (fun refs ref =>
    if refs.any (·.key = ref.key) then
      refs.map fun old => if old.key = ref.key then ref else old
    else refs ++ [ref]) []

/-- What a response's request asked for and what its answer brought: the fields requested,
    the start of an incremental forward, the sequence length its forward covered, the sampled
    tokens, and the ref of the stored arrays. -/
structure StoreResponse where
  requested : Field → Bool
  routedExpertsStartLen : Option Nat
  numTokens : Nat
  outputTokens : List Int
  aborted : Bool
  ref : Option StoreRef

namespace StoreResponse

/-- `request.get(cls.start_key) or 0` of a forward field. -/
def startLen (r : StoreResponse) : ForwardField → Nat
  | .routedExperts => r.routedExpertsStartLen.getD 0
  | .indexerTopk => 0

/-- A response aborted before any output. -/
def noOutputAbort (r : StoreResponse) : Bool := r.outputTokens.isEmpty && r.aborted

/-- `from_ref` of a field. -/
def fieldFromRef (r : StoreResponse) (field : Field) : Except StoreError Segments :=
  let rows := field.expectedRows r.numTokens r.outputTokens.length
  match field with
  | .forward f => do
    let start := r.startLen f
    let covered := if start ≠ 0 then [⟨none, 0, start⟩] else []
    let whole ← wholeObject field r.ref (rows - start) r.noOutputAbort
    return covered ++ whole
  | .samplingMask => wholeObject field r.ref rows r.noOutputAbort

end StoreResponse

/-- `StorePlan` -/
structure StorePlan where
  fields : Fields Segments
  ownedRefs : List StoreRef
  deriving DecidableEq, Repr

namespace StorePlan

/-- `from_response` -/
def fromResponse (r : StoreResponse) : Except StoreError StorePlan := do
  let fields ← Fields.build r.requested r.fieldFromRef
  return ⟨fields, r.ref.toList⟩

/-- `append_response` -/
def appendResponse (plan new : StorePlan) : Except StoreError StorePlan := do
  let fields ← plan.fields.zip new.fields Field.append
  return ⟨fields, unionRefs plan.ownedRefs new.ownedRefs⟩

/-- `insert_tokens` -/
def insertTokens (plan : StorePlan) (n : Nat) : StorePlan :=
  { plan with fields := plan.fields.map fun field segs => field.insert segs n }

/-- `merge_turn` -/
def mergeTurn (plan later : StorePlan) (observationTokens : Nat) : Except StoreError StorePlan :=
  (plan.insertTokens observationTokens).appendResponse later

/-- `strip_tail` -/
def stripTail (plan : StorePlan) (n : Nat) : StorePlan :=
  { plan with
    fields := plan.fields.map fun _ segs => segs.prefixRows ((numRows segs : Int) - n) }

/-- `_append_store_response`: the first response of a sample is its plan. -/
def appendStoreResponse (plan : Option StorePlan) (r : StoreResponse) :
    Except StoreError StorePlan := do
  let new ← fromResponse r
  match plan with
  | none => return new
  | some plan => plan.appendResponse new

end StorePlan

/-- The training columns of a sample's replay fields. -/
structure ReplayColumns where
  routedExperts : Option ForwardArray
  indexerTopk : Option ForwardArray
  samplingMask : Option MaskColumns
  deriving DecidableEq, Repr

/-- `StorePlan.materialize` -/
def StorePlan.materialize (plan : StorePlan) (objects : Objects) (responseTokens : List Int)
    (supportTopkCount : Nat) (indexerStreams : Option Nat) : Except StoreError ReplayColumns := do
  let forward := fun field : ForwardField =>
    plan.fields.get (.forward field) |>.mapM (field.materialize objects indexerStreams)
  let routedExperts ← forward .routedExperts
  let indexerTopk ← forward .indexerTopk
  let samplingMask ←
    plan.fields.samplingMask.mapM (materializeMask objects responseTokens supportTopkCount)
  return ⟨routedExperts, indexerTopk, samplingMask⟩

end Miles.Rollout
