import Miles.ForStd.Except
import Miles.ForStd.PyDict

/-!
# Weight bucketing

Pure Lean model of `hf_weight_iterator/bucketing.py`: units of named tensors are merged into atomic
update groups, and the units that come out are packed into buckets by size.
-/

namespace Miles.Bucketing

variable {Tensor : Type}

/-- The named tensors that one parameter converted into -/
abbrev HfUnit (Tensor : Type) := List (String × Tensor)

structure AtomicUpdateGroup where
  key : String
  suffixes : List String
  optional : Bool := false
deriving DecidableEq

/-- The assertions, with what their messages name -/
inductive AssembleError where
  | noSuffixes (key : String)
  | emptySuffix (key : String)
  | duplicateSuffixes (key : String)
  | duplicateKeys (keys : List String)
  | multipleMatches (names : List String)
  | duplicateMember (name : String)
  | incomplete (pending : List (String × String))
  | unmatched (key : String) (suffixes : List String)
deriving DecidableEq

/-! ## Atomic update groups -/

/-- A name of a unit that ends with a suffix of a group. -/
structure SuffixMatch where
  group : AtomicUpdateGroup
  suffixIdx : Nat
  suffix : String
  name : String
deriving DecidableEq

/-- `name[: -len(suffix)]` -/
def SuffixMatch.namePrefix (m : SuffixMatch) : String :=
  String.ofList (m.name.toList.take (m.name.toList.length - m.suffix.toList.length))

/-- The `matches` of a unit, in the order of the comprehension. -/
def suffixMatches (groups : List AtomicUpdateGroup) (unit : HfUnit Tensor) : List SuffixMatch :=
  unit.flatMap fun named => groups.flatMap fun group =>
    group.suffixes.zipIdx.filterMap fun suffix =>
      if suffix.1.toList <:+ named.1.toList then some ⟨group, suffix.2, suffix.1, named.1⟩ else none

/-- The slots of a group that waits for its other members -/
abbrev Slots (Tensor : Type) := List (Option (HfUnit Tensor))

structure AssembleState (Tensor : Type) where
  pending : PyDict (String × String) (Slots Tensor) := .empty
  matchedGroupKeys : List String := []
  /-- What was yielded. -/
  emitted : List (HfUnit Tensor) := []

/-- A slot is filled; the group is yielded when none is left. -/
def fillSlot (state : AssembleState Tensor) (m : SuffixMatch) (unit : HfUnit Tensor)
    (slots : Slots Tensor) : AssembleState Tensor :=
  let key := (m.namePrefix, m.group.key)
  let slots := slots.set m.suffixIdx (some unit)
  match slots.mapM id with
  | some members =>
    { pending := state.pending.erase key
      matchedGroupKeys := m.group.key :: state.matchedGroupKeys
      emitted := state.emitted ++ [members.flatten] }
  | none =>
    { pending := state.pending.set key slots
      matchedGroupKeys := m.group.key :: state.matchedGroupKeys
      emitted := state.emitted }

/-- A unit that matches one group suffix -/
def addMember (state : AssembleState Tensor) (m : SuffixMatch) (unit : HfUnit Tensor) :
    Except AssembleError (AssembleState Tensor) :=
  let slots := state.pending.getD (m.namePrefix, m.group.key)
    (List.replicate m.group.suffixes.length none)
  match slots[m.suffixIdx]? with
  | some none => .ok (fillSlot state m unit slots)
  | _ => .error (.duplicateMember m.name)

/-- One unit of the stream -/
def assembleUnit (groups : List AtomicUpdateGroup) (state : AssembleState Tensor)
    (unit : HfUnit Tensor) : Except AssembleError (AssembleState Tensor) :=
  if unit.isEmpty then .ok state
  else
    match suffixMatches groups unit with
    | [] => .ok { state with emitted := state.emitted ++ [unit] }
    | [m] => addMember state m unit
    | _ => .error (.multipleMatches (unit.map Prod.fst))

/-- The checks of one group -/
def checkGroup (group : AtomicUpdateGroup) : Except AssembleError Unit := do
  Except.ensure (group.suffixes ≠ []) (.noSuffixes group.key)
  Except.ensure (∀ suffix ∈ group.suffixes, suffix ≠ "") (.emptySuffix group.key)
  Except.ensure group.suffixes.Nodup (.duplicateSuffixes group.key)

/-- The checks before the stream -/
def checkGroups (groups : List AtomicUpdateGroup) : Except AssembleError Unit := do
  groups.forM checkGroup
  Except.ensure (groups.map AtomicUpdateGroup.key).Nodup
    (.duplicateKeys (groups.map AtomicUpdateGroup.key))

/-- The order in which the pending groups are printed -/
def keyLe (a b : String × String) : Bool := a.1 < b.1 ∨ (a.1 = b.1 ∧ a.2 ≤ b.2)

/-- The checks at the end of the stream -/
def checkEnd (groups : List AtomicUpdateGroup) (state : AssembleState Tensor) :
    Except AssembleError Unit := do
  Except.ensure (state.pending.keys = []) (.incomplete (state.pending.keys.mergeSort keyLe))
  groups.forM fun group =>
    Except.ensure (group.optional ∨ group.key ∈ state.matchedGroupKeys)
      (.unmatched group.key group.suffixes)

/-- `assemble_atomic_update_groups`, what it yields when it finishes -/
def assembleAtomicUpdateGroups (hfParamUnits : List (HfUnit Tensor))
    (groups : List AtomicUpdateGroup) : Except AssembleError (List (HfUnit Tensor)) := do
  checkGroups groups
  let state ← hfParamUnits.foldlM (assembleUnit groups) {}
  checkEnd groups state
  return state.emitted

/-! ## Packing -/

structure PackState (Tensor : Type) where
  /-- What was yielded. -/
  emitted : List (HfUnit Tensor) := []
  bucket : HfUnit Tensor := []
  bucketSize : Nat := 0

/-- `sum(tensor.nbytes for _name, tensor in unit)` -/
def unitSize (nbytes : Tensor → Nat) (unit : HfUnit Tensor) : Nat :=
  (unit.map fun named => nbytes named.2).sum

/-- One unit of the stream -/
def packUnit (nbytes : Tensor → Nat) (maxBytes : Int) (state : PackState Tensor)
    (unit : HfUnit Tensor) : PackState Tensor :=
  if state.bucket ≠ [] ∧ maxBytes ≤ state.bucketSize + unitSize nbytes unit then
    { emitted := state.emitted ++ [state.bucket], bucket := unit, bucketSize := unitSize nbytes unit }
  else
    { emitted := state.emitted
      bucket := state.bucket ++ unit
      bucketSize := state.bucketSize + unitSize nbytes unit }

/-- `pack_units_by_size` -/
def packUnitsBySize (nbytes : Tensor → Nat) (hfParamUnits : List (HfUnit Tensor)) (maxBytes : Int) :
    List (HfUnit Tensor) :=
  let state := hfParamUnits.foldl (packUnit nbytes maxBytes) {}
  if state.bucket ≠ [] then state.emitted ++ [state.bucket] else state.emitted

end Miles.Bucketing
