import Miles.ForStd.JsonText

/-!
# Message matchers

Pure Lean model of `utils/chat_template_utils/message_matcher_hub`: the strict comparison of two
messages, and the loose one, which also accepts equivalent JSON spellings of tool-call arguments.

A comparison that goes too deep raises `RecursionError`, here `none`; `_tag_json_value`,
`json.loads` and `_raw_values_match` have their own bounds, and their callers handle it.
-/

namespace Miles.MessageMatcher

/-- The interpreter: how deep each walk may go, and the number that `str` of a finite float of a
    value spells. -/
structure Runtime where
  compareLimit : Nat
  scanLimit : Nat
  tagLimit : Nat
  rawLimit : Nat
  reprValue : ℚ → ℚ

/-- A decoded JSON message: dictionaries have distinct keys, and JSON has no NaN. -/
structure Message where
  fields : PyDict String PyJson
  distinctKeys : ∀ f ∈ fields.items, f.2.DistinctKeys
  nanFree : ∀ f ∈ fields.items, f.2.NanFree

/-- `message.get(key)` -/
def Message.get (m : Message) (key : String) : PyJson := m.fields.getD key .null

/-! ## Normalization -/

/-- `_TEMPLATE_RELEVANT_KEYS` -/
def templateRelevantKeys : List String := ["role", "content", "reasoning_content", "tool_calls"]

/-- `_WIRE_ONLY_TOOL_CALL_KEYS` -/
def wireOnlyToolCallKeys : List String := ["index"]

/-- Normalize falsy sentinels that produce identical Jinja2 output. -/
def normalizeValue : PyJson → PyJson
  | .str s => if s = "" then .null else .str s
  | .arr items => if items.isEmpty then .null else .arr items
  | v => v

/-- The pairs of a tool call that templates read. -/
def projectCall (fields : List (String × PyJson)) : List (String × PyJson) :=
  fields.filter fun f => f.1 ∉ wireOnlyToolCallKeys

def projectElement : PyJson → PyJson
  | .obj fields => .obj (projectCall fields)
  | v => v

/-- Project tool_calls down to template-relevant content for comparison. -/
def normalizeToolCalls : PyJson → PyJson
  | .arr calls => .arr (calls.map projectElement)
  | v => v

/-! ## Parsed arguments -/

/-- A Python value: decoded JSON, or what the hooks of `json.loads` build, with exact decimals. -/
inductive PyValue where
  | null
  | bool (b : Bool)
  | int (n : Int)
  | float (x : Float64)
  | decimal (q : ℚ)
  | str (s : List Nat)
  | arr (items : List PyValue)
  | obj (fields : List (List Nat × PyValue))

/-- The code points of a text. -/
def codePoints (s : String) : List Nat := s.toList.map Char.toNat

namespace PyValue

def isObj : PyValue → Bool
  | .obj _ => true
  | _ => false

mutual

/-- A decoded JSON value. -/
def ofJson : PyJson → PyValue
  | .null => .null
  | .bool b => .bool b
  | .int n => .int n
  | .float x => .float x
  | .str s => .str (codePoints s)
  | .arr items => .arr (ofItems items)
  | .obj fields => .obj (ofFields fields)

def ofItems : List PyJson → List PyValue
  | [] => []
  | v :: items => ofJson v :: ofItems items

def ofFields : List (String × PyJson) → List (List Nat × PyValue)
  | [] => []
  | (key, v) :: fields => (codePoints key, ofJson v) :: ofFields fields

end

/-- `Decimal(raw)`: exact, within the exponents that a decimal may have. -/
def decimal? (raw : JsonNumber) : Option ℚ :=
  let adjusted := raw.exponent + (max raw.digits 1 : Nat) - 1
  if -1999999999999999997 ≤ raw.exponent ∧ adjusted ≤ 999999999999999999 then some raw.value
  else none

mutual

/-- What the hooks build of a text: exact numbers, no constants, no duplicate keys. -/
def construct : JsonText → Option PyValue
  | .null => some .null
  | .bool b => some (.bool b)
  | .number raw => (decimal? raw).map .decimal
  | .constant _ => none
  | .str s => some (.str s)
  | .arr items => (constructItems items).map .arr
  | .obj members =>
    match constructMembers members with
    | some fields => if (fields.map Prod.fst).Nodup then some (.obj fields) else none
    | none => none

def constructItems : List JsonText → Option (List PyValue)
  | [] => some []
  | t :: items =>
    match construct t, constructItems items with
    | some v, some vs => some (v :: vs)
    | _, _ => none

def constructMembers : List (List Nat × JsonText) → Option (List (List Nat × PyValue))
  | [] => some []
  | (key, t) :: members =>
    match construct t, constructMembers members with
    | some v, some fields => some ((key, v) :: fields)
    | _, _ => none

end

/-- `json.loads` with these hooks. -/
def loads (rt : Runtime) (text : String) : Option PyValue :=
  (JsonText.scan rt.scanLimit text).bind construct

end PyValue

/-! ## The tagged form -/

/-- A type-tagged, key-sorted form. -/
inductive Tagged where
  | null
  | boolean (b : Bool)
  | string (s : List Nat)
  | number (q : ℚ)
  | array (items : List Tagged)
  | object (fields : List (List Nat × Tagged))

/-- `sorted(pairs)`: the keys are distinct, so they alone say the order. -/
def sortPairs (pairs : List (List Nat × Tagged)) : List (List Nat × Tagged) :=
  pairs.insertionSort fun x y => x.1 ≤ y.1

/-- Convert a parsed JSON value into a type-tagged, key-sorted form; none where it raises. -/
def tagJsonValue (rt : Runtime) (allowDecimal : Bool) : Nat → PyValue → Option Tagged
  | _, .null => some .null
  | _, .bool b => some (.boolean b)
  | _, .str s => some (.string s)
  | _, .int n => some (.number n)
  | _, .float x =>
    match x.value with
    | .fin q => some (.number (rt.reprValue q))
    | _ => none
  | _, .decimal q => if allowDecimal then some (.number q) else none
  | 0, _ => none
  | n + 1, .arr items => (items.mapM (tagJsonValue rt allowDecimal n)).map .array
  | n + 1, .obj fields =>
    (fields.mapM fun f => (tagJsonValue rt allowDecimal n f.2).map fun t => (f.1, t)).map
      fun pairs => .object (sortPairs pairs)

/-- Normalize an `arguments` value to a comparable JSON-object form; none for
    `_INVALID_JSON_OBJECT`. -/
def normalizeJsonObject (rt : Runtime) : PyJson → Option Tagged
  | .null => some (.object [])
  | .str text =>
    if text = "" then some (.object [])
    else
      match PyValue.loads rt text with
      | some parsed => if parsed.isObj then tagJsonValue rt true rt.tagLimit parsed else none
      | none => none
  | .obj fields => tagJsonValue rt false rt.tagLimit (.ofJson (.obj fields))
  | _ => none

mutual

/-- `==` of two tagged forms -/
def Tagged.eq (t u : Tagged) : Bool :=
  match t, u with
  | .null, .null => true
  | .boolean b, .boolean c => b = c
  | .string s, .string s' => s = s'
  | .number q, .number r => q = r
  | .array items, .array others => Tagged.eqItems items others
  | .object fields, .object others => Tagged.eqFields fields others
  | _, _ => false

def Tagged.eqItems (items others : List Tagged) : Bool :=
  match items, others with
  | [], [] => true
  | t :: items, u :: others => Tagged.eq t u && Tagged.eqItems items others
  | _, _ => false

def Tagged.eqFields (fields others : List (List Nat × Tagged)) : Bool :=
  match fields, others with
  | [], [] => true
  | (key, t) :: fields, (key', u) :: others =>
    key = key' && Tagged.eq t u && Tagged.eqFields fields others
  | _, _ => false

end

/-! ## Comparisons -/

/-- `fields.keys() == others.keys()` -/
def sameKeys (fields others : List (String × PyJson)) : Bool :=
  (fields.all fun f => (others.lookup f.1).isSome) && others.all fun f => (fields.lookup f.1).isSome

/-- Type-sensitive structural equality for non-normalizable values. -/
def rawValuesMatch : Nat → PyJson → PyJson → Bool
  | n, .arr items, w =>
    match n, w with
    | n + 1, .arr others =>
      items.length = others.length && (items.zip others).all fun x => rawValuesMatch n x.1 x.2
    | _, _ => false
  | n, .obj fields, w =>
    match n, w with
    | n + 1, .obj others =>
      sameKeys fields others &&
        fields.all fun f =>
          match others.lookup f.1 with
          | some w => rawValuesMatch n f.2 w
          | none => false
    | _, _ => false
  | _, v, w => v.typeName = w.typeName && v.pyEq w

def argumentsMatch (rt : Runtime) (stored replayed : PyJson) : Bool :=
  match normalizeJsonObject rt stored, normalizeJsonObject rt replayed with
  | some t, some u => t.eq u
  | _, _ => rawValuesMatch rt.rawLimit stored replayed

/-- Two dictionaries have the same keys, and a comparison for each key accepts their values. -/
def fieldsMatch (compare : String → PyJson → PyJson → Option Bool)
    (fields others : List (String × PyJson)) : Option Bool :=
  if sameKeys fields others then
    fields.allM fun f =>
      match others.lookup f.1 with
      | some w => compare f.1 f.2 w
      | none => some false
  else some false

/-- The comparison of a function's fields. -/
def compareFunctionField (rt : Runtime) (key : String) (v w : PyJson) : Option Bool :=
  if key = "arguments" then some (argumentsMatch rt v w) else v.eqWithin rt.compareLimit w

def functionsMatch (rt : Runtime) (stored replayed : PyJson) : Option Bool :=
  match stored, replayed with
  | .obj fields, .obj others => fieldsMatch (compareFunctionField rt) fields others
  | _, _ => some (rawValuesMatch rt.rawLimit stored replayed)

/-- The comparison of a call's fields. -/
def compareCallField (rt : Runtime) (key : String) (v w : PyJson) : Option Bool :=
  if key = "function" then functionsMatch rt v w else v.eqWithin rt.compareLimit w

def toolCallMatches (rt : Runtime) (stored replayed : PyJson) : Option Bool :=
  match stored, replayed with
  | .obj fields, .obj others =>
    fieldsMatch (compareCallField rt) (projectCall fields) (projectCall others)
  | _, _ => some (rawValuesMatch rt.rawLimit stored replayed)

/-! ## Matchers -/

/-- A field as the strict comparison sees it. -/
def strictValue (m : Message) (key : String) : PyJson :=
  let v := normalizeValue (m.get key)
  if key = "tool_calls" then normalizeToolCalls v else v

/-- Compare only the fields that affect chat-template tokenization. -/
def strictMessageMatches (rt : Runtime) (stored new : Message) : Option Bool :=
  templateRelevantKeys.allM fun key =>
    (strictValue stored key).eqWithin rt.compareLimit (strictValue new key)

/-- The tool calls of two messages that are not strictly equal. -/
def toolCallsMatch (rt : Runtime) (stored replayed : PyJson) : Option Bool :=
  match stored, replayed with
  | .arr calls, .arr others =>
    if calls.length = others.length then
      (calls.zip others).allM fun x => toolCallMatches rt x.1 x.2
    else some false
  | _, _ => some (rawValuesMatch rt.rawLimit stored replayed)

/-- The part of the loose comparison after the strict one. -/
def equivalentMessages (rt : Runtime) (stored replayed : Message) : Option Bool := do
  let sameText ← ["role", "content", "reasoning_content"].allM fun key =>
    (normalizeValue (stored.get key)).eqWithin rt.compareLimit (normalizeValue (replayed.get key))
  if sameText then
    toolCallsMatch rt (normalizeValue (stored.get "tool_calls"))
      (normalizeValue (replayed.get "tool_calls"))
  else some false

/-- Match strict messages plus equivalent JSON-object tool arguments. -/
def looseToolCallMessageMatches (rt : Runtime) (stored replayed : Message) : Option Bool :=
  match strictMessageMatches rt stored replayed with
  | some true => some true
  -- a strict comparison that goes too deep is not a match
  | _ => equivalentMessages rt stored replayed

end Miles.MessageMatcher
