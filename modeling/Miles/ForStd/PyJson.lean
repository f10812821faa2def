import Miles.ForStd.Except

/-!
# JSON values as Python handles them

A decoded JSON document is a Python value, and code that walks it meets an exception wherever the
value is not of the shape it expects.  Each operation here says which one.

`Returns` and `Escapes` say how a computation ends for a caller that handles some exceptions: with
a value, or with an exception the caller does not handle.  Their rules follow the order of
evaluation.
-/

/-! ## Values -/

/-- An IEEE double, as its bits. -/
abbrev Float64 := BitVec 64

/-- `math.isfinite` of a float: the exponent is not all ones. -/
def Float64.isFinite (x : Float64) : Bool := (x >>> 52) &&& 0x7ff ≠ 0x7ff

/-- What `json.loads` returns; an object lists its keys in order. -/
inductive PyJson where
  | null
  | bool (b : Bool)
  | int (n : Int)
  | float (x : Float64)
  | str (s : String)
  | arr (items : List PyJson)
  | obj (fields : List (String × PyJson))

/-! ## Exceptions -/

/-- Built-in exceptions. -/
inductive PyBuiltin where
  | key (key : String)
  | type
  | value
  | index
  | attribute
  | overflow
  | memory
  | importing
  deriving DecidableEq

/-- An exception: built in, or of a class of the program. -/
inductive PyError (ε : Type) where
  | builtin (e : PyBuiltin)
  | raised (e : ε)
  deriving DecidableEq

/-- What the walk below does not compute: texts, the values of conversions, and how long a list
    memory has room for. -/
structure PyRuntime where
  repr : PyJson → String
  message : PyBuiltin → String
  /-- the nearest double of an integer in range -/
  floatOfInt : Int → Float64
  floatOfStr : String → Option Float64
  listCapacity : Nat

/-- `str` of a value. -/
def PyRuntime.str (py : PyRuntime) : PyJson → String
  | .str s => s
  | v => py.repr v

namespace PyJson

variable {ε : Type}

/-! ## Operations -/

/-- `not v` -/
def truthy : PyJson → Bool
  | .null => false
  | .bool b => b
  | .int n => n ≠ 0
  -- both zeros are false
  | .float x => x <<< 1 ≠ 0
  | .str s => s ≠ ""
  | .arr items => !items.isEmpty
  | .obj fields => !fields.isEmpty

/-- The value an object holds under a key. -/
def field? : PyJson → String → Option PyJson
  | .obj fields, key => fields.lookup key
  | _, _ => none

/-- What iteration over a value yields, if it can be iterated over. -/
def elems? : PyJson → Option (List PyJson)
  | .arr items => some items
  | .obj fields => some (fields.map fun x => .str x.1)
  | .str s => some (s.toList.map fun c => .str (String.singleton c))
  | _ => none

def isNull : PyJson → Bool
  | .null => true
  | _ => false

def isObj : PyJson → Bool
  | .obj _ => true
  | _ => false

def isArr : PyJson → Bool
  | .arr _ => true
  | _ => false

/-- `v[key]` with a string key. -/
def getItem (v : PyJson) (key : String) : Except (PyError ε) PyJson :=
  match v with
  | .obj fields =>
    match fields.lookup key with
    | some x => .ok x
    | none => .error (.builtin (.key key))
  | _ => .error (.builtin .type)

/-- `v.get(key)` -/
def get (v : PyJson) (key : String) : Except (PyError ε) (Option PyJson) :=
  match v with
  | .obj fields => .ok (fields.lookup key)
  | _ => .error (.builtin .attribute)

/-- `v.items()` -/
def items (v : PyJson) : Except (PyError ε) (List (String × PyJson)) :=
  match v with
  | .obj fields => .ok fields
  | _ => .error (.builtin .attribute)

/-- `list(v)`, or what a loop over `v` runs through. -/
def iter (v : PyJson) : Except (PyError ε) (List PyJson) :=
  match v.elems? with
  | some xs => .ok xs
  | none => .error (.builtin .type)

/-- `len(v)` -/
def len (v : PyJson) : Except (PyError ε) Nat :=
  match v.elems? with
  | some xs => .ok xs.length
  | none => .error (.builtin .type)

/-- `(x,) = v` -/
def unpackOne (v : PyJson) : Except (PyError ε) PyJson :=
  match v.elems? with
  | some [x] => .ok x
  | some _ => .error (.builtin .value)
  | none => .error (.builtin .type)

/-- The integer a value stands for where an index or a count is expected. -/
def index? : PyJson → Option Int
  | .int n => some n
  | .bool b => some b.toInt
  | _ => none

/-- A machine word holds the integer. -/
def FitsWord (n : Int) : Prop := -2 ^ 63 ≤ n ∧ n < 2 ^ 63

instance (n : Int) : Decidable (FitsWord n) := inferInstanceAs (Decidable (_ ∧ _))

/-- `[x] * count` -/
def repeated (py : PyRuntime) (x count : PyJson) : Except (PyError ε) (List PyJson) :=
  match count.index? with
  | none => .error (.builtin .type)
  | some n =>
    if ¬ FitsWord n then .error (.builtin .overflow)
    else if py.listCapacity < n then .error (.builtin .memory)
    else .ok (List.replicate n.toNat x)

/-- The position an integer addresses in a list of this length, from the end if negative. -/
def position? (length : Nat) (n : Int) : Option Nat :=
  if 0 ≤ n ∧ n < length then some n.toNat
  else if n < 0 ∧ 0 ≤ n + length then some (n + length).toNat
  else none

/-- `xs[col] = value` -/
def setItem (xs : List PyJson) (col value : PyJson) : Except (PyError ε) (List PyJson) :=
  match col.index? with
  | none => .error (.builtin .type)
  | some n =>
    match position? xs.length n with
    | some i => .ok (xs.set i value)
    | none => .error (.builtin .index)

/-- The nearest double of the integer is finite. -/
def FitsFloat (n : Int) : Prop := n.natAbs < 2 ^ 1024 - 2 ^ 970

instance (n : Int) : Decidable (FitsFloat n) := inferInstanceAs (Decidable (_ < _))

/-- `float(v)` -/
def toFloat (py : PyRuntime) (v : PyJson) : Except (PyError ε) Float64 :=
  match v with
  | .int n => if FitsFloat n then .ok (py.floatOfInt n) else .error (.builtin .overflow)
  | .bool b => .ok (py.floatOfInt b.toInt)
  | .float x => .ok x
  | .str s =>
    match py.floatOfStr s with
    | some x => .ok x
    | none => .error (.builtin .value)
  | _ => .error (.builtin .type)

/-- `type(v).__name__` -/
def typeName : PyJson → String
  | .null => "NoneType"
  | .bool _ => "bool"
  | .int _ => "int"
  | .float _ => "float"
  | .str _ => "str"
  | .arr _ => "list"
  | .obj _ => "dict"

end PyJson

/-! ## How a loop ends -/

namespace List

variable {α β : Type}

/-- The loop passes its first elements and stops at one. -/
def FirstAt (xs : List α) (ok stop : α → Prop) : Prop :=
  ∃ before x after, xs = before ++ x :: after ∧ (∀ y ∈ before, ok y) ∧ stop x

variable {ok stop : α → Prop}

theorem firstAt_nil : ¬ FirstAt [] ok stop := by
  rintro ⟨before, x, after, h, -⟩
  simp at h

theorem firstAt_cons {x : α} {xs : List α} :
    FirstAt (x :: xs) ok stop ↔ stop x ∨ ok x ∧ FirstAt xs ok stop := by
  constructor
  · rintro ⟨before, y, after, h, hok, hstop⟩
    cases before with
    | nil =>
      obtain ⟨rfl, -⟩ := List.cons.inj h
      exact .inl hstop
    | cons z before =>
      obtain ⟨rfl, hxs⟩ := List.cons.inj h
      exact .inr ⟨hok x (by simp), before, y, after, hxs, fun w hw => hok w (by simp [hw]), hstop⟩
  · rintro (hstop | ⟨hok, before, y, after, rfl, hbefore, hstop⟩)
    · exact ⟨[], x, xs, rfl, by simp, hstop⟩
    · refine ⟨x :: before, y, after, rfl, ?_, hstop⟩
      intro w hw
      rcases List.mem_cons.mp hw with rfl | hw
      · exact hok
      · exact hbefore w hw

theorem firstAt_append {xs ys : List α} :
    FirstAt (xs ++ ys) ok stop ↔ FirstAt xs ok stop ∨ (∀ x ∈ xs, ok x) ∧ FirstAt ys ok stop := by
  induction xs with
  | nil => simp [firstAt_nil]
  | cons x xs ih =>
    rw [cons_append, firstAt_cons, firstAt_cons, ih, forall_mem_cons]
    tauto

/-- A loop inside a loop runs through all inner elements. -/
theorem firstAt_flatMap {xs : List β} {f : β → List α} :
    FirstAt (xs.flatMap f) ok stop ↔
      FirstAt xs (fun x => ∀ y ∈ f x, ok y) (fun x => FirstAt (f x) ok stop) := by
  induction xs with
  | nil => simp [firstAt_nil]
  | cons x xs ih => rw [flatMap_cons, firstAt_append, firstAt_cons, ih]

theorem firstAt_map {xs : List β} {f : β → α} :
    FirstAt (xs.map f) ok stop ↔ FirstAt xs (fun x => ok (f x)) (fun x => stop (f x)) := by
  induction xs with
  | nil => simp [firstAt_nil]
  | cons x xs ih => rw [map_cons, firstAt_cons, firstAt_cons, ih]

end List

/-! ## How a computation ends -/

namespace Except

variable {ε α β : Type}

/-- The computation ends with a value. -/
def Returns (x : Except ε α) : Prop := ∃ a, x = .ok a

/-- An exception that the caller does not handle leaves the computation. -/
def Escapes (handled : ε → Bool) (x : Except ε α) : Prop := ∃ e, x = .error e ∧ handled e = false

variable {handled : ε → Bool}

@[simp] theorem returns_ok (a : α) : (Except.ok a : Except ε α).Returns := ⟨a, rfl⟩

@[simp] theorem returns_pure (a : α) : (pure a : Except ε α).Returns := ⟨a, rfl⟩

@[simp] theorem not_returns_error (e : ε) : ¬ (Except.error e : Except ε α).Returns :=
  fun ⟨_, h⟩ => nomatch h

@[simp] theorem not_escapes_ok (a : α) : ¬ (Except.ok a : Except ε α).Escapes handled :=
  fun ⟨_, h, _⟩ => nomatch h

@[simp] theorem not_escapes_pure (a : α) : ¬ (pure a : Except ε α).Escapes handled :=
  fun ⟨_, h, _⟩ => nomatch h

@[simp] theorem escapes_error (e : ε) :
    (Except.error e : Except ε α).Escapes handled ↔ handled e = false := by
  constructor
  · rintro ⟨e', he, hh⟩
    cases he
    exact hh
  · exact fun h => ⟨e, rfl, h⟩

variable {f : α → Except ε β}

theorem returns_bind {x : Except ε α} :
    (x >>= f).Returns ↔ ∃ a, x = .ok a ∧ (f a).Returns := by
  constructor
  · rintro ⟨b, h⟩
    obtain ⟨a, hx, hf⟩ := bind_eq_ok.mp h
    exact ⟨a, hx, b, hf⟩
  · rintro ⟨a, hx, b, hf⟩
    exact ⟨b, bind_eq_ok.mpr ⟨a, hx, hf⟩⟩

/-- A chain lets an exception through when its first step does, or the rest does after it. -/
theorem escapes_bind {x : Except ε α} :
    (x >>= f).Escapes handled ↔ x.Escapes handled ∨ ∃ a, x = .ok a ∧ (f a).Escapes handled := by
  constructor
  · rintro ⟨e, h, hh⟩
    rcases bind_eq_error.mp h with hx | ⟨a, hx, hf⟩
    · exact .inl ⟨e, hx, hh⟩
    · exact .inr ⟨a, hx, e, hf, hh⟩
  · rintro (⟨e, hx, hh⟩ | ⟨a, hx, e, hf, hh⟩)
    · exact ⟨e, bind_eq_error.mpr (.inl hx), hh⟩
    · exact ⟨e, bind_eq_error.mpr (.inr ⟨a, hx, hf⟩), hh⟩

theorem not_escapes_bind {x : Except ε α} (hx : ¬ x.Escapes handled)
    (hf : ∀ a, ¬ (f a).Escapes handled) : ¬ (x >>= f).Escapes handled := by
  rw [escapes_bind]
  rintro (h | ⟨a, -, h⟩)
  · exact hx h
  · exact hf a h

theorem returns_mapM {xs : List α} :
    (xs.mapM f).Returns ↔ ∀ x ∈ xs, (f x).Returns := by
  induction xs with
  | nil => simp [List.mapM_nil]
  | cons x xs ih =>
    rw [List.mapM_cons, returns_bind]
    simp only [returns_bind, returns_pure, and_true, List.forall_mem_cons, ← ih]
    exact ⟨fun ⟨a, hx, b, hb⟩ => ⟨⟨a, hx⟩, b, hb⟩, fun ⟨⟨a, hx⟩, b, hb⟩ => ⟨a, hx, b, hb⟩⟩

theorem escapes_mapM {xs : List α} :
    (xs.mapM f).Escapes handled ↔
      xs.FirstAt (fun x => (f x).Returns) (fun x => (f x).Escapes handled) := by
  induction xs with
  | nil => simp [List.mapM_nil, List.firstAt_nil]
  | cons x xs ih =>
    rw [List.mapM_cons, escapes_bind, List.firstAt_cons, ← ih]
    refine or_congr_right ?_
    simp only [escapes_bind, not_escapes_pure, and_false, exists_false, or_false]
    exact ⟨fun ⟨a, hx, h⟩ => ⟨⟨a, hx⟩, h⟩, fun ⟨⟨a, hx⟩, h⟩ => ⟨a, hx, h⟩⟩

theorem returns_forM {xs : List α} {f : α → Except ε Unit} :
    (xs.forM f).Returns ↔ ∀ x ∈ xs, (f x).Returns := by
  induction xs with
  | nil => exact ⟨fun _ x hx => absurd hx (by simp), fun _ => ⟨(), rfl⟩⟩
  | cons x xs ih =>
    show (f x >>= fun _ => xs.forM f).Returns ↔ _
    rw [returns_bind, List.forall_mem_cons, ← ih]
    exact ⟨fun ⟨a, hx, h⟩ => ⟨⟨a, hx⟩, h⟩, fun ⟨⟨a, hx⟩, h⟩ => ⟨a, hx, h⟩⟩

theorem escapes_forM {xs : List α} {f : α → Except ε Unit} :
    (xs.forM f).Escapes handled ↔
      xs.FirstAt (fun x => (f x).Returns) (fun x => (f x).Escapes handled) := by
  induction xs with
  | nil => exact ⟨fun ⟨e, h, _⟩ => (nomatch h), fun h => absurd h List.firstAt_nil⟩
  | cons x xs ih =>
    show (f x >>= fun _ => xs.forM f).Escapes handled ↔ _
    rw [escapes_bind, List.firstAt_cons, ← ih]
    refine or_congr_right ?_
    exact ⟨fun ⟨a, hx, h⟩ => ⟨⟨a, hx⟩, h⟩, fun ⟨⟨a, hx⟩, h⟩ => ⟨a, hx, h⟩⟩

end Except

/-! ## How the operations end -/

namespace PyJson

variable {ε : Type} {handled : PyError ε → Bool} {v x : PyJson} {key : String}

/-- The elements of the list that an object holds under a key. -/
def listAt? (v : PyJson) (key : String) : Option (List PyJson) := (v.field? key).bind elems?

theorem isObj_eq_true : v.isObj = true ↔ ∃ fields, v = .obj fields := by cases v <;> simp [isObj]

theorem getItem_eq_ok : (v.getItem key : Except (PyError ε) PyJson) = .ok x ↔
    v.field? key = some x := by
  cases v with
  | obj fields =>
    cases h : fields.lookup key <;> simp [getItem, field?, h]
  | _ => simp [getItem, field?]

theorem not_escapes_getItem (hkey : ∀ k, handled (.builtin (.key k)) = true)
    (htype : handled (.builtin .type) = true) : ¬ (v.getItem key).Escapes handled := by
  cases v with
  | obj fields =>
    cases h : fields.lookup key <;> simp [getItem, h, hkey]
  | _ => simp [getItem, htype]

theorem get_eq_ok {o : Option PyJson} : (v.get key : Except (PyError ε) _) = .ok o ↔
    v.isObj = true ∧ v.field? key = o := by
  cases v <;> simp [get, isObj, field?]

theorem escapes_get (hattribute : handled (.builtin .attribute) = false) :
    (v.get key).Escapes handled ↔ v.isObj = false := by
  cases v <;> simp [get, isObj, hattribute]

theorem items_eq_ok {fields : List (String × PyJson)} :
    (v.items : Except (PyError ε) _) = .ok fields ↔ v = .obj fields := by
  cases v <;> simp [items]

theorem escapes_items (hattribute : handled (.builtin .attribute) = false) :
    v.items.Escapes handled ↔ v.isObj = false := by
  cases v <;> simp [items, isObj, hattribute]

theorem iter_eq_ok {xs : List PyJson} : (v.iter : Except (PyError ε) _) = .ok xs ↔
    v.elems? = some xs := by
  unfold iter
  cases v.elems? <;> simp

theorem not_escapes_iter (htype : handled (.builtin .type) = true) :
    ¬ v.iter.Escapes handled := by
  unfold iter
  cases v.elems? <;> simp [htype]

theorem len_eq_ok {n : Nat} : (v.len : Except (PyError ε) _) = .ok n ↔
    ∃ xs, v.elems? = some xs ∧ xs.length = n := by
  unfold len
  cases v.elems? <;> simp

theorem not_escapes_len (htype : handled (.builtin .type) = true) : ¬ v.len.Escapes handled := by
  unfold len
  cases v.elems? <;> simp [htype]

theorem unpackOne_eq_ok : (v.unpackOne : Except (PyError ε) _) = .ok x ↔ v.elems? = some [x] := by
  unfold unpackOne
  split <;> simp_all

theorem not_escapes_unpackOne (htype : handled (.builtin .type) = true)
    (hvalue : handled (.builtin .value) = true) : ¬ v.unpackOne.Escapes handled := by
  unfold unpackOne
  split <;> simp [htype, hvalue]

theorem repeated_eq_ok {py : PyRuntime} {count : PyJson} {xs : List PyJson} :
    (repeated py x count : Except (PyError ε) _) = .ok xs ↔
      ∃ n, count.index? = some n ∧ FitsWord n ∧ n ≤ py.listCapacity ∧
        xs = List.replicate n.toNat x := by
  unfold repeated
  cases count.index? with
  | none => simp
  | some n =>
    dsimp only
    split
    · rename_i hword
      simp [hword]
    · rename_i hword
      split
      · rename_i hroom
        simp only [reduceCtorEq, Option.some.injEq, false_iff]
        rintro ⟨m, rfl, -, hle, -⟩
        omega
      · rename_i hroom
        simp only [Except.ok.injEq, Option.some.injEq]
        constructor
        · rintro rfl
          exact ⟨n, rfl, not_not.mp hword, by omega, rfl⟩
        · rintro ⟨m, rfl, -, -, rfl⟩
          rfl

/-- A list is not repeated too often, or more often than memory has room for. -/
theorem escapes_repeated {py : PyRuntime} {count : PyJson}
    (htype : handled (.builtin .type) = true) (hoverflow : handled (.builtin .overflow) = false)
    (hmemory : handled (.builtin .memory) = false) :
    (repeated py x count).Escapes handled ↔
      ∃ n, count.index? = some n ∧ (¬ FitsWord n ∨ py.listCapacity < n) := by
  unfold repeated
  cases count.index? with
  | none => simp [htype]
  | some n =>
    dsimp only
    split
    · rename_i hword
      simp [hword, hoverflow]
    · rename_i hword
      split
      · rename_i hroom
        simp [hmemory, hroom]
      · rename_i hroom
        simp [hword, hroom]

theorem position?_isSome {length : Nat} {n : Int} :
    (position? length n).isSome = true ↔ -length ≤ n ∧ n < length := by
  unfold position?
  split
  · simp; omega
  · split
    · simp; omega
    · simp; omega

theorem setItem_eq_ok {xs ys : List PyJson} {col value : PyJson} :
    (setItem xs col value : Except (PyError ε) _) = .ok ys ↔
      ∃ n i, col.index? = some n ∧ position? xs.length n = some i ∧ ys = xs.set i value := by
  unfold setItem
  cases col.index? with
  | none => simp
  | some n =>
    cases h : position? xs.length n with
    | none => simp [h]
    | some i => simp [h, eq_comm]

theorem not_escapes_setItem {xs : List PyJson} {col value : PyJson}
    (htype : handled (.builtin .type) = true) (hindex : handled (.builtin .index) = true) :
    ¬ (setItem xs col value).Escapes handled := by
  unfold setItem
  split
  · simp [htype]
  · split <;> simp [hindex]

/-- The value converts to a float. -/
def IsNumeric (py : PyRuntime) : PyJson → Prop
  | .int n => FitsFloat n
  | .bool _ | .float _ => True
  | .str s => (py.floatOfStr s).isSome = true
  | _ => False

/-- An integer beyond the range of floats. -/
def IsHuge : PyJson → Prop
  | .int n => ¬ FitsFloat n
  | _ => False

theorem returns_toFloat {py : PyRuntime} :
    (v.toFloat py : Except (PyError ε) _).Returns ↔ v.IsNumeric py := by
  cases v with
  | int n =>
    by_cases h : FitsFloat n <;> simp [toFloat, IsNumeric, h]
  | str s =>
    cases h : py.floatOfStr s <;> simp [toFloat, IsNumeric, h]
  | _ => simp [toFloat, IsNumeric]

theorem escapes_toFloat {py : PyRuntime} (htype : handled (.builtin .type) = true)
    (hvalue : handled (.builtin .value) = true) (hoverflow : handled (.builtin .overflow) = false) :
    (v.toFloat py).Escapes handled ↔ v.IsHuge := by
  cases v with
  | int n =>
    by_cases h : FitsFloat n <;> simp [toFloat, IsHuge, h, hoverflow]
  | str s =>
    cases h : py.floatOfStr s <;> simp [toFloat, IsHuge, h, hvalue]
  | _ => simp [toFloat, IsHuge, htype]

end PyJson
