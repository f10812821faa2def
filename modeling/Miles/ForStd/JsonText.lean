import Miles.ForStd.PyEq

/-!
# JSON texts

What Python's `json` scanner reads: the syntax of a text, before its numbers are converted and its
objects are built, so that the hooks of `json.loads` can be applied to it.

A string is a list of code points, since an escape may spell a lone surrogate.  The scanner
recurses for every array and object; `stack` is how deep it may go before it raises
`RecursionError`.
-/

/-- A number as it is written: `coefficient * 10 ^ exponent`, with that many digits. -/
structure JsonNumber where
  negative : Bool
  digits : Nat
  coefficient : Nat
  exponent : Int
  deriving DecidableEq

/-- The syntax of a JSON text; an object lists its members in order. -/
inductive JsonText where
  | null
  | bool (b : Bool)
  | number (raw : JsonNumber)
  /-- `NaN`, `Infinity` or `-Infinity` -/
  | constant (name : String)
  | str (s : List Nat)
  | arr (items : List JsonText)
  | obj (members : List (List Nat × JsonText))

namespace JsonNumber

/-- The number that is written. -/
def value (n : JsonNumber) : ℚ :=
  let magnitude :=
    if 0 ≤ n.exponent then mkRat (n.coefficient * 10 ^ n.exponent.toNat : Nat) 1
    else mkRat n.coefficient (10 ^ (-n.exponent).toNat)
  if n.negative then -magnitude else magnitude

end JsonNumber

namespace JsonText

/-! ## Scanning -/

/-- `[ \t\n\r]*` -/
def skipWhitespace : List Char → List Char
  | [] => []
  | c :: cs => if c = ' ' ∨ c = '\t' ∨ c = '\n' ∨ c = '\r' then skipWhitespace cs else c :: cs

def hexDigit? (c : Char) : Option Nat :=
  if '0' ≤ c ∧ c ≤ '9' then some (c.toNat - '0'.toNat)
  else if 'a' ≤ c ∧ c ≤ 'f' then some (c.toNat - 'a'.toNat + 10)
  else if 'A' ≤ c ∧ c ≤ 'F' then some (c.toNat - 'A'.toNat + 10)
  else none

def hex4? (a b c d : Char) : Option Nat := do
  return (((← hexDigit? a) * 16 + (← hexDigit? b)) * 16 + (← hexDigit? c)) * 16 + (← hexDigit? d)

/-- What a backslash and a character stand for. -/
def escape? : Char → Option Nat
  | '"' => some 0x22
  | '\\' => some 0x5c
  | '/' => some 0x2f
  | 'b' => some 0x08
  | 'f' => some 0x0c
  | 'n' => some 0x0a
  | 'r' => some 0x0d
  | 't' => some 0x09
  | _ => none

/-- The code point of a surrogate pair. -/
def surrogatePair? (high low : Nat) : Option Nat :=
  if 0xd800 ≤ high ∧ high < 0xdc00 ∧ 0xdc00 ≤ low ∧ low < 0xe000 then
    some (0x10000 + (high - 0xd800) * 0x400 + (low - 0xdc00))
  else none

/-- The escapes of a surrogate pair are one character; a lone one stays. -/
def joinSurrogates (points : List Nat) : List Nat :=
  points.foldr (fun point joined =>
    match joined with
    | next :: rest =>
      match surrogatePair? point next with
      | some pair => pair :: rest
      | none => point :: next :: rest
    | [] => [point]) []

/-- The characters and escapes of a string after its opening quote, and what follows it. -/
def scanCharacters : List Char → Option (List Nat × List Char)
  | [] => none
  | '"' :: cs => some ([], cs)
  | '\\' :: 'u' :: a :: b :: c :: d :: cs =>
    match hex4? a b c d with
    | some point => (scanCharacters cs).map fun x => (point :: x.1, x.2)
    | none => none
  | '\\' :: c :: cs =>
    match escape? c with
    | some point => (scanCharacters cs).map fun x => (point :: x.1, x.2)
    | none => none
  | c :: cs =>
    -- control characters must be escaped
    if c.toNat < 0x20 ∨ c = '\\' then none
    else (scanCharacters cs).map fun x => (c.toNat :: x.1, x.2)

/-- The rest of a string after its opening quote, and what follows it. -/
def scanString (cs : List Char) : Option (List Nat × List Char) :=
  (scanCharacters cs).map fun x => (joinSurrogates x.1, x.2)

/-- The digits at the front of a text. -/
def digits (cs : List Char) : List Char := cs.takeWhile Char.isDigit

/-- The number that digits spell. -/
def natOf (ds : List Char) : Nat := ds.foldl (fun n c => n * 10 + (c.toNat - '0'.toNat)) 0

/-- `\.[0-9]+`, if it is there: the digits and what follows. -/
def scanFraction : List Char → List Char × List Char
  | '.' :: cs => if digits cs = [] then ([], '.' :: cs) else (digits cs, cs.dropWhile Char.isDigit)
  | cs => ([], cs)

/-- `[eE][-+]?[0-9]+`, if it is there: the exponent and what follows. -/
def scanExponent (cs : List Char) : Int × List Char :=
  match cs with
  | e :: '-' :: rest =>
    if (e = 'e' ∨ e = 'E') ∧ digits rest ≠ [] then
      (-(natOf (digits rest) : Int), rest.dropWhile Char.isDigit)
    else (0, cs)
  | e :: '+' :: rest =>
    if (e = 'e' ∨ e = 'E') ∧ digits rest ≠ [] then
      (natOf (digits rest), rest.dropWhile Char.isDigit)
    else (0, cs)
  | e :: rest =>
    if (e = 'e' ∨ e = 'E') ∧ digits rest ≠ [] then
      (natOf (digits rest), rest.dropWhile Char.isDigit)
    else (0, cs)
  | [] => (0, [])

/-- `-?(0|[1-9][0-9]*)(\.[0-9]+)?([eE][-+]?[0-9]+)?` -/
def scanNumber (cs : List Char) : Option (JsonNumber × List Char) :=
  let negative := cs.head? = some '-'
  let unsigned := if negative then cs.tail else cs
  -- a leading zero is the whole integer part
  let integer := if unsigned.head? = some '0' then ['0'] else digits unsigned
  if integer = [] then none
  else
    let (fraction, rest) := scanFraction (unsigned.drop integer.length)
    let (exponent, rest) := scanExponent rest
    let coefficient := natOf (integer ++ fraction)
    some (⟨negative, (Nat.digits 10 coefficient).length, coefficient,
      exponent - fraction.length⟩, rest)

/-- What follows `word` at the front of a text. -/
def dropWord? (word : String) (cs : List Char) : Option (List Char) :=
  if word.toList.isPrefixOf cs then some (cs.drop word.length) else none

/-- The values of an array after its first bracket or a comma; every further one takes a comma, so
    the length of the text bounds their number. -/
def scanItems (value : List Char → Option (JsonText × List Char)) :
    Nat → List Char → Option (List JsonText × List Char)
  | 0, _ => none
  | n + 1, cs => do
    let (item, rest) ← value (skipWhitespace cs)
    match skipWhitespace rest with
    | ']' :: rest => return ([item], rest)
    | ',' :: rest =>
      let (items, rest) ← scanItems value n rest
      return (item :: items, rest)
    | _ => none

/-- The members of an object after its first brace or a comma. -/
def scanMembers (value : List Char → Option (JsonText × List Char)) :
    Nat → List Char → Option (List (List Nat × JsonText) × List Char)
  | 0, _ => none
  | n + 1, cs =>
    match skipWhitespace cs with
    | '"' :: cs => do
      let (key, rest) ← scanString cs
      match skipWhitespace rest with
      | ':' :: rest =>
        let (item, rest) ← value (skipWhitespace rest)
        match skipWhitespace rest with
        | '\x7d' :: rest => return ([(key, item)], rest)
        | ',' :: rest =>
          let (members, rest) ← scanMembers value n rest
          return ((key, item) :: members, rest)
        | _ => none
      | _ => none
    | _ => none

/-- A value at the front of a text, and what follows it. -/
def scanValue (stack : Nat) (cs : List Char) : Option (JsonText × List Char) :=
  match cs with
  | '"' :: rest => (scanString rest).map fun x => (.str x.1, x.2)
  | '[' :: rest =>
    match stack with
    | 0 => none
    | stack + 1 =>
      match skipWhitespace rest with
      | ']' :: rest => some (.arr [], rest)
      | _ => (scanItems (scanValue stack) rest.length rest).map fun x => (.arr x.1, x.2)
  | '\x7b' :: rest =>
    match stack with
    | 0 => none
    | stack + 1 =>
      match skipWhitespace rest with
      | '\x7d' :: rest => some (.obj [], rest)
      | _ => (scanMembers (scanValue stack) rest.length rest).map fun x => (.obj x.1, x.2)
  | _ =>
    match dropWord? "null" cs, dropWord? "true" cs, dropWord? "false" cs with
    | some rest, _, _ => some (.null, rest)
    | _, some rest, _ => some (.bool true, rest)
    | _, _, some rest => some (.bool false, rest)
    | _, _, _ =>
      match dropWord? "NaN" cs, dropWord? "Infinity" cs, dropWord? "-Infinity" cs with
      | some rest, _, _ => some (.constant "NaN", rest)
      | _, some rest, _ => some (.constant "Infinity", rest)
      | _, _, some rest => some (.constant "-Infinity", rest)
      | _, _, _ => (scanNumber cs).map fun x => (.number x.1, x.2)

/-- The syntax of a whole text. -/
def scan (stack : Nat) (text : String) : Option JsonText :=
  match scanValue stack (skipWhitespace text.toList) with
  | some (t, rest) => if skipWhitespace rest = [] then some t else none
  | none => none

end JsonText
