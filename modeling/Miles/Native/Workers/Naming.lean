import Miles.ForStd.Except

/-!
# Names of cells and workers

Pure Lean model of the parsing in `miles/utils/workers/naming.py`: a cell is named
`<pool id>-<cell index>`, a worker `<pool id>-<cell index>-<index in the cell>`.
-/

namespace Miles.Workers.Naming

/-! ## `int(text)` -/

/-- The decimal digits that stand for zero; each is followed by the nine others. -/
def decimalZeros : List Nat :=
  [0x30, 0x660, 0x6f0, 0x7c0, 0x966, 0x9e6, 0xa66, 0xae6, 0xb66, 0xbe6, 0xc66, 0xce6, 0xd66,
    0xde6, 0xe50, 0xed0, 0xf20, 0x1040, 0x1090, 0x17e0, 0x1810, 0x1946, 0x19d0, 0x1a80, 0x1a90,
    0x1b50, 0x1bb0, 0x1c40, 0x1c50, 0xa620, 0xa8d0, 0xa900, 0xa9d0, 0xa9f0, 0xaa50, 0xabf0,
    0xff10, 0x104a0, 0x10d30, 0x11066, 0x110f0, 0x11136, 0x111d0, 0x112f0, 0x11450, 0x114d0,
    0x11650, 0x116c0, 0x11730, 0x118e0, 0x11950, 0x11c50, 0x11d50, 0x11da0, 0x16a60, 0x16ac0,
    0x16b50, 0x1d7ce, 0x1d7d8, 0x1d7e2, 0x1d7ec, 0x1d7f6, 0x1e140, 0x1e2f0, 0x1e950, 0x1fbf0]

def digitValue (c : Char) : Option Nat :=
  (decimalZeros.find? fun z => z ≤ c.toNat ∧ c.toNat < z + 10).map (c.toNat - ·)

/-- `str.isspace` of one character -/
def isSpace (c : Char) : Bool :=
  (0x9 ≤ c.toNat ∧ c.toNat ≤ 0xd) ∨ (0x1c ≤ c.toNat ∧ c.toNat ≤ 0x20) ∨
    (0x2000 ≤ c.toNat ∧ c.toNat ≤ 0x200a) ∨
    c.toNat ∈ [0x85, 0xa0, 0x1680, 0x2028, 0x2029, 0x202f, 0x205f, 0x3000]

/-- Digits with single underscores between them. -/
def parseDigits (value : Nat) (afterDigit : Bool) : List Char → Option Nat
  | [] => if afterDigit then some value else none
  | c :: cs =>
    match digitValue c with
    | some digit => parseDigits (value * 10 + digit) true cs
    | none => if c = '_' ∧ afterDigit then parseDigits value false cs else none

/-- The digits of an integer, of which there may be 4300. -/
def parseNat (text : List Char) : Option Nat :=
  if (text.filter (· ≠ '_')).length ≤ 4300 then parseDigits 0 false text else none

/-- `int(text)`; `none` is a `ValueError`. -/
def parseInt (text : List Char) : Option Int :=
  let stripped := ((text.dropWhile isSpace).reverse.dropWhile isSpace).reverse
  match stripped with
  | '-' :: digits => (parseNat digits).map fun n => -(n : Int)
  | '+' :: digits => (parseNat digits).map fun n => (n : Int)
  | digits => (parseNat digits).map fun n => (n : Int)

/-! ## Names -/

inductive NamingError where
  /-- A `ValueError`: too few parts, or a part that is no integer. -/
  | valueError
  /-- `name index must be in [0, 100000)` -/
  | indexOutOfRange (index : Int)
deriving DecidableEq

/-- `text.rsplit("-", maxsplit=1)` in two parts -/
def rsplitLast (text : List Char) : Except NamingError (List Char × List Char) :=
  if '-' ∈ text then
    let last := (text.reverse.takeWhile (· ≠ '-')).reverse
    .ok (text.take (text.length - last.length - 1), last)
  else .error .valueError

/-- `int(text)` -/
def int (text : List Char) : Except NamingError Int :=
  match parseInt text with
  | some n => .ok n
  | none => .error .valueError

/-- `format_name_index` -/
def formatNameIndex (index : Int) : Except NamingError String := do
  Except.ensure (0 ≤ index ∧ index < 100000) (.indexOutOfRange index)
  let digits := toString index
  return String.ofList (List.replicate (5 - digits.length) '0') ++ digits

structure ParsedCellId where
  poolId : String
  cellIndex : Int

/-- `parse_cell_id` -/
def parseCellId (cellId : String) : Except NamingError ParsedCellId := do
  let parts ← rsplitLast cellId.toList
  let cellIndex ← int parts.2
  return ⟨String.ofList parts.1, cellIndex⟩

/-- `compute_cell_id` -/
def computeCellId (poolId : String) (cellIndex : Int) : Except NamingError String := do
  let index ← formatNameIndex cellIndex
  return poolId ++ "-" ++ index

/-- `parse_worker_name` -/
def parseWorkerName (workerName : String) : Except NamingError (String × Int × Int) := do
  let last ← rsplitLast workerName.toList
  let parts ← rsplitLast last.1
  let cellIndex ← int parts.2
  let workerInCellIndex ← int last.2
  return (String.ofList parts.1, cellIndex, workerInCellIndex)

/-- `cell_id_of_worker` -/
def cellIdOfWorker (workerName : String) : Except NamingError String := do
  let parsed ← parseWorkerName workerName
  computeCellId parsed.1 parsed.2.1

example : cellIdOfWorker "inference-engine-0-00003-00001" = .ok "inference-engine-0-00003" := by
  decide +kernel

end Miles.Workers.Naming
