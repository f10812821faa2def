import Miles.ForStd.Lts

/-!
# The ticket lock over a store

Pure Lean model of `StoreTicketLock`: processes that share a store and lock a section by drawing
numbers. A step is one store operation or what a process does after it; any number of processes take
their steps in any order.
-/

namespace Miles.TicketLock

/-- The counters of a store; a key that was never set counts from zero. -/
abbrev Store := String → Nat

/-- `store.add(key, amount)`: the new value and the store -/
def add (store : Store) (key : String) (amount : Nat) : Nat × Store :=
  (store key + amount, Function.update store key (store key + amount))

/-- Where a process is in the methods of its lock -/
inductive Pc where
  /-- In no method. -/
  | outside
  /-- In `acquire`, before it reads which ticket is served. -/
  | polling (ticket : Nat)
  /-- In `acquire`, with what it has read. -/
  | polled (ticket serving : Nat)
  /-- In `release`, after `_held_ticket = None`, before the store operation. -/
  | releasing (released : Nat)
deriving DecidableEq

/-- A process with its lock -/
structure LockProcess where
  heldTicket : Option Nat := none
  pc : Pc := .outside
deriving DecidableEq

structure World (Process : Type) where
  store : Store
  process : Process → LockProcess
  /-- The processes that drew a ticket, in order; no step reads it. -/
  drawn : List Process
  /-- The processes that got the lock, in order; no step reads it. -/
  entered : List Process

/-- What a process does next -/
inductive Event (Process : Type) where
  /-- `acquire` draws a ticket. -/
  | draw (p : Process)
  /-- `acquire` reads which ticket is served. -/
  | poll (p : Process)
  /-- `acquire` compares it with its own. -/
  | check (p : Process)
  /-- `release` drops the held ticket. -/
  | release (p : Process)
  /-- `release` calls the next ticket. -/
  | call (p : Process)
  /-- An exception ends the method that the process is in. -/
  | interrupt (p : Process)

section
variable {Process : Type} [DecidableEq Process]

/-- `f"{prefix}/next"` -/
def nextKey (lockPrefix : String) : String := lockPrefix ++ "/next"

/-- `f"{prefix}/serving"` -/
def servingKey (lockPrefix : String) : String := lockPrefix ++ "/serving"

/-- A process takes a step of its own. -/
def World.update (w : World Process) (p : Process) (lock : LockProcess) : World Process :=
  { w with process := Function.update w.process p lock }

/-- The first store operation of `acquire` -/
def draw (lockPrefix : String) (w : World Process) (p : Process) : Option (World Process) :=
  match w.process p with
  | ⟨none, .outside⟩ =>
    let added := add w.store (nextKey lockPrefix) 1
    some { (w.update p ⟨none, .polling (added.1 - 1)⟩) with
      store := added.2, drawn := w.drawn ++ [p] }
  -- `assert self._held_ticket is None`
  | _ => none

/-- The polling store operation of `acquire` -/
def poll (lockPrefix : String) (w : World Process) (p : Process) : Option (World Process) :=
  match (w.process p).pc with
  | .polling ticket =>
    let added := add w.store (servingKey lockPrefix) 0
    some { (w.update p { w.process p with pc := .polled ticket added.1 }) with store := added.2 }
  | _ => none

/-- The end of the loop of `acquire`, or its next round -/
def check (w : World Process) (p : Process) : Option (World Process) :=
  match (w.process p).pc with
  | .polled ticket serving =>
    if serving = ticket then
      some { (w.update p ⟨some ticket, .outside⟩) with entered := w.entered ++ [p] }
    else some (w.update p { w.process p with pc := .polling ticket })
  | _ => none

/-- The first part of `release` -/
def release (w : World Process) (p : Process) : Option (World Process) :=
  match w.process p with
  | ⟨some ticket, .outside⟩ => some (w.update p ⟨none, .releasing ticket⟩)
  -- `assert self._held_ticket is not None`
  | _ => none

/-- The store operation of `release` -/
def call (lockPrefix : String) (w : World Process) (p : Process) : Option (World Process) :=
  match (w.process p).pc with
  | .releasing _ =>
    let added := add w.store (servingKey lockPrefix) 1
    some { (w.update p { w.process p with pc := .outside }) with store := added.2 }
  | _ => none

/-- An exception leaves the method; the held ticket stays as it is. -/
def interrupt (w : World Process) (p : Process) : Option (World Process) :=
  if (w.process p).pc = .outside then none
  else some (w.update p { w.process p with pc := .outside })

def step (lockPrefix : String) (w : World Process) : Event Process → Option (World Process)
  | .draw p => draw lockPrefix w p
  | .poll p => poll lockPrefix w p
  | .check p => check w p
  | .release p => release w p
  | .call p => call lockPrefix w p
  | .interrupt p => interrupt w p

/-- Before any process has drawn a ticket. -/
def World.initial : World Process := ⟨fun _ => 0, fun _ => {}, [], []⟩

end

end Miles.TicketLock
