import Miles.ForStd.Lts

/-!
# Context locks

Pure Lean model of `ContextLock` and the decorators `with_lock`, `acquires_lock` and
`releases_lock`. Tasks run until their next `await`; a task carries the grant of the lock that it
holds in its context, which a task that it creates copies. Any task may call any method of any lock,
enter and leave the decorated methods, and be cancelled while it waits.
-/

namespace Miles.ContextLock

/-- `_LockGrant` -/
structure Grant (Lock : Type) where
  lock : Lock
  generation : Nat
deriving DecidableEq

/-- A `ContextLock`; `locked` and `waiters` are those of its `asyncio.Lock`, which serves its waiters
    in order. -/
structure LockState (Task : Type) where
  locked : Bool := false
  waiters : List Task := []
  generationCounter : Nat := 0
  activeGeneration : Option Nat := none
  detached : Bool := false
  /-- The generations that were granted and neither released nor detached; no step reads it. -/
  live : List Nat := []

/-- A decorated method, or a block, that a task is inside of -/
inductive Frame (Lock : Type) where
  /-- `with_lock`, or `async with lock` -/
  | withLock (lock : Lock)
  | acquiresLock (lock : Lock)
  | releasesLock (lock : Lock)
  /-- `async with lock.with_released()` -/
  | withReleased (lock : Lock)
deriving DecidableEq

/-- What a task is doing -/
inductive Pc (Lock : Type) where
  | running
  /-- At `await self._lock.acquire()`, and what it is inside of once it has the lock. -/
  | acquiring (lock : Lock) (next : Option (Frame Lock))
deriving DecidableEq

/-- A task; `heldLock` is `_held_lock` in its context. -/
structure TaskState (Lock : Type) where
  heldLock : Option (Grant Lock) := none
  frames : List (Frame Lock) := []
  pc : Pc Lock := .running

structure World (Task Lock : Type) where
  lock : Lock → LockState Task
  /-- Tasks that were never created are none. -/
  task : Task → Option (TaskState Lock)

/-- What a task does -/
inductive Event (Task Lock : Type) where
  /-- A task with a context of its own is created. -/
  | start (t : Task)
  /-- A running task creates another one. -/
  | spawn (t child : Task)
  | acquire (t : Task) (l : Lock)
  | release (t : Task) (l : Lock)
  | detach (t : Task) (l : Lock)
  | reattach (t : Task) (l : Lock)
  | releaseIfDetached (t : Task) (l : Lock)
  /-- A decorated method is called, or a block entered. -/
  | enter (t : Task) (frame : Frame Lock)
  /-- The innermost method or block is left, by an exception or without one. -/
  | leave (t : Task) (raised : Bool)
  /-- The wait for a lock is over. -/
  | granted (t : Task)
  /-- The wait for a lock is cancelled. -/
  | cancel (t : Task)

section
variable {Task Lock : Type} [DecidableEq Task] [DecidableEq Lock]

/-- `held_in_current_context` -/
def heldInCurrentContext (w : World Task Lock) (s : TaskState Lock) (l : Lock) : Bool :=
  match (w.lock l).activeGeneration with
  | none => false
  | some generation => decide (s.heldLock = some ⟨l, generation⟩)

/-- The condition of `_assert_no_live_grant` -/
def noLiveGrant (w : World Task Lock) (s : TaskState Lock) : Bool :=
  match s.heldLock with
  | none => true
  | some grant => !heldInCurrentContext w s grant.lock

def World.setLock (w : World Task Lock) (l : Lock) (state : LockState Task) : World Task Lock :=
  { w with lock := Function.update w.lock l state }

def World.setTask (w : World Task Lock) (t : Task) (s : TaskState Lock) : World Task Lock :=
  { w with task := Function.update w.task t (some s) }

/-- `_issue_generation` -/
def issueGeneration (state : LockState Task) : LockState Task :=
  { state with
    generationCounter := state.generationCounter + 1
    activeGeneration := some (state.generationCounter + 1)
    live := state.live ++ [state.generationCounter + 1] }

/-- `acquire` after its `await`: the task has the lock and gets a grant. -/
def grantTo (w : World Task Lock) (t : Task) (s : TaskState Lock) (l : Lock)
    (next : Option (Frame Lock)) : World Task Lock :=
  let state := { w.lock l with locked := true, waiters := (w.lock l).waiters.erase t }
  (w.setLock l (issueGeneration state)).setTask t
    { heldLock := some ⟨l, (issueGeneration state).generationCounter⟩
      frames := next.toList ++ s.frames
      pc := .running }

/-- `acquire` up to its `await`, which does not suspend the task if the lock is free. -/
def acquire (w : World Task Lock) (t : Task) (s : TaskState Lock) (l : Lock)
    (next : Option (Frame Lock)) : Option (World Task Lock) :=
  if noLiveGrant w s then
    if (w.lock l).locked = false ∧ (w.lock l).waiters = [] then some (grantTo w t s l next)
    else
      some ((w.setLock l { w.lock l with waiters := (w.lock l).waiters ++ [t] }).setTask t
        { s with pc := .acquiring l next })
  -- `assert grant is None or not grant.lock.held_in_current_context`
  else none

/-- The grant of a task is no longer live. -/
def endGrant (state : LockState Task) (s : TaskState Lock) : LockState Task :=
  { state with
    activeGeneration := none
    live := state.live.filter fun generation => (s.heldLock.map Grant.generation) ≠ some generation }

def release (w : World Task Lock) (t : Task) (s : TaskState Lock) (l : Lock) :
    Option (World Task Lock) :=
  if heldInCurrentContext w s l then
    some ((w.setLock l { endGrant (w.lock l) s with locked := false }).setTask t
      { s with heldLock := none })
  -- `_assert_held_in_current_context`
  else none

def detach (w : World Task Lock) (t : Task) (s : TaskState Lock) (l : Lock) :
    Option (World Task Lock) :=
  if heldInCurrentContext w s l then
    some ((w.setLock l { endGrant (w.lock l) s with detached := true }).setTask t
      { s with heldLock := none })
  else none

def reattach (w : World Task Lock) (t : Task) (s : TaskState Lock) (l : Lock) :
    Option (World Task Lock) :=
  if (w.lock l).detached ∧ (w.lock l).locked ∧ noLiveGrant w s then
    let state := issueGeneration { w.lock l with detached := false }
    some ((w.setLock l state).setTask t
      { s with heldLock := some ⟨l, state.generationCounter⟩ })
  else none

/-- `release_if_detached` -/
def releaseIfDetached (w : World Task Lock) (t : Task) (s : TaskState Lock) (l : Lock) :
    Option (World Task Lock) :=
  if (w.lock l).detached then
    (reattach w t s l).bind fun w' => (w'.task t).bind fun s' => release w' t s' l
  else some w

/-- A frame is entered once its first part went through. -/
def push (w : World Task Lock) (t : Task) (frame : Frame Lock) : World Task Lock :=
  match w.task t with
  | some s => w.setTask t { s with frames := frame :: s.frames }
  | none => w

/-- The first part of a decorated method or block -/
def enter (w : World Task Lock) (t : Task) (s : TaskState Lock) :
    Frame Lock → Option (World Task Lock)
  | .withLock l => acquire w t s l (some (.withLock l))
  | .acquiresLock l => acquire w t s l (some (.acquiresLock l))
  | .releasesLock l => (reattach w t s l).map fun w' => push w' t (.releasesLock l)
  | .withReleased l => (release w t s l).map fun w' => push w' t (.withReleased l)

/-- The last part of a decorated method or block -/
def leave (w : World Task Lock) (t : Task) (s : TaskState Lock) :
    Frame Lock → Bool → Option (World Task Lock)
  -- an exception releases if the lock is held and is logged otherwise
  | .withLock l, _ => release w t s l
  | .acquiresLock l, true => release w t s l
  | .acquiresLock l, false => detach w t s l
  | .releasesLock l, _ => release w t s l
  | .withReleased l, _ => acquire w t s l none

/-- A running task calls something; an `AssertionError` leaves the world as it is. -/
def call (w : World Task Lock) (t : Task)
    (method : TaskState Lock → Option (World Task Lock)) : Option (World Task Lock) :=
  match w.task t with
  | some s => if s.pc = .running then some ((method s).getD w) else none
  | none => none

def step (w : World Task Lock) : Event Task Lock → Option (World Task Lock)
  | .start t => if (w.task t).isNone then some (w.setTask t {}) else none
  | .spawn t child =>
    match w.task t with
    | some s =>
      if s.pc = .running ∧ (w.task child).isNone then
        some (w.setTask child { heldLock := s.heldLock })
      else none
    | none => none
  | .acquire t l => call w t fun s => acquire w t s l none
  | .release t l => call w t fun s => release w t s l
  | .detach t l => call w t fun s => detach w t s l
  | .reattach t l => call w t fun s => reattach w t s l
  | .releaseIfDetached t l => call w t fun s => releaseIfDetached w t s l
  | .enter t frame => call w t fun s => enter w t s frame
  | .leave t raised =>
    match w.task t with
    | some ⟨heldLock, frame :: frames, .running⟩ =>
      let s := ⟨heldLock, frames, .running⟩
      let w := w.setTask t s
      some ((leave w t s frame raised).getD w)
    | _ => none
  | .granted t =>
    match w.task t with
    | some ⟨heldLock, frames, .acquiring l next⟩ =>
      if (w.lock l).locked = false ∧ (w.lock l).waiters.head? = some t then
        some (grantTo w t ⟨heldLock, frames, .running⟩ l next)
      else none
    | _ => none
  | .cancel t =>
    match w.task t with
    | some ⟨heldLock, frames, .acquiring l _⟩ =>
      some ((w.setLock l { w.lock l with waiters := (w.lock l).waiters.erase t }).setTask t
        ⟨heldLock, frames, .running⟩)
    | _ => none

/-- Locks that nobody has used and no task. -/
def World.initial : World Task Lock := ⟨fun _ => {}, fun _ => none⟩

end

end Miles.ContextLock
