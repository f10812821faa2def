import Mathlib

/-!
# Rollout server cells

Model of `ServerCell` (`miles/ray/rollout/server_cell.py`) and of the parts of
`InferenceController` (`miles/ray/rollout/inference_controller.py`) and `RolloutServer`
(`miles/ray/rollout/rollout_server.py`) that add, tick, update, fail and remove cells.

Everything runs on one event loop, so a step is what happens between two awaits.  The
controller's methods exclude one another through the context lock, which a weight update holds
from its start to its end.  `asyncio.gather` without `return_exceptions` raises with its first
failure and leaves the other coroutines running: they are tasks that outlive the lock.

A register request takes effect at the router at some point after it is sent.  Its caller may
see it return, or see an error, a cancellation or a timeout, before or after that.

Cell objects are positions in `cells`, and the router lists them by their position: the URL is
read from the worker's addresses when the object is initialised.  Health checks, environment
reports, checksums and offloading, which no transition here depends on, are left out.
-/

namespace Miles.Rollout.Serving

/-! ## Cells -/

/-- `CellState`, without the addresses. -/
inductive CellState where
  | uninitialized
  | initializing
  | pendingWeights
  | serving
  | errored
  | disposed
  deriving DecidableEq, Repr

/-- What the provider tells of a cell. -/
structure CellInfo where
  modelId : String
  workersHash : String
  updateWeights : Bool
  needsOffload : Bool
  deriving DecidableEq, Repr

/-- `ServerCell`.  `unregisterError` says that its `dispose` logged a failed unregister. -/
structure ServerCell where
  cellId : String
  info : CellInfo
  state : CellState := .uninitialized
  unregisterError : Bool := false
  deriving DecidableEq, Repr

/-- The arguments read here, and the servers with their `update_weights`. -/
structure Config where
  debugRolloutOnly : Bool
  colocate : Bool
  servers : List (String × Bool)
  deriving DecidableEq, Repr

/-- `serve_without_weight_update` -/
def serveWithoutWeightUpdate (cfg : Config) (c : ServerCell) : Bool :=
  !c.info.updateWeights || cfg.debugRolloutOnly

/-- The cell was marked errored or disposed. -/
def ServerCell.left (c : ServerCell) : Bool :=
  c.state = .errored ∨ c.state = .disposed

/-! ## Coroutines of a cell -/

/-- The methods of a cell that await. -/
inductive Routine where
  | init
  | tick
  /-- called by the `end_update_weights` of an update -/
  | markWeightsReady (update : Nat)
  | markErrored
  | dispose
  deriving DecidableEq, Repr

/-- Where a coroutine stands. -/
inductive Await where
  /-- it has not run yet -/
  | queued
  /-- in `init`, or in `tick` before it registers -/
  | preparing
  /-- awaiting the register request, which has taken effect or not -/
  | registering (applied : Bool)
  /-- in the retries of `_unregister_from_router` -/
  | unregistering
  | ended (ok : Bool)
  deriving DecidableEq, Repr

/-- A coroutine that runs for a cell object. -/
structure Task where
  cell : Nat
  routine : Routine
  await : Await := .queued
  deriving DecidableEq, Repr

/-- How an await ends. -/
inductive Outcome where
  | returned
  /-- `tick` finds the server not healthy yet -/
  | stopped
  /-- an error, a cancellation or a timeout -/
  | raised
  /-- an unregister attempt fails and is retried; it may have taken effect -/
  | attemptFailed (effect : Bool)
  /-- the last unregister attempt fails -/
  | gaveUp (effect : Bool)
  deriving DecidableEq, Repr

/-- What a resumption leaves: the cell, the next await, whether the router dropped the cell, and
    whether a register request stays under way without its caller. -/
structure Resumed where
  cell : ServerCell
  await : Await
  delist : Bool := false
  stray : Bool := false

/-- The last step of `mark_errored`, which asserts the state. -/
def becomeErrored (c : ServerCell) : ServerCell × Await :=
  if c.state = .pendingWeights ∨ c.state = .serving then
    ({ c with state := .errored }, .ended true)
  else (c, .ended false)

/-- The start of a coroutine, up to its first await. -/
def start (routine : Routine) (c : ServerCell) : ServerCell × Await :=
  match routine with
  | .init => if c.state = .uninitialized then (c, .preparing) else (c, .ended false)
  | .tick => if c.state = .initializing then (c, .preparing) else (c, .ended true)
  | .markWeightsReady _ =>
    if c.state = .pendingWeights then (c, .registering false) else (c, .ended false)
  | .markErrored =>
    if c.left then (c, .ended true)
    else if c.state = .serving then (c, .unregistering)
    else becomeErrored c
  | .dispose =>
    if c.state = .serving then (c, .unregistering)
    else ({ c with state := .disposed }, .ended true)

/-- `_change_state` to `new`, which asserts the old state. -/
def changeState (c : ServerCell) (old new : CellState) : ServerCell × Await :=
  if c.state = old then ({ c with state := new }, .ended true) else (c, .ended false)

/-- A coroutine goes on after an await that ended so; `none` when it cannot end so. -/
def resume (cfg : Config) (routine : Routine) (c : ServerCell) :
    Await → Outcome → Option Resumed
  | .queued, .returned =>
    let (cell, await) := start routine c
    some { cell, await }
  | .preparing, .returned =>
    match routine with
    | .init =>
      let (cell, await) := changeState c .uninitialized .initializing
      some { cell, await }
    | .tick =>
      if serveWithoutWeightUpdate cfg c then some { cell := c, await := .registering false }
      else
        let (cell, await) := changeState c .initializing .pendingWeights
        some { cell, await }
    | _ => none
  | .preparing, .stopped => some { cell := c, await := .ended true }
  | .preparing, .raised => some { cell := c, await := .ended false }
  | .registering true, .returned =>
    match routine with
    | .tick =>
      -- `mark_pending_weights` and then `mark_serving`
      let (cell, await) := changeState c .initializing .serving
      some { cell, await }
    | .markWeightsReady _ =>
      let (cell, await) := changeState c .pendingWeights .serving
      some { cell, await }
    | _ => none
  | .registering applied, .raised =>
    some { cell := c, await := .ended false, stray := !applied }
  | .unregistering, .returned =>
    match routine with
    | .markErrored =>
      let (cell, await) := becomeErrored c
      some { cell, await, delist := true }
    | .dispose =>
      some { cell := { c with state := .disposed }, await := .ended true, delist := true }
    | _ => none
  | .unregistering, .attemptFailed effect =>
    some { cell := c, await := .unregistering, delist := effect }
  | .unregistering, .gaveUp effect =>
    match routine with
    | .markErrored => some { cell := c, await := .ended false, delist := effect }
    | .dispose =>
      -- the error is logged and the cell disposed anyway
      some { cell := { c with state := .disposed, unregisterError := true }, await := .ended true,
             delist := effect }
    | _ => none
  | _, _ => none

/-! ## The controller -/

/-- Who holds the context lock, and which coroutines it awaits. -/
inductive Lock where
  | free
  /-- `_tick_cells` -/
  | ticking (tasks : List Nat)
  /-- `remove_cell` in `_reconcile`, with the incarnation to add afterwards -/
  | removing (cell task : Nat) (replacement : Option (String × CellInfo))
  /-- `add_cell` in `_reconcile` -/
  | adding (cell task : Nat)
  /-- the `dispose` in `add_cell` after a failed `init` -/
  | dropping (task : Nat)
  /-- the `init` calls of `_ensure_cells_ready` -/
  | startingUpdate (tasks : List Nat)
  /-- a weight update is running -/
  | detached
  /-- `end_update_weights` awaits `mark_errored` of the failed cells -/
  | endingFailed (update : Nat) (failedCellIds : List String) (tasks updatedCells : List Nat)
  /-- `end_update_weights` awaits `mark_weights_ready` of the updated cells -/
  | endingUpdated (tasks : List Nat)
  deriving DecidableEq, Repr

/-- The controller, its cells and their coroutines, and the router. -/
structure World where
  /-- every cell object ever created -/
  cells : List ServerCell := []
  /-- the objects in `all_server_cells` -/
  allServerCells : List Nat := []
  tasks : List Task := []
  /-- the cell objects the router lists -/
  router : List Nat := []
  /-- register requests that may still take effect, without a caller -/
  strays : List Nat := []
  lock : Lock := .free
  /-- `snapshot_cell_id_to_hashes` of the updates started -/
  updates : List (List (String × String)) := []
  /-- the `end_update_weights` calls: the update and its `failed_cell_ids` -/
  ends : List (Nat × List String) := []
  deriving DecidableEq, Repr

namespace World

/-- The cells of `all_server_cells` that satisfy `keep`. -/
def cellsWhere (s : World) (keep : ServerCell → Bool) : List Nat :=
  s.allServerCells.filter fun i => (s.cells[i]?).any keep

/-- Start coroutines of one method for several cells. -/
def spawn (s : World) (routine : Routine) (cells : List Nat) : World :=
  { s with tasks := s.tasks ++ cells.map fun cell => ({ cell, routine } : Task) }

/-- The positions of the tasks that a spawn adds. -/
def spawned (s : World) (cells : List Nat) : List Nat :=
  List.range' s.tasks.length cells.length

/-- How a task ended, if it has. -/
def result (s : World) (task : Nat) : Option Bool :=
  (s.tasks[task]?).bind fun t =>
    match t.await with
    | .ended ok => some ok
    | _ => none

/-- Every task has returned. -/
def allReturned (s : World) (tasks : List Nat) : Bool :=
  tasks.all fun task => s.result task = some true

/-- Every task has ended. -/
def allEnded (s : World) (tasks : List Nat) : Bool :=
  tasks.all fun task => (s.result task).isSome

/-- Some task has raised. -/
def anyRaised (s : World) (tasks : List Nat) : Bool :=
  tasks.any fun task => s.result task = some false

/-- `add_cell`: a colocated engine that needs offload is initialised by the next update. -/
def addCell (cfg : Config) (s : World) (cellId : String) (info : CellInfo) : World :=
  let cell := s.cells.length
  let s := { s with
    cells := s.cells ++ [({ cellId, info } : ServerCell)]
    allServerCells := s.allServerCells ++ [cell] }
  if cfg.colocate ∧ info.needsOffload then { s with lock := .free }
  else { s.spawn .init [cell] with lock := .adding cell s.tasks.length }

/-- `_reconcile` through `apply_cell_observation`, up to its first await. -/
def reconcile (cfg : Config) (s : World) (cellId : String) (observed : Option CellInfo) : World :=
  match (s.cellsWhere fun c => c.cellId = cellId).head?, observed with
  | none, some info => addCell cfg s cellId info
  | some cell, none =>
    { s.spawn .dispose [cell] with lock := .removing cell s.tasks.length none }
  | some cell, some info =>
    if (s.cells[cell]?).all fun c => c.info.workersHash = info.workersHash then s
    else
      { s.spawn .dispose [cell] with
        lock := .removing cell s.tasks.length (some (cellId, info)) }
  | none, none => s

/-- `_get_updatable_server`; an error leaves the lock free. -/
def getUpdatableServer (cfg : Config) (modelId : Option String) (evalPool : Bool) :
    Except Unit (Option String) :=
  match modelId with
  | some name =>
    match cfg.servers.find? fun server => server.1 = name with
    | none => .error ()
    | some server => if server.2 ∨ evalPool then .ok (some name) else .error ()
  | none =>
    match cfg.servers.filter fun server => server.2 with
    | [] => .ok none
    | [server] => .ok (some server.1)
    | _ => .error ()

/-- `snapshot_cell_id_to_hashes` over the server's cells that are not errored. -/
def snapshot (s : World) (server : Option String) : List (String × String) :=
  match server with
  | none => []
  | some name =>
    (s.cellsWhere fun c => c.info.modelId = name ∧ c.state ≠ .errored).filterMap fun i =>
      (s.cells[i]?).map fun c => (c.cellId, c.info.workersHash)

/-- `start_update_weights`.  When cells are not ready it releases the lock and tries again. -/
def startUpdateWeights (cfg : Config) (s : World) (modelId : Option String) (evalPool : Bool) :
    World :=
  let modelId := if evalPool then some "eval" else modelId
  let cells := s.cellsWhere fun c =>
    modelId.all (fun name => c.info.modelId = name) ∧ c.state ≠ .errored
  let uninitialized := cells.filter fun i => (s.cells[i]?).any fun c => c.state = .uninitialized
  let pending := cells.filter fun i =>
    (s.cells[i]?).any fun c => c.state ≠ .pendingWeights ∧ c.state ≠ .serving
  if cfg.colocate ∧ uninitialized ≠ [] then
    { s.spawn .init uninitialized with lock := .startingUpdate (s.spawned uninitialized) }
  else if pending ≠ [] then s
  else
    match getUpdatableServer cfg modelId evalPool with
    | .error _ => s
    | .ok server => { s with lock := .detached, updates := s.updates ++ [s.snapshot server] }

/-- The cells of `end_update_weights`: the incarnations that the update started with. -/
def matchingCells (s : World) (snapshot : List (String × String)) : List Nat :=
  s.cellsWhere fun c => (c.cellId, c.info.workersHash) ∈ snapshot

/-- `end_update_weights`, up to its first gather. -/
def endUpdateWeights (s : World) (update : Nat) (snapshot : List (String × String))
    (failedCellIds : List String) : World :=
  let cells := s.matchingCells snapshot
  let failed := cells.filter fun i => (s.cells[i]?).any fun c => c.cellId ∈ failedCellIds
  let updated := cells.filter fun i => (s.cells[i]?).any fun c => c.cellId ∉ failedCellIds
  { s.spawn .markErrored failed with
    lock := .endingFailed update failedCellIds (s.spawned failed) updated
    ends := s.ends ++ [(update, failedCellIds)] }

/-- The coroutine that holds the lock goes on, when what it awaits is over. -/
def proceed (cfg : Config) (s : World) : Option World :=
  match s.lock with
  | .free => none
  | .detached => none
  | .ticking tasks => if s.allEnded tasks then some { s with lock := .free } else none
  | .removing cell task replacement =>
    if s.allEnded [task] then
      let s := { s with allServerCells := s.allServerCells.filter (· ≠ cell) }
      match replacement with
      | none => some { s with lock := .free }
      | some (cellId, info) => some (addCell cfg s cellId info)
    else none
  | .adding cell task =>
    match s.result task with
    | none => none
    | some true => some { s with lock := .free }
    | some false =>
      let s := { s with allServerCells := s.allServerCells.filter (· ≠ cell) }
      some { s.spawn .dispose [cell] with lock := .dropping s.tasks.length }
  | .dropping task => if s.allEnded [task] then some { s with lock := .free } else none
  | .startingUpdate tasks =>
    if s.allEnded tasks ∨ s.anyRaised tasks then some { s with lock := .free } else none
  | .endingFailed update _ tasks updated =>
    -- the gather raises with the first failure; the other tasks go on
    if s.anyRaised tasks then some { s with lock := .free }
    else if s.allReturned tasks then
      let ready := updated.filter fun i => (s.cells[i]?).any fun c => c.state = .pendingWeights
      some { s.spawn (.markWeightsReady update) ready with
        lock := .endingUpdated (s.spawned ready) }
    else none
  | .endingUpdated tasks =>
    if s.anyRaised tasks ∨ s.allReturned tasks then some { s with lock := .free } else none

/-- A task goes on after its await ended with this outcome. -/
def runTask (cfg : Config) (s : World) (k : Nat) (outcome : Outcome) : Option World :=
  match s.tasks[k]? with
  | none => none
  | some t =>
    match s.cells[t.cell]? with
    | none => none
    | some c =>
      (resume cfg t.routine c t.await outcome).map fun r =>
        { s with
          cells := s.cells.set t.cell r.cell
          tasks := s.tasks.set k { t with await := r.await }
          router := if r.delist then s.router.filter (· ≠ t.cell) else s.router
          strays := if r.stray then s.strays ++ [t.cell] else s.strays }

/-! ## Steps -/

/-- What happens on the controller's event loop and at the router. -/
inductive Event where
  /-- the provider observes the cell so, or no such cell -/
  | observe (cellId : String) (observed : Option CellInfo)
  | tickCells
  | startUpdateWeights (modelId : Option String) (evalPool : Bool)
  | abortUpdateWeights
  /-- with the snapshot that the update's start returned -/
  | endUpdateWeights (update : Nat) (failedCellIds : List String)
  /-- the holder of the lock goes on -/
  | proceed
  | runTask (task : Nat) (outcome : Outcome)
  /-- the register request of a task takes effect -/
  | routerApplies (task : Nat)
  /-- a register request without a caller takes effect -/
  | routerAppliesStray (stray : Nat)
  deriving DecidableEq, Repr

/-- One step; `none` when the event cannot happen. -/
def step (cfg : Config) (s : World) : Event → Option World
  | .observe cellId observed =>
    if s.lock = .free then some (reconcile cfg s cellId observed) else none
  | .tickCells =>
    if s.lock = .free then
      let cells := s.cellsWhere fun _ => true
      some { s.spawn .tick cells with lock := .ticking (s.spawned cells) }
    else none
  | .startUpdateWeights modelId evalPool =>
    if s.lock = .free then some (startUpdateWeights cfg s modelId evalPool) else none
  | .abortUpdateWeights =>
    -- `release_if_detached`
    if s.lock = .detached then some { s with lock := .free } else some s
  | .endUpdateWeights update failedCellIds =>
    match s.lock, s.updates[update]? with
    | .detached, some snapshot => some (endUpdateWeights s update snapshot failedCellIds)
    | _, _ => none
  | .proceed => s.proceed cfg
  | .runTask k outcome => runTask cfg s k outcome
  | .routerApplies k =>
    match s.tasks[k]? with
    | some ⟨cell, routine, .registering false⟩ =>
      some { s with
        tasks := s.tasks.set k ⟨cell, routine, .registering true⟩
        router := s.router ++ [cell] }
    | _ => none
  | .routerAppliesStray k =>
    match s.strays[k]? with
    | none => none
    | some cell => some { s with strays := s.strays.eraseIdx k, router := s.router ++ [cell] }

end World

end Miles.Rollout.Serving
