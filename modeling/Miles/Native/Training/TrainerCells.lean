import Mathlib

/-!
# Trainer cells and their quorum

Model of `TrainerCell` (`miles/ray/train/cell.py`), of the quorum part of `TrainerController`
(`miles/ray/train/group.py`) and of `IndepDPInfo` (`miles/utils/ft_utils/indep_dp.py`).

Everything runs on one event loop, so a step is what happens between two awaits: an
observation of the provider, another call marking a cell errored, the synchronous start of a
refresh, one resumption of a cell's prepare, or the end of the gather that waits for them.

A cell id is the pool's name and the cell's index, so cells are keyed by their index.  Removed
cells are kept as objects: a prepare of theirs that is in flight goes on.  Worker handles,
health checkers, logging and the arguments that the actors' `init` gets unchanged are left out.
-/

namespace Miles.Training.Trainer

/-! ## Cells -/

/-- `IndepDPInfo`, with the assertions of `__post_init__`. -/
structure IndepDPInfo where
  cellIndex : Nat
  numCells : Nat
  aliveRank : Nat
  aliveSize : Nat
  quorumId : Nat
  aliveCellIndices : List Nat
  /-- `alive_rank == alive_cell_indices.index(cell_index)` -/
  aliveRank_eq : aliveCellIndices.idxOf? cellIndex = some aliveRank
  aliveSize_eq : aliveSize = aliveCellIndices.length
  deriving DecidableEq

/-- `CellState` -/
inductive CellState where
  | uninitialized
  | alive (indepDpInfo : IndepDPInfo)
  | errored (indepDpInfo : Option IndepDPInfo)
  deriving DecidableEq

/-- What a cell remembers of its quorum. -/
def CellState.info? : CellState → Option IndepDPInfo
  | .uninitialized => none
  | .alive info => some info
  | .errored info => info

/-- `TrainerCell` -/
structure TrainerCell where
  cellIndex : Nat
  workersHash : String
  disposed : Bool := false
  state : CellState := .uninitialized
  deriving DecidableEq

namespace TrainerCell

/-- `is_alive` -/
def isAlive (c : TrainerCell) : Bool :=
  match c.state with
  | .alive _ => true
  | _ => false

/-- `is_uninitialized` -/
def isUninitialized (c : TrainerCell) : Bool :=
  match c.state with
  | .uninitialized => true
  | _ => false

/-- `_mark_as_errored`, which every state allows. -/
def markAsErrored (c : TrainerCell) : TrainerCell :=
  { c with state := .errored c.state.info? }

end TrainerCell

/-! ## Cooperative prepare -/

/-- The actor calls of a prepare. -/
inductive ActorCall where
  | configureMasterAddrAndPort
  | init
  | reconfigureIndepDp
  /-- with the ranks to send to afterwards -/
  | sendCkpt (rest : List Nat)
  deriving DecidableEq

/-- Where the coroutine of a prepare stands. -/
inductive PrepareStage where
  /-- its task has not run yet -/
  | queued
  | calling (fn : ActorCall)
  /-- the cell is marked alive; `await asyncio.sleep(0)` of `init` -/
  | sleeping
  /-- a call failed and the cell is marked errored; its workers are being killed -/
  | killing
  | returned
  | raised
  deriving DecidableEq

/-- `prepare_indep_dp_mode_alive` or `prepare_indep_dp_mode_healing`. -/
inductive PrepareMode where
  | alive (sendCkptDstRanks : List Nat)
  | healing (recvCkptSrcRank : Option Nat)
  deriving DecidableEq

/-- A cell object whose prepare is gathered, and the info it is to hold. -/
structure Participant where
  object : Nat
  mode : PrepareMode
  info : IndepDPInfo
  stage : PrepareStage := .queued
  deriving DecidableEq

/-- The start of `_execute_raw`: a disposed cell is not called. -/
def call (c : TrainerCell) (fn : ActorCall) : PrepareStage :=
  if c.disposed then .raised else .calling fn

/-- The loop over `send_ckpt_dst_ranks`. -/
def sendNext (c : TrainerCell) : List Nat → PrepareStage
  | [] => .returned
  | _ :: rest => call c (.sendCkpt rest)

/-- An actor call returned, and the prepare goes on to its next await. -/
def returnFrom (c : TrainerCell) (mode : PrepareMode) (info : IndepDPInfo) :
    ActorCall → TrainerCell × PrepareStage
  | .configureMasterAddrAndPort => (c, call c .init)
  | .init =>
    -- `_mark_as_alive` asserts the state
    if c.isUninitialized then ({ c with state := .alive info }, .sleeping) else (c, .raised)
  | .reconfigureIndepDp =>
    -- `_update_indep_dp_info` asserts the state
    if c.isAlive then
      let c := { c with state := .alive info }
      (c, sendNext c (match mode with
        | .alive ranks => ranks
        | .healing _ => []))
    else (c, .raised)
  | .sendCkpt rest => (c, sendNext c rest)

/-- An actor call failed: the cell is marked errored unless it was removed. -/
def failFrom (c : TrainerCell) : TrainerCell × PrepareStage :=
  if c.disposed then (c, .raised) else (c.markAsErrored, .killing)

/-- The first actor call of a prepare. -/
def PrepareMode.firstCall : PrepareMode → ActorCall
  | .alive _ => .reconfigureIndepDp
  | .healing _ => .configureMasterAddrAndPort

/-- One resumption of a prepare; `ok` says whether the awaited call returned. -/
def resume (c : TrainerCell) (p : Participant) (ok : Bool) : Option (TrainerCell × PrepareStage) :=
  match p.stage with
  | .queued => some (c, call c p.mode.firstCall)
  | .calling fn => some (if ok then returnFrom c p.mode p.info fn else failFrom c)
  | .sleeping => some (c, .returned)
  | .killing => some (c, .raised)
  | .returned => none
  | .raised => none

/-! ## The controller -/

/-- A gather of prepares: that of `init`, or of a refresh. -/
structure Operation where
  isInit : Bool
  willAliveIndices : List Nat
  participants : List Participant
  deriving DecidableEq

/-- `TrainerController`.  `objects` are all cells ever added; the ones in `_cells_by_id` are
    those not disposed, since only removal disposes a cell. -/
structure TrainerController where
  objects : List TrainerCell := []
  indepDpQuorumId : Nat := 0
  initStarted : Bool := false
  initialized : Bool := false
  operation : Option Operation := none
  deriving DecidableEq

namespace TrainerController

/-- `_cells` with the position of each in `objects`, sorted by cell index. -/
def cells (s : TrainerController) : List (TrainerCell × Nat) :=
  (s.objects.zipIdx.filter fun entry => !entry.1.disposed).insertionSort
    fun a b => a.1.cellIndex ≤ b.1.cellIndex

/-- `[c.cell_index for c in self._cells if ...]` -/
def indicesWhere (s : TrainerController) (keep : TrainerCell → Bool) : List Nat :=
  (s.cells.filter fun entry => keep entry.1).map fun entry => entry.1.cellIndex

/-- `_compute_indep_dp_info`; `none` is the `ValueError` of an index that is not listed. -/
def computeIndepDpInfo (s : TrainerController) (quorumId cellIndex : Nat)
    (aliveCellIndices : List Nat) : Option IndepDPInfo :=
  match h : aliveCellIndices.idxOf? cellIndex with
  | none => none
  | some aliveRank =>
    some
      { cellIndex
        numCells := s.cells.length
        aliveRank
        aliveSize := aliveCellIndices.length
        quorumId
        aliveCellIndices
        aliveRank_eq := h
        aliveSize_eq := rfl }

/-- The participants among the cells with an index in `willAlive`. -/
def prepareAll (s : TrainerController) (quorumId : Nat) (willAlive : List Nat)
    (mode : TrainerCell → PrepareMode) : List Participant :=
  (s.cells.filter fun entry => entry.1.cellIndex ∈ willAlive).filterMap fun entry =>
    (s.computeIndepDpInfo quorumId entry.1.cellIndex willAlive).map fun info =>
      { object := entry.2, mode := mode entry.1, info }

/-- What `_refresh_cells` decides from the cells' states. -/
inductive RefreshDecision where
  /-- `NonRetryableError`: no cell is alive -/
  | cannotRecover
  /-- no reconfiguration is needed -/
  | unchanged
  | reconfigure (healingIndices aliveIndices willAliveIndices : List Nat)
  deriving DecidableEq

/-- Step 0 of `_refresh_cells`. -/
def refreshDecision (s : TrainerController) : RefreshDecision :=
  let snapshottedHealingIndices := s.indicesWhere TrainerCell.isUninitialized
  let snapshottedAliveIndices := s.indicesWhere TrainerCell.isAlive
  let willAliveIndices :=
    (snapshottedHealingIndices ++ snapshottedAliveIndices).dedup.insertionSort (· ≤ ·)
  if snapshottedAliveIndices = [] then .cannotRecover
  else
    let existsAliveCellChangedConfig := s.cells.any fun entry =>
      entry.1.cellIndex ∈ snapshottedAliveIndices ∧
        entry.1.state.info?.any (·.aliveCellIndices ≠ willAliveIndices)
    if snapshottedHealingIndices ≠ [] ∨ existsAliveCellChangedConfig then
      .reconfigure snapshottedHealingIndices snapshottedAliveIndices willAliveIndices
    else .unchanged

/-- Steps 1 and 2 of `_refresh_cells`, up to the gather. -/
def reconfigure (s : TrainerController) (healing alive willAlive : List Nat) :
    TrainerController :=
  let quorumId := s.indepDpQuorumId + 1
  let srcCellIndex := alive.headD 0
  let srcAliveRank := willAlive.idxOf srcCellIndex
  let ckptDstAliveRanks := healing.map willAlive.idxOf
  { s with
    indepDpQuorumId := quorumId
    operation := some
      { isInit := false
        willAliveIndices := willAlive
        participants := s.prepareAll quorumId willAlive fun c =>
          if c.cellIndex ∈ alive then
            .alive (if c.cellIndex = srcCellIndex then ckptDstAliveRanks else [])
          else .healing (if c.cellIndex ∈ healing then some srcAliveRank else none) } }

/-! ## Steps -/

/-- What happens on the controller's event loop. -/
inductive Event where
  /-- `_reconcile`: the provider observes the cell with this hash, or no such cell -/
  | observe (cellIndex : Nat) (observed : Option String)
  /-- another call on the cell object fails, and marks it errored -/
  | markErrored (object : Nat)
  /-- `init`, up to its gather -/
  | startInit
  /-- `_refresh_cells`, up to its gather or its early return -/
  | startRefresh
  /-- the prepare of a participant resumes -/
  | advance (participant : Nat) (ok : Bool)
  /-- the gather of `init` or of the refresh ends -/
  | finish
  deriving DecidableEq

/-- `_remove_cell`: the cell with this index is disposed. -/
def removeCell (s : TrainerController) (cellIndex : Nat) : TrainerController :=
  { s with
    objects := s.objects.map fun c =>
      if c.cellIndex = cellIndex then { c with disposed := true } else c }

/-- `_add_cell` -/
def addCell (s : TrainerController) (cellIndex : Nat) (workersHash : String) :
    TrainerController :=
  { s with objects := s.objects ++ [{ cellIndex, workersHash }] }

/-- `apply_cell_observation` for the cell with this index. -/
def reconcile (s : TrainerController) (cellIndex : Nat) (observed : Option String) :
    TrainerController :=
  let actual := s.objects.find? fun c => !c.disposed && c.cellIndex == cellIndex
  match observed, actual with
  | some hash, none => s.addCell cellIndex hash
  | none, some _ => s.removeCell cellIndex
  | some hash, some c =>
    if c.workersHash ≠ hash then (s.removeCell cellIndex).addCell cellIndex hash else s
  | none, none => s

/-- One resumption of the `k`-th prepare of the operation. -/
def advance (s : TrainerController) (k : Nat) (ok : Bool) : Option TrainerController :=
  match s.operation with
  | none => none
  | some op =>
    match op.participants[k]? with
    | none => none
    | some p =>
      match s.objects[p.object]? with
      | none => none
      | some c =>
        (resume c p ok).map fun (c', stage) =>
          { s with
            objects := s.objects.set p.object c'
            operation := some
              { op with participants := op.participants.set k { p with stage } } }

/-- One step; `none` when the event cannot happen.  An `init` in which a prepare raised does
    not return to the driver, so no refresh follows it. -/
def step (s : TrainerController) : Event → Option TrainerController
  | .observe cellIndex observed => some (s.reconcile cellIndex observed)
  | .markErrored i =>
    match s.objects[i]? with
    | none => none
    | some c => some { s with objects := s.objects.set i c.markAsErrored }
  | .startInit =>
    if s.initStarted then none
    else
      let initialCellIndices := s.indicesWhere fun _ => true
      some
        { s with
          initStarted := true
          operation := some
            { isInit := true
              willAliveIndices := initialCellIndices
              participants := s.prepareAll s.indepDpQuorumId initialCellIndices
                fun _ => .healing none } }
  | .startRefresh =>
    if s.initialized ∧ s.operation = none then
      match s.refreshDecision with
      | .reconfigure healing alive willAlive => some (s.reconfigure healing alive willAlive)
      | _ => some s
    else none
  | .advance k ok => s.advance k ok
  | .finish =>
    match s.operation with
    | none => none
    | some op =>
      if op.isInit then
        if op.participants.all (·.stage = .returned) then
          some { s with initialized := true, operation := none }
        else none
      else if op.participants.all fun p => p.stage = .returned ∨ p.stage = .raised then
        some { s with operation := none }
      else none

end TrainerController

end Miles.Training.Trainer
