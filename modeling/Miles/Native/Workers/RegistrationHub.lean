import Miles.ForStd.Except
import Miles.ForStd.PyDict
import Miles.Native.Workers.Naming

/-!
# The registration hub

Pure Lean model of `miles/utils/workers/registration/hub.py`: every deployment reports the cells it
runs, and the hub serves the cells of the deployments that still report.

`ingest` and the sweep await nothing, so each is one step. An exception leaves what was done before
it: a method returns the hub after it and its result. The clock is read in seconds.
-/

namespace Miles.Workers.Registration

open Naming

variable {Addrs : Type}

/-! ## Snapshots -/

structure CellInfo where
  cellId : String
  poolId : String
  workerNames : List String

structure WorkerInfo (Addrs : Type) where
  name : String
  selfAddrs : Addrs

structure RegisteredCellInfo (Addrs : Type) where
  reporterId : String
  info : CellInfo
  workers : List (WorkerInfo Addrs)

structure RegistrationSnapshot (Addrs : Type) where
  runUuid : String
  reporterId : String
  sequenceNumber : Int
  cells : List (RegisteredCellInfo Addrs)

/-- The assertions of the hub, with what their messages name -/
inductive HubError where
  | wrongRun (reporterId runUuid expected : String)
  | repeatedCells (reporterId : String) (cellIds : List String)
  | cellOfOther (reporterId cellId owner : String)
  | notReadable (cellId reporterId : String)
  | naming (error : NamingError)
  | wrongPool (cellId reporterId poolId announced : String)
  | noWorker (cellId reporterId : String)
  | foreignWorkers (cellId reporterId : String) (names cellIds : List String)
  | repeatedWorkers (cellId reporterId : String) (names : List String)
  | wrongWorkers (cellId reporterId : String) (announced names : List String)
  | ownedByOther (cellId owner reporterId : String)
deriving DecidableEq

/-- `sorted(names)` -/
def sorted (names : List String) : List String := names.mergeSort (· ≤ ·)

/-- A `ValueError` while the names of a cell are read becomes an assertion of its own. -/
def unreadable (cell : RegisteredCellInfo Addrs) : NamingError → HubError
  | .valueError => .notReadable cell.info.cellId cell.reporterId
  | .indexOutOfRange index => .naming (.indexOutOfRange index)

/-- `_assert_cell_addressable` -/
def assertCellAddressable (cell : RegisteredCellInfo Addrs) (reporterId : String) :
    Except HubError Unit := do
  let cellId := cell.info.cellId
  Except.ensure (cell.reporterId = reporterId) (.cellOfOther reporterId cellId cell.reporterId)
  let parsed ← (parseCellId cellId).mapError (unreadable cell)
  let workerCellIds ← (cell.workers.mapM fun worker => cellIdOfWorker worker.name).mapError
    (unreadable cell)
  Except.ensure (parsed.poolId = cell.info.poolId)
    (.wrongPool cellId cell.reporterId parsed.poolId cell.info.poolId)
  Except.ensure (cell.workers ≠ []) (.noWorker cellId cell.reporterId)
  let names := sorted (cell.workers.map WorkerInfo.name)
  Except.ensure (∀ workerCellId ∈ workerCellIds, workerCellId = cellId)
    (.foreignWorkers cellId cell.reporterId names (sorted workerCellIds.dedup))
  Except.ensure names.Nodup (.repeatedWorkers cellId cell.reporterId names)
  Except.ensure (sorted cell.info.workerNames = names)
    (.wrongWorkers cellId cell.reporterId (sorted cell.info.workerNames) names)

/-- `_assert_snapshot_addressable` -/
def assertSnapshotAddressable (snapshot : RegistrationSnapshot Addrs) : Except HubError Unit := do
  let cellIds := snapshot.cells.map fun cell => cell.info.cellId
  let repeated := sorted (cellIds.dedup.filter fun cellId => 1 < cellIds.count cellId)
  Except.ensure (repeated = []) (.repeatedCells snapshot.reporterId repeated)
  snapshot.cells.forM fun cell => assertCellAddressable cell snapshot.reporterId

/-! ## The hub -/

structure ReporterState where
  sequenceNumber : Int := -1
  lastIngestTime : ℚ := 0

structure RegistrationHub (Addrs : Type) where
  runUuid : String
  stateOfReporterId : PyDict String ReporterState := .empty
  cellOfId : PyDict String (RegisteredCellInfo Addrs) := .empty

/-- `REPORTER_TTL_SECONDS` -/
def reporterTtlSeconds : ℚ := 240

/-- Whether a cell is served for this reporter or for nobody. -/
def ownedBy (hub : RegistrationHub Addrs) (reporterId cellId : String) : Except HubError Unit :=
  match hub.cellOfId.get? cellId with
  | none => .ok ()
  | some owner =>
    Except.ensure (owner.reporterId = reporterId) (.ownedByOther cellId owner.reporterId reporterId)

/-- The cells that are served for a reporter. -/
def held (hub : RegistrationHub Addrs) (reporterId : String) : List String :=
  (hub.cellOfId.items.filter fun item => item.2.reporterId = reporterId).map Prod.fst

/-- `_replace_cells_of_reporter` -/
def replaceCellsOfReporter (hub : RegistrationHub Addrs) (reporterId : String)
    (cellOfId : PyDict String (RegisteredCellInfo Addrs)) :
    Except HubError (RegistrationHub Addrs) := do
  cellOfId.keys.forM (ownedBy hub reporterId)
  let gone := (held hub reporterId).filter (· ∉ cellOfId.keys)
  return { hub with cellOfId := (hub.cellOfId.eraseAll gone).update cellOfId }

/-- `_state_of_reporter_id.setdefault(reporter_id, _ReporterState())` -/
def addReporter (hub : RegistrationHub Addrs) (reporterId : String) :
    RegistrationHub Addrs × ReporterState :=
  match hub.stateOfReporterId.get? reporterId with
  | some state => (hub, state)
  | none => ({ hub with stateOfReporterId := hub.stateOfReporterId.set reporterId {} }, {})

/-- The cells of a snapshot by their id. -/
def cellsById (snapshot : RegistrationSnapshot Addrs) : PyDict String (RegisteredCellInfo Addrs) :=
  .ofList (snapshot.cells.map fun cell => (cell.info.cellId, cell))

/-- What `ingest` checks before it touches the hub -/
def assertSnapshot (hub : RegistrationHub Addrs) (snapshot : RegistrationSnapshot Addrs) :
    Except HubError Unit := do
  Except.ensure (snapshot.runUuid = hub.runUuid)
    (.wrongRun snapshot.reporterId snapshot.runUuid hub.runUuid)
  assertSnapshotAddressable snapshot

/-- Whether a snapshot was taken in, or came late. -/
inductive Ingested where
  | accepted
  | late
deriving DecidableEq

/-- A snapshot that is not late. -/
def accept (hub : RegistrationHub Addrs) (snapshot : RegistrationSnapshot Addrs) (clock : ℚ) :
    RegistrationHub Addrs × Except HubError Ingested :=
  match replaceCellsOfReporter hub snapshot.reporterId (cellsById snapshot) with
  | .error error => (hub, .error error)
  | .ok replaced =>
    let state := { sequenceNumber := snapshot.sequenceNumber, lastIngestTime := clock }
    ({ replaced with
        stateOfReporterId := replaced.stateOfReporterId.set snapshot.reporterId state },
      .ok .accepted)

/-- `ingest` -/
def ingest (hub : RegistrationHub Addrs) (snapshot : RegistrationSnapshot Addrs) (clock : ℚ) :
    RegistrationHub Addrs × Except HubError Ingested :=
  match assertSnapshot hub snapshot with
  | .error error => (hub, .error error)
  | .ok _ =>
    let added := addReporter hub snapshot.reporterId
    if snapshot.sequenceNumber ≤ added.2.sequenceNumber then (added.1, .ok .late)
    else accept added.1 snapshot clock

/-- `_remove_reporter` -/
def removeReporter (hub : RegistrationHub Addrs) (reporterId : String) : RegistrationHub Addrs :=
  { hub with
    stateOfReporterId := hub.stateOfReporterId.erase reporterId
    cellOfId := hub.cellOfId.eraseAll (held hub reporterId) }

/-- `_remove_stale_reporters` -/
def removeStaleReporters (hub : RegistrationHub Addrs) (clock : ℚ) : RegistrationHub Addrs :=
  let deadline := clock - reporterTtlSeconds
  let stale := hub.stateOfReporterId.items.filter fun item => item.2.lastIngestTime ≤ deadline
  (stale.map Prod.fst).foldl removeReporter hub

/-- What happens to a hub. -/
inductive Event (Addrs : Type) where
  | ingest (snapshot : RegistrationSnapshot Addrs) (clock : ℚ)
  | sweep (clock : ℚ)

def step (hub : RegistrationHub Addrs) : Event Addrs → RegistrationHub Addrs
  | .ingest snapshot clock => (ingest hub snapshot clock).1
  | .sweep clock => removeStaleReporters hub clock

end Miles.Workers.Registration
