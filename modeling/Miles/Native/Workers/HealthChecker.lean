import Miles.ForStd.Lts

/-!
# Health checker

Pure Lean model of `SimpleHealthChecker` over an `ActivenessTracker`: the loop runs from one `await`
to the next in one step; in between, the activeness may change, the probe may end and time passes.
-/

namespace Miles.HealthChecker

inductive TriState where
  | true
  | false
  | unknown
deriving DecidableEq

@[ext]
structure ActiveAndEpoch where
  active : Bool
  epoch : Nat
deriving DecidableEq

/-- `ActivenessTracker.bump_active`, on the state of the tracker -/
def bumpActive (tracker : ActiveAndEpoch) (active : Bool) : ActiveAndEpoch :=
  if active = tracker.active then tracker else ⟨active, tracker.epoch + 1⟩

/-- `SimpleHealthCheckerConfig` -/
structure Config where
  interval : ℚ
  timeout : ℚ
  firstWait : ℚ
  failureThreshold : Int

/-- How the coroutine of a probe ends -/
inductive Outcome where
  | success
  | failure
  /-- A `CancelledError`, which `_run_probe` does not catch. -/
  | cancelled
deriving DecidableEq

/-- A probe task; the epoch at its end is read by no step. -/
structure Probe where
  activeAndEpoch : ActiveAndEpoch
  startedAt : ℚ
  ended : Option (Outcome × Nat) := none

/-- The `await` that the loop is at -/
inductive LoopPc where
  | created
  | sleeping (until_ : ℚ)
  | probing (probe : Probe)
  | dead

structure Checker where
  status : TriState := .unknown
  activeAndEpoch : ActiveAndEpoch := ⟨false, 0⟩
  needFirstWait : Bool := true
  consecutiveFailures : Nat := 0
  pc : LoopPc := .created

/-- A time at which the loop noticed an epoch, or started a probe of it -/
structure Mark where
  epoch : Nat
  time : ℚ

/-- A probe whose result the loop has seen -/
structure ProbeRecord where
  startEpoch : Nat
  endEpoch : Nat
  success : Bool
  published : Bool

/-- The checker, the tracker it reads and the clock; no step reads the three lists. -/
structure World where
  now : ℚ
  tracker : ActiveAndEpoch
  checker : Checker
  noticed : List Mark := []
  started : List Mark := []
  probes : List ProbeRecord := []

/-- `SimpleHealthChecker.status` -/
def status (w : World) : TriState :=
  if ¬ w.tracker.active ∨ w.tracker ≠ w.checker.activeAndEpoch then .unknown
  else w.checker.status

def onPaused (c : Checker) : Checker := { c with status := .unknown }

def onResumed (c : Checker) : Checker :=
  { c with needFirstWait := true, status := .unknown, consecutiveFailures := 0 }

/-- The head of `_loop`: the activeness is read, and a change of it is noticed. -/
def notice (w : World) : World :=
  if w.tracker = w.checker.activeAndEpoch then w
  else
    let c := { w.checker with activeAndEpoch := w.tracker }
    { w with
      checker := if w.tracker.active then onResumed c else onPaused c
      noticed := w.noticed ++ [⟨w.tracker.epoch, w.now⟩] }

/-- The rest of `_loop`, up to its `await` -/
def act (config : Config) (w : World) : World :=
  if w.tracker.active ∧ w.checker.needFirstWait then
    { w with checker := { w.checker with
        needFirstWait := false, pc := .sleeping (w.now + config.firstWait) } }
  else if w.tracker.active then
    { w with
      checker := { w.checker with pc := .probing ⟨w.tracker, w.now, none⟩ }
      started := w.started ++ [⟨w.tracker.epoch, w.now⟩] }
  else { w with checker := { w.checker with pc := .sleeping (w.now + config.interval) } }

/-- The loop goes on after a sleep, or starts. -/
def wake (config : Config) (w : World) : Option World :=
  match w.checker.pc with
  | .created => some (act config (notice w))
  | .sleeping until_ => if until_ ≤ w.now then some (act config (notice w)) else none
  | _ => none

/-- The task of the probe ends. -/
def endProbe (w : World) (outcome : Outcome) : Option World :=
  match w.checker.pc with
  | .probing ⟨activeAndEpoch, startedAt, none⟩ =>
    some { w with checker := { w.checker with
      pc := .probing ⟨activeAndEpoch, startedAt, some (outcome, w.tracker.epoch)⟩ } }
  | _ => none

/-- `asyncio.wait_for` gives up on the probe. -/
def timeOut (config : Config) (w : World) : Option World :=
  match w.checker.pc with
  | .probing ⟨_, startedAt, none⟩ =>
    if startedAt + config.timeout ≤ w.now then endProbe w .failure else none
  | _ => none

/-- `_publish_result` -/
def publishResult (config : Config) (c : Checker) (success : Bool) : Checker :=
  if success then { c with consecutiveFailures := 0, status := .true }
  else
    { c with
      consecutiveFailures := c.consecutiveFailures + 1
      status :=
        if config.failureThreshold ≤ (c.consecutiveFailures + 1 : Nat) then .false else c.status }

/-- The loop goes on after `_run_probe`: it reads the activeness again. -/
def finish (config : Config) (w : World) (activeAndEpoch : ActiveAndEpoch) (endEpoch : Nat)
    (success : Bool) : World :=
  let discarded := ¬ w.tracker.active ∨ w.tracker.epoch ≠ activeAndEpoch.epoch
  let c := if discarded then w.checker else publishResult config w.checker success
  { w with
    checker := { c with pc := .sleeping (w.now + config.interval) }
    probes := w.probes ++ [⟨activeAndEpoch.epoch, endEpoch, success, decide (¬ discarded)⟩] }

def resume (config : Config) (w : World) : Option World :=
  match w.checker.pc with
  | .probing ⟨activeAndEpoch, _, some (.success, endEpoch)⟩ =>
    some (finish config w activeAndEpoch endEpoch true)
  | .probing ⟨activeAndEpoch, _, some (.failure, endEpoch)⟩ =>
    some (finish config w activeAndEpoch endEpoch false)
  | .probing ⟨_, _, some (.cancelled, _)⟩ =>
    some { w with checker := { w.checker with pc := .dead } }
  | _ => none

/-- What happens in a run -/
inductive Event where
  | bump (active : Bool)
  | elapse (seconds : ℚ)
  | wake
  | endProbe (outcome : Outcome)
  | timeOut
  | resume

def step (config : Config) (w : World) : Event → Option World
  | .bump active => some { w with tracker := bumpActive w.tracker active }
  | .elapse seconds => if 0 ≤ seconds then some { w with now := w.now + seconds } else none
  | .wake => wake config w
  | .endProbe outcome => endProbe w outcome
  | .timeOut => timeOut config w
  | .resume => resume config w

/-- A started checker, over `ActivenessTracker(active=...)`. -/
def World.initial (active : Bool) : World := { now := 0, tracker := ⟨active, 0⟩, checker := {} }

end Miles.HealthChecker
