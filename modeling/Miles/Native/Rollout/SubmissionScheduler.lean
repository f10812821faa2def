import Miles.ForStd.Lts

/-!
# Backfill by samples

Pure Lean model of `SampleBackfillSubmission` and of a driver that admits one group at a time: the
tasks of its groups and their samples, and the waiter of `wait_for_progress`. Tasks run until their
next `await`, so a step is the code between two of them; the event loop is free in their order.
-/

namespace Miles.SubmissionScheduler

/-- `SampleBackfillSubmission` -/
structure SampleBackfillSubmission where
  groupSize : Nat
  samplesInFlight : Int := 0
  /-- `_sample_done` -/
  sampleDone : Bool := false
deriving DecidableEq

namespace SampleBackfillSubmission

/-- `sample_done_callback` -/
def sampleDoneCallback (s : SampleBackfillSubmission) : SampleBackfillSubmission :=
  { s with samplesInFlight := s.samplesInFlight - 1, sampleDone := true }

/-- With no pending group the count starts again. -/
def resetIfIdle (s : SampleBackfillSubmission) (pendingGroups : Nat) : SampleBackfillSubmission :=
  if pendingGroups = 0 ∧ s.samplesInFlight ≠ 0 then { s with samplesInFlight := 0 } else s

/-- `has_capacity`; a False return arms the sample wakeup. -/
def hasCapacity (s : SampleBackfillSubmission) (pendingGroups : Nat) (groupBudget : Int) :
    Bool × SampleBackfillSubmission :=
  let s := s.resetIfIdle pendingGroups
  if s.samplesInFlight + s.groupSize ≤ groupBudget * s.groupSize then (true, s)
  else (false, { s with sampleDone := false })

/-- `on_submit` -/
def onSubmit {α : Type} (s : SampleBackfillSubmission) (groups : List (List α)) :
    SampleBackfillSubmission :=
  { s with samplesInFlight := s.samplesInFlight + (groups.map List.length).sum }

end SampleBackfillSubmission

/-- The task of a group -/
inductive Group where
  /-- Created and not yet run. -/
  | submitted (size : Nat)
  /-- It awaits its samples: some run, and of some the done callback is still to be called. -/
  | spawned (running uncalled : Nat)
  | returned
deriving DecidableEq

/-- The task that waits for the event in `wait_for_progress` -/
inductive Waiter where
  | created
  /-- At `await self._sample_done.wait()`. -/
  | blocked
  /-- The event was set since. -/
  | woken
  | done
deriving DecidableEq

structure World where
  scheduler : SampleBackfillSubmission
  /-- The groups that the driver holds as pending. -/
  pendings : List Group := []
  /-- The budget of the last `has_capacity` call, if that was True and nothing was admitted on it. -/
  granted : Option Int := none
  /-- The driver is in `wait_for_progress`. -/
  waiting : Option Waiter := none
  /-- A sample's callback has run since the last False of `has_capacity`. -/
  finishedSince : Bool := false
deriving DecidableEq

inductive Event where
  | hasCapacity (groupBudget : Int)
  | submit (group : List Nat)
  /-- The driver drops the groups that have returned from its pending ones. -/
  | collect
  | waitForProgress
  /-- The group at this place runs and creates the tasks of its samples. -/
  | spawn (group : Nat)
  /-- It returns, or is cancelled, before it does. -/
  | skip (group : Nat)
  /-- One of its samples is done: it returned, raised or was cancelled. -/
  | finishSample (group : Nat)
  | sampleDoneCallback (group : Nat)
  | returnGroup (group : Nat)
  /-- A turn of the event loop in which the waiter, or the driver after it, is run if it can be. -/
  | turn
  /-- The driver is run because a group has returned. -/
  | groupWakeup
deriving DecidableEq

/-- One group changes. -/
def changeGroup (w : World) (i : Nat) (change : Group → Option Group) : Option World :=
  match w.pendings[i]? with
  | none => none
  | some group => (change group).map fun group' => { w with pendings := w.pendings.set i group' }

def Group.spawn : Group → Option Group
  | .submitted size => some (.spawned size 0)
  | _ => none

def Group.skip : Group → Option Group
  | .submitted _ => some .returned
  | _ => none

def Group.finishSample : Group → Option Group
  | .spawned (running + 1) uncalled => some (.spawned running (uncalled + 1))
  | _ => none

def Group.callBack : Group → Option Group
  | .spawned running (uncalled + 1) => some (.spawned running uncalled)
  | _ => none

/-- The group awaits all of its samples, also after one of them has raised, and what wakes it was
    registered after the scheduler's callbacks. -/
def Group.settle : Group → Option Group
  | .spawned 0 0 => some .returned
  | _ => none

/-- The event wakes a waiter that is blocked on it. -/
def Waiter.wake : Waiter → Waiter
  | .blocked => .woken
  | waiter => waiter

/-- The scheduler hears of a done sample. -/
def callBack (w : World) : World :=
  { w with
    scheduler := w.scheduler.sampleDoneCallback
    waiting := w.waiting.map Waiter.wake
    finishedSince := true }

/-- The groups that `asyncio.wait` gives back as pending -/
def collect (w : World) : World := { w with pendings := w.pendings.filter (· ≠ .returned) }

def turn (w : World) : World :=
  match w.waiting with
  | none => w
  | some .created =>
    { w with waiting := some (if w.scheduler.sampleDone then .done else .blocked) }
  | some .blocked => w
  | some .woken => { w with waiting := some .done }
  | some .done => collect { w with waiting := none }

def step (w : World) : Event → Option World
  | .hasCapacity groupBudget =>
    if w.waiting.isSome then none
    else
      match w.scheduler.hasCapacity w.pendings.length groupBudget with
      | (true, scheduler) => some { w with scheduler, granted := some groupBudget }
      | (false, scheduler) =>
        some { w with scheduler, granted := none, finishedSince := false }
  | .submit group =>
    if w.waiting.isNone ∧ w.granted.isSome ∧ group.length = w.scheduler.groupSize then
      some { w with
        scheduler := w.scheduler.onSubmit [group]
        pendings := w.pendings ++ [.submitted group.length]
        granted := none }
    else none
  | .collect => if w.waiting.isSome then none else some (collect w)
  | .waitForProgress => if w.waiting.isSome then none else some { w with waiting := some .created }
  | .spawn i => changeGroup w i Group.spawn
  | .skip i => changeGroup w i Group.skip
  | .finishSample i => changeGroup w i Group.finishSample
  | .sampleDoneCallback i => (changeGroup w i Group.callBack).map callBack
  | .returnGroup i => changeGroup w i Group.settle
  | .turn => some (turn w)
  | .groupWakeup =>
    if w.waiting.isSome ∧ .returned ∈ w.pendings then some (collect { w with waiting := none })
    else none

/-- A driver that has just made its scheduler. -/
def World.initial (groupSize : Nat) : World := { scheduler := { groupSize } }

/-- How many samples of a group have a task that is not done. -/
def Group.unfinished : Group → Nat
  | .spawned running _ => running
  | _ => 0

/-- The unfinished sample tasks -/
def World.unfinished (w : World) : Nat := (w.pendings.map Group.unfinished).sum

end Miles.SubmissionScheduler
