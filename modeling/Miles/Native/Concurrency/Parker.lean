import Miles.ForStd.Lts

/-!
# Parking the followers

Pure Lean model of `Parker`: a leader that holds its followers at their round boundary, over an
event and a counter. Tasks run until their next `await`, so a step is the code between two of them;
the scheduler is free to resume any task that can run, and to cancel one at an `await`.
-/

namespace Miles.Parker

/-- Where the leader is in `with_all_parked` -/
inductive LeaderPc where
  | outside
  /-- Asleep in `_wait_num_ready(0)`. -/
  | dispersing (deadline : ℚ)
  /-- Asleep in `_wait_num_ready(self._num_followers)`. -/
  | gathering (deadline : ℚ)
  /-- In the body. -/
  | body
deriving DecidableEq

/-- Where a follower is in `maybe_park_follower` -/
inductive FollowerPc where
  | outside
  /-- At `await asyncio.sleep(0)`. -/
  | yielding
  /-- At `await self._event.wait()`; woken when the event was set since. -/
  | parked (woken : Bool)
deriving DecidableEq

/-- The leader, the followers and the parker they share -/
structure World (numFollowers : Nat) where
  event : Bool
  numReady : Int
  leader : LeaderPc
  follower : Fin numFollowers → FollowerPc

/-- `PARK_TIMEOUT_SECONDS` -/
def parkTimeoutSeconds : ℚ := 3600

/-- What `time.monotonic()` answers when `_wait_num_ready` starts and in its first round -/
structure Reading where
  started : ℚ
  checked : ℚ

def Reading.deadline (reading : Reading) : ℚ := reading.started + parkTimeoutSeconds

/-- The end of a round of `_wait_num_ready` -/
inductive Wait where
  | reached
  | asleep
  | expired
deriving DecidableEq

/-- A round of `_wait_num_ready(target)` -/
def waitNumReady (numReady target : Int) (deadline now : ℚ) : Wait :=
  if numReady = target then .reached
  else if now < deadline then .asleep
  -- `assert time.monotonic() < deadline`
  else .expired

/-- What happens in a run -/
inductive Event (numFollowers : Nat) where
  /-- The leader enters; it may get through both waits at once. -/
  | enter (first second : Reading)
  /-- The leader wakes up from its sleep. -/
  | poll (now : ℚ) (second : Reading)
  /-- The body returns or raises. -/
  | leave
  /-- The leader is cancelled in its sleep. -/
  | cancelLeader
  /-- A follower calls `maybe_park_follower`. -/
  | arrive (f : Fin numFollowers)
  /-- A follower goes on after its `await`. -/
  | resume (f : Fin numFollowers)
  /-- A follower is cancelled at its `await`. -/
  | cancel (f : Fin numFollowers)

section
variable {numFollowers : Nat}

def FollowerPc.wake : FollowerPc → FollowerPc
  | .parked _ => .parked true
  | pc => pc

/-- `self._event.set()` -/
def setEvent (w : World numFollowers) : World numFollowers :=
  if w.event then w
  else { w with event := true, follower := fun f => (w.follower f).wake }

/-- `self._event.clear()` -/
def clearEvent (w : World numFollowers) : World numFollowers := { w with event := false }

/-- `with_all_parked` in its second wait, under the `finally` that sets the event -/
def gather (w : World numFollowers) (deadline now : ℚ) : World numFollowers :=
  match waitNumReady w.numReady numFollowers deadline now with
  | .reached => { w with leader := .body }
  | .asleep => { w with leader := .gathering deadline }
  | .expired => { setEvent w with leader := .outside }

/-- `with_all_parked` in its first wait -/
def disperse (w : World numFollowers) (deadline now : ℚ) (second : Reading) : World numFollowers :=
  match waitNumReady w.numReady 0 deadline now with
  | .reached => gather (clearEvent w) second.deadline second.checked
  | .asleep => { w with leader := .dispersing deadline }
  | .expired => { w with leader := .outside }

def withAllParked (w : World numFollowers) (first second : Reading) :
    Option (World numFollowers) :=
  match w.leader with
  | .outside => some (disperse w first.deadline first.checked second)
  | _ => none

def poll (w : World numFollowers) (now : ℚ) (second : Reading) : Option (World numFollowers) :=
  match w.leader with
  | .dispersing deadline => some (disperse w deadline now second)
  | .gathering deadline => some (gather w deadline now)
  | _ => none

def leave (w : World numFollowers) : Option (World numFollowers) :=
  match w.leader with
  | .body => some { setEvent w with leader := .outside }
  | _ => none

def cancelLeader (w : World numFollowers) : Option (World numFollowers) :=
  match w.leader with
  | .dispersing _ => some { w with leader := .outside }
  | .gathering _ => some { setEvent w with leader := .outside }
  | _ => none

def World.move (w : World numFollowers) (f : Fin numFollowers) (pc : FollowerPc) :
    World numFollowers :=
  { w with follower := Function.update w.follower f pc }

def maybeParkFollower (w : World numFollowers) (f : Fin numFollowers) :
    Option (World numFollowers) :=
  match w.follower f with
  | .outside => some (w.move f .yielding)
  | _ => none

def resume (w : World numFollowers) (f : Fin numFollowers) : Option (World numFollowers) :=
  match w.follower f with
  | .yielding =>
    -- an event that is set lets the follower through without another `await`
    if w.event then some { w.move f .outside with numReady := w.numReady + 1 - 1 }
    else some { w.move f (.parked false) with numReady := w.numReady + 1 }
  | .parked true => some { w.move f .outside with numReady := w.numReady - 1 }
  | _ => none

/-- The `CancelledError` leaves `maybe_park_follower` at once; nothing there catches it. -/
def cancel (w : World numFollowers) (f : Fin numFollowers) : Option (World numFollowers) :=
  match w.follower f with
  | .outside => none
  | _ => some (w.move f .outside)

def step (w : World numFollowers) : Event numFollowers → Option (World numFollowers)
  | .enter first second => withAllParked w first second
  | .poll now second => poll w now second
  | .leave => leave w
  | .cancelLeader => cancelLeader w
  | .arrive f => maybeParkFollower w f
  | .resume f => resume w f
  | .cancel f => cancel w f

/-- `Parker(num_followers=...)`, with every task outside. -/
def World.initial (numFollowers : Nat) : World numFollowers :=
  ⟨true, 0, .outside, fun _ => .outside⟩

end

end Miles.Parker
