import Miles.Native.Rollout.FullyAsync

/-!
# The training loop over a fully-async rollout

Model of the loop in `train_async.py` with `--fully-async` and a weight update in every step:
await a batch, train, update the weights, and only then ask for the next batch
(`defer_next_drain`).
-/

namespace Miles.Rollout

/-- The training loop.  `updateDue` stands for the time between a batch and the weight update
    that follows it. -/
structure TrainLoop where
  rollout : State
  updateDue : Bool := false
  deriving DecidableEq

/-- The loop starts when the loaded weights have been published. -/
def TrainLoop.start (version : Nat) : TrainLoop :=
  { rollout := { weightVersion := some version } }

/-- What happens around the training loop. -/
inductive TrainEvent where
  /-- something on the event loop of the rollout -/
  | rollout (event : Event)
  /-- `update_weights` after a training step -/
  | updateWeights
  deriving DecidableEq

/-- One step of the training loop.  Publishing is left to `updateWeights`, and a restart ends
    the loop. -/
def trainStep (args : Args) (dataSource : Nat → List Sample) (s : TrainLoop) :
    TrainEvent → Option TrainLoop
  | .rollout (.publish _) => none
  | .rollout .restart => none
  | .rollout .get =>
    if s.updateDue then none
    else (step args dataSource s.rollout .get).map fun rollout => { s with rollout }
  | .rollout .takeTurn =>
    -- a batch has been taken when the `get` is not pending any more
    (step args dataSource s.rollout .takeTurn).map fun rollout =>
      { rollout, updateDue := s.updateDue || rollout.pendingGet.isNone }
  | .rollout event => (step args dataSource s.rollout event).map fun rollout => { s with rollout }
  | .updateWeights =>
    match s.rollout.weightVersion with
    | some version =>
      if s.updateDue then
        (step args dataSource s.rollout (.publish (version + 1))).map fun rollout =>
          { rollout, updateDue := false }
      else none
    | none => none

end Miles.Rollout
