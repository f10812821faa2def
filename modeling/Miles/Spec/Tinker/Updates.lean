import Miles.ForStd.Except
import Miles.Native.Tinker.Service

/-!
# What one event does to the Tinker service

An event moves the trainer lock and makes a sequence of updates of the models, queues, futures
and the trace.  Each kind of update is listed once; what every update preserves, every run does.
-/

namespace Miles.Tinker

/-- The slot of the model whose close waits for the trainer. -/
def Await.closing : Await → List Nat
  | .closeTrainerDead r | .closeUnload r => [r.slot]
  | _ => []

namespace Service

open Lts Relation

variable {config : GatewayConfig} {s s' : Service}

/-! ## Requests and jobs -/

/-- A future after an answer is given: the same one, or a pending one that takes the answer. -/
theorem mem_settle {requestId now : Nat} {outcome : Outcome} {futures : List RequestFuture}
    {f : RequestFuture} (hf : f ∈ RequestFutureStore.settle requestId outcome now futures) :
    (f ∈ futures ∧ ¬ (f.requestId = requestId ∧ f.state = .pending)) ∨
    ∃ g ∈ futures, g.requestId = requestId ∧ g.state = .pending ∧
      f = { g with state := .settled outcome, finishedAt := some now } := by
  obtain ⟨g, hg, rfl⟩ := List.mem_map.mp hf
  by_cases hset : g.requestId = requestId ∧ g.state = .pending
  · rw [if_pos hset]
    exact .inr ⟨g, hg, hset.1, hset.2, rfl⟩
  · rw [if_neg hset]
    exact .inl ⟨hg, hset⟩

theorem findModel_some {modelId : Nat} {r : ModelRecord} (h : s.findModel modelId = some r) :
    r ∈ s.models ∧ r.modelId = modelId := by
  have hid := List.find?_some h
  exact ⟨List.mem_of_find?_eq_some h, of_decide_eq_true hid⟩

/-- Closing a model that is gone does nothing; a live one goes with its queue, its requests
    fail, and the close waits for the trainer. -/
theorem closeModel_cases (modelId : Nat) (error : String) (category : Category) (s : Service) :
    (s.findModel modelId = none ∧ s.closeModel modelId error category = (s, none)) ∨
    ∃ r, s.findModel modelId = some r ∧ s.closeModel modelId error category =
      ({ s.sweepFutures.settleAll (r.createRequestId :: r.requestIdBySeq.map (·.2))
            (.error error category) with
          models := s.models.filter (·.modelId ≠ modelId)
          queues := s.queues.filter (·.modelId ≠ modelId) }, some (.closeTrainerDead r)) := by
  unfold closeModel
  cases hr : s.findModel modelId with
  | none => exact .inl ⟨rfl, rfl⟩
  | some r => exact .inr ⟨r, rfl, rfl⟩

/-- A request ends by closing its model, or by an answer. -/
theorem finishRequest_cases (command : Command) (outcome : Outcome) (s : Service) :
    (∃ error category, s.finishRequest command outcome =
      s.closeModel command.modelId error category) ∨
    s.finishRequest command outcome = (s.finishPending command outcome, none) := by
  unfold finishRequest
  split
  · split
    · exact .inl ⟨_, _, rfl⟩
    · exact .inr rfl
  · exact .inr rfl

/-- What the jobs of a critical section establish: `Mid` holds between two jobs, `P` at an await
    and when the lock is free again. -/
theorem runJobs_rule {task : Task} (Mid : List Job → Service → Prop) (P : Service → Prop)
    (hnone : ∀ job jobs s s', Mid (job :: jobs) s → s.runJob job = (s', none) → Mid jobs s')
    (hsome : ∀ job jobs s s' awaiting, Mid (job :: jobs) s → s.runJob job = (s', some awaiting) →
      P { s' with holder := some { task, awaiting, jobs } })
    (hnil : ∀ s, Mid [] s → P (s.release task))
    {jobs : List Job} {s : Service} (h : Mid jobs s) : P (s.runJobs task jobs) := by
  induction jobs generalizing s with
  | nil => exact hnil s h
  | cons job jobs ih =>
    unfold runJobs
    split
    · next s' hjob => exact ih (hnone job jobs s s' h hjob)
    · next s' awaiting hjob => exact hsome job jobs s s' awaiting h hjob

/-- How a task other than the dispatcher starts its critical section. -/
theorem enter_cases (config : GatewayConfig) {task : Task} (htask : task ≠ .dispatcher)
    (s : Service) :
    s.enter config task = s.release task ∨
    (∃ modelId r, task = .createModel modelId ∧ s.findModel modelId = some r ∧
      s.enter config task = { s with
        holder := some { task, awaiting := .loadSlot modelId r.slot, jobs := [] } }) ∨
    (∃ sessionIds error, s.enter config task =
      (s.endSessions sessionIds error).1.runJobs task (s.endSessions sessionIds error).2) ∨
    s.enter config task = { s with
      holder := some { task, awaiting := .checkpoints, jobs := [] } } := by
  cases task with
  | dispatcher => exact absurd rfl htask
  | createModel modelId =>
    simp only [enter]
    cases hr : s.findModel modelId with
    | none => exact .inl rfl
    | some r => exact .inr (.inl ⟨modelId, r, rfl, hr, rfl⟩)
  | finishSession tenant sessionId =>
    simp only [enter]
    split
    · exact .inr (.inr (.inl ⟨[sessionId], "session finished", rfl⟩))
    · exact .inl rfl
  | expireSessions => exact .inr (.inr (.inl ⟨_, "lease expired", rfl⟩))
  | deleteCheckpoint => exact .inr (.inr (.inr rfl))
  | expireCheckpoints => exact .inr (.inr (.inr rfl))

/-! ## Replies -/

/-- What a reply of the trainer leads to. -/
inductive Resumed (reply : Reply) (s : Service) (h : Holder) : Service → Prop where
  | loaded (modelId slot : Nat) (r : ModelRecord) (hawait : h.awaiting = .loadSlot modelId slot)
      (hr : s.findModel modelId = some r) :
      Resumed reply s h ((((s.modifyModel modelId ({ · with slotInitialized := true })).settle
        r.createRequestId (.result (.createModel modelId))).record
          (.loaded modelId slot)).runJobs h.task h.jobs)
  | loadFailed (modelId slot : Nat) (error : String)
      (hawait : h.awaiting = .loadSlot modelId slot) :
      Resumed reply s h ((s.modifyModel modelId ({ · with slotInitialized := true })).runJobs
        h.task (.close modelId error .server :: h.jobs))
  | answered (unit : BatchUnit) (refs : List DatumRef) (outputs : List Output)
      (hawait : h.awaiting = .forward unit refs) (hlen : outputs.length = refs.length) :
      Resumed reply s h (((s.record (.answered refs outputs)).recordOutputs
        (refs.zip outputs)).runJobs h.task h.jobs)
  | batchFailed (unit : BatchUnit) (refs : List DatumRef) (error : String) (category : Category)
      (hawait : h.awaiting = .forward unit refs) :
      Resumed reply s h (s.runJobs h.task (failBatch unit.datums error category ++ h.jobs))
  | barrierDone (unit : BarrierUnit) (outcomes : List (Option (String × Category)))
      (hawait : h.awaiting = .barrier unit) (hlen : outcomes.length = unit.entries.length) :
      Resumed reply s h (s.runJobs h.task (finishEntries unit.entries outcomes ++ h.jobs))
  | continued (hawait : h.awaiting = .checkTrainer ∨ h.awaiting = .checkpoints) :
      Resumed reply s h (s.runJobs h.task h.jobs)
  | unloading (r : ModelRecord) (hawait : h.awaiting = .closeTrainerDead r) :
      Resumed reply s h { s.record (.unloadStarted r.slot) with
        holder := some { h with awaiting := .closeUnload r } }
  | freed (r : ModelRecord)
      (hawait : h.awaiting = .closeTrainerDead r ∨ h.awaiting = .closeUnload r) :
      Resumed reply s h ((s.freeSlot r.slot).runJobs h.task h.jobs)
  | withheld (r : ModelRecord) (reason : WithheldReason)
      (hawait : h.awaiting = .closeTrainerDead r ∨ h.awaiting = .closeUnload r)
      (hreason : reason = .trainerDead ∨ reason = .unloadFailed) :
      Resumed reply s h ((s.withhold r reason).runJobs h.task h.jobs)
  /-- an exception, or a dead trainer after a unit -/
  | aborted (hclose : h.awaiting.closing = [])
      (hload : ∀ modelId slot, h.awaiting = .loadSlot modelId slot → reply = .raised) :
      Resumed reply s h (s.abort h.task)
  | closeAborted (r : ModelRecord) (reason : WithheldReason)
      (hawait : h.awaiting = .closeTrainerDead r ∨ h.awaiting = .closeUnload r)
      (hraised : reply = .raised) :
      Resumed reply s h ((s.withhold r reason).abort h.task)
  | cancelled (hclose : h.awaiting.closing = []) (hcancelled : reply = .cancelled)
      (hstopped : s.dispatcher = .stopped) (hbackground : h.task.isBackground = true) :
      Resumed reply s h (s.release h.task)
  | closeCancelled (r : ModelRecord)
      (hawait : h.awaiting = .closeTrainerDead r ∨ h.awaiting = .closeUnload r)
      (hcancelled : reply = .cancelled)
      (hstopped : s.dispatcher = .stopped) (hbackground : h.task.isBackground = true) :
      Resumed reply s h ((s.withhold r .interrupted).release h.task)

/-- How an exception at an await ends the task. -/
theorem resumeException_cases {h : Holder} {reply : Reply}
    (hs : s.resumeException h reply = some s') :
    (reply = .raised ∧ s' = s.abort h.task) ∨ (reply = .cancelled ∧
      s.dispatcher = .stopped ∧ h.task.isBackground = true ∧ s' = s.release h.task) := by
  unfold resumeException at hs
  split at hs
  · cases hs
    exact .inl ⟨rfl, rfl⟩
  · split at hs
    · next hstopped =>
      cases hs
      exact .inr ⟨rfl, hstopped.1, hstopped.2, rfl⟩
    · cases hs
  · cases hs

/-- An exception outside of a close. -/
theorem Resumed.exception {h : Holder} {reply : Reply} (hclose : h.awaiting.closing = [])
    (hs : s.resumeException h reply = some s') : Resumed reply s h s' := by
  obtain ⟨hreply, rfl⟩ | ⟨hreply, hstopped, hbackground, rfl⟩ := resumeException_cases hs
  · exact .aborted hclose fun _ _ _ => hreply
  · exact .cancelled hclose hreply hstopped hbackground

/-- An exception in a close, whose slot is withheld. -/
theorem Resumed.closeException {h : Holder} {reply : Reply} {r : ModelRecord}
    (hawait : h.awaiting = .closeTrainerDead r ∨ h.awaiting = .closeUnload r)
    (hs : (s.withhold r .interrupted).resumeException h reply = some s') :
    Resumed reply s h s' := by
  obtain ⟨hreply, rfl⟩ | ⟨hreply, hstopped, hbackground, rfl⟩ := resumeException_cases hs
  · exact .closeAborted r _ hawait hreply
  · exact .closeCancelled r hawait hreply hstopped hbackground

/-- A reply does one of these things. -/
theorem resume_cases {reply : Reply} (hs : s.resume reply = some s') :
    ∃ h, s.holder = some h ∧ Resumed reply s h s' := by
  unfold resume at hs
  split at hs
  · cases hs
  · next h hholder =>
    refine ⟨h, hholder, ?_⟩
    split at hs
    · next modelId slot hawait =>
      -- a slot was loaded, or the load has failed
      unfold resumeLoadSlot at hs
      split at hs
      · obtain ⟨r, hr, hs⟩ := Option.bind_eq_some_iff.mp hs
        cases hs
        exact .loaded modelId slot r hawait hr
      · next error =>
        cases hs
        exact .loadFailed modelId slot error hawait
      · exact .exception (by rw [hawait]; rfl) hs
    · next unit refs hawait =>
      have hclose : h.awaiting.closing = [] := by
        rw [hawait]
        rfl
      -- a forward batch: one output for each datum, or the worker stops
      unfold resumeForward at hs
      split at hs
      · next outputs =>
        split at hs
        · next hlen =>
          cases hs
          exact .answered unit refs outputs hawait hlen
        · cases hs
          exact .aborted hclose fun _ _ hload => by rw [hawait] at hload; cases hload
      · next error =>
        cases hs
        exact .batchFailed unit refs error .server hawait
      · next error =>
        cases hs
        exact .batchFailed unit refs error .user hawait
      · exact .exception hclose hs
    · next unit hawait =>
      have hclose : h.awaiting.closing = [] := by
        rw [hawait]
        rfl
      -- a barrier: one outcome for each command
      unfold resumeBarrier at hs
      split at hs
      · next outcomes =>
        split at hs
        · next hlen =>
          cases hs
          exact .barrierDone unit outcomes hawait hlen
        · cases hs
          exact .aborted hclose fun _ _ hload => by rw [hawait] at hload; cases hload
      · cases hs
        exact .barrierDone unit _ hawait (List.length_map _)
      · exact .exception hclose hs
    · next hawait =>
      have hclose : h.awaiting.closing = [] := by
        rw [hawait]
        rfl
      -- after a unit the trainer was asked whether it is dead
      unfold resumeCheckTrainer at hs
      split at hs
      · cases hs
        exact .aborted hclose fun _ _ hload => by rw [hawait] at hload; cases hload
      · cases hs
        exact .continued (.inl hawait)
      · exact .exception hclose hs
    · next r hawait =>
      -- a dead trainer withholds the slot; an initialized one is unloaded first
      unfold resumeClose at hs
      split at hs
      · cases hs
        exact .withheld r _ (.inl hawait) (.inl rfl)
      · split at hs
        · cases hs
          exact .unloading r hawait
        · cases hs
          exact .freed r (.inl hawait)
      · exact .closeException (.inl hawait) hs
    · next r hawait =>
      -- a slot that was not unloaded is withheld
      unfold resumeUnload at hs
      split at hs
      · cases hs
        exact .freed r (.inr hawait)
      · cases hs
        exact .withheld r _ (.inr hawait) (.inr rfl)
      · obtain ⟨hreply, rfl⟩ | ⟨hreply, -⟩ := resumeException_cases hs
        · exact .closeAborted r _ (.inr hawait) hreply
        · cases hreply
      · exact .closeException (.inr hawait) hs
    · next hawait =>
      split at hs
      · cases hs
        exact .continued (.inr hawait)
      · exact .exception (by rw [hawait]; rfl) hs

/-! ## Updates -/

/-- One change an event makes. -/
inductive Update (config : GatewayConfig) : Service → Service → Prop where
  /-- the lock, the clock, the sessions or the slots -/
  | control (s : Service) (sessions : List SessionRecord) (freeSlots : List Nat)
      (holder : Option Holder) (waiters : List Task) (starting : List Nat)
      (dispatcher : Dispatcher) (wake backgroundError : Bool) (clock nextId : Nat)
      (withheld : List (Nat × WithheldReason)) (hid : s.nextId ≤ nextId) :
      Update config s { s with
        sessions, freeSlots, holder, waiters, starting, dispatcher, wake, backgroundError,
        clock, nextId, withheld }
  | sweep (s : Service) : Update config s s.sweepFutures
  | settle (s : Service) (requestId : Nat) (outcome : Outcome) :
      Update config s (s.settle requestId outcome)
  | settleAll (s : Service) (requestIds : List Nat) (outcome : Outcome) :
      Update config s (s.settleAll requestIds outcome)
  /-- a forgotten answer is replaced -/
  | replace (s : Service) (owner : FutureOwner) (tenant : String) (outcome : Outcome) :
      Update config s ((s.createFuture owner tenant).settle s.nextId outcome)
  /-- a new name for the request of a sequence number whose future is known -/
  | rename (s : Service) (modelId seqId old new : Nat)
      (hold : ∀ r, s.findModel modelId = some r → r.requestIdBySeq.lookup seqId = some old)
      (hnew : new ≠ old → ∀ f ∈ s.futures, f.requestId = old → f.state ≠ .pending) :
      Update config s (s.modifyModel modelId fun r => { r with
        requestIdBySeq := (seqId, new) :: r.requestIdBySeq.filter (·.1 ≠ seqId) })
  | mark (s : Service) (e : TraceEvent)
      (he : (∃ modelId slot, e = .loaded modelId slot) ∨ (∃ slot, e = .unloadStarted slot) ∨
        ∃ refs outputs, e = .answered refs outputs) :
      Update config s (s.record e)
  | setInitialized (s : Service) (modelId : Nat) :
      Update config s (s.modifyModel modelId ({ · with slotInitialized := true }))
  | openModel (s : Service) (sessionId slot : Nat) (tenant : String) :
      Update config s { { s with nextId := s.nextId + 1 }.createFuture (.model s.nextId) tenant with
        models := s.models ++ [{
          modelId := s.nextId, sessionId, tenant, slot, createRequestId := s.nextId + 1 }]
        queues := s.queues ++ [{ modelId := s.nextId, tenant, slot }] }
  | enqueueCommand (s : Service) (tenant : String) (r : ModelRecord) (command : Command)
      (hr : s.findModel command.modelId = some r)
      (hseq : 1 ≤ command.seqId) (hnew : r.requestIdBySeq.lookup command.seqId = none)
      (hid : command.requestId = s.nextId) (harrival : command.arrival = s.arrivalCounter + 1) :
      Update config s { (((s.createFuture (.model command.modelId) tenant).modifyModel
          command.modelId fun r => { r with
            requestIdBySeq := (command.seqId, command.requestId) :: r.requestIdBySeq }).modifyQueue
          command.modelId (·.submit command)).record (.submitted command) with
        arrivalCounter := s.arrivalCounter + 1 }
  | close (s : Service) (modelId : Nat) (r : ModelRecord) (outcome : Outcome)
      (hr : s.findModel modelId = some r) :
      Update config s
        { s.settleAll (r.createRequestId :: r.requestIdBySeq.map (·.2)) outcome with
          models := s.models.filter (·.modelId ≠ modelId)
          queues := s.queues.filter (·.modelId ≠ modelId) }
  | finish (s : Service) (command : Command) (outcome : Outcome) :
      Update config s (s.finishPending command outcome)
  | recordOutput (s : Service) (ref : DatumRef) (output : Output) :
      Update config s (s.modifyQueue ref.modelId
        (·.modify ref.command.seqId (·.recordOutput ref.localIndex output)))
  | issueBatch (s : Service) (unit : BatchUnit)
      (hunit : RequestScheduler.scheduleNext config.batchTokenBudget s.queues =
        some (.batch unit)) :
      Update config s { s.record (.batchIssued (slotOrder unit.datums)) with
        queues := RequestScheduler.markIssued unit.datums s.queues }
  | issueBarrier (s : Service) (unit : BarrierUnit)
      (hunit : RequestScheduler.scheduleNext config.batchTokenBudget s.queues =
        some (.barrier unit)) :
      Update config s (s.record (.barrierIssued unit.entries))
  | startSample (s : Service) (tenant : String) (sessionId : Option Nat) :
      Update config s { s.createFuture .sampler tenant with
        sampleTasks := s.sampleTasks ++ [(s.nextId, sessionId)] }
  | endSample (s : Service) (requestId : Nat) (outcome : Outcome) :
      Update config s { s.settle requestId outcome with
        sampleTasks := s.sampleTasks.filter (·.1 ≠ requestId) }

/-- A sequence of updates. -/
abbrev Updates (config : GatewayConfig) : Service → Service → Prop :=
  ReflTransGen (Update config)

/-! ### The functions of the model as updates -/

theorem Updates.closeModel (modelId : Nat) (error : String) (category : Category)
    (s : Service) : Updates config s (s.closeModel modelId error category).1 := by
  obtain ⟨-, h⟩ | ⟨r, hr, h⟩ := closeModel_cases modelId error category s
  · rw [h]
  · rw [h]
    exact .tail (.single (.sweep s)) (.close s.sweepFutures modelId r _ hr)

theorem Updates.finishRequest (command : Command) (outcome : Outcome) (s : Service) :
    Updates config s (s.finishRequest command outcome).1 := by
  obtain ⟨error, category, h⟩ | h := finishRequest_cases command outcome s
  · rw [h]
    exact .closeModel command.modelId error category s
  · rw [h]
    exact .single (.finish s command outcome)

theorem Updates.runJob (job : Job) (s : Service) : Updates config s (s.runJob job).1 := by
  cases job with
  | finish command outcome => exact .finishRequest command outcome s
  | close modelId error category => exact .closeModel modelId error category s
  | checkTrainer => exact .refl

/-- Moving the lock is an update. -/
theorem Update.lock (s : Service) (holder : Option Holder) (waiters : List Task)
    (dispatcher : Dispatcher) : Update config s { s with holder, waiters, dispatcher } :=
  .control s s.sessions s.freeSlots holder waiters s.starting dispatcher s.wake s.backgroundError
    s.clock s.nextId s.withheld (Nat.le_refl _)

theorem Update.release (task : Task) (s : Service) : Update config s (s.release task) :=
  .lock s none s.waiters (if task = .dispatcher then .atLoop else s.dispatcher)

/-- Jobs are sequences of updates. -/
theorem Updates.runJobs (task : Task) (jobs : List Job) (s : Service) :
    Updates config s (s.runJobs task jobs) := by
  refine runJobs_rule (fun _ m => Updates config s m) (fun m => Updates config s m)
    ?_ ?_ ?_ ReflTransGen.refl
  · intro job jobs m m' hm hjob
    have hnext : Updates config m (m.runJob job).1 := .runJob job m
    rw [hjob] at hnext
    exact hm.trans hnext
  · intro job jobs m m' awaiting hm hjob
    have hnext : Updates config m (m.runJob job).1 := .runJob job m
    rw [hjob] at hnext
    exact (hm.trans hnext).tail (.lock m' _ m'.waiters m'.dispatcher)
  · intro m hm
    exact hm.tail (.release task m)

theorem Update.stopDispatcher (s : Service) : Update config s s.stopDispatcher :=
  .control s s.sessions s.freeSlots s.holder _ [] .stopped s.wake s.backgroundError s.clock
    s.nextId s.withheld (Nat.le_refl _)

theorem Updates.abort (task : Task) (s : Service) : Updates config s (s.abort task) := by
  have hrelease : Update config s (s.release task) := .release task s
  unfold Service.abort
  simp only
  split
  · exact .tail (.single hrelease) (.stopDispatcher _)
  · split
    · exact .tail (.single hrelease) (.control (s.release task) s.sessions s.freeSlots none
        s.waiters s.starting _ true true s.clock s.nextId s.withheld (Nat.le_refl _))
    · exact .single hrelease

/-- A dispatch is a sequence of updates. -/
theorem Updates.dispatch (s : Service) : Updates config s (s.dispatch config) := by
  unfold Service.dispatch
  split
  · exact .runJobs .dispatcher _ s
  · split
    · exact .single (.lock s none s.waiters .asleep)
    · next unit hunit =>
      exact .tail (.single (.issueBatch s unit hunit)) (.lock _ _ s.waiters s.dispatcher)
    · next unit hunit =>
      exact .tail (.single (.issueBarrier s unit hunit)) (.lock _ _ s.waiters s.dispatcher)

theorem Updates.endSessions (sessionIds : List Nat) (error : String) (s : Service) :
    Updates config s (s.endSessions sessionIds error).1 :=
  .tail (.single (.settleAll s _ _)) (.control _ _ s.freeSlots s.holder s.waiters s.starting
    s.dispatcher s.wake s.backgroundError s.clock s.nextId s.withheld (Nat.le_refl _))

theorem Updates.enter (task : Task) (s : Service) : Updates config s (s.enter config task) := by
  unfold Service.enter
  cases task with
  | dispatcher =>
    exact .head (.lock s s.holder s.waiters .running) (Updates.dispatch { s with dispatcher := .running })
  | createModel modelId =>
    simp only
    split
    · exact .single (.release _ s)
    · exact .single (.lock s _ s.waiters s.dispatcher)
  | finishSession tenant sessionId =>
    simp only
    split
    · exact (Updates.endSessions _ _ s).trans (Updates.runJobs _ _ _)
    · exact .single (.release _ s)
  | expireSessions => exact (Updates.endSessions _ _ s).trans (Updates.runJobs _ _ _)
  | deleteCheckpoint => exact .single (.lock s _ s.waiters s.dispatcher)
  | expireCheckpoints => exact .single (.lock s _ s.waiters s.dispatcher)

theorem Updates.acquire (task : Task) (s : Service) :
    Updates config s (s.acquire config task) := by
  unfold Service.acquire
  split
  · exact .enter task s
  · exact .single (.lock s s.holder _ _)

/-! ### Replies -/

theorem Updates.recordOutput (ref : DatumRef) (output : Output) (s : Service) :
    Updates config s (s.recordOutput ref output) := by
  have hrecord : Update config s _ := .recordOutput s ref output
  unfold Service.recordOutput
  simp only
  split
  · exact .single hrecord
  · split
    · exact .head hrecord (Updates.finishRequest _ _ _)
    · exact .single hrecord

theorem Updates.recordOutputs (answers : List (DatumRef × Output)) (s : Service) :
    Updates config s (s.recordOutputs answers) := by
  induction answers generalizing s with
  | nil => exact .refl
  | cons x rest ih => exact (Updates.recordOutput x.1 x.2 s).trans (ih _)

theorem Update.withhold (r : ModelRecord) (reason : WithheldReason) (s : Service) :
    Update config s (s.withhold r reason) :=
  .control s s.sessions s.freeSlots s.holder s.waiters s.starting s.dispatcher s.wake
    s.backgroundError s.clock s.nextId _ (Nat.le_refl _)

theorem Update.freeSlot (slot : Nat) (s : Service) : Update config s (s.freeSlot slot) :=
  .control s s.sessions _ s.holder s.waiters s.starting s.dispatcher s.wake s.backgroundError
    s.clock s.nextId s.withheld (Nat.le_refl _)

/-- A resumption is a sequence of updates. -/
theorem Updates.resume {reply : Reply} (hs : s.resume reply = some s') : Updates config s s' := by
  obtain ⟨h, -, hresumed⟩ := resume_cases hs
  cases hresumed with
  | loaded modelId slot r hawait hr =>
    have hmark : ∀ m, Update config m (m.record (.loaded modelId slot)) :=
      fun m => .mark m _ (.inl ⟨modelId, slot, rfl⟩)
    exact .head (.setInitialized s modelId)
      (.head (.settle _ _ _) (.head (hmark _) (Updates.runJobs _ _ _)))
  | loadFailed modelId slot error hawait =>
    exact .head (.setInitialized s modelId) (Updates.runJobs _ _ _)
  | answered unit refs outputs hawait hlen =>
    have hmark : Update config s (s.record (.answered refs outputs)) :=
      .mark s _ (.inr (.inr ⟨refs, outputs, rfl⟩))
    exact .head hmark ((Updates.recordOutputs _ _).trans (Updates.runJobs _ _ _))
  | batchFailed | barrierDone | continued => exact Updates.runJobs _ _ _
  | unloading r hawait =>
    exact .head (.mark s _ (.inr (.inl ⟨r.slot, rfl⟩))) (.single (.lock _ _ s.waiters _))
  | freed r => exact .head (.freeSlot r.slot s) (Updates.runJobs _ _ _)
  | withheld r reason => exact .head (.withhold r reason s) (Updates.runJobs _ _ _)
  | aborted => exact Updates.abort _ _
  | closeAborted r reason => exact .head (.withhold r reason s) (Updates.abort _ _)
  | cancelled => exact .single (.release _ s)
  | closeCancelled r => exact .head (.withhold r _ s) (.single (.release _ _))

/-! ### Requests of clients -/

/-- A retry changes futures only. -/
theorem requestIdForRetry_frame (requestId : Nat) (owner : FutureOwner) (tenant : String)
    (s : Service) : ∃ futures nextId, s.nextId ≤ nextId ∧
      (s.requestIdForRetry requestId owner tenant).2 = { s with futures, nextId } := by
  unfold requestIdForRetry
  simp only
  split
  · exact ⟨_, s.nextId, Nat.le_refl _, rfl⟩
  · exact ⟨_, s.nextId + 1, Nat.le_succ _, rfl⟩

/-- A retry gets the old identifier, or a new one if no pending future has the old one. -/
theorem requestIdForRetry_spec (config : GatewayConfig) (requestId : Nat) (owner : FutureOwner)
    (tenant : String) (s : Service) :
    Updates config s (s.requestIdForRetry requestId owner tenant).2 ∧
    (s.requestIdForRetry requestId owner tenant).2.models = s.models ∧
    ((s.requestIdForRetry requestId owner tenant).1 ≠ requestId →
      ∀ f ∈ (s.requestIdForRetry requestId owner tenant).2.futures,
        f.requestId = requestId → f.state ≠ .pending) := by
  unfold requestIdForRetry
  simp only
  split
  · exact ⟨.single (.sweep s), rfl, fun h => absurd rfl h⟩
  · next hnone =>
    refine ⟨.head (.sweep s) (.single (.replace s.sweepFutures owner tenant _)), rfl, ?_⟩
    intro _ f hf hid
    -- no future kept the old identifier, so it can only be the new one, which is settled
    obtain ⟨hmem, hstate⟩ | ⟨g, -, -, -, rfl⟩ := mem_settle hf
    · obtain hold | hnew := List.mem_append.mp hmem
      · exact absurd (List.any_eq_true.mpr ⟨f, hold, decide_eq_true hid⟩) hnone
      · exact fun hpending => hstate ⟨by rw [List.mem_singleton.mp hnew], hpending⟩
    · exact fun h => by cases h

/-- A request for a model is a retry, which changes futures and sessions only, or it opens the
    model with the smallest free slot. -/
theorem createModel_cases {tenant : String} {sessionId modelSeqId : Nat} {supported : Bool}
    {ids : Nat × Nat × Service}
    (hs : s.createModel tenant sessionId modelSeqId supported = .ok ids) :
    (∃ futures nextId sessions, s.nextId ≤ nextId ∧
      ids.2.2 = { s with futures, nextId, sessions }) ∨
    ∃ slot sessions, slot ∈ s.freeSlots ∧ ids.2.2 =
      { { s with nextId := s.nextId + 1 }.createFuture (.model s.nextId) tenant with
        freeSlots := s.freeSlots.erase slot
        models := s.models ++ [{
          modelId := s.nextId, sessionId, tenant, slot, createRequestId := s.nextId + 1 }]
        queues := s.queues ++ [{ modelId := s.nextId, tenant, slot }]
        starting := s.starting ++ [s.nextId]
        sessions } := by
  unfold Service.createModel at hs
  split at hs
  · cases hs
  · split at hs
    · next requestId modelId _ =>
      obtain ⟨futures, nextId, hid, hretry⟩ :=
        requestIdForRetry_frame requestId (.model modelId) tenant s
      have hsessions : ∀ sessions,
          { (s.requestIdForRetry requestId (.model modelId) tenant).2 with sessions } =
            { s with futures, nextId, sessions } := by
        intro sessions
        rw [hretry]
      rw [← Except.ok.inj hs]
      exact .inl ⟨futures, nextId, _, hid, hsessions _⟩
    · split at hs
      · cases hs
      · split at hs
        · cases hs
        · next slot hslot =>
          cases hs
          exact .inr ⟨slot, _, (List.min?_eq_some_iff.mp hslot).1, rfl⟩

/-- Creating a model is a sequence of updates. -/
theorem Updates.createModel {tenant : String} {sessionId modelSeqId : Nat} {supported : Bool}
    {ids : Nat × Nat × Service}
    (hs : s.createModel tenant sessionId modelSeqId supported = .ok ids) :
    Updates config s ids.2.2 := by
  unfold Service.createModel at hs
  split at hs
  · cases hs
  · split at hs
    · cases hs
      exact .tail (requestIdForRetry_spec config _ _ _ s).1 (.control _ _ _ _ _ _ _ _ _ _ _ _
        (Nat.le_refl _))
    · split at hs
      · cases hs
      · split at hs
        · cases hs
        · next slot _ =>
          cases hs
          exact .tail (.single (.openModel s sessionId slot tenant)) (.control _ _ _ _ _ _ _ _ _ _ _ _
            (Nat.le_refl _))

theorem getModel_ok {tenant : String} {modelId : Nat} {r : ModelRecord}
    (h : s.getModel tenant modelId = .ok r) : s.findModel modelId = some r := by
  unfold Service.getModel at h
  cases hr : s.findModel modelId with
  | none => simp [hr] at h
  | some r' =>
    simp only [hr] at h
    split at h
    · exact congrArg some (Except.ok.inj h)
    · cases h

/-- A submission is a retry, or it is admitted. -/
theorem submit_cases {tenant : String} {modelId : Nat} {seqId : Int} {op : CommandOp}
    {payload : Payload} {validationError : Option String} {res : Nat × Service}
    (hs : s.submit tenant modelId seqId op payload validationError = .ok res) :
    ∃ r, s.getModel tenant modelId = .ok r ∧ 1 ≤ seqId ∧
    ((∃ requestId, r.requestIdBySeq.lookup seqId.toNat = some requestId ∧
      res = ((s.requestIdForRetry requestId (.model modelId) tenant).1,
        (s.requestIdForRetry requestId (.model modelId) tenant).2.modifyModel modelId fun r =>
          { r with requestIdBySeq :=
              (seqId.toNat, (s.requestIdForRetry requestId (.model modelId) tenant).1) ::
                r.requestIdBySeq.filter (·.1 ≠ seqId.toNat) })) ∨
    (r.requestIdBySeq.lookup seqId.toNat = none ∧ ∃ command : Command,
      command = ⟨modelId, seqId.toNat, op, payload, s.nextId, s.arrivalCounter + 1,
        validationError⟩ ∧
      res = (s.nextId, { (((s.createFuture (.model modelId) tenant).modifyModel modelId fun r =>
          { r with requestIdBySeq := (seqId.toNat, s.nextId) :: r.requestIdBySeq }).modifyQueue
            modelId (·.submit command)).record (.submitted command) with
          arrivalCounter := s.arrivalCounter + 1, wake := true }))) := by
  unfold Service.submit at hs
  obtain ⟨r, hr, hs⟩ := Except.bind_eq_ok.mp hs
  refine ⟨r, hr, ?_⟩
  split at hs
  · cases hs
  · next hseq =>
    refine ⟨by omega, ?_⟩
    cases hlookup : r.requestIdBySeq.lookup seqId.toNat with
    | some requestId =>
      simp only [hlookup] at hs
      cases hs
      exact .inl ⟨requestId, rfl, rfl⟩
    | none =>
      simp only [hlookup] at hs
      cases hs
      exact .inr ⟨rfl, _, rfl, rfl⟩

/-- A submission is a sequence of updates. -/
theorem Updates.submit {tenant : String} {modelId : Nat} {seqId : Int} {op : CommandOp}
    {payload : Payload} {validationError : Option String} {res : Nat × Service}
    (hs : s.submit tenant modelId seqId op payload validationError = .ok res) :
    Updates config s res.2 := by
  obtain ⟨r, hr, hseq, ⟨requestId, hlookup, rfl⟩ | ⟨hlookup, command, rfl, rfl⟩⟩ :=
    submit_cases hs
  · obtain ⟨hup, hmodels, hnew⟩ :=
      requestIdForRetry_spec config requestId (.model modelId) tenant s
    refine hup.tail (.rename _ modelId seqId.toNat requestId _ ?_ hnew)
    intro r' hr'
    unfold Service.findModel at hr'
    rw [hmodels] at hr'
    have heq : r' = r := Option.some.inj (hr'.symm.trans (getModel_ok hr))
    rw [heq]
    exact hlookup
  · have hadmit : Update config s _ := .enqueueCommand s tenant r ⟨modelId, seqId.toNat, op, payload,
      s.nextId, s.arrivalCounter + 1, validationError⟩ (getModel_ok hr)
      (show 1 ≤ seqId.toNat by omega) hlookup rfl rfl
    exact .tail (.single hadmit) (.control _ _ _ _ _ _ _ _ _ _ _ _ (Nat.le_refl _))

/-! ### Events -/

/-- An event is a sequence of updates. -/
theorem step_updates {e : Event} (hs : step config s e = some s') : Updates config s s' := by
  cases e with
  | createSession tenant =>
    cases hs
    exact .single (.control _ _ _ _ _ _ _ _ _ _ _ _ (Nat.le_succ _))
  | heartbeat tenant sessionId =>
    cases hs
    exact .single (.control _ _ _ _ _ _ _ _ _ _ _ _ (Nat.le_refl _))
  | tick duration =>
    cases hs
    exact .single (.control _ _ _ _ _ _ _ _ _ _ _ _ (Nat.le_refl _))
  | createModel tenant sessionId modelSeqId supported =>
    cases hs
    cases hcreate : s.createModel tenant sessionId modelSeqId supported with
    | error e => exact .refl
    | ok ids => exact .createModel hcreate
  | startCreate modelId =>
    simp only [step] at hs
    split at hs
    · cases hs
      exact .head (.control _ _ _ _ _ _ _ _ _ _ _ _ (Nat.le_refl _)) (Updates.acquire _ _)
    · cases hs
  | submit tenant modelId seqId op payload validationError =>
    cases hs
    cases hsubmit : s.submit tenant modelId seqId op payload validationError with
    | error e => exact .refl
    | ok res => exact .submit hsubmit
  | poll =>
    cases hs
    exact .single (.sweep s)
  | ask task =>
    simp only [step] at hs
    split at hs
    · cases hs
    · cases hs
    · cases hs
      exact .acquire task s
  | dispatcherLoop =>
    simp only [step] at hs
    split at hs
    · cases hs
      split
      · exact .single (.stopDispatcher s)
      · exact .acquire .dispatcher s
    · cases hs
  | wakeUp =>
    simp only [step] at hs
    split at hs
    · cases hs
      exact .single (.control _ _ _ _ _ _ _ _ _ _ _ _ (Nat.le_refl _))
    · cases hs
  | grant =>
    simp only [step] at hs
    split at hs
    · cases hs
      exact .head (.lock s s.holder _ s.dispatcher) (Updates.enter _ _)
    · cases hs
  | resume reply => exact .resume hs
  | startSample tenant sessionId =>
    simp only [step] at hs
    split at hs
    · cases hs
      exact .single (.startSample s tenant sessionId)
    · cases hs
  | endSample requestId outcome =>
    simp only [step] at hs
    split at hs
    · cases hs
      exact .single (.endSample s requestId outcome)
    · cases hs

/-- What every update preserves, every run preserves. -/
theorem run_update_invariant {I : Service → Prop}
    (hupdate : ∀ s s', I s → Update config s s' → I s') {es : List Event} (hs : I s)
    (hrun : run (step config) s es = some s') : I s' := by
  refine run_invariant (fun m e m' hm hstep => ?_) hs hrun
  have hup := step_updates hstep
  clear hstep
  induction hup with
  | refl => exact hm
  | tail _ hlast ih => exact hupdate _ _ ih hlast

/-- What every update relates, a run relates. -/
theorem run_updates {es : List Event} (hrun : run (step config) s es = some s') :
    Updates config s s' := by
  refine run_invariant (I := fun m => Updates config s m) (fun m e m' hm hstep => ?_) .refl hrun
  exact hm.trans (step_updates hstep)

end Service

end Miles.Tinker
