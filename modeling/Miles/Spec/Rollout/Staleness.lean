import Miles.Native.Rollout.TrainAsync
import Miles.Spec.Rollout.Conservation

/-!
# Submission within the staleness bound

With `--async-submit-within-staleness` the producer submits a group only when there is room for
it in the batches of the next `S` weight versions, and of one more while a training step waits.
A group enters the buffer behind what was submitted before it, so its place in the queue bounds
the version at which it is taken.
-/

namespace Miles.Rollout

open Lts

variable {args : Args} {dataSource : Nat → List Sample} {S : Nat}

/-! ## The invariant -/

/-- Groups of tasks that are done and not yet put. -/
def Phase.outstanding : Phase → Nat
  | .collecting done => done.length
  | .putting _ _ done => done.length + 1
  | _ => 0

/-- How many batches may be unfinished. -/
def State.window (S : Nat) (s : State) : Nat := S + if s.pendingGet.isSome then 1 else 0

/-- The weight version of the next batch, or of the one that is waited for. -/
def TrainLoop.nextVersion (s : TrainLoop) (version : Nat) : Nat :=
  version + if s.updateDue then 1 else 0

/-- The bound on unfinished groups, and what it says about the queue. -/
structure Bounded (args : Args) (S : Nat) (s : TrainLoop) (version : Nat) : Prop where
  conserved : Conserved s.rollout
  current : s.rollout.weightVersion = some version
  /-- buffered and running groups fit into the window -/
  count : s.rollout.buffer.length + s.rollout.runningTasks.length ≤
    s.rollout.window S * args.rolloutBatchSize
  /-- a group that runs is active, or its task is done and waits to be put -/
  running : s.rollout.phase ≠ .ended → s.rollout.runningTasks.length ≤
    s.rollout.active.length + s.rollout.phase.outstanding
  active_nodup : s.rollout.active.Nodup
  active_lt : ∀ task ∈ s.rollout.active, task < s.rollout.nextTask
  /-- a pending `get` asks for a batch at the current version -/
  pending : ∀ call, s.rollout.pendingGet = some call →
    call = ⟨args.rolloutBatchSize, some version⟩ ∧ s.updateDue = false
  /-- the `i`-th group of the queue is `i / B` batches away -/
  queue : ∀ i entry, s.rollout.buffer[i]? = some entry → ∃ entered,
    entry.enteredAt = some entered ∧
      s.nextVersion version + i / args.rolloutBatchSize ≤ entered + S
  taken : ∀ t ∈ s.rollout.returned, ∃ entered taken, t.entry.enteredAt = some entered ∧
    t.version = some taken ∧ taken ≤ entered + S

/-- The training loop starts within the bound. -/
theorem Bounded.start (version : Nat) : Bounded args S (TrainLoop.start version) version where
  conserved := ⟨.refl _, List.nodup_nil, fun x hx => absurd hx List.not_mem_nil,
    fun _ _ _ h => by cases h⟩
  current := rfl
  count := Nat.zero_le _
  running := fun _ => Nat.zero_le _
  active_nodup := List.nodup_nil
  active_lt := fun task h => absurd h List.not_mem_nil
  pending := fun _ h => by cases h
  queue := fun i entry h => by simp [TrainLoop.start] at h
  taken := fun t h => absurd h List.not_mem_nil

/-! ## Steps -/

/-- `admits` compares the unfinished groups with the window. -/
theorem admits_eq (hflag : args.asyncSubmitWithinStaleness = true)
    (hlimit : args.maxWeightStaleness = some S) (s : State) (inFlight : Nat) :
    admits args s.buffer.length inFlight s.pendingGet.isSome = true ↔
      s.buffer.length + inFlight < s.window S * args.rolloutBatchSize := by
  simp only [admits, hflag, if_true, hlimit, Option.getD_some, decide_eq_true_eq, State.window]

variable {version : Nat} {s : TrainLoop}

/-- A step of the producer that leaves the buffer as it is, and the consumer. -/
theorem Bounded.producer (hs : Bounded args S s version)
    {r : State} (hconserved : Conserved r)
    (hbuffer : r.buffer = s.rollout.buffer) (hreturned : r.returned = s.rollout.returned)
    (hpending : r.pendingGet = s.rollout.pendingGet)
    (hversion : r.weightVersion = s.rollout.weightVersion)
    (hcount : r.buffer.length + r.runningTasks.length ≤ r.window S * args.rolloutBatchSize)
    (hrunning : r.phase ≠ .ended →
      r.runningTasks.length ≤ r.active.length + r.phase.outstanding)
    (hnodup : r.active.Nodup) (hlt : ∀ task ∈ r.active, task < r.nextTask) :
    Bounded args S { s with rollout := r } version where
  conserved := hconserved
  current := hversion.trans hs.current
  count := hcount
  running := hrunning
  active_nodup := hnodup
  active_lt := hlt
  pending := by
    intro call h
    exact hs.pending call (hpending ▸ h)
  queue := by
    intro i entry h
    change r.buffer[i]? = some entry at h
    rw [hbuffer] at h
    exact hs.queue i entry h
  taken := by
    intro t h
    change t ∈ r.returned at h
    rw [hreturned] at h
    exact hs.taken t h

/-- A step that changes the phase only, and not what is outstanding. -/
theorem Bounded.phase (hs : Bounded args S s version)
    {r : State} (hconserved : Conserved r) (hbuffer : r.buffer = s.rollout.buffer)
    (hreturned : r.returned = s.rollout.returned)
    (hpending : r.pendingGet = s.rollout.pendingGet)
    (hversion : r.weightVersion = s.rollout.weightVersion)
    (htasks : r.runningTasks.length = s.rollout.runningTasks.length)
    (hactive : r.active = s.rollout.active) (hnext : r.nextTask = s.rollout.nextTask)
    (hphase : r.phase = .ended ∨ (s.rollout.phase ≠ .ended ∧
      r.phase.outstanding = s.rollout.phase.outstanding)) :
    Bounded args S { s with rollout := r } version := by
  apply hs.producer hconserved hbuffer hreturned hpending hversion
  · rw [hbuffer, htasks, State.window, hpending]
    exact hs.count
  · intro hended
    obtain hend | ⟨hlive, hsame⟩ := hphase
    · exact absurd hend hended
    · rw [htasks, hactive, hsame]
      exact hs.running hlive
  · rw [hactive]
    exact hs.active_nodup
  · rw [hactive, hnext]
    exact hs.active_lt

/-- A submitted group has been admitted. -/
theorem Bounded.submit (hs : Bounded args S s version)
    (hflag : args.asyncSubmitWithinStaleness = true) (hlimit : args.maxWeightStaleness = some S)
    (hphase : s.rollout.phase = .submitting)
    (hadmits : admits args s.rollout.buffer.length s.rollout.active.length
      s.rollout.pendingGet.isSome = true) (samplesInFlight : Int) :
    Bounded args S { s with
      rollout := submitOneGroup args dataSource { s.rollout with samplesInFlight } } version := by
  have hroom := (admits_eq hflag hlimit _ _).mp hadmits
  have hrunning := hs.running (by rw [hphase]; intro h; cases h)
  rw [hphase] at hrunning
  obtain ⟨x, hrun, hactive, hnext, hbuffer, hreturned, hpending, hversion, hphase'⟩ :
      ∃ x : RunningTask,
      (submitOneGroup args dataSource { s.rollout with samplesInFlight }).runningTasks =
        s.rollout.runningTasks ++ [x] ∧
      (submitOneGroup args dataSource { s.rollout with samplesInFlight }).active =
        s.rollout.active ++ [s.rollout.nextTask] ∧
      (submitOneGroup args dataSource { s.rollout with samplesInFlight }).nextTask =
        s.rollout.nextTask + 1 ∧
      (submitOneGroup args dataSource { s.rollout with samplesInFlight }).buffer =
        s.rollout.buffer ∧
      (submitOneGroup args dataSource { s.rollout with samplesInFlight }).returned =
        s.rollout.returned ∧
      (submitOneGroup args dataSource { s.rollout with samplesInFlight }).pendingGet =
        s.rollout.pendingGet ∧
      (submitOneGroup args dataSource { s.rollout with samplesInFlight }).weightVersion =
        s.rollout.weightVersion ∧
      (submitOneGroup args dataSource { s.rollout with samplesInFlight }).phase =
        s.rollout.phase := by
    unfold submitOneGroup
    cases s.rollout.retryBuffer with
    | nil => exact ⟨_, rfl, rfl, rfl, rfl, rfl, rfl, rfl, rfl⟩
    | cons promptGroup rest => exact ⟨_, rfl, rfl, rfl, rfl, rfl, rfl, rfl, rfl⟩
  apply hs.producer (submit_conserved hs.conserved samplesInFlight hphase) hbuffer hreturned
    hpending hversion
  · rw [hbuffer, hrun, State.window, hpending]
    simp only [Phase.outstanding, State.window] at hrunning hroom
    simp only [List.length_append, List.length_singleton]
    omega
  · intro _
    simp only [Phase.outstanding] at hrunning
    rw [hrun, hactive, hphase', hphase]
    simp only [List.length_append, List.length_singleton, Phase.outstanding]
    omega
  · rw [hactive, List.nodup_append]
    refine ⟨hs.active_nodup, by simp, fun a ha b hb => ?_⟩
    have hlt := hs.active_lt a ha
    rw [List.mem_singleton.mp hb]
    omega
  · intro task htask
    rw [hactive] at htask
    rw [hnext]
    obtain htask | htask := List.mem_append.mp htask
    · exact Nat.lt_succ_of_lt (hs.active_lt task htask)
    · rw [List.mem_singleton.mp htask]
      exact Nat.lt_succ_self _

/-- Removing a task that is there removes one. -/
theorem length_dropTask_lt {runningTasks : List RunningTask} {x : RunningTask}
    (hx : x ∈ runningTasks) : (dropTask x.task runningTasks).length < runningTasks.length := by
  unfold dropTask
  rw [List.length_filter_lt_length_iff_exists]
  exact ⟨x, hx, by simp⟩

/-- The tasks that are done leave the active ones. -/
theorem length_active_le {active : List Nat} (done : List Nat) (hnodup : active.Nodup) :
    active.length ≤ (active.filter (· ∉ done)).length + done.length := by
  have hsplit := (List.filter_append_perm (fun task => decide (task ∉ done)) active).length_eq
  have hdone : (active.filter fun task => !decide (task ∉ done)).length ≤ done.length := by
    apply List.Subperm.length_le
    apply List.subperm_of_subset (hnodup.filter _)
    intro task htask
    simpa using (List.mem_filter.mp htask).2
  rw [List.length_append] at hsplit
  omega

/-- A collected task: its group stays, waits for retry, or is dropped. -/
theorem Bounded.collect (hs : Bounded args S s version)
    {task : Nat} {done : List Nat} {r : State}
    (hphase : s.rollout.phase = .collecting (task :: done))
    (h : collectTask args task done s.rollout = some r) :
    Bounded args S { s with rollout := r } version := by
  have hconserved := collectTask_conserved hs.conserved h
  have hrunning := hs.running (by rw [hphase]; intro h; cases h)
  rw [hphase] at hrunning
  simp only [Phase.outstanding, List.length_cons] at hrunning
  obtain rfl | ⟨x, hx, rfl, -, hcases⟩ := collectTask_cases h
  · exact hs.phase hconserved rfl rfl rfl rfl rfl rfl rfl (.inl rfl)
  · have hfewer := length_dropTask_lt hx
    have hcount := hs.count
    obtain ⟨entry, -, rfl⟩ | rfl | rfl := hcases
    · -- the group still runs while it waits for room
      refine hs.phase hconserved rfl rfl rfl rfl rfl rfl rfl (.inr ⟨?_, ?_⟩)
      · rw [hphase]
        intro h
        cases h
      · rw [hphase]
        rfl
    · obtain ⟨-, hbuffer, hreturned, -, -, hnext, hactive, hpending, hversion⟩ :=
        handleAll_fields args [x.promptGroup] s.rollout
      rw [← handleUnused_eq] at hbuffer hreturned hnext hactive hpending hversion
      apply hs.producer hconserved hbuffer hreturned hpending hversion
      · simp only [State.window, hpending, hbuffer]
        simp only [State.window] at hcount
        omega
      · intro _
        simp only [hactive, Phase.outstanding]
        omega
      · exact hactive ▸ hs.active_nodup
      · exact hactive ▸ hnext ▸ hs.active_lt
    · apply hs.producer hconserved rfl rfl rfl rfl
      · simp only [State.window] at hcount ⊢
        omega
      · intro _
        simp only [Phase.outstanding]
        omega
      · exact hs.active_nodup
      · exact hs.active_lt

/-- A group enters the buffer behind the groups that were there.  Its place is inside the
    window, which is one batch larger only while the next batch is the one that is waited for. -/
theorem Bounded.append (hs : Bounded args S s version)
    {task : Nat} {entry : DataBufferInput} {done : List Nat}
    (hphase : s.rollout.phase = .putting task entry done) :
    Bounded args S { s with rollout := { s.rollout with
      buffer := s.rollout.buffer ++ [{ entry with enteredAt := s.rollout.weightVersion }]
      runningTasks := dropTask task s.rollout.runningTasks
      phase := .collecting done } } version := by
  obtain ⟨x, hx, rfl, -, -⟩ := hs.conserved.putting task entry done hphase
  have hfewer := length_dropTask_lt hx
  have hcount := hs.count
  have hrunning := hs.running (by rw [hphase]; intro h; cases h)
  rw [hphase] at hrunning
  simp only [Phase.outstanding] at hrunning
  have hplace : s.rollout.buffer.length < s.rollout.window S * args.rolloutBatchSize := by omega
  constructor
  · exact append_conserved hs.conserved hphase
  · exact hs.current
  · simp only [State.window, List.length_append, List.length_singleton] at hcount ⊢
    omega
  · intro _
    simp only [Phase.outstanding]
    omega
  · exact hs.active_nodup
  · exact hs.active_lt
  · exact hs.pending
  · intro i e hi
    dsimp only at hi
    rw [List.getElem?_append] at hi
    split at hi
    · exact hs.queue i e hi
    · have hidx : i = s.rollout.buffer.length := by
        have hlt := (List.getElem?_eq_some_iff.mp hi).1
        rw [List.length_singleton] at hlt
        omega
      subst hidx
      simp only [Nat.sub_self, List.getElem?_cons_zero, Option.some.injEq] at hi
      subst hi
      refine ⟨version, hs.current, ?_⟩
      have hbatches : s.rollout.buffer.length / args.rolloutBatchSize < s.rollout.window S :=
        Nat.div_lt_of_lt_mul (by rwa [Nat.mul_comm] at hplace)
      unfold TrainLoop.nextVersion State.window at *
      cases hget : s.rollout.pendingGet with
      | none =>
        simp only [hget, Option.isSome_none, Bool.false_eq_true, if_false] at hbatches
        split <;> omega
      | some call =>
        have hdue := (hs.pending call hget).2
        simp only [hget, Option.isSome_some, if_true] at hbatches
        simp only [hdue, Bool.false_eq_true, if_false]
        omega
  · exact hs.taken

/-- Dropping groups moves the others to the front. -/
theorem getElem?_filter_le {α : Type} {p : α → Bool} {xs : List α} {i : Nat} {x : α}
    (h : (xs.filter p)[i]? = some x) : ∃ j, i ≤ j ∧ xs[j]? = some x := by
  induction xs generalizing i with
  | nil => simp at h
  | cons y xs ih =>
    by_cases hy : p y = true
    · rw [List.filter_cons_of_pos hy] at h
      cases i with
      | zero =>
        simp only [List.getElem?_cons_zero, Option.some.injEq] at h
        exact ⟨0, Nat.le_refl _, by simp [h]⟩
      | succ i =>
        obtain ⟨j, hij, hj⟩ := ih (by simpa using h)
        exact ⟨j + 1, by omega, by simpa using hj⟩
    · rw [List.filter_cons_of_neg hy] at h
      obtain ⟨j, hij, hj⟩ := ih h
      exact ⟨j + 1, by omega, by simpa using hj⟩

/-- A turn of `get`: the groups behind the batch it takes are one batch closer, and the weight
    update that follows makes up for it. -/
theorem Bounded.takeTurn (hs : Bounded args S s version)
    {call : GetCall} (hcall : s.rollout.pendingGet = some call)
    (hconserved : Conserved (takeTurn args call s.rollout)) :
    Bounded args S {
      rollout := Rollout.takeTurn args call s.rollout
      updateDue := s.updateDue || (Rollout.takeTurn args call s.rollout).pendingGet.isNone }
      version := by
  obtain ⟨hcallEq, hdue⟩ := hs.pending call hcall
  have hcases := takeTurn_cases args call s.rollout
  obtain ⟨hrunning, hphase, hnext, hactive, hversion⟩ :=
    takeTurn_fields args call s.rollout
  -- what is kept has moved to the front
  have hkept : ∀ i entry, (dropStale args call.currentVersion s.rollout.buffer).1[i]? =
      some entry → ∃ entered, entry.enteredAt = some entered ∧
        version + i / args.rolloutBatchSize ≤ entered + S := by
    intro i entry h
    obtain ⟨j, hij, hj⟩ := getElem?_filter_le h
    obtain ⟨entered, hentered, hle⟩ := hs.queue j entry hj
    have hdiv := Nat.div_le_div_right (c := args.rolloutBatchSize) hij
    simp only [TrainLoop.nextVersion, hdue, Bool.false_eq_true, if_false] at hle
    exact ⟨entered, hentered, by omega⟩
  have hlen : (dropStale args call.currentVersion s.rollout.buffer).1.length ≤
      s.rollout.buffer.length := List.length_filter_le _ _
  have hcount := hs.count
  simp only [State.window, hcall, Option.isSome_some, if_true] at hcount
  generalize (dropStale args call.currentVersion s.rollout.buffer).1 = kept at *
  obtain ⟨henough, hpending, hbuffer, hreturned⟩ | ⟨-, hpending, hbuffer, hreturned⟩ := hcases
  · -- a batch is taken
    have hnum : call.numGroups = args.rolloutBatchSize := by rw [hcallEq]
    have hcurrent : call.currentVersion = some version := by rw [hcallEq]
    rw [hnum] at henough hbuffer hreturned
    rw [hcurrent] at hreturned
    constructor
    · exact hconserved
    · exact hversion.trans hs.current
    · simp only [State.window, hpending, hbuffer, hrunning, List.length_drop,
        Option.isSome_none, Bool.false_eq_true, if_false]
      rw [Nat.succ_mul] at hcount
      rw [Nat.add_zero]
      omega
    · simp only [hrunning, hphase, hactive]
      exact hs.running
    · simp only [hactive]
      exact hs.active_nodup
    · simp only [hactive, hnext]
      exact hs.active_lt
    · intro call' h
      dsimp only at h
      rw [hpending] at h
      cases h
    · intro i entry h
      dsimp only at h
      rw [hbuffer, List.getElem?_drop] at h
      obtain ⟨entered, hentered, hle⟩ := hkept _ entry h
      refine ⟨entered, hentered, ?_⟩
      rw [Nat.add_div_left _ args.batch_pos] at hle
      simp only [TrainLoop.nextVersion, hpending, Option.isNone_none, Bool.or_true, if_true]
      omega
    · intro t ht
      dsimp only at ht
      rw [hreturned] at ht
      obtain ht | ht := List.mem_append.mp ht
      · exact hs.taken t ht
      · obtain ⟨entry, hentry, rfl⟩ := List.mem_map.mp ht
        obtain ⟨i, hi, rfl⟩ := List.mem_iff_getElem.mp hentry
        have hiBatch : i < args.rolloutBatchSize := by
          rw [List.length_take] at hi
          omega
        obtain ⟨entered, hentered, hle⟩ := hkept i (kept.take args.rolloutBatchSize)[i] (by
          rw [← List.getElem?_eq_getElem hi, List.getElem?_take_of_lt hiBatch])
        rw [Nat.div_eq_of_lt hiBatch, Nat.add_zero] at hle
        exact ⟨entered, version, hentered, rfl, hle⟩
  · -- too few groups: the `get` stays pending
    have hsome : (Rollout.takeTurn args call s.rollout).pendingGet = some call :=
      hpending.trans hcall
    constructor
    · exact hconserved
    · exact hversion.trans hs.current
    · simp only [State.window, hsome, hbuffer, hrunning, Option.isSome_some, if_true]
      omega
    · simp only [hrunning, hphase, hactive]
      exact hs.running
    · simp only [hactive]
      exact hs.active_nodup
    · simp only [hactive, hnext]
      exact hs.active_lt
    · intro call' h
      dsimp only at h
      rw [hsome] at h
      cases h
      exact ⟨hcallEq, by simp [hdue, hsome]⟩
    · intro i entry h
      dsimp only at h
      rw [hbuffer] at h
      obtain ⟨entered, hentered, hle⟩ := hkept i entry h
      refine ⟨entered, hentered, ?_⟩
      simp only [TrainLoop.nextVersion, hdue, hsome, Option.isNone_some, Bool.or_self,
        Bool.false_eq_true, if_false]
      exact hle
    · intro t ht
      dsimp only at ht
      rw [hreturned] at ht
      exact hs.taken t ht

/-- A step of the event loop that is neither the training loop's nor a cancelled `get`. -/
theorem Bounded.rollout (hs : Bounded args S s version)
    (hflag : args.asyncSubmitWithinStaleness = true) (hlimit : args.maxWeightStaleness = some S)
    {e : Event} {r : State} (h : step args dataSource s.rollout e = some r)
    (hget : e ≠ .get) (htake : e ≠ .takeTurn) (hcancel : e ≠ .cancelGet)
    (hpublish : ∀ v, e ≠ .publish v) (hrestart : e ≠ .restart) :
    Bounded args S { s with rollout := r } version := by
  have hconserved := step_conserved hs.conserved h
  -- the bound counts buffered and running groups, so an event that only moves the phase keeps it
  cases e with
  | startWorker =>
    simp only [step] at h
    split at h
    · next hphase =>
      cases h
      exact hs.phase hconserved rfl rfl rfl rfl rfl rfl rfl (.inr ⟨by simp [hphase], by
        rw [hphase]
        rfl⟩)
    · cases h
  | pauseProducer =>
    cases h
    exact hs.producer hconserved rfl rfl rfl rfl hs.count hs.running hs.active_nodup hs.active_lt
  | resumeProducer =>
    cases h
    exact hs.producer hconserved rfl rfl rfl rfl hs.count hs.running hs.active_nodup hs.active_lt
  | beginTurn =>
    simp only [step] at h
    split at h
    · next hphase =>
      cases h
      exact hs.phase hconserved rfl rfl rfl rfl rfl rfl rfl (.inr ⟨by simp [hphase.1], by
        rw [hphase.1]
        rfl⟩)
    · cases h
  | submit =>
    simp only [step] at h
    split at h
    · next hcan =>
      cases h
      exact hs.submit hflag hlimit hcan.1 hcan.2.1 _
    · cases h
  | stopSubmitting =>
    simp only [step] at h
    split at h
    · cases h
    · next hphase =>
      have hphase := not_not.mp hphase
      split at h
      · split at h
        · cases h
        · cases h
          exact hs.phase hconserved rfl rfl rfl rfl rfl rfl rfl (.inr ⟨by simp [hphase], by
            rw [hphase]
            rfl⟩)
      · cases h
        exact hs.phase hconserved rfl rfl rfl rfl rfl rfl rfl (.inr ⟨by simp [hphase], by
          rw [hphase]
          rfl⟩)
  | sampleDone =>
    cases h
    exact hs.producer hconserved rfl rfl rfl rfl hs.count hs.running hs.active_nodup hs.active_lt
  | finish task samples result =>
    simp only [step] at h
    split at h
    · cases h
      -- a finished task counts as running until a wake takes it
      apply hs.producer hconserved rfl rfl rfl rfl
      · show s.rollout.buffer.length + (s.rollout.runningTasks.map _).length ≤ _
        rw [List.length_map]
        exact hs.count
      · show _ → (s.rollout.runningTasks.map _).length ≤ _
        rw [List.length_map]
        exact hs.running
      · exact hs.active_nodup
      · exact hs.active_lt
    · cases h
  | wake done =>
    simp only [step] at h
    split at h
    · next hcan =>
      cases h
      -- what leaves the active tasks is in the phase from now on
      have hrunning := hs.running (by rw [hcan.1]; intro h; cases h)
      rw [hcan.1] at hrunning
      have hactive := length_active_le done hs.active_nodup
      apply hs.producer hconserved rfl rfl rfl rfl hs.count
      · intro _
        simp only [Phase.outstanding] at hrunning ⊢
        omega
      · exact hs.active_nodup.filter _
      · exact fun task htask => hs.active_lt task (List.mem_filter.mp htask).1
    · cases h
  | collect =>
    simp only [step] at h
    split at h
    · next hphase =>
      cases h
      exact hs.phase hconserved rfl rfl rfl rfl rfl rfl rfl (.inr ⟨by simp [hphase], by
        rw [hphase]
        rfl⟩)
    · next task done hphase => exact hs.collect hphase h
    · cases h
  | append =>
    simp only [step] at h
    split at h
    · next task entry done hphase =>
      split at h
      · cases h
        -- the group moves from the phase to the buffer
        exact hs.append hphase
      · cases h
    · cases h
  | endWorker =>
    simp only [step] at h
    split at h
    all_goals first
      | cases h; exact hs.phase hconserved rfl rfl rfl rfl rfl rfl rfl (.inl rfl)
      | cases h
  | get => exact absurd rfl hget
  | takeTurn => exact absurd rfl htake
  | cancelGet => exact absurd rfl hcancel
  | publish version => exact absurd rfl (hpublish version)
  | restart => exact absurd rfl hrestart

/-- A `get` opens the window for one more batch. -/
theorem Bounded.get (hs : Bounded args S s version)
    (hdue : s.updateDue = false) {r : State}
    (h : step args dataSource s.rollout .get = some r) :
    Bounded args S { s with rollout := r } version := by
  have hconserved := step_conserved hs.conserved h
  simp only [step] at h
  split at h
  · next hcan =>
    cases h
    have hcount := hs.count
    simp only [State.window, hcan.1, Option.isSome_none, Bool.false_eq_true, if_false,
      Nat.add_zero] at hcount
    exact {
      conserved := hconserved
      current := hs.current
      count := by
        simp only [State.window, Option.isSome_some, if_true, Nat.succ_mul]
        omega
      running := hs.running
      active_nodup := hs.active_nodup
      active_lt := hs.active_lt
      pending := fun call hcall => by
        cases hcall
        exact ⟨by rw [hs.current], hdue⟩
      queue := hs.queue
      taken := hs.taken }
  · cases h

/-- The weight update after a batch. -/
theorem Bounded.update (hs : Bounded args S s version)
    (hdue : s.updateDue = true) {r : State}
    (h : step args dataSource s.rollout (.publish (version + 1)) = some r) :
    Bounded args S { rollout := r, updateDue := false } (version + 1) := by
  have hconserved := step_conserved hs.conserved h
  simp only [step] at h
  split at h
  · cases h
    exact {
      conserved := hconserved
      current := rfl
      count := hs.count
      running := hs.running
      active_nodup := hs.active_nodup
      active_lt := hs.active_lt
      pending := fun call hcall => by
        -- no `get` is pending while an update is due
        have hfalse := (hs.pending call hcall).2
        rw [hdue] at hfalse
        cases hfalse
      queue := fun i entry hentry => by
        obtain ⟨entered, hentered, hle⟩ := hs.queue i entry hentry
        refine ⟨entered, hentered, ?_⟩
        simp only [TrainLoop.nextVersion, hdue, if_true] at hle
        simp only [TrainLoop.nextVersion, Bool.false_eq_true, if_false]
        omega
      taken := hs.taken }
  · cases h

/-- Every step that does not cancel a `get` keeps the bound. -/
theorem Bounded.step {s s' : TrainLoop} (hs : Bounded args S s version)
    (hflag : args.asyncSubmitWithinStaleness = true) (hlimit : args.maxWeightStaleness = some S)
    {e : TrainEvent} (hcancel : e ≠ .rollout .cancelGet)
    (h : trainStep args dataSource s e = some s') : ∃ version', Bounded args S s' version' := by
  unfold trainStep at h
  split at h
  · cases h
  · cases h
  · split at h
    · cases h
    · next hdue =>
      obtain ⟨r, hr, rfl⟩ := Option.map_eq_some_iff.mp h
      exact ⟨version, hs.get (by simpa using hdue) hr⟩
  · obtain ⟨r, hr, rfl⟩ := Option.map_eq_some_iff.mp h
    have hconserved := step_conserved hs.conserved hr
    simp only [Rollout.step] at hr
    obtain ⟨call, hcall, rfl⟩ := Option.map_eq_some_iff.mp hr
    exact ⟨version, hs.takeTurn hcall hconserved⟩
  · next event hpublish hrestart hget htake =>
    obtain ⟨r, hr, rfl⟩ := Option.map_eq_some_iff.mp h
    refine ⟨version, hs.rollout hflag hlimit hr ?_ ?_ ?_ ?_ ?_⟩
    · exact fun heq => hget heq
    · exact fun heq => htake heq
    · exact fun heq => hcancel (by rw [heq])
    · exact fun v heq => hpublish v heq
    · exact fun heq => hrestart heq
  · rw [hs.current] at h
    dsimp only at h
    split at h
    · next hdue =>
      obtain ⟨r, hr, rfl⟩ := Option.map_eq_some_iff.mp h
      exact ⟨version + 1, hs.update hdue hr⟩
    · cases h

/-! ## Every run -/

/-- With `--async-submit-within-staleness` and a limit of `S` versions, in every run that cancels
    no `get`: the buffered and running groups fit into `S` batches, and into `S + 1` while a
    `get` is pending; and every group that training gets entered the buffer at most `S` versions
    before the version it is taken at. -/
theorem submitted_within_staleness (hflag : args.asyncSubmitWithinStaleness = true)
    (hlimit : args.maxWeightStaleness = some S) {version : Nat} {es : List TrainEvent}
    {s : TrainLoop} (hcancel : TrainEvent.rollout .cancelGet ∉ es)
    (hrun : run (trainStep args dataSource) (TrainLoop.start version) es = some s) :
    s.rollout.buffer.length + s.rollout.runningTasks.length ≤
      (if s.rollout.pendingGet.isSome then S + 1 else S) * args.rolloutBatchSize ∧
    ∀ t ∈ s.rollout.returned, ∃ entered taken, t.entry.enteredAt = some entered ∧
      t.version = some taken ∧ taken ≤ entered + S := by
  have hwhere : StepsWhere (trainStep args dataSource)
      (fun _ e => e ≠ .rollout .cancelGet) (TrainLoop.start version) es := by
    apply stepsWhere_iff.mpr
    intro pre e post m heq _ hcancelled
    exact hcancel (by rw [heq, hcancelled]; simp)
  obtain ⟨version', hs⟩ := run_invariant_where (I := fun s => ∃ version, Bounded args S s version)
    (fun _ _ _ hI hC hstep => hI.elim fun _ hs => hs.step hflag hlimit hC hstep)
    ⟨version, Bounded.start version⟩ hwhere hrun
  refine ⟨?_, hs.taken⟩
  have hcount := hs.count
  unfold State.window at hcount
  split at hcount
  · next hpending =>
    rw [if_pos hpending]
    exact hcount
  · next hpending =>
    rw [if_neg hpending]
    exact hcount

/-! ## A batch at the bound -/

/-- One group a batch, at most one version old. -/
def oneVersionArgs : Args :=
  { oneGroupArgs with
    maxWeightStaleness := some 1
    asyncSubmitWithinStaleness := true
    staleness_set := fun _ => rfl }

/-- A group is submitted, generated and buffered. -/
def bufferOne (task : Nat) : List TrainEvent :=
  [.rollout .beginTurn, .rollout .submit, .rollout .stopSubmitting,
    .rollout (.finish task [{ index := task }] (.finished [.inl
      { index := task, status := .completed, reward := some (.scalar 1) }])),
    .rollout (.wake [task]), .rollout .collect, .rollout .append, .rollout .collect]

/-- The second group enters the buffer after the first batch and before the weight update, and is
    taken after it. -/
def lateBatchRun : List TrainEvent :=
  [.rollout .startWorker] ++ bufferOne 0 ++ [.rollout .get, .rollout .takeTurn] ++ bufferOne 1 ++
    [.updateWeights, .rollout .get, .rollout .takeTurn]

/-- The state after both batches. -/
def lateBatchState : TrainLoop :=
  (run (trainStep oneVersionArgs fun n => [{ index := n }]) (TrainLoop.start 0)
    lateBatchRun).getD (TrainLoop.start 0)

/-- The second group is taken one version after it entered. -/
theorem lateBatch_within_staleness :
    lateBatchState.rollout.returned.map (fun t => (t.entry.enteredAt, t.version)) =
      [(some 0, some 0), (some 0, some 1)] ∧
    ∀ t ∈ lateBatchState.rollout.returned, ∃ entered taken, t.entry.enteredAt = some entered ∧
      t.version = some taken ∧ taken ≤ entered + 1 := by
  have hflag : oneVersionArgs.asyncSubmitWithinStaleness = true := rfl
  have hcancel : TrainEvent.rollout .cancelGet ∉ lateBatchRun := by decide
  have hrun : run (trainStep oneVersionArgs fun n => [{ index := n }]) (TrainLoop.start 0)
      lateBatchRun = some lateBatchState := rfl
  exact ⟨by decide, (submitted_within_staleness hflag rfl hcancel hrun).2⟩

end Miles.Rollout
