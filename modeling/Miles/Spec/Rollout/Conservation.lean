import Miles.Native.Rollout.FullyAsync

/-!
# No prompt group is lost or doubled

Every group drawn from the data source is in one place: waiting for retry, running, buffered,
returned to training, or dropped.  A checkpoint holds the waiting, running and buffered groups,
and loading it puts each of them back in one place.
-/

namespace Miles.Rollout

open Lts

variable {args : Args} {dataSource : Nat → List Sample}

/-! ## Where the groups are -/

namespace State

/-- Groups waiting for retry. -/
def retryIds (s : State) : List Nat := s.retryBuffer.map (·.id)

/-- Groups that are running. -/
def runningIds (s : State) : List Nat := s.runningTasks.map (·.promptGroup.id)

/-- Groups in the data buffer. -/
def bufferedIds (s : State) : List Nat := s.buffer.map (·.promptGroup.id)

/-- Groups returned to training. -/
def returnedIds (s : State) : List Nat := s.returned.map (·.entry.promptGroup.id)

/-- Groups that were dropped. -/
def droppedIds (s : State) : List Nat := s.dropped.map (·.id)

/-- The groups in all places. -/
def placed (s : State) : List Nat :=
  s.retryIds ++ s.runningIds ++ s.bufferedIds ++ s.returnedIds ++ s.droppedIds

end State

@[simp] theorem resetForRetry_id (g : PromptGroup) : g.resetForRetry.id = g.id := rfl

/-! ## Handing groups to the unused handler -/

/-- Several groups go to the unused handler. -/
def handleAll (args : Args) (groups : List PromptGroup) (s : State) : State :=
  match args.unusedHandler with
  | .retry => { s with
      retryBuffer := s.retryBuffer ++ groups.map PromptGroup.resetForRetry }
  | .drop => { s with dropped := s.dropped ++ groups }

theorem handleAll_nil (s : State) : handleAll args [] s = s := by
  unfold handleAll
  split <;> simp

theorem handleAll_cons (g : PromptGroup) (groups : List PromptGroup) (s : State) :
    handleAll args (g :: groups) s = handleAll args groups (handleUnused args g s) := by
  unfold handleAll handleUnused
  cases args.unusedHandler <;> simp

theorem foldl_handleUnused (entries : List Buffered) (s : State) :
    entries.foldl (fun s entry => handleUnused args entry.promptGroup s) s =
      handleAll args (entries.map (·.promptGroup)) s := by
  induction entries generalizing s with
  | nil => exact (handleAll_nil s).symm
  | cons entry entries ih => rw [List.foldl_cons, ih, List.map_cons, handleAll_cons]

variable (args) in
/-- The handler puts a group in one of the two places it can go to. -/
theorem count_handleAll (groups : List PromptGroup) (s : State) (id : Nat) :
    (handleAll args groups s).placed.count id =
      s.placed.count id + (groups.map (·.id)).count id := by
  unfold handleAll
  split
  · simp only [State.placed, State.retryIds, State.runningIds, State.bufferedIds,
      State.returnedIds, State.droppedIds, List.map_append, List.map_map, List.count_append]
    simp only [Function.comp_def, resetForRetry_id]
    omega
  · simp only [State.placed, State.retryIds, State.runningIds, State.bufferedIds,
      State.returnedIds, State.droppedIds, List.map_append, List.count_append]
    omega

variable (args) in
theorem handleAll_fields (groups : List PromptGroup) (s : State) :
    (handleAll args groups s).runningTasks = s.runningTasks ∧
    (handleAll args groups s).buffer = s.buffer ∧
    (handleAll args groups s).returned = s.returned ∧
    (handleAll args groups s).drawn = s.drawn ∧
    (handleAll args groups s).phase = s.phase ∧
    (handleAll args groups s).nextTask = s.nextTask ∧
    (handleAll args groups s).active = s.active ∧
    (handleAll args groups s).pendingGet = s.pendingGet ∧
    (handleAll args groups s).weightVersion = s.weightVersion := by
  unfold handleAll
  split <;> simp

/-- A single group is handled like a list of one. -/
theorem handleUnused_eq (g : PromptGroup) (s : State) :
    handleUnused args g s = handleAll args [g] s := by
  rw [handleAll_cons, handleAll_nil]

/-- Loading the buffer's state keeps the groups that need no generation, and hands the others
    to the unused handler. -/
theorem loadStateDict_eq (output : List Buffered) (s : State) :
    loadStateDict args output s =
      handleAll args ((output.filter fun entry =>
          regeneratedOnRestore args.useOutputStore entry.group).map (·.promptGroup))
        { s with buffer := s.buffer ++ output.filter fun entry =>
          !regeneratedOnRestore args.useOutputStore entry.group } := by
  unfold loadStateDict
  induction output generalizing s with
  | nil => simp [handleAll_nil]
  | cons entry output ih =>
    rw [List.foldl_cons, ih]
    by_cases hregen : regeneratedOnRestore args.useOutputStore entry.group = true
    · simp only [hregen, if_true, List.filter_cons_of_pos, List.map_cons, handleAll_cons,
        Bool.not_true, Bool.false_eq_true, not_false_eq_true, List.filter_cons_of_neg]
      congr 1
      unfold handleUnused
      cases args.unusedHandler <;> rfl
    · simp only [hregen, Bool.false_eq_true, if_false, not_false_eq_true,
        List.filter_cons_of_neg, Bool.not_false, List.filter_cons_of_pos, List.append_assoc,
        List.singleton_append]

/-! ## Tasks -/

/-- A state in which every group is in one place. -/
structure Conserved (s : State) : Prop where
  placed : s.placed.Perm (List.range s.drawn)
  /-- tasks are told apart by their numbers -/
  tasks : (s.runningTasks.map (·.task)).Nodup
  tasks_lt : ∀ x ∈ s.runningTasks, x.task < s.nextTask
  /-- the group a put holds is still running -/
  putting : ∀ task entry done, s.phase = .putting task entry done →
    ∃ x ∈ s.runningTasks, x.task = task ∧ x.result ≠ none ∧ x.promptGroup = entry.promptGroup

/-- Leaving the running tasks takes away the group of the task. -/
theorem count_dropTask {runningTasks : List RunningTask}
    (htasks : (runningTasks.map (·.task)).Nodup) {x : RunningTask} (hx : x ∈ runningTasks)
    (id : Nat) :
    (runningTasks.map (·.promptGroup.id)).count id =
      ((dropTask x.task runningTasks).map (·.promptGroup.id)).count id +
        [x.promptGroup.id].count id := by
  induction runningTasks with
  | nil => cases hx
  | cons y rest ih =>
    simp only [List.map_cons, List.nodup_cons] at htasks
    obtain ⟨hnotin, hrest⟩ := htasks
    obtain rfl | hx := List.mem_cons.mp hx
    · -- no other task has the number of the first one
      have hall : dropTask x.task rest = rest := by
        unfold dropTask
        rw [List.filter_eq_self]
        intro z hz
        have hne : z.task ≠ x.task := fun heq => hnotin (heq ▸ List.mem_map_of_mem hz)
        simpa using hne
      have hdrop : dropTask x.task (x :: rest) = rest := by
        rw [← hall]
        unfold dropTask
        simp
      rw [hdrop]
      simp only [List.map_cons, List.count_cons, List.count_nil]
      omega
    · have hne : y.task ≠ x.task := fun heq => hnotin (heq ▸ List.mem_map_of_mem hx)
      have hdrop : dropTask x.task (y :: rest) = y :: dropTask x.task rest := by
        unfold dropTask
        simp [hne]
      have hcount := ih hrest hx
      rw [hdrop]
      simp only [List.map_cons, List.count_cons] at hcount ⊢
      omega

theorem dropTask_sublist (task : Nat) (runningTasks : List RunningTask) :
    (dropTask task runningTasks).Sublist runningTasks :=
  List.filter_sublist

/-! ## One step -/

/-- The groups of a step's places, counted: those of before, and the one it draws if any. -/
def Moves (s s' : State) : Prop :=
  s.drawn ≤ s'.drawn ∧ ∀ id, s'.placed.count id =
    s.placed.count id + (List.range' s.drawn (s'.drawn - s.drawn)).count id

/-- Moving groups keeps every drawn group in one place. -/
theorem Moves.placed {s s' : State} (h : Moves s s') (hs : s.placed.Perm (List.range s.drawn)) :
    s'.placed.Perm (List.range s'.drawn) := by
  obtain ⟨hle, hcount⟩ := h
  apply List.perm_iff_count.mpr
  intro id
  have hsplit : List.range s'.drawn =
      List.range s.drawn ++ List.range' s.drawn (s'.drawn - s.drawn) := by
    have happend : List.range' 0 s.drawn ++ List.range' (0 + s.drawn) (s'.drawn - s.drawn) =
        List.range' 0 (s.drawn + (s'.drawn - s.drawn)) := List.range'_append_1
    rw [Nat.zero_add, Nat.add_sub_cancel' hle] at happend
    rw [List.range_eq_range', List.range_eq_range', happend]
  rw [hcount id, hsplit, List.count_append, hs.count_eq]

/-- A step that leaves the places as they are. -/
theorem Moves.of_eq {s s' : State} (hdrawn : s'.drawn = s.drawn)
    (hplaced : s'.placed = s.placed) : Moves s s' := by
  refine ⟨Nat.le_of_eq hdrawn.symm, fun id => ?_⟩
  rw [hplaced, hdrawn, Nat.sub_self]
  simp

variable (args dataSource) in
/-- A submitted group comes from the retry buffer or is drawn. -/
theorem submitOneGroup_moves (s : State) : Moves s (submitOneGroup args dataSource s) := by
  unfold submitOneGroup
  cases hretry : s.retryBuffer with
  | nil =>
    refine ⟨Nat.le_succ _, fun id => ?_⟩
    simp only [State.placed, State.retryIds, State.runningIds, State.bufferedIds,
      State.returnedIds, State.droppedIds, hretry, List.map_append, List.count_append,
      List.map_cons, List.map_nil, Nat.add_sub_cancel_left, List.range'_one]
    omega
  | cons promptGroup rest =>
    refine ⟨Nat.le_refl _, fun id => ?_⟩
    simp only [State.placed, State.retryIds, State.runningIds, State.bufferedIds,
      State.returnedIds, State.droppedIds, hretry, List.map_append, List.count_append,
      List.map_cons, List.map_nil, List.count_cons, List.count_nil, Nat.sub_self,
      List.range'_zero]
    omega

variable (args) in
/-- A turn of `get` does not touch the producer. -/
theorem takeTurn_fields (call : GetCall) (s : State) :
    (takeTurn args call s).runningTasks = s.runningTasks ∧
    (takeTurn args call s).phase = s.phase ∧ (takeTurn args call s).nextTask = s.nextTask ∧
    (takeTurn args call s).active = s.active ∧
    (takeTurn args call s).weightVersion = s.weightVersion := by
  obtain ⟨hrunning, -, -, -, hphase, hnext, hactive, -, hversion⟩ := handleAll_fields args
    ((dropStale args call.currentVersion s.buffer).2.map (·.promptGroup)) s
  unfold takeTurn
  simp only [foldl_handleUnused]
  split
  · exact ⟨hrunning, hphase, hnext, hactive, hversion⟩
  · exact ⟨hrunning, hphase, hnext, hactive, hversion⟩

variable (args) in
/-- A turn of `get` takes a batch from the front of the groups that are not stale, or leaves
    these in the buffer when they are too few. -/
theorem takeTurn_cases (call : GetCall) (s : State) :
    let kept := (dropStale args call.currentVersion s.buffer).1
    (call.numGroups ≤ kept.length ∧ (takeTurn args call s).pendingGet = none ∧
      (takeTurn args call s).buffer = kept.drop call.numGroups ∧
      (takeTurn args call s).returned =
        s.returned ++ (kept.take call.numGroups).map (⟨·, call.currentVersion⟩)) ∨
    (kept.length < call.numGroups ∧ (takeTurn args call s).pendingGet = s.pendingGet ∧
      (takeTurn args call s).buffer = kept ∧ (takeTurn args call s).returned = s.returned) := by
  obtain ⟨-, -, hreturned, -, -, -, -, hpending, -⟩ := handleAll_fields args
    ((dropStale args call.currentVersion s.buffer).2.map (·.promptGroup)) s
  dsimp only
  unfold takeTurn
  simp only [foldl_handleUnused]
  split
  · next henough => exact .inl ⟨henough, rfl, rfl, by rw [hreturned]⟩
  · next hfew => exact .inr ⟨Nat.lt_of_not_le hfew, hpending, rfl, hreturned⟩

/-- A turn of `get` moves the stale groups to the unused handler and a batch to training. -/
theorem takeTurn_moves (call : GetCall) (s : State) : Moves s (takeTurn args call s) := by
  have hsplit : ∀ id, s.bufferedIds.count id =
      ((dropStale args call.currentVersion s.buffer).1.map (·.promptGroup.id)).count id +
      ((dropStale args call.currentVersion s.buffer).2.map (·.promptGroup.id)).count id := by
    intro id
    simp only [State.bufferedIds, dropStale]
    have hperm := List.filter_append_perm (withinStaleness args call.currentVersion) s.buffer
    have hcount := ((hperm.map (·.promptGroup.id)).count_eq id).symm
    rw [List.map_append, List.count_append] at hcount
    exact hcount
  have hcount := fun id => count_handleAll args
    ((dropStale args call.currentVersion s.buffer).2.map (·.promptGroup)) s id
  obtain ⟨hrunning, hbuffer, hreturned, hdrawn, -⟩ := handleAll_fields args
    ((dropStale args call.currentVersion s.buffer).2.map (·.promptGroup)) s
  unfold takeTurn
  simp only [foldl_handleUnused]
  generalize (dropStale args call.currentVersion s.buffer).1 = kept at *
  generalize hstale : (dropStale args call.currentVersion s.buffer).2 = stale at *
  generalize handleAll args (stale.map (·.promptGroup)) s = t at *
  split
  · -- a batch leaves the front of the kept groups
    refine ⟨Nat.le_of_eq hdrawn.symm, fun id => ?_⟩
    have hid := hcount id
    have hsplit := hsplit id
    have htake : (kept.map (·.promptGroup.id)).count id =
        ((kept.take call.numGroups).map (·.promptGroup.id)).count id +
        ((kept.drop call.numGroups).map (·.promptGroup.id)).count id := by
      rw [← List.count_append, ← List.map_append, List.take_append_drop]
    simp only [State.placed, State.retryIds, State.runningIds, State.bufferedIds,
      State.returnedIds, State.droppedIds, List.count_append, List.map_append, List.map_map,
      hdrawn, hrunning, hbuffer, hreturned, Nat.sub_self, List.range'_zero, List.count_nil,
      Function.comp_def] at *
    omega
  · refine ⟨Nat.le_of_eq hdrawn.symm, fun id => ?_⟩
    have hid := hcount id
    have hsplit := hsplit id
    simp only [State.placed, State.retryIds, State.runningIds, State.bufferedIds,
      State.returnedIds, State.droppedIds, List.count_append, List.map_map,
      hdrawn, hrunning, hbuffer, hreturned, Nat.sub_self, List.range'_zero, List.count_nil,
      Function.comp_def] at *
    omega

/-- A collected task is found among the running ones, with its result. -/
theorem collectTask_cases {task : Nat} {done : List Nat} {s s' : State}
    (h : collectTask args task done s = some s') :
    s' = { s with phase := .ended } ∨
    ∃ x ∈ s.runningTasks, x.task = task ∧ x.result ≠ none ∧
      ((∃ entry : DataBufferInput, entry.promptGroup = x.promptGroup ∧
          s' = { s with phase := .putting task entry done }) ∨
        s' = { handleUnused args x.promptGroup s with
          runningTasks := dropTask task s.runningTasks, phase := .collecting done } ∨
        s' = { s with
          dropped := s.dropped ++ [x.promptGroup], runningTasks := dropTask task s.runningTasks, phase := .collecting done }) := by
  unfold collectTask at h
  obtain ⟨x, hfind, h⟩ := Option.bind_eq_some_iff.mp h
  obtain ⟨result, hresult, h⟩ := Option.bind_eq_some_iff.mp h
  have hdone : x.result ≠ none := by rw [hresult]; exact Option.some_ne_none _
  have hmem := List.mem_of_find?_eq_some hfind
  have htask : x.task = task := by simpa using List.find?_some hfind
  cases hcollect : collectGroupResult x.promptGroup result with
  | none =>
    simp only [hcollect] at h
    exact .inl (Option.some.inj h).symm
  | some entry =>
    have hgroup : entry.promptGroup = x.promptGroup := by
      unfold collectGroupResult at hcollect
      cases result with
      | finished group => cases hcollect; rfl
      | cancelled => cases hcollect; rfl
      | failed => cases hcollect
    simp only [hcollect] at h
    cases hverdict : preputFilter args entry.group with
    | none =>
      simp only [hverdict] at h
      exact .inl (Option.some.inj h).symm
    | some verdict =>
      right
      refine ⟨x, hmem, htask, hdone, ?_⟩
      cases verdict with
      | keep =>
        simp only [hverdict] at h
        exact .inl ⟨entry, hgroup, (Option.some.inj h).symm⟩
      | aborted =>
        simp only [hverdict, if_true] at h
        have hrunning : (handleUnused args entry.promptGroup s).runningTasks =
            s.runningTasks := by
          rw [handleUnused_eq]
          exact (handleAll_fields args _ s).1
        rw [hrunning, hgroup] at h
        exact .inr (.inl (Option.some.inj h).symm)
      | missingReward =>
        simp only [hverdict, reduceCtorEq, if_false, hgroup] at h
        exact .inr (.inr (Option.some.inj h).symm)
      | dynamicFilter =>
        simp only [hverdict, reduceCtorEq, if_false, hgroup] at h
        exact .inr (.inr (Option.some.inj h).symm)

/-- A state whose running tasks are told apart, after a task has left. -/
theorem Conserved.dropTask_tasks {s : State} (hs : Conserved s) (task : Nat) :
    ((dropTask task s.runningTasks).map (·.task)).Nodup ∧
      ∀ x ∈ dropTask task s.runningTasks, x.task < s.nextTask :=
  ⟨hs.tasks.sublist ((dropTask_sublist task _).map _),
    fun x hx => hs.tasks_lt x ((dropTask_sublist task _).subset hx)⟩

/-- One collected task: its group stays, goes to the unused handler, or is dropped. -/
theorem collectTask_conserved {task : Nat} {done : List Nat} {s s' : State} (hs : Conserved s)
    (h : collectTask args task done s = some s') : Conserved s' := by
  obtain rfl | ⟨x, hx, htask, hdone, hcases⟩ := collectTask_cases h
  · exact ⟨hs.placed, hs.tasks, hs.tasks_lt, fun _ _ _ h => by cases h⟩
  · have hrunning := fun id => count_dropTask hs.tasks hx id
    obtain ⟨htasks, hlt⟩ := hs.dropTask_tasks task
    obtain ⟨entry, hgroup, rfl⟩ | rfl | rfl := hcases
    · refine ⟨hs.placed, hs.tasks, hs.tasks_lt, fun task' entry' done' hphase => ?_⟩
      cases hphase
      exact ⟨x, hx, htask, hdone, hgroup.symm⟩
    · obtain ⟨-, hbuffer, hreturned, hdrawn, -, hnext, -⟩ :=
        handleAll_fields args [x.promptGroup] s
      have hhandle := fun id => count_handleAll args [x.promptGroup] s id
      have hfields := (handleAll_fields args [x.promptGroup] s).1
      rw [← handleUnused_eq] at hbuffer hreturned hdrawn hnext hfields
      simp only [← handleUnused_eq] at hhandle
      generalize handleUnused args x.promptGroup s = t at *
      refine ⟨Moves.placed (s := s) ⟨Nat.le_of_eq hdrawn.symm, fun id => ?_⟩ hs.placed, htasks,
        fun y hy => hnext ▸ hlt y hy, fun _ _ _ h => by cases h⟩
      have hid := hhandle id
      have hleft := hrunning id
      rw [htask] at hleft
      simp only [State.placed, State.retryIds, State.runningIds, State.bufferedIds,
        State.returnedIds, State.droppedIds, List.count_append, hfields, hbuffer, hreturned,
        hdrawn, Nat.sub_self, List.range'_zero, List.count_nil, List.map_cons,
        List.map_nil] at *
      omega
    · refine ⟨Moves.placed (s := s) ⟨Nat.le_refl _, fun id => ?_⟩ hs.placed, htasks, hlt,
        fun _ _ _ h => by cases h⟩
      have hleft := hrunning id
      rw [htask] at hleft
      simp only [State.placed, State.retryIds, State.runningIds, State.bufferedIds,
        State.returnedIds, State.droppedIds, List.count_append, List.map_append, Nat.sub_self,
        List.range'_zero, List.count_nil, List.map_cons, List.map_nil] at *
      omega

/-- A step that touches neither the places nor the tasks. -/
private theorem Conserved.of_eq {s s' : State} (hs : Conserved s) (hplaced : s'.placed = s.placed)
    (hdrawn : s'.drawn = s.drawn) (hrunning : s'.runningTasks = s.runningTasks)
    (hnext : s'.nextTask = s.nextTask)
    (hphase : ∀ task entry done, s'.phase = .putting task entry done →
      s.phase = .putting task entry done) : Conserved s' where
  placed := (Moves.of_eq hdrawn hplaced).placed hs.placed
  tasks := hrunning ▸ hs.tasks
  tasks_lt := hrunning ▸ hnext ▸ hs.tasks_lt
  putting := fun task entry done h => hrunning ▸ hs.putting task entry done (hphase _ _ _ h)

/-- Submitting a group keeps every group in one place. -/
theorem submit_conserved {s : State} (hs : Conserved s) (samplesInFlight : Int)
    (hphase : s.phase = .submitting) :
    Conserved (submitOneGroup args dataSource { s with samplesInFlight }) := by
  have hmoves := submitOneGroup_moves args dataSource
    { s with samplesInFlight }
  obtain ⟨x, htask, hrunning, hnext, hphase'⟩ : ∃ x : RunningTask, x.task = s.nextTask ∧
      (submitOneGroup args dataSource { s with samplesInFlight }).runningTasks =
        s.runningTasks ++ [x] ∧
      (submitOneGroup args dataSource { s with samplesInFlight }).nextTask = s.nextTask + 1 ∧
      (submitOneGroup args dataSource { s with samplesInFlight }).phase = s.phase := by
    unfold submitOneGroup
    cases s.retryBuffer with
    | nil => exact ⟨_, rfl, rfl, rfl, rfl⟩
    | cons promptGroup rest => exact ⟨_, rfl, rfl, rfl, rfl⟩
  refine ⟨hmoves.placed hs.placed, ?_, ?_, fun task entry done h => ?_⟩
  · rw [hrunning, List.map_append, List.map_cons, List.map_nil, List.nodup_append]
    refine ⟨hs.tasks, by simp, fun a ha b hb => ?_⟩
    -- the new task has a new number
    obtain ⟨y, hy, rfl⟩ := List.mem_map.mp ha
    have hlt := hs.tasks_lt y hy
    rw [List.mem_singleton.mp hb, htask]
    omega
  · intro y hy
    rw [hrunning] at hy
    rw [hnext]
    obtain hy | hy := List.mem_append.mp hy
    · exact Nat.lt_succ_of_lt (hs.tasks_lt y hy)
    · rw [List.mem_singleton.mp hy, htask]
      exact Nat.lt_succ_self _
  · rw [hphase', hphase] at h
    cases h

theorem finishTask_task (task : Nat) (samples : List Sample) (result : TaskResult)
    (x : RunningTask) : (finishTask task samples result x).task = x.task := by
  unfold finishTask
  split <;> rfl

theorem finishTask_id (task : Nat) (samples : List Sample) (result : TaskResult)
    (x : RunningTask) : (finishTask task samples result x).promptGroup.id = x.promptGroup.id := by
  unfold finishTask
  split <;> rfl

/-- A task that ends keeps its number and its group. -/
theorem finish_conserved {s : State} (hs : Conserved s) {task : Nat} (samples : List Sample)
    (result : TaskResult)
    (hrunning : s.runningTasks.any fun x => x.task = task ∧ x.result = none) :
    Conserved { s with
      runningTasks := s.runningTasks.map (finishTask task samples result) } := by
  have hids : (s.runningTasks.map (finishTask task samples result)).map (·.promptGroup.id) =
      s.runningTasks.map (·.promptGroup.id) := by
    rw [List.map_map]
    exact List.map_congr_left fun x _ => finishTask_id ..
  have htasks : (s.runningTasks.map (finishTask task samples result)).map (·.task) =
      s.runningTasks.map (·.task) := by
    rw [List.map_map]
    exact List.map_congr_left fun x _ => finishTask_task ..
  refine ⟨?_, ?_, ?_, fun task' entry done h => ?_⟩
  · have hplaced : ({ s with
        runningTasks := s.runningTasks.map (finishTask task samples result) } : State).placed =
        s.placed := by
      simp only [State.placed, State.runningIds, hids]
      rfl
    rw [hplaced]
    exact hs.placed
  · show ((s.runningTasks.map _).map _).Nodup
    rw [htasks]
    exact hs.tasks
  · intro x hx
    obtain ⟨y, hy, rfl⟩ := List.mem_map.mp hx
    rw [finishTask_task]
    exact hs.tasks_lt y hy
  · -- the task of a put has ended before
    obtain ⟨x, hx, htask, hdone, hgroup⟩ := hs.putting task' entry done h
    have hne : x.task ≠ task := by
      intro heq
      obtain ⟨y, hy, hytask⟩ := List.any_eq_true.mp hrunning
      simp only [decide_eq_true_eq] at hytask
      obtain rfl := List.inj_on_of_nodup_map hs.tasks hx hy (heq.trans hytask.1.symm)
      exact hdone hytask.2
    have hsame : finishTask task samples result x = x := if_neg hne
    exact ⟨x, List.mem_map.mpr ⟨x, hx, hsame⟩, htask, hdone, hgroup⟩

/-- A put that finds room moves its group from the running tasks to the buffer. -/
theorem append_conserved {s : State} (hs : Conserved s) {task : Nat} {entry : DataBufferInput}
    {done : List Nat} (hphase : s.phase = .putting task entry done) :
    Conserved { s with
      buffer := s.buffer ++ [{ entry with enteredAt := s.weightVersion }]
      runningTasks := dropTask task s.runningTasks
      phase := .collecting done } := by
  obtain ⟨x, hx, htask, -, hgroup⟩ := hs.putting task entry done hphase
  obtain ⟨htasks, hlt⟩ := hs.dropTask_tasks task
  refine ⟨Moves.placed (s := s) ⟨Nat.le_refl _, fun id => ?_⟩ hs.placed, htasks, hlt,
    fun _ _ _ h => by cases h⟩
  have hleft := count_dropTask hs.tasks hx id
  rw [htask, hgroup] at hleft
  simp only [State.placed, State.retryIds, State.runningIds, State.bufferedIds,
    State.returnedIds, State.droppedIds, List.count_append, List.map_append, Nat.sub_self,
    List.range'_zero, List.count_nil, List.map_cons, List.map_nil] at *
  omega

/-! ## Checkpoints -/

/-- What loading a saved state restores: the groups that waited or ran wait again, and a
    buffered group is buffered unless it must be generated again. -/
theorem load_save (s t : State) (ht : t.buffer = []) :
    load args (save s) t = handleAll args ((s.buffer.filter fun entry =>
        regeneratedOnRestore args.useOutputStore entry.group).map (·.promptGroup))
      { t with
        retryBuffer := s.retryBuffer ++ s.runningTasks.map (·.promptGroup.resetForRetry)
        buffer := s.buffer.filter fun entry =>
          !regeneratedOnRestore args.useOutputStore entry.group } := by
  unfold load save
  rw [loadStateDict_eq]
  simp only [ht, List.nil_append]

/-- A restart keeps every group in one place. -/
theorem restart_conserved {s : State} (hs : Conserved s) :
    Conserved (load args (save s)
      { drawn := s.drawn, returned := s.returned, dropped := s.dropped }) := by
  rw [load_save _ _ rfl]
  obtain ⟨hrunning, -, -, hdrawn, hphase, hnext, -⟩ := handleAll_fields args
    ((s.buffer.filter fun entry => regeneratedOnRestore args.useOutputStore entry.group).map
      (·.promptGroup))
    ({ drawn := s.drawn, returned := s.returned, dropped := s.dropped
       retryBuffer := s.retryBuffer ++ s.runningTasks.map (·.promptGroup.resetForRetry)
       buffer := s.buffer.filter fun entry =>
          !regeneratedOnRestore args.useOutputStore entry.group } : State)
  refine ⟨Moves.placed (s := s) ⟨Nat.le_of_eq hdrawn.symm, fun id => ?_⟩ hs.placed, ?_, ?_,
    fun task entry done h => ?_⟩
  · rw [count_handleAll, hdrawn]
    have hsplit := ((List.filter_append_perm
      (fun entry : Buffered => regeneratedOnRestore args.useOutputStore entry.group)
      s.buffer).map (·.promptGroup.id)).count_eq id
    simp only [State.placed, State.retryIds, State.runningIds, State.bufferedIds,
      State.returnedIds, State.droppedIds, List.count_append, List.map_append, Nat.sub_self,
      List.range'_zero, List.count_nil, List.map_map, List.map_nil, Function.comp_def,
      resetForRetry_id] at *
    omega
  · rw [hrunning]
    exact List.nodup_nil
  · rw [hrunning]
    exact fun x hx => absurd hx List.not_mem_nil
  · rw [hphase] at h
    cases h

/-! ## Every run -/

/-- Every step keeps every group in one place. -/
theorem step_conserved {s s' : State} {e : Event} (hs : Conserved s)
    (h : step args dataSource s e = some s') : Conserved s' := by
  -- an event that changes flags or the phase only leaves every group where it is
  cases e with
  | startWorker =>
    simp only [step] at h
    split at h
    · cases h
      exact hs.of_eq rfl rfl rfl rfl fun _ _ _ h => by cases h
    · cases h
  | pauseProducer =>
    cases h
    exact hs.of_eq rfl rfl rfl rfl fun _ _ _ h => h
  | resumeProducer =>
    cases h
    exact hs.of_eq rfl rfl rfl rfl fun _ _ _ h => h
  | beginTurn =>
    simp only [step] at h
    split at h
    · cases h
      exact hs.of_eq rfl rfl rfl rfl fun _ _ _ h => by cases h
    · cases h
  | submit =>
    simp only [step] at h
    split at h
    · next hcan =>
      cases h
      exact submit_conserved hs _ hcan.1
    · cases h
  | stopSubmitting =>
    simp only [step] at h
    split at h
    · cases h
    · split at h
      · split at h
        · cases h
        · cases h
          exact hs.of_eq rfl rfl rfl rfl fun _ _ _ h => by cases h
      · cases h
        exact hs.of_eq rfl rfl rfl rfl fun _ _ _ h => by cases h
  | sampleDone =>
    cases h
    exact hs.of_eq rfl rfl rfl rfl fun _ _ _ h => h
  | finish task samples result =>
    simp only [step] at h
    split at h
    · next hrunning =>
      cases h
      exact finish_conserved hs samples result hrunning
    · cases h
  | wake done =>
    simp only [step] at h
    split at h
    · cases h
      exact hs.of_eq rfl rfl rfl rfl fun _ _ _ h => by cases h
    · cases h
  | collect =>
    simp only [step] at h
    split at h
    · cases h
      exact hs.of_eq rfl rfl rfl rfl fun _ _ _ h => by cases h
    · exact collectTask_conserved hs h
    · cases h
  | append =>
    simp only [step] at h
    split at h
    · next hphase =>
      split at h
      · cases h
        exact append_conserved hs hphase
      · cases h
    · cases h
  | endWorker =>
    simp only [step] at h
    split at h
    all_goals first
      | cases h; exact hs.of_eq rfl rfl rfl rfl fun _ _ _ h => by cases h
      | cases h
  | get =>
    simp only [step] at h
    split at h
    · cases h
      exact hs.of_eq rfl rfl rfl rfl fun _ _ _ h => h
    · cases h
  | takeTurn =>
    simp only [step] at h
    -- stale groups go to the handler and fresh ones may be returned: no task is touched
    obtain ⟨call, -, rfl⟩ := Option.map_eq_some_iff.mp h
    obtain ⟨hrunning, hphase, hnext, -⟩ := takeTurn_fields args call s
    refine ⟨(takeTurn_moves call s).placed hs.placed, hrunning ▸ hs.tasks,
      hrunning ▸ hnext ▸ hs.tasks_lt, fun task entry done h => ?_⟩
    rw [hrunning]
    exact hs.putting task entry done (hphase ▸ h)
  | cancelGet =>
    simp only [step] at h
    split at h
    · cases h
    · cases h
      exact hs.of_eq rfl rfl rfl rfl fun _ _ _ h => h
  | publish version =>
    simp only [step] at h
    split at h
    · cases h
      exact hs.of_eq rfl rfl rfl rfl fun _ _ _ h => h
    · cases h
  | restart =>
    cases h
    exact restart_conserved hs

/-- Every reachable state has every group in one place. -/
theorem conserved_of_run {es : List Event} {s : State}
    (h : run (step args dataSource) {} es = some s) : Conserved s := by
  have hinit : Conserved {} :=
    ⟨.refl _, List.nodup_nil, fun x hx => absurd hx List.not_mem_nil,
      fun _ _ _ h => by cases h⟩
  exact run_invariant (fun _ _ _ hs hstep => step_conserved hs hstep) hinit h

/-- The groups a checkpoint is to bring back: those waiting for retry, running or buffered. -/
def State.unfinishedIds (s : State) : List Nat := s.retryIds ++ s.runningIds ++ s.bufferedIds

variable (args) in
/-- The groups of the loaded places are the ones a checkpoint is to bring back. -/
theorem load_save_perm (s : State) :
    ((load args (save s) {}).retryIds ++ (load args (save s) {}).bufferedIds ++
      (load args (save s) {}).droppedIds).Perm s.unfinishedIds := by
  rw [load_save _ _ rfl]
  apply List.perm_iff_count.mpr
  intro id
  have hsplit := ((List.filter_append_perm
    (fun entry : Buffered => regeneratedOnRestore args.useOutputStore entry.group)
    s.buffer).map (·.promptGroup.id)).count_eq id
  unfold handleAll
  cases args.unusedHandler
  all_goals
    simp only [State.unfinishedIds, State.retryIds, State.runningIds, State.bufferedIds,
      State.droppedIds, List.count_append, List.map_append, List.map_map, List.map_nil,
      List.count_nil, Function.comp_def, resetForRetry_id] at *
    omega

/-- In every reachable state each group drawn from the data source is in exactly one place.
    Loading a checkpoint of it brings back the groups that waited, ran or were buffered, each
    once: in the buffer those that were buffered and need no generation, and waiting for retry
    those that waited or ran.  A buffered group that must be generated again goes to the unused
    handler: it waits for retry too, or is dropped. -/
theorem groups_conserved {es : List Event} {s : State}
    (h : run (step args dataSource) {} es = some s) :
    s.placed.Perm (List.range s.drawn) ∧
    (let loaded := load args (save s) {}
    let regenerated := s.buffer.filter fun entry =>
      regeneratedOnRestore args.useOutputStore entry.group
    loaded.buffer = s.buffer.filter (fun entry =>
      !regeneratedOnRestore args.useOutputStore entry.group) ∧
    (args.unusedHandler = .retry → loaded.dropped = [] ∧
      loaded.retryBuffer = s.retryBuffer ++ s.runningTasks.map (·.promptGroup.resetForRetry) ++
        regenerated.map (·.promptGroup.resetForRetry)) ∧
    (args.unusedHandler = .drop → loaded.dropped = regenerated.map (·.promptGroup) ∧
      loaded.retryBuffer = s.retryBuffer ++ s.runningTasks.map (·.promptGroup.resetForRetry)) ∧
    (loaded.retryIds ++ loaded.bufferedIds ++ loaded.droppedIds).Perm s.unfinishedIds ∧
    (loaded.retryIds ++ loaded.bufferedIds ++ loaded.droppedIds).Nodup) := by
  have hconserved := conserved_of_run h
  refine ⟨hconserved.placed, ?_⟩
  dsimp only
  have hperm := load_save_perm args s
  have hnodup : s.unfinishedIds.Nodup := by
    have hall := hconserved.placed.nodup_iff.mpr List.nodup_range
    exact hall.sublist ((List.sublist_append_left _ _).trans (List.sublist_append_left _ _))
  refine ⟨?_, fun hretry => ?_, fun hdrop => ?_, hperm, hperm.nodup_iff.mpr hnodup⟩
  · rw [load_save _ _ rfl]
    exact (handleAll_fields args _ _).2.1
  · rw [load_save _ _ rfl]
    unfold handleAll
    rw [hretry]
    simp [Function.comp_def]
  · rw [load_save _ _ rfl]
    unfold handleAll
    rw [hdrop]
    simp

/-! ## A buffered group that a restart drops -/

/-- One group a batch, dropping what training does not use. -/
def oneGroupArgs : Args where
  rolloutBatchSize := 1
  nSamplesPerPrompt := 1
  asyncMaxConcurrentSamples := none
  granularity := .group
  capacity := 1
  unusedHandler := .drop
  rewardKey := none
  maxWeightStaleness := none
  asyncSubmitWithinStaleness := false
  useOutputStore := true
  dynamicFilter := fun _ => some true
  batch_pos := Nat.one_pos
  batch_le_capacity := Nat.le_refl _
  staleness_set := fun h => by cases h

/-- A group with output store refs is generated and buffered. -/
def storedGroupRun : List Event :=
  [.publish 0, .startWorker, .beginTurn, .submit, .stopSubmitting,
    .finish 0 [{ index := 0 }] (.finished [.inl
      { index := 0, status := .completed, reward := some (.scalar 1), ownedRefs := ["routed"] }]),
    .wake [0], .collect, .append]

/-- The state in which the group is buffered. -/
def storedGroupState : State :=
  (run (step oneGroupArgs fun n => [{ index := n }]) {} storedGroupRun).getD {}

/-- Loading the checkpoint does not bring the buffered group back. -/
theorem restore_drops_stored_group :
    run (step oneGroupArgs fun n => [{ index := n }]) {} storedGroupRun = some storedGroupState ∧
      storedGroupState.unfinishedIds = [0] ∧
      (load oneGroupArgs (save storedGroupState) {}).retryIds = [] ∧
      (load oneGroupArgs (save storedGroupState) {}).bufferedIds = [] :=
  ⟨rfl, by decide, by decide, by decide⟩

/-- The buffered group is in one place, and among the dropped ones after the restart. -/
theorem groups_conserved_storedGroup :
    storedGroupState.placed.Perm (List.range 1) ∧
      (load oneGroupArgs (save storedGroupState) {}).dropped.map (·.id) = [0] := by
  have hrun : run (step oneGroupArgs fun n => [{ index := n }]) {} storedGroupRun =
      some storedGroupState := rfl
  exact ⟨(groups_conserved hrun).1, by decide⟩

end Miles.Rollout
