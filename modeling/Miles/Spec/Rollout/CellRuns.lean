import Miles.ForStd.List
import Miles.ForStd.Lts
import Miles.Native.Rollout.ServerCells

/-!
# Runs of server cells

What one resumption of a coroutine can do to its cell, what one step can do to the cells, the
coroutines and the router, and the invariant of all runs.

The context lock is what makes ticks safe: `tick` does not look at the state again before it
registers, but while it runs no `dispose` does, and the other coroutines, some of which outlive
the lock, do not touch a cell that is initialising.
-/

namespace Miles.Rollout.Serving

/-! ## Resumptions -/

/-- The step in which `mark_errored` or `dispose` marks a cell that was in use. -/
def leaves (c : ServerCell) : Routine → Await → Outcome → Bool
  | .markErrored, .queued, .returned => c.state = .pendingWeights
  | .markErrored, .unregistering, .returned => c.state = .pendingWeights ∨ c.state = .serving
  | .dispose, .queued, .returned => c.state ≠ .serving ∧ !c.left
  | .dispose, .unregistering, .returned => !c.left
  | .dispose, .unregistering, .gaveUp _ => !c.left
  | _, _, _ => false

/-- The coroutine has not ended. -/
def Await.Running (a : Await) : Prop := ∀ ok, a ≠ .ended ok

variable {cfg : Config} {routine : Routine} {c : ServerCell} {await : Await} {outcome : Outcome}
  {r : Resumed}

/-- The transitions of a cell. -/
theorem resume_cell (h : resume cfg routine c await outcome = some r) :
    r.cell = c ∨
    (routine = .init ∧ c.state = .uninitialized ∧ r.cell = { c with state := .initializing }) ∨
    (routine = .tick ∧ c.state = .initializing ∧ r.cell = { c with state := .pendingWeights }) ∨
    (routine = .tick ∧ await = .registering true ∧ c.state = .initializing ∧
      r.cell = { c with state := .serving }) ∨
    (∃ u, routine = .markWeightsReady u ∧ await = .registering true ∧ c.state = .pendingWeights ∧
      r.cell = { c with state := .serving }) ∨
    (routine = .markErrored ∧ (c.state = .pendingWeights ∨ c.state = .serving) ∧
      r.cell = { c with state := .errored }) ∨
    (routine = .dispose ∧ ∃ error, r.cell =
      { c with state := .disposed, unregisterError := error }) := by
  unfold resume at h
  split at h
  · cases routine <;> simp only [start] at h <;> split at h <;> grind [becomeErrored]
  · cases routine <;> grind [changeState]
  all_goals grind [changeState, becomeErrored]

/-- Where a coroutine stands after a resumption, when it does not end. -/
theorem resume_await (h : resume cfg routine c await outcome = some r) (hrun : r.await.Running) :
    r.cell = c ∧
      ((r.await = .preparing ∧ await = .queued ∧ (routine = .tick → c.state = .initializing)) ∨
      (r.await = .registering false ∧ routine = .tick ∧ await = .preparing ∧
        serveWithoutWeightUpdate cfg c = true) ∨
      (r.await = .registering false ∧ (∃ u, routine = .markWeightsReady u) ∧
        c.state = .pendingWeights) ∨
      r.await = .unregistering) := by
  unfold Await.Running at hrun
  unfold resume at h
  split at h
  · cases routine <;> simp only [start] at h <;> split at h <;> grind [becomeErrored]
  · cases routine <;> grind [changeState]
  all_goals grind [changeState, becomeErrored]

theorem resume_running (h : resume cfg routine c await outcome = some r) : await.Running := by
  rintro ok rfl
  cases outcome <;> cases h

/-- A cell is left for good, and a resumption leaves it exactly in the steps of `leaves`. -/
theorem resume_left (h : resume cfg routine c await outcome = some r) :
    r.cell.left = (c.left || leaves c routine await outcome) := by
  unfold resume at h
  split at h
  · cases routine <;> simp only [start] at h <;> split at h <;>
      grind [becomeErrored, leaves, ServerCell.left]
  · cases routine <;> grind [changeState, leaves, ServerCell.left]
  all_goals grind [changeState, becomeErrored, leaves, ServerCell.left]

/-- Only `raised` leaves a register request under way without its caller. -/
theorem resume_stray (h : resume cfg routine c await outcome = some r) (hstray : r.stray = true) :
    await = .registering false ∧ r.cell = c := by
  unfold resume at h
  split at h <;> grind

/-- A coroutine that leaves the service after an unregister call saw it take effect, or the cell
    is marked. -/
theorem resume_delist (h : resume cfg routine c await outcome = some r)
    (hleaves : leaves c routine await outcome = true) :
    (await = .queued ∧ outcome = .returned) ∨ r.delist = true ∨
      r.cell.unregisterError = true := by
  unfold resume at h
  split at h <;> grind [leaves]

/-- An unregister error stays on record. -/
theorem resume_unregisterError (h : resume cfg routine c await outcome = some r)
    (herror : c.unregisterError = true) : r.cell.unregisterError = true := by
  unfold resume at h
  split at h
  · cases routine <;> simp only [start] at h <;> split at h <;> grind [becomeErrored]
  · cases routine <;> grind [changeState]
  all_goals grind [changeState, becomeErrored]

/-- A cell object keeps its identity. -/
theorem resume_identity (h : resume cfg routine c await outcome = some r) :
    r.cell.cellId = c.cellId ∧ r.cell.info = c.info := by
  rcases resume_cell h with hc | ⟨-, -, hc⟩ | ⟨-, -, hc⟩ | ⟨-, -, -, hc⟩ | ⟨-, -, -, -, hc⟩ |
    ⟨-, -, hc⟩ | ⟨-, error, hc⟩ <;> rw [hc] <;> exact ⟨rfl, rfl⟩

/-- A cell becomes serving when its register request returned. -/
theorem resume_serving (h : resume cfg routine c await outcome = some r)
    (hserving : r.cell.state = .serving) :
    c.state = .serving ∨ await = .registering true ∧
      (routine = .tick ∨ ∃ u, routine = .markWeightsReady u) := by
  rcases resume_cell h with heq | ⟨-, -, heq⟩ | ⟨-, -, heq⟩ | ⟨hr, hawait, -⟩ |
    ⟨u, hr, hawait, -⟩ | ⟨-, -, heq⟩ | ⟨-, error, heq⟩
  · exact .inl (heq ▸ hserving)
  · simp [heq] at hserving
  · simp [heq] at hserving
  · exact .inr ⟨hawait, .inl hr⟩
  · exact .inr ⟨hawait, .inr ⟨u, hr⟩⟩
  · simp [heq] at hserving
  · simp [heq] at hserving

theorem running_of_started (h : await = .preparing ∨ ∃ applied, await = .registering applied) :
    await.Running := by
  rintro ok rfl
  simp at h

theorem serveWithoutWeightUpdate_congr {d : ServerCell} (h : d.info = c.info) :
    serveWithoutWeightUpdate cfg d = serveWithoutWeightUpdate cfg c := by
  unfold serveWithoutWeightUpdate
  rw [h]

namespace World

/-! ## The invariant -/

/-- No `tick` and no `dispose` is under way. -/
def Idle (s : World) : Prop :=
  ∀ (k : Nat) (t : Task), s.tasks[k]? = some t → t.await.Running → t.routine ≠ .tick ∧ t.routine ≠ .dispose

/-- Update `u` started with this incarnation of the cell and ended without naming it failed. -/
def Ready (s : World) (u : Nat) (c : ServerCell) : Prop :=
  ∃ snapshot failed, s.updates[u]? = some snapshot ∧ (u, failed) ∈ s.ends ∧
    (c.cellId, c.info.workersHash) ∈ snapshot ∧ c.cellId ∉ failed

/-- What every run keeps. -/
structure Inv (cfg : Config) (s : World) : Prop where
  nodup : s.allServerCells.Nodup
  bounded : ∀ i ∈ s.allServerCells, i < s.cells.length
  cell : ∀ (k : Nat) (t : Task), s.tasks[k]? = some t → t.cell < s.cells.length
  adding : ∀ cell k, s.lock = .adding cell k → cell < s.cells.length
  /-- ticks run under the lock of `_tick_cells` -/
  tick : ∀ (k : Nat) (t : Task), s.tasks[k]? = some t → t.await.Running → t.routine = .tick →
    ∃ ts, s.lock = .ticking ts ∧ k ∈ ts
  tickOnce : ∀ (k k' : Nat) (t t' : Task), s.tasks[k]? = some t → s.tasks[k']? = some t' → t.await.Running →
    t'.await.Running → t.routine = .tick → t'.routine = .tick → t.cell = t'.cell → k = k'
  /-- and `dispose` under the lock of its caller -/
  dispose : ∀ (k : Nat) (t : Task), s.tasks[k]? = some t → t.await.Running → t.routine = .dispose →
    (∃ cell replacement, s.lock = .removing cell k replacement) ∨ s.lock = .dropping k
  /-- a tick that goes on is one of a cell that is still initialising -/
  ticked : ∀ (k : Nat) (t : Task) (c : ServerCell), s.tasks[k]? = some t → s.cells[t.cell]? = some c → t.routine = .tick →
    t.await = .preparing ∨ (∃ applied, t.await = .registering applied) → c.state = .initializing
  /-- a tick registers only what serves without an update -/
  tickRegisters : ∀ (k : Nat) (t : Task) (c : ServerCell) (applied : Bool), s.tasks[k]? = some t → s.cells[t.cell]? = some c →
    t.routine = .tick → t.await = .registering applied → serveWithoutWeightUpdate cfg c = true
  /-- an update promotes only the incarnations it started with -/
  ready : ∀ (k : Nat) (t : Task) (c : ServerCell) (u : Nat), s.tasks[k]? = some t → s.cells[t.cell]? = some c →
    t.routine = .markWeightsReady u → s.Ready u c
  updated : ∀ u failed ts cells, s.lock = .endingFailed u failed ts cells →
    ∀ i ∈ cells, ∃ c : ServerCell, s.cells[i]? = some c ∧ s.Ready u c
  serving : ∀ (i : Nat) (c : ServerCell), s.cells[i]? = some c → c.state = .serving →
    serveWithoutWeightUpdate cfg c = true ∨ ∃ u, s.Ready u c

theorem Ready.congr {s : World} {u : Nat} {d : ServerCell} (h : s.Ready u c)
    (hid : d.cellId = c.cellId) (hinfo : d.info = c.info) : s.Ready u d := by
  obtain ⟨snapshot, failed, hu, hend, hmem, hnot⟩ := h
  exact ⟨snapshot, failed, hu, hend, by rw [hid, hinfo]; exact hmem, by rw [hid]; exact hnot⟩

theorem inv_initial (cfg : Config) : Inv cfg {} := by
  constructor <;> simp

/-- The ticks and the `dispose` that the holder of the lock awaits. -/
def exclusive : Lock → List Nat
  | .ticking tasks => tasks
  | .removing _ task _ => [task]
  | .dropping task => [task]
  | _ => []

/-- When those have ended, nothing but weight updates and `init` runs. -/
theorem Inv.idle {s : World} (hs : Inv cfg s) (hall : s.allEnded (exclusive s.lock)) : s.Idle := by
  have hended : ∀ (k : Nat) (t : Task), k ∈ exclusive s.lock → s.tasks[k]? = some t →
      ¬ t.await.Running := by
    intro k t hk ht hrun
    have hresult := List.all_eq_true.mp hall k hk
    unfold result at hresult
    rw [ht, Option.bind_some] at hresult
    cases hawait : t.await with
    | ended ok => exact hrun ok hawait
    | _ => simp [hawait] at hresult
  intro k t ht hrun
  constructor
  · intro htick
    obtain ⟨ts, hlock, hk⟩ := hs.tick k t ht hrun htick
    exact hended k t (by rw [hlock]; exact hk) ht hrun
  · intro hdispose
    rcases hs.dispose k t ht hrun hdispose with ⟨cell, replacement, hlock⟩ | hlock
    · exact hended k t (by rw [hlock]; exact List.mem_singleton.mpr rfl) ht hrun
    · exact hended k t (by rw [hlock]; exact List.mem_singleton.mpr rfl) ht hrun

/-! ## Steps of the controller -/

/-- The controller adds uninitialised cells and starts coroutines of one method. -/
structure Spawns (s s' : World) (routine : Routine) (targets : List Nat) : Prop where
  cells : s'.cells = s.cells ∨
    ∃ cellId info, s'.cells = s.cells ++ [(⟨cellId, info, .uninitialized, false⟩ : ServerCell)]
  allServerCells : s'.allServerCells.Sublist s.allServerCells ∨
    ∃ kept, kept.Sublist s.allServerCells ∧ s'.allServerCells = kept ++ [s.cells.length] ∧
      s'.cells.length = s.cells.length + 1
  tasks : s'.tasks = s.tasks ++ targets.map fun cell => (⟨cell, routine, .queued⟩ : Task)
  router : s'.router = s.router
  strays : s'.strays = s.strays
  updates : s.updates <+: s'.updates
  ends : s.ends ⊆ s'.ends
  bounded : ∀ i ∈ targets, i < s'.cells.length
  adding : ∀ cell k, s'.lock = .adding cell k → cell < s'.cells.length
  tick : routine = .tick → targets.Nodup ∧ s'.lock = .ticking (s.spawned targets)
  dispose : routine = .dispose → targets = [] ∨ ∃ i, targets = [i] ∧
    ((∃ cell replacement, s'.lock = .removing cell s.tasks.length replacement) ∨
      s'.lock = .dropping s.tasks.length)
  ready : ∀ u, routine = .markWeightsReady u → ∀ i ∈ targets, ∃ c : ServerCell, s.cells[i]? = some c ∧ s.Ready u c
  updated : ∀ u failed ts updated, s'.lock = .endingFailed u failed ts updated →
    ∀ i ∈ updated, ∃ c : ServerCell, s.cells[i]? = some c ∧ s'.Ready u c

namespace Spawns

variable {s s' : World} {targets : List Nat}

theorem cell (h : s.Spawns s' routine targets) {i : Nat} (hc : s.cells[i]? = some c) :
    s'.cells[i]? = some c := by
  rcases h.cells with heq | ⟨cellId, info, heq⟩
  · rw [heq, hc]
  · rw [heq, List.getElem?_append_left (List.getElem?_eq_some_iff.mp hc).1, hc]

/-- A cell was there before, or it is new. -/
theorem cell_cases (h : s.Spawns s' routine targets) {i : Nat} (hc : s'.cells[i]? = some c) :
    s.cells[i]? = some c ∨
      (i = s.cells.length ∧ c.state = .uninitialized ∧ c.unregisterError = false) := by
  rcases h.cells with heq | ⟨cellId, info, heq⟩
  · rw [heq] at hc
    exact .inl hc
  · rw [heq, List.getElem?_append] at hc
    split at hc
    · exact .inl hc
    · rename_i hge
      right
      have hi : i = s.cells.length := by
        have := (List.getElem?_eq_some_iff.mp hc).1
        simp only [List.length_singleton] at this
        omega
      subst hi
      simp only [Nat.sub_self, List.getElem?_cons_zero, Option.some.injEq] at hc
      exact ⟨rfl, hc ▸ rfl, hc ▸ rfl⟩

/-- A task was there before, or it is new and has not run. -/
theorem task_cases (h : s.Spawns s' routine targets) {k : Nat} {t : Task}
    (ht : s'.tasks[k]? = some t) :
    s.tasks[k]? = some t ∨ ∃ j, k = s.tasks.length + j ∧ targets[j]? = some t.cell ∧
      t.routine = routine ∧ t.await = .queued := by
  rw [h.tasks, List.getElem?_append] at ht
  split at ht
  · exact .inl ht
  · rename_i hge
    rw [List.getElem?_map] at ht
    obtain ⟨i, hi, rfl⟩ := Option.map_eq_some_iff.mp ht
    exact .inr ⟨k - s.tasks.length, by omega, hi, rfl, rfl⟩

theorem ready_mono (h : s.Spawns s' routine targets) {u : Nat} (hready : s.Ready u c) :
    s'.Ready u c := by
  obtain ⟨snapshot, failed, hu, hend, hmem, hnot⟩ := hready
  refine ⟨snapshot, failed, ?_, h.ends hend, hmem, hnot⟩
  obtain ⟨rest, hrest⟩ := h.updates
  rw [← hrest, List.getElem?_append_left (List.getElem?_eq_some_iff.mp hu).1, hu]

/-- No cell object is lost. -/
theorem length_cells (h : s.Spawns s' routine targets) : s.cells.length ≤ s'.cells.length := by
  rcases h.cells with heq | ⟨cellId, info, heq⟩ <;> rw [heq]
  simp

/-- A task that goes on and is a tick or a `dispose` is new. -/
theorem new_task (h : s.Spawns s' routine targets) (hidle : s.Idle) {k : Nat} {t : Task}
    (ht : s'.tasks[k]? = some t) (hrun : t.await.Running)
    (hexclusive : t.routine = .tick ∨ t.routine = .dispose) :
    ∃ j, k = s.tasks.length + j ∧ targets[j]? = some t.cell ∧ t.routine = routine := by
  rcases h.task_cases ht with hold | ⟨j, hk, hj, hroutine, -⟩
  · obtain ⟨htick, hdispose⟩ := hidle k t hold hrun
    exact absurd hexclusive (not_or.mpr ⟨htick, hdispose⟩)
  · exact ⟨j, hk, hj, hroutine⟩

/-- A task whose coroutine has started was there before. -/
theorem old_task (h : s.Spawns s' routine targets) {k : Nat} {t : Task}
    (ht : s'.tasks[k]? = some t) (hstarted : t.await ≠ .queued) : s.tasks[k]? = some t := by
  rcases h.task_cases ht with hold | ⟨j, -, -, -, hqueued⟩
  · exact hold
  · exact absurd hqueued hstarted

/-- The cell of a task that was there before is unchanged. -/
theorem old_cell (h : s.Spawns s' routine targets) (hs : Inv cfg s) {k : Nat} {t : Task}
    (ht : s.tasks[k]? = some t) (hc : s'.cells[t.cell]? = some c) : s.cells[t.cell]? = some c := by
  rcases h.cell_cases hc with hold | ⟨hnew, -⟩
  · exact hold
  · have hlt := hs.cell k t ht
    omega

/-- Such a step keeps the invariant. -/
theorem inv (h : s.Spawns s' routine targets) (hs : Inv cfg s) (hidle : s.Idle) : Inv cfg s' where
  nodup := by
    rcases h.allServerCells with hsub | ⟨kept, hsub, heq, -⟩
    · exact hsub.nodup hs.nodup
    · rw [heq, List.nodup_append]
      refine ⟨hsub.nodup hs.nodup, List.nodup_singleton _, ?_⟩
      intro i hi j hj
      have hlt := hs.bounded i (hsub.subset hi)
      rw [List.mem_singleton] at hj
      omega
  bounded := by
    intro i hi
    have hlen := h.length_cells
    rcases h.allServerCells with hsub | ⟨kept, hsub, heq, hgrow⟩
    · have hlt := hs.bounded i (hsub.subset hi)
      omega
    · rw [heq, List.mem_append, List.mem_singleton] at hi
      rcases hi with hkept | rfl
      · have hlt := hs.bounded i (hsub.subset hkept)
        omega
      · omega
  cell := by
    intro k t ht
    rcases h.task_cases ht with hold | ⟨j, -, hj, -, -⟩
    · exact lt_of_lt_of_le (hs.cell k t hold) h.length_cells
    · exact h.bounded _ (List.mem_of_getElem? hj)
  adding := h.adding
  tick := by
    intro k t ht hrun htick
    -- the lock was idle, so a task that runs and holds it is a new one
    obtain ⟨j, hk, hj, hroutine⟩ := h.new_task hidle ht hrun (.inl htick)
    refine ⟨_, (h.tick (hroutine ▸ htick)).2, ?_⟩
    have hlt := (List.getElem?_eq_some_iff.mp hj).1
    rw [spawned, List.mem_range'_1]
    omega
  tickOnce := by
    intro k k' t t' ht ht' hrun hrun' htick htick' heq
    obtain ⟨j, hk, hj, hroutine⟩ := h.new_task hidle ht hrun (.inl htick)
    obtain ⟨j', hk', hj', -⟩ := h.new_task hidle ht' hrun' (.inl htick')
    have hnodup := (h.tick (hroutine ▸ htick)).1
    have hsame : targets[j]? = targets[j']? := by rw [hj, hj', heq]
    have hjj := (List.getElem?_inj (List.getElem?_eq_some_iff.mp hj).1 hnodup).mp hsame
    omega
  dispose := by
    intro k t ht hrun hdispose
    obtain ⟨j, hk, hj, hroutine⟩ := h.new_task hidle ht hrun (.inr hdispose)
    rcases h.dispose (hroutine ▸ hdispose) with hnil | ⟨i, hone, hlock⟩
    · simp [hnil] at hj
    · have hlt := (List.getElem?_eq_some_iff.mp hj).1
      rw [hone, List.length_singleton] at hlt
      obtain rfl : k = s.tasks.length := by omega
      exact hlock
  ticked := by
    intro k t c ht hc htick hawait
    -- a new task has not started yet
    have hold := h.old_task ht (by rcases hawait with h | ⟨b, h⟩ <;> rw [h] <;> simp)
    exact hs.ticked k t c hold (h.old_cell hs hold hc) htick hawait
  tickRegisters := by
    intro k t c applied ht hc htick hawait
    have hold := h.old_task ht (by rw [hawait]; simp)
    exact hs.tickRegisters k t c applied hold (h.old_cell hs hold hc) htick hawait
  ready := by
    intro k t c u ht hc hroutine
    rcases h.task_cases ht with hold | ⟨j, -, hj, hsame, -⟩
    · exact h.ready_mono (hs.ready k t c u hold (h.old_cell hs hold hc) hroutine)
    · obtain ⟨d, hd, hready⟩ := h.ready u (hsame ▸ hroutine) _ (List.mem_of_getElem? hj)
      obtain rfl : d = c := Option.some.inj ((h.cell hd).symm.trans hc)
      exact h.ready_mono hready
  updated := by
    intro u failed ts updated hlock i hi
    obtain ⟨c, hc, hready⟩ := h.updated u failed ts updated hlock i hi
    exact ⟨c, h.cell hc, hready⟩
  serving := by
    intro i c hc hserving
    rcases h.cell_cases hc with hold | ⟨-, hnew, -⟩
    · exact (hs.serving i c hold hserving).imp id fun ⟨u, hu⟩ => ⟨u, h.ready_mono hu⟩
    · rw [hnew] at hserving
      cases hserving

end Spawns

section Controller

variable {s : World} {kept targets : List Nat} {l : Lock}

/-- The lock is passed on, cells are forgotten or an update starts. -/
theorem spawns_lock {updates : List (List (String × String))}
    (hkept : kept.Sublist s.allServerCells) (hupdates : s.updates <+: updates)
    (hl : ∀ u failed ts cells, l ≠ .endingFailed u failed ts cells)
    (hadding : ∀ cell k, l ≠ .adding cell k) :
    s.Spawns { s with allServerCells := kept, lock := l, updates := updates } .init [] where
  cells := .inl rfl
  allServerCells := .inl hkept
  tasks := (List.append_nil _).symm
  router := rfl
  strays := rfl
  updates := hupdates
  ends := List.Subset.refl _
  bounded := by simp
  adding := fun cell k h => absurd h (hadding cell k)
  tick := by simp
  dispose := by simp
  ready := by simp
  updated := fun u failed ts cells h => absurd h (hl u failed ts cells)

/-- Coroutines are started for cells of the controller. -/
theorem spawns_spawn {ends : List (Nat × List String)} (hkept : kept.Sublist s.allServerCells)
    (hends : s.ends ⊆ ends) (hbounded : ∀ i ∈ targets, i < s.cells.length)
    (hadding : ∀ cell k, l ≠ .adding cell k)
    (htick : routine = .tick → targets.Nodup ∧ l = .ticking (s.spawned targets))
    (hdispose : routine = .dispose → ∃ i, targets = [i] ∧
      ((∃ cell replacement, l = .removing cell s.tasks.length replacement) ∨
        l = .dropping s.tasks.length))
    (hready : ∀ u, routine = .markWeightsReady u →
      ∀ i ∈ targets, ∃ c : ServerCell, s.cells[i]? = some c ∧ s.Ready u c)
    (hupdated : ∀ u failed ts updated, l = .endingFailed u failed ts updated →
      ∀ i ∈ updated, ∃ c : ServerCell, s.cells[i]? = some c ∧ Ready { s with ends := ends } u c) :
    s.Spawns { s.spawn routine targets with allServerCells := kept, lock := l, ends := ends }
      routine targets where
  cells := .inl rfl
  allServerCells := .inl hkept
  tasks := rfl
  router := rfl
  strays := rfl
  updates := List.prefix_rfl
  ends := hends
  bounded := hbounded
  adding := fun cell k h => absurd h (hadding cell k)
  tick := htick
  dispose := fun h => .inr (hdispose h)
  ready := hready
  updated := hupdated

/-- A cell is added, and perhaps initialised. -/
theorem spawns_add (cellId : String) (info : CellInfo) (hkept : kept.Sublist s.allServerCells)
    (htargets : ∀ i ∈ targets, i = s.cells.length)
    (hl : ∀ u failed ts cells, l ≠ .endingFailed u failed ts cells)
    (hadding : ∀ cell k, l = .adding cell k → cell = s.cells.length) :
    s.Spawns { s with
      cells := s.cells ++ [(⟨cellId, info, .uninitialized, false⟩ : ServerCell)]
      allServerCells := kept ++ [s.cells.length]
      tasks := s.tasks ++ targets.map fun cell => (⟨cell, .init, .queued⟩ : Task)
      lock := l } .init targets where
  cells := .inr ⟨cellId, info, rfl⟩
  allServerCells := .inr ⟨kept, hkept, rfl, by simp⟩
  tasks := rfl
  router := rfl
  strays := rfl
  updates := List.prefix_rfl
  ends := List.Subset.refl _
  bounded := by
    intro i hi
    rw [htargets i hi]
    simp
  adding := by
    intro cell k h
    rw [hadding cell k h]
    simp
  tick := by simp
  dispose := by simp
  ready := by simp
  updated := fun u failed ts cells h => absurd h (hl u failed ts cells)

/-- An added cell spawns its initialization. -/
theorem spawns_addCell (cfg : Config) (cellId : String) (info : CellInfo)
    (hkept : kept.Sublist s.allServerCells) :
    ∃ targets, s.Spawns (addCell cfg { s with allServerCells := kept } cellId info) .init
      targets := by
  unfold addCell
  split
  · have h := @spawns_add s kept [] .free cellId info hkept (by simp) (by simp) (by simp)
    rw [List.map_nil, List.append_nil] at h
    exact ⟨[], h⟩
  · exact ⟨[s.cells.length], spawns_add cellId info hkept (by simp) (by simp) (by simp)⟩

theorem mem_cellsWhere {keep : ServerCell → Bool} {i : Nat} (h : i ∈ s.cellsWhere keep) :
    i ∈ s.allServerCells ∧ ∃ c : ServerCell, s.cells[i]? = some c ∧ keep c = true := by
  unfold cellsWhere at h
  rw [List.mem_filter, Option.any_eq_true] at h
  exact ⟨h.1, h.2⟩

theorem lt_of_mem_cellsWhere {keep : ServerCell → Bool} {i : Nat} (h : i ∈ s.cellsWhere keep) :
    i < s.cells.length := by
  obtain ⟨-, c, hc, -⟩ := mem_cellsWhere h
  exact (List.getElem?_eq_some_iff.mp hc).1

/-- A reconciliation changes nothing or spawns tasks. -/
theorem spawns_reconcile {cellId : String} {observed : Option CellInfo} :
    reconcile cfg s cellId observed = s ∨
      ∃ routine targets, s.Spawns (reconcile cfg s cellId observed) routine targets := by
  unfold reconcile
  split
  · obtain ⟨targets, h⟩ := spawns_addCell (s := s) cfg cellId _ (List.Sublist.refl _)
    exact .inr ⟨_, targets, h⟩
  · rename_i cell hcell
    have hmem : cell ∈ s.cellsWhere fun c => c.cellId = cellId := List.mem_of_head? hcell
    refine .inr ⟨.dispose, [cell], spawns_spawn (List.Sublist.refl _) (List.Subset.refl _) ?_ ?_ ?_
      ?_ ?_ ?_⟩
    · simpa using lt_of_mem_cellsWhere hmem
    · simp
    · simp
    · exact fun _ => ⟨cell, rfl, .inl ⟨cell, none, rfl⟩⟩
    · simp
    · simp
  · rename_i cell info hcell
    split
    · exact .inl rfl
    · have hmem : cell ∈ s.cellsWhere fun c => c.cellId = cellId := List.mem_of_head? hcell
      refine .inr ⟨.dispose, [cell], spawns_spawn (List.Sublist.refl _) (List.Subset.refl _) ?_ ?_
        ?_ ?_ ?_ ?_⟩
      · simpa using lt_of_mem_cellsWhere hmem
      · simp
      · simp
      · exact fun _ => ⟨cell, rfl, .inl ⟨cell, _, rfl⟩⟩
      · simp
      · simp
  · exact .inl rfl

/-- The start of an update changes nothing or spawns tasks. -/
theorem spawns_startUpdateWeights {modelId : Option String} {evalPool : Bool} :
    startUpdateWeights cfg s modelId evalPool = s ∨
      ∃ routine targets,
        s.Spawns (startUpdateWeights cfg s modelId evalPool) routine targets := by
  unfold startUpdateWeights
  generalize (if evalPool then some "eval" else modelId) = name
  extract_lets
  split
  · refine .inr ⟨.init, _, spawns_spawn (List.Sublist.refl _) (List.Subset.refl _) ?_ ?_ ?_ ?_ ?_
      ?_⟩
    · intro i hi
      exact lt_of_mem_cellsWhere (List.mem_of_mem_filter hi)
    all_goals simp
  · split
    · exact .inl rfl
    · split
      · exact .inl rfl
      · exact .inr ⟨.init, [], spawns_lock (List.Sublist.refl _) (List.prefix_append ..) (by simp)
          (by simp)⟩

/-- The end of an update marks the failed cells first. -/
theorem spawns_endUpdateWeights {update : Nat} {snapshot : List (String × String)}
    {failedCellIds : List String} (hupdate : s.updates[update]? = some snapshot) :
    ∃ targets, s.Spawns (endUpdateWeights s update snapshot failedCellIds) .markErrored
      targets := by
  unfold endUpdateWeights
  refine ⟨_, spawns_spawn (List.Sublist.refl _) (List.subset_append_left ..) ?_ ?_ ?_ ?_ ?_ ?_⟩
  · intro i hi
    exact lt_of_mem_cellsWhere (List.mem_of_mem_filter hi)
  · simp
  · simp
  · simp
  · simp
  · intro u failed ts updated hlock i hi
    obtain ⟨rfl, rfl, -, rfl⟩ : _ = u ∧ _ = failed ∧ _ ∧ _ = updated :=
      Lock.endingFailed.inj hlock
    obtain ⟨hmem, hnot⟩ := List.mem_filter.mp hi
    obtain ⟨-, c, hc, hkeep⟩ := mem_cellsWhere hmem
    rw [hc, Option.any_some, decide_eq_true_iff] at hnot
    exact ⟨c, hc, snapshot, failedCellIds, hupdate, by simp, by simpa using hkeep, hnot⟩

/-- The holder of the lock goes on only when its tasks have ended. -/
theorem spawns_proceed {s' : World} (hs : Inv cfg s) (h : s.proceed cfg = some s') :
    s.Idle ∧ ∃ routine targets, s.Spawns s' routine targets := by
  unfold proceed at h
  split at h
  · cases h
  · cases h
  · -- the end of `_tick_cells`
    rename_i tasks hlock
    split at h
    · rename_i hall
      cases h
      exact ⟨hs.idle (by rw [hlock]; exact hall), .init, [],
        spawns_lock (List.Sublist.refl _) List.prefix_rfl (by simp) (by simp)⟩
    · cases h
  · -- `reconcile`: the old cell leaves before its replacement is added
    rename_i cell task replacement hlock
    split at h
    · rename_i hall
      refine ⟨hs.idle (by rw [hlock]; exact hall), ?_⟩
      cases replacement with
      | none =>
        cases h
        exact ⟨.init, [], spawns_lock List.filter_sublist List.prefix_rfl (by simp) (by simp)⟩
      | some entry =>
        obtain ⟨cellId, info⟩ := entry
        cases h
        exact ⟨.init, spawns_addCell cfg cellId info List.filter_sublist⟩
    · cases h
  · -- `add_cell`: a cell that did not initialize is disposed of
    rename_i cell task hlock
    have hidle : s.Idle := hs.idle (by rw [hlock]; rfl)
    split at h
    · cases h
    · cases h
      exact ⟨hidle, .init, [], spawns_lock (List.Sublist.refl _) List.prefix_rfl (by simp) (by simp)⟩
    · cases h
      refine ⟨hidle, .dispose, [cell], spawns_spawn List.filter_sublist (List.Subset.refl _) ?_ ?_
        ?_ ?_ ?_ ?_⟩
      · simpa using hs.adding cell task hlock
      · simp
      · simp
      · exact fun _ => ⟨cell, rfl, .inr rfl⟩
      · simp
      · simp
  · rename_i task hlock
    split at h
    · rename_i hall
      cases h
      exact ⟨hs.idle (by rw [hlock]; exact hall), .init, [],
        spawns_lock (List.Sublist.refl _) List.prefix_rfl (by simp) (by simp)⟩
    · cases h
  · rename_i tasks hlock
    split at h
    · cases h
      exact ⟨hs.idle (by rw [hlock]; rfl), .init, [],
        spawns_lock (List.Sublist.refl _) List.prefix_rfl (by simp) (by simp)⟩
    · cases h
  · -- `end_update_weights`: the failed cells first, then the updated ones
    rename_i update failed tasks updated hlock
    have hidle : s.Idle := hs.idle (by rw [hlock]; rfl)
    split at h
    · cases h
      exact ⟨hidle, .init, [], spawns_lock (List.Sublist.refl _) List.prefix_rfl (by simp) (by simp)⟩
    · split at h
      · cases h
        refine ⟨hidle, .markWeightsReady update, _, spawns_spawn (List.Sublist.refl _)
          (List.Subset.refl _) ?_ ?_ ?_ ?_ ?_ ?_⟩
        · intro i hi
          obtain ⟨c, hc, -⟩ := hs.updated update failed tasks updated hlock i
            (List.mem_of_mem_filter hi)
          exact (List.getElem?_eq_some_iff.mp hc).1
        · simp
        · simp
        · simp
        · intro u hu i hi
          obtain rfl : update = u := Routine.markWeightsReady.inj hu
          exact hs.updated update failed tasks updated hlock i (List.mem_of_mem_filter hi)
        · simp
      · cases h
  · rename_i tasks hlock
    split at h
    · cases h
      exact ⟨hs.idle (by rw [hlock]; rfl), .init, [],
        spawns_lock (List.Sublist.refl _) List.prefix_rfl (by simp) (by simp)⟩
    · cases h

end Controller

/-! ## Steps of a coroutine -/

/-- The world after task `k` went on. -/
def resumed (s : World) (k : Nat) (t : Task) (r : Resumed) : World :=
  { s with
    cells := s.cells.set t.cell r.cell
    tasks := s.tasks.set k { t with await := r.await }
    router := if r.delist then s.router.filter (· ≠ t.cell) else s.router
    strays := if r.stray then s.strays ++ [t.cell] else s.strays }

theorem runTask_eq_some {s s' : World} {k : Nat} (h : s.runTask cfg k outcome = some s') :
    ∃ t c r, s.tasks[k]? = some t ∧ s.cells[t.cell]? = some c ∧
      resume cfg t.routine c t.await outcome = some r ∧ s' = s.resumed k t r := by
  unfold runTask at h
  split at h
  · cases h
  · rename_i t ht
    split at h
    · cases h
    · rename_i c hc
      obtain ⟨r, hr, rfl⟩ := Option.map_eq_some_iff.mp h
      exact ⟨t, c, r, ht, hc, hr, rfl⟩

section Resumed

variable {s : World} {k : Nat} {t : Task}

/-- A coroutine that goes on with its cell. -/
structure Resumes (cfg : Config) (s : World) (k : Nat) (t : Task) (c : ServerCell)
    (outcome : Outcome) (r : Resumed) : Prop where
  task : s.tasks[k]? = some t
  cell : s.cells[t.cell]? = some c
  resume : resume cfg t.routine c t.await outcome = some r

theorem Resumes.cell_cases (h : Resumes cfg s k t c outcome r) {i : Nat} {d : ServerCell} :
    (s.resumed k t r).cells[i]? = some d ↔
      (i = t.cell ∧ d = r.cell) ∨ (i ≠ t.cell ∧ s.cells[i]? = some d) :=
  List.getElem?_set_eq_some h.cell

theorem Resumes.task_cases (h : Resumes cfg s k t c outcome r) {j : Nat} {t' : Task} :
    (s.resumed k t r).tasks[j]? = some t' ↔
      (j = k ∧ t' = { t with await := r.await }) ∨ (j ≠ k ∧ s.tasks[j]? = some t') :=
  List.getElem?_set_eq_some h.task

/-- Every cell was there before, with the same identity. -/
theorem Resumes.identity (h : Resumes cfg s k t c outcome r) {i : Nat} {d : ServerCell}
    (hd : (s.resumed k t r).cells[i]? = some d) :
    ∃ d', s.cells[i]? = some d' ∧ d.cellId = d'.cellId ∧ d.info = d'.info := by
  rcases h.cell_cases.mp hd with ⟨rfl, rfl⟩ | ⟨-, hold⟩
  · exact ⟨c, h.cell, resume_identity h.resume⟩
  · exact ⟨d, hold, rfl, rfl⟩

/-- Every task was there before, with its cell and method, and stands where it stood unless it is
    the one that went on. -/
theorem Resumes.old_task (h : Resumes cfg s k t c outcome r) {j : Nat} {t' : Task}
    (ht' : (s.resumed k t r).tasks[j]? = some t') :
    ∃ t₀, s.tasks[j]? = some t₀ ∧ t'.cell = t₀.cell ∧ t'.routine = t₀.routine ∧
      (t'.await.Running → t₀.await.Running) := by
  rcases h.task_cases.mp ht' with ⟨rfl, rfl⟩ | ⟨-, hold⟩
  · exact ⟨t, h.task, rfl, rfl, fun _ => resume_running h.resume⟩
  · exact ⟨t', hold, rfl, rfl, id⟩

/-- The cell of the coroutine that goes on. -/
theorem Resumes.own_cell (h : Resumes cfg s k t c outcome r) {d : ServerCell}
    (hd : (s.resumed k t r).cells[t.cell]? = some d) : d = r.cell := by
  rcases h.cell_cases.mp hd with ⟨-, heq⟩ | ⟨hne, -⟩
  · exact heq
  · exact absurd rfl hne

/-- The coroutine that goes on changes no cell that is initialising, except in its own tick or in
    a `dispose`. -/
theorem resume_initializing (h : resume cfg routine c await outcome = some r)
    (hc : c.state = .initializing) (htick : routine ≠ .tick) (hdispose : routine ≠ .dispose) :
    r.cell.state = .initializing := by
  rcases resume_cell h with heq | ⟨-, hstate, -⟩ | ⟨hr, -⟩ | ⟨hr, -⟩ | ⟨u, -, -, hstate, -⟩ |
    ⟨-, hstate, -⟩ | ⟨hr, -⟩
  · rw [heq, hc]
  · simp [hc] at hstate
  · exact absurd hr htick
  · exact absurd hr htick
  · simp [hc] at hstate
  · simp [hc] at hstate
  · exact absurd hr hdispose

/-- A resumption keeps the invariant. -/
theorem Resumes.inv (h : Resumes cfg s k t c outcome r) (hs : Inv cfg s) :
    Inv cfg (s.resumed k t r) where
  nodup := hs.nodup
  bounded := by
    intro i hi
    show i < (s.cells.set t.cell r.cell).length
    rw [List.length_set]
    exact hs.bounded i hi
  cell := by
    intro j t' ht'
    obtain ⟨t₀, ht₀, hcell, -⟩ := h.old_task ht'
    show t'.cell < (s.cells.set t.cell r.cell).length
    rw [List.length_set, hcell]
    exact hs.cell j t₀ ht₀
  adding := by
    intro cell j hlock
    show cell < (s.cells.set t.cell r.cell).length
    rw [List.length_set]
    exact hs.adding cell j hlock
  tick := by
    intro j t' ht' hrun htick
    obtain ⟨t₀, ht₀, -, hroutine, hrun₀⟩ := h.old_task ht'
    exact hs.tick j t₀ ht₀ (hrun₀ hrun) (hroutine ▸ htick)
  tickOnce := by
    intro j j' t₁ t₂ h₁ h₂ hrun₁ hrun₂ htick₁ htick₂ heq
    obtain ⟨o₁, ho₁, hcell₁, hroutine₁, hold₁⟩ := h.old_task h₁
    obtain ⟨o₂, ho₂, hcell₂, hroutine₂, hold₂⟩ := h.old_task h₂
    exact hs.tickOnce j j' o₁ o₂ ho₁ ho₂ (hold₁ hrun₁) (hold₂ hrun₂) (hroutine₁ ▸ htick₁)
      (hroutine₂ ▸ htick₂) (by rw [← hcell₁, ← hcell₂, heq])
  dispose := by
    intro j t' ht' hrun hdispose
    obtain ⟨t₀, ht₀, -, hroutine, hrun₀⟩ := h.old_task ht'
    exact hs.dispose j t₀ ht₀ (hrun₀ hrun) (hroutine ▸ hdispose)
  ticked := by
    intro j t' d ht' hd htick hawait
    have hrun : t'.await.Running := running_of_started hawait
    rcases h.task_cases.mp ht' with ⟨rfl, rfl⟩ | ⟨hne, ht₀⟩
    · obtain rfl : d = r.cell := h.own_cell hd
      obtain ⟨hcell, hcases⟩ := resume_await h.resume hrun
      rw [hcell]
      rcases hcases with ⟨-, -, hstate⟩ | ⟨-, -, hpreparing, -⟩ | ⟨-, ⟨u, hr⟩, -⟩ | hunregister
      · exact hstate htick
      · exact hs.ticked j t c h.task h.cell htick (.inl hpreparing)
      · cases htick.symm.trans hr
      · simp [hunregister] at hawait
    · rcases h.cell_cases.mp hd with ⟨heq, rfl⟩ | ⟨-, hold⟩
      · have hstate := hs.ticked j t' c ht₀ (heq ▸ h.cell) htick hawait
        have hrunning := resume_running h.resume
        refine resume_initializing h.resume hstate ?_ ?_
        · intro htick'
          exact hne (hs.tickOnce j k t' t ht₀ h.task hrun hrunning htick htick' heq)
        · intro hdispose
          -- `dispose` and `tick` hold the lock for different calls
          obtain ⟨ts, hlock, -⟩ := hs.tick j t' ht₀ hrun htick
          rcases hs.dispose k t h.task hrunning hdispose with ⟨_, _, hlock'⟩ | hlock'
          · cases hlock.symm.trans hlock'
          · cases hlock.symm.trans hlock'
      · exact hs.ticked j t' d ht₀ hold htick hawait
  tickRegisters := by
    intro j t' d applied ht' hd htick hawait
    have hrun : t'.await.Running := running_of_started (.inr ⟨applied, hawait⟩)
    rcases h.task_cases.mp ht' with ⟨rfl, rfl⟩ | ⟨hne, ht₀⟩
    · obtain rfl : d = r.cell := h.own_cell hd
      obtain ⟨hcell, hcases⟩ := resume_await h.resume hrun
      rw [hcell]
      rcases hcases with ⟨hpreparing, -⟩ | ⟨-, -, -, hserve⟩ | ⟨-, ⟨u, hr⟩, -⟩ | hunregister
      · cases hawait.symm.trans hpreparing
      · exact hserve
      · cases htick.symm.trans hr
      · cases hawait.symm.trans hunregister
    · obtain ⟨d', hd', hid, hinfo⟩ := h.identity hd
      rw [serveWithoutWeightUpdate_congr hinfo]
      exact hs.tickRegisters j t' d' applied ht₀ hd' htick hawait
  ready := by
    intro j t' d u ht' hd hroutine
    obtain ⟨t₀, ht₀, hcell, hroutine₀, -⟩ := h.old_task ht'
    obtain ⟨d', hd', hid, hinfo⟩ := h.identity hd
    rw [hcell] at hd'
    exact (hs.ready j t₀ d' u ht₀ hd' (hroutine₀ ▸ hroutine)).congr hid hinfo
  updated := by
    intro u failed ts updated hlock i hi
    obtain ⟨d', hd', hready⟩ := hs.updated u failed ts updated hlock i hi
    by_cases hit : i = t.cell
    · subst hit
      obtain rfl : d' = c := Option.some.inj (hd'.symm.trans h.cell)
      obtain ⟨hid, hinfo⟩ := resume_identity h.resume
      exact ⟨r.cell, h.cell_cases.mpr (.inl ⟨rfl, rfl⟩), Ready.congr hready hid hinfo⟩
    · exact ⟨d', h.cell_cases.mpr (.inr ⟨hit, hd'⟩), hready⟩
  serving := by
    intro i d hd hserving
    rcases h.cell_cases.mp hd with ⟨rfl, rfl⟩ | ⟨-, hold⟩
    · obtain ⟨hid, hinfo⟩ := resume_identity h.resume
      rw [serveWithoutWeightUpdate_congr hinfo]
      rcases resume_serving h.resume hserving with hold | ⟨hawait, hr | ⟨u, hr⟩⟩
      · exact (hs.serving _ c h.cell hold).imp id fun ⟨u, hu⟩ => ⟨u, Ready.congr hu hid hinfo⟩
      · exact .inl (hs.tickRegisters k t c true h.task h.cell hr hawait)
      · exact .inr ⟨u, Ready.congr (hs.ready k t c u h.task h.cell hr) hid hinfo⟩
    · exact hs.serving i d hold hserving

end Resumed

/-! ## Steps -/

section Steps

variable {s s' : World} {e : Event}

/-- The world after the register request of task `k` took effect. -/
def applied (s : World) (k : Nat) (t : Task) : World :=
  { s with
    tasks := s.tasks.set k { t with await := .registering true }
    router := s.router ++ [t.cell] }

/-- The kinds of steps. -/
theorem step_cases (hs : Inv cfg s) (h : step cfg s e = some s') :
    s' = s ∨ (s.Idle ∧ ∃ routine targets, s.Spawns s' routine targets) ∨
    (∃ k outcome t c r, e = .runTask k outcome ∧ Resumes cfg s k t c outcome r ∧
      s' = s.resumed k t r) ∨
    (∃ k t, e = .routerApplies k ∧ s.tasks[k]? = some t ∧ t.await = .registering false ∧
      s' = s.applied k t) ∨
    ∃ k cell, e = .routerAppliesStray k ∧ s.strays[k]? = some cell ∧
      s' = { s with strays := s.strays.eraseIdx k, router := s.router ++ [cell] } := by
  have hfree : s.lock = .free → s.Idle := fun hlock => hs.idle (by rw [hlock]; rfl)
  cases e with
  | observe cellId observed =>
    simp only [step, Option.ite_none_right_eq_some, Option.some.injEq] at h
    obtain ⟨hlock, rfl⟩ := h
    exact spawns_reconcile.imp id fun hspawns => .inl ⟨hfree hlock, hspawns⟩
  | tickCells =>
    simp only [step, Option.ite_none_right_eq_some, Option.some.injEq] at h
    obtain ⟨hlock, rfl⟩ := h
    refine .inr (.inl ⟨hfree hlock, .tick, _, spawns_spawn (List.Sublist.refl _)
      (List.Subset.refl _) ?_ ?_ ?_ ?_ ?_ ?_⟩)
    · intro i hi
      exact lt_of_mem_cellsWhere hi
    · simp
    · exact fun _ => ⟨hs.nodup.filter _, rfl⟩
    all_goals simp
  | startUpdateWeights modelId evalPool =>
    simp only [step, Option.ite_none_right_eq_some, Option.some.injEq] at h
    obtain ⟨hlock, rfl⟩ := h
    exact spawns_startUpdateWeights.imp id fun hspawns => .inl ⟨hfree hlock, hspawns⟩
  | abortUpdateWeights =>
    simp only [step] at h
    split at h
    · rename_i hlock
      cases h
      exact .inr (.inl ⟨hs.idle (by rw [hlock]; rfl), .init, [],
        spawns_lock (List.Sublist.refl _) List.prefix_rfl (by simp) (by simp)⟩)
    · cases h
      exact .inl rfl
  | endUpdateWeights update failedCellIds =>
    simp only [step] at h
    split at h
    · rename_i snapshot hlock hupdate
      cases h
      exact .inr (.inl ⟨hs.idle (by rw [hlock]; rfl), .markErrored,
        spawns_endUpdateWeights hupdate⟩)
    · cases h
  | proceed => exact .inr (.inl (spawns_proceed hs h))
  | runTask k outcome =>
    obtain ⟨t, c, r, ht, hc, hr, rfl⟩ := runTask_eq_some h
    exact .inr (.inr (.inl ⟨k, outcome, t, c, r, rfl, ⟨ht, hc, hr⟩, rfl⟩))
  | routerApplies k =>
    simp only [step] at h
    split at h
    · rename_i cell routine ht
      cases h
      exact .inr (.inr (.inr (.inl ⟨k, _, rfl, ht, rfl, rfl⟩)))
    · cases h
  | routerAppliesStray k =>
    simp only [step] at h
    split at h
    · cases h
    · rename_i cell hcell
      cases h
      exact .inr (.inr (.inr (.inr ⟨k, cell, rfl, hcell, rfl⟩)))

theorem applied_task_cases {k : Nat} {t : Task} (ht : s.tasks[k]? = some t) {j : Nat} {t' : Task} :
    (s.applied k t).tasks[j]? = some t' ↔
      (j = k ∧ t' = { t with await := .registering true }) ∨ (j ≠ k ∧ s.tasks[j]? = some t') :=
  List.getElem?_set_eq_some ht

/-- A task after a register request took effect, as it was before. -/
theorem applied_old_task {k : Nat} {t : Task} (ht : s.tasks[k]? = some t)
    (hawait : t.await = .registering false) {j : Nat} {t' : Task}
    (ht' : (s.applied k t).tasks[j]? = some t') :
    ∃ t₀, s.tasks[j]? = some t₀ ∧ t'.cell = t₀.cell ∧ t'.routine = t₀.routine ∧
      (t'.await.Running → t₀.await.Running) ∧ (t'.await = .preparing → t₀.await = .preparing) ∧
      (∀ b, t'.await = .registering b → ∃ b₀, t₀.await = .registering b₀) := by
  rcases (applied_task_cases ht).mp ht' with ⟨rfl, rfl⟩ | ⟨-, hold⟩
  · exact ⟨t, ht, rfl, rfl, fun _ => running_of_started (.inr ⟨false, hawait⟩), by simp,
      fun _ _ => ⟨false, hawait⟩⟩
  · exact ⟨t', hold, rfl, rfl, id, id, fun b hb => ⟨b, hb⟩⟩

/-- A register request that takes effect keeps the invariant. -/
theorem inv_applied (hs : Inv cfg s) {k : Nat} {t : Task} (ht : s.tasks[k]? = some t)
    (hawait : t.await = .registering false) : Inv cfg (s.applied k t) where
  nodup := hs.nodup
  bounded := hs.bounded
  adding := hs.adding
  updated := hs.updated
  serving := hs.serving
  cell := by
    intro j t' ht'
    obtain ⟨t₀, ht₀, hcell, -⟩ := applied_old_task ht hawait ht'
    rw [hcell]
    exact hs.cell j t₀ ht₀
  tick := by
    intro j t' ht' hrun htick
    obtain ⟨t₀, ht₀, -, hroutine, hrun₀, -⟩ := applied_old_task ht hawait ht'
    exact hs.tick j t₀ ht₀ (hrun₀ hrun) (hroutine ▸ htick)
  tickOnce := by
    intro j j' t₁ t₂ h₁ h₂ hrun₁ hrun₂ htick₁ htick₂ heq
    obtain ⟨o₁, ho₁, hcell₁, hroutine₁, hold₁, -⟩ := applied_old_task ht hawait h₁
    obtain ⟨o₂, ho₂, hcell₂, hroutine₂, hold₂, -⟩ := applied_old_task ht hawait h₂
    exact hs.tickOnce j j' o₁ o₂ ho₁ ho₂ (hold₁ hrun₁) (hold₂ hrun₂) (hroutine₁ ▸ htick₁)
      (hroutine₂ ▸ htick₂) (by rw [← hcell₁, ← hcell₂, heq])
  dispose := by
    intro j t' ht' hrun hdispose
    obtain ⟨t₀, ht₀, -, hroutine, hrun₀, -⟩ := applied_old_task ht hawait ht'
    exact hs.dispose j t₀ ht₀ (hrun₀ hrun) (hroutine ▸ hdispose)
  ticked := by
    intro j t' d ht' hd htick hstarted
    obtain ⟨t₀, ht₀, hcell, hroutine, -, hpreparing, hregistering⟩ :=
      applied_old_task ht hawait ht'
    refine hs.ticked j t₀ d ht₀ (hcell ▸ hd) (hroutine ▸ htick) ?_
    exact hstarted.imp hpreparing fun ⟨b, hb⟩ => hregistering b hb
  tickRegisters := by
    intro j t' d b ht' hd htick hb
    obtain ⟨t₀, ht₀, hcell, hroutine, -, -, hregistering⟩ := applied_old_task ht hawait ht'
    obtain ⟨b₀, hb₀⟩ := hregistering b hb
    exact hs.tickRegisters j t₀ d b₀ ht₀ (hcell ▸ hd) (hroutine ▸ htick) hb₀
  ready := by
    intro j t' d u ht' hd hroutine'
    obtain ⟨t₀, ht₀, hcell, hroutine, -⟩ := applied_old_task ht hawait ht'
    exact hs.ready j t₀ d u ht₀ (hcell ▸ hd) (hroutine ▸ hroutine')

/-- Every step keeps the invariant. -/
theorem inv_step (hs : Inv cfg s) (h : step cfg s e = some s') : Inv cfg s' := by
  rcases step_cases hs h with rfl | ⟨hidle, routine, targets, hspawns⟩ |
    ⟨k, outcome, t, c, r, -, hresumes, rfl⟩ | ⟨k, t, -, ht, hawait, rfl⟩ | ⟨k, cell, -, -, rfl⟩
  · exact hs
  · exact hspawns.inv hs hidle
  · exact hresumes.inv hs
  · exact inv_applied hs ht hawait
  · -- the router is no part of the invariant
    exact { hs with }

/-- Every run keeps the invariant. -/
theorem inv_run {es : List Event} (h : Lts.run (step cfg) {} es = some s) : Inv cfg s :=
  Lts.run_invariant (fun _ _ _ hs hstep => inv_step hs hstep) (inv_initial cfg) h

/-! ## Register requests -/

/-- A register request of the cell may still take effect. -/
def UnderWay (s : World) (i : Nat) : Prop :=
  (∃ (k : Nat) (t : Task), s.tasks[k]? = some t ∧ t.cell = i ∧ t.await = .registering false) ∨
    i ∈ s.strays

instance (s : World) (i : Nat) : Decidable (s.UnderWay i) :=
  decidable_of_iff ((∃ t ∈ s.tasks, t.cell = i ∧ t.await = .registering false) ∨ i ∈ s.strays) <| by
    simp only [UnderWay, List.mem_iff_getElem?]
    grind

/-- No register request is started for an errored or disposed cell. -/
theorem underWay_step (hs : Inv cfg s) (h : step cfg s e = some s') {i : Nat}
    (hc : s'.cells[i]? = some c) (hleft : c.left = true) (hunder : s'.UnderWay i) :
    s.UnderWay i := by
  rcases step_cases hs h with rfl | ⟨-, routine, targets, hspawns⟩ |
    ⟨k, outcome, t, c', r, -, hresumes, rfl⟩ | ⟨k, t, -, ht, hawait, rfl⟩ | ⟨k, cell, -, hcell, rfl⟩
  · exact hunder
  · rcases hunder with ⟨k, t, ht, hti, hawait⟩ | hstray
    · exact .inl ⟨k, t, hspawns.old_task ht (by rw [hawait]; simp), hti, hawait⟩
    · exact .inr (hspawns.strays ▸ hstray)
  · rcases hunder with ⟨j, t', ht', hti, hawait⟩ | hstray
    · rcases hresumes.task_cases.mp ht' with ⟨rfl, rfl⟩ | ⟨-, hold⟩
      · -- a request starts only for a cell that initialises or awaits weights
        obtain rfl : c = r.cell := hresumes.own_cell (show _ = _ from hti ▸ hc)
        have hrun : r.await.Running := running_of_started (.inr ⟨false, hawait⟩)
        obtain ⟨heq, hcases⟩ := resume_await hresumes.resume hrun
        rw [heq] at hleft
        rcases hcases with ⟨hpreparing, -⟩ | ⟨-, htick, hpreparing, -⟩ | ⟨-, -, hstate⟩ | hunregister
        · cases hawait.symm.trans hpreparing
        · have hstate := hs.ticked _ t c' hresumes.task hresumes.cell htick (.inl hpreparing)
          simp [ServerCell.left, hstate] at hleft
        · simp [ServerCell.left, hstate] at hleft
        · cases hawait.symm.trans hunregister
      · exact .inl ⟨j, t', hold, hti, hawait⟩
    · change i ∈ (if r.stray then s.strays ++ [t.cell] else s.strays) at hstray
      split at hstray
      · rename_i hr
        rcases List.mem_append.mp hstray with hold | hnew
        · exact .inr hold
        · obtain rfl := List.mem_singleton.mp hnew
          exact .inl ⟨k, t, hresumes.task, rfl, (resume_stray hresumes.resume hr).1⟩
      · exact .inr hstray
  · rcases hunder with ⟨j, t', ht', hti, hawait'⟩ | hstray
    · rcases (applied_task_cases ht).mp ht' with ⟨rfl, rfl⟩ | ⟨-, hold⟩
      · cases hawait'
      · exact .inl ⟨j, t', hold, hti, hawait'⟩
    · exact .inr hstray
  · rcases hunder with htask | hstray
    · exact .inl htask
    · exact .inr (List.mem_of_mem_eraseIdx hstray)

/-- The router lists a cell once more only when a register request of it is under way. -/
theorem router_step (hs : Inv cfg s) (h : step cfg s e = some s') (i : Nat) :
    s'.router.count i ≤ s.router.count i ∨ s.UnderWay i := by
  rcases step_cases hs h with rfl | ⟨-, routine, targets, hspawns⟩ |
    ⟨k, outcome, t, c', r, -, hresumes, rfl⟩ | ⟨k, t, -, ht, hawait, rfl⟩ | ⟨k, cell, -, hcell, rfl⟩
  · exact .inl (Nat.le_refl _)
  · exact .inl (hspawns.router ▸ Nat.le_refl _)
  · left
    unfold resumed
    split
    · exact List.filter_sublist.count_le i
    · exact Nat.le_refl _
  · by_cases hi : t.cell = i
    · exact .inr (.inl ⟨k, t, ht, hi, hawait⟩)
    · left
      simp [applied, List.count_append, hi]
  · by_cases hi : cell = i
    · exact .inr (.inr (hi ▸ List.mem_of_getElem? hcell))
    · left
      simp [List.count_append, hi]

/-- What a step does to a cell object: another one, or a transition of its coroutine. -/
theorem cell_step (hs : Inv cfg s) (h : step cfg s e = some s') {i : Nat} {c' : ServerCell}
    (hc' : s'.cells[i]? = some c') :
    s.cells[i]? = some c' ∨ (s.cells[i]? = none ∧ c'.state = .uninitialized ∧ c'.unregisterError = false) ∨
      ∃ k outcome t c r, e = .runTask k outcome ∧ Resumes cfg s k t c outcome r ∧
        s' = s.resumed k t r ∧ t.cell = i ∧ c' = r.cell := by
  rcases step_cases hs h with rfl | ⟨-, routine, targets, hspawns⟩ |
    ⟨k, outcome, t, c, r, rfl, hresumes, rfl⟩ | ⟨k, t, -, ht, hawait, rfl⟩ | ⟨k, cell, -, hcell, rfl⟩
  · exact .inl hc'
  · rcases hspawns.cell_cases hc' with hold | ⟨rfl, hnew⟩
    · exact .inl hold
    · exact .inr (.inl ⟨List.getElem?_eq_none (Nat.le_refl _), hnew⟩)
  · rcases hresumes.cell_cases.mp hc' with ⟨rfl, rfl⟩ | ⟨-, hold⟩
    · exact .inr (.inr ⟨k, outcome, t, c, r, rfl, hresumes, rfl, rfl, rfl⟩)
    · exact .inl hold
  · exact .inl hc'
  · exact .inl hc'

end Steps

end World

end Miles.Rollout.Serving
