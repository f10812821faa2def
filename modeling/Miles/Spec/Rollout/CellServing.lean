import Miles.Spec.Rollout.CellRuns

/-!
# Serving cells

A cell that serves has weights: it either needs no update, or an update that started with this
incarnation ended without naming the cell failed, and only `end_update_weights` of that update
promoted it.

A cell that was errored or disposed starts no register request, but one that was sent before may
still take effect.  `end_update_weights` gathers `mark_weights_ready` of its cells without
`return_exceptions`: when one of them fails the lock is released, the other requests stay under
way, and the removal of such a cell does not unregister it, because it is not serving yet.
-/

namespace Miles.Rollout.Serving

namespace World

variable {cfg : Config} {s s' : World} {e : Event}

/-! ## Updates of a schedule -/

/-- The controller has this incarnation of the cell, ready for weights. -/
def Present (s : World) (c : ServerCell) : Prop :=
  ∃ i d, i ∈ s.allServerCells ∧ s.cells[i]? = some d ∧ d.cellId = c.cellId ∧
    d.info.workersHash = c.info.workersHash ∧ (d.state = .pendingWeights ∨ d.state = .serving)

/-- Update `u` of the schedule started when the controller had this incarnation of the cell, and
    ended without naming the cell failed. -/
def UpdatedBy (cfg : Config) (es : List Event) (u : Nat) (c : ServerCell) : Prop :=
  ∃ before modelId evalPool during failed after m,
    es = before ++ .startUpdateWeights modelId evalPool ::
      (during ++ .endUpdateWeights u failed :: after) ∧
    Lts.run (step cfg) {} before = some m ∧ m.updates.length = u ∧ m.Present c ∧
    c.cellId ∉ failed

theorem updates_addCell (cellId : String) (info : CellInfo) :
    (addCell cfg s cellId info).updates = s.updates ∧
      (addCell cfg s cellId info).ends = s.ends := by
  unfold addCell
  split <;> exact ⟨rfl, rfl⟩

theorem updates_reconcile (cellId : String) (observed : Option CellInfo) :
    (reconcile cfg s cellId observed).updates = s.updates ∧
      (reconcile cfg s cellId observed).ends = s.ends := by
  unfold reconcile
  split
  · exact updates_addCell ..
  · exact ⟨rfl, rfl⟩
  · split <;> exact ⟨rfl, rfl⟩
  · exact ⟨rfl, rfl⟩

theorem updates_proceed (h : s.proceed cfg = some s') :
    s'.updates = s.updates ∧ s'.ends = s.ends := by
  unfold proceed at h
  split at h
  case h_4 =>
    split at h
    · rename_i replacement _ _
      cases replacement with
      | none =>
        cases h
        exact ⟨rfl, rfl⟩
      | some entry =>
        cases h
        exact updates_addCell ..
    · cases h
  all_goals grind [spawn]

/-- The server of an update is the one its caller named, if it named one. -/
theorem name_of_getUpdatableServer {name : Option String} {evalPool : Bool} {n : String}
    (h : getUpdatableServer cfg name evalPool = .ok (some n)) : name.all (fun m => n = m) := by
  cases name with
  | none => rfl
  | some m =>
    unfold getUpdatableServer at h
    simp only at h
    split at h
    · cases h
    · split at h
      · simp only [Except.ok.injEq, Option.some.injEq] at h
        simp [h]
      · cases h

/-- What the snapshot of an update lists is in the controller, ready for weights. -/
theorem present_of_mem_snapshot {name : Option String} {evalPool : Bool} {server : Option String}
    (hpending : (s.cellsWhere fun c => name.all (fun n => c.info.modelId = n) ∧
      c.state ≠ .errored).filter (fun i => (s.cells[i]?).any fun c =>
        c.state ≠ .pendingWeights ∧ c.state ≠ .serving) = [])
    (hserver : getUpdatableServer cfg name evalPool = .ok server) {c : ServerCell}
    (hmem : (c.cellId, c.info.workersHash) ∈ s.snapshot server) : s.Present c := by
  cases server with
  | none => cases hmem
  | some n =>
    obtain ⟨i, hi, hentry⟩ := List.mem_filterMap.mp hmem
    obtain ⟨hall, d, hd, hkeep⟩ := mem_cellsWhere hi
    rw [decide_eq_true_iff] at hkeep
    rw [hd, Option.map_some, Option.some.injEq, Prod.mk.injEq] at hentry
    refine ⟨i, d, hall, hd, hentry.1, hentry.2, ?_⟩
    -- no cell of the server is short of weights
    by_contra hstate
    have hname : name.all (fun m => d.info.modelId = m) := by
      rw [hkeep.1]
      exact name_of_getUpdatableServer hserver
    have hcell : i ∈ s.cellsWhere fun c => name.all (fun n => c.info.modelId = n) ∧
        c.state ≠ .errored := by
      unfold cellsWhere
      rw [List.mem_filter, hd, Option.any_some, decide_eq_true_iff]
      exact ⟨hall, hname, hkeep.2⟩
    have hshort := List.filter_eq_nil_iff.mp hpending i hcell
    rw [hd, Option.any_some, decide_eq_true_iff] at hshort
    exact hshort (not_or.mp hstate)

theorem updates_startUpdateWeights (modelId : Option String) (evalPool : Bool) :
    (startUpdateWeights cfg s modelId evalPool).ends = s.ends ∧
      ((startUpdateWeights cfg s modelId evalPool).updates = s.updates ∨
        ∃ snapshot, (startUpdateWeights cfg s modelId evalPool).updates = s.updates ++ [snapshot] ∧
          ∀ c : ServerCell, (c.cellId, c.info.workersHash) ∈ snapshot → s.Present c) := by
  unfold startUpdateWeights
  generalize (if evalPool then some "eval" else modelId) = name
  extract_lets
  split
  · exact ⟨rfl, .inl rfl⟩
  · split
    · exact ⟨rfl, .inl rfl⟩
    · rename_i hpending
      split
      · exact ⟨rfl, .inl rfl⟩
      · rename_i server hserver
        refine ⟨rfl, .inr ⟨_, rfl, fun c hmem => ?_⟩⟩
        exact present_of_mem_snapshot (not_not.mp hpending) hserver hmem

/-- Updates start in `start_update_weights` only. -/
theorem updates_step (h : step cfg s e = some s') :
    s'.updates = s.updates ∨ ∃ modelId evalPool snapshot,
      e = .startUpdateWeights modelId evalPool ∧ s'.updates = s.updates ++ [snapshot] ∧
        ∀ c : ServerCell, (c.cellId, c.info.workersHash) ∈ snapshot → s.Present c := by
  cases e with
  | startUpdateWeights modelId evalPool =>
    simp only [step, Option.ite_none_right_eq_some, Option.some.injEq] at h
    obtain ⟨-, rfl⟩ := h
    rcases (updates_startUpdateWeights modelId evalPool).2 with hsame | ⟨snapshot, hnew, hpresent⟩
    · exact .inl hsame
    · exact .inr ⟨modelId, evalPool, snapshot, rfl, hnew, hpresent⟩
  | observe cellId observed =>
    simp only [step, Option.ite_none_right_eq_some, Option.some.injEq] at h
    obtain ⟨-, rfl⟩ := h
    exact .inl (updates_reconcile cellId observed).1
  | proceed => exact .inl (updates_proceed h).1
  | runTask k outcome =>
    obtain ⟨t, c, r, -, -, -, rfl⟩ := runTask_eq_some h
    exact .inl rfl
  | _ =>
    left
    simp only [step] at h
    grind [spawn, endUpdateWeights]

/-- Updates end in `end_update_weights` only. -/
theorem ends_step (h : step cfg s e = some s') {u : Nat} {failed : List String}
    (hend : (u, failed) ∈ s'.ends) :
    (u, failed) ∈ s.ends ∨ e = .endUpdateWeights u failed ∧ u < s.updates.length := by
  cases e with
  | startUpdateWeights modelId evalPool =>
    simp only [step, Option.ite_none_right_eq_some, Option.some.injEq] at h
    obtain ⟨-, rfl⟩ := h
    rw [(updates_startUpdateWeights modelId evalPool).1] at hend
    exact .inl hend
  | observe cellId observed =>
    simp only [step, Option.ite_none_right_eq_some, Option.some.injEq] at h
    obtain ⟨-, rfl⟩ := h
    rw [(updates_reconcile cellId observed).2] at hend
    exact .inl hend
  | proceed =>
    rw [(updates_proceed h).2] at hend
    exact .inl hend
  | runTask k outcome =>
    obtain ⟨t, c, r, -, -, -, rfl⟩ := runTask_eq_some h
    exact .inl hend
  | endUpdateWeights update failedCellIds =>
    simp only [step] at h
    split at h
    · rename_i snapshot hlock hupdate
      cases h
      rcases List.mem_append.mp hend with hold | hnew
      · exact .inl hold
      · cases List.mem_singleton.mp hnew
        exact .inr ⟨rfl, (List.getElem?_eq_some_iff.mp hupdate).1⟩
    · cases h
  | _ =>
    left
    simp only [step] at h
    grind [spawn]

/-- Every update of a run started in it. -/
theorem started_run {es : List Event} (h : Lts.run (step cfg) {} es = some s) {u : Nat}
    {snapshot : List (String × String)} (hu : s.updates[u]? = some snapshot) :
    ∃ before modelId evalPool after m,
      es = before ++ .startUpdateWeights modelId evalPool :: after ∧
      Lts.run (step cfg) {} before = some m ∧ m.updates.length = u ∧
      ∀ c : ServerCell, (c.cellId, c.info.workersHash) ∈ snapshot → m.Present c := by
  induction es using List.reverseRecOn generalizing s with
  | nil =>
    cases h
    cases hu
  | append_singleton es e ih =>
    obtain ⟨m, hm, hstep⟩ := Lts.run_concat.mp h
    have hold : m.updates[u]? = some snapshot → ∃ before modelId evalPool after m,
        es ++ [e] = before ++ .startUpdateWeights modelId evalPool :: after ∧
        Lts.run (step cfg) {} before = some m ∧ m.updates.length = u ∧
        ∀ c : ServerCell, (c.cellId, c.info.workersHash) ∈ snapshot → m.Present c := by
      intro hmu
      obtain ⟨before, modelId, evalPool, after, m', rfl, hrest⟩ := ih hm hmu
      exact ⟨before, modelId, evalPool, after ++ [e], m', by simp, hrest⟩
    rcases updates_step hstep with hsame | ⟨modelId, evalPool, new, rfl, hnew, hpresent⟩
    · exact hold (hsame ▸ hu)
    · rw [hnew, List.getElem?_append] at hu
      split at hu
      · exact hold hu
      · rename_i hge
        obtain ⟨hlt, hget⟩ := List.getElem?_eq_some_iff.mp hu
        rw [List.length_singleton] at hlt
        obtain rfl : m.updates.length = u := by omega
        obtain rfl : new = snapshot := by simpa using hget
        exact ⟨es, modelId, evalPool, [], m, rfl, hm, rfl, hpresent⟩

/-- Every ended update of a run started and ended in it. -/
theorem ended_run {es : List Event} (h : Lts.run (step cfg) {} es = some s) {u : Nat}
    {failed : List String} (hend : (u, failed) ∈ s.ends) :
    ∃ before after m, es = before ++ .endUpdateWeights u failed :: after ∧
      Lts.run (step cfg) {} before = some m ∧ u < m.updates.length := by
  induction es using List.reverseRecOn generalizing s with
  | nil =>
    cases h
    cases hend
  | append_singleton es e ih =>
    obtain ⟨m, hm, hstep⟩ := Lts.run_concat.mp h
    rcases ends_step hstep hend with hold | ⟨rfl, hlt⟩
    · obtain ⟨before, after, m', rfl, hrest⟩ := ih hm hold
      exact ⟨before, after ++ [e], m', by simp, hrest⟩
    · exact ⟨es, [], m, rfl, hm, hlt⟩

/-- Updates are never forgotten. -/
theorem updates_run {m : World} {es : List Event} (h : Lts.run (step cfg) m es = some s) :
    m.updates <+: s.updates := by
  refine Lts.run_invariant (I := fun w => m.updates <+: w.updates) ?_ List.prefix_rfl h
  intro w e w' hw hstep
  rcases updates_step hstep with hsame | ⟨_, _, snapshot, -, hnew, -⟩
  · exact hsame ▸ hw
  · exact hnew ▸ hw.trans (List.prefix_append ..)

/-- The update behind a promotion, found in the schedule. -/
theorem updatedBy_of_ready {es : List Event} (h : Lts.run (step cfg) {} es = some s) {u : Nat}
    {c : ServerCell} (hready : s.Ready u c) : UpdatedBy cfg es u c := by
  obtain ⟨snapshot, failed, hu, hend, hmem, hnot⟩ := hready
  obtain ⟨before, after, m, rfl, hm, hlt⟩ := ended_run h hend
  obtain ⟨m', hm', hrest⟩ := Lts.run_append_some.mp h
  obtain rfl : m = m' := Option.some.inj (hm.symm.trans hm')
  have hmu : m.updates[u]? = some snapshot := by
    obtain ⟨rest, happend⟩ := updates_run hrest
    rw [← happend, List.getElem?_append_left hlt] at hu
    exact hu
  obtain ⟨start, modelId, evalPool, during, m₀, rfl, hm₀, hlen, hpresent⟩ := started_run hm hmu
  exact ⟨start, modelId, evalPool, during, failed, after, m₀, by simp, hm₀, hlen,
    hpresent c hmem, hnot⟩

/-! ## Register requests of left cells -/

/-- No register request is under way for a cell that is errored or disposed. -/
def Settled (s : World) : Prop :=
  ∀ (i : Nat) (c : ServerCell), s.cells[i]? = some c → c.left = true → ¬ s.UnderWay i

/-- A step that marks a cell errored or disposed finds no register request of it under way. -/
def LeavesSettled (s : World) (e : Event) : Prop :=
  ∀ k outcome t c, e = .runTask k outcome → s.tasks[k]? = some t → s.cells[t.cell]? = some c →
    leaves c t.routine t.await outcome = true → ¬ s.UnderWay t.cell

/-- No request is under way for a left cell, unless it was when the cell was left. -/
theorem settled_step (hs : Inv cfg s) (hsettled : s.Settled) (hleaves : s.LeavesSettled e)
    (h : step cfg s e = some s') : s'.Settled := by
  intro i c' hc' hleft hunder'
  have hunder := underWay_step hs h hc' hleft hunder'
  rcases cell_step hs h hc' with hold | ⟨-, hnew, -⟩ | ⟨k, outcome, t, c, r, he, hresumes, -, rfl, rfl⟩
  · exact hsettled i c' hold hleft hunder
  · simp [ServerCell.left, hnew] at hleft
  · rw [resume_left hresumes.resume, Bool.or_eq_true] at hleft
    rcases hleft with hold | hnow
    · exact hsettled t.cell c hresumes.cell hold hunder
    · exact hleaves k outcome t c he hresumes.task hresumes.cell hnow hunder

/-- A request that is under way can take effect next. -/
theorem underWay_applies (cfg : Config) {i : Nat} (h : s.UnderWay i) :
    ∃ e' s'', step cfg s e' = some s'' ∧ s''.cells = s.cells ∧
      s''.router.count i = s.router.count i + 1 := by
  rcases h with ⟨k, t, ht, rfl, hawait⟩ | hstray
  · refine ⟨.routerApplies k, s.applied k t, ?_, rfl, by simp [applied]⟩
    obtain ⟨cell, routine, await⟩ := t
    obtain rfl : await = .registering false := hawait
    simp [step, ht, applied]
  · obtain ⟨k, hk⟩ := List.getElem?_of_mem hstray
    exact ⟨.routerAppliesStray k, { s with strays := s.strays.eraseIdx k, router := s.router ++ [i] },
      by simp [step, hk], rfl, by simp⟩

/-- A request under way stays under way while another coroutine leaves. -/
theorem underWay_of_leaves {k : Nat} {t : Task} {c : ServerCell} {outcome : Outcome} {r : Resumed}
    (h : Resumes cfg s k t c outcome r) (hleaves : leaves c t.routine t.await outcome = true)
    {i : Nat} (hunder : s.UnderWay i) : (s.resumed k t r).UnderWay i := by
  rcases hunder with ⟨j, t', ht', hi, hawait⟩ | hstray
  · have hne : j ≠ k := by
      rintro rfl
      obtain rfl : t = t' := Option.some.inj (h.task.symm.trans ht')
      rw [hawait] at hleaves
      cases hroutine : t.routine <;> cases outcome <;> simp [hroutine, leaves] at hleaves
    exact .inl ⟨j, t', h.task_cases.mpr (.inr ⟨hne, ht'⟩), hi, hawait⟩
  · right
    show i ∈ (if r.stray then s.strays ++ [t.cell] else s.strays)
    split
    · exact List.mem_append_left _ hstray
    · exact hstray

/-- A step outside of the condition lets the router list a left cell next. -/
theorem relisted_of_not_leavesSettled (h : step cfg s e = some s') (hnot : ¬ s.LeavesSettled e) :
    ∃ e' s'' i c, s'.cells[i]? = some c ∧ c.left = true ∧ step cfg s' e' = some s'' ∧
      s''.router.count i = s'.router.count i + 1 := by
  unfold LeavesSettled at hnot
  push Not at hnot
  obtain ⟨k, outcome, t, c, rfl, ht, hc, hleaves, hunder⟩ := hnot
  obtain ⟨t', c', r, ht', hc', hr, rfl⟩ := runTask_eq_some h
  obtain rfl : t = t' := Option.some.inj (ht.symm.trans ht')
  obtain rfl : c = c' := Option.some.inj (hc.symm.trans hc')
  have hresumes : Resumes cfg s k t c outcome r := ⟨ht, hc, hr⟩
  obtain ⟨e', s'', hstep, -, hcount⟩ :=
    underWay_applies cfg (underWay_of_leaves hresumes hleaves hunder)
  refine ⟨e', s'', t.cell, r.cell, hresumes.cell_cases.mpr (.inl ⟨rfl, rfl⟩), ?_, hstep, hcount⟩
  rw [resume_left hr, hleaves, Bool.or_true]

/-! ## The law -/

/-- A cell becomes serving in its own tick, when it needs no update, or in `mark_weights_ready`
    of an update that started with this incarnation. -/
theorem promoted_step (hs : Inv cfg s) (h : step cfg s e = some s') {i : Nat} {c c' : ServerCell}
    (hc : s.cells[i]? = some c) (hc' : s'.cells[i]? = some c') (hnot : c.state ≠ .serving)
    (hserving : c'.state = .serving) :
    ∃ k t, e = .runTask k .returned ∧ s.tasks[k]? = some t ∧ t.cell = i ∧
      ((t.routine = .tick ∧ serveWithoutWeightUpdate cfg c = true) ∨
        ∃ u, t.routine = .markWeightsReady u ∧ s.Ready u c) := by
  rcases cell_step hs h hc' with hold | ⟨hnone, -⟩ | ⟨k, outcome, t, d, r, rfl, hr, -, rfl, rfl⟩
  · obtain rfl : c = c' := Option.some.inj (hc.symm.trans hold)
    exact absurd hserving hnot
  · cases hc.symm.trans hnone
  · obtain rfl : c = d := Option.some.inj (hc.symm.trans hr.cell)
    rcases resume_serving hr.resume hserving with hstill | ⟨hawait, hroutine⟩
    · exact absurd hstill hnot
    · have hreturned : outcome = .returned := by
        have hresume := hr.resume
        rw [hawait] at hresume
        cases outcome with
        | returned => rfl
        | raised =>
          cases hresume
          exact absurd hserving hnot
        | _ => cases hresume
      subst hreturned
      refine ⟨k, t, rfl, hr.task, rfl, hroutine.imp ?_ ?_⟩
      · exact fun htick => ⟨htick, hs.tickRegisters k t c true hr.task hr.cell htick hawait⟩
      · exact fun ⟨u, hu⟩ => ⟨u, hu, hs.ready k t c u hr.task hr.cell hu⟩

/-- In every run a serving cell has weights, and `end_update_weights` promotes only incarnations
    that its update started with.  The router lists an errored or disposed cell once more in no
    run whose steps leave no cell while a register request of it is under way; after a step that
    does, it can. -/
theorem serving_safety (cfg : Config) (es : List Event) (s : World)
    (h : Lts.run (step cfg) {} es = some s) :
    (∀ (i : Nat) (c : ServerCell), s.cells[i]? = some c → c.state = .serving →
      serveWithoutWeightUpdate cfg c = true ∨ ∃ u, UpdatedBy cfg es u c) ∧
    (∀ e s', step cfg s e = some s' → ∀ (i : Nat) (c c' : ServerCell), s.cells[i]? = some c →
      s'.cells[i]? = some c' → c.state ≠ .serving → c'.state = .serving →
      ∃ k t, e = .runTask k .returned ∧ s.tasks[k]? = some t ∧ t.cell = i ∧
        ((t.routine = .tick ∧ serveWithoutWeightUpdate cfg c = true) ∨
          ∃ u, t.routine = .markWeightsReady u ∧ UpdatedBy cfg es u c)) ∧
    (Lts.StepsWhere (step cfg) LeavesSettled {} es → ∀ e s', step cfg s e = some s' →
      ∀ (i : Nat) (c : ServerCell), s.cells[i]? = some c → c.left = true →
        s'.router.count i ≤ s.router.count i) ∧
    (∀ e s', step cfg s e = some s' → ¬ s.LeavesSettled e →
      ∃ e' s'' i c, s'.cells[i]? = some c ∧ c.left = true ∧ step cfg s' e' = some s'' ∧
        s''.router.count i = s'.router.count i + 1) := by
  have hs := inv_run h
  refine ⟨?_, ?_, ?_, fun e s' hstep => relisted_of_not_leavesSettled hstep⟩
  · intro i c hc hserving
    exact (hs.serving i c hc hserving).imp id fun ⟨u, hu⟩ => ⟨u, updatedBy_of_ready h hu⟩
  · intro e s' hstep i c c' hc hc' hnot hserving
    obtain ⟨k, t, he, ht, hi, hroutine⟩ := promoted_step hs hstep hc hc' hnot hserving
    refine ⟨k, t, he, ht, hi, hroutine.imp id ?_⟩
    exact fun ⟨u, hu, hready⟩ => ⟨u, hu, updatedBy_of_ready h hready⟩
  · intro hsteps e s' hstep i c hc hleft
    have hboth : Inv cfg s ∧ s.Settled := by
      refine Lts.run_invariant_where (I := fun w => Inv cfg w ∧ w.Settled) ?_ ?_ hsteps h
      · rintro w e w' ⟨hw, hsettled⟩ hcond hwstep
        exact ⟨inv_step hw hwstep, settled_step hw hsettled hcond hwstep⟩
      · exact ⟨inv_initial cfg, fun i c hc => by cases hc⟩
    rcases router_step hs hstep i with hle | hunder
    · exact hle
    · exact absurd hunder (hboth.2 i c hc hleft)

/-- Two cells of one server. -/
def twoCells : List Event :=
  let engine := some (⟨"m", "h", true, false⟩ : CellInfo)
  [.observe "A" engine, .runTask 0 .returned, .runTask 0 .returned, .proceed,
    .observe "B" engine, .runTask 1 .returned, .runTask 1 .returned, .proceed,
    .tickCells, .runTask 2 .returned, .runTask 2 .returned, .runTask 3 .returned,
    .runTask 3 .returned, .proceed]

/-- Their weight update, up to the register requests. -/
def updateBoth : List Event :=
  twoCells ++ [.startUpdateWeights (some "m") false, .endUpdateWeights 0 [], .proceed,
    .runTask 4 .returned, .runTask 5 .returned]

/-- One server that takes updates. -/
def oneServer : Config := { debugRolloutOnly := false, colocate := false, servers := [("m", true)] }

/-- A run in which the first cell is promoted. -/
def promoteFirst : List Event := updateBoth ++ [.routerApplies 4, .runTask 4 .returned]

theorem serving_safety_promoteFirst :
    ∃ s c, Lts.run (step oneServer) {} promoteFirst = some s ∧ s.cells[0]? = some c ∧
      c.state = .serving ∧ ∃ u, UpdatedBy oneServer promoteFirst u c := by
  refine ⟨_, ⟨"A", ⟨"m", "h", true, false⟩, .serving, false⟩, rfl, rfl, rfl, ?_⟩
  have hlaw := serving_safety oneServer promoteFirst _ rfl
  exact (hlaw.1 0 _ rfl rfl).resolve_left (by decide)

/-- `mark_weights_ready` of the first cell fails, which releases the lock, and the second cell is
    removed before its request takes effect. -/
theorem removedWhileRegistering_relisted :
    ∃ s s' c, Lts.run (step oneServer) {} (updateBoth ++
        [.runTask 4 .raised, .proceed, .observe "B" none, .runTask 6 .returned, .proceed]) = some s ∧
      s.cells[1]? = some c ∧ c.state = .disposed ∧ 1 ∉ s.router ∧
      step oneServer s (.routerApplies 5) = some s' ∧ s'.cells[1]? = some c ∧ 1 ∈ s'.router := by
  refine ⟨_, _, _, rfl, rfl, rfl, ?_, rfl, rfl, ?_⟩ <;> decide

end World

end Miles.Rollout.Serving
