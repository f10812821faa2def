import Miles.Spec.Rollout.CellServing

/-!
# Ghost registrations

`mark_errored` and `dispose` unregister a cell only when its state is serving, and the state
becomes serving after the register request returned.  A request that took effect while its caller
failed, or that takes effect late, leaves the router with a cell that has left.
-/

namespace Miles.Rollout.Serving

variable {cfg : Config} {routine : Routine} {c : ServerCell} {await : Await} {outcome : Outcome}
  {r : Resumed}

/-- Only a `dispose` whose unregister calls all failed records an unregister error. -/
theorem resume_error (h : resume cfg routine c await outcome = some r)
    (herror : r.cell.unregisterError = true) :
    c.unregisterError = true ∨ (r.cell.left = true ∧ ∃ effect, outcome = .gaveUp effect) := by
  unfold resume at h
  split at h
  · cases routine <;> simp only [start] at h <;> split at h <;> grind [becomeErrored]
  · cases routine <;> grind [changeState]
  all_goals grind [changeState, becomeErrored, ServerCell.left]

/-- A cell that is left although its unregister calls failed is disposed with that error. -/
theorem resume_gaveUp (h : resume cfg routine c await outcome = some r)
    (hleaves : leaves c routine await outcome = true) {effect : Bool}
    (hgaveUp : outcome = .gaveUp effect) : r.cell.unregisterError = true := by
  subst hgaveUp
  cases await <;> cases routine <;> simp [leaves] at hleaves
  cases h
  rfl

/-- A coroutine that ends at once makes no unregister call. -/
theorem resume_queued (h : resume cfg routine c await outcome = some r) (hqueued : await = .queued) :
    r.delist = false := by
  subst hqueued
  cases outcome <;> cases h
  rfl

theorem not_left_of_leaves (h : leaves c routine await outcome = true) : c.left ≠ true := by
  unfold leaves at h
  split at h <;> grind [ServerCell.left]

namespace World

variable {s s' : World} {e : Event}

/-- The router lists no cell that `mark_errored` or `dispose` left without an unregister error. -/
def NoGhost (s : World) : Prop :=
  ∀ (i : Nat) (c : ServerCell), s.cells[i]? = some c → c.left = true →
    c.unregisterError = false → i ∉ s.router

/-- A step that marks a cell errored or disposed without an unregister error finds no register
    request of it under way and, if it does not unregister the cell, the router without it. -/
def LeavesUnlisted (s : World) (e : Event) : Prop :=
  ∀ k outcome t c, e = .runTask k outcome → s.tasks[k]? = some t → s.cells[t.cell]? = some c →
    leaves c t.routine t.await outcome = true → (∀ effect, outcome ≠ .gaveUp effect) →
    ¬ s.UnderWay t.cell ∧ (t.await = .queued → t.cell ∉ s.router)

instance (s : World) (e : Event) : Decidable (s.LeavesUnlisted e) :=
  match e with
  | .runTask k outcome =>
    decidable_of_iff (∀ t ∈ s.tasks[k]?, ∀ c ∈ s.cells[t.cell]?,
      leaves c t.routine t.await outcome = true → (∀ effect : Bool, outcome ≠ .gaveUp effect) →
        ¬ s.UnderWay t.cell ∧ (t.await = .queued → t.cell ∉ s.router)) <| by
      simp only [LeavesUnlisted, Option.mem_def]
      grind
  | .observe .. | .tickCells | .startUpdateWeights .. | .abortUpdateWeights | .endUpdateWeights ..
  | .proceed | .routerApplies _ | .routerAppliesStray _ =>
    .isTrue fun _ _ _ _ he => by cases he

/-- What runs keep under the condition: such a cell is not listed and cannot become so. -/
def Clear (s : World) : Prop :=
  ∀ (i : Nat) (c : ServerCell), s.cells[i]? = some c → c.left = true →
    c.unregisterError = false → ¬ s.UnderWay i ∧ i ∉ s.router

/-- Only disposed cells have an unregister error. -/
def ErrorsLeft (s : World) : Prop :=
  ∀ (i : Nat) (c : ServerCell), s.cells[i]? = some c → c.unregisterError = true → c.left = true

theorem not_mem_router_step (hs : Inv cfg s) (h : step cfg s e = some s') {i : Nat}
    (hunder : ¬ s.UnderWay i) (hmem : i ∉ s.router) : i ∉ s'.router := by
  have hle := (router_step hs h i).resolve_right hunder
  rw [List.count_eq_zero_of_not_mem hmem] at hle
  exact List.count_eq_zero.mp (by omega)

/-- Leaving unregisters the cell, unless it is not serving. -/
theorem not_mem_router_of_leaves {k : Nat} {t : Task} (h : Resumes cfg s k t c outcome r)
    (hleaves : leaves c t.routine t.await outcome = true) (herror : r.cell.unregisterError = false)
    (hqueued : t.await = .queued → t.cell ∉ s.router) : t.cell ∉ (s.resumed k t r).router := by
  show t.cell ∉ (if r.delist then s.router.filter (· ≠ t.cell) else s.router)
  split
  · simp
  · rename_i hdelist
    rcases resume_delist h.resume hleaves with ⟨hawait, -⟩ | hr | hr
    · exact hqueued hawait
    · exact absurd hr hdelist
    · rw [herror] at hr
      cases hr

/-- A step that leaves only unlisted cells keeps the left ones off the router. -/
theorem clear_step (hs : Inv cfg s) (hclear : s.Clear) (hleaves : s.LeavesUnlisted e)
    (h : step cfg s e = some s') : s'.Clear := by
  intro i c' hc' hleft herror
  have hback : ¬ s.UnderWay i → ¬ s'.UnderWay i := fun hnot hunder =>
    hnot (underWay_step hs h hc' hleft hunder)
  -- a cell that had left before stays off the router
  have hstill : ∀ c : ServerCell, s.cells[i]? = some c → c.left = true →
      c.unregisterError = false → ¬ s'.UnderWay i ∧ i ∉ s'.router := by
    intro c hc hl he
    obtain ⟨hunder, hmem⟩ := hclear i c hc hl he
    exact ⟨hback hunder, not_mem_router_step hs h hunder hmem⟩
  rcases cell_step hs h hc' with hold | ⟨-, hnew, -⟩ |
    ⟨k, outcome, t, c, r, he, hresumes, rfl, rfl, rfl⟩
  · exact hstill c' hold hleft herror
  · simp [ServerCell.left, hnew] at hleft
  · have hclean : c.unregisterError = false := by
      by_contra hne
      rw [Bool.not_eq_false] at hne
      rw [resume_unregisterError hresumes.resume hne] at herror
      cases herror
    rw [resume_left hresumes.resume, Bool.or_eq_true] at hleft
    rcases hleft with hold | hnow
    · exact hstill c hresumes.cell hold hclean
    · have hgaveUp : ∀ effect, outcome ≠ .gaveUp effect := by
        intro effect heq
        rw [resume_gaveUp hresumes.resume hnow heq] at herror
        cases herror
      obtain ⟨hunder, hqueued⟩ :=
        hleaves k outcome t c he hresumes.task hresumes.cell hnow hgaveUp
      exact ⟨hback hunder, not_mem_router_of_leaves hresumes hnow herror hqueued⟩

theorem errorsLeft_step (hs : Inv cfg s) (herrors : s.ErrorsLeft) (h : step cfg s e = some s') :
    s'.ErrorsLeft := by
  intro i c' hc' herror
  rcases cell_step hs h hc' with hold | ⟨-, -, hnew⟩ | ⟨k, outcome, t, c, r, -, hresumes, -, rfl, rfl⟩
  · exact herrors i c' hold herror
  · rw [hnew] at herror
    cases herror
  · rcases resume_error hresumes.resume herror with hold | ⟨hleft, -⟩
    · rw [resume_left hresumes.resume, herrors t.cell c hresumes.cell hold, Bool.true_or]
    · exact hleft

/-- A step outside of the condition ends in a ghost, or a next step does. -/
theorem ghost_of_not_leavesUnlisted (herrors : s.ErrorsLeft) (h : step cfg s e = some s')
    (hnot : ¬ s.LeavesUnlisted e) :
    ¬ s'.NoGhost ∨ ∃ e' s'', step cfg s' e' = some s'' ∧ ¬ s''.NoGhost := by
  unfold LeavesUnlisted at hnot
  push Not at hnot
  obtain ⟨k, outcome, t, c, rfl, ht, hc, hleaves, hgaveUp, hbad⟩ := hnot
  obtain ⟨t', c', r, ht', hc', hr, rfl⟩ := runTask_eq_some h
  obtain rfl : t = t' := Option.some.inj (ht.symm.trans ht')
  obtain rfl : c = c' := Option.some.inj (hc.symm.trans hc')
  have hresumes : Resumes cfg s k t c outcome r := ⟨ht, hc, hr⟩
  have hcell : (s.resumed k t r).cells[t.cell]? = some r.cell :=
    hresumes.cell_cases.mpr (.inl ⟨rfl, rfl⟩)
  have hleft : r.cell.left = true := by rw [resume_left hr, hleaves, Bool.or_true]
  have hclean : r.cell.unregisterError = false := by
    by_contra herror
    rw [Bool.not_eq_false] at herror
    rcases resume_error hr herror with hold | ⟨-, effect, heq⟩
    · exact not_left_of_leaves hleaves (herrors t.cell c hc hold)
    · exact hgaveUp effect heq
  by_cases hunder : s.UnderWay t.cell
  · -- the request takes effect next
    obtain ⟨e', s'', hstep, hcells, hcount⟩ :=
      underWay_applies cfg (underWay_of_leaves hresumes hleaves hunder)
    refine .inr ⟨e', s'', hstep, fun hno => ?_⟩
    refine hno t.cell r.cell (by rw [hcells]; exact hcell) hleft hclean ?_
    exact List.count_pos_iff.mp (by omega)
  · -- the router lists the cell, and the step does not unregister it
    obtain ⟨hqueued, hmem⟩ := hbad hunder
    refine .inl fun hno => hno t.cell r.cell hcell hleft hclean ?_
    show t.cell ∈ (if r.delist then s.router.filter (· ≠ t.cell) else s.router)
    rw [resume_queued hr hqueued]
    exact hmem

/-- In every run whose steps leave no cell while a register request of it is under way or listed
    without the cell serving, the router lists no cell that left without an unregister error.
    A step outside of the condition ends in such a ghost, or a next step does. -/
theorem noGhost_run (cfg : Config) (es : List Event) (s : World)
    (h : Lts.run (step cfg) {} es = some s) :
    (Lts.StepsWhere (step cfg) LeavesUnlisted {} es → s.NoGhost) ∧
    (∀ e s', step cfg s e = some s' → ¬ s.LeavesUnlisted e →
      ¬ s'.NoGhost ∨ ∃ e' s'', step cfg s' e' = some s'' ∧ ¬ s''.NoGhost) := by
  constructor
  · intro hsteps i c hc hleft herror
    have hboth : Inv cfg s ∧ s.Clear := by
      refine Lts.run_invariant_where (I := fun w => Inv cfg w ∧ w.Clear) ?_ ?_ hsteps h
      · rintro w e w' ⟨hw, hclear⟩ hcond hwstep
        exact ⟨inv_step hw hwstep, clear_step hw hclear hcond hwstep⟩
      · exact ⟨inv_initial cfg, fun i c hc => by cases hc⟩
    exact (hboth.2 i c hc hleft herror).2
  · have hboth : Inv cfg s ∧ s.ErrorsLeft := by
      refine Lts.run_invariant (I := fun w => Inv cfg w ∧ w.ErrorsLeft) ?_ ?_ h
      · rintro w e w' ⟨hw, herrors⟩ hwstep
        exact ⟨inv_step hw hwstep, errorsLeft_step hw herrors hwstep⟩
      · exact ⟨inv_initial cfg, fun i c hc => by cases hc⟩
    exact fun e s' hstep => ghost_of_not_leavesUnlisted hboth.2 hstep

/-- The promoted cell of an update is removed and unregistered. -/
def removeFirst : List Event :=
  promoteFirst ++ [.routerApplies 5, .runTask 5 .returned, .proceed, .observe "A" none,
    .runTask 6 .returned, .runTask 6 .returned]

theorem noGhost_run_removeFirst :
    ∃ s c, Lts.run (step oneServer) {} removeFirst = some s ∧ s.cells[0]? = some c ∧
      c.left = true ∧ 0 ∉ s.router := by
  refine ⟨_, ⟨"A", ⟨"m", "h", true, false⟩, .disposed, false⟩, rfl, rfl, rfl, ?_⟩
  refine (noGhost_run oneServer removeFirst _ rfl).1 ?_ 0 _ rfl rfl rfl
  decide

/-- The register request of the first cell takes effect and its caller fails; the removal of the
    cell completes without an unregister call. -/
theorem registeredButFailed_ghost :
    ∃ s c, Lts.run (step oneServer) {} (updateBoth ++ [.routerApplies 4, .runTask 4 .raised,
        .proceed, .observe "A" none, .runTask 6 .returned, .proceed]) = some s ∧
      s.cells[0]? = some c ∧ c.state = .disposed ∧ c.unregisterError = false ∧ 0 ∈ s.router := by
  refine ⟨_, _, rfl, rfl, rfl, rfl, ?_⟩
  decide

end World

end Miles.Rollout.Serving
