import Miles.ForStd.List
import Miles.Native.Rollout.SyncRollout

/-!
# Every group of a rollout step is accounted for

The groups drawn from the data source are pending, being collected, in the batch, dropped,
logged as failed or among the aborted samples, each in one place.  The main loop logs a group
whose task raises; `abort`, which waits for the tasks still pending once the batch is complete,
does not: the exception leaves the step with `state.aborted` set, and the next step fails on it.
-/

namespace Miles.Rollout.Sync

open Lts

variable {args : SyncArgs}

/-! ## Where the groups are -/

/-- Groups whose tasks are done and not looked at yet. -/
def SyncPhase.done : SyncPhase → List Nat
  | .collecting done => done.map Prod.fst
  | _ => []

/-- The groups in all places. -/
def SyncState.placed (s : SyncState) : List Nat :=
  s.pendings ++ s.phase.done ++ s.data ++ s.dropped.map Prod.fst ++ s.failed ++ s.abortedSamples

/-- The step ended with an exception. -/
def SyncPhase.isRaised : SyncPhase → Bool
  | .raised _ => true
  | _ => false

/-- No task ends with a `NonRetryableError`. -/
def SyncEvent.Retryable : SyncEvent → Prop
  | .wake done => ∀ x ∈ done, x.2 ≠ .nonRetryable
  | .drain _ result => result ≠ .nonRetryable
  | _ => True

instance : ∀ e : SyncEvent, Decidable e.Retryable
  | .wake done => inferInstanceAs (Decidable (∀ x ∈ done, x.2 ≠ .nonRetryable))
  | .drain _ result => inferInstanceAs (Decidable (result ≠ .nonRetryable))
  | .submit _ | .stopSubmitting | .sampleDone | .collect | .finish => .isTrue trivial

/-- A task fails while `abort` waits for it: it raises, or returns a group that `abort` cannot
    collect. -/
def SyncEvent.DrainFails (args : SyncArgs) : SyncEvent → Prop
  | .drain _ .failed | .drain _ .nonRetryable => True
  | .drain _ (.returned _ nested) => args.partialRollout = true ∧ nested = true
  | _ => False

instance : ∀ e : SyncEvent, Decidable (e.DrainFails args)
  | .drain _ .failed | .drain _ .nonRetryable => .isTrue trivial
  | .drain _ (.returned _ nested) =>
    inferInstanceAs (Decidable (args.partialRollout = true ∧ nested = true))
  | .submit _ | .stopSubmitting | .sampleDone | .wake _ | .collect | .finish => .isFalse id

/-- The invariant of a step that has not failed. -/
structure Going (args : SyncArgs) (s : SyncState) : Prop where
  not_raised : s.phase.isRaised = false
  places : s.placed.Perm (List.range s.drawn)
  length_le : s.data.length ≤ args.rolloutBatchSize
  /-- the flag is set exactly while `abort` waits -/
  aborted_iff : s.aborted = true ↔ s.phase = .draining
  full : s.phase = .draining → s.data.length = args.rolloutBatchSize
  retryable : ∀ done, s.phase = .collecting done → ∀ x ∈ done, x.2 ≠ .nonRetryable
  returned : ∀ batch, s.phase = .returned batch →
    batch.Perm s.data ∧ s.pendings = [] ∧ s.data.length = args.rolloutBatchSize

/-- What a step owes: it does not fail, it leaves the flag cleared, and its batch is complete
    and every group it drew is in one place. -/
structure Accounted (args : SyncArgs) (s : SyncState) : Prop where
  not_raised : ∀ error, s.phase ≠ .raised error
  flag_cleared : ∀ batch, s.phase = .returned batch → s.aborted = false
  batch_complete : ∀ batch, s.phase = .returned batch → batch.length = args.rolloutBatchSize
  in_one_place : ∀ batch, s.phase = .returned batch →
    (batch ++ s.dropped.map Prod.fst ++ s.abortedSamples ++ s.failed).Perm (List.range s.drawn)

variable {s : SyncState}

theorem Going.accounted (h : Going args s) : Accounted args s where
  not_raised error heq := by
    have hgoing := h.not_raised
    rw [heq] at hgoing
    cases hgoing
  flag_cleared batch hbatch := by
    have hflag := h.aborted_iff
    rw [hbatch] at hflag
    simpa using hflag
  batch_complete batch hbatch := by
    obtain ⟨hperm, -, hfull⟩ := h.returned batch hbatch
    rw [hperm.length_eq, hfull]
  in_one_place batch hbatch := by
    obtain ⟨hperm, hpendings, -⟩ := h.returned batch hbatch
    have hplaces := h.places
    simp only [SyncState.placed, hpendings, hbatch, SyncPhase.done, List.nil_append,
      List.append_assoc] at hplaces ⊢
    refine (hperm.append_right _).trans (List.Perm.trans ?_ hplaces)
    exact (List.perm_append_comm.append_left _).append_left _

/-! ## One step -/

theorem going_start : Going args {} := by
  constructor <;> simp [SyncState.placed, SyncPhase.done, SyncPhase.isRaised]

/-- The tasks that are done leave the pending ones. -/
theorem perm_filter_append {pendings done : List Nat} (hnodup : done.Nodup)
    (hpendings : pendings.Nodup) (hsub : ∀ group ∈ done, group ∈ pendings) :
    (pendings.filter (· ∉ done) ++ done).Perm pendings := by
  have hdone : (pendings.filter (· ∈ done)).Perm done := by
    apply (List.perm_ext_iff_of_nodup (hpendings.filter _) hnodup).mpr
    intro group
    simp only [List.mem_filter, decide_eq_true_eq]
    exact ⟨fun h => h.2, fun h => ⟨hsub group h, h⟩⟩
  refine List.perm_append_comm.trans ((hdone.symm.append_right _).trans ?_)
  simpa using List.filter_append_perm (fun group => decide (group ∈ done)) pendings

/-- The places, counted. -/
theorem placed_perm_iff {drawn : Nat} :
    s.placed.Perm (List.range drawn) ↔ ∀ group,
      s.pendings.count group + s.phase.done.count group + s.data.count group +
        (s.dropped.map Prod.fst).count group + s.failed.count group +
        s.abortedSamples.count group = (List.range drawn).count group := by
  simp only [List.perm_iff_count, SyncState.placed, List.count_append]

theorem count_concat (xs : List Nat) (x y : Nat) :
    (xs ++ [x]).count y = xs.count y + if x = y then 1 else 0 := by
  simp [List.count_append, List.count_singleton]

theorem Going.flag_false (h : Going args s) (hphase : s.phase ≠ .draining) :
    s.aborted = false := by
  have hflag := h.aborted_iff
  cases haborted : s.aborted with
  | false => rfl
  | true => exact absurd (hflag.mp haborted) hphase

theorem going_collectGroup {group : Nat} {result : GroupResult} {done : List (Nat × GroupResult)}
    (h : Going args s) (hphase : s.phase = .collecting ((group, result) :: done)) :
    Going args (collectGroup args group result done s) := by
  have hresults := h.retryable _ hphase
  have hflag := h.flag_false (by simp [hphase])
  have hplaces := placed_perm_iff.mp h.places
  simp only [hphase, SyncPhase.done, List.map_cons, List.count_cons] at hplaces
  have hrest : ∀ done', SyncPhase.collecting done = .collecting done' →
      ∀ x ∈ done', x.2 ≠ .nonRetryable := by
    intro done' heq x hx
    cases heq
    exact hresults x (List.mem_cons_of_mem _ hx)
  cases result with
  | nonRetryable => exact absurd rfl (hresults (group, .nonRetryable) (List.mem_cons_self ..))
  | failed =>
    refine ⟨rfl, placed_perm_iff.mpr fun x => ?_, h.length_le, by simp [collectGroup, hflag],
      by simp [collectGroup], hrest, by simp [collectGroup]⟩
    have hx := hplaces x
    simp only [collectGroup, SyncPhase.done, count_concat]
    simp only [beq_iff_eq] at hx
    omega
  | returned keep nested =>
    cases hkeep : keep with
    | false =>
      refine ⟨rfl, placed_perm_iff.mpr fun x => ?_, h.length_le, by simp [collectGroup, hflag],
        by simp [collectGroup], hrest, by simp [collectGroup]⟩
      have hx := hplaces x
      simp only [collectGroup, SyncPhase.done, Bool.not_false, if_true, List.map_append,
        List.map_cons, List.map_nil, count_concat]
      simp only [beq_iff_eq] at hx
      omega
    | true =>
      by_cases hroom : s.data.length < args.rolloutBatchSize
      · simp only [collectGroup, Bool.not_true, Bool.false_eq_true, if_false, if_pos hroom]
        refine ⟨rfl, placed_perm_iff.mpr fun x => ?_, by simp; omega, by simp [hflag],
          by simp, hrest, by simp⟩
        have hx := hplaces x
        simp only [SyncPhase.done, count_concat]
        simp only [beq_iff_eq] at hx
        omega
      · simp only [collectGroup, Bool.not_true, Bool.false_eq_true, if_false, if_neg hroom]
        refine ⟨rfl, placed_perm_iff.mpr fun x => ?_, h.length_le, by simp [hflag],
          by simp, hrest, by simp⟩
        have hx := hplaces x
        simp only [SyncPhase.done, List.map_append, List.map_cons, List.map_nil, count_concat]
        simp only [beq_iff_eq] at hx
        omega

theorem going_endTurn (h : Going args s) (hphase : s.phase = .collecting []) :
    Going args (endTurn args s) := by
  have hflag := h.flag_false (by simp [hphase])
  have hplaces := placed_perm_iff.mp h.places
  simp only [hphase, SyncPhase.done, List.map_nil, List.count_nil] at hplaces
  have hle := h.length_le
  unfold endTurn
  split
  · exact ⟨rfl, placed_perm_iff.mpr hplaces, hle, by simp [hflag], by simp, by simp, by simp⟩
  · rename_i hfull
    rw [if_neg (by simp [hflag])]
    exact ⟨rfl, placed_perm_iff.mpr hplaces, hle, by simp, fun _ => by simp; omega, by simp,
      by simp⟩

theorem going_drainGroup {group : Nat} {result : GroupResult} (h : Going args s)
    (hphase : s.phase = .draining) (hmem : group ∈ s.pendings)
    (hok : ¬ SyncEvent.DrainFails args (.drain group result)) :
    Going args (drainGroup args group result s) := by
  have hflag := h.aborted_iff.mpr hphase
  have hplaces := placed_perm_iff.mp h.places
  have herase : ∀ x, s.pendings.count x =
      (s.pendings.erase group).count x + if group = x then 1 else 0 := by
    intro x
    have hperm := (List.perm_cons_erase hmem).count_eq x
    rw [hperm, List.count_cons]
    simp only [beq_iff_eq]
  cases result with
  | nonRetryable => exact absurd trivial hok
  | failed => exact absurd trivial hok
  | returned keep nested =>
    cases hkept : args.partialRollout with
    | false =>
      simp only [drainGroup, hkept, Bool.not_false, if_true]
      refine ⟨h.not_raised, placed_perm_iff.mpr fun x => ?_, h.length_le, h.aborted_iff, h.full,
        h.retryable, by simp [hphase]⟩
      have hx := hplaces x
      have hcount := herase x
      simp only [List.map_append, List.map_cons, List.map_nil, count_concat]
      omega
    | true =>
      have hflat : nested = false := by
        cases nested with
        | false => rfl
        | true => exact absurd ⟨hkept, rfl⟩ hok
      simp only [drainGroup, hkept, hflat, Bool.not_true, Bool.false_eq_true, if_false]
      refine ⟨h.not_raised, placed_perm_iff.mpr fun x => ?_, h.length_le, h.aborted_iff, h.full,
        h.retryable, by simp [hphase]⟩
      have hx := hplaces x
      have hcount := herase x
      simp only [count_concat]
      omega

theorem going_finishStep (h : Going args s) (hphase : s.phase = .draining)
    (hpendings : s.pendings = []) : Going args (finishStep args s) := by
  have hfull := h.full hphase
  have hplaces := placed_perm_iff.mp h.places
  unfold finishStep
  rw [if_neg (by simp [hfull])]
  refine ⟨rfl, placed_perm_iff.mpr fun x => ?_, h.length_le, by simp, by simp, by simp, ?_⟩
  · have hx := hplaces x
    simp only [hphase, SyncPhase.done] at hx ⊢
    exact hx
  · rintro batch hbatch
    cases hbatch
    exact ⟨List.perm_insertionSort .., hpendings, hfull⟩

/-- A step keeps the groups in their places, unless a task fails while `abort` waits. -/
theorem going_step {s s' : SyncState} {e : SyncEvent} (h : Going args s) (hretry : e.Retryable)
    (hok : ¬ e.DrainFails args) (hstep : step args s e = some s') : Going args s' := by
  have hplaces := placed_perm_iff.mp h.places
  cases e with
  | submit numGroups =>
    simp only [step] at hstep
    split at hstep
    · rename_i hcond
      cases hstep
      refine ⟨h.not_raised, placed_perm_iff.mpr fun x => ?_, h.length_le, h.aborted_iff, h.full,
        h.retryable, by simp [hcond.1]⟩
      have hx := hplaces x
      dsimp only
      rw [← List.range_append_range', List.count_append, List.count_append]
      omega
    · cases hstep
  | stopSubmitting =>
    simp only [step] at hstep
    split at hstep
    · rename_i hcond
      cases hstep
      have hflag := h.flag_false (by simp [hcond.1])
      simp only [hcond.1, SyncPhase.done] at hplaces
      exact ⟨rfl, placed_perm_iff.mpr hplaces, h.length_le, by simp [hflag], by simp, by simp,
        by simp⟩
    · cases hstep
  | sampleDone =>
    simp only [step] at hstep
    split at hstep
    · cases hstep
      exact ⟨h.not_raised, h.places, h.length_le, h.aborted_iff, h.full, h.retryable, h.returned⟩
    · cases hstep
  | wake done =>
    simp only [step] at hstep
    split at hstep
    · rename_i hcond
      obtain ⟨hphase, hnodup, hsub, -⟩ := hcond
      cases hstep
      have hflag := h.flag_false (by simp [hphase])
      -- a group is drawn once, so it is pending once
      have hpendings : s.pendings.Nodup := by
        have hplaced : s.placed.Nodup := h.places.nodup_iff.mpr List.nodup_range
        simp only [SyncState.placed, List.append_assoc] at hplaced
        exact hplaced.of_append_left
      refine ⟨rfl, placed_perm_iff.mpr fun x => ?_, h.length_le, by simp [hflag], by simp, ?_,
        by simp⟩
      · have hx := hplaces x
        simp only [hphase, SyncPhase.done, List.count_nil] at hx ⊢
        have hcount := (perm_filter_append hnodup hpendings hsub).count_eq x
        rw [List.count_append] at hcount
        omega
      · intro done' heq
        cases heq
        exact hretry
    · cases hstep
  | collect =>
    simp only [step] at hstep
    split at hstep
    · rename_i hphase
      cases hstep
      exact going_endTurn h hphase
    · rename_i group result done hphase
      cases hstep
      exact going_collectGroup h hphase
    · cases hstep
  | drain group result =>
    simp only [step] at hstep
    split at hstep
    · rename_i hcond
      cases hstep
      exact going_drainGroup h hcond.1 hcond.2 hok
    · cases hstep
  | finish =>
    simp only [step] at hstep
    split at hstep
    · rename_i hcond
      cases hstep
      exact going_finishStep h hcond.1 hcond.2
    · cases hstep

/-- A task that fails while `abort` waits ends the step, and the flag stays set. -/
theorem raised_of_drainFails {s s' : SyncState} {e : SyncEvent} (h : Going args s)
    (hfails : e.DrainFails args) (hstep : step args s e = some s') :
    s'.phase.isRaised = true ∧ s'.aborted = true := by
  cases e with
  | drain group result =>
    simp only [step] at hstep
    split at hstep
    · rename_i hcond
      have hflag := h.aborted_iff.mpr hcond.1
      cases hstep
      cases result with
      | failed => exact ⟨rfl, hflag⟩
      | nonRetryable => exact ⟨rfl, hflag⟩
      | returned keep nested =>
        obtain ⟨hkept, hnested⟩ := hfails
        simp only [drainGroup, hkept, hnested, Bool.not_true, Bool.false_eq_true, if_false,
          if_true]
        exact ⟨rfl, hflag⟩
    · cases hstep
  | _ => exact hfails.elim

/-- Nothing happens after an exception. -/
theorem step_of_raised (e : SyncEvent) (h : s.phase.isRaised = true) :
    step args s e = none := by
  obtain ⟨error, hphase⟩ : ∃ error, s.phase = .raised error := by
    cases hp : s.phase with
    | raised error => exact ⟨error, rfl⟩
    | _ => simp [hp, SyncPhase.isRaised] at h
  cases e <;> simp [step, hphase]

/-! ## Runs -/

/-- A run either goes on with every group in its place, or has just failed in `abort`. -/
theorem run_going {es : List SyncEvent} (hretry : ∀ e ∈ es, e.Retryable)
    (hrun : run (step args) {} es = some s) :
    (Going args s ∧ ∀ e ∈ es, ¬ e.DrainFails args) ∨
      (s.phase.isRaised = true ∧ s.aborted = true ∧ ∃ e ∈ es, e.DrainFails args) := by
  induction es using List.reverseRecOn generalizing s with
  | nil =>
    cases hrun
    exact .inl ⟨going_start, by simp⟩
  | append_singleton es e ih =>
    obtain ⟨m, hm, hstep⟩ := run_concat.mp hrun
    rcases ih (fun e' he' => hretry e' (List.mem_append_left _ he')) hm with
      ⟨hgoing, hall⟩ | ⟨hraised, -⟩
    · by_cases hfails : e.DrainFails args
      · obtain ⟨hraised, hflag⟩ := raised_of_drainFails hgoing hfails hstep
        exact .inr ⟨hraised, hflag, e, by simp, hfails⟩
      · refine .inl ⟨going_step hgoing (hretry e (by simp)) hfails hstep, ?_⟩
        intro e' he'
        rcases List.mem_append.mp he' with hmem | hmem
        · exact hall e' hmem
        · rw [List.mem_singleton.mp hmem]
          exact hfails
    · rw [step_of_raised e hraised] at hstep
      cases hstep

/-- A rollout step whose tasks raise only retryable exceptions meets its accounting iff no task
    fails while `abort` waits for it, and where one does the flag stays set. -/
theorem accounted_iff {s : SyncState} {es : List SyncEvent} (hretry : ∀ e ∈ es, e.Retryable)
    (hrun : run (step args) {} es = some s) :
    (Accounted args s ↔ ∀ e ∈ es, ¬ e.DrainFails args) ∧
      ((∃ error, s.phase = .raised error) → s.aborted = true) := by
  rcases run_going hretry hrun with ⟨hgoing, hall⟩ | ⟨hraised, hflag, e, he, hfails⟩
  · refine ⟨⟨fun _ => hall, fun _ => hgoing.accounted⟩, fun ⟨error, herror⟩ => ?_⟩
    exact absurd herror (hgoing.accounted.not_raised error)
  · refine ⟨⟨fun haccounted => ?_, fun hall => absurd hfails (hall e he)⟩, fun _ => hflag⟩
    cases hp : s.phase with
    | raised error => exact absurd hp (haccounted.not_raised error)
    | _ => simp [hp, SyncPhase.isRaised] at hraised

/-! ### Two steps -/

/-- Batches of two groups with a prompt each. -/
def twoGroups : SyncArgs where
  rolloutBatchSize := 2
  nSamplesPerPrompt := 1
  granularity := .group
  partialRollout := false
  groupIndex g := g
  batch_pos := by decide

/-- Six groups are drawn: one fails, one is filtered out, two make the batch, a fifth comes too
    late for it and the last one is still pending at the end. -/
def filteredRun : List SyncEvent :=
  [.submit 6, .stopSubmitting,
    .wake [(1, .failed), (0, .returned false false), (3, .returned true false)], .collect, .collect,
    .collect, .collect, .stopSubmitting,
    .wake [(2, .returned true false), (4, .returned true false)], .collect, .collect, .collect,
    .drain 5 (.returned true false), .finish]

/-- How the run ends. -/
def filteredEnd : SyncState where
  phase := .returned [2, 3]
  drawn := 6
  data := [3, 2]
  dropped := [(0, .dynamicFilter), (4, .oversampling), (5, .aborted)]
  failed := [1]

theorem accounted_filteredRun :
    run (step twoGroups) {} filteredRun = some filteredEnd ∧ Accounted twoGroups filteredEnd := by
  have hrun : run (step twoGroups) {} filteredRun = some filteredEnd := by decide
  exact ⟨hrun, ((accounted_iff (by decide) hrun).1).mpr (by decide)⟩

/-- A batch and a third group, which raises while `abort` waits for it. -/
def failingRun : List SyncEvent :=
  [.submit 3, .stopSubmitting, .wake [(0, .returned true false), (1, .returned true false)],
    .collect, .collect, .collect, .drain 2 .failed]

/-- The step fails with a complete batch, and the flag stays set. -/
theorem drain_failure_breaks_step :
    ¬ ∀ (args : SyncArgs) (es : List SyncEvent) (s : SyncState),
      (∀ e ∈ es, e.Retryable) → run (step args) {} es = some s →
      Accounted args s ∧ ((∃ error, s.phase = .raised error) → s.aborted = false) := by
  intro hclaim
  have hrun : run (step twoGroups) {} failingRun = some
      { phase := .raised (.groupTask 2 .failed), aborted := true, drawn := 3, pendings := [2]
        data := [0, 1] } := by decide
  exact (hclaim twoGroups failingRun _ (by decide) hrun).1.not_raised (.groupTask 2 .failed) rfl

end Miles.Rollout.Sync
