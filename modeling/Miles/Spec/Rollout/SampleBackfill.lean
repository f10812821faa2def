import Miles.Native.Rollout.SubmissionScheduler

/-!
# The accounts of the sample backfill

The scheduler counts a sample until its callback, or until no group is pending: it may count too much,
never too little. Its event is set by every callback and cleared by a False of `has_capacity` only, and
while a waiter is blocked it is clear.
-/

namespace Miles.SubmissionScheduler

variable {w w' : World} {groupSize : Nat}

/-! ## Groups -/

/-- What the scheduler must still count for a group -/
def Group.load : Group → Nat
  | .submitted size => size
  | .spawned running uncalled => running + uncalled
  | .returned => 0

def World.load (w : World) : Nat := (w.pendings.map Group.load).sum

theorem Group.unfinished_le_load (g : Group) : g.unfinished ≤ g.load := by
  cases g with
  | submitted size => exact Nat.zero_le _
  | spawned running uncalled => exact Nat.le_add_right _ _
  | returned => exact le_refl 0

/-- What is unfinished is part of the load. -/
theorem World.unfinished_le_load (w : World) : w.unfinished ≤ w.load := by
  unfold World.unfinished World.load
  apply List.sum_le_sum
  intro g _
  exact g.unfinished_le_load

/-- What a list adds up to after one element was replaced. -/
theorem sum_map_set {α : Type} (f : α → Nat) (xs : List α) (i : Nat) (old new : α)
    (h : xs[i]? = some old) : ((xs.set i new).map f).sum + f old = (xs.map f).sum + f new := by
  induction xs generalizing i with
  | nil => cases h
  | cons x xs ih =>
    cases i with
    | zero =>
      cases h
      simp
      omega
    | succ i =>
      have hrest := ih i h
      simp only [List.set_cons_succ, List.map_cons, List.sum_cons]
      omega

theorem changeGroup_eq_some {i : Nat} {change : Group → Option Group}
    (h : changeGroup w i change = some w') :
    ∃ g g', w.pendings[i]? = some g ∧ change g = some g' ∧
      w' = { w with pendings := w.pendings.set i g' } := by
  unfold changeGroup at h
  split at h
  · cases h
  · rename_i g hg
    obtain ⟨g', hg', heq⟩ := Option.map_eq_some_iff.mp h
    exact ⟨g, g', hg, hg', heq.symm⟩

theorem Group.load_spawn {g g' : Group} (h : g.spawn = some g') : g'.load ≤ g.load := by
  cases g with
  | submitted size =>
    cases h
    exact le_refl _
  | spawned running uncalled => cases h
  | returned => cases h

theorem Group.load_skip {g g' : Group} (h : g.skip = some g') : g'.load ≤ g.load := by
  cases g with
  | submitted size =>
    cases h
    exact Nat.zero_le _
  | spawned running uncalled => cases h
  | returned => cases h

theorem Group.load_finishSample {g g' : Group} (h : g.finishSample = some g') :
    g'.load ≤ g.load := by
  unfold Group.finishSample at h
  split at h
  · cases h
    simp only [Group.load]
    omega
  · cases h

/-- A callback takes one sample off the load. -/
theorem Group.load_callBack {g g' : Group} (h : g.callBack = some g') : g'.load + 1 = g.load := by
  unfold Group.callBack at h
  split at h
  · cases h
    simp only [Group.load]
    omega
  · cases h

theorem Group.load_settle {g g' : Group} (h : g.settle = some g') : g'.load ≤ g.load := by
  unfold Group.settle at h
  split at h
  · cases h
    exact Nat.zero_le _
  · cases h

/-- Groups that have returned count for nothing. -/
theorem load_collect (w : World) : (collect w).load = w.load := by
  show ((w.pendings.filter (· ≠ .returned)).map Group.load).sum = (w.pendings.map Group.load).sum
  induction w.pendings with
  | nil => rfl
  | cons g groups ih =>
    rw [List.filter_cons]
    cases g with
    | submitted size => simpa using ih
    | spawned running uncalled => simpa using ih
    | returned => simpa [Group.load] using ih

/-! ## One step -/

structure Accounting (groupSize : Nat) (w : World) : Prop where
  size : w.scheduler.groupSize = groupSize
  load : (w.load : Int) ≤ w.scheduler.samplesInFlight
  granted : ∀ budget ∈ w.granted, w.scheduler.samplesInFlight + groupSize ≤ budget * groupSize
  armed : w.finishedSince = true → w.scheduler.sampleDone = true
  blocked : w.waiting = some .blocked → w.scheduler.sampleDone = false

theorem Accounting.initial (groupSize : Nat) : Accounting groupSize (World.initial groupSize) := by
  refine ⟨rfl, le_refl _, fun budget hbudget => ?_, fun h => ?_, fun h => ?_⟩
  · cases hbudget
  · cases h
  · cases h

/-- The tasks of a group change, and the scheduler does not hear of it. -/
theorem Accounting.changeGroup (h : Accounting groupSize w) {i : Nat}
    {change : Group → Option Group} (hload : ∀ g g', change g = some g' → g'.load ≤ g.load)
    (hstep : changeGroup w i change = some w') : Accounting groupSize w' := by
  obtain ⟨g, g', hg, hg', heq⟩ := changeGroup_eq_some hstep
  rw [heq]
  refine ⟨h.size, ?_, h.granted, h.armed, h.blocked⟩
  have hsum := sum_map_set Group.load w.pendings i g g' hg
  have hle := hload g g' hg'
  have hbefore : (((w.pendings.map Group.load).sum : Nat) : Int) ≤ w.scheduler.samplesInFlight :=
    h.load
  show (((w.pendings.set i g').map Group.load).sum : Int) ≤ w.scheduler.samplesInFlight
  omega

/-- A group's load falls by the sample that is no longer counted. -/
theorem Accounting.callBack (h : Accounting groupSize w) {i : Nat}
    (hstep : (SubmissionScheduler.changeGroup w i Group.callBack).map SubmissionScheduler.callBack =
      some w') : Accounting groupSize w' := by
  obtain ⟨m, hm, hw'⟩ := Option.map_eq_some_iff.mp hstep
  obtain ⟨g, g', hg, hg', heq⟩ := changeGroup_eq_some hm
  rw [← hw', heq]
  have hsum := sum_map_set Group.load w.pendings i g g' hg
  have hone := Group.load_callBack hg'
  have hbefore : (((w.pendings.map Group.load).sum : Nat) : Int) ≤ w.scheduler.samplesInFlight :=
    h.load
  refine ⟨h.size, ?_, fun budget hbudget => ?_, fun _ => rfl, fun hblocked => ?_⟩
  · show (((w.pendings.set i g').map Group.load).sum : Int) ≤ w.scheduler.samplesInFlight - 1
    omega
  · have hgranted := h.granted budget hbudget
    show w.scheduler.samplesInFlight - 1 + groupSize ≤ budget * groupSize
    omega
  · -- a waiter that was blocked is woken
    exfalso
    change w.waiting.map Waiter.wake = some .blocked at hblocked
    obtain ⟨waiter, -, hwake⟩ := Option.map_eq_some_iff.mp hblocked
    cases waiter with
    | created => cases hwake
    | blocked => cases hwake
    | woken => cases hwake
    | done => cases hwake

/-- A reset never undercounts the samples in flight. -/
theorem Accounting.resetIfIdle (h : Accounting groupSize w) :
    (w.load : Int) ≤ (w.scheduler.resetIfIdle w.pendings.length).samplesInFlight := by
  unfold SampleBackfillSubmission.resetIfIdle
  split
  · -- no group is pending, so nothing is left to count
    rename_i hidle
    have hnil : w.pendings = [] := List.length_eq_zero_iff.mp hidle.1
    unfold World.load
    rw [hnil]
    exact le_refl _
  · exact h.load

theorem resetIfIdle_groupSize (s : SampleBackfillSubmission) (pendingGroups : Nat) :
    (s.resetIfIdle pendingGroups).groupSize = s.groupSize := by
  unfold SampleBackfillSubmission.resetIfIdle
  split
  · rfl
  · rfl

theorem resetIfIdle_sampleDone (s : SampleBackfillSubmission) (pendingGroups : Nat) :
    (s.resetIfIdle pendingGroups).sampleDone = s.sampleDone := by
  unfold SampleBackfillSubmission.resetIfIdle
  split
  · rfl
  · rfl

/-- What a call of `has_capacity` answers and leaves. -/
theorem hasCapacity_cases (s : SampleBackfillSubmission) (pendingGroups : Nat) (budget : Int) :
    ((s.resetIfIdle pendingGroups).samplesInFlight + s.groupSize ≤ budget * s.groupSize ∧
      s.hasCapacity pendingGroups budget = (true, s.resetIfIdle pendingGroups)) ∨
    s.hasCapacity pendingGroups budget =
      (false, { s.resetIfIdle pendingGroups with sampleDone := false }) := by
  unfold SampleBackfillSubmission.hasCapacity
  simp only [resetIfIdle_groupSize]
  split
  · rename_i hfits
    exact .inl ⟨hfits, rfl⟩
  · exact .inr rfl

theorem Accounting.collect (h : Accounting groupSize w) {waiting : Option Waiter}
    (hwaiting : waiting = none ∨ waiting = w.waiting) :
    Accounting groupSize (collect { w with waiting := waiting }) := by
  refine ⟨h.size, ?_, h.granted, h.armed, fun hblocked => ?_⟩
  · rw [load_collect]
    exact h.load
  · rcases hwaiting with hnone | hsame
    · change waiting = some .blocked at hblocked
      rw [hnone] at hblocked
      cases hblocked
    · apply h.blocked
      rw [← hsame]
      exact hblocked

/-- A turn of the loop keeps the accounting. -/
theorem Accounting.turn (h : Accounting groupSize w) : Accounting groupSize (turn w) := by
  unfold SubmissionScheduler.turn
  split
  · exact h
  · refine ⟨h.size, h.load, h.granted, h.armed, fun hblocked => ?_⟩
    -- it is blocked only where the event is clear
    cases hdone : w.scheduler.sampleDone with
    | false => rfl
    | true =>
      simp only [hdone, if_true] at hblocked
      cases hblocked
  · exact h
  · exact ⟨h.size, h.load, h.granted, h.armed, fun hblocked => by cases hblocked⟩
  · exact h.collect (.inl rfl)

/-- Every event keeps the accounting. -/
theorem Accounting.step (h : Accounting groupSize w) {event : Event}
    (hstep : step w event = some w') : Accounting groupSize w' := by
  cases event with
  | hasCapacity budget =>
    simp only [SubmissionScheduler.step] at hstep
    split at hstep
    · cases hstep
    · rename_i hrunning
      -- a loop that asks for capacity is not blocked
      have hidle : w.waiting ≠ some .blocked := by
        intro hblocked
        rw [hblocked] at hrunning
        exact hrunning rfl
      rcases hasCapacity_cases w.scheduler w.pendings.length budget with hboth | hfalse
      · rw [hboth.2] at hstep
        cases hstep
        refine ⟨(resetIfIdle_groupSize _ _).trans h.size, h.resetIfIdle, fun b hb => ?_,
          fun hsince => (resetIfIdle_sampleDone _ _).trans (h.armed hsince),
          fun hblocked => absurd hblocked hidle⟩
        cases hb
        have hfits := hboth.1
        rw [h.size] at hfits
        exact hfits
      · rw [hfalse] at hstep
        cases hstep
        refine ⟨(resetIfIdle_groupSize _ _).trans h.size, h.resetIfIdle, fun b hb => ?_,
          fun hsince => ?_, fun _ => rfl⟩
        · cases hb
        · cases hsince
  | submit group =>
    simp only [SubmissionScheduler.step] at hstep
    split at hstep
    · cases hstep
      refine ⟨h.size, ?_, fun b hb => ?_, h.armed, h.blocked⟩
      · -- a submitted group counts with all its samples
        have hload : ((w.pendings ++ [Group.submitted group.length]).map Group.load).sum =
            w.load + ([group].map List.length).sum := by
          simp [World.load, Group.load]
        have hbefore := h.load
        show (((w.pendings ++ [Group.submitted group.length]).map Group.load).sum : Int) ≤
          w.scheduler.samplesInFlight + (([group].map List.length).sum : Nat)
        omega
      · cases hb
    · cases hstep
  | collect =>
    simp only [SubmissionScheduler.step] at hstep
    split at hstep
    · cases hstep
    · cases hstep
      exact h.collect (.inr rfl)
  | waitForProgress =>
    simp only [SubmissionScheduler.step] at hstep
    split at hstep
    · cases hstep
    · cases hstep
      exact ⟨h.size, h.load, h.granted, h.armed, fun hblocked => by cases hblocked⟩
  | spawn i => exact h.changeGroup (fun g g' => Group.load_spawn) hstep
  | skip i => exact h.changeGroup (fun g g' => Group.load_skip) hstep
  | finishSample i => exact h.changeGroup (fun g g' => Group.load_finishSample) hstep
  | sampleDoneCallback i => exact h.callBack hstep
  | returnGroup i => exact h.changeGroup (fun g g' => Group.load_settle) hstep
  | turn =>
    cases hstep
    exact h.turn
  | groupWakeup =>
    simp only [SubmissionScheduler.step] at hstep
    split at hstep
    · cases hstep
      exact h.collect (.inl rfl)
    · cases hstep

/-! ## The wakeup -/

/-- In how many turns of the event loop a waiter with something to wake it has the driver back -/
def Waiter.turnsLeft : Waiter → Nat
  | .created => 2
  | .blocked => 2
  | .woken => 2
  | .done => 1

/-- The driver waits, and the waiter has something to wake it. -/
structure Ready (w : World) (waiter : Waiter) : Prop where
  waiting : w.waiting = some waiter
  unblocked : waiter ≠ .blocked
  set : waiter = .created → w.scheduler.sampleDone = true

variable {waiter : Waiter}

theorem Ready.waiting_isSome (h : Ready w waiter) : w.waiting.isSome = true := by
  rw [h.waiting]
  rfl

theorem Ready.wake (h : Ready w waiter) : waiter.wake = waiter := by
  cases waiter with
  | blocked => exact absurd rfl h.unblocked
  | created => rfl
  | woken => rfl
  | done => rfl

/-- A change of a group's tasks leaves the waiter alone. -/
theorem Ready.changeGroup (h : Ready w waiter) {i : Nat}
    {change : Group → Option Group} (hstep : changeGroup w i change = some w') :
    Ready w' waiter := by
  obtain ⟨g, g', -, -, heq⟩ := changeGroup_eq_some hstep
  rw [heq]
  exact ⟨h.waiting, h.unblocked, h.set⟩

/-- A ready waiter returns, or is a turn nearer to it. -/
theorem Ready.turn (h : Ready w waiter) :
    (SubmissionScheduler.turn w).waiting = none ∨
      ∃ next, Ready (SubmissionScheduler.turn w) next ∧ next.turnsLeft + 1 ≤ waiter.turnsLeft := by
  have hwaiting := h.waiting
  cases waiter with
  | created =>
    -- the event is set, so it goes through
    have hturn : SubmissionScheduler.turn w = { w with waiting := some .done } := by
      simp only [SubmissionScheduler.turn, hwaiting, h.set rfl, if_true]
    rw [hturn]
    exact .inr ⟨.done, ⟨rfl, by decide, fun hcreated => by cases hcreated⟩, le_refl _⟩
  | blocked => exact absurd rfl h.unblocked
  | woken =>
    have hturn : SubmissionScheduler.turn w = { w with waiting := some .done } := by
      simp only [SubmissionScheduler.turn, hwaiting]
    rw [hturn]
    exact .inr ⟨.done, ⟨rfl, by decide, fun hcreated => by cases hcreated⟩, le_refl _⟩
  | done =>
    have hturn : SubmissionScheduler.turn w = collect { w with waiting := none } := by
      simp only [SubmissionScheduler.turn, hwaiting]
    rw [hturn]
    exact .inl rfl

/-- In each step the driver has returned, or the waiter is as ready as before, and nearer by a
    turn if it had one. -/
theorem Ready.step (h : Ready w waiter) {event : Event}
    (hstep : step w event = some w') :
    w'.waiting = none ∨
      ∃ next, Ready w' next ∧ next.turnsLeft + [event].count .turn ≤ waiter.turnsLeft := by
  have hsome := h.waiting_isSome
  cases event with
  | hasCapacity budget =>
    simp only [SubmissionScheduler.step, hsome, if_true] at hstep
    cases hstep
  | submit group =>
    simp only [SubmissionScheduler.step, h.waiting, Option.isNone_some, Bool.false_eq_true,
      false_and, if_false] at hstep
    cases hstep
  | collect =>
    simp only [SubmissionScheduler.step, hsome, if_true] at hstep
    cases hstep
  | waitForProgress =>
    simp only [SubmissionScheduler.step, hsome, if_true] at hstep
    cases hstep
  | spawn i => exact .inr ⟨waiter, h.changeGroup hstep, le_refl _⟩
  | skip i => exact .inr ⟨waiter, h.changeGroup hstep, le_refl _⟩
  | finishSample i => exact .inr ⟨waiter, h.changeGroup hstep, le_refl _⟩
  | sampleDoneCallback i =>
    obtain ⟨m, hm, hw'⟩ := Option.map_eq_some_iff.mp hstep
    have hready := h.changeGroup hm
    refine .inr ⟨waiter, ⟨?_, h.unblocked, fun _ => ?_⟩, le_refl _⟩
    · rw [← hw']
      show m.waiting.map Waiter.wake = some waiter
      rw [hready.waiting, Option.map_some, h.wake]
    · rw [← hw']
      rfl
  | returnGroup i => exact .inr ⟨waiter, h.changeGroup hstep, le_refl _⟩
  | turn =>
    cases hstep
    exact h.turn
  | groupWakeup =>
    simp only [SubmissionScheduler.step] at hstep
    split at hstep
    · cases hstep
      exact .inl rfl
    · cases hstep

/-- A ready waiter has the driver back after its turns, whatever else happens. -/
theorem Ready.run (h : Ready w waiter) {events : List Event}
    (hrun : Lts.run SubmissionScheduler.step w events = some w')
    (hturns : waiter.turnsLeft ≤ events.count .turn) :
    ∃ pre post m, events = pre ++ post ∧ Lts.run SubmissionScheduler.step w pre = some m ∧
      m.waiting = none := by
  induction events generalizing w waiter with
  | nil =>
    exfalso
    have hpos : 0 < waiter.turnsLeft := by
      cases waiter with
      | created => decide
      | blocked => decide
      | woken => decide
      | done => decide
    simp only [List.count_nil] at hturns
    omega
  | cons event events ih =>
    obtain ⟨s, hs, hrest⟩ := Lts.run_cons_some.mp hrun
    rcases h.step hs with hreturned | hready
    · refine ⟨[event], events, s, rfl, ?_, hreturned⟩
      rw [Lts.run_cons, hs]
      rfl
    · obtain ⟨next, hnext, hleft⟩ := hready
      have hcount : (event :: events).count .turn = [event].count .turn + events.count .turn := by
        rw [← List.count_append]
        rfl
      obtain ⟨pre, post, m, hsplit, hpre, hnone⟩ := ih hnext hrest (by omega)
      refine ⟨event :: pre, post, m, by rw [hsplit, List.cons_append], ?_, hnone⟩
      rw [Lts.run_cons, hs]
      exact hpre

/-- A callback since the last False has set the event, and no waiter is blocked on a set event. -/
theorem Accounting.ready (h : Accounting groupSize w)
    (hwaiting : w.waiting = some waiter) (hsince : w.finishedSince = true) : Ready w waiter := by
  have hset := h.armed hsince
  refine ⟨hwaiting, fun hblocked => ?_, fun _ => hset⟩
  have hclear := h.blocked (by rw [hwaiting, hblocked])
  rw [hset] at hclear
  cases hclear

/-! ## Every run -/

theorem Waiter.turnsLeft_le_two (waiter : Waiter) : waiter.turnsLeft ≤ 2 := by
  cases waiter with
  | created => decide
  | blocked => decide
  | woken => decide
  | done => decide

/-- With no group pending the counter starts again, and one group fits. -/
theorem hasCapacity_of_idle (s : SampleBackfillSubmission) {budget : Int} (hbudget : 1 ≤ budget) :
    (s.hasCapacity 0 budget).1 = true := by
  have hzero : (s.resetIfIdle 0).samplesInFlight = 0 := by
    unfold SampleBackfillSubmission.resetIfIdle
    split
    · rfl
    · rename_i hcount
      by_contra hne
      exact hcount ⟨rfl, hne⟩
  have hfits : (s.resetIfIdle 0).samplesInFlight + s.groupSize ≤ budget * s.groupSize := by
    rw [hzero, zero_add]
    have hsize : (0 : Int) ≤ s.groupSize := Int.natCast_nonneg _
    nlinarith
  unfold SampleBackfillSubmission.hasCapacity
  simp only [resetIfIdle_groupSize, if_pos hfits]

/-- For every driver and every order of completions: the unfinished sample tasks are no more than
    the samples in flight, which are never negative and within the budget after an admission; with
    no group pending there is capacity; and once a sample has finished since the last False of
    `has_capacity`, a wait for progress takes at most two turns of the event loop. -/
theorem sample_backfill (groupSize : Nat) (events : List Event) (w : World)
    (hrun : Lts.run step (World.initial groupSize) events = some w) :
    ((w.unfinished : Int) ≤ w.scheduler.samplesInFlight ∧ 0 ≤ w.scheduler.samplesInFlight) ∧
    (∀ budget group w', w.granted = some budget → step w (.submit group) = some w' →
      w'.scheduler.samplesInFlight ≤ budget * groupSize) ∧
    (∀ budget, w.pendings = [] → 1 ≤ budget →
      (w.scheduler.hasCapacity w.pendings.length budget).1 = true) ∧
    ∀ more w', w.waiting.isSome = true → w.finishedSince = true → Lts.run step w more = some w' →
      2 ≤ more.count .turn →
      ∃ pre post m, more = pre ++ post ∧ Lts.run step w pre = some m ∧ m.waiting = none := by
  have h : Accounting groupSize w :=
    Lts.run_invariant (I := Accounting groupSize) (fun _ _ _ h hstep => h.step hstep)
      (Accounting.initial groupSize) hrun
  refine ⟨⟨?_, ?_⟩, fun budget group w' hgranted hstep => ?_, fun budget hnil hbudget => ?_,
    fun more w' hwaiting hsince hmore hturns => ?_⟩
  · have hload := h.load
    have hle := w.unfinished_le_load
    omega
  · have hload := h.load
    omega
  · have hfits := h.granted budget hgranted
    simp only [step] at hstep
    split at hstep
    · rename_i hadmits
      cases hstep
      have hlength : (([group].map List.length).sum : Int) = groupSize := by
        rw [List.map_singleton, List.sum_singleton, hadmits.2.2, h.size]
      show w.scheduler.samplesInFlight + (([group].map List.length).sum : Nat) ≤ budget * groupSize
      rw [hlength]
      exact hfits
    · cases hstep
  · rw [hnil]
    exact hasCapacity_of_idle w.scheduler hbudget
  · obtain ⟨waiter, hwaiter⟩ := Option.isSome_iff_exists.mp hwaiting
    exact (h.ready hwaiter hsince).run hmore (waiter.turnsLeft_le_two.trans hturns)

/-- A group of two is admitted, the next one is not, and a sample finishes during the wait. -/
def oneSampleFinishes : List Event :=
  [.hasCapacity 1, .submit [0, 1], .spawn 0, .hasCapacity 1, .waitForProgress, .turn,
    .finishSample 0, .sampleDoneCallback 0]

theorem sample_backfill_oneSampleFinishes :
    ∃ w, Lts.run step (World.initial 2) oneSampleFinishes = some w ∧ w.waiting = some .woken ∧
      ∃ pre post m, [Event.turn, .turn] = pre ++ post ∧ Lts.run step w pre = some m ∧
        m.waiting = none := by
  have hruns : (Lts.run step (World.initial 2) oneSampleFinishes).isSome = true := by decide
  obtain ⟨w, hrun⟩ := Option.isSome_iff_exists.mp hruns
  have hstate : (Lts.run step (World.initial 2) oneSampleFinishes).map
      (fun w => (w.waiting, w.finishedSince)) = some (some .woken, true) := by decide
  rw [hrun] at hstate
  obtain ⟨hwaiting, hsince⟩ := Prod.mk.inj (Option.some.inj hstate)
  have hturns : Lts.run step w [.turn, .turn] = some (turn (turn w)) := rfl
  have hsome : w.waiting.isSome = true := by
    rw [show w.waiting = some .woken from hwaiting]
    rfl
  exact ⟨w, hrun, hwaiting, (sample_backfill 2 oneSampleFinishes w hrun).2.2.2 _ _ hsome hsince
    hturns (by decide)⟩

end Miles.SubmissionScheduler
