import Miles.Native.Workers.HealthChecker

/-!
# Verdicts belong to the current epoch

Between two reads of the activeness it may change and change back; the epoch tells. A verdict is
read only in the epoch that the loop has noticed, and rests on probes of that epoch.
-/

namespace Miles.HealthChecker

variable {config : Config} {w w' : World} {c : Checker}

/-! ## The invariant -/

/-- A time from which on the loop may start a probe: the end of its sleep. -/
def readyAt (w : World) : ℚ :=
  match w.checker.pc with
  | .sleeping until_ => max w.now until_
  | _ => w.now

/-- A failed probe of an epoch. -/
def ProbeRecord.FailedIn (r : ProbeRecord) (epoch : Nat) : Prop :=
  r.success = false ∧ r.startEpoch = epoch

/-- A published success of an epoch. -/
def ProbeRecord.SucceededIn (r : ProbeRecord) (epoch : Nat) : Prop :=
  r.success = true ∧ r.published = true ∧ r.startEpoch = epoch

/-- What the status and the failures of the checker stand for: the last probes, all of the epoch. -/
def Verdict (config : Config) (epoch : Nat) (probes : List ProbeRecord) (c : Checker) : Prop :=
  ∃ before failed, probes = before ++ failed ∧ (∀ r ∈ failed, r.FailedIn epoch) ∧
    failed.length = c.consecutiveFailures ∧
    (c.status = .true → (∃ r, before.getLast? = some r ∧ r.SucceededIn epoch) ∧
      (failed.length : Int) < max config.failureThreshold 1) ∧
    (c.status = .false → config.failureThreshold ≤ failed.length ∧ failed ≠ [])

/-- The first wait of an epoch is over at a time, counted from when the loop noticed the epoch. -/
def Waited (config : Config) (noticed : List Mark) (epoch : Nat) (time : ℚ) : Prop :=
  (∃ m ∈ noticed, m.epoch = epoch) ∧
    ∀ m ∈ noticed, m.epoch = epoch → m.time + config.firstWait ≤ time

structure Sound (config : Config) (w : World) : Prop where
  le : w.checker.activeAndEpoch.epoch ≤ w.tracker.epoch
  /-- An epoch that the loop has noticed is noticed with its activeness. -/
  fresh : w.checker.activeAndEpoch.epoch = w.tracker.epoch →
    w.checker.activeAndEpoch = w.tracker ∨ w.noticed = []
  noticed : ∀ m ∈ w.noticed, m.epoch ≤ w.checker.activeAndEpoch.epoch
  verdict : w.checker.activeAndEpoch = w.tracker → w.tracker.active = true →
    Verdict config w.tracker.epoch w.probes w.checker
  waited : w.checker.activeAndEpoch.active = true → w.checker.needFirstWait = false ∧
    Waited config w.noticed w.checker.activeAndEpoch.epoch (readyAt w)
  probing : ∀ probe, w.checker.pc = .probing probe →
    probe.activeAndEpoch = w.checker.activeAndEpoch ∧ probe.activeAndEpoch.active = true ∧
      ∀ outcome endEpoch, probe.ended = some (outcome, endEpoch) →
        probe.activeAndEpoch.epoch ≤ endEpoch ∧ endEpoch ≤ w.tracker.epoch
  published : ∀ r ∈ w.probes, r.published = true → r.endEpoch = r.startEpoch
  started : ∀ m ∈ w.started, m.epoch ≤ w.checker.activeAndEpoch.epoch ∧
    Waited config w.noticed m.epoch m.time

theorem Waited.mono {noticed : List Mark} {epoch : Nat} {time later : ℚ}
    (h : Waited config noticed epoch time) (hle : time ≤ later) :
    Waited config noticed epoch later :=
  ⟨h.1, fun m hm hepoch => le_trans (h.2 m hm hepoch) hle⟩

/-- The mark of a later epoch is none of this one. -/
theorem Waited.concat {noticed : List Mark} {epoch : Nat} {time : ℚ} {m : Mark}
    (h : Waited config noticed epoch time) (hm : epoch < m.epoch) :
    Waited config (noticed ++ [m]) epoch time := by
  obtain ⟨hex, hall⟩ := h
  obtain ⟨n, hn, hepoch⟩ := hex
  refine ⟨⟨n, List.mem_append_left _ hn, hepoch⟩, fun k hk hkepoch => ?_⟩
  rcases List.mem_append.mp hk with hk | hk
  · exact hall k hk hkepoch
  · rw [List.mem_singleton.mp hk] at hkepoch
    omega

theorem Sound.initial (active : Bool) : Sound config (World.initial active) := by
  constructor
  · exact Nat.le_refl 0
  · exact fun _ => .inr rfl
  · intro m hm
    cases hm
  · intro heq hactive
    rw [← heq] at hactive
    cases hactive
  · intro hactive
    cases hactive
  · intro probe hpc
    cases hpc
  · intro r hr
    cases hr
  · intro m hm
    cases hm

/-! ## The steps around the loop -/

theorem Sound.bump (h : Sound config w) (active : Bool) :
    Sound config { w with tracker := bumpActive w.tracker active } := by
  unfold bumpActive
  split
  · exact h
  · -- a new epoch, which the loop has not noticed
    have hle := h.le
    constructor
    · exact Nat.le_succ_of_le hle
    · intro heq
      change w.checker.activeAndEpoch.epoch = w.tracker.epoch + 1 at heq
      omega
    · exact h.noticed
    · intro heq
      have hepoch : w.checker.activeAndEpoch.epoch = w.tracker.epoch + 1 := by rw [heq]
      omega
    · exact h.waited
    · intro probe hpc
      obtain ⟨hnoticed, hactive, hended⟩ := h.probing probe hpc
      refine ⟨hnoticed, hactive, fun outcome endEpoch hend => ?_⟩
      obtain ⟨hstart, hend⟩ := hended outcome endEpoch hend
      exact ⟨hstart, Nat.le_succ_of_le hend⟩
    · exact h.published
    · exact h.started

theorem Sound.elapse (h : Sound config w) {seconds : ℚ} (hseconds : 0 ≤ seconds) :
    Sound config { w with now := w.now + seconds } := by
  have hnow : w.now ≤ w.now + seconds := le_add_of_nonneg_right hseconds
  have hready : readyAt w ≤ readyAt { w with now := w.now + seconds } := by
    unfold readyAt
    cases w.checker.pc with
    | sleeping until_ => exact max_le_max_right _ hnow
    | _ => exact hnow
  refine ⟨h.le, h.fresh, h.noticed, h.verdict, fun hactive => ?_, h.probing, h.published, h.started⟩
  obtain ⟨hwait, hwaited⟩ := h.waited hactive
  exact ⟨hwait, hwaited.mono hready⟩

/-- The task of the probe ends in an epoch that is the one of its start or a later one. -/
theorem Sound.endProbe (h : Sound config w) {outcome : Outcome}
    (hstep : endProbe w outcome = some w') : Sound config w' := by
  unfold HealthChecker.endProbe at hstep
  split at hstep
  · rename_i activeAndEpoch startedAt hpc
    cases hstep
    obtain ⟨hnoticed, hactive, -⟩ := h.probing _ hpc
    have hready : readyAt w = w.now := by rw [readyAt, hpc]
    have hle := h.le
    constructor
    · exact hle
    · exact h.fresh
    · exact h.noticed
    · exact h.verdict
    · intro hnow
      show w.checker.needFirstWait = false ∧
        Waited config w.noticed w.checker.activeAndEpoch.epoch w.now
      rw [← hready]
      exact h.waited hnow
    · intro probe hprobe
      cases hprobe
      refine ⟨hnoticed, hactive, fun outcome endEpoch hend => ?_⟩
      cases hend
      refine ⟨?_, Nat.le_refl _⟩
      rw [show activeAndEpoch = w.checker.activeAndEpoch from hnoticed]
      exact hle
    · exact h.published
    · exact h.started
  · cases hstep

theorem Sound.timeOut (h : Sound config w) (hstep : timeOut config w = some w') :
    Sound config w' := by
  unfold HealthChecker.timeOut at hstep
  split at hstep
  · split at hstep
    · exact h.endProbe hstep
    · cases hstep
  · cases hstep

/-! ## The loop -/

/-- Whatever the loop had noticed before is of an earlier epoch than a change it notices now. -/
theorem Sound.earlier (h : Sound config w) (hne : w.tracker ≠ w.checker.activeAndEpoch) {m : Mark}
    (hm : m ∈ w.noticed) : m.epoch < w.tracker.epoch := by
  have hle := h.le
  have hmle := h.noticed m hm
  by_cases heq : w.checker.activeAndEpoch.epoch = w.tracker.epoch
  · rcases h.fresh heq with hsame | hnil
    · exact absurd hsame.symm hne
    · rw [hnil] at hm
      cases hm
  · omega

/-- The loop notices that it is active again: it sleeps for the first wait. -/
theorem act_notice_of_active (hne : w.tracker ≠ w.checker.activeAndEpoch)
    (hactive : w.tracker.active = true) :
    act config (notice w) =
      { w with
        checker := ⟨.unknown, w.tracker, false, 0, .sleeping (w.now + config.firstWait)⟩
        noticed := w.noticed ++ [⟨w.tracker.epoch, w.now⟩] } := by
  simp [notice, act, onResumed, hne, hactive]

/-- The loop notices that it is paused: it sleeps until its next round. -/
theorem act_notice_of_inactive (hne : w.tracker ≠ w.checker.activeAndEpoch)
    (hactive : w.tracker.active = false) :
    act config (notice w) =
      { w with
        checker := ⟨.unknown, w.tracker, w.checker.needFirstWait, w.checker.consecutiveFailures,
          .sleeping (w.now + config.interval)⟩
        noticed := w.noticed ++ [⟨w.tracker.epoch, w.now⟩] } := by
  simp [notice, act, onPaused, hne, hactive]

/-- A change is noticed: the loop sleeps, for the first wait if it is active again. -/
theorem Sound.changed (h : Sound config w) (hne : w.tracker ≠ w.checker.activeAndEpoch) :
    Sound config (act config (notice w)) := by
  have hmarks (m : Mark) (hm : m ∈ w.noticed ++ [⟨w.tracker.epoch, w.now⟩]) :
      m.epoch ≤ w.tracker.epoch := by
    rcases List.mem_append.mp hm with hm | hm
    · exact (h.earlier hne hm).le
    · rw [List.mem_singleton.mp hm]
  have hstarted (m : Mark) (hm : m ∈ w.started) : m.epoch ≤ w.tracker.epoch ∧
      Waited config (w.noticed ++ [⟨w.tracker.epoch, w.now⟩]) m.epoch m.time := by
    obtain ⟨-, hwaited⟩ := h.started m hm
    obtain ⟨n, hn, hepoch⟩ := hwaited.1
    have hlt := h.earlier hne hn
    rw [hepoch] at hlt
    exact ⟨hlt.le, hwaited.concat hlt⟩
  by_cases hactive : w.tracker.active = true
  · rw [act_notice_of_active hne hactive]
    constructor
    · exact Nat.le_refl _
    · exact fun _ => .inl rfl
    · exact hmarks
    · -- nothing is known of the new epoch
      intro _ _
      refine ⟨w.probes, [], (List.append_nil _).symm, ?_, rfl, ?_, ?_⟩
      · intro r hr
        cases hr
      · intro hstatus
        cases hstatus
      · intro hstatus
        cases hstatus
    · intro _
      refine ⟨rfl, ⟨⟨w.tracker.epoch, w.now⟩, ?_, rfl⟩, fun m hm hepoch => ?_⟩
      · exact List.mem_append_right _ (List.mem_singleton_self _)
      · rcases List.mem_append.mp hm with hm | hm
        · exact absurd hepoch (h.earlier hne hm).ne
        · rw [List.mem_singleton.mp hm]
          exact le_max_right ..
    · intro probe hpc
      cases hpc
    · exact h.published
    · exact hstarted
  · have hinactive : w.tracker.active = false := Bool.eq_false_iff.mpr hactive
    rw [act_notice_of_inactive hne hinactive]
    constructor
    · exact Nat.le_refl _
    · exact fun _ => .inl rfl
    · exact hmarks
    · exact fun _ hnow => absurd hnow hactive
    · exact fun hnow => absurd hnow hactive
    · intro probe hpc
      cases hpc
    · exact h.published
    · exact hstarted

/-- Nothing changed: the loop starts a probe, or sleeps. -/
theorem Sound.same (h : Sound config w) (heq : w.tracker = w.checker.activeAndEpoch)
    (hready : readyAt w = w.now) : Sound config (act config w) := by
  unfold act
  by_cases hactive : w.tracker.active = true
  · obtain ⟨hwait, hwaited⟩ := h.waited (by rw [← heq]; exact hactive)
    rw [if_neg (fun hboth => by rw [hwait] at hboth; exact Bool.false_ne_true hboth.2),
      if_pos hactive]
    rw [hready] at hwaited
    constructor
    · exact h.le
    · exact h.fresh
    · exact h.noticed
    · exact h.verdict
    · exact fun _ => ⟨hwait, hwaited⟩
    · intro probe hpc
      cases hpc
      refine ⟨heq, hactive, fun outcome endEpoch hend => ?_⟩
      cases hend
    · exact h.published
    · intro m hm
      rcases List.mem_append.mp hm with hm | hm
      · exact h.started m hm
      · rw [List.mem_singleton.mp hm]
        show w.tracker.epoch ≤ w.checker.activeAndEpoch.epoch ∧
          Waited config w.noticed w.tracker.epoch w.now
        rw [heq]
        exact ⟨Nat.le_refl _, hwaited⟩
  · rw [if_neg (fun hboth => hactive hboth.1), if_neg hactive]
    constructor
    · exact h.le
    · exact h.fresh
    · exact h.noticed
    · exact fun _ hnow => absurd hnow hactive
    · intro hnow
      rw [show w.checker.activeAndEpoch.active = w.tracker.active by rw [heq]] at hnow
      exact absurd hnow hactive
    · intro probe hpc
      cases hpc
    · exact h.published
    · exact h.started

theorem Sound.wake (h : Sound config w) (hstep : wake config w = some w') : Sound config w' := by
  have hboth (hready : readyAt w = w.now) : Sound config (act config (notice w)) := by
    by_cases heq : w.tracker = w.checker.activeAndEpoch
    · rw [show notice w = w from if_pos heq]
      exact h.same heq hready
    · exact h.changed heq
  unfold HealthChecker.wake at hstep
  split at hstep
  · rename_i hpc
    cases hstep
    exact hboth (by rw [readyAt, hpc])
  · rename_i until_ hpc
    split at hstep
    · rename_i huntil
      cases hstep
      exact hboth (by rw [readyAt, hpc]; exact max_eq_left huntil)
    · cases hstep
  · cases hstep

/-! ## The result of a probe -/

/-- A published result is one more probe of the epoch. -/
theorem Verdict.publish {epoch : Nat} {probes : List ProbeRecord} (h : Verdict config epoch probes c)
    (r : ProbeRecord) (hpublished : r.published = true) (hepoch : r.startEpoch = epoch) :
    Verdict config epoch (probes ++ [r]) (publishResult config c r.success) := by
  obtain ⟨before, failed, hprobes, hfailed, hlength, htrue, hfalse⟩ := h
  unfold publishResult
  by_cases hsuccess : r.success = true
  · rw [if_pos hsuccess]
    refine ⟨probes ++ [r], [], (List.append_nil _).symm, ?_, rfl, ?_, ?_⟩
    · intro q hq
      cases hq
    · intro _
      refine ⟨⟨r, List.getLast?_concat .., hsuccess, hpublished, hepoch⟩, ?_⟩
      exact lt_max_of_lt_right Int.zero_lt_one
    · intro hstatus
      cases hstatus
  · have hfailure : r.success = false := Bool.eq_false_iff.mpr hsuccess
    rw [if_neg hsuccess]
    refine ⟨before, failed ++ [r], by rw [hprobes, List.append_assoc], ?_, ?_, ?_, ?_⟩
    · intro q hq
      rcases List.mem_append.mp hq with hq | hq
      · exact hfailed q hq
      · rw [List.mem_singleton.mp hq]
        exact ⟨hfailure, hepoch⟩
    · rw [List.length_append, hlength]
      rfl
    · intro hstatus
      have hbelow : ¬ config.failureThreshold ≤ (c.consecutiveFailures + 1 : Nat) := by
        intro hreached
        change (if config.failureThreshold ≤ (c.consecutiveFailures + 1 : Nat) then
          TriState.false else c.status) = .true at hstatus
        rw [if_pos hreached] at hstatus
        cases hstatus
      change (if config.failureThreshold ≤ (c.consecutiveFailures + 1 : Nat) then
          TriState.false else c.status) = .true at hstatus
      rw [if_neg hbelow] at hstatus
      refine ⟨(htrue hstatus).1, lt_max_of_lt_left ?_⟩
      rw [List.length_append, hlength]
      exact Int.not_le.mp hbelow
    · intro hstatus
      refine ⟨?_, List.append_ne_nil_of_right_ne_nil _ (List.cons_ne_nil _ _)⟩
      rw [List.length_append, hlength]
      by_cases hreached : config.failureThreshold ≤ (c.consecutiveFailures + 1 : Nat)
      · exact hreached
      · change (if config.failureThreshold ≤ (c.consecutiveFailures + 1 : Nat) then
          TriState.false else c.status) = .false at hstatus
        rw [if_neg hreached] at hstatus
        have hbefore := (hfalse hstatus).1
        rw [hlength] at hbefore
        show config.failureThreshold ≤ ((c.consecutiveFailures + 1 : Nat) : Int)
        omega

/-- The loop compares the epoch with the one of the start: a result of an earlier epoch is
    discarded. -/
theorem Sound.finish (h : Sound config w) {probe : Probe} {outcome : Outcome} {endEpoch : Nat}
    (hpc : w.checker.pc = .probing probe) (hended : probe.ended = some (outcome, endEpoch))
    (success : Bool) : Sound config (finish config w probe.activeAndEpoch endEpoch success) := by
  obtain ⟨hnoticed, hactive, hends⟩ := h.probing probe hpc
  obtain ⟨hstart, hend⟩ := hends outcome endEpoch hended
  have hready : readyAt w = w.now := by rw [readyAt, hpc]
  have hwaited := h.waited (by rw [← hnoticed]; exact hactive)
  rw [hready] at hwaited
  have hlater : w.now ≤ max w.now (w.now + config.interval) := le_max_left ..
  unfold HealthChecker.finish
  by_cases hdiscarded : ¬ w.tracker.active ∨ w.tracker.epoch ≠ probe.activeAndEpoch.epoch
  · have hstale : w.checker.activeAndEpoch ≠ w.tracker := by
      intro heq
      rw [hnoticed, heq] at hdiscarded hactive
      rcases hdiscarded with hdiscarded | hdiscarded
      · exact hdiscarded hactive
      · exact hdiscarded rfl
    simp only [if_pos hdiscarded]
    constructor
    · exact h.le
    · exact h.fresh
    · exact h.noticed
    · exact fun heq => absurd heq hstale
    · exact fun _ => ⟨hwaited.1, hwaited.2.mono hlater⟩
    · intro probe hprobe
      cases hprobe
    · intro r hr hpublished
      rcases List.mem_append.mp hr with hr | hr
      · exact h.published r hr hpublished
      · rw [List.mem_singleton.mp hr] at hpublished
        exact absurd hdiscarded (of_decide_eq_true hpublished)
    · exact h.started
  · have hsame : w.tracker.epoch = probe.activeAndEpoch.epoch := by
      by_contra hne
      exact hdiscarded (.inr hne)
    have hnow : w.tracker.active = true := by
      by_contra hne
      exact hdiscarded (.inl hne)
    -- both are active and of one epoch
    have heq : w.checker.activeAndEpoch = w.tracker := by
      rw [← hnoticed]
      exact ActiveAndEpoch.ext (by rw [hactive, hnow]) hsame.symm
    simp only [if_neg hdiscarded]
    have hkept (c : Checker) : (publishResult config c success).activeAndEpoch = c.activeAndEpoch ∧
        (publishResult config c success).needFirstWait = c.needFirstWait := by
      unfold publishResult
      split
      · exact ⟨rfl, rfl⟩
      · exact ⟨rfl, rfl⟩
    obtain ⟨hkeptEpoch, hkeptWait⟩ := hkept w.checker
    constructor
    · show (publishResult config w.checker success).activeAndEpoch.epoch ≤ w.tracker.epoch
      rw [hkeptEpoch]
      exact h.le
    · exact fun _ => .inl (by show (publishResult config w.checker success).activeAndEpoch = _
                              rw [hkeptEpoch, heq])
    · intro m hm
      show m.epoch ≤ (publishResult config w.checker success).activeAndEpoch.epoch
      rw [hkeptEpoch]
      exact h.noticed m hm
    · intro _ _
      exact (h.verdict heq hnow).publish ⟨probe.activeAndEpoch.epoch, endEpoch, success, _⟩
        (decide_eq_true hdiscarded) hsame.symm
    · intro _
      show (publishResult config w.checker success).needFirstWait = false ∧
        Waited config w.noticed (publishResult config w.checker success).activeAndEpoch.epoch
          (max w.now (w.now + config.interval))
      rw [hkeptEpoch, hkeptWait]
      exact ⟨hwaited.1, hwaited.2.mono hlater⟩
    · intro probe hprobe
      cases hprobe
    · intro r hr hpublished
      rcases List.mem_append.mp hr with hr | hr
      · exact h.published r hr hpublished
      · rw [List.mem_singleton.mp hr]
        show endEpoch = probe.activeAndEpoch.epoch
        omega
    · intro m hm
      show m.epoch ≤ (publishResult config w.checker success).activeAndEpoch.epoch ∧
        Waited config w.noticed m.epoch m.time
      rw [hkeptEpoch]
      exact h.started m hm

theorem Sound.resume (h : Sound config w) (hstep : resume config w = some w') :
    Sound config w' := by
  unfold HealthChecker.resume at hstep
  split at hstep
  · rename_i hpc
    cases hstep
    exact h.finish hpc rfl true
  · rename_i hpc
    cases hstep
    exact h.finish hpc rfl false
  · rename_i hpc
    cases hstep
    have hready : readyAt w = w.now := by rw [readyAt, hpc]
    refine ⟨h.le, h.fresh, h.noticed, h.verdict, fun hactive => ?_, fun probe hprobe => ?_,
      h.published, h.started⟩
    · have hwaited := h.waited hactive
      rw [hready] at hwaited
      exact hwaited
    · cases hprobe
  · cases hstep

/-- Every step keeps the verdict on probes of the noticed epoch. -/
theorem Sound.step (h : Sound config w) {event : Event} (hstep : step config w event = some w') :
    Sound config w' := by
  cases event with
  | bump active =>
    cases hstep
    exact h.bump active
  | elapse seconds =>
    simp only [HealthChecker.step] at hstep
    split at hstep
    · rename_i hseconds
      cases hstep
      exact h.elapse hseconds
    · cases hstep
  | wake => exact h.wake hstep
  | endProbe outcome => exact h.endProbe hstep
  | timeOut => exact h.timeOut hstep
  | resume => exact h.resume hstep

/-! ## Every run -/

theorem sound_of_run {active : Bool} {events : List Event}
    (hrun : Lts.run (HealthChecker.step config) (World.initial active) events = some w) :
    Sound config w :=
  Lts.run_invariant (fun _ _ _ h hstep => h.step hstep) (Sound.initial active) hrun

/-- What a checker says at a time rests on the last probes, all of the epoch at that time. -/
theorem Sound.verdict_of_status (h : Sound config w) (hstatus : status w ≠ .unknown) :
    Verdict config w.tracker.epoch w.probes w.checker ∧ status w = w.checker.status := by
  unfold status at hstatus ⊢
  split at hstatus
  · exact absurd rfl hstatus
  · rename_i hcurrent
    have hactive : w.tracker.active = true := by
      by_contra hne
      exact hcurrent (.inl hne)
    have hsame : w.tracker = w.checker.activeAndEpoch := by
      by_contra hne
      exact hcurrent (.inr hne)
    exact ⟨h.verdict hsame.symm hactive, if_neg hcurrent⟩

/-- In every run and at every time: a status of true stands for a probe that started and succeeded
    in the current epoch, after which fewer probes failed than the threshold (none, for a threshold
    below two) and nothing else ended; a status of false for as many failed probes of the current
    epoch, with nothing after them; a result is published only if the epoch at its end is the one
    of its start; and a probe starts no sooner than the first wait after its epoch was noticed. -/
theorem verdicts_of_current_epoch (config : Config) (active : Bool) (events : List Event)
    (w : World)
    (hrun : Lts.run (HealthChecker.step config) (World.initial active) events = some w) :
    (status w = .true → ∃ before r failed, w.probes = before ++ r :: failed ∧
      r.SucceededIn w.tracker.epoch ∧ (∀ q ∈ failed, q.FailedIn w.tracker.epoch) ∧
      (failed.length : Int) < max config.failureThreshold 1) ∧
    (status w = .false → ∃ before failed, w.probes = before ++ failed ∧
      (∀ q ∈ failed, q.FailedIn w.tracker.epoch) ∧ config.failureThreshold ≤ failed.length) ∧
    (∀ r ∈ w.probes, r.published = true → r.endEpoch = r.startEpoch) ∧
    ∀ m ∈ w.started, (∃ n ∈ w.noticed, n.epoch = m.epoch) ∧
      ∀ n ∈ w.noticed, n.epoch = m.epoch → n.time + config.firstWait ≤ m.time := by
  have h := sound_of_run hrun
  refine ⟨fun hstatus => ?_, fun hstatus => ?_, h.published, fun m hm => (h.started m hm).2⟩
  · obtain ⟨hverdict, hsame⟩ := h.verdict_of_status (by rw [hstatus]; decide)
    obtain ⟨before, failed, hprobes, hfailed, -, htrue, -⟩ := hverdict
    obtain ⟨hsucceeded, hfewer⟩ := htrue (by rw [← hsame, hstatus])
    obtain ⟨r, hlast, hr⟩ := hsucceeded
    obtain ⟨front, hfront⟩ := List.getLast?_eq_some_iff.mp hlast
    exact ⟨front, r, failed, by rw [hprobes, hfront, List.append_assoc]; rfl, hr, hfailed, hfewer⟩
  · obtain ⟨hverdict, hsame⟩ := h.verdict_of_status (by rw [hstatus]; decide)
    obtain ⟨before, failed, hprobes, hfailed, -, -, hfalse⟩ := hverdict
    exact ⟨before, failed, hprobes, hfailed, (hfalse (by rw [← hsame, hstatus])).1⟩

/-- Three failed probes in a row after a success, with the default threshold. -/
theorem verdicts_after_three_failures :
    ∃ w, Lts.run (HealthChecker.step ⟨10, 10, 300, 3⟩) (World.initial true)
        [.wake, .elapse 300, .wake, .endProbe .success, .resume, .elapse 10, .wake,
          .endProbe .failure, .resume, .elapse 10, .wake, .elapse 10, .timeOut, .resume, .elapse 10,
          .wake, .endProbe .failure, .resume] = some w ∧
      status w = .false ∧ ∃ before failed, w.probes = before ++ failed ∧
        (∀ q ∈ failed, q.FailedIn w.tracker.epoch) ∧ (3 : Int) ≤ failed.length := by
  have hreached : (Lts.run (HealthChecker.step ⟨10, 10, 300, 3⟩) (World.initial true)
      [.wake, .elapse 300, .wake, .endProbe .success, .resume, .elapse 10, .wake,
        .endProbe .failure, .resume, .elapse 10, .wake, .elapse 10, .timeOut, .resume, .elapse 10,
        .wake, .endProbe .failure, .resume]).map status = some .false := by decide +kernel
  obtain ⟨w, hrun, hstatus⟩ := Option.map_eq_some_iff.mp hreached
  exact ⟨w, hrun, hstatus, (verdicts_of_current_epoch _ _ _ w hrun).2.1 hstatus⟩

/-- With a threshold of zero a status of true cannot have fewer failed probes after it. -/
theorem true_with_zero_threshold :
    ∃ w, Lts.run (HealthChecker.step ⟨10, 10, 300, 0⟩) (World.initial true)
        [.wake, .elapse 300, .wake, .endProbe .success, .resume] = some w ∧
      status w = .true ∧ ¬ ∃ before r failed, w.probes = before ++ r :: failed ∧
        r.SucceededIn w.tracker.epoch ∧ (∀ q ∈ failed, q.FailedIn w.tracker.epoch) ∧
        (failed.length : Int) < 0 := by
  have hreached : (Lts.run (HealthChecker.step ⟨10, 10, 300, 0⟩) (World.initial true)
      [.wake, .elapse 300, .wake, .endProbe .success, .resume]).map status = some .true := by
    decide +kernel
  obtain ⟨w, hrun, hstatus⟩ := Option.map_eq_some_iff.mp hreached
  refine ⟨w, hrun, hstatus, fun h => ?_⟩
  obtain ⟨before, r, failed, -, -, -, hfewer⟩ := h
  omega

end Miles.HealthChecker
