import Miles.Native.Concurrency.Parker

/-!
# When the followers stay parked

The counter is the number of parked followers as long as no follower is cancelled while it is
parked; each such cancellation leaves it one too high for good.
-/

namespace Miles.Parker

variable {numFollowers : Nat} {w w' : World numFollowers} {f : Fin numFollowers}

/-! ## The parked followers -/

/-- The follower is at `await self._event.wait()`. -/
def FollowerPc.IsParked : FollowerPc → Prop
  | .parked _ => True
  | _ => False

instance : DecidablePred FollowerPc.IsParked
  | .parked _ => .isTrue trivial
  | .outside => .isFalse id
  | .yielding => .isFalse id

/-- How many followers are parked. -/
def numParked (w : World numFollowers) : Nat :=
  (Finset.univ.filter fun f => (w.follower f).IsParked).card

/-- How much the counter is ahead of the parked followers. -/
def drift (w : World numFollowers) : Int := w.numReady - numParked w

/-- A follower moves: the number of parked followers follows. -/
theorem numParked_update (follower : Fin numFollowers → FollowerPc) (f : Fin numFollowers)
    (pc : FollowerPc) :
    (Finset.univ.filter fun g => (Function.update follower f pc g).IsParked).card +
        (if (follower f).IsParked then 1 else 0) =
      (Finset.univ.filter fun g => (follower g).IsParked).card + if pc.IsParked then 1 else 0 := by
  rw [Finset.card_filter, Finset.card_filter, ← Finset.sum_erase_add _ _ (Finset.mem_univ f),
    ← Finset.sum_erase_add _ (fun g => if (follower g).IsParked then 1 else 0) (Finset.mem_univ f),
    Function.update_self]
  have hothers : ∑ g ∈ Finset.univ.erase f,
        (if (Function.update follower f pc g).IsParked then 1 else 0) =
      ∑ g ∈ Finset.univ.erase f, if (follower g).IsParked then 1 else 0 := by
    apply Finset.sum_congr rfl
    intro g hg
    rw [Function.update_of_ne (Finset.ne_of_mem_erase hg)]
  rw [hothers]
  omega

@[simp] theorem isParked_wake (pc : FollowerPc) : pc.wake.IsParked ↔ pc.IsParked := by
  cases pc <;> rfl

@[simp] theorem numParked_setEvent (w : World numFollowers) :
    numParked (setEvent w) = numParked w := by
  unfold setEvent
  split
  · rfl
  · simp [numParked]

@[simp] theorem numReady_setEvent (w : World numFollowers) :
    (setEvent w).numReady = w.numReady := by
  unfold setEvent
  split <;> rfl

/-- Nobody is parked, or everybody is. -/
theorem numParked_eq_zero : numParked w = 0 ↔ ∀ f, ¬ (w.follower f).IsParked := by
  simp [numParked, Finset.filter_eq_empty_iff]

theorem numParked_eq_all : numParked w = numFollowers ↔ ∀ f, (w.follower f).IsParked := by
  have hcard : (Finset.univ : Finset (Fin numFollowers)).card = numFollowers := by simp
  constructor
  · intro h f
    have hall := Finset.eq_of_subset_of_card_le
      (Finset.filter_subset (fun f => (w.follower f).IsParked) Finset.univ)
      (by rw [hcard]; exact h.ge)
    have hf := Finset.mem_univ f
    rw [← hall, Finset.mem_filter] at hf
    exact hf.2
  · intro h
    show (Finset.univ.filter fun f => (w.follower f).IsParked).card = numFollowers
    rw [Finset.filter_true_of_mem fun f _ => h f, hcard]

/-! ## The drift of the counter -/

/-- A follower is cancelled while it is parked. -/
def CancelsParked (w : World numFollowers) : Event numFollowers → Prop
  | .cancel f => (w.follower f).IsParked
  | _ => False

instance (w : World numFollowers) : DecidablePred (CancelsParked w)
  | .cancel f => inferInstanceAs (Decidable (w.follower f).IsParked)
  | .enter _ _ => .isFalse id
  | .poll _ _ => .isFalse id
  | .leave => .isFalse id
  | .cancelLeader => .isFalse id
  | .arrive _ => .isFalse id
  | .resume _ => .isFalse id

/-- The leader moves nobody in or out of the wait. -/
theorem drift_gather (w : World numFollowers) (deadline now : ℚ) :
    drift (gather w deadline now) = drift w := by
  unfold gather
  split
  · rfl
  · rfl
  · show (setEvent w).numReady - (numParked (setEvent w) : Int) = drift w
    rw [numReady_setEvent, numParked_setEvent]
    rfl

theorem drift_disperse (w : World numFollowers) (deadline now : ℚ) (second : Reading) :
    drift (disperse w deadline now second) = drift w := by
  unfold disperse
  split
  · rw [drift_gather]
    rfl
  · rfl
  · rfl

/-- A follower's move and what it does to the counter. -/
theorem drift_move {pc : FollowerPc} (hmove : w'.follower = Function.update w.follower f pc) :
    drift w' = drift w + (w'.numReady - w.numReady) +
      (if (w.follower f).IsParked then 1 else 0) - if pc.IsParked then 1 else 0 := by
  have hcount := numParked_update w.follower f pc
  rw [← hmove] at hcount
  change numParked w' + _ = numParked w + _ at hcount
  unfold drift
  split_ifs at hcount ⊢ <;> omega

/-- Only the cancellation of a parked follower moves the counter away from the parked followers. -/
theorem drift_step {event : Event numFollowers} (hstep : step w event = some w') :
    drift w' = drift w + if CancelsParked w event then 1 else 0 := by
  cases event with
  | enter first second =>
    simp only [step, withAllParked] at hstep
    split at hstep
    · cases hstep
      rw [drift_disperse]
      exact (Int.add_zero _).symm
    · cases hstep
  | poll now second =>
    simp only [step, poll] at hstep
    split at hstep
    · cases hstep
      rw [drift_disperse]
      exact (Int.add_zero _).symm
    · cases hstep
      rw [drift_gather]
      exact (Int.add_zero _).symm
    · cases hstep
  | leave =>
    simp only [step, leave] at hstep
    split at hstep
    · cases hstep
      show (setEvent w).numReady - (numParked (setEvent w) : Int) = drift w + 0
      rw [numReady_setEvent, numParked_setEvent]
      exact (Int.add_zero _).symm
    · cases hstep
  | cancelLeader =>
    simp only [step, cancelLeader] at hstep
    split at hstep
    · cases hstep
      exact (Int.add_zero _).symm
    · cases hstep
      show (setEvent w).numReady - (numParked (setEvent w) : Int) = drift w + 0
      rw [numReady_setEvent, numParked_setEvent]
      exact (Int.add_zero _).symm
    · cases hstep
  | arrive f =>
    simp only [step, maybeParkFollower] at hstep
    split at hstep
    · rename_i hpc
      cases hstep
      rw [@drift_move _ w _ f .yielding rfl, hpc]
      show drift w + (w.numReady - w.numReady) + 0 - 0 = drift w + 0
      omega
    · cases hstep
  | resume f =>
    simp only [step, resume] at hstep
    split at hstep
    · rename_i hpc
      split at hstep
      · cases hstep
        rw [@drift_move _ w _ f .outside rfl, hpc]
        show drift w + (w.numReady + 1 - 1 - w.numReady) + 0 - 0 = drift w + 0
        omega
      · cases hstep
        -- the follower and the counter move together
        rw [@drift_move _ w _ f (.parked false) rfl, hpc]
        show drift w + (w.numReady + 1 - w.numReady) + 0 - 1 = drift w + 0
        omega
    · rename_i hpc
      cases hstep
      rw [@drift_move _ w _ f .outside rfl, hpc]
      show drift w + (w.numReady - 1 - w.numReady) + 1 - 0 = drift w + 0
      omega
    · cases hstep
  | cancel f =>
    simp only [step, cancel] at hstep
    split at hstep
    · cases hstep
    · cases hstep
      rw [@drift_move _ w _ f .outside rfl]
      show drift w + (w.numReady - w.numReady) + (if (w.follower f).IsParked then 1 else 0) - 0 =
        drift w + if (w.follower f).IsParked then 1 else 0
      omega

/-! ## Runs without such a cancellation -/

@[simp] theorem event_setEvent (w : World numFollowers) : (setEvent w).event = true := by
  unfold setEvent
  split
  · assumption
  · rfl

/-- The counter is right; while the event is clear nobody is on its way out, and the body runs with
    every follower parked. -/
structure Settled (w : World numFollowers) : Prop where
  counted : drift w = 0
  held : w.event = false → ∀ f, w.follower f ≠ .parked true
  gathering : ∀ deadline, w.leader = .gathering deadline → w.event = false
  body : w.leader = .body → w.event = false ∧ ∀ f, (w.follower f).IsParked

theorem Settled.numReady (h : Settled w) : w.numReady = numParked w := by
  have hcounted := h.counted
  unfold drift at hcounted
  omega

theorem drift_initial : drift (World.initial numFollowers) = 0 := by
  have hzero : numParked (World.initial numFollowers) = 0 := numParked_eq_zero.mpr fun _ => id
  show (0 : Int) - (numParked (World.initial numFollowers) : Int) = 0
  rw [hzero]
  rfl

theorem Settled.initial : Settled (World.initial numFollowers) := by
  constructor
  · exact drift_initial
  · intro h
    cases h
  · intro deadline h
    cases h
  · intro h
    cases h

/-- The event is set and the leader has left. -/
theorem Settled.of_outside (h : drift w = 0) (hevent : w.event = true)
    (hleader : w.leader = .outside) : Settled w := by
  constructor
  · exact h
  · intro hclear
    rw [hevent] at hclear
    cases hclear
  · intro deadline hgathering
    rw [hleader] at hgathering
    cases hgathering
  · intro hbody
    rw [hleader] at hbody
    cases hbody

/-- A round of the second wait: the body starts only when all are counted, hence parked. -/
theorem Settled.gather (h : drift w = 0) (hevent : w.event = false)
    (hheld : ∀ f, w.follower f ≠ .parked true) (deadline now : ℚ) :
    Settled (gather w deadline now) := by
  have hcounted : drift (Parker.gather w deadline now) = 0 := by rw [drift_gather, h]
  unfold Parker.gather waitNumReady at hcounted ⊢
  by_cases hready : w.numReady = numFollowers
  · rw [if_pos hready] at hcounted ⊢
    have hall : numParked w = numFollowers := by
      unfold drift at h
      omega
    exact ⟨hcounted, fun _ => hheld, fun _ _ => hevent,
      fun _ => ⟨hevent, numParked_eq_all.mp hall⟩⟩
  · rw [if_neg hready] at hcounted ⊢
    split_ifs at hcounted ⊢
    · refine ⟨hcounted, fun _ => hheld, fun _ _ => hevent, fun hbody => ?_⟩
      cases hbody
    · exact .of_outside hcounted (event_setEvent w) rfl

/-- A round of the first wait: the event is cleared only when nobody is parked. -/
theorem Settled.disperse (h : Settled w) (deadline now : ℚ) (second : Reading) :
    Settled (disperse w deadline now second) := by
  unfold Parker.disperse waitNumReady
  by_cases hready : w.numReady = 0
  · rw [if_pos hready]
    have hnone : numParked w = 0 := by
      have hcounted := h.numReady
      omega
    apply Settled.gather
    · exact h.counted
    · rfl
    · intro f hf
      apply numParked_eq_zero.mp hnone f
      rw [show w.follower f = .parked true from hf]
      trivial
  · rw [if_neg hready]
    split_ifs
    · refine ⟨h.counted, h.held, fun _ hgathering => ?_, fun hbody => ?_⟩
      · cases hgathering
      · cases hbody
    · refine ⟨h.counted, h.held, fun _ hgathering => ?_, fun hbody => ?_⟩
      · cases hgathering
      · cases hbody

/-- A follower that was not parked moves while the leader is not in the body. -/
theorem Settled.move (h : Settled w) (hparked : ¬ (w.follower f).IsParked) {pc : FollowerPc}
    (hpc : pc ≠ .parked true) {numReady : Int}
    (hdrift : drift { w.move f pc with numReady := numReady } = 0) :
    Settled { w.move f pc with numReady := numReady } := by
  constructor
  · exact hdrift
  · intro hevent g
    show Function.update w.follower f pc g ≠ .parked true
    by_cases hg : g = f
    · subst hg
      rw [Function.update_self]
      exact hpc
    · rw [Function.update_of_ne hg]
      exact h.held hevent g
  · exact h.gathering
  · intro hbody
    exact absurd ((h.body hbody).2 f) hparked

/-- Every step but the cancellation of a parked follower. -/
theorem Settled.step (h : Settled w) {event : Event numFollowers}
    (hcancel : ¬ CancelsParked w event) (hstep : step w event = some w') : Settled w' := by
  have hdrift : drift w' = 0 := by rw [drift_step hstep, h.counted, if_neg hcancel]; rfl
  cases event with
  | enter first second =>
    simp only [Parker.step, withAllParked] at hstep
    split at hstep
    · cases hstep
      exact h.disperse ..
    · cases hstep
  | poll now second =>
    simp only [Parker.step, poll] at hstep
    split at hstep
    · cases hstep
      exact h.disperse ..
    · rename_i deadline hleader
      cases hstep
      have hevent := h.gathering deadline hleader
      exact .gather h.counted hevent (h.held hevent) ..
    · cases hstep
  | leave =>
    simp only [Parker.step, leave] at hstep
    split at hstep
    · cases hstep
      exact .of_outside hdrift (event_setEvent w) rfl
    · cases hstep
  | cancelLeader =>
    simp only [Parker.step, cancelLeader] at hstep
    split at hstep
    · cases hstep
      refine ⟨hdrift, h.held, fun _ hgathering => ?_, fun hbody => ?_⟩
      · cases hgathering
      · cases hbody
    · cases hstep
      exact .of_outside hdrift (event_setEvent w) rfl
    · cases hstep
  | arrive f =>
    simp only [Parker.step, maybeParkFollower] at hstep
    split at hstep
    · rename_i hpc
      cases hstep
      apply h.move
      · rw [hpc]
        exact id
      · decide
      · exact hdrift
    · cases hstep
  | resume f =>
    simp only [Parker.step, resume] at hstep
    split at hstep
    · rename_i hpc
      have hparked : ¬ (w.follower f).IsParked := by
        rw [hpc]
        exact id
      split at hstep
      · cases hstep
        exact h.move hparked (by decide) hdrift
      · cases hstep
        exact h.move hparked (by decide) hdrift
    · rename_i hpc
      cases hstep
      -- the follower was woken, so the event is set
      have hevent : w.event ≠ false := fun hclear => h.held hclear f hpc
      refine ⟨hdrift, fun hclear => absurd hclear hevent,
        fun deadline hgathering => h.gathering deadline hgathering, fun hbody => ?_⟩
      exact absurd (h.body hbody).1 hevent
    · cases hstep
  | cancel f =>
    simp only [Parker.step, cancel] at hstep
    split at hstep
    · cases hstep
    · cases hstep
      exact h.move hcancel (by decide) hdrift

/-! ## Every run -/

/-- The leader is in the body only with every follower parked, none of them on its way out, and the
    counter is the number of parked followers. -/
def Holds (w : World numFollowers) : Prop :=
  (w.leader = .body → ∀ f, w.follower f = .parked false) ∧ w.numReady = numParked w

theorem Settled.holds (h : Settled w) : Holds w := by
  refine ⟨fun hbody f => ?_, h.numReady⟩
  obtain ⟨hevent, hall⟩ := h.body hbody
  have hparked := hall f
  have hheld := h.held hevent f
  cases hpc : w.follower f with
  | outside =>
    rw [hpc] at hparked
    exact hparked.elim
  | yielding =>
    rw [hpc] at hparked
    exact hparked.elim
  | parked woken =>
    cases woken with
    | false => rfl
    | true => exact absurd hpc hheld

/-- The counter is never behind the parked followers. -/
theorem drift_nonneg {events : List (Event numFollowers)}
    (hrun : Lts.run step (World.initial numFollowers) events = some w) : 0 ≤ drift w := by
  have hnonneg (s : World numFollowers) (event : Event numFollowers) (s' : World numFollowers)
      (hs : 0 ≤ drift s) (hstep : step s event = some s') : 0 ≤ drift s' := by
    rw [drift_step hstep]
    split <;> omega
  exact Lts.run_invariant (I := fun s => 0 ≤ drift s) hnonneg drift_initial.ge hrun

/-- A parked follower can be cancelled. -/
theorem exists_step_of_cancelsParked {event : Event numFollowers} (h : CancelsParked w event) :
    ∃ w', step w event = some w' := by
  cases event with
  | cancel f =>
    change (w.follower f).IsParked at h
    show ∃ w', cancel w f = some w'
    unfold cancel
    split
    · rename_i hpc
      rw [hpc] at h
      exact h.elim
    · exact ⟨_, rfl⟩
  | _ => exact h.elim

/-- For every number of followers and in every run: the leader is in the body only while all
    followers are parked, and the counter is the number of parked followers, in every state iff no
    follower is cancelled while it is parked. -/
theorem parked_iff_no_cancel (numFollowers : Nat) (events : List (Event numFollowers)) :
    Lts.StatesWhere step Holds (World.initial numFollowers) events ↔
      Lts.StepsWhere step (fun w event => ¬ CancelsParked w event) (World.initial numFollowers)
        events := by
  constructor
  · intro h
    rw [Lts.stepsWhere_iff]
    intro pre event post w hsplit hrun hcancel
    -- the state after such a cancellation has a counter that is ahead
    obtain ⟨w', hstep⟩ := exists_step_of_cancelsParked hcancel
    have hnext : Lts.run step (World.initial numFollowers) (pre ++ [event]) = some w' :=
      Lts.run_concat.mpr ⟨w, hrun, hstep⟩
    have hready := (h (pre ++ [event]) post w' (by rw [hsplit, List.append_cons]) hnext).2
    have hdrift := drift_step hstep
    rw [if_pos hcancel] at hdrift
    have hnonneg := drift_nonneg hrun
    unfold drift at hdrift hnonneg
    omega
  · intro h pre post w hsplit hrun
    have hsettled := Lts.statesWhere_of_stepsWhere (I := Settled)
      (fun s event s' hs hcancel hstep => hs.step hcancel hstep) Settled.initial h
    exact (hsettled pre post w hsplit hrun).holds

/-- The first of two followers is cancelled while it is parked; when the second one parks, the
    leader starts the body with the first one outside. -/
theorem body_with_follower_outside :
    ∃ w, Lts.run step (World.initial 2)
        [.enter ⟨0, 0⟩ ⟨0, 0⟩, .arrive 0, .resume 0, .cancel 0, .arrive 1, .resume 1,
          .poll 1 ⟨0, 0⟩] = some w ∧
      w.leader = .body ∧ w.follower 0 = .outside ∧ w.numReady = 2 ∧ ¬ Holds w := by
  have hreached : (Lts.run step (World.initial 2)
      [.enter ⟨0, 0⟩ ⟨0, 0⟩, .arrive 0, .resume 0, .cancel 0, .arrive 1, .resume 1,
        .poll 1 ⟨0, 0⟩]).map (fun w => (w.leader, w.follower 0, w.numReady)) =
      some (.body, .outside, 2) := by decide +kernel
  obtain ⟨w, hrun, hw⟩ := Option.map_eq_some_iff.mp hreached
  obtain ⟨hleader, hrest⟩ := Prod.mk.inj hw
  obtain ⟨hfollower, hready⟩ := Prod.mk.inj hrest
  refine ⟨w, hrun, hleader, hfollower, hready, fun h => ?_⟩
  have hparked := h.1 hleader 0
  rw [hfollower] at hparked
  cases hparked

end Miles.Parker
