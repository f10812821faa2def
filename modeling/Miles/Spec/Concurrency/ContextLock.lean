import Miles.Native.Concurrency.ContextLock

/-!
# One live grant at a time

Each lock issues its grants with growing generations. A grant is live from when it is issued to when
the context that carries it releases or detaches the lock.
-/

namespace Miles.ContextLock

variable {Task Lock : Type} {w w' : World Task Lock} {t : Task} {s : TaskState Lock} {l : Lock}

/-! ## A lock by itself -/

/-- The flags of a lock and its live grant: at most one, the last that was issued. -/
structure Consistent (state : LockState Task) : Prop where
  live : state.live = state.activeGeneration.toList
  active : ∀ generation, state.activeGeneration = some generation →
    generation = state.generationCounter ∧ state.locked = true ∧ state.detached = false
  detached : state.detached = true → state.locked = true ∧ state.activeGeneration = none

/-- What a step can do to a lock; `s` is the state of the task that takes the step. -/
inductive Change (s : TaskState Lock) (l : Lock) (reattaches : Prop) :
    LockState Task → LockState Task → Prop
  | queue (state : LockState Task) (waiters : List Task) :
      Change s l reattaches state { state with waiters := waiters }
  | grant (state : LockState Task) (waiters : List Task) (hfree : state.locked = false) :
      Change s l reattaches state
        (issueGeneration { state with locked := true, waiters := waiters })
  | release (state : LockState Task) (generation : Nat)
      (hactive : state.activeGeneration = some generation)
      (hheld : s.heldLock = some ⟨l, generation⟩) :
      Change s l reattaches state { endGrant state s with locked := false }
  | detach (state : LockState Task) (generation : Nat)
      (hactive : state.activeGeneration = some generation)
      (hheld : s.heldLock = some ⟨l, generation⟩) :
      Change s l reattaches state { endGrant state s with detached := true }
  | reattach (state : LockState Task) (hre : reattaches) (hdetached : state.detached = true)
      (hlocked : state.locked = true) :
      Change s l reattaches state (issueGeneration { state with detached := false })
  /-- A grant that is given back in the same step. -/
  | releaseDetached (state : LockState Task) (hre : reattaches) (hdetached : state.detached = true)
      (holder : TaskState Lock) (hheld : holder.heldLock = some ⟨l, state.generationCounter + 1⟩) :
      Change s l reattaches state
        { endGrant (issueGeneration { state with detached := false }) holder with locked := false }

variable {reattaches : Prop} {state state' : LockState Task}

/-- The end of the live grant leaves none. -/
theorem Consistent.live_endGrant (h : Consistent state) {generation : Nat}
    (hactive : state.activeGeneration = some generation)
    (hheld : s.heldLock = some ⟨l, generation⟩) : (endGrant state s).live = [] := by
  show state.live.filter (fun g => decide ((s.heldLock.map Grant.generation) ≠ some g)) = []
  rw [h.live, hactive, hheld]
  simp

theorem Consistent.issue (h : Consistent state) (hnone : state.activeGeneration = none)
    (hlocked : state'.locked = true) (hdetached : state'.detached = false)
    (hlive : state'.live = state.live) : Consistent (issueGeneration state') := by
  constructor
  · show state'.live ++ [state'.generationCounter + 1] = [state'.generationCounter + 1]
    rw [hlive, h.live, hnone]
    rfl
  · intro generation hactive
    exact ⟨(Option.some.inj hactive).symm, hlocked, hdetached⟩
  · intro hset
    rw [show (issueGeneration state').detached = state'.detached from rfl, hdetached] at hset
    cases hset

/-- A lock that is free has no live grant and is not detached. -/
theorem Consistent.of_unlocked (h : Consistent state) (hfree : state.locked = false) :
    state.activeGeneration = none ∧ state.detached = false := by
  constructor
  · cases hactive : state.activeGeneration with
    | none => rfl
    | some generation =>
      have hlocked := (h.active generation hactive).2.1
      rw [hfree] at hlocked
      cases hlocked
  · cases hdetached : state.detached with
    | false => rfl
    | true =>
      have hlocked := (h.detached hdetached).1
      rw [hfree] at hlocked
      cases hlocked

/-- A change keeps the flags of a lock in step with its live grant. -/
theorem Consistent.change (h : Consistent state) (hchange : Change s l reattaches state state') :
    Consistent state' := by
  cases hchange with
  | queue waiters => exact ⟨h.live, h.active, h.detached⟩
  | grant waiters hfree =>
    obtain ⟨hnone, hdetached⟩ := h.of_unlocked hfree
    exact h.issue hnone rfl hdetached rfl
  | release generation hactive hheld =>
    constructor
    · exact h.live_endGrant hactive hheld
    · intro g hg
      cases hg
    · intro hdetached
      have hset := (h.active generation hactive).2.2
      rw [show state.detached = true from hdetached] at hset
      cases hset
  | detach generation hactive hheld =>
    constructor
    · exact h.live_endGrant hactive hheld
    · intro g hg
      cases hg
    · exact fun _ => ⟨(h.active generation hactive).2.1, rfl⟩
  | reattach hre hdetached hlocked =>
    exact h.issue (h.detached hdetached).2 hlocked rfl rfl
  | releaseDetached hre hdetached holder hheld =>
    have hissued : Consistent (issueGeneration { state with detached := false }) :=
      h.issue (h.detached hdetached).2 (h.detached hdetached).1 rfl rfl
    constructor
    · exact hissued.live_endGrant rfl hheld
    · intro g hg
      cases hg
    · intro hset
      cases hset

/-- A lock issues no generation twice: one that is not live stays so. -/
theorem Change.not_live (h : Change s l reattaches state state') {generation : Nat}
    (hold : generation ≤ state.generationCounter) (hdead : generation ∉ state.live) :
    generation ≤ state'.generationCounter ∧ generation ∉ state'.live := by
  have hissued (held : LockState Task) (hcounter : held.generationCounter = state.generationCounter)
      (hlive : held.live = state.live) :
      generation ≤ (issueGeneration held).generationCounter ∧
        generation ∉ (issueGeneration held).live := by
    constructor
    · show generation ≤ held.generationCounter + 1
      omega
    · show generation ∉ held.live ++ [held.generationCounter + 1]
      rw [hlive, hcounter, List.mem_append, List.mem_singleton]
      intro hin
      rcases hin with hin | hin
      · exact hdead hin
      · omega
  cases h with
  | queue waiters => exact ⟨hold, hdead⟩
  | grant waiters hfree => exact hissued _ rfl rfl
  | release g hactive hheld => exact ⟨hold, fun hin => hdead (List.mem_of_mem_filter hin)⟩
  | detach g hactive hheld => exact ⟨hold, fun hin => hdead (List.mem_of_mem_filter hin)⟩
  | reattach hre hdetached hlocked => exact hissued _ rfl rfl
  | releaseDetached hre hdetached holder hheld =>
    obtain ⟨hle, hnot⟩ := hissued { state with detached := false } rfl rfl
    exact ⟨hle, fun hin => hnot (List.mem_of_mem_filter hin)⟩

/-- A live grant is ended only by a task whose context carries it. -/
theorem Change.ended (hstate : Consistent state) (h : Change s l reattaches state state')
    {generation : Nat} (hlive : generation ∈ state.live) (hended : generation ∉ state'.live) :
    s.heldLock = some ⟨l, generation⟩ := by
  have hactive : state.activeGeneration = some generation := by
    rw [hstate.live] at hlive
    exact Option.mem_toList.mp hlive
  cases h with
  | queue waiters => exact absurd hlive hended
  | grant waiters hfree =>
    rw [(hstate.of_unlocked hfree).1] at hactive
    cases hactive
  | release g hg hheld =>
    rw [hg] at hactive
    rw [hheld, Option.some.inj hactive]
  | detach g hg hheld =>
    rw [hg] at hactive
    rw [hheld, Option.some.inj hactive]
  | reattach hre hdetached hlocked =>
    rw [(hstate.detached hdetached).2] at hactive
    cases hactive
  | releaseDetached hre hdetached holder hheld =>
    rw [(hstate.detached hdetached).2] at hactive
    cases hactive

/-- A detached lock changes only in its waiters, or it is reattached. -/
theorem Change.of_detached (hstate : Consistent state) (h : Change s l reattaches state state')
    (hdetached : state.detached = true) :
    (∃ waiters, state' = { state with waiters := waiters }) ∨
      reattaches ∧ state'.detached = false := by
  obtain ⟨hlocked, hnone⟩ := hstate.detached hdetached
  cases h with
  | queue waiters => exact .inl ⟨waiters, rfl⟩
  | grant waiters hfree =>
    rw [hfree] at hlocked
    cases hlocked
  | release g hg hheld =>
    rw [hg] at hnone
    cases hnone
  | detach g hg hheld =>
    rw [hg] at hnone
    cases hnone
  | reattach hre _ _ => exact .inr ⟨hre, rfl⟩
  | releaseDetached hre _ _ _ => exact .inr ⟨hre, rfl⟩

theorem Change.counter_le (h : Change s l reattaches state state') :
    state.generationCounter ≤ state'.generationCounter := by
  cases h with
  | queue waiters => exact Nat.le_refl _
  | grant waiters hfree => exact Nat.le_succ _
  | release g hactive hheld => exact Nat.le_refl _
  | detach g hactive hheld => exact Nat.le_refl _
  | reattach hre hdetached hlocked => exact Nat.le_succ _
  | releaseDetached hre hdetached holder hheld => exact Nat.le_succ _

/-- A lock becomes free only by its live grant, or by the grant that a detached one gets. -/
theorem Change.unlocked (h : Change s l reattaches state state') (hlocked : state.locked = true)
    (hfree : state'.locked = false) :
    (∃ generation ∈ state.activeGeneration, s.heldLock = some ⟨l, generation⟩) ∨
      state.detached = true ∧ reattaches := by
  cases h with
  | queue waiters =>
    rw [show state.locked = false from hfree] at hlocked
    cases hlocked
  | grant waiters _ => cases hfree
  | release generation hactive hheld => exact .inl ⟨generation, hactive, hheld⟩
  | detach generation hactive hheld =>
    rw [show state.locked = false from hfree] at hlocked
    cases hlocked
  | reattach hre hdetached _ =>
    rw [show state.locked = false from hfree] at hlocked
    cases hlocked
  | releaseDetached hre hdetached _ _ => exact .inr ⟨hdetached, hre⟩

/-! ## The methods -/

/-- What a step of a task does: to every lock a change, and no context gets a grant but one that
    the task or the context itself had, or the one just issued. -/
structure Effect (w : World Task Lock) (s : TaskState Lock) (reattaches : Lock → Prop)
    (w' : World Task Lock) : Prop where
  locks : ∀ l, Change s l (reattaches l) (w.lock l) (w'.lock l)
  contexts : ∀ u s', w'.task u = some s' → s'.heldLock = none ∨ s'.heldLock = s.heldLock ∨
    (∃ before, w.task u = some before ∧ s'.heldLock = before.heldLock) ∨
    ∃ l, s'.heldLock = some ⟨l, (w'.lock l).generationCounter⟩

variable {reattachesAt : Lock → Prop}

theorem Effect.refl (w : World Task Lock) (s : TaskState Lock) : Effect w s reattachesAt w where
  locks l := .queue (w.lock l) (w.lock l).waiters
  contexts _ s' h := .inr (.inr (.inl ⟨s', h, rfl⟩))

section
variable [DecidableEq Task]

/-- Entering a frame moves no grant. -/
theorem Effect.push (h : Effect w s reattachesAt w') (t : Task) (frame : Frame Lock) :
    Effect w s reattachesAt (push w' t frame) := by
  unfold ContextLock.push
  split
  · rename_i before hbefore
    refine ⟨h.locks, fun u s' hu => ?_⟩
    change Function.update w'.task t (some _) u = some s' at hu
    by_cases hut : u = t
    · subst hut
      rw [Function.update_self] at hu
      rw [← Option.some.inj hu]
      exact h.contexts u before hbefore
    · rw [Function.update_of_ne hut] at hu
      exact h.contexts u s' hu
  · exact h

/-- An effect on the world in which the task has popped a frame is one on the world before. -/
theorem Effect.of_popped (h : Effect (w.setTask t s) s reattachesAt w') :
    Effect w s reattachesAt w' := by
  refine ⟨h.locks, fun u s' hu => ?_⟩
  rcases h.contexts u s' hu with hnone | hown | hkept | hissued
  · exact .inl hnone
  · exact .inr (.inl hown)
  · obtain ⟨kept, hkept, heq⟩ := hkept
    change Function.update w.task t (some s) u = some kept at hkept
    by_cases hut : u = t
    · subst hut
      rw [Function.update_self] at hkept
      rw [← Option.some.inj hkept] at heq
      exact .inr (.inl heq)
    · rw [Function.update_of_ne hut] at hkept
      exact .inr (.inr (.inl ⟨kept, hkept, heq⟩))
  · exact .inr (.inr (.inr hissued))

end

section
variable [DecidableEq Lock]

/-- A task passes the check of a lock iff its context carries the active generation. -/
theorem heldInCurrentContext_iff :
    heldInCurrentContext w s l = true ↔
      ∃ generation, (w.lock l).activeGeneration = some generation ∧
        s.heldLock = some ⟨l, generation⟩ := by
  unfold heldInCurrentContext
  split
  · rename_i hnone
    simp [hnone]
  · rename_i generation hactive
    simp [hactive]

end

variable [DecidableEq Task] [DecidableEq Lock]

/-- A task changes one lock and its own context. -/
theorem Effect.update {after : TaskState Lock}
    (hlock : Change s l (reattachesAt l) (w.lock l) state)
    (hcontext : after.heldLock = none ∨ after.heldLock = s.heldLock ∨
      after.heldLock = some ⟨l, state.generationCounter⟩) :
    Effect w s reattachesAt ((w.setLock l state).setTask t after) where
  locks k := by
    show Change s k (reattachesAt k) (w.lock k) (Function.update w.lock l state k)
    by_cases hk : k = l
    · subst hk
      rw [Function.update_self]
      exact hlock
    · rw [Function.update_of_ne hk]
      exact .queue (w.lock k) (w.lock k).waiters
  contexts u s' hu := by
    change Function.update w.task t (some after) u = some s' at hu
    by_cases hut : u = t
    · subst hut
      rw [Function.update_self] at hu
      rw [← Option.some.inj hu]
      rcases hcontext with hnone | hsame | hissued
      · exact .inl hnone
      · exact .inr (.inl hsame)
      · refine .inr (.inr (.inr ⟨l, ?_⟩))
        show after.heldLock = some ⟨l, (Function.update w.lock l state l).generationCounter⟩
        rw [hissued, Function.update_self]
    · rw [Function.update_of_ne hut] at hu
      exact .inr (.inr (.inl ⟨s', hu, rfl⟩))

theorem grantTo_effect (hfree : (w.lock l).locked = false) {next : Option (Frame Lock)} :
    Effect w s reattachesAt (grantTo w t s l next) :=
  .update (.grant (w.lock l) _ hfree) (.inr (.inr rfl))

theorem acquire_effect {next : Option (Frame Lock)} (h : acquire w t s l next = some w') :
    Effect w s reattachesAt w' := by
  unfold acquire at h
  split at h
  · split at h
    · rename_i hfree
      cases h
      exact grantTo_effect hfree.1
    · cases h
      exact .update (.queue (w.lock l) _) (.inr (.inl rfl))
  · cases h

theorem release_effect (h : release w t s l = some w') : Effect w s reattachesAt w' := by
  unfold release at h
  split at h
  · rename_i hheld
    cases h
    obtain ⟨generation, hactive, hcontext⟩ := heldInCurrentContext_iff.mp hheld
    exact .update (.release (w.lock l) generation hactive hcontext) (.inl rfl)
  · cases h

theorem detach_effect (h : detach w t s l = some w') : Effect w s reattachesAt w' := by
  unfold detach at h
  split at h
  · rename_i hheld
    cases h
    obtain ⟨generation, hactive, hcontext⟩ := heldInCurrentContext_iff.mp hheld
    exact .update (.detach (w.lock l) generation hactive hcontext) (.inl rfl)
  · cases h

theorem reattach_effect (hre : reattachesAt l) (h : reattach w t s l = some w') :
    Effect w s reattachesAt w' := by
  unfold reattach at h
  split at h
  · rename_i hboth
    cases h
    exact .update (.reattach (w.lock l) hre hboth.1 hboth.2.1) (.inr (.inr rfl))
  · cases h

/-- The grant of the reattachment is given back at once. -/
theorem releaseIfDetached_effect (hre : reattachesAt l)
    (h : releaseIfDetached w t s l = some w') : Effect w s reattachesAt w' := by
  unfold releaseIfDetached at h
  split at h
  · rename_i hdetached
    obtain ⟨middle, hreattach, hrest⟩ := Option.bind_eq_some_iff.mp h
    obtain ⟨holder, hholder, hrelease⟩ := Option.bind_eq_some_iff.mp hrest
    unfold reattach at hreattach
    split at hreattach
    · cases hreattach
      -- the task has the grant that was just issued
      change Function.update w.task t (some _) t = some holder at hholder
      rw [Function.update_self] at hholder
      cases hholder
      unfold release at hrelease
      split at hrelease
      · cases hrelease
        refine ⟨fun k => ?_, fun u s' hu => ?_⟩
        · show Change s k (reattachesAt k) (w.lock k)
            (Function.update (Function.update w.lock l _) l
              { endGrant (Function.update w.lock l _ l) _ with locked := false } k)
          by_cases hk : k = l
          · subst hk
            rw [Function.update_self, Function.update_self]
            exact .releaseDetached (w.lock k) hre hdetached _ rfl
          · rw [Function.update_of_ne hk, Function.update_of_ne hk]
            exact .queue (w.lock k) (w.lock k).waiters
        · change Function.update (Function.update w.task t _) t (some _) u = some s' at hu
          by_cases hut : u = t
          · subst hut
            rw [Function.update_self] at hu
            rw [← Option.some.inj hu]
            exact .inl rfl
          · rw [Function.update_of_ne hut, Function.update_of_ne hut] at hu
            exact .inr (.inr (.inl ⟨s', hu, rfl⟩))
      · cases hrelease
    · cases hreattach
  · cases h
    exact .refl w s

/-! ## One step -/

/-- The context of a task carries a grant. -/
def Carries (w : World Task Lock) (t : Task) (grant : Grant Lock) : Prop :=
  ∃ s, w.task t = some s ∧ s.heldLock = some grant

/-- The task that takes a step -/
def Event.actor : Event Task Lock → Task
  | .start t | .spawn t _ | .acquire t _ | .release t _ | .detach t _ | .reattach t _
  | .releaseIfDetached t _ | .enter t _ | .leave t _ | .granted t | .cancel t => t

/-- A step that reattaches a lock, if it is detached -/
def Event.Reattaches (l : Lock) : Event Task Lock → Prop
  | .reattach _ k => k = l
  | .releaseIfDetached _ k => k = l
  | .enter _ (.releasesLock k) => k = l
  | _ => False

theorem enter_effect {frame : Frame Lock} (h : enter w t s frame = some w') :
    Effect w s (fun l => (Event.enter t frame).Reattaches l) w' := by
  cases frame with
  | withLock l => exact acquire_effect h
  | acquiresLock l => exact acquire_effect h
  | releasesLock l =>
    obtain ⟨middle, hmiddle, hpush⟩ := Option.map_eq_some_iff.mp h
    rw [← hpush]
    exact (reattach_effect rfl hmiddle).push t _
  | withReleased l =>
    obtain ⟨middle, hmiddle, hpush⟩ := Option.map_eq_some_iff.mp h
    rw [← hpush]
    exact (release_effect hmiddle).push t _

theorem leave_effect {frame : Frame Lock} {raised : Bool}
    (h : leave w t s frame raised = some w') : Effect w s reattachesAt w' := by
  cases frame with
  | withLock l => exact release_effect h
  | acquiresLock l =>
    cases raised with
    | true => exact release_effect h
    | false => exact detach_effect h
  | releasesLock l => exact release_effect h
  | withReleased l => exact acquire_effect h

omit [DecidableEq Task] in
/-- A call goes through, or raises and changes nothing. -/
theorem call_effect {method : TaskState Lock → Option (World Task Lock)}
    (heffect : ∀ s w', method s = some w' → Effect w s reattachesAt w')
    (h : call w t method = some w') :
    ∃ s, Effect w s reattachesAt w' ∧ w.task t = some s := by
  unfold call at h
  split at h
  · rename_i s hs
    split at h
    · refine ⟨s, ?_, hs⟩
      rw [← Option.some.inj h]
      cases hmethod : method s with
      | none => exact .refl w s
      | some w' => exact heffect s w' hmethod
    · cases h
  · cases h

/-- The step of a task is an effect of a state with the task's grant. -/
theorem step_effect {event : Event Task Lock} (h : step w event = some w') :
    ∃ s, Effect w s (fun l => event.Reattaches l) w' ∧
      ∀ grant, s.heldLock = some grant → Carries w event.actor grant := by
  have hcarried {t : Task} {reattachesAt : Lock → Prop}
      (h : ∃ s, Effect w s reattachesAt w' ∧ w.task t = some s) :
      ∃ s, Effect w s reattachesAt w' ∧ ∀ grant, s.heldLock = some grant → Carries w t grant := by
    obtain ⟨s, heffect, hs⟩ := h
    exact ⟨s, heffect, fun grant hgrant => ⟨s, hs, hgrant⟩⟩
  cases event with
  | start t =>
    simp only [step] at h
    split at h
    · cases h
      refine ⟨{}, ⟨fun l => .queue (w.lock l) _, fun u s' hu => ?_⟩, fun grant hgrant => ?_⟩
      · change Function.update w.task t (some {}) u = some s' at hu
        by_cases hut : u = t
        · subst hut
          rw [Function.update_self] at hu
          rw [← Option.some.inj hu]
          exact .inl rfl
        · rw [Function.update_of_ne hut] at hu
          exact .inr (.inr (.inl ⟨s', hu, rfl⟩))
      · cases hgrant
    · cases h
  | spawn t child =>
    simp only [step] at h
    split at h
    · rename_i parent hparent
      split at h
      · cases h
        -- the child has a copy of its parent's context
        apply hcarried
        refine ⟨parent, ⟨fun l => .queue (w.lock l) _, fun u s' hu => ?_⟩, hparent⟩
        change Function.update w.task child (some { heldLock := parent.heldLock }) u = some s' at hu
        by_cases hut : u = child
        · subst hut
          rw [Function.update_self] at hu
          rw [← Option.some.inj hu]
          exact .inr (.inl rfl)
        · rw [Function.update_of_ne hut] at hu
          exact .inr (.inr (.inl ⟨s', hu, rfl⟩))
      · cases h
    · cases h
  | acquire t l => exact hcarried (call_effect (fun s w' => acquire_effect) h)
  | release t l => exact hcarried (call_effect (fun s w' => release_effect) h)
  | detach t l => exact hcarried (call_effect (fun s w' => detach_effect) h)
  | reattach t l => exact hcarried (call_effect (fun s w' => reattach_effect rfl) h)
  | releaseIfDetached t l =>
    exact hcarried (call_effect (fun s w' => releaseIfDetached_effect rfl) h)
  | enter t frame => exact hcarried (call_effect (fun s w' => enter_effect) h)
  | leave t raised =>
    simp only [step] at h
    split at h
    · rename_i heldLock frame frames htask
      refine ⟨⟨heldLock, frames, .running⟩, ?_, fun grant hgrant => ⟨_, htask, hgrant⟩⟩
      apply Effect.of_popped (t := t)
      rw [← Option.some.inj h]
      cases hleave : leave (w.setTask t ⟨heldLock, frames, .running⟩) t
          ⟨heldLock, frames, .running⟩ frame raised with
      | none => exact .refl _ _
      | some after => exact leave_effect hleave
    · cases h
  | granted t =>
    simp only [step] at h
    split at h
    · rename_i heldLock frames l next htask
      split at h
      · rename_i hfree
        cases h
        exact ⟨⟨heldLock, frames, .running⟩, grantTo_effect hfree.1,
          fun grant hgrant => ⟨_, htask, hgrant⟩⟩
      · cases h
    · cases h
  | cancel t =>
    simp only [step] at h
    split at h
    · rename_i heldLock frames l next htask
      cases h
      exact ⟨⟨heldLock, frames, .running⟩, .update (.queue (w.lock l) _) (.inr (.inl rfl)),
        fun grant hgrant => ⟨_, htask, hgrant⟩⟩
    · cases h

/-! ## Every run -/

/-- Every lock is consistent, and every grant in a context was issued. -/
structure Sound (w : World Task Lock) : Prop where
  consistent : ∀ l, Consistent (w.lock l)
  issued : ∀ t l generation, Carries w t ⟨l, generation⟩ →
    generation ≤ (w.lock l).generationCounter

omit [DecidableEq Task] [DecidableEq Lock] in
theorem Sound.initial : Sound (World.initial : World Task Lock) := by
  refine ⟨fun l => ⟨rfl, ?_, ?_⟩, ?_⟩
  · intro generation hactive
    cases hactive
  · intro hdetached
    cases hdetached
  · intro t l generation hcarries
    obtain ⟨s, hs, -⟩ := hcarries
    cases hs

theorem Sound.step (h : Sound w) {event : Event Task Lock} (hstep : step w event = some w') :
    Sound w' := by
  obtain ⟨s, heffect, hactor⟩ := step_effect hstep
  refine ⟨fun l => (h.consistent l).change (heffect.locks l), fun t l generation hcarries => ?_⟩
  obtain ⟨s', hs', hheld⟩ := hcarries
  have hcounter := (heffect.locks l).counter_le
  rcases heffect.contexts t s' hs' with hnone | hown | hkept | hissued
  · rw [hnone] at hheld
    cases hheld
  · have hle := h.issued _ l generation (hactor _ (by rw [← hown, hheld]))
    omega
  · obtain ⟨before, hbefore, hsame⟩ := hkept
    have hle := h.issued t l generation ⟨before, hbefore, by rw [← hsame, hheld]⟩
    omega
  · obtain ⟨k, hk⟩ := hissued
    rw [hheld] at hk
    cases hk
    exact Nat.le_refl _

theorem sound_of_run {events : List (Event Task Lock)}
    (hrun : Lts.run ContextLock.step World.initial events = some w) : Sound w :=
  Lts.run_invariant (fun _ _ _ h hstep => h.step hstep) Sound.initial hrun

/-- A grant that is not live is never live again. -/
theorem not_live_of_run {generation : Nat} {later : List (Event Task Lock)}
    (hrun : Lts.run ContextLock.step w later = some w')
    (hold : generation ≤ (w.lock l).generationCounter) (hdead : generation ∉ (w.lock l).live) :
    generation ∉ (w'.lock l).live := by
  have hstep (v : World Task Lock) (event : Event Task Lock) (v' : World Task Lock)
      (h : generation ≤ (v.lock l).generationCounter ∧ generation ∉ (v.lock l).live)
      (hstep : ContextLock.step v event = some v') :
      generation ≤ (v'.lock l).generationCounter ∧ generation ∉ (v'.lock l).live := by
    obtain ⟨s, heffect, -⟩ := step_effect hstep
    exact (heffect.locks l).not_live h.1 h.2
  exact (Lts.run_invariant hstep ⟨hold, hdead⟩ hrun).2

/-- A detached lock changes in its waiters only, until a step reattaches it. -/
theorem detached_of_run (h : Sound w) {later : List (Event Task Lock)}
    (hrun : Lts.run ContextLock.step w later = some w') (hdetached : (w.lock l).detached = true) :
    (∃ waiters, w'.lock l = { w.lock l with waiters := waiters }) ∨
      ∃ pre event post v v', later = pre ++ event :: post ∧
        Lts.run ContextLock.step w pre = some v ∧ ContextLock.step v event = some v' ∧
        event.Reattaches l ∧ (v.lock l).detached = true ∧ (v'.lock l).detached = false := by
  rcases Lts.run_invariant_or (I := fun v => Sound v ∧
      ∃ waiters, v.lock l = { w.lock l with waiters := waiters }) ⟨h, _, rfl⟩ hrun with hend | hbreak
  · exact .inl hend.2
  · obtain ⟨pre, event, post, v, v', hsplit, hpre, hv, hstep, hnot⟩ := hbreak
    obtain ⟨hsound, waiters, hwaiters⟩ := hv
    obtain ⟨s, heffect, -⟩ := step_effect hstep
    have hstill : (v.lock l).detached = true := by rw [hwaiters]; exact hdetached
    rcases (heffect.locks l).of_detached (hsound.consistent l) hstill with hsame | hre
    · -- such a step breaks nothing
      obtain ⟨waiters', hwaiters'⟩ := hsame
      exact absurd ⟨hsound.step hstep, waiters', by rw [hwaiters', hwaiters]⟩ hnot
    · exact .inr ⟨pre, event, post, v, v', hsplit, hpre, hstep, hre.1, hstill, hre.2⟩

/-- In every run, whatever the tasks call, however their steps interleave and wherever they are
    cancelled. A lock has at most one live grant, which keeps it locked, and a task passes its check
    iff its context carries that grant. A grant that was issued and is not live never becomes live
    again; a live grant is ended, and a lock freed, only by a task whose context carries that very
    grant, or by the reattachment of a detached lock. And a detached lock stays locked, without
    a live or a new grant, until a step reattaches it. -/
theorem context_lock_safety (events : List (Event Task Lock)) (w : World Task Lock)
    (hrun : Lts.run ContextLock.step World.initial events = some w) :
    (∀ l, (w.lock l).live.length ≤ 1 ∧
      ∀ generation ∈ (w.lock l).live, (w.lock l).locked = true ∧ (w.lock l).detached = false) ∧
    (∀ t s l, w.task t = some s → (heldInCurrentContext w s l = true ↔
      ∃ generation ∈ (w.lock l).live, s.heldLock = some ⟨l, generation⟩)) ∧
    (∀ l generation, generation ∉ (w.lock l).live →
      (generation ≤ (w.lock l).generationCounter ∨ ∃ t, Carries w t ⟨l, generation⟩) →
      ∀ later w', Lts.run ContextLock.step w later = some w' →
        generation ∉ (w'.lock l).live) ∧
    (∀ event w' l, ContextLock.step w event = some w' →
      (∀ generation ∈ (w.lock l).live, generation ∉ (w'.lock l).live →
        Carries w event.actor ⟨l, generation⟩) ∧
      ((w.lock l).locked = true → (w'.lock l).locked = false →
        (∃ generation ∈ (w.lock l).live, Carries w event.actor ⟨l, generation⟩) ∨
          (w.lock l).detached = true ∧ event.Reattaches l)) ∧
    ∀ l, (w.lock l).detached = true → ∀ later w', Lts.run ContextLock.step w later = some w' →
      ((w'.lock l).locked = true ∧ (w'.lock l).detached = true ∧ (w'.lock l).live = [] ∧
        (w'.lock l).generationCounter = (w.lock l).generationCounter) ∨
      ∃ pre event post v v', later = pre ++ event :: post ∧
        Lts.run ContextLock.step w pre = some v ∧ ContextLock.step v event = some v' ∧
        event.Reattaches l ∧ (v.lock l).detached = true ∧ (v'.lock l).detached = false := by
  have h := sound_of_run hrun
  refine ⟨fun l => ⟨?_, fun generation hlive => ?_⟩, fun t s l hs => ?_,
    fun l generation hdead hissued later w' hlater => ?_, fun event w' l hstep => ⟨?_, ?_⟩,
    fun l hdetached later w' hlater => ?_⟩
  · rw [(h.consistent l).live]
    cases (w.lock l).activeGeneration with
    | none => exact Nat.zero_le 1
    | some generation => exact Nat.le_refl 1
  · rw [(h.consistent l).live] at hlive
    exact ((h.consistent l).active generation (Option.mem_toList.mp hlive)).2
  · rw [heldInCurrentContext_iff, (h.consistent l).live]
    simp [Option.mem_toList]
  · have hold : generation ≤ (w.lock l).generationCounter := by
      rcases hissued with hle | hcarries
      · exact hle
      · obtain ⟨t, hcarries⟩ := hcarries
        exact h.issued t l generation hcarries
    exact not_live_of_run hlater hold hdead
  · intro generation hlive hended
    -- what ends a grant is done by a task that carries it
    obtain ⟨s, heffect, hactor⟩ := step_effect hstep
    exact hactor _ ((heffect.locks l).ended (h.consistent l) hlive hended)
  · intro hlocked hfree
    obtain ⟨s, heffect, hactor⟩ := step_effect hstep
    rcases (heffect.locks l).unlocked hlocked hfree with hlive | hre
    · obtain ⟨generation, hactive, hheld⟩ := hlive
      refine .inl ⟨generation, ?_, hactor _ hheld⟩
      rw [(h.consistent l).live]
      exact Option.mem_toList.mpr hactive
    · exact .inr hre
  · rcases detached_of_run h hlater hdetached with hsame | hre
    · obtain ⟨waiters, hwaiters⟩ := hsame
      obtain ⟨hlocked, hactive⟩ := (h.consistent l).detached hdetached
      rw [hwaiters]
      refine .inl ⟨hlocked, hdetached, ?_, rfl⟩
      show (w.lock l).live = []
      rw [(h.consistent l).live, hactive]
      rfl
    · exact .inr hre

/-- A task opens a window with a detached lock and another one closes it, while a third one waits; a
    child of the first one still has the old grant in its context and cannot release the lock. -/
theorem context_lock_window :
    ∃ w, Lts.run ContextLock.step (World.initial : World Nat Bool)
        [.start 0, .start 1, .start 2, .enter 0 (.acquiresLock true), .spawn 0 3, .leave 0 false,
          .acquire 1 true, .enter 2 (.releasesLock true), .release 3 true] = some w ∧
      (w.lock true).live = [2] ∧ Carries w 3 ⟨true, 1⟩ ∧
      ∀ later w', Lts.run ContextLock.step w later = some w' → 1 ∉ (w'.lock true).live := by
  have hreached : ∃ w, Lts.run ContextLock.step (World.initial : World Nat Bool)
      [.start 0, .start 1, .start 2, .enter 0 (.acquiresLock true), .spawn 0 3, .leave 0 false,
        .acquire 1 true, .enter 2 (.releasesLock true), .release 3 true] = some w ∧
      (w.lock true).live = [2] ∧ Carries w 3 ⟨true, 1⟩ := ⟨_, rfl, rfl, _, rfl, rfl⟩
  obtain ⟨w, hrun, hlive, hcarries⟩ := hreached
  have hdead : 1 ∉ (w.lock true).live := by
    rw [hlive]
    decide
  exact ⟨w, hrun, hlive, hcarries, (context_lock_safety _ w hrun).2.2.1 true 1 hdead
    (.inr ⟨3, hcarries⟩)⟩

end Miles.ContextLock
