import Miles.Native.Concurrency.TicketLock

/-!
# One process at a time, in the order of the tickets

Every process that waits, holds the lock or is about to call the next ticket has a ticket of its
own. The ticket that is served is the least of them, and only its process is inside.
-/

namespace Miles.TicketLock

variable {Process : Type} {lockPrefix : String} {w w' : World Process} {p : Process}

/-! ## The counters -/

/-- How many tickets were drawn. -/
def next (lockPrefix : String) (w : World Process) : Nat := w.store (nextKey lockPrefix)

/-- The ticket that is served. -/
def serving (lockPrefix : String) (w : World Process) : Nat := w.store (servingKey lockPrefix)

theorem nextKey_ne_servingKey (lockPrefix : String) : nextKey lockPrefix ≠ servingKey lockPrefix := by
  unfold nextKey servingKey
  intro h
  have hsuffix := String.append_right_inj _ |>.mp h
  exact absurd hsuffix (by decide)

/-! ## Tickets -/

/-- The ticket of a process that waits, holds the lock or is about to call the next one. -/
def ticketOf (lock : LockProcess) : Option Nat :=
  match lock.pc with
  | .outside => lock.heldTicket
  | .polling ticket => some ticket
  | .polled ticket _ => some ticket
  | .releasing released => some released

/-- Between acquire and release: the process holds the lock, or is about to call the next ticket. -/
def Inside (lock : LockProcess) : Prop :=
  match lock.pc with
  | .outside => lock.heldTicket ≠ none
  | .releasing _ => True
  | _ => False

/-- What a process knows of the ticket that is served. -/
def Consistent (serving : Nat) (lock : LockProcess) : Prop :=
  match lock.pc with
  | .outside => True
  | .polling _ => lock.heldTicket = none
  | .polled _ read => lock.heldTicket = none ∧ read ≤ serving
  | .releasing _ => lock.heldTicket = none

/-- The tickets are in order: each belongs to one process that drew it and none is before the one
    that is served; a process that is inside has that one. -/
structure Served (lockPrefix : String) (w : World Process) : Prop where
  range : ∀ p t, ticketOf (w.process p) = some t →
    serving lockPrefix w ≤ t ∧ t < next lockPrefix w ∧ w.drawn[t]? = some p
  inside : ∀ p t, Inside (w.process p) → ticketOf (w.process p) = some t →
    t = serving lockPrefix w
  consistent : ∀ p, Consistent (serving lockPrefix w) (w.process p)
  length : w.drawn.length = next lockPrefix w
  le : serving lockPrefix w ≤ next lockPrefix w
  /-- Those that entered are the first that drew: up to the served ticket, or with it. -/
  entered : w.entered = w.drawn.take w.entered.length
  waiting : ∀ p, ticketOf (w.process p) = some (serving lockPrefix w) → ¬ Inside (w.process p) →
    w.entered.length = serving lockPrefix w
  holding : ∀ p, Inside (w.process p) → w.entered.length = serving lockPrefix w + 1
  count : w.entered.length = serving lockPrefix w ∨
    w.entered.length = serving lockPrefix w + 1 ∧ serving lockPrefix w < next lockPrefix w

/-- No two processes have one ticket. -/
theorem Served.eq_of_ticket (h : Served lockPrefix w) {p q : Process} {t : Nat}
    (hp : ticketOf (w.process p) = some t) (hq : ticketOf (w.process q) = some t) : p = q := by
  have hdrawn := (h.range p t hp).2.2
  rw [(h.range q t hq).2.2] at hdrawn
  exact (Option.some.inj hdrawn).symm

theorem Served.initial : Served lockPrefix (World.initial : World Process) := by
  constructor
  · intro p t ht
    cases ht
  · intro p t _ ht
    cases ht
  · exact fun _ => trivial
  · rfl
  · exact Nat.le_refl 0
  · rfl
  · intro p ht
    cases ht
  · intro p hinside
    exact absurd rfl hinside
  · exact .inl rfl

/-! ## One step -/

/-- A process that is inside has a ticket. -/
theorem exists_ticket_of_inside {lock : LockProcess} (h : Inside lock) :
    ∃ t, ticketOf lock = some t := by
  obtain ⟨heldTicket, pc⟩ := lock
  cases pc with
  | outside => exact Option.ne_none_iff_exists'.mp h
  | polling _ => cases h
  | polled _ _ => cases h
  | releasing released => exact ⟨released, rfl⟩

/-- The process that calls the next ticket had the one that is served. -/
theorem Served.releasing (h : Served lockPrefix w) {released : Nat}
    (hpc : (w.process p).pc = .releasing released) :
    released = serving lockPrefix w ∧ ticketOf (w.process p) = some (serving lockPrefix w) := by
  have hticket : ticketOf (w.process p) = some released := by rw [ticketOf, hpc]
  have hin : Inside (w.process p) := by
    rw [Inside, hpc]
    trivial
  have hnow := h.inside p released hin hticket
  exact ⟨hnow, hnow ▸ hticket⟩

variable [DecidableEq Process]

/-- A step that moves no counter: the process keeps its ticket or loses it. -/
theorem Served.of_same_counters (h : Served lockPrefix w) (p : Process) (lock : LockProcess)
    (hprocess : w'.process = Function.update w.process p lock)
    (hserving : serving lockPrefix w' = serving lockPrefix w)
    (hnext : next lockPrefix w' = next lockPrefix w) (hdrawn : w'.drawn = w.drawn)
    (hentered : w'.entered = w.entered)
    (hticket : ∀ t, ticketOf lock = some t → ticketOf (w.process p) = some t)
    (hinside : ∀ t, ticketOf lock = some t → (Inside lock ↔ Inside (w.process p)))
    (hconsistent : Consistent (serving lockPrefix w) lock) : Served lockPrefix w' := by
  -- whatever a process has now, it had before
  have hhad (q : Process) (t : Nat) (ht : ticketOf (w'.process q) = some t) :
      ticketOf (w.process q) = some t ∧ (Inside (w'.process q) ↔ Inside (w.process q)) := by
    rw [hprocess] at ht ⊢
    by_cases hq : q = p
    · subst hq
      rw [Function.update_self] at ht ⊢
      exact ⟨hticket t ht, hinside t ht⟩
    · rw [Function.update_of_ne hq] at ht ⊢
      exact ⟨ht, Iff.rfl⟩
  constructor
  · intro q t ht
    rw [hserving, hnext, hdrawn]
    exact h.range q t (hhad q t ht).1
  · intro q t hin ht
    rw [hserving]
    exact h.inside q t ((hhad q t ht).2.mp hin) (hhad q t ht).1
  · intro q
    rw [hserving, hprocess]
    by_cases hq : q = p
    · subst hq
      rw [Function.update_self]
      exact hconsistent
    · rw [Function.update_of_ne hq]
      exact h.consistent q
  · rw [hdrawn, hnext]
    exact h.length
  · rw [hserving, hnext]
    exact h.le
  · rw [hentered, hdrawn]
    exact h.entered
  · intro q ht hout
    rw [hentered, hserving]
    rw [hserving] at ht
    exact h.waiting q (hhad q _ ht).1 fun hin => hout ((hhad q _ ht).2.mpr hin)
  · intro q hin
    rw [hentered, hserving]
    obtain ⟨t, ht⟩ := exists_ticket_of_inside hin
    exact h.holding q ((hhad q t ht).2.mp hin)
  · rw [hentered, hserving, hnext]
    exact h.count

theorem add_self (store : Store) (key : String) (amount : Nat) :
    (add store key amount).2 key = store key + amount := Function.update_self ..

/-- An `add` leaves the other counter as it is. -/
theorem add_other (store : Store) {key other : String} (h : other ≠ key) (amount : Nat) :
    (add store key amount).2 other = store other := Function.update_of_ne h ..

/-- The drawn ticket is the last one. -/
theorem Served.draw (h : Served lockPrefix w) (hstep : draw lockPrefix w p = some w') :
    Served lockPrefix w' := by
  unfold TicketLock.draw at hstep
  split at hstep
  · cases hstep
    have hle := h.le
    have hlength := h.length
    have hserving : (add w.store (nextKey lockPrefix) 1).2 (servingKey lockPrefix) =
        serving lockPrefix w := add_other _ (nextKey_ne_servingKey _).symm 1
    have hnext : (add w.store (nextKey lockPrefix) 1).2 (nextKey lockPrefix) =
        next lockPrefix w + 1 := add_self ..
    have hfront : w.entered.length ≤ w.drawn.length := by
      rw [h.entered]
      exact List.length_take_le' ..
    -- the process that drew waits with the last ticket, every other one has what it had
    have hmine : Function.update w.process p ⟨none, .polling (next lockPrefix w)⟩ p =
        (⟨none, .polling (next lockPrefix w)⟩ : LockProcess) := Function.update_self ..
    have hold (q : Process) (hq : q ≠ p) :
        Function.update w.process p ⟨none, .polling (next lockPrefix w)⟩ q = w.process q :=
      Function.update_of_ne hq ..
    constructor
    · intro q t ht
      show (add w.store (nextKey lockPrefix) 1).2 (servingKey lockPrefix) ≤ t ∧
        t < (add w.store (nextKey lockPrefix) 1).2 (nextKey lockPrefix) ∧
        (w.drawn ++ [p])[t]? = some q
      change ticketOf (Function.update w.process p ⟨none, .polling (next lockPrefix w)⟩ q) =
        some t at ht
      rw [hserving, hnext]
      by_cases hq : q = p
      · subst hq
        rw [hmine] at ht
        cases ht
        exact ⟨hle, Nat.lt_succ_self _, by rw [← hlength]; exact List.getElem?_concat_length ..⟩
      · rw [hold q hq] at ht
        obtain ⟨hserved, hdrawn, hat⟩ := h.range q t ht
        exact ⟨hserved, by omega, by rw [List.getElem?_append_left (by omega)]; exact hat⟩
    · intro q t hin ht
      show t = (add w.store (nextKey lockPrefix) 1).2 (servingKey lockPrefix)
      change Inside (Function.update w.process p ⟨none, .polling (next lockPrefix w)⟩ q) at hin
      change ticketOf (Function.update w.process p ⟨none, .polling (next lockPrefix w)⟩ q) =
        some t at ht
      rw [hserving]
      by_cases hq : q = p
      · subst hq
        rw [hmine] at hin
        cases hin
      · rw [hold q hq] at hin ht
        exact h.inside q t hin ht
    · intro q
      show Consistent ((add w.store (nextKey lockPrefix) 1).2 (servingKey lockPrefix))
        (Function.update w.process p ⟨none, .polling (next lockPrefix w)⟩ q)
      rw [hserving]
      by_cases hq : q = p
      · subst hq
        rw [hmine]
        exact rfl
      · rw [hold q hq]
        exact h.consistent q
    · show (w.drawn ++ [p]).length = (add w.store (nextKey lockPrefix) 1).2 (nextKey lockPrefix)
      rw [hnext, List.length_append, hlength]
      rfl
    · show (add w.store (nextKey lockPrefix) 1).2 (servingKey lockPrefix) ≤
        (add w.store (nextKey lockPrefix) 1).2 (nextKey lockPrefix)
      rw [hserving, hnext]
      omega
    · show w.entered = (w.drawn ++ [p]).take w.entered.length
      rw [List.take_append_of_le_length hfront]
      exact h.entered
    · intro q ht hout
      show w.entered.length = (add w.store (nextKey lockPrefix) 1).2 (servingKey lockPrefix)
      change ticketOf (Function.update w.process p ⟨none, .polling (next lockPrefix w)⟩ q) =
        some ((add w.store (nextKey lockPrefix) 1).2 (servingKey lockPrefix)) at ht
      change ¬ Inside (Function.update w.process p ⟨none, .polling (next lockPrefix w)⟩ q) at hout
      rw [hserving] at ht ⊢
      by_cases hq : q = p
      · subst hq
        rw [hmine] at ht
        have hlast : next lockPrefix w = serving lockPrefix w := Option.some.inj ht
        -- nobody waited: all that drew have entered and left
        rcases h.count with hcount | hcount
        · exact hcount
        · omega
      · rw [hold q hq] at ht hout
        exact h.waiting q ht hout
    · intro q hin
      show w.entered.length = (add w.store (nextKey lockPrefix) 1).2 (servingKey lockPrefix) + 1
      change Inside (Function.update w.process p ⟨none, .polling (next lockPrefix w)⟩ q) at hin
      rw [hserving]
      by_cases hq : q = p
      · subst hq
        rw [hmine] at hin
        cases hin
      · rw [hold q hq] at hin
        exact h.holding q hin
    · show w.entered.length = (add w.store (nextKey lockPrefix) 1).2 (servingKey lockPrefix) ∨
        w.entered.length = (add w.store (nextKey lockPrefix) 1).2 (servingKey lockPrefix) + 1 ∧
          (add w.store (nextKey lockPrefix) 1).2 (servingKey lockPrefix) <
            (add w.store (nextKey lockPrefix) 1).2 (nextKey lockPrefix)
      rw [hserving, hnext]
      rcases h.count with hcount | hcount
      · exact .inl hcount
      · exact .inr ⟨hcount.1, by omega⟩
  · cases hstep

/-- A process that reads the served ticket learns no more than what is served. -/
theorem Served.poll (h : Served lockPrefix w) (hstep : poll lockPrefix w p = some w') :
    Served lockPrefix w' := by
  unfold TicketLock.poll at hstep
  split at hstep
  · rename_i ticket hpc
    cases hstep
    have hheld : (w.process p).heldTicket = none := by
      have hconsistent := h.consistent p
      rw [Consistent, hpc] at hconsistent
      exact hconsistent
    have hserving : (add w.store (servingKey lockPrefix) 0).2 (servingKey lockPrefix) =
        serving lockPrefix w := add_self ..
    have hnext : (add w.store (servingKey lockPrefix) 0).2 (nextKey lockPrefix) =
        next lockPrefix w := add_other _ (nextKey_ne_servingKey _) 0
    refine h.of_same_counters p ⟨(w.process p).heldTicket, .polled ticket _⟩ rfl hserving hnext rfl
      rfl ?_ ?_ ?_
    · intro t ht
      cases ht
      rw [ticketOf, hpc]
    · intro t _
      rw [Inside, Inside, hpc]
    · exact ⟨hheld, Nat.le_refl _⟩
  · cases hstep

/-- A process enters with the ticket that is served; a read that is too old sends it on waiting. -/
theorem Served.check (h : Served lockPrefix w) (hstep : check w p = some w') :
    Served lockPrefix w' := by
  unfold TicketLock.check at hstep
  split at hstep
  · rename_i ticket read hpc
    have hconsistent := h.consistent p
    rw [Consistent, hpc] at hconsistent
    obtain ⟨hheld, hread⟩ := hconsistent
    have hticket : ticketOf (w.process p) = some ticket := by rw [ticketOf, hpc]
    have hout : ¬ Inside (w.process p) := by
      rw [Inside, hpc]
      exact id
    obtain ⟨hserved, hdrawn, hat⟩ := h.range p ticket hticket
    by_cases heq : read = ticket
    · rw [if_pos heq] at hstep
      cases hstep
      -- the read cannot be ahead of the counter, so the ticket is the one that is served
      have hnow : ticket = serving lockPrefix w := by omega
      rw [hnow] at hticket hat hdrawn ⊢
      have hcount := h.waiting p hticket hout
      have hmine : Function.update w.process p ⟨some (serving lockPrefix w), .outside⟩ p =
          (⟨some (serving lockPrefix w), .outside⟩ : LockProcess) := Function.update_self ..
      have hold (q : Process) (hq : q ≠ p) :
          Function.update w.process p ⟨some (serving lockPrefix w), .outside⟩ q = w.process q :=
        Function.update_of_ne hq ..
      -- nobody else has this ticket, so nobody else is inside
      have halone (q : Process) (hq : q ≠ p)
          (hqt : ticketOf (w.process q) = some (serving lockPrefix w)) : False :=
        hq (h.eq_of_ticket hqt hticket)
      have hlength : (w.entered ++ [p]).length = serving lockPrefix w + 1 := by
        rw [List.length_append, hcount]
        rfl
      constructor
      · intro q t ht
        change ticketOf (Function.update w.process p ⟨some (serving lockPrefix w), .outside⟩ q) =
          some t at ht
        by_cases hq : q = p
        · subst hq
          rw [hmine] at ht
          cases ht
          exact ⟨Nat.le_refl _, hdrawn, hat⟩
        · rw [hold q hq] at ht
          exact h.range q t ht
      · intro q t hin ht
        change Inside (Function.update w.process p ⟨some (serving lockPrefix w), .outside⟩ q) at hin
        change ticketOf (Function.update w.process p ⟨some (serving lockPrefix w), .outside⟩ q) =
          some t at ht
        by_cases hq : q = p
        · subst hq
          rw [hmine] at ht
          exact (Option.some.inj ht).symm
        · rw [hold q hq] at hin ht
          exact h.inside q t hin ht
      · intro q
        show Consistent (serving lockPrefix w)
          (Function.update w.process p ⟨some (serving lockPrefix w), .outside⟩ q)
        by_cases hq : q = p
        · subst hq
          rw [hmine]
          trivial
        · rw [hold q hq]
          exact h.consistent q
      · exact h.length
      · exact h.le
      · show w.entered ++ [p] = w.drawn.take (w.entered ++ [p]).length
        rw [hlength, List.take_add_one, hat, ← hcount, ← h.entered]
        rfl
      · intro q ht hq
        change ticketOf (Function.update w.process p ⟨some (serving lockPrefix w), .outside⟩ q) =
          some (serving lockPrefix w) at ht
        change ¬ Inside (Function.update w.process p ⟨some (serving lockPrefix w), .outside⟩ q) at hq
        by_cases hqp : q = p
        · subst hqp
          rw [hmine] at hq
          exact absurd (Option.some_ne_none _) hq
        · rw [hold q hqp] at ht
          exact (halone q hqp ht).elim
      · intro q _
        exact hlength
      · exact .inr ⟨hlength, hdrawn⟩
    · rw [if_neg heq] at hstep
      cases hstep
      refine h.of_same_counters p ⟨(w.process p).heldTicket, .polling ticket⟩ rfl rfl rfl rfl rfl
        ?_ ?_ ?_
      · intro t ht
        cases ht
        exact hticket
      · intro t _
        rw [Inside, Inside, hpc]
      · exact hheld
  · cases hstep

/-- The process keeps its ticket until it has called the next one. -/
theorem Served.release (h : Served lockPrefix w) (hstep : release w p = some w') :
    Served lockPrefix w' := by
  unfold TicketLock.release at hstep
  split at hstep
  · rename_i ticket hprocess
    cases hstep
    refine h.of_same_counters p ⟨none, .releasing ticket⟩ rfl rfl rfl rfl rfl ?_ ?_ ?_
    · intro t ht
      cases ht
      rw [hprocess]
      rfl
    · intro t _
      rw [hprocess]
      exact iff_of_true trivial (Option.some_ne_none _)
    · exact rfl
  · cases hstep

/-- What a process knew of the served ticket stays true when a later one is served. -/
theorem Consistent.mono {old new : Nat} {lock : LockProcess} (h : Consistent old lock)
    (hle : old ≤ new) : Consistent new lock := by
  obtain ⟨heldTicket, pc⟩ := lock
  cases pc with
  | outside => trivial
  | polling _ => exact h
  | polled _ _ => exact ⟨h.1, Nat.le_trans h.2 hle⟩
  | releasing _ => exact h

/-- The next ticket is served, and nobody is inside until its process enters. -/
theorem Served.call (h : Served lockPrefix w) (hstep : call lockPrefix w p = some w') :
    Served lockPrefix w' ∧ serving lockPrefix w' = serving lockPrefix w + 1 ∧
      ∀ q, ¬ Inside (w'.process q) := by
  unfold TicketLock.call at hstep
  split at hstep
  · rename_i released hpc
    cases hstep
    obtain ⟨-, hticket⟩ := h.releasing hpc
    have hin : Inside (w.process p) := by
      rw [Inside, hpc]
      trivial
    have hheld : (w.process p).heldTicket = none := by
      have hconsistent := h.consistent p
      rw [Consistent, hpc] at hconsistent
      exact hconsistent
    have hcount := h.holding p hin
    have hlast := (h.range p _ hticket).2.1
    have hserving : (add w.store (servingKey lockPrefix) 1).2 (servingKey lockPrefix) =
        serving lockPrefix w + 1 := add_self ..
    have hnext : (add w.store (servingKey lockPrefix) 1).2 (nextKey lockPrefix) =
        next lockPrefix w := add_other _ (nextKey_ne_servingKey _) 1
    have hmine : Function.update w.process p { w.process p with pc := .outside } p =
        (⟨none, .outside⟩ : LockProcess) := by
      rw [Function.update_self]
      show (⟨(w.process p).heldTicket, .outside⟩ : LockProcess) = ⟨none, .outside⟩
      rw [hheld]
    have hold (q : Process) (hq : q ≠ p) :
        Function.update w.process p { w.process p with pc := .outside } q = w.process q :=
      Function.update_of_ne hq ..
    -- whoever else is inside would have the same ticket
    have hnobody (q : Process) :
        ¬ Inside (Function.update w.process p { w.process p with pc := .outside } q) := by
      intro hq
      by_cases hqp : q = p
      · subst hqp
        rw [hmine] at hq
        exact absurd rfl hq
      · rw [hold q hqp] at hq
        obtain ⟨t, ht⟩ := exists_ticket_of_inside hq
        rw [h.inside q t hq ht] at ht
        exact hqp (h.eq_of_ticket ht hticket)
    refine ⟨?_, hserving, hnobody⟩
    constructor
    · intro q t ht
      show (add w.store (servingKey lockPrefix) 1).2 (servingKey lockPrefix) ≤ t ∧
        t < (add w.store (servingKey lockPrefix) 1).2 (nextKey lockPrefix) ∧ w.drawn[t]? = some q
      change ticketOf (Function.update w.process p { w.process p with pc := .outside } q) =
        some t at ht
      rw [hserving, hnext]
      by_cases hq : q = p
      · subst hq
        rw [hmine] at ht
        cases ht
      · rw [hold q hq] at ht
        obtain ⟨hserved, hdrawn, hat⟩ := h.range q t ht
        have hne : t ≠ serving lockPrefix w := by
          intro heq
          rw [heq] at ht
          exact hq (h.eq_of_ticket ht hticket)
        exact ⟨by omega, hdrawn, hat⟩
    · intro q t hq _
      exact (hnobody q hq).elim
    · intro q
      show Consistent ((add w.store (servingKey lockPrefix) 1).2 (servingKey lockPrefix))
        (Function.update w.process p { w.process p with pc := .outside } q)
      rw [hserving]
      by_cases hq : q = p
      · subst hq
        rw [hmine]
        trivial
      · rw [hold q hq]
        exact (h.consistent q).mono (Nat.le_succ _)
    · show w.drawn.length = (add w.store (servingKey lockPrefix) 1).2 (nextKey lockPrefix)
      rw [hnext]
      exact h.length
    · show (add w.store (servingKey lockPrefix) 1).2 (servingKey lockPrefix) ≤
        (add w.store (servingKey lockPrefix) 1).2 (nextKey lockPrefix)
      rw [hserving, hnext]
      omega
    · exact h.entered
    · intro q _ _
      show w.entered.length = (add w.store (servingKey lockPrefix) 1).2 (servingKey lockPrefix)
      rw [hserving]
      exact hcount
    · intro q hq
      exact (hnobody q hq).elim
    · refine .inl ?_
      show w.entered.length = (add w.store (servingKey lockPrefix) 1).2 (servingKey lockPrefix)
      rw [hserving]
      exact hcount
  · cases hstep

/-- A process that leaves a method with an exception gives up its ticket for good. -/
theorem Served.interrupt (h : Served lockPrefix w) (hstep : interrupt w p = some w') :
    Served lockPrefix w' := by
  unfold TicketLock.interrupt at hstep
  split at hstep
  · cases hstep
  · rename_i hpc
    cases hstep
    have hheld : (w.process p).heldTicket = none := by
      have hconsistent := h.consistent p
      rw [Consistent] at hconsistent
      cases hat : (w.process p).pc with
      | outside => exact absurd hat hpc
      | polling _ => rwa [hat] at hconsistent
      | polled _ _ =>
        rw [hat] at hconsistent
        exact hconsistent.1
      | releasing _ => rwa [hat] at hconsistent
    have hnone : ticketOf ⟨(w.process p).heldTicket, .outside⟩ = none := hheld
    refine h.of_same_counters p ⟨(w.process p).heldTicket, .outside⟩ rfl rfl rfl rfl rfl ?_ ?_ ?_
    · intro t ht
      rw [hnone] at ht
      cases ht
    · intro t ht
      rw [hnone] at ht
      cases ht
    · trivial

/-- Every step keeps the tickets in order. -/
theorem Served.step (h : Served lockPrefix w) {event : Event Process}
    (hstep : step lockPrefix w event = some w') : Served lockPrefix w' := by
  cases event with
  | draw p => exact h.draw hstep
  | poll p => exact h.poll hstep
  | check p => exact h.check hstep
  | release p => exact h.release hstep
  | call p => exact (h.call hstep).1
  | interrupt p => exact h.interrupt hstep

/-! ## Every run -/

theorem served_of_run {events : List (Event Process)}
    (hrun : Lts.run (TicketLock.step lockPrefix) World.initial events = some w) :
    Served lockPrefix w :=
  Lts.run_invariant (fun _ _ _ h hstep => h.step hstep) Served.initial hrun

/-- In every run, whatever the processes do and however their store operations interleave: at most
    one process is between acquire and release and it has the ticket that is served, the processes
    entered in the order in which they drew, and a release hands over from its own ticket to the
    next one, with nobody inside until the process that drew that one enters. -/
theorem ticket_lock (lockPrefix : String) (events : List (Event Process)) (w : World Process)
    (hrun : Lts.run (TicketLock.step lockPrefix) World.initial events = some w) :
    (∀ p q, Inside (w.process p) → Inside (w.process q) → p = q) ∧
      (∀ p, Inside (w.process p) → ticketOf (w.process p) = some (serving lockPrefix w) ∧
        w.drawn[serving lockPrefix w]? = some p ∧ w.entered.getLast? = some p) ∧
      w.entered <+: w.drawn ∧
      ∀ p w', TicketLock.call lockPrefix w p = some w' →
        (w.process p).pc = .releasing (serving lockPrefix w) ∧
          serving lockPrefix w' = serving lockPrefix w + 1 ∧
          (∀ q, ¬ Inside (w'.process q)) ∧
          ∀ q w'', TicketLock.check w' q = some w'' → Inside (w''.process q) →
            w''.drawn[serving lockPrefix w + 1]? = some q := by
  have h := served_of_run hrun
  have hserved (p : Process) (hp : Inside (w.process p)) :
      ticketOf (w.process p) = some (serving lockPrefix w) := by
    obtain ⟨t, ht⟩ := exists_ticket_of_inside hp
    rw [← h.inside p t hp ht]
    exact ht
  have hdrew (p : Process) (hp : Inside (w.process p)) :
      w.drawn[serving lockPrefix w]? = some p := (h.range p _ (hserved p hp)).2.2
  refine ⟨?_, ?_, ?_, ?_⟩
  · intro p q hp hq
    exact h.eq_of_ticket (hserved p hp) (hserved q hq)
  · intro p hp
    refine ⟨hserved p hp, hdrew p hp, ?_⟩
    rw [List.getLast?_eq_getElem?, h.holding p hp, h.entered, List.getElem?_take, h.holding p hp,
      Nat.add_sub_cancel, if_pos (Nat.lt_succ_self _)]
    exact hdrew p hp
  · rw [h.entered]
    exact List.take_prefix ..
  · intro p w' hcall
    obtain ⟨h', hnext, hnobody⟩ := h.call hcall
    refine ⟨?_, hnext, hnobody, ?_⟩
    · unfold TicketLock.call at hcall
      split at hcall
      · rename_i released hpc
        rw [hpc, (h.releasing hpc).1]
      · cases hcall
    · intro q w'' hcheck hq
      have h'' := h'.check hcheck
      obtain ⟨t, ht⟩ := exists_ticket_of_inside hq
      have hnow : serving lockPrefix w'' = serving lockPrefix w + 1 := by
        rw [← hnext]
        unfold TicketLock.check at hcheck
        split at hcheck
        · split at hcheck
          · cases hcheck
            rfl
          · cases hcheck
            rfl
        · cases hcheck
      have hat := (h''.range q t ht).2.2
      rw [h''.inside q t hq ht, hnow] at hat
      exact hat

/-- Two processes: the one that drew second reads before the first one enters and after it has
    called. -/
theorem ticket_lock_handover :
    ∃ w, Lts.run (TicketLock.step "dataset") World.initial
        [.draw true, .draw false, .poll false, .poll true, .check true, .check false, .release true,
          .call true, .poll false, .check false] = some w ∧
      w.entered = [true, false] ∧ w.entered <+: w.drawn ∧ (w.process false).heldTicket = some 1 ∧
      ∀ q, Inside (w.process q) → false = q := by
  have hreached : ∃ w, Lts.run (TicketLock.step "dataset") World.initial
      [.draw true, .draw false, .poll false, .poll true, .check true, .check false, .release true,
        .call true, .poll false, .check false] = some w ∧
      w.entered = [true, false] ∧ (w.process false).heldTicket = some 1 ∧
      Inside (w.process false) := ⟨_, rfl, rfl, rfl, Option.some_ne_none _⟩
  obtain ⟨w, hrun, hentered, hheld, hinside⟩ := hreached
  have h := ticket_lock "dataset" _ w hrun
  exact ⟨w, hrun, hentered, h.2.2.1, hheld, fun q hq => h.1 false q hinside hq⟩

end Miles.TicketLock
