import Miles.Native.Workers.RegistrationHub

/-!
# Whose cells a registration hub serves

Beside the hub stands the record of what each reporter had accepted since it was last added. Every
event keeps the two in step: the served cells are those of the last accepted snapshots.
-/

namespace Miles.Workers.Registration

variable {Addrs : Type} {hub : RegistrationHub Addrs} {snapshot : RegistrationSnapshot Addrs}
  {reporterId cellId : String} {cell : RegisteredCellInfo Addrs} {clock : ℚ}

/-! ## Checked snapshots -/

/-- A snapshot whose cells are its reporter's, each under an id of its own. -/
def Addressable (snapshot : RegistrationSnapshot Addrs) : Prop :=
  (snapshot.cells.map fun cell => cell.info.cellId).Nodup ∧
    ∀ cell ∈ snapshot.cells, cell.reporterId = snapshot.reporterId

theorem addressable_of_checked (h : assertSnapshot hub snapshot = .ok ()) :
    Addressable snapshot := by
  obtain ⟨_, -, h⟩ := Except.bind_eq_ok.mp h
  obtain ⟨_, hrepeated, h⟩ := Except.bind_eq_ok.mp h
  have hrepeated := Except.ensure_eq_ok.mp hrepeated
  constructor
  · rw [List.nodup_iff_count_le_one]
    intro cellId
    by_contra hcount
    -- an id that occurs twice would be listed
    have hmem : cellId ∈ sorted ((snapshot.cells.map fun cell => cell.info.cellId).dedup.filter
        fun cellId => 1 < (snapshot.cells.map fun cell => cell.info.cellId).count cellId) := by
      unfold sorted
      rw [List.mem_mergeSort, List.mem_filter, List.mem_dedup]
      have hpos := List.count_pos_iff.mp (Nat.lt_trans Nat.zero_lt_one (Nat.lt_of_not_le hcount))
      exact ⟨hpos, by simpa using hcount⟩
    rw [hrepeated] at hmem
    cases hmem
  · intro cell hcell
    have hchecked := Except.forM_eq_ok.mp h cell hcell
    obtain ⟨_, howner, -⟩ := Except.bind_eq_ok.mp hchecked
    exact Except.ensure_eq_ok.mp howner

/-- The cells of a checked snapshot by their id. -/
theorem get?_cellsById (h : Addressable snapshot) :
    (cellsById snapshot).get? cellId = some cell ↔
      cell ∈ snapshot.cells ∧ cell.info.cellId = cellId := by
  have hnodup : ((snapshot.cells.map fun cell => (cell.info.cellId, cell)).map Prod.fst).Nodup := by
    rw [List.map_map]
    exact h.1
  rw [PyDict.get?_eq_some, cellsById, PyDict.items_ofList hnodup, List.mem_map]
  constructor
  · intro hmem
    obtain ⟨cell', hcell', heq⟩ := hmem
    cases heq
    exact ⟨hcell', rfl⟩
  · intro hmem
    exact ⟨cell, hmem.1, by rw [hmem.2]⟩

/-! ## What a replacement leaves -/

theorem mem_held : cellId ∈ held hub reporterId ↔
    ∃ cell, hub.cellOfId.get? cellId = some cell ∧ cell.reporterId = reporterId := by
  unfold held
  rw [List.mem_map]
  constructor
  · intro h
    obtain ⟨item, hitem, rfl⟩ := h
    obtain ⟨hmem, howner⟩ := List.mem_filter.mp hitem
    exact ⟨item.2, PyDict.get?_eq_some.mpr hmem, of_decide_eq_true howner⟩
  · intro h
    obtain ⟨cell, hget, howner⟩ := h
    exact ⟨(cellId, cell), List.mem_filter.mpr
      ⟨PyDict.get?_eq_some.mp hget, decide_eq_true howner⟩, rfl⟩

/-- A replacement serves the new cells of the reporter and the old ones of all others, and the new
    ones were nobody else's. -/
theorem replaceCellsOfReporter_eq_ok {replaced : RegistrationHub Addrs}
    {cellOfId : PyDict String (RegisteredCellInfo Addrs)}
    (h : replaceCellsOfReporter hub reporterId cellOfId = .ok replaced) :
    replaced.stateOfReporterId = hub.stateOfReporterId ∧
      (∀ cellId cell, cellOfId.get? cellId ≠ none → hub.cellOfId.get? cellId = some cell →
        cell.reporterId = reporterId) ∧
      ∀ cellId cell, replaced.cellOfId.get? cellId = some cell ↔
        cellOfId.get? cellId = some cell ∨
          cellOfId.get? cellId = none ∧ hub.cellOfId.get? cellId = some cell ∧
            cell.reporterId ≠ reporterId := by
  obtain ⟨_, howned, h⟩ := Except.bind_eq_ok.mp h
  cases h
  have howned' (cellId : String) (cell : RegisteredCellInfo Addrs)
      (hnew : cellOfId.get? cellId ≠ none) (hold : hub.cellOfId.get? cellId = some cell) :
      cell.reporterId = reporterId := by
    have hkey := PyDict.mem_keys_iff.mpr (Option.ne_none_iff_exists'.mp hnew)
    have hcheck := Except.forM_eq_ok.mp howned cellId hkey
    unfold ownedBy at hcheck
    rw [hold] at hcheck
    exact Except.ensure_eq_ok.mp hcheck
  refine ⟨rfl, howned', ?_⟩
  intro cellId cell
  show ((hub.cellOfId.eraseAll _).update cellOfId).get? cellId = some cell ↔ _
  rw [PyDict.get?_update, PyDict.get?_eraseAll]
  cases hnew : cellOfId.get? cellId with
  | some new => simp
  | none =>
    have hkey : cellId ∉ cellOfId.keys := by
      intro hmem
      obtain ⟨new, hget⟩ := PyDict.mem_keys_iff.mp hmem
      rw [hnew] at hget
      cases hget
    -- the old cells of the reporter are gone
    have hgone : cellId ∈ (held hub reporterId).filter (· ∉ cellOfId.keys) ↔
        ∃ cell, hub.cellOfId.get? cellId = some cell ∧ cell.reporterId = reporterId := by
      rw [List.mem_filter, mem_held]
      simp [hkey]
    simp only [reduceCtorEq, false_or, true_and, Option.none_or]
    split
    · rename_i hmem
      obtain ⟨old, hget, howner⟩ := hgone.mp hmem
      rw [hget]
      constructor
      · intro hnone
        cases hnone
      · intro hkept
        cases hkept.1
        exact absurd howner hkept.2
    · rename_i hmem
      constructor
      · intro hget
        exact ⟨hget, fun howner => hmem (hgone.mpr ⟨cell, hget, howner⟩)⟩
      · exact fun hkept => hkept.1

/-! ## What an event does -/

@[simp] theorem get?_addReporter (hub : RegistrationHub Addrs) (reporterId other : String) :
    (addReporter hub reporterId).1.stateOfReporterId.get? other =
      if other = reporterId then some (addReporter hub reporterId).2
      else hub.stateOfReporterId.get? other := by
  unfold addReporter
  split
  · rename_i state h
    by_cases hsame : other = reporterId
    · rw [if_pos hsame, hsame, h]
    · rw [if_neg hsame]
  · exact PyDict.get?_set ..

@[simp] theorem cellOfId_addReporter (hub : RegistrationHub Addrs) (reporterId : String) :
    (addReporter hub reporterId).1.cellOfId = hub.cellOfId := by
  unfold addReporter
  cases hub.stateOfReporterId.get? reporterId <;> rfl

/-- The state of a reporter that may not have one yet. -/
theorem addReporter_snd (hub : RegistrationHub Addrs) (reporterId : String) :
    (addReporter hub reporterId).2 = (hub.stateOfReporterId.get? reporterId).getD {} := by
  unfold addReporter
  cases hub.stateOfReporterId.get? reporterId <;> rfl

/-- A snapshot fails its checks, comes late, claims a cell of another reporter, or replaces what is
    served for its reporter. -/
theorem ingest_cases (hub : RegistrationHub Addrs) (snapshot : RegistrationSnapshot Addrs)
    (clock : ℚ) :
    (∃ error, ingest hub snapshot clock = (hub, .error error)) ∨
    ingest hub snapshot clock = ((addReporter hub snapshot.reporterId).1, .ok .late) ∨
    (∃ error, ingest hub snapshot clock =
      ((addReporter hub snapshot.reporterId).1, .error error)) ∨
    Addressable snapshot ∧
      (addReporter hub snapshot.reporterId).2.sequenceNumber < snapshot.sequenceNumber ∧
      ∃ replaced, replaceCellsOfReporter (addReporter hub snapshot.reporterId).1
          snapshot.reporterId (cellsById snapshot) = .ok replaced ∧
        ingest hub snapshot clock =
          ({ replaced with
              stateOfReporterId := replaced.stateOfReporterId.set snapshot.reporterId
                ⟨snapshot.sequenceNumber, clock⟩ }, .ok .accepted) := by
  unfold ingest
  cases hchecked : assertSnapshot hub snapshot with
  | error error => exact .inl ⟨error, rfl⟩
  | ok _ =>
    by_cases hlate :
      snapshot.sequenceNumber ≤ (addReporter hub snapshot.reporterId).2.sequenceNumber
    · exact .inr (.inl (if_pos hlate))
    · simp only [if_neg hlate]
      unfold accept
      cases hreplace : replaceCellsOfReporter (addReporter hub snapshot.reporterId).1
          snapshot.reporterId (cellsById snapshot) with
      | error error => exact .inr (.inr (.inl ⟨error, rfl⟩))
      | ok replaced =>
        exact .inr (.inr (.inr ⟨addressable_of_checked hchecked, Int.lt_of_not_ge hlate,
          replaced, rfl, rfl⟩))

/-- Removing reporters removes their states and the cells that are served for them. -/
theorem get?_foldl_removeReporter (reporterIds : List String) (hub : RegistrationHub Addrs) :
    (∀ reporterId, (reporterIds.foldl removeReporter hub).stateOfReporterId.get? reporterId =
      if reporterId ∈ reporterIds then none else hub.stateOfReporterId.get? reporterId) ∧
    ∀ cellId cell, (reporterIds.foldl removeReporter hub).cellOfId.get? cellId = some cell ↔
      hub.cellOfId.get? cellId = some cell ∧ cell.reporterId ∉ reporterIds := by
  induction reporterIds generalizing hub with
  | nil => simp
  | cons removed reporterIds ih =>
    obtain ⟨hstates, hcells⟩ := ih (removeReporter hub removed)
    constructor
    · intro reporterId
      rw [List.foldl_cons, hstates]
      show (if _ then none else (hub.stateOfReporterId.erase removed).get? reporterId) = _
      rw [PyDict.get?_erase]
      by_cases hsame : reporterId = removed
      · simp [hsame]
      · simp [hsame]
    · intro cellId cell
      rw [List.foldl_cons, hcells]
      show (hub.cellOfId.eraseAll (held hub removed)).get? cellId = some cell ∧ _ ↔ _
      rw [PyDict.get?_eraseAll, List.mem_cons, not_or]
      split
      · rename_i hheld
        obtain ⟨old, hget, howner⟩ := mem_held.mp hheld
        rw [hget]
        constructor
        · intro h
          cases h.1
        · intro h
          cases h.1
          exact absurd howner h.2.1
      · rename_i hheld
        constructor
        · intro h
          exact ⟨h.1, fun howner => hheld (mem_held.mpr ⟨cell, h.1, howner⟩), h.2⟩
        · exact fun h => ⟨h.1, h.2.2⟩

/-- Whether a sweep removes a reporter. -/
def Stale (hub : RegistrationHub Addrs) (clock : ℚ) (reporterId : String) : Prop :=
  ∃ state, hub.stateOfReporterId.get? reporterId = some state ∧
    state.lastIngestTime ≤ clock - reporterTtlSeconds

/-- A sweep leaves what is not stale. -/
theorem get?_removeStaleReporters (hub : RegistrationHub Addrs) (clock : ℚ) :
    (∀ reporterId state,
      (removeStaleReporters hub clock).stateOfReporterId.get? reporterId = some state ↔
        hub.stateOfReporterId.get? reporterId = some state ∧ ¬ Stale hub clock reporterId) ∧
    ∀ cellId cell, (removeStaleReporters hub clock).cellOfId.get? cellId = some cell ↔
      hub.cellOfId.get? cellId = some cell ∧ ¬ Stale hub clock cell.reporterId := by
  have hmem (reporterId : String) : reporterId ∈ (hub.stateOfReporterId.items.filter fun item =>
      item.2.lastIngestTime ≤ clock - reporterTtlSeconds).map Prod.fst ↔
        Stale hub clock reporterId := by
    rw [List.mem_map]
    constructor
    · intro h
      obtain ⟨item, hitem, rfl⟩ := h
      obtain ⟨hitem, hold⟩ := List.mem_filter.mp hitem
      exact ⟨item.2, PyDict.get?_eq_some.mpr hitem, of_decide_eq_true hold⟩
    · intro h
      obtain ⟨state, hget, hold⟩ := h
      exact ⟨(reporterId, state), List.mem_filter.mpr
        ⟨PyDict.get?_eq_some.mp hget, decide_eq_true hold⟩, rfl⟩
  obtain ⟨hstates, hcells⟩ := get?_foldl_removeReporter
    ((hub.stateOfReporterId.items.filter fun item =>
      item.2.lastIngestTime ≤ clock - reporterTtlSeconds).map Prod.fst) hub
  constructor
  · intro reporterId state
    unfold removeStaleReporters
    rw [hstates]
    by_cases hstale : Stale hub clock reporterId
    · rw [if_pos ((hmem _).mpr hstale)]
      simp [hstale]
    · rw [if_neg fun h => hstale ((hmem _).mp h)]
      simp [hstale]
  · intro cellId cell
    unfold removeStaleReporters
    rw [hcells, hmem]

/-! ## The record beside the hub -/

/-- A hub, and what each reporter had accepted, and when, since it was last added. -/
structure Tracked (Addrs : Type) where
  hub : RegistrationHub Addrs
  since : String → List (RegistrationSnapshot Addrs × ℚ)

/-- What an event makes the hub accept from a reporter. -/
def newlyAccepted (hub : RegistrationHub Addrs) (event : Event Addrs) (reporterId : String) :
    List (RegistrationSnapshot Addrs × ℚ) :=
  match event with
  | .sweep _ => []
  | .ingest snapshot clock =>
    match (ingest hub snapshot clock).2 with
    | .ok .accepted => if snapshot.reporterId = reporterId then [(snapshot, clock)] else []
    | _ => []

/-- The hub after an event, and the record of it: a reporter that is not there has no record. -/
def track (t : Tracked Addrs) (event : Event Addrs) : Tracked Addrs where
  hub := step t.hub event
  since reporterId :=
    match (step t.hub event).stateOfReporterId.get? reporterId with
    | none => []
    | some _ => t.since reporterId ++ newlyAccepted t.hub event reporterId

/-- The state of a reporter that had these snapshots accepted. -/
def stateAfter (accepted : List (RegistrationSnapshot Addrs × ℚ)) : ReporterState :=
  match accepted.getLast? with
  | none => {}
  | some last => ⟨last.1.sequenceNumber, last.2⟩

@[simp] theorem stateAfter_concat (accepted : List (RegistrationSnapshot Addrs × ℚ))
    (last : RegistrationSnapshot Addrs × ℚ) :
    stateAfter (accepted ++ [last]) = ⟨last.1.sequenceNumber, last.2⟩ := by
  unfold stateAfter
  rw [List.getLast?_concat]

/-- Each accepted snapshot has a higher number than those before it. -/
def Upwards (accepted : List (RegistrationSnapshot Addrs × ℚ)) : Prop :=
  accepted.Pairwise fun a b => a.1.sequenceNumber < b.1.sequenceNumber

/-- The last of them is the highest. -/
theorem Upwards.getLast?_eq_some {accepted : List (RegistrationSnapshot Addrs × ℚ)}
    (h : Upwards accepted) {highest : RegistrationSnapshot Addrs × ℚ} :
    accepted.getLast? = some highest ↔ highest ∈ accepted ∧
      ∀ other ∈ accepted, other ≠ highest →
        other.1.sequenceNumber < highest.1.sequenceNumber := by
  cases List.eq_nil_or_concat accepted with
  | inl hnil => simp [hnil]
  | inr hconcat =>
    obtain ⟨front, last, rfl⟩ := hconcat
    rw [List.concat_eq_append] at h ⊢
    have hfront (other) (hother : other ∈ front) :
        other.1.sequenceNumber < last.1.sequenceNumber :=
      (List.pairwise_append.mp h).2.2 other hother last (List.mem_singleton_self last)
    rw [List.getLast?_concat, Option.some.injEq]
    constructor
    · intro heq
      subst heq
      refine ⟨List.mem_append_right _ (List.mem_singleton_self _), ?_⟩
      intro other hother hne
      cases List.mem_append.mp hother with
      | inl hmem => exact hfront other hmem
      | inr hmem => exact absurd (List.mem_singleton.mp hmem) hne
    · intro hhighest
      by_contra hne
      have hlt := hhighest.2 last (List.mem_append_right _ (List.mem_singleton_self _)) hne
      cases List.mem_append.mp hhighest.1 with
      | inl hmem => exact absurd (hfront highest hmem) (Int.not_lt.mpr (Int.le_of_lt hlt))
      | inr hmem => exact hne (List.mem_singleton.mp hmem).symm

/-- A snapshot with a higher number than the last one. -/
theorem Upwards.concat {accepted : List (RegistrationSnapshot Addrs × ℚ)} (h : Upwards accepted)
    {next : RegistrationSnapshot Addrs × ℚ}
    (hnext : (stateAfter accepted).sequenceNumber < next.1.sequenceNumber) :
    Upwards (accepted ++ [next]) := by
  unfold Upwards
  rw [List.pairwise_append]
  refine ⟨h, List.pairwise_singleton _ _, ?_⟩
  intro other hother last hlast
  rw [List.mem_singleton.mp hlast]
  apply Int.lt_of_le_of_lt _ hnext
  cases hget : accepted.getLast? with
  | none =>
    rw [List.getLast?_eq_none_iff.mp hget] at hother
    cases hother
  | some previous =>
    unfold stateAfter
    simp only [hget]
    by_cases hsame : other = previous
    · rw [hsame]
    · exact Int.le_of_lt ((h.getLast?_eq_some.mp hget).2 other hother hsame)

/-- The hub and its record are in step. -/
structure Recorded (t : Tracked Addrs) : Prop where
  /-- Without a state there is no record. -/
  removed : ∀ reporterId, t.hub.stateOfReporterId.get? reporterId = none → t.since reporterId = []
  /-- The state is that after the last accepted snapshot. -/
  state : ∀ reporterId state, t.hub.stateOfReporterId.get? reporterId = some state →
    state = stateAfter (t.since reporterId)
  /-- The accepted snapshots are numbered upwards. -/
  upwards : ∀ reporterId, Upwards (t.since reporterId)
  addressable : ∀ reporterId, ∀ accepted ∈ t.since reporterId,
    Addressable accepted.1 ∧ accepted.1.reporterId = reporterId
  /-- The served cells are those of the last accepted snapshots. -/
  cells : ∀ cellId cell, t.hub.cellOfId.get? cellId = some cell ↔
    ∃ last, (t.since cell.reporterId).getLast? = some last ∧ cell ∈ last.1.cells ∧
      cell.info.cellId = cellId

/-- An event that neither removes a reporter nor accepts a snapshot changes no record. -/
theorem Recorded.of_eq {t t' : Tracked Addrs} (h : Recorded t)
    (hsince : t'.since = t.since) (hcells : t'.hub.cellOfId = t.hub.cellOfId)
    (hstates : ∀ reporterId, t'.hub.stateOfReporterId.get? reporterId =
      t.hub.stateOfReporterId.get? reporterId ∨
      t.hub.stateOfReporterId.get? reporterId = none ∧
        t'.hub.stateOfReporterId.get? reporterId = some {}) : Recorded t' where
  removed reporterId hnone := by
    rw [hsince]
    cases hstates reporterId with
    | inl hsame => exact h.removed reporterId (hsame.symm.trans hnone)
    | inr hadded => exact h.removed reporterId hadded.1
  state reporterId state hstate := by
    rw [hsince]
    cases hstates reporterId with
    | inl hsame => exact h.state reporterId state (hsame.symm.trans hstate)
    | inr hadded =>
      rw [hadded.2] at hstate
      cases hstate
      rw [h.removed reporterId hadded.1]
      rfl
  upwards := by
    rw [hsince]
    exact h.upwards
  addressable := by
    rw [hsince]
    exact h.addressable
  cells := by
    rw [hsince, hcells]
    exact h.cells

variable {t : Tracked Addrs}

/-- The record of a reporter that stays. -/
theorem since_track_of_some {event : Event Addrs} {reporterId : String}
    {state : ReporterState}
    (h : (step t.hub event).stateOfReporterId.get? reporterId = some state) :
    (track t event).since reporterId = t.since reporterId ++ newlyAccepted t.hub event reporterId := by
  unfold track
  simp only [h]

/-- The record of a reporter that is not there. -/
theorem since_track_of_none {event : Event Addrs} {reporterId : String}
    (h : (step t.hub event).stateOfReporterId.get? reporterId = none) :
    (track t event).since reporterId = [] := by
  unfold track
  simp only [h]

/-- An event that accepts nothing and removes nobody leaves the record. -/
theorem Recorded.since_track {event : Event Addrs} (h : Recorded t)
    (hnew : ∀ reporterId, newlyAccepted t.hub event reporterId = [])
    (hstays : ∀ reporterId, (step t.hub event).stateOfReporterId.get? reporterId = none →
      t.hub.stateOfReporterId.get? reporterId = none) :
    (track t event).since = t.since := by
  funext reporterId
  cases hstate : (step t.hub event).stateOfReporterId.get? reporterId with
  | none => rw [since_track_of_none hstate, h.removed reporterId (hstays reporterId hstate)]
  | some state => rw [since_track_of_some hstate, hnew, List.append_nil]

/-- A reporter that is added starts without a record. -/
theorem get?_addReporter_cases (hub : RegistrationHub Addrs) (added reporterId : String) :
    (addReporter hub added).1.stateOfReporterId.get? reporterId =
        hub.stateOfReporterId.get? reporterId ∨
      hub.stateOfReporterId.get? reporterId = none ∧
        (addReporter hub added).1.stateOfReporterId.get? reporterId = some {} := by
  rw [get?_addReporter, addReporter_snd]
  split
  · rename_i hsame
    subst hsame
    cases hub.stateOfReporterId.get? reporterId with
    | none => exact .inr ⟨rfl, rfl⟩
    | some state => exact .inl rfl
  · exact .inl rfl

/-- A snapshot that only adds its reporter keeps the record. -/
theorem Recorded.added (h : Recorded t)
    (hhub : (ingest t.hub snapshot clock).1 = (addReporter t.hub snapshot.reporterId).1)
    (hnew : ∀ reporterId, newlyAccepted t.hub (.ingest snapshot clock) reporterId = []) :
    Recorded (track t (.ingest snapshot clock)) := by
  have hstates (reporterId : String) := get?_addReporter_cases t.hub snapshot.reporterId reporterId
  rw [← hhub] at hstates
  apply h.of_eq
  · apply h.since_track hnew
    intro reporterId hnone
    cases hstates reporterId with
    | inl hsame => exact hsame.symm.trans hnone
    | inr hadded => exact hadded.1
  · show (ingest t.hub snapshot clock).1.cellOfId = _
    rw [hhub, cellOfId_addReporter]
  · exact hstates

/-- A sweep drops the records of the reporters it removes. -/
theorem Recorded.sweep (h : Recorded t) (clock : ℚ) :
    Recorded (track t (.sweep clock)) := by
  obtain ⟨hstates, hcells⟩ := get?_removeStaleReporters t.hub clock
  have hsince (reporterId : String) : (track t (.sweep clock)).since reporterId = [] ∨
      ¬ Stale t.hub clock reporterId ∧
        (track t (.sweep clock)).since reporterId = t.since reporterId := by
    cases hstate : (step t.hub (.sweep clock)).stateOfReporterId.get? reporterId with
    | none => exact .inl (since_track_of_none hstate)
    | some state =>
      have hkept := (hstates reporterId state).mp hstate
      rw [since_track_of_some hstate]
      exact .inr ⟨hkept.2, List.append_nil _⟩
  constructor
  · intro reporterId hnone
    exact since_track_of_none hnone
  · intro reporterId state hstate
    have hkept := (hstates reporterId state).mp hstate
    rw [since_track_of_some hstate, h.state reporterId state hkept.1]
    exact congrArg stateAfter (List.append_nil _).symm
  · intro reporterId
    cases hsince reporterId with
    | inl hnil =>
      rw [hnil]
      exact List.Pairwise.nil
    | inr hkept =>
      rw [hkept.2]
      exact h.upwards reporterId
  · intro reporterId accepted hmem
    cases hsince reporterId with
    | inl hnil =>
      rw [hnil] at hmem
      cases hmem
    | inr hkept =>
      rw [hkept.2] at hmem
      exact h.addressable reporterId accepted hmem
  · intro cellId cell
    show (removeStaleReporters t.hub clock).cellOfId.get? cellId = some cell ↔ _
    rw [hcells, h.cells]
    constructor
    · intro hserved
      obtain ⟨⟨last, hlast, hcell⟩, hfresh⟩ := hserved
      -- the owner has a record, so it has a state, and that is kept
      cases hstate : t.hub.stateOfReporterId.get? cell.reporterId with
      | none =>
        rw [h.removed _ hstate] at hlast
        cases hlast
      | some state =>
        have hkept : (step t.hub (.sweep clock)).stateOfReporterId.get? cell.reporterId =
            some state := (hstates cell.reporterId state).mpr ⟨hstate, hfresh⟩
        refine ⟨last, ?_, hcell⟩
        rw [since_track_of_some hkept]
        exact (congrArg List.getLast? (List.append_nil _)).trans hlast
    · intro hserved
      obtain ⟨last, hlast, hcell⟩ := hserved
      cases hsince cell.reporterId with
      | inl hnil =>
        rw [hnil] at hlast
        cases hlast
      | inr hkept =>
        rw [hkept.2] at hlast
        exact ⟨⟨last, hlast, hcell⟩, hkept.1⟩

/-- What is recorded of an accepted snapshot. -/
theorem newlyAccepted_of_accepted
    (haccepted : (ingest hub snapshot clock).2 = .ok .accepted) (reporterId : String) :
    newlyAccepted hub (.ingest snapshot clock) reporterId =
      if snapshot.reporterId = reporterId then [(snapshot, clock)] else [] := by
  unfold newlyAccepted
  simp only [haccepted]

/-- An accepted snapshot takes the place of what is served for its reporter. -/
theorem Recorded.accepted (h : Recorded t) {replaced : RegistrationHub Addrs}
    (haddressable : Addressable snapshot)
    (hnewer : (addReporter t.hub snapshot.reporterId).2.sequenceNumber < snapshot.sequenceNumber)
    (hreplaced : replaceCellsOfReporter (addReporter t.hub snapshot.reporterId).1
      snapshot.reporterId (cellsById snapshot) = .ok replaced)
    (hingest : ingest t.hub snapshot clock =
      ({ replaced with
          stateOfReporterId := replaced.stateOfReporterId.set snapshot.reporterId
            ⟨snapshot.sequenceNumber, clock⟩ }, .ok .accepted)) :
    Recorded (track t (.ingest snapshot clock)) := by
  obtain ⟨hsame, hown, hcells⟩ := replaceCellsOfReporter_eq_ok hreplaced
  rw [cellOfId_addReporter] at hcells hown
  have hnew := newlyAccepted_of_accepted (congrArg Prod.snd hingest)
  have hhub : (step t.hub (.ingest snapshot clock)) =
      { replaced with
        stateOfReporterId := replaced.stateOfReporterId.set snapshot.reporterId
          ⟨snapshot.sequenceNumber, clock⟩ } := congrArg Prod.fst hingest
  have hstates (reporterId : String) :
      (step t.hub (.ingest snapshot clock)).stateOfReporterId.get? reporterId =
        if reporterId = snapshot.reporterId then some ⟨snapshot.sequenceNumber, clock⟩
        else t.hub.stateOfReporterId.get? reporterId := by
    rw [hhub]
    show (replaced.stateOfReporterId.set _ _).get? reporterId = _
    rw [PyDict.get?_set, hsame, get?_addReporter]
    split <;> rfl
  have hmine : (track t (.ingest snapshot clock)).since snapshot.reporterId =
      t.since snapshot.reporterId ++ [(snapshot, clock)] := by
    rw [since_track_of_some (by rw [hstates, if_pos rfl]), hnew, if_pos rfl]
  have hothers (reporterId : String) (hne : reporterId ≠ snapshot.reporterId) :
      (track t (.ingest snapshot clock)).since reporterId = t.since reporterId := by
    have hget := hstates reporterId
    rw [if_neg hne] at hget
    cases hstate : t.hub.stateOfReporterId.get? reporterId with
    | none => rw [since_track_of_none (hget.trans hstate), h.removed reporterId hstate]
    | some state =>
      rw [since_track_of_some (hget.trans hstate), hnew, if_neg fun heq => hne heq.symm,
        List.append_nil]
  -- the number that the snapshot had to exceed
  have hprevious : (stateAfter (t.since snapshot.reporterId)).sequenceNumber <
      snapshot.sequenceNumber := by
    rw [addReporter_snd] at hnewer
    cases hstate : t.hub.stateOfReporterId.get? snapshot.reporterId with
    | none =>
      rw [hstate] at hnewer
      rw [h.removed _ hstate]
      exact hnewer
    | some state =>
      rw [hstate] at hnewer
      rw [← h.state _ _ hstate]
      exact hnewer
  constructor
  · intro reporterId hnone
    exact since_track_of_none hnone
  · intro reporterId state hstate
    have hget := hstates reporterId
    by_cases hsame : reporterId = snapshot.reporterId
    · rw [if_pos hsame] at hget
      rw [hsame, hmine, stateAfter_concat]
      exact Option.some.inj (hstate.symm.trans hget)
    · rw [if_neg hsame] at hget
      rw [hothers reporterId hsame]
      exact h.state reporterId state (hget.symm.trans hstate)
  · intro reporterId
    by_cases hsame : reporterId = snapshot.reporterId
    · rw [hsame, hmine]
      exact (h.upwards _).concat hprevious
    · rw [hothers reporterId hsame]
      exact h.upwards reporterId
  · intro reporterId accepted hmem
    by_cases hsame : reporterId = snapshot.reporterId
    · rw [hsame, hmine] at hmem
      cases List.mem_append.mp hmem with
      | inl hold => exact hsame ▸ h.addressable _ accepted hold
      | inr hlast =>
        rw [List.mem_singleton.mp hlast]
        exact ⟨haddressable, hsame.symm⟩
    · rw [hothers reporterId hsame] at hmem
      exact h.addressable reporterId accepted hmem
  · intro cellId cell
    have hserved : (track t (.ingest snapshot clock)).hub.cellOfId = replaced.cellOfId := by
      show (step t.hub (.ingest snapshot clock)).cellOfId = _
      rw [hhub]
    rw [hserved, hcells]
    by_cases howner : cell.reporterId = snapshot.reporterId
    · -- of this reporter, exactly the snapshot's cells are served
      rw [howner, hmine, List.getLast?_concat, get?_cellsById haddressable]
      simp
    · rw [hothers _ howner, get?_cellsById haddressable]
      constructor
      · intro h'
        cases h' with
        | inl hmem => exact absurd (haddressable.2 cell hmem.1) howner
        | inr hold => exact (h.cells cellId cell).mp hold.2.1
      · intro hold
        have hget := (h.cells cellId cell).mpr hold
        refine .inr ⟨?_, hget, howner⟩
        by_contra hclaimed
        exact howner (hown cellId cell hclaimed hget)

/-- Every event keeps the hub and its record in step. -/
theorem Recorded.track (h : Recorded t) (event : Event Addrs) :
    Recorded (track t event) := by
  cases event with
  | sweep clock => exact h.sweep clock
  | ingest snapshot clock =>
    obtain ⟨error, hfailed⟩ | hlate | ⟨error, hclaimed⟩ |
      ⟨haddressable, hnewer, replaced, hreplaced, hingest⟩ := ingest_cases t.hub snapshot clock
    · -- the snapshot failed its checks, and nothing happened
      have hhub : (ingest t.hub snapshot clock).1 = t.hub := congrArg Prod.fst hfailed
      have hnew (reporterId : String) :
          newlyAccepted t.hub (.ingest snapshot clock) reporterId = [] := by
        unfold newlyAccepted
        simp only [hfailed]
      have hget (reporterId : String) :
          (step t.hub (.ingest snapshot clock)).stateOfReporterId.get? reporterId =
            t.hub.stateOfReporterId.get? reporterId :=
        congrArg (fun hub => hub.stateOfReporterId.get? reporterId) hhub
      apply h.of_eq
      · exact h.since_track hnew fun reporterId hnone => (hget reporterId).symm.trans hnone
      · exact congrArg RegistrationHub.cellOfId hhub
      · exact fun reporterId => .inl (hget reporterId)
    · apply h.added (congrArg Prod.fst hlate)
      intro reporterId
      unfold newlyAccepted
      simp only [hlate]
    · apply h.added (congrArg Prod.fst hclaimed)
      intro reporterId
      unfold newlyAccepted
      simp only [hclaimed]
    · exact h.accepted haddressable hnewer hreplaced hingest

/-! ## Runs -/

/-- A hub that has seen nothing yet. -/
def fresh (runUuid : String) : Tracked Addrs := ⟨{ runUuid }, fun _ => []⟩

/-- The hub after these events, with its record. -/
def after (runUuid : String) (events : List (Event Addrs)) : Tracked Addrs :=
  events.foldl track (fresh runUuid)

/-- The record only looks on. -/
theorem hub_after (runUuid : String) (events : List (Event Addrs)) :
    (after runUuid events).hub = events.foldl step { runUuid } := by
  have hfold (t : Tracked Addrs) : (events.foldl track t).hub = events.foldl step t.hub := by
    induction events generalizing t with
    | nil => rfl
    | cons event events ih => exact ih (track t event)
  exact hfold (fresh runUuid)

theorem recorded_after (runUuid : String) (events : List (Event Addrs)) :
    Recorded (after runUuid events) := by
  have hfold (t : Tracked Addrs) (h : Recorded t) : Recorded (events.foldl track t) := by
    induction events generalizing t with
    | nil => exact h
    | cons event events ih => exact ih (track t event) (h.track event)
  apply hfold
  constructor
  · exact fun _ _ => rfl
  · intro reporterId state hstate
    cases hstate
  · exact fun _ => List.Pairwise.nil
  · intro reporterId accepted hmem
    cases hmem
  · intro cellId cell
    constructor
    · intro h
      cases h
    · intro h
      obtain ⟨last, hlast, -⟩ := h
      cases hlast

/-- The highest-numbered snapshot that was accepted from a reporter, and when. -/
def Highest (t : Tracked Addrs) (reporterId : String)
    (highest : RegistrationSnapshot Addrs × ℚ) : Prop :=
  highest ∈ t.since reporterId ∧ ∀ accepted ∈ t.since reporterId,
    accepted ≠ highest → accepted.1.sequenceNumber < highest.1.sequenceNumber

/-- The number of the last snapshot of a reporter, and the initial one for a reporter without a
    state. -/
def sequenceNumberOf (hub : RegistrationHub Addrs) (reporterId : String) : Int :=
  ((hub.stateOfReporterId.get? reporterId).getD {}).sequenceNumber

/-- A failed snapshot leaves the served cells, and every state that was there. -/
theorem ingest_error {error : HubError} (h : (ingest hub snapshot clock).2 = .error error) :
    (ingest hub snapshot clock).1.cellOfId = hub.cellOfId ∧
      ∀ reporterId, (ingest hub snapshot clock).1.stateOfReporterId.get? reporterId =
          hub.stateOfReporterId.get? reporterId ∨
        hub.stateOfReporterId.get? reporterId = none ∧
          (ingest hub snapshot clock).1.stateOfReporterId.get? reporterId = some {} := by
  obtain ⟨_, hfailed⟩ | hlate | ⟨_, hclaimed⟩ | ⟨-, -, _, -, hingest⟩ :=
    ingest_cases hub snapshot clock
  · rw [hfailed]
    exact ⟨rfl, fun _ => .inl rfl⟩
  · rw [hlate] at h
    cases h
  · rw [hclaimed]
    exact ⟨cellOfId_addReporter hub _, get?_addReporter_cases hub _⟩
  · rw [hingest] at h
    cases h

/-- A snapshot is accepted when it passes its own checks, is numbered higher than the reporter's
    last one and claims no cell that is served for another reporter. -/
theorem ingest_eq_accepted : (ingest hub snapshot clock).2 = .ok .accepted ↔
    assertSnapshot hub snapshot = .ok () ∧
      sequenceNumberOf hub snapshot.reporterId < snapshot.sequenceNumber ∧
      ∀ cell ∈ snapshot.cells, ∀ owner, hub.cellOfId.get? cell.info.cellId = some owner →
        owner.reporterId = snapshot.reporterId := by
  unfold ingest sequenceNumberOf
  rw [← addReporter_snd]
  cases hchecked : assertSnapshot hub snapshot with
  | error error => simp
  | ok _ =>
    by_cases hlate :
      snapshot.sequenceNumber ≤ (addReporter hub snapshot.reporterId).2.sequenceNumber
    · simp [if_pos hlate, Int.not_lt.mpr hlate]
    have haddressable := addressable_of_checked hchecked
    have howned : (cellsById snapshot).keys.forM
        (ownedBy (addReporter hub snapshot.reporterId).1 snapshot.reporterId) = .ok ⟨⟩ ↔
        ∀ cell ∈ snapshot.cells, ∀ owner, hub.cellOfId.get? cell.info.cellId = some owner →
          owner.reporterId = snapshot.reporterId := by
      rw [Except.forM_eq_ok]
      unfold ownedBy
      rw [cellOfId_addReporter]
      constructor
      · intro h cell hcell owner howner
        have hkey := h cell.info.cellId (PyDict.mem_keys_iff.mpr
          ⟨cell, (get?_cellsById haddressable).mpr ⟨hcell, rfl⟩⟩)
        rw [howner] at hkey
        exact Except.ensure_eq_ok.mp hkey
      · intro h key hkey
        obtain ⟨cell, hcell⟩ := PyDict.mem_keys_iff.mp hkey
        obtain ⟨hmem, rfl⟩ := (get?_cellsById haddressable).mp hcell
        cases hget : hub.cellOfId.get? cell.info.cellId with
        | none => rfl
        | some owner => exact Except.ensure_eq_ok.mpr (h cell hmem owner hget)
    rw [← howned]
    simp only [if_neg hlate, Int.not_le.mp hlate, true_and]
    unfold accept replaceCellsOfReporter
    cases (cellsById snapshot).keys.forM
        (ownedBy (addReporter hub snapshot.reporterId).1 snapshot.reporterId) with
    | error error => exact ⟨fun h => (by cases h), fun h => (by cases h)⟩
    | ok _ => exact ⟨fun _ => rfl, fun _ => rfl⟩

/-- After every run of snapshots and sweeps, the served cells are those of the highest-numbered
    accepted snapshots of the reporters that are there, no two of them share a cell, a snapshot is
    accepted exactly when it is well formed, not late and claims no other reporter's cell, one that
    fails changes no served cell and no number, and a sweep leaves no cell of a reporter that was
    not heard of within the time to live. -/
theorem registration_ownership (runUuid : String) (events : List (Event Addrs)) :
    (∀ cellId cell, (after runUuid events).hub.cellOfId.get? cellId = some cell ↔
      ∃ reporterId state highest,
        (after runUuid events).hub.stateOfReporterId.get? reporterId = some state ∧
          Highest (after runUuid events) reporterId highest ∧ cell ∈ highest.1.cells ∧
          cell.info.cellId = cellId) ∧
      (∀ reporterId highest, Highest (after runUuid events) reporterId highest →
        ∀ cell ∈ highest.1.cells, cell.reporterId = reporterId ∧
          ∀ reporterId' highest', Highest (after runUuid events) reporterId' highest' →
            ∀ cell' ∈ highest'.1.cells, cell'.info.cellId = cell.info.cellId →
              reporterId' = reporterId ∧ cell' = cell) ∧
      (∀ snapshot clock, (ingest (after runUuid events).hub snapshot clock).2 = .ok .accepted ↔
        assertSnapshot (after runUuid events).hub snapshot = .ok () ∧
          sequenceNumberOf (after runUuid events).hub snapshot.reporterId <
            snapshot.sequenceNumber ∧
          ∀ cell ∈ snapshot.cells, ∀ owner,
            (after runUuid events).hub.cellOfId.get? cell.info.cellId = some owner →
              owner.reporterId = snapshot.reporterId) ∧
      (∀ snapshot clock error, (ingest (after runUuid events).hub snapshot clock).2 = .error error →
        (ingest (after runUuid events).hub snapshot clock).1.cellOfId =
            (after runUuid events).hub.cellOfId ∧
          ∀ reporterId, sequenceNumberOf (ingest (after runUuid events).hub snapshot clock).1
            reporterId = sequenceNumberOf (after runUuid events).hub reporterId) ∧
      (∀ clock reporterId highest, Highest (after runUuid events) reporterId highest →
        highest.2 ≤ clock - reporterTtlSeconds → ∀ cellId cell,
          (removeStaleReporters (after runUuid events).hub clock).cellOfId.get? cellId =
            some cell → cell.reporterId ≠ reporterId) := by
  have h := recorded_after runUuid events
  have hhighest (reporterId : String) (highest : RegistrationSnapshot Addrs × ℚ) :
      Highest (after runUuid events) reporterId highest ↔
        ((after runUuid events).since reporterId).getLast? = some highest :=
    (h.upwards reporterId).getLast?_eq_some.symm
  -- a cell of a highest snapshot is served, and is that reporter's
  have howner (reporterId : String) (highest : RegistrationSnapshot Addrs × ℚ)
      (hmem : Highest (after runUuid events) reporterId highest)
      (cell : RegisteredCellInfo Addrs) (hcell : cell ∈ highest.1.cells) :
      cell.reporterId = reporterId := by
    obtain ⟨haddressable, hreporter⟩ := h.addressable reporterId highest hmem.1
    exact (haddressable.2 cell hcell).trans hreporter
  have hserved (reporterId : String) (highest : RegistrationSnapshot Addrs × ℚ)
      (hmem : Highest (after runUuid events) reporterId highest)
      (cell : RegisteredCellInfo Addrs) (hcell : cell ∈ highest.1.cells) :
      (after runUuid events).hub.cellOfId.get? cell.info.cellId = some cell := by
    rw [h.cells]
    refine ⟨highest, ?_, hcell, rfl⟩
    rw [howner reporterId highest hmem cell hcell]
    exact (hhighest reporterId highest).mp hmem
  -- a reporter with a record has the state after it
  have hstate (reporterId : String) (highest : RegistrationSnapshot Addrs × ℚ)
      (hmem : Highest (after runUuid events) reporterId highest) :
      (after runUuid events).hub.stateOfReporterId.get? reporterId =
        some ⟨highest.1.sequenceNumber, highest.2⟩ := by
    have hlast := (hhighest reporterId highest).mp hmem
    cases hget : (after runUuid events).hub.stateOfReporterId.get? reporterId with
    | none =>
      rw [h.removed reporterId hget] at hlast
      cases hlast
    | some state =>
      rw [h.state reporterId state hget]
      unfold stateAfter
      simp only [hlast]
  refine ⟨?_, ?_, fun snapshot clock => ingest_eq_accepted, ?_, ?_⟩
  · intro cellId cell
    constructor
    · intro hget
      obtain ⟨highest, hlast, hcell, hid⟩ := (h.cells cellId cell).mp hget
      have hmem := (hhighest cell.reporterId highest).mpr hlast
      exact ⟨cell.reporterId, _, highest, hstate _ _ hmem, hmem, hcell, hid⟩
    · intro hexists
      obtain ⟨reporterId, state, highest, -, hmem, hcell, rfl⟩ := hexists
      exact hserved reporterId highest hmem cell hcell
  · intro reporterId highest hmem cell hcell
    refine ⟨howner reporterId highest hmem cell hcell, ?_⟩
    intro reporterId' highest' hmem' cell' hcell' hid
    have hget := hserved reporterId highest hmem cell hcell
    have hget' := hserved reporterId' highest' hmem' cell' hcell'
    rw [hid, hget] at hget'
    cases hget'
    exact ⟨(howner reporterId' highest' hmem' _ hcell').symm.trans
      (howner reporterId highest hmem _ hcell), rfl⟩
  · intro snapshot clock error herror
    obtain ⟨hcells, hstates⟩ := ingest_error herror
    refine ⟨hcells, ?_⟩
    intro reporterId
    unfold sequenceNumberOf
    cases hstates reporterId with
    | inl hsame => rw [hsame]
    | inr hadded =>
      rw [hadded.1, hadded.2]
      rfl
  · intro clock reporterId highest hmem hold cellId cell hget hsame
    have hfresh := (((get?_removeStaleReporters _ clock).2 cellId cell).mp hget).2
    apply hfresh
    rw [hsame]
    exact ⟨_, hstate reporterId highest hmem, hold⟩

/-- One deployment with one cell. -/
def oneCell (sequenceNumber : Int) : RegistrationSnapshot Unit :=
  ⟨"run", "west", sequenceNumber,
    [⟨"west", ⟨"pool-00000", "pool", ["pool-00000-00000"]⟩, [⟨"pool-00000-00000", ()⟩]⟩]⟩

/-- A late snapshot changes nothing, and a sweep in time keeps the cell. -/
theorem registration_ownership_lateThenSweep :
    ∃ reporterId highest, Highest (after "run" [.ingest (oneCell 2) 10, .ingest (oneCell 1) 20,
      .sweep 240]) reporterId highest ∧ ∃ cell ∈ highest.1.cells,
        cell.info.cellId = "pool-00000" := by
  have hserved : ((after "run" [.ingest (oneCell 2) 10, .ingest (oneCell 1) 20,
      .sweep 240]).hub.cellOfId.get? "pool-00000").isSome = true := by decide +kernel
  obtain ⟨cell, hget⟩ := Option.isSome_iff_exists.mp hserved
  obtain ⟨reporterId, -, highest, -, hhighest, hcell, hid⟩ :=
    ((registration_ownership "run" _).1 _ cell).mp hget
  exact ⟨reporterId, highest, hhighest, cell, hcell, hid⟩

end Miles.Workers.Registration
