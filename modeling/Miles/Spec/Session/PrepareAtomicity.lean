import Miles.Spec.Session.RepInvariant

/-!
# Atomicity of request preparation

A preparation that raises leaves the session as it was: rolling back is its last action.  One
that returns has selected the longest prefix of generated checkpoints whose messages the request
matches, and discards at most one checkpoint.

The session is then exactly that prefix, with one exception: when no checkpoint is discarded, no
message is either.  Messages past the end of the last checkpoint stay, also those that the request
does not match.  A session has such messages after a commit that found more messages than its
request had.
-/

namespace Miles.Session

variable {Msg Args : Type}

namespace LinearTrajectory

/-- The session with its first `n` generated checkpoints and the messages that end with the last
    of them. -/
def checkpointPrefix (s : LinearTrajectory Msg Args) (n : Nat) : LinearTrajectory Msg Args :=
  { s with
    messages := s.messages.take (s.checkpointMessageEnd (checkpointAt n))
    trajectoryTokenIds := s.trajectoryTokenIds.take n
    turnArgsHistory := s.turnArgsHistory.take n
    records := s.records.take n
    generatedCheckpointMessageEnds := s.generatedCheckpointMessageEnds.take n
    numAssistant := n }

/-- The messages of the first `n` checkpoints are among the first `matched` messages. -/
def Contained (s : LinearTrajectory Msg Args) (matched n : Nat) : Prop :=
  n ≤ s.numAssistant ∧
    (s.messages.take (s.checkpointMessageEnd (checkpointAt n))).length ≤ matched

instance (s : LinearTrajectory Msg Args) (matched n : Nat) : Decidable (s.Contained matched n) :=
  inferInstanceAs (Decidable (_ ∧ _))

/-- The session has no messages past the end of its last checkpoint, or the request does not match
    as far as that end. -/
def EndsWithCheckpoint (s : LinearTrajectory Msg Args) (matched : Nat) : Prop :=
  s.messages.length ≤ s.checkpointMessageEnd (checkpointAt s.numAssistant) ∨
    matched < s.checkpointMessageEnd (checkpointAt s.numAssistant)

/-- A session with checkpoints has messages, and no checkpoint is empty. -/
structure Stored (s : LinearTrajectory Msg Args) : Prop where
  messages : 0 < s.numAssistant → s.messages ≠ []
  ends : ∀ e ∈ s.generatedCheckpointMessageEnds, 0 < e

/-! ### The selected checkpoint -/

theorem contained_zero (s : LinearTrajectory Msg Args) (matched : Nat) : s.Contained matched 0 := by
  refine ⟨Nat.zero_le _, ?_⟩
  show (s.messages.take 0).length ≤ matched
  simp

variable {s : LinearTrajectory Msg Args}

/-- While the request does not match all messages, containment is a comparison of ends. -/
theorem contained_succ_iff {matched : Nat}
    (hlt : matched < s.messages.length) (i : Nat) :
    s.Contained matched (i + 1) ↔
      i < s.numAssistant ∧ s.generatedCheckpointMessageEnds.getD i 0 ≤ matched := by
  show _ ∧ (s.messages.take (s.generatedCheckpointMessageEnds.getD i 0)).length ≤ matched ↔ _
  rw [List.length_take]
  omega

/-- The last index of a descending search. -/
theorem find?_reverse_range {n : Nat} {p : Nat → Bool} :
    ((List.range n).reverse.find? p = none ∧ ∀ i < n, p i = false) ∨
      ∃ i < n, (List.range n).reverse.find? p = some i ∧ p i = true ∧
        ∀ j < n, p j = true → j ≤ i := by
  induction n with
  | zero => exact .inl ⟨rfl, fun i hi => absurd hi (Nat.not_lt_zero i)⟩
  | succ n ih =>
    rw [List.range_succ, List.reverse_append, List.reverse_singleton, List.singleton_append]
    cases hp : p n with
    | true =>
      refine .inr ⟨n, Nat.lt_succ_self n, List.find?_cons_of_pos hp, hp, ?_⟩
      exact fun j hj _ => Nat.lt_succ_iff.mp hj
    | false =>
      rw [List.find?_cons_of_neg (by simp [hp])]
      rcases ih with ⟨hnone, hall⟩ | ⟨i, hi, hfind, hpi, hlast⟩
      · refine .inl ⟨hnone, fun i hi => ?_⟩
        rcases Nat.lt_succ_iff_lt_or_eq.mp hi with hlt | rfl
        · exact hall i hlt
        · exact hp
      · refine .inr ⟨i, by omega, hfind, hpi, fun j hj hpj => ?_⟩
        rcases Nat.lt_succ_iff_lt_or_eq.mp hj with hlt | rfl
        · exact hlast j hlt hpj
        · rw [hp] at hpj
          cases hpj

/-- `_find_rollback_checkpoint` selects the longest checkpoint prefix whose messages the request
    matches, and discards at most one checkpoint. -/
theorem findRollbackCheckpoint_isGreatest (hs : s.Aligned)
    (hstored : s.Stored) {matcher : Msg → Msg → Except SessionError Bool} {request : List Msg}
    {k : Option Nat} (h : s.findRollbackCheckpoint matcher request = .ok k) :
    ∃ matched, matchLen matcher s.messages request = .ok matched ∧
      IsGreatest {n | s.Contained matched n} (keptCheckpoints k) ∧
      s.numAssistant ≤ keptCheckpoints k + 1 := by
  simp only [findRollbackCheckpoint, bind, Except.bind, pure, Except.pure] at h
  split at h
  · -- no checkpoint yet
    rename_i hempty
    cases h
    have hzero : s.numAssistant = 0 := by
      rw [List.isEmpty_iff, List.isEmpty_iff] at hempty
      rcases hempty with hnil | hnil
      · by_contra hne
        exact hstored.messages (Nat.pos_of_ne_zero hne) hnil
      · rw [← hs.tokens, hnil, List.length_nil]
    refine ⟨0, by rw [hs.messages hzero]; rfl, ⟨s.contained_zero 0, ?_⟩, by omega⟩
    intro n hn
    have hle := hn.1
    simp only [keptCheckpoints]
    omega
  · split at h
    · cases h
    · rename_i matched hmatched
      refine ⟨matched, hmatched, ?_⟩
      split at h
      · -- the request matches everything stored
        rename_i hall
        cases h
        have hkept : keptCheckpoints (if s.numAssistant = 0 then none
            else some (s.numAssistant - 1)) = s.numAssistant := by
          split
          · rename_i hzero
            rw [hzero]
            rfl
          · simp only [keptCheckpoints]
            omega
        rw [hkept]
        refine ⟨⟨⟨Nat.le_refl _, ?_⟩, fun n hn => hn.1⟩, by omega⟩
        rw [List.length_take]
        omega
      · rename_i hlt
        rw [Nat.not_le] at hlt
        split at h
        · cases h
        · rename_i hdiscard
          cases h
          rw [maxAssistantRollbackSteps] at hdiscard
          refine ⟨?_, by omega⟩
          have hcontained := fun i => contained_succ_iff hlt i
          -- the scan starts from the newest checkpoint
          rcases find?_reverse_range (n := s.generatedCheckpointMessageEnds.length)
            (p := fun i => decide (s.generatedCheckpointMessageEnds.getD i 0 ≤ matched))
            with ⟨hnone, hnot⟩ | ⟨i, hi, hfind, hend, hlast⟩
          · rw [hnone]
            refine ⟨s.contained_zero matched, fun n hn => ?_⟩
            cases n with
            | zero => exact Nat.le_refl _
            | succ j =>
              obtain ⟨hj, hjend⟩ := (hcontained j).mp hn
              have hfalse := hnot j (by rw [hs.ends]; exact hj)
              rw [decide_eq_false_iff_not] at hfalse
              exact absurd hjend hfalse
          · rw [hfind]
            rw [hs.ends] at hi
            refine ⟨(hcontained i).mpr ⟨hi, of_decide_eq_true hend⟩, fun n hn => ?_⟩
            cases n with
            | zero => exact Nat.zero_le _
            | succ j =>
              obtain ⟨hj, hjend⟩ := (hcontained j).mp hn
              have hle := hlast j (by rw [hs.ends]; exact hj) (decide_eq_true hjend)
              simp only [keptCheckpoints]
              omega

/-! ### Sessions with messages -/

theorem Stored.init : Stored ({} : LinearTrajectory Msg Args) where
  messages := fun h => absurd h (Nat.lt_irrefl 0)
  ends := by simp

/-- A rollback keeps the messages of the selected checkpoint, which is not empty. -/
theorem Stored.upTo (h : s.Stored) (hs : s.Aligned) (n : Nat) :
    (s.upTo n).Stored := by
  by_cases hn : n < s.numAssistant
  · rw [upTo_of_lt s hn]
    refine ⟨?_, fun e he => h.ends e (List.mem_of_mem_take he)⟩
    show 0 < (s.generatedCheckpointMessageEnds.take n).length →
      s.messages.take (s.checkpointMessageEnd (checkpointAt n)) ≠ []
    intro hpos
    rw [List.length_take] at hpos
    obtain ⟨i, rfl⟩ : ∃ i, n = i + 1 := ⟨n - 1, by omega⟩
    have hi : i < s.generatedCheckpointMessageEnds.length := by rw [hs.ends]; omega
    have hend : 0 < s.checkpointMessageEnd (checkpointAt (i + 1)) := by
      show 0 < s.generatedCheckpointMessageEnds.getD i 0
      rw [List.getD_eq_getElem _ _ hi]
      exact h.ends _ (List.getElem_mem hi)
    have hmessages := h.messages (by omega)
    rw [ne_eq, List.take_eq_nil_iff, not_or]
    exact ⟨by omega, hmessages⟩
  · rw [upTo_of_le s (by omega)]
    exact h

theorem Stored.withGeneration (h : s.Stored) (requestId : Nat)
    (body : RequestBody Msg Args) (a : Msg) (ids : List Nat) :
    (s.withGeneration requestId body a ids).Stored where
  messages := by
    intro _
    show s.messages ++ body.messages.drop s.messages.length ++ [a] ≠ []
    simp
  ends := by
    intro e he
    rcases List.mem_append.mp he with hold | hnew
    · exact h.ends e hold
    · rw [List.mem_singleton.mp hnew]
      exact Nat.succ_pos _

/-! ### What the preparation leaves -/

/-- The session after a rollback to the checkpoint the request reaches is that checkpoint's
    prefix, unless nothing is discarded and messages stand past the last checkpoint. -/
theorem upTo_eq_checkpointPrefix_iff (hs : s.Aligned)
    {matched n : Nat} (hn : IsGreatest {n | s.Contained matched n} n) :
    s.upTo n = s.checkpointPrefix n ↔ s.EndsWithCheckpoint matched := by
  have hle : n ≤ s.numAssistant := hn.1.1
  have hcontained := hn.1.2
  unfold EndsWithCheckpoint
  rcases Nat.lt_or_eq_of_le hle with hlt | rfl
  · -- a checkpoint is discarded, because the request does not reach its end
    have hnot : ¬ s.Contained matched s.numAssistant := fun h => absurd (hn.2 h) (by omega)
    have hmatched : matched < s.checkpointMessageEnd (checkpointAt s.numAssistant) := by
      by_contra hge
      refine hnot ⟨Nat.le_refl _, ?_⟩
      rw [List.length_take]
      omega
    refine ⟨fun _ => .inr hmatched, fun _ => ?_⟩
    rw [upTo_of_lt s hlt]
    unfold checkpointPrefix
    congr 1
    rw [List.length_take, hs.ends]
    omega
  · rw [upTo_of_le s (Nat.le_refl _)]
    rw [List.length_take] at hcontained
    have htake : s = s.checkpointPrefix s.numAssistant ↔
        s.messages.length ≤ s.checkpointMessageEnd (checkpointAt s.numAssistant) := by
      constructor
      · intro heq
        have hmessages := congrArg (fun t => t.messages.length) heq
        simp only [checkpointPrefix, List.length_take] at hmessages
        omega
      · intro hlen
        unfold checkpointPrefix
        rw [List.take_of_length_le hlen, List.take_of_length_le (Nat.le_of_eq hs.tokens),
          List.take_of_length_le (Nat.le_of_eq hs.turnArgs),
          List.take_of_length_le (Nat.le_of_eq hs.records),
          List.take_of_length_le (Nat.le_of_eq hs.ends)]
    rw [htake]
    omega

end LinearTrajectory

open LinearTrajectory

namespace SessionWorld

/-- Sessions with checkpoints have messages in every reachable state. -/
theorem stored_of_run {cfg : Config Msg Args} {es : List (Event Msg Args)}
    {w : SessionWorld Msg Args} (h : Lts.run (step cfg) {} es = some w) : w.session.Stored := by
  have hboth : w.session.Aligned ∧ w.session.Stored := by
    refine Lts.run_invariant (I := fun w => w.session.Aligned ∧ w.session.Stored) ?_
      ⟨.init, .init⟩ h
    rintro v e v' ⟨hs, hstored⟩ hstep
    refine ⟨aligned_step hs hstep, ?_⟩
    cases step_transition hs hstep with
    | turnedAway => exact hstored
    | refused _ _ n => exact hstored.upTo hs n
    | prepared _ _ n => exact hstored.upTo hs n
    | skipped => exact hstored
    | committed r _ a ids => exact hstored.withGeneration r.requestId r.body a ids
    | cancelled => exact hstored
    | closed => exact ⟨hstored.messages, hstored.ends⟩
    | removed => exact hstored
  exact hboth.2

/-- In every reachable session, a preparation that raises changes nothing.  One that returns has
    selected the longest checkpoint prefix whose messages the request matches, and discards at
    most one checkpoint; the session is then exactly that prefix iff it has no messages past its
    last checkpoint, or the request does not match as far as that one. -/
theorem prepare_atomic (cfg : Config Msg Args) (es : List (Event Msg Args))
    (w : SessionWorld Msg Args) (h : Lts.run (step cfg) {} es = some w)
    (client : ClientArgs Msg Args) :
    (∃ e, prepareTokenIdsAndRequestArgs cfg client w.session = (.error e, w.session)) ∨
    ∃ body s' matched n, prepareTokenIdsAndRequestArgs cfg client w.session = (.ok body, s') ∧
      matchLen cfg.matcher w.session.messages client.messages = .ok matched ∧
      IsGreatest {n | w.session.Contained matched n} n ∧ w.session.numAssistant ≤ n + 1 ∧
      (s' = w.session.checkpointPrefix n ↔ w.session.EndsWithCheckpoint matched) := by
  have hs := aligned_of_run h
  rcases prepareTokenIdsAndRequestArgs_cases cfg client w.session with hraise |
    ⟨k, body, hfind, -, hok⟩
  · exact .inl hraise
  · rw [prepared_messages hok] at hfind
    obtain ⟨matched, hmatched, hgreatest, hdiscard⟩ :=
      findRollbackCheckpoint_isGreatest hs (stored_of_run h) hfind
    refine .inr ⟨body, _, matched, keptCheckpoints k, hok, hmatched, hgreatest, hdiscard, ?_⟩
    have hroll : w.session.rollbackToCheckpoint k = w.session.upTo (keptCheckpoints k) := by
      simp [upTo]
    rw [hroll]
    exact upTo_eq_checkpointPrefix_iff hs hgreatest

/-- A retry of the first turn discards its checkpoint. -/
theorem prepare_atomic_firstTurn :
    ∃ w s' body, Lts.run (step plainConfig) {}
        [.chat 0 ⟨[⟨1, 0⟩], ()⟩, .answer 0 (plainAnswer ⟨2, 0⟩ [2])] = some w ∧
      prepareTokenIdsAndRequestArgs plainConfig ⟨[⟨1, 0⟩], ()⟩ w.session = (.ok body, s') ∧
      s' = w.session.checkpointPrefix 0 := by
  refine ⟨_, _, _, rfl, rfl, ?_⟩
  rcases prepare_atomic plainConfig [.chat 0 ⟨[⟨1, 0⟩], ()⟩, .answer 0 (plainAnswer ⟨2, 0⟩ [2])] _
    rfl ⟨[⟨1, 0⟩], ()⟩ with ⟨e, he⟩ | ⟨body, s', matched, n, hok, hmatched, hgreatest, -, hiff⟩
  · cases he
  · cases hok
    cases hmatched
    have hzero : n = 0 := by
      obtain ⟨hle, hlen⟩ := hgreatest.1
      change n ≤ 1 at hle
      interval_cases n
      · rfl
      · exact absurd hlen (by decide)
    subst hzero
    exact hiff.mpr (.inr (by decide))

/-- The messages of `resentAnswerRun` go past the last checkpoint's end; a request that differs
    in the last of them discards nothing, and the session keeps that message. -/
theorem prepare_keeps_unmatched :
    ∃ w body s', Lts.run (step plainConfig) {} resentAnswerRun = some w ∧
      prepareTokenIdsAndRequestArgs plainConfig
        ⟨[⟨1, 0⟩, ⟨2, 1⟩, ⟨3, 0⟩, ⟨4, 0⟩, ⟨9, 0⟩], ()⟩ w.session = (.ok body, s') ∧
      matchLen plainConfig.matcher w.session.messages
        [⟨1, 0⟩, ⟨2, 1⟩, ⟨3, 0⟩, ⟨4, 0⟩, ⟨9, 0⟩] = .ok 4 ∧
      IsGreatest {n | w.session.Contained 4 n} 2 ∧
      s'.messages.length = 5 ∧ (w.session.checkpointPrefix 2).messages.length = 4 := by
  refine ⟨_, _, _, rfl, rfl, rfl, ⟨?_, fun n hn => hn.1⟩, by decide, by decide⟩
  show Contained _ 4 2
  decide

end SessionWorld

end Miles.Session
