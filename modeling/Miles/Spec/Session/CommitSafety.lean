import Mathlib
import Miles.Spec.Session.RepInvariant

/-!
# Commit safety of a session

A response should be committed to the history its request was prepared against, so that
the checkpoints of a session form one generation chain.  Phase 3 only compares the number
of checkpoints, and a rollback with a later commit restores that number.
-/

namespace Miles.Session

variable {Msg Args : Type}

open LinearTrajectory

/-! ### The chain of checkpoints -/

/-- The history of a session, whether or not it is being closed. -/
def LinearTrajectory.history (s : LinearTrajectory Msg Args) : LinearTrajectory Msg Args :=
  { s with closing := false }

namespace SessionWorld

/-- Every response was committed to the history its request was prepared against. -/
def CommitSafe (w : SessionWorld Msg Args) : Prop :=
  ∀ c ∈ w.commits, c.before = c.request.base

/-- Checkpoint `i` is the commit of a request that was prepared against the first `i`
    checkpoints, with a prompt rendered from the last of these. -/
def OneChain (cfg : Config Msg Args) (w : SessionWorld Msg Args) : Prop :=
  ∀ i < w.session.numAssistant, ∃ c ∈ w.commits,
    c.request.base = w.session.history.upTo i ∧
    PreparedFor cfg c.request.base c.request.body ∧
    w.session.history.upTo (i + 1) = c.request.base.withGeneration c.request.requestId
      c.request.body c.assistantMessage c.completionTokenIds

/-- No other request rolled back the history this one was prepared against. -/
def NotOvertaken (_ : SessionWorld Msg Args) (r : InFlight Msg Args) : Prop :=
  r.overtaken = false

end SessionWorld

namespace RepInvariant

variable {s : LinearTrajectory Msg Args}

/-- The ends of the checkpoints increase. -/
theorem messageEnd_mono (h : RepInvariant s) {i n : Nat} (hin : i ≤ n) (hn : n ≤ s.numAssistant) :
    s.checkpointMessageEnd (checkpointAt i) ≤ s.checkpointMessageEnd (checkpointAt n) := by
  cases i with
  | zero => exact Nat.zero_le _
  | succ i =>
    cases n with
    | zero => omega
    | succ n =>
      have hends := h.ends
      have hi : i < s.generatedCheckpointMessageEnds.length := by omega
      have hn : n < s.generatedCheckpointMessageEnds.length := by omega
      simp only [checkpointAt, checkpointMessageEnd, List.getD_eq_getElem?_getD,
        List.getElem?_eq_getElem hi, List.getElem?_eq_getElem hn, Option.getD_some]
      exact h.end_mono (by omega) (List.getElem?_eq_getElem hi) (List.getElem?_eq_getElem hn)

/-- The checkpoints of a session cover its messages. -/
theorem messageEnd_numAssistant (h : RepInvariant s) (hs : s.Aligned) :
    s.checkpointMessageEnd (checkpointAt s.numAssistant) = s.messages.length := by
  cases hn : s.numAssistant with
  | zero => simp [checkpointAt, checkpointMessageEnd, hs.messages hn]
  | succ n =>
    have hlt : n < s.generatedCheckpointMessageEnds.length := by have := h.ends; omega
    have hlast := h.lastEnd _ (by
      rw [List.getLast?_eq_getElem?, h.ends, hn, Nat.add_sub_cancel,
        List.getElem?_eq_getElem hlt])
    simp only [checkpointAt, checkpointMessageEnd, List.getD_eq_getElem?_getD,
      List.getElem?_eq_getElem hlt, Option.getD_some]
    exact hlast

/-- Rolling back twice is rolling back to the earlier checkpoint. -/
theorem upTo_upTo (h : RepInvariant s) {i n : Nat} (hin : i ≤ n) :
    (s.upTo n).upTo i = s.upTo i := by
  by_cases hn : n < s.numAssistant
  · obtain rfl | hlt := Nat.eq_or_lt_of_le hin
    · rw [upTo_of_le (s.upTo i)]
      simp [upTo_of_lt s hn]
    · have hnum : i < (s.upTo n).numAssistant := by
        simp only [upTo_of_lt s hn, List.length_take, h.ends]
        omega
      have hend : (s.upTo n).checkpointMessageEnd (checkpointAt i) =
          s.checkpointMessageEnd (checkpointAt i) := by
        cases i with
        | zero => rfl
        | succ i =>
          simp only [checkpointAt, checkpointMessageEnd, upTo_of_lt s hn,
            List.getD_eq_getElem?_getD]
          rw [List.getElem?_take_of_lt (by omega)]
      have hmono := h.messageEnd_mono hin (by omega)
      rw [upTo_of_lt (s.upTo n) hnum, hend, upTo_of_lt s hn, upTo_of_lt s (by omega)]
      simp only [List.take_take, Nat.min_eq_left hmono, Nat.min_eq_left hin]
  · rw [upTo_of_le s (by omega)]

/-- The first checkpoints stay when a generation is committed. -/
theorem withGeneration_upTo (h : RepInvariant s) (hs : s.Aligned) {i : Nat}
    (hi : i ≤ s.numAssistant) (requestId : Nat) (body : RequestBody Msg Args) (a : Msg)
    (ids : List Nat) :
    (s.withGeneration requestId body a ids).upTo i = s.upTo i := by
  have hnum : i < (s.withGeneration requestId body a ids).numAssistant := by
    simp only [LinearTrajectory.withGeneration, h.ends]
    omega
  have hend : (s.withGeneration requestId body a ids).checkpointMessageEnd (checkpointAt i) =
      s.checkpointMessageEnd (checkpointAt i) := by
    cases i with
    | zero => rfl
    | succ i =>
      simp only [checkpointAt, checkpointMessageEnd, LinearTrajectory.withGeneration,
        List.getD_eq_getElem?_getD]
      rw [List.getElem?_append_left (by have := h.ends; omega)]
  rw [upTo_of_lt _ hnum, hend]
  have hle := h.messageEnd_mono hi (Nat.le_refl _)
  have hmessages := h.messageEnd_numAssistant hs
  have htake : ∀ {β : Type} (xs ys : List β), i ≤ xs.length → (xs ++ ys).take i = xs.take i :=
    fun xs ys hle => List.take_append_of_le_length hle
  have hm : (s.messages ++ body.messages.drop s.messages.length ++ [a]).take
      (s.checkpointMessageEnd (checkpointAt i)) =
      s.messages.take (s.checkpointMessageEnd (checkpointAt i)) := by
    rw [List.append_assoc]
    exact List.take_append_of_le_length (by omega)
  simp only [LinearTrajectory.withGeneration, hm, htake s.records _ (h.records ▸ hi),
    htake s.trajectoryTokenIds _ (h.tokens ▸ hi), htake s.turnArgsHistory _ (h.turnArgs ▸ hi),
    htake s.generatedCheckpointMessageEnds _ (h.ends ▸ hi)]
  by_cases hlt : i < s.numAssistant
  · rw [upTo_of_lt s hlt]
  · obtain rfl : i = s.numAssistant := by omega
    rw [upTo_of_le s (Nat.le_refl _), hmessages]
    have h1 : s.records.take s.numAssistant = s.records :=
      List.take_of_length_le (Nat.le_of_eq h.records)
    have h2 : s.trajectoryTokenIds.take s.numAssistant = s.trajectoryTokenIds :=
      List.take_of_length_le (Nat.le_of_eq h.tokens)
    have h3 : s.turnArgsHistory.take s.numAssistant = s.turnArgsHistory :=
      List.take_of_length_le (Nat.le_of_eq h.turnArgs)
    have h4 : s.generatedCheckpointMessageEnds.take s.numAssistant =
        s.generatedCheckpointMessageEnds := List.take_of_length_le (Nat.le_of_eq h.ends)
    simp only [h1, h2, h3, h4, h.ends, List.take_length]

/-- The history of a session that is being closed or not. -/
theorem history (h : RepInvariant s) : RepInvariant s.history :=
  ⟨h.records, h.tokens, h.turnArgs, h.ends, h.increasing, h.lastEnd, h.generated⟩

end RepInvariant

theorem LinearTrajectory.history_upTo (s : LinearTrajectory Msg Args) (n : Nat) :
    (s.upTo n).history = s.history.upTo n := by
  by_cases hn : n < s.numAssistant
  · rw [upTo_of_lt s hn, upTo_of_lt s.history hn]
    cases n <;> rfl
  · rw [upTo_of_le s (by omega), upTo_of_le s.history (by simpa [history] using hn)]

variable {s : LinearTrajectory Msg Args} {cfg : Config Msg Args} {r : InFlight Msg Args}

theorem LinearTrajectory.history_of_open
    (h : s.closing = false) : s.history = s := by
  cases s
  cases h
  rfl

theorem LinearTrajectory.Aligned.history (h : s.Aligned) :
    s.history.Aligned :=
  ⟨h.records, h.tokens, h.turnArgs, h.ends, h.messages⟩

/-! ### Runs in which no overtaken request is committed -/

/-- A request in flight knows the history it was prepared against, and as long as it is not
    overtaken the session still starts with that history. -/
structure InFlight.Tracks (cfg : Config Msg Args) (s : LinearTrajectory Msg Args)
    (r : InFlight Msg Args) : Prop where
  count : r.base.numAssistant = r.expectedNumAssistant
  prepared : PreparedFor cfg r.base r.body
  length_le : r.base.messages.length ≤ r.body.messages.length
  kept : r.overtaken = false → r.expectedNumAssistant ≤ s.numAssistant ∧
    r.base = s.history.upTo r.expectedNumAssistant

/-- What holds in every state of a run without an overtaken commit. -/
structure SessionWorld.Chained (cfg : Config Msg Args) (w : SessionWorld Msg Args) : Prop where
  aligned : w.session.Aligned
  rep : RepInvariant w.session
  tracks : ∀ r ∈ w.inFlight, r.Tracks cfg w.session
  safe : w.CommitSafe
  chain : w.OneChain cfg

/-- A request stays tracked by a session that starts with the same checkpoints. -/
theorem InFlight.Tracks.of_agree {s s' : LinearTrajectory Msg Args}
    (h : r.Tracks cfg s)
    (hagree : ∀ i ≤ s.numAssistant, s'.history.upTo i = s.history.upTo i)
    (hle : s.numAssistant ≤ s'.numAssistant) : r.Tracks cfg s' where
  count := h.count
  prepared := h.prepared
  length_le := h.length_le
  kept hnot := by
    obtain ⟨hexpected, hbase⟩ := h.kept hnot
    exact ⟨by omega, by rw [hagree _ hexpected, hbase]⟩

/-- Requests that expect more checkpoints than a rollback leaves are marked, and the others
    stay tracked. -/
theorem InFlight.Tracks.markOvertaken
    (h : r.Tracks cfg s) (hs : s.Aligned) (hrep : RepInvariant s)
    (n : Nat) : (r.markOvertaken n).Tracks cfg (s.upTo n) where
  count := h.count
  prepared := h.prepared
  length_le := h.length_le
  kept hnot := by
    simp only [InFlight.markOvertaken, Bool.or_eq_false_iff, decide_eq_false_iff_not,
      Nat.not_lt] at hnot
    obtain ⟨hexpected, hbase⟩ := h.kept hnot.1
    refine ⟨?_, ?_⟩
    · rw [hs.numAssistant_upTo]
      exact Nat.le_min.mpr ⟨hnot.2, hexpected⟩
    · rw [history_upTo]
      exact hbase.trans (hrep.history.upTo_upTo hnot.2).symm

namespace SessionWorld

/-- A rollback leaves one chain. -/
theorem OneChain.rollback {w w' : SessionWorld Msg Args}
    (h : w.OneChain cfg) (hs : w.session.Aligned) (hrep : RepInvariant w.session) {n : Nat}
    (hsession : w'.session = w.session.upTo n) (hcommits : w'.commits = w.commits) :
    w'.OneChain cfg := by
  intro i hi
  rw [hsession, hs.numAssistant_upTo] at hi
  obtain ⟨c, hc, hbase, hprep, hnext⟩ := h i (by omega)
  refine ⟨c, hcommits ▸ hc, ?_, hprep, ?_⟩
  · rw [hsession, history_upTo, hrep.history.upTo_upTo (by omega)]
    exact hbase
  · rw [hsession, history_upTo, hrep.history.upTo_upTo (by omega)]
    exact hnext

/-- A new request is tracked by the session that its preparation leaves. -/
theorem tracks_prepared (hs : s.Aligned)
    (hrep : RepInvariant s) {n id : Nat} {body : RequestBody Msg Args} (hle : n ≤ s.numAssistant)
    (hopen : s.closing = false) (hprep : PreparedFor cfg (s.upTo n) body)
    (hselected : s.findRollbackCheckpoint cfg.matcher body.messages = .ok (checkpointAt n)) :
    InFlight.Tracks cfg (s.upTo n)
      { requestId := id, body, expectedNumAssistant := n, base := s.upTo n } where
  count := (hs.numAssistant_upTo n).trans (Nat.min_eq_left hle)
  prepared := hprep
  length_le := by
    have hend := findRollbackCheckpoint_end (hrep.messageEnd_le _) hselected
    by_cases hn : n < s.numAssistant
    · rw [upTo_of_lt s hn]
      simp only [List.length_take]
      omega
    · obtain rfl : n = s.numAssistant := by omega
      rw [hrep.messageEnd_numAssistant hs] at hend
      rw [upTo_of_le s (Nat.le_refl _)]
      exact hend
  kept _ := by
    refine ⟨Nat.le_of_eq ((hs.numAssistant_upTo n).trans (Nat.min_eq_left hle)).symm, ?_⟩
    rw [history_upTo, hrep.history.upTo_upTo (Nat.le_refl _), history_of_open hopen]

/-- A request that is not overtaken and passes the checks is committed to its base. -/
theorem session_eq_base
    {ids : List Nat} (h : r.Tracks cfg s)
    (hadmits : s.Admits cfg r.body r.expectedNumAssistant ids) (hnot : r.overtaken = false) :
    r.base = s := by
  obtain ⟨-, hbase⟩ := h.kept hnot
  rw [hbase, ← hadmits.count, history_of_open hadmits.open_, upTo_of_le s (Nat.le_refl _)]

/-- An event keeps the chain when it commits no overtaken request. -/
theorem chained_step {w w' : SessionWorld Msg Args}
    {e : Event Msg Args} (hw : w.Chained cfg) (hcommit : AtCommit cfg NotOvertaken w e)
    (h : step cfg w e = some w') : w'.Chained cfg := by
  obtain ⟨hs, hrep, htracks, hsafe, hchain⟩ := hw
  cases step_transition hs h with
  | turnedAway => exact ⟨hs, hrep, htracks, hsafe, hchain⟩
  | refused _ _ n =>
    refine ⟨hs.upTo n, hrep.upTo n, fun r hr => ?_, hsafe, hchain.rollback hs hrep rfl rfl⟩
    obtain ⟨r₀, hr₀, rfl⟩ := List.mem_map.mp hr
    exact (htracks r₀ hr₀).markOvertaken hs hrep n
  | prepared id _ n body _ le open_ preparedFor selected =>
    refine ⟨hs.upTo n, hrep.upTo n, fun r hr => ?_, hsafe, hchain.rollback hs hrep rfl rfl⟩
    cases hr with
    | head => exact tracks_prepared hs hrep le open_ preparedFor selected
    | tail _ hr =>
      obtain ⟨r₀, hr₀, rfl⟩ := List.mem_map.mp hr
      exact (htracks r₀ hr₀).markOvertaken hs hrep n
  | skipped =>
    exact ⟨hs, hrep, fun r hr => htracks r (mem_of_mem_others hr), hsafe, hchain⟩
  | committed r result a ids found completion admits =>
    have hr := htracks r (mem_of_find found)
    -- not overtaken: the session is still the one that the request was prepared for
    have hbase := session_eq_base hr admits (hcommit r a ids found completion admits)
    have hlen : w.session.messages.length ≤ r.body.messages.length := hbase ▸ hr.length_le
    have hopen := admits.open_
    have hagree : ∀ i ≤ w.session.numAssistant,
        (w.session.withGeneration r.requestId r.body a ids).history.upTo i =
          w.session.history.upTo i := fun i hi =>
      hrep.history.withGeneration_upTo hs.history hi r.requestId r.body a ids
    have hnum : (w.session.withGeneration r.requestId r.body a ids).numAssistant =
        w.session.numAssistant + 1 := by
      simp [LinearTrajectory.withGeneration, hs.ends]
    refine ⟨hs.withGeneration _ _ _ _, hrep.withGeneration hlen _ _ _, fun r' hr' => ?_,
      fun c hc => ?_, fun i hi => ?_⟩
    · exact (htracks r' (mem_of_mem_others hr')).of_agree hagree (hnum ▸ Nat.le_succ _)
    · obtain hc | hc := List.mem_append.mp hc
      · exact hsafe c hc
      · obtain rfl := List.mem_singleton.mp hc
        exact hbase.symm
    · simp only [hnum] at hi
      by_cases hlt : i < w.session.numAssistant
      · obtain ⟨c, hc, hcbase, hprep, hnext⟩ := hchain i hlt
        refine ⟨c, List.mem_append_left _ hc, ?_, hprep, ?_⟩
        · rw [hagree i (by omega)]
          exact hcbase
        · rw [hagree (i + 1) (by omega)]
          exact hnext
      · -- the new checkpoint
        obtain rfl : i = w.session.numAssistant := by omega
        refine ⟨_, List.mem_append_right _ (List.mem_singleton.mpr rfl), ?_, hr.prepared, ?_⟩
        · rw [hagree _ (Nat.le_refl _), history_of_open hopen, upTo_of_le _ (Nat.le_refl _)]
          exact hbase
        · rw [upTo_of_le _ (by simp only [LinearTrajectory.history, hnum]; omega), hbase]
          exact history_of_open hopen
  | cancelled =>
    exact ⟨hs, hrep, fun r hr => htracks r (mem_of_mem_others hr), hsafe, hchain⟩
  | closed =>
    refine ⟨⟨hs.records, hs.tokens, hs.turnArgs, hs.ends, hs.messages⟩,
      ⟨hrep.records, hrep.tokens, hrep.turnArgs, hrep.ends, hrep.increasing, hrep.lastEnd,
        hrep.generated⟩, fun r hr => ?_, hsafe, hchain⟩
    have ht := htracks r hr
    exact ⟨ht.count, ht.prepared, ht.length_le, ht.kept⟩
  | removed => exact ⟨hs, hrep, htracks, hsafe, hchain⟩

/-- The world before any request. -/
theorem Chained.init (cfg : Config Msg Args) : Chained cfg ({} : SessionWorld Msg Args) where
  aligned := .init
  rep := .init
  tracks := by simp
  safe := by simp [CommitSafe]
  chain i hi := absurd hi (Nat.not_lt_zero i)

/-! ### A commit of an overtaken request -/

/-- The ids of the calls that made the session's records. -/
def recordIds (w : SessionWorld Msg Args) : List Nat :=
  w.session.records.map (·.requestId)

/-- The ids of the calls in flight. -/
def inFlightIds (w : SessionWorld Msg Args) : List Nat :=
  w.inFlight.map (·.requestId)

/-- The record ids of a request's base, compared with the session's: a request that is not
    overtaken has the first ones, and an overtaken one has an id that cannot come back. -/
def BaseIds (w : SessionWorld Msg Args) (r : InFlight Msg Args) : Prop :=
  if r.overtaken then
    ∃ id ∈ r.base.records.map (·.requestId), id ∉ w.recordIds ∧ id ∉ w.inFlightIds ∧
      id ∈ w.started
  else
    r.expectedNumAssistant ≤ w.session.numAssistant ∧
    r.base.records.map (·.requestId) = w.recordIds.take r.expectedNumAssistant

/-- Every id is used once: for one call, which is in flight or has at most one record. -/
structure UniqueIds (w : SessionWorld Msg Args) : Prop where
  aligned : w.session.Aligned
  nodup : (w.recordIds ++ w.inFlightIds).Nodup
  started : ∀ id ∈ w.recordIds ++ w.inFlightIds, id ∈ w.started
  bases : ∀ r ∈ w.inFlight, w.BaseIds r

/-- The record ids of the first checkpoints. -/
theorem recordIds_upTo (hs : s.Aligned) (n : Nat) :
    (s.upTo n).records.map (·.requestId) = (s.records.map (·.requestId)).take n := by
  by_cases hn : n < s.numAssistant
  · simp [upTo_of_lt s hn, List.map_take]
  · rw [upTo_of_le s (by omega), List.take_of_length_le]
    simp only [List.length_map, hs.records]
    omega

namespace UniqueIds

variable {w : SessionWorld Msg Args}

/-- A new world has no ids. -/
theorem init : UniqueIds ({} : SessionWorld Msg Args) where
  aligned := .init
  nodup := .nil
  started := by simp [recordIds, inFlightIds]
  bases := by simp

/-- A call that the registry turns away leaves its id. -/
theorem grow (h : UniqueIds w) (id : Nat) : UniqueIds { w with started := id :: w.started } := by
  refine ⟨h.aligned, h.nodup, fun id' hid' => List.mem_cons_of_mem _ (h.started id' hid'),
    fun r hr => ?_⟩
  have hbase := h.bases r hr
  simp only [BaseIds] at hbase ⊢
  split
  · rename_i hover
    rw [if_pos hover] at hbase
    obtain ⟨dead, hdead, hgone, hfly, hst⟩ := hbase
    exact ⟨dead, hdead, hgone, hfly, List.mem_cons_of_mem _ hst⟩
  · rename_i hover
    rw [if_neg hover] at hbase
    exact hbase

/-- A rollback overtakes the requests whose base it cuts: the record that ends such a base
    is gone. -/
theorem rollback (h : UniqueIds w) (n : Nat) :
    UniqueIds { w with
      session := w.session.upTo n
      inFlight := w.inFlight.map (·.markOvertaken n) } := by
  have hrec := recordIds_upTo h.aligned n
  have hfly : (w.inFlight.map (·.markOvertaken n)).map (·.requestId) = w.inFlightIds := by
    simp [inFlightIds, InFlight.markOvertaken, Function.comp_def]
  have hlen : w.recordIds.length = w.session.numAssistant := by
    simp [recordIds, h.aligned.records]
  obtain ⟨hnodup, hnodupFly, hdisjoint⟩ := List.nodup_append.mp h.nodup
  refine ⟨h.aligned.upTo n, ?_, fun id hid => ?_, fun r hr => ?_⟩
  · simp only [recordIds, inFlightIds, hrec, hfly]
    exact h.nodup.sublist ((List.take_sublist _ _).append_right _)
  · simp only [recordIds, inFlightIds, hrec, hfly, List.mem_append] at hid
    exact h.started id (List.mem_append.mpr (hid.imp_left List.mem_of_mem_take))
  · obtain ⟨r, hmem, rfl⟩ := List.mem_map.mp hr
    have hbase := h.bases r hmem
    simp only [BaseIds, recordIds, inFlightIds, hrec, hfly] at hbase ⊢
    by_cases hover : r.overtaken
    · obtain ⟨id, hid, hgone, hfly', hst⟩ := by simpa only [hover, if_true] using hbase
      simp only [InFlight.markOvertaken, hover, Bool.true_or, if_true]
      exact ⟨id, hid, fun hmem => hgone (List.mem_of_mem_take hmem), hfly', hst⟩
    · obtain ⟨hle, hids⟩ := by simpa only [hover, if_false, Bool.false_eq_true] using hbase
      by_cases hcut : n < r.expectedNumAssistant
      · -- the base's last record is cut off here
        simp only [InFlight.markOvertaken, hcut, decide_true, Bool.or_true, if_true]
        have hlast : r.expectedNumAssistant - 1 < w.recordIds.length := by omega
        have hmem : w.recordIds[r.expectedNumAssistant - 1] ∈ w.recordIds :=
          List.getElem_mem hlast
        refine ⟨w.recordIds[r.expectedNumAssistant - 1], ?_, fun hid => ?_, fun hid => ?_,
          h.started _ (List.mem_append_left _ hmem)⟩
        · rw [hids]
          refine List.mem_take_iff_getElem.mpr ⟨r.expectedNumAssistant - 1, ?_, rfl⟩
          exact Nat.lt_min.mpr ⟨by omega, hlast⟩
        · obtain ⟨j, hj, heq⟩ := List.mem_take_iff_getElem.mp hid
          have := (List.Nodup.getElem_inj_iff hnodup).mp heq
          omega
        · exact hdisjoint _ hmem _ hid rfl
      · simp only [InFlight.markOvertaken, hover, hcut, decide_false, Bool.or_false, if_false,
          Bool.false_eq_true]
        refine ⟨?_, ?_⟩
        · rw [h.aligned.numAssistant_upTo]
          omega
        · rw [List.take_take, Nat.min_eq_left (by omega)]
          exact hids

/-- A new call with a fresh id is prepared against the session as it is. -/
theorem prepare (h : UniqueIds w) {id n : Nat} {body : RequestBody Msg Args}
    (hid : id ∉ w.started) (hn : w.session.numAssistant = n) :
    UniqueIds { w with
      started := id :: w.started
      inFlight := { requestId := id, body, expectedNumAssistant := n, base := w.session } ::
        w.inFlight } := by
  subst hn
  have hfresh : id ∉ w.recordIds ++ w.inFlightIds := fun hmem => hid (h.started id hmem)
  refine ⟨h.aligned, ?_, fun id' hid' => ?_, fun r hr => ?_⟩
  · change (w.recordIds ++ id :: w.inFlightIds).Nodup
    exact List.perm_middle.nodup_iff.mpr (List.nodup_cons.mpr ⟨hfresh, h.nodup⟩)
  · change id' ∈ w.recordIds ++ id :: w.inFlightIds at hid'
    simp only [List.mem_append, List.mem_cons] at hid' ⊢
    obtain hmem | rfl | hmem := hid'
    · exact .inr (h.started id' (List.mem_append_left _ hmem))
    · exact .inl rfl
    · exact .inr (h.started id' (List.mem_append_right _ hmem))
  · cases hr with
    | head =>
      refine ⟨Nat.le_refl _, ?_⟩
      change w.recordIds = w.recordIds.take w.session.numAssistant
      rw [List.take_of_length_le]
      simp [recordIds, h.aligned.records]
    | tail _ hr =>
      have hbase := h.bases r hr
      simp only [BaseIds] at hbase ⊢
      split
      · rename_i hover
        rw [if_pos hover] at hbase
        obtain ⟨dead, hdead, hgone, hfly, hst⟩ := hbase
        refine ⟨dead, hdead, hgone, ?_, List.mem_cons_of_mem _ hst⟩
        change dead ∉ id :: w.inFlightIds
        rintro (_ | ⟨_, hmem⟩)
        · exact hid hst
        · exact hfly hmem
      · rename_i hover
        rw [if_neg hover] at hbase
        exact hbase

/-- A call that ends without a record is no longer in flight. -/
theorem drop (h : UniqueIds w) (id : Nat) : UniqueIds { w with inFlight := w.others id } := by
  have hsub : ((w.others id).map (·.requestId)).Sublist w.inFlightIds :=
    (List.filter_sublist).map _
  refine ⟨h.aligned, h.nodup.sublist (hsub.append_left _), fun id' hid' => ?_, fun r hr => ?_⟩
  · exact h.started id' ((hsub.append_left _).subset hid')
  · have hbase := h.bases r (mem_of_mem_others hr)
    simp only [BaseIds] at hbase ⊢
    split
    · rename_i hover
      rw [if_pos hover] at hbase
      obtain ⟨dead, hdead, hgone, hfly, hst⟩ := hbase
      exact ⟨dead, hdead, hgone, fun hmem => hfly (hsub.subset hmem), hst⟩
    · rename_i hover
      rw [if_neg hover] at hbase
      exact hbase

/-- A call that is committed leaves its id in the records. -/
theorem commit (h : UniqueIds w) (hr : r ∈ w.inFlight)
    {commits : List (Commit Msg Args)} (a : Msg) (ids : List Nat) :
    UniqueIds { w with
      session := w.session.withGeneration r.requestId r.body a ids
      inFlight := w.others r.requestId
      commits } := by
  have hmem : r.requestId ∈ w.inFlightIds := List.mem_map_of_mem hr
  have hrec : (w.session.withGeneration r.requestId r.body a ids).records.map (·.requestId) =
      w.recordIds ++ [r.requestId] := by
    simp [LinearTrajectory.withGeneration, recordIds]
  have hfly : ∀ id, id ∈ (w.others r.requestId).map (·.requestId) →
      id ∈ w.inFlightIds ∧ id ≠ r.requestId := by
    intro id hid
    obtain ⟨r', hr', rfl⟩ := List.mem_map.mp hid
    obtain ⟨hr', hne⟩ := List.mem_filter.mp hr'
    exact ⟨List.mem_map_of_mem hr', by simpa using hne⟩
  have hnum : w.session.numAssistant ≤
      (w.session.withGeneration r.requestId r.body a ids).numAssistant := by
    simp [LinearTrajectory.withGeneration, h.aligned.ends]
  obtain ⟨hnodup, hnodupFly, hdisjoint⟩ := List.nodup_append.mp h.nodup
  refine ⟨h.aligned.withGeneration _ _ _ _, ?_, fun id hid => ?_, fun r' hr' => ?_⟩
  · simp only [recordIds, inFlightIds, hrec]
    refine List.nodup_append.mpr ⟨?_, ?_, ?_⟩
    · refine List.nodup_append.mpr ⟨hnodup, by simp, fun id hid id' hid' => ?_⟩
      rw [List.mem_singleton.mp hid']
      exact hdisjoint id hid _ hmem
    · exact hnodupFly.sublist ((List.filter_sublist).map _)
    · intro id hid id' hid' heq
      obtain ⟨hin, hne⟩ := hfly id' hid'
      obtain hid | hid := List.mem_append.mp hid
      · exact hdisjoint id hid id' hin heq
      · exact hne (heq.symm.trans (List.mem_singleton.mp hid))
  · simp only [recordIds, inFlightIds, hrec, List.mem_append, List.mem_singleton] at hid
    obtain (hid | rfl) | hid := hid
    · exact h.started id (List.mem_append_left _ hid)
    · exact h.started _ (List.mem_append_right _ hmem)
    · exact h.started id (List.mem_append_right _ (hfly id hid).1)
  · have hbase := h.bases r' (mem_of_mem_others hr')
    simp only [BaseIds, recordIds, inFlightIds, hrec] at hbase ⊢
    split
    · rename_i hover
      rw [if_pos hover] at hbase
      obtain ⟨dead, hdead, hgone, hflying, hst⟩ := hbase
      refine ⟨dead, hdead, ?_, fun hid => hflying (hfly dead hid).1, hst⟩
      simp only [List.mem_append, List.mem_singleton, not_or]
      exact ⟨hgone, fun heq => hflying (heq ▸ hmem)⟩
    · rename_i hover
      rw [if_neg hover] at hbase
      obtain ⟨hle, hids⟩ := hbase
      refine ⟨Nat.le_trans hle hnum, ?_⟩
      rw [List.take_append_of_le_length]
      · exact hids
      · simp only [List.length_map, h.aligned.records]
        exact hle

/-- Every event keeps the ids unique. -/
theorem step {w' : SessionWorld Msg Args} {e : Event Msg Args}
    (h : UniqueIds w) (hstep : SessionWorld.step cfg w e = some w') : UniqueIds w' := by
  cases step_transition h.aligned hstep with
  | turnedAway id => exact h.grow id
  | refused id client n => exact (h.rollback n).grow id
  | prepared id client n body fresh le =>
    exact (h.rollback n).prepare fresh
      ((h.aligned.numAssistant_upTo n).trans (Nat.min_eq_left le))
  | skipped r => exact h.drop r.requestId
  | committed r result a ids found => exact h.commit (mem_of_find found) a ids
  | cancelled r => exact h.drop r.requestId
  | closed =>
    have hs := h.aligned
    exact ⟨⟨hs.records, hs.tokens, hs.turnArgs, hs.ends, hs.messages⟩, h.nodup, h.started,
      h.bases⟩
  | removed => exact ⟨h.aligned, h.nodup, h.started, h.bases⟩

end UniqueIds

/-- A response of an overtaken request that passes the checks is committed to a history its
    request was not prepared against. -/
theorem UniqueIds.base_ne {w : SessionWorld Msg Args} (h : UniqueIds w)
    (hr : r ∈ w.inFlight) (hover : r.overtaken = true) : w.session ≠ r.base := by
  intro heq
  have hbase := h.bases r hr
  rw [BaseIds, if_pos hover] at hbase
  obtain ⟨dead, hdead, hgone, -⟩ := hbase
  rw [← heq] at hdead
  exact hgone hdead

/-- In every run, every commit meets the history its request was prepared against, and the
    session is one generation chain, iff no response passes the checks of phase 3 after
    another request rolled back the history it was prepared against. -/
theorem commitSafe_iff_no_overtaken_commit (cfg : Config Msg Args)
    (es : List (Event Msg Args)) :
    Lts.StatesWhere (step cfg) (fun w => w.CommitSafe ∧ w.OneChain cfg) {} es ↔
      Lts.StepsWhere (step cfg) (AtCommit cfg NotOvertaken) {} es := by
  constructor
  · intro h
    rw [Lts.stepsWhere_iff]
    rintro pre e post w rfl hrun
    cases e with
    | answer id result =>
      intro r a ids hfind hcompletion hadmits
      have hstep := step_committed hfind hcompletion hadmits
      obtain ⟨hsafe, -⟩ := h (pre ++ [.answer id result]) post _ (by simp)
        (Lts.run_concat.mpr ⟨w, hrun, hstep⟩)
      have hbase := hsafe _ (List.mem_append_right _ (List.mem_singleton.mpr rfl))
      have hunique : UniqueIds w :=
        Lts.run_invariant (fun _ _ _ hw hs => UniqueIds.step hw hs) .init hrun
      rw [NotOvertaken, Bool.eq_false_iff]
      exact fun hover => hunique.base_ne (mem_of_find hfind) hover hbase
    | _ => trivial
  · intro h
    have hchained := Lts.statesWhere_of_stepsWhere (I := Chained cfg)
      (fun _ _ _ hs hC => chained_step hs hC) (.init cfg) h
    exact fun pre post w heq hrun =>
      have hw := hchained pre post w heq hrun
      ⟨hw.safe, hw.chain⟩

end SessionWorld

/-! ### A run that commits an overtaken request -/

/-- Request 1 continues the first answer.  While it is proxied, request 2 retries the first
    turn and gets an answer that stops one token earlier. -/
def retriedFirstTurnRun : List (Event PlainMessage Unit) :=
  [.chat 0 ⟨[⟨1, 0⟩], ()⟩, .answer 0 (plainAnswer ⟨2, 0⟩ [2, 3]),
   .chat 1 ⟨[⟨1, 0⟩, ⟨2, 0⟩, ⟨4, 0⟩], ()⟩,
   .chat 2 ⟨[⟨1, 0⟩], ()⟩, .answer 2 (plainAnswer ⟨5, 0⟩ [2]),
   .answer 1 (plainAnswer ⟨6, 0⟩ [6])]

/-- After that run request 1 is committed on top of request 2's answer, while its prompt was
    rendered from the answer that request 2 rolled back. -/
theorem commitSafe_broken :
    ∃ w, Lts.run (SessionWorld.step plainConfig) {} retriedFirstTurnRun = some w ∧
      w.session.trajectoryTokenIds = [[1, 2], [1, 2, 3, 4, 6]] ∧
      w.session.messages = [⟨1, 0⟩, ⟨5, 0⟩, ⟨4, 0⟩, ⟨6, 0⟩] ∧
      ¬ (w.CommitSafe ∧ w.OneChain plainConfig) := by
  refine ⟨_, rfl, rfl, rfl, fun h => ?_⟩
  have hsafe := h.1
  revert hsafe
  simp only [SessionWorld.CommitSafe]
  decide

end Miles.Session
