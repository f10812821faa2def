import Miles.ForStd.Except
import Miles.Native.Session.SampleAssembly

/-!
# What the assembly of a chain of turns makes

The sample of each turn keeps the outputs that the accumulated ids continue with.  A token budget
cuts the turns from the end, and the first turn survives if its prompt leaves room for it.
-/

namespace Miles.Session

open Except (bind_eq_ok)

/-! ## Turns -/

theorem lcpLen_le_left (xs ys : List Nat) : lcpLen xs ys ≤ xs.length := by
  induction xs generalizing ys with
  | nil => cases ys <;> exact Nat.le_refl _
  | cons x xs ih =>
    cases ys with
    | nil => exact Nat.zero_le _
    | cons y ys =>
      have hle := ih ys
      simp only [lcpLen, List.length_cons]
      split <;> omega

theorem matchedOutputs_le (accumulatedTokenIds : List Nat) (turn : Turn) :
    matchedOutputs accumulatedTokenIds turn ≤ turn.outputIds.length :=
  lcpLen_le_left ..

/-- The sample of a turn that keeps its first `kept` outputs. -/
def turnSample (turn : Turn) (kept : Nat) : Sample where
  tokens := turn.inputIds ++ turn.outputIds.take kept
  responseLength := kept
  lossMask := List.replicate kept 1
  status := turnStatus turn.finishReason
  replay := turn.replay

/-- A turn is trimmed from the end of its outputs. -/
theorem computeSampleFromOpenaiRecord_eq (turn : Turn) {kept : Nat}
    (hkept : kept ≤ turn.outputIds.length) :
    computeSampleFromOpenaiRecord turn (turn.outputIds.length - kept) =
      .ok (turnSample turn kept) := by
  unfold computeSampleFromOpenaiRecord Sample.stripLastOutputTokens
  by_cases hall : turn.outputIds.length - kept = 0
  · have heq : kept = turn.outputIds.length := by omega
    subst heq
    simp [turnSample, bind, Except.bind, pure, Except.pure]
  · have htokens : turn.inputIds.length + turn.outputIds.length - (turn.outputIds.length - kept) =
        turn.inputIds.length + kept := by omega
    have hresponse : turn.outputIds.length - (turn.outputIds.length - kept) = kept := by omega
    simp [turnSample, bind, Except.bind, pure, Except.pure, hall, htokens, hresponse, hkept,
      List.take_append]

/-- The samples of the turns, as the accumulated ids trim them. -/
def turnSamples (accumulatedTokenIds : List Nat) (turns : List Turn) : List Sample :=
  turns.map fun turn => turnSample turn (matchedOutputs accumulatedTokenIds turn)

/-- The trim of every turn is allowed: `maxTrimTokens`, and nothing on the last one. -/
def TrimsAllowed (accumulatedTokenIds : List Nat) (maxTrimTokens : Nat) : List Turn → Prop
  | [] => True
  | turn :: rest =>
    turn.outputIds.length - matchedOutputs accumulatedTokenIds turn ≤
        (if rest.isEmpty then 0 else maxTrimTokens) ∧
      TrimsAllowed accumulatedTokenIds maxTrimTokens rest

/-- Where the cursor stands after the turns. -/
def cursorAfter (accumulatedTokenIds : List Nat) (cursor : Nat) (turns : List Turn) : Nat :=
  turns.getLast?.elim cursor fun turn =>
    turn.inputIds.length + matchedOutputs accumulatedTokenIds turn

/-- The loop over the turns succeeds if and only if every trim is allowed. -/
theorem computeTurns_eq_ok {accumulatedTokenIds : List Nat} {maxTrimTokens cursor : Nat}
    {turns : List Turn} {result : List Sample × Nat} :
    computeTurns accumulatedTokenIds maxTrimTokens cursor turns = .ok result ↔
      TrimsAllowed accumulatedTokenIds maxTrimTokens turns ∧
      result = (turnSamples accumulatedTokenIds turns, cursorAfter accumulatedTokenIds cursor turns)
      := by
  induction turns generalizing cursor result with
  | nil =>
    simp only [computeTurns, TrimsAllowed, true_and, Except.ok.injEq]
    exact eq_comm
  | cons turn rest ih =>
    have hcursor : cursorAfter accumulatedTokenIds cursor (turn :: rest) =
        cursorAfter accumulatedTokenIds
          (turn.inputIds.length + matchedOutputs accumulatedTokenIds turn) rest := by
      cases rest with
      | nil => rfl
      | cons next rest => simp [cursorAfter, List.getLast?_cons]
    have hsample := computeSampleFromOpenaiRecord_eq turn (matchedOutputs_le accumulatedTokenIds turn)
    simp only [computeTurns, TrimsAllowed]
    by_cases htrim : (if rest.isEmpty then 0 else maxTrimTokens) <
        turn.outputIds.length - matchedOutputs accumulatedTokenIds turn
    · rw [if_pos htrim]
      simp only [throw, throwThe, MonadExceptOf.throw, bind, Except.bind]
      refine iff_of_false (fun h => nomatch h) fun h => ?_
      have := h.1.1
      omega
    · rw [if_neg htrim, hsample]
      simp only [Except.ok_bind, bind_eq_ok, ih]
      constructor
      · rintro ⟨⟨samples, last⟩, ⟨hrest, heq⟩, hresult⟩
        cases heq
        cases hresult
        exact ⟨⟨by omega, hrest⟩, by rw [hcursor]; rfl⟩
      · rintro ⟨⟨-, hrest⟩, rfl⟩
        exact ⟨_, ⟨hrest, rfl⟩, by rw [hcursor]; rfl⟩

/-- When the collection of a chain of turns passes its assertions. -/
theorem computeSamples_eq_ok {turns : List Turn} {accumulatedTokenIds : List Nat}
    {maxTrimTokens : Nat} {samples : List Sample} :
    computeSamplesFromOpenaiRecords turns accumulatedTokenIds maxTrimTokens = .ok samples ↔
      TrimsAllowed accumulatedTokenIds maxTrimTokens turns ∧
      cursorAfter accumulatedTokenIds 0 turns = accumulatedTokenIds.length ∧
      samples = turnSamples accumulatedTokenIds turns := by
  unfold computeSamplesFromOpenaiRecords
  rw [bind_eq_ok]
  constructor
  · rintro ⟨result, hturns, hrest⟩
    obtain ⟨htrims, rfl⟩ := computeTurns_eq_ok.mp hturns
    dsimp only at hrest
    split_ifs at hrest with hcursor
    · cases hrest
    · cases hrest
      exact ⟨htrims, not_not.mp hcursor, rfl⟩
  · rintro ⟨htrims, hcursor, rfl⟩
    refine ⟨_, computeTurns_eq_ok.mpr ⟨htrims, rfl⟩, ?_⟩
    simp [hcursor, pure, Except.pure]

/-! ## The token budget -/

theorem truncateLast_ne_nil {result : List Sample} (h : result ≠ []) : truncateLast result ≠ [] := by
  obtain ⟨last, hlast⟩ : ∃ last, result.getLast? = some last :=
    ⟨_, List.getLast?_eq_some_getLast h⟩
  unfold truncateLast
  rw [hlast]
  dsimp only
  split
  · exact List.append_ne_nil_of_right_ne_nil _ (List.cons_ne_nil _ _)
  · exact h

/-- What was kept stays. -/
theorem truncateLoop_ne_nil {maxSeqLen : Int} {result samples kept : List Sample}
    (hresult : result ≠ []) (h : truncateLoop maxSeqLen result samples = .ok kept) : kept ≠ [] := by
  induction samples generalizing result with
  | nil =>
    cases h
    exact hresult
  | cons sample rest ih =>
    simp only [truncateLoop] at h
    split_ifs at h
    · exact ih (List.append_ne_nil_of_left_ne_nil hresult _) h
    · cases h
      exact truncateLast_ne_nil hresult
    · obtain ⟨stripped, -, hkept⟩ := bind_eq_ok.mp h
      cases hkept
      exact List.append_ne_nil_of_left_ne_nil hresult _

/-- The first sample survives a budget that leaves room for a token of its response, or for the
    whole of it. -/
theorem truncate_nonempty_iff {maxSeqLen : Int} {sample : Sample} {rest kept : List Sample}
    (h : truncateSamplesByTotalTokens (sample :: rest) maxSeqLen = .ok kept) :
    kept ≠ [] ↔ (sample.tokens.length : Int) ≤ maxSeqLen ∨
      (sample.tokens.length : Int) - sample.responseLength < maxSeqLen := by
  simp only [truncateSamplesByTotalTokens, truncateLoop] at h
  split_ifs at h with hfits hcut
  · exact iff_of_true (truncateLoop_ne_nil (by simp) h) (.inl hfits)
  · cases h
    refine iff_of_false (by simp [truncateLast]) ?_
    omega
  · obtain ⟨stripped, -, hkept⟩ := bind_eq_ok.mp h
    cases hkept
    refine iff_of_true (by simp) (.inr ?_)
    omega

/-- A first turn survives where its prompt is shorter than the budget, or as long and nothing of
    its response is kept. -/
theorem truncate_turnSamples_nonempty_iff {maxSeqLen : Int} {accumulatedTokenIds : List Nat}
    {turn : Turn} {rest : List Turn} {kept : List Sample}
    (h : truncateSamplesByTotalTokens (turnSamples accumulatedTokenIds (turn :: rest)) maxSeqLen =
      .ok kept) :
    kept ≠ [] ↔ (turn.inputIds.length : Int) < maxSeqLen ∨
      (turn.inputIds.length : Int) = maxSeqLen ∧ matchedOutputs accumulatedTokenIds turn = 0 := by
  have hle := matchedOutputs_le accumulatedTokenIds turn
  rw [truncate_nonempty_iff h]
  simp only [turnSample, List.length_append, List.length_take, min_eq_left hle]
  omega

end Miles.Session
