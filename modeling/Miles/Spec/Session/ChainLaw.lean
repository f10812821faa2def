import Miles.Spec.Session.SampleLaws

/-!
# The law of a committed chain

A commit checks the new checkpoint against the one before it, up to a tolerance at the end.  The
assembly compares every turn with the last checkpoint.  In between stand the commits after the
turn: each compares a position only if the checkpoint it extends goes on for more than the
tolerance behind it, so a checkpoint that is shorter than the turn's own leaves the turn's last
outputs unchecked.
-/

namespace Miles.Session

/-! ## Token checks -/

/-- The commit's check, position by position. -/
theorem assertPretokenizedPrefix_eq_ok {prev allTokenIds : List Nat} {maxTrimTokens : Nat} :
    assertPretokenizedPrefix prev allTokenIds maxTrimTokens = .ok () ↔
      ∀ j, j + maxTrimTokens < prev.length → allTokenIds[j]? = prev[j]? := by
  have hpoints : (allTokenIds.take (prev.length - maxTrimTokens) =
      prev.take (prev.length - maxTrimTokens)) ↔
      ∀ j, j + maxTrimTokens < prev.length → allTokenIds[j]? = prev[j]? := by
    constructor
    · intro h j hj
      have hlt : j < prev.length - maxTrimTokens := by omega
      have hget := congrArg (·[j]?) h
      simpa only [List.getElem?_take, hlt, if_true] using hget
    · intro h
      apply List.ext_getElem?
      intro j
      by_cases hj : j < prev.length - maxTrimTokens
      · simp only [List.getElem?_take, hj, if_true]
        exact h j (by omega)
      · simp [hj]
  rw [← hpoints]
  unfold assertPretokenizedPrefix
  cases prev with
  | nil => simp
  | cons x xs =>
    simp only [List.isEmpty_cons, Bool.false_eq_true, if_false]
    by_cases heq : allTokenIds.take ((x :: xs).length - maxTrimTokens) =
        (x :: xs).take ((x :: xs).length - maxTrimTokens)
    · rw [if_neg fun h => h.2 heq]
      exact iff_of_true rfl heq
    · have hpos : 0 < (x :: xs).length - maxTrimTokens := by
        by_contra hzero
        rw [Nat.eq_zero_of_not_pos hzero] at heq
        exact heq rfl
      rw [if_pos ⟨hpos, heq⟩]
      exact iff_of_false (by simp) heq

/-- How far two lists agree from their start. -/
theorem le_lcpLen_iff {xs ys : List Nat} {k : Nat} :
    k ≤ lcpLen xs ys ↔ k ≤ xs.length ∧ ∀ j < k, ys[j]? = xs[j]? := by
  induction xs generalizing ys k with
  | nil =>
    cases ys <;> simp only [lcpLen, List.length_nil, Nat.le_zero] <;>
      exact ⟨fun h => ⟨h, by omega⟩, fun h => h.1⟩
  | cons x xs ih =>
    cases k with
    | zero => simp
    | succ k =>
      cases ys with
      | nil =>
        simp only [lcpLen]
        apply iff_of_false (by omega)
        intro h
        have hfirst := h.2 0 (by omega)
        simp at hfirst
      | cons y ys =>
        simp only [lcpLen]
        by_cases hxy : x = y
        · subst hxy
          rw [if_pos rfl, Nat.add_le_add_iff_right, ih, List.length_cons,
            Nat.add_le_add_iff_right]
          apply and_congr_right
          intro _
          constructor
          · intro h j hj
            cases j with
            | zero => rfl
            | succ j => simpa using h j (by omega)
          · intro h j hj
            simpa using h (j + 1) (by omega)
        · rw [if_neg hxy]
          apply iff_of_false (by omega)
          intro h
          have hfirst := h.2 0 (by omega)
          simp only [List.getElem?_cons_zero, Option.some.injEq] at hfirst
          exact hxy hfirst.symm

/-- The outputs that agree with the accumulated ids are the same slice of both. -/
theorem take_lcpLen (xs ys : List Nat) : xs.take (lcpLen xs ys) = ys.take (lcpLen xs ys) := by
  have hagree : lcpLen xs ys ≤ xs.length ∧ ∀ j < lcpLen xs ys, ys[j]? = xs[j]? :=
    le_lcpLen_iff.mp (Nat.le_refl _)
  apply List.ext_getElem?
  intro j
  by_cases hj : j < lcpLen xs ys
  · simp only [List.getElem?_take, hj, if_true]
    exact (hagree.2 j hj).symm
  · simp [hj]

/-! ## Chains of turns -/

/-- The token ids that the commit of a turn stores. -/
def Turn.checkpoint (turn : Turn) : List Nat := turn.inputIds ++ turn.outputIds

/-- Every turn's commit passed its check against the checkpoint before it. -/
def Committed (maxTrimTokens : Nat) (turns : List Turn) : Prop :=
  turns.IsChain fun a b =>
    assertPretokenizedPrefix a.checkpoint b.checkpoint maxTrimTokens = .ok ()

/-- `accumulated_token_ids` of a chain: the token ids of its last checkpoint. -/
def lastCheckpoint (turns : List Turn) : List Nat := turns.getLast?.elim [] Turn.checkpoint

/-- A turn after the `i`-th, and before the last, stored so few tokens that the next commit did not
    look at position `j`. -/
def Unchecked (maxTrimTokens : Nat) (turns : List Turn) (i j : Nat) : Prop :=
  ∃ k later, i < k ∧ turns.dropLast[k]? = some later ∧
    later.checkpoint.length ≤ j + maxTrimTokens

/-- Where a later commit did not look, the last checkpoint has the outputs of the turn all the same,
    but for those that a trim may drop. -/
def KeepsUnchecked (maxTrimTokens : Nat) (turns : List Turn) : Prop :=
  ∀ i turn, turns.dropLast[i]? = some turn →
    ∀ j, turn.inputIds.length ≤ j → j + maxTrimTokens < turn.checkpoint.length →
      Unchecked maxTrimTokens turns i j → (lastCheckpoint turns)[j]? = turn.checkpoint[j]?

/-- The outputs that a turn's sample keeps are the accumulated ids at the end of its prompt. -/
def KeepsSlice (accumulatedTokenIds : List Nat) (turn : Turn) (sample : Sample) : Prop :=
  sample.tokens.take turn.inputIds.length = turn.inputIds ∧
  sample.tokens.drop turn.inputIds.length =
    (accumulatedTokenIds.drop turn.inputIds.length).take sample.responseLength

/-- The assembly of a chain raises nothing, and every turn keeps a slice of the accumulated ids. -/
def Collected (maxTrimTokens : Nat) (turns : List Turn) (accumulatedTokenIds : List Nat) : Prop :=
  ∃ samples,
    computeSamplesFromOpenaiRecords turns accumulatedTokenIds maxTrimTokens = .ok samples ∧
    List.Forall₂ (KeepsSlice accumulatedTokenIds) turns samples

/-! ## What the commits check -/

/-- A position that every commit of a stretch of the chain looked at keeps its token. -/
theorem Committed.getElem?_eq {maxTrimTokens : Nat} {turns : List Turn}
    (h : Committed maxTrimTokens turns) {i m j : Nat} {turn last : Turn} (him : i ≤ m)
    (hturn : turns[i]? = some turn) (hlast : turns[m]? = some last)
    (hchecked : ∀ k later, i ≤ k → k < m → turns[k]? = some later →
      j + maxTrimTokens < later.checkpoint.length) :
    last.checkpoint[j]? = turn.checkpoint[j]? := by
  -- induction on the end of the stretch
  induction m generalizing last with
  | zero =>
    have hzero : i = 0 := by omega
    subst hzero
    rw [hturn] at hlast
    cases hlast
    rfl
  | succ m ih =>
    by_cases heq : i = m + 1
    · subst heq
      rw [hturn] at hlast
      cases hlast
      rfl
    · obtain ⟨hlt, hget⟩ := List.getElem?_eq_some_iff.mp hlast
      have hmid : turns[m]? = some turns[m] := List.getElem?_eq_getElem (by omega)
      have hstretch := ih (by omega) hmid fun k later hik hkm hk =>
        hchecked k later hik (by omega) hk
      have hcommit := List.isChain_iff_getElem.mp h m (by omega)
      rw [hget] at hcommit
      have hlook := hchecked m turns[m] (by omega) (by omega) hmid
      rw [← hstretch]
      exact assertPretokenizedPrefix_eq_ok.mp hcommit j hlook

/-! ## What the assembly checks -/

theorem trimsAllowed_concat {accumulatedTokenIds : List Nat} {maxTrimTokens : Nat} {last : Turn}
    {turns : List Turn} :
    TrimsAllowed accumulatedTokenIds maxTrimTokens (turns ++ [last]) ↔
      (∀ turn ∈ turns, turn.outputIds.length - matchedOutputs accumulatedTokenIds turn ≤
        maxTrimTokens) ∧
      last.outputIds.length ≤ matchedOutputs accumulatedTokenIds last := by
  induction turns with
  | nil =>
    simp only [List.nil_append, TrimsAllowed, List.isEmpty_nil, if_true, and_true,
      List.not_mem_nil, false_implies, implies_true, true_and]
    omega
  | cons turn rest ih =>
    have hmore : (rest ++ [last]).isEmpty = false := by simp
    simp only [List.cons_append, TrimsAllowed, hmore, Bool.false_eq_true, if_false, ih,
      List.forall_mem_cons, and_assoc]

/-- A turn's trim is allowed if the accumulated ids have all its outputs, but for the last
    `maxTrimTokens`. -/
theorem trim_le_iff {accumulatedTokenIds : List Nat} {maxTrimTokens : Nat} {turn : Turn} :
    turn.outputIds.length - matchedOutputs accumulatedTokenIds turn ≤ maxTrimTokens ↔
      ∀ j, turn.inputIds.length ≤ j → j + maxTrimTokens < turn.checkpoint.length →
        accumulatedTokenIds[j]? = turn.checkpoint[j]? := by
  have hle : turn.outputIds.length - matchedOutputs accumulatedTokenIds turn ≤ maxTrimTokens ↔
      turn.outputIds.length - maxTrimTokens ≤ matchedOutputs accumulatedTokenIds turn := by omega
  have hlength : turn.checkpoint.length = turn.inputIds.length + turn.outputIds.length :=
    List.length_append
  rw [hle, matchedOutputs, le_lcpLen_iff, and_iff_right (Nat.sub_le _ _)]
  constructor
  · intro h j hj hlt
    have hget := h (j - turn.inputIds.length) (by omega)
    rw [List.getElem?_drop, Nat.add_sub_cancel' hj] at hget
    rw [hget, Turn.checkpoint, List.getElem?_append_right hj]
  · intro h j hj
    have hget := h (turn.inputIds.length + j) (by omega) (by omega)
    rw [List.getElem?_drop, hget, Turn.checkpoint, List.getElem?_append_right (by omega),
      Nat.add_sub_cancel_left]

theorem matchedOutputs_checkpoint (turn : Turn) :
    matchedOutputs turn.checkpoint turn = turn.outputIds.length := by
  apply Nat.le_antisymm (matchedOutputs_le _ _)
  rw [matchedOutputs, Turn.checkpoint, List.drop_left, le_lcpLen_iff]
  exact ⟨Nat.le_refl _, fun _ _ => rfl⟩

/-- The sample of a turn keeps a slice of the accumulated ids, whatever the turns are. -/
theorem keepsSlice_turnSample (accumulatedTokenIds : List Nat) (turn : Turn) :
    KeepsSlice accumulatedTokenIds turn
      (turnSample turn (matchedOutputs accumulatedTokenIds turn)) := by
  constructor
  · simp [turnSample]
  · simp only [turnSample, List.drop_left]
    exact take_lcpLen _ _

theorem forall₂_turnSamples (accumulatedTokenIds : List Nat) (turns : List Turn) :
    List.Forall₂ (KeepsSlice accumulatedTokenIds) turns (turnSamples accumulatedTokenIds turns) := by
  unfold turnSamples
  rw [List.forall₂_map_right_iff, List.forall₂_same]
  intro turn _
  exact keepsSlice_turnSample accumulatedTokenIds turn

/-! ## Collection -/

/-- With the last checkpoint as accumulated ids, only the trims of the turns before the last one
    can be refused. -/
theorem collected_iff_trims (maxTrimTokens : Nat) (turns : List Turn) :
    Collected maxTrimTokens turns (lastCheckpoint turns) ↔
      ∀ turn ∈ turns.dropLast, ∀ j, turn.inputIds.length ≤ j →
        j + maxTrimTokens < turn.checkpoint.length →
        (lastCheckpoint turns)[j]? = turn.checkpoint[j]? := by
  have hok : Collected maxTrimTokens turns (lastCheckpoint turns) ↔
      TrimsAllowed (lastCheckpoint turns) maxTrimTokens turns ∧
        cursorAfter (lastCheckpoint turns) 0 turns = (lastCheckpoint turns).length := by
    unfold Collected
    constructor
    · intro h
      obtain ⟨samples, hrun, -⟩ := h
      obtain ⟨htrims, hcursor, -⟩ := computeSamples_eq_ok.mp hrun
      exact ⟨htrims, hcursor⟩
    · intro h
      exact ⟨_, computeSamples_eq_ok.mpr ⟨h.1, h.2, rfl⟩, forall₂_turnSamples _ _⟩
  rw [hok]
  obtain rfl | ⟨init, last, rfl⟩ := List.eq_nil_or_concat' turns
  · simp [TrimsAllowed, cursorAfter, lastCheckpoint]
  · have hlast : lastCheckpoint (init ++ [last]) = last.checkpoint := by simp [lastCheckpoint]
    have hmatched := matchedOutputs_checkpoint last
    have hcursor : cursorAfter last.checkpoint 0 (init ++ [last]) = last.checkpoint.length := by
      simp only [cursorAfter, List.getLast?_concat, Option.elim_some, hmatched]
      exact List.length_append.symm
    rw [hlast, List.dropLast_concat, trimsAllowed_concat, hmatched, and_iff_left hcursor,
      and_iff_left (Nat.le_refl _)]
    simp only [trim_le_iff]

section Chain

variable {maxTrimTokens : Nat} {turns : List Turn}

/-- The assembly of a committed chain passes its assertions if and only if the last checkpoint has
    the outputs that a later commit did not look at. -/
theorem collected_iff (h : Committed maxTrimTokens turns) :
    Collected maxTrimTokens turns (lastCheckpoint turns) ↔ KeepsUnchecked maxTrimTokens turns := by
  rw [collected_iff_trims]
  constructor
  · intro hall i turn hi j hprompt hlt _
    exact hall turn (List.mem_of_getElem? hi) j hprompt hlt
  · intro hkeeps turn hturn j hprompt hlt
    obtain ⟨i, hi⟩ := List.getElem?_of_mem hturn
    by_cases hunchecked : Unchecked maxTrimTokens turns i j
    · exact hkeeps i turn hi j hprompt hlt hunchecked
    · obtain ⟨init, last, rfl⟩ : ∃ init last, turns = init ++ [last] := by
        obtain rfl | hconcat := List.eq_nil_or_concat' turns
        · cases hi
        · exact hconcat
      have hlast : lastCheckpoint (init ++ [last]) = last.checkpoint := by simp [lastCheckpoint]
      simp only [Unchecked, List.dropLast_concat] at hi hunchecked
      have hilt := (List.getElem?_eq_some_iff.mp hi).1
      rw [hlast]
      -- every commit after the turn looked at the position
      apply h.getElem?_eq (i := i) (m := init.length) (by omega)
      · rw [List.getElem?_append_left hilt, hi]
      · exact List.getElem?_concat_length
      · intro k later hik hkm hk
        rw [List.getElem?_append_left hkm] at hk
        by_cases heq : i = k
        · subst heq
          rw [hi] at hk
          cases hk
          exact hlt
        · by_contra hshort
          exact hunchecked ⟨k, later, by omega, hk, by omega⟩

/-- No checkpoint of the chain is shorter than the one before it. -/
def Growing (turns : List Turn) : Prop :=
  turns.IsChain fun a b => a.checkpoint.length ≤ b.checkpoint.length

/-- In a growing chain every commit looked at all the positions that the assembly compares. -/
theorem Growing.keepsUnchecked (h : Growing turns) : KeepsUnchecked maxTrimTokens turns := by
  intro i turn hi j _ hlt hunchecked
  obtain ⟨k, later, hik, hk, hshort⟩ := hunchecked
  have hinit : turns.dropLast.IsChain fun a b => a.checkpoint.length ≤ b.checkpoint.length := by
    rw [List.dropLast_eq_take]
    exact h.take _
  have hpairs := List.isChain_iff_pairwise.mp hinit
  obtain ⟨hilt, higet⟩ := List.getElem?_eq_some_iff.mp hi
  obtain ⟨hklt, hkget⟩ := List.getElem?_eq_some_iff.mp hk
  have hle := List.pairwise_iff_getElem.mp hpairs i k hilt hklt hik
  rw [higet, hkget] at hle
  omega

/-- The assembly of a growing chain passes its assertions. -/
theorem collected_of_growing (h : Committed maxTrimTokens turns) (hgrows : Growing turns) :
    Collected maxTrimTokens turns (lastCheckpoint turns) :=
  (collected_iff h).mpr hgrows.keepsUnchecked

end Chain

end Miles.Session
