import Miles.ForStd.Except
import Miles.Native.Rollout.DataSource

/-!
# Fairness of weighted mixing

`split_by_weight` is a smooth weighted round-robin whose credits carry over between requests.
After `n` draws the credit of a dataset is what it was due less what it paid, `n * w - W * count`,
and the credits never fall to `-W`: only the dataset with the most credit pays, and the credits
of one draw sum to `W > 0`.  Everything else follows from these two facts.
-/

namespace Miles.Rollout.DataSource

/-! ## The chosen position -/

theorem chooseLargest_foldl (credits : List Int) (order : List Nat) (best : Nat) :
    let chosen := order.foldl
      (fun best i => if credits.getD best 0 < credits.getD i 0 then i else best) best
    (chosen = best ∨ chosen ∈ order) ∧ credits.getD best 0 ≤ credits.getD chosen 0 ∧
      ∀ i ∈ order, credits.getD i 0 ≤ credits.getD chosen 0 := by
  induction order generalizing best with
  | nil => simp
  | cons j order ih =>
    simp only [List.foldl_cons, List.mem_cons, forall_eq_or_imp]
    by_cases hlt : credits.getD best 0 < credits.getD j 0
    · rw [if_pos hlt]
      obtain ⟨hmem, hbest, hall⟩ := ih j
      exact ⟨.inr hmem, by omega, hbest, hall⟩
    · rw [if_neg hlt]
      obtain ⟨hmem, hbest, hall⟩ := ih best
      exact ⟨hmem.imp_right .inr, hbest, by omega, hall⟩

/-- The chosen position is one of the list and has the most credit. -/
theorem chooseLargest_spec {credits : List Int} (h : credits ≠ []) :
    chooseLargest credits < credits.length ∧
      ∀ i < credits.length, credits.getD i 0 ≤ credits.getD (chooseLargest credits) 0 := by
  have hpos := List.length_pos_iff.mpr h
  obtain ⟨hmem, -, hall⟩ := chooseLargest_foldl credits (List.range credits.length) 0
  refine ⟨?_, fun i hi => hall i (List.mem_range.mpr hi)⟩
  rcases hmem with hzero | hmem
  · unfold chooseLargest
    omega
  · exact List.mem_range.mp hmem

/-- Some credit is positive when they sum to something positive. -/
theorem chooseLargest_pos {credits : List Int} (h : 0 < credits.sum) :
    0 < credits.getD (chooseLargest credits) 0 := by
  have hne : credits ≠ [] := by
    rintro rfl
    exact absurd h (by decide)
  by_contra hle
  have hnonpos : ∀ x ∈ credits, x ≤ 0 := by
    intro x hx
    obtain ⟨i, hi, rfl⟩ := List.mem_iff_getElem.mp hx
    have hmax := (chooseLargest_spec hne).2 i hi
    rw [List.getD_eq_getElem _ _ hi] at hmax
    omega
  have hsum := List.sum_le_card_nsmul credits 0 hnonpos
  rw [nsmul_zero] at hsum
  omega

/-! ## One draw -/

theorem length_splitStep_fst (weights : List Int) (state : List Nat × List Int) :
    (splitStep weights state).1.length = state.1.length := by
  simp [splitStep]

/-- After `n` draws every dataset has been due `n` times its weight and has paid the total
    weight for each of its prompts, and no credit has fallen to minus the total weight. -/
structure Fair (weights : List Int) (n : Nat) (state : List Nat × List Int) : Prop where
  length_counts : state.1.length = weights.length
  length_credits : state.2.length = weights.length
  sum_counts : state.1.sum = n
  sum_credits : state.2.sum = 0
  balance : ∀ i < weights.length,
    state.2.getD i 0 = n * weights.getD i 0 - weights.sum * state.1.getD i 0
  bounded : ∀ i < weights.length, -weights.sum < state.2.getD i 0

theorem sum_modify {M : Type} [AddCommMonoid M] {f : M → M} {w : M} (hf : ∀ x, f x = x + w)
    (xs : List M) {i : Nat} (h : i < xs.length) : (xs.modify i f).sum = xs.sum + w := by
  induction xs generalizing i with
  | nil => cases h
  | cons x xs ih =>
    cases i with
    | zero => rw [List.modify_zero_cons, List.sum_cons, List.sum_cons, hf, add_right_comm]
    | succ i =>
      rw [List.modify_succ_cons, List.sum_cons, List.sum_cons, ih (by simpa using h), add_assoc]

theorem getD_modify {α : Type} (xs : List α) (f : α → α) (i j : Nat) (d : α)
    (h : j < xs.length) :
    (xs.modify i f).getD j d = if i = j then f (xs.getD j d) else xs.getD j d := by
  rw [List.getD_eq_getElem _ _ (by simpa using h), List.getD_eq_getElem _ _ h,
    List.getElem_modify]

theorem getD_zipWith_add {M : Type} [Zero M] [Add M] {xs ys : List M} (h : xs.length = ys.length)
    {i : Nat} (hi : i < ys.length) :
    (List.zipWith (· + ·) xs ys).getD i 0 = xs.getD i 0 + ys.getD i 0 := by
  rw [List.getD_eq_getElem _ _ (by simp; omega), List.getD_eq_getElem _ _ (by omega),
    List.getD_eq_getElem _ _ hi, List.getElem_zipWith]

/-- The split starts fair. -/
theorem fair_start (weights : List Int) (h : 0 < weights.sum) :
    Fair weights 0 (List.replicate weights.length 0, List.replicate weights.length 0) where
  length_counts := List.length_replicate
  length_credits := List.length_replicate
  sum_counts := by simp
  sum_credits := by simp
  balance i hi := by simp [List.getD_eq_getElem?_getD, hi]
  bounded i hi := by simpa [List.getD_eq_getElem?_getD, hi] using h

/-- One draw keeps the balance. -/
theorem Fair.splitStep {weights : List Int} {n : Nat} {state : List Nat × List Int}
    (hpos : ∀ w ∈ weights, 0 < w) (hsum : 0 < weights.sum) (h : Fair weights n state) :
    Fair weights (n + 1) (splitStep weights state) := by
  have hlen : (List.zipWith (· + ·) state.2 weights).length = weights.length := by
    simp [h.length_credits]
  have hgained : (List.zipWith (· + ·) state.2 weights).sum = weights.sum := by
    rw [← List.sum_add_sum_eq_sum_zipWith_of_length_eq _ _ h.length_credits, h.sum_credits,
      zero_add]
  have hne : List.zipWith (· + ·) state.2 weights ≠ [] := by
    intro hnil
    rw [hnil] at hgained
    exact absurd hgained.symm (by simpa using hsum.ne')
  have hchosen : chooseLargest (List.zipWith (· + ·) state.2 weights) < weights.length :=
    hlen ▸ (chooseLargest_spec hne).1
  have hlargest := chooseLargest_pos (hgained ▸ hsum)
  have hweight : ∀ i < weights.length, 0 < weights.getD i 0 := by
    intro i hi
    rw [List.getD_eq_getElem _ _ hi]
    exact hpos _ (List.getElem_mem hi)
  constructor
  · rw [length_splitStep_fst, h.length_counts]
  · simp [DataSource.splitStep, h.length_credits]
  · show (state.1.modify _ (· + 1)).sum = n + 1
    rw [sum_modify (fun _ => rfl) _ (by rw [h.length_counts]; exact hchosen), h.sum_counts]
  · show (List.modify _ _ _).sum = 0
    rw [sum_modify (fun _ => sub_eq_add_neg _ _) _ (hlen ▸ hchosen), hgained, add_neg_cancel]
  · intro i hi
    show (List.modify _ _ _).getD i 0 =
      ((n + 1 : Nat) : Int) * weights.getD i 0 - weights.sum * ((state.1.modify _ _).getD i 0 : Nat)
    rw [getD_modify _ _ _ _ _ (hlen ▸ hi), getD_modify _ _ _ _ _ (h.length_counts ▸ hi),
      getD_zipWith_add h.length_credits hi, h.balance i hi]
    -- the chosen dataset pays the total weight and gets one more prompt
    split
    · push_cast
      ring
    · push_cast
      ring
  · intro i hi
    show -weights.sum < (List.modify _ _ _).getD i 0
    rw [getD_modify _ _ _ _ _ (hlen ▸ hi)]
    split
    · rename_i heq
      subst heq
      omega
    · rw [getD_zipWith_add h.length_credits hi]
      have hold := h.bounded i hi
      have hgain := hweight i hi
      omega

/-- Every number of steps is fair. -/
theorem fair_iterate {weights : List Int} (hpos : ∀ w ∈ weights, 0 < w) (hsum : 0 < weights.sum)
    (n : Nat) :
    Fair weights n ((splitStep weights)^[n]
      (List.replicate weights.length 0, List.replicate weights.length 0)) := by
  induction n with
  | zero => exact fair_start weights hsum
  | succ n ih =>
    rw [Function.iterate_succ_apply']
    exact ih.splitStep hpos hsum

/-! ## Requests -/

/-- Draws on top of `counts` are the draws themselves and `counts`. -/
theorem splitStep_add (weights : List Int) (before counts : List Nat) (credits : List Int) :
    splitStep weights (List.zipWith (· + ·) before counts, credits) =
      (List.zipWith (· + ·) before (splitStep weights (counts, credits)).1,
        (splitStep weights (counts, credits)).2) := by
  refine Prod.ext ?_ rfl
  show List.modify _ _ _ = List.zipWith (· + ·) before (List.modify _ _ _)
  apply List.ext_getElem
  · simp
  · intro i hleft hright
    simp only [List.getElem_modify, List.getElem_zipWith]
    split <;> omega

/-- A request continues where the one before it stopped. -/
theorem iterate_splitStep_add (weights : List Int) (before counts : List Nat)
    (credits : List Int) (n : Nat) :
    (splitStep weights)^[n] (List.zipWith (· + ·) before counts, credits) =
      (List.zipWith (· + ·) before ((splitStep weights)^[n] (counts, credits)).1,
        ((splitStep weights)^[n] (counts, credits)).2) := by
  induction n generalizing counts credits with
  | zero => rfl
  | succ n ih =>
    rw [Function.iterate_succ_apply, splitStep_add weights before counts credits,
      ih, Function.iterate_succ_apply]

/-- A split of `n` draws from given credits. -/
def splitFrom (weights : List Int) (n : Nat) (credits : List Int) : List Nat × List Int :=
  (splitStep weights)^[n] (List.replicate weights.length 0, credits)

/-- The split takes as many steps as samples are asked for. -/
theorem splitByWeight_eq {weights credits : List Int} (h : credits.length = weights.length)
    (n : Nat) : splitByWeight n weights credits = .ok (splitFrom weights n credits) := by
  rw [splitByWeight, if_neg (fun hbad => hbad.2 h), splitFrom]

theorem length_iterate_fst (weights : List Int) (n : Nat) (state : List Nat × List Int) :
    ((splitStep weights)^[n] state).1.length = state.1.length := by
  induction n with
  | zero => rfl
  | succ n ih => rw [Function.iterate_succ_apply', length_splitStep_fst, ih]

@[simp] theorem length_splitFrom_fst (weights : List Int) (n : Nat) (credits : List Int) :
    (splitFrom weights n credits).1.length = weights.length := by
  rw [splitFrom, length_iterate_fst, List.length_replicate]

theorem length_splitFrom_snd {weights credits : List Int} (h : credits.length = weights.length)
    (n : Nat) : (splitFrom weights n credits).2.length = weights.length := by
  induction n with
  | zero => exact h
  | succ n ih =>
    rw [splitFrom, Function.iterate_succ_apply']
    show (List.modify _ _ _).length = _
    rw [List.length_modify, List.length_zipWith]
    exact Nat.min_eq_right ih.ge

/-- `m` draws and then `n` more are `m + n` draws. -/
theorem splitFrom_add (weights : List Int) (m n : Nat) (credits : List Int) :
    splitFrom weights (m + n) credits =
      (List.zipWith (· + ·) (splitFrom weights m credits).1
          (splitFrom weights n (splitFrom weights m credits).2).1,
        (splitFrom weights n (splitFrom weights m credits).2).2) := by
  have hzero : List.zipWith (· + ·) (splitFrom weights m credits).1
      (List.replicate weights.length 0) = (splitFrom weights m credits).1 := by
    apply List.ext_getElem
    · simp
    · intro i hleft hright
      simp
  have hmore := iterate_splitStep_add weights (splitFrom weights m credits).1
    (List.replicate weights.length 0) (splitFrom weights m credits).2 n
  rw [hzero] at hmore
  rw [splitFrom, Nat.add_comm, Function.iterate_add_apply]
  exact hmore

/-- `split_by_weight` for one request after another, each from the credits the one before
    left. -/
def splitRequests (weights : List Int) :
    List Nat → List Int → Except DataSourceError (List (List Nat) × List Int)
  | [], credits => .ok ([], credits)
  | numSamples :: rest, credits => do
    let (counts, credits) ← splitByWeight numSamples weights credits
    let (parts, credits) ← splitRequests weights rest credits
    return (counts :: parts, credits)

/-- Requests of any sizes split as one request of their sum. -/
theorem splitRequests_eq (weights : List Int) (requests : List Nat) {credits : List Int}
    (h : credits.length = weights.length) :
    ∃ parts, splitRequests weights requests credits =
        .ok (parts, (splitFrom weights requests.sum credits).2) ∧
      ∀ i < weights.length, (parts.map (·.getD i 0)).sum =
        (splitFrom weights requests.sum credits).1.getD i 0 := by
  induction requests generalizing credits with
  | nil =>
    refine ⟨[], rfl, fun i hi => ?_⟩
    simp [splitFrom, List.getD_eq_getElem?_getD, hi]
  | cons n requests ih =>
    obtain ⟨parts, hparts, hsum⟩ := ih (length_splitFrom_snd h n)
    refine ⟨(splitFrom weights n credits).1 :: parts, ?_, fun i hi => ?_⟩
    · rw [splitRequests, splitByWeight_eq h, List.sum_cons, splitFrom_add]
      simp only [Except.ok_bind, hparts]
      rfl
    · rw [List.map_cons, List.sum_cons, hsum i hi, List.sum_cons, splitFrom_add,
        getD_zipWith_add (by simp) (by simpa using hi)]

/-! ## Fairness -/

section Fairness

variable {weights : List Int}

theorem sum_weights_pos (hne : weights ≠ []) (hpos : ∀ w ∈ weights, 0 < w) : 0 < weights.sum :=
  List.sum_pos weights hpos hne

/-- A count stays below the share of its dataset by less than one prompt. -/
theorem Fair.count_lt {n : Nat} {state : List Nat × List Int} (hsum : 0 < weights.sum)
    (h : Fair weights n state) {i : Nat} (hi : i < weights.length) :
    (state.1.getD i 0 : ℚ) < n * (weights.getD i 0 : ℚ) / (weights.sum : ℚ) + 1 := by
  have hW : (0 : ℚ) < (weights.sum : ℚ) := by exact_mod_cast hsum
  have hcredit := h.bounded i hi
  rw [h.balance i hi] at hcredit
  have hbound : (state.1.getD i 0 : Int) * weights.sum < n * weights.getD i 0 + weights.sum := by
    linarith [mul_comm (state.1.getD i 0 : Int) weights.sum]
  have hboundQ : (state.1.getD i 0 : ℚ) * (weights.sum : ℚ) <
      n * (weights.getD i 0 : ℚ) + (weights.sum : ℚ) := by exact_mod_cast hbound
  rw [← lt_div_iff₀ hW, add_div, div_self hW.ne'] at hboundQ
  exact hboundQ

/-- After as many draws as the weights sum to, no credit is left: each is a multiple of the sum
    above its negative, and they sum to zero. -/
theorem Fair.credits_cycle {state : List Nat × List Int} (hsum : 0 < weights.sum)
    (h : Fair weights weights.sum.toNat state) :
    ∀ i < weights.length, state.2.getD i 0 = 0 ∧
      (state.1.getD i 0 : Int) = weights.getD i 0 := by
  have hnat : ((weights.sum.toNat : Nat) : Int) = weights.sum := Int.toNat_of_nonneg hsum.le
  have hbalance : ∀ i < weights.length,
      state.2.getD i 0 = weights.sum * (weights.getD i 0 - state.1.getD i 0) := by
    intro i hi
    rw [h.balance i hi, hnat, mul_sub]
  have hnonneg : ∀ i < weights.length, 0 ≤ state.2.getD i 0 := by
    intro i hi
    have hcredit := h.bounded i hi
    rw [hbalance i hi] at hcredit ⊢
    by_contra hneg
    have hle : weights.getD i 0 - (state.1.getD i 0 : Int) ≤ -1 := by
      by_contra hge
      exact hneg (mul_nonneg hsum.le (by omega))
    have hdrop := mul_le_mul_of_nonneg_left hle hsum.le
    omega
  have hall : ∀ x ∈ state.2, 0 ≤ x := by
    intro x hx
    obtain ⟨i, hi, rfl⟩ := List.mem_iff_getElem.mp hx
    rw [← List.getD_eq_getElem _ 0 hi]
    exact hnonneg i (h.length_credits ▸ hi)
  intro i hi
  have hi' : i < state.2.length := h.length_credits ▸ hi
  have hle := List.single_le_sum hall _ (List.getElem_mem hi')
  rw [h.sum_credits, ← List.getD_eq_getElem _ 0 hi'] at hle
  have hzero : state.2.getD i 0 = 0 := le_antisymm hle (hnonneg i hi)
  refine ⟨hzero, ?_⟩
  rw [hbalance i hi] at hzero
  have hdue := (mul_eq_zero.mp hzero).resolve_left hsum.ne'
  omega

/-- After a whole cycle no credit is left. -/
theorem Fair.credits_eq_zero {state : List Nat × List Int} (hsum : 0 < weights.sum)
    (h : Fair weights weights.sum.toNat state) :
    state.2 = List.replicate weights.length 0 := by
  apply List.ext_getElem
  · rw [h.length_credits, List.length_replicate]
  · intro i hi hi'
    rw [← List.getD_eq_getElem _ 0 hi, List.getElem_replicate]
    exact (h.credits_cycle hsum i (h.length_credits ▸ hi)).1

/-- A split from no credits is fair. -/
theorem fair_splitFrom (hpos : ∀ w ∈ weights, 0 < w) (hsum : 0 < weights.sum) (n : Nat) :
    Fair weights n (splitFrom weights n (List.replicate weights.length 0)) :=
  fair_iterate hpos hsum n

/-- As many draws as the weights sum to give every dataset its weight, wherever they start. -/
theorem splitFrom_cycle (hpos : ∀ w ∈ weights, 0 < w) (hsum : 0 < weights.sum) (n : Nat) :
    let credits := (splitFrom weights n (List.replicate weights.length 0)).2
    (splitFrom weights weights.sum.toNat credits).2 = credits ∧
      ∀ i < weights.length,
        ((splitFrom weights weights.sum.toNat credits).1.getD i 0 : Int) = weights.getD i 0 := by
  intro credits
  have hcycle := fair_splitFrom hpos hsum weights.sum.toNat
  -- the cycle comes first: it leaves the credits where they were at the start
  have hfirst := splitFrom_add weights weights.sum.toNat n (List.replicate weights.length 0)
  have hlast := splitFrom_add weights n weights.sum.toNat (List.replicate weights.length 0)
  rw [hcycle.credits_eq_zero hsum] at hfirst
  rw [Nat.add_comm n, hfirst, Prod.mk.injEq] at hlast
  obtain ⟨hcounts, hcredits⟩ := hlast
  refine ⟨hcredits.symm, fun i hi => ?_⟩
  have hi' := congrArg (List.getD · i 0) hcounts
  rw [getD_zipWith_add (by simp) (by simpa using hi),
    getD_zipWith_add (by simp) (by simpa using hi)] at hi'
  have hsame := Nat.add_left_cancel ((Nat.add_comm _ _).trans hi')
  rw [← (hcycle.credits_cycle hsum i hi).2, hsame]

/-- Requests of any sizes, from zero credits: they split as one request of their sum, the
    credits sum to zero, no dataset is a whole prompt above its share, and as many further draws
    as the weights sum to give every dataset its weight. -/
theorem splitByWeight_fair (hne : weights ≠ []) (hpos : ∀ w ∈ weights, 0 < w)
    (requests : List Nat) :
    ∃ parts total credits cycle,
      splitRequests weights requests (List.replicate weights.length 0) = .ok (parts, credits) ∧
      splitByWeight requests.sum weights (List.replicate weights.length 0) =
        .ok (total, credits) ∧
      (∀ i < weights.length, (parts.map (·.getD i 0)).sum = total.getD i 0) ∧
      credits.sum = 0 ∧
      (∀ i < weights.length, (total.getD i 0 : ℚ) <
        (requests.sum : ℚ) * (weights.getD i 0 : ℚ) / (weights.sum : ℚ) + 1) ∧
      splitByWeight weights.sum.toNat weights credits = .ok (cycle, credits) ∧
      ∀ i < weights.length, (cycle.getD i 0 : Int) = weights.getD i 0 := by
  have hsum := sum_weights_pos hne hpos
  have hlen : (List.replicate weights.length (0 : Int)).length = weights.length := by simp
  have hfair := fair_splitFrom hpos hsum requests.sum
  obtain ⟨parts, hparts, hcounts⟩ := splitRequests_eq weights requests hlen
  obtain ⟨hback, hcycle⟩ := splitFrom_cycle hpos hsum requests.sum
  refine ⟨parts, _, _, _, hparts, splitByWeight_eq hlen _, hcounts, hfair.sum_credits,
    fun i hi => hfair.count_lt hsum hi, ?_, hcycle⟩
  rw [splitByWeight_eq (length_splitFrom_snd hlen _)]
  exact congrArg Except.ok (Prod.ext rfl hback)

theorem splitByWeight_fair_twoSources :
    ∃ parts total credits cycle,
      splitRequests [3, 1] [1, 2, 2] [0, 0] = .ok (parts, credits) ∧
      splitByWeight 5 [3, 1] [0, 0] = .ok (total, credits) ∧
      (∀ i < 2, (parts.map (·.getD i 0)).sum = total.getD i 0) ∧
      splitByWeight 4 [3, 1] credits = .ok (cycle, credits) := by
  obtain ⟨parts, total, credits, cycle, hparts, htotal, hsum, -, -, hcycle, -⟩ :=
    splitByWeight_fair (List.cons_ne_nil 3 [1]) (by decide) [1, 2, 2]
  exact ⟨parts, total, credits, cycle, hparts, htotal, hsum, hcycle⟩

end Fairness

/-! ## The mixed source -/

/-- The credits of a mixed source after any requests are those of the splits. -/
theorem MixedRolloutDataSource.credits_requests {Row Agent : Type} {rng : Shuffler}
    {args : MixedArgs Agent} {s : MixedRolloutDataSource Row} {requests : List Nat}
    {parts : List (List Nat)} {credits : List Int}
    (h : splitRequests (args.datasetConfigs.map fun config => (config.samplesPerStep : Int))
      requests s.credits = .ok (parts, credits)) :
    (requests.foldl (fun s numSamples => (getSamples rng args s numSamples).2) s).credits =
      credits := by
  induction requests generalizing s parts with
  | nil =>
    cases h
    rfl
  | cons n requests ih =>
    rw [splitRequests] at h
    obtain ⟨⟨counts, next⟩, hsplit, hrest⟩ := Except.bind_eq_ok.mp h
    obtain ⟨⟨parts', credits'⟩, hrest, hpure⟩ := Except.bind_eq_ok.mp hrest
    cases hpure
    rw [List.foldl_cons]
    have hnext : (getSamples rng args s n).2.credits = next := by
      rw [getSamples]
      simp only [hsplit]
    rw [← hnext] at hrest
    exact ih hrest

end Miles.Rollout.DataSource
