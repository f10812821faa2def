import Miles.Native.Training.RankAssignment

/-!
# Every rollout engine rank has one sender

The greedy pass over the targets: what has been given so far is each of the targets passed, once,
and the senders of one rank stay balanced.
-/

namespace Miles.RankAssignment

/-! ## The shares of the data replicas -/

/-- The rollout engines to which a data replica sends a rank. -/
def shares (replicas : List Indices) (replica rank : Nat) : List Nat :=
  (replicas[replica]?.getD .empty).getD rank []

section
variable {replicas : List Indices} {replica : Nat} {target : Nat × Nat}

@[simp] theorem length_give : (give replicas replica target).length = replicas.length :=
  List.length_modify ..

/-- Giving a target appends its engine to one share. -/
theorem shares_give (hreplica : replica < replicas.length) (replica' rank : Nat) :
    shares (give replicas replica target) replica' rank =
      if replica' = replica ∧ rank = target.2 then shares replicas replica' rank ++ [target.1]
      else shares replicas replica' rank := by
  unfold shares give
  rw [List.getElem?_modify]
  by_cases hsame : replica = replica'
  · subst hsame
    rw [List.getElem?_eq_getElem hreplica]
    by_cases hrank : rank = target.2
    · simp [PyDict.getD, hrank]
    · simp [PyDict.getD, hrank]
  · have hne : ¬ (replica' = replica ∧ rank = target.2) := fun h => hsame h.1.symm
    rw [if_neg hne]
    cases replicas[replica']? <;> simp [hsame]

end

/-! ## The second round -/

section
variable {replicas : List Indices} {rank : Nat}

theorem mem_counts {replicas : List Indices} {rank : Nat} {x : Nat × Nat} :
    x ∈ (replicas.map fun indices => (indices.getD rank []).length).zipIdx ↔
      x.2 < replicas.length ∧ x.1 = (shares replicas x.2 rank).length := by
  rw [List.mem_zipIdx_iff_getElem?, List.getElem?_map]
  unfold shares
  cases h : replicas[x.2]? with
  | none => simp [List.getElem?_eq_none_iff.mp h]
  | some indices => simp [(List.getElem?_eq_some_iff.mp h).1, eq_comm]

/-- The least sender has a share, and no other share of the rank is smaller. -/
theorem leastSender_eq_some {sender : Nat × Nat} (h : leastSender replicas rank = some sender) :
    sender.2 < replicas.length ∧ shares replicas sender.2 rank ≠ [] ∧
      ∀ replica < replicas.length, shares replicas replica rank ≠ [] →
        (shares replicas sender.2 rank).length ≤ (shares replicas replica rank).length := by
  have hmem := List.argmin_mem h
  rw [List.mem_filter, mem_counts] at hmem
  obtain ⟨⟨hlt, hlength⟩, hpositive⟩ := hmem
  have hpositive : 0 < sender.1 := by simpa using hpositive
  refine ⟨hlt, ?_, ?_⟩
  · intro hnil
    rw [hnil] at hlength
    rw [hlength] at hpositive
    exact Nat.lt_irrefl 0 hpositive
  · intro replica hreplica hshare
    have hother : ((shares replicas replica rank).length, replica) ∈
        (replicas.map fun indices => (indices.getD rank []).length).zipIdx.filter
          fun x => 0 < x.1 := by
      rw [List.mem_filter, mem_counts]
      exact ⟨⟨hreplica, rfl⟩, by simpa [List.length_pos_iff] using hshare⟩
    rw [← hlength]
    exact List.le_of_mem_argmin hother h

/-- There is no least sender when nobody sends the rank. -/
theorem leastSender_eq_none (h : leastSender replicas rank = none) (replica : Nat) :
    shares replicas replica rank = [] := by
  by_contra hshare
  by_cases hreplica : replica < replicas.length
  · have hmem : ((shares replicas replica rank).length, replica) ∈
        (replicas.map fun indices => (indices.getD rank []).length).zipIdx.filter
          fun x => 0 < x.1 := by
      rw [List.mem_filter, mem_counts]
      exact ⟨⟨hreplica, rfl⟩, by simpa [List.length_pos_iff] using hshare⟩
    rw [leastSender, List.argmin_eq_none] at h
    rw [h] at hmem
    cases hmem
  · apply hshare
    rw [shares, List.getElem?_eq_none (Nat.le_of_not_lt hreplica)]
    rfl

/-- One target of the second round goes to one data replica: to the least of those that send its
    rank already, or to any when nobody does. -/
theorem giveNext_eq (hsize : replicas ≠ []) (next : Nat) (target : Nat × Nat) :
    ∃ replica < replicas.length, (giveNext (replicas, next) target).1 = give replicas replica target ∧
      ((shares replicas replica target.2 ≠ [] ∧
        ∀ other < replicas.length, shares replicas other target.2 ≠ [] →
          (shares replicas replica target.2).length ≤ (shares replicas other target.2).length) ∨
      ∀ other, shares replicas other target.2 = []) := by
  unfold giveNext
  cases h : leastSender replicas target.2 with
  | some sender =>
    obtain ⟨hlt, hshare, hleast⟩ := leastSender_eq_some h
    exact ⟨sender.2, hlt, rfl, .inl ⟨hshare, hleast⟩⟩
  | none =>
    exact ⟨next % replicas.length, Nat.mod_lt _ (List.length_pos_iff.mpr hsize), rfl,
      .inr (leastSender_eq_none h)⟩

end

/-! ## The first round -/

/-- What a data replica sends after it got its target of the first round, if there is one. -/
def withFirst (indices : Indices) (target : Option (Nat × Nat)) : Indices :=
  target.elim indices fun t => indices.set t.2 (indices.getD t.2 [] ++ [t.1])

@[simp] theorem withFirst_none (indices : Indices) : withFirst indices none = indices := rfl

@[simp] theorem withFirst_some (indices : Indices) (target : Nat × Nat) :
    withFirst indices (some target) =
      indices.set target.2 (indices.getD target.2 [] ++ [target.1]) := rfl

/-- The first round from data replica `start` on. -/
theorem getElem?_foldl_give (size start : Nat) (targets : List (Nat × Nat))
    (replicas : List Indices) (replica : Nat) :
    (((List.range' start size).zip targets).foldl (fun replicas x => give replicas x.1 x.2)
        replicas)[replica]? =
      replicas[replica]?.map fun indices => withFirst indices
        (if start ≤ replica ∧ replica < start + size then targets[replica - start]? else none) := by
  induction size generalizing start targets replicas with
  | zero =>
    have hnone : ¬ (start ≤ replica ∧ replica < start + 0) := by omega
    rw [if_neg hnone]
    simp
  | succ size ih =>
    cases targets with
    | nil => simp
    | cons target targets =>
      rw [List.range'_succ, List.zip_cons_cons, List.foldl_cons, ih (start + 1)]
      show Option.map _ (give replicas start target)[replica]? = _
      rw [give, List.getElem?_modify]
      by_cases hsame : start = replica
      · -- its own target; the later ones go to later replicas
        subst hsame
        have hnone : ¬ (start + 1 ≤ start ∧ start < start + 1 + size) := by omega
        have hmine : start ≤ start ∧ start < start + (size + 1) := by omega
        rw [if_neg hnone, if_pos hmine]
        cases replicas[start]? <;> simp
      · by_cases hlater : start + 1 ≤ replica ∧ replica < start + 1 + size
        · have hsome : start ≤ replica ∧ replica < start + (size + 1) := by omega
          have hindex : replica - start = replica - (start + 1) + 1 := by omega
          rw [if_pos hlater, if_pos hsome, hindex]
          simp [hsame]
        · have hnone : ¬ (start ≤ replica ∧ replica < start + (size + 1)) := by omega
          rw [if_neg hlater, if_neg hnone]
          simp [hsame]

/-- The length of a run of gives. -/
theorem length_foldl_give (gives : List (Nat × (Nat × Nat))) (replicas : List Indices) :
    (gives.foldl (fun replicas x => give replicas x.1 x.2) replicas).length = replicas.length := by
  induction gives generalizing replicas with
  | nil => rfl
  | cons x gives ih =>
    rw [List.foldl_cons, ih]
    exact length_give

@[simp] theorem length_firstRound (size : Nat) (targets : List (Nat × Nat)) :
    (firstRound size targets).length = size := by
  unfold firstRound
  rw [length_foldl_give, List.length_replicate]

/-- After the first round a data replica sends its target, and nothing else. -/
theorem getElem?_firstRound {size replica : Nat} (h : replica < size)
    (targets : List (Nat × Nat)) :
    (firstRound size targets)[replica]? = some (withFirst .empty targets[replica]?) := by
  unfold firstRound
  rw [List.range_eq_range', getElem?_foldl_give]
  simp [h]

theorem shares_firstRound {size replica : Nat} (h : replica < size)
    (targets : List (Nat × Nat)) (rank : Nat) :
    shares (firstRound size targets) replica rank =
      (targets[replica]?.toList.filter fun target => target.2 = rank).map Prod.fst := by
  rw [shares, getElem?_firstRound h]
  have hempty (rank : Nat) : (PyDict.empty : Indices).getD rank [] = [] := rfl
  cases targets[replica]? with
  | none => rfl
  | some target =>
    show ((PyDict.empty : Indices).set target.2 _).getD rank [] = _
    rw [PyDict.getD, PyDict.get?_set, hempty]
    by_cases hrank : target.2 = rank
    · simp [hrank]
    · have hne : ¬ rank = target.2 := fun h => hrank h.symm
      rw [if_neg hne]
      simp [hrank]
      rfl

/-! ## What the pass keeps -/

open Finset

/-- How often a target has been given. -/
def given (size : Nat) (replicas : List Indices) (target : Nat × Nat) : Nat :=
  ∑ replica ∈ range size, (shares replicas replica target.2).count target.1

theorem given_give {size : Nat} {replicas : List Indices} {replica : Nat}
    (hlength : replicas.length = size) (hreplica : replica < size) (target target' : Nat × Nat) :
    given size (give replicas replica target) target' =
      given size replicas target' + [target].count target' := by
  have hone : [target].count target' = ∑ k ∈ range size,
      if k = replica then [target].count target' else 0 := by
    rw [Finset.sum_ite_eq', if_pos (mem_range.mpr hreplica)]
  unfold given
  rw [hone, ← Finset.sum_add_distrib]
  apply Finset.sum_congr rfl
  intro k _
  rw [shares_give (hlength ▸ hreplica)]
  by_cases hk : k = replica
  · subst hk
    obtain ⟨engine, rank⟩ := target
    obtain ⟨engine', rank'⟩ := target'
    by_cases hrank : rank' = rank
    · subst hrank
      simp [List.count_append, List.count_singleton]
    · have hne : ¬ rank = rank' := fun h => hrank h.symm
      simp [hrank, hne]
  · simp [hk]

/-- The first round gives the first targets. -/
theorem given_firstRound (size : Nat) (targets : List (Nat × Nat)) (target : Nat × Nat) :
    given size (firstRound size targets) target = (targets.take size).count target := by
  have hrun (gives : List (Nat × (Nat × Nat))) (hgives : ∀ x ∈ gives, x.1 < size)
      (replicas : List Indices) (hlength : replicas.length = size) :
      given size (gives.foldl (fun replicas x => give replicas x.1 x.2) replicas) target =
        given size replicas target + (gives.map Prod.snd).count target := by
    induction gives generalizing replicas with
    | nil => simp
    | cons x gives ih =>
      rw [List.forall_mem_cons] at hgives
      rw [List.foldl_cons, ih hgives.2 _ (by rw [length_give, hlength]),
        given_give hlength hgives.1, List.map_cons, List.count_cons, List.count_cons,
        List.count_nil]
      omega
  have hsnd : (((List.range size).zip targets).map Prod.snd) = targets.take size := by
    rw [List.zip_eq_zip_take_min, List.map_snd_zip (by simp), List.length_range]
    simp [List.take_eq_take_iff]
  unfold firstRound
  rw [hrun _ _ _ List.length_replicate, hsnd]
  · have hzero : given size (List.replicate size .empty) target = 0 := by
      apply Finset.sum_eq_zero
      intro k hk
      rw [shares, List.getElem?_replicate, if_pos (mem_range.mp hk)]
      rfl
    rw [hzero, Nat.zero_add]
  · intro x hx
    exact List.mem_range.mp (List.of_mem_zip hx).1

/-- The shares of a rank differ by at most one. -/
def Balanced (size : Nat) (replicas : List Indices) : Prop :=
  ∀ rank, ∀ a < size, ∀ b < size, shares replicas a rank ≠ [] → shares replicas b rank ≠ [] →
    (shares replicas a rank).length ≤ (shares replicas b rank).length + 1

/-- At most one data replica sends the rank. -/
def SoleSender (size rank : Nat) (replicas : List Indices) : Prop :=
  ∀ a < size, ∀ b < size, shares replicas a rank ≠ [] → shares replicas b rank ≠ [] → a = b

/-- The first round is balanced. -/
theorem Balanced.firstRound (size : Nat) (targets : List (Nat × Nat)) :
    Balanced size (firstRound size targets) := by
  intro rank a ha b _ _ hshare
  have hpositive := List.length_pos_iff.mpr hshare
  have hone : (shares (RankAssignment.firstRound size targets) a rank).length ≤ 1 := by
    rw [shares_firstRound ha, List.length_map]
    apply (List.length_filter_le _ _).trans
    cases targets[a]? <;> simp
  omega

section
variable {size : Nat} {replicas : List Indices} {next : Nat} {target : Nat × Nat}

theorem length_giveNext (hlength : replicas.length = size) (hsize : 0 < size) :
    (giveNext (replicas, next) target).1.length = size := by
  obtain ⟨replica, -, heq, -⟩ :=
    giveNext_eq (List.length_pos_iff.mp (hlength ▸ hsize)) next target
  rw [heq, length_give, hlength]

/-- The next target is given once. -/
theorem given_giveNext (hlength : replicas.length = size) (hsize : 0 < size)
    (target' : Nat × Nat) :
    given size (giveNext (replicas, next) target).1 target' =
      given size replicas target' + [target].count target' := by
  obtain ⟨replica, hreplica, heq, -⟩ :=
    giveNext_eq (List.length_pos_iff.mp (hlength ▸ hsize)) next target
  rw [heq, given_give hlength (hlength ▸ hreplica)]

/-- Nothing that was given is taken back. -/
theorem shares_giveNext_ne_nil (hlength : replicas.length = size) (hsize : 0 < size)
    {replica rank : Nat} (h : shares replicas replica rank ≠ []) :
    shares (giveNext (replicas, next) target).1 replica rank ≠ [] := by
  obtain ⟨replica', hreplica, heq, -⟩ :=
    giveNext_eq (List.length_pos_iff.mp (hlength ▸ hsize)) next target
  rw [heq, shares_give hreplica]
  split
  · simp
  · exact h

/-- The shares of the senders stay balanced. -/
theorem Balanced.giveNext (hlength : replicas.length = size) (hsize : 0 < size)
    (hbalanced : Balanced size replicas) :
    Balanced size (giveNext (replicas, next) target).1 := by
  obtain ⟨replica, hreplica, heq, hleast⟩ :=
    giveNext_eq (List.length_pos_iff.mp (hlength ▸ hsize)) next target
  rw [heq]
  intro rank a ha b hb
  rw [shares_give hreplica, shares_give hreplica]
  have hold := hbalanced rank a ha b hb
  by_cases hrank : rank = target.2
  · subst hrank
    by_cases hreceiver : a = replica
    · subst hreceiver
      by_cases hother : b = a
      · subst hother
        intro _ _
        omega
      · -- the receiver was the least of the senders, or the first one
        simp only [true_and, if_true, hother, false_and, if_false]
        intro _ hshare
        cases hleast with
        | inl hleast =>
          have hle := hleast.2 b (hlength ▸ hb) hshare
          simp only [List.length_append, List.length_singleton]
          omega
        | inr hnone => exact absurd (hnone b) hshare
    · simp only [hreceiver, false_and, if_false]
      intro hshare hshareB
      cases hleast with
      | inl hleast =>
        have hreceived := hbalanced target.2 a ha replica (hlength ▸ hreplica) hshare hleast.1
        by_cases hother : b = replica
        · subst hother
          simp only [true_and, if_true, List.length_append, List.length_singleton]
          omega
        · simp only [hother, false_and, if_false]
          simp only [hother, false_and, if_false] at hshareB
          exact hold hshare hshareB
      | inr hnone => exact absurd (hnone a) hshare
  · simp only [hrank, and_false, if_false]
    exact hold

/-- A rank with one sender keeps it. -/
theorem SoleSender.giveNext {rank : Nat} (hlength : replicas.length = size) (hsize : 0 < size)
    (hsole : SoleSender size rank replicas) :
    SoleSender size rank (giveNext (replicas, next) target).1 := by
  obtain ⟨replica, hreplica, heq, hleast⟩ :=
    giveNext_eq (List.length_pos_iff.mp (hlength ▸ hsize)) next target
  rw [heq]
  -- whoever sends the rank now is the receiver, or sent it before
  have hsender (a : Nat) (ha : a < size)
      (hshare : shares (give replicas replica target) a rank ≠ []) :
      rank = target.2 ∧ a = replica ∨ shares replicas a rank ≠ [] := by
    rw [shares_give hreplica] at hshare
    split at hshare
    · rename_i h
      exact .inl ⟨h.2, h.1⟩
    · exact .inr hshare
  -- somebody who sends the rank already is the receiver
  have hkeeps (a : Nat) (ha : a < size) (hrank : rank = target.2)
      (hshare : shares replicas a rank ≠ []) : a = replica := by
    subst hrank
    cases hleast with
    | inl hleast => exact hsole a ha replica (hlength ▸ hreplica) hshare hleast.1
    | inr hnone => exact absurd (hnone a) hshare
  intro a ha b hb hshareA hshareB
  cases hsender a ha hshareA with
  | inl hA =>
    cases hsender b hb hshareB with
    | inl hB => rw [hA.2, hB.2]
    | inr hB => rw [hA.2, hkeeps b hb hA.1 hB]
  | inr hA =>
    cases hsender b hb hshareB with
    | inl hB => rw [hB.2, hkeeps a ha hB.1 hA]
    | inr hB => exact hsole a ha b hb hA hB

end

/-- What one target of the second round preserves holds after the second round. -/
theorem foldl_giveNext {size : Nat} (hsize : 0 < size) {P : List Indices → Prop}
    (hstep : ∀ replicas next target, replicas.length = size → P replicas →
      P (giveNext (replicas, next) target).1)
    (targets : List (Nat × Nat)) (state : List Indices × Nat) (hlength : state.1.length = size)
    (h : P state.1) :
    (targets.foldl giveNext state).1.length = size ∧ P (targets.foldl giveNext state).1 := by
  induction targets generalizing state with
  | nil => exact ⟨hlength, h⟩
  | cons target targets ih =>
    exact ih _ (length_giveNext hlength hsize) (hstep _ _ _ hlength h)

theorem given_foldl_giveNext {size : Nat} (hsize : 0 < size) (targets : List (Nat × Nat))
    (state : List Indices × Nat) (hlength : state.1.length = size) (target : Nat × Nat) :
    given size (targets.foldl giveNext state).1 target =
      given size state.1 target + targets.count target := by
  induction targets generalizing state with
  | nil => simp
  | cons next targets ih =>
    rw [List.foldl_cons, ih _ (length_giveNext hlength hsize), given_giveNext hlength hsize,
      List.count_cons, List.count_cons, List.count_nil]
    omega

/-! ## The targets -/

/-- A target is a rank of an engine. -/
theorem mem_targets {engineGpuCounts : List Int} {target : Nat × Nat} :
    target ∈ targets engineGpuCounts ↔
      ∃ gpuCount, engineGpuCounts[target.1]? = some gpuCount ∧ (target.2 : Int) < gpuCount := by
  unfold targets
  rw [List.mem_flatMap]
  constructor
  · intro h
    obtain ⟨engine, hengine, htarget⟩ := h
    obtain ⟨rank, hrank, rfl⟩ := List.mem_map.mp htarget
    have hlt := List.mem_range.mp hrank
    exact ⟨engine.1, List.mem_zipIdx_iff_getElem?.mp hengine, by omega⟩
  · intro h
    obtain ⟨gpuCount, hget, hlt⟩ := h
    refine ⟨(gpuCount, target.1), List.mem_zipIdx_iff_getElem?.mpr hget, ?_⟩
    exact List.mem_map.mpr ⟨target.2, List.mem_range.mpr (by omega), rfl⟩

theorem nodup_targets (engineGpuCounts : List Int) : (targets engineGpuCounts).Nodup := by
  unfold targets
  rw [List.nodup_flatMap]
  constructor
  · intro engine _
    apply List.Nodup.map _ List.nodup_range
    intro a b hab
    exact congrArg Prod.snd hab
  · -- the targets of different engines differ in the engine
    have hpairwise : engineGpuCounts.zipIdx.Pairwise fun a b => a.2 ≠ b.2 := by
      rw [← List.pairwise_map, List.zipIdx_map_snd]
      exact List.nodup_range'
    apply hpairwise.imp
    intro a b hne x hxa hxb
    obtain ⟨_, _, rfl⟩ := List.mem_map.mp hxa
    obtain ⟨_, _, heq⟩ := List.mem_map.mp hxb
    exact hne (congrArg Prod.fst heq).symm

/-- There is one target for each GPU. -/
theorem length_targets {engineGpuCounts : List Int} (h : ∀ gpuCount ∈ engineGpuCounts, 0 < gpuCount) :
    ((targets engineGpuCounts).length : Int) = engineGpuCounts.sum := by
  have hlength (start : Nat) : (((engineGpuCounts.zipIdx start).flatMap fun engine =>
      (List.range engine.1.toNat).map fun rank => (engine.2, rank)).length : Int) =
        engineGpuCounts.sum := by
    induction engineGpuCounts generalizing start with
    | nil => rfl
    | cons gpuCount gpuCounts ih =>
      rw [List.forall_mem_cons] at h
      have hcount := h.1
      rw [List.zipIdx_cons, List.flatMap_cons, List.length_append, List.sum_cons, ← ih h.2 (start + 1),
        List.length_map, List.length_range]
      omega
  exact hlength 0

/-! ## The assignment -/

/-- Every (rollout engine, rollout engine rank) that a data replica sends. -/
def sent (assigned : List RolloutEngineRankAssignment) : List (Nat × Nat) :=
  assigned.flatMap fun assignment =>
    assignment.rolloutEngineIndices.map fun engine => (engine, assignment.rolloutEngineRank)

/-- The rollout engines of one rank that a data replica sends. -/
def sentOfRank (assigned : List RolloutEngineRankAssignment) (rank : Nat) : List (Nat × Nat) :=
  (sent assigned).filter fun target => target.2 = rank

theorem sentOfRank_assignments (indices : Indices) (rank : Nat) :
    sentOfRank (assignments indices) rank =
      (indices.getD rank []).map fun engine => (engine, rank) := by
  have hfilter (items : List (Nat × List Nat)) :
      ((items.map fun item => RolloutEngineRankAssignment.mk item.1 item.2).flatMap fun assignment =>
        assignment.rolloutEngineIndices.map fun engine =>
          (engine, assignment.rolloutEngineRank)).filter (fun target => target.2 = rank) =
      (items.filter fun item => item.1 = rank).flatMap fun item =>
        item.2.map fun engine => (engine, item.1) := by
    induction items with
    | nil => rfl
    | cons item items ih =>
      rw [List.map_cons, List.flatMap_cons, List.filter_append, ih]
      by_cases hrank : item.1 = rank
      · simp [hrank, List.filter_map, Function.comp_def]
      · simp [hrank, List.filter_map, Function.comp_def]
  unfold sentOfRank sent assignments
  rw [hfilter, PyDict.filter_items, PyDict.getD]
  cases indices.get? rank <;> simp

theorem count_sent (indices : Indices) (engine rank : Nat) :
    (sent (assignments indices)).count (engine, rank) = (indices.getD rank []).count engine := by
  have hfilter : (sent (assignments indices)).count (engine, rank) =
      (sentOfRank (assignments indices) rank).count (engine, rank) := by
    rw [sentOfRank, List.count_filter (by simp)]
  rw [hfilter, sentOfRank_assignments]
  apply List.count_map_of_injective _ fun engine => (engine, rank)
  intro a b hab
  exact congrArg Prod.fst hab

/-- What every data replica sends, after the second round. -/
def finalReplicas (size : Nat) (engineGpuCounts : List Int) : List Indices :=
  (((targets engineGpuCounts).drop size).foldl giveNext
    (firstRound size (targets engineGpuCounts), 0)).1

section
variable {size : Nat} {engineGpuCounts : List Int}

theorem length_finalReplicas (hsize : 0 < size) :
    (finalReplicas size engineGpuCounts).length = size :=
  (foldl_giveNext hsize (P := fun _ => True) (fun _ _ _ _ _ => trivial) _ _
    (length_firstRound _ _) trivial).1

/-- Every target is given as often as it is in the list of targets. -/
theorem given_finalReplicas (hsize : 0 < size) (target : Nat × Nat) :
    given size (finalReplicas size engineGpuCounts) target =
      (targets engineGpuCounts).count target := by
  unfold finalReplicas
  rw [given_foldl_giveNext hsize _ _ (length_firstRound _ _), given_firstRound,
    ← List.count_append, List.take_append_drop]

/-- The assignment is balanced. -/
theorem balanced_finalReplicas (hsize : 0 < size) :
    Balanced size (finalReplicas size engineGpuCounts) :=
  (foldl_giveNext hsize (fun _ _ _ hlength h => h.giveNext hlength hsize) _ _
    (length_firstRound _ _) (Balanced.firstRound _ _)).2

/-- A target of the first round stays with its data replica. -/
theorem shares_finalReplicas_ne_nil (hsize : 0 < size) {replica : Nat} (hreplica : replica < size)
    {target : Nat × Nat} (htarget : (targets engineGpuCounts)[replica]? = some target) :
    shares (finalReplicas size engineGpuCounts) replica target.2 ≠ [] := by
  have hfirst : shares (firstRound size (targets engineGpuCounts)) replica target.2 ≠ [] := by
    rw [shares_firstRound hreplica, htarget]
    simp
  exact (foldl_giveNext hsize (P := fun replicas => shares replicas replica target.2 ≠ [])
    (fun _ _ _ hlength h => shares_giveNext_ne_nil hlength hsize h) _ _
    (length_firstRound _ _) hfirst).2

/-- A rank that nobody got in the first round has one sender at most. -/
theorem soleSender_finalReplicas (hsize : 0 < size) {rank : Nat}
    (hfirst : ∀ indices ∈ firstRound size (targets engineGpuCounts), indices.get? rank = none) :
    SoleSender size rank (finalReplicas size engineGpuCounts) := by
  have hsole : SoleSender size rank (firstRound size (targets engineGpuCounts)) := by
    intro a ha b hb hshare
    have hlt : a < (firstRound size (targets engineGpuCounts)).length := by simpa using ha
    have hnone := hfirst _ (List.getElem_mem hlt)
    apply absurd _ hshare
    rw [shares, List.getElem?_eq_getElem hlt, Option.getD_some, PyDict.getD, hnone]
    rfl
  exact (foldl_giveNext hsize (fun _ _ _ hlength h => h.giveNext hlength hsize) _ _
    (length_firstRound _ _) hsole).2

/-- The call of each data replica returns what that data replica sends. -/
theorem assignRolloutEngineRanksForDataReplica_eq (hsize : 0 < size)
    (hcounts : ∀ gpuCount ∈ engineGpuCounts, 0 < gpuCount) {replica : Nat} (hreplica : replica < size) :
    assignRolloutEngineRanksForDataReplica replica size engineGpuCounts =
      .ok (assignments (((finalReplicas size engineGpuCounts)[replica]?).getD .empty)) := by
  have hchecked : (engineGpuCounts.zipIdx.forM fun engine =>
      Except.ensure (0 < engine.1) (AssignError.noGpus engine.2 engine.1)) = .ok () := by
    rw [Except.forM_eq_ok]
    intro engine hengine
    rw [Except.ensure_eq_ok]
    exact hcounts _ (List.fst_mem_of_mem_zipIdx hengine)
  have hreplicas : Except.ensure ((targets engineGpuCounts).drop size = [] ∨ size ≠ 0)
      AssignError.noReplicas = .ok () := by
    rw [Except.ensure_eq_ok]
    exact .inr (Nat.ne_of_gt hsize)
  have hlt : replica < (finalReplicas size engineGpuCounts).length := by
    rw [length_finalReplicas hsize]
    exact hreplica
  rw [List.getElem?_eq_getElem hlt]
  unfold assignRolloutEngineRanksForDataReplica
  rw [hchecked, Except.ok_bind]
  show (Except.ensure ((targets engineGpuCounts).drop size = [] ∨ size ≠ 0)
    AssignError.noReplicas >>= fun _ =>
      assignmentsAt (finalReplicas size engineGpuCounts) replica) = _
  rw [hreplicas, Except.ok_bind, assignmentsAt, List.getElem?_eq_getElem hlt]
  rfl

end

/-- Every rollout engine rank of every rollout engine has one sender, once. The data replicas all
    send something when there are enough targets, and one target each otherwise; the targets of one
    rollout engine rank are spread evenly over those that send it, and over one data replica when
    nobody got the rank in the first round. -/
theorem assignRolloutEngineRanks_exact {size : Nat} {engineGpuCounts : List Int} (hsize : 0 < size)
    (hcounts : ∀ gpuCount ∈ engineGpuCounts, 0 < gpuCount) :
    ∃ assigned : Nat → List RolloutEngineRankAssignment,
      (∀ replica < size, assignRolloutEngineRanksForDataReplica replica size engineGpuCounts =
        .ok (assigned replica)) ∧
      (∀ (engine rank : Nat) (gpuCount : Int), engineGpuCounts[engine]? = some gpuCount →
        rank < gpuCount → ∃ replica < size, (sent (assigned replica)).count (engine, rank) = 1 ∧
          ∀ other < size, other ≠ replica → (engine, rank) ∉ sent (assigned other)) ∧
      (∀ replica < size, ∀ target ∈ sent (assigned replica),
        ∃ gpuCount : Int, engineGpuCounts[target.1]? = some gpuCount ∧ target.2 < gpuCount) ∧
      (size ≤ engineGpuCounts.sum → ∀ replica < size, sent (assigned replica) ≠ []) ∧
      (engineGpuCounts.sum ≤ size → ∀ replica < size, (sent (assigned replica)).length ≤ 1) ∧
      (∀ rank, ∀ a < size, ∀ b < size, sentOfRank (assigned a) rank ≠ [] →
        sentOfRank (assigned b) rank ≠ [] →
        (sentOfRank (assigned a) rank).length ≤ (sentOfRank (assigned b) rank).length + 1) ∧
      (∀ rank : Nat, (∃ gpuCount ∈ engineGpuCounts, rank < gpuCount) →
        (∀ indices ∈ firstRound size (targets engineGpuCounts), indices.get? rank = none) →
        ∃ replica < size, sentOfRank (assigned replica) rank ≠ [] ∧
          ∀ other < size, other ≠ replica → sentOfRank (assigned other) rank = []) := by
  let replicas := finalReplicas size engineGpuCounts
  let assigned (replica : Nat) := assignments (replicas[replica]?.getD .empty)
  have hshares (replica rank : Nat) : sentOfRank (assigned replica) rank =
      (shares replicas replica rank).map fun engine => (engine, rank) :=
    sentOfRank_assignments _ _
  have hcount (replica : Nat) (target : Nat × Nat) :
      (sent (assigned replica)).count target = (shares replicas replica target.2).count target.1 :=
    count_sent _ _ _
  have hempty (replica rank : Nat) :
      sentOfRank (assigned replica) rank = [] ↔ shares replicas replica rank = [] := by
    rw [hshares, List.map_eq_nil_iff]
  have hgiven (target : Nat × Nat) : ∑ replica ∈ range size, (sent (assigned replica)).count target =
      (targets engineGpuCounts).count target := by
    rw [← given_finalReplicas hsize]
    exact Finset.sum_congr rfl fun replica _ => hcount replica target
  -- the data replica that sends a target
  have hsender (target : Nat × Nat) (h : target ∈ targets engineGpuCounts) :
      ∃ replica < size, (sent (assigned replica)).count target = 1 ∧
        ∀ other < size, other ≠ replica → target ∉ sent (assigned other) := by
    have hone := hgiven target
    rw [List.count_eq_one_of_mem (nodup_targets _) h] at hone
    have hpositive : ∑ replica ∈ range size, (sent (assigned replica)).count target ≠ 0 := by omega
    obtain ⟨replica, hreplica, hne⟩ := Finset.exists_ne_zero_of_sum_ne_zero hpositive
    have hunique := Finset.sum_le_one_iff.mp (Nat.le_of_eq hone)
    refine ⟨replica, mem_range.mp hreplica, (hunique _ _ hreplica hreplica hne hne).2, ?_⟩
    intro other hother hdifferent hmem
    have hne' : (sent (assigned other)).count target ≠ 0 :=
      Nat.ne_of_gt (List.count_pos_iff.mpr hmem)
    exact hdifferent (hunique _ _ (mem_range.mpr hother) hreplica hne' hne).1
  refine ⟨assigned, ?_, ?_, ?_, ?_, ?_, ?_, ?_⟩
  · intro replica hreplica
    exact assignRolloutEngineRanksForDataReplica_eq hsize hcounts hreplica
  · intro engine rank gpuCount hengine hrank
    exact hsender _ (mem_targets.mpr ⟨gpuCount, hengine, hrank⟩)
  · intro replica hreplica target hmem
    rw [← mem_targets, ← List.count_pos_iff, ← hgiven]
    apply Nat.lt_of_lt_of_le (List.count_pos_iff.mpr hmem)
    exact Finset.single_le_sum (f := fun replica => (sent (assigned replica)).count target)
      (fun _ _ => Nat.zero_le _) (mem_range.mpr hreplica)
  · intro henough replica hreplica hnil
    rw [← length_targets hcounts] at henough
    have hlt : replica < (targets engineGpuCounts).length := by omega
    have hne := shares_finalReplicas_ne_nil hsize hreplica (List.getElem?_eq_getElem hlt)
    apply hne
    rw [← hempty, sentOfRank, hnil]
    rfl
  · intro hfew replica hreplica
    rw [← length_targets hcounts] at hfew
    have hfinal : replicas = firstRound size (targets engineGpuCounts) := by
      show finalReplicas _ _ = _
      rw [finalReplicas, List.drop_eq_nil_of_le (by omega)]
      rfl
    show (sent (assignments (replicas[replica]?.getD .empty))).length ≤ 1
    rw [hfinal, getElem?_firstRound hreplica]
    cases (targets engineGpuCounts)[replica]? with
    | none => exact Nat.zero_le 1
    | some target => exact Nat.le_refl 1
  · intro rank a ha b hb hshareA hshareB
    rw [hshares, hshares, List.length_map, List.length_map]
    apply balanced_finalReplicas hsize rank a ha b hb
    · exact fun h => hshareA ((hempty a rank).mpr h)
    · exact fun h => hshareB ((hempty b rank).mpr h)
  · intro rank hexists hfirst
    obtain ⟨gpuCount, hgpuCount, hrank⟩ := hexists
    obtain ⟨engine, hengine⟩ := List.mem_iff_getElem?.mp hgpuCount
    obtain ⟨replica, hreplica, hone, -⟩ :=
      hsender (engine, rank) (mem_targets.mpr ⟨gpuCount, hengine, hrank⟩)
    have hshare : shares replicas replica rank ≠ [] := by
      intro hnil
      rw [hcount, hnil] at hone
      cases hone
    refine ⟨replica, hreplica, fun h => hshare ((hempty _ _).mp h), ?_⟩
    intro other hother hdifferent
    by_contra hne
    have hother' : shares replicas other rank ≠ [] := fun h => hne ((hempty _ _).mpr h)
    exact hdifferent (soleSender_finalReplicas hsize hfirst other hother replica hreplica hother' hshare)

/-- Two data replicas, and rollout engines of two GPUs and one. -/
theorem assignRolloutEngineRanks_exact_twoReplicas :
    ∃ replica < 2, ∃ assigned,
      assignRolloutEngineRanksForDataReplica replica 2 [2, 1] = .ok assigned ∧
        (sent assigned).count (1, 0) = 1 := by
  obtain ⟨assigned, hcall, hexact, -⟩ :=
    @assignRolloutEngineRanks_exact 2 [2, 1] (by decide) (by decide)
  obtain ⟨replica, hreplica, hone, -⟩ := hexact 1 0 1 rfl (by decide)
  exact ⟨replica, hreplica, assigned replica, hcall replica hreplica, hone⟩

end Miles.RankAssignment
