import Mathlib

/-!
# Rounds

Reading a stream of places `0 .. n - 1` in rounds: a round takes each place once, in any order, and
the next round starts when it is complete. A place that is already taken in the open round cannot be
read.

## Key results

- `read_concat`: reading one more place
- `read_eq_some`: what has been read is complete rounds and the open one
- `read_eq_nil_iff`: a stream is read to the end with no open round iff it consists of complete
  rounds
-/

namespace Rounds

variable {n i : Nat} {taken xs : List Nat}

/-- The open round after one more place. -/
def next (n : Nat) (taken : List Nat) (i : Nat) : Option (List Nat) :=
  if i ∈ taken then none
  else if taken.length + 1 = n then some []
  else some (taken ++ [i])

/-- The open round after a stream of places. -/
def read (n : Nat) (xs : List Nat) : Option (List Nat) := xs.foldlM (next n) []

@[simp] theorem read_nil (n : Nat) : read n [] = some [] := rfl

theorem read_concat (n : Nat) (xs : List Nat) (i : Nat) :
    read n (xs ++ [i]) = (read n xs).bind fun taken => next n taken i := by
  unfold read
  rw [List.foldlM_append]
  show (List.foldlM (next n) [] xs >>= fun taken => List.foldlM (next n) taken [i]) = _
  simp only [List.foldlM_cons, List.foldlM_nil, bind_pure]
  rfl

/-- A part of the round: distinct places, and not all of them. -/
structure Open (n : Nat) (taken : List Nat) : Prop where
  nodup : taken.Nodup
  lt : ∀ i ∈ taken, i < n
  incomplete : taken.length < n

theorem Open.nil (h : 0 < n) : Open n [] := ⟨List.nodup_nil, by simp, h⟩

/-- Distinct places are all of them when there are as many. -/
theorem perm_range (hnodup : xs.Nodup) (hlt : ∀ i ∈ xs, i < n) (hlength : xs.length = n) :
    xs.Perm (List.range n) := by
  apply (List.subperm_of_subset hnodup fun i hi => List.mem_range.mpr (hlt i hi)).perm_of_length_le
  rw [List.length_range, hlength]

/-- The next place completes the round or stays in it. -/
theorem Open.next (h : Open n taken) (hi : i < n) {after : List Nat}
    (hnext : next n taken i = some after) :
    i ∉ taken ∧ ((taken ++ [i]).Perm (List.range n) ∧ after = [] ∨
      Open n (taken ++ [i]) ∧ after = taken ++ [i]) := by
  unfold Rounds.next at hnext
  split at hnext
  · cases hnext
  · rename_i hnew
    have hnodup : (taken ++ [i]).Nodup := by
      rw [← List.concat_eq_append, List.nodup_concat]
      exact ⟨hnew, h.nodup⟩
    have hlt : ∀ j ∈ taken ++ [i], j < n := by
      intro j hj
      cases List.mem_append.mp hj with
      | inl hmem => exact h.lt j hmem
      | inr hmem => exact List.mem_singleton.mp hmem ▸ hi
    have hlength : (taken ++ [i]).length = taken.length + 1 := by simp
    split at hnext
    · rename_i hfull
      cases hnext
      exact ⟨hnew, .inl ⟨perm_range hnodup hlt (hlength.trans hfull), rfl⟩⟩
    · rename_i hopen
      cases hnext
      have hincomplete := h.incomplete
      exact ⟨hnew, .inr ⟨⟨hnodup, hlt, by omega⟩, rfl⟩⟩

/-- What has been read is complete rounds and the open one. -/
theorem read_eq_some (hn : 0 < n) (hlt : ∀ i ∈ xs, i < n) (h : read n xs = some taken) :
    Open n taken ∧ ∃ rounds : List (List Nat), xs = rounds.flatten ++ taken ∧
      ∀ round ∈ rounds, round.Perm (List.range n) := by
  induction xs using List.reverseRecOn generalizing taken with
  | nil =>
    cases h
    exact ⟨.nil hn, [], by simp, by simp⟩
  | append_singleton xs i ih =>
    rw [read_concat] at h
    obtain ⟨before, hbefore, hnext⟩ := Option.bind_eq_some_iff.mp h
    obtain ⟨hopen, rounds, hrounds, hperm⟩ :=
      ih (fun j hj => hlt j (List.mem_append_left _ hj)) hbefore
    have hi := hlt i (List.mem_append_right _ (List.mem_singleton_self i))
    obtain ⟨-, ⟨hfull, rfl⟩ | ⟨hstill, rfl⟩⟩ := hopen.next hi hnext
    · -- the round is complete
      refine ⟨.nil hn, rounds ++ [before ++ [i]], ?_, ?_⟩
      · simp [hrounds]
      · intro round hround
        cases List.mem_append.mp hround with
        | inl hmem => exact hperm round hmem
        | inr hmem => exact List.mem_singleton.mp hmem ▸ hfull
    · refine ⟨hstill, rounds, ?_, hperm⟩
      rw [hrounds, List.append_assoc]

/-- Reading the rest of a round. -/
theorem foldlM_next (taken rest : List Nat) (h : (taken ++ rest).Perm (List.range n))
    (hne : rest ≠ []) :
    rest.foldlM (next n) taken = some [] := by
  induction rest generalizing taken with
  | nil => exact absurd rfl hne
  | cons i rest ih =>
    have hlength : taken.length + (rest.length + 1) = n := by
      have := h.length_eq
      rwa [List.length_append, List.length_cons, List.length_range] at this
    have hnew : i ∉ taken := by
      have hnodup := h.nodup_iff.mpr List.nodup_range
      intro hmem
      exact (List.nodup_append.mp hnodup).2.2 i hmem i (List.mem_cons_self ..) rfl
    rw [List.foldlM_cons]
    by_cases hlast : rest = []
    · subst hlast
      rw [next, if_neg hnew, if_pos (by simpa using hlength)]
      rfl
    · have hpositive := List.length_pos_iff.mpr hlast
      rw [next, if_neg hnew, if_neg (by omega)]
      show rest.foldlM (next n) (taken ++ [i]) = _
      apply ih _ _ hlast
      rwa [List.append_assoc]

/-- A stream is read to the end with no open round exactly when it consists of complete rounds. -/
theorem read_eq_nil_iff (hn : 0 < n) (hlt : ∀ i ∈ xs, i < n) :
    read n xs = some [] ↔ ∃ rounds : List (List Nat), xs = rounds.flatten ∧
      ∀ round ∈ rounds, round.Perm (List.range n) := by
  constructor
  · intro h
    obtain ⟨-, rounds, hrounds, hperm⟩ := read_eq_some hn hlt h
    exact ⟨rounds, by simpa using hrounds, hperm⟩
  · intro h
    obtain ⟨rounds, rfl, hperm⟩ := h
    clear hlt
    induction rounds with
    | nil => rfl
    | cons round rounds ih =>
      rw [List.forall_mem_cons] at hperm
      have hne : round ≠ [] := by
        rintro rfl
        have := hperm.1.length_eq
        rw [List.length_nil, List.length_range] at this
        omega
      unfold read at ih ⊢
      rw [List.flatten_cons, List.foldlM_append, foldlM_next [] round hperm.1 hne]
      exact ih hperm.2

end Rounds
