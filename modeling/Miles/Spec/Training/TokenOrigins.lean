import Miles.ForStd.Except
import Miles.Native.Training.TrainBatch
import Miles.Spec.Training.ScoringCoverage

/-!
# Where the tokens of a batch come from

The layouts of `get_batch` only move tokens and append padding, so they commute with any change
of the tokens.  Laid out like the tokens themselves, the names of the tokens tell which token of
which sample each local position holds.
-/

namespace Miles.ContextParallel

open PyList

variable {α β : Type}

/-! ### Layouts commute with maps -/

theorem padEnd_map (f : α → β) (xs : List α) (amount : Int) (pad : α) :
    padEnd (xs.map f) amount (f pad) = (padEnd xs amount pad).map f := by
  unfold padEnd
  split <;> simp

theorem slice_map (f : α → β) (xs : List α) (start stop : Int) :
    slice (xs.map f) start stop = (slice xs start stop).map f := by
  simp [slice]

theorem sliceWithCp_map (f : α → β) (tokens : List α) (pad : α) (qkvFormat : QkvFormat)
    (maxSeqLen : Nat) (cp : CpState) :
    sliceWithCp (tokens.map f) (f pad) qkvFormat maxSeqLen cp =
      (sliceWithCp tokens pad qkvFormat maxSeqLen cp).map f := by
  simp only [sliceWithCp, List.length_map]
  split
  · cases qkvFormat with
    | bshd => exact padEnd_map f tokens _ pad
    | thd => rfl
  · rw [padEnd_map, slice_map, slice_map, List.map_append]

/-- The length of a slot depends on the length of the sample only. -/
theorem length_sliceWithCp_eq {t : List α} {t' : List β} (h : t.length = t'.length) (pad : α)
    (pad' : β) (qkvFormat : QkvFormat) (maxSeqLen : Nat) (cp : CpState) :
    (sliceWithCp t pad qkvFormat maxSeqLen cp).length =
      (sliceWithCp t' pad' qkvFormat maxSeqLen cp).length := by
  have hunits : t.map (fun _ => ()) = t'.map (fun _ => ()) := by
    rw [List.map_const', List.map_const', h]
  have hleft := congrArg List.length (sliceWithCp_map (fun _ => ()) t pad qkvFormat maxSeqLen cp)
  have hright := congrArg List.length
    (sliceWithCp_map (fun _ => ()) t' pad' qkvFormat maxSeqLen cp)
  rw [List.length_map] at hleft hright
  rw [← hleft, ← hright, hunits]

theorem chunkAt_map (f : α → β) (xs : List α) (n i : Nat) :
    chunkAt (xs.map f) n i = (chunkAt xs n i).map f := by
  simp [chunkAt]

/-- The layout of `get_batch` commutes with a map of the tokens. -/
theorem getBatch_map (f : α → β) (tokens : List (List α)) (pad : α) (padSize : Nat)
    (qkvFormat : QkvFormat) (maxSeqLens : Option (List Nat)) (allgatherCp : Bool) (cp : CpState) :
    getBatch (tokens.map (List.map f)) (f pad) padSize qkvFormat maxSeqLens allgatherCp cp =
      (getBatch tokens pad padSize qkvFormat maxSeqLens allgatherCp cp).map (List.map f) := by
  have hempty : tokens.map (List.map f) ≠ [] ↔ tokens ≠ [] := by simp
  have hlengths : ∀ m : Nat, (∀ t ∈ tokens.map (List.map f), t.length ≤ m) ↔
      ∀ t ∈ tokens, t.length ≤ m := by simp
  -- per sample in bshd and zigzag, the stream as a whole in thd
  have hslots : ∀ (slot : List α → List α) (slot' : List β → List β),
      (∀ t, slot' (t.map f) = (slot t).map f) →
      ((tokens.map (List.map f)).map slot').flatten = ((tokens.map slot).flatten).map f := by
    intro slot slot' h
    rw [List.map_flatten, List.map_map, List.map_map]
    congr 1
    exact List.map_congr_left fun t _ => h t
  have hstream : (tokens.map (List.map f)).flatten = tokens.flatten.map f := by
    rw [List.map_flatten]
  have hpad : ∀ (xs : List α) n, xs.map f ++ List.replicate n (f pad) =
      (xs ++ List.replicate n pad).map f := by simp
  cases qkvFormat with
  | bshd =>
    by_cases hne : tokens = []
    · simp [getBatch, check, hne, bind, Except.bind, Except.map]
    cases maxSeqLens with
    | none => simp [getBatch, check, hne, bind, Except.bind, Except.map, throw, throwThe,
        MonadExceptOf.throw]
    | some lens =>
      cases lens with
      | nil => simp [getBatch, check, hne, bind, Except.bind, Except.map, throw, throwThe,
          MonadExceptOf.throw]
      | cons m rest =>
        simp only [getBatch, check, hempty, hlengths m, if_pos hne, bind, Except.bind, pure,
          Except.pure]
        by_cases hfits : ∀ t ∈ tokens, t.length ≤ m
        · simp only [if_pos hfits]
          cases allgatherCp with
          | true =>
            by_cases hdiv : m % cp.size = 0
            · simp only [hdiv, if_true, Except.map]
              rw [hslots _ _ fun t => by rw [List.length_map, padEnd_map, slice_map]]
            · simp only [hdiv, if_true, if_false, Except.map]
          | false =>
            simp only [Bool.false_eq_true, if_false, Except.map]
            rw [hslots _ _ fun t => sliceWithCp_map f t pad .bshd m cp]
        · simp only [if_neg hfits, Except.map]
  | thd =>
    by_cases hne : tokens = []
    · simp [getBatch, check, hne, bind, Except.bind, Except.map]
    simp only [getBatch, check, hempty, if_pos hne, bind, Except.bind, pure, Except.pure]
    cases allgatherCp with
    | true =>
      simp only [if_true, Except.map]
      rw [hstream, List.length_map, hpad, chunkAt_map]
    | false =>
      simp only [Bool.false_eq_true, if_false, Except.map]
      rw [hslots _ _ fun t => sliceWithCp_map f t pad .thd 0 cp, List.length_map, hpad]

/-! ### Origins -/

/-- What a local position holds: token `j` of sample `i`, or padding. -/
abbrev Origin := Option (Nat × Nat)

/-- The names of the tokens, sample by sample. -/
def tokenNames (tokens : List (List α)) : List (List Origin) :=
  tokens.zipIdx.map fun x => (List.range x.1.length).map fun j => some (x.2, j)

/-- The origins of the local positions of a rank. -/
def origins (tokens : List (List α)) (padSize : Nat) (qkvFormat : QkvFormat)
    (maxSeqLens : Option (List Nat)) (allgatherCp : Bool) (cp : CpState) :
    Except LayoutError (List Origin) :=
  getBatch (tokenNames tokens) none padSize qkvFormat maxSeqLens allgatherCp cp

/-- The entry of a position, for data that has entries for the tokens of each sample. -/
def entryAt (entries : List (List α)) (pad : α) : Origin → α
  | none => pad
  | some (i, j) => ((entries[i]?.bind (·[j]?)).getD pad)

variable {tokens : List (List α)} {maxSeqLens : Option (List Nat)} {allgatherCp : Bool}
  {cp : CpState} {qkvFormat : QkvFormat} {localTokens : List α} {padSize : Nat}

/-- Entries of the same number as the tokens, named. -/
theorem map_tokenNames {entries : List (List β)}
    (h : entries.map List.length = tokens.map List.length) (pad : β) :
    (tokenNames tokens).map (List.map (entryAt entries pad)) = entries := by
  have hcount : entries.length = tokens.length := by
    have := congrArg List.length h
    simpa using this
  apply List.ext_getElem?
  intro i
  by_cases hi : i < tokens.length
  · have hi' : i < entries.length := by omega
    have hlen : entries[i].length = tokens[i].length := by
      have hget := congrArg (·[i]?) h
      simpa [List.getElem?_eq_getElem hi, List.getElem?_eq_getElem hi'] using hget
    simp only [tokenNames, List.map_map, List.getElem?_map, List.getElem?_zipIdx,
      List.getElem?_eq_getElem hi, List.getElem?_eq_getElem hi', Option.map_some,
      Function.comp_apply, Option.some.injEq, Nat.zero_add]
    apply List.ext_getElem
    · simp [hlen]
    · intro j hj hj'
      simp [entryAt, List.getElem?_eq_getElem hi', List.getElem?_eq_getElem hj']
  · rw [List.getElem?_eq_none (by simpa [tokenNames] using Nat.le_of_not_lt hi),
      List.getElem?_eq_none (by omega)]

/-- Data with an entry for each token, laid out like the tokens, has at each local position the
    entry of its origin. -/
theorem layout_eq_map_origins {entries : List (List β)}
    (h : entries.map List.length = tokens.map List.length) (pad : β) (padSize : Nat)
    (qkvFormat : QkvFormat) (maxSeqLens : Option (List Nat)) (allgatherCp : Bool) (cp : CpState) :
    getBatch entries pad padSize qkvFormat maxSeqLens allgatherCp cp =
      (origins tokens padSize qkvFormat maxSeqLens allgatherCp cp).map
        (List.map (entryAt entries pad)) := by
  have hmap := getBatch_map (entryAt entries pad) (tokenNames tokens) none padSize qkvFormat
    maxSeqLens allgatherCp cp
  rw [map_tokenNames h] at hmap
  exact hmap

/-- The local tokens are the tokens at their origins. -/
theorem localTokens_eq {pad : α}
    (h : getBatch tokens pad padSize qkvFormat maxSeqLens allgatherCp cp = .ok localTokens) :
    ∃ os, origins tokens padSize qkvFormat maxSeqLens allgatherCp cp = .ok os ∧
      localTokens = os.map (entryAt tokens pad) := by
  rw [layout_eq_map_origins rfl] at h
  cases hos : origins tokens padSize qkvFormat maxSeqLens allgatherCp cp with
  | error e =>
    rw [hos] at h
    cases h
  | ok os =>
    rw [hos] at h
    exact ⟨os, rfl, (Except.ok.inj h).symm⟩

/-- The layout of a batch depends on the lengths of its samples only. -/
theorem exists_layout_of_lengths {entries : List (List β)}
    (h : entries.map List.length = tokens.map List.length) {pad : α} (pad' : β)
    (hlocal : getBatch tokens pad padSize qkvFormat maxSeqLens allgatherCp cp = .ok localTokens) :
    ∃ os, origins tokens padSize qkvFormat maxSeqLens allgatherCp cp = .ok os ∧
      localTokens = os.map (entryAt tokens pad) ∧
      getBatch entries pad' padSize qkvFormat maxSeqLens allgatherCp cp =
        .ok (os.map (entryAt entries pad')) := by
  obtain ⟨os, hos, htokens⟩ := localTokens_eq hlocal
  refine ⟨os, hos, htokens, ?_⟩
  rw [layout_eq_map_origins h, hos]
  rfl

/-- What holds of the padding and of the tokens holds of the local tokens. -/
theorem forall_mem_getBatch {P : α → Prop} {pad : α} (hpad : P pad)
    (htokens : ∀ t ∈ tokens, ∀ x ∈ t, P x)
    (h : getBatch tokens pad padSize qkvFormat maxSeqLens allgatherCp cp = .ok localTokens) :
    ∀ x ∈ localTokens, P x := by
  -- a batch of elements that satisfy `P` is the image of a batch of the subtype
  obtain ⟨subs, hsubs⟩ : ∃ subs : List (List {x // P x}), subs.map (List.map Subtype.val) = tokens := by
    refine ⟨tokens.attach.map fun t => t.1.attach.map fun x => ⟨x.1, htokens t.1 t.2 x.1 x.2⟩, ?_⟩
    rw [List.map_map]
    conv_rhs => rw [← List.attach_map_subtype_val tokens]
    apply List.map_congr_left
    intro t _
    show List.map Subtype.val (t.1.attach.map _) = t.1
    rw [List.map_map]
    exact List.attach_map_subtype_val t.1
  have hmap := getBatch_map Subtype.val subs ⟨pad, hpad⟩ padSize qkvFormat maxSeqLens allgatherCp cp
  rw [hsubs, h] at hmap
  cases hlocal : getBatch subs ⟨pad, hpad⟩ padSize qkvFormat maxSeqLens allgatherCp cp with
  | error e =>
    rw [hlocal] at hmap
    cases hmap
  | ok xs =>
    rw [hlocal] at hmap
    have heq : localTokens = xs.map Subtype.val := Except.ok.inj hmap
    intro x hx
    rw [heq] at hx
    obtain ⟨y, -, rfl⟩ := List.mem_map.mp hx
    exact y.2

/-- An origin is a token of the batch. -/
theorem origin_valid
    {os : List Origin}
    (h : origins tokens padSize qkvFormat maxSeqLens allgatherCp cp = .ok os) {i j : Nat}
    (hij : some (i, j) ∈ os) : ∃ t, tokens[i]? = some t ∧ j < t.length := by
  have hall := forall_mem_getBatch
    (P := fun o => ∀ i j, o = some (i, j) → ∃ t, tokens[i]? = some t ∧ j < t.length)
    (fun _ _ h => by cases h) ?_ h
  · exact hall _ hij i j rfl
  · intro names hnames o ho i' j' heq
    obtain ⟨x, hx, rfl⟩ := List.mem_map.mp hnames
    obtain ⟨k, hk, rfl⟩ := List.mem_map.mp ho
    cases heq
    have hget := List.mem_zipIdx_iff_getElem?.mp hx
    exact ⟨_, hget, List.mem_range.mp hk⟩

/-- A position with an origin holds the token of its origin, or padding. -/
def HoldsOrigin (tokens : List (List α)) (pad : α) (localTokens : List α) (p : Nat) :
    Origin → Prop
  | none => localTokens[p]? = some pad
  | some (i, j) => ∃ t x, tokens[i]? = some t ∧ t[j]? = some x ∧ localTokens[p]? = some x

theorem holdsOrigin
    {os : List Origin}
    (hos : origins tokens padSize qkvFormat maxSeqLens allgatherCp cp = .ok os) (pad : α) {p : Nat}
    {o : Origin} (hp : os[p]? = some o) :
    HoldsOrigin tokens pad (os.map (entryAt tokens pad)) p o := by
  have hread : (os.map (entryAt tokens pad))[p]? = some (entryAt tokens pad o) := by
    rw [List.getElem?_map, hp]
    rfl
  cases o with
  | none => exact hread
  | some x =>
    obtain ⟨i, j⟩ := x
    obtain ⟨t, ht, hj⟩ := origin_valid hos (List.mem_of_getElem? hp)
    refine ⟨t, t[j], ht, List.getElem?_eq_getElem hj, ?_⟩
    rw [hread]
    simp [entryAt, ht, List.getElem?_eq_getElem hj]

/-! ### What `get_batch` returns -/

/-- A bshd batch that `get_batch` accepts. -/
theorem getBatch_bshd_eq_ok {pad : α}
    :
    getBatch tokens pad padSize .bshd maxSeqLens allgatherCp cp = .ok localTokens ↔
      tokens ≠ [] ∧ ∃ m rest, maxSeqLens = some (m :: rest) ∧ (∀ t ∈ tokens, t.length ≤ m) ∧
        (allgatherCp = true → m % cp.size = 0) ∧
        localTokens = (tokens.map fun t =>
          if allgatherCp then
            slice (padEnd t (m - t.length) pad) (cp.rank * (m / cp.size) : Nat)
              (cp.rank * (m / cp.size) + m / cp.size : Nat)
          else sliceWithCp t pad .bshd m cp).flatten := by
  by_cases hne : tokens = []
  · simp [getBatch, check, hne, bind, Except.bind]
  cases maxSeqLens with
  | none => simp [getBatch, check, hne, bind, Except.bind, throw, throwThe, MonadExceptOf.throw]
  | some lens =>
    cases lens with
    | nil => simp [getBatch, check, hne, bind, Except.bind, throw, throwThe, MonadExceptOf.throw]
    | cons m rest =>
      constructor
      · intro h
        simp only [getBatch, check, ne_eq, hne, not_false_eq_true, if_true, bind, Except.bind,
          pure, Except.pure] at h
        by_cases hfits : ∀ t ∈ tokens, t.length ≤ m
        · rw [if_pos hfits] at h
          refine ⟨hne, m, rest, rfl, hfits, ?_⟩
          cases allgatherCp with
          | true =>
            by_cases hdiv : m % cp.size = 0
            · simp only [hdiv, if_true, Except.ok.injEq] at h
              exact ⟨fun _ => hdiv, h.symm⟩
            · simp only [hdiv, if_true, if_false] at h
              cases h
          | false =>
            simp only [Bool.false_eq_true, if_false, Except.ok.injEq] at h
            exact ⟨fun hgather => (by cases hgather), h.symm⟩
        · rw [if_neg hfits] at h
          cases h
      · intro h
        obtain ⟨_, m', rest', hlens, hfits, hdiv, hlocal⟩ := h
        cases hlens
        simp only [getBatch, check, ne_eq, hne, not_false_eq_true, if_true, if_pos hfits, bind,
          Except.bind, pure, Except.pure]
        cases allgatherCp with
        | true => simp only [hdiv rfl, if_true, hlocal]
        | false => simp only [Bool.false_eq_true, if_false, hlocal]

/-- The padding that completes a multiple. -/
def padTo (length multiple : Nat) : Nat := (multiple - length % multiple) % multiple

/-- A thd batch that `get_batch` accepts. -/
theorem getBatch_thd_eq_ok {pad : α}
    :
    getBatch tokens pad padSize .thd maxSeqLens allgatherCp cp = .ok localTokens ↔
      tokens ≠ [] ∧ localTokens =
        if allgatherCp then
          chunkAt (tokens.flatten ++
            List.replicate (padTo tokens.flatten.length (cp.size * padSize)) pad) cp.size cp.rank
        else
          (tokens.map fun t => sliceWithCp t pad .thd 0 cp).flatten ++
            List.replicate (padTo (tokens.map fun t => sliceWithCp t pad .thd 0 cp).flatten.length
              padSize) pad := by
  by_cases hne : tokens = []
  · simp [getBatch, check, hne, bind, Except.bind]
  simp only [getBatch, check, ne_eq, hne, not_false_eq_true, if_true, bind, Except.bind, pure,
    Except.pure, true_and, padTo]
  cases allgatherCp with
  | true => simp only [if_true, Except.ok.injEq, eq_comm]
  | false => simp only [Bool.false_eq_true, if_false, Except.ok.injEq, eq_comm]

/-! ### Rows of one length -/

/-- Padded to one length, lists of units are the same. -/
theorem padEnd_unit (xs : List Unit) {n : Int} (h : (xs.length : Int) ≤ n) :
    padEnd xs (n - xs.length) () = List.replicate n.toNat () := by
  have hnonneg : ¬ (n - (xs.length : Int) < 0) := by omega
  rw [padEnd, if_neg hnonneg, List.eq_replicate_iff]
  refine ⟨?_, fun _ _ => rfl⟩
  simp only [List.length_append, List.length_replicate]
  omega

/-- The chunks of a bshd row cover it. -/
theorem le_chunks {n m cpSize : Nat} (hcp : 0 < cpSize) (h : n ≤ m) :
    (n : Int) ≤ 2 * cpSize * chunkSize m cpSize := by
  rw [PackedBatch.chunkSize_eq hcp]
  have hceil := PackedBatch.le_mul_ceilDiv (n := m) (d := 2 * cpSize) (by omega)
  have hcast : ((2 * cpSize * ((m + 2 * cpSize - 1) / (2 * cpSize)) : Nat) : Int) =
      2 * cpSize * ((m + 2 * cpSize - 1) / (2 * cpSize) : Nat) := by push_cast; rfl
  omega

/-- The local rows of a bshd batch have one length. -/
theorem length_sliceWithCp_bshd (hcp : 0 < cp.size) {m : Nat} {t : List α}
    (ht : t.length ≤ m) (pad : α) :
    (sliceWithCp t pad .bshd m cp).length =
      (sliceWithCp ([] : List Unit) () .bshd m cp).length := by
  have hunit : sliceWithCp (t.map fun _ => ()) () .bshd m cp = sliceWithCp [] () .bshd m cp := by
    have hlen : ((t.map fun _ => ()).length : Int) = t.length := by simp
    simp only [sliceWithCp]
    split
    · rw [padEnd_unit _ (by omega), padEnd_unit _ (by simp)]
    · rw [padEnd_unit _ (by rw [hlen]; exact le_chunks hcp ht),
        padEnd_unit _ (le_chunks hcp (Nat.zero_le m))]
  rw [← hunit, sliceWithCp_map (fun _ => ()) t pad, List.length_map]

/-- So they can be stacked. -/
theorem sameLength_bshd (hcp : 0 < cp.size) {m : Nat} {rows : List (List α)}
    (hfits : ∀ t ∈ rows, t.length ≤ m) (pad : α) (allgatherCp : Bool) :
    SameLength (rows.map fun t =>
      if allgatherCp then
        slice (padEnd t (m - t.length) pad) (cp.rank * (m / cp.size) : Nat)
          (cp.rank * (m / cp.size) + m / cp.size : Nat)
      else sliceWithCp t pad .bshd m cp) := by
  have hlen : ∀ t ∈ rows, ∀ t' ∈ rows,
      (padEnd t (m - t.length) pad).length = (padEnd t' (m - t'.length) pad).length := by
    intro t ht t' ht'
    have hle := hfits t ht
    have hle' := hfits t' ht'
    rw [padEnd_eq hle, padEnd_eq hle']
    simp only [List.length_append, List.length_replicate]
    omega
  intro row hrow other hother
  obtain ⟨t, ht, rfl⟩ := List.mem_map.mp hrow
  obtain ⟨t', ht', rfl⟩ := List.mem_map.mp hother
  cases allgatherCp with
  | true =>
    simp only [if_true, slice_natCast, List.length_drop, List.length_take, hlen t ht t' ht']
  | false =>
    simp only [Bool.false_eq_true, if_false]
    rw [length_sliceWithCp_bshd hcp (hfits t ht), length_sliceWithCp_bshd hcp (hfits t' ht')]

end Miles.ContextParallel
