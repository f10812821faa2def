import Miles.Native.WeightUpdate.DeltaSync
import Miles.Spec.WeightUpdate.DiskDelta

/-!
# What the pool makes of a sync

Whatever the order in which the workers take up the tensors, and however they meet the collection of
others: a rank that has drained its pool has the trainer's bytes in its snapshot, and for every
tensor whose bytes changed the one delta against the snapshot of the previous sync.

## Key results

- `Pool.step`: what one step keeps
- `pooled_snapshot`, `pooled_delta`, `pooled_checksums`: what a drained pool leaves
-/

namespace Miles.DiskDelta

variable {codec : Codec} {maxInflight : Nat} {start : Snapshot} {weights : String → List UInt8}
  {stream stream' : List (String × List UInt8)} {p p' : Pipeline} {done : List String}

/-- What is published of a tensor: nothing when no byte changed. -/
def publishedDelta (codec : Codec) (new old : List UInt8) : Option (List UInt8 × String) :=
  match diffAndCompress codec.compress codec.checksum codec.outOfBounds codec.deltaEncoding new old with
  | .ok published => published.delta
  | .error _ => none

/-- What is published of a tensor holds its new bytes. -/
theorem diffAndCompress_new {compress : List UInt8 → List UInt8} {checksum : List UInt8 → String}
    {outOfBounds : Nat → Option UInt32} {deltaEncoding : String} {new old : List UInt8}
    {published : Published}
    (h : diffAndCompress compress checksum outOfBounds deltaEncoding new old = .ok published) :
    published.new = new := by
  obtain ⟨diffed, -, hpublished⟩ := Except.bind_eq_ok.mp h
  split at hpublished
  · cases hpublished
    rfl
  · cases hpublished
    rfl

/-- What a worker has made of a tensor: the published delta, or nothing, if the tensor had been
    collected before. -/
def IsResult (codec : Codec) (start : Snapshot) (weights : String → List UInt8) (done : List String)
    (name : String) (published : Published) : Prop :=
  published.new = weights name ∧ ∃ old, start.get? name = some old ∧
    (published.delta = publishedDelta codec (weights name) old ∨
      (name ∈ done ∧ published.delta = none))

/-- The state of a pool; the tensors in `done` have been collected. -/
structure Pool (codec : Codec) (start : Snapshot) (weights : String → List UInt8)
    (names done : List String) (stream : List (String × List UInt8)) (p : Pipeline) : Prop where
  snapshot : ∀ name, p.snapshot.get? name = if name ∈ done then some (weights name) else start.get? name
  delta : ∀ name, p.delta.get? name = if name ∈ done then
    ((start.get? name).bind (publishedDelta codec (weights name))).map Prod.fst else none
  checksums : ∀ name, p.checksums.get? name = if name ∈ done then
    ((start.get? name).bind (publishedDelta codec (weights name))).map Prod.snd else none
  known : ∀ name ∈ done, ∃ old, start.get? name = some old
  results : ∀ f ∈ p.inflight, f.new = weights f.name ∧
    ∀ published, f.result = some (.ok published) →
      IsResult codec start weights done f.name published
  sent : ∀ x ∈ stream, x.2 = weights x.1
  names : ∀ name, name ∈ names ↔
    name ∈ done ∨ name ∈ p.inflight.map Future.name ∨ name ∈ stream.map Prod.fst

/-- The pool of a sync that begins is empty. -/
theorem Pool.begun (hsent : ∀ x ∈ stream, x.2 = weights x.1) :
    Pool codec start weights (stream.map Prod.fst) [] stream (beginEncode start) := by
  constructor
  · exact fun name => rfl
  · exact fun name => rfl
  · exact fun name => rfl
  · intro name hname
    cases hname
  · intro f hf
    cases hf
  · exact hsent
  · intro name
    simp [beginEncode]

theorem IsResult.mono {done' : List String} {name : String} {published : Published}
    (h : IsResult codec start weights done name published) (hsub : ∀ x ∈ done, x ∈ done') :
    IsResult codec start weights done' name published := by
  obtain ⟨hnew, old, hold, hdelta⟩ := h
  refine ⟨hnew, old, hold, ?_⟩
  rcases hdelta with hdelta | hdelta
  · exact .inl hdelta
  · exact .inr ⟨hsub name hdelta.1, hdelta.2⟩

section
variable {names : List String}

/-- A tensor is submitted. -/
theorem Pool.submit {name : String} {new : List UInt8}
    (h : Pool codec start weights names done ((name, new) :: stream) p) :
    Pool codec start weights names done stream (p.submit name new) := by
  constructor
  · exact h.snapshot
  · exact h.delta
  · exact h.checksums
  · exact h.known
  · intro f hf
    rcases List.mem_append.mp hf with hold | hnew
    · exact h.results f hold
    · rw [List.mem_singleton.mp hnew]
      refine ⟨h.sent (name, new) List.mem_cons_self, fun published hresult => ?_⟩
      cases hresult
  · exact fun x hx => h.sent x (List.mem_cons_of_mem _ hx)
  · intro x
    rw [h.names x]
    simp only [Pipeline.submit, List.map_append, List.map_cons, List.map_nil, List.mem_append,
      List.mem_cons, List.not_mem_nil, or_false]
    tauto

/-- What a worker makes of a tensor with the snapshot that it finds. -/
theorem Pool.isResult (h : Pool codec start weights names done stream p) {name : String}
    {published : Published}
    (hresult : diffTensor codec p.snapshot name (weights name) = .ok published) :
    IsResult codec start weights done name published := by
  unfold diffTensor at hresult
  rw [h.snapshot] at hresult
  split at hresult
  · cases hresult
  · rename_i found hfound
    rw [Except.mapError_eq_ok] at hresult
    have hnew := diffAndCompress_new hresult
    by_cases hdone : name ∈ done
    · -- the snapshot already holds the tensor
      rw [if_pos hdone] at hfound
      cases hfound
      obtain ⟨old, hold⟩ := h.known name hdone
      exact ⟨hnew, old, hold, .inr ⟨hdone, (diffAndCompress_delta_eq_none rfl hresult).mpr rfl⟩⟩
    · rw [if_neg hdone] at hfound
      refine ⟨hnew, found, hfound, .inl ?_⟩
      unfold publishedDelta
      rw [hresult]

/-- A worker finishes a tensor, in any order. -/
theorem Pool.work (h : Pool codec start weights names done stream p) {front back : List Future}
    {name : String} {new : List UInt8} (hinflight : p.inflight = front ++ ⟨name, new, none⟩ :: back) :
    Pool codec start weights names done stream
      { p with inflight := front ++
          ⟨name, new, some (diffTensor codec p.snapshot name new)⟩ :: back } := by
  have hmem (f : Future) (hf : f ∈ front ∨ f ∈ back) : f ∈ p.inflight := by
    rw [hinflight]
    rcases hf with hf | hf
    · exact List.mem_append_left _ hf
    · exact List.mem_append_right _ (List.mem_cons_of_mem _ hf)
  have hown : (⟨name, new, none⟩ : Future) ∈ p.inflight := by
    rw [hinflight]
    exact List.mem_append_right _ List.mem_cons_self
  constructor
  · exact h.snapshot
  · exact h.delta
  · exact h.checksums
  · exact h.known
  · intro f hf
    rcases List.mem_append.mp hf with hfront | hrest
    · exact h.results f (hmem f (.inl hfront))
    · rcases List.mem_cons.mp hrest with heq | hback
      · have hnew : new = weights name := (h.results _ hown).1
        rw [heq]
        refine ⟨hnew, fun published hresult => ?_⟩
        apply h.isResult
        rw [hnew] at hresult
        exact Option.some.inj hresult
      · exact h.results f (hmem f (.inr hback))
  · exact h.sent
  · intro x
    rw [h.names x, hinflight]
    simp

/-- The oldest future is collected. -/
theorem Pool.collect (h : Pool codec start weights names done stream p) {rest : List Future}
    {name : String} {new : List UInt8} {published : Published}
    (hinflight : p.inflight = ⟨name, new, some (.ok published)⟩ :: rest) :
    Pool codec start weights names (name :: done) stream (p.collect name published rest) := by
  have hmem : (⟨name, new, some (.ok published)⟩ : Future) ∈ p.inflight := by
    rw [hinflight]
    exact List.mem_cons_self
  obtain ⟨-, hresults⟩ := h.results _ hmem
  obtain ⟨hnew, old, hold, hdelta⟩ := hresults published rfl
  have hsnapshot : (p.collect name published rest).snapshot = p.snapshot.set name (weights name) := by
    unfold Pipeline.collect
    rw [← hnew]
    split
    · rfl
    · rfl
  have hrest : (p.collect name published rest).inflight = rest := by
    unfold Pipeline.collect
    split
    · rfl
    · rfl
  -- what the delta and the checksums hold of the tensor now
  have hown : (p.collect name published rest).delta.get? name =
        (publishedDelta codec (weights name) old).map Prod.fst ∧
      (p.collect name published rest).checksums.get? name =
        (publishedDelta codec (weights name) old).map Prod.snd := by
    have hbefore := h.delta name
    have hbefore' := h.checksums name
    rw [hold, Option.bind_some] at hbefore hbefore'
    unfold Pipeline.collect
    split
    · rename_i hnone
      rcases hdelta with hdelta | hdelta
      · rw [← hdelta, hnone] at hbefore hbefore' ⊢
        simp only [Option.map_none, ite_self] at hbefore hbefore'
        exact ⟨hbefore, hbefore'⟩
      · rw [if_pos hdelta.1] at hbefore hbefore'
        exact ⟨hbefore, hbefore'⟩
    · rename_i compressed digest hsome
      rcases hdelta with hdelta | hdelta
      · rw [← hdelta, hsome]
        simp
      · rw [hdelta.2] at hsome
        cases hsome
  have hother (x : String) (hx : x ≠ name) :
      (p.collect name published rest).delta.get? x = p.delta.get? x ∧
        (p.collect name published rest).checksums.get? x = p.checksums.get? x := by
    unfold Pipeline.collect
    split
    · exact ⟨rfl, rfl⟩
    · simp [hx]
  constructor
  · intro x
    rw [hsnapshot, PyDict.get?_set, h.snapshot]
    by_cases hx : x = name
    · simp [hx]
    · simp [hx]
  · intro x
    by_cases hx : x = name
    · rw [hx, hown.1, if_pos List.mem_cons_self, hold, Option.bind_some]
    · rw [(hother x hx).1, h.delta]
      simp [hx]
  · intro x
    by_cases hx : x = name
    · rw [hx, hown.2, if_pos List.mem_cons_self, hold, Option.bind_some]
    · rw [(hother x hx).2, h.checksums]
      simp [hx]
  · intro x hx
    rcases List.mem_cons.mp hx with heq | hmem'
    · rw [heq]
      exact ⟨old, hold⟩
    · exact h.known x hmem'
  · intro f hf
    rw [hrest] at hf
    have hin : f ∈ p.inflight := by
      rw [hinflight]
      exact List.mem_cons_of_mem _ hf
    obtain ⟨hfnew, hfresults⟩ := h.results f hin
    refine ⟨hfnew, fun published' hresult => ?_⟩
    exact (hfresults published' hresult).mono fun x hx => List.mem_cons_of_mem _ hx
  · exact h.sent
  · intro x
    rw [h.names x, hrest, hinflight]
    simp only [List.map_cons, List.mem_cons]
    tauto

/-- A step of the pool keeps what is pooled. -/
theorem Pool.step (hstep : PoolStep codec maxInflight stream p stream' p')
    (h : Pool codec start weights names done stream p) :
    ∃ done', Pool codec start weights names done' stream' p' := by
  cases hstep with
  | submit hroom => exact ⟨done, h.submit⟩
  | work hinflight => exact ⟨done, h.work hinflight⟩
  | collect hinflight hdue => exact ⟨_, h.collect hinflight⟩

/-- A drained pool has collected every tensor. -/
theorem Pool.drained (hpooled : Pooled codec maxInflight stream p p')
    (h : Pool codec start weights names done stream p) :
    ∃ done', Pool codec start weights names done' [] p' ∧ p'.inflight = [] := by
  induction hpooled generalizing done with
  | drained hinflight => exact ⟨done, h, hinflight⟩
  | step hstep _ ih =>
    obtain ⟨done', h'⟩ := h.step hstep
    exact ih h'

end

/-! ## What a drained pool leaves -/

/-- A drained pool has collected the whole stream. -/
theorem pooled_pool (hpooled : Pooled codec maxInflight stream (beginEncode start) p)
    (hsent : ∀ x ∈ stream, x.2 = weights x.1) :
    ∃ done, Pool codec start weights (stream.map Prod.fst) done [] p ∧
      ∀ name, name ∈ done ↔ name ∈ stream.map Prod.fst := by
  obtain ⟨done, h, hinflight⟩ := (Pool.begun hsent).drained hpooled
  refine ⟨done, h, fun name => ?_⟩
  rw [h.names, hinflight]
  simp

/-- The snapshot has the new weights of the stream. -/
theorem pooled_snapshot (hpooled : Pooled codec maxInflight stream (beginEncode start) p)
    (hsent : ∀ x ∈ stream, x.2 = weights x.1) (name : String) :
    p.snapshot.get? name =
      if name ∈ stream.map Prod.fst then some (weights name) else start.get? name := by
  obtain ⟨done, h, hdone⟩ := pooled_pool hpooled hsent
  rw [h.snapshot]
  simp only [hdone]

/-- The delta is that of each tensor against the old snapshot. -/
theorem pooled_delta (hpooled : Pooled codec maxInflight stream (beginEncode start) p)
    (hsent : ∀ x ∈ stream, x.2 = weights x.1) (name : String) :
    p.delta.get? name = if name ∈ stream.map Prod.fst then
      ((start.get? name).bind (publishedDelta codec (weights name))).map Prod.fst else none := by
  obtain ⟨done, h, hdone⟩ := pooled_pool hpooled hsent
  rw [h.delta]
  simp only [hdone]

/-- The checksums are those of the published tensors. -/
theorem pooled_checksums (hpooled : Pooled codec maxInflight stream (beginEncode start) p)
    (hsent : ∀ x ∈ stream, x.2 = weights x.1) (name : String) :
    p.checksums.get? name = if name ∈ stream.map Prod.fst then
      ((start.get? name).bind (publishedDelta codec (weights name))).map Prod.snd else none := by
  obtain ⟨done, h, hdone⟩ := pooled_pool hpooled hsent
  rw [h.checksums]
  simp only [hdone]

end Miles.DiskDelta
