import Miles.ForStd.List
import Miles.Native.Tinker.Scheduler

/-!
# What the Tinker scheduler packs into a unit

Each request contributes a prefix of its unissued data to a batch, in order, and only if no
barrier stands before it; a barrier is the head of its queue.

## Key results

- `pickCompatible_prefix`: what a unit takes of one request
- `mem_pickCompatible`: where a unit's data come from
- `scheduleNext_batch`, `scheduleNext_barrier`: the two kinds of units
-/

namespace Miles.Tinker

namespace RequestScheduler

/-- The data of one request among others. -/
def ofRequest (modelId seqId : Nat) (ref : DatumRef) : Bool :=
  ref.modelId = modelId ∧ ref.command.seqId = seqId

theorem ofRequest_iff {modelId seqId : Nat} {ref : DatumRef} :
    ofRequest modelId seqId ref = true ↔ ref.modelId = modelId ∧ ref.command.seqId = seqId := by
  unfold ofRequest
  exact decide_eq_true_iff

/-! ## Unissued data -/

/-- What is unissued of a request. -/
theorem mem_unissued {q : ModelRequestQueue} {p : PendingRequest} {ref : DatumRef}
    (h : ref ∈ unissued q p) :
    ref.modelId = q.modelId ∧ ref.slot = q.slot ∧ ref.command = p.command ∧
      p.numIssuedDatums ≤ ref.localIndex ∧ ref.localIndex < p.datums.length := by
  obtain ⟨x, hx, rfl⟩ := List.mem_map.mp h
  obtain ⟨i, hi, rfl⟩ := List.mem_iff_getElem.mp hx
  simp only [List.length_drop, List.length_zipIdx] at hi
  refine ⟨rfl, rfl, rfl, ?_, ?_⟩
  · simp
  · simp
    omega

/-- The positions that were not issued yet. -/
theorem localIndex_unissued (q : ModelRequestQueue) (p : PendingRequest) :
    (unissued q p).map (·.localIndex) =
      List.range' p.numIssuedDatums (p.datums.length - p.numIssuedDatums) := by
  unfold unissued
  rw [List.map_map]
  apply List.ext_getElem
  · simp
  · intro i h₁ h₂
    simp

/-- The data of a request stand in order. -/
theorem pairwise_unissued (q : ModelRequestQueue) (p : PendingRequest) :
    (unissued q p).Pairwise refLe := by
  have hindex : ((unissued q p).map (·.localIndex)).Pairwise (· < ·) := by
    rw [localIndex_unissued]
    exact List.pairwise_lt_range'
  rw [List.pairwise_map] at hindex
  refine hindex.imp_of_mem fun {a b} ha hb hlt => .inr ⟨?_, Nat.le_of_lt hlt⟩
  rw [(mem_unissued ha).2.2.1, (mem_unissued hb).2.2.1]

/-! ## Ready data -/

variable {queues : List ModelRequestQueue}

theorem mem_readyDatums {ref : DatumRef}
    (h : ref ∈ readyDatums queues) :
    ∃ q ∈ queues, ∃ p ∈ q.openBatchRun, ref ∈ unissued q p := by
  obtain ⟨q, hq, href⟩ := List.mem_flatMap.mp h
  obtain ⟨p, hp, href⟩ := List.mem_flatMap.mp href
  exact ⟨q, hq, p, hp, href⟩

theorem openBatchRun_sublist (q : ModelRequestQueue) : q.openBatchRun.Sublist q.queue :=
  List.takeWhile_sublist _

/-- The ready data of one request: all of its unissued data, or none. -/
theorem filter_readyDatums
    (hids : (queues.map (·.modelId)).Nodup) {q : ModelRequestQueue} (hq : q ∈ queues)
    (hseqs : (q.queue.map (·.command.seqId)).Nodup) {p : PendingRequest} (hp : p ∈ q.queue) :
    (readyDatums queues).filter (ofRequest q.modelId p.command.seqId) = [] ∨
    (readyDatums queues).filter (ofRequest q.modelId p.command.seqId) = unissued q p := by
  have hqueue : (readyDatums queues).filter (ofRequest q.modelId p.command.seqId) =
      (q.openBatchRun.flatMap (unissued q)).filter (ofRequest q.modelId p.command.seqId) := by
    unfold readyDatums
    rw [List.filter_flatMap]
    refine List.flatMap_eq_of_unique hids hq fun q' _ hne => ?_
    apply List.filter_eq_nil_iff.mpr
    intro ref href hof
    obtain ⟨p', _, href⟩ := List.mem_flatMap.mp href
    exact hne ((mem_unissued href).1.symm.trans (ofRequest_iff.mp hof).1)
  rw [hqueue, List.filter_flatMap]
  by_cases hrun : p ∈ q.openBatchRun
  · right
    have hrunSeqs := hseqs.sublist ((openBatchRun_sublist q).map fun p => p.command.seqId)
    rw [List.flatMap_eq_of_unique hrunSeqs hrun]
    · apply List.filter_eq_self.mpr
      intro ref href
      obtain ⟨hid, -, hcommand, -⟩ := mem_unissued href
      exact ofRequest_iff.mpr ⟨hid, by rw [hcommand]⟩
    · intro p' _ hne
      apply List.filter_eq_nil_iff.mpr
      intro ref href hof
      obtain ⟨-, -, hcommand, -⟩ := mem_unissued href
      refine hne ?_
      rw [← hcommand]
      exact (ofRequest_iff.mp hof).2
  · left
    apply List.flatMap_eq_nil_iff.mpr
    intro p' hp'
    apply List.filter_eq_nil_iff.mpr
    intro ref href hof
    obtain ⟨-, -, hcommand, -⟩ := mem_unissued href
    have hseq : p'.command.seqId = p.command.seqId := by
      rw [← hcommand]
      exact (ofRequest_iff.mp hof).2
    have hsame := List.inj_on_of_nodup_map hseqs ((openBatchRun_sublist q).subset hp') hp hseq
    exact hrun (hsame ▸ hp')

/-! ## Picking -/

theorem pickWithin_prefix (budget tokens : Nat) (refs : List DatumRef) :
    pickWithin budget tokens refs <+: refs := by
  induction refs generalizing tokens with
  | nil => exact List.nil_prefix
  | cons ref refs ih =>
    unfold pickWithin
    split
    · exact List.nil_prefix
    · exact List.cons_prefix_cons.mpr ⟨rfl, ih _⟩

/-- A unit takes the first data that fit. -/
theorem pick_isPrefix (budget : Nat) (refs : List DatumRef) : pick budget refs <+: refs := by
  cases refs with
  | nil => exact List.nil_prefix
  | cons ref refs => exact List.cons_prefix_cons.mpr ⟨rfl, pickWithin_prefix _ _ _⟩

/-- The data of a unit are ready data. -/
theorem mem_pickCompatible {budget : Nat} {seed ref : DatumRef} {datums : List DatumRef}
    (h : ref ∈ pickCompatible budget seed datums) : ref ∈ datums := by
  have hsorted := (pick_isPrefix budget _).subset h
  exact (List.mem_filter.mp ((List.mem_insertionSort _).mp hsorted)).1

/-- A unit takes a prefix of a request's unissued data. -/
theorem pickCompatible_prefix
    (hids : (queues.map (·.modelId)).Nodup) {q : ModelRequestQueue} (hq : q ∈ queues)
    (hseqs : (q.queue.map (·.command.seqId)).Nodup) {p : PendingRequest} (hp : p ∈ q.queue)
    (budget : Nat) (seed : DatumRef) :
    (pickCompatible budget seed (readyDatums queues)).filter
      (ofRequest q.modelId p.command.seqId) <+: unissued q p := by
  have hready : (readyDatums queues).filter (ofRequest q.modelId p.command.seqId) <+:
      unissued q p := by
    obtain h | h := filter_readyDatums hids hq hseqs hp
    · rw [h]
      exact List.nil_prefix
    · rw [h]
  -- a request's data are compatible with the seed all together or not at all
  have hcompatible : ((readyDatums queues).filter
      (·.command.packKey = seed.command.packKey)).filter
        (ofRequest q.modelId p.command.seqId) <+: unissued q p := by
    rw [List.filter_comm]
    by_cases hkey : p.command.packKey = seed.command.packKey
    · rw [List.filter_eq_self.mpr]
      · exact hready
      · intro ref href
        rw [(mem_unissued (hready.subset href)).2.2.1]
        exact decide_eq_true hkey
    · rw [List.filter_eq_nil_iff.mpr]
      · exact List.nil_prefix
      · intro ref href hof
        rw [(mem_unissued (hready.subset href)).2.2.1] at hof
        exact hkey (of_decide_eq_true hof)
  have hpairwise := (pairwise_unissued q p).sublist hcompatible.sublist
  have hsorted := List.filter_insertionSort refLe _ hpairwise
  have hpicked := (pick_isPrefix budget (((readyDatums queues).filter
    (·.command.packKey = seed.command.packKey)).insertionSort refLe)).filter
      (ofRequest q.modelId p.command.seqId)
  rw [hsorted] at hpicked
  exact hpicked.trans hcompatible

/-! ## Units -/

/-- A batch is packed around a ready datum. -/
theorem scheduleNext_batch {budget : Nat} {unit : BatchUnit}
    (h : scheduleNext budget queues = some (.batch unit)) :
    ∃ seed ∈ readyDatums queues, unit = packBatch budget seed (readyDatums queues) := by
  unfold scheduleNext at h
  simp only at h
  split at h
  · cases h
  · cases h
  · next seed hseed _ =>
    cases h
    exact ⟨seed, List.argmin_mem hseed, rfl⟩
  · next seed barrier hseed _ =>
    split at h
    · cases h
    · cases h
      exact ⟨seed, List.argmin_mem hseed, rfl⟩

/-- A ready barrier is at the head of its queue. -/
theorem mem_readyBarriers {entry : BarrierEntry}
    (h : entry ∈ readyBarriers queues) :
    ∃ q ∈ queues, ∃ p rest, q.queue = p :: rest ∧ p.isBatchOp = false ∧
      entry = { modelId := q.modelId, slot := q.slot, command := p.command } := by
  obtain ⟨q, hq, hentry⟩ := List.mem_filterMap.mp h
  obtain ⟨p, hp, rfl⟩ := Option.map_eq_some_iff.mp hentry
  obtain ⟨hhead, hbarrier⟩ := Option.filter_eq_some_iff.mp hp
  obtain ⟨rest, hqueue⟩ := List.head?_eq_some_iff.mp hhead
  exact ⟨q, hq, p, rest, hqueue, by simpa using (Bool.and_eq_true_iff.mp hbarrier).1, rfl⟩

/-- A barrier unit has ready barriers of different models. -/
theorem scheduleNext_barrier {budget : Nat}
    {unit : BarrierUnit} (h : scheduleNext budget queues = some (.barrier unit)) :
    unit.entries.Sublist (readyBarriers queues) := by
  have hmerge : ∀ seed ∈ readyBarriers queues,
      (mergeBarriers seed (readyBarriers queues)).entries.Sublist (readyBarriers queues) := by
    intro seed hseed
    show (if seed.command.op = .optimStep then _ else [seed]).Sublist _
    split
    · exact List.filter_sublist
    · exact List.singleton_sublist.mpr hseed
  unfold scheduleNext at h
  simp only at h
  split at h
  · cases h
  · next seed _ hseed =>
    cases h
    exact hmerge seed (List.argmin_mem hseed)
  · cases h
  · next datum seed _ hseed =>
    split at h
    · cases h
      exact hmerge seed (List.argmin_mem hseed)
    · cases h

end RequestScheduler

end Miles.Tinker
