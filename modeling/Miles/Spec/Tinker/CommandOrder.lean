import Miles.Spec.Tinker.Packing
import Miles.Spec.Tinker.Slots

/-!
# Commands of a model execute in order

For each model the dispatcher issues the data of a batch command in order, a barrier only after
all earlier commands have finished, and nothing of a later command before the barrier finishes.
-/

namespace Miles.Tinker

open RequestScheduler (ofRequest ofRequest_iff)

/-! ## What the trace says -/

namespace TraceEvent

/-- The data handed to the trainer. -/
def refs : TraceEvent → List DatumRef
  | batchIssued refs => refs
  | _ => []

/-- The barriers handed to the trainer. -/
def barriers : TraceEvent → List BarrierEntry
  | barrierIssued entries => entries
  | _ => []

/-- The command that was admitted. -/
def submission : TraceEvent → Option Command
  | submitted command => some command
  | _ => none

end TraceEvent

/-- One of the barriers of a unit belongs to this sequence number. -/
def BarrierEntry.isOf (modelId seqId : Nat) (entry : BarrierEntry) : Bool :=
  entry.modelId = modelId ∧ entry.command.seqId = seqId

theorem BarrierEntry.isOf_iff {modelId seqId : Nat} {entry : BarrierEntry} :
    entry.isOf modelId seqId = true ↔ entry.modelId = modelId ∧ entry.command.seqId = seqId := by
  unfold isOf
  exact decide_eq_true_iff

/-- The positions of a command's data, in the order in which they were issued. -/
def issued (modelId seqId : Nat) (trace : List TraceEvent) : List Nat :=
  ((trace.flatMap (·.refs)).filter (ofRequest modelId seqId)).map (·.localIndex)

/-- How often a command was issued as a barrier. -/
def barrierCount (modelId seqId : Nat) (trace : List TraceEvent) : Nat :=
  (trace.flatMap (·.barriers)).countP (·.isOf modelId seqId)

/-- The admitted commands. -/
def submissions (trace : List TraceEvent) : List Command := trace.filterMap (·.submission)

/-- The command has left its queue. -/
def Finished (trace : List TraceEvent) (modelId seqId : Nat) : Prop :=
  ∃ outcome, TraceEvent.finished modelId seqId outcome ∈ trace

/-- A command was admitted under this sequence number. -/
def Submitted (trace : List TraceEvent) (modelId seqId : Nat) (command : Command) : Prop :=
  command ∈ submissions trace ∧ command.modelId = modelId ∧ command.seqId = seqId

theorem Finished.mono {t t' : List TraceEvent} {modelId seqId : Nat}
    (h : Finished t modelId seqId) (hsub : t ⊆ t') : Finished t' modelId seqId :=
  h.imp fun _ hmem => hsub hmem

/-- What an event issues comes after what was issued before. -/
theorem issued_concat (modelId seqId : Nat) (t : List TraceEvent) (e : TraceEvent) :
    issued modelId seqId (t ++ [e]) = issued modelId seqId t ++
      (e.refs.filter (ofRequest modelId seqId)).map (·.localIndex) := by
  unfold issued
  rw [List.flatMap_append, List.filter_append, List.map_append, List.flatMap_singleton]

theorem barrierCount_concat (modelId seqId : Nat) (t : List TraceEvent) (e : TraceEvent) :
    barrierCount modelId seqId (t ++ [e]) =
      barrierCount modelId seqId t + e.barriers.countP (·.isOf modelId seqId) := by
  unfold barrierCount
  rw [List.flatMap_append, List.countP_append, List.flatMap_singleton]

theorem submissions_append (t t' : List TraceEvent) :
    submissions (t ++ t') = submissions t ++ submissions t' := List.filterMap_append

theorem submissions_subset {t t' : List TraceEvent} (hsub : t ⊆ t') :
    submissions t ⊆ submissions t' := by
  intro c hc
  obtain ⟨e, he, hcommand⟩ := List.mem_filterMap.mp hc
  exact List.mem_filterMap.mpr ⟨e, hsub he, hcommand⟩

/-! ## The order within a queue -/

/-- How far a queued request has got. -/
structure RequestOrder (t : List TraceEvent) (modelId : Nat) (p : PendingRequest) : Prop where
  owner : p.command.modelId = modelId
  submitted : p.command ∈ submissions t
  issued : issued modelId p.command.seqId t = List.range p.numIssuedDatums
  issuedLe : p.numIssuedDatums ≤ p.datums.length

/-- The queue holds the commands up to `lastEnqueuedSeqId` that have not finished, in order. -/
structure QueueOrder (t : List TraceEvent) (q : ModelRequestQueue) : Prop where
  sorted : (q.queue.map (·.command.seqId)).Pairwise (· < ·)
  positive : ∀ p ∈ q.queue, 1 ≤ p.command.seqId
  bounded : ∀ p ∈ q.queue, p.command.seqId ≤ q.lastEnqueuedSeqId
  covered : ∀ seqId, 1 ≤ seqId → seqId ≤ q.lastEnqueuedSeqId →
    (∃ p ∈ q.queue, p.command.seqId = seqId) ∨ Finished t q.modelId seqId
  upTo : ∀ seqId, 1 ≤ seqId → seqId ≤ q.lastEnqueuedSeqId →
    ∃ command, Submitted t q.modelId seqId command
  buffered : ∀ c ∈ q.pendingBySeq,
    c.modelId = q.modelId ∧ c ∈ submissions t ∧ q.lastEnqueuedSeqId < c.seqId
  later : ∀ seqId, q.lastEnqueuedSeqId < seqId →
    Tinker.issued q.modelId seqId t = [] ∧ barrierCount q.modelId seqId t = 0
  requests : ∀ p ∈ q.queue, RequestOrder t q.modelId p

variable {q : ModelRequestQueue} {t : List TraceEvent} {e : TraceEvent}

/-- A queue has no sequence id twice. -/
theorem QueueOrder.seqIds_nodup
    (h : QueueOrder t q) : (q.queue.map (·.command.seqId)).Nodup :=
  h.sorted.imp fun hlt => Nat.ne_of_lt hlt

/-- A longer trace that issues nothing of this model keeps the order. -/
theorem QueueOrder.mono {t t' : List TraceEvent} (h : QueueOrder t q)
    (hsub : t ⊆ t') (hissued : ∀ seqId, issued q.modelId seqId t' = issued q.modelId seqId t)
    (hbarriers : ∀ seqId, q.lastEnqueuedSeqId < seqId →
      barrierCount q.modelId seqId t' = barrierCount q.modelId seqId t) : QueueOrder t' q where
  sorted := h.sorted
  positive := h.positive
  bounded := h.bounded
  covered seqId h₁ h₂ := (h.covered seqId h₁ h₂).imp id fun hfin => hfin.mono hsub
  upTo seqId h₁ h₂ := (h.upTo seqId h₁ h₂).imp fun _ hc => ⟨submissions_subset hsub hc.1, hc.2⟩
  buffered c hc := ⟨(h.buffered c hc).1, submissions_subset hsub (h.buffered c hc).2.1,
    (h.buffered c hc).2.2⟩
  later seqId hlt := by
    rw [hissued, hbarriers seqId hlt]
    exact h.later seqId hlt
  requests p hp := ⟨(h.requests p hp).owner, submissions_subset hsub (h.requests p hp).submitted,
    (hissued _).trans (h.requests p hp).issued, (h.requests p hp).issuedLe⟩

theorem RequestOrder.ofCommand {modelId : Nat} {c : Command}
    (howner : c.modelId = modelId) (hsub : c ∈ submissions t)
    (hissued : Tinker.issued modelId c.seqId t = []) :
    RequestOrder t modelId (.ofCommand c) := by
  unfold PendingRequest.ofCommand
  split
  · exact ⟨howner, hsub, hissued, Nat.zero_le _⟩
  · exact ⟨howner, hsub, hissued, Nat.zero_le _⟩

@[simp] theorem ofCommand_command (c : Command) : (PendingRequest.ofCommand c).command = c := by
  unfold PendingRequest.ofCommand
  split <;> rfl

/-- Moving buffered commands to the queue keeps the order. -/
theorem QueueOrder.enqueueContiguous
    (h : QueueOrder t q) (fuel : Nat) : QueueOrder t (q.enqueueContiguous fuel) := by
  induction fuel generalizing q with
  | zero => exact h
  | succ fuel ih =>
    unfold ModelRequestQueue.enqueueContiguous
    split
    · exact h
    · next c hfind =>
      have hfound := List.find?_some hfind
      have hseq : c.seqId = q.lastEnqueuedSeqId + 1 := of_decide_eq_true hfound
      obtain ⟨howner, hsub, -⟩ := h.buffered c (List.mem_of_find?_eq_some hfind)
      -- one command moves: it has the next sequence number, all queued ones have smaller ones
      apply ih
      constructor
      · show ((q.queue ++ [_]).map fun p : PendingRequest => p.command.seqId).Pairwise (· < ·)
        rw [List.map_append, List.pairwise_append]
        refine ⟨h.sorted, List.pairwise_singleton .., ?_⟩
        intro a ha b hb
        obtain ⟨p, hp, rfl⟩ := List.mem_map.mp ha
        rw [List.map_singleton, ofCommand_command, List.mem_singleton] at hb
        have hle := h.bounded p hp
        omega
      · intro p hp
        obtain hp | hp := List.mem_append.mp hp
        · exact h.positive p hp
        · rw [List.mem_singleton.mp hp, ofCommand_command]
          omega
      · intro p hp
        show p.command.seqId ≤ q.lastEnqueuedSeqId + 1
        obtain hp | hp := List.mem_append.mp hp
        · exact Nat.le_succ_of_le (h.bounded p hp)
        · rw [List.mem_singleton.mp hp, ofCommand_command]
          omega
      · intro seqId h₁ h₂
        have hcases : seqId ≤ q.lastEnqueuedSeqId ∨ seqId = q.lastEnqueuedSeqId + 1 := by
          have hle : seqId ≤ q.lastEnqueuedSeqId + 1 := h₂
          omega
        obtain hle | rfl := hcases
        · obtain ⟨p, hp, hpseq⟩ | hfin := h.covered seqId h₁ hle
          · exact .inl ⟨p, List.mem_append_left _ hp, hpseq⟩
          · exact .inr hfin
        · refine .inl ⟨_, List.mem_append_right _ (List.mem_singleton.mpr rfl), ?_⟩
          rw [ofCommand_command, hseq]
      · intro seqId h₁ h₂
        have hcases : seqId ≤ q.lastEnqueuedSeqId ∨ seqId = q.lastEnqueuedSeqId + 1 := by
          have hle : seqId ≤ q.lastEnqueuedSeqId + 1 := h₂
          omega
        obtain hle | rfl := hcases
        · exact h.upTo seqId h₁ hle
        · exact ⟨c, hsub, howner, hseq⟩
      · intro c' hc'
        show _ ∧ _ ∧ q.lastEnqueuedSeqId + 1 < c'.seqId
        obtain ⟨hmem, hne⟩ := List.mem_filter.mp hc'
        obtain ⟨howner', hsub', hlt⟩ := h.buffered c' hmem
        have hne : c'.seqId ≠ q.lastEnqueuedSeqId + 1 := of_decide_eq_true hne
        exact ⟨howner', hsub', by omega⟩
      · intro seqId hlt
        have hlt : q.lastEnqueuedSeqId + 1 < seqId := hlt
        exact h.later seqId (by omega)
      · intro p hp
        obtain hp | hp := List.mem_append.mp hp
        · exact h.requests p hp
        · rw [List.mem_singleton.mp hp]
          refine .ofCommand howner hsub (h.later c.seqId ?_).1
          omega

/-- A new command of a later sequence number keeps the order. -/
theorem QueueOrder.submit (h : QueueOrder t q)
    {c : Command} (howner : c.modelId = q.modelId) (hsub : c ∈ submissions t)
    (hlater : q.lastEnqueuedSeqId < c.seqId) : QueueOrder t (q.submit c) := by
  unfold ModelRequestQueue.submit
  apply QueueOrder.enqueueContiguous
  refine ⟨h.sorted, h.positive, h.bounded, h.covered, h.upTo, ?_, h.later, h.requests⟩
  intro c' hc'
  obtain hc' | hc' := List.mem_append.mp hc'
  · exact h.buffered c' (List.mem_filter.mp hc').1
  · rw [List.mem_singleton.mp hc']
    exact ⟨howner, hsub, hlater⟩

/-- A request that leaves the queue has finished. -/
theorem QueueOrder.finish (h : QueueOrder t q)
    {seqId : Nat} (hfin : Finished t q.modelId seqId) : QueueOrder t (q.finish seqId) where
  sorted := h.sorted.sublist (List.filter_sublist.map _)
  positive p hp := h.positive p (List.mem_filter.mp hp).1
  bounded p hp := h.bounded p (List.mem_filter.mp hp).1
  covered seqId' h₁ h₂ := by
    obtain ⟨p, hp, hpseq⟩ | hfin' := h.covered seqId' h₁ h₂
    · by_cases heq : seqId' = seqId
      · exact .inr (heq ▸ hfin)
      · refine .inl ⟨p, List.mem_filter.mpr ⟨hp, decide_eq_true ?_⟩, hpseq⟩
        exact fun h' => heq (hpseq.symm.trans h')
    · exact .inr hfin'
  upTo := h.upTo
  buffered := h.buffered
  later := h.later
  requests p hp := h.requests p (List.mem_filter.mp hp).1

/-- Changing the outputs of a request keeps the order. -/
theorem QueueOrder.modify (h : QueueOrder t q)
    {seqId : Nat} {f : PendingRequest → PendingRequest}
    (hf : ∀ p, (f p).command = p.command ∧ (f p).datums = p.datums ∧
      (f p).numIssuedDatums = p.numIssuedDatums) : QueueOrder t (q.modify seqId f) := by
  have hcommand : ∀ p, (if p.command.seqId = seqId then f p else p).command = p.command := by
    intro p
    split
    · exact (hf p).1
    · rfl
  have hseqs : (q.modify seqId f).queue.map (·.command.seqId) =
      q.queue.map (·.command.seqId) := by
    show (q.queue.map _).map _ = _
    rw [List.map_map]
    apply List.map_congr_left
    intro p _
    exact congrArg Command.seqId (hcommand p)
  have hmem : ∀ p' ∈ (q.modify seqId f).queue, ∃ p ∈ q.queue, p'.command = p.command ∧
      p'.datums = p.datums ∧ p'.numIssuedDatums = p.numIssuedDatums := by
    intro p' hp'
    obtain ⟨p, hp, rfl⟩ := List.mem_map.mp hp'
    refine ⟨p, hp, hcommand p, ?_, ?_⟩
    · split
      · exact (hf p).2.1
      · rfl
    · split
      · exact (hf p).2.2
      · rfl
  constructor
  · rw [hseqs]
    exact h.sorted
  · intro p' hp'
    obtain ⟨p, hp, heq, -⟩ := hmem p' hp'
    rw [heq]
    exact h.positive p hp
  · intro p' hp'
    obtain ⟨p, hp, heq, -⟩ := hmem p' hp'
    rw [heq]
    exact h.bounded p hp
  · intro seqId' h₁ h₂
    obtain ⟨p, hp, hpseq⟩ | hfin := h.covered seqId' h₁ h₂
    · refine .inl ⟨_, List.mem_map.mpr ⟨p, hp, rfl⟩, ?_⟩
      rw [hcommand]
      exact hpseq
    · exact .inr hfin
  · exact h.upTo
  · exact h.buffered
  · exact h.later
  · intro p' hp'
    obtain ⟨p, hp, heq, hdatums, hnum⟩ := hmem p' hp'
    have hreq := h.requests p hp
    refine ⟨heq ▸ hreq.owner, heq ▸ hreq.submitted, ?_, ?_⟩
    · rw [heq, hnum]
      exact hreq.issued
    · rw [hdatums, hnum]
      exact hreq.issuedLe

/-! ## The order of a whole trace -/

/-- A barrier is issued after all earlier commands of its model have finished. -/
def BarrierRule (pre : List TraceEvent) (e : TraceEvent) : Prop :=
  ∀ entry ∈ e.barriers, ∀ seqId, 1 ≤ seqId → seqId < entry.command.seqId →
    Finished pre entry.modelId seqId

/-- A datum is issued after all earlier commands of its model were admitted, and after those of
    them that are barriers have finished. -/
def BatchRule (pre : List TraceEvent) (e : TraceEvent) : Prop :=
  ∀ ref ∈ e.refs, ∀ seqId, 1 ≤ seqId → seqId < ref.command.seqId →
    ∃ command, Submitted pre ref.modelId seqId command ∧
      (command.op.isBatch = false → Finished pre ref.modelId seqId)

/-- The key under which a command is submitted. -/
def Command.key (c : Command) : Nat × Nat := (c.modelId, c.seqId)

structure TraceOrder (t : List TraceEvent) : Prop where
  barriers : t.AlwaysBefore BarrierRule
  batches : t.AlwaysBefore BatchRule
  inOrder : ∀ modelId seqId, ∃ k, issued modelId seqId t = List.range k
  once : ((submissions t).map (·.key)).Nodup
  positive : ∀ c ∈ submissions t, 1 ≤ c.seqId

/-- Two admitted commands of one sequence number are the same. -/
theorem TraceOrder.submitted_unique (h : TraceOrder t) {c c' : Command}
    (hc : c ∈ submissions t) (hc' : c' ∈ submissions t) (hkey : c.key = c'.key) : c = c' :=
  List.inj_on_of_nodup_map h.once hc hc' hkey

/-- An event that hands nothing to the trainer and admits no command. -/
def TraceEvent.Quiet (e : TraceEvent) : Prop :=
  e.refs = [] ∧ e.barriers = [] ∧ e.submission = none

theorem TraceEvent.Quiet.submissions (h : e.Quiet) (t : List TraceEvent) :
    submissions (t ++ [e]) = Tinker.submissions t := by
  rw [submissions_append]
  show _ ++ List.filterMap _ [e] = _
  rw [List.filterMap_cons_none h.2.2, List.filterMap_nil, List.append_nil]

theorem TraceEvent.Quiet.issued (h : e.Quiet) (modelId seqId : Nat)
    (t : List TraceEvent) : issued modelId seqId (t ++ [e]) = Tinker.issued modelId seqId t := by
  rw [issued_concat, h.1]
  exact List.append_nil _

theorem TraceEvent.Quiet.barrierCount (h : e.Quiet) (modelId seqId : Nat)
    (t : List TraceEvent) :
    barrierCount modelId seqId (t ++ [e]) = Tinker.barrierCount modelId seqId t := by
  rw [barrierCount_concat, h.2.1]
  rfl

/-- A quiet event keeps the order of the trace. -/
theorem TraceOrder.quiet (h : TraceOrder t)
    (he : e.Quiet) : TraceOrder (t ++ [e]) where
  barriers := h.barriers.concat fun entry hentry => by
    rw [he.2.1] at hentry
    exact absurd hentry List.not_mem_nil
  batches := h.batches.concat fun ref href => by
    rw [he.1] at href
    exact absurd href List.not_mem_nil
  inOrder modelId seqId := by
    rw [he.issued]
    exact h.inOrder modelId seqId
  once := by
    rw [he.submissions]
    exact h.once
  positive := by
    rw [he.submissions]
    exact h.positive

theorem QueueOrder.quiet (h : QueueOrder t q)
    (he : e.Quiet) : QueueOrder (t ++ [e]) q :=
  h.mono (List.subset_append_left _ _) (fun seqId => he.issued q.modelId seqId t)
    fun seqId _ => he.barrierCount q.modelId seqId t

namespace Service

variable {config : GatewayConfig} {s s' : Service}

/-- The queues are in order, the trace is, and each admitted command of a live model is known
    to the model. -/
structure ServiceOrder (s : Service) : Prop where
  registry : s.Registry
  queues : ∀ q ∈ s.queues, QueueOrder s.trace q
  trace : TraceOrder s.trace
  /-- nothing is recorded of models to come -/
  unknown : ∀ modelId, s.nextId ≤ modelId → ∀ seqId,
    issued modelId seqId s.trace = [] ∧ barrierCount modelId seqId s.trace = 0
  known : ∀ c ∈ submissions s.trace, c.modelId < s.nextId
  dedup : ∀ c ∈ submissions s.trace, ∀ r ∈ s.models, r.modelId = c.modelId →
    c.seqId ∈ r.requestIdBySeq.map (·.1)

theorem ServiceOrder.init (config : GatewayConfig) : ServiceOrder (Tinker.init config) where
  registry := .init config
  queues _ hq := absurd hq List.not_mem_nil
  trace := {
    barriers := List.alwaysBefore_nil _
    batches := List.alwaysBefore_nil _
    inOrder := fun _ _ => ⟨0, rfl⟩
    once := .nil
    positive := fun _ hc => absurd hc List.not_mem_nil }
  unknown _ _ _ := ⟨rfl, rfl⟩
  known _ hc := absurd hc List.not_mem_nil
  dedup _ hc := absurd hc List.not_mem_nil

theorem Registry.queueIds (h : s.Registry) : (s.queues.map (·.modelId)).Nodup := by
  have hids := congrArg (List.map Prod.fst) h.queues
  rw [List.map_map, List.map_map] at hids
  exact (congrArg List.Nodup hids).mpr h.ids

/-- Each queue belongs to a live model with its slot. -/
theorem Registry.model_of_queue (h : s.Registry) (hq : q ∈ s.queues) :
    ∃ r ∈ s.models, r.modelId = q.modelId ∧ r.slot = q.slot := by
  have hmem : (q.modelId, q.slot) ∈ s.models.map fun r => (r.modelId, r.slot) :=
    h.queues ▸ List.mem_map.mpr ⟨q, hq, rfl⟩
  obtain ⟨r, hr, heq⟩ := List.mem_map.mp hmem
  exact ⟨r, hr, congrArg Prod.fst heq, congrArg Prod.snd heq⟩

theorem Registry.queue_fresh (h : s.Registry) (hq : q ∈ s.queues) :
    q.modelId < s.nextId := by
  obtain ⟨r, hr, hid, -⟩ := h.model_of_queue hq
  exact hid ▸ h.fresh r hr

/-- A state with the same models, queues and trace has the same order. -/
theorem ServiceOrder.same (h : s.ServiceOrder) (hregistry : s'.Registry)
    (hmodels : s'.models = s.models) (hqueues : s'.queues = s.queues)
    (htrace : s'.trace = s.trace) (hid : s.nextId ≤ s'.nextId) : s'.ServiceOrder where
  registry := hregistry
  queues q hq := htrace ▸ h.queues q (hqueues ▸ hq)
  trace := htrace ▸ h.trace
  unknown modelId hle := htrace ▸ h.unknown modelId (Nat.le_trans hid hle)
  known c hc := Nat.lt_of_lt_of_le (h.known c (htrace ▸ hc)) hid
  dedup c hc r hr := h.dedup c (htrace ▸ hc) r (hmodels ▸ hr)

/-- A quiet event keeps the order. -/
theorem ServiceOrder.quiet (h : s.ServiceOrder) (he : e.Quiet) :
    (s.record e).ServiceOrder where
  registry := ⟨h.registry.ids, h.registry.fresh, h.registry.queues⟩
  queues q hq := (h.queues q hq).quiet he
  trace := h.trace.quiet he
  unknown modelId hle seqId := by
    show issued modelId seqId (s.trace ++ [e]) = [] ∧
      barrierCount modelId seqId (s.trace ++ [e]) = 0
    rw [he.issued, he.barrierCount]
    exact h.unknown modelId hle seqId
  known := by
    show ∀ c ∈ submissions (s.trace ++ [e]), _
    rw [he.submissions]
    exact h.known
  dedup := by
    show ∀ c ∈ submissions (s.trace ++ [e]), _
    rw [he.submissions]
    exact h.dedup

/-- Changing one queue keeps the order if it keeps it in the queue. -/
theorem ServiceOrder.modifyQueue (h : s.ServiceOrder) {modelId : Nat}
    {f : ModelRequestQueue → ModelRequestQueue}
    (hkey : ∀ q, ((f q).modelId, (f q).slot) = (q.modelId, q.slot))
    (hf : ∀ q ∈ s.queues, q.modelId = modelId → QueueOrder s.trace (f q)) :
    (s.modifyQueue modelId f).ServiceOrder where
  registry := h.registry.modifyQueue hkey
  queues q hq := by
    obtain ⟨q', hq', rfl⟩ := List.mem_map.mp hq
    split
    · next heq => exact hf q' hq' heq
    · exact h.queues q' hq'
  trace := h.trace
  unknown := h.unknown
  known := h.known
  dedup := h.dedup

/-- Changing a model keeps the order if it keeps its sequence numbers. -/
theorem ServiceOrder.modifyModel (h : s.ServiceOrder) {modelId : Nat}
    {f : ModelRecord → ModelRecord}
    (hkey : ∀ r, ((f r).modelId, (f r).slot) = (r.modelId, r.slot))
    (hf : ∀ r ∈ s.models, r.modelId = modelId → ∀ seqId ∈ r.requestIdBySeq.map (·.1),
      seqId ∈ (f r).requestIdBySeq.map (·.1)) : (s.modifyModel modelId f).ServiceOrder where
  registry := h.registry.modifyModel hkey
  queues := h.queues
  trace := h.trace
  unknown := h.unknown
  known := h.known
  dedup c hc r hr hid := by
    obtain ⟨r', hr', rfl⟩ := List.mem_map.mp hr
    split at hid
    · next heq =>
      rw [if_pos heq]
      have hid' : (f r').modelId = r'.modelId := congrArg Prod.fst (hkey r')
      exact hf r' hr' heq _ (h.dedup c hc r' hr' (hid'.symm.trans hid))
    · next hne =>
      rw [if_neg hne]
      exact h.dedup c hc r' hr' hid

/-! ## Issuing -/

/-- Where a picked datum comes from. -/
theorem mem_packBatch {budget : Nat} {seed ref : DatumRef} {queues : List ModelRequestQueue}
    (h : ref ∈ RequestScheduler.pickCompatible budget seed
      (RequestScheduler.readyDatums queues)) :
    ∃ q ∈ queues, ∃ p ∈ q.openBatchRun, ref.modelId = q.modelId ∧ ref.slot = q.slot ∧
      ref.command = p.command ∧ p.numIssuedDatums ≤ ref.localIndex ∧
        ref.localIndex < p.datums.length := by
  obtain ⟨q, hq, p, hp, href⟩ :=
    RequestScheduler.mem_readyDatums (RequestScheduler.mem_pickCompatible h)
  exact ⟨q, hq, p, hp, RequestScheduler.mem_unissued href⟩

/-- The data of one request, in the order of the trainer call: those that follow the ones
    issued before. -/
theorem issued_request (h : s.ServiceOrder) (hq : q ∈ s.queues)
    {p : PendingRequest} (hp : p ∈ q.queue) (budget : Nat) (seed : DatumRef)
    {refs : List DatumRef}
    (hrefs : refs = RequestScheduler.pickCompatible budget seed
      (RequestScheduler.readyDatums s.queues)) :
    let k := refs.countP (ofRequest q.modelId p.command.seqId)
    ((slotOrder refs).filter (ofRequest q.modelId p.command.seqId)).map (·.localIndex) =
      List.range' p.numIssuedDatums k ∧ p.numIssuedDatums + k ≤ p.datums.length := by
  have hpicked := RequestScheduler.pickCompatible_prefix h.registry.queueIds hq
    (h.queues q hq).seqIds_nodup hp budget seed
  rw [← hrefs] at hpicked
  have hle := (h.queues q hq).requests p hp |>.issuedLe
  -- one request has one slot, so the sort by slots keeps its data in order
  have hslots : (refs.filter (ofRequest q.modelId p.command.seqId)).Pairwise
      fun a b => a.slot ≤ b.slot := by
    refine List.pairwise_iff_forall_sublist.mpr fun {a b} hab => ?_
    have ha := RequestScheduler.mem_unissued
      (hpicked.subset (hab.subset (show a ∈ [a, b] by simp)))
    have hb := RequestScheduler.mem_unissued
      (hpicked.subset (hab.subset (show b ∈ [a, b] by simp)))
    exact Nat.le_of_eq (ha.2.1.trans hb.2.1.symm)
  intro k
  have hk : (refs.filter (ofRequest q.modelId p.command.seqId)).length = k :=
    List.countP_eq_length_filter.symm
  have hpre := hpicked.map (·.localIndex)
  rw [RequestScheduler.localIndex_unissued] at hpre
  have hlen := hpre.length_le
  rw [List.length_map, hk, List.length_range'] at hlen
  refine ⟨?_, by omega⟩
  unfold slotOrder
  rw [List.filter_insertionSort _ _ hslots, List.prefix_iff_eq_take.mp hpre, List.length_map, hk,
    List.take_range'_of_length_ge hlen]

/-- What is issued of sequence numbers that no queue holds. -/
theorem issued_none {modelId seqId budget : Nat} {seed : DatumRef} {refs : List DatumRef}
    (hrefs : refs = RequestScheduler.pickCompatible budget seed
      (RequestScheduler.readyDatums s.queues))
    (hnone : ∀ q ∈ s.queues, q.modelId = modelId → ∀ p ∈ q.queue, p.command.seqId ≠ seqId) :
    (slotOrder refs).filter (ofRequest modelId seqId) = [] := by
  apply List.filter_eq_nil_iff.mpr
  intro ref href hof
  have hmem : ref ∈ refs := (List.mem_insertionSort _).mp href
  rw [hrefs] at hmem
  obtain ⟨q, hq, p, hp, hid, -, hcommand, -⟩ := mem_packBatch hmem
  obtain ⟨hof₁, hof₂⟩ := ofRequest_iff.mp hof
  refine hnone q hq (hid.symm.trans hof₁) p ?_ ?_
  · exact (RequestScheduler.openBatchRun_sublist q).subset hp
  · rw [← hcommand]
    exact hof₂

/-- The queue after some of its data were issued. -/
def markedQueue (picked : List DatumRef) (q : ModelRequestQueue) : ModelRequestQueue :=
  { q with queue := q.queue.map fun p => { p with
      numIssuedDatums := p.numIssuedDatums +
        picked.countP (ofRequest q.modelId p.command.seqId) } }

theorem markIssued_eq (picked : List DatumRef) (queues : List ModelRequestQueue) :
    RequestScheduler.markIssued picked queues = queues.map (markedQueue picked) := rfl

/-- A datum is issued only when no earlier barrier of its model is unfinished. -/
theorem batchRule_pick (h : s.ServiceOrder) {budget : Nat} {seed : DatumRef}
    {refs : List DatumRef}
    (hrefs : refs = RequestScheduler.pickCompatible budget seed
      (RequestScheduler.readyDatums s.queues)) :
    BatchRule s.trace (.batchIssued (slotOrder refs)) := by
  intro ref href seqId hpos hlt
  have hmem : ref ∈ refs := (List.mem_insertionSort _).mp href
  rw [hrefs] at hmem
  obtain ⟨q, hq, p, hp, hid, -, hcommand, -⟩ := mem_packBatch hmem
  have hqueue := h.queues q hq
  have hpq := (RequestScheduler.openBatchRun_sublist q).subset hp
  rw [hcommand] at hlt
  have hle := hqueue.bounded p hpq
  obtain ⟨c, hc, hcid, hcseq⟩ := hqueue.upTo seqId hpos (by omega)
  refine ⟨c, ⟨hc, hcid.trans hid.symm, hcseq⟩, fun hbarrier => ?_⟩
  rw [hid]
  obtain ⟨p', hp', hp'seq⟩ | hfin := hqueue.covered seqId hpos (by omega)
  · -- an unfinished earlier command stands in the run of batch commands
    exfalso
    have hrun := List.mem_takeWhile_of_lt hqueue.sorted hp hp' (by omega)
    have hbatch : p'.command.op.isBatch = true := (Bool.and_eq_true_iff.mp hrun).1
    have hreq := hqueue.requests p' hp'
    have hkey : p'.command.key = c.key := by
      show (p'.command.modelId, p'.command.seqId) = (c.modelId, c.seqId)
      rw [hreq.owner, hcid, hp'seq, hcseq]
    rw [h.trace.submitted_unique hreq.submitted hc hkey, hbarrier] at hbatch
    cases hbatch
  · exact hfin

/-- Issuing a batch keeps the order. -/
theorem ServiceOrder.issueBatch (h : s.ServiceOrder) {budget : Nat} {seed : DatumRef}
    {refs : List DatumRef}
    (hrefs : refs = RequestScheduler.pickCompatible budget seed
      (RequestScheduler.readyDatums s.queues)) :
    ServiceOrder { s.record (.batchIssued (slotOrder refs)) with
      queues := RequestScheduler.markIssued refs s.queues } := by
  let t' := s.trace ++ [TraceEvent.batchIssued (slotOrder refs)]
  -- a batch adds its datums to what was issued, no barrier and no submission
  have hissued : ∀ modelId seqId, issued modelId seqId t' = issued modelId seqId s.trace ++
      ((slotOrder refs).filter (ofRequest modelId seqId)).map (·.localIndex) :=
    fun modelId seqId => issued_concat modelId seqId s.trace _
  have hbarriers : ∀ modelId seqId, barrierCount modelId seqId t' =
      barrierCount modelId seqId s.trace :=
    fun modelId seqId => barrierCount_concat modelId seqId s.trace _
  have hsubmissions : submissions t' = submissions s.trace :=
    (submissions_append _ _).trans (List.append_nil _)
  -- no datum of a command that is still to come was picked
  have hother : ∀ q ∈ s.queues, ∀ seqId, q.lastEnqueuedSeqId < seqId →
      (slotOrder refs).filter (ofRequest q.modelId seqId) = [] := by
    intro q hq seqId hlt
    refine issued_none hrefs fun q' hq' hid p hp hseq => ?_
    obtain rfl := List.inj_on_of_nodup_map h.registry.queueIds hq' hq hid
    have hle := (h.queues q' hq').bounded p hp
    omega
  constructor
  · exact ⟨h.registry.ids, h.registry.fresh,
      (map_markIssued (fun _ _ => rfl) _ _).trans h.registry.queues⟩
  · intro q' hq'
    show QueueOrder t' q'
    rw [markIssued_eq] at hq'
    obtain ⟨q, hq, rfl⟩ := List.mem_map.mp hq'
    have hqueue := h.queues q hq
    -- marking changes how many datums were issued, not which commands are queued
    have hseqs : (markedQueue refs q).queue.map (·.command.seqId) =
        q.queue.map (·.command.seqId) := by
      show (q.queue.map _).map _ = _
      rw [List.map_map]
      rfl
    constructor
    · rw [hseqs]
      exact hqueue.sorted
    · intro p' hp'
      obtain ⟨p, hp, rfl⟩ := List.mem_map.mp hp'
      exact hqueue.positive p hp
    · intro p' hp'
      obtain ⟨p, hp, rfl⟩ := List.mem_map.mp hp'
      exact hqueue.bounded p hp
    · intro seqId h₁ h₂
      obtain ⟨p, hp, hpseq⟩ | hfin := hqueue.covered seqId h₁ h₂
      · exact .inl ⟨_, List.mem_map.mpr ⟨p, hp, rfl⟩, hpseq⟩
      · exact .inr (hfin.mono (List.subset_append_left _ _))
    · intro seqId h₁ h₂
      obtain ⟨c, hc, hkey⟩ := hqueue.upTo seqId h₁ h₂
      exact ⟨c, hsubmissions ▸ hc, hkey⟩
    · intro c hc
      obtain ⟨h₁, h₂, h₃⟩ := hqueue.buffered c hc
      exact ⟨h₁, hsubmissions ▸ h₂, h₃⟩
    · intro seqId hlt
      have hlater := hqueue.later seqId hlt
      have hnone := hother q hq seqId hlt
      show issued q.modelId seqId t' = [] ∧ barrierCount q.modelId seqId t' = 0
      rw [hissued, hbarriers, hnone, hlater.1, hlater.2]
      exact ⟨rfl, rfl⟩
    · intro p' hp'
      obtain ⟨p, hp, rfl⟩ := List.mem_map.mp hp'
      have hreq := hqueue.requests p hp
      -- the datums picked of a request are its next ones
      obtain ⟨hindices, hle⟩ := issued_request h hq hp budget seed hrefs
      refine ⟨hreq.owner, hsubmissions ▸ hreq.submitted, ?_, hle⟩
      show issued q.modelId p.command.seqId t' = List.range (p.numIssuedDatums + _)
      rw [hissued, hreq.issued, hindices, List.range_append_range']
  · refine ⟨h.trace.barriers.concat ?_, h.trace.batches.concat (batchRule_pick h hrefs), ?_, ?_, ?_⟩
    · exact fun entry hentry => absurd hentry List.not_mem_nil
    · intro modelId seqId
      show ∃ k, issued modelId seqId t' = List.range k
      -- a request without a queue gets nothing issued
      by_cases hqueued : ∃ q ∈ s.queues, q.modelId = modelId ∧
          ∃ p ∈ q.queue, p.command.seqId = seqId
      · obtain ⟨q, hq, rfl, p, hp, rfl⟩ := hqueued
        have hreq := (h.queues q hq).requests p hp
        obtain ⟨hindices, -⟩ := issued_request h hq hp budget seed hrefs
        refine ⟨p.numIssuedDatums + refs.countP (ofRequest q.modelId p.command.seqId), ?_⟩
        rw [hissued, hreq.issued, hindices, List.range_append_range']
      · rw [hissued, issued_none hrefs, List.map_nil, List.append_nil]
        · exact h.trace.inOrder modelId seqId
        · exact fun q hq hid p hp hseq => hqueued ⟨q, hq, hid, p, hp, hseq⟩
    · show ((submissions t').map (·.key)).Nodup
      rw [hsubmissions]
      exact h.trace.once
    · show ∀ c ∈ submissions t', _
      rw [hsubmissions]
      exact h.trace.positive
  · intro modelId hle seqId
    show issued modelId seqId t' = [] ∧ barrierCount modelId seqId t' = 0
    have hunknown := h.unknown modelId hle seqId
    rw [hissued, hbarriers, hunknown.1, hunknown.2, issued_none hrefs]
    · exact ⟨rfl, rfl⟩
    · intro q hq hid
      have hlt := h.registry.queue_fresh hq
      have hle : s.nextId ≤ modelId := hle
      omega
  · show ∀ c ∈ submissions t', _
    rw [hsubmissions]
    exact h.known
  · show ∀ c ∈ submissions t', _
    rw [hsubmissions]
    exact h.dedup

/-- A barrier is the head of its queue, so everything before it has finished. -/
theorem barrierRule_ready (h : s.ServiceOrder) {entries : List BarrierEntry}
    (hentries : entries.Sublist (RequestScheduler.readyBarriers s.queues)) :
    BarrierRule s.trace (.barrierIssued entries) := by
  intro entry hentry seqId hpos hlt
  obtain ⟨q, hq, p, rest, hqueue, -, rfl⟩ :=
    RequestScheduler.mem_readyBarriers (hentries.subset hentry)
  have horder := h.queues q hq
  have hlt : seqId < p.command.seqId := hlt
  have hle := horder.bounded p (hqueue ▸ List.mem_cons_self)
  obtain ⟨p', hp', rfl⟩ | hfin := horder.covered seqId hpos (by omega)
  · -- the queue is sorted, so its head comes first
    exfalso
    have hsorted := horder.sorted
    rw [hqueue, List.map_cons, List.pairwise_cons] at hsorted
    rw [hqueue] at hp'
    obtain rfl | hp' := List.mem_cons.mp hp'
    · exact Nat.lt_irrefl _ hlt
    · have hge := hsorted.1 p'.command.seqId (List.mem_map.mpr ⟨p', hp', rfl⟩)
      omega
  · exact hfin

/-- Issuing a barrier keeps the order. -/
theorem ServiceOrder.issueBarrier (h : s.ServiceOrder) {entries : List BarrierEntry}
    (hentries : entries.Sublist (RequestScheduler.readyBarriers s.queues)) :
    (s.record (.barrierIssued entries)).ServiceOrder := by
  let t' := s.trace ++ [TraceEvent.barrierIssued entries]
  have hissued : ∀ modelId seqId, issued modelId seqId t' = issued modelId seqId s.trace :=
    fun modelId seqId => (issued_concat modelId seqId s.trace _).trans (List.append_nil _)
  have hsubmissions : submissions t' = submissions s.trace :=
    (submissions_append _ _).trans (List.append_nil _)
  -- only queued commands are issued
  have hcount : ∀ modelId seqId,
      (∀ q ∈ s.queues, q.modelId = modelId → ∀ p ∈ q.queue, p.command.seqId ≠ seqId) →
      barrierCount modelId seqId t' = barrierCount modelId seqId s.trace := by
    intro modelId seqId hnone
    have hconcat := barrierCount_concat modelId seqId s.trace (.barrierIssued entries)
    have hzero : entries.countP (·.isOf modelId seqId) = 0 := by
      apply List.countP_eq_zero.mpr
      intro entry hentry hof
      obtain ⟨q, hq, p, rest, hqueue, -, rfl⟩ :=
        RequestScheduler.mem_readyBarriers (hentries.subset hentry)
      obtain ⟨hid, hseq⟩ := BarrierEntry.isOf_iff.mp hof
      exact hnone q hq hid p (hqueue ▸ List.mem_cons_self) hseq
    exact hconcat.trans (congrArg (barrierCount modelId seqId s.trace + ·) hzero)
  constructor
  · exact ⟨h.registry.ids, h.registry.fresh, h.registry.queues⟩
  · intro q hq
    refine (h.queues q hq).mono (List.subset_append_left _ _) (hissued q.modelId) ?_
    intro seqId hlt
    refine hcount q.modelId seqId fun q' hq' hid p hp hseq => ?_
    obtain rfl := List.inj_on_of_nodup_map h.registry.queueIds hq' hq hid
    have hle := (h.queues q' hq').bounded p hp
    omega
  · refine ⟨h.trace.barriers.concat (barrierRule_ready h hentries), h.trace.batches.concat ?_,
      ?_, ?_, ?_⟩
    · exact fun ref href => absurd href List.not_mem_nil
    · intro modelId seqId
      exact (h.trace.inOrder modelId seqId).imp fun k hk => (hissued modelId seqId).trans hk
    · show ((submissions t').map (·.key)).Nodup
      rw [hsubmissions]
      exact h.trace.once
    · show ∀ c ∈ submissions t', _
      rw [hsubmissions]
      exact h.trace.positive
  · intro modelId hle seqId
    show issued modelId seqId t' = [] ∧ barrierCount modelId seqId t' = 0
    rw [hissued, hcount]
    · exact h.unknown modelId hle seqId
    · intro q hq hid
      have hlt := h.registry.queue_fresh hq
      have hle : s.nextId ≤ modelId := hle
      omega
  · show ∀ c ∈ submissions t', _
    rw [hsubmissions]
    exact h.known
  · show ∀ c ∈ submissions t', _
    rw [hsubmissions]
    exact h.dedup

/-! ## Admission -/

/-- Admitting a command whose sequence number is new keeps the order. -/
theorem ServiceOrder.submitted (h : s.ServiceOrder) {c : Command} (hid : c.modelId < s.nextId)
    (hpos : 1 ≤ c.seqId) (hnew : ∀ c' ∈ submissions s.trace, c'.key ≠ c.key)
    (hknown : ∀ r ∈ s.models, r.modelId = c.modelId → c.seqId ∈ r.requestIdBySeq.map (·.1)) :
    (s.record (.submitted c)).ServiceOrder := by
  let t' := s.trace ++ [TraceEvent.submitted c]
  have hissued : ∀ modelId seqId, issued modelId seqId t' = issued modelId seqId s.trace :=
    fun modelId seqId => (issued_concat modelId seqId s.trace _).trans (List.append_nil _)
  have hbarriers : ∀ modelId seqId, barrierCount modelId seqId t' =
      barrierCount modelId seqId s.trace :=
    fun modelId seqId => barrierCount_concat modelId seqId s.trace _
  have hsubmissions : submissions t' = submissions s.trace ++ [c] := submissions_append _ _
  have hmem : ∀ c' ∈ submissions t', c' ∈ submissions s.trace ∨ c' = c := by
    intro c' hc'
    rw [hsubmissions] at hc'
    exact (List.mem_append.mp hc').imp id List.mem_singleton.mp
  constructor
  · exact ⟨h.registry.ids, h.registry.fresh, h.registry.queues⟩
  · intro q hq
    exact (h.queues q hq).mono (List.subset_append_left _ _) (hissued q.modelId)
      fun seqId _ => hbarriers q.modelId seqId
  · refine ⟨h.trace.barriers.concat ?_, h.trace.batches.concat ?_, ?_, ?_, ?_⟩
    · exact fun entry hentry => absurd hentry List.not_mem_nil
    · exact fun ref href => absurd href List.not_mem_nil
    · intro modelId seqId
      exact (h.trace.inOrder modelId seqId).imp fun k hk => (hissued modelId seqId).trans hk
    · show ((submissions t').map (·.key)).Nodup
      rw [hsubmissions, List.map_append, List.nodup_append]
      refine ⟨h.trace.once, List.nodup_singleton _, ?_⟩
      intro a ha b hb hab
      obtain ⟨c', hc', rfl⟩ := List.mem_map.mp ha
      exact hnew c' hc' (hab.trans (List.mem_singleton.mp hb))
    · intro c' hc'
      obtain hc' | rfl := hmem c' hc'
      · exact h.trace.positive c' hc'
      · exact hpos
  · intro modelId hle seqId
    show issued modelId seqId t' = [] ∧ barrierCount modelId seqId t' = 0
    rw [hissued, hbarriers]
    exact h.unknown modelId hle seqId
  · intro c' hc'
    obtain hc' | rfl := hmem c' hc'
    · exact h.known c' hc'
    · exact hid
  · intro c' hc' r hr hrid
    obtain hc' | rfl := hmem c' hc'
    · exact h.dedup c' hc' r hr hrid
    · exact hknown r hr hrid

/-- Every update keeps the order. -/
theorem ServiceOrder.update (h : s.ServiceOrder) (hup : Update config s s') :
    s'.ServiceOrder := by
  have hregistry := h.registry.update hup
  cases hup with
  | control _ _ _ _ _ _ _ _ _ _ _ hid => exact h.same hregistry rfl rfl rfl hid
  | sweep | settle | settleAll | endSample => exact h.same hregistry rfl rfl rfl (Nat.le_refl _)
  | replace | startSample => exact h.same hregistry rfl rfl rfl (Nat.le_succ _)
  | mark e he =>
    refine h.quiet ?_
    obtain ⟨modelId, slot, rfl⟩ | ⟨slot, rfl⟩ | ⟨refs, outputs, rfl⟩ := he <;>
      exact ⟨rfl, rfl, rfl⟩
  | setInitialized modelId => exact h.modifyModel (fun _ => rfl) fun _ _ _ _ hseq => hseq
  | rename modelId seqId old new hold hnew =>
    refine h.modifyModel (fun _ => rfl) fun r _ _ seqId' hseq => ?_
    show seqId' ∈ seqId :: (r.requestIdBySeq.filter (·.1 ≠ seqId)).map (·.1)
    by_cases heq : seqId' = seqId
    · exact heq ▸ List.mem_cons_self
    · obtain ⟨x, hx, rfl⟩ := List.mem_map.mp hseq
      refine List.mem_cons_of_mem _ (List.mem_map.mpr ⟨x, ?_, rfl⟩)
      exact List.mem_filter.mpr ⟨hx, decide_eq_true heq⟩
  | openModel sessionId slot tenant =>
    constructor
    · exact hregistry
    · intro q hq
      obtain hq | hq := List.mem_append.mp hq
      · exact h.queues q hq
      · -- the queue of a model that did not exist is empty
        rw [List.mem_singleton.mp hq]
        refine ⟨.nil, ?_, ?_, ?_, ?_, ?_, ?_, ?_⟩
        · exact fun p hp => absurd hp List.not_mem_nil
        · exact fun p hp => absurd hp List.not_mem_nil
        · intro seqId h₁ h₂
          have hle : seqId ≤ 0 := h₂
          omega
        · intro seqId h₁ h₂
          have hle : seqId ≤ 0 := h₂
          omega
        · exact fun c hc => absurd hc List.not_mem_nil
        · exact fun seqId _ => h.unknown s.nextId (Nat.le_refl _) seqId
        · exact fun p hp => absurd hp List.not_mem_nil
    · exact h.trace
    · intro modelId hle
      have hle : s.nextId + 1 + 1 ≤ modelId := hle
      exact h.unknown modelId (by omega)
    · intro c hc
      show c.modelId < s.nextId + 1 + 1
      have hlt := h.known c hc
      omega
    · intro c hc r hr hid
      obtain hr | hr := List.mem_append.mp hr
      · exact h.dedup c hc r hr hid
      · rw [List.mem_singleton.mp hr] at hid
        have hlt := h.known c hc
        have hid : s.nextId = c.modelId := hid
        omega
  | enqueueCommand tenant r command hr hseq hnew hid harrival =>
    obtain ⟨hmem, hmid⟩ := findModel_some hr
    have hfresh : command.modelId < s.nextId := hmid ▸ h.registry.fresh r hmem
    let created := s.createFuture (.model command.modelId) tenant
    have hcreated : created.ServiceOrder :=
      h.same ⟨h.registry.ids, fun r hr => Nat.lt_succ_of_lt (h.registry.fresh r hr),
        h.registry.queues⟩ rfl rfl rfl (Nat.le_succ _)
    let named := created.modifyModel command.modelId fun r => { r with
      requestIdBySeq := (command.seqId, command.requestId) :: r.requestIdBySeq }
    have hnamed : named.ServiceOrder :=
      hcreated.modifyModel (fun _ => rfl) fun _ _ _ _ hmem => List.mem_cons_of_mem _ hmem
    -- no command was admitted under this sequence number
    have hunique : ∀ c ∈ submissions s.trace, c.key ≠ command.key := by
      intro c hc hkey
      obtain ⟨hkey₁, hkey₂⟩ := Prod.mk.inj hkey
      have hdedup := h.dedup c hc r hmem (hmid.trans hkey₁.symm)
      obtain ⟨x, hx, hxseq⟩ := List.mem_map.mp hdedup
      have hnone := List.lookup_eq_none_iff.mp hnew x hx
      simp [hxseq, hkey₂] at hnone
    have hsubmitted : (named.record (.submitted command)).ServiceOrder := by
      refine hnamed.submitted (Nat.lt_succ_of_lt hfresh) hseq hunique fun r' hr' hid' => ?_
      obtain ⟨r'', hr'', rfl⟩ := List.mem_map.mp hr'
      split at hid'
      · next heq =>
        rw [if_pos heq]
        exact List.mem_cons_self
      · next hne => exact absurd hid' hne
    have hadmitted : ((named.record (.submitted command)).modifyQueue command.modelId
        (·.submit command)).ServiceOrder := by
      refine hsubmitted.modifyQueue (submit_key command) fun q hq hqid => ?_
      refine (hsubmitted.queues q hq).submit hqid.symm ?_ ?_
      · show command ∈ submissions (s.trace ++ [.submitted command])
        rw [submissions_append]
        exact List.mem_append_right _ List.mem_cons_self
      · -- an enqueued sequence number was admitted
        by_contra hle
        obtain ⟨c, hc, hcid, hcseq⟩ := (h.queues q hq).upTo command.seqId hseq (by omega)
        refine hunique c hc ?_
        show (c.modelId, c.seqId) = (command.modelId, command.seqId)
        rw [hcid, hcseq, hqid]
    exact hadmitted.same hregistry rfl rfl rfl (Nat.le_refl _)
  | close modelId r outcome hr =>
    exact ⟨hregistry, fun q hq => h.queues q (List.mem_filter.mp hq).1, h.trace, h.unknown,
      h.known, fun c hc r hr => h.dedup c hc r (List.mem_filter.mp hr).1⟩
  | finish command outcome =>
    have hquiet : (s.record (.finished command.modelId command.seqId outcome)).ServiceOrder :=
      h.quiet ⟨rfl, rfl, rfl⟩
    have hqueue : (Service.modifyQueue command.modelId (·.finish command.seqId)
        (s.record (.finished command.modelId command.seqId outcome))).ServiceOrder := by
      refine hquiet.modifyQueue (fun _ => rfl) fun q hq hqid => ?_
      refine (hquiet.queues q hq).finish ⟨outcome, List.mem_append_right _ ?_⟩
      rw [hqid]
      exact List.mem_cons_self
    exact hqueue.same hregistry rfl rfl rfl (Nat.le_refl _)
  | recordOutput ref output =>
    exact h.modifyQueue (fun _ => rfl) fun q hq _ =>
      (h.queues q hq).modify fun _ => ⟨rfl, rfl, rfl⟩
  | issueBatch unit hunit =>
    obtain ⟨seed, -, rfl⟩ := RequestScheduler.scheduleNext_batch hunit
    exact h.issueBatch rfl
  | issueBarrier unit hunit =>
    exact h.issueBarrier (RequestScheduler.scheduleNext_barrier hunit)

/-- Updates keep the order. -/
theorem ServiceOrder.updates (h : s.ServiceOrder) (hup : Updates config s s') :
    s'.ServiceOrder := by
  induction hup with
  | refl => exact h
  | tail _ hlast ih => exact ih.update hlast

end Service

end Miles.Tinker
