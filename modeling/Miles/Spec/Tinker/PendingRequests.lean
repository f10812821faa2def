import Miles.Spec.Tinker.CommandOrder
import Miles.Spec.Tinker.Futures

/-!
# Pending requests are queued

A request of a live model is pending exactly as long as its command stands in the queue of the
model or in the reorder buffer.

## Key results

- `PendingInv`: how the names of requests, their futures and the queues fit together
- `PendingInv.transfer`: a change that keeps all three, up to what is neither named nor queued
- `PendingInv.finishPending`, `PendingInv.closeModel`, `PendingInv.enqueueCommand`,
  `PendingInv.rename`: what the operations on requests do to it
- `Issued`, `Forward`: commands that left a reorder buffer do not return to it
-/

namespace Miles.Tinker

/-- The commands that a model still has to finish. -/
def ModelRequestQueue.outstanding (q : ModelRequestQueue) : List Command :=
  q.queue.map (·.command) ++ q.pendingBySeq

namespace Service

open Lts Relation

variable {config : GatewayConfig} {s s' s'' : Service}

/-- The command stands in a queue or in a reorder buffer. -/
def Outstanding (s : Service) (c : Command) : Prop := ∃ q ∈ s.queues, c ∈ q.outstanding

/-- The request has a future without an answer. -/
def Pending (s : Service) (requestId : Nat) : Prop :=
  ∃ f ∈ s.futures, f.requestId = requestId ∧ f.state = .pending

/-- The model knows the request under this sequence number. -/
def Names (s : Service) (modelId seqId requestId : Nat) : Prop :=
  ∃ r ∈ s.models, r.modelId = modelId ∧ (seqId, requestId) ∈ r.requestIdBySeq

structure PendingInv (s : Service) : Prop where
  order : s.ServiceOrder
  futures : s.FuturesInv
  unfinished : ∀ f ∈ s.futures, f.state = .pending → f.finishedAt = none
  outstanding : ∀ c, s.Outstanding c →
    s.Names c.modelId c.seqId c.requestId ∧ s.Pending c.requestId
  queued : ∀ modelId seqId requestId, s.Names modelId seqId requestId → s.Pending requestId →
    ∃ c, s.Outstanding c ∧ c.key = (modelId, seqId)
  /-- a request belongs to one sequence number of one model -/
  distinct : ∀ modelId seqId modelId' seqId' requestId, s.Names modelId seqId requestId →
    s.Names modelId' seqId' requestId → modelId = modelId' ∧ seqId = seqId'
  used : ∀ modelId seqId requestId, s.Names modelId seqId requestId → requestId < s.nextId
  /-- a sequence number is named when its command is admitted -/
  commands : ∀ modelId seqId requestId, s.Names modelId seqId requestId →
    ∃ c ∈ submissions s.trace, c.key = (modelId, seqId)
  /-- a request belongs to one command -/
  once : ((submissions s.trace).map (·.requestId)).Nodup
  admitted : ∀ c ∈ submissions s.trace, c.requestId < s.nextId
  createIds : ∀ r ∈ s.models, r.createRequestId < s.nextId ∧
    ∀ modelId seqId, ¬ s.Names modelId seqId r.createRequestId
  sampleIds : ∀ x ∈ s.sampleTasks, x.1 < s.nextId ∧ ∀ modelId seqId, ¬ s.Names modelId seqId x.1

theorem PendingInv.init (config : GatewayConfig) : PendingInv (Tinker.init config) where
  order := .init config
  futures := .init config
  unfinished _ hf := absurd hf List.not_mem_nil
  outstanding _ h := absurd h.choose_spec.1 List.not_mem_nil
  queued _ _ _ h := absurd h.choose_spec.1 List.not_mem_nil
  distinct _ _ _ _ _ h := absurd h.choose_spec.1 List.not_mem_nil
  used _ _ _ h := absurd h.choose_spec.1 List.not_mem_nil
  commands _ _ _ h := absurd h.choose_spec.1 List.not_mem_nil
  once := .nil
  admitted _ hc := absurd hc List.not_mem_nil
  createIds _ hr := absurd hr List.not_mem_nil
  sampleIds _ hx := absurd hx List.not_mem_nil

/-- The identifier is in use already, or it is new. -/
def Fresh (s s' : Service) (requestId : Nat) : Prop :=
  s.nextId ≤ requestId ∧ requestId < s'.nextId

theorem FuturesInv.updates (h : s.FuturesInv) (hup : Updates config s s') : s'.FuturesInv := by
  induction hup with
  | refl => exact h
  | tail _ hlast ih => exact ih.update hlast

/-- A sequence number names one request. -/
theorem FuturesInv.names_unique (h : s.FuturesInv) {modelId seqId requestId requestId' : Nat}
    (hname : s.Names modelId seqId requestId) (hname' : s.Names modelId seqId requestId') :
    requestId = requestId' := by
  obtain ⟨r, hr, hid, hreq⟩ := hname
  obtain ⟨r', hr', hid', hreq'⟩ := hname'
  obtain rfl : r = r' := List.inj_on_of_nodup_map h.registry.ids hr hr' (hid.trans hid'.symm)
  have heq := List.inj_on_of_nodup_map (h.keys r hr) hreq hreq' rfl
  exact congrArg Prod.snd heq

/-- A change that keeps names, queues and what is pending of the named requests. -/
theorem PendingInv.transfer (h : s.PendingInv) (hup : Updates config s s')
    (hsub : submissions s'.trace = submissions s.trace)
    (hunfinished : ∀ f ∈ s'.futures, f.state = .pending → f.finishedAt = none)
    (hnames : ∀ modelId seqId requestId,
      s'.Names modelId seqId requestId ↔ s.Names modelId seqId requestId)
    (hout : ∀ c, s'.Outstanding c ↔ s.Outstanding c)
    (hpending : ∀ modelId seqId requestId, s.Names modelId seqId requestId →
      (s'.Pending requestId ↔ s.Pending requestId))
    (hcreate : ∀ r ∈ s'.models, (∃ r' ∈ s.models, r'.createRequestId = r.createRequestId) ∨
      Fresh s s' r.createRequestId)
    (hsample : ∀ x ∈ s'.sampleTasks, (∃ y ∈ s.sampleTasks, y.1 = x.1) ∨ Fresh s s' x.1) :
    s'.PendingInv := by
  have hid : s.nextId ≤ s'.nextId := (Evolves.updates hup).nextId
  have hunused : ∀ requestId, Fresh s s' requestId → ∀ modelId seqId,
      ¬ s'.Names modelId seqId requestId := by
    intro requestId hfresh modelId seqId hname
    have hlt := h.used _ _ _ ((hnames _ _ _).mp hname)
    have hle := hfresh.1
    omega
  refine ⟨h.order.updates hup, h.futures.updates hup, hunfinished, ?_, ?_, ?_, ?_, ?_,
    hsub ▸ h.once, ?_, ?_, ?_⟩
  · intro c hc
    obtain ⟨hname, hp⟩ := h.outstanding c ((hout c).mp hc)
    exact ⟨(hnames _ _ _).mpr hname, (hpending _ _ _ hname).mpr hp⟩
  · intro modelId seqId requestId hname hp
    have hname := (hnames _ _ _).mp hname
    obtain ⟨c, hc, hkey⟩ := h.queued _ _ _ hname ((hpending _ _ _ hname).mp hp)
    exact ⟨c, (hout c).mpr hc, hkey⟩
  · intro modelId seqId modelId' seqId' requestId hname hname'
    exact h.distinct _ _ _ _ _ ((hnames _ _ _).mp hname) ((hnames _ _ _).mp hname')
  · intro modelId seqId requestId hname
    have hlt := h.used _ _ _ ((hnames _ _ _).mp hname)
    omega
  · intro modelId seqId requestId hname
    exact hsub ▸ h.commands modelId seqId requestId ((hnames _ _ _).mp hname)
  · exact fun c hc => Nat.lt_of_lt_of_le (h.admitted c (hsub ▸ hc)) hid
  · intro r hr
    obtain ⟨r', hr', heq⟩ | hfresh := hcreate r hr
    · obtain ⟨hlt, hnot⟩ := h.createIds r' hr'
      rw [← heq]
      exact ⟨by omega, fun m q hname => hnot m q ((hnames _ _ _).mp hname)⟩
    · exact ⟨hfresh.2, hunused _ hfresh⟩
  · intro x hx
    obtain ⟨y, hy, heq⟩ | hfresh := hsample x hx
    · obtain ⟨hlt, hnot⟩ := h.sampleIds y hy
      rw [← heq]
      exact ⟨by omega, fun m q hname => hnot m q ((hnames _ _ _).mp hname)⟩
    · exact ⟨hfresh.2, hunused _ hfresh⟩

/-- What a command must be for the lock holder to finish it: admitted, and out of the buffer. -/
def Issued (s : Service) (c : Command) : Prop :=
  c ∈ submissions s.trace ∧ ∀ q ∈ s.queues, c ∉ q.pendingBySeq

/-- Commands leave the buffers for good. -/
structure Forward (s s' : Service) : Prop where
  admitted : submissions s.trace ⊆ submissions s'.trace
  buffered : ∀ q' ∈ s'.queues, ∀ c ∈ q'.pendingBySeq,
    (∃ q ∈ s.queues, c ∈ q.pendingBySeq) ∨ c ∉ submissions s.trace

theorem Forward.refl (s : Service) : Forward s s :=
  ⟨List.Subset.refl _, fun q hq _ hc => .inl ⟨q, hq, hc⟩⟩

theorem Forward.trans (h : Forward s s') (h' : Forward s' s'') : Forward s s'' := by
  refine ⟨List.Subset.trans h.admitted h'.admitted, fun q hq c hc => ?_⟩
  obtain ⟨q', hq', hc'⟩ | hnew := h'.buffered q hq c hc
  · exact h.buffered q' hq' c hc'
  · exact .inr fun hmem => hnew (h.admitted hmem)

theorem Issued.forward {c : Command} (h : s.Issued c) (hfwd : Forward s s') : s'.Issued c := by
  refine ⟨hfwd.admitted h.1, fun q hq hc => ?_⟩
  obtain ⟨q', hq', hc'⟩ | hnew := hfwd.buffered q hq c hc
  · exact h.2 q' hq' hc'
  · exact hnew h.1

/-- The same buffers, and a trace that only grows. -/
theorem Forward.of_buffers (hsub : submissions s.trace ⊆ submissions s'.trace)
    (hbuffers : ∀ q' ∈ s'.queues, ∃ q ∈ s.queues, q'.pendingBySeq = q.pendingBySeq) :
    Forward s s' := by
  refine ⟨hsub, fun q' hq' c hc => ?_⟩
  obtain ⟨q, hq, heq⟩ := hbuffers q' hq'
  exact .inl ⟨q, hq, heq ▸ hc⟩

theorem submissions_record (e : TraceEvent) (s : Service) :
    submissions s.trace ⊆ submissions (s.record e).trace :=
  submissions_subset (List.subset_append_left _ _)

/-- Changing one queue without its buffer. -/
theorem buffers_modifyQueue {modelId : Nat} {f : ModelRequestQueue → ModelRequestQueue}
    (hf : ∀ q, (f q).pendingBySeq = q.pendingBySeq) :
    ∀ q' ∈ (s.modifyQueue modelId f).queues, ∃ q ∈ s.queues,
      q'.pendingBySeq = q.pendingBySeq := by
  intro q' hq'
  obtain ⟨q, hq, rfl⟩ := List.mem_map.mp hq'
  refine ⟨q, hq, ?_⟩
  split
  · exact hf q
  · rfl

/-- A queue that takes its next commands only empties its buffer. -/
theorem pendingBySeq_enqueue (fuel : Nat) (q : ModelRequestQueue) :
    (q.enqueueContiguous fuel).pendingBySeq ⊆ q.pendingBySeq := by
  induction fuel generalizing q with
  | zero => exact List.Subset.refl _
  | succ fuel ih =>
    unfold ModelRequestQueue.enqueueContiguous
    split
    · exact List.Subset.refl _
    · exact List.Subset.trans (ih _) List.filter_sublist.subset

theorem Forward.update (horder : s.ServiceOrder) (hup : Update config s s') : Forward s s' := by
  have hkept : ∀ q' ∈ s.queues, ∃ q ∈ s.queues, q'.pendingBySeq = q.pendingBySeq :=
    fun q hq => ⟨q, hq, rfl⟩
  cases hup with
  | control | sweep | settle | settleAll | replace | rename | setInitialized | startSample
  | endSample => exact .of_buffers (List.Subset.refl _) hkept
  | mark e he => exact .of_buffers (submissions_record e s) hkept
  | issueBarrier unit hunit => exact .of_buffers (submissions_record _ s) hkept
  | issueBatch unit hunit =>
    refine .of_buffers (submissions_record (.batchIssued (slotOrder unit.datums)) s) ?_
    intro q' hq'
    obtain ⟨q, hq, rfl⟩ := List.mem_map.mp hq'
    exact ⟨q, hq, rfl⟩
  | recordOutput ref output =>
    exact .of_buffers (List.Subset.refl _) (buffers_modifyQueue fun _ => rfl)
  | finish command outcome =>
    refine .of_buffers
      (submissions_record (.finished command.modelId command.seqId outcome) s) ?_
    exact buffers_modifyQueue fun _ => rfl
  | close modelId r outcome hr =>
    exact .of_buffers (List.Subset.refl _) fun q hq => ⟨q, (List.mem_filter.mp hq).1, rfl⟩
  | openModel sessionId slot tenant =>
    refine ⟨List.Subset.refl _, fun q hq c hc => ?_⟩
    obtain hq | hq := List.mem_append.mp hq
    · exact .inl ⟨q, hq, hc⟩
    · rw [List.mem_singleton.mp hq] at hc
      exact absurd hc List.not_mem_nil
  | enqueueCommand tenant r command hr hseq hnew hid harrival =>
    refine ⟨submissions_record (.submitted command) s, fun q' hq' c hc => ?_⟩
    obtain ⟨q, hq, rfl⟩ := List.mem_map.mp hq'
    split at hc
    · have hc := pendingBySeq_enqueue _ _ hc
      obtain hc | hc := List.mem_append.mp hc
      · exact .inl ⟨q, hq, (List.mem_filter.mp hc).1⟩
      · -- the sequence number of the new command is new to the model
        right
        rw [List.mem_singleton.mp hc]
        intro hmem
        obtain ⟨hr, hmid⟩ := findModel_some hr
        exact not_mem_of_lookup hnew (horder.dedup command hmem r hr hmid)
    · exact .inl ⟨q, hq, hc⟩

theorem Forward.updates (horder : s.ServiceOrder) (hup : Updates config s s') :
    Forward s s' := by
  induction hup with
  | refl => exact .refl s
  | tail hfirst hlast ih => exact ih.trans (.update (horder.updates hfirst) hlast)

/-! ## Changes that keep the requests -/

/-- Names, queues and futures stay as they are. -/
theorem PendingInv.same (h : s.PendingInv) (hup : Updates config s s')
    (hsub : submissions s'.trace = submissions s.trace)
    (hfutures : s'.futures = s.futures) (hsamples : s'.sampleTasks = s.sampleTasks)
    (hmodels : s'.models.map (fun r => (r.modelId, r.createRequestId, r.requestIdBySeq)) =
      s.models.map fun r => (r.modelId, r.createRequestId, r.requestIdBySeq))
    (hqueues : s'.queues.map (·.outstanding) = s.queues.map (·.outstanding)) : s'.PendingInv := by
  have hmem : ∀ s₁ s₂ : Service,
      s₁.models.map (fun r => (r.modelId, r.createRequestId, r.requestIdBySeq)) =
        s₂.models.map (fun r => (r.modelId, r.createRequestId, r.requestIdBySeq)) →
      ∀ r ∈ s₁.models, ∃ r' ∈ s₂.models, r'.modelId = r.modelId ∧
        r'.createRequestId = r.createRequestId ∧ r'.requestIdBySeq = r.requestIdBySeq := by
    intro s₁ s₂ heq r hr
    have hin : (r.modelId, r.createRequestId, r.requestIdBySeq) ∈ s₂.models.map _ :=
      heq ▸ List.mem_map.mpr ⟨r, hr, rfl⟩
    obtain ⟨r', hr', heq'⟩ := List.mem_map.mp hin
    simp only [Prod.mk.injEq] at heq'
    exact ⟨r', hr', heq'⟩
  have hnames : ∀ s₁ s₂ : Service,
      s₁.models.map (fun r => (r.modelId, r.createRequestId, r.requestIdBySeq)) =
        s₂.models.map (fun r => (r.modelId, r.createRequestId, r.requestIdBySeq)) →
      ∀ m q i, s₁.Names m q i → s₂.Names m q i := by
    rintro s₁ s₂ heq m q i ⟨r, hr, hm, hq⟩
    obtain ⟨r', hr', hid, -, hreq⟩ := hmem s₁ s₂ heq r hr
    exact ⟨r', hr', hid.trans hm, hreq ▸ hq⟩
  have hout : ∀ s₁ s₂ : Service,
      s₁.queues.map (·.outstanding) = s₂.queues.map (·.outstanding) →
      ∀ c, s₁.Outstanding c → s₂.Outstanding c := by
    rintro s₁ s₂ heq c ⟨q, hq, hc⟩
    have hin : q.outstanding ∈ s₂.queues.map (·.outstanding) :=
      heq ▸ List.mem_map.mpr ⟨q, hq, rfl⟩
    obtain ⟨q', hq', heq'⟩ := List.mem_map.mp hin
    exact ⟨q', hq', heq' ▸ hc⟩
  refine h.transfer hup hsub (hfutures ▸ h.unfinished)
    (fun m q i => ⟨hnames s' s hmodels m q i, hnames s s' hmodels.symm m q i⟩)
    (fun c => ⟨hout s' s hqueues c, hout s s' hqueues.symm c⟩) ?_ ?_ ?_
  · intro m q i _
    unfold Pending
    rw [hfutures]
  · intro r hr
    obtain ⟨r', hr', -, hcreate, -⟩ := hmem s' s hmodels r hr
    exact .inl ⟨r', hr', hcreate⟩
  · intro x hx
    exact .inl ⟨x, hsamples ▸ hx, rfl⟩

/-- Only the futures change, and no named one does. -/
theorem PendingInv.answer (h : s.PendingInv) (hup : Updates config s s')
    (hsub : submissions s'.trace = submissions s.trace)
    (hunfinished : ∀ f ∈ s'.futures, f.state = .pending → f.finishedAt = none)
    (hmodels : s'.models = s.models) (hqueues : s'.queues = s.queues)
    (hsamples : ∀ x ∈ s'.sampleTasks, (∃ y ∈ s.sampleTasks, y.1 = x.1) ∨ Fresh s s' x.1)
    (hpending : ∀ modelId seqId requestId, s.Names modelId seqId requestId →
      (s'.Pending requestId ↔ s.Pending requestId)) : s'.PendingInv := by
  refine h.transfer hup hsub hunfinished ?_ ?_ hpending ?_ hsamples
  · intro m q i
    unfold Names
    rw [hmodels]
  · intro c
    unfold Outstanding
    rw [hqueues]
  · exact fun r hr => .inl ⟨r, hmodels ▸ hr, rfl⟩

/-- A request is pending after an answer to another one if it was before. -/
theorem pending_settle_iff {requestId now other : Nat} {outcome : Outcome}
    {futures : List RequestFuture} :
    (∃ f ∈ RequestFutureStore.settle requestId outcome now futures,
      f.requestId = other ∧ f.state = .pending) ↔
    (∃ f ∈ futures, f.requestId = other ∧ f.state = .pending) ∧ other ≠ requestId := by
  constructor
  · rintro ⟨f, hf, hid, hp⟩
    obtain ⟨hold, hne⟩ := pending_settle hp hf
    exact ⟨⟨f, hold, hid, hp⟩, hid ▸ hne⟩
  · rintro ⟨⟨f, hf, hid, hp⟩, hne⟩
    refine ⟨f, List.mem_map.mpr ⟨f, hf, ?_⟩, hid, hp⟩
    rw [if_neg fun h => hne (hid.symm.trans h.1)]

theorem pending_settleAll_iff {requestIds : List Nat} {now other : Nat} {outcome : Outcome}
    {futures : List RequestFuture} :
    (∃ f ∈ requestIds.foldl (fun futures requestId =>
      RequestFutureStore.settle requestId outcome now futures) futures,
        f.requestId = other ∧ f.state = .pending) ↔
    (∃ f ∈ futures, f.requestId = other ∧ f.state = .pending) ∧ other ∉ requestIds := by
  induction requestIds generalizing futures with
  | nil => simp
  | cons id requestIds ih =>
    rw [List.foldl_cons, ih, pending_settle_iff, List.mem_cons]
    tauto

theorem unfinished_settle {requestId now : Nat} {outcome : Outcome}
    {futures : List RequestFuture}
    (h : ∀ f ∈ futures, f.state = .pending → f.finishedAt = none) :
    ∀ f ∈ RequestFutureStore.settle requestId outcome now futures,
      f.state = .pending → f.finishedAt = none := by
  intro f hf hp
  exact h f (pending_settle hp hf).1 hp

theorem unfinished_settleAll {requestIds : List Nat} {now : Nat} {outcome : Outcome}
    {futures : List RequestFuture}
    (h : ∀ f ∈ futures, f.state = .pending → f.finishedAt = none) :
    ∀ f ∈ requestIds.foldl (fun futures requestId =>
      RequestFutureStore.settle requestId outcome now futures) futures,
      f.state = .pending → f.finishedAt = none := by
  intro f hf hp
  exact h f (pending_settleAll hp hf).1 hp

/-- An answer to a request that no model names. -/
theorem PendingInv.settle (h : s.PendingInv) {requestId : Nat} {outcome : Outcome}
    (hnot : ∀ modelId seqId, ¬ s.Names modelId seqId requestId) :
    (s.settle requestId outcome).PendingInv := by
  refine h.answer (.single (.settle s requestId outcome) : Updates ⟨0, 0, 0⟩ _ _) rfl
    (unfinished_settle h.unfinished) rfl rfl (fun x hx => .inl ⟨x, hx, rfl⟩) ?_
  intro m q i hname
  refine pending_settle_iff.trans (and_iff_left ?_)
  rintro rfl
  exact hnot m q hname

/-- Only answers that were given are forgotten. -/
theorem PendingInv.sweep (h : s.PendingInv) : s.sweepFutures.PendingInv := by
  refine h.answer (.single (.sweep s) : Updates ⟨0, 0, 0⟩ _ _) rfl
    (fun f hf => h.unfinished f (List.mem_filter.mp hf).1) rfl rfl
    (fun x hx => .inl ⟨x, hx, rfl⟩) ?_
  intro m q i hname
  constructor
  · rintro ⟨f, hf, hid, hp⟩
    exact ⟨f, (List.mem_filter.mp hf).1, hid, hp⟩
  · rintro ⟨f, hf, hid, hp⟩
    refine ⟨f, List.mem_filter.mpr ⟨hf, ?_⟩, hid, hp⟩
    rw [h.unfinished f hf hp]

/-- The samples of sessions fail; no model names them. -/
theorem PendingInv.endSessions (h : s.PendingInv) (sessionIds : List Nat) (error : String) :
    (s.endSessions sessionIds error).1.PendingInv := by
  refine h.answer (Updates.endSessions sessionIds error s : Updates ⟨0, 0, 0⟩ _ _) rfl
    (unfinished_settleAll h.unfinished) rfl rfl (fun x hx => .inl ⟨x, hx, rfl⟩) ?_
  intro m q i hname
  refine pending_settleAll_iff.trans (and_iff_left ?_)
  intro hmem
  obtain ⟨x, hx, rfl⟩ := List.mem_map.mp hmem
  exact (h.sampleIds x (List.mem_filter.mp hx).1).2 m q hname

/-! ## Closing a model, and ending a request -/

/-- A command in a queue is an admitted command of the queue's model. -/
theorem ServiceOrder.outstanding (h : s.ServiceOrder) {q : ModelRequestQueue} (hq : q ∈ s.queues)
    {c : Command} (hc : c ∈ q.outstanding) : c.modelId = q.modelId ∧ c ∈ submissions s.trace := by
  obtain hc | hc := List.mem_append.mp hc
  · obtain ⟨p, hp, rfl⟩ := List.mem_map.mp hc
    have hrequest := (h.queues q hq).requests p hp
    exact ⟨hrequest.owner, hrequest.submitted⟩
  · have hbuffered := (h.queues q hq).buffered c hc
    exact ⟨hbuffered.1, hbuffered.2.1⟩

theorem PendingInv.closeModel (h : s.PendingInv) (modelId : Nat) (error : String)
    (category : Category) : (s.closeModel modelId error category).1.PendingInv := by
  have hup : Updates ⟨0, 0, 0⟩ s (s.closeModel modelId error category).1 :=
    .closeModel modelId error category s
  obtain ⟨-, heq⟩ | ⟨r, hr, heq⟩ := closeModel_cases modelId error category s
  · rw [heq]
    exact h
  · rw [heq] at hup ⊢
    have hswept := h.sweep
    obtain ⟨hmem, hmid⟩ := findModel_some hr
    -- what is left belongs to other models
    let s' : Service := { s.sweepFutures.settleAll (r.createRequestId :: r.requestIdBySeq.map (·.2))
        (.error error category) with
      models := s.models.filter (·.modelId ≠ modelId)
      queues := s.queues.filter (·.modelId ≠ modelId) }
    have hnames : ∀ m q i, s'.Names m q i ↔ s.Names m q i ∧ m ≠ modelId := by
      intro m q i
      constructor
      · rintro ⟨r', hr', hid, hreq⟩
        obtain ⟨hr', hne⟩ := List.mem_filter.mp hr'
        exact ⟨⟨r', hr', hid, hreq⟩, hid ▸ of_decide_eq_true hne⟩
      · rintro ⟨⟨r', hr', hid, hreq⟩, hne⟩
        exact ⟨r', List.mem_filter.mpr ⟨hr', decide_eq_true (hid ▸ hne)⟩, hid, hreq⟩
    have hout : ∀ c, s'.Outstanding c ↔ s.Outstanding c ∧ c.modelId ≠ modelId := by
      intro c
      constructor
      · rintro ⟨q, hq, hc⟩
        obtain ⟨hq, hne⟩ := List.mem_filter.mp hq
        exact ⟨⟨q, hq, hc⟩, (h.order.outstanding hq hc).1 ▸ of_decide_eq_true hne⟩
      · rintro ⟨⟨q, hq, hc⟩, hne⟩
        rw [(h.order.outstanding hq hc).1] at hne
        exact ⟨q, List.mem_filter.mpr ⟨hq, decide_eq_true hne⟩, hc⟩
    have hpending : ∀ i, s'.Pending i ↔ s.sweepFutures.Pending i ∧
        i ∉ r.createRequestId :: r.requestIdBySeq.map (·.2) := fun i => pending_settleAll_iff
    have hother : ∀ m q i, s'.Names m q i → i ∉ r.createRequestId :: r.requestIdBySeq.map (·.2) := by
      intro m q i hname hi
      obtain ⟨hname, hne⟩ := (hnames m q i).mp hname
      obtain rfl | hi := List.mem_cons.mp hi
      · exact (h.createIds r hmem).2 m q hname
      · obtain ⟨x, hx, rfl⟩ := List.mem_map.mp hi
        exact hne (h.distinct m q modelId x.1 x.2 hname ⟨r, hmem, hmid, hx⟩).1
    refine ⟨h.order.updates hup, h.futures.updates hup, unfinished_settleAll hswept.unfinished,
      ?_, ?_, ?_, ?_, ?_, h.once, h.admitted, ?_, ?_⟩
    · intro c hc
      obtain ⟨hc, hne⟩ := (hout c).mp hc
      obtain ⟨hname, hp⟩ := hswept.outstanding c hc
      have hname' := (hnames _ _ _).mpr ⟨hname, hne⟩
      exact ⟨hname', (hpending _).mpr ⟨hp, hother _ _ _ hname'⟩⟩
    · intro m q i hname hp
      obtain ⟨hname, hne⟩ := (hnames _ _ _).mp hname
      obtain ⟨c, hc, hkey⟩ := hswept.queued _ _ _ hname ((hpending i).mp hp).1
      have hcid : c.modelId = m := congrArg Prod.fst hkey
      exact ⟨c, (hout c).mpr ⟨hc, hcid ▸ hne⟩, hkey⟩
    · intro m q m' q' i hname hname'
      exact h.distinct _ _ _ _ _ ((hnames _ _ _).mp hname).1 ((hnames _ _ _).mp hname').1
    · exact fun m q i hname => h.used m q i ((hnames m q i).mp hname).1
    · exact fun m q i hname => h.commands m q i ((hnames m q i).mp hname).1
    · intro r' hr'
      obtain ⟨hlt, hnot⟩ := h.createIds r' (List.mem_filter.mp hr').1
      exact ⟨hlt, fun m q hname => hnot m q ((hnames _ _ _).mp hname).1⟩
    · intro x hx
      obtain ⟨hlt, hnot⟩ := h.sampleIds x hx
      exact ⟨hlt, fun m q hname => hnot m q ((hnames _ _ _).mp hname).1⟩

/-- Commands under one sequence number of one model are one command. -/
theorem ServiceOrder.command_unique (h : s.ServiceOrder) {c c' : Command}
    (hc : c ∈ submissions s.trace) (hc' : c' ∈ submissions s.trace) (hkey : c.key = c'.key) :
    c = c' := List.inj_on_of_nodup_map h.trace.once hc hc' hkey

/-- The answer to an issued command, which leaves its queue. -/
theorem PendingInv.finishPending (h : s.PendingInv) {command : Command} (hc : s.Issued command)
    (outcome : Outcome) : (s.finishPending command outcome).PendingInv := by
  have hup : Updates ⟨0, 0, 0⟩ s (s.finishPending command outcome) :=
    .single (.finish s command outcome)
  let s' := s.finishPending command outcome
  have hout : ∀ c, s'.Outstanding c ↔ s.Outstanding c ∧ c.key ≠ command.key := by
    intro c
    constructor
    · rintro ⟨q', hq', hcmem⟩
      obtain ⟨q, hq, rfl⟩ := List.mem_map.mp hq'
      by_cases hid : q.modelId = command.modelId
      · rw [if_pos hid] at hcmem
        obtain hqueue | hbuffer := List.mem_append.mp hcmem
        · obtain ⟨p, hp, rfl⟩ := List.mem_map.mp hqueue
          obtain ⟨hp, hne⟩ := List.mem_filter.mp hp
          refine ⟨⟨q, hq, List.mem_append_left _ (List.mem_map.mpr ⟨p, hp, rfl⟩)⟩, ?_⟩
          exact fun hkey => of_decide_eq_true hne (congrArg Prod.snd hkey)
        · refine ⟨⟨q, hq, List.mem_append_right _ hbuffer⟩, fun hkey => ?_⟩
          -- an issued command is in no buffer
          have hadmitted := ((h.order.queues q hq).buffered c hbuffer).2.1
          rw [h.order.command_unique hadmitted hc.1 hkey] at hbuffer
          exact hc.2 q hq hbuffer
      · rw [if_neg hid] at hcmem
        refine ⟨⟨q, hq, hcmem⟩, fun hkey => hid ?_⟩
        rw [← (h.order.outstanding hq hcmem).1]
        exact congrArg Prod.fst hkey
    · rintro ⟨⟨q, hq, hcmem⟩, hne⟩
      refine ⟨_, List.mem_map.mpr ⟨q, hq, rfl⟩, ?_⟩
      split
      · rename_i hid
        obtain hqueue | hbuffer := List.mem_append.mp hcmem
        · obtain ⟨p, hp, rfl⟩ := List.mem_map.mp hqueue
          refine List.mem_append_left _ (List.mem_map.mpr ⟨p, List.mem_filter.mpr ⟨hp, ?_⟩, rfl⟩)
          refine decide_eq_true fun hseq => hne ?_
          have howner := (h.order.outstanding hq hcmem).1
          exact Prod.ext (howner.trans hid) hseq
        · exact List.mem_append_right _ hbuffer
      · exact hcmem
  have hpending : ∀ i, s'.Pending i ↔ s.Pending i ∧ i ≠ command.requestId :=
    fun i => pending_settle_iff
  have hsub : submissions s'.trace = submissions s.trace := by
    show submissions (s.trace ++ [_]) = submissions s.trace
    rw [submissions_append]
    exact List.append_nil _
  have hsamekey : ∀ c, s.Outstanding c → c.key = command.key → c = command := by
    rintro c ⟨q, hq, hcmem⟩ hkey
    exact h.order.command_unique (h.order.outstanding hq hcmem).2 hc.1 hkey
  refine ⟨h.order.updates hup, h.futures.updates hup, unfinished_settle h.unfinished,
    ?_, ?_, h.distinct, h.used, hsub ▸ h.commands, hsub ▸ h.once, fun c hc => h.admitted c (hsub ▸ hc),
    h.createIds, h.sampleIds⟩
  · intro c hcout
    obtain ⟨hcout, hne⟩ := (hout c).mp hcout
    obtain ⟨hname, hp⟩ := h.outstanding c hcout
    refine ⟨hname, (hpending _).mpr ⟨hp, fun hid => hne ?_⟩⟩
    obtain ⟨q, hq, hcmem⟩ := hcout
    have hadmitted := (h.order.outstanding hq hcmem).2
    exact congrArg Command.key (List.inj_on_of_nodup_map h.once hadmitted hc.1 hid)
  · intro m q i hname hp
    obtain ⟨hp, hne⟩ := (hpending i).mp hp
    obtain ⟨c, hcout, hkey⟩ := h.queued m q i hname hp
    refine ⟨c, (hout c).mpr ⟨hcout, fun hsame => hne ?_⟩, hkey⟩
    rw [← hsamekey c hcout hsame]
    -- the name of a sequence number is unique
    obtain ⟨hcmid, hcseq⟩ := Prod.mk.inj hkey
    have hcname := (h.outstanding c hcout).1
    rw [hcmid, hcseq] at hcname
    exact h.futures.names_unique hname hcname

/-! ## Requests of clients -/

/-- A queue that takes its next commands keeps what is outstanding. -/
theorem mem_outstanding_enqueue (fuel : Nat) (q : ModelRequestQueue)
    (hunique : ∀ a ∈ q.pendingBySeq, ∀ b ∈ q.pendingBySeq, a.seqId = b.seqId → a = b)
    (c : Command) : c ∈ (q.enqueueContiguous fuel).outstanding ↔ c ∈ q.outstanding := by
  induction fuel generalizing q with
  | zero => exact Iff.rfl
  | succ fuel ih =>
    unfold ModelRequestQueue.enqueueContiguous
    split
    · exact Iff.rfl
    · next command hfind =>
      have hmem := List.mem_of_find?_eq_some hfind
      have hseq : command.seqId = q.lastEnqueuedSeqId + 1 := by simpa using List.find?_some hfind
      have hcommand : (PendingRequest.ofCommand command).command = command := by
        unfold PendingRequest.ofCommand
        split <;> rfl
      rw [ih _ fun a ha b hb => hunique a (List.mem_filter.mp ha).1 b (List.mem_filter.mp hb).1]
      unfold ModelRequestQueue.outstanding
      simp only [List.map_append, List.map_cons, List.map_nil, List.mem_append, List.mem_cons,
        List.not_mem_nil, or_false, List.mem_filter, hcommand, or_assoc]
      refine or_congr_right ?_
      -- the command moved from the buffer to the queue
      constructor
      · rintro (rfl | ⟨hc, -⟩)
        · exact hmem
        · exact hc
      · intro hc
        by_cases heq : c.seqId = q.lastEnqueuedSeqId + 1
        · exact .inl (hunique c hc command hmem (heq.trans hseq.symm))
        · exact .inr ⟨hc, decide_eq_true heq⟩

/-- A queue that accepts a new command has it outstanding. -/
theorem mem_outstanding_submit {q : ModelRequestQueue} {command : Command}
    (hnew : ∀ a ∈ q.pendingBySeq, a.seqId ≠ command.seqId)
    (hunique : ∀ a ∈ q.pendingBySeq, ∀ b ∈ q.pendingBySeq, a.seqId = b.seqId → a = b)
    (c : Command) : c ∈ (q.submit command).outstanding ↔ c ∈ q.outstanding ∨ c = command := by
  have hfilter : q.pendingBySeq.filter (·.seqId ≠ command.seqId) = q.pendingBySeq :=
    List.filter_eq_self.mpr fun a ha => decide_eq_true (hnew a ha)
  unfold ModelRequestQueue.submit
  rw [mem_outstanding_enqueue, hfilter]
  · unfold ModelRequestQueue.outstanding
    simp only [List.mem_append, List.mem_singleton, or_assoc]
  · rw [hfilter]
    intro a ha b hb hseq
    obtain ha | ha := List.mem_append.mp ha <;> obtain hb | hb := List.mem_append.mp hb
    · exact hunique a ha b hb hseq
    · rw [List.mem_singleton.mp hb] at hseq
      exact absurd hseq (hnew a ha)
    · rw [List.mem_singleton.mp ha] at hseq
      exact absurd hseq.symm (hnew b hb)
    · exact (List.mem_singleton.mp ha).trans (List.mem_singleton.mp hb).symm

/-- A new future that no model names. -/
theorem PendingInv.unfinished_create (h : s.PendingInv) (owner : FutureOwner) (tenant : String) :
    ∀ f ∈ (s.createFuture owner tenant).futures, f.state = .pending → f.finishedAt = none := by
  intro f hf hp
  obtain hf | rfl := mem_createFuture hf
  · exact h.unfinished f hf hp
  · rfl

theorem pending_create_iff {owner : FutureOwner} {tenant : String} {i : Nat} :
    (s.createFuture owner tenant).Pending i ↔ s.Pending i ∨ i = s.nextId := by
  constructor
  · rintro ⟨f, hf, hid, hp⟩
    obtain hf | rfl := mem_createFuture hf
    · exact .inl ⟨f, hf, hid, hp⟩
    · exact .inr hid.symm
  · rintro (⟨f, hf, hid, hp⟩ | rfl)
    · exact ⟨f, List.mem_append_left _ hf, hid, hp⟩
    · exact ⟨_, List.mem_append_right _ (List.mem_singleton.mpr rfl), rfl, rfl⟩

/-- A model opens with an empty queue and no requests but the first. -/
theorem PendingInv.openModel (h : s.PendingInv) (sessionId slot : Nat) (tenant : String) :
    PendingInv { { s with nextId := s.nextId + 1 }.createFuture (.model s.nextId) tenant with
      models := s.models ++ [{
        modelId := s.nextId, sessionId, tenant, slot, createRequestId := s.nextId + 1 }]
      queues := s.queues ++ [{ modelId := s.nextId, tenant, slot }] } := by
  refine h.transfer (.single (.openModel s sessionId slot tenant) : Updates ⟨0, 0, 0⟩ _ _) rfl
    ?_ ?_ ?_ ?_ ?_ fun x hx => .inl ⟨x, hx, rfl⟩
  · intro f hf hp
    obtain hf | rfl := mem_createFuture hf
    · exact h.unfinished f hf hp
    · rfl
  · intro m q i
    constructor
    · rintro ⟨r, hr, hid, hreq⟩
      obtain hr | hr := List.mem_append.mp hr
      · exact ⟨r, hr, hid, hreq⟩
      · rw [List.mem_singleton.mp hr] at hreq
        exact absurd hreq List.not_mem_nil
    · rintro ⟨r, hr, hid, hreq⟩
      exact ⟨r, List.mem_append_left _ hr, hid, hreq⟩
  · intro c
    constructor
    · rintro ⟨q, hq, hc⟩
      obtain hq | hq := List.mem_append.mp hq
      · exact ⟨q, hq, hc⟩
      · rw [List.mem_singleton.mp hq] at hc
        exact absurd hc List.not_mem_nil
    · rintro ⟨q, hq, hc⟩
      exact ⟨q, List.mem_append_left _ hq, hc⟩
  · intro m q i hname
    have hused := h.used m q i hname
    constructor
    · rintro ⟨f, hf, hid, hp⟩
      obtain hf | rfl := mem_createFuture hf
      · exact ⟨f, hf, hid, hp⟩
      · have hid : s.nextId + 1 = i := hid
        omega
    · rintro ⟨f, hf, hid, hp⟩
      exact ⟨f, List.mem_append_left _ hf, hid, hp⟩
  · intro r hr
    obtain hr | hr := List.mem_append.mp hr
    · exact .inl ⟨r, hr, rfl⟩
    · rw [List.mem_singleton.mp hr]
      exact .inr ⟨Nat.le_succ _, Nat.lt_succ_self _⟩

/-- A forgotten answer is replaced by one that no model names. -/
theorem PendingInv.replace (h : s.PendingInv) (owner : FutureOwner) (tenant : String)
    (outcome : Outcome) : ((s.createFuture owner tenant).settle s.nextId outcome).PendingInv := by
  refine h.answer (.single (.replace s owner tenant outcome) : Updates ⟨0, 0, 0⟩ _ _) rfl
    (unfinished_settle (h.unfinished_create owner tenant)) rfl rfl
    (fun x hx => .inl ⟨x, hx, rfl⟩) ?_
  intro m q i hname
  have hused := h.used m q i hname
  refine pending_settle_iff.trans ?_
  show (s.createFuture owner tenant).Pending i ∧ i ≠ s.nextId ↔ s.Pending i
  rw [pending_create_iff]
  constructor
  · rintro ⟨hp | hi, hne⟩
    · exact hp
    · exact absurd hi hne
  · exact fun hp => ⟨.inl hp, by omega⟩

/-- What a retry answers with: the old name, or a new one whose future has an answer, when no
    future has the old one. -/
theorem PendingInv.retry (h : s.PendingInv) (requestId : Nat) (owner : FutureOwner)
    (tenant : String) : ∃ id s', s.requestIdForRetry requestId owner tenant = (id, s') ∧
      s'.PendingInv ∧ s'.models = s.models ∧ s'.queues = s.queues ∧
      (id = requestId ∨ ¬ s'.Pending requestId ∧ ¬ s'.Pending id ∧
        s.nextId ≤ id ∧ id < s'.nextId ∧ ∀ m q, ¬ s'.Names m q id) := by
  unfold requestIdForRetry
  dsimp only
  split
  · exact ⟨_, _, rfl, h.sweep, rfl, rfl, .inl rfl⟩
  · rename_i hgone
    refine ⟨_, _, rfl, h.sweep.replace owner tenant _, rfl, rfl, .inr ⟨?_, ?_, ?_⟩⟩
    · rintro ⟨f, hf, hid, hp⟩
      obtain ⟨hold, hne⟩ := pending_settle hp hf
      obtain hold | rfl := mem_createFuture hold
      · exact hgone (List.any_eq_true.mpr ⟨f, hold, decide_eq_true hid⟩)
      · exact hne rfl
    · rintro ⟨f, hf, hid, hp⟩
      exact (pending_settle hp hf).2 hid
    · refine ⟨Nat.le_refl _, Nat.lt_succ_self _, fun m q hname => ?_⟩
      have hlt := h.used m q _ hname
      exact Nat.lt_irrefl _ hlt

/-- A retry may rename the request of its sequence number, but not a pending one. -/
theorem PendingInv.rename (h : s.PendingInv) {modelId seqId old new : Nat} {r : ModelRecord}
    (hr : s.findModel modelId = some r) (hold : r.requestIdBySeq.lookup seqId = some old)
    (hnew : new = old ∨ ¬ s.Pending old ∧ ¬ s.Pending new ∧ new < s.nextId ∧
      (∀ m q, ¬ s.Names m q new) ∧ (∀ r ∈ s.models, r.createRequestId ≠ new) ∧
      ∀ x ∈ s.sampleTasks, x.1 ≠ new) :
    (s.modifyModel modelId fun r => { r with
      requestIdBySeq := (seqId, new) :: r.requestIdBySeq.filter (·.1 ≠ seqId) }).PendingInv := by
  obtain ⟨hmem, hmid⟩ := findModel_some hr
  have holdname : s.Names modelId seqId old := ⟨r, hmem, hmid, List.mem_of_lookup hold⟩
  have hup : Updates ⟨0, 0, 0⟩ s (s.modifyModel modelId fun r => { r with
      requestIdBySeq := (seqId, new) :: r.requestIdBySeq.filter (·.1 ≠ seqId) }) := by
    refine .single (.rename s modelId seqId old new (fun r' hr' => ?_) fun hne f hf hid hp => ?_)
    · rw [hr] at hr'
      cases hr'
      exact hold
    · obtain heq | hnot := hnew
      · exact hne heq
      · exact hnot.1 ⟨f, hf, hid, hp⟩
  let s' := s.modifyModel modelId fun r => { r with
    requestIdBySeq := (seqId, new) :: r.requestIdBySeq.filter (·.1 ≠ seqId) }
  have hnames : ∀ m q i, s'.Names m q i ↔
      s.Names m q i ∧ ¬ (m = modelId ∧ q = seqId) ∨ m = modelId ∧ q = seqId ∧ i = new := by
    intro m q i
    constructor
    · rintro ⟨r', hr', hid, hreq⟩
      obtain ⟨r₀, hr₀, rfl⟩ := List.mem_map.mp hr'
      by_cases heq : r₀.modelId = modelId
      · rw [if_pos heq] at hid hreq
        obtain hreq | hreq := List.mem_cons.mp hreq
        · obtain ⟨rfl, rfl⟩ := Prod.mk.inj hreq
          exact .inr ⟨hid.symm.trans heq, rfl, rfl⟩
        · obtain ⟨hreq, hne⟩ := List.mem_filter.mp hreq
          exact .inl ⟨⟨r₀, hr₀, hid, hreq⟩, fun h => of_decide_eq_true hne h.2⟩
      · rw [if_neg heq] at hid hreq
        exact .inl ⟨⟨r₀, hr₀, hid, hreq⟩, fun h => heq (hid.trans h.1)⟩
    · rintro (⟨⟨r₀, hr₀, hid, hreq⟩, hne⟩ | ⟨rfl, rfl, rfl⟩)
      · refine ⟨_, List.mem_map.mpr ⟨r₀, hr₀, rfl⟩, ?_⟩
        split
        · next heq =>
          refine ⟨hid, List.mem_cons_of_mem _ (List.mem_filter.mpr ⟨hreq, decide_eq_true ?_⟩)⟩
          exact fun hseq => hne ⟨hid.symm.trans heq, hseq⟩
        · exact ⟨hid, hreq⟩
      · refine ⟨_, List.mem_map.mpr ⟨r, hmem, rfl⟩, ?_⟩
        rw [if_pos hmid]
        exact ⟨hmid, List.mem_cons_self⟩
  -- a name of the new identifier is the one that is renamed
  have hrenamed : ∀ m q, s.Names m q new → m = modelId ∧ q = seqId := by
    intro m q hname
    obtain rfl | hnot := hnew
    · exact h.distinct _ _ _ _ _ hname holdname
    · exact absurd hname (hnot.2.2.2.1 m q)
  refine ⟨h.order.updates hup, h.futures.updates hup, h.unfinished, ?_, ?_, ?_, ?_, ?_, h.once,
    h.admitted, ?_, ?_⟩
  · intro c hc
    obtain ⟨hname, hp⟩ := h.outstanding c hc
    refine ⟨(hnames _ _ _).mpr ?_, hp⟩
    by_cases hkey : c.modelId = modelId ∧ c.seqId = seqId
    · have hid : c.requestId = old := by
        rw [hkey.1, hkey.2] at hname
        exact h.futures.names_unique hname holdname
      obtain rfl | hnot := hnew
      · exact .inr ⟨hkey.1, hkey.2, hid⟩
      · exact absurd (hid ▸ hp) hnot.1
    · exact .inl ⟨hname, hkey⟩
  · intro m q i hname hp
    obtain ⟨hname, -⟩ | ⟨rfl, rfl, rfl⟩ := (hnames m q i).mp hname
    · exact h.queued m q i hname hp
    · obtain rfl | hnot := hnew
      · exact h.queued _ _ _ holdname hp
      · exact absurd hp hnot.2.1
  · intro m q m' q' i hname hname'
    obtain ⟨hname, hne⟩ | ⟨hm, hq, hi⟩ := (hnames m q i).mp hname <;>
      obtain ⟨hname', hne'⟩ | ⟨hm', hq', hi'⟩ := (hnames m' q' i).mp hname'
    · exact h.distinct m q m' q' i hname hname'
    · exact absurd (hrenamed m q (hi' ▸ hname)) hne
    · exact absurd (hrenamed m' q' (hi ▸ hname')) hne'
    · exact ⟨hm.trans hm'.symm, hq.trans hq'.symm⟩
  · intro m q i hname
    obtain ⟨hname, -⟩ | ⟨rfl, rfl, rfl⟩ := (hnames m q i).mp hname
    · exact h.used m q i hname
    · obtain rfl | hnot := hnew
      · exact h.used _ _ _ holdname
      · exact hnot.2.2.1
  · intro m q i hname
    obtain ⟨hname, -⟩ | ⟨rfl, rfl, -⟩ := (hnames m q i).mp hname
    · exact h.commands m q i hname
    · exact h.commands _ _ _ holdname
  · intro r' hr'
    obtain ⟨r₀, hr₀, rfl⟩ := List.mem_map.mp hr'
    obtain ⟨hlt, hnot⟩ := h.createIds r₀ hr₀
    have hunnamed : ∀ m q, ¬ s'.Names m q r₀.createRequestId := by
      intro m q hname
      obtain ⟨hname, -⟩ | ⟨-, -, heq⟩ := (hnames m q _).mp hname
      · exact hnot m q hname
      · obtain rfl | hnew := hnew
        · exact hnot _ _ (heq ▸ holdname)
        · exact hnew.2.2.2.2.1 r₀ hr₀ heq
    split
    · exact ⟨hlt, hunnamed⟩
    · exact ⟨hlt, hunnamed⟩
  · intro x hx
    obtain ⟨hlt, hnot⟩ := h.sampleIds x hx
    refine ⟨hlt, fun m q hname => ?_⟩
    obtain ⟨hname, -⟩ | ⟨-, -, heq⟩ := (hnames m q _).mp hname
    · exact hnot m q hname
    · obtain rfl | hnew := hnew
      · exact hnot _ _ (heq ▸ holdname)
      · exact hnew.2.2.2.2.2 x hx heq

/-- A command is admitted: its sequence number gets a name, and it goes to the queue. -/
def admitted (s : Service) (tenant : String) (command : Command) : Service :=
  { (((s.createFuture (.model command.modelId) tenant).modifyModel
        command.modelId fun r => { r with
          requestIdBySeq := (command.seqId, command.requestId) :: r.requestIdBySeq }).modifyQueue
        command.modelId (·.submit command)).record (.submitted command) with
      arrivalCounter := s.arrivalCounter + 1 }

/-- Its name is the one that is new. -/
theorem names_admitted {r : ModelRecord} {command : Command} (tenant : String)
    (hr : s.findModel command.modelId = some r) (m q i : Nat) :
    (s.admitted tenant command).Names m q i ↔ s.Names m q i ∨
      m = command.modelId ∧ q = command.seqId ∧ i = command.requestId := by
  obtain ⟨hmem, hmid⟩ := findModel_some hr
  constructor
  · rintro ⟨r', hr', hrid, hreq⟩
    obtain ⟨r₀, hr₀, rfl⟩ := List.mem_map.mp hr'
    by_cases heq : r₀.modelId = command.modelId
    · rw [if_pos heq] at hrid hreq
      obtain hreq | hreq := List.mem_cons.mp hreq
      · obtain ⟨rfl, rfl⟩ := Prod.mk.inj hreq
        exact .inr ⟨hrid.symm.trans heq, rfl, rfl⟩
      · exact .inl ⟨r₀, hr₀, hrid, hreq⟩
    · rw [if_neg heq] at hrid hreq
      exact .inl ⟨r₀, hr₀, hrid, hreq⟩
  · rintro (⟨r₀, hr₀, hrid, hreq⟩ | ⟨rfl, rfl, rfl⟩)
    · refine ⟨_, List.mem_map.mpr ⟨r₀, hr₀, rfl⟩, ?_⟩
      split
      · exact ⟨hrid, List.mem_cons_of_mem _ hreq⟩
      · exact ⟨hrid, hreq⟩
    · refine ⟨_, List.mem_map.mpr ⟨r, hmem, rfl⟩, ?_⟩
      rw [if_pos hmid]
      exact ⟨hmid, List.mem_cons_self⟩

/-- It is outstanding, as its sequence number is new to the buffer of the model. -/
theorem outstanding_admitted (h : s.ServiceOrder) {r : ModelRecord} {command : Command}
    (tenant : String) (hr : s.findModel command.modelId = some r)
    (hnew : r.requestIdBySeq.lookup command.seqId = none) (c : Command) :
    (s.admitted tenant command).Outstanding c ↔ s.Outstanding c ∨ c = command := by
  obtain ⟨hmem, hmid⟩ := findModel_some hr
  have hunique : ∀ q ∈ s.queues, ∀ a ∈ q.pendingBySeq, ∀ b ∈ q.pendingBySeq,
      a.seqId = b.seqId → a = b := by
    intro q hq a ha b hb hab
    have ha := (h.queues q hq).buffered a ha
    have hb := (h.queues q hq).buffered b hb
    exact h.command_unique ha.2.1 hb.2.1 (Prod.ext (ha.1.trans hb.1.symm) hab)
  have hseqnew : ∀ q ∈ s.queues, q.modelId = command.modelId →
      ∀ a ∈ q.pendingBySeq, a.seqId ≠ command.seqId := by
    intro q hq hqid a ha heq
    have ha := (h.queues q hq).buffered a ha
    have hdedup := h.dedup a ha.2.1 r hmem (hmid.trans (hqid.symm.trans ha.1.symm))
    rw [heq] at hdedup
    exact not_mem_of_lookup hnew hdedup
  constructor
  · rintro ⟨q', hq', hc⟩
    obtain ⟨q, hq, rfl⟩ := List.mem_map.mp hq'
    split at hc
    · next hqid =>
      obtain hc | rfl := (mem_outstanding_submit (hseqnew q hq hqid) (hunique q hq) c).mp hc
      · exact .inl ⟨q, hq, hc⟩
      · exact .inr rfl
    · exact .inl ⟨q, hq, hc⟩
  · rintro (⟨q, hq, hc⟩ | rfl)
    · refine ⟨_, List.mem_map.mpr ⟨q, hq, rfl⟩, ?_⟩
      split
      · next hqid =>
        exact (mem_outstanding_submit (hseqnew q hq hqid) (hunique q hq) c).mpr (.inl hc)
      · exact hc
    · -- a live model has a queue
      have hkey : (r.modelId, r.slot) ∈ s.queues.map fun q => (q.modelId, q.slot) :=
        h.registry.queues ▸ List.mem_map.mpr ⟨r, hmem, rfl⟩
      obtain ⟨q, hq, hqkey⟩ := List.mem_map.mp hkey
      have hqid : q.modelId = c.modelId := (congrArg Prod.fst hqkey).trans hmid
      refine ⟨_, List.mem_map.mpr ⟨q, hq, rfl⟩, ?_⟩
      rw [if_pos hqid]
      exact (mem_outstanding_submit (hseqnew q hq hqid) (hunique q hq) c).mpr (.inr rfl)

/-- Admitting a command: its name has a pending future, and it is outstanding. -/
theorem PendingInv.enqueueCommand (h : s.PendingInv) {tenant : String} {r : ModelRecord}
    {command : Command} (hr : s.findModel command.modelId = some r) (hseq : 1 ≤ command.seqId)
    (hnew : r.requestIdBySeq.lookup command.seqId = none) (hid : command.requestId = s.nextId)
    (harrival : command.arrival = s.arrivalCounter + 1) : (s.admitted tenant command).PendingInv := by
  have hup : Updates ⟨0, 0, 0⟩ s (s.admitted tenant command) :=
    .single (.enqueueCommand s tenant r command hr hseq hnew hid harrival)
  let s' := s.admitted tenant command
  have hnames : ∀ m q i, s'.Names m q i ↔ s.Names m q i ∨
      m = command.modelId ∧ q = command.seqId ∧ i = command.requestId := names_admitted tenant hr
  have hout : ∀ c, s'.Outstanding c ↔ s.Outstanding c ∨ c = command :=
    outstanding_admitted h.order tenant hr hnew
  -- every name in use has a smaller id, so the new one is fresh
  have hunnamed : ∀ m q, ¬ s.Names m q command.requestId := by
    intro m q hname
    have hlt := h.used m q _ hname
    omega
  have hpending : ∀ i, s'.Pending i ↔ s.Pending i ∨ i = s.nextId := fun i => pending_create_iff
  have hsub : submissions s'.trace = submissions s.trace ++ [command] := submissions_append _ _
  have hnext : s'.nextId = s.nextId + 1 := rfl
  suffices hgoal : s'.PendingInv from hgoal
  -- each clause holds of the old names as before, and of the new one by its command
  refine ⟨h.order.updates hup, h.futures.updates hup, h.unfinished_create _ _, ?_, ?_, ?_, ?_, ?_,
    ?_, ?_, ?_, ?_⟩
  · intro c hc
    obtain hc | rfl := (hout c).mp hc
    · obtain ⟨hname, hp⟩ := h.outstanding c hc
      exact ⟨(hnames _ _ _).mpr (.inl hname), (hpending _).mpr (.inl hp)⟩
    · exact ⟨(hnames _ _ _).mpr (.inr ⟨rfl, rfl, rfl⟩), (hpending _).mpr (.inr hid)⟩
  · intro m q i hname hp
    obtain hname | ⟨rfl, rfl, rfl⟩ := (hnames m q i).mp hname
    · obtain hp | rfl := (hpending i).mp hp
      · obtain ⟨c, hc, hkey⟩ := h.queued m q i hname hp
        exact ⟨c, (hout c).mpr (.inl hc), hkey⟩
      · exact absurd (h.used m q _ hname) (Nat.lt_irrefl _)
    · exact ⟨command, (hout command).mpr (.inr rfl), rfl⟩
  · intro m q m' q' i hname hname'
    obtain hname | ⟨rfl, rfl, rfl⟩ := (hnames m q i).mp hname <;>
      obtain hname' | ⟨rfl, rfl, heq⟩ := (hnames m' q' _).mp hname'
    · exact h.distinct m q m' q' i hname hname'
    · exact absurd (heq ▸ hname) (hunnamed m q)
    · exact absurd hname' (hunnamed m' q')
    · exact ⟨rfl, rfl⟩
  · intro m q i hname
    obtain hname | ⟨-, -, rfl⟩ := (hnames m q i).mp hname
    · have hlt := h.used m q i hname
      omega
    · omega
  · intro m q i hname
    rw [hsub]
    obtain hname | ⟨rfl, rfl, -⟩ := (hnames m q i).mp hname
    · obtain ⟨c, hc, hkey⟩ := h.commands m q i hname
      exact ⟨c, List.mem_append_left _ hc, hkey⟩
    · exact ⟨command, List.mem_append_right _ List.mem_cons_self, rfl⟩
  · -- the ids admitted so far are below `nextId`
    rw [hsub, List.map_append, List.nodup_append]
    refine ⟨h.once, List.nodup_singleton _, ?_⟩
    intro a ha b hb hab
    obtain ⟨c, hc, rfl⟩ := List.mem_map.mp ha
    have hlt := h.admitted c hc
    have hab : c.requestId = b := hab
    have hb : b = command.requestId := List.mem_singleton.mp hb
    omega
  · intro c hc
    rw [hsub] at hc
    obtain hc | hc := List.mem_append.mp hc
    · have hlt := h.admitted c hc
      omega
    · rw [List.mem_singleton.mp hc]
      omega
  · intro r' hr'
    obtain ⟨r₀, hr₀, rfl⟩ := List.mem_map.mp hr'
    obtain ⟨hlt, hnot⟩ := h.createIds r₀ hr₀
    have hkept : r₀.createRequestId < s'.nextId ∧ ∀ m q, ¬ s'.Names m q r₀.createRequestId := by
      refine ⟨by omega, fun m q hname => ?_⟩
      obtain hname | ⟨-, -, heq⟩ := (hnames m q _).mp hname
      · exact hnot m q hname
      · omega
    split
    · exact hkept
    · exact hkept
  · intro x hx
    obtain ⟨hlt, hnot⟩ := h.sampleIds x hx
    refine ⟨by omega, fun m q hname => ?_⟩
    obtain hname | ⟨-, -, heq⟩ := (hnames m q _).mp hname
    · exact hnot m q hname
    · omega

end Service

end Miles.Tinker
