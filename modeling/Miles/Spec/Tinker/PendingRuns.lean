import Miles.Spec.Tinker.PendingRequests

/-!
# Pending requests along a run

The jobs of a critical section answer commands that were issued, so whatever task holds the
trainer lock, a request is pending exactly as long as its command is outstanding.
-/

namespace Miles.Tinker

/-! ## Critical sections -/

/-- The commands that a job answers. -/
def Job.commands : Job → List Command
  | .finish command _ => [command]
  | _ => []

/-- The commands that the holder of the lock answers when its call returns. -/
def Await.commands : Await → List Command
  | .forward unit refs => (unit.datums ++ refs).map (·.command)
  | .barrier unit => unit.entries.map (·.command)
  | _ => []

def Holder.commands (h : Holder) : List Command := h.awaiting.commands ++ h.jobs.flatMap (·.commands)

namespace Service

open Lts Relation

variable {config : GatewayConfig} {s s' : Service}

/-- The requests are in order, and the lock holder's commands are out of the buffers. -/
structure HolderInv (s : Service) : Prop where
  pending : s.PendingInv
  issued : ∀ h, s.holder = some h → ∀ c ∈ h.commands, s.Issued c

/-- In a critical section: the commands of the jobs ahead are out of the buffers. -/
structure InJobs (jobs : List Job) (s : Service) : Prop where
  pending : s.PendingInv
  issued : ∀ job ∈ jobs, ∀ c ∈ job.commands, s.Issued c

theorem HolderInv.init (config : GatewayConfig) : HolderInv (Tinker.init config) where
  pending := .init config
  issued _ h := nomatch h

theorem Issued.updates {c : Command} (h : s.Issued c) (hinv : s.PendingInv)
    (hup : Updates config s s') : s'.Issued c := h.forward (.updates hinv.order hup)

/-- A command at the head of a queue is out of the buffers. -/
theorem PendingInv.issued_queue (h : s.PendingInv) {q : ModelRequestQueue} (hq : q ∈ s.queues)
    {p : PendingRequest} (hp : p ∈ q.queue) : s.Issued p.command := by
  have hrequest := (h.order.queues q hq).requests p hp
  refine ⟨hrequest.submitted, fun q' hq' hc => ?_⟩
  have hbuffered := (h.order.queues q' hq').buffered _ hc
  have hle := (h.order.queues q hq).bounded p hp
  obtain rfl : q = q' := List.inj_on_of_nodup_map h.order.registry.queueIds hq hq'
    (hrequest.owner.symm.trans hbuffered.1)
  omega

/-- Finishing an issued command settles its future. -/
theorem PendingInv.finishRequest (h : s.PendingInv) {command : Command} (hc : s.Issued command)
    (outcome : Outcome) : (s.finishRequest command outcome).1.PendingInv := by
  obtain ⟨error, category, heq⟩ | heq := finishRequest_cases command outcome s
  · rw [heq]
    exact h.closeModel command.modelId error category
  · rw [heq]
    exact h.finishPending hc outcome

/-- A job of the list is run. -/
theorem InJobs.runJob {job : Job} {jobs : List Job} (h : InJobs (job :: jobs) s) :
    InJobs jobs (s.runJob job).1 := by
  constructor
  · cases job with
    | finish command outcome =>
      exact h.pending.finishRequest (h.issued _ List.mem_cons_self _ List.mem_cons_self) outcome
    | close modelId error category => exact h.pending.closeModel modelId error category
    | checkTrainer => exact h.pending
  · intro job' hjob c hc
    have hup : Updates ⟨0, 0, 0⟩ s (s.runJob job).1 := .runJob job s
    exact (h.issued job' (List.mem_cons_of_mem _ hjob) c hc).updates h.pending hup

/-- The lock, the dispatcher and the slots do not matter to the requests. -/
theorem PendingInv.control (h : s.PendingInv) (hup : Updates config s s')
    (hfutures : s'.futures = s.futures) (hsamples : s'.sampleTasks = s.sampleTasks)
    (hmodels : s'.models = s.models) (hqueues : s'.queues = s.queues)
    (htrace : s'.trace = s.trace) : s'.PendingInv :=
  h.same hup (htrace ▸ rfl) hfutures hsamples (hmodels ▸ rfl) (hqueues ▸ rfl)

theorem PendingInv.release (h : s.PendingInv) (task : Task) : (s.release task).PendingInv :=
  h.control (.single (.release task s) : Updates ⟨0, 0, 0⟩ _ _) rfl rfl rfl rfl rfl

theorem PendingInv.lock (h : s.PendingInv) (holder : Option Holder) (waiters : List Task)
    (dispatcher : Dispatcher) : PendingInv { s with holder, waiters, dispatcher } :=
  h.control (.single (.lock s holder waiters dispatcher) : Updates ⟨0, 0, 0⟩ _ _) rfl rfl rfl rfl rfl

/-- What a job waits for answers no command. -/
theorem runJob_awaiting {job : Job} {awaiting : Await} (h : s.runJob job = (s', some awaiting)) :
    awaiting.commands = [] := by
  have hclose : ∀ modelId error category,
      s.closeModel modelId error category = (s', some awaiting) → awaiting.commands = [] := by
    intro modelId error category hclose
    obtain ⟨-, heq⟩ | ⟨r, -, heq⟩ := closeModel_cases modelId error category s
    · rw [heq] at hclose
      cases hclose
    · rw [heq] at hclose
      cases hclose
      rfl
  cases job with
  | finish command outcome =>
    obtain ⟨error, category, heq⟩ | heq := finishRequest_cases command outcome s
    · exact hclose _ error category (heq.symm.trans h)
    · have h : s.finishRequest command outcome = (s', some awaiting) := h
      rw [heq] at h
      cases h
  | close modelId error category => exact hclose modelId error category h
  | checkTrainer =>
    cases h
    rfl

/-- All jobs of the list are run and the lock is left. -/
theorem InJobs.runJobs {task : Task} {jobs : List Job} (h : InJobs jobs s) :
    (s.runJobs task jobs).HolderInv := by
  refine runJobs_rule (fun jobs s => InJobs jobs s) HolderInv ?_ ?_ ?_ h
  · intro job jobs s s' h hjob
    have hnext := h.runJob
    rw [hjob] at hnext
    exact hnext
  · intro job jobs s s' awaiting h hjob
    have hnext := h.runJob
    rw [hjob] at hnext
    refine ⟨hnext.pending.lock _ s'.waiters s'.dispatcher, fun holder hholder c hc => ?_⟩
    cases hholder
    obtain hc | hc := List.mem_append.mp hc
    · rw [runJob_awaiting hjob] at hc
      exact absurd hc List.not_mem_nil
    · obtain ⟨job', hjob', hc⟩ := List.mem_flatMap.mp hc
      exact hnext.issued job' hjob' c hc
  · exact fun s h => ⟨h.pending.release task, fun _ hnone => nomatch hnone⟩

/-- An aborted task leaves the lock. -/
theorem PendingInv.abort (h : s.PendingInv) (task : Task) : (s.abort task).HolderInv := by
  have hup : Updates ⟨0, 0, 0⟩ s (s.abort task) := .abort task s
  have hnone : (s.abort task).holder = none := by
    unfold Service.abort
    dsimp only
    split
    · rfl
    · split <;> rfl
  refine ⟨?_, fun holder hholder => by rw [hnone] at hholder; cases hholder⟩
  unfold Service.abort at hup ⊢
  dsimp only at hup ⊢
  split
  · rename_i htask
    rw [if_pos htask] at hup
    exact h.control hup rfl rfl rfl rfl rfl
  · rename_i htask
    rw [if_neg htask] at hup
    split
    · rename_i hbackground
      rw [if_pos hbackground] at hup
      exact h.control hup rfl rfl rfl rfl rfl
    · exact h.release task

/-! ## The dispatcher and the other tasks -/

/-- The dispatcher enters the lock and issues what is ready. -/
theorem PendingInv.dispatch (h : s.PendingInv) : (s.dispatch config).HolderInv := by
  unfold Service.dispatch
  split
  · next p ps hready =>
    refine InJobs.runJobs ⟨h, fun job hjob c hc => ?_⟩
    obtain ⟨p', hp', rfl⟩ := List.mem_map.mp hjob
    obtain rfl := List.mem_singleton.mp hc
    rw [← hready] at hp'
    obtain ⟨q, hq, hhead⟩ := List.mem_filterMap.mp hp'
    exact h.issued_queue hq (List.mem_of_head? (Option.filter_eq_some_iff.mp hhead).1)
  · split
    · exact ⟨h.lock none s.waiters .asleep, fun _ hnone => nomatch hnone⟩
    · next unit hunit =>
      have hup : Updates config s { s.record (.batchIssued (slotOrder unit.datums)) with
          queues := RequestScheduler.markIssued unit.datums s.queues } :=
        .single (.issueBatch s unit hunit)
      have hmarked : PendingInv { s.record (.batchIssued (slotOrder unit.datums)) with
          queues := RequestScheduler.markIssued unit.datums s.queues } := by
        refine h.same hup ?_ rfl rfl rfl ?_
        · show submissions (s.trace ++ [_]) = submissions s.trace
          rw [submissions_append]
          exact List.append_nil _
        · show (RequestScheduler.markIssued unit.datums s.queues).map _ = _
          unfold RequestScheduler.markIssued
          rw [List.map_map]
          refine List.map_congr_left fun q _ => ?_
          show (q.queue.map _).map PendingRequest.command ++ q.pendingBySeq = _
          rw [List.map_map]
          rfl
      refine ⟨hmarked.lock _ s.waiters s.dispatcher, fun holder hholder c hc => ?_⟩
      cases hholder
      have hissued : ∀ ref ∈ unit.datums, s.Issued ref.command := by
        intro ref href
        obtain ⟨seed, -, rfl⟩ := RequestScheduler.scheduleNext_batch hunit
        obtain ⟨q, hq, p, hp, href⟩ :=
          RequestScheduler.mem_readyDatums (RequestScheduler.mem_pickCompatible href)
        rw [(RequestScheduler.mem_unissued href).2.2.1]
        exact h.issued_queue hq ((RequestScheduler.openBatchRun_sublist q).subset hp)
      have hc : c ∈ (unit.datums ++ slotOrder unit.datums).map (·.command) := by
        simpa [Holder.commands, Await.commands, Job.commands] using hc
      obtain ⟨ref, href, rfl⟩ := List.mem_map.mp hc
      have href : ref ∈ unit.datums := by
        obtain href | href := List.mem_append.mp href
        · exact href
        · exact (List.perm_insertionSort _ unit.datums).subset href
      exact (hissued ref href).updates h (hup.tail (.lock _ _ s.waiters s.dispatcher))
    · next unit hunit =>
      have hup : Updates config s (s.record (.barrierIssued unit.entries)) :=
        .single (.issueBarrier s unit hunit)
      have hmarked : (s.record (.barrierIssued unit.entries)).PendingInv := by
        refine h.same hup ?_ rfl rfl rfl rfl
        show submissions (s.trace ++ [_]) = submissions s.trace
        rw [submissions_append]
        exact List.append_nil _
      refine ⟨hmarked.lock _ s.waiters s.dispatcher, fun holder hholder c hc => ?_⟩
      cases hholder
      have hc : c ∈ unit.entries.map (·.command) := by
        simpa [Holder.commands, Await.commands, Job.commands] using hc
      obtain ⟨entry, hentry, rfl⟩ := List.mem_map.mp hc
      have hready := (RequestScheduler.scheduleNext_barrier hunit).subset hentry
      obtain ⟨q, hq, p, rest, hqueue, -, rfl⟩ := RequestScheduler.mem_readyBarriers hready
      have hissued : s.Issued p.command := h.issued_queue hq (hqueue ▸ List.mem_cons_self)
      exact hissued.updates h (hup.tail (.lock _ _ s.waiters s.dispatcher))

/-- A task enters the lock. -/
theorem PendingInv.enter (h : s.PendingInv) (task : Task) : (s.enter config task).HolderInv := by
  by_cases htask : task = .dispatcher
  · subst htask
    exact (h.lock s.holder s.waiters .running).dispatch
  · have hawait : ∀ awaiting, Await.commands awaiting = [] → HolderInv { s with
        holder := some { task, awaiting, jobs := [] } } := by
      intro awaiting hnone
      refine ⟨h.lock _ s.waiters s.dispatcher, fun holder hholder c hc => ?_⟩
      cases hholder
      rw [Holder.commands, hnone] at hc
      exact absurd hc List.not_mem_nil
    obtain heq | ⟨modelId, r, -, -, heq⟩ | ⟨sessionIds, error, heq⟩ | heq :=
      enter_cases config htask s
    · rw [heq]
      exact ⟨h.release task, fun _ hnone => nomatch hnone⟩
    · rw [heq]
      exact hawait _ rfl
    · rw [heq]
      refine InJobs.runJobs ⟨h.endSessions sessionIds error, fun job hjob c hc => ?_⟩
      obtain ⟨r, -, rfl⟩ := List.mem_map.mp hjob
      exact absurd hc List.not_mem_nil
    · rw [heq]
      exact hawait _ rfl

theorem HolderInv.acquire (h : s.HolderInv) (task : Task) :
    (s.acquire config task).HolderInv := by
  unfold Service.acquire
  split
  · exact h.pending.enter task
  · have hup : Updates config s { s with
        waiters := s.waiters ++ [task]
        dispatcher := if task = .dispatcher then .waiting else s.dispatcher } :=
      .single (.lock s s.holder _ _)
    exact ⟨h.pending.lock s.holder _ _, fun holder hholder c hc =>
      (h.issued holder hholder c hc).updates h.pending hup⟩

/-! ## Replies -/

theorem outstanding_modify {ref : DatumRef} {output : Output} (q : ModelRequestQueue) :
    (q.modify ref.command.seqId (·.recordOutput ref.localIndex output)).outstanding =
      q.outstanding := by
  unfold ModelRequestQueue.outstanding ModelRequestQueue.modify
  dsimp only
  rw [List.map_map]
  congr 1
  refine List.map_congr_left fun p _ => ?_
  show (if _ then _ else p).command = p.command
  split <;> rfl

theorem PendingInv.recordOutput (h : s.PendingInv) (ref : DatumRef) (output : Output) :
    (s.recordOutput ref output).PendingInv := by
  have hstored : (s.modifyQueue ref.modelId
      (·.modify ref.command.seqId (·.recordOutput ref.localIndex output))).PendingInv := by
    refine h.same (.single (.recordOutput s ref output) : Updates ⟨0, 0, 0⟩ _ _) rfl rfl rfl rfl ?_
    exact map_modifyQueue outstanding_modify
  unfold Service.recordOutput
  dsimp only
  split
  · exact hstored
  · next p hfind =>
    split
    · obtain ⟨q, hq, hp⟩ := Option.bind_eq_some_iff.mp hfind
      exact hstored.finishRequest
        (hstored.issued_queue (List.mem_of_find?_eq_some hq) (List.mem_of_find?_eq_some hp)) _
    · exact hstored

theorem PendingInv.recordOutputs (h : s.PendingInv) (answers : List (DatumRef × Output)) :
    (s.recordOutputs answers).PendingInv := by
  induction answers generalizing s with
  | nil => exact h
  | cons x rest ih => exact ih (h.recordOutput x.1 x.2)

/-- Nothing but the trace changes, and no command is admitted. -/
theorem PendingInv.record (h : s.PendingInv) {e : TraceEvent}
    (hup : Update config s (s.record e)) (he : e.submission = none) : (s.record e).PendingInv := by
  refine h.same (.single hup) ?_ rfl rfl rfl rfl
  show submissions (s.trace ++ [e]) = submissions s.trace
  rw [submissions_append]
  have hnil : submissions [e] = [] := by
    show List.filterMap _ [e] = []
    rw [List.filterMap_cons_none he, List.filterMap_nil]
  rw [hnil, List.append_nil]

theorem PendingInv.setInitialized (h : s.PendingInv) (modelId : Nat) :
    (s.modifyModel modelId ({ · with slotInitialized := true })).PendingInv := by
  refine h.same (.single (.setInitialized s modelId) : Updates ⟨0, 0, 0⟩ _ _) rfl rfl rfl ?_ rfl
  exact map_modifyModel fun _ => rfl

theorem PendingInv.freeSlot (h : s.PendingInv) (slot : Nat) : (s.freeSlot slot).PendingInv :=
  h.control (.single (.freeSlot slot s) : Updates ⟨0, 0, 0⟩ _ _) rfl rfl rfl rfl rfl

theorem PendingInv.withhold (h : s.PendingInv) (r : ModelRecord) (reason : WithheldReason) :
    (s.withhold r reason).PendingInv :=
  h.control (.single (.withhold r reason s) : Updates ⟨0, 0, 0⟩ _ _) rfl rfl rfl rfl rfl

/-- The jobs that the holder still has, in a later state. -/
theorem HolderInv.jobs (h : s.HolderInv) {holder : Holder} (hholder : s.holder = some holder)
    (hup : Updates config s s') (hpending : s'.PendingInv) : InJobs holder.jobs s' := by
  refine ⟨hpending, fun job hjob c hc => ?_⟩
  have hmem : c ∈ holder.commands :=
    List.mem_append_right _ (List.mem_flatMap.mpr ⟨job, hjob, hc⟩)
  exact (h.issued holder hholder c hmem).updates h.pending hup

/-- Jobs that answer commands of the call that returned come first. -/
theorem HolderInv.jobs_append (h : s.HolderInv) {holder : Holder}
    (hholder : s.holder = some holder) {jobs : List Job}
    (hjobs : ∀ job ∈ jobs, ∀ c ∈ job.commands, c ∈ holder.awaiting.commands) :
    InJobs (jobs ++ holder.jobs) s := by
  refine ⟨h.pending, fun job hjob c hc => ?_⟩
  obtain hjob | hjob := List.mem_append.mp hjob
  · exact h.issued holder hholder c (List.mem_append_left _ (hjobs job hjob c hc))
  · exact h.issued holder hholder c
      (List.mem_append_right _ (List.mem_flatMap.mpr ⟨job, hjob, hc⟩))

/-- The end of the call that the lock holder waits for keeps the invariant. -/
theorem HolderInv.resume (h : s.HolderInv) {reply : Reply} (hs : s.resume reply = some s') :
    s'.HolderInv := by
  obtain ⟨holder, hholder, hresumed⟩ := resume_cases hs
  cases hresumed with
  | loaded modelId slot r hawait hr =>
    obtain ⟨hmem, hmid⟩ := findModel_some hr
    have hinit := h.pending.setInitialized modelId
    -- a request that creates a model is no command of one
    have hunnamed : ∀ m q,
        ¬ (s.modifyModel modelId ({ · with slotInitialized := true })).Names m q
          r.createRequestId := by
      have hcreate : { r with slotInitialized := true } ∈
          (s.modifyModel modelId ({ · with slotInitialized := true })).models :=
        List.mem_map.mpr ⟨r, hmem, if_pos hmid⟩
      exact (hinit.createIds _ hcreate).2
    have hsettled : ((s.modifyModel modelId ({ · with slotInitialized := true })).settle
        r.createRequestId (.result (.createModel modelId))).PendingInv := hinit.settle hunnamed
    have hloaded : Update ⟨0, 0, 0⟩ ((s.modifyModel modelId
        ({ · with slotInitialized := true })).settle r.createRequestId
          (.result (.createModel modelId))) _ :=
      .mark _ (.loaded modelId slot) (.inl ⟨modelId, slot, rfl⟩)
    have hup : Updates ⟨0, 0, 0⟩ s _ := .head (.setInitialized s modelId)
      (.head (.settle _ r.createRequestId (.result (.createModel modelId))) (.single hloaded))
    exact (h.jobs hholder hup (hsettled.record hloaded rfl)).runJobs
  | loadFailed modelId slot error hawait =>
    have hup : Updates ⟨0, 0, 0⟩ s _ := .single (.setInitialized s modelId)
    have hjobs := h.jobs hholder hup (h.pending.setInitialized modelId)
    refine InJobs.runJobs ⟨hjobs.pending, fun job hjob c hc => ?_⟩
    obtain rfl | hjob := List.mem_cons.mp hjob
    · exact absurd hc List.not_mem_nil
    · exact hjobs.issued job hjob c hc
  | answered unit refs outputs hawait hlen =>
    have hmark : Update ⟨0, 0, 0⟩ s (s.record (.answered refs outputs)) :=
      .mark s _ (.inr (.inr ⟨refs, outputs, rfl⟩))
    have hup : Updates ⟨0, 0, 0⟩ s
        ((s.record (.answered refs outputs)).recordOutputs (refs.zip outputs)) :=
      .head hmark (Updates.recordOutputs _ _)
    exact (h.jobs hholder hup ((h.pending.record hmark rfl).recordOutputs _)).runJobs
  | batchFailed unit refs error category hawait =>
    -- the commands to finish are those of the batch: they were issued
    refine (h.jobs_append hholder fun job hjob c hc => ?_).runJobs
    obtain ⟨command, hcommand, rfl⟩ := List.mem_map.mp hjob
    obtain rfl := List.mem_singleton.mp hc
    obtain ⟨ref, href, rfl⟩ := List.mem_map.mp (List.mem_eraseDups.mp hcommand)
    rw [hawait]
    exact List.mem_map.mpr ⟨ref, List.mem_append_left _ href, rfl⟩
  | barrierDone unit outcomes hawait hlen =>
    -- and here those of the barrier
    refine (h.jobs_append hholder fun job hjob c hc => ?_).runJobs
    obtain ⟨x, hx, rfl⟩ := List.mem_map.mp hjob
    obtain rfl := List.mem_singleton.mp hc
    rw [hawait]
    exact List.mem_map.mpr ⟨x.1, (List.of_mem_zip hx).1, rfl⟩
  | continued => exact (h.jobs hholder (.refl : Updates ⟨0, 0, 0⟩ s s) h.pending).runJobs
  | unloading r hawait =>
    have hmark : Update ⟨0, 0, 0⟩ s (s.record (.unloadStarted r.slot)) :=
      .mark s _ (.inr (.inl ⟨r.slot, rfl⟩))
    have hup : Updates ⟨0, 0, 0⟩ s (s.record (.unloadStarted r.slot)) := .single hmark
    have hjobs := h.jobs hholder hup (h.pending.record hmark rfl)
    refine ⟨hjobs.pending.lock _ s.waiters s.dispatcher, fun x hx c hc => ?_⟩
    cases hx
    have hc : c ∈ holder.jobs.flatMap (·.commands) := hc
    obtain ⟨job, hjob, hc⟩ := List.mem_flatMap.mp hc
    exact hjobs.issued job hjob c hc
  | freed r hawait =>
    have hup : Updates ⟨0, 0, 0⟩ s (s.freeSlot r.slot) := .single (.freeSlot r.slot s)
    exact (h.jobs hholder hup (h.pending.freeSlot r.slot)).runJobs
  | withheld r reason hawait hreason =>
    have hup : Updates ⟨0, 0, 0⟩ s (s.withhold r reason) := .single (.withhold r reason s)
    exact (h.jobs hholder hup (h.pending.withhold r reason)).runJobs
  | aborted => exact h.pending.abort holder.task
  | closeAborted r reason => exact (h.pending.withhold r reason).abort holder.task
  | cancelled => exact ⟨h.pending.release holder.task, fun _ hnone => nomatch hnone⟩
  | closeCancelled r =>
    exact ⟨(h.pending.withhold r .interrupted).release holder.task, fun _ hnone => nomatch hnone⟩

/-! ## Requests of clients, and runs -/

/-- A step that leaves the lock alone. -/
theorem HolderInv.keep (h : s.HolderInv) (hup : Updates config s s') (hpending : s'.PendingInv)
    (hholder : s'.holder = s.holder) : s'.HolderInv :=
  ⟨hpending, fun holder hx c hc =>
    (h.issued holder (hholder ▸ hx) c hc).updates h.pending hup⟩

/-- The sample tasks and the lock do not change in a retry. -/
theorem requestIdForRetry_keeps (requestId : Nat) (owner : FutureOwner) (tenant : String)
    (s : Service) : (s.requestIdForRetry requestId owner tenant).2.sampleTasks = s.sampleTasks ∧
      (s.requestIdForRetry requestId owner tenant).2.holder = s.holder := by
  unfold requestIdForRetry
  dsimp only
  split <;> exact ⟨rfl, rfl⟩

theorem PendingInv.createModel (h : s.PendingInv) {tenant : String}
    {sessionId modelSeqId : Nat} {supported : Bool} {ids : Nat × Nat × Service}
    (hs : s.createModel tenant sessionId modelSeqId supported = .ok ids) :
    ids.2.2.PendingInv ∧ ids.2.2.holder = s.holder := by
  unfold Service.createModel at hs
  split at hs
  · cases hs
  · split at hs
    · next requestId modelId _ =>
      obtain ⟨id, m, hretry, hm, -⟩ := h.retry requestId (.model modelId) tenant
      have hholder : m.holder = s.holder := by
        have hkeeps := (requestIdForRetry_keeps requestId (.model modelId) tenant s).2
        rwa [hretry] at hkeeps
      rw [hretry] at hs
      cases hs
      refine ⟨?_, hholder⟩
      exact hm.control (.single (.control _ _ _ _ _ _ _ _ _ _ _ _ (Nat.le_refl _)) :
        Updates ⟨0, 0, 0⟩ _ _) rfl rfl rfl rfl rfl
    · split at hs
      · cases hs
      · split at hs
        · cases hs
        · next slot _ =>
          cases hs
          refine ⟨?_, rfl⟩
          exact (h.openModel sessionId slot tenant).control
            (.single (.control _ _ _ _ _ _ _ _ _ _ _ _ (Nat.le_refl _)) : Updates ⟨0, 0, 0⟩ _ _)
            rfl rfl rfl rfl rfl

/-- A submission, admitted or refused. -/
theorem PendingInv.submit (h : s.PendingInv) {tenant : String} {modelId : Nat} {seqId : Int}
    {op : CommandOp} {payload : Payload} {validationError : Option String} {res : Nat × Service}
    (hs : s.submit tenant modelId seqId op payload validationError = .ok res) :
    res.2.PendingInv ∧ res.2.holder = s.holder := by
  obtain ⟨r, hr, hseq, ⟨requestId, hlookup, rfl⟩ | ⟨hlookup, command, rfl, rfl⟩⟩ :=
    submit_cases hs
  · obtain ⟨id, m, hretry, hm, hmodels, -, hnew⟩ := h.retry requestId (.model modelId) tenant
    obtain ⟨hsamples, hholder⟩ := requestIdForRetry_keeps requestId (.model modelId) tenant s
    rw [hretry] at hsamples hholder ⊢
    refine ⟨?_, hholder⟩
    have hfind : m.findModel modelId = some r := by
      unfold findModel
      rw [hmodels]
      exact getModel_ok hr
    refine hm.rename hfind hlookup (hnew.imp_right fun hnew => ?_)
    obtain ⟨hold, hid, hle, hlt, hunnamed⟩ := hnew
    refine ⟨hold, hid, hlt, hunnamed, fun r' hr' => ?_, fun x hx => ?_⟩
    · have hfresh := (h.createIds r' (hmodels ▸ hr')).1
      omega
    · have hfresh := (h.sampleIds x (hsamples ▸ hx)).1
      omega
  · refine ⟨?_, rfl⟩
    let command : Command := ⟨modelId, seqId.toNat, op, payload, s.nextId, s.arrivalCounter + 1,
      validationError⟩
    have hfind : s.findModel command.modelId = some r := getModel_ok hr
    have hadmitted : PendingInv { (((s.createFuture (.model modelId) tenant).modifyModel
        modelId fun r => { r with
          requestIdBySeq := (command.seqId, command.requestId) :: r.requestIdBySeq }).modifyQueue
        modelId (·.submit command)).record (.submitted command) with
        arrivalCounter := s.arrivalCounter + 1 } :=
      h.enqueueCommand hfind (show 1 ≤ seqId.toNat by omega) hlookup rfl rfl
    exact hadmitted.control (.single (.control _ _ _ _ _ _ _ _ _ _ _ _ (Nat.le_refl _)) :
      Updates ⟨0, 0, 0⟩ _ _) rfl rfl rfl rfl rfl

/-- A new sample, or the end of one: its request belongs to no model. -/
theorem PendingInv.startSample (h : s.PendingInv) (tenant : String) (sessionId : Option Nat) :
    PendingInv { s.createFuture .sampler tenant with
      sampleTasks := s.sampleTasks ++ [(s.nextId, sessionId)] } := by
  refine h.answer (.single (.startSample s tenant sessionId) : Updates ⟨0, 0, 0⟩ _ _) rfl
    (h.unfinished_create .sampler tenant) rfl rfl ?_ ?_
  · intro x hx
    obtain hx | hx := List.mem_append.mp hx
    · exact .inl ⟨x, hx, rfl⟩
    · rw [List.mem_singleton.mp hx]
      exact .inr ⟨Nat.le_refl _, Nat.lt_succ_self _⟩
  · intro m q i hname
    have hused := h.used m q i hname
    refine pending_create_iff.trans (or_iff_left ?_)
    omega

theorem PendingInv.endSample (h : s.PendingInv) {requestId : Nat} {outcome : Outcome}
    (hsample : s.sampleTasks.any (·.1 = requestId) = true) :
    PendingInv { s.settle requestId outcome with
      sampleTasks := s.sampleTasks.filter (·.1 ≠ requestId) } := by
  refine h.answer (.single (.endSample s requestId outcome) : Updates ⟨0, 0, 0⟩ _ _) rfl
    (unfinished_settle h.unfinished) rfl rfl
    (fun x hx => .inl ⟨x, (List.mem_filter.mp hx).1, rfl⟩) ?_
  intro m q i hname
  refine pending_settle_iff.trans (and_iff_left ?_)
  rintro rfl
  obtain ⟨x, hx, hid⟩ := List.any_eq_true.mp hsample
  rw [← of_decide_eq_true hid] at hname
  exact (h.sampleIds x hx).2 m q hname

/-- Every event keeps the invariant of the lock holder. -/
theorem HolderInv.step (h : s.HolderInv) {e : Event} (hs : step config s e = some s') :
    s'.HolderInv := by
  have hup := step_updates hs
  -- the holder changes only where the lock is asked for, handed on, or its task resumed
  cases e with
  | createSession | heartbeat | tick =>
    cases hs
    exact h.keep hup (h.pending.control hup rfl rfl rfl rfl rfl) rfl
  | createModel tenant sessionId modelSeqId supported =>
    cases hs
    cases hcreate : s.createModel tenant sessionId modelSeqId supported with
    | error e => exact h
    | ok ids =>
      rw [hcreate] at hup
      obtain ⟨hpending, hholder⟩ := h.pending.createModel hcreate
      exact h.keep hup hpending hholder
  | startCreate modelId =>
    simp only [Service.step] at hs
    split at hs
    · cases hs
      have hstart : Updates config s { s with starting := s.starting.erase modelId } :=
        .single (.control _ _ _ _ _ _ _ _ _ _ _ _ (Nat.le_refl _))
      exact (h.keep hstart (h.pending.control hstart rfl rfl rfl rfl rfl) rfl).acquire _
    · cases hs
  | submit tenant modelId seqId op payload validationError =>
    cases hs
    cases hsubmit : s.submit tenant modelId seqId op payload validationError with
    | error e => exact h
    | ok res =>
      rw [hsubmit] at hup
      obtain ⟨hpending, hholder⟩ := h.pending.submit hsubmit
      exact h.keep hup hpending hholder
  | poll =>
    cases hs
    exact h.keep hup h.pending.sweep rfl
  | ask task =>
    simp only [Service.step] at hs
    split at hs
    · cases hs
    · cases hs
    · cases hs
      exact h.acquire task
  | dispatcherLoop =>
    simp only [Service.step] at hs
    split at hs
    · cases hs
      split
      · have hstop : Updates config s s.stopDispatcher := .single (.stopDispatcher s)
        exact h.keep hstop (h.pending.control hstop rfl rfl rfl rfl rfl) rfl
      · exact h.acquire .dispatcher
    · cases hs
  | wakeUp =>
    simp only [Service.step] at hs
    split at hs
    · cases hs
      exact h.keep hup (h.pending.control hup rfl rfl rfl rfl rfl) rfl
    · cases hs
  | grant =>
    simp only [Service.step] at hs
    split at hs
    · next task waiters _ _ =>
      cases hs
      exact (h.pending.lock s.holder waiters s.dispatcher).enter task
    · cases hs
  | resume reply => exact h.resume hs
  | startSample tenant sessionId =>
    simp only [Service.step] at hs
    split at hs
    · cases hs
      exact h.keep hup (h.pending.startSample tenant sessionId) rfl
    · cases hs
  | endSample requestId outcome =>
    simp only [Service.step] at hs
    split at hs
    · next hsample =>
      cases hs
      exact h.keep hup (h.pending.endSample hsample) rfl
    · cases hs

/-- The request of a sequence number is pending iff its command is outstanding. -/
theorem PendingInv.pending_iff_outstanding (h : s.PendingInv) (r : ModelRecord)
    (hr : r ∈ s.models) (seqId : Nat) :
    (∃ requestId, r.requestIdBySeq.lookup seqId = some requestId ∧ s.Pending requestId) ↔
      ∃ q ∈ s.queues, q.modelId = r.modelId ∧ seqId ∈ q.outstanding.map (·.seqId) := by
  constructor
  · rintro ⟨requestId, hlookup, hp⟩
    obtain ⟨c, ⟨q, hq, hc⟩, hkey⟩ :=
      h.queued r.modelId seqId requestId ⟨r, hr, rfl, List.mem_of_lookup hlookup⟩ hp
    obtain ⟨hcmid, hcseq⟩ := Prod.mk.inj hkey
    exact ⟨q, hq, (h.order.outstanding hq hc).1.symm.trans hcmid,
      List.mem_map.mpr ⟨c, hc, hcseq⟩⟩
  · rintro ⟨q, hq, hqid, hseq⟩
    obtain ⟨c, hc, rfl⟩ := List.mem_map.mp hseq
    obtain ⟨⟨r', hr', hid, hreq⟩, hp⟩ := h.outstanding c ⟨q, hq, hc⟩
    have hcmid := (h.order.outstanding hq hc).1
    obtain rfl : r' = r := List.inj_on_of_nodup_map h.order.registry.ids hr' hr
      (hid.trans (hcmid.trans hqid))
    exact ⟨c.requestId, (List.lookup_eq_some_iff_mem (h.futures.keys r' hr)).mpr hreq, hp⟩

end Service

end Miles.Tinker
