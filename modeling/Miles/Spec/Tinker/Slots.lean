import Miles.Spec.Tinker.Updates

/-!
# Adapter slots are neither lost nor shared

Every slot is free, owned by a live model, in a close that is in progress, or withheld after a
close that could not unload it.
-/

namespace Miles.Tinker

/-- The slots of the closes that stand at this await. -/
def closingSlots (awaiting : Option Await) : List Nat := (awaiting.map Await.closing).getD []

namespace Service

open Lts Relation

variable {config : GatewayConfig} {s s' : Service}

/-! ## The registry -/

/-- Model identifiers are distinct and in use, and queues belong to models. -/
structure Registry (s : Service) : Prop where
  ids : (s.models.map (·.modelId)).Nodup
  fresh : ∀ r ∈ s.models, r.modelId < s.nextId
  queues : s.queues.map (fun q => (q.modelId, q.slot)) =
    s.models.map (fun r => (r.modelId, r.slot))

theorem Registry.init (config : GatewayConfig) : Registry (init config) where
  ids := .nil
  fresh _ hr := absurd hr List.not_mem_nil
  queues := rfl

/-- Changing a model keeps what the change keeps of it. -/
theorem map_modifyModel {α : Type} {modelId : Nat} {f : ModelRecord → ModelRecord}
    {g : ModelRecord → α} (hf : ∀ r, g (f r) = g r) :
    (s.modifyModel modelId f).models.map g = s.models.map g := by
  show (s.models.map _).map g = s.models.map g
  rw [List.map_map]
  apply List.map_congr_left
  intro r _
  show g (if r.modelId = modelId then f r else r) = g r
  split
  · exact hf r
  · rfl

theorem map_modifyQueue {α : Type} {modelId : Nat} {f : ModelRequestQueue → ModelRequestQueue}
    {g : ModelRequestQueue → α} (hf : ∀ q, g (f q) = g q) :
    (s.modifyQueue modelId f).queues.map g = s.queues.map g := by
  show (s.queues.map _).map g = s.queues.map g
  rw [List.map_map]
  apply List.map_congr_left
  intro q _
  show g (if q.modelId = modelId then f q else q) = g q
  split
  · exact hf q
  · rfl

/-- A queue that takes a command stays the queue of its model. -/
theorem enqueueContiguous_key (fuel : Nat) (q : ModelRequestQueue) :
    ((q.enqueueContiguous fuel).modelId, (q.enqueueContiguous fuel).slot) =
      (q.modelId, q.slot) := by
  induction fuel generalizing q with
  | zero => rfl
  | succ fuel ih =>
    unfold ModelRequestQueue.enqueueContiguous
    split
    · rfl
    · rw [ih]

theorem submit_key (command : Command) (q : ModelRequestQueue) :
    ((q.submit command).modelId, (q.submit command).slot) = (q.modelId, q.slot) :=
  enqueueContiguous_key _ _

theorem map_markIssued {α : Type} {g : ModelRequestQueue → α}
    (hg : ∀ q queue, g { q with queue } = g q) (picked : List DatumRef)
    (queues : List ModelRequestQueue) :
    (RequestScheduler.markIssued picked queues).map g = queues.map g := by
  unfold RequestScheduler.markIssued
  rw [List.map_map]
  exact List.map_congr_left fun q _ => hg q _

/-- A record keeps its identifier and slot, so the registry stays as it is. -/
theorem Registry.modifyModel (h : s.Registry) {modelId : Nat} {f : ModelRecord → ModelRecord}
    (hf : ∀ r, ((f r).modelId, (f r).slot) = (r.modelId, r.slot)) :
    (s.modifyModel modelId f).Registry := by
  have hid : ∀ r, (f r).modelId = r.modelId := fun r => congrArg Prod.fst (hf r)
  refine ⟨?_, ?_, ?_⟩
  · rw [map_modifyModel hid]
    exact h.ids
  · intro r hr
    obtain ⟨r', hr', rfl⟩ := List.mem_map.mp hr
    split
    · rw [hid]
      exact h.fresh r' hr'
    · exact h.fresh r' hr'
  · rw [map_modifyModel hf]
    exact h.queues

theorem Registry.modifyQueue (h : s.Registry) {modelId : Nat}
    {f : ModelRequestQueue → ModelRequestQueue}
    (hf : ∀ q, ((f q).modelId, (f q).slot) = (q.modelId, q.slot)) :
    (s.modifyQueue modelId f).Registry where
  ids := h.ids
  fresh := h.fresh
  queues := (map_modifyQueue hf).trans h.queues

/-- An update keeps the registry. -/
theorem Registry.update (h : s.Registry) (hup : Update config s s') : s'.Registry := by
  cases hup with
  | control _ _ _ _ _ _ _ _ _ _ _ hid =>
    exact ⟨h.ids, fun r hr => Nat.lt_of_lt_of_le (h.fresh r hr) hid, h.queues⟩
  | sweep | settle | settleAll | mark | issueBarrier | endSample =>
    exact ⟨h.ids, h.fresh, h.queues⟩
  | replace | startSample =>
    exact ⟨h.ids, fun r hr => Nat.lt_succ_of_lt (h.fresh r hr), h.queues⟩
  | rename => exact h.modifyModel fun _ => rfl
  | setInitialized => exact h.modifyModel fun _ => rfl
  | openModel sessionId slot tenant =>
    refine ⟨?_, ?_, ?_⟩
    · show ((s.models ++ [_]).map fun r : ModelRecord => r.modelId).Nodup
      rw [List.map_append, List.nodup_append]
      refine ⟨h.ids, List.nodup_singleton _, ?_⟩
      intro a ha b hb hab
      obtain ⟨r, hr, rfl⟩ := List.mem_map.mp ha
      have hlt := h.fresh r hr
      rw [hab, List.mem_singleton.mp hb] at hlt
      exact Nat.lt_irrefl _ hlt
    · intro r hr
      show r.modelId < s.nextId + 1 + 1
      obtain hr | hr := List.mem_append.mp hr
      · have hlt := h.fresh r hr
        omega
      · rw [List.mem_singleton.mp hr]
        show s.nextId < s.nextId + 1 + 1
        omega
    · show (s.queues ++ [_]).map _ = (s.models ++ [_]).map _
      rw [List.map_append, List.map_append, h.queues]
      rfl
  | enqueueCommand tenant r command hr hseq hnew hid harrival =>
    have hbase : (s.createFuture (.model command.modelId) tenant).Registry :=
      ⟨h.ids, fun r hr => Nat.lt_succ_of_lt (h.fresh r hr), h.queues⟩
    have hmodel : Registry (Service.modifyModel command.modelId (fun r => { r with
        requestIdBySeq := (command.seqId, command.requestId) :: r.requestIdBySeq }) _) :=
      hbase.modifyModel fun _ => rfl
    have hqueue : Registry (Service.modifyQueue command.modelId (·.submit command) _) :=
      hmodel.modifyQueue (submit_key command)
    exact ⟨hqueue.ids, hqueue.fresh, hqueue.queues⟩
  | close modelId r outcome hr =>
    -- both lists lose the entries of the model
    let p : Nat × Nat → Bool := fun x => decide (x.1 ≠ modelId)
    have hmodels : (s.models.map fun r => (r.modelId, r.slot)).filter p =
        (s.models.filter (·.modelId ≠ modelId)).map fun r => (r.modelId, r.slot) :=
      List.filter_map
    have hqueues : (s.queues.map fun q => (q.modelId, q.slot)).filter p =
        (s.queues.filter (·.modelId ≠ modelId)).map fun q => (q.modelId, q.slot) :=
      List.filter_map
    refine ⟨?_, ?_, ?_⟩
    · exact h.ids.sublist (List.filter_sublist.map _)
    · exact fun r hr => h.fresh r (List.mem_filter.mp hr).1
    · exact hqueues.symm.trans ((congrArg _ h.queues).trans hmodels)
  | finish command outcome =>
    have hqueue : Registry (Service.modifyQueue command.modelId (·.finish command.seqId) s) :=
      h.modifyQueue fun _ => rfl
    exact ⟨hqueue.ids, hqueue.fresh, hqueue.queues⟩
  | recordOutput ref output => exact h.modifyQueue fun _ => rfl
  | issueBatch unit hunit =>
    exact ⟨h.ids, h.fresh, (map_markIssued (fun _ _ => rfl) _ _).trans h.queues⟩

theorem Registry.updates (h : s.Registry) (hup : Updates config s s') : s'.Registry := by
  induction hup with
  | refl => exact h
  | tail _ hlast ih => exact ih.update hlast

/-! ## The four places of a slot -/

/-- The slots of closes in progress; only the holder of the lock closes models. -/
def closing (s : Service) : List Nat := closingSlots (s.holder.map (·.awaiting))

/-- All places, with the given slots in closes. -/
def accounted (s : Service) (closing : List Nat) : List Nat :=
  s.freeSlots ++ s.models.map (·.slot) ++ closing ++ s.withheld.map (·.1)

/-- The models without one are its slot less. -/
theorem perm_slots_filter {r : ModelRecord} (h : s.Registry) (hr : r ∈ s.models) :
    (r.slot :: (s.models.filter (·.modelId ≠ r.modelId)).map (·.slot)).Perm
      (s.models.map (·.slot)) := by
  have hids := h.ids
  generalize s.models = models at hr hids
  induction models with
  | nil => exact absurd hr List.not_mem_nil
  | cons r' models ih =>
    rw [List.map_cons, List.nodup_cons] at hids
    rw [List.filter_cons]
    split
    · next hne =>
      have hmem : r ∈ models := by
        obtain rfl | hr := List.mem_cons.mp hr
        · simp at hne
        · exact hr
      exact (List.Perm.swap _ _ _).trans ((ih hmem hids.2).cons _)
    · next heq =>
      have hid : r'.modelId = r.modelId := by simpa using heq
      -- no other model has this identifier
      have hrest : models.filter (·.modelId ≠ r.modelId) = models := by
        apply List.filter_eq_self.mpr
        intro x hx
        have hne : x.modelId ≠ r.modelId := by
          intro hx'
          exact hids.1 (List.mem_map.mpr ⟨x, hx, hx'.trans hid.symm⟩)
        simpa using hne
      have hsame : r = r' := by
        obtain heq | hmem := List.mem_cons.mp hr
        · exact heq
        · exact absurd (List.mem_map.mpr ⟨r, hmem, hid.symm⟩) hids.1
      rw [hrest, hsame, List.map_cons]

/-- Closing a model moves its slot to the close in progress. -/
theorem accounted_closeModel (h : s.Registry) (modelId : Nat) (error : String)
    (category : Category) :
    ((s.closeModel modelId error category).1.accounted
      (closingSlots (s.closeModel modelId error category).2)).Perm (s.accounted []) := by
  obtain ⟨-, hclose⟩ | ⟨r, hr, hclose⟩ := closeModel_cases modelId error category s
  · rw [hclose]
    exact .refl _
  · rw [hclose]
    obtain ⟨hmem, hid⟩ := findModel_some hr
    have hperm := perm_slots_filter h hmem
    rw [hid] at hperm
    show (s.freeSlots ++ (s.models.filter (·.modelId ≠ modelId)).map (·.slot) ++ [r.slot] ++
      s.withheld.map (·.1)).Perm (s.freeSlots ++ s.models.map (·.slot) ++ [] ++ _)
    rw [List.append_nil, List.append_assoc s.freeSlots]
    refine (List.Perm.append_left _ ?_).append_right _
    exact List.perm_append_comm.trans hperm

/-- A job moves slots between the places. -/
theorem accounted_runJob (h : s.Registry) (job : Job) :
    ((s.runJob job).1.accounted (closingSlots (s.runJob job).2)).Perm (s.accounted []) := by
  cases job with
  | finish command outcome =>
    show ((s.finishRequest command outcome).1.accounted
      (closingSlots (s.finishRequest command outcome).2)).Perm (s.accounted [])
    obtain ⟨error, category, hfinish⟩ | hfinish := finishRequest_cases command outcome s
    · rw [hfinish]
      exact accounted_closeModel h command.modelId error category
    · rw [hfinish]
      exact .refl _
  | close modelId error category => exact accounted_closeModel h modelId error category
  | checkTrainer => exact .refl _

/-- The rest of a critical section accounts for the same slots. -/
theorem slots_runJobs (h : s.Registry) (task : Task) (jobs : List Job) :
    ((s.runJobs task jobs).accounted (s.runJobs task jobs).closing).Perm (s.accounted []) := by
  refine runJobs_rule (fun _ m => m.Registry ∧ (m.accounted []).Perm (s.accounted []))
    (fun m => (m.accounted m.closing).Perm (s.accounted [])) ?_ ?_ ?_ ⟨h, .refl _⟩
  · rintro job jobs m m' ⟨hreg, hm⟩ hjob
    have hnext := accounted_runJob hreg job
    have hupdates : Updates ⟨0, 0, 0⟩ m (m.runJob job).1 := .runJob job m
    rw [hjob] at hnext hupdates
    exact ⟨hreg.updates hupdates, hnext.trans hm⟩
  · rintro job jobs m m' awaiting ⟨hreg, hm⟩ hjob
    have hnext := accounted_runJob hreg job
    rw [hjob] at hnext
    exact hnext.trans hm
  · rintro m ⟨-, hm⟩
    exact hm

/-! ## Every function accounts for the slots -/

theorem accounted_abort (task : Task) (s : Service) :
    (s.abort task).accounted (s.abort task).closing = s.accounted [] := by
  unfold abort
  simp only
  split
  · rfl
  · split <;> rfl

/-- A dispatch moves slots between the places. -/
theorem slots_dispatch (h : s.Registry) :
    ((s.dispatch config).accounted (s.dispatch config).closing).Perm (s.accounted []) := by
  unfold dispatch
  split
  · exact slots_runJobs h _ _
  · split <;> exact .refl _

/-- Entering the lock moves slots between the places. -/
theorem slots_enter (h : s.Registry) (task : Task) :
    ((s.enter config task).accounted (s.enter config task).closing).Perm (s.accounted []) := by
  unfold enter
  cases task with
  | dispatcher => exact slots_dispatch ⟨h.ids, h.fresh, h.queues⟩
  | createModel modelId =>
    simp only
    split <;> exact .refl _
  | finishSession tenant sessionId =>
    simp only
    split
    · have hend : (s.endSessions [sessionId] "session finished").1.Registry :=
        ⟨h.ids, h.fresh, h.queues⟩
      exact slots_runJobs hend _ _
    · exact .refl _
  | expireSessions =>
    have hend : ∀ ids error, (s.endSessions ids error).1.Registry :=
      fun _ _ => ⟨h.ids, h.fresh, h.queues⟩
    exact slots_runJobs (hend _ _) _ _
  | deleteCheckpoint => exact .refl _
  | expireCheckpoints => exact .refl _

theorem slots_acquire (h : s.Registry) (task : Task) :
    ((s.acquire config task).accounted (s.acquire config task).closing).Perm
      (s.accounted s.closing) := by
  unfold acquire
  split
  · next hfree =>
    have hnone : s.holder = none := by simpa using hfree.1
    have henter := @slots_enter config s h task
    have hclosing : s.closing = [] := by
      unfold closing
      rw [hnone]
      rfl
    rw [hclosing]
    exact henter
  · exact .refl _

/-- Outputs change queues and futures only. -/
theorem accounted_recordOutputs (answers : List (DatumRef × Output)) (s : Service)
    (closing : List Nat) : (s.recordOutputs answers).accounted closing = s.accounted closing := by
  induction answers generalizing s with
  | nil => rfl
  | cons x rest ih =>
    rw [recordOutputs, ih]
    unfold recordOutput
    simp only
    split
    · rfl
    · split
      · rfl
      · rfl

/-- A withheld slot is the one that was being closed. -/
theorem accounted_withhold (r : ModelRecord) (reason : WithheldReason) (s : Service) :
    ((s.withhold r reason).accounted []).Perm (s.accounted [r.slot]) := by
  show (s.freeSlots ++ s.models.map ModelRecord.slot ++ [] ++
    (s.withheld ++ [(r.slot, reason)]).map Prod.fst).Perm _
  rw [List.map_append, List.append_nil]
  show (_ ++ (_ ++ [r.slot])).Perm (_ ++ [r.slot] ++ _)
  rw [List.append_assoc _ [r.slot]]
  exact List.perm_append_comm.append_left _

/-- A slot whose close succeeded was not free before. -/
theorem accounted_freeSlot {slot : Nat} (hnodup : (s.accounted [slot]).Nodup) :
    ((s.freeSlot slot).accounted []).Perm (s.accounted [slot]) := by
  have hnew : slot ∉ s.freeSlots := by
    intro hmem
    unfold accounted at hnodup
    rw [List.append_assoc (_ ++ _), List.append_assoc] at hnodup
    exact (List.nodup_append.mp hnodup).2.2 slot hmem slot (by simp) rfl
  show (s.freeSlots.insert slot ++ s.models.map ModelRecord.slot ++ [] ++
    s.withheld.map Prod.fst).Perm _
  rw [List.insert_of_not_mem hnew, List.append_nil]
  refine List.Perm.append_right _ ?_
  show (slot :: (s.freeSlots ++ s.models.map ModelRecord.slot)).Perm _
  exact (List.perm_append_singleton _ _).symm

/-! ## Replies -/

theorem Registry.withhold (hreg : s.Registry) (r : ModelRecord) (reason : WithheldReason) :
    (s.withhold r reason).Registry := ⟨hreg.ids, hreg.fresh, hreg.queues⟩

theorem Registry.freeSlot (hreg : s.Registry) (slot : Nat) : (s.freeSlot slot).Registry :=
  ⟨hreg.ids, hreg.fresh, hreg.queues⟩

/-- Marking a model as initialised leaves its slot where it is. -/
theorem accounted_setInitialized (modelId : Nat) (s : Service) (closing : List Nat) :
    (s.modifyModel modelId ({ · with slotInitialized := true })).accounted closing =
      s.accounted closing := by
  have hmap : (s.modifyModel modelId ({ · with slotInitialized := true })).models.map (·.slot) =
      s.models.map (·.slot) := map_modifyModel fun _ => rfl
  unfold accounted
  rw [hmap]
  rfl

theorem Registry.setInitialized (hreg : s.Registry) (modelId : Nat) :
    (s.modifyModel modelId ({ · with slotInitialized := true })).Registry :=
  hreg.modifyModel fun _ => rfl

/-- The end of a call moves slots between the places. -/
theorem slots_resume (hreg : s.Registry) (hnodup : (s.accounted s.closing).Nodup) {reply : Reply}
    (hs : s.resume reply = some s') :
    (s'.accounted s'.closing).Perm (s.accounted s.closing) := by
  obtain ⟨h, hholder, hresumed⟩ := resume_cases hs
  have hclosing : s.closing = h.awaiting.closing := by
    unfold closing
    rw [hholder]
    rfl
  have hclose : ∀ r, h.awaiting = .closeTrainerDead r ∨ h.awaiting = .closeUnload r →
      s.closing = [r.slot] := by
    intro r hawait
    rw [hclosing]
    obtain hawait | hawait := hawait <;> rw [hawait] <;> rfl
  have hopen : h.awaiting.closing = [] → s.closing = [] := fun hempty => hclosing.trans hempty
  -- only a close holds a slot across its call; it is freed or withheld at the end
  cases hresumed with
  | loaded modelId slot r hawait hr =>
    have hmodel := hreg.setInitialized modelId
    rw [hopen (by rw [hawait]; rfl)]
    refine (slots_runJobs ?_ _ _).trans (.of_eq (accounted_setInitialized modelId s []))
    exact ⟨hmodel.ids, hmodel.fresh, hmodel.queues⟩
  | loadFailed modelId slot error hawait =>
    rw [hopen (by rw [hawait]; rfl)]
    exact (slots_runJobs (hreg.setInitialized modelId) _ _).trans
      (.of_eq (accounted_setInitialized modelId s []))
  | answered unit refs outputs hawait hlen =>
    rw [hopen (by rw [hawait]; rfl)]
    have hanswered : Registry (s.record (.answered refs outputs)) :=
      ⟨hreg.ids, hreg.fresh, hreg.queues⟩
    have hupdates : Updates ⟨0, 0, 0⟩ _ _ := .recordOutputs (refs.zip outputs)
      (s.record (.answered refs outputs))
    refine (slots_runJobs (hanswered.updates hupdates) _ _).trans (.of_eq ?_)
    rw [accounted_recordOutputs]
    rfl
  | batchFailed unit refs error category hawait =>
    rw [hopen (by rw [hawait]; rfl)]
    exact slots_runJobs hreg _ _
  | barrierDone unit outcomes hawait hlen =>
    rw [hopen (by rw [hawait]; rfl)]
    exact slots_runJobs hreg _ _
  | continued hawait =>
    rw [hopen (by obtain hawait | hawait := hawait <;> rw [hawait] <;> rfl)]
    exact slots_runJobs hreg _ _
  | unloading r hawait =>
    rw [hclose r (.inl hawait)]
    exact .refl _
  | freed r hawait =>
    rw [hclose r hawait] at hnodup ⊢
    exact (slots_runJobs (hreg.freeSlot r.slot) _ _).trans (accounted_freeSlot hnodup)
  | withheld r reason hawait hreason =>
    rw [hclose r hawait]
    exact (slots_runJobs (hreg.withhold r _) _ _).trans (accounted_withhold r _ s)
  | aborted hempty hload =>
    rw [hopen hempty]
    exact .of_eq (accounted_abort h.task s)
  | closeAborted r reason hawait hraised =>
    rw [hclose r hawait]
    exact (List.Perm.of_eq (accounted_abort h.task _)).trans (accounted_withhold r _ s)
  | cancelled hempty =>
    rw [hopen hempty]
    exact .refl _
  | closeCancelled r hawait =>
    rw [hclose r hawait]
    exact accounted_withhold r _ s

/-! ## Events -/

/-- A request of a client touches the slots only if it creates a model. -/
theorem slots_createModel {tenant : String} {sessionId modelSeqId : Nat} {supported : Bool}
    {ids : Nat × Nat × Service}
    (hs : s.createModel tenant sessionId modelSeqId supported = .ok ids) (closing : List Nat) :
    (ids.2.2.accounted closing).Perm (s.accounted closing) ∧ ids.2.2.holder = s.holder := by
  obtain ⟨futures, nextId, sessions, -, h⟩ | ⟨slot, sessions, hmem, h⟩ := createModel_cases hs
  · rw [h]
    exact ⟨.refl _, rfl⟩
  · rw [h]
    refine ⟨?_, rfl⟩
    show (s.freeSlots.erase slot ++ (s.models ++ [_]).map ModelRecord.slot ++ closing ++
      s.withheld.map Prod.fst).Perm _
    refine (List.Perm.append_right _ ?_).append_right _
    rw [List.map_append]
    show (s.freeSlots.erase slot ++ (s.models.map ModelRecord.slot ++ [slot])).Perm _
    -- the slot moves from the free slots to the end of the models
    have hperm := (List.perm_cons_erase hmem).symm
    have hfront := (@List.perm_append_comm _ (s.models.map ModelRecord.slot)
      [slot]).append_left (s.freeSlots.erase slot)
    refine hfront.trans ?_
    rw [List.singleton_append]
    exact List.perm_middle.trans (hperm.append_right _)

/-- A submission leaves the slots alone. -/
theorem slots_submit {tenant : String} {modelId : Nat} {seqId : Int} {op : CommandOp}
    {payload : Payload} {validationError : Option String} {res : Nat × Service}
    (hs : s.submit tenant modelId seqId op payload validationError = .ok res)
    (closing : List Nat) :
    res.2.accounted closing = s.accounted closing ∧ res.2.holder = s.holder := by
  have hmap : ∀ (m : Service) (f : ModelRecord → ModelRecord), (∀ r, (f r).slot = r.slot) →
      (m.modifyModel modelId f).accounted closing = m.accounted closing := by
    intro m f hf
    unfold accounted
    rw [map_modifyModel hf]
    rfl
  obtain ⟨r, -, -, ⟨requestId, -, rfl⟩ | ⟨-, command, rfl, rfl⟩⟩ := submit_cases hs
  · obtain ⟨futures, nextId, -, hretry⟩ :=
      requestIdForRetry_frame requestId (.model modelId) tenant s
    constructor
    · show accounted (Service.modifyModel modelId _
        (requestIdForRetry requestId (.model modelId) tenant s).2) closing = _
      rw [hmap, hretry]
      · rfl
      · exact fun _ => rfl
    · show (requestIdForRetry requestId (.model modelId) tenant s).2.holder = _
      rw [hretry]
  · exact ⟨hmap (s.createFuture (.model modelId) tenant) _ fun _ => rfl, rfl⟩

/-- An event moves slots between the places. -/
theorem step_slots (hreg : s.Registry) (hnodup : (s.accounted s.closing).Nodup) {e : Event}
    (hs : step config s e = some s') :
    (s'.accounted s'.closing).Perm (s.accounted s.closing) := by
  cases e with
  | createSession | heartbeat | tick | poll =>
    cases hs
    exact .refl _
  | createModel tenant sessionId modelSeqId supported =>
    cases hs
    cases hcreate : s.createModel tenant sessionId modelSeqId supported with
    | error e => exact .refl _
    | ok ids =>
      obtain ⟨hperm, hholder⟩ := slots_createModel hcreate s.closing
      show (ids.2.2.accounted ids.2.2.closing).Perm _
      have hclosing : ids.2.2.closing = s.closing := by
        unfold closing
        rw [hholder]
      rw [hclosing]
      exact hperm
  | startCreate modelId =>
    simp only [step] at hs
    split at hs
    · cases hs
      have hstarted : Registry { s with starting := s.starting.erase modelId } :=
        ⟨hreg.ids, hreg.fresh, hreg.queues⟩
      -- who gets the lock at once runs up to its first await
      exact slots_acquire hstarted _
    · cases hs
  | submit tenant modelId seqId op payload validationError =>
    cases hs
    cases hsubmit : s.submit tenant modelId seqId op payload validationError with
    | error e => exact .refl _
    | ok res =>
      obtain ⟨heq, hholder⟩ := slots_submit hsubmit s.closing
      show (res.2.accounted res.2.closing).Perm _
      have hclosing : res.2.closing = s.closing := by
        unfold closing
        rw [hholder]
      rw [hclosing, heq]
  | ask task =>
    simp only [step] at hs
    split at hs
    · cases hs
    · cases hs
    · cases hs
      exact slots_acquire hreg _
  | dispatcherLoop =>
    simp only [step] at hs
    split at hs
    · cases hs
      split
      · exact .refl _
      · exact slots_acquire hreg _
    · cases hs
  | wakeUp =>
    simp only [step] at hs
    split at hs
    · cases hs
      exact .refl _
    · cases hs
  | grant =>
    simp only [step] at hs
    split at hs
    · next task waiters hnone hwaiters =>
      cases hs
      have hgranted : Registry { s with waiters } := ⟨hreg.ids, hreg.fresh, hreg.queues⟩
      have hclosing : s.closing = [] := by
        unfold closing
        rw [hnone]
        rfl
      rw [hclosing]
      -- nobody held the lock, so no close was under way
      exact slots_enter hgranted task
    · cases hs
  | resume reply => exact slots_resume hreg hnodup hs
  | startSample | endSample =>
    simp only [step] at hs
    split at hs
    · cases hs
      exact .refl _
    · cases hs

/-! ## Why slots are withheld -/

theorem withheld_closeModel (modelId : Nat) (error : String) (category : Category)
    (s : Service) : (s.closeModel modelId error category).1.withheld = s.withheld := by
  obtain ⟨-, h⟩ | ⟨r, -, h⟩ := closeModel_cases modelId error category s
  · rw [h]
  · rw [h]
    rfl

theorem withheld_runJob (job : Job) (s : Service) : (s.runJob job).1.withheld = s.withheld := by
  cases job with
  | finish command outcome =>
    show (s.finishRequest command outcome).1.withheld = s.withheld
    obtain ⟨error, category, h⟩ | h := finishRequest_cases command outcome s
    · rw [h]
      exact withheld_closeModel _ _ _ s
    · rw [h]
      rfl
  | close modelId error category => exact withheld_closeModel modelId error category s
  | checkTrainer => rfl

/-- No job withholds a slot. -/
theorem withheld_runJobs (task : Task) (jobs : List Job) (s : Service) :
    (s.runJobs task jobs).withheld = s.withheld := by
  refine runJobs_rule (fun _ m => m.withheld = s.withheld) (fun m => m.withheld = s.withheld)
    ?_ ?_ ?_ rfl
  · intro job jobs m m' hm hjob
    have hnext := withheld_runJob job m
    rw [hjob] at hnext
    exact hnext.trans hm
  · intro job jobs m m' awaiting hm hjob
    have hnext := withheld_runJob job m
    rw [hjob] at hnext
    exact hnext.trans hm
  · exact fun m hm => hm

theorem withheld_abort (task : Task) (s : Service) : (s.abort task).withheld = s.withheld := by
  unfold abort
  simp only
  split
  · rfl
  · split <;> rfl

theorem withheld_enter (task : Task) (s : Service) :
    (s.enter config task).withheld = s.withheld := by
  unfold enter
  cases task with
  | dispatcher =>
    show (dispatch config { s with dispatcher := .running }).withheld = s.withheld
    unfold dispatch
    split
    · exact withheld_runJobs _ _ _
    · split <;> rfl
  | createModel modelId =>
    simp only
    split <;> rfl
  | finishSession tenant sessionId =>
    simp only
    split
    · exact withheld_runJobs _ _ _
    · rfl
  | expireSessions => exact withheld_runJobs _ _ _
  | deleteCheckpoint => rfl
  | expireCheckpoints => rfl

theorem withheld_acquire (task : Task) (s : Service) :
    (s.acquire config task).withheld = s.withheld := by
  unfold acquire
  split
  · exact withheld_enter task s
  · rfl

theorem withheld_recordOutputs (answers : List (DatumRef × Output)) (s : Service) :
    (s.recordOutputs answers).withheld = s.withheld := by
  induction answers generalizing s with
  | nil => rfl
  | cons x rest ih =>
    rw [recordOutputs, ih]
    unfold recordOutput
    simp only
    split
    · rfl
    · split <;> rfl

/-- No new slot is withheld because its close was interrupted. -/
def WithheldByFailure (s s' : Service) : Prop :=
  ∀ x ∈ s'.withheld, x ∈ s.withheld ∨ x.2 = .trainerDead ∨ x.2 = .unloadFailed

theorem WithheldByFailure.of_eq (h : s'.withheld = s.withheld) : WithheldByFailure s s' :=
  fun _ hx => .inl (h ▸ hx)

theorem WithheldByFailure.withhold {m : Service} {r : ModelRecord} {reason : WithheldReason}
    (hreason : reason = .trainerDead ∨ reason = .unloadFailed)
    (h : m.withheld = (s.withhold r reason).withheld) : WithheldByFailure s m := by
  intro x hx
  rw [h] at hx
  obtain hx | hx := List.mem_append.mp hx
  · exact .inl hx
  · rw [List.mem_singleton.mp hx]
    exact .inr hreason

/-- A reply that is no exception withholds a slot only because a call of its close failed. -/
theorem withheld_resume {reply : Reply} (hraised : reply ≠ .raised)
    (hcancelled : reply ≠ .cancelled) (hs : s.resume reply = some s') :
    WithheldByFailure s s' := by
  obtain ⟨h, -, hresumed⟩ := resume_cases hs
  cases hresumed with
  | loaded | loadFailed | batchFailed | barrierDone | continued | freed =>
    exact .of_eq (withheld_runJobs _ _ _)
  | answered =>
    exact .of_eq ((withheld_runJobs _ _ _).trans (withheld_recordOutputs _ _))
  | unloading => exact .of_eq rfl
  | withheld r reason hawait hreason => exact .withhold hreason (withheld_runJobs _ _ _)
  | aborted => exact .of_eq (withheld_abort _ _)
  | closeAborted r reason hawait hreply => exact absurd hreply hraised
  | cancelled hempty hreply => exact absurd hreply hcancelled
  | closeCancelled r hawait hreply => exact absurd hreply hcancelled

theorem withheld_createModel {tenant : String} {sessionId modelSeqId : Nat} {supported : Bool}
    {ids : Nat × Nat × Service}
    (hs : s.createModel tenant sessionId modelSeqId supported = .ok ids) :
    ids.2.2.withheld = s.withheld := by
  obtain ⟨futures, nextId, sessions, -, h⟩ | ⟨slot, sessions, -, h⟩ := createModel_cases hs
  · rw [h]
  · rw [h]
    rfl

theorem withheld_submit {tenant : String} {modelId : Nat} {seqId : Int} {op : CommandOp}
    {payload : Payload} {validationError : Option String} {res : Nat × Service}
    (hs : s.submit tenant modelId seqId op payload validationError = .ok res) :
    res.2.withheld = s.withheld := by
  obtain ⟨r, -, -, ⟨requestId, -, rfl⟩ | ⟨-, command, rfl, rfl⟩⟩ := submit_cases hs
  · obtain ⟨futures, nextId, -, hretry⟩ :=
      requestIdForRetry_frame requestId (.model modelId) tenant s
    show (requestIdForRetry requestId (.model modelId) tenant s).2.withheld = s.withheld
    rw [hretry]
  · rfl

/-- Only a failed close withholds a slot, unless the call raises or is cancelled. -/
theorem step_withheld {e : Event} (hraised : e ≠ .resume .raised)
    (hcancelled : e ≠ .resume .cancelled) (hs : step config s e = some s') :
    WithheldByFailure s s' := by
  cases e with
  | createSession | heartbeat | tick | poll =>
    cases hs
    exact .of_eq rfl
  | createModel tenant sessionId modelSeqId supported =>
    cases hs
    cases hcreate : s.createModel tenant sessionId modelSeqId supported with
    | error e => exact .of_eq rfl
    | ok ids => exact .of_eq (withheld_createModel hcreate)
  | submit tenant modelId seqId op payload validationError =>
    cases hs
    cases hsubmit : s.submit tenant modelId seqId op payload validationError with
    | error e => exact .of_eq rfl
    | ok res => exact .of_eq (withheld_submit hsubmit)
  | startCreate modelId =>
    simp only [step] at hs
    split at hs
    · cases hs
      exact .of_eq (withheld_acquire _ _)
    · cases hs
  | ask task =>
    simp only [step] at hs
    split at hs
    · cases hs
    · cases hs
    · cases hs
      exact .of_eq (withheld_acquire _ _)
  | dispatcherLoop =>
    simp only [step] at hs
    split at hs
    · cases hs
      split
      · exact .of_eq rfl
      · exact .of_eq (withheld_acquire _ _)
    · cases hs
  | grant =>
    simp only [step] at hs
    split at hs
    · cases hs
      exact .of_eq (withheld_enter _ _)
    · cases hs
  | resume reply =>
    exact withheld_resume (fun h => hraised (h ▸ rfl)) (fun h => hcancelled (h ▸ rfl)) hs
  | wakeUp | startSample | endSample =>
    simp only [step] at hs
    split at hs
    · cases hs
      exact .of_eq rfl
    · cases hs

/-! ## The accounting -/

/-- In every reachable state the free slots, the slots of live models, the slots of closes in
    progress and the withheld slots are the slots of the trainer, each exactly once; and unless a
    trainer call raised or the service cancelled a task, a slot is withheld only because the
    trainer was dead when its model closed or because it could not be unloaded. -/
theorem slots_accounted (config : GatewayConfig) (es : List Event) (s : Service)
    (hrun : run (step config) (Tinker.init config) es = some s) :
    (s.freeSlots ++ s.models.map (·.slot) ++ s.closing ++ s.withheld.map (·.1)).Perm
      (List.range config.nSlots) ∧
    ((∀ e ∈ es, e ≠ .resume .raised ∧ e ≠ .resume .cancelled) →
      ∀ x ∈ s.withheld, x.2 = .trainerDead ∨ x.2 = .unloadFailed) := by
  have hinit : ((Tinker.init config).accounted (Tinker.init config).closing) =
      List.range config.nSlots := by
    show List.range config.nSlots ++ [] ++ [] ++ [] = _
    simp
  let I : Service → Prop := fun m =>
    m.Registry ∧ (m.accounted m.closing).Perm (List.range config.nSlots)
  have hall : I s := by
    refine run_invariant ?_ (show I (Tinker.init config) from ⟨.init config, .of_eq hinit⟩) hrun
    rintro m e m' ⟨hreg, hperm⟩ hstep
    have hnodup := hperm.nodup_iff.mpr List.nodup_range
    exact ⟨hreg.updates (step_updates hstep), (step_slots hreg hnodup hstep).trans hperm⟩
  refine ⟨hall.2, fun hcalls => ?_⟩
  let W : Service → Prop := fun m => ∀ x ∈ m.withheld, x.2 = .trainerDead ∨ x.2 = .unloadFailed
  refine run_invariant_mem (I := W) ?_ (fun x hx => absurd hx List.not_mem_nil) hrun
  intro m e m' he hm hstep x hx
  obtain hx | hx := step_withheld (hcalls e he).1 (hcalls e he).2 hstep x hx
  · exact hm x hx
  · exact hx

/-- Two models; the first one's load fails, and the trainer is dead when it closes. -/
def failedLoad : List Event :=
  [.createSession "tenant", .createModel "tenant" 0 0 true, .createModel "tenant" 0 1 true,
    .startCreate 1, .resume (.failed "out of memory"), .resume (.trainerDead true)]

/-- The state after `failedLoad`. -/
def failedLoadState : Service :=
  (run (step ⟨3, 10, 100⟩) (Tinker.init ⟨3, 10, 100⟩) failedLoad).getD (Tinker.init ⟨3, 10, 100⟩)

theorem failedLoad_run : run (step ⟨3, 10, 100⟩) (Tinker.init ⟨3, 10, 100⟩) failedLoad =
    some failedLoadState := rfl

theorem slots_accounted_failedLoad :
    failedLoadState.withheld = [(0, .trainerDead)] ∧
    (failedLoadState.freeSlots ++ failedLoadState.models.map (·.slot) ++
      failedLoadState.closing ++ failedLoadState.withheld.map (·.1)).Perm (List.range 3) :=
  ⟨rfl, (slots_accounted ⟨3, 10, 100⟩ failedLoad failedLoadState failedLoad_run).1⟩

end Service

end Miles.Tinker
