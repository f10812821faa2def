import Miles.ForStd.List
import Miles.Native.Session.StoreRefs

/-!
# Ownership of the store refs of a session

Who holds an output store ref that came with a response of the session: the client, with the
samples it received, or the session, which deletes it.

The session cannot tell a reply that its client received from one that was lost, but for the one
bit of the DELETE.  Hence the refs of a lost reply stay undeleted when the DELETE reports that
samples were received, because a later `/samples` request was answered.
-/

namespace Miles.Session.StoreRefs

open Miles.Rollout (StoreRef)

/-! ## What happens to a ref -/

/-- The keys of the refs in the reply that was built for a `/samples` request. -/
def SamplesCall.repliedKeys (call : SamplesCall) : List String :=
  match call.handling with
  | .replied samples => (storeRefsOf samples).keys
  | _ => []

/-- The report of the DELETE that the session accepted. -/
def Deletion.report : Deletion → Option Bool
  | .notBegun => none
  | .closing samplesReceived | .selecting samplesReceived _ _ | .done samplesReceived =>
    some samplesReceived

/-- The keys that the loop of `kept_by_session` keeps so far. -/
def Deletion.keptKeys : Deletion → List String
  | .selecting _ kept _ => kept.map (·.key)
  | _ => []

namespace World

/-- How often the session deletes a ref. -/
def deletions (w : World) (key : String) : Nat :=
  (w.deleteManyCalls.flatten.map (·.key)).count key

/-- A reply with the ref was built. -/
def HandedOver (w : World) (key : String) : Prop :=
  ∃ call ∈ w.calls, key ∈ call.repliedKeys

/-- The client received the ref with samples. -/
def Received (w : World) (key : String) : Prop :=
  ∃ call ∈ w.calls, call.outcome = .received ∧ key ∈ call.repliedKeys

instance (w : World) (key : String) : Decidable (w.HandedOver key) :=
  inferInstanceAs (Decidable (∃ call ∈ w.calls, key ∈ call.repliedKeys))

instance (w : World) (key : String) : Decidable (w.Received key) :=
  inferInstanceAs (Decidable (∃ call ∈ w.calls, call.outcome = .received ∧ key ∈ call.repliedKeys))

theorem Received.handedOver {w : World} {key : String} (h : w.Received key) : w.HandedOver key := by
  obtain ⟨call, hcall, -, hkey⟩ := h
  exact ⟨call, hcall, hkey⟩

/-- The keys whose fate the session has not decided, or decided but not carried out. -/
def owed (w : World) : List String :=
  match w.deletion with
  | .notBegun | .closing _ => w.session.storeRefs.arrived.keys
  | .selecting _ kept rest => kept.map (·.key) ++ rest.map Prod.fst
  | .done _ => []

/-- The report of a DELETE is right about every reply that carried refs. -/
def ReportRight (w : World) (samplesReceived : Bool) : Prop :=
  ∀ call ∈ w.calls, call.repliedKeys ≠ [] → (call.outcome = .received ↔ samplesReceived = true)

/-! ## The parties outside the session -/

/-- The engine returns a ref only to a request that opted in, and every ref has a key of its own. -/
def EngineStep (w : World) : Event → Prop
  | .answer i result _ => ∀ ref, result.arrivedRef = some ref →
      w.chats[i]? = some (.proxying true) ∧ ref.key ∉ w.stored.map (·.key)
  | _ => True

/-- A DELETE is sent only after the `/samples` requests returned or failed. -/
def ClientStep (w : World) : Event → Prop
  | .delete _ => ∀ call ∈ w.calls, call.outcome ≠ .pending
  | _ => True

instance (w : World) (e : Event) : Decidable (w.EngineStep e) := by
  cases e <;> unfold EngineStep <;> infer_instance

instance (w : World) (e : Event) : Decidable (w.ClientStep e) := by
  cases e <;> unfold ClientStep <;> infer_instance

/-! ## Answers -/

variable {result : ProxyResult} {ref : StoreRef} {samplesReceived : Bool}

/-- A ref is taken exactly from an opted-in response of status 200 that carries one. -/
theorem responseStoreRef_eq_some {optedIn : Bool} :
    responseStoreRef optedIn result = .ok (some ref) ↔
      optedIn = true ∧ result.arrivedRef = some ref := by
  obtain ⟨statusCode, choice⟩ := result
  unfold responseStoreRef ProxyResult.arrivedRef
  by_cases hstatus : statusCode = 200
  · cases optedIn with
    | false => simp
    | true =>
      obtain _ | ⟨finishReason, field⟩ := choice
      · simp [hstatus]
      · cases field with
        | absent =>
          -- an abort without a ref wrote nothing, every other response must carry one
          by_cases habort : finishReason = .abort <;> simp [hstatus, habort]
        | ref ref' => simp [hstatus]
        | malformed => simp [hstatus]
  · simp [hstatus]

/-- The world in which a chat request has been answered. -/
def withAnswer (w : World) (i : Nat) (result : ProxyResult) : World :=
  { w with chats := w.chats.set i .answered, stored := w.stored ++ result.arrivedRef.toList }

/-- A ref that comes to an open session is recorded as arrived, whatever phase 3 does. -/
theorem answer_open (outputStore : Bool) {w : World} (i : Nat)
    (recorded : Bool) (href : result.arrivedRef = some ref)
    (hopen : w.session.closing = false) :
    w.answer outputStore i true result recorded = (w.withAnswer i result).addArrived ref ∨
      w.answer outputStore i true result recorded =
        ((w.withAnswer i result).addArrived ref).addRecord ⟨some ref⟩ := by
  have htake : responseStoreRef true result = .ok (some ref) :=
    responseStoreRef_eq_some.mpr ⟨rfl, href⟩
  have hstatus : result.statusCode = 200 := by
    by_contra hne
    simp [ProxyResult.arrivedRef, hne] at href
  unfold answer takeStoreRef
  simp only [htake, hopen, Bool.false_eq_true, if_false, hstatus, true_and]
  cases recorded with
  | false => exact .inl (by simp [withAnswer])
  | true => exact .inr (by simp [withAnswer, addArrived, hopen])

/-- A ref that comes to a closing session is deleted at once. -/
theorem answer_closing {w : World} {i : Nat}
    {recorded : Bool} (href : result.arrivedRef = some ref)
    (hclosing : w.session.closing = true) :
    w.answer true i true result recorded =
      { w.withAnswer i result with deleteManyCalls := w.deleteManyCalls ++ [[ref]] } := by
  have htake : responseStoreRef true result = .ok (some ref) :=
    responseStoreRef_eq_some.mpr ⟨rfl, href⟩
  unfold answer takeStoreRef
  simp [htake, hclosing, deleteStoreRefs, withAnswer]

/-- A response without a ref changes neither what arrived nor what was handed over. -/
theorem answer_none (outputStore : Bool) (w : World) (i : Nat) (optedIn : Bool)
    (recorded : Bool) (href : result.arrivedRef = none) :
    ∃ (contractError : Option String) (records : List Record),
      (records = w.session.records ∨ records = w.session.records ++ [⟨none⟩]) ∧
      w.answer outputStore i optedIn result recorded =
        { w with
          chats := w.chats.set i .answered
          session :=
            { w.session with
              storeRefs := { w.session.storeRefs with contractError }
              records } } := by
  unfold answer takeStoreRef
  simp only [href, Option.toList_none, List.append_nil]
  match htake : responseStoreRef optedIn result with
  | .error (.storePlan message) => exact ⟨some message, _, .inl rfl, rfl⟩
  | .error .fromBuiltins => exact ⟨_, _, .inl rfl, rfl⟩
  | .ok (some ref) =>
    have hsome := (responseStoreRef_eq_some.mp htake).2
    rw [href] at hsome
    cases hsome
  | .ok none =>
    dsimp only
    split
    · exact ⟨_, _, .inr rfl, rfl⟩
    · exact ⟨_, _, .inl rfl, rfl⟩

/-! ## What arrived and what was handed over -/

/-- The refs of the records arrived before. -/
def RecordsArrived (arrived : PyDict String StoreRef) (records : List Record) : Prop :=
  ∀ record ∈ records, ∀ ref, record.ref = some ref → ref.key ∈ arrived.keys

/-- The facts about the refs that do not depend on the DELETE. -/
structure Arrivals (outputStore : Bool) (w : World) : Prop where
  stored_nodup : (w.stored.map (·.key)).Nodup
  arrived_stored : ∀ k ∈ w.session.storeRefs.arrived.keys, k ∈ w.stored.map (·.key)
  arrived_item : ∀ item ∈ w.session.storeRefs.arrived.items, item.2.key = item.1
  record_arrived : RecordsArrived w.session.storeRefs.arrived w.session.records
  snapshot_arrived : ∀ call ∈ w.calls, ∀ records, call.handling = .assembling records →
    RecordsArrived w.session.storeRefs.arrived records
  replied_arrived : ∀ k, w.HandedOver k → k ∈ w.session.storeRefs.arrived.keys
  handedOver_iff : ∀ k, k ∈ w.session.storeRefs.handedOver ↔ w.HandedOver k
  opted : Chat.proxying true ∈ w.chats → outputStore = true
  arrived_outputStore : w.session.storeRefs.arrived.keys ≠ [] → outputStore = true

theorem RecordsArrived.mono {arrived arrived' : PyDict String StoreRef} {records : List Record}
    (h : RecordsArrived arrived records) (hkeys : arrived.keys ⊆ arrived'.keys) :
    RecordsArrived arrived' records :=
  fun record hrecord ref href => hkeys (h record hrecord ref href)

/-- The samples of a reply own only refs that arrived. -/
theorem RecordsArrived.replied {arrived : PyDict String StoreRef} {records : List Record}
    {samples : List Sample} {k : String} (h : RecordsArrived arrived records)
    (howned : OwnedBy records samples) (hk : k ∈ (storeRefsOf samples).keys) :
    k ∈ arrived.keys := by
  rw [storeRefsOf, PyDict.mem_keys_ofList, List.mem_map] at hk
  obtain ⟨item, hitem, rfl⟩ := hk
  rw [List.mem_flatMap] at hitem
  obtain ⟨sample, hsample, hitem⟩ := hitem
  obtain ⟨ref, href, rfl⟩ := List.mem_map.mp hitem
  have hrecord := howned sample hsample ref href
  obtain ⟨record, hmem, hr⟩ := List.mem_map.mp hrecord
  exact h record hmem ref hr

section ArrivalsSteps

variable {outputStore : Bool} {w : World}

theorem arrivals_init : Arrivals outputStore {} where
  stored_nodup := List.nodup_nil
  arrived_stored k hk := by cases hk
  arrived_item item hitem := by cases hitem
  record_arrived record hrecord := by cases hrecord
  snapshot_arrived call hcall := by cases hcall
  replied_arrived k hk := by
    obtain ⟨call, hcall, -⟩ := hk
    cases hcall
  handedOver_iff k := by simp [HandedOver]
  opted h := by cases h
  arrived_outputStore h := absurd rfl h

/-- A chat request may drop records, and opts in only where there is an output store. -/
theorem Arrivals.chat (h : Arrivals outputStore w) (kept : Nat) (asks : Bool) :
    Arrivals outputStore (w.chat outputStore kept asks) := by
  unfold World.chat
  split
  · refine { h with record_arrived := ?_, opted := ?_ }
    · intro record hrecord ref href
      exact h.record_arrived record (List.mem_of_mem_take hrecord) ref href
    · intro hmem
      rcases List.mem_append.mp hmem with hold | hnew
      · exact h.opted hold
      · have heq := List.mem_singleton.mp hnew
        injection heq with hopted
        exact (Bool.and_eq_true_iff.mp hopted.symm).1
  · refine { h with opted := ?_ }
    intro hmem
    rcases List.mem_append.mp hmem with hold | hnew
    · exact h.opted hold
    · cases List.mem_singleton.mp hnew

/-- An answered request is no proxied one. -/
theorem Arrivals.opted_set (h : Arrivals outputStore w) {i : Nat}
    (hmem : Chat.proxying true ∈ w.chats.set i .answered) : outputStore = true := by
  rcases List.mem_or_eq_of_mem_set hmem with hold | hnew
  · exact h.opted hold
  · cases hnew

/-- A ref with a new key arrives. -/
theorem Arrivals.addArrived (h : Arrivals outputStore w) {i : Nat}
    (href : result.arrivedRef = some ref) (hstore : outputStore = true)
    (hfresh : ref.key ∉ w.stored.map (·.key)) :
    Arrivals outputStore ((w.withAnswer i result).addArrived ref) := by
  have hkeys : (w.session.storeRefs.arrived.set ref.key ref).keys =
      w.session.storeRefs.arrived.keys ++ [ref.key] := by
    rw [PyDict.keys_set, if_neg fun hmem => hfresh (h.arrived_stored _ hmem)]
  have hsub : w.session.storeRefs.arrived.keys ⊆
      (w.session.storeRefs.arrived.set ref.key ref).keys := by
    rw [hkeys]
    exact List.subset_append_left ..
  have hstored : (w.withAnswer i result).stored.map (·.key) = w.stored.map (·.key) ++ [ref.key] := by
    simp [withAnswer, href]
  constructor
  · show ((w.withAnswer i result).stored.map (·.key)).Nodup
    rw [hstored]
    exact List.nodup_append.mpr ⟨h.stored_nodup, List.nodup_singleton _, fun a ha b hb heq =>
      hfresh (List.mem_singleton.mp hb ▸ heq ▸ ha)⟩
  · intro k hk
    show k ∈ (w.withAnswer i result).stored.map (·.key)
    have hk : k ∈ (w.session.storeRefs.arrived.set ref.key ref).keys := hk
    rw [hkeys] at hk
    rw [hstored]
    rcases List.mem_append.mp hk with hold | hnew
    · exact List.mem_append_left _ (h.arrived_stored k hold)
    · exact List.mem_append_right _ hnew
  · intro item hitem
    have hget : (w.session.storeRefs.arrived.set ref.key ref).get? item.1 = some item.2 :=
      PyDict.get?_eq_some.mpr hitem
    rw [PyDict.get?_set] at hget
    split at hget
    · rename_i heq
      cases hget
      exact heq.symm
    · exact h.arrived_item item (PyDict.get?_eq_some.mp hget)
  · exact h.record_arrived.mono hsub
  · intro call hcall records hhandling
    exact (h.snapshot_arrived call hcall records hhandling).mono hsub
  · exact fun k hk => hsub (h.replied_arrived k hk)
  · exact h.handedOver_iff
  · exact h.opted_set
  · exact fun _ => hstore

/-- A record with a ref that arrived is added. -/
theorem Arrivals.addRecord (h : Arrivals outputStore w)
    (harrived : ref.key ∈ w.session.storeRefs.arrived.keys) :
    Arrivals outputStore (w.addRecord ⟨some ref⟩) := by
  refine { h with record_arrived := ?_ }
  intro record hrecord ref' href'
  rcases List.mem_append.mp hrecord with hold | hnew
  · exact h.record_arrived record hold ref' href'
  · cases List.mem_singleton.mp hnew
    cases href'
    exact harrived

theorem Arrivals.answer (h : Arrivals outputStore w) {i : Nat} {optedIn : Bool}
    (recorded : Bool) (hchat : w.chats[i]? = some (.proxying optedIn))
    (hengine : w.EngineStep (.answer i result recorded)) :
    Arrivals outputStore (w.answer outputStore i optedIn result recorded) := by
  cases href : result.arrivedRef with
  | none =>
    obtain ⟨contractError, records, hrecords, heq⟩ :=
      answer_none outputStore w i optedIn recorded href
    rw [heq]
    refine { h with record_arrived := ?_, opted := h.opted_set }
    intro record hrecord ref href
    rcases hrecords with rfl | rfl
    · exact h.record_arrived record hrecord ref href
    · rcases List.mem_append.mp hrecord with hold | hnew
      · exact h.record_arrived record hold ref href
      · cases List.mem_singleton.mp hnew
        cases href
  | some ref =>
    obtain ⟨hopted, hfresh⟩ := hengine ref href
    rw [hchat] at hopted
    cases hopted
    have hstore : outputStore = true := h.opted (List.mem_of_getElem? hchat)
    cases hclosing : w.session.closing with
    | false =>
      have harrive := h.addArrived (i := i) href hstore hfresh
      rcases answer_open outputStore i recorded href hclosing with heq | heq
      · rw [heq]
        exact harrive
      · rw [heq]
        refine harrive.addRecord ?_
        show ref.key ∈ (w.session.storeRefs.arrived.set ref.key ref).keys
        exact PyDict.mem_keys_iff.mpr ⟨ref, by rw [PyDict.get?_set, if_pos rfl]⟩
    | true =>
      subst hstore
      rw [answer_closing href hclosing]
      have hstored : (w.withAnswer i result).stored.map (·.key) =
          w.stored.map (·.key) ++ [ref.key] := by
        simp [withAnswer, href]
      refine { h with stored_nodup := ?_, arrived_stored := ?_, opted := h.opted_set }
      · show ((w.withAnswer i result).stored.map (·.key)).Nodup
        rw [hstored]
        exact List.nodup_append.mpr ⟨h.stored_nodup, List.nodup_singleton _, fun a ha b hb heq =>
          hfresh (List.mem_singleton.mp hb ▸ heq ▸ ha)⟩
      · intro k hk
        show k ∈ (w.withAnswer i result).stored.map (·.key)
        rw [hstored]
        exact List.mem_append_left _ (h.arrived_stored k hk)

/-- A `/samples` request moves on without a reply being built. -/
theorem Arrivals.setCall (h : Arrivals outputStore w) {k : Nat} {call call' : SamplesCall}
    (hcall : w.calls[k]? = some call) (hkeys : call'.repliedKeys = call.repliedKeys)
    (hsnapshot : ∀ records, call'.handling = .assembling records →
      RecordsArrived w.session.storeRefs.arrived records) :
    Arrivals outputStore { w with calls := w.calls.set k call' } := by
  have hhanded : ∀ key, HandedOver { w with calls := w.calls.set k call' } key ↔
      w.HandedOver key := by
    intro key
    show (∃ c ∈ w.calls.set k call', key ∈ c.repliedKeys) ↔ w.HandedOver key
    rw [List.exists_mem_set hcall (by rw [hkeys]; exact id), hkeys]
    exact or_iff_right_of_imp fun hmem => ⟨call, List.mem_of_getElem? hcall, hmem⟩
  refine { h with snapshot_arrived := ?_, replied_arrived := ?_, handedOver_iff := ?_ }
  · intro c hc records hhandling
    rcases List.mem_or_eq_of_mem_set hc with hold | rfl
    · exact h.snapshot_arrived c hold records hhandling
    · exact hsnapshot records hhandling
  · exact fun key hkey => h.replied_arrived key ((hhanded key).mp hkey)
  · exact fun key => (h.handedOver_iff key).trans (hhanded key).symm

theorem Arrivals.collect (h : Arrivals outputStore w) {k : Nat} {call : SamplesCall}
    (hcall : w.calls[k]? = some call) (hsent : call.handling = .sent) :
    Arrivals outputStore (w.setHandling k call w.collect) := by
  have hkeys : ∀ handling : Handling, (∀ samples, handling ≠ .replied samples) →
      SamplesCall.repliedKeys { call with handling } = call.repliedKeys := by
    intro handling hne
    cases handling with
    | replied samples => exact absurd rfl (hne samples)
    | _ => simp [SamplesCall.repliedKeys, hsent]
  refine h.setCall hcall (hkeys _ fun samples => ?_) fun records heq => ?_
  · unfold World.collect
    split_ifs <;> simp
  · -- a snapshot is taken of an open session only
    have heq : w.collect = .assembling records := heq
    unfold World.collect at heq
    split_ifs at heq
    cases heq
    exact h.record_arrived

/-- A built reply hands over the refs of its samples, and these arrived. -/
theorem Arrivals.assemble (h : Arrivals outputStore w) {k : Nat} {call : SamplesCall}
    {records : List Record} {samples : List Sample} (hcall : w.calls[k]? = some call)
    (hassembling : call.handling = .assembling records) (howned : OwnedBy records samples) :
    Arrivals outputStore (w.assemble k call (.samples samples)) := by
  have hold : call.repliedKeys = [] := by simp [SamplesCall.repliedKeys, hassembling]
  have hhanded : ∀ key, (w.assemble k call (.samples samples)).HandedOver key ↔
      key ∈ (storeRefsOf samples).keys ∨ w.HandedOver key := by
    intro key
    have hset := List.exists_mem_set (P := fun c => key ∈ SamplesCall.repliedKeys c) hcall
      (fun hin => absurd (hold ▸ hin) List.not_mem_nil :
        _ → key ∈ SamplesCall.repliedKeys { call with handling := .replied samples })
    exact hset
  refine { h with snapshot_arrived := ?_, replied_arrived := ?_, handedOver_iff := ?_ }
  · intro c hc records' hhandling
    rcases List.mem_or_eq_of_mem_set hc with hmem | rfl
    · exact h.snapshot_arrived c hmem records' hhandling
    · cases hhandling
  · intro key hkey
    rcases (hhanded key).mp hkey with hnew | hbefore
    · exact (h.snapshot_arrived call (List.mem_of_getElem? hcall) records hassembling).replied
        howned hnew
    · exact h.replied_arrived key hbefore
  · intro key
    rw [hhanded key, ← h.handedOver_iff key]
    show key ∈ w.session.storeRefs.handedOver ++ (storeRefsOf samples).keys ↔ _
    rw [List.mem_append, or_comm]

theorem Arrivals.step (h : Arrivals outputStore w) {e : Event} {w' : World}
    (hengine : w.EngineStep e) (hstep : World.step outputStore w e = some w') :
    Arrivals outputStore w' := by
  cases e with
  | chat kept asks =>
    cases hstep
    exact h.chat kept asks
  | answer i result recorded =>
    simp only [World.step] at hstep
    split at hstep
    · rename_i optedIn hchat
      cases hstep
      exact h.answer recorded hchat hengine
    · cases hstep
  | samples =>
    cases hstep
    -- the new call has neither a snapshot nor a reply yet
    have hhanded : ∀ key, HandedOver { w with calls := w.calls ++ [⟨.sent, .pending⟩] } key ↔
        w.HandedOver key := by
      simp [HandedOver, or_and_right, exists_or, SamplesCall.repliedKeys]
    refine { h with snapshot_arrived := ?_, replied_arrived := ?_, handedOver_iff := ?_ }
    · intro call hcall records hhandling
      rcases List.mem_append.mp hcall with hold | hnew
      · exact h.snapshot_arrived call hold records hhandling
      · cases List.mem_singleton.mp hnew
        cases hhandling
    · exact fun key hkey => h.replied_arrived key ((hhanded key).mp hkey)
    · exact fun key => (h.handedOver_iff key).trans (hhanded key).symm
  | collect k =>
    simp only [World.step] at hstep
    split at hstep
    · rename_i call hcall
      split_ifs at hstep with hsent
      cases hstep
      exact h.collect hcall hsent
    · cases hstep
  | assemble k assembly =>
    simp only [World.step] at hstep
    split at hstep
    · rename_i call hcall
      split at hstep
      · rename_i records samples hassembling
        split_ifs at hstep with howned
        cases hstep
        exact h.assemble hcall hassembling howned
      · rename_i records hassembling
        cases hstep
        refine h.setCall hcall ?_ fun records' heq => nomatch heq
        simp [SamplesCall.repliedKeys, hassembling]
      · cases hstep
    · cases hstep
  | receive k =>
    simp only [World.step] at hstep
    split at hstep
    · rename_i call hcall
      split at hstep
      · cases hstep
        exact h.setCall hcall rfl (h.snapshot_arrived call (List.mem_of_getElem? hcall))
      · cases hstep
    · cases hstep
  | fail k =>
    simp only [World.step] at hstep
    split at hstep
    · rename_i call hcall
      split_ifs at hstep
      cases hstep
      exact h.setCall hcall rfl (h.snapshot_arrived call (List.mem_of_getElem? hcall))
    · cases hstep
  | delete samplesReceived =>
    simp only [World.step] at hstep
    split_ifs at hstep <;> cases hstep
    · exact { h with }
    · exact h
  | remove =>
    simp only [World.step] at hstep
    split at hstep <;> cases hstep
    exact { h with }
  | select =>
    simp only [World.step] at hstep
    split at hstep
    · split_ifs at hstep <;> cases hstep <;> exact { h with }
    · cases hstep
  | deleteKept =>
    simp only [World.step, deleteStoreRefs] at hstep
    split at hstep
    · -- whether or not `delete_many` is called, only the log of its calls changes
      split_ifs at hstep <;> cases hstep <;> exact { h with }
    · cases hstep

end ArrivalsSteps

/-! ## Who decides about a ref -/

/-- The facts about the refs that depend on the DELETE. -/
structure Custody (w : World) : Prop where
  closing_iff : w.session.closing = true ↔ w.deletion ≠ .notBegun
  /-- a closing session builds no reply that its client still waits for -/
  closing_calls : w.session.closing = true → ∀ call ∈ w.calls, call.outcome = .pending →
    call.handling = .sent ∨ call.handling = .raised
  received_calls : ∀ call ∈ w.calls, call.outcome = .received →
    ∃ samples, call.handling = .replied samples
  open_deletions : w.deletion = .notBegun → w.deleteManyCalls = []
  deleted_stored : ∀ k, w.deletions k ≠ 0 → k ∈ w.stored.map (·.key)
  owed_arrived : ∀ k ∈ w.owed, k ∈ w.session.storeRefs.arrived.keys
  rest_item : ∀ samplesReceived kept rest, w.deletion = .selecting samplesReceived kept rest →
    ∀ item ∈ rest, item.2.key = item.1
  at_most_once : ∀ k, w.owed.count k + w.deletions k ≤ 1
  undeleted : ∀ k ∈ w.stored.map (·.key), w.owed.count k + w.deletions k = 0 →
    w.deletion.report = some true ∧ w.HandedOver k
  received_kept : w.deletion.report = some true → ∀ k, w.Received k →
    w.deletions k = 0 ∧ k ∉ w.deletion.keptKeys

section CustodySteps

variable {outputStore : Bool} {w : World}

theorem custody_init : Custody {} where
  closing_iff := by simp
  closing_calls h := by cases h
  received_calls call hcall := by cases hcall
  open_deletions _ := rfl
  deleted_stored k hk := absurd rfl hk
  owed_arrived k hk := hk
  rest_item _ _ _ h := by cases h
  at_most_once k := Nat.zero_le 1
  undeleted k hk := by cases hk
  received_kept h := by cases h

/-- Deletions of one more call of `delete_many`. -/
theorem deletions_append (w : World) (refs : List StoreRef) (k : String) :
    deletions { w with deleteManyCalls := w.deleteManyCalls ++ [refs] } k =
      w.deletions k + (refs.map (·.key)).count k := by
  simp [deletions]

/-- The `/samples` requests move on, and the client receives nothing from a closing session. -/
theorem Custody.setCalls (h : Custody w) {calls : List SamplesCall} (handedOver : List String)
    (hclosing : w.session.closing = true → ∀ call ∈ calls, call.outcome = .pending →
      call.handling = .sent ∨ call.handling = .raised)
    (hreplied : ∀ call ∈ calls, call.outcome = .received →
      ∃ samples, call.handling = .replied samples)
    (hhanded : ∀ k, w.HandedOver k → ∃ call ∈ calls, k ∈ call.repliedKeys)
    (hreceived : w.session.closing = true → ∀ k,
      (∃ call ∈ calls, call.outcome = .received ∧ k ∈ call.repliedKeys) → w.Received k) :
    Custody
      { w with
        calls
        session :=
          { w.session with storeRefs := { w.session.storeRefs with handedOver } } } := by
  refine { h with
    closing_calls := hclosing, received_calls := hreplied, undeleted := ?_, received_kept := ?_ }
  · intro k hk hcount
    obtain ⟨hreport, hhand⟩ := h.undeleted k hk hcount
    exact ⟨hreport, hhanded k hhand⟩
  · intro hreport k hk
    refine h.received_kept hreport k (hreceived (h.closing_iff.mpr fun hnone => ?_) k hk)
    have hreport : w.deletion.report = some true := hreport
    rw [hnone] at hreport
    cases hreport

/-- A reply that is not built is not received. -/
theorem Custody.not_received (h : Custody w) {k : Nat} {call : SamplesCall}
    (hcall : w.calls[k]? = some call) (hhandling : ∀ samples, call.handling ≠ .replied samples) :
    call.outcome ≠ .received := by
  intro hreceived
  obtain ⟨samples, hreplied⟩ := h.received_calls call (List.mem_of_getElem? hcall) hreceived
  exact hhandling samples hreplied

/-- One `/samples` request moves on. -/
theorem Custody.setCall (h : Custody w) {k : Nat} {call : SamplesCall} (call' : SamplesCall)
    (handedOver : List String) (hcall : w.calls[k]? = some call)
    (hclosing : w.session.closing = true → call'.outcome = .pending →
      call'.handling = .sent ∨ call'.handling = .raised)
    (hreplied : call'.outcome = .received → ∃ samples, call'.handling = .replied samples)
    (hkeys : call.repliedKeys ⊆ call'.repliedKeys)
    (hreceived : w.session.closing = true → call'.outcome = .received →
      call.outcome = .received ∧ call'.repliedKeys ⊆ call.repliedKeys)
    (houtcome : call.outcome = .received → call'.outcome = .received) :
    Custody
      { w with
        calls := w.calls.set k call'
        session :=
          { w.session with storeRefs := { w.session.storeRefs with handedOver } } } := by
  have hmem := List.mem_of_getElem? hcall
  refine h.setCalls handedOver ?_ ?_ ?_ ?_
  · intro hc c hcmem hpending
    rcases List.mem_or_eq_of_mem_set hcmem with hold | rfl
    · exact h.closing_calls hc c hold hpending
    · exact hclosing hc hpending
  · intro c hcmem hrec
    rcases List.mem_or_eq_of_mem_set hcmem with hold | rfl
    · exact h.received_calls c hold hrec
    · exact hreplied hrec
  · intro key hkey
    exact (List.exists_mem_set (P := fun c => key ∈ SamplesCall.repliedKeys c) hcall
      fun hold => hkeys hold).mpr (.inr hkey)
  · intro hc key hkey
    have hkey := (List.exists_mem_set
      (P := fun c => c.outcome = .received ∧ key ∈ SamplesCall.repliedKeys c) hcall
      fun hold => ⟨houtcome hold.1, hkeys hold.2⟩).mp hkey
    rcases hkey with ⟨hrec, hin⟩ | hbefore
    · obtain ⟨hold, hsub⟩ := hreceived hc hrec
      exact ⟨call, hmem, hold, hsub hin⟩
    · exact hbefore

/-- A ref arrives in an open session. -/
theorem Custody.addArrived (h : Custody w) (ha : Arrivals outputStore w) {i : Nat}
    (href : result.arrivedRef = some ref)
    (hopen : w.session.closing = false) (hfresh : ref.key ∉ w.stored.map (·.key)) :
    Custody ((w.withAnswer i result).addArrived ref) := by
  have hnone : w.deletion = .notBegun := by
    by_contra hne
    have hclosing := h.closing_iff.mpr hne
    rw [hopen] at hclosing
    cases hclosing
  have hkeys : (w.session.storeRefs.arrived.set ref.key ref).keys =
      w.session.storeRefs.arrived.keys ++ [ref.key] := by
    rw [PyDict.keys_set, if_neg fun hmem => hfresh (ha.arrived_stored _ hmem)]
  have howed : ((w.withAnswer i result).addArrived ref).owed =
      w.session.storeRefs.arrived.keys ++ [ref.key] := by
    simp [owed, withAnswer, World.addArrived, hnone, hkeys]
  have hdeletions : ∀ k, ((w.withAnswer i result).addArrived ref).deletions k = 0 := by
    intro k
    simp [deletions, withAnswer, World.addArrived, h.open_deletions hnone]
  refine { h with deleted_stored := ?_, owed_arrived := ?_, at_most_once := ?_, undeleted := ?_ }
  · exact fun k hk => absurd (hdeletions k) hk
  · intro k hk
    show k ∈ (w.session.storeRefs.arrived.set ref.key ref).keys
    rw [hkeys, ← howed]
    exact hk
  · intro k
    rw [hdeletions k, howed, Nat.add_zero, ← hkeys]
    exact List.nodup_iff_count_le_one.mp (PyDict.keys_nodup _) k
  · intro k hk hcount
    have hzero : ((w.withAnswer i result).addArrived ref).owed.count k = 0 := by omega
    rw [howed, List.count_eq_zero, List.mem_append, not_or] at hzero
    have hk : k ∈ w.stored.map (·.key) ++ [ref.key] := by
      simpa [withAnswer, World.addArrived, href] using hk
    rcases List.mem_append.mp hk with hold | hnew
    · -- every ref stored before is still owed, or a DELETE has begun
      have howed_old : w.owed = w.session.storeRefs.arrived.keys := by simp [owed, hnone]
      have hcount_old : w.owed.count k + w.deletions k = 0 := by
        have hdel : w.deletions k = 0 := by simp [deletions, h.open_deletions hnone]
        rw [hdel, howed_old, List.count_eq_zero.mpr hzero.1]
      have hreport := (h.undeleted k hold hcount_old).1
      rw [hnone] at hreport
      cases hreport
    · exact absurd hnew hzero.2

/-- A ref comes to a closing session and is deleted at once. -/
theorem Custody.deleteAtOnce (h : Custody w) (ha : Arrivals outputStore w) {i : Nat}
    (href : result.arrivedRef = some ref)
    (hclosing : w.session.closing = true) (hfresh : ref.key ∉ w.stored.map (·.key)) :
    Custody { w.withAnswer i result with deleteManyCalls := w.deleteManyCalls ++ [[ref]] } := by
  have hdeletions : ∀ k,
      deletions { w.withAnswer i result with deleteManyCalls := w.deleteManyCalls ++ [[ref]] } k =
        w.deletions k + [ref.key].count k :=
    deletions_append w [ref]
  have hstored : (w.withAnswer i result).stored.map (·.key) =
      w.stored.map (·.key) ++ [ref.key] := by
    simp [withAnswer, href]
  -- the new key is neither deleted nor owed yet
  have hnew_deletions : w.deletions ref.key = 0 := by
    by_contra hne
    exact hfresh (h.deleted_stored _ hne)
  have hnew_owed : w.owed.count ref.key = 0 :=
    List.count_eq_zero.mpr fun hmem => hfresh (ha.arrived_stored _ (h.owed_arrived _ hmem))
  refine { h with
    open_deletions := ?_, deleted_stored := ?_, at_most_once := ?_, undeleted := ?_
    received_kept := ?_ }
  · exact fun hnone => absurd hnone (h.closing_iff.mp hclosing)
  · intro k hk
    show k ∈ (w.withAnswer i result).stored.map (·.key)
    rw [hstored]
    by_cases hkey : k = ref.key
    · exact List.mem_append_right _ (List.mem_singleton.mpr hkey)
    · refine List.mem_append_left _ (h.deleted_stored k ?_)
      rw [hdeletions k] at hk
      simpa [Ne.symm hkey] using hk
  · intro k
    rw [hdeletions k]
    show w.owed.count k + _ ≤ 1
    by_cases hkey : k = ref.key
    · subst hkey
      simp [hnew_owed, hnew_deletions]
    · have := h.at_most_once k
      simpa [Ne.symm hkey] using this
  · intro k hk hcount
    rw [hdeletions k] at hcount
    have hcount : w.owed.count k + (w.deletions k + [ref.key].count k) = 0 := hcount
    have hkey : k ≠ ref.key := by
      rintro rfl
      simp at hcount
    have hk : k ∈ (w.withAnswer i result).stored.map (·.key) := hk
    rw [hstored] at hk
    rcases List.mem_append.mp hk with hold | hnew
    · exact h.undeleted k hold (by omega)
    · exact absurd (List.mem_singleton.mp hnew) hkey
  · intro hreport k hk
    have hbefore := h.received_kept hreport k hk
    refine ⟨?_, hbefore.2⟩
    have hkey : ref.key ≠ k := by
      rintro rfl
      exact hfresh (ha.arrived_stored _ (ha.replied_arrived _ (Received.handedOver hk)))
    rw [hdeletions k, hbefore.1]
    simp [hkey]

theorem Custody.answer (h : Custody w) (ha : Arrivals outputStore w) {i : Nat} {optedIn : Bool}
    (recorded : Bool) (hchat : w.chats[i]? = some (.proxying optedIn))
    (hengine : w.EngineStep (.answer i result recorded)) :
    Custody (w.answer outputStore i optedIn result recorded) := by
  cases href : result.arrivedRef with
  | none =>
    obtain ⟨contractError, records, -, heq⟩ :=
      answer_none outputStore w i optedIn recorded href
    rw [heq]
    exact { h with }
  | some ref =>
    obtain ⟨hopted, hfresh⟩ := hengine ref href
    rw [hchat] at hopted
    cases hopted
    have hstore : outputStore = true := ha.opted (List.mem_of_getElem? hchat)
    cases hclosing : w.session.closing with
    | false =>
      have harrive := h.addArrived ha (i := i) href hclosing hfresh
      rcases answer_open outputStore i recorded href hclosing with heq | heq
      · rw [heq]
        exact harrive
      · rw [heq]
        exact { harrive with }
    | true =>
      subst hstore
      rw [answer_closing href hclosing]
      exact h.deleteAtOnce ha href hclosing hfresh

/-- A DELETE begins: every ref that arrived is still owed, and the client has all it will get. -/
theorem Custody.delete (h : Custody w)
    (hopen : w.session.closing = false)
    (hended : ∀ call ∈ w.calls, call.outcome ≠ .pending) :
    Custody
      { w with
        session := { w.session with closing := true }
        deletion := .closing samplesReceived } := by
  have hnone : w.deletion = .notBegun := by
    by_contra hne
    have hclosing := h.closing_iff.mpr hne
    rw [hopen] at hclosing
    cases hclosing
  have howed : w.owed = w.session.storeRefs.arrived.keys := by simp [owed, hnone]
  have hdeletions : ∀ k, w.deletions k = 0 := by
    intro k
    simp [deletions, h.open_deletions hnone]
  refine { h with
    closing_iff := by simp, closing_calls := ?_, open_deletions := ?_, owed_arrived := ?_
    rest_item := ?_, at_most_once := ?_, undeleted := ?_, received_kept := ?_ }
  · exact fun _ call hcall hpending => absurd hpending (hended call hcall)
  · intro hnot
    cases hnot
  · exact fun k hk => hk
  · intro _ _ _ hselecting
    cases hselecting
  · intro k
    have := h.at_most_once k
    rw [howed] at this
    exact this
  · intro k hk hcount
    have hreport := (h.undeleted k hk (by rw [howed]; exact hcount)).1
    rw [hnone] at hreport
    cases hreport
  · exact fun _ k _ => ⟨hdeletions k, by simp [Deletion.keptKeys]⟩

theorem Custody.remove (h : Custody w) (ha : Arrivals outputStore w)
    (hclosing : w.deletion = .closing samplesReceived) :
    Custody
      { w with
        registered := false
        deletion := .selecting samplesReceived [] w.session.storeRefs.arrived.items } := by
  have howed : w.owed = w.session.storeRefs.arrived.keys := by simp [owed, hclosing]
  have hbegun : w.session.closing = true := h.closing_iff.mpr (by simp [hclosing])
  refine { h with
    closing_iff := by simp [hbegun], open_deletions := ?_, owed_arrived := ?_, rest_item := ?_
    at_most_once := ?_, undeleted := ?_, received_kept := ?_ }
  · intro hnot
    cases hnot
  · exact fun k hk => hk
  · intro _ _ _ hselecting
    cases hselecting
    exact ha.arrived_item
  · intro k
    have := h.at_most_once k
    rw [howed] at this
    exact this
  · intro k hk hcount
    have := h.undeleted k hk (by rw [howed]; exact hcount)
    rw [hclosing] at this
    exact this
  · intro hreport k hk
    have := h.received_kept (by rw [hclosing]; exact hreport) k hk
    exact ⟨this.1, by simp [Deletion.keptKeys]⟩

/-- One step of the loop of `kept_by_session`.  A ref that is passed over was handed over, and one
    that the client received is passed over when the DELETE reports samples. -/
theorem Custody.select (h : Custody w) (ha : Arrivals outputStore w)
    {kept : List StoreRef} {item : String × StoreRef} {rest : List (String × StoreRef)}
    (hselecting : w.deletion = .selecting samplesReceived kept (item :: rest)) {kept' : List StoreRef}
    (hkept : kept' =
      if w.session.storeRefs.keeps samplesReceived item.1 then kept ++ [item.2] else kept) :
    Custody { w with deletion := .selecting samplesReceived kept' rest } := by
  have howed : w.owed = kept.map (·.key) ++ item.1 :: rest.map Prod.fst := by
    simp [owed, hselecting]
  have hitem : item.2.key = item.1 :=
    h.rest_item _ _ _ hselecting item (List.mem_cons_self ..)
  have hbegun : w.session.closing = true := h.closing_iff.mpr (by simp [hselecting])
  have hkeys : kept'.map (·.key) = kept.map (·.key) ++
      if w.session.storeRefs.keeps samplesReceived item.1 then [item.1] else [] := by
    rw [hkept]
    split <;> simp [hitem]
  -- what is owed only shrinks
  have hsub : (kept'.map (·.key) ++ rest.map Prod.fst).Sublist w.owed := by
    rw [hkeys, howed, List.append_assoc]
    refine List.Sublist.append_left ?_ _
    split
    · exact List.Sublist.refl _
    · exact List.sublist_cons_self ..
  refine { h with
    closing_iff := by simp [hbegun], open_deletions := ?_, owed_arrived := ?_, rest_item := ?_
    at_most_once := ?_, undeleted := ?_, received_kept := ?_ }
  · intro hnot
    cases hnot
  · exact fun k hk => h.owed_arrived k (hsub.subset hk)
  · intro _ _ _ heq
    cases heq
    exact fun other hother =>
      h.rest_item _ _ _ hselecting other (List.mem_cons_of_mem _ hother)
  · intro k
    have hle := hsub.count_le k
    have := h.at_most_once k
    show (kept'.map (·.key) ++ rest.map Prod.fst).count k + w.deletions k ≤ 1
    omega
  · intro k hk hcount
    have hcount : (kept'.map (·.key) ++ rest.map Prod.fst).count k + w.deletions k = 0 := hcount
    show some samplesReceived = some true ∧ w.HandedOver k
    by_cases hbefore : w.owed.count k = 0
    · have := h.undeleted k hk (by omega)
      rw [hselecting] at this
      exact this
    · -- the ref was owed until this step, so it is the one that was passed over
      have hkeeps : w.session.storeRefs.keeps samplesReceived item.1 = false := by
        by_contra hne
        rw [Bool.not_eq_false] at hne
        rw [hkeys, hne, if_pos rfl] at hcount
        rw [howed] at hbefore
        simp only [List.count_append, List.count_cons, List.count_nil] at hcount hbefore
        omega
      have hk_item : k = item.1 := by
        by_contra hne
        rw [hkeys, hkeeps] at hcount
        rw [howed] at hbefore
        simp only [List.count_append, List.count_cons] at hcount hbefore
        have hneq : (item.1 == k) = false := by simpa using Ne.symm hne
        simp only [hneq, Bool.false_eq_true, if_false, List.count_nil, Nat.add_zero] at hcount hbefore
        omega
      subst hk_item
      simp only [SessionStoreRefs.keeps, Bool.or_eq_false_iff, Bool.not_eq_false',
        decide_eq_false_iff_not, not_not] at hkeeps
      exact ⟨by rw [hkeeps.1], (ha.handedOver_iff _).mp hkeeps.2⟩
  · intro hreport k hk
    have hreport : some samplesReceived = some true := hreport
    have hold := h.received_kept (by rw [hselecting]; exact hreport) k hk
    refine ⟨hold.1, ?_⟩
    show k ∉ kept'.map (·.key)
    have hkept_old : k ∉ kept.map (·.key) := by
      have := hold.2
      rw [hselecting] at this
      exact this
    rw [hkeys, List.mem_append, not_or]
    refine ⟨hkept_old, ?_⟩
    split
    · rename_i hkeeps
      cases hreport
      simp only [SessionStoreRefs.keeps, Bool.not_true, Bool.false_or, decide_eq_true_eq] at hkeeps
      intro hmem
      rw [List.mem_singleton.mp hmem] at hk
      exact hkeeps ((ha.handedOver_iff _).mpr (Received.handedOver hk))
    · exact List.not_mem_nil

/-- A call for the samples is sent. -/
theorem Custody.samples (h : Custody w) {w' : World}
    (hstep : World.step outputStore w .samples = some w') : Custody w' := by
  cases hstep
  refine h.setCalls w.session.storeRefs.handedOver ?_ ?_ ?_ ?_
  · intro hclosing call hcall hpending
    rcases List.mem_append.mp hcall with hold | hnew
    · exact h.closing_calls hclosing call hold hpending
    · cases List.mem_singleton.mp hnew
      exact .inl rfl
  · intro call hcall hreceived
    rcases List.mem_append.mp hcall with hold | hnew
    · exact h.received_calls call hold hreceived
    · cases List.mem_singleton.mp hnew
      cases hreceived
  · intro k hk
    obtain ⟨call, hcall, hkey⟩ := hk
    exact ⟨call, List.mem_append_left _ hcall, hkey⟩
  · intro _ k hk
    obtain ⟨call, hcall, hreceived, hkey⟩ := hk
    rcases List.mem_append.mp hcall with hold | hnew
    · exact ⟨call, hold, hreceived, hkey⟩
    · cases List.mem_singleton.mp hnew
      cases hreceived

/-- The server collects the session for a call. -/
theorem Custody.collect (h : Custody w) {k : Nat} {w' : World}
    (hstep : World.step outputStore w (.collect k) = some w') : Custody w' := by
  simp only [World.step] at hstep
  split at hstep
  · rename_i call hcall
    split_ifs at hstep with hsent
    cases hstep
    have hkeys : call.repliedKeys = [] := by simp [SamplesCall.repliedKeys, hsent]
    have hnot_received : call.outcome ≠ .received := h.not_received hcall (by simp [hsent])
    refine h.setCall { call with handling := w.collect } w.session.storeRefs.handedOver hcall ?_
      (fun hreceived => absurd hreceived hnot_received) ?_
      (fun _ hreceived => absurd hreceived hnot_received) id
    · -- a closing session answers with a 404
      intro hclosing _
      refine .inr ?_
      show w.collect = .raised
      unfold World.collect
      rw [hclosing]
      simp
    · rw [hkeys]
      exact List.nil_subset _
  · cases hstep

/-- A call is answered with what was assembled, or its assembly raises. -/
theorem Custody.assemble (h : Custody w) {k : Nat} {assembly : Assembly} {w' : World}
    (hstep : World.step outputStore w (.assemble k assembly) = some w') : Custody w' := by
  simp only [World.step] at hstep
  split at hstep
  · rename_i call hcall
    -- the client of a job that a closing session ends does not wait any more
    have hnot_pending : ∀ records, call.handling = .assembling records →
        w.session.closing = true → call.outcome ≠ .pending := by
      intro records hassembling hclosing hpending
      rcases h.closing_calls hclosing call (List.mem_of_getElem? hcall) hpending with hs | hs <;>
        simp [hassembling] at hs
    split at hstep
    · rename_i records samples hassembling
      split_ifs at hstep with howned
      cases hstep
      have hkeys : call.repliedKeys = [] := by simp [SamplesCall.repliedKeys, hassembling]
      have hnot_received : call.outcome ≠ .received :=
        h.not_received hcall (by simp [hassembling])
      refine h.setCall { call with handling := .replied samples } _ hcall
        (fun hclosing hpending => absurd hpending (hnot_pending records hassembling hclosing))
        (fun _ => ⟨samples, rfl⟩) ?_ (fun _ hreceived => absurd hreceived hnot_received) id
      rw [hkeys]
      exact List.nil_subset _
    · rename_i records hassembling
      cases hstep
      have hkeys : call.repliedKeys = [] := by simp [SamplesCall.repliedKeys, hassembling]
      have hnot_received : call.outcome ≠ .received :=
        h.not_received hcall (by simp [hassembling])
      refine h.setCall { call with handling := .raised } w.session.storeRefs.handedOver hcall
        (fun _ _ => .inr rfl)
        (fun hreceived => absurd hreceived hnot_received) ?_
        (fun _ hreceived => absurd hreceived hnot_received) id
      rw [hkeys]
      exact List.nil_subset _
    · cases hstep
  · cases hstep

/-- The client receives a reply. -/
theorem Custody.receive (h : Custody w) {k : Nat} {w' : World}
    (hstep : World.step outputStore w (.receive k) = some w') : Custody w' := by
  simp only [World.step] at hstep
  split at hstep
  · rename_i call hcall
    split at hstep
    · rename_i samples hpending hreplied
      cases hstep
      -- nobody waits for a reply of a closing session
      have hopen : w.session.closing ≠ true := by
        intro hclosing
        rcases h.closing_calls hclosing call (List.mem_of_getElem? hcall) hpending with hs | hs <;>
          simp [hreplied] at hs
      exact h.setCall { call with outcome := .received } w.session.storeRefs.handedOver hcall
        (fun hc => absurd hc hopen)
        (fun _ => ⟨samples, hreplied⟩) (List.Subset.refl _) (fun hc => absurd hc hopen) (fun _ => rfl)
    · cases hstep
  · cases hstep

/-- A call fails at the client. -/
theorem Custody.fail (h : Custody w) {k : Nat} {w' : World}
    (hstep : World.step outputStore w (.fail k) = some w') : Custody w' := by
  simp only [World.step] at hstep
  split at hstep
  · rename_i call hcall
    split_ifs at hstep with hpending
    cases hstep
    refine h.setCall { call with outcome := .failed } w.session.storeRefs.handedOver hcall ?_ ?_
      (List.Subset.refl _) ?_ ?_
    · exact fun _ hfailed => nomatch hfailed
    · exact fun hfailed => nomatch hfailed
    · exact fun _ hfailed => nomatch hfailed
    · intro hreceived
      rw [hpending] at hreceived
      cases hreceived
  · cases hstep

/-- The kept refs are deleted: there is an output store client, because refs arrived. -/
theorem Custody.deleteKept (h : Custody w) (ha : Arrivals outputStore w)
    {kept : List StoreRef} (hselecting : w.deletion = .selecting samplesReceived kept []) :
    ∃ w', deleteStoreRefs outputStore { w with deletion := .done samplesReceived } kept = some w' ∧
      Custody w' := by
  have howed : w.owed = kept.map (·.key) := by simp [owed, hselecting]
  have hbegun : w.session.closing = true := h.closing_iff.mpr (by simp [hselecting])
  -- one call deletes them all, and nothing is called for an empty list
  have hstep : ∃ w' : World,
      deleteStoreRefs outputStore { w with deletion := .done samplesReceived } kept = some w' ∧
      ∃ calls, w' = { w with deletion := .done samplesReceived, deleteManyCalls := calls } ∧
        ∀ k, w'.deletions k = w.deletions k + (kept.map (·.key)).count k := by
    by_cases hempty : kept = []
    · subst hempty
      exact ⟨_, if_pos rfl, _, rfl, fun k => rfl⟩
    · have hstore : outputStore = true := by
        obtain ⟨ref, hkept⟩ := List.exists_mem_of_ne_nil kept hempty
        refine ha.arrived_outputStore (List.ne_nil_of_mem (h.owed_arrived ref.key ?_))
        rw [howed]
        exact List.mem_map_of_mem hkept
      refine ⟨_, by rw [deleteStoreRefs, if_neg hempty, if_neg (by simp [hstore])], _, rfl, ?_⟩
      exact fun k => deletions_append w kept k
  obtain ⟨w', heq, calls, hw', hdeletions⟩ := hstep
  refine ⟨w', heq, ?_⟩
  -- every key moves from the owed ones to the deleted ones
  have hcounts : ∀ k, w.owed.count k + w.deletions k = w'.deletions k := by
    intro k
    rw [hdeletions k, howed, Nat.add_comm]
  have hdone : w'.owed = [] := by rw [hw']; rfl
  subst hw'
  refine { h with
    closing_iff := by simp [hbegun], open_deletions := ?_, deleted_stored := ?_
    owed_arrived := ?_, rest_item := ?_, at_most_once := ?_, undeleted := ?_
    received_kept := ?_ }
  · intro hnot
    cases hnot
  · intro k hk
    rw [hdeletions k] at hk
    by_cases hbefore : w.deletions k = 0
    · have hcount : (kept.map (·.key)).count k ≠ 0 := by omega
      have hmem : k ∈ w.owed := by
        rw [howed]
        exact List.count_pos_iff.mp (Nat.pos_of_ne_zero hcount)
      exact ha.arrived_stored k (h.owed_arrived k hmem)
    · exact h.deleted_stored k hbefore
  · intro k hk
    rw [hdone] at hk
    cases hk
  · intro _ _ _ heq
    cases heq
  · intro k
    rw [hdone, ← hcounts k, List.count_nil, Nat.zero_add]
    exact h.at_most_once k
  · intro k hk hcount
    rw [hdone, ← hcounts k, List.count_nil, Nat.zero_add] at hcount
    have := h.undeleted k hk hcount
    rw [hselecting] at this
    exact this
  · intro hreport k hk
    have hold := h.received_kept (by rw [hselecting]; exact hreport) k hk
    rw [hselecting] at hold
    have hnot : k ∉ kept.map (·.key) := hold.2
    refine ⟨?_, by simp [Deletion.keptKeys]⟩
    rw [hdeletions k, hold.1, List.count_eq_zero.mpr hnot]

/-- Every event keeps the custody of the stored keys. -/
theorem Custody.step (h : Custody w) (ha : Arrivals outputStore w) {e : Event} {w' : World}
    (hengine : w.EngineStep e) (hclient : w.ClientStep e)
    (hstep : World.step outputStore w e = some w') : Custody w' := by
  cases e with
  | chat kept asks =>
    simp only [World.step, World.chat] at hstep
    split_ifs at hstep <;> cases hstep <;> exact { h with }
  | answer i result recorded =>
    simp only [World.step] at hstep
    split at hstep
    · rename_i optedIn hchat
      cases hstep
      exact h.answer ha recorded hchat hengine
    · cases hstep
  | samples => exact h.samples hstep
  | collect k => exact h.collect hstep
  | assemble k assembly => exact h.assemble hstep
  | receive k => exact h.receive hstep
  | fail k => exact h.fail hstep
  | delete samplesReceived =>
    simp only [World.step] at hstep
    split_ifs at hstep with hopen <;> cases hstep
    · exact h.delete (Bool.not_eq_true _ ▸ hopen.2) hclient
    · exact h
  | remove =>
    simp only [World.step] at hstep
    split at hstep <;> cases hstep
    rename_i samplesReceived hclosing
    exact h.remove ha hclosing
  | select =>
    simp only [World.step] at hstep
    split at hstep
    · rename_i samplesReceived kept item rest hselecting
      split_ifs at hstep with hkeeps <;> cases hstep
      · exact h.select ha hselecting (by rw [if_pos hkeeps])
      · exact h.select ha hselecting (by rw [if_neg hkeeps])
    · cases hstep
  | deleteKept =>
    simp only [World.step] at hstep
    split at hstep
    · rename_i samplesReceived kept hselecting
      obtain ⟨w₁, heq, hcustody⟩ := h.deleteKept ha hselecting
      rw [heq] at hstep
      cases hstep
      exact hcustody
    · cases hstep

end CustodySteps

/-! ## Runs -/

/-- Every run of an engine and a client that keep their sides keeps both kinds of facts. -/
theorem custody_of_run {outputStore : Bool} {events : List Event} {w : World}
    (hrun : Lts.run (World.step outputStore) {} events = some w)
    (hparties : Lts.StepsWhere (World.step outputStore)
      (fun w e => w.EngineStep e ∧ w.ClientStep e) {} events) :
    Arrivals outputStore w ∧ Custody w := by
  have hstep : ∀ (w : World) (e : Event) (w' : World), Arrivals outputStore w ∧ Custody w →
      w.EngineStep e ∧ w.ClientStep e → World.step outputStore w e = some w' →
      Arrivals outputStore w' ∧ Custody w' := by
    intro w e w' hinv hside hnext
    exact ⟨hinv.1.step hside.1 hnext, hinv.2.step hinv.1 hside.1 hside.2 hnext⟩
  exact Lts.run_invariant_where hstep ⟨arrivals_init, custody_init⟩ hparties hrun

/-- With one `/samples` request, reported as it ended for the client, the report is right. -/
theorem reportRight_of_single {w : World} (hsingle : w.calls.length ≤ 1)
    (hreport : samplesReceived = true ↔ ∃ call ∈ w.calls, call.outcome = .received) :
    w.ReportRight samplesReceived := by
  intro call hcall _
  have hcalls : w.calls = [call] := by
    match hlist : w.calls, hsingle, hcall with
    | [only], _, hcall => rw [List.mem_singleton.mp hcall]
  rw [hreport, hcalls]
  simp

/-- When the DELETE has ended, no ref that came with a response was deleted twice, and none that
    the client received was deleted if the DELETE reported samples.  A ref that was not deleted is
    one of a reply, and the DELETE reported samples.  Where the report is right about every reply
    that carried refs, each ref is either with the client or was deleted once; that is so for a
    client with one `/samples` request that reports how it ended. -/
theorem store_refs_owned {outputStore : Bool} {events : List Event} {w : World}
    {samplesReceived : Bool}
    (hrun : Lts.run (World.step outputStore) {} events = some w)
    (hparties : Lts.StepsWhere (World.step outputStore)
      (fun w e => w.EngineStep e ∧ w.ClientStep e) {} events)
    (hdone : w.deletion = .done samplesReceived) :
    (∀ ref ∈ w.stored,
      w.deletions ref.key ≤ 1 ∧
      (samplesReceived = true → w.Received ref.key → w.deletions ref.key = 0) ∧
      (w.deletions ref.key = 0 → samplesReceived = true ∧ w.HandedOver ref.key) ∧
      (w.ReportRight samplesReceived → Xor (w.Received ref.key) (w.deletions ref.key = 1))) ∧
    (w.calls.length ≤ 1 → (samplesReceived = true ↔ ∃ call ∈ w.calls, call.outcome = .received) →
      w.ReportRight samplesReceived) := by
  obtain ⟨-, hcustody⟩ := custody_of_run hrun hparties
  refine ⟨fun ref href => ?_, reportRight_of_single⟩
  have howed : w.owed.count ref.key = 0 := by simp [owed, hdone]
  have hreport : w.deletion.report = some samplesReceived := by rw [hdone]; rfl
  have honce : w.deletions ref.key ≤ 1 := by
    have := hcustody.at_most_once ref.key
    omega
  have hclient : samplesReceived = true → w.Received ref.key → w.deletions ref.key = 0 := by
    intro htrue hreceived
    exact (hcustody.received_kept (by rw [hreport, htrue]) ref.key hreceived).1
  have hundeleted : w.deletions ref.key = 0 → samplesReceived = true ∧ w.HandedOver ref.key := by
    intro hzero
    obtain ⟨hsome, hhanded⟩ :=
      hcustody.undeleted ref.key (List.mem_map_of_mem href) (by omega)
    rw [hreport] at hsome
    exact ⟨Option.some_injective _ hsome, hhanded⟩
  refine ⟨honce, hclient, hundeleted, fun hright => ?_⟩
  have hnonempty : ∀ {call : SamplesCall}, ref.key ∈ call.repliedKeys → call.repliedKeys ≠ [] :=
    fun hkey => List.ne_nil_of_mem hkey
  by_cases hzero : w.deletions ref.key = 0
  · -- a ref of a reply: the report says that it was received
    obtain ⟨htrue, call, hcall, hkey⟩ := hundeleted hzero
    have hreceived := (hright call hcall (hnonempty hkey)).mpr htrue
    exact .inl ⟨⟨call, hcall, hreceived, hkey⟩, by omega⟩
  · refine .inr ⟨by omega, ?_⟩
    intro hreceived
    obtain ⟨call, hcall, houtcome, hkey⟩ := id hreceived
    exact hzero (hclient ((hright call hcall (hnonempty hkey)).mp houtcome) hreceived)

/-- An opted-in response with a ref. -/
def storedResponse (key : String) (finishReason : FinishReason) : ProxyResult :=
  ⟨200, some ⟨finishReason, .ref ⟨key, []⟩⟩⟩

/-- An aborted response, a recorded one, a collection that the client receives, and a response
    that comes after the DELETE began. -/
def collectedRun : List Event :=
  [.chat 0 true, .answer 0 (storedResponse "key-1" .abort) false,
   .chat 0 true, .answer 1 (storedResponse "key-2" .stop) true, .chat 1 true,
   .samples, .collect 0, .assemble 0 (.samples [⟨some [⟨"key-2", []⟩]⟩]), .receive 0,
   .delete true, .answer 2 (storedResponse "key-3" .stop) true, .remove, .select, .select,
   .deleteKept]

/-- The client of `collectedRun` keeps one ref, the session deletes the other two once. -/
theorem store_refs_owned_collectedRun :
    ∃ w, Lts.run (World.step true) {} collectedRun = some w ∧
      w.stored.map (·.key) = ["key-1", "key-2", "key-3"] ∧
      ∀ ref ∈ w.stored, Xor (w.Received ref.key) (w.deletions ref.key = 1) := by
  have hparties : Lts.StepsWhere (World.step true)
      (fun w e => w.EngineStep e ∧ w.ClientStep e) {} collectedRun := by decide
  have hdone : ∀ w, Lts.run (World.step true) {} collectedRun = some w →
      w.deletion = .done true := by
    intro w hrun
    cases hrun
    rfl
  refine ⟨_, rfl, by decide, ?_⟩
  have howned := store_refs_owned rfl hparties (hdone _ rfl)
  exact fun ref href => (howned.1 ref href).2.2.2 (howned.2 (by decide) (by decide))

/-- The first reply is lost.  A retry rolls its turn back, and the second reply arrives. -/
def lostReplyRun : List Event :=
  [.chat 0 true, .answer 0 (storedResponse "key-1" .stop) true, .samples, .collect 0,
   .assemble 0 (.samples [⟨some [⟨"key-1", []⟩]⟩]), .fail 0,
   .chat 0 true, .answer 1 (storedResponse "key-2" .stop) true, .samples, .collect 1,
   .assemble 1 (.samples [⟨some [⟨"key-2", []⟩]⟩]), .receive 1,
   .delete true, .remove, .select, .select, .deleteKept]

/-- Not every ref is with the client or deleted: one of a lost reply is neither, when a later
    reply was received. -/
theorem lost_reply_leaks :
    ¬ ∀ (events : List Event) (w : World) (samplesReceived : Bool),
        Lts.run (World.step true) {} events = some w →
        Lts.StepsWhere (World.step true) (fun w e => w.EngineStep e ∧ w.ClientStep e) {} events →
        w.deletion = .done samplesReceived →
        (samplesReceived = true ↔ ∃ call ∈ w.calls, call.outcome = .received) →
        ∀ ref ∈ w.stored, w.Received ref.key ∨ w.deletions ref.key = 1 := by
  intro hclaim
  have hparties : Lts.StepsWhere (World.step true)
      (fun w e => w.EngineStep e ∧ w.ClientStep e) {} lostReplyRun := by decide
  have hleak := hclaim lostReplyRun _ true rfl hparties rfl (by decide) ⟨"key-1", []⟩ (by decide)
  revert hleak
  decide

end World

end Miles.Session.StoreRefs
