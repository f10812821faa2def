import Miles.ForStd.List
import Miles.ForStd.Lts
import Miles.Native.Workers.RpcCall

/-!
# A worker RPC call is executed at most once

A submit is sent again only when the one before it has reached no server, so at most one submit
of the call is on its way or handled.  What a server records, what it answers and what `run()`
makes of it go back to the task of that submit.
-/

namespace Miles.Workers.Rpc

variable {Val Payload : Type} {cfg : Config Val Payload}

/-! ## What a task justifies -/

/-- A task of the call has finished with this outcome. -/
def Justified (cfg : Config Val Payload) (tasks : List (ExecutorTask Val))
    (outcome : CallStatus Payload) : Prop :=
  ∃ task ∈ tasks, task.callId = cfg.callId ∧
    ∃ result, task.state = .finished result ∧ outcomeOf cfg result = outcome

/-- The finished tasks stay. -/
def KeepsFinished (tasks tasks' : List (ExecutorTask Val)) : Prop :=
  ∀ task ∈ tasks, ∀ result, task.state = .finished result → task ∈ tasks'

theorem Justified.mono {tasks tasks' : List (ExecutorTask Val)} {outcome : CallStatus Payload}
    (h : Justified cfg tasks outcome) (hkeeps : KeepsFinished tasks tasks') :
    Justified cfg tasks' outcome := by
  obtain ⟨task, hmem, hcall, result, hstate, houtcome⟩ := h
  exact ⟨task, hkeeps task hmem result hstate, hcall, result, hstate, houtcome⟩

variable {tasks : List (ExecutorTask Val)}

theorem keepsFinished_set {i : Nat}
    {task new : ExecutorTask Val} (hi : tasks[i]? = some task)
    (hstate : ∀ result, task.state ≠ .finished result) : KeepsFinished tasks (tasks.set i new) := by
  intro t ht result hresult
  refine List.mem_set_of_ne hi ht ?_
  rintro rfl
  exact hstate result hresult

/-! ## The store -/

namespace CallStore

variable {tasks : List (ExecutorTask Val)} {store : CallStore Payload}

/-- The dictionary names records of its keys, and the outcomes of the call are justified. -/
structure Sound (cfg : Config Val Payload) (tasks : List (ExecutorTask Val))
    (store : CallStore Payload) : Prop where
  named : ∀ callId a, store.records.get? callId = some a →
    (store.objects.map (·.callId))[a]? = some callId
  outcomes : ∀ record ∈ store.objects, record.callId = cfg.callId →
    ∀ outcome, record.outcome = some outcome → Justified cfg tasks outcome

theorem Sound.mono (h : Sound cfg tasks store) {tasks' : List (ExecutorTask Val)}
    (hkeeps : KeepsFinished tasks tasks') : Sound cfg tasks' store where
  named := h.named
  outcomes := fun record hmem hcall outcome houtcome =>
    (h.outcomes record hmem hcall outcome houtcome).mono hkeeps

/-- An empty store is sound. -/
theorem sound_empty : Sound cfg tasks ({} : CallStore Payload) where
  named := fun _ _ h => nomatch h
  outcomes := fun _ h => nomatch h

/-- A submit adds a record for its call at most. -/
theorem start_spec (h : Sound cfg tasks store) (callId : Nat) (now : ℚ) :
    Sound cfg tasks (store.start cfg callId now).1 ∧
      store.objects.map (·.callId) <+: (store.start cfg callId now).1.objects.map (·.callId) := by
  have hnamed : ∀ k a, (store.purgeExpired cfg now).records.get? k = some a →
      (store.objects.map (·.callId))[a]? = some k := fun k a ha =>
    h.named k a (PyDict.get?_filter.mp ha).1
  unfold start
  dsimp only
  split
  · exact ⟨⟨hnamed, h.outcomes⟩, List.prefix_rfl⟩
  · constructor
    · constructor
      · intro k a ha
        rw [PyDict.get?_set] at ha
        show ((store.objects ++ [({ callId } : CallRecord Payload)]).map (·.callId))[a]? = some k
        rw [List.map_append]
        split at ha
        · rename_i hk
          cases ha
          rw [hk]
          show (_ ++ [callId])[store.objects.length]? = _
          rw [← List.length_map (fun record => record.callId), List.getElem?_concat_length]
        · have hold := hnamed k a ha
          rw [List.getElem?_append_left (List.getElem?_eq_some_iff.mp hold).1]
          exact hold
      · intro record hmem
        rcases List.mem_append.mp hmem with hold | hnew
        · exact h.outcomes record hold
        · rw [List.mem_singleton] at hnew
          subst hnew
          intro _ outcome houtcome
          cases houtcome
    · show _ <+: (store.objects ++ [_]).map _
      rw [List.map_append]
      exact List.prefix_append ..

/-- Setting fields of a record other than its call. -/
theorem sound_set (h : Sound cfg tasks store) {a : Nat} {record new : CallRecord Payload}
    (ha : store.objects[a]? = some record) (hcall : new.callId = record.callId)
    (hnew : new.callId = cfg.callId → ∀ outcome, new.outcome = some outcome →
      Justified cfg tasks outcome) :
    Sound cfg tasks { store with objects := store.objects.set a new } ∧
      (store.objects.set a new).map (·.callId) = store.objects.map (·.callId) := by
  have hmap : (store.objects.set a new).map (·.callId) = store.objects.map (·.callId) :=
    List.map_set_of_eq (·.callId) ha hcall
  refine ⟨⟨fun k b hb => ?_, fun other hmem => ?_⟩, hmap⟩
  · show ((store.objects.set a new).map (·.callId))[b]? = some k
    rw [hmap]
    exact h.named k b hb
  · rcases List.mem_or_eq_of_mem_set hmem with hold | rfl
    · exact h.outcomes other hold
    · exact hnew

/-- A finish records a justified outcome. -/
theorem finish_spec (h : Sound cfg tasks store) {callId : Nat} {outcome : CallStatus Payload}
    {now : ℚ} {store' : CallStore Payload}
    (hjustified : callId = cfg.callId → Justified cfg tasks outcome)
    (hfinish : store.finish callId outcome now = some store') :
    Sound cfg tasks store' ∧
      store'.objects.map (·.callId) = store.objects.map (·.callId) := by
  obtain ⟨a, ha, hrest⟩ := Option.bind_eq_some_iff.mp hfinish
  obtain ⟨record, hrecord, hrest⟩ := Option.bind_eq_some_iff.mp hrest
  split at hrest
  · cases hrest
  · cases hrest
    have hcall : record.callId = callId := by
      have hnamed := h.named callId a ha
      rw [List.getElem?_map, hrecord] at hnamed
      exact Option.some.inj hnamed
    refine sound_set h hrecord rfl fun hown o ho => ?_
    cases ho
    exact hjustified (hcall.symm.trans hown)

/-- What a long poll retrieves from a record of the call is justified. -/
theorem retrieve_spec (h : Sound cfg tasks store) (a : Nat) (now : ℚ) :
    Sound cfg tasks (store.retrieve a now).1 ∧
      (store.retrieve a now).1.objects.map (·.callId) = store.objects.map (·.callId) ∧
      ((store.objects.map (·.callId))[a]? = some cfg.callId →
        ∀ outcome, (store.retrieve a now).2 = some outcome → Justified cfg tasks outcome) := by
  unfold retrieve
  cases ha : store.objects[a]? with
  | none => exact ⟨h, rfl, fun _ _ houtcome => nomatch houtcome⟩
  | some record =>
    have hmem : record ∈ store.objects := List.mem_of_getElem? ha
    have houtcome : (store.objects.map (·.callId))[a]? = some cfg.callId →
        ∀ outcome, record.outcome = some outcome → Justified cfg tasks outcome := by
      intro hown
      rw [List.getElem?_map, ha] at hown
      exact h.outcomes record hmem (Option.some.inj hown)
    dsimp only
    split
    · have hset : Sound cfg tasks { store with
          objects := store.objects.set a { record with firstRetrievedAt := some now } } ∧ _ :=
        sound_set h ha rfl fun hown outcome ho => h.outcomes record hmem hown outcome ho
      exact ⟨hset.1, hset.2, houtcome⟩
    · exact ⟨h, rfl, houtcome⟩

end CallStore

/-! ## The invariant -/

namespace World

/-- The submits of the call that are on their way or have become tasks. -/
def submits (cfg : Config Val Payload) (w : World Val Payload) : Nat :=
  w.requests.countP (·.isSubmit) + (w.tasks.map (·.callId)).count cfg.callId

/-- A poll of the call is held on a record of the call. -/
def HeldOn (cfg : Config Val Payload) (servers : List (Server Payload)) (query : Query) : Prop :=
  ∃ server, servers[query.bootUuid]? = some server ∧
    (server.store.objects.map (·.callId))[query.record]? = some cfg.callId

/-- An answer brings no outcome that is not justified. -/
def AnswerSound (cfg : Config Val Payload) (tasks : List (ExecutorTask Val))
    (response : Response Payload) : Prop :=
  ∀ status, response = .callStatus status → status = .pending ∨ Justified cfg tasks status

/-- What `run()` makes of an outcome goes back to a task. -/
structure PhaseSound (cfg : Config Val Payload) (tasks : List (ExecutorTask Val))
    (phase : Phase Val) : Prop where
  returned : ∀ value, phase = .done (.returned value) →
    ∃ payload, Justified cfg tasks (.success payload) ∧ cfg.decodeResult payload = .ok value
  failed : ∀ error, phase = .done (.workerCallError error) → Justified cfg tasks (.failed error)

/-- What holds between any two events. -/
structure Inv (cfg : Config Val Payload) (w : World Val Payload) : Prop where
  once : w.submits cfg ≤ 1
  /-- before an attempt to submit no earlier one can still reach a server -/
  fresh : w.phase = .submit → w.submits cfg = 0
  stores : ∀ server ∈ w.servers, server.store.Sound cfg w.tasks
  queries : ∀ query ∈ w.queries, HeldOn cfg w.servers query
  answers : ∀ answer ∈ w.answers, AnswerSound cfg w.tasks answer.response
  phase : PhaseSound cfg w.tasks w.phase

/-- A phase without an outcome. -/
theorem phaseSound_of_ne {phase : Phase Val}
    (hreturned : ∀ value, phase ≠ .done (.returned value))
    (hfailed : ∀ error, phase ≠ .done (.workerCallError error)) : PhaseSound cfg tasks phase where
  returned := fun value h => absurd h (hreturned value)
  failed := fun error h => absurd h (hfailed error)

theorem PhaseSound.mono {tasks tasks' : List (ExecutorTask Val)} {phase : Phase Val}
    (h : PhaseSound cfg tasks phase) (hkeeps : KeepsFinished tasks tasks') :
    PhaseSound cfg tasks' phase where
  returned := by
    intro value hvalue
    obtain ⟨payload, hjustified, hdecode⟩ := h.returned value hvalue
    exact ⟨payload, hjustified.mono hkeeps, hdecode⟩
  failed := fun error herror => (h.failed error herror).mono hkeeps

theorem AnswerSound.mono {tasks tasks' : List (ExecutorTask Val)} {response : Response Payload}
    (h : AnswerSound cfg tasks response) (hkeeps : KeepsFinished tasks tasks') :
    AnswerSound cfg tasks' response :=
  fun status hstatus => (h status hstatus).imp_right fun hj => hj.mono hkeeps

/-- A store that keeps its records keeps the polls held on them. -/
theorem HeldOn.set {servers : List (Server Payload)} {query : Query} (h : HeldOn cfg servers query)
    {b : Nat} {server new : Server Payload} (hb : servers[b]? = some server)
    (hgrows : server.store.objects.map (·.callId) <+: new.store.objects.map (·.callId)) :
    HeldOn cfg (servers.set b new) query := by
  obtain ⟨s, hs, hrecord⟩ := h
  by_cases hbq : query.bootUuid = b
  · subst hbq
    obtain rfl : server = s := Option.some.inj (hb.symm.trans hs)
    refine ⟨new, (List.getElem?_set_eq_some hb).mpr (.inl ⟨rfl, rfl⟩), ?_⟩
    obtain ⟨rest, hrest⟩ := hgrows
    rw [← hrest, List.getElem?_append_left (List.getElem?_eq_some_iff.mp hrecord).1]
    exact hrecord
  · exact ⟨s, (List.getElem?_set_eq_some hb).mpr (.inr ⟨hbq, hs⟩), hrecord⟩

variable {w w' : World Val Payload}

/-- An event of the client or of the network. -/
theorem inv_of_client (h : Inv cfg w) (htasks : w'.tasks = w.tasks)
    (hservers : w'.servers = w.servers) (hqueries : w'.queries = w.queries)
    (hanswers : w'.answers = w.answers) (honce : w'.submits cfg ≤ 1)
    (hfresh : w'.phase = .submit → w'.submits cfg = 0)
    (hphase : PhaseSound cfg w.tasks w'.phase) : Inv cfg w' where
  once := honce
  fresh := hfresh
  stores := by rw [hservers, htasks]; exact h.stores
  queries := by rw [hqueries, hservers]; exact h.queries
  answers := by rw [hanswers, htasks]; exact h.answers
  phase := by rw [htasks]; exact hphase

/-- An answer of a server. -/
theorem inv_reply (h : Inv cfg w) {requestId bootUuid statusCode : Nat}
    {response : Response Payload} (hresponse : AnswerSound cfg w.tasks response) :
    Inv cfg (w.reply requestId bootUuid statusCode response) where
  once := h.once
  fresh := h.fresh
  stores := h.stores
  queries := h.queries
  answers := by
    intro answer hmem
    rcases List.mem_append.mp hmem with hold | hnew
    · exact h.answers answer hold
    · rw [List.mem_singleton.mp hnew]
      exact hresponse
  phase := h.phase

/-- A store operation of a server, with the tasks after it. -/
theorem inv_of_store (h : Inv cfg w) {b : Nat} {server : Server Payload} {store : CallStore Payload}
    (hb : w.servers[b]? = some server) (hservers : w'.servers = w.servers.set b { server with store })
    (hstore : store.Sound cfg w'.tasks)
    (hgrows : server.store.objects.map (·.callId) <+: store.objects.map (·.callId))
    (hkeeps : KeepsFinished w.tasks w'.tasks) (hqueries : ∀ query ∈ w'.queries, query ∈ w.queries)
    (hanswers : w'.answers = w.answers) (hphase : w'.phase = w.phase)
    (honce : w'.submits cfg ≤ 1) (hfresh : w.phase = .submit → w'.submits cfg = 0) :
    Inv cfg w' where
  once := honce
  fresh := by rw [hphase]; exact hfresh
  stores := by
    intro s hs
    rw [hservers] at hs
    rcases List.mem_or_eq_of_mem_set hs with hold | rfl
    · exact (h.stores s hold).mono hkeeps
    · exact hstore
  queries := by
    intro query hquery
    rw [hservers]
    exact (h.queries query (hqueries query hquery)).set hb hgrows
  answers := by
    intro answer hmem
    rw [hanswers] at hmem
    exact (h.answers answer hmem).mono hkeeps
  phase := by rw [hphase]; exact h.phase.mono hkeeps

/-! ## Steps -/

theorem submits_lose (w : World Val Payload) (requestId : Nat) :
    (w.loseRequest requestId).submits cfg ≤ w.submits cfg :=
  Nat.add_le_add_right (List.filter_sublist.countP_le) _

/-- A submit that gets lost, or is handled, is no longer on its way. -/
theorem submits_lose_lt {requestId : Nat} {r : Request} (hr : r ∈ w.requests)
    (hid : r.requestId = requestId) (hsubmit : r.isSubmit = true) :
    (w.loseRequest requestId).submits cfg < w.submits cfg := by
  refine Nat.add_lt_add_right ?_ _
  show (w.requests.filter (·.requestId ≠ requestId)).countP (·.isSubmit) < _
  rw [List.countP_filter]
  refine List.countP_lt_countP ?_ hr hsubmit ?_
  · intro x _ hx
    exact (Bool.and_eq_true_iff.mp hx).1
  · simp [hid]

/-- A lost request keeps the invariant. -/
theorem inv_lose (h : Inv cfg w) (requestId : Nat) : Inv cfg (w.loseRequest requestId) := by
  have hle : (w.loseRequest requestId).submits cfg ≤ w.submits cfg := submits_lose w requestId
  refine inv_of_client h rfl rfl rfl rfl (hle.trans h.once) (fun hphase => ?_) h.phase
  have hzero := h.fresh hphase
  omega

/-- A change of the phase alone, away from the attempts to submit. -/
theorem inv_setPhase (h : Inv cfg w) {phase : Phase Val} (pin : BootUuidPin)
    (hne : phase ≠ .submit) (hphase : PhaseSound cfg w.tasks phase) :
    Inv cfg { w with phase, pin } :=
  inv_of_client h rfl rfl rfl rfl h.once (fun heq => absurd heq hne) hphase

/-- A request that is sent keeps the invariant. -/
theorem inv_send (h : Inv cfg w) {isSubmit : Bool} {phase : Nat → Phase Val}
    (hroom : isSubmit = true → w.submits cfg = 0) (hne : ∀ i, phase i ≠ .submit)
    (hphase : ∀ i, PhaseSound cfg w.tasks (phase i)) : Inv cfg (w.sendRequest isSubmit phase) := by
  refine inv_of_client h rfl rfl rfl rfl ?_ (fun heq => absurd heq (hne _)) (hphase _)
  have honce := h.once
  unfold submits at honce hroom ⊢
  show List.countP (·.isSubmit) (_ :: w.requests) + (w.tasks.map (·.callId)).count cfg.callId ≤ 1
  rw [List.countP_cons]
  cases isSubmit with
  | true =>
    have hzero := hroom rfl
    simp only [if_true]
    omega
  | false =>
    simp only [Bool.false_eq_true, if_false]
    omega

/-- An attempt to submit is followed by another one only when it has reached no server. -/
theorem inv_failAttempt (h : Inv cfg w) {requestId : Nat} {isSubmit : Bool} {error : AttemptError}
    {deadline : Bool} (hfail : w.failAttempt requestId isSubmit error deadline = some w') :
    Inv cfg w' := by
  have hquiet : ∀ phase : Phase Val, (phase = .submit ∨ phase = .done .unreachable) ∨
      phase = .done .stillPending ∨ phase = .poll → PhaseSound cfg w.tasks phase := by
    rintro phase ((rfl | rfl) | rfl | rfl) <;>
      exact phaseSound_of_ne (by simp) (by simp)
  have hdone : ∀ v : World Val Payload, Inv cfg v → v.tasks = w.tasks →
      (isSubmit = true → error = .neverReached → v.submits cfg = 0) →
      Inv cfg (if isSubmit then
        { v with
          phase := if error = .neverReached ∧ ¬ deadline then .submit else .done .unreachable }
      else { v with phase := if deadline then .done .stillPending else .poll }) := by
    intro v hv htasks hzero
    split
    · rename_i hsubmit
      refine inv_of_client hv rfl rfl rfl rfl hv.once (fun heq => ?_) ?_
      · dsimp only at heq
        split at heq
        · rename_i hnever
          exact hzero hsubmit hnever.1
        · cases heq
      · rw [htasks]
        apply hquiet
        dsimp only
        split
        · exact .inl (.inl rfl)
        · exact .inl (.inr rfl)
    · refine inv_of_client hv rfl rfl rfl rfl hv.once (fun heq => ?_) ?_
      · dsimp only at heq
        split at heq <;> cases heq
      · rw [htasks]
        apply hquiet
        dsimp only
        split
        · exact .inr (.inl rfl)
        · exact .inr (.inr rfl)
  unfold failAttempt at hfail
  dsimp only at hfail
  split at hfail
  · split at hfail
    · rename_i hpresent
      cases hfail
      refine hdone _ (inv_lose h requestId) rfl fun hsubmit _ => ?_
      obtain ⟨r, hr, hmatch⟩ := List.any_eq_true.mp hpresent
      rw [decide_eq_true_iff] at hmatch
      have hlt : (w.loseRequest requestId).submits cfg < w.submits cfg :=
        submits_lose_lt hr hmatch.1 (hmatch.2.trans hsubmit)
      have honce := h.once
      omega
    · cases hfail
  · rename_i hother
    cases hfail
    exact hdone w h rfl fun _ hnever => absurd hnever hother

/-- A refused answer ends the call without an outcome. -/
theorem receive_error {pin : BootUuidPin} {answer : Answer Payload} {result : Result Val}
    (h : receive pin answer = .error result) :
    (∀ value, result ≠ .returned value) ∧ ∀ error, result ≠ .workerCallError error := by
  unfold receive at h
  repeat' split at h
  all_goals cases h
  all_goals simp

theorem receive_ok {pin pin' : BootUuidPin} {answer : Answer Payload} {response : Response Payload}
    (h : (receive pin answer : Except (Result Val) _) = .ok (pin', response)) :
    response = answer.response ∧ pin.verify answer.bootUuid = some pin' := by
  unfold receive at h
  split at h
  · cases h
  · split at h
    · cases h
    · split at h
      · cases h
      · split at h
        · cases h
        · rename_i hverify
          cases h
          exact ⟨rfl, hverify⟩

/-- An answer to a submission keeps the invariant. -/
theorem inv_submitAnswered (h : Inv cfg w) (answer : Answer Payload) :
    Inv cfg (w.submitAnswered answer) := by
  unfold submitAnswered
  split
  · rename_i result hreceive
    obtain ⟨hreturned, hfailed⟩ := receive_error hreceive
    exact inv_setPhase h w.pin (by simp)
      (phaseSound_of_ne (fun value heq => hreturned value (Phase.done.inj heq))
        fun error heq => hfailed error (Phase.done.inj heq))
  · rename_i pin response hreceive
    refine inv_setPhase h pin ?_ ?_
    · split <;> simp
    · split <;> exact phaseSound_of_ne (by simp) (by simp)

/-- What `run()` makes of a justified outcome. -/
theorem finishRun_sound {status : CallStatus Payload}
    (hpending : status ≠ .pending) (h : Justified cfg tasks status) :
    finishRun cfg status ≠ .submit ∧ PhaseSound cfg tasks (finishRun cfg status) := by
  cases status with
  | pending => exact absurd rfl hpending
  | failed error =>
    refine ⟨by simp [finishRun], ⟨?_, fun error' heq => ?_⟩⟩
    · intro value heq
      cases heq
    · cases heq
      exact h
  | success payload =>
    unfold finishRun
    dsimp only
    split
    · rename_i value hdecode
      refine ⟨by simp, ⟨fun value' heq => ?_, ?_⟩⟩
      · cases heq
        exact ⟨payload, h, hdecode⟩
      · intro error heq
        cases heq
    · exact ⟨by simp, phaseSound_of_ne (by simp) (by simp)⟩

/-- An answer to a poll keeps the invariant. -/
theorem inv_pollAnswered (h : Inv cfg w) {answer : Answer Payload} (hanswer : answer ∈ w.answers)
    (deadline : Bool) : Inv cfg (w.pollAnswered cfg answer deadline) := by
  have hagain : (if deadline then (.done .stillPending : Phase Val) else .poll) ≠ .submit ∧
      PhaseSound cfg w.tasks (if deadline then (.done .stillPending : Phase Val) else .poll) := by
    split <;> exact ⟨by simp, phaseSound_of_ne (by simp) (by simp)⟩
  unfold pollAnswered
  dsimp only
  split
  · exact inv_setPhase h w.pin hagain.1 hagain.2
  · rename_i result _ hreceive
    obtain ⟨hreturned, hfailed⟩ := receive_error hreceive
    exact inv_setPhase h w.pin (by simp)
      (phaseSound_of_ne (fun value heq => hreturned value (Phase.done.inj heq))
        fun error heq => hfailed error (Phase.done.inj heq))
  · rename_i pin response hreceive
    obtain ⟨rfl, -⟩ := receive_ok hreceive
    have hsound := h.answers answer hanswer
    cases hresponse : answer.response with
    | submitted => exact inv_setPhase h pin (by simp) (phaseSound_of_ne (by simp) (by simp))
    | detail => exact inv_setPhase h pin (by simp) (phaseSound_of_ne (by simp) (by simp))
    | callStatus status =>
      rcases hsound status hresponse with rfl | hjustified
      · exact inv_setPhase h pin hagain.1 hagain.2
      · cases status with
        | pending => exact inv_setPhase h pin hagain.1 hagain.2
        | success payload =>
          obtain ⟨hne, hphase⟩ := finishRun_sound (by simp) hjustified
          exact inv_setPhase h pin hne hphase
        | failed error =>
          obtain ⟨hne, hphase⟩ := finishRun_sound (by simp) hjustified
          exact inv_setPhase h pin hne hphase

/-- A submit of the call, when no other one is on its way, or of another call. -/
theorem inv_submitCall (h : Inv cfg w) {b callId : Nat} {server : Server Payload} {now : ℚ}
    (hb : w.servers[b]? = some server)
    (hroom : callId = cfg.callId → w.submits cfg = 0 ∧ w.phase ≠ .submit) :
    Inv cfg (w.submitCall cfg callId b server now).1 := by
  obtain ⟨hsound, hgrows⟩ :=
    CallStore.start_spec (h.stores server (List.mem_of_getElem? hb)) callId now
  have honce := h.once
  unfold submitCall
  dsimp only
  split
  · have hkeeps : KeepsFinished w.tasks (w.tasks ++ [{ bootUuid := b, callId }]) :=
      fun task hmem _ _ => List.mem_append_left _ hmem
    have hcount : (w.submits cfg +
        List.count cfg.callId ([({ bootUuid := b, callId } : ExecutorTask Val)].map (·.callId))) ≤ 1 ∧
        (w.phase = .submit → w.submits cfg + List.count cfg.callId
          ([({ bootUuid := b, callId } : ExecutorTask Val)].map (·.callId)) = 0) := by
      rw [List.map_singleton, List.count_singleton]
      by_cases hown : callId = cfg.callId
      · obtain ⟨hzero, hphase⟩ := hroom hown
        rw [if_pos (by simpa using hown)]
        exact ⟨by omega, fun heq => absurd heq hphase⟩
      · rw [if_neg (by simpa using hown)]
        exact ⟨honce, h.fresh⟩
    have hsubmits : ({ w with
        servers := w.servers.set b { server with store := (server.store.start cfg callId now).1 }
        tasks := w.tasks ++ [{ bootUuid := b, callId }] } : World Val Payload).submits cfg =
        w.submits cfg +
          List.count cfg.callId
            ([({ bootUuid := b, callId } : ExecutorTask Val)].map (·.callId)) := by
      unfold submits
      rw [List.map_append, List.count_append, Nat.add_assoc]
    refine inv_of_store h hb rfl (hsound.mono hkeeps) hgrows hkeeps (fun _ hq => hq) rfl rfl ?_ ?_
    · exact hsubmits.le.trans hcount.1
    · exact fun hphase => hsubmits.trans (hcount.2 hphase)
  · exact inv_of_store h hb rfl hsound hgrows (fun _ hmem _ _ => hmem) (fun _ hq => hq) rfl rfl
      honce h.fresh

theorem answerSound_of_ne {response : Response Payload}
    (h : ∀ status, response ≠ .callStatus status) : AnswerSound cfg tasks response :=
  fun status heq => absurd heq (h status)

/-- A request that is no longer on its way reaches a boot. -/
theorem inv_handle (h : Inv cfg w) {r : Request} {b : Nat} {server : Server Payload}
    {verdict : Verdict} {now : ℚ} (hb : w.servers[b]? = some server)
    (hroom : r.isSubmit = true → w.submits cfg = 0 ∧ w.phase ≠ .submit) :
    Inv cfg (w.handle cfg r b server verdict now) := by
  have hdetail : ∀ status, (.detail : Response Payload) ≠ .callStatus status := by simp
  have hsubmitted : ∀ status, (.submitted : Response Payload) ≠ .callStatus status := by simp
  unfold handle
  dsimp only
  split
  · exact inv_reply h (answerSound_of_ne hdetail)
  · split
    · rename_i hsubmit
      cases verdict with
      | unknownMethod => exact inv_reply h (answerSound_of_ne hdetail)
      | invalidQuery => exact inv_reply h (answerSound_of_ne hdetail)
      | unhandled => exact inv_reply h (answerSound_of_ne hdetail)
      | valid =>
        have hsubmitCall : Inv cfg (w.submitCall cfg cfg.callId b server now).1 :=
          inv_submitCall h hb fun _ => hroom hsubmit
        dsimp only
        split
        · exact inv_reply hsubmitCall (answerSound_of_ne hsubmitted)
        · exact inv_reply hsubmitCall (answerSound_of_ne hdetail)
    · split
      · exact inv_reply h (answerSound_of_ne hdetail)
      · rename_i record hrecord
        refine ⟨h.once, h.fresh, h.stores, fun query hquery => ?_, h.answers, h.phase⟩
        rcases List.mem_append.mp hquery with hold | hnew
        · exact h.queries query hold
        · rw [List.mem_singleton.mp hnew]
          have hsound := h.stores server (List.mem_of_getElem? hb)
          exact ⟨server, hb, hsound.named _ _ hrecord⟩

/-- A task of a boot goes on. -/
theorem callIds_set {i : Nat} {task : ExecutorTask Val}
    (hi : tasks[i]? = some task) (state : TaskState Val) :
    (tasks.set i { task with state }).map (·.callId) = tasks.map (·.callId) := by
  refine List.map_set_of_eq (·.callId) hi ?_
  rfl

/-- A task that has not finished may change its state. -/
theorem inv_setTask (h : Inv cfg w) {i : Nat} {task : ExecutorTask Val} {state : TaskState Val}
    (hi : w.tasks[i]? = some task) (hstate : ∀ result, task.state ≠ .finished result) :
    Inv cfg { w with tasks := w.tasks.set i { task with state } } := by
  have hkeeps : KeepsFinished w.tasks (w.tasks.set i { task with state }) :=
    keepsFinished_set hi hstate
  have hsubmits : ({ w with tasks := w.tasks.set i { task with state } } :
      World Val Payload).submits cfg = w.submits cfg := by
    unfold submits
    rw [callIds_set hi]
  constructor
  case once => rw [hsubmits]; exact h.once
  case fresh => rw [hsubmits]; exact h.fresh
  case stores => exact fun server hmem => (h.stores server hmem).mono hkeeps
  case queries => exact h.queries
  case answers => exact fun answer hmem => (h.answers answer hmem).mono hkeeps
  case phase => exact h.phase.mono hkeeps

/-- The boot that a message reaches. -/
theorem server?_eq_some {b : Nat} {server : Server Payload} (h : w.server? b = some server) :
    w.servers[b]? = some server := by
  unfold server? at h
  exact (Option.filter_eq_some_iff.mp h).1

/-- A long poll is answered with what its record holds. -/
theorem inv_answerQuery (h : Inv cfg w) {i : Nat} {now : ℚ}
    (hstep : step cfg w (.answerQuery i now) = some w') : Inv cfg w' := by
  obtain ⟨query, hquery, hrest⟩ := Option.bind_eq_some_iff.mp hstep
  obtain ⟨server, hserver, hrest⟩ := Option.bind_eq_some_iff.mp hrest
  cases hrest
  have hb := server?_eq_some hserver
  obtain ⟨hsound, hmap, houtcome⟩ := CallStore.retrieve_spec
    (h.stores server (List.mem_of_getElem? hb)) query.record now
  obtain ⟨s, hs, hrecord⟩ := h.queries query (List.mem_of_getElem? hquery)
  obtain rfl : server = s := Option.some.inj (hb.symm.trans hs)
  have hinv : Inv cfg { w with
      queries := w.queries.eraseIdx i
      servers := w.servers.set query.bootUuid
        { server with store := (server.store.retrieve query.record now).1 } } :=
    inv_of_store h hb rfl hsound (by rw [hmap]) (fun _ hmem _ _ => hmem)
      (fun _ hq => List.mem_of_mem_eraseIdx hq) rfl rfl h.once h.fresh
  refine inv_reply hinv fun status hstatus => ?_
  obtain rfl := Response.callStatus.inj hstatus
  cases hretrieved : (server.store.retrieve query.record now).2 with
  | none => exact .inl rfl
  | some outcome => exact .inr (houtcome hrecord outcome hretrieved)

/-- The end of the worker's method is recorded under its call. -/
theorem inv_finishTask (h : Inv cfg w) {i : Nat} {result : Except String Val} {now : ℚ}
    (hstep : step cfg w (.finishTask i result now) = some w') : Inv cfg w' := by
  obtain ⟨task, htask, hrest⟩ := Option.bind_eq_some_iff.mp hstep
  obtain ⟨server, hserver, hrest⟩ := Option.bind_eq_some_iff.mp hrest
  have hb := server?_eq_some hserver
  split at hrest
  · rename_i hrunning
    have hinv : Inv cfg { w with
        tasks := w.tasks.set i { task with state := .finished result } } :=
      inv_setTask h htask (by simp [hrunning])
    dsimp only at hrest
    split at hrest
    · cases hrest
      exact hinv
    · rename_i store hfinish
      cases hrest
      have hmem : { task with state := .finished result } ∈
          w.tasks.set i { task with state := .finished result } := by
        refine List.mem_of_getElem? (i := i) ?_
        exact (List.getElem?_set_eq_some htask).mpr (.inl ⟨rfl, rfl⟩)
      obtain ⟨hsound, hmap⟩ := CallStore.finish_spec
        (hinv.stores server (List.mem_of_getElem? hb))
        (fun hown => ⟨_, hmem, hown, result, rfl, rfl⟩) hfinish
      exact inv_of_store hinv hb rfl hsound (by rw [hmap]) (fun _ hmem _ _ => hmem)
        (fun _ hq => hq) rfl rfl hinv.once hinv.fresh
  · cases hrest

/-- Every event keeps the invariant. -/
theorem inv_step (h : Inv cfg w) {e : Event Val Payload} (hstep : step cfg w e = some w') :
    Inv cfg w' := by
  cases e with
  | send =>
    simp only [step] at hstep
    split at hstep
    · rename_i hphase
      cases hstep
      exact inv_send h (fun _ => h.fresh hphase) (by simp)
        fun _ => phaseSound_of_ne (by simp) (by simp)
    · cases hstep
      exact inv_send h (by simp) (by simp) fun _ => phaseSound_of_ne (by simp) (by simp)
    · cases hstep
  | attemptFails error deadline =>
    simp only [step] at hstep
    split at hstep
    · exact inv_failAttempt h hstep
    · exact inv_failAttempt h hstep
    · cases hstep
  | answered i deadline =>
    obtain ⟨answer, hanswer, hrest⟩ := Option.bind_eq_some_iff.mp hstep
    split at hrest
    · split at hrest
      · cases hrest
        exact inv_submitAnswered h answer
      · cases hrest
    · split at hrest
      · cases hrest
        exact inv_pollAnswered h (List.mem_of_getElem? hanswer) deadline
      · cases hrest
    · cases hrest
  | cancel =>
    simp only [step] at hstep
    split at hstep
    · cases hstep
    · cases hstep
      exact inv_setPhase h w.pin (by simp) (phaseSound_of_ne (by simp) (by simp))
  | lose requestId =>
    cases hstep
    exact inv_lose h requestId
  | deliver requestId b verdict now =>
    obtain ⟨r, hr, hrest⟩ := Option.bind_eq_some_iff.mp hstep
    obtain ⟨server, hserver, hrest⟩ := Option.bind_eq_some_iff.mp hrest
    cases hrest
    have hmem : r ∈ w.requests := List.mem_of_find?_eq_some hr
    have hid : r.requestId = requestId := by simpa using List.find?_some hr
    have honce := h.once
    -- a request that is delivered is no longer in flight: a submit is counted once
    refine inv_handle (inv_lose h requestId) (server?_eq_some hserver) fun hsubmit => ?_
    have hlt : (w.loseRequest requestId).submits cfg < w.submits cfg :=
      submits_lose_lt hmem hid hsubmit
    refine ⟨by omega, fun hphase => ?_⟩
    have hzero := h.fresh hphase
    omega
  | answerQuery i now => exact inv_answerQuery h hstep
  | execute i =>
    obtain ⟨task, htask, hrest⟩ := Option.bind_eq_some_iff.mp hstep
    obtain ⟨server, -, hrest⟩ := Option.bind_eq_some_iff.mp hrest
    split at hrest
    · rename_i hcreated
      cases hrest
      exact inv_setTask h htask (by simp [hcreated])
    · cases hrest
  | finishTask i result now => exact inv_finishTask h hstep
  | otherSubmit callId b now =>
    obtain ⟨server, hserver, hrest⟩ := Option.bind_eq_some_iff.mp hstep
    split at hrest
    · cases hrest
    · rename_i hother
      cases hrest
      -- a submit of another call adds no task of this one
      exact inv_submitCall h (server?_eq_some hserver) fun hown => absurd hown hother
  | boot =>
    cases hstep
    -- a new server has an empty store, and the others keep their places
    refine ⟨h.once, h.fresh, fun server hmem => ?_, fun query hquery => ?_, h.answers, h.phase⟩
    · rcases List.mem_append.mp hmem with hold | hnew
      · exact h.stores server hold
      · rw [List.mem_singleton.mp hnew]
        exact CallStore.sound_empty
    · obtain ⟨server, hserver, hrecord⟩ := h.queries query hquery
      refine ⟨server, ?_, hrecord⟩
      rw [List.getElem?_append_left (List.getElem?_eq_some_iff.mp hserver).1]
      exact hserver
  | crash b =>
    obtain ⟨server, hserver, hrest⟩ := Option.bind_eq_some_iff.mp hstep
    cases hrest
    have hb := server?_eq_some hserver
    -- a crash ends the queries of its server, whose store is kept
    refine ⟨h.once, h.fresh, fun s hmem => ?_, fun query hquery => ?_, h.answers, h.phase⟩
    · rcases List.mem_or_eq_of_mem_set hmem with hold | rfl
      · exact h.stores s hold
      · exact h.stores server (List.mem_of_getElem? hb)
    · exact (h.queries query (List.mem_of_mem_filter hquery)).set hb List.prefix_rfl
  | repin value =>
    obtain ⟨pin, -, rfl⟩ := Option.map_eq_some_iff.mp hstep
    exact inv_of_client h rfl rfl rfl rfl h.once h.fresh h.phase

/-! ## The pin -/

/-- An answer that `RpcTransport.send` accepts. -/
def Accepted (w : World Val Payload) (answer : Answer Payload) : Prop :=
  ∃ accepted : BootUuidPin × Response Payload,
    (receive w.pin answer : Except (Result Val) (BootUuidPin × Response Payload)) = .ok accepted

/-- A required pin accepts its own boot only, and stays. -/
theorem verify_pinned {pin pin' : BootUuidPin} {b bootUuid : Nat} (hrequired : pin.required = true)
    (hvalue : pin.value = some b) (h : pin.verify bootUuid = some pin') :
    bootUuid = b ∧ pin' = pin := by
  unfold BootUuidPin.verify at h
  rw [hrequired, hvalue, if_neg (by simp)] at h
  dsimp only at h
  split at h
  · cases h
  · rename_i heq
    cases h
    exact ⟨not_not.mp heq, rfl⟩

/-- A required pin accepts on first contact only what it then pins. -/
theorem verify_required {pin pin' : BootUuidPin} {bootUuid : Nat} (hrequired : pin.required = true)
    (h : pin.verify bootUuid = some pin') : pin'.value = some bootUuid := by
  cases hvalue : pin.value with
  | some b =>
    obtain ⟨rfl, rfl⟩ := verify_pinned hrequired hvalue h
    exact hvalue
  | none =>
    unfold BootUuidPin.verify at h
    rw [hrequired, hvalue, if_neg (by simp)] at h
    cases h
    rfl

/-- What an answer does to the pin. -/
theorem pin_answered {i : Nat} {deadline : Bool}
    (hstep : step cfg w (.answered i deadline) = some w') :
    ∃ answer, w.answers[i]? = some answer ∧
      (w'.pin = w.pin ∧ ¬ w.Accepted answer ∨ w.pin.verify answer.bootUuid = some w'.pin) := by
  obtain ⟨answer, hanswer, hrest⟩ := Option.bind_eq_some_iff.mp hstep
  refine ⟨answer, hanswer, ?_⟩
  have hrefused : ∀ {result : Result Val}, receive w.pin answer = .error result →
      ¬ w.Accepted answer := by
    rintro result hreceive ⟨accepted, haccepted⟩
    cases hreceive.symm.trans haccepted
  split at hrest
  · split at hrest
    · cases hrest
      unfold submitAnswered
      split
      · rename_i hreceive
        exact .inl ⟨rfl, hrefused hreceive⟩
      · rename_i hreceive
        exact .inr (receive_ok hreceive).2
    · cases hrest
  · split at hrest
    · cases hrest
      unfold pollAnswered
      dsimp only
      split
      · rename_i hreceive
        exact .inl ⟨rfl, hrefused hreceive⟩
      · rename_i hreceive
        exact .inl ⟨rfl, hrefused hreceive⟩
      · rename_i hreceive
        exact .inr (receive_ok hreceive).2
    · cases hrest
  · cases hrest

/-- Without other users of the handle a pinned boot stays pinned. -/
theorem pin_step {b : Nat} (hrequired : w.pin.required = true) (hvalue : w.pin.value = some b)
    {e : Event Val Payload} (hrepin : ∀ value, e ≠ .repin value)
    (hstep : step cfg w e = some w') : w'.pin = w.pin := by
  -- only an answer is checked against the pin, and it may not change a pin that is required
  cases e with
  | answered i deadline =>
    obtain ⟨answer, -, ⟨hsame, -⟩ | hverify⟩ := pin_answered hstep
    · exact hsame
    · exact (verify_pinned hrequired hvalue hverify).2
  | send =>
    simp only [step] at hstep
    split at hstep <;> cases hstep <;> rfl
  | attemptFails error deadline =>
    simp only [step, failAttempt] at hstep
    repeat' split at hstep
    all_goals cases hstep
    all_goals rfl
  | cancel =>
    simp only [step] at hstep
    split at hstep <;> cases hstep
    rfl
  | lose requestId =>
    cases hstep
    rfl
  | deliver requestId bootUuid verdict now =>
    obtain ⟨r, -, hrest⟩ := Option.bind_eq_some_iff.mp hstep
    obtain ⟨server, -, hrest⟩ := Option.bind_eq_some_iff.mp hrest
    cases hrest
    unfold handle submitCall
    dsimp only
    repeat' split
    all_goals rfl
  | answerQuery i now =>
    obtain ⟨query, -, hrest⟩ := Option.bind_eq_some_iff.mp hstep
    obtain ⟨server, -, hrest⟩ := Option.bind_eq_some_iff.mp hrest
    cases hrest
    rfl
  | execute i =>
    obtain ⟨task, -, hrest⟩ := Option.bind_eq_some_iff.mp hstep
    obtain ⟨server, -, hrest⟩ := Option.bind_eq_some_iff.mp hrest
    split at hrest <;> cases hrest
    rfl
  | finishTask i result now =>
    obtain ⟨task, -, hrest⟩ := Option.bind_eq_some_iff.mp hstep
    obtain ⟨server, -, hrest⟩ := Option.bind_eq_some_iff.mp hrest
    split at hrest
    · dsimp only at hrest
      split at hrest <;> cases hrest <;> rfl
    · cases hrest
  | otherSubmit callId bootUuid now =>
    obtain ⟨server, -, hrest⟩ := Option.bind_eq_some_iff.mp hstep
    split at hrest
    · cases hrest
    · cases hrest
      unfold submitCall
      dsimp only
      split <;> rfl
  | boot =>
    cases hstep
    rfl
  | crash bootUuid =>
    obtain ⟨server, -, hrest⟩ := Option.bind_eq_some_iff.mp hstep
    cases hrest
    rfl
  | repin value => exact absurd rfl (hrepin value)

/-- The same over a run. -/
theorem pin_run {b : Nat} {es : List (Event Val Payload)} (hrequired : w.pin.required = true)
    (hvalue : w.pin.value = some b) (hrepin : ∀ value, Event.repin value ∉ es)
    (hrun : Lts.run (step cfg) w es = some w') : w'.pin = w.pin := by
  refine Lts.run_invariant_mem (I := fun v => v.pin = w.pin) ?_ rfl hrun
  intro v e v' he hv hstep
  refine (pin_step (hv ▸ hrequired) (hv ▸ hvalue) (fun value heq => ?_) hstep).trans hv
  exact hrepin value (heq ▸ he)

/-! ## The law -/

/-- The tasks of the call, on all boots, that have called the worker's method. -/
def executions (cfg : Config Val Payload) (w : World Val Payload) : List (ExecutorTask Val) :=
  w.tasks.filter fun task => task.callId = cfg.callId ∧ ¬ (task.state matches .created)

/-- The method is executed at most once. -/
theorem executions_length (h : Inv cfg w) : (w.executions cfg).length ≤ 1 := by
  have hsub : (w.executions cfg).length ≤ (w.tasks.map (·.callId)).count cfg.callId := by
    unfold executions
    rw [← List.countP_eq_length_filter, List.count, List.countP_map]
    refine List.countP_mono_left fun task _ htask => ?_
    simp only [decide_eq_true_eq] at htask
    simp [htask.1]
  have honce := h.once
  unfold submits at honce
  omega

/-- A justified outcome is that of the only execution. -/
theorem executions_of_justified (h : Inv cfg w) {outcome : CallStatus Payload}
    (hjustified : Justified cfg w.tasks outcome) :
    ∃ bootUuid result, w.executions cfg =
      [{ bootUuid, callId := cfg.callId, state := .finished result }] ∧
      outcomeOf cfg result = outcome := by
  obtain ⟨task, hmem, hcall, result, hstate, houtcome⟩ := hjustified
  have hin : task ∈ w.executions cfg := by
    unfold executions
    rw [List.mem_filter]
    exact ⟨hmem, by simp [hcall, hstate]⟩
  have hlength := executions_length h
  match hexecutions : w.executions cfg with
  | [] =>
    rw [hexecutions] at hin
    cases hin
  | [other] =>
    rw [hexecutions] at hin
    obtain rfl := List.mem_singleton.mp hin
    refine ⟨task.bootUuid, result, ?_, houtcome⟩
    rw [← hcall, ← hstate]
  | first :: second :: rest =>
    rw [hexecutions] at hlength
    simp at hlength

theorem inv_initial (pin : BootUuidPin) : Inv cfg { pin } where
  once := Nat.zero_le _
  fresh := fun _ => rfl
  stores := fun _ h => nomatch h
  queries := fun _ h => nomatch h
  answers := fun _ h => nomatch h
  phase := phaseSound_of_ne (by simp) (by simp)

/-- The invariant holds in every run. -/
theorem inv_run {pin : BootUuidPin} {es : List (Event Val Payload)}
    (hrun : Lts.run (step cfg) { pin } es = some w) : Inv cfg w :=
  Lts.run_invariant (fun _ _ _ h hstep => inv_step h hstep) (inv_initial pin) hrun

/-- For every schedule of the call: the worker's method is executed at most once over all boots;
    `run()` returns only the result of that execution, as the serializer gives it, and raises
    `RpcWorkerCallError` only with its failure; an accepted answer is of the boot that a required
    pin holds, and is pinned if there is none; without other users of the handle that boot stays
    pinned, so all later accepted answers are of it. -/
theorem at_most_once (cfg : Config Val Payload) (pin : BootUuidPin)
    (es : List (Event Val Payload)) (w : World Val Payload)
    (hrun : Lts.run (step cfg) { pin } es = some w) :
    (w.executions cfg).length ≤ 1 ∧
    (∀ value, w.phase = .done (.returned value) →
      ∃ bootUuid result payload, w.executions cfg =
          [{ bootUuid, callId := cfg.callId, state := .finished (.ok result) }] ∧
        cfg.encodeResult result = .ok payload ∧ cfg.decodeResult payload = .ok value ∧
        ((∀ v p, cfg.encodeResult v = .ok p → cfg.decodeResult p = .ok v) → value = result)) ∧
    (∀ error, w.phase = .done (.workerCallError error) →
      ∃ bootUuid result, w.executions cfg =
          [{ bootUuid, callId := cfg.callId, state := .finished result }] ∧
        (result = .error error ∨ ∃ v, result = .ok v ∧ cfg.encodeResult v = .error error)) ∧
    (∀ before i deadline after w₁ w₂ answer, es = before ++ .answered i deadline :: after →
      Lts.run (step cfg) { pin } before = some w₁ → step cfg w₁ (.answered i deadline) = some w₂ →
      w₁.answers[i]? = some answer → w₁.pin.required = true → w₁.Accepted answer →
      w₂.pin.value = some answer.bootUuid ∧
        ∀ b, w₁.pin.value = some b → answer.bootUuid = b) ∧
    (∀ before between after w₁ w₂ b, es = before ++ between ++ after →
      Lts.run (step cfg) { pin } before = some w₁ → Lts.run (step cfg) w₁ between = some w₂ →
      w₁.pin.required = true → w₁.pin.value = some b → (∀ value, Event.repin value ∉ between) →
      w₂.pin.value = some b) := by
  have hinv : Inv cfg w := inv_run hrun
  refine ⟨executions_length hinv, fun value hvalue => ?_, fun error herror => ?_, ?_, ?_⟩
  · obtain ⟨payload, hjustified, hdecode⟩ := hinv.phase.returned value hvalue
    obtain ⟨bootUuid, result, hexecutions, houtcome⟩ := executions_of_justified hinv hjustified
    cases result with
    | error error => cases houtcome
    | ok v =>
      unfold outcomeOf at houtcome
      dsimp only at houtcome
      split at houtcome
      · rename_i p hencode
        cases houtcome
        refine ⟨bootUuid, v, payload, hexecutions, hencode, hdecode, fun hlaw => ?_⟩
        exact Except.ok.inj (hdecode.symm.trans (hlaw v payload hencode))
      · cases houtcome
  · obtain ⟨bootUuid, result, hexecutions, houtcome⟩ :=
      executions_of_justified hinv (hinv.phase.failed error herror)
    refine ⟨bootUuid, result, hexecutions, ?_⟩
    cases result with
    | error error' =>
      cases houtcome
      exact .inl rfl
    | ok v =>
      unfold outcomeOf at houtcome
      dsimp only at houtcome
      split at houtcome
      · cases houtcome
      · rename_i error' hencode
        cases houtcome
        exact .inr ⟨v, rfl, hencode⟩
  · -- an accepted answer passed `verify`
    rintro before i deadline after w₁ w₂ answer - - hstep hanswer hrequired haccepted
    obtain ⟨answer', hanswer', ⟨-, hrefused⟩ | hverify⟩ := pin_answered hstep
    · cases hanswer.symm.trans hanswer'
      exact absurd haccepted hrefused
    · cases hanswer.symm.trans hanswer'
      exact ⟨verify_required hrequired hverify,
        fun b hb => (verify_pinned hrequired hb hverify).1⟩
  · rintro before between after w₁ w₂ b - - hbetween hrequired hvalue hrepin
    rw [pin_run hrequired hvalue hrepin hbetween]
    exact hvalue

/-- The first attempt to submit reaches no server, the second one does and is executed. -/
def retriedRun : List (Event Nat Nat) :=
  [.boot, .send, .attemptFails .neverReached false, .send, .deliver 1 0 .valid 0, .answered 0 false,
   .send, .execute 0, .deliver 2 0 .valid 0, .finishTask 0 (.ok 7) 1, .answerQuery 0 1,
   .answered 1 false]

/-- The call returns the result of its only execution. -/
theorem at_most_once_retried :
    ∃ w, Lts.run (step ⟨5, .ok, .ok, 300, 43200⟩) { pin := .create true none } retriedRun = some w ∧
      w.phase = .done (.returned 7) ∧
      (w.executions ⟨5, .ok, .ok, 300, 43200⟩).length ≤ 1 ∧ w.pin.value = some 0 := by
  refine ⟨_, rfl, rfl, ?_, rfl⟩
  exact (at_most_once ⟨5, .ok, .ok, 300, 43200⟩ (.create true none) retriedRun _ rfl).1

end World

end Miles.Workers.Rpc
