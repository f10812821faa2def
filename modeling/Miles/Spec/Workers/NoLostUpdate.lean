import Miles.ForStd.Lts
import Miles.Native.Workers.ReconcileLoop

/-!
# The reconcile loop loses no update

A parent whose objects change is affected by the event, so it is put into the queue, and it leaves
the queue only when its reconcile starts.  A key whose reconcile failed has a retry time until the
poller puts it into the queue.
-/

namespace Miles.Workers.Reconcile

variable {Key Obj : Type} [LinearOrder Key]

/-! ## The store -/

namespace ObjectStore

/-- The objects of a parent, by key. -/
def objectsOf (store : ObjectStore Key Obj) (parent key : Key) : Option Obj :=
  (store.get? key).bind fun entry => if entry.parent = parent then some entry.obj else none

/-- An object with its parent, if the key map gives one. -/
def mappedObject (keyMap : KeyMap Key Obj) (key : Key) (obj : Obj) :
    Option (CachedObject Key Obj) :=
  (parentKeyOrNone keyMap key obj).map fun parent => { obj, parent }

/-- The objects of a replace that have a parent. -/
def mappedObjects (keyMap : KeyMap Key Obj) (objects : PyDict Key Obj) (key : Key) :
    Option (CachedObject Key Obj) :=
  (objects.get? key).bind (mappedObject keyMap key)

/-- What an event says about the objects, on top of what was known. -/
def applyEvent (known : Key → Option (CachedObject Key Obj)) :
    SourceEvent Key Obj × KeyMap Key Obj → Key → Option (CachedObject Key Obj)
  | (.replace objects, keyMap) => mappedObjects keyMap objects
  | (.upsert key obj, keyMap) => Function.update known key (mappedObject keyMap key obj)
  | (.delete key _, _) => Function.update known key none

/-- Every parent whose objects differ is among the affected ones. -/
def Covers (store : ObjectStore Key Obj) (state : ObjectStore Key Obj × List Key) : Prop :=
  ∀ parent, store.objectsOf parent ≠ state.1.objectsOf parent → parent ∈ state.2

variable {store : ObjectStore Key Obj} {keyMap : KeyMap Key Obj}

theorem covers_refl (store : ObjectStore Key Obj) (affected : List Key) :
    Covers store (store, affected) := fun _ hne => absurd rfl hne

/-- What two operations affect together. -/
theorem Covers.trans {state applied : ObjectStore Key Obj × List Key} (h : Covers store state)
    (h' : Covers state.1 applied) : Covers store (applied.1, state.2 ∪ applied.2) := by
  intro parent hne
  rw [List.mem_union_iff]
  by_cases heq : store.objectsOf parent = state.1.objectsOf parent
  · exact .inr (h' parent fun hsame => hne (heq.trans hsame))
  · exact .inl (h parent heq)

/-- A loop over operations that each cover what they change. -/
theorem covers_foldl {α : Type} (op : ObjectStore Key Obj → α → ObjectStore Key Obj × List Key)
    (hop : ∀ store x, Covers store (op store x)) (xs : List α)
    {state : ObjectStore Key Obj × List Key} (h : Covers store state) :
    Covers store (xs.foldl (fun state x => ((op state.1 x).1, state.2 ∪ (op state.1 x).2))
      state) := by
  induction xs generalizing state with
  | nil => exact h
  | cons x xs ih => exact ih (h.trans (hop state.1 x))

/-- Changing one key changes the objects of its parent before and after only. -/
theorem objectsOf_of_ne {store' : ObjectStore Key Obj} (key : Key) {parent : Key}
    (hother : ∀ k, k ≠ key → store'.get? k = store.get? k)
    (hbefore : ∀ entry, store.get? key = some entry → entry.parent ≠ parent)
    (hafter : ∀ entry, store'.get? key = some entry → entry.parent ≠ parent) :
    store.objectsOf parent = store'.objectsOf parent := by
  funext k
  unfold objectsOf
  by_cases hk : k = key
  · subst hk
    have hnone : ∀ o : Option (CachedObject Key Obj), (∀ entry, o = some entry → entry.parent ≠ parent) →
        (o.bind fun entry => if entry.parent = parent then some entry.obj else none) = none := by
      intro o ho
      cases o with
      | none => rfl
      | some entry => exact if_neg (ho entry rfl)
    rw [hnone _ hbefore, hnone _ hafter]
  · rw [hother k hk]

theorem covers_applyUpsert (store : ObjectStore Key Obj) (key : Key) (obj : Obj) (parent : Key) :
    Covers store (applyUpsert store key obj parent) := by
  intro p hne
  by_contra hp
  refine hne (objectsOf_of_ne key (fun k hk => ?_) (fun entry hentry => ?_) fun entry hentry => ?_)
  · exact (PyDict.get?_set ..).trans (if_neg hk)
  · -- the parent that the object leaves is affected
    rintro rfl
    simp only [applyUpsert, hentry] at hp
    exact hp (by simp)
  · rw [applyUpsert, PyDict.get?_set, if_pos rfl] at hentry
    cases hentry
    rintro rfl
    refine hp ?_
    unfold applyUpsert
    cases store.get? key <;> simp

theorem covers_applyDelete (keyMap : KeyMap Key Obj) (store : ObjectStore Key Obj) (key : Key)
    (lastObj : Option Obj) : Covers store (applyDelete keyMap store key lastObj) := by
  intro p hne
  by_contra hp
  refine hne (objectsOf_of_ne key (fun k hk => ?_) (fun entry hentry => ?_) fun entry hentry => ?_)
  · exact (PyDict.get?_erase ..).trans (if_neg hk)
  · rintro rfl
    simp only [applyDelete, hentry] at hp
    exact hp (by simp)
  · have hnone : (applyDelete keyMap store key lastObj).1.get? key = none :=
      (PyDict.get?_erase ..).trans (if_pos rfl)
    cases hnone.symm.trans hentry

/-- An event affects every parent whose objects it changes. -/
theorem covers_handleEvent (keyMap : KeyMap Key Obj) (store : ObjectStore Key Obj)
    (event : SourceEvent Key Obj) : Covers store (handleEvent keyMap store event) := by
  cases event with
  | replace objects =>
    refine covers_foldl (fun store key => applyDelete keyMap store key none)
      (fun store key => covers_applyDelete keyMap store key none) _ ?_
    exact covers_foldl
      (fun store (entry : Key × CachedObject Key Obj) =>
        applyUpsert store entry.1 entry.2.obj entry.2.parent)
      (fun store entry => covers_applyUpsert store entry.1 entry.2.obj entry.2.parent) _
      (covers_refl store [])
  | upsert key obj =>
    unfold handleEvent handleUpsert
    dsimp only
    split
    · exact covers_applyUpsert store key obj _
    · split
      · exact covers_refl store []
      · exact covers_applyDelete keyMap store key none
  | delete key lastObj => exact covers_applyDelete keyMap store key lastObj

theorem get?_applyUpsert (store : ObjectStore Key Obj) (key : Key) (obj : Obj) (parent : Key) :
    (applyUpsert store key obj parent).1.get? =
      Function.update store.get? key (some { obj, parent }) := by
  funext k
  rw [Function.update_apply]
  exact PyDict.get?_set ..

theorem get?_applyDelete (keyMap : KeyMap Key Obj) (store : ObjectStore Key Obj) (key : Key)
    (lastObj : Option Obj) :
    (applyDelete keyMap store key lastObj).1.get? = Function.update store.get? key none := by
  funext k
  rw [Function.update_apply]
  exact PyDict.get?_erase ..

/-- The loop of upserts sets the keys it goes over, which are distinct. -/
theorem get?_upserts (entries : List (Key × CachedObject Key Obj))
    (hnodup : (entries.map Prod.fst).Nodup) (state : ObjectStore Key Obj × List Key) (k : Key) :
    (entries.foldl (fun state entry =>
      ((applyUpsert state.1 entry.1 entry.2.obj entry.2.parent).1,
        state.2 ∪ (applyUpsert state.1 entry.1 entry.2.obj entry.2.parent).2)) state).1.get? k =
      ((entries.find? fun entry => entry.1 = k).map Prod.snd).or (state.1.get? k) := by
  induction entries generalizing state with
  | nil => rfl
  | cons entry entries ih =>
    rw [List.map_cons, List.nodup_cons] at hnodup
    rw [List.foldl_cons, ih hnodup.2, get?_applyUpsert, Function.update_apply]
    by_cases hk : entry.1 = k
    · have hnone : entries.find? (fun entry => entry.1 = k) = none := by
        rw [List.find?_eq_none]
        intro other hother heq
        rw [decide_eq_true_iff] at heq
        exact hnodup.1 (List.mem_map.mpr ⟨other, hother, heq.trans hk.symm⟩)
      rw [hnone, List.find?_cons_of_pos (by simpa using hk), if_pos hk.symm]
      rfl
    · rw [List.find?_cons_of_neg (by simpa using hk), if_neg fun he => hk he.symm]

/-- The loop of deletes removes the keys it goes over. -/
theorem get?_deletes (keyMap : KeyMap Key Obj) (keys : List Key)
    (state : ObjectStore Key Obj × List Key) (k : Key) :
    (keys.foldl (fun state key => ((applyDelete keyMap state.1 key none).1,
      state.2 ∪ (applyDelete keyMap state.1 key none).2)) state).1.get? k =
      if k ∈ keys then none else state.1.get? k := by
  induction keys generalizing state with
  | nil => rfl
  | cons key keys ih =>
    rw [List.foldl_cons, ih, get?_applyDelete, Function.update_apply]
    by_cases hk : k = key
    · simp [hk]
    · simp [hk]

omit [LinearOrder Key] in
/-- The mapped objects of a replace have distinct keys. -/
theorem nodup_mapped (keyMap : KeyMap Key Obj) (objects : PyDict Key Obj) :
    ((mapped keyMap objects).map Prod.fst).Nodup := by
  have hsub : ((mapped keyMap objects).map Prod.fst).Sublist (objects.items.map Prod.fst) := by
    unfold mapped
    rw [List.map_filterMap]
    have hkeys : ∀ entry : Key × Obj,
        Option.map Prod.fst (((parentKeyOrNone keyMap entry.1 entry.2).map fun parent =>
          (entry.1, ({ obj := entry.2, parent } : CachedObject Key Obj)))) =
        if (parentKeyOrNone keyMap entry.1 entry.2).isSome then some entry.1 else none := by
      intro entry
      cases parentKeyOrNone keyMap entry.1 entry.2 <;> rfl
    simp only [hkeys]
    induction objects.items with
    | nil => exact .slnil
    | cons entry entries ih =>
      rw [List.filterMap_cons, List.map_cons]
      split
      · exact ih.cons _
      · rename_i b hb
        split at hb
        · cases hb
          exact ih.cons_cons _
        · cases hb
  exact hsub.nodup objects.nodup_keys

/-- The mapped object of a key. -/
theorem find?_mapped (keyMap : KeyMap Key Obj) (objects : PyDict Key Obj) (k : Key) :
    ((mapped keyMap objects).find? fun entry => entry.1 = k).map Prod.snd =
      mappedObjects keyMap objects k := by
  ext entry
  have hmem : ((mapped keyMap objects).find? fun entry => entry.1 = k).map Prod.snd = some entry ↔
      (k, entry) ∈ mapped keyMap objects :=
    PyDict.get?_eq_some (d := ⟨mapped keyMap objects, nodup_mapped keyMap objects⟩)
  rw [hmem]
  unfold mapped mappedObjects mappedObject
  rw [List.mem_filterMap, Option.bind_eq_some_iff]
  constructor
  · rintro ⟨⟨key, obj⟩, hitem, hsome⟩
    obtain ⟨parent, hparent, heq⟩ := Option.map_eq_some_iff.mp hsome
    cases heq
    exact ⟨obj, PyDict.get?_eq_some.mpr hitem, Option.map_eq_some_iff.mpr ⟨parent, hparent, rfl⟩⟩
  · rintro ⟨obj, hget, hsome⟩
    obtain ⟨parent, hparent, rfl⟩ := Option.map_eq_some_iff.mp hsome
    exact ⟨(k, obj), PyDict.get?_eq_some.mp hget, Option.map_eq_some_iff.mpr ⟨parent, hparent, rfl⟩⟩

/-- A replace leaves its mapped objects. -/
theorem get?_handleReplace (keyMap : KeyMap Key Obj) (store : ObjectStore Key Obj)
    (objects : PyDict Key Obj) :
    (handleReplace keyMap store objects).1.get? = mappedObjects keyMap objects := by
  funext k
  have hupserts := get?_upserts (mapped keyMap objects) (nodup_mapped keyMap objects) (store, []) k
  unfold handleReplace
  dsimp only
  rw [get?_deletes]
  rw [find?_mapped] at hupserts
  split
  · rename_i hgone
    rw [List.mem_filter, decide_eq_true_iff] at hgone
    symm
    rw [← find?_mapped, Option.map_eq_none_iff, List.find?_eq_none]
    intro entry hentry heq
    rw [decide_eq_true_iff] at heq
    exact hgone.2 (List.mem_map.mpr ⟨entry, hentry, heq⟩)
  · rename_i hstays
    rw [List.mem_filter] at hstays
    rw [hupserts]
    cases hmapped : mappedObjects keyMap objects k with
    | some entry => rfl
    | none =>
      -- a key that is not mapped is deleted, so it was not there
      rw [hmapped] at hupserts
      cases hold : store.get? k with
      | none => rfl
      | some entry =>
        rw [hold] at hupserts
        refine absurd ⟨PyDict.mem_keys_iff.mpr ⟨entry, hupserts⟩, ?_⟩ hstays
        rw [decide_eq_true_iff]
        intro hmem
        obtain ⟨other, hother, rfl⟩ := List.mem_map.mp hmem
        have hfind : ((mapped keyMap objects).find? fun entry => entry.1 = other.1).isSome := by
          rw [List.find?_isSome]
          exact ⟨other, hother, by simp⟩
        rw [← find?_mapped, Option.map_eq_none_iff] at hmapped
        rw [hmapped] at hfind
        cases hfind

/-- The store after an event is the mapping of the event applied. -/
theorem get?_handleEvent (keyMap : KeyMap Key Obj) (store : ObjectStore Key Obj)
    (event : SourceEvent Key Obj) :
    (handleEvent keyMap store event).1.get? = applyEvent store.get? (event, keyMap) := by
  cases event with
  | replace objects => exact get?_handleReplace keyMap store objects
  | delete key lastObj => exact get?_applyDelete keyMap store key lastObj
  | upsert key obj =>
    unfold handleEvent handleUpsert applyEvent mappedObject
    dsimp only
    cases parentKeyOrNone keyMap key obj with
    | some parent => exact get?_applyUpsert store key obj parent
    | none =>
      dsimp only
      split
      · rename_i hnone
        rw [Option.isNone_iff_eq_none] at hnone
        exact (Function.update_eq_self_iff.mpr hnone.symm).symm
      · exact get?_applyDelete keyMap store key none

end ObjectStore

/-! ## The queue -/

namespace WorkQueue

variable {queue : WorkQueue Key}

theorem shutdown_add (key : Key) : (queue.add key).shutdown = queue.shutdown := by
  unfold add
  split <;> rfl

theorem mem_add (hopen : queue.shutdown = false) {key k : Key} :
    k ∈ (queue.add key).keys ↔ k ∈ queue.keys ∨ k = key := by
  unfold add
  rw [hopen, if_neg Bool.false_ne_true]
  dsimp only
  split
  · rw [List.mem_append, List.mem_singleton]
  · rename_i hmem
    rw [not_not] at hmem
    exact ⟨.inl, fun h => h.elim id fun heq => heq ▸ hmem⟩

theorem nodup_add (h : queue.keys.Nodup) (key : Key) : (queue.add key).keys.Nodup := by
  unfold add
  split
  · exact h
  · dsimp only
    split
    · rename_i hnew
      exact List.nodup_append.mpr ⟨h, List.nodup_singleton key, by
        rintro a ha b hb rfl
        exact hnew (List.mem_singleton.mp hb ▸ ha)⟩
    · exact h

/-- Adding several keys adds these keys. -/
theorem foldl_add (hopen : queue.shutdown = false) (h : queue.keys.Nodup) (keys : List Key) :
    (keys.foldl add queue).shutdown = false ∧ (keys.foldl add queue).keys.Nodup ∧
      ∀ k, k ∈ (keys.foldl add queue).keys ↔ k ∈ queue.keys ∨ k ∈ keys := by
  induction keys generalizing queue with
  | nil => exact ⟨hopen, h, fun k => by simp⟩
  | cons key keys ih =>
    obtain ⟨hshutdown, hnodup, hmem⟩ := ih ((shutdown_add key).trans hopen) (nodup_add h key)
    refine ⟨hshutdown, hnodup, fun k => ?_⟩
    rw [List.foldl_cons, hmem, mem_add hopen, List.mem_cons, or_assoc]

end WorkQueue

/-! ## The retries -/

namespace RetryScheduler

variable {retry : RetryScheduler Key}

/-- A failure sets a retry time, and no other one. -/
theorem armed_noteFailure (cfg : Config) (hopen : retry.shutdown = false) (key k : Key) (now : ℚ) :
    (retry.noteFailure cfg key now).armed k = if k = key then true else retry.armed k := by
  unfold noteFailure armed
  rw [hopen, if_neg Bool.false_ne_true]
  dsimp only
  rw [PyDict.get?_set]
  split <;> rfl

theorem shutdown_noteFailure (cfg : Config) (key : Key) (now : ℚ) :
    (retry.noteFailure cfg key now).shutdown = retry.shutdown := by
  unfold noteFailure
  split <;> rfl

theorem armed_noteSuccess {key k : Key} (hne : k ≠ key) :
    (retry.noteSuccess key).armed k = retry.armed k := by
  unfold noteSuccess armed
  dsimp only
  rw [PyDict.get?_erase, if_neg hne]

theorem disarm_spec (key : Key) : (retry.disarm key).shutdown = retry.shutdown ∧
    ∀ k, k ≠ key → (retry.disarm key).armed k = retry.armed k := by
  unfold disarm armed
  cases retry.infos.get? key with
  | none => exact ⟨rfl, fun _ _ => rfl⟩
  | some info =>
    refine ⟨rfl, fun k hne => ?_⟩
    dsimp only
    rw [PyDict.get?_set, if_neg hne]

/-- A poll puts the keys whose retry time it clears into the queue. -/
theorem poll_spec (hretry : retry.shutdown = false) {queue : WorkQueue Key}
    (hqueue : queue.shutdown = false) (hnodup : queue.keys.Nodup) (now : ℚ) :
    (retry.poll queue now).1.shutdown = false ∧ (retry.poll queue now).2.shutdown = false ∧
      (retry.poll queue now).2.keys.Nodup ∧
      (∀ k ∈ queue.keys, k ∈ (retry.poll queue now).2.keys) ∧
      ∀ k, retry.armed k = true →
        k ∈ (retry.poll queue now).2.keys ∨ (retry.poll queue now).1.armed k = true := by
  unfold poll
  generalize retry.due now = keys
  induction keys generalizing retry queue with
  | nil => exact ⟨hretry, hqueue, hnodup, fun _ hk => hk, fun _ hk => .inr hk⟩
  | cons key keys ih =>
    obtain ⟨hshutdown, harmed⟩ : (retry.disarm key).shutdown = retry.shutdown ∧
        ∀ k, k ≠ key → (retry.disarm key).armed k = retry.armed k := disarm_spec key
    obtain ⟨h₁, h₂, h₃, hkeeps, hrest⟩ := ih (hshutdown.trans hretry)
      ((WorkQueue.shutdown_add key).trans hqueue) (WorkQueue.nodup_add hnodup key)
    refine ⟨h₁, h₂, h₃, fun k hk => ?_, fun k hk => ?_⟩
    · exact hkeeps k ((WorkQueue.mem_add hqueue).mpr (.inl hk))
    · by_cases heq : k = key
      · exact .inl (hkeeps k ((WorkQueue.mem_add hqueue).mpr (.inr heq)))
      · exact hrest k ((harmed k heq).trans hk)

end RetryScheduler

/-! ## Steps -/

namespace World

/-- What holds before the shutdown. -/
structure Live (w : World Key Obj) : Prop where
  queueOpen : w.queue.shutdown = false
  retryOpen : w.retry.shutdown = false
  nodup : w.queue.keys.Nodup

/-- What an event before the shutdown can do to the queue, the retries and the worker. -/
structure Effect (w : World Key Obj) (e : Label Key Obj) (w' : World Key Obj) : Prop where
  live : w'.Live
  /-- a key leaves the queue only when its reconcile starts -/
  queued : ∀ k ∈ w.queue.keys, e ≠ .startReconcile k → k ∈ w'.queue.keys
  /-- a parent whose objects change is queued -/
  changed : ∀ parent, w.store.objectsOf parent ≠ w'.store.objectsOf parent →
    parent ∈ w'.queue.keys
  /-- a retry time is cleared by the poller, which queues the key, or by a success -/
  armed : ∀ k, w.retry.armed k = true →
    k ∈ w'.queue.keys ∨ w'.retry.armed k = true ∨ w.worker = .running k
  failed : ∀ k now, e = .finishReconcile k false now → w'.retry.armed k = true
  finished : ∀ k success now, e = .finishReconcile k success now → w'.worker = .idle
  /-- a reconcile starts when none is running, and is running until it ends -/
  started : ∀ k, e = .startReconcile k → w.worker = .idle ∧ w'.worker = .running k
  running : ∀ k, w'.worker = .running k → w.worker = .running k ∨ e = .startReconcile k
  unfinished : ∀ k, w.worker = .running k →
    w'.worker = .running k ∨ ∃ success now, e = .finishReconcile k success now

variable {cfg : Config} {w w' : World Key Obj} {e : Label Key Obj}

/-- An event that touches neither the store nor the queue's keys nor the retries. -/
theorem effect_of_same (h : w.Live) (hstore : w'.store = w.store)
    (hkeys : w'.queue.keys = w.queue.keys) (hshutdown : w'.queue.shutdown = w.queue.shutdown)
    (hretry : w'.retry = w.retry) (hworker : w'.worker = w.worker ∨
      (∀ k, w.worker ≠ .running k) ∧ ∀ k, w'.worker ≠ .running k)
    (hstart : ∀ k, e ≠ .startReconcile k)
    (hfinish : ∀ k success now, e ≠ .finishReconcile k success now) : Effect w e w' where
  live := ⟨hshutdown.trans h.queueOpen, by rw [hretry]; exact h.retryOpen, by
    rw [hkeys]; exact h.nodup⟩
  queued := fun k hk _ => by rw [hkeys]; exact hk
  changed := fun parent hne => absurd (by rw [hstore]) hne
  armed := fun k hk => .inr (.inl (by rw [hretry]; exact hk))
  failed := fun k now he => absurd he (hfinish k false now)
  finished := fun k success now he => absurd he (hfinish k success now)
  started := fun k he => absurd he (hstart k)
  running := by
    intro k hk
    rcases hworker with hsame | ⟨-, hnone⟩
    · exact .inl (hsame ▸ hk)
    · exact absurd hk (hnone k)
  unfinished := by
    intro k hk
    rcases hworker with hsame | ⟨hnone, -⟩
    · exact .inl (hsame.trans hk)
    · exact absurd hk (hnone k)

/-- An event that only puts keys into the queue, the affected parents among them. -/
theorem effect_of_enqueue (h : w.Live) (keys : List Key)
    (hqueue : w'.queue = (keys.insertionSort (· ≤ ·)).foldl WorkQueue.add w.queue)
    (hchanged : ∀ parent, w.store.objectsOf parent ≠ w'.store.objectsOf parent → parent ∈ keys)
    (hretry : w'.retry = w.retry) (hworker : w'.worker = w.worker)
    (hstart : ∀ k, e ≠ .startReconcile k)
    (hfinish : ∀ k success now, e ≠ .finishReconcile k success now) : Effect w e w' := by
  obtain ⟨hshutdown, hnodup, hmem⟩ :=
    WorkQueue.foldl_add h.queueOpen h.nodup (keys.insertionSort (· ≤ ·))
  rw [← hqueue] at hshutdown hnodup hmem
  constructor
  case live => exact ⟨hshutdown, by rw [hretry]; exact h.retryOpen, hnodup⟩
  case queued => exact fun k hk _ => (hmem k).mpr (.inl hk)
  case changed =>
    intro parent hne
    exact (hmem parent).mpr (.inr ((List.mem_insertionSort _).mpr (hchanged parent hne)))
  case armed => exact fun k hk => .inr (.inl (by rw [hretry]; exact hk))
  case failed => exact fun k now he => absurd he (hfinish k false now)
  case finished => exact fun k success now he => absurd he (hfinish k success now)
  case started => exact fun k he => absurd he (hstart k)
  case running => exact fun k hk => .inl (hworker ▸ hk)
  case unfinished => exact fun k hk => .inl (hworker.trans hk)

/-- The end of a reconcile. -/
theorem effect_finish (h : w.Live) {key : Key} {success : Bool} {now : ℚ}
    (hrunning : w.worker = .running key) :
    Effect w (.finishReconcile key success now) (w.finish cfg key success now) where
  live := by
    refine ⟨h.queueOpen, ?_, h.nodup⟩
    cases success with
    | true => exact h.retryOpen
    | false => exact (RetryScheduler.shutdown_noteFailure ..).trans h.retryOpen
  queued := fun k hk _ => hk
  changed := fun parent hne => absurd rfl hne
  armed := by
    intro k hk
    by_cases heq : k = key
    · exact .inr (.inr (heq ▸ hrunning))
    · refine .inr (.inl ?_)
      cases success with
      | true => exact (RetryScheduler.armed_noteSuccess heq).trans hk
      | false =>
        exact (RetryScheduler.armed_noteFailure cfg h.retryOpen ..).trans ((if_neg heq).trans hk)
  failed := by
    intro k now' he
    cases he
    exact (RetryScheduler.armed_noteFailure cfg h.retryOpen ..).trans (if_pos rfl)
  finished := fun _ _ _ _ => rfl
  started := fun k he => nomatch he
  running := fun k hk => nomatch hk
  unfinished := by
    intro k hk
    obtain rfl : key = k := Worker.running.inj (hrunning.symm.trans hk)
    exact .inr ⟨success, now, rfl⟩

/-- Every event before the shutdown has one of these effects. -/
theorem step_effect (h : w.Live) (hstep : step cfg w e = some w') (he : e ≠ .shutdown) :
    Effect w e w' := by
  -- only a source event changes the store, and it enqueues the parents of what it changed
  cases e with
  | openStream =>
    simp only [step] at hstep
    split at hstep
    · cases hstep
      exact effect_of_same h rfl rfl rfl rfl (.inl rfl) (by simp) (by simp)
    · cases hstep
  | sourceEvent event keyMap =>
    simp only [step] at hstep
    split at hstep
    · cases hstep
    · cases hstep
      unfold pump
      split
      · -- the pump raises before it has handled the event
        exact effect_of_same h rfl rfl rfl rfl (.inl rfl) (by simp) (by simp)
      · exact effect_of_enqueue h _ rfl (ObjectStore.covers_handleEvent keyMap w.store event) rfl
          rfl (by simp) (by simp)
  | endStream =>
    simp only [step] at hstep
    split at hstep
    · cases hstep
    · cases hstep
      exact effect_of_same h rfl rfl rfl rfl (.inl rfl) (by simp) (by simp)
  | startWorker =>
    simp only [step] at hstep
    split at hstep
    · rename_i hready
      cases hstep
      exact effect_of_same h rfl rfl rfl rfl (.inr ⟨by simp [hready.2], by simp⟩) (by simp)
        (by simp)
    · cases hstep
  | wait =>
    simp only [step] at hstep
    split at hstep
    · rename_i hready
      cases hstep
      exact effect_of_same h rfl rfl rfl rfl (.inr ⟨by simp [hready.1], by simp⟩) (by simp)
        (by simp)
    · cases hstep
  | wake =>
    simp only [step] at hstep
    split at hstep
    · rename_i hready
      cases hstep
      exact effect_of_same h rfl rfl rfl rfl (.inr ⟨by simp [hready.1], by simp⟩) (by simp)
        (by simp)
    · cases hstep
  | startReconcile key =>
    simp only [step] at hstep
    split at hstep
    · rename_i hready
      cases hstep
      obtain ⟨hidle, -, hhead⟩ := hready
      -- the key that starts is the head of the queue: all other keys stay in it
      obtain ⟨rest, hkeys⟩ : ∃ rest, w.queue.keys = key :: rest := by
        cases hk : w.queue.keys with
        | nil => rw [hk] at hhead; cases hhead
        | cons a rest => rw [hk] at hhead; cases hhead; exact ⟨rest, rfl⟩
      constructor
      case live =>
        refine ⟨h.queueOpen, h.retryOpen, ?_⟩
        exact h.nodup.sublist (List.tail_sublist _)
      case queued =>
        intro k hk hne
        show k ∈ w.queue.keys.tail
        rw [hkeys] at hk ⊢
        rcases List.mem_cons.mp hk with rfl | hrest
        · exact absurd rfl hne
        · exact hrest
      case changed => exact fun parent hne => absurd rfl hne
      case armed => exact fun k hk => .inr (.inl hk)
      case failed => exact fun k now he => nomatch he
      case finished => exact fun k success now he => nomatch he
      case started =>
        intro k he
        cases he
        exact ⟨hidle, rfl⟩
      case running =>
        intro k hk
        cases hk
        exact .inr rfl
      case unfinished => exact fun k hk => nomatch hidle.symm.trans hk
    · cases hstep
  | finishReconcile key success now =>
    simp only [step] at hstep
    split at hstep
    · rename_i hrunning
      cases hstep
      exact effect_finish h hrunning
    · cases hstep
  | poll now =>
    simp only [step] at hstep
    split at hstep
    · cases hstep
    · cases hstep
      -- a retry that is due goes from the scheduler to the queue, so it is armed still
      obtain ⟨hretry, hqueue, hnodup, hkeeps, harmed⟩ :=
        RetryScheduler.poll_spec h.retryOpen h.queueOpen h.nodup now
      constructor
      case live => exact ⟨hqueue, hretry, hnodup⟩
      case queued => exact fun k hk _ => hkeeps k hk
      case changed => exact fun parent hne => absurd rfl hne
      case armed => exact fun k hk => (harmed k hk).imp_right .inl
      case failed => exact fun k now he => nomatch he
      case finished => exact fun k success now he => nomatch he
      case started => exact fun k he => nomatch he
      case running => exact fun k hk => .inl hk
      case unfinished => exact fun k hk => .inl hk
  | resync =>
    simp only [step] at hstep
    split at hstep
    · cases hstep
      -- a resync enqueues every parent; the store is as it was
      exact effect_of_enqueue h _ rfl (fun parent hne => absurd rfl hne) rfl rfl (by simp) (by simp)
    · cases hstep
  | shutdown => exact absurd rfl he

/-! ## Runs -/

omit [LinearOrder Key] in
theorem live_initial : ({} : World Key Obj).Live := ⟨rfl, rfl, List.nodup_nil⟩

variable {es : List (Label Key Obj)}

/-- What every event before the shutdown preserves, every run before it preserves. -/
theorem run_live {I : World Key Obj → Prop}
    (hI : ∀ v e v', e ∈ es → v.Live → I v → step cfg v e = some v' → Effect v e v' → I v')
    (hw : w.Live) (h : I w) (hshutdown : Label.shutdown ∉ es)
    (hrun : Lts.run (step cfg) w es = some w') : w'.Live ∧ I w' := by
  have hstep : ∀ (v : World Key Obj) e v', e ∈ es → v.Live ∧ I v → step cfg v e = some v' →
      v'.Live ∧ I v' := by
    intro v e v' he ⟨hv, hIv⟩ hstep
    have heffect := step_effect hv hstep fun heq => hshutdown (heq ▸ he)
    exact ⟨heffect.live, hI v e v' he hv hIv hstep heffect⟩
  exact Lts.run_invariant_mem (I := fun v => v.Live ∧ I v) hstep ⟨hw, h⟩ hrun

/-- A queued key stays queued until its reconcile starts. -/
theorem queued_run {key : Key} (hw : w.Live)
    (h : key ∈ w.queue.keys) (hshutdown : Label.shutdown ∉ es)
    (hstart : Label.startReconcile key ∉ es) (hrun : Lts.run (step cfg) w es = some w') :
    key ∈ w'.queue.keys := by
  refine (run_live (I := fun v => key ∈ v.queue.keys) ?_ hw h hshutdown hrun).2
  intro v e v' he _ hmem _ heffect
  exact heffect.queued key hmem fun heq => hstart (heq ▸ he)

/-- A key that failed stays queued or armed until its reconcile starts. -/
theorem failed_run {key : Key} (hw : w.Live)
    (h : key ∈ w.queue.keys ∨ w.retry.armed key = true) (hidle : w.worker ≠ .running key)
    (hshutdown : Label.shutdown ∉ es) (hstart : Label.startReconcile key ∉ es)
    (hrun : Lts.run (step cfg) w es = some w') :
    key ∈ w'.queue.keys ∨ w'.retry.armed key = true := by
  refine (run_live (I := fun v => (key ∈ v.queue.keys ∨ v.retry.armed key = true) ∧
    v.worker ≠ .running key) ?_ hw ⟨h, hidle⟩ hshutdown hrun).2.1
  intro v e v' he _ ⟨hpending, hnot⟩ _ heffect
  have hne : e ≠ .startReconcile key := fun heq => hstart (heq ▸ he)
  refine ⟨?_, fun hrunning => ?_⟩
  · rcases hpending with hmem | harmed
    · exact .inl (heffect.queued key hmem hne)
    · rcases heffect.armed key harmed with hmem | hstill | hrunning
      · exact .inl hmem
      · exact .inr hstill
      · exact absurd hrunning hnot
  · exact (heffect.running key hrunning).elim hnot hne

/-- A reconcile runs until it ends. -/
theorem running_run {key : Key} (hw : w.Live)
    (h : w.worker = .running key) (hshutdown : Label.shutdown ∉ es)
    (hfinish : ∀ success now, Label.finishReconcile key success now ∉ es)
    (hrun : Lts.run (step cfg) w es = some w') : w'.worker = .running key := by
  refine (run_live (I := fun v => v.worker = .running key) ?_ hw h hshutdown hrun).2
  intro v e v' he _ hrunning _ heffect
  rcases heffect.unfinished key hrunning with hstill | ⟨success, now, heq⟩
  · exact hstill
  · exact absurd (heq ▸ he) (hfinish success now)

/-! ## The store over a run -/

/-- The events that the driver hands to the store, with the key map's answers: all but an event
    that opens a stream and is no replace. -/
def accepted : Stream → List (Label Key Obj) → List (SourceEvent Key Obj × KeyMap Key Obj)
  | _, [] => []
  | _, .openStream :: es => accepted .fresh es
  | _, .endStream :: es => accepted .closed es
  | stream, .sourceEvent event keyMap :: es =>
    if stream = .fresh ∧ ¬ event.isReplace then accepted .closed es
    else (event, keyMap) :: accepted .open es
  | stream, _ :: es => accepted stream es

omit [LinearOrder Key] in
theorem accepted_sourceEvent (stream : Stream) (event : SourceEvent Key Obj)
    (keyMap : KeyMap Key Obj) (es : List (Label Key Obj)) :
    accepted stream (.sourceEvent event keyMap :: es) =
      if stream = .fresh ∧ ¬ event.isReplace then accepted .closed es
      else (event, keyMap) :: accepted .open es := rfl

/-- What a source event makes of the stream and of the store. -/
theorem pump_spec (w : World Key Obj) (event : SourceEvent Key Obj) (keyMap : KeyMap Key Obj) :
    if w.stream = .fresh ∧ ¬ event.isReplace then
      (w.pump event keyMap).stream = .closed ∧ (w.pump event keyMap).store = w.store
    else (w.pump event keyMap).stream = .open ∧
      (w.pump event keyMap).store = (ObjectStore.handleEvent keyMap w.store event).1 := by
  unfold pump
  split <;> exact ⟨rfl, rfl⟩

/-- The store follows the accepted events. -/
theorem store_run (hrun : Lts.run (step cfg) w es = some w') :
    w'.store.get? = (accepted w.stream es).foldl ObjectStore.applyEvent w.store.get? := by
  induction es generalizing w with
  | nil =>
    cases hrun
    rfl
  | cons e es ih =>
    obtain ⟨v, hstep, hrest⟩ := Lts.run_cons_some.mp hrun
    rw [ih hrest]
    cases e with
    | openStream =>
      simp only [step] at hstep
      split at hstep
      · cases hstep
        rfl
      · cases hstep
    | sourceEvent event keyMap =>
      simp only [step] at hstep
      split at hstep
      · cases hstep
      · cases hstep
        have hpump := pump_spec w event keyMap
        rw [accepted_sourceEvent]
        split at hpump
        · rename_i hrefused
          rw [if_pos hrefused, hpump.1, hpump.2]
        · rename_i htaken
          rw [if_neg htaken, hpump.1, hpump.2, List.foldl_cons, ObjectStore.get?_handleEvent]
    | endStream =>
      simp only [step] at hstep
      split at hstep
      · cases hstep
      · cases hstep
        rfl
    | startWorker | wait | wake | startReconcile | finishReconcile | resync =>
      simp only [step] at hstep
      split at hstep
      · cases hstep
        rfl
      · cases hstep
    | poll now =>
      simp only [step] at hstep
      split at hstep
      · cases hstep
      · cases hstep
        rfl
    | shutdown =>
      cases hstep
      rfl

/-- The first event of every stream that the store sees is a replace. -/
theorem accepted_head (stream : Stream) (hstream : stream ≠ .open) (es : List (Label Key Obj))
    (w : World Key Obj) (hw : w.stream = stream) (hrun : Lts.run (step cfg) w es = some w') :
    ∀ event ∈ (accepted stream es).head?, event.1.isReplace = true := by
  -- an event before the replace closes the stream, and the next one starts anew
  induction es generalizing w stream with
  | nil => exact fun _ h => nomatch h
  | cons e es ih =>
    obtain ⟨v, hstep, hrest⟩ := Lts.run_cons_some.mp hrun
    cases e with
    | openStream =>
      simp only [step] at hstep
      split at hstep
      · cases hstep
        exact ih .fresh (by simp) _ rfl hrest
      · cases hstep
    | sourceEvent event keyMap =>
      simp only [step] at hstep
      split at hstep
      · cases hstep
      · rename_i hopen
        cases hstep
        have hfresh : stream = .fresh := by
          cases stream with
          | closed => exact absurd hw hopen
          | fresh => rfl
          | «open» => exact absurd rfl hstream
        have hpump := pump_spec w event keyMap
        rw [accepted_sourceEvent, ← hw]
        split
        · rename_i hrefused
          rw [if_pos hrefused] at hpump
          exact ih .closed (by simp) _ hpump.1 hrest
        · rename_i htaken
          intro first hfirst
          cases hfirst
          by_contra hnot
          exact htaken ⟨hw.trans hfresh, hnot⟩
    | endStream =>
      simp only [step] at hstep
      split at hstep
      · cases hstep
      · cases hstep
        exact ih .closed (by simp) _ rfl hrest
    | startWorker | wait | wake | startReconcile | finishReconcile | resync =>
      simp only [step] at hstep
      split at hstep
      · cases hstep
        refine ih stream hstream _ ?_ hrest
        exact hw
      · cases hstep
    | poll now =>
      simp only [step] at hstep
      split at hstep
      · cases hstep
      · cases hstep
        refine ih stream hstream _ ?_ hrest
        exact hw
    | shutdown =>
      cases hstep
      refine ih stream hstream _ ?_ hrest
      exact hw

/-- The store is the mapping of the last replace with the later events applied, and empty before
    the first replace. -/
theorem store_eq_lastReplace
    (hrun : Lts.run (step cfg) {} es = some w) :
    (accepted .closed es = [] ∧ w.store.get? = fun _ => none) ∨
    ∃ before objects keyMap later,
      accepted .closed es = before ++ (.replace objects, keyMap) :: later ∧
      (∀ event ∈ later, event.1.isReplace = false) ∧
      w.store.get? = later.foldl ObjectStore.applyEvent
        (ObjectStore.mappedObjects keyMap objects) := by
  have hstore := store_run hrun
  have hhead := accepted_head .closed (by simp) es {} rfl hrun
  change w.store.get? = (accepted .closed es).foldl _ _ at hstore
  generalize accepted .closed es = events at hstore hhead
  cases events with
  | nil => exact .inl ⟨rfl, hstore⟩
  | cons first rest =>
    obtain ⟨before, ⟨event, keyMap⟩, later, hsplit, hreplace, hlater⟩ :
        ∃ before event later, first :: rest = before ++ event :: later ∧
          event.1.isReplace = true ∧ ∀ event ∈ later, event.1.isReplace = false := by
      have hfirst := hhead first rfl
      clear hstore hhead
      induction rest using List.reverseRecOn with
      | nil => exact ⟨[], first, [], rfl, hfirst, by simp⟩
      | append_singleton rest last ih =>
        cases hlast : last.1.isReplace with
        | true => exact ⟨first :: rest, last, [], rfl, hlast, by simp⟩
        | false =>
          obtain ⟨before, event, later, hsplit, hreplace, hlater⟩ := ih
          refine ⟨before, event, later ++ [last], ?_, hreplace, fun e he => ?_⟩
          · rw [← List.cons_append, hsplit, List.append_assoc, List.cons_append]
          · rcases List.mem_append.mp he with hmem | hmem
            · exact hlater e hmem
            · rw [List.mem_singleton.mp hmem]
              exact hlast
    refine .inr ?_
    cases event with
    | replace objects =>
      refine ⟨before, objects, keyMap, later, hsplit, hlater, ?_⟩
      rw [hstore, hsplit, List.foldl_append, List.foldl_cons]
      rfl
    | upsert key obj => cases hreplace
    | delete key lastObj => cases hreplace

/-- In every run before the shutdown: a parent whose objects have changed since its last reconcile
    started is queued; a key whose last reconcile failed is queued or has a retry time; no key is
    queued twice; a reconcile starts only after the one before it has ended; and the store is the
    last replace with the later events applied. -/
theorem no_update_lost (cfg : Config) (es : List (Label Key Obj)) (w : World Key Obj)
    (hrun : Lts.run (step cfg) {} es = some w) (hshutdown : Label.shutdown ∉ es) :
    (∀ parent before e after w₁ w₂, es = before ++ e :: after →
      Lts.run (step cfg) {} before = some w₁ → step cfg w₁ e = some w₂ →
      w₁.store.objectsOf parent ≠ w₂.store.objectsOf parent →
      Label.startReconcile parent ∉ after → parent ∈ w.queue.keys) ∧
    (∀ key before now after, es = before ++ .finishReconcile key false now :: after →
      Label.startReconcile key ∉ after →
      key ∈ w.queue.keys ∨ w.retry.armed key = true) ∧
    w.queue.keys.Nodup ∧
    (∀ key key' before between after,
      es = before ++ .startReconcile key :: between ++ .startReconcile key' :: after →
      ∃ success now, Label.finishReconcile key success now ∈ between) ∧
    ((accepted .closed es = [] ∧ w.store.get? = fun _ => none) ∨
      ∃ before objects keyMap later,
        accepted .closed es = before ++ (.replace objects, keyMap) :: later ∧
        (∀ event ∈ later, event.1.isReplace = false) ∧
        w.store.get? = later.foldl ObjectStore.applyEvent
          (ObjectStore.mappedObjects keyMap objects)) := by
  -- the states of a run before its shutdown are live
  have hlive : ∀ {fs : List (Label Key Obj)} {v}, Label.shutdown ∉ fs →
      Lts.run (step cfg) {} fs = some v → v.Live := fun hfs hv =>
    (run_live (I := fun _ => True) (fun _ _ _ _ _ _ _ _ => trivial) live_initial trivial hfs hv).1
  refine ⟨?changed, ?failed, (hlive hshutdown hrun).nodup, ?overlap, store_eq_lastReplace hrun⟩
  case changed =>
    rintro parent before e after w₁ w₂ rfl hbefore hstep hne hstart
    simp only [List.mem_append, List.mem_cons, not_or] at hshutdown
    obtain ⟨v, hv, hrest⟩ := Lts.run_append_some.mp hrun
    cases hbefore.symm.trans hv
    obtain ⟨v₂, hv₂, hafter⟩ := Lts.run_cons_some.mp hrest
    cases hstep.symm.trans hv₂
    have heffect := step_effect (hlive hshutdown.1 hv) hstep fun he => hshutdown.2.1 he.symm
    exact queued_run heffect.live (heffect.changed parent hne) hshutdown.2.2 hstart hafter
  case failed =>
    rintro key before now after rfl hstart
    simp only [List.mem_append, List.mem_cons, not_or] at hshutdown
    obtain ⟨v, hv, hrest⟩ := Lts.run_append_some.mp hrun
    obtain ⟨v₂, hv₂, hafter⟩ := Lts.run_cons_some.mp hrest
    have heffect := step_effect (hlive hshutdown.1 hv) hv₂ (by simp)
    have hidle : v₂.worker ≠ .running key := by
      rw [heffect.finished key false now rfl]
      simp
    exact failed_run heffect.live (.inr (heffect.failed key now rfl)) hidle hshutdown.2.2 hstart
      hafter
  case overlap =>
    rintro key key' before between after rfl
    rw [List.append_assoc] at hrun hshutdown
    simp only [List.mem_append, List.cons_append, List.mem_cons, not_or] at hshutdown
    obtain ⟨v, hv, hrest⟩ := Lts.run_append_some.mp hrun
    obtain ⟨v₂, hv₂, hafter⟩ := Lts.run_cons_some.mp hrest
    obtain ⟨v₃, hbetween, hlast⟩ := Lts.run_append_some.mp hafter
    obtain ⟨v₄, hv₄, -⟩ := Lts.run_cons_some.mp hlast
    have heffect := step_effect (hlive hshutdown.1 hv) hv₂ (by simp)
    by_contra hnone
    push Not at hnone
    -- the first reconcile would still run when the second starts
    have hrunning := running_run heffect.live (heffect.started key rfl).2 hshutdown.2.2.1 hnone
      hbetween
    have hlive₃ : v₃.Live := by
      have hall : Lts.run (step cfg) {} (before ++ .startReconcile key :: between) = some v₃ :=
        Lts.run_append_some.mpr ⟨v, hv, Lts.run_cons_some.mpr ⟨v₂, hv₂, hbetween⟩⟩
      refine hlive ?_ hall
      simp only [List.mem_append, List.mem_cons, not_or]
      exact ⟨hshutdown.1, hshutdown.2.1, hshutdown.2.2.1⟩
    have hidle := ((step_effect hlive₃ hv₄ (by simp)).started key' rfl).1
    cases hrunning.symm.trans hidle

/-- An object changes while its parent is reconciled, and the reconcile fails. -/
def changedWhileRunning : List (Label Nat Nat) :=
  [.openStream, .sourceEvent (.replace (.ofList [(1, 10)])) none, .startWorker,
   .startReconcile 1, .sourceEvent (.upsert 1 20) none, .finishReconcile 1 false 0]

/-- The parent is queued again. -/
theorem no_update_lost_changedWhileRunning :
    ∃ w, Lts.run (step ⟨none, 1, 60⟩) {} changedWhileRunning = some w ∧ 1 ∈ w.queue.keys := by
  refine ⟨_, rfl, ?_⟩
  have h := no_update_lost ⟨none, 1, 60⟩ changedWhileRunning _ rfl (by simp [changedWhileRunning])
  refine h.1 1 (changedWhileRunning.take 4) (.sourceEvent (.upsert 1 20) none)
    [.finishReconcile 1 false 0] _ _ rfl rfl rfl (fun heq => ?_) (by simp)
  have hvalue := congrFun heq 1
  revert hvalue
  decide

end World

end Miles.Workers.Reconcile
