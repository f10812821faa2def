import Miles.ForStd.PyDict

/-!
# The reconcile loop

Model of `miles/utils/workers/reconcile/`: the object store (`object_store.py`), the work queue
(`work_queue.py`), the retry scheduler (`retry_scheduler.py`), the stream driver
(`source_stream_driver.py`) and the loop that joins them (`loop.py`).

Everything runs on one event loop, so a step is what happens between two awaits.  Object keys and
parent keys are of one type: without a key map an object is its own parent.
-/

namespace Miles.Workers.Reconcile

variable {Key Obj : Type} [LinearOrder Key]

/-! ## The object store -/

/-- `SourceEvent` -/
inductive SourceEvent (Key Obj : Type) where
  | replace (objects : PyDict Key Obj)
  | upsert (key : Key) (obj : Obj)
  | delete (key : Key) (lastObj : Option Obj)

/-- `isinstance(event, ReplaceEvent)` -/
def SourceEvent.isReplace : SourceEvent Key Obj → Bool
  | .replace _ => true
  | _ => false

/-- `KeyMapFn | None`.  An answer is a parent, `None` or an exception. -/
abbrev KeyMap (Key Obj : Type) := Option (Obj → Except String (Option Key))

/-- `_CachedObject` -/
structure CachedObject (Key Obj : Type) where
  obj : Obj
  parent : Key

/-- `ObjectStore`, by its `_cache`. -/
abbrev ObjectStore (Key Obj : Type) := PyDict Key (CachedObject Key Obj)

namespace ObjectStore

/-- `get_by_parent` -/
def getByParent (store : ObjectStore Key Obj) (parent : Key) : List Obj :=
  (store.keys.insertionSort (· ≤ ·)).filterMap fun key =>
    (store.get? key).bind fun entry => if entry.parent = parent then some entry.obj else none

/-- `parent_keys` -/
def parentKeys (store : ObjectStore Key Obj) : List Key :=
  (store.items.map fun entry => entry.2.parent).dedup

/-- `_parent_key_or_none` -/
def parentKeyOrNone (keyMap : KeyMap Key Obj) (key : Key) (obj : Obj) : Option Key :=
  match keyMap with
  | none => some key
  | some answer =>
    match answer obj with
    | .ok parent => parent
    | .error _ => none

/-- `_apply_upsert`: the store and the affected parents. -/
def applyUpsert (store : ObjectStore Key Obj) (key : Key) (obj : Obj) (parent : Key) :
    ObjectStore Key Obj × List Key :=
  (store.set key { obj, parent },
    match store.get? key with
    | none => [parent]
    | some previous => [parent] ∪ [previous.parent])

/-- `_apply_delete`: the store and the affected parents. -/
def applyDelete (keyMap : KeyMap Key Obj) (store : ObjectStore Key Obj) (key : Key)
    (lastObj : Option Obj) : ObjectStore Key Obj × List Key :=
  (store.erase key,
    match store.get? key with
    | some removed => [removed.parent]
    | none =>
      match lastObj with
      | none => []
      | some obj => (parentKeyOrNone keyMap key obj).toList)

/-- The objects of a replace that have a parent, with it. -/
def mapped (keyMap : KeyMap Key Obj) (objects : PyDict Key Obj) : List (Key × CachedObject Key Obj) :=
  objects.items.filterMap fun entry =>
    (parentKeyOrNone keyMap entry.1 entry.2).map fun parent =>
      (entry.1, { obj := entry.2, parent })

/-- `_handle_replace` -/
def handleReplace (keyMap : KeyMap Key Obj) (store : ObjectStore Key Obj)
    (objects : PyDict Key Obj) : ObjectStore Key Obj × List Key :=
  let kept := mapped keyMap objects
  let upserted := kept.foldl (fun state entry =>
    let applied := applyUpsert state.1 entry.1 entry.2.obj entry.2.parent
    (applied.1, state.2 ∪ applied.2)) (store, [])
  (upserted.1.keys.filter (· ∉ kept.map Prod.fst)).foldl (fun state key =>
    let applied := applyDelete keyMap state.1 key none
    (applied.1, state.2 ∪ applied.2)) upserted

/-- `_handle_upsert` -/
def handleUpsert (keyMap : KeyMap Key Obj) (store : ObjectStore Key Obj) (key : Key) (obj : Obj) :
    ObjectStore Key Obj × List Key :=
  match parentKeyOrNone keyMap key obj with
  | some parent => applyUpsert store key obj parent
  | none => if (store.get? key).isNone then (store, []) else applyDelete keyMap store key none

/-- `handle_event` -/
def handleEvent (keyMap : KeyMap Key Obj) (store : ObjectStore Key Obj) :
    SourceEvent Key Obj → ObjectStore Key Obj × List Key
  | .replace objects => handleReplace keyMap store objects
  | .upsert key obj => handleUpsert keyMap store key obj
  | .delete key lastObj => applyDelete keyMap store key lastObj

end ObjectStore

/-! ## The work queue -/

/-- `WorkQueue` -/
structure WorkQueue (Key : Type) where
  keys : List Key := []
  wakeup : Bool := false
  shutdown : Bool := false

/-- `add` -/
def WorkQueue.add (queue : WorkQueue Key) (key : Key) : WorkQueue Key :=
  if queue.shutdown then queue
  else
    { queue with
      keys := if key ∉ queue.keys then queue.keys ++ [key] else queue.keys
      wakeup := true }

/-! ## The retry scheduler -/

/-- `_RetryInfo` -/
structure RetryInfo where
  failures : Nat
  retryAt : Option ℚ

/-- `RetryScheduler`, by its table. -/
structure RetryScheduler (Key : Type) where
  infos : PyDict Key RetryInfo := .empty
  shutdown : Bool := false

/-- The arguments of `ReconcileLoop` that are read here. -/
structure Config where
  resyncPeriod : Option ℚ
  failureBaseDelay : ℚ
  failureMaxDelay : ℚ

/-- `_max_backoff_exponent` -/
def Config.maxBackoffExponent (cfg : Config) : Nat :=
  Nat.clog 2 ⌈cfg.failureMaxDelay / cfg.failureBaseDelay⌉₊

namespace RetryScheduler

/-- `note_failure` -/
def noteFailure (cfg : Config) (retry : RetryScheduler Key) (key : Key) (now : ℚ) :
    RetryScheduler Key :=
  if retry.shutdown then retry
  else
    let failures := ((retry.infos.get? key).elim 0 RetryInfo.failures) + 1
    let exponent := min (failures - 1) cfg.maxBackoffExponent
    let delay := min (cfg.failureBaseDelay * 2 ^ exponent) cfg.failureMaxDelay
    { retry with infos := retry.infos.set key { failures, retryAt := some (now + delay) } }

/-- `note_success` -/
def noteSuccess (retry : RetryScheduler Key) (key : Key) : RetryScheduler Key :=
  { retry with infos := retry.infos.erase key }

/-- The keys whose retry time has come. -/
def due (retry : RetryScheduler Key) (now : ℚ) : List Key :=
  retry.infos.keys.filter fun key =>
    (retry.infos.get? key).any fun info => info.retryAt.any (· ≤ now)

/-- `self._infos[key].retry_at = None` -/
def disarm (retry : RetryScheduler Key) (key : Key) : RetryScheduler Key :=
  match retry.infos.get? key with
  | none => retry
  | some info => { retry with infos := retry.infos.set key { info with retryAt := none } }

/-- One round of `_poll`, with `on_retry = queue.add`. -/
def poll (retry : RetryScheduler Key) (queue : WorkQueue Key) (now : ℚ) :
    RetryScheduler Key × WorkQueue Key :=
  (retry.due now).foldl (fun state key => (state.1.disarm key, state.2.add key)) (retry, queue)

/-- The key has a retry time. -/
def armed (retry : RetryScheduler Key) (key : Key) : Bool :=
  (retry.infos.get? key).any fun info => info.retryAt.isSome

end RetryScheduler

/-! ## The loop -/

/-- Where `_worker_loop` stands. -/
inductive Worker (Key : Type) where
  /-- `start()` has not created it -/
  | absent
  /-- before or in `queue.get()`, not suspended -/
  | idle
  /-- suspended in `_wakeup.wait()` -/
  | waiting
  /-- suspended in `reconcile(parent_key)` -/
  | running (key : Key)
  deriving DecidableEq, Repr

/-- The stream that the driver pumps. -/
inductive Stream where
  /-- none is open -/
  | closed
  /-- open, with no event read -/
  | fresh
  | open
  deriving DecidableEq, Repr

/-- The state of a `ReconcileLoop`. -/
structure World (Key Obj : Type) where
  store : ObjectStore Key Obj := .empty
  queue : WorkQueue Key := {}
  retry : RetryScheduler Key := {}
  worker : Worker Key := .absent
  stream : Stream := .closed
  synced : Bool := false

/-- What can happen. -/
inductive Label (Key Obj : Type) where
  /-- the driver opens a stream -/
  | openStream
  /-- the open stream yields an event, with the key map's answers at that time -/
  | sourceEvent (event : SourceEvent Key Obj) (keyMap : KeyMap Key Obj)
  /-- the open stream ends or fails -/
  | endStream
  /-- `start()` creates the worker after the first replace -/
  | startWorker
  /-- `queue.get()` suspends -/
  | wait
  /-- the suspended worker is woken -/
  | wake
  /-- `queue.get()` returns a key and its reconcile starts -/
  | startReconcile (key : Key)
  /-- the running reconcile returns or raises -/
  | finishReconcile (key : Key) (success : Bool) (now : ℚ)
  /-- the retry poller wakes up -/
  | poll (now : ℚ)
  /-- the resync period has passed -/
  | resync
  /-- `stop()` is called, up to its first suspension; it cancels the tasks after that -/
  | shutdown

namespace World

/-- `_enqueue_all` -/
def enqueueAll (w : World Key Obj) (parentKeys : List Key) : World Key Obj :=
  { w with queue := (parentKeys.insertionSort (· ≤ ·)).foldl WorkQueue.add w.queue }

/-- The body of the loop of `_pump`. -/
def pump (w : World Key Obj) (event : SourceEvent Key Obj) (keyMap : KeyMap Key Obj) :
    World Key Obj :=
  if w.stream = .fresh ∧ ¬ event.isReplace then
    -- the pump raises, and the driver closes the stream
    { w with stream := .closed }
  else
    let handled := ObjectStore.handleEvent keyMap w.store event
    let w := { w with store := handled.1, stream := .open }.enqueueAll handled.2
    { w with synced := w.synced || event.isReplace }

/-- The end of a reconcile. -/
def finish (cfg : Config) (w : World Key Obj) (key : Key) (success : Bool) (now : ℚ) :
    World Key Obj :=
  { w with
    worker := .idle
    retry := if success then w.retry.noteSuccess key else w.retry.noteFailure cfg key now }

/-- One event; `none` when it cannot happen. -/
def step (cfg : Config) (w : World Key Obj) : Label Key Obj → Option (World Key Obj)
  | .openStream => if w.stream = .closed then some { w with stream := .fresh } else none
  | .sourceEvent event keyMap =>
    if w.stream = .closed then none else some (w.pump event keyMap)
  | .endStream => if w.stream = .closed then none else some { w with stream := .closed }
  | .startWorker =>
    if w.synced ∧ w.worker = .absent then some { w with worker := .idle } else none
  | .wait =>
    if w.worker = .idle ∧ ¬ w.queue.shutdown ∧ w.queue.keys = [] then
      some { w with worker := .waiting, queue := { w.queue with wakeup := false } }
    else none
  | .wake => if w.worker = .waiting ∧ w.queue.wakeup then some { w with worker := .idle } else none
  | .startReconcile key =>
    if w.worker = .idle ∧ ¬ w.queue.shutdown ∧ w.queue.keys.head? = some key then
      some { w with worker := .running key, queue := { w.queue with keys := w.queue.keys.tail } }
    else none
  | .finishReconcile key success now =>
    if w.worker = .running key then some (w.finish cfg key success now) else none
  | .poll now =>
    if w.retry.shutdown then none
    else
      let polled := w.retry.poll w.queue now
      some { w with retry := polled.1, queue := polled.2 }
  | .resync =>
    if w.worker ≠ .absent ∧ cfg.resyncPeriod.isSome then some (w.enqueueAll w.store.parentKeys)
    else none
  | .shutdown =>
    some { w with
      queue := { w.queue with shutdown := true, wakeup := true }
      retry := { infos := .empty, shutdown := true } }

end World

end Miles.Workers.Reconcile
