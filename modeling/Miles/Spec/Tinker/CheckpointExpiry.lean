import Miles.ForStd.Except
import Miles.Native.Tinker.CheckpointExpiry

/-!
# The expiries and their file agree

Whatever step of a write fails, the map in memory and the file stay one map, the old or the new one.
A crash of the process finds one of the two in the file. A loss of power may find an older one, from
before a directory sync that failed.
-/

namespace Miles.CheckpointExpiry

open CrashHoare

variable {s s' : State} {old new m : Entries} {path : String}

/-! ## The file of a map -/

/-- Two dictionaries are one map. -/
def Same (d e : Entries) : Prop := ∀ k, d.get? k = e.get? k

def KeysParse (d : Entries) : Prop := ∀ k, (d.get? k).isSome → (parseTinkerPath k).isSome

/-- A process that starts with this file has the map. -/
def Loads (file : Option File) (m : Entries) : Prop := ∃ d, load file = some d ∧ Same d m

theorem perm_sorted (d : Entries) :
    (d.items.mergeSort fun x y => decide (x.1 ≤ y.1)).Perm d.items := List.mergeSort_perm ..

theorem decodeEntry_asDict {p : String × Expiry} (h : (parseTinkerPath p.1).isSome) :
    decodeEntry (p.1, asDict p.2) = some p := by
  have hcommit : member [("commit_id", .str p.2.commitId), ("expires_at", .num p.2.expiresAt)]
      "commit_id" = some (.str p.2.commitId) := rfl
  have hexpires : member [("commit_id", .str p.2.commitId), ("expires_at", .num p.2.expiresAt)]
      "expires_at" = some (.num p.2.expiresAt) := rfl
  simp only [decodeEntry, if_pos h, asDict, hcommit, hexpires]

/-- The file that is written loads to the map. -/
theorem loads_encode (h : KeysParse m) : Loads (some (.whole (encode m))) m := by
  have hperm := perm_sorted m
  have hnodup : ((m.items.mergeSort fun x y => decide (x.1 ≤ y.1)).map Prod.fst).Nodup :=
    (hperm.map Prod.fst).nodup_iff.mpr m.keys_nodup
  have hmembers : (((m.items.mergeSort fun x y => decide (x.1 ≤ y.1)).map fun p =>
      (p.1, asDict p.2)).map Prod.fst).Nodup := by
    rw [List.map_map]
    exact hnodup
  have hentries : ((m.items.mergeSort fun x y => decide (x.1 ≤ y.1)).map fun p =>
      (p.1, asDict p.2)).mapM decodeEntry =
        some (m.items.mergeSort fun x y => decide (x.1 ≤ y.1)) := by
    rw [List.mapM_eq_some, List.forall₂_map_left_iff, List.forall₂_same]
    intro p hp
    apply decodeEntry_asDict
    apply h
    rw [PyDict.get?_eq_some.mpr (hperm.mem_iff.mp hp)]
    rfl
  refine ⟨.ofList (m.items.mergeSort fun x y => decide (x.1 ≤ y.1)), ?_, fun k => ?_⟩
  · show ((PyDict.ofList _).items.mapM decodeEntry).map PyDict.ofList = _
    rw [PyDict.items_ofList hmembers, hentries]
    rfl
  · apply Option.ext
    intro e
    rw [PyDict.get?_eq_some, PyDict.get?_eq_some, PyDict.items_ofList hnodup]
    exact hperm.mem_iff

theorem Same.keysParse (h : Same old new) (hnew : KeysParse new) : KeysParse old := by
  intro k hk
  apply hnew
  rw [← h k]
  exact hk

theorem KeysParse.erase (h : KeysParse m) (path : String) : KeysParse (m.erase path) := by
  intro k hk
  apply h
  rw [PyDict.get?_erase] at hk
  split at hk
  · cases hk
  · exact hk

theorem KeysParse.set (h : KeysParse m) (path : TinkerPath) (e : Expiry) :
    KeysParse (m.set path.text e) := by
  intro k hk
  rw [PyDict.get?_set] at hk
  split at hk
  · rename_i heq
    rw [heq]
    exact path.parses
  · exact h k hk

/-! ## The states of an operation -/

/-- The map in memory is the one in the file, and the only one that a power loss may leave unless a
    sync of the directory was missed. -/
structure Coherent (s : State) : Prop where
  loads : Loads s.disk.file s.entries
  parse : KeysParse s.entries
  current : s.disk.file ∈ s.disk.durable
  durable : ∀ f ∈ s.disk.durable, ∃ m, KeysParse m ∧ Loads f m
  synced : s.disk.durable = [s.disk.file] ∨ s.syncMissed = true

/-- While an operation is under way that may lead to the maps of `P`: the file has one of them, and
    so does whatever a power loss may leave, unless a sync of the directory was missed before and
    none has gone through since. -/
structure Underway (s : State) (P : Entries → Prop) (s' : State) : Prop where
  file : ∃ m, P m ∧ KeysParse m ∧ Loads s'.disk.file m
  current : s'.disk.file ∈ s'.disk.durable
  durable : ∀ f ∈ s'.disk.durable,
    (f ∈ s.disk.durable ∧ s.syncMissed = true ∧ s'.syncMissed = true) ∨
      ∃ m, P m ∧ KeysParse m ∧ Loads f m
  deleted : ∃ more, s'.deleted = s.deleted ++ more ∧ ∀ d ∈ more, d.1 = some d.2.commitId

/-- When it has ended, the memory has the map of the file. -/
def Ended (P : Entries → Prop) (s' : State) : Prop := P s'.entries ∧ Coherent s'

/-- Nothing but the temporary file has changed. -/
structure Untouched (s s' : State) : Prop where
  file : s'.disk.file = s.disk.file
  durable : s'.disk.durable = s.disk.durable
  entries : s'.entries = s.entries
  live : s'.live = s.live
  deleted : s'.deleted = s.deleted
  syncMissed : s'.syncMissed = s.syncMissed

theorem Untouched.refl (s : State) : Untouched s s := ⟨rfl, rfl, rfl, rfl, rfl, rfl⟩

variable {P : Entries → Prop}

/-- What a power loss may leave is the map in memory, unless a sync was missed. -/
theorem Coherent.missed_or_loads (h : Coherent s) (hP : P s.entries)
    {f : Option File} (hf : f ∈ s.disk.durable) :
    s.syncMissed = true ∨ ∃ m, P m ∧ KeysParse m ∧ Loads f m := by
  rcases h.synced with honly | hmissed
  · rw [honly] at hf
    rw [List.mem_singleton.mp hf]
    exact .inr ⟨s.entries, hP, h.parse, h.loads⟩
  · exact .inl hmissed

theorem Coherent.underway (h : Coherent s) (hP : P s.entries)
    (hsame : Untouched s s') : Underway s P s' := by
  refine ⟨⟨s.entries, hP, h.parse, ?_⟩, ?_, fun f hf => ?_, [], ?_, ?_⟩
  · rw [hsame.file]
    exact h.loads
  · rw [hsame.file, hsame.durable]
    exact h.current
  · rw [hsame.durable] at hf
    rw [hsame.syncMissed]
    exact (h.missed_or_loads hP hf).imp_left fun hmissed => ⟨hf, hmissed, hmissed⟩
  · rw [hsame.deleted, List.append_nil]
  · intro d hd
    cases hd

theorem Coherent.of_untouched (h : Coherent s) (hsame : Untouched s s') : Coherent s' := by
  constructor
  · rw [hsame.file, hsame.entries]
    exact h.loads
  · rw [hsame.entries]
    exact h.parse
  · rw [hsame.file, hsame.durable]
    exact h.current
  · rw [hsame.durable]
    exact h.durable
  · rw [hsame.durable, hsame.file, hsame.syncMissed]
    exact h.synced

/-! ## One operation -/

section
variable {mid : State → Prop} {ret : Unit → State → Prop} {exc : Err → State → Prop} {op : Op}

/-- One operation on the store, whether it goes wrong or not. -/
theorem safe_op (hmid : mid s) (hdone : mid (apply s op) ∧ ret () (apply s op))
    (hfailed : ∀ e, op ≠ .read → (∀ entries, op ≠ .assign entries) → e ≠ .userInput →
      mid (applyFailed s op) ∧ exc e (applyFailed s op)) :
    Safe Answers mid ret exc (perform op) s := by
  unfold perform
  apply safe_bind (fun _ => ret ())
  · apply safe_perform hmid
    · intro s' hanswer
      cases hanswer
      exact hdone
    · intro e s' hanswer
      cases hanswer
      exact hfailed e ‹_› ‹_› ‹_›
  · exact fun _ s' hmid hret => safe_done hmid hret

/-- An operation that leaves everything but the temporary file. -/
theorem safe_untouched {start : State} (h : Untouched start s)
    (hdone : Untouched start (apply s op)) (hfailed : Untouched start (applyFailed s op))
    (hret : ret () (apply s op)) :
    Safe Answers (Untouched start) ret (fun _ => Untouched start) (perform op) s :=
  safe_op h ⟨hdone, hret⟩ fun _ _ _ _ => ⟨hfailed, hfailed⟩

end

/-- The new map is in the temporary file, durably. -/
def Staged (start : State) (new : Entries) (s : State) : Prop :=
  Untouched start s ∧ s.disk.temporary = some (.whole (encode new)) ∧ s.disk.temporarySynced = true

/-- Writing the temporary file leaves the map alone. -/
theorem safe_writeTemporary (start : State) (new : Entries) (h : Untouched start s) :
    Safe Answers (Untouched start) (fun _ => Staged start new) (fun _ => Untouched start)
      (writeTemporary new) s := by
  have hsame (op : Op) {s : State} (h : Untouched start s)
      (happly : Untouched s (apply s op)) : Untouched start (apply s op) :=
    ⟨happly.file.trans h.file, happly.durable.trans h.durable, happly.entries.trans h.entries,
      happly.live.trans h.live, happly.deleted.trans h.deleted,
      happly.syncMissed.trans h.syncMissed⟩
  unfold writeTemporary
  apply safe_bind (fun _ => Untouched start)
  · have hopen := hsame .openTemporary h ⟨rfl, rfl, rfl, rfl, rfl, rfl⟩
    exact safe_untouched h hopen h hopen
  · intro _ s1 h1 _
    apply safe_bind (fun _ => Staged start new)
    · apply safe_onRaise (fun _ => Untouched start)
      · apply safe_bind (fun _ s => Untouched start s ∧
          s.disk.temporary = some (.whole (encode new)))
        · have hdump : Untouched start (apply s1 (.dump (encode new))) :=
            hsame _ h1 ⟨rfl, rfl, rfl, rfl, rfl, rfl⟩
          have hfailed : Untouched start (applyFailed s1 (.dump (encode new))) :=
            ⟨h1.file, h1.durable, h1.entries, h1.live, h1.deleted, h1.syncMissed⟩
          exact safe_untouched h1 hdump hfailed ⟨hdump, rfl⟩
        · intro _ s2 h2 hdumped
          have hsync : Untouched start (apply s2 .syncTemporary) :=
            hsame _ h2 ⟨rfl, rfl, rfl, rfl, rfl, rfl⟩
          exact safe_untouched h2 hsync h2 ⟨hsync, hdumped.2, rfl⟩
      · intro e s2 h2 _
        -- the file is closed, and the error goes on
        apply safe_bind (fun _ => Untouched start)
        · exact safe_untouched h2 h2 h2 h2
        · exact fun _ s3 h3 _ => safe_raise h3 h3
    · intro _ s2 h2 hstaged
      exact safe_untouched h2 h2 h2 hstaged

/-- The file is the new one; the directory may not be synced yet. -/
structure Replaced (start : State) (new : Entries) (s : State) : Prop where
  file : s.disk.file = some (.whole (encode new))
  current : s.disk.file ∈ s.disk.durable
  durable : ∀ f ∈ s.disk.durable,
    (f ∈ start.disk.durable ∧ (start.syncMissed = true → s.syncMissed = true)) ∨
      f = some (.whole (encode new))
  deleted : s.deleted = start.deleted

/-- The memory follows, and the sync of the directory went through or was missed. -/
structure Written (start : State) (new : Entries) (s : State) : Prop where
  replaced : Replaced start new s
  entries : s.entries = new
  synced : s.disk.durable = [s.disk.file] ∨ s.syncMissed = true

/-- A power loss leaves the file, and no older one. -/
def Durable (s : State) : Prop := s.disk.durable = [s.disk.file] ∧ s.syncMissed = false

/-- Before the directory is synced the map is the old or the new one. -/
theorem Replaced.underway {start : State} (h : Replaced start new s) (hstart : Coherent start)
    (hnew : KeysParse new) (hold : P start.entries) (hP : P new) :
    Underway start P s := by
  have hloads := loads_encode hnew
  refine ⟨⟨new, hP, hnew, ?_⟩, h.current, fun f hf => ?_, [], ?_, ?_⟩
  · rw [h.file]
    exact hloads
  · rcases h.durable f hf with hbefore | hf
    · exact (hstart.missed_or_loads hold hbefore.1).imp_left fun hmissed =>
        ⟨hbefore.1, hmissed, hbefore.2 hmissed⟩
    · rw [hf]
      exact .inr ⟨new, hP, hnew, hloads⟩
  · rw [h.deleted, List.append_nil]
  · intro d hd
    cases hd

theorem Written.coherent {start : State} (h : Written start new s) (hstart : Coherent start)
    (hnew : KeysParse new) : Coherent s := by
  have hloads := loads_encode hnew
  constructor
  · rw [h.replaced.file, h.entries]
    exact hloads
  · rw [h.entries]
    exact hnew
  · exact h.replaced.current
  · intro f hf
    rcases h.replaced.durable f hf with hbefore | hf
    · exact hstart.durable f hbefore.1
    · rw [hf]
      exact ⟨new, hnew, hloads⟩
  · exact h.synced

/-- The rest of a write, once the file is replaced and the memory follows. -/
theorem safe_syncParent {start : State} (h : Replaced start new s) (hentries : s.entries = new) :
    Safe Answers (Replaced start new) (fun _ s' => Written start new s' ∧ Durable s')
      (fun _ => Written start new) syncParent s := by
  have hmissed : Written start new { s with syncMissed := true } :=
    ⟨⟨h.file, h.current, fun f hf => (h.durable f hf).imp_left fun hbefore =>
      ⟨hbefore.1, fun _ => rfl⟩, h.deleted⟩, hentries, .inr rfl⟩
  unfold syncParent
  apply safe_bind (fun _ s' => s' = s)
  · exact safe_op h ⟨h, rfl⟩ fun _ _ _ _ => ⟨hmissed.replaced, hmissed⟩
  · intro _ s1 _ heq
    subst heq
    have hsynced : Written start new (apply s1 .syncDirectory) := by
      refine ⟨⟨h.file, List.mem_singleton_self _, fun f hf => ?_, h.deleted⟩, hentries, .inl rfl⟩
      rw [List.mem_singleton.mp hf]
      exact .inr h.file
    apply safe_bind (fun _ s' => Written start new s' ∧ Durable s')
    · apply safe_onRaise (fun _ => Written start new)
      · exact safe_op h ⟨hsynced.replaced, hsynced, rfl, rfl⟩
          fun _ _ _ _ => ⟨hmissed.replaced, hmissed⟩
      · intro e s2 h2 hwritten
        -- the directory is closed, and the error goes on
        apply safe_bind (fun _ => Written start new)
        · exact safe_op h2 ⟨h2, hwritten⟩ fun _ _ _ _ => ⟨h2, hwritten⟩
        · exact fun _ s3 h3 hwritten3 => safe_raise h3 hwritten3
    · intro _ s2 h2 hwritten
      exact safe_op h2 ⟨h2, hwritten⟩ fun _ _ _ _ => ⟨h2, hwritten.1⟩

/-- The states of a write from any state. -/
theorem safe_writeSteps (s : State) (new : Entries) :
    Safe Answers (fun s' => Untouched s s' ∨ Replaced s new s')
      (fun _ s' => Written s new s' ∧ Durable s')
      (fun _ s' => Untouched s s' ∨ Written s new s') (write new) s := by
  unfold write
  apply safe_bind (fun _ => Staged s new)
  · exact (safe_writeTemporary s new (.refl s)).mono (fun _ h => .inl h) (fun _ _ _ h => h)
      fun _ _ _ h => .inl h
  · intro _ s1 _ hstaged
    obtain ⟨huntouched, htemporary, hsynced⟩ := hstaged
    have hreplaced : Replaced s new (apply s1 .replace) := by
      have hfile : (if s1.disk.temporarySynced then s1.disk.temporary else some .torn) =
          some (.whole (encode new)) := by rw [if_pos hsynced, htemporary]
      refine ⟨htemporary, ?_, fun f hf => ?_, huntouched.deleted⟩
      · show s1.disk.temporary ∈ (if s1.disk.temporarySynced then s1.disk.temporary
          else some .torn) :: s1.disk.durable
        rw [hfile, htemporary]
        exact List.mem_cons_self ..
      · change f ∈ (if s1.disk.temporarySynced then s1.disk.temporary
          else some .torn) :: s1.disk.durable at hf
        rw [hfile, huntouched.durable] at hf
        rcases List.mem_cons.mp hf with hf | hf
        · exact .inr hf
        · exact .inl ⟨hf, huntouched.syncMissed.trans⟩
    apply safe_bind (fun _ => Replaced s new)
    · exact safe_op (.inl huntouched) ⟨.inr hreplaced, hreplaced⟩
        fun _ _ _ _ => ⟨.inl huntouched, .inl huntouched⟩
    · intro _ s2 _ h2
      apply safe_bind (fun _ s' => Replaced s new s' ∧ s'.entries = new)
      · have hassigned : Replaced s new (apply s2 (.assign new)) :=
          ⟨h2.file, h2.current, h2.durable, h2.deleted⟩
        refine safe_op (.inr h2) ⟨.inr hassigned, hassigned, rfl⟩ fun _ _ hassign _ => ?_
        exact absurd rfl (hassign new)
      · intro _ s3 _ h3
        exact (safe_syncParent h3.1 h3.2).mono (fun _ h => .inr h) (fun _ _ _ h => h)
          fun _ _ _ h => .inr h

/-- Every state of a write from a coherent one, and how it ends. -/
theorem safe_write (h : Coherent s) (hnew : KeysParse new)
    (hold : P s.entries) (hP : P new) :
    Safe Answers (Underway s P) (fun _ s' => s'.entries = new ∧ Coherent s' ∧ Durable s')
      (fun _ => Ended P) (write new) s := by
  apply (safe_writeSteps s new).mono
  · intro s' h'
    rcases h' with huntouched | hreplaced
    · exact h.underway hold huntouched
    · exact hreplaced.underway h hnew hold hP
  · exact fun _ s' _ h' => ⟨h'.1.entries, h'.1.coherent h hnew, h'.2⟩
  · intro _ s' _ h'
    rcases h' with huntouched | hwritten
    · exact ⟨by rw [huntouched.entries]; exact hold, h.of_untouched huntouched⟩
    · exact ⟨by rw [hwritten.entries]; exact hP, hwritten.coherent h hnew⟩

/-- Nothing was written, or all of it is durable. -/
def Flushed (s s' : State) : Prop :=
  s'.disk.durable = s.disk.durable ∨ s'.disk.durable = [s'.disk.file]

/-- The state is read without a failure. -/
theorem safe_read {start : State} {α : Type} {ret : α → State → Prop}
    {exc : Err → State → Prop} {next : State → Program α} (hunderway : Underway start P s)
    (hnext : Safe Answers (Underway start P) ret exc (next s) s) :
    Safe Answers (Underway start P) ret exc (Prog.perform .read >>= next) s := by
  apply safe_bind (fun v s' => v = s ∧ s' = s)
  · apply safe_perform hunderway
    · intro s' hanswer
      cases hanswer
      exact ⟨hunderway, rfl, rfl⟩
    · intro e s' hanswer
      cases hanswer with
      | failed _ _ hread _ => exact absurd rfl hread
  · intro v s' _ heq
    rw [heq.1, heq.2]
    exact hnext

/-- Dropping an entry, at every point where it may stop. -/
theorem safe_drop (h : Coherent s) (hold : P s.entries)
    (herase : P (s.entries.erase path)) :
    Safe Answers (Underway s P) (fun _ s' => Ended P s' ∧ Flushed s s') (fun _ => Ended P)
      (drop path) s := by
  have hunderway := h.underway hold (.refl s)
  apply safe_read hunderway
  split
  · refine (safe_write h (h.parse.erase path) hold herase).mono (fun _ h => h) ?_ fun _ _ _ h => h
    intro _ s' _ hstored
    refine ⟨⟨?_, hstored.2.1⟩, .inr hstored.2.2.1⟩
    rw [hstored.1]
    exact herase
  · exact safe_done hunderway ⟨⟨hold, h⟩, .inl rfl⟩

/-- The maps that `set` may lead to. -/
def setTo (old : Entries) (path commitId : String) (ttlSeconds : Option Int) (now : ℚ) : Entries :=
  match ttlSeconds with
  | none => old.erase path
  | some ttl => old.set path ⟨commitId, now + ttl⟩

/-- Setting an entry, at every point where it may stop. -/
theorem safe_set (h : Coherent s) (path : TinkerPath) (commitId : String)
    (ttlSeconds : Option Int) (now : ℚ) (hold : P s.entries)
    (hset : P (setTo s.entries path.text commitId ttlSeconds now)) :
    Safe Answers (Underway s P) (fun _ s' => Ended P s' ∧ Flushed s s') (fun _ => Ended P)
      (set path.text commitId ttlSeconds now) s := by
  have hunderway := h.underway hold (.refl s)
  unfold CheckpointExpiry.set
  apply safe_bind (fun _ s' => s' = s)
  · exact safe_require hunderway (fun _ => rfl) fun _ => ⟨hold, h⟩
  · intro _ s' _ heq
    subst heq
    cases ttlSeconds with
    | none => exact safe_drop h hold hset
    | some ttl =>
      apply safe_read hunderway
      refine (safe_write h (h.parse.set path _) hold hset).mono (fun _ h => h) ?_ fun _ _ _ h => h
      intro _ s1 _ hstored
      refine ⟨⟨?_, hstored.2.1⟩, .inr hstored.2.2.1⟩
      rw [hstored.1]
      exact hset

theorem Underway.trans {s1 : State} {P Q : Entries → Prop} (h : Underway s P s1)
    (h' : Underway s1 Q s') (hQ : ∀ m, Q m → P m) : Underway s P s' := by
  refine ⟨?_, h'.current, fun f hf => ?_, ?_⟩
  · obtain ⟨m, hm, hrest⟩ := h'.file
    exact ⟨m, hQ m hm, hrest⟩
  · rcases h'.durable f hf with hbefore | hloads
    · exact (h.durable f hbefore.1).imp_left fun hfirst => ⟨hfirst.1, hfirst.2.1, hbefore.2.2⟩
    · obtain ⟨m, hm, hrest⟩ := hloads
      exact .inr ⟨m, hQ m hm, hrest⟩
  · obtain ⟨more, hmore, hall⟩ := h.deleted
    obtain ⟨more', hmore', hall'⟩ := h'.deleted
    refine ⟨more ++ more', by rw [hmore', hmore, List.append_assoc], fun d hd => ?_⟩
    rcases List.mem_append.mp hd with hd | hd
    · exact hall d hd
    · exact hall' d hd

/-- A checkpoint is deleted, and then its entry dropped. -/
theorem safe_deleteCheckpoint (h : Coherent s) {entry : Option Expiry}
    (hlive : ∀ e ∈ entry, s.live.get? path = some e.commitId)
    (hold : P s.entries) (herase : P (s.entries.erase path)) :
    Safe Answers (Underway s P) (fun _ s' => Ended P s' ∧ Flushed s s') (fun _ => Ended P)
      (deleteCheckpoint path entry) s := by
  have hunderway := h.underway hold (.refl s)
  have hdeleted : Underway s P (apply s (.delete path entry)) := by
    refine ⟨hunderway.file, hunderway.current, hunderway.durable, _, rfl, fun d hd => ?_⟩
    obtain ⟨e, he, hd⟩ := List.mem_map.mp hd
    rw [← hd]
    exact hlive e (Option.mem_toList.mp he)
  have hcoherent : Coherent (apply s (.delete path entry)) :=
    ⟨h.loads, h.parse, h.current, h.durable, h.synced⟩
  apply safe_bind (fun _ s' => s' = apply s (.delete path entry))
  · exact safe_op hunderway ⟨hdeleted, rfl⟩ fun _ _ _ _ => ⟨hunderway, hold, h⟩
  · intro _ s' _ heq
    subst heq
    exact (safe_drop hcoherent hold herase).mono (fun s' h' => hdeleted.trans h' fun _ hm => hm)
      (fun _ s' _ h' => h') fun _ s' _ h' => h'

/-- One expired entry: the checkpoint is deleted only if its commit is the one of the entry. -/
theorem safe_expireEntry (h : Coherent s) (path : String) (entry : Expiry)
    (hold : P s.entries) (herase : P (s.entries.erase path)) :
    Safe Answers (Underway s P) (fun _ => Ended P) (fun _ => Ended P) (expireEntry path entry) s := by
  have hunderway := h.underway hold (.refl s)
  unfold expireEntry
  apply safe_bind (fun v s' => v = s ∧ s' = s)
  · apply safe_perform hunderway
    · intro s' hanswer
      cases hanswer
      exact ⟨hunderway, rfl, rfl⟩
    · intro e s' hanswer
      cases hanswer
      exact ⟨hunderway, hold, h⟩
  · intro v s' _ heq
    obtain ⟨hv, hs'⟩ := heq
    subst hv hs'
    split
    · rename_i hlive
      apply (safe_deleteCheckpoint h _ hold herase).mono (fun _ h => h) (fun _ _ _ h => h.1)
        fun _ _ _ h => h
      intro e he
      cases he
      exact hlive
    · exact (safe_drop h hold herase).mono (fun _ h => h) (fun _ _ _ h => h.1) fun _ _ _ h => h

/-- The maps that a sweep may lead to: some of the expired entries are gone. -/
def SweptFrom (old : Entries) (now : ℚ) (m : Entries) : Prop :=
  ∃ paths : List String, (∀ p ∈ paths, ∃ e ∈ old.get? p, e.expiresAt ≤ now) ∧
    m = old.eraseAll paths

/-- A sweep goes on with one expired entry less. -/
theorem SweptFrom.erase {now : ℚ} (h : SweptFrom old now m)
    (hpath : ∃ e ∈ old.get? path, e.expiresAt ≤ now) : SweptFrom old now (m.erase path) := by
  obtain ⟨paths, hpaths, hm⟩ := h
  refine ⟨paths ++ [path], fun p hp => ?_, ?_⟩
  · rcases List.mem_append.mp hp with hp | hp
    · exact hpaths p hp
    · rw [List.mem_singleton.mp hp]
      exact hpath
  · rw [hm, PyDict.eraseAll, PyDict.eraseAll, List.foldl_append]
    rfl

theorem mem_expired {now : ℚ} {p : String × Expiry} (h : p ∈ expired old now) :
    ∃ e ∈ old.get? p.1, e.expiresAt ≤ now := by
  have hmem := List.mem_filter.mp ((List.mergeSort_perm _ _).mem_iff.mp h)
  exact ⟨p.2, PyDict.get?_eq_some.mpr hmem.1, of_decide_eq_true hmem.2⟩

/-- A sweep only erases expired entries, wherever it stops. -/
theorem safe_sweep (h : Coherent s) (now : ℚ) :
    Safe Answers (Underway s (SweptFrom s.entries now)) (fun _ => Ended (SweptFrom s.entries now))
      (fun _ => Ended (SweptFrom s.entries now)) (sweep now) s := by
  have hstart : SweptFrom s.entries now s.entries := ⟨[], fun _ hp => absurd hp List.not_mem_nil, rfl⟩
  have hunderway := h.underway hstart (.refl s)
  apply safe_read hunderway
  -- each round starts from an ended one
  apply safe_forM (fun xs s' => (∀ p ∈ xs, ∃ e ∈ s.entries.get? p.1, e.expiresAt ≤ now) ∧
    Underway s (SweptFrom s.entries now) s' ∧ Ended (SweptFrom s.entries now) s')
  · exact fun _ _ h => h.2.1
  · intro p rest s1 h1
    obtain ⟨hall, hunderway1, hswept, hcoherent⟩ := h1
    have hpath := hall p (List.mem_cons_self ..)
    have hrest : ∀ q ∈ rest, ∃ e ∈ s.entries.get? q.1, e.expiresAt ≤ now :=
      fun q hq => hall q (List.mem_cons_of_mem _ hq)
    have hround := safe_expireEntry hcoherent p.1 p.2
      (P := SweptFrom s.entries now) hswept (hswept.erase hpath)
    apply safe_onRaise (fun _ => Ended (SweptFrom s.entries now))
    · exact hround.mono (fun s2 h2 => hunderway1.trans h2 fun _ hm => hm)
        (fun _ s2 h2 hended => ⟨hrest, hunderway1.trans h2 fun _ hm => hm, hended⟩)
        fun _ _ _ hended => hended
    · intro e s2 h2 hended
      split
      · exact safe_raise h2 hended
      · exact safe_done h2 ⟨hrest, h2, hended⟩
  · exact fun _ h => h.2.2
  · exact ⟨fun p hp => mem_expired hp, hunderway, hstart, h⟩

/-! ## Every run -/

/-- The maps that an operation may lead to. -/
def After (old : Entries) : Operation → Entries → Prop
  | .set path commitId ttlSeconds now, m =>
    m = old ∨ m = setTo old path.text commitId ttlSeconds now
  | .drop path, m => m = old ∨ m = old.erase path
  | .delete path, m => m = old ∨ m = old.erase path
  | .sweep now, m => SweptFrom old now m

/-- Operations that write once at most -/
def Operation.IsSweep : Operation → Prop
  | .sweep _ => True
  | _ => False

/-- Every operation, at every point where it may stop. -/
theorem safe_operation (h : Coherent s) (op : Operation) :
    Safe Answers (Underway s (After s.entries op))
      (fun _ s' => Ended (After s.entries op) s' ∧ (¬ op.IsSweep → Flushed s s'))
      (fun _ => Ended (After s.entries op)) op.program s := by
  cases op with
  | set path commitId ttlSeconds now =>
    exact (safe_set h path commitId ttlSeconds now (P := After s.entries (.set path commitId
      ttlSeconds now)) (.inl rfl) (.inr rfl)).mono (fun _ h => h)
      (fun _ _ _ h => ⟨h.1, fun _ => h.2⟩) fun _ _ _ h => h
  | drop path =>
    exact (safe_drop h (P := After s.entries (.drop path)) (.inl rfl) (.inr rfl)).mono
      (fun _ h => h) (fun _ _ _ h => ⟨h.1, fun _ => h.2⟩) fun _ _ _ h => h
  | sweep now =>
    exact (safe_sweep h now).mono (fun _ h => h)
      (fun _ _ _ h => ⟨h, fun hsweep => absurd trivial hsweep⟩) fun _ _ _ h => h
  | delete path =>
    exact (safe_deleteCheckpoint h (fun e he => by cases he) (P := After s.entries (.delete path))
      (.inl rfl) (.inr rfl)).mono (fun _ h => h) (fun _ _ _ h => ⟨h.1, fun _ => h.2⟩)
      fun _ _ _ h => h

/-- The states in which no operation is under way: after any number of operations that returned or
    raised, commits, and crashes of the process or of the machine at any point of an operation. -/
inductive Reachable : State → Prop
  | start (live : PyDict String String) :
      Reachable ⟨⟨none, [none], none, false⟩, PyDict.empty, live, [], false⟩
  | operation {s s' : State} (h : Reachable s) (op : Operation) {o : Outcome Err Unit}
      (hrun : Runs Answers op.program s o s') (hended : o ≠ .crashed) : Reachable s'
  | commit {s : State} (h : Reachable s) (live : PyDict String String) :
      Reachable { s with live := live }
  | crash {s s' s'' : State} (h : Reachable s) (op : Operation) {o : Outcome Err Unit}
      (hrun : Runs Answers op.program s o s') (hrestart : restart s' = some s'') : Reachable s''
  | powerLoss {s s' s'' : State} (h : Reachable s) (op : Operation) {o : Outcome Err Unit}
      (hrun : Runs Answers op.program s o s') (file : Option File) (hfile : file ∈ s'.disk.durable)
      (hrestart : restartAfterPowerLoss s' file = some s'') : Reachable s''

theorem Same.refl (m : Entries) : Same m m := fun _ => rfl

/-- A file that alone may come back is the one that the path names. -/
theorem synced_of_current {file : Option File} {durable : List (Option File)} {missed : Bool}
    (h : file ∈ durable) : durable = [file] ∨ (missed || decide (1 < durable.length)) = true := by
  cases durable with
  | nil => cases h
  | cons f rest =>
    cases rest with
    | nil => exact .inl (by rw [List.mem_singleton.mp h])
    | cons _ _ => exact .inr (by simp)

/-- The file and the map of a reachable state agree. -/
theorem coherent_of_reachable (h : Reachable s) : Coherent s := by
  induction h with
  | start live =>
    refine ⟨⟨_, rfl, .refl _⟩, fun k hk => ?_, List.mem_singleton_self _, fun f hf => ?_, .inl rfl⟩
    · cases hk
    · rw [List.mem_singleton.mp hf]
      refine ⟨PyDict.empty, fun k hk => ?_, _, rfl, .refl _⟩
      cases hk
  | operation _ op hrun hended ih =>
    have hends := ((safe_operation ih op).run hrun).2
    rename_i o
    cases o with
    | returned a => exact hends.1.2
    | raised e => exact hends.2
    | crashed => exact absurd rfl hended
  | commit _ live ih => exact ⟨ih.loads, ih.parse, ih.current, ih.durable, ih.synced⟩
  | crash _ op hrun hrestart ih =>
    have hunderway := ((safe_operation ih op).run hrun).1
    obtain ⟨entries, hload, hs⟩ := Option.map_eq_some_iff.mp hrestart
    obtain ⟨m, -, hparse, d, hd, hsame⟩ := hunderway.file
    rw [hload] at hd
    cases hd
    rw [← hs]
    refine ⟨⟨entries, hload, .refl _⟩, hsame.keysParse hparse, hunderway.current, fun f hf => ?_,
      synced_of_current hunderway.current⟩
    rcases hunderway.durable f hf with hold | hnew
    · exact ih.durable f hold.1
    · obtain ⟨m, -, hrest⟩ := hnew
      exact ⟨m, hrest⟩
  | powerLoss _ op hrun file hfile hrestart ih =>
    have hunderway := ((safe_operation ih op).run hrun).1
    obtain ⟨entries, hload, hs⟩ := Option.map_eq_some_iff.mp hrestart
    have hloads : ∃ m, KeysParse m ∧ Loads file m := by
      rcases hunderway.durable file hfile with hold | hnew
      · exact ih.durable file hold.1
      · obtain ⟨m, -, hrest⟩ := hnew
        exact ⟨m, hrest⟩
    obtain ⟨m, hparse, d, hd, hsame⟩ := hloads
    rw [hload] at hd
    cases hd
    rw [← hs]
    refine ⟨⟨entries, hload, .refl _⟩, hsame.keysParse hparse, List.mem_singleton_self _,
      fun f hf => ?_, .inl rfl⟩
    rw [List.mem_singleton.mp hf]
    exact ⟨entries, hsame.keysParse hparse, entries, hload, .refl _⟩

/-- For every reachable state, every operation and every step of it that fails or is the last one
    before a crash. When the operation has returned or raised, the memory and the file have one map,
    which is the old or the new one, and a power loss leaves the file alone unless a sync of the
    directory was missed since the last one that went through. If the process crashed, the file
    loads to the old or the new map; after a power loss, the path may also name an older file that
    it could name before the operation, only where a sync was missed before it and none has gone
    through since. A write that returns is durable, whichever operation it is a part of. A sweep
    deletes a checkpoint only if its live commit is the one that the expired entry was recorded
    for. -/
theorem expiry_store (s s' : State) (op : Operation) (o : Outcome Err Unit) (h : Reachable s)
    (hrun : Runs Answers op.program s o s') :
    (o ≠ .crashed → Loads s'.disk.file s'.entries ∧ After s.entries op s'.entries ∧
      (s'.disk.durable = [s'.disk.file] ∨ s'.syncMissed = true)) ∧
    (∃ m, After s.entries op m ∧ Loads s'.disk.file m) ∧
    (∀ f ∈ s'.disk.durable, (∃ m, After s.entries op m ∧ Loads f m) ∨
      (f ∈ s.disk.durable ∧ s.syncMissed = true ∧ s'.syncMissed = true ∧ ∃ m, Loads f m)) ∧
    (∀ a, o = .returned a → ¬ op.IsSweep →
      s'.disk.durable = s.disk.durable ∨ s'.disk.durable = [s'.disk.file]) ∧
    (∀ new before after a, Runs Answers (write new) before (.returned a) after →
      after.entries = new ∧ after.disk.file = some (.whole (encode new)) ∧
        after.disk.durable = [after.disk.file] ∧ after.syncMissed = false) ∧
    ∃ more, s'.deleted = s.deleted ++ more ∧ ∀ d ∈ more, d.1 = some d.2.commitId := by
  have hcoherent := coherent_of_reachable h
  obtain ⟨hunderway, hends⟩ := (safe_operation hcoherent op).run hrun
  refine ⟨fun hended => ?_, ?_, fun f hf => ?_, fun a ha hsweep => ?_,
    fun new before after a hwrite => ?_, hunderway.deleted⟩
  · cases o with
    | returned a => exact ⟨hends.1.2.loads, hends.1.1, hends.1.2.synced⟩
    | raised e => exact ⟨hends.2.loads, hends.1, hends.2.synced⟩
    | crashed => exact absurd rfl hended
  · obtain ⟨m, hm, -, hloads⟩ := hunderway.file
    exact ⟨m, hm, hloads⟩
  · rcases hunderway.durable f hf with hold | hnew
    · obtain ⟨m, -, hloads⟩ := hcoherent.durable f hold.1
      exact .inr ⟨hold.1, hold.2.1, hold.2.2, m, hloads⟩
    · obtain ⟨m, hm, -, hloads⟩ := hnew
      exact .inl ⟨m, hm, hloads⟩
  · rw [ha] at hends
    exact hends.2 hsweep
  · obtain ⟨hwritten, hdurable⟩ := ((safe_writeSteps before new).run hwrite).2
    exact ⟨hwritten.entries, hwritten.replaced.file, hdurable⟩

/-! ## Examples of runs -/

theorem answers_answer (fault : Bool) (op : Op) (s : State) :
    Answers op s (answer fault op s).1 (answer fault op s).2 := by
  cases op with
  | read => exact .done .read s
  | assign entries => exact .done (.assign entries) s
  | _ =>
    cases fault with
    | false => exact .done _ s
    | true =>
      apply Answers.failed
      · decide
      · intro h
        cases h
      · intro entries h
        cases h

/-- Two checkpoints of one model -/
def firstPath : TinkerPath := ⟨"tinker://model/weights/first", by decide +kernel⟩

def secondPath : TinkerPath := ⟨"tinker://model/weights/second", by decide +kernel⟩

/-- A process that has just started without a file. -/
def startState : State :=
  ⟨⟨none, [none], none, false⟩, PyDict.empty, PyDict.empty, [], false⟩

/-- An expiry is recorded without a failure. -/
theorem expiry_store_set :
    ∃ s', Runs Answers (Operation.set firstPath "c1" (some 3600) 100).program startState
        (.returned ()) s' ∧ s'.entries.get? firstPath.text = some ⟨"c1", 3700⟩ ∧
      Loads s'.disk.file s'.entries := by
  have hrun := play_runs answers_answer
    (CheckpointExpiry.set firstPath.text "c1" (some 3600) 100) (List.replicate 11 false) startState
  have hreturned : (Prog.play answer (CheckpointExpiry.set firstPath.text "c1" (some 3600) 100)
      (List.replicate 11 false) startState).1 = .returned () := rfl
  rw [hreturned] at hrun
  refine ⟨_, hrun, by decide +kernel, ?_⟩
  exact ((expiry_store startState _ (.set firstPath "c1" (some 3600) 100) _ (.start _) hrun).1
    (by decide)).1

/-- The directory sync of a first write fails, and the power is lost in a second one: the file is
    gone, though the first expiry was in force. -/
theorem power_loss_before_failed_sync :
    ∃ s s' file m, Reachable s ∧
      Runs Answers (Operation.set secondPath "c2" (some 3600) 200).program s .crashed s' ∧
      file ∈ s'.disk.durable ∧ load file = some m ∧
      ∀ k, After s.entries (.set secondPath "c2" (some 3600) 200) k → ¬ Same m k := by
  have hrun := play_runs answers_answer
    (CheckpointExpiry.set firstPath.text "c1" (some 3600) 100)
    (List.replicate 8 false ++ [true, false]) startState
  have hraised : (Prog.play answer (CheckpointExpiry.set firstPath.text "c1" (some 3600) 100)
      (List.replicate 8 false ++ [true, false]) startState).1 = .raised .osError := rfl
  rw [hraised] at hrun
  have hreachable := Reachable.operation (.start _) (.set firstPath "c1" (some 3600) 100) hrun
    (by decide)
  refine ⟨_, _, none, PyDict.empty, hreachable, .crashed _ _, ?_, rfl, fun k hk hsame => ?_⟩
  · exact List.mem_cons_of_mem _ (List.mem_singleton_self _)
  · -- the first expiry is in both maps
    have hfirst : (k.get? firstPath.text).isSome := by
      rcases hk with hk | hk
      · rw [hk]
        decide +kernel
      · rw [hk]
        decide +kernel
    rw [← hsame firstPath.text] at hfirst
    cases hfirst

end Miles.CheckpointExpiry
