import Miles.Spec.Checkpoint.AdapterOps
import Miles.Spec.Checkpoint.AfterRecovery
import Miles.Spec.Checkpoint.CommitFailure

/-!
# Commits and crashes

Any sequence of operations of one committer, each of which may return, raise or stop between two
operations on the file system.
-/

namespace Miles.AdapterCommit

open CrashHoare

variable {C : Type} {root root' : Root C} {env : Env C} {owner : C → Option String}

/-! ## Operations -/

inductive Operation (C : Type) where
  | write (name : String) (commitId : CommitId) (content : C)
  | commit (name : String) (written : UncommittedAdapterDir) (overwrite : Bool) (token : CommitId)
  | delete (name : String) (tenant : Option String)
  | recover (name keep : Option String)
  | deleteRetired

/-- A program without its result -/
def discard {α : Type} (p : Program C α) : Program C Unit := do
  let _ ← p
  pure ()

def Operation.program (env : Env C) (owner : C → Option String) : Operation C → Program C Unit
  | .write name commitId content => discard (writeAdapterDir name commitId content)
  | .commit name written overwrite token =>
    discard (commitAdapterDir env name written overwrite token)
  | .delete name tenant => deleteAdapterDir env owner name tenant
  | .recover name keep => deleteUnreferencedAdapterDirs env name keep
  | .deleteRetired => deleteRetiredAdapterDirs env

/-- The name that an operation is about; none for all of them. -/
def Operation.scope : Operation C → Option String
  | .write name _ _ => some name
  | .commit name _ _ _ => some name
  | .delete name _ => some name
  | .recover name _ => name
  | .deleteRetired => none

/-- The commit ids are fresh, and what is committed was written to its end. -/
def Operation.Allowed (root : Root C) : Operation C → Prop
  | .write name commitId _ =>
    IsLineName name ∧ ∀ x, root.get? x ≠ some (.link (.here (physicalDir name commitId)))
  | .commit name written _ token =>
    IsLineName name ∧ token ≠ written.commitId ∧
      (∀ c, root.get? (physicalDir name token) ≠ some (.dir c)) ∧
      root.get? written.path ≠ some (.dir none)
  | _ => True

/-- A name stands on a directory of its own, or is about to by an adoption. -/
def Holds (root : Root C) (name d : String) : Prop :=
  IsPhysical d name ∧ (root.get? name = some (.link (.here d)) ∨
    ∃ y, IsAdopting y name ∧ root.get? y = some (.link (.here d)))

/-- The directories that an operation may take away or move: what a name held, what a commit was
    given, and a directory under the name itself. -/
def Operation.Takes (root : Root C) (d : String) : Operation C → Prop
  | .commit name written _ _ => Holds root name d ∨ d = written.path ∨ d = name
  | .delete name _ => Holds root name d
  | _ => False

/-! ## Histories -/

/-- An operation, how it ended, and the root before and after it -/
structure Event (C : Type) where
  op : Operation C
  outcome : Outcome Err Unit
  before : Root C
  after : Root C

/-- One operation after the other; what is outside of the root may change in between. -/
inductive History (owner : C → Option String) : Root C → List (Event C) → Root C → Prop
  | start (root : Root C) : History owner root [] root
  | next {env : Env C} {op : Operation C} {o : Outcome Err Unit} {root root' root'' : Root C}
      {events : List (Event C)} (hallowed : op.Allowed root)
      (hrun : Runs (Answers NoFault) (op.program env owner) root o root')
      (hrest : History owner root' events root'') :
      History owner root (⟨op, o, root, root'⟩ :: events) root''

/-- A name stands for the directory that was committed, with all that was written to it. -/
def Committed (before : Root C) (written : UncommittedAdapterDir) (v : Version C) : Prop :=
  ∃ c, before.get? written.path = some (.dir (some c)) ∧ v = .linked written.path (some c)

/-- What a name stands for after an operation. A commit of a name that a user's link or file stands
    under does not return, and neither does a deletion. -/
def Event.Becomes (e : Event C) (n : String) (v v' : Version C) : Prop :=
  match e.op, e.outcome with
  | .commit name written _ _, .returned _ =>
    (n = name ∧ v.Own ∧ Committed e.before written v') ∨ (n ≠ name ∧ v' = v)
  | .commit name written _ _, .crashed =>
    v' = v ∨ (n = name ∧ v.Own ∧ Committed e.before written v')
  | .delete name _, .returned _ => (n = name ∧ v.Own ∧ v' = .nothing) ∨ (n ≠ name ∧ v' = v)
  | .delete name _, .crashed => v' = v ∨ (n = name ∧ v.Own ∧ v' = .nothing)
  | _, _ => v' = v

/-- What a name stands for after a sequence of them: the last commit that returned, or one that
    stopped. -/
def Ledger (n : String) : List (Event C) → Version C → Version C → Prop
  | [], v, v' => v' = v
  | e :: events, v, v' => ∃ v1, e.Becomes n v v1 ∧ Ledger n events v1 v'

/-- What one operation does. -/
structure Event.Correct (e : Event C) : Prop where
  tidy : Tidy e.after
  becomes : ∀ n v, internalEntry n = none → Stands e.before n v →
    ∃ v', e.Becomes n v v' ∧ Stands e.after n v'
  frame : ∀ x, ¬ InScope e.op.scope x → e.after.get? x = e.before.get? x
  live : ∀ x d c, Ordinary x → (∀ o, internalEntry d ≠ some (o, .deleting)) →
    e.before.get? x = some (.link (.here d)) → e.before.get? d = some (.dir c) →
    ¬ e.op.Takes e.before d → e.after.get? d = some (.dir c)

/-! ## One operation -/

theorem safe_discard {α : Type} {faults : Op C → Prop} {mid : Root C → Prop} {ret : α → Root C → Prop}
    {exc : Err → Root C → Prop} {p : Program C α}
    (h : Safe (Answers faults) mid ret exc p root) :
    Safe (Answers faults) mid (fun (_ : Unit) r => ∃ a, ret a r) exc (discard p) root :=
  safe_bind _ h fun a _ hmid hret => safe_done hmid ⟨a, hret⟩

/-- An operation that leaves every name what it stands for. -/
theorem Event.Correct.of_keeps {e : Event C} (h : Keeps e.op.scope e.before e.after)
    (hbecomes : ∀ n v, e.Becomes n v v)
    (hlive : ∀ x d c, Ordinary x → (∀ o, internalEntry d ≠ some (o, .deleting)) →
      e.before.get? x = some (.link (.here d)) → e.before.get? d = some (.dir c) →
      ¬ e.op.Takes e.before d → e.after.get? d = some (.dir c)) : e.Correct :=
  ⟨h.tidy, fun n v hn hv => ⟨v, hbecomes n v, h.stands n v hn hv⟩, h.frame, hlive⟩

variable {o : Outcome Err Unit}

/-- A write is correct, wherever it stops. -/
theorem correct_write {name : String} {id : CommitId} {content : C}
    (htidy : Tidy root) (hallowed : (Operation.write name id content).Allowed root)
    (hrun : Runs (Answers NoFault) ((Operation.write name id content).program env owner) root o root') :
    (Event.mk (.write name id content) o root root').Correct := by
  obtain ⟨hline, hfree⟩ := hallowed
  have hwriting := ((safe_discard (safe_write hline rfl hfree htidy)).run hrun).1
  apply Event.Correct.of_keeps
  · exact hwriting.keeps
  · exact fun _ _ => rfl
  · intro x d c _ _ hlink hdir _
    show root'.get? d = some (.dir c)
    rw [hwriting.others d]
    · exact hdir
    · intro heq
      rw [heq] at hlink
      exact hfree x hlink

/-- A recovery is correct, wherever it stops. -/
theorem correct_recover {name keep : Option String} (htidy : Tidy root)
    (hrun : Runs (Answers NoFault) ((Operation.recover name keep).program env owner) root o root') :
    (Event.mk (.recover name keep) o root root').Correct := by
  have hrecovers := ((safe_recovery htidy).run hrun).1
  apply Event.Correct.of_keeps
  · exact hrecovers.keeps
  · exact fun _ _ => rfl
  · exact fun x d c hx hd hlink hdir _ => (hrecovers.live x d c hx hd hlink hdir).2

theorem correct_deleteRetired (htidy : Tidy root)
    (hrun : Runs (Answers NoFault) (Operation.deleteRetired.program env owner) root o root') :
    (Event.mk .deleteRetired o root root').Correct := by
  have hrecovers := ((safe_deleteRetired htidy).run hrun).1
  apply Event.Correct.of_keeps
  · exact hrecovers.keeps
  · exact fun _ _ => rfl
  · exact fun x d c hx hd hlink hdir _ => (hrecovers.live x d c hx hd hlink hdir).2

/-- Before its name is removed a deletion has done nothing. -/
theorem correct_same {name : String} {tenant : Option String}
    (htidy : Tidy root) (ho : ∀ a, o ≠ .returned a) :
    (Event.mk (.delete name tenant) o root root).Correct := by
  apply Event.Correct.of_keeps
  · exact .refl htidy
  · intro n v
    cases o with
    | returned a => exact absurd rfl (ho a)
    | raised e => exact rfl
    | crashed => exact .inl rfl
  · exact fun x d c _ _ _ hdir _ => hdir

theorem correct_deleted {name : String} {tenant : Option String}
    (h : Deleted name root root') (ho : ∀ e, o ≠ .raised e) :
    (Event.mk (.delete name tenant) o root root').Correct := by
  refine ⟨h.tidy, fun n v hn hv => ?_, h.frame, fun x d c hx hd hlink hdir htakes => ?_⟩
  · by_cases heq : n = name
    · rw [heq] at hv
      have hown := h.own v hv
      refine ⟨.nothing, ?_, ?_⟩
      · cases o with
        | returned a => exact .inl ⟨heq, hown, rfl⟩
        | raised e => exact absurd rfl (ho e)
        | crashed => exact .inr ⟨heq, hown, rfl⟩
      · rw [heq]
        exact h.stands
    · refine ⟨v, ?_, h.others n v heq hn hv⟩
      cases o with
      | returned a => exact .inr ⟨heq, rfl⟩
      | raised e => exact absurd rfl (ho e)
      | crashed => exact .inl rfl
  · apply h.live d c
    exact ⟨⟨x, hx, hlink⟩, hdir, hd, fun hp hlinked => htakes ⟨hp, .inl hlinked⟩,
      fun hp y hy hadopting => htakes ⟨hp, .inr ⟨y, hy, hadopting⟩⟩⟩

/-- A delete is correct, wherever it stops. -/
theorem correct_delete {name : String} {tenant : Option String}
    (htidy : Tidy root)
    (hrun : Runs (Answers NoFault) ((Operation.delete name tenant).program env owner) root o root') :
    (Event.mk (.delete name tenant) o root root').Correct := by
  obtain ⟨hmid, hends⟩ := (safe_delete htidy).run hrun
  cases o with
  | returned a => exact correct_deleted hends fun e => by simp
  | raised e =>
    rw [show root' = root from hends]
    exact correct_same htidy fun a => by simp
  | crashed =>
    rcases hmid with hsame | hdeleted
    · rw [hsame]
      exact correct_same htidy fun a => by simp
    · exact correct_deleted hdeleted fun e => by simp

section
variable {name st : String} {written : UncommittedAdapterDir} {overwrite : Bool} {token : CommitId}
  {o : Outcome Err Unit}

/-- A commit that has not swapped the link. -/
theorem correct_before (hfresh : ∀ c, root.get? (physicalDir name token) ≠ some (.dir c))
    (h : Before name written.path st (physicalDir name token) root root')
    (ho : ∀ a, o ≠ .returned a) :
    (Event.mk (.commit name written overwrite token) o root root').Correct := by
  apply Event.Correct.of_keeps
  · exact h.keeps
  · intro n v
    cases o with
    | returned a => exact absurd rfl (ho a)
    | raised e => exact rfl
    | crashed => exact .inl rfl
  · intro x d c hx hd hlink hdir htakes
    have hne : d ≠ physicalDir name token := dir_ne hfresh hdir
    apply h.live d c (fun heq => htakes (.inr (.inl heq))) hne fun heq => htakes (.inr (.inr heq))
    exact ⟨⟨x, hx, hlink⟩, hdir, hd, fun hp hlinked => htakes (.inl ⟨hp, .inl hlinked⟩),
      fun hp y hy hadopting => htakes (.inl ⟨hp, .inr ⟨y, hy, hadopting⟩⟩)⟩

/-- One that has, whatever it did afterwards -/
theorem correct_swapped (hfresh : ∀ c, root.get? (physicalDir name token) ≠ some (.dir c))
    (hwhole : root.get? written.path ≠ some (.dir none))
    (h : Swapped name written.path (physicalDir name token) root root') (ho : ∀ e, o ≠ .raised e) :
    (Event.mk (.commit name written overwrite token) o root root').Correct := by
  refine ⟨h.tidy, fun n v hn hv => ?_, h.frame, fun x d c hx hd hlink hdir htakes => ?_⟩
  · by_cases heq : n = name
    · rw [heq] at hv
      have hown := h.own v hv
      obtain ⟨content, hthere⟩ := h.there
      cases content with
      | none => exact absurd hthere hwhole
      | some c =>
        have hcommitted : Committed root written (.linked written.path (some c)) :=
          ⟨c, hthere, rfl⟩
        refine ⟨.linked written.path (some c), ?_, ?_⟩
        · cases o with
          | returned a => exact .inl ⟨heq, hown, hcommitted⟩
          | raised e => exact absurd rfl (ho e)
          | crashed => exact .inr ⟨heq, hown, hcommitted⟩
        · rw [heq]
          exact ⟨h.linked, h.physical, h.kept _ hthere⟩
    · refine ⟨v, ?_, h.others n v heq hn hv⟩
      cases o with
      | returned a => exact .inr ⟨heq, rfl⟩
      | raised e => exact absurd rfl (ho e)
      | crashed => exact .inl rfl
  · have hne : d ≠ physicalDir name token := dir_ne hfresh hdir
    apply h.live d c (fun heq => htakes (.inr (.inl heq))) hne fun heq => htakes (.inr (.inr heq))
    exact ⟨⟨x, hx, hlink⟩, hdir, hd, fun hp hlinked => htakes (.inl ⟨hp, .inl hlinked⟩),
      fun hp y hy hadopting => htakes (.inl ⟨hp, .inr ⟨y, hy, hadopting⟩⟩)⟩

/-- A commit is correct, wherever it stops. -/
theorem correct_commit (htidy : Tidy root)
    (hallowed : (Operation.commit name written overwrite token).Allowed root)
    (hrun : Runs (Answers NoFault) ((Operation.commit name written overwrite token).program env owner)
      root o root') : (Event.mk (.commit name written overwrite token) o root root').Correct := by
  obtain ⟨hline, htoken, hfresh, hwhole⟩ := hallowed
  obtain ⟨hmid, hends⟩ := (safe_discard (safe_commit hline htoken rfl rfl rfl htidy)).run hrun
  cases o with
  | returned a =>
    obtain ⟨_, -, hswapped⟩ := hends
    exact correct_swapped hfresh hwhole hswapped fun e => by simp
  | raised e =>
    rcases hends with hundone | hswapped
    · exact correct_before hfresh hundone.before fun a => by simp
    · exact (hswapped.2.1.elim id id).elim
  | crashed =>
    rcases hmid with hbefore | hswapped
    · exact correct_before hfresh hbefore fun a => by simp
    · exact correct_swapped hfresh hwhole hswapped fun e => by simp

end

/-- What one operation does, however it ends. -/
theorem Event.correct {op : Operation C} (htidy : Tidy root)
    (hallowed : op.Allowed root) (hrun : Runs (Answers NoFault) (op.program env owner) root o root') :
    (Event.mk op o root root').Correct := by
  cases op with
  | write name id content => exact correct_write htidy hallowed hrun
  | commit name written overwrite token => exact correct_commit htidy hallowed hrun
  | delete name tenant => exact correct_delete htidy hrun
  | recover name keep => exact correct_recover htidy hrun
  | deleteRetired => exact correct_deleteRetired htidy hrun

/-! ## Any sequence of operations -/

variable {events : List (Event C)}

theorem History.correct (h : History owner root events root') (htidy : Tidy root) :
    Tidy root' ∧ (∀ e ∈ events, e.Correct) ∧ ∀ n v, internalEntry n = none → Stands root n v →
      ∃ v', Ledger n events v v' ∧ Stands root' n v' := by
  induction h with
  | start root =>
    refine ⟨htidy, fun e he => ?_, fun n v _ hv => ⟨v, rfl, hv⟩⟩
    cases he
  | next hallowed hrun hrest ih =>
    have hcorrect := Event.correct htidy hallowed hrun
    obtain ⟨htidy', hevents, hstands⟩ := ih hcorrect.tidy
    refine ⟨htidy', fun e he => ?_, fun n v hn hv => ?_⟩
    · rcases List.mem_cons.mp he with heq | hmem
      · rw [heq]
        exact hcorrect
      · exact hevents e hmem
    · obtain ⟨v1, hbecomes, hv1⟩ := hcorrect.becomes n v hn hv
      obtain ⟨v', hledger, hv'⟩ := hstands n v1 hn hv1
      exact ⟨v', ⟨v1, hbecomes, hledger⟩, hv'⟩

/-- Only a deletion takes a committed name away. -/
theorem Event.Becomes.linked {e : Event C} {n p : String} {c : Option C} {v' : Version C}
    (h : e.Becomes n (.linked p c) v') (hnot : ∀ tenant, e.op ≠ .delete n tenant) :
    ∃ p' c', v' = .linked p' c' := by
  have hsame (h : v' = .linked p c) : ∃ p' c', v' = .linked p' c' := ⟨p, c, h⟩
  obtain ⟨op, o, before, after⟩ := e
  cases op with
  | write name id content => exact hsame h
  | recover name keep => exact hsame h
  | deleteRetired => exact hsame h
  | commit name written overwrite token =>
    have hcommitted (h : Committed before written v') : ∃ p' c', v' = .linked p' c' := by
      obtain ⟨c', -, hv'⟩ := h
      exact ⟨written.path, some c', hv'⟩
    cases o with
    | returned a =>
      rcases h with h | h
      · exact hcommitted h.2.2
      · exact hsame h.2
    | raised e => exact hsame h
    | crashed =>
      rcases h with h | h
      · exact hsame h
      · exact hcommitted h.2.2
  | delete name tenant =>
    have hne : n ≠ name := by
      intro heq
      apply hnot tenant
      rw [heq]
    cases o with
    | returned a =>
      rcases h with h | h
      · exact absurd h.1 hne
      · exact hsame h.2
    | raised e => exact hsame h
    | crashed =>
      rcases h with h | h
      · exact hsame h
      · exact absurd h.1 hne

/-- Without a delete a linked name stays linked. -/
theorem Ledger.linked {n p : String} {c : Option C} {v' : Version C}
    (h : Ledger n events (.linked p c) v')
    (hnot : ∀ e ∈ events, ∀ tenant, e.op ≠ .delete n tenant) : ∃ p' c', v' = .linked p' c' := by
  induction events generalizing p c with
  | nil => exact ⟨p, c, h⟩
  | cons e events ih =>
    obtain ⟨v1, hbecomes, hrest⟩ := h
    obtain ⟨p1, c1, hv1⟩ := hbecomes.linked (hnot e List.mem_cons_self)
    rw [hv1] at hrest
    exact ih hrest fun e he => hnot e (List.mem_cons_of_mem _ he)

/-- What a user put under a name stays. -/
theorem Event.Becomes.foreign {e : Event C} {n : String} {v v' : Version C} (h : e.Becomes n v v')
    (hforeign : ¬ v.Own) : v' = v := by
  obtain ⟨op, o, before, after⟩ := e
  cases op with
  | write name id content => exact h
  | recover name keep => exact h
  | deleteRetired => exact h
  | commit name written overwrite token =>
    cases o with
    | returned a => exact (h.resolve_left fun hnew => hforeign hnew.2.1).2
    | raised e => exact h
    | crashed => exact h.resolve_right fun hnew => hforeign hnew.2.1
  | delete name tenant =>
    cases o with
    | returned a => exact (h.resolve_left fun hnew => hforeign hnew.2.1).2
    | raised e => exact h
    | crashed => exact h.resolve_right fun hnew => hforeign hnew.2.1

/-- What is not the library's own version stays as it is. -/
theorem Ledger.foreign {n : String} {v v' : Version C} (h : Ledger n events v v')
    (hforeign : ¬ v.Own) : v' = v := by
  induction events with
  | nil => exact h
  | cons e events ih =>
    obtain ⟨v1, hbecomes, hrest⟩ := h
    rw [hbecomes.foreign hforeign] at hrest
    exact ih hrest

/-- What a version is once the adoptions are done with. -/
def Version.settled : Version C → Version C
  | .pending p c => .linked p c
  | v => v

theorem Resolved.stands_settled {n : String} {v : Version C} (h : Resolved root n v)
    (hv : Stands root n v) : Stands root n v.settled := by
  cases v with
  | pending p c => exact h
  | linked p c => exact hv
  | saved c => exact hv
  | foreign t => exact hv
  | file => exact hv
  | nothing => exact hv

theorem eq_of_concerns {n m : String} (h : concerns (some n) m = true) : n = m :=
  of_decide_eq_true h

/-- Whatever a committer did, and wherever it stopped: a recovery resolves every name to what its
    ledger says, a committed name is one throughout, a user's link or file stays under its name, no
    operation touches the entries of another name or removes a directory that a link refers to, but
    for what it takes, and a second recovery changes nothing. -/
theorem adapter_crash_safety (h : History owner root events root') (htidy : Tidy root) :
    (∀ n v, internalEntry n = none → Stands root n v →
      ∃ v', Ledger n events v v' ∧ Stands root' n v' ∧
        ∀ scope keep recovered, concerns scope n →
          Runs (Answers NoFault) (deleteUnreferencedAdapterDirs env scope keep) root'
            (.returned ()) recovered →
          Resolved recovered n v' ∧ (IsUserName n → ∀ tenant result,
            v'.settled.resolution owner tenant = some result →
            resolveAdapterDir env owner recovered n tenant = result)) ∧
    (∀ n p c, internalEntry n = none → Linked root n p c →
      (∀ e ∈ events, ∀ tenant, e.op ≠ .delete n tenant) → ∃ p' c', Linked root' n p' c') ∧
    (∀ n, internalEntry n = none →
      (∀ t, root.get? n = some (.link t) → isLibraryDir n t = false →
        root'.get? n = some (.link t)) ∧
      (root.get? n = some .file → root'.get? n = some .file)) ∧
    (∀ e ∈ events, ∀ name, e.op.scope = some name → IsUserName name →
      (∀ x, internalEntry x = none → x ≠ name → e.after.get? x = e.before.get? x) ∧
      ∀ m id s, IsLineName m → m ≠ name →
        e.after.get? (physicalDir m id ++ Suffix.text s) =
          e.before.get? (physicalDir m id ++ Suffix.text s)) ∧
    (∀ e ∈ events, ∀ x d c, internalEntry x = none →
      (∀ o, internalEntry d ≠ some (o, .deleting)) →
      e.before.get? x = some (.link (.here d)) → e.before.get? d = some (.dir c) →
      ¬ e.op.Takes e.before d → e.after.get? d = some (.dir c)) ∧
    ∀ scope keep recovered o again,
      Runs (Answers NoFault) (deleteUnreferencedAdapterDirs env scope keep) root'
        (.returned ()) recovered →
      Runs (Answers NoFault) (deleteUnreferencedAdapterDirs env scope keep) recovered o again →
      again = recovered := by
  obtain ⟨htidy', hevents, hstands⟩ := h.correct htidy
  -- what is not the library's own version stays as it is
  have hstays (n : String) (hn : internalEntry n = none) (v : Version C) (hv : Stands root n v)
      (hforeign : ¬ v.Own) : Stands root' n v := by
    obtain ⟨v', hledger, hv'⟩ := hstands n v hn hv
    rw [hledger.foreign hforeign] at hv'
    exact hv'
  refine ⟨fun n v hn hv => ?_, fun n p c hn hlinked hnot => ?_, fun n hn => ⟨fun t hlink hforeign =>
    (hstays n hn (.foreign t) ⟨hlink, hforeign⟩ id).1, fun hfile => hstays n hn .file hfile id⟩,
    fun e he name hscope huser => ?_,
    fun e he x d c hx => (hevents e he).live x d c (ordinary_of_name hx),
    fun scope keep recovered o again hrun hagain => ?_⟩
  · obtain ⟨v', hledger, hv'⟩ := hstands n v hn hv
    refine ⟨v', hledger, hv', fun scope keep recovered hscope hrun => ?_⟩
    obtain ⟨-, hrecovered⟩ := (safe_recovery htidy').run hrun
    obtain ⟨referenced, hloop⟩ := id hrecovered
    have hv'' : Stands recovered n v' := hloop.recovers.keeps.stands n v' hn hv'
    have hresolved : Resolved recovered n v' := Recovered.resolved hrecovered hscope hn hv''
    refine ⟨hresolved, fun huser tenant result hresult => ?_⟩
    exact (hresolved.stands_settled hv'').resolve huser hresult
  · obtain ⟨v', hledger, hv'⟩ := hstands n (.linked p c) hn hlinked
    obtain ⟨p', c', heq⟩ := hledger.linked hnot
    rw [heq] at hv'
    exact ⟨p', c', hv'⟩
  · have hframe := (hevents e he).frame
    rw [hscope] at hframe
    refine ⟨fun x hx hne => hframe x ?_, fun m id s hm hne => hframe _ ?_⟩
    · intro hin
      rcases hin with hname | hinternal
      · exact hne (eq_of_concerns hname).symm
      · obtain ⟨o, s, hint, -⟩ := hinternal
        cases hx.symm.trans hint
    · have hint := internalEntry_physicalDir_append hm id s
      intro hin
      rcases hin with hname | hinternal
      · exact name_ne (internalEntry_userName huser) hint (eq_of_concerns hname)
      · obtain ⟨o, s', hint', howner⟩ := hinternal
        cases hint.symm.trans hint'
        exact hne (eq_of_concerns howner).symm
  · exact recovery_again ((safe_recovery htidy').run hrun).2 hagain

/-! ## Runs of a small root -/

/-- An operation that goes through as far as the root lets it -/
def calm (_ : Bool) (op : Op Nat) (root : Root Nat) : Except Err Unit × Root Nat :=
  answer false op root

theorem runs_of_calm {α : Type} {p : Program Nat α} {root : Root Nat} (steps : Nat)
    {o : Outcome Err α} (h : (p.play calm (List.replicate steps false) root).1 = o) :
    Runs (Answers NoFault) p root o (p.play calm (List.replicate steps false) root).2 := by
  rw [← h]
  apply play_runs
  intro _ op root
  apply answers_answer
  intro hfalse
  cases hfalse

def committing : Operation Nat := .commit "a" firstWritten true secondId

/-- A commit that stops once its staging link is there -/
def stopped : Root Nat :=
  ((committing.program localEnv fun _ => none).play calm (List.replicate 10 false) writtenRoot).2

theorem adapter_crash_safety_stopped :
    ∃ v', Ledger "a" [⟨committing, .crashed, writtenRoot, stopped⟩] .nothing v' ∧
      Stands stopped "a" v' := by
  have hallowed : committing.Allowed writtenRoot := by
    refine ⟨isLineName_a, by decide +kernel, fun c hdir => ?_, by decide +kernel⟩
    have hnone : writtenRoot.get? (physicalDir "a" secondId) = none := by decide +kernel
    cases hnone.symm.trans hdir
  have hruns : Runs (Answers NoFault) (committing.program localEnv fun _ => none) writtenRoot
      .crashed stopped := runs_of_calm 10 (by decide +kernel)
  have hstart : Stands writtenRoot "a" .nothing := by
    refine .inl ⟨by decide +kernel, fun p c hpending => ?_⟩
    obtain ⟨-, -, -, x, -, hlink⟩ := hpending
    exact writtenRoot_noLink hlink
  have hhistory : History (fun _ => none) writtenRoot
      [⟨committing, .crashed, writtenRoot, stopped⟩] stopped :=
    .next hallowed hruns (.start stopped)
  have hname := internalEntry_userName isLineName_a.user
  have hsafe := @adapter_crash_safety Nat _ _ localEnv _ _ hhistory tidy_writtenRoot
  obtain ⟨v', hledger, hstands, -⟩ := hsafe.1 "a" .nothing hname hstart
  exact ⟨v', hledger, hstands⟩

/-- A root where a link of the user's refers to the directory of an adapter -/
def aliasRoot : Root Nat :=
  ((writtenRoot.set (physicalDir "a" secondId) (.dir (some 2))).set "a"
    (.link (.here (physicalDir "a" secondId)))).set "best" (.link (.here (physicalDir "a" secondId)))

def rejectFirst : Program Nat CommittedAdapterDir :=
  commitAdapterDir localEnv "a" firstWritten false secondId

theorem crash_unsafe :
    (∃ root', Runs (Answers NoFault) commitFirst aliasRoot
        (.returned ⟨firstWritten.path, firstId.text⟩) root' ∧
      aliasRoot.get? (physicalDir "a" secondId) = some (.dir (some 2)) ∧
      root'.get? "best" = some (.link (.here (physicalDir "a" secondId))) ∧
      root'.get? (physicalDir "a" secondId) = none) ∧
    (∃ rejected root', Runs (Answers NoFault) rejectFirst aliasRoot .crashed rejected ∧
      Runs (Answers NoFault) commitFirst rejected (.returned ⟨firstWritten.path, firstId.text⟩) root' ∧
      root'.get? "a" = some (.link (.here firstWritten.path)) ∧
      root'.get? firstWritten.path = some (.dir none)) ∧
    ∃ adopting root', Runs (Answers NoFault) commitBroken brokenRoot .crashed adopting ∧
      Runs (Answers NoFault) (deleteUnreferencedAdapterDirs localEnv none none) adopting
        (.returned ()) root' ∧
      brokenRoot.get? "a\nb" = some (.dir (some 7)) ∧ root'.get? "a\nb" = none := by
  refine ⟨⟨_, runs_of_calm 40 ?_, ?_, ?_, ?_⟩,
    ⟨_, _, runs_of_calm 15 ?_, runs_of_calm 40 ?_, ?_, ?_⟩,
    ⟨_, _, runs_of_calm 12 ?_, runs_of_calm 40 ?_, ?_, ?_⟩⟩
  all_goals decide +kernel

end Miles.AdapterCommit
