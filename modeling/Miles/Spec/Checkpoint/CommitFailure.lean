import Miles.Spec.Checkpoint.AdapterSwap

/-!
# Commits that raise
-/

namespace Miles.AdapterCommit

open CrashHoare

variable {C : Type} {root root' : Root C} {env : Env C} {name : String}

/-- What a name resolves to; a directory saved before commits, and one that is being adopted, may
    be adopted at any recovery. -/
def Version.resolution (owner : C → Option String) (tenant : Option String) :
    Version C → Option (Except Err (Option CommittedAdapterDir))
  | .linked p c =>
    some (if tenant.isSome ∧ c.bind owner ≠ tenant then .error .ownership
      else .ok (some ⟨p, commitIdOf p⟩))
  | .foreign _ => some (.error .foreignLink)
  | .file => some (.ok none)
  | .nothing => some (.ok none)
  | .pending _ _ => none
  | .saved _ => none

theorem linkTarget_eq_none (h : ∀ t, root.get? name ≠ some (.link t)) :
    linkTarget root name = none := by
  cases ht : linkTarget root name with
  | none => rfl
  | some t => exact absurd (linkTarget_eq_some.mp ht) (h t)

theorem targetDir_of_dir {p : String} {c : Option C} (h : root.get? p = some (.dir c)) (k : Nat) :
    targetDir env root k (.here p) = some c := by
  unfold targetDir
  rw [h]

theorem targetDir_of_none {p : String} (h : root.get? p = none) (k : Nat) :
    targetDir env root k (.here p) = none := by
  unfold targetDir
  rw [h]

/-- What a name resolves to is in what it stands for. -/
theorem Stands.resolve {v : Version C} (h : Stands root name v) (huser : IsUserName name)
    {owner : C → Option String} {tenant : Option String}
    {result : Except Err (Option CommittedAdapterDir)}
    (hresult : v.resolution owner tenant = some result) :
    resolveAdapterDir env owner root name tenant = result := by
  have hnothing (h : ∀ t, root.get? name ≠ some (.link t)) :
      resolveAdapterDir env owner root name tenant = .ok none := by
    unfold resolveAdapterDir
    rw [if_neg (not_not_intro huser), linkTarget_eq_none h]
  cases v with
  | linked p c =>
    obtain ⟨hlink, hp, hdir⟩ := h
    unfold resolveAdapterDir
    rw [if_neg (not_not_intro huser), linkTarget_eq_some.mpr hlink]
    simp only
    rw [if_neg (not_not_intro (isLibraryDir_of_physical hp)), targetDir_of_dir hdir]
    exact Option.some.inj hresult
  | pending p c => cases hresult
  | saved c => cases hresult
  | foreign t =>
    cases hresult
    obtain ⟨hlink, hforeign⟩ := h
    unfold resolveAdapterDir
    rw [if_neg (not_not_intro huser), linkTarget_eq_some.mpr hlink]
    cases t with
    | outside parent base => rfl
    | here p =>
      simp only
      rw [if_pos]
      rw [hforeign]
      exact Bool.false_ne_true
  | file =>
    cases hresult
    apply hnothing
    intro t hlink
    cases (show root.get? name = some .file from h).symm.trans hlink
  | nothing =>
    cases hresult
    rcases h with h | h
    · apply hnothing
      intro t hlink
      cases h.1.symm.trans hlink
    · obtain ⟨p, hlink, hp, hgone⟩ := h
      unfold resolveAdapterDir
      rw [if_neg (not_not_intro huser), linkTarget_eq_some.mpr hlink]
      simp only
      rw [if_neg (not_not_intro (isLibraryDir_of_physical hp)), targetDir_of_none hgone]

/-- Every name stands for something, and for one that resolves unless it is a directory or is being
    adopted. -/
theorem Tidy.stands (h : Tidy root) (hplain : ∀ c, root.get? name ≠ some (.dir c))
    (hpending : ∀ p c, ¬ Pending root name p c) (owner : C → Option String)
    (tenant : Option String) :
    ∃ v result, Stands root name v ∧ v.resolution owner tenant = some result := by
  cases hentry : root.get? name with
  | none => exact ⟨.nothing, _, .inl ⟨hentry, hpending⟩, rfl⟩
  | some e =>
    cases e with
    | file => exact ⟨.file, _, hentry, rfl⟩
    | dir c => exact absurd hentry (hplain c)
    | link t =>
      cases hlibrary : isLibraryDir name t with
      | false => exact ⟨.foreign t, _, ⟨hentry, hlibrary⟩, rfl⟩
      | true =>
        cases t with
        | outside parent base => cases hlibrary
        | here p =>
          have hp : internalEntry p = some (name, .none) := of_decide_eq_true hlibrary
          rcases h.physical p name hp with hgone | hdir
          · exact ⟨.nothing, _, .inr ⟨p, hentry, hp, hgone⟩, rfl⟩
          · obtain ⟨c, hdir⟩ := hdir
            exact ⟨.linked p c, _, ⟨hentry, hp, hdir⟩, rfl⟩

/-- Every operation is answered. -/
theorem exists_answer (faults : Op C → Prop) (op : Op C) (root : Root C) :
    ∃ r root', Answers faults op root r root' := by
  cases happly : apply root op with
  | none => exact ⟨_, _, .refused happly⟩
  | some root' => exact ⟨_, _, .done happly⟩

/-- A retry after the swap comes to its end, and returns the commit. -/
theorem retry_returns {written : UncommittedAdapterDir} (hline : IsLineName name)
    (hwritten : written.path = physicalDir name written.commitId) (htidy : Tidy root)
    (hlink : root.get? name = some (.link (.here written.path))) {c : Option C}
    (hdir : root.get? written.path = some (.dir c)) (env : Env C) (overwrite : Bool)
    (token : CommitId) :
    (∃ again, Runs (Answers NoFault) (commitAdapterDir env name written overwrite token) root
        (.returned ⟨written.path, written.commitId.text⟩) again) ∧
      ∀ o again, Runs (Answers NoFault) (commitAdapterDir env name written overwrite token) root
        o again → o = .crashed ∨ o = .returned ⟨written.path, written.commitId.text⟩ := by
  have hends (o : Outcome Err CommittedAdapterDir) (again : Root C)
      (hrun : Runs (Answers NoFault) (commitAdapterDir env name written overwrite token) root o
        again) : o = .crashed ∨ o = .returned ⟨written.path, written.commitId.text⟩ := by
    have hend := ((safe_retry hline hwritten rfl htidy hlink hdir).run hrun).2
    cases o with
    | returned a =>
      right
      rw [show a = _ from hend]
    | raised e => exact hend.elim
    | crashed => exact .inl rfl
  refine ⟨?_, hends⟩
  obtain ⟨o, again, hrun, hended⟩ := exists_run (exists_answer NoFault)
    (commitAdapterDir env name written overwrite token) root
  rw [(hends o again hrun).resolve_left hended] at hrun
  exact ⟨again, hrun⟩

/-- A commit that raises, whichever operations may fail. Either it has swapped the link and the
    synchronisation or the look after it failed: the name links to the directory as it was written,
    what it stood for was the library's own, and a retry returns the commit. Or the name stands for
    what it did, and a link to the directory was there before, finishes an adoption of it, or is the
    commit's own staging link, whose removal failed. -/
theorem commit_failure {faults : Op C → Prop} {written : UncommittedAdapterDir} {overwrite : Bool}
    {token : CommitId} {e : Err} (hline : IsLineName name) (htoken : token ≠ written.commitId)
    (htidy : Tidy root)
    (hrun : Runs (Answers faults) (commitAdapterDir env name written overwrite token) root
      (.raised e) root') :
    (e = .osError ∧ (faults .fsync ∨ faults .look) ∧
        root'.get? name = some (.link (.here written.path)) ∧
        (∃ c, root.get? written.path = some (.dir c) ∧ root'.get? written.path = some (.dir c)) ∧
        (∀ v, Stands root name v → v.Own) ∧
        ∀ env' overwrite' token',
          (∃ again, Runs (Answers NoFault) (commitAdapterDir env' name written overwrite' token')
            root' (.returned ⟨written.path, written.commitId.text⟩) again) ∧
          ∀ o again, Runs (Answers NoFault) (commitAdapterDir env' name written overwrite' token')
            root' o again → o = .crashed ∨ o = .returned ⟨written.path, written.commitId.text⟩) ∨
      ((∀ v, Stands root name v → Stands root' name v) ∧
        ((∀ c, root.get? name ≠ some (.dir c)) → (∀ p c, ¬ Pending root name p c) →
          ∀ owner tenant, resolveAdapterDir env owner root' name tenant =
            resolveAdapterDir env owner root name tenant) ∧
        ∀ y, root'.get? y = some (.link (.here written.path)) →
          root.get? y = some (.link (.here written.path)) ∨
            (y = name ∧ ∃ z, IsAdopting z name ∧
              root.get? z = some (.link (.here written.path))) ∨
            (y = written.path ++ Suffix.link.text ∧ faults (.unlink y))) := by
  have huser := internalEntry_userName hline.user
  rcases ((safe_commit hline htoken rfl rfl rfl htidy).run hrun).2 with hundone | hswapped
  · right
    have hkeeps := hundone.before.keeps
    have hstands (v : Version C) (hv : Stands root name v) : Stands root' name v :=
      hkeeps.stands name v huser hv
    refine ⟨hstands, fun hplain hpending owner tenant => ?_, fun y hy => ?_⟩
    · obtain ⟨v, result, hv, hresult⟩ := htidy.stands hplain hpending owner tenant
      rw [hv.resolve hline.user hresult, (hstands v hv).resolve hline.user hresult]
    · rcases hundone.before.refs y hy with hstaging | hold | hadopted
      · rw [hstaging] at hy ⊢
        exact (hundone.staging hy).imp_right fun hfaults => .inr ⟨rfl, hfaults⟩
      · exact .inl hold
      · obtain ⟨z, hz, hlink⟩ := hadopted
        by_cases heq : y = name
        · rw [heq] at hz
          exact .inr (.inl ⟨heq, z, hz, hlink⟩)
        · -- the adoptions of the other names are not touched
          left
          rw [← hkeeps.frame y]
          · exact hy
          · intro hin
            rcases hin with hname | hinternal
            · exact heq (of_decide_eq_true hname).symm
            · obtain ⟨o, s, hint, -⟩ := hinternal
              cases (htidy.owner z y _ hz hlink).symm.trans hint
  · left
    obtain ⟨he, hfaults, hwritten, hswapped⟩ := hswapped
    obtain ⟨c, hdir⟩ := hswapped.there
    have hkept := hswapped.kept c hdir
    exact ⟨he, hfaults, hswapped.linked, ⟨c, hdir, hkept⟩, hswapped.own,
      retry_returns hline hwritten hswapped.tidy hswapped.linked hkept⟩

/-! ## Commits of a first adapter -/

theorem answers_answer {faults : Op C → Prop} {fault : Bool} {op : Op C}
    (hfault : fault = true → faults op) (root : Root C) :
    Answers faults op root (answer fault op root).1 (answer fault op root).2 := by
  unfold answer
  split
  · exact .done rfl
  · rename_i hop
    split
    · rename_i hfails
      exact .fault (hfault hfails) hop
    · split
      · rename_i root' happly
        exact .done happly
      · rename_i happly
        exact .refused happly

def firstId : CommitId := ⟨"0123456789abcdef", by decide +kernel⟩

def secondId : CommitId := ⟨"fedcba9876543210", by decide +kernel⟩

/-- No links out of the root -/
def localEnv : Env Nat where
  outsideExists _ _ := false
  outsideDir _ _ := none
  listing root := root.keys
  listing_perm root := .refl root.keys

def firstWritten : UncommittedAdapterDir := ⟨physicalDir "a" firstId, firstId⟩

/-- A root that holds only what was written. -/
def writtenRoot : Root Nat := PyDict.empty.set firstWritten.path (.dir (some 1))

def commitFirst : Program Nat CommittedAdapterDir :=
  commitAdapterDir localEnv "a" firstWritten true secondId

/-- What a play along faults reaches is a run. -/
theorem runs_of_play {p : Program Nat CommittedAdapterDir} {root : Root Nat} (faults : List Bool)
    {e : Err} (h : (p.play answer faults root).1 = .raised e) :
    Runs (Answers fun _ => True) p root (.raised e) (p.play answer faults root).2 := by
  rw [← h]
  apply play_runs
  intro fault op s
  exact answers_answer (fun _ => trivial) s

theorem isLineName_a : IsLineName "a" := ⟨by decide, by decide⟩

/-- The only entry of the root is what was written. -/
theorem writtenRoot_entry {x : String} {e : Entry Nat} (h : writtenRoot.get? x = some e) :
    x = firstWritten.path ∧ e = .dir (some 1) := by
  rcases get_set_of_some h with hnew | hold
  · exact hnew
  · cases hold.2

theorem writtenRoot_noLink {x : String} {t : Target} : writtenRoot.get? x ≠ some (.link t) := by
  intro h
  cases (writtenRoot_entry h).2

/-- The root of the examples is tidy. -/
theorem tidy_writtenRoot : Tidy writtenRoot := by
  constructor
  · intro x a e _ h
    rw [(writtenRoot_entry h).1]
    exact proper_physicalDir "a" firstId
  · intro p n _
    cases h : writtenRoot.get? p with
    | none => exact .inl rfl
    | some e =>
      rw [(writtenRoot_entry h).2]
      exact .inr ⟨_, rfl⟩
  · exact fun x n t _ h => absurd h writtenRoot_noLink
  · exact fun x n t _ h => absurd h writtenRoot_noLink
  · exact fun x y n t u _ _ h => absurd h writtenRoot_noLink
  · exact fun x n t _ h => absurd h writtenRoot_noLink

/-- A removal does not fail. -/
def sparesUnlink : Op Nat → Bool
  | .unlink _ => false
  | _ => true

def answerSparing (fault : Bool) (op : Op Nat) (root : Root Nat) : Except Err Unit × Root Nat :=
  answer (fault && sparesUnlink op) op root

/-- A staging link that cannot take the name, and that the handler takes back -/
def faultAtRename : List Bool := List.replicate 10 false ++ List.replicate 5 true

theorem commit_failure_staging :
    (commitFirst.play answerSparing faultAtRename writtenRoot).2.get? "a" = none ∧
      ∀ y, (commitFirst.play answerSparing faultAtRename writtenRoot).2.get? y ≠
        some (.link (.here firstWritten.path)) := by
  have hraised : (commitFirst.play answerSparing faultAtRename writtenRoot).1 = .raised .osError := by
    decide +kernel
  have hruns : Runs (Answers fun op => sparesUnlink op = true) commitFirst writtenRoot
      (.raised .osError) (commitFirst.play answerSparing faultAtRename writtenRoot).2 := by
    rw [← hraised]
    apply play_runs
    intro fault op root
    exact answers_answer (fun hfault => (Bool.and_eq_true_iff.mp hfault).2) root
  have hnone : (commitFirst.play answerSparing faultAtRename writtenRoot).2.get? "a" = none := by
    decide +kernel
  have hfresh : secondId ≠ firstWritten.commitId := by decide +kernel
  refine ⟨hnone, fun y hy => ?_⟩
  rcases commit_failure isLineName_a hfresh tidy_writtenRoot hruns with hswapped | hkept
  · obtain ⟨-, -, hlink, -⟩ := hswapped
    cases hnone.symm.trans hlink
  · rcases hkept.2.2 y hy with hold | hadopted | hstaging
    · exact writtenRoot_noLink hold
    · obtain ⟨-, z, -, hold⟩ := hadopted
      exact writtenRoot_noLink hold
    · cases hstaging.2

/-- A root with an adapter that was saved before commits -/
def savedRoot : Root Nat := writtenRoot.set "a" (.dir (some 7))

/-- A fault of the synchronisation after the swap -/
def faultAfterSwap : List Bool := List.replicate 11 false ++ [true]

/-- A staging link that cannot take the name, and then cannot be removed -/
def faultsAtRename : List Bool := List.replicate 10 false ++ [true, false, true]

/-- A fault of the staging link, after the adoption -/
def faultAfterAdoption : List Bool := List.replicate 15 false ++ [true, false, false, false]

/-- An adapter that was saved before commits, under a name of two lines -/
def brokenRoot : Root Nat :=
  (PyDict.empty.set (physicalDir "a\nb" firstId) (.dir (some 1))).set "a\nb" (.dir (some 7))

def commitBroken : Program Nat CommittedAdapterDir :=
  commitAdapterDir localEnv "a\nb" ⟨physicalDir "a\nb" firstId, firstId⟩ true secondId

theorem raised_after_swap :
    (∃ root', Runs (Answers fun _ => True) commitFirst writtenRoot (.raised .osError) root' ∧
      resolveAdapterDir localEnv (fun _ => none) writtenRoot "a" none = .ok none ∧
      resolveAdapterDir localEnv (fun _ => none) root' "a" none =
        .ok (some ⟨firstWritten.path, firstId.text⟩) ∧
      root'.get? "a" = some (.link (.here firstWritten.path))) ∧
    (∃ root', Runs (Answers fun _ => True) commitFirst savedRoot (.raised .osError) root' ∧
      resolveAdapterDir localEnv (fun _ => none) savedRoot "a" none = .ok none ∧
      resolveAdapterDir localEnv (fun _ => none) root' "a" none =
        .ok (some ⟨physicalDir "a" secondId, secondId.text⟩)) ∧
    (∃ root', Runs (Answers fun _ => True) commitFirst writtenRoot (.raised .osError) root' ∧
      root'.get? (firstWritten.path ++ Suffix.link.text) =
        some (.link (.here firstWritten.path))) ∧
    ∃ root', Runs (Answers fun _ => True) commitBroken brokenRoot (.raised .foreignLink) root' ∧
      resolveAdapterDir localEnv (fun _ => none) brokenRoot "a\nb" none = .ok none ∧
      resolveAdapterDir localEnv (fun _ => none) root' "a\nb" none = .error .foreignLink := by
  refine ⟨⟨_, runs_of_play faultAfterSwap ?_, ?_, ?_, ?_⟩,
    ⟨_, runs_of_play faultAfterAdoption ?_, ?_, ?_⟩, ⟨_, runs_of_play faultsAtRename ?_, ?_⟩,
    ⟨_, runs_of_play (List.replicate 20 false) ?_, ?_, ?_⟩⟩
  all_goals decide +kernel

end Miles.AdapterCommit
