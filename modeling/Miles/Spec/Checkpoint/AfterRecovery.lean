import Miles.Spec.Checkpoint.AdapterRecovery

/-!
# After a recovery

A recovery that returns leaves every name of its scope resolved, and the next one nothing to do.
-/

namespace Miles.AdapterCommit

open CrashHoare

variable {C : Type} {root start : Root C} {env : Env C} {scope keep : Option String} {n : String}

/-- What a name is, when no adoption of it is under way. -/
def Resolved (root : Root C) (n : String) : Version C → Prop
  | .linked p c => Linked root n p c
  | .pending p c => Linked root n p c
  | .saved c => root.get? n = some (.dir c) ∨ ∃ p, Linked root n p c
  | .foreign t => root.get? n = some (.link t) ∧ isLibraryDir n t = false
  | .file => root.get? n = some .file
  | .nothing => root.get? n = none

section
variable {faults : Op C → Prop}

/-- An adoption in scope is finished or dropped. -/
theorem Recovered.not_pending (h : Recovered env scope keep start faults root)
    (hscope : concerns scope n) (p : String) (c : Option C) : ¬ Pending root n p c := by
  intro hpending
  obtain ⟨referenced, h⟩ := h
  obtain ⟨-, -, -, x, hx, hlink⟩ := hpending
  have hsettled := h.settled x _ hlink
  unfold Settled at hsettled
  rw [show internalEntry x = some (n, .adopting) from hx] at hsettled
  exact hsettled hscope

/-- A dangling link to a directory of the name's is dropped. -/
theorem Recovered.not_dangling (h : Recovered env scope keep start faults root)
    (hscope : concerns scope n) (hn : internalEntry n = none) {p : String}
    (hlink : root.get? n = some (.link (.here p))) (hp : IsPhysical p n) : root.get? p ≠ none := by
  intro hgone
  obtain ⟨referenced, h⟩ := h
  have hsettled := h.settled n _ hlink
  unfold Settled at hsettled
  rw [hn] at hsettled
  obtain ⟨c, hdir⟩ := hsettled.2 p hscope rfl hp
  cases hgone.symm.trans hdir

/-- A name is what it stands for, with no adoption left under way. -/
theorem Recovered.resolved (h : Recovered env scope keep start faults root)
    (hscope : concerns scope n) (hn : internalEntry n = none) {v : Version C}
    (hv : Stands root n v) : Resolved root n v := by
  have hpending (p : String) (c : Option C) := h.not_pending hscope p c
  cases v with
  | linked p c => exact hv
  | pending p c =>
    rcases hv with hlinked | hadopting
    · exact hlinked
    · exact absurd hadopting (hpending p c)
  | saved c =>
    rcases hv with hplain | hmoved
    · exact .inl hplain
    · obtain ⟨p, hlinked | hadopting⟩ := hmoved
      · exact .inr ⟨p, hlinked⟩
      · exact absurd hadopting (hpending p c)
  | foreign t => exact hv
  | file => exact hv
  | nothing =>
    rcases hv with hnone | hdangling
    · exact hnone.1
    · obtain ⟨p, hlink, hp, hgone⟩ := hdangling
      exact absurd hgone (h.not_dangling hscope hn hlink hp)

end

/-! ## A second recovery -/

def Unchanged (root r : Root C) : Prop := r = root

theorem Unchanged.refl (root : Root C) : Unchanged root root := rfl

/-- The second recovery has gathered the references of the entries that it is done with. -/
def Gathered (env : Env C) (root : Root C) (rest referenced : List String) : Prop :=
  ∀ x, x ∉ rest → ∀ d c, root.get? d = some (.dir c) → RefersTo env root x d → d ∈ referenced

theorem Gathered.next {e : String} {rest referenced referenced' : List String}
    (h : Gathered env root (e :: rest) referenced) (hsub : ∀ d ∈ referenced, d ∈ referenced')
    (he : ∀ d c, root.get? d = some (.dir c) → RefersTo env root e d → d ∈ referenced') :
    Gathered env root rest referenced' := by
  intro x hx d c hdir href
  by_cases heq : x = e
  · rw [heq] at href
    exact he d c hdir href
  · apply hsub
    apply h x _ d c hdir href
    intro hmem
    rcases List.mem_cons.mp hmem with hmem | hmem
    · exact heq hmem
    · exact hx hmem

/-- One entry of the first loop, in a root that was recovered: nothing changes. -/
theorem safe_linkAgain {e : String} {rest referenced : List String}
    (hdone : Recovered env scope keep start NoFault root)
    (h : Gathered env root (e :: rest) referenced) :
    Safe (Answers NoFault) (Unchanged root)
      (fun referenced' r => Unchanged root r ∧ Gathered env root rest referenced')
      (fun _ => Unchanged root) (recoverLink env scope referenced e) root := by
  have hsub : ∀ d ∈ referenced, d ∈ referenced := fun _ hd => hd
  obtain ⟨settledBy, hdone⟩ := hdone
  unfold recoverLink
  apply safe_look (.refl root) _ fun _ => .refl root
  split
  · rename_i hnone
    refine safe_done (.refl root) ⟨.refl root, h.next hsub fun d c _ href => ?_⟩
    rcases href.2 with hhere | houtside
    · rw [linkTarget_eq_some.mpr hhere] at hnone
      cases hnone
    · obtain ⟨parent, houtside, -⟩ := houtside
      rw [linkTarget_eq_some.mpr houtside] at hnone
      cases hnone
  · rename_i t ht
    have he := linkTarget_eq_some.mp ht
    -- what the first recovery settled leaves nothing to do for each kind of link
    have hsettled := hdone.settled e t he
    unfold Settled at hsettled
    split
    · rename_i o hint
      rw [hint] at hsettled
      rw [if_neg hsettled]
      exact safe_done (.refl root) ⟨.refl root, h.next hsub fun d c _ href => absurd hint (href.1.1 o)⟩
    · rename_i o hint
      rw [hint] at hsettled
      rw [if_neg hsettled]
      exact safe_done (.refl root) ⟨.refl root, h.next hsub fun d c _ href => absurd hint (href.1.2 o)⟩
    · rename_i hadopting hstaging
      split
      · refine safe_done (.refl root) ⟨.refl root, h.next (fun d hd => List.mem_append_left _ hd) fun d c _ href => ?_⟩
        have hbase : t.base = d := by
          rcases href.2 with hhere | houtside
          · cases he.symm.trans hhere
            rfl
          · obtain ⟨parent, houtside, -⟩ := houtside
            cases he.symm.trans houtside
            rfl
        rw [hbase]
        exact List.mem_append_right _ (List.mem_singleton_self _)
      · rename_i hexists
        have hkept : ¬ (concerns scope e = true ∧ isLibraryDir e t = true) := by
          intro hboth
          split at hsettled
          · rename_i o hint
            exact absurd hint (hadopting o)
          · rename_i o hint
            exact absurd hint (hstaging o)
          · cases t with
            | outside parent base => cases hboth.2
            | here p =>
              have hp : internalEntry p = some (e, .none) := of_decide_eq_true hboth.2
              obtain ⟨c, hdir⟩ := hsettled.2 p hboth.1 rfl hp
              exact hexists (targetExists_of_dir hdir maxLinks)
        rw [if_neg hkept]
        exact safe_done (.refl root) ⟨.refl root, h.next hsub fun d c hdir href =>
          absurd (href.exists he hdir) hexists⟩

/-- A directory that is not there is not removed. -/
theorem safe_rmtreeAgain {e : String} (hnone : ∀ c, root.get? e ≠ some (.dir c)) :
    Safe (Answers NoFault) (Unchanged root) (fun _ => Unchanged root) (fun _ => Unchanged root)
      (rmtree e) root := by
  apply safe_rmtree (.refl root)
  · exact fun _ => .refl root
  · exact fun c hdir => absurd hdir (hnone c)
  · exact fun c hdir => absurd hdir (hnone c)

theorem safe_dirAgain {e : String} {referenced : List String}
    (hdone : Recovered env scope keep start NoFault root) (h : Gathered env root [] referenced) :
    Safe (Answers NoFault) (Unchanged root) (fun _ => Unchanged root) (fun _ => Unchanged root)
      (recoverDir scope keep referenced e) root := by
  obtain ⟨settledBy, hdone⟩ := hdone
  have hcleared {d : String} (hgarbage : Garbage scope keep settledBy d) (c : Option C) :
      root.get? d ≠ some (.dir c) := hdone.cleared not_faulty d hgarbage (List.not_mem_nil) c
  unfold recoverDir
  apply safe_look (.refl root) _ fun _ => .refl root
  split
  · exact safe_done (.refl root) (.refl root)
  · rename_i o s hint
    split
    · exact safe_done (.refl root) (.refl root)
    · rename_i hgo
      have hkeep : keep ≠ some e := fun heq => hgo (.inr (.inr heq))
      split
      · rename_i hdeleting
        split
        · rename_i hall
          apply safe_rmtreeAgain
          apply hcleared
          refine ⟨hkeep, o, s, hint, ?_, .inl ⟨hdeleting, hall⟩⟩
          rw [hall]
          rfl
        · exact safe_done (.refl root) (.refl root)
      · rename_i hdeleting
        split
        · rename_i hunused
          apply safe_rmtreeAgain
          intro c hdir
          -- whatever the first recovery took for referenced still is
          have hnot : e ∉ settledBy := by
            intro hmem
            obtain ⟨x, hx⟩ := hdone.refers e hmem c hdir
            exact hunused.1 (h x List.not_mem_nil e c hdir hx)
          refine hcleared ⟨hkeep, o, s, hint, hunused.2, .inr ⟨?_, hnot⟩⟩ c hdir
          cases s with
          | none => exact .inl rfl
          | deleting => exact absurd rfl hdeleting
          | link => exact absurd (.inl rfl) hgo
          | adopting => exact .inr rfl
        · exact safe_done (.refl root) (.refl root)

/-- A recovery after a recovery changes nothing. -/
theorem recovery_again (hdone : Recovered env scope keep start NoFault root) {o : Outcome Err Unit}
    {root' : Root C}
    (hrun : Runs (Answers NoFault) (deleteUnreferencedAdapterDirs env scope keep) root o root') :
    root' = root := by
  have hsafe : Safe (Answers NoFault) (Unchanged root) (fun (_ : Unit) => Unchanged root)
      (fun _ => Unchanged root) (deleteUnreferencedAdapterDirs env scope keep) root := by
    unfold deleteUnreferencedAdapterDirs
    apply safe_look (.refl root) _ fun _ => .refl root
    apply safe_bind fun referenced r => Unchanged root r ∧ Gathered env root [] referenced
    · apply safe_foldlM fun rest referenced r => Unchanged root r ∧ Gathered env root rest referenced
      · exact fun _ _ _ h => h.1
      · intro e rest referenced r h
        rw [h.1]
        exact safe_linkAgain hdone h.2
      · exact fun _ _ h => h
      · refine ⟨.refl root, fun x hx d c _ href => ?_⟩
        exfalso
        apply hx
        rcases href.2 with hhere | houtside
        · exact mem_listing hhere
        · obtain ⟨parent, houtside, -⟩ := houtside
          exact mem_listing houtside
    · intro referenced r _ h
      rw [h.1]
      apply safe_look (.refl root) _ fun _ => .refl root
      apply safe_forM fun _ => Unchanged root
      · exact fun _ _ h => h
      · intro e rest r hr
        rw [hr]
        exact safe_dirAgain hdone h.2
      · exact fun _ h => h
      · exact .refl root
  exact (hsafe.run hrun).1

end Miles.AdapterCommit
