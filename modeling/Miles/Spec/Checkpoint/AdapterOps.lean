import Miles.Spec.Checkpoint.AdapterSwap

/-!
# Writes, deletions and the removal of retired directories
-/

namespace Miles.AdapterCommit

open CrashHoare

variable {C : Type} {root root' start : Root C} {faults : Op C → Prop} {env : Env C} {name p : String}

/-! ## Writes -/

/-- A write is about its own directory only, which nothing refers to. -/
structure Writing (name p : String) (start root : Root C) : Prop where
  keeps : Keeps (some name) start root
  free : ∀ x, root.get? x ≠ some (.link (.here p))
  others : ∀ y, y ≠ p → root.get? y = start.get? y

theorem Writing.step (h : Writing name p start root) (hstep : Step (some name) root root')
    (hsame : ∀ y, y ≠ p → root'.get? y = root.get? y) (hlinks : ∀ t, root'.get? p ≠ some (.link t)) :
    Writing name p start root' := by
  refine ⟨h.keeps.step hstep, fun x hx => ?_, fun y hy => (hsame y hy).trans (h.others y hy)⟩
  by_cases heq : x = p
  · rw [heq] at hx
    exact hlinks _ hx
  · rw [hsame x heq] at hx
    exact h.free x hx

theorem Writing.set (h : Writing name p start root) {c : Option C}
    (hstep : Step (some name) root (root.set p (.dir c))) :
    Writing name p start (root.set p (.dir c)) := by
  apply h.step hstep fun y hy => get_set_ne hy
  intro t ht
  rw [get_set_self] at ht
  cases ht

theorem Writing.erase (h : Writing name p start root)
    (hstep : Step (some name) root (root.erase p)) : Writing name p start (root.erase p) := by
  apply h.step hstep fun y hy => get_erase_ne hy
  intro t ht
  rw [get_erase_self] at ht
  cases ht

theorem Writing.unheld (h : Writing name p start root) : Unheld root name p :=
  ⟨h.free name, fun x _ _ => h.free x⟩

theorem safe_removeWritten {ret : Unit → Root C → Prop} {exc : Err → Root C → Prop}
    (hp : IsPhysical p name) (h : Writing name p start root)
    (hret : ∀ r, Writing name p start r → ret () r) :
    Safe (Answers faults) (Writing name p start) ret exc (rmtree p) root := by
  have hsteps {c : Option C} (hdir : root.get? p = some (.dir c)) :
      Step (some name) root (root.set p (.dir none)) ∧ Step (some name) root (root.erase p) :=
    ⟨.clear (concerns_self name) hdir hp fun _ _ => h.unheld,
      .remove (concerns_self name) hdir hp fun _ _ => h.unheld⟩
  apply safe_rmtree h fun _ => hret _ h
  · intro c hdir
    have hcleared := h.set (hsteps hdir).1
    exact ⟨hcleared, fun _ => hret _ hcleared⟩
  · intro c hdir
    rw [PyDict.erase_set]
    have hremoved := h.erase (hsteps hdir).2
    exact ⟨hremoved, hret _ hremoved⟩

/-- What a fill does -/
theorem fill_eq_some {content : C} (h : apply root (.fill p content) = some root') :
    (∃ c, root.get? p = some (.dir c)) ∧ root' = root.set p (.dir (some content)) := by
  simp only [apply] at h
  split at h
  · rename_i c hdir
    cases h
    exact ⟨⟨c, hdir⟩, rfl⟩
  · cases h

/-- The states of a write, and what it returns -/
theorem safe_write {id : CommitId} {content : C} (hline : IsLineName name)
    (hp : physicalDir name id = p) (hfree : ∀ x, root.get? x ≠ some (.link (.here p)))
    (h : Tidy root) :
    Safe (Answers faults) (Writing name p root)
      (fun a r => a = ⟨p, id⟩ ∧ Writing name p root r ∧ r.get? p = some (.dir (some content)))
      (fun _ r => Writing name p root r) (writeAdapterDir name id content) root := by
  have hstart : Writing name p root root := ⟨.refl h, hfree, fun _ _ => rfl⟩
  have hphysical : IsPhysical p name := by
    rw [← hp]
    exact internalEntry_physicalDir hline id
  have hproper : IsProper p := by
    rw [← hp]
    exact proper_physicalDir name id
  unfold writeAdapterDir
  rw [hp]
  apply safe_bind fun _ r => r = root
  · exact safe_require hstart (fun _ => rfl) fun _ => hstart
  intro _ root1 _ hroot1
  rw [hroot1]
  apply safe_then hstart _ hstart
  intro root2 happly
  simp only [apply] at happly
  split at happly
  · rename_i hnone
    cases happly
    have h2 := hstart.set (.mkdir (concerns_self name) hphysical hnone hfree hproper)
    refine ⟨h2, ?_⟩
    apply safe_bind fun _ r => Writing name p root r ∧ r.get? p = some (.dir (some content))
    · apply safe_onRaise fun _ r => Writing name p root r
      · unfold fillDir
        apply safe_then h2 _ h2
        intro root3 happly
        obtain ⟨hdir, heq⟩ := fill_eq_some happly
        obtain ⟨c, hdir⟩ := hdir
        have h3 := h2.set (c := some content) (.fill (concerns_self name) hphysical hdir h2.free)
        rw [heq]
        refine ⟨h3, ?_⟩
        apply safe_idle (.inr rfl) h3 _ fun _ => h3
        exact safe_done h3 ⟨h3, get_set_self _ _⟩
      · intro e root3 h3 _
        apply safe_bind fun _ r => Writing name p root r
        · exact safe_removeWritten hphysical h3 fun _ h => h
        · exact fun _ r _ h4 => safe_raise h4 h4
    · exact fun _ r h3 hdir => safe_done h3 ⟨rfl, hdir⟩
  · cases happly

/-! ## Deletions -/

/-- The name is gone, and no adoption brings it back. -/
structure Deleted (name : String) (start root : Root C) : Prop where
  tidy : Tidy root
  gone : root.get? name = none
  noAdoption : NoAdoption root name
  own : ∀ v, Stands start name v → v.Own
  others : ∀ m v, m ≠ name → internalEntry m = none → Stands start m v → Stands root m v
  frame : ∀ x, ¬ InScope (some name) x → root.get? x = start.get? x
  live : ∀ d c, Referred start name d c → root.get? d = some (.dir c)

theorem Deleted.stands (h : Deleted name start root) : Stands root name .nothing := by
  refine .inl ⟨h.gone, fun p c hpending => ?_⟩
  obtain ⟨-, -, -, x, hx, hlink⟩ := hpending
  exact h.noAdoption x _ hx hlink

/-- What is deleted is a link of the name's to one of its directories. -/
theorem resolve_some {owner : C → Option String} {tenant : Option String} {a : CommittedAdapterDir}
    (htidy : Tidy root) (h : resolveAdapterDir env owner root name tenant = .ok (some a)) :
    IsUserName name ∧ root.get? name = some (.link (.here a.path)) ∧ IsPhysical a.path name ∧
      ∃ c, root.get? a.path = some (.dir c) := by
  unfold resolveAdapterDir at h
  split at h
  · cases h
  · rename_i huser
    split at h
    · cases h
    · cases h
    · rename_i q hlink
      split at h
      · cases h
      · rename_i hlibrary
        split at h
        · rename_i content htarget
          have hq : internalEntry q = some (name, .none) := of_decide_eq_true (not_not.mp hlibrary)
          have hdir : ∃ c, root.get? q = some (.dir c) := by
            rcases htidy.physical q name hq with hgone | hdir
            · unfold targetDir at htarget
              rw [hgone] at htarget
              cases htarget
            · exact hdir
          split at h
          · cases h
          · cases h
            exact ⟨not_not.mp huser, linkTarget_eq_some.mp hlink, hq, hdir⟩
        · cases h

/-- A name that is a link has no adoption under way. -/
theorem Tidy.noAdoption_of_link (h : Tidy root) {t : Target}
    (hlink : root.get? name = some (.link t)) : NoAdoption root name := by
  intro x u hx hadopting
  rcases h.free x name u hx hadopting with hgone | hdir
  · cases hlink.symm.trans hgone
  · obtain ⟨c, hdir⟩ := hdir
    cases hlink.symm.trans hdir

theorem deleted_unlink {q : String} (h : Tidy root) (hname : internalEntry name = none)
    (hq : IsPhysical q name) (hlink : root.get? name = some (.link (.here q))) : Deleted name root (root.erase name) := by
  constructor
  · exact h.erase name
  · exact get_erase_self name
  · intro x t hx hadopting
    exact h.noAdoption_of_link hlink x t hx (get_erase_of_some hadopting).2
  · exact fun v hv => hv.own_of_link hlink hq
  · exact fun m v hne _ hv => stands_unlink hv hname hne
  · intro x hx
    apply get_erase_ne
    intro heq
    rw [heq] at hx
    exact hx (.inl (concerns_self name))
  · intro d c href
    rw [get_erase_ne]
    · exact href.dir
    · intro heq
      have hdir := href.dir
      rw [heq, hlink] at hdir
      cases hdir

theorem Deleted.retire {q : String} {c : Option C} (h : Deleted name start root)
    (hname : internalEntry name = none) (hq : IsPhysical q name)
    (hlink : start.get? name = some (.link (.here q))) (hdir : root.get? q = some (.dir c)) :
    Deleted name start ((root.erase q).set (q ++ Suffix.deleting.text) (.dir c)) := by
  have hfree : Unheld root name q := by
    refine ⟨fun hlinked => ?_, fun x hx _ => h.noAdoption x _ hx⟩
    cases h.gone.symm.trans hlinked
  have hstep := retire_step h.tidy hq hdir hfree
  have hint := internalEntry_append hq (h.tidy.proper q _ _ hq hdir) (s := .deleting) (by decide)
  constructor
  · exact hstep.tidy h.tidy
  · rw [get_set_ne (name_ne hname hint), get_erase_ne (name_ne hname hq)]
    exact h.gone
  · intro x t hx hadopting
    rcases get_set_of_some hadopting with hnew | hold
    · cases hnew.2
    · exact h.noAdoption x t hx (get_erase_of_some hold.2).2
  · exact h.own
  · intro m v hne hm hv
    exact hstep.stands h.tidy hm (h.others m v hne hm hv)
  · intro x hx
    rw [hstep.frame hx]
    exact h.frame x hx
  · intro d c' href
    have hdq : d ≠ q := by
      intro heq
      rw [heq] at href
      exact href.unlinked hq hlink
    have hdeleting : d ≠ q ++ Suffix.deleting.text := by
      intro heq
      rw [heq] at href
      exact href.standing name hint
    rw [get_set_ne hdeleting, get_erase_ne hdq]
    exact h.live d c' href

/-- The states of a deletion: before the name is removed, and after -/
def Deleting (name : String) (start root : Root C) : Prop :=
  root = start ∨ Deleted name start root

/-- The states of a deletion, and what it returns and raises -/
theorem safe_delete {owner : C → Option String} {tenant : Option String} (h : Tidy root) :
    Safe (Answers faults) (Deleting name root) (fun _ => Deleted name root) (fun _ r => r = root)
      (deleteAdapterDir env owner name tenant) root := by
  have hstart : Deleting name root root := .inl rfl
  unfold deleteAdapterDir
  apply safe_look hstart _ fun _ => rfl
  apply safe_bind fun a r => r = root ∧ resolveAdapterDir env owner root name tenant = .ok (some a)
  · unfold resolved
    split
    · exact safe_raise hstart rfl
    · exact safe_raise hstart rfl
    · rename_i a ha
      exact safe_done hstart ⟨rfl, ha⟩
  intro a root1 _ h1
  obtain ⟨hroot1, hresolve⟩ := h1
  obtain ⟨huser, hlink, hq, -⟩ := resolve_some h hresolve
  have hname := internalEntry_userName huser
  rw [hroot1]
  apply safe_then hstart _ rfl
  intro root2 happly
  simp only [apply, hlink] at happly
  cases happly
  have h2 := deleted_unlink h hname hq hlink
  refine ⟨.inr h2, ?_⟩
  apply safe_retire h2.tidy hq (.inr h2) h2
  intro c hdir
  have h3 := h2.retire hname hq hlink hdir
  exact ⟨.inr h3, h3⟩

/-! ## Retired directories -/

/-- A retired directory goes, or a part of it. -/
theorem Recovers.remove {d o : String} {c : Option C} (h : Recovers none none start root)
    (hint : internalEntry d = some (o, .deleting)) (hdir : root.get? d = some (.dir c))
    (hstep : Step none root root') (hsame : ∀ y, y ≠ d → root'.get? y = root.get? y)
    (hlinks : ∀ t, root'.get? d ≠ some (.link t)) : Recovers none none start root' := by
  refine ⟨h.start_tidy, h.keeps.step hstep, fun w hw => ?_, fun x t hx => ?_,
    fun x d' c' hx hd' hlink hdir' => ?_⟩
  · cases hw
  · exact h.links x t (links_of_removed hsame hlinks hx)
  · obtain ⟨hlive, hdir'⟩ := h.live x d' c' hx hd' hlink hdir'
    have hxd : x ≠ d := by
      intro heq
      rw [heq, hdir] at hlive
      cases hlive
    have hne : d' ≠ d := by
      intro heq
      rw [heq] at hd'
      exact hd' o hint
    rw [hsame x hxd, hsame d' hne]
    exact ⟨hlive, hdir'⟩

theorem safe_removeRetired {d o : String} (hint : internalEntry d = some (o, .deleting))
    (h : Recovers none none start root) :
    Safe (Answers faults) (Recovers none none start) (fun _ => Recovers none none start)
      (fun _ => Recovers none none start) (rmtree d) root := by
  have hfree : Suffix.deleting = .none → internalEntry o = none → Unheld root o d := by
    intro heq
    cases heq
  apply safe_rmtree h fun _ => h
  · intro c hdir
    have hcleared : Recovers none none start (root.set d (.dir none)) := by
      apply h.remove hint hdir (.clear rfl hdir hint hfree) fun y hy => get_set_ne hy
      intro t ht
      rw [get_set_self] at ht
      cases ht
    exact ⟨hcleared, fun _ => hcleared⟩
  · intro c hdir
    rw [PyDict.erase_set]
    have hremoved : Recovers none none start (root.erase d) := by
      apply h.remove hint hdir (.remove rfl hdir hint hfree) fun y hy => get_erase_ne hy
      intro t ht
      rw [get_erase_self] at ht
      cases ht
    exact ⟨hremoved, hremoved⟩

/-- The removal of retired directories is a recovery of its own. -/
theorem safe_deleteRetired (h : Tidy root) :
    Safe (Answers faults) (Recovers none none root) (fun _ => Recovers none none root)
      (fun _ => Recovers none none root) (deleteRetiredAdapterDirs env) root := by
  have hstart : Recovers none none root root := .refl h
  unfold deleteRetiredAdapterDirs
  apply safe_look hstart _ fun _ => hstart
  apply safe_forM fun _ => Recovers none none root
  · exact fun _ _ h => h
  · intro d _ r hr
    apply safe_look hr _ fun _ => hr
    split
    · rename_i hretired
      obtain ⟨a, hint, hsuffix⟩ := Option.map_eq_some_iff.mp hretired.1
      apply safe_removeRetired (o := a.1) _ hr
      rw [hint, ← hsuffix]
    · exact safe_done hr hr
  · exact fun _ h => h
  · exact hstart

end Miles.AdapterCommit
