import Miles.Spec.Checkpoint.AdapterRecovery

/-!
# The commit

Up to the swap of the link a commit takes steps only; the swap changes what its own name stands for,
and what follows changes nothing of it.
-/

namespace Miles.AdapterCommit

open CrashHoare

variable {C : Type} {root root' start : Root C} {faults : Op C → Prop} {env : Env C} {name w st p : String}
  {written : UncommittedAdapterDir} {token : CommitId}

/-! ## The states of a commit -/

/-- A directory that a link refers to, and none of the name's own that it stands on -/
structure Referred (start : Root C) (name d : String) (c : Option C) : Prop where
  link : ∃ x, Ordinary x ∧ start.get? x = some (.link (.here d))
  dir : start.get? d = some (.dir c)
  standing : ∀ o, internalEntry d ≠ some (o, .deleting)
  unlinked : IsPhysical d name → start.get? name ≠ some (.link (.here d))
  unadopted : IsPhysical d name → ∀ x, IsAdopting x name → start.get? x ≠ some (.link (.here d))

/-- The name stands for what it did, and only the commit's own staging link is new on its directory,
    or the name itself where an adoption of it is finished. -/
structure Before (name w st p : String) (start root : Root C) : Prop where
  keeps : Keeps (some name) start root
  refs : ∀ y, root.get? y = some (.link (.here w)) → y = st ∨
    start.get? y = some (.link (.here w)) ∨
      ∃ z, IsAdopting z y ∧ start.get? z = some (.link (.here w))
  live : ∀ d c, d ≠ w → d ≠ p → d ≠ name → Referred start name d c → root.get? d = some (.dir c)

/-- The directory is still there, and the name does not stand on it. -/
structure Ready (name w st p : String) (start root : Root C) : Prop where
  before : Before name w st p start root
  there : ∃ c, start.get? w = some (.dir c)
  kept : ∀ c, start.get? w = some (.dir c) → root.get? w = some (.dir c)
  apart : root.get? name ≠ some (.link (.here w))
  unadopted : ∀ y, IsAdopting y name → root.get? y ≠ some (.link (.here w))
  target : ∀ q, root.get? name = some (.link (.here q)) →
    q = p ∨ start.get? name = some (.link (.here q)) ∨
      ∃ y, IsAdopting y name ∧ start.get? y = some (.link (.here q))

/-- The name is a link to the directory. -/
structure Swapped (name w p : String) (start root : Root C) : Prop where
  tidy : Tidy root
  physical : IsPhysical w name
  linked : root.get? name = some (.link (.here w))
  there : ∃ c, start.get? w = some (.dir c)
  kept : ∀ c, start.get? w = some (.dir c) → root.get? w = some (.dir c)
  own : ∀ v, Stands start name v → v.Own
  others : ∀ m v, m ≠ name → internalEntry m = none → Stands start m v → Stands root m v
  frame : ∀ x, ¬ InScope (some name) x → root.get? x = start.get? x
  live : ∀ d c, d ≠ w → d ≠ p → d ≠ name → Referred start name d c → root.get? d = some (.dir c)

/-- The names of a commit -/
structure Names (name w st : String) : Prop where
  user : internalEntry name = none
  written : IsPhysical w name
  staging : internalEntry st = some (name, .link)
  proper : IsProper st

theorem Names.of_line (h : IsLineName name) (id : CommitId) :
    Names name (physicalDir name id) (physicalDir name id ++ Suffix.link.text) :=
  ⟨internalEntry_userName h.user, internalEntry_physicalDir h id,
    internalEntry_physicalDir_append h id .link, last_physicalDir name id .link⟩

theorem concerns_self (name : String) : concerns (some name) name = true := decide_eq_true rfl

theorem Before.refl (h : Tidy root) : Before name w st p root root :=
  ⟨.refl h, fun _ hy => .inr (.inl hy), fun _ _ _ _ _ href => href.dir⟩

/-- A step that puts no other link on the directory -/
theorem Before.step (h : Before name w st p start root) (hstep : Step (some name) root root')
    (hrefs : ∀ y, root'.get? y = some (.link (.here w)) →
      y = st ∨ root.get? y = some (.link (.here w)))
    (hdirs : ∀ d c, d ≠ w → d ≠ p → d ≠ name → root.get? d = some (.dir c) →
      root'.get? d = some (.dir c)) : Before name w st p start root' := by
  refine ⟨h.keeps.step hstep, fun y hy => ?_, fun d c hw hp hname href => ?_⟩
  · rcases hrefs y hy with hst | hold
    · exact .inl hst
    · exact h.refs y hold
  · exact hdirs d c hw hp hname (h.live d c hw hp hname href)

/-- Links that are there after an entry is removed -/
theorem get_erase_of_some {x y : String} {e : Entry C} (h : (root.erase x).get? y = some e) :
    y ≠ x ∧ root.get? y = some e := by
  rw [PyDict.get?_erase] at h
  split at h
  · cases h
  · rename_i hne
    exact ⟨hne, h⟩

theorem get_set_of_some {x y : String} {e e' : Entry C} (h : (root.set x e').get? y = some e) :
    (y = x ∧ e = e') ∨ (y ≠ x ∧ root.get? y = some e) := by
  rw [PyDict.get?_set] at h
  split at h
  · rename_i heq
    cases h
    exact .inl ⟨heq, rfl⟩
  · rename_i hne
    exact .inr ⟨hne, h⟩

/-- A directory stays when what changes is none. -/
theorem dir_ne {x d : String} {c : Option C} (hx : ∀ c, root.get? x ≠ some (.dir c))
    (hd : root.get? d = some (.dir c)) : d ≠ x := by
  intro heq
  rw [heq] at hd
  exact hx c hd

/-- An entry that is neither the name nor a directory, and no link to the written one. -/
theorem Ready.set (h : Ready name w st p start root) {x : String} {e : Entry C}
    (hstep : Step (some name) root (root.set x e)) (hname : name ≠ x) (hw : w ≠ x)
    (hx : ∀ c, root.get? x ≠ some (.dir c)) (hst : x = st ∨ e ≠ .link (.here w))
    (hadopting : IsAdopting x name → e ≠ .link (.here w)) :
    Ready name w st p start (root.set x e) := by
  constructor
  · apply h.before.step hstep
    · intro y hy
      rcases get_set_of_some hy with hnew | hold
      · rcases hst with hst | hst
        · exact .inl (hnew.1.trans hst)
        · exact absurd hnew.2.symm hst
      · exact .inr hold.2
    · intro d c _ _ _ hd
      rw [get_set_ne (dir_ne hx hd)]
      exact hd
  · exact h.there
  · intro c hdir
    rw [get_set_ne hw]
    exact h.kept c hdir
  · rw [get_set_ne hname]
    exact h.apart
  · intro y hy hlink
    rcases get_set_of_some hlink with hnew | hold
    · rw [hnew.1] at hy
      exact hadopting hy hnew.2.symm
    · exact h.unadopted y hy hold.2
  · intro q hq
    rw [get_set_ne hname] at hq
    exact h.target q hq

theorem Ready.erase (h : Ready name w st p start root) {x : String}
    (hstep : Step (some name) root (root.erase x)) (hw : w ≠ x)
    (hx : ∀ c, root.get? x ≠ some (.dir c)) : Ready name w st p start (root.erase x) := by
  constructor
  · apply h.before.step hstep
    · exact fun y hy => .inr (get_erase_of_some hy).2
    · intro d c _ _ _ hd
      rw [get_erase_ne (dir_ne hx hd)]
      exact hd
  · exact h.there
  · intro c hdir
    rw [get_erase_ne hw]
    exact h.kept c hdir
  · intro hlink
    exact h.apart (get_erase_of_some hlink).2
  · intro y hy hlink
    exact h.unadopted y hy (get_erase_of_some hlink).2
  · exact fun q hq => h.target q (get_erase_of_some hq).2

/-! ## The adoption -/

section
variable {x : String} {c : Option C}

/-- The adoption of a plain directory begins. -/
theorem Ready.adopt (h : Ready name w st p start root) (hnames : Names name w st)
    (hdir : root.get? name = some (.dir c)) (hx : IsAdopting x name) (hp : IsPhysical p name)
    (hpw : p ≠ w) (hno : NoAdoption root name) (hproper : IsProper x)
    (hnone : root.get? x = none) : Ready name w st p start (root.set x (.link (.here p))) := by
  have hne : (.link (.here p) : Entry C) ≠ .link (.here w) := by
    intro heq
    cases heq
    exact hpw rfl
  have hw : w ≠ x := by
    apply entry_ne hnames.written hx
    intro heq
    cases heq
  apply h.set _ (name_ne hnames.user hx) hw _ (.inr hne) fun _ => hne
  · exact .adopt (concerns_self name) hnames.user hdir hx hp hno hproper
  · intro c' hdir'
    cases hnone.symm.trans hdir'

/-- The adopted directory is moved. -/
theorem Ready.move (h : Ready name w st p start root) (hnames : Names name w st)
    (hdir : root.get? name = some (.dir c)) (hx : IsAdopting x name)
    (hlink : root.get? x = some (.link (.here p))) (hp : IsPhysical p name) (hpw : p ≠ w)
    (hproper : IsProper p) : Ready name w st p start ((root.erase name).set p (.dir c)) := by
  have hlinks {y : String} {t : Target}
      (hy : ((root.erase name).set p (.dir c)).get? y = some (.link t)) :
      root.get? y = some (.link t) := by
    rcases get_set_of_some hy with hnew | hold
    · cases hnew.2
    · exact (get_erase_of_some hold.2).2
  constructor
  · apply h.before.step
    · exact .move (concerns_self name) hnames.user hdir hx hlink hp hproper
    · exact fun y hy => .inr (hlinks hy)
    · intro d c' _ hdp hdname hd
      rw [get_set_ne hdp, get_erase_ne hdname]
      exact hd
  · exact h.there
  · intro c' hdir'
    rw [get_set_ne hpw.symm, get_erase_ne (name_ne hnames.user hnames.written).symm]
    exact h.kept c' hdir'
  · exact fun hlink' => h.apart (hlinks hlink')
  · exact fun y hy hlink' => h.unadopted y hy (hlinks hlink')
  · exact fun q hq => h.target q (hlinks hq)

/-- The name links to the adopted directory. -/
theorem Ready.finish (h : Ready name w st p start root) (hnames : Names name w st)
    (hx : IsAdopting x name) (hlink : root.get? x = some (.link (.here p)))
    (hnone : root.get? name = none) (hpw : p ≠ w) :
    Ready name w st p start ((root.erase x).set name (.link (.here p))) ∧
      NoAdoption ((root.erase x).set name (.link (.here p))) name := by
  have hno := h.before.keeps.tidy.noAdoption_erase hx hlink
  have hlinks {y : String} {t : Target}
      (hy : ((root.erase x).set name (.link (.here p))).get? y = some (.link t)) :
      (y = name ∧ t = .here p) ∨ root.get? y = some (.link t) := by
    rcases get_set_of_some hy with hnew | hold
    · cases hnew.2
      exact .inl ⟨hnew.1, rfl⟩
    · exact .inr (get_erase_of_some hold.2).2
  have hother {y : String} (hy : ((root.erase x).set name (.link (.here p))).get? y =
      some (.link (.here w))) : root.get? y = some (.link (.here w)) := by
    rcases hlinks hy with hnew | hold
    · cases hnew.2
      exact absurd rfl hpw
    · exact hold
  refine ⟨?_, fun y t hy => ?_⟩
  · constructor
    · apply h.before.step
      · exact .finish (concerns_self name) hlink hx hnone
      · exact fun y hy => .inr (hother hy)
      · intro d c' _ _ hdname hd
        rw [get_set_ne hdname, get_erase_ne]
        · exact hd
        · intro heq
          rw [heq, hlink] at hd
          cases hd
    · exact h.there
    · intro c' hdir'
      have hne : w ≠ x := by
        apply entry_ne hnames.written hx
        intro heq
        cases heq
      rw [get_set_ne (name_ne hnames.user hnames.written).symm, get_erase_ne hne]
      exact h.kept c' hdir'
    · exact fun hlink' => h.apart (hother hlink')
    · exact fun y hy hlink' => h.unadopted y hy (hother hlink')
    · intro q hq
      left
      rw [get_set_self] at hq
      cases hq
      rfl
  · rw [get_set_ne (name_ne hnames.user hy).symm]
    exact hno y t hy

end

theorem proper_physicalDir (name : String) (id : CommitId) : IsProper (physicalDir name id) := by
  have hlast := last_physicalDir name id .none
  rw [show physicalDir name id ++ Suffix.none.text = physicalDir name id from
    String.append_empty] at hlast
  exact hlast

/-- The states of an adoption -/
theorem safe_adopt {mid : Root C → Prop} (hnames : Names name w st) (hline : IsLineName name)
    (hp : p = physicalDir name token) (hpw : p ≠ w) (hmid : ∀ r, Ready name w st p start r → mid r)
    (h : Ready name w st p start root) (hno : NoAdoption root name) {c : Option C}
    (hdir : root.get? name = some (.dir c)) :
    Safe (Answers faults) mid (fun _ r => Ready name w st p start r ∧ NoAdoption r name)
      (fun _ r => Ready name w st p start r) (adoptPreCommitDir name token) root := by
  have hphysical : IsPhysical p name := by
    rw [hp]
    exact internalEntry_physicalDir hline token
  have hx : IsAdopting (physicalDir name token ++ Suffix.adopting.text) name :=
    internalEntry_physicalDir_append hline token .adopting
  have hproper : IsProper (physicalDir name token ++ Suffix.adopting.text) :=
    last_physicalDir name token .adopting
  have hproper' : IsProper p := by
    rw [hp]
    exact proper_physicalDir name token
  unfold adoptPreCommitDir
  simp only
  rw [← hp] at hx hproper ⊢
  generalize p ++ Suffix.adopting.text = x at *
  have hxp : x ≠ p := by
    apply entry_ne hx hphysical
    intro heq
    cases heq
  -- the link of the adoption
  apply safe_then (hmid root h) _ h
  intro root1 happly
  simp only [apply] at happly
  split at happly
  · rename_i hnone
    cases happly
    have h1 := h.adopt hnames hdir hx hphysical hpw hno hproper hnone
    refine ⟨hmid _ h1, ?_⟩
    have hdir1 : (root.set x (.link (.here p))).get? name = some (.dir c) := by
      rw [get_set_ne (name_ne hnames.user hx), hdir]
    have hlink1 : (root.set x (.link (.here p))).get? x = some (.link (.here p)) := get_set_self _ _
    generalize root.set x (.link (.here p)) = root1 at *
    -- the directory itself; only an empty one gives way to it
    have h2 := h1.move hnames hdir1 hx hlink1 hphysical hpw hproper'
    apply safe_then (hmid root1 h1) _ h1
    intro root2 happly
    have hroot2 : root2 = (root1.erase name).set p (.dir c) := by
      obtain ⟨moved, hmoved, heq, -⟩ := rename_eq_some happly
      rw [hdir1] at hmoved
      rw [heq, Option.some.inj hmoved]
    rw [hroot2]
    refine ⟨hmid _ h2, ?_⟩
    have hnone2 : ((root1.erase name).set p (.dir c)).get? name = none := by
      rw [get_set_ne (name_ne hnames.user hphysical), get_erase_self]
    have hlink2 : ((root1.erase name).set p (.dir c)).get? x = some (.link (.here p)) := by
      rw [get_set_ne hxp, get_erase_ne (name_ne hnames.user hx).symm, hlink1]
    generalize (root1.erase name).set p (.dir c) = root2 at *
    -- the link takes the name
    have h3 := h2.finish hnames hx hlink2 hnone2 hpw
    apply safe_then (hmid root2 h2) _ h2
    intro root3 happly
    simp only [apply, hlink2, hnone2] at happly
    cases happly
    refine ⟨hmid _ h3.1, ?_⟩
    apply safe_idle (.inr rfl) (hmid _ h3.1) _ fun _ => h3.1
    exact safe_done (hmid _ h3.1) h3
  · cases happly

theorem isPlainDir_iff : isPlainDir root w = true ↔ ∃ c, root.get? w = some (.dir c) := by
  unfold isPlainDir
  split
  · rename_i c hdir
    exact ⟨fun _ => ⟨c, hdir⟩, fun _ => rfl⟩
  · rename_i hnot
    constructor
    · intro h
      cases h
    · intro h
      obtain ⟨c, hdir⟩ := h
      exact absurd hdir (hnot c)

/-- The name is adopted if it is a plain directory. -/
theorem safe_adoptIfPlain {mid : Root C → Prop} (hnames : Names name w st) (hline : IsLineName name)
    (hp : p = physicalDir name token) (hpw : p ≠ w) (hmid : ∀ r, Ready name w st p start r → mid r)
    (h : Ready name w st p start root) (hno : NoAdoption root name) :
    Safe (Answers faults) mid (fun _ r => Ready name w st p start r ∧ NoAdoption r name)
      (fun _ r => Ready name w st p start r) (adoptIfPlain name token) root := by
  unfold adoptIfPlain
  apply safe_look (hmid _ h) _ fun _ => h
  split
  · rename_i hplain
    obtain ⟨c, hdir⟩ := isPlainDir_iff.mp hplain
    exact safe_adopt hnames hline hp hpw hmid h hno hdir
  · exact safe_done (hmid _ h) ⟨h, hno⟩

/-! ## The swap -/

/-- The staging link takes the place of the name. -/
theorem Ready.swap (h : Ready name w st p start root) (hnames : Names name w st)
    (hno : NoAdoption root name) {t : Target} (hlink : root.get? st = some (.link t))
    (hown : ∀ v, Stands start name v → v.Own) :
    Swapped name w p start ((root.erase st).set name (.link (.here w))) := by
  have hst : w ≠ st := by
    apply entry_ne hnames.written hnames.staging
    intro heq
    cases heq
  constructor
  · apply (h.before.keeps.tidy.erase st).set_name hnames.user
    intro y t hy hlink
    exact hno y t hy (get_erase_of_some hlink).2
  · exact hnames.written
  · exact get_set_self _ _
  · exact h.there
  · intro c hdir
    rw [get_set_ne (name_ne hnames.user hnames.written).symm, get_erase_ne hst]
    exact h.kept c hdir
  · exact hown
  · intro m v hne hm hv
    exact stands_swap (h.before.keeps.stands m v hm hv) hm hnames.user hne hnames.staging _
  · intro x hx
    have hname : x ≠ name := by
      intro heq
      rw [heq] at hx
      exact hx (.inl (concerns_self name))
    have hstaging : x ≠ st := by
      intro heq
      rw [heq] at hx
      exact hx (.inr ⟨name, .link, hnames.staging, concerns_self name⟩)
    rw [get_set_ne hname, get_erase_ne hstaging]
    exact h.before.keeps.frame x hx
  · intro d c hdw hdp hdname href
    have hd := h.before.live d c hdw hdp hdname href
    rw [get_set_ne hdname, get_erase_ne]
    · exact hd
    · intro heq
      rw [heq, hlink] at hd
      cases hd

/-- The states of a commit, all told -/
def Midway (name w st p : String) (start root : Root C) : Prop :=
  Before name w st p start root ∨ Swapped name w p start root

/-- What a swap returns: a directory that the name stood on, and not the new one. -/
structure IsPrevious (name w p : String) (start : Root C) (t : Target) : Prop where
  library : isLibraryDir name t = true
  ne : t ≠ .here w
  held : ∀ q, t = .here q → q = p ∨ start.get? name = some (.link (.here q)) ∨
    ∃ y, IsAdopting y name ∧ start.get? y = some (.link (.here q))

/-- The link is staged and swapped, at every point where it may stop. -/
theorem safe_swapLink {overwrite : Bool} (hnames : Names name w st) (hline : IsLineName name)
    (hw : written.path = w) (hst : physicalDir name written.commitId ++ Suffix.link.text = st)
    (hp : p = physicalDir name token) (hpw : p ≠ w) (h : Ready name w st p start root)
    (hno : NoAdoption root name) :
    Safe (Answers faults) (Midway name w st p start)
      (fun previous r => Swapped name w p start r ∧ ∀ t ∈ previous, IsPrevious name w p start t)
      (fun _ r => Ready name w st p start r) (swapLink name written overwrite token) root := by
  have hmid (r : Root C) (h : Ready name w st p start r) : Midway name w st p start r :=
    .inl h.before
  unfold swapLink
  simp only
  rw [hst, hw]
  apply safe_look (hmid _ h) _ fun _ => h
  apply safe_bind fun _ r => r = root ∧ isFile root name = false
  · exact safe_require (hmid _ h) (fun hnot => ⟨rfl, Bool.not_eq_true' _ ▸ hnot⟩) fun _ => h
  intro _ root1 _ hroot1
  obtain ⟨hroot1, hnofile⟩ := hroot1
  rw [hroot1]
  apply safe_bind fun _ r => r = root
  · exact safe_require (hmid _ h) (fun _ => rfl) fun _ => h
  intro _ root2 _ hroot2
  rw [hroot2]
  apply safe_bind _ (safe_adoptIfPlain hnames hline hp hpw hmid h hno)
  intro _ root3 _ h3
  obtain ⟨h3, hno3⟩ := h3
  apply safe_look (hmid _ h3) _ fun _ => h3
  apply safe_bind fun _ r => r = root3 ∧
    (∀ v, Stands start name v → v.Own) ∧ ∀ t ∈ linkTarget root3 name, IsPrevious name w p start t
  · -- what a user put under the name would still be there
    have hown (hall : (linkTarget root3 name).all (isLibraryDir name) = true) (v : Version C)
        (hv : Stands start name v) : v.Own := by
      cases v with
      | foreign t =>
        obtain ⟨hlink, hforeign⟩ := h3.before.keeps.stands name (.foreign t) hnames.user hv
        rw [linkTarget_eq_some.mpr hlink, Option.all_some, hforeign] at hall
        cases hall
      | file =>
        have hfile : root.get? name = some .file := h.before.keeps.stands name .file hnames.user hv
        unfold isFile linkTarget isPlainDir at hnofile
        rw [hfile] at hnofile
        cases hnofile
      | _ => trivial
    have hprevious (hall : (linkTarget root3 name).all (isLibraryDir name) = true) :
        ∀ t ∈ linkTarget root3 name, IsPrevious name w p start t := by
      intro t ht
      rw [Option.mem_def.mp ht] at hall
      have hlink := linkTarget_eq_some.mp ht
      refine ⟨hall, fun heq => ?_, fun q hq => ?_⟩
      · rw [heq] at hlink
        exact h3.apart hlink
      · rw [hq] at hlink
        exact h3.target q hlink
    exact safe_require (hmid _ h3) (fun hall => ⟨rfl, hown hall, hprevious hall⟩) fun _ => h3
  intro _ root4 _ hroot4
  obtain ⟨hroot4, hown, hprevious⟩ := hroot4
  rw [hroot4]
  -- the staging link
  apply safe_then (hmid _ h3) _ h3
  intro root5 happly
  simp only [apply] at happly
  split at happly
  · rename_i hnone
    cases happly
    have hstaging := hnames.staging
    have hwst : w ≠ st := by
      apply entry_ne hnames.written hstaging
      intro heq
      cases heq
    have h5 : Ready name w st p start (root3.set st (.link (.here w))) := by
      apply h3.set _ (name_ne hnames.user hstaging) hwst _ (.inl rfl)
      · intro hadopting
        cases hstaging.symm.trans hadopting
      · exact .stage (concerns_self name) hstaging hnames.proper
      · intro c hdir
        cases hnone.symm.trans hdir
    have hno5 : NoAdoption (root3.set st (.link (.here w))) name := by
      intro y t hy hlink
      rcases get_set_of_some hlink with hnew | hold
      · rw [hnew.1] at hy
        cases hstaging.symm.trans hy
      · exact hno3 y t hy hold.2
    have hlink5 : (root3.set st (.link (.here w))).get? st = some (.link (.here w)) := get_set_self _ _
    generalize root3.set st (.link (.here w)) = root5 at *
    refine ⟨hmid _ h5, ?_⟩
    apply safe_then (hmid _ h5) _ h5
    intro root6 happly
    obtain ⟨moved, hmoved, heq, -⟩ := rename_eq_some happly
    rw [hlink5] at hmoved
    cases hmoved
    have h6 := h5.swap hnames hno5 hlink5 hown
    rw [heq]
    exact ⟨.inr h6, safe_done (.inr h6) ⟨h6, hprevious⟩⟩
  · cases happly

/-! ## A commit that fails before the swap -/

/-- An entry is removed, unless that fails; a link is not refused. -/
theorem safe_unlinkIfPresent {x : String} {mid : Root C → Prop} {ret : Unit → Root C → Prop}
    {exc : Err → Root C → Prop} (hmid : mid root) (hkeep : root.get? x = none → ret () root)
    (hdone : (∃ e, root.get? x = some e ∧ ∀ c, e ≠ .dir c) →
      mid (root.erase x) ∧ ret () (root.erase x))
    (hfailed : faults (.unlink x) ∨ (∀ t, root.get? x ≠ some (.link t)) → exc .osError root) :
    Safe (Answers faults) mid ret exc (unlinkIfPresent x) root := by
  unfold unlinkIfPresent
  apply safe_goes hmid rfl (fun _ _ _ hop => by cases hop) _ fun _ hop => absurd rfl hop
  refine ⟨hmid, ?_⟩
  split
  · apply safe_bind fun _ r => ret () r
    · apply safe_perform hmid
      · intro root2 hanswer
        cases hanswer with
        | done happly =>
          simp only [apply] at happly
          split at happly
          · rename_i t hlink
            cases happly
            exact hdone ⟨_, hlink, fun c heq => by cases heq⟩
          · rename_i hfile
            cases happly
            exact hdone ⟨_, hfile, fun c heq => by cases heq⟩
          · cases happly
      · intro e root2 hanswer
        cases hanswer with
        | refused happly =>
          refine ⟨hmid, hfailed (.inr fun t hlink => ?_)⟩
          simp only [apply, hlink] at happly
          cases happly
        | fault hfaults _ => exact ⟨hmid, hfailed (.inl hfaults)⟩
    · exact fun _ r hmid' hret => safe_done hmid' hret
  · rename_i hnone
    exact safe_done hmid (hkeep (Option.not_isSome_iff_eq_none.mp hnone))

theorem Ready.unheld (h : Ready name w st p start root) : Unheld root name w :=
  ⟨h.apart, fun x hx _ => h.unadopted x hx⟩

/-- What a commit leaves that raises before the swap: its own staging link stays only where the
    removal of it failed. -/
structure Undone (faults : Op C → Prop) (name w st p : String) (start root : Root C) : Prop where
  before : Before name w st p start root
  staging : root.get? st = some (.link (.here w)) →
    start.get? st = some (.link (.here w)) ∨ faults (.unlink st)

/-- The handler takes back the staging link and removes the written directory. -/
theorem safe_undo (hnames : Names name w st) (h : Ready name w st p start root) (e : Err) :
    Safe (Answers faults) (Midway name w st p start) (fun (_ : Option Target) _ => False)
      (fun _ r => Undone faults name w st p start r)
      (do
        unlinkIfPresent st
        rmtree w
        Prog.raise e) root := by
  have hmid (r : Root C) (h : Ready name w st p start r) : Midway name w st p start r := .inl h.before
  have hne : w ≠ st := by
    apply entry_ne hnames.written hnames.staging
    intro heq
    cases heq
  apply safe_bind fun _ r => Ready name w st p start r ∧ r.get? st = none
  · apply safe_unlinkIfPresent (hmid _ h) (fun hnone => ⟨h, hnone⟩)
    · intro hentry
      obtain ⟨e, he, hnodir⟩ := hentry
      have hst (c : Option C) : root.get? st ≠ some (.dir c) := by
        intro hdir
        rw [he] at hdir
        exact hnodir c (Option.some.inj hdir)
      have herased := h.erase (.unstage (concerns_self name) hnames.staging) hne hst
      exact ⟨hmid _ herased, herased, get_erase_self st⟩
    · intro hfailed
      refine ⟨h.before, fun hlink => ?_⟩
      rcases hfailed with hfaults | hnolink
      · exact .inr hfaults
      · exact absurd hlink (hnolink _)
  · intro _ root1 _ h1
    obtain ⟨h1, hnone⟩ := h1
    apply safe_bind fun _ r => Before name w st p start r ∧ r.get? st = none
    · have hstep {c : Option C} (hdir : root1.get? w = some (.dir c)) :
          Step (some name) root1 (root1.set w (.dir none)) ∧
            Step (some name) root1 (root1.erase w) :=
        ⟨.clear (concerns_self name) hdir hnames.written fun _ _ => h1.unheld,
          .remove (concerns_self name) hdir hnames.written fun _ _ => h1.unheld⟩
      apply safe_rmtree (hmid _ h1) (fun _ => ⟨h1.before, hnone⟩)
      · intro c hdir
        have hcleared : Before name w st p start (root1.set w (.dir none)) := by
          apply h1.before.step (hstep hdir).1
          · intro y hy
            rcases get_set_of_some hy with hnew | hold
            · cases hnew.2
            · exact .inr hold.2
          · intro d c' hdw _ _ hd
            rw [get_set_ne hdw]
            exact hd
        exact ⟨.inl hcleared, fun _ => ⟨hcleared, (get_set_ne hne.symm).trans hnone⟩⟩
      · intro c hdir
        rw [PyDict.erase_set]
        have hremoved : Before name w st p start (root1.erase w) := by
          apply h1.before.step (hstep hdir).2
          · exact fun y hy => .inr (get_erase_of_some hy).2
          · intro d c' hdw _ _ hd
            rw [get_erase_ne hdw]
            exact hd
        exact ⟨.inl hremoved, hremoved, (get_erase_ne hne.symm).trans hnone⟩
    · intro _ r hmid' h2
      refine safe_raise hmid' ⟨h2.1, fun hlink => ?_⟩
      cases h2.2.symm.trans hlink

/-! ## After the swap -/

theorem proper_append (x : String) {s : Suffix} (hs : s ≠ .none) : IsProper (x ++ s.text) := by
  unfold IsProper
  rw [String.toList_append]
  exact last_append_suffix _ hs

/-- A directory of the name's that the name does not stand on is set aside. -/
theorem safe_retire {mid : Root C → Prop} {ret : Unit → Root C → Prop} {exc : Err → Root C → Prop}
    {q : String} (htidy : Tidy root) (hq : IsPhysical q name) (hmid : mid root) (hret : ret () root)
    (hretired : ∀ c, root.get? q = some (.dir c) →
      mid ((root.erase q).set (q ++ Suffix.deleting.text) (.dir c)) ∧
        ret () ((root.erase q).set (q ++ Suffix.deleting.text) (.dir c))) :
    Safe (Answers faults) mid ret exc (retire q) root := by
  unfold retire
  apply safe_onRaise fun _ r => ret () r
  · unfold moveAside
    apply safe_then hmid _ hret
    intro root' happly
    obtain ⟨moved, hmoved, heq, -⟩ := rename_eq_some happly
    rcases htidy.physical q name hq with hgone | hdir
    · cases hgone.symm.trans hmoved
    · obtain ⟨c, hdir⟩ := hdir
      cases hdir.symm.trans hmoved
      rw [heq]
      exact ⟨(hretired c hdir).1, safe_done (hretired c hdir).1 (hretired c hdir).2⟩
  · exact fun _ r hmid' hret' => safe_done hmid' hret'

/-- The retirement as a step -/
theorem retire_step {q : String} {c : Option C} (htidy : Tidy root) (hq : IsPhysical q name)
    (hdir : root.get? q = some (.dir c)) (hfree : Unheld root name q) :
    Step (some name) root ((root.erase q).set (q ++ Suffix.deleting.text) (.dir c)) := by
  have hproper : IsProper q := htidy.proper q _ _ hq hdir
  apply Step.retire (concerns_self name) hdir hq hfree
  · exact internalEntry_append hq hproper (by decide)
  · exact proper_append q (by decide)

/-- After the swap the previous directory is retired. -/
theorem Swapped.retire {q : String} {c : Option C} (h : Swapped name w p start root)
    (hnames : Names name w st) (hq : IsPhysical q name) (hqw : q ≠ w)
    (hheld : q = p ∨ start.get? name = some (.link (.here q)) ∨
      ∃ y, IsAdopting y name ∧ start.get? y = some (.link (.here q)))
    (hdir : root.get? q = some (.dir c)) :
    Swapped name w p start ((root.erase q).set (q ++ Suffix.deleting.text) (.dir c)) := by
  have hfree : Unheld root name q := by
    refine ⟨fun hlink => ?_, fun x _ hnone => ?_⟩
    · rw [h.linked] at hlink
      cases hlink
      exact hqw rfl
    · rw [h.linked] at hnone
      cases hnone
  have hstep := retire_step h.tidy hq hdir hfree
  have hint := internalEntry_append hq (h.tidy.proper q _ _ hq hdir) (s := .deleting) (by decide)
  have hw : w ≠ q ++ Suffix.deleting.text := by
    apply entry_ne hnames.written hint
    intro heq
    cases heq
  constructor
  · exact hstep.tidy h.tidy
  · exact h.physical
  · rw [get_set_ne (name_ne hnames.user hint), get_erase_ne (name_ne hnames.user hq)]
    exact h.linked
  · exact h.there
  · intro c' hdir'
    rw [get_set_ne hw, get_erase_ne hqw.symm]
    exact h.kept c' hdir'
  · exact h.own
  · intro m v hne hm hv
    exact hstep.stands h.tidy hm (h.others m v hne hm hv)
  · intro x hx
    rw [hstep.frame hx]
    exact h.frame x hx
  · intro d c' hdw hdp hdname href
    have hdq : d ≠ q := by
      intro heq
      rw [heq] at href hdp
      rcases hheld with hadopted | hlinked | hadopting
      · exact hdp hadopted
      · exact href.unlinked hq hlinked
      · obtain ⟨y, hy, hlink⟩ := hadopting
        exact href.unadopted hq y hy hlink
    have hdeleting : d ≠ q ++ Suffix.deleting.text := by
      intro heq
      rw [heq] at href
      exact href.standing name hint
    rw [get_set_ne hdeleting, get_erase_ne hdq]
    exact h.live d c' hdw hdp hdname href

/-- Retiring the previous directory, at every point where it may stop. -/
theorem safe_retirePrevious {previous : Option Target} (hnames : Names name w st)
    (hprevious : ∀ t ∈ previous, IsPrevious name w p start t) (h : Swapped name w p start root) :
    Safe (Answers faults) (Midway name w st p start) (fun _ r => Swapped name w p start r)
      (fun e r => e = .osError ∧ faults .look ∧ Swapped name w p start r)
      (retirePrevious env previous) root := by
  unfold retirePrevious
  apply safe_look (.inr h) _ fun hfaults => ⟨rfl, hfaults, h⟩
  split
  · rename_i q
    split
    · obtain ⟨hlibrary, hne, hheld⟩ := hprevious _ rfl
      have hq : internalEntry q = some (name, .none) := of_decide_eq_true hlibrary
      have hqw : q ≠ w := by
        intro heq
        rw [heq] at hne
        exact hne rfl
      apply safe_retire h.tidy hq (.inr h) h
      intro c hdir
      have hretired := h.retire hnames hq hqw (hheld q rfl) hdir
      exact ⟨.inr hretired, hretired⟩
    · exact safe_done (.inr h) h
  · exact safe_done (.inr h) h

/-! ## The whole commit -/

/-- What a commit raises: before the swap, or by a fault after it. -/
def Raised (faults : Op C → Prop) (name w st p : String) (id : CommitId) (start : Root C) (e : Err)
    (root : Root C) : Prop :=
  Undone faults name w st p start root ∨
    (e = .osError ∧ (faults .fsync ∨ faults .look) ∧ w = physicalDir name id ∧
      Swapped name w p start root)

/-- A commit, at every point where it may stop. -/
theorem safe_commitWritten {overwrite : Bool} (hnames : Names name w st) (hline : IsLineName name)
    (hw : written.path = w) (hst : physicalDir name written.commitId ++ Suffix.link.text = st)
    (hwritten : w = physicalDir name written.commitId) (hp : p = physicalDir name token)
    (hpw : p ≠ w) (h : Ready name w st p start root) (hno : NoAdoption root name) :
    Safe (Answers faults) (Midway name w st p start)
      (fun a r => a = ⟨w, written.commitId.text⟩ ∧ Swapped name w p start r)
      (Raised faults name w st p written.commitId start) (commitWritten env name written overwrite token) root := by
  unfold commitWritten
  rw [hst, hw]
  apply safe_bind fun previous r =>
    Swapped name w p start r ∧ ∀ t ∈ previous, IsPrevious name w p start t
  · apply safe_onRaise _ (safe_swapLink hnames hline hw hst hp hpw h hno)
    intro e r _ hready
    exact (safe_undo hnames hready e).mono (fun _ h => h) (fun _ _ _ h => h.elim)
      fun _ _ _ hundone => .inl hundone
  · intro previous root1 _ h1
    obtain ⟨h1, hprevious⟩ := h1
    apply safe_idle (.inr rfl) (.inr h1) _ fun hfaults => .inr ⟨rfl, .inl hfaults, hwritten, h1⟩
    apply safe_bind fun _ r => Swapped name w p start r
    · exact (safe_retirePrevious hnames hprevious h1).mono (fun _ h => h) (fun _ _ _ h => h)
        fun _ _ _ h => .inr ⟨h.1, .inr h.2.1, hwritten, h.2.2⟩
    · exact fun _ r hmid h2 => safe_done hmid ⟨rfl, h2⟩

/-- What a recovery keeps is before the swap. -/
theorem Before.of_recovers {keep : Option String} (h : Recovers (some name) keep start root) :
    Before name w st p start root := by
  refine ⟨h.keeps, fun y hy => ?_, fun d c _ _ _ href => ?_⟩
  · exact .inr (h.links y _ hy)
  · obtain ⟨x, hx, hlink⟩ := href.link
    exact (h.live x d c hx href.standing hlink href.dir).2

theorem Undone.refl (h : Tidy root) : Undone faults name w st p root root :=
  ⟨.refl h, fun hlink => .inl hlink⟩

/-- A recovery brings no staging link. -/
theorem Undone.of_recovers {keep : Option String} (hnames : Names name w st)
    (h : Recovers (some name) keep start root) : Undone faults name w st p start root := by
  refine ⟨.of_recovers h, fun hlink => .inl ?_⟩
  rcases h.links st _ hlink with hold | hadopted
  · exact hold
  · obtain ⟨z, hz, hstart⟩ := hadopted
    exact absurd rfl (name_ne (h.start_tidy.owner z st _ hz hstart) hnames.staging)

/-- A recovery that returns has finished or dropped the adoptions of the name. -/
theorem Recovered.noAdoption {keep : Option String}
    (h : Recovered env (some name) keep start faults root) : NoAdoption root name := by
  obtain ⟨referenced, h⟩ := h
  intro x t hx hlink
  have hsettled := h.settled x t hlink
  unfold Settled at hsettled
  rw [show internalEntry x = some (name, .adopting) from hx] at hsettled
  exact hsettled (concerns_self name)

/-- The states of a commit, and what it returns and raises. -/
theorem safe_commit {overwrite : Bool} (hline : IsLineName name) (htoken : token ≠ written.commitId)
    (hw : written.path = w) (hst : w ++ Suffix.link.text = st) (hp : p = physicalDir name token)
    (h : Tidy root) :
    Safe (Answers faults) (Midway name w st p root)
      (fun a r => a = ⟨w, written.commitId.text⟩ ∧ Swapped name w p root r)
      (Raised faults name w st p written.commitId root)
      (commitAdapterDir env name written overwrite token) root := by
  have hmid : Midway name w st p root root := .inl (.refl h)
  unfold commitAdapterDir
  rw [hw]
  -- the checks change nothing
  apply safe_bind fun _ r => r = root ∧ w = physicalDir name written.commitId
  · apply safe_require hmid
    · exact fun hpath => ⟨rfl, of_decide_eq_true hpath⟩
    · exact fun _ => .inl (.refl h)
  intro _ root1 _ hroot1
  obtain ⟨hroot1, hwritten⟩ := hroot1
  rw [hroot1]
  have hstaging : physicalDir name written.commitId ++ Suffix.link.text = st := by
    rw [← hwritten]
    exact hst
  have hnames : Names name w st := by
    rw [← hstaging, hwritten]
    exact .of_line hline written.commitId
  apply safe_look hmid _ fun _ => .inl (.refl h)
  apply safe_bind fun _ r => r = root ∧ isPlainDir root w = true
  · exact safe_require hmid (fun hplain => ⟨rfl, hplain⟩) fun _ => .inl (.refl h)
  intro _ root2 _ hroot2
  obtain ⟨hroot2, hplain⟩ := hroot2
  rw [hroot2]
  have hthere := isPlainDir_iff.mp hplain
  -- the recovery of the name finishes what an earlier commit left
  apply safe_bind fun _ => Recovered env (some name) (some w) root faults
  · exact (safe_recovery h).mono (fun _ h => .inl (.of_recovers h)) (fun _ _ _ h => h)
      fun _ _ _ h => .inl (.of_recovers hnames h.2)
  intro _ root3 hmid3 hrecovered
  have hno := hrecovered.noAdoption
  obtain ⟨referenced, hloop⟩ := hrecovered
  have hrecovers := hloop.recovers
  have hbefore : Before name w st p root root3 := .of_recovers hrecovers
  apply safe_look hmid3 _ fun _ => .inl (.of_recovers hnames hrecovers)
  split
  · rename_i hretry
    -- a retry: the name links to the directory already
    have hlink := linkTarget_eq_some.mp hretry
    have hswapped : Swapped name w p root root3 := by
      constructor
      · exact hrecovers.keeps.tidy
      · exact hnames.written
      · exact hlink
      · exact hthere
      · exact hrecovers.kept w rfl
      · exact fun v hv =>
          (hrecovers.keeps.stands name v hnames.user hv).own_of_link hlink hnames.written
      · exact fun m v _ hm hv => hrecovers.keeps.stands m v hm hv
      · exact hrecovers.keeps.frame
      · exact hbefore.live
    exact safe_done hmid3 ⟨rfl, hswapped⟩
  · rename_i hfirst
    have hready : Ready name w st p root root3 := by
      constructor
      · exact hbefore
      · exact hthere
      · exact hrecovers.kept w rfl
      · exact fun hlink => hfirst (linkTarget_eq_some.mpr hlink)
      · exact fun y hy => hno y _ hy
      · exact fun q hq => .inr (hrecovers.links name _ hq)
    have hpw : p ≠ w := by
      rw [hp, hwritten]
      intro heq
      exact htoken (physicalDir_inj heq)
    exact safe_commitWritten hnames hline hw hstaging hwritten hp hpw hready hno

/-- A retry after the swap finds the commit standing. -/
theorem safe_retry {overwrite : Bool} (hline : IsLineName name)
    (hwritten : w = physicalDir name written.commitId) (hw : written.path = w) (h : Tidy root)
    (hlink : root.get? name = some (.link (.here w))) {c : Option C}
    (hdir : root.get? w = some (.dir c)) :
    Safe (Answers NoFault) (fun _ => True) (fun a _ => a = ⟨w, written.commitId.text⟩)
      (fun _ _ => False) (commitAdapterDir env name written overwrite token) root := by
  have hphysical : IsPhysical w name := by
    rw [hwritten]
    exact internalEntry_physicalDir hline written.commitId
  unfold commitAdapterDir
  rw [hw]
  apply safe_bind fun _ r => r = root
  · refine safe_require trivial (fun _ => rfl) fun hpath => ?_
    exact absurd hwritten (of_decide_eq_false hpath)
  intro _ root1 _ hroot1
  rw [hroot1]
  apply safe_look trivial _ id
  apply safe_bind fun _ r => r = root
  · refine safe_require trivial (fun _ => rfl) fun hplain => ?_
    cases hplain.symm.trans (isPlainDir_iff.mpr ⟨c, hdir⟩)
  intro _ root2 _ hroot2
  rw [hroot2]
  apply safe_bind fun _ r => Recovers (some name) (some w) root r
  · exact (safe_recovery h).mono (fun _ _ => trivial) (fun _ _ hmid _ => hmid)
      fun _ _ _ hraised => absurd hraised.1 not_faulty
  intro _ root3 _ hrecovers
  apply safe_look trivial _ id
  have hstanding (o : String) : internalEntry w ≠ some (o, .deleting) := by
    intro hint
    cases hphysical.symm.trans hint
  have hname := ordinary_of_name (internalEntry_userName hline.user)
  rw [if_pos (linkTarget_eq_some.mpr (hrecovers.live name w c hname hstanding hlink hdir).1)]
  exact safe_done trivial rfl

end Miles.AdapterCommit
