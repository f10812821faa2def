import Miles.Spec.Checkpoint.AdapterSteps

/-!
# Recovery

Every operation of a recovery is a step, wherever it stops, and a recovery that returns has left no
adoption and no staging link of its scope; without faults it has left no garbage either.
-/

namespace Miles.AdapterCommit

open CrashHoare

variable {C : Type} {root root' start : Root C} {faults : Op C → Prop} {scope keep : Option String}
  {referenced referenced' : List String} {env : Env C}

/-! ## Operations -/

/-- Some operation may fail. -/
def Faulty (faults : Op C → Prop) : Prop := ∃ op, faults op

theorem not_faulty : ¬ Faulty (NoFault : Op C → Prop) := fun h => h.elim fun _ hfault => hfault

section
variable {α : Type} {mid : Root C → Prop} {ret : α → Root C → Prop} {exc : Err → Root C → Prop}

/-- An operation goes through, or leaves the root as it is. -/
theorem safe_op {op : Op C} {ret : Root C → Root C → Prop} (hmid : mid root)
    (hdone : ∀ root', apply root op = some root' → mid root' ∧ ret root' root')
    (hfailed : exc .osError root) : Safe (Answers faults) mid ret exc (.perform op) root := by
  apply safe_perform hmid
  · intro root' hanswer
    cases hanswer with
    | done h => exact hdone root' h
  · intro e root' hanswer
    cases hanswer with
    | refused _ => exact ⟨hmid, hfailed⟩
    | notEmpty _ _ => exact ⟨hmid, hfailed⟩
    | fault _ _ => exact ⟨hmid, hfailed⟩

/-- What a rename does: a directory gives way to directories only, and then only an empty one. -/
theorem rename_eq_some {x y : String} (h : apply root (.rename x y) = some root') :
    ∃ moved, root.get? x = some moved ∧ root' = (root.erase x).set y moved ∧
      ∀ c, root.get? y = some (.dir c) → c = none ∧ ∃ c', moved = .dir c' := by
  unfold apply at h
  simp only at h
  split at h
  · rename_i moved hx hy
    cases h
    refine ⟨moved, hx, rfl, fun c hdir => ?_⟩
    rw [hy] at hdir
    cases hdir
  · rename_i c' hx hy
    cases h
    refine ⟨.dir c', hx, rfl, fun c hdir => ?_⟩
    rw [hy] at hdir
    cases hdir
    exact ⟨rfl, c', rfl⟩
  · cases h
  · cases h
  · rename_i moved y' _ _ hnot hx hy
    cases h
    refine ⟨moved, hx, rfl, fun c hdir => ?_⟩
    rw [hy] at hdir
    exact absurd (Option.some.inj hdir) (hnot c)
  · cases h

/-- An operation and then the rest of a program -/
theorem safe_then {op : Op C} {next : Root C → Program C α} (hmid : mid root)
    (hdone : ∀ root', apply root op = some root' →
      mid root' ∧ Safe (Answers faults) mid ret exc (next root') root')
    (hfailed : exc .osError root) :
    Safe (Answers faults) mid ret exc (Prog.perform op >>= next) root := by
  apply safe_bind fun r root' => r = root' ∧ Safe (Answers faults) mid ret exc (next root') root'
  · apply safe_op hmid _ hfailed
    intro root' h
    exact ⟨(hdone root' h).1, rfl, (hdone root' h).2⟩
  · intro r root' _ h
    rw [h.1]
    exact h.2

/-- An operation that the root allows fails by a fault only. -/
theorem safe_goes {op : Op C} {next : Root C → Program C α} (hmid : mid root)
    (happly : apply root op = some root')
    (hmoved : ∀ x y c, op = .rename x y → root.get? x ≠ some (.dir c))
    (hnext : mid root' ∧ Safe (Answers faults) mid ret exc (next root') root')
    (hfailed : faults op → op ≠ .lexists → exc .osError root) :
    Safe (Answers faults) mid ret exc (Prog.perform op >>= next) root := by
  apply safe_bind fun r r' => r = root' ∧ r' = root'
  · apply safe_perform hmid
    · intro r hanswer
      cases hanswer with
      | done h =>
        cases happly.symm.trans h
        exact ⟨hnext.1, rfl, rfl⟩
    · intro e r hanswer
      cases hanswer with
      | refused h => cases happly.symm.trans h
      | notEmpty hsource _ => exact absurd hsource (hmoved _ _ _ rfl)
      | fault hfaults hop => exact ⟨hmid, hfailed hfaults hop⟩
  · intro r r' _ h
    rw [h.1, h.2]
    exact hnext.2

/-- So does one that changes nothing. -/
theorem safe_idle {op : Op C} {next : Root C → Program C α} (hop : op = .look ∨ op = .fsync)
    (hmid : mid root) (hnext : Safe (Answers faults) mid ret exc (next root) root)
    (hfailed : faults op → exc .osError root) :
    Safe (Answers faults) mid ret exc (Prog.perform op >>= next) root := by
  rcases hop with rfl | rfl
  · exact safe_goes hmid rfl (fun _ _ _ h => by cases h) ⟨hmid, hnext⟩ fun h _ => hfailed h
  · exact safe_goes hmid rfl (fun _ _ _ h => by cases h) ⟨hmid, hnext⟩ fun h _ => hfailed h

theorem safe_look {next : Root C → Program C α} (hmid : mid root)
    (hnext : Safe (Answers faults) mid ret exc (next root) root)
    (hfailed : faults .look → exc .osError root) :
    Safe (Answers faults) mid ret exc (Prog.perform .look >>= next) root :=
  safe_idle (.inl rfl) hmid hnext hfailed

/-- A removal that fails is left for the next recovery. -/
theorem safe_rmtree {d : String} {ret : Unit → Root C → Prop} (hmid : mid root)
    (hkeep : Faulty faults ∨ (∀ c, root.get? d ≠ some (.dir c)) → ret () root)
    (hclear : ∀ c, root.get? d = some (.dir c) →
      mid (root.set d (.dir none)) ∧ (Faulty faults → ret () (root.set d (.dir none))))
    (hremove : ∀ c, root.get? d = some (.dir c) →
      mid ((root.set d (.dir none)).erase d) ∧ ret () ((root.set d (.dir none)).erase d)) :
    Safe (Answers faults) mid ret exc (rmtree d) root := by
  unfold rmtree
  apply safe_onRaise fun _ root' => ret () root'
  · unfold removeTree
    apply safe_bind fun _ root' =>
      ∃ c, root.get? d = some (.dir c) ∧ root' = root.set d (.dir none)
    · apply safe_perform hmid
      · intro root' hanswer
        cases hanswer with
        | done h =>
          simp only [apply] at h
          split at h
          · rename_i c hdir
            cases h
            exact ⟨(hclear c hdir).1, c, hdir, rfl⟩
          · cases h
      · intro e root' hanswer
        cases hanswer with
        | refused h =>
          refine ⟨hmid, hkeep (.inr fun c hdir => ?_)⟩
          simp only [apply, hdir] at h
          cases h
        | fault hfaults _ => exact ⟨hmid, hkeep (.inl ⟨_, hfaults⟩)⟩
    · intro _ root1 hmid1 h
      obtain ⟨c, hdir, hroot1⟩ := h
      have hcleared : root1.get? d = some (.dir none) := by
        rw [hroot1, get_set_self]
      apply safe_bind fun _ root' => ret () root'
      · apply safe_perform hmid1
        · intro root' hanswer
          cases hanswer with
          | done h =>
            simp only [apply, hcleared] at h
            cases h
            rw [hroot1]
            exact hremove c hdir
        · intro e root' hanswer
          cases hanswer with
          | refused h =>
            simp only [apply, hcleared] at h
            cases h
          | fault hfaults _ =>
            rw [hroot1] at hmid1 ⊢
            exact ⟨hmid1, (hclear c hdir).2 ⟨_, hfaults⟩⟩
      · exact fun _ root' hmid' hret => safe_done hmid' hret
  · exact fun _ root' hmid' hret => safe_done hmid' hret

end

/-! ## The first loop -/

/-- An entry that is no adoption's and no staging link -/
def Ordinary (x : String) : Prop :=
  (∀ o, ¬ IsAdopting x o) ∧ ∀ o, internalEntry x ≠ some (o, .link)

theorem ordinary_of_name {x : String} (h : internalEntry x = none) : Ordinary x :=
  ⟨fun _ hx => name_ne h hx rfl, fun _ hx => name_ne h hx rfl⟩

/-- What a recovery keeps at every point: a link is one that was there or finishes an adoption, and
    no directory is removed that a link refers to. -/
structure Recovers (scope keep : Option String) (start root : Root C) : Prop where
  start_tidy : Tidy start
  keeps : Keeps scope start root
  kept : ∀ w ∈ keep, ∀ c, start.get? w = some (.dir c) → root.get? w = some (.dir c)
  links : ∀ x t, root.get? x = some (.link t) →
    start.get? x = some (.link t) ∨ ∃ y, IsAdopting y x ∧ start.get? y = some (.link t)
  live : ∀ x d c, Ordinary x → (∀ o, internalEntry d ≠ some (o, .deleting)) →
    start.get? x = some (.link (.here d)) → start.get? d = some (.dir c) →
    root.get? x = some (.link (.here d)) ∧ root.get? d = some (.dir c)

/-- The first loop is done with a link: it is a reference, or not about the names of the scope. -/
def Settled (scope : Option String) (referenced : List String) (root : Root C) (x : String)
    (t : Target) : Prop :=
  match internalEntry x with
  | some (o, .adopting) => ¬ concerns scope o
  | some (o, .link) => ¬ concerns scope o
  | _ =>
    (∀ d c, t = .here d → root.get? d = some (.dir c) → d ∈ referenced) ∧
      ∀ p, concerns scope x → t = .here p → IsPhysical p x → ∃ c, root.get? p = some (.dir c)

/-- An entry that the first loop takes for a reference to a directory -/
def RefersTo (env : Env C) (root : Root C) (x d : String) : Prop :=
  Ordinary x ∧
    (root.get? x = some (.link (.here d)) ∨
      ∃ parent, root.get? x = some (.link (.outside parent d)) ∧ env.outsideExists parent d = true)

structure FirstLoop (env : Env C) (scope keep : Option String) (start : Root C)
    (rest referenced : List String) (root : Root C) : Prop where
  recovers : Recovers scope keep start root
  settled : ∀ x t, root.get? x = some (.link t) → x ∉ rest → Settled scope referenced root x t
  refers : ∀ d ∈ referenced, ∀ c, root.get? d = some (.dir c) → ∃ x, RefersTo env root x d

variable {rest : List String} {e : String} {t : Target}

theorem Settled.mono {x : String} (h : Settled scope referenced root x t)
    (hdirs : ∀ d c, root'.get? d = some (.dir c) ↔ root.get? d = some (.dir c))
    (hsub : ∀ d ∈ referenced, d ∈ referenced') : Settled scope referenced' root' x t := by
  have hordinary (h : (∀ d c, t = .here d → root.get? d = some (.dir c) → d ∈ referenced) ∧
      ∀ p, concerns scope x → t = .here p → IsPhysical p x → ∃ c, root.get? p = some (.dir c)) :
      (∀ d c, t = .here d → root'.get? d = some (.dir c) → d ∈ referenced') ∧
        ∀ p, concerns scope x → t = .here p → IsPhysical p x → ∃ c, root'.get? p = some (.dir c) := by
    refine ⟨fun d c ht hd => hsub d (h.1 d c ht ((hdirs d c).mp hd)), fun p hscope ht hp => ?_⟩
    obtain ⟨c, hdir⟩ := h.2 p hscope ht hp
    exact ⟨c, (hdirs p c).mpr hdir⟩
  unfold Settled at h ⊢
  split
  · rename_i o hint
    rw [hint] at h
    exact h
  · rename_i o hint
    rw [hint] at h
    exact h
  · rename_i hnot hnot'
    apply hordinary
    split at h
    · rename_i o hint
      exact absurd hint (hnot o)
    · rename_i o hint
      exact absurd hint (hnot' o)
    · exact h

/-- After one entry of the first loop. -/
theorem FirstLoop.next
    (h : FirstLoop env scope keep start (e :: rest) referenced root)
    (hrecovers : Recovers scope keep start root')
    (hdirs : ∀ d c, root'.get? d = some (.dir c) ↔ root.get? d = some (.dir c))
    (hsub : ∀ d ∈ referenced, d ∈ referenced')
    (hlinks : ∀ x t, root'.get? x = some (.link t) →
      (x ≠ e ∧ root.get? x = some (.link t)) ∨ Settled scope referenced' root' x t)
    (hrefers : ∀ d ∈ referenced', ∀ c, root'.get? d = some (.dir c) → ∃ x, RefersTo env root' x d) :
    FirstLoop env scope keep start rest referenced' root' := by
  refine ⟨hrecovers, fun x t hlink hx => ?_, hrefers⟩
  rcases hlinks x t hlink with hold | hnew
  · apply (h.settled x t hold.2 _).mono hdirs hsub
    intro hmem
    rcases List.mem_cons.mp hmem with heq | hmem
    · exact hold.1 heq
    · exact hx hmem
  · exact hnew

/-- The entry stays as it is. -/
theorem FirstLoop.stay
    (h : FirstLoop env scope keep start (e :: rest) referenced root)
    (hsub : ∀ d ∈ referenced, d ∈ referenced')
    (he : ∀ t, root.get? e = some (.link t) → Settled scope referenced' root e t)
    (hrefers : ∀ d ∈ referenced', ∀ c, root.get? d = some (.dir c) → ∃ x, RefersTo env root x d) :
    FirstLoop env scope keep start rest referenced' root := by
  apply h.next h.recovers (fun _ _ => Iff.rfl) hsub _ hrefers
  intro x t hlink
  by_cases heq : x = e
  · rw [heq] at hlink ⊢
    exact .inr (he t hlink)
  · exact .inl ⟨heq, hlink⟩

theorem erase_link_dirs (he : root.get? e = some (.link t)) (d : String)
    (c : Option C) : (root.erase e).get? d = some (.dir c) ↔ root.get? d = some (.dir c) := by
  by_cases heq : d = e
  · rw [heq, get_erase_self, he]
    constructor
    · intro h
      cases h
    · intro h
      cases h
  · rw [get_erase_ne heq]

theorem targetExists_of_dir {p : String} {c : Option C} (h : root.get? p = some (.dir c)) (k : Nat) :
    targetExists env root k (.here p) = true := by
  unfold targetExists
  rw [h]

theorem RefersTo.exists {e d : String} {c : Option C} (h : RefersTo env root e d)
    (he : root.get? e = some (.link t)) (hdir : root.get? d = some (.dir c)) :
    targetExists env root maxLinks t = true := by
  rcases h.2 with hhere | houtside
  · rw [he] at hhere
    cases hhere
    exact targetExists_of_dir hdir maxLinks
  · obtain ⟨parent, houtside, hexists⟩ := houtside
    rw [he] at houtside
    cases houtside
    unfold targetExists
    exact hexists

theorem RefersTo.of_same {x d : String} (h : RefersTo env root x d)
    (hsame : root'.get? x = root.get? x) : RefersTo env root' x d := by
  refine ⟨h.1, ?_⟩
  rw [hsame]
  exact h.2

/-- The entry goes. -/
theorem FirstLoop.drop
    (h : FirstLoop env scope keep start (e :: rest) referenced root)
    (he : root.get? e = some (.link t)) (hstep : Step scope root (root.erase e))
    (hunused : ¬ Ordinary e ∨ ¬ targetExists env root maxLinks t = true) :
    FirstLoop env scope keep start rest referenced (root.erase e) := by
  have hlink {x : String} {u : Target} (hx : (root.erase e).get? x = some (.link u)) :
      x ≠ e ∧ root.get? x = some (.link u) := by
    rw [PyDict.get?_erase] at hx
    split at hx
    · cases hx
    · exact ⟨‹_›, hx⟩
  apply h.next _ (erase_link_dirs he) (fun _ hd => hd) fun x u hx => .inl (hlink hx)
  · intro d hd c hdir
    rw [erase_link_dirs he] at hdir
    obtain ⟨x, hx⟩ := h.refers d hd c hdir
    refine ⟨x, hx.of_same (get_erase_ne fun heq => ?_)⟩
    rw [heq] at hx
    rcases hunused with hinternal | hdangling
    · exact hinternal hx.1
    · exact hdangling (hx.exists he hdir)
  · refine ⟨h.recovers.start_tidy, h.recovers.keeps.step hstep, fun w hw c hdir => ?_, fun x u hx => ?_,
      fun x d c hx hd hlink' hdir => ?_⟩
    · rw [erase_link_dirs he]
      exact h.recovers.kept w hw c hdir
    · exact h.recovers.links x u (hlink hx).2
    · obtain ⟨hlive, hdir⟩ := h.recovers.live x d c hx hd hlink' hdir
      rw [erase_link_dirs he, get_erase_ne]
      · exact ⟨hlive, hdir⟩
      · intro heq
        rw [heq] at hx hlive
        rcases hunused with hinternal | hdangling
        · exact hinternal hx
        · cases he.symm.trans hlive
          exact hdangling (targetExists_of_dir hdir maxLinks)

/-- Removing the link is a step, wherever it stops. -/
theorem safe_dropLink
    (h : FirstLoop env scope keep start (e :: rest) referenced root)
    (he : root.get? e = some (.link t)) (hstep : Step scope root (root.erase e))
    (hunused : ¬ Ordinary e ∨ ¬ targetExists env root maxLinks t = true) :
    Safe (Answers faults) (Recovers scope keep start) (FirstLoop env scope keep start rest)
      (fun _ root' => Faulty faults ∧ Recovers scope keep start root')
      (dropLink e referenced) root := by
  have hdropped := h.drop he hstep hunused
  apply safe_goes h.recovers _ (fun _ _ _ hop => by cases hop)
  · exact ⟨hdropped.recovers, safe_done hdropped.recovers hdropped⟩
  · exact fun hfaults _ => ⟨⟨_, hfaults⟩, h.recovers⟩
  · simp only [apply, he]

/-- The adoption is finished, and the directory is a reference. -/
theorem FirstLoop.finish {e o : String}
    (h : FirstLoop env scope keep start (e :: rest) referenced root)
    (he : root.get? e = some (.link t)) (hadopting : IsAdopting e o) (hscope : concerns scope o)
    (hnone : root.get? o = none) (hexists : targetExists env root maxLinks t = true) :
    FirstLoop env scope keep start rest (referenced ++ [t.base]) ((root.erase e).set o (.link t)) := by
  have htidy := h.recovers.keeps.tidy
  have howner := htidy.owner e o t hadopting he
  obtain ⟨p, ht, hp⟩ := htidy.target e o t hadopting he
  have hdirs (d : String) (c : Option C) :
      ((root.erase e).set o (.link t)).get? d = some (.dir c) ↔ root.get? d = some (.dir c) := by
    by_cases heq : d = o
    · rw [heq, get_set_self, hnone]
      constructor
      · intro h
        cases h
      · intro h
        cases h
    · rw [get_set_ne heq, erase_link_dirs he]
  have hlinks {x : String} {u : Target}
      (hx : ((root.erase e).set o (.link t)).get? x = some (.link u)) :
      (x = o ∧ u = t) ∨ (x ≠ e ∧ root.get? x = some (.link u)) := by
    rw [PyDict.get?_set] at hx
    split at hx
    · rename_i heq
      cases hx
      exact .inl ⟨heq, rfl⟩
    · rw [PyDict.get?_erase] at hx
      split at hx
      · cases hx
      · exact .inr ⟨‹_›, hx⟩
  have hsub : ∀ d ∈ referenced, d ∈ referenced ++ [t.base] :=
    fun d hd => List.mem_append_left _ hd
  have hrefers : ∀ d ∈ referenced ++ [t.base], ∀ c,
      ((root.erase e).set o (.link t)).get? d = some (.dir c) →
      ∃ x, RefersTo env ((root.erase e).set o (.link t)) x d := by
    intro d hd c hdir
    rcases List.mem_append.mp hd with hd | hd
    · rw [hdirs] at hdir
      obtain ⟨x, hx⟩ := h.refers d hd c hdir
      -- an earlier reference is neither the adoption nor the name, which was free
      have hxe : x ≠ e := by
        intro heq
        rw [heq] at hx
        exact hx.1.1 o hadopting
      have hxo : x ≠ o := by
        intro heq
        rw [heq] at hx
        have hlink := hx.2
        rw [hnone] at hlink
        rcases hlink with hlink | hlink
        · cases hlink
        · obtain ⟨parent, hlink, -⟩ := hlink
          cases hlink
      exact ⟨x, hx.of_same ((get_set_ne hxo).trans (get_erase_ne hxe))⟩
    · rw [List.mem_singleton.mp hd]
      refine ⟨o, ordinary_of_name howner, ?_⟩
      left
      rw [get_set_self, ht]
      rfl
  apply h.next _ hdirs hsub _ hrefers
  · have hstep := Step.finish hscope he hadopting hnone
    refine ⟨h.recovers.start_tidy, h.recovers.keeps.step hstep, fun w hw c hdir => ?_, fun x u hx => ?_,
      fun x d c hx hd hlink hdir => ?_⟩
    · exact (hdirs w c).mpr (h.recovers.kept w hw c hdir)
    · rcases hlinks hx with hnew | hold
      · right
        rw [hnew.1, hnew.2]
        -- the adoption's own link was there from the start
        refine ⟨e, hadopting, ?_⟩
        rcases h.recovers.links e t he with hstart | hstart
        · exact hstart
        · obtain ⟨y, hy, hstart⟩ := hstart
          exact absurd rfl (name_ne (h.recovers.start_tidy.owner y e t hy hstart) hadopting)
      · exact h.recovers.links x u hold.2
    · obtain ⟨hlive, hdir⟩ := h.recovers.live x d c hx hd hlink hdir
      have hxe : x ≠ e := by
        intro heq
        rw [heq] at hx
        exact hx.1 o hadopting
      have hxo : x ≠ o := by
        intro heq
        rw [heq, hnone] at hlive
        cases hlive
      rw [get_set_ne hxo, get_erase_ne hxe]
      exact ⟨hlive, (hdirs d c).mpr hdir⟩
  · intro x u hx
    rcases hlinks hx with hnew | hold
    · right
      rw [hnew.1, hnew.2]
      unfold Settled
      rw [howner]
      refine ⟨fun d c htarget _ => ?_, fun q _ htarget hq => ?_⟩
      · rw [htarget]
        exact List.mem_append_right _ (List.mem_singleton_self _)
      · -- the target exists, and a physical entry is a directory
        rw [htarget] at hexists
        rcases htidy.physical q o hq with hgone | hdir
        · unfold targetExists at hexists
          rw [hgone] at hexists
          cases hexists
        · obtain ⟨c, hdir⟩ := hdir
          exact ⟨c, (hdirs q c).mpr hdir⟩
    · exact .inl hold

/-- An ordinary link that leads somewhere is a reference. -/
theorem FirstLoop.reference
    (h : FirstLoop env scope keep start (e :: rest) referenced root)
    (he : root.get? e = some (.link t)) (hordinary : Ordinary e)
    (hexists : targetExists env root maxLinks t = true) :
    FirstLoop env scope keep start rest (referenced ++ [t.base]) root := by
  apply h.stay fun d hd => List.mem_append_left _ hd
  · intro u hu
    rw [he] at hu
    cases hu
    unfold Settled
    split
    · rename_i o hint
      exact absurd hint (hordinary.1 o)
    · rename_i o hint
      exact absurd hint (hordinary.2 o)
    · refine ⟨fun d c htarget _ => ?_, fun q _ htarget hq => ?_⟩
      · rw [htarget]
        exact List.mem_append_right _ (List.mem_singleton_self _)
      · rw [htarget] at hexists
        rcases h.recovers.keeps.tidy.physical q e hq with hgone | hdir
        · unfold targetExists at hexists
          rw [hgone] at hexists
          cases hexists
        · exact hdir
  · intro d hd c hdir
    rcases List.mem_append.mp hd with hd | hd
    · exact h.refers d hd c hdir
    · rw [List.mem_singleton.mp hd]
      refine ⟨e, hordinary, ?_⟩
      cases t with
      | here p => exact .inl he
      | outside parent base =>
        unfold targetExists at hexists
        exact .inr ⟨parent, he, hexists⟩

/-- An ordinary link that leads nowhere and is not the library's, or not in scope, stays. -/
theorem FirstLoop.dangling
    (h : FirstLoop env scope keep start (e :: rest) referenced root)
    (he : root.get? e = some (.link t)) (hordinary : Ordinary e)
    (hexists : ¬ targetExists env root maxLinks t = true)
    (hkeep : ¬ (concerns scope e = true ∧ isLibraryDir e t = true)) :
    FirstLoop env scope keep start rest referenced root := by
  apply h.stay (fun d hd => hd) _ h.refers
  intro u hu
  rw [he] at hu
  cases hu
  unfold Settled
  split
  · rename_i o hint
    exact absurd hint (hordinary.1 o)
  · rename_i o hint
    exact absurd hint (hordinary.2 o)
  · refine ⟨fun d c htarget hdir => ?_, fun q hscope htarget hq => ?_⟩
    · rw [htarget] at hexists
      exact absurd (targetExists_of_dir hdir maxLinks) hexists
    · rw [htarget] at hkeep
      exact absurd ⟨hscope, isLibraryDir_of_physical hq⟩ hkeep

theorem linkTarget_eq_some :
    linkTarget root e = some t ↔ root.get? e = some (.link t) := by
  unfold linkTarget
  split
  · rename_i u hu
    rw [hu]
    constructor
    · intro h
      cases h
      rfl
    · intro h
      cases h
      rfl
  · rename_i hnot
    constructor
    · intro h
      cases h
    · intro h
      exact absurd h (hnot t)

/-- One entry of the first loop. -/
theorem safe_recoverLink
    (h : FirstLoop env scope keep start (e :: rest) referenced root) :
    Safe (Answers faults) (Recovers scope keep start) (FirstLoop env scope keep start rest)
      (fun _ root' => Faulty faults ∧ Recovers scope keep start root')
      (recoverLink env scope referenced e) root := by
  have hrecovers := h.recovers
  have hsame : ∀ d ∈ referenced, d ∈ referenced := fun _ hd => hd
  unfold recoverLink
  apply safe_look hrecovers _ fun hfaults => ⟨⟨_, hfaults⟩, hrecovers⟩
  split
  · rename_i hnone
    refine safe_done hrecovers (h.stay hsame (fun t ht => ?_) h.refers)
    rw [linkTarget_eq_some.mpr ht] at hnone
    cases hnone
  · rename_i t ht
    have he := linkTarget_eq_some.mp ht
    split
    · rename_i o hint
      split
      · rename_i hscope
        split
        · rename_i hboth
          obtain ⟨hexists, hnone⟩ := hboth
          have hfinished := h.finish he hint hscope hnone hexists
          apply safe_goes hrecovers _ _
          · exact ⟨hfinished.recovers, safe_done hfinished.recovers hfinished⟩
          · exact fun hfaults _ => ⟨⟨_, hfaults⟩, hrecovers⟩
          · simp only [apply, he, hnone]
          · -- what is renamed is the link
            intro x y c hop hdir
            cases hop
            cases he.symm.trans hdir
        · rename_i hnot
          obtain ⟨p, htarget, hp⟩ := hrecovers.keeps.tidy.target e o t hint he
          apply safe_dropLink h he _ (.inl fun hordinary => hordinary.1 o hint)
          rw [htarget] at he hnot
          apply Step.dropAdopting hscope he hint
          intro c hdir hnone
          exact hnot ⟨targetExists_of_dir hdir maxLinks, hnone⟩
      · rename_i hscope
        refine safe_done hrecovers (h.stay hsame (fun u _ => ?_) h.refers)
        unfold Settled
        rw [hint]
        exact hscope
    · rename_i o hint
      split
      · rename_i hscope
        exact safe_dropLink h he (Step.unstage hscope hint)
          (.inl fun hordinary => hordinary.2 o hint)
      · rename_i hscope
        refine safe_done hrecovers (h.stay hsame (fun u _ => ?_) h.refers)
        unfold Settled
        rw [hint]
        exact hscope
    · rename_i hadopting hstaging
      have hordinary : Ordinary e := ⟨hadopting, hstaging⟩
      split
      · rename_i hexists
        exact safe_done hrecovers (h.reference he hordinary hexists)
      · rename_i hexists
        split
        · rename_i hlibrary
          obtain ⟨hscope, hlibrary⟩ := hlibrary
          apply safe_dropLink h he _ (.inr hexists)
          -- a link of the library's own to a directory that is gone
          cases t with
          | outside parent base => cases hlibrary
          | here p =>
            have hp : internalEntry p = some (e, .none) := of_decide_eq_true hlibrary
            apply Step.dropDangling hscope he hp hadopting
            rcases hrecovers.keeps.tidy.physical p e hp with hgone | hdir
            · exact hgone
            · obtain ⟨c, hdir⟩ := hdir
              exact absurd (targetExists_of_dir hdir maxLinks) hexists
        · rename_i hkeep
          exact safe_done hrecovers (h.dangling he hordinary hexists hkeep)

/-! ## The second loop -/

/-- What the second loop removes. -/
def Garbage (scope keep : Option String) (referenced : List String) (d : String) : Prop :=
  keep ≠ some d ∧ ∃ o s, internalEntry d = some (o, s) ∧ concerns scope o ∧
    ((s = .deleting ∧ scope = none) ∨ ((s = .none ∨ s = .adopting) ∧ d ∉ referenced))

structure SecondLoop (env : Env C) (scope keep : Option String) (start : Root C) (faults : Op C → Prop)
    (referenced rest : List String) (root : Root C) : Prop where
  recovers : Recovers scope keep start root
  settled : ∀ x t, root.get? x = some (.link t) → Settled scope referenced root x t
  refers : ∀ d ∈ referenced, ∀ c, root.get? d = some (.dir c) → ∃ x, RefersTo env root x d
  cleared : ¬ Faulty faults → ∀ d, Garbage scope keep referenced d → d ∉ rest →
    ∀ c, root.get? d ≠ some (.dir c)

/-- What is garbage is under no name and no adoption. -/
theorem SecondLoop.unheld {d o : String}
    (h : SecondLoop env scope keep start faults referenced rest root) {c : Option C}
    (hdir : root.get? d = some (.dir c)) (hscope : concerns scope o)
    (hnot : d ∉ referenced) (hname : internalEntry o = none) : Unheld root o d := by
  refine ⟨fun hlink => ?_, fun x hx _ hlink => ?_⟩
  · have hsettled := h.settled o _ hlink
    unfold Settled at hsettled
    rw [hname] at hsettled
    exact hnot (hsettled.1 d c rfl hdir)
  · have hsettled := h.settled x _ hlink
    unfold Settled at hsettled
    rw [show internalEntry x = some (o, .adopting) from hx] at hsettled
    exact hsettled hscope

/-- Both steps of the removal of a directory. -/
theorem SecondLoop.steps {d : String}
    (h : SecondLoop env scope keep start faults referenced rest root)
    (hgarbage : Garbage scope keep referenced d) {c : Option C}
    (hdir : root.get? d = some (.dir c)) :
    Step scope root (root.set d (.dir none)) ∧ Step scope root (root.erase d) := by
  obtain ⟨-, o, s, hint, hscope, hkind⟩ := hgarbage
  have hfree : s = .none → internalEntry o = none → Unheld root o d := by
    intro hs hname
    rcases hkind with hdeleting | hrest
    · rw [hs] at hdeleting
      cases hdeleting.1
    · exact h.unheld hdir hscope hrest.2 hname
  exact ⟨.clear hscope hdir hint hfree, .remove hscope hdir hint hfree⟩

/-- A link that was settled is so without the garbage. -/
theorem Settled.of_removed {x d : String}
    (h : Settled scope referenced root x t) (hgarbage : Garbage scope keep referenced d)
    (hsame : ∀ y, y ≠ d → root'.get? y = root.get? y)
    (hdir : ∀ c, root'.get? d = some (.dir c) → ∃ c', root.get? d = some (.dir c')) :
    Settled scope referenced root' x t := by
  have hordinary (h : (∀ d c, t = .here d → root.get? d = some (.dir c) → d ∈ referenced) ∧
      ∀ p, concerns scope x → t = .here p → IsPhysical p x → ∃ c, root.get? p = some (.dir c)) :
      (∀ d c, t = .here d → root'.get? d = some (.dir c) → d ∈ referenced) ∧
        ∀ p, concerns scope x → t = .here p → IsPhysical p x → ∃ c, root'.get? p = some (.dir c) := by
    refine ⟨fun q c ht hq => ?_, fun p hscope ht hp => ?_⟩
    · by_cases heq : q = d
      · rw [heq] at hq ht ⊢
        obtain ⟨c', hd⟩ := hdir c hq
        exact h.1 d c' ht hd
      · rw [hsame q heq] at hq
        exact h.1 q c ht hq
    · obtain ⟨c, hd⟩ := h.2 p hscope ht hp
      have hreferenced := h.1 p c ht hd
      have hne : p ≠ d := by
        intro heq
        obtain ⟨-, o, s, hint, -, hkind⟩ := hgarbage
        rw [heq] at hp hreferenced
        cases hint.symm.trans hp
        rcases hkind with hdeleting | hrest
        · cases hdeleting.1
        · exact hrest.2 hreferenced
      exact ⟨c, by rw [hsame p hne, hd]⟩
  unfold Settled at h ⊢
  split
  · rename_i o hint
    rw [hint] at h
    exact h
  · rename_i o hint
    rw [hint] at h
    exact h
  · rename_i hnot hnot'
    apply hordinary
    split at h
    · rename_i o hint
      exact absurd hint (hnot o)
    · rename_i o hint
      exact absurd hint (hnot' o)
    · exact h

/-- What is left of the links when a piece of garbage, or a part of it, is removed -/
theorem links_of_removed (hsame : ∀ y, y ≠ e → root'.get? y = root.get? y)
    (hlinks : ∀ t, root'.get? e ≠ some (.link t)) {x : String}
    (hx : root'.get? x = some (.link t)) : root.get? x = some (.link t) := by
  by_cases heq : x = e
  · rw [heq] at hx
    exact absurd hx (hlinks t)
  · rw [hsame x heq] at hx
    exact hx

theorem SecondLoop.recovers_removed
    (h : SecondLoop env scope keep start faults referenced rest root)
    (hgarbage : Garbage scope keep referenced e) (hstep : Step scope root root') {c : Option C}
    (hroot : root.get? e = some (.dir c)) (hsame : ∀ y, y ≠ e → root'.get? y = root.get? y)
    (hlinks : ∀ t, root'.get? e ≠ some (.link t)) : Recovers scope keep start root' := by
  refine ⟨h.recovers.start_tidy, h.recovers.keeps.step hstep, fun w hw c' hdir => ?_, fun x t hx => ?_,
    fun x d c' hx hd hlink hdir => ?_⟩
  · have hne : w ≠ e := by
      intro heq
      rw [heq] at hw
      exact hgarbage.1 hw
    rw [hsame w hne]
    exact h.recovers.kept w hw c' hdir
  · exact h.recovers.links x t (links_of_removed hsame hlinks hx)
  · obtain ⟨hlive, hdir⟩ := h.recovers.live x d c' hx hd hlink hdir
    have hxe : x ≠ e := by
      intro heq
      rw [heq, hroot] at hlive
      cases hlive
    have hde : d ≠ e := by
      -- the directory is referenced, so it is no garbage
      have hsettled := h.settled x _ hlive
      unfold Settled at hsettled
      split at hsettled
      · rename_i o hint
        exact absurd hint (hx.1 o)
      · rename_i o hint
        exact absurd hint (hx.2 o)
      · have hreferenced := hsettled.1 d c' rfl hdir
        intro heq
        obtain ⟨-, o, s, hint, -, hkind⟩ := hgarbage
        rw [heq] at hreferenced hd
        rcases hkind with hdeleting | hrest
        · rw [hdeleting.1] at hint
          exact hd o hint
        · exact hrest.2 hreferenced
    rw [hsame x hxe, hsame d hde]
    exact ⟨hlive, hdir⟩

/-- The root without a piece of garbage, or with less of it. -/
theorem SecondLoop.removed
    (h : SecondLoop env scope keep start faults referenced (e :: rest) root)
    (hgarbage : Garbage scope keep referenced e) (hstep : Step scope root root') {c : Option C}
    (hroot : root.get? e = some (.dir c)) (hsame : ∀ y, y ≠ e → root'.get? y = root.get? y)
    (hlinks : ∀ t, root'.get? e ≠ some (.link t))
    (hgone : ¬ Faulty faults → ∀ c, root'.get? e ≠ some (.dir c)) :
    SecondLoop env scope keep start faults referenced rest root' := by
  refine ⟨h.recovers_removed hgarbage hstep hroot hsame hlinks, fun x t hx => ?_,
    fun d hd c' hdir => ?_, fun hfaults d hd hrest c' => ?_⟩
  · have hbefore := h.settled x t (links_of_removed hsame hlinks hx)
    exact hbefore.of_removed hgarbage hsame fun _ _ => ⟨c, hroot⟩
  · have hbefore : ∃ c, root.get? d = some (.dir c) := by
      by_cases heq : d = e
      · rw [heq]
        exact ⟨c, hroot⟩
      · rw [hsame d heq] at hdir
        exact ⟨c', hdir⟩
    obtain ⟨c'', hbefore⟩ := hbefore
    obtain ⟨x, hx⟩ := h.refers d hd c'' hbefore
    refine ⟨x, hx.of_same (hsame x fun heq => ?_)⟩
    -- the garbage is a directory and no link
    have hlink := hx.2
    rw [heq, hroot] at hlink
    rcases hlink with hlink | hlink
    · cases hlink
    · obtain ⟨parent, hlink, -⟩ := hlink
      cases hlink
  · by_cases heq : d = e
    · rw [heq]
      exact hgone hfaults c'
    · rw [hsame d heq]
      apply h.cleared hfaults d hd
      intro hmem
      rcases List.mem_cons.mp hmem with hmem | hmem
      · exact heq hmem
      · exact hrest hmem

/-- The entry stays: it is no garbage, or no directory. -/
theorem SecondLoop.stay
    (h : SecondLoop env scope keep start faults referenced (e :: rest) root)
    (he : ¬ Faulty faults → Garbage scope keep referenced e → ∀ c, root.get? e ≠ some (.dir c)) :
    SecondLoop env scope keep start faults referenced rest root := by
  refine ⟨h.recovers, h.settled, h.refers, fun hfaults d hd hrest c => ?_⟩
  by_cases heq : d = e
  · rw [heq] at hd ⊢
    exact he hfaults hd c
  · apply h.cleared hfaults d hd
    intro hmem
    rcases List.mem_cons.mp hmem with hmem | hmem
    · exact heq hmem
    · exact hrest hmem

theorem safe_removeGarbage
    (h : SecondLoop env scope keep start faults referenced (e :: rest) root)
    (hgarbage : Garbage scope keep referenced e) :
    Safe (Answers faults) (Recovers scope keep start)
      (fun _ => SecondLoop env scope keep start faults referenced rest)
      (fun _ root' => Faulty faults ∧ Recovers scope keep start root') (rmtree e) root := by
  apply safe_rmtree h.recovers
  · intro hkeep
    apply h.stay
    intro hfaults _
    exact hkeep.resolve_left hfaults
  · intro c hdir
    have hsteps := h.steps hgarbage hdir
    have hset : (root.set e (.dir none)).get? e = some (.dir none) := get_set_self _ _
    have hlinks (t : Target) : (root.set e (.dir none)).get? e ≠ some (.link t) := by
      intro ht
      rw [hset] at ht
      cases ht
    have hsame : ∀ y, y ≠ e → (root.set e (.dir none)).get? y = root.get? y :=
      fun y hy => get_set_ne hy
    refine ⟨h.recovers_removed hgarbage hsteps.1 hdir hsame hlinks, fun hfaults => ?_⟩
    exact h.removed hgarbage hsteps.1 hdir hsame hlinks fun hnot => absurd hfaults hnot
  · intro c hdir
    rw [PyDict.erase_set]
    have hgone : (root.erase e).get? e = none := get_erase_self e
    have hremoved : SecondLoop env scope keep start faults referenced rest (root.erase e) := by
      apply h.removed hgarbage (h.steps hgarbage hdir).2 hdir (fun y hy => get_erase_ne hy)
      · intro t ht
        rw [hgone] at ht
        cases ht
      · intro _ c' hdir'
        rw [hgone] at hdir'
        cases hdir'
    exact ⟨hremoved.recovers, hremoved⟩

/-- One entry of the second loop. -/
theorem safe_recoverDir
    (h : SecondLoop env scope keep start faults referenced (e :: rest) root) :
    Safe (Answers faults) (Recovers scope keep start)
      (fun _ => SecondLoop env scope keep start faults referenced rest)
      (fun _ root' => Faulty faults ∧ Recovers scope keep start root')
      (recoverDir scope keep referenced e) root := by
  have hrecovers := h.recovers
  unfold recoverDir
  apply safe_look hrecovers _ fun hfaults => ⟨⟨_, hfaults⟩, hrecovers⟩
  split
  · -- what is no internal entry is no garbage
    rename_i hint
    apply safe_done hrecovers
    apply h.stay
    intro _ hgarbage
    obtain ⟨-, o, s, hint', -⟩ := hgarbage
    cases hint.symm.trans hint'
  · rename_i o s hint
    split
    · -- links, and what is to be kept, are passed over
      rename_i hskip
      apply safe_done hrecovers
      apply h.stay
      intro _ hgarbage c hdir
      obtain ⟨hkeep, o', s', hint', -, hkind⟩ := hgarbage
      cases hint.symm.trans hint'
      rcases hskip with hlink | hlink | hlink
      · rcases hkind with hkind | hkind
        · cases hlink.symm.trans hkind.1
        · rcases hkind.1 with hkind | hkind
          · cases hlink.symm.trans hkind
          · cases hlink.symm.trans hkind
      · obtain ⟨t, ht⟩ := Option.isSome_iff_exists.mp hlink
        cases (linkTarget_eq_some.mp ht).symm.trans hdir
      · exact hkeep hlink
    · rename_i hgo
      have hkeep : keep ≠ some e := fun heq => hgo (.inr (.inr heq))
      split
      · rename_i hdeleting
        split
        · -- a retired directory goes only when all names are recovered
          rename_i hall
          apply safe_removeGarbage h
          refine ⟨hkeep, o, s, hint, ?_, .inl ⟨hdeleting, hall⟩⟩
          rw [hall]
          rfl
        · rename_i hall
          apply safe_done hrecovers
          apply h.stay
          intro _ hgarbage
          obtain ⟨-, o', s', hint', -, hkind⟩ := hgarbage
          cases hint.symm.trans hint'
          rcases hkind with hkind | hkind
          · exact absurd hkind.2 hall
          · rcases hkind.1 with hkind | hkind
            · cases hdeleting.symm.trans hkind
            · cases hdeleting.symm.trans hkind
      · rename_i hdeleting
        split
        · rename_i hunused
          apply safe_removeGarbage h
          refine ⟨hkeep, o, s, hint, hunused.2, .inr ⟨?_, hunused.1⟩⟩
          cases s with
          | none => exact .inl rfl
          | deleting => exact absurd rfl hdeleting
          | link => exact absurd (.inl rfl) hgo
          | adopting => exact .inr rfl
        · -- what a link refers to, or is out of scope, stays
          rename_i hused
          apply safe_done hrecovers
          apply h.stay
          intro _ hgarbage
          obtain ⟨-, o', s', hint', hscope, hkind⟩ := hgarbage
          cases hint.symm.trans hint'
          rcases hkind with hkind | hkind
          · exact absurd hkind.1 hdeleting
          · exact absurd ⟨hkind.2, hscope⟩ hused

/-! ## The whole recovery -/

/-- What a recovery leaves: the links of the scope are settled and, without faults, the garbage is gone. -/
def Recovered (env : Env C) (scope keep : Option String) (start : Root C) (faults : Op C → Prop)
    (root : Root C) : Prop :=
  ∃ referenced, SecondLoop env scope keep start faults referenced [] root

theorem Recovers.refl (h : Tidy root) : Recovers scope keep root root :=
  ⟨h, .refl h, fun _ _ _ h => h, fun _ _ h => .inl h, fun _ _ _ _ _ hlink hdir => ⟨hlink, hdir⟩⟩

theorem mem_listing {x : String} {e : Entry C} (h : root.get? x = some e) : x ∈ env.listing root :=
  (env.listing_perm root).mem_iff.mpr (PyDict.mem_keys_iff.mpr ⟨e, h⟩)

/-- The states of a recovery, and what it returns and raises. -/
theorem safe_recovery (h : Tidy root) :
    Safe (Answers faults) (Recovers scope keep root)
      (fun _ => Recovered env scope keep root faults)
      (fun _ root' => Faulty faults ∧ Recovers scope keep root root')
      (deleteUnreferencedAdapterDirs env scope keep) root := by
  have hstart : Recovers scope keep root root := .refl h
  unfold deleteUnreferencedAdapterDirs
  apply safe_look hstart _ fun hfaults => ⟨⟨_, hfaults⟩, hstart⟩
  apply safe_bind fun referenced => FirstLoop env scope keep root [] referenced
  · apply safe_foldlM (FirstLoop env scope keep root)
    · exact fun _ _ _ h => h.recovers
    · exact fun e rest referenced root' h => safe_recoverLink h
    · exact fun _ _ h => h
    · refine ⟨hstart, fun x t hlink hx => ?_, fun d hd => ?_⟩
      · exact absurd (mem_listing hlink) hx
      · cases hd
  · intro referenced root1 hmid hfirst
    apply safe_look hmid _ fun hfaults => ⟨⟨_, hfaults⟩, hmid⟩
    apply safe_forM (SecondLoop env scope keep root faults referenced)
    · exact fun _ _ h => h.recovers
    · exact fun e rest root' h => safe_recoverDir h
    · exact fun _ h => ⟨referenced, h⟩
    · refine ⟨hmid, fun x t hlink => ?_, hfirst.refers, fun _ d _ hd c hdir => ?_⟩
      · apply hfirst.settled x t hlink
        intro hmem
        cases hmem
      · exact hd (mem_listing hdir)

end Miles.AdapterCommit
