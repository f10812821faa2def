import Miles.Spec.Checkpoint.AdapterNames

/-!
# What a step of the committer can do

Every operation of the committer's programs changes the root in one of a few ways. None of them but the
swap of a link and the removal of a name changes what a name stands for.
-/

namespace Miles.AdapterCommit

variable {C : Type} {root root' : Root C} {n m : String}

/-- A link that finishes the adoption of a directory saved before commits -/
def IsAdopting (x n : String) : Prop := internalEntry x = some (n, .adopting)

def IsPhysical (p n : String) : Prop := internalEntry p = some (n, .none)

/-- The pattern also knows names that end in a line break; the committer gives none. -/
def IsProper (x : String) : Prop := x.toList.getLast? ≠ some '\n'

/-- What a name stands for. -/
inductive Version (C : Type) where
  /-- A committed directory. -/
  | linked (entry : String) (content : Option C)
  /-- It is one, or becomes one by the recovery of an adoption. -/
  | pending (entry : String) (content : Option C)
  /-- A directory saved before commits, or what its adoption makes of it. -/
  | saved (content : Option C)
  | foreign (target : Target)
  | file
  | nothing

/-- What a user put under a name is no commit's to replace and no deletion's to remove. -/
def Version.Own : Version C → Prop
  | .foreign _ => False
  | .file => False
  | _ => True

def Linked (root : Root C) (n p : String) (c : Option C) : Prop :=
  root.get? n = some (.link (.here p)) ∧ IsPhysical p n ∧ root.get? p = some (.dir c)

def Pending (root : Root C) (n p : String) (c : Option C) : Prop :=
  root.get? n = none ∧ IsPhysical p n ∧ root.get? p = some (.dir c) ∧
    ∃ x, IsAdopting x n ∧ root.get? x = some (.link (.here p))

def Stands (root : Root C) (n : String) : Version C → Prop
  | .linked p c => Linked root n p c
  | .pending p c => Linked root n p c ∨ Pending root n p c
  | .saved c => root.get? n = some (.dir c) ∨ ∃ p, Linked root n p c ∨ Pending root n p c
  | .foreign t => root.get? n = some (.link t) ∧ isLibraryDir n t = false
  | .file => root.get? n = some .file
  | .nothing =>
    (root.get? n = none ∧ ∀ p c, ¬ Pending root n p c) ∨
      ∃ p, root.get? n = some (.link (.here p)) ∧ IsPhysical p n ∧ root.get? p = none

/-- What the committer's own entries look like. -/
structure Tidy (root : Root C) : Prop where
  proper : ∀ x a e, internalEntry x = some a → root.get? x = some e → IsProper x
  physical : ∀ p n, IsPhysical p n → root.get? p = none ∨ ∃ c, root.get? p = some (.dir c)
  owner : ∀ x n t, IsAdopting x n → root.get? x = some (.link t) → internalEntry n = none
  target : ∀ x n t, IsAdopting x n → root.get? x = some (.link t) →
    ∃ p, t = .here p ∧ IsPhysical p n
  unique : ∀ x y n t u, IsAdopting x n → IsAdopting y n → root.get? x = some (.link t) →
    root.get? y = some (.link u) → x = y
  free : ∀ x n t, IsAdopting x n → root.get? x = some (.link t) →
    root.get? n = none ∨ ∃ c, root.get? n = some (.dir c)

/-- No adoption of the name is under way. -/
def NoAdoption (root : Root C) (n : String) : Prop :=
  ∀ x t, IsAdopting x n → root.get? x ≠ some (.link t)

/-- No name stands on a directory. -/
def Unheld (root : Root C) (n d : String) : Prop :=
  root.get? n ≠ some (.link (.here d)) ∧
    ∀ x, IsAdopting x n → root.get? n = none → root.get? x ≠ some (.link (.here d))

/-- What the committer does within the scope of one name, or of all. -/
inductive Step (scope : Option String) : Root C → Root C → Prop
  /-- A dangling link to a directory of the library goes. -/
  | dropDangling {root : Root C} {x p : String} (hscope : concerns scope x)
      (hx : root.get? x = some (.link (.here p))) (hp : IsPhysical p x)
      (hname : ∀ o, ¬ IsAdopting x o) (hnone : root.get? p = none) :
      Step scope root (root.erase x)
  /-- So does an adoption that has not renamed the directory, or lost it. -/
  | dropAdopting {root : Root C} {x o p : String} (hscope : concerns scope o)
      (hx : root.get? x = some (.link (.here p))) (ho : IsAdopting x o)
      (hdone : ∀ c, root.get? p = some (.dir c) → root.get? o ≠ none) :
      Step scope root (root.erase x)
  | finish {root : Root C} {x o : String} {t : Target} (hscope : concerns scope o)
      (hx : root.get? x = some (.link t)) (ho : IsAdopting x o) (hnone : root.get? o = none) :
      Step scope root ((root.erase x).set o (.link t))
  | unstage {root : Root C} {x o : String} (hscope : concerns scope o)
      (hx : internalEntry x = some (o, .link)) : Step scope root (root.erase x)
  | clear {root : Root C} {d o : String} {s : Suffix} {c : Option C} (hscope : concerns scope o)
      (hd : root.get? d = some (.dir c)) (hint : internalEntry d = some (o, s))
      (hfree : s = .none → internalEntry o = none → Unheld root o d) :
      Step scope root (root.set d (.dir none))
  | remove {root : Root C} {d o : String} {s : Suffix} {c : Option C} (hscope : concerns scope o)
      (hd : root.get? d = some (.dir c)) (hint : internalEntry d = some (o, s))
      (hfree : s = .none → internalEntry o = none → Unheld root o d) :
      Step scope root (root.erase d)
  | retire {root : Root C} {d d' o : String} {c : Option C} (hscope : concerns scope o)
      (hd : root.get? d = some (.dir c)) (hint : IsPhysical d o) (hfree : Unheld root o d)
      (hd' : internalEntry d' = some (o, .deleting)) (hproper : IsProper d') :
      Step scope root ((root.erase d).set d' (.dir c))
  | stage {root : Root C} {x o w : String} (hscope : concerns scope o)
      (hx : internalEntry x = some (o, .link)) (hproper : IsProper x) :
      Step scope root (root.set x (.link (.here w)))
  | adopt {root : Root C} {x o p : String} {c : Option C} (hscope : concerns scope o)
      (hname : internalEntry o = none) (ho : root.get? o = some (.dir c)) (hx : IsAdopting x o)
      (hp : IsPhysical p o) (hno : NoAdoption root o) (hproper : IsProper x) :
      Step scope root (root.set x (.link (.here p)))
  | move {root : Root C} {x o p : String} {c : Option C} (hscope : concerns scope o)
      (hname : internalEntry o = none) (ho : root.get? o = some (.dir c)) (hx : IsAdopting x o)
      (hlink : root.get? x = some (.link (.here p))) (hp : IsPhysical p o) (hproper : IsProper p) :
      Step scope root ((root.erase o).set p (.dir c))
  | mkdir {root : Root C} {p o : String} (hscope : concerns scope o) (hp : IsPhysical p o)
      (hnone : root.get? p = none) (hfree : ∀ x, root.get? x ≠ some (.link (.here p)))
      (hproper : IsProper p) : Step scope root (root.set p (.dir none))
  | fill {root : Root C} {p o : String} {c c' : Option C} (hscope : concerns scope o)
      (hp : IsPhysical p o) (hd : root.get? p = some (.dir c))
      (hfree : ∀ x, root.get? x ≠ some (.link (.here p))) : Step scope root (root.set p (.dir c'))

/-! ## Roots that differ in few entries -/

theorem Pending.frame {p : String} {c : Option C} (h : Pending root n p c)
    (hname : root'.get? n = root.get? n)
    (hadopting : ∀ x q, IsAdopting x n →
      (root'.get? x = some (.link (.here q)) ↔ root.get? x = some (.link (.here q))))
    (hphysical : root'.get? p = root.get? p) : Pending root' n p c := by
  obtain ⟨hnone, hp, hdir, x, hx, hlink⟩ := h
  refine ⟨?_, hp, ?_, x, hx, (hadopting x p hx).mpr hlink⟩
  · rw [hname]
    exact hnone
  · rw [hphysical]
    exact hdir

theorem Linked.frame {p : String} {c : Option C} (h : Linked root n p c)
    (hname : root'.get? n = root.get? n) (hphysical : root'.get? p = root.get? p) :
    Linked root' n p c := by
  obtain ⟨hlink, hp, hdir⟩ := h
  refine ⟨?_, hp, ?_⟩
  · rw [hname]
    exact hlink
  · rw [hphysical]
    exact hdir

/-- What a name stands for is in the name, the links of its adoptions and the directories that it
    stands on. -/
theorem Stands.frame {v : Version C} (h : Stands root n v) (hname : root'.get? n = root.get? n)
    (hadopting : ∀ x q, IsAdopting x n →
      (root'.get? x = some (.link (.here q)) ↔ root.get? x = some (.link (.here q))))
    (hphysical : ∀ p, IsPhysical p n → root'.get? p = root.get? p ∨ Unheld root n p) :
    Stands root' n v := by
  have hlinked {p : String} {c : Option C} (h : Linked root n p c) : Linked root' n p c := by
    rcases hphysical p h.2.1 with hsame | hfree
    · exact h.frame hname hsame
    · exact absurd h.1 hfree.1
  have hpending {p : String} {c : Option C} (h : Pending root n p c) : Pending root' n p c := by
    rcases hphysical p h.2.1 with hsame | hfree
    · exact h.frame hname hadopting hsame
    · obtain ⟨hnone, -, -, x, hx, hlink⟩ := h
      exact absurd hlink (hfree.2 x hx hnone)
  cases v with
  | linked p c => exact hlinked h
  | pending p c =>
    rcases h with h | h
    · exact .inl (hlinked h)
    · exact .inr (hpending h)
  | saved c =>
    rcases h with hplain | hrest
    · left
      rw [hname]
      exact hplain
    · obtain ⟨p, h | h⟩ := hrest
      · exact .inr ⟨p, .inl (hlinked h)⟩
      · exact .inr ⟨p, .inr (hpending h)⟩
  | foreign t =>
    refine ⟨?_, h.2⟩
    rw [hname]
    exact h.1
  | file =>
    show root'.get? n = some .file
    rw [hname]
    exact h
  | nothing =>
    rcases h with hnone | hdangling
    · left
      refine ⟨?_, fun p c hp => ?_⟩
      · rw [hname]
        exact hnone.1
      · -- a directory that is adopted now was adopted before
        rcases hphysical p hp.2.1 with hsame | hfree
        · exact hnone.2 p c (hp.frame hname.symm (fun x q hx => (hadopting x q hx).symm) hsame.symm)
        · obtain ⟨-, -, -, x, hx, hlink⟩ := hp
          exact hfree.2 x hx hnone.1 ((hadopting x p hx).mp hlink)
    · obtain ⟨p, hlink, hp, hgone⟩ := hdangling
      right
      refine ⟨p, ?_, hp, ?_⟩
      · rw [hname]
        exact hlink
      · rcases hphysical p hp with hsame | hfree
        · rw [hsame]
          exact hgone
        · exact absurd hlink hfree.1

/-! ## Names of different kinds -/

theorem name_ne (hn : internalEntry n = none) {x : String} {a : String × Suffix}
    (hx : internalEntry x = some a) : n ≠ x := by
  intro heq
  rw [heq, hx] at hn
  cases hn

theorem entry_ne {x y : String} {a b : String × Suffix} (hx : internalEntry x = some a)
    (hy : internalEntry y = some b) (hne : a ≠ b) : x ≠ y := by
  intro heq
  rw [heq, hy] at hx
  exact hne (Option.some.inj hx).symm

theorem get_erase_ne {x y : String} (h : x ≠ y) : (root.erase y).get? x = root.get? x := by
  rw [PyDict.get?_erase, if_neg h]

theorem get_erase_self (x : String) : (root.erase x).get? x = none := by
  rw [PyDict.get?_erase, if_pos rfl]

theorem get_set_ne {x y : String} {e : Entry C} (h : x ≠ y) :
    (root.set y e).get? x = root.get? x := by
  rw [PyDict.get?_set, if_neg h]

theorem get_set_self (x : String) (e : Entry C) : (root.set x e).get? x = some e := by
  rw [PyDict.get?_set, if_pos rfl]

theorem Tidy.ne_of_link (h : Tidy root) {x p : String} {t : Target}
    (hx : root.get? x = some (.link t)) (hp : IsPhysical p n) : p ≠ x := by
  intro heq
  rcases h.physical p n hp with hnone | hdir
  · rw [heq, hx] at hnone
    cases hnone
  · obtain ⟨c, hdir⟩ := hdir
    rw [heq, hx] at hdir
    cases hdir

theorem isLibraryDir_of_physical {p : String} (hp : IsPhysical p n) :
    isLibraryDir n (.here p) = true := decide_eq_true hp

/-! ## What the steps keep -/

section
variable {v : Version C}

/-- A dangling link stands for nothing, and so does the name without it. -/
theorem stands_dropDangling (htidy : Tidy root) (h : Stands root n v) {p : String}
    (hlink : root.get? n = some (.link (.here p))) (hp : IsPhysical p n)
    (hnone : root.get? p = none) : Stands (root.erase n) n v := by
  have hlinked {q : String} {c : Option C} (h : Linked root n q c) : False := by
    have htarget := h.1
    rw [hlink] at htarget
    cases htarget
    have hdir := h.2.2
    rw [hnone] at hdir
    cases hdir
  have hpending {q : String} {c : Option C} (h : Pending root n q c) : False := by
    have hgone := h.1
    rw [hlink] at hgone
    cases hgone
  cases v with
  | linked q c => exact (hlinked h).elim
  | pending q c =>
    rcases h with h | h
    · exact (hlinked h).elim
    · exact (hpending h).elim
  | saved c =>
    rcases h with h | h
    · rw [hlink] at h
      cases h
    · obtain ⟨q, h | h⟩ := h
      · exact (hlinked h).elim
      · exact (hpending h).elim
  | foreign t =>
    have htarget := h.1
    rw [hlink] at htarget
    cases htarget
    have hforeign := h.2
    rw [isLibraryDir_of_physical hp] at hforeign
    cases hforeign
  | file =>
    change root.get? n = some .file at h
    rw [hlink] at h
    cases h
  | nothing =>
    left
    refine ⟨get_erase_self n, fun q c hq => ?_⟩
    -- a link stands under the name, so no adoption of it is under way
    obtain ⟨-, -, -, x, hx, hadopting⟩ := hq
    rw [PyDict.get?_erase] at hadopting
    split at hadopting
    · cases hadopting
    · rcases htidy.free x n _ hx hadopting with hfree | hfree
      · rw [hlink] at hfree
        cases hfree
      · obtain ⟨c', hfree⟩ := hfree
        rw [hlink] at hfree
        cases hfree

/-- An adoption that is not needed, or has nothing to give, goes. -/
theorem stands_dropAdopting (htidy : Tidy root) (hn : internalEntry n = none)
    (h : Stands root n v) {x p : String} (hx : IsAdopting x n)
    (hlink : root.get? x = some (.link (.here p)))
    (hdone : ∀ c, root.get? p = some (.dir c) → root.get? n ≠ none) :
    Stands (root.erase x) n v := by
  have hname : (root.erase x).get? n = root.get? n := get_erase_ne (name_ne hn hx)
  have hphysical {q : String} (hq : IsPhysical q n) : (root.erase x).get? q = root.get? q :=
    get_erase_ne (htidy.ne_of_link hlink hq)
  have hlinked {q : String} {c : Option C} (h : Linked root n q c) :
      Linked (root.erase x) n q c := h.frame hname (hphysical h.2.1)
  have hpending {q : String} {c : Option C} (h : Pending root n q c) : False := by
    obtain ⟨hnone, -, hdir, y, hy, hadopting⟩ := h
    have heq := htidy.unique y x n _ _ hy hx hadopting hlink
    rw [heq, hlink] at hadopting
    cases hadopting
    exact hdone c hdir hnone
  cases v with
  | linked q c => exact hlinked h
  | pending q c =>
    rcases h with h | h
    · exact .inl (hlinked h)
    · exact (hpending h).elim
  | saved c =>
    rcases h with h | h
    · left
      rw [hname]
      exact h
    · obtain ⟨q, h | h⟩ := h
      · exact .inr ⟨q, .inl (hlinked h)⟩
      · exact (hpending h).elim
  | foreign t =>
    refine ⟨?_, h.2⟩
    rw [hname]
    exact h.1
  | file =>
    show (root.erase x).get? n = some .file
    rw [hname]
    exact h
  | nothing =>
    rcases h with h | h
    · left
      refine ⟨hname.trans h.1, fun q c hq => ?_⟩
      obtain ⟨hnone, hphys, hdir, y, hy, hadopting⟩ := hq
      rw [PyDict.get?_erase] at hadopting
      split at hadopting
      · cases hadopting
      · apply h.2 q c
        refine ⟨h.1, hphys, ?_, y, hy, hadopting⟩
        rw [← hphysical hphys]
        exact hdir
    · obtain ⟨q, hq, hphys, hgone⟩ := h
      exact .inr ⟨q, hname.trans hq, hphys, (hphysical hphys).trans hgone⟩

/-- The recovery of an adoption makes it a commit. -/
theorem stands_finish (htidy : Tidy root) (hn : internalEntry n = none) (h : Stands root n v)
    {x : String} {t : Target} (hx : IsAdopting x n) (hlink : root.get? x = some (.link t))
    (hnone : root.get? n = none) : Stands ((root.erase x).set n (.link t)) n v := by
  obtain ⟨p, ht, hp⟩ := htidy.target x n t hx hlink
  have hphysical {q : String} (hq : IsPhysical q n) :
      ((root.erase x).set n (.link t)).get? q = root.get? q := by
    rw [get_set_ne (name_ne hn hq).symm, get_erase_ne (htidy.ne_of_link hlink hq)]
  have hlinked {q : String} {c : Option C} (h : Linked root n q c) : False := by
    have htarget := h.1
    rw [hnone] at htarget
    cases htarget
  have hpending {q : String} {c : Option C} (h : Pending root n q c) :
      Linked ((root.erase x).set n (.link t)) n q c := by
    obtain ⟨-, hq, hdir, y, hy, hadopting⟩ := h
    have heq := htidy.unique y x n _ _ hy hx hadopting hlink
    rw [heq, hlink] at hadopting
    refine ⟨?_, hq, ?_⟩
    · rw [get_set_self]
      rw [Option.some.inj hadopting]
    · rw [hphysical hq]
      exact hdir
  cases v with
  | linked q c => exact (hlinked h).elim
  | pending q c =>
    rcases h with h | h
    · exact (hlinked h).elim
    · exact .inl (hpending h)
  | saved c =>
    rcases h with h | h
    · rw [hnone] at h
      cases h
    · obtain ⟨q, h | h⟩ := h
      · exact (hlinked h).elim
      · exact .inr ⟨q, .inl (hpending h)⟩
  | foreign t' =>
    have htarget := h.1
    rw [hnone] at htarget
    cases htarget
  | file =>
    change root.get? n = some .file at h
    rw [hnone] at h
    cases h
  | nothing =>
    rcases h with h | h
    · right
      refine ⟨p, ?_, hp, ?_⟩
      · rw [get_set_self, ht]
      · rw [hphysical hp]
        rcases htidy.physical p n hp with hgone | hdir
        · exact hgone
        · obtain ⟨c, hdir⟩ := hdir
          rw [ht] at hlink
          exact absurd ⟨hnone, hp, hdir, x, hx, hlink⟩ (h.2 p c)
    · obtain ⟨q, hq, -⟩ := h
      rw [hnone] at hq
      cases hq

/-- A directory under a name is one saved before commits. -/
theorem Stands.eq_saved (h : Stands root n v) {c : Option C}
    (hdir : root.get? n = some (.dir c)) : v = .saved c := by
  have hlinked {q : String} {c' : Option C} (h : Linked root n q c') : False := by
    have htarget := h.1
    rw [hdir] at htarget
    cases htarget
  have hpending {q : String} {c' : Option C} (h : Pending root n q c') : False := by
    have hgone := h.1
    rw [hdir] at hgone
    cases hgone
  cases v with
  | linked q c' => exact (hlinked h).elim
  | pending q c' =>
    rcases h with h | h
    · exact (hlinked h).elim
    · exact (hpending h).elim
  | saved c' =>
    rcases h with h | h
    · rw [hdir] at h
      cases h
      rfl
    · obtain ⟨q, h | h⟩ := h
      · exact (hlinked h).elim
      · exact (hpending h).elim
  | foreign t =>
    have htarget := h.1
    rw [hdir] at htarget
    cases htarget
  | file =>
    change root.get? n = some .file at h
    rw [hdir] at h
    cases h
  | nothing =>
    rcases h with h | h
    · have hgone := h.1
      rw [hdir] at hgone
      cases hgone
    · obtain ⟨q, hq, -⟩ := h
      rw [hdir] at hq
      cases hq

/-- A name that links to a directory of its own is the library's. -/
theorem Stands.own_of_link (h : Stands root n v) {p : String}
    (hlink : root.get? n = some (.link (.here p))) (hp : IsPhysical p n) : v.Own := by
  cases v with
  | foreign t =>
    obtain ⟨htarget, hforeign⟩ := h
    cases hlink.symm.trans htarget
    cases (isLibraryDir_of_physical hp).symm.trans hforeign
  | file => cases hlink.symm.trans h
  | _ => trivial

/-- A directory that is moved for its adoption is still what was saved. -/
theorem stands_move (hn : internalEntry n = none) (h : Stands root n v) {x p : String}
    {c : Option C} (hdir : root.get? n = some (.dir c)) (hx : IsAdopting x n)
    (hlink : root.get? x = some (.link (.here p))) (hp : IsPhysical p n) :
    Stands ((root.erase n).set p (.dir c)) n v := by
  rw [h.eq_saved hdir]
  refine .inr ⟨p, .inr ⟨?_, hp, get_set_self _ _, x, hx, ?_⟩⟩
  · rw [get_set_ne (name_ne hn hp), get_erase_self]
  · have hne : x ≠ p := by
      apply entry_ne hx hp
      intro heq
      cases heq
    rw [get_set_ne hne, get_erase_ne (name_ne hn hx).symm]
    exact hlink

/-- An entry that is none of the name's. -/
theorem Stands.of_other (h : Stands root n v) {x : String}
    (hsame : ∀ y, y ≠ x → root'.get? y = root.get? y) (hname : n ≠ x)
    (hadopting : ¬ IsAdopting x n) (hphysical : ¬ IsPhysical x n) : Stands root' n v := by
  apply h.frame
  · exact hsame n hname
  · intro y q hy
    rw [hsame]
    intro heq
    rw [heq] at hy
    exact hadopting hy
  · intro q hq
    left
    apply hsame
    intro heq
    rw [heq] at hq
    exact hphysical hq

/-- Another name -/
theorem Stands.of_name (h : Stands root n v) {o : String} (ho : internalEntry o = none)
    (hne : n ≠ o) (hsame : ∀ y, y ≠ o → root'.get? y = root.get? y) : Stands root' n v := by
  apply h.of_other hsame hne
  · intro hadopting
    exact name_ne ho hadopting rfl
  · intro hphysical
    exact name_ne ho hphysical rfl

/-- The same for an entry that is known by its owner and kind. -/
theorem Stands.of_entry (h : Stands root n v) (hn : internalEntry n = none) {x o : String}
    {s : Suffix} (hx : internalEntry x = some (o, s)) (hsame : ∀ y, y ≠ x → root'.get? y = root.get? y)
    (hne : o ≠ n ∨ s = .link ∨ s = .deleting) : Stands root' n v := by
  apply h.of_other hsame (name_ne hn hx)
  · intro hadopting
    cases hx.symm.trans hadopting
    rcases hne with hne | hne | hne
    · exact hne rfl
    · cases hne
    · cases hne
  · intro hphysical
    cases hx.symm.trans hphysical
    rcases hne with hne | hne | hne
    · exact hne rfl
    · cases hne
    · cases hne

/-- A directory that the name does not stand on. -/
theorem Stands.of_unheld (h : Stands root n v) (hn : internalEntry n = none) {d : String}
    (hd : IsPhysical d n) (hfree : Unheld root n d)
    (hsame : ∀ y, y ≠ d → root'.get? y = root.get? y) : Stands root' n v := by
  apply h.frame
  · exact hsame n (name_ne hn hd)
  · intro y q hy
    rw [hsame]
    apply entry_ne hy hd
    intro heq
    cases heq
  · intro q hq
    by_cases heq : q = d
    · rw [heq]
      exact .inr hfree
    · exact .inl (hsame q heq)

/-- An internal directory that is not in use, whatever happens to it short of becoming a link. -/
theorem Stands.of_unused_dir (h : Stands root n v) (hn : internalEntry n = none) {d o : String}
    {s : Suffix} {c : Option C} (hd : root.get? d = some (.dir c))
    (hint : internalEntry d = some (o, s))
    (hfree : s = .none → internalEntry o = none → Unheld root o d)
    (hsame : ∀ y, y ≠ d → root'.get? y = root.get? y)
    (hnew : ∀ t, root'.get? d ≠ some (.link t)) : Stands root' n v := by
  by_cases hon : o = n
  · subst hon
    cases s with
    | none => exact h.of_unheld hn hint (hfree rfl hn) hsame
    | deleting => exact h.of_entry hn hint hsame (.inr (.inr rfl))
    | link => exact h.of_entry hn hint hsame (.inr (.inl rfl))
    | adopting =>
      -- a directory by the name of an adoption's link
      apply h.frame
      · exact hsame o (name_ne hn hint)
      · intro y q hy
        by_cases heq : y = d
        · rw [heq, hd]
          exact ⟨fun hlink => absurd hlink (hnew _), fun hlink => by cases hlink⟩
        · rw [hsame y heq]
      · intro q hq
        left
        apply hsame
        apply entry_ne hq hint
        intro heq
        cases heq
  · exact h.of_entry hn hint hsame (.inl hon)

variable {scope : Option String}

/-- What every step keeps of what the names stand for. -/
theorem Step.stands (hstep : Step scope root root') (htidy : Tidy root)
    (hn : internalEntry n = none) (h : Stands root n v) : Stands root' n v := by
  -- an entry of another name is left alone; each case is about entries of `n` itself
  cases hstep with
  | @dropDangling x p hscope hx hp hname hnone =>
    by_cases hxn : x = n
    · subst hxn
      exact stands_dropDangling htidy h hx hp hnone
    · apply h.of_other (fun y hy => get_erase_ne hy) (fun heq => hxn heq.symm) (hname n)
      intro hphysical
      exact htidy.ne_of_link hx hphysical rfl
  | @dropAdopting x o p hscope hx ho hdone =>
    by_cases hon : o = n
    · -- its adoption is done: the name links to the directory by now
      subst hon
      exact stands_dropAdopting htidy hn h ho hx hdone
    · exact h.of_entry hn ho (fun y hy => get_erase_ne hy) (.inl hon)
  | @finish x o t hscope hx ho hnone =>
    by_cases hon : o = n
    · subst hon
      exact stands_finish htidy hn h ho hx hnone
    · have howner := htidy.owner x o t ho hx
      have herased : Stands (root.erase x) n v :=
        h.of_entry hn ho (fun y hy => get_erase_ne hy) (.inl hon)
      exact herased.of_name howner (fun heq => hon heq.symm) fun y hy => get_set_ne hy
  | @unstage x o hscope hx =>
    exact h.of_entry hn hx (fun y hy => get_erase_ne hy) (.inr (.inl rfl))
  | @clear d o s c hscope hd hint hfree =>
    apply h.of_unused_dir hn hd hint hfree (fun y hy => get_set_ne hy)
    intro t ht
    rw [get_set_self] at ht
    cases ht
  | @remove d o s c hscope hd hint hfree =>
    apply h.of_unused_dir hn hd hint hfree (fun y hy => get_erase_ne hy)
    intro t ht
    rw [get_erase_self] at ht
    cases ht
  | @retire d d' o c hscope hd hint hfree hd' hproper =>
    have herased : Stands (root.erase d) n v := by
      apply h.of_unused_dir hn hd hint (fun _ _ => hfree) (fun y hy => get_erase_ne hy)
      intro t ht
      rw [get_erase_self] at ht
      cases ht
    exact herased.of_entry hn hd' (fun y hy => get_set_ne hy) (.inr (.inr rfl))
  | @stage x o w hscope hx hproper =>
    exact h.of_entry hn hx (fun y hy => get_set_ne hy) (.inr (.inl rfl))
  | @adopt x o p c hscope hname ho hx hp hno hproper =>
    by_cases hon : o = n
    · subst hon
      rw [h.eq_saved ho]
      left
      rw [get_set_ne (name_ne hn hx)]
      exact ho
    · exact h.of_entry hn hx (fun y hy => get_set_ne hy) (.inl hon)
  | @move x o p c hscope hname ho hx hlink hp hproper =>
    by_cases hon : o = n
    · subst hon
      exact stands_move hn h ho hx hlink hp
    · have herased : Stands (root.erase o) n v :=
        h.of_name hname (fun heq => hon heq.symm) fun y hy => get_erase_ne hy
      exact herased.of_entry hn hp (fun y hy => get_set_ne hy) (.inl hon)
  | @mkdir p o hscope hp hnone hfree hproper =>
    by_cases hon : o = n
    · subst hon
      exact h.of_unheld hn hp ⟨hfree o, fun x _ _ => hfree x⟩ fun y hy => get_set_ne hy
    · exact h.of_entry hn hp (fun y hy => get_set_ne hy) (.inl hon)
  | @fill p o c c' hscope hp hd hfree =>
    by_cases hon : o = n
    · subst hon
      exact h.of_unheld hn hp ⟨hfree o, fun x _ _ => hfree x⟩ fun y hy => get_set_ne hy
    · exact h.of_entry hn hp (fun y hy => get_set_ne hy) (.inl hon)

end

/-- An entry changes, but not into an adoption or a link of the library's own names. -/
theorem Tidy.edit (h : Tidy root) {x : String}
    (hsame : ∀ y, y ≠ x → root'.get? y = root.get? y)
    (hproper : ∀ e, root'.get? x = some e → internalEntry x = none ∨ IsProper x)
    (hphysical : ∀ m, IsPhysical x m → root'.get? x = none ∨ ∃ c, root'.get? x = some (.dir c))
    (hlink : ∀ m t, IsAdopting x m → root'.get? x ≠ some (.link t))
    (hname : internalEntry x = none →
      NoAdoption root x ∨ root'.get? x = none ∨ ∃ c, root'.get? x = some (.dir c)) :
    Tidy root' := by
  have hbefore {y m : String} {t : Target} (hy : IsAdopting y m)
      (hroot' : root'.get? y = some (.link t)) : y ≠ x ∧ root.get? y = some (.link t) := by
    have hne : y ≠ x := by
      intro heq
      rw [heq] at hy hroot'
      exact hlink m t hy hroot'
    rw [hsame y hne] at hroot'
    exact ⟨hne, hroot'⟩
  constructor
  · intro y a e hy hroot'
    by_cases heq : y = x
    · rw [heq] at hy hroot' ⊢
      rcases hproper e hroot' with hname | hproper
      · cases hname.symm.trans hy
      · exact hproper
    · rw [hsame y heq] at hroot'
      exact h.proper y a e hy hroot'
  · intro p m hp
    by_cases heq : p = x
    · rw [heq] at hp ⊢
      exact hphysical m hp
    · rw [hsame p heq]
      exact h.physical p m hp
  · intro y m t hy hroot'
    exact h.owner y m t hy (hbefore hy hroot').2
  · intro y m t hy hroot'
    exact h.target y m t hy (hbefore hy hroot').2
  · intro y z m t u hy hz hroot' hroot''
    exact h.unique y z m t u hy hz (hbefore hy hroot').2 (hbefore hz hroot'').2
  · intro y m t hy hroot'
    have hlinked := (hbefore hy hroot').2
    by_cases heq : m = x
    · rw [heq] at hy ⊢
      have howner := h.owner y x t hy hlinked
      rcases hname howner with hno | hfree
      · exact absurd hlinked (hno y t hy)
      · exact hfree
    · rw [hsame m heq]
      exact h.free y m t hy hlinked

theorem Tidy.erase (h : Tidy root) (x : String) : Tidy (root.erase x) := by
  have hnone : (root.erase x).get? x = none := get_erase_self x
  apply h.edit (fun y hy => get_erase_ne hy) _ (fun m _ => .inl hnone)
  · intro m t _ hlink
    rw [hnone] at hlink
    cases hlink
  · exact fun _ => .inr (.inl hnone)
  · intro e he
    rw [hnone] at he
    cases he

theorem Tidy.set_dir (h : Tidy root) {x : String} (hproper : IsProper x) (c : Option C) :
    Tidy (root.set x (.dir c)) := by
  have hdir : (root.set x (.dir c)).get? x = some (.dir c) := get_set_self _ _
  apply h.edit (fun y hy => get_set_ne hy) (fun _ _ => .inr hproper) (fun m _ => .inr ⟨c, hdir⟩)
  · intro m t _ hlink
    rw [hdir] at hlink
    cases hlink
  · exact fun _ => .inr (.inr ⟨c, hdir⟩)

theorem Tidy.set_staging (h : Tidy root) {x o : String} (hx : internalEntry x = some (o, .link))
    (hproper : IsProper x) (t : Target) : Tidy (root.set x (.link t)) := by
  apply h.edit (fun y hy => get_set_ne hy) (fun _ _ => .inr hproper)
  · intro m hm
    cases hx.symm.trans hm
  · intro m u hm
    cases hx.symm.trans hm
  · intro hname
    rw [hx] at hname
    cases hname

/-- A name that is not being adopted may become a link. -/
theorem Tidy.set_name (h : Tidy root) (hn : internalEntry n = none) (hno : NoAdoption root n)
    (t : Target) : Tidy (root.set n (.link t)) := by
  apply h.edit (fun y hy => get_set_ne hy) (fun _ _ => .inl hn)
  · intro m hm
    cases hn.symm.trans hm
  · intro m u hm
    cases hn.symm.trans hm
  · exact fun _ => .inl hno

/-- An adoption that begins keeps the root tidy. -/
theorem Tidy.adopt (h : Tidy root) {x o p : String} {c : Option C} (hname : internalEntry o = none)
    (ho : root.get? o = some (.dir c)) (hx : IsAdopting x o) (hp : IsPhysical p o)
    (hno : NoAdoption root o) (hproper : IsProper x) : Tidy (root.set x (.link (.here p))) := by
  have hcases {y m : String} {t : Target} (hy : IsAdopting y m)
      (hlink : (root.set x (.link (.here p))).get? y = some (.link t)) :
      (y = x ∧ m = o ∧ t = .here p) ∨ (y ≠ x ∧ m ≠ o ∧ root.get? y = some (.link t)) := by
    by_cases heq : y = x
    · rw [heq] at hy hlink
      rw [get_set_self] at hlink
      cases hlink
      cases hx.symm.trans hy
      exact .inl ⟨heq, rfl, rfl⟩
    · rw [get_set_ne heq] at hlink
      refine .inr ⟨heq, fun hmo => ?_, hlink⟩
      rw [hmo] at hy
      exact hno y t hy hlink
  -- every adoption of the new root is this one or an old one of another name
  constructor
  · intro y a e hy hroot'
    by_cases heq : y = x
    · rw [heq]
      exact hproper
    · rw [get_set_ne heq] at hroot'
      exact h.proper y a e hy hroot'
  · intro q m hq
    have hne : q ≠ x := by
      apply entry_ne hq hx
      intro heq
      cases heq
    rw [get_set_ne hne]
    exact h.physical q m hq
  · intro y m t hy hlink
    rcases hcases hy hlink with hnew | hold
    · rw [hnew.2.1]
      exact hname
    · exact h.owner y m t hy hold.2.2
  · intro y m t hy hlink
    rcases hcases hy hlink with hnew | hold
    · rw [hnew.2.1, hnew.2.2]
      exact ⟨p, rfl, hp⟩
    · exact h.target y m t hy hold.2.2
  · intro y z m t u hy hz hlink hlink'
    rcases hcases hy hlink with hnew | hold
    · rcases hcases hz hlink' with hnew' | hold'
      · rw [hnew.1, hnew'.1]
      · exact absurd hnew.2.1 hold'.2.1
    · rcases hcases hz hlink' with hnew' | hold'
      · exact absurd hnew'.2.1 hold.2.1
      · exact h.unique y z m t u hy hz hold.2.2 hold'.2.2
  · intro y m t hy hlink
    rcases hcases hy hlink with hnew | hold
    · right
      refine ⟨c, ?_⟩
      rw [hnew.2.1, get_set_ne (name_ne hname hx)]
      exact ho
    · have hne : m ≠ x := by
        intro heq
        have howner := h.owner y m t hy hold.2.2
        rw [heq] at howner
        exact name_ne howner hx rfl
      rw [get_set_ne hne]
      exact h.free y m t hy hold.2.2

/-- Once its adoption is finished, a name has none under way. -/
theorem Tidy.noAdoption_erase (h : Tidy root) {x o : String} {t : Target} (hx : IsAdopting x o)
    (hlink : root.get? x = some (.link t)) : NoAdoption (root.erase x) o := by
  intro y u hy hlink'
  rw [PyDict.get?_erase] at hlink'
  split at hlink'
  · cases hlink'
  · rename_i hne
    exact hne (h.unique y x o u t hy hx hlink' hlink)

/-- Every step keeps the root tidy. -/
theorem Step.tidy (hstep : Step scope root root') (h : Tidy root) :
    Tidy root' := by
  cases hstep with
  | @dropDangling x p hscope hx hp hname hnone => exact h.erase x
  | @dropAdopting x o p hscope hx ho hdone => exact h.erase x
  | @finish x o t hscope hx ho hnone =>
    exact (h.erase x).set_name (h.owner x o t ho hx) (h.noAdoption_erase ho hx) t
  | @unstage x o hscope hx => exact h.erase x
  | @clear d o s c hscope hd hint hfree =>
    exact h.set_dir (h.proper d _ _ hint hd) none
  | @remove d o s c hscope hd hint hfree => exact h.erase d
  | @retire d d' o c hscope hd hint hfree hd' hproper => exact (h.erase d).set_dir hproper c
  | @stage x o w hscope hx hproper => exact h.set_staging hx hproper _
  | @adopt x o p c hscope hname ho hx hp hno hproper => exact h.adopt hname ho hx hp hno hproper
  | @move x o p c hscope hname ho hx hlink hp hproper => exact (h.erase o).set_dir hproper c
  | @mkdir p o hscope hp hnone hfree hproper => exact h.set_dir hproper none
  | @fill p o c c' hscope hp hd hfree => exact h.set_dir (h.proper p _ _ hp hd) c'

/-! ## The two steps that change what a name stands for -/

/-- Another name, when a link is put in the place of a name. -/
theorem stands_swap {v : Version C} (h : Stands root m v) (hm : internalEntry m = none)
    (hn : internalEntry n = none) (hne : m ≠ n) {x : String}
    (hx : internalEntry x = some (n, .link)) (t : Target) :
    Stands ((root.erase x).set n (.link t)) m v := by
  have herased : Stands (root.erase x) m v :=
    h.of_entry hm hx (fun y hy => get_erase_ne hy) (.inr (.inl rfl))
  exact herased.of_name hn hne fun _ hy => get_set_ne hy

/-- Another name, when a name is removed. -/
theorem stands_unlink {v : Version C} (h : Stands root m v) (hn : internalEntry n = none)
    (hne : m ≠ n) : Stands (root.erase n) m v :=
  h.of_name hn hne fun _ hy => get_erase_ne hy

/-! ## The rest of the root -/

/-- The entries of the names that an operation is about: the names and what is internal to them. -/
def InScope (scope : Option String) (x : String) : Prop :=
  concerns scope x ∨ ∃ o s, internalEntry x = some (o, s) ∧ concerns scope o

/-- No step touches an entry out of its scope. -/
theorem Step.frame (hstep : Step scope root root') {x : String}
    (hx : ¬ InScope scope x) : root'.get? x = root.get? x := by
  have hname {o : String} (ho : concerns scope o) : x ≠ o := by
    intro heq
    rw [← heq] at ho
    exact hx (.inl ho)
  have hinternal {y o : String} {s : Suffix} (hy : internalEntry y = some (o, s))
      (ho : concerns scope o) : x ≠ y := by
    intro heq
    rw [← heq] at hy
    exact hx (.inr ⟨o, s, hy, ho⟩)
  cases hstep with
  | @dropDangling y p hscope hy hp hname' hnone => exact get_erase_ne (hname hscope)
  | @dropAdopting y o p hscope hy ho hdone => exact get_erase_ne (hinternal ho hscope)
  | @finish y o t hscope hy ho hnone =>
    rw [get_set_ne (hname hscope), get_erase_ne (hinternal ho hscope)]
  | @unstage y o hscope hy => exact get_erase_ne (hinternal hy hscope)
  | @clear d o s c hscope hd hint hfree => exact get_set_ne (hinternal hint hscope)
  | @remove d o s c hscope hd hint hfree => exact get_erase_ne (hinternal hint hscope)
  | @retire d d' o c hscope hd hint hfree hd' hproper =>
    rw [get_set_ne (hinternal hd' hscope), get_erase_ne (hinternal hint hscope)]
  | @stage y o w hscope hy hproper => exact get_set_ne (hinternal hy hscope)
  | @adopt y o p c hscope hname' ho hy hp hno hproper => exact get_set_ne (hinternal hy hscope)
  | @move y o p c hscope hname' ho hy hlink hp hproper =>
    rw [get_set_ne (hinternal hp hscope), get_erase_ne (hname hscope)]
  | @mkdir p o hscope hp hnone hfree hproper => exact get_set_ne (hinternal hp hscope)
  | @fill p o c c' hscope hp hd hfree => exact get_set_ne (hinternal hp hscope)

/-! ## Any number of steps -/

/-- What the committer has kept since the start of an operation. -/
structure Keeps (scope : Option String) (start root : Root C) : Prop where
  tidy : Tidy root
  stands : ∀ n v, internalEntry n = none → Stands start n v → Stands root n v
  frame : ∀ x, ¬ InScope scope x → root.get? x = start.get? x

theorem Keeps.refl (h : Tidy root) : Keeps scope root root :=
  ⟨h, fun _ _ _ h => h, fun _ _ => rfl⟩

theorem Keeps.step {start : Root C} (h : Keeps scope start root)
    (hstep : Step scope root root') : Keeps scope start root' :=
  ⟨hstep.tidy h.tidy, fun n v hn hv => hstep.stands h.tidy hn (h.stands n v hn hv),
    fun x hx => (hstep.frame hx).trans (h.frame x hx)⟩

end Miles.AdapterCommit
