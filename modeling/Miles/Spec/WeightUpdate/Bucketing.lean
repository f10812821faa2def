import Miles.ForStd.List
import Miles.ForStd.Rounds
import Miles.Native.WeightUpdate.Bucketing

/-!
# Bucketing loses no weight

What has come out of the atomic groups, and what still waits for its other members, are together the
units that were read. For each prefix and group the suffixes are read in rounds; the stream fails
when a place of the open round is read again, and at its end when a round is open.
-/

namespace Miles.Bucketing

variable {Tensor : Type} {groups : List AtomicUpdateGroup}

/-! ## Groups and matches -/

/-- The group lists that pass the checks. -/
structure WellFormed (groups : List AtomicUpdateGroup) : Prop where
  suffixes : ∀ group ∈ groups, group.suffixes ≠ []
  nonempty : ∀ group ∈ groups, ∀ suffix ∈ group.suffixes, suffix ≠ ""
  nodup : ∀ group ∈ groups, group.suffixes.Nodup
  keys : (groups.map AtomicUpdateGroup.key).Nodup

theorem checkGroups_eq_ok : checkGroups groups = .ok () ↔ WellFormed groups := by
  have hgroup (group : AtomicUpdateGroup) : checkGroup group = .ok () ↔
      group.suffixes ≠ [] ∧ (∀ suffix ∈ group.suffixes, suffix ≠ "") ∧ group.suffixes.Nodup := by
    unfold checkGroup
    constructor
    · intro h
      obtain ⟨_, hsuffixes, h⟩ := Except.bind_eq_ok.mp h
      obtain ⟨_, hnonempty, h⟩ := Except.bind_eq_ok.mp h
      exact ⟨Except.ensure_eq_ok.mp hsuffixes, Except.ensure_eq_ok.mp hnonempty,
        Except.ensure_eq_ok.mp h⟩
    · intro h
      exact Except.bind_eq_ok.mpr ⟨(), Except.ensure_eq_ok.mpr h.1, Except.bind_eq_ok.mpr
        ⟨(), Except.ensure_eq_ok.mpr h.2.1, Except.ensure_eq_ok.mpr h.2.2⟩⟩
  unfold checkGroups
  constructor
  · intro h
    obtain ⟨_, hgroups, hkeys⟩ := Except.bind_eq_ok.mp h
    have hgroups := Except.forM_eq_ok.mp hgroups
    exact ⟨fun group hmem => ((hgroup group).mp (hgroups group hmem)).1,
      fun group hmem => ((hgroup group).mp (hgroups group hmem)).2.1,
      fun group hmem => ((hgroup group).mp (hgroups group hmem)).2.2,
      Except.ensure_eq_ok.mp hkeys⟩
  · intro h
    refine Except.bind_eq_ok.mpr ⟨(), Except.forM_eq_ok.mpr ?_, Except.ensure_eq_ok.mpr h.keys⟩
    intro group hmem
    exact (hgroup group).mpr ⟨h.suffixes group hmem, h.nonempty group hmem, h.nodup group hmem⟩

/-- Groups with one key are one group. -/
theorem WellFormed.eq_of_key (h : WellFormed groups) {a b : AtomicUpdateGroup} (ha : a ∈ groups)
    (hb : b ∈ groups) (hkey : a.key = b.key) : a = b :=
  List.inj_on_of_nodup_map h.keys ha hb hkey

variable {state : AssembleState Tensor} {unit : HfUnit Tensor} {m : SuffixMatch}

/-- A match is a name of the unit that ends with a suffix of a group. -/
theorem mem_suffixMatches
    (h : m ∈ suffixMatches groups unit) :
    m.group ∈ groups ∧ m.group.suffixes[m.suffixIdx]? = some m.suffix ∧
      m.name = m.namePrefix ++ m.suffix := by
  obtain ⟨named, -, h⟩ := List.mem_flatMap.mp h
  obtain ⟨group, hgroup, h⟩ := List.mem_flatMap.mp h
  obtain ⟨suffix, hsuffix, h⟩ := List.mem_filterMap.mp h
  split at h
  · rename_i hends
    cases h
    refine ⟨hgroup, List.mem_zipIdx_iff_getElem?.mp hsuffix, ?_⟩
    obtain ⟨front, hfront⟩ := hends
    have hlength : named.1.toList.length = front.length + suffix.1.toList.length := by
      rw [← hfront, List.length_append]
    have hbefore : named.1.toList.take (named.1.toList.length - suffix.1.toList.length) = front := by
      rw [hlength, Nat.add_sub_cancel, ← hfront, List.take_left' rfl]
    show named.1 = String.ofList (named.1.toList.take _) ++ suffix.1
    rw [hbefore]
    apply String.toList_inj.mp
    rw [String.toList_append, String.toList_ofList, hfront]
  · cases h

/-- The key under which a match waits. -/
def SuffixMatch.slotKey (m : SuffixMatch) : String × String := (m.namePrefix, m.group.key)

/-- The places that the stream reads of one prefix and group. -/
def places (groups : List AtomicUpdateGroup) (units : List (HfUnit Tensor))
    (key : String × String) : List Nat :=
  units.flatMap fun unit => (suffixMatches groups unit).filterMap fun m =>
    if m.slotKey = key then some m.suffixIdx else none

theorem places_concat (groups : List AtomicUpdateGroup) (units : List (HfUnit Tensor))
    (unit : HfUnit Tensor) (key : String × String) :
    places groups (units ++ [unit]) key = places groups units key ++
      (suffixMatches groups unit).filterMap fun m =>
        if m.slotKey = key then some m.suffixIdx else none := by
  simp [places]

theorem places_lt {units : List (HfUnit Tensor)} (hwf : WellFormed groups) {namePrefix : String}
    {group : AtomicUpdateGroup} (hgroup : group ∈ groups) :
    ∀ i ∈ places groups units (namePrefix, group.key), i < group.suffixes.length := by
  intro i hi
  obtain ⟨unit, -, hi⟩ := List.mem_flatMap.mp hi
  obtain ⟨m, hm, hi⟩ := List.mem_filterMap.mp hi
  split at hi
  · rename_i hkey
    cases hi
    obtain ⟨hmember, hsuffix, -⟩ := mem_suffixMatches hm
    have hsame := hwf.eq_of_key hmember hgroup (congrArg Prod.snd hkey)
    rw [← hsame]
    exact (List.getElem?_eq_some_iff.mp hsuffix).1
  · cases hi

/-! ## What comes out -/

/-- A unit that passed through, or the units of one atomic group, one for each suffix. -/
inductive Piece (Tensor : Type) where
  | plain (unit : HfUnit Tensor)
  | atomic (namePrefix : String) (group : AtomicUpdateGroup) (members : List (HfUnit Tensor))

def Piece.units : Piece Tensor → List (HfUnit Tensor)
  | .plain unit => [unit]
  | .atomic _ _ members => members

/-- The unit that was yielded for a piece: its units one after the other. -/
def Piece.merged (piece : Piece Tensor) : HfUnit Tensor := piece.units.flatten

/-- The unit matches this suffix of the group, with this prefix, and nothing else. -/
def IsMember (groups : List AtomicUpdateGroup) (namePrefix : String) (group : AtomicUpdateGroup)
    (i : Nat) (unit : HfUnit Tensor) : Prop :=
  ∃ suffix, group.suffixes[i]? = some suffix ∧
    suffixMatches groups unit = [⟨group, i, suffix, namePrefix ++ suffix⟩]

/-- A plain unit matches no suffix; an atomic group has a member for each of its suffixes, in
    their order. -/
def Piece.Valid (groups : List AtomicUpdateGroup) : Piece Tensor → Prop
  | .plain unit => unit ≠ [] ∧ suffixMatches groups unit = []
  | .atomic namePrefix group members =>
    group ∈ groups ∧ members.length = group.suffixes.length ∧
      ∀ (i : Nat) (unit : HfUnit Tensor), members[i]? = some unit →
        IsMember groups namePrefix group i unit

/-! ## The pending groups -/

/-- The slots of a key, empty before its first member. -/
def slotsAt (state : AssembleState Tensor) (namePrefix : String) (group : AtomicUpdateGroup) :
    Slots Tensor :=
  state.pending.getD (namePrefix, group.key) (List.replicate group.suffixes.length none)

/-- The units that wait for the other members of their group. -/
def waiting (pending : PyDict (String × String) (Slots Tensor)) : List (HfUnit Tensor) :=
  pending.items.flatMap fun item => item.2.filterMap id

theorem waiting_set (pending : PyDict (String × String) (Slots Tensor)) (key : String × String)
    (slots : Slots Tensor) :
    (waiting (pending.set key slots)).Perm (slots.filterMap id ++ waiting (pending.erase key)) :=
  (pending.perm_items_set key slots).flatMap_right _

/-- What waits under one key, and under all others. -/
theorem waiting_split (state : AssembleState Tensor) (namePrefix : String)
    (group : AtomicUpdateGroup) :
    (waiting state.pending).Perm ((slotsAt state namePrefix group).filterMap id ++
      waiting (state.pending.erase (namePrefix, group.key))) := by
  unfold slotsAt PyDict.getD
  cases h : state.pending.get? (namePrefix, group.key) with
  | none =>
    have hnone : ((List.replicate group.suffixes.length none : Slots Tensor)).filterMap id = [] := by
      rw [List.filterMap_eq_nil_iff]
      intro slot hslot
      rw [List.eq_of_mem_replicate hslot]
      rfl
    show (waiting state.pending).Perm (List.filterMap id (List.replicate _ none) ++ _)
    rw [hnone, List.nil_append]
    exact .of_eq (congrArg (List.flatMap _) (PyDict.items_erase_of_none h).symm)
  | some slots => exact (PyDict.perm_items_of_get? h).flatMap_right _

/-- Filling an empty slot adds its unit. -/
theorem filterMap_set_perm {slots : Slots Tensor} {i : Nat} (h : slots[i]? = some none)
    (unit : HfUnit Tensor) :
    ((slots.set i (some unit)).filterMap id).Perm (unit :: slots.filterMap id) := by
  induction slots generalizing i with
  | nil => cases h
  | cons slot slots ih =>
    cases i with
    | zero =>
      cases h
      exact .refl _
    | succ i =>
      have hrest := ih h
      cases slot with
      | none => exact hrest
      | some other =>
        show (other :: (slots.set i (some unit)).filterMap id).Perm (unit :: other :: _)
        exact (hrest.cons other).trans (.swap unit other _)

/-- The slots of a key agree with the open round of its places. -/
structure Waits (state : AssembleState Tensor) (namePrefix : String) (group : AtomicUpdateGroup)
    (taken : List Nat) : Prop where
  length : (slotsAt state namePrefix group).length = group.suffixes.length
  free : ∀ i < group.suffixes.length,
    (slotsAt state namePrefix group)[i]? = some none ↔ i ∉ taken
  absent : state.pending.get? (namePrefix, group.key) = none ↔ taken = []

theorem slotsAt_congr {state state' : AssembleState Tensor} {namePrefix : String}
    {group : AtomicUpdateGroup} (h : state'.pending.get? (namePrefix, group.key) =
      state.pending.get? (namePrefix, group.key)) :
    slotsAt state' namePrefix group = slotsAt state namePrefix group := by
  unfold slotsAt PyDict.getD
  rw [h]

theorem Waits.congr {state state' : AssembleState Tensor} {namePrefix : String}
    {group : AtomicUpdateGroup} {taken : List Nat} (h : Waits state namePrefix group taken)
    (hget : state'.pending.get? (namePrefix, group.key) =
      state.pending.get? (namePrefix, group.key)) : Waits state' namePrefix group taken where
  length := (congrArg List.length (slotsAt_congr hget)).trans h.length
  free i hi := by
    rw [slotsAt_congr hget]
    exact h.free i hi
  absent := by
    rw [hget]
    exact h.absent

/-! ## The stream so far -/

/-- What was yielded and what waits are the units that were read. -/
abbrev Accounted (groups : List AtomicUpdateGroup) (units : List (HfUnit Tensor))
    (state : AssembleState Tensor) : Prop :=
  ∃ pieces : List (Piece Tensor), state.emitted = pieces.map Piece.merged ∧
    (∀ piece ∈ pieces, piece.Valid groups) ∧
    (pieces.flatMap Piece.units ++ waiting state.pending).Perm (units.filter (!·.isEmpty))

/-- What holds after the units of a stream have been read. -/
structure Assembled (groups : List AtomicUpdateGroup) (units : List (HfUnit Tensor))
    (state : AssembleState Tensor) : Prop where
  single : ∀ unit ∈ units, (suffixMatches groups unit).length ≤ 1
  reads : ∀ namePrefix, ∀ group ∈ groups, ∃ taken,
    Rounds.read group.suffixes.length (places groups units (namePrefix, group.key)) = some taken ∧
      Waits state namePrefix group taken
  foreign : ∀ key, state.pending.get? key ≠ none → ∃ group ∈ groups, group.key = key.2
  members : ∀ namePrefix, ∀ group ∈ groups, ∀ (i : Nat) (unit : HfUnit Tensor),
    (slotsAt state namePrefix group)[i]? = some (some unit) → IsMember groups namePrefix group i unit
  matched : ∀ key, key ∈ state.matchedGroupKeys ↔
    ∃ unit ∈ units, ∃ m ∈ suffixMatches groups unit, m.group.key = key
  pieces : Accounted groups units state

theorem Assembled.nil (groups : List AtomicUpdateGroup) :
    Assembled groups [] ({} : AssembleState Tensor) where
  single := by simp
  reads namePrefix group hgroup := by
    refine ⟨[], rfl, ?_⟩
    have hslots : slotsAt ({} : AssembleState Tensor) namePrefix group =
      List.replicate group.suffixes.length none := rfl
    constructor
    · rw [hslots, List.length_replicate]
    · intro i hi
      rw [hslots, List.getElem?_replicate, if_pos hi]
      simp
    · exact ⟨fun _ => rfl, fun _ => rfl⟩
  foreign key h := absurd rfl h
  members namePrefix group hgroup i unit h := by
    have hslots : slotsAt ({} : AssembleState Tensor) namePrefix group =
      List.replicate group.suffixes.length none := rfl
    rw [hslots, List.getElem?_replicate] at h
    split at h
    · cases h
    · cases h
  matched key := by simp
  pieces := ⟨[], rfl, by simp, .refl _⟩

/-- A unit without a match leaves the places, the slots and the matched groups. -/
theorem Assembled.of_no_match {units : List (HfUnit Tensor)} {state state' : AssembleState Tensor}
    (h : Assembled groups units state)
    (hmatches : suffixMatches groups unit = []) (hpending : state'.pending = state.pending)
    (hmatched : state'.matchedGroupKeys = state.matchedGroupKeys)
    (hpieces : Accounted groups (units ++ [unit]) state') :
    Assembled groups (units ++ [unit]) state' := by
  have hplaces (key : String × String) :
      places groups (units ++ [unit]) key = places groups units key := by
    rw [places_concat, hmatches]
    exact List.append_nil _
  have hget (key : String × String) : state'.pending.get? key = state.pending.get? key := by
    rw [hpending]
  refine ⟨?_, ?_, ?_, ?_, ?_, hpieces⟩
  · intro other hother
    cases List.mem_append.mp hother with
    | inl hmem => exact h.single other hmem
    | inr hmem =>
      rw [List.mem_singleton.mp hmem, hmatches]
      exact Nat.zero_le 1
  · intro namePrefix group hgroup
    obtain ⟨taken, hread, hwaits⟩ := h.reads namePrefix group hgroup
    exact ⟨taken, by rw [hplaces]; exact hread, hwaits.congr (hget _)⟩
  · intro key hkey
    rw [hget] at hkey
    exact h.foreign key hkey
  · intro namePrefix group hgroup i other hslot
    rw [slotsAt_congr (hget _)] at hslot
    exact h.members namePrefix group hgroup i other hslot
  · intro key
    rw [hmatched, h.matched]
    simp [hmatches, List.mem_append, or_and_right, exists_or]

/-- A unit with one match changes the slots of one key. -/
theorem Assembled.of_match {units : List (HfUnit Tensor)} {state state' : AssembleState Tensor}
    (h : Assembled groups units state) (hwf : WellFormed groups)
    (hmatches : suffixMatches groups unit = [m]) {taken : List Nat}
    (hothers : ∀ key, key ≠ m.slotKey → state'.pending.get? key = state.pending.get? key)
    (hmatched : state'.matchedGroupKeys = m.group.key :: state.matchedGroupKeys)
    (hread : Rounds.read m.group.suffixes.length (places groups units m.slotKey ++ [m.suffixIdx]) =
      some taken)
    (hwaits : Waits state' m.namePrefix m.group taken)
    (hmembers : ∀ (i : Nat) (other : HfUnit Tensor),
      (slotsAt state' m.namePrefix m.group)[i]? = some (some other) →
        IsMember groups m.namePrefix m.group i other)
    (hpieces : Accounted groups (units ++ [unit]) state') :
    Assembled groups (units ++ [unit]) state' := by
  have hmember := (mem_suffixMatches (hmatches ▸ List.mem_singleton_self m)).1
  have hplaces (key : String × String) : places groups (units ++ [unit]) key =
      places groups units key ++ if m.slotKey = key then [m.suffixIdx] else [] := by
    rw [places_concat, hmatches]
    by_cases hkey : m.slotKey = key
    · simp [hkey]
    · simp [hkey]
  -- a key is that of the match, with the match's group, or another one
  have hkey (namePrefix : String) (group : AtomicUpdateGroup) (hgroup : group ∈ groups)
      (hsame : (namePrefix, group.key) = m.slotKey) :
      namePrefix = m.namePrefix ∧ group = m.group :=
    ⟨congrArg Prod.fst hsame, hwf.eq_of_key hgroup hmember (congrArg Prod.snd hsame)⟩
  refine ⟨?_, ?_, ?_, ?_, ?_, hpieces⟩
  · intro other hother
    cases List.mem_append.mp hother with
    | inl hmem => exact h.single other hmem
    | inr hmem =>
      rw [List.mem_singleton.mp hmem, hmatches]
      exact Nat.le_refl 1
  · intro namePrefix group hgroup
    by_cases hsame : (namePrefix, group.key) = m.slotKey
    · obtain ⟨rfl, rfl⟩ := hkey namePrefix group hgroup hsame
      refine ⟨taken, ?_, hwaits⟩
      rw [hplaces, if_pos hsame.symm]
      exact hread
    · obtain ⟨before, hbefore, hwaits'⟩ := h.reads namePrefix group hgroup
      refine ⟨before, ?_, hwaits'.congr (hothers _ hsame)⟩
      rw [hplaces, if_neg fun heq => hsame heq.symm, List.append_nil]
      exact hbefore
  · intro key hnone
    by_cases hsame : key = m.slotKey
    · exact ⟨m.group, hmember, (congrArg Prod.snd hsame).symm⟩
    · rw [hothers key hsame] at hnone
      exact h.foreign key hnone
  · intro namePrefix group hgroup i other hslot
    by_cases hsame : (namePrefix, group.key) = m.slotKey
    · obtain ⟨rfl, rfl⟩ := hkey namePrefix group hgroup hsame
      exact hmembers i other hslot
    · rw [slotsAt_congr (hothers _ hsame)] at hslot
      exact h.members namePrefix group hgroup i other hslot
  · intro key
    rw [hmatched, List.mem_cons, h.matched]
    simp only [List.mem_append, List.mem_singleton, or_and_right, exists_or, exists_eq_left,
      hmatches]
    rw [or_comm, eq_comm]

/-! ## One unit -/

/-- The last slot of a group yields its members. -/
theorem fillSlot_of_some
    {slots : Slots Tensor} {members : List (HfUnit Tensor)}
    (h : (slots.set m.suffixIdx (some unit)).mapM id = some members) :
    fillSlot state m unit slots =
      { pending := state.pending.erase m.slotKey
        matchedGroupKeys := m.group.key :: state.matchedGroupKeys
        emitted := state.emitted ++ [members.flatten] } := by
  unfold fillSlot
  simp only [h]
  rfl

/-- Another slot waits for the rest. -/
theorem fillSlot_of_none
    {slots : Slots Tensor} (h : (slots.set m.suffixIdx (some unit)).mapM id = none) :
    fillSlot state m unit slots =
      { pending := state.pending.set m.slotKey (slots.set m.suffixIdx (some unit))
        matchedGroupKeys := m.group.key :: state.matchedGroupKeys
        emitted := state.emitted } := by
  unfold fillSlot
  simp only [h]
  rfl

/-- What is known of the slots of a group after a unit has taken a free one. -/
structure Filled (groups : List AtomicUpdateGroup) (state : AssembleState Tensor)
    (unit : HfUnit Tensor) (m : SuffixMatch) (before : List Nat) (slots : Slots Tensor) : Prop where
  length : slots.length = m.group.suffixes.length
  /-- The slots that are left are those of the places that are left. -/
  left : ∀ i < m.group.suffixes.length, slots[i]? = some none ↔ i ∉ before ++ [m.suffixIdx]
  member : ∀ (i : Nat) (other : HfUnit Tensor), slots[i]? = some (some other) →
    IsMember groups m.namePrefix m.group i other
  /-- The unit waits beside the others. -/
  perm : (slots.filterMap id ++ waiting (state.pending.erase m.slotKey)).Perm
    (unit :: waiting state.pending)

section
variable {units : List (HfUnit Tensor)} {state : AssembleState Tensor} {unit : HfUnit Tensor}
  {m : SuffixMatch} {before : List Nat} {slots : Slots Tensor}

theorem Assembled.filled (h : Assembled groups units state)
    (hmatches : suffixMatches groups unit = [m])
    (hwaits : Waits state m.namePrefix m.group before) (hfree : m.suffixIdx ∉ before) :
    Filled groups state unit m before
      ((slotsAt state m.namePrefix m.group).set m.suffixIdx (some unit)) := by
  obtain ⟨hmember, hsuffix, hname⟩ := mem_suffixMatches (hmatches ▸ List.mem_singleton_self m)
  have hlt : m.suffixIdx < m.group.suffixes.length := (List.getElem?_eq_some_iff.mp hsuffix).1
  have hslot := (hwaits.free m.suffixIdx hlt).mpr hfree
  have hin : m.suffixIdx < (slotsAt state m.namePrefix m.group).length := by
    rw [hwaits.length]
    exact hlt
  constructor
  · rw [List.length_set, hwaits.length]
  · intro i hi
    rw [List.getElem?_set]
    by_cases hsame : m.suffixIdx = i
    · subst hsame
      rw [if_pos rfl, if_pos hin]
      simp
    · have hne : i ≠ m.suffixIdx := fun heq => hsame heq.symm
      rw [if_neg hsame, hwaits.free i hi]
      simp [hne]
  · intro i other hget
    rw [List.getElem?_set] at hget
    by_cases hsame : m.suffixIdx = i
    · subst hsame
      rw [if_pos rfl, if_pos hin] at hget
      cases hget
      exact ⟨m.suffix, hsuffix, by rw [hmatches, ← hname]⟩
    · rw [if_neg hsame] at hget
      exact h.members m.namePrefix m.group hmember i other hget
  · have hset := filterMap_set_perm hslot unit
    have hsplit := (waiting_split state m.namePrefix m.group).symm.cons unit
    exact (hset.append_right _).trans hsplit

/-- The pieces and what waits, with one more unit. -/
theorem perm_concat {front : List (HfUnit Tensor)} (hne : unit ≠ [])
    (h : (front ++ waiting state.pending).Perm (units.filter (!·.isEmpty)))
    {rest : List (HfUnit Tensor)} (hrest : rest.Perm (unit :: waiting state.pending)) :
    (front ++ rest).Perm ((units ++ [unit]).filter (!·.isEmpty)) := by
  have hnonempty : unit.isEmpty = false := List.isEmpty_eq_false_iff.mpr hne
  have hkept : (units ++ [unit]).filter (!·.isEmpty) = units.filter (!·.isEmpty) ++ [unit] := by
    simp [hnonempty]
  rw [hkept]
  apply (hrest.append_left front).trans
  apply List.perm_middle.trans
  exact (h.cons unit).trans (List.perm_append_singleton unit _).symm

/-- A unit that completes its group. -/
theorem Assembled.complete (h : Assembled groups units state) (hwf : WellFormed groups)
    (hne : unit ≠ []) (hmatches : suffixMatches groups unit = [m])
    (hread : Rounds.read m.group.suffixes.length
      (places groups units m.slotKey ++ [m.suffixIdx]) = some [])
    (hfilled : Filled groups state unit m before slots) {members : List (HfUnit Tensor)}
    (hmembers : slots = members.map some) :
    Assembled groups (units ++ [unit])
      { pending := state.pending.erase m.slotKey
        matchedGroupKeys := m.group.key :: state.matchedGroupKeys
        emitted := state.emitted ++ [members.flatten] } := by
  have hmember := (mem_suffixMatches (hmatches ▸ List.mem_singleton_self m)).1
  -- the next round of the key starts with free slots
  have hempty : (state.pending.erase m.slotKey).getD (m.namePrefix, m.group.key)
      (List.replicate m.group.suffixes.length none) =
        List.replicate m.group.suffixes.length none := by
    rw [PyDict.getD, PyDict.get?_erase]
    exact congrArg (fun slots => Option.getD slots _) (if_pos rfl)
  apply h.of_match hwf hmatches _ rfl hread
  · constructor
    · show ((state.pending.erase m.slotKey).getD _ _).length = _
      rw [hempty, List.length_replicate]
    · intro i hi
      show ((state.pending.erase m.slotKey).getD _ _)[i]? = some none ↔ _
      rw [hempty, List.getElem?_replicate, if_pos hi]
      simp
    · show (state.pending.erase m.slotKey).get? m.slotKey = none ↔ _
      rw [PyDict.get?_erase, if_pos rfl]
      simp
  · intro i other hother
    have hget : ((state.pending.erase m.slotKey).getD (m.namePrefix, m.group.key)
      (List.replicate m.group.suffixes.length none))[i]? = some (some other) := hother
    rw [hempty, List.getElem?_replicate] at hget
    split at hget <;> cases hget
  · -- the group comes out as one piece
    obtain ⟨pieces, hemitted, hvalid, hpieces⟩ := h.pieces
    refine ⟨pieces ++ [.atomic m.namePrefix m.group members], ?_, ?_, ?_⟩
    · rw [List.map_append, hemitted]
      rfl
    · intro piece hpiece
      cases List.mem_append.mp hpiece with
      | inl hmem => exact hvalid piece hmem
      | inr hmem =>
        rw [List.mem_singleton.mp hmem]
        refine ⟨hmember, ?_, ?_⟩
        · rw [← hfilled.length, hmembers, List.length_map]
        · intro i other hother
          apply hfilled.member i other
          rw [hmembers, List.getElem?_map, hother]
          rfl
    · have hunits : slots.filterMap id = members := by
        rw [hmembers, List.filterMap_map]
        simp
      have hperm := hfilled.perm
      rw [hunits] at hperm
      rw [List.flatMap_append, List.append_assoc]
      apply perm_concat hne hpieces
      show (members ++ [] ++ waiting _).Perm _
      rw [List.append_nil]
      exact hperm
  · intro key hother
    show (state.pending.erase m.slotKey).get? key = _
    rw [PyDict.get?_erase, if_neg hother]

/-- A unit that waits for the rest of its group. -/
theorem Assembled.fill (h : Assembled groups units state) (hwf : WellFormed groups)
    (hne : unit ≠ []) (hmatches : suffixMatches groups unit = [m])
    (hread : Rounds.read m.group.suffixes.length
      (places groups units m.slotKey ++ [m.suffixIdx]) = some (before ++ [m.suffixIdx]))
    (hfilled : Filled groups state unit m before slots) :
    Assembled groups (units ++ [unit])
      { pending := state.pending.set m.slotKey slots
        matchedGroupKeys := m.group.key :: state.matchedGroupKeys
        emitted := state.emitted } := by
  have hslots : (state.pending.set m.slotKey slots).getD (m.namePrefix, m.group.key)
      (List.replicate m.group.suffixes.length none) = slots := by
    rw [PyDict.getD, PyDict.get?_set]
    exact congrArg (fun slots => Option.getD slots _) (if_pos rfl)
  apply h.of_match hwf hmatches _ rfl hread
  · constructor
    · show ((state.pending.set m.slotKey slots).getD _ _).length = _
      rw [hslots, hfilled.length]
    · intro i hi
      show ((state.pending.set m.slotKey slots).getD _ _)[i]? = some none ↔ _
      rw [hslots, hfilled.left i hi]
    · show (state.pending.set m.slotKey slots).get? m.slotKey = none ↔ _
      rw [PyDict.get?_set, if_pos rfl]
      simp
  · intro i other hother
    have hget : ((state.pending.set m.slotKey slots).getD (m.namePrefix, m.group.key)
      (List.replicate m.group.suffixes.length none))[i]? = some (some other) := hother
    rw [hslots] at hget
    exact hfilled.member i other hget
  · obtain ⟨pieces, hemitted, hvalid, hpieces⟩ := h.pieces
    refine ⟨pieces, hemitted, hvalid, perm_concat hne hpieces ?_⟩
    exact (waiting_set state.pending m.slotKey slots).trans hfilled.perm
  · intro key hother
    show (state.pending.set m.slotKey slots).get? key = _
    rw [PyDict.get?_set, if_neg hother]

/-- The slots are all filled exactly when the round is complete. -/
theorem Filled.mapM_eq_none (h : Filled groups state unit m before slots)
    (hopen : Rounds.Open m.group.suffixes.length (before ++ [m.suffixIdx])) :
    slots.mapM id = none := by
  cases hall : slots.mapM id with
  | none => rfl
  | some members =>
    have hmembers := List.mapM_id_eq_some.mp hall
    have hsubset : List.range m.group.suffixes.length ⊆ before ++ [m.suffixIdx] := by
      intro i hi
      by_contra hnot
      have hempty := (h.left i (List.mem_range.mp hi)).mpr hnot
      rw [hmembers, List.getElem?_map] at hempty
      obtain ⟨other, -, hcontra⟩ := Option.map_eq_some_iff.mp hempty
      cases hcontra
    have hle := (List.subperm_of_subset List.nodup_range hsubset).length_le
    have hincomplete := hopen.incomplete
    rw [List.length_range] at hle
    omega

theorem Filled.exists_members (h : Filled groups state unit m before slots)
    (hfull : (before ++ [m.suffixIdx]).Perm (List.range m.group.suffixes.length)) :
    ∃ members, slots.mapM id = some members := by
  apply List.exists_mapM_eq_some
  intro slot hslot
  obtain ⟨i, hi, rfl⟩ := List.mem_iff_getElem.mp hslot
  rw [Option.isSome_iff_ne_none]
  intro hnone
  have hget : slots[i]? = some none := by
    rw [List.getElem?_eq_getElem hi]
    exact congrArg some hnone
  have hlt := h.length ▸ hi
  exact (h.left i hlt).mp hget (hfull.mem_iff.mpr (List.mem_range.mpr hlt))

/-- A unit that reads a free place of its group fills the slot, or completes the group. -/
theorem Assembled.takeIn {taken : List Nat} (h : Assembled groups units state)
    (hwf : WellFormed groups) (hne : unit ≠ []) (hmatches : suffixMatches groups unit = [m])
    (hbefore : Rounds.read m.group.suffixes.length (places groups units m.slotKey) = some before)
    (hwaits : Waits state m.namePrefix m.group before)
    (hnext : Rounds.next m.group.suffixes.length before m.suffixIdx = some taken) :
    Assembled groups (units ++ [unit])
      (fillSlot state m unit (slotsAt state m.namePrefix m.group)) := by
  obtain ⟨hmember, hsuffix, -⟩ := mem_suffixMatches (hmatches ▸ List.mem_singleton_self m)
  have hlt : m.suffixIdx < m.group.suffixes.length := (List.getElem?_eq_some_iff.mp hsuffix).1
  have hread : Rounds.read m.group.suffixes.length
      (places groups units m.slotKey ++ [m.suffixIdx]) = some taken := by
    rw [Rounds.read_concat, hbefore]
    exact hnext
  have hopen := (Rounds.read_eq_some (Nat.zero_lt_of_lt hlt)
    (fun i hi => places_lt hwf hmember i hi) hbefore).1
  obtain ⟨hfree, hcases⟩ := hopen.next hlt hnext
  have hfilled := h.filled hmatches hwaits hfree
  cases hcases with
  | inl hfull =>
    obtain ⟨members, hmembers⟩ := hfilled.exists_members hfull.1
    rw [fillSlot_of_some hmembers]
    rw [hfull.2] at hread
    exact h.complete hwf hne hmatches hread hfilled (List.mapM_id_eq_some.mp hmembers)
  | inr hstill =>
    rw [fillSlot_of_none (hfilled.mapM_eq_none hstill.1)]
    rw [hstill.2] at hread
    exact h.fill hwf hne hmatches hread hfilled

end

/-- A free place is taken. -/
theorem addMember_of_free
    (h : (slotsAt state m.namePrefix m.group)[m.suffixIdx]? = some none) :
    addMember state m unit =
      .ok (fillSlot state m unit (slotsAt state m.namePrefix m.group)) := by
  have hslots : state.pending.getD (m.namePrefix, m.group.key)
    (List.replicate m.group.suffixes.length none) = slotsAt state m.namePrefix m.group := rfl
  unfold addMember
  rw [hslots]
  simp only [h]

/-- Another place is not. -/
theorem addMember_of_taken
    (h : (slotsAt state m.namePrefix m.group)[m.suffixIdx]? ≠ some none) :
    addMember state m unit = .error (.duplicateMember m.name) := by
  have hslots : state.pending.getD (m.namePrefix, m.group.key)
    (List.replicate m.group.suffixes.length none) = slotsAt state m.namePrefix m.group := rfl
  unfold addMember
  rw [hslots]
  cases hget : (slotsAt state m.namePrefix m.group)[m.suffixIdx]? with
  | none => simp only [hget]
  | some slot =>
    cases slot with
    | none => exact absurd hget h
    | some other => simp only [hget]

/-- A unit is taken in, or matches several suffixes, or reads a place of the open round again. -/
theorem Assembled.step {units : List (HfUnit Tensor)}
    (h : Assembled groups units state) (hwf : WellFormed groups) (unit : HfUnit Tensor) :
    (∃ state', assembleUnit groups state unit = .ok state' ∧
      Assembled groups (units ++ [unit]) state') ∨
    (∃ error, assembleUnit groups state unit = .error error) ∧
      (1 < (suffixMatches groups unit).length ∨ ∃ namePrefix, ∃ group ∈ groups,
        Rounds.read group.suffixes.length
          (places groups (units ++ [unit]) (namePrefix, group.key)) = none) := by
  obtain ⟨pieces, hemitted, hvalid, hpieces⟩ := h.pieces
  by_cases hempty : unit = []
  · -- an empty unit is skipped
    subst hempty
    refine .inl ⟨state, rfl, h.of_no_match rfl rfl rfl ⟨pieces, hemitted, hvalid, ?_⟩⟩
    rw [List.filter_append]
    simpa using hpieces
  have hnonempty : unit.isEmpty = false := List.isEmpty_eq_false_iff.mpr hempty
  unfold assembleUnit
  rw [if_neg (by simp [hnonempty])]
  cases hmatches : suffixMatches groups unit with
  | nil =>
    refine .inl ⟨_, rfl, h.of_no_match hmatches rfl rfl ⟨pieces ++ [.plain unit], ?_, ?_, ?_⟩⟩
    · rw [List.map_append, hemitted]
      simp [Piece.merged, Piece.units]
    · intro piece hpiece
      cases List.mem_append.mp hpiece with
      | inl hmem => exact hvalid piece hmem
      | inr hmem => exact List.mem_singleton.mp hmem ▸ ⟨hempty, hmatches⟩
    · rw [List.flatMap_append, List.append_assoc]
      exact perm_concat hempty hpieces (.refl _)
  | cons m rest =>
    cases rest with
    | cons m' rest =>
      exact .inr ⟨⟨_, rfl⟩, .inl (by simp)⟩
    | nil =>
      -- the unit is a member of exactly one group
      obtain ⟨hmember, hsuffix, -⟩ := mem_suffixMatches (hmatches ▸ List.mem_singleton_self m)
      have hlt : m.suffixIdx < m.group.suffixes.length :=
        (List.getElem?_eq_some_iff.mp hsuffix).1
      obtain ⟨before, hbefore, hwaits⟩ := h.reads m.namePrefix m.group hmember
      have hplaces : places groups (units ++ [unit]) m.slotKey =
          places groups units m.slotKey ++ [m.suffixIdx] := by
        rw [places_concat, hmatches]
        simp
      show (∃ state', addMember state m unit = .ok state' ∧ _) ∨
        (∃ error, addMember state m unit = .error error) ∧ _
      by_cases hfree : m.suffixIdx ∈ before
      · -- the place is taken in the open round
        right
        have hslot : (slotsAt state m.namePrefix m.group)[m.suffixIdx]? ≠ some none :=
          fun hnone => (hwaits.free m.suffixIdx hlt).mp hnone hfree
        refine ⟨⟨_, addMember_of_taken hslot⟩, .inr ⟨m.namePrefix, m.group, hmember, ?_⟩⟩
        show Rounds.read _ (places groups (units ++ [unit]) m.slotKey) = none
        have hread : Rounds.read m.group.suffixes.length (places groups units m.slotKey) =
          some before := hbefore
        rw [hplaces, Rounds.read_concat, hread, Option.bind_some, Rounds.next, if_pos hfree]
      · left
        have hslot := (hwaits.free m.suffixIdx hlt).mpr hfree
        obtain ⟨taken, hnext⟩ : ∃ taken,
            Rounds.next m.group.suffixes.length before m.suffixIdx = some taken := by
          rw [Rounds.next, if_neg hfree]
          split <;> exact ⟨_, rfl⟩
        exact ⟨_, addMember_of_free hslot, h.takeIn hwf hempty hmatches hbefore hwaits hnext⟩

/-! ## The whole stream -/

/-- The units of the stream match one suffix at most, and those of one prefix and group come in
    complete rounds, except for the last one. -/
def Readable (groups : List AtomicUpdateGroup) (units : List (HfUnit Tensor)) : Prop :=
  (∀ unit ∈ units, (suffixMatches groups unit).length ≤ 1) ∧
    ∀ namePrefix, ∀ group ∈ groups,
      Rounds.read group.suffixes.length (places groups units (namePrefix, group.key)) ≠ none

/-- The stream is read to its end exactly when it is readable. -/
theorem foldlM_assembleUnit (hwf : WellFormed groups) (units : List (HfUnit Tensor)) :
    (∀ state, units.foldlM (assembleUnit groups) {} = .ok state → Assembled groups units state) ∧
      ((∃ state, units.foldlM (assembleUnit groups) {} = .ok state) ↔ Readable groups units) := by
  induction units using List.reverseRecOn with
  | nil =>
    constructor
    · intro state h
      cases h
      exact .nil groups
    · exact ⟨fun _ => ⟨by simp, fun _ _ _ => Option.some_ne_none _⟩, fun _ => ⟨_, rfl⟩⟩
  | append_singleton units unit ih =>
    have hsplit (state : AssembleState Tensor) :
        (units ++ [unit]).foldlM (assembleUnit groups) {} = .ok state ↔
          ∃ before, units.foldlM (assembleUnit groups) {} = .ok before ∧
            assembleUnit groups before unit = .ok state := by
      rw [List.foldlM_append, Except.bind_eq_ok]
      simp
    have hassembled (state : AssembleState Tensor)
        (h : (units ++ [unit]).foldlM (assembleUnit groups) {} = .ok state) :
        Assembled groups (units ++ [unit]) state := by
      obtain ⟨before, hbefore, hstep⟩ := (hsplit state).mp h
      cases (ih.1 before hbefore).step hwf unit with
      | inl htaken =>
        obtain ⟨state', hstate', hassembled⟩ := htaken
        rw [hstep] at hstate'
        cases hstate'
        exact hassembled
      | inr hfailed =>
        obtain ⟨⟨error, herror⟩, -⟩ := hfailed
        rw [hstep] at herror
        cases herror
    refine ⟨hassembled, ?_, ?_⟩
    · intro h
      obtain ⟨state, hstate⟩ := h
      have hinv := hassembled state hstate
      refine ⟨hinv.single, ?_⟩
      intro namePrefix group hgroup hnone
      obtain ⟨taken, hread, -⟩ := hinv.reads namePrefix group hgroup
      rw [hnone] at hread
      cases hread
    · intro h
      -- what can be read to its end can be read up to its last unit
      have hfront : Readable groups units := by
        refine ⟨fun other hother => h.1 other (List.mem_append_left _ hother), ?_⟩
        intro namePrefix group hgroup hnone
        apply h.2 namePrefix group hgroup
        unfold Rounds.read at hnone ⊢
        rw [places_concat, List.foldlM_append, hnone]
        rfl
      obtain ⟨before, hbefore⟩ := ih.2.mpr hfront
      cases (ih.1 before hbefore).step hwf unit with
      | inl htaken =>
        obtain ⟨state, hstate, -⟩ := htaken
        exact ⟨state, (hsplit state).mpr ⟨before, hbefore, hstate⟩⟩
      | inr hfailed =>
        cases hfailed.2 with
        | inl hmany =>
          have hsingle := h.1 unit (List.mem_append_right _ (List.mem_singleton_self unit))
          omega
        | inr hrepeated =>
          obtain ⟨namePrefix, group, hgroup, hnone⟩ := hrepeated
          exact absurd hnone (h.2 namePrefix group hgroup)

/-- The streams that finish: no unit has several matches, the units of one prefix and group form
    complete rounds of its suffixes, and every group that is not optional is matched. -/
structure Complete (groups : List AtomicUpdateGroup) (units : List (HfUnit Tensor)) : Prop where
  single : ∀ unit ∈ units, (suffixMatches groups unit).length ≤ 1
  rounds : ∀ namePrefix, ∀ group ∈ groups, ∃ rounds : List (List Nat),
    places groups units (namePrefix, group.key) = rounds.flatten ∧
      ∀ round ∈ rounds, round.Perm (List.range group.suffixes.length)
  matched : ∀ group ∈ groups, group.optional ∨
    ∃ unit ∈ units, ∃ m ∈ suffixMatches groups unit, m.group = group

/-- Nothing is pending exactly when every round is complete. -/
theorem Assembled.pending_eq_nil_iff {units : List (HfUnit Tensor)}
    (h : Assembled groups units state) : state.pending.keys = [] ↔
      ∀ namePrefix, ∀ group ∈ groups,
        Rounds.read group.suffixes.length (places groups units (namePrefix, group.key)) = some [] := by
  constructor
  · intro hnil namePrefix group hgroup
    obtain ⟨taken, hread, hwaits⟩ := h.reads namePrefix group hgroup
    have hnone : state.pending.get? (namePrefix, group.key) = none := by
      cases hget : state.pending.get? (namePrefix, group.key) with
      | none => rfl
      | some slots =>
        have hmem := PyDict.mem_keys_iff.mpr ⟨slots, hget⟩
        rw [hnil] at hmem
        cases hmem
    rw [hread, hwaits.absent.mp hnone]
  · intro hreads
    rw [List.eq_nil_iff_forall_not_mem]
    intro key hkey
    obtain ⟨slots, hget⟩ := PyDict.mem_keys_iff.mp hkey
    obtain ⟨group, hgroup, hsame⟩ := h.foreign key (by rw [hget]; exact Option.some_ne_none _)
    obtain ⟨taken, hread, hwaits⟩ := h.reads key.1 group hgroup
    rw [hreads key.1 group hgroup] at hread
    cases hread
    have hnone := hwaits.absent.mpr rfl
    rw [hsame] at hnone
    have hnone : state.pending.get? key = none := hnone
    rw [hget] at hnone
    cases hnone

/-- The stream finishes exactly when it is complete, and then its pieces are its units. -/
theorem assembleAtomicUpdateGroups_ok_iff (hwf : WellFormed groups) (units : List (HfUnit Tensor)) :
    ((∃ assembled, assembleAtomicUpdateGroups units groups = .ok assembled) ↔
        Complete groups units) ∧
      ∀ assembled, assembleAtomicUpdateGroups units groups = .ok assembled →
        ∃ pieces : List (Piece Tensor), assembled = pieces.map Piece.merged ∧
          (∀ piece ∈ pieces, piece.Valid groups) ∧
          (pieces.flatMap Piece.units).Perm (units.filter (!·.isEmpty)) := by
  obtain ⟨hinv, hreadable⟩ := foldlM_assembleUnit hwf units
  have hend (state : AssembleState Tensor) : checkEnd groups state = .ok () ↔
      state.pending.keys = [] ∧
        ∀ group ∈ groups, group.optional ∨ group.key ∈ state.matchedGroupKeys := by
    unfold checkEnd
    constructor
    · intro h
      obtain ⟨_, hpending, hmatched⟩ := Except.bind_eq_ok.mp h
      refine ⟨Except.ensure_eq_ok.mp hpending, fun group hgroup => ?_⟩
      exact Except.ensure_eq_ok.mp (Except.forM_eq_ok.mp hmatched group hgroup)
    · intro h
      refine Except.bind_eq_ok.mpr ⟨(), Except.ensure_eq_ok.mpr h.1, ?_⟩
      exact Except.forM_eq_ok.mpr fun group hgroup => Except.ensure_eq_ok.mpr (h.2 group hgroup)
  have hok (assembled : List (HfUnit Tensor)) :
      assembleAtomicUpdateGroups units groups = .ok assembled ↔
        ∃ state, units.foldlM (assembleUnit groups) {} = .ok state ∧
          checkEnd groups state = .ok () ∧ state.emitted = assembled := by
    unfold assembleAtomicUpdateGroups
    rw [checkGroups_eq_ok.mpr hwf, Except.ok_bind]
    constructor
    · intro h
      obtain ⟨state, hstate, h⟩ := Except.bind_eq_ok.mp h
      obtain ⟨_, hchecked, h⟩ := Except.bind_eq_ok.mp h
      cases h
      exact ⟨state, hstate, hchecked, rfl⟩
    · intro h
      obtain ⟨state, hstate, hchecked, rfl⟩ := h
      exact Except.bind_eq_ok.mpr ⟨state, hstate, Except.bind_eq_ok.mpr ⟨(), hchecked, rfl⟩⟩
  -- the matched keys are the keys of the matched groups
  have hmatched (state : AssembleState Tensor) (h : Assembled groups units state)
      (group : AtomicUpdateGroup) (hgroup : group ∈ groups) :
      group.key ∈ state.matchedGroupKeys ↔
        ∃ unit ∈ units, ∃ m ∈ suffixMatches groups unit, m.group = group := by
    rw [h.matched]
    constructor
    · intro hkey
      obtain ⟨unit, hunit, m, hm, hkey⟩ := hkey
      exact ⟨unit, hunit, m, hm, hwf.eq_of_key (mem_suffixMatches hm).1 hgroup hkey⟩
    · intro hsame
      obtain ⟨unit, hunit, m, hm, rfl⟩ := hsame
      exact ⟨unit, hunit, m, hm, rfl⟩
  have hpositive (group : AtomicUpdateGroup) (hgroup : group ∈ groups) :
      0 < group.suffixes.length := List.length_pos_iff.mpr (hwf.suffixes group hgroup)
  have hcomplete (namePrefix : String) (group : AtomicUpdateGroup) (hgroup : group ∈ groups) :=
    Rounds.read_eq_nil_iff (hpositive group hgroup)
      (fun i hi => @places_lt Tensor groups units hwf namePrefix group hgroup i hi)
  constructor
  · constructor
    · intro h
      obtain ⟨assembled, h⟩ := h
      obtain ⟨state, hstate, hchecked, -⟩ := (hok assembled).mp h
      obtain ⟨hpending, hgroups⟩ := (hend state).mp hchecked
      have hassembled := hinv state hstate
      refine ⟨hassembled.single, ?_, ?_⟩
      · intro namePrefix group hgroup
        exact (hcomplete namePrefix group hgroup).mp
          (hassembled.pending_eq_nil_iff.mp hpending namePrefix group hgroup)
      · intro group hgroup
        exact (hgroups group hgroup).imp_right (hmatched state hassembled group hgroup).mp
    · intro h
      have hreads (namePrefix : String) (group : AtomicUpdateGroup) (hgroup : group ∈ groups) :=
        (hcomplete namePrefix group hgroup).mpr (h.rounds namePrefix group hgroup)
      obtain ⟨state, hstate⟩ := hreadable.mpr ⟨h.single, fun namePrefix group hgroup hnone => by
        rw [hreads namePrefix group hgroup] at hnone
        cases hnone⟩
      have hassembled := hinv state hstate
      refine ⟨state.emitted, (hok _).mpr ⟨state, hstate, (hend state).mpr ⟨?_, ?_⟩, rfl⟩⟩
      · exact hassembled.pending_eq_nil_iff.mpr hreads
      · intro group hgroup
        exact (h.matched group hgroup).imp_right (hmatched state hassembled group hgroup).mpr
  · intro assembled h
    obtain ⟨state, hstate, hchecked, rfl⟩ := (hok assembled).mp h
    obtain ⟨pieces, hemitted, hvalid, hperm⟩ := (hinv state hstate).pieces
    refine ⟨pieces, hemitted, hvalid, ?_⟩
    -- nothing waits any more
    have hnil : state.pending.items = [] := by
      have hkeys := ((hend state).mp hchecked).1
      exact List.map_eq_nil_iff.mp hkeys
    have hwaiting : waiting state.pending = [] := by
      unfold waiting
      rw [hnil]
      rfl
    rwa [hwaiting, List.append_nil] at hperm

/-! ## Packing -/

/-- The buckets so far are consecutive parts of the stream, and the open bucket is its last part. -/
structure Packed (nbytes : Tensor → Nat) (maxBytes : Int) (units : List (HfUnit Tensor))
    (state : PackState Tensor) (parts : List (List (HfUnit Tensor)))
    (last : List (HfUnit Tensor)) : Prop where
  units : units = parts.flatten ++ last
  emitted : state.emitted = parts.map List.flatten
  bucket : state.bucket = last.flatten
  size : state.bucketSize = (last.map (unitSize nbytes)).sum
  nonempty : ∀ part ∈ parts, part ≠ []
  below : ∀ part ∈ parts, 1 < part.length → (part.map (unitSize nbytes)).sum < maxBytes
  lastBelow : 1 < last.length → (last.map (unitSize nbytes)).sum < maxBytes

/-- One unit goes into the open bucket, or closes it. -/
theorem Packed.packUnit {nbytes : Tensor → Nat} {maxBytes : Int} {units : List (HfUnit Tensor)}
    {state : PackState Tensor} {parts : List (List (HfUnit Tensor))} {last : List (HfUnit Tensor)}
    (h : Packed nbytes maxBytes units state parts last) (hunits : ∀ unit ∈ units, unit ≠ [])
    (unit : HfUnit Tensor) :
    ∃ parts last, Packed nbytes maxBytes (units ++ [unit]) (packUnit nbytes maxBytes state unit)
      parts last := by
  have hsum : ((last ++ [unit]).map (unitSize nbytes)).sum =
      (last.map (unitSize nbytes)).sum + unitSize nbytes unit := by simp
  -- a part that has units is a bucket that has tensors
  have hbucket : state.bucket = [] → last = [] := by
    intro hnil
    cases last with
    | nil => rfl
    | cons other last =>
      have hother := hunits other (by rw [h.units]; simp)
      rw [h.bucket, List.flatten_cons] at hnil
      exact absurd (List.append_eq_nil_iff.mp hnil).1 hother
  unfold Bucketing.packUnit
  split
  · rename_i hfull
    have hlast : last ≠ [] := by
      rintro rfl
      exact hfull.1 h.bucket
    refine ⟨parts ++ [last], [unit], ?_, ?_, ?_, ?_, ?_, ?_, ?_⟩
    · rw [h.units]
      simp
    · rw [List.map_append, h.emitted, h.bucket]
      rfl
    · simp
    · simp
    · intro part hpart
      cases List.mem_append.mp hpart with
      | inl hmem => exact h.nonempty part hmem
      | inr hmem => exact List.mem_singleton.mp hmem ▸ hlast
    · intro part hpart
      cases List.mem_append.mp hpart with
      | inl hmem => exact h.below part hmem
      | inr hmem => exact List.mem_singleton.mp hmem ▸ h.lastBelow
    · intro hone
      exact absurd hone (by simp)
  · rename_i hroom
    refine ⟨parts, last ++ [unit], ?_, h.emitted, ?_, ?_, h.nonempty, h.below, ?_⟩
    · rw [h.units, List.append_assoc]
    · rw [h.bucket]
      simp
    · rw [hsum, h.size]
    · intro hmany
      have hlast : last ≠ [] := by
        rintro rfl
        exact absurd hmany (by simp)
      have hbelow : ¬ maxBytes ≤ state.bucketSize + unitSize nbytes unit :=
        fun hle => hroom ⟨fun hnil => hlast (hbucket hnil), hle⟩
      rw [hsum, ← h.size]
      push_cast
      omega

/-- The buckets are consecutive parts of the stream, and one of several units is below the size. -/
theorem packUnitsBySize_parts (nbytes : Tensor → Nat) (maxBytes : Int)
    {units : List (HfUnit Tensor)} (hunits : ∀ unit ∈ units, unit ≠ []) :
    ∃ parts : List (List (HfUnit Tensor)), units = parts.flatten ∧
      packUnitsBySize nbytes units maxBytes = parts.map List.flatten ∧
      ∀ part ∈ parts, part ≠ [] ∧
        (1 < part.length → (part.map (unitSize nbytes)).sum < maxBytes) := by
  have hpacked : ∃ parts last, Packed nbytes maxBytes units
      (units.foldl (packUnit nbytes maxBytes) {}) parts last := by
    induction units using List.reverseRecOn with
    | nil =>
      exact ⟨[], [], rfl, rfl, rfl, rfl, by simp, by simp, by simp⟩
    | append_singleton units unit ih =>
      have hfront := fun other hother => hunits other (List.mem_append_left [unit] hother)
      obtain ⟨parts, last, h⟩ := ih hfront
      rw [List.foldl_append]
      exact h.packUnit hfront unit
  obtain ⟨parts, last, h⟩ := hpacked
  unfold packUnitsBySize
  by_cases hlast : last = []
  · subst hlast
    have hnil : (units.foldl (packUnit nbytes maxBytes) {}).bucket = [] := h.bucket
    refine ⟨parts, by simpa using h.units, ?_, ?_⟩
    · simp only [hnil, ne_eq, not_true_eq_false, if_false]
      exact h.emitted
    · exact fun part hpart => ⟨h.nonempty part hpart, h.below part hpart⟩
  · have hbucket : (units.foldl (packUnit nbytes maxBytes) {}).bucket ≠ [] := by
      rw [h.bucket]
      intro hnil
      obtain ⟨other, hother⟩ := List.exists_mem_of_ne_nil last hlast
      have hempty := List.flatten_eq_nil_iff.mp hnil other hother
      exact hunits other (by rw [h.units]; exact List.mem_append_right _ hother) hempty
    refine ⟨parts ++ [last], ?_, ?_, ?_⟩
    · rw [h.units]
      simp
    · simp only [ne_eq, hbucket, not_false_eq_true, if_true]
      rw [h.emitted, h.bucket, List.map_append]
      rfl
    · intro part hpart
      cases List.mem_append.mp hpart with
      | inl hmem => exact ⟨h.nonempty part hmem, h.below part hmem⟩
      | inr hmem => exact List.mem_singleton.mp hmem ▸ ⟨hlast, h.lastBelow⟩

/-! ## Both stages -/

theorem Piece.merged_ne_nil (hwf : WellFormed groups) {piece : Piece Tensor}
    (h : piece.Valid groups) : piece.merged ≠ [] := by
  cases piece with
  | plain unit =>
    intro hnil
    exact h.1 (by simpa [Piece.merged, Piece.units] using hnil)
  | atomic namePrefix group members =>
    obtain ⟨hgroup, hlength, hmember⟩ := h
    have hpositive := List.length_pos_iff.mpr (hwf.suffixes group hgroup)
    have hzero : 0 < members.length := by omega
    obtain ⟨suffix, -, hmatches⟩ := hmember 0 members[0] (List.getElem?_eq_getElem hzero)
    intro hnil
    -- a member matches, so it has a tensor
    have hempty := List.flatten_eq_nil_iff.mp hnil members[0] (List.getElem_mem hzero)
    rw [hempty] at hmatches
    cases hmatches

/-- The pieces of all buckets hold the tensors of their units. -/
theorem flatten_map_merged (parts : List (List (Piece Tensor))) :
    (parts.map fun part => part.flatMap Piece.merged).flatten =
      (parts.flatten.flatMap Piece.units).flatten := by
  have hpart (part : List (Piece Tensor)) :
      part.flatMap Piece.merged = (part.flatMap Piece.units).flatten := by
    induction part with
    | nil => rfl
    | cons piece part ih =>
      rw [List.flatMap_cons, List.flatMap_cons, List.flatten_append, ih]
      rfl
  induction parts with
  | nil => rfl
  | cons part parts ih =>
    rw [List.map_cons, List.flatten_cons, ih, hpart, List.flatten_cons, List.flatMap_append,
      List.flatten_append]

/-- Groups that do not pass the checks raise before the stream. With groups that do, the stream
    finishes exactly when no unit has several matches, the units of each prefix and group form
    complete rounds, and every group that is not optional is matched. The buckets are then parts of
    a list of pieces: plain units, and atomic groups with one unit for each suffix in their order.
    The units of the pieces are those of the stream, each tensor comes out as often as it went in,
    and a bucket of several pieces is below the size. -/
theorem bucketing_exact (nbytes : Tensor → Nat) (maxBytes : Int)
    (groups : List AtomicUpdateGroup) :
    (¬ WellFormed groups → ∃ error, ∀ units : List (HfUnit Tensor),
      assembleAtomicUpdateGroups units groups = .error error) ∧
    (WellFormed groups → ∀ units : List (HfUnit Tensor),
      ((∃ assembled, assembleAtomicUpdateGroups units groups = .ok assembled) ↔
        Complete groups units) ∧
      ∀ assembled, assembleAtomicUpdateGroups units groups = .ok assembled →
        ∃ parts : List (List (Piece Tensor)),
          packUnitsBySize nbytes assembled maxBytes =
              parts.map (fun part => part.flatMap Piece.merged) ∧
            (∀ part ∈ parts, ∀ piece ∈ part, piece.Valid groups) ∧
            (parts.flatten.flatMap Piece.units).Perm (units.filter (!·.isEmpty)) ∧
            (packUnitsBySize nbytes assembled maxBytes).flatten.Perm units.flatten ∧
            ∀ part ∈ parts, part ≠ [] ∧ (1 < part.length →
              ((part.map fun piece => unitSize nbytes piece.merged).sum : Nat) < maxBytes)) := by
  constructor
  · intro hill
    rw [← checkGroups_eq_ok] at hill
    cases hchecked : checkGroups groups with
    | ok _ => exact absurd hchecked hill
    | error error =>
      refine ⟨error, fun units => ?_⟩
      unfold assembleAtomicUpdateGroups
      rw [hchecked]
      rfl
  intro hwf units
  obtain ⟨hiff, hpieces⟩ := assembleAtomicUpdateGroups_ok_iff hwf units
  refine ⟨hiff, ?_⟩
  intro assembled h
  obtain ⟨pieces, rfl, hvalid, hperm⟩ := hpieces assembled h
  have hnonempty : ∀ unit ∈ pieces.map Piece.merged, unit ≠ [] := by
    intro unit hunit
    obtain ⟨piece, hpiece, rfl⟩ := List.mem_map.mp hunit
    exact Piece.merged_ne_nil hwf (hvalid piece hpiece)
  obtain ⟨unitParts, hunits, hbuckets, hsizes⟩ := packUnitsBySize_parts nbytes maxBytes hnonempty
  obtain ⟨parts, rfl, rfl⟩ := List.exists_flatten_of_map_eq_flatten hunits
  have hflatten : packUnitsBySize nbytes (parts.flatten.map Piece.merged) maxBytes =
      parts.map (fun part => part.flatMap Piece.merged) := by
    rw [hbuckets, List.map_map]
    rfl
  refine ⟨parts, hflatten, ?_, hperm, ?_, ?_⟩
  · intro part hpart piece hpiece
    exact hvalid piece (List.mem_flatten.mpr ⟨part, hpart, hpiece⟩)
  · rw [hflatten]
    rw [flatten_map_merged, ← @List.flatten_filter_not_isEmpty _ units]
    exact hperm.flatten
  · intro part hpart
    obtain ⟨hne, hbelow⟩ := hsizes (part.map Piece.merged) (List.mem_map_of_mem hpart)
    constructor
    · intro hnil
      exact hne (List.map_eq_nil_iff.mpr hnil)
    · intro hmany
      have hsum := hbelow (by rwa [List.length_map])
      rwa [List.map_map] at hsum

/-- The members of a pair, with a plain weight between them. -/
theorem bucketing_exact_pair :
    ∃ parts : List (List (Piece Nat)),
      packUnitsBySize id [[("a", 5)], [("x.b", 3), ("x.c", 4)]] 10 =
          parts.map (fun part => part.flatMap Piece.merged) ∧
        (parts.flatten.flatMap Piece.units).Perm [[("x.c", 4)], [("a", 5)], [("x.b", 3)]] := by
  have hwf : WellFormed [⟨"pair", [".b", ".c"], false⟩] := by
    constructor <;> decide
  have h := ((@bucketing_exact Nat id 10 _).2 hwf [[("x.c", 4)], [("a", 5)], [("x.b", 3)]]).2
    [[("a", 5)], [("x.b", 3), ("x.c", 4)]] (by decide +kernel)
  obtain ⟨parts, hparts, -, hunits, -⟩ := h
  exact ⟨parts, hparts, hunits⟩

/-- A group without suffixes fails before an empty stream. Two names of one unit with the only
    suffix of a group fail as well. And a bucket of the two units of one atomic group can exceed the size. -/
theorem bucketing_not_exact :
    (Complete [⟨"empty", [], true⟩] ([] : List (HfUnit Nat)) ∧
      assembleAtomicUpdateGroups ([] : List (HfUnit Nat)) [⟨"empty", [], true⟩] =
        .error (.noSuffixes "empty")) ∧
    assembleAtomicUpdateGroups [[("x.b", 1), ("y.b", 1)]] [⟨"single", [".b"], false⟩] =
      .error (.multipleMatches ["x.b", "y.b"]) ∧
    ∃ assembled, assembleAtomicUpdateGroups [[("x.b", 8)], [("x.c", 8)]]
        [⟨"pair", [".b", ".c"], true⟩] = .ok assembled ∧
      packUnitsBySize id assembled 10 = [[("x.b", 8), ("x.c", 8)]] := by
  refine ⟨⟨⟨by simp, ?_, by simp⟩, rfl⟩, by decide +kernel, [[("x.b", 8), ("x.c", 8)]],
    by decide +kernel, by decide +kernel⟩
  intro namePrefix group hgroup
  exact ⟨[], rfl, by simp⟩

end Miles.Bucketing
