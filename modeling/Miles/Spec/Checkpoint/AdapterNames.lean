import Miles.Native.Checkpoint.AdapterCommit

/-!
# The names of internal entries

What the pattern of internal entries makes of the names that the committer gives, and of the names
of adapters.
-/

namespace Miles.AdapterCommit

/-- Names of adapters on one line; the pattern does not know the others' entries. -/
structure IsLineName (name : String) : Prop where
  user : IsUserName name
  line : '\n' ∉ name.toList

theorem ownerOf_eq_some {name : List Char} (hname : name ≠ []) (hline : '\n' ∉ name)
    {digits : List Char} (hlength : digits.length = 16)
    (hhex : digits.all isHexDigit) :
    ownerOf ('.' :: name ++ '.' :: digits) = some name := by
  have hpos : 0 < name.length := List.length_pos_iff.mpr hname
  have htotal : ('.' :: name ++ '.' :: digits).length = name.length + 18 := by
    simp [hlength]
  have howner : ((('.' :: name ++ '.' :: digits).drop 1).dropLast.take (name.length + 18 - 18)) =
      name := by
    rw [List.cons_append, List.drop_one, List.tail_cons, Nat.add_sub_cancel]
    rw [List.dropLast_append_of_ne_nil (by simp), List.take_left]
  have hdigits : ('.' :: name ++ '.' :: digits).drop (name.length + 18 - 16) = digits := by
    have hcut : '.' :: name ++ '.' :: digits = ('.' :: name ++ ['.']) ++ digits := by simp
    rw [hcut]
    apply List.drop_left'
    simp
  have hdot : ('.' :: name ++ '.' :: digits)[name.length + 18 - 17]? = some '.' := by
    have hindex : name.length + 18 - 17 = ('.' :: name).length := by simp
    rw [hindex, List.getElem?_append_right (le_refl _), Nat.sub_self]
    rfl
  simp only [ownerOf, htotal, howner, hdigits, hdot]
  rw [if_pos]
  exact ⟨by omega, rfl, trivial, hhex, hline⟩

theorem ownerOf_eq_none {chars : List Char} {c : Char} (hlast : chars.getLast? = some c)
    (hc : isHexDigit c = false) : ownerOf chars = none := by
  unfold ownerOf
  simp only
  rw [if_neg]
  intro h
  apply Bool.eq_false_iff.mp hc
  apply List.all_eq_true.mp h.2.2.2.1
  -- the last character is one of the digits
  have hlong : 18 < chars.length := h.1
  rw [List.getLast?_eq_getElem?] at hlast
  rw [List.mem_iff_getElem?]
  refine ⟨15, ?_⟩
  rw [List.getElem?_drop, ← hlast]
  congr 1
  omega

theorem withoutSuffix_append (chars suffix : List Char) :
    withoutSuffix suffix (chars ++ suffix) = some chars := by
  unfold withoutSuffix
  rw [if_pos (List.suffix_append _ _), List.length_append, Nat.add_sub_cancel, List.take_left]

theorem withoutSuffix_nil (chars : List Char) : withoutSuffix [] chars = some chars := by
  have h := withoutSuffix_append chars []
  rw [List.append_nil] at h
  exact h

/-- No suffix ends in another one. -/
theorem not_suffix_of_ne {s s' : Suffix} (hs : s ≠ .none) (hs' : s' ≠ .none) (hne : s' ≠ s) :
    ¬ s'.text.toList <:+ s.text.toList := by
  revert hs hs' hne
  cases s <;> cases s' <;> decide

theorem withoutSuffix_append_ne (chars : List Char) {s s' : Suffix} (hs : s ≠ .none)
    (hs' : s' ≠ .none) (hne : s' ≠ s) :
    withoutSuffix s'.text.toList (chars ++ s.text.toList) = none := by
  unfold withoutSuffix
  rw [if_neg]
  intro hsuffix
  rcases List.suffix_or_suffix_of_suffix hsuffix (List.suffix_append chars _) with h | h
  · exact not_suffix_of_ne hs hs' hne h
  · exact not_suffix_of_ne hs' hs hne.symm h

/-- The last character of an internal name with a suffix is none of a commit id. -/
theorem ownerOf_append_suffix (chars : List Char) {s : Suffix} (hs : s ≠ .none) :
    ownerOf (chars ++ s.text.toList) = none := by
  have hlast : (chars ++ s.text.toList).getLast? = s.text.toList.getLast? := by
    apply List.getLast?_append_of_ne_nil
    revert hs
    cases s <;> decide
  cases s with
  | none => exact absurd rfl hs
  | deleting => exact ownerOf_eq_none (c := 'g') hlast (by decide)
  | link => exact ownerOf_eq_none (c := 'k') hlast (by decide)
  | adopting => exact ownerOf_eq_none (c := 'g') hlast (by decide)

theorem withoutLineBreak_of_ne {chars : List Char} (h : chars.getLast? ≠ some '\n') :
    withoutLineBreak chars = chars := if_neg h

/-- The kinds of the pattern do not overlap. -/
theorem findSuffix {base owner : List Char} (h : ownerOf base = some owner) (s : Suffix) :
    ([Suffix.none, .deleting, .link, .adopting].findSome? fun suffix =>
      ((withoutSuffix suffix.text.toList (base ++ s.text.toList)).bind ownerOf).map
        fun owner => (String.ofList owner, suffix)) = some (String.ofList owner, s) := by
  have hnone (hs : s ≠ .none) :
      (withoutSuffix Suffix.none.text.toList (base ++ s.text.toList)).bind ownerOf = none := by
    show (withoutSuffix [] (base ++ s.text.toList)).bind ownerOf = none
    rw [withoutSuffix_nil, Option.bind_some, ownerOf_append_suffix base hs]
  have hself : (withoutSuffix s.text.toList (base ++ s.text.toList)).bind ownerOf =
      some owner := by rw [withoutSuffix_append, Option.bind_some, h]
  have hother (s' : Suffix) (hs : s ≠ .none) (hs' : s' ≠ .none) (hne : s' ≠ s) :
      (withoutSuffix s'.text.toList (base ++ s.text.toList)).bind ownerOf = none := by
    rw [withoutSuffix_append_ne base hs hs' hne, Option.bind_none]
  cases s with
  | none => rw [List.findSome?_cons, hself, Option.map_some]
  | deleting =>
    rw [List.findSome?_cons, hnone (by decide), Option.map_none]
    simp only
    rw [List.findSome?_cons, hself, Option.map_some]
  | link =>
    rw [List.findSome?_cons, hnone (by decide), Option.map_none]
    simp only
    rw [List.findSome?_cons, hother .deleting (by decide) (by decide) (by decide), Option.map_none]
    simp only
    rw [List.findSome?_cons, hself, Option.map_some]
  | adopting =>
    rw [List.findSome?_cons, hnone (by decide), Option.map_none]
    simp only
    rw [List.findSome?_cons, hother .deleting (by decide) (by decide) (by decide), Option.map_none]
    simp only
    rw [List.findSome?_cons, hother .link (by decide) (by decide) (by decide), Option.map_none]
    simp only
    rw [List.findSome?_cons, hself, Option.map_some]

theorem toList_physicalDir (name : String) (id : CommitId) (s : Suffix) :
    (physicalDir name id ++ s.text).toList =
      ('.' :: name.toList ++ '.' :: id.text.toList) ++ s.text.toList := by
  simp [physicalDir, String.toList_append]

theorem last_append_suffix (chars : List Char) {s : Suffix} (hs : s ≠ .none) :
    (chars ++ s.text.toList).getLast? ≠ some '\n' := by
  cases s with
  | none => exact absurd rfl hs
  | deleting =>
    rw [List.getLast?_append_of_ne_nil _ (by decide)]
    decide
  | link =>
    rw [List.getLast?_append_of_ne_nil _ (by decide)]
    decide
  | adopting =>
    rw [List.getLast?_append_of_ne_nil _ (by decide)]
    decide

/-- The committer's own names do not end in a line break. -/
theorem last_physicalDir (name : String) (id : CommitId) (s : Suffix) :
    (physicalDir name id ++ s.text).toList.getLast? ≠ some '\n' := by
  have hid : id.text.toList ≠ [] := by
    intro hnil
    have hlength := id.hex.1
    rw [hnil] at hlength
    cases hlength
  rw [toList_physicalDir]
  cases s with
  | none =>
    show (('.' :: name.toList ++ '.' :: id.text.toList) ++ []).getLast? ≠ some '\n'
    rw [List.append_nil, List.getLast?_append_of_ne_nil _ (by simp),
      List.getLast?_cons_of_ne_nil hid]
    intro hbreak
    have hhex := List.all_eq_true.mp id.hex.2 '\n' (List.mem_of_getLast? hbreak)
    revert hhex
    decide
  | deleting => exact last_append_suffix _ (by decide)
  | link => exact last_append_suffix _ (by decide)
  | adopting => exact last_append_suffix _ (by decide)

/-- An internal entry is read back with its owner and its kind. -/
theorem internalEntry_physicalDir_append {name : String} (h : IsLineName name) (id : CommitId)
    (s : Suffix) : internalEntry (physicalDir name id ++ s.text) = some (name, s) := by
  have hname : name.toList ≠ [] := by
    intro hnil
    apply h.user.2.1
    exact String.toList_eq_nil_iff.mp hnil
  have howner := ownerOf_eq_some hname h.line id.hex.1 id.hex.2
  unfold internalEntry
  rw [withoutLineBreak_of_ne (last_physicalDir name id s), toList_physicalDir, findSuffix howner, String.ofList_toList]

/-- An internal entry is read back with its owner and its kind. -/
theorem internalEntry_physicalDir {name : String} (h : IsLineName name) (id : CommitId) :
    internalEntry (physicalDir name id) = some (name, .none) := by
  have heq : physicalDir name id ++ Suffix.none.text = physicalDir name id := String.append_empty
  rw [← heq]
  exact internalEntry_physicalDir_append h id .none

/-- The name of an adapter is not internal. -/
theorem internalEntry_userName {name : String} (h : IsUserName name) :
    internalEntry name = none := by
  have hdot {chars owner : List Char} (h : ownerOf chars = some owner) :
      chars.head? = some '.' := by
    unfold ownerOf at h
    simp only at h
    split at h
    · rename_i hmatch
      exact hmatch.2.1
    · cases h
  have htake {chars : List Char} {k : Nat} {c : Char} (h : (chars.take k).head? = some c) :
      chars.head? = some c := by
    cases chars with
    | nil =>
      rw [List.take_nil] at h
      exact h
    | cons a chars =>
      cases k with
      | zero => cases h
      | succ k => exact h
  have hbreak : (withoutLineBreak name.toList).head? = some '.' → name.toList.head? = some '.' := by
    unfold withoutLineBreak
    split
    · rw [List.dropLast_eq_take]
      exact htake
    · exact id
  unfold internalEntry
  rw [List.findSome?_eq_none_iff]
  intro s _
  rw [Option.map_eq_none_iff, Option.bind_eq_none_iff]
  intro chars hchars
  by_contra hne
  obtain ⟨owner, howner⟩ := Option.ne_none_iff_exists'.mp hne
  apply h.1
  apply hbreak
  unfold withoutSuffix at hchars
  split at hchars
  · rw [← Option.some.inj hchars] at howner
    exact htake (hdot howner)
  · cases hchars

/-- Two commit ids have two physical directories. -/
theorem physicalDir_inj {name : String} {id id' : CommitId}
    (h : physicalDir name id = physicalDir name id') : id = id' := by
  apply CommitId.ext
  have hlists := congrArg String.toList h
  simp only [physicalDir, String.toList_append] at hlists
  exact String.toList_inj.mp (List.append_cancel_left hlists)

/-- A physical directory that is renamed keeps its owner. -/
theorem internalEntry_append {entry name : String} (h : internalEntry entry = some (name, .none))
    (hline : entry.toList.getLast? ≠ some '\n') {s : Suffix} (hs : s ≠ .none) :
    internalEntry (entry ++ s.text) = some (name, s) := by
  have howner : ownerOf entry.toList = some name.toList := by
    unfold internalEntry at h
    rw [withoutLineBreak_of_ne hline, List.findSome?_cons] at h
    have hnil : withoutSuffix Suffix.none.text.toList entry.toList = some entry.toList :=
      withoutSuffix_nil _
    rw [hnil, Option.bind_some] at h
    cases howner : ownerOf entry.toList with
    | some owner =>
      rw [howner] at h
      cases h
      rw [String.toList_ofList]
    | none =>
      -- the other kinds are read with a suffix
      rw [howner, Option.map_none] at h
      obtain ⟨s', hmem, hs'⟩ := List.exists_of_findSome?_eq_some h
      rw [Option.map_eq_some_iff] at hs'
      obtain ⟨owner, -, heq⟩ := hs'
      cases heq
      have hnot : Suffix.none ∉ [Suffix.deleting, .link, .adopting] := by decide
      exact absurd hmem hnot
  unfold internalEntry
  rw [String.toList_append, withoutLineBreak_of_ne (last_append_suffix _ hs), findSuffix howner,
    String.ofList_toList]

end Miles.AdapterCommit
