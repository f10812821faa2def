import Miles.ForStd.Except
import Miles.Native.WeightUpdate.DiskDelta

/-!
# When an overwrite delta is exact

Applying a published delta to the old bytes gives the new ones. The positions and their number are
narrowed to 32 bits, so an overwrite delta is exact exactly when they fit; an xor delta always is.
-/

namespace Miles.DiskDelta

/-! ## Decoding -/

/-- The positions and the values of an overwrite delta: a count, that many positions, and as many
    values. -/
def overwriteDecode (bytes : List UInt8) : Option (List Nat × List UInt8) := do
  let count ← readWord 4 bytes
  let positions ← readWords 4 count.1 count.2
  if positions.2.length = count.1 then some positions else none

/-- `data[positions] = values` -/
def overwrite (data : List UInt8) (positions : List Nat) (values : List UInt8) :
    Option (List UInt8) :=
  if ∀ position ∈ positions, position < data.length then
    some ((positions.zip values).foldl (fun data write => data.set write.1 write.2) data)
  else none

/-- The decoded delta of two byte arrays makes the new one of the old one. -/
def Exact (outOfBounds : Nat → Option UInt32) (new old : List UInt8) : Prop :=
  ((overwriteEncode outOfBounds new (changedMask new old)).bind overwriteDecode).bind
    (fun delta => overwrite old delta.1 delta.2) = some new

/-! ## The changed bytes -/

variable {new old : List UInt8}

theorem length_changedMask (h : old.length = new.length) :
    (changedMask new old).length = new.length := by
  rw [changedMask, List.length_zipWith, h, Nat.min_self]

theorem mem_flatnonzero {mask : List Bool} {position : Nat} :
    position ∈ flatnonzero mask ↔ mask[position]? = some true := by
  unfold flatnonzero
  rw [List.mem_filterMap]
  constructor
  · intro h
    obtain ⟨x, hx, hsome⟩ := h
    rw [List.mem_zipIdx_iff_getElem?] at hx
    cases hchanged : x.1 with
    | true =>
      rw [hchanged] at hsome hx
      cases hsome
      exact hx
    | false =>
      rw [hchanged] at hsome
      cases hsome
  · intro h
    exact ⟨(true, position), List.mem_zipIdx_iff_getElem?.mpr h, rfl⟩

/-- A position is changed when the arrays differ there. -/
theorem getElem?_changedMask {position : Nat} :
    (changedMask new old)[position]? = some true ↔
      ∃ x y, new[position]? = some x ∧ old[position]? = some y ∧ x ≠ y := by
  rw [changedMask, List.getElem?_zipWith_eq_some]
  simp

/-- The changed positions after `start` bytes. -/
def flatnonzeroFrom (start : Nat) (mask : List Bool) : List Nat :=
  (mask.zipIdx start).filterMap fun x => if x.1 then some x.2 else none

/-- Writing the changed bytes over the old ones gives the new ones. -/
theorem foldl_set_changed (front new old : List UInt8) (h : old.length = new.length) :
    ((flatnonzeroFrom front.length (changedMask new old)).zip
        (select new (changedMask new old))).foldl
      (fun data write => data.set write.1 write.2) (front ++ old) = front ++ new := by
  induction new generalizing front old with
  | nil =>
    have hnil := List.eq_nil_of_length_eq_zero h
    subst hnil
    rfl
  | cons x new ih =>
    cases old with
    | nil => cases h
    | cons y old =>
      have hlength : old.length = new.length := Nat.succ.inj h
      have hstep := ih (front ++ [x]) old hlength
      rw [List.append_assoc, List.append_assoc, List.length_append] at hstep
      by_cases hxy : x = y
      · -- the byte stays
        subst hxy
        have hfrom : flatnonzeroFrom front.length (changedMask (x :: new) (x :: old)) =
            flatnonzeroFrom (front.length + 1) (changedMask new old) := by
          simp [flatnonzeroFrom, changedMask]
        have hselect : select (x :: new) (changedMask (x :: new) (x :: old)) =
            select new (changedMask new old) := by
          simp [select, changedMask]
        rw [hfrom, hselect]
        exact hstep
      · have hfrom : flatnonzeroFrom front.length (changedMask (x :: new) (y :: old)) =
            front.length :: flatnonzeroFrom (front.length + 1) (changedMask new old) := by
          simp [flatnonzeroFrom, changedMask, hxy]
        have hselect : select (x :: new) (changedMask (x :: new) (y :: old)) =
            x :: select new (changedMask new old) := by
          simp [select, changedMask, hxy]
        have hset : (front ++ y :: old).set front.length x = front ++ x :: old := by
          rw [List.set_append_right _ _ (Nat.le_refl _), Nat.sub_self]
          rfl
        rw [hfrom, hselect, List.zip_cons_cons, List.foldl_cons, hset]
        exact hstep

theorem length_flatnonzero (mask : List Bool) : (flatnonzero mask).length = mask.count true := by
  have hfrom (start : Nat) : (flatnonzeroFrom start mask).length = mask.count true := by
    induction mask generalizing start with
    | nil => rfl
    | cons changed mask ih =>
      have hrest := ih (start + 1)
      unfold flatnonzeroFrom at hrest ⊢
      cases changed <;> simp [hrest]
  exact hfrom 0

theorem length_select {new : List UInt8} {mask : List Bool} (h : mask.length = new.length) :
    (select new mask).length = mask.count true := by
  induction mask generalizing new with
  | nil => simp [select]
  | cons changed mask ih =>
    cases new with
    | nil => cases h
    | cons x new =>
      have hrest := ih (Nat.succ.inj h)
      unfold select at hrest ⊢
      cases changed <;> simp [hrest]

/-! ## What an overwrite does -/

theorem overwrite_eq_some {data written : List UInt8} {positions : List Nat} {values : List UInt8}
    (h : overwrite data positions values = some written) :
    written = (positions.zip values).foldl (fun data write => data.set write.1 write.2) data := by
  unfold overwrite at h
  split at h
  · exact (Option.some.inj h).symm
  · cases h

/-- A position that is not written keeps its byte. -/
theorem getElem?_foldl_set (writes : List (Nat × UInt8)) (data : List UInt8) {position : Nat}
    (h : ∀ write ∈ writes, write.1 ≠ position) :
    (writes.foldl (fun data write => data.set write.1 write.2) data)[position]? =
      data[position]? := by
  induction writes generalizing data with
  | nil => rfl
  | cons write writes ih =>
    rw [List.forall_mem_cons] at h
    rw [List.foldl_cons, ih _ h.2, List.getElem?_set_ne h.1]

/-- A position that is not written keeps its byte. -/
theorem getElem?_overwrite {data written : List UInt8} {positions : List Nat} {values : List UInt8}
    (h : overwrite data positions values = some written) {position : Nat}
    (hposition : position ∉ positions) : written[position]? = data[position]? := by
  rw [overwrite_eq_some h]
  apply getElem?_foldl_set
  intro write hwrite heq
  rw [← heq] at hposition
  exact hposition (List.of_mem_zip hwrite).1

/-- The decoded positions are 32-bit numbers, and the lengths of a delta determine its count. -/
theorem overwriteDecode_eq_some {bytes : List UInt8} {delta : List Nat × List UInt8}
    (h : overwriteDecode bytes = some delta) :
    (∀ position ∈ delta.1, position < 2 ^ 32) ∧ ∃ count < 2 ^ 32, bytes.length = 4 + 5 * count := by
  obtain ⟨count, hcount, hrest⟩ := Option.bind_eq_some_iff.mp h
  obtain ⟨positions, hpositions, hvalues⟩ := Option.bind_eq_some_iff.mp hrest
  obtain ⟨hlength, hlt⟩ := readWord_eq_some hcount
  obtain ⟨hlengths, hlts⟩ := readWords_eq_some hpositions
  split at hvalues
  · rename_i hsize
    cases hvalues
    exact ⟨hlts, count.1, hlt, by omega⟩
  · cases hvalues

/-! ## When it is exact -/

/-- What an encoded delta consists of. -/
theorem overwriteEncode_eq (outOfBounds : Nat → Option UInt32) (new : List UInt8)
    (mask : List Bool) :
    overwriteEncode outOfBounds new mask = (u4Array outOfBounds (mask.count true)).map fun count =>
      leBytes 4 count.toNat ++
        (((flatnonzero mask).map fun position => position % 2 ^ 32).flatMap (leBytes 4) ++
          select new mask) := by
  unfold overwriteEncode
  simp only [List.length_map, length_flatnonzero]
  cases u4Array outOfBounds (mask.count true) with
  | none => rfl
  | some count => simp [u4Bytes, List.flatMap_map]

/-- A delta whose count and positions fit is decoded into the changed positions and their bytes. -/
theorem overwriteDecode_encode (outOfBounds : Nat → Option UInt32) {new : List UInt8}
    {mask : List Bool} (hlength : mask.length = new.length) (hcount : mask.count true < 2 ^ 32)
    (hpositions : ∀ position, mask[position]? = some true → position < 2 ^ 32) :
    (overwriteEncode outOfBounds new mask).bind overwriteDecode =
      some (flatnonzero mask, select new mask) := by
  have hfits : (flatnonzero mask).map (fun position => position % 2 ^ 32) = flatnonzero mask := by
    apply (List.map_congr_left _).trans (List.map_id _)
    intro position hposition
    exact Nat.mod_eq_of_lt (hpositions position (mem_flatnonzero.mp hposition))
  have hnumber : (UInt32.ofNat (mask.count true)).toNat = (flatnonzero mask).length := by
    rw [length_flatnonzero, UInt32.toNat_ofNat_of_lt' hcount]
  have hsmall : (flatnonzero mask).length % 256 ^ 4 = (flatnonzero mask).length := by
    rw [length_flatnonzero]
    exact Nat.mod_eq_of_lt hcount
  rw [overwriteEncode_eq, u4Array, if_pos hcount, Option.map_some, Option.bind_some, hfits,
    overwriteDecode, hnumber, readWord_append, hsmall]
  show (readWords 4 _ _).bind _ = _
  rw [readWords_append]
  have hwords : (flatnonzero mask).map (· % 256 ^ 4) = flatnonzero mask := hfits
  rw [hwords]
  show (if (select new mask).length = (flatnonzero mask).length then _ else _) = _
  rw [if_pos]
  rw [length_select hlength, length_flatnonzero]

/-- A delta whose count and positions fit is exact. -/
theorem exact_of_fits (outOfBounds : Nat → Option UInt32)
    (hlength : old.length = new.length) (hcount : (changedMask new old).count true < 2 ^ 32)
    (hpositions : ∀ position, (changedMask new old)[position]? = some true → position < 2 ^ 32) :
    Exact outOfBounds new old := by
  unfold Exact
  rw [overwriteDecode_encode outOfBounds (length_changedMask hlength) hcount hpositions,
    Option.bind_some]
  show overwrite old (flatnonzero (changedMask new old)) (select new (changedMask new old)) = _
  have hbounds : ∀ position ∈ flatnonzero (changedMask new old), position < old.length := by
    intro position hposition
    obtain ⟨x, y, -, hget, -⟩ := getElem?_changedMask.mp (mem_flatnonzero.mp hposition)
    exact (List.getElem?_eq_some_iff.mp hget).1
  rw [overwrite, if_pos hbounds]
  exact congrArg some (foldl_set_changed [] new old hlength)

/-- A changed position that does not fit is never written. -/
theorem not_exact_of_position {outOfBounds : Nat → Option UInt32}
    {position : Nat} (hchanged : (changedMask new old)[position]? = some true)
    (hposition : 2 ^ 32 ≤ position) : ¬ Exact outOfBounds new old := by
  intro hexact
  obtain ⟨delta, hdelta, hwritten⟩ := Option.bind_eq_some_iff.mp hexact
  obtain ⟨bytes, -, hdecode⟩ := Option.bind_eq_some_iff.mp hdelta
  have hunwritten : position ∉ delta.1 := by
    intro hmem
    have hlt := (overwriteDecode_eq_some hdecode).1 position hmem
    omega
  obtain ⟨x, y, hx, hy, hne⟩ := getElem?_changedMask.mp hchanged
  have hsame := getElem?_overwrite hwritten hunwritten
  rw [hx, hy] at hsame
  exact hne (Option.some.inj hsame)

/-- Too many changed bytes do not decode, whatever became of their number. -/
theorem not_exact_of_count {outOfBounds : Nat → Option UInt32}
    (hlength : old.length = new.length) (hcount : 2 ^ 32 ≤ (changedMask new old).count true) :
    ¬ Exact outOfBounds new old := by
  intro hexact
  obtain ⟨delta, hdelta, -⟩ := Option.bind_eq_some_iff.mp hexact
  obtain ⟨bytes, hencode, hdecode⟩ := Option.bind_eq_some_iff.mp hdelta
  obtain ⟨-, count, hlt, hbytes⟩ := overwriteDecode_eq_some hdecode
  rw [overwriteEncode_eq] at hencode
  obtain ⟨header, -, rfl⟩ := Option.map_eq_some_iff.mp hencode
  -- the encoding is as long as its real number of changed bytes says
  have hwords : (((flatnonzero (changedMask new old)).map fun position =>
      position % 2 ^ 32).flatMap (leBytes 4)).length = 4 * (changedMask new old).count true := by
    rw [List.length_flatMap]
    simp [length_flatnonzero, Function.comp_def, Nat.mul_comm]
  rw [List.length_append, List.length_append, hwords, length_leBytes,
    length_select (length_changedMask hlength)] at hbytes
  omega

/-- An overwrite delta is exact exactly when its changed positions and their number fit into 32
    bits. -/
theorem overwrite_exact_iff (outOfBounds : Nat → Option UInt32) {new old : List UInt8}
    (hlength : old.length = new.length) :
    Exact outOfBounds new old ↔
      (changedMask new old).count true < 2 ^ 32 ∧
        ∀ position, (changedMask new old)[position]? = some true → position < 2 ^ 32 := by
  constructor
  · intro hexact
    constructor
    · by_contra hcount
      exact not_exact_of_count hlength (Nat.le_of_not_lt hcount) hexact
    · intro position hchanged
      by_contra hposition
      exact not_exact_of_position hchanged (Nat.le_of_not_lt hposition) hexact
  · intro h
    exact exact_of_fits outOfBounds hlength h.1 h.2

/-- One changed byte of three. -/
theorem overwrite_exact_iff_threeBytes :
    Exact (fun _ => none) [5, 7, 5] [5, 6, 5] ↔
      (changedMask [5, 7, 5] [5, 6, 5]).count true < 2 ^ 32 ∧
        ∀ position, (changedMask [5, 7, 5] [5, 6, 5])[position]? = some true →
          position < 2 ^ 32 :=
  @overwrite_exact_iff (fun _ => none) [5, 7, 5] [5, 6, 5] rfl

/-- The byte after the first `2 ^ 32` changes, and the delta writes the first byte. -/
theorem overwrite_not_exact_at_wrap :
    ¬ Exact (fun _ => none) (List.replicate (2 ^ 32) 0 ++ [1]) (List.replicate (2 ^ 32) 0 ++ [0]) := by
  have hlast (front : List UInt8) :
      (changedMask (front ++ [1]) (front ++ [0]))[front.length]? = some true := by
    rw [getElem?_changedMask]
    exact ⟨1, 0, by simp, by simp, by decide⟩
  have hlength := List.length_replicate (n := 2 ^ 32) (a := (0 : UInt8))
  exact not_exact_of_position (hlast _) (Nat.le_of_eq hlength.symm)

/-! ## The xor encoding -/

/-- An xor delta is exact for byte arrays of any length. -/
theorem xor_exact (hlength : old.length = new.length) :
    xorEncode (xorEncode new old) old = new := by
  induction new generalizing old with
  | nil => rfl
  | cons x new ih =>
    cases old with
    | nil => cases hlength
    | cons y old =>
      have hrest := ih (Nat.succ.inj hlength)
      have hbyte : x ^^^ y ^^^ y = x := by
        rw [UInt8.xor_assoc, UInt8.xor_self, UInt8.xor_zero]
      unfold xorEncode at hrest ⊢
      rw [List.zipWith_cons_cons, List.zipWith_cons_cons, hrest, hbyte]

/-! ## What is published -/

theorem count_changedMask_eq_zero (hlength : old.length = new.length) :
    (changedMask new old).count true = 0 ↔ new = old := by
  induction new generalizing old with
  | nil =>
    have hnil := List.eq_nil_of_length_eq_zero hlength
    subst hnil
    simp [changedMask]
  | cons x new ih =>
    cases old with
    | nil => cases hlength
    | cons y old =>
      have hrest := ih (Nat.succ.inj hlength)
      unfold changedMask at hrest ⊢
      rw [List.zipWith_cons_cons, List.count_cons, List.cons.injEq, ← hrest]
      by_cases hxy : x = y
      · simp [hxy]
      · simp [hxy]

theorem countP_xorEncode_eq_zero (hlength : old.length = new.length) :
    (xorEncode new old).countP (· ≠ 0) = 0 ↔ new = old := by
  induction new generalizing old with
  | nil =>
    have hnil := List.eq_nil_of_length_eq_zero hlength
    subst hnil
    simp [xorEncode]
  | cons x new ih =>
    cases old with
    | nil => cases hlength
    | cons y old =>
      have hrest := ih (Nat.succ.inj hlength)
      unfold xorEncode at hrest ⊢
      rw [List.zipWith_cons_cons, List.countP_cons, List.cons.injEq, ← hrest]
      by_cases hxy : x = y
      · simp [hxy]
      · have hne : x ^^^ y ≠ 0 := fun h => hxy (UInt8.xor_eq_zero_iff.mp h)
        simp [hxy, hne]

/-- A tensor is left out exactly when none of its bytes changed. -/
theorem diffAndCompress_delta_eq_none {compress : List UInt8 → List UInt8}
    {checksum : List UInt8 → String} {outOfBounds : Nat → Option UInt32} {deltaEncoding : String}
    {published : Published} (hlength : old.length = new.length)
    (h : diffAndCompress compress checksum outOfBounds deltaEncoding new old = .ok published) :
    published.delta = none ↔ new = old := by
  obtain ⟨diffed, hdiff, hpublished⟩ := Except.bind_eq_ok.mp h
  have hchanged : diffed.2 = 0 ↔ new = old := by
    unfold diff at hdiff
    split at hdiff
    · cases hdiff
      exact countP_xorEncode_eq_zero hlength
    · split at hdiff
      · split at hdiff
        · cases hdiff
          exact count_changedMask_eq_zero hlength
        · cases hdiff
      · cases hdiff
  rw [← hchanged]
  split at hpublished
  · rename_i hzero
    cases hpublished
    simp [hzero]
  · rename_i hne
    cases hpublished
    simp [hne]

end Miles.DiskDelta
