import Miles.Spec.Rollout.MaskSegments

/-!
# Store plans stand for the arrays

A sample's store plan, materialized over the stored objects, gives the columns of the same
edits performed on arrays.  The invariant says field by field that the segments read the
rows of the array; a forward field of a later turn starts with the rows of the earlier one,
which a segment without a ref stands for until the turns are merged.

The exception is a forward field left without any row: `np.concatenate` has nothing to
concatenate, and `materialize` raises.

## Key results

- `ForwardSegments.append`, `ForwardSegments.strip`: one edit of a forward field
- `SampleEdits.storePlan_represents`: after any edits the plan represents the arrays
- `SampleEdits.materialize_eq_inline_iff`: materialized columns and when they exist
-/

namespace Miles.Rollout

open PieceTable (numRows)

/-! ### Forward fields -/

/-- The rows of a stored forward array. -/
def storedForward (objects : Objects) (field : ForwardField) :
    Option StoreRef → Nat → Option (List (List Int))
  | none, _ => none
  | some ref, i =>
    (match (objects ref.key).bind (·.forward field) with
      | some array => array.rows
      | none => [])[i]?

/-- The segment of the positions before a forward's start. -/
def covered (start : Nat) : Segments := if start = 0 then [] else [⟨none, 0, start⟩]

/-- A segment takes rows of a stored array of the given shape that passes its check. -/
def StoredSeg (objects : Objects) (streams : Option Nat) (field : ForwardField)
    (shape : Nat × Nat) (seg : Seg) : Prop :=
  ∃ ref array, seg.source = some ref ∧ (objects ref.key).bind (·.forward field) = some array ∧
    field.check streams array = .ok () ∧ array.shape = shape

/-- Segments that read the rows of an array. -/
structure StoredRows (objects : Objects) (streams : Option Nat) (field : ForwardField)
    (segs : Segments) (v : ForwardRows) : Prop where
  solid : PieceTable.Solid segs
  reads : PieceTable.read (storedForward objects field) segs = v.rows.map some
  stored : ∀ seg ∈ segs, ∃ array, v.array = some array ∧
    StoredSeg objects streams field array.shape seg

/-- The segments of a forward field: the positions before its start, then its rows. -/
def ForwardSegments (objects : Objects) (streams : Option Nat) (field : ForwardField)
    (segs : Segments) (v : ForwardRows) : Prop :=
  ∃ rest, segs = covered v.start ++ rest ∧ StoredRows objects streams field rest v

namespace ForwardRows

variable {field : ForwardField} {streams : Option Nat} {v w u : ForwardRows}

theorem ofResponse_eq_ok {r : Response} (h : ofResponse field streams r = .ok v) :
    v.start = r.startLen field ∧ v.rows.length = (match r.forward field with
      | some array => array.rows.length
      | none => 0) := by
  unfold ofResponse at h
  cases hforward : r.forward field with
  | none =>
    rw [hforward] at h
    simp only at h
    split at h
    · cases h
      exact ⟨rfl, rfl⟩
    · cases h
  | some array =>
    rw [hforward] at h
    simp only at h
    split at h
    · cases h
    · obtain ⟨_, _, h⟩ := Except.bind_eq_ok.mp h
      cases h
      exact ⟨rfl, rfl⟩

/-- Rows appended cover the positions of the new ones, from the earlier start. -/
theorem append_eq_ok (h : append field v w = .ok u) :
    u.total = w.total ∧ u.start = min v.start w.start := by
  unfold append at h
  split at h
  · cases h
  · rename_i hfit
    split at h
    · rename_i hle
      cases h
      exact ⟨rfl, by omega⟩
    · rename_i hgt
      have hmin : min v.start w.start = v.start := by omega
      simp only [total] at hfit
      split at h
      · rename_i array newArray harray hnew
        split at h
        · cases h
        · cases h
          have hrows : v.rows = array.rows := by rw [rows, harray]
          have hrows' : w.rows = newArray.rows := by rw [rows, hnew]
          rw [hrows] at hfit
          refine ⟨?_, hmin.symm⟩
          simp only [total, rows, hnew, List.length_append, List.length_take]
          omega
      · rename_i array harray hnew
        cases h
        have hrows : v.rows = array.rows := by rw [rows, harray]
        rw [hrows] at hfit
        refine ⟨?_, hmin.symm⟩
        simp only [total, rows, hnew, List.length_take, List.length_nil]
        omega
      · rename_i harray
        have hrows : v.rows = [] := by rw [rows, harray]
        rw [hrows, List.length_nil] at hfit
        omega

theorem strip_zero (v : ForwardRows) : v.strip 0 = v := by
  obtain ⟨start, array⟩ := v
  cases array with
  | none => simp [strip, total]
  | some array =>
    have hall : array.rows.take (start + array.rows.length - start) = array.rows :=
      List.take_of_length_le (by omega)
    have hstart : min start (start + array.rows.length) = start := by omega
    simp only [strip, total, rows, Option.map_some, Nat.sub_zero, hall, hstart]

theorem total_strip (v : ForwardRows) (n : Nat) : (v.strip n).total = v.total - n := by
  obtain ⟨start, array⟩ := v
  cases array with
  | none =>
    simp only [strip, total, rows, Option.map_none, List.length_nil]
    omega
  | some array =>
    simp only [strip, total, rows, Option.map_some, List.length_take]
    omega

end ForwardRows

namespace StoredRows

variable {objects : Objects} {streams : Option Nat} {field : ForwardField}
  {segs : Segments} {v : ForwardRows}

theorem numRows_eq (h : StoredRows objects streams field segs v) : numRows segs = v.rows.length := by
  have := congrArg List.length h.reads
  rw [PieceTable.length_read] at this
  simpa using this

/-- Without rows there are no segments. -/
theorem eq_nil_iff (h : StoredRows objects streams field segs v) :
    segs = [] ↔ v.rows = [] := by
  rw [← h.solid.rows_eq_nil_iff, ← List.length_eq_zero_iff, ← List.length_eq_zero_iff,
    PieceTable.length_rows, h.numRows_eq]

/-- The keys of the segments name arrays that pass the check. -/
theorem keys (h : StoredRows objects streams field segs v) :
    ∃ keys, segs.mapM Seg.key = .ok keys ∧ ∀ key ∈ keys, ∃ array,
      fetchForward objects field key = .ok array ∧ field.check streams array = .ok () := by
  have hstored : ∀ seg ∈ segs, ∃ shape, StoredSeg objects streams field shape seg := by
    intro seg hseg
    obtain ⟨array, _, hstored⟩ := h.stored seg hseg
    exact ⟨_, hstored⟩
  clear h
  induction segs with
  | nil => exact ⟨[], rfl, by simp⟩
  | cons seg segs ih =>
    obtain ⟨keys, hkeys, hchecked⟩ := ih fun s hs => hstored s (by simp [hs])
    obtain ⟨shape, ref, array, hsource, hobject, hcheck, _⟩ := hstored seg (by simp)
    refine ⟨ref.key :: keys, ?_, ?_⟩
    · simp only [List.mapM_cons, Seg.key, hsource, Except.ok_bind]
      rw [show segs.mapM Seg.key = .ok keys from hkeys]
      rfl
    · intro key hkey
      rcases List.mem_cons.mp hkey with rfl | hkey
      · exact ⟨array, by rw [fetchForward, hobject], hcheck⟩
      · exact hchecked key hkey

/-- The slices of the segments join to the rows they read. -/
theorem slices {segs : Segments} {xs : List (List (List Int))} {shape : Nat × Nat}
    (hreads : PieceTable.read (storedForward objects field) segs = xs.map some)
    (hstored : ∀ seg ∈ segs, StoredSeg objects streams field shape seg) :
    ∃ slices, segs.mapM (Seg.slice objects field) = .ok slices ∧
      slices.length = segs.length ∧ slices.flatMap (·.rows) = xs ∧
      ∀ array ∈ slices, array.shape = shape := by
  induction segs generalizing xs with
  | nil =>
    have hnil : xs = [] := by simpa using hreads.symm
    exact ⟨[], rfl, rfl, hnil.symm, by simp⟩
  | cons seg segs ih =>
    obtain ⟨hseg, hrest⟩ := PieceTable.read_cons_eq hreads
    obtain ⟨slices, hslices, hlen, hrows, hshape⟩ := ih hrest fun s hs => hstored s (by simp [hs])
    obtain ⟨ref, array, hsource, hobject, _, harray⟩ := hstored seg (by simp)
    have hslice : (array.rows.take seg.stop).drop seg.start = xs.take seg.length := by
      have hget : ∀ i, storedForward objects field seg.source i = array.rows[i]? := by
        intro i
        simp [hsource, storedForward, hobject]
      exact PieceTable.slice_eq_of_read hget hseg
    refine ⟨{ array with rows := (array.rows.take seg.stop).drop seg.start } :: slices, ?_, ?_,
      ?_, ?_⟩
    · have hone : Seg.slice objects field seg =
          .ok { array with rows := (array.rows.take seg.stop).drop seg.start } := by
        simp only [Seg.slice, Seg.key, hsource, Except.ok_bind, fetchForward, hobject]
        rfl
      rw [List.mapM_cons, hone, hslices]
      rfl
    · simp [hlen]
    · rw [List.flatMap_cons, hrows, hslice, List.take_append_drop]
    · intro a ha
      rcases List.mem_cons.mp ha with rfl | ha
      · exact harray
      · exact hshape a ha

/-- Segments with a row materialize to the array they read. -/
theorem materialize (h : StoredRows objects streams field segs v) (hrows : v.rows ≠ []) :
    ∃ array, v.array = some array ∧ field.materialize objects streams segs = .ok array := by
  obtain ⟨array, harray⟩ : ∃ array, v.array = some array := by
    cases harray : v.array with
    | none => exact absurd (by rw [ForwardRows.rows, harray]) hrows
    | some array => exact ⟨array, rfl⟩
  obtain ⟨keys, hkeys, hchecked⟩ := h.keys
  obtain ⟨slices, hslices, hlen, hjoin, hshape⟩ := slices h.reads (fun seg hseg => by
    obtain ⟨own, hown, hstored⟩ := h.stored seg hseg
    rw [harray] at hown
    cases hown
    exact hstored)
  refine ⟨array, harray, ?_⟩
  have hcheck : (keys.eraseDups.forM fun key => do
      let stored ← fetchForward objects field key
      field.check streams stored) = .ok () := by
    rw [Except.forM_eq_ok]
    intro key hkey
    obtain ⟨stored, hfetch, hcheck⟩ := hchecked key (List.mem_eraseDups.mp hkey)
    rw [hfetch, Except.ok_bind]
    exact hcheck
  simp only [ForwardField.materialize, hkeys, Except.ok_bind]
  rw [hcheck, hslices]
  show concatenateRows slices = .ok array
  have hown : v.rows = array.rows := by rw [ForwardRows.rows, harray]
  cases slices with
  | nil =>
    have hnil : segs = [] := List.length_eq_zero_iff.mp hlen.symm
    exact absurd (h.eq_nil_iff.mp hnil) hrows
  | cons first others =>
    have hall : others.all (·.shape = first.shape) = true := by
      rw [List.all_eq_true]
      intro other hother
      simp [hshape first (by simp), hshape other (by simp [hother])]
    rw [concatenateRows, if_pos hall, hjoin, hshape first (by simp), hown]

theorem append {w u : ForwardRows} {new : Segments} (h : StoredRows objects streams field segs v)
    (hnew : StoredRows objects streams field new w) {array : ForwardArray}
    (harray : u.array = some array) (hrows : u.rows = v.rows ++ w.rows)
    (hv : ∀ own, v.array = some own → own.shape = array.shape)
    (hw : ∀ own, w.array = some own → own.shape = array.shape) :
    StoredRows objects streams field (segs ++ new) u where
  solid := h.solid.append hnew.solid
  reads := by rw [PieceTable.read_append, h.reads, hnew.reads, hrows, List.map_append]
  stored := by
    intro seg hseg
    refine ⟨array, harray, ?_⟩
    rcases List.mem_append.mp hseg with hseg | hseg
    · obtain ⟨own, hown, hstored⟩ := h.stored seg hseg
      rw [← hv own hown]
      exact hstored
    · obtain ⟨own, hown, hstored⟩ := hnew.stored seg hseg
      rw [← hw own hown]
      exact hstored

/-- The first rows of an array, read by a prefix of the segments. -/
theorem take (h : StoredRows objects streams field segs v) (n : Int) (start : Nat) :
    StoredRows objects streams field (PieceTable.take segs n)
      ⟨start, v.array.map fun array => { array with rows := array.rows.take n.toNat }⟩ where
  solid := h.solid.take n
  reads := by
    rw [PieceTable.read_take, h.reads]
    cases harray : v.array with
    | none => simp [ForwardRows.rows, harray]
    | some array => simp [ForwardRows.rows, harray, List.map_take]
  stored := by
    intro seg hseg
    obtain ⟨old, hold, hsource⟩ := PieceTable.source_of_mem_take hseg
    obtain ⟨array, harray, ref, stored, href, hstored⟩ := h.stored old hold
    refine ⟨{ array with rows := array.rows.take n.toNat }, ?_, ref, stored, hsource ▸ href,
      hstored⟩
    simp only [harray, Option.map_some]

end StoredRows

theorem numRows_covered (start : Nat) : numRows (covered start) = start := by
  unfold covered
  split
  · rename_i h
    rw [h]
    rfl
  · rfl

/-- The first positions of a field that starts later. -/
theorem take_covered (start n : Nat) (rest : Segments) :
    PieceTable.take (covered start ++ rest) n =
      covered (min start n) ++ PieceTable.take rest ((n : Int) - start) := by
  unfold covered
  by_cases hstart : start = 0
  · simp [hstart]
  · have hlen : (⟨none, 0, start⟩ : Seg).length = start := rfl
    rw [if_neg hstart, List.singleton_append, PieceTable.take]
    by_cases hn : n = 0
    · have hneg : ((n : Int) - start) ≤ 0 := by omega
      rw [if_pos (by omega), hn, Nat.min_zero, if_pos rfl, List.nil_append]
      cases rest with
      | nil => rfl
      | cons seg rest =>
        rw [PieceTable.take, if_pos (by omega)]
    · have hkept : (min (n : Int) start).toNat = min start n := by omega
      rw [if_neg (by omega), if_neg (by omega), hlen, List.singleton_append]
      simp only [hkept, Nat.zero_add]
      congr 1
      by_cases hle : n ≤ start
      · -- nothing is left for the rows
        have hzero : (n : Int) - min (n : Int) start ≤ 0 := by omega
        have hneg : (n : Int) - start ≤ 0 := by omega
        cases rest with
        | nil => rfl
        | cons seg rest => rw [PieceTable.take, PieceTable.take, if_pos hzero, if_pos hneg]
      · have hsame : (n : Int) - min (n : Int) start = (n : Int) - start := by omega
        rw [hsame]

namespace ForwardSegments

variable {objects : Objects} {streams : Option Nat} {field : ForwardField}
  {segs new : Segments} {v w u : ForwardRows}

theorem numRows_eq (h : ForwardSegments objects streams field segs v) : numRows segs = v.total := by
  obtain ⟨rest, rfl, hrest⟩ := h
  have hsum : numRows (covered v.start ++ rest) = numRows (covered v.start) + numRows rest := by
    simp [numRows]
  rw [hsum, numRows_covered, hrest.numRows_eq]
  rfl

/-- The rows before the start of a new response, and the segments after them. -/
theorem covered_eq (h : ForwardSegments objects streams field new w) :
    new.coveredRows = w.start ∧
    ∃ rest, new.drop (if w.start ≠ 0 then 1 else 0) = rest ∧
      StoredRows objects streams field rest w := by
  obtain ⟨rest, rfl, hrest⟩ := h
  by_cases hstart : w.start = 0
  · refine ⟨?_, rest, by simp [covered, hstart], hrest⟩
    cases rest with
    | nil => simp [Segments.coveredRows, covered, hstart]
    | cons seg rest =>
      obtain ⟨_, _, ref, _, hsource, _⟩ := hrest.stored seg (by simp)
      simp [Segments.coveredRows, covered, hstart, hsource]
  · refine ⟨?_, rest, by simp [covered, hstart], hrest⟩
    simp only [Segments.coveredRows, covered, if_neg hstart, List.singleton_append,
      List.head?_cons, if_true]
    rfl

/-- A later response: its rows replace the earlier ones, or continue them. -/
theorem append (h : ForwardSegments objects streams field segs v)
    (hnew : ForwardSegments objects streams field new w)
    (hok : ForwardRows.append field v w = .ok u) :
    ∃ out, field.append segs new = .ok out ∧ ForwardSegments objects streams field out u := by
  obtain ⟨hcovered, rest, hdrop, hrest⟩ := hnew.covered_eq
  have htotal := h.numRows_eq
  obtain ⟨old, rfl, hold⟩ := h
  unfold ForwardRows.append at hok
  split at hok
  · cases hok
  · rename_i hfit
    refine ⟨(covered v.start ++ old).prefixRows w.start ++ rest, ?_, ?_⟩
    · simp only [ForwardField.append, hcovered, htotal, if_neg hfit, hdrop]
    · rw [Segments.prefixRows, take_covered]
      split at hok
      · -- the new rows start at or before the old ones
        rename_i hle
        injection hok with hok
        subst hok
        have hnil : PieceTable.take old ((w.start : Int) - v.start) = [] := by
          cases old with
          | nil => rfl
          | cons seg old => rw [PieceTable.take, if_pos (by omega)]
        refine ⟨rest, ?_, hrest⟩
        rw [hnil, Nat.min_eq_right hle, List.append_nil]
      · rename_i hgt
        have hcut : ((w.start : Int) - v.start).toNat = w.start - v.start := by omega
        have htake := hold.take ((w.start : Int) - v.start) v.start
        rw [hcut] at htake
        have hmin : min v.start w.start = v.start := by omega
        split at hok
        · rename_i array newArray harray hnewArray
          split at hok
          · cases hok
          · rename_i hshape
            injection hok with hok
            subst hok
            refine ⟨PieceTable.take old ((w.start : Int) - v.start) ++ rest, ?_, ?_⟩
            · rw [hmin, List.append_assoc]
            · apply htake.append hrest (u := ⟨v.start, _⟩) rfl
              · simp [ForwardRows.rows, harray, hnewArray]
              · intro own hown
                rw [harray] at hown
                cases hown
                rfl
              · intro own hown
                rw [hnewArray] at hown
                cases hown
                exact (not_not.mp hshape).symm
        · rename_i array harray hnewArray
          injection hok with hok
          subst hok
          have hnil : rest = [] := hrest.eq_nil_iff.mpr (by rw [ForwardRows.rows, hnewArray])
          rw [hnil, List.append_nil, hmin]
          rw [harray] at htake
          exact ⟨_, rfl, htake⟩
        · -- without an array no row precedes, so nothing can continue
          rename_i harray
          have hzero : v.rows = [] := by rw [ForwardRows.rows, harray]
          have htot : v.total = v.start := by rw [ForwardRows.total, hzero]; rfl
          omega

/-- The last positions dropped. -/
theorem strip (h : ForwardSegments objects streams field segs v) (n : Nat) :
    ForwardSegments objects streams field (segs.prefixRows ((numRows segs : Int) - n))
      (v.strip n) := by
  have htotal := h.numRows_eq
  obtain ⟨rest, rfl, hrest⟩ := h
  have hkept : PieceTable.take (covered v.start ++ rest)
      ((numRows (covered v.start ++ rest) : Int) - n) =
      PieceTable.take (covered v.start ++ rest) ((v.total - n : Nat) : Int) := by
    rw [htotal]
    by_cases hle : n ≤ v.total
    · have hcast : (v.total : Int) - n = ((v.total - n : Nat) : Int) := by omega
      rw [hcast]
    · have hzero : v.total - n = 0 := by omega
      rw [hzero]
      cases hsegs : covered v.start ++ rest with
      | nil => rfl
      | cons seg segs => rw [PieceTable.take, PieceTable.take, if_pos (by omega), if_pos (by simp)]
  have hcut : (((v.total - n : Nat) : Int) - v.start).toNat = v.total - n - v.start := by omega
  have htake := hrest.take (((v.total - n : Nat) : Int) - v.start) (min v.start (v.total - n))
  rw [hcut] at htake
  exact ⟨_, by rw [Segments.prefixRows, hkept, take_covered]; rfl, htake⟩

end ForwardSegments

/-! ### Responses -/

/-- The store holds the arrays of a response that went to it, under the key of its ref and
    with the row counts the ref states; a requested array is missing only where there is
    no object or no row to store. -/
structure Response.StoredIn (r : Response) (objects : Objects) (k : Nat) : Prop where
  forward : ∀ field array, r.requested (.forward field) → r.forward field = some array →
    ∃ ref spec, r.ref = some ref ∧
      StoreRef.spec r.ref (Field.forward field).storedRows = some spec ∧
      spec.rows = array.rows.length ∧ (objects ref.key).bind (·.forward field) = some array
  noForward : ∀ field, r.requested (.forward field) → r.forward field = none →
    StoreRef.spec r.ref (Field.forward field).storedRows = none ∧
      (r.ref = none ∨ (Field.forward field).expectedRows r.numTokens r.outputTokens.length -
        r.startLen field = 0)
  mask : ∀ supports, r.requested .samplingMask → r.supports = some supports →
    ∃ ref spec stash, r.ref = some ref ∧
      StoreRef.spec r.ref Field.samplingMask.storedRows = some spec ∧
      spec.rows = supports.length ∧ objects ref.key = some stash ∧
      stash.maskLengths = some (supports.map List.length) ∧
      stash.maskTokenIds = some supports.flatten ∧
      (0 < k → stash.maskSupportLogprobs = some r.supportLogprobs.flatten)
  noMask : r.requested .samplingMask → r.supports = none →
    StoreRef.spec r.ref Field.samplingMask.storedRows = none

/-- A whole object's segment reads its array. -/
theorem storedRows_whole {objects : Objects} {streams : Option Nat} {field : ForwardField}
    {ref : StoreRef} {array : ForwardArray} (start : Nat)
    (hobject : (objects ref.key).bind (·.forward field) = some array)
    (hcheck : field.check streams array = .ok ()) (hrows : array.rows ≠ []) :
    StoredRows objects streams field [⟨some ref, 0, array.rows.length⟩] ⟨start, some array⟩ where
  solid := by
    intro seg hseg
    rw [List.mem_singleton.mp hseg]
    exact List.length_pos_of_ne_nil hrows
  reads := by
    simp only [PieceTable.read, PieceTable.rows_cons, PieceTable.rows_nil, List.append_nil,
      Piece.rows, Piece.length, Nat.sub_zero, List.map_map, ForwardRows.rows]
    apply List.ext_getElem
    · simp
    · intro i h₁ h₂
      have hi : i < array.rows.length := by simpa using h₂
      simp [storedForward, hobject, hi]
  stored := by
    intro seg hseg
    rw [List.mem_singleton.mp hseg]
    exact ⟨array, rfl, ref, array, rfl, hobject, hcheck, rfl⟩

/-- A response's object gives one segment of all its rows, or none when it has no row. -/
theorem wholeObject_stored {field : Field} {ref : Option StoreRef} {spec : FieldSpec} {rows : Int}
    (hspec : StoreRef.spec ref field.storedRows = some spec) (hrows : rows = spec.rows)
    (noOutputAbort : Bool) : wholeObject field ref rows noOutputAbort =
      .ok (if spec.rows = 0 then [] else [⟨ref, 0, spec.rows⟩]) := by
  subst hrows
  simp only [wholeObject, hspec, ne_eq, not_true_eq_false, if_false, Int.toNat_natCast]
  by_cases hzero : spec.rows = 0
  · simp [hzero]
  · have hne : ¬ (spec.rows : Int) = 0 := by omega
    simp [hzero]

/-- The segments of a response's forward field. -/
theorem forwardSegments_ofResponse {objects : Objects} {k : Nat} {streams : Option Nat}
    {field : ForwardField} {r : Response} (hstored : r.StoredIn objects k)
    (hrequested : r.requested (.forward field)) {v : ForwardRows}
    (hok : ForwardRows.ofResponse field streams r = .ok v) :
    ∃ segs, r.fieldFromRef (.forward field) = .ok segs ∧
      ForwardSegments objects streams field segs v := by
  have hcovered : (if r.startLen field ≠ 0 then [⟨none, 0, r.startLen field⟩] else []) =
      covered (r.startLen field) := by
    rw [covered, ite_not]
  simp only [ForwardRows.ofResponse] at hok
  simp only [StoreResponse.fieldFromRef, hcovered]
  cases hforward : r.forward field with
  | none =>
    obtain ⟨hspec, hmissing⟩ := hstored.noForward field hrequested hforward
    rw [hforward] at hok
    simp only at hok
    split at hok
    · rename_i habort
      injection hok with hok
      subst hok
      refine ⟨covered (r.startLen field) ++ [], ?_, [], rfl, ?_, rfl, ?_⟩
      · simp only [wholeObject, hspec]
        rw [if_pos ⟨habort, hmissing⟩]
        rfl
      · exact fun seg hseg => absurd hseg (by simp)
      · exact fun seg hseg => absurd hseg (by simp)
    · cases hok
  | some array =>
    obtain ⟨ref, spec, href, hspec, hrows, hobject⟩ :=
      hstored.forward field array hrequested hforward
    rw [hforward] at hok
    simp only at hok
    split at hok
    · cases hok
    · rename_i hcount
      rw [not_not] at hcount
      obtain ⟨_, hcheck, hv⟩ := Except.bind_eq_ok.mp hok
      cases hv
      have hwhole := wholeObject_stored hspec (hcount.symm.trans (by rw [hrows])) r.noOutputAbort
      refine ⟨covered (r.startLen field) ++ if spec.rows = 0 then [] else [⟨r.ref, 0, spec.rows⟩],
        ?_, _, rfl, ?_⟩
      · rw [hwhole]
        rfl
      · rw [hrows, href]
        split
        · rename_i hzero
          have hnil : array.rows = [] := List.length_eq_zero_iff.mp hzero
          constructor
          · exact fun seg hseg => absurd hseg (by simp)
          · show [] = array.rows.map some
            rw [hnil]
            rfl
          · exact fun seg hseg => absurd hseg (by simp)
        · rename_i hpos
          exact storedRows_whole _ hobject hcheck fun hnil => hpos (by rw [hnil]; rfl)

/-- The rows a response's mask adds. -/
def Response.maskRows (r : Response) (k : Nat) (supports : List (List Int)) : List MaskRow :=
  List.zipWith (fun token sampled => ⟨token, some sampled⟩) r.outputTokens
    (supportRows k supports r.supportLogprobs)

/-- What the inline checks establish about the mask of a response. -/
structure Response.MaskChecked (r : Response) (k : Nat) (supports : List (List Int)) : Prop where
  length : r.outputTokens.length = supports.length
  mem : ∀ e ∈ r.outputTokens.zip supports, e.1 ∈ e.2
  logprobs : 0 < k → r.supportLogprobs.map List.length = supports.map List.length
  once : 0 < k → ∀ e ∈ r.outputTokens.zip supports, e.2.count e.1 = 1
  fits : 0 < k → ∀ row ∈ r.supportLogprobs, row.length ≤ k

theorem samplingMaskFromSupports_eq_ok {tokenIds : List Int} {supports : List (List Int)}
    {mask : RolloutSamplingMask} (hok : samplingMaskFromSupports tokenIds supports = .ok mask) :
    tokenIds.length = supports.length ∧ (∀ e ∈ tokenIds.zip supports, e.1 ∈ e.2) ∧
      mask.Holds supports := by
  unfold samplingMaskFromSupports at hok
  split at hok
  · cases hok
  · rename_i hlen
    obtain ⟨_, hloop, hmask⟩ := Except.bind_eq_ok.mp hok
    refine ⟨not_not.mp hlen, ?_, RolloutSamplingMask.holds_fromMaskList hmask⟩
    intro e he
    have hstep := Except.forM_eq_ok.mp hloop e he
    simp only at hstep
    split at hstep
    · cases hstep
    · split at hstep
      · cases hstep
      · rename_i hmem
        exact not_not.mp hmem

theorem checkSupportLogprobs_eq_ok {tokenIds : List Int} {supports : List (List Int)}
    {logprobs : List (List Float32Bits)} (hlen : tokenIds.length = supports.length)
    (hok : checkSupportLogprobs tokenIds supports logprobs = .ok ()) :
    logprobs.map List.length = supports.map List.length ∧
      ∀ e ∈ tokenIds.zip supports, e.2.count e.1 = 1 := by
  unfold checkSupportLogprobs at hok
  split at hok
  · cases hok
  · rename_i hcount
    rw [not_not] at hcount
    have hstep := Except.forM_eq_ok.mp hok
    have hpair : ∀ i (h₁ : i < tokenIds.length) (h₂ : i < supports.length)
        (h₃ : i < logprobs.length),
        logprobs[i].length = supports[i].length ∧ supports[i].count tokenIds[i] = 1 := by
      intro i h₁ h₂ h₃
      have hmem : ((tokenIds[i], supports[i]), logprobs[i]) ∈
          (tokenIds.zip supports).zip logprobs := by
        have hi : i < ((tokenIds.zip supports).zip logprobs).length := by
          simp only [List.length_zip]
          omega
        have := List.getElem_mem hi
        simpa using this
      have hi := hstep _ hmem
      simp only at hi
      split at hi
      · cases hi
      · rename_i hrow
        split at hi
        · cases hi
        · rename_i honce
          exact ⟨not_not.mp hrow, not_not.mp honce⟩
    constructor
    · apply List.ext_getElem
      · simp only [List.length_map]
        omega
      · intro i h₁ h₂
        simp only [List.length_map] at h₁ h₂
        simp only [List.getElem_map]
        exact (hpair i (by omega) h₂ h₁).1
    · intro e he
      obtain ⟨i, hi, rfl⟩ := List.mem_iff_getElem.mp he
      simp only [List.length_zip] at hi
      simp only [List.getElem_zip]
      exact (hpair i (by omega) (by omega) (by omega)).2

/-- The inline mask of a response that passed the checks holds its rows. -/
theorem Response.MaskChecked.holds {r : Response} {k : Nat} {supports : List (List Int)}
    (h : r.MaskChecked k supports) {m : InlineMask} (hmask : m.mask.Holds supports)
    (htopk : m.topk = if 0 < k then some (supports.map (Csr.pad (-1) k),
      r.supportLogprobs.map (Csr.pad negInf k)) else none) :
    m.Holds k (r.maskRows k supports) ∧
      (r.maskRows k supports).map MaskRow.token = r.outputTokens ∧
      (r.maskRows k supports).map MaskRow.sampled =
        (supportRows k supports r.supportLogprobs).map some := by
  have hlen : (supportRows k supports r.supportLogprobs).length = r.outputTokens.length := by
    have hfst := congrArg List.length (map_fst_supportRows h.logprobs)
    rw [List.length_map] at hfst
    rw [hfst, h.length]
  have htoken : (r.maskRows k supports).map MaskRow.token = r.outputTokens := by
    rw [Response.maskRows, List.map_zipWith]
    apply List.ext_getElem
    · simp only [List.length_zipWith]
      omega
    · intro i h₁ h₂
      simp
  have hsampled : (r.maskRows k supports).map MaskRow.sampled =
      (supportRows k supports r.supportLogprobs).map some := by
    rw [Response.maskRows, List.map_zipWith]
    apply List.ext_getElem
    · simp only [List.length_zipWith, List.length_map]
      omega
    · intro i h₁ h₂
      simp
  have hread : ∀ {β : Type} (f : MaskRow → β) (g : List Int × List Float32Bits → β),
      (∀ token s, f ⟨token, some s⟩ = g s) →
      (r.maskRows k supports).map f = (supportRows k supports r.supportLogprobs).map g := by
    intro β f g hfg
    rw [Response.maskRows, List.map_zipWith]
    apply List.ext_getElem
    · simp only [List.length_zipWith, List.length_map]
      omega
    · intro i h₁ h₂
      simp [hfg]
  have hsupport : (r.maskRows k supports).map MaskRow.support = supports := by
    rw [hread MaskRow.support Prod.fst fun _ _ => rfl, map_fst_supportRows h.logprobs]
  refine ⟨⟨by rw [hsupport]; exact hmask, ?_, ?_⟩, htoken, hsampled⟩
  · rw [htopk]
    split
    · rename_i hk
      have hids : (r.maskRows k supports).map (MaskRow.candidates k) =
          supports.map (Csr.pad (-1) k) := by
        rw [hread (MaskRow.candidates k) (Csr.pad (-1) k ∘ Prod.fst) fun _ _ => rfl,
          ← List.map_map, map_fst_supportRows h.logprobs]
      have hlogprobs : (r.maskRows k supports).map (MaskRow.candidateLogprobs k) =
          r.supportLogprobs.map (Csr.pad negInf k) := by
        rw [hread (MaskRow.candidateLogprobs k) (Csr.pad negInf k ∘ Prod.snd) fun _ _ => rfl,
          ← List.map_map, map_snd_supportRows hk (h.logprobs hk)]
      rw [hids, hlogprobs]
    · rfl
  · intro e he
    obtain ⟨i, hi, rfl⟩ := List.mem_iff_getElem.mp he
    have hi' : i < r.outputTokens.length := by
      have := congrArg List.length htoken
      rw [List.length_map] at this
      omega
    have hsup : i < supports.length := by
      rw [← h.length]
      exact hi'
    have htok : (r.maskRows k supports)[i].token = r.outputTokens[i] := by
      have := congrArg (fun l => l[i]?) htoken
      simpa [List.getElem?_eq_getElem hi, List.getElem?_eq_getElem hi'] using this
    have hrow : (r.maskRows k supports)[i].support = supports[i] := by
      have := congrArg (fun l => l[i]?) hsupport
      simpa [List.getElem?_eq_getElem hi, List.getElem?_eq_getElem hsup] using this
    have hzip : (r.outputTokens[i], supports[i]) ∈ r.outputTokens.zip supports := by
      have hiz : i < (r.outputTokens.zip supports).length := by
        simp only [List.length_zip]
        omega
      have := List.getElem_mem hiz
      simpa using this
    constructor
    · rw [htok, hrow]
      exact h.mem _ hzip
    · intro hk
      rw [htok, hrow]
      exact h.once hk _ hzip
    · intro hk s hs
      -- the log-probs of the row are as many as its support, which fits the slots
      have hmem : s ∈ supportRows k supports r.supportLogprobs := by
        have hin : (r.maskRows k supports)[i].sampled ∈
            (r.maskRows k supports).map MaskRow.sampled :=
          List.mem_map_of_mem (List.getElem_mem hi)
        rw [hsampled, hs] at hin
        simpa using hin
      obtain ⟨j, hj, hsj⟩ := List.mem_iff_getElem.mp hmem
      have hlogs : (supportRows k supports r.supportLogprobs).map (fun s => s.2.length) =
          (supportRows k supports r.supportLogprobs).map fun s => s.1.length := by
        have hfst := congrArg (List.map List.length) (map_fst_supportRows h.logprobs)
        have hsnd := congrArg (List.map List.length) (map_snd_supportRows hk (h.logprobs hk))
        rw [List.map_map] at hfst hsnd
        rw [h.logprobs hk] at hsnd
        exact hsnd.trans hfst.symm
      have hlog := congrArg (fun l => l[j]?) hlogs
      simp only [List.getElem?_map, List.getElem?_eq_getElem hj, hsj, Option.map_some,
        Option.some.injEq] at hlog
      refine ⟨hlog, ?_⟩
      have hsecond : s.2 ∈ r.supportLogprobs := by
        rw [← map_snd_supportRows hk (h.logprobs hk)]
        exact List.mem_map_of_mem hmem
      rw [← hlog]
      exact h.fits hk _ hsecond

/-- A whole mask object's segment reads its rows. -/
theorem maskSegments_whole {objects : Objects} {k : Nat} {ref : StoreRef} {stash : Stash}
    {supports : List (List Int)} {logprobs : List (List Float32Bits)} {entries : List MaskRow}
    (hobject : objects ref.key = some stash) (hmask : stash.HoldsMask k supports logprobs)
    (hsampled : entries.map MaskRow.sampled = (supportRows k supports logprobs).map some)
    (hpos : supports ≠ []) :
    MaskSegments objects k [⟨some ref, 0, supports.length⟩] entries where
  solid := by
    intro seg hseg
    rw [List.mem_singleton.mp hseg]
    exact List.length_pos_of_ne_nil hpos
  reads := by
    have hlen : (supportRows k supports logprobs).length = supports.length := by
      have hfst := congrArg List.length (map_fst_supportRows hmask.aligned)
      rwa [List.length_map] at hfst
    simp only [PieceTable.read, PieceTable.rows_cons, PieceTable.rows_nil, List.append_nil,
      Piece.rows, Piece.length, Nat.sub_zero, hsampled]
    apply List.ext_getElem
    · simp [hlen]
    · intro i h₁ h₂
      have hi : i < (supportRows k supports logprobs).length := by simpa using h₂
      simp [maskSource, hobject, hmask.maskRows_eq, hi]
  stored := by
    intro seg hseg ref' href
    rw [List.mem_singleton.mp hseg] at href
    cases href
    exact ⟨stash, supports, logprobs, hobject, hmask⟩

/-- The segments of a response's mask. -/
theorem maskSegments_ofResponse {objects : Objects} {k : Nat} {r : Response}
    (hstored : r.StoredIn objects k) (hrequested : r.requested .samplingMask) {m : InlineMask}
    (hok : InlineMask.ofResponse k r = .ok m) :
    ∃ segs entries, r.fieldFromRef .samplingMask = .ok segs ∧
      MaskSegments objects k segs entries ∧ m.Holds k entries ∧
      entries.map MaskRow.token = r.outputTokens := by
  unfold InlineMask.ofResponse at hok
  cases hsupports : r.supports with
  | none =>
    -- only an abort without output has no supports, and no rows
    have hspec := hstored.noMask hrequested hsupports
    rw [hsupports] at hok
    simp only at hok
    split at hok
    · cases hok
    · rename_i habort
      have htrue : r.noOutputAbort = true := by simpa using habort
      obtain ⟨mask, hmask, hm⟩ := Except.bind_eq_ok.mp hok
      cases hm
      rw [Except.mapError_eq_ok] at hmask
      have hempty : r.outputTokens = [] := by
        have := htrue
        simp only [StoreResponse.noOutputAbort, Bool.and_eq_true, List.isEmpty_iff] at this
        exact this.1
      refine ⟨[], [], ?_, MaskSegments.empty, ⟨?_, rfl, by simp⟩, by rw [hempty]; rfl⟩
      · simp only [StoreResponse.fieldFromRef, wholeObject, hspec]
        rw [if_pos]
        refine ⟨htrue, Or.inr ?_⟩
        simp [Field.expectedRows, hempty]
      · exact RolloutSamplingMask.holds_fromMaskList hmask
  | some supports =>
    obtain ⟨ref, spec, stash, href, hspec, hrows, hobject, hlengths, htokenIds, hlogprobs⟩ :=
      hstored.mask supports hrequested hsupports
    rw [hsupports] at hok
    simp only at hok
    obtain ⟨mask, hmask, hm⟩ := Except.bind_eq_ok.mp hok
    rw [Except.mapError_eq_ok] at hmask
    obtain ⟨hlen, hmem, hholds⟩ := samplingMaskFromSupports_eq_ok hmask
    -- the inline checks are those that the stored rows rely on
    have hchecked : r.MaskChecked k supports ∧ m.mask = mask ∧
        m.topk = if 0 < k then some (supports.map (Csr.pad (-1) k),
          r.supportLogprobs.map (Csr.pad negInf k)) else none := by
      by_cases hk : 0 < k
      · rw [if_pos hk] at hm
        obtain ⟨_, hcheck, hm⟩ := Except.bind_eq_ok.mp hm
        obtain ⟨candidates, hcandidates, hm⟩ := Except.bind_eq_ok.mp hm
        cases hm
        rw [Except.mapError_eq_ok] at hcheck hcandidates
        obtain ⟨halign, honce⟩ := checkSupportLogprobs_eq_ok hlen hcheck
        obtain ⟨_, hloop, hpair⟩ := Except.bind_eq_ok.mp hcandidates
        cases hpair
        refine ⟨⟨hlen, hmem, fun _ => halign, fun _ => honce, fun _ row hrow => ?_⟩, rfl, ?_⟩
        · have hstep := Except.forM_eq_ok.mp hloop row hrow
          split at hstep
          · cases hstep
          · rename_i hfit
            omega
        · rw [if_pos hk]
      · rw [if_neg hk] at hm
        cases hm
        exact ⟨⟨hlen, hmem, fun h => absurd h hk, fun h => absurd h hk, fun h => absurd h hk⟩,
          rfl, by rw [if_neg hk]⟩
    obtain ⟨hchecks, hmaskEq, htopk⟩ := hchecked
    obtain ⟨hentries, htokens, hsampled⟩ := hchecks.holds (by rw [hmaskEq]; exact hholds) htopk
    have hstash : stash.HoldsMask k supports r.supportLogprobs :=
      ⟨hlengths, htokenIds, hlogprobs, hchecks.logprobs⟩
    have hexpected : (Field.samplingMask).expectedRows r.numTokens r.outputTokens.length =
        (spec.rows : Int) := by
      rw [hrows, ← hlen]
      rfl
    refine ⟨_, _, wholeObject_stored hspec hexpected r.noOutputAbort, ?_, hentries, htokens⟩
    rw [hrows, href]
    split
    · rename_i hzero
      have hnil : r.maskRows k supports = [] := by
        have := congrArg List.length htokens
        rw [List.length_map, hlen, hzero] at this
        exact List.length_eq_zero_iff.mp this
      rw [hnil]
      exact MaskSegments.empty
    · rename_i hpos
      exact maskSegments_whole hobject hstash hsampled fun hnil => hpos (by rw [hnil]; rfl)

/-! ### Plans -/

theorem rel_some_right {α β : Type} {r : α → β → Prop} {x : Option α} {b : β}
    (h : Option.Rel r x (some b)) : ∃ a, x = some a ∧ r a b := by
  cases h with
  | some h => exact ⟨_, rfl, h⟩

theorem rel_some_left {α β : Type} {r : α → β → Prop} {a : α} {y : Option β}
    (h : Option.Rel r (some a) y) : ∃ b, y = some b ∧ r a b := by
  cases h with
  | some h => exact ⟨_, rfl, h⟩

theorem rel_none_left {α β : Type} {r : α → β → Prop} {y : Option β}
    (h : Option.Rel r none y) : y = none := by
  cases h
  rfl

theorem rel_none_right {α β : Type} {r : α → β → Prop} {x : Option α}
    (h : Option.Rel r x none) : x = none := by
  cases h
  rfl

/-- The segments of each field of the plan read these rows. -/
structure StorePlan.Reads (objects : Objects) (k : Nat) (streams : Option Nat) (plan : StorePlan)
    (forward : ForwardField → Option ForwardRows) (rows : Option (List MaskRow)) : Prop where
  forward : ∀ field, Option.Rel (ForwardSegments objects streams field)
    (plan.fields.get (.forward field)) (forward field)
  mask : Option.Rel (MaskSegments objects k) plan.fields.samplingMask rows

/-- The arrays hold these mask rows, one a response token. -/
def InlineArrays.HoldsRows (k : Nat) (a : InlineArrays) (rows : Option (List MaskRow)) : Prop :=
  Option.Rel (fun m entries => m.Holds k entries ∧ entries.map MaskRow.token = a.responseTokens)
    a.samplingMask rows

/-- The plan represents the arrays: its segments read the rows the arrays hold. -/
def StorePlan.Represents (objects : Objects) (k : Nat) (streams : Option Nat) (plan : StorePlan)
    (a : InlineArrays) : Prop :=
  ∃ rows, plan.Reads objects k streams a.forward rows ∧ a.HoldsRows k rows

theorem Fields.build_eq_ok {α : Type} {present : Field → Bool}
    {f : Field → Except StoreError α} {out : Fields α}
    (h : ∀ field, Fields.buildEntry present f field = .ok (out.get field)) :
    Fields.build present f = .ok out := by
  simp only [Fields.build, h, Except.ok_bind]
  rfl

theorem Fields.zip_eq_ok {α : Type} {a b out : Fields α}
    {combine : Field → α → α → Except StoreError α}
    (hsame : ∀ field, (a.get field).isSome = (b.get field).isSome)
    (h : ∀ field, Fields.zipEntry a b combine field = .ok (out.get field)) :
    a.zip b combine = .ok out := by
  simp only [Fields.zip, hsame, ne_eq, not_true_eq_false, or_self, if_false, h]
  rfl

/-- Both samples carry the field and it combines, or neither does. -/
theorem InlineArrays.zipField_eq_ok {α : Type} {a b c : Option α}
    {combine : α → α → Except StoreError α} (h : zipField a b combine = .ok c) :
    (∃ x y z, a = some x ∧ b = some y ∧ combine x y = .ok z ∧ c = some z) ∨
      (a = none ∧ b = none ∧ c = none) := by
  unfold zipField at h
  split at h
  · rename_i x y
    cases hz : combine x y with
    | error e => simp [hz, Functor.map, Except.map] at h
    | ok z =>
      simp only [hz, Functor.map, Except.map, Except.ok.injEq] at h
      exact .inl ⟨x, y, z, rfl, rfl, hz, h.symm⟩
  · cases h
    exact .inr ⟨rfl, rfl, rfl⟩
  · cases h

namespace InlineArrays

variable {k : Nat} {streams : Option Nat} {a b c : InlineArrays}

theorem ofResponse_eq_ok {r : Response} (h : ofResponse k streams r = .ok a) :
    (∀ field, forwardOf streams r field = .ok (a.forward field)) ∧
      maskOf k r = .ok a.samplingMask ∧ a.responseTokens = r.outputTokens := by
  simp only [ofResponse, Except.bind_eq_ok] at h
  obtain ⟨routed, hrouted, indexer, hindexer, mask, hmask, h⟩ := h
  cases h
  refine ⟨fun field => ?_, hmask, rfl⟩
  cases field with
  | routedExperts => exact hrouted
  | indexerTopk => exact hindexer

theorem append_eq_ok (h : a.append b = .ok c) :
    (∀ field, zipField (a.forward field) (b.forward field) (ForwardRows.append field) =
      .ok (c.forward field)) ∧
      zipField a.samplingMask b.samplingMask (InlineMask.append a.responseTokens.length) =
        .ok c.samplingMask ∧ c.responseTokens = a.responseTokens ++ b.responseTokens := by
  simp only [append, Except.bind_eq_ok] at h
  obtain ⟨routed, hrouted, indexer, hindexer, mask, hmask, h⟩ := h
  cases h
  refine ⟨fun field => ?_, hmask, rfl⟩
  cases field with
  | routedExperts => exact hrouted
  | indexerTopk => exact hindexer

theorem merge_eq_ok {observation : List Int} (h : a.merge k observation b = .ok c) :
    (∀ field, zipField (a.forward field) (b.forward field) (ForwardRows.append field) =
      .ok (c.forward field)) ∧
      (zipField a.samplingMask b.samplingMask fun mask laterMask =>
        InlineMask.merge k mask observation laterMask) = .ok c.samplingMask ∧
      c.responseTokens = a.responseTokens ++ observation ++ b.responseTokens := by
  simp only [merge, Except.bind_eq_ok] at h
  obtain ⟨routed, hrouted, indexer, hindexer, mask, hmask, h⟩ := h
  cases h
  refine ⟨fun field => ?_, hmask, rfl⟩
  cases field with
  | routedExperts => exact hrouted
  | indexerTopk => exact hindexer

theorem forward_insert {tokenIds : List Int} (h : a.insert k tokenIds = .ok c)
    (field : ForwardField) : c.forward field = a.forward field := by
  simp only [insert, Except.bind_eq_ok] at h
  obtain ⟨mask, _, h⟩ := h
  cases h
  cases field <;> rfl

theorem forward_strip {n : Nat} (h : a.strip n = .ok c) (field : ForwardField) :
    c.forward field = (a.forward field).map (·.strip n) := by
  unfold strip at h
  split at h
  · rename_i hzero
    cases h
    subst hzero
    cases a.forward field with
    | none => rfl
    | some v => rw [Option.map_some, ForwardRows.strip_zero]
  · split at h
    · cases h
    · obtain ⟨mask, _, h⟩ := Except.bind_eq_ok.mp h
      cases h
      cases field <;> rfl

end InlineArrays

namespace StorePlan.Reads

variable {objects : Objects} {k : Nat} {streams : Option Nat} {plan new : StorePlan}
  {v w u : ForwardField → Option ForwardRows}

/-- Combining plans field by field. -/
theorem append {es fs : Option (List MaskRow)} (h : plan.Reads objects k streams v es)
    (hnew : new.Reads objects k streams w fs) (hsame : es.isSome = fs.isSome)
    (hforward : ∀ field, InlineArrays.zipField (v field) (w field) (ForwardRows.append field) =
      .ok (u field)) :
    ∃ out, plan.appendResponse new = .ok out ∧
      out.Reads objects k streams u (es.bind fun es => fs.map fun fs => es ++ fs) := by
  have hfields : ∀ field, ∃ segs,
      Fields.zipEntry plan.fields new.fields Field.append (.forward field) = .ok segs ∧
      (plan.fields.get (.forward field)).isSome = (new.fields.get (.forward field)).isSome ∧
      Option.Rel (ForwardSegments objects streams field) segs (u field) := by
    intro field
    have hv := h.forward field
    have hw := hnew.forward field
    rcases InlineArrays.zipField_eq_ok (hforward field) with
      ⟨x, y, z, ha, hb, hz, hc⟩ | ⟨ha, hb, hc⟩
    · rw [ha] at hv
      rw [hb] at hw
      obtain ⟨segs, hsegs, hv⟩ := rel_some_right hv
      obtain ⟨segs', hsegs', hw⟩ := rel_some_right hw
      obtain ⟨out, hout, hrep⟩ := hv.append hw hz
      refine ⟨some out, ?_, by rw [hsegs, hsegs']; rfl, hc ▸ .some hrep⟩
      rw [Fields.zipEntry, hsegs, hsegs']
      show some <$> field.append segs segs' = _
      rw [hout]
      rfl
    · rw [ha] at hv
      rw [hb] at hw
      have hsegs := rel_none_right hv
      have hsegs' := rel_none_right hw
      refine ⟨none, ?_, by rw [hsegs, hsegs'], hc ▸ .none⟩
      rw [Fields.zipEntry, hsegs, hsegs']
      rfl
  have hmaskField : ∃ segs,
      Fields.zipEntry plan.fields new.fields Field.append .samplingMask = .ok segs ∧
      plan.fields.samplingMask.isSome = new.fields.samplingMask.isSome ∧
      Option.Rel (MaskSegments objects k) segs
        (es.bind fun es => fs.map fun fs => es ++ fs) := by
    have hm := h.mask
    have hn := hnew.mask
    cases es with
    | none =>
      cases fs with
      | none =>
        have hsegs := rel_none_right hm
        have hsegs' := rel_none_right hn
        refine ⟨none, ?_, by rw [hsegs, hsegs'], .none⟩
        simp only [Fields.zipEntry, Fields.get, hsegs, hsegs']
        rfl
      | some fs => simp at hsame
    | some es =>
      cases fs with
      | none => simp at hsame
      | some fs =>
        obtain ⟨segs, hsegs, hes⟩ := rel_some_right hm
        obtain ⟨segs', hsegs', hfs⟩ := rel_some_right hn
        refine ⟨some (segs ++ segs'), ?_, by rw [hsegs, hsegs']; rfl, .some (hes.append hfs)⟩
        simp only [Fields.zipEntry, Fields.get, hsegs, hsegs']
        rfl
  obtain ⟨routed, hrouted, hroutedSame, hroutedRel⟩ := hfields .routedExperts
  obtain ⟨indexer, hindexer, hindexerSame, hindexerRel⟩ := hfields .indexerTopk
  obtain ⟨mask, hmaskSegs, hmaskSame, hmaskRel⟩ := hmaskField
  have hzip : plan.fields.zip new.fields Field.append = .ok ⟨routed, indexer, mask⟩ := by
    apply Fields.zip_eq_ok
    · intro field
      rcases field with (_ | _) | _
      · exact hroutedSame
      · exact hindexerSame
      · exact hmaskSame
    · intro field
      rcases field with (_ | _) | _
      · exact hrouted
      · exact hindexer
      · exact hmaskSegs
  refine ⟨⟨⟨routed, indexer, mask⟩, unionRefs plan.ownedRefs new.ownedRefs⟩, ?_, ?_, hmaskRel⟩
  · rw [StorePlan.appendResponse, hzip]
    rfl
  · intro field
    cases field with
    | routedExperts => exact hroutedRel
    | indexerTopk => exact hindexerRel

/-- Inserted tokens add forced rows to the mask only. -/
theorem insertTokens {es : Option (List MaskRow)} (h : plan.Reads objects k streams v es)
    (tokenIds : List Int) :
    (plan.insertTokens tokenIds.length).Reads objects k streams v
      (es.map (· ++ tokenIds.map MaskRow.forced)) := by
  constructor
  · intro field
    have hfield := h.forward field
    cases field with
    | routedExperts =>
      show Option.Rel _ (plan.fields.routedExperts.map id) _
      rw [Option.map_id]
      exact hfield
    | indexerTopk =>
      show Option.Rel _ (plan.fields.indexerTopk.map id) _
      rw [Option.map_id]
      exact hfield
  · have hm := h.mask
    show Option.Rel _ (plan.fields.samplingMask.map _) _
    cases es with
    | none =>
      rw [rel_none_right hm]
      exact .none
    | some es =>
      obtain ⟨segs, hsegs, hes⟩ := rel_some_right hm
      rw [hsegs]
      apply Option.Rel.some
      show MaskSegments objects k
        (if tokenIds.length ≠ 0 then segs ++ [⟨none, 0, tokenIds.length⟩] else segs) _
      by_cases hnil : tokenIds = []
      · simp only [hnil, List.length_nil, ne_eq, not_true_eq_false, if_false, List.map_nil,
          List.append_nil]
        exact hes
      · have hpos : tokenIds.length ≠ 0 := fun h0 => hnil (List.length_eq_zero_iff.mp h0)
        rw [if_pos hpos]
        exact hes.append (MaskSegments.forced tokenIds hnil)

/-- A stripped tail drops the last rows of every field. -/
theorem stripTail {es : Option (List MaskRow)} (h : plan.Reads objects k streams v es) (n : Nat) :
    (plan.stripTail n).Reads objects k streams (fun field => (v field).map (·.strip n))
      (es.map fun es => es.take (es.length - n)) := by
  constructor
  · intro field
    have hfield := h.forward field
    have hget : (plan.stripTail n).fields.get (.forward field) =
        (plan.fields.get (.forward field)).map fun segs =>
          segs.prefixRows ((numRows segs : Int) - n) := by
      cases field <;> rfl
    rw [hget]
    cases hv : v field with
    | none =>
      rw [hv] at hfield
      rw [rel_none_right hfield]
      exact .none
    | some rows =>
      rw [hv] at hfield
      obtain ⟨segs, hsegs, hrep⟩ := rel_some_right hfield
      rw [hsegs]
      exact .some (hrep.strip n)
  · have hm := h.mask
    show Option.Rel _ (plan.fields.samplingMask.map _) _
    cases es with
    | none =>
      rw [rel_none_right hm]
      exact .none
    | some es =>
      obtain ⟨segs, hsegs, hes⟩ := rel_some_right hm
      rw [hsegs]
      exact .some (hes.prefixRows n)

end StorePlan.Reads

namespace StorePlan.Represents

variable {objects : Objects} {k : Nat} {streams : Option Nat} {plan new : StorePlan}
  {a b c : InlineArrays}

/-- A response's own plan. -/
theorem ofResponse {r : Response} (hstored : r.StoredIn objects k)
    (hok : InlineArrays.ofResponse k streams r = .ok a) :
    ∃ plan, StorePlan.fromResponse r.toStoreResponse = .ok plan ∧
      plan.Represents objects k streams a := by
  obtain ⟨hforward, hmask, htokens⟩ := InlineArrays.ofResponse_eq_ok hok
  -- the segments of each forward field
  have hfields : ∀ field, ∃ segs, Fields.buildEntry r.requested r.fieldFromRef (.forward field) =
      .ok segs ∧ Option.Rel (ForwardSegments objects streams field) segs (a.forward field) := by
    intro field
    have hfield := hforward field
    unfold InlineArrays.forwardOf at hfield
    split at hfield
    · rename_i hrequested
      cases hv : ForwardRows.ofResponse field streams r with
      | error e =>
        rw [hv] at hfield
        cases hfield
      | ok v =>
        rw [hv] at hfield
        injection hfield with hfield
        obtain ⟨segs, hsegs, hrep⟩ := forwardSegments_ofResponse hstored hrequested hv
        refine ⟨some segs, ?_, ?_⟩
        · rw [Fields.buildEntry, if_pos hrequested, hsegs]
          rfl
        · rw [← hfield]
          exact .some hrep
    · rename_i hrequested
      injection hfield with hfield
      refine ⟨none, by rw [Fields.buildEntry, if_neg hrequested]; rfl, ?_⟩
      rw [← hfield]
      exact .none
  have hmaskField : ∃ segs rows, Fields.buildEntry r.requested r.fieldFromRef .samplingMask =
      .ok segs ∧ Option.Rel (MaskSegments objects k) segs rows ∧ a.HoldsRows k rows := by
    unfold InlineArrays.maskOf at hmask
    unfold InlineArrays.HoldsRows
    split at hmask
    · rename_i hrequested
      cases hm : InlineMask.ofResponse k r with
      | error e =>
        rw [hm] at hmask
        cases hmask
      | ok m =>
        rw [hm] at hmask
        injection hmask with hmask
        obtain ⟨segs, entries, hsegs, hread, hholds, htoken⟩ :=
          maskSegments_ofResponse hstored hrequested hm
        refine ⟨some segs, some entries, ?_, .some hread, ?_⟩
        · rw [Fields.buildEntry, if_pos hrequested, hsegs]
          rfl
        · rw [← hmask]
          exact .some ⟨hholds, by rw [htoken, htokens]⟩
    · rename_i hrequested
      injection hmask with hmask
      refine ⟨none, none, by rw [Fields.buildEntry, if_neg hrequested]; rfl, .none, ?_⟩
      rw [← hmask]
      exact .none
  obtain ⟨routed, hrouted, hroutedRel⟩ := hfields .routedExperts
  obtain ⟨indexer, hindexer, hindexerRel⟩ := hfields .indexerTopk
  obtain ⟨mask, rows, hmaskSegs, hmaskRel, hrows⟩ := hmaskField
  have hbuild : Fields.build r.requested r.fieldFromRef = .ok ⟨routed, indexer, mask⟩ := by
    apply Fields.build_eq_ok
    intro field
    rcases field with (_ | _) | _
    · exact hrouted
    · exact hindexer
    · exact hmaskSegs
  refine ⟨⟨⟨routed, indexer, mask⟩, r.ref.toList⟩, ?_, rows, ⟨?_, hmaskRel⟩, hrows⟩
  · rw [StorePlan.fromResponse, hbuild]
    rfl
  · intro field
    cases field with
    | routedExperts => exact hroutedRel
    | indexerTopk => exact hindexerRel

/-- A later response. -/
theorem append (h : plan.Represents objects k streams a)
    (hnew : new.Represents objects k streams b) (hok : a.append b = .ok c) :
    ∃ out, plan.appendResponse new = .ok out ∧ out.Represents objects k streams c := by
  obtain ⟨es, hes, hrows⟩ := h
  obtain ⟨fs, hfs, hrows'⟩ := hnew
  obtain ⟨hforward, hmask, htokens⟩ := InlineArrays.append_eq_ok hok
  unfold InlineArrays.HoldsRows at hrows hrows'
  rcases InlineArrays.zipField_eq_ok hmask with ⟨m, n, o, ha, hb, ho, hc⟩ | ⟨ha, hb, hc⟩
  · rw [ha] at hrows
    rw [hb] at hrows'
    obtain ⟨es, rfl, hm, htok⟩ := rel_some_left hrows
    obtain ⟨fs, rfl, hn, htok'⟩ := rel_some_left hrows'
    obtain ⟨out, hout, hreads⟩ := hes.append hfs rfl hforward
    refine ⟨out, hout, _, hreads, ?_⟩
    rw [InlineArrays.HoldsRows, hc]
    exact .some ⟨hm.append hn ho, by rw [List.map_append, htok, htok', htokens]⟩
  · rw [ha] at hrows
    rw [hb] at hrows'
    have hesNone := rel_none_left hrows
    have hfsNone := rel_none_left hrows'
    subst hesNone hfsNone
    obtain ⟨out, hout, hreads⟩ := hes.append hfs rfl hforward
    refine ⟨out, hout, _, hreads, ?_⟩
    rw [InlineArrays.HoldsRows, hc]
    exact .none

/-- Inserted tokens. -/
theorem insert (h : plan.Represents objects k streams a) {tokenIds : List Int}
    (hok : a.insert k tokenIds = .ok c) :
    (plan.insertTokens tokenIds.length).Represents objects k streams c := by
  obtain ⟨es, hes, hrows⟩ := h
  simp only [InlineArrays.insert, Except.bind_eq_ok] at hok
  obtain ⟨mask, hmask, hc⟩ := hok
  cases hc
  refine ⟨_, ⟨fun field => ?_, (hes.insertTokens tokenIds).mask⟩, ?_⟩
  · have hfield := (hes.insertTokens tokenIds).forward field
    cases field with
    | routedExperts => exact hfield
    | indexerTopk => exact hfield
  · unfold InlineArrays.HoldsRows at hrows ⊢
    cases ha : a.samplingMask with
    | none =>
      rw [ha] at hrows hmask
      rw [rel_none_left hrows]
      cases hmask
      exact .none
    | some m =>
      rw [ha] at hrows hmask
      obtain ⟨es, rfl, hm, htok⟩ := rel_some_left hrows
      obtain ⟨n, hn, hmask⟩ := Except.bind_eq_ok.mp hmask
      cases hmask
      refine .some ⟨hm.insert hn, ?_⟩
      rw [List.map_append, htok, List.map_map]
      congr 1
      exact List.map_id _

/-- The session's next turn. -/
theorem merge (h : plan.Represents objects k streams a)
    (hnew : new.Represents objects k streams b) {observation : List Int}
    (hok : a.merge k observation b = .ok c) :
    ∃ out, plan.mergeTurn new observation.length = .ok out ∧
      out.Represents objects k streams c := by
  obtain ⟨es, hes, hrows⟩ := h
  obtain ⟨fs, hfs, hrows'⟩ := hnew
  obtain ⟨hforward, hmask, htokens⟩ := InlineArrays.merge_eq_ok hok
  have hinserted := hes.insertTokens observation
  unfold InlineArrays.HoldsRows at hrows hrows'
  rcases InlineArrays.zipField_eq_ok hmask with ⟨m, n, o, ha, hb, ho, hc⟩ | ⟨ha, hb, hc⟩
  · rw [ha] at hrows
    rw [hb] at hrows'
    obtain ⟨es, rfl, hm, htok⟩ := rel_some_left hrows
    obtain ⟨fs, rfl, hn, htok'⟩ := rel_some_left hrows'
    obtain ⟨out, hout, hreads⟩ := hinserted.append hfs rfl hforward
    refine ⟨out, hout, _, hreads, ?_⟩
    rw [InlineArrays.HoldsRows, hc]
    refine .some ⟨hm.merge hn ho, ?_⟩
    rw [List.map_append, List.map_append, htok, htok', htokens, List.map_map]
    congr 2
    exact List.map_id _
  · rw [ha] at hrows
    rw [hb] at hrows'
    have hesNone := rel_none_left hrows
    have hfsNone := rel_none_left hrows'
    subst hesNone hfsNone
    obtain ⟨out, hout, hreads⟩ := hinserted.append hfs rfl hforward
    refine ⟨out, hout, _, hreads, ?_⟩
    rw [InlineArrays.HoldsRows, hc]
    exact .none

/-- A stripped tail. -/
theorem strip (h : plan.Represents objects k streams a) {n : Nat} (hok : a.strip n = .ok c) :
    (plan.stripTail n).Represents objects k streams c := by
  obtain ⟨es, hes, hrows⟩ := h
  have hstripped := hes.stripTail n
  unfold InlineArrays.strip at hok
  split at hok
  · -- nothing to strip: the prefix of all rows keeps them
    rename_i hzero
    cases hok
    subst hzero
    have hforward : (fun field => (a.forward field).map (·.strip 0)) = a.forward := by
      funext field
      cases a.forward field with
      | none => rfl
      | some v => rw [Option.map_some, ForwardRows.strip_zero]
    have hmask : (es.map fun es => es.take (es.length - 0)) = es := by
      cases es with
      | none => rfl
      | some es => simp
    rw [hforward, hmask] at hstripped
    exact ⟨es, hstripped, hrows⟩
  · split at hok
    · cases hok
    · obtain ⟨mask, hmask, hc⟩ := Except.bind_eq_ok.mp hok
      cases hc
      refine ⟨_, ⟨fun field => ?_, hstripped.mask⟩, ?_⟩
      · have hfield := hstripped.forward field
        cases field with
        | routedExperts => exact hfield
        | indexerTopk => exact hfield
      · unfold InlineArrays.HoldsRows at hrows ⊢
        cases ha : a.samplingMask with
        | none =>
          rw [ha] at hrows hmask
          rw [rel_none_left hrows]
          cases hmask
          exact .none
        | some m =>
          rw [ha] at hrows hmask
          obtain ⟨es, rfl, hm, htok⟩ := rel_some_left hrows
          obtain ⟨o, ho, hmask⟩ := Except.bind_eq_ok.mp hmask
          cases hmask
          have hlen : a.responseTokens.length = es.length := by
            rw [← htok, List.length_map]
          rw [hlen] at ho
          refine .some ⟨hm.strip ho, ?_⟩
          show _ = a.responseTokens.take (a.responseTokens.length - n)
          rw [List.map_take, htok, hlen]

end StorePlan.Represents

namespace SampleEdits

variable {objects : Objects} {k : Nat} {streams : Option Nat}

/-- After any edits the plan represents the arrays. -/
theorem storePlan_represents (edits : SampleEdits)
    (hstored : ∀ r ∈ edits.responses, r.StoredIn objects k) {arrays : InlineArrays}
    (hok : edits.inlineArrays k streams = .ok arrays) :
    ∃ plan, edits.storePlan = .ok plan ∧ plan.Represents objects k streams arrays := by
  induction edits generalizing arrays with
  | response r =>
    obtain ⟨plan, hplan, hrep⟩ :=
      StorePlan.Represents.ofResponse (hstored r (by simp [responses])) hok
    refine ⟨plan, ?_, hrep⟩
    rw [storePlan, StorePlan.appendStoreResponse, hplan]
    rfl
  | append edits r ih =>
    simp only [inlineArrays, Except.bind_eq_ok] at hok
    obtain ⟨old, hold, new, hnew, hok⟩ := hok
    obtain ⟨plan, hplan, hrep⟩ := ih (fun r hr => hstored r (by simp [responses, hr])) hold
    obtain ⟨newPlan, hnewPlan, hnewRep⟩ :=
      StorePlan.Represents.ofResponse (hstored r (by simp [responses])) hnew
    obtain ⟨out, hout, hrepOut⟩ := hrep.append hnewRep hok
    refine ⟨out, ?_, hrepOut⟩
    rw [storePlan, hplan, Except.ok_bind, StorePlan.appendStoreResponse, hnewPlan,
      Except.ok_bind]
    exact hout
  | insert edits tokenIds ih =>
    simp only [inlineArrays, Except.bind_eq_ok] at hok
    obtain ⟨old, hold, hok⟩ := hok
    obtain ⟨plan, hplan, hrep⟩ := ih hstored hold
    exact ⟨_, by rw [storePlan, hplan]; rfl, hrep.insert hok⟩
  | strip edits n ih =>
    simp only [inlineArrays, Except.bind_eq_ok] at hok
    obtain ⟨old, hold, hok⟩ := hok
    obtain ⟨plan, hplan, hrep⟩ := ih hstored hold
    exact ⟨_, by rw [storePlan, hplan]; rfl, hrep.strip hok⟩
  | merge edits observation later ih ihLater =>
    simp only [inlineArrays, Except.bind_eq_ok] at hok
    obtain ⟨old, hold, new, hnew, hok⟩ := hok
    obtain ⟨plan, hplan, hrep⟩ := ih (fun r hr => hstored r (by simp [responses, hr])) hold
    obtain ⟨laterPlan, hlater, hlaterRep⟩ :=
      ihLater (fun r hr => hstored r (by simp [responses, hr])) hnew
    obtain ⟨out, hout, hrepOut⟩ := hrep.merge hlaterRep hok
    refine ⟨out, ?_, hrepOut⟩
    rw [storePlan, hplan, Except.ok_bind, hlater, Except.ok_bind]
    exact hout

/-! ### The forward rows that remain -/

/-- The forward fields of one response. -/
theorem forward_ofResponse {r : Response} {arrays : InlineArrays}
    (hok : InlineArrays.ofResponse k streams r = .ok arrays) (field : ForwardField) :
    (r.requested (.forward field) = true ∧
      ∃ v, arrays.forward field = some v ∧ v.total = (SampleEdits.response r).forwardRows field ∧
        (r.startLen field = 0 → v.start = 0)) ∨
    (r.requested (.forward field) = false ∧ arrays.forward field = none) := by
  obtain ⟨hforward, _, _⟩ := InlineArrays.ofResponse_eq_ok hok
  have hfield := hforward field
  unfold InlineArrays.forwardOf at hfield
  split at hfield
  · rename_i hrequested
    cases hv : ForwardRows.ofResponse field streams r with
    | error e =>
      rw [hv] at hfield
      cases hfield
    | ok v =>
      rw [hv] at hfield
      injection hfield with hfield
      obtain ⟨hstart, hlen⟩ := ForwardRows.ofResponse_eq_ok hv
      refine .inl ⟨hrequested, v, hfield.symm, ?_, fun h0 => by rw [hstart, h0]⟩
      rw [ForwardRows.total, hstart, hlen]
      rfl
  · rename_i hrequested
    injection hfield with hfield
    exact .inr ⟨by simpa using hrequested, hfield.symm⟩

/-- The arrays have the forward fields the first response requested, and the rows the edits
    leave them. -/
theorem inlineArrays_forward (edits : SampleEdits) {arrays : InlineArrays}
    (hok : edits.inlineArrays k streams = .ok arrays) (field : ForwardField) :
    (edits.first.requested (.forward field) = true ∧
      ∃ v, arrays.forward field = some v ∧ v.total = edits.forwardRows field ∧
        (edits.first.startLen field = 0 → v.start = 0)) ∨
    (edits.first.requested (.forward field) = false ∧ arrays.forward field = none) := by
  induction edits generalizing arrays with
  | response r => exact forward_ofResponse hok field
  | append edits r ih =>
    simp only [inlineArrays, Except.bind_eq_ok] at hok
    obtain ⟨old, hold, new, hnew, hok⟩ := hok
    obtain ⟨hforward, _, _⟩ := InlineArrays.append_eq_ok hok
    rcases InlineArrays.zipField_eq_ok (hforward field) with
      ⟨v, w, u, ha, hb, hu, hc⟩ | ⟨ha, hb, hc⟩
    · rcases ih hold with ⟨hrequested, v', hv', _, hzero⟩ | ⟨_, hnone⟩
      · -- the rows are the new response's own
        rcases forward_ofResponse hnew field with ⟨_, w', hw', htotal', _⟩ | ⟨_, hnone⟩
        · rw [ha] at hv'
          rw [hb] at hw'
          cases hv'
          cases hw'
          obtain ⟨htotal, hstart⟩ := ForwardRows.append_eq_ok hu
          refine .inl ⟨hrequested, u, hc, htotal.trans htotal', fun h0 => ?_⟩
          rw [hstart, hzero h0, Nat.zero_min]
        · rw [hb] at hnone
          cases hnone
      · rw [ha] at hnone
        cases hnone
    · rcases ih hold with ⟨_, v', hv', _⟩ | ⟨hrequested, _⟩
      · rw [ha] at hv'
        cases hv'
      · exact .inr ⟨hrequested, hc⟩
  | insert edits tokenIds ih =>
    simp only [inlineArrays, Except.bind_eq_ok] at hok
    obtain ⟨old, hold, hok⟩ := hok
    rw [InlineArrays.forward_insert hok field]
    exact ih hold
  | strip edits n ih =>
    simp only [inlineArrays, Except.bind_eq_ok] at hok
    obtain ⟨old, hold, hok⟩ := hok
    have hstrip := InlineArrays.forward_strip hok field
    rcases ih hold with ⟨hrequested, v, hv, htotal, hzero⟩ | ⟨hrequested, hnone⟩
    · refine .inl ⟨hrequested, v.strip n, by rw [hstrip, hv]; rfl, ?_, fun h0 => ?_⟩
      · rw [ForwardRows.total_strip, htotal]
        rfl
      · show min v.start (v.total - n) = 0
        rw [hzero h0, Nat.zero_min]
    · exact .inr ⟨hrequested, by rw [hstrip, hnone]; rfl⟩
  | merge edits observation later ih ihLater =>
    simp only [inlineArrays, Except.bind_eq_ok] at hok
    obtain ⟨old, hold, new, hnew, hok⟩ := hok
    -- as for a later response
    obtain ⟨hforward, _, _⟩ := InlineArrays.merge_eq_ok hok
    rcases InlineArrays.zipField_eq_ok (hforward field) with
      ⟨v, w, u, ha, hb, hu, hc⟩ | ⟨ha, hb, hc⟩
    · rcases ih hold with ⟨hrequested, v', hv', _, hzero⟩ | ⟨_, hnone⟩
      · rcases ihLater hnew with ⟨_, w', hw', htotal', _⟩ | ⟨_, hnone⟩
        · rw [ha] at hv'
          rw [hb] at hw'
          cases hv'
          cases hw'
          obtain ⟨htotal, hstart⟩ := ForwardRows.append_eq_ok hu
          refine .inl ⟨hrequested, u, hc, htotal.trans htotal', fun h0 => ?_⟩
          rw [hstart, hzero h0, Nat.zero_min]
        · rw [hb] at hnone
          cases hnone
      · rw [ha] at hnone
        cases hnone
    · rcases ih hold with ⟨_, v', hv', _⟩ | ⟨hrequested, _⟩
      · rw [ha] at hv'
        cases hv'
      · exact .inr ⟨hrequested, hc⟩

/-- A represented plan materializes a forward field from position zero exactly when rows of
    it remain, to the array of the field. -/
theorem materialize_forward {field : ForwardField} {v : ForwardRows}
    {segs : Segments} (hrep : ForwardSegments objects streams field segs v) (hzero : v.start = 0) :
    (0 < v.total → ∃ array, v.array = some array ∧
      field.materialize objects streams segs = .ok array) ∧
    (v.total = 0 → field.materialize objects streams segs = .error .nothingToConcatenate) := by
  obtain ⟨rest, rfl, hrest⟩ := hrep
  have hnil : covered v.start = [] := by rw [covered, if_pos hzero]
  rw [hnil, List.nil_append]
  constructor
  · intro hpos
    apply hrest.materialize
    intro hrows
    rw [ForwardRows.total, hzero, hrows] at hpos
    simp at hpos
  · intro htotal
    have hrows : v.rows = [] := by
      apply List.length_eq_zero_iff.mp
      rw [ForwardRows.total] at htotal
      omega
    rw [hrest.eq_nil_iff.mpr hrows]
    rfl

/-- Store-plan equivalence.  For every history of edits that begins with a response starting
    at position 0, and whose edits the inline path performs on arrays, the edits of the plan
    succeed; and materializing the plan over the stored objects yields exactly the inline
    columns if and only if every requested forward field has a row left. -/
theorem materialize_eq_inline_iff (edits : SampleEdits)
    (hstored : ∀ r ∈ edits.responses, r.StoredIn objects k)
    (hzero : ∀ field, edits.first.startLen field = 0) {arrays : InlineArrays}
    (hinline : edits.inlineArrays k streams = .ok arrays) :
    ∃ plan, edits.storePlan = .ok plan ∧
      (plan.materialize objects arrays.responseTokens k streams = .ok arrays.columns ↔
        ∀ field, edits.first.requested (.forward field) → 0 < edits.forwardRows field) := by
  obtain ⟨plan, hplan, rows, hreads, hrows⟩ := edits.storePlan_represents hstored hinline
  refine ⟨plan, hplan, ?_⟩
  -- what each forward field materializes to
  have hfield : ∀ field, (0 < edits.forwardRows field ∨
      edits.first.requested (.forward field) = false →
        ((plan.fields.get (.forward field)).mapM (field.materialize objects streams)) =
          .ok ((arrays.forward field).bind (·.array))) ∧
      (edits.first.requested (.forward field) = true → edits.forwardRows field = 0 →
        ((plan.fields.get (.forward field)).mapM (field.materialize objects streams)) =
          .error .nothingToConcatenate) := by
    intro field
    have hrel := hreads.forward field
    rcases edits.inlineArrays_forward hinline field with
      ⟨hrequested, v, hv, htotal, hstart⟩ | ⟨hrequested, hnone⟩
    · rw [hv] at hrel
      obtain ⟨segs, hsegs, hrep⟩ := rel_some_right hrel
      obtain ⟨hsome, hempty⟩ := materialize_forward hrep (hstart (hzero field))
      rw [hsegs, hv]
      constructor
      · intro hpos
        have hpos : 0 < v.total := by
          rcases hpos with hpos | hfalse
          · omega
          · rw [hrequested] at hfalse
            cases hfalse
        obtain ⟨array, harray, hok⟩ := hsome hpos
        simp only [Option.mapM_some, hok, Option.bind_some, harray]
        rfl
      · intro _ hrowsZero
        simp only [Option.mapM_some, hempty (htotal.trans hrowsZero)]
        rfl
    · rw [hnone] at hrel
      rw [rel_none_right hrel, hnone]
      constructor
      · intro _
        rfl
      · intro htrue
        rw [hrequested] at htrue
        cases htrue
  -- the mask always materializes
  have hmask : plan.fields.samplingMask.mapM (materializeMask objects arrays.responseTokens k) =
      .ok (arrays.samplingMask.map fun m => ⟨m.mask.ids, m.mask.offsets, m.topk⟩) := by
    have hm := hreads.mask
    unfold InlineArrays.HoldsRows at hrows
    cases harrays : arrays.samplingMask with
    | none =>
      rw [harrays] at hrows
      rw [rel_none_left hrows] at hm
      rw [rel_none_right hm]
      rfl
    | some m =>
      rw [harrays] at hrows
      obtain ⟨entries, rfl, hholds, htokens⟩ := rel_some_left hrows
      obtain ⟨segs, hsegs, hread⟩ := rel_some_right hm
      rw [hsegs, ← htokens]
      simp only [Option.mapM_some, materializeMask_eq hread hholds]
      rfl
  constructor
  · intro hok field hrequested
    apply Nat.pos_of_ne_zero
    intro hempty
    have herror := (hfield field).2 hrequested hempty
    cases field with
    | routedExperts =>
      simp only [StorePlan.materialize, herror] at hok
      cases hok
    | indexerTopk =>
      simp only [StorePlan.materialize, Except.bind_eq_ok] at hok
      obtain ⟨_, _, _, hindexer, _⟩ := hok
      rw [herror] at hindexer
      cases hindexer
  · intro hpos
    have hforward : ∀ field, ((plan.fields.get (.forward field)).mapM
        (field.materialize objects streams)) = .ok ((arrays.forward field).bind (·.array)) := by
      intro field
      apply (hfield field).1
      cases hrequested : edits.first.requested (.forward field) with
      | true => exact .inl (hpos field hrequested)
      | false => exact .inr rfl
    simp only [StorePlan.materialize, hforward .routedExperts, hforward .indexerTopk, hmask,
      Except.ok_bind]
    rfl

/-! ### Two histories -/

/-- Two turns of a session in support mode, the second forward continuing the first one's
    rows; the last output token is stripped. -/
def twoTurns : SampleEdits :=
  let requested := fun field => decide (field ≠ .forward .indexerTopk)
  let first : Response :=
    { requested, routedExpertsStartLen := some 0, numTokens := 4, outputTokens := [10, 11],
      aborted := false,
      ref := some ⟨"a", [⟨.routedExperts, 3⟩, ⟨.maskLengths, 2⟩]⟩,
      routedExperts := some ⟨(1, 1), [[[1]], [[2]], [[3]]]⟩, indexerTopk := none,
      supports := some [[10, 3], [11]], supportLogprobs := [[5, 6], [7]] }
  let second : Response :=
    { requested, routedExpertsStartLen := some 3, numTokens := 7, outputTokens := [12, 13],
      aborted := false,
      ref := some ⟨"b", [⟨.routedExperts, 3⟩, ⟨.maskLengths, 2⟩]⟩,
      routedExperts := some ⟨(1, 1), [[[4]], [[0]], [[6]]]⟩, indexerTopk := none,
      supports := some [[12], [9, 13]], supportLogprobs := [[8], [2, 3]] }
  .strip (.merge (.response first) [20] (.response second)) 1

/-- The store of `twoTurns`. -/
def twoTurnsObjects : Objects := fun key =>
  if key = "a" then
    some ⟨some ⟨(1, 1), [[[1]], [[2]], [[3]]]⟩, none, some [2, 1], some [10, 3, 11], some [5, 6, 7]⟩
  else if key = "b" then
    some ⟨some ⟨(1, 1), [[[4]], [[0]], [[6]]]⟩, none, some [1, 2], some [12, 9, 13], some [8, 2, 3]⟩
  else none

theorem twoTurns_stored : ∀ r ∈ twoTurns.responses, r.StoredIn twoTurnsObjects 2 := by
  intro r hr
  simp only [twoTurns, responses, List.singleton_append, List.mem_cons, List.not_mem_nil,
    or_false] at hr
  rcases hr with rfl | rfl
  all_goals
    constructor
    · intro field array hrequested harray
      cases field with
      | routedExperts =>
        cases harray
        exact ⟨_, _, rfl, rfl, rfl, rfl⟩
      | indexerTopk => cases hrequested
    · intro field hrequested hnone
      cases field with
      | routedExperts => cases hnone
      | indexerTopk => cases hrequested
    · intro supports _ hsupports
      cases hsupports
      exact ⟨_, _, _, rfl, rfl, rfl, rfl, rfl, rfl, fun _ => rfl⟩
    · intro _ hnone
      cases hnone

/-- The columns of `twoTurns`: the first forward's rows, the second one's without its last,
    and a mask with a forced row for the observation. -/
def twoTurnsArrays : InlineArrays :=
  match twoTurns.inlineArrays 2 none with
  | .ok arrays => arrays
  | .error _ => ⟨[], none, none, none⟩

theorem materialize_eq_inline_iff_twoTurns :
    twoTurnsArrays.columns.routedExperts = some ⟨(1, 1), [[[1]], [[2]], [[3]], [[4]], [[0]]]⟩ ∧
    twoTurnsArrays.columns.samplingMask = some ⟨[10, 3, 11, 20, 12], [0, 2, 3, 4, 5],
      some ([[10, 3], [11, -1], [-1, -1], [12, -1]],
        [[5, 6], [7, negInf], [negInf, negInf], [8, negInf]])⟩ ∧
    ∃ plan, twoTurns.storePlan = .ok plan ∧
      plan.materialize twoTurnsObjects twoTurnsArrays.responseTokens 2 none =
        .ok twoTurnsArrays.columns := by
  obtain ⟨plan, hplan, hiff⟩ := @materialize_eq_inline_iff twoTurnsObjects 2 none twoTurns
    twoTurns_stored (fun field => by cases field <;> rfl) twoTurnsArrays rfl
  refine ⟨rfl, rfl, plan, hplan, hiff.mpr fun field hrequested => ?_⟩
  cases field with
  | routedExperts => decide
  | indexerTopk => cases hrequested

/-- A prompt of one token whose one output token is stripped. -/
def strippedToPrompt : SampleEdits :=
  .strip (.response
    { requested := fun field => decide (field = .forward .routedExperts)
      routedExpertsStartLen := none, numTokens := 2, outputTokens := [5], aborted := false,
      ref := some ⟨"a", [⟨.routedExperts, 1⟩]⟩, routedExperts := some ⟨(1, 1), [[[3]]]⟩,
      indexerTopk := none, supports := none, supportLogprobs := [] }) 1

/-- The store of `strippedToPrompt`. -/
def strippedToPromptObjects : Objects := fun key =>
  if key = "a" then some ⟨some ⟨(1, 1), [[[3]]]⟩, none, none, none, none⟩ else none

/-- The inline array is empty; the plan has no segment, and materializing it raises. -/
theorem materialize_broken :
    (strippedToPrompt.inlineArrays 0 none).map (·.columns) =
      .ok ⟨some ⟨(1, 1), []⟩, none, none⟩ ∧
    ∃ plan, strippedToPrompt.storePlan = .ok plan ∧
      plan.materialize strippedToPromptObjects [] 0 none = .error .nothingToConcatenate :=
  ⟨rfl, _, rfl, rfl⟩

end SampleEdits

end Miles.Rollout
