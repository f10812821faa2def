import Miles.Native.WeightUpdate.DeltaSync
import Miles.ForStd.Except
import Mathlib.Data.List.Nodup

/-!
# What a version holds

The ranks drop the tensors that a lower rank publishes, number their files without gaps and write
one index. Every published tensor is in one file, and the index says in which.
-/

namespace Miles.DiskDelta

/-! ## Numbers -/

/-- A padded number is still that number. -/
theorem ofDigitChars_zeroPad (width n : Nat) :
    Nat.ofDigitChars 10 (zeroPad width n).toList 0 = n := by
  rw [zeroPad, String.toList_ofList, List.leftpad, Nat.ofDigitChars_append,
    Nat.ofDigitChars_replicate_zero, Nat.mul_zero, Nat.ofDigitChars_ten_toDigits]

theorem zeroPad_inj {width m n : Nat} : zeroPad width m = zeroPad width n ↔ m = n := by
  constructor
  · intro h
    rw [← ofDigitChars_zeroPad width m, h, ofDigitChars_zeroPad]
  · intro h
    rw [h]

theorem versionDir_inj {m n : Nat} : versionDir m = versionDir n ↔ m = n := by
  rw [versionDir, versionDir, String.append_right_inj, zeroPad_inj]

theorem fileName_inj {total m n : Nat} : fileName m total = fileName n total ↔ m = n := by
  unfold fileName
  rw [String.append_left_inj, String.append_left_inj, String.append_left_inj,
    String.append_right_inj, zeroPad_inj]

/-! ## Dropping duplicate names -/

/-- A rank's tensors and their checksums have the same names. -/
def Shard.Paired (own : Shard) : Prop := ∀ name, name ∈ own.delta.keys ↔ name ∈ own.checksums.keys

/-- What is left of a rank's tensors without those that others hold. -/
structure Dropped (held : String → Prop) (own kept : Shard) : Prop where
  delta : ∀ name bytes,
    kept.delta.get? name = some bytes ↔ own.delta.get? name = some bytes ∧ ¬ held name
  checksums : ∀ name digest,
    kept.checksums.get? name = some digest ↔ own.checksums.get? name = some digest ∧ ¬ held name

theorem Dropped.mem_keys {held : String → Prop} {own kept : Shard} (h : Dropped held own kept)
    {name : String} : name ∈ kept.delta.keys ↔ name ∈ own.delta.keys ∧ ¬ held name := by
  simp only [PyDict.mem_keys_iff, h.delta, exists_and_right]

theorem Dropped.paired {held : String → Prop} {own kept : Shard} (h : Dropped held own kept)
    (hpaired : own.Paired) : kept.Paired := by
  intro name
  rw [h.mem_keys, hpaired name, PyDict.mem_keys_iff, PyDict.mem_keys_iff]
  simp only [h.checksums, exists_and_right]

/-- What is not dropped is unchanged. -/
theorem Dropped.get?_eq {held : String → Prop} {own kept : Shard} (h : Dropped held own kept)
    {name : String} (hname : name ∈ kept.delta.keys) :
    kept.delta.get? name = own.delta.get? name ∧
      kept.checksums.get? name = own.checksums.get? name := by
  have hfree : ¬ held name := (h.mem_keys.mp hname).2
  constructor
  · ext bytes
    rw [h.delta]
    exact and_iff_left hfree
  · ext digest
    rw [h.checksums]
    exact and_iff_left hfree

/-- The names of another rank are dropped. -/
theorem dropNames_dropped {own kept : Shard} {other : PyDict String String}
    (hpaired : own.Paired) (h : dropNames own other = .ok kept) :
    Dropped (· ∈ other.keys) own kept := by
  unfold dropNames at h
  simp only at h
  split at h
  · cases h
    constructor
    · intro name bytes
      rw [PyDict.get?_filter]
      apply and_congr_right
      intro hget
      have hmem : name ∈ own.delta.keys := PyDict.mem_keys_iff.mpr ⟨bytes, hget⟩
      simp [hmem]
    · intro name digest
      rw [PyDict.get?_filter]
      apply and_congr_right
      intro hget
      have hmem : name ∈ own.delta.keys :=
        (hpaired name).mpr (PyDict.mem_keys_iff.mpr ⟨digest, hget⟩)
      simp [hmem]
  · cases h

/-- A rank keeps the tensors that no lower rank publishes. -/
theorem dropDuplicateNames_dropped {lower : List (PyDict String String)} {own kept : Shard}
    (hpaired : own.Paired) (h : dropDuplicateNames lower own = .ok kept) :
    Dropped (fun name => ∃ other ∈ lower, name ∈ other.keys) own kept := by
  unfold dropDuplicateNames at h
  induction lower generalizing own with
  | nil =>
    cases h
    constructor
    · simp
    · simp
  | cons other lower ih =>
    rw [List.foldlM_cons] at h
    obtain ⟨next, hnext, hrest⟩ := Except.bind_eq_ok.mp h
    have hone := dropNames_dropped hpaired hnext
    have hlower := ih (hone.paired hpaired) hrest
    constructor
    · intro name bytes
      rw [hlower.delta, hone.delta, and_assoc, ← not_or]
      simp
    · intro name digest
      rw [hlower.checksums, hone.checksums, and_assoc, ← not_or]
      simp

/-! ## Numbering the files -/

/-- The shards that have a file. -/
def written (kept : List Shard) : List Shard := kept.filter fun own => own.delta.keys ≠ []

theorem sum_count (kept : List Shard) : (kept.map Shard.count).sum = (written kept).length := by
  induction kept with
  | nil => rfl
  | cons own kept ih =>
    rw [List.map_cons, List.sum_cons, ih]
    by_cases hempty : own.delta.keys = []
    · simp [written, Shard.count, hempty]
    · simp [written, Shard.count, hempty]
      omega

/-- The files of the ranks behind `front`, which are numbered after those of `front`. -/
theorem filterMap_zipIdx_written (front kept : List Shard) (name : Nat → String) :
    (kept.zipIdx front.length).filterMap (fun x =>
        if x.1.delta.keys = [] then none
        else some (name ((((front ++ kept).map Shard.count).take x.2).sum), x.1)) =
      ((written kept).zipIdx (written front).length).map fun x => (name x.2, x.1) := by
  induction kept generalizing front with
  | nil => rfl
  | cons own kept ih =>
    have hrest := ih (front ++ [own])
    rw [List.append_assoc, List.length_append, List.singleton_append] at hrest
    have hfront : (((front ++ own :: kept).map Shard.count).take front.length).sum =
        (written front).length := by
      rw [← sum_count, List.map_append, List.take_left' (by simp)]
    rw [List.zipIdx_cons]
    by_cases hempty : own.delta.keys = []
    · have hwritten : written (own :: kept) = written kept := by simp [written, hempty]
      have hfronts : written (front ++ [own]) = written front := by simp [written, hempty]
      rw [List.filterMap_cons_none, hwritten, ← hfronts]
      · exact hrest
      · exact if_pos hempty
    · have hwritten : written (own :: kept) = own :: written kept := by simp [written, hempty]
      have hfronts : written (front ++ [own]) = written front ++ [own] := by
        simp [written, hempty]
      rw [List.filterMap_cons_some, hwritten, List.zipIdx_cons, List.map_cons, ← hfront]
      · rw [hfronts, List.length_append, ← hfront] at hrest
        exact congrArg _ hrest
      · exact if_neg hempty

/-- The files are numbered from zero, in the order of the ranks. -/
theorem numberFiles_eq (kept : List Shard) :
    numberFiles kept = (written kept).zipIdx.map fun x =>
      (fileName x.2 (written kept).length, x.1) := by
  have h := filterMap_zipIdx_written [] kept fun n => fileName n (written kept).length
  unfold numberFiles
  simp only [sum_count]
  exact h

theorem numberFiles_fst (kept : List Shard) :
    (numberFiles kept).map Prod.fst =
      (List.range (written kept).length).map (fileName · (written kept).length) := by
  rw [numberFiles_eq, List.map_map, List.range_eq_range', ← List.zipIdx_map_snd 0 (written kept),
    List.map_map]
  rfl

theorem numberFiles_snd (kept : List Shard) : (numberFiles kept).map Prod.snd = written kept := by
  rw [numberFiles_eq, List.map_map]
  exact List.zipIdx_map_fst 0 (written kept)

/-- No two files have one name. -/
theorem nodup_numberFiles (kept : List Shard) : ((numberFiles kept).map Prod.fst).Nodup := by
  rw [numberFiles_fst]
  apply List.Nodup.map _ List.nodup_range
  intro m n h
  exact fileName_inj.mp h

/-! ## The index and the files -/

/-- What a version holds of the ranks' shards. -/
structure Publishes (shards : List Shard) (version : Version) : Prop where
  names : ∃ total, version.files.keys = (List.range total).map (fileName · total)
  /-- The index names the file of a tensor. -/
  index : ∀ name fname, version.index.weightMap.get? name = some fname ↔
    ∃ file, version.files.get? fname = some file ∧ name ∈ file.delta.keys
  indexed : ∀ name, name ∈ version.index.weightMap.keys ↔ ∃ own ∈ shards, name ∈ own.delta.keys
  /-- A file holds the tensors as a rank has made them. -/
  held : ∀ fname file name, version.files.get? fname = some file → name ∈ file.delta.keys →
    ∃ own ∈ shards, name ∈ own.delta.keys ∧ file.delta.get? name = own.delta.get? name ∧
      file.checksums.get? name = own.checksums.get? name

section
variable {shards kept : List Shard}

/-- What the ranks keep of their shards. -/
structure Keeps (shards kept : List Shard) : Prop where
  length : kept.length = shards.length
  dropped : ∀ i (hi : i < kept.length) (h : i < shards.length),
    Dropped (fun name => ∃ j, ∃ hj : j < i, name ∈ shards[j].delta.keys) shards[i] kept[i]

/-- Every rank drops what the ranks before it have. -/
theorem keeps_of_mapM (hpaired : ∀ own ∈ shards, own.Paired)
    (h : (shards.zipIdx.mapM fun x =>
      dropDuplicateNames ((shards.map Shard.checksums).take x.2) x.1) = .ok kept) :
    Keeps shards kept := by
  have hrel := List.forall₂_iff_get.mp (Except.mapM_eq_ok.mp h)
  have hlength : kept.length = shards.length := by
    rw [← hrel.1, List.length_zipIdx]
  refine ⟨hlength, fun i hi hshards => ?_⟩
  have hrank := hrel.2 i (by rw [List.length_zipIdx]; exact hshards) hi
  simp only [List.get_eq_getElem, List.getElem_zipIdx, Nat.zero_add] at hrank
  have hdropped := dropDuplicateNames_dropped (hpaired _ (List.getElem_mem hshards)) hrank
  -- the checksums that a rank receives are those of the tensors of the lower ranks
  have hheld (name : String) :
      (∃ other ∈ (shards.map Shard.checksums).take i, name ∈ other.keys) ↔
        ∃ j, ∃ hj : j < i, name ∈ shards[j].delta.keys := by
    constructor
    · intro hother
      obtain ⟨other, hmem, hname⟩ := hother
      obtain ⟨j, hj, rfl⟩ := List.getElem_of_mem hmem
      rw [List.length_take, List.length_map] at hj
      rw [List.getElem_take, List.getElem_map] at hname
      exact ⟨j, by omega, (hpaired _ (List.getElem_mem _) name).mpr hname⟩
    · intro hlower
      obtain ⟨j, hj, hname⟩ := hlower
      refine ⟨shards[j].checksums, ?_, (hpaired _ (List.getElem_mem _) name).mp hname⟩
      apply List.mem_take_iff_getElem.mpr
      exact ⟨j, by rw [List.length_map]; omega, List.getElem_map ..⟩
  constructor
  · intro name bytes
    rw [hdropped.delta, hheld]
  · intro name digest
    rw [hdropped.checksums, hheld]

/-- No tensor is kept by two ranks. -/
theorem Keeps.pairwise (h : Keeps shards kept) :
    kept.Pairwise fun a b => ∀ name ∈ a.delta.keys, name ∉ b.delta.keys := by
  rw [List.pairwise_iff_getElem]
  intro i j hi hj hij name hfirst hsecond
  have hlength := h.length
  have hown := ((h.dropped i hi (by omega)).mem_keys.mp hfirst).1
  exact ((h.dropped j hj (by omega)).mem_keys.mp hsecond).2 ⟨i, hij, hown⟩

/-- What a rank keeps is as it has made it. -/
theorem Keeps.held (h : Keeps shards kept) {file : Shard} (hfile : file ∈ kept) {name : String}
    (hname : name ∈ file.delta.keys) :
    ∃ own ∈ shards, name ∈ own.delta.keys ∧ file.delta.get? name = own.delta.get? name ∧
      file.checksums.get? name = own.checksums.get? name := by
  obtain ⟨i, hi, rfl⟩ := List.getElem_of_mem hfile
  have hshards : i < shards.length := h.length ▸ hi
  have hdropped := h.dropped i hi hshards
  exact ⟨shards[i], List.getElem_mem _, (hdropped.mem_keys.mp hname).1, hdropped.get?_eq hname⟩

/-- The lowest rank that has a tensor keeps it. -/
theorem Keeps.exists_of_mem (h : Keeps shards kept) {own : Shard} (hown : own ∈ shards)
    {name : String} (hname : name ∈ own.delta.keys) : ∃ file ∈ kept, name ∈ file.delta.keys := by
  obtain ⟨i, hi, rfl⟩ := List.getElem_of_mem hown
  induction i using Nat.strong_induction_on with
  | _ i ih =>
    by_cases hlower : ∃ j, ∃ hj : j < i, name ∈ shards[j].delta.keys
    · obtain ⟨j, hj, hheld⟩ := hlower
      exact ih j hj (by omega) (List.getElem_mem _) hheld
    · have hkept : i < kept.length := h.length.symm ▸ hi
      exact ⟨kept[i], List.getElem_mem _, (h.dropped i hkept hi).mem_keys.mpr ⟨hname, hlower⟩⟩

theorem mem_written {file : Shard} {name : String} (hname : name ∈ file.delta.keys) :
    file ∈ written kept ↔ file ∈ kept := by
  have hne : file.delta.keys ≠ [] := List.ne_nil_of_mem hname
  simp [written, hne]

/-- The pairs of the index have distinct names. -/
theorem Keeps.nodup_names (h : Keeps shards kept) :
    (((numberFiles kept).flatMap fun file => file.2.delta.keys.map fun name =>
      (name, file.1)).map Prod.fst).Nodup := by
  have hfst : ((numberFiles kept).flatMap fun file => file.2.delta.keys.map fun name =>
      (name, file.1)).map Prod.fst = (written kept).flatMap fun file => file.delta.keys := by
    rw [← numberFiles_snd, List.map_flatMap, List.flatMap_map]
    simp [Function.comp_def]
  rw [hfst, List.nodup_flatMap]
  constructor
  · exact fun file _ => PyDict.keys_nodup _
  · apply (h.pairwise.sublist List.filter_sublist).imp
    intro a b hdisjoint
    exact hdisjoint

end

/-- What the index of a version says. -/
theorem writeDeltaFiles_index {codec : Codec} {fileVersion : Nat} {shards : List Shard}
    {version : Version} (h : writeDeltaFiles codec fileVersion shards = .ok version) :
    version.index.version = zeroPad 6 fileVersion ∧
      version.index.baseVersion = zeroPad 6 (fileVersion - 1) ∧
      version.index.deltaEncoding = codec.deltaEncoding := by
  obtain ⟨kept, -, hversion⟩ := Except.bind_eq_ok.mp h
  cases hversion
  exact ⟨rfl, rfl, rfl⟩

/-- What the index and the files of a version hold. -/
theorem writeDeltaFiles_publishes {codec : Codec} {fileVersion : Nat} {shards : List Shard}
    {version : Version} (hpaired : ∀ own ∈ shards, own.Paired)
    (h : writeDeltaFiles codec fileVersion shards = .ok version) : Publishes shards version := by
  obtain ⟨kept, hmapM, hversion⟩ := Except.bind_eq_ok.mp h
  have hkeeps := keeps_of_mapM hpaired hmapM
  cases hversion
  have hfiles (fname : String) (file : Shard) :
      (PyDict.ofList (numberFiles kept)).get? fname = some file ↔
        (fname, file) ∈ numberFiles kept := by
    rw [PyDict.get?_eq_some, PyDict.items_ofList (nodup_numberFiles kept)]
  have hmem (file : Shard) (hfile : file ∈ written kept) :
      ∃ fname, (fname, file) ∈ numberFiles kept := by
    rw [← numberFiles_snd, List.mem_map] at hfile
    obtain ⟨x, hx, rfl⟩ := hfile
    exact ⟨x.1, hx⟩
  constructor
  · refine ⟨(written kept).length, ?_⟩
    rw [← numberFiles_fst]
    exact congrArg (List.map Prod.fst) (PyDict.items_ofList (nodup_numberFiles kept))
  · intro name fname
    rw [PyDict.get?_eq_some, PyDict.items_ofList hkeeps.nodup_names]
    simp only [hfiles, List.mem_flatMap, List.mem_map, Prod.mk.injEq]
    constructor
    · intro hindex
      obtain ⟨x, hx, y, hy, rfl, rfl⟩ := hindex
      exact ⟨x.2, hx, hy⟩
    · intro hindex
      obtain ⟨file, hfile, hname⟩ := hindex
      exact ⟨(fname, file), hfile, name, hname, rfl, rfl⟩
  · intro name
    rw [PyDict.mem_keys_ofList]
    simp only [List.map_flatMap, List.map_map, List.mem_flatMap]
    constructor
    · intro hname
      obtain ⟨x, hx, hin⟩ := hname
      have hin' : name ∈ x.2.delta.keys := by simpa using hin
      have hkept : x.2 ∈ kept := by
        have hwritten := List.mem_map_of_mem (f := Prod.snd) hx
        rw [numberFiles_snd] at hwritten
        exact (mem_written hin').mp hwritten
      obtain ⟨own, hown, howns, -⟩ := hkeeps.held hkept hin'
      exact ⟨own, hown, howns⟩
    · intro hname
      obtain ⟨own, hown, howns⟩ := hname
      obtain ⟨file, hfile, hin⟩ := hkeeps.exists_of_mem hown howns
      obtain ⟨fname, hnumbered⟩ := hmem file ((mem_written hin).mpr hfile)
      exact ⟨(fname, file), hnumbered, by simpa using hin⟩
  · intro fname file name hfile hname
    have hwritten := List.mem_map_of_mem (f := Prod.snd) ((hfiles fname file).mp hfile)
    rw [numberFiles_snd] at hwritten
    exact hkeeps.held ((mem_written hname).mp hwritten) hname

end Miles.DiskDelta
