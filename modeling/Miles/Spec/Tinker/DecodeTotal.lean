import Miles.Native.Tinker.Encoding

/-!
# Decoding is total up to what escapes

`decode_command` should turn whatever is wrong with a command into a `validation_error`, so that
the command keeps its place in the sequence of its model.  It handles five kinds of exception.
`WellFormed` says which content is a command, by the shape of the JSON alone, and `Escaping` which
content runs into an exception of another kind first: a chunk or loss inputs that are no object,
a number or a length too large, or recipients with nothing to parse them.

Each function is shown to return exactly on content of one shape, with the values that shape
names, and to let an exception through exactly on content of another.
-/

namespace Miles.Tinker.Encoding

open PyJson

variable {py : PyRuntime} {lib : Libraries}

@[simp] theorem isContentError_raised (e : UserInputError) :
    isContentError (.raised e) = true := rfl

@[simp] theorem isContentError_key (key : String) :
    isContentError (.builtin (.key key)) = true := rfl

@[simp] theorem isContentError_type : isContentError (.builtin .type) = true := rfl

@[simp] theorem isContentError_value : isContentError (.builtin .value) = true := rfl

@[simp] theorem isContentError_index : isContentError (.builtin .index) = true := rfl

@[simp] theorem isContentError_attribute : isContentError (.builtin .attribute) = false := rfl

@[simp] theorem isContentError_overflow : isContentError (.builtin .overflow) = false := rfl

@[simp] theorem isContentError_memory : isContentError (.builtin .memory) = false := rfl

@[simp] theorem isContentError_importing : isContentError (.builtin .importing) = false := rfl

@[simp] theorem not_returns_reject {α : Type} (text : String) :
    ¬ (reject text : Checked α).Returns := Except.not_returns_error _

@[simp] theorem not_escapes_reject {α : Type} (text : String) :
    ¬ (reject text : Checked α).Escapes isContentError := by simp [reject]

/-- Reading a key raises nothing that escapes. -/
@[simp] theorem not_escapes_key (v : PyJson) (key : String) :
    ¬ (v.getItem key : Checked PyJson).Escapes isContentError :=
  not_escapes_getItem isContentError_key rfl

@[simp] theorem not_escapes_list (v : PyJson) :
    ¬ (v.iter : Checked (List PyJson)).Escapes isContentError := not_escapes_iter rfl

/-! ## Model input -/

/-- A chunk of tokens. -/
def ReadableChunk (chunk : PyJson) : Prop :=
  chunk.field? "type" = some (.str "encoded_text") ∧ (chunk.listAt? "tokens").isSome = true

/-- The tokens of a chunk. -/
def tokensOfChunk (chunk : PyJson) : List PyJson := (chunk.listAt? "tokens").getD []

/-- The tokens under a key, as the model reads them. -/
theorem list_of_key {v : PyJson} {key : String} {xs : List PyJson} :
    (v.getItem key >>= PyJson.iter : Checked (List PyJson)) = .ok xs ↔
      v.listAt? key = some xs := by
  rw [Except.bind_eq_ok, listAt?, Option.bind_eq_some_iff]
  simp only [getItem_eq_ok, iter_eq_ok]

theorem not_escapes_list_of_key (v : PyJson) (key : String) :
    ¬ (v.getItem key >>= PyJson.iter : Checked (List PyJson)).Escapes isContentError :=
  Except.not_escapes_bind (not_escapes_key v key) not_escapes_list

/-- A chunk is read exactly when it is readable. -/
theorem chunkTokens_eq_ok {chunk : PyJson} {tokens : List PyJson} :
    chunkTokens py chunk = .ok tokens ↔
      ReadableChunk chunk ∧ tokens = tokensOfChunk chunk := by
  unfold chunkTokens ReadableChunk tokensOfChunk
  rw [Except.bind_eq_ok]
  constructor
  · rintro ⟨type, htype, h⟩
    rw [get_eq_ok] at htype
    split at h
    · have hlist := list_of_key.mp h
      exact ⟨⟨htype.2, by simp [hlist]⟩, by simp [hlist]⟩
    · cases h
  · rintro ⟨⟨htype, hsome⟩, rfl⟩
    obtain ⟨tokens, htokens⟩ := Option.isSome_iff_exists.mp hsome
    refine ⟨some (.str "encoded_text"), get_eq_ok.mpr ⟨?_, htype⟩, ?_⟩
    · cases chunk <;> simp_all [field?, isObj]
    · rw [htokens]
      exact list_of_key.mpr htokens

/-- Only a chunk that is no object lets an exception escape. -/
theorem escapes_chunkTokens {chunk : PyJson} :
    (chunkTokens py chunk).Escapes isContentError ↔ chunk.isObj = false := by
  unfold chunkTokens
  rw [Except.escapes_bind, escapes_get rfl]
  refine or_iff_left ?_
  rintro ⟨type, -, h⟩
  split at h
  · exact not_escapes_list_of_key _ _ h
  · exact not_escapes_reject _ h

/-- Model input: chunks of tokens. -/
def ReadableInput (modelInput : PyJson) : Prop :=
  ∃ chunks, modelInput.listAt? "chunks" = some chunks ∧ ∀ chunk ∈ chunks, ReadableChunk chunk

/-- A chunk that is no object, after chunks that can be read. -/
def EscapingInput (modelInput : PyJson) : Prop :=
  ∃ chunks, modelInput.listAt? "chunks" = some chunks ∧
    chunks.FirstAt ReadableChunk (·.isObj = false)

/-- The tokens of all chunks. -/
def tokensOfInput (modelInput : PyJson) : List PyJson :=
  ((modelInput.listAt? "chunks").getD []).flatMap tokensOfChunk

theorem returns_chunkTokens {chunk : PyJson} :
    (chunkTokens py chunk).Returns ↔ ReadableChunk chunk := by
  constructor
  · rintro ⟨tokens, h⟩
    exact (chunkTokens_eq_ok.mp h).1
  · exact fun h => ⟨_, chunkTokens_eq_ok.mpr ⟨h, rfl⟩⟩

/-- A model input is read exactly when it is readable. -/
theorem modelInputTokens_eq_ok {modelInput : PyJson} {tokens : List PyJson} :
    modelInputTokens py modelInput = .ok tokens ↔
      ReadableInput modelInput ∧ tokens = tokensOfInput modelInput := by
  unfold modelInputTokens ReadableInput tokensOfInput
  rw [← bind_assoc, Except.bind_eq_ok]
  constructor
  · rintro ⟨chunks, hchunks, h⟩
    obtain ⟨ts, hts, h⟩ := Except.bind_eq_ok.mp h
    rw [list_of_key] at hchunks
    cases h
    have hall := Except.returns_mapM.mp ⟨ts, hts⟩
    refine ⟨⟨chunks, hchunks, fun c hc => returns_chunkTokens.mp (hall c hc)⟩, ?_⟩
    rw [Except.mapM_eq_map (fun c _ t ht => (chunkTokens_eq_ok.mp ht).2) hts, hchunks,
      Option.getD_some, List.flatMap]
  · rintro ⟨⟨chunks, hchunks, hall⟩, rfl⟩
    obtain ⟨ts, hts⟩ : (chunks.mapM (chunkTokens py)).Returns :=
      Except.returns_mapM.mpr fun c hc => returns_chunkTokens.mpr (hall c hc)
    refine ⟨chunks, list_of_key.mpr hchunks, Except.bind_eq_ok.mpr ⟨ts, hts, ?_⟩⟩
    rw [Except.mapM_eq_map (fun c _ t ht => (chunkTokens_eq_ok.mp ht).2) hts, hchunks,
      Option.getD_some, List.flatMap]
    rfl

/-- The exception that escapes is that of the first chunk that is not read. -/
theorem escapes_modelInputTokens {modelInput : PyJson} :
    (modelInputTokens py modelInput).Escapes isContentError ↔ EscapingInput modelInput := by
  unfold modelInputTokens EscapingInput
  rw [← bind_assoc, Except.escapes_bind, or_iff_right (not_escapes_list_of_key _ _)]
  simp only [list_of_key, Except.escapes_bind, Except.escapes_mapM, Except.not_escapes_pure,
    and_false, exists_false, or_false, returns_chunkTokens, escapes_chunkTokens]

/-! ## Tensors -/

/-- The shape is absent, empty, or of one entry. -/
def OneDim (tensorData : PyJson) : Prop :=
  ∀ shape, tensorData.field? "shape" = some shape → shape.truthy = true →
    ∃ entries, shape.elems? = some entries ∧ entries.length ≤ 1

/-- The tensor is given by its nonzero entries. -/
def IsCsr (tensorData : PyJson) : Prop :=
  ∃ indices, tensorData.field? "sparse_crow_indices" = some indices ∧ indices.isNull = false

/-- A one-row tensor of this length. -/
def CsrLength (tensorData : PyJson) (length : PyJson) : Prop :=
  tensorData.listAt? "shape" = some [length] ∧
    ∃ rows, tensorData.listAt? "sparse_crow_indices" = some rows ∧ rows.length = 2

/-- The column is inside a row of this length. -/
def ColumnWithin (length : Nat) (col : PyJson) : Prop :=
  ∃ n, col.index? = some n ∧ -(length : Int) ≤ n ∧ n < length

/-- The row with the given entries. -/
def scatter : List PyJson → List (PyJson × PyJson) → List PyJson
  | dense, [] => dense
  | dense, x :: rest =>
    scatter (match x.1.index?.bind (position? dense.length) with
      | some i => dense.set i x.2
      | none => dense) rest

/-- A CSR tensor whose length is a count that memory has room for, with as many columns as
    values. -/
def ReadableCsr (py : PyRuntime) (tensorData : PyJson) : Prop :=
  ∃ length n cols data, CsrLength tensorData length ∧ length.index? = some n ∧ FitsWord n ∧
    n ≤ py.listCapacity ∧ tensorData.listAt? "sparse_col_indices" = some cols ∧
    tensorData.listAt? "data" = some data ∧ cols.length = data.length ∧
    ∀ col ∈ cols, ColumnWithin n.toNat col

/-- A CSR tensor whose length is an integer that is too large. -/
def EscapingCsr (py : PyRuntime) (tensorData : PyJson) : Prop :=
  ∃ length n, CsrLength tensorData length ∧ length.index? = some n ∧
    (¬ FitsWord n ∨ py.listCapacity < n)

/-- The values of a CSR tensor. -/
def valuesOfCsr (tensorData : PyJson) : List PyJson :=
  let length := (((tensorData.listAt? "shape").getD []).head?.bind (·.index?)).getD 0
  let cols := (tensorData.listAt? "sparse_col_indices").getD []
  let data := (tensorData.listAt? "data").getD []
  scatter (List.replicate length.toNat (.int 0)) (cols.zip data)

/-- The entries are scattered exactly when every column is within the row. -/
theorem fillColumns_eq_ok {dense values : List PyJson} {entries : List (PyJson × PyJson)} :
    fillColumns dense entries = .ok values ↔
      (∀ x ∈ entries, ColumnWithin dense.length x.1) ∧ values = scatter dense entries := by
  induction entries generalizing dense with
  | nil =>
    show Except.ok dense = .ok values ↔ _
    simp [scatter, eq_comm]
  | cons x rest ih =>
    obtain ⟨col, value⟩ := x
    show (PyJson.setItem dense col value >>= fun d => fillColumns d rest) = _ ↔ _
    rw [Except.bind_eq_ok, List.forall_mem_cons, scatter]
    constructor
    · rintro ⟨d, hd, h⟩
      obtain ⟨n, i, hn, hi, rfl⟩ := setItem_eq_ok.mp hd
      obtain ⟨hall, rfl⟩ := ih.mp h
      rw [List.length_set] at hall
      have hwithin := position?_isSome.mp (hi ▸ rfl : (position? dense.length n).isSome = true)
      exact ⟨⟨⟨n, hn, hwithin⟩, hall⟩, by simp [hn, hi]⟩
    · rintro ⟨⟨⟨n, hn, hwithin⟩, hall⟩, rfl⟩
      obtain ⟨i, hi⟩ := Option.isSome_iff_exists.mp (position?_isSome.mpr hwithin)
      refine ⟨dense.set i value, setItem_eq_ok.mpr ⟨n, i, hn, hi, rfl⟩, ih.mpr ⟨?_, ?_⟩⟩
      · rwa [List.length_set]
      · simp [hn, hi]

theorem not_escapes_fillColumns (dense : List PyJson) (entries : List (PyJson × PyJson)) :
    ¬ (fillColumns dense entries).Escapes isContentError := by
  induction entries generalizing dense with
  | nil =>
    show ¬ (Except.ok dense : Checked (List PyJson)).Escapes isContentError
    exact Except.not_escapes_ok dense
  | cons x rest ih =>
    exact Except.not_escapes_bind (not_escapes_setItem rfl rfl) ih

/-- The rest of `_dense_from_csr` after the shape and the row pointers. -/
def fillCsr (py : PyRuntime) (tensorData length : PyJson) : Checked (List PyJson) := do
  let dense ← PyJson.repeated py (.int 0) length
  let cols ← tensorData.getItem "sparse_col_indices"
  let data ← tensorData.getItem "data"
  let cols ← cols.iter
  let data ← data.iter
  let dense ← fillColumns dense (cols.zip data)
  if cols.length = data.length then return dense else .error (.builtin .value)

theorem denseFromCsr_eq (tensorData : PyJson) : denseFromCsr py tensorData =
    ((tensorData.getItem "shape" >>= PyJson.unpackOne) >>= fun length =>
      (tensorData.getItem "sparse_crow_indices" >>= PyJson.len) >>= fun rows =>
        if rows ≠ 2 then reject "1-D CSR expected" else fillCsr py tensorData length) := by
  simp only [bind_assoc]
  rfl

theorem forall_zip_fst {cols data : List PyJson} (h : cols.length = data.length)
    {P : PyJson → Prop} : (∀ x ∈ cols.zip data, P x.1) ↔ ∀ col ∈ cols, P col := by
  have hfst : (cols.zip data).map Prod.fst = cols := List.map_fst_zip (by omega)
  rw [← List.forall_mem_map (f := Prod.fst) (P := P), hfst]

/-- When a CSR tensor of a given length is filled. -/
theorem fillCsr_eq_ok {tensorData length : PyJson} {values : List PyJson} :
    fillCsr py tensorData length = .ok values ↔ ∃ n cols data, length.index? = some n ∧
      FitsWord n ∧ n ≤ py.listCapacity ∧ tensorData.listAt? "sparse_col_indices" = some cols ∧
      tensorData.listAt? "data" = some data ∧ cols.length = data.length ∧
      (∀ col ∈ cols, ColumnWithin n.toNat col) ∧
      values = scatter (List.replicate n.toNat (.int 0)) (cols.zip data) := by
  unfold fillCsr
  constructor
  · intro h
    obtain ⟨dense, hdense, h⟩ := Except.bind_eq_ok.mp h
    obtain ⟨c, hc, h⟩ := Except.bind_eq_ok.mp h
    obtain ⟨d, hd, h⟩ := Except.bind_eq_ok.mp h
    obtain ⟨cols, hcols, h⟩ := Except.bind_eq_ok.mp h
    obtain ⟨data, hdata, h⟩ := Except.bind_eq_ok.mp h
    obtain ⟨filled, hfilled, h⟩ := Except.bind_eq_ok.mp h
    obtain ⟨n, hn, hword, hroom, rfl⟩ := repeated_eq_ok.mp hdense
    obtain ⟨hwithin, rfl⟩ := fillColumns_eq_ok.mp hfilled
    split at h
    · rename_i hlen
      cases h
      rw [forall_zip_fst hlen, List.length_replicate] at hwithin
      exact ⟨n, cols, data, hn, hword, hroom,
        list_of_key.mp (Except.bind_eq_ok.mpr ⟨c, hc, hcols⟩),
        list_of_key.mp (Except.bind_eq_ok.mpr ⟨d, hd, hdata⟩), hlen, hwithin, rfl⟩
    · cases h
  · rintro ⟨n, cols, data, hn, hword, hroom, hcols, hdata, hlen, hwithin, rfl⟩
    obtain ⟨c, hc, hcols⟩ := Except.bind_eq_ok.mp (list_of_key.mpr hcols)
    obtain ⟨d, hd, hdata⟩ := Except.bind_eq_ok.mp (list_of_key.mpr hdata)
    have hfilled := fillColumns_eq_ok.mpr
      ⟨(forall_zip_fst hlen).mpr (List.length_replicate (n := n.toNat) (a := PyJson.int 0) ▸ hwithin),
        rfl⟩
    rw [repeated_eq_ok.mpr ⟨n, hn, hword, hroom, rfl⟩, Except.ok_bind, hc, Except.ok_bind, hd,
      Except.ok_bind, hcols, Except.ok_bind, hdata, Except.ok_bind, hfilled, Except.ok_bind,
      if_pos hlen]
    rfl

/-- Only a length that no list can have escapes. -/
theorem escapes_fillCsr {tensorData length : PyJson} :
    (fillCsr py tensorData length).Escapes isContentError ↔
      ∃ n, length.index? = some n ∧ (¬ FitsWord n ∨ py.listCapacity < n) := by
  unfold fillCsr
  rw [Except.escapes_bind, escapes_repeated rfl rfl rfl]
  refine or_iff_left ?_
  rintro ⟨dense, -, h⟩
  -- after the length, everything that can be raised is handled
  rcases Except.escapes_bind.mp h with h | ⟨c, -, h⟩
  · exact not_escapes_key _ _ h
  rcases Except.escapes_bind.mp h with h | ⟨d, -, h⟩
  · exact not_escapes_key _ _ h
  rcases Except.escapes_bind.mp h with h | ⟨cols, -, h⟩
  · exact not_escapes_list _ h
  rcases Except.escapes_bind.mp h with h | ⟨data, -, h⟩
  · exact not_escapes_list _ h
  rcases Except.escapes_bind.mp h with h | ⟨filled, -, h⟩
  · exact not_escapes_fillColumns _ _ h
  split at h
  · exact Except.not_escapes_pure _ h
  · simp at h

theorem csrLength_iff {tensorData length : PyJson} : CsrLength tensorData length ↔
    (tensorData.getItem "shape" >>= PyJson.unpackOne : Checked PyJson) = .ok length ∧
      (tensorData.getItem "sparse_crow_indices" >>= PyJson.len : Checked Nat) = .ok 2 := by
  unfold CsrLength listAt?
  simp only [Except.bind_eq_ok, Option.bind_eq_some_iff, getItem_eq_ok, unpackOne_eq_ok,
    len_eq_ok]
  refine and_congr_right' ?_
  constructor
  · rintro ⟨rows, ⟨v, hv, hrows⟩, hlen⟩
    exact ⟨v, hv, rows, hrows, hlen⟩
  · rintro ⟨v, hv, rows, hrows, hlen⟩
    exact ⟨rows, ⟨v, hv, hrows⟩, hlen⟩

variable {payload tensorData : PyJson}

/-- A CSR tensor is read exactly when it is readable. -/
theorem denseFromCsr_eq_ok {values : List PyJson} :
    denseFromCsr py tensorData = .ok values ↔
      ReadableCsr py tensorData ∧ values = valuesOfCsr tensorData := by
  rw [denseFromCsr_eq]
  constructor
  · intro h
    obtain ⟨length, hlength, h⟩ := Except.bind_eq_ok.mp h
    obtain ⟨rows, hrows, h⟩ := Except.bind_eq_ok.mp h
    split at h
    · cases h
    · rename_i htwo
      have hcsr : CsrLength tensorData length := csrLength_iff.mpr ⟨hlength, not_not.mp htwo ▸ hrows⟩
      obtain ⟨n, cols, data, hn, hword, hroom, hcols, hdata, hlen, hwithin, rfl⟩ :=
        fillCsr_eq_ok.mp h
      refine ⟨⟨length, n, cols, data, hcsr, hn, hword, hroom, hcols, hdata, hlen, hwithin⟩, ?_⟩
      simp [valuesOfCsr, hcsr.1, hn, hcols, hdata]
  · rintro ⟨⟨length, n, cols, data, hcsr, hn, hword, hroom, hcols, hdata, hlen, hwithin⟩, rfl⟩
    obtain ⟨hlength, hrows⟩ := csrLength_iff.mp hcsr
    rw [hlength, Except.ok_bind, hrows, Except.ok_bind, if_neg (by decide)]
    refine fillCsr_eq_ok.mpr ⟨n, cols, data, hn, hword, hroom, hcols, hdata, hlen, hwithin, ?_⟩
    simp [valuesOfCsr, hcsr.1, hn, hcols, hdata]

/-- When reading a CSR tensor lets an exception escape. -/
theorem escapes_denseFromCsr :
    (denseFromCsr py tensorData).Escapes isContentError ↔ EscapingCsr py tensorData := by
  rw [denseFromCsr_eq]
  constructor
  · intro h
    rcases Except.escapes_bind.mp h with h | ⟨length, hlength, h⟩
    · exact absurd h (Except.not_escapes_bind (not_escapes_key _ _)
        fun _ => not_escapes_unpackOne rfl rfl)
    rcases Except.escapes_bind.mp h with h | ⟨rows, hrows, h⟩
    · exact absurd h (Except.not_escapes_bind (not_escapes_key _ _) fun _ => not_escapes_len rfl)
    split at h
    · exact absurd h (not_escapes_reject _)
    · rename_i htwo
      obtain ⟨n, hn, hlarge⟩ := escapes_fillCsr.mp h
      exact ⟨length, n, csrLength_iff.mpr ⟨hlength, not_not.mp htwo ▸ hrows⟩, hn, hlarge⟩
  · rintro ⟨length, n, hcsr, hn, hlarge⟩
    obtain ⟨hlength, hrows⟩ := csrLength_iff.mp hcsr
    rw [hlength, Except.ok_bind, hrows, Except.ok_bind, if_neg (by decide)]
    exact escapes_fillCsr.mpr ⟨n, hn, hlarge⟩

/-- A list, or an object with dense values or with those of a CSR row. -/
def ReadableTensor (py : PyRuntime) (tensorData : PyJson) : Prop :=
  tensorData.isArr = true ∨ tensorData.isObj = true ∧ OneDim tensorData ∧
    (IsCsr tensorData ∧ ReadableCsr py tensorData ∨
      ¬ IsCsr tensorData ∧ (tensorData.listAt? "data").isSome = true)

/-- A CSR row that is too long. -/
def EscapingTensor (py : PyRuntime) (tensorData : PyJson) : Prop :=
  tensorData.isObj = true ∧ OneDim tensorData ∧ IsCsr tensorData ∧ EscapingCsr py tensorData

/-- The values of a tensor. -/
def valuesOfTensor : PyJson → List PyJson
  | .arr items => items
  | tensorData =>
    if ((tensorData.field? "sparse_crow_indices").getD .null).isNull then
      (tensorData.listAt? "data").getD []
    else valuesOfCsr tensorData

theorem isCsr_iff : IsCsr tensorData ↔
    ((tensorData.field? "sparse_crow_indices").getD .null).isNull = false := by
  unfold IsCsr
  cases tensorData.field? "sparse_crow_indices" <;> simp [isNull]

theorem isObj_obj (fields : List (String × PyJson)) : (PyJson.obj fields).isObj = true := rfl

/-- The shape check passes on one dimension. -/
theorem shapeLength_le_iff {fields : List (String × PyJson)} :
    (∃ n, shapeLength (.obj fields) = .ok n ∧ n ≤ 1) ↔ OneDim (.obj fields) := by
  unfold shapeLength OneDim
  rw [show ((PyJson.obj fields).get "shape" : Checked _) = .ok ((PyJson.obj fields).field? "shape")
    from rfl, Except.ok_bind]
  cases (PyJson.obj fields).field? "shape" with
  | none => exact ⟨fun _ _ h => absurd h (by simp), fun _ => ⟨0, rfl, by omega⟩⟩
  | some shape =>
    simp only [Option.some.injEq, forall_eq']
    split
    · rename_i htrue
      simp only [htrue, forall_const, len_eq_ok]
      exact ⟨fun ⟨n, ⟨xs, hxs, hlen⟩, hle⟩ => ⟨xs, hxs, hlen ▸ hle⟩,
        fun ⟨xs, hxs, hle⟩ => ⟨xs.length, ⟨xs, hxs, rfl⟩, hle⟩⟩
    · rename_i hfalse
      exact ⟨fun _ h => absurd h hfalse, fun _ => ⟨0, rfl, by omega⟩⟩

theorem not_escapes_shapeLength (fields : List (String × PyJson)) :
    ¬ (shapeLength (.obj fields)).Escapes isContentError := by
  unfold shapeLength
  refine Except.not_escapes_bind ?_ fun o => ?_
  · rw [escapes_get rfl, isObj_obj]
    decide
  · split
    · split
      · exact not_escapes_len rfl
      · exact Except.not_escapes_pure _
    · exact Except.not_escapes_pure _

/-- The values of an object, once its shape is known to be one-dimensional. -/
def objectToList (py : PyRuntime) (tensorData : PyJson) : Checked (List PyJson) :=
  if ((tensorData.field? "sparse_crow_indices").getD .null).isNull then
    match tensorData.field? "data" with
    | none | some .null => reject "TensorData without data"
    | some data => data.iter
  else denseFromCsr py tensorData

/-- The checks on a tensor, in the order of the source. -/
theorem tensorDataToList_obj (fields : List (String × PyJson)) :
    tensorDataToList py (.obj fields) = (shapeLength (.obj fields) >>= fun n =>
      if 1 < n then
        reject "multi-target inputs are not supported; loss_fn_inputs must be 1-D"
      else objectToList py (.obj fields)) := by
  unfold tensorDataToList objectToList
  dsimp only
  refine congrArg (shapeLength (.obj fields) >>= ·) (funext fun n => ?_)
  split
  · rfl
  · have hget : ∀ key, ((PyJson.obj fields).get key : Checked _) =
        .ok ((PyJson.obj fields).field? key) := fun _ => rfl
    rw [hget, Except.ok_bind, hget, Except.ok_bind]
    cases (PyJson.obj fields).field? "sparse_crow_indices" with
    | none => rfl
    | some indices => cases indices <;> rfl

/-- An object is read as CSR, or as a list of data. -/
theorem objectToList_eq_ok {values : List PyJson}
    (hobj : tensorData.isObj = true) : objectToList py tensorData = .ok values ↔
      (IsCsr tensorData ∧ ReadableCsr py tensorData ∨
        ¬ IsCsr tensorData ∧ (tensorData.listAt? "data").isSome = true) ∧
        values = valuesOfTensor tensorData := by
  obtain ⟨fields, rfl⟩ := isObj_eq_true.mp hobj
  unfold objectToList valuesOfTensor
  rw [isCsr_iff]
  split
  · rename_i hnull
    simp only [hnull, Bool.true_eq_false, false_and, not_false_eq_true, true_and, false_or]
    unfold listAt?
    cases (PyJson.obj fields).field? "data" with
    | none => simp [reject]
    | some data =>
      cases data <;> simp [reject, elems?, iter, eq_comm]
  · rename_i hcsr
    simp [hcsr, denseFromCsr_eq_ok]

theorem escapes_objectToList :
    (objectToList py tensorData).Escapes isContentError ↔
      IsCsr tensorData ∧ EscapingCsr py tensorData := by
  unfold objectToList
  rw [isCsr_iff]
  split
  · rename_i hnull
    simp only [hnull, Bool.true_eq_false, false_and, iff_false]
    split
    · exact not_escapes_reject _
    · exact not_escapes_reject _
    · exact not_escapes_list _
  · rename_i hcsr
    simp [hcsr, escapes_denseFromCsr]

/-- Tensor data are read exactly when they are readable. -/
theorem tensorDataToList_eq_ok {values : List PyJson} :
    tensorDataToList py tensorData = .ok values ↔
      ReadableTensor py tensorData ∧ values = valuesOfTensor tensorData := by
  unfold ReadableTensor
  cases tensorData with
  | arr items =>
    show Except.ok items = .ok values ↔ _
    simp only [isArr, true_or, true_and, valuesOfTensor, Except.ok.injEq]
    exact eq_comm
  | obj fields =>
    rw [tensorDataToList_obj, ← shapeLength_le_iff, Except.bind_eq_ok]
    simp only [isArr, Bool.false_eq_true, isObj_obj, true_and, false_or]
    constructor
    · rintro ⟨n, hn, h⟩
      split at h
      · cases h
      · rename_i hle
        obtain ⟨hread, rfl⟩ := (objectToList_eq_ok rfl).mp h
        exact ⟨⟨⟨n, hn, by omega⟩, hread⟩, rfl⟩
    · rintro ⟨⟨⟨n, hn, hle⟩, hread⟩, rfl⟩
      exact ⟨n, hn, by rw [if_neg (by omega)]; exact (objectToList_eq_ok rfl).mpr ⟨hread, rfl⟩⟩
  | _ => simp [tensorDataToList, reject, isArr, isObj]

/-- When reading tensor data lets an exception escape. -/
theorem escapes_tensorDataToList :
    (tensorDataToList py tensorData).Escapes isContentError ↔ EscapingTensor py tensorData := by
  unfold EscapingTensor
  cases tensorData with
  | obj fields =>
    rw [tensorDataToList_obj, ← shapeLength_le_iff, Except.escapes_bind,
      or_iff_right (not_escapes_shapeLength fields)]
    simp only [isObj_obj, true_and]
    constructor
    · rintro ⟨n, hn, h⟩
      split at h
      · exact absurd h (not_escapes_reject _)
      · rename_i hle
        exact ⟨⟨n, hn, by omega⟩, escapes_objectToList.mp h⟩
    · rintro ⟨⟨n, hn, hle⟩, h⟩
      exact ⟨n, hn, by rw [if_neg (by omega)]; exact escapes_objectToList.mpr h⟩
  | _ => simp [tensorDataToList, isObj]

/-! ## Elements of the data -/

/-- Loss inputs: an object of tensors. -/
def ReadableInputs (py : PyRuntime) (lossFnInputs : PyJson) : Prop :=
  ∃ fields, lossFnInputs = .obj fields ∧ ∀ x ∈ fields, ReadableTensor py x.2

/-- Loss inputs that are no object, or have a CSR row that is too long after tensors that can be
    read. -/
def EscapingInputs (py : PyRuntime) (lossFnInputs : PyJson) : Prop :=
  lossFnInputs.isObj = false ∨ ∃ fields, lossFnInputs = .obj fields ∧
    fields.FirstAt (fun x => ReadableTensor py x.2) (fun x => EscapingTensor py x.2)

def inputsOf : PyJson → List (String × List PyJson)
  | .obj fields => fields.map fun x => (x.1, valuesOfTensor x.2)
  | _ => []

/-- One named tensor of the loss inputs. -/
def decodeInput (py : PyRuntime) (x : String × PyJson) : Checked (String × List PyJson) := do
  return (x.1, ← tensorDataToList py x.2)

theorem decodeInput_eq_ok {x : String × PyJson} {y : String × List PyJson} :
    decodeInput py x = .ok y ↔ ReadableTensor py x.2 ∧ y = (x.1, valuesOfTensor x.2) := by
  unfold decodeInput
  rw [Except.bind_eq_ok]
  constructor
  · rintro ⟨values, hvalues, h⟩
    obtain ⟨hread, rfl⟩ := tensorDataToList_eq_ok.mp hvalues
    cases h
    exact ⟨hread, rfl⟩
  · rintro ⟨hread, rfl⟩
    exact ⟨_, tensorDataToList_eq_ok.mpr ⟨hread, rfl⟩, rfl⟩

theorem returns_decodeInput {x : String × PyJson} :
    (decodeInput py x).Returns ↔ ReadableTensor py x.2 := by
  constructor
  · rintro ⟨y, h⟩
    exact (decodeInput_eq_ok.mp h).1
  · exact fun h => ⟨_, decodeInput_eq_ok.mpr ⟨h, rfl⟩⟩

theorem escapes_decodeInput {x : String × PyJson} :
    (decodeInput py x).Escapes isContentError ↔ EscapingTensor py x.2 := by
  unfold decodeInput
  rw [Except.escapes_bind, escapes_tensorDataToList]
  exact or_iff_left fun ⟨_, _, h⟩ => Except.not_escapes_pure _ h

/-- The inputs of a loss are read exactly when each is. -/
theorem decodeInputs_eq_ok {lossFnInputs : PyJson} {inputs : List (String × List PyJson)} :
    decodeInputs py lossFnInputs = .ok inputs ↔
      ReadableInputs py lossFnInputs ∧ inputs = inputsOf lossFnInputs := by
  show (lossFnInputs.items >>= fun fields => fields.mapM (decodeInput py)) = .ok inputs ↔ _
  rw [Except.bind_eq_ok]
  constructor
  · rintro ⟨fields, hfields, h⟩
    obtain rfl := items_eq_ok.mp hfields
    have hall := Except.returns_mapM.mp ⟨inputs, h⟩
    exact ⟨⟨fields, rfl, fun x hx => returns_decodeInput.mp (hall x hx)⟩,
      Except.mapM_eq_map (fun x _ y hy => (decodeInput_eq_ok.mp hy).2) h⟩
  · rintro ⟨⟨fields, rfl, hall⟩, rfl⟩
    obtain ⟨inputs, h⟩ : (fields.mapM (decodeInput py)).Returns :=
      Except.returns_mapM.mpr fun x hx => returns_decodeInput.mpr (hall x hx)
    have hmap : inputs = inputsOf (.obj fields) :=
      Except.mapM_eq_map (fun x _ y hy => (decodeInput_eq_ok.mp hy).2) h
    exact ⟨fields, rfl, hmap ▸ h⟩

/-- When reading the inputs of a loss lets an exception escape. -/
theorem escapes_decodeInputs {lossFnInputs : PyJson} :
    (decodeInputs py lossFnInputs).Escapes isContentError ↔ EscapingInputs py lossFnInputs := by
  show (lossFnInputs.items >>= fun fields => fields.mapM (decodeInput py)).Escapes _ ↔ _
  unfold EscapingInputs
  rw [Except.escapes_bind, escapes_items rfl]
  refine or_congr_right (exists_congr fun fields => ?_)
  rw [items_eq_ok, Except.escapes_mapM]
  simp only [returns_decodeInput, escapes_decodeInput]

/-- An element of the data: model input and loss inputs that can be read. -/
def ReadableElement (py : PyRuntime) (datum : PyJson) : Prop :=
  ∃ modelInput lossFnInputs, datum.field? "model_input" = some modelInput ∧
    ReadableInput modelInput ∧ datum.field? "loss_fn_inputs" = some lossFnInputs ∧
    ReadableInputs py lossFnInputs

/-- The model input escapes, or can be read and the loss inputs escape. -/
def EscapingElement (py : PyRuntime) (datum : PyJson) : Prop :=
  ∃ modelInput, datum.field? "model_input" = some modelInput ∧
    (EscapingInput modelInput ∨ ReadableInput modelInput ∧
      ∃ lossFnInputs, datum.field? "loss_fn_inputs" = some lossFnInputs ∧
        EscapingInputs py lossFnInputs)

/-- The tokens and the loss inputs of an element. -/
def elementOf (datum : PyJson) : List PyJson × List (String × List PyJson) :=
  (tokensOfInput ((datum.field? "model_input").getD .null),
    inputsOf ((datum.field? "loss_fn_inputs").getD .null))

/-- An element of the batch is read exactly when it is readable. -/
theorem decodeElement_eq_ok {datum : PyJson}
    {element : List PyJson × List (String × List PyJson)} :
    decodeElement py datum = .ok element ↔ ReadableElement py datum ∧ element = elementOf datum := by
  unfold decodeElement
  constructor
  · intro h
    obtain ⟨modelInput, hmi, h⟩ := Except.bind_eq_ok.mp h
    obtain ⟨tokens, htokens, h⟩ := Except.bind_eq_ok.mp h
    obtain ⟨lossFnInputs, hli, h⟩ := Except.bind_eq_ok.mp h
    obtain ⟨inputs, hinputs, h⟩ := Except.bind_eq_ok.mp h
    obtain ⟨hread, rfl⟩ := modelInputTokens_eq_ok.mp htokens
    obtain ⟨hreads, rfl⟩ := decodeInputs_eq_ok.mp hinputs
    rw [getItem_eq_ok] at hmi hli
    cases h
    exact ⟨⟨modelInput, lossFnInputs, hmi, hread, hli, hreads⟩, by simp [elementOf, hmi, hli]⟩
  · rintro ⟨⟨modelInput, lossFnInputs, hmi, hread, hli, hreads⟩, rfl⟩
    rw [getItem_eq_ok.mpr hmi, Except.ok_bind, modelInputTokens_eq_ok.mpr ⟨hread, rfl⟩,
      Except.ok_bind, getItem_eq_ok.mpr hli, Except.ok_bind,
      decodeInputs_eq_ok.mpr ⟨hreads, rfl⟩, Except.ok_bind, elementOf, hmi, hli]
    rfl

theorem returns_decodeElement {datum : PyJson} :
    (decodeElement py datum).Returns ↔ ReadableElement py datum := by
  constructor
  · rintro ⟨element, h⟩
    exact (decodeElement_eq_ok.mp h).1
  · exact fun h => ⟨_, decodeElement_eq_ok.mpr ⟨h, rfl⟩⟩

/-- When reading an element lets an exception escape. -/
theorem escapes_decodeElement {datum : PyJson} :
    (decodeElement py datum).Escapes isContentError ↔ EscapingElement py datum := by
  unfold decodeElement EscapingElement
  rw [Except.escapes_bind, or_iff_right (not_escapes_key _ _)]
  refine exists_congr fun modelInput => ?_
  rw [getItem_eq_ok, Except.escapes_bind, escapes_modelInputTokens]
  refine and_congr_right fun _ => or_congr_right ?_
  simp only [modelInputTokens_eq_ok, and_assoc, exists_and_left, exists_eq_left]
  refine and_congr_right fun _ => ?_
  rw [Except.escapes_bind, or_iff_right (not_escapes_key _ _)]
  refine exists_congr fun lossFnInputs => ?_
  rw [getItem_eq_ok, Except.escapes_bind, escapes_decodeInputs]
  refine and_congr_right fun _ => or_iff_left ?_
  rintro ⟨inputs, -, h⟩
  exact Except.not_escapes_pure _ h

/-! ## Building a datum -/

/-- Known loss inputs, one-dimensional, with a target for each token. -/
def Labelled (element : List PyJson × List (String × List PyJson)) : Prop :=
  unknownInputs element.2 = [] ∧ (∀ x ∈ element.2, ∀ v ∈ x.2, v.isArr = false) ∧
    ∃ targets, element.2.lookup "target_tokens" = some targets ∧
      targets.length = element.1.length

/-- The values that are converted to floats, in order. -/
def convertedValues (element : List PyJson × List (String × List PyJson)) : List PyJson :=
  (presentInputs element.2).flatMap (·.2)

def Buildable (py : PyRuntime) (element : List PyJson × List (String × List PyJson)) : Prop :=
  Labelled element ∧ ∀ v ∈ convertedValues element, v.IsNumeric py

/-- Among the values an integer is too large for a float, after numbers that are not. -/
def EscapingBuild (py : PyRuntime) (element : List PyJson × List (String × List PyJson)) : Prop :=
  Labelled element ∧ (convertedValues element).FirstAt (·.IsNumeric py) IsHuge

/-- The conversion of one input. -/
def convertInput (py : PyRuntime) (x : String × List PyJson) : Checked (String × List Float64) :=
  do return (x.1, ← x.2.mapM (PyJson.toFloat py))

/-- `build_datum` once the labels are checked. -/
def convertDatum (py : PyRuntime) (tokens targets : List PyJson)
    (inputs : List (String × List PyJson)) : Checked WireDatum := do
  let lossInputs ← (presentInputs inputs).mapM (convertInput py)
  return {
    tokens := tokens ++ targets.getLast?.toList
    targetLen := targets.length
    targetTokens := targets
    lossInputs }

theorem returns_convertInput {x : String × List PyJson} :
    (convertInput py x).Returns ↔ ∀ v ∈ x.2, v.IsNumeric py := by
  unfold convertInput
  rw [Except.returns_bind]
  simp only [Except.returns_pure, and_true]
  show (x.2.mapM (PyJson.toFloat py) : Checked _).Returns ↔ _
  rw [Except.returns_mapM]
  simp only [returns_toFloat]

theorem escapes_convertInput {x : String × List PyJson} :
    (convertInput py x).Escapes isContentError ↔ x.2.FirstAt (·.IsNumeric py) IsHuge := by
  unfold convertInput
  rw [Except.escapes_bind, Except.escapes_mapM]
  simp only [Except.not_escapes_pure, and_false, exists_false, or_false, returns_toFloat,
    escapes_toFloat isContentError_type isContentError_value isContentError_overflow]

/-- A datum is converted exactly when all its values are numeric. -/
theorem returns_convertDatum {tokens targets : List PyJson} {inputs : List (String × List PyJson)} :
    (convertDatum py tokens targets inputs).Returns ↔
      ∀ v ∈ convertedValues (tokens, inputs), v.IsNumeric py := by
  unfold convertDatum
  rw [Except.returns_bind]
  simp only [Except.returns_pure, and_true]
  show ((presentInputs inputs).mapM (convertInput py)).Returns ↔ _
  rw [Except.returns_mapM]
  simp only [returns_convertInput, convertedValues, List.mem_flatMap]
  constructor
  · intro h v hv
    obtain ⟨x, hx, hv⟩ := hv
    exact h x hx v hv
  · intro h x hx v hv
    exact h v ⟨x, hx, hv⟩

/-- Only a number too large for a float escapes. -/
theorem escapes_convertDatum {tokens targets : List PyJson}
    {inputs : List (String × List PyJson)} :
    (convertDatum py tokens targets inputs).Escapes isContentError ↔
      (convertedValues (tokens, inputs)).FirstAt (·.IsNumeric py) IsHuge := by
  unfold convertDatum
  rw [Except.escapes_bind, Except.escapes_mapM, convertedValues, List.firstAt_flatMap]
  simp only [Except.not_escapes_pure, and_false, exists_false, or_false, returns_convertInput,
    escapes_convertInput]

/-- The checks of `build_datum` before the conversion pass on labelled data only. -/
theorem buildDatum_cases (py : PyRuntime)
    (element : List PyJson × List (String × List PyJson)) (index : Nat) :
    (∃ targets, Labelled element ∧
      buildDatum py element.1 element.2 index = convertDatum py element.1 targets element.2) ∨
    ¬ Labelled element ∧ ∃ e, buildDatum py element.1 element.2 index = .error e ∧
      isContentError e = true := by
  obtain ⟨tokens, inputs⟩ := element
  unfold buildDatum Labelled
  dsimp only
  split
  · rename_i hunknown
    exact .inr ⟨fun h => hunknown h.1, _, rfl, rfl⟩
  · rename_i hknown
    cases hdim : inputs.forM (checkOneDim py index) with
    | error e =>
      right
      refine ⟨fun h => ?_, e, rfl, ?_⟩
      · have hok : inputs.forM (checkOneDim py index) = .ok () := by
          refine Except.forM_eq_ok.mpr fun x hx => ?_
          unfold checkOneDim
          rw [if_neg]
          simpa using h.2.1 x hx
        rw [hok] at hdim
        cases hdim
      · by_contra hescapes
        obtain ⟨_, x, _, _, _, hx⟩ := Except.escapes_forM.mp ⟨e, hdim, by simpa using hescapes⟩
        unfold checkOneDim at hx
        split at hx
        · exact not_escapes_reject _ hx
        · exact Except.not_escapes_ok _ hx
    | ok u =>
      have hflat : ∀ x ∈ inputs, ∀ v ∈ x.2, v.isArr = false := by
        intro x hx
        have hx := Except.forM_eq_ok.mp hdim x hx
        unfold checkOneDim at hx
        split at hx
        · cases hx
        · rename_i hany
          simpa using hany
      rw [Except.ok_bind]
      cases htargets : inputs.lookup "target_tokens" with
      | none => exact .inr ⟨fun ⟨_, _, _, h, _⟩ => (nomatch h), _, rfl, rfl⟩
      | some targets =>
        dsimp only
        split
        · rename_i hlen
          refine .inr ⟨fun ⟨_, _, ts, h, hts⟩ => ?_, _, rfl, rfl⟩
          cases h
          exact hlen hts
        · rename_i hlen
          exact .inl ⟨targets, ⟨not_not.mp hknown, hflat, targets, rfl, not_not.mp hlen⟩, rfl⟩

theorem returns_buildDatum {element : List PyJson × List (String × List PyJson)} {index : Nat} :
    (buildDatum py element.1 element.2 index).Returns ↔ Buildable py element := by
  unfold Buildable
  rcases buildDatum_cases py element index with ⟨targets, hlabelled, h⟩ | ⟨hnot, e, h, -⟩
  · rw [h, returns_convertDatum, and_iff_right hlabelled]
  · simp [h, hnot]

theorem escapes_buildDatum {element : List PyJson × List (String × List PyJson)} {index : Nat} :
    (buildDatum py element.1 element.2 index).Escapes isContentError ↔
      EscapingBuild py element := by
  unfold EscapingBuild
  rcases buildDatum_cases py element index with ⟨targets, hlabelled, h⟩ | ⟨hnot, e, h, he⟩
  · rw [h, escapes_convertDatum, and_iff_right hlabelled]
  · simp [h, hnot, he]

/-! ## Commands -/

/-- A `forward_backward` request: a list of elements that can be read and built, and a loss
    function. -/
def WellFormedBatch (py : PyRuntime) (payload : PyJson) : Prop :=
  ∃ fbInput data, payload.field? "forward_backward_input" = some fbInput ∧
    fbInput.listAt? "data" = some data ∧ (∀ datum ∈ data, ReadableElement py datum) ∧
    (∀ datum ∈ data, Buildable py (elementOf datum)) ∧ (fbInput.field? "loss_fn").isSome = true

/-- The first element that cannot be read escapes; or all can be read, and the first that cannot
    be built escapes. -/
def EscapingBatch (py : PyRuntime) (payload : PyJson) : Prop :=
  ∃ fbInput data, payload.field? "forward_backward_input" = some fbInput ∧
    fbInput.listAt? "data" = some data ∧
    (data.FirstAt (ReadableElement py) (EscapingElement py) ∨
      (∀ datum ∈ data, ReadableElement py datum) ∧
        data.FirstAt (fun datum => Buildable py (elementOf datum))
          (fun datum => EscapingBuild py (elementOf datum)))

/-- What is read after the data: the loss function and its configuration. -/
def finishBatch (fbInput : PyJson) (datums : List WireDatum) : Checked BatchContent := do
  let lossFn ← fbInput.getItem "loss_fn"
  let config := (← fbInput.get "loss_fn_config").getD .null
  return { datums, lossFn, lossFnConfig := if config.truthy then config else .obj [] }

/-- Building all data, each with its index. -/
def buildAll (py : PyRuntime) (elements : List (List PyJson × List (String × List PyJson))) :
    Checked (List WireDatum) :=
  elements.zipIdx.mapM fun x => buildDatum py x.1.1 x.1.2 x.2

/-- The steps of a batch, in the order of the source. -/
theorem decodeBatch_eq (payload : PyJson) : decodeBatch py payload =
    (payload.getItem "forward_backward_input" >>= fun fbInput =>
      (fbInput.getItem "data" >>= PyJson.iter) >>= fun data =>
        data.mapM (decodeElement py) >>= fun elements =>
          buildAll py elements >>= finishBatch fbInput) := by
  simp only [bind_assoc]
  rfl

theorem forall_zipIdx {α : Type} {xs : List α} {P : α → Prop} :
    (∀ x ∈ xs.zipIdx, P x.1) ↔ ∀ x ∈ xs, P x := by
  have h : xs.zipIdx.map Prod.fst = xs := by simp
  rw [← List.forall_mem_map (f := Prod.fst) (P := P), h]

theorem firstAt_zipIdx {α : Type} {xs : List α} {ok stop : α → Prop} :
    xs.zipIdx.FirstAt (fun x => ok x.1) (fun x => stop x.1) ↔ xs.FirstAt ok stop := by
  have h : xs.zipIdx.map Prod.fst = xs := by simp
  rw [← List.firstAt_map (f := Prod.fst), h]

theorem returns_buildAll {elements : List (List PyJson × List (String × List PyJson))} :
    (buildAll py elements).Returns ↔ ∀ element ∈ elements, Buildable py element := by
  unfold buildAll
  rw [Except.returns_mapM]
  simp only [returns_buildDatum]
  exact forall_zipIdx

theorem escapes_buildAll {elements : List (List PyJson × List (String × List PyJson))} :
    (buildAll py elements).Escapes isContentError ↔
      elements.FirstAt (Buildable py) (EscapingBuild py) := by
  unfold buildAll
  rw [Except.escapes_mapM]
  simp only [returns_buildDatum, escapes_buildDatum]
  exact firstAt_zipIdx

theorem isObj_of_listAt {v : PyJson} {key : String} {xs : List PyJson}
    (h : v.listAt? key = some xs) : v.isObj = true := by
  cases v <;> first | rfl | cases h

/-- A batch is finished exactly when it names a loss. -/
theorem returns_finishBatch {fbInput : PyJson} {datums : List WireDatum}
    (hobj : fbInput.isObj = true) :
    (finishBatch fbInput datums).Returns ↔ (fbInput.field? "loss_fn").isSome = true := by
  obtain ⟨fields, rfl⟩ := isObj_eq_true.mp hobj
  unfold finishBatch
  rw [Except.returns_bind]
  simp only [getItem_eq_ok]
  constructor
  · rintro ⟨lossFn, h, -⟩
    rw [h]
    rfl
  · intro h
    obtain ⟨lossFn, h⟩ := Option.isSome_iff_exists.mp h
    exact ⟨lossFn, h, _, rfl⟩

theorem not_escapes_finishBatch {fbInput : PyJson} {datums : List WireDatum}
    (hobj : fbInput.isObj = true) : ¬ (finishBatch fbInput datums).Escapes isContentError := by
  unfold finishBatch
  refine Except.not_escapes_bind (not_escapes_key _ _) fun lossFn => ?_
  refine Except.not_escapes_bind ?_ fun config => Except.not_escapes_pure _
  rw [escapes_get rfl, hobj]
  decide

/-- The elements of a list that can be read. -/
theorem mapM_decodeElement {data : List PyJson}
    {elements : List (List PyJson × List (String × List PyJson))} :
    data.mapM (decodeElement py) = .ok elements ↔
      (∀ datum ∈ data, ReadableElement py datum) ∧ elements = data.map elementOf := by
  have hmap : ∀ elements, data.mapM (decodeElement py) = .ok elements →
      elements = data.map elementOf := fun elements =>
    Except.mapM_eq_map fun datum _ y hy => (decodeElement_eq_ok.mp hy).2
  constructor
  · intro h
    have hall := Except.returns_mapM.mp ⟨elements, h⟩
    exact ⟨fun datum hd => returns_decodeElement.mp (hall datum hd), hmap elements h⟩
  · rintro ⟨hall, rfl⟩
    obtain ⟨elements, h⟩ : (data.mapM (decodeElement py)).Returns :=
      Except.returns_mapM.mpr fun datum hd => returns_decodeElement.mpr (hall datum hd)
    exact hmap elements h ▸ h

/-- A batch is decoded exactly when it is well formed. -/
theorem returns_decodeBatch :
    (decodeBatch py payload).Returns ↔ WellFormedBatch py payload := by
  unfold WellFormedBatch
  rw [decodeBatch_eq]
  simp only [Except.returns_bind, getItem_eq_ok, list_of_key, mapM_decodeElement]
  refine exists_congr fun fbInput => ?_
  constructor
  · rintro ⟨hfb, data, hdata, _, ⟨hread, rfl⟩, datums, hdatums, hfinish⟩
    have hbuild := returns_buildAll.mp ⟨datums, hdatums⟩
    rw [List.forall_mem_map] at hbuild
    exact ⟨data, hfb, hdata, hread, hbuild,
      (returns_finishBatch (isObj_of_listAt hdata)).mp hfinish⟩
  · rintro ⟨data, hfb, hdata, hread, hbuild, hloss⟩
    obtain ⟨datums, hdatums⟩ : (buildAll py (data.map elementOf)).Returns :=
      returns_buildAll.mpr (List.forall_mem_map.mpr hbuild)
    exact ⟨hfb, data, hdata, _, ⟨hread, rfl⟩, datums, hdatums,
      (returns_finishBatch (isObj_of_listAt hdata)).mpr hloss⟩

/-- When decoding a batch lets an exception escape. -/
theorem escapes_decodeBatch :
    (decodeBatch py payload).Escapes isContentError ↔ EscapingBatch py payload := by
  unfold EscapingBatch
  rw [decodeBatch_eq, Except.escapes_bind, or_iff_right (not_escapes_key _ _)]
  refine exists_congr fun fbInput => ?_
  rw [getItem_eq_ok, Except.escapes_bind, or_iff_right (not_escapes_list_of_key _ _),
    ← exists_and_left]
  refine exists_congr fun data => ?_
  refine and_congr_right fun _ => ?_
  rw [list_of_key]
  refine and_congr_right fun hdata => ?_
  rw [Except.escapes_bind, Except.escapes_mapM]
  simp only [returns_decodeElement, escapes_decodeElement, mapM_decodeElement, and_assoc,
    exists_and_left, exists_eq_left]
  refine or_congr_right (and_congr_right fun _ => ?_)
  rw [Except.escapes_bind, escapes_buildAll, List.firstAt_map]
  refine or_iff_left ?_
  rintro ⟨datums, -, h⟩
  exact not_escapes_finishBatch (isObj_of_listAt hdata) h

/-- Recipients that can be checked, and are all valid. -/
def ValidRecipients (lib : Libraries) (recipients : List String) : Prop :=
  recipients.length ≤ maxAgeRecipients ∧ (recipients ≠ [] → ∃ parsers, lib.pyrage = some parsers ∧
    ∀ recipient ∈ recipients,
      ∃ u, (if recipient.startsWith "ssh-" then parsers.1 else parsers.2) recipient = .ok u)

/-- Recipients in an allowed number, with nothing to check them. -/
def UncheckedRecipients (lib : Libraries) (recipients : List String) : Prop :=
  recipients.length ≤ maxAgeRecipients ∧ recipients ≠ [] ∧ lib.pyrage = none

/-- The request model accepts the payload, and the gateway serves what it asks for. -/
def WellFormedRequest (lib : Libraries) (type : RequestType) (payload : PyJson) : Prop :=
  match type with
  | .optimStep => ∃ r, lib.optimStep payload = .ok r ∧ r.optimParams.isAdamParams = true
  | .saveState => ∃ r, lib.saveState payload = .ok r ∧
      validTtl r.ttlSeconds = true ∧ r.userMetadata.isNull = true
  | .loadState => ∃ r, lib.loadState payload = .ok r ∧ r.optimizerConfig.isNull = true
  | .saveWeightsForSampler => ∃ r, lib.saveWeightsForSampler payload = .ok r ∧
      validTtl r.ttlSeconds = true ∧ r.userMetadata.isNull = true
  | .saveWeightsExternal => ∃ r, lib.saveWeightsExternal payload = .ok r ∧
      validTtl r.ttlSeconds = true ∧ ValidRecipients lib (r.ageEncryptionRecipients.getD [])

/-- An encrypted export where nothing can check the recipients. -/
def EscapingRequest (lib : Libraries) (type : RequestType) (payload : PyJson) : Prop :=
  type = .saveWeightsExternal ∧ ∃ r, lib.saveWeightsExternal payload = .ok r ∧
    validTtl r.ttlSeconds = true ∧ UncheckedRecipients lib (r.ageEncryptionRecipients.getD [])

/-- Content of the shape that its op asks for. -/
def WellFormed (py : PyRuntime) (lib : Libraries) (op : WireOp) (payload : PyJson) : Prop :=
  match op with
  | .forwardBackward => WellFormedBatch py payload
  | .request type => WellFormedRequest lib type payload

/-- Content that runs into an exception no failure is made of. -/
def Escaping (py : PyRuntime) (lib : Libraries) (op : WireOp) (payload : PyJson) : Prop :=
  match op with
  | .forwardBackward => EscapingBatch py payload
  | .request type => EscapingRequest lib type payload

theorem validateAgainstSdk_eq_ok {α : Type} {modelValidate : PyJson → Except ValidationError α}
    {r : α} :
    validateAgainstSdk modelValidate payload = .ok r ↔ modelValidate payload = .ok r := by
  unfold validateAgainstSdk
  cases modelValidate payload <;> simp [reject]

theorem not_escapes_validateAgainstSdk {α : Type}
    (modelValidate : PyJson → Except ValidationError α) (payload : PyJson) :
    ¬ (validateAgainstSdk modelValidate payload).Escapes isContentError := by
  unfold validateAgainstSdk
  cases modelValidate payload <;> simp

/-- A check that only rejects. -/
theorem returns_check {b : Bool} {text : String} :
    (if b = true then .ok () else reject text : Checked Unit).Returns ↔ b = true := by
  cases b <;> simp

theorem not_escapes_check {b : Bool} {text : String} :
    ¬ (if b = true then .ok () else reject text : Checked Unit).Escapes isContentError := by
  cases b <;> simp

theorem returns_validateSaveOptions {ttlSeconds userMetadata : PyJson} :
    (validateSaveOptions py ttlSeconds userMetadata).Returns ↔
      validTtl ttlSeconds = true ∧ userMetadata.isNull = true := by
  unfold validateSaveOptions validateTtlSeconds
  rw [Except.returns_bind]
  simp only [returns_check]
  constructor
  · rintro ⟨u, h, hnull⟩
    exact ⟨returns_check.mp ⟨u, h⟩, hnull⟩
  · rintro ⟨httl, hnull⟩
    exact ⟨(), if_pos httl, hnull⟩

theorem not_escapes_validateSaveOptions (ttlSeconds userMetadata : PyJson) :
    ¬ (validateSaveOptions py ttlSeconds userMetadata).Escapes isContentError :=
  Except.not_escapes_bind not_escapes_check fun _ => not_escapes_check

/-- The recipients pass exactly when they are valid. -/
theorem returns_validateAgeRecipients {recipients : List String} :
    (validateAgeRecipients py lib recipients).Returns ↔ ValidRecipients lib recipients := by
  unfold validateAgeRecipients ValidRecipients
  split
  · rename_i hmany
    exact iff_of_false (not_returns_reject _) fun h => by omega
  · rename_i hfew
    split
    · rename_i hempty
      exact iff_of_true ⟨(), rfl⟩ ⟨by omega, fun h => absurd hempty h⟩
    · rename_i hnonempty
      simp only [show recipients.length ≤ maxAgeRecipients by omega, true_and, ne_eq, hnonempty,
        not_false_eq_true, forall_const]
      cases lib.pyrage with
      | none => simp
      | some parsers =>
        simp only [Option.some.injEq, exists_eq_left', Except.returns_forM]
        refine forall₂_congr fun recipient _ => ?_
        unfold validateAgeRecipient
        cases (if recipient.startsWith "ssh-" then parsers.1 else parsers.2) recipient <;> simp

theorem escapes_validateAgeRecipients {recipients : List String} :
    (validateAgeRecipients py lib recipients).Escapes isContentError ↔
      UncheckedRecipients lib recipients := by
  unfold validateAgeRecipients UncheckedRecipients
  split
  · rename_i hmany
    exact iff_of_false (not_escapes_reject _) fun h => by omega
  · rename_i hfew
    split
    · rename_i hempty
      exact iff_of_false (Except.not_escapes_ok _) fun h => h.2.1 hempty
    · rename_i hnonempty
      cases lib.pyrage with
      | none =>
        exact iff_of_true ⟨_, rfl, rfl⟩ ⟨by omega, hnonempty, rfl⟩
      | some parsers =>
        refine iff_of_false (fun h => ?_) fun h => nomatch h.2.2
        obtain ⟨_, recipient, _, _, _, h⟩ := Except.escapes_forM.mp h
        unfold validateAgeRecipient at h
        split at h
        · exact Except.not_escapes_ok _ h
        · exact not_escapes_reject _ h

/-- A request whose model accepts it, and that passes a check of its own. -/
theorem returns_request {α : Type} {modelValidate : PyJson → Except ValidationError α}
    {rest : α → Checked Content} {P : α → Prop}
    (hrest : ∀ r, (rest r).Returns ↔ P r) :
    (validateAgainstSdk modelValidate payload >>= rest).Returns ↔
      ∃ r, modelValidate payload = .ok r ∧ P r := by
  rw [Except.returns_bind]
  exact exists_congr fun r => and_congr validateAgainstSdk_eq_ok (hrest r)

theorem returns_then {x : Checked Unit} {content : Content} {P : Prop} (hx : x.Returns ↔ P) :
    (x >>= fun _ => pure content : Checked Content).Returns ↔ P := by
  rw [Except.returns_bind, ← hx]
  exact ⟨fun ⟨u, h, _⟩ => ⟨u, h⟩, fun ⟨u, h⟩ => ⟨u, h, Except.returns_pure _⟩⟩

/-- A request is decoded exactly when it is well formed. -/
theorem returns_decodeRequest {type : RequestType} :
    (decodeRequest py lib type payload).Returns ↔ WellFormedRequest lib type payload := by
  cases type with
  | optimStep => exact returns_request fun r => returns_then returns_check
  | saveState => exact returns_request fun r => returns_then returns_validateSaveOptions
  | loadState =>
    refine returns_request fun r => ?_
    cases r.optimizerConfig.isNull <;> simp
  | saveWeightsForSampler =>
    exact returns_request fun r => returns_then returns_validateSaveOptions
  | saveWeightsExternal =>
    refine returns_request fun r => ?_
    rw [Except.returns_bind]
    simp only [returns_then returns_validateAgeRecipients]
    constructor
    · rintro ⟨u, h, hvalid⟩
      exact ⟨returns_check.mp ⟨u, h⟩, hvalid⟩
    · rintro ⟨httl, hvalid⟩
      exact ⟨(), if_pos httl, hvalid⟩

theorem not_escapes_then {x : Checked Unit} {content : Content}
    (hx : ¬ x.Escapes isContentError) :
    ¬ (x >>= fun _ => pure content : Checked Content).Escapes isContentError :=
  Except.not_escapes_bind hx fun _ => Except.not_escapes_pure _

/-- When decoding a request lets an exception escape. -/
theorem escapes_decodeRequest {type : RequestType} :
    (decodeRequest py lib type payload).Escapes isContentError ↔
      EscapingRequest lib type payload := by
  unfold EscapingRequest
  cases type with
  | optimStep =>
    refine iff_of_false (Except.not_escapes_bind (not_escapes_validateAgainstSdk _ _) fun r => ?_)
      fun h => nomatch h.1
    exact not_escapes_then not_escapes_check
  | saveState =>
    refine iff_of_false (Except.not_escapes_bind (not_escapes_validateAgainstSdk _ _) fun r => ?_)
      fun h => nomatch h.1
    exact not_escapes_then (not_escapes_validateSaveOptions _ _)
  | loadState =>
    refine iff_of_false (Except.not_escapes_bind (not_escapes_validateAgainstSdk _ _) fun r => ?_)
      fun h => nomatch h.1
    cases r.optimizerConfig.isNull <;> simp
  | saveWeightsForSampler =>
    refine iff_of_false (Except.not_escapes_bind (not_escapes_validateAgainstSdk _ _) fun r => ?_)
      fun h => nomatch h.1
    exact not_escapes_then (not_escapes_validateSaveOptions _ _)
  | saveWeightsExternal =>
    rw [and_iff_right rfl]
    show (validateAgainstSdk lib.saveWeightsExternal payload >>= _).Escapes _ ↔ _
    rw [Except.escapes_bind, or_iff_right (not_escapes_validateAgainstSdk _ _)]
    refine exists_congr fun r => and_congr validateAgainstSdk_eq_ok ?_
    rw [Except.escapes_bind]
    constructor
    · rintro (h | ⟨u, httl, h⟩)
      · exact absurd h not_escapes_check
      rcases Except.escapes_bind.mp h with h | ⟨u, -, h⟩
      · exact ⟨returns_check.mp ⟨u, httl⟩, escapes_validateAgeRecipients.mp h⟩
      · exact absurd h (Except.not_escapes_pure _)
    · rintro ⟨httl, h⟩
      exact .inr ⟨(), if_pos httl, Except.escapes_bind.mpr
        (.inl (escapes_validateAgeRecipients.mpr h))⟩

/-- The content of an operation is decoded exactly when it is well formed. -/
theorem returns_decodeContent {op : WireOp} :
    (decodeContent py lib op payload).Returns ↔ WellFormed py lib op payload := by
  cases op with
  | forwardBackward =>
    show (decodeBatch py payload >>= _).Returns ↔ WellFormedBatch py payload
    rw [Except.returns_bind, ← returns_decodeBatch]
    exact ⟨fun ⟨c, h, _⟩ => ⟨c, h⟩, fun ⟨c, h⟩ => ⟨c, h, Except.returns_pure _⟩⟩
  | request type => exact returns_decodeRequest

/-- When decoding the content lets an exception escape. -/
theorem escapes_decodeContent {op : WireOp} :
    (decodeContent py lib op payload).Escapes isContentError ↔ Escaping py lib op payload := by
  cases op with
  | forwardBackward =>
    show (decodeBatch py payload >>= _).Escapes _ ↔ EscapingBatch py payload
    rw [Except.escapes_bind, escapes_decodeBatch]
    exact or_iff_left fun ⟨_, _, h⟩ => Except.not_escapes_pure _ h
  | request type => exact escapes_decodeRequest

/-- A command with an envelope is decoded, with a `validation_error` exactly if its content is
    not of the shape its op asks for, unless the content escapes. -/
theorem decodeCommand_total_iff (py : PyRuntime) (lib : Libraries) (op : WireOp)
    (payload : List (String × PyJson)) (modelId seqId : PyJson)
    (hmodel : payload.lookup "model_id" = some modelId)
    (hseq : payload.lookup "seq_id" = some seqId) :
    (∃ body, decodeCommand py lib op payload = .ok (commandOp op payload, ⟨modelId, seqId, body⟩) ∧
      ((∃ text, body = .error text) ↔ ¬ WellFormed py lib op (.obj payload))) ↔
    ¬ Escaping py lib op (.obj payload) := by
  unfold decodeCommand
  rw [hmodel, hseq, ← returns_decodeContent, ← escapes_decodeContent]
  dsimp only
  cases decodeContent py lib op (.obj payload) with
  | ok content =>
    refine iff_of_true ⟨.ok content, rfl, ?_⟩ (Except.not_escapes_ok _)
    simp
  | error e =>
    rw [Except.escapes_error]
    cases he : isContentError e with
    | true => exact iff_of_true ⟨.error (errorText py e), if_pos he, by simp⟩ (by simp)
    | false => simp [he]

/-- A runtime that shows the names of keys. -/
def plainRuntime : PyRuntime where
  repr v := match v with
    | .str s => "'" ++ s ++ "'"
    | _ => ""
  message _ := ""
  floatOfInt _ := 0
  floatOfStr _ := none
  listCapacity := 1000000

/-- Request models that accept nothing. -/
def noLibraries : Libraries where
  optimStep _ := .error ⟨[], "invalid"⟩
  saveState _ := .error ⟨[], "invalid"⟩
  loadState _ := .error ⟨[], "invalid"⟩
  saveWeightsForSampler _ := .error ⟨[], "invalid"⟩
  saveWeightsExternal _ := .error ⟨[], "invalid"⟩
  pyrage := none

/-- A `forward_backward` request around this input. -/
def batchRequest (fbInput : PyJson) : List (String × PyJson) :=
  [("model_id", .str "m"), ("seq_id", .int 1), ("forward_backward_input", fbInput)]

/-- A request without a loss function is decoded, with an error. -/
theorem decodeCommand_total_missingLoss :
    ∃ body, decodeCommand plainRuntime noLibraries .forwardBackward
        (batchRequest (.obj [("data", .arr [])])) =
      .ok (.forwardBackward, ⟨.str "m", .int 1, body⟩) ∧
      ((∃ text, body = .error text) ↔ ¬ WellFormed plainRuntime noLibraries .forwardBackward
        (.obj (batchRequest (.obj [("data", .arr [])])))) := by
  refine (decodeCommand_total_iff plainRuntime noLibraries .forwardBackward
    (batchRequest (.obj [("data", .arr [])])) (.str "m") (.int 1) rfl rfl).mpr ?_
  rintro ⟨fbInput, data, hfb, hdata, h⟩
  cases hfb
  cases hdata
  rcases h with h | ⟨-, h⟩
  · exact List.firstAt_nil h
  · exact List.firstAt_nil h

/-- A chunk that is a string, not an object. -/
def stringChunk : List (String × PyJson) :=
  batchRequest (.obj [("data", .arr [.obj [("model_input", .obj [("chunks", .arr [.str "x"])])]]),
    ("loss_fn", .str "cross_entropy")])

/-- No failure is made of a chunk that is no object: the exception leaves the decoder. -/
theorem decodeCommand_stringChunk :
    stringChunk.lookup "model_id" = some (.str "m") ∧ stringChunk.lookup "seq_id" = some (.int 1) ∧
      ¬ ∃ body, decodeCommand plainRuntime noLibraries .forwardBackward stringChunk =
        .ok (commandOp .forwardBackward stringChunk, ⟨.str "m", .int 1, body⟩) := by
  refine ⟨rfl, rfl, ?_⟩
  rintro ⟨body, h⟩
  have hraised : decodeCommand plainRuntime noLibraries .forwardBackward stringChunk =
      .error (.builtin .attribute) := rfl
  rw [hraised] at h
  cases h

end Miles.Tinker.Encoding
