import Miles.Native.Session.RequestArgs

/-!
# Renderer arguments along a path

The turns of a session path are rendered with the arguments of its first turn where those change
the rendered history: the fields a family keeps, the tools, and the thinking mode of DeepSeek.
-/

namespace Miles.RequestArgs

/-! ## Template kwargs of a request -/

@[simp] theorem templateKwargs_setKwargs (args kwargs : Args) :
    templateKwargs (setKwargs args kwargs) = .ok kwargs := by
  have hitems : PyDict.ofList kwargs.items = kwargs :=
    PyDict.ext_items (PyDict.items_ofList kwargs.nodup_keys)
  simp [templateKwargs, setKwargs, hitems]

theorem get?_setKwargs {args kwargs : Args} {key : String} (hkey : key ≠ "chat_template_kwargs") :
    (setKwargs args kwargs).get? key = args.get? key := by
  rw [setKwargs, PyDict.get?_set, if_neg hkey]

/-- Two requests are rendered alike: they have the same template kwargs and tools. -/
def SameRender (args args' : Args) : Prop :=
  args'.get? "chat_template_kwargs" = args.get? "chat_template_kwargs" ∧
    args'.get? "tools" = args.get? "tools"

theorem SameRender.trans {a b c : Args} (h : SameRender a b) (h' : SameRender b c) :
    SameRender a c :=
  ⟨h'.1.trans h.1, h'.2.trans h.2⟩

theorem SameRender.templateKwargs_eq {a b : Args} (h : SameRender a b) :
    templateKwargs b = templateKwargs a := by
  rw [templateKwargs, templateKwargs, h.1]

/-- The fields that say how a request is rendered. -/
def renderKeys : List String := ["chat_template_kwargs", "tools"]

/-- Setting another key renders alike. -/
theorem sameRender_set {args : Args} {key : String} {v : PyJson} (hkey : key ∉ renderKeys) :
    SameRender args (args.set key v) := by
  simp only [renderKeys, List.mem_cons, List.not_mem_nil, or_false, not_or] at hkey
  constructor
  · rw [PyDict.get?_set, if_neg (Ne.symm hkey.1)]
  · rw [PyDict.get?_set, if_neg (Ne.symm hkey.2)]

theorem sameRender_erase {args : Args} {key : String} (hkey : key ∉ renderKeys) :
    SameRender args (args.erase key) := by
  simp only [renderKeys, List.mem_cons, List.not_mem_nil, or_false, not_or] at hkey
  constructor
  · rw [PyDict.get?_erase, if_neg (Ne.symm hkey.1)]
  · rw [PyDict.get?_erase, if_neg (Ne.symm hkey.2)]

theorem sameRender_eraseAll {args : Args} {keys : List String}
    (hkeys : ∀ key ∈ renderKeys, key ∉ keys) : SameRender args (args.eraseAll keys) := by
  constructor
  · rw [PyDict.get?_eraseAll, if_neg (hkeys _ (by decide))]
  · rw [PyDict.get?_eraseAll, if_neg (hkeys _ (by decide))]

/-! ### Steps outside the model rules -/

variable {args args' : Args} {rt : Runtime}

/-- Asking for candidates renders alike. -/
theorem configureRolloutTopkLogprobsRequest_sameRender {config : SessionServerConfig}
    (h : configureRolloutTopkLogprobsRequest config args = .ok args') :
    SameRender args args' := by
  -- the sampling defaults are filled in first
  have hfill : ∀ (items : List (String × PyJson)) (args : Args),
      (∀ item ∈ items, item.1 ∉ renderKeys) →
      SameRender args (items.foldl (fun request item =>
        if (value? request item.1).isNone then request.set item.1 item.2 else request) args) := by
    intro items
    induction items with
    | nil => intro args _; exact ⟨rfl, rfl⟩
    | cons item items ih =>
      intro args hitems
      rw [List.forall_mem_cons] at hitems
      rw [List.foldl_cons]
      split
      · exact (sameRender_set hitems.1).trans (ih _ hitems.2)
      · exact ih _ hitems.2
  unfold configureRolloutTopkLogprobsRequest at h
  split at h
  · cases h
    exact ⟨rfl, rfl⟩
  · obtain ⟨_, _, h⟩ := Except.bind_eq_ok.mp h
    have hfilled := hfill [("temperature", .float config.rolloutTemperature),
      ("top_p", .float 0x3ff0000000000000), ("top_k", .int (-1)), ("min_p", .float 0)] args
      (by simp [renderKeys])
    split at h
    · cases h
      exact (hfilled.trans (sameRender_eraseAll (by decide))).trans (sameRender_set (by decide))
    · cases h
      exact (((hfilled.trans (sameRender_erase (by decide))).trans
        (sameRender_set (by decide))).trans (sameRender_set (by decide))).trans
          (sameRender_set (by decide))

/-- Asking for the replay outputs renders alike. -/
theorem resolveReplayOutputs_sameRender {config : SessionServerConfig}
    {evaluation : Bool} {defaults : SamplingDefaults} {replay : Bool}
    (h : resolveReplayOutputs rt config args evaluation defaults replay = .ok args') :
    SameRender args args' := by
  have herase : SameRender args (args.erase "sampling_logprobs_mode") :=
    sameRender_erase (by decide)
  unfold resolveReplayOutputs at h
  cases evaluation with
  | true =>
    cases h
    exact (((herase.trans (sameRender_set (by decide))).trans (sameRender_set (by decide))).trans
      (sameRender_set (by decide))).trans (sameRender_erase (by decide))
  | false =>
    obtain ⟨filled, hfilled, h⟩ := Except.bind_eq_ok.mp h
    obtain ⟨mask, _, h⟩ := Except.bind_eq_ok.mp h
    have hfilled := herase.trans
      (configureRolloutTopkLogprobsRequest_sameRender (Except.mapError_eq_ok.mp hfilled))
    cases mask with
    | true =>
      cases h
      exact hfilled.trans (sameRender_set (by decide))
    | false =>
      cases h
      exact hfilled.trans (sameRender_erase (by decide))

/-- What is recorded of a turn renders alike. -/
theorem recordedTurn_sameRender (body : Args) (inputIds : List Nat) (startLen : Option Nat) :
    SameRender body (recordedTurn body inputIds startLen) := by
  cases startLen with
  | none => exact sameRender_set (by decide)
  | some rows => exact (sameRender_set (by decide)).trans (sameRender_set (by decide))

theorem refuse_sameRender {key reason : String}
    (hkey : key ∉ renderKeys) (h : refuse rt args key reason = .ok args') :
    SameRender args args' := by
  unfold refuse at h
  split at h
  · cases h
  · cases h
    exact sameRender_erase hkey

theorem resolveLoraPath_sameRender {loraPath : Option String}
    (h : resolveLoraPath rt args loraPath = .ok args') : SameRender args args' := by
  cases loraPath with
  | none =>
    obtain ⟨_, _, h⟩ := Except.bind_eq_ok.mp h
    cases h
    exact sameRender_erase (by decide)
  | some path =>
    obtain ⟨_, _, h⟩ := Except.bind_eq_ok.mp h
    obtain ⟨_, _, h⟩ := Except.bind_eq_ok.mp h
    cases h
    exact sameRender_set (by decide)

theorem refuseStartLen_sameRender {evaluation : Bool}
    (h : refuseStartLen rt args evaluation = .ok args') : SameRender args args' := by
  cases evaluation with
  | true =>
    cases h
    exact sameRender_erase (by decide)
  | false => exact refuse_sameRender (by decide) h

/-- The rules of the launch configuration render alike. -/
theorem resolveRequestArgsByConfig_sameRender
    {config : SessionServerConfig} {evaluation : Bool} {intent : ClientResponseIntent}
    (h : resolveRequestArgsByConfig rt args config evaluation = .ok (args', intent)) :
    SameRender args args' := by
  obtain ⟨lora, hlora, h⟩ := Except.bind_eq_ok.mp h
  obtain ⟨withoutIds, hids, h⟩ := Except.bind_eq_ok.mp h
  obtain ⟨withoutStart, hstart, h⟩ := Except.bind_eq_ok.mp h
  obtain ⟨withoutLogprob, hlogprob, h⟩ := Except.bind_eq_ok.mp h
  obtain ⟨_, _, h⟩ := Except.bind_eq_ok.mp h
  cases h
  -- the server's own fields, then the fields that a client may not set
  have hserver := ((((sameRender_set (by decide)).trans (sameRender_set (by decide))).trans
    (sameRender_set (by decide))).trans (sameRender_set (by decide))).trans
      ((sameRender_set (by decide)).trans (resolveLoraPath_sameRender hlora))
  have hrefused := ((hserver.trans (refuse_sameRender (by decide) hids)).trans
    (refuseStartLen_sameRender hstart)).trans (refuse_sameRender (by decide) hlogprob)
  exact (hrefused.trans (sameRender_erase (by decide))).trans (sameRender_erase (by decide))

theorem fillDefault_sameRender {key : String} {value : PyJson}
    {evaluation : Bool} (hkey : key ∉ renderKeys)
    (h : fillDefault rt args key value evaluation = .ok args') : SameRender args args' := by
  unfold fillDefault at h
  split at h
  · cases h
    exact sameRender_set hkey
  · split at h
    · cases h
    · cases h
      exact ⟨rfl, rfl⟩

/-- The sampling defaults render alike. -/
theorem applySessionSamplingDefaults_sameRender
    {defaults : SamplingDefaults} {evaluation : Bool}
    (h : applySessionSamplingDefaults rt args defaults evaluation = .ok args') :
    SameRender args args' := by
  have hkeys : ∀ item ∈ defaults.items, item.1 ∉ renderKeys := by
    intro item hitem
    simp only [SamplingDefaults.items, List.mem_append, Option.mem_toList, Option.map_eq_some_iff]
      at hitem
    obtain (⟨x, -, rfl⟩ | ⟨x, -, rfl⟩) | ⟨n, -, rfl⟩ := hitem <;> simp [renderKeys]
  have hloop : ∀ (items : List (String × PyJson)) (args : Args),
      (∀ item ∈ items, item.1 ∉ renderKeys) →
      items.foldlM (fun args item => fillDefault rt args item.1 item.2 evaluation) args =
        .ok args' → SameRender args args' := by
    intro items
    induction items with
    | nil =>
      intro args _ h
      cases h
      exact ⟨rfl, rfl⟩
    | cons item items ih =>
      intro args hitems h
      rw [List.forall_mem_cons] at hitems
      obtain ⟨next, hnext, h⟩ := Except.bind_eq_ok.mp h
      exact (fillDefault_sameRender hitems.1 hnext).trans (ih next hitems.2 h)
  exact hloop defaults.items args hkeys h

/-- A prepared request is what the model rules resolved, up to fields that are not rendered. -/
theorem prepareChatRequest_eq_ok {tok : TITOTokenizer}
    {config : SessionServerConfig} {request : ChatRequest} {turn : Option Args}
    {p : PreparedChatRequest} (h : prepareChatRequest rt tok config request turn = .ok p) :
    ∃ source args, SameRender request.clientArgs source ∧
      tok.resolveRequestArgs rt source turn = .ok args ∧ SameRender args p.body ∧
      extractTemplateArgs p.body = .ok p.templateArgs := by
  obtain ⟨⟨served, intent⟩, hserved, h⟩ := Except.bind_eq_ok.mp h
  obtain ⟨source, hsource, h⟩ := Except.bind_eq_ok.mp h
  obtain ⟨args, hargs, h⟩ := Except.bind_eq_ok.mp h
  obtain ⟨resolved, hresolved, h⟩ := Except.bind_eq_ok.mp h
  obtain ⟨templateArgs, hextract, h⟩ := Except.bind_eq_ok.mp h
  cases h
  have hsource := (resolveRequestArgsByConfig_sameRender hserved).trans
    (applySessionSamplingDefaults_sameRender hsource)
  refine ⟨source, args, hsource, Except.mapError_eq_ok.mp hargs, ?_, hextract⟩
  · have hstore := (resolveReplayOutputs_sameRender hresolved).trans
      (@sameRender_erase resolved outputStoreRequestKey (by decide))
    show SameRender args (if _ then _ else _)
    split
    · exact hstore.trans (sameRender_set (by decide))
    · exact hstore

/-! ## The model rules -/

/-- Two tool lists are the same up to `extract_tool_dicts`. -/
def SameTools (rt : Runtime) (tools others : PyJson) : Prop :=
  tools = others ∨ ∃ x y, extractToolDicts rt tools = .ok x ∧ extractToolDicts rt others = .ok y ∧
    toolsEq x y = true

theorem toolsEq_trans {x y z : Option (List PyJson)} (hxy : toolsEq x y = true)
    (hyz : toolsEq y z = true) : toolsEq x z = true := by
  cases x <;> cases y <;> cases z <;> simp only [toolsEq, Bool.false_eq_true] at hxy hyz ⊢
  rename_i xs ys zs
  have harr : PyJson.pyEq (.arr xs) (.arr zs) = true :=
    PyJson.pyEq_trans (v := .arr ys) hxy hyz
  exact harr

/-- Having the same tools is transitive. -/
theorem SameTools.trans {a b c : PyJson} (hab : SameTools rt a b)
    (hbc : SameTools rt b c) : SameTools rt a c := by
  rcases hab with rfl | ⟨x, y, hx, hy, hxy⟩
  · exact hbc
  rcases hbc with rfl | ⟨y', z, hy', hz, hyz⟩
  · exact .inr ⟨x, y, hx, hy, hxy⟩
  · rw [hy] at hy'
    cases hy'
    exact .inr ⟨x, z, hx, hz, toolsEq_trans hxy hyz⟩

/-- DeepSeek's thinking mode is under its canonical name only. -/
structure Canonical (thinking : Bool) (kwargs : Args) : Prop where
  thinking_eq : kwargs.get? "thinking" = some (.bool thinking)
  thinkingMode_eq : kwargs.get? "thinking_mode" = none
  enableThinking_eq : kwargs.get? "enable_thinking" = none

theorem Canonical.of_aliases {b : Bool} {kwargs kwargs' : Args} (h : Canonical b kwargs)
    (heq : ∀ key ∈ DeepSeek.modeKwargAliases, kwargs'.get? key = kwargs.get? key) :
    Canonical b kwargs' where
  thinking_eq := by rw [heq _ (by decide), h.thinking_eq]
  thinkingMode_eq := by rw [heq _ (by decide), h.thinkingMode_eq]
  enableThinking_eq := by rw [heq _ (by decide), h.enableThinking_eq]

theorem Canonical.get?_eq {b : Bool} {kwargs kwargs' : Args} (h : Canonical b kwargs)
    (h' : Canonical b kwargs') (key : String) (hkey : key ∈ DeepSeek.modeKwargAliases) :
    kwargs.get? key = kwargs'.get? key := by
  simp only [DeepSeek.modeKwargAliases, List.mem_cons, List.not_mem_nil, or_false] at hkey
  obtain rfl | rfl | rfl := hkey
  · rw [h.thinkingMode_eq, h'.thinkingMode_eq]
  · rw [h.enableThinking_eq, h'.enableThinking_eq]
  · rw [h.thinking_eq, h'.thinking_eq]

/-- The canonical flag is the mode that is rendered. -/
theorem Canonical.renderThinkingEnabled_eq {b : Bool} {kwargs : Args} (h : Canonical b kwargs) :
    DeepSeek.renderThinkingEnabled kwargs = b := by
  cases b <;>
    simp [DeepSeek.renderThinkingEnabled, DeepSeek.buildEncodeConfig, DeepSeek.defaultMode, value?,
      h.thinking_eq, h.thinkingMode_eq, h.enableThinking_eq, PyJson.truthy, PyJson.isText]

/-- The families' own settings do not meet: a kept field is neither forced nor the tools, and
    DeepSeek neither keeps nor forces a name of the thinking mode. -/
theorem fixedTemplate_disjoint (type : TITOTokenizerType) :
    (∀ key ∈ type.fixedTemplate.consistantKwargs,
      type.fixedTemplate.extraKwargs.get? key = none ∧ key ≠ "tools" ∧
        (type.isDeepSeek = true → key ∉ DeepSeek.modeKwargAliases)) ∧
    type.fixedTemplate.extraKwargs.get? "tools" = none ∧
    (type.isDeepSeek = true → ∀ key ∈ DeepSeek.modeKwargAliases,
      type.fixedTemplate.extraKwargs.get? key = none) := by
  cases type <;> decide

section
variable {rt : Runtime} {tok : TITOTokenizer} {args args' source : Args} {turn : Option Args}

/-- A family's rule changes the template kwargs only, and no tools are among them. -/
theorem resolveTemplateKwargs_eq_ok
    (h : tok.resolveTemplateKwargs args source turn = .ok args') :
    ∃ kwargs, args' = setKwargs args kwargs ∧ kwargs.get? "tools" = none := by
  obtain ⟨past, hpast, h⟩ := Except.bind_eq_ok.mp h
  obtain ⟨asked, hasked, h⟩ := Except.bind_eq_ok.mp h
  cases h
  exact ⟨_, rfl, by simp⟩

/-- Tools come from the request where it has some and they are the recorded ones, and from the
    recorded turn where it has none. -/
theorem resolveTools_eq_ok {turnArgs : Args}
    (h : tok.resolveTools rt args source (some turnArgs) = .ok args') :
    ∃ tools, args' = args.set "tools" tools ∧ SameTools rt tools (turnArgs.getD "tools" .null) ∧
      ((orNone source "tools").truthy = true → tools = orNone source "tools") := by
  simp only [TITOTokenizer.resolveTools] at h
  split at h
  · rename_i hnull
    cases h
    refine ⟨_, rfl, .inl rfl, fun htruthy => ?_⟩
    cases htools : orNone source "tools" <;> simp [htools, PyJson.isNull, PyJson.truthy] at *
  · obtain ⟨x, hx, h⟩ := Except.bind_eq_ok.mp h
    obtain ⟨y, hy, h⟩ := Except.bind_eq_ok.mp h
    split at h
    · rename_i heq
      cases h
      exact ⟨_, rfl, .inr ⟨x, y, hx, hy, heq⟩, fun _ => rfl⟩
    · cases h

/-- The consistent kwargs come from the recorded turn, present or absent. -/
theorem resolveHistoryArgs_eq_ok {turnArgs recorded kwargs : Args}
    (hrecorded : templateKwargs turnArgs = .ok recorded) (hkwargs : templateKwargs args = .ok kwargs)
    (h : tok.resolveHistoryArgs args source (some turnArgs) = .ok args') :
    ∃ kwargs', args' = setKwargs args kwargs' ∧ ∀ key, kwargs'.get? key =
      if key ∈ tok.type.fixedTemplate.consistantKwargs then recorded.get? key
      else kwargs.get? key := by
  simp only [TITOTokenizer.resolveHistoryArgs, hrecorded, hkwargs, Except.ok_bind] at h
  cases h
  refine ⟨_, rfl, fun key => ?_⟩
  rw [PyDict.get?_update, PyDict.get?_restrict, PyDict.get?_eraseAll]
  split
  · simp
  · rfl

/-- The fixed template overrides the kwargs that it has. -/
theorem applyFixedTemplateKwargs_eq_ok {kwargs : Args} (hkwargs : templateKwargs args = .ok kwargs)
    (h : tok.applyFixedTemplateKwargs args source turn = .ok args') :
    ∃ kwargs', templateKwargs args' = .ok kwargs' ∧ args'.get? "tools" = args.get? "tools" ∧
      ∀ key, kwargs'.get? key =
        (tok.type.fixedTemplate.extraKwargs.get? key).or (kwargs.get? key) := by
  unfold TITOTokenizer.applyFixedTemplateKwargs at h
  split at h
  · rename_i hsize
    cases h
    have hitems : tok.type.fixedTemplate.extraKwargs.items = [] := List.length_eq_zero_iff.mp hsize
    refine ⟨kwargs, hkwargs, rfl, fun key => ?_⟩
    rw [← PyDict.lookup_items tok.type.fixedTemplate.extraKwargs, hitems]
    rfl
  · rw [hkwargs] at h
    cases h
    exact ⟨_, templateKwargs_setKwargs .., get?_setKwargs (by decide), fun key =>
      PyDict.get?_update ..⟩

/-- The thinking mode is spelt in all its aliases. -/
theorem resolveThinking_eq_ok {kwargs : Args} (hkwargs : templateKwargs args = .ok kwargs)
    (h : DeepSeek.resolveThinking args source turn = .ok args') :
    ∃ kwargs', templateKwargs args' = .ok kwargs' ∧ args'.get? "tools" = args.get? "tools" ∧
      Canonical (DeepSeek.renderThinkingEnabled kwargs) kwargs' ∧
      ∀ key ∉ DeepSeek.modeKwargAliases, kwargs'.get? key = kwargs.get? key := by
  simp only [DeepSeek.resolveThinking, hkwargs, Except.ok_bind] at h
  cases h
  refine ⟨_, templateKwargs_setKwargs .., get?_setKwargs (by decide), ⟨?_, ?_, ?_⟩, ?_⟩
  · simp
  · simp [DeepSeek.modeKwargAliases]
  · simp [DeepSeek.modeKwargAliases]
  · intro key hkey
    have hne : key ≠ "thinking" := fun he => hkey (he ▸ by decide)
    simp [hkey, hne]

theorem modeOf_get?_eq_none {sources : List Args} {key : String}
    (hkey : key ∉ DeepSeek.modeKwargAliases) : (DeepSeek.modeOf sources).get? key = none := by
  induction sources with
  | nil => rfl
  | cons source sources ih =>
    rw [DeepSeek.modeOf]
    split
    · exact ih
    · simp [hkey]

/-- A recorded mode wins over what the request and the launch ask for. -/
theorem deepSeek_resolveTemplateKwargs_eq_ok
    (h : DeepSeek.resolveTemplateKwargs tok args source turn = .ok args') :
    ∃ kwargs, templateKwargs args' = .ok kwargs ∧ args'.get? "tools" = args.get? "tools" ∧
      kwargs.get? "tools" = none ∧
      ∀ recorded b, turnKwargs turn = .ok recorded → Canonical b recorded → Canonical b kwargs := by
  obtain ⟨merged, hmerged, h⟩ := Except.bind_eq_ok.mp h
  obtain ⟨past, hpast, h⟩ := Except.bind_eq_ok.mp h
  obtain ⟨asked, hasked, h⟩ := Except.bind_eq_ok.mp h
  obtain ⟨kwargs, rfl, htools⟩ := resolveTemplateKwargs_eq_ok hmerged
  rw [templateKwargs_setKwargs, Except.ok_bind] at h
  cases h
  refine ⟨_, templateKwargs_setKwargs .., ?_, ?_, fun recorded b hrecorded hcanonical => ?_⟩
  · rw [get?_setKwargs (by decide), get?_setKwargs (by decide)]
  · rw [PyDict.get?_update, modeOf_get?_eq_none (by decide), PyDict.get?_eraseAll, htools]
    simp
  · rw [hpast] at hrecorded
    cases hrecorded
    -- the recorded turn sets the mode, so the search ends there
    have hmode : DeepSeek.modeOf [past, asked, tok.chatTemplateKwargs] =
        past.restrict DeepSeek.modeKwargAliases := by
      rw [DeepSeek.modeOf, if_neg]
      intro hnil
      have hthinking : (past.restrict DeepSeek.modeKwargAliases).get? "thinking" =
          some (.bool b) := by
        rw [PyDict.get?_restrict, if_pos (by decide), hcanonical.thinking_eq]
      rw [← PyDict.lookup_items, hnil] at hthinking
      cases hthinking
    refine hcanonical.of_aliases fun key hkey => ?_
    rw [hmode, PyDict.get?_update, PyDict.get?_restrict, PyDict.get?_eraseAll, if_pos hkey,
      if_pos hkey]
    simp

theorem templateKwargs_set (args : Args) {key : String} (v : PyJson) (hkey : key ≠ "chat_template_kwargs") :
    templateKwargs (args.set key v) = templateKwargs args := by
  rw [templateKwargs, templateKwargs, PyDict.get?_set, if_neg hkey.symm]

/-! ### All rules -/

/-- The rules for tools, history and fixed kwargs, which every family has. -/
theorem sharedRules_eq_ok {turnArgs recorded kwargs args₂ args₃ : Args}
    (hrecorded : templateKwargs turnArgs = .ok recorded) (hkwargs : templateKwargs args = .ok kwargs)
    (h₂ : tok.resolveTools rt args source (some turnArgs) = .ok args₂)
    (h₃ : tok.resolveHistoryArgs args₂ source (some turnArgs) = .ok args₃)
    (h₄ : tok.applyFixedTemplateKwargs args₃ source (some turnArgs) = .ok args') :
    ∃ kwargs', templateKwargs args' = .ok kwargs' ∧
      (∀ key, kwargs'.get? key = (tok.type.fixedTemplate.extraKwargs.get? key).or
        (if key ∈ tok.type.fixedTemplate.consistantKwargs then recorded.get? key
          else kwargs.get? key)) ∧
      SameTools rt (args'.getD "tools" .null) (turnArgs.getD "tools" .null) ∧
      ((orNone source "tools").truthy = true → args'.getD "tools" .null = orNone source "tools") := by
  obtain ⟨tools, rfl, hsame, hasked⟩ := resolveTools_eq_ok h₂
  have hkwargs₂ : templateKwargs (args.set "tools" tools) = .ok kwargs :=
    (templateKwargs_set args tools (by decide)).trans hkwargs
  obtain ⟨kwargs₃, rfl, hhistory⟩ := resolveHistoryArgs_eq_ok hrecorded hkwargs₂ h₃
  obtain ⟨kwargs₄, hkwargs₄, htools, hfixed⟩ :=
    applyFixedTemplateKwargs_eq_ok (templateKwargs_setKwargs ..) h₄
  have hget : args'.getD "tools" .null = tools := by
    rw [PyDict.getD, htools, get?_setKwargs (by decide), PyDict.get?_set, if_pos rfl]
    rfl
  refine ⟨kwargs₄, hkwargs₄, fun key => ?_, ?_, ?_⟩
  · rw [hfixed, hhistory]
  · rw [hget]
    exact hsame
  · rw [hget]
    exact hasked

/-- The kept fields, the tools and the thinking mode of a continued turn are the recorded ones. -/
theorem resolveRequestArgs_continues {turnArgs recorded : Args}
    (hrecorded : templateKwargs turnArgs = .ok recorded) (htools : recorded.get? "tools" = none)
    (h : tok.resolveRequestArgs rt source (some turnArgs) = .ok args) :
    ∃ kwargs, templateKwargs args = .ok kwargs ∧ kwargs.get? "tools" = none ∧
      (∀ key ∈ tok.type.fixedTemplate.consistantKwargs, kwargs.get? key = recorded.get? key) ∧
      (tok.type.isDeepSeek = true → ∀ b, Canonical b recorded → Canonical b kwargs) ∧
      SameTools rt (args.getD "tools" .null) (turnArgs.getD "tools" .null) ∧
      ((orNone source "tools").truthy = true → args.getD "tools" .null = orNone source "tools") := by
  obtain ⟨hkept, hforced, haliases⟩ := fixedTemplate_disjoint tok.type
  cases hfamily : tok.type.isDeepSeek with
  | false =>
    simp only [TITOTokenizer.resolveRequestArgs, TITOTokenizer.requestArgRules, hfamily,
      Bool.false_eq_true, if_false, List.foldlM_cons, List.foldlM_nil] at h
    obtain ⟨args₁, h₁, h⟩ := Except.bind_eq_ok.mp h
    obtain ⟨args₂, h₂, h⟩ := Except.bind_eq_ok.mp h
    obtain ⟨args₃, h₃, h⟩ := Except.bind_eq_ok.mp h
    obtain ⟨args₄, h₄, h⟩ := Except.bind_eq_ok.mp h
    cases h
    obtain ⟨kwargs₁, rfl, htools₁⟩ := resolveTemplateKwargs_eq_ok h₁
    obtain ⟨kwargs, hkwargs, hget, hsame, hasked⟩ :=
      sharedRules_eq_ok hrecorded (templateKwargs_setKwargs ..) h₂ h₃ h₄
    refine ⟨kwargs, hkwargs, ?_, fun key hkey => ?_, fun h => (by cases h), hsame, hasked⟩
    · rw [hget, hforced, htools, htools₁]
      simp
    · rw [hget, (hkept key hkey).1, if_pos hkey]
      rfl
  | true =>
    simp only [TITOTokenizer.resolveRequestArgs, TITOTokenizer.requestArgRules, hfamily,
      if_true, List.foldlM_cons, List.foldlM_nil] at h
    obtain ⟨args₁, h₁, h⟩ := Except.bind_eq_ok.mp h
    obtain ⟨args₂, h₂, h⟩ := Except.bind_eq_ok.mp h
    obtain ⟨args₃, h₃, h⟩ := Except.bind_eq_ok.mp h
    obtain ⟨args₄, h₄, h⟩ := Except.bind_eq_ok.mp h
    obtain ⟨args₅, h₅, h⟩ := Except.bind_eq_ok.mp h
    cases h
    obtain ⟨kwargs₁, hkwargs₁, -, htools₁, hmode⟩ := deepSeek_resolveTemplateKwargs_eq_ok h₁
    obtain ⟨kwargs₄, hkwargs₄, hget, hsame, hasked⟩ := sharedRules_eq_ok hrecorded hkwargs₁ h₂ h₃ h₄
    obtain ⟨kwargs, hkwargs, htools₅, hcanonical, hother⟩ := resolveThinking_eq_ok hkwargs₄ h₅
    have htoolsArgs : args.getD "tools" .null = args₄.getD "tools" .null := by
      rw [PyDict.getD, htools₅, PyDict.getD]
    rw [htoolsArgs]
    refine ⟨kwargs, hkwargs, ?_, fun key hkey => ?_, fun _ b hb => ?_, hsame, hasked⟩
    · rw [hother _ (by decide), hget, hforced, htools, htools₁]
      simp
    · obtain ⟨hforcedKey, -, halias⟩ := hkept key hkey
      rw [hother key (halias hfamily), hget, hforcedKey, if_pos hkey]
      rfl
    · -- no rule between the two that set the mode touches it
      have hb₁ := hmode recorded b hrecorded hb
      have hb₄ : Canonical b kwargs₄ := hb₁.of_aliases fun key hkey => by
        have hnot : key ∉ tok.type.fixedTemplate.consistantKwargs :=
          fun hmem => (hkept key hmem).2.2 hfamily hkey
        rw [hget, haliases hfamily key hkey, if_neg hnot]
        rfl
      rw [hb₄.renderThinkingEnabled_eq] at hcanonical
      exact hcanonical

/-- A first turn leaves no tools in the kwargs and, for DeepSeek, a canonical mode. -/
theorem resolveRequestArgs_root (h : tok.resolveRequestArgs rt source none = .ok args) :
    ∃ kwargs, templateKwargs args = .ok kwargs ∧ kwargs.get? "tools" = none ∧
      (tok.type.isDeepSeek = true → ∃ b, Canonical b kwargs) := by
  obtain ⟨hkept, hforced, haliases⟩ := fixedTemplate_disjoint tok.type
  cases hfamily : tok.type.isDeepSeek with
  | false =>
    simp only [TITOTokenizer.resolveRequestArgs, TITOTokenizer.requestArgRules, hfamily,
      Bool.false_eq_true, if_false, List.foldlM_cons, List.foldlM_nil] at h
    obtain ⟨args₁, h₁, h⟩ := Except.bind_eq_ok.mp h
    obtain ⟨args₂, h₂, h⟩ := Except.bind_eq_ok.mp h
    obtain ⟨args₃, h₃, h⟩ := Except.bind_eq_ok.mp h
    obtain ⟨args₄, h₄, h⟩ := Except.bind_eq_ok.mp h
    cases h
    obtain ⟨kwargs₁, rfl, htools₁⟩ := resolveTemplateKwargs_eq_ok h₁
    cases h₂
    cases h₃
    obtain ⟨kwargs, hkwargs, _, hget⟩ := applyFixedTemplateKwargs_eq_ok
      ((templateKwargs_set _ _ (by decide)).trans (templateKwargs_setKwargs source kwargs₁)) h₄
    exact ⟨kwargs, hkwargs, by rw [hget, hforced, htools₁]; rfl, fun h => (by cases h)⟩
  | true =>
    simp only [TITOTokenizer.resolveRequestArgs, TITOTokenizer.requestArgRules, hfamily,
      if_true, List.foldlM_cons, List.foldlM_nil] at h
    obtain ⟨args₁, h₁, h⟩ := Except.bind_eq_ok.mp h
    obtain ⟨args₂, h₂, h⟩ := Except.bind_eq_ok.mp h
    obtain ⟨args₃, h₃, h⟩ := Except.bind_eq_ok.mp h
    obtain ⟨args₄, h₄, h⟩ := Except.bind_eq_ok.mp h
    obtain ⟨args₅, h₅, h⟩ := Except.bind_eq_ok.mp h
    cases h
    obtain ⟨kwargs₁, hkwargs₁, -, htools₁, -⟩ := deepSeek_resolveTemplateKwargs_eq_ok h₁
    cases h₂
    cases h₃
    obtain ⟨kwargs₄, hkwargs₄, _, hget⟩ :=
      applyFixedTemplateKwargs_eq_ok ((templateKwargs_set _ _ (by decide)).trans hkwargs₁) h₄
    obtain ⟨kwargs, hkwargs, -, hcanonical, hother⟩ := resolveThinking_eq_ok hkwargs₄ h₅
    refine ⟨kwargs, hkwargs, ?_, fun _ => ⟨_, hcanonical⟩⟩
    rw [hother _ (by decide), hget, hforced, htools₁]
    rfl

end

/-! ## Turns of a path -/

section
variable {rt : Runtime} {tok : TITOTokenizer} {config : SessionServerConfig}
  {request : ChatRequest} {p q first : PreparedChatRequest}

/-- The tools a turn is rendered with. -/
def PreparedChatRequest.tools (p : PreparedChatRequest) : PyJson :=
  p.templateArgs.getD "tools" .null

/-- What is known of the body and the template args of every turn. -/
structure Turn (tok : TITOTokenizer) (p : PreparedChatRequest) (kwargs : Args) : Prop where
  kwargs_eq : templateKwargs p.body = .ok kwargs
  tools_eq : kwargs.get? "tools" = none
  canonical : tok.type.isDeepSeek = true → ∃ b, Canonical b kwargs
  templateArgs_eq : extractTemplateArgs p.body = .ok p.templateArgs

/-- The renderer gets the kwargs of the body, and its tools. -/
theorem Turn.get?_templateArgs {kwargs : Args} (h : Turn tok p kwargs) {key : String}
    (hkey : key ≠ "tools") : p.templateArgs.get? key = kwargs.get? key := by
  have hargs := h.templateArgs_eq
  rw [extractTemplateArgs, h.kwargs_eq, Except.ok_bind] at hargs
  rw [← Except.ok.inj hargs]
  split
  · rw [PyDict.get?_set, if_neg hkey]
  · rfl

theorem Turn.tools_templateArgs {kwargs : Args} (h : Turn tok p kwargs) :
    p.tools = orNone p.body "tools" := by
  have hargs := h.templateArgs_eq
  rw [extractTemplateArgs, h.kwargs_eq, Except.ok_bind] at hargs
  rw [PreparedChatRequest.tools, ← Except.ok.inj hargs, PyDict.getD]
  split
  · rw [PyDict.get?_set, if_pos rfl]
    rfl
  · rename_i hfalse
    rw [h.tools_eq]
    cases htools : p.body.get? "tools" with
    | none => simp [orNone, htools]
    | some v => simp_all [orNone, truthyAt]

theorem orNone_eq (args : Args) (key : String) : orNone args key =
    if (args.getD key .null).truthy then args.getD key .null else .null := by
  rw [orNone, PyDict.getD]
  cases args.get? key with
  | none => rfl
  | some v => rfl

theorem extractToolDicts_orNone (args : Args) :
    extractToolDicts rt (orNone args "tools") =
      extractToolDicts rt (args.getD "tools" .null) := by
  rw [orNone_eq]
  split
  · rfl
  · rename_i hfalse
    rw [extractToolDicts, extractToolDicts, if_neg hfalse]
    rfl

theorem SameTools.orNone
    (h : SameTools rt (args.getD "tools" .null) (args'.getD "tools" .null)) :
    SameTools rt (RequestArgs.orNone args "tools") (RequestArgs.orNone args' "tools") := by
  rcases h with heq | ⟨x, y, hx, hy, hxy⟩
  · left
    rw [orNone_eq, orNone_eq, heq]
  · right
    refine ⟨x, y, ?_, ?_, hxy⟩
    · rw [extractToolDicts_orNone, hx]
    · rw [extractToolDicts_orNone, hy]

/-- A turn is rendered like the first one in all that the rendered history depends on. -/
structure RendersAlike (rt : Runtime) (tok : TITOTokenizer) (first p : PreparedChatRequest) :
    Prop where
  /-- the kept fields have the same values, or are absent from both -/
  kept : ∀ key ∈ tok.type.fixedTemplate.consistantKwargs,
    p.templateArgs.get? key = first.templateArgs.get? key
  tools : SameTools rt p.tools first.tools
  thinkingKeys : tok.type.isDeepSeek = true → ∀ key ∈ DeepSeek.modeKwargAliases,
    p.templateArgs.get? key = first.templateArgs.get? key
  thinking : tok.type.isDeepSeek = true →
    DeepSeek.renderThinkingEnabled p.templateArgs =
      DeepSeek.renderThinkingEnabled first.templateArgs

theorem RendersAlike.refl : RendersAlike rt tok p p :=
  ⟨fun _ _ => rfl, .inl rfl, fun _ _ _ => rfl, fun _ => rfl⟩

/-- Rendering alike is transitive along a path. -/
theorem RendersAlike.trans (h : RendersAlike rt tok first p) (h' : RendersAlike rt tok p q) :
    RendersAlike rt tok first q where
  kept key hkey := (h'.kept key hkey).trans (h.kept key hkey)
  tools := h'.tools.trans h.tools
  thinkingKeys hfamily key hkey :=
    (h'.thinkingKeys hfamily key hkey).trans (h.thinkingKeys hfamily key hkey)
  thinking hfamily := (h'.thinking hfamily).trans (h.thinking hfamily)

/-- The first request of a path is a turn. -/
theorem turn_of_root (h : prepareChatRequest rt tok config request none = .ok p) :
    ∃ kwargs, Turn tok p kwargs := by
  obtain ⟨source, args, -, hargs, hbody, hextract⟩ := prepareChatRequest_eq_ok h
  obtain ⟨kwargs, hkwargs, htools, hcanonical⟩ := resolveRequestArgs_root hargs
  exact ⟨kwargs, hbody.templateKwargs_eq.trans hkwargs, htools, hcanonical, hextract⟩

theorem SameRender.getD_tools (h : SameRender args args') :
    args'.getD "tools" .null = args.getD "tools" .null := by
  rw [PyDict.getD, PyDict.getD, h.2]

theorem SameRender.orNone_tools (h : SameRender args args') :
    orNone args' "tools" = orNone args "tools" := by
  rw [orNone, orNone, h.2]

/-- One turn: what is kept is that of the turn it continues, and tools that the request names are
    the ones that are rendered. -/
theorem turn_of_continued {kwargs : Args} {inputIds : List Nat} {startLen : Option Nat}
    (hp : Turn tok p kwargs)
    (h : prepareChatRequest rt tok config request
      (some (recordedTurn p.body inputIds startLen)) = .ok q) :
    (∃ kwargs', Turn tok q kwargs') ∧ RendersAlike rt tok p q ∧
      ((orNone request.clientArgs "tools").truthy = true →
        q.tools = orNone request.clientArgs "tools") := by
  obtain ⟨source, args, hsource, hargs, hbody, hextract⟩ := prepareChatRequest_eq_ok h
  have hrecorded := recordedTurn_sameRender p.body inputIds startLen
  obtain ⟨kwargs', hkwargs', htools, hkept, hcanonical, hsame, hasked⟩ :=
    resolveRequestArgs_continues (hrecorded.templateKwargs_eq.trans hp.kwargs_eq) hp.tools_eq hargs
  have hq : Turn tok q kwargs' :=
    { kwargs_eq := hbody.templateKwargs_eq.trans hkwargs'
      tools_eq := htools
      canonical := fun hfamily =>
        (hp.canonical hfamily).imp fun b hb => hcanonical hfamily b hb
      templateArgs_eq := hextract }
  rw [hrecorded.getD_tools, ← hbody.getD_tools] at hsame
  rw [hsource.orNone_tools, ← hbody.getD_tools] at hasked
  -- the renderer gets the kwargs of the bodies
  have hget : ∀ key, key ≠ "tools" → kwargs'.get? key = kwargs.get? key →
      q.templateArgs.get? key = p.templateArgs.get? key := by
    intro key hkey heq
    rw [hq.get?_templateArgs hkey, hp.get?_templateArgs hkey, heq]
  have hthinking : tok.type.isDeepSeek = true →
      ∃ b, Canonical b p.templateArgs ∧ Canonical b q.templateArgs := by
    intro hfamily
    obtain ⟨b, hb⟩ := hp.canonical hfamily
    have hne : ∀ key ∈ DeepSeek.modeKwargAliases, key ≠ "tools" := by decide
    exact ⟨b, hb.of_aliases fun key hkey => hp.get?_templateArgs (hne key hkey),
      (hcanonical hfamily b hb).of_aliases fun key hkey => hq.get?_templateArgs (hne key hkey)⟩
  refine ⟨⟨kwargs', hq⟩, ⟨fun key hkey => ?_, ?_, fun hfamily key hkey => ?_, fun hfamily => ?_⟩,
    fun htruthy => ?_⟩
  · exact hget key ((fixedTemplate_disjoint tok.type).1 key hkey).2.1 (hkept key hkey)
  · rw [hq.tools_templateArgs, hp.tools_templateArgs]
    exact hsame.orNone
  · obtain ⟨b, hb, hb'⟩ := hthinking hfamily
    exact hb'.get?_eq hb key hkey
  · obtain ⟨b, hb, hb'⟩ := hthinking hfamily
    rw [hb.renderThinkingEnabled_eq, hb'.renderThinkingEnabled_eq]
  · rw [hq.tools_templateArgs, orNone_eq, hasked htruthy, if_pos htruthy]

/-! ## Paths -/

/-- The turns that continue a first turn, in any number of steps. -/
inductive Path (rt : Runtime) (tok : TITOTokenizer) (config : SessionServerConfig)
    (first : PreparedChatRequest) : PreparedChatRequest → Prop
  | first (request : ChatRequest)
      (h : prepareChatRequest rt tok config request none = .ok first) : Path rt tok config first first
  | next {p q : PreparedChatRequest} (request : ChatRequest) (inputIds : List Nat)
      (startLen : Option Nat) (hp : Path rt tok config first p)
      (h : prepareChatRequest rt tok config request
        (some (recordedTurn p.body inputIds startLen)) = .ok q) : Path rt tok config first q

/-- Every turn of a path renders like its first. -/
theorem Path.turn (h : Path rt tok config first p) :
    (∃ kwargs, Turn tok p kwargs) ∧ RendersAlike rt tok first p := by
  induction h with
  | first request h => exact ⟨turn_of_root h, .refl⟩
  | next request inputIds startLen hp h ih =>
    obtain ⟨⟨kwargs, hturn⟩, halike⟩ := ih
    obtain ⟨hnext, hstep, _⟩ := turn_of_continued hturn h
    exact ⟨hnext, halike.trans hstep⟩

/-- Every turn of a path is rendered with the kept arguments of its first turn, and a request
    that continues it with other tools is not rendered. -/
theorem Path.renders_alike (h : Path rt tok config first p) :
    RendersAlike rt tok first p ∧
      ∀ (request : ChatRequest) (inputIds : List Nat) (startLen : Option Nat),
        (orNone request.clientArgs "tools").truthy = true →
        ¬ SameTools rt (orNone request.clientArgs "tools") first.tools →
        ∀ q, prepareChatRequest rt tok config request
          (some (recordedTurn p.body inputIds startLen)) ≠ .ok q := by
  obtain ⟨⟨kwargs, hturn⟩, halike⟩ := h.turn
  refine ⟨halike, fun request inputIds startLen htruthy hother q hq => ?_⟩
  obtain ⟨_, hstep, hasked⟩ := turn_of_continued hturn hq
  apply hother
  rw [← hasked htruthy]
  exact hstep.tools.trans halike.tools

/-- A runtime without conversions, for requests that need none. -/
def plainRuntime : Runtime where
  repr _ := ""
  message _ := ""
  floatOfInt _ := 0
  floatOfStr _ := none
  listCapacity := 0
  intOfStr _ := none
  toolDumps := .ok

/-- A server without replay, adapter and output store. -/
def plainConfig : SessionServerConfig where
  useRolloutRoutingReplay := false
  useRolloutIndexerReplay := false
  loraRank := 0
  loraAdapterPath := none
  loraTrainOnly := false
  rolloutTopLogprobsNum := 0
  rolloutSamplingLogprobsMode := "selected"
  rolloutTemperature := 0x3ff0000000000000
  outputStoreBackendConfig := none

/-- A request of an evaluation session for a thinking mode under one of its names. -/
def modeRequest (name : String) (thinking : Bool) : ChatRequest where
  clientArgs := .ofList [("messages", .arr []),
    ("chat_template_kwargs", .obj [(name, .bool thinking), ("context", .null)])]
  evaluation := true

/-- A second turn that asks for thinking is rendered without, like the first. -/
theorem renders_alike_thinking :
    ∃ first p,
      prepareChatRequest plainRuntime ⟨.deepSeekV4, .empty⟩ plainConfig
        (modeRequest "enable_thinking" false) none = .ok first ∧
      prepareChatRequest plainRuntime ⟨.deepSeekV4, .empty⟩ plainConfig
        (modeRequest "thinking" true) (some (recordedTurn first.body [1] none)) = .ok p ∧
      RendersAlike plainRuntime ⟨.deepSeekV4, .empty⟩ first p ∧
      DeepSeek.renderThinkingEnabled first.templateArgs = false := by
  obtain ⟨first, p, hfirst, hp, hthinking⟩ : ∃ first p,
      prepareChatRequest plainRuntime ⟨.deepSeekV4, .empty⟩ plainConfig
        (modeRequest "enable_thinking" false) none = .ok first ∧
      prepareChatRequest plainRuntime ⟨.deepSeekV4, .empty⟩ plainConfig
        (modeRequest "thinking" true) (some (recordedTurn first.body [1] none)) = .ok p ∧
      DeepSeek.renderThinkingEnabled first.templateArgs = false := ⟨_, _, rfl, rfl, rfl⟩
  have halike := Path.renders_alike (.next _ _ _ (.first _ hfirst) hp)
  exact ⟨first, p, hfirst, hp, halike.1, hthinking⟩

end

end Miles.RequestArgs
