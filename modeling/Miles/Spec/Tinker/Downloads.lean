import Miles.Native.Tinker.Downloads

/-!
# Download URLs and the expiry of their checkpoint

A time to live is no shorter than a URL's hour, so a change of an expiry that reads the clock after
a URL was signed never shortens the life of the checkpoint below the URL's. A change that has read
the clock and is not yet in force does not see the URLs that are signed meanwhile.
-/

namespace Miles.Downloads

open CheckpointExpiry (Expiry Entries minTtlS maxTtlS)

variable {w w' : World} {call : UrlCall} {token : String}

/-! ## Invariants -/

/-- Tokens, downloads and commits. -/
structure Sound (w : World) : Prop where
  fresh : (w.issued.map Prod.fst).Nodup
  stored : ∀ token d, w.downloads.get? token = some d → (token, d) ∈ w.issued
  alive : ∀ token d, (token, d) ∈ w.issued → w.now < d.expiresAt → w.downloads.get? token = some d
  keyed : ∀ key token, w.downloadTokens.get? key = some token →
    ∃ d, (token, d) ∈ w.issued ∧ d.key = key
  life : ∀ token d, (token, d) ∈ w.issued → d.expiresAt ≤ w.now + downloadUrlTtlS
  issuedCommits : ∀ token d, (token, d) ∈ w.issued → d.commitId ∈ w.commits
  liveCommits : ∀ path files, w.live.get? path = some files → files.commitId ∈ w.commits
  callCommits : ∀ call ∈ w.urlCalls, call.files.commitId ∈ w.commits

/-- No URL outlives the expiry of its commit, in force or on its way. -/
structure Capped (w : World) : Prop where
  entry : ∀ token d, (token, d) ∈ w.issued →
    ∀ c, expiresAt w.expiry d.tinkerPath d.commitId = some c → d.expiresAt ≤ c
  pending : ∀ token d, (token, d) ∈ w.issued → ∀ p ∈ w.pending, p.tinkerPath = d.tinkerPath →
    ∀ e ∈ p.new, e.commitId = d.commitId → d.expiresAt ≤ e.expiresAt

/-- A URL is signed for longer than an expiry of its commit that is on its way. -/
def SignsUnderChange (w : World) : Event → Prop
  | .answerUrls i _ => ∃ call ∈ w.urlCalls[i]?, reusable w call = none ∧
      ∃ p ∈ w.pending, p.tinkerPath = call.tinkerPath ∧
        ∃ e ∈ p.new, e.commitId = call.files.commitId ∧ e.expiresAt < signedExpiry w call
  | _ => False

instance (w : World) : ∀ event, Decidable (SignsUnderChange w event)
  | .answerUrls i _ => inferInstanceAs (Decidable (∃ call ∈ w.urlCalls[i]?, reusable w call = none ∧
      ∃ p ∈ w.pending, p.tinkerPath = call.tinkerPath ∧
        ∃ e ∈ p.new, e.commitId = call.files.commitId ∧ e.expiresAt < signedExpiry w call))
  | .elapse _ | .commit .. | .beginSet .. | .endSet _ | .delete _ | .expire _
  | .dropExpiredDownloads | .resolveUrls .. | .lookUp _ | .finishDownload _ =>
    inferInstanceAs (Decidable False)

theorem signedExpiry_le (w : World) (call : UrlCall) :
    signedExpiry w call ≤ w.now + downloadUrlTtlS ∧
      ∀ c, expiresAt w.expiry call.tinkerPath call.files.commitId = some c →
        signedExpiry w call ≤ c := by
  unfold signedExpiry
  split
  · rename_i hnone
    refine ⟨le_refl _, fun c hc => ?_⟩
    rw [hnone] at hc
    cases hc
  · rename_i c hsome
    refine ⟨min_le_left _ _, fun c' hc' => ?_⟩
    rw [hsome] at hc'
    cases hc'
    exact min_le_right _ _

/-- A token that is handed out again is in both tables. -/
theorem reusable_eq_some {cached : String} {live : Download}
    (h : reusable w call = some (cached, live)) :
    w.downloadTokens.get? call.key = some cached ∧ w.downloads.get? cached = some live := by
  unfold reusable at h
  split at h
  · cases h
  · rename_i t ht
    split at h
    · cases h
    · rename_i d hd
      split at h
      · cases h
        exact ⟨ht, hd⟩
      · cases h

/-- The answer comes from the end of the method, unless the checkpoint has expired. -/
theorem externalWeightsUrls_eq_ok {a : Answer}
    (h : externalWeightsUrls w call token = .ok (w', a)) : reuseOrSign w call token = (w', a) := by
  unfold externalWeightsUrls at h
  split at h
  · split at h
    · cases h
    · exact Except.ok.inj h
  · exact Except.ok.inj h

/-- Tokens are issued once. -/
theorem Sound.eq_of_token (h : Sound w) {d d' : Download} (hd : (token, d) ∈ w.issued)
    (hd' : (token, d') ∈ w.issued) : d = d' := by
  have hpair := List.inj_on_of_nodup_map h.fresh hd hd' rfl
  exact (Prod.mk.inj hpair).2

/-- The token of a key names a download of that key, or none. -/
theorem Sound.key_eq (h : Sound w) {key : String × String × String} {d : Download}
    (htoken : w.downloadTokens.get? key = some token) (hd : w.downloads.get? token = some d) :
    d.key = key := by
  obtain ⟨d', hissued, hkey⟩ := h.keyed key token htoken
  rw [h.eq_of_token (h.stored token d hd) hissued]
  exact hkey

/-! ## One step -/

/-- What an event on the checkpoints and expiries does to the checkpoints: some may be gone. -/
theorem deleteCheckpoint_eq_some {path : String} (h : deleteCheckpoint w path = some w') :
    w' = { w with live := w.live.erase path, pending := some ⟨path, none⟩ } := by
  unfold deleteCheckpoint at h
  split at h
  · exact (Option.some.inj h).symm
  · cases h

theorem expireCheckpoint_eq_some {path : String} (h : expireCheckpoint w path = some w') :
    w' = { w with live := w.live.erase path, pending := some ⟨path, none⟩ } ∨
      w' = { w with pending := some ⟨path, none⟩ } := by
  unfold expireCheckpoint at h
  split at h
  · cases h
  · split at h
    · cases h
    · split at h
      · exact .inl (deleteCheckpoint_eq_some h)
      · exact .inr (Option.some.inj h).symm

theorem ownedCheckpoint_eq_ok {tenant path : String} {files : Files}
    (h : ownedCheckpoint w tenant path = .ok files) :
    w.live.get? path = some files ∧ files.tenant = tenant := by
  unfold ownedCheckpoint at h
  split at h
  · cases h
  · rename_i found hfound
    split at h
    · rename_i htenant
      cases h
      exact ⟨hfound, htenant⟩
    · cases h

/-- A call whose checkpoint is resolved has its files. -/
theorem resolveUrls_eq_ok {tenant modelId checkpointId baseUrl : String}
    (h : resolveUrls w tenant modelId checkpointId baseUrl = .ok w') :
    ∃ call : UrlCall, w.live.get? call.tinkerPath = some call.files ∧
      w' = { w with urlCalls := w.urlCalls ++ [call] } := by
  unfold resolveUrls at h
  split at h
  · cases h
  · split at h
    · cases h
    · rename_i files hfiles
      exact ⟨_, (ownedCheckpoint_eq_ok hfiles).1, (Except.ok.inj h).symm⟩

/-- Checkpoints, tokens and expiries stay, and a new call has resolved its checkpoint. -/
structure Quiet (w w' : World) : Prop where
  now : w.now ≤ w'.now
  live : w'.live = w.live
  commits : w'.commits = w.commits
  expiry : w'.expiry = w.expiry
  pending : w'.pending = w.pending
  issued : w'.issued = w.issued
  downloads : w'.downloads = w.downloads
  downloadTokens : w'.downloadTokens = w.downloadTokens
  calls : ∀ call ∈ w'.urlCalls,
    call ∈ w.urlCalls ∨ w.live.get? call.tinkerPath = some call.files

/-- What a step does. -/
inductive Effect (w : World) : Event → World → Prop where
  | quiet {event : Event} {w' : World} (h : Quiet w w') : Effect w event w'
  | commit {path : String} {files : Files} (fresh : files.commitId ∉ w.commits) :
      Effect w (.commit path files) { w with
        live := w.live.set path files, commits := w.commits ++ [files.commitId] }
  | beginSet {path commitId : String} {ttlSeconds : Option Int}
      (range : ∀ ttl ∈ ttlSeconds, minTtlS ≤ ttl) :
      Effect w (.beginSet path commitId ttlSeconds) { w with
        pending := some ⟨path, ttlSeconds.map fun (ttl : Int) => ⟨commitId, w.now + ttl⟩⟩ }
  | endSet {stored : Bool} {p : Pending} (hp : w.pending = some p) :
      Effect w (.endSet stored) { w with
        pending := none, expiry := if stored then p.store w.expiry else w.expiry }
  | drop {event : Event} {path : String} {live : PyDict String Files}
      (hlive : live = w.live ∨ live = w.live.erase path) :
      Effect w event { w with live := live, pending := some ⟨path, none⟩ }
  | dropExpired : Effect w .dropExpiredDownloads (dropExpiredDownloads w)
  | sign {i : Nat} {call : UrlCall} {token : String} (hcall : w.urlCalls[i]? = some call)
      (fresh : token ∉ w.issued.map Prod.fst) (hnone : reusable w call = none) :
      Effect w (.answerUrls i token)
        { sign w call token with urlCalls := w.urlCalls.eraseIdx i }

theorem quiet_of_calls {calls : List UrlCall}
    (h : ∀ call ∈ calls, call ∈ w.urlCalls ∨ w.live.get? call.tinkerPath = some call.files) :
    Quiet w { w with urlCalls := calls } :=
  ⟨le_refl _, rfl, rfl, rfl, rfl, rfl, rfl, rfl, h⟩

theorem quiet_eraseIdx (w : World) (i : Nat) :
    Quiet w { w with urlCalls := w.urlCalls.eraseIdx i } :=
  quiet_of_calls fun _ hcall => .inl (List.mem_of_mem_eraseIdx hcall)

theorem quiet_downloadCalls (w : World) (calls : List Download) :
    Quiet w { w with downloadCalls := calls } :=
  ⟨le_refl _, rfl, rfl, rfl, rfl, rfl, rfl, rfl, fun _ hcall => .inl hcall⟩

/-- Every event is quiet, or has one of the other effects. -/
theorem step_effect {event : Event} (h : step w event = some w') : Effect w event w' := by
  cases event with
  | elapse seconds =>
    simp only [step] at h
    split at h
    · rename_i hseconds
      cases h
      have hnow : w.now ≤ w.now + seconds := le_add_of_nonneg_right hseconds
      exact .quiet ⟨hnow, rfl, rfl, rfl, rfl, rfl, rfl, rfl, fun _ hcall => .inl hcall⟩
    · cases h
  | commit path files =>
    simp only [step] at h
    split at h
    · rename_i hfresh
      cases h
      exact .commit hfresh
    · cases h
  | beginSet path commitId ttlSeconds =>
    simp only [step, Downloads.beginSet] at h
    split at h
    · rename_i hboth
      cases h
      refine .beginSet fun ttl httl => ?_
      have hall := hboth.2
      rw [Option.mem_def.mp httl] at hall
      exact (of_decide_eq_true hall : minTtlS ≤ ttl ∧ ttl ≤ maxTtlS).1
    · cases h
  | endSet stored =>
    obtain ⟨p, hp, rfl⟩ := Option.map_eq_some_iff.mp h
    exact .endSet hp
  | delete path =>
    rw [deleteCheckpoint_eq_some h]
    exact .drop (.inr rfl)
  | expire path =>
    rcases expireCheckpoint_eq_some h with heq | heq
    · rw [heq]
      exact .drop (.inr rfl)
    · rw [heq]
      exact .drop (.inl rfl)
  | dropExpiredDownloads =>
    cases h
    exact .dropExpired
  | resolveUrls tenant modelId checkpointId baseUrl =>
    simp only [step] at h
    cases hresolve : resolveUrls w tenant modelId checkpointId baseUrl with
    | error e =>
      rw [hresolve] at h
      cases h
    | ok next =>
      rw [hresolve] at h
      cases h
      -- a resolved call remembers the commit that was live
      obtain ⟨call, hlive, rfl⟩ := resolveUrls_eq_ok hresolve
      refine .quiet (quiet_of_calls fun c hc => ?_)
      rcases List.mem_append.mp hc with hc | hc
      · exact .inl hc
      · rw [List.mem_singleton.mp hc]
        exact .inr hlive
  | answerUrls i token =>
    simp only [step] at h
    split at h
    · cases h
    · rename_i call hcall
      split at h
      · cases h
      · rename_i hfresh
        split at h
        · rename_i next a hnext
          have hend := externalWeightsUrls_eq_ok hnext
          rw [← Option.some.inj h]
          -- a token is reused as it is; only signing makes a new one
          unfold reuseOrSign at hend
          split at hend
          · cases hend
            exact .quiet (quiet_eraseIdx w i)
          · rename_i hnone
            cases hend
            exact .sign hcall hfresh hnone
        · rw [← Option.some.inj h]
          exact .quiet (quiet_eraseIdx w i)
  | lookUp token =>
    simp only [step] at h
    split at h
    · cases h
      exact .quiet (quiet_downloadCalls w _)
    · cases h
      exact .quiet (quiet_downloadCalls w _)
  | finishDownload i =>
    cases h
    exact .quiet (quiet_downloadCalls w _)

/-- Steps that leave the tables of tokens as they are. -/
theorem Sound.of_same_tables (h : Sound w) (hissued : w'.issued = w.issued)
    (hdownloads : w'.downloads = w.downloads) (htokens : w'.downloadTokens = w.downloadTokens)
    (hnow : w.now ≤ w'.now) (hcommits : ∀ c ∈ w.commits, c ∈ w'.commits)
    (hlive : ∀ path files, w'.live.get? path = some files → files.commitId ∈ w'.commits)
    (hcalls : ∀ call ∈ w'.urlCalls, call.files.commitId ∈ w'.commits) : Sound w' := by
  constructor
  · rw [hissued]
    exact h.fresh
  · rw [hissued, hdownloads]
    exact h.stored
  · intro token d hd hlater
    rw [hissued] at hd
    rw [hdownloads]
    exact h.alive token d hd (lt_of_le_of_lt hnow hlater)
  · rw [hissued, htokens]
    exact h.keyed
  · intro token d hd
    rw [hissued] at hd
    have hlife := h.life token d hd
    linarith
  · intro token d hd
    rw [hissued] at hd
    exact hcommits _ (h.issuedCommits token d hd)
  · exact hlive
  · exact hcalls

theorem Sound.sign (h : Sound w) (hfresh : token ∉ w.issued.map Prod.fst) (hcall : call ∈ w.urlCalls) :
    Sound (sign w call token) := by
  have hnew {t : String} {d : Download} (hd : (t, d) ∈ w.issued) : t ≠ token := by
    intro heq
    rw [heq] at hd
    exact hfresh (List.mem_map.mpr ⟨_, hd, rfl⟩)
  constructor
  · show ((w.issued ++ [(token, _)]).map Prod.fst).Nodup
    rw [List.map_append, List.nodup_append]
    refine ⟨h.fresh, List.nodup_singleton _, fun a ha b hb => ?_⟩
    rw [List.mem_singleton.mp hb]
    intro heq
    rw [heq] at ha
    exact hfresh ha
  · intro t d hd
    change (w.downloads.set token _).get? t = some d at hd
    rw [PyDict.get?_set] at hd
    split at hd
    · rename_i heq
      rw [heq, ← Option.some.inj hd]
      exact List.mem_append_right _ (List.mem_singleton_self _)
    · exact List.mem_append_left _ (h.stored t d hd)
  · intro t d hd hlater
    show (w.downloads.set token _).get? t = some d
    rw [PyDict.get?_set]
    rcases List.mem_append.mp hd with hd | hd
    · rw [if_neg (hnew hd)]
      exact h.alive t d hd hlater
    · obtain ⟨ht, hd⟩ := Prod.mk.inj (List.mem_singleton.mp hd)
      rw [if_pos ht, hd]
  · intro key t ht
    change (w.downloadTokens.set call.key token).get? key = some t at ht
    rw [PyDict.get?_set] at ht
    split at ht
    · rename_i heq
      rw [← Option.some.inj ht, heq]
      exact ⟨_, List.mem_append_right _ (List.mem_singleton_self _), rfl⟩
    · obtain ⟨d, hd, hkey⟩ := h.keyed key t ht
      exact ⟨d, List.mem_append_left _ hd, hkey⟩
  · intro t d hd
    rcases List.mem_append.mp hd with hd | hd
    · exact h.life t d hd
    · rw [(Prod.mk.inj (List.mem_singleton.mp hd)).2]
      exact (signedExpiry_le w call).1
  · intro t d hd
    rcases List.mem_append.mp hd with hd | hd
    · exact h.issuedCommits t d hd
    · rw [(Prod.mk.inj (List.mem_singleton.mp hd)).2]
      exact h.callCommits call hcall
  · exact h.liveCommits
  · exact h.callCommits

theorem Sound.dropExpiredDownloads (h : Sound w) : Sound (dropExpiredDownloads w) := by
  constructor
  · exact h.fresh
  · intro token d hd
    exact h.stored token d (PyDict.get?_filter.mp hd).1
  · intro token d hd hlater
    exact PyDict.get?_filter.mpr ⟨h.alive token d hd hlater, decide_eq_true hlater⟩
  · intro key token htoken
    exact h.keyed key token (PyDict.get?_filter.mp htoken).1
  · exact h.life
  · exact h.issuedCommits
  · exact h.liveCommits
  · exact h.callCommits

/-- Tokens, downloads and commits stay together. -/
theorem Sound.step (h : Sound w) {event : Event} (hstep : step w event = some w') : Sound w' := by
  cases step_effect hstep with
  | quiet hquiet =>
    refine h.of_same_tables hquiet.issued hquiet.downloads hquiet.downloadTokens hquiet.now
      (by simp [hquiet.commits]) ?_ fun call hcall => ?_
    · rw [hquiet.live, hquiet.commits]
      exact h.liveCommits
    · rw [hquiet.commits]
      rcases hquiet.calls call hcall with hold | hlive
      · exact h.callCommits call hold
      · exact h.liveCommits _ _ hlive
  | commit hfresh =>
    refine h.of_same_tables rfl rfl rfl (le_refl _) (fun _ hc => List.mem_append_left _ hc)
      (fun k found hfound => ?_) fun call hcall => List.mem_append_left _ (h.callCommits call hcall)
    rw [PyDict.get?_set] at hfound
    split at hfound
    · rw [← Option.some.inj hfound]
      exact List.mem_append_right _ (List.mem_singleton_self _)
    · exact List.mem_append_left _ (h.liveCommits k found hfound)
  | beginSet _ =>
    exact h.of_same_tables rfl rfl rfl (le_refl _) (fun _ hc => hc) h.liveCommits h.callCommits
  | endSet _ =>
    exact h.of_same_tables rfl rfl rfl (le_refl _) (fun _ hc => hc) h.liveCommits h.callCommits
  | drop hlive =>
    refine h.of_same_tables rfl rfl rfl (le_refl _) (fun _ hc => hc) (fun k files hfiles => ?_)
      h.callCommits
    obtain rfl | rfl := hlive
    · exact h.liveCommits k files hfiles
    · rw [PyDict.get?_erase] at hfiles
      split at hfiles
      · cases hfiles
      · exact h.liveCommits k files hfiles
  | dropExpired => exact h.dropExpiredDownloads
  | sign hcall hfresh _ =>
    have hsigned := h.sign hfresh (List.mem_of_getElem? hcall)
    exact hsigned.of_same_tables rfl rfl rfl (le_refl _) (fun _ hc => hc) hsigned.liveCommits
      fun call hcall => hsigned.callCommits call (List.mem_of_mem_eraseIdx hcall)

/-- Once a change is in force, no URL outlives what it stored. -/
theorem Capped.expiresAt_store (h : Capped w) {p : Pending} (hp : w.pending = some p)
    (token : String) (d : Download) (hd : (token, d) ∈ w.issued) (c : ℚ)
    (hc : expiresAt (p.store w.expiry) d.tinkerPath d.commitId = some c) : d.expiresAt ≤ c := by
  have hentry := h.entry token d hd c
  unfold expiresAt at hc hentry
  cases hnew : p.new with
  | none =>
    rw [Pending.store, hnew, PyDict.get?_erase] at hc
    by_cases hpath : d.tinkerPath = p.tinkerPath
    · rw [if_pos hpath] at hc
      cases hc
    · rw [if_neg hpath] at hc
      exact hentry hc
  | some entry =>
    rw [Pending.store, hnew, PyDict.get?_set] at hc
    by_cases hpath : d.tinkerPath = p.tinkerPath
    · rw [if_pos hpath] at hc
      by_cases hcommit : entry.commitId = d.commitId
      · simp only [if_pos hcommit] at hc
        rw [← Option.some.inj hc]
        exact h.pending token d hd p hp hpath.symm entry hnew hcommit
      · simp only [if_neg hcommit] at hc
        cases hc
    · rw [if_neg hpath] at hc
      exact hentry hc

/-- The expiries stay behind the URLs', but when one is signed under a change. -/
theorem Capped.step (h : Capped w) (hsound : Sound w) {event : Event}
    (hsign : ¬ SignsUnderChange w event) (hstep : step w event = some w') : Capped w' := by
  cases step_effect hstep with
  | quiet hquiet =>
    constructor
    · rw [hquiet.issued, hquiet.expiry]
      exact h.entry
    · rw [hquiet.issued, hquiet.pending]
      exact h.pending
  | commit _ => exact ⟨h.entry, h.pending⟩
  | beginSet hrange =>
    refine ⟨h.entry, fun token d hd p hp _ e he _ => ?_⟩
    -- the clock is read after the URL was signed, and no time to live is shorter than its hour
    cases hp
    obtain ⟨ttl, httl, heq⟩ := Option.map_eq_some_iff.mp he
    have hlife := hsound.life token d hd
    have hhour : ((downloadUrlTtlS : Int) : ℚ) ≤ (ttl : ℚ) := by
      have hmin : downloadUrlTtlS ≤ ttl := hrange ttl httl
      exact_mod_cast hmin
    rw [← heq]
    show d.expiresAt ≤ w.now + (ttl : ℚ)
    linarith
  | @endSet stored p hp =>
    refine ⟨fun token d hd c hc => ?_, fun token d hd q hq => by cases hq⟩
    cases stored with
    | false => exact h.entry token d hd c hc
    | true => exact h.expiresAt_store hp token d hd c hc
  | drop _ =>
    -- a drop on its way shortens nothing
    refine ⟨h.entry, fun token d _ p hp _ e he => ?_⟩
    cases hp
    cases he
  | dropExpired => exact ⟨h.entry, h.pending⟩
  | @sign i call token hcall _ hnone =>
    refine ⟨fun t d hd c hc => ?_, fun t d hd p hp hpath e he hcommit => ?_⟩
    · rcases List.mem_append.mp hd with hd | hd
      · exact h.entry t d hd c hc
      · rw [(Prod.mk.inj (List.mem_singleton.mp hd)).2] at hc ⊢
        exact (signedExpiry_le w call).2 c hc
    · rcases List.mem_append.mp hd with hd | hd
      · exact h.pending t d hd p hp hpath e he hcommit
      · rw [(Prod.mk.inj (List.mem_singleton.mp hd)).2] at hpath hcommit ⊢
        by_contra hlater
        exact hsign ⟨call, hcall, hnone, p, hp, hpath, e, he, hcommit, not_le.mp hlater⟩

/-- The commit was used, and is not the live one of its path. -/
def Dead (path commitId : String) (w : World) : Prop :=
  commitId ∈ w.commits ∧ ∀ files, w.live.get? path = some files → files.commitId ≠ commitId

/-- A commit that is deleted or overwritten stays so: a later one has an id of its own. -/
theorem Dead.step {path commitId : String} (h : Dead path commitId w) {event : Event}
    (hstep : step w event = some w') : Dead path commitId w' := by
  cases step_effect hstep with
  | quiet hquiet =>
    unfold Dead
    rw [hquiet.live, hquiet.commits]
    exact h
  | commit hfresh =>
    refine ⟨List.mem_append_left _ h.1, fun found hfound => ?_⟩
    rw [PyDict.get?_set] at hfound
    split at hfound
    · rw [← Option.some.inj hfound]
      intro heq
      rw [heq] at hfresh
      exact hfresh h.1
    · exact h.2 found hfound
  | drop hlive =>
    refine ⟨h.1, fun files hfiles => ?_⟩
    obtain rfl | rfl := hlive
    · exact h.2 files hfiles
    · rw [PyDict.get?_erase] at hfiles
      split at hfiles
      · cases hfiles
      · exact h.2 files hfiles
  | beginSet _ | endSet _ | dropExpired | sign _ _ _ => exact h

/-- A download of a dead commit ends with an error. -/
theorem Dead.downloadPath {d : Download} (h : Dead d.tinkerPath d.commitId w) (filename : String) :
    ∃ e, downloadPath w d filename = .error e := by
  unfold Downloads.downloadPath
  split
  · exact ⟨_, rfl⟩
  · rename_i files hfiles
    rw [if_pos (h.2 files (ownedCheckpoint_eq_ok hfiles).1)]
    exact ⟨_, rfl⟩

/-! ## Every run -/

theorem sound_initial (now : ℚ) (live : PyDict String Files) (expiry : Entries) :
    Sound (World.initial now live expiry) := by
  constructor
  · exact List.nodup_nil
  · intro token d hd
    cases hd
  · intro token d hd
    cases hd
  · intro key token hkey
    cases hkey
  · intro token d hd
    cases hd
  · intro token d hd
    cases hd
  · intro path files hfiles
    exact List.mem_map.mpr ⟨_, PyDict.get?_eq_some.mp hfiles, rfl⟩
  · intro c hc
    cases hc

theorem capped_initial (now : ℚ) (live : PyDict String Files) (expiry : Entries) :
    Capped (World.initial now live expiry) := by
  constructor
  · intro token d hd
    cases hd
  · intro token d hd
    cases hd

/-- What an answer says about the token it names, and about the expiry in force. -/
theorem answer_expires (hsound : Sound w) (hcapped : Capped w) {a : Answer}
    (h : externalWeightsUrls w call token = .ok (w', a)) :
    (∃ d, w'.downloads.get? a.token = some d ∧ d.key = call.key ∧ a.expires = d.expiresAt) ∧
      ∀ c, expiresAt w'.expiry call.tinkerPath call.files.commitId = some c → a.expires ≤ c := by
  have hend := externalWeightsUrls_eq_ok h
  unfold reuseOrSign at hend
  split at hend
  · rename_i cached live hreusable
    cases hend
    obtain ⟨htoken, hlive⟩ := reusable_eq_some hreusable
    have hkey := hsound.key_eq htoken hlive
    refine ⟨⟨live, hlive, hkey, rfl⟩, fun c hc => ?_⟩
    obtain ⟨-, hrest⟩ := Prod.mk.inj hkey
    obtain ⟨hpath, hcommit⟩ := Prod.mk.inj hrest
    apply hcapped.entry cached live (hsound.stored cached live hlive) c
    rw [hpath, hcommit]
    exact hc
  · cases hend
    let download : Download :=
      ⟨call.tenant, call.tinkerPath, call.files.commitId, signedExpiry w call⟩
    refine ⟨⟨download, ?_, rfl, rfl⟩, (signedExpiry_le w call).2⟩
    show (w.downloads.set token download).get? token = some download
    rw [PyDict.get?_set, if_pos rfl]

/-- A token that was issued resolves until its own expiry, while its commit is live. -/
theorem Sound.resolves (h : Sound w) {d : Download} (hd : (token, d) ∈ w.issued)
    (hlater : w.now < d.expiresAt) : lookUp w token = .ok d := by
  simp only [lookUp, h.alive token d hd hlater, if_neg (not_le.mpr hlater)]

theorem downloadPath_of_live {d : Download} {files : Files} {filename : String}
    (hlive : w.live.get? d.tinkerPath = some files) (htenant : files.tenant = d.tenant)
    (hcommit : files.commitId = d.commitId) (hfile : filename ∈ files.files) :
    downloadPath w d filename = .ok (files.path ++ "/" ++ filename) := by
  have howned : ownedCheckpoint w d.tenant d.tinkerPath = .ok files := by
    simp only [ownedCheckpoint, hlive, if_pos htenant]
  simp only [downloadPath, howned, hcommit, ne_eq, not_true_eq_false, if_false, hfile]

/-- For every run in which no URL is signed under a change that shortens its commit's life, and
    the state it leads to. An answer reports the expiry that is stored for its token, which is no
    later than the commit's expiry in force. The token of a key names no entry, or one with that
    key. A token that was issued resolves until its own expiry while its commit is live; once the
    commit is deleted or overwritten, it never resolves again. -/
theorem download_urls (now : ℚ) (live : PyDict String Files) (expiry : Entries)
    (events : List Event) (w : World)
    (hrun : Lts.run step (World.initial now live expiry) events = some w)
    (hsigns : Lts.StepsWhere step (fun w e => ¬ SignsUnderChange w e)
      (World.initial now live expiry) events) :
    (∀ call token w' a, externalWeightsUrls w call token = .ok (w', a) →
      (∃ d, w'.downloads.get? a.token = some d ∧ d.key = call.key ∧ a.expires = d.expiresAt) ∧
      ∀ c, expiresAt w'.expiry call.tinkerPath call.files.commitId = some c → a.expires ≤ c) ∧
    (∀ key token, w.downloadTokens.get? key = some token →
      ∀ d, w.downloads.get? token = some d → d.key = key) ∧
    ∀ token d, (token, d) ∈ w.issued →
      (w.now < d.expiresAt → lookUp w token = .ok d ∧
        ∀ files filename, w.live.get? d.tinkerPath = some files → files.tenant = d.tenant →
          files.commitId = d.commitId → filename ∈ files.files →
          downloadPath w d filename = .ok (files.path ++ "/" ++ filename)) ∧
      ((∀ files, w.live.get? d.tinkerPath = some files → files.commitId ≠ d.commitId) →
        ∀ later w', Lts.run step w later = some w' →
          ∀ filename, ∃ e, downloadPath w' d filename = .error e) := by
  have hstart : Sound (World.initial now live expiry) ∧ Capped (World.initial now live expiry) :=
    ⟨sound_initial now live expiry, capped_initial now live expiry⟩
  have hboth : Sound w ∧ Capped w :=
    Lts.run_invariant_where (I := fun w => Sound w ∧ Capped w)
      (fun _ _ _ h hsign hstep => ⟨h.1.step hstep, h.2.step h.1 hsign hstep⟩) hstart hsigns hrun
  obtain ⟨hsound, hcapped⟩ := hboth
  refine ⟨fun call token w' a h => answer_expires hsound hcapped h,
    fun key token htoken d hd => hsound.key_eq htoken hd, fun token d hd => ⟨fun hlater => ?_, ?_⟩⟩
  · exact ⟨hsound.resolves hd hlater, fun files filename hlive htenant hcommit hfile =>
      downloadPath_of_live hlive htenant hcommit hfile⟩
  · intro hgone later w' hlater filename
    have hdead : Dead d.tinkerPath d.commitId w' :=
      Lts.run_invariant (I := Dead d.tinkerPath d.commitId) (fun _ _ _ h hstep => h.step hstep)
        ⟨hsound.issuedCommits token d hd, hgone⟩ hlater
    exact hdead.downloadPath filename

/-! ## Examples of runs -/

/-- A saved download of one file, and a call for its URL -/
def someFiles : Files := ⟨"c1", "key", "/root/w", ["adapter.tar"]⟩

def somePath : String := tinkerPathOf "m" "external_weights/w"

def askUrls : Event := .resolveUrls "key" "m" "external_weights/w" "http://h/"

/-- A time to live is in force before a URL is signed. -/
def changeThenSign : List Event :=
  [.commit somePath someFiles, .beginSet somePath "c1" (some 3600), .elapse 10, .endSet true,
    askUrls, .answerUrls 0 "A", .elapse 60, askUrls]

/-- A URL is signed while the change is on its way. -/
def signUnderChange : List Event :=
  [.commit somePath someFiles, .beginSet somePath "c1" (some 3600), .elapse 10,
    askUrls, .answerUrls 0 "A", .endSet true, askUrls]

/-- The URL of a checkpoint that got a time to live before resolves. -/
theorem download_urls_resolves :
    ∃ w, Lts.run step (World.initial 0 .empty .empty) changeThenSign = some w ∧
      lookUp w "A" = .ok ⟨"key", somePath, "c1", 3600⟩ := by
  have hend : (Lts.run step (World.initial 0 .empty .empty) changeThenSign).map
      (fun w => (w.issued, w.now)) = some ([("A", ⟨"key", somePath, "c1", 3600⟩)], 70) := by
    decide +kernel
  obtain ⟨w, hrun, hw⟩ := Option.map_eq_some_iff.mp hend
  obtain ⟨hissued, hnow⟩ := Prod.mk.inj hw
  have hsigns : Lts.StepsWhere step (fun w e => ¬ SignsUnderChange w e)
      (World.initial 0 .empty .empty) changeThenSign := by decide +kernel
  have htokens := (download_urls 0 .empty .empty changeThenSign w hrun hsigns).2.2
  have hmem : ("A", (⟨"key", somePath, "c1", 3600⟩ : Download)) ∈ w.issued := by
    rw [hissued]
    exact List.mem_singleton_self _
  have hlater : w.now < 3600 := by
    rw [hnow]
    norm_num
  exact ⟨w, hrun, ((htokens "A" _ hmem).1 hlater).1⟩

/-- The next answer reports an expiry ten seconds past the one of the commit. -/
theorem answer_past_expiry :
    ∃ w call w' a c, Lts.run step (World.initial 0 .empty .empty) signUnderChange = some w ∧
      call ∈ w.urlCalls ∧ externalWeightsUrls w call "B" = .ok (w', a) ∧
      expiresAt w.expiry somePath "c1" = some c ∧ call.tinkerPath = somePath ∧
      call.files.commitId = "c1" ∧ c + 10 = a.expires := by
  have hend : (Lts.run step (World.initial 0 .empty .empty) signUnderChange).map (fun w =>
      (w.urlCalls, (w.urlCalls.head?.bind fun call => (externalWeightsUrls w call "B").toOption).map
        fun p => p.2.expires, expiresAt w.expiry somePath "c1")) =
      some ([⟨"key", somePath, someFiles, "http://h/"⟩], some 3610, some 3600) := by
    decide +kernel
  obtain ⟨w, hrun, hw⟩ := Option.map_eq_some_iff.mp hend
  obtain ⟨hcalls, hrest⟩ := Prod.mk.inj hw
  obtain ⟨hanswer, hexpires⟩ := Prod.mk.inj hrest
  rw [hcalls] at hanswer
  obtain ⟨p, hp, hpast⟩ := Option.map_eq_some_iff.mp hanswer
  have hok : externalWeightsUrls w ⟨"key", somePath, someFiles, "http://h/"⟩ "B" = .ok p := by
    change (externalWeightsUrls w ⟨"key", somePath, someFiles, "http://h/"⟩ "B").toOption =
      some p at hp
    cases hresult : externalWeightsUrls w ⟨"key", somePath, someFiles, "http://h/"⟩ "B" with
    | error e =>
      rw [hresult] at hp
      cases hp
    | ok result =>
      rw [hresult] at hp
      rw [Option.some.inj hp]
  refine ⟨w, _, p.1, p.2, 3600, hrun, ?_, hok, hexpires, rfl, rfl, ?_⟩
  · rw [hcalls]
    exact List.mem_singleton_self _
  · rw [hpast]
    norm_num

end Miles.Downloads
