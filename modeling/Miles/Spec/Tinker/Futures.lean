import Miles.ForStd.List
import Miles.Spec.Tinker.Slots

/-!
# Futures settle exactly once

A future that has an answer keeps it, and a pending future belongs to a live model or to a
running sample: a model that closes leaves no request pending.

## Key results

- `Evolves`: how the futures of two states of a run compare
- `FuturesInv`: identifiers of futures are distinct, and pending futures have an owner
- `futures_settle_once`: answers never change, and closed models have no pending request
-/

namespace Miles.Tinker

/-- The requests a model answers for. -/
def ModelRecord.requestIds (r : ModelRecord) : List Nat :=
  r.createRequestId :: r.requestIdBySeq.map (·.2)

namespace Service

open Lts Relation

variable {config : GatewayConfig} {s s' s'' : Service}

/-! ## Answers are final -/

/-- Each later future is new, or it was there before and keeps the answer it had. -/
structure Evolves (s s' : Service) : Prop where
  nextId : s.nextId ≤ s'.nextId
  kept : ∀ f' ∈ s'.futures, s.nextId ≤ f'.requestId ∨
    ∃ f ∈ s.futures, f.requestId = f'.requestId ∧
      ∀ outcome, f.state = .settled outcome → f'.state = .settled outcome

theorem Evolves.refl (s : Service) : Evolves s s :=
  ⟨Nat.le_refl _, fun f hf => .inr ⟨f, hf, rfl, fun _ h => h⟩⟩

/-- Evolving is transitive. -/
theorem Evolves.trans (h : Evolves s s') (h' : Evolves s' s'') : Evolves s s'' := by
  refine ⟨Nat.le_trans h.nextId h'.nextId, fun f'' hf'' => ?_⟩
  obtain hnew | ⟨f', hf', hid', hkeep'⟩ := h'.kept f'' hf''
  · exact .inl (Nat.le_trans h.nextId hnew)
  · obtain hnew | ⟨f, hf, hid, hkeep⟩ := h.kept f' hf'
    · exact .inl (hid' ▸ hnew)
    · exact .inr ⟨f, hf, hid.trans hid', fun o ho => hkeep' o (hkeep o ho)⟩

variable {futures : List RequestFuture} {f : RequestFuture}

/-- An answer is given to pending futures only. -/
theorem kept_settle {requestId now : Nat} {outcome : Outcome}
    {f' : RequestFuture} (hf : f' ∈ RequestFutureStore.settle requestId outcome now futures) :
    ∃ f ∈ futures, f.requestId = f'.requestId ∧
      ∀ o, f.state = .settled o → f'.state = .settled o := by
  obtain ⟨hf, -⟩ | ⟨g, hg, -, hpending, rfl⟩ := mem_settle hf
  · exact ⟨f', hf, rfl, fun _ h => h⟩
  · refine ⟨g, hg, rfl, fun o ho => ?_⟩
    rw [hpending] at ho
    cases ho

theorem kept_settleAll {requestIds : List Nat} {now : Nat} {outcome : Outcome}
    {f' : RequestFuture}
    (hf : f' ∈ requestIds.foldl (fun futures requestId =>
      RequestFutureStore.settle requestId outcome now futures) futures) :
    ∃ f ∈ futures, f.requestId = f'.requestId ∧
      ∀ o, f.state = .settled o → f'.state = .settled o := by
  induction requestIds generalizing futures with
  | nil => exact ⟨f', hf, rfl, fun _ h => h⟩
  | cons id requestIds ih =>
    obtain ⟨g, hg, hid, hkeep⟩ := ih hf
    obtain ⟨f, hf, hid', hkeep'⟩ := kept_settle hg
    exact ⟨f, hf, hid'.trans hid, fun o ho => hkeep o (hkeep' o ho)⟩

/-- Settling a future evolves the service. -/
theorem Evolves.of_settle {requestId : Nat} {outcome : Outcome} (hid : s.nextId ≤ s'.nextId)
    (h : s'.futures = (s.settle requestId outcome).futures) : Evolves s s' :=
  ⟨hid, fun _ hf => .inr (kept_settle (h ▸ hf))⟩

theorem Evolves.of_futures (hid : s.nextId ≤ s'.nextId)
    (h : ∀ f ∈ s'.futures, f ∈ s.futures ∨ s.nextId ≤ f.requestId) : Evolves s s' := by
  refine ⟨hid, fun f hf => ?_⟩
  obtain hold | hnew := h f hf
  · exact .inr ⟨f, hold, rfl, fun _ h => h⟩
  · exact .inl hnew

/-- A new future has an identifier that was not in use. -/
theorem mem_createFuture {owner : FutureOwner} {tenant : String}
    (hf : f ∈ (s.createFuture owner tenant).futures) :
    f ∈ s.futures ∨ f = { requestId := s.nextId, owner, tenant } := by
  obtain hf | hf := List.mem_append.mp hf
  · exact .inl hf
  · exact .inr (List.mem_singleton.mp hf)

/-- A new future has a new id. -/
theorem Evolves.create {owner : FutureOwner} {tenant : String} (hid : s.nextId ≤ s'.nextId)
    (h : s'.futures = (s.createFuture owner tenant).futures) : Evolves s s' := by
  refine .of_futures hid fun f hf => ?_
  obtain hold | rfl := mem_createFuture (h ▸ hf)
  · exact .inl hold
  · exact .inr (Nat.le_refl _)

theorem Evolves.update (hup : Update config s s') : Evolves s s' := by
  cases hup with
  | control _ _ _ _ _ _ _ _ _ _ _ hid => exact .of_futures hid fun f hf => .inl hf
  | sweep => exact .of_futures (Nat.le_refl _) fun f hf => .inl (List.mem_filter.mp hf).1
  | settle | finish | endSample => exact .of_settle (Nat.le_refl _) rfl
  | settleAll | close => exact ⟨Nat.le_refl _, fun f hf => .inr (kept_settleAll hf)⟩
  | replace owner tenant outcome =>
    exact .trans (.create (Nat.le_succ _) rfl) (.of_settle (Nat.le_refl _) rfl)
  | rename | setInitialized | mark | recordOutput | issueBatch | issueBarrier =>
    exact .of_futures (Nat.le_refl _) fun f hf => .inl hf
  | openModel sessionId slot tenant =>
    refine .of_futures (show s.nextId ≤ s.nextId + 1 + 1 by omega) fun f hf => ?_
    obtain hold | rfl := mem_createFuture hf
    · exact .inl hold
    · exact .inr (Nat.le_succ _)
  | enqueueCommand | startSample => exact .create (Nat.le_succ _) rfl

/-- Updates evolve the futures. -/
theorem Evolves.updates (hup : Updates config s s') : Evolves s s' := by
  induction hup with
  | refl => exact .refl s
  | tail _ hlast ih => exact ih.trans (.update hlast)

/-! ## Pending futures have an owner -/

/-- A live model or a running sample answers for the future. -/
def Owned (s : Service) (f : RequestFuture) : Prop :=
  match f.owner with
  | .model modelId => ∃ r ∈ s.models, r.modelId = modelId ∧ f.requestId ∈ r.requestIds
  | .sampler => ∃ x ∈ s.sampleTasks, x.1 = f.requestId

structure FuturesInv (s : Service) : Prop where
  registry : s.Registry
  ids : (s.futures.map (·.requestId)).Nodup
  fresh : ∀ f ∈ s.futures, f.requestId < s.nextId
  /-- a sequence number names one request -/
  keys : ∀ r ∈ s.models, (r.requestIdBySeq.map (·.1)).Nodup
  owned : ∀ f ∈ s.futures, f.state = .pending → s.Owned f

/-- Identifiers stay distinct as long as futures are only answered and forgotten. -/
theorem map_settle (requestId now : Nat) (outcome : Outcome) (futures : List RequestFuture) :
    (RequestFutureStore.settle requestId outcome now futures).map (·.requestId) =
      futures.map (·.requestId) := by
  unfold RequestFutureStore.settle
  rw [List.map_map]
  apply List.map_congr_left
  intro f _
  show RequestFuture.requestId (if _ then _ else f) = f.requestId
  split <;> rfl

theorem map_settleAll (requestIds : List Nat) (now : Nat) (outcome : Outcome)
    (futures : List RequestFuture) :
    (requestIds.foldl (fun futures requestId =>
      RequestFutureStore.settle requestId outcome now futures) futures).map (·.requestId) =
      futures.map (·.requestId) := by
  induction requestIds generalizing futures with
  | nil => rfl
  | cons id requestIds ih => exact (ih _).trans (map_settle id now outcome futures)

/-- What is pending after several answers was pending before, and is not one of them. -/
theorem pending_settleAll {requestIds : List Nat} {now : Nat} {outcome : Outcome}
    (hpending : f.state = .pending)
    (hf : f ∈ requestIds.foldl (fun futures requestId =>
      RequestFutureStore.settle requestId outcome now futures) futures) :
    f ∈ futures ∧ f.requestId ∉ requestIds := by
  induction requestIds generalizing futures with
  | nil => exact ⟨hf, List.not_mem_nil⟩
  | cons id requestIds ih =>
    obtain ⟨hf, hrest⟩ := ih hf
    obtain ⟨hf, hnot⟩ | ⟨g, -, -, -, rfl⟩ := mem_settle hf
    · refine ⟨hf, fun hmem => ?_⟩
      obtain hid | hmem := List.mem_cons.mp hmem
      · exact hnot ⟨hid, hpending⟩
      · exact hrest hmem
    · cases hpending

/-- What is pending after a settlement is another future. -/
theorem pending_settle {requestId now : Nat} {outcome : Outcome}
    (hpending : f.state = .pending)
    (hf : f ∈ RequestFutureStore.settle requestId outcome now futures) :
    f ∈ futures ∧ f.requestId ≠ requestId := by
  obtain ⟨hf, hnot⟩ | ⟨g, -, -, -, rfl⟩ := mem_settle hf
  · exact ⟨hf, fun hid => hnot ⟨hid, hpending⟩⟩
  · cases hpending

/-- Owners stay if models keep their requests and the samples go on. -/
theorem Owned.mono (h : s.Owned f)
    (hsamples : ∀ x ∈ s.sampleTasks, x.1 = f.requestId → x ∈ s'.sampleTasks)
    (hmodels : ∀ r ∈ s.models, f.requestId ∈ r.requestIds →
      ∃ r' ∈ s'.models, r'.modelId = r.modelId ∧ f.requestId ∈ r'.requestIds) : s'.Owned f := by
  unfold Owned at h ⊢
  split
  · next modelId howner =>
    rw [howner] at h
    obtain ⟨r, hr, hid, hmem⟩ := h
    obtain ⟨r', hr', hid', hmem'⟩ := hmodels r hr hmem
    exact ⟨r', hr', hid'.trans hid, hmem'⟩
  · next howner =>
    rw [howner] at h
    obtain ⟨x, hx, hxid⟩ := h
    exact ⟨x, hsamples x hx hxid, hxid⟩

theorem Owned.same (h : s.Owned f) (hsamples : s'.sampleTasks = s.sampleTasks)
    (hmodels : s'.models = s.models) : s'.Owned f :=
  h.mono (fun _ hx _ => hsamples ▸ hx) fun r hr hmem => ⟨r, hmodels ▸ hr, rfl, hmem⟩

/-- Changing a model keeps its owned futures if the change keeps its requests. -/
theorem Owned.modifyModel {modelId : Nat} {g : ModelRecord → ModelRecord}
    (h : s.Owned f) (hid : ∀ r, (g r).modelId = r.modelId)
    (hmem : ∀ r ∈ s.models, r.modelId = modelId → f.requestId ∈ r.requestIds →
      f.requestId ∈ (g r).requestIds) : (s.modifyModel modelId g).Owned f := by
  refine h.mono (fun _ hx _ => hx) fun r hr hreq => ⟨_, List.mem_map.mpr ⟨r, hr, rfl⟩, ?_⟩
  split
  · next heq => exact ⟨hid r, hmem r hr heq hreq⟩
  · exact ⟨rfl, hreq⟩

theorem not_mem_of_lookup {α : Type} {seqId : Nat} {l : List (Nat × α)}
    (h : l.lookup seqId = none) : seqId ∉ l.map (·.1) := by
  intro hmem
  obtain ⟨x, hx, rfl⟩ := List.mem_map.mp hmem
  have hne := List.lookup_eq_none_iff.mp h x hx
  simp at hne

theorem FuturesInv.init (config : GatewayConfig) : FuturesInv (Tinker.init config) where
  registry := .init config
  ids := .nil
  fresh _ hf := absurd hf List.not_mem_nil
  keys _ hr := absurd hr List.not_mem_nil
  owned _ hf := absurd hf List.not_mem_nil

/-- A new future keeps identifiers distinct and in use. -/
theorem ids_createFuture (h : s.FuturesInv) (owner : FutureOwner) (tenant : String) :
    ((s.createFuture owner tenant).futures.map (·.requestId)).Nodup ∧
    ∀ f ∈ (s.createFuture owner tenant).futures, f.requestId < s.nextId + 1 := by
  constructor
  · show ((s.futures ++ [_]).map RequestFuture.requestId).Nodup
    rw [List.map_append, List.nodup_append]
    refine ⟨h.ids, List.nodup_singleton _, ?_⟩
    intro a ha b hb hab
    obtain ⟨f, hf, rfl⟩ := List.mem_map.mp ha
    have hlt := h.fresh f hf
    rw [hab, List.mem_singleton.mp hb] at hlt
    exact Nat.lt_irrefl _ hlt
  · intro f hf
    obtain hold | rfl := mem_createFuture hf
    · exact Nat.lt_succ_of_lt (h.fresh f hold)
    · exact Nat.lt_succ_self _

/-- Answering futures does not create any. -/
theorem fresh_of_map (h : s.FuturesInv)
    (hmap : futures.map (·.requestId) = s.futures.map (·.requestId)) :
    (futures.map (·.requestId)).Nodup ∧ ∀ f ∈ futures, f.requestId < s.nextId := by
  refine ⟨hmap ▸ h.ids, fun f hf => ?_⟩
  have hmem : f.requestId ∈ s.futures.map (·.requestId) :=
    hmap ▸ List.mem_map.mpr ⟨f, hf, rfl⟩
  obtain ⟨g, hg, hid⟩ := List.mem_map.mp hmem
  exact hid ▸ h.fresh g hg

/-- A change of models keeps the keys if it keeps them in each model. -/
theorem keys_modifyModel {modelId : Nat} {g : ModelRecord → ModelRecord}
    (h : ∀ r ∈ s.models, (r.requestIdBySeq.map (·.1)).Nodup)
    (hg : ∀ r ∈ s.models, r.modelId = modelId → ((g r).requestIdBySeq.map (·.1)).Nodup) :
    ∀ r ∈ (s.modifyModel modelId g).models, (r.requestIdBySeq.map (·.1)).Nodup := by
  intro r hr
  obtain ⟨r', hr', rfl⟩ := List.mem_map.mp hr
  split
  · next heq => exact hg r' hr' heq
  · exact h r' hr'

/-- The model with an identifier is the one `findModel` finds. -/
theorem Registry.findModel_eq (h : s.Registry) {modelId : Nat} {r r' : ModelRecord}
    (hfind : s.findModel modelId = some r) (hr' : r' ∈ s.models) (hid : r'.modelId = modelId) :
    r' = r := by
  obtain ⟨hr, hrid⟩ := findModel_some hfind
  exact List.inj_on_of_nodup_map h.ids hr' hr (hid.trans hrid.symm)

/-- A renamed request that is pending keeps its name. -/
theorem FuturesInv.rename (h : s.FuturesInv) {modelId seqId old new : Nat}
    (hold : ∀ r, s.findModel modelId = some r → r.requestIdBySeq.lookup seqId = some old)
    (hnew : new ≠ old → ∀ f ∈ s.futures, f.requestId = old → f.state ≠ .pending)
    (hf : f ∈ s.futures) (hp : f.state = .pending) :
    (s.modifyModel modelId fun r => { r with
      requestIdBySeq := (seqId, new) :: r.requestIdBySeq.filter (·.1 ≠ seqId) }).Owned f := by
  refine (h.owned f hf hp).modifyModel (fun _ => rfl) fun r hr hid hmem => ?_
  show f.requestId ∈ r.createRequestId ::
    ((seqId, new) :: r.requestIdBySeq.filter (·.1 ≠ seqId)).map Prod.snd
  obtain hcreate | hmem := List.mem_cons.mp hmem
  · rw [hcreate]
    exact List.mem_cons_self
  · obtain ⟨x, hx, hxid⟩ := List.mem_map.mp hmem
    by_cases hseq : x.1 = seqId
    · have hfind : s.findModel modelId = some r := by
        cases hcase : s.findModel modelId with
        | none =>
          have hno := List.find?_eq_none.mp hcase r hr
          simp [hid] at hno
        | some r' => rw [h.registry.findModel_eq hcase hr hid]
      have hpair : (seqId, x.2) ∈ r.requestIdBySeq := by
        rw [← hseq]
        exact hx
      have hlookup := (List.lookup_eq_some_iff_mem (h.keys r hr)).mpr hpair
      have hxold : x.2 = old := Option.some.inj (hlookup.symm.trans (hold r hfind))
      have hfold : f.requestId = old := hxid.symm.trans hxold
      by_cases hsame : new = old
      · refine List.mem_cons_of_mem _ (List.mem_cons.mpr (.inl ?_))
        exact hfold.trans hsame.symm
      · -- the old name of a pending request would have been kept
        exact absurd hp (hnew hsame f hf hfold)
    · refine List.mem_cons_of_mem _ (List.mem_cons_of_mem _ (List.mem_map.mpr ⟨x, ?_, hxid⟩))
      exact List.mem_filter.mpr ⟨hx, decide_eq_true hseq⟩

/-- An identifier is taken. -/
theorem FuturesInv.takeId (h : s.FuturesInv) : FuturesInv { s with nextId := s.nextId + 1 } :=
  ⟨⟨h.registry.ids, fun r hr => Nat.lt_succ_of_lt (h.registry.fresh r hr), h.registry.queues⟩,
    h.ids, fun f hf => Nat.lt_succ_of_lt (h.fresh f hf), h.keys,
    fun f hf hp => (h.owned f hf hp).same rfl rfl⟩

/-- Every update keeps the invariant of the futures. -/
theorem FuturesInv.update (h : s.FuturesInv) (hup : Update config s s') : s'.FuturesInv := by
  have hregistry := h.registry.update hup
  cases hup with
  | control _ _ _ _ _ _ _ _ _ _ _ hid =>
    exact ⟨hregistry, h.ids, fun f hf => Nat.lt_of_lt_of_le (h.fresh f hf) hid, h.keys,
      fun f hf hp => (h.owned f hf hp).same rfl rfl⟩
  | mark | recordOutput | issueBatch | issueBarrier =>
    exact ⟨hregistry, h.ids, h.fresh, h.keys, fun f hf hp => (h.owned f hf hp).same rfl rfl⟩
  | sweep =>
    have hsub : s.sweepFutures.futures.Sublist s.futures := List.filter_sublist
    exact ⟨hregistry, h.ids.sublist (hsub.map _), fun f hf => h.fresh f (hsub.subset hf), h.keys,
      fun f hf hp => (h.owned f (hsub.subset hf) hp).same rfl rfl⟩
  | settle requestId outcome =>
    obtain ⟨hids, hfresh⟩ := fresh_of_map h (map_settle requestId s.clock outcome s.futures)
    exact ⟨hregistry, hids, hfresh, h.keys,
      fun f hf hp => (h.owned f (pending_settle hp hf).1 hp).same rfl rfl⟩
  | settleAll requestIds outcome =>
    obtain ⟨hids, hfresh⟩ := fresh_of_map h (map_settleAll requestIds s.clock outcome s.futures)
    exact ⟨hregistry, hids, hfresh, h.keys,
      fun f hf hp => (h.owned f (pending_settleAll hp hf).1 hp).same rfl rfl⟩
  | finish command outcome =>
    obtain ⟨hids, hfresh⟩ :=
      fresh_of_map h (map_settle command.requestId s.clock outcome s.futures)
    exact ⟨hregistry, hids, hfresh, h.keys,
      fun f hf hp => (h.owned f (pending_settle hp hf).1 hp).same rfl rfl⟩
  | replace owner tenant outcome =>
    obtain ⟨hids, hfresh⟩ := ids_createFuture h owner tenant
    have hmap := map_settle s.nextId s.clock outcome (s.createFuture owner tenant).futures
    refine ⟨hregistry, ?_, ?_, h.keys, ?_⟩
    · exact (congrArg List.Nodup hmap).mpr hids
    · intro f hf
      obtain ⟨g, hg, hid, -⟩ := kept_settle hf
      exact hid ▸ hfresh g hg
    · intro f hf hp
      obtain ⟨hmem, hne⟩ := pending_settle hp hf
      obtain hold | rfl := mem_createFuture hmem
      · exact (h.owned f hold hp).same rfl rfl
      · exact absurd rfl hne
  | rename modelId seqId old new hold hnew =>
    refine ⟨hregistry, h.ids, h.fresh, ?_, fun f hf hp => h.rename hold hnew hf hp⟩
    refine keys_modifyModel h.keys fun r hr _ => ?_
    show (seqId :: (r.requestIdBySeq.filter (·.1 ≠ seqId)).map (·.1)).Nodup
    rw [List.nodup_cons]
    refine ⟨?_, (h.keys r hr).sublist (List.filter_sublist.map _)⟩
    intro hmem
    obtain ⟨x, hx, hxseq⟩ := List.mem_map.mp hmem
    exact of_decide_eq_true (List.mem_filter.mp hx).2 hxseq
  | setInitialized modelId =>
    refine ⟨hregistry, h.ids, h.fresh, keys_modifyModel h.keys fun r hr _ => h.keys r hr, ?_⟩
    exact fun f hf hp => (h.owned f hf hp).modifyModel (fun _ => rfl) fun _ _ _ hmem => hmem
  | openModel sessionId slot tenant =>
    obtain ⟨hids, hfresh⟩ := ids_createFuture h.takeId (.model s.nextId) tenant
    refine ⟨hregistry, hids, hfresh, ?_, ?_⟩
    · intro r hr
      obtain hr | hr := List.mem_append.mp hr
      · exact h.keys r hr
      · rw [List.mem_singleton.mp hr]
        exact .nil
    · intro f hf hp
      obtain hold | rfl := mem_createFuture hf
      · refine (h.owned f hold hp).mono (fun _ hx _ => hx) fun r hr hmem => ?_
        exact ⟨r, List.mem_append_left _ hr, rfl, hmem⟩
      · exact ⟨_, List.mem_append_right _ (List.mem_singleton.mpr rfl), rfl, List.mem_cons_self⟩
  | enqueueCommand tenant r command hr hseq hnew hid harrival =>
    obtain ⟨hids, hfresh⟩ := ids_createFuture h (.model command.modelId) tenant
    refine ⟨hregistry, hids, hfresh, ?_, ?_⟩
    · refine keys_modifyModel h.keys fun r' hr' hid' => ?_
      obtain rfl := h.registry.findModel_eq hr hr' hid'
      exact List.nodup_cons.mpr ⟨not_mem_of_lookup hnew, h.keys r' hr'⟩
    · intro f hf hp
      obtain hold | rfl := mem_createFuture hf
      · have howned : Owned (s.modifyModel command.modelId fun r => { r with
            requestIdBySeq := (command.seqId, command.requestId) :: r.requestIdBySeq }) f := by
          refine (h.owned f hold hp).modifyModel (fun _ => rfl) fun r' _ _ hmem => ?_
          obtain hcreate | hmem := List.mem_cons.mp hmem
          · exact List.mem_cons.mpr (.inl hcreate)
          · exact List.mem_cons_of_mem _ (List.mem_cons_of_mem _ hmem)
        exact howned.same rfl rfl
      · obtain ⟨hmem, hmid⟩ := findModel_some hr
        refine ⟨_, List.mem_map.mpr ⟨r, hmem, rfl⟩, ?_⟩
        rw [if_pos hmid]
        refine ⟨hmid, List.mem_cons_of_mem _ (List.mem_cons.mpr (.inl ?_))⟩
        exact hid.symm
  | close modelId r outcome hr =>
    obtain ⟨hids, hfresh⟩ := fresh_of_map h
      (map_settleAll (r.createRequestId :: r.requestIdBySeq.map (·.2)) s.clock outcome s.futures)
    refine ⟨hregistry, hids, hfresh, fun r' hr' => h.keys r' (List.mem_filter.mp hr').1, ?_⟩
    intro f hf hp
    obtain ⟨hold, hnot⟩ := pending_settleAll hp hf
    refine (h.owned f hold hp).mono (fun _ hx _ => hx) fun r' hr' hmem => ⟨r', ?_, rfl, hmem⟩
    -- the closed model's requests are all answered
    refine List.mem_filter.mpr ⟨hr', decide_eq_true fun hid => hnot ?_⟩
    rw [h.registry.findModel_eq hr hr' hid] at hmem
    exact hmem
  | startSample tenant sessionId =>
    obtain ⟨hids, hfresh⟩ := ids_createFuture h .sampler tenant
    refine ⟨hregistry, hids, hfresh, h.keys, ?_⟩
    intro f hf hp
    obtain hold | rfl := mem_createFuture hf
    · exact (h.owned f hold hp).mono (fun x hx _ => List.mem_append_left _ hx)
        fun r hr hmem => ⟨r, hr, rfl, hmem⟩
    · exact ⟨_, List.mem_append_right _ (List.mem_singleton.mpr rfl), rfl⟩
  | endSample requestId outcome =>
    obtain ⟨hids, hfresh⟩ := fresh_of_map h (map_settle requestId s.clock outcome s.futures)
    refine ⟨hregistry, hids, hfresh, h.keys, ?_⟩
    intro f hf hp
    obtain ⟨hold, hne⟩ := pending_settle hp hf
    refine (h.owned f hold hp).mono (fun x hx hxid => ?_) fun r hr hmem => ⟨r, hr, rfl, hmem⟩
    exact List.mem_filter.mpr ⟨hx, decide_eq_true fun heq => hne (hxid.symm.trans heq)⟩

/-- The invariant holds in every run. -/
theorem FuturesInv.of_run {es : List Event}
    (hrun : run (step config) (Tinker.init config) es = some s) : s.FuturesInv :=
  run_update_invariant (fun _ _ h hup => h.update hup) (.init config) hrun

/-! ## Settling once -/

/-- In every reachable state, a future that has an answer has the same answer in every later
    state that knows it; and no request of a model that is closed is pending. -/
theorem futures_settle_once (config : GatewayConfig) (es : List Event) (s : Service)
    (hrun : run (step config) (Tinker.init config) es = some s) :
    (∀ es' s', run (step config) s es' = some s' → ∀ f ∈ s.futures, ∀ f' ∈ s'.futures,
      f.requestId = f'.requestId → ∀ outcome, f.state = .settled outcome →
        f'.state = .settled outcome) ∧
    ∀ f ∈ s.futures, ∀ modelId, f.owner = .model modelId → s.findModel modelId = none →
      ∃ outcome, f.state = .settled outcome := by
  have hinv := FuturesInv.of_run hrun
  constructor
  · intro es' s' hrun' f hf f' hf' hid outcome hsettled
    obtain hnew | ⟨g, hg, hgid, hkeep⟩ := (Evolves.updates (run_updates hrun')).kept f' hf'
    · -- the identifier of a new future was not in use
      have hlt := hinv.fresh f hf
      omega
    · obtain rfl : f = g := List.inj_on_of_nodup_map hinv.ids hf hg (hid.trans hgid.symm)
      exact hkeep outcome hsettled
  · intro f hf modelId howner hclosed
    cases hstate : f.state with
    | settled outcome => exact ⟨outcome, rfl⟩
    | pending =>
      have howned := hinv.owned f hf hstate
      unfold Owned at howned
      rw [howner] at howned
      obtain ⟨r, hr, hid, -⟩ := howned
      have hno := List.find?_eq_none.mp hclosed r hr
      simp [hid] at hno

/-- A model with a queued and a buffered command, whose load fails. -/
def closeWithPending : List Event :=
  [.createSession "tenant", .createModel "tenant" 0 0 true, .startCreate 1,
    .submit "tenant" 1 1 .saveState {} none, .submit "tenant" 1 3 .optimStep {} none,
    .resume (.failed "out of memory")]

/-- The state after `closeWithPending`. -/
def closedState : Service :=
  (run (step ⟨1, 10, 100⟩) (Tinker.init ⟨1, 10, 100⟩) closeWithPending).getD
    (Tinker.init ⟨1, 10, 100⟩)

theorem closeWithPending_run : run (step ⟨1, 10, 100⟩) (Tinker.init ⟨1, 10, 100⟩)
    closeWithPending = some closedState := rfl

theorem futures_settle_once_closed :
    closedState.futures.length = 3 ∧
    ∀ f ∈ closedState.futures, ∃ outcome, f.state = .settled outcome := by
  have hsettled := (futures_settle_once ⟨1, 10, 100⟩ closeWithPending closedState
    closeWithPending_run).2
  have howner : ∀ f ∈ closedState.futures, f.owner = .model 1 := by decide
  exact ⟨rfl, fun f hf => hsettled f hf 1 (howner f hf) rfl⟩

end Service

end Miles.Tinker
