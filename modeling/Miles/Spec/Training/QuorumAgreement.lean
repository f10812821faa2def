import Miles.ForStd.List
import Miles.ForStd.Lts
import Miles.Native.Training.TrainerCells

/-!
# Quorum agreement of trainer cells

Every reconfiguration hands out a new quorum id with one list of cells, so an id determines its
list for good.  A cell either takes the new info in its own prepare or ends that prepare errored
or removed, and only cells that take part in a prepare become alive: when the gather is over,
the alive cells hold the last id and its list.

The list is the set of alive cells unless a cell that had already prepared was removed, or
errored by another call, while the others were still preparing.  Then no prepare raises, and the
closing assertion of the refresh fails.
-/

namespace Miles.Training.Trainer

namespace TrainerController

/-! ## Cells of the controller -/

/-- The cell object at position `i` is not removed. -/
def Registered (s : TrainerController) (i : Nat) (c : TrainerCell) : Prop :=
  s.objects[i]? = some c ∧ c.disposed = false

/-- The cell object at position `i` is in the controller, alive and holds `info`. -/
def AliveCell (s : TrainerController) (i : Nat) (c : TrainerCell) (info : IndepDPInfo) : Prop :=
  s.Registered i c ∧ c.state = .alive info

/-- The alive cells of the controller: `[c.cell_index for c in self._cells if c.is_alive]`. -/
def aliveCellIndices (s : TrainerController) : List Nat := s.indicesWhere TrainerCell.isAlive

variable {s s' : TrainerController} {stage : PrepareStage} {p : Participant} {c c' : TrainerCell}
  {op : Operation}

theorem isAlive_iff : c.isAlive = true ↔ ∃ info, c.state = .alive info := by
  unfold TrainerCell.isAlive
  cases c.state <;> simp

theorem mem_cells {i : Nat} :
    (c, i) ∈ s.cells ↔ s.Registered i c := by
  unfold cells Registered
  rw [List.mem_insertionSort, List.mem_filter, List.mem_zipIdx_iff_getElem?]
  simp

theorem mem_indicesWhere {keep : TrainerCell → Bool} {k : Nat} :
    k ∈ s.indicesWhere keep ↔ ∃ i c, s.Registered i c ∧ keep c = true ∧ c.cellIndex = k := by
  unfold indicesWhere
  simp only [List.mem_map, List.mem_filter, Prod.exists]
  constructor
  · rintro ⟨c, i, ⟨hmem, hkeep⟩, heq⟩
    exact ⟨i, c, mem_cells.mp hmem, hkeep, heq⟩
  · rintro ⟨i, c, hreg, hkeep, heq⟩
    exact ⟨c, i, ⟨mem_cells.mpr hreg, hkeep⟩, heq⟩

/-- The alive indices are those of the registered alive cells. -/
theorem mem_aliveCellIndices {k : Nat} :
    k ∈ s.aliveCellIndices ↔ ∃ i c info, s.AliveCell i c info ∧ c.cellIndex = k := by
  rw [aliveCellIndices, mem_indicesWhere]
  constructor
  · rintro ⟨i, c, hreg, halive, heq⟩
    obtain ⟨info, hinfo⟩ := isAlive_iff.mp halive
    exact ⟨i, c, info, ⟨hreg, hinfo⟩, heq⟩
  · rintro ⟨i, c, info, ⟨hreg, hinfo⟩, heq⟩
    exact ⟨i, c, hreg, isAlive_iff.mpr ⟨info, hinfo⟩, heq⟩

/-- No two cells of the controller have the same index. -/
def Unique (s : TrainerController) : Prop :=
  ∀ i j c d, s.Registered i c → s.Registered j d → c.cellIndex = d.cellIndex → i = j

theorem cells_nodup (s : TrainerController) : (s.cells.map Prod.snd).Nodup := by
  have hperm : (s.cells.map Prod.snd).Perm
      ((s.objects.zipIdx.filter fun entry => !entry.1.disposed).map Prod.snd) :=
    (List.perm_insertionSort ..).map _
  have hsub : ((s.objects.zipIdx.filter fun entry => !entry.1.disposed).map Prod.snd).Sublist
      (s.objects.zipIdx.map Prod.snd) := List.filter_sublist.map _
  refine hperm.nodup_iff.mpr (hsub.nodup ?_)
  rw [List.zipIdx_map_snd]
  exact List.nodup_range'

/-- The cells are sorted by strictly increasing index. -/
theorem cells_pairwise (h : s.Unique) :
    s.cells.Pairwise fun a b => a.1.cellIndex < b.1.cellIndex := by
  have htotal : Std.Total fun a b : TrainerCell × Nat => a.1.cellIndex ≤ b.1.cellIndex :=
    ⟨fun a b => le_total _ _⟩
  have htrans : IsTrans (TrainerCell × Nat) fun a b => a.1.cellIndex ≤ b.1.cellIndex :=
    ⟨fun _ _ _ => le_trans⟩
  have hsorted : s.cells.Pairwise fun a b => a.1.cellIndex ≤ b.1.cellIndex :=
    List.pairwise_insertionSort _ _
  have hnodup : s.cells.Pairwise fun a b => a.2 ≠ b.2 := List.pairwise_map.mp s.cells_nodup
  have hboth := List.Pairwise.and_mem.mp (hsorted.and hnodup)
  refine hboth.imp ?_
  rintro ⟨c, i⟩ ⟨d, j⟩ ⟨hc, hd, hle, hne⟩
  have hneq : c.cellIndex ≠ d.cellIndex := fun heq =>
    hne (h i j c d (mem_cells.mp hc) (mem_cells.mp hd) heq)
  exact lt_of_le_of_ne hle hneq

theorem indicesWhere_pairwise (h : s.Unique) (keep : TrainerCell → Bool) :
    (s.indicesWhere keep).Pairwise (· < ·) := by
  unfold indicesWhere
  rw [List.pairwise_map]
  exact (cells_pairwise h).filter _

/-! ## The invariant -/

/-- Some cell object, removed ones included, or some prepare in flight holds `info`. -/
def Holds (s : TrainerController) (info : IndepDPInfo) : Prop :=
  (∃ (i : Nat) (c : TrainerCell), s.objects[i]? = some c ∧ c.state.info? = some info) ∨
    ∃ op : Operation, s.operation = some op ∧ ∃ p ∈ op.participants, p.info = info

/-- An alive cell's prepare that has not given the cell its new info yet. -/
def AwaitsUpdate (p : Participant) : Prop :=
  (∃ ranks, p.mode = .alive ranks) ∧ (p.stage = .queued ∨ p.stage = .calling .reconfigureIndepDp)

/-- What holds while prepares are gathered. -/
structure Gathering (s : TrainerController) (op : Operation) : Prop where
  info : ∀ p ∈ op.participants,
    p.info.quorumId = s.indepDpQuorumId ∧ p.info.aliveCellIndices = op.willAliveIndices
  object : ∀ p ∈ op.participants, ∃ c : TrainerCell, s.objects[p.object]? = some c ∧
    c.cellIndex = p.info.cellIndex
  /-- the participants are the cells of the list, one each -/
  indices : (op.participants.map (·.info.cellIndex)).Perm op.willAliveIndices
  sorted : op.willAliveIndices.Pairwise (· < ·)
  /-- only participants are alive -/
  covers : ∀ i c info, s.AliveCell i c info → ∃ p ∈ op.participants, p.object = i
  /-- an alive cell without the new info has its prepare still in flight -/
  updated : ∀ i c info, s.AliveCell i c info →
    (info.quorumId = s.indepDpQuorumId ∧ info.aliveCellIndices = op.willAliveIndices) ∨
      ∃ p ∈ op.participants, p.object = i ∧ AwaitsUpdate p

/-- What every run keeps. -/
structure Inv (s : TrainerController) : Prop where
  unique : s.Unique
  bound : ∀ info, s.Holds info → info.quorumId ≤ s.indepDpQuorumId
  same : ∀ a b, s.Holds a → s.Holds b → a.quorumId = b.quorumId →
    a.aliveCellIndices = b.aliveCellIndices
  owned : ∀ (i : Nat) (c : TrainerCell) (info : IndepDPInfo), s.objects[i]? = some c →
    c.state.info? = some info → info.cellIndex = c.cellIndex
  started : s.initialized = true → s.initStarted = true
  /-- before `init` no cell holds an info -/
  fresh : s.initStarted = false → s.operation = none ∧ ∀ info, ¬ s.Holds info
  gathering : ∀ op, s.operation = some op → s.Gathering op
  /-- between gathers the alive cells hold the last quorum id and one list -/
  settled : s.operation = none → ∃ list : List Nat, ∀ i c info, s.AliveCell i c info →
    info.quorumId = s.indepDpQuorumId ∧ info.aliveCellIndices = list

theorem inv_initial : Inv {} where
  unique := by
    rintro i j c d ⟨hc, -⟩
    cases hc
  started := by
    intro h
    cases h
  bound := by
    rintro info (⟨i, c, hc, -⟩ | ⟨op, hop, -⟩)
    · cases hc
    · cases hop
  same := by
    rintro a b (⟨i, c, hc, -⟩ | ⟨op, hop, -⟩)
    · cases hc
    · cases hop
  owned := by
    rintro i c info hc
    cases hc
  fresh := by
    refine fun _ => ⟨rfl, ?_⟩
    rintro info (⟨i, c, hc, -⟩ | ⟨op, hop, -⟩)
    · cases hc
    · cases hop
  gathering := by
    rintro op hop
    cases hop
  settled := by
    refine fun _ => ⟨[], ?_⟩
    rintro i c info ⟨⟨hc, -⟩, -⟩
    cases hc

/-! ### Steps that make no cell alive -/

/-- `s'` differs from `s` in cells only: some are removed or errored, and new ones hold no
    info. -/
structure Quiets (s s' : TrainerController) : Prop where
  operation : s'.operation = s.operation
  quorum : s'.indepDpQuorumId = s.indepDpQuorumId
  initStarted : s'.initStarted = s.initStarted
  initialized : s'.initialized = s.initialized
  kept : ∀ (i : Nat) (c : TrainerCell), s.objects[i]? = some c →
    ∃ c' : TrainerCell, s'.objects[i]? = some c' ∧ c'.cellIndex = c.cellIndex
  old : ∀ (i : Nat) (c' : TrainerCell), s'.objects[i]? = some c' →
    (∃ c : TrainerCell, s.objects[i]? = some c ∧ c'.cellIndex = c.cellIndex ∧
      c'.state.info? = c.state.info? ∧ (c'.disposed = false → c.disposed = false) ∧
      (c'.state = c.state ∨ ∃ info, c'.state = .errored info)) ∨
    c'.state.info? = none

namespace Quiets

variable {s s' : TrainerController}

theorem aliveCell (h : s.Quiets s') {i : Nat} {c' : TrainerCell} {info : IndepDPInfo}
    (halive : s'.AliveCell i c' info) : ∃ c, s.AliveCell i c info := by
  obtain ⟨⟨hc', hdisposed⟩, hstate⟩ := halive
  rcases h.old i c' hc' with ⟨c, hc, -, -, hd, hsame | ⟨x, herrored⟩⟩ | hnew
  · exact ⟨c, ⟨hc, hd hdisposed⟩, hsame ▸ hstate⟩
  · rw [herrored] at hstate
    cases hstate
  · simp [hstate, CellState.info?] at hnew

theorem holds (h : s.Quiets s') {info : IndepDPInfo} (hinfo : s'.Holds info) : s.Holds info := by
  rcases hinfo with ⟨i, c', hc', hstate⟩ | ⟨op, hop, hp⟩
  · rcases h.old i c' hc' with ⟨c, hc, -, hinfo, -, -⟩ | hnew
    · exact .inl ⟨i, c, hc, hinfo ▸ hstate⟩
    · rw [hnew] at hstate
      cases hstate
  · exact .inr ⟨op, h.operation ▸ hop, hp⟩

theorem gathering (h : s.Quiets s') (hop : s.Gathering op) : s'.Gathering op where
  info := by
    rw [h.quorum]
    exact hop.info
  object := by
    intro p hp
    obtain ⟨c, hc, hindex⟩ := hop.object p hp
    obtain ⟨c', hc', hindex'⟩ := h.kept _ c hc
    exact ⟨c', hc', hindex'.trans hindex⟩
  indices := hop.indices
  sorted := hop.sorted
  covers := by
    intro i c' info halive
    obtain ⟨c, hc⟩ := h.aliveCell halive
    exact hop.covers i c info hc
  updated := by
    intro i c' info halive
    obtain ⟨c, hc⟩ := h.aliveCell halive
    rw [h.quorum]
    exact hop.updated i c info hc

/-- Such a step keeps the invariant as long as indices stay unique. -/
theorem inv (h : s.Quiets s') (hs : Inv s) (hunique : s'.Unique) : Inv s' where
  unique := hunique
  bound := fun info hinfo => h.quorum ▸ hs.bound info (h.holds hinfo)
  same := fun a b ha hb => hs.same a b (h.holds ha) (h.holds hb)
  owned := by
    intro i c' info hc' hstate
    rcases h.old i c' hc' with ⟨c, hc, hindex, hinfo, -, -⟩ | hnew
    · rw [hindex]
      exact hs.owned i c info hc (hinfo ▸ hstate)
    · rw [hnew] at hstate
      cases hstate
  started := by
    rw [h.initialized, h.initStarted]
    exact hs.started
  fresh := by
    intro hinit
    obtain ⟨hop, hnone⟩ := hs.fresh (h.initStarted ▸ hinit)
    exact ⟨h.operation ▸ hop, fun info hinfo => hnone info (h.holds hinfo)⟩
  gathering := fun op hop => h.gathering (hs.gathering op (h.operation ▸ hop))
  settled := by
    intro hop
    obtain ⟨list, hlist⟩ := hs.settled (h.operation ▸ hop)
    refine ⟨list, fun i c' info halive => ?_⟩
    obtain ⟨c, hc⟩ := h.aliveCell halive
    rw [h.quorum]
    exact hlist i c info hc

theorem trans {s'' : TrainerController} (h : s.Quiets s') (h' : s'.Quiets s'') : s.Quiets s'' where
  operation := h'.operation.trans h.operation
  quorum := h'.quorum.trans h.quorum
  initStarted := h'.initStarted.trans h.initStarted
  initialized := h'.initialized.trans h.initialized
  kept := by
    intro i c hc
    obtain ⟨c', hc', hindex⟩ := h.kept i c hc
    obtain ⟨c'', hc'', hindex'⟩ := h'.kept i c' hc'
    exact ⟨c'', hc'', hindex'.trans hindex⟩
  old := by
    intro i c'' hc''
    rcases h'.old i c'' hc'' with ⟨c', hc', hindex', hinfo', hd', hstate'⟩ | hnew
    · rcases h.old i c' hc' with ⟨c, hc, hindex, hinfo, hd, hstate⟩ | hnew
      · refine .inl ⟨c, hc, hindex'.trans hindex, hinfo'.trans hinfo, fun hf => hd (hd' hf), ?_⟩
        rcases hstate' with hsame | herrored
        · rw [hsame]
          exact hstate
        · exact .inr herrored
      · exact .inr (hinfo'.trans hnew)
    · exact .inr hnew

end Quiets

/-- Marking a cell as errored makes none alive. -/
theorem quiets_markErrored {i : Nat}
    (hc : s.objects[i]? = some c) :
    s.Quiets { s with objects := s.objects.set i c.markAsErrored } where
  operation := rfl
  quorum := rfl
  initStarted := rfl
  initialized := rfl
  kept := by
    intro j d hd
    by_cases hij : j = i
    · subst hij
      obtain rfl : c = d := Option.some.inj (hc.symm.trans hd)
      exact ⟨_, (List.getElem?_set_eq_some hc).mpr (.inl ⟨rfl, rfl⟩), rfl⟩
    · exact ⟨d, (List.getElem?_set_eq_some hc).mpr (.inr ⟨hij, hd⟩), rfl⟩
  old := by
    intro j d' hd'
    left
    rcases (List.getElem?_set_eq_some hc).mp hd' with ⟨rfl, rfl⟩ | ⟨hij, hd⟩
    · exact ⟨c, hc, rfl, rfl, id, .inr ⟨_, rfl⟩⟩
    · exact ⟨d', hd, rfl, rfl, id, .inl rfl⟩

theorem unique_markErrored {i : Nat}
    (hc : s.objects[i]? = some c) (h : s.Unique) :
    Unique { s with objects := s.objects.set i c.markAsErrored } := by
  have hreg : ∀ (j : Nat) (d' : TrainerCell),
      Registered { s with objects := s.objects.set i c.markAsErrored } j d' →
        ∃ d, s.Registered j d ∧ d.cellIndex = d'.cellIndex := by
    rintro j d' ⟨hd', hdisposed⟩
    rcases (List.getElem?_set_eq_some hc).mp hd' with ⟨rfl, rfl⟩ | ⟨hij, hd⟩
    · exact ⟨c, ⟨hc, hdisposed⟩, rfl⟩
    · exact ⟨d', ⟨hd, hdisposed⟩, rfl⟩
  intro j k d e hd he heq
  obtain ⟨d', hd', hdi⟩ := hreg j d hd
  obtain ⟨e', he', hei⟩ := hreg k e he
  exact h j k d' e' hd' he' (by rw [hdi, hei, heq])

/-- A cell with the index of a removal is disposed. -/
def removedCell (cellIndex : Nat) (c : TrainerCell) : TrainerCell :=
  if c.cellIndex = cellIndex then { c with disposed := true } else c

theorem removedCell_fields (cellIndex : Nat) (c : TrainerCell) :
    (removedCell cellIndex c).cellIndex = c.cellIndex ∧
      (removedCell cellIndex c).state = c.state ∧
      ((removedCell cellIndex c).disposed = false → c.disposed = false ∧ c.cellIndex ≠ cellIndex) := by
  unfold removedCell
  split
  · exact ⟨rfl, rfl, fun h => by cases h⟩
  · rename_i hne
    exact ⟨rfl, rfl, fun h => ⟨h, hne⟩⟩

theorem getElem?_removeCell (s : TrainerController) (cellIndex i : Nat) :
    (s.removeCell cellIndex).objects[i]? = (s.objects[i]?).map (removedCell cellIndex) :=
  List.getElem?_map ..

theorem registered_removeCell {cellIndex i : Nat} {c' : TrainerCell}
    (h : (s.removeCell cellIndex).Registered i c') :
    c'.cellIndex ≠ cellIndex ∧ ∃ c, s.Registered i c ∧ c.cellIndex = c'.cellIndex := by
  obtain ⟨hc', hdisposed⟩ := h
  rw [getElem?_removeCell] at hc'
  obtain ⟨c, hc, rfl⟩ := Option.map_eq_some_iff.mp hc'
  obtain ⟨hindex, -, hd⟩ := removedCell_fields cellIndex c
  rw [hindex]
  exact ⟨(hd hdisposed).2, c, ⟨hc, (hd hdisposed).1⟩, rfl⟩

/-- Removing a cell makes none alive. -/
theorem quiets_removeCell (s : TrainerController) (cellIndex : Nat) :
    s.Quiets (s.removeCell cellIndex) where
  operation := rfl
  quorum := rfl
  initStarted := rfl
  initialized := rfl
  kept := by
    intro i c hc
    refine ⟨removedCell cellIndex c, ?_, (removedCell_fields cellIndex c).1⟩
    rw [getElem?_removeCell, hc, Option.map_some]
  old := by
    intro i c' hc'
    rw [getElem?_removeCell] at hc'
    obtain ⟨c, hc, rfl⟩ := Option.map_eq_some_iff.mp hc'
    obtain ⟨hindex, hstate, hd⟩ := removedCell_fields cellIndex c
    exact .inl ⟨c, hc, hindex, by rw [hstate], fun h => (hd h).1, .inl hstate⟩

/-- A removal keeps the indices distinct. -/
theorem unique_removeCell (h : s.Unique) (cellIndex : Nat) :
    (s.removeCell cellIndex).Unique := by
  intro i j c d hc hd heq
  obtain ⟨-, c', hc', hci⟩ := registered_removeCell hc
  obtain ⟨-, d', hd', hdi⟩ := registered_removeCell hd
  exact h i j c' d' hc' hd' (by rw [hci, hdi, heq])

theorem getElem?_addCell {cellIndex : Nat} {hash : String} {i : Nat}
    (h : (s.addCell cellIndex hash).objects[i]? = some c) :
    s.objects[i]? = some c ∨ (i = s.objects.length ∧ c = { cellIndex, workersHash := hash }) := by
  have happend : (s.objects ++ [{ cellIndex, workersHash := hash }])[i]? = some c := h
  rcases lt_trichotomy i s.objects.length with hlt | rfl | hgt
  · rw [List.getElem?_append_left hlt] at happend
    exact .inl happend
  · simp only [List.getElem?_concat_length] at happend
    exact .inr ⟨rfl, (Option.some.inj happend).symm⟩
  · rw [List.getElem?_eq_none (by simp; omega)] at happend
    cases happend

/-- An added cell is not alive. -/
theorem quiets_addCell (s : TrainerController) (cellIndex : Nat) (hash : String) :
    s.Quiets (s.addCell cellIndex hash) where
  operation := rfl
  quorum := rfl
  initStarted := rfl
  initialized := rfl
  kept := by
    intro i c hc
    obtain ⟨hlt, -⟩ := List.getElem?_eq_some_iff.mp hc
    exact ⟨c, (List.getElem?_append_left hlt).trans hc, rfl⟩
  old := by
    intro i c' hc'
    rcases getElem?_addCell hc' with hc | ⟨-, rfl⟩
    · exact .inl ⟨c', hc, rfl, rfl, id, .inl rfl⟩
    · exact .inr rfl

/-- Adding a cell whose index no cell of the controller has. -/
theorem unique_addCell (h : s.Unique) {cellIndex : Nat} (hash : String)
    (hnew : ∀ i c, s.Registered i c → c.cellIndex ≠ cellIndex) :
    (s.addCell cellIndex hash).Unique := by
  rintro i j c d ⟨hc, hcd⟩ ⟨hd, hdd⟩ heq
  rcases getElem?_addCell hc with hc | ⟨hi, rfl⟩ <;> rcases getElem?_addCell hd with hd | ⟨hj, rfl⟩
  · exact h i j c d ⟨hc, hcd⟩ ⟨hd, hdd⟩ heq
  · exact absurd heq (hnew i c ⟨hc, hcd⟩)
  · exact absurd heq.symm (hnew j d ⟨hd, hdd⟩)
  · rw [hi, hj]

/-- An observation of the provider keeps the invariant. -/
theorem inv_reconcile (h : Inv s) (cellIndex : Nat)
    (observed : Option String) : Inv (s.reconcile cellIndex observed) := by
  unfold reconcile
  simp only
  split
  · rename_i hash hactual
    apply (quiets_addCell s cellIndex hash).inv h
    apply unique_addCell h.unique
    rintro i c ⟨hc, hdisposed⟩ hindex
    have hnone := List.find?_eq_none.mp hactual c (List.mem_of_getElem? hc)
    simp [hdisposed, hindex] at hnone
  · exact (quiets_removeCell s cellIndex).inv h (unique_removeCell h.unique cellIndex)
  · rename_i hash c hactual
    split
    · have hremoved := unique_removeCell h.unique cellIndex
      apply ((quiets_removeCell s cellIndex).trans (quiets_addCell _ cellIndex hash)).inv h
      apply unique_addCell hremoved
      intro i c hc
      exact (registered_removeCell hc).1
    · exact h
  · exact h

/-! ### The start of a gather -/

theorem computeIndepDpInfo_eq_some {q k : Nat} {alive : List Nat}
    {info : IndepDPInfo} (h : s.computeIndepDpInfo q k alive = some info) :
    info.cellIndex = k ∧ info.quorumId = q ∧ info.aliveCellIndices = alive := by
  unfold computeIndepDpInfo at h
  split at h
  · cases h
  · cases h
    exact ⟨rfl, rfl, rfl⟩

theorem exists_computeIndepDpInfo (s : TrainerController) (q : Nat) {k : Nat} {alive : List Nat}
    (h : k ∈ alive) : ∃ info, s.computeIndepDpInfo q k alive = some info := by
  unfold computeIndepDpInfo
  split
  · rename_i hnone
    exact absurd h (List.idxOf?_eq_none_iff.mp hnone)
  · exact ⟨_, rfl⟩

/-- A participant is a cell of the controller with its new info, not started yet. -/
theorem mem_prepareAll {q : Nat} {willAlive : List Nat}
    {mode : TrainerCell → PrepareMode} :
    p ∈ s.prepareAll q willAlive mode ↔ ∃ c info, s.Registered p.object c ∧
      s.computeIndepDpInfo q c.cellIndex willAlive = some info ∧
      p = { object := p.object, mode := mode c, info } := by
  simp only [prepareAll, List.mem_filterMap, List.mem_filter, Prod.exists, Option.map_eq_some_iff]
  constructor
  · rintro ⟨c, i, ⟨hmem, -⟩, info, hinfo, rfl⟩
    exact ⟨c, info, mem_cells.mp hmem, hinfo, rfl⟩
  · rintro ⟨c, info, hreg, hinfo, heq⟩
    have hmem : c.cellIndex ∈ willAlive := by
      obtain ⟨hk, -, halive⟩ := computeIndepDpInfo_eq_some hinfo
      have hsome := info.aliveRank_eq
      rw [hk, halive] at hsome
      by_contra hnot
      rw [List.idxOf?_eq_none_iff.mpr hnot] at hsome
      cases hsome
    exact ⟨c, p.object, ⟨mem_cells.mpr hreg, by simpa using hmem⟩, info, hinfo, heq.symm⟩

/-- The participants' indices, in the order of the cells. -/
theorem map_cellIndex_prepareAll (s : TrainerController) (q : Nat) (willAlive : List Nat)
    (mode : TrainerCell → PrepareMode) :
    (s.prepareAll q willAlive mode).map (·.info.cellIndex) =
      s.indicesWhere fun c => c.cellIndex ∈ willAlive := by
  unfold prepareAll indicesWhere
  rw [List.map_filterMap]
  have hall : ∀ entry ∈ s.cells.filter (fun entry => decide (entry.1.cellIndex ∈ willAlive)),
      ((s.computeIndepDpInfo q entry.1.cellIndex willAlive).map fun info =>
        ({ object := entry.2, mode := mode entry.1, info } : Participant)).map
          (·.info.cellIndex) = some entry.1.cellIndex := by
    intro entry hentry
    have hmem : entry.1.cellIndex ∈ willAlive := by simpa using (List.mem_filter.mp hentry).2
    obtain ⟨info, hinfo⟩ := s.exists_computeIndepDpInfo q hmem
    rw [hinfo]
    simpa using (computeIndepDpInfo_eq_some hinfo).1
  rw [List.filterMap_congr hall]
  simp

/-- Starting a gather with a new quorum id keeps the invariant. -/
theorem inv_prepare (h : Inv s) {q : Nat} {willAlive : List Nat}
    {mode : TrainerCell → PrepareMode} (isInit : Bool) {started : Bool} (hstarted : started = true)
    (hq : ∀ info, s.Holds info → info.quorumId < q) (hsorted : willAlive.Pairwise (· < ·))
    (hreg : ∀ k ∈ willAlive, ∃ i c, s.Registered i c ∧ c.cellIndex = k)
    (hmode : ∀ i c info, s.AliveCell i c info →
      c.cellIndex ∈ willAlive ∧ ∃ ranks, mode c = .alive ranks) :
    Inv
      { s with
        indepDpQuorumId := q
        initStarted := started
        operation := some
          { isInit, willAliveIndices := willAlive, participants := s.prepareAll q willAlive mode } }
    where
  unique := h.unique
  started := fun _ => hstarted
  owned := h.owned
  fresh := fun hinit => by cases hstarted.symm.trans hinit
  settled := fun hnone => by cases hnone
  -- what is held from before has a smaller quorum id, what is handed out has the new one
  bound := by
    rintro info (hold | ⟨op, hop', p, hp, rfl⟩)
    · exact le_of_lt (hq info (.inl hold))
    · cases hop'
      obtain ⟨c, info, -, hinfo, heq⟩ := mem_prepareAll.mp hp
      rw [heq]
      exact le_of_eq (computeIndepDpInfo_eq_some hinfo).2.1
  same := by
    have hnew : ∀ p ∈ s.prepareAll q willAlive mode,
        p.info.quorumId = q ∧ p.info.aliveCellIndices = willAlive := by
      intro p hp
      obtain ⟨c, info, -, hinfo, heq⟩ := mem_prepareAll.mp hp
      rw [heq]
      exact (computeIndepDpInfo_eq_some hinfo).2
    -- an id that is new is shared by the prepared cells only
    rintro a b (hold | ⟨op, hop', p, hp, rfl⟩) (hold' | ⟨op', hop'', p', hp', rfl⟩) heq
    · exact h.same a b (.inl hold) (.inl hold') heq
    · cases hop''
      have hlt := hq a (.inl hold)
      rw [heq, (hnew p' hp').1] at hlt
      exact absurd hlt (lt_irrefl q)
    · cases hop'
      have hlt := hq b (.inl hold')
      rw [← heq, (hnew p hp).1] at hlt
      exact absurd hlt (lt_irrefl q)
    · cases hop'
      cases hop''
      rw [(hnew p hp).2, (hnew p' hp').2]
  gathering := by
    rintro op hop'
    cases hop'
    constructor
    · intro p hp
      obtain ⟨c, info, -, hinfo, heq⟩ := mem_prepareAll.mp hp
      rw [heq]
      exact (computeIndepDpInfo_eq_some hinfo).2
    · intro p hp
      obtain ⟨c, info, hc, hinfo, heq⟩ := mem_prepareAll.mp hp
      refine ⟨c, hc.1, ?_⟩
      rw [heq]
      exact (computeIndepDpInfo_eq_some hinfo).1.symm
    · show ((s.prepareAll q willAlive mode).map (·.info.cellIndex)).Perm willAlive
      rw [map_cellIndex_prepareAll]
      apply (List.perm_ext_iff_of_nodup ((indicesWhere_pairwise h.unique _).imp ne_of_lt)
        (hsorted.imp ne_of_lt)).mpr
      intro k
      rw [mem_indicesWhere]
      constructor
      · rintro ⟨i, c, -, hmem, rfl⟩
        simpa using hmem
      · intro hk
        obtain ⟨i, c, hc, rfl⟩ := hreg k hk
        exact ⟨i, c, hc, by simpa using hk, rfl⟩
    · exact hsorted
    · intro i c info halive
      obtain ⟨hmem, -⟩ := hmode i c info halive
      -- a cell that is alive takes part, so its info will be replaced
      obtain ⟨info', hinfo'⟩ := s.exists_computeIndepDpInfo q hmem
      exact ⟨⟨i, mode c, info', .queued⟩, mem_prepareAll.mpr ⟨c, info', halive.1, hinfo', rfl⟩, rfl⟩
    · intro i c info halive
      obtain ⟨hmem, hranks⟩ := hmode i c info halive
      obtain ⟨info', hinfo'⟩ := s.exists_computeIndepDpInfo q hmem
      exact .inr ⟨⟨i, mode c, info', .queued⟩,
        mem_prepareAll.mpr ⟨c, info', halive.1, hinfo', rfl⟩, rfl, hranks, .inl rfl⟩

/-- `init` keeps the invariant. -/
theorem inv_startInit (h : Inv s) (hstep : s.step .startInit = some s') :
    Inv s' := by
  simp only [step] at hstep
  split at hstep
  · cases hstep
  · rename_i hnot
    cases hstep
    obtain ⟨-, hnone⟩ := h.fresh (by simpa using hnot)
    apply inv_prepare h true rfl
    · exact fun info hinfo => absurd hinfo (hnone info)
    · exact indicesWhere_pairwise h.unique _
    · intro k hk
      obtain ⟨i, c, hc, -, hindex⟩ := mem_indicesWhere.mp hk
      exact ⟨i, c, hc, hindex⟩
    · intro i c info halive
      exact absurd (.inl ⟨i, c, halive.1.1, by rw [halive.2]; rfl⟩) (hnone info)

/-- What a reconfiguration was decided on. -/
theorem refreshDecision_eq_reconfigure {healing alive willAlive : List Nat}
    (h : s.refreshDecision = .reconfigure healing alive willAlive) :
    healing = s.indicesWhere TrainerCell.isUninitialized ∧ alive = s.aliveCellIndices ∧
      willAlive = (healing ++ alive).dedup.insertionSort (· ≤ ·) := by
  unfold refreshDecision at h
  simp only at h
  split at h
  · cases h
  · split at h
    · cases h
      exact ⟨rfl, rfl, rfl⟩
    · cases h

theorem pairwise_dedup_insertionSort (xs : List Nat) :
    (xs.dedup.insertionSort (· ≤ ·)).Pairwise (· < ·) := by
  have hsorted := List.pairwise_insertionSort (· ≤ ·) xs.dedup
  have hnodup : (xs.dedup.insertionSort (· ≤ ·)).Nodup :=
    (List.perm_insertionSort ..).nodup_iff.mpr (List.nodup_dedup xs)
  exact hsorted.imp₂ (fun _ _ hle hne => lt_of_le_of_ne hle hne) hnodup

/-- The start of a refresh keeps the invariant. -/
theorem inv_startRefresh (h : Inv s)
    (hstep : s.step .startRefresh = some s') : Inv s' := by
  simp only [step] at hstep
  split at hstep
  · rename_i hguard
    obtain ⟨hinit, -⟩ := hguard
    split at hstep
    · rename_i healing alive willAlive hdecision
      cases hstep
      obtain ⟨hhealing, halive, hwill⟩ := refreshDecision_eq_reconfigure hdecision
      have hmem : ∀ k, k ∈ willAlive ↔ k ∈ healing ∨ k ∈ alive := by
        intro k
        rw [hwill, List.mem_insertionSort, List.mem_dedup, List.mem_append]
      apply inv_prepare h false (h.started hinit)
      · exact fun info hinfo => Nat.lt_succ_of_le (h.bound info hinfo)
      · rw [hwill]
        exact pairwise_dedup_insertionSort _
      · intro k hk
        rcases (hmem k).mp hk with hk | hk
        · obtain ⟨i, c, hc, -, hindex⟩ := mem_indicesWhere.mp (hhealing ▸ hk)
          exact ⟨i, c, hc, hindex⟩
        · obtain ⟨i, c, info, hc, hindex⟩ := mem_aliveCellIndices.mp (halive ▸ hk)
          exact ⟨i, c, hc.1, hindex⟩
      · intro i c info hc
        have hin : c.cellIndex ∈ alive :=
          halive ▸ mem_aliveCellIndices.mpr ⟨i, c, info, hc, rfl⟩
        exact ⟨(hmem _).mpr (.inr hin), _, if_pos hin⟩
    · cases hstep
      exact h
  · cases hstep

/-! ### The resumption of a prepare -/

/-- What a resumption can do to the cell: give it its new info, mark it errored, or nothing. -/
theorem resume_cell {ok : Bool}
    (h : resume c p ok = some (c', stage)) :
    c' = { c with state := .alive p.info } ∨ c' = c.markAsErrored ∨ c' = c := by
  unfold resume at h
  split at h
  · cases h
    exact .inr (.inr rfl)
  · rename_i fn _
    cases ok with
    | true =>
      simp only [if_true, Option.some.injEq] at h
      cases fn <;> simp only [returnFrom] at h
      · cases h
        exact .inr (.inr rfl)
      · split at h <;> cases h
        · exact .inl rfl
        · exact .inr (.inr rfl)
      · split at h <;> cases h
        · exact .inl rfl
        · exact .inr (.inr rfl)
      · cases h
        exact .inr (.inr rfl)
    | false =>
      simp only [failFrom, Bool.false_eq_true, if_false, Option.some.injEq] at h
      split at h <;> cases h
      · exact .inr (.inr rfl)
      · exact .inr (.inl rfl)
  · cases h
    exact .inr (.inr rfl)
  · cases h
    exact .inr (.inr rfl)
  · cases h
  · cases h

/-- An alive cell of the controller that awaits its new info gets it, becomes errored, or goes
    on waiting. -/
theorem resume_awaits {ok : Bool}
    (h : resume c p ok = some (c', stage)) (hp : AwaitsUpdate p) (halive : c.isAlive = true)
    (hdisposed : c.disposed = false) :
    c' = { c with state := .alive p.info } ∨ c' = c.markAsErrored ∨
      (c' = c ∧ AwaitsUpdate { p with stage }) := by
  obtain ⟨⟨ranks, hmode⟩, hstage | hstage⟩ := hp
  · simp only [resume, hstage, hmode, PrepareMode.firstCall, call, hdisposed,
      Bool.false_eq_true, if_false, Option.some.injEq, Prod.mk.injEq] at h
    obtain ⟨rfl, rfl⟩ := h
    exact .inr (.inr ⟨rfl, ⟨ranks, hmode⟩, .inr rfl⟩)
  · cases ok with
    | true =>
      simp only [resume, hstage, returnFrom, halive, if_true, Option.some.injEq,
        Prod.mk.injEq] at h
      exact .inl h.1.symm
    | false =>
      simp only [resume, hstage, failFrom, hdisposed, Bool.false_eq_true, if_false,
        Option.some.injEq, Prod.mk.injEq] at h
      exact .inr (.inl h.1.symm)

/-- The resumption of a prepare, with what it touches. -/
theorem advance_eq_some {k : Nat} {ok : Bool}
    (h : s.advance k ok = some s') : ∃ op p c c' stage,
      s.operation = some op ∧ op.participants[k]? = some p ∧ s.objects[p.object]? = some c ∧
      resume c p ok = some (c', stage) ∧
      s' = { s with
        objects := s.objects.set p.object c'
        operation := some
          { op with participants := op.participants.set k { p with stage } } } := by
  unfold advance at h
  split at h
  · cases h
  · rename_i op hop
    split at h
    · cases h
    · rename_i p hp
      split at h
      · cases h
      · rename_i c hc
        obtain ⟨⟨c', stage⟩, hresume, rfl⟩ := Option.map_eq_some_iff.mp h
        exact ⟨op, p, c, c', stage, hop, hp, hc, hresume, rfl⟩

/-- A resumed cell keeps its index and whether it is removed, and holds its old info or the
    participant's. -/
theorem resume_fields {ok : Bool}
    (h : resume c p ok = some (c', stage)) :
    c'.cellIndex = c.cellIndex ∧ c'.disposed = c.disposed ∧
      ∀ info, c'.state.info? = some info → info = p.info ∨ c.state.info? = some info := by
  rcases resume_cell h with rfl | rfl | rfl
  · exact ⟨rfl, rfl, fun info hinfo => .inl (Option.some.inj hinfo).symm⟩
  · exact ⟨rfl, rfl, fun info hinfo => .inr hinfo⟩
  · exact ⟨rfl, rfl, fun info hinfo => .inr hinfo⟩

/-- The operation after a resumption has the same participants, one at a new stage. -/
theorem mem_advanced {ps : List Participant} {k : Nat}
    {q : Participant} (h : q ∈ ps.set k { p with stage }) (hp : ps[k]? = some p) :
    ∃ q₀ ∈ ps, q.object = q₀.object ∧ q.info = q₀.info := by
  rcases List.mem_or_eq_of_mem_set h with hq | rfl
  · exact ⟨q, hq, rfl, rfl⟩
  · exact ⟨p, List.mem_of_getElem? hp, rfl, rfl⟩

/-- Participants of one cell object are one participant. -/
theorem Gathering.eq_of_object (h : s.Gathering op)
    {p q : Participant} (hp : p ∈ op.participants) (hq : q ∈ op.participants)
    (hobject : p.object = q.object) : p = q := by
  obtain ⟨c, hc, hpi⟩ := h.object p hp
  obtain ⟨d, hd, hqi⟩ := h.object q hq
  have hcd : c = d := Option.some.inj (hc.symm.trans (hobject ▸ hd))
  have hnodup : (op.participants.map (·.info.cellIndex)).Nodup :=
    h.indices.nodup_iff.mpr (h.sorted.imp ne_of_lt)
  exact List.inj_on_of_nodup_map hnodup hp hq (by rw [← hpi, ← hqi, hcd])

/-- The resumption of a prepare keeps the gather's invariant. -/
theorem gathering_advance (h : s.Gathering op) {k : Nat}
    {ok : Bool}
    (hp : op.participants[k]? = some p) (hc : s.objects[p.object]? = some c)
    (hresume : resume c p ok = some (c', stage)) :
    Gathering { s with
        objects := s.objects.set p.object c'
        operation := some { op with participants := op.participants.set k { p with stage } } }
      { op with participants := op.participants.set k { p with stage } } := by
  have hmem := List.mem_of_getElem? hp
  have hnew : { p with stage } ∈ op.participants.set k { p with stage } :=
    List.mem_of_getElem? ((List.getElem?_set_eq_some hp).mpr (.inl ⟨rfl, rfl⟩))
  obtain ⟨hindex, hdisposed, -⟩ := resume_fields hresume
  refine ⟨?_, ?_, ?_, h.sorted, ?_, ?_⟩
  · intro q hq
    obtain ⟨q₀, hq₀, -, hinfo⟩ := mem_advanced hq hp
    rw [hinfo]
    exact h.info q₀ hq₀
  · intro q hq
    obtain ⟨q₀, hq₀, hobject, hinfo⟩ := mem_advanced hq hp
    obtain ⟨d, hd, hdi⟩ := h.object q₀ hq₀
    rw [hobject, hinfo]
    by_cases heq : q₀.object = p.object
    · rw [heq] at hd ⊢
      obtain rfl : c = d := Option.some.inj (hc.symm.trans hd)
      exact ⟨c', (List.getElem?_set_eq_some hc).mpr (.inl ⟨rfl, rfl⟩), hindex.trans hdi⟩
    · exact ⟨d, (List.getElem?_set_eq_some hc).mpr (.inr ⟨heq, hd⟩), hdi⟩
  · -- a resumed participant keeps its cell index
    have hmap : (op.participants.set k { p with stage }).map (·.info.cellIndex) =
        op.participants.map (·.info.cellIndex) :=
      List.map_set_of_eq (fun q : Participant => q.info.cellIndex) hp rfl
    exact hmap ▸ h.indices
  · rintro i d info ⟨⟨hd, hdd⟩, hstate⟩
    rcases (List.getElem?_set_eq_some hc).mp hd with ⟨rfl, rfl⟩ | ⟨hne, hd⟩
    · exact ⟨_, hnew, rfl⟩
    · obtain ⟨q, hq, hobject⟩ := h.covers i d info ⟨⟨hd, hdd⟩, hstate⟩
      refine ⟨q, List.mem_set_of_ne hp hq ?_, hobject⟩
      rintro rfl
      exact hne hobject.symm
  · rintro i d info ⟨⟨hd, hdd⟩, hstate⟩
    rcases (List.getElem?_set_eq_some hc).mp hd with ⟨rfl, rfl⟩ | ⟨hne, hd⟩
    · -- the resumed cell: it has its new info, or nothing changed
      have hcd : c.disposed = false := hdisposed.symm.trans hdd
      have hgot : d = { c with state := .alive p.info } →
          info.quorumId = s.indepDpQuorumId ∧ info.aliveCellIndices = op.willAliveIndices := by
        rintro rfl
        cases hstate
        exact h.info p hmem
      have herrored : d ≠ c.markAsErrored := by
        rintro rfl
        cases hstate
      rcases resume_cell hresume with hd | hd | rfl
      · exact .inl (hgot hd)
      · exact absurd hd herrored
      · rcases h.updated p.object d info ⟨⟨hc, hcd⟩, hstate⟩ with hinfo | ⟨q, hq, hobject, hawaits⟩
        · exact .inl hinfo
        · obtain rfl := h.eq_of_object hq hmem hobject
          rcases resume_awaits hresume hawaits (isAlive_iff.mpr ⟨info, hstate⟩) hcd with
            hd | hd | ⟨-, hawaits'⟩
          · exact .inl (hgot hd)
          · exact absurd hd herrored
          · exact .inr ⟨_, hnew, rfl, hawaits'⟩
    · rcases h.updated i d info ⟨⟨hd, hdd⟩, hstate⟩ with hinfo | ⟨q, hq, hobject, hawaits⟩
      · exact .inl hinfo
      · refine .inr ⟨q, List.mem_set_of_ne hp hq ?_, hobject, hawaits⟩
        rintro rfl
        exact hne hobject.symm

/-- The resumption of a prepare keeps the invariant. -/
theorem inv_advance (h : Inv s) {k : Nat} {ok : Bool}
    (hstep : s.advance k ok = some s') : Inv s' := by
  obtain ⟨op, p, c, c', stage, hop, hp, hc, hresume, rfl⟩ := advance_eq_some hstep
  have hgather := h.gathering op hop
  have hmem := List.mem_of_getElem? hp
  obtain ⟨hindex, hdisposed, hinfo⟩ := resume_fields hresume
  -- every info held afterwards was held before
  have hholds : ∀ info, Holds { s with
        objects := s.objects.set p.object c'
        operation := some { op with participants := op.participants.set k { p with stage } } } info →
      s.Holds info := by
    rintro info (⟨i, d, hd, hstate⟩ | ⟨op', hop', q, hq, rfl⟩)
    · rcases (List.getElem?_set_eq_some hc).mp hd with ⟨rfl, rfl⟩ | ⟨hne, hd⟩
      · rcases hinfo info hstate with rfl | hold
        · exact .inr ⟨op, hop, p, hmem, rfl⟩
        · exact .inl ⟨_, c, hc, hold⟩
      · exact .inl ⟨i, d, hd, hstate⟩
    · cases hop'
      obtain ⟨q₀, hq₀, -, hsame⟩ := mem_advanced hq hp
      exact .inr ⟨op, hop, q₀, hq₀, hsame.symm⟩
  refine ⟨?_, ?_, ?_, ?_, h.started, ?_, ?_, ?_⟩
  · have hreg : ∀ i d', Registered { s with
          objects := s.objects.set p.object c'
          operation := some
            { op with participants := op.participants.set k { p with stage } } } i d' →
        ∃ d, s.Registered i d ∧ d.cellIndex = d'.cellIndex := by
      rintro i d' ⟨hd', hdd⟩
      rcases (List.getElem?_set_eq_some hc).mp hd' with ⟨rfl, rfl⟩ | ⟨hne, hd⟩
      · exact ⟨c, ⟨hc, hdisposed.symm.trans hdd⟩, hindex.symm⟩
      · exact ⟨d', ⟨hd, hdd⟩, rfl⟩
    intro i j d e hd he heq
    obtain ⟨d', hd', hdi⟩ := hreg i d hd
    obtain ⟨e', he', hei⟩ := hreg j e he
    exact h.unique i j d' e' hd' he' (by rw [hdi, hei, heq])
  · exact fun info hheld => h.bound info (hholds info hheld)
  · exact fun a b ha hb => h.same a b (hholds a ha) (hholds b hb)
  · intro i d info hd hstate
    rcases (List.getElem?_set_eq_some hc).mp hd with ⟨rfl, rfl⟩ | ⟨hne, hd⟩
    · rcases hinfo info hstate with rfl | hold
      · obtain ⟨e, he, hei⟩ := hgather.object p hmem
        obtain rfl : c = e := Option.some.inj (hc.symm.trans he)
        rw [hindex, hei]
      · rw [hindex]
        exact h.owned _ c info hc hold
    · exact h.owned i d info hd hstate
  · intro hinit
    obtain ⟨hnone, -⟩ := h.fresh hinit
    rw [hop] at hnone
    cases hnone
  · rintro op' hop'
    cases hop'
    exact gathering_advance hgather hp hc hresume
  · intro hnone
    cases hnone

/-! ### The end of a gather -/

/-- When every prepare has ended, the alive cells hold the new info. -/
theorem Gathering.settled (h : s.Gathering op)
    (hended : ∀ p ∈ op.participants, p.stage = .returned ∨ p.stage = .raised) {i : Nat}
    {info : IndepDPInfo} (halive : s.AliveCell i c info) :
    info.quorumId = s.indepDpQuorumId ∧ info.aliveCellIndices = op.willAliveIndices := by
  rcases h.updated i c info halive with hinfo | ⟨p, hp, -, -, hstage⟩
  · exact hinfo
  · rcases hended p hp with hend | hend <;> rw [hend] at hstage <;> rcases hstage with h | h <;>
      cases h

/-- The end of a gather keeps the invariant. -/
theorem inv_ended (h : Inv s) (hop : s.operation = some op)
    (hended : ∀ p ∈ op.participants, p.stage = .returned ∨ p.stage = .raised) {init : Bool}
    (hinit : init = true → s.initStarted = true) :
    Inv { s with initialized := init, operation := none } := by
  have hholds : ∀ info, Holds { s with initialized := init, operation := none } info →
      s.Holds info := by
    rintro info (hold | ⟨op', hop', -⟩)
    · exact .inl hold
    · cases hop'
  refine ⟨h.unique, ?_, ?_, h.owned, hinit, ?_, ?_, ?_⟩
  · exact fun info hheld => h.bound info (hholds info hheld)
  · exact fun a b ha hb => h.same a b (hholds a ha) (hholds b hb)
  · intro hnot
    obtain ⟨hnone, -⟩ := h.fresh hnot
    rw [hop] at hnone
    cases hnone
  · intro op' hop'
    cases hop'
  · exact fun _ => ⟨op.willAliveIndices, fun i c info halive =>
      (h.gathering op hop).settled hended halive⟩

/-- The end of an operation keeps the invariant. -/
theorem inv_finish (h : Inv s) (hstep : s.step .finish = some s') :
    Inv s' := by
  simp only [step] at hstep
  split at hstep
  · cases hstep
  · rename_i op hop
    have hstarted : s.initStarted = true := by
      by_contra hnot
      have hnone := (h.fresh (by simpa using hnot)).1
      rw [hop] at hnone
      cases hnone
    split at hstep
    · split at hstep
      · rename_i hall
        cases hstep
        apply inv_ended h hop
        · intro p hp
          exact .inl (by simpa using List.all_eq_true.mp hall p hp)
        · exact fun _ => hstarted
      · cases hstep
    · split at hstep
      · rename_i hall
        cases hstep
        apply inv_ended h hop
        · intro p hp
          simpa using List.all_eq_true.mp hall p hp
        · exact fun _ => hstarted
      · cases hstep

/-- Every step keeps the invariant. -/
theorem inv_step (s : TrainerController) (e : Event) (s' : TrainerController) (h : Inv s)
    (hstep : s.step e = some s') : Inv s' := by
  cases e with
  | observe cellIndex observed =>
    cases hstep
    exact inv_reconcile h cellIndex observed
  | markErrored i =>
    simp only [step] at hstep
    split at hstep
    · cases hstep
    · rename_i c hc
      cases hstep
      exact (quiets_markErrored hc).inv h (unique_markErrored hc h.unique)
  | startInit => exact inv_startInit h hstep
  | startRefresh => exact inv_startRefresh h hstep
  | advance k ok => exact inv_advance h hstep
  | finish => exact inv_finish h hstep

/-- Every run keeps the invariant. -/
theorem inv_run {es : List Event} (h : Lts.run step {} es = some s) :
    Inv s :=
  Lts.run_invariant inv_step inv_initial h

/-! ## Quorum ids -/

/-- The id that the next gather hands out: `init` uses the first one as it is. -/
def nextQuorumId (s : TrainerController) : Nat :=
  if s.initStarted then s.indepDpQuorumId + 1 else s.indepDpQuorumId

/-- The quorum id that a step hands out, if it starts a gather. -/
def handedBy (s s' : TrainerController) : List Nat :=
  if s.operation = none ∧ s'.operation ≠ none then [s'.indepDpQuorumId] else []

/-- The quorum ids a schedule hands out, in order. -/
def handedOut : TrainerController → List Event → List Nat
  | _, [] => []
  | s, e :: es =>
    match s.step e with
    | none => []
    | some s' => handedBy s s' ++ handedOut s' es

/-- A step hands out the next quorum id, or none and leaves it. -/
theorem handedBy_step {e : Event} (h : Inv s)
    (hstep : s.step e = some s') :
    (handedBy s s' = [s.nextQuorumId] ∧ s'.nextQuorumId = s.nextQuorumId + 1) ∨
      (handedBy s s' = [] ∧ s'.nextQuorumId = s.nextQuorumId) := by
  -- only a gather that starts hands out an id
  have hquiet : s'.operation = s.operation → s'.indepDpQuorumId = s.indepDpQuorumId →
      s'.initStarted = s.initStarted →
      handedBy s s' = [] ∧ s'.nextQuorumId = s.nextQuorumId := by
    intro hop hq hinit
    refine ⟨if_neg ?_, by rw [nextQuorumId, nextQuorumId, hq, hinit]⟩
    rw [hop]
    exact fun hboth => hboth.2 hboth.1
  cases e with
  | observe cellIndex observed =>
    cases hstep
    right
    unfold reconcile
    simp only
    split
    · exact ⟨if_neg fun hboth => hboth.2 hboth.1, rfl⟩
    · exact ⟨if_neg fun hboth => hboth.2 hboth.1, rfl⟩
    · split
      · exact ⟨if_neg fun hboth => hboth.2 hboth.1, rfl⟩
      · exact ⟨if_neg fun hboth => hboth.2 hboth.1, rfl⟩
    · exact ⟨if_neg fun hboth => hboth.2 hboth.1, rfl⟩
  | markErrored i =>
    simp only [step] at hstep
    split at hstep
    · cases hstep
    · cases hstep
      exact .inr (hquiet rfl rfl rfl)
  | startInit =>
    simp only [step] at hstep
    split at hstep
    · cases hstep
    · rename_i hnot
      have hinit : s.initStarted = false := by simpa using hnot
      cases hstep
      left
      -- before the start no gather is under way
      obtain ⟨hop, -⟩ := h.fresh hinit
      simp [handedBy, nextQuorumId, hop, hinit]
  | startRefresh =>
    simp only [step] at hstep
    split at hstep
    · rename_i hguard
      have hinit := h.started hguard.1
      split at hstep
      · cases hstep
        left
        simp [handedBy, nextQuorumId, reconfigure, hguard.2, hinit]
      · cases hstep
        exact .inr (hquiet rfl rfl rfl)
    · cases hstep
  | advance k ok =>
    obtain ⟨op, p, c, c', stage, hop, -, -, -, rfl⟩ := advance_eq_some hstep
    right
    have hbusy : ¬ (s.operation = none) := fun hnone => by
      rw [hop] at hnone
      cases hnone
    exact ⟨if_neg fun hboth => hbusy hboth.1, rfl⟩
  | finish =>
    simp only [step] at hstep
    split at hstep
    · cases hstep
    · rename_i op hop
      -- the gather that finishes was there before the step
      have hnone : handedBy s s' = [] := if_neg fun hboth => by
        rw [hop] at hboth
        cases hboth.1
      right
      split at hstep
      · split at hstep
        · cases hstep
          exact ⟨hnone, rfl⟩
        · cases hstep
      · split at hstep
        · cases hstep
          exact ⟨hnone, rfl⟩
        · cases hstep

/-- The ids a schedule hands out follow one another: none is repeated, and none decreases. -/
theorem handedOut_eq_range' (h : Inv s) (es : List Event) :
    handedOut s es = List.range' s.nextQuorumId (handedOut s es).length := by
  induction es generalizing s with
  | nil => rfl
  | cons e es ih =>
    unfold handedOut
    cases hstep : s.step e with
    | none => rfl
    | some s' =>
      simp only
      have hrest := ih (inv_step s e s' h hstep)
      rcases handedBy_step h hstep with ⟨hid, hnext⟩ | ⟨hnone, hnext⟩
      · rw [hid, List.singleton_append, List.length_cons, List.range'_succ, ← hnext, ← hrest]
      · rw [hnone, List.nil_append, ← hnext]
        exact hrest

/-! ## Agreement -/

/-- The alive cells hold one quorum id and one list, the sorted set of the alive cells, and their
    ranks are their positions in it, one cell for each. -/
structure Agreement (s : TrainerController) : Prop where
  quorum : ∃ q, ∀ i c info, s.AliveCell i c info → info.quorumId = q
  list : ∀ i c info, s.AliveCell i c info → info.aliveCellIndices = s.aliveCellIndices
  sorted : s.aliveCellIndices.Pairwise (· < ·)
  rank : ∀ i c info, s.AliveCell i c info →
    s.aliveCellIndices[info.aliveRank]? = some c.cellIndex
  bijective : ∀ k < s.aliveCellIndices.length,
    ∃! i, ∃ c info, s.AliveCell i c info ∧ info.aliveRank = k

/-- Every cell that took part is still in the controller and alive. -/
def AllKept (s : TrainerController) (op : Operation) : Prop :=
  ∀ p ∈ op.participants, ∃ c info, s.AliveCell p.object c info

/-- Whether every cell that took part is still there can be computed. -/
theorem allKept_of_all
    (h : ∀ p ∈ op.participants,
      (s.objects[p.object]?).any (fun c => !c.disposed && c.isAlive) = true) :
    AllKept s op := by
  intro p hp
  obtain ⟨c, hc, hboth⟩ := (Option.any_eq_true _ _).mp (h p hp)
  simp only [Bool.and_eq_true, Bool.not_eq_true'] at hboth
  obtain ⟨info, hinfo⟩ := isAlive_iff.mp hboth.2
  exact ⟨c, info, ⟨hc, hboth.1⟩, hinfo⟩

/-- Two cells that hold one quorum id hold one list. -/
theorem sameList_of_sameQuorum (h : Inv s) {i j : Nat} {c d : TrainerCell}
    {a b : IndepDPInfo} (hc : s.objects[i]? = some c) (hd : s.objects[j]? = some d)
    (ha : c.state.info? = some a) (hb : d.state.info? = some b) (heq : a.quorumId = b.quorumId) :
    a.aliveCellIndices = b.aliveCellIndices :=
  h.same a b (.inl ⟨i, c, hc, ha⟩) (.inl ⟨j, d, hd, hb⟩) heq

/-- The rank in an info is the cell's position in its list. -/
theorem getElem?_aliveRank (info : IndepDPInfo) :
    info.aliveCellIndices[info.aliveRank]? = some info.cellIndex := by
  have hrank := info.aliveRank_eq
  obtain ⟨hlt, heq, -⟩ := List.idxOf?_eq_some_iff.mp hrank
  rw [List.getElem?_eq_getElem hlt, heq]

/-- Cells with one quorum id and the list of the alive cells agree. -/
theorem agreement_of_list (h : Inv s) {q : Nat}
    (hquorum : ∀ i c info, s.AliveCell i c info → info.quorumId = q)
    (hlist : ∀ i c info, s.AliveCell i c info → info.aliveCellIndices = s.aliveCellIndices) :
    Agreement s := by
  have hsorted : s.aliveCellIndices.Pairwise (· < ·) := indicesWhere_pairwise h.unique _
  have hrank : ∀ i c info, s.AliveCell i c info →
      s.aliveCellIndices[info.aliveRank]? = some c.cellIndex := by
    intro i c info halive
    rw [← hlist i c info halive, getElem?_aliveRank]
    exact congrArg some (h.owned i c info halive.1.1 (by rw [halive.2]; rfl))
  refine ⟨⟨q, hquorum⟩, hlist, hsorted, hrank, ?_⟩
  intro k hk
  obtain ⟨i, c, info, halive, hindex⟩ := mem_aliveCellIndices.mp (List.getElem_mem hk)
  have hpos := hrank i c info halive
  obtain ⟨hlt, heq⟩ := List.getElem?_eq_some_iff.mp hpos
  have hinfo : info.aliveRank = k :=
    (List.Nodup.getElem_inj_iff (hsorted.imp ne_of_lt)).mp (heq.trans hindex.symm.symm)
  refine ⟨i, ⟨c, info, halive, hinfo⟩, ?_⟩
  rintro j ⟨d, info', halive', hinfo'⟩
  have hpos' := hrank j d info' halive'
  rw [hinfo', ← hinfo, hpos] at hpos'
  exact h.unique j i d c halive'.1 halive.1 (Option.some.inj hpos').symm

/-- After a gather without a failed prepare, the alive cells agree if and only if every cell
    that took part is still there and alive, or no cell is alive. -/
theorem agreement_iff_allKept (h : Inv s)
    (hop : s.operation = some op) (hreturned : ∀ p ∈ op.participants, p.stage = .returned) :
    Agreement s ↔ AllKept s op ∨ s.aliveCellIndices = [] := by
  have hgather := h.gathering op hop
  have hsettled : ∀ i c info, s.AliveCell i c info →
      info.quorumId = s.indepDpQuorumId ∧ info.aliveCellIndices = op.willAliveIndices :=
    fun i c info => hgather.settled fun p hp => .inl (hreturned p hp)
  have hwill : ∀ k, k ∈ op.willAliveIndices ↔ ∃ p ∈ op.participants, p.info.cellIndex = k := by
    intro k
    rw [← hgather.indices.mem_iff, List.mem_map]
  constructor
  · intro hagree
    by_cases hnone : s.aliveCellIndices = []
    · exact .inr hnone
    · left
      obtain ⟨k, hk⟩ := List.exists_mem_of_ne_nil _ hnone
      obtain ⟨i, c, info, halive, -⟩ := mem_aliveCellIndices.mp hk
      have hsame : op.willAliveIndices = s.aliveCellIndices :=
        (hsettled i c info halive).2.symm.trans (hagree.list i c info halive)
      -- a participant's index is that of an alive cell, whose participant it is
      intro p hp
      have hin : p.info.cellIndex ∈ s.aliveCellIndices := by
        rw [← hsame, hwill]
        exact ⟨p, hp, rfl⟩
      obtain ⟨j, d, info', halive', hindex⟩ := mem_aliveCellIndices.mp hin
      obtain ⟨q, hq, hobject⟩ := hgather.covers j d info' halive'
      obtain ⟨e, he, hqi⟩ := hgather.object q hq
      have hde : d = e := Option.some.inj (halive'.1.1.symm.trans (hobject ▸ he))
      have hnodup : (op.participants.map (·.info.cellIndex)).Nodup :=
        hgather.indices.nodup_iff.mpr (hgather.sorted.imp ne_of_lt)
      have hpq : p = q :=
        List.inj_on_of_nodup_map hnodup hp hq (by rw [← hqi, ← hde, hindex])
      exact ⟨d, info', by rw [hpq, hobject]; exact halive'⟩
  · rintro (hkept | hnone)
    · have hsame : op.willAliveIndices = s.aliveCellIndices := by
        have hpairwise : s.aliveCellIndices.Pairwise (· < ·) := indicesWhere_pairwise h.unique _
        apply List.Perm.eq_of_pairwise' hgather.sorted hpairwise
        rw [List.perm_ext_iff_of_nodup (hgather.sorted.imp ne_of_lt) (hpairwise.imp ne_of_lt)]
        intro k
        rw [hwill, mem_aliveCellIndices]
        constructor
        · rintro ⟨p, hp, rfl⟩
          obtain ⟨c, info, halive⟩ := hkept p hp
          obtain ⟨d, hd, hindex⟩ := hgather.object p hp
          obtain rfl : c = d := Option.some.inj (halive.1.1.symm.trans hd)
          exact ⟨p.object, c, info, halive, hindex⟩
        · rintro ⟨i, c, info, halive, rfl⟩
          obtain ⟨p, hp, rfl⟩ := hgather.covers i c info halive
          obtain ⟨d, hd, hindex⟩ := hgather.object p hp
          obtain rfl : c = d := Option.some.inj (halive.1.1.symm.trans hd)
          exact ⟨p, hp, hindex.symm⟩
      exact agreement_of_list h (fun i c info halive => (hsettled i c info halive).1)
        fun i c info halive => (hsettled i c info halive).2.trans hsame
    · have hvacuous : ∀ i c info, ¬ s.AliveCell i c info := by
        intro i c info halive
        have hmem := mem_aliveCellIndices.mpr ⟨i, c, info, halive, rfl⟩
        rw [hnone] at hmem
        cases hmem
      refine @agreement_of_list s h 0 (fun i c info halive => absurd halive (hvacuous i c info))
        fun i c info halive => absurd halive (hvacuous i c info)

/-- When a refresh finds nothing to reconfigure, the alive cells hold one quorum id. -/
theorem sameQuorum_of_unchanged (h : Inv s) (hop : s.operation = none)
    {i j : Nat} {c d : TrainerCell} {a b : IndepDPInfo} (ha : s.AliveCell i c a)
    (hb : s.AliveCell j d b) : a.quorumId = b.quorumId := by
  obtain ⟨list, hlist⟩ := h.settled hop
  rw [(hlist i c a ha).1, (hlist j d b hb).1]

/-! ## Runs that keep the prepared cells -/

/-- The event removes the cell object at position `i`, or is another call's failure on it. -/
def TakesAway (s : TrainerController) (e : Event) (i : Nat) : Prop :=
  match e with
  | .observe cellIndex observed =>
    ∃ c, s.Registered i c ∧ c.cellIndex = cellIndex ∧ observed ≠ some c.workersHash
  | .markErrored j => j = i
  | _ => False

/-- The prepare has not raised, and is not about to. -/
def Unfailed (p : Participant) : Prop := p.stage ≠ .killing ∧ p.stage ≠ .raised

/-- The event takes away no cell whose prepare is gathered and has not failed. -/
def KeepsPrepared (s : TrainerController) (e : Event) : Prop :=
  ∀ op, s.operation = some op → ∀ p ∈ op.participants, Unfailed p → ¬ s.TakesAway e p.object

/-- The prepare has given its cell the new info. -/
def Prepared (stage : PrepareStage) : Prop :=
  stage = .returned ∨ stage = .sleeping ∨ ∃ rest, stage = .calling (.sendCkpt rest)

/-- The cells whose prepares have not failed are in the controller, alive once prepared. -/
def Kept (s : TrainerController) : Prop :=
  ∀ op, s.operation = some op → ∀ p ∈ op.participants, Unfailed p →
    ∃ c, s.Registered p.object c ∧ (Prepared p.stage → c.isAlive = true)

theorem prepared_call {fn : ActorCall} (h : Prepared (call c fn)) :
    ∃ rest, fn = .sendCkpt rest := by
  unfold call at h
  split at h
  · rcases h with h | h | ⟨rest, h⟩ <;> cases h
  · rcases h with h | h | ⟨rest, h⟩ <;> cases h
    exact ⟨rest, rfl⟩

/-- A prepare that has given its cell the new info left it alive. -/
theorem resume_prepared {ok : Bool}
    (h : resume c p ok = some (c', stage)) (hc : Prepared p.stage → c.isAlive = true)
    (hstage : Prepared stage) : c'.isAlive = true := by
  unfold resume at h
  split at h
  · cases h
    obtain ⟨rest, hrest⟩ := prepared_call hstage
    unfold PrepareMode.firstCall at hrest
    split at hrest <;> cases hrest
  · rename_i fn hfn
    cases ok with
    | true =>
      simp only [if_true, Option.some.injEq] at h
      cases fn with
      | configureMasterAddrAndPort =>
        cases h
        obtain ⟨rest, hrest⟩ := prepared_call hstage
        cases hrest
      | init =>
        simp only [returnFrom] at h
        split at h <;> cases h
        · rfl
        · rcases hstage with h | h | ⟨rest, h⟩ <;> cases h
      | reconfigureIndepDp =>
        simp only [returnFrom] at h
        split at h <;> cases h
        · rfl
        · rcases hstage with h | h | ⟨rest, h⟩ <;> cases h
      | sendCkpt rest =>
        cases h
        exact hc (.inr (.inr ⟨rest, hfn⟩))
    | false =>
      simp only [failFrom, Bool.false_eq_true, if_false, Option.some.injEq] at h
      split at h <;> cases h <;> rcases hstage with h | h | ⟨rest, h⟩ <;> cases h
  · rename_i hsleeping
    cases h
    exact hc (.inr (.inl hsleeping))
  · cases h
    rcases hstage with h | h | ⟨rest, h⟩ <;> cases h
  · cases h
  · cases h

/-- A prepare that fails stays failed. -/
theorem resume_unfailed {ok : Bool}
    (h : resume c p ok = some (c', stage)) (hstage : Unfailed { p with stage }) : Unfailed p := by
  constructor
  · intro hkilling
    simp only [resume, hkilling, Option.some.injEq, Prod.mk.injEq] at h
    exact hstage.2 h.2.symm
  · intro hraised
    simp [resume, hraised] at h

/-- A cell that an observation does not take away stays in the controller as it is. -/
theorem registered_reconcile (h : s.Unique) {i : Nat}
    (hc : s.Registered i c) {cellIndex : Nat} {observed : Option String}
    (hkeeps : ¬ s.TakesAway (.observe cellIndex observed) i) :
    (s.reconcile cellIndex observed).Registered i c := by
  have hadd : ∀ (s : TrainerController) (hash : String), s.Registered i c →
      (s.addCell cellIndex hash).Registered i c := by
    rintro s hash ⟨hget, hdisposed⟩
    obtain ⟨hlt, -⟩ := List.getElem?_eq_some_iff.mp hget
    exact ⟨(List.getElem?_append_left hlt).trans hget, hdisposed⟩
  have hremove : c.cellIndex ≠ cellIndex → (s.removeCell cellIndex).Registered i c := by
    intro hne
    refine ⟨?_, hc.2⟩
    rw [getElem?_removeCell, hc.1, Option.map_some, removedCell, if_neg hne]
  unfold reconcile
  simp only
  split
  · exact hadd s _ hc
  · apply hremove
    intro heq
    exact hkeeps ⟨c, hc, heq, by simp⟩
  · rename_i hash d hactual
    split
    · rename_i hne
      apply hadd
      apply hremove
      intro heq
      -- the cell that the observation replaces is this one
      obtain ⟨j, hj⟩ := List.getElem?_of_mem (List.mem_of_find?_eq_some hactual)
      have hfound := List.find?_some hactual
      simp only [Bool.and_eq_true, Bool.not_eq_true', beq_iff_eq] at hfound
      have hij : i = j := h i j c d hc ⟨hj, hfound.1⟩ (heq.trans hfound.2.symm)
      obtain rfl : c = d := Option.some.inj (hc.1.symm.trans (hij ▸ hj))
      exact hkeeps ⟨c, hc, heq, fun hsame => hne (Option.some.inj hsame).symm⟩
    · exact hc
  · exact hc

/-- A step that takes away no such cell keeps them. -/
theorem kept_step (s : TrainerController) (e : Event) (s' : TrainerController)
    (h : Inv s ∧ Kept s) (hkeeps : KeepsPrepared s e) (hstep : s.step e = some s') :
    Inv s' ∧ Kept s' := by
  obtain ⟨hinv, hkept⟩ := h
  refine ⟨inv_step s e s' hinv hstep, ?_⟩
  have hstarted : ∀ ps : List Participant, (∃ q willAlive mode, ps = s.prepareAll q willAlive mode) →
      ∀ p ∈ ps, ∃ c, s.Registered p.object c ∧ (Prepared p.stage → c.isAlive = true) := by
    rintro ps ⟨q, willAlive, mode, rfl⟩ p hp
    obtain ⟨c, info, hc, -, heq⟩ := mem_prepareAll.mp hp
    refine ⟨c, hc, fun hprepared => ?_⟩
    rw [heq] at hprepared
    rcases hprepared with h | h | ⟨rest, h⟩ <;> cases h
  cases e with
  | observe cellIndex observed =>
    cases hstep
    have hop' : (s.reconcile cellIndex observed).operation = s.operation := by
      unfold reconcile
      simp only
      split
      · rfl
      · rfl
      · split <;> rfl
      · rfl
    intro op hop p hp hunfailed
    rw [hop'] at hop
    obtain ⟨c, hc, hprepared⟩ := hkept op hop p hp hunfailed
    exact ⟨c, registered_reconcile hinv.unique hc (hkeeps op hop p hp hunfailed), hprepared⟩
  | markErrored i =>
    simp only [step] at hstep
    split at hstep
    · cases hstep
    · rename_i c hc
      cases hstep
      intro op hop p hp hunfailed
      obtain ⟨d, hd, hprepared⟩ := hkept op hop p hp hunfailed
      have hne : p.object ≠ i := fun heq => hkeeps op hop p hp hunfailed heq.symm
      exact ⟨d, ⟨(List.getElem?_set_eq_some hc).mpr (.inr ⟨hne, hd.1⟩), hd.2⟩, hprepared⟩
  | startInit =>
    simp only [step] at hstep
    split at hstep
    · cases hstep
    · cases hstep
      rintro op hop p hp -
      cases hop
      dsimp only at hp
      exact hstarted _ ⟨_, _, _, rfl⟩ p hp
  | startRefresh =>
    simp only [step] at hstep
    split at hstep
    · split at hstep
      · cases hstep
        rintro op hop p hp -
        cases hop
        dsimp only at hp
        exact hstarted _ ⟨_, _, _, rfl⟩ p hp
      · cases hstep
        exact hkept
    · cases hstep
  | advance k ok =>
    obtain ⟨op, p, c, c', stage, hop, hp, hc, hresume, rfl⟩ := advance_eq_some hstep
    have hmem := List.mem_of_getElem? hp
    obtain ⟨hindex, hdisposed, -⟩ := resume_fields hresume
    rintro op' hop' q hq hunfailed
    cases hop'
    -- the resumed participant, or another one with another cell
    obtain ⟨j, hj⟩ := List.getElem?_of_mem hq
    rcases (List.getElem?_set_eq_some hp).mp hj with ⟨rfl, rfl⟩ | ⟨hne, hold⟩
    · obtain ⟨d, hd, hprepared⟩ := hkept op hop p hmem (resume_unfailed hresume hunfailed)
      obtain rfl : c = d := Option.some.inj (hc.symm.trans hd.1)
      exact ⟨c', ⟨(List.getElem?_set_eq_some hc).mpr (.inl ⟨rfl, rfl⟩), hdisposed.trans hd.2⟩,
        resume_prepared hresume hprepared⟩
    · have hqmem := List.mem_of_getElem? hold
      obtain ⟨d, hd, hprepared⟩ := hkept op hop q hqmem hunfailed
      by_cases hobject : q.object = p.object
      · obtain rfl := (hinv.gathering op hop).eq_of_object hqmem hmem hobject
        have hnodup : op.participants.Nodup := by
          have hmap : (op.participants.map (·.info.cellIndex)).Nodup :=
            (hinv.gathering op hop).indices.nodup_iff.mpr
              ((hinv.gathering op hop).sorted.imp ne_of_lt)
          exact hmap.of_map _
        obtain ⟨hlt, heq⟩ := List.getElem?_eq_some_iff.mp hold
        obtain ⟨hlt', heq'⟩ := List.getElem?_eq_some_iff.mp hp
        exact absurd (hnodup.getElem_inj_iff.mp (heq.trans heq'.symm)) hne
      · exact ⟨d, ⟨(List.getElem?_set_eq_some hc).mpr (.inr ⟨hobject, hd.1⟩), hd.2⟩, hprepared⟩
  | finish =>
    simp only [step] at hstep
    have hnone : s'.operation = none := by
      split at hstep
      · cases hstep
      · split at hstep
        · split at hstep <;> cases hstep
          rfl
        · split at hstep <;> cases hstep
          rfl
    intro op hop
    rw [hnone] at hop
    cases hop

/-- In a run that takes away no cell whose prepare has not failed, the cells are all there when
    no prepare failed. -/
theorem allKept_of_keepsPrepared {es : List Event}
    (hrun : Lts.run step {} es = some s) (hkeeps : Lts.StepsWhere step KeepsPrepared {} es)
    (hop : s.operation = some op) (hreturned : ∀ p ∈ op.participants, p.stage = .returned) :
    AllKept s op := by
  have hinitial : Kept {} := by
    intro op hop
    cases hop
  obtain ⟨-, hkept⟩ := Lts.run_invariant_where kept_step ⟨inv_initial, hinitial⟩ hkeeps hrun
  intro p hp
  have hstage := hreturned p hp
  obtain ⟨c, hc, hprepared⟩ := hkept op hop p hp (by rw [Unfailed, hstage]; simp)
  obtain ⟨info, hinfo⟩ := isAlive_iff.mp (hprepared (.inl hstage))
  exact ⟨c, info, hc, hinfo⟩

/-! ## The law -/

/-- Over every run: quorum ids are handed out once, in increasing order; an id determines the
    list it came with, in cells removed or errored since, too; a refresh that finds nothing to
    reconfigure finds one quorum id.  A refresh in which no prepare failed ends in agreement if
    and only if the cells that took part are all still there and alive, or none is alive; in
    particular in every run that takes away no cell whose prepare has not failed. -/
theorem quorum_agreement {es : List Event} {s : TrainerController}
    (hrun : Lts.run step {} es = some s) :
    handedOut {} es = List.range (handedOut {} es).length ∧
    (∀ (i j : Nat) (c d : TrainerCell) (a b : IndepDPInfo),
      s.objects[i]? = some c → s.objects[j]? = some d →
      c.state.info? = some a → d.state.info? = some b →
      a.quorumId = b.quorumId → a.aliveCellIndices = b.aliveCellIndices) ∧
    (s.operation = none → s.refreshDecision = .unchanged → ∀ i j c d a b,
      s.AliveCell i c a → s.AliveCell j d b → a.quorumId = b.quorumId) ∧
    (∀ op s', s.operation = some op → (∀ p ∈ op.participants, p.stage = .returned) →
      s.step .finish = some s' →
      (Agreement s' ↔ AllKept s op ∨ s.aliveCellIndices = []) ∧
      (Lts.StepsWhere step KeepsPrepared {} es → Agreement s')) := by
  have h := inv_run hrun
  refine ⟨?_, ?_, ?_, ?_⟩
  · have hids := handedOut_eq_range' inv_initial es
    rw [hids, List.length_range', List.range_eq_range']
    rfl
  · exact fun i j c d a b hc hd ha hb heq => sameList_of_sameQuorum h hc hd ha hb heq
  · exact fun hop _ i j c d a b ha hb => sameQuorum_of_unchanged h hop ha hb
  · intro op s' hop hreturned hfinish
    -- the end of the gather leaves the cells as they are
    have hsame : ∀ init, Agreement { s with initialized := init, operation := none } ↔
        Agreement s := fun _ =>
      ⟨fun h => ⟨h.quorum, h.list, h.sorted, h.rank, h.bijective⟩,
        fun h => ⟨h.quorum, h.list, h.sorted, h.rank, h.bijective⟩⟩
    have hended : Agreement s' ↔ Agreement s := by
      simp only [step, hop] at hfinish
      split at hfinish
      · split at hfinish
        · cases hfinish
          exact hsame true
        · cases hfinish
      · split at hfinish
        · cases hfinish
          exact hsame s.initialized
        · cases hfinish
    rw [hended]
    have hiff := agreement_iff_allKept h hop hreturned
    exact ⟨hiff, fun hkeeps => hiff.mpr (.inl (allKept_of_keepsPrepared hrun hkeeps hop hreturned))⟩

/-! ### Two cells and a third one -/

/-- Cells 0 and 1 are initialised, and a refresh prepares them and the new cell 2.  Cell 1 has
    prepared. -/
def thirdCellPreparing : List Event :=
  [.observe 0 (some "a"), .observe 1 (some "b"), .startInit,
    .advance 0 true, .advance 0 true, .advance 0 true, .advance 0 true,
    .advance 1 true, .advance 1 true, .advance 1 true, .advance 1 true, .finish,
    .observe 2 (some "c"), .startRefresh,
    .advance 0 true, .advance 0 true, .advance 0 true, .advance 1 true, .advance 1 true]

/-- The prepare of cell 2 goes through. -/
def thirdCellPrepared : List Event :=
  [.advance 2 true, .advance 2 true, .advance 2 true, .advance 2 true]

/-- The law for the run in which the three cells prepare. -/
theorem quorum_agreement_threeCells :
    ∃ s op s', Lts.run step {} (thirdCellPreparing ++ thirdCellPrepared) = some s ∧
      handedOut {} (thirdCellPreparing ++ thirdCellPrepared) = [0, 1] ∧
      s.operation = some op ∧ s.step .finish = some s' ∧ Agreement s' := by
  refine ⟨_, _, _, rfl, by decide, rfl, rfl, ?_⟩
  have hlaw := (@quorum_agreement (thirdCellPreparing ++ thirdCellPrepared) _ rfl).2.2.2 _ _ rfl
    (by decide) rfl
  exact hlaw.1.mpr (.inl (allKept_of_all (by decide)))

/-- Cell 1 is removed after its own prepare, while cell 2 is still preparing: no prepare fails,
    and the cells left alive hold a list with the removed cell. -/
theorem removedWhilePreparing_disagree :
    ∃ s op s', Lts.run step {}
        (thirdCellPreparing ++ [.observe 1 none] ++ thirdCellPrepared) = some s ∧
      s.operation = some op ∧ op.isInit = false ∧ (∀ p ∈ op.participants, p.stage = .returned) ∧
      s.step .finish = some s' ∧ ¬ Agreement s' := by
  refine ⟨_, _, _, rfl, rfl, rfl, by decide, rfl, fun h => ?_⟩
  have hlist := h.list 0 _ _ ⟨⟨rfl, rfl⟩, rfl⟩
  revert hlist
  decide

end TrainerController

end Miles.Training.Trainer
