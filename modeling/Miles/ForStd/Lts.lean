import Mathlib
/-!
# Labelled transition systems

A system is given by its step function `step : σ → ℓ → Option σ`: the label is the
event that happens, `none` says that it cannot happen in this state.  A schedule is
a list of labels, so a statement about every interleaving is a statement about every
list.  The step function stays executable, hence a concrete schedule can be evaluated.

## Key results

- `run_append` / `run_concat`: a schedule can be cut anywhere
- `run_invariant`: what every step preserves, every run preserves
- `run_invariant_where`: the same when only the steps that meet a condition preserve it
- `run_invariant_or`: a run keeps an invariant, or a first step of it breaks it
- `stepsWhere_iff`: a step condition holds along a run iff it holds at every cut
-/

namespace Lts

variable {σ ℓ : Type*} (step : σ → ℓ → Option σ)

/-- The state after a schedule, if every event of it can happen in its turn. -/
def run : σ → List ℓ → Option σ
  | s, [] => some s
  | s, e :: es => (step s e).bind fun s' => run s' es

/-- Every step a schedule takes meets the condition `C` (on the state before and the event). -/
def StepsWhere (C : σ → ℓ → Prop) : σ → List ℓ → Prop
  | _, [] => True
  | s, e :: es => C s e ∧ ∀ s', step s e = some s' → StepsWhere C s' es

/-- Every state a schedule passes through, the first and the last one included. -/
def StatesWhere (P : σ → Prop) (s : σ) (es : List ℓ) : Prop :=
  ∀ pre post s', es = pre ++ post → run step s pre = some s' → P s'

variable {step}

@[simp] theorem run_nil (s : σ) : run step s [] = some s := rfl

@[simp] theorem run_cons (s : σ) (e : ℓ) (es : List ℓ) :
    run step s (e :: es) = (step s e).bind fun s' => run step s' es := rfl

variable {es : List ℓ}

/-- A nonempty run is a step followed by a run. -/
theorem run_cons_some {s s' : σ} {e : ℓ} :
    run step s (e :: es) = some s' ↔ ∃ m, step s e = some m ∧ run step m es = some s' := by
  rw [run_cons, Option.bind_eq_some_iff]

/-- Running two schedules in a row is running their concatenation. -/
theorem run_append (s : σ) (es fs : List ℓ) :
    run step s (es ++ fs) = (run step s es).bind fun m => run step m fs := by
  induction es generalizing s with
  | nil => rfl
  | cons e es ih =>
    simp only [List.cons_append, run_cons, Option.bind_assoc]
    congr 1
    funext m
    exact ih m

/-- A run of a concatenation passes through the state between the two parts. -/
theorem run_append_some {s s' : σ} {es fs : List ℓ} :
    run step s (es ++ fs) = some s' ↔
      ∃ m, run step s es = some m ∧ run step m fs = some s' := by
  rw [run_append, Option.bind_eq_some_iff]

/-- A run that ends with the event `e` takes its last step from the state before it. -/
theorem run_concat {s s' : σ} {e : ℓ} :
    run step s (es ++ [e]) = some s' ↔ ∃ m, run step s es = some m ∧ step m e = some s' := by
  simp [run_append_some]

/-- What every step preserves, every run preserves. -/
theorem run_invariant {I : σ → Prop}
    (hstep : ∀ s e s', I s → step s e = some s' → I s')
    {s s' : σ} (hs : I s) (h : run step s es = some s') : I s' := by
  induction es generalizing s with
  | nil => cases h; exact hs
  | cons e es ih =>
    obtain ⟨m, hm, hrest⟩ := run_cons_some.mp h
    exact ih (hstep s e m hs hm) hrest

/-- The same when only the events of the schedule preserve it. -/
theorem run_invariant_mem {I : σ → Prop} {s s' : σ}
    (hstep : ∀ s e s', e ∈ es → I s → step s e = some s' → I s')
    (hs : I s) (h : run step s es = some s') : I s' := by
  induction es generalizing s with
  | nil => cases h; exact hs
  | cons e es ih =>
    obtain ⟨m, hm, hrest⟩ := run_cons_some.mp h
    have hhead := hstep s e m (List.mem_cons_self ..) hs hm
    exact ih (fun s e' s' he' => hstep s e' s' (List.mem_cons_of_mem _ he')) hhead hrest

/-- What the steps that meet `C` preserve, every run of such steps preserves. -/
theorem run_invariant_where {I : σ → Prop} {C : σ → ℓ → Prop}
    (hstep : ∀ s e s', I s → C s e → step s e = some s' → I s')
    {s s' : σ} (hs : I s) (hC : StepsWhere step C s es)
    (h : run step s es = some s') : I s' := by
  induction es generalizing s with
  | nil => cases h; exact hs
  | cons e es ih =>
    obtain ⟨m, hm, hrest⟩ := run_cons_some.mp h
    exact ih (hstep s e m hs hC.1 hm) (hC.2 m hm) hrest

/-- The first part of a schedule whose steps meet `C` is such a schedule. -/
theorem StepsWhere.of_append {C : σ → ℓ → Prop} {s : σ} {es fs : List ℓ}
    (h : StepsWhere step C s (es ++ fs)) : StepsWhere step C s es := by
  induction es generalizing s with
  | nil => trivial
  | cons e es ih => exact ⟨h.1, fun s' hs' => ih (h.2 s' hs')⟩

/-- A step condition that can be evaluated can be evaluated along a concrete schedule. -/
instance decidableStepsWhere {C : σ → ℓ → Prop} [∀ s e, Decidable (C s e)] :
    ∀ (s : σ) (es : List ℓ), Decidable (StepsWhere step C s es)
  | _, [] => .isTrue trivial
  | s, e :: es =>
    match h : step s e with
    | none => decidable_of_iff (C s e) (by simp [StepsWhere, h])
    | some s' =>
      have : Decidable (StepsWhere step C s' es) := decidableStepsWhere s' es
      decidable_of_iff (C s e ∧ StepsWhere step C s' es) (by simp [StepsWhere, h])

/-- A step condition holds along a schedule iff it holds at every cut of it. -/
theorem stepsWhere_iff {C : σ → ℓ → Prop} {s : σ} :
    StepsWhere step C s es ↔
      ∀ pre e post m, es = pre ++ e :: post → run step s pre = some m → C m e := by
  induction es generalizing s with
  | nil => simp [StepsWhere]
  | cons f fs ih =>
    constructor
    · rintro ⟨hf, hrest⟩ pre e post m heq hrun
      cases pre with
      | nil =>
        cases hrun
        cases heq
        exact hf
      | cons p ps =>
        obtain ⟨rfl, rfl⟩ := List.cons.inj heq
        obtain ⟨n, hn, hps⟩ := run_cons_some.mp hrun
        exact ih.mp (hrest n hn) ps e post m rfl hps
    · intro h
      refine ⟨h [] f fs s rfl rfl, fun s' hs' => ih.mpr ?_⟩
      rintro pre e post m rfl hrun
      exact h (f :: pre) e post m rfl (run_cons_some.mpr ⟨s', hs', hrun⟩)

/-- All states of a run satisfy an invariant that every step of the run preserves. -/
theorem statesWhere_of_stepsWhere {I : σ → Prop} {C : σ → ℓ → Prop}
    (hstep : ∀ s e s', I s → C s e → step s e = some s' → I s')
    {s : σ} (hs : I s) (hC : StepsWhere step C s es) :
    StatesWhere step I s es := by
  rintro pre post s' rfl hrun
  exact run_invariant_where hstep hs hC.of_append hrun

/-- A run keeps an invariant up to its end, or up to a first step that breaks it. -/
theorem run_invariant_or {I : σ → Prop} {s s' : σ} (hs : I s)
    (h : run step s es = some s') :
    I s' ∨ ∃ pre e post m m', es = pre ++ e :: post ∧ run step s pre = some m ∧ I m ∧
      step m e = some m' ∧ ¬ I m' := by
  induction es generalizing s with
  | nil =>
    cases h
    exact .inl hs
  | cons e es ih =>
    obtain ⟨m, hm, hrest⟩ := run_cons_some.mp h
    by_cases hI : I m
    · rcases ih hI hrest with hend | hbreak
      · exact .inl hend
      · obtain ⟨pre, f, post, n, n', hsplit, hpre, hn, hstep, hnot⟩ := hbreak
        exact .inr ⟨e :: pre, f, post, n, n', by rw [hsplit, List.cons_append],
          run_cons_some.mpr ⟨m, hm, hpre⟩, hn, hstep, hnot⟩
    · exact .inr ⟨[], e, es, s, m, rfl, rfl, hs, hm, hI⟩

end Lts
