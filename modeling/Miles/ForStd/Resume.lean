import Mathlib

/-!
# Stopping and resuming a deterministic server

A server answers one request after another: `step s r` is the answer and the next state.
Its state can be saved to a checkpoint and loaded into a freshly constructed server, and
either may fail.

## Key results

- `runState_invariant`: what every request preserves, every history preserves
- `resumesExactly_of_restores`: where loading restores the saved state, a resumed server
  answers like one that was never stopped
-/

namespace Resume

variable {σ ρ α ε χ : Type*}

/-- The answers to a list of requests. -/
def runOutputs (step : σ → ρ → α × σ) : σ → List ρ → List α
  | _, [] => []
  | s, r :: rs => (step s r).1 :: runOutputs step (step s r).2 rs

/-- The state after a list of requests. -/
def runState (step : σ → ρ → α × σ) (s : σ) (rs : List ρ) : σ :=
  rs.foldl (fun s r => (step s r).2) s

/-- After any requests the state can be saved and loaded into `fresh`, and from there any
    further requests get the answers they would have got without stopping. -/
def ResumesExactly (step : σ → ρ → α × σ) (save : σ → Except ε χ) (load : σ → χ → Except ε σ)
    (fresh : σ) : Prop :=
  ∀ before after : List ρ, ∃ checkpoint resumed,
    save (runState step fresh before) = .ok checkpoint ∧
    load fresh checkpoint = .ok resumed ∧
    runOutputs step resumed after = runOutputs step (runState step fresh before) after

variable {step : σ → ρ → α × σ} {save : σ → Except ε χ} {load : σ → χ → Except ε σ}

/-- What every request preserves, every history preserves. -/
theorem runState_invariant {I : σ → Prop} (hstep : ∀ s r, I s → I (step s r).2)
    {s : σ} (hs : I s) (rs : List ρ) : I (runState step s rs) := by
  induction rs generalizing s with
  | nil => exact hs
  | cons r rs ih => exact ih (hstep s r hs)

/-- Where loading restores the saved state, a resumed server answers like one that was
    never stopped. -/
theorem resumesExactly_of_restores {I : σ → Prop} {fresh : σ} (hfresh : I fresh)
    (hstep : ∀ s r, I s → I (step s r).2)
    (hrestore : ∀ s, I s → ∃ checkpoint, save s = .ok checkpoint ∧ load fresh checkpoint = .ok s) :
    ResumesExactly step save load fresh := by
  intro before after
  have hreached := runState_invariant hstep hfresh before
  obtain ⟨checkpoint, hsave, hload⟩ := hrestore _ hreached
  exact ⟨checkpoint, _, hsave, hload, rfl⟩

end Resume
