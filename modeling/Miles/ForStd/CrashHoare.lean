import Mathlib

/-!
# Programs that fail and crash

A program is a tree of operations on a shared state. An operation answers with the state after it
or with an error, and a run may stop between any two operations: what is left then is the state,
the program's own variables are lost. `Safe mid post p s` says that every run of `p` from `s` is in
a state that satisfies `mid` whenever it may stop, and ends as `post` says.

## Key results

- `Safe.run`: what `Safe` says about the runs of a program
- `safe_bind`, `safe_onRaise`, `safe_foldlM`, `safe_forM`: the rules for composed programs
- `Safe.mono`: consequence
-/

namespace CrashHoare

/-- A program over the operations `ω` on a state `σ`. -/
inductive Prog (ω σ ε α : Type) where
  | done (a : α)
  | raise (e : ε)
  | step (op : ω) (next : Except ε σ → Prog ω σ ε α)

/-- How a run ends. -/
inductive Outcome (ε α : Type) where
  | returned (a : α)
  | raised (e : ε)
  | crashed
deriving DecidableEq

namespace Prog
variable {ω σ ε α β : Type}

/-- Run a program with the result of another. -/
def bind (p : Prog ω σ ε α) (f : α → Prog ω σ ε β) : Prog ω σ ε β :=
  match p with
  | .done a => f a
  | .raise e => .raise e
  | .step op next => .step op fun r => (next r).bind f

/-- `try: p except e: handler(e)` -/
def onRaise (p : Prog ω σ ε α) (handler : ε → Prog ω σ ε α) : Prog ω σ ε α :=
  match p with
  | .done a => .done a
  | .raise e => handler e
  | .step op next => .step op fun r => (next r).onRaise handler

instance : Monad (Prog ω σ ε) where
  pure := .done
  bind := bind

/-- One operation; its error is raised. -/
def perform (op : ω) : Prog ω σ ε σ :=
  .step op fun
    | .ok s => .done s
    | .error e => .raise e

/-- Go on when a condition holds. -/
def require (condition : Bool) (e : ε) : Prog ω σ ε Unit :=
  if condition then .done () else .raise e

/-- Play a program along a list that says for each operation whether it goes wrong; the end of the
    list is a crash. -/
def play (answer : Bool → ω → σ → Except ε Unit × σ) :
    Prog ω σ ε α → List Bool → σ → Outcome ε α × σ
  | .done a, _, s => (.returned a, s)
  | .raise e, _, s => (.raised e, s)
  | .step _ _, [], s => (.crashed, s)
  | .step op next, fault :: faults, s =>
    let (r, s') := answer fault op s
    play answer (next (r.map fun _ => s')) faults s'

end Prog

variable {ω σ ε α β : Type}

/-- The runs of a program: each operation answers as the system may. -/
inductive Runs (answers : ω → σ → Except ε Unit → σ → Prop) :
    Prog ω σ ε α → σ → Outcome ε α → σ → Prop
  | returned (a : α) (s : σ) : Runs answers (.done a) s (.returned a) s
  | raised (e : ε) (s : σ) : Runs answers (.raise e) s (.raised e) s
  | crashed (p : Prog ω σ ε α) (s : σ) : Runs answers p s .crashed s
  | step {op : ω} {next : Except ε σ → Prog ω σ ε α} {s s' s'' : σ} {r : Except ε Unit}
      {o : Outcome ε α} (hanswer : answers op s r s')
      (hrest : Runs answers (next (r.map fun _ => s')) s' o s'') :
      Runs answers (.step op next) s o s''

/-- Playing a program is one of its runs. -/
theorem play_runs {answers : ω → σ → Except ε Unit → σ → Prop}
    {answer : Bool → ω → σ → Except ε Unit × σ}
    (h : ∀ fault op s, answers op s (answer fault op s).1 (answer fault op s).2)
    (p : Prog ω σ ε α) (faults : List Bool) (s : σ) :
    Runs answers p s (p.play answer faults s).1 (p.play answer faults s).2 := by
  induction p generalizing faults s with
  | done a => exact .returned a s
  | raise e => exact .raised e s
  | step op next ih =>
    cases faults with
    | nil => exact .crashed _ s
    | cons fault faults => exact .step (h fault op s) (ih _ faults _)

/-- A system that answers every operation lets a program come to its end. -/
theorem exists_run {answers : ω → σ → Except ε Unit → σ → Prop}
    (hanswers : ∀ op s, ∃ r s', answers op s r s') (p : Prog ω σ ε α) (s : σ) :
    ∃ o s', Runs answers p s o s' ∧ o ≠ .crashed := by
  induction p generalizing s with
  | done a => exact ⟨_, s, .returned a s, by simp⟩
  | raise e => exact ⟨_, s, .raised e s, by simp⟩
  | step op next ih =>
    obtain ⟨r, s1, hanswer⟩ := hanswers op s
    obtain ⟨o, s', hrun, hended⟩ := ih (r.map fun _ => s1) s1
    exact ⟨o, s', .step hanswer hrun, hended⟩

/-- Every run of the program from this state may stop in a state with `mid` only, returns what `ret`
    says and raises what `exc` says. -/
def Safe (answers : ω → σ → Except ε Unit → σ → Prop) (mid : σ → Prop) (ret : α → σ → Prop)
    (exc : ε → σ → Prop) : Prog ω σ ε α → σ → Prop
  | .done a, s => mid s ∧ ret a s
  | .raise e, s => mid s ∧ exc e s
  | .step op next, s =>
    mid s ∧ ∀ r s', answers op s r s' → Safe answers mid ret exc (next (r.map fun _ => s')) s'

/-- What a run of a program ends with. -/
def Ends (mid : σ → Prop) (ret : α → σ → Prop) (exc : ε → σ → Prop) : Outcome ε α → σ → Prop
  | .returned a, s => ret a s
  | .raised e, s => exc e s
  | .crashed, s => mid s

section
variable {answers : ω → σ → Except ε Unit → σ → Prop} {mid mid' : σ → Prop}
  {ret ret' : α → σ → Prop} {exc exc' : ε → σ → Prop} {p : Prog ω σ ε α} {s s' : σ}
  {o : Outcome ε α}

theorem Safe.here (h : Safe answers mid ret exc p s) : mid s := by
  cases p with
  | done a => exact h.1
  | raise e => exact h.1
  | step op next => exact h.1

theorem Safe.run (h : Safe answers mid ret exc p s) (hrun : Runs answers p s o s') :
    mid s' ∧ Ends mid ret exc o s' := by
  induction hrun with
  | returned a s => exact h
  | raised e s => exact h
  | crashed p s => exact ⟨h.here, h.here⟩
  | step hanswer _ ih => exact ih (h.2 _ _ hanswer)

theorem Safe.mono (h : Safe answers mid ret exc p s) (hmid : ∀ s, mid s → mid' s)
    (hret : ∀ a s, mid s → ret a s → ret' a s) (hexc : ∀ e s, mid s → exc e s → exc' e s) :
    Safe answers mid' ret' exc' p s := by
  induction p generalizing s with
  | done a => exact ⟨hmid s h.1, hret a s h.1 h.2⟩
  | raise e => exact ⟨hmid s h.1, hexc e s h.1 h.2⟩
  | step op next ih => exact ⟨hmid s h.1, fun r s' hanswer => ih _ (h.2 r s' hanswer)⟩

/-- One operation: it goes through, or its error is raised. -/
theorem safe_perform {op : ω} {ret : σ → σ → Prop} (hmid : mid s)
    (hok : ∀ s', answers op s (.ok ()) s' → mid s' ∧ ret s' s')
    (herror : ∀ e s', answers op s (.error e) s' → mid s' ∧ exc e s') :
    Safe answers mid ret exc (.perform op) s := by
  refine ⟨hmid, fun r s' hanswer => ?_⟩
  cases r with
  | ok _ => exact hok s' hanswer
  | error e => exact herror e s' hanswer

theorem safe_done {a : α} (hmid : mid s) (h : ret a s) :
    Safe answers mid ret exc (.done a) s := ⟨hmid, h⟩

theorem safe_raise {e : ε} (hmid : mid s) (h : exc e s) :
    Safe answers mid ret exc (.raise e) s := ⟨hmid, h⟩

theorem safe_require {condition : Bool} {e : ε} {ret : Unit → σ → Prop} (hmid : mid s)
    (htrue : condition = true → ret () s) (hfalse : condition = false → exc e s) :
    Safe answers mid ret exc (.require condition e) s := by
  cases condition with
  | true => exact ⟨hmid, htrue rfl⟩
  | false => exact ⟨hmid, hfalse rfl⟩

/-- The second program starts where the first one returns. -/
theorem safe_bind (ret' : α → σ → Prop) {f : α → Prog ω σ ε β} {ret : β → σ → Prop}
    (h : Safe answers mid ret' exc p s)
    (hnext : ∀ a s, mid s → ret' a s → Safe answers mid ret exc (f a) s) :
    Safe answers mid ret exc (p >>= f) s := by
  induction p generalizing s with
  | done a => exact hnext a s h.1 h.2
  | raise e => exact h
  | step op next ih => exact ⟨h.1, fun r s' hanswer => ih _ (h.2 r s' hanswer)⟩

/-- The handler starts where the program raises. -/
theorem safe_onRaise (exc' : ε → σ → Prop) {handler : ε → Prog ω σ ε α}
    (h : Safe answers mid ret exc' p s)
    (hhandler : ∀ e s, mid s → exc' e s → Safe answers mid ret exc (handler e) s) :
    Safe answers mid ret exc (p.onRaise handler) s := by
  induction p generalizing s with
  | done a => exact h
  | raise e => exact hhandler e s h.1 h.2
  | step op next ih => exact ⟨h.1, fun r s' hanswer => ih _ (h.2 r s' hanswer)⟩

/-- A loop keeps an invariant of what is left and what it has gathered. -/
theorem safe_foldlM {f : β → α → Prog ω σ ε β} {ret : β → σ → Prop}
    (inv : List α → β → σ → Prop) (hinv : ∀ xs b s, inv xs b s → mid s)
    (hstep : ∀ x xs b s, inv (x :: xs) b s → Safe answers mid (inv xs) exc (f b x) s)
    (hdone : ∀ b s, inv [] b s → ret b s) (xs : List α) (b : β) (s : σ) (h : inv xs b s) :
    Safe answers mid ret exc (xs.foldlM f b) s := by
  induction xs generalizing b s with
  | nil => exact ⟨hinv _ _ _ h, hdone b s h⟩
  | cons x xs ih =>
    rw [List.foldlM_cons]
    exact safe_bind _ (hstep x xs b s h) fun b s _ hb => ih b s hb

/-- The same for a loop that gathers nothing. -/
theorem safe_forM {f : α → Prog ω σ ε PUnit} {ret : PUnit → σ → Prop}
    (inv : List α → σ → Prop) (hinv : ∀ xs s, inv xs s → mid s)
    (hstep : ∀ x xs s, inv (x :: xs) s → Safe answers mid (fun _ => inv xs) exc (f x) s)
    (hdone : ∀ s, inv [] s → ret ⟨⟩ s) (xs : List α) (s : σ) (h : inv xs s) :
    Safe answers mid ret exc (xs.forM f) s := by
  induction xs generalizing s with
  | nil => exact ⟨hinv _ _ h, hdone s h⟩
  | cons x xs ih => exact safe_bind _ (hstep x xs s h) fun _ s _ hs => ih s hs

end

end CrashHoare
