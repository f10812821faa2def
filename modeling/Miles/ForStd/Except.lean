import Mathlib

/-!
# Except lemmas for the standard library

What a chain of fallible steps says when it succeeds, and when it fails.
-/

namespace Except

universe u v

variable {ε ε' : Type u} {α β : Type v}

theorem ok_bind (a : α) (f : α → Except ε β) : Except.ok a >>= f = f a := rfl

variable {f : α → Except ε β}

/-- A chain succeeds when both steps do. -/
theorem bind_eq_ok {x : Except ε α} {b : β} :
    x >>= f = .ok b ↔ ∃ a, x = .ok a ∧ f a = .ok b := by
  cases x with
  | error e => simp [bind, Except.bind]
  | ok a => simp [bind, Except.bind]

/-- A chain fails when its first step does, or the rest does after it. -/
theorem bind_eq_error {x : Except ε α} {e : ε} :
    x >>= f = .error e ↔ x = .error e ∨ ∃ a, x = .ok a ∧ f a = .error e := by
  cases x with
  | error e' => simp [bind, Except.bind]
  | ok a => simp [bind, Except.bind]

/-- Renaming the error does not make a step succeed. -/
theorem mapError_eq_ok {x : Except ε α} {f : ε → ε'} {a : α} :
    x.mapError f = .ok a ↔ x = .ok a := by
  cases x <;> simp [Except.mapError]

/-- An assertion: an error unless the condition holds. -/
def ensure (p : Prop) [Decidable p] (e : ε) : Except ε Unit := if p then .ok () else .error e

theorem ensure_eq_ok {p : Prop} [Decidable p] {e : ε} {u : Unit} :
    ensure p e = .ok u ↔ p := by
  unfold ensure
  split <;> simp_all

/-- A loop succeeds when every step does. -/
theorem forM_eq_ok {xs : List α} {f : α → Except ε PUnit} :
    xs.forM f = .ok ⟨⟩ ↔ ∀ x ∈ xs, f x = .ok ⟨⟩ := by
  induction xs with
  | nil => exact ⟨fun _ x hx => absurd hx (by simp), fun _ => rfl⟩
  | cons x xs ih =>
    show (f x >>= fun _ => xs.forM f) = .ok ⟨⟩ ↔ _
    rw [bind_eq_ok]
    constructor
    · rintro ⟨_, hx, hxs⟩ y hy
      rcases List.mem_cons.mp hy with rfl | hy
      · exact hx
      · exact ih.mp hxs y hy
    · intro h
      exact ⟨⟨⟩, h x (by simp), ih.mpr fun y hy => h y (by simp [hy])⟩

/-- What a loop returns if each step that succeeds returns the value of a function. -/
theorem mapM_eq_map {xs : List α} {ys : List β} {value : α → β}
    (hvalue : ∀ x ∈ xs, ∀ y, f x = .ok y → y = value x) (h : xs.mapM f = .ok ys) :
    ys = xs.map value := by
  induction xs generalizing ys with
  | nil =>
    cases h
    rfl
  | cons x xs ih =>
    rw [List.mapM_cons] at h
    obtain ⟨y, hx, h⟩ := bind_eq_ok.mp h
    obtain ⟨rest, hxs, h⟩ := bind_eq_ok.mp h
    cases h
    rw [List.map_cons, ← hvalue x (by simp) y hx,
      ← ih (fun z hz => hvalue z (by simp [hz])) hxs]

/-- What a loop returns, element by element. -/
theorem mapM_eq_ok {xs : List α} {ys : List β} :
    xs.mapM f = .ok ys ↔ List.Forall₂ (fun x y => f x = .ok y) xs ys := by
  induction xs generalizing ys with
  | nil =>
    rw [List.mapM_nil, List.forall₂_nil_left_iff]
    exact ⟨fun h => (Except.ok.inj h).symm, fun h => h ▸ rfl⟩
  | cons x xs ih =>
    rw [List.mapM_cons, bind_eq_ok]
    constructor
    · rintro ⟨a, hx, h⟩
      obtain ⟨bs, hxs, h⟩ := bind_eq_ok.mp h
      cases h
      exact .cons hx (ih.mp hxs)
    · intro h
      cases h with
      | cons hx hxs => exact ⟨_, hx, bind_eq_ok.mpr ⟨_, ih.mpr hxs, rfl⟩⟩

/-- A loop whose steps all succeed. -/
theorem mapM_of_ok {xs : List α} {value : α → β}
    (h : ∀ x ∈ xs, f x = .ok (value x)) : xs.mapM f = .ok (xs.map value) := by
  induction xs with
  | nil => rfl
  | cons x xs ih =>
    rw [List.mapM_cons, h x (by simp), ih fun y hy => h y (by simp [hy])]
    rfl

/-- A loop that undoes a map gives the list back. -/
theorem mapM_map_of_ok {xs : List α} {g : α → β} {f : β → Except ε α}
    (h : ∀ x ∈ xs, f (g x) = .ok x) : (xs.map g).mapM f = .ok xs := by
  induction xs with
  | nil => rfl
  | cons x xs ih =>
    rw [List.map_cons, List.mapM_cons, h x (by simp), ih fun y hy => h y (by simp [hy])]
    rfl

/-- The results of a loop are the results of its steps. -/
theorem mem_mapM {xs : List α} {ys : List β} (h : xs.mapM f = .ok ys) {y : β} :
    y ∈ ys ↔ ∃ x ∈ xs, f x = .ok y := by
  have hall := mapM_eq_ok.mp h
  induction hall with
  | nil => simp
  | cons hx hrest ih =>
    rename_i x z xs zs
    have ih := ih (mapM_eq_ok.mpr hrest)
    simp only [List.mem_cons, ih, exists_eq_or_imp, hx, Except.ok.injEq]
    rw [eq_comm]

/-- A loop succeeds if every step does, and its results have what the results of the steps have. -/
theorem exists_mapM_forall₂ {xs : List α} {P : α → β → Prop}
    (h : ∀ x ∈ xs, ∃ y, f x = .ok y ∧ P x y) :
    ∃ ys, xs.mapM f = .ok ys ∧ List.Forall₂ P xs ys := by
  induction xs with
  | nil => exact ⟨[], rfl, .nil⟩
  | cons x xs ih =>
    obtain ⟨y, hy, hP⟩ := h x (by simp)
    obtain ⟨ys, hys, hall⟩ := ih fun z hz => h z (by simp [hz])
    exact ⟨y :: ys, by rw [List.mapM_cons, hy, ok_bind, hys]; rfl, .cons hP hall⟩

/-- Every step of a loop that succeeds succeeds. -/
theorem exists_of_mapM {xs : List α} {ys : List β} (h : xs.mapM f = .ok ys)
    {x : α} (hx : x ∈ xs) : ∃ y, f x = .ok y := by
  have hall := mapM_eq_ok.mp h
  induction hall with
  | nil => cases hx
  | cons hhead hrest ih =>
    rcases List.mem_cons.mp hx with rfl | hx
    · exact ⟨_, hhead⟩
    · exact ih (mapM_eq_ok.mpr hrest) hx

end Except

namespace List

/-- A comprehension over steps that may have no value has one when they all have. -/
theorem mapM_eq_some {α β : Type} {f : α → Option β} {xs : List α} {ys : List β} :
    xs.mapM f = some ys ↔ List.Forall₂ (fun x y => f x = some y) xs ys := by
  induction xs generalizing ys with
  | nil => cases ys <;> simp
  | cons x xs ih =>
    rw [List.mapM_cons]
    cases hx : f x with
    | none => cases ys <;> simp [hx]
    | some y =>
      cases hxs : xs.mapM f with
      | none =>
        cases ys with
        | nil => simp
        | cons y' ys =>
          have hnot : ¬ List.Forall₂ (fun x y => f x = some y) xs ys := by
            rw [← ih, hxs]
            simp
          simp [hnot]
      | some ys' =>
        cases ys with
        | nil => simp
        | cons y' ys =>
          rw [List.forall₂_cons, ← ih, hxs, hx]
          simp

/-- Values that are all there. -/
theorem mapM_id_eq_some {α : Type} {xs : List (Option α)} {ys : List α} :
    xs.mapM id = some ys ↔ xs = ys.map some := by
  rw [mapM_eq_some]
  constructor
  · intro h
    induction h with
    | nil => rfl
    | cons hxy _ ih => rw [map_cons, ih, ← hxy, id]
  · rintro rfl
    induction ys with
    | nil => exact .nil
    | cons y ys ih => exact .cons rfl ih

theorem exists_mapM_eq_some {α β : Type} {f : α → Option β} {xs : List α}
    (h : ∀ x ∈ xs, (f x).isSome) : ∃ ys, xs.mapM f = some ys := by
  induction xs with
  | nil => exact ⟨[], rfl⟩
  | cons x xs ih =>
    rw [forall_mem_cons] at h
    obtain ⟨y, hy⟩ := Option.isSome_iff_exists.mp h.1
    obtain ⟨ys, hys⟩ := ih h.2
    exact ⟨y :: ys, by rw [mapM_cons, hy, hys]; rfl⟩

theorem mem_of_mapM_eq_some {α β : Type} {f : α → Option β} {xs : List α} {ys : List β}
    (h : xs.mapM f = some ys) {y : β} : y ∈ ys ↔ ∃ x ∈ xs, f x = some y := by
  induction xs generalizing ys with
  | nil =>
    cases h
    simp
  | cons x xs ih =>
    rw [mapM_eq_some] at h
    cases h with
    | cons hxy hrest =>
      rw [mem_cons, ih (mapM_eq_some.mpr hrest)]
      constructor
      · intro h
        obtain rfl | ⟨x', hx', hy⟩ := h
        · exact ⟨_, mem_cons_self, hxy⟩
        · exact ⟨x', mem_cons_of_mem _ hx', hy⟩
      · intro h
        obtain ⟨x', hx', hy⟩ := h
        obtain rfl | hx' := mem_cons.mp hx'
        · exact .inl (Option.some.inj (hy.symm.trans hxy))
        · exact .inr ⟨x', hx', hy⟩

end List
