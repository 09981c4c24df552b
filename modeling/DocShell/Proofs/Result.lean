import Mathlib.Data.List.Basic

set_option autoImplicit false

/-! # Results of computations that may fail

When a composed computation succeeds and when it fails, what a run of steps keeps, and where a
run stops. Proofs about computations
that may fail take them apart with these lemmas and do not unfold the monad.
-/

namespace Except

variable {ε ε' α β σ : Type}

theorem bind_eq_ok_iff {x : Except ε α} {f : α → Except ε β} {b : β} :
    (x >>= f) = .ok b ↔ ∃ a, x = .ok a ∧ f a = .ok b := by
  cases x with
  | error e => simp [bind, Except.bind]
  | ok a => simp [bind, Except.bind]

theorem bind_eq_error_iff {x : Except ε α} {f : α → Except ε β} {e : ε} :
    (x >>= f) = .error e ↔ x = .error e ∨ ∃ a, x = .ok a ∧ f a = .error e := by
  cases x with
  | error e' => simp [bind, Except.bind]
  | ok a => simp [bind, Except.bind]

theorem pure_eq_ok_iff {a b : α} : (pure a : Except ε α) = .ok b ↔ a = b := by
  simp [pure, Except.pure]

theorem map_eq_ok_iff {x : Except ε α} {f : α → β} {b : β} :
    x.map f = .ok b ↔ ∃ a, x = .ok a ∧ f a = b := by
  cases x with
  | error e => simp [Except.map]
  | ok a => simp [Except.map]

theorem mapError_eq_ok_iff {x : Except ε α} {f : ε → ε'} {a : α} :
    x.mapError f = .ok a ↔ x = .ok a := by
  cases x with
  | error e => simp [Except.mapError]
  | ok b => simp [Except.mapError]

theorem mapError_eq_error_iff {x : Except ε α} {f : ε → ε'} {e : ε'} :
    x.mapError f = .error e ↔ ∃ e₀, x = .error e₀ ∧ f e₀ = e := by
  cases x with
  | error e₀ => simp [Except.mapError]
  | ok b => simp [Except.mapError]

theorem exists_of_isOk {x : Except ε α} (h : x.isOk = true) : ∃ a, x = .ok a := by
  cases x with
  | error e => contradiction
  | ok a => exact ⟨a, rfl⟩

theorem exists_of_toOption_map {x : Except ε α} {f : α → β} {b : β}
    (h : x.toOption.map f = some b) : ∃ a, x = .ok a ∧ f a = b := by
  cases x with
  | error e => contradiction
  | ok a => exact ⟨a, rfl, Option.some.inj h⟩

/-- The error of a computation that fails. -/
def error? : Except ε α → Option ε
  | .error e => some e
  | .ok _ => none

theorem error?_eq_some_iff {x : Except ε α} {e : ε} : x.error? = some e ↔ x = .error e := by
  cases x with
  | error e' => simp [error?]
  | ok a => simp [error?]

/-- A property of what has been read and the state that each step keeps is kept by a run. -/
theorem foldlM_invariant {step : σ → α → Except ε σ} {P : List α → σ → Prop}
    (hstep : ∀ read a s s', P read s → step s a = .ok s' → P (read ++ [a]) s')
    (read : List α) {xs : List α} {s s' : σ} (hP : P read s) (h : xs.foldlM step s = .ok s') :
    P (read ++ xs) s' := by
  induction xs generalizing read s with
  | nil =>
      obtain rfl := Except.ok.inj h
      rwa [List.append_nil]
  | cons a xs ih =>
      rw [List.foldlM_cons, bind_eq_ok_iff] at h
      obtain ⟨s₁, ha, hxs⟩ := h
      have hrest := ih (read ++ [a]) (hstep read a s s₁ hP ha) hxs
      rwa [List.append_assoc, List.singleton_append] at hrest

/-- A run that fails does so at one of its steps; before it the run goes on. -/
theorem exists_of_foldlM_eq_error {step : σ → α → Except ε σ} {xs : List α} {s : σ} {e : ε}
    (h : xs.foldlM step s = .error e) :
    ∃ front a rest s', xs = front ++ a :: rest ∧ front.foldlM step s = .ok s' ∧
      step s' a = .error e := by
  induction xs generalizing s with
  | nil => contradiction
  | cons a xs ih =>
      rw [List.foldlM_cons, bind_eq_error_iff] at h
      rcases h with ha | ⟨s₁, ha, hxs⟩
      · exact ⟨[], a, xs, s, rfl, rfl, ha⟩
      · obtain ⟨front, b, rest, s', rfl, hfront, hb⟩ := ih hxs
        refine ⟨a :: front, b, rest, s', rfl, ?_, hb⟩
        rw [List.foldlM_cons, bind_eq_ok_iff]
        exact ⟨s₁, ha, hfront⟩

end Except
