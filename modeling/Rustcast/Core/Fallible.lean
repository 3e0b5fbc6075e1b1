import Mathlib.Tactic.Common

/-!
# Computations that may fail

Sequences, maps and folds of computations in `Except`: what a success says about the steps, and where a
failure comes from.
-/

namespace Rustcast.Fallible

variable {ε α β : Type}

variable {f : α → Except ε β}

variable {x : Except ε α} {e : ε}

theorem bind_eq_ok {b : β} : (x >>= f) = .ok b ↔ ∃ a, x = .ok a ∧ f a = .ok b := by
  cases x with
  | error e => simp [bind, Except.bind]
  | ok a => simp [bind, Except.bind]

/-- A failure is one of the first step, or one of the second. -/
theorem bind_eq_error : (x >>= f) = .error e ↔ x = .error e ∨ ∃ a, x = .ok a ∧ f a = .error e := by
  cases x with
  | error e' => simp [bind, Except.bind]
  | ok a => simp [bind, Except.bind]

theorem mapM_eq_ok {g : α → β} {xs : List α} (h : ∀ x ∈ xs, f x = .ok (g x)) :
    xs.mapM f = .ok (xs.map g) := by
  induction xs with
  | nil => rfl
  | cons x xs ih =>
    rw [List.mapM_cons, h x List.mem_cons_self, ih fun x hx => h x (List.mem_cons_of_mem _ hx)]
    rfl

/-- A fold does not fail in a way that no step fails in. -/
theorem foldlM_ne_error {f : β → α → Except ε β} (h : ∀ acc x, f acc x ≠ .error e) (xs : List α) (acc : β) :
    xs.foldlM f acc ≠ .error e := by
  induction xs generalizing acc with
  | nil =>
    intro herror
    cases herror
  | cons x xs ih =>
    rw [List.foldlM_cons, ne_eq, bind_eq_error]
    rintro (herror | ⟨acc', -, herror⟩)
    · exact h acc x herror
    · exact ih acc' herror

end Rustcast.Fallible
