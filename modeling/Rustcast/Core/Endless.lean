import Mathlib.Order.Filter.AtTopBot.Basic

/-!
# Endless runs

The states that a total step function goes through on an endless sequence of inputs. What holds in the end
is `∀ᶠ n in atTop`, what happens again and again is `∃ᶠ n in atTop`.
-/

namespace Rustcast.Endless

open Filter

universe u v

variable {σ : Type u} {ι : Type v}

/-- The state before input `n`. -/
def stateAt (next : σ → ι → σ) (s : σ) (inputs : ℕ → ι) : ℕ → σ
  | 0 => s
  | n + 1 => next (stateAt next s inputs n) (inputs n)

variable {next : σ → ι → σ} {s : σ} {inputs : ℕ → ι}

/-- What a step that meets `ok` preserves holds in every state of a run whose steps all meet `ok`. -/
theorem stateAt_invariant (ok : σ → ι → Prop) {Inv : σ → Prop}
    (hstep : ∀ s i, Inv s → ok s i → Inv (next s i)) (h0 : Inv s)
    (hok : ∀ n, ok (stateAt next s inputs n) (inputs n)) : ∀ n, Inv (stateAt next s inputs n) := by
  intro n
  induction n with
  | zero => exact h0
  | succ n ih => exact hstep _ _ ih (hok n)

/-- A state that no later input changes. -/
theorem stateAt_of_fixed {N : ℕ}
    (hfixed : ∀ n, N ≤ n → next (stateAt next s inputs N) (inputs n) = stateAt next s inputs N) :
    ∀ n, N ≤ n → stateAt next s inputs n = stateAt next s inputs N := by
  intro n hn
  induction n, hn using Nat.le_induction with
  | base => rfl
  | succ n hn ih => rw [stateAt, ih, hfixed n hn]

/-- What stays from some time on, and holds again and again, holds in the end. -/
theorem eventually_of_stays {P : ℕ → Prop} (hstays : ∀ᶠ n in atTop, P n → P (n + 1))
    (hoften : ∃ᶠ n in atTop, P n) : ∀ᶠ n in atTop, P n := by
  obtain ⟨N, hN⟩ := eventually_atTop.mp hstays
  obtain ⟨n, hn, hP⟩ := frequently_atTop.mp hoften N
  refine eventually_atTop.mpr ⟨n, fun m hm => ?_⟩
  induction m, hm using Nat.le_induction with
  | base => exact hP
  | succ m hm ih => exact hN m (hn.trans hm) ih

end Rustcast.Endless
