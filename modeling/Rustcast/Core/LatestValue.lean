import Mathlib.Tactic.Common

/-!
# Values on a way where only the latest one counts

A hop that keeps the latest value discards the one before. The way to a receiver is the list of what
has arrived and of what is under way, in order. A value `b` `Leads` a way if no other value that is
at least as new is ahead of it: then nothing as new arrives before `b` does.
-/

namespace Rustcast

variable {α : Type*} (number : α → Nat) (b : α)

/-- The first value on the way that is as new as `b` is `b` itself. -/
def Leads (way : List α) : Prop := way.find? (fun u => decide (number b ≤ number u)) = some b

variable {number b} {x y z : List α}

theorem find?_eq_none_iff_lt :
    x.find? (fun u => decide (number b ≤ number u)) = none ↔ ∀ u ∈ x, number u < number b := by
  rw [List.find?_eq_none]
  constructor
  · intro h u hu
    have hle := h u hu
    rw [decide_eq_true_eq] at hle
    omega
  · intro h u hu
    have hlt := h u hu
    rw [decide_eq_true_eq]
    omega

theorem Leads.mem (h : Leads number b x) : b ∈ x := List.mem_of_find?_eq_some h

/-- Either `b` leads the front part, or all of that is older. -/
theorem leads_append :
    Leads number b (x ++ y) ↔ Leads number b x ∨ (∀ u ∈ x, number u < number b) ∧ Leads number b y := by
  unfold Leads
  rw [List.find?_append]
  cases hx : x.find? (fun u => decide (number b ≤ number u)) with
  | none =>
    have hlt := find?_eq_none_iff_lt.1 hx
    constructor
    · intro hy
      exact .inr ⟨hlt, hy⟩
    · rintro (hb | ⟨-, hy⟩)
      · cases hb
      · exact hy
  | some u =>
    constructor
    · exact .inl
    · rintro (hb | ⟨hlt, -⟩)
      · exact hb
      · have hnone := find?_eq_none_iff_lt.2 hlt
        rw [hx] at hnone
        cases hnone

theorem leads_singleton : Leads number b [b] := by
  simp [Leads]

theorem Leads.append_right (h : Leads number b x) (y : List α) : Leads number b (x ++ y) :=
  leads_append.2 (.inl h)

theorem leads_concat (h : ∀ u ∈ x, number u < number b) : Leads number b (x ++ [b]) :=
  leads_append.2 (.inr ⟨h, leads_singleton⟩)

namespace Leads

variable (h : Leads number b (x ++ y))

include h

/-- What follows a front part may be replaced by another way that `b` leads. -/
theorem replace (hz : Leads number b z) : Leads number b (x ++ z) := by
  rcases leads_append.1 h with hx | ⟨hlt, -⟩
  · exact hx.append_right z
  · exact leads_append.2 (.inr ⟨hlt, hz⟩)

theorem of_not_mem_right (hy : b ∉ y) : Leads number b x := by
  rcases leads_append.1 h with hx | ⟨-, hlead⟩
  · exact hx
  · exact absurd hlead.mem hy

theorem of_not_mem_left (hx : b ∉ x) : (∀ u ∈ x, number u < number b) ∧ Leads number b y := by
  rcases leads_append.1 h with hlead | hrest
  · exact absurd hlead.mem hx
  · exact hrest

end Leads

/-- Discarding other values does not matter. -/
theorem Leads.of_remove (h : Leads number b (x ++ (y ++ z))) (hy : b ∉ y) : Leads number b (x ++ z) := by
  rcases leads_append.1 h with hx | ⟨hlt, hyz⟩
  · exact hx.append_right z
  · exact leads_append.2 (.inr ⟨hlt, (hyz.of_not_mem_left hy).2⟩)

/-- What follows a front part that `b` is in does not matter. -/
theorem Leads.of_mem_left (h : Leads number b (x ++ y)) (hx : b ∈ x) (z : List α) :
    Leads number b (x ++ z) := by
  rcases leads_append.1 h with hlead | ⟨hlt, -⟩
  · exact hlead.append_right z
  · exact absurd (hlt b hx) (Nat.lt_irrefl _)

/-- Nothing as new arrives before `b`. -/
theorem Leads.mem_of_mem (h : Leads number b (x ++ y)) {u : α} (hu : u ∈ x)
    (hnew : number b ≤ number u) : b ∈ x := by
  rcases leads_append.1 h with hlead | ⟨hlt, -⟩
  · exact hlead.mem
  · have hold := hlt u hu
    omega

end Rustcast
