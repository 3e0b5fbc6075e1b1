import Mathlib.Tactic.Common

/-!
# Interpolation with fixed-point weights

Weighted means of two numbers, with weights that are fractions of `one`, and the positions that a walk in
equal steps takes.
-/

namespace Rustcast.FixedPoint

/-- `one` times the mean of `a` and `b`, in which `b` has the weight `w / one`. -/
def lerp (one a b w : Nat) : Nat := a * (one - w) + b * w

variable {one a b w m : Nat}

theorem lerp_le (ha : a ≤ m) (hb : b ≤ m) (hw : w ≤ one) : lerp one a b w ≤ m * one :=
  calc a * (one - w) + b * w ≤ m * (one - w) + m * w :=
        Nat.add_le_add (Nat.mul_le_mul_right _ ha) (Nat.mul_le_mul_right _ hb)
    _ = m * one := by rw [← Nat.mul_add, Nat.sub_add_cancel hw]

/-- The steps stay below the span that is divided into them. -/
theorem mul_div_lt {span d i : Nat} (hspan : 0 < span) (hi : i < d) : i * (span / d) < span := by
  rcases Nat.eq_zero_or_pos (span / d) with hzero | hpos
  · rw [hzero]
    exact hspan
  · calc i * (span / d) < d * (span / d) := Nat.mul_lt_mul_of_pos_right hi hpos
      _ ≤ span := Nat.mul_div_le span d

end Rustcast.FixedPoint
