import Mathlib.Algebra.Group.Nat.Defs
import Mathlib.Tactic.Common

/-!
# Sequence numbers modulo 2^32

`dist a b` is the forward distance from `b` to `a` on the 32-bit circle, the
`(a - b) >>> 0` of the browser code. A number is *ahead* of another when that distance
is below `half = 2^31`; the lemmas below turn comparisons on the circle into linear
arithmetic over the distances to one common base, which is all the proofs about
reordering buffers need.
-/

namespace Rustcast.SeqNum

/-- Half the circle: the bound between "ahead" and "behind". -/
def half : Nat := 2 ^ 31

/-- Forward distance from `b` to `a`. -/
def dist (a b : UInt32) : Nat := (a - b).toNat

/-- The distance as arithmetic over the two representatives. -/
theorem dist_eq (a b : UInt32) : dist a b = (2 ^ 32 - b.toNat + a.toNat) % 2 ^ 32 := by
  simp [dist, UInt32.toNat_sub]

variable {a b : UInt32}

@[simp] theorem dist_self (a : UInt32) : dist a a = 0 := by simp [dist]

theorem dist_eq_zero : dist a b = 0 ↔ a = b := by
  constructor
  · intro h
    have ha := a.toNat_lt
    have hb := b.toNat_lt
    rw [dist_eq] at h
    apply UInt32.toNat_inj.mp
    omega
  · rintro rfl
    exact dist_self a

theorem toNat_succ (a : UInt32) : (a + 1).toNat = (a.toNat + 1) % 2 ^ 32 := by
  simp [UInt32.toNat_add]

@[simp] theorem dist_succ_self (a : UInt32) : dist (a + 1) a = 1 := by
  have ha := a.toNat_lt
  rw [dist_eq, toNat_succ]
  omega

/-- Moving the base one step forward brings everything ahead of it one step closer. -/
theorem dist_succ_right (h : dist a b ≠ 0) : dist a (b + 1) = dist a b - 1 := by
  have hb := b.toNat_lt
  rw [dist_eq] at h
  rw [dist_eq, dist_eq, toNat_succ]
  omega

/-- Moving the base forward to a number that is not past `a` shortens the distance by
exactly the move. -/
theorem dist_of_le {c : UInt32} (h : dist b c ≤ dist a c) : dist a b = dist a c - dist b c := by
  have hb := b.toNat_lt
  simp only [dist_eq] at *
  omega

/-- Moving the base past `a` puts `a` behind: by at most the move, so a move of less than
half the circle leaves it at a distance of at least half. -/
theorem half_le_dist_of_lt {c : UInt32} (h : dist a c < dist b c) (hb : dist b c < half) :
    half ≤ dist a b := by
  have hb' := b.toNat_lt
  simp only [dist_eq, half] at *
  omega

/-- A representative of the base plus the distance is a representative of the target:
what keeps an unwrapped counter in step with the number it unwraps. -/
theorem add_dist_mod {n : Nat} (h : n % 2 ^ 32 = b.toNat) : (n + dist a b) % 2 ^ 32 = a.toNat := by
  have ha := a.toNat_lt
  rw [dist_eq]
  omega

theorem dist_add_ofNat {n : Nat} (h : n < 2 ^ 32) : dist (a + UInt32.ofNat n) a = n := by
  have ha := a.toNat_lt
  have hn : (a + UInt32.ofNat n).toNat = (a.toNat + n) % 2 ^ 32 := by
    simp [UInt32.toNat_add]
  rw [dist_eq]
  omega

end Rustcast.SeqNum
