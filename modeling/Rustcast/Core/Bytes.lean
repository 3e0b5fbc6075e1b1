import Mathlib.Algebra.Group.Nat.Defs
import Mathlib.Data.List.Induction

/-!
# Number fields and exact reads

The byte-level vocabulary that the wire and file formats share: unsigned numbers of a fixed
width in both byte orders, and reads of an exact number of bytes from the front of a stream.
-/

namespace Rustcast.Bytes

variable (bytes : List UInt8)

/-- The number a byte string denotes, most significant byte first. -/
def beNat : Nat := bytes.foldl (fun n b => n * 256 + b.toNat) 0

/-- `n` in `width` bytes, most significant byte first. -/
def beBytes : (width n : Nat) → List UInt8
  | 0, _ => []
  | width + 1, n => beBytes width (n / 256) ++ [UInt8.ofNat n]

/-- The first `n` bytes and the rest, if there are that many. -/
def readExact (n : Nat) (bytes : List UInt8) : Option (List UInt8 × List UInt8) :=
  if n ≤ bytes.length then some (bytes.take n, bytes.drop n) else none

@[simp] theorem length_beBytes (width n : Nat) : (beBytes width n).length = width := by
  induction width generalizing n with
  | zero => rfl
  | succ width ih => simp [beBytes, ih]

theorem beNat_concat (b : UInt8) : beNat (bytes ++ [b]) = beNat bytes * 256 + b.toNat := by
  simp [beNat]

/-- A number that fits is read back. -/
theorem beNat_beBytes {width n : Nat} (h : n < 256 ^ width) : beNat (beBytes width n) = n := by
  induction width generalizing n with
  | zero =>
    show 0 = n
    omega
  | succ width ih =>
    have hdiv : n / 256 < 256 ^ width := by
      rw [Nat.pow_succ] at h
      exact Nat.div_lt_of_lt_mul (by rwa [Nat.mul_comm] at h)
    rw [beBytes, beNat_concat, ih hdiv, UInt8.toNat_ofNat']
    omega

/-- So many bytes have only so many values. -/
theorem beNat_lt : beNat bytes < 256 ^ bytes.length := by
  induction bytes using List.reverseRecOn with
  | nil => decide
  | append_singleton bytes b ih =>
    have hb := b.toNat_lt
    rw [beNat_concat, List.length_append, List.length_singleton]
    omega

/-- The number a byte string denotes, least significant byte first. -/
def leNat : Nat := beNat bytes.reverse

/-- `n` in `width` bytes, least significant byte first. -/
def leBytes (width n : Nat) : List UInt8 := (beBytes width n).reverse

@[simp] theorem length_leBytes (width n : Nat) : (leBytes width n).length = width := by
  rw [leBytes, List.length_reverse, length_beBytes]

theorem leNat_leBytes {width n : Nat} (h : n < 256 ^ width) : leNat (leBytes width n) = n := by
  rw [leNat, leBytes, List.reverse_reverse, beNat_beBytes h]

theorem leNat_lt : leNat bytes < 256 ^ bytes.length := by
  have hlt := beNat_lt bytes.reverse
  rwa [List.length_reverse] at hlt

/-- The bytes read, and what is behind them. -/
theorem readExact_eq_some {n : Nat} {bytes xs ys : List UInt8} :
    readExact n bytes = some (xs, ys) ↔ xs.length = n ∧ bytes = xs ++ ys := by
  unfold readExact
  constructor
  · intro h
    split at h <;> cases h
    exact ⟨List.length_take_of_le ‹_›, (List.take_append_drop _ _).symm⟩
  · rintro ⟨rfl, rfl⟩
    simp

theorem readExact_append (xs ys : List UInt8) :
    readExact xs.length (xs ++ ys) = some (xs, ys) := readExact_eq_some.mpr ⟨rfl, rfl⟩

end Rustcast.Bytes
