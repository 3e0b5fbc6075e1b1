import Mathlib.Tactic.Common

/-!
# Sub-slices

Reads of a range of a sequence that fail if the range is not inside of it.
-/

namespace Rustcast.Slice

variable {α : Type*} {xs ys : List α} {start stop : Nat}

/-- The elements from `start` up to `stop`, if there are that many. -/
def get? (xs : List α) (start stop : Nat) : Option (List α) :=
  if start ≤ stop ∧ stop ≤ xs.length then some ((xs.drop start).take (stop - start)) else none

theorem get?_eq_some : get? xs start stop = some ys ↔
    (start ≤ stop ∧ stop ≤ xs.length) ∧ (xs.drop start).take (stop - start) = ys := by
  unfold get?
  split
  next h => simp [h]
  next h => simp [h]

theorem get?_of_le (hstart : start ≤ stop) (hstop : stop ≤ xs.length) :
    get? xs start stop = some ((xs.drop start).take (stop - start)) :=
  if_pos ⟨hstart, hstop⟩

theorem get?_eq_none : get? xs start stop = none ↔ stop < start ∨ xs.length < stop := by
  unfold get?
  split
  next h =>
    simp only [reduceCtorEq, false_iff]
    omega
  next h =>
    simp only [true_iff]
    omega

section

variable (h : get? xs start stop = some ys)

include h

theorem length_of_get? : ys.length = stop - start := by
  obtain ⟨⟨hstart, hstop⟩, rfl⟩ := get?_eq_some.mp h
  rw [List.length_take, List.length_drop]
  omega

/-- A slice is the sequence, moved. -/
theorem getElem?_of_get? {i : Nat} (hi : i < stop - start) : ys[i]? = xs[start + i]? := by
  obtain ⟨-, rfl⟩ := get?_eq_some.mp h
  rw [List.getElem?_take_of_lt hi, List.getElem?_drop]

theorem get?_trans {start' stop' : Nat} {zs : List α} (h' : get? ys start' stop' = some zs) :
    get? xs (start + start') (start + stop') = some zs := by
  have hlength := length_of_get? h
  obtain ⟨⟨hstart, hstop⟩, rfl⟩ := get?_eq_some.mp h
  obtain ⟨⟨hstart', hstop'⟩, rfl⟩ := get?_eq_some.mp h'
  rw [get?_of_le (by omega) (by omega)]
  rw [List.drop_take, List.take_take, List.drop_drop]
  congr 2
  omega

end

end Rustcast.Slice
