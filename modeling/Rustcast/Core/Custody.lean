import Mathlib.Data.Multiset.Range

/-!
# Things in custody

Things are numbered as they are made, and each is in somebody's hands until it is given back. Who holds
what is a multiset, so that handing a thing on does not change the books.
-/

namespace Rustcast.Custody

open Multiset (range)

/-- Every thing made is held, or has been given back, once. -/
def Balanced (held back : Multiset ℕ) (made : ℕ) : Prop := held + back = range made

/-- Different things that have been made. -/
def Apart (keys : Multiset ℕ) (made : ℕ) : Prop := keys ≤ range made

variable {held back keys keys' : Multiset ℕ} {made k : ℕ}

namespace Balanced

theorem start : Balanced 0 0 0 := rfl

theorem make (h : Balanced held back made) : Balanced (made ::ₘ held) back (made + 1) := by
  rw [Balanced, Multiset.cons_add, h, Multiset.range_succ]

theorem giveBack (h : Balanced (k ::ₘ held) back made) : Balanced held (k ::ₘ back) made := by
  rw [Balanced, Multiset.add_cons, ← Multiset.cons_add]
  exact h

section

variable (h : Balanced held back made)

include h

theorem nodup : (held + back).Nodup := by
  rw [h]
  exact Multiset.nodup_range made

/-- Nothing is given back twice. -/
theorem nodup_back : back.Nodup :=
  Multiset.nodup_of_le (Multiset.le_add_left back held) h.nodup

/-- What is held has not been given back. -/
theorem notMem_back (hk : k ∈ held) : k ∉ back := by
  intro hback
  have hdisjoint := (Multiset.nodup_add.mp h.nodup).2.2
  exact Multiset.disjoint_left.mp hdisjoint hk hback

end

/-- When nobody holds anything, everything has been given back. -/
theorem mem_back (h : Balanced 0 back made) (hk : k < made) : k ∈ back := by
  have hback : back = range made := (Multiset.zero_add back).symm.trans h
  rw [hback]
  exact Multiset.mem_range.mpr hk

end Balanced

namespace Apart

theorem nodup (h : Apart keys made) : keys.Nodup := Multiset.nodup_of_le h (Multiset.nodup_range made)

/-- Things may get lost. -/
theorem mono (h : Apart keys made) (hle : keys' ≤ keys) : Apart keys' made := hle.trans h

theorem make (h : Apart keys made) : Apart (made ::ₘ keys) (made + 1) := by
  rw [Apart, Multiset.range_succ]
  exact Multiset.cons_le_cons made h

theorem ne_of_mem {left right : Multiset ℕ} (h : Apart (left + right) made) {a b : ℕ} (ha : a ∈ left)
    (hb : b ∈ right) : a ≠ b := by
  rintro rfl
  exact Multiset.disjoint_left.mp (Multiset.nodup_add.mp h.nodup).2.2 ha hb

end Apart

theorem coe_map_eraseIdx {α : Type*} {f : α → ℕ} {l : List α} {i : ℕ} {a : α} (h : l[i]? = some a) :
    (l.map f : Multiset ℕ) = f a ::ₘ ((l.eraseIdx i).map f : Multiset ℕ) := by
  obtain ⟨hlt, rfl⟩ := List.getElem?_eq_some_iff.mp h
  rw [Multiset.cons_coe, Multiset.coe_eq_coe]
  exact ((List.getElem_cons_eraseIdx_perm hlt).map f).symm

theorem coe_map_eraseIdx_le {α : Type*} (f : α → ℕ) (l : List α) (i : ℕ) :
    ((l.eraseIdx i).map f : Multiset ℕ) ≤ (l.map f : Multiset ℕ) :=
  Multiset.coe_le.mpr ((List.eraseIdx_sublist l i).map f).subperm

end Rustcast.Custody
