import Mathlib.Tactic.Common

/-!
# Ring buffers

A ring of `cap` places with the place that is read next and the place that is written next. It is empty
where the two are the same, so it never holds more than `cap - 1` values.
-/

namespace Rustcast.Ring

universe u

variable {β : Type u} {cap read write start n d : Nat} {store : Nat → β}

/-- Places less than one round on. -/
theorem mod_eq_ite {a : Nat} (h : a < 2 * cap) : a % cap = if a < cap then a else a - cap := by
  split
  next hlt => exact Nat.mod_eq_of_lt hlt
  next hge =>
    rw [Nat.mod_eq_sub_mod (Nat.le_of_not_lt hge)]
    exact Nat.mod_eq_of_lt (by omega)

/-! ## Windows -/

/-- `n` values from `start` on, around the ring. -/
def window (cap : Nat) (store : Nat → β) (start n : Nat) : List β :=
  (List.range n).map fun k => store ((start + k) % cap)

@[simp] theorem length_window : (window cap store start n).length = n := by
  rw [window, List.length_map, List.length_range]

theorem window_succ : window cap store start (n + 1) =
    window cap store start n ++ [store ((start + n) % cap)] := by
  rw [window, List.range_succ, List.map_append]
  rfl

theorem window_drop : (window cap store start n).drop d = window cap store ((start + d) % cap) (n - d) := by
  apply List.ext_getElem?
  intro k
  rw [List.getElem?_drop, window, window, List.getElem?_map, List.getElem?_map]
  by_cases hk : d + k < n
  · rw [List.getElem?_range hk, List.getElem?_range (by omega), Option.map_some, Option.map_some,
      Nat.mod_add_mod, Nat.add_assoc]
  · rw [List.getElem?_eq_none (by simpa using hk), List.getElem?_eq_none (by rw [List.length_range]; omega)]
    rfl

/-- A write outside of a window does not show in it. -/
theorem window_update {i : Nat} {x : β} (h : ∀ k < n, (start + k) % cap ≠ i) :
    window cap (Function.update store i x) start n = window cap store start n := by
  apply List.map_congr_left
  intro k hk
  exact Function.update_of_ne (h k (List.mem_range.mp hk)) _ _

/-! ## What the ring holds -/

def size (cap read write : Nat) : Nat := (write + cap - read) % cap

/-- What the ring holds, oldest value first. -/
def held (cap : Nat) (store : Nat → β) (read write : Nat) : List β :=
  window cap store read (size cap read write)

@[simp] theorem length_held : (held cap store read write).length = size cap read write := length_window

section

variable (hread : read < cap)

include hread

theorem size_eq_ite (hwrite : write < cap) :
    size cap read write = if read ≤ write then write - read else write + cap - read := by
  rw [size, mod_eq_ite (by omega)]
  split <;> split <;> omega

theorem size_lt : size cap read write < cap :=
  Nat.mod_lt _ (Nat.zero_lt_of_lt hread)

theorem size_self : size cap read read = 0 := by
  rw [size_eq_ite hread hread, if_pos (Nat.le_refl _), Nat.sub_self]

theorem size_pos (hwrite : write < cap) (hne : read ≠ write) : 0 < size cap read write := by
  rw [size_eq_ite hread hwrite]
  split <;> omega

/-- The place that is written next is the one behind what is held. -/
theorem add_size_mod (hwrite : write < cap) : (read + size cap read write) % cap = write := by
  have hsize := size_eq_ite hread hwrite
  have hlt : size cap read write < cap := size_lt hread
  rw [mod_eq_ite (by omega), hsize]
  split <;> split <;> omega

/-- The size is the one number of steps, less than a round, from one place to the other. -/
theorem size_eq_of_add_mod (hn : n < cap) (h : (read + n) % cap = write) : size cap read write = n := by
  have hwrite : write < cap := h ▸ Nat.mod_lt _ (Nat.zero_lt_of_lt hread)
  rw [mod_eq_ite (by omega)] at h
  rw [size_eq_ite hread hwrite]
  split at h <;> split <;> omega

/-- Nothing that is held is at the place that is written next. -/
theorem held_ne_write {k : Nat} (hk : k < size cap read write) : (read + k) % cap ≠ write := by
  intro h
  have hsize : size cap read write = k := size_eq_of_add_mod hread (Nat.lt_trans hk (size_lt hread)) h
  omega

section

variable (hwrite : write < cap)

include hwrite

theorem window_write (x : β) :
    window cap (Function.update store write x) read (size cap read write + 1) =
      held cap store read write ++ [x] := by
  rw [window_succ, add_size_mod hread hwrite, Function.update_self,
    window_update fun _ => held_ne_write hread]
  rfl

/-- One more value in a ring with room. -/
theorem held_write_room (x : β) (hroom : (write + 1) % cap ≠ read) :
    held cap (Function.update store write x) read ((write + 1) % cap) =
      held cap store read write ++ [x] := by
  have hsize : size cap read ((write + 1) % cap) = size cap read write + 1 := by
    have hnext : (read + (size cap read write + 1)) % cap = (write + 1) % cap := by
      rw [← Nat.add_assoc, ← Nat.mod_add_mod, add_size_mod hread hwrite]
    have hlt : size cap read write < cap := size_lt hread
    -- a whole round would lead back to the place that is read next
    have hne : size cap read write + 1 ≠ cap := by
      intro hround
      rw [hround, Nat.add_mod_right, Nat.mod_eq_of_lt hread] at hnext
      exact hroom hnext.symm
    exact size_eq_of_add_mod hread (by omega) hnext
  rw [held, hsize, window_write hread hwrite]

/-- A write that moves on the place that is read next as well loses the oldest value. -/
theorem held_write_skip (x : β) :
    held cap (Function.update store write x) ((read + 1) % cap) ((write + 1) % cap) =
      (held cap store read write ++ [x]).drop 1 := by
  have hsize : size cap ((read + 1) % cap) ((write + 1) % cap) = size cap read write := by
    refine size_eq_of_add_mod (Nat.mod_lt _ (Nat.zero_lt_of_lt hread)) (size_lt hread) ?_
    rw [Nat.mod_add_mod, Nat.add_right_comm, ← Nat.mod_add_mod, add_size_mod hread hwrite]
  rw [← window_write hread hwrite, window_drop, held, hsize, Nat.add_sub_cancel]

/-- Reading on. -/
theorem held_skip (hd : d ≤ size cap read write) :
    held cap store ((read + d) % cap) write = (held cap store read write).drop d := by
  have hsize : size cap ((read + d) % cap) write = size cap read write - d := by
    refine size_eq_of_add_mod (Nat.mod_lt _ (Nat.zero_lt_of_lt hread))
      (Nat.lt_of_le_of_lt (Nat.sub_le _ _) (size_lt hread)) ?_
    rw [Nat.mod_add_mod, Nat.add_assoc, Nat.add_sub_cancel' hd, add_size_mod hread hwrite]
  rw [held, held, window_drop, hsize]

/-- The oldest value. -/
theorem held_cons (hne : read ≠ write) :
    held cap store read write = store read :: held cap store ((read + 1) % cap) write := by
  have hpos := size_pos hread hwrite hne
  rw [held_skip hread hwrite hpos]
  obtain ⟨n, hn⟩ : ∃ n, size cap read write = n + 1 := ⟨size cap read write - 1, by omega⟩
  rw [held, hn, window, List.range_succ_eq_map, List.map_cons, List.drop_one, List.tail_cons, Nat.add_zero,
    Nat.mod_eq_of_lt hread]

end

end

end Rustcast.Ring
