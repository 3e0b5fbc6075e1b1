import Mathlib.Data.List.Flatten

/-!
# Streams cut into blocks

A stream that is cut into blocks of one length, as far as it goes.
-/

namespace Rustcast.Blocks

universe u

variable {α : Type u} {n : Nat} {stream rest rest' more block : List α} {blocks blocks' : List (List α)}

/-- The blocks, each of length `n`, and then the rest make up the stream. -/
structure Cut (n : Nat) (stream : List α) (blocks : List (List α)) (rest : List α) : Prop where
  flatten_append : blocks.flatten ++ rest = stream
  length_eq : ∀ block ∈ blocks, block.length = n

namespace Cut

theorem refl (n : Nat) (stream : List α) : Cut n stream [] stream :=
  ⟨rfl, fun _ hblock => absurd hblock List.not_mem_nil⟩

/-- One block. -/
theorem one (hlength : block.length = n) (rest : List α) : Cut n (block ++ rest) [block] rest := by
  constructor
  · simp
  · intro b hb
    rw [List.mem_singleton.mp hb, hlength]

section

variable (h : Cut n stream blocks rest)

include h

/-- More blocks. -/
theorem trans (h' : Cut n rest blocks' rest') : Cut n stream (blocks ++ blocks') rest' := by
  constructor
  · rw [List.flatten_append, List.append_assoc, h'.flatten_append, h.flatten_append]
  · intro b hb
    rcases List.mem_append.mp hb with hb | hb
    · exact h.length_eq b hb
    · exact h'.length_eq b hb

/-- What comes later in the stream does not touch the blocks. -/
theorem append (more : List α) : Cut n (stream ++ more) blocks (rest ++ more) :=
  ⟨by rw [← List.append_assoc, h.flatten_append], h.length_eq⟩

theorem length_map : blocks.map List.length = List.replicate blocks.length n := by
  rw [List.eq_replicate_iff]
  refine ⟨List.length_map _, ?_⟩
  intro l hl
  obtain ⟨block, hblock, rfl⟩ := List.mem_map.mp hl
  exact h.length_eq block hblock

theorem length_flatten : blocks.flatten.length = blocks.length * n := by
  rw [List.length_flatten, h.length_map, List.sum_replicate_nat]

theorem length_stream : stream.length = blocks.length * n + rest.length := by
  rw [← h.flatten_append, List.length_append, h.length_flatten]

/-- There are as many blocks as fit into the stream. -/
theorem length_blocks (hrest : rest.length < n) : blocks.length = stream.length / n := by
  have hn : 0 < n := Nat.zero_lt_of_lt hrest
  rw [h.length_stream, Nat.add_comm, Nat.add_mul_div_right _ _ hn, Nat.div_eq_of_lt hrest, Nat.zero_add]

/-- A rest that is too short for a block leaves one way to cut the stream. -/
theorem unique (h' : Cut n stream blocks' rest') (hrest : rest.length < n) (hrest' : rest'.length < n) :
    blocks = blocks' ∧ rest = rest' := by
  have hcount : blocks.length = blocks'.length := by
    rw [h.length_blocks hrest, h'.length_blocks hrest']
  have hsame : blocks.flatten ++ rest = blocks'.flatten ++ rest' := by
    rw [h.flatten_append, h'.flatten_append]
  have hlength : blocks.flatten.length = blocks'.flatten.length := by
    rw [h.length_flatten, h'.length_flatten, hcount]
  obtain ⟨hflatten, hrests⟩ := List.append_inj hsame hlength
  refine ⟨?_, hrests⟩
  rw [List.eq_iff_flatten_eq]
  exact ⟨hflatten, by rw [h.length_map, h'.length_map, hcount]⟩

end

end Cut

end Rustcast.Blocks
