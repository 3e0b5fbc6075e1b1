import Rustcast.Core.Bytes
import Rustcast.Core.Parse

/-!
# Streams that arrive in chunks

A reader of a connection sees its bytes in chunks of any size. `readExact` fills a buffer from as
many chunks as it takes. Code that is written with it reads what it would read from the bytes in
one piece: it `Simulates` the same code over the bytes, and simulation composes like the code does
(`Simulates.bind`, `Simulates.ite`), up to the loop around it (`readLoop_eq_readMany`).
-/

namespace Rustcast.Chunks

open Parse

universe u v w

variable {α : Type u} {β γ : Type v} {σ : Type w}

/-! ## Simulation -/

/-- Through `view`, the reader does what `next₀` does. -/
def Simulates (view : σ → List α) (next : σ → Option (β × σ)) (next₀ : List α → Option (β × List α)) :
    Prop :=
  ∀ s, (next s).map (fun result => (result.1, view result.2)) = next₀ (view s)

variable {view : σ → List α} {next : σ → Option (β × σ)} {next₀ : List α → Option (β × List α)}

theorem Simulates.pure (view : σ → List α) (b : β) :
    Simulates view (fun s => some (b, s)) (fun xs => some (b, xs)) :=
  fun _ => rfl

theorem Simulates.fail (view : σ → List α) :
    Simulates view (fun _ => (none : Option (β × σ))) (fun _ => none) :=
  fun _ => rfl

/-- Reads one after the other. -/
theorem Simulates.bind (h : Simulates view next next₀) {cont : β → σ → Option (γ × σ)}
    {cont₀ : β → List α → Option (γ × List α)} (hcont : ∀ b, Simulates view (cont b) (cont₀ b)) :
    Simulates view (fun s => (next s).bind fun result => cont result.1 result.2)
      (fun xs => (next₀ xs).bind fun result => cont₀ result.1 result.2) := by
  intro s
  have hs := h s
  show ((next s).bind _).map _ = (next₀ (view s)).bind _
  rw [← hs]
  cases hnext : next s with
  | none => rfl
  | some result => exact hcont result.1 result.2

theorem Simulates.ite {p : Prop} [Decidable p] {other : σ → Option (β × σ)}
    {other₀ : List α → Option (β × List α)} (h : Simulates view next next₀)
    (hother : Simulates view other other₀) :
    Simulates view (fun s => if p then next s else other s)
      (fun xs => if p then next₀ xs else other₀ xs) := by
  intro s
  by_cases hp : p
  · simpa only [if_pos hp] using h s
  · simpa only [if_neg hp] using hother s

/-- At most `fuel` rounds of a reader. -/
def readLoop (next : σ → Option (β × σ)) : Nat → σ → List β
  | 0, _ => []
  | fuel + 1, s =>
    match next s with
    | none => []
    | some (b, s') => b :: readLoop next fuel s'

/-- The loop around a read. -/
theorem readLoop_eq_readMany (h : Simulates view next next₀) (fuel : Nat) (s : σ) :
    readLoop next fuel s = readMany next₀ fuel (view s) := by
  induction fuel generalizing s with
  | zero => rfl
  | succ fuel ih =>
    rw [readLoop, readMany, ← h s]
    cases next s with
    | none => rfl
    | some result =>
      obtain ⟨b, s'⟩ := result
      simp only [Option.map_some, ih s']

/-! ## Chunks of bytes -/

/-- `read_exact`: the bytes that fill the buffer, and the chunks that are left. -/
def readExact : Nat → List (List UInt8) → Option (List UInt8 × List (List UInt8))
  | 0, chunks => some ([], chunks)
  | _ + 1, [] => none
  | n + 1, chunk :: chunks =>
    if n + 1 < chunk.length then some (chunk.take (n + 1), chunk.drop (n + 1) :: chunks)
    else do
      let (bytes, left) ← readExact (n + 1 - chunk.length) chunks
      some (chunk ++ bytes, left)

/-- A buffer is filled from as many chunks as it takes. -/
theorem simulates_readExact (n : Nat) : Simulates List.flatten (readExact n) (Bytes.readExact n) := by
  intro chunks
  induction chunks generalizing n with
  | nil =>
    cases n with
    | zero => rfl
    | succ n => simp [readExact, Bytes.readExact]
  | cons chunk chunks ih =>
    cases n with
    | zero => simp [readExact, Bytes.readExact]
    | succ n =>
      rw [readExact, Bytes.readExact, List.flatten_cons, List.length_append]
      by_cases hlong : n + 1 < chunk.length
      · have hle : n + 1 ≤ chunk.length := by omega
        rw [if_pos hlong, if_pos (by omega), List.take_append_of_le_length hle,
          List.drop_append_of_le_length hle]
        rfl
      · -- the whole chunk goes into the buffer
        have hle : chunk.length ≤ n + 1 := by omega
        have hrest := ih (n + 1 - chunk.length)
        rw [Bytes.readExact] at hrest
        rw [if_neg hlong, List.take_append, List.take_of_length_le hle, List.drop_append,
          List.drop_of_length_le hle]
        by_cases henough : n + 1 - chunk.length ≤ chunks.flatten.length
        · rw [if_pos henough] at hrest
          rw [if_pos (by omega)]
          obtain ⟨⟨bytes, left⟩, hread, heq⟩ := Option.map_eq_some_iff.1 hrest
          obtain ⟨hbytes, hleft⟩ := Prod.mk.inj heq
          rw [hread, ← hbytes, ← hleft]
          rfl
        · rw [if_neg henough, Option.map_eq_none_iff] at hrest
          rw [if_neg (by omega), hrest]
          rfl

end Rustcast.Chunks
