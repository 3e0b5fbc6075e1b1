import Mathlib.Tactic.Common

/-!
# Reading a stream item by item

A reader takes one item off the front of a stream, or nothing. `readAll` repeats it until it
takes nothing. The loop is written with as much fuel as the stream is long, which is always
enough for a reader that consumes something with each item.
-/

namespace Rustcast.Parse

universe u v w

variable {α : Type u} {β : Type v} {γ : Type w}

/-- The reader makes progress with each item. -/
def Consuming (next : List α → Option (β × List α)) : Prop :=
  ∀ xs b rest, next xs = some (b, rest) → rest.length < xs.length

def readMany (next : List α → Option (β × List α)) : Nat → List α → List β
  | 0, _ => []
  | fuel + 1, xs =>
    match next xs with
    | none => []
    | some (b, rest) => b :: readMany next fuel rest

def readAll (next : List α → Option (β × List α)) (xs : List α) : List β :=
  readMany next xs.length xs

variable {next : List α → Option (β × List α)}

theorem Consuming.next_nil (h : Consuming next) : next [] = none := by
  cases hnext : next [] with
  | none => rfl
  | some result =>
    have := h [] result.1 result.2 hnext
    simp at this

theorem readMany_fuel (h : Consuming next) {fuel fuel' : Nat} {xs : List α}
    (hfuel : xs.length ≤ fuel) (hfuel' : xs.length ≤ fuel') :
    readMany next fuel xs = readMany next fuel' xs := by
  induction fuel generalizing fuel' xs with
  | zero =>
    obtain rfl : xs = [] := List.length_eq_zero_iff.mp (Nat.le_zero.mp hfuel)
    cases fuel' with
    | zero => rfl
    | succ fuel' => simp [readMany, h.next_nil]
  | succ fuel ih =>
    cases fuel' with
    | zero =>
      obtain rfl : xs = [] := List.length_eq_zero_iff.mp (Nat.le_zero.mp hfuel')
      simp [readMany, h.next_nil]
    | succ fuel' =>
      simp only [readMany]
      cases hnext : next xs with
      | none => rfl
      | some result =>
        obtain ⟨b, rest⟩ := result
        have hlt := h xs b rest hnext
        have htail : readMany next fuel rest = readMany next fuel' rest := ih (by omega) (by omega)
        simp only [htail]

theorem readAll_of_none {xs : List α} (hnext : next xs = none) : readAll next xs = [] := by
  unfold readAll
  cases xs.length with
  | zero => rfl
  | succ n => simp [readMany, hnext]

/-- A round of the loop, without its fuel. -/
theorem readAll_of_some (h : Consuming next) {xs rest : List α} {b : β}
    (hnext : next xs = some (b, rest)) : readAll next xs = b :: readAll next rest := by
  have hlt := h xs b rest hnext
  obtain ⟨n, hn⟩ : ∃ n, xs.length = n + 1 := Nat.exists_eq_succ_of_ne_zero (by omega)
  have htail : readMany next n rest = readMany next rest.length rest :=
    readMany_fuel h (by omega) (Nat.le_refl _)
  unfold readAll
  rw [hn]
  simp only [readMany, hnext, htail]

/-- What is read off the front of a concatenation of encoded items. -/
theorem readAll_flatMap (h : Consuming next) {enc : γ → List α} {item : γ → β} {gs : List γ}
    (hread : ∀ g ∈ gs, ∀ rest, next (enc g ++ rest) = some (item g, rest)) (rest : List α) :
    readAll next (gs.flatMap enc ++ rest) = gs.map item ++ readAll next rest := by
  induction gs with
  | nil => rfl
  | cons g gs ih =>
    have hfirst := hread g List.mem_cons_self (gs.flatMap enc ++ rest)
    have hrest := ih fun g' hg' => hread g' (List.mem_cons_of_mem _ hg')
    rw [List.flatMap_cons, List.append_assoc, readAll_of_some h hfirst, hrest]
    rfl

end Rustcast.Parse
