import Mathlib.Tactic.Common

/-!
# Two neighbouring values of a function

A walk over growing keys that needs the values of a function at a key and at the next one. The value
at the next key is kept, and is used again if the walk arrives there.
-/

namespace Rustcast

/-- Two values with the keys they belong to; no key is a value that is not to be used. -/
structure PairCache (β : Type*) where
  top : β
  bot : β
  topKey : Option Nat := none
  botKey : Option Nat := none

namespace PairCache

variable {β ε : Type*} {f : Nat → Except ε β} {c c' : PairCache β} {k : Nat} {a b : β}

def fetchTop (f : Nat → Except ε β) (c : PairCache β) (k : Nat) : Except ε (PairCache β) :=
  if c.topKey = some k then pure c
  else if c.botKey = some k then
    pure { top := c.bot, bot := c.top, topKey := some k, botKey := none }
  else do
    let top ← f k
    pure { c with top, topKey := some k }

def fetchBot (f : Nat → Except ε β) (c : PairCache β) (k : Nat) : Except ε (PairCache β) :=
  if c.botKey = some k then pure c
  else do
    let bot ← f k
    pure { c with bot, botKey := some k }

/-- The values at `k` and at `k + 1`. -/
def fetch (f : Nat → Except ε β) (c : PairCache β) (k : Nat) : Except ε (PairCache β) := do
  let c ← c.fetchTop f k
  c.fetchBot f (k + 1)

/-- What is kept under a key is the value there. -/
structure Holds (f : Nat → Except ε β) (c : PairCache β) : Prop where
  top : ∀ k, c.topKey = some k → f k = .ok c.top
  bot : ∀ k, c.botKey = some k → f k = .ok c.bot

theorem holds_of_no_keys (top bot : β) : Holds f { top, bot } where
  top _ h := by cases h
  bot _ h := by cases h

theorem fetchTop_ok (h : Holds f c) (ha : f k = .ok a) :
    ∃ c', c.fetchTop f k = .ok c' ∧ Holds f c' ∧ c'.topKey = some k ∧ c'.top = a := by
  unfold fetchTop
  split
  next htop =>
    have hvalue := h.top k htop
    rw [ha] at hvalue
    exact ⟨c, rfl, h, htop, (Except.ok.inj hvalue).symm⟩
  next htop =>
    split
    next hbot =>
      have hvalue := h.bot k hbot
      rw [ha] at hvalue
      refine ⟨_, rfl, ⟨?_, ?_⟩, rfl, (Except.ok.inj hvalue).symm⟩
      · intro k' hk'
        cases hk'
        exact h.bot k hbot
      · intro k' hk'
        cases hk'
    next hbot =>
      rw [ha]
      refine ⟨_, rfl, ⟨?_, h.bot⟩, rfl, rfl⟩
      intro k' hk'
      cases hk'
      exact ha

theorem fetchBot_ok (h : Holds f c) (hb : f k = .ok b) :
    ∃ c', c.fetchBot f k = .ok c' ∧ Holds f c' ∧ c'.top = c.top ∧ c'.bot = b := by
  unfold fetchBot
  split
  next hbot =>
    have hvalue := h.bot k hbot
    rw [hb] at hvalue
    exact ⟨c, rfl, h, rfl, (Except.ok.inj hvalue).symm⟩
  next hbot =>
    rw [hb]
    refine ⟨_, rfl, ⟨h.top, ?_⟩, rfl, rfl⟩
    intro k' hk'
    cases hk'
    exact hb

/-- A fetch does not depend on what was kept. -/
theorem fetch_ok (h : Holds f c) (ha : f k = .ok a) (hb : f (k + 1) = .ok b) :
    ∃ c', c.fetch f k = .ok c' ∧ Holds f c' ∧ c'.top = a ∧ c'.bot = b := by
  obtain ⟨c₁, htop, h₁, -, ha₁⟩ := fetchTop_ok h ha
  obtain ⟨c₂, hbot, h₂, htop₂, hb₂⟩ := fetchBot_ok h₁ hb
  refine ⟨c₂, ?_, h₂, htop₂.trans ha₁, hb₂⟩
  rw [fetch, htop]
  exact hbot

end PairCache

end Rustcast
