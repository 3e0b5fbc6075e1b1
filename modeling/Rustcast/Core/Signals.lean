import Rustcast.Core.OrderedMap

/-!
# Waiting for a change under a key

Parties that wait for a change under a key take the channel of the key and wait until it is closed. A
party that makes a change closes the channel and puts a fresh one in its place.
-/

namespace Rustcast

universe u

structure Signals (κ : Type u) where
  notify : OrderedMap κ Nat := .empty
  closed : List Nat := []
  /-- the channels that were made -/
  next : Nat := 0
  /-- a channel was closed that was closed already -/
  panicked : Bool := false

namespace Signals

variable {κ : Type u} [DecidableEq κ] (s : Signals κ)

/-- The channel of a key, made if there is none. -/
def channel (k : κ) : Nat × Signals κ :=
  match s.notify.get? k with
  | some ch => (ch, s)
  | none => (s.next, { s with notify := s.notify.set k s.next, next := s.next + 1 })

def close (ch : Nat) : Signals κ :=
  { s with closed := ch :: s.closed, panicked := s.panicked || decide (ch ∈ s.closed) }

/-- A fresh channel for a key. -/
def refresh (k : κ) : Signals κ :=
  { s with notify := s.notify.set k s.next, next := s.next + 1 }

def signal (k : κ) : Signals κ :=
  ((s.channel k).2.close (s.channel k).1).refresh k

/-! ## Sound tables -/

/-- The channel of a key is open and belongs to no other key, so that no channel is closed twice. -/
structure Sound (s : Signals κ) : Prop where
  made : ∀ k ch, s.notify.get? k = some ch → ch < s.next
  isOpen : ∀ k ch, s.notify.get? k = some ch → ch ∉ s.closed
  own : ∀ k k' ch, s.notify.get? k = some ch → s.notify.get? k' = some ch → k = k'
  closedMade : ∀ ch ∈ s.closed, ch < s.next
  noPanic : s.panicked = false

/-- The channel was taken for the key: it is closed, or is the channel of the key still. -/
def Awaits (k : κ) (ch : Nat) : Prop := ch ∈ s.closed ∨ s.notify.get? k = some ch

variable {s : Signals κ} {k k' : κ} {ch : Nat}

theorem sound_empty : Sound ({} : Signals κ) where
  made _ _ h := by cases h
  isOpen _ _ h := by cases h
  own _ _ _ h := by cases h
  closedMade _ h := by cases h
  noPanic := rfl

theorem get?_refresh (s : Signals κ) (k k' : κ) :
    (s.refresh k).notify.get? k' = if k' = k then some s.next else s.notify.get? k' :=
  OrderedMap.get?_set _ _ _ _

/-- A fresh channel is no other key's. -/
theorem sound_refresh (hmade : ∀ k' ch, k' ≠ k → s.notify.get? k' = some ch → ch < s.next)
    (hopen : ∀ k' ch, k' ≠ k → s.notify.get? k' = some ch → ch ∉ s.closed)
    (hown : ∀ k₁ k₂ ch, s.notify.get? k₁ = some ch → s.notify.get? k₂ = some ch → k₁ = k₂)
    (hclosed : ∀ ch ∈ s.closed, ch < s.next) (hpanic : s.panicked = false) : Sound (s.refresh k) where
  made k' ch h := by
    rw [get?_refresh] at h
    by_cases hk : k' = k
    · rw [if_pos hk] at h
      cases h
      exact Nat.lt_succ_self _
    · rw [if_neg hk] at h
      exact Nat.lt_succ_of_lt (hmade k' ch hk h)
  isOpen k' ch h := by
    rw [get?_refresh] at h
    by_cases hk : k' = k
    · rw [if_pos hk] at h
      cases h
      intro hmem
      exact absurd (hclosed _ hmem) (Nat.lt_irrefl _)
    · rw [if_neg hk] at h
      exact hopen k' ch hk h
  own k₁ k₂ ch h₁ h₂ := by
    rw [get?_refresh] at h₁ h₂
    by_cases hk₁ : k₁ = k
    · by_cases hk₂ : k₂ = k
      · rw [hk₁, hk₂]
      · rw [if_pos hk₁] at h₁
        rw [if_neg hk₂] at h₂
        cases h₁
        exact absurd (hmade k₂ _ hk₂ h₂) (Nat.lt_irrefl _)
    · rw [if_neg hk₁] at h₁
      by_cases hk₂ : k₂ = k
      · rw [if_pos hk₂] at h₂
        cases h₂
        exact absurd (hmade k₁ _ hk₁ h₁) (Nat.lt_irrefl _)
      · rw [if_neg hk₂] at h₂
        exact hown k₁ k₂ ch h₁ h₂
  closedMade ch h := Nat.lt_succ_of_lt (hclosed ch h)
  noPanic := hpanic

/-! ## The channel of a key -/

theorem channel_of_some (h : s.notify.get? k = some ch) : s.channel k = (ch, s) := by
  rw [channel, h]

theorem channel_of_none (h : s.notify.get? k = none) : s.channel k = (s.next, s.refresh k) := by
  rw [channel, h]
  rfl

theorem get?_channel (s : Signals κ) (k : κ) : (s.channel k).2.notify.get? k = some (s.channel k).1 := by
  cases h : s.notify.get? k with
  | some ch =>
    rw [channel_of_some h]
    exact h
  | none =>
    rw [channel_of_none h]
    rw [get?_refresh, if_pos rfl]

theorem get?_channel_ne (hne : k' ≠ k) : (s.channel k).2.notify.get? k' = s.notify.get? k' := by
  cases h : s.notify.get? k with
  | some ch => rw [channel_of_some h]
  | none =>
    rw [channel_of_none h]
    rw [get?_refresh, if_neg hne]

theorem closed_channel (s : Signals κ) (k : κ) : (s.channel k).2.closed = s.closed := by
  cases h : s.notify.get? k with
  | some ch => rw [channel_of_some h]
  | none =>
    rw [channel_of_none h]
    rfl

/-- A new channel belongs to its key alone. -/
theorem Sound.channel (h : Sound s) (k : κ) : Sound (s.channel k).2 := by
  cases hget : s.notify.get? k with
  | some ch =>
    rw [channel_of_some hget]
    exact h
  | none =>
    rw [channel_of_none hget]
    exact sound_refresh (fun k' ch _ => h.made k' ch) (fun k' ch _ => h.isOpen k' ch) h.own h.closedMade
      h.noPanic

theorem Awaits.channel (h : s.Awaits k' ch) (k : κ) : (s.channel k).2.Awaits k' ch := by
  rcases h with hclosed | hget
  · refine .inl ?_
    rw [closed_channel]
    exact hclosed
  · refine .inr ?_
    by_cases hk : k' = k
    · subst hk
      rw [channel_of_some hget]
      exact hget
    · rw [get?_channel_ne hk]
      exact hget

/-! ## A signal -/

theorem closed_signal (s : Signals κ) (k : κ) : (s.signal k).closed = (s.channel k).1 :: s.closed := by
  show (s.channel k).1 :: (s.channel k).2.closed = _
  rw [closed_channel]

theorem get?_signal_ne (hne : k' ≠ k) : (s.signal k).notify.get? k' = s.notify.get? k' := by
  rw [signal, get?_refresh, if_neg hne]
  exact get?_channel_ne hne

/-- The channel that is closed is replaced by a new one. -/
theorem Sound.signal (h : Sound s) (k : κ) : Sound (s.signal k) := by
  have hsound := h.channel k
  have hget := get?_channel s k
  refine sound_refresh (fun k' ch _ => hsound.made k' ch) (fun k' ch hk hget' => ?_) hsound.own ?_ ?_
  · -- no other key has the channel that is closed
    show ch ∉ (s.channel k).1 :: (s.channel k).2.closed
    rw [List.mem_cons]
    rintro (rfl | hmem)
    · exact hk (hsound.own _ _ _ hget' hget)
    · exact hsound.isOpen k' ch hget' hmem
  · intro ch hmem
    rcases List.mem_cons.mp hmem with rfl | hmem
    · exact hsound.made k _ hget
    · exact hsound.closedMade ch hmem
  · show ((s.channel k).2.panicked || decide ((s.channel k).1 ∈ (s.channel k).2.closed)) = false
    rw [hsound.noPanic, decide_eq_false (hsound.isOpen k _ hget)]
    rfl

/-- Whoever waits for a change under the key is woken. -/
theorem closed_of_awaits (h : s.Awaits k ch) : ch ∈ (s.signal k).closed := by
  rw [closed_signal]
  rcases h with hclosed | hget
  · exact List.mem_cons_of_mem _ hclosed
  · rw [channel_of_some hget]
    exact List.mem_cons_self

/-- A channel of another key is waited for still. -/
theorem Awaits.signal (h : s.Awaits k' ch) (k : κ) : (s.signal k).Awaits k' ch := by
  by_cases hk : k' = k
  · subst hk
    exact .inl (closed_of_awaits h)
  · refine h.imp (fun hclosed => ?_) fun hget => ?_
    · rw [closed_signal]
      exact List.mem_cons_of_mem _ hclosed
    · rw [get?_signal_ne hk]
      exact hget

theorem mem_closed_signal (h : ch ∈ s.closed) (k : κ) : ch ∈ (s.signal k).closed := by
  rw [closed_signal]
  exact List.mem_cons_of_mem _ h

end Signals

end Rustcast
