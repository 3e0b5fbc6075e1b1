import Mathlib.Tactic.Common

/-!
# A receiver of a bounded broadcast channel

The semantics of a receiver of `tokio::sync::broadcast`: the channel keeps the last
`capacity` values, and a receiver that falls behind is told how many it missed and goes on
with the oldest value that is still there.

`sent` are the values broadcast since the subscription, of which the receiver has been
given, or has missed, the first `next`.
-/

namespace Rustcast.Broadcast

universe u

structure Receiver (α : Type u) where
  capacity : Nat
  sent : List α := []
  next : Nat := 0
  closed : Bool := false

inductive Received (α : Type u) where
  | ok (value : α)
  | lagged (missed : Nat)
  | empty
  | closed

variable {α : Type u}

namespace Receiver

def send (r : Receiver α) (value : α) : Receiver α := { r with sent := r.sent ++ [value] }

/-- Values that were not received yet are gone. -/
def behind (r : Receiver α) : Bool := decide (r.next + r.capacity < r.sent.length)

/-- What `recv` and `try_recv` find; `recv` waits where the result is `empty`. -/
def recv (r : Receiver α) : Received α × Receiver α :=
  if r.behind then
    (.lagged (r.sent.length - r.capacity - r.next), { r with next := r.sent.length - r.capacity })
  else
    match r.sent[r.next]? with
    | some value => (.ok value, { r with next := r.next + 1 })
    | none => (if r.closed then .closed else .empty, r)

variable {r r' : Receiver α}

theorem recv_ok {value : α} (h : r.recv = (.ok value, r')) :
    r.behind = false ∧ r' = { r with next := r.next + 1 } := by
  unfold recv at h
  split at h
  · cases h
  next hbehind =>
    split at h
    · cases h
      exact ⟨Bool.eq_false_iff.mpr hbehind, rfl⟩
    · cases hc : r.closed <;> simp [hc] at h

/-- A lag is reported by the exact number of values that were skipped. -/
theorem recv_lagged {missed : Nat} (h : r.recv = (.lagged missed, r')) :
    r.behind = true ∧ r' = { r with next := r.next + missed } := by
  unfold recv at h
  split at h
  next hbehind =>
    cases h
    refine ⟨hbehind, ?_⟩
    have hlt : r.next + r.capacity < r.sent.length := of_decide_eq_true hbehind
    have hnext : r.next + (r.sent.length - r.capacity - r.next) = r.sent.length - r.capacity := by
      omega
    rw [hnext]
  · split at h
    · cases h
    · cases hc : r.closed <;> simp [hc] at h

end Receiver

end Rustcast.Broadcast
