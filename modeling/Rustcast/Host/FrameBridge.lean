import Mathlib.Algebra.Order.Group.Multiset
import Rustcast.Core.Custody
import Rustcast.Core.Parties
import Rustcast.Host.PipewireSession

/-!
# The frame bridge and its buffers

`bridge.rs` again, this time with the buffers themselves. Producers take buffers from the pool, fill them
and push them as frames; consumers receive frames and hand their buffers back. Every call holds the lock
from its first look at the slot to its last, apart from the wait in the middle of `recv`, so an event is
such a section of a call by any of the parties.
-/

namespace Rustcast.Host.FrameBridge

open Pipewire (Slot BridgeFrame maxFreeBuffers)

/-! ## The slot -/

/-- A `Vec<u8>`, which keeps its number as it moves from hand to hand. -/
structure Buffer where
  number : Nat
  capacity : Nat
  len : Nat
  deriving DecidableEq

/-- `buf.clear()` keeps the allocation. -/
def Buffer.clear (buf : Buffer) : Buffer := { buf with len := 0 }

structure Frame where
  sequence : Nat
  resolution : Resolution
  data : Buffer
  deriving DecidableEq

/-- The slot with the buffers of its frame and its pool. -/
structure BufferedSlot where
  frame : Option Frame := none
  closed : Bool := false
  dropped : Nat := 0
  pushed : Nat := 0
  free : List Buffer := []
  deriving DecidableEq

namespace BufferedSlot

def recycle (slot : BufferedSlot) (buf : Buffer) : BufferedSlot :=
  if 0 < buf.capacity ∧ slot.free.length < maxFreeBuffers then
    { slot with free := slot.free ++ [buf] }
  else
    slot

/-- `FrameSink::push`, which returns the new `dropped`. -/
def push (slot : BufferedSlot) (frame : Frame) : BufferedSlot :=
  let replaced := { slot with frame := some frame, pushed := slot.pushed + 1 }
  match slot.frame with
  | some stale => { replaced with dropped := slot.dropped + 1 }.recycle stale.data
  | none => replaced

/-- `slot.frame.take()` -/
def take (slot : BufferedSlot) : Option Frame × BufferedSlot := (slot.frame, { slot with frame := none })

/-- The checks at the head of the loop of `recv`; `none` goes on to wait. -/
def check (slot : BufferedSlot) : Option (Option Frame × BufferedSlot) :=
  if slot.frame.isSome then some slot.take
  else if slot.closed then some (none, slot)
  else none

end BufferedSlot

/-! ## The parties -/

/-- The slot, what producers and consumers hold, and what was pushed and delivered so far. -/
structure Bridge where
  slot : BufferedSlot := {}
  /-- buffers in the hands of producers -/
  producers : List Buffer := []
  /-- frames delivered whose buffers have not been handed back -/
  consumers : List Frame := []
  /-- calls of `recv` that wait -/
  waiting : Nat := 0
  /-- buffers made so far -/
  made : Nat := 0
  /-- frames pushed and frames delivered, in order -/
  pushed : List Frame := []
  delivered : List Frame := []
  deriving DecidableEq

inductive BridgeEvent where
  | takeBuffer
  /-- a producer writes into a buffer of its own, which may grow -/
  | fill (i capacity len : Nat)
  | push (i sequence : Nat) (resolution : Resolution)
  | dropBuffer (i : Nat)
  | close
  | tryRecv
  | recv
  /-- the condition variable lets a call of `recv` go on: notified, spuriously, or after the timeout -/
  | wake (timedOut : Bool)
  | recycle (j : Nat)
  /-- a consumer hands in a buffer that was no frame's -/
  | recycleOther (capacity len : Nat)
  | dropFrame (j : Nat)
  deriving DecidableEq

namespace Bridge

variable (s : Bridge)

/-- The buffer that `take_buffer` returns. -/
def handedOut : Buffer := (s.slot.free.getLast?.getD ⟨s.made, 0, 0⟩).clear

def takeBuffer : Bridge :=
  { s with
    slot := { s.slot with free := s.slot.free.dropLast }
    producers := s.producers ++ [s.handedOut]
    made := if s.slot.free.isEmpty then s.made + 1 else s.made }

/-- What a receiving call returns. -/
def answer : Option Frame × BufferedSlot → Bridge
  | (some frame, slot) =>
    { s with slot := slot, consumers := s.consumers ++ [frame], delivered := s.delivered ++ [frame] }
  | (none, slot) => { s with slot := slot }

def recv : Bridge :=
  match s.slot.check with
  | some taken => s.answer taken
  | none => { s with waiting := s.waiting + 1 }

def step : BridgeEvent → Option Bridge
  | .takeBuffer => some s.takeBuffer
  | .fill i capacity len =>
    match s.producers[i]? with
    | some buf =>
      if len ≤ capacity then
        some { s with producers := s.producers.set i { buf with capacity := capacity, len := len } }
      else none
    | none => none
  | .push i sequence resolution =>
    match s.producers[i]? with
    | some buf =>
      let frame := { sequence, resolution, data := buf }
      some { s with
        slot := s.slot.push frame
        producers := s.producers.eraseIdx i
        pushed := s.pushed ++ [frame] }
    | none => none
  | .dropBuffer i =>
    if i < s.producers.length then some { s with producers := s.producers.eraseIdx i } else none
  | .close => some { s with slot := { s.slot with closed := true } }
  | .tryRecv => some (s.answer s.slot.take)
  | .recv => some s.recv
  | .wake timedOut =>
    if 0 < s.waiting then
      let woken := { s with waiting := s.waiting - 1 }
      some (if timedOut then woken.answer s.slot.take else woken.recv)
    else none
  | .recycle j =>
    match s.consumers[j]? with
    | some frame =>
      some { s with slot := s.slot.recycle frame.data, consumers := s.consumers.eraseIdx j }
    | none => none
  | .recycleOther capacity len =>
    if len ≤ capacity then
      some { s with slot := s.slot.recycle ⟨s.made, capacity, len⟩, made := s.made + 1 }
    else none
  | .dropFrame j =>
    if j < s.consumers.length then some { s with consumers := s.consumers.eraseIdx j } else none

/-- What a receiving call is told when it returns in this event. -/
def told : BridgeEvent → Option (Option Frame)
  | .tryRecv => some s.slot.take.1
  | .recv => s.slot.check.map Prod.fst
  | .wake timedOut =>
    if 0 < s.waiting then
      if timedOut then some s.slot.take.1 else s.slot.check.map Prod.fst
    else none
  | _ => none

end Bridge

/-! ## The slot's operations -/

namespace BufferedSlot

variable {slot : BufferedSlot} {taken : Option Frame × BufferedSlot}

def pool (slot : BufferedSlot) : Multiset ℕ := (slot.free.map Buffer.number : Multiset ℕ)

@[simp] theorem frame_recycle (buf : Buffer) : (slot.recycle buf).frame = slot.frame := by
  unfold recycle
  split <;> rfl

@[simp] theorem pushed_recycle (buf : Buffer) : (slot.recycle buf).pushed = slot.pushed := by
  unfold recycle
  split <;> rfl

@[simp] theorem dropped_recycle (buf : Buffer) : (slot.recycle buf).dropped = slot.dropped := by
  unfold recycle
  split <;> rfl

theorem length_free_recycle (h : slot.free.length ≤ maxFreeBuffers) (buf : Buffer) :
    (slot.recycle buf).free.length ≤ maxFreeBuffers := by
  unfold recycle
  split
  next hroom =>
    rw [List.length_append]
    exact hroom.2
  · exact h

/-- A buffer goes into the pool, or is freed. -/
theorem pool_recycle_le (buf : Buffer) : (slot.recycle buf).pool ≤ buf.number ::ₘ slot.pool := by
  unfold recycle
  split
  · rw [pool, List.map_append, ← Multiset.coe_add, Multiset.add_comm]
    exact le_rfl
  · exact Multiset.le_cons_self _ _

theorem frame_push (frame : Frame) : (slot.push frame).frame = some frame := by
  unfold push
  cases slot.frame <;> simp

theorem pushed_push (frame : Frame) : (slot.push frame).pushed = slot.pushed + 1 := by
  unfold push
  cases slot.frame <;> simp

theorem dropped_push (frame : Frame) :
    (slot.push frame).dropped = slot.dropped + slot.frame.toList.length := by
  unfold push
  cases slot.frame <;> simp

theorem length_free_push (h : slot.free.length ≤ maxFreeBuffers) (frame : Frame) :
    (slot.push frame).free.length ≤ maxFreeBuffers := by
  unfold push
  cases slot.frame with
  | none => exact h
  | some stale =>
    exact @length_free_recycle
      { slot with frame := some frame, dropped := slot.dropped + 1, pushed := slot.pushed + 1 } h stale.data

def shown (slot : BufferedSlot) : Multiset ℕ :=
  (slot.frame.toList.map fun frame => frame.data.number : Multiset ℕ)

/-- Only the stale frame's buffer can go into the pool. -/
theorem pool_push_le (frame : Frame) : (slot.push frame).pool ≤ slot.shown + slot.pool := by
  unfold push
  cases hframe : slot.frame with
  | none => exact Multiset.le_add_left _ _
  | some stale =>
    rw [shown, hframe]
    exact pool_recycle_le stale.data

theorem take_of_empty (h : slot.frame = none) : slot.take = (none, slot) := by
  obtain ⟨frame, closed, dropped, pushed, free⟩ := slot
  obtain rfl : frame = none := h
  rfl

/-- The loop of `recv` ends with what is in the slot, closed or not. -/
theorem check_eq_some (h : slot.check = some taken) : taken = slot.take := by
  unfold check at h
  split at h
  · exact (Option.some.inj h).symm
  next hempty =>
    rw [Option.not_isSome_iff_eq_none] at hempty
    rw [take_of_empty hempty]
    split at h
    · exact (Option.some.inj h).symm
    · cases h

end BufferedSlot

namespace Bridge

variable {s s' : Bridge} {e : BridgeEvent}

theorem frame_of_told_none (h : s.told e = some none) : s.slot.frame = none := by
  have hcheck : s.slot.check.map Prod.fst = some none → s.slot.frame = none := by
    intro hcheck
    obtain ⟨taken, htaken, hnone⟩ := Option.map_eq_some_iff.mp hcheck
    rw [BufferedSlot.check_eq_some htaken] at hnone
    exact hnone
  cases e with
  | tryRecv => exact Option.some.inj h
  | recv => exact hcheck h
  | wake timedOut =>
    obtain ⟨-, h⟩ := Option.ite_none_right_eq_some.mp h
    split at h
    · exact Option.some.inj h
    · exact hcheck h
  | takeBuffer | fill | push | dropBuffer | close | recycle | recycleOther | dropFrame => cases h

/-! ## Accounts -/

def owned (s : Bridge) : Multiset ℕ := (s.producers.map Buffer.number : Multiset ℕ)

def lent (s : Bridge) : Multiset ℕ := (s.consumers.map fun frame => frame.data.number : Multiset ℕ)

/-- The buffers in all hands, those of the slot and the pool included. -/
def hands (s : Bridge) : Multiset ℕ := s.owned + (s.slot.pool + (s.slot.shown + s.lent))

/-- Every frame pushed is delivered, dropped or in the slot, and no two hands have one buffer. -/
structure Accounts (s : Bridge) : Prop where
  counted : s.pushed.length = s.slot.pushed
  settled : s.slot.pushed = s.delivered.length + s.slot.dropped + s.slot.frame.toList.length
  order : (s.delivered ++ s.slot.frame.toList).Sublist s.pushed
  pool : s.slot.free.length ≤ maxFreeBuffers
  apart : Custody.Apart s.hands s.made

theorem accounts_start : Accounts {} :=
  ⟨rfl, rfl, .refl _, Nat.zero_le _, Multiset.zero_le _⟩

section

variable (h : Accounts s)

include h

theorem Accounts.move (hpushed : s'.slot.pushed = s.slot.pushed)
    (hdropped : s'.slot.dropped = s.slot.dropped) (hframe : s'.slot.frame = s.slot.frame)
    (hlogs : s'.pushed = s.pushed ∧ s'.delivered = s.delivered)
    (hpool : s'.slot.free.length ≤ maxFreeBuffers) (hapart : Custody.Apart s'.hands s'.made) :
    Accounts s' := by
  refine ⟨?_, ?_, ?_, hpool, hapart⟩
  · rw [hlogs.1, hpushed, h.counted]
  · rw [hpushed, hdropped, hframe, hlogs.2, h.settled]
  · rw [hlogs.1, hlogs.2, hframe]
    exact h.order

theorem accounts_answer : Accounts (s.answer s.slot.take) := by
  cases hframe : s.slot.frame with
  | none =>
    rw [BufferedSlot.take_of_empty hframe]
    exact h
  | some frame =>
    have htake : s.slot.take = (some frame, { s.slot with frame := none }) := by
      rw [BufferedSlot.take, hframe]
    rw [htake]
    have hsettled := h.settled
    have horder := h.order
    rw [hframe] at hsettled horder
    refine ⟨h.counted, ?_, ?_, h.pool, ?_⟩
    · show s.slot.pushed = (s.delivered ++ [frame]).length + s.slot.dropped + 0
      rw [List.length_append, hsettled]
      show _ + _ + 1 = _ + 1 + _ + 0
      omega
    · show (s.delivered ++ [frame] ++ []).Sublist s.pushed
      rw [List.append_nil]
      exact horder
    · -- the frame's buffer goes from the slot to the consumer
      have hhands : (s.answer (some frame, { s.slot with frame := none })).hands = s.hands := by
        simp only [hands, answer, owned, lent, BufferedSlot.pool, BufferedSlot.shown, hframe, List.map_append,
          ← Multiset.coe_add, Option.toList_none, Option.toList_some, List.map_nil, List.map_cons,
          Multiset.coe_nil]
        rw [Multiset.zero_add, Multiset.add_comm (Multiset.ofList (s.consumers.map _))]
      rw [hhands]
      exact h.apart

theorem accounts_recv : Accounts s.recv := by
  unfold recv
  split
  next taken hcheck =>
    rw [BufferedSlot.check_eq_some hcheck]
    exact accounts_answer h
  · exact h.move rfl rfl rfl ⟨rfl, rfl⟩ h.pool h.apart

theorem accounts_push {i : Nat} {frame : Frame} (hi : s.producers[i]? = some frame.data) :
    Accounts { s with
      slot := s.slot.push frame, producers := s.producers.eraseIdx i, pushed := s.pushed ++ [frame] } := by
  refine ⟨?_, ?_, ?_, BufferedSlot.length_free_push h.pool frame, ?_⟩
  · rw [List.length_append, h.counted, BufferedSlot.pushed_push]
    rfl
  · rw [BufferedSlot.pushed_push, BufferedSlot.dropped_push, BufferedSlot.frame_push, h.settled]
    show _ = s.delivered.length + (s.slot.dropped + s.slot.frame.toList.length) + 1
    omega
  · rw [BufferedSlot.frame_push]
    exact ((List.sublist_append_left _ _).trans h.order).append_right [frame]
  · refine h.apart.mono ?_
    have howned : s.owned = frame.data.number ::ₘ Multiset.ofList ((s.producers.eraseIdx i).map Buffer.number) :=
      Custody.coe_map_eraseIdx hi
    have hshown : (s.slot.push frame).shown = {frame.data.number} := by
      rw [BufferedSlot.shown, BufferedSlot.frame_push]
      rfl
    have hpool : (s.slot.push frame).pool ≤ s.slot.shown + s.slot.pool := BufferedSlot.pool_push_le frame
    show Multiset.ofList ((s.producers.eraseIdx i).map Buffer.number) +
      ((s.slot.push frame).pool + ((s.slot.push frame).shown + s.lent)) ≤ s.hands
    generalize Multiset.ofList ((s.producers.eraseIdx i).map Buffer.number) = rest at howned ⊢
    rw [hands, howned, hshown]
    calc rest + ((s.slot.push frame).pool + ({frame.data.number} + s.lent))
      _ ≤ rest + ((s.slot.shown + s.slot.pool) + ({frame.data.number} + s.lent)) :=
        add_le_add le_rfl (add_le_add hpool le_rfl)
      _ = {frame.data.number} + rest + (s.slot.pool + (s.slot.shown + s.lent)) := by ac_rfl

theorem accounts_takeBuffer : Accounts s.takeBuffer := by
  refine h.move rfl rfl rfl ⟨rfl, rfl⟩ ?_ ?_
  · show s.slot.free.dropLast.length ≤ maxFreeBuffers
    rw [List.length_dropLast]
    exact (Nat.sub_le _ _).trans h.pool
  · have howned : s.takeBuffer.owned = s.handedOut.number ::ₘ s.owned := by
      rw [owned, takeBuffer, List.map_append, ← Multiset.coe_add, Multiset.add_comm]
      rfl
    show Custody.Apart (s.takeBuffer.owned + (s.takeBuffer.slot.pool + (s.slot.shown + s.lent))) s.takeBuffer.made
    rcases List.eq_nil_or_concat s.slot.free with hfree | ⟨front, last, hfree⟩
    · -- a new buffer
      have hnumber : s.handedOut.number = s.made := by
        rw [handedOut, hfree]
        rfl
      have hmade : s.takeBuffer.made = s.made + 1 := by
        rw [takeBuffer, hfree]
        rfl
      have hpool : s.takeBuffer.slot.pool = s.slot.pool := by
        rw [BufferedSlot.pool, BufferedSlot.pool, takeBuffer, hfree]
        rfl
      rw [howned, hnumber, hmade, hpool]
      exact h.apart.make
    · -- the last buffer of the pool changes hands
      rw [List.concat_eq_append] at hfree
      have hnumber : s.handedOut.number = last.number := by
        rw [handedOut, hfree, List.getLast?_concat]
        rfl
      have hmade : s.takeBuffer.made = s.made := by
        simp [takeBuffer, hfree]
      have hpool : s.slot.pool = last.number ::ₘ s.takeBuffer.slot.pool := by
        rw [BufferedSlot.pool, takeBuffer, hfree, List.map_append, ← Multiset.coe_add,
          Multiset.add_comm, List.dropLast_concat]
        rfl
      have hapart := h.apart
      rw [hands, hpool, Multiset.cons_add, Multiset.add_cons] at hapart
      rw [howned, hnumber, hmade]
      exact hapart

/-- A buffer is handed in: that of a frame, or one from elsewhere. -/
theorem accounts_recycle {buf : Buffer} {consumers : List Frame} {made : ℕ}
    (hapart : Custody.Apart (buf.number ::ₘ (s.owned + (s.slot.pool +
      (s.slot.shown + Multiset.ofList (consumers.map fun frame => frame.data.number))))) made) :
    Accounts { s with slot := s.slot.recycle buf, consumers := consumers, made := made } := by
  refine h.move (BufferedSlot.pushed_recycle buf) (BufferedSlot.dropped_recycle buf)
    (BufferedSlot.frame_recycle buf) ⟨rfl, rfl⟩ (BufferedSlot.length_free_recycle h.pool buf) ?_
  have hshown : (s.slot.recycle buf).shown = s.slot.shown := by
    rw [BufferedSlot.shown, BufferedSlot.frame_recycle]
    rfl
  show Custody.Apart (s.owned + ((s.slot.recycle buf).pool + ((s.slot.recycle buf).shown + _))) made
  rw [hshown]
  refine hapart.mono ?_
  rw [← Multiset.add_cons]
  exact add_le_add le_rfl (add_le_add (BufferedSlot.pool_recycle_le buf) le_rfl)

theorem accounts_step (hstep : step s e = some s') : Accounts s' := by
  cases e with
  | takeBuffer =>
    cases hstep
    exact accounts_takeBuffer h
  | fill i capacity len =>
    simp only [step] at hstep
    split at hstep
    next buf hi =>
      obtain ⟨-, hs'⟩ := Option.ite_none_right_eq_some.mp hstep
      cases hs'
      have hnumbers : (s.producers.set i { buf with capacity := capacity, len := len }).map Buffer.number =
          s.producers.map Buffer.number := Parties.map_set_same hi rfl
      refine h.move rfl rfl rfl ⟨rfl, rfl⟩ h.pool ?_
      show Custody.Apart (Multiset.ofList (List.map _ _) + _) _
      rw [hnumbers]
      exact h.apart
    · cases hstep
  | push i sequence resolution =>
    simp only [step] at hstep
    split at hstep
    next buf hi =>
      cases hstep
      exact accounts_push h hi
    · cases hstep
  | dropBuffer i =>
    obtain ⟨-, hs'⟩ := Option.ite_none_right_eq_some.mp hstep
    cases hs'
    refine h.move rfl rfl rfl ⟨rfl, rfl⟩ h.pool (h.apart.mono ?_)
    exact add_le_add (Custody.coe_map_eraseIdx_le _ _ _) le_rfl
  | close =>
    cases hstep
    exact h.move rfl rfl rfl ⟨rfl, rfl⟩ h.pool h.apart
  | tryRecv =>
    cases hstep
    exact accounts_answer h
  | recv =>
    cases hstep
    exact accounts_recv h
  | wake timedOut =>
    obtain ⟨-, hs'⟩ := Option.ite_none_right_eq_some.mp hstep
    have hwoken : Accounts { s with waiting := s.waiting - 1 } :=
      h.move rfl rfl rfl ⟨rfl, rfl⟩ h.pool h.apart
    cases timedOut with
    | true =>
      cases hs'
      exact accounts_answer hwoken
    | false =>
      cases hs'
      exact accounts_recv hwoken
  | recycle j =>
    simp only [step] at hstep
    split at hstep
    next frame hj =>
      cases hstep
      refine accounts_recycle h ?_
      have hapart := h.apart
      have hlent : s.lent = _ := Custody.coe_map_eraseIdx hj
      rwa [hands, hlent, Multiset.add_cons, Multiset.add_cons, Multiset.add_cons] at hapart
    · cases hstep
  | recycleOther capacity len =>
    obtain ⟨-, hs'⟩ := Option.ite_none_right_eq_some.mp hstep
    cases hs'
    exact accounts_recycle h h.apart.make
  | dropFrame j =>
    obtain ⟨-, hs'⟩ := Option.ite_none_right_eq_some.mp hstep
    cases hs'
    refine h.move rfl rfl rfl ⟨rfl, rfl⟩ h.pool (h.apart.mono ?_)
    exact add_le_add le_rfl (add_le_add le_rfl (add_le_add le_rfl (Custody.coe_map_eraseIdx_le _ _ _)))

/-- The buffer that `take_buffer` hands out is in nobody else's hands. -/
theorem handedOut_apart :
    (∀ frame, s.slot.frame = some frame → frame.data.number ≠ s.handedOut.number) ∧
      ∀ frame ∈ s.consumers, frame.data.number ≠ s.handedOut.number := by
  have hapart := (accounts_takeBuffer h).apart
  have hhanded : s.handedOut.number ∈ s.takeBuffer.owned := by
    rw [owned, takeBuffer, List.map_append]
    exact List.mem_append_right _ List.mem_cons_self
  have hother : ∀ n ∈ s.slot.shown + s.lent, n ≠ s.handedOut.number := fun n hn =>
    (hapart.ne_of_mem hhanded (Multiset.mem_add.mpr (.inr hn))).symm
  constructor
  · intro frame hframe
    refine hother _ (Multiset.mem_add.mpr (.inl ?_))
    rw [BufferedSlot.shown, hframe]
    exact Multiset.mem_singleton_self _
  · intro frame hmem
    refine hother _ (Multiset.mem_add.mpr (.inr ?_))
    exact Multiset.mem_coe.mpr (List.mem_map_of_mem hmem)

end

/-- In every run of the producers and the consumers, frames pushed are delivered, dropped, or in the slot,
and they are delivered in the order of the pushes; a receiver that gets nothing gets it when no frame is
left; the pool stays small, and a buffer from it is empty and in nobody else's hands. -/
theorem frame_bridge_accounts (es : List BridgeEvent) :
    Lts.Throughout step
      (fun s =>
        s.slot.pushed = s.pushed.length ∧
        s.slot.pushed = s.delivered.length + s.slot.dropped + s.slot.frame.toList.length ∧
        s.delivered.Sublist s.pushed ∧
        (∀ e, s.told e = some none →
          s.slot.frame = none ∧ s.pushed.length = s.delivered.length + s.slot.dropped) ∧
        s.slot.free.length ≤ maxFreeBuffers ∧
        s.handedOut.len = 0 ∧
        (∀ frame, s.slot.frame = some frame → frame.data.number ≠ s.handedOut.number) ∧
        ∀ frame ∈ s.consumers, frame.data.number ≠ s.handedOut.number)
      {} es := by
  have haccounts : Lts.Throughout step Accounts {} es :=
    Lts.throughout_of_invariant (fun _ _ _ => accounts_step) accounts_start
  refine haccounts.mono fun s h => ?_
  obtain ⟨hslot, hlent⟩ := handedOut_apart h
  refine ⟨h.counted.symm, h.settled, (List.sublist_append_left _ _).trans h.order, ?_, h.pool, rfl, hslot, hlent⟩
  intro e htold
  have hempty := frame_of_told_none htold
  have hsettled := h.settled
  rw [hempty, ← h.counted] at hsettled
  exact ⟨hempty, hsettled⟩

end Bridge

/-! ## The slot that the sessions poll -/

def Frame.forget (frame : Frame) : BridgeFrame :=
  ⟨frame.sequence, frame.resolution, frame.data.capacity⟩

namespace BufferedSlot

/-- A slot with the capacities of its buffers only. -/
def forget (slot : BufferedSlot) : Slot where
  frame := slot.frame.map Frame.forget
  closed := slot.closed
  dropped := slot.dropped
  pushed := slot.pushed
  free := slot.free.map Buffer.capacity

variable (slot : BufferedSlot)

theorem forget_recycle (buf : Buffer) : (slot.recycle buf).forget = slot.forget.recycle buf.capacity := by
  unfold recycle Slot.recycle
  have hlength : slot.forget.free.length = slot.free.length := List.length_map _
  rw [hlength]
  split
  · simp [forget]
  · rfl

/-- A push drops the same frame. -/
theorem forget_push (frame : Frame) : (slot.push frame).forget = slot.forget.push frame.forget := by
  unfold push Slot.push
  cases hframe : slot.frame with
  | none => simp [forget, hframe]
  | some stale =>
    simp only [forget_recycle]
    simp [forget, hframe, Frame.forget]

/-- The receiver gets the same frame. -/
theorem forget_take : slot.forget.take = (slot.take.1.map Frame.forget, slot.take.2.forget) := rfl

end BufferedSlot

end Rustcast.Host.FrameBridge
