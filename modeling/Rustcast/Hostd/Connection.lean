import Rustcast.Core.Lts
import Rustcast.Relay.HostFrame

/-!
# What hostd writes to a relay

`handle_connection` and `proxy` of `flux-hostd/src/main.rs`, as far as they write to the
relay: login frames while nobody is logged in, and behind a login a byte copy of what the
agent sends. A lock command ends the copy wherever it stands, and the login prompt follows
on the same connection.
-/

namespace Rustcast.Hostd

open Bytes Parse Wire

/-! ## The reader on the other side of the pipe -/

def maxQuicFrame : Nat := 16 * 1024 * 1024

/-- One round of `to_quic_frames`, which stops at the end of its input and at a frame that is
too large. -/
def nextQuicFrame (bytes : List UInt8) : Option ((List UInt8 × List UInt8) × List UInt8) := do
  let (hdr, rest) ← readExact frameHeaderLen bytes
  let len := beNat (hdr.drop 9)
  if maxQuicFrame < len then none
  else
    let (payload, rest) ← readExact len rest
    some ((hdr, payload), rest)

/-- The streams that `to_quic_frames` emits. -/
def toQuicFrames (bytes : List UInt8) : List (List UInt8 × List UInt8) :=
  readAll nextQuicFrame bytes

/-- It takes the same frames off a stream as `splitFrame`. -/
theorem splitFrame_of_nextQuicFrame {bytes rest : List UInt8} {frame : List UInt8 × List UInt8}
    (h : nextQuicFrame bytes = some (frame, rest)) : splitFrame bytes = some (frame, rest) := by
  unfold nextQuicFrame at h
  unfold splitFrame
  cases hhdr : readExact frameHeaderLen bytes with
  | none => simp [hhdr] at h
  | some result =>
    obtain ⟨hdr, mid⟩ := result
    by_cases hlarge : maxQuicFrame < beNat (hdr.drop 9)
    · simp [hhdr, hlarge] at h
    · simpa [hhdr, hlarge] using h

theorem consuming_nextQuicFrame : Consuming nextQuicFrame :=
  fun bytes frame rest h => consuming_splitFrame bytes frame rest (splitFrame_of_nextQuicFrame h)

theorem nextQuicFrame_bytes {f : Frame} (h : f.payload.length ≤ maxQuicFrame) (rest : List UInt8) :
    nextQuicFrame (f.bytes ++ rest) = some ((f.header, f.payload), rest) := by
  have hlen : beNat (f.header.drop 9) = f.payload.length := f.header_fields.2.2
  have hhdr : readExact frameHeaderLen (f.bytes ++ rest) = some (f.header, f.payload ++ rest) := by
    have hbytes : f.bytes ++ rest = f.header ++ (f.payload ++ rest) := List.append_assoc _ _ _
    rw [hbytes, ← f.length_header]
    exact readExact_append _ _
  simp [nextQuicFrame, hhdr, hlen, Nat.not_lt.mpr h, readExact_append]

theorem toQuicFrames_flatMap {frames : List Frame}
    (h : ∀ f ∈ frames, f.payload.length ≤ maxQuicFrame) :
    toQuicFrames (frames.flatMap Frame.bytes) = frames.map fun f => (f.header, f.payload) := by
  have hread := readAll_flatMap consuming_nextQuicFrame
    (fun f hf rest => nextQuicFrame_bytes (h f hf) rest) []
  rw [List.append_nil, readAll_of_none consuming_nextQuicFrame.next_nil, List.append_nil] at hread
  exact hread

/-! ## The connection -/

inductive ConnPhase where
  /-- writing login frames and reading the answers -/
  | login
  /-- in `proxy`: the frames of the agent so far, and how many of their bytes `copy` has read
  and written -/
  | proxying (agent : List Frame) (read written : Nat)
  | ended

structure Connection where
  out : List UInt8 := []
  phase : ConnPhase := .login

inductive ConnEvent where
  | loginFrame (frame : Frame)
  /-- the write of a login frame fails behind `n` bytes -/
  | loginFailed (frame : Frame) (n : Nat)
  /-- the login succeeded and the agent accepted the connection -/
  | proxy
  | agentFrame (frame : Frame)
  | copyRead (n : Nat)
  | copyWrite (n : Nat)
  /-- the agent closed and everything was copied, or the copy failed -/
  | copyEnded
  | lock
  /-- the relay is gone, or an error ends the connection -/
  | disconnect

def agentBytes (agent : List Frame) : List UInt8 := agent.flatMap Frame.bytes

namespace Connection

def step (c : Connection) : ConnEvent → Option Connection
  | .loginFrame frame =>
    match c.phase with
    | .login =>
      if frame.messageType = msgLogin then some { c with out := c.out ++ frame.bytes } else none
    | _ => none
  | .loginFailed frame n =>
    match c.phase with
    | .login => some { out := c.out ++ frame.bytes.take n, phase := .ended }
    | _ => none
  | .proxy =>
    match c.phase with
    | .login => some { c with phase := .proxying [] 0 0 }
    | _ => none
  | .agentFrame frame =>
    match c.phase with
    | .proxying agent read written => some { c with phase := .proxying (agent ++ [frame]) read written }
    | _ => none
  | .copyRead n =>
    match c.phase with
    | .proxying agent read written =>
      if read + n ≤ (agentBytes agent).length then
        some { c with phase := .proxying agent (read + n) written }
      else none
    | _ => none
  | .copyWrite n =>
    match c.phase with
    | .proxying agent read written =>
      -- `copy` holds what it has read and not yet written in a buffer of its own
      if written + n ≤ read then
        some { out := c.out ++ ((agentBytes agent).drop written).take n
               phase := .proxying agent read (written + n) }
      else none
    | _ => none
  | .copyEnded =>
    match c.phase with
    | .proxying _ _ _ => some { c with phase := .ended }
    | _ => none
  | .lock =>
    match c.phase with
    -- the `select!` drops the copy, with the buffer, wherever it stands
    | .proxying _ _ _ => some { c with phase := .login }
    | _ => none
  | .disconnect => some { c with phase := .ended }

end Connection

/-! ## Whole frames -/

/-- The output consists of whole frames, and both readers get every frame that follows: the
one of the QUIC bridge and the relay's own for TCP, each for frames it does not refuse. -/
def Recoverable (out : List UInt8) : Prop :=
  ∃ frames : List Frame, out = frames.flatMap Frame.bytes ∧ ∀ following : List Frame,
    ((∀ f ∈ frames ++ following, f.payload.length ≤ maxQuicFrame) →
      toQuicFrames (out ++ following.flatMap Frame.bytes) =
        (frames ++ following).map fun f => (f.header, f.payload)) ∧
    ((∀ f ∈ frames ++ following, Relay.Acceptable f) →
      Relay.readFrames (out ++ following.flatMap Frame.bytes) =
        (frames ++ following).map fun f => (Relay.FrameHeader.ofFrame f, f.payload))

theorem recoverable_iff_whole {out : List UInt8} : Recoverable out ↔ Whole out := by
  constructor
  · rintro ⟨frames, hout, -⟩
    exact ⟨frames, hout⟩
  · rintro ⟨frames, rfl⟩
    refine ⟨frames, rfl, fun following => ?_⟩
    rw [← List.flatMap_append]
    exact ⟨toQuicFrames_flatMap, Relay.readFrames_flatMap⟩

def WholeAtLogin (c : Connection) : Prop :=
  match c.phase with
  | .login => Recoverable c.out
  | _ => True

/-- The condition on a step: a lock command finds the copy at the end of a frame. -/
def LockAtBoundary (c : Connection) : ConnEvent → Prop
  | .lock =>
    match c.phase with
    | .proxying agent _ written =>
      ∃ k ≤ agent.length, (agentBytes agent).take written = agentBytes (agent.take k)
    | _ => True
  | _ => True

/-- Behind the whole frames that were there when `proxy` began stands what was copied. -/
def Connection.Inv (c : Connection) : Prop :=
  match c.phase with
  | .login => Whole c.out
  | .proxying agent read written =>
    written ≤ read ∧ read ≤ (agentBytes agent).length ∧
      ∃ before, Whole before ∧ c.out = before ++ (agentBytes agent).take written
  | .ended => True

variable {agent : List Frame} {e : ConnEvent}

namespace Connection

variable {c c' : Connection}

theorem Inv.wholeAtLogin (h : c.Inv) : WholeAtLogin c := by
  unfold WholeAtLogin
  cases hphase : c.phase with
  | login =>
    rw [Inv, hphase] at h
    exact recoverable_iff_whole.mpr h
  | proxying agent read written => trivial
  | ended => trivial

/-- More frames of the agent leave the copied bytes as they are. -/
theorem take_agentBytes_concat {frame : Frame} {n : Nat} (h : n ≤ (agentBytes agent).length) :
    (agentBytes (agent ++ [frame])).take n = (agentBytes agent).take n := by
  have happend : agentBytes (agent ++ [frame]) = agentBytes agent ++ frame.bytes := by
    simp [agentBytes]
  rw [happend, List.take_append_of_le_length h]

/-- Locking ends in whole frames exactly at a boundary. -/
theorem whole_iff_boundary {before : List UInt8} {written : Nat} (hbefore : Whole before) :
    Whole (before ++ (agentBytes agent).take written) ↔
      ∃ k ≤ agent.length, (agentBytes agent).take written = agentBytes (agent.take k) := by
  have hsplit : (agentBytes agent).take written ++ (agentBytes agent).drop written =
      agent.flatMap Frame.bytes := List.take_append_drop _ _
  have hcopied := whole_prefix_iff hsplit
  constructor
  · exact fun hall => hcopied.mp (hbefore.of_append hall)
  · exact fun hk => hbefore.append (hcopied.mpr hk)

theorem Inv.step (h : c.Inv) (hok : LockAtBoundary c e) (hstep : c.step e = some c') : c'.Inv := by
  cases hphase : c.phase with
  | login =>
    rw [Inv, hphase] at h
    cases e with
    | loginFrame frame =>
      simp only [Connection.step, hphase, Option.ite_none_right_eq_some, Option.some.injEq] at hstep
      obtain ⟨-, rfl⟩ := hstep
      exact h.append frame.whole_bytes
    | loginFailed frame n =>
      simp only [Connection.step, hphase, Option.some.injEq] at hstep
      subst hstep
      trivial
    | proxy =>
      simp only [Connection.step, hphase, Option.some.injEq] at hstep
      subst hstep
      exact ⟨Nat.le_refl _, Nat.zero_le _, c.out, h, by simp⟩
    | disconnect =>
      simp only [Connection.step, Option.some.injEq] at hstep
      subst hstep
      trivial
    | agentFrame _ | copyRead _ | copyWrite _ | copyEnded | lock =>
      simp [Connection.step, hphase] at hstep
  | proxying agent read written =>
    rw [Inv, hphase] at h
    obtain ⟨hwritten, hread, before, hbefore, hout⟩ := h
    cases e with
    | agentFrame frame =>
      simp only [Connection.step, hphase, Option.some.injEq] at hstep
      subst hstep
      refine ⟨hwritten, ?_, before, hbefore, ?_⟩
      · simp only [agentBytes, List.flatMap_append, List.length_append] at hread ⊢
        omega
      · rw [take_agentBytes_concat (by omega)]
        exact hout
    | copyRead n =>
      simp only [Connection.step, hphase, Option.ite_none_right_eq_some, Option.some.injEq] at hstep
      obtain ⟨hle, rfl⟩ := hstep
      exact ⟨by omega, hle, before, hbefore, hout⟩
    | copyWrite n =>
      simp only [Connection.step, hphase, Option.ite_none_right_eq_some, Option.some.injEq] at hstep
      obtain ⟨hle, rfl⟩ := hstep
      refine ⟨hle, hread, before, hbefore, ?_⟩
      rw [hout, List.append_assoc, List.take_add]
    | copyEnded =>
      simp only [Connection.step, hphase, Option.some.injEq] at hstep
      subst hstep
      trivial
    | lock =>
      simp only [Connection.step, hphase, Option.some.injEq] at hstep
      subst hstep
      simp only [LockAtBoundary, hphase] at hok
      rw [hout]
      exact (whole_iff_boundary hbefore).mpr hok
    | disconnect =>
      simp only [Connection.step, Option.some.injEq] at hstep
      subst hstep
      trivial
    | loginFrame _ | loginFailed _ _ | proxy => simp [Connection.step, hphase] at hstep
  | ended =>
    cases e with
    | disconnect =>
      simp only [Connection.step, Option.some.injEq] at hstep
      subst hstep
      trivial
    | loginFrame _ | loginFailed _ _ | proxy | agentFrame _ | copyRead _ | copyWrite _ | copyEnded
    | lock => simp [Connection.step, hphase] at hstep

/-- A lock away from a boundary leaves a broken frame in front of the login prompt. -/
theorem Inv.boundary_of_wholeAtLogin (h : c.Inv) (hstep : c.step e = some c') (hwhole : WholeAtLogin c') :
    LockAtBoundary c e := by
  cases e with
  | lock =>
    cases hphase : c.phase with
    | proxying agent read written =>
      rw [Inv, hphase] at h
      obtain ⟨-, -, before, hbefore, hout⟩ := h
      simp only [Connection.step, hphase, Option.some.injEq] at hstep
      subst hstep
      have hall : Whole c.out := recoverable_iff_whole.mp hwhole
      rw [hout] at hall
      simp only [LockAtBoundary, hphase]
      exact (whole_iff_boundary hbefore).mp hall
    | login | ended => simp only [LockAtBoundary, hphase]
  | loginFrame _ | loginFailed _ _ | proxy | agentFrame _ | copyRead _ | copyWrite _ | copyEnded
  | disconnect => trivial

end Connection

/-- The output is made of whole frames whenever a login frame may follow if and only if every
lock command finds the byte copy at the end of a frame. -/
theorem relay_output_whole_iff (events : List ConnEvent) :
    Lts.Throughout Connection.step WholeAtLogin {} events ↔
      Lts.Along Connection.step LockAtBoundary {} events := by
  have hprop : ∀ c : Connection, c.Inv → WholeAtLogin c := fun _ h => h.wholeAtLogin
  refine Lts.throughout_iff_along hprop (fun _ _ _ => Connection.Inv.step)
    (fun _ _ _ => Connection.Inv.boundary_of_wholeAtLogin) ?_ whole_nil
  intro c e hnone
  cases e with
  | lock =>
    cases hphase : c.phase with
    | proxying agent read written => simp [Connection.step, hphase] at hnone
    | login | ended => simp only [LockAtBoundary, hphase]
  | loginFrame _ | loginFailed _ _ | proxy | agentFrame _ | copyRead _ | copyWrite _ | copyEnded
  | disconnect => trivial

/-! ## A torn frame -/

def promptFrame : Frame :=
  { messageType := msgLogin, timestamp := 0, payload := [0x7b, 0x7d]
    timestamp_lt := by decide, length_lt := by decide }

def videoFrame : Frame :=
  { messageType := msgVideo, timestamp := 0, payload := [0, 0, 0, 1, 0x41]
    timestamp_lt := by decide, length_lt := by decide }

/-- Of an agent's frame of 18 bytes, 15 are written when the lock command arrives. -/
def lockRun : List ConnEvent :=
  [.loginFrame promptFrame, .proxy, .agentFrame videoFrame, .copyRead 18, .copyWrite 15, .lock]

def tornOutput : List UInt8 := promptFrame.bytes ++ videoFrame.bytes.take 15

/-- The next login prompt is read as the rest of the torn frame: of two prompts the bridge
emits one. -/
theorem lock_tears_frame :
    (¬∀ events, Lts.Throughout Connection.step WholeAtLogin {} events) ∧
      Lts.run Connection.step {} lockRun = some { out := tornOutput, phase := .login } ∧
      (toQuicFrames (tornOutput ++ promptFrame.bytes)).count
        (promptFrame.header, promptFrame.payload) = 1 := by
  have hrun : Lts.run Connection.step {} lockRun = some { out := tornOutput, phase := .login } := rfl
  refine ⟨fun h => ?_, hrun, by decide +kernel⟩
  have hlast : WholeAtLogin { out := tornOutput, phase := .login } := (h lockRun).last hrun
  have hflatten := (recoverable_iff_whole.mp hlast).framesOf_flatten
  revert hflatten
  decide +kernel

end Rustcast.Hostd
