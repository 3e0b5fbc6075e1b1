import Rustcast.Hostd.Connection

/-!
# The QUIC bridge of hostd

`bridge` of `flux-hostd/src/quic.rs`: `handle_connection` writes into a pipe of 256 KiB, and
`to_quic_frames` reads frames from it and emits each on a QUIC stream of its own. A `select!`
over these two and the copy of the relay's commands ends the bridge as soon as one of the
three has ended.

The connection is healthy, so QUIC operations succeed, and the relay's side stays open, so
the copy of the commands ends only when `handle_connection` has dropped its end of the pipe.
-/

namespace Rustcast.Hostd

open Bytes Parse Wire

def pipeCapacity : Nat := 256 * 1024

/-- Where `to_quic_frames` waits. -/
inductive LoopPc where
  /-- reading the header -/
  | header (got : List UInt8)
  /-- reading the payload -/
  | payload (hdr got : List UInt8)
  | opening (hdr payload : List UInt8)
  | sendingHeader (hdr payload : List UInt8)
  | sendingPayload (hdr payload : List UInt8)
  /-- it returned an error, with these bytes read of the current frame -/
  | ended (got : List UInt8)
  deriving DecidableEq

/-- The bytes of the current frame that were taken from the pipe. -/
def LoopPc.got : LoopPc → List UInt8
  | .header got => got
  | .payload hdr got => hdr ++ got
  | .opening hdr body => hdr ++ body
  | .sendingHeader hdr body => hdr ++ body
  | .sendingPayload hdr body => hdr ++ body
  | .ended got => got

structure Bridge where
  pipe : List UInt8 := []
  hostReturned : Bool := false
  loop : LoopPc := .header []
  returned : Bool := false
  /-- everything `handle_connection` has written -/
  wrote : List UInt8 := []
  /-- the finished streams -/
  emitted : List (List UInt8 × List UInt8) := []
  deriving DecidableEq

inductive BridgeEvent where
  | hostWrite (bytes : List UInt8)
  | hostReturn
  | loopRead (n : Nat)
  /-- the host's end of the pipe is gone and the pipe is empty -/
  | loopEof
  | openUni
  | writeHeader
  | writePayload
  | selectToHost
  | selectLoop
  | selectHost
  deriving DecidableEq

namespace Bridge

/-- `read_exact` has the header: check the length, and a payload of length zero is complete at
once. -/
def headerRead (hdr : List UInt8) : LoopPc :=
  let len := beNat (hdr.drop 9)
  if maxQuicFrame < len then .ended hdr
  else if len = 0 then .opening hdr []
  else .payload hdr []

def loopRead (b : Bridge) (n : Nat) : Option Bridge :=
  if n = 0 ∨ b.pipe.length < n then none
  else
    match b.loop with
    | .header got =>
      let got := got ++ b.pipe.take n
      if frameHeaderLen < got.length then none
      else some { b with
        pipe := b.pipe.drop n
        loop := if got.length = frameHeaderLen then headerRead got else .header got }
    | .payload hdr got =>
      let got := got ++ b.pipe.take n
      if beNat (hdr.drop 9) < got.length then none
      else some { b with
        pipe := b.pipe.drop n
        loop := if got.length = beNat (hdr.drop 9) then .opening hdr got else .payload hdr got }
    | _ => none

def loopEof (b : Bridge) : Option Bridge :=
  if b.hostReturned && b.pipe.isEmpty then
    match b.loop with
    | .header got => some { b with loop := .ended got }
    | .payload hdr got => some { b with loop := .ended (hdr ++ got) }
    | _ => none
  else none

/-- The branch of the `select!` that the event stands for is ready. -/
def ready (b : Bridge) : BridgeEvent → Bool
  | .selectToHost => b.hostReturned
  | .selectHost => b.hostReturned
  | .selectLoop =>
    match b.loop with
    | .ended _ => true
    | _ => false
  | _ => false

/-- The `select!` is done: the frame loop is dropped with all it has. -/
def select (b : Bridge) (e : BridgeEvent) : Option Bridge :=
  if b.ready e then some { b with returned := true } else none

def step (b : Bridge) (e : BridgeEvent) : Option Bridge :=
  if b.returned then none
  else
    match e with
    | .hostWrite bytes =>
      if b.hostReturned ∨ pipeCapacity < b.pipe.length + bytes.length then none
      else some { b with pipe := b.pipe ++ bytes, wrote := b.wrote ++ bytes }
    | .hostReturn => some { b with hostReturned := true }
    | .loopRead n => b.loopRead n
    | .loopEof => b.loopEof
    | .openUni =>
      match b.loop with
      | .opening hdr payload => some { b with loop := .sendingHeader hdr payload }
      | _ => none
    | .writeHeader =>
      match b.loop with
      | .sendingHeader hdr payload => some { b with loop := .sendingPayload hdr payload }
      | _ => none
    | .writePayload =>
      match b.loop with
      | .sendingPayload hdr payload =>
        some { b with loop := .header [], emitted := b.emitted ++ [(hdr, payload)] }
      | _ => none
    | .selectToHost => b.select .selectToHost
    | .selectLoop => b.select .selectLoop
    | .selectHost => b.select .selectHost

end Bridge

/-! ## Delivery -/

/-- When the bridge has returned, every complete frame that was written is on a finished
stream. -/
def Delivered (b : Bridge) : Prop := b.returned = true → b.emitted = framesOf b.wrote

/-- The condition on a step: the `select!` ends only when no complete frame is left. -/
def ExitDrained (b : Bridge) (e : BridgeEvent) : Prop :=
  b.returned = false → b.ready e = true → splitFrame (b.loop.got ++ b.pipe) = none

/-- What the loop holds is complete exactly where it sends. -/
def LoopPc.WellFormed : LoopPc → Prop
  | .payload hdr _ => hdr.length = frameHeaderLen
  | .opening hdr body => Matching (hdr, body)
  | .sendingHeader hdr body => Matching (hdr, body)
  | .sendingPayload hdr body => Matching (hdr, body)
  | _ => True

/-- All that was written was emitted, is in the loop's hands, or is in the pipe. -/
structure BridgeInv (b : Bridge) : Prop where
  loop : b.loop.WellFormed
  emitted : ∀ frame ∈ b.emitted, Matching frame
  wrote : b.wrote = b.emitted.flatMap (fun f => f.1 ++ f.2) ++ (b.loop.got ++ b.pipe)
  delivered : Delivered b

open Bridge

variable {b b' : Bridge}

namespace BridgeInv

variable (h : BridgeInv b)

include h

theorem framesOf_wrote : framesOf b.wrote = b.emitted ++ framesOf (b.loop.got ++ b.pipe) := by
  rw [h.wrote]
  exact framesOf_append h.emitted _

/-- Everything is emitted exactly when nothing complete is left. -/
theorem emitted_eq_iff : b.emitted = framesOf b.wrote ↔ splitFrame (b.loop.got ++ b.pipe) = none := by
  rw [h.framesOf_wrote, ← framesOf_eq_nil]
  exact List.self_eq_append_right

theorem advance (hrunning : b'.returned = false) (hloop : b'.loop.WellFormed)
    (hemitted : b'.emitted = b.emitted)
    (hwrote : ∃ more, b'.wrote = b.wrote ++ more ∧ b'.loop.got ++ b'.pipe = b.loop.got ++ b.pipe ++ more) :
    BridgeInv b' := by
  obtain ⟨more, hwrote, hrest⟩ := hwrote
  refine ⟨hloop, hemitted ▸ h.emitted, ?_, fun hret => ?_⟩
  · rw [hwrote, h.wrote, hemitted, hrest, List.append_assoc]
  · rw [hrunning] at hret
    cases hret

/-- The loop moves bytes from the pipe to its buffer, or only its program counter. -/
theorem loopStep (hrunning : b.returned = false) {pipe : List UInt8} {loop : LoopPc}
    (hloop : loop.WellFormed) (hrest : loop.got ++ pipe = b.loop.got ++ b.pipe) :
    BridgeInv { b with pipe, loop } :=
  h.advance hrunning hloop rfl ⟨[], by simp, by simpa using hrest⟩

end BridgeInv

theorem headerRead_wellFormed {hdr : List UInt8} (hlen : hdr.length = frameHeaderLen) :
    (headerRead hdr).WellFormed := by
  simp only [headerRead]
  split
  · trivial
  · split
    next hzero =>
      exact ⟨hlen, hzero.symm⟩
    · exact hlen

theorem got_headerRead (hdr : List UInt8) : (headerRead hdr).got = hdr := by
  simp only [headerRead]
  split
  · rfl
  · split <;> simp [LoopPc.got]

variable {e : BridgeEvent}

section

variable (h : BridgeInv b)

include h

namespace BridgeInv

variable (hrunning : b.returned = false)

include hrunning

theorem loopRead {n : Nat} (hstep : b.loopRead n = some b') : BridgeInv b' := by
  have hpipe : ∀ got : List UInt8, got ++ b.pipe.take n ++ b.pipe.drop n = got ++ b.pipe := by
    intro got
    rw [List.append_assoc, List.take_append_drop]
  have hloop := h.loop
  unfold Bridge.loopRead at hstep
  split at hstep
  · cases hstep
  split at hstep
  · -- the header
    rename_i got hpc
    simp only [Option.ite_none_left_eq_some, Option.some.injEq] at hstep
    obtain ⟨-, rfl⟩ := hstep
    split
    next hfull =>
      refine h.loopStep hrunning (headerRead_wellFormed hfull) ?_
      rw [got_headerRead, hpc]
      exact hpipe got
    · refine h.loopStep hrunning trivial ?_
      rw [hpc]
      exact hpipe got
  · -- the payload
    rename_i hdr got hpc
    rw [hpc] at hloop
    simp only [Option.ite_none_left_eq_some, Option.some.injEq] at hstep
    obtain ⟨-, rfl⟩ := hstep
    have hmoved : hdr ++ (got ++ b.pipe.take n) ++ b.pipe.drop n = hdr ++ got ++ b.pipe := by
      rw [← List.append_assoc]
      exact hpipe (hdr ++ got)
    split
    next hfull =>
      refine h.loopStep hrunning (show Matching _ from ⟨hloop, hfull⟩) ?_
      rw [hpc]
      exact hmoved
    · refine h.loopStep hrunning (show hdr.length = _ from hloop) ?_
      rw [hpc]
      exact hmoved
  · cases hstep

theorem loopEof (hstep : b.loopEof = some b') : BridgeInv b' := by
  unfold Bridge.loopEof at hstep
  split at hstep
  · split at hstep
    next got hpc =>
      cases hstep
      exact h.loopStep hrunning trivial (by rw [hpc]; rfl)
    next hdr got hpc =>
      cases hstep
      exact h.loopStep hrunning trivial (by rw [hpc]; rfl)
    · cases hstep
  · cases hstep

/-- The end of the `select!` keeps the invariant where nothing complete is left. -/
theorem select (hok : ExitDrained b e) (hstep : b.select e = some b') : BridgeInv b' := by
  unfold Bridge.select at hstep
  split at hstep <;> cases hstep
  rename_i hready
  exact ⟨h.loop, h.emitted, h.wrote, fun _ => h.emitted_eq_iff.mpr (hok hrunning hready)⟩

end BridgeInv

theorem bridgeInv_step (hok : ExitDrained b e) (hstep : b.step e = some b') : BridgeInv b' := by
  have hloop := h.loop
  unfold step at hstep
  split at hstep
  · cases hstep
  rename_i hreturned
  have hrunning : b.returned = false := Bool.eq_false_iff.mpr hreturned
  cases e with
  | hostWrite bytes =>
    simp only [Option.ite_none_left_eq_some, Option.some.injEq] at hstep
    obtain ⟨-, rfl⟩ := hstep
    exact h.advance hrunning h.loop rfl ⟨bytes, rfl, by simp⟩
  | hostReturn =>
    cases hstep
    exact h.advance hrunning h.loop rfl ⟨[], by simp, by simp⟩
  | loopRead n => exact h.loopRead hrunning hstep
  | loopEof => exact h.loopEof hrunning hstep
  | openUni | writeHeader =>
    simp only at hstep
    split at hstep <;> cases hstep
    rename_i hdr body hpc
    rw [hpc] at hloop
    exact h.loopStep hrunning (show Matching _ from hloop) (by rw [hpc]; rfl)
  | writePayload =>
    simp only at hstep
    split at hstep <;> cases hstep
    rename_i hdr body hpc
    rw [hpc] at hloop
    have hframe : Matching (hdr, body) := hloop
    refine ⟨trivial, ?_, ?_, fun hret => ?_⟩
    · intro f hf
      rcases List.mem_append.mp hf with hold | hnew
      · exact h.emitted f hold
      · rw [List.mem_singleton.mp hnew]
        exact hframe
    · rw [h.wrote, hpc]
      simp [LoopPc.got]
    · rw [show b.returned = true from hret] at hrunning
      cases hrunning
  | selectToHost | selectLoop | selectHost => exact h.select hrunning hok hstep

/-- Where the bridge returns and everything was emitted, nothing complete was left. -/
theorem BridgeInv.exitDrained_of_delivered (hstep : b.step e = some b') (hdelivered : Delivered b') :
    ExitDrained b e := by
  intro hrunning hready
  have hselect : b.step e = b.select e := by
    cases e <;> simp_all [step, Bridge.ready]
  rw [hselect, Bridge.select, if_pos hready] at hstep
  cases hstep
  exact h.emitted_eq_iff.mp (hdelivered rfl)

end

theorem bridgeInv_new : BridgeInv {} :=
  ⟨trivial, fun _ hf => (nomatch hf), rfl, fun hret => nomatch hret⟩

/-! ## Runs -/

/-- No complete frame is lost at the end of the bridge if and only if the `select!` ends only
when no complete frame is left in the pipe and in the hands of the frame loop. -/
theorem bridge_delivers_iff (events : List BridgeEvent) :
    Lts.Throughout Bridge.step Delivered {} events ↔ Lts.Along Bridge.step ExitDrained {} events := by
  have hprop : ∀ b : Bridge, BridgeInv b → Delivered b := fun _ h => h.delivered
  refine Lts.throughout_iff_along hprop (fun _ _ _ h => bridgeInv_step h)
    (fun _ _ _ h => h.exitDrained_of_delivered) ?_ bridgeInv_new
  -- an exit that is not enabled is not ready
  intro b e hnone hrunning hready
  have hselect : b.step e = b.select e := by
    cases e <;> simp_all [step, Bridge.ready]
  rw [hselect, Bridge.select, if_pos hready] at hnone
  cases hnone

def busyRun : List BridgeEvent := [.hostWrite promptFrame.bytes, .hostReturn, .selectHost]

/-- The bridge returns before the frame loop has looked at the pipe. -/
theorem bridge_drops_last_frame :
    (¬∀ events, Lts.Throughout Bridge.step Delivered {} events) ∧
      ∃ b, Lts.run Bridge.step {} busyRun = some b ∧ b.returned = true ∧ b.emitted = [] ∧
        framesOf b.wrote = [(promptFrame.header, promptFrame.payload)] := by
  have hend : ∃ b, Lts.run step {} busyRun = some b ∧ b.returned = true ∧ b.emitted = [] ∧
      framesOf b.wrote = [(promptFrame.header, promptFrame.payload)] :=
    ⟨_, rfl, rfl, rfl, by decide +kernel⟩
  refine ⟨fun h => ?_, hend⟩
  obtain ⟨b, hrun, hreturned, hemitted, hframes⟩ := hend
  have hdelivered := (h busyRun).last hrun hreturned
  rw [hemitted, hframes] at hdelivered
  cases hdelivered

end Rustcast.Hostd
