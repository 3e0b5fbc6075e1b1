import Rustcast.Core.Bytes

/-!
# Relay commands at hostd

The command table and the raw reader of `flux-hostd/src/proto.rs`, and the loop of `proxy`
in `main.rs` that forwards a relay's commands to the agent until the lock command.
-/

namespace Rustcast.Hostd

open Bytes

def cmdLoginResponse : UInt8 := 0x08
def cmdLock : UInt8 := 0x09
def cmdHello : UInt8 := 0x0A

def maxCommandPayload : Nat := 64 * 1024 * 1024

inductive FrameShape where
  | bare
  | fixed (n : Nat)
  | lengthPrefixed
  deriving DecidableEq

def commandFrameSpec (ty : UInt8) : Option FrameShape :=
  if ty = 0x01 then some .bare
  else if ty = 0x03 ∨ ty = 0x04 ∨ ty = 0x06 then some (.fixed 4)
  else if ty = 0x05 then some (.fixed 2)
  else if ty = 0x02 ∨ ty = 0x07 ∨ ty = cmdLoginResponse ∨ ty = cmdLock ∨ ty = cmdHello then
    some .lengthPrefixed
  else none

inductive IoError where
  | unexpectedEof
  | invalidData (message : String)
  deriving DecidableEq

/-- `read_command_body`: the full wire bytes, type byte included, and what follows. -/
def readCommandBody (ty : UInt8) (shape : FrameShape) (cap : Nat) (bytes : List UInt8) :
    Except IoError (List UInt8 × List UInt8) :=
  match shape with
  | .bare => .ok ([ty], bytes)
  | .fixed n =>
    match readExact n bytes with
    | none => .error .unexpectedEof
    | some (body, rest) => .ok (ty :: body, rest)
  | .lengthPrefixed =>
    match readExact 4 bytes with
    | none => .error .unexpectedEof
    | some (lenBuf, rest) =>
      let len := beNat lenBuf
      if cap < len then .error (.invalidData s!"command payload too large: {len}")
      else
        match readExact len rest with
        | none => .error .unexpectedEof
        | some (payload, rest) => .ok (ty :: (lenBuf ++ payload), rest)

structure RawCommand where
  ty : UInt8
  bytes : List UInt8
  deriving DecidableEq

/-- `read_raw_command`; `none` at the end of the stream and for an unknown type. -/
def readRawCommand : List UInt8 → Except IoError (Option (RawCommand × List UInt8))
  | [] => .ok none
  | ty :: rest =>
    match commandFrameSpec ty with
    | none => .ok none
    | some shape =>
      match readCommandBody ty shape maxCommandPayload rest with
      | .error e => .error e
      | .ok (bytes, rest) => .ok (some ({ ty, bytes }, rest))

inductive ProxyEnd where
  | disconnected
  | locked
  deriving DecidableEq

/-- `from_relay` of `proxy`, at most `fuel` commands: what is forwarded to the agent, and how
the loop ends. -/
def fromRelay : Nat → List UInt8 → List RawCommand × Except IoError ProxyEnd
  | 0, _ => ([], .ok .disconnected)
  | fuel + 1, bytes =>
    match readRawCommand bytes with
    | .error e => ([], .error e)
    | .ok none => ([], .ok .disconnected)
    | .ok (some (cmd, rest)) =>
      if cmd.ty = cmdLock then ([], .ok .locked)
      else
        let (forwarded, ending) := fromRelay fuel rest
        (cmd :: forwarded, ending)

/-- The commands that `proxy` forwards from a relay's byte stream. -/
def forwarded (relay : List UInt8) : List RawCommand := (fromRelay (relay.length + 1) relay).1

def forwardedBytes (relay : List UInt8) : List UInt8 := (forwarded relay).flatMap RawCommand.bytes

/-! ## What the raw reader accepts -/

/-- The wire bytes of a command have the shape of its type. -/
def RawCommand.WellFormed (cmd : RawCommand) : Prop :=
  ∃ shape, commandFrameSpec cmd.ty = some shape ∧
    match shape with
    | .bare => cmd.bytes = [cmd.ty]
    | .fixed n => ∃ body, body.length = n ∧ cmd.bytes = cmd.ty :: body
    | .lengthPrefixed => ∃ lenBuf payload, lenBuf.length = 4 ∧ payload.length = beNat lenBuf ∧
      cmd.bytes = cmd.ty :: (lenBuf ++ payload)

variable {cmd : RawCommand} {bytes : List UInt8} {fuel : Nat}

theorem RawCommand.WellFormed.length_pos (h : cmd.WellFormed) : 0 < cmd.bytes.length := by
  obtain ⟨shape, -, hshape⟩ := h
  cases shape with
  | bare => simp [show cmd.bytes = [cmd.ty] from hshape]
  | fixed n =>
    obtain ⟨body, -, hbytes⟩ := hshape
    simp [hbytes]
  | lengthPrefixed =>
    obtain ⟨lenBuf, payload, -, -, hbytes⟩ := hshape
    simp [hbytes]

/-- The reader takes a well-formed command off the front of the stream. -/
theorem readRawCommand_spec {rest : List UInt8} (h : readRawCommand bytes = .ok (some (cmd, rest))) :
    cmd.WellFormed ∧ bytes = cmd.bytes ++ rest := by
  cases bytes with
  | nil => cases h
  | cons ty tail =>
    simp only [readRawCommand] at h
    cases hspec : commandFrameSpec ty with
    | none =>
      rw [hspec] at h
      cases h
    | some shape =>
      rw [hspec] at h
      cases shape with
      | bare =>
        cases h
        exact ⟨⟨.bare, hspec, rfl⟩, rfl⟩
      | fixed n =>
        simp only [readCommandBody] at h
        cases hread : readExact n tail with
        | none =>
          rw [hread] at h
          cases h
        | some result =>
          rw [hread] at h
          cases h
          obtain ⟨hlen, rfl⟩ := readExact_eq_some.mp hread
          exact ⟨⟨.fixed n, hspec, _, hlen, rfl⟩, rfl⟩
      | lengthPrefixed =>
        simp only [readCommandBody] at h
        cases hlen : readExact 4 tail with
        | none =>
          rw [hlen] at h
          cases h
        | some result =>
          obtain ⟨lenBuf, mid⟩ := result
          rw [hlen] at h
          obtain ⟨hlen4, rfl⟩ := readExact_eq_some.mp hlen
          by_cases hcap : maxCommandPayload < beNat lenBuf
          · simp [hcap] at h
          · cases hread : readExact (beNat lenBuf) mid with
            | none => simp [hcap, hread] at h
            | some result =>
              obtain ⟨payload, rest'⟩ := result
              simp only [if_neg hcap, hread] at h
              cases h
              obtain ⟨hpayload, rfl⟩ := readExact_eq_some.mp hread
              exact ⟨⟨.lengthPrefixed, hspec, lenBuf, payload, hlen4, hpayload, rfl⟩, by simp⟩

/-- Only whole commands are forwarded, and never the lock command. -/
theorem fromRelay_wellFormed : ∀ cmd ∈ (fromRelay fuel bytes).1, cmd.WellFormed ∧ cmd.ty ≠ cmdLock := by
  induction fuel generalizing bytes with
  | zero => simp [fromRelay]
  | succ fuel ih =>
    intro cmd hcmd
    simp only [fromRelay] at hcmd
    cases hread : readRawCommand bytes with
    | error e => simp [hread] at hcmd
    | ok result =>
      cases result with
      | none => simp [hread] at hcmd
      | some result =>
        simp only [hread] at hcmd
        split at hcmd
        · simp at hcmd
        next hlock =>
          rcases List.mem_cons.mp hcmd with rfl | hrest
          · exact ⟨(readRawCommand_spec hread).1, hlock⟩
          · exact ih cmd hrest

/-- As much fuel as there are bytes, and one round to see the end, is always enough. -/
theorem fromRelay_fuel (hfuel : bytes.length < fuel) : (fromRelay fuel bytes).1 = forwarded bytes := by
  suffices h : ∀ fuel fuel' (bytes : List UInt8), bytes.length < fuel → bytes.length < fuel' →
      fromRelay fuel bytes = fromRelay fuel' bytes from
    congrArg Prod.fst (h fuel _ bytes hfuel (Nat.lt_succ_self _))
  intro fuel
  induction fuel with
  | zero => exact fun _ bytes h => absurd h (Nat.not_lt_zero _)
  | succ fuel ih =>
    intro fuel' bytes hfuel hfuel'
    cases fuel' with
    | zero => exact absurd hfuel' (Nat.not_lt_zero _)
    | succ fuel' =>
      simp only [fromRelay]
      cases hread : readRawCommand bytes with
      | error e => rfl
      | ok result =>
        cases result with
        | none => rfl
        | some result =>
          obtain ⟨cmd, rest⟩ := result
          obtain ⟨hwell, hbytes⟩ := readRawCommand_spec hread
          have hpos := hwell.length_pos
          have hrest : bytes.length = cmd.bytes.length + rest.length := by simp [hbytes]
          have htail := ih fuel' rest (by omega) (by omega)
          simp only [htail]

end Rustcast.Hostd
