import Rustcast.Wire.Frame

/-!
# Host frames as the relay reads them

`flux-web/frame.go` and the reading half of `flux-web/upstream.go`: the 13-byte header
`[type][capture-ts µs u64 BE][length u32 BE]`, the payload, and the test for an IDR frame.
-/

namespace Rustcast.Relay

open Bytes Parse Wire

/-- `isIDRFrame`: the loop runs while more than four bytes are left, and a start code that
does not introduce an IDR slice is skipped as a whole. -/
def isIDRFrame : List UInt8 → Bool
  | a :: b :: c :: d :: e :: rest =>
    if a = 0 ∧ b = 0 ∧ c = 0 ∧ d = 1 then
      e &&& 0x1f == 5 || isIDRFrame (e :: rest)
    else if a = 0 ∧ b = 0 ∧ c = 1 then
      d &&& 0x1f == 5 || isIDRFrame (d :: e :: rest)
    else isIDRFrame (b :: c :: d :: e :: rest)
  | _ => false

inductive MessageType where
  | video | cursor | resolutionStatus | audio | clipboard | login
  deriving DecidableEq

def messageType? (byte : UInt8) : Option MessageType :=
  if byte = 0x01 then some .video
  else if byte = 0x02 then some .cursor
  else if byte = 0x03 then some .resolutionStatus
  else if byte = 0x04 then some .audio
  else if byte = 0x05 then some .clipboard
  else if byte = 0x06 then some .login
  else none

structure FrameHeader where
  messageType : UInt8
  tsMicros : Nat
  payloadLen : Nat
  deriving DecidableEq

def maxFramePayloadSize : Nat := 10 * 1024 * 1024

/-- How a stream ends behind the bytes it delivered: finished, reset by the host, or with
any other error. -/
inductive StreamEnd where
  | fin | remoteReset | failed
  deriving DecidableEq

inductive ReadFrameError where
  | readHeader (cause : StreamEnd)
  | invalidFrameLength (length : Nat)
  | readFrameData (cause : StreamEnd)
  deriving DecidableEq

/-- `isStreamReset`. -/
def ReadFrameError.isStreamReset : ReadFrameError → Bool
  | .readHeader cause => decide (cause = .remoteReset)
  | .invalidFrameLength _ => false
  | .readFrameData cause => decide (cause = .remoteReset)

/-- `readFrame`: header, payload and the bytes behind them. -/
def readFrame (bytes : List UInt8) (ending : StreamEnd) :
    Except ReadFrameError (FrameHeader × List UInt8 × List UInt8) :=
  match readExact 13 bytes with
  | none => .error (.readHeader ending)
  | some (hdr, rest) =>
    let header : FrameHeader :=
      { messageType := hdr.headD 0
        tsMicros := beNat ((hdr.drop 1).take 8)
        payloadLen := beNat (hdr.drop 9) }
    if header.payloadLen = 0 ∨ maxFramePayloadSize < header.payloadLen then
      .error (.invalidFrameLength header.payloadLen)
    else
      match readExact header.payloadLen rest with
      | none => .error (.readFrameData ending)
      | some (payload, rest) => .ok (header, payload, rest)

/-- One round of `readFrames` on a TCP connection; an error of `readFrame`, and a type that
`dispatchFrame` does not know, end the connection. -/
def nextMessage (bytes : List UInt8) : Option ((FrameHeader × List UInt8) × List UInt8) :=
  match readFrame bytes .fin with
  | .ok (header, payload, rest) =>
    if (messageType? header.messageType).isSome then some ((header, payload), rest) else none
  | .error _ => none

/-- The messages a relay takes from the bytes of a TCP connection. -/
def readFrames (bytes : List UInt8) : List (FrameHeader × List UInt8) := readAll nextMessage bytes

/-! ## Reading a frame back -/

/-- A frame that the relay does not refuse. -/
def Acceptable (f : Frame) : Prop :=
  0 < f.payload.length ∧ f.payload.length ≤ maxFramePayloadSize ∧ (messageType? f.messageType).isSome = true

def FrameHeader.ofFrame (f : Frame) : FrameHeader :=
  { messageType := f.messageType, tsMicros := f.timestamp, payloadLen := f.payload.length }

theorem readFrame_bytes {f : Frame} (h : Acceptable f) (rest : List UInt8) (ending : StreamEnd) :
    readFrame (f.bytes ++ rest) ending = .ok (FrameHeader.ofFrame f, f.payload, rest) := by
  obtain ⟨hty, hts, hlen⟩ := f.header_fields
  have hhdr : readExact 13 (f.bytes ++ rest) = some (f.header, f.payload ++ rest) := by
    have hbytes : f.bytes ++ rest = f.header ++ (f.payload ++ rest) := List.append_assoc _ _ _
    rw [hbytes, show 13 = f.header.length from f.length_header.symm]
    exact readExact_append _ _
  have hbounds : ¬(f.payload.length = 0 ∨ maxFramePayloadSize < f.payload.length) := by
    obtain ⟨hpos, hmax, -⟩ := h
    omega
  simp only [readFrame, hhdr, hty, hts, hlen, if_neg hbounds, readExact_append]
  rfl

theorem nextMessage_bytes {f : Frame} (h : Acceptable f) (rest : List UInt8) :
    nextMessage (f.bytes ++ rest) = some ((FrameHeader.ofFrame f, f.payload), rest) := by
  have hknown : (messageType? (FrameHeader.ofFrame f).messageType).isSome = true := h.2.2
  simp only [nextMessage, readFrame_bytes h, if_pos hknown]

theorem consuming_nextMessage : Consuming nextMessage := by
  rintro bytes ⟨header, payload⟩ rest h
  simp only [nextMessage, readFrame] at h
  cases hhdr : readExact 13 bytes with
  | none => simp [hhdr] at h
  | some result =>
    obtain ⟨hdr, mid⟩ := result
    obtain ⟨hlen, rfl⟩ := readExact_eq_some.mp hhdr
    simp only [hhdr] at h
    split at h
    next header' payload' rest' hread =>
      split at hread
      · cases hread
      · split at hread <;> cases hread
        rename_i payload'' rest'' hpayload
        obtain ⟨-, rfl⟩ := readExact_eq_some.mp hpayload
        split at h <;> cases h
        simp only [List.length_append, hlen]
        omega
    · cases h

/-- The relay takes acceptable frames off a connection one by one. -/
theorem readFrames_flatMap {frames : List Frame} (h : ∀ f ∈ frames, Acceptable f) :
    readFrames (frames.flatMap Frame.bytes) = frames.map fun f => (FrameHeader.ofFrame f, f.payload) := by
  have hread := readAll_flatMap consuming_nextMessage (fun f hf rest => nextMessage_bytes (h f hf) rest) []
  rw [List.append_nil, readAll_of_none consuming_nextMessage.next_nil, List.append_nil] at hread
  exact hread

end Rustcast.Relay
