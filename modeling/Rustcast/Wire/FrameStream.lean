import Rustcast.Core.Chunks
import Rustcast.Hostd.Connection

/-!
# Host frames from writer to reader

`write_frame_message` of `flux-server/src/frame_server.rs` writes a header and a payload through a
writer that may take only a part of what it is offered. `readFrame` of the relay and
`to_quic_frames` of hostd read the bytes back, in whatever chunks they arrive.
-/

namespace Rustcast.Host

open Wire

/-! ## The writer -/

inductive WriteError where
  | writeZero
  deriving DecidableEq

/-- The side of the writer: how often it was called and what it took each time. -/
structure FrameSink where
  calls : Nat := 0
  taken : List (List UInt8) := []
  deriving DecidableEq

/-- One call of `write` or `write_vectored`: of the buffers offered the sink takes at most
`accepts k` bytes at its `k`-th call. -/
def FrameSink.write (accepts : Nat → Nat) (sink : FrameSink) (offered : List UInt8) : Nat × FrameSink :=
  let n := min (accepts sink.calls) offered.length
  (n, { calls := sink.calls + 1, taken := sink.taken ++ [offered.take n] })

/-- What the loop offers once `written` bytes are out. -/
def offered (header payload : List UInt8) (written : Nat) : List UInt8 :=
  if written < header.length then header.drop written ++ payload
  else payload.drop (written - header.length)

theorem offered_eq (header payload : List UInt8) (written : Nat) :
    offered header payload written = (header ++ payload).drop written := by
  unfold offered
  split_ifs with h
  · rw [List.drop_append_of_le_length (by omega)]
  · have hheader : header.drop written = [] := List.drop_of_length_le (by omega)
    rw [List.drop_append, hheader, List.nil_append]

def writeLoop (accepts : Nat → Nat) (header payload : List UInt8) (written : Nat) (sink : FrameSink) :
    Except WriteError FrameSink :=
  if written < header.length + payload.length then
    match (sink.write accepts (offered header payload written)).1 with
    | 0 => .error .writeZero
    | n + 1 => writeLoop accepts header payload (written + (n + 1))
        (sink.write accepts (offered header payload written)).2
  else .ok sink
  termination_by header.length + payload.length - written

def writeFrameMessage (accepts : Nat → Nat) (messageType : UInt8) (timestamp : Nat)
    (payload : List UInt8) (sink : FrameSink) : Except WriteError FrameSink :=
  writeLoop accepts (frameHeader messageType timestamp payload.length) payload 0 sink

/-- The messages of a connection, one after the other; the first error ends it. -/
def writeFrameMessages (accepts : Nat → Nat) : List Frame → FrameSink → Except WriteError FrameSink
  | [], sink => .ok sink
  | f :: messages, sink => do
    let sink ← writeFrameMessage accepts f.messageType f.timestamp f.payload sink
    writeFrameMessages accepts messages sink

section

variable {accepts : Nat → Nat}

/-- The loop writes what is missing of the message, as long as each call takes something. -/
theorem writeLoop_spec (haccepts : ∀ k, 0 < accepts k) (header payload : List UInt8) (written : Nat)
    (sink : FrameSink) :
    ∃ sink', writeLoop accepts header payload written sink = .ok sink' ∧
      sink'.taken.flatten = sink.taken.flatten ++ (header ++ payload).drop written := by
  -- on the number of bytes that are missing, which every call makes smaller
  induction hleft : header.length + payload.length - written using Nat.strongRecOn
    generalizing written sink with
  | ind left ih =>
    rw [writeLoop]
    by_cases hmore : written < header.length + payload.length
    · rw [if_pos hmore]
      have hoffered := offered_eq header payload written
      have hlen : (offered header payload written).length =
          header.length + payload.length - written := by
        rw [hoffered, List.length_drop, List.length_append]
      -- the call takes between one byte and all that it is offered
      have hpos := haccepts sink.calls
      obtain ⟨n, hn⟩ : ∃ n, (sink.write accepts (offered header payload written)).1 = n + 1 := by
        refine Nat.exists_eq_succ_of_ne_zero ?_
        show min (accepts sink.calls) (offered header payload written).length ≠ 0
        omega
      obtain ⟨sink', hloop, htaken⟩ := ih (header.length + payload.length - (written + (n + 1)))
        (by omega) (written + (n + 1)) (sink.write accepts (offered header payload written)).2 rfl
      refine ⟨sink', ?_, ?_⟩
      · simp only [hn]
        exact hloop
      · have hcall : (sink.write accepts (offered header payload written)).2.taken.flatten =
            sink.taken.flatten ++ (offered header payload written).take (n + 1) := by
          rw [← hn]
          simp [FrameSink.write]
        rw [htaken, hcall, hoffered, ← List.drop_drop, List.append_assoc, List.take_append_drop]
    · rw [if_neg hmore]
      refine ⟨sink, rfl, ?_⟩
      rw [List.drop_of_length_le (by rw [List.length_append]; omega), List.append_nil]

theorem writeFrameMessages_spec (haccepts : ∀ k, 0 < accepts k) (messages : List Frame)
    (sink : FrameSink) :
    ∃ sink', writeFrameMessages accepts messages sink = .ok sink' ∧
      sink'.taken.flatten = sink.taken.flatten ++ messages.flatMap Frame.bytes := by
  induction messages generalizing sink with
  | nil => exact ⟨sink, rfl, (List.append_nil _).symm⟩
  | cons f messages ih =>
    obtain ⟨sink₁, hwrite, htaken₁⟩ := writeLoop_spec haccepts f.header f.payload 0 sink
    obtain ⟨sink₂, hrest, htaken₂⟩ := ih sink₁
    refine ⟨sink₂, ?_, ?_⟩
    · show (writeLoop accepts f.header f.payload 0 sink).bind _ = _
      rw [hwrite]
      exact hrest
    · rw [htaken₂, htaken₁, List.append_assoc]
      rfl

end

end Rustcast.Host

/-! ## The readers, chunk by chunk -/

namespace Rustcast.Relay

open Bytes Parse Wire

variable (chunks : List (List UInt8))

/-- `readFrame` on a connection that delivers its bytes in chunks. -/
def readFrameChunks (ending : StreamEnd) :
    Except ReadFrameError (FrameHeader × List UInt8 × List (List UInt8)) :=
  match Chunks.readExact 13 chunks with
  | none => .error (.readHeader ending)
  | some (hdr, left) =>
    let header : FrameHeader :=
      { messageType := hdr.headD 0
        tsMicros := beNat ((hdr.drop 1).take 8)
        payloadLen := beNat (hdr.drop 9) }
    if header.payloadLen = 0 ∨ maxFramePayloadSize < header.payloadLen then
      .error (.invalidFrameLength header.payloadLen)
    else
      match Chunks.readExact header.payloadLen left with
      | none => .error (.readFrameData ending)
      | some (payload, left) => .ok (header, payload, left)

def nextMessageChunks (chunks : List (List UInt8)) :
    Option ((FrameHeader × List UInt8) × List (List UInt8)) :=
  match readFrameChunks chunks .fin with
  | .ok (header, payload, left) =>
    if (messageType? header.messageType).isSome then some ((header, payload), left) else none
  | .error _ => none

/-- `readFrames`, with a round for each byte at most. -/
def readFramesChunks : List (FrameHeader × List UInt8) :=
  Chunks.readLoop nextMessageChunks chunks.flatten.length chunks

theorem readFrameChunks_eq (ending : StreamEnd) :
    (readFrameChunks chunks ending).map (fun r => (r.1, r.2.1, r.2.2.flatten)) =
      readFrame chunks.flatten ending := by
  have hhdr := Chunks.simulates_readExact 13 chunks
  rw [readFrameChunks, readFrame, ← hhdr]
  cases Chunks.readExact 13 chunks with
  | none => rfl
  | some result =>
    obtain ⟨hdr, left⟩ := result
    simp only [Option.map_some]
    split_ifs
    · rfl
    · have hpayload := Chunks.simulates_readExact (beNat (hdr.drop 9)) left
      rw [← hpayload]
      cases Chunks.readExact (beNat (hdr.drop 9)) left <;> rfl

theorem simulates_nextMessage : Chunks.Simulates List.flatten nextMessageChunks nextMessage := by
  intro chunks
  rw [nextMessageChunks, nextMessage, ← readFrameChunks_eq]
  cases readFrameChunks chunks .fin with
  | error e => rfl
  | ok result =>
    simp only [Except.map]
    split_ifs <;> rfl

/-- The reader does not see the chunks. -/
theorem readFramesChunks_eq : readFramesChunks chunks = readFrames chunks.flatten :=
  Chunks.readLoop_eq_readMany simulates_nextMessage _ chunks

end Rustcast.Relay

namespace Rustcast.Hostd

open Bytes Parse Wire

variable (chunks : List (List UInt8))

/-- One round of `to_quic_frames` on a pipe that delivers its bytes in chunks. -/
def nextQuicFrameChunks :
    Option ((List UInt8 × List UInt8) × List (List UInt8)) := do
  let (hdr, left) ← Chunks.readExact frameHeaderLen chunks
  let len := beNat (hdr.drop 9)
  if maxQuicFrame < len then none
  else
    let (payload, left) ← Chunks.readExact len left
    some ((hdr, payload), left)

def toQuicFramesChunks : List (List UInt8 × List UInt8) :=
  Chunks.readLoop nextQuicFrameChunks chunks.flatten.length chunks

theorem simulates_nextQuicFrame : Chunks.Simulates List.flatten nextQuicFrameChunks nextQuicFrame := by
  -- behind the header
  have hround : ∀ hdr : List UInt8, Chunks.Simulates List.flatten
      (fun left => if maxQuicFrame < beNat (hdr.drop 9) then none
        else (Chunks.readExact (beNat (hdr.drop 9)) left).bind fun r => some ((hdr, r.1), r.2))
      (fun rest => if maxQuicFrame < beNat (hdr.drop 9) then none
        else (readExact (beNat (hdr.drop 9)) rest).bind fun r => some ((hdr, r.1), r.2)) := by
    intro hdr
    apply Chunks.Simulates.ite
    · exact .fail _
    · exact (Chunks.simulates_readExact _).bind fun payload => .pure _ (hdr, payload)
  exact (Chunks.simulates_readExact frameHeaderLen).bind hround

theorem toQuicFramesChunks_eq : toQuicFramesChunks chunks = toQuicFrames chunks.flatten :=
  Chunks.readLoop_eq_readMany simulates_nextQuicFrame _ chunks

end Rustcast.Hostd

/-! ## Round trip -/

namespace Rustcast.Wire

open Host Hostd Relay

def hostMessageTypes : List UInt8 := [0x01, 0x02, 0x03, 0x04, 0x05]

/-- A message of the agent that the relay has room for. -/
def HostMessage (f : Frame) : Prop :=
  f.messageType ∈ hostMessageTypes ∧ 1 ≤ f.payload.length ∧ f.payload.length ≤ maxFramePayloadSize

theorem HostMessage.acceptable {f : Frame} (h : HostMessage f) : Acceptable f := by
  obtain ⟨htype, hpos, hmax⟩ := h
  refine ⟨hpos, hmax, ?_⟩
  have hall : hostMessageTypes.all (fun t => (messageType? t).isSome) = true := by decide
  exact List.all_eq_true.1 hall f.messageType htype

theorem HostMessage.le_maxQuicFrame {f : Frame} (h : HostMessage f) : f.payload.length ≤ maxQuicFrame := by
  have hcaps : maxFramePayloadSize ≤ maxQuicFrame := by decide
  exact Nat.le_trans h.2.2 hcaps

/-- The messages that the agent writes are read back by the relay, and by the relay from the
streams that hostd makes of them, whatever the writer takes per call and however the bytes arrive. -/
theorem host_frames_round_trip {accepts : Nat → Nat} (haccepts : ∀ k, 0 < accepts k)
    {messages : List Frame} (hmessages : ∀ f ∈ messages, HostMessage f) :
    ∃ sink, writeFrameMessages accepts messages {} = .ok sink ∧
      ∀ chunks : List (List UInt8), chunks.flatten = sink.taken.flatten →
        readFramesChunks chunks = messages.map (fun f => (FrameHeader.ofFrame f, f.payload)) ∧
        (toQuicFramesChunks chunks).map (fun stream => readFrame (stream.1 ++ stream.2) .fin) =
          messages.map (fun f => .ok (FrameHeader.ofFrame f, f.payload, [])) := by
  obtain ⟨sink, hwrite, htaken⟩ := writeFrameMessages_spec haccepts messages {}
  refine ⟨sink, hwrite, ?_⟩
  intro chunks hchunks
  have hbytes : chunks.flatten = messages.flatMap Frame.bytes := by
    rw [hchunks, htaken]
    rfl
  constructor
  · rw [readFramesChunks_eq, hbytes]
    exact readFrames_flatMap fun f hf => (hmessages f hf).acceptable
  · rw [toQuicFramesChunks_eq, hbytes,
      toQuicFrames_flatMap fun f hf => (hmessages f hf).le_maxQuicFrame, List.map_map]
    apply List.map_congr_left
    intro f hf
    have hread := readFrame_bytes (hmessages f hf).acceptable [] .fin
    have hstream : f.header ++ f.payload = f.bytes := rfl
    rw [List.append_nil] at hread
    rw [Function.comp_apply, hstream, hread]

theorem host_frames_round_trip_small :
    ∃ sink, writeFrameMessages (fun _ => 5)
        [⟨0x01, 7, [0, 0, 1, 0x65], by decide, by decide⟩, ⟨0x02, 8, [0x7b], by decide, by decide⟩] {} =
          .ok sink ∧
      readFramesChunks sink.taken = [(⟨0x01, 7, 4⟩, [0, 0, 1, 0x65]), (⟨0x02, 8, 1⟩, [0x7b])] := by
  have hmessages : ∀ f ∈ [⟨0x01, 7, [0, 0, 1, 0x65], by decide, by decide⟩,
      ⟨0x02, 8, [0x7b], by decide, by decide⟩], HostMessage f := by
    intro f hf
    rw [List.mem_cons, List.mem_singleton] at hf
    rcases hf with rfl | rfl
    · refine ⟨by decide, by decide, ?_⟩
      show 4 ≤ 10 * 1024 * 1024
      omega
    · refine ⟨by decide, by decide, ?_⟩
      show 1 ≤ 10 * 1024 * 1024
      omega
  obtain ⟨sink, hwrite, hread⟩ := host_frames_round_trip (fun _ => Nat.succ_pos 4) hmessages
  exact ⟨sink, hwrite, (hread sink.taken rfl).1⟩

end Rustcast.Wire
