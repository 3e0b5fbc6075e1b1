import Rustcast.Core.Bytes
import Rustcast.Core.Parse

/-!
# Host frames on the wire

The format of all messages from a host to the relay: `[type u8][capture-ts µs u64 BE]
[length u32 BE][payload]`, as `frame_protocol.rs` of `flux-server` and `proto.rs` of
`flux-hostd` write it.

A `Frame` is one whose fields fit their width. `splitFrame` takes the bytes of one frame off
a stream. The format is a prefix code: how a stream of whole frames is cut into frames is
determined by its bytes.
-/

namespace Rustcast.Wire

open Bytes Parse

def frameHeaderLen : Nat := 13

def msgVideo : UInt8 := 0x01

def msgLogin : UInt8 := 0x06

/-- `frame_header`; the length is truncated to 32 bits. -/
def frameHeader (messageType : UInt8) (timestamp payloadLen : Nat) : List UInt8 :=
  messageType :: (beBytes 8 timestamp ++ beBytes 4 payloadLen)

def frameBytes (messageType : UInt8) (timestamp : Nat) (payload : List UInt8) : List UInt8 :=
  frameHeader messageType timestamp payload.length ++ payload

structure Frame where
  messageType : UInt8
  timestamp : Nat
  payload : List UInt8
  timestamp_lt : timestamp < 2 ^ 64
  length_lt : payload.length < 2 ^ 32

namespace Frame

def header (f : Frame) : List UInt8 := frameHeader f.messageType f.timestamp f.payload.length

def bytes (f : Frame) : List UInt8 := frameBytes f.messageType f.timestamp f.payload

@[simp] theorem length_header (f : Frame) : f.header.length = frameHeaderLen := by
  simp [header, frameHeader, frameHeaderLen]

theorem header_fields (f : Frame) : f.header.headD 0 = f.messageType ∧
    beNat ((f.header.drop 1).take 8) = f.timestamp ∧ beNat (f.header.drop 9) = f.payload.length := by
  have hdrop : f.header.drop 1 = beBytes 8 f.timestamp ++ beBytes 4 f.payload.length := rfl
  have hts : (beBytes 8 f.timestamp ++ beBytes 4 f.payload.length).take 8 = beBytes 8 f.timestamp :=
    List.take_left' (length_beBytes 8 _)
  have hlen : (beBytes 8 f.timestamp ++ beBytes 4 f.payload.length).drop 8 =
      beBytes 4 f.payload.length := List.drop_left' (length_beBytes 8 _)
  have hdrop9 : f.header.drop 9 = beBytes 4 f.payload.length := by
    rw [← hlen, ← hdrop, List.drop_drop]
  refine ⟨rfl, ?_, ?_⟩
  · rw [hdrop, hts]
    exact beNat_beBytes f.timestamp_lt
  · rw [hdrop9]
    exact beNat_beBytes f.length_lt

theorem bytes_ne_nil (f : Frame) : f.bytes ≠ [] := by
  simp [bytes, frameBytes, frameHeader]

end Frame

/-! ## Cutting a stream -/

/-- Header and payload of the frame at the front of the stream, if it is complete. -/
def splitFrame (bytes : List UInt8) : Option ((List UInt8 × List UInt8) × List UInt8) := do
  let (hdr, rest) ← readExact frameHeaderLen bytes
  let (payload, rest) ← readExact (beNat (hdr.drop 9)) rest
  some ((hdr, payload), rest)

variable {bytes a b : List UInt8}

theorem splitFrame_eq_some {hdr payload rest : List UInt8}
    (h : splitFrame bytes = some ((hdr, payload), rest)) :
    hdr.length = frameHeaderLen ∧ payload.length = beNat (hdr.drop 9) ∧
      bytes = hdr ++ (payload ++ rest) := by
  simp only [splitFrame, Option.bind_eq_bind, Option.bind_eq_some_iff, Prod.exists] at h
  obtain ⟨hdr', mid, hhdr, payload', rest', hpayload, heq⟩ := h
  cases heq
  obtain ⟨hlen, rfl⟩ := readExact_eq_some.mp hhdr
  obtain ⟨hplen, rfl⟩ := readExact_eq_some.mp hpayload
  exact ⟨hlen, hplen, rfl⟩

theorem splitFrame_of_parts {hdr payload : List UInt8} (hlen : hdr.length = frameHeaderLen)
    (hpayload : payload.length = beNat (hdr.drop 9)) (rest : List UInt8) :
    splitFrame (hdr ++ (payload ++ rest)) = some ((hdr, payload), rest) := by
  have hread : readExact frameHeaderLen (hdr ++ (payload ++ rest)) = some (hdr, payload ++ rest) := by
    rw [← hlen]
    exact readExact_append _ _
  have hread' : readExact (beNat (hdr.drop 9)) (payload ++ rest) = some (payload, rest) := by
    rw [← hpayload]
    exact readExact_append _ _
  simp [splitFrame, hread, hread']

theorem Frame.splitFrame_bytes (f : Frame) (rest : List UInt8) :
    splitFrame (f.bytes ++ rest) = some ((f.header, f.payload), rest) := by
  have hbytes : f.bytes ++ rest = f.header ++ (f.payload ++ rest) := List.append_assoc _ _ _
  rw [hbytes]
  exact splitFrame_of_parts f.length_header f.header_fields.2.2.symm rest

theorem consuming_splitFrame : Consuming splitFrame := by
  rintro bytes ⟨hdr, payload⟩ rest h
  obtain ⟨hlen, -, rfl⟩ := splitFrame_eq_some h
  simp only [List.length_append, hlen, frameHeaderLen]
  omega

/-- The complete frames of a stream, each as its header and its payload. -/
def framesOf (bytes : List UInt8) : List (List UInt8 × List UInt8) := readAll splitFrame bytes

def Matching (frame : List UInt8 × List UInt8) : Prop :=
  frame.1.length = frameHeaderLen ∧ frame.2.length = beNat (frame.1.drop 9)

/-- Complete frames are read back, and then what follows them. -/
theorem framesOf_append {frames : List (List UInt8 × List UInt8)} (h : ∀ f ∈ frames, Matching f)
    (rest : List UInt8) :
    framesOf (frames.flatMap (fun f => f.1 ++ f.2) ++ rest) = frames ++ framesOf rest := by
  have hread : framesOf (frames.flatMap (fun f => f.1 ++ f.2) ++ rest) =
      frames.map id ++ framesOf rest := by
    refine readAll_flatMap consuming_splitFrame (fun f hf rest => ?_) rest
    rw [List.append_assoc]
    exact splitFrame_of_parts (h f hf).1 (h f hf).2 rest
  rw [hread, List.map_id]

theorem framesOf_eq_nil : framesOf bytes = [] ↔ splitFrame bytes = none := by
  constructor
  · intro h
    cases hsplit : splitFrame bytes with
    | none => rfl
    | some result =>
      rw [framesOf, readAll_of_some consuming_splitFrame hsplit] at h
      cases h
  · exact readAll_of_none

/-! ## Streams of whole frames -/

def Whole (bytes : List UInt8) : Prop := ∃ frames : List Frame, bytes = frames.flatMap Frame.bytes

theorem whole_nil : Whole [] := ⟨[], rfl⟩

theorem Whole.append (ha : Whole a) (hb : Whole b) : Whole (a ++ b) := by
  obtain ⟨fs, rfl⟩ := ha
  obtain ⟨gs, rfl⟩ := hb
  exact ⟨fs ++ gs, by simp⟩

theorem Frame.whole_bytes (f : Frame) : Whole f.bytes := ⟨[f], by simp⟩

/-- A stream of whole frames is the concatenation of what is read from it. -/
theorem Whole.framesOf_flatten (h : Whole bytes) :
    (framesOf bytes).flatMap (fun f => f.1 ++ f.2) = bytes := by
  obtain ⟨frames, rfl⟩ := h
  have hmatching : ∀ f ∈ frames.map (fun f => (f.header, f.payload)), Matching f := by
    intro f hf
    obtain ⟨frame, -, rfl⟩ := List.mem_map.mp hf
    exact ⟨frame.length_header, frame.header_fields.2.2.symm⟩
  have hread := framesOf_append hmatching []
  have hbytes : (frames.map fun f => (f.header, f.payload)).flatMap (fun f => f.1 ++ f.2) =
      frames.flatMap Frame.bytes := by
    rw [List.flatMap_map]
    rfl
  rw [hbytes, framesOf_eq_nil.mpr consuming_splitFrame.next_nil, List.append_nil, List.append_nil] at hread
  rw [hread, hbytes]

/-- Two streams of frames that begin with the same bytes begin with the same frame. -/
theorem Frame.bytes_append_inj {f g : Frame} (h : f.bytes ++ a = g.bytes ++ b) :
    f.bytes = g.bytes ∧ a = b := by
  have hf := f.splitFrame_bytes a
  rw [h, g.splitFrame_bytes b] at hf
  obtain ⟨hparts, hrest⟩ := Prod.mk.inj (Option.some.inj hf)
  obtain ⟨hheader, hpayload⟩ := Prod.mk.inj hparts
  refine ⟨?_, hrest.symm⟩
  show f.header ++ f.payload = g.header ++ g.payload
  rw [hheader, hpayload]

/-- Behind whole frames, a stream of whole frames goes on with whole frames. -/
theorem Whole.of_append (ha : Whole a) (hab : Whole (a ++ b)) : Whole b := by
  obtain ⟨fs, rfl⟩ := ha
  induction fs with
  | nil => simpa using hab
  | cons f fs ih =>
    obtain ⟨gs, hgs⟩ := hab
    rw [List.flatMap_cons, List.append_assoc] at hgs
    cases gs with
    | nil =>
      have hnil := (List.append_eq_nil_iff.mp hgs).1
      exact absurd hnil f.bytes_ne_nil
    | cons g gs =>
      exact ih ⟨gs, (Frame.bytes_append_inj hgs).2⟩

/-- The first `n` bytes of a stream of frames are whole frames exactly at a boundary. -/
theorem whole_prefix_iff {frames : List Frame} (h : a ++ b = frames.flatMap Frame.bytes) :
    Whole a ↔ ∃ k ≤ frames.length, a = (frames.take k).flatMap Frame.bytes := by
  constructor
  · rintro ⟨gs, rfl⟩
    induction gs generalizing frames with
    | nil => exact ⟨0, Nat.zero_le _, rfl⟩
    | cons g gs ih =>
      cases frames with
      | nil =>
        rw [List.flatMap_cons, List.append_assoc] at h
        exact absurd (List.append_eq_nil_iff.mp h).1 g.bytes_ne_nil
      | cons f frames =>
        rw [List.flatMap_cons, List.append_assoc] at h
        obtain ⟨hhead, htail⟩ := Frame.bytes_append_inj h
        obtain ⟨k, hk, heq⟩ := ih htail
        refine ⟨k + 1, Nat.succ_le_succ hk, ?_⟩
        rw [List.take_succ_cons, List.flatMap_cons, List.flatMap_cons, hhead, heq]
  · rintro ⟨k, -, rfl⟩
    exact ⟨frames.take k, rfl⟩

end Rustcast.Wire
