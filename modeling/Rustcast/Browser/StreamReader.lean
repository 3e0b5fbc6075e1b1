import Mathlib.Algebra.Group.Int.Defs
import Mathlib.Algebra.Ring.Nat
import Rustcast.Core.Bytes

/-!
# Reading a stream in the browser

`BufferedByteReader` and `parseVideoFrameHeader` of `flux-web/ui/lib/wt-framing.ts`, and the header
that `encodeVideoFrameHeader` of the relay's `upstream.go` puts before a video frame.

A reader keeps the chunks it has got, partly consumed, with a byte counter beside them. What a
caller can still read is `available`: these chunks and then the rest of the stream. Each call of
`readExactly` takes its bytes off the front of `available` or leaves it as it is, so the chunks do not
matter.
-/

namespace Rustcast.Relay

open Bytes

def streamVideo : UInt8 := 0x01

/-- `encodeVideoFrameHeader`: 18 bytes, with the length of the payload truncated to 32 bits. -/
def encodeVideoFrameHeader (seq : UInt32) (tsMicros : UInt64) (payloadLen : Nat) (keyframe : Bool) :
    List UInt8 :=
  streamVideo :: (beBytes 4 seq.toNat ++ (beBytes 8 tsMicros.toNat ++
    ((if keyframe then 1 else 0) :: beBytes 4 (payloadLen % 2 ^ 32))))

end Rustcast.Relay

namespace Rustcast.Browser

open Bytes Relay

/-! ## The buffered reader -/

def maxSafeInteger : Int := 2 ^ 53 - 1

inductive ReadError where
  | rangeError (message : String)
  /-- `chunks[0]` is `undefined` -/
  | typeError
  deriving DecidableEq

structure BufferedByteReader where
  chunks : List (List UInt8) := []
  bufferedBytes : Nat := 0
  ended : Bool := false
  /-- what `reader.read()` will return as `value`, before it is done -/
  incoming : List (Option (List UInt8))
  deriving DecidableEq

def bytesOf (incoming : List (Option (List UInt8))) : List UInt8 :=
  incoming.flatMap fun value => value.getD []

namespace BufferedByteReader

/-- The loop that reads until `length` bytes are buffered, of a reader that has not ended. -/
def fill (length : Nat) (chunks : List (List UInt8)) (bufferedBytes : Nat) :
    List (Option (List UInt8)) → BufferedByteReader
  | [] => { chunks, bufferedBytes, ended := decide (bufferedBytes < length), incoming := [] }
  | next :: incoming =>
    if bufferedBytes < length then
      let value := next.getD []
      if value.length ≠ 0 then
        fill length (chunks ++ [value]) (bufferedBytes + value.length) incoming
      else fill length chunks bufferedBytes incoming
    else { chunks, bufferedBytes, ended := false, incoming := next :: incoming }

def filled (r : BufferedByteReader) (length : Nat) : BufferedByteReader :=
  if r.ended then r else fill length r.chunks r.bufferedBytes r.incoming

/-- The loop that copies, with `missing` bytes to go: the bytes, the chunks that are left and the
counter. -/
def copyOut : (missing bufferedBytes : Nat) → (chunks : List (List UInt8)) →
    Option (List UInt8 × List (List UInt8) × Nat)
  | 0, bufferedBytes, chunks => some ([], chunks, bufferedBytes)
  | _ + 1, _, [] => none
  | missing + 1, bufferedBytes, first :: chunks =>
    let count := min first.length (missing + 1)
    if count = first.length then do
      let (result, chunks, bufferedBytes) ←
        copyOut (missing + 1 - count) (bufferedBytes - count) chunks
      some (first.take count ++ result, chunks, bufferedBytes)
    -- the chunk has more than what is missing, so the loop ends
    else some (first.take count, first.drop count :: chunks, bufferedBytes - count)

def readExactly (r : BufferedByteReader) (length : Int) :
    Except ReadError (List UInt8) × BufferedByteReader :=
  if length < 0 ∨ maxSafeInteger < length then (.error (.rangeError "invalid read length"), r)
  else
    let r := r.filled length.toNat
    if r.bufferedBytes < length.toNat then
      (.error (.rangeError "stream ended before frame completed"), r)
    else
      match copyOut length.toNat r.bufferedBytes r.chunks with
      | none => (.error .typeError, r)
      | some (result, chunks, bufferedBytes) => (.ok result, { r with chunks, bufferedBytes })

/-- Successive calls, each after the one before has settled. -/
def readEach (r : BufferedByteReader) :
    List Nat → List (Except ReadError (List UInt8)) × BufferedByteReader
  | [] => ([], r)
  | length :: lengths =>
    let (result, r) := r.readExactly length
    let (results, r) := readEach r lengths
    (result :: results, r)

end BufferedByteReader

structure VideoFrameHeader where
  seq : UInt32
  captureTimestampUs : UInt64
  keyframe : Bool
  payloadLength : UInt32
  deriving DecidableEq

def parseVideoFrameHeader (header : List UInt8) : Except ReadError VideoFrameHeader :=
  if header.length ≠ 17 then .error (.rangeError "invalid video frame header length")
  else .ok {
    seq := UInt32.ofNat (beNat (header.take 4))
    captureTimestampUs := UInt64.ofNat (beNat ((header.drop 4).take 8))
    keyframe := (header.getD 12 0) &&& 1 != 0
    payloadLength := UInt32.ofNat (beNat ((header.drop 13).take 4)) }

open BufferedByteReader

/-! ## What is available -/

variable {length bufferedBytes : Nat} {chunks : List (List UInt8)}

namespace BufferedByteReader

def available (r : BufferedByteReader) : List UInt8 := r.chunks.flatten ++ bytesOf r.incoming

structure Inv (r : BufferedByteReader) : Prop where
  /-- the counter is right -/
  bufferedBytes_eq : r.bufferedBytes = r.chunks.flatten.length
  incoming_of_ended : r.ended = true → r.incoming = []

variable {r : BufferedByteReader}

theorem inv_new (incoming : List (Option (List UInt8))) : Inv { incoming } where
  bufferedBytes_eq := rfl
  incoming_of_ended := by simp

theorem available_new (incoming : List (Option (List UInt8))) :
    available { incoming } = bytesOf incoming := rfl

/-- The reading loop keeps what is available, and stops with enough bytes or at the end. -/
theorem fill_spec {incoming : List (Option (List UInt8))} (h : bufferedBytes = chunks.flatten.length) :
    (fill length chunks bufferedBytes incoming).Inv ∧
      (fill length chunks bufferedBytes incoming).available = chunks.flatten ++ bytesOf incoming ∧
      ((fill length chunks bufferedBytes incoming).bufferedBytes < length →
        (fill length chunks bufferedBytes incoming).incoming = []) := by
  induction incoming generalizing chunks bufferedBytes with
  | nil => exact ⟨⟨h, fun _ => rfl⟩, rfl, fun _ => rfl⟩
  | cons next incoming ih =>
    rw [fill]
    by_cases hmissing : bufferedBytes < length
    · rw [if_pos hmissing]
      have hbytes : bytesOf (next :: incoming) = next.getD [] ++ bytesOf incoming := by
        simp [bytesOf]
      -- an empty chunk or a read without a value is not pushed, and adds no bytes either
      by_cases hvalue : (next.getD []).length ≠ 0
      · rw [if_pos hvalue]
        have hpush : bufferedBytes + (next.getD []).length =
            (chunks ++ [next.getD []]).flatten.length := by
          simp [h]
        have hrest := ih hpush
        rw [hbytes]
        simpa using hrest
      · have hempty : next.getD [] = [] := by simpa using hvalue
        rw [hbytes, hempty]
        exact ih h
    · rw [if_neg hmissing]
      exact ⟨⟨h, by simp⟩, rfl, fun hlt => absurd hlt hmissing⟩

theorem copyOut_spec {missing : Nat} (h : bufferedBytes = chunks.flatten.length)
    (hle : missing ≤ bufferedBytes) :
    ∃ left, copyOut missing bufferedBytes chunks =
        some (chunks.flatten.take missing, left, bufferedBytes - missing) ∧
      left.flatten = chunks.flatten.drop missing := by
  induction chunks generalizing missing bufferedBytes with
  | nil =>
    have hzero : missing = 0 := by
      simp at h
      omega
    subst hzero
    exact ⟨[], rfl, rfl⟩
  | cons first chunks ih =>
    cases missing with
    | zero => exact ⟨first :: chunks, rfl, rfl⟩
    | succ missing =>
      rw [List.flatten_cons, List.length_append] at h
      rw [copyOut, List.flatten_cons]
      by_cases hall : min first.length (missing + 1) = first.length
      · -- the first chunk is used up, and the rest comes from the others
        have hfirst : first.length ≤ missing + 1 := by omega
        have hlen : bufferedBytes - first.length = chunks.flatten.length := by omega
        have hmissing : missing + 1 - first.length ≤ bufferedBytes - first.length := by omega
        obtain ⟨left, hcopy, hleft⟩ := ih hlen hmissing
        refine ⟨left, ?_, ?_⟩
        · rw [hall, hcopy]
          have hcount : bufferedBytes - first.length - (missing + 1 - first.length) =
              bufferedBytes - (missing + 1) := by omega
          simp [List.take_append, List.take_of_length_le hfirst, hcount]
        · rw [hleft, List.drop_append, List.drop_of_length_le hfirst, List.nil_append]
      · -- the first chunk has more than enough
        have hfirst : missing + 1 ≤ first.length := by omega
        have hcount : min first.length (missing + 1) = missing + 1 := by omega
        refine ⟨first.drop (missing + 1) :: chunks, ?_, ?_⟩
        · rw [if_neg hall, hcount, List.take_append_of_le_length hfirst]
        · rw [List.flatten_cons, List.drop_append_of_le_length hfirst]

theorem Inv.filled (h : r.Inv) (length : Nat) : (r.filled length).Inv ∧
    (r.filled length).available = r.available ∧
    ((r.filled length).bufferedBytes < length ↔ r.available.length < length) := by
  have hspec : (r.filled length).Inv ∧ (r.filled length).available = r.available ∧
      ((r.filled length).bufferedBytes < length → (r.filled length).incoming = []) := by
    unfold BufferedByteReader.filled
    by_cases hended : r.ended = true
    · rw [if_pos hended]
      exact ⟨h, rfl, fun _ => h.incoming_of_ended hended⟩
    · rw [if_neg hended]
      exact fill_spec h.bufferedBytes_eq
  obtain ⟨hinv, havailable, hstop⟩ := hspec
  refine ⟨hinv, havailable, ?_⟩
  -- too few bytes are buffered only if nothing else is to come
  have hlen : (r.filled length).bufferedBytes + (bytesOf (r.filled length).incoming).length =
      r.available.length := by
    rw [← havailable, available, List.length_append, hinv.bufferedBytes_eq]
  constructor
  · intro hlt
    have hnone : (bytesOf (r.filled length).incoming).length = 0 := by
      rw [hstop hlt]
      rfl
    omega
  · omega

theorem readExactly_of_le (h : r.Inv) (hsafe : (length : Int) ≤ maxSafeInteger)
    (hle : length ≤ r.available.length) :
    ∃ r', r.readExactly length = (.ok (r.available.take length), r') ∧ r'.Inv ∧
      r'.available = r.available.drop length := by
  obtain ⟨hinv, havailable, henough⟩ := h.filled length
  have hbuffered : length ≤ (r.filled length).bufferedBytes := by omega
  obtain ⟨left, hcopy, hleft⟩ := copyOut_spec hinv.bufferedBytes_eq hbuffered
  have hflat : length ≤ (r.filled length).chunks.flatten.length := by
    rw [← hinv.bufferedBytes_eq]
    exact hbuffered
  refine ⟨{ r.filled length with
    chunks := left, bufferedBytes := (r.filled length).bufferedBytes - length }, ?_, ?_, ?_⟩
  · have hvalid : ¬ ((length : Int) < 0 ∨ maxSafeInteger < length) := by omega
    have htake : (r.filled length).chunks.flatten.take length = r.available.take length := by
      rw [← havailable, available, List.take_append_of_le_length hflat]
    rw [htake] at hcopy
    unfold readExactly
    rw [if_neg hvalid, Int.toNat_natCast]
    simp only [hcopy]
    exact if_neg (by omega)
  · refine ⟨?_, hinv.incoming_of_ended⟩
    rw [hleft, List.length_drop, hinv.bufferedBytes_eq]
  · show left.flatten ++ bytesOf (r.filled length).incoming = _
    rw [hleft, ← havailable, available, List.drop_append_of_le_length hflat]

theorem readExactly_of_lt (h : r.Inv) (hlt : r.available.length < length) :
    ∃ message r', r.readExactly length = (.error (.rangeError message), r') ∧ r'.Inv ∧
      r'.available = r.available := by
  obtain ⟨hinv, havailable, henough⟩ := h.filled length
  unfold readExactly
  by_cases hinvalid : (length : Int) < 0 ∨ maxSafeInteger < length
  · rw [if_pos hinvalid]
    exact ⟨_, r, rfl, h, rfl⟩
  · rw [if_neg hinvalid, Int.toNat_natCast]
    refine ⟨"stream ended before frame completed", r.filled length, ?_, hinv, havailable⟩
    exact if_pos (by omega)

end BufferedByteReader

/-! ## Slices -/

/-- The consecutive slices of the given lengths. -/
def slices : List Nat → List UInt8 → List (List UInt8)
  | [], _ => []
  | length :: lengths, bytes => bytes.take length :: slices lengths (bytes.drop length)

namespace BufferedByteReader

variable {r : BufferedByteReader}

theorem readEach_slices (h : r.Inv) {lengths : List Nat}
    (hsafe : ∀ length ∈ lengths, (length : Int) ≤ maxSafeInteger)
    (hsum : lengths.sum ≤ r.available.length) :
    ∃ r', r.readEach lengths = ((slices lengths r.available).map .ok, r') ∧ r'.Inv ∧
      r'.available = r.available.drop lengths.sum := by
  induction lengths generalizing r with
  | nil => exact ⟨r, rfl, h, rfl⟩
  | cons length lengths ih =>
    rw [List.sum_cons] at hsum
    obtain ⟨r₁, hread, hinv, havailable⟩ := readExactly_of_le h (hsafe length List.mem_cons_self) (by omega)
    have hrest : lengths.sum ≤ r₁.available.length := by
      rw [havailable, List.length_drop]
      omega
    obtain ⟨r₂, heach, hinv₂, havailable₂⟩ :=
      ih hinv (fun n hn => hsafe n (List.mem_cons_of_mem _ hn)) hrest
    refine ⟨r₂, ?_, hinv₂, ?_⟩
    · rw [readEach, hread]
      simp only [heach, slices, havailable, List.map_cons]
    · rw [havailable₂, havailable, List.drop_drop, List.sum_cons]

end BufferedByteReader

/-! ## The video header -/

/-- The header behind the byte for the kind of the stream. -/
theorem parseVideoFrameHeader_encode (seq : UInt32) (tsMicros : UInt64) (payloadLen : UInt32)
    (keyframe : Bool) :
    parseVideoFrameHeader (encodeVideoFrameHeader seq tsMicros payloadLen.toNat keyframe).tail =
      .ok { seq, captureTimestampUs := tsMicros, keyframe, payloadLength := payloadLen } := by
  set seqBytes := beBytes 4 seq.toNat
  set tsBytes := beBytes 8 tsMicros.toNat
  set lenBytes := beBytes 4 (payloadLen.toNat % 2 ^ 32) with hlen
  set flag : UInt8 := if keyframe then 1 else 0 with hflag
  have htail : (encodeVideoFrameHeader seq tsMicros payloadLen.toNat keyframe).tail =
      seqBytes ++ (tsBytes ++ (flag :: lenBytes)) := rfl
  have hseqLen : seqBytes.length = 4 := length_beBytes 4 _
  have htsLen : tsBytes.length = 8 := length_beBytes 8 _
  have hlenLen : lenBytes.length = 4 := length_beBytes 4 _
  have hdrop4 : (seqBytes ++ (tsBytes ++ (flag :: lenBytes))).drop 4 = tsBytes ++ (flag :: lenBytes) :=
    List.drop_left' hseqLen
  have hdrop13 : (seqBytes ++ (tsBytes ++ (flag :: lenBytes))).drop 13 = lenBytes := by
    rfl
  have hflagAt : (seqBytes ++ (tsBytes ++ (flag :: lenBytes))).getD 12 0 = flag := by
    rfl
  have hseqVal : beNat seqBytes = seq.toNat := beNat_beBytes seq.toNat_lt
  have htsVal : beNat tsBytes = tsMicros.toNat := beNat_beBytes tsMicros.toNat_lt
  have hlenVal : beNat lenBytes = payloadLen.toNat := by
    rw [hlen, Nat.mod_eq_of_lt payloadLen.toNat_lt]
    exact beNat_beBytes payloadLen.toNat_lt
  have hkeyframe : (flag &&& 1 != 0) = keyframe := by
    cases keyframe <;> decide
  rw [htail, parseVideoFrameHeader, if_neg (by simp [hseqLen, htsLen, hlenLen]), hflagAt, hdrop13,
    hdrop4, List.take_left' hseqLen, List.take_left' htsLen, List.take_of_length_le (by omega),
    hseqVal, htsVal, hlenVal, hkeyframe, UInt32.ofNat_toNat, UInt64.ofNat_toNat, UInt32.ofNat_toNat]

theorem length_encodeVideoFrameHeader (seq : UInt32) (tsMicros : UInt64) (payloadLen : Nat)
    (keyframe : Bool) : (encodeVideoFrameHeader seq tsMicros payloadLen keyframe).length = 18 := by
  simp [encodeVideoFrameHeader]

/-- The header at the front of a stream is read as the kind of the stream and 17 bytes. -/
theorem slices_videoHeader (seq : UInt32) (tsMicros : UInt64) (payloadLen : Nat) (keyframe : Bool)
    (rest : List UInt8) :
    slices [1, 17] (encodeVideoFrameHeader seq tsMicros payloadLen keyframe ++ rest) =
      [[streamVideo], (encodeVideoFrameHeader seq tsMicros payloadLen keyframe).tail] := by
  have htail : (encodeVideoFrameHeader seq tsMicros payloadLen keyframe).tail.length = 17 := by
    rw [List.length_tail, length_encodeVideoFrameHeader]
  have hcons : encodeVideoFrameHeader seq tsMicros payloadLen keyframe =
      streamVideo :: (encodeVideoFrameHeader seq tsMicros payloadLen keyframe).tail := rfl
  rw [hcons]
  simp only [slices, List.cons_append, List.take_succ_cons, List.take_zero, List.drop_succ_cons,
    List.drop_zero, List.tail_cons]
  rw [List.take_left' htail]

/-! ## Framing -/

/-- Successive reads return the slices of the stream however it is cut into chunks, a read past
the end fails, and the relay's video header is read back. -/
theorem browser_stream_framing :
    (∀ (incoming : List (Option (List UInt8))) (lengths : List Nat),
      (∀ length ∈ lengths, (length : Int) ≤ maxSafeInteger) →
      lengths.sum ≤ (bytesOf incoming).length →
      ∃ r, BufferedByteReader.readEach { incoming } lengths =
          ((slices lengths (bytesOf incoming)).map .ok, r) ∧
        r.available = (bytesOf incoming).drop lengths.sum ∧
        ∀ length : Nat, r.available.length < length →
          ∃ message r', r.readExactly length = (.error (.rangeError message), r') ∧
            r'.available = r.available) ∧
    ∀ (incoming : List (Option (List UInt8))) (seq : UInt32) (tsMicros : UInt64) (payloadLen : UInt32)
      (keyframe : Bool) (rest : List UInt8),
      bytesOf incoming = encodeVideoFrameHeader seq tsMicros payloadLen.toNat keyframe ++ rest →
      ∃ header r, BufferedByteReader.readEach { incoming } [1, 17] =
          ([.ok [streamVideo], .ok header], r) ∧
        parseVideoFrameHeader header =
          .ok { seq, captureTimestampUs := tsMicros, keyframe, payloadLength := payloadLen } ∧
        r.available = rest := by
  constructor
  · intro incoming lengths hsafe hsum
    obtain ⟨r, heach, hinv, havailable⟩ :=
      readEach_slices (inv_new incoming) hsafe hsum
    refine ⟨r, heach, havailable, ?_⟩
    intro length hlt
    obtain ⟨message, r', hread, -, hkept⟩ := BufferedByteReader.readExactly_of_lt hinv hlt
    exact ⟨message, r', hread, hkept⟩
  · intro incoming seq tsMicros payloadLen keyframe rest hbytes
    have hheader := length_encodeVideoFrameHeader seq tsMicros payloadLen.toNat keyframe
    have hsum : [1, 17].sum ≤ (bytesOf incoming).length := by
      rw [hbytes, List.length_append]
      show 18 ≤ _
      omega
    have hsafe : ∀ length ∈ [1, 17], ((length : Nat) : Int) ≤ maxSafeInteger := by decide
    obtain ⟨r, heach, -, havailable⟩ :=
      readEach_slices (inv_new incoming) hsafe hsum
    rw [BufferedByteReader.available_new, hbytes] at heach havailable
    rw [slices_videoHeader] at heach
    refine ⟨_, r, heach, parseVideoFrameHeader_encode seq tsMicros payloadLen keyframe, ?_⟩
    rw [havailable]
    exact List.drop_left' hheader

theorem browser_stream_framing_chunks :
    ∃ r, BufferedByteReader.readEach { incoming := [some [1, 2, 3], none, some [], some [4, 5]] }
        [2, 2] = ([.ok [1, 2], .ok [3, 4]], r) ∧ r.available = [5] := by
  obtain ⟨r, heach, havailable, -⟩ := browser_stream_framing.1
    [some [1, 2, 3], none, some [], some [4, 5]] [2, 2] (by decide) (by decide)
  exact ⟨r, heach, havailable⟩

end Rustcast.Browser
