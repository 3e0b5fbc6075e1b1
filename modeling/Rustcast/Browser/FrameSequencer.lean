import Rustcast.Core.OrderedMap
import Rustcast.Core.SeqNum

/-!
# The browser's `FrameSequencer`

`flux-web/ui/lib/frame-sequencer.ts`: video frames arrive on separate QUIC streams in any
order and leave in decode order. The class buffers deltas that arrive early, moves past
frames that were lost (`markLost`) or did not come in time (`expire`), and holds deltas
back until the next keyframe after every hole.

Times are values of an arbitrary type `T` with a subtraction and a decidable order:
nothing below uses a law of either, so the results hold for the floating-point
milliseconds of `performance.now()` as for any other clock.

Three fields are history variables that no method reads: `position` unwraps `expected` to
an unbounded counter, `moves` lists the forward moves it was built from, `emitted` pairs
each emitted frame with the counter's value at that moment.
-/

namespace Rustcast.Browser

open SeqNum

structure EncodedFrame (T : Type) where
  seq : UInt32
  keyframe : Bool
  data : List UInt8
  receivedAt : T
  captureTimestampUs : Option Nat := none
  arrivalOrdinal : Option Nat := none
  deriving DecidableEq

structure SequenceResult (T : Type) where
  ready : List (EncodedFrame T) := []
  dropped : Nat := 0
  awaitingKeyframe : Nat := 0
  requestKeyframe : Bool := false
  deriving DecidableEq

structure FrameSequencer (T : Type) where
  expected : Option UInt32 := none
  waitingForKeyframe : Bool := true
  gapSince : Option T := none
  buffered : OrderedMap UInt32 (EncodedFrame T) := .empty
  gapTimeoutMs : T
  maxBufferedFrames : Nat := 256
  position : Nat := 0
  moves : List Nat := []
  emitted : List (Nat × EncodedFrame T) := []

/-- `sequenceDistance`: `(seq - expected) >>> 0`. -/
def sequenceDistance (seq expected : UInt32) : Nat := dist seq expected

namespace FrameSequencer

variable {T : Type}

/-- The assignment `this.expected = e`. The first one starts the unwrapped counter at `e`,
every later one advances it by the forward distance from the old value. -/
def setExpected (s : FrameSequencer T) (e : UInt32) : FrameSequencer T :=
  match s.expected with
  | none => { s with expected := some e, position := e.toNat }
  | some old =>
    { s with
      expected := some e
      position := s.position + sequenceDistance e old
      moves := s.moves ++ [sequenceDistance e old] }

def consume (s : FrameSequencer T) (result : SequenceResult T) (frame : EncodedFrame T) :
    FrameSequencer T × SequenceResult T :=
  if s.waitingForKeyframe && !frame.keyframe then
    (s.setExpected (frame.seq + 1),
      { result with
        dropped := result.dropped + 1
        awaitingKeyframe := result.awaitingKeyframe + 1
        requestKeyframe := true })
  else
    let s := { s with
      waitingForKeyframe := if frame.keyframe then false else s.waitingForKeyframe
      emitted := s.emitted ++ [(s.position, frame)] }
    (s.setExpected (frame.seq + 1), { result with ready := result.ready ++ [frame] })

/-- The loop of `drain`. Each round deletes a buffered frame, so the size of the buffer
is enough fuel (`drainLoop_get?`). -/
def drainLoop : Nat → FrameSequencer T → SequenceResult T → FrameSequencer T × SequenceResult T
  | 0, s, result => (s, result)
  | fuel + 1, s, result =>
    match s.expected with
    | none => (s, result)
    | some expected =>
      match s.buffered.get? expected with
      | none => (s, result)
      | some next =>
        let s := { s with buffered := s.buffered.delete expected }
        let (s, result) := s.consume result next
        drainLoop fuel s result

def drain (s : FrameSequencer T) (result : SequenceResult T) (now : T) :
    FrameSequencer T × SequenceResult T :=
  let (s, result) := drainLoop s.buffered.size s result
  ({ s with gapSince := if s.buffered.size ≠ 0 then some (s.gapSince.getD now) else none }, result)

def nextBuffered (s : FrameSequencer T) : Option (EncodedFrame T) :=
  match s.expected with
  | none => none
  | some expected =>
    (s.buffered.values.foldl (fun (nearest : Nat × Option (EncodedFrame T)) frame =>
      let distance := sequenceDistance frame.seq expected
      if distance < nearest.1 then (distance, some frame) else nearest) (0xffffffff, none)).2

/-- Whether a buffered key is not after the keyframe `seq`: the loops of `push` delete
these keys when a keyframe arrives. -/
def superseded (seq key : UInt32) : Bool := key = seq || half ≤ sequenceDistance key seq

/-- The deletion loop of `push`, with the number of deleted entries. -/
def dropSuperseded (s : FrameSequencer T) (seq : UInt32) : FrameSequencer T × Nat :=
  ({ s with buffered := s.buffered.filter fun x => !superseded seq x.1 },
    s.buffered.entries.countP fun x => superseded seq x.1)

def push (s : FrameSequencer T) (frame : EncodedFrame T) (now : T) : FrameSequencer T × SequenceResult T :=
  match s.expected with
  | none =>
    -- nothing was returned yet: delta frames wait for the first keyframe
    if !frame.keyframe then
      if s.buffered.size ≥ s.maxBufferedFrames then
        (s, { dropped := 1, awaitingKeyframe := 1, requestKeyframe := true })
      else
        ({ s with buffered := s.buffered.set frame.seq frame }, {})
    else
      let (s, deleted) := s.dropSuperseded frame.seq
      let s := { s.setExpected frame.seq with gapSince := none, waitingForKeyframe := false }
      let (s, result) := s.consume { dropped := deleted, awaitingKeyframe := deleted } frame
      s.drain result now
  | some expected =>
    let distance := sequenceDistance frame.seq expected
    -- behind the expected frame: a duplicate, or too late
    if half ≤ distance then
      (s, { dropped := 1 })
    -- a keyframe jumps over the gap in front of it
    else if frame.keyframe then
      let (s, deleted) := s.dropSuperseded frame.seq
      let s := { s.setExpected frame.seq with gapSince := none, waitingForKeyframe := false }
      let (s, result) := s.consume { dropped := deleted + distance } frame
      s.drain result now
    else if 0 < distance then
      if s.buffered.size ≥ s.maxBufferedFrames then
        (s, { dropped := 1, requestKeyframe := true })
      else
        ({ s with
          buffered := s.buffered.set frame.seq frame
          gapSince := some (s.gapSince.getD now) }, {})
    else
      let (s, result) := s.consume {} frame
      s.drain result now

def markLost (s : FrameSequencer T) (seq : UInt32) (now : T) : FrameSequencer T × SequenceResult T :=
  match s.expected with
  | none => (s, { requestKeyframe := true })
  | some expected =>
    let distance := sequenceDistance seq expected
    if half ≤ distance then (s, {})
    -- a later frame is lost: the gap timer finds out when its turn comes
    else if 0 < distance then ({ s with gapSince := some (s.gapSince.getD now) }, {})
    else
      let s := { s.setExpected (expected + 1) with waitingForKeyframe := true }
      s.drain { dropped := 1, requestKeyframe := true } now

/-- The `while (this.buffered.size)` loop of `expire`; again each round deletes a frame. -/
def expireLoop : Nat → FrameSequencer T → SequenceResult T → T →
    FrameSequencer T × SequenceResult T
  | 0, s, result, _ => (s, result)
  | fuel + 1, s, result, now =>
    if s.buffered.size = 0 then (s, result)
    else
      match s.nextBuffered with
      | none => (s, result)
      | some next =>
        let distance := match s.expected with
          | none => 0
          | some expected => sequenceDistance next.seq expected
        -- the frames up to the nearest buffered one are given up
        let (s, result) :=
          if distance < half ∧ 0 < distance then
            ({ s.setExpected next.seq with waitingForKeyframe := true },
              { result with dropped := result.dropped + distance, requestKeyframe := true })
          else (s, result)
        let s := { s with buffered := s.buffered.delete next.seq }
        if s.waitingForKeyframe && !next.keyframe then
          expireLoop fuel (s.setExpected (next.seq + 1))
            { result with
              dropped := result.dropped + 1
              awaitingKeyframe := result.awaitingKeyframe + 1
              requestKeyframe := true } now
        else
          let (s, result) := s.consume result next
          let (s, result) := s.drain result now
          expireLoop fuel s result now

variable [Sub T] [LT T] [DecidableLT T]

def expire (s : FrameSequencer T) (now : T) : FrameSequencer T × SequenceResult T :=
  match s.expected with
  | none =>
    let stale := fun x : UInt32 × EncodedFrame T =>
      decide (s.gapTimeoutMs < now - x.2.receivedAt)
    let count := s.buffered.entries.countP stale
    ({ s with buffered := s.buffered.filter fun x => !stale x },
      { dropped := count, awaitingKeyframe := count, requestKeyframe := decide (count ≠ 0) })
  | some _ =>
    match s.gapSince with
    | none => (s, {})
    | some gapSince =>
      if now - gapSince < s.gapTimeoutMs then (s, {})
      else
        let (s, result) := expireLoop s.buffered.size s {} now
        ({ s with gapSince := if s.buffered.size ≠ 0 then some now else none },
          { result with
            requestKeyframe := if result.dropped ≠ 0 then true else result.requestKeyframe })

end FrameSequencer

/-! ## Runs -/

inductive SequencerCall (T : Type) where
  | push (frame : EncodedFrame T) (now : T)
  | markLost (seq : UInt32) (now : T)
  | expire (now : T)

variable {T : Type} [Sub T] [LT T] [DecidableLT T]

def FrameSequencer.call (s : FrameSequencer T) :
    SequencerCall T → FrameSequencer T × SequenceResult T
  | .push frame now => s.push frame now
  | .markLost seq now => s.markLost seq now
  | .expire now => s.expire now

/-- A run of calls: the final state and the frames returned by all of them, in order. -/
def FrameSequencer.run (s : FrameSequencer T) :
    List (SequencerCall T) → FrameSequencer T × List (EncodedFrame T)
  | [] => (s, [])
  | c :: cs =>
    let (s, result) := s.call c
    let (s, ready) := s.run cs
    (s, result.ready ++ ready)

end Rustcast.Browser
