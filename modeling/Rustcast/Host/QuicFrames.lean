import Rustcast.Core.Broadcast

/-!
# The QUIC frame sender of a host

`flux-server/src/quic_frames.rs`, one connection: the outer loop of `handle_connection`,
`send_frame_message` with its two inner loops, and the `FrameResetPolicy` both share.

The task's program counter says where it waits. An event is what wakes it up: a broadcast
frame, a lag report, progress of a stream write; `tick` lets time pass, and `Instant::now()`
is the clock. The statistics (`SendTimings`, metrics) are left out, and of the other
messages the outer loop sends only the outcome is kept.

Frames are numbered by their place in the broadcast. `log` is the history that the results
are about; no step reads it.
-/

namespace Rustcast.Host

open Broadcast

/-! ## Classification and policy -/

/-- `is_idr_frame`: the loop runs while at least four bytes are left. -/
def isIdrFrame : List UInt8 → Bool
  | a :: b :: c :: d :: rest =>
    if a = 0 ∧ b = 0 ∧ c = 0 ∧ d = 1 then
      (match rest with
        | e :: _ => e &&& 0x1f == 5
        | [] => false) || isIdrFrame rest
    else if a = 0 ∧ b = 0 ∧ c = 1 then
      d &&& 0x1f == 5 || isIdrFrame (d :: rest)
    else isIdrFrame (b :: c :: d :: rest)
  | _ => false

def frameResetBacklogThreshold : Nat := 3

/-- 500 ms, in nanoseconds as all times here. -/
def frameResetIdrCooldown : Nat := 500 * 1000000

structure FrameResetPolicy where
  lastRecovery : Option Nat := none

namespace FrameResetPolicy

variable (policy : FrameResetPolicy)

/-- The last recovery is less than the cooldown ago. -/
def coolingDown (now : Nat) : Bool :=
  policy.lastRecovery.any fun last => decide (now - last < frameResetIdrCooldown)

def shouldReset (backlog : Nat) (isIdr : Bool) (now : Nat) : FrameResetPolicy × Bool :=
  if isIdr || decide (backlog < frameResetBacklogThreshold) then (policy, false)
  else if policy.coolingDown now then (policy, false)
  else ({ lastRecovery := some now }, true)

def shouldRequestIdr (now : Nat) : FrameResetPolicy × Bool :=
  if policy.coolingDown now then (policy, false) else ({ lastRecovery := some now }, true)

end FrameResetPolicy

/-! ## State -/

structure VideoFrame where
  index : Nat
  ts : Nat
  data : List UInt8
  deriving DecidableEq

/-- The variables of `send_frame_message`. -/
structure Sending where
  frame : VideoFrame
  pending : Option VideoFrame := none
  backlog : Nat := 0
  droppedFrames : Bool := false
  offset : Nat := 0
  deriving DecidableEq

def Sending.isIdr (send : Sending) : Bool := isIdrFrame send.frame.data

inductive SenderPc where
  /-- at the outer `select!`, with no `pending_frame` -/
  | selecting
  /-- at the top of the loop, with a `pending_frame` -/
  | pending (frame : VideoFrame)
  /-- in `send_frame_message`, opening the stream -/
  | opening (frame : VideoFrame)
  /-- at the head of the write loop -/
  | writing (send : Sending)
  /-- in the `try_recv` loop -/
  | draining (send : Sending)
  /-- `send_frame_message` returned `Superseded` -/
  | superseded (frame : VideoFrame) (needsRecovery recoveryRequested : Bool)
  | closed
  deriving DecidableEq

inductive LogEntry where
  /-- `send_frame_message` was called -/
  | started (frame : VideoFrame)
  | completed (frame : VideoFrame)
  /-- replaced by a newer frame, or reported as lagged -/
  | discarded (index time : Nat)
  | reset (frame : VideoFrame) (time : Nat)
  /-- an IDR request was sent to the encoder -/
  | issued (time : Nat)
  deriving DecidableEq

structure Sender where
  rx : Receiver (Nat × List UInt8)
  pc : SenderPc := .selecting
  policy : FrameResetPolicy := {}
  clock : Nat := 0
  log : List LogEntry := []

namespace Sender

def new (capacity : Nat) : Sender := { rx := { capacity } }

def record (s : Sender) (entry : LogEntry) : Sender := { s with log := s.log ++ [entry] }

variable (s : Sender)

/-- The next `count` frames of the broadcast never reach this sender. -/
def lag (count : Nat) : Sender :=
  { s with log := s.log ++ (List.range' s.rx.next count).map fun i => .discarded i s.clock }

/-- `pending = Some(frame)`: the frame that was pending is never sent. -/
def supersede (pending : Option VideoFrame) : Sender :=
  match pending with
  | some old => s.record (.discarded old.index s.clock)
  | none => s

/-- `if should_request_idr(now) { idr_tx.send(()) }`. -/
def requestIdr : Sender :=
  match s.policy.shouldRequestIdr s.clock with
  | (policy, true) => { s with policy }.record (.issued s.clock)
  | (policy, false) => { s with policy }

/-- The value just received, as a frame. -/
def received (value : Nat × List UInt8) : VideoFrame :=
  { index := s.rx.next, ts := value.1, data := value.2 }

/-! ## The outer loop -/

def start (s : Sender) (frame : VideoFrame) : Sender :=
  { s with pc := .opening frame }.record (.started frame)

/-- The video branch of the outer `select!`; a lag is counted and skipped. -/
def recv (s : Sender) : Option Sender :=
  match s.pc with
  | .selecting =>
    match s.rx.recv with
    | (.ok value, rx) => some ({ s with rx }.start (s.received value))
    -- counted in the metrics, and no IDR is requested
    | (.lagged missed, rx) => some { s.lag missed with rx }
    | (.closed, _) => some { s with pc := .closed }
    | (.empty, _) => none
  | _ => none

/-- A cursor, audio, clipboard or resolution message was sent, or failed. -/
def message (sent : Bool) : Option Sender :=
  match s.pc with
  | .selecting => some (if sent then s else { s with pc := .closed })
  | _ => none

/-- `pending_frame.take()` at the top of the loop. -/
def resume : Option Sender :=
  match s.pc with
  | .pending frame => some (s.start frame)
  | _ => none

def settle : Option Sender :=
  match s.pc with
  | .superseded frame needsRecovery recoveryRequested =>
    let s := { s with pc := .pending frame }
    some (if needsRecovery && !recoveryRequested then s.requestIdr else s)
  | _ => none

/-! ## `send_frame_message` -/

def openStream (ok : Bool) : Option Sender :=
  match s.pc with
  | .opening frame => some { s with pc := if ok then .writing { frame } else .closed }
  | _ => none

/-- The result of `stream.write`: the number of bytes taken, `none` an error. -/
def write (result : Option Nat) : Option Sender :=
  match s.pc with
  | .writing send =>
    if send.offset < send.frame.data.length then
      match result with
      | none => some { s with pc := .closed }
      | some 0 => some { s with pc := .closed }
      | some written => some { s with pc := .writing { send with offset := send.offset + written } }
    else none
  | _ => none

/-- The other branch of the inner `select!`, which a keyframe does not have. -/
def innerRecv : Option Sender :=
  match s.pc with
  | .writing send =>
    if send.offset < send.frame.data.length ∧ send.isIdr = false then
      match s.rx.recv with
      | (.ok value, rx) =>
        let next := { send with
          pending := some (s.received value)
          backlog := send.backlog + 1 }
        some { s.supersede send.pending with rx, pc := .draining next }
      | (.lagged missed, rx) =>
        let next := { send with
          backlog := send.backlog + missed
          droppedFrames := true }
        -- the only lag that requests an IDR at once
        some { s.lag missed with rx, pc := .writing next }.requestIdr
      | (.closed, _) => some { s with pc := .closed }
      | (.empty, _) => none
    else none
  | _ => none

/-- The end of the `try_recv` loop: reset the stream or go on writing. -/
def drained (send : Sending) : Sender :=
  match s.policy.shouldReset send.backlog false s.clock with
  | (policy, true) =>
    match send.pending with
    | some frame =>
      ({ s with policy, pc := .superseded frame true true }.record
        (.reset send.frame s.clock)).record (.issued s.clock)
    -- `expect("pending frame")`: the loop is entered with one
    | none => { s with policy, pc := .closed }
  | (policy, false) => { s with policy, pc := .writing send }

def tryRecv : Option Sender :=
  match s.pc with
  | .draining send =>
    match s.rx.recv with
    | (.ok value, rx) =>
      let next := { send with
        pending := some (s.received value)
        backlog := send.backlog + 1
        droppedFrames := true }
      some { s.supersede send.pending with rx, pc := .draining next }
    | (.lagged missed, rx) =>
      let next := { send with
        backlog := send.backlog + missed
        droppedFrames := true }
      some { s.lag missed with rx, pc := .draining next }
    | (.closed, _) => some { s with pc := .closed }
    | (.empty, _) => some (s.drained send)
  | _ => none

def finish : Option Sender :=
  match s.pc with
  | .writing send =>
    if send.offset < send.frame.data.length then none
    else
      let s := s.record (.completed send.frame)
      match send.pending with
      | none => some { s with pc := .selecting }
      -- one frame replaced by the next leaves `dropped_frames` unset
      | some frame => some { s with pc := .superseded frame send.droppedFrames false }
  | _ => none

end Sender

/-! ## Events -/

inductive SenderEvent where
  | tick (elapsed : Nat)
  | broadcast (ts : Nat) (data : List UInt8)
  /-- the last broadcaster is gone -/
  | close
  | recv
  | message (sent : Bool)
  | resume
  | settle
  | openStream (ok : Bool)
  | write (result : Option Nat)
  | innerRecv
  | tryRecv
  | finish
  deriving DecidableEq

def Sender.step (s : Sender) : SenderEvent → Option Sender
  | .tick elapsed => some { s with clock := s.clock + elapsed }
  | .broadcast ts data => some { s with rx := s.rx.send (ts, data) }
  | .close => some { s with rx := { s.rx with closed := true } }
  | .recv => s.recv
  | .message sent => s.message sent
  | .resume => s.resume
  | .settle => s.settle
  | .openStream ok => s.openStream ok
  | .write result => s.write result
  | .innerRecv => s.innerRecv
  | .tryRecv => s.tryRecv
  | .finish => s.finish

end Rustcast.Host
