import Rustcast.Relay.HostFrame

/-!
# A relay upstream and its viewer

`flux-web/upstream.go` for one machine with one viewer session: the reader of host frames
(`dispatchFrame`, `queueFrame`), the bounded `frameChan`, the frame pusher (`nextFrame`,
`latestFrame`, the `needsIDR` checks, `writeFrame`), `stop`, the gate for IDR requests, and
the calls of the viewer's own goroutine that touch the shared flags.

A goroutine's program counter says what it does next; every access to a channel, an atomic
flag or a mutex-protected field is an event of its own, so that the event lists are the
interleavings. An event carries what the environment decides: the bytes of a host stream
and how it ends, the clock, the results of stream operations.

Frames are numbered as the relay receives them. `log` is the history that the results are
about; no step reads it.
-/

namespace Rustcast.Relay

/-! ## IDR requests -/

def cmdIDR : UInt8 := 0x01

def commandCapacity : Nat := 100

/-- Two seconds, in nanoseconds as all times here. -/
def idrRequestInterval : Nat := 2 * 1000000000

/-- The gate and the command channel that IDR requests go through. -/
structure HostCommands where
  gateLast : Option Nat := none
  commandChan : List (List UInt8) := []

namespace HostCommands

/-- `idrRequestGate.allow`. -/
def allow (c : HostCommands) (now : Nat) : HostCommands × Bool :=
  match c.gateLast with
  | some last =>
    if now < last + idrRequestInterval then (c, false) else ({ c with gateLast := some now }, true)
  | none => ({ c with gateLast := some now }, true)

def send (c : HostCommands) (cmd : List UInt8) : HostCommands × Bool :=
  if c.commandChan.length < commandCapacity then
    ({ c with commandChan := c.commandChan ++ [cmd] }, true)
  else (c, false)

def sendIDRRequest (c : HostCommands) (now : Nat) : HostCommands × Bool :=
  match c.allow now with
  | (c, false) => (c, false)
  | (c, true) =>
    match c.send [cmdIDR] with
    | (c, true) => (c, true)
    -- nothing was sent, so the next request need not wait for the interval
    | (c, false) => ({ c with gateLast := none }, false)

end HostCommands

/-! ## State -/

structure FrameMsg where
  number : Nat
  data : List UInt8
  tsMicros : Nat
  receivedAt : Option Nat
  deriving DecidableEq

def FrameMsg.isIDR (f : FrameMsg) : Bool := isIDRFrame f.data

def frameCapacity : Nat := 120

/-- 150 ms: the age at which the pusher skips ahead. -/
def maxRelayBacklog : Nat := 150 * 1000000

/-- The frame has not waited longer than the backlog the relay tolerates. -/
def FrameMsg.inTime (msg : FrameMsg) (now : Nat) : Bool :=
  match msg.receivedAt with
  | none => true
  | some receivedAt => decide (now ≤ receivedAt + maxRelayBacklog)

/-- Inside `queueFrame`, with `frameQueueMu` held. -/
inductive ReaderPc where
  | idle
  /-- the channel was full -/
  | full (frame : FrameMsg)
  /-- about to send after the eviction attempt -/
  | sending (frame : FrameMsg) (dropped : Bool)
  deriving DecidableEq

inductive PusherPc where
  | idle
  /-- a frame was received from the channel, `nextFrame` not called yet -/
  | taken (msg : FrameMsg)
  /-- in the loop of `latestFrame` -/
  | draining (current : FrameMsg) (currentIsIDR dropped : Bool)
  /-- `nextFrame` returned -/
  | chosen (msg : FrameMsg) (idr dropped : Bool)
  /-- `currentSession` returned the session -/
  | attached (msg : FrameMsg) (idr dropped : Bool)
  /-- about to load `needsIDR` -/
  | ready (msg : FrameMsg) (idr : Bool)
  /-- `needsIDR` was set; about to call `skipFrameUntilIDR` -/
  | checked (msg : FrameMsg) (idr : Bool)
  /-- about to clear `needsIDR` -/
  | clearing (msg : FrameMsg) (idr : Bool)
  /-- in `writeFrame`, opening the stream -/
  | opening (msg : FrameMsg) (idr : Bool) (start : Nat)
  /-- in `writeFrame`, with the lengths of the chunks left to write -/
  | writing (msg : FrameMsg) (idr : Bool) (start : Nat) (chunks : List Nat)
  | exited
  deriving DecidableEq

/-- Whether `u.session` points to the session: not yet, now, or no longer. -/
inductive ViewerPhase where
  | unbound | bound | cleared
  deriving DecidableEq

/-- The fields of `Session` that the frame path uses. `released` is its `releaseOnce`. -/
structure Viewer where
  phase : ViewerPhase := .unbound
  released : Bool := false
  needsIDR : Bool := false
  hasStarted : Bool := false
  initialIDRRequested : Bool := false
  nextSequence : UInt32 := 0

inductive LogEntry where
  | received (frame : FrameMsg)
  | dropped (frame : FrameMsg)
  /-- dropped because it arrived after `stop` -/
  | refused (frame : FrameMsg)
  /-- `writeFrame` was called -/
  | started (frame : FrameMsg)
  /-- `writeFrame` wrote and closed the stream -/
  | wrote (frame : FrameMsg)
  /-- a host stream was reset while the viewer was attached -/
  | hostReset
  deriving DecidableEq

structure Upstream where
  frameChan : List FrameMsg := []
  reader : ReaderPc := .idle
  pusher : PusherPc := .idle
  stopped : Bool := false
  commands : HostCommands := {}
  viewer : Viewer := {}
  received : Nat := 0
  log : List LogEntry := []

namespace Upstream

def record (u : Upstream) (entry : LogEntry) : Upstream := { u with log := u.log ++ [entry] }

variable (u : Upstream)

/-- `release` of a frame that is not written to the viewer. -/
def drop (frame : FrameMsg) : Upstream := u.record (.dropped frame)

/-- `requestIDR`, without its statistics. -/
def requestIDR (now : Nat) : Upstream :=
  { u with commands := (u.commands.sendIDRRequest now).1 }

def setNeedsIDR (value : Bool) : Upstream :=
  { u with viewer := { u.viewer with needsIDR := value } }

def requestInitialIDR (now : Nat) : Upstream :=
  if u.viewer.initialIDRRequested then u
  else
    match u.commands.send [cmdIDR] with
    | (_, false) => u
    | (commands, true) =>
      { u with
        commands := { commands with gateLast := some now }
        viewer := { u.viewer with initialIDRRequested := true } }

/-! ## The reader -/

/-- `queueFrame` up to its first `select` on the channel. -/
def queueFrame (u : Upstream) (frame : FrameMsg) : Upstream :=
  if u.stopped then u.record (.refused frame)
  else if u.frameChan.length < frameCapacity then { u with frameChan := u.frameChan ++ [frame] }
  else { u with reader := .full frame }

/-- `dispatchFrame`. Only video frames touch the state modelled here; an unknown type ends
the connection. -/
def dispatchFrame (u : Upstream) (header : FrameHeader) (payload : List UInt8) (now : Nat) :
    Upstream :=
  match messageType? header.messageType with
  | some .video =>
    let frame : FrameMsg :=
      { number := u.received, data := payload, tsMicros := header.tsMicros, receivedAt := some now }
    ({ u with received := u.received + 1 }.record (.received frame)).queueFrame frame
  | _ => u

/-- `readQUICStream`: a reset stream is skipped, any other error ends the connection. -/
def readQUICStream (bytes : List UInt8) (ending : StreamEnd) (now : Nat) : Upstream :=
  match readFrame bytes ending with
  | .ok (header, payload, _) => u.dispatchFrame header payload now
  | .error err =>
    if err.isStreamReset && decide (u.viewer.phase = .bound) then u.record .hostReset else u

def evict : Option Upstream :=
  match u.reader with
  | .full frame =>
    match u.frameChan with
    | old :: rest => some ({ u with frameChan := rest, reader := .sending frame true }.drop old)
    -- the pusher has emptied the channel since it was found full
    | [] => some { u with reader := .sending frame false }
  | _ => none

def enqueue (now : Nat) : Option Upstream :=
  match u.reader with
  | .sending frame dropped =>
    if u.frameChan.length < frameCapacity then
      let u := { u with frameChan := u.frameChan ++ [frame], reader := .idle }
      some (if dropped then u.requestIDR now else u)
    -- a blocking send: enabled again when the pusher takes a frame
    else none
  | _ => none

/-- One round of the loop of `stop`, which needs `frameQueueMu`. -/
def stopTake : Option Upstream :=
  if u.stopped && decide (u.reader = .idle) then
    match u.frameChan with
    | frame :: rest => some ({ u with frameChan := rest }.drop frame)
    | [] => none
  else none

/-! ## The pusher -/

def take : Option Upstream :=
  match u.pusher, u.frameChan with
  | .idle, msg :: rest => some { u with frameChan := rest, pusher := .taken msg }
  | _, _ => none

/-- The decision of `nextFrame`. -/
def nextFrame (now : Nat) : Option Upstream :=
  match u.pusher with
  | .taken msg =>
    if u.frameChan.isEmpty || msg.inTime now then some { u with pusher := .chosen msg msg.isIDR false }
    else some { u with pusher := .draining msg msg.isIDR false }
  | _ => none

/-- One round of the loop of `latestFrame`. -/
def latestFrame : Option Upstream :=
  match u.pusher with
  | .draining current currentIsIDR dropped =>
    match u.frameChan with
    | newer :: rest =>
      -- an IDR in hand is kept against the P frames after it
      if newer.isIDR || !currentIsIDR then
        some ({ u with frameChan := rest, pusher := .draining newer newer.isIDR true }.drop current)
      else
        some ({ u with frameChan := rest, pusher := .draining current currentIsIDR true }.drop newer)
    | [] => some { u with pusher := .chosen current currentIsIDR dropped }
  | _ => none

def currentSession : Option Upstream :=
  match u.pusher with
  | .chosen msg idr dropped =>
    if u.viewer.phase = .bound then some { u with pusher := .attached msg idr dropped }
    -- nobody watches
    else some ({ u with pusher := .idle }.drop msg)
  | _ => none

/-- The `if dropped` block. -/
def recover (now : Nat) : Option Upstream :=
  match u.pusher with
  | .attached msg idr dropped =>
    let u := { u with pusher := .ready msg idr }
    some (if dropped then (u.setNeedsIDR true).requestIDR now else u)
  | _ => none

/-- The call of `writeFrame`: the frame gets the viewer's next sequence number. -/
def startWrite (msg : FrameMsg) (idr : Bool) (now : Nat) : Upstream :=
  { u with
    pusher := .opening msg idr now
    viewer := { u.viewer with
      hasStarted := u.viewer.hasStarted || idr
      nextSequence := u.viewer.nextSequence + 1 } }.record (.started msg)

def loadNeedsIDR (now : Nat) : Option Upstream :=
  match u.pusher with
  | .ready msg idr =>
    if u.viewer.needsIDR then some { u with pusher := .checked msg idr }
    else some (u.startWrite msg idr now)
  | _ => none

def skipFrameUntilIDR (now : Nat) : Option Upstream :=
  match u.pusher with
  | .checked msg idr =>
    -- the flag is loaded a second time, it may have been cleared since `loadNeedsIDR`
    if !u.viewer.needsIDR || idr then some { u with pusher := .clearing msg idr }
    else some (({ u with pusher := .idle }.requestIDR now).drop msg)
  | _ => none

def clearNeedsIDR (now : Nat) : Option Upstream :=
  match u.pusher with
  | .clearing msg idr => some ((u.setNeedsIDR false).startWrite msg idr now)
  | _ => none

/-- The lengths of the pieces `writeFrame` cuts the payload into. -/
def pieceLengths : Nat → Nat → List Nat
  | 0, _ => []
  | fuel + 1, len =>
    if len = 0 then [] else min len (16 * 1024) :: pieceLengths fuel (len - 16 * 1024)

/-- The header, then the payload in pieces of 16 KiB. -/
def chunkLengths (msg : FrameMsg) : List Nat := 18 :: pieceLengths msg.data.length msg.data.length

def shouldResetFrame (keyframe : Bool) (writingFor queuedFrames : Nat) : Bool :=
  !keyframe && decide (0 < queuedFrames) && decide (16 * 1000000 < writingFor)

/-- `releaseNow`, which runs once and clears the session where it is bound. -/
def releaseNow (u : Upstream) : Upstream :=
  if u.viewer.released then u
  else
    { u with
      viewer := { u.viewer with
        released := true
        phase := if u.viewer.phase = .bound then .cleared else u.viewer.phase } }

/-- `writeFrame` returned an error: the session needs an IDR from now on, and is released. -/
def writeFailed (msg : FrameMsg) : Upstream :=
  (({ u with pusher := .idle }.setNeedsIDR true).drop msg).releaseNow

def openStream (ok : Bool) : Option Upstream :=
  match u.pusher with
  | .opening msg idr start =>
    if ok then some { u with pusher := .writing msg idr start (chunkLengths msg) }
    else some (u.writeFailed msg)
  | _ => none

/-- One round of the write loop; `result` is the number of bytes written, `none` an error. -/
def writeChunk (now : Nat) (result : Option Nat) : Option Upstream :=
  match u.pusher with
  | .writing msg idr start (chunk :: rest) =>
    -- checked before every write: a P frame that takes too long gives way to the queue
    if shouldResetFrame idr (now - start) u.frameChan.length then
      some ((({ u with pusher := .idle }.setNeedsIDR true).requestIDR now).drop msg)
    else
      match result with
      | none => some (u.writeFailed msg)
      -- `io.ErrShortWrite`
      | some 0 => some (u.writeFailed msg)
      | some n =>
        if n < chunk then some { u with pusher := .writing msg idr start ((chunk - n) :: rest) }
        else some { u with pusher := .writing msg idr start rest }
  | _ => none

def closeStream (ok : Bool) : Option Upstream :=
  match u.pusher with
  | .writing msg _ _ [] =>
    if ok then some ({ u with pusher := .idle }.record (.wrote msg))
    else some (u.writeFailed msg)
  | _ => none

def exit : Option Upstream :=
  if u.stopped && decide (u.pusher = .idle) then some { u with pusher := .exited } else none

/-! ## The viewer's goroutines -/

def bindSession : Option Upstream :=
  if u.viewer.phase = .unbound then some { u with viewer := { u.viewer with phase := .bound } }
  else none

/-- The start of the frame flow, at once or after the host login (`deferredStart`). -/
def startVideo (now : Nat) : Upstream :=
  (u.setNeedsIDR true).requestInitialIDR now

def keyframeRequest (now : Nat) : Upstream := (u.setNeedsIDR true).requestIDR now

end Upstream

/-! ## Events -/

inductive RelayEvent where
  | quicStream (bytes : List UInt8) (ending : StreamEnd) (now : Nat)
  | tcpFrame (header : FrameHeader) (payload : List UInt8) (now : Nat)
  | evict
  | enqueue (now : Nat)
  | stop
  | stopTake
  | take
  | nextFrame (now : Nat)
  | latestFrame
  | currentSession
  | recover (now : Nat)
  | loadNeedsIDR (now : Nat)
  | skipFrameUntilIDR (now : Nat)
  | clearNeedsIDR (now : Nat)
  | openStream (ok : Bool)
  | writeChunk (now : Nat) (result : Option Nat)
  | closeStream (ok : Bool)
  | exit
  | bindSession
  | startVideo (now : Nat)
  | keyframeRequest (now : Nat)
  | releaseNow
  /-- the command writer takes a command -/
  | commandWritten
  /-- a new host connection: `drainCommands` -/
  | reconnect
  deriving DecidableEq

namespace Upstream

def step (u : Upstream) : RelayEvent → Option Upstream
  | .quicStream bytes ending now =>
    if u.reader = .idle then some (u.readQUICStream bytes ending now) else none
  | .tcpFrame header payload now =>
    if u.reader = .idle then some (u.dispatchFrame header payload now) else none
  | .evict => u.evict
  | .enqueue now => u.enqueue now
  | .stop => some { u with stopped := true }
  | .stopTake => u.stopTake
  | .take => u.take
  | .nextFrame now => u.nextFrame now
  | .latestFrame => u.latestFrame
  | .currentSession => u.currentSession
  | .recover now => u.recover now
  | .loadNeedsIDR now => u.loadNeedsIDR now
  | .skipFrameUntilIDR now => u.skipFrameUntilIDR now
  | .clearNeedsIDR now => u.clearNeedsIDR now
  | .openStream ok => u.openStream ok
  | .writeChunk now result => u.writeChunk now result
  | .closeStream ok => u.closeStream ok
  | .exit => u.exit
  | .bindSession => u.bindSession
  | .startVideo now => some (u.startVideo now)
  | .keyframeRequest now => some (u.keyframeRequest now)
  | .releaseNow => some u.releaseNow
  | .commandWritten =>
    some { u with commands := { u.commands with commandChan := u.commands.commandChan.tail } }
  | .reconnect => some { u with commands := { u.commands with commandChan := [] } }

end Upstream

end Rustcast.Relay
