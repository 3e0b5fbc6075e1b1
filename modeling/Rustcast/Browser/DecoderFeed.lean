import Rustcast.Browser.FrameSequencer
import Rustcast.Browser.H264

/-!
# The browser's decoder feed

The part of `flux-web/ui/lib/webtransport-client.ts` between a received frame and the
`VideoDecoder`, for one connection. Every JavaScript job is one event: a frame that was
read completely or lost, the expiry timer, a visibility change, the start of the next task
of `decodeChain`, the continuation of a suspended task, a decoder that fails, its error
callback, the end of the connection. `step` is partial: `none` says that the job cannot
run now.

The browser decides what an event carries: the clock, the queue sizes it reports, whether
a constructor, `configure` or `decode` throws, what `isConfigSupported` answers. Painting,
statistics and the control messages other than `keyframe-request` are left out.
-/

namespace Rustcast.Browser

/-! ## Drop counting and page visibility (`frame-drops.ts`) -/

inductive DropReason where
  | notPainted | awaitingKeyframe | decodeBacklog | lost | decoderError
  deriving DecidableEq

structure DropCounter where
  cumulative : DropReason → Nat := fun _ => 0
  window : DropReason → Nat := fun _ => 0

def DropCounter.add (c : DropCounter) (reason : DropReason) (count : Nat) : DropCounter :=
  if count = 0 then c
  else
    { cumulative := Function.update c.cumulative reason (c.cumulative reason + count)
      window := Function.update c.window reason (c.window reason + count) }

structure DropVisibilityPolicy where
  hidden : Bool := false
  awaitingResumeKeyframe : Bool := false

namespace DropVisibilityPolicy

/-- The new policy, and whether the page became visible. -/
def setHidden (p : DropVisibilityPolicy) (hidden : Bool) : DropVisibilityPolicy × Bool :=
  let becameVisible := p.hidden && !hidden
  ({ hidden
     awaitingResumeKeyframe :=
       if hidden || becameVisible then true else p.awaitingResumeKeyframe }, becameVisible)

def suppresses (p : DropVisibilityPolicy) (reason : DropReason) : Bool :=
  p.hidden || (p.awaitingResumeKeyframe && decide (reason = .awaitingKeyframe))

def acceptKeyframe (p : DropVisibilityPolicy) : DropVisibilityPolicy :=
  if p.hidden then p else { p with awaitingResumeKeyframe := false }

end DropVisibilityPolicy

/-! ## Decoder instances and the state of the client -/

inductive ChunkType where
  | key | delta
  deriving DecidableEq

structure EncodedVideoChunk where
  type : ChunkType
  timestamp : UInt32
  data : List UInt8
  deriving DecidableEq

inductive CodecState where
  | unconfigured | configured | closed
  deriving DecidableEq

/-- A `VideoDecoder` object: its state and the chunks it was handed, oldest first. -/
structure VideoDecoder where
  state : CodecState := .unconfigured
  chunks : List EncodedVideoChunk := []

/-- An answer of `isConfigSupported`; `config` is the codec of the returned configuration. -/
structure VideoDecoderSupport where
  supported : Bool
  config : Option String

/-- Where the running task of `decodeChain` is suspended. `generation` is the one the task
captured, `decoder` the instance that `configureDecoder` constructed. -/
inductive DecodeTask (T : Type) where
  | idle
  /-- in `configureDecoder`, waiting for the hardware answer -/
  | preferred (frame : EncodedFrame T) (generation : Nat) (codec : String) (decoder : Nat)
  /-- in `configureDecoder`, waiting for the fallback answer -/
  | base (frame : EncodedFrame T) (generation : Nat) (codec : String) (decoder : Nat)
  /-- `configureDecoder` returned, `decodeFrame` has not resumed -/
  | returned (frame : EncodedFrame T) (generation : Nat)
  /-- `configureDecoder` threw, `decodeFrame` has not resumed -/
  | threw (frame : EncodedFrame T) (generation : Nat)

inductive DecoderType where
  | hardware | software | unknown
  deriving DecidableEq

/-- The client within one connection. Decoder instances are numbered as they are
constructed; `decoders` keeps all of them, also the replaced ones. `taken` is a history
variable: the frames whose task has started. -/
structure WebTransportClient (T : Type) where
  sequencer : FrameSequencer T
  waitingForKeyframe : Bool := true
  dropVisibility : DropVisibilityPolicy := {}
  drops : DropCounter := {}
  generation : Nat
  decoder : Option Nat := none
  decoderConfig : Option String := none
  decoderType : DecoderType := .unknown
  decodeChain : List (EncodedFrame T × Nat) := []
  task : DecodeTask T := .idle
  controlWriter : Bool := false
  lastKeyframeRequest : Option T := none
  resumeKeyframeRequestPending : Bool := false
  keyframeRequests : Nat := 0
  nextDecoder : Nat := 0
  decoders : Nat → VideoDecoder := fun _ => {}
  taken : List (EncodedFrame T) := []

namespace WebTransportClient

variable {T : Type} [Sub T] [LT T] [DecidableLT T] [OfNat T 100] [OfNat T 500]

def newSequencer : FrameSequencer T := { gapTimeoutMs := 100 }

variable (c : WebTransportClient T)

def requestKeyframeIfAllowed (now : T) : WebTransportClient T :=
  if c.dropVisibility.hidden || !c.controlWriter then c
  else
    match c.lastKeyframeRequest with
    | some last =>
      if now - last < 500 then c
      else { c with lastKeyframeRequest := some now, keyframeRequests := c.keyframeRequests + 1 }
    | none => { c with lastKeyframeRequest := some now, keyframeRequests := c.keyframeRequests + 1 }

def countDrop (reason : DropReason) (count : Nat) : WebTransportClient T :=
  if c.dropVisibility.suppresses reason then c else { c with drops := c.drops.add reason count }

def decoderState : Option CodecState :=
  c.decoder.map fun id => (c.decoders id).state

def setDecoderState (c : WebTransportClient T) (id : Nat) (state : CodecState) : WebTransportClient T :=
  { c with decoders := Function.update c.decoders id { c.decoders id with state } }

/-- Closing the current decoder, if there is one; a closed one stays closed. -/
def closeDecoder : WebTransportClient T :=
  match c.decoder with
  | some id => c.setDecoderState id .closed
  | none => c

def handleDecoderError (now : T) : WebTransportClient T :=
  let c := c.closeDecoder
  let c := { c with
    decoder := none
    decoderConfig := none
    decoderType := .unknown
    waitingForKeyframe := true }
  (c.countDrop .decoderError 1).requestKeyframeIfAllowed now

/-! ## Accepting what the sequencer returns -/

/-- One round of the loop of `acceptSequence`; `queueSize` is the `decodeQueueSize` the
browser reports in it. -/
def acceptFrame (queueSize : Nat) (frame : EncodedFrame T) (now : T) : WebTransportClient T :=
  if c.waitingForKeyframe && !frame.keyframe then
    (c.countDrop .awaitingKeyframe 1).requestKeyframeIfAllowed now
  -- the decoder is behind: delta frames are given up until the next keyframe
  else if c.decoder.isSome && decide (2 < queueSize) && !frame.keyframe then
    { c.countDrop .decodeBacklog 1 with waitingForKeyframe := true }.requestKeyframeIfAllowed now
  else
    let c := if frame.keyframe then
      { c with waitingForKeyframe := false, dropVisibility := c.dropVisibility.acceptKeyframe }
      else c
    { c with decodeChain := c.decodeChain ++ [(frame, c.generation)] }

def acceptFrames (c : WebTransportClient T) (now : T) : List Nat → List (EncodedFrame T) →
    WebTransportClient T
  | _, [] => c
  | sizes, frame :: rest =>
    (c.acceptFrame (sizes.headD 0) frame now).acceptFrames now sizes.tail rest

def acceptSequence (c : WebTransportClient T) (result : SequenceResult T) (sizes : List Nat)
    (now : T) : WebTransportClient T :=
  if c.dropVisibility.hidden then { c with waitingForKeyframe := true }
  else
    let c := c.countDrop .lost (result.dropped - result.awaitingKeyframe)
    let c := c.countDrop .awaitingKeyframe result.awaitingKeyframe
    let c := if result.requestKeyframe then
      { c with waitingForKeyframe := true }.requestKeyframeIfAllowed now else c
    c.acceptFrames now sizes result.ready

/-- A call of the sequencer followed by `acceptSequence`, as every caller does it. -/
def sequence (call : SequencerCall T) (sizes : List Nat) (now : T) : WebTransportClient T :=
  let (sequencer, result) := c.sequencer.call call
  { c with sequencer }.acceptSequence result sizes now

/-! ## Decoding -/

def chunkOf (frame : EncodedFrame T) : EncodedVideoChunk where
  type := if frame.keyframe then .key else .delta
  timestamp := frame.seq
  data := frame.data

/-- The end of `decodeFrame`: hand the frame to the decoder if it is configured. -/
def decodeChunk (c : WebTransportClient T) (frame : EncodedFrame T) (decodeThrows : Bool)
    (now : T) : WebTransportClient T :=
  match c.decoder with
  | none => c.requestKeyframeIfAllowed now
  | some id =>
    if (c.decoders id).state = .configured then
      let d := c.decoders id
      let c := { c with
        decoders := Function.update c.decoders id { d with chunks := d.chunks ++ [chunkOf frame] } }
      -- a chunk that `decode` throws on was handed over as well
      if decodeThrows then c.handleDecoderError now else c
    else c.requestKeyframeIfAllowed now

/-- The `catch` around `configureDecoder` in `decodeFrame`. -/
def configureFailed (now : T) : WebTransportClient T :=
  { c with waitingForKeyframe := true }.requestKeyframeIfAllowed now

/-- `configureDecoder` up to its first `await`. `close()` throws on a decoder that is
closed already; what an `async` function throws reaches its caller in a later job. -/
def configureDecoder (c : WebTransportClient T) (frame : EncodedFrame T) (generation : Nat)
    (codec : String) (constructThrows : Bool) : WebTransportClient T :=
  if c.decoderState = some .closed then { c with task := .threw frame generation }
  else
    let c := c.closeDecoder
    if constructThrows then { c with task := .threw frame generation }
    else
      { c with
        decoders := Function.update c.decoders c.nextDecoder {}
        decoder := some c.nextDecoder
        nextDecoder := c.nextDecoder + 1
        task := .preferred frame generation codec c.nextDecoder }

/-- The codec the frame asks for, when the decoder has to be configured for it. -/
def codecChange (c : WebTransportClient T) (frame : EncodedFrame T) : Option String :=
  if frame.keyframe then
    match h264CodecFromSps frame.data with
    | some codec => if c.decoderConfig = some codec then none else some codec
    | none => none
  else none

/-- `decodeFrame` up to its first `await`, or to its end. -/
def decodeFrame (frame : EncodedFrame T) (generation : Nat)
    (constructThrows decodeThrows : Bool) (now : T) : WebTransportClient T :=
  -- a task of an earlier connection
  if generation ≠ c.generation then c
  else if c.decoder.isNone && !frame.keyframe then c.requestKeyframeIfAllowed now
  else
    match c.codecChange frame with
    | some codec => c.configureDecoder frame generation codec constructThrows
    | none => c.decodeChunk frame decodeThrows now

/-- The `catch` inside `configureDecoder`, which then throws on. -/
def configureThrew (c : WebTransportClient T) (frame : EncodedFrame T) (generation id : Nat)
    (now : T) : WebTransportClient T :=
  let c := if c.decoder = some id then c.handleDecoderError now else c
  { c with task := .threw frame generation }

/-- The end of `configureDecoder`, with the answer it settled on. -/
def applyConfig (c : WebTransportClient T) (frame : EncodedFrame T) (generation id : Nat)
    (support : VideoDecoderSupport) (hardware configureThrows : Bool) (now : T) :
    WebTransportClient T :=
  -- the decoder was replaced or closed during the `await`
  if c.decoder ≠ some id then { c with task := .returned frame generation }
  else
    match support.supported, support.config with
    | true, some codec =>
      if configureThrows || decide ((c.decoders id).state = .closed) then
        c.configureThrew frame generation id now
      else
        { c.setDecoderState id .configured with
          decoderConfig := some codec
          decoderType := if hardware then .hardware else .software
          task := .returned frame generation }
    | _, _ => c.configureThrew frame generation id now

/-- `configureDecoder` after its first `await`; `none` is a rejected promise. -/
def preferredAnswer (frame : EncodedFrame T) (generation : Nat)
    (codec : String) (id : Nat) (answer : Option VideoDecoderSupport) (configureThrows : Bool)
    (now : T) : WebTransportClient T :=
  match answer with
  | none => c.configureThrew frame generation id now
  | some preferred =>
    if c.decoder ≠ some id then { c with task := .returned frame generation }
    else if preferred.supported then
      c.applyConfig frame generation id preferred true configureThrows now
    else { c with task := .base frame generation codec id }

def baseAnswer (frame : EncodedFrame T) (generation id : Nat)
    (answer : Option VideoDecoderSupport) (configureThrows : Bool) (now : T) :
    WebTransportClient T :=
  match answer with
  | none => c.configureThrew frame generation id now
  | some support => c.applyConfig frame generation id support false configureThrows now

/-! ## Visibility and the end of the connection -/

def updateVisibility (hidden : Bool) (now : T) : WebTransportClient T :=
  let (dropVisibility, becameVisible) := c.dropVisibility.setHidden hidden
  let c := { c with dropVisibility }
  if hidden then { c with waitingForKeyframe := true }
  else if becameVisible then
    let c := { c with
      sequencer := newSequencer
      waitingForKeyframe := true
      lastKeyframeRequest := none }
    if c.controlWriter then c.requestKeyframeIfAllowed now
    else { c with resumeKeyframeRequestPending := true }
  else c

def closeCurrent : WebTransportClient T :=
  { c.closeDecoder with decoder := none, decoderConfig := none, controlWriter := false }

def controlOpened (now : T) : WebTransportClient T :=
  let c := { c with controlWriter := true }
  if c.resumeKeyframeRequestPending then
    { c with resumeKeyframeRequestPending := false }.requestKeyframeIfAllowed now
  else c

/-- `disconnect`: the generation moves on, so that nothing of this connection runs again. -/
def disconnect : WebTransportClient T :=
  { c with
    generation := c.generation + 1
    dropVisibility := {}
    resumeKeyframeRequestPending := false }.closeCurrent

end WebTransportClient

/-! ## Events and steps -/

inductive ClientEvent (T : Type) where
  /-- a complete video stream: header fields, payload and time -/
  | videoStream (seq : UInt32) (keyframe : Bool) (payload : List UInt8)
      (captureTimestampUs arrivalOrdinal : Nat) (sizes : List Nat) (now : T)
  /-- a video stream that broke off after its header -/
  | incompleteStream (seq : UInt32) (sizes : List Nat) (now : T)
  | expireTimer (sizes : List Nat) (now : T)
  | visibilityChange (hidden : Bool) (now : T)
  | controlOpened (now : T)
  | requestKeyframe (now : T)
  | startTask (constructThrows decodeThrows : Bool) (now : T)
  | preferredAnswer (answer : Option VideoDecoderSupport) (configureThrows : Bool) (now : T)
  | baseAnswer (answer : Option VideoDecoderSupport) (configureThrows : Bool) (now : T)
  | resumeTask (decodeThrows : Bool) (now : T)
  /-- the browser closes a decoder: a decoding error, or reclaimed resources -/
  | decoderFails (id : Nat)
  | errorCallback (id : Nat) (now : T)
  /-- a control message or the transport ends the connection -/
  | closeCurrent
  | disconnect

namespace WebTransportClient

variable {T : Type} [Sub T] [LT T] [DecidableLT T] [OfNat T 100] [OfNat T 500]

/-- One job of the connection that was set up with generation `conn`. -/
def step (conn : Nat) (c : WebTransportClient T) : ClientEvent T → Option (WebTransportClient T)
  | .videoStream seq keyframe payload captureTimestampUs arrivalOrdinal sizes now =>
    if c.generation = conn then
      some (c.sequence (.push
        { seq
          keyframe := keyframe || isH264Keyframe payload
          data := payload
          receivedAt := now
          captureTimestampUs := some captureTimestampUs
          arrivalOrdinal := some arrivalOrdinal } now) sizes now)
    else none
  | .incompleteStream seq sizes now =>
    if c.generation = conn then some (c.sequence (.markLost seq now) sizes now) else none
  | .expireTimer sizes now =>
    if c.generation = conn then some (c.sequence (.expire now) sizes now) else none
  | .visibilityChange hidden now => some (c.updateVisibility hidden now)
  | .controlOpened now =>
    if c.generation = conn then some (c.controlOpened now) else none
  | .requestKeyframe now => some (c.requestKeyframeIfAllowed now)
  | .startTask constructThrows decodeThrows now =>
    match c.task, c.decodeChain with
    | .idle, (frame, generation) :: rest =>
      let c := { c with decodeChain := rest, taken := c.taken ++ [frame] }
      some (c.decodeFrame frame generation constructThrows decodeThrows now)
    | _, _ => none
  | .preferredAnswer answer configureThrows now =>
    match c.task with
    | .preferred frame generation codec id =>
      some (c.preferredAnswer frame generation codec id answer configureThrows now)
    | _ => none
  | .baseAnswer answer configureThrows now =>
    match c.task with
    | .base frame generation _ id =>
      some (c.baseAnswer frame generation id answer configureThrows now)
    | _ => none
  | .resumeTask decodeThrows now =>
    match c.task with
    | .returned frame generation =>
      let c := { c with task := .idle }
      if generation ≠ c.generation then some c else some (c.decodeChunk frame decodeThrows now)
    | .threw _ _ => some ({ c with task := .idle }.configureFailed now)
    | _ => none
  | .decoderFails id => some (c.setDecoderState id .closed)
  | .errorCallback id now => if c.decoder = some id then some (c.handleDecoderError now) else some c
  | .closeCurrent => some c.closeCurrent
  | .disconnect => some c.disconnect

/-- The client at the start of a connection. What an earlier connection leaves behind
(visibility, the time of the last keyframe request, counters) is arbitrary. -/
def connected (generation : Nat) (dropVisibility : DropVisibilityPolicy)
    (lastKeyframeRequest : Option T) (resumeKeyframeRequestPending : Bool) :
    WebTransportClient T :=
  { sequencer := newSequencer, generation, dropVisibility, lastKeyframeRequest,
    resumeKeyframeRequestPending }

end WebTransportClient

end Rustcast.Browser
