import Rustcast.Host.Encoder

/-!
# The capture loop

`CaptureLoop::run` of `capture_loop.rs`. An iteration takes a resolution request, captures a frame,
settles a mode change, rebuilds the encoder if the size of the frames has changed, and encodes the frame.
What the platform answers during an iteration is its `LoopInput`, and what the iteration does to the
outside is its `LoopOutput`.
-/

namespace Rustcast.Host

inductive Platform where
  | windows
  | linux
  | other
  deriving DecidableEq

structure Display where
  name : String
  adapterLuid : Option Nat
  nativeResolution : Resolution
  desktopRect : DesktopRect
  deriving DecidableEq

def Display.mode (d : Display) : ModeRequest := ⟨d.nativeResolution.width, d.nativeResolution.height⟩

def virtualMonitorName : String := "Rustcast virtual monitor"

/-! ## What the platform answers -/

/-- The output that a virtual display comes back as; it is waited for until it has the mode. -/
structure Replugged where
  name : String
  adapterLuid : Option Nat
  desktopRect : DesktopRect
  deriving DecidableEq

def Replugged.display (r : Replugged) (mode : ModeRequest) : Display where
  name := r.name
  adapterLuid := r.adapterLuid
  nativeResolution := mode.resolution
  desktopRect := r.desktopRect

/-- The results of `replug_capture` in a transition: the attempt, the rollback, and the retries of the
rollback up to the one that succeeds. -/
structure ReplugOutcome where
  attempt : Except String Replugged
  rollback : Except String Replugged
  recovered : Replugged

inductive CaptureOutcome where
  | frame (frame : CapturedFrame)
  /-- no frame within the timeout -/
  | idle
  | error
  /-- the session is lost, and the display comes back with this geometry -/
  | lost (native : Resolution) (rect : DesktopRect)
  deriving DecidableEq

structure LoopInput where
  request : Option ModeRequest
  /-- the clock where a `PendingMode` is made, in nanoseconds -/
  requestNow : Nat
  /-- `session.request_mode` -/
  modeResult : Except String Unit
  replug : ReplugOutcome
  capture : CaptureOutcome
  settleNow : Nat
  /-- `input_sink.set_target_rect` -/
  targetSet : Bool
  /-- `should_encode_frame` -/
  due : Bool
  rebuildNow : Nat
  failureNow : Nat
  candidates : List EncoderCandidate
  /-- capture starts at the encode size -/
  startScaled : Bool
  /-- capture starts at the native size -/
  startNative : Bool
  /-- the packets of the frame -/
  encoded : Except String Nat

/-- An iteration in which everything succeeds but a replug, and an encoder takes frames of every size. -/
def LoopInput.smooth (request : Option ModeRequest) (capture : CaptureOutcome) : LoopInput where
  request
  requestNow := 0
  modeResult := .ok ()
  replug := { attempt := .error "", rollback := .error "", recovered := ⟨"", none, ⟨0, 0, 0, 0⟩⟩ }
  capture
  settleNow := 0
  targetSet := true
  due := true
  rebuildNow := 0
  failureNow := 0
  candidates := [{ created := true, maxResolution := none, opens := fun _ => true }]
  startScaled := true
  startNative := true
  encoded := .ok 1

/-! ## The loop -/

structure LoopOutput where
  published : List ResolutionStatus := []
  /-- what `request_mode` has accepted -/
  modeRequests : List Resolution := []
  /-- the frame sizes for which `restart_for_downscale` was called -/
  restarts : List Resolution := []
  submitted : Option CapturedFrame := none
  packets : Nat := 0
  deriving DecidableEq

structure CaptureLoop where
  primary : Display
  /-- the target rectangle of absolute input -/
  target : DesktopRect
  virtualDisplay : Bool
  pendingMode : Option PendingMode
  tracker : ResolutionStatusTracker
  /-- the size the encoder was opened with -/
  encodeSession : Option Resolution
  captureResolution : Resolution
  encodeResolution : Resolution
  encoderRetry : EncoderRetry
  stopped : Bool
  /-- of the last iteration -/
  output : LoopOutput
  deriving DecidableEq

namespace CaptureLoop

def start (primary : Display) (virtualDisplay : Bool) : CaptureLoop where
  primary
  target := primary.desktopRect
  virtualDisplay
  pendingMode := none
  tracker := {}
  encodeSession := none
  captureResolution := ⟨0, 0⟩
  encodeResolution := ⟨0, 0⟩
  encoderRetry := {}
  stopped := false
  output := {}

variable (s : CaptureLoop) (i : LoopInput)

def publish (status : ResolutionStatus) : CaptureLoop :=
  { s with output := { s.output with published := s.output.published ++ [status] } }

/-- `restart_on`, and the new display. -/
def restartOn (display : Display) : CaptureLoop :=
  { s with primary := display, target := if i.targetSet then display.desktopRect else s.target }

/-- The encoder and its sizes are dropped with the session. -/
def dropEncoder : CaptureLoop :=
  { s with encodeSession := none, captureResolution := ⟨0, 0⟩, encodeResolution := ⟨0, 0⟩ }

/-! ### Requests -/

def transitionResolution (request oldMode : ModeRequest) : CaptureLoop :=
  let status : ResolutionStatus :=
    { state := .succeeded, width := request.width, height := request.height
      previousWidth := some oldMode.width, previousHeight := some oldMode.height }
  match i.replug.attempt with
  | .ok restored =>
    let s := s.restartOn i (restored.display request)
    { s with tracker := s.tracker.onTransitionApplied status }
  | .error _ =>
    let failed := { s with tracker := s.tracker.onTransitionFailed request.resolution }
    match i.replug.rollback with
    | .ok restored =>
      (failed.restartOn i (restored.display oldMode)).publish
        { status with
          state := .failed
          error := some ("requested mode did not apply; still streaming at " ++ oldMode.resolution.text) }
    | .error rollbackError =>
      (failed.restartOn i (i.replug.recovered.display oldMode)).publish
        { status with
          state := .failed, error := some ("transition and rollback failed: " ++ rollbackError) }

/-- The part for Windows, where an invalid request, or one without a virtual display, is ignored. -/
def handleRequestWindows (request : ModeRequest) : CaptureLoop :=
  match validateModeRequest request, s.virtualDisplay with
  | .error _, _ => s
  | .ok _, false => s
  | .ok request, true =>
    if modeChangeNeeded s.primary.mode request then
      s.dropEncoder.transitionResolution i request s.primary.mode
    else s.publish { state := .succeeded, width := request.width, height := request.height }

/-- The part for the other platforms, where the compositor is asked for the mode. -/
def handleRequestCompositor (request : ModeRequest) : CaptureLoop :=
  let failed (error : String) : CaptureLoop :=
    { s with tracker := s.tracker.onTransitionFailed request.resolution }.publish
      { state := .failed, width := request.width, height := request.height, error := some error }
  match validateModeRequest request with
  | .error error => failed error
  | .ok request =>
    if modeChangeNeeded s.primary.mode request then
      match i.modeResult with
      | .ok () =>
        { s with
          pendingMode := some (.new request.resolution s.primary.nativeResolution i.requestNow)
          output := { s.output with modeRequests := s.output.modeRequests ++ [request.resolution] } }
      | .error error => failed error
    else
      { s with pendingMode := none }.publish
        { state := .succeeded, width := request.width, height := request.height }

/-- A request is taken from the channel. -/
def beginTransition (request : ModeRequest) : CaptureLoop :=
  { s with tracker := s.tracker.onTransitionStarted request.resolution }

def handleRequest (platform : Platform) : CaptureLoop :=
  match i.request with
  | none => s
  | some request =>
    match platform with
    | .windows => (s.beginTransition request).handleRequestWindows i request
    | .linux | .other => (s.beginTransition request).handleRequestCompositor i request

/-! ### Capture -/

def settle (request : PendingMode) (frame : Option Resolution) : CaptureLoop :=
  match request.state frame i.settleNow with
  | .waiting => s
  | .applied =>
    let rect := { s.primary.desktopRect with
      width := request.requested.width, height := request.requested.height }
    { s with
      primary := { s.primary with nativeResolution := request.requested, desktopRect := rect }
      target := if i.targetSet then rect else s.target
      tracker := s.tracker.onTransitionApplied
        { state := .succeeded, width := request.requested.width, height := request.requested.height
          previousWidth := some request.previous.width, previousHeight := some request.previous.height }
      pendingMode := none }
  | .timedOut =>
    { s with
      tracker := s.tracker.onTransitionFailed request.requested
      pendingMode := none }.publish
      { state := .failed, width := request.requested.width, height := request.requested.height
        previousWidth := some request.previous.width, previousHeight := some request.previous.height
        error := some "compositor did not apply the mode" }

/-- Windows has no pending mode. -/
def settlePendingMode (frame : Option Resolution) : CaptureLoop :=
  match s.pendingMode with
  | none => s
  | some request => s.settle i request frame

/-- The display that capture comes back on. A virtual monitor keeps the mode it had. -/
def refreshedDisplay (platform : Platform) (native : Resolution) (rect : DesktopRect) : Display :=
  if platform = .linux ∧ s.primary.name = virtualMonitorName then s.primary
  else { s.primary with nativeResolution := native, desktopRect := rect }

def recoverLostCapture (platform : Platform) (native : Resolution) (rect : DesktopRect) : CaptureLoop :=
  { s.dropEncoder.restartOn i (s.refreshedDisplay platform native rect) with pendingMode := none }

/-! ### Encoding -/

/-- The encoder is built for the size of the frame. -/
def openEncoder (resolution : Resolution) : CaptureLoop :=
  match buildEncodeSessionFor i.candidates resolution with
  | some res =>
    { s with
      encodeSession := some res, captureResolution := resolution, encodeResolution := res
      encoderRetry := .onSuccess }
  | none =>
    let retry := s.encoderRetry.onFailure i.failureNow
    let failed := s.tracker.onEncoderFailed resolution (retry.1 / 1000000000)
    { s with
      encodeSession := none, captureResolution := resolution, encodeResolution := resolution
      encoderRetry := retry.2, tracker := failed.1 }.publish failed.2

inductive Flow where
  | goOn
  | next
  | stop
  deriving DecidableEq

/-- The restart of the capture at the size of an encoder that was opened below it. -/
def restartForDownscale (resolution : Resolution) : CaptureLoop × Flow :=
  let s := { s with
    encodeSession := none, captureResolution := ⟨0, 0⟩
    output := { s.output with restarts := s.output.restarts ++ [resolution] } }
  if i.startScaled then (s, .next)
  else if i.startNative then (s, .goOn)
  else ({ s with stopped := true }, .stop)

def rebuild (resolution : Resolution) : CaptureLoop × Flow :=
  let s := s.openEncoder i resolution
  if s.encodeSession.isSome = true ∧ s.encodeResolution ≠ s.captureResolution then
    s.restartForDownscale i resolution
  else (s, .goOn)

/-- A packet is sent, and with it a success that was held back. -/
def emitPacket : CaptureLoop :=
  let emitted := s.tracker.onPacketEmitted s.encodeResolution
  let s := { s with tracker := emitted.1, output := { s.output with packets := s.output.packets + 1 } }
  match emitted.2 with
  | some status => s.publish status
  | none => s

def emitPackets : Nat → CaptureLoop → CaptureLoop
  | 0, s => s
  | n + 1, s => emitPackets n s.emitPacket

variable (frame : CapturedFrame)

def takeFrame : CaptureLoop :=
  { s with output := { s.output with submitted := some frame } }

def submit (frame : CapturedFrame) : CaptureLoop :=
  if s.encodeSession.isSome then
    match i.encoded with
    | .ok packets => emitPackets packets (s.takeFrame frame)
    | .error _ => s.takeFrame frame
  else s

/-- A frame that is larger than the encoder's size is scaled down first. -/
def scaleAndSubmit : CaptureLoop :=
  if frame.resolution ≠ s.encodeResolution then
    match downscaleFrame frame s.encodeResolution with
    | .ok scaled => s.submit i scaled
    | .error _ => s
  else s.submit i frame

def needsRebuild (resolution : Resolution) : Bool :=
  decide (s.captureResolution ≠ resolution) ||
    (s.encodeSession.isNone && s.encoderRetry.due i.rebuildNow)

def encodeFrame (frame : CapturedFrame) : CaptureLoop :=
  if s.needsRebuild i frame.resolution then
    match s.rebuild i frame.resolution with
    | (s, .goOn) => s.scaleAndSubmit i frame
    | (s, .next) | (s, .stop) => s
  else s.scaleAndSubmit i frame

/-- The part of an iteration after the request. -/
def captureNext (platform : Platform) : CaptureLoop :=
  match i.capture with
  | .idle => s.settlePendingMode i none
  | .error => s
  | .lost native rect => s.recoverLostCapture i platform native rect
  | .frame frame =>
    let s := s.settlePendingMode i (some frame.resolution)
    if i.due then s.encodeFrame i frame else s

def iterate (platform : Platform) (s : CaptureLoop) (i : LoopInput) : CaptureLoop :=
  let s := { s with output := {} }
  if s.stopped then s else (s.handleRequest i platform).captureNext i platform

/-! ## What the parts of an iteration leave alone -/

/-- The display and the mode change under way are the same. -/
structure SameDisplay (s s' : CaptureLoop) : Prop where
  primary : s'.primary = s.primary
  target : s'.target = s.target
  virtualDisplay : s'.virtualDisplay = s.virtualDisplay
  pendingMode : s'.pendingMode = s.pendingMode
  modeRequests : s'.output.modeRequests = s.output.modeRequests

/-- The encoder is the same, and nothing was done with it. -/
structure SameEncoder (s s' : CaptureLoop) : Prop where
  encodeSession : s'.encodeSession = s.encodeSession
  captureResolution : s'.captureResolution = s.captureResolution
  encodeResolution : s'.encodeResolution = s.encodeResolution
  encoderRetry : s'.encoderRetry = s.encoderRetry
  stopped : s'.stopped = s.stopped
  restarts : s'.output.restarts = s.output.restarts
  submitted : s'.output.submitted = s.output.submitted
  packets : s'.output.packets = s.output.packets

variable {s i} {s' s'' : CaptureLoop}

theorem SameDisplay.refl : SameDisplay s s := ⟨rfl, rfl, rfl, rfl, rfl⟩

theorem SameDisplay.trans (h : SameDisplay s s') (h' : SameDisplay s' s'') : SameDisplay s s'' :=
  ⟨h'.primary.trans h.primary, h'.target.trans h.target, h'.virtualDisplay.trans h.virtualDisplay,
    h'.pendingMode.trans h.pendingMode, h'.modeRequests.trans h.modeRequests⟩

theorem SameEncoder.refl : SameEncoder s s := ⟨rfl, rfl, rfl, rfl, rfl, rfl, rfl, rfl⟩

theorem SameEncoder.trans (h : SameEncoder s s') (h' : SameEncoder s' s'') : SameEncoder s s'' :=
  ⟨h'.encodeSession.trans h.encodeSession, h'.captureResolution.trans h.captureResolution,
    h'.encodeResolution.trans h.encodeResolution, h'.encoderRetry.trans h.encoderRetry,
    h'.stopped.trans h.stopped, h'.restarts.trans h.restarts, h'.submitted.trans h.submitted,
    h'.packets.trans h.packets⟩

/-! ### Requests and mode changes -/

theorem sameEncoder_handleRequestCompositor (request : ModeRequest) :
    SameEncoder s (s.handleRequestCompositor i request) := by
  unfold handleRequestCompositor
  split
  · exact ⟨rfl, rfl, rfl, rfl, rfl, rfl, rfl, rfl⟩
  · split
    · split <;> exact ⟨rfl, rfl, rfl, rfl, rfl, rfl, rfl, rfl⟩
    · exact ⟨rfl, rfl, rfl, rfl, rfl, rfl, rfl, rfl⟩

theorem sameEncoder_transitionResolution (s : CaptureLoop) (request oldMode : ModeRequest) :
    SameEncoder s (s.transitionResolution i request oldMode) := by
  unfold transitionResolution
  split
  · exact ⟨rfl, rfl, rfl, rfl, rfl, rfl, rfl, rfl⟩
  · split <;> exact ⟨rfl, rfl, rfl, rfl, rfl, rfl, rfl, rfl⟩

theorem handleRequestWindows_encoder (request : ModeRequest) :
    SameEncoder s (s.handleRequestWindows i request) ∨
      SameEncoder s.dropEncoder (s.handleRequestWindows i request) := by
  unfold handleRequestWindows
  split
  · exact .inl .refl
  · exact .inl .refl
  · split
    · exact .inr (sameEncoder_transitionResolution _ _ _)
    · exact .inl ⟨rfl, rfl, rfl, rfl, rfl, rfl, rfl, rfl⟩

theorem sameEncoder_beginTransition (request : ModeRequest) :
    SameEncoder s (s.beginTransition request) ∧
      SameEncoder s.dropEncoder (s.beginTransition request).dropEncoder :=
  ⟨⟨rfl, rfl, rfl, rfl, rfl, rfl, rfl, rfl⟩, ⟨rfl, rfl, rfl, rfl, rfl, rfl, rfl, rfl⟩⟩

/-- A request leaves the encoder as it is, or drops it for a transition. -/
theorem handleRequest_encoder (s : CaptureLoop) (i : LoopInput) (platform : Platform) :
    SameEncoder s (s.handleRequest i platform) ∨ SameEncoder s.dropEncoder (s.handleRequest i platform) := by
  unfold handleRequest
  split
  · exact .inl .refl
  next request _ =>
    obtain ⟨hbegin, hdrop⟩ := sameEncoder_beginTransition request
    split
    · rcases handleRequestWindows_encoder request with h | h
      · exact .inl (hbegin.trans h)
      · exact .inr (hdrop.trans h)
    · exact .inl (hbegin.trans (sameEncoder_handleRequestCompositor request))
    · exact .inl (hbegin.trans (sameEncoder_handleRequestCompositor request))

theorem sameEncoder_settlePendingMode (frame : Option Resolution) :
    SameEncoder s (s.settlePendingMode i frame) := by
  unfold settlePendingMode
  split
  · exact .refl
  · unfold settle
    split <;> exact ⟨rfl, rfl, rfl, rfl, rfl, rfl, rfl, rfl⟩

/-! ### Packets -/

/-- What a packet changes. -/
theorem emitPacket_eq :
    s.emitPacket = { s with
      tracker := (s.tracker.onPacketEmitted s.encodeResolution).1
      output := { s.output with
        packets := s.output.packets + 1
        published := s.output.published ++ (s.tracker.onPacketEmitted s.encodeResolution).2.toList } } := by
  unfold emitPacket
  cases hstatus : (s.tracker.onPacketEmitted s.encodeResolution).2 <;> simp [publish, hstatus]

theorem sameDisplay_emitPackets (n : Nat) (s : CaptureLoop) : SameDisplay s (emitPackets n s) := by
  induction n generalizing s with
  | zero => exact .refl
  | succ n ih =>
    have hone : SameDisplay s s.emitPacket := by
      rw [emitPacket_eq]
      exact ⟨rfl, rfl, rfl, rfl, rfl⟩
    exact hone.trans (ih s.emitPacket)

/-- The encoder is the same, and so is what has been done with it, up to the packets. -/
theorem emitPackets_encoder (n : Nat) (s : CaptureLoop) :
    SameEncoder { s with output := { s.output with packets := s.output.packets + n } } (emitPackets n s) := by
  induction n generalizing s with
  | zero => exact .refl
  | succ n ih =>
    refine .trans ?_ (ih s.emitPacket)
    rw [emitPacket_eq]
    refine ⟨rfl, rfl, rfl, rfl, rfl, rfl, rfl, ?_⟩
    show s.output.packets + 1 + n = s.output.packets + (n + 1)
    omega

/-! ### Frames -/

/-- A frame is handed to the encoder and packets are sent, or nothing happens. -/
inductive Submitted (s : CaptureLoop) : CaptureLoop → Prop where
  | skipped : Submitted s s
  | taken (frame : CapturedFrame) (packets : Nat) : Submitted s (emitPackets packets (s.takeFrame frame))

theorem submit_cases : Submitted s (s.submit i frame) := by
  unfold submit
  split
  · split
    · exact .taken frame _
    -- a frame that the encoder refuses gives no packets
    · exact .taken frame 0
  · exact .skipped

theorem scaleAndSubmit_cases : Submitted s (s.scaleAndSubmit i frame) := by
  unfold scaleAndSubmit
  split
  · split
    · exact submit_cases _
    · exact .skipped
  · exact submit_cases _

theorem Submitted.sameDisplay (h : Submitted s s') : SameDisplay s s' := by
  cases h with
  | skipped => exact .refl
  | taken frame packets =>
    have htake : SameDisplay s (s.takeFrame frame) := ⟨rfl, rfl, rfl, rfl, rfl⟩
    exact htake.trans (sameDisplay_emitPackets _ _)

theorem scaleAndSubmit_of_none (h : s.encodeSession = none) (frame : CapturedFrame) :
    s.scaleAndSubmit i frame = s := by
  have hsubmit : ∀ f, s.submit i f = s := by
    simp [submit, h]
  unfold scaleAndSubmit
  split
  · split
    · exact hsubmit _
    · rfl
  · exact hsubmit _

/-- What becomes of a frame that is due. -/
inductive Encoded (s : CaptureLoop) (i : LoopInput) (frame : CapturedFrame) : CaptureLoop → Prop where
  /-- the encoder is the one for the frame -/
  | kept (hneeds : s.needsRebuild i frame.resolution = false) : Encoded s i frame (s.scaleAndSubmit i frame)
  /-- no encoder can be built -/
  | failed (hneeds : s.needsRebuild i frame.resolution = true)
      (hbuild : buildEncodeSessionFor i.candidates frame.resolution = none) :
      Encoded s i frame (s.openEncoder i frame.resolution)
  /-- the encoder takes frames of this size -/
  | fitted (hneeds : s.needsRebuild i frame.resolution = true)
      (hbuild : buildEncodeSessionFor i.candidates frame.resolution = some frame.resolution) :
      Encoded s i frame ((s.openEncoder i frame.resolution).submit i frame)
  /-- the encoder takes smaller frames only; whatever the restart gives, it is gone -/
  | restarted (res : Resolution) (hneeds : s.needsRebuild i frame.resolution = true)
      (hbuild : buildEncodeSessionFor i.candidates frame.resolution = some res)
      (hsmaller : res ≠ frame.resolution) :
      Encoded s i frame ((s.openEncoder i frame.resolution).restartForDownscale i frame.resolution).1

/-- One of the four, and no other. -/
theorem encodeFrame_cases (s : CaptureLoop) (i : LoopInput) (frame : CapturedFrame) :
    Encoded s i frame (s.encodeFrame i frame) := by
  unfold encodeFrame
  split
  next hneeds =>
    cases hbuild : buildEncodeSessionFor i.candidates frame.resolution with
    | none =>
      have hopen : (s.openEncoder i frame.resolution).encodeSession = none := by
        simp [openEncoder, hbuild, publish]
      have hrebuild : s.rebuild i frame.resolution = (s.openEncoder i frame.resolution, .goOn) := by
        simp [rebuild, hopen]
      rw [hrebuild]
      dsimp only
      rw [scaleAndSubmit_of_none hopen]
      exact .failed hneeds hbuild
    | some res =>
      have hopen : s.openEncoder i frame.resolution = { s with
          encodeSession := some res, captureResolution := frame.resolution, encodeResolution := res
          encoderRetry := .onSuccess } := by
        simp [openEncoder, hbuild]
      by_cases hsame : res = frame.resolution
      · subst hsame
        have hrebuild : s.rebuild i frame.resolution = (s.openEncoder i frame.resolution, .goOn) := by
          simp [rebuild, hopen]
        rw [hrebuild]
        have hscale : (s.openEncoder i frame.resolution).scaleAndSubmit i frame =
            (s.openEncoder i frame.resolution).submit i frame := by
          simp [scaleAndSubmit, hopen]
        dsimp only
        rw [hscale]
        exact .fitted hneeds hbuild
      · have hrebuild : s.rebuild i frame.resolution =
            (s.openEncoder i frame.resolution).restartForDownscale i frame.resolution := by
          simp [rebuild, hopen, hsame]
        rw [hrebuild]
        have hrestarted := Encoded.restarted res hneeds hbuild hsame
        -- the frame goes on only without an encoder
        revert hrestarted
        unfold restartForDownscale
        split
        · exact id
        · split
          · dsimp only
            rw [scaleAndSubmit_of_none rfl]
            exact id
          · exact id
  next hneeds => exact .kept (Bool.not_eq_true _ ▸ hneeds)

theorem sameDisplay_openEncoder (resolution : Resolution) : SameDisplay s (s.openEncoder i resolution) := by
  unfold openEncoder
  split <;> exact ⟨rfl, rfl, rfl, rfl, rfl⟩

theorem sameDisplay_restartForDownscale (resolution : Resolution) :
    SameDisplay s (s.restartForDownscale i resolution).1 := by
  unfold restartForDownscale
  split
  · exact ⟨rfl, rfl, rfl, rfl, rfl⟩
  · split <;> exact ⟨rfl, rfl, rfl, rfl, rfl⟩

/-- Encoding does not touch the display. -/
theorem sameDisplay_encodeFrame : SameDisplay s (s.encodeFrame i frame) := by
  generalize hs' : s.encodeFrame i frame = s'
  have hcases := encodeFrame_cases s i frame
  rw [hs'] at hcases
  cases hcases with
  | kept => exact (scaleAndSubmit_cases frame).sameDisplay
  | failed => exact sameDisplay_openEncoder _
  | fitted => exact (sameDisplay_openEncoder _).trans (submit_cases frame).sameDisplay
  | restarted => exact (sameDisplay_openEncoder _).trans (sameDisplay_restartForDownscale _)

/-! ### Iterations -/

theorem handleRequest_of_none (h : i.request = none) (platform : Platform) :
    s.handleRequest i platform = s := by
  rw [handleRequest, h]

theorem iterate_of_running (platform : Platform) (h : s.stopped = false) :
    iterate platform s i = (handleRequest { s with output := {} } i platform).captureNext i platform := by
  unfold iterate
  rw [if_neg (by rw [h]; decide)]

theorem iterate_of_stopped (platform : Platform) (h : s.stopped = true) :
    iterate platform s i = { s with output := {} } := by
  unfold iterate
  rw [if_pos h]

theorem pendingMode_settlePendingMode {frame : Option Resolution} {p : PendingMode}
    (hp : (s.settlePendingMode i frame).pendingMode = some p) : s.pendingMode = some p := by
  unfold settlePendingMode at hp
  split at hp
  · exact hp
  · unfold settle at hp
    split at hp
    · exact hp
    · cases hp
    · cases hp

/-- Only a request makes the loop wait for a mode. -/
theorem pendingMode_captureNext {platform : Platform} {p : PendingMode}
    (hp : (s.captureNext i platform).pendingMode = some p) : s.pendingMode = some p := by
  unfold captureNext at hp
  split at hp
  · exact pendingMode_settlePendingMode hp
  · exact hp
  · cases hp
  next frame _ =>
    split at hp
    · rw [(sameDisplay_encodeFrame frame).pendingMode] at hp
      exact pendingMode_settlePendingMode hp
    · exact pendingMode_settlePendingMode hp

/-- Windows changes modes itself. -/
theorem pendingMode_handleRequestWindows (request : ModeRequest) :
    (s.handleRequestWindows i request).pendingMode = s.pendingMode := by
  unfold handleRequestWindows
  split
  · rfl
  · rfl
  · split
    · unfold transitionResolution
      split
      · rfl
      · split <;> rfl
    · rfl

end CaptureLoop

end Rustcast.Host
