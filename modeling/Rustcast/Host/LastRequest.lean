import Rustcast.Core.Endless
import Rustcast.Host.CaptureLoop

/-!
# The last resolution request

On the platforms with a compositor, the loop asks it for a mode and waits for frames of that size. The
compositor applies the modes it was asked for in order, when it likes, and delivers frames of its current
mode. In the end its mode, the resolution that the loop has recorded and the target of absolute input should
be what was requested last.
-/

namespace Rustcast.Host

open Filter CaptureLoop Endless

structure Compositor where
  mode : Resolution
  /-- asked for, and not applied yet -/
  queue : List Resolution
  deriving DecidableEq

open Compositor

namespace Compositor

variable (c : Compositor)

/-- The mode once all is applied. -/
def destination : Resolution := c.queue.getLastD c.mode

def apply : Compositor :=
  match c.queue with
  | [] => c
  | mode :: queue => { mode, queue }

/-- Frames have the size of the mode. -/
def deliver (i : LoopInput) : LoopInput :=
  match i.capture with
  | .frame frame => { i with capture := .frame { frame with resolution := c.mode } }
  | _ => i

def ask (modes : List Resolution) : Compositor := { c with queue := c.queue ++ modes }

theorem deliver_eq (i : LoopInput) : c.deliver i = { i with capture := (c.deliver i).capture } := by
  unfold deliver
  split <;> rfl

theorem destination_apply : c.apply.destination = c.destination := by
  cases c with
  | mk mode queue =>
    cases queue with
    | nil => rfl
    | cons next rest =>
      cases rest <;> rfl

theorem destination_ask (mode : Resolution) : (c.ask [mode]).destination = mode := by
  simp [ask, destination]

theorem ask_nil : c.ask [] = c := by
  simp [ask]

theorem destination_of_empty {c : Compositor} (h : c.queue = []) : c.destination = c.mode := by
  rw [destination, h, List.getLastD_nil]

end Compositor

/-- The mode change under way does not time out, and the input target is set when it is applied. -/
def SettleOrderly (s : CaptureLoop) (i : LoopInput) (frame : Option Resolution) : Prop :=
  ∀ p ∈ s.pendingMode, match p.state frame i.settleNow with
    | .waiting => True
    | .applied => i.targetSet = true
    | .timedOut => False

/-- No request is given up, by a timeout or with a lost capture, and a capture that is recovered has the
recorded mode, to which the input target is set. -/
def CaptureOrderly (platform : Platform) (s : CaptureLoop) (i : LoopInput) : Prop :=
  match i.capture with
  | .idle => SettleOrderly s i none
  | .error => True
  | .lost native rect =>
    s.pendingMode = none ∧ i.targetSet = true ∧
      (s.refreshedDisplay platform native rect).nativeResolution = s.primary.nativeResolution ∧
      (s.refreshedDisplay platform native rect).desktopRect.width = s.primary.nativeResolution.width ∧
      (s.refreshedDisplay platform native rect).desktopRect.height = s.primary.nativeResolution.height
  | .frame frame => SettleOrderly s i (some frame.resolution)

/-- The loop and the compositor. -/
structure ModeSystem where
  loop : CaptureLoop
  compositor : Compositor
  lastRequested : Option Resolution

inductive ModeEvent where
  /-- the compositor applies the next mode -/
  | apply
  /-- an iteration of the loop; the size of a frame is the compositor's -/
  | iterate (i : LoopInput)

namespace ModeSystem

def start (display : Display) (virtualDisplay : Bool) : ModeSystem where
  loop := CaptureLoop.start display virtualDisplay
  compositor := { mode := display.nativeResolution, queue := [] }
  lastRequested := none

def taken (s : ModeSystem) (i : LoopInput) : Option Resolution :=
  if s.loop.stopped then none else i.request.map ModeRequest.resolution

def next (platform : Platform) (s : ModeSystem) : ModeEvent → ModeSystem
  | .apply => { s with compositor := s.compositor.apply }
  | .iterate i =>
    let loop := CaptureLoop.iterate platform s.loop (s.compositor.deliver i)
    { loop
      compositor := s.compositor.ask loop.output.modeRequests
      lastRequested := (s.taken i).or s.lastRequested }

/-- The mode, the recorded resolution and the target of absolute input are what was requested last. -/
def Agreed (s : ModeSystem) : Prop :=
  ∀ r ∈ s.lastRequested, s.compositor.mode = r ∧ s.loop.primary.nativeResolution = r ∧
    s.loop.target.width = r.width ∧ s.loop.target.height = r.height

/-- The loop once an iteration has handled its request. -/
def afterRequest (platform : Platform) (s : ModeSystem) (i : LoopInput) : CaptureLoop :=
  CaptureLoop.handleRequest { s.loop with output := {} } (s.compositor.deliver i) platform

/-- A request is answered as one for the current mode only if the compositor is not on its way to another
one, and is otherwise accepted by it. -/
def RequestOrderly (s : ModeSystem) (i : LoopInput) : Prop :=
  ∀ r ∈ i.request, if r.resolution = s.loop.primary.nativeResolution
    then s.compositor.destination = r.resolution else i.modeResult = .ok ()

structure IterationOrderly (platform : Platform) (s : ModeSystem) (i : LoopInput) : Prop where
  request : s.RequestOrderly i
  capture : CaptureOrderly platform (s.afterRequest platform i) (s.compositor.deliver i)

/-- No step answers a request, or gives one up, while the compositor is on its way to another mode.
-/
def Orderly (platform : Platform) (s : ModeSystem) : ModeEvent → Prop
  | .apply => True
  | .iterate i => s.IterationOrderly platform i

end ModeSystem

def ValidRequest : ModeEvent → Prop
  | .apply => True
  | .iterate i => ∀ r ∈ i.request, validateModeRequest r = .ok r

def TakesRequest : ModeEvent → Prop
  | .apply => False
  | .iterate i => i.request.isSome = true

def CapturesFrame : ModeEvent → Prop
  | .apply => False
  | .iterate i => ∃ frame, i.capture = .frame frame

/-! ## The invariant -/

/-- What the loop has recorded, given where the compositor is going and what was requested last. -/
structure LoopAgrees (destination : Resolution) (last : Option Resolution) (s : CaptureLoop) : Prop where
  target : s.target = s.primary.desktopRect
  width : s.primary.desktopRect.width = s.primary.nativeResolution.width
  height : s.primary.desktopRect.height = s.primary.nativeResolution.height
  pending : ∀ p, s.pendingMode = some p → destination = p.requested ∧ last = some p.requested
  settled : s.pendingMode = none →
    destination = s.primary.nativeResolution ∧ ∀ r ∈ last, s.primary.nativeResolution = r

variable {destination : Resolution} {last : Option Resolution} {s s' : CaptureLoop} {i : LoopInput}
  {platform : Platform}

theorem LoopAgrees.of_same (h : LoopAgrees destination last s) (hsame : SameDisplay s s') :
    LoopAgrees destination last s' where
  target := by rw [hsame.target, hsame.primary]; exact h.target
  width := by rw [hsame.primary]; exact h.width
  height := by rw [hsame.primary]; exact h.height
  pending := by rw [hsame.pendingMode]; exact h.pending
  settled := by rw [hsame.pendingMode, hsame.primary]; exact h.settled

/-! ### Requests -/

/-- What a valid request does where the compositor is asked for the mode. -/
inductive Requested (s : CaptureLoop) (i : LoopInput) (r : Resolution) : CaptureLoop → Prop where
  /-- it is for the recorded mode -/
  | noop {s' : CaptureLoop} (hcurrent : s.primary.nativeResolution = r) (hpending : s'.pendingMode = none)
      (hprimary : s'.primary = s.primary) (htarget : s'.target = s.target)
      (hmodes : s'.output.modeRequests = s.output.modeRequests) : Requested s i r s'
  | asked {s' : CaptureLoop} (hother : s.primary.nativeResolution ≠ r) (hresult : i.modeResult = .ok ())
      (hpending : s'.pendingMode = some (.new r s.primary.nativeResolution i.requestNow))
      (hprimary : s'.primary = s.primary) (htarget : s'.target = s.target)
      (hmodes : s'.output.modeRequests = s.output.modeRequests ++ [r]) : Requested s i r s'
  | refused {s' : CaptureLoop} {error : String} (hother : s.primary.nativeResolution ≠ r)
      (hresult : i.modeResult = .error error) (hsame : SameDisplay s s') : Requested s i r s'

variable {request : ModeRequest} {frame : Option Resolution}

theorem handleRequestCompositor_cases (hvalid : validateModeRequest request = .ok request) :
    Requested s i request.resolution ((s.beginTransition request).handleRequestCompositor i request) := by
  have hmode : s.primary.mode = request ↔ s.primary.nativeResolution = request.resolution := by
    rw [Display.mode, ModeRequest.resolution]
    cases s.primary.nativeResolution
    cases request
    simp
  unfold handleRequestCompositor
  rw [hvalid]
  dsimp only
  split
  next hneeded =>
    have hother : s.primary.nativeResolution ≠ request.resolution := by
      intro hsame
      rw [← hmode] at hsame
      have hno := modeChangeNeeded_eq_false.mpr hsame
      exact absurd (hneeded.symm.trans hno) (by decide)
    split
    next hresult => exact .asked hother hresult rfl rfl rfl rfl
    next error hresult => exact .refused hother hresult ⟨rfl, rfl, rfl, rfl, rfl⟩
  next hneeded =>
    have hcurrent := modeChangeNeeded_eq_false.mp (Bool.not_eq_true _ ▸ hneeded)
    exact .noop (hmode.mp hcurrent) rfl rfl rfl rfl

theorem handleRequest_of_ne_windows (hplatform : platform ≠ .windows) (hrequest : i.request = some request) :
    s.handleRequest i platform = (s.beginTransition request).handleRequestCompositor i request := by
  unfold handleRequest
  rw [hrequest]
  cases platform with
  | windows => exact absurd rfl hplatform
  | linux => rfl
  | other => rfl

/-- After a valid and orderly request, the loop waits for the new destination or has recorded it. -/
theorem LoopAgrees.handleRequest {c : Compositor} (h : LoopAgrees c.destination last s)
    (hplatform : platform ≠ .windows) (hmodes : s.output.modeRequests = [])
    (hvalid : ∀ r ∈ i.request, validateModeRequest r = .ok r)
    (horderly : ∀ r ∈ i.request, if r.resolution = s.primary.nativeResolution
      then c.destination = r.resolution else i.modeResult = .ok ()) :
    LoopAgrees (c.ask (s.handleRequest i platform).output.modeRequests).destination
      ((i.request.map ModeRequest.resolution).or last) (s.handleRequest i platform) := by
  cases hrequest : i.request with
  | none =>
    rw [handleRequest_of_none hrequest, hmodes, ask_nil]
    exact h
  | some request =>
    rw [handleRequest_of_ne_windows hplatform hrequest]
    have hsteps := handleRequestCompositor_cases (s := s) (i := i) (hvalid request hrequest)
    have hreq := horderly request hrequest
    cases hsteps with
    | noop hcurrent hpending hprimary htarget hmodes' =>
      rw [if_pos hcurrent.symm] at hreq
      rw [hmodes', hmodes, ask_nil]
      refine ⟨?_, ?_, ?_, ?_, ?_⟩
      · rw [htarget, hprimary]
        exact h.target
      · rw [hprimary]
        exact h.width
      · rw [hprimary]
        exact h.height
      · intro p hp
        rw [hpending] at hp
        cases hp
      · intro _
        rw [hprimary]
        refine ⟨hreq.trans hcurrent.symm, fun r hr => ?_⟩
        rw [hcurrent]
        exact Option.some.inj hr
    | asked hother hresult hpending hprimary htarget hmodes' =>
      rw [hmodes', hmodes, List.nil_append, destination_ask]
      refine ⟨?_, ?_, ?_, ?_, ?_⟩
      · rw [htarget, hprimary]
        exact h.target
      · rw [hprimary]
        exact h.width
      · rw [hprimary]
        exact h.height
      · intro p hp
        rw [hpending] at hp
        cases hp
        exact ⟨rfl, rfl⟩
      · intro hnone
        rw [hpending] at hnone
        cases hnone
    | refused hother hresult hsame =>
      rw [if_neg (Ne.symm hother), hresult] at hreq
      cases hreq

/-! ### Capture -/

/-- A mode change is settled by a frame of its size. -/
theorem LoopAgrees.settle (h : LoopAgrees destination last s) (horderly : SettleOrderly s i frame) :
    LoopAgrees destination last (s.settlePendingMode i frame) := by
  unfold settlePendingMode
  split
  · exact h
  next p hp =>
    obtain ⟨hdestination, hlast⟩ := h.pending p hp
    have hstate := horderly p hp
    unfold CaptureLoop.settle
    split
    · exact h
    next happlied =>
      rw [happlied] at hstate
      have htarget : i.targetSet = true := hstate
      refine ⟨?_, rfl, rfl, ?_, ?_⟩
      · rw [htarget]
        rfl
      · intro q hq
        cases hq
      · intro _
        refine ⟨hdestination, fun r hr => ?_⟩
        rw [hlast] at hr
        exact Option.some.inj hr
    next htimedOut =>
      rw [htimedOut] at hstate
      cases hstate

theorem modeRequests_settlePendingMode (frame : Option Resolution) :
    (s.settlePendingMode i frame).output.modeRequests = s.output.modeRequests := by
  unfold settlePendingMode
  split
  · rfl
  · unfold CaptureLoop.settle
    split <;> rfl

theorem modeRequests_captureNext :
    (s.captureNext i platform).output.modeRequests = s.output.modeRequests := by
  unfold captureNext
  split
  · exact modeRequests_settlePendingMode none
  · rfl
  · rfl
  next frame _ =>
    split
    · rw [(sameDisplay_encodeFrame frame).modeRequests, modeRequests_settlePendingMode]
    · exact modeRequests_settlePendingMode _

theorem LoopAgrees.captureNext (platform : Platform) (h : LoopAgrees destination last s)
    (horderly : CaptureOrderly platform s i) :
    LoopAgrees destination last (s.captureNext i platform) := by
  unfold CaptureOrderly at horderly
  unfold CaptureLoop.captureNext
  cases hcapture : i.capture with
  | idle =>
    rw [hcapture] at horderly
    exact h.settle horderly
  | error => exact h
  | lost native rect =>
    rw [hcapture] at horderly
    obtain ⟨hnone, htarget, hnative, hwidth, hheight⟩ := horderly
    obtain ⟨hdestination, hlast⟩ := h.settled hnone
    refine ⟨?_, ?_, ?_, ?_, ?_⟩
    · simp [recoverLostCapture, restartOn, htarget]
    · exact hwidth.trans (congrArg Resolution.width hnative.symm)
    · exact hheight.trans (congrArg Resolution.height hnative.symm)
    · intro p hp
      cases hp
    · intro _
      exact ⟨hdestination.trans hnative.symm, fun r hr => hnative.trans (hlast r hr)⟩
  | frame frame =>
    rw [hcapture] at horderly
    have hsettled := h.settle horderly
    dsimp only
    split
    · exact hsettled.of_same (sameDisplay_encodeFrame frame)
    · exact hsettled

/-! ## Steps -/

namespace ModeSystem

variable {s : ModeSystem} {e : ModeEvent}

def Inv (s : ModeSystem) : Prop := LoopAgrees s.compositor.destination s.lastRequested s.loop

theorem inv_start {display : Display} (virtualDisplay : Bool)
    (hwidth : display.desktopRect.width = display.nativeResolution.width)
    (hheight : display.desktopRect.height = display.nativeResolution.height) :
    (start display virtualDisplay).Inv where
  target := rfl
  width := hwidth
  height := hheight
  pending p hp := by cases hp
  settled _ := ⟨rfl, fun r hr => by cases hr⟩

theorem loop_next (hrunning : s.loop.stopped = false) (i : LoopInput) :
    (s.next platform (.iterate i)).loop =
      (s.afterRequest platform i).captureNext (s.compositor.deliver i) platform := by
  exact iterate_of_running platform hrunning

theorem inv_iterate (h : s.Inv) (hplatform : platform ≠ .windows) (hrunning : s.loop.stopped = false)
    (hvalid : ValidRequest (.iterate i)) (horderly : s.IterationOrderly platform i) :
    (s.next platform (.iterate i)).Inv := by
  have hsame := s.compositor.deliver_eq i
  have hrequest : (s.compositor.deliver i).request = i.request := by rw [hsame]
  have hresult : (s.compositor.deliver i).modeResult = i.modeResult := by rw [hsame]
  have hfresh : LoopAgrees s.compositor.destination s.lastRequested { s.loop with output := {} } :=
    ⟨h.target, h.width, h.height, h.pending, h.settled⟩
  have hrequested := hfresh.handleRequest hplatform rfl
    (by rw [hrequest]; exact hvalid) (by rw [hrequest, hresult]; exact horderly.request)
  have hcaptured := hrequested.captureNext platform horderly.capture
  have hmodes : (s.next platform (.iterate i)).loop.output.modeRequests =
      (s.afterRequest platform i).output.modeRequests := by
    rw [loop_next hrunning, modeRequests_captureNext]
  have hlast : (s.next platform (.iterate i)).lastRequested =
      ((s.compositor.deliver i).request.map ModeRequest.resolution).or s.lastRequested := by
    show (s.taken i).or _ = _
    rw [taken, if_neg (by rw [hrunning]; decide), hrequest]
  have hdestination : (s.next platform (.iterate i)).compositor =
      s.compositor.ask (s.afterRequest platform i).output.modeRequests := by
    rw [← hmodes]
    rfl
  rw [Inv, hdestination, hlast, loop_next hrunning]
  exact hcaptured

theorem next_inv (h : s.Inv) (hplatform : platform ≠ .windows) (hrunning : s.loop.stopped = false)
    (hvalid : ValidRequest e) (horderly : s.Orderly platform e) : (s.next platform e).Inv := by
  cases e with
  | apply =>
    show LoopAgrees s.compositor.apply.destination _ _
    rw [destination_apply]
    exact h
  | iterate i => exact inv_iterate h hplatform hrunning hvalid horderly

/-! ## In the end -/

theorem settlePendingMode_of_requested {t : CaptureLoop} (h : ∀ p ∈ t.pendingMode, frame = some p.requested) :
    (t.settlePendingMode i frame).pendingMode = none := by
  unfold settlePendingMode
  split
  next hnone => exact hnone
  next p hp =>
    have hstate : p.state frame i.settleNow = .applied := by
      rw [PendingMode.state, if_pos (h p hp)]
    rw [settle, hstate]

theorem afterRequest_of_not_takes (hno : ¬ TakesRequest (.iterate i)) :
    s.afterRequest platform i = { s.loop with output := {} } := by
  have hnone : (s.compositor.deliver i).request = none := by
    rw [s.compositor.deliver_eq i]
    exact Option.not_isSome_iff_eq_none.mp hno
  rw [afterRequest, handleRequest_of_none hnone]

theorem pendingMode_next (hrunning : s.loop.stopped = false) (hno : ¬ TakesRequest e)
    (h : s.loop.pendingMode = none) : (s.next platform e).loop.pendingMode = none := by
  cases e with
  | apply => exact h
  | iterate i =>
    rw [loop_next hrunning, afterRequest_of_not_takes hno]
    refine Option.eq_none_iff_forall_ne_some.mpr fun p hp => ?_
    have hbefore := pendingMode_captureNext hp
    rw [h] at hbefore
    cases hbefore

/-- With everything applied, the next frame has the size the loop waits for. -/
theorem pendingMode_next_of_frame (h : s.Inv) (hrunning : s.loop.stopped = false)
    (hno : ¬ TakesRequest e) (hempty : s.compositor.queue = []) (hframe : CapturesFrame e) :
    (s.next platform e).loop.pendingMode = none := by
  cases e with
  | apply => exact absurd hframe id
  | iterate i =>
    obtain ⟨frame, hcapture⟩ := hframe
    rw [loop_next hrunning, afterRequest_of_not_takes hno]
    have hsettled : ∀ p ∈ s.loop.pendingMode, some s.compositor.mode = some p.requested := by
      intro p hp
      rw [← (h.pending p hp).1, destination_of_empty hempty]
    have hdelivered : (s.compositor.deliver i).capture =
        .frame { frame with resolution := s.compositor.mode } := by
      simp [deliver, hcapture]
    unfold captureNext
    rw [hdelivered]
    dsimp only
    split
    · rw [(sameDisplay_encodeFrame _).pendingMode]
      exact settlePendingMode_of_requested hsettled
    · exact settlePendingMode_of_requested hsettled

theorem Inv.agreed (h : s.Inv) (hempty : s.compositor.queue = []) (hnone : s.loop.pendingMode = none) :
    s.Agreed := by
  obtain ⟨hdestination, hlast⟩ := h.settled hnone
  intro r hr
  have hnative := hlast r hr
  refine ⟨?_, hnative, ?_, ?_⟩
  · rw [← destination_of_empty hempty, hdestination, hnative]
  · rw [h.target, h.width, hnative]
  · rw [h.target, h.height, hnative]

end ModeSystem

open ModeSystem

/-- In a run of orderly steps, the last request wins. -/
theorem last_request_wins (platform : Platform) (hplatform : platform ≠ .windows) (display : Display)
    (virtualDisplay : Bool) (hwidth : display.desktopRect.width = display.nativeResolution.width)
    (hheight : display.desktopRect.height = display.nativeResolution.height) (events : ℕ → ModeEvent)
    (hvalid : ∀ n, ValidRequest (events n))
    (hrunning : ∀ n, (stateAt (next platform) (start display virtualDisplay) events n).loop.stopped = false)
    (horderly : ∀ n,
      (stateAt (next platform) (start display virtualDisplay) events n).Orderly platform (events n))
    (hstop : ∀ᶠ n in atTop, ¬ TakesRequest (events n))
    (happlied : ∀ᶠ n in atTop,
      (stateAt (next platform) (start display virtualDisplay) events n).compositor.queue = [])
    (hframes : ∃ᶠ n in atTop, CapturesFrame (events n)) :
    ∀ᶠ n in atTop, (stateAt (next platform) (start display virtualDisplay) events n).Agreed := by
  have hinv : ∀ n, (stateAt (next platform) (start display virtualDisplay) events n).Inv :=
    stateAt_invariant
      (fun s e => s.loop.stopped = false ∧ ValidRequest e ∧ s.Orderly platform e)
      (fun _ _ h hok => next_inv h hplatform hok.1 hok.2.1 hok.2.2)
      (inv_start virtualDisplay hwidth hheight) fun n => ⟨hrunning n, hvalid n, horderly n⟩
  -- the loop stops waiting with the next frame, and does not wait again
  have hsettled : ∀ᶠ n in atTop,
      (stateAt (next platform) (start display virtualDisplay) events n).loop.pendingMode = none := by
    refine eventually_of_stays ?_ ?_
    · exact hstop.mono fun n hno hnone => pendingMode_next (hrunning n) hno hnone
    · refine frequently_atTop.mpr fun N => ?_
      obtain ⟨n, hn, hframe, hno, hempty⟩ :=
        frequently_atTop.mp (hframes.and_eventually (hstop.and happlied)) N
      exact ⟨n + 1, by omega, pendingMode_next_of_frame (hinv n) (hrunning n) hno hempty hframe⟩
  filter_upwards [hsettled, happlied] with n hnone hempty
  exact (hinv n).agreed hempty hnone

/-- A virtual monitor of 1920x1080. -/
def fullHdMonitor : Display := ⟨virtualMonitorName, none, ⟨1920, 1080⟩, ⟨0, 0, 1920, 1080⟩⟩

/-- An iteration without encoding. -/
def modeInput (request : Option ModeRequest) (capture : CaptureOutcome) : LoopInput :=
  { LoopInput.smooth request capture with due := false }

def someFrame : CapturedFrame := ⟨.bgra8, ⟨0, 0⟩, 0, 0⟩

def oneRequest : ℕ → ModeEvent
  | 0 => .iterate (modeInput (some ⟨1280, 720⟩) .idle)
  | 1 => .apply
  | _ + 2 => .iterate (modeInput none (.frame someFrame))

/-- The request for 1280x720 is taken back while the compositor is still on its way to it. -/
def takenBack : ℕ → ModeEvent
  | 0 => .iterate (modeInput (some ⟨1280, 720⟩) .idle)
  | 1 => .iterate (modeInput (some ⟨1920, 1080⟩) .idle)
  | 2 => .apply
  | _ + 3 => .iterate (modeInput none (.frame someFrame))

theorem oneRequest_fixed (n : ℕ) (hn : 3 ≤ n) :
    stateAt (next .linux) (start fullHdMonitor true) oneRequest n =
      stateAt (next .linux) (start fullHdMonitor true) oneRequest 3 := by
  refine stateAt_of_fixed (fun m hm => ?_) n hn
  obtain ⟨k, rfl⟩ : ∃ k, m = k + 2 := ⟨m - 2, by omega⟩
  rfl

theorem takenBack_fixed (n : ℕ) (hn : 4 ≤ n) :
    stateAt (next .linux) (start fullHdMonitor true) takenBack n =
      stateAt (next .linux) (start fullHdMonitor true) takenBack 4 := by
  refine stateAt_of_fixed (fun m hm => ?_) n hn
  obtain ⟨k, rfl⟩ : ∃ k, m = k + 3 := ⟨m - 3, by omega⟩
  rfl

theorem modeInput_valid {width height : Nat} {capture : CaptureOutcome}
    (hvalid : validateModeRequest ⟨width, height⟩ = .ok ⟨width, height⟩) :
    ValidRequest (.iterate (modeInput (some ⟨width, height⟩) capture)) := by
  intro r hr
  cases hr
  exact hvalid

theorem modeInput_frame_valid : ValidRequest (.iterate (modeInput none (.frame someFrame))) := by
  intro r hr
  cases hr

theorem last_request_wins_one_request :
    (∀ᶠ n in atTop, (stateAt (next .linux) (start fullHdMonitor true) oneRequest n).Agreed) ∧
      (stateAt (next .linux) (start fullHdMonitor true) oneRequest 3).lastRequested = some ⟨1280, 720⟩ := by
  refine ⟨last_request_wins .linux (by decide) fullHdMonitor true rfl rfl oneRequest ?_ ?_ ?_ ?_ ?_ ?_, rfl⟩
  · rintro (_ | _ | n)
    · exact modeInput_valid rfl
    · trivial
    · exact modeInput_frame_valid
  · rintro (_ | _ | _ | n)
    · rfl
    · rfl
    · rfl
    · rw [oneRequest_fixed (n + 3) (by omega)]
      rfl
  · rintro (_ | _ | _ | n)
    · refine ⟨?_, ?_⟩
      · intro r hr
        cases hr
        exact rfl
      · intro p hp
        cases hp
        trivial
    · trivial
    · refine ⟨?_, ?_⟩
      · intro r hr
        cases hr
      · intro p hp
        cases hp
        rfl
    · rw [oneRequest_fixed (n + 3) (by omega)]
      refine ⟨?_, ?_⟩
      · intro r hr
        cases hr
      · intro p hp
        cases hp
  · refine eventually_atTop.mpr ⟨2, fun n hn => ?_⟩
    obtain ⟨k, rfl⟩ : ∃ k, n = k + 2 := ⟨n - 2, by omega⟩
    exact Bool.false_ne_true
  · refine eventually_atTop.mpr ⟨3, fun n hn => ?_⟩
    rw [oneRequest_fixed n hn]
    rfl
  · refine frequently_atTop.mpr fun N => ⟨N + 2, by omega, ⟨_, rfl⟩⟩

/-- The request for the old mode is answered at once, and the compositor ends with the other one. -/
theorem last_request_loses :
    ¬ ∀ (platform : Platform), platform ≠ .windows → ∀ (display : Display) (virtualDisplay : Bool),
      display.desktopRect.width = display.nativeResolution.width →
      display.desktopRect.height = display.nativeResolution.height → ∀ (events : ℕ → ModeEvent),
      (∀ n, ValidRequest (events n)) →
      (∀ n, (stateAt (next platform) (start display virtualDisplay) events n).loop.stopped = false) →
      (∀ᶠ n in atTop, ¬ TakesRequest (events n)) →
      (∀ᶠ n in atTop,
        (stateAt (next platform) (start display virtualDisplay) events n).compositor.queue = []) →
      (∃ᶠ n in atTop, CapturesFrame (events n)) →
      ∀ᶠ n in atTop, (stateAt (next platform) (start display virtualDisplay) events n).Agreed := by
  intro hclaim
  have hagreed := hclaim .linux (by decide) fullHdMonitor true rfl rfl takenBack ?_ ?_ ?_ ?_ ?_
  · obtain ⟨N, hN⟩ := eventually_atTop.mp hagreed
    have hlast := hN (N + 4) (by omega)
    rw [takenBack_fixed (N + 4) (by omega)] at hlast
    obtain ⟨hmode, -⟩ := hlast ⟨1920, 1080⟩ rfl
    cases hmode
  · rintro (_ | _ | _ | n)
    · exact modeInput_valid rfl
    · exact modeInput_valid rfl
    · trivial
    · exact modeInput_frame_valid
  · rintro (_ | _ | _ | _ | n)
    · rfl
    · rfl
    · rfl
    · rfl
    · rw [takenBack_fixed (n + 4) (by omega)]
      rfl
  · refine eventually_atTop.mpr ⟨3, fun n hn => ?_⟩
    obtain ⟨k, rfl⟩ : ∃ k, n = k + 3 := ⟨n - 3, by omega⟩
    exact Bool.false_ne_true
  · refine eventually_atTop.mpr ⟨4, fun n hn => ?_⟩
    rw [takenBack_fixed n hn]
    rfl
  · refine frequently_atTop.mpr fun N => ⟨N + 3, by omega, ⟨_, rfl⟩⟩

end Rustcast.Host
