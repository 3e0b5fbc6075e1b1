import Rustcast.Core.Endless
import Rustcast.Host.CaptureLoop

/-!
# Capture above the size of the encoder

An encoder that takes smaller frames only makes the loop restart its capture at the encoder's size. If that
fails, capture restarts at the native size and the frames are to be scaled down on the CPU. The restart
drops the encoder and the size it was built for, and the next frame finds neither.
-/

namespace Rustcast.Host

open Filter CaptureLoop

/-- The answers with which only the fallback is left: the restart at the encoder's size fails, the one at
the native size succeeds, and an encoder up to `max` can be built. -/
structure Fallback (max : Resolution) (i : LoopInput) : Prop where
  scaled_fails : i.startScaled = false
  native_starts : i.startNative = true
  builds : ∀ r, buildEncodeSessionFor i.candidates r = some (fitWithin r max)

/-- A frame of the size is captured and due for encoding. -/
def DueFrame (size : Resolution) (i : LoopInput) : Prop :=
  ∃ frame, i.capture = .frame frame ∧ frame.resolution = size ∧ i.due = true

/-- An encoder that is kept takes the frames without scaling. -/
structure EncoderFits (max : Resolution) (s : CaptureLoop) : Prop where
  session : ∀ res, s.encodeSession = some res → s.encodeResolution = s.captureResolution ∧
    fitWithin s.captureResolution max = s.captureResolution
  retry : s.encoderRetry.retryAt = none
  running : s.stopped = false

variable {max : Resolution} {s s' : CaptureLoop} {i : LoopInput} {frame : CapturedFrame}

theorem encoderFits_start (primary : Display) (virtualDisplay : Bool) :
    EncoderFits max (CaptureLoop.start primary virtualDisplay) where
  session res h := by cases h
  retry := rfl
  running := rfl

theorem EncoderFits.of_same (h : EncoderFits max s) (hsame : SameEncoder s s') : EncoderFits max s' where
  session := by
    rw [hsame.encodeSession, hsame.encodeResolution, hsame.captureResolution]
    exact h.session
  retry := by rw [hsame.encoderRetry]; exact h.retry
  running := by rw [hsame.stopped]; exact h.running

theorem EncoderFits.dropEncoder (h : EncoderFits max s) : EncoderFits max s.dropEncoder where
  session res hres := by cases hres
  retry := h.retry
  running := h.running

/-! ## One frame -/

theorem submit_encoder (i : LoopInput) (frame : CapturedFrame) (hsession : s.encodeSession.isSome = true) :
    ∃ n, SameEncoder { s.takeFrame frame with
      output := { (s.takeFrame frame).output with packets := (s.takeFrame frame).output.packets + n } }
      (s.submit i frame) := by
  unfold submit
  rw [if_pos hsession]
  split
  next packets _ => exact ⟨packets, emitPackets_encoder packets _⟩
  · exact ⟨0, .refl⟩

theorem EncoderFits.submit (h : EncoderFits max s) (i : LoopInput) (frame : CapturedFrame)
    (hsession : s.encodeSession.isSome = true) :
    EncoderFits max (s.submit i frame) ∧ (s.submit i frame).output.restarts = s.output.restarts ∧
      (s.submit i frame).output.submitted = some frame := by
  obtain ⟨n, hsame⟩ := submit_encoder i frame hsession
  refine ⟨.of_same ?_ hsame, hsame.restarts, hsame.submitted⟩
  exact ⟨h.session, h.retry, h.running⟩

/-- The backoff is never used while encoders can be built, so a missing one is rebuilt at once. -/
theorem EncoderFits.isSome_of_not_needsRebuild (h : EncoderFits max s)
    (hneeds : s.needsRebuild i frame.resolution = false) :
    s.captureResolution = frame.resolution ∧ s.encodeSession.isSome = true := by
  rw [needsRebuild, EncoderRetry.due, h.retry] at hneeds
  simpa using hneeds

theorem openEncoder_of_builds {res : Resolution}
    (hbuild : buildEncodeSessionFor i.candidates frame.resolution = some res) :
    s.openEncoder i frame.resolution = { s with
      encodeSession := some res, captureResolution := frame.resolution, encodeResolution := res
      encoderRetry := .onSuccess } := by
  simp [openEncoder, hbuild]

/-- A frame that is due and needs no scaling. -/
theorem encodeFrame_submits (h : EncoderFits max s) (hi : Fallback max i)
    (hfit : fitWithin frame.resolution max = frame.resolution) :
    EncoderFits max (s.encodeFrame i frame) ∧
      (s.encodeFrame i frame).output.restarts = s.output.restarts ∧
      (s.encodeFrame i frame).output.submitted = some frame := by
  have hcases := encodeFrame_cases s i frame
  generalize s.encodeFrame i frame = s' at hcases
  have hbuilds := hi.builds frame.resolution
  cases hcases with
  | kept hneeds =>
    obtain ⟨hcapture, hsession⟩ := h.isSome_of_not_needsRebuild hneeds
    obtain ⟨res, hres⟩ := Option.isSome_iff_exists.mp hsession
    have hsame : frame.resolution = s.encodeResolution := by
      rw [(h.session res hres).1, hcapture]
    rw [scaleAndSubmit, if_neg (not_not.mpr hsame)]
    exact h.submit i frame hsession
  | failed _ hbuild =>
    rw [hbuilds] at hbuild
    cases hbuild
  | fitted _ hbuild =>
    have hopened : EncoderFits max (s.openEncoder i frame.resolution) := by
      rw [openEncoder_of_builds hbuild]
      exact ⟨fun _ _ => ⟨rfl, hfit⟩, rfl, h.running⟩
    have hrestarts : (s.openEncoder i frame.resolution).output.restarts = s.output.restarts := by
      rw [openEncoder_of_builds hbuild]
    have hsession : (s.openEncoder i frame.resolution).encodeSession.isSome = true := by
      rw [openEncoder_of_builds hbuild]
      rfl
    obtain ⟨hfits, hsame, hsubmitted⟩ := hopened.submit i frame hsession
    exact ⟨hfits, hsame.trans hrestarts, hsubmitted⟩
  | restarted res _ hbuild hsmaller =>
    rw [hbuilds, hfit] at hbuild
    exact absurd (Option.some.inj hbuild).symm hsmaller

/-- A frame of any other size restarts the capture, and is not submitted. -/
theorem encodeFrame_restarts (h : EncoderFits max s) (hi : Fallback max i)
    (hfit : fitWithin frame.resolution max ≠ frame.resolution) :
    EncoderFits max (s.encodeFrame i frame) ∧
      (s.encodeFrame i frame).output.restarts = s.output.restarts ++ [frame.resolution] := by
  have hcases := encodeFrame_cases s i frame
  generalize s.encodeFrame i frame = s' at hcases
  have hbuilds := hi.builds frame.resolution
  cases hcases with
  | kept hneeds =>
    -- an encoder that was kept fits
    obtain ⟨hcapture, hsession⟩ := h.isSome_of_not_needsRebuild hneeds
    obtain ⟨res, hres⟩ := Option.isSome_iff_exists.mp hsession
    have hfits := (h.session res hres).2
    rw [hcapture] at hfits
    exact absurd hfits hfit
  | failed _ hbuild =>
    rw [hbuilds] at hbuild
    cases hbuild
  | fitted _ hbuild =>
    rw [hbuilds] at hbuild
    exact absurd (Option.some.inj hbuild) hfit
  | restarted res _ hbuild hsmaller =>
    rw [openEncoder_of_builds hbuild, restartForDownscale, hi.scaled_fails, hi.native_starts]
    refine ⟨⟨fun _ hres => ?_, rfl, h.running⟩, rfl⟩
    cases hres

/-! ## One iteration -/

/-- What an iteration does for the frames of a size. -/
structure Handled (max size : Resolution) (i : LoopInput) (output : LoopOutput) : Prop where
  submits : DueFrame size i → fitWithin size max = size →
    ∃ frame, output.submitted = some frame ∧ frame.resolution = size
  restarts : DueFrame size i → fitWithin size max ≠ size → size ∈ output.restarts
  keeps : DueFrame size i → fitWithin size max = size → size ∉ output.restarts
  others : ¬ DueFrame size i → size ∉ output.restarts

theorem handled_of_no_frame {size : Resolution} {output : LoopOutput} (hno : ¬ DueFrame size i)
    (hrestarts : output.restarts = []) : Handled max size i output where
  submits hdue := absurd hdue hno
  restarts hdue := absurd hdue hno
  keeps hdue := absurd hdue hno
  others _ := by simp [hrestarts]

theorem captureNext_handled {platform : Platform} (h : EncoderFits max s) (hi : Fallback max i)
    (hempty : s.output.restarts = []) :
    EncoderFits max (s.captureNext i platform) ∧
      ∀ size, Handled max size i (s.captureNext i platform).output := by
  unfold captureNext
  split
  next hidle =>
    have hsame := sameEncoder_settlePendingMode (s := s) (i := i) none
    refine ⟨h.of_same hsame, fun size => handled_of_no_frame ?_ (hsame.restarts.trans hempty)⟩
    rintro ⟨frame, hframe, -⟩
    rw [hidle] at hframe
    cases hframe
  next herror =>
    refine ⟨h, fun size => handled_of_no_frame ?_ hempty⟩
    rintro ⟨frame, hframe, -⟩
    rw [herror] at hframe
    cases hframe
  next native rect hlost =>
    refine ⟨h.dropEncoder.of_same ⟨rfl, rfl, rfl, rfl, rfl, rfl, rfl, rfl⟩,
      fun size => handled_of_no_frame ?_ hempty⟩
    rintro ⟨frame, hframe, -⟩
    rw [hlost] at hframe
    cases hframe
  next frame hframe =>
    have hsame := sameEncoder_settlePendingMode (s := s) (i := i) (some frame.resolution)
    have hfits := h.of_same hsame
    have hnone := hsame.restarts.trans hempty
    have hsize : ∀ size, DueFrame size i → frame.resolution = size ∧ i.due = true := by
      rintro size ⟨frame', hframe', hres, hdue⟩
      rw [hframe] at hframe'
      cases hframe'
      exact ⟨hres, hdue⟩
    split
    next hdue =>
      by_cases hfit : fitWithin frame.resolution max = frame.resolution
      · obtain ⟨hencoded, hrestarts, hsubmitted⟩ := encodeFrame_submits hfits hi hfit
        rw [hnone] at hrestarts
        refine ⟨hencoded, fun size => ⟨fun hd _ => ⟨frame, hsubmitted, (hsize size hd).1⟩, ?_, ?_, ?_⟩⟩
        · intro hd hne
          rw [← (hsize size hd).1] at hne
          exact absurd hfit hne
        · intro _ _
          rw [hrestarts]
          exact List.not_mem_nil
        · intro _
          rw [hrestarts]
          exact List.not_mem_nil
      · obtain ⟨hencoded, hrestarts⟩ := encodeFrame_restarts hfits hi hfit
        rw [hnone, List.nil_append] at hrestarts
        refine ⟨hencoded, fun size => ⟨?_, ?_, ?_, ?_⟩⟩
        · intro hd hsame
          rw [← (hsize size hd).1] at hsame
          exact absurd hsame hfit
        · intro hd _
          rw [hrestarts, (hsize size hd).1]
          exact List.mem_singleton.mpr rfl
        · intro hd hsame
          rw [← (hsize size hd).1] at hsame
          exact absurd hsame hfit
        · intro hno
          rw [hrestarts, List.mem_singleton]
          rintro rfl
          exact hno ⟨frame, hframe, rfl, hdue⟩
    next hdue =>
      refine ⟨hfits, fun size => handled_of_no_frame ?_ hnone⟩
      intro hd
      exact hdue (hsize size hd).2

theorem iterate_handled {platform : Platform} (h : EncoderFits max s) (hi : Fallback max i) :
    EncoderFits max (iterate platform s i) ∧ ∀ size, Handled max size i (iterate platform s i).output := by
  have hfresh : EncoderFits max { s with output := {} } := ⟨h.session, h.retry, h.running⟩
  rw [iterate_of_running platform h.running]
  -- the request leaves the encoder, or drops it
  rcases handleRequest_encoder { s with output := {} } i platform with hsame | hdropped
  · exact captureNext_handled (hfresh.of_same hsame) hi hsame.restarts
  · exact captureNext_handled (hfresh.dropEncoder.of_same hdropped) hi hdropped.restarts

/-! ## Endless runs -/

/-- The capture is restarted for a size only finitely often, and every later frame of the size that is due
is submitted at the size of the encoder. -/
def DownscaleProgress (platform : Platform) (s : CaptureLoop) (inputs : ℕ → LoopInput)
    (max size : Resolution) : Prop :=
  (∀ᶠ n in atTop, size ∉ (Endless.stateAt (iterate platform) s inputs (n + 1)).output.restarts) ∧
    ∀ᶠ n in atTop, DueFrame size (inputs n) →
      ∃ frame, (Endless.stateAt (iterate platform) s inputs (n + 1)).output.submitted = some frame ∧
        frame.resolution = fitWithin size max

theorem handled_stateAt (platform : Platform) {inputs : ℕ → LoopInput}
    (hfallback : ∀ n, Fallback max (inputs n)) (h : EncoderFits max s) (size : Resolution) (n : ℕ) :
    Handled max size (inputs n) (Endless.stateAt (iterate platform) s inputs (n + 1)).output := by
  have hfits : ∀ n, EncoderFits max (Endless.stateAt (iterate platform) s inputs n) :=
    Endless.stateAt_invariant (fun _ => Fallback max) (fun _ _ hs hi => (iterate_handled hs hi).1)
      h hfallback
  exact (iterate_handled (hfits n) (hfallback n)).2 size

/-- With only the fallback left, there is progress exactly for the sizes that fit, and for those whose
frames stop. -/
theorem downscale_progress_iff (platform : Platform) (primary : Display) (virtualDisplay : Bool)
    (inputs : ℕ → LoopInput) (max size : Resolution) (hfallback : ∀ n, Fallback max (inputs n)) :
    DownscaleProgress platform (CaptureLoop.start primary virtualDisplay) inputs max size ↔
      fitWithin size max = size ∨ ∀ᶠ n in atTop, ¬ DueFrame size (inputs n) := by
  have hhandled := handled_stateAt platform hfallback (encoderFits_start primary virtualDisplay) size
  constructor
  · rintro ⟨hrestarts, -⟩
    by_cases hfit : fitWithin size max = size
    · exact .inl hfit
    · refine .inr (hrestarts.mono fun n hn hdue => ?_)
      exact hn ((hhandled n).restarts hdue hfit)
  · rintro (hfit | hstops)
    · refine ⟨.of_forall fun n => ?_, .of_forall fun n hdue => ?_⟩
      · by_cases hdue : DueFrame size (inputs n)
        · exact (hhandled n).keeps hdue hfit
        · exact (hhandled n).others hdue
      · rw [hfit]
        exact (hhandled n).submits hdue hfit
    · exact ⟨hstops.mono fun n hn => (hhandled n).others hn, hstops.mono fun n hn hdue => absurd hdue hn⟩

/-- An iteration that captures a frame, with an encoder up to 4096x4096 and no scaling by the platform. -/
def wideInput (size : Resolution) : LoopInput :=
  { LoopInput.smooth none (.frame (.packed size)) with
    candidates := [{ created := true, maxResolution := some ⟨4096, 4096⟩, opens := fun _ => true }]
    startScaled := false }

theorem fallback_wideInput (size : Resolution) : Fallback ⟨4096, 4096⟩ (wideInput size) :=
  ⟨rfl, rfl, fun _ => rfl⟩

def wideDisplay : Display := ⟨"wide", none, ⟨5120, 2160⟩, ⟨0, 0, 5120, 2160⟩⟩

theorem downscale_progress_after_wide_frame :
    DownscaleProgress .windows (CaptureLoop.start wideDisplay true)
      (fun n => if n = 0 then wideInput ⟨5120, 2160⟩ else wideInput ⟨1920, 1080⟩) ⟨4096, 4096⟩ ⟨5120, 2160⟩ := by
  refine (downscale_progress_iff _ _ _ _ _ _ fun n => ?_).mpr (.inr ?_)
  · split <;> exact fallback_wideInput _
  · refine eventually_atTop.mpr ⟨1, fun n hn => ?_⟩
    rw [if_neg (by omega)]
    rintro ⟨frame, hframe, hres, -⟩
    cases hframe
    cases hres

/-- A display of 5120x2160: every frame restarts the capture, and none is submitted. -/
theorem downscale_never_progresses :
    ¬ ∀ (platform : Platform) (primary : Display) (virtualDisplay : Bool) (inputs : ℕ → LoopInput)
        (max size : Resolution), max.width < size.width ∨ max.height < size.height →
        (∀ n, Fallback max (inputs n)) →
        DownscaleProgress platform (CaptureLoop.start primary virtualDisplay) inputs max size := by
  intro hclaim
  have hprogress := hclaim .windows wideDisplay true (fun _ => wideInput ⟨5120, 2160⟩) ⟨4096, 4096⟩
    ⟨5120, 2160⟩ (.inl (by decide)) fun _ => fallback_wideInput _
  obtain ⟨N, hN⟩ := eventually_atTop.mp hprogress.1
  have hhandled := handled_stateAt .windows (fun _ => fallback_wideInput ⟨5120, 2160⟩)
    (encoderFits_start wideDisplay true) ⟨5120, 2160⟩ N
  exact hN N le_rfl (hhandled.restarts ⟨_, rfl, rfl, rfl⟩ (by decide))

end Rustcast.Host
