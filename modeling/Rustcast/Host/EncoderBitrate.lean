import Rustcast.Core.Lts
import Rustcast.Host.CaptureLoop

/-!
# Which decision the encoder's bitrate comes from

The bitrate and quality part of `CaptureLoop::run` in `capture_loop.rs`, and `bitrate_kbps_for` of
`encoder.rs`. Congestion feedback and the client's quality setting arrive on two channels, which an
iteration drains one after the other, between the resolution request and the capture of a frame. A new
encoder starts with the bitrate of the quality settings.
-/

namespace Rustcast.Host

open CaptureLoop

/-! ## Bitrates -/

/-- `quality_bpp`, in thousandths of a bit. -/
def qualityBpp (level : Nat) : Nat :=
  match max 1 (min level 10) with
  | 1 => 25
  | 2 => 35
  | 3 => 50
  | 4 => 65
  | 5 => 80
  | 6 => 100
  | 7 => 120
  | 8 => 140
  | 9 => 160
  | _ => 200

/-- `bitrate_kbps_for` in exact arithmetic. -/
def bitrateKbpsFor (resolution : Resolution) (fps level : Nat) : Nat :=
  let millibits := resolution.width * resolution.height * fps * qualityBpp level
  max 3000 (min ((millibits + 500000) / 1000000) 50000)

example : bitrateKbpsFor ⟨1920, 1080⟩ 60 3 = 6221 ∧ bitrateKbpsFor ⟨1920, 1080⟩ 60 6 = 12442 ∧
    bitrateKbpsFor ⟨1920, 1080⟩ 60 10 = 24883 ∧ bitrateKbpsFor ⟨1920, 1080⟩ 48 6 = 9953 := by decide

/-! ## Commands -/

inductive BitrateCommand where
  | bitrate (kbps : Nat)
  | quality (level fps : Nat)
  deriving DecidableEq

namespace BitrateCommand

/-- What goes to `bitrate_rx`. -/
def kbps? : BitrateCommand → Option Nat
  | bitrate kbps => some kbps
  | quality _ _ => none

/-- What goes to `quality_rx`. -/
def quality? : BitrateCommand → Option (Nat × Nat)
  | bitrate _ => none
  | quality level fps => some (level, fps)

/-- The level of a quality command is in range. -/
def ValidLevel : BitrateCommand → Prop
  | bitrate _ => True
  | quality level _ => level ≤ 10

instance decidableValidLevel : ∀ c, Decidable (ValidLevel c)
  | bitrate _ => .isTrue trivial
  | quality level _ => inferInstanceAs (Decidable (level ≤ 10))

end BitrateCommand

/-- The commands that arrive for an iteration: before `bitrate_rx` is drained, and between that and the
draining of `quality_rx`. -/
structure BitrateInput where
  loop : LoopInput
  early : List BitrateCommand := []
  between : List BitrateCommand := []

namespace BitrateInput

def arrived (i : BitrateInput) : List BitrateCommand := i.early ++ i.between

def qualities (i : BitrateInput) : List (Nat × Nat) := i.arrived.filterMap BitrateCommand.quality?

def ValidLevels (i : BitrateInput) : Prop := ∀ c ∈ i.arrived, c.ValidLevel

instance decidableValidLevels (i : BitrateInput) : Decidable i.ValidLevels :=
  inferInstanceAs (Decidable (∀ c ∈ i.arrived, c.ValidLevel))

end BitrateInput

structure BitrateConfig where
  /-- `target_fps` -/
  configuredFps : Nat
  defaultFpsCap : Nat
  defaultQualityLevel : Nat
  deriving DecidableEq

def BitrateConfig.fpsCap (config : BitrateConfig) : Nat := min config.defaultFpsCap config.configuredFps

def BitrateConfig.level (config : BitrateConfig) : Nat := max 1 (min config.defaultQualityLevel 10)

/-! ## The loop -/

structure BitrateLoop where
  loop : CaptureLoop
  /-- the bitrate that the live encoder is configured with -/
  encoderKbps : Nat
  qualityLevel : Nat
  fpsCap : Nat
  /-- bitrate commands that came too late for the last iteration -/
  bitrateQueue : List Nat
  /-- the command that arrived last -/
  latest : Option BitrateCommand
  deriving DecidableEq

namespace BitrateLoop

variable (kbpsFor : Resolution → Nat → Nat → Nat) (config : BitrateConfig) (platform : Platform)

def start (primary : Display) (virtualDisplay : Bool) : BitrateLoop where
  loop := .start primary virtualDisplay
  encoderKbps := 0
  qualityLevel := config.level
  fpsCap := config.fpsCap
  bitrateQueue := []
  latest := none

variable (s : BitrateLoop) (i : BitrateInput)

def live : Bool := s.loop.encodeSession.isSome

/-- The bitrate of the quality settings. -/
def settingsKbps : Nat := kbpsFor s.loop.encodeResolution s.fpsCap s.qualityLevel

/-- The settings after a quality command; what is out of range is ignored. -/
def settings (q : Nat × Nat) : BitrateLoop :=
  { s with
    qualityLevel :=
      if 1 ≤ q.1 ∧ q.1 ≤ 10 then q.1 else if q.1 = 0 then config.level else s.qualityLevel
    fpsCap :=
      if q.2 = 0 then config.fpsCap else if q.2 ≤ 144 then min q.2 config.configuredFps else s.fpsCap }

def applySettings : BitrateLoop :=
  if s.live then { s with encoderKbps := s.settingsKbps kbpsFor } else s

/-- One round of the `quality_rx` loop. -/
def setQuality (q : Nat × Nat) : BitrateLoop :=
  -- a command that is out of range in both is skipped before the encoder is touched
  if 10 < q.1 ∧ 144 < q.2 then s.settings config q
  else (s.settings config q).applySettings kbpsFor

/-- The last bitrate command is applied if there is an encoder. -/
def setBitrate (newBitrate : Option Nat) : BitrateLoop :=
  match newBitrate with
  -- without an encoder the command is lost: nothing keeps it for the next one
  | some kbps => if s.live then { s with encoderKbps := kbps } else s
  | none => s

def newBitrate : Option Nat := (s.bitrateQueue ++ i.early.filterMap BitrateCommand.kbps?).getLast?

/-- The commands are in the channels. -/
def arrive : BitrateLoop :=
  { s with
    bitrateQueue := i.between.filterMap BitrateCommand.kbps?
    latest := i.arrived.getLast?.or s.latest }

def drain : BitrateLoop :=
  -- `new_bitrate` is taken from its channel first, and applied after the quality commands
  (i.qualities.foldl (setQuality kbpsFor config) (s.arrive i)).setBitrate (s.newBitrate i)

/-- The captured frame leads to a new encoder, if one can be built. -/
def opens (loop : CaptureLoop) (i : LoopInput) : Bool :=
  match i.capture with
  | .frame frame =>
    i.due && (loop.settlePendingMode i (some frame.resolution)).needsRebuild i frame.resolution
  | _ => false

/-- `create_encode_session` configures a new encoder with the bitrate of the settings. -/
def capture : BitrateLoop :=
  let next := s.loop.captureNext i.loop platform
  let rebuilt := { s with loop := next }
  if opens s.loop i.loop then { rebuilt with encoderKbps := rebuilt.settingsKbps kbpsFor } else rebuilt

def request : BitrateLoop :=
  { s with loop := ({ s.loop with output := {} } : CaptureLoop).handleRequest i.loop platform }

/-- An iteration of the capture loop with the bitrate of its encoder. -/
def iterate : BitrateLoop :=
  if s.loop.stopped then { s with loop := { s.loop with output := {} } }
  else ((s.request platform i).drain kbpsFor config i).capture kbpsFor platform i

/-! ## What is promised -/

/-- The bitrate that the latest command asks for, the default if there was none. -/
def latestKbps : Nat :=
  match s.latest with
  | none => kbpsFor s.loop.encodeResolution config.fpsCap config.level
  | some (.bitrate kbps) => kbps
  | some (.quality _ _) => s.settingsKbps kbpsFor

def Governed : Prop := s.live = true → s.encoderKbps = s.latestKbps kbpsFor config

instance decidableGoverned : Decidable (s.Governed kbpsFor config) :=
  inferInstanceAs (Decidable (_ → _))

/-- Where a bitrate comes from. -/
inductive Decision where
  | settings
  | bitrate (kbps : Nat)
  deriving DecidableEq

def Decision.kbps (d : Decision) : Nat :=
  match d with
  | .settings => s.settingsKbps kbpsFor
  | .bitrate kbps => kbps

def Decision.of : Option BitrateCommand → Decision
  | some (.bitrate kbps) => .bitrate kbps
  | _ => .settings

/-- The decision that an iteration takes for the encoder that is live after it. A new encoder follows
the settings, whatever was commanded; otherwise a bitrate command wins over every quality command of the
iteration; and without either the decision is an earlier one. -/
def taken : Decision :=
  if opens (s.request platform i).loop i.loop then .settings
  else
    match s.newBitrate i with
    | some kbps => .bitrate kbps
    | none => if i.qualities = [] then .of s.latest else .settings

/-- The decision for an encoder that is there, or that the frame opens, is that of the command which
arrived last, in this iteration or before it. -/
def Heeds : Prop :=
  s.loop.stopped = false → s.live = true ∨ opens (s.request platform i).loop i.loop = true →
    taken platform s i = .of (i.arrived.getLast?.or s.latest)

instance decidableHeeds : Decidable (s.Heeds platform i) :=
  inferInstanceAs (Decidable (_ → _ → _))

/-! ## Frames -/

section

variable {l : CaptureLoop} {j : LoopInput}

/-- The encoder and its size, the parts of the capture loop that a bitrate depends on. -/
def SameSession (l l' : CaptureLoop) : Prop :=
  l'.encodeSession = l.encodeSession ∧ l'.encodeResolution = l.encodeResolution

theorem sameSession_of_submitted {l' : CaptureLoop} (h : Submitted l l') : SameSession l l' := by
  cases h with
  | skipped => exact ⟨rfl, rfl⟩
  | taken frame packets =>
    have hpackets := emitPackets_encoder packets (l.takeFrame frame)
    exact ⟨hpackets.encodeSession, hpackets.encodeResolution⟩

theorem sameSession_settlePendingMode (frame : Option Resolution) :
    SameSession l (l.settlePendingMode j frame) :=
  have hsettle := sameEncoder_settlePendingMode frame
  ⟨hsettle.encodeSession, hsettle.encodeResolution⟩

theorem captureNext_of_not_opens (h : opens l j = false) :
    SameSession l (l.captureNext j platform) ∨ (l.captureNext j platform).encodeSession = none := by
  unfold captureNext
  cases hcapture : j.capture with
  | idle => exact .inl (sameSession_settlePendingMode none)
  | error => exact .inl ⟨rfl, rfl⟩
  -- the encoder goes with the capture session
  | lost native rect => exact .inr rfl
  | frame frame =>
    have hsettle : SameSession l (l.settlePendingMode j (some frame.resolution)) :=
      sameSession_settlePendingMode (some frame.resolution)
    cases hdue : j.due with
    | false => exact .inl hsettle
    | true =>
      have hneeds :
          (l.settlePendingMode j (some frame.resolution)).needsRebuild j frame.resolution = false := by
        rw [opens, hcapture, hdue] at h
        exact h
      have hkept : (l.settlePendingMode j (some frame.resolution)).encodeFrame j frame =
          (l.settlePendingMode j (some frame.resolution)).scaleAndSubmit j frame := by
        rw [encodeFrame, hneeds]
        rfl
      dsimp only
      rw [hkept]
      obtain ⟨hsession, hresolution⟩ := sameSession_of_submitted (scaleAndSubmit_cases frame)
      exact .inl ⟨hsession.trans hsettle.1, hresolution.trans hsettle.2⟩

theorem handleRequest_session :
    SameSession l (l.handleRequest j platform) ∨ (l.handleRequest j platform).encodeSession = none := by
  rcases handleRequest_encoder l j platform with hsame | hdropped
  · exact .inl ⟨hsame.encodeSession, hsame.encodeResolution⟩
  · exact .inr hdropped.encodeSession

end

/-! ## Draining the channels -/

section

variable {kbpsFor config platform s i}

/-- Everything but the encoder's bitrate and the settings. -/
structure SameLoop (s s' : BitrateLoop) : Prop where
  loop : s'.loop = s.loop
  bitrateQueue : s'.bitrateQueue = s.bitrateQueue
  latest : s'.latest = s.latest

theorem SameLoop.trans {s s' s'' : BitrateLoop} (h : SameLoop s s') (h' : SameLoop s' s'') :
    SameLoop s s'' :=
  ⟨h'.loop.trans h.loop, h'.bitrateQueue.trans h.bitrateQueue, h'.latest.trans h.latest⟩

theorem sameLoop_setQuality (s : BitrateLoop) (q : Nat × Nat) :
    SameLoop s (s.setQuality kbpsFor config q) := by
  have hsettings : SameLoop s (s.settings config q) := ⟨rfl, rfl, rfl⟩
  unfold setQuality
  split
  · exact hsettings
  · unfold applySettings
    split
    · exact hsettings.trans ⟨rfl, rfl, rfl⟩
    · exact hsettings

theorem sameLoop_qualities (qs : List (Nat × Nat)) (s : BitrateLoop) :
    SameLoop s (qs.foldl (setQuality kbpsFor config) s) := by
  induction qs generalizing s with
  | nil => exact ⟨rfl, rfl, rfl⟩
  | cons q qs ih => exact (sameLoop_setQuality s q).trans (ih _)

theorem setQuality_kbps (hlive : s.live = true) {q : Nat × Nat} (hvalid : q.1 ≤ 10) :
    (s.setQuality kbpsFor config q).encoderKbps = (s.setQuality kbpsFor config q).settingsKbps kbpsFor := by
  have hskip : ¬(10 < q.1 ∧ 144 < q.2) := fun h => Nat.not_lt.mpr hvalid h.1
  have hlive : (s.settings config q).live = true := hlive
  rw [setQuality, if_neg hskip, applySettings, if_pos hlive]
  rfl

/-- Whatever quality commands there are, the last one leaves the encoder with the settings. -/
theorem qualities_kbps (hlive : s.live = true) {qs : List (Nat × Nat)} (hvalid : ∀ q ∈ qs, q.1 ≤ 10)
    (hne : qs ≠ []) :
    (qs.foldl (setQuality kbpsFor config) s).encoderKbps =
      (qs.foldl (setQuality kbpsFor config) s).settingsKbps kbpsFor := by
  -- only the last command counts: it sets the bitrate from the settings that it leaves
  obtain ⟨front, q, rfl⟩ := (List.eq_nil_or_concat qs).resolve_left hne
  rw [List.concat_eq_append] at hvalid ⊢
  rw [List.foldl_append]
  refine setQuality_kbps ?_ (hvalid q (List.mem_append_right _ (List.mem_singleton_self q)))
  have hfront : SameLoop s (front.foldl (setQuality kbpsFor config) s) := sameLoop_qualities front s
  rw [live, hfront.loop]
  exact hlive

theorem sameLoop_setBitrate (s : BitrateLoop) (kbps : Option Nat) : SameLoop s (s.setBitrate kbps) := by
  unfold setBitrate
  split
  · split <;> exact ⟨rfl, rfl, rfl⟩
  · exact ⟨rfl, rfl, rfl⟩

theorem sameLoop_drain : SameLoop (s.arrive i) (s.drain kbpsFor config i) :=
  (sameLoop_qualities i.qualities (s.arrive i)).trans (sameLoop_setBitrate _ _)

/-- The settings are those after the quality commands. -/
theorem settings_setBitrate (s : BitrateLoop) (kbps : Option Nat) :
    (s.setBitrate kbps).fpsCap = s.fpsCap ∧ (s.setBitrate kbps).qualityLevel = s.qualityLevel := by
  unfold setBitrate
  split
  · split <;> exact ⟨rfl, rfl⟩
  · exact ⟨rfl, rfl⟩

theorem valid_qualities (hvalid : i.ValidLevels) : ∀ q ∈ i.qualities, q.1 ≤ 10 := by
  intro q hq
  obtain ⟨c, hc, hquality⟩ := List.mem_filterMap.mp hq
  cases c with
  | bitrate kbps => cases hquality
  | quality level fps =>
    cases hquality
    exact hvalid _ hc

/-- The bitrate of an encoder that is live while the channels are drained. -/
theorem drain_kbps (kbpsFor : Resolution → Nat → Nat → Nat) (config : BitrateConfig)
    (hlive : s.live = true) (hvalid : i.ValidLevels) :
    (s.drain kbpsFor config i).encoderKbps =
      match s.newBitrate i with
      | some kbps => kbps
      | none =>
        if i.qualities = [] then s.encoderKbps else (s.drain kbpsFor config i).settingsKbps kbpsFor := by
  have hfold : SameLoop (s.arrive i) (i.qualities.foldl (setQuality kbpsFor config) (s.arrive i)) :=
    sameLoop_qualities _ _
  have hstill : (i.qualities.foldl (setQuality kbpsFor config) (s.arrive i)).live = true := by
    rw [live, hfold.loop]
    exact hlive
  unfold drain
  cases hnew : s.newBitrate i with
  | some kbps =>
    simp only [setBitrate, hstill, if_true]
  | none =>
    by_cases hnone : i.qualities = []
    · rw [hnone]
      rfl
    · rw [if_neg hnone]
      have harrived : (s.arrive i).live = true := hlive
      exact qualities_kbps harrived (valid_qualities hvalid) hnone

theorem drain_settings_of_nil (kbpsFor : Resolution → Nat → Nat → Nat) (config : BitrateConfig)
    (s : BitrateLoop) (h : i.qualities = []) :
    (s.drain kbpsFor config i).fpsCap = s.fpsCap ∧
      (s.drain kbpsFor config i).qualityLevel = s.qualityLevel := by
  rw [drain, h]
  exact settings_setBitrate (s.arrive i) (s.newBitrate i)

/-! ## Iterations -/

theorem iterate_of_running (h : s.loop.stopped = false) :
    s.iterate kbpsFor config platform i =
      ((s.request platform i).drain kbpsFor config i).capture kbpsFor platform i := by
  rw [iterate, h]
  rfl

theorem capture_loop (s : BitrateLoop) :
    (s.capture kbpsFor platform i).loop = s.loop.captureNext i.loop platform := by
  unfold capture
  split <;> rfl

theorem drain_loop : (s.drain kbpsFor config i).loop = s.loop := sameLoop_drain.loop

/-- The bitrate part leaves the capture loop as it is. -/
theorem iterate_loop :
    (s.iterate kbpsFor config platform i).loop = CaptureLoop.iterate platform s.loop i.loop := by
  cases hstopped : s.loop.stopped with
  | true =>
    rw [iterate_of_stopped platform hstopped, iterate, if_pos hstopped]
  | false =>
    rw [CaptureLoop.iterate_of_running platform hstopped, iterate_of_running hstopped, capture_loop,
      drain_loop]
    rfl

theorem iterate_latest (h : s.loop.stopped = false) :
    (s.iterate kbpsFor config platform i).latest = i.arrived.getLast?.or s.latest := by
  have hdrain : ((s.request platform i).drain kbpsFor config i).latest = i.arrived.getLast?.or s.latest :=
    sameLoop_drain.latest
  rw [iterate_of_running h, ← hdrain]
  unfold capture
  split <;> rfl

/-- As long as no command has arrived, the settings are the default ones. -/
def Defaults (config : BitrateConfig) (s : BitrateLoop) : Prop :=
  s.latest = none → s.fpsCap = config.fpsCap ∧ s.qualityLevel = config.level

theorem capture_settings (s : BitrateLoop) :
    (s.capture kbpsFor platform i).fpsCap = s.fpsCap ∧
      (s.capture kbpsFor platform i).qualityLevel = s.qualityLevel := by
  unfold capture
  split <;> exact ⟨rfl, rfl⟩

theorem defaults_iterate (h : Defaults config s) : Defaults config (s.iterate kbpsFor config platform i) := by
  cases hstopped : s.loop.stopped with
  | true =>
    rw [iterate, if_pos hstopped]
    exact h
  | false =>
    intro hlatest
    rw [iterate_latest hstopped, Option.or_eq_none_iff, List.getLast?_eq_none_iff] at hlatest
    have hqualities : i.qualities = [] := by rw [BitrateInput.qualities, hlatest.1]; rfl
    have hdrain := drain_settings_of_nil kbpsFor config (s.request platform i) hqualities
    rw [iterate_of_running hstopped, (capture_settings _).1, (capture_settings _).2, hdrain.1, hdrain.2]
    exact h hlatest.2

theorem capture_of_opens {s : BitrateLoop} (h : opens s.loop i.loop = true) :
    (s.capture kbpsFor platform i).encoderKbps = (s.capture kbpsFor platform i).settingsKbps kbpsFor := by
  rw [capture, if_pos h]
  rfl

theorem capture_of_not_opens {s : BitrateLoop} (h : opens s.loop i.loop = false) :
    s.capture kbpsFor platform i = { s with loop := s.loop.captureNext i.loop platform } := by
  rw [capture, h]
  rfl

/-- An encoder that is live after an iteration without a rebuild was there before it. -/
theorem live_of_not_opens (hopens : opens (s.request platform i).loop i.loop = false)
    (hlive : ((s.request platform i).loop.captureNext i.loop platform).encodeSession.isSome = true) :
    s.live = true ∧ (s.request platform i).live = true ∧
      ((s.request platform i).loop.captureNext i.loop platform).encodeResolution = s.loop.encodeResolution ∧
      (s.request platform i).loop.encodeResolution = s.loop.encodeResolution := by
  rcases captureNext_of_not_opens platform hopens with hnext | hnext
  · rw [hnext.1] at hlive
    rcases handleRequest_session platform with hreq | hreq
    · have hsession : (s.request platform i).loop.encodeSession = s.loop.encodeSession := hreq.1
      have hresolution : (s.request platform i).loop.encodeResolution = s.loop.encodeResolution := hreq.2
      refine ⟨?_, hlive, hnext.2.trans hresolution, hresolution⟩
      rw [live, ← hsession]
      exact hlive
    · have hnone : (s.request platform i).loop.encodeSession = none := hreq
      rw [hnone] at hlive
      cases hlive
  · rw [hnext] at hlive
    cases hlive

/-- The settings decide if the latest command is not one for a bitrate. -/
theorem latestKbps_of_settings (hdefaults : Defaults config s)
    (h : ∀ kbps, s.latest ≠ some (.bitrate kbps)) :
    s.latestKbps kbpsFor config = s.settingsKbps kbpsFor := by
  unfold latestKbps
  split
  next hnone =>
    obtain ⟨hcap, hlevel⟩ := hdefaults hnone
    rw [settingsKbps, hcap, hlevel]
  next kbps hbitrate => exact absurd hbitrate (h kbps)
  · rfl

theorem latestKbps_eq_of (hdefaults : Defaults config s) :
    s.latestKbps kbpsFor config = (Decision.of s.latest).kbps kbpsFor s := by
  cases hlatest : s.latest with
  | none =>
    refine latestKbps_of_settings hdefaults fun kbps heq => ?_
    rw [hlatest] at heq
    cases heq
  | some command =>
    rw [latestKbps, hlatest]
    cases command <;> rfl

/-- A decision gives the same bitrate in states with the same settings and encoder size. -/
theorem Decision.kbps_congr {s s' : BitrateLoop} (d : Decision)
    (h : s.settingsKbps kbpsFor = s'.settingsKbps kbpsFor) : d.kbps kbpsFor s = d.kbps kbpsFor s' := by
  cases d with
  | settings => exact h
  | bitrate kbps => rfl

/-- The encoder that is live after an iteration has the bitrate of the decision taken. -/
theorem iterate_kbps (hgoverned : s.Governed kbpsFor config) (hdefaults : Defaults config s)
    (hvalid : i.ValidLevels) (hrunning : s.loop.stopped = false)
    (hlive : (s.iterate kbpsFor config platform i).live = true) :
    (s.iterate kbpsFor config platform i).encoderKbps =
      (taken platform s i).kbps kbpsFor (s.iterate kbpsFor config platform i) := by
  rw [iterate_of_running hrunning] at hlive ⊢
  have hloop : ((s.request platform i).drain kbpsFor config i).loop = (s.request platform i).loop :=
    drain_loop
  cases hopens : opens (s.request platform i).loop i.loop with
  | true =>
    rw [taken, hopens, capture_of_opens (by rw [hloop, hopens])]
    rfl
  | false =>
    rw [taken, hopens]
    rw [live, capture_loop, hloop] at hlive
    obtain ⟨hbefore, hrequest, hsize, hsize'⟩ := live_of_not_opens hopens hlive
    have hkbps := drain_kbps kbpsFor config hrequest hvalid
    have hsettings : ((s.request platform i).drain kbpsFor config i).settingsKbps kbpsFor =
        kbpsFor s.loop.encodeResolution ((s.request platform i).drain kbpsFor config i).fpsCap
          ((s.request platform i).drain kbpsFor config i).qualityLevel := by
      rw [settingsKbps, hloop, hsize']
    rw [capture_of_not_opens (by rw [hloop, hopens]), hkbps, hsettings, hloop]
    have hnew : (s.request platform i).newBitrate i = s.newBitrate i := rfl
    rw [hnew]
    cases s.newBitrate i with
    | some kbps => rfl
    | none =>
      by_cases hnone : i.qualities = []
      · -- nothing has arrived for the encoder: its bitrate is that of the last iteration
        have hdrain := drain_settings_of_nil kbpsFor config (s.request platform i) hnone
        have hsame : (s.request platform i).encoderKbps = s.latestKbps kbpsFor config := hgoverned hbefore
        simp only [if_pos hnone, hsame, latestKbps_eq_of hdefaults]
        refine Decision.kbps_congr _ ?_
        simp only [settingsKbps, hsize, hdrain.1, hdrain.2]
        rfl
      · simp only [if_neg hnone, Decision.kbps, settingsKbps, hsize]
        rfl

def Inv (kbpsFor : Resolution → Nat → Nat → Nat) (config : BitrateConfig) (s : BitrateLoop) : Prop :=
  s.Governed kbpsFor config ∧ Defaults config s

/-- A loop that has returned keeps its encoder and its bitrate. -/
theorem governed_iterate_of_stopped (h : s.Governed kbpsFor config) (hstopped : s.loop.stopped = true) :
    (s.iterate kbpsFor config platform i).Governed kbpsFor config := by
  rw [iterate, if_pos hstopped]
  exact h

theorem inv_iterate (h : Inv kbpsFor config s) (hvalid : i.ValidLevels) (hheeds : s.Heeds platform i) :
    Inv kbpsFor config (s.iterate kbpsFor config platform i) := by
  have hdefaults : Defaults config (s.iterate kbpsFor config platform i) := defaults_iterate h.2
  refine ⟨?_, hdefaults⟩
  cases hstopped : s.loop.stopped with
  | true => exact governed_iterate_of_stopped h.1 hstopped
  | false =>
    intro hlive
    have hencoder : s.live = true ∨ opens (s.request platform i).loop i.loop = true := by
      cases hopens : opens (s.request platform i).loop i.loop with
      | true => exact .inr rfl
      | false =>
        rw [iterate_of_running hstopped, live, capture_loop, drain_loop] at hlive
        exact .inl (live_of_not_opens hopens hlive).1
    rw [iterate_kbps h.1 h.2 hvalid hstopped hlive, hheeds hstopped hencoder,
      latestKbps_eq_of hdefaults, iterate_latest hstopped]

end

def step : BitrateLoop → BitrateInput → Option BitrateLoop :=
  fun s i => some (s.iterate kbpsFor config platform i)

end BitrateLoop

open BitrateLoop

def frameInput (size : Resolution) (early : List BitrateCommand) : BitrateInput where
  loop := .smooth none (.frame (.packed size))
  early

def idleInput (early : List BitrateCommand) : BitrateInput := { loop := .smooth none .idle, early }

def sampleConfig : BitrateConfig := ⟨60, 60, 6⟩

def sampleDisplay : Display := ⟨"", none, ⟨1920, 1080⟩, ⟨0, 0, 1920, 1080⟩⟩

def SampleGoverned (inputs : List BitrateInput) : Prop :=
  Lts.Throughout (step bitrateKbpsFor sampleConfig .linux) (Governed bitrateKbpsFor sampleConfig)
    (.start sampleConfig sampleDisplay false) inputs

/-- Commands that arrive one at a time for a live encoder, and a rebuild after a quality command. -/
def commandsInTurn : List BitrateInput :=
  [frameInput ⟨1920, 1080⟩ [], idleInput [.bitrate 8000], idleInput [.quality 3 0],
    frameInput ⟨1280, 720⟩ []]

end Rustcast.Host
