import Rustcast.Core.Endless
import Rustcast.Host.CaptureLoop

/-!
# Verdicts on resolution requests

A request is answered by a terminal status with its size: at once, with a timeout or a failed transition,
or with the first packet after the change. Until then it is in `pending_mode`, or its success is held back
in the tracker.
-/

namespace Rustcast.Host

open Filter CaptureLoop ResolutionStatusTracker ResolutionStatus

/-! ## Counting verdicts -/

/-- The terminal statuses for a size in `k` iterations from `n` on. -/
def verdicts (published : ℕ → List ResolutionStatus) (r : Resolution) (n : ℕ) : ℕ → ℕ
  | 0 => 0
  | k + 1 => verdicts published r n k + (published (n + k)).countP (answers r)

/-- The request of iteration `n` is the newest one for `k` iterations. -/
def Newest (requests : ℕ → Option ModeRequest) (n k : ℕ) : Prop :=
  ∀ j, 0 < j → j < k → requests (n + j) = none

/-- Its size is not requested again for `k` iterations. -/
def Sole (requests : ℕ → Option ModeRequest) (r : Resolution) (n k : ℕ) : Prop :=
  ∀ j, 0 < j → j < k → ∀ q ∈ requests (n + j), q.resolution ≠ r

/-- A newer request is taken before there is a verdict on `r`. -/
def Superseded (requests : ℕ → Option ModeRequest) (published : ℕ → List ResolutionStatus) (r : Resolution)
    (n : ℕ) : Prop :=
  ∃ k, 0 < k ∧ requests (n + k) ≠ none ∧ verdicts published r n k = 0

/-- The request of iteration `n` has exactly one verdict, also beyond newer requests until its size is
requested again, unless a newer request is taken before the verdict. -/
def Answered (requests : ℕ → Option ModeRequest) (published : ℕ → List ResolutionStatus) (n : ℕ)
    (r : Resolution) : Prop :=
  Superseded requests published r n ∨
    (∀ k, Sole requests r n k → verdicts published r n k ≤ 1) ∧
      ∃ k, Newest requests n k ∧ verdicts published r n k = 1

/-! ## Prompt iterations -/

/-- The ways in which a verdict is not lost, and not given twice, with the sizes that have been requested
up to this iteration. -/
structure Prompt (platform : Platform) (requested : Resolution → Prop) (s : CaptureLoop) (i : LoopInput) :
    Prop where
  /-- Windows does not ignore the request -/
  heeded : platform = .windows → ∀ r ∈ i.request, validateModeRequest r = .ok r ∧ s.virtualDisplay = true
  /-- a request is not refused while an older one for its size is waiting -/
  alone : ∀ r ∈ i.request, ∀ p ∈ s.pendingMode, p.requested = r.resolution →
    validateModeRequest r = .ok r ∧ i.modeResult = .ok ()
  /-- a capture is not lost while the latest request is waiting -/
  captured : ∀ native rect, i.capture = .lost native rect → (platform = .windows ∨ i.request = none) ∧
    ∀ p ∈ s.pendingMode, s.tracker.latestStarted ≠ some p.requested
  /-- no encoder has failed at a requested size, unless the next packet reports the success of a request
  anyway -/
  recovered : s.tracker.pendingSuccess = none ∨ i.request ≠ none → ∀ r ∈ s.tracker.recovering, ¬ requested r

/-- The loop once an iteration has handled its request. -/
def afterRequest (platform : Platform) (s : CaptureLoop) (i : LoopInput) : CaptureLoop :=
  handleRequest { s with output := {} } i platform

/-! ## Where a request stands -/

/-- A success is held back for the latest request, and no mode change is under way then. -/
def Consistent (s : CaptureLoop) : Prop :=
  ∀ q status, s.tracker.pendingSuccess = some (q, status) →
    s.tracker.latestStarted = some q ∧ status.size = q ∧ s.pendingMode = none

/-- The compositor has been asked, and the frames do not have the size yet. -/
def Waiting (r : Resolution) (s : CaptureLoop) : Prop := ∃ p, s.pendingMode = some p ∧ p.requested = r

/-- The success is held back for a packet. -/
def Held (r : Resolution) (s : CaptureLoop) : Prop := ∃ status, s.tracker.pendingSuccess = some (r, status)

/-- The verdicts on `r`, with `c` of them before this iteration. -/
def total (r : Resolution) (c : ℕ) (s : CaptureLoop) : ℕ :=
  c + s.output.published.countP (answers r)

/-- `r` has had its verdict, and nothing more will be said. -/
structure Finished (r : Resolution) (c : ℕ) (s : CaptureLoop) : Prop where
  consistent : Consistent s
  one : total r c s = 1
  waiting : ¬ Waiting r s
  held : ¬ Held r s

/-- `r` is the latest request and has had no verdict yet. -/
structure Open (r : Resolution) (c : ℕ) (s : CaptureLoop) : Prop where
  consistent : Consistent s
  latest : s.tracker.latestStarted = some r
  zero : total r c s = 0
  phase : Waiting r s ∨ Held r s

def Tracked (r : Resolution) (c : ℕ) (s : CaptureLoop) : Prop := Open r c s ∨ Finished r c s

variable {r q : Resolution} {c : ℕ} {s s' x : CaptureLoop} {i : LoopInput} {platform : Platform}

theorem Consistent.pendingSuccess {p : PendingMode} (h : Consistent s) (hp : s.pendingMode = some p) :
    s.tracker.pendingSuccess = none := by
  cases hpending : s.tracker.pendingSuccess with
  | none => rfl
  | some held =>
    obtain ⟨-, -, hnone⟩ := h held.1 held.2 hpending
    rw [hnone] at hp
    cases hp

theorem consistent_of_none (h : s.tracker.pendingSuccess = none) : Consistent s := by
  intro q status hsome
  rw [h] at hsome
  cases hsome

theorem Tracked.consistent (h : Tracked r c s) : Consistent s := h.elim (·.consistent) (·.consistent)

theorem Tracked.total_le (h : Tracked r c s) : total r c s ≤ 1 := by
  rcases h with hopen | hfinished
  · exact hopen.zero.trans_le (Nat.zero_le 1)
  · exact hfinished.one.le

theorem Tracked.answered (h : Tracked r c s) (hpending : s.tracker.pendingSuccess = none)
    (hmode : s.pendingMode = none) : total r c s = 1 := by
  rcases h with hopen | hfinished
  · rcases hopen.phase with ⟨p, hp, -⟩ | ⟨status, hstatus⟩
    · rw [hmode] at hp
      cases hp
    · rw [hpending] at hstatus
      cases hstatus
  · exact hfinished.one

/-- A request stands where it stood. -/
structure SameRequest (s s' : CaptureLoop) : Prop where
  latestStarted : s'.tracker.latestStarted = s.tracker.latestStarted
  pendingSuccess : s'.tracker.pendingSuccess = s.tracker.pendingSuccess
  pendingMode : s'.pendingMode = s.pendingMode
  verdicts : ∀ r, s'.output.published.countP (answers r) = s.output.published.countP (answers r)
  packets : s'.output.packets = s.output.packets

theorem SameRequest.refl : SameRequest s s := ⟨rfl, rfl, rfl, fun _ => rfl, rfl⟩

theorem SameRequest.trans (h : SameRequest s x) (h' : SameRequest x s') : SameRequest s s' :=
  ⟨h'.latestStarted.trans h.latestStarted, h'.pendingSuccess.trans h.pendingSuccess,
    h'.pendingMode.trans h.pendingMode, fun r => (h'.verdicts r).trans (h.verdicts r),
    h'.packets.trans h.packets⟩

theorem Tracked.of_same (h : Tracked r c s) (hsame : SameRequest s s') : Tracked r c s' := by
  have htotal : total r c s' = total r c s := by rw [total, total, hsame.verdicts]
  have hconsistent : Consistent s' := by
    unfold Consistent
    rw [hsame.pendingSuccess, hsame.latestStarted, hsame.pendingMode]
    exact h.consistent
  have hwaiting : Waiting r s' ↔ Waiting r s := by rw [Waiting, Waiting, hsame.pendingMode]
  have hheld : Held r s' ↔ Held r s := by rw [Held, Held, hsame.pendingSuccess]
  rcases h with hopen | hfinished
  · refine .inl ⟨hconsistent, hsame.latestStarted.trans hopen.latest, htotal.trans hopen.zero, ?_⟩
    rw [hwaiting, hheld]
    exact hopen.phase
  · exact .inr ⟨hconsistent, htotal.trans hfinished.one, hwaiting.not.mpr hfinished.waiting,
      hheld.not.mpr hfinished.held⟩

/-- An iteration without a request counts the verdicts so far. -/
theorem Tracked.of_no_request (platform : Platform) (h : Tracked r c s) (hnone : i.request = none) :
    Tracked r (total r c s) (afterRequest platform s i) := by
  rw [afterRequest, handleRequest_of_none hnone]
  rcases h with hopen | hfinished
  · exact .inl ⟨hopen.consistent, hopen.latest, hopen.zero, hopen.phase⟩
  · exact .inr ⟨hfinished.consistent, hfinished.one, hfinished.waiting, hfinished.held⟩

/-! ## What is said about a size -/

/-- What handling a request for `q`, or settling a mode change to it, says. -/
inductive Said (q : Resolution) (s s' : CaptureLoop) : Prop where
  /-- nothing, since a newer request was taken -/
  | nothing (hnewer : s.tracker.latestStarted ≠ some q) (hpublished : s'.output.published = s.output.published)
      (hpending : s'.tracker.pendingSuccess = none) (hmode : s'.pendingMode = none)
  | answered (status : ResolutionStatus) (hterminal : status.state.terminal = true) (hsize : status.size = q)
      (hpublished : s'.output.published = s.output.published ++ [status])
      (hpending : s'.tracker.pendingSuccess = none)
      (hmode : s'.pendingMode = none ∨ s'.pendingMode = s.pendingMode ∧ ¬ Waiting q s)
  | waiting (p : PendingMode) (hrequested : p.requested = q)
      (hpublished : s'.output.published = s.output.published) (hpending : s'.tracker.pendingSuccess = none)
      (hmode : s'.pendingMode = some p)
  | held (status : ResolutionStatus) (hsize : status.size = q)
      (hpublished : s'.output.published = s.output.published)
      (hpending : s'.tracker.pendingSuccess = some (q, status)) (hlatest : s'.tracker.latestStarted = some q)
      (hmode : s'.pendingMode = none)

structure Concluded (q : Resolution) (s s' : CaptureLoop) : Prop where
  latestStarted : s'.tracker.latestStarted = s.tracker.latestStarted
  recovering : s'.tracker.recovering = s.tracker.recovering
  said : Said q s s'

theorem Said.consistent (h : Said q s s') : Consistent s' := by
  cases h with
  | nothing _ _ hpending _ => exact consistent_of_none hpending
  | answered _ _ _ _ hpending _ => exact consistent_of_none hpending
  | waiting _ _ _ hpending _ => exact consistent_of_none hpending
  | held status hsize _ hpending hlatest hmode =>
    intro q' status' hsome
    rw [hpending] at hsome
    cases hsome
    exact ⟨hlatest, hsize, hmode⟩

theorem total_of_published (h : s'.output.published = s.output.published) : total r c s' = total r c s := by
  rw [total, total, h]

theorem total_of_answered {status : ResolutionStatus} (hterminal : status.state.terminal = true)
    (h : s'.output.published = s.output.published ++ [status]) :
    total r c s' = total r c s + if status.size = r then 1 else 0 := by
  rw [total, total, h, List.countP_append, List.countP_singleton, answers, hterminal, Bool.true_and,
    ← Nat.add_assoc]
  simp only [decide_eq_true_eq]

theorem not_waiting_of_none (h : s.pendingMode = none) : ¬ Waiting r s := by
  rintro ⟨p, hp, -⟩
  rw [h] at hp
  cases hp

theorem not_held_of_none (h : s.tracker.pendingSuccess = none) : ¬ Held r s := by
  rintro ⟨status, hstatus⟩
  rw [h] at hstatus
  cases hstatus

/-- What is said about `r` itself opens it or finishes it. -/
theorem Said.tracked (h : Said r s s') (hzero : total r c s = 0) (hlatest : s.tracker.latestStarted = some r)
    (hlatest' : s'.tracker.latestStarted = some r) : Tracked r c s' := by
  have hconsistent := h.consistent
  cases h with
  | nothing hnewer => exact absurd hlatest hnewer
  | answered status hterminal hsize hpublished hpending hmode =>
    refine .inr ⟨hconsistent, ?_, ?_, not_held_of_none hpending⟩
    · rw [total_of_answered hterminal hpublished, hzero, if_pos hsize]
    · rcases hmode with hnone | ⟨hsame, hidle⟩
      · exact not_waiting_of_none hnone
      · rw [Waiting, hsame]
        exact hidle
  | waiting p hrequested hpublished _ hmode =>
    exact .inl ⟨hconsistent, hlatest', (total_of_published hpublished).trans hzero,
      .inl ⟨p, hmode, hrequested⟩⟩
  | held status _ hpublished hpending =>
    exact .inl ⟨hconsistent, hlatest', (total_of_published hpublished).trans hzero, .inr ⟨status, hpending⟩⟩

/-- What is said about another size leaves `r` finished. -/
theorem Finished.of_said (h : Finished r c s) (hsaid : Said q s s') (hother : q ≠ r) : Finished r c s' := by
  have hconsistent := hsaid.consistent
  cases hsaid with
  | nothing _ hpublished hpending hmode =>
    exact ⟨hconsistent, (total_of_published hpublished).trans h.one, not_waiting_of_none hmode,
      not_held_of_none hpending⟩
  | answered status hterminal hsize hpublished hpending hmode =>
    refine ⟨hconsistent, ?_, ?_, not_held_of_none hpending⟩
    · rw [total_of_answered hterminal hpublished, h.one, hsize, if_neg hother]
    · rcases hmode with hnone | ⟨hsame, -⟩
      · exact not_waiting_of_none hnone
      · rw [Waiting, hsame]
        exact h.waiting
  | waiting p hrequested hpublished hpending hmode =>
    refine ⟨hconsistent, (total_of_published hpublished).trans h.one, ?_, not_held_of_none hpending⟩
    rintro ⟨p', hp', hrequested'⟩
    rw [hmode] at hp'
    cases hp'
    exact hother (hrequested.symm.trans hrequested')
  | held status _ hpublished hpending _ hmode =>
    refine ⟨hconsistent, (total_of_published hpublished).trans h.one, not_waiting_of_none hmode, ?_⟩
    rintro ⟨status', hstatus'⟩
    rw [hpending] at hstatus'
    cases hstatus'
    exact hother rfl

/-! ## Requests -/

theorem concluded_transitionResolution {request oldMode : ModeRequest}
    (hlatest : s.tracker.latestStarted = some request.resolution) (hmode : s.pendingMode = none) :
    Concluded request.resolution s (s.dropEncoder.transitionResolution i request oldMode) := by
  have hdropped : s.dropEncoder.tracker.latestStarted = some request.resolution := hlatest
  unfold transitionResolution
  dsimp only
  split
  next restored _ =>
    -- the success is held back
    have hrestarted : (s.dropEncoder.restartOn i (restored.display request)).tracker.latestStarted =
        some request.resolution := hlatest
    rw [onTransitionApplied_of_latest hrestarted]
    exact ⟨rfl, rfl, .held _ rfl rfl rfl hlatest hmode⟩
  · rw [onTransitionFailed_of_latest hdropped]
    split <;> exact ⟨rfl, rfl, .answered _ rfl rfl rfl rfl (.inl hmode)⟩

theorem concluded_handleRequestWindows {request : ModeRequest}
    (hvalid : validateModeRequest request = .ok request) (hvirtual : s.virtualDisplay = true)
    (hmode : s.pendingMode = none) :
    Concluded request.resolution (s.beginTransition request)
      ((s.beginTransition request).handleRequestWindows i request) := by
  have hvirtual' : (s.beginTransition request).virtualDisplay = true := hvirtual
  unfold handleRequestWindows
  rw [hvalid, hvirtual']
  dsimp only
  split
  · exact concluded_transitionResolution rfl hmode
  · exact ⟨rfl, rfl, .answered _ rfl rfl rfl rfl (.inl hmode)⟩

theorem validateModeRequest_ok {request valid : ModeRequest} (h : validateModeRequest request = .ok valid) :
    valid = request := by
  unfold validateModeRequest at h
  repeat (split at h; · cases h)
  exact (Except.ok.inj h).symm

theorem concluded_handleRequestCompositor {request : ModeRequest}
    (halone : ∀ p ∈ s.pendingMode, p.requested = request.resolution →
      validateModeRequest request = .ok request ∧ i.modeResult = .ok ()) :
    Concluded request.resolution (s.beginTransition request)
      ((s.beginTransition request).handleRequestCompositor i request) := by
  have hlatest : (s.beginTransition request).tracker.latestStarted = some request.resolution := rfl
  unfold handleRequestCompositor
  rw [onTransitionFailed_of_latest hlatest]
  split
  next error herror =>
    refine ⟨rfl, rfl, .answered _ rfl rfl rfl rfl (.inr ⟨rfl, ?_⟩)⟩
    rintro ⟨p, hp, hsame⟩
    rw [(halone p hp hsame).1] at herror
    cases herror
  next valid hvalid =>
    obtain rfl := validateModeRequest_ok hvalid
    split
    · split
      · exact ⟨rfl, rfl, .waiting _ rfl rfl rfl rfl⟩
      next error herror =>
        refine ⟨rfl, rfl, .answered _ rfl rfl rfl rfl (.inr ⟨rfl, ?_⟩)⟩
        rintro ⟨p, hp, hsame⟩
        rw [(halone p hp hsame).2] at herror
        cases herror
    · exact ⟨rfl, rfl, .answered _ rfl rfl rfl rfl (.inl rfl)⟩

variable {requested : Resolution → Prop}

/-- A request that is taken concludes its size. -/
theorem concluded_afterRequest {request : ModeRequest}
    (hprompt : Prompt platform requested s i) (hrequest : i.request = some request)
    (hwindows : platform = .windows → s.pendingMode = none) :
    Concluded request.resolution (beginTransition { s with output := {} } request)
      (afterRequest platform s i) := by
  unfold afterRequest handleRequest
  rw [hrequest]
  dsimp only
  split
  · obtain ⟨hvalid, hvirtual⟩ := hprompt.heeded rfl request hrequest
    exact concluded_handleRequestWindows hvalid hvirtual (hwindows rfl)
  all_goals exact concluded_handleRequestCompositor (hprompt.alone request hrequest)

/-- A new request does not change what was said about another size. -/
theorem Finished.beginTransition (h : Finished r c s) (request : ModeRequest) :
    Finished r (total r c s) (beginTransition { s with output := {} } request) :=
  ⟨consistent_of_none rfl, h.one, h.waiting, not_held_of_none rfl⟩

/-! ## Capture -/

theorem concluded_settle {p : PendingMode} (hconsistent : Consistent s) (hp : s.pendingMode = some p)
    (frame : Option Resolution) :
    s.settle i p frame = s ∨ Concluded p.requested s (s.settle i p frame) := by
  have hpending := hconsistent.pendingSuccess hp
  unfold settle
  split
  · exact .inl rfl
  · refine .inr ?_
    by_cases hlatest : s.tracker.latestStarted = some p.requested
    · rw [onTransitionApplied_of_latest hlatest]
      exact ⟨rfl, rfl, .held _ rfl rfl rfl hlatest rfl⟩
    · rw [onTransitionApplied_of_ne hlatest]
      exact ⟨rfl, rfl, .nothing hlatest rfl hpending rfl⟩
  · refine .inr ?_
    by_cases hlatest : s.tracker.latestStarted = some p.requested
    · rw [onTransitionFailed_of_latest hlatest]
      exact ⟨rfl, rfl, .answered _ rfl rfl rfl rfl (.inl rfl)⟩
    · rw [onTransitionFailed_of_ne hlatest]
      exact ⟨rfl, rfl, .answered _ rfl rfl rfl hpending (.inl rfl)⟩

/-- A mode change is settled: that of `r` is held back or fails, another one does not matter. -/
theorem Tracked.settlePendingMode (h : Tracked r c s) (frame : Option Resolution) :
    Tracked r c (s.settlePendingMode i frame) := by
  unfold CaptureLoop.settlePendingMode
  split
  · exact h
  next p hp =>
    rcases concluded_settle (i := i) h.consistent hp frame with hsame | hconcluded
    · rw [hsame]
      exact h
    · rcases h with hopen | hfinished
      · -- only the size of the latest request is waiting
        have hrequested : p.requested = r := by
          rcases hopen.phase with ⟨p', hp', hrequested⟩ | ⟨status, hstatus⟩
          · rw [hp] at hp'
            cases hp'
            exact hrequested
          · rw [hopen.consistent.pendingSuccess hp] at hstatus
            cases hstatus
        have hsaid := hconcluded.said
        rw [hrequested] at hsaid
        exact hsaid.tracked hopen.zero hopen.latest (hconcluded.latestStarted.trans hopen.latest)
      · exact .inr (hfinished.of_said hconcluded.said fun hsame => hfinished.waiting ⟨p, hp, hsame⟩)

/-- An encoder that has failed is not forgotten, and a success that is held back stays so. -/
theorem settlePendingMode_tracker (hconsistent : Consistent s) (frame : Option Resolution) :
    (s.settlePendingMode i frame).tracker.recovering = s.tracker.recovering ∧
      ((s.settlePendingMode i frame).tracker.pendingSuccess = none → s.tracker.pendingSuccess = none) := by
  unfold settlePendingMode
  split
  · exact ⟨rfl, id⟩
  next p hp =>
    have hpending := hconsistent.pendingSuccess hp
    rcases concluded_settle (i := i) hconsistent hp frame with hsame | hconcluded
    · rw [hsame]
      exact ⟨rfl, id⟩
    · exact ⟨hconcluded.recovering, fun _ => hpending⟩

theorem Tracked.recoverLostCapture (h : Tracked r c s) (native : Resolution) (rect : DesktopRect)
    (hcaptured : ∀ p ∈ s.pendingMode, s.tracker.latestStarted ≠ some p.requested) :
    Tracked r c (s.recoverLostCapture i platform native rect) := by
  have hconsistent : Consistent (s.recoverLostCapture i platform native rect) := by
    intro q status hsome
    obtain ⟨hlatest, hsize, -⟩ := h.consistent q status hsome
    exact ⟨hlatest, hsize, rfl⟩
  rcases h with hopen | hfinished
  · refine .inl ⟨hconsistent, hopen.latest, hopen.zero, ?_⟩
    rcases hopen.phase with ⟨p, hp, rfl⟩ | hheld
    · exact absurd hopen.latest (hcaptured p hp)
    · exact .inr hheld
  · exact .inr ⟨hconsistent, hfinished.one, not_waiting_of_none rfl, hfinished.held⟩

theorem settlePendingMode_of_deadline {frame : Option Resolution}
    (h : ∀ p ∈ s.pendingMode, p.deadline ≤ i.settleNow) :
    (s.settlePendingMode i frame).pendingMode = none := by
  unfold settlePendingMode
  split
  next hnone => exact hnone
  next p hp =>
    unfold settle
    split
    next hwaiting =>
      rw [PendingMode.state, if_pos (h p hp)] at hwaiting
      split at hwaiting <;> cases hwaiting
    · rfl
    · rfl

/-! ## Packets -/

/-- Whatever a packet reports, nothing is left to report. -/
theorem onPacketEmitted_fields (t : ResolutionStatusTracker) (encode : Resolution) :
    (t.onPacketEmitted encode).1.latestStarted = t.latestStarted ∧
      (t.onPacketEmitted encode).1.pendingSuccess = none ∧
      (t.onPacketEmitted encode).1.recovering = none := by
  unfold onPacketEmitted
  cases hdue : t.due with
  | some status => exact ⟨rfl, rfl, rfl⟩
  | none =>
    refine ⟨rfl, rfl, ?_⟩
    unfold due at hdue
    split at hdue
    · cases hdue
    · exact Option.map_eq_none_iff.mp hdue

/-- The verdicts that a packet reports. -/
def reported (r : Resolution) (s : CaptureLoop) : ℕ :=
  (s.tracker.onPacketEmitted s.encodeResolution).2.toList.countP (answers r)

theorem total_emitPacket : total r c s.emitPacket = total r c s + reported r s := by
  rw [emitPacket_eq, total, total, reported, List.countP_append, Nat.add_assoc]

/-- A success that is held back is reported. -/
theorem reported_of_pending {status : ResolutionStatus} (hconsistent : Consistent s)
    (hpending : s.tracker.pendingSuccess = some (q, status)) :
    reported r s = if q = r then 1 else 0 := by
  obtain ⟨hlatest, rfl, -⟩ := hconsistent q status hpending
  have hdue : s.tracker.due = some status := by
    simp [due, hpending, hlatest, Option.filter]
  simp only [reported, onPacketEmitted, hdue, Option.toList_some, List.countP_singleton, answers,
    StatusState.terminal, Bool.true_and, decide_eq_true_eq]
  rfl

/-- Otherwise the encoder is back, at another size. -/
theorem reported_of_not_recovering (hpending : s.tracker.pendingSuccess = none)
    (hrecovering : s.tracker.recovering ≠ some r) : reported r s = 0 := by
  cases hrec : s.tracker.recovering with
  | none => simp [reported, onPacketEmitted, due, hpending, hrec]
  | some back =>
    have hother : back ≠ r := by
      rintro rfl
      exact hrecovering hrec
    simp [reported, onPacketEmitted, due, hpending, hrec, answers, size, hother]

theorem Tracked.emitPacket (h : Tracked r c s)
    (hreported : s.tracker.pendingSuccess = none → s.tracker.recovering ≠ some r) :
    Tracked r c s.emitPacket ∧ s.emitPacket.tracker.pendingSuccess = none ∧
      s.emitPacket.tracker.recovering = none := by
  obtain ⟨hlatest, hpending, hrecovering⟩ := onPacketEmitted_fields s.tracker s.encodeResolution
  have hmode : s.emitPacket.pendingMode = s.pendingMode := by rw [emitPacket_eq]
  have htracker : s.emitPacket.tracker = (s.tracker.onPacketEmitted s.encodeResolution).1 := by
    rw [emitPacket_eq]
  rw [← htracker] at hlatest hpending hrecovering
  have hwaiting : Waiting r s.emitPacket ↔ Waiting r s := by rw [Waiting, Waiting, hmode]
  have hnone := not_held_of_none (r := r) hpending
  refine ⟨?_, hpending, hrecovering⟩
  rcases h with hopen | hfinished
  · rcases hopen.phase with ⟨p, hp, hrequested⟩ | ⟨status, hstatus⟩
    · have hempty := hopen.consistent.pendingSuccess hp
      have hquiet := reported_of_not_recovering hempty (hreported hempty)
      refine .inl ⟨consistent_of_none hpending, hlatest.trans hopen.latest, ?_,
        .inl (hwaiting.mpr ⟨p, hp, hrequested⟩)⟩
      rw [total_emitPacket, hopen.zero, hquiet]
    · -- the packet reports the success
      obtain ⟨-, -, hidle⟩ := hopen.consistent r status hstatus
      refine .inr ⟨consistent_of_none hpending, ?_, hwaiting.not.mpr (not_waiting_of_none hidle), hnone⟩
      rw [total_emitPacket, hopen.zero, reported_of_pending hopen.consistent hstatus, if_pos rfl]
  · have hquiet : reported r s = 0 := by
      cases hstatus : s.tracker.pendingSuccess with
      | none => exact reported_of_not_recovering hstatus (hreported hstatus)
      | some held =>
        rw [reported_of_pending hfinished.consistent hstatus, if_neg]
        rintro rfl
        exact hfinished.held ⟨held.2, hstatus⟩
    refine .inr ⟨consistent_of_none hpending, ?_, hwaiting.not.mpr hfinished.waiting, hnone⟩
    rw [total_emitPacket, hfinished.one, hquiet]

/-- The first packet reports what is held back, and the others nothing. -/
theorem Tracked.emitPackets (n : Nat) (h : Tracked r c s)
    (hreported : s.tracker.pendingSuccess = none → s.tracker.recovering ≠ some r) :
    Tracked r c (emitPackets n s) ∧ (0 < n → (emitPackets n s).tracker.pendingSuccess = none) := by
  induction n generalizing s with
  | zero => exact ⟨h, fun hpos => absurd hpos (by omega)⟩
  | succ n ih =>
    obtain ⟨hone, hpending, hrecovering⟩ := h.emitPacket hreported
    obtain ⟨hrest, hnone⟩ := ih hone (by rw [hrecovering]; intro _ hsome; cases hsome)
    refine ⟨hrest, fun _ => ?_⟩
    rcases Nat.eq_zero_or_pos n with rfl | hpos
    · exact hpending
    · exact hnone hpos

/-! ## Frames -/

/-- What encoding a frame says about requests. -/
inductive Reports (s : CaptureLoop) : CaptureLoop → Prop where
  | quiet {s' : CaptureLoop} (hsame : SameRequest s s') : Reports s s'
  | emitted (n : Nat) {x : CaptureLoop} (hsame : SameRequest s x)
      (hrecovering : x.tracker.recovering = s.tracker.recovering) : Reports s (emitPackets n x)

theorem reports_of_submitted (h : Submitted x s') (hsame : SameRequest s x)
    (hrecovering : x.tracker.recovering = s.tracker.recovering) : Reports s s' := by
  cases h with
  | skipped => exact .quiet hsame
  | taken frame packets =>
    exact .emitted packets (hsame.trans ⟨rfl, rfl, rfl, fun _ => rfl, rfl⟩) hrecovering

/-- An encoder that fails is no verdict. -/
theorem sameRequest_openEncoder (resolution : Resolution) : SameRequest s (s.openEncoder i resolution) := by
  unfold openEncoder
  split
  · exact ⟨rfl, rfl, rfl, fun _ => rfl, rfl⟩
  · refine ⟨rfl, rfl, rfl, fun r => ?_, rfl⟩
    simp [publish, onEncoderFailed, answers, StatusState.terminal]

theorem sameRequest_restartForDownscale (resolution : Resolution) :
    SameRequest s (s.restartForDownscale i resolution).1 := by
  unfold restartForDownscale
  split
  · exact ⟨rfl, rfl, rfl, fun _ => rfl, rfl⟩
  · split <;> exact ⟨rfl, rfl, rfl, fun _ => rfl, rfl⟩

theorem reports_encodeFrame (s : CaptureLoop) (i : LoopInput) (frame : CapturedFrame) :
    Reports s (s.encodeFrame i frame) := by
  have hcases := encodeFrame_cases s i frame
  generalize s.encodeFrame i frame = s' at hcases
  cases hcases with
  | kept => exact reports_of_submitted (scaleAndSubmit_cases frame) .refl rfl
  | failed => exact .quiet (sameRequest_openEncoder _)
  | fitted _ hbuild =>
    refine reports_of_submitted (submit_cases frame) (sameRequest_openEncoder _) ?_
    simp [openEncoder, hbuild]
  | restarted => exact .quiet ((sameRequest_openEncoder _).trans (sameRequest_restartForDownscale _))

theorem Tracked.encodeFrame (h : Tracked r c s) (frame : CapturedFrame) (hpackets : s.output.packets = 0)
    (hreported : s.tracker.pendingSuccess = none → s.tracker.recovering ≠ some r) :
    Tracked r c (s.encodeFrame i frame) ∧ (0 < (s.encodeFrame i frame).output.packets →
      (s.encodeFrame i frame).tracker.pendingSuccess = none) := by
  have hcases := reports_encodeFrame s i frame
  generalize s.encodeFrame i frame = s' at hcases
  cases hcases with
  | quiet hsame =>
    exact ⟨h.of_same hsame, fun hpos => absurd (hsame.packets.trans hpackets) hpos.ne'⟩
  | @emitted n x hsame hrecovering =>
    have hcount : (CaptureLoop.emitPackets n x).output.packets = n := by
      rw [(emitPackets_encoder n x).packets]
      rw [hsame.packets, hpackets, Nat.zero_add]
    rw [← hrecovering, ← hsame.pendingSuccess] at hreported
    rw [hcount]
    exact (h.of_same hsame).emitPackets n hreported

/-! ## Iterations -/

/-- The rest of an iteration keeps track of the request, and answers it if there are packets and no deadline
is left. -/
theorem Tracked.captureNext (h : Tracked r c s) (hpackets : s.output.packets = 0)
    (hcaptured : ∀ native rect, i.capture = .lost native rect →
      ∀ p ∈ s.pendingMode, s.tracker.latestStarted ≠ some p.requested)
    (hreported : s.tracker.pendingSuccess = none → s.tracker.recovering ≠ some r) :
    Tracked r c (s.captureNext i platform) ∧
      (0 < (s.captureNext i platform).output.packets → (∀ p ∈ s.pendingMode, p.deadline ≤ i.settleNow) →
        total r c (s.captureNext i platform) = 1) := by
  have hquiet : ∀ frame, (s.settlePendingMode i frame).output.packets = 0 := by
    intro frame
    rw [(sameEncoder_settlePendingMode frame).packets, hpackets]
  unfold CaptureLoop.captureNext
  split
  · exact ⟨h.settlePendingMode none, fun hpos => absurd (hquiet none) hpos.ne'⟩
  · exact ⟨h, fun hpos => absurd hpackets hpos.ne'⟩
  next native rect hlost =>
    exact ⟨h.recoverLostCapture native rect (hcaptured native rect hlost),
      fun hpos => absurd hpackets hpos.ne'⟩
  next frame hframe =>
    have hsettled := h.settlePendingMode (i := i) (some frame.resolution)
    obtain ⟨hrecovering, hpending⟩ :=
      settlePendingMode_tracker (i := i) h.consistent (some frame.resolution)
    split
    next hdue =>
      obtain ⟨hencoded, hnone⟩ := hsettled.encodeFrame (i := i) frame (hquiet _) fun hempty => by
        rw [hrecovering]
        exact hreported (hpending hempty)
      refine ⟨hencoded, fun hpos hdeadline => hencoded.answered (hnone hpos) ?_⟩
      rw [(sameDisplay_encodeFrame frame).pendingMode]
      exact settlePendingMode_of_deadline hdeadline
    next hdue => exact ⟨hsettled, fun hpos => absurd (hquiet _) hpos.ne'⟩

theorem packets_afterRequest : (afterRequest platform s i).output.packets = 0 := by
  rcases handleRequest_encoder { s with output := {} } i platform with hsame | hdropped
  · exact hsame.packets
  · exact hdropped.packets

theorem Tracked.iterate (h : Tracked r c (afterRequest platform s i))
    (hrunning : s.stopped = false) (hprompt : Prompt platform requested s i) (hr : requested r)
    (hwindows : platform = .windows → s.pendingMode = none) :
    Tracked r c (iterate platform s i) ∧ (0 < (iterate platform s i).output.packets →
      (∀ p ∈ (afterRequest platform s i).pendingMode, p.deadline ≤ i.settleNow) →
        total r c (iterate platform s i) = 1) := by
  have hiterate : CaptureLoop.iterate platform s i = (afterRequest platform s i).captureNext i platform :=
    iterate_of_running platform hrunning
  rw [hiterate]
  cases hrequest : i.request with
  | none =>
    have hbefore : afterRequest platform s i = { s with output := {} } :=
      handleRequest_of_none hrequest platform
    refine h.captureNext packets_afterRequest ?_ ?_
    · rw [hbefore]
      exact fun native rect hlost => (hprompt.captured native rect hlost).2
    · rw [hbefore]
      exact fun hpending hrecovering => hprompt.recovered (.inl hpending) r hrecovering hr
  | some request =>
    have hconcluded := concluded_afterRequest hprompt hrequest hwindows
    refine h.captureNext packets_afterRequest ?_ ?_
    · intro native rect hlost p hp
      rcases (hprompt.captured native rect hlost).1 with rfl | hnone
      · -- Windows never waits for a mode
        rw [afterRequest, handleRequest, hrequest] at hp
        rw [pendingMode_handleRequestWindows] at hp
        have hsome : s.pendingMode = some p := hp
        rw [hwindows rfl] at hsome
        cases hsome
      · rw [hnone] at hrequest
        cases hrequest
    · intro _ hrecovering
      have hsome : s.tracker.recovering = some r := hconcluded.recovering.symm.trans hrecovering
      exact hprompt.recovered (.inr (by rw [hrequest]; exact Option.some_ne_none _)) r hsome hr

theorem pendingMode_iterate (hnone : i.request = none)
    (hp : (iterate platform s i).pendingMode = some p) : s.pendingMode = some p := by
  cases hstopped : s.stopped with
  | true =>
    rw [iterate_of_stopped platform hstopped] at hp
    exact hp
  | false =>
    rw [iterate_of_running platform hstopped, handleRequest_of_none hnone] at hp
    have hbefore := pendingMode_captureNext hp
    exact hbefore

theorem pendingMode_iterate_windows (h : s.pendingMode = none) :
    (iterate .windows s i).pendingMode = none := by
  refine Option.eq_none_iff_forall_ne_some.mpr fun p hp => ?_
  have hbefore : s.pendingMode = some p := by
    cases hrequest : i.request with
    | none => exact pendingMode_iterate hrequest hp
    | some request =>
      cases hstopped : s.stopped with
      | true =>
        rw [iterate_of_stopped .windows hstopped] at hp
        exact hp
      | false =>
        rw [iterate_of_running .windows hstopped] at hp
        have hhandled := pendingMode_captureNext hp
        rw [handleRequest, hrequest] at hhandled
        rw [pendingMode_handleRequestWindows] at hhandled
        exact hhandled
  rw [h] at hbefore
  cases hbefore

/-! ## Endless runs -/

/-- The loop before iteration `n`. -/
def loopAt (platform : Platform) (s : CaptureLoop) (inputs : ℕ → LoopInput) : ℕ → CaptureLoop :=
  Endless.stateAt (iterate platform) s inputs

/-- What iteration `n` takes from the channel. -/
def requestAt (inputs : ℕ → LoopInput) (n : ℕ) : Option ModeRequest := (inputs n).request

/-- What iteration `n` publishes. -/
def publishedAt (platform : Platform) (s : CaptureLoop) (inputs : ℕ → LoopInput) (n : ℕ) :
    List ResolutionStatus :=
  (loopAt platform s inputs (n + 1)).output.published

variable {inputs : ℕ → LoopInput} {n : ℕ} {request : ModeRequest}

/-- A loop that emits packets again and again never stops. -/
theorem running_of_packets
    (hpackets : ∃ᶠ n in atTop, 0 < (loopAt platform s inputs (n + 1)).output.packets) (n : ℕ) :
    (loopAt platform s inputs n).stopped = false := by
  by_contra hstopped
  have hstays : ∀ m, n ≤ m → (loopAt platform s inputs m).stopped = true := by
    intro m hm
    induction m, hm using Nat.le_induction with
    | base => exact Bool.not_eq_false _ ▸ hstopped
    | succ m _ ih =>
      show (iterate platform (loopAt platform s inputs m) (inputs m)).stopped = true
      rw [iterate_of_stopped platform ih]
      exact ih
  obtain ⟨m, hm, hpos⟩ := frequently_atTop.mp hpackets n
  have hquiet : loopAt platform s inputs (m + 1) = { loopAt platform s inputs m with output := {} } :=
    iterate_of_stopped platform (hstays m hm)
  rw [hquiet] at hpos
  exact absurd hpos (Nat.lt_irrefl 0)

theorem pendingMode_loopAt_windows (h : s.pendingMode = none) (n : ℕ) :
    (loopAt .windows s inputs n).pendingMode = none := by
  induction n with
  | zero => exact h
  | succ n ih => exact pendingMode_iterate_windows ih

/-- The sizes requested up to iteration `n`. -/
def RequestedBy (inputs : ℕ → LoopInput) (n : ℕ) (r : Resolution) : Prop :=
  ∃ k ≤ n, ∃ q, requestAt inputs k = some q ∧ q.resolution = r

section Run

variable (hstart : s.pendingMode = none)
  (hprompt : ∀ n, Prompt platform (RequestedBy inputs n) (loopAt platform s inputs n) (inputs n))
  (hpackets : ∃ᶠ n in atTop, 0 < (loopAt platform s inputs (n + 1)).output.packets)
  (hrequest : requestAt inputs n = some request)

include hstart hprompt hpackets hrequest

/-- The loop keeps track of a request until its size is requested again, unless a newer request is taken
before the verdict. -/
theorem tracked_loopAt (k : ℕ) (hsole : Sole (requestAt inputs) request.resolution n (k + 1)) :
    Superseded (requestAt inputs) (publishedAt platform s inputs) request.resolution n ∨
      Tracked request.resolution (verdicts (publishedAt platform s inputs) request.resolution n k)
        (loopAt platform s inputs (n + k + 1)) := by
  have hrunning := running_of_packets hpackets
  have hwindows : ∀ m, platform = .windows → (loopAt platform s inputs m).pendingMode = none := by
    rintro m rfl
    exact pendingMode_loopAt_windows hstart m
  have hstep : ∀ m c, n ≤ m →
      Tracked request.resolution c (afterRequest platform (loopAt platform s inputs m) (inputs m)) →
      Tracked request.resolution c (loopAt platform s inputs (m + 1)) := by
    intro m c hm h
    exact (h.iterate (hrunning m) (hprompt m) ⟨n, hm, request, hrequest, rfl⟩ (hwindows m)).1
  induction k with
  | zero =>
    have hconcluded := concluded_afterRequest (hprompt n) hrequest (hwindows n)
    exact .inr (hstep n 0 le_rfl (hconcluded.said.tracked rfl rfl hconcluded.latestStarted))
  | succ k ih =>
    rcases ih fun j hpos hj => hsole j hpos (by omega) with hsuperseded | htracked
    · exact .inl hsuperseded
    cases hnew : requestAt inputs (n + k + 1) with
    | none => exact .inr (hstep _ _ (by omega) (htracked.of_no_request platform hnew))
    | some newer =>
      -- a newer request: without a verdict it supersedes this one
      rcases htracked with hopen | hfinished
      · refine .inl ⟨k + 1, by omega, ?_, hopen.zero⟩
        exact (Option.ne_none_iff_exists.mpr ⟨newer, hnew.symm⟩)
      · have hother := hsole (k + 1) (by omega) (by omega) newer hnew
        have hconcluded := concluded_afterRequest (hprompt (n + k + 1)) hnew (hwindows _)
        have hkept := (hfinished.beginTransition newer).of_said hconcluded.said hother
        exact .inr (hstep _ _ (by omega) (.inr hkept))

theorem verdicts_le_one (hkept : ¬ Superseded (requestAt inputs) (publishedAt platform s inputs)
      request.resolution n) (k : ℕ) (hsole : Sole (requestAt inputs) request.resolution n k) :
    verdicts (publishedAt platform s inputs) request.resolution n k ≤ 1 := by
  cases k with
  | zero => exact Nat.zero_le 1
  | succ k =>
    have htracked := (tracked_loopAt hstart hprompt hpackets hrequest k hsole).resolve_left hkept
    exact htracked.total_le

/-- With no newer request, there is a verdict once the deadline has passed and a packet is emitted. -/
theorem verdicts_eventually_one (hclock : Tendsto (fun n => (inputs n).settleNow) atTop atTop)
    (hkept : ¬ Superseded (requestAt inputs) (publishedAt platform s inputs) request.resolution n)
    (hlast : ∀ j, 0 < j → requestAt inputs (n + j) = none) :
    ∃ k, verdicts (publishedAt platform s inputs) request.resolution n k = 1 := by
  have hpending : ∀ j p, (loopAt platform s inputs (n + j + 1)).pendingMode = some p →
      (loopAt platform s inputs (n + 1)).pendingMode = some p := by
    intro j
    induction j with
    | zero => exact fun p hp => hp
    | succ j ih =>
      intro p hp
      exact ih p (pendingMode_iterate (hlast (j + 1) (by omega)) hp)
  obtain ⟨T, hT⟩ : ∃ T, ∀ p ∈ (loopAt platform s inputs (n + 1)).pendingMode, p.deadline ≤ T := by
    cases (loopAt platform s inputs (n + 1)).pendingMode with
    | none => exact ⟨0, fun p hp => by cases hp⟩
    | some p => exact ⟨p.deadline, fun q hq => by cases hq; exact le_rfl⟩
  obtain ⟨m, hm, hpos, hnow⟩ :=
    frequently_atTop.mp (hpackets.and_eventually (hclock.eventually_ge_atTop T)) (n + 1)
  obtain ⟨j, rfl⟩ : ∃ j, m = n + j + 1 := ⟨m - n - 1, by omega⟩
  have hnone : (inputs (n + j + 1)).request = none := hlast (j + 1) (by omega)
  have hsole : Sole (requestAt inputs) request.resolution n (j + 1) := by
    intro l hl _ q hq
    rw [hlast l hl] at hq
    cases hq
  have htracked := (tracked_loopAt hstart hprompt hpackets hrequest j hsole).resolve_left hkept
  have hiterate := (htracked.of_no_request platform hnone).iterate (running_of_packets hpackets _)
    (hprompt _) ⟨n, by omega, request, hrequest, rfl⟩ (by rintro rfl; exact pendingMode_loopAt_windows hstart _)
  refine ⟨j + 2, hiterate.2 hpos ?_⟩
  rw [afterRequest, handleRequest_of_none hnone]
  exact fun p hp => (hT p (hpending j p hp)).trans hnow

end Run

/-- In an endless run of prompt iterations, every request is answered. -/
theorem every_request_answered (platform : Platform) (display : Display) (virtualDisplay : Bool)
    (inputs : ℕ → LoopInput)
    (hprompt : ∀ n, Prompt platform (RequestedBy inputs n)
      (loopAt platform (start display virtualDisplay) inputs n) (inputs n))
    (hclock : Tendsto (fun n => (inputs n).settleNow) atTop atTop)
    (hpackets : ∃ᶠ n in atTop,
      0 < (loopAt platform (start display virtualDisplay) inputs (n + 1)).output.packets)
    (n : ℕ) (request : ModeRequest) (hrequest : requestAt inputs n = some request) :
    Answered (requestAt inputs) (publishedAt platform (start display virtualDisplay) inputs) n
      request.resolution := by
  refine or_iff_not_imp_left.mpr fun hkept => ?_
  have hle := verdicts_le_one rfl hprompt hpackets hrequest hkept
  refine ⟨hle, ?_⟩
  by_cases hnewer : ∃ k, 0 < k ∧ requestAt inputs (n + k) ≠ none
  · -- there is a verdict before the first newer request
    have hnewest : Newest (requestAt inputs) n (Nat.find hnewer) := by
      intro j hpos hj
      by_contra hsome
      exact Nat.find_min hnewer hj ⟨hpos, hsome⟩
    obtain ⟨hpos, hsome⟩ := Nat.find_spec hnewer
    have hone := hle (Nat.find hnewer) fun j hj hlt q hq => by
      rw [hnewest j hj hlt] at hq
      cases hq
    have hverdict : verdicts _ request.resolution n (Nat.find hnewer) ≠ 0 :=
      fun hzero => hkept ⟨_, hpos, hsome, hzero⟩
    exact ⟨_, hnewest, by omega⟩
  · have hlast : ∀ j, 0 < j → requestAt inputs (n + j) = none := by
      intro j hpos
      by_contra hsome
      exact hnewer ⟨j, hpos, hsome⟩
    obtain ⟨k, hone⟩ := verdicts_eventually_one rfl hprompt hpackets hrequest hclock hkept hlast
    exact ⟨k, fun j hpos _ => hlast j hpos, hone⟩

/-- An iteration with an encoder that emits a packet for a frame. -/
def verdictInput (request : Option ModeRequest) (size : Resolution) (now : ℕ) : LoopInput :=
  { LoopInput.smooth request (.frame (.packed size)) with
    requestNow := now, settleNow := now, rebuildNow := now, failureNow := now }

/-- One request for 1280x720 with a frame of 1920x1080, and frames of any size later. -/
def firstRequest (later : Resolution) : ℕ → LoopInput
  | 0 => verdictInput (some ⟨1280, 720⟩) ⟨1920, 1080⟩ 0
  | n + 1 => verdictInput none later (n + 1)

theorem tendsto_firstRequest (later : Resolution) :
    Tendsto (fun n => (firstRequest later n).settleNow) atTop atTop := by
  have hnow : (fun n => (firstRequest later n).settleNow) = id := by
    funext n
    cases n <;> rfl
  rw [hnow]
  exact tendsto_id

def firstLoop : CaptureLoop := .start ⟨"display", none, ⟨1920, 1080⟩, ⟨0, 0, 1920, 1080⟩⟩ false

/-- Nothing changes once an iteration without a request changes nothing. -/
theorem loopAt_firstRequest (platform : Platform) (later : Resolution) {k : ℕ} (hk : 0 < k)
    (hfixed : ∀ now, iterate platform (loopAt platform firstLoop (firstRequest later) k)
      (verdictInput none later now) = loopAt platform firstLoop (firstRequest later) k) (n : ℕ) (hn : k ≤ n) :
    loopAt platform firstLoop (firstRequest later) n = loopAt platform firstLoop (firstRequest later) k := by
  refine Endless.stateAt_of_fixed (fun m hm => ?_) n hn
  obtain ⟨j, rfl⟩ : ∃ j, m = j + 1 := ⟨m - 1, by omega⟩
  exact hfixed (j + 1)

/-- No encoder has failed and no capture is lost. -/
theorem prompt_verdictInput {s : CaptureLoop} {request : Option ModeRequest}
    {size : Resolution} {now : ℕ} (halone : request = none ∨ s.pendingMode = none)
    (hrecovering : s.tracker.recovering = none) :
    Prompt .linux requested s (verdictInput request size now) where
  heeded hwindows := by cases hwindows
  alone r hr p hp _ := by
    rcases halone with rfl | hnone
    · cases hr
    · rw [hnone] at hp
      cases hp
  captured native rect hlost := by cases hlost
  recovered _ r hr := by
    rw [hrecovering] at hr
    cases hr

/-- The compositor applies the mode in the second iteration, whose packet reports the success. -/
theorem every_request_answered_one_request :
    Answered (requestAt (firstRequest ⟨1280, 720⟩))
        (publishedAt .linux firstLoop (firstRequest ⟨1280, 720⟩)) 0 ⟨1280, 720⟩ ∧
      verdicts (publishedAt .linux firstLoop (firstRequest ⟨1280, 720⟩)) ⟨1280, 720⟩ 0 2 = 1 := by
  have hstate := loopAt_firstRequest .linux ⟨1280, 720⟩ (k := 3) (by omega) fun _ => rfl
  refine ⟨every_request_answered .linux _ _ _ ?_ (tendsto_firstRequest _) ?_ 0 ⟨1280, 720⟩ rfl, rfl⟩
  · rintro (_ | _ | _ | n)
    · exact prompt_verdictInput (.inr rfl) rfl
    · exact prompt_verdictInput (.inl rfl) rfl
    · exact prompt_verdictInput (.inl rfl) rfl
    · refine prompt_verdictInput (.inl rfl) ?_
      exact congrArg (·.tracker.recovering) (hstate (n + 3) (by omega))
  · refine frequently_atTop.mpr fun N => ⟨N + 2, by omega, ?_⟩
    show 0 < (loopAt .linux firstLoop (firstRequest ⟨1280, 720⟩) (N + 3)).output.packets
    rw [hstate (N + 3) (by omega)]
    decide

/-- Windows without a virtual display: frames are encoded and packets emitted, and the request is never
answered. -/
theorem request_unanswered :
    ¬ ∀ (platform : Platform) (display : Display) (virtualDisplay : Bool) (inputs : ℕ → LoopInput),
      Tendsto (fun n => (inputs n).settleNow) atTop atTop →
      (∃ᶠ n in atTop, 0 < (loopAt platform (start display virtualDisplay) inputs (n + 1)).output.packets) →
      ∀ (n : ℕ) (request : ModeRequest), requestAt inputs n = some request →
        Answered (requestAt inputs)
          (publishedAt platform (start display virtualDisplay) inputs) n request.resolution := by
  intro hclaim
  have hstate := loopAt_firstRequest .windows ⟨1920, 1080⟩ (k := 1) (by omega) fun _ => rfl
  have hpackets : ∃ᶠ n in atTop,
      0 < (loopAt .windows firstLoop (firstRequest ⟨1920, 1080⟩) (n + 1)).output.packets := by
    refine frequently_atTop.mpr fun N => ⟨N, le_rfl, ?_⟩
    rw [hstate (N + 1) (by omega)]
    decide
  have hpublished : ∀ n, publishedAt .windows firstLoop (firstRequest ⟨1920, 1080⟩) n = [] := by
    intro n
    rw [publishedAt, hstate (n + 1) (by omega)]
    rfl
  have hnever : ∀ k,
      verdicts (publishedAt .windows firstLoop (firstRequest ⟨1920, 1080⟩)) ⟨1280, 720⟩ 0 k = 0 := by
    intro k
    induction k with
    | zero => rfl
    | succ k ih => rw [verdicts, ih, hpublished, List.countP_nil]
  rcases hclaim .windows _ false _ (tendsto_firstRequest _) hpackets 0 ⟨1280, 720⟩ rfl with
    ⟨k, hpos, hsome, -⟩ | ⟨-, k, -, hone⟩
  · obtain ⟨j, rfl⟩ : ∃ j, k = j + 1 := ⟨k - 1, by omega⟩
    exact hsome rfl
  · exact absurd ((hnever k).symm.trans hone) (by decide)

end Rustcast.Host
