import Rustcast.Core.Lts
import Rustcast.Core.Trace
import Rustcast.Host.SenderSteps

/-!
# Loss recovery of the host's QUIC sender

A frame that was broadcast to the sender and not sent completely leaves a hole in the
stream, and the encoder must be asked for an IDR frame: at or after the loss, or less than
the cooldown before it.

The request is missing in two places. The outer loop ignores a lag report, and in the inner loop
the frame that `recv` replaces (unlike one that `try_recv` replaces) is not counted as dropped.
-/

namespace Rustcast.Host

open Broadcast Sender Trace LogEntry SenderPc FrameResetPolicy

/-! ## The history -/

def LogEntry.completed? : LogEntry → Option Nat
  | .completed frame => some frame.index
  | _ => none

/-- The frame that is lost, and when. -/
def LogEntry.lost? : LogEntry → Option (Nat × Nat)
  | .discarded index time => some (index, time)
  | .reset frame time => some (frame.index, time)
  | _ => none

def LogEntry.issued? : LogEntry → Option Nat
  | .issued time => some time
  | _ => none

def LogEntry.isStarted : LogEntry → Bool
  | .started _ => true
  | _ => false

/-- The entry is not the reset of a keyframe. -/
def LogEntry.keepsIdr : LogEntry → Bool
  | .reset frame _ => !isIdrFrame frame.data
  | _ => true

def completed (log : List LogEntry) : List Nat := log.filterMap LogEntry.completed?

def lost (log : List LogEntry) : List (Nat × Nat) := log.filterMap LogEntry.lost?

def issued (log : List LogEntry) : List Nat := log.filterMap LogEntry.issued?

/-- A request was issued at or after `time`, or less than the cooldown before it. -/
def Recovered (log : List LogEntry) (time : Nat) : Prop :=
  ∃ u ∈ issued log, time < u + frameResetIdrCooldown

def AllRecovered (log : List LogEntry) : Prop := ∀ loss ∈ lost log, Recovered log loss.2

/-- Whenever a frame is started, every loss so far has its request. -/
def StartsRecovered (s : Sender) : Prop :=
  Historically (fun past entry => entry.isStarted = true → AllRecovered past) s.log

/-- The frames in the sender's hand. -/
def SenderPc.held : SenderPc → List Nat
  | .selecting => []
  | .pending frame => [frame.index]
  | .opening frame => [frame.index]
  | .writing send => send.frame.index :: (send.pending.map VideoFrame.index).toList
  | .draining send => send.frame.index :: (send.pending.map VideoFrame.index).toList
  | .superseded frame _ _ => [frame.index]
  | .closed => []

/-- While the connection is up, every frame that was received or missed is accounted for. -/
def Accounted (s : Sender) : Prop :=
  s.pc ≠ .closed → ∀ i < s.rx.next, i ∈ s.pc.held ∨ i ∈ completed s.log ∨ i ∈ (lost s.log).map Prod.fst

/-- No keyframe is ever reset. -/
def IdrKept (s : Sender) : Prop := ∀ entry ∈ s.log, entry.keepsIdr = true

instance (log : List LogEntry) (time : Nat) : Decidable (Recovered log time) :=
  inferInstanceAs (Decidable (∃ u ∈ issued log, _))

instance (log : List LogEntry) : Decidable (AllRecovered log) :=
  inferInstanceAs (Decidable (∀ loss ∈ lost log, _))

instance (s : Sender) : Decidable (StartsRecovered s) :=
  inferInstanceAs (Decidable (Historically _ _))

@[simp] theorem completed_append (a b : List LogEntry) :
    completed (a ++ b) = completed a ++ completed b := List.filterMap_append

@[simp] theorem lost_append (a b : List LogEntry) : lost (a ++ b) = lost a ++ lost b :=
  List.filterMap_append

@[simp] theorem issued_append (a b : List LogEntry) : issued (a ++ b) = issued a ++ issued b :=
  List.filterMap_append

variable (next count time : Nat)

@[simp] theorem lost_lagEntries :
    lost (lagEntries next count time) = (List.range' next count).map fun i => (i, time) := by
  simp [lost, lagEntries, List.filterMap_map, Function.comp_def, lost?]

variable (pending : Option VideoFrame)

@[simp] theorem lost_supersedeEntries (time : Nat) :
    lost (supersedeEntries pending time) = (pending.map fun old => (old.index, time)).toList := by
  cases pending <;> rfl

/-! ## Requests -/

variable {a entries : List LogEntry} {send : Sending}

theorem Recovered.append {time : Nat} (h : Recovered a time) (b : List LogEntry) :
    Recovered (a ++ b) time := by
  obtain ⟨u, hu, hlt⟩ := h
  exact ⟨u, by simp [hu], hlt⟩

variable {b : List LogEntry} {policy : FrameResetPolicy} {pc : SenderPc} {frame : VideoFrame}
  {e : SenderEvent}

theorem AllRecovered.append (h : AllRecovered a) (hb : ∀ loss ∈ lost b, Recovered (a ++ b) loss.2) :
    AllRecovered (a ++ b) := by
  intro loss hloss
  rw [lost_append, List.mem_append] at hloss
  rcases hloss with hold | hnew
  · exact (h loss hold).append b
  · exact hb loss hnew

/-- A request that no loss is a cooldown ahead of recovers everything. -/
theorem allRecovered_of_issued {log : List LogEntry} {u : Nat} (hu : u ∈ issued log)
    (hlosses : ∀ loss ∈ lost log, loss.2 < u + frameResetIdrCooldown) : AllRecovered log :=
  fun loss hloss => ⟨u, hu, hlosses loss hloss⟩

variable {s s' : Sender}

/-- What the clock and the policy say about the history. -/
structure Timed (s : Sender) : Prop where
  requested : ∀ u ∈ s.policy.lastRecovery, u ∈ issued s.log
  past : ∀ loss ∈ lost s.log, loss.2 ≤ s.clock

theorem FrameResetPolicy.lt_of_coolingDown {now : Nat} (h : policy.coolingDown now = true) :
    ∃ last ∈ policy.lastRecovery, now < last + frameResetIdrCooldown := by
  unfold coolingDown at h
  cases hlast : policy.lastRecovery with
  | none =>
    rw [hlast] at h
    cases h
  | some last =>
    rw [hlast] at h
    have hlt : now - last < frameResetIdrCooldown := of_decide_eq_true h
    exact ⟨last, rfl, by omega⟩

theorem FrameResetPolicy.coolingDown_mono {now later : Nat} (hle : now ≤ later)
    (h : policy.coolingDown now = false) : policy.coolingDown later = false := by
  unfold coolingDown at h ⊢
  cases hlast : policy.lastRecovery with
  | none => rfl
  | some last =>
    rw [hlast] at h
    simp only [Option.any_some, decide_eq_false_iff_not] at h ⊢
    omega

/-- While the policy cools down, its last request covers whatever was lost up to now. -/
theorem Timed.allRecovered (h : Timed s) (hcool : s.policy.coolingDown s.clock = true) :
    AllRecovered s.log := by
  obtain ⟨last, hlast, hlt⟩ := lt_of_coolingDown hcool
  apply allRecovered_of_issued (h.requested last hlast)
  intro loss hloss
  have := h.past loss hloss
  omega

theorem Timed.allRecovered_append (h : Timed s) (hcool : s.policy.coolingDown s.clock = true)
    (hnow : ∀ loss ∈ lost entries, loss.2 = s.clock) : AllRecovered (s.log ++ entries) := by
  obtain ⟨last, hlast, hlt⟩ := lt_of_coolingDown hcool
  apply (h.allRecovered hcool).append
  intro loss hloss
  refine ⟨last, by simp [h.requested last hlast], ?_⟩
  rw [hnow loss hloss]
  exact hlt

/-! ## In all runs -/

structure SenderInv (s : Sender) : Prop where
  accounted : Accounted s
  kept : IdrKept s
  timed : Timed s
  /-- Only the stream of a delta frame is drained for, and then a newer frame is pending. -/
  drains : ∀ send, s.pc = .draining send → send.isIdr = false ∧ ∃ frame, send.pending = some frame

/-- The frame is in hand, or the entries say what became of it. -/
def Placed (pc : SenderPc) (entries : List LogEntry) (i : Nat) : Prop :=
  i ∈ pc.held ∨ i ∈ completed entries ∨ i ∈ (lost entries).map Prod.fst

/-- A step that appends `entries`, all of them of the present moment, and places the frames that were in
hand and those that the receiver has moved past. -/
structure Appends (s s' : Sender) (entries : List LogEntry) : Prop where
  log : s'.log = s.log ++ entries
  clock : s'.clock = s.clock
  policy : s'.policy = s.policy ∨ ∃ u ∈ issued entries, s'.policy.lastRecovery = some u
  held : ∀ i ∈ s.pc.held, Placed s'.pc entries i
  moved : ∀ i, s.rx.next ≤ i → i < s'.rx.next → Placed s'.pc entries i
  now : ∀ loss ∈ lost entries, loss.2 = s.clock
  kept : ∀ entry ∈ entries, entry.keepsIdr = true

theorem Accounted.advance (h : Accounted s) (hopen : s.pc ≠ .closed) (ha : Appends s s' entries) :
    Accounted s' := by
  intro _ i hi
  rw [ha.log, completed_append, lost_append, List.map_append, List.mem_append, List.mem_append]
  have hcase : Placed s'.pc entries i → i ∈ s'.pc.held ∨ (i ∈ completed s.log ∨ i ∈ completed entries) ∨
      (i ∈ (lost s.log).map Prod.fst ∨ i ∈ (lost entries).map Prod.fst) := by
    rintro (hh | hc | hl)
    · exact .inl hh
    · exact .inr (.inl (.inr hc))
    · exact .inr (.inr (.inr hl))
  by_cases hold : i < s.rx.next
  · rcases h hopen i hold with hh | hc | hl
    · exact hcase (ha.held i hh)
    · exact .inr (.inl (.inl hc))
    · exact .inr (.inr (.inl hl))
  · exact hcase (ha.moved i (by omega) hi)

theorem accounted_of_closed (hclosed : s.pc = .closed) : Accounted s :=
  absurd hclosed

theorem Timed.append (h : Timed s) (ha : Appends s s' entries) : Timed s' where
  requested := by
    intro u hu
    rw [ha.log, issued_append, List.mem_append]
    rcases ha.policy with heq | ⟨v, hv, heq⟩
    · exact .inl (h.requested u (heq ▸ hu))
    · rw [heq] at hu
      cases hu
      exact .inr hv
  past := by
    intro loss hloss
    rw [ha.clock]
    rw [ha.log, lost_append, List.mem_append] at hloss
    rcases hloss with hold | hnew
    · exact h.past loss hold
    · exact Nat.le_of_eq (ha.now loss hnew)

theorem IdrKept.append (h : IdrKept s) (ha : Appends s s' entries) : IdrKept s' := by
  intro entry hentry
  rw [ha.log, List.mem_append] at hentry
  exact hentry.elim (h entry) (ha.kept entry)

/-- The receiver has not moved. -/
theorem placed_of_still {next : Nat} : ∀ i, next ≤ i → i < next → Placed pc entries i :=
  fun _ hle hlt => absurd hlt (Nat.not_lt.mpr hle)

theorem keepsIdr_lagEntries : ∀ entry ∈ lagEntries next count time, entry.keepsIdr = true := by
  intro entry hentry
  obtain ⟨i, -, rfl⟩ := List.mem_map.mp hentry
  rfl

theorem keepsIdr_supersedeEntries (time : Nat) :
    ∀ entry ∈ supersedeEntries pending time, entry.keepsIdr = true := by
  cases pending <;> simp [supersedeEntries, keepsIdr]

theorem lost_supersedeEntries_now (time : Nat) :
    ∀ loss ∈ lost (supersedeEntries pending time), loss.2 = time := by
  cases pending <;> simp

theorem lost_lagEntries_now : ∀ loss ∈ lost (lagEntries next count time), loss.2 = time := by
  intro loss hloss
  simp only [lost_lagEntries, List.mem_map] at hloss
  obtain ⟨i, -, rfl⟩ := hloss
  rfl

section

variable (h : SenderInv s)

include h

theorem SenderInv.close : SenderInv { s with pc := .closed } where
  accounted := accounted_of_closed rfl
  kept := h.kept
  timed := ⟨h.timed.requested, h.timed.past⟩
  drains := fun _ hpc => nomatch hpc

namespace SenderInv

variable (hopen : s.pc ≠ .closed)

include hopen

theorem advance (ha : Appends s s' entries)
    (hdrains : ∀ send, s'.pc = .draining send → send.isIdr = false ∧ ∃ frame, send.pending = some frame) :
    SenderInv s' where
  accounted := h.accounted.advance hopen ha
  kept := h.kept.append ha
  timed := h.timed.append ha
  drains := hdrains

theorem requestIdr : SenderInv s.requestIdr := by
  rcases requestIdr_cases s with ⟨-, heq⟩ | heq
  · rw [heq]
    exact h
  · rw [heq]
    exact h.advance hopen ⟨rfl, rfl, .inr ⟨_, List.mem_singleton_self _, rfl⟩, fun _ => Or.inl,
      placed_of_still, by simp [lost, lost?], by simp [keepsIdr]⟩ h.drains

/-- The task goes on with the same frames and does nothing that is recorded. -/
theorem goto (hheld : ∀ i ∈ s.pc.held, i ∈ pc.held)
    (hdrains : ∀ send, pc = .draining send → send.isIdr = false ∧ ∃ frame, send.pending = some frame) :
    SenderInv { s with pc } :=
  h.advance hopen ⟨(List.append_nil _).symm, rfl, .inl rfl, fun i hi => .inl (hheld i hi), placed_of_still,
    fun _ hl => (nomatch hl), fun _ he => nomatch he⟩ hdrains

end SenderInv

/-- The call of `send_frame_message`, for a frame in hand or one just received. -/
theorem SenderInv.start (next : Nat) (hopen : s.pc ≠ .closed) (hheld : ∀ i ∈ s.pc.held, i = frame.index)
    (hnew : ∀ i, s.rx.next ≤ i → i < next → i = frame.index) :
    SenderInv ({ s with rx := { s.rx with next } }.start frame) := by
  refine h.advance hopen ⟨rfl, rfl, .inl rfl, fun i hi => ?_, fun i hle hlt => ?_, by simp [lost, lost?],
    by simp [keepsIdr]⟩ fun _ hpc => nomatch hpc
  · exact .inl (List.mem_singleton.mpr (hheld i hi))
  · exact .inl (List.mem_singleton.mpr (hnew i hle hlt))

/-- A lag: what the receiver skips is recorded as lost. -/
theorem SenderInv.lag (hopen : s.pc ≠ .closed) (missed : Nat) (pc : SenderPc)
    (hheld : ∀ i ∈ s.pc.held, i ∈ pc.held)
    (hdrains : ∀ send, pc = .draining send → send.isIdr = false ∧ ∃ frame, send.pending = some frame) :
    SenderInv { s with
      rx := { s.rx with next := s.rx.next + missed }
      log := s.log ++ lagEntries s.rx.next missed s.clock
      pc } := by
  refine h.advance hopen ⟨rfl, rfl, .inl rfl, fun i hi => .inl (hheld i hi), fun i hle hlt => ?_,
    lost_lagEntries_now _ _ _, keepsIdr_lagEntries _ _ _⟩ hdrains
  refine .inr (.inr ?_)
  simp only [lost_lagEntries, List.map_map, List.mem_map, List.mem_range'_1, Function.comp_apply]
  exact ⟨i, ⟨hle, hlt⟩, rfl⟩

/-- A newer frame becomes the pending one, in either of the two inner loops. -/
theorem SenderInv.replacePending (hopen : s.pc ≠ .closed) {next : Sending}
    (hheld : s.pc.held = send.frame.index :: (send.pending.map VideoFrame.index).toList)
    (hframe : next.frame = send.frame) (hpending : next.pending = some frame)
    (hindex : frame.index = s.rx.next) (hdelta : send.isIdr = false) :
    SenderInv { s with
      rx := { s.rx with next := s.rx.next + 1 }
      log := s.log ++ supersedeEntries send.pending s.clock
      pc := .draining next } := by
  have hnext : (draining next).held = [send.frame.index, s.rx.next] := by
    simp [held, hframe, hpending, hindex]
  refine h.advance hopen ⟨rfl, rfl, .inl rfl, fun i hi => ?_, fun i hle hlt => ?_,
    lost_supersedeEntries_now _ _, keepsIdr_supersedeEntries _ _⟩ ?_
  · rw [hheld, List.mem_cons] at hi
    rcases hi with rfl | hi
    · exact .inl (by simp [hnext])
    · refine .inr (.inr ?_)
      cases hold : send.pending with
      | none => simp [hold] at hi
      | some old => simpa [hold, supersedeEntries, lost, lost?] using hi
  · have hlt : i < s.rx.next + 1 := hlt
    have heq : i = s.rx.next := by omega
    exact .inl (by simp [hnext, heq])
  · intro send' hpc
    cases hpc
    exact ⟨by simpa [Sending.isIdr, hframe] using hdelta, frame, hpending⟩

theorem SenderInv.finish (hstep : s.finish = some s') : SenderInv s' := by
  obtain ⟨send, hpc, ⟨hnone, rfl⟩ | ⟨frame, hsome, rfl⟩⟩ := finish_cases hstep
  all_goals
    have hopen : s.pc ≠ .closed := by simp [hpc]
    refine h.advance hopen ⟨rfl, rfl, .inl rfl, fun i hi => ?_, placed_of_still, by simp [lost, lost?],
      by simp [keepsIdr]⟩ (fun _ hpc => nomatch hpc)
    rw [hpc] at hi
  · simp only [held, hnone, Option.map_none, Option.toList_none, List.mem_singleton] at hi
    exact .inr (.inl (by simp [hi, completed, completed?]))
  · simp only [held, hsome, Option.map_some, Option.toList_some, List.mem_cons,
      List.not_mem_nil, or_false] at hi
    rcases hi with rfl | rfl
    · exact .inr (.inl (by simp [completed, completed?]))
    · exact .inl (by simp [held])

theorem SenderInv.drained (hpc : s.pc = .draining send) : SenderInv (s.drained send) := by
  obtain ⟨hdelta, frame, hpending⟩ := h.drains send hpc
  have hopen : s.pc ≠ .closed := by simp [hpc]
  rcases drained_cases s hpending with heq | ⟨-, heq⟩ <;> rw [heq]
  · -- the frame that was being written is the one that is lost
    have hlog : s.log ++ [reset send.frame s.clock] ++ [.issued s.clock] =
        s.log ++ [.reset send.frame s.clock, .issued s.clock] := by simp
    refine h.advance hopen ⟨hlog, rfl, .inr ⟨s.clock, by simp [issued, issued?], rfl⟩, fun i hi => ?_,
      placed_of_still, by simp [lost, lost?], ?_⟩ (fun _ hpc => nomatch hpc)
    · simp only [hpc, held, hpending, Option.map_some, Option.toList_some, List.mem_cons,
        List.not_mem_nil, or_false] at hi
      rcases hi with rfl | rfl
      · exact .inr (.inr (by simp [lost, lost?]))
      · exact .inl (by simp [held])
    · have hdata : isIdrFrame send.frame.data = false := hdelta
      simp [keepsIdr, hdata]
  · exact h.goto hopen (by rw [hpc]; exact fun i hi => hi) (fun _ hpc => nomatch hpc)

theorem senderInv_step (hstep : s.step e = some s') : SenderInv s' := by
  cases e with
  | tick elapsed =>
    cases hstep
    refine ⟨h.accounted, h.kept, ⟨h.timed.requested, fun loss hloss => ?_⟩, h.drains⟩
    exact Nat.le_trans (h.timed.past loss hloss) (Nat.le_add_right _ _)
  | broadcast ts data | close =>
    cases hstep
    exact ⟨h.accounted, h.kept, ⟨h.timed.requested, h.timed.past⟩, h.drains⟩
  | recv =>
    obtain ⟨hpc, ⟨value, rfl⟩ | ⟨-, missed, rfl⟩ | rfl⟩ := recv_cases hstep
    · apply h.start (s.rx.next + 1) (by simp [hpc])
      · simp [hpc, held]
      · intro i hle hlt
        show i = s.rx.next
        omega
    · exact h.lag (by simp [hpc]) missed s.pc (fun i hi => hi) h.drains
    · exact h.close
  | message sent =>
    rcases message_cases hstep with rfl | rfl
    · exact h
    · exact h.close
  | resume =>
    obtain ⟨frame, hpc, rfl⟩ := resume_cases hstep
    exact h.start s.rx.next (by simp [hpc]) (by simp [hpc, held])
      (fun i hle hlt => absurd hlt (Nat.not_lt.mpr hle))
  | settle =>
    obtain ⟨frame, needs, requested, hpc, hcase⟩ := settle_cases hstep
    have hmoved : SenderInv { s with pc := .pending frame } :=
      h.goto (by simp [hpc]) (by rw [hpc]; exact fun i hi => hi) (fun _ hpc => nomatch hpc)
    rcases hcase with ⟨-, rfl⟩ | ⟨-, rfl⟩
    · exact hmoved.requestIdr (by simp)
    · exact hmoved
  | openStream ok =>
    obtain ⟨frame, hpc, rfl | rfl⟩ := openStream_cases hstep
    · exact h.goto (by simp [hpc]) (by rw [hpc]; exact fun i hi => hi) (fun _ hpc => nomatch hpc)
    · exact h.close
  | write result =>
    obtain ⟨send, hpc, ⟨offset, rfl⟩ | rfl⟩ := write_cases hstep
    · exact h.goto (by simp [hpc]) (by rw [hpc]; exact fun i hi => hi) (fun _ hpc => nomatch hpc)
    · exact h.close
  | innerRecv =>
    obtain ⟨send, hpc, hdelta, ⟨-, value, rfl⟩ | ⟨missed, rfl⟩ | rfl⟩ := innerRecv_cases hstep
    · exact h.replacePending (by simp [hpc]) (by rw [hpc]; rfl) rfl rfl rfl hdelta
    · have hlag := h.lag (by simp [hpc]) missed
        (.writing { send with backlog := send.backlog + missed, droppedFrames := true })
        (by rw [hpc]; exact fun i hi => hi) (fun _ hpc => nomatch hpc)
      exact hlag.requestIdr (by simp)
    · exact h.close
  | tryRecv =>
    obtain ⟨send, hpc, ⟨value, rfl⟩ | ⟨missed, rfl⟩ | rfl | rfl⟩ := tryRecv_cases hstep
    · exact h.replacePending (by simp [hpc]) (by rw [hpc]; rfl) rfl rfl rfl (h.drains send hpc).1
    · refine h.lag (by simp [hpc]) missed _ (by rw [hpc]; exact fun i hi => hi) ?_
      intro send' hpc'
      cases hpc'
      exact h.drains send hpc
    · exact h.close
    · exact h.drained hpc
  | finish => exact h.finish hstep

end

theorem senderInv_new (capacity : Nat) : SenderInv (new capacity) where
  accounted := fun _ _ hi => nomatch hi
  kept := fun _ he => nomatch he
  timed := ⟨fun _ hu => (nomatch hu), fun _ hl => nomatch hl⟩
  drains := fun _ hpc => nomatch hpc

/-! ## Recovery -/

/-- Every loss is recovered, or something further on in the code still will request. -/
def Covered (s : Sender) : Prop :=
  match s.pc with
  | .writing send => AllRecovered s.log ∨ (send.droppedFrames = true ∧ send.pending ≠ none)
  | .draining send => AllRecovered s.log ∨ send.droppedFrames = true ∨
    (frameResetBacklogThreshold ≤ send.backlog ∧ s.policy.coolingDown s.clock = false)
  | .superseded _ needsRecovery recoveryRequested =>
    AllRecovered s.log ∨ (needsRecovery = true ∧ recoveryRequested = false)
  | .closed => True
  | _ => AllRecovered s.log

structure LossInv (s : Sender) : Prop where
  starts : StartsRecovered s
  covered : Covered s

/-- The condition on a step. A lag is reported to the outer loop only during the cooldown. In
the inner loop `recv` replaces a pending frame only during the cooldown, or after a frame was
counted as dropped, or at a backlog at which the stream is then reset. -/
def LossSafe (s : Sender) : SenderEvent → Prop
  | .recv => s.rx.behind = true → s.policy.coolingDown s.clock = true
  | .innerRecv =>
    match s.pc with
    | .writing send => s.rx.behind = false → send.pending ≠ none →
      s.policy.coolingDown s.clock = true ∨ send.droppedFrames = true ∨
        frameResetBacklogThreshold ≤ send.backlog + 1
    | _ => True
  | _ => True

theorem StartsRecovered.append (h : StartsRecovered s) (hlog : s'.log = s.log ++ entries)
    (hentries : ∀ e ∈ entries, e.isStarted = false) : StartsRecovered s' := by
  show Historically _ s'.log
  rw [hlog]
  apply Historically.append h
  intro e he past hstarted
  rw [hentries e he] at hstarted
  cases hstarted

theorem AllRecovered.quiet (h : AllRecovered a) (hb : lost b = []) : AllRecovered (a ++ b) :=
  h.append (by simp [hb])

/-- After `should_request_idr` everything is recovered, whether it said yes or no. -/
theorem Timed.allRecovered_requestIdr (h : Timed s) : AllRecovered s.requestIdr.log := by
  rcases requestIdr_cases s with ⟨hcool, heq⟩ | heq <;> rw [heq]
  · exact h.allRecovered hcool
  · apply allRecovered_of_issued (u := s.clock)
    · simp [issued, issued?]
    · intro loss hloss
      have hold : loss ∈ lost s.log := by simpa [lost, lost?] using hloss
      have := h.past loss hold
      simp only [frameResetIdrCooldown]
      omega

theorem isStarted_lagEntries : ∀ e ∈ lagEntries next count time, e.isStarted = false := by
  intro e he
  obtain ⟨i, -, rfl⟩ := List.mem_map.mp he
  rfl

theorem isStarted_supersedeEntries (time : Nat) :
    ∀ e ∈ supersedeEntries pending time, e.isStarted = false := by
  cases pending <;> simp [supersedeEntries, isStarted]

theorem requestIdr_starts (h : StartsRecovered s) : StartsRecovered s.requestIdr := by
  rcases requestIdr_cases s with ⟨-, heq⟩ | heq <;> rw [heq]
  · exact h
  · exact h.append rfl (by simp [isStarted])

/-- Where a frame is started, everything is recovered. -/
theorem LossInv.start (h : LossInv s) (hall : AllRecovered s.log) (rx : Receiver (Nat × List UInt8))
    (frame : VideoFrame) : LossInv ({ s with rx }.start frame) where
  starts := historically_concat.mpr ⟨h.starts, fun _ => hall⟩
  covered := hall.quiet rfl

theorem LossInv.recv (h : LossInv s) (ht : Timed s) (hsafe : LossSafe s .recv)
    (hstep : s.recv = some s') : LossInv s' := by
  have hcovered := h.covered
  obtain ⟨hpc, ⟨value, rfl⟩ | ⟨hbehind, missed, rfl⟩ | rfl⟩ := recv_cases hstep
  · rw [Covered, hpc] at hcovered
    exact h.start hcovered _ _
  · refine ⟨h.starts.append rfl (isStarted_lagEntries _ _ _), ?_⟩
    simp only [Covered, hpc]
    exact ht.allRecovered_append (hsafe hbehind) (lost_lagEntries_now _ _ _)
  · exact ⟨h.starts, trivial⟩

section

variable (h : LossInv s)

include h

theorem LossInv.innerRecv (hi : SenderInv s) (hsafe : LossSafe s .innerRecv) (hstep : s.innerRecv = some s') :
    LossInv s' := by
  have hcovered := h.covered
  have hsafe' := hsafe
  obtain ⟨send, hpc, -, ⟨hbehind, value, rfl⟩ | ⟨missed, rfl⟩ | rfl⟩ := innerRecv_cases hstep
  · refine ⟨h.starts.append rfl (isStarted_supersedeEntries _ _), ?_⟩
    simp only [Covered, hpc] at hcovered ⊢
    simp only [LossSafe, hpc] at hsafe'
    rcases hcovered with hall | ⟨hdropped, -⟩
    swap
    · exact .inr (.inl hdropped)
    cases hpending : send.pending with
    | none => exact .inl (by simpa [supersedeEntries] using hall)
    | some old =>
      -- the old frame is lost now: during the cooldown, or with a reset or a request to come
      cases hcool : s.policy.coolingDown s.clock with
      | true => exact .inl (hi.timed.allRecovered_append hcool (lost_supersedeEntries_now _ _))
      | false =>
        rcases hsafe' hbehind (by simp [hpending]) with hc | hdropped | hbacklog
        · rw [hcool] at hc
          cases hc
        · exact .inr (.inl hdropped)
        · exact .inr (.inr ⟨hbacklog, rfl⟩)
  · -- a lag in the inner loop requests at once
    have hlag := hi.lag (by simp [hpc]) missed
      (.writing { send with backlog := send.backlog + missed, droppedFrames := true })
      (by rw [hpc]; exact fun i hi => hi) (by simp)
    constructor
    · exact requestIdr_starts (h.starts.append rfl (isStarted_lagEntries _ _ _))
    · simp only [Covered, requestIdr_pc]
      exact .inl hlag.timed.allRecovered_requestIdr
  · exact ⟨h.starts, trivial⟩

theorem LossInv.drained (hi : SenderInv s) (hpc : s.pc = .draining send) : LossInv (s.drained send) := by
  have hcovered := h.covered
  simp only [Covered, hpc] at hcovered
  obtain ⟨-, frame, hpending⟩ := hi.drains send hpc
  rcases drained_cases s hpending with heq | ⟨hwhy, heq⟩
  · have hreset := hi.drained hpc
    rw [heq] at hreset ⊢
    constructor
    · have hfirst : StartsRecovered (s.record (.reset send.frame s.clock)) :=
        h.starts.append rfl (by simp [isStarted])
      exact hfirst.append rfl (by simp [isStarted])
    · refine .inl (allRecovered_of_issued (u := s.clock) (by simp [issued, issued?]) ?_)
      intro loss hloss
      have hpast : loss.2 ≤ s.clock := hreset.timed.past loss hloss
      simp only [frameResetIdrCooldown]
      omega
  · rw [heq]
    refine ⟨h.starts, ?_⟩
    rcases hcovered with hall | hdropped | ⟨hbacklog, hcool⟩
    · exact .inl hall
    · exact .inr ⟨hdropped, by simp [hpending]⟩
    · -- a backlog outside the cooldown would have been a reset
      rcases hwhy with hlt | hc
      · omega
      · rw [hcool] at hc
        cases hc

theorem LossInv.tryRecv (hi : SenderInv s) (hstep : s.tryRecv = some s') : LossInv s' := by
  obtain ⟨send, hpc, ⟨value, rfl⟩ | ⟨missed, rfl⟩ | rfl | rfl⟩ := tryRecv_cases hstep
  · exact ⟨h.starts.append rfl (isStarted_supersedeEntries _ _), .inr (.inl rfl)⟩
  · exact ⟨h.starts.append rfl (isStarted_lagEntries _ _ _), .inr (.inl rfl)⟩
  · exact ⟨h.starts, trivial⟩
  · exact h.drained hi hpc

theorem LossInv.finish (hstep : s.finish = some s') : LossInv s' := by
  have hcovered := h.covered
  obtain ⟨send, hpc, ⟨hnone, rfl⟩ | ⟨frame, hsome, rfl⟩⟩ := finish_cases hstep
  all_goals
    refine ⟨h.starts.append rfl (by simp [isStarted]), ?_⟩
    simp only [Covered, hpc] at hcovered
  · rcases hcovered with hall | ⟨-, hpending⟩
    · exact hall.quiet (by simp [lost, lost?])
    · exact absurd hnone hpending
  · rcases hcovered with hall | ⟨hdropped, -⟩
    · exact .inl (hall.quiet (by simp [lost, lost?]))
    · exact .inr ⟨hdropped, rfl⟩

theorem LossInv.settle (ht : Timed s) (hstep : s.settle = some s') : LossInv s' := by
  have hcovered := h.covered
  obtain ⟨frame, needs, requested, hpc, hcase⟩ := settle_cases hstep
  simp only [Covered, hpc] at hcovered
  rcases hcase with ⟨-, rfl⟩ | ⟨hneeds, rfl⟩
  · have ht' : Timed { s with pc := .pending frame } := ⟨ht.requested, ht.past⟩
    refine ⟨requestIdr_starts h.starts, ?_⟩
    simp only [Covered, requestIdr_pc]
    exact ht'.allRecovered_requestIdr
  · refine ⟨h.starts, ?_⟩
    rcases hcovered with hall | ⟨hn, hr⟩
    · exact hall
    · simp [hn, hr] at hneeds

theorem LossInv.tick (elapsed : Nat) : LossInv { s with clock := s.clock + elapsed } := by
  refine ⟨h.starts, ?_⟩
  have hcovered := h.covered
  cases hpc : s.pc with
  | draining send =>
    simp only [Covered, hpc] at hcovered ⊢
    rcases hcovered with hall | hdropped | ⟨hbacklog, hcool⟩
    · exact .inl hall
    · exact .inr (.inl hdropped)
    · exact .inr (.inr ⟨hbacklog, coolingDown_mono (Nat.le_add_right _ _) hcool⟩)
  | closed => simp only [Covered]
  | selecting | pending _ | opening _ | writing _ | superseded _ _ _ =>
    simp only [Covered, hpc] at hcovered ⊢
    exact hcovered

theorem lossInv_step (hi : SenderInv s) (hsafe : LossSafe s e) (hstep : s.step e = some s') : LossInv s' := by
  have hcovered := h.covered
  cases e with
  | tick elapsed =>
    cases hstep
    exact h.tick elapsed
  | broadcast ts data | close =>
    cases hstep
    exact ⟨h.starts, h.covered⟩
  | recv => exact h.recv hi.timed hsafe hstep
  | message sent =>
    rcases message_cases hstep with rfl | rfl
    · exact h
    · exact ⟨h.starts, trivial⟩
  | resume =>
    obtain ⟨frame, hpc, rfl⟩ := resume_cases hstep
    simp only [Covered, hpc] at hcovered
    exact h.start hcovered s.rx frame
  | settle => exact h.settle hi.timed hstep
  | openStream ok =>
    obtain ⟨frame, hpc, rfl | rfl⟩ := openStream_cases hstep
    · simp only [Covered, hpc] at hcovered
      exact ⟨h.starts, .inl hcovered⟩
    · exact ⟨h.starts, trivial⟩
  | write result =>
    obtain ⟨send, hpc, ⟨offset, rfl⟩ | rfl⟩ := write_cases hstep
    · simp only [Covered, hpc] at hcovered
      exact ⟨h.starts, hcovered⟩
    · exact ⟨h.starts, trivial⟩
  | innerRecv => exact h.innerRecv hi hsafe hstep
  | tryRecv => exact h.tryRecv hi hstep
  | finish => exact h.finish hstep

end

theorem lossInv_new (capacity : Nat) : LossInv (new capacity) :=
  ⟨historically_nil, fun _ hl => nomatch hl⟩

/-! ## Runs -/

/-- In every run whose steps meet `LossSafe`, for a broadcast channel of any capacity: every
frame is sent, lost or in hand, no keyframe is reset, and when a frame is started every loss
so far has its IDR request. -/
theorem losses_recovered (capacity : Nat) (events : List SenderEvent)
    (hsafe : Lts.Along step LossSafe (new capacity) events) :
    Lts.Throughout step (fun s => StartsRecovered s ∧ Accounted s ∧ IdrKept s)
      (new capacity) events := by
  have hinv : Lts.Throughout step (fun s => SenderInv s ∧ LossInv s) (new capacity) events := by
    refine Lts.throughout_of_along ?_ ⟨senderInv_new capacity, lossInv_new capacity⟩ hsafe
    intro s e s' ⟨hi, h⟩ hsafe hstep
    exact ⟨senderInv_step hi hstep, lossInv_step h hi hsafe hstep⟩
  exact hinv.mono fun s h => ⟨h.2.starts, h.1.accounted, h.1.kept⟩

/-! ## Where no request is made -/

def keyData : List UInt8 := [0, 0, 0, 1, 0x65]

def deltaData : List UInt8 := [0, 0, 0, 1, 0x41]

/-- While a keyframe is written, one frame more than the channel keeps is broadcast. -/
def lagRun : List SenderEvent :=
  [.broadcast 0 keyData, .recv, .openStream true] ++ List.replicate 9 (.broadcast 0 deltaData) ++
  [.write (some 5), .finish, .recv, .recv]

/-- While a delta frame is written, two more frames arrive, one after the other. -/
def supersedeRun : List SenderEvent :=
  [.broadcast 0 deltaData, .recv, .openStream true, .broadcast 0 deltaData, .innerRecv, .tryRecv,
    .broadcast 0 deltaData, .innerRecv, .tryRecv, .write (some 5), .finish, .settle, .resume]

instance (s : Sender) (e : SenderEvent) : Decidable (LossSafe s e) := by
  unfold LossSafe
  split
  · infer_instance
  · split <;> infer_instance
  · infer_instance

/-- The sender starts a frame behind a loss for which no IDR frame was requested: after a lag
in the outer loop, and after `recv` replaced a pending frame. -/
theorem sender_skips_recovery :
    (¬∀ capacity events, Lts.Throughout step
        (fun s => StartsRecovered s ∧ Accounted s ∧ IdrKept s) (new capacity) events) ∧
      ¬Lts.Throughout step StartsRecovered (new 8) lagRun ∧
      ¬Lts.Throughout step StartsRecovered (new 8) supersedeRun := by
  have hlag : ¬Lts.Throughout step StartsRecovered (new 8) lagRun :=
    Lts.not_throughout_of_last (by decide +kernel)
  have hsupersede : ¬Lts.Throughout step StartsRecovered (new 8) supersedeRun :=
    Lts.not_throughout_of_last (by decide +kernel)
  exact ⟨fun h => hlag ((h 8 lagRun).mono fun _ hs => hs.1), hlag, hsupersede⟩

/-- A run that meets the condition and loses two frames: one is replaced by `try_recv`, and a
stream is reset once the cooldown is over. -/
def recoveredRun : List SenderEvent :=
  [.broadcast 0 deltaData, .recv, .openStream true, .broadcast 0 deltaData, .broadcast 0 deltaData,
    .innerRecv, .tryRecv, .tryRecv, .write (some 5), .finish, .settle, .resume, .openStream true,
    .tick frameResetIdrCooldown] ++ List.replicate 3 (.broadcast 0 deltaData) ++
  [.innerRecv, .tryRecv, .tryRecv, .tryRecv, .settle, .resume]

theorem losses_recovered_recoveredRun :
    Lts.Along step LossSafe (new 8) recoveredRun ∧
      (Lts.run step (new 8) recoveredRun).map
        (fun s => (lost s.log, issued s.log)) =
        some ([(1, 0), (3, frameResetIdrCooldown), (4, frameResetIdrCooldown),
          (2, frameResetIdrCooldown)], [0, frameResetIdrCooldown]) ∧
      Lts.Throughout step (fun s => StartsRecovered s ∧ Accounted s ∧ IdrKept s)
        (new 8) recoveredRun := by
  have hsafe : Lts.Along step LossSafe (new 8) recoveredRun := by decide +kernel
  exact ⟨hsafe, by decide +kernel, losses_recovered 8 recoveredRun hsafe⟩

end Rustcast.Host
