import Rustcast.Host.QuicFrames

/-!
# What each step of the host's sender can do

One inversion lemma for each step of the sender, with the receiver's results already
resolved: where the task was, and the state it leaves. The invariants of the sender are
proved from these and do not unfold the steps again.
-/

namespace Rustcast.Host

open Broadcast Sender

variable {s s' : Sender}

def lagEntries (next count time : Nat) : List LogEntry :=
  (List.range' next count).map fun i => .discarded i time

def supersedeEntries (pending : Option VideoFrame) (time : Nat) : List LogEntry :=
  (pending.map fun old => .discarded old.index time).toList

theorem supersede_eq (s : Sender) (pending : Option VideoFrame) :
    s.supersede pending = { s with log := s.log ++ supersedeEntries pending s.clock } := by
  cases pending with
  | none => simp [supersede, supersedeEntries]
  | some old => rfl

/-! ## The outer loop -/

/-- A frame is started, a lag is skipped without a request, or the task ends. -/
theorem recv_cases (h : s.recv = some s') : s.pc = .selecting ∧
    ((∃ value, s' = { s with rx := { s.rx with next := s.rx.next + 1 } }.start
        (s.received value)) ∨
      (s.rx.behind = true ∧ ∃ missed, s' = { s with
        rx := { s.rx with next := s.rx.next + missed }
        log := s.log ++ lagEntries s.rx.next missed s.clock }) ∨
      s' = { s with pc := .closed }) := by
  unfold Sender.recv at h
  split at h
  next hpc =>
    refine ⟨hpc, ?_⟩
    split at h
    next value rx hrecv =>
      obtain ⟨-, rfl⟩ := Receiver.recv_ok hrecv
      exact .inl ⟨value, (Option.some.inj h).symm⟩
    next missed rx hrecv =>
      obtain ⟨hbehind, rfl⟩ := Receiver.recv_lagged hrecv
      exact .inr (.inl ⟨hbehind, missed, (Option.some.inj h).symm⟩)
    · exact .inr (.inr (Option.some.inj h).symm)
    · cases h
  · cases h

theorem message_cases {sent : Bool} (h : s.message sent = some s') :
    s' = s ∨ s' = { s with pc := .closed } := by
  unfold message at h
  split at h
  · cases sent with
    | true => exact .inl (Option.some.inj h).symm
    | false => exact .inr (Option.some.inj h).symm
  · cases h

theorem resume_cases (h : s.resume = some s') : ∃ frame, s.pc = .pending frame ∧ s' = s.start frame := by
  unfold resume at h
  split at h
  next frame hpc =>
    exact ⟨frame, hpc, (Option.some.inj h).symm⟩
  · cases h

/-- A request is made for a frame that was replaced, unless one has been. -/
theorem settle_cases (h : s.settle = some s') :
    ∃ frame needs requested, s.pc = .superseded frame needs requested ∧
      (((needs && !requested) = true ∧ s' = { s with pc := .pending frame }.requestIdr) ∨
        ((needs && !requested) = false ∧ s' = { s with pc := .pending frame })) := by
  unfold settle at h
  split at h
  next frame needs requested hpc =>
    refine ⟨frame, needs, requested, hpc, ?_⟩
    cases hneeds : needs && !requested with
    | true =>
      rw [hneeds] at h
      exact .inl ⟨rfl, (Option.some.inj h).symm⟩
    | false =>
      rw [hneeds] at h
      exact .inr ⟨rfl, (Option.some.inj h).symm⟩
  · cases h

/-! ## `send_frame_message` -/

theorem openStream_cases {ok : Bool} (h : s.openStream ok = some s') :
    ∃ frame, s.pc = .opening frame ∧
      (s' = { s with pc := .writing { frame } } ∨ s' = { s with pc := .closed }) := by
  unfold openStream at h
  split at h
  next frame hpc =>
    refine ⟨frame, hpc, ?_⟩
    cases ok with
    | true => exact .inl (Option.some.inj h).symm
    | false => exact .inr (Option.some.inj h).symm
  · cases h

theorem write_cases {result : Option Nat} (h : s.write result = some s') :
    ∃ send, s.pc = .writing send ∧
      ((∃ offset, s' = { s with pc := .writing { send with offset } }) ∨
        s' = { s with pc := .closed }) := by
  unfold write at h
  split at h
  next send hpc =>
    refine ⟨send, hpc, ?_⟩
    split at h
    · split at h
      · exact .inr (Option.some.inj h).symm
      · exact .inr (Option.some.inj h).symm
      · exact .inl ⟨_, (Option.some.inj h).symm⟩
    · cases h
  · cases h

/-- A newer frame takes the place of the pending one, or a lag is counted. -/
theorem innerRecv_cases (h : s.innerRecv = some s') :
    ∃ send, s.pc = .writing send ∧ send.isIdr = false ∧
      ((s.rx.behind = false ∧ ∃ value, s' = { s with
          rx := { s.rx with next := s.rx.next + 1 }
          log := s.log ++ supersedeEntries send.pending s.clock
          pc := .draining { send with
            pending := some (s.received value), backlog := send.backlog + 1 } }) ∨
        (∃ missed, s' = { s with
          rx := { s.rx with next := s.rx.next + missed }
          log := s.log ++ lagEntries s.rx.next missed s.clock
          pc := .writing { send with
            backlog := send.backlog + missed, droppedFrames := true } }.requestIdr) ∨
        s' = { s with pc := .closed }) := by
  unfold innerRecv at h
  split at h
  next send hpc =>
    refine ⟨send, hpc, ?_⟩
    split at h
    next hdelta =>
      refine ⟨hdelta.2, ?_⟩
      split at h
      next value rx hrecv =>
        obtain ⟨hbehind, rfl⟩ := Receiver.recv_ok hrecv
        rw [supersede_eq] at h
        exact .inl ⟨hbehind, value, (Option.some.inj h).symm⟩
      next missed rx hrecv =>
        obtain ⟨-, rfl⟩ := Receiver.recv_lagged hrecv
        exact .inr (.inl ⟨missed, (Option.some.inj h).symm⟩)
      · exact .inr (.inr (Option.some.inj h).symm)
      · cases h
    · cases h
  · cases h

/-- The same without waiting; an empty channel ends the draining. -/
theorem tryRecv_cases (h : s.tryRecv = some s') :
    ∃ send, s.pc = .draining send ∧
      ((∃ value, s' = { s with
          rx := { s.rx with next := s.rx.next + 1 }
          log := s.log ++ supersedeEntries send.pending s.clock
          pc := .draining { send with
            pending := some (s.received value)
            backlog := send.backlog + 1
            droppedFrames := true } }) ∨
        (∃ missed, s' = { s with
          rx := { s.rx with next := s.rx.next + missed }
          log := s.log ++ lagEntries s.rx.next missed s.clock
          pc := .draining { send with
            backlog := send.backlog + missed, droppedFrames := true } }) ∨
        s' = { s with pc := .closed } ∨ s' = s.drained send) := by
  unfold tryRecv at h
  split at h
  next send hpc =>
    refine ⟨send, hpc, ?_⟩
    split at h
    next value rx hrecv =>
      obtain ⟨-, rfl⟩ := Receiver.recv_ok hrecv
      rw [supersede_eq] at h
      exact .inl ⟨value, (Option.some.inj h).symm⟩
    next missed rx hrecv =>
      obtain ⟨-, rfl⟩ := Receiver.recv_lagged hrecv
      exact .inr (.inl ⟨missed, (Option.some.inj h).symm⟩)
    · exact .inr (.inr (.inl (Option.some.inj h).symm))
    · exact .inr (.inr (.inr (Option.some.inj h).symm))
  · cases h

/-- Behind the drain the stream is reset, which needs a backlog outside the cooldown, or
written on. -/
theorem drained_cases (s : Sender) {send : Sending} {frame : VideoFrame}
    (hpending : send.pending = some frame) :
    s.drained send = { s with
        policy := { lastRecovery := some s.clock }
        pc := .superseded frame true true
        log := s.log ++ [.reset send.frame s.clock] ++ [.issued s.clock] } ∨
      ((send.backlog < frameResetBacklogThreshold ∨ s.policy.coolingDown s.clock = true) ∧
        s.drained send = { s with pc := .writing send }) := by
  unfold drained FrameResetPolicy.shouldReset
  by_cases hbacklog : send.backlog < frameResetBacklogThreshold
  · simp [hbacklog]
  · cases hcool : s.policy.coolingDown s.clock with
    | true =>
      simp
    | false =>
      simp [hbacklog, hpending, record]

theorem finish_cases (h : s.finish = some s') :
    ∃ send, s.pc = .writing send ∧
      ((send.pending = none ∧ s' = { s with
          pc := .selecting, log := s.log ++ [.completed send.frame] }) ∨
        ∃ frame, send.pending = some frame ∧ s' = { s with
          pc := .superseded frame send.droppedFrames false
          log := s.log ++ [.completed send.frame] }) := by
  unfold finish at h
  split at h
  next send hpc =>
    refine ⟨send, hpc, ?_⟩
    split at h
    · cases h
    · cases hpending : send.pending with
      | none =>
        rw [hpending] at h
        exact .inl ⟨rfl, (Option.some.inj h).symm⟩
      | some frame =>
        rw [hpending] at h
        exact .inr ⟨frame, rfl, (Option.some.inj h).symm⟩
  · cases h

theorem requestIdr_cases (s : Sender) :
    (s.policy.coolingDown s.clock = true ∧ s.requestIdr = s) ∨
      s.requestIdr = { s with
        policy := { lastRecovery := some s.clock }, log := s.log ++ [.issued s.clock] } := by
  unfold requestIdr FrameResetPolicy.shouldRequestIdr
  cases hcool : s.policy.coolingDown s.clock with
  | true => exact .inl ⟨rfl, by simp⟩
  | false => exact .inr (by simp [record])

@[simp] theorem requestIdr_pc (s : Sender) : s.requestIdr.pc = s.pc := by
  rcases requestIdr_cases s with ⟨-, heq⟩ | heq <;> rw [heq]

end Rustcast.Host
