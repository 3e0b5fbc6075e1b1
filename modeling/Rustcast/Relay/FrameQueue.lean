import Rustcast.Relay.FrameBuffers

/-!
# The queue of frames and its lock

`queueFrame` and `stop` hold `frameQueueMu` while they work on the channel; the pusher takes frames out of
it at any time. `Control` is about the queue, the reader and `stop` only, and needs to know of a step what
it does to these (`Turn`).
-/

namespace Rustcast.Relay.FrameBuffers

open FrameBuffers.System Reader

/-! ## The queue and its lock -/

/-- The reader has found `stopChan` open and has not sent its frame yet. -/
def Reader.committed : Reader → Bool
  | .sending _ | .full _ | .evicting _ _ | .resending _ => true
  | _ => false

/-- The reader has looked for a frame to evict. -/
def Reader.evicted : Reader → Bool
  | .evicting _ _ | .resending _ => true
  | _ => false

structure Control (chan : List Frame) (reader : Reader) (stopper : Stopper) : Prop where
  chan_le : chan.length ≤ frameCapacity
  room : reader.evicted = true → chan.length < frameCapacity
  exclusive : reader.holdsLock = true → stopper.holdsLock = false
  drained : stopper = .done → chan = [] ∧ reader.committed = false

section

variable {chan rest : List Frame} {reader reader' : Reader} {stopper : Stopper} {frame : Frame}

theorem Control.outside (h : Control chan reader stopper) (hlock : reader'.holdsLock = false)
    (hcommitted : reader'.committed = false) (hevicted : reader'.evicted = false) :
    Control chan reader' stopper where
  chan_le := h.chan_le
  room hroom := by
    rw [hevicted] at hroom
    cases hroom
  exclusive hholds := by
    rw [hlock] at hholds
    cases hholds
  drained hdone := ⟨(h.drained hdone).1, hcommitted⟩

theorem Control.taken (h : Control (frame :: rest) reader stopper) : Control rest reader stopper where
  chan_le := Nat.le_of_succ_le h.chan_le
  room hroom := Nat.lt_of_succ_lt (h.room hroom)
  exclusive := h.exclusive
  drained hdone := by
    have hnil := (h.drained hdone).1
    cases hnil

/-- A frame for which there is room goes into the channel. -/
theorem Control.sent (h : Control chan reader stopper) (hcommitted : reader.committed = true)
    (hroom : chan.length < frameCapacity) : Control (chan ++ [frame]) .idle stopper where
  chan_le := by
    rw [List.length_append]
    exact hroom
  room hevicted := by cases hevicted
  exclusive hholds := by cases hholds
  drained hdone := by
    rw [(h.drained hdone).2] at hcommitted
    cases hcommitted

/-- The reader goes on under the lock. -/
theorem Control.goesOn (h : Control chan reader stopper) (hholds : reader.holdsLock = true)
    (hcommitted : reader'.committed = true → stopper = .done → reader.committed = true)
    (hroom : reader'.evicted = true → chan.length < frameCapacity) : Control chan reader' stopper where
  chan_le := h.chan_le
  room := hroom
  exclusive _ := h.exclusive hholds
  drained hdone := by
    refine ⟨(h.drained hdone).1, Bool.eq_false_iff.mpr fun hnew => ?_⟩
    have hold := hcommitted hnew hdone
    rw [(h.drained hdone).2] at hold
    cases hold

end

def System.Controlled (s : System) : Prop := Control s.frameChan s.reader s.stopper

section

variable {s s' : System}

theorem controlled_queueFrame (h : s.Controlled) (hstep : s.queueFrame = some s') : s'.Controlled := by
  unfold Controlled at h
  unfold queueFrame at hstep
  split at hstep
  next frame hreader =>
    obtain ⟨hfree, hstep⟩ := Option.ite_none_right_eq_some.mp hstep
    cases hstep
    rw [lockFree, Bool.and_eq_true, Bool.not_eq_true', Bool.not_eq_true'] at hfree
    exact ⟨h.chan_le, fun hevicted => (by cases hevicted), fun _ => hfree.2,
      fun hdone => ⟨(h.drained hdone).1, rfl⟩⟩
  next frame hreader =>
    rw [hreader] at h
    split at hstep
    · cases hstep
      exact h.outside rfl rfl rfl
    next hopen =>
      cases hstep
      refine h.goesOn rfl (fun _ hdone => absurd ?_ hopen) fun hevicted => (by cases hevicted)
      rw [stopped, hdone]
      rfl
  next frame hreader =>
    rw [hreader] at h
    split at hstep
    next hroom =>
      cases hstep
      exact h.sent rfl (of_decide_eq_true hroom)
    · cases hstep
      exact h.goesOn rfl (fun _ _ => rfl) fun hevicted => (by cases hevicted)
  next frame hreader =>
    rw [hreader] at h
    split at hstep
    next old rest hchan =>
      cases hstep
      rw [hchan] at h
      exact h.taken.goesOn rfl (fun _ _ => rfl) fun _ => h.chan_le
    next hchan =>
      cases hstep
      refine h.goesOn rfl (fun _ _ => rfl) fun _ => ?_
      rw [hchan]
      decide
  next frame old hreader =>
    rw [hreader] at h
    cases hstep
    exact h.goesOn rfl (fun _ _ => rfl) fun _ => h.room rfl
  next frame hreader =>
    rw [hreader] at h
    obtain ⟨hroom, hstep⟩ := Option.ite_none_right_eq_some.mp hstep
    cases hstep
    exact h.sent rfl (of_decide_eq_true hroom)
  · cases hstep

theorem controlled_stop (h : s.Controlled) (hstep : s.stop = some s') : s'.Controlled := by
  unfold Controlled at h
  unfold stop at hstep
  split at hstep
  next hstopper =>
    cases hstep
    exact ⟨h.chan_le, h.room, fun _ => rfl, fun hdone => (by cases hdone)⟩
  next hstopper =>
    obtain ⟨hfree, hstep⟩ := Option.ite_none_right_eq_some.mp hstep
    cases hstep
    rw [lockFree, Bool.and_eq_true, Bool.not_eq_true'] at hfree
    refine ⟨h.chan_le, h.room, fun hholds => ?_, fun hdone => (by cases hdone)⟩
    rw [hfree.1] at hholds
    cases hholds
  next hstopper =>
    rw [hstopper] at h
    have hfree : s.reader.holdsLock = false :=
      Bool.eq_false_iff.mpr fun hholds => Bool.noConfusion (h.exclusive hholds)
    have hexclusive : ∀ {st : Stopper}, s.reader.holdsLock = true → st.holdsLock = false := by
      intro st hholds
      rw [hfree] at hholds
      cases hholds
    split at hstep
    next frame rest hchan =>
      cases hstep
      rw [hchan] at h
      exact ⟨h.taken.chan_le, h.taken.room, hexclusive, fun hdone => (by cases hdone)⟩
    next hchan =>
      cases hstep
      refine ⟨h.chan_le, h.room, hexclusive, fun _ => ⟨hchan, ?_⟩⟩
      -- a reader that has not sent its frame yet holds the lock
      show s.reader.committed = false
      revert hfree
      cases s.reader <;> simp [holdsLock, committed]
  next frame hstopper =>
    rw [hstopper] at h
    cases hstep
    exact ⟨h.chan_le, h.room, fun hholds => (by cases h.exclusive hholds), fun hdone => (by cases hdone)⟩
  · cases hstep

/-- What the pusher can do to the queue. -/
structure PusherKeeps (s s' : System) : Prop where
  reader : s'.reader = s.reader
  stopper : s'.stopper = s.stopper
  frameChan : s'.frameChan = s.frameChan ∨ ∃ msg, s.frameChan = msg :: s'.frameChan

/-- The pusher never takes the lock. -/
theorem PusherKeeps.controlled (hkeeps : PusherKeeps s s') (h : s.Controlled) : s'.Controlled := by
  unfold Controlled at h ⊢
  rw [hkeeps.reader, hkeeps.stopper]
  rcases hkeeps.frameChan with hsame | ⟨msg, htaken⟩
  · rw [hsame]
    exact h
  · rw [htaken] at h
    exact h.taken

/-- What a step can do to the queue. -/
inductive Turn (s : System) : System → Prop where
  /-- the reader, outside of `queueFrame` -/
  | outside {s' : System} (frameChan : s'.frameChan = s.frameChan) (stopper : s'.stopper = s.stopper)
      (lock : s'.reader.holdsLock = false) (committed : s'.reader.committed = false)
      (evicted : s'.reader.evicted = false) : Turn s s'
  | pusher {s' : System} (keeps : PusherKeeps s s') : Turn s s'
  | queueFrame {s' : System} (h : s.queueFrame = some s') : Turn s s'
  | stop {s' : System} (h : s.stop = some s') : Turn s s'

theorem take_keeps (h : s.take = some s') : PusherKeeps s s' := by
  unfold take at h
  split at h
  next msg rest hpusher hchan =>
    cases h
    exact ⟨rfl, rfl, .inr ⟨msg, hchan⟩⟩
  · cases h

theorem nextFrame_keeps {now : Nat} (h : s.nextFrame now = some s') : PusherKeeps s s' := by
  unfold nextFrame at h
  split at h
  · split at h <;> (cases h; exact ⟨rfl, rfl, .inl rfl⟩)
  · cases h

theorem latestFrame_keeps (h : s.latestFrame = some s') : PusherKeeps s s' := by
  unfold latestFrame at h
  split at h
  · split at h
    next newer rest hchan =>
      cases h
      exact ⟨rfl, rfl, .inr ⟨newer, hchan⟩⟩
    · cases h
      exact ⟨rfl, rfl, .inl rfl⟩
  · split at h <;> (cases h; exact ⟨rfl, rfl, .inl rfl⟩)
  · cases h

theorem skip_keeps {hasSession : Bool} (h : s.skip hasSession = some s') : PusherKeeps s s' := by
  unfold skip at h
  split at h
  · obtain ⟨-, h⟩ := Option.ite_none_left_eq_some.mp h
    cases h
    exact ⟨rfl, rfl, .inl rfl⟩
  · cases h

theorem startWrite_keeps (h : s.startWrite = some s') : PusherKeeps s s' := by
  unfold startWrite at h
  split at h <;> cases h
  exact ⟨rfl, rfl, .inl rfl⟩

theorem writeChunk_keeps (h : s.writeChunk = some s') : PusherKeeps s s' := by
  unfold writeChunk at h
  split at h <;> cases h
  exact ⟨rfl, rfl, .inl rfl⟩

theorem finishWrite_keeps (h : s.finishWrite = some s') : PusherKeeps s s' := by
  unfold finishWrite at h
  split at h <;> cases h
  exact ⟨rfl, rfl, .inl rfl⟩

theorem pusherEnds_keeps (h : s.pusherEnds = some s') : PusherKeeps s s' := by
  obtain ⟨-, h⟩ := Option.ite_none_right_eq_some.mp h
  cases h
  exact ⟨rfl, rfl, .inl rfl⟩

/-- Whose turn a step is. -/
theorem step_turn {e : Event} (h : step s e = some s') : Turn s s' := by
  cases e with
  | readPayload size =>
    obtain ⟨-, h⟩ := Option.ite_none_right_eq_some.mp h
    cases h
    exact .outside rfl rfl rfl rfl rfl
  | readChunk bytes =>
    rw [step, readChunk] at h
    split at h
    next frame hreader =>
      cases h
      refine .outside rfl rfl ?_ ?_ ?_ <;> (rw [write, hreader]; rfl)
    · cases h
  | readFull bytes now =>
    rw [step, readFull] at h
    split at h
    · obtain ⟨-, h⟩ := Option.ite_none_right_eq_some.mp h
      cases h
      exact .outside rfl rfl rfl rfl rfl
    · cases h
  | readFailed bytes =>
    rw [step, readFailed] at h
    split at h <;> cases h
    exact .outside rfl rfl rfl rfl rfl
  | queueFrame => exact .queueFrame h
  | readerEnds =>
    obtain ⟨-, h⟩ := Option.ite_none_right_eq_some.mp h
    cases h
    exact .outside rfl rfl rfl rfl rfl
  | take => exact .pusher (take_keeps h)
  | nextFrame now => exact .pusher (nextFrame_keeps h)
  | latestFrame => exact .pusher (latestFrame_keeps h)
  | skip hasSession => exact .pusher (skip_keeps h)
  | startWrite => exact .pusher (startWrite_keeps h)
  | writeChunk => exact .pusher (writeChunk_keeps h)
  | finishWrite => exact .pusher (finishWrite_keeps h)
  | pusherEnds => exact .pusher (pusherEnds_keeps h)
  | stop => exact .stop h

/-- Every step keeps it. -/
theorem Turn.controlled (h : s.Controlled) (hturn : Turn s s') : s'.Controlled := by
  cases hturn with
  | outside hchan hstopper hlock hcommitted hevicted =>
    unfold Controlled at h ⊢
    rw [hchan, hstopper]
    exact h.outside hlock hcommitted hevicted
  | pusher hkeeps => exact hkeeps.controlled h
  | queueFrame hstep => exact controlled_queueFrame h hstep
  | stop hstep => exact controlled_stop h hstep

/-! ## Nobody waits for ever -/

/-- How many more operations `queueFrame` takes, at most. -/
def Reader.left : Reader → Nat
  | .waiting _ => 6
  | .checking _ => 5
  | .sending _ => 4
  | .full _ => 3
  | .evicting _ _ => 2
  | .resending _ => 1
  | _ => 0

/-- How many more operations `stop` takes until it unlocks `frameQueueMu`, at most. -/
def System.drainLeft (s : System) : Nat :=
  match s.stopper with
  | .draining => 2 * s.frameChan.length + 1
  | .releasing _ => 2 * s.frameChan.length + 2
  | _ => 0

/-- Unless `stop` holds the lock, the next operation of `queueFrame` can be made. -/
theorem queueFrame_proceeds (h : s.Controlled) (hleft : 0 < s.reader.left)
    (hlock : s.stopper.holdsLock = false) :
    ∃ s', s.queueFrame = some s' ∧ s'.reader.left < s.reader.left := by
  unfold Controlled at h
  unfold queueFrame
  cases hreader : s.reader with
  | waiting frame =>
    have hfree : s.lockFree = true := by rw [lockFree, hreader, hlock]; rfl
    exact ⟨_, if_pos hfree, by simp [left]⟩
  | checking frame | sending frame | full frame =>
    simp only
    split <;> exact ⟨_, rfl, by simp [left]⟩
  | evicting frame old => exact ⟨_, rfl, by simp [left]⟩
  | resending frame =>
    -- a frame was evicted, or the pusher has taken the last one meanwhile
    rw [hreader] at h
    exact ⟨_, if_pos (decide_eq_true (h.room rfl)), by simp [left]⟩
  | idle | reading frame | ended =>
    rw [hreader] at hleft
    cases hleft

/-- `stop` drains the channel, one frame after the other. -/
theorem stop_proceeds (hlock : s.stopper.holdsLock = true) :
    ∃ s', s.stop = some s' ∧ s'.drainLeft < s.drainLeft := by
  unfold stop drainLeft
  cases hstopper : s.stopper with
  | draining =>
    cases hchan : s.frameChan with
    | cons frame rest =>
      refine ⟨_, rfl, ?_⟩
      simp only [List.length_cons]
      omega
    | nil => exact ⟨_, rfl, Nat.succ_pos _⟩
  | releasing frame => exact ⟨_, rfl, Nat.lt_succ_self _⟩
  | idle | closing | done =>
    rw [hstopper] at hlock
    cases hlock

/-- Nobody adds to the work of `stop` while it holds the lock. -/
theorem drainLeft_le {e : Event} (h : s.Controlled) (hlock : s.stopper.holdsLock = true)
    (hstep : step s e = some s') : s'.drainLeft ≤ s.drainLeft := by
  have hkept : s'.stopper = s.stopper → s'.frameChan.length ≤ s.frameChan.length →
      s'.drainLeft ≤ s.drainLeft := by
    intro hstopper hchan
    unfold drainLeft
    rw [hstopper]
    split <;> omega
  cases step_turn hstep with
  | outside hchan hstopper hfree hcommitted hevicted => exact hkept hstopper (Nat.le_of_eq (by rw [hchan]))
  | pusher hkeeps =>
    refine hkept hkeeps.stopper ?_
    rcases hkeeps.frameChan with hsame | ⟨msg, htaken⟩
    · rw [hsame]
    · rw [htaken]
      exact Nat.le_succ _
  | queueFrame hqueue =>
    -- the reader does not hold the lock, and cannot get it
    have hreader : s.reader.holdsLock = false :=
      Bool.eq_false_iff.mpr fun hholds => Bool.noConfusion (hlock.symm.trans (h.exclusive hholds))
    unfold queueFrame at hqueue
    cases hstate : s.reader with
    | waiting frame =>
      rw [hstate] at hqueue
      have hfree := (Option.ite_none_right_eq_some.mp hqueue).1
      rw [lockFree, hlock, Bool.not_true, Bool.and_false] at hfree
      cases hfree
    | checking frame | sending frame | full frame | evicting frame old | resending frame =>
      rw [hstate] at hreader
      cases hreader
    | idle | reading frame | ended =>
      rw [hstate] at hqueue
      cases hqueue
  | stop hstop =>
    obtain ⟨t, ht, hlt⟩ := stop_proceeds hlock
    cases hstop.symm.trans ht
    exact Nat.le_of_lt hlt

end

end Rustcast.Relay.FrameBuffers
