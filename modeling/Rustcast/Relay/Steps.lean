import Rustcast.Relay.Upstream

/-!
# What each step of the relay can do

One inversion lemma for each step of the reader, of `stop`, of the pusher and of the
viewer: where the goroutine was, what it found, and the state it leaves. The invariants of
the relay are proved from these lemmas and do not unfold the steps again.

The last section is the first of these invariants, `PusherInv`: the pusher's `idr` flag is
the one of the frame in its hand, past the check of `needsIDR` the flag is still set
because nobody else clears it, and it only comes to hold a session that was bound.
-/

namespace Rustcast.Relay

open Upstream

variable {u u' : Upstream} {now : Nat}

/-! ## The reader and `stop` -/

theorem evict_cases (hstep : u.evict = some u') :
    ∃ frame, u.reader = .full frame ∧
      ((u.frameChan = [] ∧ u' = { u with reader := .sending frame false }) ∨
        ∃ old rest, u.frameChan = old :: rest ∧
          u' = { u with frameChan := rest, reader := .sending frame true }.drop old) := by
  unfold evict at hstep
  split at hstep
  next frame hreader =>
    split at hstep <;> cases hstep
    · exact ⟨frame, hreader, .inr ⟨_, _, ‹_›, rfl⟩⟩
    · exact ⟨frame, hreader, .inl ⟨‹_›, rfl⟩⟩
  · cases hstep

theorem enqueue_cases (hstep : u.enqueue now = some u') :
    ∃ frame lost, u.reader = .sending frame lost ∧
      u' = if lost then
        { u with frameChan := u.frameChan ++ [frame], reader := .idle }.requestIDR now
        else { u with frameChan := u.frameChan ++ [frame], reader := .idle } := by
  unfold enqueue at hstep
  split at hstep
  next frame lost hreader =>
    split at hstep <;> cases hstep
    exact ⟨frame, lost, hreader, rfl⟩
  · cases hstep

theorem stopTake_cases (hstep : u.stopTake = some u') :
    ∃ frame rest, u.frameChan = frame :: rest ∧ u' = { u with frameChan := rest }.drop frame := by
  unfold stopTake at hstep
  split at hstep
  · split at hstep <;> cases hstep
    exact ⟨_, _, ‹_›, rfl⟩
  · cases hstep

/-- A video frame is counted and recorded, then refused, queued, or kept by the reader that
found the queue full. -/
theorem dispatchFrame_cases (u : Upstream) (header : FrameHeader) (payload : List UInt8)
    (now : Nat) :
    u.dispatchFrame header payload now = u ∨ ∃ frame : FrameMsg, frame.number = u.received ∧
      ((u.stopped = true ∧ u.dispatchFrame header payload now = { u with
          received := u.received + 1, log := u.log ++ [.received frame] ++ [.refused frame] }) ∨
        (u.stopped = false ∧ u.dispatchFrame header payload now = { u with
          received := u.received + 1
          log := u.log ++ [.received frame]
          frameChan := u.frameChan ++ [frame] }) ∨
        (u.stopped = false ∧ u.dispatchFrame header payload now = { u with
          received := u.received + 1
          log := u.log ++ [.received frame]
          reader := .full frame })) := by
  unfold dispatchFrame
  split
  · refine .inr ⟨{ number := u.received, data := payload, tsMicros := header.tsMicros
                   receivedAt := some now }, rfl, ?_⟩
    by_cases hstopped : u.stopped = true
    · exact .inl ⟨hstopped, if_pos hstopped⟩
    · have hlive : u.stopped = false := Bool.eq_false_iff.mpr hstopped
      by_cases hroom : u.frameChan.length < frameCapacity
      · exact .inr (.inl ⟨hlive, (if_neg hstopped).trans (if_pos hroom)⟩)
      · exact .inr (.inr ⟨hlive, (if_neg hstopped).trans (if_neg hroom)⟩)
  · exact .inl rfl

/-! ## The pusher -/

theorem take_cases (hstep : u.take = some u') :
    ∃ msg rest, u.pusher = .idle ∧ u.frameChan = msg :: rest ∧
      u' = { u with frameChan := rest, pusher := .taken msg } := by
  unfold take at hstep
  split at hstep <;> cases hstep
  rename_i hpusher hchan
  exact ⟨_, _, hpusher, hchan, rfl⟩

theorem nextFrame_cases (hstep : u.nextFrame now = some u') :
    ∃ msg, u.pusher = .taken msg ∧
      (u' = { u with pusher := .chosen msg msg.isIDR false } ∨
        u' = { u with pusher := .draining msg msg.isIDR false }) := by
  unfold nextFrame at hstep
  split at hstep
  next msg hpusher =>
    split at hstep <;> cases hstep
    · exact ⟨msg, hpusher, .inl rfl⟩
    · exact ⟨msg, hpusher, .inr rfl⟩
  · cases hstep

theorem latestFrame_cases (hstep : u.latestFrame = some u') :
    ∃ current idr skipped, u.pusher = .draining current idr skipped ∧
      ((u.frameChan = [] ∧ u' = { u with pusher := .chosen current idr skipped }) ∨
        ∃ newer rest, u.frameChan = newer :: rest ∧
          (((newer.isIDR || !idr) = true ∧ u' = { u with
              frameChan := rest, pusher := .draining newer newer.isIDR true }.drop current) ∨
            ((newer.isIDR || !idr) = false ∧ u' = { u with
              frameChan := rest, pusher := .draining current idr true }.drop newer))) := by
  unfold latestFrame at hstep
  split at hstep
  next current idr skipped hpusher =>
    refine ⟨current, idr, skipped, hpusher, ?_⟩
    split at hstep
    next newer rest hchan =>
      refine .inr ⟨newer, rest, hchan, ?_⟩
      split at hstep <;> cases hstep
      · exact .inl ⟨‹_›, rfl⟩
      · exact .inr ⟨Bool.eq_false_iff.mpr ‹_›, rfl⟩
    · cases hstep
      exact .inl ⟨‹_›, rfl⟩
  · cases hstep

theorem currentSession_cases (hstep : u.currentSession = some u') :
    ∃ msg idr skipped, u.pusher = .chosen msg idr skipped ∧
      ((u.viewer.phase = .bound ∧ u' = { u with pusher := .attached msg idr skipped }) ∨
        (u.viewer.phase ≠ .bound ∧ u' = { u with pusher := .idle }.drop msg)) := by
  unfold currentSession at hstep
  split at hstep
  next msg idr skipped hpusher =>
    refine ⟨msg, idr, skipped, hpusher, ?_⟩
    split at hstep <;> cases hstep
    · exact .inl ⟨‹_›, rfl⟩
    · exact .inr ⟨‹_›, rfl⟩
  · cases hstep

theorem recover_cases (hstep : u.recover now = some u') :
    ∃ msg idr skipped, u.pusher = .attached msg idr skipped ∧
      ((skipped = true ∧
          u' = ({ u with pusher := .ready msg idr }.setNeedsIDR true).requestIDR now) ∨
        (skipped = false ∧ u' = { u with pusher := .ready msg idr })) := by
  unfold recover at hstep
  split at hstep
  next msg idr skipped hpusher =>
    refine ⟨msg, idr, skipped, hpusher, ?_⟩
    cases skipped <;> cases hstep
    · exact .inr ⟨rfl, rfl⟩
    · exact .inl ⟨rfl, rfl⟩
  · cases hstep

theorem loadNeedsIDR_cases (hstep : u.loadNeedsIDR now = some u') :
    ∃ msg idr, u.pusher = .ready msg idr ∧
      ((u.viewer.needsIDR = true ∧ u' = { u with pusher := .checked msg idr }) ∨
        (u.viewer.needsIDR = false ∧ u' = u.startWrite msg idr now)) := by
  unfold loadNeedsIDR at hstep
  split at hstep
  next msg idr hpusher =>
    refine ⟨msg, idr, hpusher, ?_⟩
    split at hstep <;> cases hstep
    · exact .inl ⟨‹_›, rfl⟩
    · exact .inr ⟨Bool.eq_false_iff.mpr ‹_›, rfl⟩
  · cases hstep

theorem skipFrameUntilIDR_cases (hstep : u.skipFrameUntilIDR now = some u') :
    ∃ msg idr, u.pusher = .checked msg idr ∧
      (((!u.viewer.needsIDR || idr) = true ∧ u' = { u with pusher := .clearing msg idr }) ∨
        (u.viewer.needsIDR = true ∧ idr = false ∧
          u' = ({ u with pusher := .idle }.requestIDR now).drop msg)) := by
  unfold skipFrameUntilIDR at hstep
  split at hstep
  next msg idr hpusher =>
    refine ⟨msg, idr, hpusher, ?_⟩
    split at hstep <;> cases hstep
    · exact .inl ⟨‹_›, rfl⟩
    next hpass =>
      simp only [Bool.or_eq_true, Bool.not_eq_true', not_or, Bool.not_eq_false, Bool.not_eq_true] at hpass
      exact .inr ⟨hpass.1, hpass.2, rfl⟩
  · cases hstep

theorem clearNeedsIDR_cases (hstep : u.clearNeedsIDR now = some u') :
    ∃ msg idr, u.pusher = .clearing msg idr ∧ u' = (u.setNeedsIDR false).startWrite msg idr now := by
  unfold clearNeedsIDR at hstep
  split at hstep <;> cases hstep
  exact ⟨_, _, ‹_›, rfl⟩

variable {ok : Bool} {pc : PusherPc}

theorem openStream_cases (hstep : u.openStream ok = some u') :
    ∃ msg idr start, u.pusher = .opening msg idr start ∧
      (u' = { u with pusher := .writing msg idr start (chunkLengths msg) } ∨ u' = u.writeFailed msg) := by
  unfold openStream at hstep
  split at hstep
  next msg idr start hpusher =>
    split at hstep <;> cases hstep
    · exact ⟨msg, idr, start, hpusher, .inl rfl⟩
    · exact ⟨msg, idr, start, hpusher, .inr rfl⟩
  · cases hstep

/-- A round of the write loop gives the frame up (only a delta frame), fails, or gets on. -/
theorem writeChunk_cases {result : Option Nat} (hstep : u.writeChunk now result = some u') :
    ∃ msg idr start chunks, u.pusher = .writing msg idr start chunks ∧
      ((idr = false ∧
          u' = (({ u with pusher := .idle }.setNeedsIDR true).requestIDR now).drop msg) ∨
        u' = u.writeFailed msg ∨
        ∃ chunks', u' = { u with pusher := .writing msg idr start chunks' }) := by
  unfold writeChunk at hstep
  split at hstep
  next msg idr start chunk rest hpusher =>
    refine ⟨msg, idr, start, chunk :: rest, hpusher, ?_⟩
    split at hstep
    next hreset =>
      refine .inl ⟨?_, (Option.some.inj hstep).symm⟩
      cases idr with
      | false => rfl
      | true => simp [shouldResetFrame] at hreset
    · split at hstep
      · exact .inr (.inl (Option.some.inj hstep).symm)
      · exact .inr (.inl (Option.some.inj hstep).symm)
      · split at hstep <;> exact .inr (.inr ⟨_, (Option.some.inj hstep).symm⟩)
  · cases hstep

theorem closeStream_cases (hstep : u.closeStream ok = some u') :
    ∃ msg idr start, u.pusher = .writing msg idr start [] ∧
      (u' = { u with pusher := .idle }.record (.wrote msg) ∨ u' = u.writeFailed msg) := by
  unfold closeStream at hstep
  split at hstep
  next msg idr start hpusher =>
    split at hstep <;> cases hstep
    · exact ⟨msg, idr, start, hpusher, .inl rfl⟩
    · exact ⟨msg, idr, start, hpusher, .inr rfl⟩
  · cases hstep

theorem exit_cases (hstep : u.exit = some u') : u.pusher = .idle ∧ u' = { u with pusher := .exited } := by
  unfold exit at hstep
  split at hstep <;> cases hstep
  rename_i hidle
  simp only [Bool.and_eq_true, decide_eq_true_eq] at hidle
  exact ⟨hidle.2, rfl⟩

/-! ## The viewer -/

theorem bindSession_cases (hstep : u.bindSession = some u') :
    u.viewer.phase = .unbound ∧ u' = { u with viewer := { u.viewer with phase := .bound } } := by
  unfold bindSession at hstep
  split at hstep <;> cases hstep
  exact ⟨‹_›, rfl⟩

/-! ## What the pusher knows -/

/-- The frame in the pusher's hand. -/
def PusherPc.msg? : PusherPc → Option FrameMsg
  | .idle => none
  | .taken m => some m
  | .draining m _ _ => some m
  | .chosen m _ _ => some m
  | .attached m _ _ => some m
  | .ready m _ => some m
  | .checked m _ => some m
  | .clearing m _ => some m
  | .opening m _ _ => some m
  | .writing m _ _ _ => some m
  | .exited => none

/-- The pusher has looked the session up. -/
def PusherPc.holdsSession : PusherPc → Bool
  | .attached _ _ _ => true
  | .ready _ _ => true
  | .checked _ _ => true
  | .clearing _ _ => true
  | .opening _ _ _ => true
  | .writing _ _ _ _ => true
  | _ => false

/-- What the program counter says about its own data and the `needsIDR` flag. -/
def PusherPc.Knows (needsIDR : Bool) : PusherPc → Prop
  | .draining m idr _ => idr = m.isIDR
  | .chosen m idr _ => idr = m.isIDR
  | .attached m idr _ => idr = m.isIDR
  | .ready m idr => idr = m.isIDR
  | .checked m idr => idr = m.isIDR ∧ needsIDR = true
  | .clearing m idr => idr = m.isIDR ∧ idr = true
  | .opening m idr _ => idr = m.isIDR
  | .writing m idr _ _ => idr = m.isIDR
  | _ => True

structure PusherInv (u : Upstream) : Prop where
  knows : u.pusher.Knows u.viewer.needsIDR
  held : u.pusher.holdsSession = true → u.viewer.phase ≠ .unbound

theorem PusherPc.Knows.mono {b b' : Bool} (hb : b = true → b' = true) (h : pc.Knows b) : pc.Knows b' := by
  cases pc with
  | checked m idr => exact ⟨h.1, hb h.2⟩
  | idle | taken _ | draining _ _ _ | chosen _ _ _ | attached _ _ _ | ready _ _ | clearing _ _
  | opening _ _ _ | writing _ _ _ _ | exited => exact h

/-- The pusher stays where it is: the flag may only be set, the session bound or cleared. -/
theorem PusherInv.stay (h : PusherInv u) (hpusher : u'.pusher = u.pusher)
    (hneeds : u.viewer.needsIDR = true → u'.viewer.needsIDR = true)
    (hphase : u'.viewer.phase = .unbound → u.viewer.phase = .unbound) : PusherInv u' where
  knows := hpusher ▸ h.knows.mono hneeds
  held := fun hheld hunbound => h.held (hpusher ▸ hheld) (hphase hunbound)

theorem PusherInv.stay_of_eq (h : PusherInv u) (hpusher : u'.pusher = u.pusher)
    (hviewer : u'.viewer = u.viewer) : PusherInv u' :=
  h.stay hpusher (fun hn => hviewer ▸ hn) (fun hp => hviewer ▸ hp)

/-- `releaseNow` changes nothing but the viewer, and never binds it. -/
theorem releaseNow_eq (u : Upstream) : ∃ v : Viewer, u.releaseNow = { u with viewer := v } ∧
    v.needsIDR = u.viewer.needsIDR ∧ (v.phase = .unbound → u.viewer.phase = .unbound) ∧
    (u.viewer.phase ≠ .bound → v.phase ≠ .bound) := by
  unfold releaseNow
  split
  · exact ⟨u.viewer, rfl, rfl, id, id⟩
  · refine ⟨_, rfl, rfl, ?_, ?_⟩
    · intro hv
      by_cases hb : u.viewer.phase = .bound
      · simp [hb] at hv
      · simpa [hb] using hv
    · intro hb
      simp [hb]

theorem requestInitialIDR_eq (u : Upstream) (now : Nat) :
    ∃ (v : Viewer) (c : HostCommands), u.requestInitialIDR now = { u with viewer := v, commands := c } ∧
      v.needsIDR = u.viewer.needsIDR ∧ v.phase = u.viewer.phase := by
  unfold requestInitialIDR
  split
  · exact ⟨u.viewer, u.commands, rfl, rfl, rfl⟩
  · split
    · exact ⟨u.viewer, u.commands, rfl, rfl, rfl⟩
    · exact ⟨_, _, rfl, rfl, rfl⟩

theorem writeFailed_pusher (u : Upstream) (m : FrameMsg) : (u.writeFailed m).pusher = .idle := by
  obtain ⟨v, hv, -⟩ := releaseNow_eq (({ u with pusher := .idle }.setNeedsIDR true).drop m)
  unfold writeFailed
  rw [hv]
  rfl

theorem PusherInv.idle (hpusher : u'.pusher = .idle) : PusherInv u' where
  knows := by
    rw [hpusher]
    trivial
  held := by
    rw [hpusher]
    exact fun h => nomatch h

/-- The pusher moves on; it holds the session before only if it is bound. -/
theorem PusherInv.goto (hpusher : u'.pusher = pc) (hknows : pc.Knows u'.viewer.needsIDR)
    (hheld : pc.holdsSession = true → u'.viewer.phase ≠ .unbound) : PusherInv u' :=
  ⟨hpusher ▸ hknows, hpusher ▸ hheld⟩

theorem pusherInv_step {e : RelayEvent} (h : PusherInv u) (hstep : u.step e = some u') : PusherInv u' := by
  have hknows := h.knows
  have hheld := h.held
  cases e with
  | quicStream bytes ending now =>
    simp only [step, Option.ite_none_right_eq_some, Option.some.injEq] at hstep
    obtain ⟨-, rfl⟩ := hstep
    unfold readQUICStream
    split
    · rcases dispatchFrame_cases u _ _ now with heq | ⟨f, -, ⟨-, heq⟩ | ⟨-, heq⟩ | ⟨-, heq⟩⟩ <;>
        exact h.stay_of_eq (by rw [heq]) (by rw [heq])
    · split
      · exact h.stay_of_eq rfl rfl
      · exact h
  | tcpFrame header payload now =>
    simp only [step, Option.ite_none_right_eq_some, Option.some.injEq] at hstep
    obtain ⟨-, rfl⟩ := hstep
    rcases dispatchFrame_cases u header payload now with
      heq | ⟨f, -, ⟨-, heq⟩ | ⟨-, heq⟩ | ⟨-, heq⟩⟩ <;>
      exact h.stay_of_eq (by rw [heq]) (by rw [heq])
  | evict =>
    obtain ⟨f, -, ⟨-, rfl⟩ | ⟨old, rest, -, rfl⟩⟩ := evict_cases hstep <;> exact h.stay_of_eq rfl rfl
  | enqueue now =>
    obtain ⟨f, lost, -, rfl⟩ := enqueue_cases hstep
    cases lost <;> exact h.stay_of_eq rfl rfl
  | stop | commandWritten | reconnect =>
    cases hstep
    exact h.stay_of_eq rfl rfl
  | stopTake =>
    obtain ⟨f, rest, -, rfl⟩ := stopTake_cases hstep
    exact h.stay_of_eq rfl rfl
  | take =>
    obtain ⟨msg, rest, -, -, rfl⟩ := take_cases hstep
    exact .goto rfl trivial (fun hs => nomatch hs)
  | nextFrame now =>
    obtain ⟨msg, -, rfl | rfl⟩ := nextFrame_cases hstep <;> exact .goto rfl rfl (fun hs => nomatch hs)
  | latestFrame =>
    obtain ⟨current, idr, skipped, hpusher, ⟨-, rfl⟩ | ⟨newer, rest, -, ⟨-, rfl⟩ | ⟨-, rfl⟩⟩⟩ :=
      latestFrame_cases hstep
    · rw [hpusher] at hknows
      exact .goto rfl hknows (fun hs => nomatch hs)
    · exact .goto rfl rfl (fun hs => nomatch hs)
    · rw [hpusher] at hknows
      exact .goto rfl hknows (fun hs => nomatch hs)
  | currentSession =>
    obtain ⟨msg, idr, skipped, hpusher, ⟨hbound, rfl⟩ | ⟨-, rfl⟩⟩ := currentSession_cases hstep
    · rw [hpusher] at hknows
      exact .goto rfl hknows (fun _ hunbound => nomatch hbound.symm.trans hunbound)
    · exact .idle rfl
  | recover now =>
    obtain ⟨msg, idr, skipped, hpusher, ⟨-, rfl⟩ | ⟨-, rfl⟩⟩ := recover_cases hstep
    all_goals
      rw [hpusher] at hknows hheld
      exact .goto rfl hknows (fun _ => hheld rfl)
  | loadNeedsIDR now =>
    obtain ⟨msg, idr, hpusher, ⟨hneeds, rfl⟩ | ⟨-, rfl⟩⟩ := loadNeedsIDR_cases hstep
    all_goals rw [hpusher] at hknows hheld
    · exact .goto rfl ⟨hknows, hneeds⟩ (fun _ => hheld rfl)
    · exact .goto rfl hknows (fun _ => hheld rfl)
  | skipFrameUntilIDR now =>
    obtain ⟨msg, idr, hpusher, ⟨hpass, rfl⟩ | ⟨-, -, rfl⟩⟩ := skipFrameUntilIDR_cases hstep
    · rw [hpusher] at hknows hheld
      have hidr : idr = true := by simpa [hknows.2] using hpass
      exact .goto rfl ⟨hknows.1, hidr⟩ (fun _ => hheld rfl)
    · exact .idle rfl
  | clearNeedsIDR now =>
    obtain ⟨msg, idr, hpusher, rfl⟩ := clearNeedsIDR_cases hstep
    rw [hpusher] at hknows hheld
    exact .goto rfl hknows.1 (fun _ => hheld rfl)
  | openStream ok =>
    obtain ⟨msg, idr, start, hpusher, rfl | rfl⟩ := openStream_cases hstep
    · rw [hpusher] at hknows hheld
      exact .goto rfl hknows (fun _ => hheld rfl)
    · exact .idle (writeFailed_pusher u msg)
  | writeChunk now result =>
    obtain ⟨msg, idr, start, chunks, hpusher, ⟨-, rfl⟩ | rfl | ⟨chunks', rfl⟩⟩ := writeChunk_cases hstep
    · exact .idle rfl
    · exact .idle (writeFailed_pusher u msg)
    · rw [hpusher] at hknows hheld
      exact .goto rfl hknows (fun _ => hheld rfl)
  | closeStream ok =>
    obtain ⟨msg, idr, start, -, rfl | rfl⟩ := closeStream_cases hstep
    · exact .idle rfl
    · exact .idle (writeFailed_pusher u msg)
  | exit =>
    obtain ⟨-, rfl⟩ := exit_cases hstep
    exact .goto rfl trivial (fun hs => nomatch hs)
  | bindSession =>
    obtain ⟨-, rfl⟩ := bindSession_cases hstep
    exact h.stay rfl id (fun hv => nomatch hv)
  | startVideo now =>
    cases hstep
    obtain ⟨v, c, heq, hneeds, hphase⟩ := requestInitialIDR_eq (u.setNeedsIDR true) now
    unfold startVideo
    rw [heq]
    exact h.stay rfl (fun _ => hneeds.trans rfl) hphase.symm.trans
  | keyframeRequest now =>
    cases hstep
    exact h.stay rfl (fun _ => rfl) id
  | releaseNow =>
    cases hstep
    obtain ⟨v, heq, hneeds, hunbound, -⟩ := releaseNow_eq u
    rw [heq]
    exact h.stay rfl hneeds.trans hunbound

theorem pusherInv_new : PusherInv {} := .idle rfl

/-! ## Pieces of sample runs -/

def idrPayload : List UInt8 := [0, 0, 0, 1, 0x65]

def deltaPayload : List UInt8 := [0, 0, 0, 1, 0x41]

/-- The pusher takes an IDR frame that `needsIDR` waited for, up to the call of `writeFrame`. -/
def pushIDR : List RelayEvent :=
  [.take, .nextFrame 0, .currentSession, .recover 0, .loadNeedsIDR 0, .skipFrameUntilIDR 0,
    .clearNeedsIDR 0]

/-- The pusher takes a frame while `needsIDR` is clear. -/
def pushDelta : List RelayEvent :=
  [.take, .nextFrame 0, .currentSession, .recover 0, .loadNeedsIDR 0]

/-- The pusher writes a five-byte frame without delay. -/
def writeOut (now : Nat) : List RelayEvent :=
  [.openStream true, .writeChunk now (some 18), .writeChunk now (some 5), .closeStream true]

end Rustcast.Relay
