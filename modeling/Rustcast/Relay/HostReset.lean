import Rustcast.Core.Lts
import Rustcast.Core.Trace
import Rustcast.Relay.Steps

/-!
# Host stream resets at the relay

The host resets the stream of a P frame that was superseded, and the relay must then write
nothing but an IDR frame next: what is encoded after the reset frame refers to it.

`readQUICStream` skips a reset stream and tells nobody. The next P frame is written as if
nothing were missing, unless `needsIDR` is set for another reason or the pusher has an IDR
frame in its hand.
-/

namespace Rustcast.Relay

open Upstream Trace LogEntry

def LogEntry.isHostReset : LogEntry → Bool
  | .hostReset => true
  | _ => false

def LogEntry.writesIDR : LogEntry → Bool
  | .wrote f => f.isIDR
  | _ => false

/-- The call of `writeFrame` for a frame that is not an IDR frame. -/
def LogEntry.startsDelta : LogEntry → Bool
  | .started f => !f.isIDR
  | _ => false

/-- Some reset of a host stream was not followed by a written IDR frame yet. -/
abbrev ResetOpen (log : List LogEntry) : Prop :=
  Unanswered LogEntry.isHostReset LogEntry.writesIDR log

/-- No frame but an IDR frame is started while a reset is open. -/
def ResetsRecovered (u : Upstream) : Prop :=
  Historically (fun past entry => entry.startsDelta = true → ¬ResetOpen past) u.log

instance (u : Upstream) : Decidable (ResetsRecovered u) :=
  inferInstanceAs (Decidable (Historically _ _))

/-! ## What is owed after a reset -/

def PusherPc.HoldsIDR (pc : PusherPc) : Prop := ∃ m, pc.msg? = some m ∧ m.isIDR = true

/-- An IDR frame comes next, or no frame at all. -/
structure Owed (u : Upstream) : Prop where
  seen : u.viewer.phase ≠ .unbound
  next : u.viewer.needsIDR = true ∨ u.pusher.HoldsIDR ∨
    (u.viewer.phase ≠ .bound ∧ u.pusher.holdsSession = false)

structure ResetInv (u : Upstream) : Prop where
  recovered : ResetsRecovered u
  owed : ResetOpen u.log → Owed u

variable {u u' : Upstream}

theorem ResetInv.quiet (h : ResetInv u) (entries : List LogEntry)
    (hlog : u'.log = u.log ++ entries)
    (hentries : ∀ e ∈ entries, e.isHostReset = false ∧ e.startsDelta = false)
    (howed : Owed u → Owed u') : ResetInv u' where
  recovered := by
    show Historically _ u'.log
    rw [hlog]
    apply h.recovered.append
    intro e he past hstarts
    rw [(hentries e he).2] at hstarts
    cases hstarts
  owed := by
    rw [hlog]
    intro hopen
    exact howed (h.owed (hopen.of_append fun e he => (hentries e he).1))

theorem ResetInv.silent (h : ResetInv u) (hlog : u'.log = u.log) (howed : Owed u → Owed u') : ResetInv u' :=
  h.quiet [] (by simp [hlog]) (fun _ he => nomatch he) howed

theorem ResetInv.dropped (h : ResetInv u) {f : FrameMsg} (hlog : u'.log = u.log ++ [.dropped f])
    (howed : Owed u → Owed u') : ResetInv u' :=
  h.quiet [.dropped f] hlog (by simp [isHostReset, startsDelta]) howed

theorem Owed.of_needsIDR (h : Owed u) (hphase : u'.viewer.phase = .unbound → u.viewer.phase = .unbound)
    (hneeds : u'.viewer.needsIDR = true) : Owed u' :=
  ⟨fun hu => h.seen (hphase hu), .inl hneeds⟩

theorem Owed.stay (h : Owed u) (hpusher : u'.pusher = u.pusher)
    (hneeds : u.viewer.needsIDR = true → u'.viewer.needsIDR = true)
    (hphase : u'.viewer.phase = .unbound → u.viewer.phase = .unbound)
    (hbound : u.viewer.phase ≠ .bound → u'.viewer.phase ≠ .bound) : Owed u' := by
  refine ⟨fun hu => h.seen (hphase hu), ?_⟩
  rw [hpusher]
  rcases h.next with hn | hidr | ⟨hb, hs⟩
  · exact .inl (hneeds hn)
  · exact .inr (.inl hidr)
  · exact .inr (.inr ⟨hbound hb, hs⟩)

/-- The pusher goes on with its frame, or with a newer IDR frame. -/
theorem Owed.move (h : Owed u) (hviewer : u'.viewer = u.viewer)
    (hidr : u.pusher.HoldsIDR → u'.pusher.HoldsIDR)
    (hsession : u.pusher.holdsSession = false → u.viewer.phase ≠ .bound →
      u'.pusher.holdsSession = false) : Owed u' := by
  refine ⟨hviewer ▸ h.seen, ?_⟩
  rw [hviewer]
  rcases h.next with hn | hi | ⟨hb, hs⟩
  · exact .inl hn
  · exact .inr (.inl (hidr hi))
  · exact .inr (.inr ⟨hb, hsession hs hb⟩)

theorem PusherPc.HoldsIDR.of_eq {pc pc' : PusherPc} (hmsg : pc'.msg? = pc.msg?)
    (h : pc.HoldsIDR) : pc'.HoldsIDR := by
  obtain ⟨m, hm, hidr⟩ := h
  exact ⟨m, hmsg.trans hm, hidr⟩

/-- The pusher goes on with its frame, and comes to hold a session only if one is bound. -/
theorem ResetInv.onward (h : ResetInv u) {pc pc' : PusherPc} (hpusher : u.pusher = pc)
    (hmsg : pc'.msg? = pc.msg?)
    (hsession : pc.holdsSession = true ∨ pc'.holdsSession = false ∨ u.viewer.phase = .bound) :
    ResetInv { u with pusher := pc' } := by
  refine h.silent rfl fun ho => ho.move rfl (.of_eq (hpusher ▸ hmsg)) fun hs hb => ?_
  rcases hsession with hheld | hnone | hbound
  · rw [hpusher, hheld] at hs
    cases hs
  · exact hnone
  · exact absurd hbound hb

/-- A pusher that holds a session and finds `needsIDR` clear has an IDR frame in its hand. -/
theorem Owed.holdsIDR (h : Owed u) (hneeds : u.viewer.needsIDR = false)
    (hsession : u.pusher.holdsSession = true) : u.pusher.HoldsIDR := by
  rcases h.next with hn | hi | ⟨-, hs⟩
  · rw [hneeds] at hn
    cases hn
  · exact hi
  · rw [hsession] at hs
    cases hs

variable {m : FrameMsg} {now : Nat}

theorem not_holdsIDR (hmsg : u.pusher.msg? = some m) (hdelta : m.isIDR = false) : ¬u.pusher.HoldsIDR := by
  rintro ⟨m', hm', hidr⟩
  rw [hmsg] at hm'
  cases hm'
  rw [hdelta] at hidr
  cases hidr

/-! ## Steps -/

theorem ResetInv.dispatchFrame (h : ResetInv u) (header : FrameHeader) (payload : List UInt8)
    (now : Nat) : ResetInv (u.dispatchFrame header payload now) := by
  rcases dispatchFrame_cases u header payload now with
    heq | ⟨f, -, ⟨-, heq⟩ | ⟨-, heq⟩ | ⟨-, heq⟩⟩ <;> rw [heq]
  · exact h
  · exact h.quiet [.received f, .refused f] (by simp)
      (by simp [isHostReset, startsDelta]) (fun ho => ho.stay rfl id id id)
  · exact h.quiet [.received f] rfl (by simp [isHostReset, startsDelta]) (fun ho => ho.stay rfl id id id)
  · exact h.quiet [.received f] rfl (by simp [isHostReset, startsDelta]) (fun ho => ho.stay rfl id id id)

/-- The stream was reset before it delivered its frame. -/
def streamReset (bytes : List UInt8) (ending : StreamEnd) : Bool :=
  match readFrame bytes ending with
  | .ok _ => false
  | .error err => err.isStreamReset

/-- The condition on a step: a reset is seen only while `needsIDR` is set or the frame in the
pusher's hand is an IDR frame (or nobody is attached). -/
def ResetSafe (u : Upstream) : RelayEvent → Prop
  | .quicStream bytes ending _ => streamReset bytes ending = true → u.viewer.phase = .bound →
    u.viewer.needsIDR = true ∨ ∃ m ∈ u.pusher.msg?, m.isIDR = true
  | _ => True

instance (u : Upstream) (e : RelayEvent) : Decidable (ResetSafe u e) := by
  unfold ResetSafe
  split <;> infer_instance

section

variable (h : ResetInv u)

include h

/-- The step that opens a reset. -/
theorem ResetInv.readQUICStream {bytes : List UInt8} {ending : StreamEnd}
    (hsafe : ResetSafe u (.quicStream bytes ending now)) :
    ResetInv (u.readQUICStream bytes ending now) := by
  unfold Upstream.readQUICStream
  split
  · exact h.dispatchFrame _ _ now
  next err herr =>
    split
    next hsaw =>
      simp only [Bool.and_eq_true, decide_eq_true_eq] at hsaw
      obtain ⟨hsaw, hbound⟩ := hsaw
      have hreset : streamReset bytes ending = true := by simp [streamReset, herr, hsaw]
      constructor
      · exact historically_concat.mpr ⟨h.recovered, fun hstarts => nomatch hstarts⟩
      · intro _
        exact ⟨fun hunbound => (nomatch hbound.symm.trans hunbound), (hsafe hreset hbound).imp_right .inl⟩
    · exact h

theorem ResetInv.writeFailed (m : FrameMsg) : ResetInv (u.writeFailed m) := by
  unfold Upstream.writeFailed
  obtain ⟨v, heq, hneeds, hunbound, -⟩ :=
    releaseNow_eq (({ u with pusher := .idle }.setNeedsIDR true).drop m)
  rw [heq]
  exact h.dropped rfl (fun ho => ho.of_needsIDR hunbound (hneeds.trans rfl))

/-- The call of `writeFrame`: behind an open reset the frame is an IDR frame. -/
theorem ResetInv.startWrite {idr needs : Bool} (hidr : Owed u → m.isIDR = true) :
    ResetInv ((u.setNeedsIDR needs).startWrite m idr now) := by
  constructor
  · refine historically_concat.mpr ⟨h.recovered, fun hstarts hopen => ?_⟩
    have hm := hidr (h.owed hopen)
    simp [startsDelta, hm] at hstarts
  · intro hopen
    rcases unanswered_concat.mp hopen with ha | ⟨hopen, -⟩
    · cases ha
    · have ho := h.owed hopen
      exact ⟨ho.seen, .inr (.inl ⟨m, rfl, hidr ho⟩)⟩

theorem ResetInv.latestFrame (hp : PusherInv u) (hstep : u.latestFrame = some u') : ResetInv u' := by
  obtain ⟨current, idr, skipped, hpusher, ⟨-, rfl⟩ | ⟨newer, rest, -, ⟨hkeep, rfl⟩ | ⟨-, rfl⟩⟩⟩ :=
    latestFrame_cases hstep
  · exact h.onward hpusher rfl (.inr (.inl rfl))
  · refine h.dropped rfl fun ho => ho.move rfl ?_ (fun _ _ => rfl)
    rintro ⟨m, hm, hidr⟩
    -- an IDR frame in hand is only given up for another one
    have hknows := hp.knows
    rw [hpusher] at hm hknows
    cases hm
    have hflag : idr = true := hknows.trans hidr
    refine ⟨newer, rfl, ?_⟩
    simpa [hflag] using hkeep
  · exact h.dropped rfl fun ho =>
      ho.move rfl (.of_eq (by rw [hpusher]; rfl)) (fun _ _ => rfl)

theorem ResetInv.currentSession (hstep : u.currentSession = some u') : ResetInv u' := by
  obtain ⟨m, idr, skipped, hpusher, ⟨hbound, rfl⟩ | ⟨hbound, rfl⟩⟩ := currentSession_cases hstep
  · exact h.onward hpusher rfl (.inr (.inr hbound))
  · exact h.dropped rfl fun ho => ⟨ho.seen, .inr (.inr ⟨hbound, rfl⟩)⟩

theorem ResetInv.loadNeedsIDR (hstep : u.loadNeedsIDR now = some u') : ResetInv u' := by
  obtain ⟨m, idr, hpusher, ⟨-, rfl⟩ | ⟨hneeds, rfl⟩⟩ := loadNeedsIDR_cases hstep
  · exact h.onward hpusher rfl (.inl rfl)
  · have hmsg : u.pusher.msg? = some m := by rw [hpusher]; rfl
    refine h.startWrite fun ho => ?_
    obtain ⟨m', hm', hidr⟩ := ho.holdsIDR hneeds (by rw [hpusher]; rfl)
    rw [hmsg] at hm'
    cases hm'
    exact hidr

/-- Clearing the flag is for an IDR frame in hand. -/
theorem ResetInv.clearNeedsIDR (hp : PusherInv u) (hstep : u.clearNeedsIDR now = some u') :
    ResetInv u' := by
  obtain ⟨m, idr, hpusher, rfl⟩ := clearNeedsIDR_cases hstep
  have hknows := hp.knows
  rw [hpusher] at hknows
  exact h.startWrite fun _ => hknows.1.symm.trans hknows.2

theorem ResetInv.writeChunk {result : Option Nat} (hstep : u.writeChunk now result = some u') :
    ResetInv u' := by
  obtain ⟨m, idr, start, chunks, hpusher, ⟨-, rfl⟩ | rfl | ⟨chunks', rfl⟩⟩ := writeChunk_cases hstep
  · exact h.dropped rfl fun ho => ho.of_needsIDR id rfl
  · exact h.writeFailed m
  · exact h.onward hpusher rfl (.inl rfl)

theorem ResetInv.closeStream {ok : Bool} (hstep : u.closeStream ok = some u') : ResetInv u' := by
  obtain ⟨m, idr, start, hpusher, rfl | rfl⟩ := closeStream_cases hstep
  · have hmsg : u.pusher.msg? = some m := by rw [hpusher]; rfl
    constructor
    · exact historically_concat.mpr ⟨h.recovered, fun hstarts => nomatch hstarts⟩
    · intro hopen
      rcases unanswered_concat.mp hopen with ha | ⟨hopen, hdelta⟩
      · cases ha
      have ho := h.owed hopen
      -- the written frame was a delta frame, so the flag is what answers the reset
      refine ⟨ho.seen, .inl ?_⟩
      rcases ho.next with hn | hi | ⟨-, hs⟩
      · exact hn
      · exact absurd hi (not_holdsIDR hmsg hdelta)
      · rw [hpusher] at hs
        cases hs
  · exact h.writeFailed m

theorem resetInv_step {e : RelayEvent} (hp : PusherInv u) (hsafe : ResetSafe u e)
    (hstep : u.step e = some u') : ResetInv u' := by
  cases e with
  | quicStream bytes ending now =>
    simp only [step, Option.ite_none_right_eq_some, Option.some.injEq] at hstep
    obtain ⟨-, rfl⟩ := hstep
    exact h.readQUICStream hsafe
  | tcpFrame header payload now =>
    simp only [step, Option.ite_none_right_eq_some, Option.some.injEq] at hstep
    obtain ⟨-, rfl⟩ := hstep
    exact h.dispatchFrame header payload now
  | evict =>
    obtain ⟨f, -, ⟨-, rfl⟩ | ⟨old, rest, -, rfl⟩⟩ := evict_cases hstep
    · exact h.silent rfl fun ho => ho.stay rfl id id id
    · exact h.dropped rfl fun ho => ho.stay rfl id id id
  | enqueue now =>
    obtain ⟨f, lost, -, rfl⟩ := enqueue_cases hstep
    cases lost <;> exact h.silent rfl fun ho => ho.stay rfl id id id
  | stop | commandWritten | reconnect =>
    cases hstep
    exact h.silent rfl fun ho => ho.stay rfl id id id
  | stopTake =>
    obtain ⟨f, rest, -, rfl⟩ := stopTake_cases hstep
    exact h.dropped rfl fun ho => ho.stay rfl id id id
  | take =>
    obtain ⟨m, rest, hpusher, -, rfl⟩ := take_cases hstep
    refine h.silent rfl fun ho => ho.move rfl ?_ (fun _ _ => rfl)
    rintro ⟨m', hm', -⟩
    rw [hpusher] at hm'
    cases hm'
  | nextFrame now =>
    obtain ⟨m, hpusher, rfl | rfl⟩ := nextFrame_cases hstep <;>
      exact h.onward hpusher rfl (.inr (.inl rfl))
  | latestFrame => exact h.latestFrame hp hstep
  | currentSession => exact h.currentSession hstep
  | recover now =>
    obtain ⟨m, idr, skipped, hpusher, ⟨-, rfl⟩ | ⟨-, rfl⟩⟩ := recover_cases hstep
    · exact h.silent rfl fun ho => ho.of_needsIDR id rfl
    · exact h.onward hpusher rfl (.inl rfl)
  | loadNeedsIDR now => exact h.loadNeedsIDR hstep
  | skipFrameUntilIDR now =>
    obtain ⟨m, idr, hpusher, ⟨-, rfl⟩ | ⟨hneeds, -, rfl⟩⟩ := skipFrameUntilIDR_cases hstep
    · exact h.onward hpusher rfl (.inl rfl)
    · exact h.dropped rfl fun ho => ho.of_needsIDR id hneeds
  | clearNeedsIDR now => exact h.clearNeedsIDR hp hstep
  | openStream ok =>
    obtain ⟨m, idr, start, hpusher, rfl | rfl⟩ := openStream_cases hstep
    · exact h.onward hpusher rfl (.inl rfl)
    · exact h.writeFailed m
  | writeChunk now result => exact h.writeChunk hstep
  | closeStream ok => exact h.closeStream hstep
  | exit =>
    obtain ⟨hidle, rfl⟩ := exit_cases hstep
    exact h.onward hidle rfl (.inr (.inl rfl))
  | bindSession =>
    obtain ⟨hunbound, rfl⟩ := bindSession_cases hstep
    exact h.silent rfl fun ho => absurd hunbound ho.seen
  | startVideo now =>
    cases hstep
    obtain ⟨v, c, heq, hneeds, hphase⟩ := requestInitialIDR_eq (u.setNeedsIDR true) now
    unfold startVideo
    rw [heq]
    exact h.silent rfl fun ho =>
      ho.of_needsIDR hphase.symm.trans (hneeds.trans rfl)
  | keyframeRequest now =>
    cases hstep
    exact h.silent rfl fun ho => ho.of_needsIDR id rfl
  | releaseNow =>
    cases hstep
    obtain ⟨v, heq, hneeds, hunbound, hbound⟩ := releaseNow_eq u
    rw [heq]
    exact h.silent rfl fun ho => ho.stay rfl hneeds.trans hunbound hbound

end

theorem resetInv_new : ResetInv {} := ⟨historically_nil, fun h => nomatch h⟩

/-! ## Runs -/

/-- In every run whose resets are seen while `needsIDR` is set or an IDR frame is in the
pusher's hand, the relay starts no delta frame after a reset before it has written an IDR
frame. -/
theorem resets_recovered (events : List RelayEvent)
    (hsafe : Lts.Along step ResetSafe {} events) :
    Lts.Throughout step ResetsRecovered {} events := by
  have hinv : Lts.Throughout step (fun u => PusherInv u ∧ ResetInv u) {} events := by
    refine Lts.throughout_of_along ?_ ⟨pusherInv_new, resetInv_new⟩ hsafe
    intro u e u' ⟨hp, h⟩ hsafe hstep
    exact ⟨pusherInv_step hp hstep, resetInv_step h hp hsafe hstep⟩
  exact hinv.mono fun u h => h.2.recovered

/-- A frame on a stream of its own. -/
def hostFrame (payload : List UInt8) : RelayEvent :=
  .quicStream (Wire.frameBytes Wire.msgVideo 0 payload) .fin 0

/-- A stream that is reset within the payload. -/
def hostResetFrame : RelayEvent :=
  .quicStream ((Wire.frameBytes Wire.msgVideo 0 deltaPayload).take 15) .remoteReset 0

/-- An IDR frame is written, the next frame is reset, and the one after it is written. -/
def resetRun : List RelayEvent :=
  [.bindSession, .startVideo 0, hostFrame idrPayload] ++ pushIDR ++ writeOut 0 ++
  [hostResetFrame, hostFrame deltaPayload] ++ pushDelta

/-- The relay starts a delta frame right behind a reset. -/
theorem relay_ignores_host_reset :
    (¬∀ events, Lts.Throughout step ResetsRecovered {} events) ∧
      ¬Lts.Throughout step ResetsRecovered {} resetRun := by
  have hreset : ¬Lts.Throughout step ResetsRecovered {} resetRun :=
    Lts.not_throughout_of_last (by decide +kernel)
  exact ⟨fun h => hreset (h resetRun), hreset⟩

/-- A reset while the viewer has asked for a keyframe: the delta frame behind it is skipped
and the IDR frame that follows is written. -/
def recoveredResetRun : List RelayEvent :=
  [.bindSession, .startVideo 0, hostFrame idrPayload] ++ pushIDR ++ writeOut 0 ++
  [.keyframeRequest 0, hostResetFrame, hostFrame deltaPayload, .take, .nextFrame 0,
    .currentSession, .recover 0, .loadNeedsIDR 0, .skipFrameUntilIDR 0, hostFrame idrPayload] ++
  pushIDR ++ writeOut 0 ++ [hostFrame deltaPayload] ++ pushDelta ++ writeOut 0

theorem resets_recovered_after_keyframeRequest :
    Lts.Along step ResetSafe {} recoveredResetRun ∧
      (Lts.run step {} recoveredResetRun).map
        (fun u => (u.log.countP LogEntry.isHostReset, u.log.countP LogEntry.startsDelta)) = some (1, 1) ∧
      Lts.Throughout step ResetsRecovered {} recoveredResetRun := by
  have hsafe : Lts.Along step ResetSafe {} recoveredResetRun := by decide +kernel
  exact ⟨hsafe, by decide +kernel, resets_recovered recoveredResetRun hsafe⟩

end Rustcast.Relay
