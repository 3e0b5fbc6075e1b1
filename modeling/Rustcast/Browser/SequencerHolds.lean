import Rustcast.Browser.SequencerChain

/-!
# What a sequencer holds between its calls

`Between` says where the buffered frames are: ahead of `expected`, and none of them a keyframe. `Held`
adds the limit on their number and the gap timer that gets rid of them. Behind the timeout the first
round of `expire` makes a hole, so that all that is buffered is dropped (`expireLoop_spec`).
-/

namespace Rustcast.Browser

open SeqNum

namespace FrameSequencer

variable {T : Type} {s s' : FrameSequencer T} {r r' : SequenceResult T} {frame : EncodedFrame T} {now : T}
  {out : FrameSequencer T × SequenceResult T} {limits : Nat × T}

structure Held (limits : Nat × T) (s : FrameSequencer T) : Prop extends Between s where
  limited : s.limits = limits
  size_le : s.buffered.size ≤ limits.1
  timed : s.expected ≠ none → s.buffered.size ≠ 0 → s.gapSince ≠ none

/-- A call that begins to wait for a keyframe asks for one. -/
def Reports (s : FrameSequencer T) (out : FrameSequencer T × SequenceResult T) : Prop :=
  s.waitingForKeyframe = false → out.1.waitingForKeyframe = true → out.2.requestKeyframe = true

theorem Reports.of_waiting (h : out.1.waitingForKeyframe = true → s.waitingForKeyframe = true) :
    Reports s out := by
  intro hw hw'
  rw [h hw'] at hw
  cases hw

/-! ## `consume` and `drain` -/

/-- The buffer does not grow, the wait for a keyframe does not begin, and a request stands. -/
structure Settles (s : FrameSequencer T) (r : SequenceResult T)
    (out : FrameSequencer T × SequenceResult T) : Prop where
  limits : out.1.limits = s.limits
  size : out.1.buffered.size ≤ s.buffered.size
  waiting : out.1.waitingForKeyframe = true → s.waitingForKeyframe = true
  request : r.requestKeyframe = true → out.2.requestKeyframe = true

theorem Settles.trans (h : Settles s r (s', r')) (h' : Settles s' r' out) : Settles s r out where
  limits := h'.limits.trans h.limits
  size := h'.size.trans h.size
  waiting := fun hw => h.waiting (h'.waiting hw)
  request := fun hr => h'.request (h.request hr)

theorem settles_consume : Settles s r (s.consume r frame) := by
  unfold consume
  split
  · exact ⟨setExpected_limits, by simp, fun hw => setExpected_waiting ▸ hw, fun _ => rfl⟩
  · refine ⟨setExpected_limits, by simp, ?_, fun hr => hr⟩
    cases hkey : frame.keyframe <;> simp_all

theorem settles_drainLoop (fuel : Nat) : Settles s r (drainLoop fuel s r) := by
  induction fuel generalizing s r with
  | zero => exact ⟨rfl, le_rfl, fun hw => hw, fun hr => hr⟩
  | succ fuel ih =>
    have hstay : Settles s r (s, r) := ⟨rfl, le_rfl, fun hw => hw, fun hr => hr⟩
    cases he : s.expected with
    | none =>
      rw [drainLoop, he]
      exact hstay
    | some e =>
      cases hget : s.buffered.get? e with
      | none =>
        rw [drainLoop_stop fuel he hget]
        exact hstay
      | some next =>
        rw [drainLoop_succ fuel he hget]
        have hremoved : Settles s r (s.remove e, r) :=
          ⟨rfl, (OrderedMap.size_delete_lt (OrderedMap.mem_of_get? hget)).le, fun hw => hw, fun hr => hr⟩
        exact hremoved.trans (settles_consume.trans ih)

theorem settles_drain : Settles s r (s.drain r now) := by
  obtain ⟨hlimits, hsize, hwaiting, hrequest⟩ := settles_drainLoop s.buffered.size
  exact ⟨hlimits, hsize, hwaiting, hrequest⟩

/-- `drain` ends with the gap timer running if anything is left. -/
theorem timed_drain (h : (s.drain r now).1.buffered.size ≠ 0) : (s.drain r now).1.gapSince ≠ none := by
  unfold drain at h ⊢
  simp only at h ⊢
  rw [if_pos h]
  exact Option.some_ne_none _

theorem settles_advance : Settles s r (s.advance r frame now) := settles_consume.trans settles_drain

theorem Settles.held (h : Settles s r out) (hb : Between out.1) (hlimits : s.limits = limits)
    (hsize : s.buffered.size ≤ limits.1) (htimed : out.1.buffered.size ≠ 0 → out.1.gapSince ≠ none) :
    Held limits out.1 :=
  ⟨hb, h.limits.trans hlimits, h.size.trans hsize, fun _ => htimed⟩

/-! ## The calls -/

theorem size_restarted {seq : UInt32} : (s.restarted seq).buffered.size ≤ s.buffered.size := by
  have hbuf : (s.restarted seq).buffered = (s.dropSuperseded seq).1.buffered := setExpected_buffered
  rw [hbuf]
  exact List.length_filter_le _ _

theorem size_set_le (hlimits : s.limits = limits) (h : s.buffered.size < s.maxBufferedFrames) :
    (s.buffered.set frame.seq frame).size ≤ limits.1 := by
  rw [OrderedMap.size_set, ← hlimits]
  show _ ≤ s.maxBufferedFrames
  split <;> omega

namespace Held

variable (h : Held limits s)

include h

theorem push : Held limits (s.push frame now).1 ∧ Reports s (s.push frame now) := by
  have hbetween : Between (s.push frame now).1 := (push_spec h.toBetween).1
  have hcase := push_cases s frame now
  generalize s.push frame now = out at hcase hbetween ⊢
  cases hcase with
  | startFull | late | full => exact ⟨h, .of_waiting fun hw => hw⟩
  | startBuffer he _ hroom =>
    exact ⟨⟨hbetween, h.limited, size_set_le h.limited hroom, absurd he⟩, .of_waiting fun hw => hw⟩
  | buffer e _ _ _ _ hroom =>
    exact ⟨⟨hbetween, h.limited, size_set_le h.limited hroom, fun _ _ => Option.some_ne_none _⟩,
      .of_waiting fun hw => hw⟩
  | start | jump =>
    refine ⟨settles_advance.held hbetween (setExpected_limits.trans h.limited)
      (size_restarted.trans h.size_le) timed_drain, fun _ hw => ?_⟩
    -- a keyframe has ended the wait
    cases settles_advance.waiting hw
  | next =>
    exact ⟨settles_advance.held hbetween h.limited h.size_le timed_drain, .of_waiting settles_advance.waiting⟩

theorem markLost (seq : UInt32) : Held limits (s.markLost seq now).1 ∧ Reports s (s.markLost seq now) := by
  have hbetween : Between (s.markLost seq now).1 := (markLost_spec h.toBetween).1
  have hcase := markLost_cases s seq now
  generalize s.markLost seq now = out at hcase hbetween ⊢
  cases hcase with
  | start | behind => exact ⟨h, .of_waiting fun hw => hw⟩
  | later =>
    exact ⟨⟨hbetween, h.limited, h.size_le, fun _ _ => Option.some_ne_none _⟩, .of_waiting fun hw => hw⟩
  | lost e he =>
    have hsize : (s.skipped e).buffered.size = s.buffered.size := congrArg OrderedMap.size setExpected_buffered
    exact ⟨settles_drain.held hbetween (setExpected_limits.trans h.limited) (hsize.le.trans h.size_le)
      timed_drain, fun _ _ => settles_drain.request rfl⟩

variable [Sub T] [LT T] [DecidableLT T]

theorem expire : Held limits (s.expire now).1 ∧ Reports s (s.expire now) := by
  have hbetween : Between (s.expire now).1 := (expire_spec h.toBetween).1
  have hcase := h.expire_cases now
  generalize s.expire now = out at hcase hbetween ⊢
  cases hcase with
  | start p r he =>
    exact ⟨⟨hbetween, h.limited, (List.length_filter_le _ _).trans h.size_le, absurd he⟩,
      .of_waiting fun hw => hw⟩
  | early => exact ⟨h, .of_waiting fun hw => hw⟩
  | due out _ _ hexpired =>
    refine ⟨⟨hbetween, hexpired.limits.trans h.limited, ?_, fun _ => absurd hexpired.empty⟩, ?_⟩
    · rw [hexpired.empty]
      exact Nat.zero_le _
    · intro hw hw'
      have hrequest := (hexpired.request hw').resolve_left (by simp [hw])
      simp [hrequest]

/-- Behind the timeout everything that is buffered is dropped, in no more rounds than there are frames. -/
theorem expire_due (hexp : s.expected ≠ none) {since : T} (hgap : s.gapSince = some since)
    (hdue : ¬ now - since < s.gapTimeoutMs) :
    (∀ fuel, s.buffered.size ≤ fuel → expireLoop fuel s {} now = expireLoop s.buffered.size s {} now) ∧
      (s.expire now).1.buffered.size = 0 ∧ (s.expire now).2.ready = [] ∧
      (s.expire now).1.gapSince = none := by
  have hcase := h.expire_cases now
  generalize s.expire now = out at hcase ⊢
  cases hcase with
  | start p r he => exact absurd he hexp
  | early _ hearly => exact absurd (hearly since hgap) hdue
  | due out _ hout hexpired =>
    exact ⟨fun fuel hfuel => (hout fuel hfuel).trans (hout _ le_rfl).symm, hexpired.empty, hexpired.ready, rfl⟩

/-- One call keeps `Held`, and `Reports` when it begins to wait for a keyframe. -/
theorem call (c : SequencerCall T) : Held limits (s.call c).1 ∧ Reports s (s.call c) := by
  cases c with
  | push frame now => exact h.push
  | markLost seq now => exact h.markLost seq
  | expire now => exact h.expire

theorem run (calls : List (SequencerCall T)) : Held limits (s.run calls).1 := by
  induction calls generalizing s with
  | nil => exact h
  | cons c cs ih => exact ih (h.call c).1

end Held

theorem held_new (gapTimeoutMs : T) (maxBufferedFrames : Nat) :
    Held (maxBufferedFrames, gapTimeoutMs) ({ gapTimeoutMs, maxBufferedFrames } : FrameSequencer T) :=
  ⟨between_new gapTimeoutMs maxBufferedFrames, rfl, Nat.zero_le _, absurd rfl⟩

end FrameSequencer

variable {T : Type} [Sub T] [LT T] [DecidableLT T]

open FrameSequencer in
/-- After every run behind the first keyframe the buffer is what `expire` relies on: a due `expire` ends,
drops all of it and stops the gap timer. A call that begins to wait for a keyframe asks for one. -/
theorem representation_invariant (gapTimeoutMs : T) (maxBufferedFrames : Nat)
    (calls : List (SequencerCall T)) :
    let s := (({ gapTimeoutMs, maxBufferedFrames } : FrameSequencer T).run calls).1
    (∀ e, s.expected = some e →
      (∀ x ∈ s.buffered.entries, x.1 = x.2.seq ∧ 0 < sequenceDistance x.2.seq e ∧
        sequenceDistance x.2.seq e < 2 ^ 31 ∧ x.2.keyframe = false) ∧
      s.buffered.size ≤ maxBufferedFrames ∧ (s.buffered.size ≠ 0 → ∃ since, s.gapSince = some since) ∧
      ∀ now since, s.gapSince = some since → ¬ now - since < gapTimeoutMs →
        (∀ fuel, s.buffered.size ≤ fuel → expireLoop fuel s {} now = expireLoop s.buffered.size s {} now) ∧
        (s.expire now).1.buffered.size = 0 ∧ (s.expire now).2.ready = [] ∧
        (s.expire now).1.gapSince = none) ∧
    ∀ c, s.waitingForKeyframe = false → (s.call c).1.waitingForKeyframe = true →
      (s.call c).2.requestKeyframe = true := by
  intro s
  have h : Held (maxBufferedFrames, gapTimeoutMs) s := (held_new gapTimeoutMs maxBufferedFrames).run calls
  refine ⟨fun e he => ⟨fun x hx => ?_, h.size_le, fun hne => ?_, fun now since hgap hdue => ?_⟩,
    fun c => (h.call c).2⟩
  · obtain ⟨hkey, hdelta⟩ := h.keyed x hx
    have hpos : dist x.1 e ≠ 0 := fun hzero => h.strict e he x hx (dist_eq_zero.mp hzero)
    exact ⟨hkey, hkey ▸ Nat.pos_of_ne_zero hpos, hkey ▸ h.ahead e he x hx, hdelta⟩
  · exact Option.ne_none_iff_exists'.mp (h.timed (by simp [he]) hne)
  · have htimeout : s.gapTimeoutMs = gapTimeoutMs := congrArg Prod.snd h.limited
    exact h.expire_due (by simp [he]) hgap (htimeout ▸ hdue)

end Rustcast.Browser
