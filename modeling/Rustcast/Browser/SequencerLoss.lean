import Rustcast.Browser.SequencerChain
import Rustcast.Core.Lts

/-!
# Loss accounting of the sequencer

Every call of a `FrameSequencer` reports how many frames were dropped. An `Account` adds these
numbers up beside the frames that were returned, and is `Balanced` when together they are the
positions that the sequencer has moved past.

`Passes` says that this holds for every computation inside a call. Two branches of `push` count more
than the counter moves (`Between.push_counted`): a keyframe counts the gap that it jumps over and, once more,
each buffered frame that it supersedes there; and a delta that a full buffer has no room for is
counted at once and again when its turn is passed over.
-/

namespace Rustcast.Browser

open SeqNum SequencerCall FrameSequencer

variable {T : Type}

variable {e : UInt32} {c : SequencerCall T}

namespace FrameSequencer

section

variable {s : FrameSequencer T} {frame : EncodedFrame T} {now : T}

/-- The keyframe supersedes nothing that is buffered, and a delta that has to wait finds room. -/
def PushAccounted (s : FrameSequencer T) (frame : EncodedFrame T) : Prop :=
  (frame.keyframe = true → ∀ x ∈ s.buffered.entries, superseded frame.seq x.1 = false) ∧
    (frame.keyframe = false → s.expected ≠ some frame.seq → s.buffered.size < s.maxBufferedFrames)

instance (s : FrameSequencer T) (frame : EncodedFrame T) : Decidable (s.PushAccounted frame) :=
  inferInstanceAs (Decidable (_ ∧ _))

theorem position_restarted {seq : UInt32} (he : s.expected = some e) :
    (s.restarted seq).position = s.position + dist seq e :=
  setExpected_position he

/-- What `push` counts too much. -/
theorem Between.push_counted (h : Between s) (he : s.expected = some e) (hlt : dist frame.seq e < half) :
    (s.push frame now).1.expected ≠ none ∧
      ∃ extra, s.position + ((s.push frame now).2.ready.length + (s.push frame now).2.dropped) =
          (s.push frame now).1.position + extra ∧
        (extra = 0 ↔ PushAccounted s frame) := by
  have hcase := push_cases s frame now
  generalize s.push frame now = out at hcase ⊢
  cases hcase with
  | startFull hnone | startBuffer hnone | start hnone =>
    -- the first keyframe is behind us
    rw [he] at hnone
    cases hnone
  | late e' he' hlate =>
    rw [he] at he'
    cases he'
    omega
  | jump e' he' _ hkey =>
    rw [he] at he'
    cases he'
    obtain ⟨-, hexp, hpasses⟩ := h.toCore.restart
      { dropped := (s.dropSuperseded frame.seq).2 + dist frame.seq e } now (by simpa [he] using hlt) hkey
    have hcounted := hpasses.counted
    unfold Counted at hcounted
    rw [position_restarted he] at hcounted
    refine ⟨hexp, (s.dropSuperseded frame.seq).2, ?_, ?_⟩
    · simp only [List.length_nil] at hcounted
      omega
    · -- the frames counted twice are the superseded ones
      show s.buffered.entries.countP _ = 0 ↔ _
      rw [List.countP_eq_zero]
      constructor
      · intro hnone
        exact ⟨fun _ => by simpa using hnone, fun hdelta => by simp [hkey] at hdelta⟩
      · intro hok x hx
        simp [hok.1 hkey x hx]
  | full e' he' _ hdelta hpos hfull =>
    rw [he] at he'
    cases he'
    -- the delta is dropped at once, and its position passed later
    refine ⟨by simp [he], 1, rfl, ?_⟩
    constructor
    · intro hone
      cases hone
    · intro hok
      have hne : s.expected ≠ some frame.seq := by
        rw [he]
        intro heq
        cases heq
        simp at hpos
      have hroom := hok.2 hdelta hne
      omega
  | buffer e' he' _ hdelta hpos hroom =>
    refine ⟨by simp [he], 0, rfl, ?_⟩
    exact ⟨fun _ => ⟨fun hkey => by simp [hdelta] at hkey, fun _ _ => hroom⟩, fun _ => rfl⟩
  | next hseq hdelta =>
    obtain ⟨-, hexp, hpasses⟩ := h.toCore.advance {} now hseq (h.strict _ hseq) fun hw _ => h.synced hw
    have hcounted := hpasses.counted
    unfold Counted at hcounted
    refine ⟨hexp, 0, ?_, ?_⟩
    · simp only [List.length_nil] at hcounted
      omega
    · exact ⟨fun _ => ⟨fun hkey => by simp [hdelta] at hkey, fun _ => absurd hseq⟩, fun _ => rfl⟩

theorem Between.push_first (h : Between s) (hnone : s.expected = none) (hkey : frame.keyframe = true) :
    (s.push frame now).1.expected ≠ none := by
  have hcase := push_cases s frame now
  generalize s.push frame now = out at hcase ⊢
  cases hcase with
  | startFull _ hdelta | startBuffer _ hdelta => simp [hkey] at hdelta
  | start => exact (h.toCore.restart _ now (by simp [hnone]) hkey).2.1
  | late e he | jump e he | full e he | buffer e he | next he =>
    rw [hnone] at he
    cases he

theorem Between.markLost_counted (h : Between s) (seq : UInt32) (now : T) (he : s.expected = some e) :
    (s.markLost seq now).1.expected ≠ none ∧ Counted s {} (s.markLost seq now) := by
  have hcase := markLost_cases s seq now
  generalize s.markLost seq now = out at hcase ⊢
  cases hcase with
  | start | behind | later => exact ⟨by simp [he], rfl⟩
  | lost e he =>
    -- the expected frame itself is lost: one position, one drop
    obtain ⟨-, hexp, hpasses⟩ := h.skipped he { dropped := 1, requestKeyframe := true } now
    refine ⟨hexp, ?_⟩
    have hcounted := hpasses.counted
    have hposition : (s.skipped e).position = s.position + 1 := by
      rw [← dist_succ_self e]
      exact setExpected_position he
    unfold Counted at hcounted ⊢
    simp only [List.length_nil, hposition] at hcounted ⊢
    omega

variable [Sub T] [LT T] [DecidableLT T]

theorem Between.expire_counted (h : Between s) (now : T) (he : s.expected = some e) :
    (s.expire now).1.expected ≠ none ∧ Counted s {} (s.expire now) := by
  have hcase := h.expire_cases now
  generalize s.expire now = out at hcase ⊢
  cases hcase with
  | start p r hnone => cases he.symm.trans hnone
  | early hexp => exact ⟨hexp, rfl⟩
  | due out _ _ hexpired => exact ⟨hexpired.started, hexpired.counted⟩

end

end FrameSequencer

/-! ## Accounts -/

/-- A sequencer with what its calls have returned and reported since the account was opened. -/
structure Account (T : Type) where
  sequencer : FrameSequencer T
  emitted : Nat := 0
  dropped : Nat := 0

/-- The account of what the sequencer has moved past since its counter was at `base`. -/
def Balanced (base : Nat) (a : Account T) : Prop :=
  a.sequencer.position = base + (a.emitted + a.dropped)

/-- The call does not count a frame twice. -/
def Accounted (a : Account T) : SequencerCall T → Prop
  | .push frame _ => a.sequencer.PushAccounted frame
  | .markLost _ _ => True
  | .expire _ => True

/-- The sequence number that a call names. -/
def SequencerCall.seq? : SequencerCall T → Option UInt32
  | .push frame _ => some frame.seq
  | .markLost seq _ => some seq
  | .expire _ => none

def SequencerCall.pushed? : SequencerCall T → Option UInt32
  | .push frame _ => some frame.seq
  | _ => none

/-- The expected number has not passed the one that the call names. -/
def NotPassed (a : Account T) (c : SequencerCall T) : Prop :=
  ∀ seq ∈ c.seq?, ∀ e ∈ a.sequencer.expected, e.toNat ≤ seq.toNat

/-- The call names a number below 2^31 that is not passed. -/
def InTime (a : Account T) (c : SequencerCall T) : Prop :=
  NotPassed a c ∧ ∀ seq ∈ c.seq?, seq.toNat < 2 ^ 31

theorem InTime.dist_lt {a : Account T} (h : InTime a c) (he : a.sequencer.expected = some e) :
    ∀ seq ∈ c.pushed?, dist seq e < half := by
  intro seq hseq
  have hnamed : seq ∈ c.seq? := by
    cases c with
    | push frame now => exact hseq
    | markLost seq' now => cases hseq
    | expire now => cases hseq
  have hle := h.1 seq hnamed e he
  have hbelow := h.2 seq hnamed
  rw [dist_eq]
  show _ < 2 ^ 31
  omega

variable [Sub T] [LT T] [DecidableLT T]

def Account.step (a : Account T) (c : SequencerCall T) : Option (Account T) :=
  some {
    sequencer := (a.sequencer.call c).1
    emitted := a.emitted + (a.sequencer.call c).2.ready.length
    dropped := a.dropped + (a.sequencer.call c).2.dropped }

/-- Each sequence number is pushed once, none is pushed or marked lost once it is passed, and all
stay below 2^31; `earlier` are the calls before those that are accounted for. -/
structure OrderlyRun (earlier : List (SequencerCall T)) (a : Account T)
    (calls : List (SequencerCall T)) : Prop where
  once : ((earlier ++ calls).filterMap pushed?).Nodup
  below : ∀ seq ∈ (earlier ++ calls).filterMap seq?, seq.toNat < 2 ^ 31
  notPassed : Lts.Along Account.step NotPassed a calls

theorem call_counted {s : FrameSequencer T} (h : s.Between) (he : s.expected = some e)
    (hlt : ∀ seq ∈ c.pushed?, dist seq e < half) :
    (s.call c).1.expected ≠ none ∧
      ∃ extra, s.position + ((s.call c).2.ready.length + (s.call c).2.dropped) =
          (s.call c).1.position + extra ∧
        (extra = 0 ↔ Accounted { sequencer := s } c) := by
  cases c with
  | push frame now => exact h.push_counted he (hlt _ rfl)
  | markLost seq now =>
    obtain ⟨hexp, hcounted⟩ := h.markLost_counted seq now he
    exact ⟨hexp, 0, hcounted.symm, by simp [Accounted]⟩
  | expire now =>
    obtain ⟨hexp, hcounted⟩ := h.expire_counted now he
    exact ⟨hexp, 0, hcounted.symm, by simp [Accounted]⟩

/-- What holds of an account from the first keyframe on, as long as it is balanced. -/
structure Account.Sound (base : Nat) (a : Account T) : Prop where
  between : a.sequencer.Between
  started : a.sequencer.expected ≠ none
  balanced : Balanced base a

/-- One call keeps the balance exactly if it counts nothing twice. -/
theorem Account.Sound.step {base : Nat} {a a' : Account T} (h : a.Sound base) (htime : InTime a c)
    (hstep : a.step c = some a') :
    a'.sequencer.Between ∧ a'.sequencer.expected ≠ none ∧ (Balanced base a' ↔ Accounted a c) := by
  cases hstep
  obtain ⟨e, he⟩ := Option.ne_none_iff_exists'.mp h.started
  obtain ⟨hexp, extra, hcount, hextra⟩ := call_counted h.between he (htime.dist_lt he)
  refine ⟨(call_spec h.between c).1, hexp, ?_⟩
  have hbalanced : a.sequencer.position = base + (a.emitted + a.dropped) := h.balanced
  have haccounted : Accounted { sequencer := a.sequencer } c ↔ Accounted a c := by
    cases c <;> rfl
  rw [← haccounted, ← hextra]
  show (a.sequencer.call c).1.position = base + (a.emitted + (a.sequencer.call c).2.ready.length +
    (a.dropped + (a.sequencer.call c).2.dropped)) ↔ extra = 0
  omega

/-- After the first keyframe, the positions passed are the frames returned and the drops reported,
throughout exactly the orderly runs in which no keyframe supersedes a buffered frame and no delta
finds the buffer full. -/
theorem loss_accounting_iff (gapTimeoutMs : T) (maxBufferedFrames : Nat)
    (before after : List (SequencerCall T)) (first : EncodedFrame T) (now : T)
    (hkey : first.keyframe = true)
    (hbefore : (({ gapTimeoutMs, maxBufferedFrames } : FrameSequencer T).run before).1.expected = none) :
    let started :=
      ((({ gapTimeoutMs, maxBufferedFrames } : FrameSequencer T).run before).1.push first now).1
    OrderlyRun (before ++ [.push first now]) { sequencer := started } after →
      (Lts.Throughout Account.step (Balanced started.position) { sequencer := started } after ↔
        Lts.Along Account.step Accounted { sequencer := started } after) := by
  intro started horderly
  obtain ⟨hwaiting, -⟩ := run_spec
    (between_new gapTimeoutMs maxBufferedFrames) before
  have hbetween : started.Between := (call_spec hwaiting (.push first now)).1
  have hsound : ({ sequencer := started } : Account T).Sound started.position :=
    ⟨hbetween, hwaiting.push_first hbefore hkey, rfl⟩
  have htime : Lts.Along Account.step InTime { sequencer := started } after := by
    refine horderly.notPassed.and (Lts.along_of_forall_mem ?_)
    intro c hc _ seq hseq
    exact horderly.below seq (List.mem_filterMap.2 ⟨c, List.mem_append_right _ hc, hseq⟩)
  refine Lts.throughout_iff_along_given (fun _ h => h.balanced) ?_ ?_ ?_ hsound htime
  · intro a c a' h htime hok hstep
    obtain ⟨h1, h2, h3⟩ := h.step htime hstep
    exact ⟨h1, h2, h3.2 hok⟩
  · intro a c a' h htime hstep hbalanced
    exact (h.step htime hstep).2.2.1 hbalanced
  · intro a c hnone
    cases hnone

/-! ## A frame that is counted twice -/

def sampleFrame (seq : UInt32) (keyframe : Bool) : EncodedFrame Nat :=
  { seq, keyframe, data := [], receivedAt := 0 }

/-- A sequencer with the default limits that has returned keyframe 0. -/
def startedSequencer : FrameSequencer Nat :=
  (({ gapTimeoutMs := 100, maxBufferedFrames := 256 } : FrameSequencer Nat).push (sampleFrame 0 true) 0).1

def sampleCall (seq : UInt32) (keyframe : Bool) : SequencerCall Nat :=
  .push (sampleFrame seq keyframe) 1

instance (a : Account T) (c : SequencerCall T) : Decidable (NotPassed a c) :=
  match hseq : c.seq?, he : a.sequencer.expected with
  | none, _ => isTrue (by simp [NotPassed, hseq])
  | some _, none => isTrue (by simp [NotPassed, he])
  | some seq, some e => decidable_of_iff (e.toNat ≤ seq.toNat) (by simp [NotPassed, hseq, he])

instance (a : Account T) (c : SequencerCall T) : Decidable (Accounted a c) := by
  unfold Accounted
  split <;> infer_instance

instance (base : Nat) (a : Account T) : Decidable (Balanced base a) :=
  inferInstanceAs (Decidable (_ = _))

theorem loss_accounting_reordered :
    Lts.Throughout Account.step (Balanced 1) { sequencer := startedSequencer }
      [sampleCall 2 false, sampleCall 1 false] := by
  have horderly : OrderlyRun ([] ++ [.push (sampleFrame 0 true) 0]) { sequencer := startedSequencer }
      [sampleCall 2 false, sampleCall 1 false] :=
    ⟨by decide, by simp [sampleCall, sampleFrame, seq?], by decide⟩
  exact (loss_accounting_iff 100 256 [] [sampleCall 2 false, sampleCall 1 false]
    (sampleFrame 0 true) 0 rfl rfl horderly).2 (by decide)

/-- Keyframe 3 jumps over the missing frame 1 and the buffered frame 2: three positions are passed
with one frame returned, but three drops are reported. -/
theorem keyframe_jump_counts_twice :
    OrderlyRun [.push (sampleFrame 0 true) 0] { sequencer := startedSequencer }
        [sampleCall 2 false, sampleCall 3 true] ∧
      (Lts.run Account.step { sequencer := startedSequencer }
        [sampleCall 2 false, sampleCall 3 true]).map
          (fun a => (a.sequencer.position - startedSequencer.position, a.emitted, a.dropped)) =
        some (3, 1, 3) ∧
      ¬ Lts.Throughout Account.step (Balanced startedSequencer.position)
        { sequencer := startedSequencer } [sampleCall 2 false, sampleCall 3 true] :=
  ⟨⟨by decide, by simp [sampleCall, sampleFrame, seq?], by decide⟩, by decide, by decide⟩

end Rustcast.Browser
