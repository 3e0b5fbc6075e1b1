import Rustcast.Browser.FrameSequencer
import Rustcast.Core.DecodeChain

/-!
# The sequencer emits a decode chain

Two invariants carry the proof. `Core` holds at every assignment inside a call: the buffer
holds deltas that are not behind `expected`, and what was emitted so far is a chain below
`position`. `Between` is what holds when a call returns: `Core`, nothing buffered at
`expected` itself, and, unless the sequencer waits for a keyframe, the last emitted frame
is the one just before `expected`.
-/

namespace Rustcast.Browser

open SeqNum FrameSequencer OrderedMap

variable {T : Type}

/-- The link of the emitted history: the next sequence number at the next position. -/
def NextFrame (a b : Nat × EncodedFrame T) : Prop := b.2.seq = a.2.seq + 1 ∧ b.1 = a.1 + 1

variable {s' : FrameSequencer T} {r' : SequenceResult T} {x : UInt32 × EncodedFrame T} {seq : UInt32}

variable {out : FrameSequencer T × SequenceResult T}

namespace FrameSequencer

structure Core (s : FrameSequencer T) : Prop where
  keyed : ∀ x ∈ s.buffered.entries, x.1 = x.2.seq ∧ x.2.keyframe = false
  ahead : ∀ e, s.expected = some e → ∀ x ∈ s.buffered.entries, dist x.1 e < half
  aligned : ∀ e, s.expected = some e → s.position % 2 ^ 32 = e.toNat
  moves : ∀ m ∈ s.moves, m < half
  chain : DecodeChain (fun x => x.2.keyframe) NextFrame s.emitted
  increasing : s.emitted.Pairwise fun a b => a.1 < b.1
  below : ∀ x ∈ s.emitted, x.1 < s.position
  tagged : ∀ x ∈ s.emitted, x.1 % 2 ^ 32 = x.2.seq.toNat
  silent : s.expected = none → s.emitted = []

variable (s : FrameSequencer T)

/-- The frame emitted last is the one before `expected`. -/
def Synced : Prop :=
  ∃ x ∈ s.emitted.getLast?, x.1 + 1 = s.position ∧ s.expected = some (x.2.seq + 1)

structure Between (s : FrameSequencer T) : Prop extends Core s where
  strict : ∀ e, s.expected = some e → ∀ x ∈ s.buffered.entries, x.1 ≠ e
  synced : s.waitingForKeyframe = false → s.Synced

/-- A computation only appends to what was emitted, and returns exactly what it appended. -/
def Emits (r : SequenceResult T) (out : FrameSequencer T × SequenceResult T) :
    Prop :=
  ∃ l, out.1.emitted = s.emitted ++ l ∧ out.2.ready = r.ready ++ l.map Prod.snd

theorem Emits.of_eq {s : FrameSequencer T} {r : SequenceResult T} (hs : s'.emitted = s.emitted)
    (hr : r'.ready = r.ready) : Emits s r (s', r') :=
  ⟨[], by simpa using hs, by simpa using hr⟩

theorem Emits.trans {s : FrameSequencer T} {r : SequenceResult T} (h : Emits s r (s', r'))
    (h' : Emits s' r' out) :
    Emits s r out := by
  obtain ⟨l, hs, hr⟩ := h
  obtain ⟨l', hs', hr'⟩ := h'
  refine ⟨l ++ l', ?_, ?_⟩
  · rw [hs', hs, List.append_assoc]
  · rw [hr', hr, List.map_append, List.append_assoc]

/-- The counter moves by one for each frame that is returned or counted as dropped. -/
def Counted (s : FrameSequencer T) (r : SequenceResult T)
    (out : FrameSequencer T × SequenceResult T) : Prop :=
  out.1.position + (r.ready.length + r.dropped) = s.position + (out.2.ready.length + out.2.dropped)

/-- What the computations inside a call do that move past frames one by one. -/
structure Passes (s : FrameSequencer T) (r : SequenceResult T)
    (out : FrameSequencer T × SequenceResult T) : Prop where
  emits : Emits s r out
  counted : Counted s r out

theorem Passes.refl (r : SequenceResult T) : Passes s r (s, r) :=
  ⟨.of_eq rfl rfl, rfl⟩

theorem Passes.trans {s : FrameSequencer T} {r : SequenceResult T} (h : Passes s r (s', r'))
    (h' : Passes s' r' out) :
    Passes s r out := by
  refine ⟨h.emits.trans h'.emits, ?_⟩
  have hfirst : s'.position + (r.ready.length + r.dropped) =
      s.position + (r'.ready.length + r'.dropped) := h.counted
  have hrest := h'.counted
  unfold Counted at hrest ⊢
  omega

/-! ## The assignments to `expected` -/

/-- What the constructor was given. -/
def limits : Nat × T := (s.maxBufferedFrames, s.gapTimeoutMs)

section setExpected

variable {s : FrameSequencer T} {e old : UInt32}

@[simp] theorem setExpected_expected : (s.setExpected e).expected = some e := by
  unfold setExpected
  cases s.expected <;> rfl

@[simp] theorem setExpected_buffered : (s.setExpected e).buffered = s.buffered := by
  unfold setExpected
  cases s.expected <;> rfl

@[simp] theorem setExpected_emitted : (s.setExpected e).emitted = s.emitted := by
  unfold setExpected
  cases s.expected <;> rfl

@[simp] theorem setExpected_waiting : (s.setExpected e).waitingForKeyframe = s.waitingForKeyframe := by
  unfold setExpected
  cases s.expected <;> rfl

@[simp] theorem setExpected_limits : (s.setExpected e).limits = s.limits := by
  unfold setExpected
  cases s.expected <;> rfl

theorem setExpected_position (h : s.expected = some old) :
    (s.setExpected e).position = s.position + dist e old := by
  unfold setExpected
  rw [h]
  rfl

/-- A forward move by less than half the circle that leaves no buffered frame behind. -/
theorem Core.setExpected (h : Core s) (hold : s.expected = some old) (hlt : dist e old < half)
    (hbuf : ∀ x ∈ s.buffered.entries, dist e old ≤ dist x.1 old) : Core (s.setExpected e) := by
  have hpos := setExpected_position (e := e) hold
  constructor
  case keyed => simpa using h.keyed
  case ahead =>
    intro e' he' x hx
    simp only [setExpected_expected, Option.some.injEq] at he'
    subst he'
    rw [setExpected_buffered] at hx
    rw [dist_of_le (hbuf x hx)]
    have := h.ahead old hold x hx
    omega
  case aligned =>
    intro e' he'
    simp only [setExpected_expected, Option.some.injEq] at he'
    subst he'
    rw [hpos]
    exact add_dist_mod (h.aligned old hold)
  case moves =>
    have hmoves : (s.setExpected e).moves = s.moves ++ [dist e old] := by
      unfold FrameSequencer.setExpected
      rw [hold]
      rfl
    rw [hmoves]
    intro m hm
    rcases List.mem_append.mp hm with hm | hm
    · exact h.moves m hm
    · rw [List.mem_singleton.mp hm]
      exact hlt
  case chain => simpa using h.chain
  case increasing => simpa using h.increasing
  case below =>
    rw [setExpected_emitted]
    intro x hx
    have := h.below x hx
    omega
  case tagged => simpa using h.tagged
  case silent =>
    intro hnone
    simp at hnone

/-- The first assignment starts the counter; it needs the buffer to be ahead already. -/
theorem Core.setExpected_first (h : Core s) (hnone : s.expected = none)
    (hbuf : ∀ x ∈ s.buffered.entries, dist x.1 e < half) : Core (s.setExpected e) := by
  have hset : s.setExpected e = { s with expected := some e, position := e.toNat } := by
    unfold FrameSequencer.setExpected
    rw [hnone]
  have hsilent := h.silent hnone
  rw [hset]
  constructor
  case keyed => exact h.keyed
  case ahead =>
    intro e' he' x hx
    cases he'
    exact hbuf x hx
  case aligned =>
    intro e' he'
    cases he'
    exact Nat.mod_eq_of_lt e.toNat_lt
  case moves => exact h.moves
  case chain => exact h.chain
  case increasing => exact h.increasing
  case below =>
    intro x hx
    rw [hsilent] at hx
    simp at hx
  case tagged => exact h.tagged
  case silent =>
    intro he
    cases he

/-- `Core` does not mention the keyframe flag and the gap timer, and survives deletions. -/
theorem Core.mono (h : Core s) (hbuf : ∀ x ∈ s'.buffered.entries, x ∈ s.buffered.entries)
    (hexp : s'.expected = s.expected) (hpos : s'.position = s.position) (hmoves : s'.moves = s.moves)
    (hem : s'.emitted = s.emitted) : Core s' where
  keyed := fun x hx => h.keyed x (hbuf x hx)
  ahead := fun e he x hx => h.ahead e (hexp ▸ he) x (hbuf x hx)
  aligned := fun e he => hpos ▸ h.aligned e (hexp ▸ he)
  moves := hmoves ▸ h.moves
  chain := hem ▸ h.chain
  increasing := hem ▸ h.increasing
  below := by
    rw [hem, hpos]
    exact h.below
  tagged := hem ▸ h.tagged
  silent := fun he => hem ▸ h.silent (hexp ▸ he)

def remove (s : FrameSequencer T) (k : UInt32) : FrameSequencer T :=
  { s with buffered := s.buffered.delete k }

theorem Core.remove (h : Core s) (k : UInt32) : Core (s.remove k) :=
  h.mono (fun _ hx => (mem_delete.mp hx).1) rfl rfl rfl rfl

theorem ne_of_mem_remove {k : UInt32} (hx : x ∈ (s.remove k).buffered.entries) :
    x.1 ≠ k := (mem_delete.mp hx).2

end setExpected

/-! ## `consume` and `drain` -/

section drain

variable {s : FrameSequencer T} {r : SequenceResult T} {frame : EncodedFrame T} {now : T}

@[simp] theorem consume_buffered : (s.consume r frame).1.buffered = s.buffered := by
  unfold consume
  split <;> simp

/-- The state after an emission of the expected frame, in one piece: the history entry sits
at the position that the move leaves. -/
def emit (s : FrameSequencer T) (frame : EncodedFrame T) : FrameSequencer T :=
  { s with
    waitingForKeyframe := if frame.keyframe then false else s.waitingForKeyframe
    position := s.position + 1
    expected := some (frame.seq + 1)
    moves := s.moves ++ [1]
    emitted := s.emitted ++ [(s.position, frame)] }

theorem consume_skip (h : (s.waitingForKeyframe && !frame.keyframe) = true) :
    s.consume r frame = (s.setExpected (frame.seq + 1), { r with
      dropped := r.dropped + 1
      awaitingKeyframe := r.awaitingKeyframe + 1
      requestKeyframe := true }) := by
  unfold consume
  rw [if_pos h]

theorem consume_emit (hexp : s.expected = some frame.seq)
    (h : ¬(s.waitingForKeyframe && !frame.keyframe) = true) :
    s.consume r frame = (s.emit frame, { r with ready := r.ready ++ [frame] }) := by
  unfold consume
  rw [if_neg h]
  unfold setExpected emit sequenceDistance
  simp only [hexp, dist_succ_self]

/-- Nothing buffered is at or behind the frame that is consumed, so the next number is not
past anything buffered. -/
theorem succ_dist_le (hbuf : ∀ x ∈ s.buffered.entries, x.1 ≠ seq) :
    ∀ x ∈ s.buffered.entries, dist (seq + 1) seq ≤ dist x.1 seq := by
  intro x hx
  have hne : dist x.1 seq ≠ 0 := fun h0 => hbuf x hx (dist_eq_zero.mp h0)
  rw [dist_succ_self]
  omega

theorem Core.emit (h : Core s) (hexp : s.expected = some frame.seq)
    (hbuf : ∀ x ∈ s.buffered.entries, x.1 ≠ frame.seq)
    (hdelta : frame.keyframe = false → s.Synced) : Core (s.emit frame) := by
  constructor
  case keyed => exact h.keyed
  case ahead =>
    intro e he x hx
    cases he
    have hx' := h.ahead _ hexp x hx
    have hne := succ_dist_le hbuf x hx
    rw [dist_succ_self] at hne
    rw [dist_succ_right (by omega)]
    omega
  case aligned =>
    intro e he
    cases he
    have := add_dist_mod (a := frame.seq + 1) (h.aligned _ hexp)
    rwa [dist_succ_self] at this
  case moves =>
    intro m hm
    rcases List.mem_append.mp hm with hm | hm
    · exact h.moves m hm
    · rw [List.mem_singleton.mp hm]
      decide
  case chain =>
    -- a delta is only emitted in step with the frame before it
    refine h.chain.snoc fun hkey => ?_
    obtain ⟨x, hx, hpos, hseq⟩ := hdelta hkey
    rw [hexp] at hseq
    exact ⟨x, hx, Option.some.inj hseq, hpos.symm⟩
  case increasing =>
    show (s.emitted ++ [(s.position, frame)]).Pairwise _
    rw [List.pairwise_append]
    refine ⟨h.increasing, List.pairwise_singleton _ _, ?_⟩
    intro x hx y hy
    rw [List.mem_singleton.mp hy]
    exact h.below x hx
  case below =>
    intro x hx
    rcases List.mem_append.mp hx with hx | hx
    · exact Nat.lt_succ_of_lt (h.below x hx)
    · rw [List.mem_singleton.mp hx]
      exact Nat.lt_succ_self _
  case tagged =>
    intro x hx
    rcases List.mem_append.mp hx with hx | hx
    · exact h.tagged x hx
    · rw [List.mem_singleton.mp hx]
      exact h.aligned _ hexp
  case silent =>
    intro he
    cases he

/-- Consuming the expected frame. The hypothesis `hlink` is what `Between.synced` provides;
a keyframe does not need it. -/
theorem Core.consume (h : Core s) (hexp : s.expected = some frame.seq)
    (hbuf : ∀ x ∈ s.buffered.entries, x.1 ≠ frame.seq)
    (hlink : s.waitingForKeyframe = false → frame.keyframe = false → s.Synced) :
    Core (s.consume r frame).1 ∧
      (s.consume r frame).1.expected = some (frame.seq + 1) ∧
      ((s.consume r frame).1.waitingForKeyframe = false → (s.consume r frame).1.Synced) ∧
      Passes s r (s.consume r frame) := by
  by_cases hskip : (s.waitingForKeyframe && !frame.keyframe) = true
  · -- a delta while waiting: only `expected` moves
    have hwait : s.waitingForKeyframe = true := (Bool.and_eq_true _ _ ▸ hskip).1
    have hstep : dist (frame.seq + 1) frame.seq < half := by
      rw [dist_succ_self]
      decide
    rw [consume_skip hskip]
    refine ⟨h.setExpected hexp hstep (succ_dist_le hbuf), by simp, ?_, .of_eq (by simp) rfl, ?_⟩
    · intro hwait'
      rw [setExpected_waiting, hwait] at hwait'
      cases hwait'
    · show (s.setExpected (frame.seq + 1)).position + _ = s.position + (r.ready.length + (r.dropped + 1))
      rw [setExpected_position hexp, dist_succ_self]
      omega
  · have hdelta : frame.keyframe = false → s.Synced := by
      intro hkey
      refine hlink ?_ hkey
      simpa [hkey] using hskip
    rw [consume_emit hexp hskip]
    refine ⟨h.emit hexp hbuf hdelta, rfl, fun _ => ?_, ⟨[(s.position, frame)], rfl, rfl⟩, ?_⟩
    · exact ⟨(s.position, frame), by simp [FrameSequencer.emit], rfl, rfl⟩
    · show s.position + 1 + _ = s.position + ((r.ready ++ [frame]).length + r.dropped)
      rw [List.length_append, List.length_singleton]
      omega

theorem drainLoop_stop (fuel : Nat) {e : UInt32} (he : s.expected = some e)
    (hget : s.buffered.get? e = none) : drainLoop (fuel + 1) s r = (s, r) := by
  simp only [drainLoop, he, hget]

theorem drainLoop_succ (fuel : Nat) {e : UInt32} (he : s.expected = some e)
    (hget : s.buffered.get? e = some frame) :
    drainLoop (fuel + 1) s r =
      drainLoop fuel ((s.remove e).consume r frame).1 ((s.remove e).consume r frame).2 := by
  simp only [drainLoop, he, hget, remove]

/-- The loop of `drain` keeps the invariant and never grows the buffer. With the buffer's
size as fuel it stops because nothing is buffered at `expected`. -/
theorem drainLoop_spec (fuel : Nat) (h : Core s) (hexp : s.expected ≠ none)
    (hsync : s.waitingForKeyframe = false → s.Synced) :
    Core (drainLoop fuel s r).1 ∧ (drainLoop fuel s r).1.expected ≠ none ∧
      ((drainLoop fuel s r).1.waitingForKeyframe = false → (drainLoop fuel s r).1.Synced) ∧
      Passes s r (drainLoop fuel s r) ∧
      (drainLoop fuel s r).1.buffered.size ≤ s.buffered.size ∧
      (s.buffered.size ≤ fuel → ∀ e, (drainLoop fuel s r).1.expected = some e →
        ∀ x ∈ (drainLoop fuel s r).1.buffered.entries, x.1 ≠ e) := by
  induction fuel generalizing s r with
  | zero =>
    refine ⟨h, hexp, hsync, .refl s r, le_rfl, ?_⟩
    intro hsize e _ x hx
    have hnil := size_eq_zero.mp (Nat.le_zero.mp hsize)
    rw [drainLoop, hnil] at hx
    cases hx
  | succ fuel ih =>
    obtain ⟨e, he⟩ := Option.ne_none_iff_exists'.mp hexp
    cases hget : s.buffered.get? e with
    | none =>
      rw [drainLoop_stop fuel he hget]
      refine ⟨h, hexp, hsync, .refl s r, le_rfl, ?_⟩
      intro _ e' he' x hx
      rw [he] at he'
      cases he'
      exact get?_eq_none hget hx
    | some next =>
      have hmem := mem_of_get? hget
      have hkey : e = next.seq := (h.keyed _ hmem).1
      have hlt : (s.remove e).buffered.size < s.buffered.size := size_delete_lt hmem
      obtain ⟨c1, c2, c3, c4⟩ := (h.remove e).consume (he.trans (congrArg some hkey))
        (fun _ => hkey ▸ ne_of_mem_remove) (fun hw _ => hsync hw)
      obtain ⟨i1, i2, i3, i4, i5, i6⟩ := ih c1 (by rw [c2]; simp) c3
      rw [consume_buffered] at i5 i6
      rw [drainLoop_succ fuel he hget]
      have hconsumed : Passes s r ((s.remove e).consume r next) := ⟨c4.emits, c4.counted⟩
      exact ⟨i1, i2, i3, hconsumed.trans i4, by omega, fun hsize => i6 (by omega)⟩

theorem drain_spec (now : T) (h : Core s) (hexp : s.expected ≠ none)
    (hsync : s.waitingForKeyframe = false → s.Synced) :
    Between (s.drain r now).1 ∧ (s.drain r now).1.expected ≠ none ∧
      Passes s r (s.drain r now) ∧ (s.drain r now).1.buffered.size ≤ s.buffered.size := by
  obtain ⟨h1, h2, h3, h4, h5, h6⟩ := drainLoop_spec s.buffered.size h hexp hsync
  unfold drain
  exact ⟨⟨h1.mono (fun _ hx => hx) rfl rfl rfl rfl, h6 le_rfl, h3⟩, h2, ⟨h4.emits, h4.counted⟩, h5⟩

end drain

/-! ## `nextBuffered` and the loop of `expire` -/

section expire

variable {s : FrameSequencer T} {r : SequenceResult T} {now : T}

/-- The scan of `nextBuffered`: the accumulator or a scanned frame, and no farther than
either. -/
theorem foldl_nearest (expected : UInt32) (l : List (EncodedFrame T))
    (acc : Nat × Option (EncodedFrame T)) :
    let best := l.foldl (fun (nearest : Nat × Option (EncodedFrame T)) frame =>
      let distance := sequenceDistance frame.seq expected
      if distance < nearest.1 then (distance, some frame) else nearest) acc
    (best = acc ∨ ∃ f ∈ l, best = (dist f.seq expected, some f)) ∧
      best.1 ≤ acc.1 ∧ ∀ f ∈ l, best.1 ≤ dist f.seq expected := by
  induction l generalizing acc with
  | nil => exact ⟨.inl rfl, le_rfl, by simp⟩
  | cons g rest ih =>
    rw [List.foldl_cons]
    by_cases hlt : sequenceDistance g.seq expected < acc.1
    · simp only [hlt, if_true]
      obtain ⟨hfrom, hle, hall⟩ := ih (sequenceDistance g.seq expected, some g)
      refine ⟨.inr ?_, hle.trans hlt.le, ?_⟩
      · rcases hfrom with hfrom | ⟨f, hf, hfrom⟩
        · exact ⟨g, List.mem_cons_self, hfrom⟩
        · exact ⟨f, List.mem_cons_of_mem _ hf, hfrom⟩
      · intro f hf
        rcases List.mem_cons.mp hf with rfl | hf
        · exact hle
        · exact hall f hf
    · simp only [hlt, if_false]
      obtain ⟨hfrom, hle, hall⟩ := ih acc
      refine ⟨?_, hle, ?_⟩
      · rcases hfrom with hfrom | ⟨f, hf, hfrom⟩
        · exact .inl hfrom
        · exact .inr ⟨f, List.mem_cons_of_mem _ hf, hfrom⟩
      · intro f hf
        rcases List.mem_cons.mp hf with rfl | hf
        · exact hle.trans (Nat.le_of_not_lt hlt)
        · exact hall f hf

theorem Core.nextBuffered (h : Core s) {e : UInt32} (he : s.expected = some e)
    (hne : s.buffered.size ≠ 0) :
    ∃ next, s.nextBuffered = some next ∧ (next.seq, next) ∈ s.buffered.entries ∧
      ∀ x ∈ s.buffered.entries, dist next.seq e ≤ dist x.1 e := by
  have hmem : ∀ f ∈ s.buffered.values, (f.seq, f) ∈ s.buffered.entries := by
    intro f hf
    obtain ⟨x, hx, rfl⟩ := List.mem_map.mp hf
    have hkey := (h.keyed x hx).1
    exact hkey ▸ hx
  obtain ⟨y, rest, hy⟩ := List.exists_cons_of_ne_nil (mt size_eq_zero.mpr hne)
  have hyv : y.2 ∈ s.buffered.values := List.mem_map.mpr ⟨y, hy ▸ List.mem_cons_self, rfl⟩
  obtain ⟨hfrom, -, hall⟩ := foldl_nearest e s.buffered.values (0xffffffff, none)
  -- some entry is closer than the initial bound, so the scan does not end where it began
  have hylt : dist y.2.seq e < half := h.ahead e he _ (hmem _ hyv)
  rcases hfrom with hfrom | ⟨f, hf, hfrom⟩
  · have := hall _ hyv
    rw [hfrom] at this
    simp only [half] at hylt
    omega
  · refine ⟨f, ?_, hmem f hf, ?_⟩
    · simp only [FrameSequencer.nextBuffered, he]
      exact congrArg Prod.snd hfrom
    · intro x hx
      have hle := hall x.2 (List.mem_map.mpr ⟨x, hx, rfl⟩)
      rw [hfrom, ← (h.keyed x hx).1] at hle
      exact hle

/-- The move of one round of `expire` to the nearest buffered frame. -/
def moveTo (s : FrameSequencer T) (r : SequenceResult T) (next : EncodedFrame T) (e : UInt32) :
    FrameSequencer T × SequenceResult T :=
  if sequenceDistance next.seq e < half ∧ 0 < sequenceDistance next.seq e then
    ({ s.setExpected next.seq with waitingForKeyframe := true },
      { r with dropped := r.dropped + sequenceDistance next.seq e, requestKeyframe := true })
  else (s, r)

/-- Unless the nearest frame is expected, and wanted, the move leaves the sequencer waiting. -/
theorem Core.moveTo (h : Core s) {e : UInt32} (he : s.expected = some e)
    (hskip : s.waitingForKeyframe = true ∨ Between s) {next : EncodedFrame T}
    (hmem : (next.seq, next) ∈ s.buffered.entries)
    (hnear : ∀ x ∈ s.buffered.entries, dist next.seq e ≤ dist x.1 e) :
    Core (moveTo s r next e).1 ∧ (moveTo s r next e).1.expected = some next.seq ∧
      (moveTo s r next e).1.waitingForKeyframe = true ∧ (moveTo s r next e).2.ready = r.ready ∧
      Passes s r (moveTo s r next e) ∧ (moveTo s r next e).1.buffered = s.buffered ∧
      (moveTo s r next e).1.limits = s.limits := by
  have hlt := h.ahead e he _ hmem
  unfold FrameSequencer.moveTo sequenceDistance
  by_cases hpos : 0 < dist next.seq e
  · rw [if_pos ⟨hlt, hpos⟩]
    refine ⟨(h.setExpected he hlt hnear).mono (fun _ hx => hx) rfl rfl rfl rfl, by simp, rfl, rfl,
      ⟨.of_eq (by simp) rfl, ?_⟩, by simp, setExpected_limits⟩
    show (s.setExpected next.seq).position + _ = s.position + (r.ready.length + (r.dropped + dist next.seq e))
    rw [setExpected_position he]
    omega
  · rw [if_neg (fun hc => hpos hc.2)]
    have hseq : next.seq = e := dist_eq_zero.mp (by omega)
    have hwait := hskip.resolve_right fun hb => hb.strict e he _ hmem hseq
    exact ⟨h, hseq ▸ he, hwait, rfl, .refl s r, rfl, rfl⟩

/-- A round of `expire`: it drops the nearest frame, which is a delta behind a hole. -/
theorem Core.expireLoop_round (h : Core s) (hexp : s.expected ≠ none) (hne : s.buffered.size ≠ 0)
    (hskip : s.waitingForKeyframe = true ∨ Between s) (r : SequenceResult T) (now : T) :
    ∃ t r', (∀ fuel, expireLoop (fuel + 1) s r now = expireLoop fuel t r' now) ∧ Core t ∧
      t.expected ≠ none ∧ t.waitingForKeyframe = true ∧ t.buffered.size < s.buffered.size ∧
      t.limits = s.limits ∧ Passes s r (t, r') ∧ r'.ready = r.ready ∧ r'.requestKeyframe = true := by
  obtain ⟨e, he⟩ := Option.ne_none_iff_exists'.mp hexp
  obtain ⟨next, hnext, hmem, hnear⟩ := h.nextBuffered he hne
  have hdelta := (h.keyed _ hmem).2
  obtain ⟨m1, m2, m3, m4, m5, m6, m7⟩ := h.moveTo he hskip hmem hnear
  generalize hmove : s.moveTo r next e = moved at m1 m2 m3 m4 m5 m6 m7
  obtain ⟨t, r'⟩ := moved
  have hdrop : ((t.remove next.seq).waitingForKeyframe && !next.keyframe) = true := by
    rw [hdelta]
    exact congrArg (· && true) m3
  obtain ⟨c1, -, -, c4⟩ := (m1.remove next.seq).consume m2 (fun _ => ne_of_mem_remove)
    (fun hw => absurd (m3.symm.trans hw) (by decide))
  rw [consume_skip hdrop] at c1 c4
  have hremoved : Passes s r (t.remove next.seq, r') := ⟨m5.emits, m5.counted⟩
  refine ⟨_, _, fun fuel => ?_, c1, by simp, ?_, ?_, ?_, hremoved.trans c4, m4, rfl⟩
  · unfold FrameSequencer.moveTo at hmove
    simp only [expireLoop, if_neg hne, hnext, he, hmove]
    exact if_pos hdrop
  · exact setExpected_waiting.trans m3
  · rw [setExpected_buffered]
    exact m6 ▸ size_delete_lt (m6 ▸ hmem)
  · exact setExpected_limits.trans m7

/-- What the loop of `expire` comes to. -/
structure Expired (s : FrameSequencer T) (r : SequenceResult T)
    (out : FrameSequencer T × SequenceResult T) : Prop extends Passes s r out where
  between : Between out.1
  started : out.1.expected ≠ none
  empty : out.1.buffered.size = 0
  ready : out.2.ready = r.ready
  limits : out.1.limits = s.limits
  request : out.1.waitingForKeyframe = true → s.waitingForKeyframe = true ∨ out.2.requestKeyframe = true
  stands : r.requestKeyframe = true → out.2.requestKeyframe = true

/-- The loop of `expire` empties the buffer: each round removes the nearest entry, so the
buffer's size is enough fuel. -/
theorem expireLoop_spec (now : T) (h : Core s) (hexp : s.expected ≠ none)
    (hskip : s.waitingForKeyframe = true ∨ Between s) :
    ∃ out, (∀ fuel, s.buffered.size ≤ fuel → expireLoop fuel s r now = out) ∧ Expired s r out := by
  generalize hn : s.buffered.size = n
  induction n using Nat.strongRecOn generalizing s r with
  | ind n ih =>
    by_cases hz : s.buffered.size = 0
    · have hstop : ∀ fuel, expireLoop fuel s r now = (s, r) := by
        intro fuel
        cases fuel with
        | zero => rfl
        | succ fuel => rw [expireLoop, if_pos hz]
      have hbetween : Between s := by
        refine ⟨h, fun e _ x hx => ?_, fun hw => ?_⟩
        · rw [size_eq_zero.mp hz] at hx
          cases hx
        · exact (hskip.resolve_left (by simp [hw])).synced hw
      exact ⟨(s, r), fun fuel _ => hstop fuel, .refl s r, hbetween, hexp, hz, rfl, rfl, .inl, fun hr => hr⟩
    obtain ⟨t, r', hround, h1, h2, h3, h4, h5, h6, h7, h8⟩ := h.expireLoop_round hexp hz hskip r now
    obtain ⟨out, hout, hrest⟩ := ih _ (hn ▸ h4) h1 h2 (.inl h3) rfl
    refine ⟨out, fun fuel hfuel => ?_, h6.trans hrest.toPasses, hrest.between, hrest.started, hrest.empty,
      hrest.ready.trans h7, hrest.limits.trans h5, fun _ => .inr (hrest.stands h8), fun _ => hrest.stands h8⟩
    obtain ⟨fuel, rfl⟩ := Nat.exists_eq_succ_of_ne_zero (show fuel ≠ 0 by omega)
    rw [hround]
    exact hout fuel (by omega)

end expire

/-! ## The entry points -/

section calls

variable {s : FrameSequencer T} {r : SequenceResult T} {frame : EncodedFrame T} {now : T}

/-- What is left of the buffer when a keyframe arrives is strictly after it. -/
theorem of_mem_dropSuperseded (hx : x ∈ (s.dropSuperseded seq).1.buffered.entries) :
    x ∈ s.buffered.entries ∧ x.1 ≠ seq ∧ dist x.1 seq < half := by
  obtain ⟨hmem, hkeep⟩ := mem_filter.mp hx
  simp only [superseded, sequenceDistance, Bool.not_or, Bool.and_eq_true, Bool.not_eq_true',
    decide_eq_false_iff_not] at hkeep
  exact ⟨hmem, hkeep.1, Nat.lt_of_not_le (of_decide_eq_false hkeep.2)⟩

theorem Core.dropSuperseded (h : Core s) (seq : UInt32) : Core (s.dropSuperseded seq).1 :=
  h.mono (fun _ hx => (of_mem_dropSuperseded hx).1) rfl rfl rfl rfl

/-- The keyframe branches of `push` begin with these assignments. -/
def restarted (s : FrameSequencer T) (seq : UInt32) : FrameSequencer T :=
  { (s.dropSuperseded seq).1.setExpected seq with gapSince := none, waitingForKeyframe := false }

/-- Consuming the expected frame and draining behind it, as every branch of `push` that returns
frames ends. -/
def advance (s : FrameSequencer T) (r : SequenceResult T) (frame : EncodedFrame T) (now : T) :
    FrameSequencer T × SequenceResult T :=
  (s.consume r frame).1.drain (s.consume r frame).2 now

inductive PushCase (s : FrameSequencer T) (frame : EncodedFrame T) (now : T) :
    FrameSequencer T × SequenceResult T → Prop
  | startFull : s.expected = none → frame.keyframe = false →
      s.maxBufferedFrames ≤ s.buffered.size →
      PushCase s frame now (s, { dropped := 1, awaitingKeyframe := 1, requestKeyframe := true })
  | startBuffer : s.expected = none → frame.keyframe = false →
      s.buffered.size < s.maxBufferedFrames →
      PushCase s frame now ({ s with buffered := s.buffered.set frame.seq frame }, {})
  | start : s.expected = none → frame.keyframe = true →
      PushCase s frame now ((s.restarted frame.seq).advance
        { dropped := (s.dropSuperseded frame.seq).2
          awaitingKeyframe := (s.dropSuperseded frame.seq).2 } frame now)
  | late (e : UInt32) : s.expected = some e → half ≤ dist frame.seq e →
      PushCase s frame now (s, { dropped := 1 })
  | jump (e : UInt32) : s.expected = some e → dist frame.seq e < half → frame.keyframe = true →
      PushCase s frame now ((s.restarted frame.seq).advance
        { dropped := (s.dropSuperseded frame.seq).2 + dist frame.seq e } frame now)
  | full (e : UInt32) : s.expected = some e → dist frame.seq e < half → frame.keyframe = false →
      0 < dist frame.seq e → s.maxBufferedFrames ≤ s.buffered.size →
      PushCase s frame now (s, { dropped := 1, requestKeyframe := true })
  | buffer (e : UInt32) : s.expected = some e → dist frame.seq e < half →
      frame.keyframe = false → 0 < dist frame.seq e → s.buffered.size < s.maxBufferedFrames →
      PushCase s frame now ({ s with
        buffered := s.buffered.set frame.seq frame
        gapSince := some (s.gapSince.getD now) }, {})
  | next : s.expected = some frame.seq → frame.keyframe = false →
      PushCase s frame now (s.advance {} frame now)

theorem push_cases (s : FrameSequencer T) (frame : EncodedFrame T) (now : T) :
    PushCase s frame now (s.push frame now) := by
  unfold push
  split
  case h_1 he =>
    cases hkey : frame.keyframe with
    | false =>
      simp only [Bool.not_false, if_true]
      split
      · exact .startFull he hkey ‹_›
      · exact .startBuffer he hkey (Nat.lt_of_not_le ‹_›)
    | true => exact .start he hkey
  case h_2 e he =>
    simp only
    split
    · exact .late e he ‹_›
    rename_i hbehind
    simp only [sequenceDistance, Nat.not_le] at hbehind
    cases hkey : frame.keyframe with
    | true => exact .jump e he hbehind hkey
    | false =>
      simp only [Bool.false_eq_true, if_false]
      split
      next hpos =>
        split
        · exact .full e he hbehind hkey hpos ‹_›
        · exact .buffer e he hbehind hkey hpos (Nat.lt_of_not_le ‹_›)
      next hzero =>
        have hseq : frame.seq = e := dist_eq_zero.mp (Nat.eq_zero_of_not_pos hzero)
        exact .next (hseq ▸ he) hkey

/-- What every branch ends with that returns frames. -/
theorem Core.advance (h : Core s) (r : SequenceResult T) (now : T) (hexp : s.expected = some frame.seq)
    (hbuf : ∀ x ∈ s.buffered.entries, x.1 ≠ frame.seq)
    (hlink : s.waitingForKeyframe = false → frame.keyframe = false → s.Synced) :
    Between (s.advance r frame now).1 ∧ (s.advance r frame now).1.expected ≠ none ∧
      Passes s r (s.advance r frame now) := by
  obtain ⟨c1, c2, c3, c4⟩ := h.consume hexp hbuf hlink
  obtain ⟨d1, d2, d3, -⟩ := drain_spec now c1 (by rw [c2]; simp) c3
  exact ⟨d1, d2, c4.trans d3⟩

theorem of_mem_restarted (hx : x ∈ (s.restarted seq).buffered.entries) :
    x ∈ s.buffered.entries ∧ x.1 ≠ seq ∧ dist x.1 seq < half := by
  have hbuf : (s.restarted seq).buffered = (s.dropSuperseded seq).1.buffered := setExpected_buffered
  rw [hbuf] at hx
  exact of_mem_dropSuperseded hx

theorem restarted_expected : (s.restarted seq).expected = some seq :=
  setExpected_expected

theorem restarted_emitted : (s.restarted seq).emitted = s.emitted :=
  setExpected_emitted

/-- A keyframe restarts the sequence from any state it is not behind. -/
theorem Core.restarted (h : Core s) (hlt : ∀ e, s.expected = some e → dist seq e < half) :
    Core (s.restarted seq) := by
  have hstart : Core ((s.dropSuperseded seq).1.setExpected seq) := by
    cases he : s.expected with
    | none =>
      exact (h.dropSuperseded seq).setExpected_first he fun x hx => (of_mem_dropSuperseded hx).2.2
    | some e =>
      refine (h.dropSuperseded seq).setExpected he (hlt e he) fun x hx => ?_
      obtain ⟨hmem, -, hkept⟩ := of_mem_dropSuperseded hx
      -- a buffered frame the keyframe moves past would be half a circle behind it
      by_contra hcon
      have := half_le_dist_of_lt (Nat.lt_of_not_le hcon) (hlt e he)
      omega
  exact hstart.mono (fun _ hx => hx) rfl rfl rfl rfl

theorem Core.restart (h : Core s) (r : SequenceResult T) (now : T)
    (hlt : ∀ e, s.expected = some e → dist frame.seq e < half) (hkey : frame.keyframe = true) :
    Between ((s.restarted frame.seq).advance r frame now).1 ∧
      ((s.restarted frame.seq).advance r frame now).1.expected ≠ none ∧
      Passes (s.restarted frame.seq) r ((s.restarted frame.seq).advance r frame now) :=
  (h.restarted hlt).advance r now restarted_expected (fun _ hx => (of_mem_restarted hx).2.1)
    (fun _ hdelta => absurd hdelta (by simp [hkey]))

theorem Between.buffer (h : Between s) (hdelta : frame.keyframe = false)
    (hpos : ∀ e, s.expected = some e → 0 < dist frame.seq e ∧ dist frame.seq e < half)
    (gap : Option T) : Between { s with buffered := s.buffered.set frame.seq frame, gapSince := gap } := by
  refine ⟨?_, ?_, h.synced⟩
  · refine { h.toCore with keyed := ?_, ahead := ?_ }
    · intro x hx
      rcases mem_set hx with rfl | hx
      · exact ⟨rfl, hdelta⟩
      · exact h.keyed x hx
    · intro e he x hx
      rcases mem_set hx with rfl | hx
      · exact (hpos e he).2
      · exact h.ahead e he x hx
  · intro e he x hx
    rcases mem_set hx with rfl | hx
    · intro heq
      have h0 := (hpos e he).1
      rw [show frame.seq = e from heq, dist_self] at h0
      omega
    · exact h.strict e he x hx

theorem push_spec (h : Between s) : Between (s.push frame now).1 ∧ Emits s {} (s.push frame now) := by
  have hcase := push_cases s frame now
  generalize s.push frame now = out at hcase ⊢
  cases hcase with
  | startFull | late | full => exact ⟨h, .of_eq rfl rfl⟩
  | startBuffer he hdelta => exact ⟨h.buffer hdelta (by simp [he]) s.gapSince, .of_eq rfl rfl⟩
  | start he hkey =>
    obtain ⟨d1, -, d3⟩ := h.toCore.restart _ now (by simp [he]) hkey
    exact ⟨d1, .trans (.of_eq restarted_emitted rfl) d3.emits⟩
  | jump e he hlt hkey =>
    obtain ⟨d1, -, d3⟩ := h.toCore.restart _ now (by simpa [he] using hlt) hkey
    exact ⟨d1, .trans (.of_eq restarted_emitted rfl) d3.emits⟩
  | buffer e he hlt hdelta hpos =>
    exact ⟨h.buffer hdelta (by simpa [he] using ⟨hpos, hlt⟩) _, .of_eq rfl rfl⟩
  | next he =>
    obtain ⟨d1, -, d3⟩ := h.toCore.advance {} now he (h.strict _ he) fun hw _ => h.synced hw
    exact ⟨d1, d3.emits⟩

/-- `markLost` of the expected frame steps over it and waits for a keyframe. -/
def skipped (s : FrameSequencer T) (e : UInt32) : FrameSequencer T :=
  { s.setExpected (e + 1) with waitingForKeyframe := true }

inductive MarkLostCase (s : FrameSequencer T) (seq : UInt32) (now : T) :
    FrameSequencer T × SequenceResult T → Prop
  | start : s.expected = none → MarkLostCase s seq now (s, { requestKeyframe := true })
  | behind : MarkLostCase s seq now (s, {})
  | later : MarkLostCase s seq now ({ s with gapSince := some (s.gapSince.getD now) }, {})
  | lost (e : UInt32) : s.expected = some e →
      MarkLostCase s seq now ((s.skipped e).drain { dropped := 1, requestKeyframe := true } now)

theorem markLost_cases (s : FrameSequencer T) (seq : UInt32) (now : T) :
    MarkLostCase s seq now (s.markLost seq now) := by
  unfold markLost
  split
  case h_1 he => exact .start he
  case h_2 e he =>
    simp only
    split
    · exact .behind
    split
    · exact .later
    · exact .lost e he

theorem Between.skipped (h : Between s) {e : UInt32} (he : s.expected = some e) (r : SequenceResult T) (now : T) :
    Between ((s.skipped e).drain r now).1 ∧ ((s.skipped e).drain r now).1.expected ≠ none ∧
      Passes (s.skipped e) r ((s.skipped e).drain r now) := by
  have hcore : Core (s.setExpected (e + 1)) := by
    refine h.setExpected he ?_ (succ_dist_le (h.strict e he))
    rw [dist_succ_self]
    decide
  obtain ⟨d1, d2, d3, -⟩ := drain_spec (s := s.skipped e) now
    (hcore.mono (fun _ hx => hx) rfl rfl rfl rfl) (by simp [FrameSequencer.skipped])
    (by simp [FrameSequencer.skipped])
  exact ⟨d1, d2, d3⟩

theorem markLost_spec (h : Between s) :
    Between (s.markLost seq now).1 ∧ Emits s {} (s.markLost seq now) := by
  have hcase := markLost_cases s seq now
  generalize s.markLost seq now = out at hcase ⊢
  cases hcase with
  | start | behind => exact ⟨h, .of_eq rfl rfl⟩
  | later => exact ⟨⟨h.mono (fun _ hx => hx) rfl rfl rfl rfl, h.strict, h.synced⟩, .of_eq rfl rfl⟩
  | lost e he =>
    obtain ⟨d1, -, d3⟩ := h.skipped he { dropped := 1, requestKeyframe := true } now
    exact ⟨d1, .trans (.of_eq setExpected_emitted rfl) d3.emits⟩

theorem between_new (gapTimeoutMs : T) (maxBufferedFrames : Nat) :
    Between ({ gapTimeoutMs, maxBufferedFrames } : FrameSequencer T) := by
  refine ⟨?_, by simp, by simp⟩
  constructor <;> simp [DecodeChain.nil]

variable [Sub T] [LT T] [DecidableLT T]

inductive ExpireCase (s : FrameSequencer T) (now : T) : FrameSequencer T × SequenceResult T → Prop
  | start (p : UInt32 × EncodedFrame T → Bool) (r : SequenceResult T) : s.expected = none → r.ready = [] →
      ExpireCase s now ({ s with buffered := s.buffered.filter p }, r)
  | early : s.expected ≠ none → (∀ since, s.gapSince = some since → now - since < s.gapTimeoutMs) →
      ExpireCase s now (s, {})
  | due (out : FrameSequencer T × SequenceResult T) : s.expected ≠ none →
      (∀ fuel, s.buffered.size ≤ fuel → expireLoop fuel s {} now = out) → Expired s {} out →
      ExpireCase s now ({ out.1 with gapSince := none }, { out.2 with
        requestKeyframe := if out.2.dropped ≠ 0 then true else out.2.requestKeyframe })

theorem Between.expire_cases (h : Between s) (now : T) : ExpireCase s now (s.expire now) := by
  unfold expire
  split
  case h_1 he => exact .start _ _ he rfl
  case h_2 e he =>
    have hexp : s.expected ≠ none := by simp [he]
    split
    case h_1 hgap => exact .early hexp (by simp [hgap])
    case h_2 since hgap =>
      simp only
      split
      case isTrue hearly => exact .early hexp (by simpa [hgap] using hearly)
      case isFalse hdue =>
        obtain ⟨out, hout, hexpired⟩ := expireLoop_spec now h.toCore hexp (.inr h)
        rw [hout _ le_rfl, if_neg (fun hne => hne hexpired.empty)]
        exact .due out hexp hout hexpired

theorem expire_spec (h : Between s) : Between (s.expire now).1 ∧ Emits s {} (s.expire now) := by
  have hcase := h.expire_cases now
  generalize s.expire now = out at hcase ⊢
  cases hcase with
  | start p r he hready =>
    refine ⟨⟨h.mono (fun _ hx => (mem_filter.mp hx).1) rfl rfl rfl rfl, fun e he' => ?_, h.synced⟩,
      .of_eq rfl hready⟩
    cases he.symm.trans he'
  | early => exact ⟨h, .of_eq rfl rfl⟩
  | due out _ _ hexpired =>
    have hb := hexpired.between
    exact ⟨⟨hb.mono (fun _ hx => hx) rfl rfl rfl rfl, hb.strict, hb.synced⟩, hexpired.emits⟩

theorem call_spec (h : Between s) (c : SequencerCall T) : Between (s.call c).1 ∧ Emits s {} (s.call c) := by
  cases c with
  | push frame now => exact push_spec h
  | markLost seq now => exact markLost_spec h
  | expire now => exact expire_spec h

/-! ## Runs -/

/-- Over a run the invariant holds at the end, and the returned frames are the emitted
history. -/
theorem run_spec (h : Between s) (calls : List (SequencerCall T)) :
    Between (s.run calls).1 ∧
      ∃ l, (s.run calls).1.emitted = s.emitted ++ l ∧ (s.run calls).2 = l.map Prod.snd := by
  induction calls generalizing s with
  | nil => exact ⟨h, [], by simp [run], rfl⟩
  | cons c cs ih =>
    obtain ⟨h1, l1, hem1, hready⟩ := call_spec h c
    obtain ⟨h2, l2, hem2, hout⟩ := ih h1
    refine ⟨h2, l1 ++ l2, ?_, ?_⟩
    · show ((s.call c).1.run cs).1.emitted = _
      rw [hem2, hem1, List.append_assoc]
    · show (s.call c).2.ready ++ ((s.call c).1.run cs).2 = _
      rw [hout, hready, List.map_append]
      rfl

end calls

end FrameSequencer

variable [Sub T] [LT T] [DecidableLT T]

/-- Every run of a new sequencer returns a decode chain: a keyframe first, and each delta
numbered one more (mod 2^32) than the frame returned before it. The frames sit at strictly
increasing positions of the unwrapped counter, whose moves are all shorter than 2^31. -/
theorem run_emits_decode_chain (gapTimeoutMs : T) (maxBufferedFrames : Nat)
    (calls : List (SequencerCall T)) :
    let final := (({ gapTimeoutMs, maxBufferedFrames } : FrameSequencer T).run calls).1
    let frames := (({ gapTimeoutMs, maxBufferedFrames } : FrameSequencer T).run calls).2
    DecodeChain EncodedFrame.keyframe (fun f g => g.seq = f.seq + 1) frames ∧
      frames = final.emitted.map Prod.snd ∧
      final.emitted.Pairwise (fun a b => a.1 < b.1) ∧
      (∀ x ∈ final.emitted, x.1 % 2 ^ 32 = x.2.seq.toNat ∧ x.1 < final.position) ∧
      ∀ m ∈ final.moves, m < 2 ^ 31 := by
  intro final frames
  obtain ⟨hinv, l, hem, hout⟩ :=
    run_spec (between_new gapTimeoutMs maxBufferedFrames) calls
  have hframes : frames = final.emitted.map Prod.snd := hout.trans (congrArg _ hem.symm)
  refine ⟨?_, hframes, hinv.increasing, fun x hx => ⟨hinv.tagged x hx, hinv.below x hx⟩, hinv.moves⟩
  rw [hframes]
  exact hinv.chain.map Prod.snd (fun _ => rfl) (fun _ _ hab => hab.1)

end Rustcast.Browser
