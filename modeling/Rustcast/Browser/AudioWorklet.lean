import Mathlib.Algebra.Notation.Defs
import Rustcast.Core.Lts
import Rustcast.Core.Ring

/-!
# The audio worklet

`FluxAudioSink` of `audio-worklet.js`: a stereo ring buffer between the messages of the page and the
audio device, over any type of samples.
-/

namespace Rustcast.Browser

/-! ## The sink -/

namespace FluxAudioSink

def rate : Nat := 48000

def capacity : Nat := rate

/-- 40 ms -/
def prime : Nat := rate * 4 / 100

/-- 60 ms -/
def target : Nat := rate * 6 / 100

/-- 200 ms -/
def highWater : Nat := rate * 2 / 10

end FluxAudioSink

structure FluxAudioSink (α : Type) where
  left : Nat → α
  right : Nat → α
  read : Nat
  write : Nat
  priming : Bool
  muted : Bool
  underruns : Nat
  dropped : Nat
  quanta : Nat

/-- The message with the numbers of the sink; the level is in samples here. -/
structure SinkStats where
  buffered : Nat
  underruns : Nat
  dropped : Nat
  deriving DecidableEq

/-- What a call of `process` leaves: the sink, the output buffers, the pairs of samples written into
them, whether it threw, and the message it posted. -/
structure Processed (α : Type) where
  sink : FluxAudioSink α
  out : List (List α)
  heard : List (α × α)
  threw : Bool
  stats : Option SinkStats

namespace FluxAudioSink

variable {α : Type}

def new [Zero α] : FluxAudioSink α where
  left := fun _ => 0
  right := fun _ => 0
  read := 0
  write := 0
  priming := true
  muted := false
  underruns := 0
  dropped := 0
  quanta := 0

/-- The difference is never negative: `read` is at most the capacity. -/
def buffered (s : FluxAudioSink α) : Nat := (s.write + capacity - s.read) % capacity

/-- `this.read = (this.read + n) % CAPACITY` -/
def advance (s : FluxAudioSink α) (n : Nat) : FluxAudioSink α :=
  { s with read := (s.read + n) % capacity }

/-- A pair at `this.write`. -/
def store (s : FluxAudioSink α) (l r : α) : FluxAudioSink α :=
  { s with
    left := Function.update s.left s.write l
    right := Function.update s.right s.write r
    write := (s.write + 1) % capacity }

/-- One round of the loop of `push`. -/
def pushPair (s : FluxAudioSink α) (l r : α) : FluxAudioSink α :=
  -- overrun: drop oldest
  if (s.store l r).write = (s.store l r).read then (s.store l r).advance 1 else s.store l r

def trim (s : FluxAudioSink α) : FluxAudioSink α :=
  if highWater < s.buffered then
    { s.advance (s.buffered - target) with dropped := s.dropped + (s.buffered - target) }
  else
    s

/-- The loop runs over the shorter of the two planes. Above the high-water mark the ring is emptied
down to the target. -/
def push (s : FluxAudioSink α) (left right : List α) : FluxAudioSink α :=
  ((left.zip right).foldl (fun s x => s.pushPair x.1 x.2) s).trim

/-- `channel.fill(0, i)` -/
def fillFrom [Zero α] (i : Nat) (channel : List α) : List α :=
  channel.take i ++ List.replicate (channel.length - i) 0

/-- `out[0][i] = l; if (out.length > 1) out[1][i] = r;`, which throws without a first channel. -/
def writeFrame (i : Nat) (l r : α) : List (List α) → Option (List (List α))
  | [] => none
  | [first] => some [first.set i l]
  | first :: second :: rest => some (first.set i l :: second.set i r :: rest)

/-- The loop of `process`, with the number of frames to go. -/
def play [Zero α] : Nat → Nat → FluxAudioSink α → List (List α) → List (α × α) → Processed α
  | 0, _, s, out, heard => ⟨s, out, heard, false, none⟩
  | left + 1, i, s, out, heard =>
    if s.read = s.write then
      ⟨{ s with underruns := s.underruns + 1, priming := true }, out.map (fillFrom i), heard, false, none⟩
    else if s.muted then
      play left (i + 1) (s.advance 1) out heard
    else
      match writeFrame i (s.left s.read) (s.right s.read) out with
      | none => ⟨s.advance 1, out, heard, true, none⟩
      | some out' => play left (i + 1) (s.advance 1) out' (heard ++ [(s.left s.read, s.right s.read)])

/-- The priming gate, and the loop behind it. -/
def playPrimed [Zero α] (s : FluxAudioSink α) (frames : Nat) (out : List (List α)) : Processed α :=
  if s.priming ∧ s.buffered < prime then
    ⟨s, out.map (fillFrom 0), [], false, none⟩
  else
    play frames 0 { s with priming := false } out []

/-- The end of `process`, which posts the numbers twice a second. -/
def countQuantum (statsDue : Nat → Nat → Bool) (frames : Nat) (p : Processed α) : Processed α :=
  let due := statsDue frames (p.sink.quanta + 1)
  { p with
    sink := { p.sink with quanta := if due then 0 else p.sink.quanta + 1 }
    stats := if due then some ⟨p.sink.buffered, p.sink.underruns, p.sink.dropped⟩ else none }

/-- `out[0] ? out[0].length : 128` -/
def frameCount (out : List (List α)) : Nat := (out.head?.map List.length).getD 128

/-- `statsDue frames quanta` is `quanta >= Math.round(500 / (frames / RATE * 1000))`, and
`Processed.heard` records the pairs written to the output. -/
def process [Zero α] (statsDue : Nat → Nat → Bool) (s : FluxAudioSink α) (out : List (List α)) :
    Processed α :=
  if (s.playPrimed (frameCount out) out).threw then
    s.playPrimed (frameCount out) out
  else
    countQuantum statsDue (frameCount out) (s.playPrimed (frameCount out) out)

end FluxAudioSink

/-! ## Messages and output -/

inductive SinkEvent (α : Type) where
  | push (planes : List (List α))
  | reset
  | mute (muted : Bool)
  /-- the device asks for `frames` frames in zeroed buffers -/
  | process (channels frames : Nat)

/-- The sink, with the pairs pushed and the pairs heard since the last reset. -/
structure Playback (α : Type) where
  sink : FluxAudioSink α
  pushed : List (α × α)
  heard : List (α × α)

namespace Playback

variable {α : Type} [Zero α]

def start : Playback α where
  sink := .new
  pushed := []
  heard := []

/-- The buffers as the device hands them in. -/
def silence (channels frames : Nat) : List (List α) :=
  List.replicate channels (List.replicate frames 0)

def step (statsDue : Nat → Nat → Bool) (p : Playback α) : SinkEvent α → Option (Playback α)
  | .push [] => some p  -- the handler throws: there is no first plane
  | .push (left :: rest) =>
    let right := rest.head?.getD left
    some { p with sink := p.sink.push left right, pushed := p.pushed ++ left.zip right }
  | .reset =>
    some { sink := { p.sink with read := 0, write := 0, priming := true }, pushed := [], heard := [] }
  | .mute muted => some { p with sink := { p.sink with muted := muted } }
  | .process channels frames =>
    let done := p.sink.process statsDue (silence channels frames)
    some { p with sink := done.sink, heard := p.heard ++ done.heard }

end Playback

/-! ## The ring -/

namespace FluxAudioSink

variable {α : Type} {s : FluxAudioSink α}

/-- The pairs in the ring, oldest first. -/
def held (s : FluxAudioSink α) : List (α × α) :=
  Ring.held capacity (fun i => (s.left i, s.right i)) s.read s.write

structure Inside (s : FluxAudioSink α) : Prop where
  read_lt : s.read < capacity
  write_lt : s.write < capacity

theorem length_held (s : FluxAudioSink α) : s.held.length = s.buffered := Ring.length_held

theorem next_lt (i : Nat) : i % capacity < capacity := Nat.mod_lt _ (by decide)

/-- The two arrays are written at the same place. -/
theorem pair_update (left right : Nat → α) (i : Nat) (l r : α) :
    (fun k => (Function.update left i l k, Function.update right i r k)) =
      Function.update (fun k => (left k, right k)) i (l, r) := by
  funext k
  by_cases hk : k = i
  · subst hk
    simp only [Function.update_self]
  · simp only [Function.update_of_ne hk]

section

variable (h : s.Inside)

include h

/-- One pair goes in, and none or the oldest comes out. -/
theorem pushPair_spec (l r : α) :
    (s.pushPair l r).Inside ∧ (s.pushPair l r).held.Sublist (s.held ++ [(l, r)]) := by
  unfold pushPair
  split
  next hfull =>
    refine ⟨⟨next_lt _, next_lt _⟩, ?_⟩
    have hheld : ((s.store l r).advance 1).held = (s.held ++ [(l, r)]).drop 1 := by
      unfold held
      rw [← Ring.held_write_skip h.read_lt h.write_lt, ← pair_update]
      rfl
    exact hheld ▸ List.drop_sublist 1 _
  next hroom =>
    refine ⟨⟨h.read_lt, next_lt _⟩, ?_⟩
    have hheld : (s.store l r).held = s.held ++ [(l, r)] := by
      unfold held
      rw [← Ring.held_write_room h.read_lt h.write_lt _ hroom, ← pair_update]
      rfl
    exact hheld ▸ .refl _

/-- The loop of `push`. -/
theorem pushPairs_spec (pairs : List (α × α)) :
    (pairs.foldl (fun s x => s.pushPair x.1 x.2) s).Inside ∧
      (pairs.foldl (fun s x => s.pushPair x.1 x.2) s).held.Sublist (s.held ++ pairs) := by
  induction pairs generalizing s with
  | nil =>
    rw [List.append_nil]
    exact ⟨h, .refl _⟩
  | cons x rest ih =>
    obtain ⟨hinside, hone⟩ := pushPair_spec h x.1 x.2
    obtain ⟨hinside', hrest⟩ := ih hinside
    refine ⟨hinside', hrest.trans ?_⟩
    have happend := hone.append_right rest
    rwa [List.append_assoc] at happend

theorem inside_advance (n : Nat) : (s.advance n).Inside := ⟨next_lt _, h.write_lt⟩

/-- Reading on, by no more than what is there. -/
theorem held_advance {n : Nat} (hn : n ≤ s.buffered) : (s.advance n).held = s.held.drop n :=
  Ring.held_skip h.read_lt h.write_lt hn

theorem trim_spec : s.trim.Inside ∧ s.trim.held.Sublist s.held ∧ s.trim.buffered ≤ highWater := by
  unfold trim
  split
  next hhigh =>
    have htarget : target ≤ highWater := by simp [target, highWater, rate]
    have hleft : s.buffered - (s.buffered - target) ≤ highWater := by omega
    have hle : s.buffered - target ≤ s.buffered := Nat.sub_le _ _
    generalize s.buffered - target = drop at hle hleft ⊢
    have hheld := held_advance h hle
    refine ⟨⟨next_lt _, h.write_lt⟩, hheld.symm ▸ List.drop_sublist _ _, ?_⟩
    show (s.advance drop).buffered ≤ highWater
    rwa [← length_held, hheld, List.length_drop, length_held]
  next hlow => exact ⟨h, .refl _, Nat.le_of_not_lt hlow⟩

end

/-! ## Playing -/

variable [Zero α]

/-- What is played comes off the front of the ring. -/
theorem play_spec (h : s.Inside) (left i : Nat) (out : List (List α)) (heard : List (α × α)) :
    (play left i s out heard).sink.Inside ∧
      ∃ fresh, (play left i s out heard).heard = heard ++ fresh ∧
        (fresh ++ (play left i s out heard).sink.held).Sublist s.held := by
  induction left generalizing s i out heard with
  | zero => exact ⟨h, [], (List.append_nil _).symm, List.Sublist.refl _⟩
  | succ left ih =>
    unfold play
    split
    next hempty => exact ⟨⟨h.read_lt, h.write_lt⟩, [], (List.append_nil _).symm, List.Sublist.refl _⟩
    next hne =>
      have hnext := inside_advance h 1
      have hcons : s.held = (s.left s.read, s.right s.read) :: (s.advance 1).held :=
        Ring.held_cons h.read_lt h.write_lt hne
      rw [hcons]
      split
      next hmuted =>
        obtain ⟨hinside, fresh, hheard, hsub⟩ := ih hnext (i + 1) out heard
        exact ⟨hinside, fresh, hheard, hsub.cons _⟩
      · split
        · exact ⟨hnext, [], (List.append_nil _).symm, (List.Sublist.refl _).cons _⟩
        next out' hwrite =>
          obtain ⟨hinside, fresh, hheard, hsub⟩ :=
            ih hnext (i + 1) out' (heard ++ [(s.left s.read, s.right s.read)])
          refine ⟨hinside, (s.left s.read, s.right s.read) :: fresh, ?_, hsub.cons_cons _⟩
          rw [hheard, List.append_assoc, List.singleton_append]

theorem playPrimed_spec (h : s.Inside) (frames : Nat) (out : List (List α)) :
    (s.playPrimed frames out).sink.Inside ∧
      ((s.playPrimed frames out).heard ++ (s.playPrimed frames out).sink.held).Sublist s.held := by
  unfold playPrimed
  split
  · exact ⟨h, .refl _⟩
  · have hprimed : Inside { s with priming := false } := ⟨h.read_lt, h.write_lt⟩
    obtain ⟨hinside, fresh, hheard, hsub⟩ := play_spec hprimed frames 0 out []
    rw [hheard]
    exact ⟨hinside, hsub⟩

theorem process_spec (statsDue : Nat → Nat → Bool) (h : s.Inside) (out : List (List α)) :
    (s.process statsDue out).sink.Inside ∧
      ((s.process statsDue out).heard ++ (s.process statsDue out).sink.held).Sublist s.held := by
  obtain ⟨hinside, hsub⟩ := playPrimed_spec h (frameCount out) out
  unfold process
  split
  · exact ⟨hinside, hsub⟩
  · exact ⟨⟨hinside.read_lt, hinside.write_lt⟩, hsub⟩

end FluxAudioSink

/-! ## Whole runs -/

namespace Playback

open FluxAudioSink

variable {α : Type} {p p' : Playback α} {statsDue : Nat → Nat → Bool}

/-- What was heard, then what is in the ring, are pairs that were pushed, in the order of the pushes. -/
structure Orderly (p : Playback α) : Prop where
  inside : p.sink.Inside
  sublist : (p.heard ++ p.sink.held).Sublist p.pushed
  buffered_le : p.sink.buffered ≤ highWater

/-- The sink as it is built and as a reset leaves it. -/
theorem orderly_empty {s : FluxAudioSink α} (hread : s.read = 0) (hwrite : s.write = 0) :
    Orderly ⟨s, [], []⟩ := by
  have hcapacity : 0 < capacity := by simp [capacity, rate]
  have hbuffered : s.buffered = 0 := by
    unfold buffered
    rw [hread, hwrite]
    exact Ring.size_self hcapacity
  have hheld : s.held = [] := List.eq_nil_of_length_eq_zero (by rw [length_held, hbuffered])
  refine ⟨⟨hread.symm ▸ hcapacity, hwrite.symm ▸ hcapacity⟩, ?_, hbuffered.symm ▸ Nat.zero_le _⟩
  rw [hheld]
  exact .refl _

theorem orderly_push (h : Orderly p) (left right : List α) :
    Orderly { p with sink := p.sink.push left right, pushed := p.pushed ++ left.zip right } := by
  obtain ⟨hinside, hpushed⟩ := pushPairs_spec h.inside (left.zip right)
  obtain ⟨hinside', htrimmed, hlow⟩ := trim_spec hinside
  refine ⟨hinside', ?_, hlow⟩
  have hheld : (p.sink.push left right).held.Sublist (p.sink.held ++ left.zip right) :=
    htrimmed.trans hpushed
  have hmore := h.sublist.append_right (left.zip right)
  rw [List.append_assoc] at hmore
  exact (hheld.append_left p.heard).trans hmore

variable [Zero α]

theorem orderly_process (h : Orderly p) (out : List (List α)) :
    Orderly { p with
      sink := (p.sink.process statsDue out).sink
      heard := p.heard ++ (p.sink.process statsDue out).heard } := by
  obtain ⟨hinside, hsub⟩ := process_spec statsDue h.inside out
  refine ⟨hinside, ?_, ?_⟩
  · rw [List.append_assoc]
    exact (hsub.append_left _).trans h.sublist
  · have hlength := hsub.length_le
    rw [List.length_append, length_held, length_held] at hlength
    have hle := h.buffered_le
    show (p.sink.process statsDue out).sink.buffered ≤ highWater
    omega

theorem orderly_step (e : SinkEvent α) (h : Orderly p) (hstep : step statsDue p e = some p') :
    Orderly p' := by
  cases e with
  | push planes =>
    cases planes with
    | nil =>
      cases hstep
      exact h
    | cons left rest =>
      cases hstep
      exact orderly_push h left _
  | reset =>
    cases hstep
    exact orderly_empty rfl rfl
  | mute muted =>
    cases hstep
    exact ⟨⟨h.inside.read_lt, h.inside.write_lt⟩, h.sublist, h.buffered_le⟩
  | process channels frames =>
    cases hstep
    exact orderly_process h _

/-- In every run of messages and output, the pairs heard since the last reset are a subsequence of the
pairs pushed since then, and the places of the ring and its level are in bounds. Samples are of any type,
so this is about which pushes are heard, not only about equal values. -/
theorem heard_in_order (statsDue : Nat → Nat → Bool) (es : List (SinkEvent α)) :
    Lts.Throughout (step statsDue)
      (fun p => p.heard.Sublist p.pushed ∧ p.sink.read < capacity ∧ p.sink.write < capacity ∧
        p.sink.buffered ≤ highWater)
      start es := by
  have horderly : Lts.Throughout (step statsDue) Orderly (start : Playback α) es :=
    Lts.throughout_of_invariant (fun _ e _ => orderly_step e) (orderly_empty rfl rfl)
  refine horderly.mono fun p h => ?_
  exact ⟨(List.sublist_append_left _ _).trans h.sublist, h.inside.read_lt, h.inside.write_lt, h.buffered_le⟩

end Playback

end Rustcast.Browser
