import Mathlib.Algebra.Group.Nat.Defs
import Rustcast.Core.Blocks
import Rustcast.Core.Slice

/-!
# Audio frames of one size

`AudioFramer` of `framer.rs`, which cuts the capture buffers into frames of `frame_samples` samples for
each channel. What does not fill a frame stays pending for the next buffer.
-/

namespace Rustcast.Host

/-- `AudioSamples`, over any type of samples and any clock. -/
structure AudioSamples (α τ : Type) where
  /-- interleaved -/
  data : List α
  sampleRate : UInt32
  channels : UInt16
  sequence : UInt64
  timestamp : τ
  deriving DecidableEq

structure AudioFramer (α τ : Type) where
  frameSamples : Nat
  channels : UInt16
  sampleRate : UInt32
  pending : List α
  pendingStart : Option τ
  sequence : UInt64
  deriving DecidableEq

namespace AudioFramer

variable {α τ : Type}

/-! ## The framer -/

def new (frameSamples : Nat) (channels : UInt16) (sampleRate : UInt32) : AudioFramer α τ where
  frameSamples := frameSamples
  channels := channels
  sampleRate := sampleRate
  pending := []
  pendingStart := none
  sequence := 0

/-- The samples of a frame, all channels together: a product in `usize`. -/
def frameLen (f : AudioFramer α τ) : Nat := f.frameSamples * f.channels.toNat % 2 ^ 64

/-- A subtraction in `usize`. -/
def usizeSub? (a b : Nat) : Option Nat := if b ≤ a then some (a - b) else none

/-- `later t frames rate` is `t + duration_of_samples(frames, rate)`. -/
def startAt (later : τ → Nat → UInt32 → τ) (f : AudioFramer α τ) (samples : AudioSamples α τ)
    (offset : Nat) : τ :=
  later samples.timestamp (offset / f.channels.toNat) f.sampleRate

/-- One frame: the pending samples and what they lack of the buffer. The subtractions and the slice
fail (`none`) where the source would panic. -/
def emit (later : τ → Nat → UInt32 → τ) (f : AudioFramer α τ) (samples : AudioSamples α τ)
    (offset : Nat) : Option (AudioFramer α τ × Nat × AudioSamples α τ) := do
  let start := f.pendingStart.getD (startAt later f samples offset)
  let take ← usizeSub? f.frameLen f.pending.length
  let part ← Slice.get? samples.data offset (offset + take)
  let frame :=
    { data := f.pending ++ part, sampleRate := f.sampleRate, channels := f.channels,
      sequence := f.sequence + 1, timestamp := start }
  some ({ f with pending := [], pendingStart := none, sequence := f.sequence + 1 }, offset + take, frame)

/-- `while self.pending.len() + (samples.data.len() - offset) >= frame_len`. It takes fuel, since a
frame length of zero would keep it running. -/
def fill (later : τ → Nat → UInt32 → τ) (samples : AudioSamples α τ) :
    Nat → AudioFramer α τ → Nat → List (AudioSamples α τ) →
      Option (AudioFramer α τ × Nat × List (AudioSamples α τ))
  | 0, _, _, _ => none
  | fuel + 1, f, offset, out => do
    let left ← usizeSub? samples.data.length offset
    if f.frameLen ≤ f.pending.length + left then
      let (f', offset', frame) ← f.emit later samples offset
      fill later samples fuel f' offset' (out ++ [frame])
    else
      some (f, offset, out)

/-- What is left of the buffer becomes pending. -/
def keep (later : τ → Nat → UInt32 → τ) (f : AudioFramer α τ) (samples : AudioSamples α τ)
    (offset : Nat) : AudioFramer α τ :=
  if offset < samples.data.length then
    { f with
      pendingStart := if f.pending.isEmpty then some (startAt later f samples offset) else f.pendingStart
      pending := f.pending ++ samples.data.drop offset }
  else
    f

/-- The frames that a buffer completes. -/
def push (later : τ → Nat → UInt32 → τ) (f : AudioFramer α τ) (samples : AudioSamples α τ) :
    Option (AudioFramer α τ × List (AudioSamples α τ)) := do
  let (f', offset, out) ← fill later samples (samples.data.length + 1) f 0 []
  some (f'.keep later samples offset, out)

/-- One buffer after another; the frames of all of them. -/
def pushAll (later : τ → Nat → UInt32 → τ) :
    AudioFramer α τ → List (AudioSamples α τ) → Option (AudioFramer α τ × List (AudioSamples α τ))
  | f, [] => some (f, [])
  | f, samples :: rest => do
    let (f', out) ← f.push later samples
    let (f'', outs) ← pushAll later f' rest
    some (f'', out ++ outs)

/-! ## What is given out and what is kept -/

variable {later : τ → Nat → UInt32 → τ} {f f' f'' : AudioFramer α τ} {samples : AudioSamples α τ}
  {offset : Nat} {stream rest rest' : List α} {frames frames' : List (AudioSamples α τ)}

/-- From `f` to `f'`, `frames` were cut off `stream`, with `rest` left over. -/
structure Emitted (f : AudioFramer α τ) (stream : List α) (frames : List (AudioSamples α τ))
    (f' : AudioFramer α τ) (rest : List α) : Prop where
  cut : Blocks.Cut f.frameLen stream (frames.map AudioSamples.data) rest
  numbered : frames.map AudioSamples.sequence =
    (List.range frames.length).map fun k => f.sequence + UInt64.ofNat (k + 1)
  counted : f'.sequence = f.sequence + UInt64.ofNat frames.length
  frameLen_eq : f'.frameLen = f.frameLen

namespace Emitted

theorem refl (f : AudioFramer α τ) (stream : List α) : Emitted f stream [] f stream where
  cut := .refl _ _
  numbered := rfl
  counted := by simp
  frameLen_eq := rfl

theorem trans (h : Emitted f stream frames f' rest) (h' : Emitted f' rest frames' f'' rest') :
    Emitted f stream (frames ++ frames') f'' rest' where
  cut := by
    have hcut' := h'.cut
    rw [h.frameLen_eq] at hcut'
    rw [List.map_append]
    exact h.cut.trans hcut'
  numbered := by
    rw [List.map_append, h.numbered, h'.numbered, h.counted, List.length_append, List.range_add,
      List.map_append, List.map_map]
    congr 1
    apply List.map_congr_left
    intro k _
    rw [Function.comp_apply, Nat.add_assoc, UInt64.ofNat_add frames.length, UInt64.add_assoc]
  counted := by
    rw [h'.counted, h.counted, List.length_append, UInt64.ofNat_add, UInt64.add_assoc]
  frameLen_eq := h'.frameLen_eq.trans h.frameLen_eq

theorem append (h : Emitted f stream frames f' rest) (more : List α) :
    Emitted f (stream ++ more) frames f' (rest ++ more) :=
  ⟨h.cut.append more, h.numbered, h.counted, h.frameLen_eq⟩

end Emitted

/-- One round of the loop: it returns, and cuts one frame off what is pending and left of the buffer. -/
theorem emit_spec (later : τ → Nat → UInt32 → τ) (hpending : f.pending.length < f.frameLen)
    (hoffset : offset ≤ samples.data.length)
    (hframe : f.frameLen ≤ f.pending.length + (samples.data.length - offset)) :
    ∃ f' offset' frame, f.emit later samples offset = some (f', offset', frame) ∧ f'.pending = [] ∧
      offset < offset' ∧ offset' ≤ samples.data.length ∧
      Emitted f (f.pending ++ samples.data.drop offset) [frame] f' (samples.data.drop offset') := by
  have htake : usizeSub? f.frameLen f.pending.length = some (f.frameLen - f.pending.length) :=
    if_pos (Nat.le_of_lt hpending)
  have hend : offset + (f.frameLen - f.pending.length) ≤ samples.data.length := by omega
  have hpart : Slice.get? samples.data offset (offset + (f.frameLen - f.pending.length)) =
      some ((samples.data.drop offset).take (f.frameLen - f.pending.length)) := by
    rw [Slice.get?_of_le (Nat.le_add_right _ _) hend, Nat.add_sub_cancel_left]
  refine ⟨{ f with pending := [], pendingStart := none, sequence := f.sequence + 1 },
    offset + (f.frameLen - f.pending.length),
    { data := f.pending ++ (samples.data.drop offset).take (f.frameLen - f.pending.length)
      sampleRate := f.sampleRate, channels := f.channels, sequence := f.sequence + 1
      timestamp := f.pendingStart.getD (startAt later f samples offset) },
    ?_, rfl, by omega, hend, ?_⟩
  · simp only [emit, htake, hpart, Option.bind_eq_bind, Option.bind_some]
  · refine ⟨?_, by simp, by simp, rfl⟩
    -- the buffer from the offset on is the part that goes into the frame and what is behind it
    have hsplit : f.pending ++ samples.data.drop offset =
        (f.pending ++ (samples.data.drop offset).take (f.frameLen - f.pending.length)) ++
          samples.data.drop (offset + (f.frameLen - f.pending.length)) := by
      rw [List.append_assoc, ← List.drop_drop, List.take_append_drop]
    rw [hsplit]
    apply Blocks.Cut.one
    rw [List.length_append, List.length_take, List.length_drop]
    omega

/-- The loop returns once it has fuel for what is left of the buffer. It stops short of a frame. -/
theorem fill_spec (later : τ → Nat → UInt32 → τ) (fuel : Nat) (out : List (AudioSamples α τ))
    (hpending : f.pending.length < f.frameLen) (hoffset : offset ≤ samples.data.length)
    (hfuel : samples.data.length - offset < fuel) :
    ∃ f' offset' frames, fill later samples fuel f offset out = some (f', offset', out ++ frames) ∧
      offset' ≤ samples.data.length ∧
      f'.pending.length + (samples.data.length - offset') < f.frameLen ∧
      Emitted f (f.pending ++ samples.data.drop offset) frames f'
        (f'.pending ++ samples.data.drop offset') := by
  induction fuel generalizing f offset out with
  | zero => omega
  | succ fuel ih =>
    have hleft : usizeSub? samples.data.length offset = some (samples.data.length - offset) :=
      if_pos hoffset
    simp only [fill, hleft, Option.bind_eq_bind, Option.bind_some]
    by_cases hframe : f.frameLen ≤ f.pending.length + (samples.data.length - offset)
    · obtain ⟨f₁, offset₁, frame, hemit, hempty, hlt, hle, hone⟩ := emit_spec later hpending hoffset hframe
      have hpending₁ : f₁.pending.length < f₁.frameLen := by
        rw [hempty, hone.frameLen_eq]
        exact Nat.zero_lt_of_lt hpending
      obtain ⟨f', offset', frames, hfill, hle', hshort, hrest⟩ :=
        ih (out ++ [frame]) hpending₁ hle (by omega)
      rw [hempty] at hrest
      refine ⟨f', offset', frame :: frames, ?_, hle', hone.frameLen_eq ▸ hshort, ?_⟩
      · rw [if_pos hframe, hemit, Option.bind_some, hfill, List.append_assoc, List.singleton_append]
      · exact hone.trans hrest
    · refine ⟨f, offset, [], ?_, hoffset, Nat.lt_of_not_le hframe, .refl _ _⟩
      rw [if_neg hframe, List.append_nil]

@[simp] theorem frameLen_keep (f : AudioFramer α τ) (samples : AudioSamples α τ) (offset : Nat) :
    (f.keep later samples offset).frameLen = f.frameLen := by
  unfold keep
  split <;> rfl

@[simp] theorem sequence_keep (f : AudioFramer α τ) (samples : AudioSamples α τ) (offset : Nat) :
    (f.keep later samples offset).sequence = f.sequence := by
  unfold keep
  split <;> rfl

theorem pending_keep (f : AudioFramer α τ) (samples : AudioSamples α τ) (offset : Nat) :
    (f.keep later samples offset).pending = f.pending ++ samples.data.drop offset := by
  unfold keep
  split
  · rfl
  next h => rw [List.drop_of_length_le (Nat.le_of_not_lt h), List.append_nil]

/-- A push returns. It cuts the frames off the pending samples and the buffer, and what is left of both
is pending. -/
theorem push_spec (later : τ → Nat → UInt32 → τ) (hpending : f.pending.length < f.frameLen)
    (samples : AudioSamples α τ) :
    ∃ f' frames, f.push later samples = some (f', frames) ∧ f'.pending.length < f.frameLen ∧
      Emitted f (f.pending ++ samples.data) frames f' f'.pending := by
  obtain ⟨f₁, offset, frames, hfill, hoffset, hshort, hemitted⟩ :=
    fill_spec later (samples.data.length + 1) [] hpending (Nat.zero_le _) (Nat.lt_succ_self _)
  refine ⟨f₁.keep later samples offset, frames, ?_, ?_, ?_⟩
  · rw [push, hfill]
    rfl
  · rw [pending_keep, List.length_append, List.length_drop]
    exact hshort
  · rw [pending_keep]
    refine ⟨hemitted.cut, hemitted.numbered, ?_, ?_⟩
    · rw [sequence_keep, hemitted.counted]
    · rw [frameLen_keep, hemitted.frameLen_eq]

/-- The run lemma: any sequence of buffers. -/
theorem pushAll_spec (later : τ → Nat → UInt32 → τ) (hpending : f.pending.length < f.frameLen)
    (inputs : List (AudioSamples α τ)) :
    ∃ f' frames, pushAll later f inputs = some (f', frames) ∧ f'.pending.length < f.frameLen ∧
      Emitted f (f.pending ++ inputs.flatMap AudioSamples.data) frames f' f'.pending := by
  induction inputs generalizing f with
  | nil =>
    refine ⟨f, [], rfl, hpending, ?_⟩
    rw [List.flatMap_nil, List.append_nil]
    exact .refl _ _
  | cons samples inputs ih =>
    obtain ⟨f₁, frames, hpush, hshort, hfirst⟩ := push_spec later hpending samples
    obtain ⟨f', frames', hrest, hshort', hlater⟩ := ih (hfirst.frameLen_eq ▸ hshort)
    refine ⟨f', frames ++ frames', ?_, hfirst.frameLen_eq ▸ hshort', ?_⟩
    · simp only [pushAll, hpush, hrest, Option.bind_eq_bind, Option.bind_some]
    · rw [List.flatMap_cons, ← List.append_assoc]
      exact (hfirst.append _).trans hlater

/-- Every sequence of buffers goes through the framer. The frames, each of the frame length, and then the
pending samples, fewer than a frame, are the samples of the buffers in order; the frames are numbered
from one; and buffers with the same samples, however cut, give the same frames. -/
theorem framing_lossless (later : τ → Nat → UInt32 → τ) (frameSamples : Nat) (channels : UInt16)
    (sampleRate : UInt32) (hsamples : 1 ≤ frameSamples) (hchannels : 1 ≤ channels.toNat)
    (hfits : frameSamples * channels.toNat < 2 ^ 64) (inputs : List (AudioSamples α τ)) :
    ∃ f frames, pushAll later (new frameSamples channels sampleRate) inputs = some (f, frames) ∧
      frames.flatMap AudioSamples.data ++ f.pending = inputs.flatMap AudioSamples.data ∧
      (∀ frame ∈ frames, frame.data.length = frameSamples * channels.toNat) ∧
      f.pending.length < frameSamples * channels.toNat ∧
      frames.map AudioSamples.sequence = (List.range frames.length).map (fun k => UInt64.ofNat (k + 1)) ∧
      ∀ inputs' : List (AudioSamples α τ),
        inputs'.flatMap AudioSamples.data = inputs.flatMap AudioSamples.data →
        ∃ f' frames', pushAll later (new frameSamples channels sampleRate) inputs' = some (f', frames') ∧
          frames'.map AudioSamples.data = frames.map AudioSamples.data := by
  have hlen : (new (α := α) (τ := τ) frameSamples channels sampleRate).frameLen =
      frameSamples * channels.toNat := Nat.mod_eq_of_lt hfits
  have hpos : 0 < frameSamples * channels.toNat := Nat.mul_pos hsamples hchannels
  have hspec := fun inputs => pushAll_spec later (f := new frameSamples channels sampleRate)
    (hlen ▸ hpos) inputs
  rw [hlen] at hspec
  obtain ⟨f, frames, hrun, hshort, hemitted⟩ := hspec inputs
  have hcut := hemitted.cut
  rw [hlen] at hcut
  refine ⟨f, frames, hrun, ?_, ?_, hshort, ?_, ?_⟩
  · exact hcut.flatten_append
  · intro frame hframe
    exact hcut.length_eq _ (List.mem_map_of_mem hframe)
  · rw [hemitted.numbered]
    simp [new]
  · intro inputs' hsame
    obtain ⟨f', frames', hrun', hshort', hemitted'⟩ := hspec inputs'
    have hcut' := hemitted'.cut
    rw [hlen, hsame] at hcut'
    exact ⟨f', frames', hrun', (hcut'.unique hcut hshort' hshort).1⟩

/-- Seven samples in buffers of one, none, five and one. -/
def unevenBuffers : List (AudioSamples Nat Nat) :=
  [⟨[1], 48000, 2, 0, 10⟩, ⟨[], 48000, 2, 0, 20⟩, ⟨[2, 3, 4, 5, 6], 48000, 2, 0, 30⟩,
    ⟨[7], 48000, 2, 0, 40⟩]

theorem framing_lossless_uneven :
    ∃ (f : AudioFramer Nat Nat) (frames : List (AudioSamples Nat Nat)),
      pushAll (fun t _ _ => t) (new 2 2 48000) unevenBuffers = some (f, frames) ∧
      frames.flatMap AudioSamples.data ++ f.pending = [1, 2, 3, 4, 5, 6, 7] := by
  obtain ⟨f, frames, hrun, hlossless, -⟩ :=
    framing_lossless (fun t _ _ => t) 2 2 48000 (by decide) (by decide) (by decide) unevenBuffers
  exact ⟨f, frames, hrun, hlossless⟩

end AudioFramer

end Rustcast.Host
