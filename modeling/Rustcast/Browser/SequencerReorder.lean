import Mathlib.Data.List.Perm.Subperm
import Rustcast.Browser.SequencerChain

/-!
# The sequencer undoes reordering

A stretch of consecutive frames that begins with its only keyframe may arrive in any order. As long
as it fits into the buffer, the sequencer returns it in sequence order and drops nothing.

The invariant `Progress` counts the frames of the stretch that were returned: they are a prefix of
the stretch, everything else that arrived is buffered, and `expected` is the next frame. When all
frames have arrived, the next frame cannot be missing, so the prefix is the whole stretch.
-/

namespace Rustcast.Browser

open SeqNum OrderedMap FrameSequencer

variable {T : Type}

/-- Frames with consecutive numbers, of which only the first is a keyframe. Numbers are compared by
their distance on the circle, so no more than half of it can be told apart. -/
structure Stretch (start : UInt32) (frames : List (EncodedFrame T)) : Prop where
  seq : ∀ i f, frames[i]? = some f → f.seq = start + UInt32.ofNat i
  key : ∀ i f, frames[i]? = some f → (f.keyframe = true ↔ i = 0)
  short : frames.length ≤ half

namespace Stretch

variable {start : UInt32} {frames : List (EncodedFrame T)} {f g : EncodedFrame T} {i j : Nat}

section

variable (h : Stretch start frames)

include h

theorem dist_seq (hi : frames[i]? = some f) : dist f.seq start = i := by
  obtain ⟨hlt, -⟩ := List.getElem?_eq_some_iff.1 hi
  have hshort := h.short
  rw [h.seq i f hi]
  apply dist_add_ofNat
  unfold half at hshort
  omega

theorem dist_seq_seq (hi : frames[i]? = some f) (hj : frames[j]? = some g) (hle : i ≤ j) :
    dist g.seq f.seq = j - i := by
  have hf := h.dist_seq hi
  have hg := h.dist_seq hj
  rw [dist_of_le (c := start) (by omega), hf, hg]

theorem index_inj (hi : frames[i]? = some f) (hj : frames[j]? = some g) (hseq : f.seq = g.seq) : i = j := by
  rw [← h.dist_seq hi, ← h.dist_seq hj, hseq]

theorem eq_of_seq (hf : f ∈ frames) (hg : g ∈ frames) (hseq : f.seq = g.seq) : f = g := by
  obtain ⟨i, hi⟩ := List.mem_iff_getElem?.1 hf
  obtain ⟨j, hj⟩ := List.mem_iff_getElem?.1 hg
  have hij := h.index_inj hi hj hseq
  rw [hij, hj] at hi
  exact (Option.some.inj hi).symm

theorem nodup : frames.Nodup := by
  rw [List.nodup_iff_getElem?_ne_getElem?]
  intro i j hij hj heq
  have hjth := List.getElem?_eq_getElem hj
  have hsame := h.index_inj (heq.trans hjth) hjth rfl
  omega

end

end Stretch

namespace FrameSequencer

/-- A sequence of `push` calls: the state behind them and their results. -/
def pushAll (s : FrameSequencer T) :
    List (EncodedFrame T × T) → FrameSequencer T × List (SequenceResult T)
  | [] => (s, [])
  | (frame, now) :: arrivals =>
    let (s, result) := s.push frame now
    let (s, results) := s.pushAll arrivals
    (s, result :: results)

/-- The buffer holds frames that arrived, and all of them from index `k` on. -/
structure Holding (start : UInt32) (frames arrived : List (EncodedFrame T)) (s : FrameSequencer T)
    (k : Nat) : Prop where
  stretch : Stretch start frames
  arrivals : ∀ f ∈ arrived, f ∈ frames
  buffered : ∀ x ∈ s.buffered.entries, x.1 = x.2.seq ∧ x.2 ∈ arrived
  kept : ∀ i f, frames[i]? = some f → k ≤ i → f ∈ arrived → (f.seq, f) ∈ s.buffered.entries
  room : frames.length ≤ s.maxBufferedFrames

/-- The first `m` frames of the stretch were returned, and the others that arrived are buffered. -/
structure Progress (start : UInt32) (frames arrived : List (EncodedFrame T)) (s : FrameSequencer T)
    (m : Nat) : Prop extends Holding start frames arrived s m where
  le : m ≤ frames.length
  expected : s.expected = if m = 0 then none else some (start + UInt32.ofNat m)
  running : 0 < m → s.waitingForKeyframe = false
  returned : ∀ i f, frames[i]? = some f → i < m → f ∈ arrived

/-- A computation returned the frames from index `m` to index `m'` and dropped none. -/
def Returned (frames : List (EncodedFrame T)) (m : Nat) (r : SequenceResult T) (m' : Nat)
    (r' : SequenceResult T) : Prop :=
  r'.dropped = r.dropped ∧ ∃ l, r'.ready = r.ready ++ l ∧ frames.take m' = frames.take m ++ l

section progress

variable {start : UInt32} {frames arrived : List (EncodedFrame T)} {s : FrameSequencer T}
  {r r' r'' : SequenceResult T} {f : EncodedFrame T} {m m' m'' : Nat} {now : T}

theorem Returned.refl : Returned frames m r m r := ⟨rfl, [], by simp, by simp⟩

theorem Returned.trans (h : Returned frames m r m' r') (h' : Returned frames m' r' m'' r'') :
    Returned frames m r m'' r'' := by
  obtain ⟨hdrop, l, hready, htake⟩ := h
  obtain ⟨hdrop', l', hready', htake'⟩ := h'
  refine ⟨hdrop'.trans hdrop, l ++ l', ?_, ?_⟩
  · rw [hready', hready, List.append_assoc]
  · rw [htake', htake, List.append_assoc]

theorem Progress.new (h : Stretch start frames) (gapTimeoutMs : T) {maxBufferedFrames : Nat}
    (hroom : frames.length ≤ maxBufferedFrames) :
    Progress start frames [] ({ gapTimeoutMs, maxBufferedFrames } : FrameSequencer T) 0 where
  stretch := h
  arrivals := by simp
  buffered := by simp
  kept := by simp
  room := hroom
  le := Nat.zero_le _
  expected := rfl
  running := by simp
  returned := by simp

theorem Holding.emit (h : Holding start frames arrived s (m + 1)) (hm : frames[m]? = some f)
    (hrun : s.waitingForKeyframe = false)
    (hret : ∀ i g, frames[i]? = some g → i ≤ m → g ∈ arrived) :
    Progress start frames arrived (s.emit f) (m + 1) where
  toHolding := ⟨h.stretch, h.arrivals, h.buffered, h.kept, h.room⟩
  le := (List.getElem?_eq_some_iff.1 hm).1
  expected := by
    show some (f.seq + 1) = some (start + UInt32.ofNat (m + 1))
    rw [h.stretch.seq m f hm, UInt32.ofNat_add, UInt32.add_assoc]
    rfl
  running := by
    intro _
    show (if f.keyframe then false else s.waitingForKeyframe) = false
    rw [hrun, ite_self]
  returned := fun i g hi hlt => hret i g hi (Nat.le_of_lt_succ hlt)

theorem Returned.emit (hm : frames[m]? = some f) :
    Returned frames m r (m + 1) { r with ready := r.ready ++ [f] } := by
  refine ⟨rfl, [f], rfl, ?_⟩
  rw [List.take_add_one, hm]
  rfl

namespace Progress

variable (h : Progress start frames arrived s m)

include h

theorem eq_zero (he : s.expected = none) : m = 0 := by
  have hexp := h.expected
  rw [he] at hexp
  by_contra hm
  rw [if_neg hm] at hexp
  cases hexp

theorem pos_and_eq {e : UInt32} (he : s.expected = some e) : 0 < m ∧ e = start + UInt32.ofNat m := by
  have hexp := h.expected
  rw [he] at hexp
  split at hexp
  · cases hexp
  · exact ⟨by omega, Option.some.inj hexp⟩

/-- Up to the next frame everything has arrived but possibly that frame. -/
theorem eq_or_arrived (hm : frames[m]? = some f) {i : Nat} {g : EncodedFrame T} (hi : frames[i]? = some g)
    (hle : i ≤ m) : g = f ∨ g ∈ arrived := by
  rcases Nat.lt_or_eq_of_le hle with hlt | rfl
  · exact .inr (h.returned i g hi hlt)
  · exact .inl (Option.some.inj (hi.symm.trans hm))

/-- What waits at `expected` is the next frame of the stretch. -/
theorem next_of_mem {e : UInt32} (he : s.expected = some e) (hmem : (e, f) ∈ s.buffered.entries) :
    frames[m]? = some f := by
  obtain ⟨hseq, harrived⟩ := h.buffered _ hmem
  obtain ⟨j, hj⟩ := List.mem_iff_getElem?.1 (h.arrivals f harrived)
  have hle := h.le
  have hshort := h.stretch.short
  have hdist : dist e start = m := by
    rw [(h.pos_and_eq he).2]
    apply dist_add_ofNat
    unfold half at hshort
    omega
  have hindex : m = j := by
    rw [← hdist, ← h.stretch.dist_seq hj]
    exact congrArg (dist · start) hseq
  rw [hindex]
  exact hj

/-- The loop of `drain` returns the next frames of the stretch, as many as are buffered. -/
theorem drainLoop (hm : 0 < m) (fuel : Nat) (r : SequenceResult T) :
    ∃ m', Progress start frames arrived (drainLoop fuel s r).1 m' ∧
      Returned frames m r m' (drainLoop fuel s r).2 := by
  induction fuel generalizing s r m with
  | zero => exact ⟨m, h, .refl⟩
  | succ fuel ih =>
    have he := h.expected
    rw [if_neg (by omega)] at he
    cases hget : s.buffered.get? (start + UInt32.ofNat m) with
    | none =>
      rw [drainLoop_stop fuel he hget]
      exact ⟨m, h, .refl⟩
    | some next =>
      have hmem := mem_of_get? hget
      have hnext := h.next_of_mem he hmem
      have hseq := (h.buffered _ hmem).1
      have hhold : Holding start frames arrived (s.remove (start + UInt32.ofNat m)) (m + 1) := by
        refine ⟨h.stretch, h.arrivals, fun x hx => h.buffered x (mem_delete.1 hx).1, ?_, h.room⟩
        intro i g hi hle hg
        refine mem_delete.2 ⟨h.kept i g hi (by omega) hg, fun heq => ?_⟩
        have := h.stretch.index_inj hi hnext (heq.trans hseq)
        omega
      have hret : ∀ i g, frames[i]? = some g → i ≤ m → g ∈ arrived := by
        intro i g hi hle
        rcases h.eq_or_arrived hnext hi hle with rfl | hg
        · exact (h.buffered _ hmem).2
        · exact hg
      have hconsume := consume_emit (s := s.remove (start + UInt32.ofNat m)) (r := r)
        (he.trans (congrArg some hseq)) (by simp [remove, h.running hm])
      obtain ⟨m', hp, hr⟩ := ih (hhold.emit hnext (h.running hm) hret) (Nat.succ_pos m)
        { r with ready := r.ready ++ [next] }
      rw [drainLoop_succ fuel he hget, hconsume]
      exact ⟨m', hp, (Returned.emit hnext).trans hr⟩

end Progress

/-- The next frame of the stretch is consumed, and what is buffered behind it. -/
theorem Holding.advance (h : Holding start frames arrived s (m + 1)) (hm : frames[m]? = some f)
    (hexp : s.expected = some f.seq) (hrun : s.waitingForKeyframe = false)
    (hret : ∀ i g, frames[i]? = some g → i ≤ m → g ∈ arrived) (r : SequenceResult T) (now : T) :
    ∃ m', Progress start frames arrived (s.advance r f now).1 m' ∧
      Returned frames m r m' (s.advance r f now).2 := by
  have hconsume := consume_emit (r := r) hexp (by simp [hrun])
  obtain ⟨m', hp, hr⟩ := (h.emit hm hrun hret).drainLoop (Nat.succ_pos m)
    (s.emit f).buffered.size { r with ready := r.ready ++ [f] }
  unfold FrameSequencer.advance drain
  rw [hconsume]
  exact ⟨m', ⟨⟨hp.stretch, hp.arrivals, hp.buffered, hp.kept, hp.room⟩, hp.le, hp.expected,
    hp.running, hp.returned⟩, (Returned.emit hm).trans hr⟩

theorem Holding.arrive (h : Holding start frames arrived s m) (hf : frames[m]? = some f) :
    Holding start frames (f :: arrived) s (m + 1) where
  stretch := h.stretch
  arrivals := List.forall_mem_cons.2 ⟨List.mem_of_getElem? hf, h.arrivals⟩
  buffered := fun x hx => ⟨(h.buffered x hx).1, List.mem_cons_of_mem _ (h.buffered x hx).2⟩
  kept := by
    intro i g hi hle hg
    rcases List.mem_cons.1 hg with rfl | hg
    · have hindex := h.stretch.index_inj hi hf rfl
      omega
    · exact h.kept i g hi (by omega) hg
  room := h.room

theorem Holding.size_lt (h : Holding start frames arrived s m) (hf : f ∈ frames)
    (hnew : f ∉ arrived) : s.buffered.size < s.maxBufferedFrames := by
  have hfresh : f.seq ∉ s.buffered.entries.map Prod.fst := by
    intro hmem
    obtain ⟨x, hx, hseq⟩ := List.mem_map.1 hmem
    obtain ⟨hkey, harrived⟩ := h.buffered x hx
    have hsame := h.stretch.eq_of_seq (h.arrivals _ harrived) hf (hkey.symm.trans hseq)
    exact hnew (hsame ▸ harrived)
  have hsub : f.seq :: s.buffered.entries.map Prod.fst ⊆ frames.map EncodedFrame.seq := by
    apply List.cons_subset.2 ⟨List.mem_map_of_mem hf, ?_⟩
    intro k hk
    obtain ⟨x, hx, rfl⟩ := List.mem_map.1 hk
    obtain ⟨hkey, harrived⟩ := h.buffered x hx
    rw [hkey]
    exact List.mem_map_of_mem (h.arrivals _ harrived)
  have hlength := ((List.nodup_cons.2 ⟨hfresh, s.buffered.nodup⟩).subperm hsub).length_le
  rw [List.length_cons, List.length_map, List.length_map] at hlength
  exact Nat.lt_of_lt_of_le hlength h.room

theorem Progress.buffer (h : Progress start frames arrived s m) (hf : f ∈ frames)
    (gap : Option T) (hlater : ∀ i, frames[i]? = some f → m ≤ i) :
    Progress start frames (f :: arrived)
      { s with buffered := s.buffered.set f.seq f, gapSince := gap } m where
  stretch := h.stretch
  arrivals := List.forall_mem_cons.2 ⟨hf, h.arrivals⟩
  buffered := by
    intro x hx
    rcases mem_set hx with rfl | hx
    · exact ⟨rfl, List.mem_cons_self⟩
    · exact ⟨(h.buffered x hx).1, List.mem_cons_of_mem _ (h.buffered x hx).2⟩
  kept := by
    intro i g hi hle hg
    by_cases hseq : g.seq = f.seq
    · have hgf := h.stretch.eq_of_seq (List.mem_of_getElem? hi) hf hseq
      rw [hgf]
      exact mem_set_self _ _ _
    · rcases List.mem_cons.1 hg with rfl | hg
      · exact absurd rfl hseq
      · exact mem_set_of_ne (h.kept i g hi hle hg) hseq
  room := h.room
  le := h.le
  expected := h.expected
  running := h.running
  returned := fun i g hi hlt => List.mem_cons_of_mem _ (h.returned i g hi hlt)

/-- Before the keyframe arrives, everything buffered is behind it in the stretch. -/
theorem Progress.not_superseded (h : Progress start frames arrived s 0) (hf : frames[0]? = some f)
    (hnew : f ∉ arrived) {x : UInt32 × EncodedFrame T} (hx : x ∈ s.buffered.entries) :
    superseded f.seq x.1 = false := by
  obtain ⟨hkey, harrived⟩ := h.buffered x hx
  have hmem := h.arrivals _ harrived
  obtain ⟨j, hj⟩ := List.mem_iff_getElem?.1 hmem
  have hdist := h.stretch.dist_seq_seq hf hj (Nat.zero_le j)
  have hlt := (List.getElem?_eq_some_iff.1 hj).1
  have hshort := h.stretch.short
  have hne : x.1 ≠ f.seq := by
    intro heq
    have hsame := h.stretch.eq_of_seq hmem (List.mem_of_getElem? hf) (hkey.symm.trans heq)
    exact hnew (hsame ▸ harrived)
  have hahead : ¬ half ≤ dist x.1 f.seq := by
    rw [hkey]
    omega
  simp [superseded, sequenceDistance, hne, hahead]

/-- The keyframe arrives: it is returned with what is buffered behind it. -/
theorem Progress.restart (h : Progress start frames arrived s 0) (hf : frames[0]? = some f)
    (hnew : f ∉ arrived) (r : SequenceResult T) (now : T) :
    ∃ m', Progress start frames (f :: arrived) ((s.restarted f.seq).advance r f now).1 m' ∧
      Returned frames 0 r m' ((s.restarted f.seq).advance r f now).2 := by
  have hroom : (s.restarted f.seq).maxBufferedFrames = s.maxBufferedFrames :=
    congrArg Prod.fst setExpected_limits
  have hbuf : (s.restarted f.seq).buffered = (s.dropSuperseded f.seq).1.buffered := setExpected_buffered
  have hhold : Holding start frames arrived (s.restarted f.seq) 0 := by
    refine ⟨h.stretch, h.arrivals, fun x hx => h.buffered x (of_mem_restarted hx).1, ?_, hroom ▸ h.room⟩
    intro i g hi hle hg
    have hmem := h.kept i g hi hle hg
    rw [hbuf]
    exact mem_filter.2 ⟨hmem, by simp [h.not_superseded hf hnew hmem]⟩
  exact (hhold.arrive hf).advance hf restarted_expected rfl
    (fun i g hi hle => List.mem_cons.2 (h.eq_or_arrived hf hi hle)) r now

namespace Progress

variable (h : Progress start frames arrived s m)

include h

/-- A frame that continues the stretch is returned with what is buffered behind it. -/
theorem next (hm : 0 < m) (hf : frames[m]? = some f) (hexp : s.expected = some f.seq) (r : SequenceResult T)
    (now : T) :
    ∃ m', Progress start frames (f :: arrived) (s.advance r f now).1 m' ∧
      Returned frames m r m' (s.advance r f now).2 := by
  exact (h.toHolding.arrive hf).advance hf hexp (h.running hm)
    (fun i g hi hle => List.mem_cons.2 (h.eq_or_arrived hf hi hle)) r now

theorem push (hf : f ∈ frames) (hnew : f ∉ arrived) (now : T) :
    ∃ m', Progress start frames (f :: arrived) (s.push f now).1 m' ∧
      Returned frames m {} m' (s.push f now).2 := by
  obtain ⟨i, hi⟩ := List.mem_iff_getElem?.1 hf
  have hkey := h.stretch.key i f hi
  have hsize := h.size_lt hf hnew
  -- frames before `m` have arrived already
  have hle : m ≤ i := by
    by_contra hcon
    exact hnew (h.returned i f hi (by omega))
  have hlater : ∀ j, frames[j]? = some f → m ≤ j := by
    intro j hj
    rw [h.stretch.index_inj hj hi rfl]
    exact hle
  have hsome : ∀ e, s.expected = some e → 0 < m ∧ dist f.seq e = i - m := by
    intro e he
    obtain ⟨hm, heq⟩ := h.pos_and_eq he
    have hlt := (List.getElem?_eq_some_iff.1 hi).1
    have hmth := List.getElem?_eq_getElem (Nat.lt_of_le_of_lt hle hlt)
    rw [heq, ← h.stretch.seq m _ hmth]
    exact ⟨hm, h.stretch.dist_seq_seq hmth hi hle⟩
  have hshort : i - m < half := by
    have hlt := (List.getElem?_eq_some_iff.1 hi).1
    have := h.stretch.short
    omega
  have hcase := push_cases s f now
  generalize s.push f now = out at hcase ⊢
  cases hcase with
  | startFull he hdelta hfull | full e he hlt hdelta hpos hfull => omega
  | startBuffer he hdelta => exact ⟨m, h.buffer hf s.gapSince hlater, .refl⟩
  | start he hkeyframe =>
    have hm := h.eq_zero he
    have hzero := hkey.1 hkeyframe
    subst hm hzero
    have hcount : (s.dropSuperseded f.seq).2 = 0 := by
      refine List.countP_eq_zero.2 fun x hx => ?_
      rw [h.not_superseded hi hnew hx]
      exact Bool.false_ne_true
    rw [hcount]
    exact h.restart hi hnew _ now
  -- nothing of the stretch is late, and its only keyframe comes first
  | late e he hhalf =>
    have := (hsome e he).2
    omega
  | jump e he hlt hkeyframe =>
    have := (hsome e he).1
    have := hkey.1 hkeyframe
    omega
  | buffer e he => exact ⟨m, h.buffer hf _ hlater, .refl⟩
  | next he =>
    obtain ⟨hm, hdist⟩ := hsome f.seq he
    rw [dist_self] at hdist
    have him : i = m := by omega
    subst him
    exact h.next hm hi he {} now

/-- Over a sequence of arrivals the results are the frames from index `m` on. -/
theorem pushAll (hb : Between s) (arrivals : List (EncodedFrame T × T))
    (hmem : ∀ x ∈ arrivals, x.1 ∈ frames) (hnodup : (arrivals.map Prod.fst ++ arrived).Nodup) :
    ∃ m' arrived', Progress start frames arrived' (s.pushAll arrivals).1 m' ∧
      Between (s.pushAll arrivals).1 ∧ (∀ x ∈ arrivals, x.1 ∈ arrived') ∧
      (∀ f ∈ arrived, f ∈ arrived') ∧
      frames.take m' = frames.take m ++ (s.pushAll arrivals).2.flatMap SequenceResult.ready ∧
      ∀ r ∈ (s.pushAll arrivals).2, r.dropped = 0 := by
  induction arrivals generalizing s m arrived with
  | nil =>
    refine ⟨m, arrived, h, hb, by simp, fun _ hf => hf, ?_, by simp [pushAll]⟩
    exact (List.append_nil _).symm
  | cons x rest ih =>
    obtain ⟨frame, now⟩ := x
    obtain ⟨hfresh, hrest⟩ := List.nodup_cons.1 hnodup
    have hnew : frame ∉ arrived := fun hf => hfresh (List.mem_append_right _ hf)
    obtain ⟨m₁, hp, hdrop, l, hready, htake⟩ := h.push (hmem _ List.mem_cons_self) hnew now
    have hnodup' : (rest.map Prod.fst ++ frame :: arrived).Nodup := List.nodup_middle.2 hnodup
    obtain ⟨m', arrived', hp', hb', hall, hkeep, htake', hdrop'⟩ :=
      ih hp (push_spec hb).1 (fun y hy => hmem y (List.mem_cons_of_mem _ hy)) hnodup'
    refine ⟨m', arrived', hp', hb', ?_, fun f hf => hkeep f (List.mem_cons_of_mem _ hf), ?_, ?_⟩
    · exact List.forall_mem_cons.2 ⟨hkeep frame List.mem_cons_self, hall⟩
    · show _ = frames.take m ++ ((s.push frame now).2.ready ++ _)
      rw [htake', htake, hready, List.append_assoc]
      rfl
    · exact List.forall_mem_cons.2 ⟨hdrop, hdrop'⟩

/-- Nothing of a stretch that has arrived completely is held back. -/
theorem complete (hb : Between s) (hall : ∀ f ∈ frames, f ∈ arrived) : frames.take m = frames := by
  apply List.take_of_length_le
  by_contra hcon
  have hmth := List.getElem?_eq_getElem (Nat.lt_of_not_le hcon)
  have hmem := h.kept m _ hmth (Nat.le_refl m) (hall _ (List.mem_of_getElem? hmth))
  have hexp := h.expected
  by_cases hm : m = 0
  · -- a keyframe is never buffered
    have hdelta := (hb.keyed _ hmem).2
    rw [(h.stretch.key m _ hmth).2 hm] at hdelta
    cases hdelta
  · rw [if_neg hm, ← h.stretch.seq m _ hmth] at hexp
    exact hb.strict _ hexp _ hmem rfl

end Progress

end progress

end FrameSequencer

/-- The frames of a stretch that fits into the buffer, pushed in any order, are returned in sequence
order, each once, and none is dropped. -/
theorem reordering_lossless (start : UInt32) (frames : List (EncodedFrame T))
    (hstretch : Stretch start frames) (gapTimeoutMs : T) (maxBufferedFrames : Nat)
    (hfit : frames.length ≤ maxBufferedFrames) (arrivals : List (EncodedFrame T × T))
    (hperm : (arrivals.map Prod.fst).Perm frames) :
    let results :=
      (({ gapTimeoutMs, maxBufferedFrames } : FrameSequencer T).pushAll arrivals).2
    results.flatMap SequenceResult.ready = frames ∧ ∀ r ∈ results, r.dropped = 0 := by
  have hmem : ∀ x ∈ arrivals, x.1 ∈ frames := fun x hx => hperm.subset (List.mem_map_of_mem hx)
  have hnodup : (arrivals.map Prod.fst ++ []).Nodup := by
    rw [List.append_nil]
    exact hperm.nodup_iff.2 hstretch.nodup
  obtain ⟨m, arrived, hp, hb, hall, -, htake, hdrop⟩ :=
    (FrameSequencer.Progress.new hstretch gapTimeoutMs hfit).pushAll
      (between_new gapTimeoutMs maxBufferedFrames) arrivals hmem hnodup
  have harrived : ∀ f ∈ frames, f ∈ arrived := by
    intro f hf
    obtain ⟨x, hx, rfl⟩ := List.mem_map.1 (hperm.symm.subset hf)
    exact hall x hx
  rw [hp.complete hb harrived] at htake
  exact ⟨htake.symm, hdrop⟩

/-- Three frames across the wrap of the numbers, in reverse order. -/
theorem reordering_lossless_wrap :
    let frame (seq : UInt32) (keyframe : Bool) : EncodedFrame Nat := ⟨seq, keyframe, [], 0, none, none⟩
    let frames := [frame 0xfffffffe true, frame 0xffffffff false, frame 0 false]
    let results := (({ gapTimeoutMs := 50, maxBufferedFrames := 3 } : FrameSequencer Nat).pushAll
      (frames.reverse.map fun f => (f, 0))).2
    Stretch 0xfffffffe frames ∧ results.flatMap SequenceResult.ready = frames ∧
      ∀ r ∈ results, r.dropped = 0 := by
  intro frame frames results
  have hstretch : Stretch 0xfffffffe frames := by
    refine ⟨?_, ?_, by decide⟩
    all_goals
      intro i f hi
      rcases i with _ | _ | _ | i
      all_goals
        cases hi
        try decide
  refine ⟨hstretch, reordering_lossless 0xfffffffe frames hstretch 50 3 (by decide) _ ?_⟩
  rw [List.map_map]
  exact (List.map_id _).symm ▸ List.reverse_perm frames

end Rustcast.Browser
