import Rustcast.Browser.DecoderFeed
import Rustcast.Browser.SequencerChain
import Rustcast.Core.Lts

/-!
# Every decoder is handed a decode chain

The invariant follows a frame through the client. The accepted frames (`taken` followed by
`decodeChain`) form a chain that, unless the client waits for a keyframe, ends with the
frame the sequencer returned last. While no task is suspended, a configured current decoder
was handed the frame that was taken last. A suspended task belongs to a keyframe, which
needs no predecessor when it is handed over at last.
-/

namespace Rustcast.Browser

open WebTransportClient EncodedVideoChunk

variable {T : Type}

/-- The frame a suspended task is for, with the generation it captured. -/
def DecodeTask.frame? : DecodeTask T → Option (EncodedFrame T × Nat)
  | .idle => none
  | .preferred frame generation _ _ => some (frame, generation)
  | .base frame generation _ _ => some (frame, generation)
  | .returned frame generation => some (frame, generation)
  | .threw frame generation => some (frame, generation)

/-- The decoder a suspended `configureDecoder` works on. -/
def DecodeTask.configuring? : DecodeTask T → Option Nat
  | .preferred _ _ _ decoder => some decoder
  | .base _ _ _ decoder => some decoder
  | _ => none

/-- The link between two frames, and between two chunks. -/
def FollowsSeq (f g : EncodedFrame T) : Prop := g.seq = f.seq + 1

def FollowsTimestamp (a b : EncodedVideoChunk) : Prop := b.timestamp = a.timestamp + 1

def EncodedVideoChunk.isKey (chunk : EncodedVideoChunk) : Bool := decide (chunk.type = .key)

variable {id generation : Nat} {frame : EncodedFrame T}

variable {rest : List (Nat × EncodedFrame T)} {x : Nat × EncodedFrame T} {codec : String}

namespace WebTransportClient

/-- The frames accepted so far: those whose task has started, then those still queued. -/
def accepted (c : WebTransportClient T) : List (EncodedFrame T) :=
  c.taken ++ c.decodeChain.map Prod.fst

/-- What the invariant relates a client to. Between two jobs `seen` is everything the
sequencer emitted and `fedTo = last`. Inside the loop of `acceptSequence`, `seen` is the
part the loop has gone through; inside a task, `last` is the frame just taken and `fedTo`
the one before it, or none if the task is for a keyframe and does not depend on it. -/
structure FeedView (T : Type) where
  conn : Nat
  sequencer : FrameSequencer T
  seen : List (Nat × EncodedFrame T)
  last : Option (EncodedFrame T)
  fedTo : Option (EncodedFrame T)

structure FeedInv (v : FeedView T) (c : WebTransportClient T) : Prop where
  source : c.sequencer = v.sequencer
  last : c.taken.getLast? = v.last
  between : v.sequencer.Between
  accepted : DecodeChain EncodedFrame.keyframe FollowsSeq c.accepted
  inStep : c.waitingForKeyframe = false → ∃ x ∈ v.seen.getLast?, c.accepted.getLast? = some x.2
  captured : ∀ x ∈ c.decodeChain, x.2 = v.conn
  ended : c.generation ≠ v.conn → c.decoder = none
  suspended : ∀ f g, c.task.frame? = some (f, g) → f.keyframe = true ∧ v.last = some f ∧ g = v.conn
  owner : ∀ id, c.task.configuring? = some id → c.decoder = none ∨ c.decoder = some id
  threw : ∀ f g, c.task = .threw f g → ∀ id, c.decoder = some id → (c.decoders id).state ≠ .configured
  chunks : ∀ id, DecodeChain isKey FollowsTimestamp (c.decoders id).chunks
  fed : c.task = .idle → ∀ id, c.decoder = some id → (c.decoders id).state = .configured →
    ∀ f ∈ v.fedTo, ∃ k ∈ (c.decoders id).chunks.getLast?, k.timestamp = f.seq

variable {v : FeedView T} {c : WebTransportClient T} {now : T}

/-! ## Updates that leave the feed alone, and closing the decoder -/

theorem countDrop_eq (reason : DropReason) (count : Nat) :
    ∃ drops, c.countDrop reason count = { c with drops } := by
  unfold countDrop
  split
  · exact ⟨c.drops, rfl⟩
  · exact ⟨_, rfl⟩

theorem FeedInv.countDrop (h : FeedInv v c) (reason : DropReason) (count : Nat) :
    FeedInv v (c.countDrop reason count) := by
  obtain ⟨drops, heq⟩ := countDrop_eq reason count
  rw [heq]
  exact { h with }

@[simp] theorem countDrop_fields (reason : DropReason) (count : Nat) :
    (c.countDrop reason count).waitingForKeyframe = c.waitingForKeyframe ∧
      (c.countDrop reason count).generation = c.generation ∧
      (c.countDrop reason count).decoder = c.decoder ∧ (c.countDrop reason count).task = c.task := by
  obtain ⟨drops, heq⟩ := @countDrop_eq T c reason count
  rw [heq]
  exact ⟨rfl, rfl, rfl, rfl⟩

theorem FeedInv.wait (h : FeedInv v c) : FeedInv v { c with waitingForKeyframe := true } :=
  { h with inStep := fun hw => nomatch hw }

theorem setDecoderState_chunks (id j : Nat) (state : CodecState) :
    ((c.setDecoderState id state).decoders j).chunks = (c.decoders j).chunks := by
  unfold setDecoderState
  by_cases hj : j = id
  · subst hj
    simp
  · simp [Function.update_of_ne hj]

theorem configured_of_setDecoderState_closed {j : Nat}
    (h : ((c.setDecoderState id .closed).decoders j).state = .configured) :
    (c.decoders j).state = .configured := by
  unfold setDecoderState at h
  by_cases hj : j = id
  · subst hj
    simp at h
  · simpa [Function.update_of_ne hj] using h

namespace FeedInv

variable (h : FeedInv v c)

include h

theorem close (id : Nat) : FeedInv v (c.setDecoderState id .closed) :=
  { h with
    threw := fun f g hthrew j hj hconf =>
      h.threw f g hthrew j hj (configured_of_setDecoderState_closed hconf)
    chunks := fun j => by
      rw [setDecoderState_chunks]
      exact h.chunks j
    fed := fun hidle j hj hconf => by
      rw [setDecoderState_chunks]
      exact h.fed hidle j hj (configured_of_setDecoderState_closed hconf) }

theorem closeDecoder : FeedInv v c.closeDecoder := by
  unfold WebTransportClient.closeDecoder
  split
  · exact h.close _
  · exact h

theorem dropDecoder (config : Option String) (type : DecoderType) :
    FeedInv v { c with decoder := none, decoderConfig := config, decoderType := type } :=
  { h with
    ended := fun _ => rfl
    owner := fun _ _ => .inl rfl
    threw := fun _ _ _ _ hnone => nomatch hnone
    fed := fun _ _ hnone => nomatch hnone }

theorem closeCurrent : FeedInv v c.closeCurrent :=
  { h.closeDecoder.dropDecoder none c.closeDecoder.decoderType with }

/-- `disconnect` leaves the generation, and with it every queued task, behind. -/
theorem disconnect : FeedInv v c.disconnect := by
  have hclosed := h.closeCurrent
  unfold WebTransportClient.disconnect WebTransportClient.closeCurrent
    WebTransportClient.closeDecoder at *
  cases hd : c.decoder with
  | none | some id =>
    simp only [hd] at hclosed ⊢
    exact { hclosed with ended := fun _ => rfl }

/-! ## The task that is running -/

/-- When no configured decoder is left, nothing was fed and nothing has to be. -/
theorem unfed (fedTo : Option (EncodedFrame T))
    (hnone : ∀ id, c.decoder = some id → (c.decoders id).state ≠ .configured) :
    FeedInv { v with fedTo } c :=
  { h with fed := fun _ id hid hconf => absurd hconf (hnone id hid) }

theorem unfed_of_none (fedTo : Option (EncodedFrame T)) (hnone : c.decoder = none) :
    FeedInv { v with fedTo } c :=
  h.unfed fedTo fun _ hid => nomatch hnone.symm.trans hid

/-- The task is done; it leaves nothing behind that the decoder was fed. -/
theorem finish : FeedInv { v with fedTo := none } { c with task := .idle } :=
  { h with
    suspended := fun _ _ hc => nomatch hc
    owner := fun _ hc => nomatch hc
    threw := fun _ _ hc => nomatch hc
    fed := fun _ _ _ _ _ hf => nomatch hf }

/-- Suspending the task again at a later point; only `threw` asks for more. -/
theorem suspend (hframe : c.task.frame? = some (frame, generation)) {task : DecodeTask T}
    (htask : task.frame? = some (frame, generation))
    (howner : ∀ id, task.configuring? = some id → c.decoder = none ∨ c.decoder = some id)
    (hthrew : ∀ f g, task = .threw f g → ∀ id, c.decoder = some id → (c.decoders id).state ≠ .configured) :
    FeedInv v { c with task } :=
  { h with
    suspended := fun f g hf => h.suspended f g (hframe.trans (htask.symm.trans hf))
    owner := howner
    threw := hthrew
    fed := fun hidle => by
      rw [show task = .idle from hidle] at htask
      cases htask }

/-- `configureDecoder` throws for a keyframe before it waits for anything. -/
theorem throw (hlast : v.last = some frame) (hkey : frame.keyframe = true)
    (hunused : ∀ id, c.decoder = some id → (c.decoders id).state ≠ .configured) :
    FeedInv v { c with task := .threw frame v.conn } := by
  refine { h with suspended := ?_, owner := ?_, threw := fun _ _ _ => hunused, fed := ?_ }
  · intro f g hf
    cases hf
    exact ⟨hkey, hlast, rfl⟩
  · intro id hid
    cases hid
  · intro hidle
    cases hidle

/-- `configureDecoder` closes the current decoder and suspends the task on a new one. -/
theorem configureDecoder (hlast : v.last = some frame) (hkey : frame.keyframe = true)
    (hlive : c.generation = v.conn) (codec : String) (constructThrows : Bool) :
    FeedInv { v with fedTo := v.last }
      (c.configureDecoder frame v.conn codec constructThrows) := by
  unfold WebTransportClient.configureDecoder
  split
  next hclosed =>
    refine (h.unfed v.last ?_).throw hlast hkey ?_
    all_goals
      intro id hid
      simp only [decoderState, hid, Option.map_some, Option.some.injEq] at hclosed
      rw [hclosed]
      simp
  · have hunused : ∀ id, c.closeDecoder.decoder = some id →
        (c.closeDecoder.decoders id).state ≠ .configured := by
      intro id hid
      unfold WebTransportClient.closeDecoder at hid ⊢
      cases hd : c.decoder with
      | none => simp [hd] at hid
      | some j =>
        simp only [hd, setDecoderState, Option.some.injEq] at hid ⊢
        subst hid
        simp
    have hunfed : FeedInv { v with fedTo := v.last } c.closeDecoder :=
      h.closeDecoder.unfed v.last hunused
    split
    · exact hunfed.throw hlast hkey hunused
    · refine { hunfed with
        ended := ?_, suspended := ?_, owner := ?_, threw := ?_, chunks := ?_, fed := ?_ }
      · intro hgen
        refine absurd ?_ hgen
        unfold WebTransportClient.closeDecoder
        split <;> exact hlive
      · intro f g hf
        cases hf
        exact ⟨hkey, hlast, rfl⟩
      · intro id hid
        cases hid
        exact .inr rfl
      · intro f g hf
        cases hf
      · intro id
        by_cases hid : id = c.closeDecoder.nextDecoder
        · subst hid
          simpa using .nil
        · simpa [Function.update_of_ne hid] using hunfed.chunks id
      · intro hidle
        cases hidle

/-- The next task begins: its frame moves from the queue to the frames taken. -/
theorem takeTask (hidle : c.task = .idle) {rest : List (EncodedFrame T × Nat)}
    (hchain : c.decodeChain = (frame, generation) :: rest) :
    FeedInv { v with last := some frame }
      { c with decodeChain := rest, taken := c.taken ++ [frame] } := by
  have haccepted : ({ c with decodeChain := rest, taken := c.taken ++ [frame] }).accepted = c.accepted := by
    simp [WebTransportClient.accepted, hchain]
  refine { h with
    last := by simp, accepted := ?_, inStep := ?_, captured := ?_, suspended := ?_ }
  · rw [haccepted]
    exact h.accepted
  · rw [haccepted]
    exact h.inStep
  · intro x hx
    exact h.captured x (hchain ▸ List.mem_cons_of_mem _ hx)
  · intro f g hf
    rw [show c.task = .idle from hidle] at hf
    cases hf

/-! ## Accepting one frame -/

theorem skip (x : Nat × EncodedFrame T) (hwait : c.waitingForKeyframe = true) :
    FeedInv { v with seen := v.seen ++ [x] } c :=
  { h with
    inStep := fun hw => by
      rw [hwait] at hw
      cases hw }

/-- An accepted frame extends the chain: a keyframe always, a delta when the client is in
step with the sequencer. -/
theorem take (hlive : c.generation = v.conn)
    (hdelta : x.2.keyframe = false → c.waitingForKeyframe = false ∧ ∃ y ∈ v.seen.getLast?, NextFrame y x)
    (waiting : Bool) (visibility : DropVisibilityPolicy) :
    FeedInv { v with seen := v.seen ++ [x] }
      { c with
        waitingForKeyframe := waiting
        dropVisibility := visibility
        decodeChain := c.decodeChain ++ [(x.2, c.generation)] } := by
  refine { h with accepted := ?_, inStep := ?_, captured := ?_ }
  · show DecodeChain _ _ (c.taken ++ (c.decodeChain ++ [(x.2, c.generation)]).map Prod.fst)
    rw [List.map_append, ← List.append_assoc]
    refine h.accepted.snoc fun hkey => ?_
    obtain ⟨hwait, y, hy, hnext⟩ := hdelta hkey
    obtain ⟨z, hz, hlast⟩ := h.inStep hwait
    have hyz : y = z := Option.mem_unique hy hz
    exact ⟨z.2, hlast, hyz ▸ hnext.1⟩
  · simp [WebTransportClient.accepted]
  · intro y hy
    rcases List.mem_append.mp hy with hy | hy
    · exact h.captured y hy
    · rw [List.mem_singleton.mp hy]
      exact hlive

end FeedInv

/-! ## The invariant between jobs -/

/-- The invariant between two jobs. -/
def FeedStable (conn : Nat) (c : WebTransportClient T) : Prop :=
  ∃ q last, FeedInv { conn, sequencer := q, seen := q.emitted, last, fedTo := last } c

theorem feedStable_connected [OfNat T 100] (generation : Nat) (visibility : DropVisibilityPolicy)
    (lastRequest : Option T) (pending : Bool) :
    FeedStable generation (connected generation visibility lastRequest pending) := by
  refine ⟨newSequencer, none, ?_⟩
  constructor
  case between => exact FrameSequencer.between_new _ _
  case accepted => exact .nil
  case chunks => exact fun _ => .nil
  all_goals simp [connected, DecodeTask.frame?, DecodeTask.configuring?]

section request

variable [Sub T] [LT T] [DecidableLT T] [OfNat T 500]

theorem requestKeyframeIfAllowed_eq : ∃ lastKeyframeRequest keyframeRequests,
    c.requestKeyframeIfAllowed now = { c with lastKeyframeRequest, keyframeRequests } := by
  unfold requestKeyframeIfAllowed
  split
  · exact ⟨c.lastKeyframeRequest, c.keyframeRequests, rfl⟩
  · split
    · split
      · exact ⟨c.lastKeyframeRequest, c.keyframeRequests, rfl⟩
      · exact ⟨_, _, rfl⟩
    · exact ⟨_, _, rfl⟩

theorem FeedInv.requestKeyframeIfAllowed (h : FeedInv v c) :
    FeedInv v (c.requestKeyframeIfAllowed now) := by
  obtain ⟨last, requests, heq⟩ := @requestKeyframeIfAllowed_eq T c now _ _ _ _
  rw [heq]
  exact { h with }

@[simp] theorem requestKeyframeIfAllowed_fields :
    (c.requestKeyframeIfAllowed now).decoder = c.decoder ∧
      (c.requestKeyframeIfAllowed now).waitingForKeyframe = c.waitingForKeyframe ∧
      (c.requestKeyframeIfAllowed now).generation = c.generation ∧
      (c.requestKeyframeIfAllowed now).task = c.task := by
  obtain ⟨last, requests, heq⟩ := @requestKeyframeIfAllowed_eq T c now _ _ _ _
  rw [heq]
  exact ⟨rfl, rfl, rfl, rfl⟩

theorem FeedInv.configureFailed (h : FeedInv v c) : FeedInv v (c.configureFailed now) :=
  h.wait.requestKeyframeIfAllowed

@[simp] theorem handleDecoderError_decoder : (c.handleDecoderError now).decoder = none := by
  simp [handleDecoderError]

theorem FeedInv.handleDecoderError (h : FeedInv v c) : FeedInv v (c.handleDecoderError now) := by
  have hdropped := (h.closeDecoder.dropDecoder none .unknown).wait
  exact (hdropped.countDrop .decoderError 1).requestKeyframeIfAllowed

/-! ## Accepting frames -/

@[simp] theorem acceptFrame_generation (size : Nat) (frame : EncodedFrame T) :
    (c.acceptFrame size frame now).generation = c.generation := by
  unfold acceptFrame
  split
  · simp
  · split
    · simp
    · split <;> rfl

/-- One round of the loop: the frame `x` moves from what the sequencer has still to show
to what was seen. -/
theorem FeedInv.acceptFrame (now : T) (h : FeedInv v c) (hlive : c.generation = v.conn)
    (hnext : x.2.keyframe = false → ∃ y ∈ v.seen.getLast?, NextFrame y x) (size : Nat) :
    FeedInv { v with seen := v.seen ++ [x] } (c.acceptFrame size x.2 now) := by
  unfold WebTransportClient.acceptFrame
  split
  next hwait =>
    simp only [Bool.and_eq_true] at hwait
    exact (h.countDrop _ _).requestKeyframeIfAllowed.skip x (by simp [hwait.1])
  next hwait =>
    split
    · exact (h.countDrop _ _).wait.requestKeyframeIfAllowed.skip x (by simp)
    · cases hkey : x.2.keyframe with
      | true =>
        exact h.take hlive (fun hdelta => absurd hkey (by simp [hdelta])) _ _
      | false =>
        exact h.take hlive (fun _ => ⟨by simpa [hkey] using hwait, hnext hkey⟩) _ _

namespace FeedInv

variable (h : FeedInv v c)

include h

section

variable (hlive : c.generation = v.conn)

include hlive

theorem acceptFrames (hchain : DecodeChain (fun x => x.2.keyframe) NextFrame (v.seen ++ rest))
    (sizes : List Nat) :
    FeedInv { v with seen := v.seen ++ rest } (c.acceptFrames now sizes (rest.map Prod.snd)) := by
  induction rest generalizing c v sizes with
  | nil => simpa [acceptFrames] using h
  | cons x rest ih =>
    have hstep := h.acceptFrame now hlive hchain.follows_of_append (sizes.headD 0)
    rw [List.append_cons] at hchain ⊢
    exact ih hstep (by simpa using hlive) hchain sizes.tail

theorem acceptSequence {result : SequenceResult T}
    (hchain : DecodeChain (fun x => x.2.keyframe) NextFrame (v.seen ++ rest))
    (hready : result.ready = rest.map Prod.snd) (sizes : List Nat) :
    FeedInv { v with seen := v.seen ++ rest } (c.acceptSequence result sizes now) := by
  unfold WebTransportClient.acceptSequence
  split
  · exact { h with inStep := fun hw => nomatch hw }
  · rw [hready]
    have hcounted := (h.countDrop .lost (result.dropped - result.awaitingKeyframe)).countDrop
      .awaitingKeyframe result.awaitingKeyframe
    cases result.requestKeyframe with
    | true =>
      exact hcounted.wait.requestKeyframeIfAllowed.acceptFrames (by simpa using hlive) hchain sizes
    | false => exact hcounted.acceptFrames (by simpa using hlive) hchain sizes

theorem sequence (hseen : v.seen = v.sequencer.emitted) (call : SequencerCall T) (sizes : List Nat) :
    ∃ q : FrameSequencer T,
      FeedInv { v with sequencer := q, seen := q.emitted } (c.sequence call sizes now) := by
  obtain ⟨hbetween, rest, hemitted, hready⟩ := FrameSequencer.call_spec h.between call
  rw [← h.source] at hbetween hemitted hready
  refine ⟨(c.sequencer.call call).1, ?_⟩
  have hpushed : FeedInv { v with sequencer := (c.sequencer.call call).1 }
      { c with sequencer := (c.sequencer.call call).1 } :=
    { h with source := rfl, between := hbetween }
  have hseen' : (c.sequencer.call call).1.emitted = v.seen ++ rest := by
    rw [hemitted, h.source, hseen]
  have hchain := hbetween.chain
  rw [hseen'] at hchain ⊢
  exact hpushed.acceptSequence hlive hchain hready sizes

end

/-! ## The tasks of the decode chain -/

/-- Handing over the frame of the running task. A delta needs the frame taken before it to
be the one the decoder was handed last. -/
theorem decodeChunk (hlast : v.last = some frame)
    (hdelta : frame.keyframe = false → c.task = .idle ∧ ∃ f ∈ v.fedTo, FollowsSeq f frame)
    (decodeThrows : Bool) : FeedInv { v with fedTo := v.last } (c.decodeChunk frame decodeThrows now) := by
  unfold WebTransportClient.decodeChunk
  split
  next hnone =>
    exact (h.unfed_of_none v.last hnone).requestKeyframeIfAllowed
  next id hid =>
    split
    next hconf =>
      have hchunks : DecodeChain isKey FollowsTimestamp
          ((c.decoders id).chunks ++ [chunkOf frame]) := by
        refine (h.chunks id).snoc fun hkey => ?_
        have hframe : frame.keyframe = false := by
          cases hk : frame.keyframe with
          | false => rfl
          | true => simp [isKey, chunkOf, hk] at hkey
        obtain ⟨hidle, f, hf, hfollows⟩ := hdelta hframe
        obtain ⟨k, hk, hts⟩ := h.fed hidle id hid hconf f hf
        refine ⟨k, hk, ?_⟩
        show frame.seq = k.timestamp + 1
        rw [hts]
        exact hfollows
      have hfed : FeedInv { v with fedTo := v.last } { c with
          decoders := Function.update c.decoders id
            { c.decoders id with chunks := (c.decoders id).chunks ++ [chunkOf frame] } } := by
        refine { h with threw := fun f g hthrew j hj => ?_, chunks := fun j => ?_, fed := fun _ j hj _ f hf => ?_ }
        · obtain rfl : j = id := Option.some.inj (hj.symm.trans hid)
          exact absurd hconf (h.threw f g hthrew j hid)
        · by_cases hji : j = id
          · subst hji
            simpa using hchunks
          · simpa [Function.update_of_ne hji] using h.chunks j
        · have hji : j = id := Option.some.inj (hj.symm.trans hid)
          subst hji
          refine ⟨chunkOf frame, by simp, ?_⟩
          rw [hlast] at hf
          cases hf
          rfl
      split
      · exact hfed.handleDecoderError
      · exact hfed
    next hconf =>
      refine (h.unfed v.last fun j hj => ?_).requestKeyframeIfAllowed
      rw [hid] at hj
      cases hj
      exact hconf

theorem decodeFrame (hidle : c.task = .idle) (hlast : v.last = some frame)
    (hdelta : frame.keyframe = false → ∃ f ∈ v.fedTo, FollowsSeq f frame)
    (constructThrows decodeThrows : Bool) :
    FeedInv { v with fedTo := v.last }
      (c.decodeFrame frame v.conn constructThrows decodeThrows now) := by
  unfold WebTransportClient.decodeFrame
  split
  next hgen =>
    exact h.unfed_of_none v.last (h.ended (.symm hgen))
  rename_i hgen
  have hlive : c.generation = v.conn := (not_not.mp hgen).symm
  split
  next hnone =>
    simp only [Bool.and_eq_true, Option.isNone_iff_eq_none] at hnone
    exact (h.unfed_of_none v.last hnone.1).requestKeyframeIfAllowed
  split
  next codec hcodec =>
    have hkey : frame.keyframe = true := by
      cases hk : frame.keyframe with
      | true => rfl
      | false => simp [codecChange, hk] at hcodec
    exact h.configureDecoder hlast hkey hlive codec constructThrows
  · exact h.decodeChunk hlast (fun hk => ⟨hidle, hdelta hk⟩) decodeThrows

end FeedInv

@[simp] theorem handleDecoderError_task : (c.handleDecoderError now).task = c.task := by
  unfold handleDecoderError closeDecoder
  simp only [requestKeyframeIfAllowed_fields, countDrop_fields]
  split <;> rfl

namespace FeedInv

variable (h : FeedInv v c)

include h

theorem configureThrew (hframe : c.task.frame? = some (frame, generation))
    (hid : c.task.configuring? = some id) : FeedInv v (c.configureThrew frame generation id now) := by
  unfold WebTransportClient.configureThrew
  split
  · refine h.handleDecoderError.suspend (by simpa using hframe) rfl (fun _ hc => nomatch hc) ?_
    intro _ _ _ j hj
    rw [handleDecoderError_decoder] at hj
    cases hj
  next hother =>
    refine h.suspend hframe rfl (fun _ hc => nomatch hc) fun _ _ _ j hj => ?_
    rw [(h.owner id hid).resolve_right hother] at hj
    cases hj

theorem applyConfig (hframe : c.task.frame? = some (frame, generation))
    (hid : c.task.configuring? = some id) (support : VideoDecoderSupport) (hardware configureThrows : Bool) :
    FeedInv v (c.applyConfig frame generation id support hardware configureThrows now) := by
  unfold WebTransportClient.applyConfig
  split
  · exact h.suspend hframe rfl (fun _ hc => nomatch hc) (fun _ _ hc => nomatch hc)
  split
  · split
    · exact h.configureThrew hframe hid
    · -- the decoder becomes configured while the task is still suspended
      have hreturned : FeedInv v { c with task := .returned frame generation } :=
        h.suspend hframe rfl (fun _ hc => nomatch hc) (fun _ _ hc => nomatch hc)
      exact { hreturned with
        threw := fun _ _ hc => nomatch hc
        chunks := fun j => by
          rw [setDecoderState_chunks]
          exact h.chunks j
        fed := fun hidle => nomatch hidle }
  · exact h.configureThrew hframe hid

theorem preferredAnswer (htask : c.task = .preferred frame generation codec id)
    (answer : Option VideoDecoderSupport) (configureThrows : Bool) :
    FeedInv v (c.preferredAnswer frame generation codec id answer configureThrows now) := by
  have hframe : c.task.frame? = some (frame, generation) := by rw [htask]; rfl
  have hid : c.task.configuring? = some id := by rw [htask]; rfl
  unfold WebTransportClient.preferredAnswer
  split
  · exact h.configureThrew hframe hid
  split
  · exact h.suspend hframe rfl (fun _ hc => nomatch hc) (fun _ _ hc => nomatch hc)
  split
  · exact h.applyConfig hframe hid _ _ _
  · refine h.suspend hframe rfl (fun j hj => ?_) (fun _ _ hc => nomatch hc)
    cases hj
    exact h.owner id hid

theorem baseAnswer (htask : c.task = .base frame generation codec id) (answer : Option VideoDecoderSupport)
    (configureThrows : Bool) :
    FeedInv v (c.baseAnswer frame generation id answer configureThrows now) := by
  have hframe : c.task.frame? = some (frame, generation) := by rw [htask]; rfl
  have hid : c.task.configuring? = some id := by rw [htask]; rfl
  unfold WebTransportClient.baseAnswer
  split
  · exact h.configureThrew hframe hid
  · exact h.applyConfig hframe hid _ _ _

theorem resume (htask : c.task = .returned frame generation) (decodeThrows : Bool) :
    FeedInv { v with fedTo := v.last }
      (if generation ≠ c.generation then { c with task := .idle }
        else { c with task := .idle }.decodeChunk frame decodeThrows now) := by
  have hframe : c.task.frame? = some (frame, generation) := by rw [htask]; rfl
  obtain ⟨hkey, hlast, hgen⟩ := h.suspended frame generation hframe
  split
  · exact h.finish.unfed_of_none v.last (h.ended (by omega))
  · exact h.finish.decodeChunk hlast (fun hdelta => absurd hkey (by simp [hdelta])) decodeThrows

/-- `decodeFrame` resumes after `configureDecoder` threw: no decoder in use is left. -/
theorem resumeThrew (htask : c.task = .threw frame generation) :
    FeedInv v ({ c with task := .idle }.configureFailed now) :=
  (h.finish.unfed v.fedTo (h.threw frame generation htask)).configureFailed

end FeedInv

/-! ## Steps and runs -/

variable [OfNat T 100]

theorem FeedInv.updateVisibility (h : FeedInv v c) (hseen : v.seen = v.sequencer.emitted)
    (hidden : Bool) :
    ∃ q : FrameSequencer T,
      FeedInv { v with sequencer := q, seen := q.emitted } (c.updateVisibility hidden now) := by
  unfold WebTransportClient.updateVisibility
  simp only
  split
  · exact ⟨v.sequencer, { h with inStep := fun hw => nomatch hw }⟩
  split
  · -- the page became visible: a new sequencer, and a wait for its first keyframe
    have hnew : FeedInv { v with sequencer := newSequencer, seen := newSequencer.emitted }
        { c with
          dropVisibility := (c.dropVisibility.setHidden hidden).1
          sequencer := newSequencer
          waitingForKeyframe := true
          lastKeyframeRequest := none } :=
      { h with
        source := rfl
        between := FrameSequencer.between_new _ _
        inStep := fun hw => nomatch hw }
    refine ⟨newSequencer, ?_⟩
    split
    · exact hnew.requestKeyframeIfAllowed
    · exact { hnew with }
  · exact ⟨v.sequencer, { h with inStep := hseen ▸ h.inStep }⟩

theorem step_feedStable {conn : Nat} {c c' : WebTransportClient T} {e : ClientEvent T}
    (hc : FeedStable conn c) (hstep : c.step conn e = some c') : FeedStable conn c' := by
  obtain ⟨q, last, h⟩ := hc
  cases e with
  | videoStream seq keyframe payload capture ordinal sizes now | incompleteStream seq sizes now
  | expireTimer sizes now =>
    simp only [step, Option.ite_none_right_eq_some, Option.some.injEq] at hstep
    obtain ⟨hlive, rfl⟩ := hstep
    obtain ⟨q', h'⟩ := h.sequence hlive rfl _ sizes
    exact ⟨q', last, h'⟩
  | visibilityChange hidden now =>
    cases hstep
    obtain ⟨q', h'⟩ := h.updateVisibility rfl hidden
    exact ⟨q', last, h'⟩
  | controlOpened now =>
    simp only [step, Option.ite_none_right_eq_some, Option.some.injEq] at hstep
    obtain ⟨-, rfl⟩ := hstep
    refine ⟨q, last, ?_⟩
    have hopened : FeedInv _ { c with controlWriter := true } := { h with }
    unfold controlOpened
    simp only
    split
    · exact .requestKeyframeIfAllowed { hopened with }
    · exact hopened
  | requestKeyframe now =>
    cases hstep
    exact ⟨q, last, h.requestKeyframeIfAllowed⟩
  | startTask constructThrows decodeThrows now =>
    simp only [step] at hstep
    split at hstep
    case h_1 frame generation rest htask hchain =>
      cases hstep
      have hgen : generation = conn := h.captured (frame, generation) (hchain ▸ List.mem_cons_self)
      subst hgen
      -- the frame taken now follows the one taken before it
      have hfollows : frame.keyframe = false → ∃ f ∈ last, FollowsSeq f frame := by
        have haccepted := h.accepted
        rw [accepted, hchain] at haccepted
        have htaken : c.taken.getLast? = last := h.last
        rw [← htaken]
        exact haccepted.follows_of_append
      have htaken := h.takeTask htask hchain
      exact ⟨q, some frame, htaken.decodeFrame htask rfl hfollows constructThrows decodeThrows⟩
    case h_2 => cases hstep
  | preferredAnswer answer configureThrows now =>
    simp only [step] at hstep
    split at hstep
    case h_1 frame generation codec id htask =>
      cases hstep
      exact ⟨q, last, h.preferredAnswer htask answer configureThrows⟩
    case h_2 => cases hstep
  | baseAnswer answer configureThrows now =>
    simp only [step] at hstep
    split at hstep
    case h_1 frame generation codec id htask =>
      cases hstep
      exact ⟨q, last, h.baseAnswer htask answer configureThrows⟩
    case h_2 => cases hstep
  | resumeTask decodeThrows now =>
    simp only [step, ← apply_ite some] at hstep
    split at hstep
    case h_1 frame generation htask =>
      cases hstep
      exact ⟨q, last, h.resume htask decodeThrows⟩
    case h_2 frame generation htask =>
      cases hstep
      exact ⟨q, last, h.resumeThrew htask⟩
    case h_3 => cases hstep
  | decoderFails id =>
    cases hstep
    exact ⟨q, last, h.close id⟩
  | errorCallback id now =>
    simp only [step, ← apply_ite some, Option.some.injEq] at hstep
    subst hstep
    refine ⟨q, last, ?_⟩
    split
    · exact h.handleDecoderError
    · exact h
  | closeCurrent =>
    cases hstep
    exact ⟨q, last, h.closeCurrent⟩
  | disconnect =>
    cases hstep
    exact ⟨q, last, h.disconnect⟩

end request

end WebTransportClient

variable [Sub T] [LT T] [DecidableLT T] [OfNat T 100] [OfNat T 500]

/-- In every state of every run of a connection, the chunks handed to each decoder instance
form a decode chain: a key chunk first, and each delta chunk numbered one more (mod 2^32)
than the chunk handed to that decoder before it. -/
theorem decoders_fed_decode_chain (generation : Nat) (visibility : DropVisibilityPolicy)
    (lastRequest : Option T) (pending : Bool) (events : List (ClientEvent T)) :
    Lts.Throughout (step generation)
      (fun c => ∀ id, DecodeChain isKey
        (fun a b => b.timestamp = a.timestamp + 1) (c.decoders id).chunks)
      (connected generation visibility lastRequest pending) events := by
  have hinv : Lts.Throughout (step generation)
      (WebTransportClient.FeedStable generation)
      (connected generation visibility lastRequest pending) events :=
    Lts.throughout_of_invariant
      (fun _ _ _ => step_feedStable)
      (feedStable_connected generation visibility lastRequest pending)
  refine hinv.mono fun c hc id => ?_
  obtain ⟨q, last, h⟩ := hc
  exact h.chunks id

end Rustcast.Browser
