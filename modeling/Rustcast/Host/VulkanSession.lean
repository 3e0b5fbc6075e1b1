import Mathlib.Algebra.Group.Nat.Defs
import Rustcast.Core.Trace

/-!
# Reference pictures of a Vulkan session

`VulkanVideoSession::encode` of `real.rs`: each picture is an IDR picture or is predicted from the picture
before it, which is in the other one of the two slots of the decoded picture buffer. A call has many steps
that may fail. `frame_num` is set before them, everything else after them.
-/

namespace Rustcast.Host

open Trace

/-! ## The session -/

structure FrameState where
  isIdr : Bool
  frameNum : Nat
  picOrderCnt : Int
  idrPicId : Nat
  deriving DecidableEq

/-- A picture that was emitted. `picture` is the number of the call, and `reference` what the reference
slot held while it was encoded. -/
structure EmittedPicture where
  state : FrameState
  picture : Nat
  reference : Option Nat
  deriving DecidableEq

/-- What a session was asked for, and what it emitted. -/
inductive VulkanEntry where
  | requested
  | emitted (p : EmittedPicture)
  deriving DecidableEq

namespace VulkanEntry

def isRequest : VulkanEntry → Bool
  | requested => true
  | emitted _ => false

def isEmitted : VulkanEntry → Bool
  | requested => false
  | emitted _ => true

def picture? : VulkanEntry → Option EmittedPicture
  | requested => none
  | emitted p => some p

end VulkanEntry

/-- The fields of the session that `encode` reads and writes, the contents of the picture buffer, and the
record of what happened. -/
structure VulkanSession where
  frameCounter : Nat := 0
  frameNum : Nat := 0
  idrPicId : Nat := 0
  idrInterval : Nat
  idrRequested : Bool := true
  rcDirty : Bool := true
  firstOp : Bool := true
  setupSlot : Nat := 0
  prevFrame : Option FrameState := none
  /-- the call whose picture is in a slot -/
  dpb : Nat → Option Nat := fun _ => none
  calls : Nat := 0
  log : List VulkanEntry := []

/-- The steps of a call that may fail. -/
inductive EncodeStep where
  | frameToNv12
  | mapStaging
  | beginTransfer
  | endTransfer
  | submitTransfer
  | beginEncode
  | endEncode
  | submitEncode
  | waitForFences
  | resetFences
  | getQueryPoolResults
  | mapBitstream
  | resetCommandBuffers
  deriving DecidableEq

/-- The error of a step, with the result of the call that failed. -/
def EncodeStep.reason (result : String) : EncodeStep → String
  | frameToNv12 => result
  | mapStaging => "Vulkan Video: vkMapMemory (staging) failed: " ++ result
  | beginTransfer | beginEncode => "Vulkan Video: vkBeginCommandBuffer failed: " ++ result
  | endTransfer | endEncode => "Vulkan Video: vkEndCommandBuffer failed: " ++ result
  | submitTransfer => "Vulkan Video: vkQueueSubmit (transfer) failed: " ++ result
  | submitEncode => "Vulkan Video: vkQueueSubmit (encode) failed: " ++ result
  | waitForFences => "Vulkan Video: vkWaitForFences failed: " ++ result
  | resetFences => "Vulkan Video: vkResetFences failed: " ++ result
  | getQueryPoolResults => "Vulkan Video: vkGetQueryPoolResults failed: " ++ result
  | mapBitstream => "Vulkan Video: vkMapMemory (bitstream) failed: " ++ result
  | resetCommandBuffers => "Vulkan Video: vkResetCommandBuffer failed: " ++ result

/-- What the environment does in a call: the step that fails and its result, and for a call that fails
after the submission whether the picture was written to its slot. -/
structure EncodeAnswer where
  fails : Option (EncodeStep × String)
  written : Bool
  deriving DecidableEq

def EncodeAnswer.attempt (answer : EncodeAnswer) (step : EncodeStep) : Except String Unit :=
  match answer.fails with
  | some (failing, result) =>
    if failing = step then .error (step.reason result) else .ok ()
  | none => .ok ()

namespace VulkanSession

/-- `VulkanVideoSession::new` -/
def new (idrInterval : Nat) : VulkanSession := { idrInterval }

variable (s : VulkanSession)

/-- `is_idr` -/
def isIdr : Bool := s.idrRequested || s.prevFrame.isNone || decide (s.frameCounter % s.idrInterval = 0)

/-- `frame_num` is zero from here on if the picture is an IDR picture. -/
def prepare : VulkanSession :=
  { s with frameNum := if s.isIdr then 0 else s.frameNum, calls := s.calls + 1 }

/-- Twice the number, in `i32`. -/
def picOrderCntOf (frameNum : Nat) : Int := Int.bmod (frameNum * 2) 4294967296

/-- The state of the picture of a session that is prepared. -/
def pictureState (isIdr : Bool) : FrameState where
  isIdr
  frameNum := s.frameNum
  picOrderCnt := picOrderCntOf s.frameNum
  idrPicId := s.idrPicId

def refSlot : Nat := 1 - s.setupSlot

/-- The encode command is executed. The first one starts with an undefined picture buffer. -/
def execute : VulkanSession :=
  { s with dpb := fun slot =>
      if slot = s.setupSlot then some s.calls else if s.firstOp then none else s.dpb slot }

/-- `LOG2_MAX_FRAME_NUM_MINUS4` -/
def log2MaxFrameNumMinus4 : Nat := 12

/-- The state is advanced after everything has succeeded. -/
def advance (state : FrameState) (reference : Option Nat) : VulkanSession :=
  { s with
    frameCounter := (s.frameCounter + 1) % 2 ^ 64
    frameNum := (s.frameNum + 1) % 2 ^ (log2MaxFrameNumMinus4 + 4)
    idrPicId := if state.isIdr then (s.idrPicId + 1) % 2 ^ 16 else s.idrPicId
    idrRequested := false
    rcDirty := false
    firstOp := false
    setupSlot := s.refSlot
    prevFrame := some state
    log := s.log ++ [.emitted ⟨state, s.calls, reference⟩] }

/-- The steps up to the submission of the encode command. -/
def submission (answer : EncodeAnswer) : Except String Unit := do
  answer.attempt .mapStaging
  answer.attempt .beginTransfer
  answer.attempt .endTransfer
  answer.attempt .submitTransfer
  answer.attempt .beginEncode
  answer.attempt .endEncode
  answer.attempt .submitEncode

/-- The steps after it. -/
def readBack (answer : EncodeAnswer) : Except String Unit := do
  answer.attempt .waitForFences
  answer.attempt .resetFences
  answer.attempt .getQueryPoolResults
  answer.attempt .mapBitstream
  answer.attempt .resetCommandBuffers

/-- The session after the call, and its result. -/
def encode (answer : EncodeAnswer) : VulkanSession × Except String FrameState :=
  match answer.attempt .frameToNv12 with
  | .error e => (s, .error e)
  | .ok () =>
    let isIdr := s.isIdr
    let s := s.prepare
    let state := s.pictureState isIdr
    match submission answer with
    -- `frame_num` stays reset here, and `idr_requested` or the counter keep the IDR picture due
    | .error e => (s, .error e)
    | .ok () =>
      match readBack answer with
      | .error e => (if answer.written then s.execute else s, .error e)
      -- what the reference slot holds is what the picture was predicted from
      | .ok () => (s.execute.advance state (s.execute.dpb s.refSlot), .ok state)

def requestIdr : VulkanSession := { s with idrRequested := true, log := s.log ++ [.requested] }

def setBitrate : VulkanSession := { s with rcDirty := true }

end VulkanSession

inductive VulkanCall where
  | encode (answer : EncodeAnswer)
  | requestIdr
  | setBitrate
  deriving DecidableEq

def VulkanSession.call (s : VulkanSession) : VulkanCall → VulkanSession
  | .encode answer => (s.encode answer).1
  | .requestIdr => s.requestIdr
  | .setBitrate => s.setBitrate

/-- A session that is used for a list of calls. -/
def VulkanSession.run (s : VulkanSession) (calls : List VulkanCall) : VulkanSession :=
  calls.foldl VulkanSession.call s

/-! ## What a decoder relies on -/

variable (log : List VulkanEntry)

def lastPicture : Option EmittedPicture :=
  (log.filterMap VulkanEntry.picture?).getLast?

def lastIdr (log : List VulkanEntry) : Option EmittedPicture :=
  ((log.filterMap VulkanEntry.picture?).filter fun p => p.state.isIdr).getLast?

/-- A picture after those that were emitted before it. -/
structure FollowsPast (past : List VulkanEntry) (p : EmittedPicture) : Prop where
  first : lastPicture past = none → p.state.isIdr = true
  idr : p.state.isIdr = true → p.state.frameNum = 0
  predicted : p.state.isIdr = false → ∃ q, lastPicture past = some q ∧
    p.state.frameNum = q.state.frameNum + 1 ∧ q.state.picOrderCnt < p.state.picOrderCnt ∧
    p.reference = some q.picture
  ids : p.state.isIdr = true → ∀ q, lastIdr past = some q → p.state.idrPicId ≠ q.state.idrPicId
  requested : Unanswered VulkanEntry.isRequest VulkanEntry.isEmitted past → p.state.isIdr = true

def Follows (past : List VulkanEntry) (entry : VulkanEntry) : Prop :=
  ∀ p, entry = .emitted p → FollowsPast past p

open VulkanEntry

@[simp] theorem lastPicture_requested : lastPicture (log ++ [.requested]) = lastPicture log := by
  simp [lastPicture, picture?]

@[simp] theorem lastPicture_emitted (p : EmittedPicture) : lastPicture (log ++ [.emitted p]) = some p := by
  simp [lastPicture, picture?]

@[simp] theorem lastIdr_requested : lastIdr (log ++ [.requested]) = lastIdr log := by
  have hnone : [requested].filterMap picture? = [] := rfl
  rw [lastIdr, List.filterMap_append, hnone, List.append_nil, lastIdr]

theorem lastIdr_emitted (p : EmittedPicture) :
    lastIdr (log ++ [.emitted p]) = if p.state.isIdr then some p else lastIdr log := by
  cases hidr : p.state.isIdr with
  | true | false => simp [lastIdr, picture?, hidr]

/-! ## One call -/

namespace VulkanSession

/-- What a call of `encode` can do. -/
inductive Encoded (s : VulkanSession) : VulkanSession → Prop where
  | untouched : Encoded s s
  | prepared : Encoded s s.prepare
  | wasted : Encoded s s.prepare.execute
  | emitted : Encoded s (s.prepare.execute.advance (s.prepare.pictureState s.isIdr)
      (s.prepare.execute.dpb s.prepare.refSlot))

/-- A call leaves the session, prepares a picture that is not emitted, or emits one. -/
theorem encode_cases (s : VulkanSession) (answer : EncodeAnswer) : s.Encoded (s.encode answer).1 := by
  unfold encode
  split
  · exact .untouched
  · split
    · exact .prepared
    · split
      · split
        · exact .wasted
        · exact .prepared
      · exact .emitted

/-- The fields of a session in terms of what it emitted. -/
structure Books (s : VulkanSession) : Prop where
  interval : 1 ≤ s.idrInterval ∧ s.idrInterval ≤ 65536
  slot : s.setupSlot ≤ 1
  counter : s.frameCounter < 2 ^ 64
  small : s.frameNum < 65536
  prev : s.prevFrame = (lastPicture s.log).map EmittedPicture.state
  /-- the next picture follows the last one, or is an IDR picture -/
  number : ∀ p, lastPicture s.log = some p → s.isIdr = true ∨ s.frameNum = p.state.frameNum + 1
  /-- an IDR picture is due before the numbers run out -/
  bound : ∀ p, lastPicture s.log = some p →
    s.frameCounter % s.idrInterval = 0 ∨ p.state.frameNum + 1 ≤ s.frameCounter % s.idrInterval
  order : ∀ p, lastPicture s.log = some p → p.state.picOrderCnt = p.state.frameNum * 2
  reference : ∀ p, lastPicture s.log = some p → s.firstOp = false ∧ s.dpb s.refSlot = some p.picture
  id : ∀ p, lastIdr s.log = some p → s.idrPicId = (p.state.idrPicId + 1) % 65536
  requested : Unanswered VulkanEntry.isRequest VulkanEntry.isEmitted s.log → s.idrRequested = true
  follows : Historically Follows s.log

variable {s : VulkanSession}

theorem books_new {idrInterval : Nat} (h : 1 ≤ idrInterval ∧ idrInterval ≤ 65536) :
    Books (new idrInterval) where
  interval := h
  slot := Nat.zero_le _
  counter := Nat.two_pow_pos 64
  small := Nat.zero_lt_succ _
  prev := rfl
  number p hp := by cases hp
  bound p hp := by cases hp
  order p hp := by cases hp
  reference p hp := by cases hp
  id p hp := by cases hp
  requested _ := rfl
  follows := historically_nil

theorem Books.setBitrate (h : Books s) : Books s.setBitrate :=
  ⟨h.interval, h.slot, h.counter, h.small, h.prev, h.number, h.bound, h.order, h.reference, h.id,
    h.requested, h.follows⟩

theorem Books.requestIdr (h : Books s) : Books s.requestIdr where
  interval := h.interval
  slot := h.slot
  counter := h.counter
  small := h.small
  prev := by
    show s.prevFrame = (lastPicture (s.log ++ [.requested])).map EmittedPicture.state
    rw [lastPicture_requested]
    exact h.prev
  number p _ := .inl rfl
  bound p hp := h.bound p (by rwa [VulkanSession.requestIdr, lastPicture_requested] at hp)
  order p hp := h.order p (by rwa [VulkanSession.requestIdr, lastPicture_requested] at hp)
  reference p hp := h.reference p (by rwa [VulkanSession.requestIdr, lastPicture_requested] at hp)
  id p hp := h.id p (by rwa [VulkanSession.requestIdr, lastIdr_requested] at hp)
  requested _ := rfl
  follows := historically_concat.mpr ⟨h.follows, fun p hp => by cases hp⟩

/-- A failure after the picture was prepared: if `frame_num` was set, an IDR picture is still due. -/
theorem Books.prepare (h : Books s) : Books s.prepare where
  interval := h.interval
  slot := h.slot
  counter := h.counter
  small := by
    have hsmall := h.small
    show (if s.isIdr then 0 else s.frameNum) < 65536
    split
    · decide
    · exact hsmall
  prev := h.prev
  number p hp := by
    show s.isIdr = true ∨ _
    -- the number is reset only if an IDR picture is due, and then it stays due
    cases hidr : s.isIdr with
    | true => exact .inl rfl
    | false =>
      refine .inr ?_
      show (if s.isIdr then 0 else s.frameNum) = _
      rw [hidr]
      exact (h.number p hp).resolve_left (by rw [hidr]; decide)
  bound := h.bound
  order := h.order
  reference := h.reference
  id := h.id
  requested := h.requested
  follows := h.follows

/-- The picture of a failed call is in the slot that the next call writes. -/
theorem dpb_execute_ref (h : s.setupSlot ≤ 1) :
    s.execute.dpb s.refSlot = if s.firstOp then none else s.dpb s.refSlot := by
  have hne : s.refSlot ≠ s.setupSlot := by
    unfold refSlot
    omega
  exact if_neg hne

theorem Books.execute (h : Books s) : Books s.execute where
  interval := h.interval
  slot := h.slot
  counter := h.counter
  small := h.small
  prev := h.prev
  number := h.number
  bound := h.bound
  order := h.order
  reference p hp := by
    obtain ⟨hfirst, hdpb⟩ := h.reference p hp
    refine ⟨hfirst, ?_⟩
    show s.execute.dpb s.refSlot = some p.picture
    rw [dpb_execute_ref h.slot, hfirst]
    exact hdpb
  id := h.id
  requested := h.requested
  follows := h.follows

/-- A session that has executed the encode command of the picture that is due. -/
structure Executed (s : VulkanSession) : Prop extends Books s where
  cleared : s.isIdr = true → s.frameNum = 0
  written : s.dpb s.setupSlot = some s.calls

theorem Books.executed (h : Books s) : Executed s.prepare.execute where
  toBooks := h.prepare.execute
  cleared hidr := by
    have hsame : s.isIdr = true := hidr
    show (if s.isIdr then 0 else s.frameNum) = 0
    rw [hsame]
    rfl
  written := if_pos rfl

theorem Books.last_of_not_idr (h : Books s) (hidr : s.isIdr = false) :
    ∃ q, lastPicture s.log = some q ∧ s.frameCounter % s.idrInterval ≠ 0 := by
  rw [isIdr, Bool.or_eq_false_iff, Bool.or_eq_false_iff, h.prev] at hidr
  obtain ⟨⟨-, hprev⟩, hcounter⟩ := hidr
  cases hlast : lastPicture s.log with
  | none =>
    rw [hlast] at hprev
    cases hprev
  | some q => exact ⟨q, rfl, of_decide_eq_false hcounter⟩

theorem picOrderCntOf_eq {frameNum : Nat} (hsmall : frameNum < 65536) :
    picOrderCntOf frameNum = frameNum * 2 := by
  apply Int.bmod_eq_of_le
  · omega
  · omega

theorem picOrderCnt_eq (hsmall : s.frameNum < 65536) (isIdr : Bool) :
    (s.pictureState isIdr).picOrderCnt = s.frameNum * 2 := by
  simp only [pictureState, picOrderCntOf_eq hsmall]

theorem Executed.followsPast (h : Executed s) :
    FollowsPast s.log ⟨s.pictureState s.isIdr, s.calls, s.dpb s.refSlot⟩ where
  first hlast := by
    show s.isIdr = true
    rw [isIdr, h.prev, hlast]
    simp
  idr hidr := h.cleared hidr
  predicted hidr := by
    obtain ⟨q, hlast, -⟩ := h.last_of_not_idr hidr
    have hnumber : s.frameNum = q.state.frameNum + 1 :=
      (h.number q hlast).resolve_left (by rw [show s.isIdr = false from hidr]; decide)
    refine ⟨q, hlast, hnumber, ?_, (h.reference q hlast).2⟩
    simp only [picOrderCnt_eq h.small, h.order q hlast]
    omega
  ids _ q hlast := by
    -- the id is one more than the last one, modulo 65536
    have hid := h.id q hlast
    show s.idrPicId ≠ q.state.idrPicId
    omega
  requested hrequest := by
    rw [isIdr, h.requested hrequest]
    rfl

theorem succ_mod {c n : Nat} (h : (c + 1) % n ≠ 0) : (c + 1) % n = c % n + 1 := by
  rcases Nat.eq_zero_or_pos n with rfl | hn
  · simp
  rw [← Nat.mod_add_mod] at h ⊢
  have hlt := Nat.mod_lt c hn
  rcases Nat.lt_or_ge (c % n + 1) n with hsmall | hlarge
  · exact Nat.mod_eq_of_lt hsmall
  · have hfull : c % n + 1 = n := by omega
    rw [hfull, Nat.mod_self] at h
    exact absurd rfl h

/-- The counter is at a multiple of the interval again before `frame_num` runs out; a counter that wraps
is at one as well. -/
theorem Executed.bound_advance (h : Executed s) :
    (s.frameCounter + 1) % 2 ^ 64 % s.idrInterval = 0 ∨
      s.frameNum + 1 ≤ (s.frameCounter + 1) % 2 ^ 64 % s.idrInterval := by
  rcases Nat.lt_or_ge (s.frameCounter + 1) (2 ^ 64) with hlt | hwrap
  · rw [Nat.mod_eq_of_lt hlt]
    by_cases hzero : (s.frameCounter + 1) % s.idrInterval = 0
    · exact .inl hzero
    refine .inr ?_
    rw [succ_mod hzero]
    apply Nat.succ_le_succ
    -- an IDR picture starts again at zero; any other is one further, as is the counter
    cases hidr : s.isIdr with
    | true =>
      rw [h.cleared hidr]
      exact Nat.zero_le _
    | false =>
      obtain ⟨q, hlast, hcounter⟩ := h.last_of_not_idr hidr
      rw [(h.number q hlast).resolve_left (by rw [hidr]; decide)]
      exact (h.bound q hlast).resolve_left hcounter
  · have hcounter := h.counter
    rw [show s.frameCounter + 1 = 2 ^ 64 from by omega]
    exact .inl rfl

theorem Executed.number_advance (h : Executed s) :
    (s.frameCounter + 1) % 2 ^ 64 % s.idrInterval = 0 ∨ (s.frameNum + 1) % 65536 = s.frameNum + 1 := by
  refine h.bound_advance.imp_right fun hbound => Nat.mod_eq_of_lt ?_
  have hlt := Nat.mod_lt ((s.frameCounter + 1) % 2 ^ 64) h.interval.1
  have hinterval := h.interval.2
  omega

theorem Executed.advance (h : Executed s) : Books (s.advance (s.pictureState s.isIdr) (s.dpb s.refSlot)) where
  interval := h.interval
  slot := Nat.sub_le _ _
  counter := Nat.mod_lt _ (Nat.two_pow_pos 64)
  small := Nat.mod_lt _ (Nat.two_pow_pos 16)
  prev := by
    show _ = (lastPicture (s.log ++ [_])).map EmittedPicture.state
    rw [lastPicture_emitted]
    rfl
  number p hp := by
    rw [VulkanSession.advance, lastPicture_emitted] at hp
    cases hp
    refine h.number_advance.imp_left fun hzero => ?_
    show (false || false || decide ((s.frameCounter + 1) % 2 ^ 64 % s.idrInterval = 0)) = true
    rw [hzero]
    rfl
  bound p hp := by
    rw [VulkanSession.advance, lastPicture_emitted] at hp
    cases hp
    exact h.bound_advance
  order p hp := by
    rw [VulkanSession.advance, lastPicture_emitted] at hp
    cases hp
    simp only [pictureState, picOrderCntOf_eq h.small]
  reference p hp := by
    rw [VulkanSession.advance, lastPicture_emitted] at hp
    cases hp
    refine ⟨rfl, ?_⟩
    -- the slots are swapped: the reference is the slot that was just written
    show s.dpb (1 - (1 - s.setupSlot)) = some s.calls
    rw [show 1 - (1 - s.setupSlot) = s.setupSlot from by have := h.slot; omega]
    exact h.written
  id p hp := by
    rw [VulkanSession.advance, lastIdr_emitted] at hp
    cases hidr : s.isIdr with
    | true =>
      rw [hidr] at hp
      cases hp
      rfl
    | false =>
      rw [hidr] at hp
      exact h.id p hp
  requested hrequest := by
    rcases unanswered_concat.mp hrequest with htrigger | ⟨-, hanswer⟩
    · cases htrigger
    · cases hanswer
  follows := by
    refine historically_concat.mpr ⟨h.follows, fun p hp => ?_⟩
    cases hp
    exact h.followsPast

/-! ## Runs -/

theorem Books.call (h : Books s) (c : VulkanCall) : Books (s.call c) := by
  cases c with
  | encode answer =>
    show Books (s.encode answer).1
    have hcases := encode_cases s answer
    generalize (s.encode answer).1 = s' at hcases
    cases hcases with
    | untouched => exact h
    | prepared => exact h.prepare
    | wasted => exact h.prepare.execute
    | emitted => exact h.executed.advance
  | requestIdr => exact h.requestIdr
  | setBitrate => exact h.setBitrate

theorem Books.run (h : Books s) (calls : List VulkanCall) : Books (s.run calls) := by
  induction calls generalizing s with
  | nil => exact h
  | cons c calls ih => exact ih (h.call c)

end VulkanSession

/-- Every picture that a session emits follows those before it, whatever fails between them. -/
theorem vulkan_reference_bookkeeping (idrInterval : Nat) (h : 1 ≤ idrInterval ∧ idrInterval ≤ 65536)
    (calls : List VulkanCall) : Historically Follows ((VulkanSession.new idrInterval).run calls).log :=
  ((VulkanSession.books_new h).run calls).follows

/-- Four pictures with an interval of three: a failure before the second one, which is submitted in vain, and
a request before the third one. -/
theorem vulkan_reference_bookkeeping_sample :
    let log := ((VulkanSession.new 3).run
      [.encode ⟨none, true⟩, .encode ⟨some (.waitForFences, "DEVICE_LOST"), true⟩, .encode ⟨none, true⟩,
        .requestIdr, .encode ⟨none, true⟩, .encode ⟨none, true⟩]).log
    log.filterMap (picture?) =
        [⟨⟨true, 0, 0, 0⟩, 1, none⟩, ⟨⟨false, 1, 2, 1⟩, 3, some 1⟩, ⟨⟨true, 0, 0, 1⟩, 4, some 3⟩,
          ⟨⟨true, 0, 0, 2⟩, 5, some 4⟩] ∧
      Historically Follows log :=
  ⟨by decide, vulkan_reference_bookkeeping 3 (by decide) _⟩

end Rustcast.Host
