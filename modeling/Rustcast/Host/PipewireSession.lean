import Rustcast.Core.Lts
import Rustcast.Core.Polling
import Rustcast.Host.Resolution

/-!
# PipeWire capture sessions

`bridge.rs`, `pipewire_source.rs`, `FrameSourceSession` of `session.rs` and the two sessions of
`backend/pipewire.rs`. The PipeWire thread pushes frames into a bridge that holds the latest one and
closes it when it ends; a capture session polls the other end.

A session is waiting for most of its life, and the thread and Mutter act meanwhile. What they do is an
input of every call: a `Poll` says what happens before the loop of a call comes round again and, for
the wait inside `recv`, what happens before each time the condition variable wakes it. `none` is a call
that has not returned on the inputs given.
-/

namespace Rustcast.Host.Pipewire

open Polling (poll schedule)

/-! ## The bridge -/

/-- A captured frame: what the bridge and the sessions look at. -/
structure BridgeFrame where
  sequence : Nat
  resolution : Resolution
  /-- The capacity of its CPU buffer. -/
  capacity : Nat
  deriving DecidableEq

def maxFreeBuffers : Nat := 2

structure Slot where
  frame : Option BridgeFrame := none
  closed : Bool := false
  /-- Frames overwritten before the consumer could take them. -/
  dropped : Nat := 0
  /-- Total frames pushed. -/
  pushed : Nat := 0
  /-- The capacities of the idle buffers. -/
  free : List Nat := []
  deriving DecidableEq

namespace Slot

variable (slot : Slot)

def recycle (capacity : Nat) : Slot :=
  if 0 < capacity ∧ slot.free.length < maxFreeBuffers then
    { slot with free := slot.free ++ [capacity] }
  else slot

def push (frame : BridgeFrame) : Slot :=
  let replaced := { slot with frame := some frame, pushed := slot.pushed + 1 }
  match slot.frame with
  | some stale => { replaced with dropped := slot.dropped + 1 }.recycle stale.capacity
  | none => replaced

/-- `FrameSink::take_buffer`: the last buffer leaves the pool. -/
def takeBuffer : Slot := { slot with free := slot.free.dropLast }

def close : Slot := { slot with closed := true }

def take : Option BridgeFrame × Slot := (slot.frame, { slot with frame := none })

end Slot

/-- What the PipeWire thread does with its end of the bridge. -/
inductive ThreadAct where
  | takeBuffer
  | push (frame : BridgeFrame)
  /-- `run_stream` has returned, with an error or without. -/
  | exit
  deriving DecidableEq

/-- Closing the bridge is the last thing the thread does. -/
def Slot.act (slot : Slot) (a : ThreadAct) : Slot :=
  if slot.closed then slot
  else
    match a with
    | .takeBuffer => slot.takeBuffer
    | .push frame => slot.push frame
    | .exit => slot.close

/-- One return of `wait_timeout`, with what the thread did since the call. -/
structure Wake where
  acts : List ThreadAct := []
  timedOut : Bool
  deriving DecidableEq

/-- The two checks at the head of the loop of `FrameSource::recv`. -/
def Slot.ready (slot : Slot) : Option (Option BridgeFrame × Slot) :=
  if slot.frame.isSome then some slot.take
  else if slot.closed then some (none, slot)
  else none

def Slot.recv (slot : Slot) : List Wake → Option (Option BridgeFrame × Slot)
  | [] => slot.ready
  | wake :: wakes =>
    match slot.ready with
    | some answer => some answer
    | none =>
      let slot := wake.acts.foldl Slot.act slot
      -- after a timeout the slot is taken without a look at `closed`
      if wake.timedOut then some slot.take else slot.recv wakes

/-! ## Sessions -/

inductive CaptureError where
  | capture (message : String)
  | captureSessionLost (message : String)
  deriving DecidableEq

/-- Which session stands over the frame source: `PortalPipewireSession` or `MutterPipewireSession`. -/
inductive Backend where
  | portal
  | mutter
  deriving DecidableEq

structure Session where
  backend : Backend
  /-- `source` of `PipewireStreamSource`. -/
  source : Option Slot
  /-- `running` of `FrameSourceSession`. -/
  running : Bool
  /-- `MutterSession::is_closed`. -/
  mutterClosed : Bool
  /-- `MutterSession::set_stream_size`. -/
  streamSize : Resolution
  deriving DecidableEq

/-- What the session does not do itself. -/
inductive Outside where
  | thread (a : ThreadAct)
  | mutterCloses
  deriving DecidableEq

/-- One round of a polling call: what happens before it, and during the wait in `recv`. -/
structure Poll where
  before : List Outside := []
  wakes : List Wake := []
  deriving DecidableEq

namespace Session

/-- A session as `start` returns it. -/
def start (backend : Backend) (size : Resolution) : Session :=
  { backend, source := some {}, running := true, mutterClosed := false, streamSize := size }

def act (s : Session) : Outside → Session
  | .thread a => { s with source := s.source.map (·.act a) }
  | .mutterCloses => { s with mutterClosed := true }

variable (s : Session)

def await (acts : List Outside) : Session := acts.foldl act s

def notConnected : CaptureError := .capture "PipeWire stream not connected"

def sessionStopped : CaptureError := .capture "session stopped"

def recvFrame (wakes : List Wake) : Option (Except CaptureError (Option BridgeFrame) × Session) :=
  match s.source with
  | some slot => (slot.recv wakes).map fun answer => (.ok answer.1, { s with source := some answer.2 })
  | none => some (.error notConnected, s)

def recvTimeout (wakes : List Wake) : Option (Except CaptureError (Option BridgeFrame) × Session) :=
  if !s.running then some (.error sessionStopped, s) else s.recvFrame wakes

/-- What a polling loop makes of `recv_frame(..)?`: an error or a frame ends it. -/
def orAgain : Except CaptureError (Option BridgeFrame) × Session →
    Option (Except CaptureError BridgeFrame) × Session
  | (.error e, s) => (some (.error e), s)
  | (.ok (some frame), s) => (some (.ok frame), s)
  -- a timeout and a closed bridge are the same here
  | (.ok none, s) => (none, s)

/-- One round of the loop of `FrameSourceSession::next_frame`. -/
def sourceRound (s : Session) (p : Poll) : Option (Option (Except CaptureError BridgeFrame) × Session) :=
  ((s.await p.before).recvFrame p.wakes).map orAgain

/-- `FrameSourceSession::next_frame`, which is that of a portal session. -/
def sourceNextFrame (polls : List Poll) : Option (Except CaptureError BridgeFrame × Session) :=
  -- `running` is looked at once: only its owner stops a session, and it is in this call
  if !s.running then some (.error sessionStopped, s) else poll sourceRound s polls

def sessionLost : CaptureError := .captureSessionLost "Mutter closed the ScreenCast/RemoteDesktop session"

def sessionLostIfClosed (closed : Bool) : Except CaptureError Unit :=
  if closed then .error sessionLost else .ok ()

/-- `sync_stream_size`, for a frame that was received. -/
def syncStreamSize : Except CaptureError (Option BridgeFrame) × Session →
    Except CaptureError (Option BridgeFrame) × Session
  | (.ok (some frame), s) => (.ok (some frame), { s with streamSize := frame.resolution })
  | (answer, s) => (answer, s)

/-- What `next_frame` and `next_frame_timeout` of a Mutter session have in common. -/
def mutterRecv (s : Session) (p : Poll) : Option (Except CaptureError (Option BridgeFrame) × Session) :=
  let s := s.await p.before
  match sessionLostIfClosed s.mutterClosed with
  | .error e => some (.error e, s)
  | .ok () => (s.recvTimeout p.wakes).map syncStreamSize

/-- One round of the loop of `MutterPipewireSession::next_frame`. -/
def mutterRound (p : Poll) : Option (Option (Except CaptureError BridgeFrame) × Session) :=
  (s.mutterRecv p).map orAgain

def nextFrame (s : Session) (polls : List Poll) : Option (Except CaptureError BridgeFrame × Session) :=
  match s.backend with
  | .portal => s.sourceNextFrame polls
  | .mutter => poll mutterRound s polls

/-- `next_frame_timeout`. A portal session has the default of the trait, which is `next_frame`; one of
Mutter polls once. -/
def nextFrameTimeout (polls : List Poll) : Option (Except CaptureError (Option BridgeFrame) × Session) :=
  match s.backend with
  | .portal => (s.nextFrame polls).map fun answer => (answer.1.map some, answer.2)
  | .mutter => polls.head?.bind s.mutterRecv

def sourceTryNextFrame (wakes : List Wake) : Option (Except CaptureError (Option BridgeFrame) × Session) :=
  if !s.running then some (.ok none, s) else s.recvFrame wakes

def tryNextFrame (p : Poll) : Option (Except CaptureError (Option BridgeFrame) × Session) :=
  let s := s.await p.before
  match s.backend with
  | .portal => s.sourceTryNextFrame p.wakes
  | .mutter =>
    match sessionLostIfClosed s.mutterClosed with
    | .error e => some (.error e, s)
    | .ok () => (s.sourceTryNextFrame p.wakes).map syncStreamSize

def recycleFrame (frame : BridgeFrame) : Session :=
  { s with source := s.source.map (·.recycle frame.capacity) }

/-- `stop`: `disconnect` joins the thread and drops the bridge. -/
def stop : Session := { s with running := false, source := none }

end Session

/-! ## Runs -/

inductive Event where
  | outside (o : Outside)
  | nextFrame (polls : List Poll)
  | nextFrameTimeout (polls : List Poll)
  | tryNextFrame (p : Poll)
  | recycleFrame (frame : BridgeFrame)
  | stop
  deriving DecidableEq

/-- The session belongs to the capture loop: a call has to return before the next one. -/
def step (s : Session) : Event → Option Session
  | .outside o => some (s.act o)
  | .nextFrame polls => (s.nextFrame polls).map Prod.snd
  | .nextFrameTimeout polls => (s.nextFrameTimeout polls).map Prod.snd
  | .tryNextFrame p => (s.tryNextFrame p).map Prod.snd
  | .recycleFrame frame => some (s.recycleFrame frame)
  | .stop => some s.stop

/-! ## What every call leaves behind

All that matters below is that no operation reopens a bridge and that nothing enters a closed one. -/

/-- A later state of the same bridge. -/
structure Slot.Follows (slot slot' : Slot) : Prop where
  closed : slot.closed = true → slot'.closed = true
  drained : slot.closed = true → slot.frame = none → slot'.frame = none

variable {slot : Slot} {answer : Option (Except CaptureError BridgeFrame)}
  {r : Except CaptureError (Option BridgeFrame)} {e : Event}

variable {slot' : Slot} {events : List Event}

namespace Slot

theorem Follows.refl (slot : Slot) : slot.Follows slot := ⟨id, fun _ hframe => hframe⟩

theorem Follows.trans {a b c : Slot} (hab : a.Follows b) (hbc : b.Follows c) : a.Follows c where
  closed hclosed := hbc.closed (hab.closed hclosed)
  drained hclosed hframe := hbc.drained (hab.closed hclosed) (hab.drained hclosed hframe)

theorem act_of_closed (h : slot.closed = true) (a : ThreadAct) : slot.act a = slot :=
  if_pos h

theorem follows_act (slot : Slot) (a : ThreadAct) : slot.Follows (slot.act a) where
  closed hclosed := by rw [act_of_closed hclosed, hclosed]
  drained hclosed hframe := by rw [act_of_closed hclosed, hframe]

theorem follows_acts (slot : Slot) (acts : List ThreadAct) : slot.Follows (acts.foldl Slot.act slot) := by
  induction acts generalizing slot with
  | nil => exact .refl slot
  | cons a acts ih => exact (slot.follows_act a).trans (ih (slot.act a))

theorem follows_take (slot : Slot) : slot.Follows slot.take.2 := ⟨id, fun _ _ => rfl⟩

theorem follows_recycle (slot : Slot) (capacity : Nat) : slot.Follows (slot.recycle capacity) := by
  unfold recycle
  split
  · exact ⟨id, fun _ hframe => hframe⟩
  · exact .refl slot

theorem follows_ready {answer : Option BridgeFrame × Slot} (h : slot.ready = some answer) :
    slot.Follows answer.2 := by
  unfold ready at h
  split at h
  · cases h
    exact slot.follows_take
  · obtain ⟨-, h⟩ := Option.ite_none_right_eq_some.mp h
    cases h
    exact .refl slot

theorem follows_recv {wakes : List Wake} {answer : Option BridgeFrame × Slot}
    (h : slot.recv wakes = some answer) : slot.Follows answer.2 := by
  induction wakes generalizing slot with
  | nil => exact follows_ready h
  | cons wake wakes ih =>
    cases hready : slot.ready with
    | some answered =>
      rw [recv, hready] at h
      cases h
      exact follows_ready hready
    | none =>
      -- the wait is over: either the timeout takes what is there, or the loop goes on
      have hacts := slot.follows_acts wake.acts
      simp only [recv, hready] at h
      split at h
      · cases h
        exact hacts.trans (follows_take _)
      · exact hacts.trans (ih h)

/-- The thread has ended and the last frame is gone. -/
def Dead (slot : Slot) : Prop := slot.closed = true ∧ slot.frame = none

instance decidableDead (slot : Slot) : Decidable slot.Dead :=
  inferInstanceAs (Decidable (slot.closed = true ∧ slot.frame = none))

theorem Dead.follows (h : slot.Dead) (hfollows : slot.Follows slot') :
    slot'.Dead := ⟨hfollows.closed h.1, hfollows.drained h.1 h.2⟩

/-- A dead bridge answers at once, and with what a timeout answers. -/
theorem Dead.recv_eq (h : slot.Dead) (wakes : List Wake) : slot.recv wakes = some (none, slot) := by
  have hready : slot.ready = some (none, slot) := by
    simp only [ready, h.1, h.2, Option.isSome_none, Bool.false_eq_true, if_false, if_true]
  cases wakes with
  | nil => exact hready
  | cons wake wakes => rw [recv, hready]

end Slot

namespace Session

/-- A later state of a session that was not stopped in between. -/
structure Follows (s s' : Session) : Prop where
  running_eq : s'.running = s.running
  isSome_eq : s'.source.isSome = s.source.isSome
  source : ∀ slot ∈ s.source, ∀ slot' ∈ s'.source, slot.Follows slot'

theorem follows_of_source_eq {s s' : Session} (hrunning : s'.running = s.running)
    (hsource : s'.source = s.source) : s.Follows s' where
  running_eq := hrunning
  isSome_eq := by rw [hsource]
  source slot hslot slot' hslot' := by
    rw [hsource] at hslot'
    cases Option.mem_unique hslot hslot'
    exact .refl slot

theorem Follows.refl (s : Session) : s.Follows s := follows_of_source_eq rfl rfl

/-- The bridge of the later state comes from one of the earlier state. -/
theorem Follows.exists_source {s s' : Session} (h : s.Follows s') (hslot' : slot' ∈ s'.source) :
    ∃ slot ∈ s.source, slot.Follows slot' := by
  have hsome : s.source.isSome = true := by
    rw [← h.isSome_eq]
    exact Option.isSome_of_mem hslot'
  obtain ⟨slot, hslot⟩ := Option.isSome_iff_exists.mp hsome
  exact ⟨slot, hslot, h.source slot hslot slot' hslot'⟩

theorem Follows.trans {a b c : Session} (hab : a.Follows b) (hbc : b.Follows c) : a.Follows c where
  running_eq := hbc.running_eq.trans hab.running_eq
  isSome_eq := hbc.isSome_eq.trans hab.isSome_eq
  source slot hslot slot'' hslot'' := by
    obtain ⟨slot', hslot', hfollows⟩ := hbc.exists_source hslot''
    exact (hab.source slot hslot slot' hslot').trans hfollows

theorem follows_map (s : Session) {f : Slot → Slot} (hf : ∀ slot : Slot, slot.Follows (f slot)) :
    s.Follows { s with source := s.source.map f } where
  running_eq := rfl
  isSome_eq := Option.isSome_map
  source slot hslot slot' hslot' := by
    obtain ⟨slot₀, hslot₀, rfl⟩ := Option.map_eq_some_iff.mp hslot'
    cases Option.mem_unique hslot hslot₀
    exact hf slot

theorem follows_act (s : Session) (o : Outside) : s.Follows (s.act o) := by
  cases o with
  | thread a => exact s.follows_map fun slot => slot.follows_act a
  | mutterCloses => exact follows_of_source_eq rfl rfl

theorem follows_await (s : Session) (acts : List Outside) : s.Follows (s.await acts) := by
  induction acts generalizing s with
  | nil => exact .refl s
  | cons o acts ih => exact (s.follows_act o).trans (ih (s.act o))

variable {s s' : Session} {wakes : List Wake} {p : Poll} {polls : List Poll}

theorem follows_recvFrame (h : s.recvFrame wakes = some (r, s')) : s.Follows s' := by
  unfold recvFrame at h
  cases hsource : s.source with
  | none =>
    rw [hsource] at h
    cases h
    exact .refl s
  | some slot =>
    rw [hsource] at h
    obtain ⟨answer, hrecv, heq⟩ := Option.map_eq_some_iff.mp h
    cases heq
    -- the slot that `recv` leaves is put back
    refine ⟨rfl, by rw [hsource]; rfl, fun slot₀ hslot₀ slot' hslot' => ?_⟩
    rw [hsource] at hslot₀
    cases hslot₀
    cases hslot'
    exact Slot.follows_recv hrecv

theorem follows_recvTimeout (h : s.recvTimeout wakes = some (r, s')) : s.Follows s' := by
  unfold recvTimeout at h
  split at h
  · cases h
    exact .refl s
  · exact follows_recvFrame h

theorem follows_orAgain (answer : Except CaptureError (Option BridgeFrame) × Session) :
    answer.2.Follows (orAgain answer).2 := by
  unfold orAgain
  split <;> exact .refl _

theorem follows_syncStreamSize (answer : Except CaptureError (Option BridgeFrame) × Session) :
    answer.2.Follows (syncStreamSize answer).2 := by
  unfold syncStreamSize
  split
  · exact follows_of_source_eq rfl rfl
  · exact .refl _

/-- What is made of a reception follows it. -/
theorem follows_of_map {α β : Type} {received : Option (α × Session)} {f : α × Session → β × Session}
    (hf : ∀ x : α × Session, x.2.Follows (f x).2) (hreceived : ∀ a t, received = some (a, t) → s.Follows t)
    {b : β} (h : received.map f = some (b, s')) : s.Follows s' := by
  obtain ⟨⟨a, t⟩, hrecv, heq⟩ := Option.map_eq_some_iff.mp h
  have hnow := hf (a, t)
  rw [heq] at hnow
  exact (hreceived a t hrecv).trans hnow

theorem follows_mutterRecv (h : s.mutterRecv p = some (r, s')) : s.Follows s' := by
  have hawait := s.follows_await p.before
  unfold mutterRecv at h
  dsimp only at h
  split at h
  · cases h
    exact hawait
  · exact hawait.trans (follows_of_map follows_syncStreamSize (fun _ _ => follows_recvTimeout) h)

theorem follows_sourceRound (h : s.sourceRound p = some (answer, s')) : s.Follows s' :=
  (s.follows_await p.before).trans (follows_of_map follows_orAgain (fun _ _ => follows_recvFrame) h)

theorem follows_mutterRound (h : s.mutterRound p = some (answer, s')) : s.Follows s' :=
  follows_of_map follows_orAgain (fun _ _ => follows_mutterRecv) h

theorem follows_poll
    {round : Session → Poll → Option (Option (Except CaptureError BridgeFrame) × Session)}
    (hround : ∀ {t p answer t'}, round t p = some (answer, t') → t.Follows t')
    {r : Except CaptureError BridgeFrame} (h : poll round s polls = some (r, s')) : s.Follows s' :=
  Polling.poll_invariant (fun _ _ _ _ hs hr => hs.trans (hround hr)) (.refl s) h

theorem follows_nextFrame {r : Except CaptureError BridgeFrame}
    (h : s.nextFrame polls = some (r, s')) : s.Follows s' := by
  unfold nextFrame at h
  split at h
  · unfold sourceNextFrame at h
    split at h
    · cases h
      exact .refl s
    · exact follows_poll follows_sourceRound h
  · exact follows_poll follows_mutterRound h

theorem follows_nextFrameTimeout (h : s.nextFrameTimeout polls = some (r, s')) : s.Follows s' := by
  unfold nextFrameTimeout at h
  split at h
  · obtain ⟨⟨r', t⟩, hnext, heq⟩ := Option.map_eq_some_iff.mp h
    cases heq
    exact follows_nextFrame hnext
  · obtain ⟨p, -, hrecv⟩ := Option.bind_eq_some_iff.mp h
    exact follows_mutterRecv hrecv

theorem follows_sourceTryNextFrame (h : s.sourceTryNextFrame wakes = some (r, s')) : s.Follows s' := by
  unfold sourceTryNextFrame at h
  split at h
  · cases h
    exact .refl s
  · exact follows_recvFrame h

theorem follows_tryNextFrame (h : s.tryNextFrame p = some (r, s')) : s.Follows s' := by
  have hawait := s.follows_await p.before
  unfold tryNextFrame at h
  dsimp only at h
  split at h
  · exact hawait.trans (follows_sourceTryNextFrame h)
  · split at h
    · cases h
      exact hawait
    · exact hawait.trans (follows_of_map follows_syncStreamSize (fun _ _ => follows_sourceTryNextFrame) h)

end Session

open Session (Follows)

variable {s s' : Session}

theorem step_cases (h : step s e = some s') : s.Follows s' ∨ s' = s.stop := by
  cases e with
  | outside o =>
    cases h
    exact .inl (s.follows_act o)
  | nextFrame polls =>
    obtain ⟨⟨r, t⟩, hcall, rfl⟩ := Option.map_eq_some_iff.mp h
    exact .inl (Session.follows_nextFrame hcall)
  | nextFrameTimeout polls =>
    obtain ⟨⟨r, t⟩, hcall, rfl⟩ := Option.map_eq_some_iff.mp h
    exact .inl (Session.follows_nextFrameTimeout hcall)
  | tryNextFrame p =>
    obtain ⟨⟨r, t⟩, hcall, rfl⟩ := Option.map_eq_some_iff.mp h
    exact .inl (Session.follows_tryNextFrame hcall)
  | recycleFrame frame =>
    cases h
    exact .inl (s.follows_map fun slot => slot.follows_recycle frame.capacity)
  | stop =>
    cases h
    exact .inr rfl

/-- A session holds its bridge until it is stopped. -/
def Connected (s : Session) : Prop := s.running = s.source.isSome

instance decidableConnected (s : Session) : Decidable (Connected s) :=
  inferInstanceAs (Decidable (_ = _))

/-- The capture thread has ended and the last frame has been taken. -/
def Lost (s : Session) : Prop := ∀ slot ∈ s.source, slot.Dead

theorem connected_step (hs : Connected s) (h : step s e = some s') : Connected s' := by
  rcases step_cases h with hfollows | rfl
  · exact hfollows.running_eq.trans (hs.trans hfollows.isSome_eq.symm)
  · rfl

theorem lost_step (hs : Lost s) (h : step s e = some s') : Lost s' := by
  rcases step_cases h with hfollows | rfl
  · intro slot' hslot'
    obtain ⟨slot, hslot, hfollows⟩ := hfollows.exists_source hslot'
    exact (hs slot hslot).follows hfollows
  · intro slot hslot
    cases hslot

theorem connected_run {backend : Backend} {size : Resolution}
    (h : Lts.run step (.start backend size) events = some s) : Connected s := by
  have hstart : Connected (.start backend size) := rfl
  exact (Lts.throughout_of_invariant (fun _ _ _ => connected_step) hstart).last h

theorem lost_run (hs : Lost s) (h : Lts.run step s events = some s') : Lost s' :=
  (Lts.throughout_of_invariant (fun _ _ _ => lost_step) hs).last h

/-! ## Calls on a dead source -/

namespace Session

/-- A session that runs on a dead bridge. -/
structure OnDead (s : Session) : Prop where
  running : s.running = true
  dead : ∃ slot, s.source = some slot ∧ slot.Dead

theorem onDead_of_lost (hconnected : Connected s) (hlost : Lost s) (hrunning : s.running = true) :
    s.OnDead := by
  obtain ⟨slot, hslot⟩ := Option.isSome_iff_exists.mp (hconnected.symm.trans hrunning)
  exact ⟨hrunning, slot, hslot, hlost slot hslot⟩

namespace OnDead

variable (h : s.OnDead)

include h

theorem follows (hfollows : s.Follows s') : s'.OnDead := by
  obtain ⟨slot, hslot, hdead⟩ := h.dead
  have hsome : s'.source.isSome = true := by rw [hfollows.isSome_eq, hslot]; rfl
  obtain ⟨slot', hslot'⟩ := Option.isSome_iff_exists.mp hsome
  exact ⟨hfollows.running_eq.trans h.running, slot', hslot',
    hdead.follows (hfollows.source slot hslot slot' hslot')⟩

/-- The bridge's answer is handed up as "no frame yet". -/
theorem recvFrame_eq (wakes : List Wake) : s.recvFrame wakes = some (.ok none, s) := by
  obtain ⟨slot, hslot, hdead⟩ := h.dead
  have hsame : { s with source := some slot } = s := by rw [← hslot]
  simp only [recvFrame, hslot, hdead.recv_eq, Option.map_some, hsame]

theorem recvTimeout_eq (wakes : List Wake) : s.recvTimeout wakes = some (.ok none, s) := by
  rw [recvTimeout, h.running]
  exact h.recvFrame_eq wakes

theorem sourceRound_eq (p : Poll) : s.sourceRound p = some (none, s.await p.before) := by
  rw [sourceRound, (h.follows (s.follows_await p.before)).recvFrame_eq]
  rfl

end OnDead

theorem await_mutterClosed (s : Session) (acts : List Outside) :
    (s.await acts).mutterClosed = true ↔ s.mutterClosed = true ∨ .mutterCloses ∈ acts := by
  induction acts generalizing s with
  | nil => simp [await]
  | cons o acts ih =>
    change ((s.act o).await acts).mutterClosed = true ↔ _
    rw [ih]
    cases o with
    | thread a => simp [act]
    | mutterCloses => simp [act]

/-- Mutter's flag is set when poll `p` looks at it. -/
def ClosedAt (s : Session) (p : Poll) : Prop := (s.await p.before).mutterClosed = true

instance decidableClosedAt (s : Session) (p : Poll) : Decidable (s.ClosedAt p) :=
  inferInstanceAs (Decidable (_ = true))

theorem mutterRecv_of_closedAt {p : Poll} (h : s.ClosedAt p) :
    s.mutterRecv p = some (.error sessionLost, s.await p.before) := by
  have h : (s.await p.before).mutterClosed = true := h
  simp only [mutterRecv, h, sessionLostIfClosed, if_true]

theorem OnDead.mutterRecv_of_not_closedAt (hs : s.OnDead) {p : Poll} (h : ¬s.ClosedAt p) :
    s.mutterRecv p = some (.ok none, s.await p.before) := by
  have h : (s.await p.before).mutterClosed = false := Bool.not_eq_true _ ▸ h
  have hrecv := (hs.follows (s.follows_await p.before)).recvTimeout_eq p.wakes
  simp only [mutterRecv, h, sessionLostIfClosed, Bool.false_eq_true, if_false, hrecv, Option.map_some,
    syncStreamSize]

theorem mutterRound_of_closes {p : Poll} (h : .mutterCloses ∈ p.before) :
    ∃ r s', s.mutterRound p = some (some r, s') ∧ ∃ e, r = .error e := by
  have hat : s.ClosedAt p := (s.await_mutterClosed _).mpr (.inr h)
  rw [mutterRound, mutterRecv_of_closedAt hat]
  exact ⟨_, _, rfl, _, rfl⟩

/-- A session on a dead bridge that Mutter has not closed. -/
structure Waiting (s : Session) : Prop where
  onDead : s.OnDead
  notClosed : s.mutterClosed = false

theorem Waiting.mutterRound_of_not_closes (hs : s.Waiting) {p : Poll} (h : .mutterCloses ∉ p.before) :
    ∃ s', s.mutterRound p = some (none, s') ∧ s'.Waiting := by
  have hat : ¬s.ClosedAt p := by
    rw [ClosedAt, s.await_mutterClosed, hs.notClosed]
    exact not_or.mpr ⟨Bool.false_ne_true, h⟩
  rw [mutterRound, hs.onDead.mutterRecv_of_not_closedAt hat]
  exact ⟨_, rfl, hs.onDead.follows (s.follows_await p.before), Bool.not_eq_true _ ▸ hat⟩

theorem mutterRecv_of_stopped (h : s.running = false) (p : Poll) :
    ∃ e s', s.mutterRecv p = some (.error e, s') := by
  by_cases hclosed : s.ClosedAt p
  · exact ⟨_, _, mutterRecv_of_closedAt hclosed⟩
  · have hclosed : (s.await p.before).mutterClosed = false := Bool.not_eq_true _ ▸ hclosed
    have hstopped : (s.await p.before).running = false := (s.follows_await p.before).running_eq.trans h
    refine ⟨sessionStopped, s.await p.before, ?_⟩
    simp only [mutterRecv, hclosed, sessionLostIfClosed, Bool.false_eq_true, if_false, recvTimeout,
      hstopped, Bool.not_false, if_true, Option.map_some, syncStreamSize]

end Session

/-! ## Who notices -/

/-- `next_frame` returns with an error after finitely many polls. -/
def NextFrameErrs (s : Session) (polls : ℕ → Poll) : Prop :=
  ∃ n r s', s.nextFrame (schedule polls n) = some (r, s') ∧ ∃ e, r = .error e

/-- So does `next_frame_timeout`. -/
def NextFrameTimeoutErrs (s : Session) (polls : ℕ → Poll) : Prop :=
  ∃ n r s', s.nextFrameTimeout (schedule polls n) = some (r, s') ∧ ∃ e, r = .error e

structure NoticesLoss (s : Session) (polls : ℕ → Poll) : Prop where
  nextFrame : NextFrameErrs s polls
  nextFrameTimeout : NextFrameTimeoutErrs s polls

section

variable (polls : ℕ → Poll)

theorem nextFrame_portal (h : s.backend = .portal) (ps : List Poll) :
    s.nextFrame ps = s.sourceNextFrame ps := by
  rw [Session.nextFrame, h]

theorem nextFrame_mutter (h : s.backend = .mutter) (ps : List Poll) :
    s.nextFrame ps = poll Session.mutterRound s ps := by
  rw [Session.nextFrame, h]

/-- The trait's default hands the answer of `next_frame` on. -/
theorem timeoutErrs_portal_iff (h : s.backend = .portal) :
    NextFrameTimeoutErrs s polls ↔ NextFrameErrs s polls := by
  have hcall : ∀ ps, s.nextFrameTimeout ps =
      (s.nextFrame ps).map fun answer => (answer.1.map some, answer.2) := fun ps => by
    rw [Session.nextFrameTimeout, h]
  constructor
  · rintro ⟨n, r, s', htimeout, e, rfl⟩
    rw [hcall] at htimeout
    obtain ⟨⟨r', t⟩, hnext, heq⟩ := Option.map_eq_some_iff.mp htimeout
    cases r' with
    | error e' => exact ⟨n, .error e', t, hnext, e', rfl⟩
    | ok frame => cases heq
  · rintro ⟨n, r, s', hnext, e, rfl⟩
    refine ⟨n, .error e, s', ?_, e, rfl⟩
    rw [hcall, hnext]
    rfl

/-- One poll decides `next_frame_timeout` of a Mutter session. -/
theorem timeoutErrs_mutter_iff (h : s.backend = .mutter) :
    NextFrameTimeoutErrs s polls ↔ ∃ e s', s.mutterRecv (polls 0) = some (.error e, s') := by
  have hcall : ∀ ps, s.nextFrameTimeout ps = ps.head?.bind s.mutterRecv := fun ps => by
    rw [Session.nextFrameTimeout, h]
  constructor
  · rintro ⟨n, r, s', htimeout, e, rfl⟩
    rw [hcall] at htimeout
    -- without a poll the call has not returned; the polls after the first are not looked at
    cases n with
    | zero => cases htimeout
    | succ n =>
      rw [schedule, List.range_succ_eq_map] at htimeout
      exact ⟨e, s', htimeout⟩
  · rintro ⟨e, s', hrecv⟩
    refine ⟨1, .error e, s', ?_, e, rfl⟩
    rw [hcall]
    exact hrecv

/-- A portal session polls a dead bridge for ever. -/
theorem nextFrameErrs_portal_iff (hbackend : s.backend = .portal) (hconnected : Connected s)
    (hlost : Lost s) : NextFrameErrs s polls ↔ s.running = false := by
  constructor
  · rintro ⟨n, r, s', hnext, -⟩
    cases hrunning : s.running with
    | false => rfl
    | true =>
      rw [nextFrame_portal hbackend, Session.sourceNextFrame, hrunning] at hnext
      -- no input tells the loop anything while the bridge is dead
      have hanswered := (Polling.poll_answers_iff Session.OnDead (fun _ => False) (fun _ => True)
        (fun _ _ _ htells => htells.elim)
        (fun t p ht _ => ⟨_, ht.sourceRound_eq p, ht.follows (t.follows_await p.before)⟩)
        (Session.onDead_of_lost hconnected hlost hrunning)).mp ⟨r, s', hnext, trivial⟩
      obtain ⟨_, -, hfalse⟩ := hanswered
      exact hfalse.elim
  · intro hstopped
    refine ⟨0, .error Session.sessionStopped, s, ?_, _, rfl⟩
    rw [nextFrame_portal hbackend, Session.sourceNextFrame, hstopped]
    rfl

section

variable (hbackend : s.backend = .mutter)

include hbackend

/-- One round of Mutter's loop that ends it with an error. -/
theorem nextFrameErrs_of_mutterRecv {e : CaptureError} (h : s.mutterRecv (polls 0) = some (.error e, s')) :
    NextFrameErrs s polls := by
  refine ⟨1, .error e, s', ?_, e, rfl⟩
  rw [nextFrame_mutter hbackend]
  refine Polling.poll_cons_of_answer ?_
  rw [Session.mutterRound, h]
  rfl

/-- A Mutter session polls a dead bridge until Mutter's flag is set. -/
theorem nextFrameErrs_mutter_iff (hconnected : Connected s) (hlost : Lost s) :
    NextFrameErrs s polls ↔
      s.running = false ∨ s.mutterClosed = true ∨ ∃ i, .mutterCloses ∈ (polls i).before := by
  cases hrunning : s.running with
  | false =>
    obtain ⟨e, s', hrecv⟩ := Session.mutterRecv_of_stopped hrunning (polls 0)
    exact ⟨fun _ => .inl rfl, fun _ => nextFrameErrs_of_mutterRecv polls hbackend hrecv⟩
  | true =>
    cases hclosed : s.mutterClosed with
    | true =>
      have hat : s.ClosedAt (polls 0) := (s.await_mutterClosed _).mpr (.inl hclosed)
      exact ⟨fun _ => .inr (.inl rfl),
        fun _ => nextFrameErrs_of_mutterRecv polls hbackend (Session.mutterRecv_of_closedAt hat)⟩
    | false =>
      -- the loop ends with the first round that Mutter closes before
      have hloop := Polling.poll_schedule_answers_iff Session.Waiting
        (fun p : Poll => Outside.mutterCloses ∈ p.before)
        (fun r : Except CaptureError BridgeFrame => ∃ e, r = .error e) polls
        (fun _ _ _ => Session.mutterRound_of_closes) (fun _ _ ht => ht.mutterRound_of_not_closes)
        ⟨Session.onDead_of_lost hconnected hlost hrunning, hclosed⟩
      unfold NextFrameErrs
      simp only [nextFrame_mutter hbackend, hloop, Bool.true_eq_false, Bool.false_eq_true, false_or]

theorem nextFrameTimeoutErrs_mutter_iff (hconnected : Connected s) (hlost : Lost s) :
    NextFrameTimeoutErrs s polls ↔ s.running = false ∨ s.ClosedAt (polls 0) := by
  rw [timeoutErrs_mutter_iff polls hbackend]
  constructor
  · rintro ⟨e, s', hrecv⟩
    cases hrunning : s.running with
    | false => exact .inl rfl
    | true =>
      by_cases hat : s.ClosedAt (polls 0)
      · exact .inr hat
      · rw [(Session.onDead_of_lost hconnected hlost hrunning).mutterRecv_of_not_closedAt hat] at hrecv
        cases hrecv
  · rintro (hstopped | hat)
    · exact Session.mutterRecv_of_stopped hstopped (polls 0)
    · exact ⟨_, _, Session.mutterRecv_of_closedAt hat⟩

end

/-- The blocking call alone, for both sessions. -/
theorem nextFrameErrs_iff (hconnected : Connected s) (hlost : Lost s) :
    NextFrameErrs s polls ↔
      s.running = false ∨
        s.backend = .mutter ∧ (s.mutterClosed = true ∨ ∃ i, .mutterCloses ∈ (polls i).before) := by
  cases hbackend : s.backend with
  | portal =>
    rw [nextFrameErrs_portal_iff polls hbackend hconnected hlost]
    exact ⟨.inl, fun hcond => hcond.resolve_right fun hmutter => Backend.noConfusion hmutter.1⟩
  | mutter =>
    rw [nextFrameErrs_mutter_iff polls hbackend hconnected hlost]
    exact or_congr_right (and_iff_right rfl).symm

/-- Both calls. Since `next_frame_timeout` of a Mutter session polls once, the flag has to be set by
then. -/
theorem noticesLoss_iff (hconnected : Connected s) (hlost : Lost s) :
    NoticesLoss s polls ↔ s.running = false ∨ s.backend = .mutter ∧ s.ClosedAt (polls 0) := by
  cases hbackend : s.backend with
  | portal =>
    have hnext := nextFrameErrs_portal_iff polls hbackend hconnected hlost
    constructor
    · intro hnotices
      exact .inl (hnext.mp hnotices.nextFrame)
    · rintro (hstopped | ⟨hmutter, -⟩)
      · have herrs := hnext.mpr hstopped
        exact ⟨herrs, (timeoutErrs_portal_iff polls hbackend).mpr herrs⟩
      · cases hmutter
  | mutter =>
    have htimeout := nextFrameTimeoutErrs_mutter_iff polls hbackend hconnected hlost
    constructor
    · intro hnotices
      exact (htimeout.mp hnotices.nextFrameTimeout).imp_right fun hat => ⟨rfl, hat⟩
    · intro hcond
      have herrs := htimeout.mpr (hcond.imp_right And.right)
      obtain ⟨e, t, hrecv⟩ := (timeoutErrs_mutter_iff polls hbackend).mp herrs
      exact ⟨nextFrameErrs_of_mutterRecv polls hbackend hrecv, herrs⟩

end

/-- The loss of the capture thread is noticed by the calls that follow it exactly if the session was
stopped, or if it is a Mutter session and Mutter has set its own flag when the call looks at it; the
blocking call alone also returns if the flag is set at a later poll. -/
theorem loss_noticed_iff (backend : Backend) (size : Resolution) (events later : List Event)
    (s s' : Session) (hrun : Lts.run step (.start backend size) events = some s) (hlost : Lost s)
    (hlater : Lts.run step s later = some s') (polls : ℕ → Poll) :
    (NoticesLoss s' polls ↔
        s'.running = false ∨ s'.backend = .mutter ∧ s'.ClosedAt (polls 0)) ∧
      (NextFrameErrs s' polls ↔
        s'.running = false ∨
          s'.backend = .mutter ∧ (s'.mutterClosed = true ∨ ∃ i, .mutterCloses ∈ (polls i).before)) := by
  have hconnected : Connected s' := connected_run (Lts.run_trans hrun hlater)
  have hlost : Lost s' := lost_run hlost hlater
  exact ⟨noticesLoss_iff polls hconnected hlost, nextFrameErrs_iff polls hconnected hlost⟩

/-- A session whose thread exits before it has delivered a frame. -/
def exitedAtStart (backend : Backend) : Session :=
  (Session.start backend ⟨1920, 1080⟩).act (.thread .exit)

theorem lost_exitedAtStart (backend : Backend) : Lost (exitedAtStart backend) := by
  intro slot hslot
  cases hslot
  decide

theorem loss_noticed_mutter : NoticesLoss (exitedAtStart .mutter) fun _ => { before := [.mutterCloses] } :=
  (loss_noticed_iff .mutter ⟨1920, 1080⟩ [.outside (.thread .exit)] [] (exitedAtStart .mutter)
    (exitedAtStart .mutter) rfl (lost_exitedAtStart .mutter) rfl _).1.mpr (.inr ⟨rfl, by decide⟩)

/-- The thread exits and the portal session goes on: whatever happens, no number of polls makes a call
return with an error. -/
theorem loss_unnoticed :
    Lts.run step (.start .portal ⟨1920, 1080⟩) [.outside (.thread .exit)] =
        some (exitedAtStart .portal) ∧
      Lost (exitedAtStart .portal) ∧
      ∀ polls, ¬NextFrameErrs (exitedAtStart .portal) polls ∧
        ¬NextFrameTimeoutErrs (exitedAtStart .portal) polls := by
  have hnext : ∀ polls, ¬NextFrameErrs (exitedAtStart .portal) polls := by
    intro polls
    rw [nextFrameErrs_portal_iff polls rfl (by decide) (lost_exitedAtStart .portal)]
    decide
  refine ⟨rfl, lost_exitedAtStart .portal, fun polls => ⟨hnext polls, ?_⟩⟩
  rw [timeoutErrs_portal_iff polls rfl]
  exact hnext polls

end Rustcast.Host.Pipewire
