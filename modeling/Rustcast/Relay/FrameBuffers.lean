import Mathlib.Algebra.Order.Group.Multiset
import Rustcast.Core.Custody
import Rustcast.Relay.Upstream

/-!
# Frame buffers of the relay

`frameBufferPool` of `upstream.go`, `release` of `frame.go`, and the goroutines of an upstream that pass
pooled frames on: the reader (`readPayload`, `queueFrame`), the frame pusher (`nextFrame`, `latestFrame`,
the write and the release after it) and `stop`.

A slice names the array it is a view of, and the bytes are in a memory of arrays, so that two frames that
shared an array would overwrite each other. Every operation on a channel, on `frameQueueMu` or on the
pool is an event of its own. Frames are numbered as they are made; the log of accesses to their data is
what the results are about, no step reads it.
-/

namespace Rustcast.Relay.FrameBuffers

open Multiset

/-! ## The pool -/

def maxCachedFrameBuffers : Nat := 4

/-- A slice of bytes: its array, the capacity of the array, and its length. -/
structure Slice where
  array : Nat
  cap : Nat
  len : Nat
  deriving DecidableEq

/-- One round of the search: the smallest buffer that is large enough, the first one of these. -/
def better (size : Nat) (best : Option (Slice × Nat)) (entry : Slice × Nat) : Option (Slice × Nat) :=
  if size ≤ entry.1.cap ∧ ∀ b ∈ best, entry.1.cap < b.1.cap then some entry else best

/-- The buffer to take out, with its index: the best one, or the last one if none is large enough. -/
def chooseBuffer (size : Nat) (buffers : List Slice) : Option (Slice × Nat) :=
  (buffers.zipIdx.foldl (better size) none).or
    (buffers.getLast?.map fun data => (data, buffers.length - 1))

/-- The last buffer takes the place of the one that is taken out. -/
def takeOut (buffers : List Slice) (i : Nat) : List Slice :=
  match buffers.getLast? with
  | some last => (buffers.set i last).dropLast
  | none => buffers

/-- What `get` leaves: the slice, the buffers, and the number of arrays made so far. -/
structure Got where
  data : Slice
  buffers : List Slice
  made : Nat
  deriving DecidableEq

/-- `make([]byte, size)`. -/
def makeSlice (size made : Nat) : Slice := ⟨made, size, size⟩

/-- `frameBufferPool.get`. -/
def get (buffers : List Slice) (made size : Nat) : Got :=
  match chooseBuffer size buffers with
  | some (data, i) =>
    -- a buffer that is too small is dropped, so that the pool grows to the sizes in use
    if size ≤ data.cap then ⟨{ data with len := size }, takeOut buffers i, made⟩
    else ⟨makeSlice size made, takeOut buffers i, made + 1⟩
  | none => ⟨makeSlice size made, buffers, made + 1⟩

/-- `frameBufferPool.put`. -/
def put (buffers : List Slice) (data : Slice) : List Slice :=
  if data.cap = 0 ∨ maxFramePayloadSize < data.cap then buffers
  else if buffers.length < maxCachedFrameBuffers then buffers ++ [{ data with len := 0 }]
  else buffers

/-! ## The pool's own promises -/

section

variable {buffers : List Slice} {made size i : Nat} {data : Slice}

theorem better_foldl {P : Slice × Nat → Prop} (entries : List (Slice × Nat)) {best : Option (Slice × Nat)}
    (hbest : ∀ b ∈ best, P b) (hentries : ∀ b ∈ entries, P b) :
    ∀ b ∈ entries.foldl (better size) best, P b := by
  induction entries generalizing best with
  | nil => exact hbest
  | cons entry entries ih =>
    refine ih ?_ fun b hb => hentries b (List.mem_cons_of_mem _ hb)
    intro b hb
    unfold better at hb
    split at hb
    · cases hb
      exact hentries entry List.mem_cons_self
    · exact hbest b hb

theorem getElem?_of_chooseBuffer (h : chooseBuffer size buffers = some (data, i)) :
    buffers[i]? = some data := by
  have hfound : ∀ b ∈ buffers.zipIdx.foldl (better size) none, buffers[b.2]? = some b.1 :=
    better_foldl _ (fun b hb => by cases hb) fun _ => List.mem_zipIdx_iff_getElem?.mp
  rcases Option.or_eq_some_iff.mp h with hbest | ⟨-, hfallback⟩
  · exact hfound _ hbest
  · obtain ⟨last, hlast, heq⟩ := Option.map_eq_some_iff.mp hfallback
    cases heq
    rw [← List.getLast?_eq_getElem?]
    exact hlast

theorem cons_takeOut (h : buffers[i]? = some data) :
    data ::ₘ (takeOut buffers i : Multiset Slice) = (buffers : Multiset Slice) := by
  rcases List.eq_nil_or_concat buffers with rfl | ⟨front, last, rfl⟩
  · cases h
  · rw [List.concat_eq_append] at h ⊢
    have htake : takeOut (front ++ [last]) i = ((front ++ [last]).set i last).dropLast := by
      rw [takeOut, List.getLast?_concat]
    rw [htake, cons_coe, coe_eq_coe]
    -- the buffer that is taken out is the last one itself, or the last one takes its place
    rcases Nat.lt_or_ge i front.length with hlt | hge
    · rw [List.getElem?_append_left hlt] at h
      rw [List.set_append_left _ _ hlt, List.dropLast_concat]
      obtain ⟨_, rfl⟩ := List.getElem?_eq_some_iff.mp h
      have hset := (List.set_perm_cons_eraseIdx hlt last).cons front[i]
      have hfront := List.getElem_cons_eraseIdx_perm hlt
      have hswap := List.Perm.swap last front[i] (front.eraseIdx i)
      exact hset.trans (hswap.trans ((hfront.cons last).trans (List.perm_append_singleton last front).symm))
    · have hi : i = front.length := by
        have hlt := (List.getElem?_eq_some_iff.mp h).1
        rw [List.length_append, List.length_singleton] at hlt
        omega
      subst hi
      rw [List.getElem?_concat_length] at h
      cases h
      rw [List.set_append_right _ _ (Nat.le_refl _), Nat.sub_self]
      simp only [List.set_cons_zero, List.dropLast_concat]
      exact (List.perm_append_singleton _ _).symm

/-- `get` returns a slice of exactly the length asked for, inside of its array. -/
theorem get_length (buffers : List Slice) (made size : Nat) :
    (get buffers made size).data.len = size ∧ size ≤ (get buffers made size).data.cap := by
  unfold get
  split
  · split
    next hfits => exact ⟨rfl, hfits⟩
    · exact ⟨rfl, Nat.le_refl size⟩
  · exact ⟨rfl, Nat.le_refl size⟩

theorem takeOut_le (h : buffers[i]? = some data) :
    (takeOut buffers i : Multiset Slice) ≤ (buffers : Multiset Slice) := by
  rw [← cons_takeOut h]
  exact le_cons_self _ data

theorem get_buffers_le (buffers : List Slice) (made size : Nat) :
    ((get buffers made size).buffers : Multiset Slice) ≤ (buffers : Multiset Slice) := by
  unfold get
  split
  next data i hchoose =>
    have hle := takeOut_le (getElem?_of_chooseBuffer hchoose)
    split <;> exact hle
  · exact le_refl _

/-- The array of a slice that `get` returns is not one of `arrays`, nor one that stays in the pool. -/
theorem get_apart (size : Nat) {arrays : Multiset Nat}
    (h : Custody.Apart (arrays + (buffers : Multiset Slice).map Slice.array) made) :
    Custody.Apart ((get buffers made size).data.array ::ₘ
      (arrays + ((get buffers made size).buffers : Multiset Slice).map Slice.array))
      (get buffers made size).made := by
  unfold get
  split
  next data i hchoose =>
    have htaken := cons_takeOut (getElem?_of_chooseBuffer hchoose)
    split
    · -- the array comes out of the pool
      rw [← htaken, map_cons, add_cons] at h
      exact h
    · refine (h.mono ?_).make
      exact Multiset.add_le_add_left (Multiset.map_le_map (takeOut_le (getElem?_of_chooseBuffer hchoose)))
  · exact h.make

theorem put_length (h : buffers.length ≤ maxCachedFrameBuffers) (data : Slice) :
    (put buffers data).length ≤ maxCachedFrameBuffers := by
  unfold put
  split
  · exact h
  · split
    next hlt =>
      rw [List.length_append]
      exact hlt
    · exact h

/-- The pool gets no other array than that of the slice. -/
theorem put_arrays_le (buffers : List Slice) (data : Slice) :
    (put buffers data : Multiset Slice).map Slice.array ≤
      data.array ::ₘ (buffers : Multiset Slice).map Slice.array := by
  have hkeep := le_cons_self ((buffers : Multiset Slice).map Slice.array) data.array
  unfold put
  split
  · exact hkeep
  · split
    · rw [← coe_add, add_comm]
      exact le_refl _
    · exact hkeep

end

/-! ## Frames and goroutines -/

structure Frame where
  number : Nat
  data : Slice
  /-- what the host has sent -/
  received : List UInt8
  receivedAt : Option Nat
  deriving DecidableEq

/-- The reader, from `readPayload` to the end of `queueFrame`. -/
inductive Reader where
  | idle
  /-- in `io.ReadFull` -/
  | reading (frame : Frame)
  /-- waiting for `frameQueueMu` -/
  | waiting (frame : Frame)
  /-- with the lock, before the look at `stopChan` -/
  | checking (frame : Frame)
  /-- before the first `select` on the channel -/
  | sending (frame : Frame)
  /-- the channel was full -/
  | full (frame : Frame)
  /-- `old` was taken out of the channel -/
  | evicting (frame old : Frame)
  /-- before the send that has no default -/
  | resending (frame : Frame)
  | ended
  deriving DecidableEq

inductive Pusher where
  | idle
  /-- received from the channel, before `nextFrame` -/
  | taken (msg : Frame)
  /-- in the loop of `latestFrame` -/
  | draining (current : Frame) (currentIsIDR : Bool)
  /-- `newer` was received in that loop -/
  | comparing (current : Frame) (currentIsIDR : Bool) (newer : Frame) (newerIsIDR : Bool)
  /-- `nextFrame` returned -/
  | chosen (msg : Frame) (idr : Bool)
  /-- in `writeFrame` -/
  | writing (msg : Frame)
  | ended
  deriving DecidableEq

inductive Stopper where
  | idle
  /-- `stopChan` is closed -/
  | closing
  /-- with the lock, in the loop -/
  | draining
  /-- a frame was received in that loop -/
  | releasing (frame : Frame)
  | done
  deriving DecidableEq

inductive Access where
  | read (number : Nat)
  | released (number : Nat)
  deriving DecidableEq

structure System where
  buffers : List Slice := []
  made : Nat := 0
  /-- the contents of the arrays -/
  memory : Nat → List UInt8 := fun _ => []
  frameChan : List Frame := []
  reader : Reader := .idle
  pusher : Pusher := .idle
  stopper : Stopper := .idle
  created : Nat := 0
  log : List Access := []

/-- The reader holds `frameQueueMu`. -/
def Reader.holdsLock : Reader → Bool
  | .checking _ | .sending _ | .full _ | .evicting _ _ | .resending _ => true
  | _ => false

def Stopper.holdsLock : Stopper → Bool
  | .draining | .releasing _ => true
  | _ => false

namespace System

variable (s : System)

/-- `stopChan` is closed. -/
def stopped : Bool := s.stopper != .idle

def lockFree : Bool := !s.reader.holdsLock && !s.stopper.holdsLock

/-- `release`: the buffer goes back to the pool. -/
def release (frame : Frame) : System :=
  { s with buffers := put s.buffers frame.data, log := s.log ++ [.released frame.number] }

/-- The data of a frame is looked at. -/
def look (frame : Frame) : System := { s with log := s.log ++ [.read frame.number] }

def bytes (frame : Frame) : List UInt8 := s.memory frame.data.array

/-- Bytes arrive in the array of a frame. -/
def write (frame : Frame) (bytes : List UInt8) : System :=
  { s with memory := Function.update s.memory frame.data.array bytes }

def hasRoom : Bool := decide (s.frameChan.length < frameCapacity)

/-! ### The reader -/

/-- `readPayload` for a video frame, up to `io.ReadFull`; the length was checked by `readFrame`. -/
def readPayload (size : Nat) : Option System :=
  if s.reader = .idle ∧ 0 < size ∧ size ≤ maxFramePayloadSize then
    let got := get s.buffers s.made size
    let frame : Frame := { number := s.created, data := got.data, received := [], receivedAt := none }
    some { s with
      buffers := got.buffers, made := got.made, created := s.created + 1, reader := .reading frame }
  else none

/-- `io.ReadFull` has read a part of the bytes. -/
def readChunk (bytes : List UInt8) : Option System :=
  match s.reader with
  | .reading frame => some (s.write frame bytes)
  | _ => none

/-- `io.ReadFull` has filled the slice, and `dispatchFrame` calls `queueFrame`. -/
def readFull (bytes : List UInt8) (now : Nat) : Option System :=
  match s.reader with
  | .reading frame =>
    if bytes.length = frame.data.len then
      some { s.write frame bytes with
        reader := .waiting { frame with received := bytes, receivedAt := some now } }
    else none
  | _ => none

/-- `io.ReadFull` fails after it has read some bytes. -/
def readFailed (bytes : List UInt8) : Option System :=
  match s.reader with
  | .reading frame => some { (s.write frame bytes).release frame with reader := .idle }
  | _ => none

/-- One operation of `queueFrame`. -/
def queueFrame : Option System :=
  match s.reader with
  | .waiting frame => if s.lockFree then some { s with reader := .checking frame } else none
  | .checking frame =>
    if s.stopped then some { s.release frame with reader := .idle }
    else some { s with reader := .sending frame }
  | .sending frame =>
    if s.hasRoom then some { s with frameChan := s.frameChan ++ [frame], reader := .idle }
    else some { s with reader := .full frame }
  | .full frame =>
    match s.frameChan with
    | old :: rest => some { s with frameChan := rest, reader := .evicting frame old }
    -- the pusher has emptied the channel since
    | [] => some { s with reader := .resending frame }
  | .evicting frame old => some { s.release old with reader := .resending frame }
  | .resending frame =>
    if s.hasRoom then some { s with frameChan := s.frameChan ++ [frame], reader := .idle } else none
  | _ => none

/-- The reader returns once the upstream is stopped. -/
def readerEnds : Option System :=
  if s.reader = .idle ∧ s.stopped then some { s with reader := .ended } else none

/-! ### The pusher -/

def take : Option System :=
  match s.pusher, s.frameChan with
  | .idle, msg :: rest => some { s with frameChan := rest, pusher := .taken msg }
  | _, _ => none

def inTime (msg : Frame) (now : Nat) : Bool :=
  match msg.receivedAt with
  | none => true
  | some receivedAt => decide (now ≤ receivedAt + maxRelayBacklog)

def nextFrame (now : Nat) : Option System :=
  match s.pusher with
  | .taken msg =>
    if s.frameChan.isEmpty || inTime msg now then
      some { s.look msg with pusher := .chosen msg (isIDRFrame (s.bytes msg)) }
    else some { s.look msg with pusher := .draining msg (isIDRFrame (s.bytes msg)) }
  | _ => none

/-- One operation of the loop of `latestFrame`. -/
def latestFrame : Option System :=
  match s.pusher with
  | .draining current currentIsIDR =>
    match s.frameChan with
    | newer :: rest =>
      some { s.look newer with
        frameChan := rest
        pusher := .comparing current currentIsIDR newer (isIDRFrame (s.bytes newer)) }
    | [] => some { s with pusher := .chosen current currentIsIDR }
  | .comparing current currentIsIDR newer newerIsIDR =>
    -- an IDR frame is only given up for a newer one
    if newerIsIDR || !currentIsIDR then
      some { s.release current with pusher := .draining newer newerIsIDR }
    else some { s.release newer with pusher := .draining current currentIsIDR }
  | _ => none

/-- There is no session, or it waits for an IDR. -/
def skip (hasSession : Bool) : Option System :=
  match s.pusher with
  | .chosen msg idr =>
    -- an IDR frame is what a session waits for
    if hasSession && idr then none else some { s.release msg with pusher := .idle }
  | _ => none

def startWrite : Option System :=
  match s.pusher with
  | .chosen msg _ => some { s.look msg with pusher := .writing msg }
  | _ => none

/-- `writeFrame` writes a piece of the data. -/
def writeChunk : Option System :=
  match s.pusher with
  | .writing msg => some (s.look msg)
  | _ => none

/-- `writeFrame` has returned, with an error or without. -/
def finishWrite : Option System :=
  match s.pusher with
  | .writing msg => some { s.release msg with pusher := .idle }
  | _ => none

def pusherEnds : Option System :=
  if s.pusher = .idle ∧ s.stopped then some { s with pusher := .ended } else none

/-! ### Stop -/

/-- One operation of `stop`, which runs once. -/
def stop : Option System :=
  match s.stopper with
  | .idle => some { s with stopper := .closing }
  | .closing => if s.lockFree then some { s with stopper := .draining } else none
  | .draining =>
    match s.frameChan with
    | frame :: rest => some { s with frameChan := rest, stopper := .releasing frame }
    | [] => some { s with stopper := .done }
  | .releasing frame => some { s.release frame with stopper := .draining }
  | .done => none

end System

inductive Event where
  | readPayload (size : Nat)
  | readChunk (bytes : List UInt8)
  | readFull (bytes : List UInt8) (now : Nat)
  | readFailed (bytes : List UInt8)
  | queueFrame
  | readerEnds
  | take
  | nextFrame (now : Nat)
  | latestFrame
  | skip (hasSession : Bool)
  | startWrite
  | writeChunk
  | finishWrite
  | pusherEnds
  | stop
  deriving DecidableEq

def step (s : System) : Event → Option System
  | .readPayload size => s.readPayload size
  | .readChunk bytes => s.readChunk bytes
  | .readFull bytes now => s.readFull bytes now
  | .readFailed bytes => s.readFailed bytes
  | .queueFrame => s.queueFrame
  | .readerEnds => s.readerEnds
  | .take => s.take
  | .nextFrame now => s.nextFrame now
  | .latestFrame => s.latestFrame
  | .skip hasSession => s.skip hasSession
  | .startWrite => s.startWrite
  | .writeChunk => s.writeChunk
  | .finishWrite => s.finishWrite
  | .pusherEnds => s.pusherEnds
  | .stop => s.stop

end Rustcast.Relay.FrameBuffers
