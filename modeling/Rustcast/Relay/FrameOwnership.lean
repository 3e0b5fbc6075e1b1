import Rustcast.Core.Lts
import Rustcast.Core.Trace
import Rustcast.Relay.FrameQueue

/-!
# Who holds a frame

The frames of an upstream are handed from the reader to the queue, to the pusher or to `stop`, and end in
`release`. Each step is one entry in the books (`step_entry`), and every entry keeps them sound
(`Books.Sound.entry`). That the queue is empty in the end is due to its lock (`FrameQueue`).
-/

namespace Rustcast.Relay.FrameBuffers

open FrameBuffers.System Custody Multiset

/-! ## Who holds which frame -/

/-- The frame that is being read. -/
def Reader.fresh : Reader → Multiset Frame
  | .reading frame => {frame}
  | _ => 0

/-- The frames that are complete. -/
def Reader.ready : Reader → Multiset Frame
  | .waiting frame | .checking frame | .sending frame | .full frame | .resending frame => {frame}
  | .evicting frame old => {frame} + {old}
  | _ => 0

def Pusher.ready : Pusher → Multiset Frame
  | .taken msg | .draining msg _ | .chosen msg _ | .writing msg => {msg}
  | .comparing current _ newer _ => {current} + {newer}
  | _ => 0

def Stopper.ready : Stopper → Multiset Frame
  | .releasing frame => {frame}
  | _ => 0

namespace System

variable (s : System)

def fresh : Multiset Frame := s.reader.fresh

def ready : Multiset Frame :=
  s.reader.ready + (s.frameChan : Multiset Frame) + s.pusher.ready + s.stopper.ready

/-- The frames that have not been released. -/
def held : Multiset Frame := s.fresh + s.ready

end System

/-- What the accounting of frames and buffers is about. -/
structure Books where
  fresh : Multiset Frame
  ready : Multiset Frame
  buffers : List Slice
  made : Nat
  memory : Nat → List UInt8
  created : Nat
  log : List Access

def System.books (s : System) : Books where
  fresh := s.fresh
  ready := s.ready
  buffers := s.buffers
  made := s.made
  memory := s.memory
  created := s.created
  log := s.log

/-- The changes to the books. -/
inductive Entry (b : Books) : Books → Prop where
  /-- frames are handed on -/
  | moved : Entry b b
  | looked (f : Frame) (h : f ∈ b.ready) : Entry b { b with log := b.log ++ [.read f.number] }
  /-- a frame is made for the reader -/
  | made (size : Nat) (h : b.fresh = 0) :
      Entry b { b with
        fresh := {⟨b.created, (get b.buffers b.made size).data, [], none⟩}
        buffers := (get b.buffers b.made size).buffers
        made := (get b.buffers b.made size).made
        created := b.created + 1 }
  | written (f : Frame) (bytes : List UInt8) (h : b.fresh = {f}) :
      Entry b { b with memory := Function.update b.memory f.data.array bytes }
  | filled (f : Frame) (bytes : List UInt8) (now : Nat) (h : b.fresh = {f})
      (hlen : bytes.length = f.data.len) :
      Entry b { b with
        fresh := 0
        ready := {⟨f.number, f.data, bytes, some now⟩} + b.ready
        memory := Function.update b.memory f.data.array bytes }
  /-- the reader gives up on its frame -/
  | failed (f : Frame) (bytes : List UInt8) (h : b.fresh = {f}) :
      Entry b { b with
        fresh := 0
        memory := Function.update b.memory f.data.array bytes
        buffers := put b.buffers f.data
        log := b.log ++ [.released f.number] }
  | released (f : Frame) (ready : Multiset Frame) (h : b.ready = {f} + ready) :
      Entry b { b with
        ready, buffers := put b.buffers f.data, log := b.log ++ [.released f.number] }

variable {reader : Reader} {pusher : Pusher} {stopper : Stopper} {f : Frame} {bytes : List UInt8}

variable {chan : List Frame} {old : Reader} {now : Nat} {msg g : Frame} {e : Event}

section

variable {s s' : System}

theorem coe_cons_eq (f : Frame) (l : List Frame) :
    ((f :: l : List Frame) : Multiset Frame) = {f} + (l : Multiset Frame) := by
  rw [singleton_add, cons_coe]

/-- Frames change hands. -/
theorem entry_moved (hfresh : reader.fresh = s.fresh)
    (hready : reader.ready + (chan : Multiset Frame) + pusher.ready + stopper.ready = s.ready) :
    Entry s.books { s with reader, frameChan := chan, pusher, stopper }.books := by
  have hbooks : { s with reader, frameChan := chan, pusher, stopper }.books = s.books := by
    simp only [books, fresh, ready, Books.mk.injEq, and_true]
    exact ⟨hfresh, hready⟩
  rw [hbooks]
  exact .moved

/-- A frame is looked at by whoever holds it. -/
theorem entry_looked (hmem : f ∈ s.ready)
    (hready : s.reader.ready + (chan : Multiset Frame) + pusher.ready + s.stopper.ready = s.ready) :
    Entry s.books { s.look f with frameChan := chan, pusher }.books := by
  have hbooks : { s.look f with frameChan := chan, pusher }.books =
      { s.books with log := s.log ++ [.read f.number] } := by
    simp only [books, fresh, ready, look, Books.mk.injEq, and_true, true_and]
    exact hready
  rw [hbooks]
  exact .looked f hmem

/-- A frame is released and is in no hands any more. -/
theorem entry_released (hfresh : reader.fresh = s.fresh)
    (hready : s.ready = {f} + (reader.ready + (s.frameChan : Multiset Frame) + pusher.ready + stopper.ready)) :
    Entry s.books { s.release f with reader, pusher, stopper }.books := by
  have hbooks : { s.release f with reader, pusher, stopper }.books =
      { s.books with
        ready := reader.ready + (s.frameChan : Multiset Frame) + pusher.ready + stopper.ready
        buffers := put s.buffers f.data
        log := s.log ++ [.released f.number] } := by
    simp only [books, fresh, ready, release, Books.mk.injEq, and_true]
    exact hfresh
  rw [hbooks]
  exact .released f _ hready

/-- The reader goes on with what it has. -/
theorem entry_reader_moves (hreader : s.reader = old) (hfresh : reader.fresh = old.fresh)
    (hready : reader.ready = old.ready) : Entry s.books { s with reader }.books := by
  subst hreader
  refine entry_moved hfresh ?_
  rw [hready]
  rfl

/-- The pusher goes on with what it has. -/
theorem entry_pusher_moves {old : Pusher} (hpusher : s.pusher = old) (hready : pusher.ready = old.ready) :
    Entry s.books { s with pusher }.books := by
  subst hpusher
  refine entry_moved rfl ?_
  rw [hready]
  rfl

/-- `stop` goes on with what it has. -/
theorem entry_stopper_moves {old : Stopper} (hstopper : s.stopper = old)
    (hready : stopper.ready = old.ready) : Entry s.books { s with stopper }.books := by
  subst hstopper
  refine entry_moved rfl ?_
  rw [hready]
  rfl

/-- The reader puts its frame into the channel. -/
theorem entry_sent {frame : Frame} (hreader : s.reader = old) (hfresh : old.fresh = 0)
    (hready : old.ready = {frame}) :
    Entry s.books { s with frameChan := s.frameChan ++ [frame], reader := .idle }.books := by
  subst hreader
  refine entry_moved hfresh.symm ?_
  rw [ready, hready]
  ac_rfl

/-- `queueFrame` sends its frame, or releases it or an older one. -/
theorem queueFrame_entry (h : s.queueFrame = some s') : Entry s.books s'.books := by
  unfold queueFrame at h
  split at h
  next frame hreader =>
    obtain ⟨-, h⟩ := Option.ite_none_right_eq_some.mp h
    cases h
    exact entry_reader_moves hreader rfl rfl
  next frame hreader =>
    split at h
    · cases h
      refine entry_released ?_ ?_
      · rw [fresh, hreader]; rfl
      · rw [ready, hreader]
        simp only [Reader.ready, release, zero_add]
        ac_rfl
    · cases h
      exact entry_reader_moves hreader rfl rfl
  next frame hreader =>
    split at h <;> cases h
    · exact entry_sent hreader rfl rfl
    · exact entry_reader_moves hreader rfl rfl
  next frame hreader =>
    split at h
    next old rest hchan =>
      cases h
      refine entry_moved ?_ ?_
      · rw [fresh, hreader]; rfl
      · rw [ready, hreader, hchan, coe_cons_eq]
        simp only [Reader.ready]
        ac_rfl
    next hchan =>
      cases h
      exact entry_reader_moves hreader rfl rfl
  next frame old hreader =>
    cases h
    refine entry_released ?_ ?_
    · rw [fresh, hreader]; rfl
    · rw [ready, hreader]
      simp only [Reader.ready, release]
      ac_rfl
  next frame hreader =>
    obtain ⟨-, h⟩ := Option.ite_none_right_eq_some.mp h
    cases h
    exact entry_sent hreader rfl rfl
  · cases h

/-- `readPayload` makes a frame of a buffer from the pool. -/
theorem readPayload_entry {size : Nat} (h : s.readPayload size = some s') : Entry s.books s'.books := by
  obtain ⟨⟨hreader, -⟩, h⟩ := Option.ite_none_right_eq_some.mp h
  cases h
  have hfresh : s.books.fresh = 0 := by rw [books, fresh, hreader]; rfl
  have hready : s.ready = 0 + (s.frameChan : Multiset Frame) + s.pusher.ready + s.stopper.ready := by
    rw [ready, hreader]; rfl
  have hentry := Entry.made size hfresh
  rw [books, hready] at hentry ⊢
  exact hentry

theorem readChunk_entry (h : s.readChunk bytes = some s') : Entry s.books s'.books := by
  unfold readChunk at h
  split at h
  next frame hreader =>
    cases h
    have hfresh : s.books.fresh = {frame} := by rw [books, fresh, hreader]; rfl
    exact .written frame bytes hfresh
  · cases h

/-- A payload that is complete makes the frame ready. -/
theorem readFull_entry (h : s.readFull bytes now = some s') : Entry s.books s'.books := by
  unfold readFull at h
  split at h
  next frame hreader =>
    obtain ⟨hlen, h⟩ := Option.ite_none_right_eq_some.mp h
    cases h
    have hfresh : s.books.fresh = {frame} := by rw [books, fresh, hreader]; rfl
    have hready : s.ready = (s.frameChan : Multiset Frame) + s.pusher.ready + s.stopper.ready := by
      rw [ready, hreader]
      simp only [Reader.ready, zero_add]
    have hentry := Entry.filled frame bytes now hfresh hlen
    have hbooks : { s.write frame bytes with
        reader := .waiting { frame with received := bytes, receivedAt := some now } }.books =
        { s.books with
          fresh := 0
          ready := {⟨frame.number, frame.data, bytes, some now⟩} + s.ready
          memory := Function.update s.memory frame.data.array bytes } := by
      simp only [books, fresh, write, Books.mk.injEq, and_true, Reader.fresh, true_and]
      rw [hready, ready]
      simp only [Reader.ready]
      ac_rfl
    rw [hbooks]
    exact hentry
  · cases h

/-- The buffer of a failed read goes back. -/
theorem readFailed_entry (h : s.readFailed bytes = some s') : Entry s.books s'.books := by
  unfold readFailed at h
  split at h
  next frame hreader =>
    cases h
    have hfresh : s.books.fresh = {frame} := by rw [books, fresh, hreader]; rfl
    have hready : s.ready = 0 + (s.frameChan : Multiset Frame) + s.pusher.ready + s.stopper.ready := by
      rw [ready, hreader]; rfl
    have hentry := Entry.failed frame bytes hfresh
    rw [books, hready] at hentry ⊢
    exact hentry
  · cases h

/-- `latestFrame` keeps one of two frames and releases the other. -/
theorem latestFrame_entry (h : s.latestFrame = some s') : Entry s.books s'.books := by
  unfold latestFrame at h
  split at h
  next current currentIsIDR hpusher =>
    split at h
    next newer rest hchan =>
      cases h
      have hready : s.reader.ready + (rest : Multiset Frame) + ({current} + {newer}) + s.stopper.ready =
          s.ready := by
        rw [ready, hpusher, hchan, coe_cons_eq]
        simp only [Pusher.ready]
        ac_rfl
      refine entry_looked ?_ hready
      rw [← hready]
      simp
    next hchan =>
      cases h
      exact entry_pusher_moves hpusher rfl
  next current currentIsIDR newer newerIsIDR hpusher =>
    split at h
    all_goals
      cases h
      refine entry_released rfl ?_
      rw [ready, hpusher]
      simp only [Pusher.ready, release]
      ac_rfl
  · cases h

theorem mem_ready_of_pusher (h : f ∈ s.pusher.ready) : f ∈ s.ready :=
  mem_add.mpr (.inl (mem_add.mpr (.inr h)))

/-- `nextFrame` looks at the frame. -/
theorem nextFrame_entry (h : s.nextFrame now = some s') : Entry s.books s'.books := by
  unfold nextFrame at h
  split at h
  next msg hpusher =>
    have hmem : msg ∈ s.ready := by
      refine mem_ready_of_pusher ?_
      rw [hpusher]
      exact mem_singleton_self msg
    split at h <;>
    · cases h
      refine entry_looked hmem ?_
      rw [ready, hpusher]; rfl
  · cases h

/-- The pusher takes a frame from the channel. -/
theorem take_entry (h : s.take = some s') : Entry s.books s'.books := by
  unfold take at h
  split at h
  next msg rest hpusher hchan =>
    cases h
    refine entry_moved rfl ?_
    rw [ready, hpusher, hchan, coe_cons_eq]
    simp only [Pusher.ready, add_zero]
    ac_rfl
  · cases h

theorem entry_pusher_released (hpusher : s.pusher.ready = {msg}) (hready : pusher.ready = 0) :
    Entry s.books { s.release msg with pusher }.books := by
  refine entry_released rfl ?_
  rw [ready, hpusher, hready]
  ac_rfl

/-- A frame that nobody wants is released. -/
theorem skip_entry {hasSession : Bool} (h : s.skip hasSession = some s') : Entry s.books s'.books := by
  unfold skip at h
  split at h
  next msg idr hpusher =>
    obtain ⟨-, h⟩ := Option.ite_none_left_eq_some.mp h
    cases h
    exact entry_pusher_released (by rw [hpusher]; rfl) rfl
  · cases h

/-- A frame is released when it is written. -/
theorem finishWrite_entry (h : s.finishWrite = some s') : Entry s.books s'.books := by
  unfold finishWrite at h
  split at h
  next msg hpusher =>
    cases h
    exact entry_pusher_released (by rw [hpusher]; rfl) rfl
  · cases h

theorem entry_pusher_looked (hpusher : s.pusher.ready = {msg}) (hready : pusher.ready = {msg}) :
    Entry s.books { s.look msg with pusher }.books := by
  refine entry_looked (mem_ready_of_pusher ?_) ?_
  · rw [hpusher]
    exact mem_singleton_self msg
  · rw [ready, hpusher, hready]
    rfl

/-- The write looks at the frame. -/
theorem startWrite_entry (h : s.startWrite = some s') : Entry s.books s'.books := by
  unfold startWrite at h
  split at h
  next msg idr hpusher =>
    cases h
    exact entry_pusher_looked (by rw [hpusher]; rfl) rfl
  · cases h

theorem writeChunk_entry (h : s.writeChunk = some s') : Entry s.books s'.books := by
  unfold writeChunk at h
  split at h
  next msg hpusher =>
    cases h
    have hmsg : s.pusher.ready = {msg} := by rw [hpusher]; rfl
    exact entry_pusher_looked hmsg hmsg
  · cases h

/-- `stop` takes what is in the channel and releases it. -/
theorem stop_entry (h : s.stop = some s') : Entry s.books s'.books := by
  unfold stop at h
  split at h
  next hstopper =>
    cases h
    exact entry_stopper_moves hstopper rfl
  next hstopper =>
    obtain ⟨-, h⟩ := Option.ite_none_right_eq_some.mp h
    cases h
    exact entry_stopper_moves hstopper rfl
  next hstopper =>
    split at h
    next frame rest hchan =>
      cases h
      refine entry_moved rfl ?_
      rw [ready, hstopper, hchan, coe_cons_eq]
      simp only [Stopper.ready, add_zero]
      ac_rfl
    next hchan =>
      cases h
      exact entry_stopper_moves hstopper rfl
  next frame hstopper =>
    cases h
    refine entry_released rfl ?_
    rw [ready, hstopper]
    simp only [Stopper.ready, release, add_zero]
    ac_rfl
  · cases h

theorem readerEnds_entry (h : s.readerEnds = some s') : Entry s.books s'.books := by
  obtain ⟨⟨hreader, -⟩, h⟩ := Option.ite_none_right_eq_some.mp h
  cases h
  exact entry_reader_moves hreader rfl rfl

theorem pusherEnds_entry (h : s.pusherEnds = some s') : Entry s.books s'.books := by
  obtain ⟨⟨hpusher, -⟩, h⟩ := Option.ite_none_right_eq_some.mp h
  cases h
  exact entry_pusher_moves hpusher rfl

/-- Every step is one entry in the books. -/
theorem step_entry (h : step s e = some s') : Entry s.books s'.books := by
  cases e with
  | readPayload size => exact readPayload_entry h
  | readChunk bytes => exact readChunk_entry h
  | readFull bytes now => exact readFull_entry h
  | readFailed bytes => exact readFailed_entry h
  | queueFrame => exact queueFrame_entry h
  | readerEnds => exact readerEnds_entry h
  | take => exact take_entry h
  | nextFrame now => exact nextFrame_entry h
  | latestFrame => exact latestFrame_entry h
  | skip hasSession => exact skip_entry h
  | startWrite => exact startWrite_entry h
  | writeChunk => exact writeChunk_entry h
  | finishWrite => exact finishWrite_entry h
  | pusherEnds => exact pusherEnds_entry h
  | stop => exact stop_entry h

end

/-! ## The books are sound -/

def Access.number : Access → Nat
  | .read n | .released n => n

def Access.released? : Access → Option Nat
  | .read _ => none
  | .released n => some n

/-- The numbers of the frames that were released. -/
def released (log : List Access) : List Nat := log.filterMap Access.released?

/-- A frame is neither read nor released after its release. -/
def NotReleased (past : List Access) (a : Access) : Prop := a.number ∉ released past

theorem released_concat_read (log : List Access) (n : Nat) : released (log ++ [.read n]) = released log := by
  rw [released, List.filterMap_append]
  exact List.append_nil _

theorem released_concat (log : List Access) (n : Nat) :
    released (log ++ [.released n]) = released log ++ [n] := by
  rw [released, List.filterMap_append]
  rfl

def Books.held (b : Books) : Multiset Frame := b.fresh + b.ready

/-- The arrays of the frames that are held, and of the buffers of the pool. -/
def Books.arrays (b : Books) : Multiset Nat :=
  b.held.map (·.data.array) + (b.buffers : Multiset Slice).map Slice.array

structure Books.Sound (b : Books) : Prop where
  balanced : Custody.Balanced (b.held.map Frame.number) (released b.log) b.created
  apart : Custody.Apart b.arrays b.made
  buffers_le : b.buffers.length ≤ maxCachedFrameBuffers
  /-- a complete frame has the bytes that the host has sent, as many as the slice has room for -/
  intact : ∀ f ∈ b.ready, b.memory f.data.array = f.received ∧ f.received.length = f.data.len
  accesses : Trace.Historically NotReleased b.log

section

variable {b b' : Books}

namespace Books.Sound

variable (h : b.Sound)

include h

/-- A frame in hand has not been released. -/
theorem notMem_released (hf : f ∈ b.held) : f.number ∉ released b.log :=
  h.balanced.notMem_back (mem_map_of_mem Frame.number hf)

/-- The array of the frame that is being read is not that of a complete frame. -/
theorem array_ne (hf : f ∈ b.fresh) (hg : g ∈ b.ready) : g.data.array ≠ f.data.array := by
  have hapart : Apart (b.fresh.map (·.data.array) + b.ready.map (·.data.array)) b.made := by
    refine h.apart.mono ?_
    rw [Books.arrays, Books.held, map_add]
    exact le_add_right _ _
  have hne := hapart.ne_of_mem (mem_map_of_mem _ hf) (mem_map_of_mem _ hg)
  exact hne.symm

/-- What is read into the array of the reader's frame leaves the complete frames as they are. -/
theorem intact_write (hfresh : b.fresh = {f}) (bytes : List UInt8) (hg : g ∈ b.ready) :
    Function.update b.memory f.data.array bytes g.data.array = g.received ∧
      g.received.length = g.data.len := by
  have hmem : f ∈ b.fresh := by
    rw [hfresh]
    exact mem_singleton_self f
  obtain ⟨hmemory, hlength⟩ := h.intact g hg
  refine ⟨?_, hlength⟩
  rw [← hmemory]
  exact Function.update_of_ne (h.array_ne hmem hg) _ _

/-- A frame leaves the books: its number is logged and its array goes to the pool or is dropped. -/
theorem release {held : Multiset Frame} (hheld : b.held = {f} + held) :
    Balanced (held.map Frame.number) (released (b.log ++ [.released f.number])) b.created ∧
      Apart (held.map (·.data.array) + (put b.buffers f.data : Multiset Slice).map Slice.array) b.made ∧
      Trace.Historically NotReleased (b.log ++ [.released f.number]) := by
  have hmem : f ∈ b.held := by
    rw [hheld]
    exact mem_add.mpr (.inl (mem_singleton_self f))
  refine ⟨?_, ?_, ?_⟩
  · have hbalanced := h.balanced
    rw [hheld, singleton_add, map_cons] at hbalanced
    have hback := hbalanced.giveBack
    rw [released_concat, ← coe_add, add_comm]
    exact hback
  · refine h.apart.mono ?_
    rw [Books.arrays, hheld, singleton_add, map_cons, cons_add, ← Multiset.add_cons]
    exact Multiset.add_le_add_left (put_arrays_le b.buffers f.data)
  · exact Trace.historically_concat.mpr ⟨h.accesses, h.notMem_released hmem⟩

/-- Every entry keeps the books sound. -/
theorem entry (hentry : Entry b b') : b'.Sound := by
  cases hentry with
  | moved => exact h
  | looked f hf =>
    have hheld : f ∈ b.held := mem_add.mpr (.inr hf)
    refine ⟨?_, h.apart, h.buffers_le, h.intact, ?_⟩
    · rw [released_concat_read]
      exact h.balanced
    · exact Trace.historically_concat.mpr ⟨h.accesses, h.notMem_released hheld⟩
  | made size hfresh =>
    -- the reader has no other frame while it makes one
    have hheld : b.held = b.ready := by rw [Books.held, hfresh, zero_add]
    refine ⟨?_, ?_, ?_, h.intact, h.accesses⟩
    · have hbalanced := h.balanced.make
      rw [hheld] at hbalanced
      rw [Books.held, singleton_add, map_cons]
      exact hbalanced
    · have hapart := get_apart size h.apart
      rw [hheld] at hapart
      rw [Books.arrays, Books.held, singleton_add, map_cons, cons_add]
      exact hapart
    · exact (card_le_card (get_buffers_le b.buffers b.made size)).trans h.buffers_le
  | written f bytes hfresh =>
    exact ⟨h.balanced, h.apart, h.buffers_le, fun g => h.intact_write hfresh bytes, h.accesses⟩
  | filled f bytes now hfresh hlen =>
    -- the books name the frame by its number and its array, which stay
    have hkeys : ∀ key : Frame → Nat, key ⟨f.number, f.data, bytes, some now⟩ = key f →
        (0 + ({⟨f.number, f.data, bytes, some now⟩} + b.ready)).map key = b.held.map key := by
      intro key hkey
      rw [Books.held, hfresh, zero_add, map_add, map_add, map_singleton, map_singleton, hkey]
    refine ⟨?_, ?_, h.buffers_le, ?_, h.accesses⟩
    · have hbalanced := h.balanced
      rw [← hkeys Frame.number rfl] at hbalanced
      exact hbalanced
    · have hapart := h.apart
      rw [Books.arrays, ← hkeys (·.data.array) rfl] at hapart
      exact hapart
    · intro g hg
      rcases mem_add.mp hg with hnew | hold
      · cases mem_singleton.mp hnew
        exact ⟨Function.update_self .., hlen⟩
      · exact h.intact_write hfresh bytes hold
  | failed f bytes hfresh =>
    -- the bytes that were read are in an array that goes back to the pool
    have hheld : b.held = {f} + (0 + b.ready) := by rw [Books.held, hfresh, zero_add]
    obtain ⟨hbalanced, hapart, haccesses⟩ := h.release hheld
    exact ⟨hbalanced, hapart, put_length h.buffers_le f.data, fun g => h.intact_write hfresh bytes,
      haccesses⟩
  | released f ready hready =>
    have hheld : b.held = {f} + (b.fresh + ready) := by
      rw [Books.held, hready]
      ac_rfl
    obtain ⟨hbalanced, hapart, haccesses⟩ := h.release hheld
    refine ⟨hbalanced, hapart, put_length h.buffers_le f.data, fun g hg => h.intact g ?_, haccesses⟩
    rw [hready]
    exact mem_add.mpr (.inr hg)

end Books.Sound

end

/-! ## The whole upstream -/

structure Correct (s : System) : Prop where
  released_once : (released s.log).Nodup
  /-- a frame is released, or in somebody's hands -/
  accounted : ∀ n < s.created, n ∈ released s.log ∨ ∃ f ∈ s.held, f.number = n
  all_released : s.stopper = .done → s.reader = .ended → s.pusher = .ended →
    ∀ n < s.created, (released s.log).count n = 1
  accesses : Trace.Historically NotReleased s.log
  /-- frames that are not released have storage of their own -/
  unshared : (s.held.map (·.data.array)).Nodup
  not_pooled : ∀ f ∈ s.held, ∀ data ∈ s.buffers, f.data.array ≠ data.array
  intact : ∀ f ∈ s.ready, s.bytes f = f.received ∧ f.received.length = f.data.len
  buffers_le : s.buffers.length ≤ 4
  queue_proceeds : 0 < s.reader.left → s.stopper.holdsLock = false →
    ∃ s', s.queueFrame = some s' ∧ s'.reader.left < s.reader.left
  exclusive : s.reader.holdsLock = true → s.stopper.holdsLock = false
  lock_returned : s.stopper.holdsLock = true →
    (∃ s', s.stop = some s' ∧ s'.drainLeft < s.drainLeft) ∧
      ∀ e s', step s e = some s' → s'.drainLeft ≤ s.drainLeft
  drained : s.stopper = .done → s.frameChan = []

/-- The invariant of an upstream. -/
structure System.Inv (s : System) : Prop where
  sound : s.books.Sound
  controlled : s.Controlled

theorem inv_start : Inv {} where
  sound := by
    refine ⟨.start, ?_, Nat.zero_le _, fun f hf => ?_, Trace.historically_nil⟩
    · exact zero_le _
    · cases notMem_zero f hf
  controlled := ⟨Nat.zero_le _, fun h => (by cases h), fun h => (by cases h), fun h => (by cases h)⟩

/-- Every step keeps the invariant. -/
theorem System.Inv.step {s s' : System} (h : s.Inv) (hstep : FrameBuffers.step s e = some s') : s'.Inv :=
  ⟨h.sound.entry (step_entry hstep), (step_turn hstep).controlled h.controlled⟩

section

variable {s : System}

/-- Once everybody has ended, nobody holds a frame. -/
theorem System.Inv.held_eq_zero (h : s.Inv) (hstopper : s.stopper = .done) (hreader : s.reader = .ended)
    (hpusher : s.pusher = .ended) : s.held = 0 := by
  have hchan := (h.controlled.drained hstopper).1
  rw [held, fresh, ready, hreader, hpusher, hstopper, hchan]
  rfl

theorem System.Inv.correct (h : s.Inv) : Correct s where
  released_once := h.sound.balanced.nodup_back
  accounted n hn := by
    have hmem : n ∈ s.held.map Frame.number + (released s.log : Multiset Nat) := by
      have hbalanced : s.held.map Frame.number + (released s.log : Multiset Nat) = _ := h.sound.balanced
      rw [hbalanced]
      exact mem_range.mpr hn
    rcases mem_add.mp hmem with hheld | hreleased
    · exact .inr (mem_map.mp hheld)
    · exact .inl hreleased
  all_released hstopper hreader hpusher n hn := by
    have hbalanced : Balanced (s.held.map Frame.number) (released s.log) s.created := h.sound.balanced
    rw [h.held_eq_zero hstopper hreader hpusher] at hbalanced
    exact List.count_eq_one_of_mem h.sound.balanced.nodup_back (hbalanced.mem_back hn)
  accesses := h.sound.accesses
  unshared := (nodup_add.mp h.sound.apart.nodup).1
  not_pooled f hf data hdata :=
    h.sound.apart.ne_of_mem (mem_map_of_mem _ hf) (mem_map_of_mem _ hdata)
  intact := h.sound.intact
  buffers_le := h.sound.buffers_le
  queue_proceeds := queueFrame_proceeds h.controlled
  exclusive := h.controlled.exclusive
  lock_returned hlock := ⟨stop_proceeds hlock, fun _ _ => drainLeft_le h.controlled hlock⟩
  drained hstopper := (h.controlled.drained hstopper).1

end

/-- In every interleaving of the reader, the pusher and `stop`: a frame is released at most once, exactly
once when all have ended, and not touched after that; frames that are not released share no storage, with
each other or with the pool, and keep the bytes that were received; the pool has four buffers at most;
`queueFrame` does not block, and nothing stays in the queue after `stop`. And `get` returns as many bytes
as it is asked for. -/
theorem frame_buffers_correct :
    (∀ events, Lts.Throughout step Correct {} events) ∧
      ∀ buffers made size, (get buffers made size).data.len = size := by
  refine ⟨fun events => ?_, fun buffers made size => (get_length buffers made size).1⟩
  have hinv : Lts.Throughout step Inv {} events :=
    Lts.throughout_of_invariant (fun _ _ _ h => h.step) inv_start
  exact hinv.mono fun s h => h.correct

/-- One frame is written, the next one is still queued when the upstream stops; its buffer was the first
one's. -/
example :
    (Lts.run step {} [.readPayload 2, .readFull [0, 1] 5, .queueFrame, .queueFrame, .queueFrame,
      .take, .nextFrame 6, .startWrite, .writeChunk, .finishWrite,
      .readPayload 1, .readFull [7] 9, .queueFrame, .queueFrame, .queueFrame,
      .stop, .readerEnds, .pusherEnds, .stop, .stop, .stop, .stop]).map
        (fun s => (s.made, released s.log, s.frameChan, s.stopper)) =
      some (1, [0, 1], [], .done) := by decide

end Rustcast.Relay.FrameBuffers
