import Rustcast.Core.LatestValue
import Rustcast.Core.Lts

/-!
# Cursor updates from the capture to the viewers

The capture thread of the host puts each cursor update into a watch channel, `quic_frames.rs` sends
what it finds there on streams of their own, the relay keeps the last one in `lastCursor` and in the
one slot of `cursorChan`, and `forwardCursorUpdates` of each viewer takes it from there. Each hop
keeps the latest update only, and an update has a bitmap only if the shape has changed.
-/

namespace Rustcast.Relay

/-! ## Updates -/

structure CursorBitmap where
  width : Nat
  height : Nat
  stride : Nat
  format : Nat
  pixels : List UInt8
  deriving DecidableEq

structure CursorMetadata where
  position : Option (Int × Int)
  hotspot : Int × Int
  bitmap : Option CursorBitmap
  deriving DecidableEq

def CursorMetadata.hidden : CursorMetadata where
  position := none
  hotspot := (0, 0)
  bitmap := none

/-- What `cursor_dimensions` holds. -/
structure CursorDimensions where
  captureWidth : Nat
  captureHeight : Nat
  encodeWidth : Nat
  encodeHeight : Nat
  deriving DecidableEq

/-- The scaling in single precision. -/
structure CursorScaling where
  position : CursorDimensions → Int × Int → Int × Int
  bitmap : CursorDimensions → CursorBitmap → CursorBitmap

/-- `cursor_sink`, up to the send. -/
def cursorSink (scaling : CursorScaling) (dimensions : CursorDimensions) (metadata : CursorMetadata) :
    CursorMetadata :=
  { metadata with
    position := metadata.position.map (scaling.position dimensions)
    bitmap := metadata.bitmap.map (scaling.bitmap dimensions) }

/-- An update as it is sent. The number counts the updates, and no party reads it. -/
structure CursorUpdate where
  number : Nat
  tsMicros : Nat
  metadata : CursorMetadata
  deriving DecidableEq

/-! ## The hops -/

/-- The connection of the relay on the host's side. -/
structure CursorConnection where
  /-- the watch channel has a value that `borrow_and_update` has not seen -/
  changed : Bool
  /-- sent, and not read by the relay -/
  streams : List CursorUpdate
  deriving DecidableEq

/-- Where `sendCursor` of the relay stands. -/
inductive CursorSend where
  | store (msg : CursorUpdate)
  | offer (msg : CursorUpdate)
  | drain (msg : CursorUpdate)
  | offerAgain (msg : CursorUpdate)
  deriving DecidableEq

/-- `forwardCursorUpdates` of a viewer, and what it has sent to the viewer. -/
structure CursorForwarder where
  latest : Option CursorUpdate
  received : List CursorUpdate
  deriving DecidableEq

structure CursorSystem where
  dimensions : CursorDimensions
  /-- how many updates there have been, with the first value of the channel -/
  captured : Nat
  newest : Option CursorUpdate
  newestBitmap : Option CursorUpdate
  /-- the frame server holds a receiver of the watch channel -/
  serving : Bool
  value : CursorUpdate
  connection : Option CursorConnection
  sending : Option CursorSend
  lastCursor : Option CursorUpdate
  /-- all that `lastCursor` has been -/
  stored : List CursorUpdate
  cursorChan : Option CursorUpdate
  viewers : List CursorForwarder
  deriving DecidableEq

inductive CursorEvent where
  | resize (dimensions : CursorDimensions)
  | serve
  | capture (tsMicros : Nat) (metadata : CursorMetadata)
  | connect
  | disconnect
  | hostSend
  | relayRead
  /-- one operation of `sendCursor` -/
  | relaySend
  | join
  /-- a forwarder takes from `cursorChan` -/
  | take (viewer : Nat)
  | tick (viewer : Nat)
  | leave (viewer : Nat)
  deriving DecidableEq

namespace CursorSystem

def initial (dimensions : CursorDimensions) : CursorSystem where
  dimensions
  captured := 1
  newest := none
  newestBitmap := none
  serving := false
  value := { number := 0, tsMicros := 0, metadata := .hidden }
  connection := none
  sending := none
  lastCursor := none
  stored := []
  cursorChan := none
  viewers := []

/-- `cursor_tx.send`, which fails without a receiver and then leaves the value as it is. -/
def publish (s : CursorSystem) (u : CursorUpdate) : CursorSystem :=
  { s with
    captured := s.captured + 1
    newest := some u
    newestBitmap := if u.metadata.bitmap.isSome then some u else s.newestBitmap
    value := if s.serving then u else s.value
    connection := if s.serving then s.connection.map ({ · with changed := true }) else s.connection }

def nextUpdate (scaling : CursorScaling) (s : CursorSystem) (tsMicros : Nat)
    (metadata : CursorMetadata) : CursorUpdate where
  number := s.captured
  tsMicros
  metadata := cursorSink scaling s.dimensions metadata

/-- The operations of `sendCursor`, one at a time. -/
def relaySend (s : CursorSystem) : CursorSend → CursorSystem
  | .store msg =>
    { s with lastCursor := some msg, stored := s.stored ++ [msg], sending := some (.offer msg) }
  | .offer msg =>
    match s.cursorChan with
    | none => { s with cursorChan := some msg, sending := none }
    | some _ => { s with sending := some (.drain msg) }
  | .drain msg => { s with cursorChan := none, sending := some (.offerAgain msg) }
  | .offerAgain msg =>
    match s.cursorChan with
    | none => { s with cursorChan := some msg, sending := none }
    | some _ => { s with sending := none }

def step (scaling : CursorScaling) (s : CursorSystem) : CursorEvent → Option CursorSystem
  | .resize dimensions => some { s with dimensions }
  | .serve => some { s with serving := true }
  | .capture tsMicros metadata => some (s.publish (s.nextUpdate scaling tsMicros metadata))
  | .connect =>
    -- the host sends the current value first
    if s.serving = true ∧ s.connection = none ∧ s.sending = none then
      some { s with connection := some { changed := false, streams := [s.value] } }
    else none
  | .disconnect =>
    if s.connection.isSome = true ∧ s.sending = none then some { s with connection := none } else none
  | .hostSend =>
    match s.connection with
    | some c =>
      if c.changed then
        some { s with connection := some { changed := false, streams := c.streams ++ [s.value] } }
      else none
    | none => none
  | .relayRead =>
    match s.connection, s.sending with
    | some { changed, streams := msg :: streams }, none =>
      some { s with connection := some { changed, streams }, sending := some (.store msg) }
    | _, _ => none
  | .relaySend => s.sending.map s.relaySend
  | .join => some { s with viewers := s.viewers ++ [{ latest := s.lastCursor, received := [] }] }
  | .take i =>
    match s.viewers[i]?, s.cursorChan with
    | some v, some msg =>
      some { s with cursorChan := none, viewers := s.viewers.set i { v with latest := some msg } }
    | _, _ => none
  | .tick i =>
    match s.viewers[i]? with
    | some v =>
      let sent : CursorForwarder := { latest := none, received := v.received ++ v.latest.toList }
      some { s with viewers := s.viewers.set i sent }
    | none => none
  | .leave i => if i < s.viewers.length then some { s with viewers := s.viewers.eraseIdx i } else none

/-- A viewer with the newest update has the newest bitmap. -/
def BitmapReceived (s : CursorSystem) : Prop :=
  ∀ v ∈ s.viewers, ∀ u ∈ s.newest, u ∈ v.received → ∀ b ∈ s.newestBitmap, b ∈ v.received

instance (s : CursorSystem) : Decidable s.BitmapReceived := by
  unfold BitmapReceived
  infer_instance

end CursorSystem

/-- A bitmap is attached only if the shape changes. -/
def AttachedOnChange : Option CursorBitmap → List CursorEvent → Prop
  | _, [] => True
  | shape, .capture _ { bitmap := some bitmap, .. } :: es =>
    shape ≠ some bitmap ∧ AttachedOnChange (some bitmap) es
  | shape, _ :: es => AttachedOnChange shape es

variable {u : CursorUpdate} {v : CursorForwarder}

variable {b msg : CursorUpdate} {front : List CursorUpdate} {c : CursorConnection} {send : CursorSend}
  {i : Nat}

namespace CursorSystem

/-! ## What is under way -/

variable (s : CursorSystem)

/-- What the host has sent. -/
def streams : List CursorUpdate := (s.connection.map (·.streams)).getD []

/-- The value of the channel, if it has not been sent on the connection there is or will be. -/
def unseen : List CursorUpdate :=
  match s.connection with
  | none => [s.value]
  | some c => if c.changed then [s.value] else []

/-- Read by the relay, and not in `lastCursor` yet. -/
def unstored : List CursorUpdate :=
  match s.sending with
  | some (.store msg) => [msg]
  | _ => []

/-- In `lastCursor` already, and not in `cursorChan` yet. -/
def unoffered : List CursorUpdate :=
  match s.sending with
  | some (.offer msg) | some (.drain msg) | some (.offerAgain msg) => [msg]
  | _ => []

/-- All that goes to the relay. -/
def toRelay : List CursorUpdate := s.unstored ++ (s.streams ++ s.unseen)

/-- All that goes to the viewers. -/
def toViewers : List CursorUpdate := s.cursorChan.toList ++ (s.unoffered ++ s.toRelay)

/-- What a viewer has received and what goes to it. -/
def way (v : CursorForwarder) : List CursorUpdate :=
  v.received ++ (v.latest.toList ++ s.toViewers)

/-! ## What a step discards -/

/-- Discarded before it is in `lastCursor`. -/
def lostToRelay (scaling : CursorScaling) : CursorEvent → List CursorUpdate
  | .capture tsMicros metadata =>
    if s.serving then s.unseen else [s.nextUpdate scaling tsMicros metadata]
  | .disconnect => s.streams.filter (· ≠ s.value)
  | _ => []

/-- Discarded on the way from there to viewer `i`. -/
def lostToViewer (v : CursorForwarder) (i : Nat) : CursorEvent → List CursorUpdate
  | .relaySend =>
    match s.sending with
    | some (.drain _) => s.cursorChan.toList
    | some (.offerAgain msg) => if s.cursorChan.isSome then [msg] else []
    | _ => []
  | .take j => if j = i then v.latest.toList else s.cursorChan.toList
  | _ => []

/-- The step discards no update that has the newest bitmap, unless the viewer has it, and a viewer that
joins finds it in `lastCursor` if it has been there. -/
def BitmapKept (scaling : CursorScaling) (e : CursorEvent) : Prop :=
  ∀ s' ∈ s.step scaling e, ∀ b ∈ s'.newestBitmap,
    b ∉ s.lostToRelay scaling e ∧
    (∀ p ∈ s.viewers.zipIdx, b ∈ s.lostToViewer p.1 p.2 e → b ∈ p.1.received) ∧
    (e = .join → b ∈ s.stored → s.lastCursor = some b)

instance (scaling : CursorScaling) (e : CursorEvent) : Decidable (s.BitmapKept scaling e) := by
  unfold BitmapKept
  infer_instance

/-! ## The invariant -/

/-- The newest bitmap leads the way to the relay and the ways to all viewers. -/
structure Inv : Prop where
  value_lt : s.value.number < s.captured
  stored_lt : ∀ u ∈ s.stored, u.number < s.captured
  toRelay_lt : ∀ u ∈ s.toRelay, u.number < s.captured
  last_stored : ∀ u ∈ s.lastCursor, u ∈ s.stored
  offered_stored : ∀ u ∈ s.cursorChan.toList ++ s.unoffered, u ∈ s.stored
  viewers_stored : ∀ v ∈ s.viewers, ∀ u ∈ v.received ++ v.latest.toList, u ∈ s.stored
  bitmap_lt : ∀ b ∈ s.newestBitmap, b.number < s.captured
  bitmap_le : ∀ b ∈ s.newestBitmap, ∀ u ∈ s.newest, b.number ≤ u.number
  relay_leads : ∀ b ∈ s.newestBitmap, Leads CursorUpdate.number b (s.stored ++ s.toRelay)
  viewer_leads : ∀ b ∈ s.newestBitmap, ∀ v ∈ s.viewers, Leads CursorUpdate.number b (s.way v)

variable {s} {s' : CursorSystem} {scaling : CursorScaling} {e : CursorEvent}

theorem Inv.bitmapReceived (h : s.Inv) : s.BitmapReceived := by
  intro v hv u hu hreceived b hb
  exact (h.viewer_leads b hb v hv).mem_of_mem hreceived (h.bitmap_le b hb u hu)

theorem inv_initial (dimensions : CursorDimensions) : (initial dimensions).Inv := by
  constructor <;> simp [initial, toRelay, unstored, streams, unseen, unoffered]

/-- What is captured, and all up to `lastCursor`, is the same. -/
structure SameUpToRelay (s s' : CursorSystem) : Prop where
  value : s'.value = s.value
  captured : s'.captured = s.captured
  stored : s'.stored = s.stored
  toRelay : s'.toRelay = s.toRelay
  lastCursor : s'.lastCursor = s.lastCursor
  newest : s'.newest = s.newest
  newestBitmap : s'.newestBitmap = s.newestBitmap

/-- A step behind `lastCursor`: only the ways of the viewers change. -/
theorem Inv.of_viewers (h : s.Inv) (hsame : SameUpToRelay s s')
    (hoffered : ∀ u ∈ s'.cursorChan.toList ++ s'.unoffered, u ∈ s.stored)
    (hviewers : ∀ v ∈ s'.viewers, ∀ u ∈ v.received ++ v.latest.toList, u ∈ s.stored)
    (hleads : ∀ b ∈ s.newestBitmap, ∀ v ∈ s'.viewers, Leads CursorUpdate.number b (s'.way v)) :
    s'.Inv where
  value_lt := by rw [hsame.value, hsame.captured]; exact h.value_lt
  stored_lt := by rw [hsame.stored, hsame.captured]; exact h.stored_lt
  toRelay_lt := by rw [hsame.toRelay, hsame.captured]; exact h.toRelay_lt
  last_stored := by rw [hsame.lastCursor, hsame.stored]; exact h.last_stored
  offered_stored := by rw [hsame.stored]; exact hoffered
  viewers_stored := by rw [hsame.stored]; exact hviewers
  bitmap_lt := by rw [hsame.newestBitmap, hsame.captured]; exact h.bitmap_lt
  bitmap_le := by rw [hsame.newestBitmap, hsame.newest]; exact h.bitmap_le
  relay_leads := by rw [hsame.newestBitmap, hsame.stored, hsame.toRelay]; exact h.relay_leads
  viewer_leads := by rw [hsame.newestBitmap]; exact hleads

theorem way_eq (v : CursorForwarder) :
    s.way v = (v.received ++ v.latest.toList) ++ (s.cursorChan.toList ++ s.unoffered) ++ s.toRelay := by
  simp only [way, toViewers, List.append_assoc]

/-- A step that discards some of what is on the way from `lastCursor` to the viewers. -/
theorem Inv.of_discarded (h : s.Inv) (hsame : SameUpToRelay s s') (hviewers : s'.viewers = s.viewers)
    (front lost rest : List CursorUpdate)
    (hoffered : s.cursorChan.toList ++ s.unoffered = front ++ (lost ++ rest))
    (hoffered' : s'.cursorChan.toList ++ s'.unoffered = front ++ rest)
    (hkept : ∀ b ∈ s.newestBitmap, ∀ v ∈ s.viewers, b ∈ lost → b ∈ v.received) : s'.Inv := by
  refine h.of_viewers hsame ?_ ?_ ?_
  · intro u hu
    refine h.offered_stored u ?_
    rw [hoffered'] at hu
    rw [hoffered]
    rcases List.mem_append.mp hu with hfront | hrest
    · exact List.mem_append_left _ hfront
    · exact List.mem_append_right _ (List.mem_append_right _ hrest)
  · rw [hviewers]
    exact h.viewers_stored
  · intro b hb v hv
    rw [hviewers] at hv
    have hlead := h.viewer_leads b hb v hv
    rw [way_eq, hoffered] at hlead
    rw [way_eq, hoffered', hsame.toRelay]
    by_cases hlost : b ∈ lost
    · rw [List.append_assoc, List.append_assoc] at hlead ⊢
      exact hlead.of_mem_left (hkept b hb v hv hlost) _
    · simp only [← List.append_assoc] at hlead ⊢
      rw [List.append_assoc _ lost, List.append_assoc _ _ s.toRelay, List.append_assoc lost] at hlead
      rw [List.append_assoc _ rest]
      exact hlead.of_remove hlost

theorem Inv.of_moved (h : s.Inv) (hsame : SameUpToRelay s s') (hviewers : s'.viewers = s.viewers)
    (hoffered : s'.cursorChan.toList ++ s'.unoffered = s.cursorChan.toList ++ s.unoffered) : s'.Inv := by
  refine h.of_discarded hsame hviewers (s.cursorChan.toList ++ s.unoffered) [] [] ?_ ?_ ?_
  · simp
  · rw [hoffered, List.append_nil]
  · intro b _ v _ hlost
    cases hlost

/-! ## The host -/

theorem toRelay_publish (hserving : s.serving = true) (u : CursorUpdate) :
    (s.publish u).toRelay = s.unstored ++ (s.streams ++ [u]) := by
  cases hconn : s.connection <;> simp [toRelay, unstored, streams, unseen, publish, hserving, hconn]

theorem publish_of_not_serving (hserving : s.serving = false) (u : CursorUpdate) :
    (s.publish u).toRelay = s.toRelay ∧ (s.publish u).value = s.value := by
  simp [toRelay, unstored, streams, unseen, publish, hserving]

theorem mem_newestBitmap_publish (hb : b ∈ (s.publish u).newestBitmap) : b = u ∨ b ∈ s.newestBitmap := by
  simp only [CursorSystem.publish] at hb
  split at hb
  · exact .inl (Option.some.inj hb).symm
  · exact .inr hb

/-- An update replaces what the channel holds, at the end of every way. -/
theorem leads_publish (hlt : ∀ w ∈ front ++ s.toRelay, w.number < u.number)
    (hleads : ∀ b ∈ s.newestBitmap, Leads CursorUpdate.number b (front ++ s.toRelay))
    (hkept : ∀ b ∈ (s.publish u).newestBitmap, b ∉ if s.serving then s.unseen else [u]) :
    ∀ b ∈ (s.publish u).newestBitmap, Leads CursorUpdate.number b (front ++ (s.publish u).toRelay) := by
  intro b hb
  have hdiscard := hkept b hb
  rcases mem_newestBitmap_publish hb with rfl | hold
  · -- the newest bitmap is the one of this update, which is newer than all else
    cases hserving : s.serving with
    | false => simp [hserving] at hdiscard
    | true =>
      rw [toRelay_publish hserving, ← List.append_assoc, ← List.append_assoc]
      apply leads_concat
      intro w hw
      apply hlt
      rw [toRelay, ← List.append_assoc, ← List.append_assoc]
      exact List.mem_append_left _ hw
  · have hlead := hleads b hold
    cases hserving : s.serving with
    | false =>
      rw [(publish_of_not_serving hserving u).1]
      exact hlead
    | true =>
      rw [hserving] at hdiscard
      rw [toRelay, ← List.append_assoc, ← List.append_assoc] at hlead
      rw [toRelay_publish hserving, ← List.append_assoc, ← List.append_assoc]
      exact (hlead.of_not_mem_right hdiscard).append_right [u]

theorem Inv.front_lt (h : s.Inv) (hv : v ∈ s.viewers) :
    ∀ u ∈ (v.received ++ v.latest.toList) ++ (s.cursorChan.toList ++ s.unoffered) ++ s.toRelay,
      u.number < s.captured := by
  intro u hu
  rcases List.mem_append.mp hu with hfront | hrelay
  · rcases List.mem_append.mp hfront with hviewer | hoffered
    · exact h.stored_lt u (h.viewers_stored v hv u hviewer)
    · exact h.stored_lt u (h.offered_stored u hoffered)
  · exact h.toRelay_lt u hrelay

theorem Inv.publish (h : s.Inv) (hnumber : u.number = s.captured)
    (hkept : ∀ b ∈ (s.publish u).newestBitmap, b ∉ if s.serving then s.unseen else [u]) :
    (s.publish u).Inv := by
  have hbitmap : ∀ b ∈ (s.publish u).newestBitmap, b.number ≤ s.captured := by
    intro b hb
    rcases mem_newestBitmap_publish hb with rfl | hold
    · exact Nat.le_of_eq hnumber
    · exact Nat.le_of_lt (h.bitmap_lt b hold)
  have hrelay : ∀ w ∈ (s.publish u).toRelay, w.number ≤ s.captured := by
    intro w hw
    cases hserving : s.serving with
    | false =>
      rw [(publish_of_not_serving hserving u).1] at hw
      exact Nat.le_of_lt (h.toRelay_lt w hw)
    | true =>
      rw [toRelay_publish hserving, ← List.append_assoc] at hw
      rcases List.mem_append.mp hw with hfront | hlast
      · refine Nat.le_of_lt (h.toRelay_lt w ?_)
        rw [toRelay, ← List.append_assoc]
        exact List.mem_append_left _ hfront
      · rw [List.mem_singleton.mp hlast]
        exact Nat.le_of_eq hnumber
  constructor
  · show (if s.serving then u else s.value).number < s.captured + 1
    have hvalue := h.value_lt
    split <;> omega
  · intro w hw
    exact Nat.lt_succ_of_lt (h.stored_lt w hw)
  · intro w hw
    exact Nat.lt_succ_of_le (hrelay w hw)
  · exact h.last_stored
  · exact h.offered_stored
  · exact h.viewers_stored
  · intro b hb
    exact Nat.lt_succ_of_le (hbitmap b hb)
  · intro b hb w hw
    have hwu : u = w := by simpa [CursorSystem.publish] using hw
    rw [← hwu, hnumber]
    exact hbitmap b hb
  · refine leads_publish ?_ h.relay_leads hkept
    intro w hw
    rw [hnumber]
    rcases List.mem_append.mp hw with hstored | htoRelay
    · exact h.stored_lt w hstored
    · exact h.toRelay_lt w htoRelay
  · intro b hb v hv
    rw [way_eq]
    refine leads_publish ?_ ?_ hkept b hb
    · rw [hnumber]
      exact h.front_lt hv
    · intro b' hb'
      have hlead := h.viewer_leads b' hb' v hv
      rw [way_eq] at hlead
      exact hlead

/-- The streams are lost, and the channel still holds its value. -/
theorem leads_disconnect (hconn : s.connection = some c) (hsending : s.sending = none)
    (hlead : Leads CursorUpdate.number b (front ++ s.toRelay)) (hkept : b ∉ s.streams.filter (· ≠ s.value)) :
    Leads CursorUpdate.number b (front ++ CursorSystem.toRelay { s with connection := none }) := by
  have hrelay : CursorSystem.toRelay { s with connection := none } = [s.value] := by
    simp [toRelay, unstored, streams, unseen, hsending]
  rw [hrelay]
  by_cases hvalue : b = s.value
  · rw [← hvalue]
    exact hlead.replace leads_singleton
  · have hout : b ∉ s.toRelay := by
      simp only [toRelay, unstored, hsending, unseen, hconn, List.nil_append, List.mem_append, not_or]
      refine ⟨fun hb => hkept (List.mem_filter.mpr ⟨hb, by simpa using hvalue⟩), ?_⟩
      split <;> simp [hvalue]
    exact (hlead.of_not_mem_right hout).append_right _

theorem Inv.disconnect (h : s.Inv) (hconn : s.connection = some c) (hsending : s.sending = none)
    (hkept : ∀ b ∈ s.newestBitmap, b ∉ s.streams.filter (· ≠ s.value)) :
    CursorSystem.Inv { s with connection := none } where
  value_lt := h.value_lt
  stored_lt := h.stored_lt
  toRelay_lt := by
    simpa [toRelay, unstored, streams, unseen, hsending] using h.value_lt
  last_stored := h.last_stored
  offered_stored := h.offered_stored
  viewers_stored := h.viewers_stored
  bitmap_lt := h.bitmap_lt
  bitmap_le := h.bitmap_le
  relay_leads := fun b hb => leads_disconnect hconn hsending (h.relay_leads b hb) (hkept b hb)
  viewer_leads := by
    intro b hb v hv
    have hlead := h.viewer_leads b hb v hv
    rw [way_eq] at hlead ⊢
    exact leads_disconnect hconn hsending hlead (hkept b hb)

/-! ## The relay -/

theorem newestBitmap_relaySend (send : CursorSend) : (s.relaySend send).newestBitmap = s.newestBitmap := by
  cases send <;> cases hchan : s.cursorChan <;> simp [relaySend, hchan]

/-- What `sendCursor` has stored is no longer under way to the relay. -/
theorem Inv.store (h : s.Inv) (hsending : s.sending = some (.store msg)) :
    (s.relaySend (.store msg)).Inv := by
  have hunstored : s.unstored = [msg] := by simp [unstored, hsending]
  have hunoffered : s.unoffered = [] := by simp [unoffered, hsending]
  have hrelay : s.toRelay = msg :: (s.relaySend (.store msg)).toRelay := by
    rw [toRelay, hunstored]
    rfl
  have hmsg : msg.number < s.captured := h.toRelay_lt msg (by rw [hrelay]; exact List.mem_cons_self)
  constructor
  · exact h.value_lt
  · intro u hu
    rcases List.mem_append.mp hu with hold | hnew
    · exact h.stored_lt u hold
    · rw [List.mem_singleton.mp hnew]
      exact hmsg
  · intro u hu
    refine h.toRelay_lt u ?_
    rw [hrelay]
    exact List.mem_cons_of_mem _ hu
  · intro u hu
    have hu' : msg = u := by simpa [relaySend] using hu
    rw [← hu']
    exact List.mem_append_right _ List.mem_cons_self
  · intro u hu
    rcases List.mem_append.mp hu with hchan | hoffer
    · exact List.mem_append_left _ (h.offered_stored u (List.mem_append_left _ hchan))
    · exact List.mem_append_right _ hoffer
  · intro v hv u hu
    exact List.mem_append_left _ (h.viewers_stored v hv u hu)
  · exact h.bitmap_lt
  · exact h.bitmap_le
  · intro b hb
    have hlead := h.relay_leads b hb
    rw [hrelay, List.append_cons] at hlead
    exact hlead
  · intro b hb v hv
    have hlead := h.viewer_leads b hb v hv
    have hway : (s.relaySend (.store msg)).way v = s.way v := by
      rw [way, way, toViewers, toViewers, hrelay, hunoffered]
      rfl
    rw [hway]
    exact hlead

/-- Once the update is stored, `sendCursor` is done with what comes from the host. -/
theorem sameUpToRelay_relaySend (hsending : s.sending = some send) (hunstored : s.unstored = []) :
    SameUpToRelay s (s.relaySend send) := by
  cases send with
  | store msg =>
    rw [unstored, hsending] at hunstored
    cases hunstored
  | offer msg =>
    cases hchan : s.cursorChan <;> constructor <;>
      simp [CursorSystem.relaySend, hchan, toRelay, unstored, streams, unseen, hsending]
  | drain msg => constructor <;> simp [CursorSystem.relaySend, toRelay, unstored, streams, unseen, hsending]
  | offerAgain msg =>
    cases hchan : s.cursorChan <;> constructor <;>
      simp [CursorSystem.relaySend, hchan, toRelay, unstored, streams, unseen, hsending]

section

variable (h : s.Inv)

include h

/-- Only draining a full `cursorChan` discards something: nobody else fills it. -/
theorem Inv.relaySend (hsending : s.sending = some send)
    (hkept : ∀ b ∈ s.newestBitmap, ∀ v ∈ s.viewers, ∀ i, b ∈ s.lostToViewer v i .relaySend → b ∈ v.received) :
    (s.relaySend send).Inv := by
  cases send with
  | store msg => exact h.store hsending
  | offer msg =>
    have hsame := sameUpToRelay_relaySend hsending (by rw [unstored, hsending])
    cases hchan : s.cursorChan <;> refine h.of_moved hsame ?_ ?_ <;>
      simp [CursorSystem.relaySend, hchan, unoffered, hsending]
  | drain msg =>
    have hsame := sameUpToRelay_relaySend hsending (by rw [unstored, hsending])
    have hunoffered : s.unoffered = [msg] := by simp [unoffered, hsending]
    refine h.of_discarded hsame rfl [] s.cursorChan.toList [msg] ?_ rfl ?_
    · rw [hunoffered]
      rfl
    · intro b hb v hv hlost
      refine hkept b hb v hv 0 ?_
      simpa [lostToViewer, hsending] using hlost
  | offerAgain msg =>
    have hsame := sameUpToRelay_relaySend hsending (by rw [unstored, hsending])
    cases hchan : s.cursorChan with
    | none =>
      refine h.of_moved hsame ?_ ?_ <;> simp [CursorSystem.relaySend, hchan, unoffered, hsending]
    | some old =>
      refine h.of_discarded hsame ?_ [old] [msg] [] ?_ ?_ ?_
      · simp [CursorSystem.relaySend, hchan]
      · simp [hchan, unoffered, hsending]
      · simp [CursorSystem.relaySend, hchan, unoffered]
      · intro b hb v hv hlost
        refine hkept b hb v hv 0 ?_
        simpa [lostToViewer, hsending, hchan] using hlost

/-! ## The viewers -/

/-- A forwarder takes what no other forwarder finds any more. -/
theorem Inv.take (hv : s.viewers[i]? = some v) (hchan : s.cursorChan = some msg)
    (hkept : ∀ b ∈ s.newestBitmap, ∀ w j, s.viewers[j]? = some w → b ∈ s.lostToViewer w j (.take i) →
      b ∈ w.received) :
    CursorSystem.Inv
      { s with cursorChan := none, viewers := s.viewers.set i { v with latest := some msg } } := by
  have hmem : v ∈ s.viewers := List.mem_of_getElem? hv
  have hmsg : msg ∈ s.stored := h.offered_stored msg (by simp [hchan])
  refine h.of_viewers ⟨rfl, rfl, rfl, rfl, rfl, rfl, rfl⟩ ?_ ?_ ?_
  · intro u hu
    exact h.offered_stored u (List.mem_append_right _ hu)
  · intro w hw u hu
    rcases List.mem_or_eq_of_mem_set hw with hold | rfl
    · exact h.viewers_stored w hold u hu
    · rcases List.mem_append.mp hu with hreceived | hlatest
      · exact h.viewers_stored v hmem u (List.mem_append_left _ hreceived)
      · rw [List.mem_singleton.mp hlatest]
        exact hmsg
  · intro b hb w hw
    obtain ⟨j, hj⟩ := List.mem_iff_getElem?.mp hw
    by_cases hji : j = i
    · -- the forwarder itself loses what it had not sent yet
      subst hji
      have hlt : j < s.viewers.length := (List.getElem?_eq_some_iff.mp hv).1
      rw [List.getElem?_set_self hlt] at hj
      obtain rfl := Option.some.inj hj
      have hlead := h.viewer_leads b hb v hmem
      have hlost := hkept b hb v j hv
      rw [lostToViewer, if_pos rfl] at hlost
      rw [way, toViewers, hchan] at hlead
      by_cases hlatest : b ∈ v.latest.toList
      · exact hlead.of_mem_left (hlost hlatest) _
      · exact hlead.of_remove hlatest
    · -- every other forwarder loses the update it takes
      rw [List.getElem?_set_ne (.symm hji)] at hj
      have hlead := h.viewer_leads b hb w (List.mem_of_getElem? hj)
      have hlost := hkept b hb w j hj
      rw [lostToViewer, if_neg (Ne.symm hji)] at hlost
      rw [way] at hlead
      show Leads _ b (w.received ++ (w.latest.toList ++ (s.unoffered ++ s.toRelay)))
      by_cases htaken : b ∈ s.cursorChan.toList
      · exact hlead.of_mem_left (hlost htaken) _
      · rw [← List.append_assoc] at hlead ⊢
        exact hlead.of_remove htaken

theorem Inv.tick (hv : s.viewers[i]? = some v) :
    CursorSystem.Inv { s with
      viewers := s.viewers.set i ⟨none, v.received ++ v.latest.toList⟩ } := by
  have hmem : v ∈ s.viewers := List.mem_of_getElem? hv
  refine h.of_viewers ⟨rfl, rfl, rfl, rfl, rfl, rfl, rfl⟩ h.offered_stored ?_ ?_
  · intro w hw u hu
    rcases List.mem_or_eq_of_mem_set hw with hold | rfl
    · exact h.viewers_stored w hold u hu
    · refine h.viewers_stored v hmem u ?_
      simpa using hu
  · intro b hb w hw
    rcases List.mem_or_eq_of_mem_set hw with hold | rfl
    · exact h.viewer_leads b hb w hold
    · have hlead := h.viewer_leads b hb v hmem
      rw [way, ← List.append_assoc] at hlead
      exact hlead

theorem Inv.join (hkept : ∀ b ∈ s.newestBitmap, b ∈ s.stored → s.lastCursor = some b) :
    CursorSystem.Inv
      { s with viewers := s.viewers ++ [{ latest := s.lastCursor, received := [] }] } := by
  refine h.of_viewers ⟨rfl, rfl, rfl, rfl, rfl, rfl, rfl⟩ h.offered_stored ?_ ?_
  · intro w hw u hu
    rcases List.mem_append.mp hw with hold | hnew
    · exact h.viewers_stored w hold u hu
    · rw [List.mem_singleton.mp hnew] at hu
      exact h.last_stored u (by simpa using hu)
  · intro b hb w hw
    rcases List.mem_append.mp hw with hold | hnew
    · exact h.viewer_leads b hb w hold
    · rw [List.mem_singleton.mp hnew]
      show Leads _ b (s.lastCursor.toList ++ (s.cursorChan.toList ++ (s.unoffered ++ s.toRelay)))
      by_cases hstored : b ∈ s.stored
      · rw [hkept b hb hstored]
        exact leads_singleton.append_right _
      · -- the relay has only older updates
        obtain ⟨hlt, hlead⟩ := (h.relay_leads b hb).of_not_mem_left hstored
        rw [← List.append_assoc s.cursorChan.toList, ← List.append_assoc]
        refine leads_append.mpr (.inr ⟨?_, hlead⟩)
        intro u hu
        rcases List.mem_append.mp hu with hlast | hoffered
        · exact hlt u (h.last_stored u (by simpa using hlast))
        · exact hlt u (h.offered_stored u hoffered)

theorem Inv.leave (i : Nat) : CursorSystem.Inv { s with viewers := s.viewers.eraseIdx i } := by
  refine h.of_viewers ⟨rfl, rfl, rfl, rfl, rfl, rfl, rfl⟩ h.offered_stored ?_ ?_
  · intro v hv
    exact h.viewers_stored v (List.mem_of_mem_eraseIdx hv)
  · intro b hb v hv
    exact h.viewer_leads b hb v (List.mem_of_mem_eraseIdx hv)

/-! ## Runs -/

theorem step_inv (hkept : s.BitmapKept scaling e) (hstep : s.step scaling e = some s') : s'.Inv := by
  have hlost := hkept s' hstep
  cases e with
  | resize | serve =>
    cases hstep
    exact h.of_moved ⟨rfl, rfl, rfl, rfl, rfl, rfl, rfl⟩ rfl rfl
  | capture tsMicros metadata =>
    cases hstep
    exact h.publish rfl fun b hb => (hlost b hb).1
  | connect =>
    simp only [step] at hstep
    split at hstep
    next hready =>
      cases hstep
      refine h.of_moved ⟨rfl, rfl, rfl, ?_, rfl, rfl, rfl⟩ rfl rfl
      simp [toRelay, unstored, streams, unseen, hready.2.1, hready.2.2]
    · cases hstep
  | disconnect =>
    simp only [step] at hstep
    split at hstep
    next hready =>
      cases hstep
      obtain ⟨c, hconn⟩ := Option.isSome_iff_exists.mp hready.1
      exact h.disconnect hconn hready.2 fun b hb => (hlost b hb).1
    · cases hstep
  | hostSend =>
    simp only [step] at hstep
    split at hstep
    next c hconn =>
      split at hstep
      next hchanged =>
        cases hstep
        refine h.of_moved ⟨rfl, rfl, rfl, ?_, rfl, rfl, rfl⟩ rfl rfl
        simp [toRelay, unstored, streams, unseen, hconn, hchanged]
      · cases hstep
    · cases hstep
  | relayRead =>
    simp only [step] at hstep
    split at hstep
    next changed msg streams hconn hsending =>
      cases hstep
      refine h.of_moved ⟨rfl, rfl, rfl, ?_, rfl, rfl, rfl⟩ rfl ?_
      · simp [toRelay, unstored, CursorSystem.streams, unseen, hconn, hsending]
      · simp [unoffered, hsending]
    · cases hstep
  | relaySend =>
    obtain ⟨send, hsending, rfl⟩ := Option.map_eq_some_iff.mp hstep
    refine h.relaySend hsending ?_
    intro b hb v hv i hdiscard
    obtain ⟨j, hj⟩ := List.mem_iff_getElem?.mp hv
    have hnewest : b ∈ (s.relaySend send).newestBitmap := by
      rw [newestBitmap_relaySend]
      exact hb
    exact (hlost b hnewest).2.1 (v, j) (List.mem_zipIdx_iff_getElem?.mpr hj) hdiscard
  | join =>
    cases hstep
    exact h.join fun b hb => (hlost b hb).2.2 rfl
  | take i =>
    simp only [step] at hstep
    split at hstep
    next v msg hv hchan =>
      cases hstep
      refine h.take hv hchan ?_
      intro b hb w j hw
      exact (hlost b hb).2.1 (w, j) (List.mem_zipIdx_iff_getElem?.mpr hw)
    · cases hstep
  | tick i =>
    simp only [step] at hstep
    split at hstep
    next v hv =>
      cases hstep
      exact h.tick hv
    · cases hstep
  | leave i =>
    simp only [step] at hstep
    split at hstep
    · cases hstep
      exact h.leave i
    · cases hstep

end

end CursorSystem

open CursorSystem

/-- Whatever the schedule of the hops is, as long as no step discards the newest bitmap, a viewer
with the newest update has it. -/
theorem cursor_bitmap_received (scaling : CursorScaling) (dimensions : CursorDimensions)
    (es : List CursorEvent)
    (hkept : Lts.Along (step scaling) (fun s e => s.BitmapKept scaling e) (initial dimensions) es) :
    Lts.Throughout (step scaling) BitmapReceived (initial dimensions) es := by
  have hinv : Lts.Throughout (step scaling) Inv (initial dimensions) es :=
    Lts.throughout_of_along (fun _ _ _ => step_inv) (inv_initial dimensions) hkept
  exact hinv.mono fun _ h => h.bitmapReceived

/-- A scaling by one. -/
def unscaled : CursorScaling where
  position _ p := p
  bitmap _ b := b

def fullHd : CursorDimensions := ⟨1920, 1080, 1920, 1080⟩

/-- The cursor at a place, with a shape of one pixel if it has changed. -/
def cursorAt (x y : Int) (shape : Option UInt8) : CursorMetadata where
  position := some (x, y)
  hotspot := (0, 0)
  bitmap := shape.map fun value =>
    { width := 1, height := 1, stride := 4, format := 1, pixels := [value, value, value, value] }

/-- An update goes from the host to the viewer. -/
def forwardOne : List CursorEvent := [.relayRead, .relaySend, .relaySend, .take 0, .tick 0]

theorem cursor_bitmap_received_before_move :
    let es := [.serve, .join, .connect] ++ forwardOne ++
      [.capture 1 (cursorAt 10 10 (some 255)), .hostSend] ++ forwardOne ++
      [.capture 2 (cursorAt 20 10 none), .hostSend] ++ forwardOne
    Lts.Throughout (step unscaled) BitmapReceived (initial fullHd) es ∧
      (Lts.run (step unscaled) (initial fullHd) es).any (fun s =>
        s.viewers.any fun v => s.newest.any fun u => decide (u ∈ v.received)) = true :=
  ⟨cursor_bitmap_received _ _ _ (by decide +kernel), by decide +kernel⟩

/-- The cursor moves before the host has sent its shape. -/
theorem cursor_bitmap_lost :
    ¬ ∀ (scaling : CursorScaling) (dimensions : CursorDimensions) (es : List CursorEvent),
      AttachedOnChange none es →
      Lts.Throughout (step scaling) BitmapReceived (initial dimensions) es := by
  intro hclaim
  have hrun := hclaim unscaled fullHd
    ([.serve, .join, .connect, .capture 1 (cursorAt 10 10 (some 255)),
      .capture 2 (cursorAt 20 10 none), .hostSend] ++ forwardOne ++ forwardOne)
    (by simp [AttachedOnChange, cursorAt, forwardOne])
  revert hrun
  decide +kernel

end Rustcast.Relay
