import Rustcast.Core.Lts
import Rustcast.Core.Parties
import Rustcast.Core.Signals

/-!
# Links of hosts that dial out

`hostLinkHub` of `hostlink.go`: a host that dials out parks its connection under its machine id, and an
upstream that needs a connection takes it, or waits for one. A link may be replaced, removed, taken or
dropped because its connection ended, and every change is signalled under the id.
-/

namespace Rustcast.Relay

open Parties OrderedMap

/-! ## The hub -/

/-- A connection that is parked, with the number of the `park` call. -/
structure ParkedLink where
  conn : Nat
  park : Nat
  deriving DecidableEq

/-- The fields of the hub and its critical sections. -/
structure HostLinkHub where
  links : OrderedMap String ParkedLink := .empty
  /-- the gauge, if there is one -/
  parked : Option Int := none
  signals : Signals String := {}

namespace HostLinkHub

variable (h : HostLinkHub) (id : String)

/-- The link is deleted, the gauge decremented, and the change signalled. -/
def drop : HostLinkHub where
  links := h.links.delete id
  parked := h.parked.map (· - 1)
  signals := h.signals.signal id

def park (link : ParkedLink) : HostLinkHub where
  links := h.links.set id link
  -- a link that is replaced was counted already
  parked := if h.links.get? id = none then h.parked.map (· + 1) else h.parked
  signals := h.signals.signal id

def remove : HostLinkHub := if (h.links.get? id).isSome then h.drop id else h

/-- The goroutine of `park`, after its connection has ended. -/
def connDone (conn : Nat) : HostLinkHub :=
  if (h.links.get? id).map ParkedLink.conn = some conn then h.drop id else h

/-- `notifyChannelLocked` -/
def notifyChannel : Nat × HostLinkHub :=
  ((h.signals.channel id).1, { h with signals := (h.signals.channel id).2 })

end HostLinkHub

/-! ## The goroutines -/

/-- Where a call of `take` stands. -/
inductive TakePhase where
  | looping
  /-- the stop channel was not closed -/
  | unstopped
  | waiting (changed : Nat)
  | returned (link : ParkedLink)
  | stopped
  deriving DecidableEq

structure HostLinkTake where
  id : String
  stop : Nat
  phase : TakePhase := .looping
  /-- the connections that this call found closed -/
  seenClosed : List Nat := []
  deriving DecidableEq

structure HostLinkSystem where
  hub : HostLinkHub := {}
  closedConns : List Nat := []
  closedStops : List Nat := []
  /-- the calls of `park` so far -/
  parks : List (String × Nat) := []
  /-- the goroutines that wait for the end of a connection -/
  watchers : List (String × Nat) := []
  takes : List HostLinkTake := []

inductive HostLinkEvent where
  | park (id : String) (conn : Nat)
  | remove (id : String)
  | connDone (i : Nat)
  | take (id : String) (stop : Nat)
  | checkStop (k : Nat)
  | lookUp (k : Nat)
  | wake (k : Nat)
  | stopWaiting (k : Nat)
  | closeConn (conn : Nat)
  | closeStop (stop : Nat)
  deriving DecidableEq

namespace HostLinkSystem

def setTake (s : HostLinkSystem) (k : Nat) (t : HostLinkTake) : HostLinkSystem :=
  { s with takes := s.takes.set k t }

def park (s : HostLinkSystem) (id : String) (conn : Nat) : HostLinkSystem :=
  { s with
    hub := s.hub.park id ⟨conn, s.parks.length⟩
    parks := s.parks ++ [(id, conn)]
    watchers := s.watchers ++ [(id, conn)] }

def remove (s : HostLinkSystem) (id : String) : HostLinkSystem := { s with hub := s.hub.remove id }

/-- The section of `take` under the lock. -/
def lookUp (s : HostLinkSystem) (k : Nat) (t : HostLinkTake) : HostLinkSystem :=
  match s.hub.links.get? t.id with
  | some link =>
    -- the link leaves the hub in any case; only a live one is returned
    if link.conn ∈ s.closedConns then
      { s with hub := s.hub.drop t.id }.setTake k
        { t with phase := .looping, seenClosed := link.conn :: t.seenClosed }
    else { s with hub := s.hub.drop t.id }.setTake k { t with phase := .returned link }
  | none =>
    { s with hub := (s.hub.notifyChannel t.id).2 }.setTake k
      { t with phase := .waiting (s.hub.notifyChannel t.id).1 }

/-- The check before the lock. -/
def checkStop (s : HostLinkSystem) (k : Nat) (t : HostLinkTake) : Option HostLinkSystem :=
  if t.phase = .looping then
    some (s.setTake k { t with phase := if t.stop ∈ s.closedStops then .stopped else .unstopped })
  else none

/-- The wait is over because of a change. -/
def wake (s : HostLinkSystem) (k : Nat) (t : HostLinkTake) : Option HostLinkSystem :=
  match t.phase with
  | .waiting changed =>
    if changed ∈ s.hub.signals.closed then some (s.setTake k { t with phase := .looping }) else none
  | _ => none

/-- The wait is over because of the stop channel. -/
def stopWaiting (s : HostLinkSystem) (k : Nat) (t : HostLinkTake) : Option HostLinkSystem :=
  match t.phase with
  | .waiting _ => if t.stop ∈ s.closedStops then some (s.setTake k { t with phase := .stopped }) else none
  | _ => none

/-- `park` leaves a goroutine behind that waits for the end of the connection, and `take` has
several sections with a wait between them. -/
def step (s : HostLinkSystem) : HostLinkEvent → Option HostLinkSystem
  | .park id conn => some (s.park id conn)
  | .remove id => some (s.remove id)
  | .connDone i =>
    (s.watchers[i]?).bind fun (id, conn) =>
      if conn ∈ s.closedConns then
        some { s with hub := s.hub.connDone id conn, watchers := s.watchers.eraseIdx i }
      else none
  | .take id stop => some { s with takes := s.takes ++ [{ id, stop }] }
  | .checkStop k => (s.takes[k]?).bind (s.checkStop k)
  | .lookUp k => (s.takes[k]?).bind fun t => if t.phase = .unstopped then some (s.lookUp k t) else none
  | .wake k => (s.takes[k]?).bind (s.wake k)
  | .stopWaiting k => (s.takes[k]?).bind (s.stopWaiting k)
  | .closeConn conn => some { s with closedConns := conn :: s.closedConns }
  | .closeStop stop => some { s with closedStops := stop :: s.closedStops }

end HostLinkSystem

/-! ## What an event does -/

/-- Only the registry parks and removes links. -/
def HostLinkEvent.ofRegistry : HostLinkEvent → Bool
  | park _ _ | remove _ => true
  | _ => false

/-- A call of `take` that neither waits nor has a link. -/
def TakePhase.idle : TakePhase → Bool
  | waiting _ | returned _ => false
  | looping | unstopped | stopped => true

variable {s' : HostLinkSystem} {t : HostLinkTake} {hub : HostLinkHub} {k : Nat}

namespace HostLinkSystem

/-- The moves of everyone but the registry. -/
inductive Moves (s : HostLinkSystem) : HostLinkSystem → Prop where
  | connDone (id : String) (conn : Nat) (watchers : List (String × Nat)) :
    Moves s { s with hub := s.hub.connDone id conn, watchers }
  | started (id : String) (stop : Nat) : Moves s { s with takes := s.takes ++ [{ id, stop }] }
  | phase {k : Nat} {t : HostLinkTake} (phase : TakePhase) (ht : s.takes[k]? = some t)
      (hidle : phase.idle = true) : Moves s (s.setTake k { t with phase })
  | lookUp {k : Nat} {t : HostLinkTake} (ht : s.takes[k]? = some t) : Moves s (s.lookUp k t)
  | closeConn (conn : Nat) : Moves s { s with closedConns := conn :: s.closedConns }
  | closeStop (stop : Nat) : Moves s { s with closedStops := stop :: s.closedStops }

theorem step_cases {s : HostLinkSystem} {e : HostLinkEvent} (hstep : s.step e = some s') :
    (∃ id conn, s' = s.park id conn) ∧ e.ofRegistry = true ∨
      (∃ id, s' = s.remove id) ∧ e.ofRegistry = true ∨ Moves s s' := by
  cases e with
  | park id conn =>
    cases hstep
    exact .inl ⟨⟨id, conn, rfl⟩, rfl⟩
  | remove id =>
    cases hstep
    exact .inr (.inl ⟨⟨id, rfl⟩, rfl⟩)
  | connDone i =>
    obtain ⟨⟨id, conn⟩, -, hmove⟩ := Option.bind_eq_some_iff.mp hstep
    rw [Option.ite_none_right_eq_some] at hmove
    obtain ⟨-, hmove⟩ := hmove
    cases hmove
    exact .inr (.inr (.connDone id conn _))
  | take id stop =>
    cases hstep
    exact .inr (.inr (.started id stop))
  | checkStop k =>
    obtain ⟨t, ht, hmove⟩ := Option.bind_eq_some_iff.mp hstep
    rw [checkStop, Option.ite_none_right_eq_some] at hmove
    obtain ⟨-, hmove⟩ := hmove
    cases hmove
    refine .inr (.inr (.phase _ ht ?_))
    split <;> rfl
  | lookUp k =>
    obtain ⟨t, ht, hmove⟩ := Option.bind_eq_some_iff.mp hstep
    rw [Option.ite_none_right_eq_some] at hmove
    obtain ⟨-, hmove⟩ := hmove
    cases hmove
    exact .inr (.inr (.lookUp ht))
  | wake k =>
    obtain ⟨t, ht, hmove⟩ := Option.bind_eq_some_iff.mp hstep
    unfold wake at hmove
    split at hmove
    · rw [Option.ite_none_right_eq_some] at hmove
      obtain ⟨-, hmove⟩ := hmove
      cases hmove
      exact .inr (.inr (.phase _ ht rfl))
    · cases hmove
  | stopWaiting k =>
    obtain ⟨t, ht, hmove⟩ := Option.bind_eq_some_iff.mp hstep
    unfold stopWaiting at hmove
    split at hmove
    · rw [Option.ite_none_right_eq_some] at hmove
      obtain ⟨-, hmove⟩ := hmove
      cases hmove
      exact .inr (.inr (.phase _ ht rfl))
    · cases hmove
  | closeConn conn =>
    cases hstep
    exact .inr (.inr (.closeConn conn))
  | closeStop stop =>
    cases hstep
    exact .inr (.inr (.closeStop stop))

end HostLinkSystem

/-! ## Sections that do not park -/

/-- What a section may do to the hub, if it is not the one of `park`. -/
structure HostLinkHub.Shrinks (h h' : HostLinkHub) : Prop where
  links : ∀ id link, h'.links.get? id = some link → h.links.get? id = some link
  gauge : (∀ n, h.parked = some n → n = h.links.size) → ∀ n, h'.parked = some n → n = h'.links.size
  sound : h.signals.Sound → h'.signals.Sound
  awaits : ∀ id ch, h.signals.Awaits id ch → h'.signals.Awaits id ch
  closed : ∀ ch ∈ h.signals.closed, ch ∈ h'.signals.closed

namespace HostLinkHub

variable {h h' : HostLinkHub} {id : String} {link : ParkedLink}

theorem Shrinks.refl : Shrinks h h := ⟨fun _ _ => id, fun h => h, fun h => h, fun _ _ h => h, fun _ h => h⟩

theorem shrinks_drop (hget : h.links.get? id = some link) : Shrinks h (h.drop id) where
  links id' link' hget' := by
    rw [drop, get?_delete] at hget'
    split at hget'
    · cases hget'
    · exact hget'
  gauge hgauge n hn := by
    obtain ⟨m, hm, rfl⟩ := Option.map_eq_some_iff.mp hn
    have hsize : (h.links.delete id).size + 1 = h.links.size := size_delete_of_get? hget
    have hbefore := hgauge m hm
    show m - 1 = ((h.links.delete id).size : Int)
    omega
  sound hsound := hsound.signal id
  awaits id' ch hawaits := hawaits.signal id
  closed ch hch := Signals.mem_closed_signal hch id

theorem shrinks_remove (h : HostLinkHub) (id : String) : Shrinks h (h.remove id) := by
  unfold remove
  split
  next hsome =>
    obtain ⟨link, hget⟩ := Option.isSome_iff_exists.mp hsome
    exact shrinks_drop hget
  · exact .refl

theorem shrinks_connDone (h : HostLinkHub) (id : String) (conn : Nat) : Shrinks h (h.connDone id conn) := by
  unfold connDone
  split
  next hconn =>
    obtain ⟨link, hget, -⟩ := Option.map_eq_some_iff.mp hconn
    exact shrinks_drop hget
  · exact .refl

theorem shrinks_notifyChannel (h : HostLinkHub) (id : String) : Shrinks h (h.notifyChannel id).2 where
  links _ _ hget := hget
  gauge hgauge := hgauge
  sound hsound := hsound.channel id
  awaits _ _ hawaits := hawaits.channel id
  closed ch hch := by
    show ch ∈ (h.signals.channel id).2.closed
    rw [Signals.closed_channel]
    exact hch

theorem get?_drop_self (h : HostLinkHub) (id : String) : (h.drop id).links.get? id = none := by
  rw [drop, get?_delete, if_pos rfl]

/-- A section that does not park leaves an id without a link without one. -/
theorem Shrinks.none (hshrinks : Shrinks h h') (hnone : h.links.get? id = none) :
    h'.links.get? id = none := by
  cases hget : h'.links.get? id with
  | none => rfl
  | some link =>
    rw [hshrinks.links id link hget] at hnone
    cases hnone

end HostLinkHub

/-- Nobody but the registry parks. -/
theorem HostLinkSystem.Moves.shrinks {s : HostLinkSystem} (h : s.Moves s') : s.hub.Shrinks s'.hub := by
  cases h with
  | connDone id conn watchers => exact s.hub.shrinks_connDone id conn
  | started id stop => exact .refl
  | phase phase ht hidle => exact .refl
  | @lookUp k t ht =>
    unfold HostLinkSystem.lookUp
    split
    next link hget =>
      split
      · exact HostLinkHub.shrinks_drop hget
      · exact HostLinkHub.shrinks_drop hget
    · exact s.hub.shrinks_notifyChannel t.id
  | closeConn conn => exact .refl
  | closeStop stop => exact .refl

/-! ## The invariant -/

/-- A call of `take` in terms of the hub. -/
structure TakeOk (s : HostLinkSystem) (t : HostLinkTake) : Prop where
  /-- a link that was returned was parked under the id, and is not in the hub any more -/
  returned : ∀ link, t.phase = .returned link → s.parks[link.park]? = some (t.id, link.conn) ∧
    link.conn ∉ t.seenClosed ∧ ∀ id link', s.hub.links.get? id = some link' → link'.park ≠ link.park
  seen : ∀ conn ∈ t.seenClosed, conn ∈ s.closedConns
  waiting : ∀ ch, t.phase = .waiting ch → s.hub.signals.Awaits t.id ch ∧
    (ch ∈ s.hub.signals.closed ∨ s.hub.links.get? t.id = none)

structure HubInv (s : HostLinkSystem) : Prop where
  gauge : ∀ n, s.hub.parked = some n → n = s.hub.links.size
  sound : s.hub.signals.Sound
  parked : ∀ id link, s.hub.links.get? id = some link → s.parks[link.park]? = some (id, link.conn)
  takes : ∀ (k : Nat) t, s.takes[k]? = some t → TakeOk s t
  handedOnce : ∀ (k₁ k₂ : Nat) t₁ t₂ link₁ link₂, s.takes[k₁]? = some t₁ → s.takes[k₂]? = some t₂ →
    t₁.phase = .returned link₁ → t₂.phase = .returned link₂ → link₁.park = link₂.park → k₁ = k₂

variable {s : HostLinkSystem}

theorem TakeOk.setHub (h : TakeOk s t) (hshrinks : s.hub.Shrinks hub) : TakeOk { s with hub } t where
  returned link hphase := by
    obtain ⟨hpark, hseen, hgone⟩ := h.returned link hphase
    exact ⟨hpark, hseen, fun id link' hget => hgone id link' (hshrinks.links id link' hget)⟩
  seen := h.seen
  waiting ch hphase := by
    obtain ⟨hawaits, hmissing⟩ := h.waiting ch hphase
    exact ⟨hshrinks.awaits _ _ hawaits, hmissing.imp (hshrinks.closed ch) hshrinks.none⟩

namespace HubInv

variable (h : HubInv s)

include h

theorem setHub (hshrinks : s.hub.Shrinks hub) : HubInv { s with hub } where
  gauge := hshrinks.gauge h.gauge
  sound := hshrinks.sound h.sound
  parked id link hget := h.parked id link (hshrinks.links id link hget)
  takes k t ht := (h.takes k t ht).setHub hshrinks
  handedOnce := h.handedOnce

/-- A move of one call, which is not to hand over a link that another call has. -/
theorem setTake (hok : TakeOk s t)
    (honce : ∀ link, t.phase = .returned link → ∀ (k' : Nat) t' link', k' ≠ k →
      s.takes[k']? = some t' → t'.phase = .returned link' → link'.park ≠ link.park) :
    HubInv (s.setTake k t) where
  gauge := h.gauge
  sound := h.sound
  parked := h.parked
  takes k' t' ht' := by
    rcases getElem?_set_cases ht' with ⟨-, rfl⟩ | ⟨-, ht'⟩
    · exact ⟨hok.returned, hok.seen, hok.waiting⟩
    · exact ⟨(h.takes k' t' ht').returned, (h.takes k' t' ht').seen, (h.takes k' t' ht').waiting⟩
  handedOnce k₁ k₂ t₁ t₂ link₁ link₂ ht₁ ht₂ hphase₁ hphase₂ hpark := by
    rcases getElem?_set_cases ht₁ with ⟨rfl, rfl⟩ | ⟨hne₁, hbefore₁⟩
    · rcases getElem?_set_cases ht₂ with ⟨rfl, -⟩ | ⟨hne₂, hbefore₂⟩
      · rfl
      · exact absurd hpark.symm (honce link₁ hphase₁ k₂ t₂ link₂ hne₂ hbefore₂ hphase₂)
    · rcases getElem?_set_cases ht₂ with ⟨rfl, rfl⟩ | ⟨hne₂, hbefore₂⟩
      · exact absurd hpark (honce link₂ hphase₂ k₁ t₁ link₁ hne₁ hbefore₁ hphase₁)
      · exact h.handedOnce k₁ k₂ t₁ t₂ link₁ link₂ hbefore₁ hbefore₂ hphase₁ hphase₂ hpark

theorem setPhase (hok : TakeOk s t) (hphase : ∀ link, t.phase ≠ .returned link) : HubInv (s.setTake k t) :=
  h.setTake hok fun link hreturned => absurd hreturned (hphase link)

/-! ## The events -/

theorem take (id : String) (stop : Nat) : HubInv { s with takes := s.takes ++ [{ id, stop }] } where
  gauge := h.gauge
  sound := h.sound
  parked := h.parked
  takes k t ht := by
    rcases getElem?_concat_cases ht with ⟨-, rfl⟩ | hbefore
    · refine ⟨fun link hphase => ?_, fun conn hconn => ?_, fun ch hphase => ?_⟩
      · cases hphase
      · cases hconn
      · cases hphase
    · exact ⟨(h.takes k t hbefore).returned, (h.takes k t hbefore).seen, (h.takes k t hbefore).waiting⟩
  handedOnce k₁ k₂ t₁ t₂ link₁ link₂ ht₁ ht₂ hphase₁ hphase₂ hpark := by
    rcases getElem?_concat_cases ht₁ with ⟨-, rfl⟩ | hbefore₁
    · cases hphase₁
    · rcases getElem?_concat_cases ht₂ with ⟨-, rfl⟩ | hbefore₂
      · cases hphase₂
      · exact h.handedOnce k₁ k₂ t₁ t₂ link₁ link₂ hbefore₁ hbefore₂ hphase₁ hphase₂ hpark

theorem closeConn (conn : Nat) : HubInv { s with closedConns := conn :: s.closedConns } where
  gauge := h.gauge
  sound := h.sound
  parked := h.parked
  takes k t ht := by
    obtain ⟨hreturned, hseen, hwaiting⟩ := h.takes k t ht
    exact ⟨hreturned, fun conn' hconn => List.mem_cons_of_mem _ (hseen conn' hconn), hwaiting⟩
  handedOnce := h.handedOnce

end HubInv

theorem getElem?_concat {α : Type} {l : List α} {i : Nat} {a b : α} (h : l[i]? = some a) :
    i < l.length ∧ (l ++ [b])[i]? = some a := by
  obtain ⟨hlt, -⟩ := List.getElem?_eq_some_iff.mp h
  rw [List.getElem?_append_left hlt]
  exact ⟨hlt, h⟩

theorem gauge_park {h : HostLinkHub} (hgauge : ∀ n, h.parked = some n → n = h.links.size) (id : String)
    (link : ParkedLink) : ∀ n, (h.park id link).parked = some n → n = (h.park id link).links.size := by
  intro n hn
  show n = ((h.links.set id link).size : Int)
  rw [size_set]
  cases hget : h.links.get? id with
  | none =>
    rw [HostLinkHub.park, if_pos hget] at hn
    obtain ⟨m, hm, rfl⟩ := Option.map_eq_some_iff.mp hn
    have hbefore := hgauge m hm
    simp [hbefore]
  | some old =>
    rw [HostLinkHub.park, if_neg (by simp [hget])] at hn
    have hbefore := hgauge n hn
    simp [hbefore]

/-- The link of a new call of `park` is one that no call of `take` has, and the signal wakes those that
wait for it. -/
theorem TakeOk.park (h : TakeOk s t) (id : String) (conn : Nat) : TakeOk (s.park id conn) t where
  returned link hphase := by
    obtain ⟨hpark, hnot, hgone⟩ := h.returned link hphase
    obtain ⟨hlt, hpark'⟩ := getElem?_concat hpark
    refine ⟨hpark', hnot, fun id' link' hget => ?_⟩
    rw [HostLinkSystem.park, HostLinkHub.park, get?_set] at hget
    split at hget
    · cases hget
      exact Nat.ne_of_gt hlt
    · exact hgone id' link' hget
  seen := h.seen
  waiting ch hphase := by
    obtain ⟨hawaits, hmissing⟩ := h.waiting ch hphase
    refine ⟨hawaits.signal id, ?_⟩
    by_cases hid : t.id = id
    · rw [hid] at hawaits
      exact .inl (Signals.closed_of_awaits hawaits)
    · refine hmissing.imp (fun hch => Signals.mem_closed_signal hch id) fun hnone => ?_
      rw [HostLinkSystem.park, HostLinkHub.park, get?_set, if_neg hid]
      exact hnone

namespace HubInv

variable (h : HubInv s)

include h

theorem park (id : String) (conn : Nat) : HubInv (s.park id conn) where
  gauge := gauge_park h.gauge id _
  sound := h.sound.signal id
  parked id' link hget := by
    show (s.parks ++ [(id, conn)])[link.park]? = some (id', link.conn)
    rw [HostLinkSystem.park, HostLinkHub.park, get?_set] at hget
    split at hget
    next hid =>
      cases hget
      rw [List.getElem?_concat_length, hid]
    · exact (getElem?_concat (h.parked id' link hget)).2
  takes k t ht := (h.takes k t ht).park id conn
  handedOnce := h.handedOnce

theorem lookUp (ht : s.takes[k]? = some t) : HubInv (s.lookUp k t) := by
  have hok := h.takes k t ht
  unfold HostLinkSystem.lookUp
  split
  next link hget =>
    have hshrinks := HostLinkHub.shrinks_drop hget
    split
    next hclosed =>
      -- the link is dead, and the call goes round again
      refine (h.setHub hshrinks).setPhase
        ⟨fun link' hphase' => ?_, fun conn hconn => ?_, fun ch hphase' => ?_⟩ fun link' hphase' => ?_
      · cases hphase'
      · rcases List.mem_cons.mp hconn with rfl | hconn
        · exact hclosed
        · exact hok.seen conn hconn
      · cases hphase'
      · cases hphase'
    next hlive =>
      refine (h.setHub hshrinks).setTake ⟨fun link' hphase' => ?_, hok.seen, fun ch hphase' => ?_⟩ ?_
      · cases hphase'
        refine ⟨h.parked _ _ hget, fun hseen => hlive (hok.seen _ hseen), fun id' link' hget' hpark => ?_⟩
        -- a link with the number of this call of `park` is under its id, which has none any more
        have hparked := h.parked _ _ (hshrinks.links id' link' hget')
        rw [hpark, h.parked _ _ hget] at hparked
        obtain ⟨hid, -⟩ := Prod.mk.inj (Option.some.inj hparked)
        rw [← hid, HostLinkHub.get?_drop_self] at hget'
        cases hget'
      · cases hphase'
      · -- what another call has is not in the hub, and this link was
        intro link' hphase' k' t' link'' _ ht' hreturned
        cases hphase'
        exact ((h.takes k' t' ht').returned link'' hreturned).2.2 _ _ hget |>.symm
  next hnone =>
    -- the channel is taken in the section that found no link, so that no signal falls in between
    have hshrinks := HostLinkHub.shrinks_notifyChannel s.hub t.id
    refine (h.setHub hshrinks).setPhase ⟨fun link' hphase' => ?_, hok.seen, fun ch hphase' => ?_⟩
      fun link' hphase' => ?_
    · cases hphase'
    · cases hphase'
      exact ⟨.inr (Signals.get?_channel _ _), .inr hnone⟩
    · cases hphase'

theorem idle {phase : TakePhase} (ht : s.takes[k]? = some t) (hidle : phase.idle = true) :
    HubInv (s.setTake k { t with phase }) := by
  refine h.setPhase ⟨fun link hphase => ?_, (h.takes k t ht).seen, fun ch hphase => ?_⟩ fun link hphase => ?_
  · rw [show phase = .returned link from hphase] at hidle
    cases hidle
  · rw [show phase = .waiting ch from hphase] at hidle
    cases hidle
  · rw [show phase = .returned link from hphase] at hidle
    cases hidle

/-- Neither the goroutines that wait nor the stop channels are part of it. -/
theorem of_same (hhub : s'.hub = s.hub) (hconns : s'.closedConns = s.closedConns)
    (hparks : s'.parks = s.parks) (htakes : s'.takes = s.takes) : HubInv s' := by
  obtain ⟨hub, conns, stops, parks, watchers, takes⟩ := s'
  subst hhub hconns hparks htakes
  exact ⟨h.gauge, h.sound, h.parked, fun k t ht =>
    ⟨(h.takes k t ht).returned, (h.takes k t ht).seen, (h.takes k t ht).waiting⟩, h.handedOnce⟩

theorem moves (hmoves : s.Moves s') : HubInv s' := by
  cases hmoves with
  | connDone id conn watchers =>
    exact (h.setHub (s.hub.shrinks_connDone id conn)).of_same rfl rfl rfl rfl
  | started id stop => exact h.take id stop
  | phase phase ht hidle => exact h.idle ht hidle
  | lookUp ht => exact h.lookUp ht
  | closeConn conn => exact h.closeConn conn
  | closeStop stop => exact h.of_same rfl rfl rfl rfl

theorem step (e : HostLinkEvent) (hstep : s.step e = some s') : HubInv s' := by
  rcases HostLinkSystem.step_cases hstep with ⟨⟨id, conn, rfl⟩, -⟩ | ⟨⟨id, rfl⟩, -⟩ | hmoves
  · exact h.park id conn
  · exact h.setHub (s.hub.shrinks_remove id)
  · exact h.moves hmoves

end HubInv

/-! ## Runs -/

theorem hubInv_start (hlinks : hub.links = .empty) (hsignals : hub.signals = {})
    (hparked : hub.parked = none ∨ hub.parked = some 0) : HubInv { hub } where
  gauge n hn := by
    rw [hlinks]
    rcases hparked with hnone | hzero
    · rw [hnone] at hn
      cases hn
    · rw [hzero] at hn
      cases hn
      rfl
  sound := by
    rw [hsignals]
    exact Signals.sound_empty
  parked id link hget := by
    rw [hlinks] at hget
    cases hget
  takes k t ht := by cases ht
  handedOnce k₁ _ t₁ _ _ _ ht₁ := by cases ht₁

/-- `newHostLinkHub`, with or without a gauge. -/
def newHostLinkHub (gauge : Bool) : HostLinkSystem where
  hub := { parked := if gauge then some 0 else none }

/-- What the relay relies on. -/
structure HubCorrect (s : HostLinkSystem) : Prop where
  gauge : ∀ n, s.hub.parked = some n → n = s.hub.links.size
  /-- a link comes from a call of `park` for the id, and no other call of `take` has it -/
  handed : ∀ (k : Nat) t link, s.takes[k]? = some t → t.phase = .returned link →
    s.parks[link.park]? = some (t.id, link.conn) ∧
      ∀ (k' : Nat) t' link', s.takes[k']? = some t' → t'.phase = .returned link' →
        link'.park = link.park → k' = k
  live : ∀ (k : Nat) t link, s.takes[k]? = some t → t.phase = .returned link → link.conn ∉ t.seenClosed
  wakeup : ∀ (k : Nat) t ch, s.takes[k]? = some t → t.phase = .waiting ch →
    ∀ link, s.hub.links.get? t.id = some link → link.conn ∉ s.closedConns → ch ∈ s.hub.signals.closed
  noPanic : s.hub.signals.panicked = false

theorem HubInv.correct (h : HubInv s) : HubCorrect s where
  gauge := h.gauge
  handed k t link ht hphase := by
    refine ⟨((h.takes k t ht).returned link hphase).1, fun k' t' link' ht' hphase' hpark => ?_⟩
    exact h.handedOnce k' k t' t link' link ht' ht hphase' hphase hpark
  live k t link ht hphase := ((h.takes k t ht).returned link hphase).2.1
  wakeup k t ch ht hphase link hget _ := by
    rcases ((h.takes k t ht).waiting ch hphase).2 with hclosed | hnone
    · exact hclosed
    · rw [hnone] at hget
      cases hget
  noPanic := h.sound.noPanic

/-- The gauge, the hand-over of links and the wakeups, in every state of every interleaving. -/
theorem host_link_hub_correct (gauge : Bool) (events : List HostLinkEvent) :
    Lts.Throughout HostLinkSystem.step HubCorrect (newHostLinkHub gauge) events := by
  have hstart : HubInv (newHostLinkHub gauge) := by
    refine hubInv_start rfl rfl ?_
    cases gauge with
    | true => exact .inr rfl
    | false => exact .inl rfl
  exact (Lts.throughout_of_invariant (fun _ e _ h => h.step e) hstart).mono fun _ h => h.correct

/-- A call that waits, finds a dead link, waits again and gets a live one. -/
example : (Lts.run HostLinkSystem.step (newHostLinkHub true)
    [.take "m" 0, .checkStop 0, .lookUp 0, .park "m" 3, .closeConn 3, .wake 0, .checkStop 0, .lookUp 0,
      .checkStop 0, .lookUp 0, .park "m" 4, .wake 0, .checkStop 0, .lookUp 0]).map
      (fun s => (s.takes.map HostLinkTake.phase, s.takes.map HostLinkTake.seenClosed, s.hub.parked)) =
    some ([.returned ⟨4, 1⟩], [[3]], some 0) := by decide

end Rustcast.Relay
