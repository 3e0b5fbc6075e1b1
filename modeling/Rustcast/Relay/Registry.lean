import Rustcast.Core.Lts
import Rustcast.Core.Parties

/-!
# The machine registry of the relay

`machineRegistry` of `registry.go` for one machine id: the record that the map holds for the id,
all the records and upstreams there ever were, the calls of `acquire`, and the calls of `stop`
that follow an operation after the lock is released. `acquire` looks the record up in one
critical section and uses it in another.

`deregister` between the two leaves `acquire` with a record that the map no longer holds: it
creates an upstream there that nothing will stop while a viewer holds it.
-/

namespace Rustcast.Relay

open Parties

/-! ## Records and upstreams -/

/-- The fields of a registration that an upstream depends on. -/
structure MachineRegistration where
  frameEndpoint : String := ""
  supportsLogin : Bool := false
  quicCertSHA256 : String := ""
  hostDialsOut : Bool := false
  targetBitrate : Nat := 0
  deriving DecidableEq

structure MachineRecord where
  frameEndpoint : String := ""
  supportsLogin : Bool := false
  quicCertSHA256 : String := ""
  hostDialsOut : Bool := false
  targetBitrate : Nat := 0
  lastSeen : Nat := 0
  /-- `Status` is `online` -/
  online : Bool := false
  static : Bool := false
  upstream : Option Nat := none
  deriving DecidableEq

structure MachineUpstream where
  frameEndpoint : String := ""
  supportsLogin : Bool := false
  quicCertSHA256 : String := ""
  /-- waits for a link of the host instead of dialing -/
  hostLinks : Bool := false
  /-- the sender's ceiling of the bitrate controller -/
  ceilingKbps : Nat := 0
  viewers : Nat := 0
  stopped : Bool := false
  /-- successful `acquire` calls and `release` calls so far -/
  acquired : Nat := 0
  released : Nat := 0
  deriving DecidableEq

/-- In seconds. -/
def machineExpiry : Nat := 15

namespace MachineUpstream

variable (x : MachineUpstream)

def live : Bool := !x.stopped && decide (0 < x.viewers)

/-- One more viewer, in `acquire`. -/
def addViewer : MachineUpstream :=
  { x with viewers := x.viewers + 1, acquired := x.acquired + 1 }

/-- One viewer less, in `release`. -/
def removeViewer : MachineUpstream :=
  { x with viewers := x.viewers - 1, released := x.released + 1 }

/-- What `upsert` passes on to the upstream. -/
def update (input : MachineRegistration) : MachineUpstream :=
  { x with
    quicCertSHA256 := input.quicCertSHA256
    ceilingKbps := if input.targetBitrate = 0 then x.ceilingKbps else input.targetBitrate }

end MachineUpstream

namespace MachineRecord

/-- `upsert` rebuilds the whole information of the record, without the target bitrate. -/
def update (m : MachineRecord) (input : MachineRegistration) (static : Bool) (now : Nat) :
    MachineRecord where
  frameEndpoint := input.frameEndpoint
  supportsLogin := input.supportsLogin
  quicCertSHA256 := input.quicCertSHA256
  hostDialsOut := input.hostDialsOut
  targetBitrate := 0
  lastSeen := now
  online := true
  static
  upstream := m.upstream

def expired (m : MachineRecord) (now : Nat) : Bool :=
  !m.static && decide (machineExpiry < now - m.lastSeen)

def newMachineUpstream (m : MachineRecord) : MachineUpstream where
  frameEndpoint := m.frameEndpoint
  supportsLogin := m.supportsLogin
  quicCertSHA256 := m.quicCertSHA256
  hostLinks := m.hostDialsOut
  ceilingKbps := m.targetBitrate

end MachineRecord

/-! ## The registry -/

inductive MachineError where
  | notFound
  | offline
  | inUse
  deriving DecidableEq

/-- Where a call of `acquire` and the viewer it was made for stand. -/
inductive AcquirePc where
  | calling
  /-- `get` has returned the record -/
  | got (record : Nat)
  | failed (error : MachineError)
  | holding (upstream : Nat)
  | released
  deriving DecidableEq

structure MachineRegistry where
  clock : Nat := 0
  /-- the record of the map -/
  current : Option Nat := none
  records : List MachineRecord := []
  upstreams : List MachineUpstream := []
  calls : List AcquirePc := []
  /-- the upstreams that an operation is about to stop, after the lock -/
  stopping : List Nat := []
  deriving DecidableEq

inductive RegistryEvent where
  | tick
  | upsert (input : MachineRegistration) (static : Bool)
  | deregister
  /-- `list`, which expires the record as `get` does -/
  | list
  | acquire
  | get (i : Nat)
  /-- the second section of `acquire` -/
  | lock (i : Nat)
  | release (i : Nat)
  /-- an operation calls `stop` -/
  | stop (k : Nat)
  deriving DecidableEq

namespace MachineRegistry

variable (s : MachineRegistry)

/-- The upstream that the record of the map refers to. -/
def reference : Option Nat :=
  s.current.bind fun r => s.records[r]?.bind (·.upstream)

def setCall (i : Nat) (pc : AcquirePc) : MachineRegistry :=
  { s with calls := s.calls.set i pc }

def setUpstream (u : Nat) (x : MachineUpstream) : MachineRegistry :=
  { s with upstreams := s.upstreams.set u x }

/-- The record has expired: it goes offline and its upstream is to be stopped. -/
def expire (r : Nat) (m : MachineRecord) : MachineRegistry :=
  { s with
    records := s.records.set r { m with online := false, upstream := none }
    stopping := s.stopping ++ m.upstream.toList }

def upsert (input : MachineRegistration) (static : Bool) : MachineRegistry :=
  match s.current with
  | none => { s with
      current := some s.records.length
      records := s.records ++ [MachineRecord.update {} input static s.clock] }
  | some r =>
    match s.records[r]? with
    | none => s
    | some m =>
      -- a registration of a known machine keeps the upstream and passes its settings on
      let s := { s with records := s.records.set r (m.update input static s.clock) }
      match m.upstream with
      | none => s
      | some u =>
        match s.upstreams[u]? with
        | none => s
        | some x => s.setUpstream u (x.update input)

def deregister : MachineRegistry :=
  match s.current with
  | none => s
  | some r =>
    match s.records[r]? with
    | none => s
    | some m =>
      -- the record leaves the map; calls of `acquire` may still have it
      if m.static then s
      else { s with current := none, stopping := s.stopping ++ m.upstream.toList }

def list : MachineRegistry :=
  match s.current with
  | none => s
  | some r =>
    match s.records[r]? with
    | none => s
    | some m => if m.expired s.clock then s.expire r m else s

def get (i : Nat) : MachineRegistry :=
  match s.current with
  | none => s.setCall i (.failed .notFound)
  | some r =>
    match s.records[r]? with
    | none => s.setCall i (.failed .notFound)
    | some m =>
      -- expiry is found out by whoever looks at the record
      if m.expired s.clock then (s.expire r m).setCall i (.failed .offline)
      else if m.online then s.setCall i (.got r)
      else s.setCall i (.failed .offline)

/-- The second section of `acquire`, for the record `r` that `get` has returned. -/
def lock (i r : Nat) (m : MachineRecord) : MachineRegistry :=
  match m.upstream with
  -- nothing tells this section that the map has another record by now
  | none => { s with
      upstreams := s.upstreams ++ [m.newMachineUpstream.addViewer]
      records := s.records.set r { m with upstream := some s.upstreams.length }
      calls := s.calls.set i (.holding s.upstreams.length) }
  | some u =>
    match s.upstreams[u]? with
    | none => s
    | some x =>
      -- a machine has one viewer at a time
      if 0 < x.viewers then s.setCall i (.failed .inUse)
      else (s.setUpstream u x.addViewer).setCall i (.holding u)

/-- The record of the map forgets an upstream without viewers. -/
def unreference (u : Nat) : MachineRegistry :=
  match s.current with
  | none => s
  | some r =>
    match s.records[r]? with
    | none => s
    | some m =>
      if m.upstream = some u then { s with records := s.records.set r { m with upstream := none } }
      else s

def release (i u : Nat) (x : MachineUpstream) : MachineRegistry :=
  let s := (s.setUpstream u x.removeViewer).setCall i .released
  if x.removeViewer.viewers = 0 then
    let s := s.unreference u
    -- the last viewer stops the upstream after the lock
    { s with stopping := s.stopping ++ [u] }
  else s

def step : RegistryEvent → Option MachineRegistry
  | .tick => some { s with clock := s.clock + 1 }
  | .upsert input static => some (s.upsert input static)
  | .deregister => some s.deregister
  | .list => some s.list
  | .acquire => some { s with calls := s.calls ++ [.calling] }
  | .get i =>
    match s.calls[i]? with
    | some .calling => some (s.get i)
    | _ => none
  | .lock i =>
    match s.calls[i]? with
    | some (.got r) =>
      match s.records[r]? with
      | some m => some (s.lock i r m)
      | none => none
    | _ => none
  | .release i =>
    match s.calls[i]? with
    | some (.holding u) =>
      match s.upstreams[u]? with
      | some x => some (s.release i u x)
      | none => none
    | _ => none
  | .stop k =>
    match s.stopping[k]? with
    | some u =>
      match s.upstreams[u]? with
      | some x => some { s.setUpstream u { x with stopped := true } with
          stopping := s.stopping.eraseIdx k }
      | none => none
    | none => none

end MachineRegistry

/-! ## The statement -/

/-- A call of `acquire` between its sections. -/
def AcquirePc.pending : AcquirePc → Bool
  | .calling | .got _ => true
  | .failed _ | .holding _ | .released => false

namespace MachineRegistry

/-- All operations that were started have completed. -/
def quiescent (s : MachineRegistry) : Bool := s.stopping.isEmpty && !s.calls.any (·.pending)

def liveUpstreams (s : MachineRegistry) : List Nat :=
  (List.range s.upstreams.length).filter fun u => s.upstreams[u]?.any (·.live)

end MachineRegistry

/-- At most one upstream is live, it is the one of the record in the map, and the viewer counts
are those of the acquisitions without the releases. -/
def OneLiveUpstream (s : MachineRegistry) : Prop :=
  s.quiescent = true →
    s.liveUpstreams.length ≤ 1 ∧ (∀ u ∈ s.liveUpstreams, s.reference = some u) ∧
      ∀ x ∈ s.upstreams, x.released ≤ x.acquired ∧ x.viewers = x.acquired - x.released

/-- The record that the second section of `acquire` is about to use. -/
def AcquirePc.record : AcquirePc → Option Nat
  | .got r => some r
  | .calling | .failed _ | .holding _ | .released => none

/-- The condition on a step: `acquire` creates an upstream only for the record of the map. -/
def CreatesForCurrent (s : MachineRegistry) : RegistryEvent → Prop
  | .lock i => ∀ r ∈ s.calls[i]?.bind (·.record),
      s.current = some r ∨ s.records[r]?.any (·.upstream.isSome) = true
  | _ => True

instance (s : MachineRegistry) : Decidable (OneLiveUpstream s) :=
  inferInstanceAs (Decidable (_ = true → _))

instance (s : MachineRegistry) (e : RegistryEvent) : Decidable (CreatesForCurrent s e) := by
  unfold CreatesForCurrent
  split <;> infer_instance

open MachineRegistry AcquirePc

/-! ## Viewer counts -/

section Counts

variable {upstreams : List MachineUpstream} {calls : List AcquirePc} {u i : Nat}
  {x x' : MachineUpstream} {pc pc' : AcquirePc}

/-- The calls that hold an upstream are its viewers. -/
def Counted (upstreams : List MachineUpstream) (calls : List AcquirePc) : Prop :=
  ∀ u, match upstreams[u]? with
    | some x => x.viewers = calls.countP (· == .holding u) ∧ x.acquired = x.viewers + x.released
    | none => calls.countP (· == .holding u) = 0

namespace Counted

variable (h : Counted upstreams calls)

include h

theorem unheld (hu : upstreams.length ≤ u) : calls.countP (· == .holding u) = 0 := by
  have hcount := h u
  rw [List.getElem?_eq_none hu] at hcount
  exact hcount

theorem viewers_eq (hx : upstreams[u]? = some x) :
    x.viewers = calls.countP (· == .holding u) ∧ x.acquired = x.viewers + x.released := by
  have hcount := h u
  rw [hx] at hcount
  exact hcount

/-- A change of one upstream that its viewers do not notice. -/
theorem setSame (hx : upstreams[u]? = some x) (hviewers : x'.viewers = x.viewers)
    (hacquired : x'.acquired = x.acquired) (hreleased : x'.released = x.released) :
    Counted (upstreams.set u x') calls := by
  intro u'
  by_cases heq : u' = u
  · subst heq
    rw [List.getElem?_set_self (List.getElem?_eq_some_iff.mp hx).1]
    simp only [hviewers, hacquired, hreleased]
    exact h.viewers_eq hx
  · rw [List.getElem?_set_ne (.symm heq)]
    exact h u'

/-- A move of a call that neither takes nor gives back an upstream. -/
theorem moveCall (hpc : calls[i]? = some pc) (hbefore : ∀ u, pc ≠ .holding u)
    (hafter : ∀ u, pc' ≠ .holding u) : Counted upstreams (calls.set i pc') := by
  intro u
  have hcount := countP_set (f := (· == holding u)) (b := pc') hpc
  simp only [beq_iff_eq, hbefore u, hafter u, if_false, Nat.add_zero] at hcount
  rw [hcount]
  exact h u

theorem call : Counted upstreams (calls ++ [.calling]) := by
  intro u
  have hcount : (calls ++ [calling]).countP (· == .holding u) =
      calls.countP (· == .holding u) := by
    rw [List.countP_append]
    rfl
  rw [hcount]
  exact h u

end Counted

/-- The counts of the upstreams when one call comes to hold or gives up upstream `u`. -/
theorem countP_holding_set (hpc : calls[i]? = some pc) (pc' : AcquirePc) (u : Nat) :
    (calls.set i pc').countP (· == .holding u) + (if pc = .holding u then 1 else 0) =
      calls.countP (· == .holding u) + (if pc' = .holding u then 1 else 0) := by
  simpa only [beq_iff_eq] using countP_set (f := (· == holding u)) hpc

namespace Counted

variable (h : Counted upstreams calls)

include h

theorem hold (hx : upstreams[u]? = some x) (hpc : calls[i]? = some pc) (hbefore : ∀ u, pc ≠ .holding u) :
    Counted (upstreams.set u x.addViewer) (calls.set i (.holding u)) := by
  intro u'
  have hcount := countP_holding_set hpc (.holding u) u'
  rw [if_neg (hbefore u')] at hcount
  by_cases heq : u' = u
  · subst heq
    have hu := h.viewers_eq hx
    rw [if_pos rfl] at hcount
    rw [List.getElem?_set_self (List.getElem?_eq_some_iff.mp hx).1]
    simp only [MachineUpstream.addViewer]
    omega
  · have hne : holding u ≠ .holding u' := fun h => heq (holding.inj h).symm
    rw [if_neg hne, Nat.add_zero] at hcount
    rw [List.getElem?_set_ne (.symm heq), hcount]
    exact h u'

theorem create (hpc : calls[i]? = some pc) (hbefore : ∀ u, pc ≠ .holding u)
    (hfresh : x.viewers = 0 ∧ x.acquired = 0 ∧ x.released = 0) :
    Counted (upstreams ++ [x.addViewer]) (calls.set i (.holding upstreams.length)) := by
  intro u'
  have hcount := countP_holding_set hpc (.holding upstreams.length) u'
  rw [if_neg (hbefore u')] at hcount
  by_cases heq : u' = upstreams.length
  · subst heq
    have hu := h.unheld (Nat.le_refl _)
    rw [if_pos rfl] at hcount
    rw [List.getElem?_concat_length]
    simp only [MachineUpstream.addViewer]
    omega
  · have hne : holding upstreams.length ≠ .holding u' := fun h => heq (holding.inj h).symm
    rw [if_neg hne, Nat.add_zero] at hcount
    rw [hcount]
    by_cases hlt : u' < upstreams.length
    · rw [List.getElem?_append_left hlt]
      exact h u'
    · rw [List.getElem?_eq_none (by rw [List.length_append, List.length_singleton]; omega)]
      exact h.unheld (Nat.le_of_not_lt hlt)

theorem giveBack (hx : upstreams[u]? = some x) (hpc : calls[i]? = some (.holding u)) :
    Counted (upstreams.set u x.removeViewer) (calls.set i .released) := by
  intro u'
  have hcount := countP_holding_set hpc .released u'
  rw [if_neg (nofun : released ≠ .holding u')] at hcount
  by_cases heq : u' = u
  · subst heq
    have hu := h.viewers_eq hx
    rw [if_pos rfl] at hcount
    rw [List.getElem?_set_self (List.getElem?_eq_some_iff.mp hx).1]
    simp only [MachineUpstream.removeViewer]
    omega
  · have hne : holding u ≠ .holding u' := fun h => heq (holding.inj h).symm
    rw [if_neg hne, Nat.add_zero] at hcount
    rw [List.getElem?_set_ne (.symm heq), hcount]
    exact h u'

end Counted

end Counts

/-! ## Live upstreams -/

section Live

variable {s s' : MachineRegistry} {e : RegistryEvent} {r u i k : Nat} {m m' : MachineRecord}
  {x x' : MachineUpstream}

/-- A live upstream is that of the record in the map, or is about to be stopped; and so is, or is
stopped, every upstream of another record. -/
structure LiveInv (s : MachineRegistry) : Prop where
  live : ∀ u x, s.upstreams[u]? = some x → x.live = true → s.reference = some u ∨ u ∈ s.stopping
  down : ∀ r m u, s.records[r]? = some m → m.upstream = some u →
    s.current = some r ∨ u ∈ s.stopping ∨ s.upstreams[u]?.any (·.stopped) = true

theorem reference_eq (hcurrent : s.current = some r) (hm : s.records[r]? = some m) :
    s.reference = m.upstream := by
  rw [reference, hcurrent, Option.bind_some, hm, Option.bind_some]

theorem reference_none (hcurrent : s.current = none) : s.reference = none := by
  rw [reference, hcurrent, Option.bind_none]

namespace LiveInv

variable (h : LiveInv s)

include h

/-- A change of one upstream that does not bring it to life and does not restart it. -/
theorem setUpstream (hx : s.upstreams[u]? = some x)
    (hlive : x'.live = true → x.live = true ∨ s.reference = some u ∨ u ∈ s.stopping)
    (hstopped : x.stopped = true → x'.stopped = true) :
    LiveInv { s with upstreams := s.upstreams.set u x' } := by
  constructor
  · intro u' y hy hylive
    rcases getElem?_set_cases hy with ⟨rfl, rfl⟩ | ⟨-, hy⟩
    · rcases hlive hylive with hlive | hsafe
      · exact h.live u' x hx hlive
      · exact hsafe
    · exact h.live u' y hy hylive
  · intro r m u' hm hup
    refine (h.down r m u' hm hup).imp_right (.imp_right fun hstop => ?_)
    by_cases heq : u' = u
    · subst heq
      rw [hx] at hstop
      rw [List.getElem?_set_self (List.getElem?_eq_some_iff.mp hx).1]
      exact hstopped hstop
    · rwa [List.getElem?_set_ne (.symm heq)]

theorem setRecord (hm : s.records[r]? = some m) (hsame : m'.upstream = m.upstream) :
    LiveInv { s with records := s.records.set r m' } := by
  have hreference : reference { s with records := s.records.set r m' } =
      s.reference := by
    unfold reference
    cases s.current with
    | none => rfl
    | some r' =>
      rw [Option.bind_some, Option.bind_some]
      by_cases heq : r' = r
      · subst heq
        rw [List.getElem?_set_self (List.getElem?_eq_some_iff.mp hm).1, hm, Option.bind_some,
          Option.bind_some, hsame]
      · rw [List.getElem?_set_ne (.symm heq)]
  constructor
  · rw [hreference]
    exact h.live
  · intro r' m₀ u hm₀ hup
    rcases getElem?_set_cases hm₀ with ⟨rfl, rfl⟩ | ⟨-, hm₀⟩
    · exact h.down r' m u hm (hsame ▸ hup)
    · exact h.down r' m₀ u hm₀ hup

/-- The record in the map loses its upstream, which is to be stopped or is not live. -/
theorem dropReference {stopping : List Nat} (hcurrent : s.current = some r) (hm : s.records[r]? = some m)
    (hnone : m'.upstream = none) (hsub : ∀ u ∈ s.stopping, u ∈ stopping)
    (hstop : ∀ u, m.upstream = some u → u ∈ stopping) :
    LiveInv { s with records := s.records.set r m', stopping } := by
  constructor
  · intro u y hy hylive
    rcases h.live u y hy hylive with href | hmem
    · rw [reference_eq hcurrent hm] at href
      exact .inr (hstop u href)
    · exact .inr (hsub u hmem)
  · intro r' m₀ u hm₀ hup
    rcases getElem?_set_cases hm₀ with ⟨rfl, rfl⟩ | ⟨-, hm₀⟩
    · rw [hnone] at hup
      cases hup
    · exact (h.down r' m₀ u hm₀ hup).imp_right (.imp_left (hsub u))

theorem expire (hcurrent : s.current = some r) (hm : s.records[r]? = some m) : LiveInv (s.expire r m) := by
  refine h.dropReference hcurrent hm rfl (fun _ => List.mem_append_left _) ?_
  intro u hup
  rw [hup]
  exact List.mem_append_right _ List.mem_cons_self

theorem upsert (input : MachineRegistration) (static : Bool) : LiveInv (s.upsert input static) := by
  unfold MachineRegistry.upsert
  split
  next hcurrent =>
    -- the new record has no upstream
    have hlook : ∀ {r' : Nat} {m₀ : MachineRecord},
        (s.records ++ [MachineRecord.update {} input static s.clock])[r']? = some m₀ →
          s.records[r']? = some m₀ ∨ m₀.upstream = none := by
      intro r' m₀ hm₀
      rcases Nat.lt_trichotomy r' s.records.length with hlt | rfl | hgt
      · rw [List.getElem?_append_left hlt] at hm₀
        exact .inl hm₀
      · rw [List.getElem?_concat_length] at hm₀
        cases hm₀
        exact .inr rfl
      · rw [List.getElem?_eq_none (by rw [List.length_append, List.length_singleton]; omega)] at hm₀
        cases hm₀
    constructor
    · intro u y hy hylive
      rcases h.live u y hy hylive with href | hmem
      · rw [reference_none hcurrent] at href
        cases href
      · exact .inr hmem
    · intro r' m₀ u hm₀ hup
      rcases hlook hm₀ with hm₀ | hnone
      · rcases h.down r' m₀ u hm₀ hup with hcur | hdown
        · rw [hcurrent] at hcur
          cases hcur
        · exact .inr hdown
      · rw [hnone] at hup
        cases hup
  next r hcurrent =>
    split
    · exact h
    next m hm =>
      have hset : LiveInv { s with records := s.records.set r (m.update input static s.clock) } :=
        h.setRecord hm rfl
      simp only
      split
      · exact hset
      · split
        · exact hset
        next x hx =>
          exact hset.setUpstream hx .inl id

theorem deregister : LiveInv s.deregister := by
  unfold MachineRegistry.deregister
  split
  · exact h
  next r hcurrent =>
    split
    · exact h
    next m hm =>
      split
      · exact h
      · have hstop : ∀ u, m.upstream = some u → u ∈ s.stopping ++ m.upstream.toList := by
          intro u hup
          rw [hup]
          exact List.mem_append_right _ List.mem_cons_self
        constructor
        · intro u y hy hylive
          rcases h.live u y hy hylive with href | hmem
          · rw [reference_eq hcurrent hm] at href
            exact .inr (hstop u href)
          · exact .inr (List.mem_append_left _ hmem)
        · intro r' m₀ u hm₀ hup
          rcases h.down r' m₀ u hm₀ hup with hcur | hmem | hstopped
          · cases Option.some.inj (hcurrent.symm.trans hcur)
            cases Option.some.inj (hm.symm.trans hm₀)
            exact .inr (.inl (hstop u hup))
          · exact .inr (.inl (List.mem_append_left _ hmem))
          · exact .inr (.inr hstopped)

/-- The second section of `acquire` creates an upstream, for the record of the map. -/
theorem create (hcurrent : s.current = some r) (hm : s.records[r]? = some m) (hnone : m.upstream = none) :
    LiveInv { s with
      upstreams := s.upstreams ++ [x]
      records := s.records.set r { m with upstream := some s.upstreams.length } } := by
  have hlt : r < s.records.length := (List.getElem?_eq_some_iff.mp hm).1
  constructor
  · intro u y hy hylive
    rcases Nat.lt_trichotomy u s.upstreams.length with hu | rfl | hu
    · -- the other live upstreams were about to be stopped before
      rw [List.getElem?_append_left hu] at hy
      rcases h.live u y hy hylive with href | hmem
      · rw [reference_eq hcurrent hm, hnone] at href
        cases href
      · exact .inr hmem
    · left
      rw [reference, hcurrent, Option.bind_some, List.getElem?_set_self hlt]
      rfl
    · rw [List.getElem?_eq_none (by rw [List.length_append, List.length_singleton]; omega)] at hy
      cases hy
  · intro r' m₀ u hm₀ hup
    rcases getElem?_set_cases hm₀ with ⟨rfl, rfl⟩ | ⟨-, hm₀⟩
    · exact .inl hcurrent
    · refine (h.down r' m₀ u hm₀ hup).imp_right (.imp_right fun hstopped => ?_)
      cases hy : s.upstreams[u]? with
      | none =>
        rw [hy] at hstopped
        cases hstopped
      | some y =>
        rw [List.getElem?_append_left (List.getElem?_eq_some_iff.mp hy).1]
        exact hstopped

theorem take (hm : s.records[r]? = some m) (hup : m.upstream = some u) (hx : s.upstreams[u]? = some x) :
    LiveInv (s.setUpstream u x.addViewer) := by
  refine h.setUpstream hx (fun hlive => ?_) id
  rcases h.down r m u hm hup with hcurrent | hmem | hstopped
  · exact .inr (.inl ((reference_eq hcurrent hm).trans hup))
  · exact .inr (.inr hmem)
  · rw [hx, Option.any_some] at hstopped
    simp [MachineUpstream.live, MachineUpstream.addViewer, hstopped] at hlive

theorem removeViewer (hx : s.upstreams[u]? = some x) : LiveInv (s.setUpstream u x.removeViewer) := by
  refine h.setUpstream hx (fun hlive => .inl ?_) id
  obtain ⟨hrunning, hviewers⟩ := Bool.and_eq_true_iff.mp hlive
  have hless : 0 < x.viewers - 1 := of_decide_eq_true hviewers
  exact Bool.and_eq_true_iff.mpr ⟨hrunning, decide_eq_true (by omega)⟩

theorem unreference (u : Nat) :
    LiveInv { s.unreference u with stopping := (s.unreference u).stopping ++ [u] } := by
  have hmore : LiveInv { s with stopping := s.stopping ++ [u] } :=
    ⟨fun u' y hy hylive => (h.live u' y hy hylive).imp_right (List.mem_append_left _),
      fun r m u' hm hup => (h.down r m u' hm hup).imp_right
        (.imp_left (List.mem_append_left _))⟩
  unfold MachineRegistry.unreference
  split
  · exact hmore
  next r hcurrent =>
    split
    · exact hmore
    next m hm =>
      split
      next hup =>
        refine h.dropReference hcurrent hm rfl (fun _ => List.mem_append_left _) ?_
        intro u' hu'
        cases Option.some.inj (hup.symm.trans hu')
        exact List.mem_append_right _ List.mem_cons_self
      · exact hmore

theorem stop (hk : s.stopping[k]? = some u) (hx : s.upstreams[u]? = some x) :
    LiveInv { s.setUpstream u { x with stopped := true } with
      stopping := s.stopping.eraseIdx k } := by
  have hrest : ∀ u' ∈ s.stopping, u' ≠ u → u' ∈ s.stopping.eraseIdx k := by
    intro u' hmem hne
    obtain ⟨j, hj⟩ := List.mem_iff_getElem?.mp hmem
    refine List.mem_eraseIdx_iff_getElem?.mpr ⟨j, ?_, hj⟩
    rintro rfl
    exact hne (Option.some.inj (hj.symm.trans hk))
  have hlt : u < s.upstreams.length := (List.getElem?_eq_some_iff.mp hx).1
  constructor
  · intro u' y hy hylive
    rcases getElem?_set_cases hy with ⟨rfl, rfl⟩ | ⟨hne, hy⟩
    · cases hylive
    · exact (h.live u' y hy hylive).imp_right fun hmem => hrest u' hmem hne
  · intro r m u' hm hup
    refine (h.down r m u' hm hup).imp_right fun hdown => ?_
    by_cases hne : u' = u
    · subst hne
      right
      simp only [MachineRegistry.setUpstream]
      rw [List.getElem?_set_self hlt]
      rfl
    · refine hdown.imp (fun hmem => hrest u' hmem hne) fun hstopped => ?_
      simp only [MachineRegistry.setUpstream]
      rwa [List.getElem?_set_ne (.symm hne)]

end LiveInv

end Live

/-! ## Steps -/

/-- The invariant of the registry. -/
structure RegistryInv (s : MachineRegistry) : Prop where
  live : LiveInv s
  counted : Counted s.upstreams s.calls

section Steps

variable {s s' : MachineRegistry} {e : RegistryEvent} {r u i : Nat} {m : MachineRecord}
  {x : MachineUpstream}

section

variable (h : RegistryInv s)

include h

theorem RegistryInv.expire (hcurrent : s.current = some r) (hm : s.records[r]? = some m) :
    RegistryInv (s.expire r m) :=
  ⟨h.live.expire hcurrent hm, h.counted⟩

theorem RegistryInv.setCall {pc pc' : AcquirePc} (hpc : s.calls[i]? = some pc)
    (hbefore : ∀ u, pc ≠ .holding u) (hafter : ∀ u, pc' ≠ .holding u) : RegistryInv (s.setCall i pc') :=
  ⟨⟨h.live.live, h.live.down⟩, h.counted.moveCall hpc hbefore hafter⟩

theorem RegistryInv.upsert (input : MachineRegistration) (static : Bool) :
    RegistryInv (s.upsert input static) := by
  refine ⟨h.live.upsert input static, ?_⟩
  unfold MachineRegistry.upsert
  split
  · exact h.counted
  · split
    · exact h.counted
    · simp only
      split
      · exact h.counted
      · split
        · exact h.counted
        next x hx =>
          exact h.counted.setSame hx rfl rfl rfl

theorem RegistryInv.deregister : RegistryInv s.deregister := by
  refine ⟨h.live.deregister, ?_⟩
  unfold MachineRegistry.deregister
  split
  · exact h.counted
  · split
    · exact h.counted
    · split <;> exact h.counted

theorem RegistryInv.list : RegistryInv s.list := by
  unfold MachineRegistry.list
  split
  · exact h
  next r hcurrent =>
    split
    · exact h
    next m hm =>
      split
      · exact h.expire hcurrent hm
      · exact h

theorem RegistryInv.get (hpc : s.calls[i]? = some .calling) : RegistryInv (s.get i) := by
  unfold MachineRegistry.get
  split
  · exact h.setCall hpc nofun nofun
  next r hcurrent =>
    split
    · exact h.setCall hpc nofun nofun
    next m hm =>
      split
      · have hexpired := h.expire hcurrent hm
        exact hexpired.setCall hpc nofun nofun
      · split <;> exact h.setCall hpc nofun nofun

theorem RegistryInv.lock (hok : CreatesForCurrent s (.lock i)) (hpc : s.calls[i]? = some (.got r))
    (hm : s.records[r]? = some m) : RegistryInv (s.lock i r m) := by
  have hallowed : s.current = some r ∨ s.records[r]?.any (·.upstream.isSome) = true :=
    hok r (by rw [hpc]; rfl)
  unfold MachineRegistry.lock
  split
  next hnone =>
    have hcurrent : s.current = some r := by
      rcases hallowed with hcurrent | hsome
      · exact hcurrent
      · rw [hm, Option.any_some, hnone] at hsome
        cases hsome
    have hlive := h.live.create (x := m.newMachineUpstream.addViewer) hcurrent hm hnone
    exact ⟨⟨hlive.live, hlive.down⟩, h.counted.create hpc nofun ⟨rfl, rfl, rfl⟩⟩
  next u hup =>
    split
    · exact h
    next x hx =>
      split
      · exact h.setCall hpc nofun nofun
      · have hlive := h.live.take hm hup hx
        exact ⟨⟨hlive.live, hlive.down⟩, h.counted.hold hx hpc nofun⟩

theorem RegistryInv.release (hpc : s.calls[i]? = some (.holding u)) (hx : s.upstreams[u]? = some x) :
    RegistryInv (s.release i u x) := by
  have hlive : LiveInv ((s.setUpstream u x.removeViewer).setCall i .released) := by
    have hless := h.live.removeViewer hx
    exact ⟨hless.live, hless.down⟩
  have hcounted : Counted (s.upstreams.set u x.removeViewer) (s.calls.set i .released) :=
    h.counted.giveBack hx hpc
  simp only [MachineRegistry.release]
  split
  · refine ⟨hlive.unreference u, ?_⟩
    unfold MachineRegistry.unreference
    split
    · exact hcounted
    · split
      · exact hcounted
      · split <;> exact hcounted
  · exact ⟨hlive, hcounted⟩

theorem registryInv_step (hok : CreatesForCurrent s e) (hstep : s.step e = some s') : RegistryInv s' := by
  cases e with
  | tick =>
    cases hstep
    exact ⟨⟨h.live.live, h.live.down⟩, h.counted⟩
  | upsert input static =>
    cases hstep
    exact h.upsert input static
  | deregister =>
    cases hstep
    exact h.deregister
  | list =>
    cases hstep
    exact h.list
  | acquire =>
    cases hstep
    exact ⟨⟨h.live.live, h.live.down⟩, h.counted.call⟩
  | get i =>
    simp only [step] at hstep
    split at hstep <;> cases hstep
    exact h.get ‹_›
  | lock i =>
    simp only [step] at hstep
    split at hstep
    next r hpc =>
      split at hstep <;> cases hstep
      exact h.lock hok hpc ‹_›
    · cases hstep
  | release i =>
    simp only [step] at hstep
    split at hstep
    next u hpc =>
      split at hstep <;> cases hstep
      exact h.release hpc ‹_›
    · cases hstep
  | stop k =>
    simp only [step] at hstep
    split at hstep
    next u hk =>
      split at hstep <;> cases hstep
      rename_i x hx
      exact ⟨h.live.stop hk hx, h.counted.setSame hx rfl rfl rfl⟩
    · cases hstep

end

end Steps

/-! ## One live upstream -/

theorem mem_liveUpstreams {s : MachineRegistry} {u : Nat} (h : u ∈ s.liveUpstreams) :
    ∃ x, s.upstreams[u]? = some x ∧ x.live = true := by
  have hlive := (List.mem_filter.mp h).2
  cases hx : s.upstreams[u]? with
  | none =>
    rw [hx] at hlive
    cases hlive
  | some x =>
    rw [hx] at hlive
    exact ⟨x, rfl, hlive⟩

theorem length_le_one_of_forall_eq {l : List Nat} {o : Option Nat} (hnodup : l.Nodup)
    (h : ∀ u ∈ l, o = some u) : l.length ≤ 1 := by
  match l, hnodup, h with
  | [], _, _ => exact Nat.zero_le _
  | [_], _, _ => exact Nat.le_refl _
  | a :: b :: rest, hnodup, h =>
    have ha := h a List.mem_cons_self
    have hb := h b (List.mem_cons_of_mem _ List.mem_cons_self)
    cases Option.some.inj (ha.symm.trans hb)
    exact absurd List.mem_cons_self (List.nodup_cons.mp hnodup).1

theorem RegistryInv.oneLiveUpstream {s : MachineRegistry} (h : RegistryInv s) : OneLiveUpstream s := by
  intro hquiet
  have hstopping : s.stopping = [] := List.isEmpty_iff.mp (Bool.and_eq_true_iff.mp hquiet).1
  have hreferenced : ∀ u ∈ s.liveUpstreams, s.reference = some u := by
    intro u hu
    obtain ⟨x, hx, hlive⟩ := mem_liveUpstreams hu
    rcases h.live.live u x hx hlive with href | hmem
    · exact href
    · rw [hstopping] at hmem
      cases hmem
  have hnodup : s.liveUpstreams.Nodup := List.nodup_range.filter _
  refine ⟨length_le_one_of_forall_eq hnodup hreferenced, hreferenced, fun x hx => ?_⟩
  obtain ⟨u, hu⟩ := List.mem_iff_getElem?.mp hx
  have hcounts := (h.counted.viewers_eq hu).2
  omega

/-- In every run in which `acquire` creates upstreams only for the record of the map, at most one
upstream is live whenever all operations have completed, the record refers to it, and the viewer
counts are right. -/
theorem one_live_upstream (es : List RegistryEvent)
    (hok : Lts.Along MachineRegistry.step CreatesForCurrent {} es) :
    Lts.Throughout MachineRegistry.step OneLiveUpstream {} es := by
  have hinit : RegistryInv {} := ⟨⟨nofun, nofun⟩, fun _ => rfl⟩
  have hinv : Lts.Throughout step RegistryInv {} es :=
    Lts.throughout_of_along (fun _ _ _ => registryInv_step) hinit hok
  exact hinv.mono fun _ h => h.oneLiveUpstream

/-- A viewer comes and goes, and the machine registers anew in between: the second viewer gets a
new upstream and the first one is stopped. -/
def reregisterRun : List RegistryEvent :=
  [.upsert {} false, .acquire, .get 0, .lock 0, .deregister, .stop 0, .upsert {} false,
    .acquire, .get 1, .lock 1, .release 0, .stop 0]

theorem one_live_upstream_reregisterRun :
    Lts.Along MachineRegistry.step CreatesForCurrent {} reregisterRun ∧
      Lts.Throughout MachineRegistry.step OneLiveUpstream {} reregisterRun := by
  have hok : Lts.Along step CreatesForCurrent {} reregisterRun := by decide +kernel
  exact ⟨hok, one_live_upstream reregisterRun hok⟩

/-- The machine deregisters and registers anew between the two sections of `acquire`: the upstream
of the first viewer hangs on the old record, and a second viewer gets another one. -/
theorem two_live_upstreams :
    ¬ ∀ es : List RegistryEvent, Lts.Throughout MachineRegistry.step OneLiveUpstream {} es := by
  intro h
  have hrun := h [.upsert {} false, .acquire, .get 0, .deregister, .upsert {} false, .lock 0,
    .acquire, .get 1, .lock 1]
  exact absurd hrun (by decide +kernel)

end Rustcast.Relay
