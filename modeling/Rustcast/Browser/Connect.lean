import Mathlib.Data.List.Nodup
import Rustcast.Core.Lts
import Rustcast.Core.Parties

/-!
# Connection attempts of the browser client

`connect` and `disconnect` of `webtransport-client.ts`, with `connectFirst` of `candidates.ts`.
Every call of `connect` takes a new generation and suspends at the discovery request, at its body,
at each candidate transport, when `connectFirst` has returned, and at the control stream. It
resumes in any order with the other calls, with `disconnect`, the reconnect timer, the close
notifications and the control messages that end a session.

`connect` writes `transport` and the connection path before it compares generations, and the
control writer without a comparison. A superseded call that resumes after the latest one has
written overwrites it, and one that resumes after `disconnect` leaves a transport behind.
-/

namespace Rustcast.Browser

open Parties

/-! ## The client -/

inductive CandidatePath where
  | direct
  | relay
  deriving DecidableEq

/-- A candidate as `connectFirst` meets it. -/
structure OpenCandidate where
  path : CandidatePath
  /-- `new WebTransport` does not throw -/
  opens : Bool := true
  deriving DecidableEq

/-- A transport that was opened, with the generation of the call that opened it. -/
structure ClientTransport where
  generation : Nat
  path : CandidatePath
  closed : Bool := false
  deriving DecidableEq

/-- Where a call of `connect` is suspended; transports are positions in the table of the client. -/
inductive ConnectPc where
  | fetching
  /-- at `response.json()` -/
  | reading
  /-- in `connectFirst`, with the candidates still to try -/
  | trying (t : Nat) (rest : List OpenCandidate)
  /-- `connectFirst` has returned -/
  | opened (t : Nat)
  /-- `connectFirst` has thrown -/
  | exhausted
  /-- at `createBidirectionalStream` -/
  | streaming (t : Nat)
  | returned
  deriving DecidableEq

structure ConnectCall where
  generation : Nat
  pc : ConnectPc := .fetching
  deriving DecidableEq

structure ConnectClient where
  intentionalClose : Bool := false
  /-- the reconnect timer runs -/
  reconnectTimer : Bool := false
  generation : Nat := 0
  transport : Option Nat := none
  connectionPath : Option CandidatePath := none
  /-- the writer, by the transport of its stream -/
  controlWriter : Option Nat := none
  transports : List ClientTransport := []
  calls : List ConnectCall := []
  /-- the transports whose `closed` has a handler, with its generation -/
  handlers : List (Nat × Nat) := []
  deriving DecidableEq

inductive ConnectEvent where
  | connect
  | disconnect
  /-- the reconnect timer fires -/
  | timer
  /-- the discovery request completes, with a good response or not -/
  | fetched (i : Nat) (ok : Bool)
  /-- the body is read; `none` when that fails -/
  | json (i : Nat) (candidates : Option (List OpenCandidate))
  /-- the transport that `connectFirst` waits for is ready, or fails or times out -/
  | tried (i : Nat) (ok : Bool)
  /-- `connect` goes on with the transport of `connectFirst` -/
  | resume (i : Nat)
  /-- `connect` goes on with the error of `connectFirst` -/
  | giveUp (i : Nat)
  /-- the control stream is open, or fails -/
  | streamed (i : Nat) (ok : Bool)
  /-- a transport closes, for whatever reason -/
  | closed (t : Nat)
  /-- a handler of `closed` is called -/
  | notify (k : Nat)
  /-- an `error` or `session-ended` message is handled -/
  | ended
  /-- a `session-rejected` message is handled -/
  | rejected
  deriving DecidableEq

namespace ConnectClient

variable (s : ConnectClient)

def setCall (i : Nat) (c : ConnectCall) : ConnectClient :=
  { s with calls := s.calls.set i c }

def closeTransport (t : Nat) : ConnectClient :=
  { s with transports := s.transports.modify t fun x => { x with closed := true } }

def pathOf (t : Nat) : Option CandidatePath :=
  s.transports[t]?.map (·.path)

def closeCurrent : ConnectClient :=
  { s with
    controlWriter := none
    transports := match s.transport with
      | some t => (s.closeTransport t).transports
      | none => s.transports
    transport := none
    connectionPath := none }

def scheduleReconnect : ConnectClient :=
  if s.intentionalClose || s.reconnectTimer then s else { s with reconnectTimer := true }

/-- `connect`, up to the discovery request. -/
def connect : ConnectClient :=
  let s := { s with intentionalClose := false, reconnectTimer := false }
  let s := s.closeCurrent
  { s with
    generation := s.generation + 1
    calls := s.calls ++ [{ generation := s.generation + 1 }] }

def disconnect : ConnectClient :=
  let s := { s with intentionalClose := true, generation := s.generation + 1 }
  { s with reconnectTimer := false }.closeCurrent

/-- The `catch` block of `connect`. -/
def fail (i generation : Nat) : ConnectClient :=
  if generation ≠ s.generation then s.setCall i { generation, pc := .returned }
  else s.closeCurrent.scheduleReconnect.setCall i { generation, pc := .returned }

/-- The loop of `connectFirst`, up to the next candidate that opens. -/
def tryNext (s : ConnectClient) (i generation : Nat) :
    List OpenCandidate → ConnectClient
  | [] => s.setCall i { generation, pc := .exhausted }
  | c :: rest =>
    if c.opens then
      { s.setCall i { generation, pc := .trying s.transports.length rest } with
        transports := s.transports ++ [{ generation, path := c.path }] }
    else s.tryNext i generation rest

/-- `connect` after `connectFirst`: the fields are written before the generations are compared. -/
def resume (i generation t : Nat) : ConnectClient :=
  -- a superseded call has overwritten the fields before it notices
  let s := { s with transport := some t, connectionPath := s.pathOf t }
  if generation ≠ s.generation then
    (s.closeTransport t).setCall i { generation, pc := .returned }
  else s.setCall i { generation, pc := .streaming t }

/-- `connect` after the control stream is open: there is no comparison of generations. -/
def streamed (i generation t : Nat) : ConnectClient :=
  { s.setCall i { generation, pc := .returned } with
    controlWriter := some t
    handlers := s.handlers ++ [(t, generation)] }

def handleClosed (t generation : Nat) : ConnectClient :=
  if generation ≠ s.generation ∨ s.transport ≠ some t ∨ s.intentionalClose = true then s
  else s.closeCurrent.scheduleReconnect

def step : ConnectEvent → Option ConnectClient
  | .connect => some s.connect
  | .disconnect => some s.disconnect
  -- `clearTimeout` has taken the timer away, or it fires once
  | .timer => if s.reconnectTimer then some s.connect else none
  | .fetched i ok =>
    match s.calls[i]? with
    | some ⟨generation, .fetching⟩ =>
      some (if ok then s.setCall i { generation, pc := .reading } else s.fail i generation)
    | _ => none
  | .json i candidates =>
    match s.calls[i]? with
    | some ⟨generation, .reading⟩ =>
      match candidates with
      | some candidates => some (s.tryNext i generation candidates)
      | none => some (s.fail i generation)
    | _ => none
  | .tried i ok =>
    match s.calls[i]? with
    | some ⟨generation, .trying t rest⟩ =>
      -- a candidate that fails is closed, and the next one is tried
      some (if ok then s.setCall i { generation, pc := .opened t }
        else (s.closeTransport t).tryNext i generation rest)
    | _ => none
  | .resume i =>
    match s.calls[i]? with
    | some ⟨generation, .opened t⟩ => some (s.resume i generation t)
    | _ => none
  | .giveUp i =>
    match s.calls[i]? with
    | some ⟨generation, .exhausted⟩ => some (s.fail i generation)
    | _ => none
  | .streamed i ok =>
    match s.calls[i]? with
    | some ⟨generation, .streaming t⟩ =>
      some (if ok then s.streamed i generation t else s.fail i generation)
    | _ => none
  | .closed t => some (s.closeTransport t)
  | .notify k =>
    match s.handlers[k]? with
    | some (t, generation) =>
      -- the promise `closed` settles with the transport
      if s.transports[t]?.any (·.closed) then
        some { s.handleClosed t generation with handlers := s.handlers.eraseIdx k }
      else none
    | none => none
  -- both messages are final: no reconnect follows
  | .ended => some { s with intentionalClose := true }.closeCurrent
  | .rejected => some { s with intentionalClose := true }

/-- The transport was opened by a call of the latest generation. -/
def isLatest (t : Nat) : Bool :=
  s.transports[t]?.any (·.generation == s.generation)

end ConnectClient

/-! ## The statement -/

/-- When no call of `connect` is suspended, the fields stem from the latest generation and the
transports of the others are closed. After `disconnect` there is no transport of the latest
generation, so the fields are null. -/
def FromLatest (s : ConnectClient) : Prop :=
  (∀ c ∈ s.calls, c.pc = .returned) →
    (∀ t ∈ s.transport, s.isLatest t = true) ∧ s.connectionPath = s.transport.bind s.pathOf ∧
      (∀ t ∈ s.controlWriter, s.isLatest t = true) ∧
      ∀ x ∈ s.transports, x.generation ≠ s.generation → x.closed = true

/-- The call has yet to write `transport`, or to fail. -/
def ConnectPc.beforeTransport : ConnectPc → Bool
  | .fetching | .reading | .trying .. | .opened _ | .exhausted => true
  | .streaming _ | .returned => false

/-- The call has yet to write the control writer, or to fail. -/
def ConnectPc.beforeWriter : ConnectPc → Bool
  | .fetching | .reading | .trying .. | .opened _ | .exhausted | .streaming _ => true
  | .returned => false

open ConnectClient ConnectPc

theorem ConnectPc.beforeWriter_of_beforeTransport {pc : ConnectPc} (h : pc.beforeTransport = true) :
    pc.beforeWriter = true := by
  cases pc with
  | fetching | reading | trying | opened | exhausted => rfl
  | streaming | returned => cases h

/-- The call of the latest generation is suspended at a point in `f`. -/
def ConnectClient.awaits (s : ConnectClient) (f : ConnectPc → Bool) : Bool :=
  s.calls.any fun c => c.generation == s.generation && f c.pc

/-- The condition on a step: a superseded call writes a field only while the latest call has yet
to write it. -/
def ResumesInTime (s : ConnectClient) : ConnectEvent → Prop
  | .resume i => ∀ c ∈ s.calls[i]?, c.generation = s.generation ∨ s.awaits ConnectPc.beforeTransport = true
  | .streamed i true => ∀ c ∈ s.calls[i]?,
      c.generation = s.generation ∨ s.awaits ConnectPc.beforeWriter = true
  | _ => True

instance (s : ConnectClient) : Decidable (FromLatest s) :=
  inferInstanceAs (Decidable ((∀ c ∈ s.calls, _) → _))

instance (s : ConnectClient) (e : ConnectEvent) : Decidable (ResumesInTime s e) := by
  unfold ResumesInTime
  split <;> infer_instance

/-! ## The invariant -/

/-- The transport that a suspended call holds. -/
def ConnectPc.transport : ConnectPc → Option Nat
  | .trying t _ | .opened t | .streaming t => some t
  | .fetching | .reading | .exhausted | .returned => none

/-- The transport that only a suspended call knows of. -/
def ConnectPc.opening : ConnectPc → Option Nat
  | .trying t _ | .opened t => some t
  | .fetching | .reading | .exhausted | .streaming _ | .returned => none

structure ConnectInv (s : ConnectClient) : Prop where
  /-- a call holds a transport of its own generation -/
  held : ∀ c ∈ s.calls, ∀ t, c.pc.transport = some t →
    ∃ x, s.transports[t]? = some x ∧ x.generation = c.generation
  /-- an open transport is the current one, or a call will take care of it -/
  known : ∀ t x, s.transports[t]? = some x → x.closed = false →
    s.transport = some t ∨ ∃ c ∈ s.calls, c.pc.opening = some t
  /-- the current transport is of the latest generation, or closed and about to be replaced -/
  current : ∀ t, s.transport = some t → ∃ x, s.transports[t]? = some x ∧
    if s.awaits ConnectPc.beforeTransport then x.closed = true else x.generation = s.generation
  writer : ∀ t, s.controlWriter = some t → s.awaits ConnectPc.beforeWriter = true ∨
    ∃ x, s.transports[t]? = some x ∧ x.generation = s.generation
  path : s.connectionPath = s.transport.bind s.pathOf
  unique : (s.calls.map (·.generation)).Nodup
  bounded : ∀ c ∈ s.calls, c.generation ≤ s.generation

section Calls

variable {s : ConnectClient} {i : Nat} {c c' : ConnectCall} {f : ConnectPc → Bool}

/-- The latest generation has one call. -/
theorem awaits_eq_of_latest (hunique : (s.calls.map (·.generation)).Nodup)
    (hc : s.calls[i]? = some c) (hlatest : c.generation = s.generation) : s.awaits f = f c.pc := by
  rw [Bool.eq_iff_iff, ConnectClient.awaits, List.any_eq_true]
  constructor
  · rintro ⟨d, hd, hawaits⟩
    obtain ⟨hgeneration, hf⟩ := Bool.and_eq_true_iff.mp hawaits
    obtain ⟨j, hj⟩ := List.mem_iff_getElem?.mp hd
    have hij : i = j := eq_of_key_eq hunique hc hj (hlatest.trans (beq_iff_eq.mp hgeneration).symm)
    subst hij
    cases Option.some.inj (hc.symm.trans hj)
    exact hf
  · intro hf
    exact ⟨c, List.mem_of_getElem? hc, Bool.and_eq_true_iff.mpr ⟨beq_iff_eq.mpr hlatest, hf⟩⟩

/-- The moves of superseded calls, and those inside of a region, do not matter. -/
theorem awaits_setCall (hc : s.calls[i]? = some c) (hgeneration : c'.generation = c.generation)
    (hf : c.generation = s.generation → f c'.pc = f c.pc) : (s.setCall i c').awaits f = s.awaits f := by
  refine any_set_same hc ?_
  rw [hgeneration]
  by_cases hlatest : c.generation = s.generation
  · rw [hf hlatest]
  · have hstale : (c.generation == s.generation) = false := beq_eq_false_iff_ne.mpr hlatest
    simp only [ConnectClient.setCall, hstale, Bool.false_and]

end Calls

section Parts

variable {s s' : ConnectClient} {i t : Nat} {c c' : ConnectCall} {x : ClientTransport}

theorem ConnectInv.flags (h : ConnectInv s) (intentionalClose reconnectTimer : Bool)
    (handlers : List (Nat × Nat)) : ConnectInv { s with intentionalClose, reconnectTimer, handlers } :=
  ⟨h.held, h.known, h.current, h.writer, h.path, h.unique, h.bounded⟩

theorem getElem?_closeTransport (s : ConnectClient) (t t' : Nat) :
    (s.closeTransport t).transports[t']? =
      s.transports[t']?.map fun x => if t = t' then { x with closed := true } else x := by
  rw [ConnectClient.closeTransport, List.getElem?_modify]
  rfl

theorem pathOf_closeTransport (s : ConnectClient) (t : Nat) : (s.closeTransport t).pathOf = s.pathOf := by
  funext t'
  rw [pathOf, getElem?_closeTransport, Option.map_map]
  split <;> rfl

theorem exists_closeTransport (hx : s.transports[t]? = some x) (t' : Nat) :
    ∃ x', (s.closeTransport t').transports[t]? = some x' ∧ x'.generation = x.generation ∧
      (x.closed = true → x'.closed = true) := by
  rw [getElem?_closeTransport, hx]
  refine ⟨_, rfl, ?_⟩
  split
  · exact ⟨rfl, fun _ => rfl⟩
  · exact ⟨rfl, id⟩

namespace ConnectInv

variable (h : ConnectInv s)

include h

theorem closeTransport (t : Nat) : ConnectInv (s.closeTransport t) where
  held c hc t' ht' := by
    obtain ⟨x, hx, hgeneration⟩ := h.held c hc t' ht'
    obtain ⟨x', hx', hsame, -⟩ := exists_closeTransport hx t
    exact ⟨x', hx', hsame.trans hgeneration⟩
  known t' x' hx' hopen := by
    rw [getElem?_closeTransport] at hx'
    obtain ⟨x, hx, hx'⟩ := Option.map_eq_some_iff.mp hx'
    by_cases heq : t = t'
    · rw [if_pos heq] at hx'
      rw [← hx'] at hopen
      cases hopen
    · rw [if_neg heq] at hx'
      subst hx'
      exact h.known t' x hx hopen
  current t' ht' := by
    obtain ⟨x, hx, hx'⟩ := h.current t' ht'
    obtain ⟨x', hx', hsame, hclosed⟩ := exists_closeTransport hx t
    refine ⟨x', hx', ?_⟩
    show if s.awaits beforeTransport = true then _ else x'.generation = s.generation
    split at * <;> simp_all
  writer t' ht' := by
    refine (h.writer t' ht').imp_right ?_
    rintro ⟨x, hx, hgeneration⟩
    obtain ⟨x', hx', hsame, -⟩ := exists_closeTransport hx t
    exact ⟨x', hx', hsame.trans hgeneration⟩
  path := by
    rw [pathOf_closeTransport]
    exact h.path
  unique := h.unique
  bounded := h.bounded

theorem forgetTransport
    (hclosed : ∀ t x, s.transport = some t → s.transports[t]? = some x → x.closed = true) :
    ConnectInv { s with transport := none, connectionPath := none } where
  held := h.held
  known t x hx hopen := by
    right
    rcases h.known t x hx hopen with htransport | hcall
    · have hshut := hclosed t x htransport hx
      rw [hopen] at hshut
      cases hshut
    · exact hcall
  current := nofun
  writer := h.writer
  path := rfl
  unique := h.unique
  bounded := h.bounded

theorem forgetWriter : ConnectInv { s with controlWriter := none } :=
  ⟨h.held, h.known, h.current, nofun, h.path, h.unique, h.bounded⟩

theorem setWriter
    (ht : s.awaits beforeWriter = true ∨ ∃ x, s.transports[t]? = some x ∧
      x.generation = s.generation) : ConnectInv { s with controlWriter := some t } := by
  refine ⟨h.held, h.known, h.current, fun t' ht' => ?_, h.path, h.unique, h.bounded⟩
  cases ht'
  exact ht

theorem closeCurrent : ConnectInv s.closeCurrent := by
  unfold ConnectClient.closeCurrent
  split
  next t htransport =>
    have hclosed : ConnectInv { s.closeTransport t with transport := none, connectionPath := none } := by
      refine (h.closeTransport t).forgetTransport fun t' x ht' hx => ?_
      cases Option.some.inj (htransport.symm.trans ht')
      rw [getElem?_closeTransport] at hx
      obtain ⟨y, -, hy⟩ := Option.map_eq_some_iff.mp hx
      rw [if_pos rfl] at hy
      rw [← hy]
    exact hclosed.forgetWriter
  next htransport =>
    have hforgot : ConnectInv { s with transport := none, connectionPath := none } :=
      h.forgetTransport fun t x ht => by rw [htransport] at ht; cases ht
    exact hforgot.forgetWriter

section

variable (hc : s.calls[i]? = some c)

include hc

section

variable (hgeneration : c'.generation = c.generation)

include hgeneration

theorem unique_setCall : ((s.setCall i c').calls.map (·.generation)).Nodup := by
  have hkeys : (s.setCall i c').calls.map (·.generation) = s.calls.map (·.generation) :=
    map_set_same hc hgeneration
  rw [hkeys]
  exact h.unique

theorem bounded_setCall : ∀ d ∈ (s.setCall i c').calls, d.generation ≤ s.generation := by
  intro d hd
  rcases List.mem_or_eq_of_mem_set hd with hd | rfl
  · exact h.bounded d hd
  · rw [hgeneration]
    exact h.bounded c (List.mem_of_getElem? hc)

/-- A call moves on. Nothing else changes, so it keeps its part in what is awaited, and leaves only
transports behind that are closed or current. -/
theorem setCall
    (hheld : ∀ t, c'.pc.transport = some t → ∃ x, s.transports[t]? = some x ∧ x.generation = c.generation)
    (hknown : ∀ t x, c.pc.opening = some t → s.transports[t]? = some x → x.closed = false →
      s.transport = some t ∨ c'.pc.opening = some t)
    (htransport : c.generation = s.generation → s.transport = none ∨
      c'.pc.beforeTransport = c.pc.beforeTransport)
    (hwriter : c.generation = s.generation → s.controlWriter = none ∨
      c'.pc.beforeWriter = c.pc.beforeWriter) : ConnectInv (s.setCall i c') where
  held d hd t ht := by
    rcases List.mem_or_eq_of_mem_set hd with hd | rfl
    · exact h.held d hd t ht
    · rw [hgeneration]
      exact hheld t ht
  known t x hx hopen := by
    rcases h.known t x hx hopen with hcurrent | ⟨d, hd, hopening⟩
    · exact .inl hcurrent
    · rcases eq_or_mem_set hc hd with rfl | hd
      · exact (hknown t x hopening hx hopen).imp_right fun hopening' =>
          ⟨c', mem_set_self hc, hopening'⟩
      · exact .inr ⟨d, hd, hopening⟩
  current t ht := by
    rw [awaits_setCall hc hgeneration fun hlatest => (htransport hlatest).resolve_left fun hnone =>
      Option.some_ne_none t (ht.symm.trans hnone)]
    exact h.current t ht
  writer t ht := by
    rw [awaits_setCall hc hgeneration fun hlatest => (hwriter hlatest).resolve_left fun hnone =>
      Option.some_ne_none t (ht.symm.trans hnone)]
    exact h.writer t ht
  path := h.path
  unique := h.unique_setCall hc hgeneration
  bounded := h.bounded_setCall hc hgeneration

end

theorem setStale (hstale : c.generation ≠ s.generation)
    (hclosed : ∀ t x, c.pc.opening = some t → s.transports[t]? = some x → x.closed = true) :
    ConnectInv (s.setCall i { c with pc := .returned }) := by
  refine h.setCall hc rfl nofun (fun t x ht hx hopen => ?_) (fun heq => absurd heq hstale)
    fun heq => absurd heq hstale
  have hshut := hclosed t x ht hx
  rw [hopen] at hshut
  cases hshut

theorem openTransport {rest : List OpenCandidate} (hbefore : c.pc.beforeTransport = true)
    (hclosed : ∀ t x, c.pc.opening = some t → s.transports[t]? = some x → x.closed = true)
    (path : CandidatePath) :
    ConnectInv { s.setCall i { c with pc := .trying s.transports.length rest } with
      transports := s.transports ++ [{ generation := c.generation, path }] } := by
  let c' : ConnectCall := { c with pc := .trying s.transports.length rest }
  let new : ClientTransport := { generation := c.generation, path }
  have hkeep : ∀ {t : Nat} {x : ClientTransport}, s.transports[t]? = some x →
      (s.transports ++ [new])[t]? = some x := by
    intro t x hx
    rw [List.getElem?_append_left (List.getElem?_eq_some_iff.mp hx).1]
    exact hx
  have hwriter : c.pc.beforeWriter = true := beforeWriter_of_beforeTransport hbefore
  constructor
  case held =>
    intro d hd t ht
    rcases List.mem_or_eq_of_mem_set hd with hd | rfl
    · obtain ⟨x, hx, hgeneration⟩ := h.held d hd t ht
      exact ⟨x, hkeep hx, hgeneration⟩
    · cases ht
      exact ⟨new, List.getElem?_concat_length, rfl⟩
  case known =>
    intro t x hx hopen
    rcases Nat.lt_trichotomy t s.transports.length with hlt | rfl | hgt
    · have hold : s.transports[t]? = some x := (List.getElem?_append_left hlt).symm.trans hx
      refine (h.known t x hold hopen).imp_right ?_
      rintro ⟨d, hd, hopening⟩
      rcases eq_or_mem_set hc hd with rfl | hd
      · -- the transport the call was waiting for is closed
        rw [hclosed t x hopening hold] at hopen
        cases hopen
      · exact ⟨d, hd, hopening⟩
    · exact .inr ⟨c', mem_set_self hc, rfl⟩
    · rw [List.getElem?_eq_none (by rw [List.length_append, List.length_singleton]; omega)] at hx
      cases hx
  case current =>
    intro t ht
    obtain ⟨x, hx, hcurrent⟩ := h.current t ht
    have hsame : (s.setCall i c').awaits beforeTransport =
        s.awaits beforeTransport := awaits_setCall hc rfl fun _ => hbefore.symm
    rw [← hsame] at hcurrent
    exact ⟨x, hkeep hx, hcurrent⟩
  case writer =>
    intro t ht
    have hsame : (s.setCall i c').awaits beforeWriter =
        s.awaits beforeWriter := awaits_setCall hc rfl fun _ => hwriter.symm
    refine (h.writer t ht).imp hsame.trans ?_
    rintro ⟨x, hx, hgeneration⟩
    exact ⟨x, hkeep hx, hgeneration⟩
  case path =>
    refine h.path.trans ?_
    cases ht : s.transport with
    | none =>
      show none = s.transport.bind _
      rw [ht, Option.bind_none]
    | some t =>
      obtain ⟨x, hx, -⟩ := h.current t ht
      simp only [ConnectClient.setCall, ht, Option.bind_some, pathOf]
      rw [hx, hkeep hx]
  case unique => exact h.unique_setCall hc rfl
  case bounded => exact h.bounded_setCall hc rfl

/-- The call of the latest generation makes its transport the current one. -/
theorem install (hpc : c.pc = .opened t) (hlatest : c.generation = s.generation)
    (hnone : s.transport = none) :
    ConnectInv { s.setCall i { c with pc := .streaming t } with
      transport := some t
      connectionPath := s.pathOf t } := by
  let c' : ConnectCall := { c with pc := .streaming t }
  obtain ⟨x, hx, hgeneration⟩ := h.held c (List.mem_of_getElem? hc) t (by rw [hpc]; rfl)
  constructor
  case held =>
    intro d hd t' ht'
    rcases List.mem_or_eq_of_mem_set hd with hd | rfl
    · exact h.held d hd t' ht'
    · cases ht'
      exact ⟨x, hx, hgeneration⟩
  case known =>
    intro t' x' hx' hopen
    rcases h.known t' x' hx' hopen with hcurrent | ⟨d, hd, hopening⟩
    · rw [hnone] at hcurrent
      cases hcurrent
    · rcases eq_or_mem_set hc hd with rfl | hd
      · rw [hpc] at hopening
        exact .inl hopening
      · exact .inr ⟨d, hd, hopening⟩
  case current =>
    intro t' ht'
    cases ht'
    have hc' : (s.setCall i c').calls[i]? = some c' :=
      List.getElem?_set_self (List.getElem?_eq_some_iff.mp hc).1
    have hdone : (s.setCall i c').awaits beforeTransport = false :=
      awaits_eq_of_latest (s := s.setCall i c') (h.unique_setCall hc rfl) hc' hlatest
    refine ⟨x, hx, ?_⟩
    show if (s.setCall i c').awaits beforeTransport = true then _ else _
    rw [hdone]
    exact hgeneration.trans hlatest
  case writer =>
    intro t' ht'
    have hsame : (s.setCall i c').awaits beforeWriter =
        s.awaits beforeWriter := awaits_setCall hc rfl fun _ => by rw [hpc]; rfl
    exact (h.writer t' ht').imp_left hsame.trans
  case path => rfl
  case unique => exact h.unique_setCall hc rfl
  case bounded => exact h.bounded_setCall hc rfl

end

/-- A superseded call makes its closed transport the current one. -/
theorem overwrite (hnone : s.transport = none) (hx : s.transports[t]? = some x) (hclosed : x.closed = true)
    (hawaits : s.awaits beforeTransport = true) :
    ConnectInv { s with transport := some t, connectionPath := s.pathOf t } where
  held := h.held
  known t' x' hx' hopen := by
    right
    rcases h.known t' x' hx' hopen with hcurrent | hcall
    · rw [hnone] at hcurrent
      cases hcurrent
    · exact hcall
  current t' ht' := by
    cases ht'
    refine ⟨x, hx, ?_⟩
    show if s.awaits beforeTransport = true then _ else _
    rw [if_pos hawaits]
    exact hclosed
  writer := h.writer
  path := rfl
  unique := h.unique
  bounded := h.bounded

theorem newGeneration (htransport : s.transport = none) (hwriter : s.controlWriter = none) :
    ConnectInv { s with generation := s.generation + 1 } where
  held := h.held
  known := h.known
  current t ht := by rw [htransport] at ht; cases ht
  writer t ht := by rw [hwriter] at ht; cases ht
  path := h.path
  unique := h.unique
  bounded c hc := Nat.le_succ_of_le (h.bounded c hc)

theorem newCall (htransport : s.transport = none) (hwriter : s.controlWriter = none) :
    ConnectInv { s with
      generation := s.generation + 1
      calls := s.calls ++ [{ generation := s.generation + 1 }] } where
  held c hc t ht := by
    rcases List.mem_append.mp hc with hc | hc
    · exact h.held c hc t ht
    · cases List.mem_singleton.mp hc
      cases ht
  known t x hx hopen := by
    refine (h.known t x hx hopen).imp_right ?_
    rintro ⟨c, hc, hopening⟩
    exact ⟨c, List.mem_append_left _ hc, hopening⟩
  current t ht := by rw [htransport] at ht; cases ht
  writer t ht := by rw [hwriter] at ht; cases ht
  path := h.path
  unique := by
    rw [List.map_append]
    refine h.unique.append (List.nodup_singleton _) fun g hg hg' => ?_
    obtain ⟨c, hc, rfl⟩ := List.mem_map.mp hg
    have hbound := h.bounded c hc
    have hnew : c.generation = s.generation + 1 := List.mem_singleton.mp hg'
    omega
  bounded c hc := by
    rcases List.mem_append.mp hc with hc | hc
    · exact Nat.le_succ_of_le (h.bounded c hc)
    · cases List.mem_singleton.mp hc
      exact Nat.le_refl _

end ConnectInv

end Parts

/-! ## Steps -/

section Steps

variable {s s' : ConnectClient} {e : ConnectEvent} {i t : Nat} {c : ConnectCall}

section

variable (h : ConnectInv s)

include h

theorem ConnectInv.tryNext {candidates : List OpenCandidate} (hc : s.calls[i]? = some c)
    (hbefore : c.pc.beforeTransport = true)
    (hclosed : ∀ t x, c.pc.opening = some t → s.transports[t]? = some x → x.closed = true) :
    ConnectInv (s.tryNext i c.generation candidates) := by
  induction candidates with
  | nil =>
    refine h.setCall hc rfl nofun (fun t x ht hx hopen => ?_) (fun _ => .inr hbefore.symm)
      fun _ => .inr (beforeWriter_of_beforeTransport hbefore).symm
    rw [hclosed t x ht hx] at hopen
    cases hopen
  | cons candidate rest ih =>
    unfold ConnectClient.tryNext
    split
    · exact h.openTransport hc hbefore hclosed candidate.path
    · exact ih

theorem ConnectInv.scheduleReconnect : ConnectInv s.scheduleReconnect := by
  unfold ConnectClient.scheduleReconnect
  split
  · exact h
  · exact h.flags _ _ _

namespace ConnectInv

variable (hc : s.calls[i]? = some c)

include hc

/-- The `catch` block. The call holds no transport that is still open: if it is superseded, that
one is closed; otherwise it is the current one, which `closeCurrent` closes. -/
theorem fail (hopening : c.pc.opening = none) : ConnectInv (s.fail i c.generation) := by
  unfold ConnectClient.fail
  split
  next hstale =>
    exact h.setStale hc hstale fun t x ht => by rw [hopening] at ht; cases ht
  · have hclosed := h.closeCurrent.scheduleReconnect
    refine hclosed.setCall (c := c) ?_ rfl nofun (fun t x ht => by rw [hopening] at ht; cases ht)
      (fun _ => .inl ?_) fun _ => .inl ?_
    all_goals
      unfold ConnectClient.scheduleReconnect
      split
    all_goals first | exact hc | rfl

/-- After `connectFirst`. A superseded call may overwrite the transport that the latest call is
about to replace; the latest call replaces it. -/
theorem resume (hpc : c.pc = .opened t)
    (hok : c.generation = s.generation ∨ s.awaits beforeTransport = true) :
    ConnectInv (s.resume i c.generation t) := by
  have hbefore : s.awaits beforeTransport = true := by
    rcases hok with hlatest | hawaits
    · rw [awaits_eq_of_latest h.unique hc hlatest, hpc]
      rfl
    · exact hawaits
  -- the transport that is overwritten is closed
  have hforgot : ConnectInv { s with transport := none, connectionPath := none } := by
    refine h.forgetTransport fun t' x' ht' hx' => ?_
    obtain ⟨y, hy, hclosed⟩ := h.current t' ht'
    cases Option.some.inj (hx'.symm.trans hy)
    rw [if_pos hbefore] at hclosed
    exact hclosed
  simp only [ConnectClient.resume]
  split
  next hstale =>
    obtain ⟨x, hx, -⟩ := h.held c (List.mem_of_getElem? hc) t (by rw [hpc]; rfl)
    let shut : ConnectClient :=
      { s with transport := none, connectionPath := none }.closeTransport t
    have hx' : shut.transports[t]? = some { x with closed := true } := by
      rw [getElem?_closeTransport, hx, Option.map_some, if_pos rfl]
    have hover := (hforgot.closeTransport t).overwrite rfl hx' rfl hbefore
    rw [pathOf_closeTransport] at hover
    refine hover.setStale hc hstale fun t' y ht' hy => ?_
    rw [hpc] at ht'
    cases ht'
    cases Option.some.inj (hx'.symm.trans hy)
    rfl
  next hlatest =>
    exact hforgot.install hc hpc (Classical.not_not.mp hlatest) rfl

theorem streamed (hpc : c.pc = .streaming t)
    (hok : c.generation = s.generation ∨ s.awaits beforeWriter = true) :
    ConnectInv (s.streamed i c.generation t) := by
  have hopening : ∀ t x, c.pc.opening = some t → s.transports[t]? = some x → x.closed = true := by
    intro t x ht
    rw [hpc] at ht
    cases ht
  by_cases hlatest : c.generation = s.generation
  · have hreturned : ConnectInv ({ s with controlWriter := none }.setCall i
        { c with pc := .returned }) := by
      refine h.forgetWriter.setCall hc rfl nofun (fun t x ht => ?_) (fun _ => .inr ?_) fun _ => .inl rfl
      · rw [hpc] at ht
        cases ht
      · rw [hpc]
        rfl
    obtain ⟨x, hx, hgeneration⟩ := h.held c (List.mem_of_getElem? hc) t (by rw [hpc]; rfl)
    have hwritten := hreturned.setWriter (.inr ⟨x, hx, hgeneration.trans hlatest⟩)
    exact hwritten.flags _ _ _
  · have hawaits := hok.resolve_left hlatest
    have hwritten := (h.setWriter (t := t) (.inl hawaits)).setStale hc hlatest hopening
    exact hwritten.flags _ _ _

end ConnectInv

theorem ConnectInv.connect : ConnectInv s.connect :=
  ((h.flags false false s.handlers).closeCurrent).newCall rfl rfl

theorem ConnectInv.disconnect : ConnectInv s.disconnect :=
  ((h.flags true false s.handlers).closeCurrent).newGeneration rfl rfl

theorem ConnectInv.handleClosed (t generation : Nat) : ConnectInv (s.handleClosed t generation) := by
  unfold ConnectClient.handleClosed
  split
  · exact h
  · exact h.closeCurrent.scheduleReconnect

theorem connectInv_step (hok : ResumesInTime s e) (hstep : s.step e = some s') : ConnectInv s' := by
  cases e with
  | connect =>
    cases hstep
    exact h.connect
  | disconnect =>
    cases hstep
    exact h.disconnect
  | timer =>
    simp only [step] at hstep
    split at hstep <;> cases hstep
    exact h.connect
  | fetched i ok =>
    simp only [step] at hstep
    split at hstep <;> cases hstep
    rename_i generation hc
    cases ok with
    | true => exact h.setCall hc rfl nofun nofun (fun _ => .inr rfl) fun _ => .inr rfl
    | false => exact h.fail hc rfl
  | json i candidates =>
    simp only [step] at hstep
    split at hstep
    next generation hc =>
      split at hstep <;> cases hstep
      · exact h.tryNext hc rfl nofun
      · exact h.fail hc rfl
    · cases hstep
  | tried i ok =>
    simp only [step] at hstep
    split at hstep <;> cases hstep
    rename_i generation t rest hc
    cases ok with
    | true =>
      have hheld := h.held _ (List.mem_of_getElem? hc) t rfl
      refine h.setCall hc rfl (fun t' ht' => ?_) (fun _ _ ht _ _ => .inr ht) (fun _ => .inr rfl)
        fun _ => .inr rfl
      cases ht'
      exact hheld
    | false =>
      refine (h.closeTransport t).tryNext hc rfl fun t' x ht' hx => ?_
      cases ht'
      rw [getElem?_closeTransport] at hx
      obtain ⟨y, -, rfl⟩ := Option.map_eq_some_iff.mp hx
      rw [if_pos rfl]
  | resume i =>
    simp only [step] at hstep
    split at hstep <;> cases hstep
    rename_i generation t hc
    exact h.resume hc rfl (hok _ hc)
  | giveUp i =>
    simp only [step] at hstep
    split at hstep <;> cases hstep
    rename_i generation hc
    exact h.fail hc rfl
  | streamed i ok =>
    simp only [step] at hstep
    split at hstep <;> cases hstep
    rename_i generation t hc
    cases ok with
    | true => exact h.streamed hc rfl (hok _ hc)
    | false => exact h.fail hc rfl
  | closed t =>
    cases hstep
    exact h.closeTransport t
  | notify k =>
    simp only [step] at hstep
    split at hstep
    · split at hstep <;> cases hstep
      rename_i t generation _ _
      exact (h.handleClosed t generation).flags _ _ _
    · cases hstep
  | ended =>
    cases hstep
    exact (h.flags true s.reconnectTimer s.handlers).closeCurrent
  | rejected =>
    cases hstep
    exact h.flags true s.reconnectTimer s.handlers

end

end Steps

/-! ## The latest generation -/

theorem ConnectInv.fromLatest {s : ConnectClient} (h : ConnectInv s) : FromLatest s := by
  intro hreturned
  -- no call is suspended, so nothing is awaited
  have hquiet : ∀ f : ConnectPc → Bool, f .returned = false → s.awaits f = false := by
    intro f hf
    refine List.any_eq_false.mpr fun c hc => ?_
    rw [hreturned c hc, hf, Bool.and_false]
    nofun
  have htransport : ∀ t ∈ s.transport, s.isLatest t = true := by
    intro t ht
    obtain ⟨x, hx, hgeneration⟩ := h.current t ht
    rw [hquiet _ rfl] at hgeneration
    rw [isLatest, hx]
    exact beq_iff_eq.mpr hgeneration
  refine ⟨htransport, h.path, fun t ht => ?_, fun x hx hold => ?_⟩
  · rcases h.writer t ht with hawaits | ⟨x, hx, hgeneration⟩
    · rw [hquiet _ rfl] at hawaits
      cases hawaits
    · rw [isLatest, hx]
      exact beq_iff_eq.mpr hgeneration
  · by_contra hopen
    obtain ⟨t, ht⟩ := List.mem_iff_getElem?.mp hx
    rcases h.known t x ht (Bool.eq_false_iff.mpr hopen) with hcurrent | ⟨c, hc, hopening⟩
    · have hlatest := htransport t hcurrent
      rw [isLatest, ht] at hlatest
      exact hold (beq_iff_eq.mp hlatest)
    · rw [hreturned c hc] at hopening
      cases hopening

/-- In every run in which superseded calls write only what the latest call has yet to write, the
fields of an idle client stem from the latest generation, and every other transport is closed. -/
theorem from_latest_generation (es : List ConnectEvent)
    (hok : Lts.Along ConnectClient.step ResumesInTime {} es) :
    Lts.Throughout ConnectClient.step FromLatest {} es := by
  have hinit : ConnectInv {} := ⟨nofun, nofun, nofun, nofun, rfl, List.nodup_nil, nofun⟩
  have hinv : Lts.Throughout step ConnectInv {} es :=
    Lts.throughout_of_along (fun _ _ _ => connectInv_step) hinit hok
  exact hinv.mono fun _ h => h.fromLatest

/-- A second call supersedes the first while its direct candidate is tried; the first one resumes
while the second still waits for the response. -/
def supersededRun : List ConnectEvent :=
  [.connect, .fetched 0 true, .json 0 (some [{ path := .direct }, { path := .relay }]),
    .tried 0 false, .connect, .tried 0 true, .resume 0, .fetched 1 true,
    .json 1 (some [{ path := .relay }]), .tried 1 true, .resume 1, .streamed 1 true, .closed 2,
    .notify 0, .timer, .disconnect, .fetched 2 true, .json 2 none]

theorem from_latest_generation_supersededRun :
    Lts.Along ConnectClient.step ResumesInTime {} supersededRun ∧
      Lts.Throughout ConnectClient.step FromLatest {} supersededRun := by
  have hok : Lts.Along step ResumesInTime {} supersededRun := by decide +kernel
  exact ⟨hok, from_latest_generation supersededRun hok⟩

/-- The superseded call resumes after the latest one has connected. -/
theorem superseded_call_overwrites :
    ¬ ∀ es : List ConnectEvent, Lts.Throughout ConnectClient.step FromLatest {} es := by
  intro h
  have hrun := h [.connect, .fetched 0 true, .json 0 (some [{ path := .direct }]), .connect,
    .fetched 1 true, .json 1 (some [{ path := .relay }]), .tried 1 true, .resume 1,
    .streamed 1 true, .tried 0 true, .resume 0]
  exact absurd hrun (by decide +kernel)

end Rustcast.Browser
