import Rustcast.Core.BinaryText
import Rustcast.Core.Ledger
import Rustcast.Core.Lts

/-!
# The audit forwarder of direct mode

`auditForwarder` of `audit_forward.go` with the queue table of `store.go`, the loop that posts
batches, restarts of the process, and the tables of the relay that the batches end up in. A
request that the forwarder has given up on may still reach the relay later.
-/

namespace Rustcast.Relay

/-! ## Events -/

/-- Go strings are any bytes. -/
abbrev GoString := List UInt8

/-- Instants are nanoseconds since the epoch. -/
def nanosPerSecond : Int := 1000000000

/-- The zero `time.Time`, January 1 of year 1. -/
def zeroTime : Int := -62135596800 * nanosPerSecond

structure ForwardedAuditEvent where
  eventID : GoString
  kind : GoString
  timestamp : GoString := []
  sessionID : GoString := []
  userSub : GoString := []
  userName : GoString := []
  clientIP : GoString := []
  osUser : GoString := []
  direction : GoString := []
  mime : GoString := []
  result : GoString := []
  size : Int := 0
  sha256 : GoString := []
  data : Option GoString := none
  /-- not part of the JSON text -/
  enqueuedAt : Int := zeroTime
  deriving DecidableEq

abbrev eventIDs (events : List ForwardedAuditEvent) : List GoString := events.map (·.eventID)

/-- The fields of `hostLogin` that are forwarded. -/
structure HostLogin where
  timestamp : GoString := []
  sessionID : GoString := []
  userSub : GoString := []
  userName : GoString := []
  clientIP : GoString := []
  osUser : GoString := []
  result : GoString := []
  deriving DecidableEq

/-- The fields of `auditEvent` that are forwarded. -/
structure AuditEvent where
  timestamp : GoString := []
  sessionID : GoString := []
  userSub : GoString := []
  userName : GoString := []
  clientIP : GoString := []
  osUser : GoString := []
  direction : GoString := []
  mime : GoString := []
  result : GoString := []
  data : List UInt8 := []
  deriving DecidableEq

/-- What the forwarder takes from the standard library. -/
structure AuditPlatform where
  /-- `sha256.Sum256` -/
  sha256 : List UInt8 → List UInt8
  length_sha256 : ∀ bytes, (sha256 bytes).length = 32
  /-- whether `time.Parse` accepts the text as RFC 3339 -/
  parsesTime : GoString → Bool
  /-- an instant in RFC 3339, in UTC -/
  formatTime : Int → GoString
  length_formatTime : ∀ instant, (formatTime instant).length ≤ 40

def auditForwardQueueLimit : Nat := 1000
def auditForwardBatchLimit : Nat := 50
def auditForwardBatchBytes : Nat := 6291456
def auditForwardContentLimit : Nat := 4194304

def kindLogin : GoString := textBytes "login"
def kindClipboard : GoString := textBytes "clipboard"

def auditTimestamp (p : AuditPlatform) (now : Int) (timestamp : GoString) : GoString :=
  if p.parsesTime timestamp then timestamp else p.formatTime now

def sha256Hex (p : AuditPlatform) (bytes : List UInt8) : GoString := hexEncode (p.sha256 bytes)

/-- The event of `enqueueLogin`; its id is written from 16 random bytes. -/
def loginEvent (p : AuditPlatform) (now : Int) (random : List UInt8) (ev : HostLogin) :
    ForwardedAuditEvent where
  eventID := hexEncode random
  kind := kindLogin
  timestamp := auditTimestamp p now ev.timestamp
  sessionID := ev.sessionID
  userSub := ev.userSub
  userName := ev.userName
  clientIP := ev.clientIP
  osUser := ev.osUser
  result := ev.result

/-- The event of `enqueueClipboard`. Large content is left out. -/
def clipboardEvent (p : AuditPlatform) (now : Int) (random : List UInt8) (ev : AuditEvent)
    (capture : Bool) : ForwardedAuditEvent where
  eventID := hexEncode random
  kind := kindClipboard
  timestamp := auditTimestamp p now ev.timestamp
  sessionID := ev.sessionID
  userSub := ev.userSub
  userName := ev.userName
  clientIP := ev.clientIP
  osUser := ev.osUser
  direction := ev.direction
  mime := ev.mime
  result := ev.result
  size := ev.data.length
  sha256 := sha256Hex p ev.data
  data :=
    -- content above the limit is logged and not sent
    if capture && decide (auditForwardContentLimit < ev.data.length) then none
    else if capture then some (base64Encode ev.data)
    else none

/-! ## The forwarder -/

/-- The JSON encoder and decoder. The decoder is only said to keep the two kinds. -/
structure AuditCodec where
  marshal : ForwardedAuditEvent → List UInt8
  unmarshal : List UInt8 → Option ForwardedAuditEvent
  /-- the length of the encoded batch, if it can be encoded -/
  batchLength : List ForwardedAuditEvent → Option Nat
  unmarshal_kind : ∀ e e', unmarshal (marshal e) = some e' →
    e.kind = kindLogin ∨ e.kind = kindClipboard → e'.kind = e.kind

/-- A row of `audit_forward_queue`, `createdAt` in seconds. -/
structure QueueRow where
  eventID : GoString
  payload : List UInt8
  createdAt : Int
  deriving DecidableEq

/-- What has become of the request that the loop waits for. -/
inductive PostAnswer where
  | sent
  /-- the relay has committed the batch -/
  | committed
  /-- the relay has answered that it will never take the batch -/
  | rejected
  deriving DecidableEq

inductive ForwardLoop where
  /-- before `nextBatch` -/
  | idle
  | posting (batch : List ForwardedAuditEvent) (answer : PostAnswer)
  deriving DecidableEq

def ForwardLoop.inflight : ForwardLoop → List ForwardedAuditEvent
  | .idle => []
  | .posting batch _ => batch

structure AuditForwarder where
  clock : Int := 0
  queue : List ForwardedAuditEvent := []
  inflightSize : Nat := 0
  loop : ForwardLoop := .idle
  /-- `audit_forward_queue`, in the order of `seq` -/
  rows : List QueueRow := []
  /-- the metric, over all restarts -/
  dropped : Nat := 0
  /-- `host_logins` and `clipboard_events` of the relay -/
  hostLogins : List ForwardedAuditEvent := []
  clipboardEvents : List ForwardedAuditEvent := []
  /-- requests on their way that the forwarder does not wait for any more -/
  strays : List (List ForwardedAuditEvent) := []
  /-- history: everything that was ever queued, and the ids that were counted as dropped -/
  enqueued : List ForwardedAuditEvent := []
  droppedIDs : List GoString := []
  deriving DecidableEq

inductive ForwardEvent where
  | tick (d : Nat)
  | enqueueLogin (random : List UInt8) (ev : HostLogin)
  | enqueueClipboard (random : List UInt8) (ev : AuditEvent) (capture : Bool)
  /-- the loop calls `nextBatch` and posts the batch -/
  | nextBatch
  | commit
  | reject
  /-- the loop gets the answer, or gives up on it -/
  | succeed
  | fail
  | discard
  /-- the relay commits a request that nobody waits for -/
  | straggle (k : Nat)
  | restart
  deriving DecidableEq

section Queue

variable (c : AuditCodec)

/-- The loop of `nextBatch` that takes events from the front of the queue. -/
def fillBatch (batch : List ForwardedAuditEvent) :
    List ForwardedAuditEvent → List ForwardedAuditEvent
  | [] => batch
  | event :: rest =>
    -- one event is taken whatever its size, so that the queue moves on
    if batch.length = auditForwardBatchLimit then batch
    else
      match c.batchLength (batch ++ [event]) with
      | none => batch
      | some n =>
        if 0 < batch.length ∧ auditForwardBatchBytes < n then batch
        else fillBatch (batch ++ [event]) rest

/-- A row as an event, unless it has expired or does not hold the event of its id. -/
def loadRow (retention now : Int) (row : QueueRow) : Option ForwardedAuditEvent :=
  let enqueuedAt := row.createdAt * nanosPerSecond
  -- `created_at` is in whole seconds
  if 0 < retention ∧ enqueuedAt < now - retention then none
  else
    match c.unmarshal row.payload with
    | none => none
    | some event => if event.eventID = row.eventID then some { event with enqueuedAt } else none

/-- `loadAuditForwardQueue`: the events and the ids that it drops. -/
def loadAuditForwardQueue (limit : Nat) (retention now : Int) (rows : List QueueRow) :
    List ForwardedAuditEvent × List GoString :=
  let limit := if limit = 0 then auditForwardQueueLimit else limit
  let bad := rows.filter fun row => (loadRow c retention now row).isNone
  let entries := rows.filterMap (loadRow c retention now)
  -- the oldest entries go when there are too many
  let excess := entries.length - limit
  (entries.drop excess, bad.map (·.eventID) ++ eventIDs (entries.take excess))

end Queue

/-- `ON CONFLICT(event_id) DO NOTHING`, where an empty id is NULL and has no conflicts. -/
def insertRow (table : List ForwardedAuditEvent) (e : ForwardedAuditEvent) : List ForwardedAuditEvent :=
  if e.eventID ≠ [] ∧ e.eventID ∈ eventIDs table then table else table ++ [e]

namespace AuditForwarder

def deleteAuditForwardEvents (s : AuditForwarder) (ids : List GoString) : AuditForwarder :=
  { s with rows := s.rows.filter fun row => row.eventID ∉ ids }

variable (s : AuditForwarder)

/-- Events that are given up: their rows are deleted and they are counted. -/
def dropEvents (ids : List GoString) : AuditForwarder :=
  { s.deleteAuditForwardEvents ids with
    dropped := s.dropped + ids.length
    droppedIDs := s.droppedIDs ++ ids }

def persistAuditForwardEvent (c : AuditCodec) (s : AuditForwarder) (e : ForwardedAuditEvent) :
    AuditForwarder :=
  { s with rows := s.rows ++
      [{ eventID := e.eventID, payload := c.marshal e, createdAt := s.clock / nanosPerSecond }] }

/-- Without room in the queue the oldest event is dropped. -/
def makeRoom (s : AuditForwarder) : AuditForwarder :=
  if auditForwardQueueLimit ≤ s.queue.length + s.inflightSize then
    match s.queue with
    | [] => s
    | oldest :: queue => { s with queue }.dropEvents [oldest.eventID]
  else s

variable (c : AuditCodec)

/-- `enqueue` of an event that has its time already. -/
def push (s : AuditForwarder) (e : ForwardedAuditEvent) : AuditForwarder :=
  -- the row is written before there is room in the queue
  let s := (s.persistAuditForwardEvent c e).makeRoom
  { s with queue := s.queue ++ [e], enqueued := s.enqueued ++ [e] }

def enqueue (s : AuditForwarder) (e : ForwardedAuditEvent) : AuditForwarder :=
  s.push c { e with enqueuedAt := s.clock }

def expired (s : AuditForwarder) (retention : Int) (e : ForwardedAuditEvent) : Bool :=
  e.enqueuedAt != zeroTime && decide (e.enqueuedAt < s.clock - retention)

/-- The first part of `nextBatch`. -/
def expireQueue (retention : Int) : AuditForwarder :=
  if 0 < retention then
    let gone := s.queue.filter (s.expired retention)
    { s with queue := s.queue.filter fun e => !s.expired retention e }.dropEvents
      (eventIDs gone)
  else s

/-- The second part of `nextBatch`, and the request with the batch. -/
def takeBatch (s : AuditForwarder) : AuditForwarder :=
  if s.queue = [] then s
  else
    let batch := fillBatch c [] s.queue
    { s with
      queue := s.queue.drop batch.length
      inflightSize := batch.length
      loop := if batch = [] then .idle else .posting batch .sent }

def completeBatch (s : AuditForwarder) (batch : List ForwardedAuditEvent) : AuditForwarder :=
  { s with inflightSize := s.inflightSize - batch.length, loop := .idle }.deleteAuditForwardEvents
    (eventIDs batch)

variable (batch : List ForwardedAuditEvent)

/-- A batch that the relay will never take. -/
def discardBatch : AuditForwarder :=
  { s.completeBatch batch with
    dropped := s.dropped + batch.length
    droppedIDs := s.droppedIDs ++ eventIDs batch }

def retryBatch : AuditForwarder :=
  { s with
    queue := batch ++ s.queue
    inflightSize := s.inflightSize - batch.length
    loop := .idle }

/-- The request is still on its way when the forwarder turns away from it. -/
def strayOf : ForwardLoop → List (List ForwardedAuditEvent)
  | .posting batch .sent => [batch]
  | .idle | .posting _ .committed | .posting _ .rejected => []

/-- `insertForwardedAudit`, one transaction. -/
def insertForwardedAudit :
    AuditForwarder :=
  { s with
    hostLogins := (batch.filter (·.kind == kindLogin)).foldl insertRow s.hostLogins
    clipboardEvents := (batch.filter (·.kind == kindClipboard)).foldl insertRow s.clipboardEvents }

/-- The process starts anew, with the rows only. -/
def restart (retention : Int) (s : AuditForwarder) : AuditForwarder :=
  let (queue, gone) := loadAuditForwardQueue c auditForwardQueueLimit retention s.clock s.rows
  { s with queue, inflightSize := 0, loop := .idle, strays := s.strays ++ strayOf s.loop }.dropEvents
    gone

/-- The relay knows the kinds of all events of a batch. -/
def knownKinds : Bool :=
  batch.all fun e => e.kind == kindLogin || e.kind == kindClipboard

/-- The id of a new event, which no other event has. -/
def isNewID (random : List UInt8) : Prop :=
  random.length = 16 ∧ hexEncode random ∉ eventIDs s.enqueued

instance (s : AuditForwarder) (random : List UInt8) : Decidable (s.isNewID random) :=
  inferInstanceAs (Decidable (_ ∧ _))

def step (p : AuditPlatform) (retention : Int) (s : AuditForwarder) :
    ForwardEvent → Option AuditForwarder
  | .tick d => some { s with clock := s.clock + d }
  | .enqueueLogin random ev =>
    -- `newAuditEventID` draws 128 random bits: no id comes twice
    if s.isNewID random then some (s.enqueue c (loginEvent p s.clock random ev)) else none
  | .enqueueClipboard random ev capture =>
    if s.isNewID random then some (s.enqueue c (clipboardEvent p s.clock random ev capture))
    else none
  | .nextBatch =>
    match s.loop with
    | .idle => some ((s.expireQueue retention).takeBatch c)
    | .posting .. => none
  | .commit =>
    match s.loop with
    | .posting batch .sent =>
      -- a transaction: all rows or none
      if knownKinds batch then
        some { s.insertForwardedAudit batch with loop := .posting batch .committed }
      else none
    | _ => none
  | .reject =>
    match s.loop with
    | .posting batch .sent => some { s with loop := .posting batch .rejected }
    | _ => none
  | .succeed =>
    match s.loop with
    | .posting batch .committed => some (s.completeBatch batch)
    | _ => none
  | .fail =>
    match s.loop with
    -- also after a commit, when the answer gets lost
    | .posting batch _ => some { s.retryBatch batch with strays := s.strays ++ strayOf s.loop }
    | .idle => none
  | .discard =>
    match s.loop with
    | .posting batch .rejected => some (s.discardBatch batch)
    | _ => none
  | .straggle k =>
    match s.strays[k]? with
    | some batch =>
      if knownKinds batch then
        some { s.insertForwardedAudit batch with strays := s.strays.eraseIdx k }
      else none
    | none => none
  | .restart => some (s.restart c retention)

/-! ## The statement -/

/-- The ids in flight and queued. -/
def pending : List GoString :=
  eventIDs (s.loop.inflight ++ s.queue)

/-- The ids in the tables of the relay. -/
def relayed : List GoString :=
  eventIDs (s.hostLogins ++ s.clipboardEvents)

end AuditForwarder

/-- Between steps: the queue is bounded, the rows are the pending events, which are in the order
in which they were queued, and every event is in the tables of the relay, and once only, or pending
or counted. -/
structure ExactlyOnce (s : AuditForwarder) : Prop where
  bounded : s.queue.length + s.loop.inflight.length ≤ auditForwardQueueLimit
  persisted : s.rows.map (·.eventID) = s.pending
  ordered : s.pending.Sublist (eventIDs s.enqueued)
  accounted : ∀ e ∈ s.enqueued, e.eventID ∈ s.relayed ∨ e.eventID ∈ s.pending ∨ e.eventID ∈ s.droppedIDs
  once : s.relayed.Nodup
  counted : s.droppedIDs.Nodup ∧ s.dropped = s.droppedIDs.length

/-! ## Batches -/

variable {retention : Int} {x : ForwardedAuditEvent} {answer : PostAnswer}

section Batches

variable {c : AuditCodec} {batch queue : List ForwardedAuditEvent}

/-- A batch of more than one event is not larger than the limit. -/
def FitsBatch (c : AuditCodec) (batch : List ForwardedAuditEvent) : Prop :=
  batch.length ≤ 1 ∨ ∃ n, c.batchLength batch = some n ∧ n ≤ auditForwardBatchBytes

/-- A batch is taken from the front of the queue. -/
theorem fillBatch_eq (c : AuditCodec) (batch queue : List ForwardedAuditEvent) :
    ∃ taken rest, queue = taken ++ rest ∧ fillBatch c batch queue = batch ++ taken := by
  induction queue generalizing batch with
  | nil => exact ⟨[], [], rfl, (List.append_nil batch).symm⟩
  | cons event queue ih =>
    have hstop : ∃ taken rest, event :: queue = taken ++ rest ∧ batch = batch ++ taken :=
      ⟨[], event :: queue, rfl, (List.append_nil batch).symm⟩
    unfold fillBatch
    split
    · exact hstop
    · split
      · exact hstop
      · split
        · exact hstop
        · obtain ⟨taken, rest, hqueue, hbatch⟩ := ih (batch ++ [event])
          refine ⟨event :: taken, rest, congrArg (event :: ·) hqueue, ?_⟩
          rw [hbatch, List.append_assoc]
          rfl

theorem length_fillBatch_le (h : batch.length ≤ auditForwardBatchLimit) :
    (fillBatch c batch queue).length ≤ auditForwardBatchLimit := by
  induction queue generalizing batch with
  | nil => exact h
  | cons event queue ih =>
    unfold fillBatch
    split
    · exact h
    · split
      · exact h
      · split
        · exact h
        · refine ih ?_
          rw [List.length_append, List.length_singleton]
          omega

theorem fitsBatch_fillBatch (h : FitsBatch c batch) : FitsBatch c (fillBatch c batch queue) := by
  induction queue generalizing batch with
  | nil => exact h
  | cons event queue ih =>
    unfold fillBatch
    split
    · exact h
    · split
      · exact h
      next n hlength =>
        split
        · exact h
        next hfits =>
          refine ih ?_
          by_cases hempty : 0 < batch.length
          · exact .inr ⟨n, hlength, Nat.le_of_not_lt fun hlarge => hfits ⟨hempty, hlarge⟩⟩
          · left
            rw [List.length_append, List.length_singleton]
            omega

/-- A loaded event has the id of its row, and is what the payload says. -/
theorem loadRow_eq_some {now : Int} {row : QueueRow} {e : ForwardedAuditEvent}
    (h : loadRow c retention now row = some e) :
    e.eventID = row.eventID ∧ ∃ event, c.unmarshal row.payload = some event ∧
      e = { event with enqueuedAt := row.createdAt * nanosPerSecond } := by
  unfold loadRow at h
  simp only at h
  split at h
  · cases h
  · split at h
    · cases h
    next event hevent =>
      split at h <;> cases h
      rename_i hid
      exact ⟨hid, event, hevent, rfl⟩

end Batches

/-! ## The tables of the relay -/

section Tables

variable {table batch : List ForwardedAuditEvent} {e : ForwardedAuditEvent}

theorem mem_insertRow (hx : x ∈ insertRow table e) : x ∈ table ∨ x = e := by
  unfold insertRow at hx
  split at hx
  · exact .inl hx
  · exact (List.mem_append.mp hx).imp_right List.mem_singleton.mp

theorem subset_insertRow (hx : x ∈ table) : x ∈ insertRow table e := by
  unfold insertRow
  split
  · exact hx
  · exact List.mem_append_left _ hx

theorem eventID_mem_insertRow : e.eventID ∈ eventIDs (insertRow table e) := by
  unfold insertRow
  split
  next hmem =>
    exact hmem.2
  · exact List.mem_map_of_mem (List.mem_append_right _ List.mem_cons_self)

theorem nodup_insertRow (h : (eventIDs table).Nodup) (hid : e.eventID ≠ []) :
    (eventIDs (insertRow table e)).Nodup := by
  unfold insertRow
  split
  · exact h
  next hnew =>
    rw [eventIDs, List.map_append]
    refine h.append (List.nodup_singleton _) fun id hmem hmem' => ?_
    rw [List.mem_singleton.mp hmem'] at hmem
    exact hnew ⟨hid, hmem⟩

theorem mem_foldl_insertRow (hx : x ∈ batch.foldl insertRow table) : x ∈ table ∨ x ∈ batch := by
  induction batch generalizing table with
  | nil => exact .inl hx
  | cons e batch ih =>
    rcases ih hx with hx | hx
    · rcases mem_insertRow hx with hx | rfl
      · exact .inl hx
      · exact .inr List.mem_cons_self
    · exact .inr (List.mem_cons_of_mem _ hx)

theorem subset_foldl_insertRow (hx : x ∈ table) : x ∈ batch.foldl insertRow table := by
  induction batch generalizing table with
  | nil => exact hx
  | cons e batch ih => exact ih (subset_insertRow hx)

theorem eventID_mem_foldl_insertRow (he : e ∈ batch) :
    e.eventID ∈ eventIDs (batch.foldl insertRow table) := by
  induction batch generalizing table with
  | nil => cases he
  | cons first batch ih =>
    rcases List.mem_cons.mp he with rfl | he
    · have hmem : e.eventID ∈ eventIDs (insertRow table e) := eventID_mem_insertRow
      obtain ⟨x, hx, hid⟩ := List.mem_map.mp hmem
      have hkept : x ∈ batch.foldl insertRow (insertRow table e) := subset_foldl_insertRow hx
      exact List.mem_map.mpr ⟨x, hkept, hid⟩
    · exact ih he

theorem nodup_foldl_insertRow (h : (eventIDs table).Nodup) (hids : ∀ e ∈ batch, e.eventID ≠ []) :
    (eventIDs (batch.foldl insertRow table)).Nodup := by
  induction batch generalizing table with
  | nil => exact h
  | cons e batch ih =>
    exact ih (nodup_insertRow h (hids e List.mem_cons_self)) fun x hx =>
      hids x (List.mem_cons_of_mem _ hx)

end Tables

/-! ## The books

Every operation of the forwarder is a change that `Ledger` allows. -/

namespace AuditForwarder

/-- The forwarder in the terms of `Ledger`. -/
def ledger (s : AuditForwarder) : Ledger GoString where
  accepted := eventIDs s.enqueued
  pending := s.pending
  stored := s.rows.map (·.eventID)
  delivered := s.relayed
  dropped := s.droppedIDs

section Books

variable {c : AuditCodec} {s s' : AuditForwarder} {e : ForwardedAuditEvent}
  {batch : List ForwardedAuditEvent}

theorem map_eventID_filter (rows : List QueueRow) (ids : List GoString) :
    (rows.filter fun row => row.eventID ∉ ids).map (·.eventID) =
      (rows.map (·.eventID)).filter (· ∉ ids) := by
  rw [List.filter_map]
  rfl

theorem pending_idle (hloop : s.loop = .idle) : s.pending = eventIDs s.queue := by
  rw [pending, hloop]
  rfl

theorem pending_posting (hloop : s.loop = .posting batch answer) :
    s.pending = eventIDs batch ++ eventIDs s.queue := by
  rw [pending, hloop]
  exact List.map_append

theorem step_drop {ids : List GoString}
    (hrows : s'.rows = s.rows.filter fun row => row.eventID ∉ ids)
    (henqueued : s'.enqueued = s.enqueued) (hrelayed : s'.relayed = s.relayed)
    (hdropped : s'.droppedIDs = s.droppedIDs ++ ids) (hsub : s'.pending.Sublist s.pending)
    (hperm : (ids ++ s'.pending).Perm s.pending) : s.ledger.Step s'.ledger := by
  have hstep : s.ledger.Step { s.ledger with
      pending := s'.pending
      stored := s.ledger.stored.filter (· ∉ ids)
      dropped := s.ledger.dropped ++ ids } := .drop hsub hperm
  rw [ledger, ledger, hrows, henqueued, hrelayed, hdropped, map_eventID_filter]
  exact hstep

theorem step_acknowledge {ids : List GoString}
    (hrows : s'.rows = s.rows.filter fun row => row.eventID ∉ ids)
    (henqueued : s'.enqueued = s.enqueued) (hrelayed : s'.relayed = s.relayed)
    (hdropped : s'.droppedIDs = s.droppedIDs) (hsub : s'.pending.Sublist s.pending)
    (hperm : (ids ++ s'.pending).Perm s.pending) (hdelivered : ∀ id ∈ ids, id ∈ s.relayed) :
    s.ledger.Step s'.ledger := by
  have hstep : s.ledger.Step { s.ledger with
      pending := s'.pending
      stored := s.ledger.stored.filter (· ∉ ids) } := .acknowledge hsub hperm hdelivered
  rw [ledger, ledger, hrows, henqueued, hrelayed, hdropped, map_eventID_filter]
  exact hstep

/-- A change that moves pending events between the queue and the loop only. -/
theorem ledger_eq (hrows : s'.rows = s.rows) (henqueued : s'.enqueued = s.enqueued)
    (hrelayed : s'.relayed = s.relayed) (hdropped : s'.droppedIDs = s.droppedIDs)
    (hpending : s'.pending = s.pending) : s'.ledger = s.ledger := by
  rw [ledger, ledger, hrows, henqueued, hrelayed, hdropped, hpending]

/-- The new event is in the queue and in the store. -/
def accept (c : AuditCodec) (s : AuditForwarder) (e : ForwardedAuditEvent) : AuditForwarder :=
  { s.persistAuditForwardEvent c e with queue := s.queue ++ [e], enqueued := s.enqueued ++ [e] }

theorem makeRoom_cases (s : AuditForwarder) :
    (s.makeRoom = s ∧ (s.queue.length + s.inflightSize < auditForwardQueueLimit ∨ s.queue = [])) ∨
    ∃ oldest queue, s.queue = oldest :: queue ∧
      s.makeRoom = { s with queue }.dropEvents [oldest.eventID] := by
  unfold makeRoom
  split
  · split
    next hqueue =>
      exact .inl ⟨rfl, .inr hqueue⟩
    next oldest queue hqueue =>
      exact .inr ⟨oldest, queue, hqueue, rfl⟩
  · exact .inl ⟨rfl, .inl (Nat.lt_of_not_le ‹_›)⟩

/-- What `enqueue` does: the new event is accepted, and without room the oldest one is dropped. -/
theorem push_cases (c : AuditCodec) (s : AuditForwarder) (e : ForwardedAuditEvent) :
    (s.push c e = s.accept c e ∧
      (s.queue.length + s.inflightSize < auditForwardQueueLimit ∨ s.queue = [])) ∨
    ∃ oldest queue, s.queue = oldest :: queue ∧
      s.push c e = { s.accept c e with queue := queue ++ [e] }.dropEvents [oldest.eventID] := by
  rcases makeRoom_cases (s.persistAuditForwardEvent c e) with
    ⟨hroom, hspace⟩ | ⟨oldest, queue, hqueue, hroom⟩
  · exact .inl ⟨by rw [push, hroom]; rfl, hspace⟩
  · exact .inr ⟨oldest, queue, hqueue, by rw [push, hroom]; rfl⟩

theorem step_accept (hfresh : e.eventID ∉ eventIDs s.enqueued) : s.ledger.Step (s.accept c e).ledger := by
  have hledger : (s.accept c e).ledger = { s.ledger with
      accepted := s.ledger.accepted ++ [e.eventID]
      pending := s.ledger.pending ++ [e.eventID]
      stored := s.ledger.stored ++ [e.eventID] } := by
    simp [accept, ledger, pending, relayed, persistAuditForwardEvent]
  rw [hledger]
  exact .accept e.eventID hfresh

theorem books_push (hfresh : e.eventID ∉ eventIDs s.enqueued) :
    Ledger.Steps s.ledger (s.push c e).ledger := by
  rcases push_cases c s e with ⟨hpush, -⟩ | ⟨oldest, queue, hqueue, hpush⟩
  · rw [hpush]
    exact .single (step_accept hfresh)
  · rw [hpush]
    have hpending : (s.accept c e).pending =
        eventIDs s.loop.inflight ++ oldest.eventID :: eventIDs (queue ++ [e]) := by
      simp [accept, pending, persistAuditForwardEvent, hqueue]
    have hkept : pending ({ s.accept c e with queue := queue ++ [e] }.dropEvents [oldest.eventID]) =
        eventIDs s.loop.inflight ++ eventIDs (queue ++ [e]) := List.map_append
    have haccept : s.ledger.Step (s.accept c e).ledger := step_accept hfresh
    refine (Relation.ReflTransGen.single haccept).tail ?_
    refine step_drop rfl rfl rfl rfl ?_ ?_
    · rw [hpending, hkept]
      exact (List.Sublist.refl _).append (List.sublist_cons_self _ _)
    · rw [hpending, hkept, List.singleton_append]
      exact List.perm_middle.symm

/-- Expired events are dropped; the loop holds no batch then. -/
theorem books_expireQueue (hidle : s.loop = .idle) :
    Ledger.Steps s.ledger (s.expireQueue retention).ledger := by
  let gone := s.queue.filter (s.expired retention)
  let kept := s.queue.filter fun e => !s.expired retention e
  have hkept : pending ({ s with queue := kept }.dropEvents (eventIDs gone)) = eventIDs kept :=
    pending_idle hidle
  unfold expireQueue
  split
  · refine .single (step_drop rfl rfl rfl rfl ?_ ?_)
    · rw [pending_idle hidle]
      exact hkept ▸ List.filter_sublist.map _
    · rw [pending_idle hidle]
      refine .trans (.of_eq (congrArg (eventIDs gone ++ ·) hkept)) ?_
      rw [← List.map_append]
      exact (List.filter_append_perm _ _).map _
  · exact .refl

theorem ledger_takeBatch (hidle : s.loop = .idle) : (s.takeBatch c).ledger = s.ledger := by
  obtain ⟨taken, rest, hqueue, hbatch⟩ := fillBatch_eq c [] s.queue
  rw [List.nil_append] at hbatch
  unfold takeBatch
  split
  · rfl
  · refine ledger_eq rfl rfl rfl rfl ?_
    have hdrop : s.queue.drop taken.length = rest := by rw [hqueue, List.drop_left]
    rw [pending_idle hidle, hbatch]
    simp only [hdrop]
    split
    next hnil =>
      rw [hqueue, hnil]
      rfl
    · rw [hqueue]
      rfl

section

variable (hloop : s.loop = .posting batch answer)

include hloop

/-- The loop is through with a batch that the relay has. -/
theorem books_completeBatch (hrelayed : ∀ e ∈ batch, e.eventID ∈ s.relayed) :
    Ledger.Steps s.ledger (s.completeBatch batch).ledger := by
  have hkept : (s.completeBatch batch).pending = eventIDs s.queue := pending_idle rfl
  refine .single (step_acknowledge rfl rfl rfl rfl ?_ ?_ ?_)
  · rw [pending_posting hloop]
    exact List.sublist_append_right _ _
  · rw [pending_posting hloop, hkept]
  · intro id hid
    obtain ⟨e, he, rfl⟩ := List.mem_map.mp hid
    exact hrelayed e he

theorem books_discardBatch : Ledger.Steps s.ledger (s.discardBatch batch).ledger := by
  have hkept : (s.discardBatch batch).pending = eventIDs s.queue := pending_idle rfl
  refine .single (step_drop rfl rfl rfl rfl ?_ ?_)
  · rw [pending_posting hloop]
    exact List.sublist_append_right _ _
  · rw [pending_posting hloop, hkept]

theorem ledger_retryBatch : (s.retryBatch batch).ledger = s.ledger := by
  refine ledger_eq rfl rfl rfl rfl ?_
  rw [pending_posting hloop]
  exact (pending_idle rfl).trans List.map_append

end

theorem books_insertForwardedAudit (hloop : s'.pending = s.pending) (hrows : s'.rows = s.rows)
    (henqueued : s'.enqueued = s.enqueued) (hdropped : s'.droppedIDs = s.droppedIDs)
    (hlogins : s'.hostLogins = (s.insertForwardedAudit batch).hostLogins)
    (hclips : s'.clipboardEvents = (s.insertForwardedAudit batch).clipboardEvents) :
    Ledger.Steps s.ledger s'.ledger := by
  have hmore : ∀ id ∈ s.ledger.delivered, id ∈ s'.relayed := by
    intro id hid
    obtain ⟨e, he, rfl⟩ := List.mem_map.mp hid
    refine List.mem_map_of_mem ?_
    rw [hlogins, hclips]
    rcases List.mem_append.mp he with he | he
    · exact List.mem_append_left _ (subset_foldl_insertRow he)
    · exact List.mem_append_right _ (subset_foldl_insertRow he)
  have hstep : s.ledger.Step { s.ledger with delivered := s'.relayed } := .deliver hmore
  refine .single ?_
  rw [ledger, ledger, hloop, hrows, henqueued, hdropped]
  exact hstep

theorem eventIDs_loadRow (retention now : Int) (rows : List QueueRow) :
    eventIDs (rows.filterMap (loadRow c retention now)) =
      (rows.filter fun row => !(loadRow c retention now row).isNone).map (·.eventID) := by
  induction rows with
  | nil => rfl
  | cons row rows ih =>
    cases hload : loadRow c retention now row with
    | none =>
      rw [List.filterMap_cons_none hload, List.filter_cons_of_neg (by rw [hload]; nofun)]
      exact ih
    | some event =>
      rw [List.filterMap_cons_some hload, List.filter_cons_of_pos (by rw [hload]; rfl)]
      rw [eventIDs, List.map_cons, List.map_cons, ← ih, (loadRow_eq_some hload).1]

/-- What is loaded: the last entries, within the limit. -/
theorem loadAuditForwardQueue_eq (c : AuditCodec) (retention now : Int) (rows : List QueueRow) :
    ∃ excess, loadAuditForwardQueue c auditForwardQueueLimit retention now rows =
        ((rows.filterMap (loadRow c retention now)).drop excess,
          (rows.filter fun row => (loadRow c retention now row).isNone).map (·.eventID) ++
            eventIDs ((rows.filterMap (loadRow c retention now)).take excess)) ∧
      ((rows.filterMap (loadRow c retention now)).drop excess).length ≤ auditForwardQueueLimit := by
  have hlimit : auditForwardQueueLimit ≠ 0 := by decide
  refine ⟨(rows.filterMap (loadRow c retention now)).length - auditForwardQueueLimit, ?_, ?_⟩
  · simp only [loadAuditForwardQueue, if_neg hlimit]
  · rw [List.length_drop]
    omega

/-- A restart keeps the rows that it can load, up to the limit, and drops the others. -/
theorem books_restart (hstored : s.rows.map (·.eventID) = s.pending) :
    Ledger.Steps s.ledger (s.restart c retention).ledger := by
  obtain ⟨excess, hload, -⟩ := loadAuditForwardQueue_eq c retention s.clock s.rows
  have hentries := eventIDs_loadRow (c := c) retention s.clock s.rows
  rw [restart, hload]
  generalize s.rows.filterMap (loadRow c retention s.clock) = entries at hentries ⊢
  refine .single (step_drop rfl rfl rfl rfl ?_ ?_)
  · rw [← hstored]
    refine ((List.drop_sublist _ _).map _).trans ?_
    show (eventIDs entries).Sublist _
    rw [hentries]
    exact List.filter_sublist.map _
  · have hsplit : eventIDs (entries.take excess) ++ eventIDs (entries.drop excess) =
        eventIDs entries := by rw [← List.map_append, List.take_append_drop]
    rw [pending_idle rfl, ← hstored]
    simp only [dropEvents, deleteAuditForwardEvents]
    rw [List.append_assoc, hsplit, hentries, ← List.map_append]
    exact (List.filter_append_perm _ _).map _

end Books

end AuditForwarder

end Rustcast.Relay
