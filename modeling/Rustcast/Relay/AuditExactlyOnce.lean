import Rustcast.Relay.AuditForward

/-!
# Exactly-once forwarding of audit events

The invariant of the forwarder of `AuditForward`: the books of `Ledger` are sound, the loop holds a
batch that `nextBatch` may build, every event that is held anywhere is a copy of a queued one, and
the tables of the relay hold each id once.
-/

namespace Rustcast.Relay

open AuditForwarder

/-! ## Where events come from -/

/-- An event is the one that was queued, or what was read back from its row. -/
def CopyOf (c : AuditCodec) (original e : ForwardedAuditEvent) : Prop :=
  e = original ∨ e.eventID = original.eventID ∧
    ∃ event enqueuedAt, c.unmarshal (c.marshal original) = some event ∧ e = { event with enqueuedAt }

theorem CopyOf.eventID {c : AuditCodec} {original e : ForwardedAuditEvent}
    (h : CopyOf c original e) : e.eventID = original.eventID := by
  rcases h with rfl | ⟨hid, -⟩
  · rfl
  · exact hid

/-- The two kinds that the forwarder queues. -/
def IsKnownKind (kind : GoString) : Prop := kind = kindLogin ∨ kind = kindClipboard

theorem CopyOf.kind {c : AuditCodec} {original e : ForwardedAuditEvent} (h : CopyOf c original e)
    (hkind : IsKnownKind original.kind) : e.kind = original.kind := by
  rcases h with rfl | ⟨-, event, enqueuedAt, hevent, rfl⟩
  · rfl
  · exact c.unmarshal_kind original event hevent hkind

namespace AuditForwarder

/-- All events that the forwarder, the network and the relay hold. -/
def held (s : AuditForwarder) : List ForwardedAuditEvent :=
  s.loop.inflight ++ s.queue ++ s.strays.flatten ++ (s.hostLogins ++ s.clipboardEvents)

end AuditForwarder

/-- Where the events in the queue, on their way and at the relay come from. -/
structure Sourced (c : AuditCodec) (s : AuditForwarder) : Prop where
  copies : ∀ e ∈ s.held, ∃ original ∈ s.enqueued, CopyOf c original e
  rows : ∀ row ∈ s.rows, ∃ original ∈ s.enqueued,
    row.eventID = original.eventID ∧ row.payload = c.marshal original
  kinds : ∀ e ∈ s.enqueued, IsKnownKind e.kind
  ids : ∀ e ∈ s.enqueued, e.eventID ≠ []

variable {x : ForwardedAuditEvent}

section Sourced

open AuditForwarder

variable {c : AuditCodec} {s s' : AuditForwarder} {e : ForwardedAuditEvent}
  {batch : List ForwardedAuditEvent}

theorem Sourced.mono (h : Sourced c s) (henqueued : s'.enqueued = s.enqueued)
    (hheld : ∀ e ∈ s'.held, e ∈ s.held) (hrows : ∀ row ∈ s'.rows, row ∈ s.rows) : Sourced c s' where
  copies e he := by
    rw [henqueued]
    exact h.copies e (hheld e he)
  rows row hrow := by
    rw [henqueued]
    exact h.rows row (hrows row hrow)
  kinds := by
    rw [henqueued]
    exact h.kinds
  ids := by
    rw [henqueued]
    exact h.ids

/-- Wherever an event can be. -/
theorem mem_held : x ∈ s.held ↔
    x ∈ s.loop.inflight ∨ x ∈ s.queue ∨ (∃ batch ∈ s.strays, x ∈ batch) ∨ x ∈ s.hostLogins ∨
      x ∈ s.clipboardEvents := by
  simp only [held, List.mem_append, List.mem_flatten, or_assoc]

theorem held_inflight (hx : x ∈ s.loop.inflight) : x ∈ s.held :=
  mem_held.2 (.inl hx)

theorem held_queue (hx : x ∈ s.queue) : x ∈ s.held :=
  mem_held.2 (.inr (.inl hx))

theorem held_stray (hbatch : batch ∈ s.strays) (hx : x ∈ batch) : x ∈ s.held :=
  mem_held.2 (.inr (.inr (.inl ⟨batch, hbatch, hx⟩)))

theorem held_table (hx : x ∈ s.hostLogins ∨ x ∈ s.clipboardEvents) : x ∈ s.held :=
  mem_held.2 (.inr (.inr (.inr hx)))

/-- The queue, the loop and the network hold no event that was not held before. -/
theorem held_mono (hloop : ∀ x ∈ s'.loop.inflight, x ∈ s.held) (hqueue : ∀ x ∈ s'.queue, x ∈ s.held)
    (hstrays : ∀ batch ∈ s'.strays, ∀ x ∈ batch, x ∈ s.held)
    (htables : ∀ x, x ∈ s'.hostLogins ∨ x ∈ s'.clipboardEvents → x ∈ s.held) :
    ∀ x ∈ s'.held, x ∈ s.held := by
  intro x hx
  rcases mem_held.1 hx with hx | hx | ⟨batch, hbatch, hx⟩ | hx
  · exact hloop x hx
  · exact hqueue x hx
  · exact hstrays batch hbatch x hx
  · exact htables x hx

namespace Sourced

variable (h : Sourced c s)

include h

theorem fewer (henqueued : s'.enqueued = s.enqueued) (hloop : s'.loop.inflight ⊆ s.loop.inflight)
    (hqueue : s'.queue ⊆ s.queue) (hstrays : s'.strays ⊆ s.strays) (hlogins : s'.hostLogins = s.hostLogins)
    (hclips : s'.clipboardEvents = s.clipboardEvents) (hrows : s'.rows ⊆ s.rows) : Sourced c s' := by
  refine h.mono henqueued (held_mono (fun x hx => held_inflight (hloop hx))
    (fun x hx => held_queue (hqueue hx)) (fun batch hbatch x hx => held_stray (hstrays hbatch) hx) ?_)
    fun row hrow => hrows hrow
  rw [hlogins, hclips]
  exact fun _ => held_table

theorem accept (hkind : IsKnownKind e.kind) (hid : e.eventID ≠ []) : Sourced c (s.accept c e) where
  copies x hx := by
    have hcases : x ∈ s.held ∨ x = e := by
      rcases mem_held.1 hx with hx | hx | ⟨batch, hbatch, hx⟩ | hx
      · exact .inl (held_inflight hx)
      · exact (List.mem_append.mp hx).imp held_queue List.mem_singleton.mp
      · exact .inl (held_stray hbatch hx)
      · exact .inl (held_table hx)
    rcases hcases with hx | rfl
    · obtain ⟨original, horiginal, hcopy⟩ := h.copies x hx
      exact ⟨original, List.mem_append_left _ horiginal, hcopy⟩
    · exact ⟨x, List.mem_append_right _ List.mem_cons_self, .inl rfl⟩
  rows row hrow := by
    rcases List.mem_append.mp hrow with hrow | hrow
    · obtain ⟨original, horiginal, hsame⟩ := h.rows row hrow
      exact ⟨original, List.mem_append_left _ horiginal, hsame⟩
    · rw [List.mem_singleton.mp hrow]
      exact ⟨e, List.mem_append_right _ List.mem_cons_self, rfl, rfl⟩
  kinds x hx := by
    rcases List.mem_append.mp hx with hx | hx
    · exact h.kinds x hx
    · rw [List.mem_singleton.mp hx]
      exact hkind
  ids x hx := by
    rcases List.mem_append.mp hx with hx | hx
    · exact h.ids x hx
    · rw [List.mem_singleton.mp hx]
      exact hid

theorem push (hkind : IsKnownKind e.kind) (hid : e.eventID ≠ []) : Sourced c (s.push c e) := by
  have haccept := h.accept hkind hid
  rcases push_cases c s e with ⟨hpush, -⟩ | ⟨oldest, queue, hqueue, hpush⟩
  · rw [hpush]
    exact haccept
  · rw [hpush]
    have hfewer : queue ++ [e] ⊆ (s.accept c e).queue := by
      intro x hx
      show x ∈ s.queue ++ [e]
      rw [hqueue]
      exact List.mem_cons_of_mem _ hx
    exact haccept.fewer rfl (.refl _) hfewer (.refl _) rfl rfl (List.filter_subset_self _)

theorem expireQueue {retention : Int} : Sourced c (s.expireQueue retention) := by
  unfold AuditForwarder.expireQueue
  split
  · exact h.fewer rfl (.refl _) (List.filter_subset_self _) (.refl _) rfl rfl (List.filter_subset_self _)
  · exact h

theorem takeBatch : Sourced c (s.takeBatch c) := by
  obtain ⟨taken, rest, hqueue, hbatch⟩ := fillBatch_eq c [] s.queue
  have htaken : ∀ x ∈ taken, x ∈ s.held := fun x hx =>
    held_queue (hqueue ▸ List.mem_append_left _ hx)
  unfold AuditForwarder.takeBatch
  split
  · exact h
  · refine h.mono rfl ?_ fun row hrow => hrow
    refine held_mono (fun x hx => htaken x ?_) (fun x hx => held_queue (List.mem_of_mem_drop hx))
      (fun _ hbatch _ => held_stray hbatch) fun x hx => held_table hx
    rw [hbatch] at hx
    simp only at hx
    split at hx
    · cases hx
    · exact hx

theorem insertForwardedAudit (hbatch : ∀ e ∈ batch, e ∈ s.held) :
    Sourced c (s.insertForwardedAudit batch) := by
  refine h.mono rfl ?_ fun row hrow => hrow
  refine held_mono (fun x hx => held_inflight hx) (fun x hx => held_queue hx)
    (fun _ hbatch _ => held_stray hbatch) fun x hx => ?_
  have hnew : ∀ kind, x ∈ batch.filter (·.kind == kind) → x ∈ s.held := fun kind hx =>
    hbatch x (List.mem_filter.mp hx).1
  rcases hx with hx | hx
  · exact (mem_foldl_insertRow hx).elim (fun hx => held_table (.inl hx)) (hnew _)
  · exact (mem_foldl_insertRow hx).elim (fun hx => held_table (.inr hx)) (hnew _)

end Sourced

theorem mem_strayOf {loop : ForwardLoop} (hbatch : batch ∈ strayOf loop) (hx : x ∈ batch) :
    x ∈ loop.inflight := by
  unfold strayOf at hbatch
  split at hbatch
  · rw [List.mem_singleton.mp hbatch] at hx
    exact hx
  all_goals cases hbatch

/-- The events of a new process come from the rows. -/
theorem Sourced.restart {retention : Int} (h : Sourced c s) : Sourced c (s.restart c retention) := by
  obtain ⟨excess, hload, -⟩ := loadAuditForwardQueue_eq c retention s.clock s.rows
  rw [AuditForwarder.restart, hload]
  constructor
  · intro x hx
    rcases mem_held.1 hx with hx | hx | ⟨batch, hbatch, hx⟩ | hx
    · cases hx
    -- a row holds the event that was queued under its id
    · obtain ⟨row, hrow, hloaded⟩ := List.mem_filterMap.mp (List.mem_of_mem_drop hx)
      obtain ⟨hid, event, hevent, rfl⟩ := loadRow_eq_some hloaded
      obtain ⟨original, horiginal, hsame, hpayload⟩ := h.rows row hrow
      rw [hpayload] at hevent
      exact ⟨original, horiginal, .inr ⟨hid.trans hsame, event, _, hevent, rfl⟩⟩
    · rcases List.mem_append.mp hbatch with hbatch | hbatch
      · exact h.copies x (held_stray hbatch hx)
      · exact h.copies x (held_inflight (mem_strayOf hbatch hx))
    · exact h.copies x (held_table hx)
  · exact fun row hrow => h.rows row (List.mem_filter.mp hrow).1
  · exact h.kinds
  · exact h.ids

end Sourced

/-! ## Invariants -/

/-- The loop holds a batch that `nextBatch` may build, and the queue has room for it. -/
structure LoopOk (c : AuditCodec) (s : AuditForwarder) : Prop where
  size : s.inflightSize = s.loop.inflight.length
  small : s.loop.inflight.length ≤ auditForwardBatchLimit
  fits : FitsBatch c s.loop.inflight
  bounded : s.queue.length + s.loop.inflight.length ≤ auditForwardQueueLimit
  counted : s.dropped = s.droppedIDs.length

/-- The tables of the relay hold events of their kind, each id once. -/
structure TablesOk (s : AuditForwarder) : Prop where
  logins : (eventIDs s.hostLogins).Nodup ∧ ∀ e ∈ s.hostLogins, e.kind = kindLogin
  clips : (eventIDs s.clipboardEvents).Nodup ∧ ∀ e ∈ s.clipboardEvents, e.kind = kindClipboard
  /-- the relay has the batch that it has confirmed -/
  committed : ∀ batch, s.loop = .posting batch .committed → ∀ e ∈ batch, e.eventID ∈ s.relayed

structure ForwardInv (c : AuditCodec) (s : AuditForwarder) : Prop where
  books : s.ledger.Sound
  loop : LoopOk c s
  sourced : Sourced c s
  tables : TablesOk s

section Loop

open AuditForwarder

variable {c : AuditCodec} {s : AuditForwarder} {e : ForwardedAuditEvent} {retention : Int}
  {batch : List ForwardedAuditEvent} {answer : PostAnswer}

theorem fitsBatch_nil : FitsBatch c [] := .inl (Nat.zero_le 1)

namespace LoopOk

variable (h : LoopOk c s)

include h

theorem same {s' : AuditForwarder} (hsize : s'.inflightSize = s.inflightSize)
    (hinflight : s'.loop.inflight = s.loop.inflight) (hqueue : s'.queue = s.queue)
    (hdropped : s'.dropped = s.dropped) (hids : s'.droppedIDs = s.droppedIDs) : LoopOk c s' := by
  refine ⟨?_, ?_, ?_, ?_, ?_⟩
  · rw [hsize, hinflight]
    exact h.size
  · rw [hinflight]
    exact h.small
  · rw [hinflight]
    exact h.fits
  · rw [hqueue, hinflight]
    exact h.bounded
  · rw [hdropped, hids]
    exact h.counted

theorem counted_append (gone : List GoString) :
    s.dropped + gone.length = (s.droppedIDs ++ gone).length := by
  rw [List.length_append, h.counted]

theorem push : LoopOk c (s.push c e) := by
  have hsmall : s.loop.inflight.length ≤ 50 := h.small
  have hbounded : s.queue.length + s.loop.inflight.length ≤ 1000 := h.bounded
  rcases push_cases c s e with ⟨hpush, hroom⟩ | ⟨oldest, queue, hqueue, hpush⟩
  · rw [hpush]
    refine ⟨h.size, h.small, h.fits, ?_, h.counted⟩
    show (s.queue ++ [e]).length + s.loop.inflight.length ≤ 1000
    rw [List.length_append, List.length_singleton]
    -- an empty queue has room, since a batch is smaller than the limit
    rcases hroom with hroom | hempty
    · have hroom : s.queue.length + s.inflightSize < 1000 := hroom
      rw [h.size] at hroom
      omega
    · rw [hempty, List.length_nil]
      omega
  · rw [hpush]
    refine ⟨h.size, h.small, h.fits, ?_, ?_⟩
    · show (queue ++ [e]).length + s.loop.inflight.length ≤ 1000
      rw [hqueue] at hbounded
      rw [List.length_append]
      exact hbounded
    · exact h.counted_append [oldest.eventID]

theorem expireQueue : LoopOk c (s.expireQueue retention) := by
  unfold AuditForwarder.expireQueue
  split
  · refine ⟨h.size, h.small, h.fits, ?_, ?_⟩
    · have hfewer := List.length_filter_le (fun e => !s.expired retention e) s.queue
      exact Nat.le_trans (Nat.add_le_add_right hfewer _) h.bounded
    · exact h.counted_append _
  · exact h

theorem takeBatch (hidle : s.loop = .idle) : LoopOk c (s.takeBatch c) := by
  obtain ⟨taken, rest, hqueue, hbatch⟩ := fillBatch_eq c [] s.queue
  have hsmall : (fillBatch c [] s.queue).length ≤ auditForwardBatchLimit :=
    length_fillBatch_le (Nat.zero_le _)
  have hfits : FitsBatch c (fillBatch c [] s.queue) := fitsBatch_fillBatch fitsBatch_nil
  have hbounded := h.bounded
  rw [List.nil_append] at hbatch
  rw [hbatch] at hsmall hfits
  unfold AuditForwarder.takeBatch
  split
  · exact h
  · have hinflight : ForwardLoop.inflight (if taken = [] then .idle else .posting taken .sent) =
        taken := by
      split
      next hnil =>
        exact hnil.symm
      · rfl
    rw [hbatch]
    constructor
    · exact (congrArg List.length hinflight).symm
    · rw [hinflight]
      exact hsmall
    · rw [hinflight]
      exact hfits
    · simp only [hinflight]
      rw [hidle, hqueue, List.length_append] at hbounded
      rw [hqueue, List.drop_left]
      rw [Nat.add_comm]
      exact hbounded
    · exact h.counted

section

variable (hloop : s.loop = .posting batch answer)

include hloop

theorem completeBatch : LoopOk c (s.completeBatch batch) := by
  have hsize := h.size
  rw [hloop] at hsize
  refine ⟨?_, Nat.zero_le _, fitsBatch_nil, ?_, h.counted⟩
  · show s.inflightSize - batch.length = 0
    rw [hsize]
    exact Nat.sub_self _
  · exact Nat.le_trans (Nat.le_add_right _ _) h.bounded

theorem discardBatch : LoopOk c (s.discardBatch batch) := by
  have hdone := h.completeBatch hloop
  refine ⟨hdone.size, hdone.small, hdone.fits, hdone.bounded, ?_⟩
  have hcount : batch.length = (eventIDs batch).length := (List.length_map _).symm
  show s.dropped + batch.length = (s.droppedIDs ++ eventIDs batch).length
  rw [hcount]
  exact h.counted_append (eventIDs batch)

theorem retryBatch : LoopOk c (s.retryBatch batch) := by
  have hdone := h.completeBatch hloop
  have hbounded := h.bounded
  rw [hloop] at hbounded
  refine ⟨hdone.size, hdone.small, hdone.fits, ?_, h.counted⟩
  show (batch ++ s.queue).length + 0 ≤ auditForwardQueueLimit
  rw [List.length_append, Nat.add_comm batch.length]
  exact hbounded

end

theorem restart : LoopOk c (s.restart c retention) := by
  obtain ⟨excess, hload, hlimit⟩ := loadAuditForwardQueue_eq c retention s.clock s.rows
  rw [AuditForwarder.restart, hload]
  exact ⟨rfl, Nat.zero_le _, fitsBatch_nil, hlimit, h.counted_append _⟩

end LoopOk

end Loop

section Steps

open AuditForwarder

variable {c : AuditCodec} {p : AuditPlatform} {retention : Int} {s s' : AuditForwarder}
  {e : ForwardedAuditEvent} {ev : ForwardEvent} {batch : List ForwardedAuditEvent}

/-- The tables change only with `insertForwardedAudit`. -/
theorem TablesOk.same (h : TablesOk s) (hlogins : s'.hostLogins = s.hostLogins)
    (hclips : s'.clipboardEvents = s.clipboardEvents)
    (hloop : ∀ batch, s'.loop = .posting batch .committed → s.loop = .posting batch .committed) :
    TablesOk s' := by
  have hrelayed : s'.relayed = s.relayed := by rw [relayed, relayed, hlogins, hclips]
  refine ⟨?_, ?_, ?_⟩
  · rw [hlogins]
    exact h.logins
  · rw [hclips]
    exact h.clips
  · rw [hrelayed]
    exact fun batch hposting => h.committed batch (hloop batch hposting)

theorem TablesOk.push (h : TablesOk s) : TablesOk (s.push c e) := by
  rcases push_cases c s e with ⟨hpush, -⟩ | ⟨oldest, queue, -, hpush⟩
  all_goals
    rw [hpush]
    exact h.same rfl rfl fun _ hloop => hloop

/-- All events of a batch are in the tables then. -/
theorem relayed_insertForwardedAudit (hkinds : knownKinds batch = true) :
    ∀ e ∈ batch, e.eventID ∈ (s.insertForwardedAudit batch).relayed := by
  intro e he
  have hkind := List.all_eq_true.mp hkinds e he
  rw [relayed, eventIDs, List.map_append]
  rcases Bool.or_eq_true_iff.mp hkind with hkind | hkind
  · exact List.mem_append_left _ (eventID_mem_foldl_insertRow (List.mem_filter.mpr ⟨he, hkind⟩))
  · exact List.mem_append_right _ (eventID_mem_foldl_insertRow (List.mem_filter.mpr ⟨he, hkind⟩))

/-- A table takes no event twice. -/
theorem table_insert {table : List ForwardedAuditEvent} {kind : GoString}
    (h : (eventIDs table).Nodup ∧ ∀ e ∈ table, e.kind = kind) (hids : ∀ e ∈ batch, e.eventID ≠ []) :
    (eventIDs ((batch.filter (·.kind == kind)).foldl insertRow table)).Nodup ∧
      ∀ e ∈ (batch.filter (·.kind == kind)).foldl insertRow table, e.kind = kind := by
  refine ⟨nodup_foldl_insertRow h.1 fun e he => hids e (List.mem_filter.mp he).1, fun e he => ?_⟩
  rcases mem_foldl_insertRow he with he | he
  · exact h.2 e he
  · exact beq_iff_eq.mp (List.mem_filter.mp he).2

theorem TablesOk.insertForwardedAudit (h : TablesOk s) (hids : ∀ e ∈ batch, e.eventID ≠ [])
    (hloop : ∀ batch', s'.loop = .posting batch' .committed → batch' = batch ∨
      s.loop = .posting batch' .committed)
    (hkinds : knownKinds batch = true)
    (hlogins : s'.hostLogins = (s.insertForwardedAudit batch).hostLogins)
    (hclips : s'.clipboardEvents = (s.insertForwardedAudit batch).clipboardEvents) : TablesOk s' := by
  refine ⟨hlogins ▸ table_insert h.logins hids, hclips ▸ table_insert h.clips hids, ?_⟩
  · intro batch' hposting e he
    have hrelayed : s'.relayed = (s.insertForwardedAudit batch).relayed := by
      rw [relayed, relayed, hlogins, hclips]
    rw [hrelayed]
    rcases hloop batch' hposting with rfl | hbefore
    · exact relayed_insertForwardedAudit hkinds e he
    · obtain ⟨x, hx, hid⟩ := List.mem_map.mp (h.committed batch' hbefore e he)
      refine List.mem_map.mpr ⟨x, ?_, hid⟩
      rcases List.mem_append.mp hx with hx | hx
      · exact List.mem_append_left _ (subset_foldl_insertRow hx)
      · exact List.mem_append_right _ (subset_foldl_insertRow hx)

theorem expireQueue_loop : (s.expireQueue retention).loop = s.loop := by
  unfold expireQueue
  split <;> rfl

section

variable (c p retention s)

/-- The steps with their conditions and their outcomes. -/
inductive ForwardMove : ForwardEvent → AuditForwarder → Prop where
  | tick (d : Nat) : ForwardMove (.tick d) { s with clock := s.clock + d }
  | enqueueLogin {random : List UInt8} {ev : HostLogin} (hnew : s.isNewID random) :
      ForwardMove (.enqueueLogin random ev)
        (s.push c { loginEvent p s.clock random ev with enqueuedAt := s.clock })
  | enqueueClipboard {random : List UInt8} {ev : AuditEvent} {capture : Bool}
      (hnew : s.isNewID random) :
      ForwardMove (.enqueueClipboard random ev capture)
        (s.push c { clipboardEvent p s.clock random ev capture with enqueuedAt := s.clock })
  | nextBatch (hidle : s.loop = .idle) : ForwardMove .nextBatch ((s.expireQueue retention).takeBatch c)
  | commit {batch : List ForwardedAuditEvent} (hloop : s.loop = .posting batch .sent)
      (hkinds : knownKinds batch = true) :
      ForwardMove .commit
        { s.insertForwardedAudit batch with loop := .posting batch .committed }
  | reject {batch : List ForwardedAuditEvent} (hloop : s.loop = .posting batch .sent) :
      ForwardMove .reject { s with loop := .posting batch .rejected }
  | succeed {batch : List ForwardedAuditEvent} (hloop : s.loop = .posting batch .committed) :
      ForwardMove .succeed (s.completeBatch batch)
  | fail {batch : List ForwardedAuditEvent} {answer : PostAnswer}
      (hloop : s.loop = .posting batch answer) :
      ForwardMove .fail
        { s.retryBatch batch with strays := s.strays ++ strayOf s.loop }
  | discard {batch : List ForwardedAuditEvent} (hloop : s.loop = .posting batch .rejected) :
      ForwardMove .discard (s.discardBatch batch)
  | straggle {k : Nat} {batch : List ForwardedAuditEvent} (hstray : batch ∈ s.strays)
      (hkinds : knownKinds batch = true) :
      ForwardMove (.straggle k)
        { s.insertForwardedAudit batch with strays := s.strays.eraseIdx k }
  | restart : ForwardMove .restart (s.restart c retention)

end

/-- Every step is one of the moves. -/
theorem step_cases (hstep : s.step c p retention ev = some s') : ForwardMove c p retention s ev s' := by
  cases ev with
  | tick d =>
    cases hstep
    exact .tick d
  | enqueueLogin random login | enqueueClipboard random event capture | nextBatch | reject | succeed | fail
  | discard =>
    simp only [step] at hstep
    split at hstep <;> cases hstep
    constructor
    assumption
  | commit =>
    simp only [step] at hstep
    split at hstep
    next batch hloop =>
      split at hstep <;> cases hstep
      rename_i hkinds
      exact .commit hloop hkinds
    · cases hstep
  | straggle k =>
    simp only [step] at hstep
    split at hstep
    next batch hstray =>
      split at hstep <;> cases hstep
      rename_i hkinds
      exact .straggle (List.mem_of_getElem? hstray) hkinds
    · cases hstep
  | restart =>
    cases hstep
    exact .restart

/-- Every step of the forwarder is a sequence of changes that `Ledger` allows. -/
theorem step_refines (h : ForwardInv c s) (hstep : s.step c p retention ev = some s') :
    Ledger.Steps s.ledger s'.ledger := by
  -- each case is one change of the books, or none
  cases step_cases hstep with
  | tick d => exact .refl
  | enqueueLogin hnew | enqueueClipboard hnew => exact books_push hnew.2
  | nextBatch hidle =>
    have hidle' : (s.expireQueue retention).loop = .idle := expireQueue_loop.trans hidle
    rw [ledger_takeBatch hidle']
    exact books_expireQueue hidle
  | commit hloop hkinds =>
    refine books_insertForwardedAudit ?_ rfl rfl rfl rfl rfl
    rw [pending_posting hloop]
    exact pending_posting rfl
  | @reject batch hloop =>
    have hsame : ledger { s with loop := .posting batch .rejected } = s.ledger := by
      refine ledger_eq rfl rfl rfl rfl ?_
      rw [pending_posting hloop]
      exact pending_posting rfl
    rw [hsame]
  | succeed hloop => exact books_completeBatch hloop (h.tables.committed _ hloop)
  | fail hloop => exact (ledger_retryBatch hloop) ▸ .refl
  | discard hloop => exact books_discardBatch hloop
  | straggle hstray hkinds => exact books_insertForwardedAudit rfl rfl rfl rfl rfl rfl
  | restart => exact books_restart h.books.stored

theorem length_newID {random : List UInt8} (hnew : s.isNewID random) : (hexEncode random).length = 32 := by
  rw [length_hexEncode, hnew.1]

theorem newID_ne_nil {random : List UInt8} (hnew : s.isNewID random) : hexEncode random ≠ [] := by
  intro hnil
  have hlength := length_newID hnew
  rw [hnil] at hlength
  cases hlength

namespace Sourced

variable (h : Sourced c s)

include h

/-- The batch that a request brings to the relay consists of queued events. -/
theorem batch_ids (hbatch : ∀ e ∈ batch, e ∈ s.held) : ∀ e ∈ batch, e.eventID ≠ [] := by
  intro e he
  obtain ⟨original, horiginal, hcopy⟩ := h.copies e (hbatch e he)
  rw [hcopy.eventID]
  exact h.ids original horiginal

theorem completeBatch : Sourced c (s.completeBatch batch) :=
  h.fewer rfl (List.nil_subset _) (.refl _) (.refl _) rfl rfl (List.filter_subset_self _)

theorem discardBatch : Sourced c (s.discardBatch batch) :=
  h.fewer rfl (List.nil_subset _) (.refl _) (.refl _) rfl rfl (List.filter_subset_self _)

/-- The batch goes back to the queue, and the request may still be on its way. -/
theorem retryBatch {answer : PostAnswer} (hloop : s.loop = .posting batch answer) :
    Sourced c { s.retryBatch batch with strays := s.strays ++ strayOf s.loop } := by
  have hinflight : s.loop.inflight = batch := by rw [hloop]; rfl
  refine h.mono rfl ?_ fun row hrow => hrow
  refine held_mono nofun (fun x hx => ?_) (fun stray hstray x hx => ?_) fun x hx => held_table hx
  · rcases List.mem_append.mp hx with hx | hx
    · exact held_inflight (hinflight ▸ hx)
    · exact held_queue hx
  · rcases List.mem_append.mp hstray with hstray | hstray
    · exact held_stray hstray hx
    · exact held_inflight (mem_strayOf hstray hx)

end Sourced

theorem TablesOk.expireQueue (h : TablesOk s) : TablesOk (s.expireQueue retention) := by
  unfold AuditForwarder.expireQueue
  split
  · exact h.same rfl rfl fun _ hloop => hloop
  · exact h

theorem TablesOk.takeBatch (h : TablesOk s) : TablesOk (s.takeBatch c) := by
  unfold AuditForwarder.takeBatch
  split
  · exact h
  · refine h.same rfl rfl fun batch hposting => ?_
    simp only at hposting
    split at hposting <;> cases hposting

theorem TablesOk.restart (h : TablesOk s) : TablesOk (s.restart c retention) := by
  obtain ⟨excess, hload, -⟩ := loadAuditForwardQueue_eq c retention s.clock s.rows
  rw [AuditForwarder.restart, hload]
  refine h.same rfl rfl fun batch hposting => ?_
  cases hposting

theorem ForwardInv.push (h : ForwardInv c s) (hbooks : (s.push c e).ledger.Sound)
    (hkind : IsKnownKind e.kind) (hid : e.eventID ≠ []) : ForwardInv c (s.push c e) :=
  ⟨hbooks, h.loop.push, h.sourced.push hkind hid, h.tables.push⟩

/-- Every step keeps the invariant. -/
theorem forwardInv_step (h : ForwardInv c s) (hstep : s.step c p retention ev = some s') :
    ForwardInv c s' := by
  have hbooks : s'.ledger.Sound := h.books.steps (step_refines h hstep)
  cases step_cases hstep with
  | tick d =>
    exact ⟨hbooks, h.loop.same rfl rfl rfl rfl rfl, h.sourced.mono rfl (fun _ hx => hx) fun _ hrow => hrow,
      h.tables.same rfl rfl fun _ hloop => hloop⟩
  | enqueueLogin hnew => exact h.push hbooks (.inl rfl) (newID_ne_nil hnew)
  | enqueueClipboard hnew => exact h.push hbooks (.inr rfl) (newID_ne_nil hnew)
  | nextBatch hidle =>
    have hidle' : (s.expireQueue retention).loop = .idle := expireQueue_loop.trans hidle
    exact ⟨hbooks, h.loop.expireQueue.takeBatch hidle', h.sourced.expireQueue.takeBatch,
      h.tables.expireQueue.takeBatch⟩
  | @commit batch hloop hkinds =>
    have hinflight : s.loop.inflight = batch := by rw [hloop]; rfl
    have hheld : ∀ e ∈ batch, e ∈ s.held := fun e he => held_inflight (hinflight ▸ he)
    refine ⟨hbooks, h.loop.same rfl hinflight.symm rfl rfl rfl, ?_, ?_⟩
    · exact (h.sourced.insertForwardedAudit hheld).fewer rfl (hinflight ▸ .refl _)
        (.refl _) (.refl _) rfl rfl (.refl _)
    · refine h.tables.insertForwardedAudit (h.sourced.batch_ids hheld) (fun batch' hposting => ?_)
        hkinds rfl rfl
      cases hposting
      exact .inl rfl
  | @reject batch hloop =>
    have hinflight : s.loop.inflight = batch := by rw [hloop]; rfl
    refine ⟨hbooks, h.loop.same rfl hinflight.symm rfl rfl rfl, ?_, h.tables.same rfl rfl nofun⟩
    exact h.sourced.fewer rfl (hinflight ▸ .refl _) (.refl _) (.refl _) rfl rfl (.refl _)
  | succeed hloop =>
    exact ⟨hbooks, h.loop.completeBatch hloop, h.sourced.completeBatch, h.tables.same rfl rfl nofun⟩
  | fail hloop =>
    exact ⟨hbooks, (h.loop.retryBatch hloop).same rfl rfl rfl rfl rfl, h.sourced.retryBatch hloop,
      h.tables.same rfl rfl nofun⟩
  | discard hloop =>
    exact ⟨hbooks, h.loop.discardBatch hloop, h.sourced.discardBatch, h.tables.same rfl rfl nofun⟩
  | @straggle k batch hstray hkinds =>
    have hheld : ∀ e ∈ batch, e ∈ s.held := fun _ => held_stray hstray
    refine ⟨hbooks, h.loop.same rfl rfl rfl rfl rfl, ?_, ?_⟩
    · exact (h.sourced.insertForwardedAudit hheld).fewer rfl (.refl _) (.refl _)
        List.eraseIdx_subset rfl rfl (.refl _)
    · exact h.tables.insertForwardedAudit (h.sourced.batch_ids hheld) (fun _ => .inr) hkinds rfl rfl
  | restart => exact ⟨hbooks, h.loop.restart, h.sourced.restart, h.tables.restart⟩

theorem push_loop : (s.push c e).loop = s.loop := by
  rcases push_cases c s e with ⟨hpush, -⟩ | ⟨oldest, queue, -, hpush⟩
  all_goals
    rw [hpush]
    rfl

theorem push_enqueued : (s.push c e).enqueued = s.enqueued ++ [e] := by
  rcases push_cases c s e with ⟨hpush, -⟩ | ⟨oldest, queue, -, hpush⟩
  all_goals
    rw [hpush]
    rfl

theorem expireQueue_enqueued : (s.expireQueue retention).enqueued = s.enqueued := by
  unfold expireQueue
  split <;> rfl

theorem takeBatch_enqueued : (s.takeBatch c).enqueued = s.enqueued := by
  unfold takeBatch
  split <;> rfl

theorem restart_enqueued : (s.restart c retention).enqueued = s.enqueued := by
  obtain ⟨excess, hload, -⟩ := loadAuditForwardQueue_eq c retention s.clock s.rows
  rw [restart, hload]
  rfl

/-- What is new among the queued events comes from the two enqueues. -/
theorem step_enqueued {P : ForwardedAuditEvent → Prop}
    (hlogin : ∀ random login, ev = .enqueueLogin random login → s.isNewID random →
      P { loginEvent p s.clock random login with enqueuedAt := s.clock })
    (hclipboard : ∀ random event capture, ev = .enqueueClipboard random event capture →
      s.isNewID random → P { clipboardEvent p s.clock random event capture with
        enqueuedAt := s.clock })
    (h : ∀ e ∈ s.enqueued, P e) (hstep : s.step c p retention ev = some s') : ∀ e ∈ s'.enqueued, P e := by
  have hpush : ∀ e, P e → ∀ x ∈ (s.push c e).enqueued, P x := by
    intro e he x hx
    rw [push_enqueued] at hx
    rcases List.mem_append.mp hx with hx | hx
    · exact h x hx
    · rw [List.mem_singleton.mp hx]
      exact he
  cases step_cases hstep with
  | enqueueLogin hnew => exact hpush _ (hlogin _ _ rfl hnew)
  | enqueueClipboard hnew => exact hpush _ (hclipboard _ _ _ rfl hnew)
  | nextBatch hidle =>
    rw [takeBatch_enqueued, expireQueue_enqueued]
    exact h
  | restart =>
    rw [restart_enqueued]
    exact h
  | _ => exact h

/-- A batch on its way was posted before, or has just been taken from the queue. -/
theorem step_posting {answer : PostAnswer} (hstep : s.step c p retention ev = some s')
    (hloop : s'.loop = .posting batch answer) :
    (∃ answer', s.loop = .posting batch answer' ∧
      (answer = .rejected → answer' = .rejected ∨ ev = .reject)) ∨
      answer = .sent ∧ batch ≠ [] := by
  have hsame : s'.loop = s.loop → ∃ answer', s.loop = .posting batch answer' ∧
      (answer = .rejected → answer' = .rejected ∨ ev = .reject) :=
    fun heq => ⟨answer, heq ▸ hloop, .inl⟩
  cases step_cases hstep with
  | tick d => exact .inl (hsame rfl)
  | enqueueLogin hnew | enqueueClipboard hnew => exact .inl (hsame push_loop)
  | nextBatch hidle =>
    unfold takeBatch at hloop
    split at hloop
    · rw [expireQueue_loop, hidle] at hloop
      cases hloop
    · simp only at hloop
      split at hloop <;> cases hloop
      rename_i hne
      exact .inr ⟨rfl, hne⟩
  | commit hposted hkinds =>
    cases hloop
    exact .inl ⟨.sent, hposted, nofun⟩
  | reject hposted =>
    cases hloop
    exact .inl ⟨.sent, hposted, fun _ => .inr rfl⟩
  | succeed hposted | fail hposted | discard hposted => cases hloop
  | straggle hstray hkinds => exact .inl (hsame rfl)
  | restart =>
    cases hloop

theorem forwardInv_start (clock : Int) : ForwardInv c { clock } where
  books := ⟨.nil, .slnil, rfl, nofun, .nil, nofun⟩
  loop := ⟨rfl, Nat.zero_le _, fitsBatch_nil, Nat.zero_le _, rfl⟩
  sourced := ⟨nofun, nofun, nofun, nofun⟩
  tables := ⟨⟨.nil, nofun⟩, ⟨.nil, nofun⟩, nofun⟩

/-- No event is in both tables: its copies have its kind. -/
theorem ForwardInv.nodup_relayed (h : ForwardInv c s) : s.relayed.Nodup := by
  have hdistinct : (eventIDs s.enqueued).Nodup := h.books.distinct
  rw [relayed, eventIDs, List.map_append]
  refine .append h.tables.logins.1 h.tables.clips.1 fun id hlogin hclip => ?_
  obtain ⟨e, he, rfl⟩ := List.mem_map.mp hlogin
  obtain ⟨e', he', hsame⟩ := List.mem_map.mp hclip
  -- both rows are copies of queued events, of one event since they have one id
  obtain ⟨original, horiginal, hcopy⟩ := h.sourced.copies e (held_table (.inl he))
  obtain ⟨original', horiginal', hcopy'⟩ := h.sourced.copies e' (held_table (.inr he'))
  have hids : original'.eventID = original.eventID := by
    rw [← hcopy'.eventID, ← hcopy.eventID]
    exact hsame
  have horiginals : original' = original := List.inj_on_of_nodup_map hdistinct horiginal' horiginal hids
  have hkinds : e'.kind = e.kind := by
    rw [hcopy'.kind (h.sourced.kinds original' horiginal'), horiginals,
      hcopy.kind (h.sourced.kinds original horiginal)]
  rw [h.tables.clips.2 e' he', h.tables.logins.2 e he] at hkinds
  exact absurd hkinds (by decide)

theorem ForwardInv.exactlyOnce (h : ForwardInv c s) : ExactlyOnce s where
  bounded := h.loop.bounded
  persisted := h.books.stored
  ordered := h.books.ordered
  accounted e he := h.books.accounted e.eventID (List.mem_map_of_mem he)
  once := h.nodup_relayed
  counted := ⟨h.books.counted, h.loop.counted⟩

end Steps

/-- An event that was queued is in the tables of the relay, once, or pending, or counted as dropped,
whatever the order in which requests fail, answers get lost and processes start anew. -/
theorem audit_exactly_once (c : AuditCodec) (p : AuditPlatform) (retention clock : Int)
    (es : List ForwardEvent) :
    Lts.Throughout (step c p retention) ExactlyOnce { clock } es := by
  have hinv : Lts.Throughout (step c p retention) (ForwardInv c) { clock } es :=
    Lts.throughout_of_invariant (fun _ _ _ => forwardInv_step)
      (forwardInv_start clock)
  exact hinv.mono fun _ h => h.exactlyOnce

end Rustcast.Relay
