import Rustcast.Relay.ClipboardAudit

/-!
# Retention of audit rows

`purge` of `store.go` deletes the rows of `clipboard_events` and `host_logins` whose `ts` is below
the formatted cutoff, as SQLite compares texts, and the queued rows below the cutoff in seconds. The
`ts` of a row is what `auditTimestamp` has let through: any text that `time.Parse` takes for RFC 3339.
-/

namespace Rustcast.Relay

/-- A row of `host_logins`. -/
structure LoginRow where
  ts : GoString
  machineID : GoString
  machineName : Option GoString
  sessionID : Option GoString
  userSub : Option GoString
  userName : Option GoString
  clientIP : Option GoString
  osUser : Option GoString
  result : GoString
  eventID : Option GoString
  deriving DecidableEq

def insertLoginRow (p : AuditPlatform) (now : Int) (l : RelayLogin) : LoginRow where
  ts := auditTimestamp p now l.timestamp
  machineID := l.machineID
  machineName := nullIfEmpty l.machineName
  sessionID := nullIfEmpty l.sessionID
  userSub := nullIfEmpty l.userSub
  userName := nullIfEmpty l.userName
  clientIP := nullIfEmpty l.clientIP
  osUser := nullIfEmpty l.osUser
  result := l.result
  eventID := nullIfEmpty l.eventID

structure AuditTables where
  clipboardEvents : List ClipboardRow := []
  hostLogins : List LoginRow := []
  auditForwardQueue : List QueueRow := []

namespace AuditTables

/-- `DELETE FROM … WHERE ts < ?`, with the bytes of the texts compared. -/
def deleteBelow {Row : Type} (ts : Row → GoString) (bound : GoString) (rows : List Row) : List Row :=
  rows.filter fun row => !decide (ts row < bound)

def purge (tables : AuditTables) (olderThan : Int) : AuditTables where
  clipboardEvents := deleteBelow (·.ts) (formatNano olderThan) tables.clipboardEvents
  hostLogins := deleteBelow (·.ts) (formatNano olderThan) tables.hostLogins
  auditForwardQueue :=
    tables.auditForwardQueue.filter fun row => !decide (row.createdAt < olderThan / nanosPerSecond)

/-- The timestamps of the audit rows. -/
def timestamps (tables : AuditTables) : List GoString :=
  tables.clipboardEvents.map (·.ts) ++ tables.hostLogins.map (·.ts)

/-- Every row with a timestamp goes exactly if its instant is before the cutoff. -/
structure PurgesExactly (tables : AuditTables) (olderThan : Int) : Prop where
  clips : ∀ row ∈ tables.clipboardEvents, ∀ t : Timestamp, row.ts = t.text →
    (row ∉ (tables.purge olderThan).clipboardEvents ↔ t.instant < olderThan)
  logins : ∀ row ∈ tables.hostLogins, ∀ t : Timestamp, row.ts = t.text →
    (row ∉ (tables.purge olderThan).hostLogins ↔ t.instant < olderThan)

end AuditTables

open AuditTables

theorem not_mem_deleteBelow {Row : Type} {ts : Row → GoString} {bound : GoString} {rows : List Row}
    {row : Row} (h : row ∈ rows) : row ∉ deleteBelow ts bound rows ↔ ts row < bound := by
  rw [deleteBelow, List.mem_filter]
  constructor
  · intro hgone
    by_contra hkept
    exact hgone ⟨h, by rw [decide_eq_false hkept]; rfl⟩
  · rintro hlt ⟨-, hkept⟩
    rw [decide_eq_true hlt] at hkept
    cases hkept

/-- The rows are deleted by their texts. -/
theorem purgesExactly_iff (tables : AuditTables) (olderThan : Int) :
    tables.PurgesExactly olderThan ↔ ∀ ts ∈ tables.timestamps, ∀ t : Timestamp, ts = t.text →
      (t.text < formatNano olderThan ↔ t.instant < olderThan) := by
  constructor
  · intro h ts hts t htext
    rcases List.mem_append.mp hts with hclip | hlogin
    · obtain ⟨row, hrow, rfl⟩ := List.mem_map.mp hclip
      have hexact := h.clips row hrow t htext
      rw [purge, not_mem_deleteBelow hrow, htext] at hexact
      exact hexact
    · obtain ⟨row, hrow, rfl⟩ := List.mem_map.mp hlogin
      have hexact := h.logins row hrow t htext
      rw [purge, not_mem_deleteBelow hrow, htext] at hexact
      exact hexact
  · intro h
    constructor
    · intro row hrow t htext
      rw [purge, not_mem_deleteBelow hrow, htext]
      exact h row.ts (List.mem_append_left _ (List.mem_map_of_mem hrow)) t htext
    · intro row hrow t htext
      rw [purge, not_mem_deleteBelow hrow, htext]
      exact h row.ts (List.mem_append_right _ (List.mem_map_of_mem hrow)) t htext

/-- Rows go exactly when their instant is before the cutoff, for the tables whose timestamps are all in
order with it: what their date and time read, without the zone, is on the side of the cutoff where
their instant is, and in the second of the cutoff the digits of the fractions agree with that. -/
theorem purge_exact_iff (tables : AuditTables) (olderThan : Int) :
    tables.PurgesExactly olderThan ↔
      ∀ ts ∈ tables.timestamps, ∀ t : Timestamp, ts = t.text → t.InOrder olderThan := by
  rw [purgesExactly_iff]
  constructor
  · intro h ts hts t htext
    exact (t.text_lt_formatNano_iff olderThan).mp (h ts hts t htext)
  · intro h ts hts t htext
    exact (t.text_lt_formatNano_iff olderThan).mpr (h ts hts t htext)

/-- January 1, 2026, 0:00 UTC with a fraction. -/
def newYear (fraction : List (Fin 10)) : Timestamp where
  clock :=
    { date := { year := 2026, month := 1, day := 1, month_valid := by decide, day_valid := by decide }
      hour := 0
      minute := 0
      second := 0
      hour_lt := by decide
      minute_lt := by decide
      second_lt := by decide }
  fraction
  zone := .utc
  fourDigits := ⟨by decide, by decide⟩
  hour_lt := by decide

/-- One login at a time. -/
def loginAt (ts : GoString) : AuditTables where
  hostLogins := [insertLoginRow goPlatform 0
    { machineID := textBytes "m1", machineName := [], eventID := [], timestamp := ts, sessionID := [],
      userSub := [], userName := [], clientIP := [], osUser := [], result := textBytes "ok" }]

-- two hours east of Greenwich, a day before the cutoff
example : ({ newYear [] with zone := .offset false 2 0 }).InOrder
    ((newYear []).instant + 86400000000000) := by decide +kernel

/-- A login half a second after midnight is purged with the cutoff at midnight. -/
theorem purge_deletes_newer_row :
    ¬ ∀ (tables : AuditTables) (olderThan : Int),
      (∀ ts ∈ tables.timestamps, ∃ t : Timestamp, ts = t.text) → tables.PurgesExactly olderThan := by
  intro hclaim
  have htime : (loginAt (newYear [5]).text).timestamps = [(newYear [5]).text] := by decide +kernel
  have hexact := (purgesExactly_iff _ _).mp (hclaim (loginAt (newYear [5]).text) (newYear []).instant
    (by
      intro ts hts
      rw [htime] at hts
      exact ⟨newYear [5], List.mem_singleton.mp hts⟩))
  have hlater : ¬ (newYear [5]).instant < (newYear []).instant := by decide +kernel
  have hbelow : (newYear [5]).text < formatNano (newYear []).instant := by decide +kernel
  have hrow := hexact (newYear [5]).text (by rw [htime]; exact List.mem_singleton.mpr rfl) _ rfl
  exact hlater (hrow.mp hbelow)

end Rustcast.Relay
