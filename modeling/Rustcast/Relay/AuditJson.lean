import Rustcast.Core.Json
import Rustcast.Relay.AuditForward

/-!
# Audit events as JSON

The JSON form of `forwardedAuditEvent` and `forwardedAuditBatch` of `audit_forward.go`, with the
field tags of the source, as the rows of the queue and the requests to the relay hold it, and the
codec of the forwarder that it makes.
-/

namespace Rustcast.Relay

/-! ## Fields -/

/-- The fields that have a JSON key, in the order of the struct. -/
inductive AuditField where
  | eventID
  | kind
  | timestamp
  | sessionID
  | userSub
  | userName
  | clientIP
  | osUser
  | direction
  | mime
  | result
  | size
  | sha256
  | data
  deriving DecidableEq

namespace AuditField

def all : List AuditField :=
  [eventID, kind, timestamp, sessionID, userSub, userName, clientIP, osUser, direction, mime,
    result, size, sha256, data]

def key : AuditField → GoString
  | eventID => textBytes "event_id"
  | kind => textBytes "kind"
  | timestamp => textBytes "ts"
  | sessionID => textBytes "session_id"
  | userSub => textBytes "user_sub"
  | userName => textBytes "user_name"
  | clientIP => textBytes "client_ip"
  | osUser => textBytes "os_user"
  | direction => textBytes "direction"
  | mime => textBytes "mime"
  | result => textBytes "result"
  | size => textBytes "size"
  | sha256 => textBytes "sha256"
  | data => textBytes "data"

end AuditField

/-- What a field is written as. -/
inductive FieldValue where
  | text (value : GoString)
  | number (value : Int)
  deriving DecidableEq

namespace FieldValue

def write : FieldValue → List UInt8
  | text value => quote value
  | number value => writeInt value

/-- The value that a reader of JSON gets. -/
def json : FieldValue → Json
  | text value => .string (sanitize value)
  | number value => .number (writeInt value)

end FieldValue

/-- A string with `omitempty`. -/
def omitEmpty (value : GoString) : Option FieldValue :=
  if value = [] then none else some (.text value)

variable (e : ForwardedAuditEvent)

/-- The value of a field, unless it is left out. -/
def fieldValue : AuditField → Option FieldValue
  | .eventID => some (.text e.eventID)
  | .kind => some (.text e.kind)
  | .timestamp => some (.text e.timestamp)
  | .sessionID => omitEmpty e.sessionID
  | .userSub => omitEmpty e.userSub
  | .userName => omitEmpty e.userName
  | .clientIP => omitEmpty e.clientIP
  | .osUser => omitEmpty e.osUser
  | .direction => omitEmpty e.direction
  | .mime => omitEmpty e.mime
  | .result => some (.text e.result)
  -- `omitempty` leaves out a zero, and for a pointer only nil
  | .size => if e.size = 0 then none else some (.number e.size)
  | .sha256 => omitEmpty e.sha256
  | .data => e.data.map .text

/-! ## Writing -/

def eventFields (e : ForwardedAuditEvent) : List (AuditField × FieldValue) :=
  AuditField.all.filterMap fun field => (fieldValue e field).map (field, ·)

/-- `json.Marshal` of an event. -/
def marshalEvent (e : ForwardedAuditEvent) : List UInt8 :=
  writeObject ((eventFields e).map fun (field, value) => (field.key, value.write))

/-- `json.Marshal` of a `forwardedAuditBatch` with events. -/
def marshalBatch (machineID : GoString) (events : List ForwardedAuditEvent) : List UInt8 :=
  writeObject [(textBytes "machine_id", quote machineID),
    (textBytes "events", writeArray (events.map marshalEvent))]

/-! ## Reading -/

/-- Keys are compared without regard to case; of the characters outside ASCII only the long s and
the Kelvin sign have a counterpart in a key. -/
def foldChar (c : Char) : Char :=
  if c.toNat = 0x17f then 's' else if c.toNat = 0x212a then 'k' else c.toLower

def sameKey (key key' : GoString) : Bool :=
  (chars key).map (·.map foldChar) == (chars key').map (·.map foldChar)

/-- A string field; `null` leaves it as it is. -/
def storeText (old : GoString) : Json → Option GoString
  | .null => some old
  | .string text => some text
  | _ => none

/-- An `int64` field. -/
def storeInt (old : Int) : Json → Option Int
  | .null => some old
  | .number literal => parseInt64 literal
  | _ => none

/-- A pointer to a string; `null` is the nil pointer. -/
def storePointer : Json → Option (Option GoString)
  | .null => some none
  | .string text => some (some text)
  | _ => none

def storeField (e : ForwardedAuditEvent) (value : Json) : AuditField → Option ForwardedAuditEvent
  | .eventID => (storeText e.eventID value).map ({ e with eventID := · })
  | .kind => (storeText e.kind value).map ({ e with kind := · })
  | .timestamp => (storeText e.timestamp value).map ({ e with timestamp := · })
  | .sessionID => (storeText e.sessionID value).map ({ e with sessionID := · })
  | .userSub => (storeText e.userSub value).map ({ e with userSub := · })
  | .userName => (storeText e.userName value).map ({ e with userName := · })
  | .clientIP => (storeText e.clientIP value).map ({ e with clientIP := · })
  | .osUser => (storeText e.osUser value).map ({ e with osUser := · })
  | .direction => (storeText e.direction value).map ({ e with direction := · })
  | .mime => (storeText e.mime value).map ({ e with mime := · })
  | .result => (storeText e.result value).map ({ e with result := · })
  | .size => (storeInt e.size value).map ({ e with size := · })
  | .sha256 => (storeText e.sha256 value).map ({ e with sha256 := · })
  | .data => (storePointer value).map ({ e with data := · })

/-- A key that no field has is ignored. -/
def storeMember (member : GoString × Json) : Option ForwardedAuditEvent :=
  match AuditField.all.find? fun field => sameKey field.key member.1 with
  | some field => storeField e member.2 field
  | none => some e

/-- The zero value of the struct. -/
def zeroEvent : ForwardedAuditEvent := { eventID := [], kind := [] }

def decodeEvent : Json → Option ForwardedAuditEvent
  | .null => some zeroEvent
  | .object members => members.foldlM storeMember zeroEvent
  | _ => none

/-- `json.Unmarshal` into an event. -/
def unmarshalEvent (bytes : List UInt8) : Option ForwardedAuditEvent := (parse bytes).bind decodeEvent

/-- `forwardedAuditBatch`, `events` a slice that may be nil. -/
structure ForwardedAuditBatch where
  machineID : GoString := []
  events : Option (List ForwardedAuditEvent) := none
  deriving DecidableEq

def storeEvents : Json → Option (Option (List ForwardedAuditEvent))
  | .null => some none
  | .array items => (items.mapM decodeEvent).map some
  | _ => none

def storeBatchMember (batch : ForwardedAuditBatch) (member : GoString × Json) :
    Option ForwardedAuditBatch :=
  if sameKey (textBytes "machine_id") member.1 then
    (storeText batch.machineID member.2).map ({ batch with machineID := · })
  else if sameKey (textBytes "events") member.1 then
    (storeEvents member.2).map ({ batch with events := · })
  else some batch

def decodeBatch : Json → Option ForwardedAuditBatch
  | .null => some {}
  | .object members => members.foldlM storeBatchMember {}
  | _ => none

/-- `json.Unmarshal` into a batch. -/
def unmarshalBatch (bytes : List UInt8) : Option ForwardedAuditBatch := (parse bytes).bind decodeBatch

/-! ## Reading back -/

/-- The event as it comes out of its JSON text. -/
def sanitizeEvent : ForwardedAuditEvent where
  eventID := sanitize e.eventID
  kind := sanitize e.kind
  timestamp := sanitize e.timestamp
  sessionID := sanitize e.sessionID
  userSub := sanitize e.userSub
  userName := sanitize e.userName
  clientIP := sanitize e.clientIP
  osUser := sanitize e.osUser
  direction := sanitize e.direction
  mime := sanitize e.mime
  result := sanitize e.result
  size := e.size
  sha256 := sanitize e.sha256
  data := e.data.map sanitize

open AuditField

/-- The keys of the source are compared letter by letter. -/
theorem sameKey_textBytes (key key' : String) : sameKey (textBytes key) (textBytes key') =
    (key.toList.map (some ∘ foldChar) == key'.toList.map (some ∘ foldChar)) := by
  rw [sameKey, chars_textBytes, chars_textBytes, List.map_map, List.map_map]
  rfl

theorem find_key (field : AuditField) :
    all.find? (fun field' => sameKey field'.key field.key) = some field := by
  cases field
  all_goals decide +kernel

theorem sanitize_key (field : AuditField) : sanitize field.key = field.key := by
  cases field
  all_goals exact sanitize_textBytes _

theorem storeMember_key (field : AuditField) (value : Json) :
    storeMember e (field.key, value) = storeField e value field := by
  rw [storeMember, find_key]

theorem FieldValue.denotes (depth : Nat) (value : FieldValue) : Denotes depth value.write value.json := by
  cases value with
  | text value => exact denotes_quote depth value
  | number value => exact denotes_writeInt depth value

/-- The members that a reader of JSON gets for an event. -/
def eventMembers : List (GoString × Json) :=
  (eventFields e).map fun (field, value) => (field.key, value.json)

theorem denotes_marshalEvent (depth : Nat) (e : ForwardedAuditEvent) :
    Denotes (depth + 1) (marshalEvent e) (.object (eventMembers e)) := by
  apply denotes_writeObject
  rw [eventMembers, List.forall₂_map_left_iff, List.forall₂_map_right_iff]
  exact List.forall₂_same.mpr fun entry _ =>
    ⟨(sanitize_key entry.1).symm, entry.2.denotes depth⟩

/-- One field of an event, stored into another event. -/
def copyField (e acc : ForwardedAuditEvent) (field : AuditField) : Option ForwardedAuditEvent :=
  match fieldValue e field with
  | some value => storeField acc value.json field
  | none => some acc

theorem foldlM_filterMap_fields (e acc : ForwardedAuditEvent) (fields : List AuditField) :
    ((fields.filterMap fun field => (fieldValue e field).map (field, ·)).map
      fun (field, value) => (field.key, value.json)).foldlM storeMember acc =
      fields.foldlM (copyField e) acc := by
  induction fields generalizing acc with
  | nil => rfl
  | cons field fields ih =>
    rw [List.foldlM_cons, copyField, List.filterMap_cons]
    cases fieldValue e field with
    | none => exact ih acc
    | some value =>
      show ((field.key, value.json) :: _).foldlM storeMember acc = _
      rw [List.foldlM_cons, storeMember_key]
      exact congrArg (storeField acc value.json field >>= ·) (funext ih)

variable {e acc : ForwardedAuditEvent} {field : AuditField}

/-- Leaving an empty string out is storing it over an empty one. -/
theorem copyField_omitEmpty {acc' : ForwardedAuditEvent} {value : GoString}
    (hvalue : fieldValue e field = omitEmpty value) (hzero : storeField acc (.string []) field = some acc)
    (hstore : storeField acc (.string (sanitize value)) field = some acc') :
    copyField e acc field = some acc' := by
  rw [copyField, hvalue, omitEmpty]
  by_cases hempty : value = []
  · rw [hempty] at hstore
    rw [if_pos hempty, ← hzero]
    exact hstore
  · rw [if_neg hempty]
    exact hstore

/-- An event with these fields copied from another, and the zero value in the other fields. -/
def copied (e : ForwardedAuditEvent) (done : List AuditField) : ForwardedAuditEvent where
  eventID := if .eventID ∈ done then sanitize e.eventID else []
  kind := if .kind ∈ done then sanitize e.kind else []
  timestamp := if .timestamp ∈ done then sanitize e.timestamp else []
  sessionID := if .sessionID ∈ done then sanitize e.sessionID else []
  userSub := if .userSub ∈ done then sanitize e.userSub else []
  userName := if .userName ∈ done then sanitize e.userName else []
  clientIP := if .clientIP ∈ done then sanitize e.clientIP else []
  osUser := if .osUser ∈ done then sanitize e.osUser else []
  direction := if .direction ∈ done then sanitize e.direction else []
  mime := if .mime ∈ done then sanitize e.mime else []
  result := if .result ∈ done then sanitize e.result else []
  size := if .size ∈ done then e.size else 0
  sha256 := if .sha256 ∈ done then sanitize e.sha256 else []
  data := if .data ∈ done then e.data.map sanitize else none

theorem copyField_size (hzero : acc.size = 0) :
    copyField e acc .size = if fitsInt64 e.size then some { acc with size := e.size } else none := by
  show (match if e.size = 0 then none else some (FieldValue.number e.size) with
    | some value => storeField acc value.json .size
    | none => some acc) = _
  by_cases hsize : e.size = 0
  · have hfits : fitsInt64 0 = true := by decide
    rw [if_pos hsize, hsize, if_pos hfits, ← hzero]
  · rw [if_neg hsize]
    show (parseInt64 (writeInt e.size)).map _ = _
    rw [parseInt64_writeInt]
    split
    all_goals rfl

theorem copyField_data (hzero : acc.data = none) :
    copyField e acc .data = some { acc with data := e.data.map sanitize } := by
  rw [copyField, fieldValue]
  cases e.data with
  | none =>
    show some acc = some { acc with data := none }
    rw [← hzero]
  | some data => rfl

theorem copyField_copied {done : List AuditField} (hnew : field ∉ done)
    (hfits : field = .size → fitsInt64 e.size = true) :
    copyField e (copied e done) field = some (copied e (field :: done)) := by
  cases field
  case eventID | kind | timestamp | result =>
    show some _ = some _
    simp [copied]
  case size =>
    rw [copyField_size (by simp [copied, hnew]), if_pos (hfits rfl)]
    simp [copied]
  case data =>
    rw [copyField_data (by simp [copied, hnew])]
    simp [copied]
  all_goals
    -- the field is still empty, and then it is the one that was written
    refine copyField_omitEmpty rfl ?_ ?_
    · simp [storeField, storeText, copied, hnew]
    · simp [storeField, storeText, copied]

theorem foldlM_copyField (fields done : List AuditField) (hnodup : fields.Nodup)
    (hnew : ∀ field ∈ fields, field ∉ done) (hfits : size ∈ fields → fitsInt64 e.size = true) :
    fields.foldlM (copyField e) (copied e done) = some (copied e (fields.reverse ++ done)) := by
  induction fields generalizing done with
  | nil => rfl
  | cons field fields ih =>
    obtain ⟨hfield, hnodup⟩ := List.nodup_cons.mp hnodup
    have hcopy : copyField e (copied e done) field = some (copied e (field :: done)) := by
      refine copyField_copied (hnew field List.mem_cons_self) fun heq => hfits ?_
      rw [heq]
      exact List.mem_cons_self
    have hnew' : ∀ field' ∈ fields, field' ∉ field :: done := by
      intro field' hmem hdone
      rcases List.mem_cons.mp hdone with rfl | hdone
      · exact hfield hmem
      · exact hnew field' (List.mem_cons_of_mem _ hmem) hdone
    have hrest := ih (field :: done) hnodup hnew' fun hmem => hfits (List.mem_cons_of_mem _ hmem)
    rw [List.foldlM_cons, hcopy, List.reverse_cons, List.append_assoc]
    exact hrest

/-- Decoding gives the event with its strings sanitized. -/
theorem decodeEvent_eventMembers (e : ForwardedAuditEvent) :
    decodeEvent (.object (eventMembers e)) = if fitsInt64 e.size then some (sanitizeEvent e) else none := by
  have hfold : decodeEvent (.object (eventMembers e)) = all.foldlM (copyField e) (copied e []) :=
    foldlM_filterMap_fields e zeroEvent all
  have hnodup : all.Nodup := by decide
  rw [hfold]
  by_cases hfits : fitsInt64 e.size = true
  · rw [if_pos hfits, foldlM_copyField _ _ hnodup (fun _ _ => List.not_mem_nil) fun _ => hfits]
    rfl
  · -- the fields before the size are stored, and then the size is not
    have hsplit : all = all.take 11 ++ size :: all.drop 12 := rfl
    have hbefore := foldlM_copyField (e := e) (all.take 11) [] (by decide)
      (fun _ _ => List.not_mem_nil) fun hmem => absurd hmem (by decide)
    rw [if_neg hfits, hsplit, List.foldlM_append, hbefore]
    show (copyField e (copied e _) .size).bind _ = none
    rw [copyField_size rfl, if_neg hfits]
    rfl

/-- An event is read back with its strings sanitized, if its size is a number that Go has. -/
theorem unmarshalEvent_marshalEvent (e : ForwardedAuditEvent) :
    unmarshalEvent (marshalEvent e) = if fitsInt64 e.size then some (sanitizeEvent e) else none := by
  have hparse := parse_eq_some (denotes_marshalEvent 9999 e)
  rw [unmarshalEvent, hparse]
  exact decodeEvent_eventMembers e

variable {value : FieldValue} {events : List ForwardedAuditEvent}

theorem mapM_decodeEvent (hfits : ∀ e ∈ events, fitsInt64 e.size = true) :
    (events.map fun e => Json.object (eventMembers e)).mapM decodeEvent =
      some (events.map sanitizeEvent) := by
  induction events with
  | nil => rfl
  | cons e events ih =>
    have hdecode : decodeEvent (.object (eventMembers e)) = some (sanitizeEvent e) := by
      rw [decodeEvent_eventMembers, if_pos (hfits e List.mem_cons_self)]
    rw [List.map_cons, List.mapM_cons, hdecode, ih fun x hx => hfits x (List.mem_cons_of_mem _ hx)]
    rfl

/-- The relay reads the batch that was sent, with its strings sanitized. -/
theorem unmarshalBatch_marshalBatch (machineID : GoString) (hfits : ∀ e ∈ events, fitsInt64 e.size = true) :
    unmarshalBatch (marshalBatch machineID events) =
      some { machineID := sanitize machineID, events := some (events.map sanitizeEvent) } := by
  have hevents : Denotes 9999 (writeArray (events.map marshalEvent))
      (.array (events.map fun e => .object (eventMembers e))) := by
    apply denotes_writeArray
    rw [List.forall₂_map_left_iff, List.forall₂_map_right_iff]
    exact List.forall₂_same.mpr fun e _ => denotes_marshalEvent 9997 e
  have hbatch : Denotes (9999 + 1) (marshalBatch machineID events)
      (.object [(textBytes "machine_id", .string (sanitize machineID)),
        (textBytes "events", .array (events.map fun e => .object (eventMembers e)))]) := by
    apply denotes_writeObject
    exact .cons ⟨(sanitize_textBytes _).symm, denotes_quote 9999 machineID⟩
      (.cons ⟨(sanitize_textBytes _).symm, hevents⟩ .nil)
  have hsame : sameKey (textBytes "machine_id") (textBytes "machine_id") = true ∧
      sameKey (textBytes "machine_id") (textBytes "events") = false ∧
      sameKey (textBytes "events") (textBytes "events") = true := by
    simp [sameKey_textBytes, foldChar]
  have hmachine : storeBatchMember {} (textBytes "machine_id", .string (sanitize machineID)) =
      some { machineID := sanitize machineID } := by
    rw [storeBatchMember, if_pos hsame.1]
    rfl
  rw [unmarshalBatch, parse_eq_some hbatch]
  show List.foldlM storeBatchMember {} _ = _
  rw [List.foldlM_cons, hmachine]
  show (storeBatchMember _ _).bind _ = _
  rw [storeBatchMember, if_neg (Bool.eq_false_iff.mp hsame.2.1), if_pos hsame.2.2, storeEvents,
    mapM_decodeEvent hfits]
  rfl

/-- The codec of the forwarder of a machine. -/
def jsonCodec (machineID : GoString) : AuditCodec where
  marshal := marshalEvent
  unmarshal := unmarshalEvent
  batchLength events := some (marshalBatch machineID events).length
  unmarshal_kind e e' hread hkind := by
    rw [unmarshalEvent_marshalEvent] at hread
    split at hread <;> cases hread
    show sanitize e.kind = e.kind
    rcases hkind with hkind | hkind
    all_goals
      rw [hkind]
      exact sanitize_textBytes _

/-! ## Lengths -/

/-- The strings of an event other than the id, the kind, the digest and the content. -/
def otherTexts (e : ForwardedAuditEvent) : List GoString :=
  [e.timestamp, e.sessionID, e.userSub, e.userName, e.clientIP, e.osUser, e.direction, e.mime, e.result]

def textChars (texts : List GoString) : Nat := (texts.map fun text => (chars text).length).sum

/-- The length of the content in quotes. -/
def dataLength (e : ForwardedAuditEvent) : Nat := (e.data.map fun data => (quote data).length).getD 0

/-- A bound for the text of a field. -/
def fieldCost (e : ForwardedAuditEvent) : AuditField → Nat
  | .eventID => 6 * (chars e.eventID).length + 2
  | .kind => 6 * (chars e.kind).length + 2
  | .timestamp => 6 * (chars e.timestamp).length + 2
  | .sessionID => 6 * (chars e.sessionID).length + 2
  | .userSub => 6 * (chars e.userSub).length + 2
  | .userName => 6 * (chars e.userName).length + 2
  | .clientIP => 6 * (chars e.clientIP).length + 2
  | .osUser => 6 * (chars e.osUser).length + 2
  | .direction => 6 * (chars e.direction).length + 2
  | .mime => 6 * (chars e.mime).length + 2
  | .result => 6 * (chars e.result).length + 2
  | .size => 20
  | .sha256 => 6 * (chars e.sha256).length + 2
  | .data => dataLength e

theorem length_omitEmpty_le {text : GoString} (h : omitEmpty text = some value) :
    value.write.length ≤ 6 * (chars text).length + 2 := by
  unfold omitEmpty at h
  split at h <;> cases h
  exact length_quote_le text

theorem length_fieldValue_le (hfits : fitsInt64 e.size = true) (h : fieldValue e field = some value) :
    value.write.length ≤ fieldCost e field := by
  cases field
  case eventID | kind | timestamp | result =>
    cases h
    exact length_quote_le _
  case size =>
    simp only [fieldValue] at h
    split at h <;> cases h
    exact length_writeInt_le hfits
  case data =>
    simp only [fieldValue] at h
    rw [fieldCost, dataLength]
    cases hdata : e.data with
    | none =>
      rw [hdata] at h
      cases h
    | some data =>
      rw [hdata] at h
      cases h
      exact Nat.le_refl _
  all_goals exact length_omitEmpty_le h

theorem length_key_le (field : AuditField) : field.key.length ≤ 10 := by
  cases field
  all_goals decide

theorem sum_memberCost_le (hfits : fitsInt64 e.size = true) (fields : List AuditField) :
    (((fields.filterMap fun field => (fieldValue e field).map (field, ·)).map
      fun (field, value) => (field.key, value.write)).map memberCost).sum ≤
      (fields.map fun field => fieldCost e field + 64).sum := by
  induction fields with
  | nil => exact Nat.le_refl 0
  | cons field fields ih =>
    rw [List.filterMap_cons]
    cases hvalue : fieldValue e field with
    | none => exact Nat.le_trans ih (Nat.le_add_left _ _)
    | some value =>
      have hlength := length_fieldValue_le hfits hvalue
      have hkey := length_key_le field
      have hcost : memberCost (field.key, value.write) ≤ fieldCost e field + 64 := by
        show 6 * field.key.length + 4 + value.write.length ≤ fieldCost e field + 64
        omega
      exact Nat.add_le_add hcost ih

theorem length_marshalEvent_le (hfits : fitsInt64 e.size = true) :
    (marshalEvent e).length ≤ 6 * (textChars (otherTexts e) + (chars e.eventID).length +
      (chars e.kind).length + (chars e.sha256).length) + dataLength e + 1000 := by
  have hobject := length_writeObject_le ((eventFields e).map fun (field, value) =>
    (field.key, value.write))
  have hsum := sum_memberCost_le hfits all
  rw [← eventFields] at hsum
  have htotal : (all.map fun field => fieldCost e field + 64).sum =
      6 * (textChars (otherTexts e) + (chars e.eventID).length + (chars e.kind).length +
        (chars e.sha256).length) + dataLength e + 940 := by
    simp only [all, textChars, otherTexts, fieldCost, List.map_cons, List.map_nil,
      List.sum_cons, List.sum_nil]
    omega
  rw [marshalEvent]
  omega

/-- How long a batch of one event is. -/
theorem length_marshalBatch_le (machineID : GoString) (e : ForwardedAuditEvent) :
    (marshalBatch machineID [e]).length ≤ 6 * (chars machineID).length + (marshalEvent e).length + 200 := by
  have hquote := length_quote_le machineID
  have hkeys : (textBytes "machine_id").length = 10 ∧ (textBytes "events").length = 6 := by decide
  have hobject := length_writeObject_le [(textBytes "machine_id", quote machineID),
    (textBytes "events", writeArray [marshalEvent e])]
  have harray : (writeArray [marshalEvent e]).length = (marshalEvent e).length + 2 := by
    rw [writeArray, separated, List.length_cons, List.length_append, List.length_singleton]
  simp only [List.map_cons, List.map_nil, List.sum_cons, List.sum_nil, memberCost, hkeys, harray]
    at hobject
  rw [marshalBatch, List.map_cons, List.map_nil]
  omega

end Rustcast.Relay
