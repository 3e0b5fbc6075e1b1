import Rustcast.Relay.AuditEndpoint
import Rustcast.Relay.DirectTicket
import Rustcast.Relay.Upstream

/-!
# Clipboard transfers at the relay

`clipboard.go` of the relay: the text that a viewer sends to the host (`handleClipboard`), the text
that the host sends to the viewers of a machine (`handleClipboardFrame`), and what both hand to the
audit sink.
-/

namespace Rustcast.Relay

open Bytes

/-! ## Policies -/

inductive ClipDirection where
  | hostToClient
  | clientToHost
  deriving DecidableEq

def ClipDirection.text : ClipDirection → GoString
  | hostToClient => textBytes "host_to_client"
  | clientToHost => textBytes "client_to_host"

inductive ClipResult where
  | ok
  | blocked
  | tooLarge
  | invalid
  deriving DecidableEq

def ClipResult.text : ClipResult → GoString
  | ok => textBytes "ok"
  | blocked => textBytes "blocked"
  | tooLarge => textBytes "too_large"
  | invalid => textBytes "invalid"

/-- `clipboard_mode`, read from the store or from a ticket. -/
inductive ClipMode where
  | both
  | off
  | hostToClient
  | clientToHost
  | other (text : GoString)
  deriving DecidableEq

structure MachinePolicy extends CapturePolicy where
  mode : ClipMode
  deriving DecidableEq

def defaultMachinePolicy : MachinePolicy where
  mode := .both
  maxBytes := defaultClipboardMaxBytes
  captureContent := true

def MachinePolicy.allows (policy : MachinePolicy) (direction : ClipDirection) : Bool :=
  match policy.mode with
  | .both => true
  | .off => false
  | .hostToClient => direction == .hostToClient
  | .clientToHost => direction == .clientToHost
  | .other _ => false

/-- What `getPolicy` of the store returns, if there is a store. -/
abbrev PolicyStore := Option (GoString → MachinePolicy)

/-! ## Payloads -/

def clipWireMime : GoString := textBytes "text/plain;charset=utf-8"

structure ClipboardPayload where
  mime : GoString := []
  data : GoString := []
  deriving DecidableEq

variable (msg : ClipboardPayload)

/-- `json.Marshal` of a payload. -/
def marshalClipboard : List UInt8 :=
  writeObject [(textBytes "mime", quote msg.mime), (textBytes "data", quote msg.data)]

def storeClipboardMember (member : GoString × Json) : Option ClipboardPayload :=
  if sameKey (textBytes "mime") member.1 then
    (storeText msg.mime member.2).map ({ msg with mime := · })
  else if sameKey (textBytes "data") member.1 then
    (storeText msg.data member.2).map ({ msg with data := · })
  else some msg

def decodeClipboard : Json → Option ClipboardPayload
  | .null => some {}
  | .object members => members.foldlM storeClipboardMember {}
  | _ => none

/-- `json.Unmarshal` into a payload. -/
def unmarshalClipboard (bytes : List UInt8) : Option ClipboardPayload :=
  (parse bytes).bind decodeClipboard

/-- `utf8.ValidString` -/
def validString (text : GoString) : Bool := (chars text).all Option.isSome

def maxControlMessage : Nat := 1048576

/-- `json.Marshal` of a `controlMessage` with data. -/
def marshalControl (type : GoString) (data : List UInt8) : List UInt8 :=
  writeObject [(textBytes "type", quote type), (textBytes "data", data)]

/-- A `controlMessage` with its data as a value, none if it is left out. -/
structure ControlMessage where
  type : GoString := []
  data : Option Json := none

def storeControlMember (message : ControlMessage) (member : GoString × Json) : Option ControlMessage :=
  if sameKey (textBytes "type") member.1 then
    (storeText message.type member.2).map ({ message with type := · })
  else if sameKey (textBytes "data") member.1 then some { message with data := some member.2 }
  else some message

def decodeControl : Json → Option ControlMessage
  | .null => some {}
  | .object members => members.foldlM storeControlMember {}
  | _ => none

/-- What a round of `readControlMessages` finds in the control stream. -/
inductive ControlRead where
  /-- the stream has ended -/
  | closed
  /-- the session fails with this error -/
  | failed (error : String)
  | message (message : ControlMessage) (rest : List UInt8)

def readControlMessage (stream : List UInt8) : ControlRead :=
  match readExact 4 stream with
  | none => .closed
  | some (length, rest) =>
    if beNat length = 0 ∨ maxControlMessage < beNat length then
      .failed "invalid control message length"
    else
      match readExact (beNat length) rest with
      | none => .closed
      | some (payload, rest) =>
        match (parse payload).bind decodeControl with
        | none => .failed "invalid control message"
        | some message => .message message rest

/-- The `clipboard` message for viewers. -/
def clipboardPayloadMessage : List UInt8 :=
  marshalControl (textBytes "clipboard") (marshalClipboard msg)

/-- Whether `writeControl` returns without error; `stream` says whether the control stream takes
the record. -/
def writeControl (payload : List UInt8) (stream : Bool) : Bool :=
  decide (payload.length ≤ maxControlMessage) && stream

def cmdClipboard : UInt8 := 0x07

def commandFrame (cmd : UInt8) (payload : List UInt8) : List UInt8 :=
  cmd :: (beBytes 4 (payload.length % 2 ^ 32) ++ payload)

/-! ## From a viewer to the host -/

/-- The machine of a session, as far as the audit rows name it. -/
structure ClipMachine where
  id : GoString
  name : GoString := []
  osUser : GoString := []
  deriving DecidableEq

structure ClipUser where
  sub : GoString
  name : GoString
  email : GoString
  deriving DecidableEq

structure ClipSession where
  id : GoString
  user : Option ClipUser := none
  clientIP : GoString := []
  machine : Option ClipMachine := none
  clipboardPolicyOverride : Option MachinePolicy := none
  deriving DecidableEq

/-- A call of `recordClipboard`. -/
structure ClipRecord where
  ev : RelayClip
  capture : Bool
  deriving DecidableEq

namespace ClipSession

def userSub (s : ClipSession) : GoString := (s.user.map (·.sub)).getD []

def userName (s : ClipSession) : GoString :=
  match s.user with
  | none => []
  | some user => if user.name = [] then user.email else user.name

/-- The event of `auditClipboard`; its time, id, size and digest are left to the sink. -/
def auditEvent (s : ClipSession) (direction : ClipDirection) (mime : GoString)
    (data : Option (List UInt8)) (result : ClipResult) : RelayClip where
  machineID := (s.machine.map (·.id)).getD []
  machineName := (s.machine.map (·.name)).getD []
  osUser := (s.machine.map (·.osUser)).getD []
  eventID := []
  timestamp := []
  sessionID := s.id
  userSub := s.userSub
  userName := s.userName
  clientIP := s.clientIP
  direction := direction.text
  mime
  data
  result := result.text
  size := 0
  sha256 := []

def sessionClipboardPolicy (s : ClipSession) (store : PolicyStore) : MachinePolicy :=
  match s.clipboardPolicyOverride, store, s.machine with
  | some policy, _, _ => policy
  | none, some getPolicy, some machine => getPolicy machine.id
  | none, _, _ => defaultMachinePolicy

end ClipSession

/-- The `clipboard-status` message. -/
structure ClipStatus where
  direction : ClipDirection
  result : ClipResult
  policy : ClipMode
  deriving DecidableEq

structure ClipboardHandled where
  records : List ClipRecord
  status : ClipStatus
  commands : HostCommands

/-- The payload of a message that is not `invalid`. -/
def readClipboard (raw : List UInt8) : Option ClipboardPayload :=
  (unmarshalClipboard raw).filter fun msg => msg.mime == clipWireMime && validString msg.data

/-- What becomes of a text under a policy. -/
def clipboardResult (policy : MachinePolicy) (direction : ClipDirection) (data : List UInt8) :
    ClipResult :=
  if policy.maxBytes < data.length then .tooLarge
  else if policy.allows direction = false then .blocked
  else .ok

def handleClipboard (s : ClipSession) (store : PolicyStore) (raw : List UInt8) (c : HostCommands) :
    Except String ClipboardHandled :=
  if s.machine.isNone then .error "no active machine session"
  else
    let policy := s.sessionClipboardPolicy store
    let answer (mime : GoString) (data : Option (List UInt8)) (result : ClipResult)
        (c : HostCommands) : ClipboardHandled :=
      { records := [⟨s.auditEvent .clientToHost mime data result, policy.captureContent⟩]
        status := ⟨.clientToHost, result, policy.mode⟩
        commands := c }
    match readClipboard raw with
    | none => .ok (answer [] none .invalid c)
    | some msg =>
      match clipboardResult policy .clientToHost msg.data with
      | .ok =>
        -- that the channel was full is only logged
        .ok (answer msg.mime (some msg.data) .ok
          (c.send (commandFrame cmdClipboard (marshalClipboard msg))).1)
      | result => .ok (answer msg.mime (some msg.data) result c)

/-! ## From the host to the viewers -/

structure ClipboardRate where
  windowStart : Int
  count : Nat := 0
  deriving DecidableEq

def clipboardRateLimit : Nat := 10

def ClipboardRate.allow (r : ClipboardRate) (now : Int) : Bool × ClipboardRate :=
  let r := if nanosPerSecond ≤ now - r.windowStart then { windowStart := now } else r
  (decide (r.count + 1 ≤ clipboardRateLimit), { r with count := r.count + 1 })

/-- A session of the machine with its registry entry, which has its own copy of the names. -/
structure ClipViewer where
  id : GoString
  userSub : GoString := []
  user : GoString := []
  clientIP : GoString := []
  sess : ClipSession
  /-- whether the control stream takes a record -/
  stream : Bool
  deriving DecidableEq

structure FrameHandled where
  records : List ClipRecord
  /-- the sessions that the text was written to -/
  written : List GoString
  deriving DecidableEq

namespace ClipViewer

/-- The fields of a row that come from the viewer. -/
def auditEvent (v : ClipViewer) (u : ClipMachine) (msg : ClipboardPayload) (result : ClipResult) :
    RelayClip where
  machineID := u.id
  machineName := u.name
  osUser := u.osUser
  eventID := []
  timestamp := []
  sessionID := v.id
  userSub := v.userSub
  userName := v.user
  clientIP := v.clientIP
  direction := ClipDirection.hostToClient.text
  mime := msg.mime
  data := some msg.data
  result := result.text
  size := 0
  sha256 := []

def result (v : ClipViewer) (store : PolicyStore) (msg : ClipboardPayload) : ClipResult :=
  clipboardResult (v.sess.sessionClipboardPolicy store) .hostToClient msg.data

/-- Whether the text goes to the viewer and arrives in its control stream. -/
def receives (v : ClipViewer) (store : PolicyStore) (msg : ClipboardPayload) : Bool :=
  v.result store msg == .ok && writeControl (clipboardPayloadMessage msg) v.stream

/-- The row for the viewer; a write that fails is only logged. -/
def record (v : ClipViewer) (u : ClipMachine) (store : PolicyStore) (msg : ClipboardPayload) :
    Option ClipRecord :=
  if v.result store msg = .ok ∧ v.receives store msg = false then none
  else some ⟨v.auditEvent u msg (v.result store msg), (v.sess.sessionClipboardPolicy store).captureContent⟩

end ClipViewer

/-- The row for a frame without a viewer. -/
def viewerlessRecord (u : ClipMachine) (policy : MachinePolicy) (mime : GoString)
    (data : Option (List UInt8)) (result : ClipResult) : ClipRecord where
  ev :=
    { machineID := u.id, machineName := u.name, osUser := u.osUser, eventID := [], timestamp := [],
      sessionID := [], userSub := [], userName := [], clientIP := [],
      direction := ClipDirection.hostToClient.text, mime, data, result := result.text, size := 0,
      sha256 := [] }
  capture := policy.captureContent

/-- The payload of a frame that is not `invalid`; the type may be any text. -/
def readClipboardFrame (data : List UInt8) : Option ClipboardPayload :=
  (unmarshalClipboard data).filter fun msg => msg.mime != [] && validString msg.data

/-- The work of `handleClipboardFrame` behind the rate limit. -/
def fanOutClipboard (u : ClipMachine) (store : PolicyStore) (viewers : List ClipViewer)
    (data : List UInt8) : FrameHandled :=
  let policy := (store.map (· u.id)).getD defaultMachinePolicy
  match readClipboardFrame data with
  | none => { records := [viewerlessRecord u policy [] none .invalid], written := [] }
  | some msg =>
    if viewers = [] then
      { records := [viewerlessRecord u policy msg.mime (some msg.data)
          (clipboardResult policy .hostToClient msg.data)], written := [] }
    else
      { records := viewers.filterMap (·.record u store msg)
        written := (viewers.filter (·.receives store msg)).map (·.id) }

def handleClipboardFrame (u : ClipMachine) (store : PolicyStore) (viewers : List ClipViewer)
    (rate : ClipboardRate) (now : Int) (data : List UInt8) : ClipboardRate × FrameHandled :=
  match rate.allow now with
  | (false, rate) => (rate, { records := [], written := [] })
  | (true, rate) => (rate, fanOutClipboard u store viewers data)

/-! ## Reading payloads back -/

theorem denotes_marshalClipboard (depth : Nat) (msg : ClipboardPayload) :
    Denotes (depth + 1) (marshalClipboard msg)
      (.object [(textBytes "mime", .string (sanitize msg.mime)),
        (textBytes "data", .string (sanitize msg.data))]) := by
  apply denotes_writeObject
  exact .cons ⟨(sanitize_textBytes _).symm, denotes_quote depth msg.mime⟩
    (.cons ⟨(sanitize_textBytes _).symm, denotes_quote depth msg.data⟩ .nil)

theorem decodeClipboard_members (mime data : GoString) :
    decodeClipboard (.object [(textBytes "mime", .string mime), (textBytes "data", .string data)]) =
      some { mime, data } := by
  have hsame : sameKey (textBytes "mime") (textBytes "mime") = true ∧
      sameKey (textBytes "mime") (textBytes "data") = false ∧
      sameKey (textBytes "data") (textBytes "data") = true := by
    simp [sameKey_textBytes, foldChar]
  have hmime : storeClipboardMember {} (textBytes "mime", .string mime) = some { mime } := by
    rw [storeClipboardMember, if_pos hsame.1]
    rfl
  have hdata : storeClipboardMember { mime } (textBytes "data", .string data) =
      some { mime, data } := by
    rw [storeClipboardMember, if_neg (Bool.eq_false_iff.mp hsame.2.1), if_pos hsame.2.2]
    rfl
  show List.foldlM storeClipboardMember {} _ = _
  rw [List.foldlM_cons, hmime, Option.bind_eq_bind, Option.bind_some, List.foldlM_cons, hdata]
  rfl

theorem unmarshalClipboard_marshalClipboard :
    unmarshalClipboard (marshalClipboard msg) =
      some { mime := sanitize msg.mime, data := sanitize msg.data } := by
  rw [unmarshalClipboard, parse_eq_some (denotes_marshalClipboard 9999 msg)]
  exact decodeClipboard_members _ _

/-! ## What the rows say -/

theorem ClipResult.text_injective {r r' : ClipResult} (h : r.text = r'.text) : r = r' := by
  revert h
  cases r <;> cases r' <;> decide +kernel

/-- Some row of the result stands for a text that was passed on. -/
def OkRow (records : List ClipRecord) : Prop := ∃ r ∈ records, r.ev.result = ClipResult.ok.text

/-- Some row says that the session was given the text. -/
def OkRowOf (id : GoString) (records : List ClipRecord) : Prop :=
  ∃ r ∈ records, r.ev.sessionID = id ∧ r.ev.result = ClipResult.ok.text

/-- The command with the text of a message went into the channel, behind what was there. -/
def Queued (raw : List UInt8) (c c' : HostCommands) : Prop :=
  ∃ msg, readClipboard raw = some msg ∧
    c'.commandChan = c.commandChan ++ [commandFrame cmdClipboard (marshalClipboard msg)]

/-- A message is well formed, and the policy lets its text through to the host. -/
def Accepted (policy : MachinePolicy) (raw : List UInt8) : Prop :=
  ∃ msg, readClipboard raw = some msg ∧ clipboardResult policy .clientToHost msg.data = .ok

theorem not_queued (raw : List UInt8) (c : HostCommands) : ¬ Queued raw c c := by
  rintro ⟨msg, -, hchan⟩
  have hlength := congrArg List.length hchan
  rw [List.length_append, List.length_singleton] at hlength
  omega

theorem queued_send (c : HostCommands) {raw : List UInt8} {msg : ClipboardPayload}
    (hread : readClipboard raw = some msg) :
    Queued raw c (c.send (commandFrame cmdClipboard (marshalClipboard msg))).1 ↔
      c.commandChan.length < commandCapacity := by
  unfold HostCommands.send
  split
  next hroom =>
    exact ⟨fun _ => hroom, fun _ => ⟨msg, hread, rfl⟩⟩
  next hfull =>
    exact ⟨fun hqueued => absurd hqueued (not_queued raw c), fun hroom => absurd hroom hfull⟩

variable {store : PolicyStore} {v : ClipViewer}

/-- The row and the status of a message agree; they say `ok` for a message that is accepted, which is
sent on, and a message that is not accepted queues nothing. -/
theorem handleClipboard_cases {s : ClipSession} {raw : List UInt8} {c : HostCommands}
    {handled : ClipboardHandled} (h : handleClipboard s store raw c = .ok handled) :
    ∃ mime data, handled.records =
        [⟨s.auditEvent .clientToHost mime data handled.status.result,
          (s.sessionClipboardPolicy store).captureContent⟩] ∧
      (handled.status.result = .ok ↔ Accepted (s.sessionClipboardPolicy store) raw) ∧
      ((handled.status.result ≠ .ok ∧ handled.commands = c) ∨
        (handled.status.result = .ok ∧ ∃ msg, readClipboard raw = some msg ∧
          handled.commands = (c.send (commandFrame cmdClipboard (marshalClipboard msg))).1)) := by
  unfold handleClipboard at h
  split at h
  · cases h
  · dsimp only at h
    split at h
    next hread =>
      cases h
      have hne : ClipResult.invalid ≠ .ok := by decide
      refine ⟨[], none, rfl, iff_of_false hne ?_, .inl ⟨hne, rfl⟩⟩
      rintro ⟨msg, hmsg, -⟩
      cases hread.symm.trans hmsg
    next msg hread =>
      split at h
      next hok =>
        cases h
        exact ⟨msg.mime, some msg.data, rfl, iff_of_true rfl ⟨msg, hread, hok⟩, .inr ⟨rfl, msg, hread, rfl⟩⟩
      next hresult =>
        cases h
        refine ⟨msg.mime, some msg.data, rfl, iff_of_false hresult ?_, .inl ⟨hresult, rfl⟩⟩
        rintro ⟨msg', hmsg', hok⟩
        cases hread.symm.trans hmsg'
        exact hresult hok

variable {r : ClipRecord} {msg : ClipboardPayload}

theorem okRow_singleton {result : ClipResult} (h : r.ev.result = result.text) :
    OkRow [r] ↔ result = .ok := by
  constructor
  · rintro ⟨x, hx, hok⟩
    rw [List.mem_singleton.mp hx, h] at hok
    exact ClipResult.text_injective hok
  · intro hok
    refine ⟨r, List.mem_singleton.mpr rfl, ?_⟩
    rw [h, hok]

theorem ClipViewer.record_eq_some {u : ClipMachine} (h : v.record u store msg = some r) :
    r.ev.sessionID = v.id ∧ r.ev.result = (v.result store msg).text ∧
      (v.result store msg = .ok → v.receives store msg = true) := by
  unfold record at h
  split at h <;> cases h
  rename_i hkept
  refine ⟨rfl, rfl, fun hok => ?_⟩
  cases hreceives : v.receives store msg with
  | true => rfl
  | false => exact absurd ⟨hok, hreceives⟩ hkept

theorem ClipViewer.result_of_receives (h : v.receives store msg = true) : v.result store msg = .ok := by
  unfold receives at h
  rw [Bool.and_eq_true] at h
  exact eq_of_beq h.1

/-- A viewer has a row unless a text that it should have got could not be written. -/
theorem ClipViewer.isSome_record (v : ClipViewer) (u : ClipMachine) (store : PolicyStore)
    (msg : ClipboardPayload) :
    (v.record u store msg).isSome = true ↔ v.result store msg ≠ .ok ∨ v.receives store msg = true := by
  unfold record
  split
  next hlost =>
    rw [hlost.2]
    constructor
    · intro h
      cases h
    · rintro (h | h)
      · exact absurd hlost.1 h
      · cases h
  next hkept =>
    refine ⟨fun _ => ?_, fun _ => rfl⟩
    by_cases hok : v.result store msg = .ok
    · refine .inr (Bool.eq_true_of_not_eq_false fun hfalse => hkept ⟨hok, hfalse⟩)
    · exact .inl hok

theorem okRowOf_fanOut (u : ClipMachine) (store : PolicyStore) (viewers : List ClipViewer)
    (data : List UInt8) (hv : v ∈ viewers) :
    OkRowOf v.id (fanOutClipboard u store viewers data).records ↔
      v.id ∈ (fanOutClipboard u store viewers data).written := by
  unfold fanOutClipboard
  split
  · -- the one row of a bad frame says `invalid`
    refine ⟨?_, fun h => absurd h List.not_mem_nil⟩
    rintro ⟨r, hr, -, hok⟩
    rw [List.mem_singleton.mp hr] at hok
    have hinvalid : ClipResult.invalid = .ok := ClipResult.text_injective hok
    cases hinvalid
  next msg _ =>
    rw [if_neg (List.ne_nil_of_mem hv)]
    constructor
    · rintro ⟨r, hr, hid, hok⟩
      obtain ⟨w, hw, hrecord⟩ := List.mem_filterMap.mp hr
      obtain ⟨hsession, hresult, hreceives⟩ := ClipViewer.record_eq_some hrecord
      rw [hresult] at hok
      refine List.mem_map.mpr ⟨w, List.mem_filter.mpr ⟨hw, ?_⟩, ?_⟩
      · exact hreceives (ClipResult.text_injective hok)
      · rw [← hsession, hid]
    · intro hmem
      obtain ⟨w, hw, hid⟩ := List.mem_map.mp hmem
      obtain ⟨hw, hreceives⟩ := List.mem_filter.mp hw
      have hok := ClipViewer.result_of_receives hreceives
      have hsome := (w.isSome_record u store msg).mpr (.inr hreceives)
      obtain ⟨r, hrecord⟩ := Option.isSome_iff_exists.mp hsome
      obtain ⟨hsession, hresult, -⟩ := ClipViewer.record_eq_some hrecord
      refine ⟨r, List.mem_filterMap.mpr ⟨w, hw, hrecord⟩, ?_, ?_⟩
      · rw [hsession, hid]
      · rw [hresult, hok]

theorem records_fanOut (u : ClipMachine) (store : PolicyStore) (viewers : List ClipViewer)
    (data : List UInt8) :
    (fanOutClipboard u store viewers data).records ≠ [] ↔
      ∀ msg, readClipboardFrame data = some msg → viewers = [] ∨
        ∃ v ∈ viewers, v.result store msg ≠ .ok ∨ v.receives store msg = true := by
  unfold fanOutClipboard
  split
  next hread =>
    exact ⟨fun _ msg hmsg => absurd (hread.symm.trans hmsg) (Option.some_ne_none msg).symm,
      fun _ => List.cons_ne_nil _ _⟩
  next msg hread =>
    split
    next hnil =>
      exact ⟨fun _ _ _ => .inl hnil, fun _ => List.cons_ne_nil _ _⟩
    next hne =>
      constructor
      · intro hrows msg' hmsg'
        cases hread.symm.trans hmsg'
        obtain ⟨r, hr⟩ := List.exists_mem_of_ne_nil _ hrows
        obtain ⟨v, hv, hrecord⟩ := List.mem_filterMap.mp hr
        refine .inr ⟨v, hv, (v.isSome_record u store msg).mp ?_⟩
        rw [hrecord]
        rfl
      · intro h
        rcases h msg hread with hnil | ⟨v, hv, hkept⟩
        · exact absurd hnil hne
        · obtain ⟨r, hrecord⟩ := Option.isSome_iff_exists.mp ((v.isSome_record u store msg).mpr hkept)
          exact List.ne_nil_of_mem (List.mem_filterMap.mpr ⟨v, hv, hrecord⟩)

/-- The row and the status of a viewer's message tell whether its text was queued for the host exactly
if the message is not to be accepted or the command channel has room; a frame of the host leaves an `ok`
row for exactly the viewers it was written to, and some row unless it was lost on the way to all. -/
theorem clipboard_rows_truthful (store : PolicyStore) :
    (∀ s raw c handled, handleClipboard s store raw c = .ok handled →
      (((OkRow handled.records ↔ Queued raw c handled.commands) ∧
          (handled.status.result = .ok ↔ Queued raw c handled.commands)) ↔
        ¬ Accepted (s.sessionClipboardPolicy store) raw ∨ c.commandChan.length < commandCapacity)) ∧
    (∀ u viewers rate now data, (rate.allow now).1 = true →
      let handled := (handleClipboardFrame u store viewers rate now data).2
      (∀ v ∈ viewers, OkRowOf v.id handled.records ↔ v.id ∈ handled.written) ∧
        (handled.records ≠ [] ↔
          ∀ msg, readClipboardFrame data = some msg → viewers = [] ∨
            ∃ v ∈ viewers, v.result store msg ≠ .ok ∨ v.receives store msg = true)) := by
  constructor
  · intro s raw c handled h
    obtain ⟨mime, data, hrecords, haccepted, hcases⟩ := handleClipboard_cases h
    have hrow : OkRow handled.records ↔ handled.status.result = .ok := by
      rw [hrecords]
      exact okRow_singleton rfl
    rw [hrow, and_self, ← haccepted]
    rcases hcases with ⟨hresult, hcommands⟩ | ⟨hresult, msg, hread, hcommands⟩
    · -- nothing was queued, and nobody says so
      rw [hcommands]
      exact ⟨fun _ => .inl hresult, fun _ =>
        ⟨fun hok => absurd hok hresult, fun hqueued => absurd hqueued (not_queued raw c)⟩⟩
    · rw [hcommands, queued_send c hread]
      constructor
      · intro htruth
        exact .inr (htruth.mp hresult)
      · rintro (hne | hroom)
        · exact absurd hresult hne
        · exact ⟨fun _ => hroom, fun _ => hresult⟩
  · intro u viewers rate now data hallow
    have hhandled : (handleClipboardFrame u store viewers rate now data).2 =
        fanOutClipboard u store viewers data := by
      unfold handleClipboardFrame
      cases hrate : rate.allow now with
      | mk allowed rate' =>
        rw [hrate] at hallow
        cases hallow
        rfl
    rw [hhandled]
    exact ⟨fun _ => okRowOf_fanOut u store viewers data, records_fanOut u store viewers data⟩

def greeting : ClipboardPayload := { mime := clipWireMime, data := textBytes "hi" }

def greeter (stream : Bool) : ClipViewer where
  id := textBytes "s1"
  sess := { id := textBytes "s1", machine := some { id := textBytes "m1" } }
  stream

theorem unmarshal_greeting : unmarshalClipboard (marshalClipboard greeting) = some greeting := by
  have hsame : sanitize greeting.mime = greeting.mime ∧ sanitize greeting.data = greeting.data :=
    ⟨sanitize_textBytes _, sanitize_textBytes _⟩
  rw [unmarshalClipboard_marshalClipboard, hsame.1, hsame.2]

theorem validString_textBytes (text : String) : validString (textBytes text) = true := by
  rw [validString, chars_textBytes, List.all_map]
  exact List.all_eq_true.mpr fun _ _ => rfl

theorem readClipboard_greeting : readClipboard (marshalClipboard greeting) = some greeting ∧
    readClipboardFrame (marshalClipboard greeting) = some greeting := by
  have hvalid : validString greeting.data = true := validString_textBytes "hi"
  have hmime : greeting.mime = clipWireMime ∧ greeting.mime ≠ [] := by
    simp [greeting, clipWireMime, textBytes_eq, String.utf8EncodeChar_ne_nil]
  rw [readClipboard, readClipboardFrame, unmarshal_greeting]
  constructor
  · simp [hvalid, hmime.1]
  · simp [hvalid, hmime.2]

theorem handleClipboard_greeting (c : HostCommands) :
    ∃ handled, handleClipboard (greeter true).sess none (marshalClipboard greeting) c = .ok handled ∧
      handled.status.result = .ok ∧
      handled.commands = (c.send (commandFrame cmdClipboard (marshalClipboard greeting))).1 := by
  have hmachine : (greeter true).sess.machine.isNone = false := rfl
  have hresult : clipboardResult ((greeter true).sess.sessionClipboardPolicy none) .clientToHost
      greeting.data = .ok := by decide +kernel
  unfold handleClipboard
  rw [hmachine, readClipboard_greeting.1]
  dsimp only
  rw [hresult]
  exact ⟨_, rfl, rfl, rfl⟩

theorem greeter_receives (stream : Bool) :
    (greeter stream).result none greeting = .ok ∧ (greeter stream).receives none greeting = stream := by
  cases stream <;> decide +kernel

/-- A full command channel and a viewer whose control stream has failed. -/
theorem clipboard_rows_untruthful :
    ¬ (∀ s store raw c handled, handleClipboard s store raw c = .ok handled →
      (OkRow handled.records ↔ Queued raw c handled.commands) ∧
        (handled.status.result = .ok ↔ Queued raw c handled.commands)) ∧
    ¬ (∀ u store viewers rate now data, (rate.allow now).1 = true →
      let handled := (handleClipboardFrame u store viewers rate now data).2
      (∀ v ∈ viewers, OkRowOf v.id handled.records ↔ v.id ∈ handled.written) ∧ handled.records ≠ []) := by
  constructor
  · intro hclaim
    let full : HostCommands := { commandChan := List.replicate 100 [] }
    obtain ⟨handled, hhandled, hstatus, hcommands⟩ := handleClipboard_greeting full
    have hqueued := (hclaim _ _ _ _ _ hhandled).2.mp hstatus
    rw [hcommands, queued_send full readClipboard_greeting.1] at hqueued
    exact absurd hqueued (by decide)
  · intro hclaim
    have hrows := (hclaim { id := textBytes "m1" } none [greeter false] { windowStart := 0 } 0
      (marshalClipboard greeting) (by decide)).2
    rcases (records_fanOut _ _ _ _).mp hrows greeting readClipboard_greeting.2 with hnil | ⟨v, hv, h⟩
    · cases hnil
    · rw [List.mem_singleton.mp hv] at h
      rcases h with hne | hfalse
      · exact hne rfl
      · cases hfalse

theorem clipboard_rows_truthful_greeting :
    (∃ handled, handleClipboard (greeter true).sess none (marshalClipboard greeting) {} = .ok handled ∧
      OkRow handled.records ∧ Queued (marshalClipboard greeting) {} handled.commands) ∧
    (handleClipboardFrame { id := textBytes "m1" } none [greeter true] { windowStart := 0 } 0
      (marshalClipboard greeting)).2.records ≠ [] := by
  constructor
  · obtain ⟨handled, hhandled, hstatus, -⟩ := handleClipboard_greeting {}
    have htruth := ((clipboard_rows_truthful none).1 _ _ _ _ hhandled).mpr (.inr (by decide))
    have hqueued := htruth.2.mp hstatus
    exact ⟨handled, hhandled, htruth.1.mpr hqueued, hqueued⟩
  · have hrows := ((clipboard_rows_truthful none).2 { id := textBytes "m1" } [greeter true]
      { windowStart := 0 } 0 (marshalClipboard greeting) (by decide)).2
    refine hrows.mpr fun msg hmsg => .inr ⟨greeter true, List.mem_singleton.mpr rfl, .inr ?_⟩
    cases readClipboard_greeting.2.symm.trans hmsg
    exact (greeter_receives true).2

end Rustcast.Relay
