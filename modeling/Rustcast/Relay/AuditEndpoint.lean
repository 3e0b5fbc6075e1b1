import Rustcast.Core.Rfc3339
import Rustcast.Core.Sha256
import Rustcast.Relay.AuditExactlyOnce
import Rustcast.Relay.AuditJson

/-!
# The audit endpoint of the relay

`registerRelayAuditRoute` of `audit_forward.go`: the checks on a request with a batch of events, and
what they make of the batches that the forwarder of `AuditForward` posts in JSON.
-/

namespace Rustcast.Relay

open AuditForwarder

/-! ## The handler -/

def auditForwardBodyLimit : Nat := 8388608

/-- The part of `machinePolicy` that the endpoint looks at. -/
structure CapturePolicy where
  captureContent : Bool
  maxBytes : Int
  deriving DecidableEq

/-- The registry and the store of the relay. -/
structure AuditRelay where
  registeredMachine : GoString → Bool
  displayName : GoString → GoString
  /-- `getPolicy` of the store, if there is one -/
  store : Option (GoString → CapturePolicy)
  /-- whether `insertForwardedAudit` succeeds -/
  inserts : Bool

/-- `hostLogin` -/
structure RelayLogin where
  machineID : GoString
  machineName : GoString
  eventID : GoString
  timestamp : GoString
  sessionID : GoString
  userSub : GoString
  userName : GoString
  clientIP : GoString
  osUser : GoString
  result : GoString
  deriving DecidableEq

/-- `auditEvent` -/
structure RelayClip where
  machineID : GoString
  machineName : GoString
  eventID : GoString
  timestamp : GoString
  sessionID : GoString
  userSub : GoString
  userName : GoString
  clientIP : GoString
  osUser : GoString
  direction : GoString
  mime : GoString
  result : GoString
  /-- nil if the policy does not want the content -/
  data : Option (List UInt8)
  size : Int
  sha256 : GoString
  deriving DecidableEq

inductive AuditReply where
  | refused (status : Nat) (error : String)
  /-- the rows that were inserted -/
  | accepted (logins : List RelayLogin) (clips : List RelayClip)
  deriving DecidableEq

def AuditReply.status : AuditReply → Nat
  | refused status _ => status
  | accepted .. => 200

/-- `relayAuditBody` of a body that has arrived whole or not. -/
def relayAuditBody (body : List UInt8) (whole : Bool) : Except AuditReply (List UInt8) :=
  if auditForwardBodyLimit < body.length then .error (.refused 413 "audit request exceeds 8 MiB")
  else if whole then .ok body
  else .error (.refused 400 "invalid audit request")

def checkEventID (id : GoString) : Except String Unit :=
  if id.length ≠ 32 then .error "invalid audit event ID"
  else if (hexDecode id).isNone then .error "invalid audit event ID"
  else .ok ()

def checkMetadata (e : ForwardedAuditEvent) : Except String Unit :=
  if e.size < 0 ∨ e.sha256.length ≠ 64 then .error "invalid clipboard audit metadata"
  else
    match hexDecode e.sha256 with
    | none => .error "invalid clipboard audit metadata"
    | some digest =>
      if digest.length ≠ 32 then .error "invalid clipboard audit metadata" else .ok ()

/-- The content of a clipboard event. -/
def checkContent (p : AuditPlatform) (e : ForwardedAuditEvent) : Except String (Option (List UInt8)) :=
  match e.data with
  | none => .ok none
  | some text =>
    match base64Decode text with
    | none => .error "invalid clipboard audit content"
    | some decoded =>
      if (decoded.length : Int) ≠ e.size ∨ sha256Hex p decoded ≠ e.sha256 then
        .error "clipboard audit digest mismatch"
      else .ok (some decoded)

/-- One round of the loop over the events: the row to insert, or the error of a 400. -/
def relayAuditEvent (p : AuditPlatform) (machineID machineName : GoString) (policy : CapturePolicy)
    (e : ForwardedAuditEvent) : Except String (RelayLogin ⊕ RelayClip) := do
  checkEventID e.eventID
  if e.kind = kindLogin then
    return .inl
      { machineID, machineName, eventID := e.eventID, timestamp := e.timestamp,
        sessionID := e.sessionID, userSub := e.userSub, userName := e.userName,
        clientIP := e.clientIP, osUser := e.osUser, result := e.result }
  else if e.kind = kindClipboard then do
    checkMetadata e
    let content ← checkContent p e
    -- the content was checked all the same
    let data := if !policy.captureContent || decide (policy.maxBytes < e.size) then none else content
    return .inr
      { machineID, machineName, eventID := e.eventID, timestamp := e.timestamp,
        sessionID := e.sessionID, userSub := e.userSub, userName := e.userName,
        clientIP := e.clientIP, osUser := e.osUser, direction := e.direction, mime := e.mime,
        result := e.result, data, size := e.size, sha256 := e.sha256 }
  else .error "unknown audit event kind"

/-- The handler, once the request is known to be a batch. -/
def relayAuditBatch (p : AuditPlatform) (relay : AuditRelay) (machineID : GoString)
    (events : List ForwardedAuditEvent) : AuditReply :=
  if auditForwardBatchLimit < events.length then .refused 400 "audit batch exceeds 50 events"
  else if relay.registeredMachine machineID = false then .refused 404 "unknown machine"
  else
    match relay.store with
    | none => .refused 503 "audit store unavailable"
    | some getPolicy =>
      match events.mapM (relayAuditEvent p machineID (relay.displayName machineID)
        (getPolicy machineID)) with
      | .error message => .refused 400 message
      | .ok rows =>
        if relay.inserts then .accepted (rows.filterMap Sum.getLeft?) (rows.filterMap Sum.getRight?)
        else .refused 503 "audit store unavailable"

/-- The handler of `registerRelayAuditRoute`. -/
def relayAudit (p : AuditPlatform) (relay : AuditRelay) (body : List UInt8) (whole : Bool) :
    AuditReply :=
  match relayAuditBody body whole with
  | .error reply => reply
  | .ok body =>
    match unmarshalBatch body with
    | some { machineID, events := some events } =>
      if machineID = [] then .refused 400 "invalid audit request"
      else relayAuditBatch p relay machineID events
    | _ => .refused 400 "invalid audit request"

/-- The answers after which the forwarder discards the batch. -/
def AuditReply.permanent (reply : AuditReply) : Bool := reply.status == 400 || reply.status == 413

/-! ## Events that the endpoint takes -/

/-- How long the machine id and the strings of an event other than its content may be together. -/
def textLimit : Nat := 262144

/-- A clipboard event with its content, which is left out when it is large or not captured. -/
structure ClipboardOk (p : AuditPlatform) (e : ForwardedAuditEvent) (content : List UInt8) : Prop where
  kind : e.kind = kindClipboard
  size : e.size = content.length
  fits : fitsInt64 e.size = true
  sha256 : e.sha256 = sha256Hex p content
  data : e.data = none ∨ e.data = some (base64Encode content) ∧ content.length ≤ auditForwardContentLimit

/-- An event as `enqueueLogin` and `enqueueClipboard` make it, possibly read back from its row. -/
structure AcceptableEvent (p : AuditPlatform) (machineID : GoString) (e : ForwardedAuditEvent) :
    Prop where
  id : ∃ random, random.length = 16 ∧ e.eventID = hexEncode random
  /-- a formatted time may take the place of a shorter text -/
  small : (chars machineID).length + textChars (otherTexts e) ≤ textLimit + 40
  kinds : (e.kind = kindLogin ∧ e.size = 0 ∧ e.sha256 = [] ∧ e.data = none) ∨
    ∃ content, ClipboardOk p e content

variable {random content : List UInt8} {now : Int}

variable {events batch : List ForwardedAuditEvent} {capture : Bool}

section Checks

variable {p : AuditPlatform} {machineID : GoString} {e : ForwardedAuditEvent}

theorem checkEventID_hexEncode (h : random.length = 16) : checkEventID (hexEncode random) = .ok () := by
  have hlength : (hexEncode random).length = 32 := by rw [length_hexEncode, h]
  rw [checkEventID, if_neg (not_not.mpr hlength), hexDecode_hexEncode]
  rfl

theorem length_sha256Hex (content : List UInt8) : (sha256Hex p content).length = 64 := by
  rw [sha256Hex, length_hexEncode, p.length_sha256]

namespace ClipboardOk

variable (h : ClipboardOk p e content)

include h

theorem checkMetadata : checkMetadata e = .ok () := by
  have hsize : ¬ (e.size < 0 ∨ e.sha256.length ≠ 64) := by
    rw [h.size, h.sha256, length_sha256Hex]
    omega
  rw [Relay.checkMetadata, if_neg hsize, h.sha256, sha256Hex, hexDecode_hexEncode]
  show (if (p.sha256 content).length ≠ 32 then Except.error _ else Except.ok ()) = _
  rw [if_neg (not_not.mpr (p.length_sha256 content))]

theorem checkContent : checkContent p e = .ok (e.data.map fun _ => content) := by
  rw [Relay.checkContent]
  rcases h.data with hdata | ⟨hdata, -⟩
  · rw [hdata]
    rfl
  · have hsame : ¬ ((content.length : Int) ≠ e.size ∨ sha256Hex p content ≠ e.sha256) := by
      rw [h.size, h.sha256]
      exact fun hne => hne.elim (fun hne => hne rfl) fun hne => hne rfl
    rw [hdata]
    simp only [base64Decode_base64Encode, if_neg hsame]
    rfl

/-- The clipboard row: the content goes if the policy does not want it. -/
theorem relayAuditEvent (hid : checkEventID e.eventID = .ok ()) (id name : GoString)
    (policy : CapturePolicy) :
    ∃ clip, relayAuditEvent p id name policy e = .ok (.inr clip) ∧
      clip.data = (if !policy.captureContent || decide (policy.maxBytes < e.size) then none
        else e.data.map fun _ => content) ∧
      clip.size = e.size ∧ clip.sha256 = e.sha256 := by
  have hne : kindClipboard ≠ kindLogin := by decide
  simp only [Relay.relayAuditEvent, hid, h.kind, if_neg hne, if_true, h.checkMetadata, h.checkContent]
  exact ⟨_, rfl, rfl, rfl, rfl⟩

end ClipboardOk

theorem AcceptableEvent.relayAuditEvent (h : AcceptableEvent p machineID e) (id name : GoString)
    (policy : CapturePolicy) : ∃ row, relayAuditEvent p id name policy e = .ok row := by
  obtain ⟨random, hrandom, hid⟩ := h.id
  have hcheck : checkEventID e.eventID = .ok () := by
    rw [hid]
    exact checkEventID_hexEncode hrandom
  rcases h.kinds with ⟨hkind, -⟩ | ⟨content, hclip⟩
  · simp only [Relay.relayAuditEvent, hcheck, hkind]
    exact ⟨_, rfl⟩
  · obtain ⟨clip, hrow, -⟩ := hclip.relayAuditEvent hcheck id name policy
    exact ⟨_, hrow⟩

theorem exists_mapM_relayAuditEvent (h : ∀ e ∈ events, AcceptableEvent p machineID e) (id name : GoString)
    (policy : CapturePolicy) : ∃ rows, events.mapM (relayAuditEvent p id name policy) = .ok rows := by
  induction events with
  | nil => exact ⟨[], rfl⟩
  | cons e events ih =>
    obtain ⟨row, hrow⟩ := (h e List.mem_cons_self).relayAuditEvent id name policy
    obtain ⟨rows, hrows⟩ := ih fun x hx => h x (List.mem_cons_of_mem _ hx)
    rw [List.mapM_cons, hrow]
    exact ⟨row :: rows, by rw [hrows]; rfl⟩

theorem relayAuditBatch_of_acceptable (h : ∀ e ∈ events, AcceptableEvent p machineID e)
    (hcount : events.length ≤ auditForwardBatchLimit) (relay : AuditRelay) (id : GoString) :
    (relayAuditBatch p relay id events).permanent = false := by
  rw [relayAuditBatch, if_neg (Nat.not_lt.mpr hcount)]
  split
  · rfl
  · cases relay.store with
    | none => rfl
    | some getPolicy =>
      obtain ⟨rows, hrows⟩ := exists_mapM_relayAuditEvent h id (relay.displayName id) (getPolicy id)
      simp only [hrows]
      split
      all_goals rfl

/-! ## What the JSON text keeps -/

theorem sanitize_hexEncode (bytes : List UInt8) : sanitize (hexEncode bytes) = hexEncode bytes :=
  sanitize_plain (isPlain_hexEncode bytes)

theorem textChars_sanitizeEvent (e : ForwardedAuditEvent) :
    textChars (otherTexts (sanitizeEvent e)) = textChars (otherTexts e) := by
  have htexts : otherTexts (sanitizeEvent e) = (otherTexts e).map sanitize := rfl
  rw [textChars, htexts, List.map_map]
  refine congrArg List.sum (List.map_congr_left fun text _ => ?_)
  exact length_chars_sanitize text

theorem ClipboardOk.sanitizeEvent (h : ClipboardOk p e content) :
    ClipboardOk p (sanitizeEvent e) content where
  kind := by
    have hclipboard : sanitize kindClipboard = kindClipboard := sanitize_textBytes _
    show sanitize e.kind = kindClipboard
    rw [h.kind, hclipboard]
  size := h.size
  fits := h.fits
  sha256 := by
    show sanitize e.sha256 = sha256Hex p content
    rw [h.sha256, sha256Hex, sanitize_hexEncode]
  data := by
    show e.data.map sanitize = none ∨ e.data.map sanitize = some (base64Encode content) ∧ _
    rcases h.data with hdata | ⟨hdata, hlimit⟩
    · rw [hdata]
      exact .inl rfl
    · rw [hdata]
      refine .inr ⟨?_, hlimit⟩
      exact congrArg some (sanitize_plain (isPlain_base64Encode content))

namespace AcceptableEvent

variable (h : AcceptableEvent p machineID e)

include h

/-- What is read from the JSON text of an acceptable event is acceptable. -/
theorem sanitizeEvent : AcceptableEvent p machineID (sanitizeEvent e) where
  id := by
    obtain ⟨random, hrandom, hid⟩ := h.id
    refine ⟨random, hrandom, ?_⟩
    show sanitize e.eventID = hexEncode random
    rw [hid, sanitize_hexEncode]
  small := by
    rw [textChars_sanitizeEvent]
    exact h.small
  kinds := by
    have hlogin : sanitize kindLogin = kindLogin := sanitize_textBytes _
    rcases h.kinds with ⟨hkind, hsize, hsha, hdata⟩ | ⟨content, hclip⟩
    · refine .inl ⟨?_, hsize, ?_, ?_⟩
      · show sanitize e.kind = kindLogin
        rw [hkind, hlogin]
      · show sanitize e.sha256 = []
        rw [hsha]
        rfl
      · show e.data.map sanitize = none
        rw [hdata]
        rfl
    · exact .inr ⟨content, hclip.sanitizeEvent⟩

theorem withTime (enqueuedAt : Int) : AcceptableEvent p machineID { e with enqueuedAt } where
  id := h.id
  small := h.small
  kinds := by
    rcases h.kinds with hlogin | ⟨content, hclip⟩
    · exact .inl hlogin
    · exact .inr ⟨content, hclip.kind, hclip.size, hclip.fits, hclip.sha256, hclip.data⟩

theorem fits : fitsInt64 e.size = true := by
  rcases h.kinds with ⟨-, hsize, -⟩ | ⟨content, hclip⟩
  · rw [hsize]
    decide
  · exact hclip.fits

/-! ## Sizes -/

theorem dataLength_le : dataLength e ≤ 5592410 := by
  have hnone : e.data = none → dataLength e ≤ 5592410 := by
    intro hdata
    rw [dataLength, hdata]
    exact Nat.zero_le _
  rcases h.kinds with ⟨-, -, -, hdata⟩ | ⟨content, hclip⟩
  · exact hnone hdata
  · rcases hclip.data with hdata | ⟨hdata, hlimit⟩
    · exact hnone hdata
    · have hquote : (quote (base64Encode content)).length = 4 * ((content.length + 2) / 3) + 2 := by
        rw [length_quote_plain (isPlain_base64Encode content), length_base64Encode]
      have hlimit : content.length ≤ 4194304 := hlimit
      rw [dataLength, hdata]
      show (quote (base64Encode content)).length ≤ 5592410
      omega

theorem shortTexts : (chars e.eventID).length + (chars e.kind).length + (chars e.sha256).length ≤ 200 := by
  obtain ⟨random, hrandom, hid⟩ := h.id
  have hidLength := length_chars_le e.eventID
  have hkindLength := length_chars_le e.kind
  have hshaLength := length_chars_le e.sha256
  have hclipboard : kindClipboard.length = 9 := by decide
  have hsha : e.sha256.length ≤ 64 := by
    rcases h.kinds with ⟨-, -, hsha, -⟩ | ⟨content, hclip⟩
    · rw [hsha]
      exact Nat.zero_le _
    · rw [hclip.sha256, length_sha256Hex]
  have hkind : e.kind.length ≤ 9 := by
    rcases h.kinds with ⟨hkind, -⟩ | ⟨content, hclip⟩
    · rw [hkind]
      exact Nat.le_add_left 5 4
    · rw [hclip.kind, hclipboard]
  rw [hid, length_hexEncode] at hidLength
  rw [hid]
  omega

/-- A batch of one event is within the limit of the endpoint, with the largest content, and with
six bytes for each character of the other strings. -/
theorem length_marshalBatch_le : (marshalBatch machineID [e]).length ≤ auditForwardBodyLimit := by
  have hbatch := Relay.length_marshalBatch_le machineID e
  have hevent := length_marshalEvent_le h.fits
  have hdata := h.dataLength_le
  have hshort := h.shortTexts
  have hsmall : (chars machineID).length + textChars (otherTexts e) ≤ 262184 := h.small
  show _ ≤ 8388608
  omega

end AcceptableEvent

/-- The endpoint has nothing to object to a batch that the forwarder may build. -/
theorem relayAudit_of_acceptable (hmachine : machineID ≠ [])
    (h : ∀ e ∈ batch, AcceptableEvent p machineID e) (hne : batch ≠ [])
    (hcount : batch.length ≤ auditForwardBatchLimit) (hfits : FitsBatch (jsonCodec machineID) batch)
    (relay : AuditRelay) :
    (relayAudit p relay (marshalBatch machineID batch) true).permanent = false := by
  have hlength : (marshalBatch machineID batch).length ≤ auditForwardBodyLimit := by
    rcases hfits with hone | ⟨n, hn, hle⟩
    -- the batch limit does not bind for a single event
    · match batch, hne, hone with
      | [e], _, _ => exact (h e List.mem_cons_self).length_marshalBatch_le
      | _ :: _ :: _, _, hone => exact absurd hone (by simp)
    · cases hn
      exact Nat.le_trans hle (by decide)
  have hbody : relayAuditBody (marshalBatch machineID batch) true =
      .ok (marshalBatch machineID batch) := by
    rw [relayAuditBody, if_neg (Nat.not_lt.mpr hlength)]
    rfl
  have hread := unmarshalBatch_marshalBatch machineID fun e he => (h e he).fits
  have hevents : ∀ e ∈ batch.map Relay.sanitizeEvent, AcceptableEvent p machineID e := by
    intro e he
    obtain ⟨x, hx, rfl⟩ := List.mem_map.mp he
    exact (h x hx).sanitizeEvent
  have hcount' : (batch.map Relay.sanitizeEvent).length ≤ auditForwardBatchLimit := by
    rw [List.length_map]
    exact hcount
  simp only [relayAudit, hbody, hread, if_neg (sanitize_ne_nil hmachine)]
  exact relayAuditBatch_of_acceptable hevents hcount' relay (sanitize machineID)

end Checks

/-! ## Runs -/

def HostLogin.texts (ev : HostLogin) : List GoString :=
  [ev.timestamp, ev.sessionID, ev.userSub, ev.userName, ev.clientIP, ev.osUser, ev.result]

/-- The strings of a clipboard event other than its content. -/
def AuditEvent.texts (ev : AuditEvent) : List GoString :=
  [ev.timestamp, ev.sessionID, ev.userSub, ev.userName, ev.clientIP, ev.osUser, ev.direction,
    ev.mime, ev.result]

/-- The machine id and the strings other than content have 256 KiB together. The length of the
content is an `int64`, as in Go that of every slice. -/
def FieldsFit (machineID : GoString) : ForwardEvent → Prop
  | .enqueueLogin _ ev => (machineID :: ev.texts).flatten.length ≤ textLimit
  | .enqueueClipboard _ ev _ =>
    (machineID :: ev.texts).flatten.length ≤ textLimit ∧ fitsInt64 ev.data.length = true
  | _ => True

instance (machineID : GoString) (e : ForwardEvent) : Decidable (FieldsFit machineID e) := by
  unfold FieldsFit
  split <;> infer_instance

section Runs

variable {p : AuditPlatform} {machineID : GoString} {retention : Int} {s s' : AuditForwarder}
  {ev : ForwardEvent}

theorem textChars_cons (text : GoString) (texts : List GoString) :
    textChars (text :: texts) = (chars text).length + textChars texts := rfl

theorem textChars_le (texts : List GoString) : textChars texts ≤ texts.flatten.length := by
  induction texts with
  | nil => exact Nat.le_refl 0
  | cons text texts ih =>
    have hchars := length_chars_le text
    rw [textChars_cons, List.flatten_cons, List.length_append]
    omega

theorem length_auditTimestamp_le (now : Int) (timestamp : GoString) :
    (auditTimestamp p now timestamp).length ≤ timestamp.length + 40 := by
  have hformat := p.length_formatTime now
  unfold auditTimestamp
  split
  all_goals omega

/-- A formatted time in the place of a text that is no time adds 40 bytes at most. -/
theorem textChars_timestamp_le {timestamp : GoString} {texts : List GoString} (now : Int)
    (hfits : (machineID :: timestamp :: texts).flatten.length ≤ textLimit) :
    (chars machineID).length + textChars (auditTimestamp p now timestamp :: texts) ≤ textLimit + 40 := by
  have hmachine := length_chars_le machineID
  have htime := length_auditTimestamp_le (p := p) now timestamp
  have htimeChars := length_chars_le (auditTimestamp p now timestamp)
  have htexts := textChars_le texts
  rw [List.flatten_cons, List.flatten_cons, List.length_append, List.length_append] at hfits
  rw [textChars_cons]
  omega

theorem acceptable_loginEvent {ev : HostLogin} (hrandom : random.length = 16)
    (hfits : (machineID :: ev.texts).flatten.length ≤ textLimit) :
    AcceptableEvent p machineID (loginEvent p now random ev) where
  id := ⟨random, hrandom, rfl⟩
  small := by
    have hsmall := textChars_timestamp_le (p := p) now hfits
    -- a login has no direction and no type
    have htexts : textChars (otherTexts (loginEvent p now random ev)) =
        textChars (auditTimestamp p now ev.timestamp :: ev.texts.tail) := by
      simp [textChars, otherTexts, loginEvent, HostLogin.texts, chars, charsFrom]
    rw [htexts]
    exact hsmall
  kinds := .inl ⟨rfl, rfl, rfl, rfl⟩

theorem clipboardOk_clipboardEvent {ev : AuditEvent} (hsize : fitsInt64 ev.data.length = true) :
    ClipboardOk p (clipboardEvent p now random ev capture) ev.data where
  kind := rfl
  size := rfl
  fits := hsize
  sha256 := rfl
  data := by
    simp only [clipboardEvent]
    split
    · exact .inl rfl
    next hlarge =>
      split
      next hcapture =>
        rw [hcapture, Bool.true_and, decide_eq_true_eq] at hlarge
        exact .inr ⟨rfl, Nat.not_lt.mp hlarge⟩
      · exact .inl rfl

theorem acceptable_clipboardEvent {ev : AuditEvent} (hrandom : random.length = 16)
    (hfits : (machineID :: ev.texts).flatten.length ≤ textLimit) (hsize : fitsInt64 ev.data.length = true) :
    AcceptableEvent p machineID (clipboardEvent p now random ev capture) where
  id := ⟨random, hrandom, rfl⟩
  small := textChars_timestamp_le now hfits
  kinds := .inr ⟨ev.data, clipboardOk_clipboardEvent hsize⟩

/-- The invariant of `AuditForward`, with what the queued events look like. -/
structure PostInv (p : AuditPlatform) (machineID : GoString) (s : AuditForwarder) : Prop where
  forward : ForwardInv (jsonCodec machineID) s
  events : ∀ e ∈ s.enqueued, AcceptableEvent p machineID e
  posted : ∀ batch answer, s.loop = .posting batch answer → batch ≠ []

section

variable (h : PostInv p machineID s)

include h

theorem postInv_step (hfits : FieldsFit machineID ev)
    (hstep : s.step (jsonCodec machineID) p retention ev = some s') : PostInv p machineID s' where
  forward := forwardInv_step h.forward hstep
  events := by
    refine step_enqueued (fun random login hev hnew => ?_) (fun random event capture hev hnew => ?_)
      h.events hstep
    · rw [hev] at hfits
      exact (acceptable_loginEvent hnew.1 hfits).withTime s.clock
    · rw [hev] at hfits
      exact (acceptable_clipboardEvent hnew.1 hfits.1 hfits.2).withTime s.clock
  posted batch answer hloop := by
    rcases step_posting hstep hloop with ⟨answer', hbefore, -⟩ | ⟨-, hne⟩
    · exact h.posted batch answer' hbefore
    · exact hne

/-- Every copy of a queued event is acceptable, whether it was read back from its row or not. -/
theorem PostInv.acceptable {e : ForwardedAuditEvent} (he : e ∈ s.held) : AcceptableEvent p machineID e := by
  obtain ⟨original, horiginal, hcopy⟩ := h.forward.sourced.copies e he
  have hok := h.events original horiginal
  rcases hcopy with rfl | ⟨-, event, enqueuedAt, hread, rfl⟩
  · exact hok
  -- the row was written from the original, so its strings are sanitized
  · have hread : unmarshalEvent (marshalEvent original) = some event := hread
    rw [unmarshalEvent_marshalEvent, if_pos hok.fits] at hread
    cases hread
    exact hok.sanitizeEvent.withTime enqueuedAt

/-- The answer to the batch that is on its way, whatever the relay knows and stores. -/
theorem PostInv.not_permanent (hmachine : machineID ≠ []) {answer : PostAnswer}
    (hloop : s.loop = .posting batch answer) (relay : AuditRelay) :
    (relayAudit p relay (marshalBatch machineID batch) true).permanent = false := by
  have hinflight : s.loop.inflight = batch := by rw [hloop]; rfl
  have hsmall := h.forward.loop.small
  have hfits := h.forward.loop.fits
  rw [hinflight] at hsmall hfits
  refine relayAudit_of_acceptable hmachine (fun e he => ?_) (h.posted batch answer hloop) hsmall hfits relay
  exact h.acceptable (held_inflight (hinflight ▸ he))

end

end Runs

/-- A rejection is an answer that a relay gives to the batch. -/
def AnswersBatch (p : AuditPlatform) (machineID : GoString) (s : AuditForwarder)
    (ev : ForwardEvent) : Prop :=
  ev = .reject → ∃ relay batch, s.loop = .posting batch .sent ∧
    (relayAudit p relay (marshalBatch machineID batch) true).permanent = true

/-- No batch on its way can be answered with 400 or 413, and none is about to be discarded. -/
def BatchesAccepted (p : AuditPlatform) (machineID : GoString) (s : AuditForwarder) : Prop :=
  (∀ batch answer, s.loop = .posting batch answer → ∀ relay,
    (relayAudit p relay (marshalBatch machineID batch) true).permanent = false) ∧
  ∀ batch, s.loop ≠ .posting batch .rejected

/-- In every run in which the fields of the events fit and a rejection is the answer of some relay, no batch
on its way is answered with 400 or 413, and none is discarded. -/
theorem audit_batches_accepted (p : AuditPlatform) (machineID : GoString) (hmachine : machineID ≠ [])
    (retention clock : Int) (es : List ForwardEvent)
    (hrun : Lts.Along (step (jsonCodec machineID) p retention)
      (fun s ev => FieldsFit machineID ev ∧ AnswersBatch p machineID s ev) { clock } es) :
    Lts.Throughout (step (jsonCodec machineID) p retention)
      (BatchesAccepted p machineID) { clock } es := by
  have hinv : Lts.Throughout (step (jsonCodec machineID) p retention)
      (fun s => PostInv p machineID s ∧ ∀ batch, s.loop ≠ .posting batch .rejected)
      { clock } es := by
    refine Lts.throughout_of_along (fun s ev s' h hok hstep => ?_) ?_ hrun
    · refine ⟨postInv_step h.1 hok.1 hstep, fun batch hloop => ?_⟩
      rcases step_posting hstep hloop with ⟨answer', hbefore, hrejected⟩ | ⟨hsent, -⟩
      · rcases hrejected rfl with rfl | hev
        · exact h.2 batch hbefore
        · -- the relay would have had to refuse the batch
          obtain ⟨relay, posted, hposted, hpermanent⟩ := hok.2 hev
          rw [h.1.not_permanent hmachine hposted relay] at hpermanent
          cases hpermanent
      · cases hsent
    · exact ⟨⟨forwardInv_start clock, nofun, nofun⟩, nofun⟩
  exact hinv.mono fun s h =>
    ⟨fun _ _ => h.1.not_permanent hmachine, h.2⟩

/-- A login and a captured clipboard event, which are posted together. -/
def twoEventsRun : List ForwardEvent :=
  [.enqueueLogin (List.replicate 16 0) { userName := textBytes "ada" },
    .enqueueClipboard (List.replicate 16 1) { mime := textBytes "text/plain", data := [1, 2, 3] } true,
    .nextBatch]

/-- The digests and times of Go, for timestamps that are left out or in RFC 3339. -/
def goPlatform : AuditPlatform where
  sha256
  length_sha256
  parsesTime timestamp := !timestamp.isEmpty
  -- no instant of 64 bits has a longer text
  formatTime instant := (formatNano instant).take 40
  length_formatTime _ := List.length_take_le _ _

theorem audit_batches_accepted_twoEventsRun :
    (Lts.run (step (jsonCodec (textBytes "m")) goPlatform 0) { clock := 0 }
        twoEventsRun).map (·.loop.inflight.length) = some 2 ∧
      Lts.Throughout (step (jsonCodec (textBytes "m")) goPlatform 0)
        (BatchesAccepted goPlatform (textBytes "m")) { clock := 0 } twoEventsRun := by
  have hfits : ∀ ev ∈ twoEventsRun, FieldsFit (textBytes "m") ev ∧ ev ≠ .reject := by decide
  refine ⟨by decide +kernel, audit_batches_accepted goPlatform (textBytes "m") (by decide) 0 0
    twoEventsRun ?_⟩
  exact Lts.along_of_forall_mem fun ev hev s =>
    ⟨(hfits ev hev).1, fun hreject => absurd hreject (hfits ev hev).2⟩

end Rustcast.Relay
