import Rustcast.Relay.Clipboard

/-!
# Clipboard content in the audit tables

A clipboard event reaches a row of `clipboard_events` on two ways: `insertAudit` writes it locally
(`storeAuditSink`), and in direct mode `enqueueClipboard` also forwards it in JSON to the relay,
whose endpoint applies the policy once more before `insertForwardedAudit`.
-/

namespace Rustcast.Relay

/-! ## Rows -/

/-- A row of `clipboard_events`; `none` is NULL. -/
structure ClipboardRow where
  ts : GoString
  machineID : GoString
  machineName : Option GoString
  sessionID : Option GoString
  userSub : Option GoString
  userName : Option GoString
  clientIP : Option GoString
  direction : GoString
  mime : Option GoString
  size : Int
  sha256 : GoString
  result : GoString
  content : Option (List UInt8)
  osUser : Option GoString
  eventID : Option GoString
  deriving DecidableEq

def nullIfEmpty (text : GoString) : Option GoString := if text = [] then none else some text

namespace RelayClip

/-- The bytes of `Data`, none if it is nil. -/
def payload (ev : RelayClip) : List UInt8 := ev.data.getD []

/-- Size and digest of the row: those of the data, if there is data. -/
def sizeAndSum (p : AuditPlatform) (ev : RelayClip) : Int × GoString :=
  match ev.data with
  | some data => (data.length, sha256Hex p data)
  | none => if ev.sha256 = [] then (0, sha256Hex p []) else (ev.size, ev.sha256)

/-- The fields that `enqueueClipboard` reads. -/
def toAuditEvent (ev : RelayClip) : AuditEvent where
  timestamp := ev.timestamp
  sessionID := ev.sessionID
  userSub := ev.userSub
  userName := ev.userName
  clientIP := ev.clientIP
  osUser := ev.osUser
  direction := ev.direction
  mime := ev.mime
  result := ev.result
  data := ev.payload

end RelayClip

def insertAuditRow (p : AuditPlatform) (now : Int) (ev : RelayClip) (capture : Bool) : ClipboardRow where
  ts := auditTimestamp p now ev.timestamp
  machineID := ev.machineID
  machineName := nullIfEmpty ev.machineName
  sessionID := nullIfEmpty ev.sessionID
  userSub := nullIfEmpty ev.userSub
  userName := nullIfEmpty ev.userName
  clientIP := nullIfEmpty ev.clientIP
  direction := ev.direction
  mime := nullIfEmpty ev.mime
  size := (ev.sizeAndSum p).1
  sha256 := (ev.sizeAndSum p).2
  result := ev.result
  content := if capture ∧ ev.payload ≠ [] then some ev.payload else none
  osUser := nullIfEmpty ev.osUser
  eventID := nullIfEmpty ev.eventID

/-- `recordClipboard` of the store. -/
def localRow (p : AuditPlatform) (now : Int) (policy : CapturePolicy) (ev : RelayClip) :
    ClipboardRow := insertAuditRow p now ev policy.captureContent

/-- What the relay stores of a forwarded event that it has read from JSON. -/
def forwardedRow (p : AuditPlatform) (now : Int) (machineID machineName : GoString)
    (policy : CapturePolicy) (e : ForwardedAuditEvent) : Option ClipboardRow :=
  match unmarshalEvent (marshalEvent e) with
  | none => none
  | some e =>
    match relayAuditEvent p machineID machineName policy e with
    | .ok (.inr clip) => some (insertAuditRow p now clip true)
    | _ => none

/-! ## Content -/

section

variable {p : AuditPlatform} {ev : RelayClip}

/-- Content is in a row only if the policy captures it and it is not too large. -/
def StoredByPolicy (policy : CapturePolicy) (size : Nat) (row : ClipboardRow) : Prop :=
  row.content.isSome = true → policy.captureContent = true ∧ size ≤ policy.maxBytes

/-- Both rows of an event of the given size. -/
structure CaptureFollowsPolicy (policy : CapturePolicy) (size : Nat) (row forwarded : ClipboardRow) :
    Prop where
  stored : StoredByPolicy policy size row
  storedForwarded : StoredByPolicy policy size forwarded
  agree : size ≤ auditForwardContentLimit →
    row.content.isSome = forwarded.content.isSome ∧ row.size = forwarded.size ∧
      row.sha256 = forwarded.sha256

theorem isSome_content (now : Int) (capture : Bool) :
    (insertAuditRow p now ev capture).content.isSome = true ↔ capture = true ∧ ev.payload ≠ [] := by
  show (if capture = true ∧ ev.payload ≠ [] then some ev.payload else none).isSome = true ↔ _
  split
  next h =>
    exact ⟨fun _ => h, fun _ => rfl⟩
  next h =>
    exact ⟨fun hsome => absurd hsome (by decide), fun hkeep => absurd hkeep h⟩

/-- An event that brings no size and digest of its own gets those of its data. -/
theorem sizeAndSum_own (hown : ev.size = 0 ∧ ev.sha256 = []) :
    ev.sizeAndSum p = (↑ev.payload.length, sha256Hex p ev.payload) := by
  unfold RelayClip.sizeAndSum RelayClip.payload
  cases ev.data with
  | some data => rfl
  | none =>
    rw [if_pos hown.2]
    rfl

/-- The event that the relay inserts has the size and the digest of the content, with or without
the content. -/
theorem sizeAndSum_forwarded {content : List UInt8} (hdata : ev.data = none ∨ ev.data = some content)
    (hsize : ev.size = content.length) (hsum : ev.sha256 = sha256Hex p content) :
    ev.sizeAndSum p = (↑content.length, sha256Hex p content) := by
  unfold RelayClip.sizeAndSum
  rcases hdata with hdata | hdata
  · have hne : ev.sha256 ≠ [] := by
      intro hnil
      have hlength := length_sha256Hex (p := p) content
      rw [← hsum, hnil] at hlength
      cases hlength
    rw [hdata]
    rw [if_neg hne, hsize, hsum]
  · rw [hdata]

theorem data_clipboardEvent (now : Int) (random : List UInt8) (capture : Bool) (ev : AuditEvent) :
    (clipboardEvent p now random ev capture).data.isSome = true ↔
      capture = true ∧ ev.data.length ≤ auditForwardContentLimit := by
  cases capture with
  | false => simp [clipboardEvent]
  | true =>
    simp only [clipboardEvent, Bool.true_and, decide_eq_true_eq, if_true, true_and]
    split
    next hlarge =>
      exact ⟨fun hsome => absurd hsome (by decide), fun hle => absurd hle (Nat.not_le.mpr hlarge)⟩
    next hsmall =>
      exact ⟨fun _ => Nat.not_lt.mp hsmall, fun _ => rfl⟩

/-- The row at the relay: size and digest always, content if the policy wants it and it was sent. -/
theorem forwardedRow_clipboardEvent (p : AuditPlatform) (policy : CapturePolicy) (ev : RelayClip)
    (now now' : Int) {random : List UInt8} (id name : GoString)
    (hrandom : random.length = 16) (hfits : fitsInt64 ev.payload.length = true) :
    ∃ row, forwardedRow p now' id name policy
        (clipboardEvent p now random ev.toAuditEvent policy.captureContent) = some row ∧
      row.size = ev.payload.length ∧ row.sha256 = sha256Hex p ev.payload ∧
      (row.content.isSome = true ↔ policy.captureContent = true ∧
        ev.payload.length ≤ policy.maxBytes ∧ ev.payload.length ≤ auditForwardContentLimit ∧
        ev.payload ≠ []) := by
  let e := clipboardEvent p now random ev.toAuditEvent policy.captureContent
  have hevent : ClipboardOk p e ev.toAuditEvent.data := clipboardOk_clipboardEvent hfits
  have hclip : ClipboardOk p (sanitizeEvent e) ev.payload := hevent.sanitizeEvent
  have hid : checkEventID (sanitizeEvent e).eventID = .ok () := by
    show checkEventID (sanitize (hexEncode random)) = _
    rw [sanitize_hexEncode]
    exact checkEventID_hexEncode hrandom
  have hread : unmarshalEvent (marshalEvent e) = some (sanitizeEvent e) := by
    have hfits' : fitsInt64 e.size = true := hfits
    rw [unmarshalEvent_marshalEvent, if_pos hfits']
  obtain ⟨clip, hrow, hdata, hsize, hsum⟩ := hclip.relayAuditEvent hid id name policy
  -- the content of the clip is that of the event or nothing
  have hsent : (sanitizeEvent e).data.isSome = true ↔ policy.captureContent = true ∧
      ev.payload.length ≤ auditForwardContentLimit := by
    show (e.data.map sanitize).isSome = true ↔ _
    rw [Option.isSome_map]
    exact data_clipboardEvent now random policy.captureContent ev.toAuditEvent
  have hwhole : clip.data = none ∨ clip.data = some ev.payload := by
    rw [hdata]
    split
    · exact .inl rfl
    · cases (sanitizeEvent e).data with
      | none => exact .inl rfl
      | some data => exact .inr rfl
  have hpayload : clip.payload ≠ [] ↔ policy.captureContent = true ∧
      ev.payload.length ≤ policy.maxBytes ∧ ev.payload.length ≤ auditForwardContentLimit ∧
      ev.payload ≠ [] := by
    have hsize' : (sanitizeEvent e).size = ev.payload.length := hclip.size
    rw [RelayClip.payload, hdata, hsize']
    cases hcapture : policy.captureContent with
    | false => simp
    | true =>
      by_cases hmax : policy.maxBytes < ev.payload.length
      · simp [hmax]
      · rw [hcapture] at hsent
        cases hdata' : (sanitizeEvent e).data with
        | none =>
          rw [hdata'] at hsent
          have hlarge : ¬ ev.payload.length ≤ auditForwardContentLimit := fun hle =>
            absurd (hsent.mpr ⟨rfl, hle⟩) (by decide)
          simp [hlarge]
        | some data =>
          rw [hdata'] at hsent
          have hsmall := (hsent.mp rfl).2
          have hmax' := Int.not_lt.mp hmax
          simp [hmax, hmax', hsmall]
  refine ⟨insertAuditRow p now' clip true, ?_, ?_, ?_, ?_⟩
  · show (match unmarshalEvent (marshalEvent e) with | none => none | some e => _) = _
    rw [hread]
    show (match relayAuditEvent p id name policy (sanitizeEvent e) with | .ok (.inr clip) => _ | _ => _) = _
    rw [hrow]
  · show (clip.sizeAndSum p).1 = _
    rw [sizeAndSum_forwarded hwhole (hsize.trans hclip.size) (hsum.trans hclip.sha256)]
  · show (clip.sizeAndSum p).2 = _
    rw [sizeAndSum_forwarded hwhole (hsize.trans hclip.size) (hsum.trans hclip.sha256)]
  · rw [isSome_content, hpayload]
    exact and_iff_right rfl

theorem isSome_localRow (p : AuditPlatform) (now : Int) (policy : CapturePolicy) (ev : RelayClip) :
    (localRow p now policy ev).content.isSome = true ↔
      policy.captureContent = true ∧ ev.payload ≠ [] := isSome_content now policy.captureContent

end

/-- Both rows of an event follow the policy, unless it is too large for the policy and content is
captured. The size and the digest are left to the sinks, as `auditClipboard` and
`handleClipboardFrame` do. -/
theorem clipboard_capture_follows_policy (p : AuditPlatform) (policy : CapturePolicy) (ev : RelayClip)
    (now now' now'' : Int) (random id name : List UInt8) (hrandom : random.length = 16)
    (hown : ev.size = 0 ∧ ev.sha256 = []) (hfits : fitsInt64 ev.payload.length = true) :
    ∃ row, forwardedRow p now'' id name policy
        (clipboardEvent p now' random ev.toAuditEvent policy.captureContent) = some row ∧
      (CaptureFollowsPolicy policy ev.payload.length (localRow p now policy ev) row ↔
        policy.captureContent = false ∨ ev.payload = [] ∨ ev.payload.length ≤ policy.maxBytes) := by
  obtain ⟨row, hrow, hsize, hsum, hcontent⟩ :=
    forwardedRow_clipboardEvent p policy ev now' now'' id name hrandom hfits
  refine ⟨row, hrow, ?_, ?_⟩
  · intro hfollows
    by_cases hnil : ev.payload = []
    · exact .inr (.inl hnil)
    · cases hcapture : policy.captureContent with
      | false => exact .inl rfl
      | true => exact .inr (.inr (hfollows.stored ((isSome_localRow p now policy ev).mpr ⟨hcapture, hnil⟩)).2)
  · intro hpolicy
    -- what the local row keeps is then within the maximum
    have hlocal : StoredByPolicy policy ev.payload.length (localRow p now policy ev) := by
      intro hsome
      obtain ⟨hcapture, hne⟩ := (isSome_localRow p now policy ev).mp hsome
      rcases hpolicy with hoff | hnil | hmax
      · exact absurd (hoff.symm.trans hcapture) (by decide)
      · exact absurd hnil hne
      · exact ⟨hcapture, hmax⟩
    have hown' := sizeAndSum_own (p := p) hown
    refine ⟨hlocal, fun hsome => ⟨(hcontent.mp hsome).1, (hcontent.mp hsome).2.1⟩, fun hlimit => ?_⟩
    refine ⟨?_, ?_, ?_⟩
    · rw [Bool.eq_iff_iff, hcontent]
      constructor
      · intro hsome
        obtain ⟨hcapture, hmax⟩ := hlocal hsome
        exact ⟨hcapture, hmax, hlimit, ((isSome_localRow p now policy ev).mp hsome).2⟩
      · rintro ⟨hcapture, -, -, hne⟩
        exact (isSome_localRow p now policy ev).mpr ⟨hcapture, hne⟩
    · rw [hsize]
      show (ev.sizeAndSum p).1 = _
      rw [hown']
    · rw [hsum]
      show (ev.sizeAndSum p).2 = _
      rw [hown']

/-- The event of the text of `greeting` with the given result. -/
def greetingEvent (result : ClipResult) : RelayClip :=
  (greeter true).sess.auditEvent .clientToHost greeting.mime (some greeting.data) result

/-- Two bytes under a maximum of one: the row of the rejected text has the text. -/
theorem clipboard_capture_ignores_maximum :
    ¬ ∀ (p : AuditPlatform) (policy : CapturePolicy) (ev : RelayClip)
        (now now' now'' : Int) (random id name : List UInt8), random.length = 16 →
      ev.size = 0 ∧ ev.sha256 = [] → fitsInt64 ev.payload.length = true →
      ∃ row, forwardedRow p now'' id name policy
          (clipboardEvent p now' random ev.toAuditEvent policy.captureContent) = some row ∧
        CaptureFollowsPolicy policy ev.payload.length (localRow p now policy ev) row := by
  intro hclaim
  obtain ⟨row, -, hfollows⟩ := hclaim goPlatform { captureContent := true, maxBytes := 1 }
    (greetingEvent .tooLarge) 0 0 0 (List.replicate 16 0) [] [] rfl ⟨rfl, rfl⟩ (by decide +kernel)
  have hsome := (isSome_localRow goPlatform 0 { captureContent := true, maxBytes := 1 }
    (greetingEvent .tooLarge)).mpr ⟨rfl, by decide +kernel⟩
  have hmax := (hfollows.stored hsome).2
  exact absurd hmax (by decide +kernel)

theorem clipboard_capture_follows_default_policy :
    ∃ row, forwardedRow goPlatform 0 [] [] defaultMachinePolicy.toCapturePolicy
        (clipboardEvent goPlatform 0 (List.replicate 16 0) (greetingEvent .ok).toAuditEvent true) =
          some row ∧
      CaptureFollowsPolicy defaultMachinePolicy.toCapturePolicy 2
        (localRow goPlatform 0 defaultMachinePolicy.toCapturePolicy (greetingEvent .ok)) row := by
  obtain ⟨row, hrow, hfollows⟩ := clipboard_capture_follows_policy goPlatform
    defaultMachinePolicy.toCapturePolicy (greetingEvent .ok) 0 0 0 (List.replicate 16 0) [] [] rfl
    ⟨rfl, rfl⟩ (by decide +kernel)
  exact ⟨row, hrow, hfollows.mpr (.inr (.inr (by decide)))⟩

end Rustcast.Relay
