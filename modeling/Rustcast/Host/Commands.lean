import Rustcast.Core.Bytes

/-!
# Relay commands at the agent

`read_command` and `read_commands` of `flux-server/src/frame_protocol.rs`, with the checks
of `resolution.rs` and `clipboard.rs` that they call.

A byte stream is the list of bytes up to its end. What the code takes from elsewhere, the
JSON decoders and the clipboard settings, is a `CommandEnv`. `readCommands` keeps, besides
the commands it dispatches and what they deliver, the offset of every byte that was taken
for an opcode.
-/

namespace Rustcast.Host

open Bytes

/-! ## Commands -/

def cmdIdr : UInt8 := 0x01
def cmdInput : UInt8 := 0x02
def cmdBitrate : UInt8 := 0x03
def cmdViewers : UInt8 := 0x04
def cmdQuality : UInt8 := 0x05
def cmdResolution : UInt8 := 0x06
def cmdClipboard : UInt8 := 0x07

def maxInputBytes : Nat := 1024 * 1024

structure ModeRequest where
  width : Nat
  height : Nat
  deriving DecidableEq

def validateModeRequest (request : ModeRequest) : Except String ModeRequest :=
  if request.width < 640 ∨ request.height < 480 then .error "resolution is implausibly small"
  else if 2560 < request.width ∨ 1440 < request.height then .error "resolution exceeds 2560x1440"
  else if request.width % 2 ≠ 0 ∨ request.height % 2 ≠ 0 then
    .error "resolution dimensions must be even"
  else .ok request

structure ClipboardMessage where
  mime : String
  data : String
  deriving DecidableEq

def clipboardMimes : List String :=
  ["text/plain;charset=utf-8", "text/plain", "UTF8_STRING", "STRING", "TEXT"]

inductive Command where
  | idr
  | input (payload : List UInt8)
  | bitrate (kbps : Nat)
  | viewers (count : Nat)
  | quality (level fps : UInt8)
  | resolution (request : ModeRequest)
  | clipboard (payload : List UInt8)
  deriving DecidableEq

/-- What a command sends to the rest of the agent. -/
inductive Effect (Event : Type) where
  | idr
  | input (event : Event)
  | bitrate (kbps : Nat)
  | viewers (count : Nat)
  | quality (level fps : UInt8)
  | resolution (request : ModeRequest)
  | setText (text : String)
  deriving DecidableEq

structure CommandEnv (Event : Type) where
  decodeInput : List UInt8 → Option Event
  decodeClipboard : List UInt8 → Option ClipboardMessage
  clipboardEnabled : Bool
  clipboardMaxBytes : Nat

variable {Event : Type}

namespace CommandEnv

/-- `max_bytes.saturating_add(4096)`, for a 64-bit `usize`. -/
def clipboardCap (env : CommandEnv Event) : Nat := min (env.clipboardMaxBytes + 4096) (2 ^ 64 - 1)

def parseClipboardSet (env : CommandEnv Event) (payload : List UInt8) : Except String ClipboardMessage :=
  if env.clipboardCap < payload.length then .error "clipboard command exceeds size cap"
  else
    match env.decodeClipboard payload with
    | none => .error "invalid clipboard JSON"
    | some msg =>
      if clipboardMimes.contains msg.mime = false then .error "unsupported clipboard MIME type"
      else if env.clipboardMaxBytes < msg.data.utf8ByteSize then
        .error "clipboard payload exceeds size cap"
      else .ok msg

/-- What `read_command` does with a command it has read; a payload that does not decode or is
rejected is only logged. -/
def deliver (env : CommandEnv Event) : Command → List (Effect Event)
  | .idr => [.idr]
  | .input payload => (env.decodeInput payload).toList.map .input
  | .bitrate kbps => [.bitrate kbps]
  | .viewers count => [.viewers count]
  | .quality level fps => [.quality level fps]
  | .resolution request =>
    match validateModeRequest request with
    | .ok request => [.resolution request]
    | .error _ => []
  | .clipboard payload =>
    if env.clipboardEnabled then
      match env.parseClipboardSet payload with
      | .ok msg => [.setText msg.data]
      | .error _ => []
    else []

end CommandEnv

/-! ## Reading -/

def readLen (bytes : List UInt8) : Option (Nat × List UInt8) := do
  let (len, rest) ← readExact 4 bytes
  some (beNat len, rest)

/-- A length-prefixed payload of at most `cap` bytes. -/
def readPayload (cap : Nat) (bytes : List UInt8) : Option (List UInt8 × List UInt8) := do
  let (len, rest) ← readLen bytes
  if cap < len then none else readExact len rest

/-- `read_command`: the command, none for an unknown opcode, and the bytes behind it. The
result is `none` where reading stops. -/
def CommandEnv.readCommand (env : CommandEnv Event) :
    List UInt8 → Option (Option Command × List UInt8)
  | [] => none
  | cmd :: bytes =>
    if cmd = cmdIdr then some (some .idr, bytes)
    else if cmd = cmdInput then do
      let (payload, rest) ← readPayload maxInputBytes bytes
      some (some (.input payload), rest)
    else if cmd = cmdBitrate then do
      let (kbps, rest) ← readLen bytes
      some (some (.bitrate kbps), rest)
    else if cmd = cmdViewers then do
      let (count, rest) ← readLen bytes
      some (some (.viewers count), rest)
    else if cmd = cmdQuality then do
      let (body, rest) ← readExact 2 bytes
      some (some (.quality (body.getD 0 0) (body.getD 1 0)), rest)
    else if cmd = cmdResolution then do
      let (body, rest) ← readExact 4 bytes
      some (some (.resolution { width := beNat (body.take 2), height := beNat (body.drop 2) }), rest)
    else if cmd = cmdClipboard then do
      let (payload, rest) ← readPayload env.clipboardCap bytes
      some (some (.clipboard payload), rest)
    else some (none, bytes)

structure CommandTrace (Event : Type) where
  /-- where an opcode was read -/
  opcodes : List Nat := []
  dispatched : List Command := []
  effects : List (Effect Event) := []

/-- `read_commands`, at most `fuel` commands, from the given offset of the stream on. -/
def CommandEnv.readCommands (env : CommandEnv Event) : Nat → Nat → List UInt8 → CommandTrace Event
  | 0, _, _ => {}
  | _ + 1, _, [] => {}
  | fuel + 1, offset, cmd :: bytes =>
    match env.readCommand (cmd :: bytes) with
    | none => { opcodes := [offset] }
    | some (command, rest) =>
      let tail := env.readCommands fuel (offset + ((cmd :: bytes).length - rest.length)) rest
      { opcodes := offset :: tail.opcodes
        dispatched := command.toList ++ tail.dispatched
        effects := command.toList.flatMap env.deliver ++ tail.effects }

/-- `read_commands` on a whole stream. -/
def CommandEnv.readAll (env : CommandEnv Event) (offset : Nat) (bytes : List UInt8) :
    CommandTrace Event := env.readCommands bytes.length offset bytes

/-! ## Every command consumes its opcode -/

variable {bytes rest : List UInt8}

variable {n cap : Nat} {field payload : List UInt8} {env : CommandEnv Event} {command : Option Command}

theorem readLen_eq_some (h : readLen bytes = some (n, rest)) :
    ∃ field, field.length = 4 ∧ beNat field = n ∧ bytes = field ++ rest := by
  simp only [readLen, Option.bind_eq_bind, Option.bind_eq_some_iff, Prod.exists] at h
  obtain ⟨field, rest', hread, heq⟩ := h
  cases heq
  obtain ⟨hlen, hbytes⟩ := readExact_eq_some.mp hread
  exact ⟨field, hlen, rfl, hbytes⟩

theorem readLen_append (hlen : field.length = 4) (rest : List UInt8) :
    readLen (field ++ rest) = some (beNat field, rest) := by
  have hread : readExact 4 (field ++ rest) = some (field, rest) := by
    rw [← hlen]
    exact readExact_append field rest
  simp [readLen, hread]

theorem readPayload_append (hlen : field.length = 4) (hpayload : payload.length = beNat field)
    (hcap : payload.length ≤ cap) (rest : List UInt8) :
    readPayload cap (field ++ (payload ++ rest)) = some (payload, rest) := by
  have hle : ¬cap < beNat field := by omega
  rw [readPayload, readLen_append hlen]
  show (if cap < beNat field then none else _) = _
  rw [if_neg hle, ← hpayload]
  exact readExact_append payload rest

theorem readExact_length {xs : List UInt8} (h : readExact n bytes = some (xs, rest)) :
    rest.length ≤ bytes.length := by
  obtain ⟨-, rfl⟩ := readExact_eq_some.mp h
  simp

theorem readPayload_length (h : readPayload cap bytes = some (payload, rest)) :
    rest.length ≤ bytes.length := by
  simp only [readPayload, Option.bind_eq_bind, Option.bind_eq_some_iff, Prod.exists] at h
  obtain ⟨len, mid, hlen, hread⟩ := h
  obtain ⟨field, -, -, rfl⟩ := readLen_eq_some hlen
  split at hread
  · cases hread
  · have := readExact_length hread
    simp only [List.length_append]
    omega

theorem CommandEnv.readCommand_length (h : env.readCommand bytes = some (command, rest)) :
    rest.length < bytes.length := by
  cases bytes with
  | nil => cases h
  | cons cmd bytes =>
    -- whatever follows the opcode, the rest is a suffix of it
    suffices hle : rest.length ≤ bytes.length from Nat.lt_succ_of_le hle
    simp only [readCommand, Option.bind_eq_bind] at h
    split at h
    · cases h
      exact Nat.le_refl _
    split at h
    · obtain ⟨⟨payload, tail⟩, hread, heq⟩ := Option.bind_eq_some_iff.mp h
      cases heq
      exact readPayload_length hread
    iterate 2
      split at h
      · obtain ⟨⟨n, tail⟩, hread, heq⟩ := Option.bind_eq_some_iff.mp h
        cases heq
        obtain ⟨field, -, -, rfl⟩ := readLen_eq_some hread
        simp
    iterate 2
      split at h
      · obtain ⟨⟨body, tail⟩, hread, heq⟩ := Option.bind_eq_some_iff.mp h
        cases heq
        exact readExact_length hread
    split at h
    · obtain ⟨⟨payload, tail⟩, hread, heq⟩ := Option.bind_eq_some_iff.mp h
      cases heq
      exact readPayload_length hread
    · cases h
      exact Nat.le_refl _

/-- As much fuel as there are bytes is always enough. -/
theorem CommandEnv.readCommands_fuel (env : CommandEnv Event) {fuel fuel' : Nat} (offset : Nat)
    (hfuel : bytes.length ≤ fuel) (hfuel' : bytes.length ≤ fuel') :
    env.readCommands fuel offset bytes = env.readCommands fuel' offset bytes := by
  induction fuel generalizing fuel' offset bytes with
  | zero =>
    obtain rfl : bytes = [] := List.length_eq_zero_iff.mp (Nat.le_zero.mp hfuel)
    cases fuel' <;> rfl
  | succ fuel ih =>
    cases bytes with
    | nil => cases fuel' <;> rfl
    | cons cmd bytes =>
      cases fuel' with
      | zero => simp at hfuel'
      | succ fuel' =>
        simp only [readCommands]
        cases hread : env.readCommand (cmd :: bytes) with
        | none => rfl
        | some result =>
          obtain ⟨command, rest⟩ := result
          have hrest := readCommand_length hread
          have htail : ∀ o, env.readCommands fuel o rest = env.readCommands fuel' o rest :=
            fun o => ih o (by omega) (by omega)
          simp only [htail]

/-- The loop reads one command and goes on behind it. -/
theorem CommandEnv.readAll_of_readCommand (offset : Nat) (h : env.readCommand bytes = some (command, rest)) :
    env.readAll offset bytes =
      let tail := env.readAll (offset + (bytes.length - rest.length)) rest
      { opcodes := offset :: tail.opcodes
        dispatched := command.toList ++ tail.dispatched
        effects := command.toList.flatMap env.deliver ++ tail.effects } := by
  cases bytes with
  | nil => cases h
  | cons cmd bytes =>
    have hrest : rest.length ≤ bytes.length := Nat.lt_succ_iff.mp (readCommand_length h)
    show env.readCommands (bytes.length + 1) offset (cmd :: bytes) = _
    simp only [readCommands, h]
    rw [env.readCommands_fuel _ hrest (Nat.le_refl _)]
    rfl

end Rustcast.Host
