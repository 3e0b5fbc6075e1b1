import Rustcast.Core.Chunks
import Rustcast.Host.ClipboardCommand

/-!
# Relay commands from encoder to agent

The relay encodes its commands with `u32Command` and `commandFrame` of `proto.go`, with
`resolutionCommand` of `webtransport.go`, and as plain byte strings. The agent's `read_commands`
reads them from a stream that may arrive in any chunks.
-/

namespace Rustcast.Relay

open Bytes

/-! ## The encoders of the relay -/

def cmdInput : UInt8 := 0x02
def cmdBitrate : UInt8 := 0x03
def cmdViewers : UInt8 := 0x04
def cmdQuality : UInt8 := 0x05
def cmdResolution : UInt8 := 0x06

def u32Command (cmdType : UInt8) (value : UInt32) : List UInt8 :=
  cmdType :: beBytes 4 value.toNat

/-- `resolutionCommand`: the low 16 bits of each dimension. -/
def resolutionCommand (width height : UInt32) : List UInt8 :=
  [cmdResolution, (width >>> 8).toUInt8, width.toUInt8, (height >>> 8).toUInt8, height.toUInt8]

inductive HostCommand where
  | idr
  | input (json : List UInt8)
  | bitrate (kbps : UInt32)
  | viewers (count : UInt32)
  | quality (level fps : UInt8)
  | resolution (width height : UInt16)
  | clipboard (payload : List UInt8)
  deriving DecidableEq

def HostCommand.encode : HostCommand → List UInt8
  | .idr => [cmdIDR]
  | .input json => commandFrame cmdInput json
  | .bitrate kbps => u32Command cmdBitrate kbps
  | .viewers count => u32Command cmdViewers count
  | .quality level fps => [cmdQuality, level, fps]
  | .resolution width height => resolutionCommand width.toUInt32 height.toUInt32
  | .clipboard payload => commandFrame cmdClipboard payload

end Rustcast.Relay

namespace Rustcast.Host

open Bytes Parse Chunks CommandEnv Command

variable {Event : Type}

/-! ## The agent, chunk by chunk -/

def readLenChunks (chunks : List (List UInt8)) : Option (Nat × List (List UInt8)) := do
  let (len, left) ← Chunks.readExact 4 chunks
  some (beNat len, left)

def readPayloadChunks (cap : Nat) (chunks : List (List UInt8)) :
    Option (List UInt8 × List (List UInt8)) := do
  let (len, left) ← readLenChunks chunks
  if cap < len then none else Chunks.readExact len left

/-- What `read_command` does behind the command byte. -/
def CommandEnv.readBodyChunks (env : CommandEnv Event) (cmd : UInt8) (chunks : List (List UInt8)) :
    Option (Option Command × List (List UInt8)) :=
  if cmd = cmdIdr then some (some .idr, chunks)
  else if cmd = cmdInput then do
    let (payload, left) ← readPayloadChunks maxInputBytes chunks
    some (some (.input payload), left)
  else if cmd = cmdBitrate then do
    let (kbps, left) ← readLenChunks chunks
    some (some (.bitrate kbps), left)
  else if cmd = cmdViewers then do
    let (count, left) ← readLenChunks chunks
    some (some (.viewers count), left)
  else if cmd = cmdQuality then do
    let (body, left) ← Chunks.readExact 2 chunks
    some (some (.quality (body.getD 0 0) (body.getD 1 0)), left)
  else if cmd = cmdResolution then do
    let (body, left) ← Chunks.readExact 4 chunks
    some (some (.resolution { width := beNat (body.take 2), height := beNat (body.drop 2) }), left)
  else if cmd = cmdClipboard then do
    let (payload, left) ← readPayloadChunks env.clipboardCap chunks
    some (some (.clipboard payload), left)
  else some (none, chunks)

/-- `read_command` on a stream that delivers its bytes in chunks. -/
def CommandEnv.readCommandChunks (env : CommandEnv Event) (chunks : List (List UInt8)) :
    Option (Option Command × List (List UInt8)) := do
  let (cmd, left) ← Chunks.readExact 1 chunks
  env.readBodyChunks (cmd.headD 0) left

/-- What `read_commands` has read, with nothing for an unknown command byte, and what that sent to
the rest of the agent. -/
structure CommandLog (Event : Type) where
  read : List (Option Command)
  effects : List (Effect Event)

variable (env : CommandEnv Event)

/-- `read_commands`, with a command for each byte at most. -/
def CommandEnv.readCommandsChunks (chunks : List (List UInt8)) : CommandLog Event :=
  let read := Chunks.readLoop env.readCommandChunks chunks.flatten.length chunks
  { read, effects := read.flatMap fun command => command.toList.flatMap env.deliver }

theorem simulates_readLen : Simulates List.flatten readLenChunks readLen :=
  (simulates_readExact 4).bind fun len => .pure _ (beNat len)

theorem simulates_readPayload (cap : Nat) :
    Simulates List.flatten (readPayloadChunks cap) (readPayload cap) := by
  have hround : ∀ len : Nat, Simulates List.flatten
      (fun left => if cap < len then none else readExact len left)
      (fun rest => if cap < len then none else readExact len rest) :=
    fun len => (Simulates.fail _).ite (simulates_readExact len)
  exact simulates_readLen.bind hround

theorem simulates_readBody (cmd : UInt8) :
    Simulates List.flatten (env.readBodyChunks cmd)
      (fun bytes => env.readCommand (cmd :: bytes)) := by
  intro chunks
  simp only [readBodyChunks, readCommand]
  split_ifs
  · rfl
  · exact ((simulates_readPayload maxInputBytes).bind fun payload =>
      .pure _ (some (input payload))) chunks
  · exact (simulates_readLen.bind fun kbps =>
      .pure _ (some (bitrate kbps))) chunks
  · exact (simulates_readLen.bind fun count =>
      .pure _ (some (viewers count))) chunks
  · exact ((simulates_readExact 2).bind fun body =>
      .pure _ (some (quality (body.getD 0 0) (body.getD 1 0)))) chunks
  · exact ((simulates_readExact 4).bind fun body => .pure _ (some (resolution
        { width := beNat (body.take 2), height := beNat (body.drop 2) }))) chunks
  · exact ((simulates_readPayload env.clipboardCap).bind fun payload =>
      .pure _ (some (clipboard payload))) chunks
  · rfl

theorem readCommand_eq_bind (bytes : List UInt8) :
    env.readCommand bytes = (readExact 1 bytes).bind fun r => env.readCommand (r.1.headD 0 :: r.2) := by
  cases bytes with
  | nil => rfl
  | cons cmd bytes =>
    rfl

/-- The chunks do not matter. -/
theorem simulates_readCommand : Simulates List.flatten env.readCommandChunks env.readCommand := by
  intro chunks
  rw [readCommand_eq_bind]
  exact ((simulates_readExact 1).bind fun cmd => simulates_readBody env (cmd.headD 0)) chunks

/-! ## One command -/

/-- The command as the agent knows it. -/
def Command.ofRelay : Relay.HostCommand → Command
  | .idr => .idr
  | .input json => .input json
  | .bitrate kbps => .bitrate kbps.toNat
  | .viewers count => .viewers count.toNat
  | .quality level fps => .quality level fps
  | .resolution width height => .resolution { width := width.toNat, height := height.toNat }
  | .clipboard payload => .clipboard payload

/-- The payloads are within the agent's caps. The relay takes clipboard texts of at most 64 MiB,
whose payload has a length of four bytes (`length_clipboardJson_lt`). -/
def Sendable : Relay.HostCommand → Prop
  | .input json => json.length ≤ maxInputBytes
  | .clipboard payload => payload.length ≤ env.clipboardCap ∧ payload.length < 2 ^ 32
  | _ => True

/-- What a valid command is for, and nothing for an invalid one. -/
def CommandEnv.intended : Relay.HostCommand → Option (Effect Event)
  | .idr => some .idr
  | .input json => (env.decodeInput json).map .input
  | .bitrate kbps => some (.bitrate kbps.toNat)
  | .viewers count => some (.viewers count.toNat)
  | .quality level fps => some (.quality level fps)
  | .resolution width height =>
    if 640 ≤ width.toNat ∧ width.toNat ≤ 2560 ∧ 480 ≤ height.toNat ∧ height.toNat ≤ 1440 ∧
        width.toNat % 2 = 0 ∧ height.toNat % 2 = 0 then
      some (.resolution { width := width.toNat, height := height.toNat })
    else none
  | .clipboard payload => do
    let msg ← env.decodeClipboard payload
    if env.clipboardEnabled = true ∧ msg.mime ∈ clipboardMimes ∧
        msg.data.utf8ByteSize ≤ env.clipboardMaxBytes then
      some (.setText msg.data)
    else none

variable {payload : List UInt8} {command : Relay.HostCommand}

theorem readPayload_commandFrame {cap : Nat} (hcap : payload.length ≤ cap) (hlen : payload.length < 2 ^ 32)
    (rest : List UInt8) :
    readPayload cap (beBytes 4 (payload.length % 2 ^ 32) ++ payload ++ rest) = some (payload, rest) := by
  rw [Nat.mod_eq_of_lt hlen]
  exact readPayload_append (length_beBytes 4 _) (beNat_beBytes hlen).symm hcap rest

theorem readLen_u32 (value : UInt32) (rest : List UInt8) :
    readLen (beBytes 4 value.toNat ++ rest) = some (value.toNat, rest) := by
  rw [readLen_append (length_beBytes 4 _), beNat_beBytes value.toNat_lt]

theorem beNat_dimension (n : UInt16) :
    beNat [(n.toUInt32 >>> 8).toUInt8, n.toUInt32.toUInt8] = n.toNat := by
  have hn := n.toNat_lt
  have hhigh : (n.toUInt32 >>> 8).toUInt8.toNat = n.toNat / 256 := by
    simp [Nat.shiftRight_eq_div_pow]
    omega
  have hlow : n.toUInt32.toUInt8.toNat = n.toNat % 256 := by simp
  show (0 * 256 + (n.toUInt32 >>> 8).toUInt8.toNat) * 256 + n.toUInt32.toUInt8.toNat = n.toNat
  omega

variable {env : CommandEnv Event}

/-- The agent reads a command of the relay and goes on behind it. -/
theorem readCommand_encode (h : Sendable env command) (rest : List UInt8) :
    env.readCommand (command.encode ++ rest) = some (some (.ofRelay command), rest) := by
  cases command with
  | idr => rfl
  | input json =>
    have hlen : json.length < 2 ^ 32 := Nat.lt_of_le_of_lt h (by decide)
    show env.readCommand (cmdInput :: (beBytes 4 (json.length % 2 ^ 32) ++ json ++ rest)) = _
    rw [readCommand, readPayload_commandFrame h hlen]
    rfl
  | bitrate kbps =>
    show env.readCommand (cmdBitrate :: (beBytes 4 kbps.toNat ++ rest)) = _
    rw [readCommand, readLen_u32]
    rfl
  | viewers count =>
    show env.readCommand (cmdViewers :: (beBytes 4 count.toNat ++ rest)) = _
    rw [readCommand, readLen_u32]
    rfl
  | quality level fps => rfl
  | resolution width height =>
    have hwidth := beNat_dimension width
    have hheight := beNat_dimension height
    show some (some (resolution { width := beNat [_, _], height := beNat [_, _] }), rest) = _
    rw [hwidth, hheight]
    rfl
  | clipboard payload =>
    show env.readCommand (cmdClipboard :: (beBytes 4 (payload.length % 2 ^ 32) ++ payload ++ rest)) = _
    rw [readCommand_clipboard, readPayload_commandFrame h.1 h.2]
    rfl

theorem deliver_resolution (env : CommandEnv Event) (width height : UInt16) :
    env.deliver (.resolution { width := width.toNat, height := height.toNat }) =
      (env.intended (.resolution width height)).toList := by
  simp only [deliver, validateModeRequest, intended]
  by_cases hvalid : 640 ≤ width.toNat ∧ width.toNat ≤ 2560 ∧ 480 ≤ height.toNat ∧
      height.toNat ≤ 1440 ∧ width.toNat % 2 = 0 ∧ height.toNat % 2 = 0
  · rw [if_neg (by omega), if_neg (by omega), if_neg (by omega), if_pos (by omega)]
    rfl
  · -- one of the three checks fails
    split_ifs
    · rfl
    · rfl
    · rfl
    · exact absurd ⟨by omega, by omega, by omega, by omega, by omega, by omega⟩ hvalid

theorem deliver_clipboard (h : payload.length ≤ env.clipboardCap) :
    env.deliver (.clipboard payload) = (env.intended (.clipboard payload)).toList := by
  simp only [deliver, parseClipboardSet, intended, if_neg (Nat.not_lt.2 h)]
  cases hdecode : env.decodeClipboard payload with
  | none =>
    simp
  | some msg =>
    simp only [Option.bind_eq_bind, Option.bind_some]
    by_cases henabled : env.clipboardEnabled = true
    · rw [if_pos henabled]
      by_cases hmime : clipboardMimes.contains msg.mime = false
      · have hnot : msg.mime ∉ clipboardMimes := by simpa using hmime
        rw [if_pos hmime, if_neg fun hvalid => hnot hvalid.2.1]
        rfl
      · have hmem : msg.mime ∈ clipboardMimes := by simpa using hmime
        rw [if_neg hmime]
        by_cases hsize : env.clipboardMaxBytes < msg.data.utf8ByteSize
        · rw [if_pos hsize, if_neg fun hvalid => absurd hvalid.2.2 (Nat.not_le.2 hsize)]
          rfl
        · rw [if_neg hsize, if_pos ⟨henabled, hmem, Nat.not_lt.1 hsize⟩]
          rfl
    · rw [if_neg henabled, if_neg fun hvalid => henabled hvalid.1]
      rfl

/-- What the agent does with a command is what the command is for. -/
theorem deliver_ofRelay (h : Sendable env command) :
    env.deliver (.ofRelay command) = (env.intended command).toList := by
  cases command with
  | idr | bitrate kbps | viewers count | quality level fps => rfl
  | input json =>
    show (env.decodeInput json).toList.map _ = ((env.decodeInput json).map _).toList
    cases env.decodeInput json <;> rfl
  | resolution width height => exact deliver_resolution env width height
  | clipboard payload => exact deliver_clipboard h.1

/-! ## A stream of commands -/

theorem consuming_readCommand (env : CommandEnv Event) : Consuming env.readCommand :=
  fun _ _ _ => readCommand_length

/-- The agent reads the commands of the relay back from any chunks of their bytes, and each valid
one has its effect, in order. -/
theorem relay_commands_round_trip (env : CommandEnv Event) {commands : List Relay.HostCommand}
    (hsendable : ∀ command ∈ commands, Sendable env command) {chunks : List (List UInt8)}
    (hchunks : chunks.flatten = commands.flatMap Relay.HostCommand.encode) :
    env.readCommandsChunks chunks =
      { read := commands.map fun command => some (.ofRelay command)
        effects := commands.filterMap env.intended } := by
  have hread : readLoop env.readCommandChunks chunks.flatten.length chunks =
      commands.map fun command => some (.ofRelay command) := by
    -- the chunks aside, the loop reads command by command until nothing is left
    have hall := readAll_flatMap (consuming_readCommand env)
      (fun command hmem rest => readCommand_encode (hsendable command hmem) rest) []
    rw [List.append_nil, readAll_of_none (consuming_readCommand env).next_nil, List.append_nil,
      ← hchunks] at hall
    rw [readLoop_eq_readMany (simulates_readCommand env)]
    exact hall
  have heffects : (commands.map fun command => some (ofRelay command)).flatMap
      (fun command => command.toList.flatMap env.deliver) = commands.filterMap env.intended := by
    rw [List.flatMap_map, List.filterMap_eq_flatMap_toList]
    apply List.flatMap_congr
    intro command hmem
    show [ofRelay command].flatMap env.deliver = _
    rw [List.flatMap_singleton, deliver_ofRelay (hsendable command hmem)]
  rw [readCommandsChunks, hread, heffects]

/-- An agent that takes every payload for an event, with the clipboard disabled. -/
def rawAgent : CommandEnv (List UInt8) where
  decodeInput payload := if payload = [] then none else some payload
  decodeClipboard _ := none
  clipboardEnabled := false
  clipboardMaxBytes := 16

/-- An empty input event and a tiny resolution are skipped, and the rest is delivered. -/
theorem relay_commands_round_trip_mixed :
    (rawAgent.readCommandsChunks [[1, 2, 0, 0], [0, 0, 6, 0, 1, 0], [], [1, 3, 0, 0, 9, 0xc4]]).effects =
      [.idr, .bitrate 2500] := by
  have hsendable : ∀ command ∈ [Relay.HostCommand.idr, .input [], .resolution 1 1, .bitrate 2500],
      Sendable rawAgent command := by
    simp [Sendable]
  rw [relay_commands_round_trip rawAgent hsendable (by decide)]
  decide

end Rustcast.Host
