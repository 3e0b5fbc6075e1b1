import Rustcast.Host.Commands
import Rustcast.Relay.Clipboard

/-!
# A clipboard text from the relay to the agent

The relay writes an accepted text as JSON behind a length (`commandFrame` of `proto.go`); the agent
compares the length with its clipboard maximum plus 4096 before it reads the payload, and stops
reading commands altogether when the length is larger (`read_command`).
-/

namespace Rustcast.Host

open Bytes Relay

variable {Event : Type} (text : String)

/-- The payload of the command that the relay makes of a text. -/
def clipboardJson : List UInt8 :=
  marshalClipboard { mime := clipWireMime, data := textBytes text }

def clipboardCommand (text : String) : List UInt8 :=
  commandFrame Relay.cmdClipboard (clipboardJson text)

/-- The message that the agent should get. -/
def clipboardMessage (text : String) : ClipboardMessage where
  mime := "text/plain;charset=utf-8"
  data := text

/-- The decoder of the agent reads the JSON that Go writes for a text. -/
def DecodesGoJson (decode : List UInt8 → Option ClipboardMessage) : Prop :=
  ∀ text, decode (clipboardJson text) = some (clipboardMessage text)

/-- The agent takes the command of the text and goes on with the bytes behind it. -/
structure CommandTaken (env : CommandEnv Event) (text : String) (rest : List UInt8) : Prop where
  within : (clipboardJson text).length ≤ env.clipboardCap
  parsed : env.parseClipboardSet (clipboardJson text) = .ok (clipboardMessage text)
  goesOn : ∀ offset, env.readAll offset (clipboardCommand text ++ rest) =
    let tail := env.readAll (offset + (clipboardCommand text).length) rest
    { opcodes := offset :: tail.opcodes
      dispatched := .clipboard (clipboardJson text) :: tail.dispatched
      effects := env.deliver (.clipboard (clipboardJson text)) ++ tail.effects }

/-! ## Lengths -/

/-- The bytes of a text with the escapes of Go. -/
def escapedLength : Nat := (text.toList.flatMap fun c => escapeChar (some c)).length

theorem length_quote_textBytes : (quote (textBytes text)).length = escapedLength text + 2 := by
  rw [escapedLength, quote, chars_textBytes, List.flatMap_map, List.length_cons, List.length_append, List.length_singleton]

/-- The names and the type take 45 bytes. -/
theorem length_clipboardJson : (clipboardJson text).length = escapedLength text + 45 := by
  have hrest : (quote (textBytes "mime")).length = 6 ∧ (quote clipWireMime).length = 26 ∧
      (quote (textBytes "data")).length = 6 := by decide +kernel
  have hquote := length_quote_textBytes text
  simp only [clipboardJson, marshalClipboard, writeObject, writeMember, separated, List.map_cons,
    List.map_nil, List.length_cons, List.length_append, List.length_nil, hrest, hquote]
  omega

theorem length_chars_le_utf8ByteSize : text.toList.length ≤ text.utf8ByteSize := by
  have hchars := length_chars_le (textBytes text)
  rw [chars_textBytes, List.length_map] at hchars
  exact hchars

/-- A policy of at most 64 MiB keeps the length within its four bytes. -/
theorem length_clipboardJson_lt {text : String} (h : text.utf8ByteSize ≤ 67108864) :
    (clipboardJson text).length < 256 ^ 4 := by
  have hescapes := length_flatMap_escapeChar_le (text.toList.map some)
  have hchars := length_chars_le_utf8ByteSize text
  rw [List.flatMap_map, List.length_map] at hescapes
  rw [length_clipboardJson, escapedLength]
  omega

/-! ## The agent -/

theorem clipboardCommand_eq {text : String} (h : (clipboardJson text).length < 256 ^ 4) :
    clipboardCommand text =
      Host.cmdClipboard :: (beBytes 4 (clipboardJson text).length ++ clipboardJson text) := by
  have hmod : (clipboardJson text).length % 2 ^ 32 = (clipboardJson text).length := Nat.mod_eq_of_lt h
  rw [clipboardCommand, commandFrame, hmod]
  rfl

theorem readCommand_clipboard (env : CommandEnv Event) (bytes : List UInt8) :
    env.readCommand (Host.cmdClipboard :: bytes) =
      (readPayload env.clipboardCap bytes).map fun (payload, rest) =>
        (some (.clipboard payload), rest) := by
  have hne : Host.cmdClipboard ≠ cmdIdr ∧ Host.cmdClipboard ≠ cmdInput ∧
      Host.cmdClipboard ≠ cmdBitrate ∧ Host.cmdClipboard ≠ cmdViewers ∧
      Host.cmdClipboard ≠ cmdQuality ∧ Host.cmdClipboard ≠ cmdResolution := by decide
  obtain ⟨h1, h2, h3, h4, h5, h6⟩ := hne
  rw [CommandEnv.readCommand, if_neg h1, if_neg h2, if_neg h3, if_neg h4, if_neg h5, if_neg h6, if_pos rfl]
  cases readPayload env.clipboardCap bytes <;> rfl

theorem readPayload_none {cap : Nat} {field rest : List UInt8} (hlen : field.length = 4)
    (hcap : cap < beNat field) : readPayload cap (field ++ rest) = none := by
  rw [readPayload, readLen_append hlen]
  show (if cap < beNat field then none else _) = _
  rw [if_pos hcap]

section

variable {env : CommandEnv Event} {text : String}

theorem commandTaken (hjson : DecodesGoJson env.decodeClipboard)
    (hfits : text.utf8ByteSize ≤ env.clipboardMaxBytes)
    (hlength : (clipboardJson text).length < 256 ^ 4)
    (hcap : (clipboardJson text).length ≤ env.clipboardCap) (rest : List UInt8) :
    CommandTaken env text rest where
  within := hcap
  parsed := by
    have hmime : ¬ clipboardMimes.contains (clipboardMessage text).mime = false := by
      show ¬ clipboardMimes.contains "text/plain;charset=utf-8" = false
      decide
    have hsize : ¬ env.clipboardMaxBytes < (clipboardMessage text).data.utf8ByteSize := Nat.not_lt.mpr hfits
    rw [CommandEnv.parseClipboardSet, if_neg (Nat.not_lt.mpr hcap), hjson text]
    show (if _ then _ else _) = _
    rw [if_neg hmime, if_neg hsize]
  goesOn := by
    intro offset
    have hpayload := readPayload_append (length_beBytes 4 _) (beNat_beBytes hlength).symm hcap rest
    have hread : env.readCommand (clipboardCommand text ++ rest) =
        some (some (.clipboard (clipboardJson text)), rest) := by
      rw [clipboardCommand_eq hlength, List.cons_append, List.append_assoc, readCommand_clipboard, hpayload]
      rfl
    have hoffset : (clipboardCommand text ++ rest).length - rest.length =
        (clipboardCommand text).length := by
      rw [List.length_append, Nat.add_sub_cancel]
    rw [CommandEnv.readAll_of_readCommand offset hread, hoffset]
    simp only [Option.toList_some, List.flatMap_cons, List.flatMap_nil, List.append_nil,
      List.singleton_append]

theorem readAll_too_long (hlength : (clipboardJson text).length < 256 ^ 4)
    (hcap : env.clipboardCap < (clipboardJson text).length) (rest : List UInt8) (offset : Nat) :
    env.readAll offset (clipboardCommand text ++ rest) = { opcodes := [offset] } := by
  have hfield : env.clipboardCap < beNat (beBytes 4 (clipboardJson text).length) := by
    rw [beNat_beBytes hlength]
    exact hcap
  have hread : env.readCommand (clipboardCommand text ++ rest) = none := by
    rw [clipboardCommand_eq hlength, List.cons_append, List.append_assoc, readCommand_clipboard,
      readPayload_none (length_beBytes 4 _) hfield]
    rfl
  rw [clipboardCommand_eq hlength, List.cons_append] at hread ⊢
  show env.readCommands (_ + 1) offset _ = _
  rw [CommandEnv.readCommands, hread]

end

theorem utf8ByteSize_of_accepted {policy : MachinePolicy} {direction : ClipDirection} {text : String}
    (h : clipboardResult policy direction (textBytes text) = .ok) :
    text.utf8ByteSize ≤ policy.maxBytes := by
  unfold clipboardResult at h
  split at h
  · cases h
  next hsize =>
    exact Int.not_lt.mp hsize

/-- A text that the relay accepts, at an agent whose maximum is not below that of the policy: the
agent takes the command if the escapes leave room for the 45 bytes around the text, and otherwise reads
nothing more. -/
theorem clipboard_command_taken (env : CommandEnv Event) (hjson : DecodesGoJson env.decodeClipboard)
    (policy : MachinePolicy) (hpolicy : policy.maxBytes ≤ 67108864)
    (hmax : policy.maxBytes ≤ env.clipboardMaxBytes) (text : String)
    (haccepted : clipboardResult policy .clientToHost (textBytes text) = .ok) (rest : List UInt8) :
    (escapedLength text + 45 ≤ env.clipboardCap → CommandTaken env text rest) ∧
      (env.clipboardCap < escapedLength text + 45 → ∀ offset,
        env.readAll offset (clipboardCommand text ++ rest) = { opcodes := [offset] }) := by
  have hsize := utf8ByteSize_of_accepted haccepted
  have hlength : (clipboardJson text).length < 256 ^ 4 := length_clipboardJson_lt (by omega)
  rw [← length_clipboardJson]
  constructor
  · intro hcap
    exact commandTaken hjson (by omega) hlength hcap rest
  · intro hcap offset
    exact readAll_too_long hlength hcap rest offset

/-! ## An agent with the default maximum -/

/-- Characters that are all there. -/
def textOf (bytes : List UInt8) : Option String := ((chars bytes).mapM id).map String.ofList

def readMessage (bytes : List UInt8) : Option ClipboardMessage := do
  let msg ← unmarshalClipboard bytes
  return { mime := ← textOf msg.mime, data := ← textOf msg.data }

theorem textOf_textBytes (text : String) : textOf (textBytes text) = some text := by
  have hall : ∀ cs : List Char, (cs.map some).mapM id = some cs := by
    intro cs
    induction cs with
    | nil => rfl
    | cons c cs ih =>
      rw [List.map_cons, List.mapM_cons, ih]
      rfl
  rw [textOf, chars_textBytes, hall, Option.map_some, String.ofList_toList]

theorem decodesGoJson_readMessage : DecodesGoJson readMessage := by
  intro text
  have hdecode : unmarshalClipboard (clipboardJson text) =
      some { mime := textBytes "text/plain;charset=utf-8", data := textBytes text } := by
    have hmime : sanitize clipWireMime = textBytes "text/plain;charset=utf-8" := sanitize_textBytes _
    rw [clipboardJson, unmarshalClipboard_marshalClipboard, sanitize_textBytes, hmime]
  rw [readMessage, hdecode]
  simp only [Option.bind_eq_bind, Option.bind_some, textOf_textBytes]
  rfl

def defaultAgent : CommandEnv Unit where
  decodeInput := fun _ => some ()
  decodeClipboard := readMessage
  clipboardEnabled := true
  clipboardMaxBytes := 1048576

/-- A text of `n` less-than signs, which Go writes with six bytes each. -/
def brackets (n : Nat) : String := String.ofList (List.replicate n '<')

theorem escapedLength_brackets (n : Nat) : escapedLength (brackets n) = 6 * n := by
  rw [escapedLength, brackets, String.toList_ofList, List.flatMap_replicate, List.length_flatten,
    List.map_replicate, List.sum_replicate]
  exact Nat.mul_comm n 6

theorem accepted_brackets {n : Nat} (h : n ≤ 1048576) :
    clipboardResult defaultMachinePolicy .clientToHost (textBytes (brackets n)) = .ok := by
  have hlength : (textBytes (brackets n)).length = n := by
    rw [textBytes_eq, brackets, String.toList_ofList, List.flatMap_replicate, List.length_flatten,
      List.map_replicate, List.sum_replicate]
    exact Nat.mul_one n
  have hsize : ¬ defaultMachinePolicy.maxBytes < ((textBytes (brackets n)).length : Int) := by
    rw [hlength]
    show ¬ (1048576 : Int) < n
    omega
  rw [clipboardResult, if_neg hsize]
  rfl

/-- 200000 less-than signs under the default policy. -/
theorem clipboard_command_stops_agent :
    ¬ ∀ (env : CommandEnv Unit) (_ : DecodesGoJson env.decodeClipboard) (policy : MachinePolicy)
      (_ : policy.maxBytes ≤ 67108864) (_ : policy.maxBytes ≤ env.clipboardMaxBytes) (text : String)
      (_ : clipboardResult policy .clientToHost (textBytes text) = .ok) (rest : List UInt8),
      CommandTaken env text rest := by
  intro hclaim
  have htaken := hclaim defaultAgent decodesGoJson_readMessage defaultMachinePolicy (by decide)
    (by decide) (brackets 200000) (accepted_brackets (by omega)) []
  have hwithin := htaken.within
  rw [length_clipboardJson, escapedLength_brackets] at hwithin
  exact absurd hwithin (by decide)

theorem clipboard_command_taken_brackets : CommandTaken defaultAgent (brackets 1000) [cmdIdr] := by
  have hcap : escapedLength (brackets 1000) + 45 ≤ defaultAgent.clipboardCap := by
    rw [escapedLength_brackets]
    decide
  exact (clipboard_command_taken defaultAgent decodesGoJson_readMessage defaultMachinePolicy
    (by decide) (by decide) (brackets 1000) (accepted_brackets (by omega)) [cmdIdr]).1 hcap

end Rustcast.Host
