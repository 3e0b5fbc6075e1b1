import Rustcast.Core.JsString
import Rustcast.Relay.Clipboard

/-!
# A clipboard text from the browser to the relay

The viewer sends a text only if its UTF-8 form has at most 1 MiB (`withinSizeCap` of
`clipboard.ts`). It goes out as a control message (`encodeControlMessage` of `wt-framing.ts`), which
the relay reads only if the whole JSON text has at most 1 MiB.
-/

namespace Rustcast.Browser

open Bytes Relay

/-! ## The viewer -/

def clipboardMaxBytes : Nat := 1024 * 1024

variable (text : JsString)

def withinSizeCap : Bool := decide ((textEncode text).length ≤ clipboardMaxBytes)

def clipboardMime : JsString := jsString "text/plain;charset=utf-8".toList

/-- The JSON text of a message with data, in UTF-8. -/
def controlPayload (type : JsString) (data : List Char) : List UInt8 :=
  textEncode (jsString (stringifyObject
    [(jsString "type".toList, stringifyString type), (jsString "data".toList, data)]))

def encodeControlMessage (type : JsString) (data : List Char) : List UInt8 :=
  let payload := controlPayload type data
  beBytes 4 (payload.length % 2 ^ 32) ++ payload

/-- The text of the data of a `clipboard` message. -/
def clipboardData : List Char :=
  stringifyObject [(jsString "mime".toList, stringifyString clipboardMime),
    (jsString "data".toList, stringifyString text)]

def clipboardPayload : List UInt8 :=
  controlPayload (jsString "clipboard".toList) (clipboardData text)

def sendClipboard : List UInt8 :=
  encodeControlMessage (jsString "clipboard".toList) (clipboardData text)

/-! ## The bytes of the message -/

def escapedLength : Nat := ((codePoints text).flatMap escapePoint).length

theorem utf8_stringifyString_jsString (key : List Char) :
    utf8 (stringifyString (jsString key)) =
      34 :: ((key.map CodePoint.scalar).flatMap escapePoint ++ [34]) := by
  rw [utf8_stringifyString, codePoints_jsString]

/-- Both sides write the names of the message in the same way. -/
theorem utf8_stringifyString_name :
    ∀ name ∈ ["type", "clipboard", "data", "mime", "text/plain;charset=utf-8"],
    utf8 (stringifyString (jsString name.toList)) = quote (textBytes name) := by
  have hnames : ∀ name ∈ ["type", "clipboard", "data", "mime", "text/plain;charset=utf-8"],
      34 :: ((name.toList.map CodePoint.scalar).flatMap escapePoint ++ [34]) = quote (textBytes name) := by
    decide +kernel
  intro name hname
  rw [utf8_stringifyString_jsString]
  exact hnames name hname

theorem utf8_clipboardData :
    utf8 (clipboardData text) = writeObject [(textBytes "mime", quote clipWireMime),
      (textBytes "data", utf8 (stringifyString text))] := by
  have hmime := utf8_stringifyString_name "mime" (by simp)
  have hdata := utf8_stringifyString_name "data" (by simp)
  have htype : utf8 (stringifyString clipboardMime) = quote clipWireMime :=
    utf8_stringifyString_name "text/plain;charset=utf-8" (by simp)
  have hnames : List.Forall₂ (fun m key => utf8 (stringifyString m.1) = quote key)
      [(jsString "mime".toList, stringifyString clipboardMime), (jsString "data".toList, stringifyString text)]
      [textBytes "mime", textBytes "data"] := .cons hmime (.cons hdata .nil)
  rw [clipboardData, utf8_stringifyObject hnames]
  show writeObject [(_, utf8 (stringifyString clipboardMime)), _] = _
  rw [htype]

theorem clipboardPayload_eq :
    clipboardPayload text = writeObject [(textBytes "type", quote (textBytes "clipboard")),
      (textBytes "data", utf8 (clipboardData text))] := by
  have htype := utf8_stringifyString_name "type" (by simp)
  have hdata := utf8_stringifyString_name "data" (by simp)
  have hclipboard := utf8_stringifyString_name "clipboard" (by simp)
  have hnames : List.Forall₂ (fun m key => utf8 (stringifyString m.1) = quote key)
      [(jsString "type".toList, stringifyString (jsString "clipboard".toList)),
        (jsString "data".toList, clipboardData text)]
      [textBytes "type", textBytes "data"] := .cons htype (.cons hdata .nil)
  rw [clipboardPayload, controlPayload, textEncode_jsString, utf8_stringifyObject hnames]
  show writeObject [(_, utf8 (stringifyString (jsString "clipboard".toList))), _] = _
  rw [hclipboard]

/-- The names take 73 bytes, and the escapes of the text come on top. -/
theorem length_clipboardPayload : (clipboardPayload text).length = escapedLength text + 73 := by
  have hfixed : (quote (textBytes "type")).length = 6 ∧ (quote (textBytes "clipboard")).length = 11 ∧
      (quote (textBytes "data")).length = 6 ∧ (quote (textBytes "mime")).length = 6 ∧
      (quote clipWireMime).length = 26 := by decide +kernel
  have htext : (utf8 (stringifyString text)).length = escapedLength text + 2 := by
    rw [utf8_stringifyString, List.length_cons, List.length_append]
    rfl
  rw [clipboardPayload_eq, utf8_clipboardData]
  simp only [writeObject, writeMember, separated, List.map_cons, List.map_nil, List.length_cons,
    List.length_append, List.length_nil, hfixed, htext]
  omega

/-! ## The relay -/

def clipboardValue : Json :=
  .object [(textBytes "mime", .string clipWireMime), (textBytes "data", .string (textEncode text))]

theorem denotes_clipboardData (depth : Nat) (text : JsString) :
    Denotes (depth + 1) (utf8 (clipboardData text)) (clipboardValue text) := by
  have hsame : sanitize (textBytes "mime") = textBytes "mime" ∧
      sanitize (textBytes "data") = textBytes "data" ∧ sanitize clipWireMime = clipWireMime :=
    ⟨sanitize_textBytes _, sanitize_textBytes _, sanitize_textBytes _⟩
  have hmime := denotes_quote depth clipWireMime
  rw [hsame.2.2] at hmime
  rw [utf8_clipboardData]
  apply denotes_writeObject
  exact .cons ⟨hsame.1.symm, hmime⟩ (.cons ⟨hsame.2.1.symm, denotes_stringifyString depth text⟩ .nil)

theorem parse_clipboardPayload :
    parse (clipboardPayload text) = some (.object [(textBytes "type", .string (textBytes "clipboard")),
      (textBytes "data", clipboardValue text)]) := by
  have htype := denotes_quote 9999 (textBytes "clipboard")
  have hobject : Denotes (9999 + 1) (clipboardPayload text)
      (.object [(textBytes "type", .string (textBytes "clipboard")),
        (textBytes "data", clipboardValue text)]) := by
    rw [clipboardPayload_eq]
    apply denotes_writeObject
    exact .cons ⟨(sanitize_textBytes _).symm, htype⟩
      (.cons ⟨(sanitize_textBytes _).symm, denotes_clipboardData 9998 text⟩ .nil)
  exact parse_eq_some hobject

/-- The message that the relay gets. -/
def clipboardControl : ControlMessage where
  type := textBytes "clipboard"
  data := some (clipboardValue text)

theorem decodeControl_clipboard :
    decodeControl (.object [(textBytes "type", .string (textBytes "clipboard")),
      (textBytes "data", clipboardValue text)]) = some (clipboardControl text) := by
  have hsame : sameKey (textBytes "type") (textBytes "type") = true ∧
      sameKey (textBytes "type") (textBytes "data") = false ∧
      sameKey (textBytes "data") (textBytes "data") = true := by
    simp [sameKey_textBytes, foldChar]
  have htype : storeControlMember {} (textBytes "type", .string (textBytes "clipboard")) =
      some { type := textBytes "clipboard" } := by
    rw [storeControlMember, if_pos hsame.1]
    rfl
  have hdata : storeControlMember { type := textBytes "clipboard" }
      (textBytes "data", clipboardValue text) = some (clipboardControl text) := by
    rw [storeControlMember, if_neg (Bool.eq_false_iff.mp hsame.2.1), if_pos hsame.2.2]
    rfl
  show List.foldlM storeControlMember {} _ = _
  rw [List.foldlM_cons, htype, Option.bind_eq_bind, Option.bind_some, List.foldlM_cons, hdata]
  rfl

section

variable {text : JsString}

theorem sendClipboard_eq (h : (clipboardPayload text).length < 256 ^ 4) :
    sendClipboard text = beBytes 4 (clipboardPayload text).length ++ clipboardPayload text := by
  have hmod : (clipboardPayload text).length % 2 ^ 32 = (clipboardPayload text).length := Nat.mod_eq_of_lt h
  show beBytes 4 ((clipboardPayload text).length % 2 ^ 32) ++ clipboardPayload text = _
  rw [hmod]

/-- The length comes first. -/
theorem readExact_sendClipboard (h : (clipboardPayload text).length < 256 ^ 4) (rest : List UInt8) :
    readExact 4 (sendClipboard text ++ rest) =
      some (beBytes 4 (clipboardPayload text).length, clipboardPayload text ++ rest) := by
  have hhead := readExact_append (beBytes 4 (clipboardPayload text).length) (clipboardPayload text ++ rest)
  rw [length_beBytes] at hhead
  rw [sendClipboard_eq h, List.append_assoc, hhead]

theorem readControlMessage_sendClipboard (h : (clipboardPayload text).length ≤ maxControlMessage)
    (rest : List UInt8) :
    readControlMessage (sendClipboard text ++ rest) = .message (clipboardControl text) rest := by
  have hpositive : (clipboardPayload text).length ≠ 0 := by
    rw [length_clipboardPayload]
    omega
  have hlimit : maxControlMessage < 256 ^ 4 := by decide
  have hlength : (clipboardPayload text).length < 256 ^ 4 := by omega
  rw [readControlMessage, readExact_sendClipboard hlength]
  dsimp only
  rw [beNat_beBytes hlength, if_neg (by omega), readExact_append]
  dsimp only
  rw [parse_clipboardPayload, Option.bind_some, decodeControl_clipboard]

theorem readControlMessage_too_long (h : maxControlMessage < (clipboardPayload text).length)
    (hlength : (clipboardPayload text).length < 256 ^ 4) (rest : List UInt8) :
    readControlMessage (sendClipboard text ++ rest) = .failed "invalid control message length" := by
  rw [readControlMessage, readExact_sendClipboard hlength]
  dsimp only
  rw [beNat_beBytes hlength, if_pos (.inr h)]

end

/-! ## Texts that the viewer sends -/

theorem length_escapePoint_le (p : CodePoint) : (escapePoint p).length ≤ 6 := by
  cases p with
  | lone u => exact Nat.le_refl 6
  | scalar c =>
    rw [escapePoint]
    split
    · exact Nat.le_add_left 2 4
    · split
      · exact Nat.le_refl 6
      · rw [String.length_utf8EncodeChar]
        exact Nat.le_trans c.utf8Size_le_four (Nat.le_add_right 4 2)

/-- The escapes make a text at most six times as long. -/
theorem escapedLength_le (text : JsString) : escapedLength text ≤ 6 * (textEncode text).length := by
  unfold escapedLength textEncode
  induction codePoints text with
  | nil => exact Nat.le_refl 0
  | cons p ps ih =>
    have hp := length_escapePoint_le p
    have hpositive : 0 < (String.utf8EncodeChar p.char).length := by
      rw [String.length_utf8EncodeChar]
      exact Char.utf8Size_pos _
    rw [List.flatMap_cons, List.map_cons, utf8_cons, List.length_append, List.length_append]
    omega

/-- The message of a text that the viewer sends is read if its escapes leave room for the 73 bytes
around it, and ends the session otherwise. -/
theorem clipboard_message_read (text : JsString) (hcap : withinSizeCap text = true)
    (rest : List UInt8) :
    (escapedLength text ≤ 1048503 →
      (clipboardPayload text).length ≤ maxControlMessage ∧
        readControlMessage (sendClipboard text ++ rest) = .message (clipboardControl text) rest ∧
        decodeClipboard (clipboardValue text) = some { mime := clipWireMime, data := textEncode text }) ∧
      (1048503 < escapedLength text → readControlMessage (sendClipboard text ++ rest) =
        .failed "invalid control message length") := by
  have hsize : (textEncode text).length ≤ 1024 * 1024 := of_decide_eq_true hcap
  have hescaped := escapedLength_le text
  have hpayload := length_clipboardPayload text
  have hmax : maxControlMessage = 1048576 := rfl
  constructor
  · intro hfits
    have hlimit : (clipboardPayload text).length ≤ maxControlMessage := by omega
    exact ⟨hlimit, readControlMessage_sendClipboard hlimit rest, decodeClipboard_members _ _⟩
  · intro hlong
    exact readControlMessage_too_long (by omega) (by omega) rest

def letters (n : Nat) : JsString := jsString (List.replicate n 'a')

theorem codePoints_letters (n : Nat) : codePoints (letters n) = List.replicate n (.scalar 'a') := by
  rw [letters, codePoints_jsString, List.map_replicate]

theorem escapedLength_letters (n : Nat) : escapedLength (letters n) = n := by
  rw [escapedLength, codePoints_letters, List.flatMap_replicate, List.length_flatten,
    List.map_replicate, List.sum_replicate]
  exact Nat.mul_one n

theorem withinSizeCap_letters {n : Nat} (h : n ≤ 1048576) : withinSizeCap (letters n) = true := by
  have hlength : (textEncode (letters n)).length = n := by
    rw [letters, textEncode_jsString, utf8, List.flatMap_replicate, List.length_flatten,
      List.map_replicate, List.sum_replicate]
    exact Nat.mul_one n
  refine decide_eq_true ?_
  rw [hlength]
  exact h

/-- One MiB of letters passes the check of the viewer and ends the session. -/
theorem clipboard_message_ends_session :
    ¬ ∀ (text : JsString) (_ : withinSizeCap text = true) (rest : List UInt8),
      (clipboardPayload text).length ≤ maxControlMessage ∧
        readControlMessage (sendClipboard text ++ rest) = .message (clipboardControl text) rest := by
  intro hclaim
  have hlength := (hclaim (letters 1048576) (withinSizeCap_letters (Nat.le_refl _)) []).1
  rw [length_clipboardPayload, escapedLength_letters] at hlength
  exact absurd hlength (by decide)

theorem clipboard_message_read_letters :
    readControlMessage (sendClipboard (letters 5) ++ []) = .message (clipboardControl (letters 5)) [] := by
  have hfits : escapedLength (letters 5) ≤ 1048503 := by
    decide
  exact ((clipboard_message_read (letters 5) (withinSizeCap_letters (by decide)) []).1 hfits).2.1

end Rustcast.Browser
