import Rustcast.Core.BinaryText

/-!
# Strings of JSON texts

A string is any bytes. The writer escapes what is not part of a character, and the reader puts
U+FFFD in its place, so that reading what was written gives the string, sanitized.
-/

namespace Rustcast

/-! ## Characters in bytes -/

/-- The character that the bytes start with. -/
def firstChar (bytes : List UInt8) : Option Char := bytes.toByteArray.utf8DecodeChar? 0

/-- The characters of the bytes, after some bytes that belong to the character before. A byte that
is not part of a character stands for itself. -/
def charsFrom : Nat → List UInt8 → List (Option Char)
  | _, [] => []
  | skip + 1, _ :: bytes => charsFrom skip bytes
  | 0, b :: bytes =>
    match firstChar (b :: bytes) with
    | some c => some c :: charsFrom (c.utf8Size - 1) bytes
    | none => none :: charsFrom 0 bytes

variable (bytes : List UInt8)

/-- Bytes as characters in UTF-8. -/
def chars : List (Option Char) := charsFrom 0 bytes

def replacementChar : Char := Char.ofNat 0xfffd

/-- A text with U+FFFD for the bytes that are not part of a character. -/
def sanitize : List UInt8 :=
  (chars bytes).flatMap fun c => String.utf8EncodeChar (c.getD replacementChar)

/-- A character is read back from its encoding. -/
theorem firstChar_utf8EncodeChar (c : Char) (rest : List UInt8) :
    firstChar (String.utf8EncodeChar c ++ rest) = some c := by
  have happend : (String.utf8EncodeChar c ++ rest).toByteArray =
      (String.utf8EncodeChar c).toByteArray ++ rest.toByteArray := List.toByteArray_append
  rw [firstChar, happend]
  exact ByteArray.utf8DecodeChar?_utf8EncodeChar_append

/-- The bytes to skip give no characters. -/
theorem charsFrom_append (skipped rest : List UInt8) :
    charsFrom skipped.length (skipped ++ rest) = chars rest := by
  induction skipped with
  | nil => rfl
  | cons b skipped ih =>
    exact ih

/-- The encoding of a character is its first byte and the bytes that `charsFrom` skips. -/
theorem utf8EncodeChar_eq_cons (c : Char) :
    ∃ b tail, String.utf8EncodeChar c = b :: tail ∧ tail.length = c.utf8Size - 1 := by
  have hlength := String.length_utf8EncodeChar c
  cases hencode : String.utf8EncodeChar c with
  | nil =>
    rw [hencode] at hlength
    have hpos := c.utf8Size_pos
    rw [← hlength] at hpos
    cases hpos
  | cons b tail =>
    rw [hencode, List.length_cons] at hlength
    exact ⟨b, tail, rfl, by omega⟩

/-- An encoded character is one character. -/
theorem chars_utf8EncodeChar (c : Char) (rest : List UInt8) :
    chars (String.utf8EncodeChar c ++ rest) = some c :: chars rest := by
  have hfirst := firstChar_utf8EncodeChar c rest
  obtain ⟨b, tail, hencode, htail⟩ := utf8EncodeChar_eq_cons c
  rw [hencode] at hfirst ⊢
  show charsFrom 0 (b :: (tail ++ rest)) = some c :: chars rest
  rw [charsFrom]
  rw [List.cons_append] at hfirst
  rw [hfirst]
  show some c :: charsFrom (c.utf8Size - 1) (tail ++ rest) = some c :: chars rest
  rw [← htail, charsFrom_append]

/-- An encoded text has the characters that it was made of. -/
theorem chars_flatMap (cs : List Char) : chars (cs.flatMap String.utf8EncodeChar) = cs.map some := by
  induction cs with
  | nil => rfl
  | cons c cs ih =>
    rw [List.flatMap_cons, chars_utf8EncodeChar, ih]
    rfl

theorem textBytes_eq (text : String) : textBytes text = text.toList.flatMap String.utf8EncodeChar := by
  have hencode : text.toUTF8 = text.toList.utf8Encode := by
    rw [← String.toByteArray_ofList, String.ofList_toList]
    rfl
  rw [textBytes, hencode, List.utf8Encode, List.toList_data_toByteArray]

theorem chars_textBytes (text : String) : chars (textBytes text) = text.toList.map some := by
  rw [textBytes_eq, chars_flatMap]

theorem sanitize_eq :
    sanitize bytes = ((chars bytes).map (·.getD replacementChar)).flatMap String.utf8EncodeChar := by
  rw [sanitize, List.flatMap_map]

/-- A stray byte becomes U+FFFD, and the characters stay. -/
theorem chars_sanitize :
    chars (sanitize bytes) = (chars bytes).map fun c => some (c.getD replacementChar) := by
  rw [sanitize_eq, chars_flatMap, List.map_map]
  rfl

theorem length_charsFrom_le (skip : Nat) (bytes : List UInt8) :
    (charsFrom skip bytes).length ≤ bytes.length := by
  induction bytes generalizing skip with
  | nil =>
    all_goals exact Nat.le_refl 0
  | cons b bytes ih =>
    cases skip with
    | succ skip => exact Nat.le_succ_of_le (ih skip)
    | zero =>
      rw [charsFrom]
      split
      · exact Nat.succ_le_succ (ih _)
      · exact Nat.succ_le_succ (ih 0)

/-- Every character takes a byte. -/
theorem length_chars_le : (chars bytes).length ≤ bytes.length :=
  length_charsFrom_le 0 bytes

/-- A valid text stays as it is. -/
theorem sanitize_textBytes (text : String) : sanitize (textBytes text) = textBytes text := by
  rw [sanitize_eq, chars_textBytes, List.map_map, textBytes_eq]
  exact congrArg (List.flatMap _) (List.map_id _)

/-- Sanitizing keeps the number of characters. -/
theorem length_chars_sanitize : (chars (sanitize bytes)).length = (chars bytes).length := by
  rw [chars_sanitize, List.length_map]

variable {bytes text rest : List UInt8} {b : UInt8} {c : Char} {cs : List Char}

theorem chars_ne_nil (h : bytes ≠ []) : chars bytes ≠ [] := by
  cases bytes with
  | nil => exact absurd rfl h
  | cons b bytes =>
    rw [chars, charsFrom]
    split
    all_goals exact List.cons_ne_nil _ _

/-- Sanitizing does not empty a text. -/
theorem sanitize_ne_nil (h : bytes ≠ []) : sanitize bytes ≠ [] := by
  intro hnil
  have hchars := length_chars_sanitize bytes
  rw [hnil] at hchars
  exact chars_ne_nil h (List.length_eq_zero_iff.mp hchars.symm)

theorem utf8EncodeChar_ofNat : ∀ n < 128,
    String.utf8EncodeChar (Char.ofNat n) = [UInt8.ofNat n] := by decide

theorem utf8EncodeChar_ascii (hb : b < 128) : String.utf8EncodeChar (Char.ofNat b.toNat) = [b] := by
  rw [utf8EncodeChar_ofNat b.toNat hb, UInt8.ofNat_toNat]

/-- An ASCII byte is a character. -/
theorem chars_ascii (hb : b < 128) : chars (b :: bytes) = some (Char.ofNat b.toNat) :: chars bytes := by
  have hchars := chars_utf8EncodeChar (Char.ofNat b.toNat) bytes
  rw [utf8EncodeChar_ascii hb] at hchars
  exact hchars

/-- Sanitizing keeps ASCII. -/
theorem sanitize_ascii (h : ∀ b ∈ bytes, b < 128) : sanitize bytes = bytes := by
  induction bytes with
  | nil => rfl
  | cons b bytes ih =>
    have hb := h b List.mem_cons_self
    rw [sanitize, chars_ascii hb]
    show String.utf8EncodeChar (Char.ofNat b.toNat) ++ sanitize bytes = b :: bytes
    rw [utf8EncodeChar_ascii hb, ih fun x hx => h x (List.mem_cons_of_mem _ hx)]
    rfl

/-! ## Strings -/

def unicodeEscape (n : Nat) : List UInt8 :=
  [92, 117, hexDigit (n / 4096 % 16), hexDigit (n / 256 % 16), hexDigit (n / 16 % 16), hexDigit (n % 16)]

/-- The letter of a short escape. -/
def shortEscape (c : Char) : Option UInt8 :=
  match c.toNat with
  | 34 => some 34
  | 92 => some 92
  | 8 => some 98
  | 12 => some 102
  | 10 => some 110
  | 13 => some 114
  | 9 => some 116
  | _ => none

/-- Control characters, what is special in HTML, and the line breaks of JavaScript. -/
def needsEscape (c : Char) : Bool :=
  c.toNat < 32 || c.toNat == 60 || c.toNat == 62 || c.toNat == 38 || c.toNat == 0x2028 ||
    c.toNat == 0x2029

def escapeChar : Option Char → List UInt8
  | none => unicodeEscape 0xfffd
  | some c =>
    match shortEscape c with
    | some letter => [92, letter]
    | none => if needsEscape c then unicodeEscape c.toNat else String.utf8EncodeChar c

def quote (text : List UInt8) : List UInt8 := 34 :: ((chars text).flatMap escapeChar ++ [34])

/-- A reader takes a value off the front of the bytes. -/
abbrev Reader (α : Type) := List UInt8 → Option (α × List UInt8)

def escapeLetter (letter : UInt8) : Option Char :=
  match letter.toNat with
  | 34 => some '"'
  | 92 => some '\\'
  | 47 => some '/'
  | 98 => some (Char.ofNat 8)
  | 102 => some (Char.ofNat 12)
  | 110 => some '\n'
  | 114 => some '\r'
  | 116 => some '\t'
  | _ => none

def readHex4 : Reader Nat
  | a :: b :: c :: d :: rest => do
    let a ← hexValue a
    let b ← hexValue b
    let c ← hexValue c
    let d ← hexValue d
    return (4096 * a + 256 * b + 16 * c + d, rest)
  | _ => none

/-- The second half of a surrogate pair, as a further escape. -/
def readLowSurrogate : Reader Nat
  | 92 :: 117 :: bytes => do
    let (n, rest) ← readHex4 bytes
    if 0xdc00 ≤ n ∧ n < 0xe000 then return (n, rest) else none
  | _ => none

/-- The character of an escape with this number; a surrogate without its other half is replaced. -/
def unicodeChar (n : Nat) (bytes : List UInt8) : Char × List UInt8 :=
  if 0xd800 ≤ n ∧ n < 0xdc00 then
    match readLowSurrogate bytes with
    | some (low, rest) => (Char.ofNat ((n - 0xd800) * 0x400 + (low - 0xdc00) + 0x10000), rest)
    | none => (replacementChar, bytes)
  else if 0xdc00 ≤ n ∧ n < 0xe000 then (replacementChar, bytes)
  else (Char.ofNat n, bytes)

def readEscape : Reader Char
  | [] => none
  | letter :: bytes =>
    if letter = 117 then do
      let (n, rest) ← readHex4 bytes
      return unicodeChar n rest
    else do
      let c ← escapeLetter letter
      return (c, bytes)

def readChar : Reader Char
  | [] => none
  | b :: bytes =>
    -- control characters have to be escaped
    if b = 92 then readEscape bytes
    else if b < 32 then none
    else
      match firstChar (b :: bytes) with
      | some c => some (c, bytes.drop (c.utf8Size - 1))
      -- a byte that is no character is replaced on its own
      | none => some (replacementChar, bytes)

/-- The rest of a string with at most so many characters, after the opening quote. -/
def readChars : Nat → Reader (List UInt8)
  | 0, _ => none
  | _ + 1, [] => none
  | limit + 1, b :: bytes =>
    if b = 34 then some ([], bytes)
    else do
      let (c, bytes) ← readChar (b :: bytes)
      let (text, rest) ← readChars limit bytes
      return (String.utf8EncodeChar c ++ text, rest)

def readString : Reader (List UInt8) := fun bytes => readChars bytes.length bytes

/-- An escape takes six bytes at most. -/
theorem length_escapeChar_le (c : Option Char) : (escapeChar c).length ≤ 6 := by
  cases c with
  | none => exact Nat.le_refl 6
  | some c =>
    rw [escapeChar]
    split
    · exact Nat.le_add_left 2 4
    · split
      · exact Nat.le_refl 6
      · rw [String.length_utf8EncodeChar]
        exact Nat.le_trans c.utf8Size_le_four (Nat.le_add_right 4 2)

theorem length_flatMap_escapeChar_le (cs : List (Option Char)) :
    (cs.flatMap escapeChar).length ≤ 6 * cs.length := by
  induction cs with
  | nil => exact Nat.le_refl 0
  | cons c cs ih =>
    have hc := length_escapeChar_le c
    rw [List.flatMap_cons, List.length_append, List.length_cons]
    omega

/-- How long the quoted text is. -/
theorem length_quote_le (text : List UInt8) : (quote text).length ≤ 6 * (chars text).length + 2 := by
  have hbody := length_flatMap_escapeChar_le (chars text)
  rw [quote, List.length_cons, List.length_append, List.length_singleton]
  omega

/-- Bytes that stand for themselves in a quoted text. -/
def isPlain (b : UInt8) : Bool :=
  decide (32 ≤ b) && decide (b < 128) && b != 34 && b != 92 && b != 60 && b != 62 && b != 38

theorem isPlain_lt (h : isPlain b = true) : b < 128 := by
  simp only [isPlain, Bool.and_eq_true, decide_eq_true_eq] at h
  exact h.1.1.1.1.1.2

/-- Plain texts are ASCII. -/
theorem sanitize_plain (h : ∀ b ∈ text, isPlain b = true) : sanitize text = text :=
  sanitize_ascii fun b hb => isPlain_lt (h b hb)

theorem isPlain_hexEncode (bytes : List UInt8) : ∀ b ∈ hexEncode bytes, isPlain b = true := by
  have hall : ∀ n < 16, isPlain (hexDigit n) = true := by decide
  intro b hb
  obtain ⟨n, hn, rfl⟩ := mem_hexEncode hb
  exact hall n hn

theorem isPlain_base64Encode (bytes : List UInt8) : ∀ b ∈ base64Encode bytes, isPlain b = true := by
  have hall : ∀ n < 64, isPlain (base64Char n) = true := by decide
  intro b hb
  rcases mem_base64Encode hb with rfl | ⟨n, hn, rfl⟩
  · decide
  · exact hall n hn

/-- A plain byte is not escaped. -/
theorem escapeChar_plain (h : isPlain b = true) : escapeChar (some (Char.ofNat b.toNat)) = [b] := by
  have hall : ∀ n < 128, isPlain (UInt8.ofNat n) = true →
      escapeChar (some (Char.ofNat n)) = [UInt8.ofNat n] := by decide
  have hb := hall b.toNat (isPlain_lt h)
  rw [UInt8.ofNat_toNat] at hb
  exact hb h

theorem flatMap_escapeChar_plain (h : ∀ b ∈ text, isPlain b = true) :
    (chars text).flatMap escapeChar = text := by
  induction text with
  | nil => rfl
  | cons b text ih =>
    have hb := h b List.mem_cons_self
    rw [chars_ascii (isPlain_lt hb), List.flatMap_cons, escapeChar_plain hb,
      ih fun x hx => h x (List.mem_cons_of_mem _ hx)]
    rfl

/-- A plain text grows by its quotes only. -/
theorem length_quote_plain (h : ∀ b ∈ text, isPlain b = true) : (quote text).length = text.length + 2 := by
  rw [quote, flatMap_escapeChar_plain h, List.length_cons, List.length_append, List.length_singleton]

/-- The four digits of an escape are read back. -/
theorem readHex4_unicodeEscape {n : Nat} (hn : n < 65536) (rest : List UInt8) :
    readHex4 (hexDigit (n / 4096 % 16) :: hexDigit (n / 256 % 16) :: hexDigit (n / 16 % 16) ::
      hexDigit (n % 16) :: rest) = some (n, rest) := by
  have hdigit : ∀ m, hexValue (hexDigit (m % 16)) = some (m % 16) := fun m =>
    hexValue_hexDigit (m % 16) (Nat.mod_lt m (by omega))
  rw [readHex4, hdigit, hdigit, hdigit, hdigit]
  have hsum : 4096 * (n / 4096 % 16) + 256 * (n / 256 % 16) + 16 * (n / 16 % 16) + n % 16 = n := by
    omega
  show some (4096 * (n / 4096 % 16) + 256 * (n / 256 % 16) + 16 * (n / 16 % 16) + n % 16, rest) =
    some (n, rest)
  rw [hsum]

/-- The number of a character is not that of a surrogate. -/
theorem unicodeChar_toNat (c : Char) (rest : List UInt8) : unicodeChar c.toNat rest = (c, rest) := by
  have hvalid : c.toNat < 0xd800 ∨ 0xdfff < c.toNat ∧ c.toNat < 0x110000 := c.valid
  rw [unicodeChar, if_neg (by omega), if_neg (by omega), Char.ofNat_toNat]

theorem readChar_unicodeEscape_eq {n : Nat} (hn : n < 65536) (rest : List UInt8) :
    readChar (unicodeEscape n ++ rest) = some (unicodeChar n rest) := by
  have hread := readHex4_unicodeEscape hn rest
  show (readHex4 (hexDigit (n / 4096 % 16) :: hexDigit (n / 256 % 16) ::
    hexDigit (n / 16 % 16) :: hexDigit (n % 16) :: rest)).bind _ = _
  rw [hread]
  rfl

/-- An escape is read as its character. -/
theorem readChar_unicodeEscape (hc : c.toNat < 65536) (rest : List UInt8) :
    readChar (unicodeEscape c.toNat ++ rest) = some (c, rest) := by
  rw [readChar_unicodeEscape_eq hc, unicodeChar_toNat]

/-- The letter of a short escape is read back. -/
theorem escapeLetter_shortEscape {letter : UInt8} (h : shortEscape c = some letter) :
    letter ≠ 117 ∧ escapeLetter letter = some c := by
  have hc : c = Char.ofNat c.toNat := (Char.ofNat_toNat c).symm
  unfold shortEscape at h
  split at h
  all_goals first
    | cases h
      rename_i hn
      rw [hc, hn]
      decide
    | cases h

/-- The first byte of a character tells whether it is a plain one. -/
theorem utf8EncodeChar_head {tail : List UInt8} (h : String.utf8EncodeChar c = b :: tail) :
    b.toNat = c.toNat ∨ 128 ≤ b.toNat := by
  have hval : c.val.toNat = c.toNat := rfl
  unfold String.utf8EncodeChar at h
  simp only [hval] at h
  split at h
  · cases h
    rw [UInt8.toNat_ofNat']
    omega
  all_goals
    split at h
    on_goal 2 => split at h
    all_goals
      cases h
      rw [UInt8.toNat_ofNat']
      omega

/-- What is not escaped is no control character, quote or backslash. -/
theorem toNat_of_not_escaped (hshort : shortEscape c = none) (hneeds : needsEscape c = false) :
    32 ≤ c.toNat ∧ c.toNat ≠ 34 ∧ c.toNat ≠ 92 := by
  refine ⟨?_, ?_, ?_⟩
  · by_contra hlt
    have hcontrol : decide (c.toNat < 32) = true := decide_eq_true (by omega)
    simp only [needsEscape, hcontrol, Bool.true_or] at hneeds
    cases hneeds
  all_goals
    intro heq
    simp only [shortEscape, heq] at hshort
    cases hshort

theorem toNat_of_needsEscape (h : needsEscape c = true) : c.toNat < 65536 := by
  simp only [needsEscape, Bool.or_eq_true, decide_eq_true_eq, beq_iff_eq] at h
  omega

/-- A character that is not escaped is read back. -/
theorem readChar_utf8EncodeChar (hcontrol : 32 ≤ c.toNat) (hbackslash : c.toNat ≠ 92) (rest : List UInt8) :
    readChar (String.utf8EncodeChar c ++ rest) = some (c, rest) := by
  have hfirst := firstChar_utf8EncodeChar c rest
  obtain ⟨b, tail, hencode, htail⟩ := utf8EncodeChar_eq_cons c
  have hhead := utf8EncodeChar_head hencode
  have hne : b ≠ 92 := by
    rintro rfl
    have h92 : (92 : UInt8).toNat = 92 := rfl
    omega
  have hge : ¬ b < 32 := by
    intro hlt
    have hlt : b.toNat < 32 := hlt
    omega
  rw [hencode, List.cons_append] at hfirst ⊢
  rw [readChar, if_neg hne, if_neg hge, hfirst]
  show some (c, (tail ++ rest).drop (c.utf8Size - 1)) = some (c, rest)
  rw [← htail, List.drop_left]

/-- Whatever is written for a character is read back, a stray byte as U+FFFD. -/
theorem readChar_escapeChar (c : Option Char) (rest : List UInt8) :
    readChar (escapeChar c ++ rest) = some (c.getD replacementChar, rest) := by
  cases c with
  | none => exact readChar_unicodeEscape (c := replacementChar) (by decide) rest
  | some c =>
    rw [escapeChar]
    split
    next letter hletter =>
      obtain ⟨hne, hread⟩ := escapeLetter_shortEscape hletter
      show readEscape (letter :: rest) = some (c, rest)
      rw [readEscape, if_neg hne, hread]
      rfl
    next hshort =>
      split
      next hneeds =>
        exact readChar_unicodeEscape (toNat_of_needsEscape hneeds) rest
      next hneeds =>
        obtain ⟨hcontrol, -, hbackslash⟩ := toNat_of_not_escaped hshort (Bool.eq_false_iff.mpr hneeds)
        exact readChar_utf8EncodeChar hcontrol hbackslash rest

/-- An escaped character does not look like the end of the string. -/
theorem escapeChar_head (c : Option Char) : ∃ b tail, escapeChar c = b :: tail ∧ b ≠ 34 := by
  cases c with
  | none => exact ⟨92, _, rfl, by decide⟩
  | some c =>
    rw [escapeChar]
    split
    · exact ⟨92, _, rfl, by decide⟩
    next hshort =>
      split
      · exact ⟨92, _, rfl, by decide⟩
      next hneeds =>
        obtain ⟨-, hquote, -⟩ := toNat_of_not_escaped hshort (Bool.eq_false_iff.mpr hneeds)
        obtain ⟨b, tail, hencode, -⟩ := utf8EncodeChar_eq_cons c
        refine ⟨b, tail, hencode, ?_⟩
        rintro rfl
        have h34 : (34 : UInt8).toNat = 34 := rfl
        have hhead := utf8EncodeChar_head hencode
        omega

/-- A text that spells the characters one by one, up to the closing quote. -/
inductive Spelled (rest : List UInt8) : List UInt8 → List Char → Prop where
  | nil : Spelled rest (34 :: rest) []
  | cons {b : UInt8} {tail mid : List UInt8} {c : Char} {cs : List Char} (hne : b ≠ 34)
      (hread : readChar (b :: tail) = some (c, mid)) (hlength : mid.length ≤ tail.length)
      (hmid : Spelled rest mid cs) : Spelled rest (b :: tail) (c :: cs)

theorem Spelled.readChars (h : Spelled rest text cs) {limit : Nat} (hlimit : text.length ≤ limit) :
    readChars limit text = some (cs.flatMap String.utf8EncodeChar, rest) := by
  induction h generalizing limit with
  | nil =>
    cases limit with
    | zero => cases hlimit
    | succ limit => rfl
  | cons hne hread hlength _ ih =>
    cases limit with
    | zero => cases hlimit
    | succ limit =>
      -- one character goes, and with it one of the limit
      have hrest := ih (Nat.le_trans hlength (Nat.le_of_succ_le_succ hlimit))
      rw [Rustcast.readChars, if_neg hne, hread]
      simp only [Option.bind_eq_bind, Option.bind_some, hrest]
      rfl

theorem Spelled.readString (h : Spelled rest text cs) :
    readString text = some (cs.flatMap String.utf8EncodeChar, rest) := h.readChars (Nat.le_refl _)

theorem Spelled.append {piece : List UInt8} (hpiece : ∃ b tail, piece = b :: tail ∧ b ≠ 34)
    (hread : readChar (piece ++ text) = some (c, text)) (h : Spelled rest text cs) :
    Spelled rest (piece ++ text) (c :: cs) := by
  obtain ⟨b, tail, rfl, hne⟩ := hpiece
  have hlength : text.length ≤ (tail ++ text).length := by
    rw [List.length_append]
    exact Nat.le_add_left _ _
  exact .cons hne hread hlength h

theorem spelled_escaped (cs : List (Option Char)) (rest : List UInt8) :
    Spelled rest (cs.flatMap escapeChar ++ 34 :: rest) (cs.map (·.getD replacementChar)) := by
  induction cs with
  | nil => exact .nil
  | cons c cs ih =>
    rw [List.flatMap_cons, List.append_assoc]
    exact ih.append (escapeChar_head c) (readChar_escapeChar c _)

/-- A quoted text is read as the text, sanitized. -/
theorem readString_quote (text rest : List UInt8) :
    readString ((chars text).flatMap escapeChar ++ 34 :: rest) = some (sanitize text, rest) := by
  rw [(spelled_escaped (chars text) rest).readString, sanitize_eq]

end Rustcast
