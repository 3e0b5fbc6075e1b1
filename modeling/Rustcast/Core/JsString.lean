import Rustcast.Core.Json

/-!
# Strings of JavaScript

A string of JavaScript is a sequence of 16-bit code units, in which a surrogate may stand alone.
`TextEncoder` turns it into UTF-8, with U+FFFD for a lone surrogate, and `JSON.stringify` into the
text of a JSON string, with an escape for it.
-/

namespace Rustcast

abbrev JsString := List UInt16

inductive CodePoint where
  | scalar (c : Char)
  | lone (unit : UInt16)
  deriving DecidableEq

def isHighSurrogate (u : UInt16) : Bool := decide (0xd800 ≤ u.toNat ∧ u.toNat < 0xdc00)

def isLowSurrogate (u : UInt16) : Bool := decide (0xdc00 ≤ u.toNat ∧ u.toNat < 0xe000)

/-- A unit that is not part of a pair. -/
def singleUnit (u : UInt16) : CodePoint :=
  if isHighSurrogate u || isLowSurrogate u then .lone u else .scalar (Char.ofNat u.toNat)

/-- The characters and lone surrogates of a string. -/
def codePoints : JsString → List CodePoint
  | [] => []
  | [u] => [singleUnit u]
  | u :: low :: rest =>
    if isHighSurrogate u && isLowSurrogate low then
      .scalar (Char.ofNat ((u.toNat - 0xd800) * 0x400 + (low.toNat - 0xdc00) + 0x10000)) ::
        codePoints rest
    else singleUnit u :: codePoints (low :: rest)

def charUnits (c : Char) : JsString :=
  if c.toNat < 0x10000 then [UInt16.ofNat c.toNat]
  else [UInt16.ofNat (0xd800 + (c.toNat - 0x10000) / 0x400),
    UInt16.ofNat (0xdc00 + (c.toNat - 0x10000) % 0x400)]

def jsString (cs : List Char) : JsString := cs.flatMap charUnits

def utf8 (cs : List Char) : List UInt8 := cs.flatMap String.utf8EncodeChar

/-! ## `TextEncoder` -/

def CodePoint.char : CodePoint → Char
  | scalar c => c
  | lone _ => replacementChar

/-- `new TextEncoder().encode` -/
def textEncode (s : JsString) : List UInt8 := utf8 ((codePoints s).map CodePoint.char)

variable {n : Nat} {u : UInt16} {c : Char} {ps : List CodePoint}

theorem isHighSurrogate_ofNat (h : n < 0x10000) :
    isHighSurrogate (UInt16.ofNat n) = decide (0xd800 ≤ n ∧ n < 0xdc00) := by
  rw [isHighSurrogate, UInt16.toNat_ofNat', Nat.mod_eq_of_lt h]

theorem isLowSurrogate_ofNat (h : n < 0x10000) :
    isLowSurrogate (UInt16.ofNat n) = decide (0xdc00 ≤ n ∧ n < 0xe000) := by
  rw [isLowSurrogate, UInt16.toNat_ofNat', Nat.mod_eq_of_lt h]

theorem codePoints_single (h : isHighSurrogate u = false) (rest : JsString) :
    codePoints (u :: rest) = singleUnit u :: codePoints rest := by
  cases rest with
  | nil => rfl
  | cons low rest =>
    rw [codePoints, h]
    rfl

/-- The units of a character are read as the character. -/
theorem codePoints_charUnits (c : Char) (rest : JsString) :
    codePoints (charUnits c ++ rest) = .scalar c :: codePoints rest := by
  have hvalid : c.toNat < 0xd800 ∨ 0xdfff < c.toNat ∧ c.toNat < 0x110000 := c.valid
  unfold charUnits
  split
  next hsmall =>
    have hhigh : isHighSurrogate (UInt16.ofNat c.toNat) = false := by
      rw [isHighSurrogate_ofNat hsmall]
      exact decide_eq_false (by omega)
    have hlow : isLowSurrogate (UInt16.ofNat c.toNat) = false := by
      rw [isLowSurrogate_ofNat hsmall]
      exact decide_eq_false (by omega)
    have hsame : (UInt16.ofNat c.toNat).toNat = c.toNat := by
      rw [UInt16.toNat_ofNat', Nat.mod_eq_of_lt hsmall]
    rw [List.singleton_append, codePoints_single hhigh, singleUnit, hhigh, hlow, hsame, Char.ofNat_toNat]
    rfl
  next hlarge =>
    -- the two halves of the number above U+FFFF
    have hhi : 0xd800 + (c.toNat - 0x10000) / 0x400 < 0x10000 := by omega
    have hlo : 0xdc00 + (c.toNat - 0x10000) % 0x400 < 0x10000 := by omega
    have hhigh : isHighSurrogate (UInt16.ofNat (0xd800 + (c.toNat - 0x10000) / 0x400)) = true := by
      rw [isHighSurrogate_ofNat hhi]
      exact decide_eq_true (by omega)
    have hlow : isLowSurrogate (UInt16.ofNat (0xdc00 + (c.toNat - 0x10000) % 0x400)) = true := by
      rw [isLowSurrogate_ofNat hlo]
      exact decide_eq_true (by omega)
    show codePoints (_ :: _ :: rest) = _
    rw [codePoints, hhigh, hlow, Bool.and_self, if_pos rfl]
    have hnumber : (0xd800 + (c.toNat - 0x10000) / 0x400 - 0xd800) * 0x400 +
        (0xdc00 + (c.toNat - 0x10000) % 0x400 - 0xdc00) + 0x10000 = c.toNat := by omega
    rw [UInt16.toNat_ofNat', UInt16.toNat_ofNat', Nat.mod_eq_of_lt hhi, Nat.mod_eq_of_lt hlo,
      hnumber, Char.ofNat_toNat]

theorem codePoints_jsString (cs : List Char) : codePoints (jsString cs) = cs.map .scalar := by
  induction cs with
  | nil => rfl
  | cons c cs ih =>
    show codePoints (charUnits c ++ jsString cs) = _
    rw [codePoints_charUnits, ih, List.map_cons]

/-- Without lone surrogates it is plain UTF-8. -/
theorem textEncode_jsString (cs : List Char) : textEncode (jsString cs) = utf8 cs := by
  have hchars : (cs.map CodePoint.scalar).map CodePoint.char = cs := by
    rw [List.map_map]
    exact List.map_id cs
  rw [textEncode, codePoints_jsString, hchars]

/-! ## `JSON.stringify` -/

def unicodeEscapeChars (n : Nat) : List Char := (unicodeEscape n).map fun b => Char.ofNat b.toNat

def stringifyPoint : CodePoint → List Char
  | .scalar c =>
    match shortEscape c with
    | some letter => ['\\', Char.ofNat letter.toNat]
    | none => if c.toNat < 32 then unicodeEscapeChars c.toNat else [c]
  | .lone u => unicodeEscapeChars u.toNat

def stringifyString (s : JsString) : List Char :=
  '"' :: ((codePoints s).flatMap stringifyPoint ++ ['"'])

def joinMembers : List (List Char) → List Char
  | [] => []
  | [text] => text
  | text :: texts => text ++ ',' :: joinMembers texts

/-- An object from keys and the texts of their values. -/
def stringifyObject (members : List (JsString × List Char)) : List Char :=
  '\x7b' :: (joinMembers (members.map fun (key, value) => stringifyString key ++ ':' :: value) ++ ['\x7d'])

/-! ## The bytes of the JSON text -/

theorem utf8_append (cs cs' : List Char) : utf8 (cs ++ cs') = utf8 cs ++ utf8 cs' :=
  List.flatMap_append

theorem utf8_cons (c : Char) (cs : List Char) : utf8 (c :: cs) = String.utf8EncodeChar c ++ utf8 cs :=
  List.flatMap_cons

theorem utf8_ascii {bytes : List UInt8} (h : ∀ b ∈ bytes, b < 128) :
    utf8 (bytes.map fun b => Char.ofNat b.toNat) = bytes := by
  induction bytes with
  | nil => rfl
  | cons b bytes ih =>
    have hb := utf8EncodeChar_ascii (h b List.mem_cons_self)
    rw [List.map_cons, utf8_cons, hb, ih fun x hx => h x (List.mem_cons_of_mem _ hx)]
    rfl

def escapePoint : CodePoint → List UInt8
  | .scalar c =>
    match shortEscape c with
    | some letter => [92, letter]
    | none => if c.toNat < 32 then unicodeEscape c.toNat else String.utf8EncodeChar c
  | .lone u => unicodeEscape u.toNat

theorem unicodeEscape_ascii (n : Nat) : ∀ b ∈ unicodeEscape n, b < 128 := by
  have hdigit : ∀ m < 16, hexDigit m < 128 := by decide
  have hmod : ∀ m, hexDigit (m % 16) < 128 := fun m => hdigit _ (Nat.mod_lt m (by decide))
  intro b hb
  simp only [unicodeEscape, List.mem_cons, List.not_mem_nil, or_false] at hb
  rcases hb with rfl | rfl | rfl | rfl | rfl | rfl
  · decide
  · decide
  all_goals exact hmod _

theorem shortEscape_ascii {letter : UInt8} (h : shortEscape c = some letter) : letter < 128 := by
  unfold shortEscape at h
  split at h
  all_goals first
    | cases h
      decide
    | cases h

theorem utf8_stringifyPoint (p : CodePoint) : utf8 (stringifyPoint p) = escapePoint p := by
  have hescape : ∀ n, utf8 (unicodeEscapeChars n) = unicodeEscape n := fun n =>
    utf8_ascii (unicodeEscape_ascii n)
  cases p with
  | lone u => exact hescape u.toNat
  | scalar c =>
    rw [stringifyPoint, escapePoint]
    split
    next letter hletter =>
      have hb := utf8EncodeChar_ascii (shortEscape_ascii hletter)
      rw [utf8_cons, utf8_cons, hb]
      rfl
    · split
      · exact hescape c.toNat
      · exact List.append_nil _

theorem utf8_stringifyPoints (ps : List CodePoint) :
    utf8 (ps.flatMap stringifyPoint) = ps.flatMap escapePoint := by
  induction ps with
  | nil => rfl
  | cons p ps ih => rw [List.flatMap_cons, utf8_append, utf8_stringifyPoint, ih, List.flatMap_cons]

/-- A quoted string in bytes. -/
theorem utf8_stringifyString (s : JsString) :
    utf8 (stringifyString s) = 34 :: ((codePoints s).flatMap escapePoint ++ [34]) := by
  rw [stringifyString, utf8_cons, utf8_append, utf8_stringifyPoints]
  rfl

theorem utf8_joinMembers (texts : List (List Char)) :
    utf8 (joinMembers texts) = separated (texts.map utf8) := by
  fun_induction joinMembers texts with
  | case1 => rfl
  | case2 text => rfl
  | case3 text texts hne ih =>
    cases texts with
    | nil => exact absurd rfl hne
    | cons next texts =>
      rw [utf8_append, utf8_cons, ih]
      rfl

/-- The object that `writeObject` writes, for keys that both spell the same. -/
theorem utf8_stringifyObject {members : List (JsString × List Char)} {keys : List (List UInt8)}
    (h : List.Forall₂ (fun member key => utf8 (stringifyString member.1) = quote key) members keys) :
    utf8 (stringifyObject members) = writeObject (keys.zip (members.map fun member => utf8 member.2)) := by
  have hmembers : (members.map fun (key, value) => stringifyString key ++ ':' :: value).map utf8 =
      (keys.zip (members.map fun member => utf8 member.2)).map writeMember := by
    induction h with
    | nil => rfl
    | cons hkey _ ih =>
      rw [List.map_cons, List.map_cons, ih, utf8_append, hkey]
      rfl
  rw [stringifyObject, utf8_cons, utf8_append, utf8_joinMembers, hmembers]
  rfl

/-! ## Reading it back -/

/-- What stands behind a lone first half is not the escape of a second half. -/
def NotLow : List CodePoint → Prop
  | .lone u :: _ => isLowSurrogate u = false
  | _ => True

theorem readLowSurrogate_backslash {b : UInt8} (hb : b ≠ 117) (rest : List UInt8) :
    readLowSurrogate (92 :: b :: rest) = none := by
  unfold readLowSurrogate
  split
  next h =>
    cases h
    exact absurd rfl hb
  · rfl

theorem readLowSurrogate_other {b : UInt8} (hb : b ≠ 92) (rest : List UInt8) :
    readLowSurrogate (b :: rest) = none := by
  unfold readLowSurrogate
  split
  next h =>
    cases h
    exact absurd rfl hb
  · rfl

theorem readLowSurrogate_escape (hn : n < 65536) (hlow : ¬ (0xdc00 ≤ n ∧ n < 0xe000)) (rest : List UInt8) :
    readLowSurrogate (unicodeEscape n ++ rest) = none := by
  have hread := readHex4_unicodeEscape hn rest
  show (readHex4 (hexDigit (n / 4096 % 16) :: hexDigit (n / 256 % 16) ::
    hexDigit (n / 16 % 16) :: hexDigit (n % 16) :: rest)).bind _ = none
  rw [hread]
  show (if 0xdc00 ≤ n ∧ n < 0xe000 then _ else none) = none
  rw [if_neg hlow]

/-- Characters of a string that are neither escaped nor the quote. -/
theorem toNat_of_plain (hshort : shortEscape c = none) : c.toNat ≠ 34 ∧ c.toNat ≠ 92 := by
  constructor
  all_goals
    intro heq
    simp only [shortEscape, heq] at hshort
    cases hshort

theorem utf8EncodeChar_head_ne (hn : n < 128) (hc : c.toNat ≠ n) :
    ∃ b tail, String.utf8EncodeChar c = b :: tail ∧ b ≠ UInt8.ofNat n := by
  obtain ⟨b, tail, hencode, -⟩ := utf8EncodeChar_eq_cons c
  refine ⟨b, tail, hencode, ?_⟩
  rintro rfl
  have hhead := utf8EncodeChar_head hencode
  rw [UInt8.toNat_ofNat'] at hhead
  omega

/-- A lone surrogate is not taken for half of a pair. -/
theorem readLowSurrogate_points (h : NotLow ps) (rest : List UInt8) :
    readLowSurrogate (ps.flatMap escapePoint ++ 34 :: rest) = none := by
  cases ps with
  | nil => exact readLowSurrogate_other (by decide) rest
  | cons p ps =>
    rw [List.flatMap_cons]
    cases p with
    | lone u =>
      refine readLowSurrogate_escape u.toNat_lt (fun hlow => ?_) _
      have htrue : isLowSurrogate u = true := decide_eq_true hlow
      exact absurd (h.symm.trans htrue) (by decide)
    | scalar c =>
      rw [escapePoint]
      split
      next hletter =>
        exact readLowSurrogate_backslash (escapeLetter_shortEscape hletter).1 _
      next hshort =>
        split
        · exact readLowSurrogate_escape (by omega) (by omega) _
        · obtain ⟨b, tail, hencode, hne⟩ := utf8EncodeChar_head_ne (by decide) (toNat_of_plain hshort).2
          rw [hencode]
          exact readLowSurrogate_other hne _

/-- A lone surrogate is read as U+FFFD. -/
theorem readChar_lone (hlone : (isHighSurrogate u || isLowSurrogate u) = true) {text : List UInt8}
    (hnext : isHighSurrogate u = true → readLowSurrogate text = none) :
    readChar (unicodeEscape u.toNat ++ text) = some (replacementChar, text) := by
  rw [readChar_unicodeEscape_eq u.toNat_lt, unicodeChar]
  split
  next hhigh =>
    rw [hnext (decide_eq_true hhigh)]
  next hhigh =>
    have hlow : 0xdc00 ≤ u.toNat ∧ u.toNat < 0xe000 := by
      have hfalse : isHighSurrogate u = false := decide_eq_false hhigh
      rw [hfalse] at hlone
      exact of_decide_eq_true hlone
    rw [if_pos hlow]

theorem readChar_scalar (c : Char) (text : List UInt8) :
    readChar (escapePoint (.scalar c) ++ text) = some (c, text) := by
  rw [escapePoint]
  split
  next letter hletter =>
    obtain ⟨hne, hread⟩ := escapeLetter_shortEscape hletter
    show readEscape (letter :: text) = some (c, text)
    rw [readEscape, if_neg hne, hread]
    rfl
  next hshort =>
    split
    · exact readChar_unicodeEscape (by omega) text
    · exact readChar_utf8EncodeChar (by omega) (toNat_of_plain hshort).2 text

theorem escapePoint_head (p : CodePoint) : ∃ b tail, escapePoint p = b :: tail ∧ b ≠ 34 := by
  cases p with
  | lone u => exact ⟨92, _, rfl, by decide⟩
  | scalar c =>
    rw [escapePoint]
    split
    · exact ⟨92, _, rfl, by decide⟩
    next hshort =>
      split
      · exact ⟨92, _, rfl, by decide⟩
      · exact utf8EncodeChar_head_ne (by decide) (toNat_of_plain hshort).1

/-- Lone surrogates are surrogates, and no first half stands before a second half. -/
def Unpaired : List CodePoint → Prop
  | [] => True
  | .scalar _ :: ps => Unpaired ps
  | .lone u :: ps => (isHighSurrogate u || isLowSurrogate u) = true ∧
    (isHighSurrogate u = true → NotLow ps) ∧ Unpaired ps

theorem unpaired_singleUnit (h : Unpaired ps) (hnext : isHighSurrogate u = true → NotLow ps) :
    Unpaired (singleUnit u :: ps) := by
  unfold singleUnit
  split
  next hlone =>
    exact ⟨hlone, hnext, h⟩
  · exact h

theorem notLow_codePoints (h : isLowSurrogate u = false) (rest : JsString) :
    NotLow (codePoints (u :: rest)) := by
  have hsingle : ∀ ps, NotLow (singleUnit u :: ps) := by
    intro ps
    unfold singleUnit
    split
    · exact h
    · trivial
  cases rest with
  | nil => exact hsingle []
  | cons low rest =>
    rw [codePoints]
    split
    · trivial
    · exact hsingle _

/-- The halves of a pair do not come one by one. -/
theorem unpaired_codePoints (s : JsString) : Unpaired (codePoints s) := by
  fun_induction codePoints s with
  | case1 => trivial
  | case2 u => exact unpaired_singleUnit trivial fun _ => trivial
  | case3 u low rest _ ih => exact ih
  | case4 u low rest hpair ih =>
    refine unpaired_singleUnit ih fun hhigh => notLow_codePoints ?_ rest
    rw [hhigh] at hpair
    exact Bool.eq_false_iff.mpr hpair

/-- The points are read back one by one. -/
theorem spelled_points (h : Unpaired ps) (rest : List UInt8) :
    Spelled rest (ps.flatMap escapePoint ++ 34 :: rest) (ps.map CodePoint.char) := by
  induction ps with
  | nil => exact .nil
  | cons p ps ih =>
    rw [List.flatMap_cons, List.append_assoc]
    cases p with
    | scalar c => exact (ih h).append (escapePoint_head _) (readChar_scalar c _)
    | lone u =>
      obtain ⟨hlone, hnext, htail⟩ := h
      refine (ih htail).append (escapePoint_head _) (readChar_lone hlone fun hhigh => ?_)
      exact readLowSurrogate_points (hnext hhigh) rest

/-- A reader of JSON gets the text as `TextEncoder` would write it. -/
theorem denotes_stringifyString (depth : Nat) (s : JsString) :
    Denotes depth (utf8 (stringifyString s)) (.string (textEncode s)) := by
  rw [utf8_stringifyString]
  exact denotes_string depth fun rest => (spelled_points (unpaired_codePoints s) rest).readString

end Rustcast
