import Mathlib.Algebra.Order.BigOperators.Group.List
import Mathlib.Data.Nat.Digits.Lemmas
import Rustcast.Core.JsonString

/-!
# JSON texts

Numbers, arrays and objects over the strings of `JsonString`. The reader takes any JSON text up to
a nesting depth, which is what its recursion is on.
-/

namespace Rustcast

/-! ## Numbers -/

def isDigit (b : UInt8) : Bool := 48 ≤ b && b ≤ 57

def decimal (n : Nat) : List UInt8 :=
  if n = 0 then [48] else (Nat.digits 10 n).reverse.map fun d => UInt8.ofNat (48 + d)

def writeInt (n : Int) : List UInt8 :=
  if n < 0 then 45 :: decimal n.natAbs else decimal n.natAbs

def readDigits : Reader (List UInt8) := fun bytes =>
  if bytes.takeWhile isDigit = [] then none
  else some (bytes.takeWhile isDigit, bytes.dropWhile isDigit)

/-- No digit follows a leading zero. -/
def readWhole : Reader (List UInt8)
  | [] => none
  | b :: bytes => if b = 48 then some ([b], bytes) else readDigits (b :: bytes)

def readSign (signs : List UInt8) : Reader (List UInt8)
  | [] => some ([], [])
  | b :: bytes => if b ∈ signs then some ([b], bytes) else some ([], b :: bytes)

def readFraction : Reader (List UInt8)
  | [] => some ([], [])
  | b :: bytes =>
    if b = 46 then do
      let (digits, rest) ← readDigits bytes
      return (b :: digits, rest)
    else some ([], b :: bytes)

def readExponent : Reader (List UInt8)
  | [] => some ([], [])
  | b :: bytes =>
    if b = 101 ∨ b = 69 then do
      let (sign, bytes) ← readSign [43, 45] bytes
      let (digits, rest) ← readDigits bytes
      return (b :: sign ++ digits, rest)
    else some ([], b :: bytes)

def readNumber : Reader (List UInt8) := fun bytes => do
  let (sign, bytes) ← readSign [45] bytes
  let (whole, bytes) ← readWhole bytes
  let (fraction, bytes) ← readFraction bytes
  let (exponent, bytes) ← readExponent bytes
  return (sign ++ whole ++ fraction ++ exponent, bytes)

def digitsValue (digits : List UInt8) : Nat :=
  Nat.ofDigits 10 (digits.reverse.map fun b => b.toNat - 48)

def fitsInt64 (n : Int) : Bool := decide (-9223372036854775808 ≤ n ∧ n < 9223372036854775808)

def parseDigits (digits : List UInt8) : Option Nat :=
  if digits = [] ∨ digits.all isDigit = false then none else some (digitsValue digits)

/-- A whole number that fits into 64 bits. -/
def parseInt64 (literal : List UInt8) : Option Int := do
  let (sign, digits) ← readSign [45] literal
  let n ← parseDigits digits
  let value : Int := if sign = [] then n else -n
  if fitsInt64 value then some value else none

/-- What follows a value in an array or an object, or the end of the text. -/
def EndsValue (rest : List UInt8) : Prop := ∀ b ∈ rest.head?, b = 44 ∨ b = 93 ∨ b = 125

variable {n : Nat} {b : UInt8} {rest : List UInt8} {texts : List (List UInt8)}

theorem decimal_digit (h : b ∈ decimal n) : isDigit b = true := by
  unfold decimal at h
  split at h
  · rw [List.mem_singleton.mp h]
    decide
  · obtain ⟨d, hd, rfl⟩ := List.mem_map.mp h
    have hlt : d < 10 := Nat.digits_lt_base (by omega) (List.mem_reverse.mp hd)
    have hall : ∀ d < 10, isDigit (UInt8.ofNat (48 + d)) = true := by decide
    exact hall d hlt

theorem digitsValue_decimal (n : Nat) : digitsValue (decimal n) = n := by
  unfold digitsValue decimal
  split
  next hzero =>
    rw [hzero]
    rfl
  · have hvalue : ∀ d ∈ Nat.digits 10 n, (UInt8.ofNat (48 + d)).toNat - 48 = d := by
      intro d hd
      have hlt : d < 10 := Nat.digits_lt_base (by omega) hd
      have hall : ∀ d < 10, (UInt8.ofNat (48 + d)).toNat - 48 = d := by decide
      exact hall d hlt
    have hvalues : (Nat.digits 10 n).map ((fun b : UInt8 => b.toNat - 48) ∘
        fun d => UInt8.ofNat (48 + d)) = Nat.digits 10 n :=
      (List.map_congr_left hvalue).trans (List.map_id' _)
    rw [← List.map_reverse, List.reverse_reverse, List.map_map, hvalues, Nat.ofDigits_digits]

/-- Only zero starts with the digit zero. -/
theorem decimal_head (hn : n ≠ 0) : ∃ b tail, decimal n = b :: tail ∧ b ≠ 48 := by
  have hnil : Nat.digits 10 n ≠ [] := Nat.digits_ne_nil_iff_ne_zero.mpr hn
  have hlast := Nat.getLast_digit_ne_zero 10 hn
  have hlt : (Nat.digits 10 n).getLast hnil < 10 := Nat.digits_lt_base (by omega) (List.getLast_mem hnil)
  have hdigits := (List.dropLast_append_getLast hnil).symm
  -- the digits are least significant first, so the last one is written first
  generalize (Nat.digits 10 n).getLast hnil = d at hlast hlt hdigits
  rw [decimal, if_neg hn, hdigits, List.reverse_append]
  refine ⟨UInt8.ofNat (48 + d), _, rfl, ?_⟩
  have hall : ∀ d < 10, d ≠ 0 → UInt8.ofNat (48 + d) ≠ 48 := by decide
  exact hall d hlt hlast

theorem decimal_ne_nil (n : Nat) : decimal n ≠ [] := by
  by_cases hn : n = 0
  · rw [hn]
    exact List.cons_ne_nil _ _
  · obtain ⟨b, tail, hdecimal, -⟩ := decimal_head hn
    rw [hdecimal]
    exact List.cons_ne_nil b tail

/-- Nothing of a number follows a value. -/
theorem EndsValue.not_number (h : EndsValue (b :: rest)) :
    isDigit b = false ∧ b ≠ 46 ∧ ¬ (b = 101 ∨ b = 69) := by
  rcases h b rfl with rfl | rfl | rfl
  all_goals decide

variable {digits text : List UInt8} {value : Json}

theorem readDigits_append (hdigits : ∀ b ∈ digits, isDigit b = true) (hne : digits ≠ [])
    (hrest : EndsValue rest) : readDigits (digits ++ rest) = some (digits, rest) := by
  have hstop : rest.takeWhile isDigit = [] ∧ rest.dropWhile isDigit = rest := by
    cases rest with
    | nil => exact ⟨rfl, rfl⟩
    | cons b rest =>
      have hb := hrest.not_number.1
      exact ⟨List.takeWhile_cons_of_neg (by rw [hb]; decide),
        List.dropWhile_cons_of_neg (by rw [hb]; decide)⟩
  rw [readDigits, List.takeWhile_append_of_pos hdigits, List.dropWhile_append_of_pos hdigits,
    hstop.1, hstop.2, List.append_nil, if_neg hne]

theorem readWhole_decimal (n : Nat) (hrest : EndsValue rest) :
    readWhole (decimal n ++ rest) = some (decimal n, rest) := by
  by_cases hn : n = 0
  · rw [hn]
    rfl
  · have hread := readDigits_append (fun _ => decimal_digit) (decimal_ne_nil n) hrest
    obtain ⟨b, tail, hdecimal, hne⟩ := decimal_head hn
    rw [hdecimal, List.cons_append] at hread ⊢
    rw [readWhole, if_neg hne]
    exact hread

theorem readFraction_end (hrest : EndsValue rest) : readFraction rest = some ([], rest) := by
  cases rest with
  | nil => rfl
  | cons b rest => rw [readFraction, if_neg hrest.not_number.2.1]

theorem readExponent_end (hrest : EndsValue rest) : readExponent rest = some ([], rest) := by
  cases rest with
  | nil => rfl
  | cons b rest => rw [readExponent, if_neg hrest.not_number.2.2]

theorem decimal_head_ne (n : Nat) : ∃ b tail, decimal n = b :: tail ∧ isDigit b = true := by
  cases hdecimal : decimal n with
  | nil => exact absurd hdecimal (decimal_ne_nil n)
  | cons b tail =>
    have hmem : b ∈ decimal n := by
      rw [hdecimal]
      exact List.mem_cons_self
    exact ⟨b, tail, rfl, decimal_digit hmem⟩

theorem readSign_decimal (n : Nat) (rest : List UInt8) :
    readSign [45] (decimal n ++ rest) = some ([], decimal n ++ rest) := by
  obtain ⟨b, tail, hdecimal, hdigit⟩ := decimal_head_ne n
  have hne : b ∉ [45] := by
    intro hmem
    rw [List.mem_singleton.mp hmem] at hdigit
    cases hdigit
  rw [hdecimal, List.cons_append, readSign, if_neg hne]

theorem readNumber_writeInt (n : Int) (hrest : EndsValue rest) :
    readNumber (writeInt n ++ rest) = some (writeInt n, rest) := by
  have hsign : ∃ sign, writeInt n = sign ++ decimal n.natAbs ∧
      readSign [45] (writeInt n ++ rest) = some (sign, decimal n.natAbs ++ rest) := by
    unfold writeInt
    split
    · exact ⟨[45], rfl, rfl⟩
    · exact ⟨[], rfl, readSign_decimal n.natAbs rest⟩
  obtain ⟨sign, hwrite, hread⟩ := hsign
  simp only [readNumber, hread, Option.bind_eq_bind, Option.bind_some,
    readWhole_decimal n.natAbs hrest, readFraction_end hrest, readExponent_end hrest]
  rw [hwrite, List.append_nil, List.append_nil]
  rfl

theorem parseDigits_decimal (n : Nat) : parseDigits (decimal n) = some n := by
  have hdigits : (decimal n).all isDigit = true := List.all_eq_true.mpr fun _ => decimal_digit
  have hsome : ¬ (decimal n = [] ∨ (decimal n).all isDigit = false) := by
    rw [hdigits]
    exact fun h => h.elim (decimal_ne_nil n) nofun
  rw [parseDigits, if_neg hsome, digitsValue_decimal]

theorem parseInt64_eq {literal sign : List UInt8} {value : Int}
    (hsign : readSign [45] literal = some (sign, digits)) (hdigits : parseDigits digits = some n)
    (hvalue : (if sign = [] then (n : Int) else -n) = value) :
    parseInt64 literal = if fitsInt64 value then some value else none := by
  simp only [parseInt64, hsign, hdigits, Option.bind_eq_bind, Option.bind_some, hvalue]

theorem parseInt64_writeInt (n : Int) : parseInt64 (writeInt n) = if fitsInt64 n then some n else none := by
  by_cases hn : n < 0
  · have hsign : readSign [45] (writeInt n) = some ([45], decimal n.natAbs) := by
      rw [writeInt, if_pos hn]
      rfl
    refine parseInt64_eq hsign (parseDigits_decimal n.natAbs) ?_
    rw [if_neg (List.cons_ne_nil _ _)]
    omega
  · have hsign : readSign [45] (writeInt n) = some ([], decimal n.natAbs) := by
      have hread := readSign_decimal n.natAbs []
      rw [List.append_nil] at hread
      rw [writeInt, if_neg hn, hread]
    refine parseInt64_eq hsign (parseDigits_decimal n.natAbs) ?_
    rw [if_pos rfl]
    omega

/-! ## Values -/

inductive Json where
  | null
  | bool (value : Bool)
  /-- a number is kept as it is written -/
  | number (literal : List UInt8)
  | string (text : List UInt8)
  | array (items : List Json)
  | object (members : List (List UInt8 × Json))

def isSpace (b : UInt8) : Bool := b == 32 || b == 9 || b == 10 || b == 13

def skipSpace (bytes : List UInt8) : List UInt8 := bytes.dropWhile isSpace

section Sequences

variable {α : Type} (item : Reader α) (close : UInt8)

/-- At most so many items with commas between them, up to the closing byte. -/
def readItems : Nat → Reader (List α)
  | 0, _ => none
  | limit + 1, bytes => do
    let (value, bytes) ← item bytes
    match skipSpace bytes with
    | [] => none
    | b :: bytes =>
      -- a comma has to be followed by another item
      if b = close then return ([value], bytes)
      else if b = 44 then do
        let (values, rest) ← readItems limit bytes
        return (value :: values, rest)
      else none

/-- The rest of an array or an object, after the opening byte. -/
def readSequence : Reader (List α) := fun bytes =>
  match skipSpace bytes with
  | [] => none
  | b :: rest => if b = close then some ([], rest) else readItems item close bytes.length bytes

end Sequences

/-- A key, a colon and a value. -/
def readMember {α : Type} (value : Reader α) : Reader (List UInt8 × α) := fun bytes =>
  match skipSpace bytes with
  | [] => none
  | b :: bytes =>
    if b = 34 then do
      let (key, bytes) ← readString bytes
      match skipSpace bytes with
      | [] => none
      | b :: bytes =>
        if b = 58 then do
          let (v, rest) ← value bytes
          return ((key, v), rest)
        else none
    else none

def readWord (word : List UInt8) (value : Json) : Reader Json := fun bytes =>
  if word.isPrefixOf bytes then some (value, bytes.drop word.length) else none

/-- A value with the reader for what is inside of it, if it may be nested any further. -/
def readValueWith (inner : Option (Reader Json)) : Reader Json := fun bytes =>
  match skipSpace bytes with
  | [] => none
  | b :: bytes =>
    if b = 34 then do
      let (text, rest) ← readString bytes
      return (.string text, rest)
    else if b = 91 then do
      let value ← inner
      let (items, rest) ← readSequence value 93 bytes
      return (.array items, rest)
    else if b = 123 then do
      let value ← inner
      let (members, rest) ← readSequence (readMember value) 125 bytes
      return (.object members, rest)
    else if b = 116 then readWord (textBytes "rue") (.bool true) bytes
    else if b = 102 then readWord (textBytes "alse") (.bool false) bytes
    else if b = 110 then readWord (textBytes "ull") .null bytes
    else do
      let (literal, rest) ← readNumber (b :: bytes)
      return (.number literal, rest)

/-- A value in which arrays and objects are nested at most so deep. -/
def readValue : Nat → Reader Json
  | 0 => readValueWith none
  | depth + 1 => readValueWith (some (readValue depth))

def maxDepth : Nat := 10000

def parse (bytes : List UInt8) : Option Json := do
  let (value, rest) ← readValue maxDepth bytes
  if skipSpace rest = [] then return value else none

/-! ## Writing and reading back -/

def separated : List (List UInt8) → List UInt8
  | [] => []
  | [text] => text
  | text :: texts => text ++ 44 :: separated texts

def writeArray (items : List (List UInt8)) : List UInt8 := 91 :: (separated items ++ [93])

def writeMember (member : List UInt8 × List UInt8) : List UInt8 :=
  quote member.1 ++ 58 :: member.2

/-- An object from keys and the texts of their values. -/
def writeObject (members : List (List UInt8 × List UInt8)) : List UInt8 :=
  123 :: (separated (members.map writeMember) ++ [125])

/-- The reader takes the text as the value, whatever follows. -/
def ReadsAs {α : Type} (reader : Reader α) (text : List UInt8) (value : α) : Prop :=
  ∀ rest, EndsValue rest → reader (text ++ rest) = some (value, rest)

theorem skipSpace_cons {bytes : List UInt8} (hb : isSpace b = false) :
    skipSpace (b :: bytes) = b :: bytes :=
  List.dropWhile_cons_of_neg (by rw [hb]; decide)

theorem endsValue_cons (rest : List UInt8) (hb : b = 44 ∨ b = 93 ∨ b = 125) : EndsValue (b :: rest) := by
  intro x hx
  cases hx
  exact hb

section Sequences

variable {α : Type} {item : Reader α} {close : UInt8}

/-- The texts of the items are read as the items, one after the other. -/
theorem readItems_separated {values : List α} (h : List.Forall₂ (ReadsAs item) texts values)
    (hclose : close = 93 ∨ close = 125) (hne : texts ≠ []) (rest : List UInt8) (limit : Nat)
    (hlimit : texts.length ≤ limit) :
    readItems item close limit (separated texts ++ close :: rest) = some (values, rest) := by
  have hspace : isSpace close = false := by
    rcases hclose with rfl | rfl
    all_goals decide
  induction h generalizing limit with
  | nil => exact absurd rfl hne
  | @cons text value texts values hread htail ih =>
    cases limit with
    | zero => cases hlimit
    | succ limit =>
      -- the last item is followed by the closing byte, the others by a comma
      cases texts with
      | nil =>
        cases htail
        have hitem := hread (close :: rest) (endsValue_cons rest (.inr hclose))
        show readItems item close (limit + 1) (text ++ close :: rest) = some ([value], rest)
        simp only [readItems, hitem, Option.bind_eq_bind, Option.bind_some, skipSpace_cons hspace, if_true]
        rfl
      | cons text' texts =>
        have hcomma : (44 : UInt8) ≠ close := by
          rcases hclose with rfl | rfl
          all_goals decide
        have hspace' : isSpace 44 = false := by decide
        have hitem := hread (44 :: (separated (text' :: texts) ++ close :: rest))
          (endsValue_cons _ (.inl rfl))
        have hitems := ih (List.cons_ne_nil _ _) limit (Nat.le_of_succ_le_succ hlimit)
        have htext : separated (text :: text' :: texts) ++ close :: rest =
            text ++ 44 :: (separated (text' :: texts) ++ close :: rest) := by
          rw [separated, List.append_assoc, List.cons_append]
          exact List.cons_ne_nil _ _
        rw [htext]
        simp only [readItems, hitem, Option.bind_eq_bind, Option.bind_some, skipSpace_cons hspace',
          if_neg hcomma, if_true, hitems]
        rfl

/-- The bytes are as many as the items at least, if there is a byte of each. -/
theorem length_le_separated (texts : List (List UInt8)) (h : ∀ text ∈ texts, text ≠ []) :
    texts.length ≤ (separated texts).length := by
  fun_induction separated texts with
  | case1 => exact Nat.le_refl 0
  | case2 text =>
    have hpos := List.length_pos_iff.mpr (h text List.mem_cons_self)
    exact hpos
  | case3 text texts hne ih =>
    have htail := ih fun t ht => h t (List.mem_cons_of_mem _ ht)
    rw [List.length_append, List.length_cons, List.length_cons]
    omega

/-- What a reader takes as an item does not look like the end, which `text` tells. -/
theorem readSequence_separated {values : List α} (h : List.Forall₂ (ReadsAs item) texts values)
    (hclose : close = 93 ∨ close = 125)
    (hstart : ∀ text ∈ texts, ∃ b tail, text = b :: tail ∧ isSpace b = false ∧ b ≠ close)
    (rest : List UInt8) :
    readSequence item close (separated texts ++ close :: rest) = some (values, rest) := by
  cases texts with
  | nil =>
    cases h
    have hspace : isSpace close = false := by
      rcases hclose with rfl | rfl
      all_goals decide
    show readSequence item close (close :: rest) = some ([], rest)
    simp only [readSequence, skipSpace_cons hspace, if_true]
  | cons text texts =>
    have hitems := readItems_separated h hclose (List.cons_ne_nil _ _) rest
      (separated (text :: texts) ++ close :: rest).length (by
        have hlength := length_le_separated (text :: texts) fun t ht => by
          obtain ⟨b, tail, rfl, -⟩ := hstart t ht
          exact List.cons_ne_nil b tail
        rw [List.length_append]
        omega)
    obtain ⟨b, tail, hhead, hspace, hne⟩ : ∃ b tail,
        separated (text :: texts) ++ close :: rest = b :: tail ∧ isSpace b = false ∧ b ≠ close := by
      obtain ⟨b, tail, rfl, hspace, hne⟩ := hstart text List.mem_cons_self
      cases texts with
      | nil | cons text' texts => exact ⟨b, _, rfl, hspace, hne⟩
    rw [hhead] at hitems ⊢
    simp only [readSequence, skipSpace_cons hspace, if_neg hne]
    exact hitems

end Sequences

/-- A text is read as a value whatever comes after it. `denotes_quote`, `denotes_writeInt`,
`denotes_writeArray` and `denotes_writeObject` build a text and its value up together, and
`parse_eq_some` ends it. -/
structure Denotes (depth : Nat) (text : List UInt8) (value : Json) : Prop where
  reads : ReadsAs (readValue depth) text value
  /-- it does not look like space or like the end of an array -/
  starts : ∃ b tail, text = b :: tail ∧ isSpace b = false ∧ b ≠ 93

section Values

variable {depth : Nat}

/-- One step of the reader, with `inner` for what is inside. -/
theorem readValue_eq (depth : Nat) : ∃ inner, readValue depth = readValueWith inner := by
  cases depth with
  | zero => exact ⟨none, rfl⟩
  | succ depth => exact ⟨some (readValue depth), rfl⟩

/-- A text in quotes, however its characters are spelled. -/
theorem denotes_string (depth : Nat) {body value : List UInt8}
    (h : ∀ rest, readString (body ++ 34 :: rest) = some (value, rest)) :
    Denotes depth (34 :: (body ++ [34])) (.string value) where
  reads rest _ := by
    have htext : 34 :: (body ++ [34]) ++ rest = 34 :: (body ++ 34 :: rest) := by
      rw [List.cons_append, List.append_assoc]
      rfl
    have hspace : isSpace 34 = false := by decide
    obtain ⟨inner, hinner⟩ := readValue_eq depth
    rw [hinner, htext]
    simp only [readValueWith, skipSpace_cons hspace, if_true, h rest, Option.bind_eq_bind, Option.bind_some]
    rfl
  starts := ⟨34, _, rfl, by decide, by decide⟩

theorem denotes_quote (depth : Nat) (text : List UInt8) :
    Denotes depth (quote text) (.string (sanitize text)) :=
  denotes_string depth (readString_quote text)

theorem writeInt_head (n : Int) : ∃ b tail, writeInt n = b :: tail ∧ (b = 45 ∨ isDigit b = true) := by
  unfold writeInt
  split
  · exact ⟨45, _, rfl, .inl rfl⟩
  · obtain ⟨b, tail, hdecimal, hdigit⟩ := decimal_head_ne n.natAbs
    exact ⟨b, tail, hdecimal, .inr hdigit⟩

theorem number_head (h : b = 45 ∨ isDigit b = true) :
    isSpace b = false ∧ b ≠ 34 ∧ b ≠ 91 ∧ b ≠ 93 ∧ b ≠ 123 ∧ b ≠ 116 ∧ b ≠ 102 ∧ b ≠ 110 := by
  have hall : ∀ n < 58, 45 ≤ n → isSpace (UInt8.ofNat n) = false ∧ UInt8.ofNat n ≠ 34 ∧
      UInt8.ofNat n ≠ 91 ∧ UInt8.ofNat n ≠ 93 ∧ UInt8.ofNat n ≠ 123 ∧ UInt8.ofNat n ≠ 116 ∧
      UInt8.ofNat n ≠ 102 ∧ UInt8.ofNat n ≠ 110 := by decide
  have hbounds : 45 ≤ b.toNat ∧ b.toNat < 58 := by
    rcases h with rfl | h
    · decide
    · simp only [isDigit, Bool.and_eq_true, decide_eq_true_eq, UInt8.le_iff_toNat_le] at h
      have h48 : (48 : UInt8).toNat = 48 := rfl
      have h57 : (57 : UInt8).toNat = 57 := rfl
      omega
  have hb := hall b.toNat hbounds.2 hbounds.1
  rw [UInt8.ofNat_toNat] at hb
  exact hb

theorem denotes_writeInt (depth : Nat) (n : Int) : Denotes depth (writeInt n) (.number (writeInt n)) := by
  obtain ⟨b, tail, hwrite, hb⟩ := writeInt_head n
  obtain ⟨hspace, h34, h91, h93, h123, h116, h102, h110⟩ := number_head hb
  refine ⟨fun rest hrest => ?_, b, tail, hwrite, hspace, h93⟩
  have hread := readNumber_writeInt n hrest
  obtain ⟨inner, hinner⟩ := readValue_eq depth
  rw [hinner]
  rw [hwrite, List.cons_append] at hread ⊢
  simp only [readValueWith, skipSpace_cons hspace, if_neg h34, if_neg h91, if_neg h123, if_neg h116,
    if_neg h102, if_neg h110, hread, Option.bind_eq_bind, Option.bind_some]
  rfl

theorem denotes_writeArray {values : List Json} (h : List.Forall₂ (Denotes depth) texts values) :
    Denotes (depth + 1) (writeArray texts) (.array values) where
  reads rest _ := by
    have hreads : List.Forall₂ (ReadsAs (readValue depth)) texts values :=
      h.imp fun _ _ hdenotes => hdenotes.reads
    have hstart : ∀ text ∈ texts, ∃ b tail, text = b :: tail ∧ isSpace b = false ∧ b ≠ 93 := by
      intro text htext
      obtain ⟨i, hi, rfl⟩ := List.getElem_of_mem htext
      exact (h.get hi (h.length_eq ▸ hi)).starts
    have hread := readSequence_separated hreads (.inl rfl) hstart rest
    have htext : writeArray texts ++ rest = 91 :: (separated texts ++ 93 :: rest) := by
      rw [writeArray, List.cons_append, List.append_assoc]
      rfl
    have hspace : isSpace 91 = false := by decide
    have hquote : (91 : UInt8) ≠ 34 := by decide
    rw [htext, readValue]
    simp only [readValueWith, skipSpace_cons hspace, if_neg hquote, if_true, hread,
      Option.bind_eq_bind, Option.bind_some]
    rfl
  starts := ⟨91, _, rfl, by decide, by decide⟩

theorem readsAs_writeMember (key : List UInt8) (h : Denotes depth text value) :
    ReadsAs (readMember (readValue depth)) (writeMember (key, text)) (sanitize key, value) := by
  intro rest hrest
  have hkey := readString_quote key (58 :: (text ++ rest))
  have hvalue := h.reads rest hrest
  have htext : writeMember (key, text) ++ rest =
      34 :: ((chars key).flatMap escapeChar ++ 34 :: 58 :: (text ++ rest)) := by
    rw [writeMember, quote, List.cons_append, List.cons_append, List.append_assoc, List.append_assoc]
    rfl
  have hspace : isSpace 34 = false ∧ isSpace 58 = false := by decide
  rw [htext]
  simp only [readMember, skipSpace_cons hspace.1, skipSpace_cons hspace.2, if_true, hkey, hvalue,
    Option.bind_eq_bind, Option.bind_some]
  rfl

theorem denotes_writeObject {texts : List (List UInt8 × List UInt8)}
    {members : List (List UInt8 × Json)}
    (h : List.Forall₂ (fun text member => member.1 = sanitize text.1 ∧
      Denotes depth text.2 member.2) texts members) :
    Denotes (depth + 1) (writeObject texts) (.object members) where
  reads rest _ := by
    have hreads : List.Forall₂ (ReadsAs (readMember (readValue depth))) (texts.map writeMember)
        members := by
      rw [List.forall₂_map_left_iff]
      refine h.imp fun text member hmember => ?_
      obtain ⟨key, value⟩ := member
      obtain ⟨rfl, hvalue⟩ := hmember
      exact readsAs_writeMember text.1 hvalue
    have hstart : ∀ text ∈ texts.map writeMember,
        ∃ b tail, text = b :: tail ∧ isSpace b = false ∧ b ≠ 125 := by
      intro text htext
      obtain ⟨member, -, rfl⟩ := List.mem_map.mp htext
      exact ⟨34, _, rfl, by decide, by decide⟩
    have hread := readSequence_separated hreads (.inr rfl) hstart rest
    have htext : writeObject texts ++ rest =
        123 :: (separated (texts.map writeMember) ++ 125 :: rest) := by
      rw [writeObject, List.cons_append, List.append_assoc]
      rfl
    have hspace : isSpace 123 = false := by decide
    have hquote : (123 : UInt8) ≠ 34 := by decide
    have harray : (123 : UInt8) ≠ 91 := by decide
    rw [htext, readValue]
    simp only [readValueWith, skipSpace_cons hspace, if_neg hquote, if_neg harray, if_true, hread,
      Option.bind_eq_bind, Option.bind_some]
    rfl
  starts := ⟨123, _, rfl, by decide, by decide⟩

theorem parse_eq_some (h : Denotes maxDepth text value) : parse text = some value := by
  have hread := h.reads [] nofun
  rw [List.append_nil] at hread
  simp only [parse, hread, Option.bind_eq_bind, Option.bind_some]
  rfl

end Values

/-! ## Lengths -/

theorem length_separated_le (texts : List (List UInt8)) :
    (separated texts).length ≤ (texts.map fun text => text.length + 1).sum := by
  fun_induction separated texts with
  | case1 => exact Nat.le_refl 0
  | case2 text =>
    exact Nat.le_succ _
  | case3 text texts hne ih =>
    rw [List.length_append, List.length_cons, List.map_cons, List.sum_cons]
    omega

/-- A bound for a member: the key in quotes, a colon, a comma and the text. -/
def memberCost (member : List UInt8 × List UInt8) : Nat :=
  6 * member.1.length + 4 + member.2.length

theorem length_writeMember_le (member : List UInt8 × List UInt8) :
    (writeMember member).length + 1 ≤ memberCost member := by
  have hquote := length_quote_le member.1
  have hchars := length_chars_le member.1
  rw [writeMember, memberCost, List.length_append, List.length_cons]
  omega

theorem length_writeObject_le (members : List (List UInt8 × List UInt8)) :
    (writeObject members).length ≤ (members.map memberCost).sum + 2 := by
  have hseparated := length_separated_le (members.map writeMember)
  have hsum : ((members.map writeMember).map fun text => text.length + 1).sum ≤
      (members.map memberCost).sum := by
    rw [List.map_map]
    exact List.sum_le_sum fun member _ => length_writeMember_le member
  rw [writeObject, List.length_cons, List.length_append, List.length_singleton]
  omega

/-- A number of 64 bits has 19 digits and a sign at most. -/
theorem length_writeInt_le {n : Int} (hn : fitsInt64 n = true) : (writeInt n).length ≤ 20 := by
  have hbound : -9223372036854775808 ≤ n ∧ n < 9223372036854775808 := of_decide_eq_true hn
  have hdecimal : (decimal n.natAbs).length ≤ 19 := by
    unfold decimal
    split
    · exact Nat.le_add_left 1 18
    · rw [List.length_map, List.length_reverse, Nat.digits_length_le_iff (by omega)]
      omega
  unfold writeInt
  split
  · exact Nat.succ_le_succ hdecimal
  · exact Nat.le_succ_of_le hdecimal

end Rustcast
