import Mathlib.Tactic.Common

/-!
# Hexadecimal and base64

Byte strings as text: lower-case hexadecimal, and base64 with the standard alphabet and padding.
The readers are those of a usual library: hexadecimal digits of either case; in base64, line
breaks are skipped, padding ends the text, and the bits that padding leaves over are ignored.
-/

namespace Rustcast

/-- The bytes of a text, in UTF-8. -/
def textBytes (text : String) : List UInt8 := text.toUTF8.data.toList

/-! ## Hexadecimal -/

def hexDigit (n : Nat) : UInt8 := UInt8.ofNat (if n < 10 then 48 + n else 87 + n)

def hexValue (c : UInt8) : Option Nat :=
  if 48 ≤ c ∧ c ≤ 57 then some (c.toNat - 48)
  else if 97 ≤ c ∧ c ≤ 102 then some (c.toNat - 87)
  else if 65 ≤ c ∧ c ≤ 70 then some (c.toNat - 55)
  else none

variable (bytes : List UInt8)

def hexEncode : List UInt8 :=
  bytes.flatMap fun b => [hexDigit (b.toNat / 16), hexDigit (b.toNat % 16)]

def hexDecode : List UInt8 → Option (List UInt8)
  | [] => some []
  | [_] => none
  | c :: d :: rest => do
    let high ← hexValue c
    let low ← hexValue d
    let bytes ← hexDecode rest
    return UInt8.ofNat (16 * high + low) :: bytes

theorem hexValue_hexDigit : ∀ n < 16, hexValue (hexDigit n) = some n := by decide

theorem hexEncode_cons (b : UInt8) (bytes : List UInt8) :
    hexEncode (b :: bytes) = hexDigit (b.toNat / 16) :: hexDigit (b.toNat % 16) :: hexEncode bytes :=
  rfl

theorem length_hexEncode : (hexEncode bytes).length = 2 * bytes.length := by
  induction bytes with
  | nil => rfl
  | cons b bytes ih =>
    rw [hexEncode_cons, List.length_cons, List.length_cons, List.length_cons]
    omega

/-- What is written in hexadecimal is read back. -/
theorem hexDecode_hexEncode : hexDecode (hexEncode bytes) = some bytes := by
  induction bytes with
  | nil => rfl
  | cons b bytes ih =>
    have hb : b.toNat < 256 := b.toNat_lt
    have hhigh : hexValue (hexDigit (b.toNat / 16)) = some (b.toNat / 16) := hexValue_hexDigit _ (by omega)
    have hlow : hexValue (hexDigit (b.toNat % 16)) = some (b.toNat % 16) := hexValue_hexDigit _ (by omega)
    have hsum : 16 * (b.toNat / 16) + b.toNat % 16 = b.toNat := by omega
    rw [hexEncode_cons, hexDecode, hhigh, hlow, ih]
    simp only [Option.bind_eq_bind, Option.bind_some, Option.pure_def, hsum, UInt8.ofNat_toNat]

theorem mem_hexEncode {bytes : List UInt8} {c : UInt8} (h : c ∈ hexEncode bytes) :
    ∃ n < 16, c = hexDigit n := by
  obtain ⟨b, -, hc⟩ := List.mem_flatMap.mp h
  have hb : b.toNat < 256 := b.toNat_lt
  rcases List.mem_cons.mp hc with rfl | hc
  · exact ⟨_, by omega, rfl⟩
  · exact ⟨_, by omega, List.mem_singleton.mp hc⟩

/-! ## Base64 -/

def base64Pad : UInt8 := 61

def base64Char (n : Nat) : UInt8 :=
  UInt8.ofNat (if n < 26 then 65 + n else if n < 52 then 71 + n else if n < 62 then n - 4
    else if n = 62 then 43 else 47)

def base64Value (c : UInt8) : Option Nat :=
  if 65 ≤ c ∧ c ≤ 90 then some (c.toNat - 65)
  else if 97 ≤ c ∧ c ≤ 122 then some (c.toNat - 71)
  else if 48 ≤ c ∧ c ≤ 57 then some (c.toNat + 4)
  else if c = 43 then some 62
  else if c = 47 then some 63
  else none

def base64Encode : List UInt8 → List UInt8
  | [] => []
  | [a] => [base64Char (a.toNat / 4), base64Char (a.toNat % 4 * 16), base64Pad, base64Pad]
  | [a, b] =>
    [base64Char (a.toNat / 4), base64Char (a.toNat % 4 * 16 + b.toNat / 16),
      base64Char (b.toNat % 16 * 4), base64Pad]
  | a :: b :: c :: rest =>
    base64Char (a.toNat / 4) :: base64Char (a.toNat % 4 * 16 + b.toNat / 16) ::
      base64Char (b.toNat % 16 * 4 + c.toNat / 64) :: base64Char (c.toNat % 64) ::
      base64Encode rest

/-- Without line breaks, four characters at a time. -/
def base64Quanta : List UInt8 → Option (List UInt8)
  | [] => some []
  | c₀ :: c₁ :: c₂ :: c₃ :: rest => do
    let v₀ ← base64Value c₀
    let v₁ ← base64Value c₁
    let first := UInt8.ofNat (v₀ * 4 + v₁ / 16)
    if c₂ = base64Pad then
      if c₃ = base64Pad ∧ rest = [] then return [first] else none
    else
      let v₂ ← base64Value c₂
      let second := UInt8.ofNat (v₁ % 16 * 16 + v₂ / 4)
      if c₃ = base64Pad then
        if rest = [] then return [first, second] else none
      else
        let v₃ ← base64Value c₃
        let bytes ← base64Quanta rest
        return first :: second :: UInt8.ofNat (v₂ % 4 * 64 + v₃) :: bytes
  | _ => none

def base64Decode (text : List UInt8) : Option (List UInt8) :=
  base64Quanta (text.filter fun c => c != 10 && c != 13)

theorem base64Value_base64Char : ∀ n < 64, base64Value (base64Char n) = some n := by decide

theorem base64Char_ne_pad : ∀ n < 64, base64Char n ≠ base64Pad := by decide

theorem length_base64Encode : (base64Encode bytes).length = 4 * ((bytes.length + 2) / 3) := by
  induction bytes using base64Encode.induct with
  | case1 => rfl
  | case2 a => simp [base64Encode]
  | case3 a b => simp [base64Encode]
  | case4 a b c rest ih =>
    rw [base64Encode]
    simp only [List.length_cons, ih]
    omega

theorem mem_base64Encode {bytes : List UInt8} {x : UInt8} (h : x ∈ base64Encode bytes) :
    x = base64Pad ∨ ∃ n < 64, x = base64Char n := by
  induction bytes using base64Encode.induct with
  | case1 => cases h
  | case2 a =>
    have ha : a.toNat < 256 := a.toNat_lt
    simp only [base64Encode, List.mem_cons, List.not_mem_nil, or_false] at h
    rcases h with rfl | rfl | rfl | rfl
    · exact .inr ⟨_, by omega, rfl⟩
    · exact .inr ⟨_, by omega, rfl⟩
    · exact .inl rfl
    · exact .inl rfl
  | case3 a b =>
    have ha : a.toNat < 256 := a.toNat_lt
    have hb : b.toNat < 256 := b.toNat_lt
    simp only [base64Encode, List.mem_cons, List.not_mem_nil, or_false] at h
    rcases h with rfl | rfl | rfl | rfl
    · exact .inr ⟨_, by omega, rfl⟩
    · exact .inr ⟨_, by omega, rfl⟩
    · exact .inr ⟨_, by omega, rfl⟩
    · exact .inl rfl
  | case4 a b c rest ih =>
    have ha : a.toNat < 256 := a.toNat_lt
    have hb : b.toNat < 256 := b.toNat_lt
    have hc : c.toNat < 256 := c.toNat_lt
    simp only [base64Encode, List.mem_cons] at h
    rcases h with rfl | rfl | rfl | rfl | h
    · exact .inr ⟨_, by omega, rfl⟩
    · exact .inr ⟨_, by omega, rfl⟩
    · exact .inr ⟨_, by omega, rfl⟩
    · exact .inr ⟨_, by omega, rfl⟩
    · exact ih h

theorem base64Quanta_base64Encode : base64Quanta (base64Encode bytes) = some bytes := by
  induction bytes using base64Encode.induct with
  | case1 => rfl
  | case2 a =>
    have ha : a.toNat < 256 := a.toNat_lt
    have h₀ := base64Value_base64Char (a.toNat / 4) (by omega)
    have h₁ := base64Value_base64Char (a.toNat % 4 * 16) (by omega)
    have hfirst : a.toNat / 4 * 4 + a.toNat % 4 * 16 / 16 = a.toNat := by omega
    simp only [base64Encode, base64Quanta, h₀, h₁, hfirst, Option.bind_eq_bind, Option.bind_some,
      and_self, if_true, Option.pure_def, UInt8.ofNat_toNat]
  | case3 a b =>
    have ha : a.toNat < 256 := a.toNat_lt
    have hb : b.toNat < 256 := b.toNat_lt
    have h₀ := base64Value_base64Char (a.toNat / 4) (by omega)
    have h₁ := base64Value_base64Char (a.toNat % 4 * 16 + b.toNat / 16) (by omega)
    have h₂ := base64Value_base64Char (b.toNat % 16 * 4) (by omega)
    have hpad := base64Char_ne_pad (b.toNat % 16 * 4) (by omega)
    have hfirst : a.toNat / 4 * 4 + (a.toNat % 4 * 16 + b.toNat / 16) / 16 = a.toNat := by omega
    have hsecond : (a.toNat % 4 * 16 + b.toNat / 16) % 16 * 16 + b.toNat % 16 * 4 / 4 = b.toNat := by
      omega
    simp only [base64Encode, base64Quanta, h₀, h₁, h₂, hpad, hfirst, hsecond, Option.bind_eq_bind,
      Option.bind_some, if_false, if_true, Option.pure_def, UInt8.ofNat_toNat]
  | case4 a b c rest ih =>
    have ha : a.toNat < 256 := a.toNat_lt
    have hb : b.toNat < 256 := b.toNat_lt
    have hc : c.toNat < 256 := c.toNat_lt
    have h₀ := base64Value_base64Char (a.toNat / 4) (by omega)
    have h₁ := base64Value_base64Char (a.toNat % 4 * 16 + b.toNat / 16) (by omega)
    have h₂ := base64Value_base64Char (b.toNat % 16 * 4 + c.toNat / 64) (by omega)
    have h₃ := base64Value_base64Char (c.toNat % 64) (by omega)
    have hpad₂ := base64Char_ne_pad (b.toNat % 16 * 4 + c.toNat / 64) (by omega)
    have hpad₃ := base64Char_ne_pad (c.toNat % 64) (by omega)
    have hfirst : a.toNat / 4 * 4 + (a.toNat % 4 * 16 + b.toNat / 16) / 16 = a.toNat := by omega
    have hsecond : (a.toNat % 4 * 16 + b.toNat / 16) % 16 * 16 +
        (b.toNat % 16 * 4 + c.toNat / 64) / 4 = b.toNat := by omega
    have hthird : (b.toNat % 16 * 4 + c.toNat / 64) % 4 * 64 + c.toNat % 64 = c.toNat := by omega
    simp only [base64Encode, base64Quanta, h₀, h₁, h₂, h₃, hpad₂, hpad₃, hfirst, hsecond, hthird, ih,
      Option.bind_eq_bind, Option.bind_some, if_false, Option.pure_def, UInt8.ofNat_toNat]

/-- What is written in base64 is read back. -/
theorem base64Decode_base64Encode : base64Decode (base64Encode bytes) = some bytes := by
  have hbreak : ∀ n < 64, (base64Char n != 10 && base64Char n != 13) = true := by decide
  have hplain : (base64Encode bytes).filter (fun c => c != 10 && c != 13) = base64Encode bytes := by
    refine List.filter_eq_self.mpr fun x hx => ?_
    rcases mem_base64Encode hx with rfl | ⟨n, hn, rfl⟩
    · rfl
    · exact hbreak n hn
  rw [base64Decode, hplain]
  exact base64Quanta_base64Encode bytes

end Rustcast
