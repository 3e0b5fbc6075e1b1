import Rustcast.Core.Bytes

/-!
# SHA-256

The digest of FIPS 180-4, over lists of bytes.
-/

namespace Rustcast

open Bytes

namespace Sha256

/-- The first 32 bits of the fractional parts of the cube roots of the first 64 primes. -/
def roundConstants : List UInt32 :=
  [0x428a2f98, 0x71374491, 0xb5c0fbcf, 0xe9b5dba5, 0x3956c25b, 0x59f111f1, 0x923f82a4, 0xab1c5ed5,
    0xd807aa98, 0x12835b01, 0x243185be, 0x550c7dc3, 0x72be5d74, 0x80deb1fe, 0x9bdc06a7, 0xc19bf174,
    0xe49b69c1, 0xefbe4786, 0x0fc19dc6, 0x240ca1cc, 0x2de92c6f, 0x4a7484aa, 0x5cb0a9dc, 0x76f988da,
    0x983e5152, 0xa831c66d, 0xb00327c8, 0xbf597fc7, 0xc6e00bf3, 0xd5a79147, 0x06ca6351, 0x14292967,
    0x27b70a85, 0x2e1b2138, 0x4d2c6dfc, 0x53380d13, 0x650a7354, 0x766a0abb, 0x81c2c92e, 0x92722c85,
    0xa2bfe8a1, 0xa81a664b, 0xc24b8b70, 0xc76c51a3, 0xd192e819, 0xd6990624, 0xf40e3585, 0x106aa070,
    0x19a4c116, 0x1e376c08, 0x2748774c, 0x34b0bcb5, 0x391c0cb3, 0x4ed8aa4a, 0x5b9cca4f, 0x682e6ff3,
    0x748f82ee, 0x78a5636f, 0x84c87814, 0x8cc70208, 0x90befffa, 0xa4506ceb, 0xbef9a3f7, 0xc67178f2]

def rotr (n x : UInt32) : UInt32 := x >>> n ||| x <<< (32 - n)

/-- The working variables. -/
structure Words where
  (a b c d e f g h : UInt32)

def initial : Words :=
  ⟨0x6a09e667, 0xbb67ae85, 0x3c6ef372, 0xa54ff53a, 0x510e527f, 0x9b05688c, 0x1f83d9ab, 0x5be0cd19⟩

/-- A round takes the sum of a constant and a word of the schedule. -/
def round (v : Words) (kw : UInt32) : Words :=
  let t₁ := v.h + (rotr 6 v.e ^^^ rotr 11 v.e ^^^ rotr 25 v.e) + (v.e &&& v.f ^^^ ~~~v.e &&& v.g) + kw
  let t₂ := (rotr 2 v.a ^^^ rotr 13 v.a ^^^ rotr 22 v.a) + (v.a &&& v.b ^^^ v.a &&& v.c ^^^ v.b &&& v.c)
  ⟨t₁ + t₂, v.a, v.b, v.c, v.d + t₁, v.e, v.f, v.g⟩

/-- The schedule, with its latest word first. -/
def extend : Nat → List UInt32 → List UInt32
  | 0, w => w
  | n + 1, w =>
    let w₂ := w.getD 1 0
    let w₁₅ := w.getD 14 0
    extend n (((rotr 17 w₂ ^^^ rotr 19 w₂ ^^^ w₂ >>> 10) + w.getD 6 0 +
      (rotr 7 w₁₅ ^^^ rotr 18 w₁₅ ^^^ w₁₅ >>> 3) + w.getD 15 0) :: w)

def words : List UInt8 → List UInt32
  | b₀ :: b₁ :: b₂ :: b₃ :: rest => UInt32.ofNat (beNat [b₀, b₁, b₂, b₃]) :: words rest
  | _ => []

def compress (v : Words) (block : List UInt8) : Words :=
  let schedule := (extend 48 (words block).reverse).reverse
  let w := (List.zipWith (· + ·) roundConstants schedule).foldl round v
  ⟨v.a + w.a, v.b + w.b, v.c + w.c, v.d + w.d, v.e + w.e, v.f + w.f, v.g + w.g, v.h + w.h⟩

/-- A one bit, zeros, and the length in bits, up to a multiple of 64 bytes. -/
def padded (message : List UInt8) : List UInt8 :=
  message ++ 128 :: List.replicate ((119 - message.length % 64) % 64) 0 ++ beBytes 8 (8 * message.length)

end Sha256

open Sha256

def sha256 (message : List UInt8) : List UInt8 :=
  let blocks := List.range ((padded message).length / 64)
  let v := blocks.foldl (fun v i => compress v (((padded message).drop (64 * i)).take 64)) initial
  [v.a, v.b, v.c, v.d, v.e, v.f, v.g, v.h].flatMap fun word => beBytes 4 word.toNat

theorem length_sha256 (message : List UInt8) : (sha256 message).length = 32 := by
  simp [sha256]

-- the digest of "abc" begins with ba7816bf
example : (sha256 [97, 98, 99]).take 4 = [0xba, 0x78, 0x16, 0xbf] := by decide +kernel

end Rustcast
