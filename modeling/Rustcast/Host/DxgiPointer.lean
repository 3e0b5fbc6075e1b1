import Mathlib.Data.Nat.Bitwise
import Rustcast.Core.Fill
import Rustcast.Host.CursorBitmap

/-!
# Cursor shapes from desktop duplication

`convert_dxgi_pointer_shape` of `cursor.rs`. A shape is either rows of colour pixels, or an AND mask with
an XOR mask below it, one bit for each pixel. Its sizes and its bytes come from the driver.
-/

namespace Rustcast.Host.Cursor

open Rustcast.Relay

/-! ## The conversion -/

/-- How the conversion could panic. Every index goes through `readAt` or `writeAt`. -/
inductive ShapeFault where
  | outOfBounds
  /-- an index that is not a `usize` -/
  | overflow
  /-- a vector of more bytes than `isize` can count -/
  | capacity
  deriving DecidableEq

def readAt (data : List UInt8) (i : Nat) : Except ShapeFault UInt8 :=
  if i < 2 ^ 64 then
    match data[i]? with
    | some byte => .ok byte
    | none => .error .outOfBounds
  else
    .error .overflow

/-- `pixels[dst..dst + 4].copy_from_slice(&pixel)` -/
def writeAt (pixels : List UInt8) (dst : Nat) (pixel : List UInt8) : Except ShapeFault (List UInt8) :=
  if dst + pixel.length < 2 ^ 64 then
    match Fill.splice? pixels dst pixel with
    | some pixels => .ok pixels
    | none => .error .outOfBounds
  else
    .error .overflow

/-- `vec![0u8; len]` -/
def zeroed (len : Nat) : Except ShapeFault (List UInt8) :=
  if len < 2 ^ 63 then .ok (List.replicate len 0) else .error .capacity

/-- The question mark on an `Option`: the function returns `None`. -/
def orNone {α β : Type} (x : Option α) (f : α → Except ShapeFault (Option β)) :
    Except ShapeFault (Option β) :=
  match x with
  | some a => f a
  | none => .ok none

def monochrome : UInt32 := 1

def color : UInt32 := 2

def maskedColor : UInt32 := 4

def cursorFormatRgba8888 : Nat := 1

/-- `for y in 0..height { for x in 0..width { … } }` -/
def raster (width height outputStride : Nat) (pixel : Nat → Nat → Except ShapeFault (List UInt8))
    (pixels : List UInt8) : Except ShapeFault (List UInt8) :=
  (List.range height).foldlM (fun pixels y =>
    (List.range width).foldlM (fun pixels x =>
      pixel y x >>= writeAt pixels (y * outputStride + x * 4)) pixels) pixels

variable (shapeType : UInt32)

def readColor (pitch : Nat) (data : List UInt8) (y x : Nat) :
    Except ShapeFault (List UInt8) := do
  let src := y * pitch + x * 4
  let b ← readAt data src
  let g ← readAt data (src + 1)
  let r ← readAt data (src + 2)
  let a ← readAt data (src + 3)
  if shapeType = color then .ok [r, g, b, a] else .ok [r, g, b, 255]

/-- Where the masks ask for the inverse of the screen, white is shown. -/
def maskPixel : Bool → Bool → List UInt8
  | true, false => [0, 0, 0, 0]
  | true, true => [255, 255, 255, 255]
  | false, true => [255, 255, 255, 255]
  | false, false => [0, 0, 0, 255]

def readMasks (pitch maskLen : Nat) (data : List UInt8) (y x : Nat) : Except ShapeFault (List UInt8) := do
  let byte : UInt8 := 0x80 >>> UInt8.ofNat (x &&& 7)
  let offset := y * pitch + x / 8
  let andByte ← readAt data offset
  let xorByte ← readAt data (maskLen + offset)
  .ok (maskPixel (andByte &&& byte != 0) (xorByte &&& byte != 0))

def drawColor (width height pitch outputStride : Nat) (data pixels : List UInt8) :
    Except ShapeFault (Option (List UInt8)) :=
  orNone (usize? (pitch * height)) fun needed =>
    if data.length < needed ∨ pitch < outputStride then
      .ok none
    else
      some <$> raster width height outputStride (readColor shapeType pitch data) pixels

def drawMasks (width height pitch outputStride : Nat) (data pixels : List UInt8) :
    Except ShapeFault (Option (List UInt8)) :=
  orNone ((usize? (width + 7)).map (· / 8)) fun maskRowBytes =>
    if pitch < maskRowBytes then
      .ok none
    else
      orNone (usize? (pitch * height)) fun maskLen =>
        orNone (usize? (maskLen * 2)) fun needed =>
          if data.length < needed then
            .ok none
          else
            some <$> raster width height outputStride (readMasks pitch maskLen data) pixels

/-- `match shape_type` -/
def drawShape (width height pitch outputStride : Nat) (data pixels : List UInt8) :
    Except ShapeFault (Option (List UInt8)) :=
  if shapeType = color ∨ shapeType = maskedColor then
    drawColor shapeType width height pitch outputStride data pixels
  else if shapeType = monochrome then
    drawMasks width height pitch outputStride data pixels
  else
    .ok none

def convertDxgiPointerShape (shapeType width height pitch : UInt32) (data : List UInt8) :
    Except ShapeFault (Option CursorBitmap) :=
  if width.toNat = 0 ∨ height.toNat = 0 ∨ pitch.toNat = 0 then
    .ok none
  else
    orNone (usize? (width.toNat * 4)) fun outputStride =>
      orNone (usize? (outputStride * height.toNat)) fun outputLen => do
        let pixels ← zeroed outputLen
        let drawn ← drawShape shapeType width.toNat height.toNat pitch.toNat outputStride data pixels
        .ok (drawn.map fun pixels =>
          { width := width.toNat, height := height.toNat, stride := outputStride % 2 ^ 32,
            format := cursorFormatRgba8888, pixels })

/-! ## What a pixel is to be -/

/-- The colour at a position of the shape, in the order of the output. -/
def colorAt (masked : Bool) (pitch : Nat) (data : List UInt8) (y x : Nat) : Option (List UInt8) := do
  let b ← data[y * pitch + x * 4]?
  let g ← data[y * pitch + x * 4 + 1]?
  let r ← data[y * pitch + x * 4 + 2]?
  let a ← data[y * pitch + x * 4 + 3]?
  some [r, g, b, if masked then 255 else a]

/-- The bit at a position of a mask that begins at `base`; the highest bit of a byte is its leftmost. -/
def maskBit (base pitch : Nat) (data : List UInt8) (y x : Nat) : Option Bool :=
  data[base + (y * pitch + x / 8)]?.map fun byte => byte.toNat.testBit (7 - x % 8)

/-- The pixel that a position is to have. -/
def shapePixel (height pitch : Nat) (data : List UInt8) (y x : Nat) : Option (List UInt8) :=
  if shapeType = color then colorAt false pitch data y x
  else if shapeType = maskedColor then colorAt true pitch data y x
  else do
    let andBit ← maskBit 0 pitch data y x
    let xorBit ← maskBit (pitch * height) pitch data y x
    some (maskPixel andBit xorBit)

/-! ## Reads and writes -/

section Accesses

variable {data : List UInt8} {needed i : Nat}

theorem readAt_ok (hi : i < needed) (hneeded : needed < 2 ^ 64) (hdata : needed ≤ data.length) :
    ∃ byte, data[i]? = some byte ∧ readAt data i = .ok byte := by
  have hget : data[i]? = some (data[i]) := List.getElem?_eq_getElem (Nat.lt_of_lt_of_le hi hdata)
  refine ⟨data[i], hget, ?_⟩
  rw [readAt, if_pos (Nat.lt_trans hi hneeded), hget]

theorem writes_writeAt {total : Nat} (htotal : total < 2 ^ 64) : Fill.Writes writeAt total := by
  intro front rest pixel hlength hfits
  rw [writeAt, if_pos (by omega), Fill.splice?_append rfl hfits]
  rfl

theorem row_lt {height pitch y k : Nat} (hy : y < height) (hk : k < pitch) :
    y * pitch + k < pitch * height := by
  have hrows := Nat.mul_le_mul_left pitch (Nat.succ_le_of_lt hy)
  rw [Nat.mul_succ, Nat.mul_comm pitch y] at hrows
  omega

end Accesses

theorem toNat_leftmost_shiftRight : ∀ k < 8, (0x80 >>> UInt8.ofNat k : UInt8).toNat = 2 ^ (7 - k) := by
  decide

/-- The test of the source is one of a bit. -/
theorem and_leftmost_ne_zero (byte : UInt8) (x : Nat) :
    (byte &&& (0x80 >>> UInt8.ofNat (x &&& 7)) != 0) = byte.toNat.testBit (7 - x % 8) := by
  have hmask : x &&& 7 = x % 8 := Nat.and_two_pow_sub_one_eq_mod x 3
  have hpow := toNat_leftmost_shiftRight (x % 8) (Nat.mod_lt _ (by decide))
  rw [hmask, Bool.eq_iff_iff, bne_iff_ne, ne_eq, ← UInt8.toNat_inj, UInt8.toNat_and, hpow, Nat.and_two_pow]
  cases byte.toNat.testBit (7 - x % 8) <;> simp

/-! ## The rounds of the loops -/

variable {shapeType : UInt32} {width height pitch : Nat} {data : List UInt8} {y x : Nat}

theorem readColor_spec (hshape : shapeType = color ∨ shapeType = maskedColor)
    (hneeded : pitch * height < 2 ^ 64) (hdata : pitch * height ≤ data.length) (hpitch : width * 4 ≤ pitch)
    (hy : y < height) (hx : x < width) :
    ∃ pixel, shapePixel shapeType height pitch data y x = some pixel ∧ pixel.length = 4 ∧
      readColor shapeType pitch data y x = .ok pixel := by
  have hread : ∀ c < 4, ∃ byte, data[y * pitch + x * 4 + c]? = some byte ∧
      readAt data (y * pitch + x * 4 + c) = .ok byte := by
    intro c hc
    rw [Nat.add_assoc]
    exact readAt_ok (row_lt hy (by omega)) hneeded hdata
  obtain ⟨b, hb, hb'⟩ := hread 0 (by decide)
  obtain ⟨g, hg, hg'⟩ := hread 1 (by decide)
  obtain ⟨r, hr, hr'⟩ := hread 2 (by decide)
  obtain ⟨a, ha, ha'⟩ := hread 3 (by decide)
  rw [Nat.add_zero] at hb hb'
  rcases hshape with rfl | rfl
  · refine ⟨[r, g, b, a], ?_, rfl, ?_⟩
    · simp [shapePixel, colorAt, hb, hg, hr, ha]
    · simp [readColor, hb', hg', hr', ha', Except.bind, bind]
  · refine ⟨[r, g, b, 255], ?_, rfl, ?_⟩
    · simp [shapePixel, colorAt, hb, hg, hr, ha, color, maskedColor]
    · simp [readColor, hb', hg', hr', ha', color, maskedColor, Except.bind, bind]

theorem length_maskPixel (andBit xorBit : Bool) : (maskPixel andBit xorBit).length = 4 := by
  cases andBit <;> cases xorBit <;> rfl

theorem readMasks_spec (hneeded : pitch * height * 2 < 2 ^ 64) (hdata : pitch * height * 2 ≤ data.length)
    (hpitch : (width + 7) / 8 ≤ pitch) (hy : y < height) (hx : x < width) :
    ∃ pixel, shapePixel monochrome height pitch data y x = some pixel ∧ pixel.length = 4 ∧
      readMasks pitch (pitch * height) data y x = .ok pixel := by
  have hoffset : y * pitch + x / 8 < pitch * height := row_lt hy (by omega)
  obtain ⟨andByte, hand, hand'⟩ := readAt_ok (by omega : y * pitch + x / 8 < _) hneeded hdata
  obtain ⟨xorByte, hxor, hxor'⟩ :=
    readAt_ok (by omega : pitch * height + (y * pitch + x / 8) < _) hneeded hdata
  refine ⟨maskPixel (andByte.toNat.testBit (7 - x % 8)) (xorByte.toNat.testBit (7 - x % 8)), ?_,
    length_maskPixel _ _, ?_⟩
  · simp [shapePixel, maskBit, hand, hxor, monochrome, color, maskedColor]
  · simp only [readMasks, hand', hxor', bind, Except.bind, and_leftmost_ne_zero]

/-! ## The loops -/

/-- Every pixel is where it belongs. -/
structure Drawn (shapeType : UInt32) (width height pitch : Nat) (data pixels : List UInt8) : Prop where
  length_eq : pixels.length = width * 4 * height
  pixel_eq : ∀ y < height, ∀ x < width, ∃ pixel, shapePixel shapeType height pitch data y x = some pixel ∧
    Slice.get? pixels (y * (width * 4) + x * 4) (y * (width * 4) + (x * 4 + 4)) = some pixel

variable {pixel : Nat → Nat → Except ShapeFault (List UInt8)}

/-- What the loops leave, from what each of their rounds reads. -/
theorem raster_spec (hsize : width * 4 * height < 2 ^ 64)
    (hpixel : ∀ y < height, ∀ x < width, ∃ px, shapePixel shapeType height pitch data y x = some px ∧
      px.length = 4 ∧ pixel y x = .ok px) :
    ∃ pixels, raster width height (width * 4) pixel (List.replicate (width * 4 * height) 0) = .ok pixels ∧
      Drawn shapeType width height pitch data pixels := by
  -- the pixels as a function of the position
  let want : Nat → Nat → List UInt8 := fun y x => (shapePixel shapeType height pitch data y x).getD []
  have hwant : ∀ y < height, ∀ x < width, shapePixel shapeType height pitch data y x = some (want y x) ∧
      (want y x).length = 4 ∧ pixel y x = .ok (want y x) := by
    intro y hy x hx
    obtain ⟨px, hshape, hlength, hread⟩ := hpixel y hy x hx
    have hpx : want y x = px := by simp only [want, hshape, Option.getD_some]
    rw [hpx]
    exact ⟨hshape, hlength, hread⟩
  have hrow : ∀ y < height, (Fill.row (want y) width 4 (width * 4) 0).length = width * 4 := fun y hy =>
    Fill.length_row (fun x hx => (hwant y hy x hx).2.1) (Nat.le_refl _)
  have hfill : raster width height (width * 4) pixel (List.replicate (width * 4 * height) 0) =
      .ok ((List.range height).flatMap fun y => Fill.row (want y) width 4 (width * 4) 0) := by
    rw [Nat.mul_comm _ height]
    refine Fill.foldlM_fill_rows (writes_writeAt hsize) [] 0 (fun y hy x hx => (hwant y hy x hx).2.2)
      (fun y hy x hx => (hwant y hy x hx).2.1) ?_ (Nat.le_refl _) ?_
    · intro y _ x _
      rw [List.length_nil, Nat.zero_add]
    · rw [List.length_nil, Nat.zero_add, Nat.mul_comm]
  refine ⟨_, hfill, ?_, ?_⟩
  · rw [Fill.length_flatMap_range hrow, Nat.mul_comm]
  · intro y hy x hx
    refine ⟨want y x, (hwant y hy x hx).1, ?_⟩
    refine Slice.get?_trans (Fill.slice_flatMap_range hrow hy) ?_
    rw [Fill.row, Nat.sub_self, List.replicate_zero, List.append_nil]
    exact Fill.slice_flatMap_range (fun x hx => (hwant y hy x hx).2.1) hx

/-! ## The conversion as a whole -/

theorem usize?_lt {n m : Nat} (h : usize? n = some m) : n < 2 ^ 64 := by
  by_contra hge
  rw [usize?, if_neg hge] at h
  cases h

/-- What is drawn into the blank output, if anything is. -/
inductive Draws (shapeType : UInt32) (width height pitch : Nat) (data : List UInt8) :
    Except ShapeFault (Option (List UInt8)) → Prop
  | nothing : Draws shapeType width height pitch data (.ok none)
  | pixels {pixels : List UInt8} (h : Drawn shapeType width height pitch data pixels) :
      Draws shapeType width height pitch data (.ok (some pixels))

theorem draws_orNone {α : Type} {n : Option α} {f : α → Except ShapeFault (Option (List UInt8))}
    (h : ∀ a, n = some a → Draws shapeType width height pitch data (f a)) :
    Draws shapeType width height pitch data (orNone n f) := by
  cases n with
  | none => exact .nothing
  | some a => exact h a rfl

theorem draws_raster (hsize : width * 4 * height < 2 ^ 64)
    (hpixel : ∀ y < height, ∀ x < width, ∃ px, shapePixel shapeType height pitch data y x = some px ∧
      px.length = 4 ∧ pixel y x = .ok px) :
    Draws shapeType width height pitch data
      (some <$> raster width height (width * 4) pixel (List.replicate (width * 4 * height) 0)) := by
  obtain ⟨pixels, hraster, hdrawn⟩ := raster_spec hsize hpixel
  rw [hraster]
  exact .pixels hdrawn

theorem draws_drawColor (hshape : shapeType = color ∨ shapeType = maskedColor)
    (hsize : width * 4 * height < 2 ^ 64) :
    Draws shapeType width height pitch data
      (drawColor shapeType width height pitch (width * 4) data
        (List.replicate (width * 4 * height) 0)) := by
  refine draws_orNone fun needed hneeded => ?_
  obtain rfl := usize?_eq_some hneeded
  split
  · exact .nothing
  next henough =>
    rw [not_or, Nat.not_lt, Nat.not_lt] at henough
    exact draws_raster hsize fun y hy x hx =>
      readColor_spec hshape (usize?_lt hneeded) henough.1 henough.2 hy hx

theorem draws_drawMasks (hsize : width * 4 * height < 2 ^ 64) :
    Draws monochrome width height pitch data
      (drawMasks width height pitch (width * 4) data (List.replicate (width * 4 * height) 0)) := by
  refine draws_orNone fun maskRowBytes hrow => ?_
  obtain ⟨bits, hbits, rfl⟩ := Option.map_eq_some_iff.mp hrow
  obtain rfl := usize?_eq_some hbits
  split
  · exact .nothing
  next hpitch =>
    refine draws_orNone fun maskLen hmask => draws_orNone fun needed hneeded => ?_
    obtain rfl := usize?_eq_some hmask
    obtain rfl := usize?_eq_some hneeded
    split
    · exact .nothing
    next henough =>
      exact draws_raster hsize fun y hy x hx =>
        readMasks_spec (usize?_lt hneeded) (Nat.le_of_not_lt henough) (Nat.le_of_not_lt hpitch) hy hx

theorem draws_drawShape (shapeType : UInt32) (pitch : Nat) (data : List UInt8)
    (hsize : width * 4 * height < 2 ^ 64) :
    Draws shapeType width height pitch data
      (drawShape shapeType width height pitch (width * 4) data
        (List.replicate (width * 4 * height) 0)) := by
  unfold drawShape
  split
  next hshape => exact draws_drawColor hshape hsize
  · split
    next hmono =>
      subst hmono
      exact draws_drawMasks hsize
    · exact .nothing

/-- How a conversion can end. -/
inductive Converted (shapeType width height pitch : UInt32) (data : List UInt8) :
    Except ShapeFault (Option CursorBitmap) → Prop
  | nothing : Converted shapeType width height pitch data (.ok none)
  | capacity (h : 2 ^ 63 ≤ width.toNat * 4 * height.toNat) :
      Converted shapeType width height pitch data (.error .capacity)
  | bitmap {pixels : List UInt8}
      (h : Drawn shapeType width.toNat height.toNat pitch.toNat data pixels) :
      Converted shapeType width height pitch data
        (.ok (some { width := width.toNat, height := height.toNat, stride := width.toNat * 4 % 2 ^ 32,
                     format := cursorFormatRgba8888, pixels }))

theorem convertDxgiPointerShape_cases (shapeType width height pitch : UInt32) (data : List UInt8) :
    Converted shapeType width height pitch data
      (convertDxgiPointerShape shapeType width height pitch data) := by
  unfold convertDxgiPointerShape
  split
  · exact .nothing
  · cases hstride : usize? (width.toNat * 4) with
    | none => exact .nothing
    | some outputStride =>
      obtain rfl := usize?_eq_some hstride
      cases hlen : usize? (width.toNat * 4 * height.toNat) with
      | none =>
        simp only [orNone, hlen]
        exact .nothing
      | some outputLen =>
        obtain rfl := usize?_eq_some hlen
        simp only [orNone, hlen, zeroed]
        split
        · have hdraws := draws_drawShape shapeType pitch.toNat data (usize?_lt hlen)
          simp only [bind, Except.bind]
          generalize drawShape _ _ _ _ _ _ _ = drawn at hdraws ⊢
          cases hdraws with
          | nothing => exact .nothing
          | pixels hdrawn => exact .bitmap hdrawn
        next hcapacity => exact .capacity (Nat.le_of_not_lt hcapacity)

/-- No shape of the driver makes the conversion read or write outside of its buffers; the one way to fail
is a picture larger than a vector may be. A bitmap has rows of exactly its pixels, and every pixel is the
function of the shape at the same position that its type asks for. -/
theorem pointer_shape_exact (shapeType width height pitch : UInt32) (data : List UInt8)
    (hwidth : width.toNat < 2 ^ 30) :
    (∀ fault, convertDxgiPointerShape shapeType width height pitch data = .error fault →
      fault = .capacity ∧ 2 ^ 63 ≤ width.toNat * 4 * height.toNat) ∧
    ∀ bitmap, convertDxgiPointerShape shapeType width height pitch data = .ok (some bitmap) →
      bitmap.width = width.toNat ∧ bitmap.height = height.toNat ∧ bitmap.stride = 4 * width.toNat ∧
      bitmap.pixels.length = bitmap.stride * height.toNat ∧
      ∀ y < height.toNat, ∀ x < width.toNat, ∃ pixel,
        shapePixel shapeType height.toNat pitch.toNat data y x = some pixel ∧
        Slice.get? bitmap.pixels (y * bitmap.stride + x * 4) (y * bitmap.stride + (x * 4 + 4)) =
          some pixel := by
  have hcases := convertDxgiPointerShape_cases shapeType width height pitch data
  have hstride : width.toNat * 4 % 2 ^ 32 = width.toNat * 4 := Nat.mod_eq_of_lt (by omega)
  constructor
  · intro fault hfault
    rw [hfault] at hcases
    cases hcases with
    | capacity hlarge => exact ⟨rfl, hlarge⟩
  · intro bitmap hbitmap
    rw [hbitmap] at hcases
    cases hcases with
    | bitmap hdrawn =>
      rw [hstride]
      exact ⟨rfl, rfl, Nat.mul_comm _ _, hdrawn.length_eq, hdrawn.pixel_eq⟩

/-- A monochrome shape of nine columns, with rows of four bytes. -/
def paddedMasks : List UInt8 := [0xc0, 0, 0, 0, 0x50, 0, 0, 0]

theorem pointer_shape_exact_paddedMasks :
    ∃ bitmap, convertDxgiPointerShape 1 9 1 4 paddedMasks = .ok (some bitmap) ∧ bitmap.stride = 36 ∧
      bitmap.pixels.length = 36 ∧ shapePixel 1 1 4 paddedMasks 0 1 = some [255, 255, 255, 255] := by
  have hbitmap : ∃ bitmap, convertDxgiPointerShape 1 9 1 4 paddedMasks = .ok (some bitmap) :=
    ⟨_, rfl⟩
  obtain ⟨bitmap, hbitmap⟩ := hbitmap
  obtain ⟨-, -, hstride, hlength, -⟩ :=
    (pointer_shape_exact 1 9 1 4 paddedMasks (by decide)).2 bitmap hbitmap
  rw [hstride] at hlength
  exact ⟨bitmap, hbitmap, hstride, hlength, by decide⟩

end Rustcast.Host.Cursor
