import Rustcast.Core.Bytes
import Rustcast.Core.Fallible
import Rustcast.Core.Slice
import Rustcast.Relay.CursorUpdates

/-!
# Cursor shapes from PipeWire

`cursor.rs`: the decoder of the `spa_meta_cursor` region that comes with a frame, and the scaling of the
shape in it to the size of the encoder. The decoder takes the size, the stride and the place of the
pixels from the region, and checks only that stride times height bytes are there. The scaling reads four
bytes at `row * stride + column * 4`.
-/

namespace Rustcast.Host.Cursor

open Rustcast.Relay Fallible Slice

/-! ## Decoding -/

/-- `checked_add` and `checked_mul` on `usize`. -/
def usize? (n : Nat) : Option Nat := if n < 2 ^ 64 then some n else none

/-- Fields are in the order of the machine, little-endian here. -/
def readU32 (buf : List UInt8) (at' : Nat) : Option Nat := (get? buf at' (at' + 4)).map Bytes.leNat

def readI32 (buf : List UInt8) (at' : Nat) : Option Int :=
  (readU32 buf at').map fun n => if n < 2147483648 then (n : Int) else n - 4294967296

def cursorHeaderLen : Nat := 28

def bitmapHeaderLen : Nat := 20

/-- The pixels of a bitmap whose header is read. -/
def parsePixels (buf : List UInt8) (base width height format pixelsOffset stride : Nat) :
    Option CursorBitmap := do
  -- `stride * height` is all that is asked for; how it compares to the width is not looked at
  let pixelsLen ← usize? (stride * height)
  let pixelsStart ← usize? (base + pixelsOffset)
  let pixelsEnd ← usize? (pixelsStart + pixelsLen)
  let pixels ← get? buf pixelsStart pixelsEnd
  some { width, height, stride, format, pixels }

def parseBitmap (buf : List UInt8) (base : Nat) : Option CursorBitmap := do
  let header ← get? buf base (← usize? (base + bitmapHeaderLen))
  let format ← readU32 header 0
  -- no format: the cursor has no shape of its own
  if format = 0 then none
  else do
    let width ← readU32 header 4
    let height ← readU32 header 8
    let stride ← readI32 header 12
    let pixelsOffset ← readU32 header 16
    if stride < 0 then none else parsePixels buf base width height format pixelsOffset stride.toNat

/-- The rest of the region, if there is a cursor. -/
def parseCursor (buf : List UInt8) : Option CursorMetadata := do
  let position := (← readI32 buf 8, ← readI32 buf 12)
  let hotspot := (← readI32 buf 16, ← readI32 buf 20)
  let bitmapOffset ← readU32 buf 24
  let bitmap := if bitmapOffset = 0 then none else parseBitmap buf bitmapOffset
  some { position := some position, hotspot, bitmap }

def parseSpaMetaCursor (buf : List UInt8) : Option CursorMetadata :=
  if buf.length < cursorHeaderLen then none
  else do
    let id ← readU32 buf 0
    if id = 0 then some .hidden else parseCursor buf

/-! ## Scaling -/

/-- What stops the scaling: an overflow in a build that checks for it, or a slice that is not inside. -/
inductive ScaleFault where
  | overflow
  | readOutside
  | writeOutside
  deriving DecidableEq

variable (checks : Bool)

/-- A `u32`, in a build with or without overflow checks. -/
def u32 (n : Int) : Except ScaleFault Nat :=
  if 0 ≤ n ∧ n < 4294967296 then .ok n.toNat
  else if checks then .error .overflow
  else .ok (n % 4294967296).toNat

def add (a b : Nat) : Except ScaleFault Nat := u32 checks ((a + b : Nat) : Int)

def mul (a b : Nat) : Except ScaleFault Nat := u32 checks ((a * b : Nat) : Int)

def sub (a b : Nat) : Except ScaleFault Nat := u32 checks (a - b)

/-- What single precision makes of two factors: whether both are one, the sizes, and the places that a
column and a row of the result come from. -/
structure CursorFactors where
  isOne : Bool
  width : Nat → Nat
  height : Nat → Nat
  sourceX : Nat → Nat
  sourceY : Nat → Nat

def sourceOffset (factors : CursorFactors) (bitmap : CursorBitmap) (x y : Nat) :
    Except ScaleFault Nat := do
  -- for an empty bitmap the last column is `u32::MAX`, or an overflow
  let sourceX := min (factors.sourceX x) (← sub checks bitmap.width 1)
  let sourceY := min (factors.sourceY y) (← sub checks bitmap.height 1)
  add checks (← mul checks sourceY bitmap.stride) (← mul checks sourceX 4)

def readPixel (bitmap : CursorBitmap) (src : Nat) : Except ScaleFault (List UInt8) :=
  match get? bitmap.pixels src (src + 4) with
  | some pixel => .ok pixel
  | none => .error .readOutside

def copyPixel (factors : CursorFactors) (bitmap : CursorBitmap) (stride : Nat)
    (pixels : List UInt8) (at' : Nat × Nat) : Except ScaleFault (List UInt8) := do
  let src ← sourceOffset checks factors bitmap at'.2 at'.1
  let dst ← add checks (← mul checks at'.1 stride) (← mul checks at'.2 4)
  if pixels.length < dst + 4 then .error .writeOutside
  else do
    let pixel ← readPixel bitmap src
    pure (pixels.take dst ++ pixel ++ pixels.drop (dst + 4))

/-- The rows, and in each the columns. -/
def pixelsOf (width height : Nat) : List (Nat × Nat) :=
  (List.range height).flatMap fun y => (List.range width).map (Prod.mk y)

def scaleCursorBitmap (factors : CursorFactors) (bitmap : CursorBitmap) : Except ScaleFault CursorBitmap :=
  if factors.isOne then .ok bitmap
  else do
    let width := max (factors.width bitmap.width) 1
    let height := max (factors.height bitmap.height) 1
    let stride ← mul checks width 4
    let length ← mul checks stride height
    let pixels ← (pixelsOf width height).foldlM (copyPixel checks factors bitmap stride)
      (List.replicate length 0)
    pure { width, height, stride, format := bitmap.format, pixels }

variable {buf : List UInt8} {base : Nat} {bitmap : CursorBitmap} {metadata : CursorMetadata}
  {checks : Bool} {factors : CursorFactors}

/-! ## What a decoded bitmap has -/

variable {n v a b src : Nat}

theorem usize?_eq_some {m : Nat} (h : usize? n = some m) : m = n := by
  unfold usize? at h
  split at h
  · exact (Option.some.inj h).symm
  · cases h

theorem readU32_of_slice {header : List UInt8} {stop at' : Nat} (h : get? buf base stop = some header)
    (hread : readU32 header at' = some n) : readU32 buf (base + at') = some n := by
  obtain ⟨field, hfield, rfl⟩ := Option.map_eq_some_iff.mp hread
  rw [readU32, Nat.add_assoc, get?_trans h hfield]
  rfl

theorem readI32_of_slice {header : List UInt8} {stop at' : Nat} {i : Int}
    (h : get? buf base stop = some header) (hread : readI32 header at' = some i) :
    readI32 buf (base + at') = some i := by
  obtain ⟨value, hvalue, rfl⟩ := Option.map_eq_some_iff.mp hread
  obtain ⟨n, hn, hcast⟩ := Option.bind_eq_some_iff.mp hvalue
  cases hcast
  rw [readI32, readU32_of_slice h hn]
  rfl

/-- The sizes of a bitmap are the fields behind its offset, as the producer wrote them. -/
theorem parseBitmap_header (h : parseBitmap buf base = some bitmap) :
    readU32 buf (base + 4) = some bitmap.width ∧ readU32 buf (base + 8) = some bitmap.height ∧
      readI32 buf (base + 12) = some (bitmap.stride : Int) := by
  simp only [parseBitmap, parsePixels, Option.bind_eq_bind, Option.bind_eq_some_iff,
    Option.ite_none_left_eq_some, Option.some.injEq] at h
  obtain ⟨stop, -, header, hheader, -, -, -, width, hwidth, height, hheight, stride, hstride, -, -, hsign, -, -,
    -, -, -, -, pixels, -, rfl⟩ := h
  refine ⟨readU32_of_slice hheader hwidth, readU32_of_slice hheader hheight, ?_⟩
  rw [readI32_of_slice hheader hstride, Int.toNat_of_nonneg (Int.not_lt.mp hsign)]

/-- A bitmap has the bytes of its rows. -/
theorem parseBitmap_pixels (h : parseBitmap buf base = some bitmap) :
    bitmap.pixels.length = bitmap.stride * bitmap.height := by
  simp only [parseBitmap, parsePixels, Option.bind_eq_bind, Option.bind_eq_some_iff,
    Option.ite_none_left_eq_some, Option.some.injEq] at h
  -- of the header, the height and the stride matter
  obtain ⟨-, -, -, -, -, -, -, -, -, height, -, stride, -, -, -, -, len, hlen, start, -, stop, hstop,
    pixels, hget, rfl⟩ := h
  show pixels.length = stride.toNat * height
  rw [length_of_get? hget, usize?_eq_some hstop, usize?_eq_some hlen]
  omega

/-- A bitmap comes from the bitmap header at the offset that the region gives. -/
theorem parseSpaMetaCursor_bitmap (h : parseSpaMetaCursor buf = some metadata)
    (hbitmap : metadata.bitmap = some bitmap) :
    ∃ base, readU32 buf 24 = some base ∧ parseBitmap buf base = some bitmap := by
  simp only [parseSpaMetaCursor, Option.bind_eq_bind, Option.bind_eq_some_iff,
    Option.ite_none_left_eq_some] at h
  obtain ⟨-, id, -, h⟩ := h
  split at h
  · cases h
    cases hbitmap
  · simp only [parseCursor, Option.bind_eq_bind, Option.bind_eq_some_iff] at h
    -- the position, the hotspot, and the offset of the bitmap
    obtain ⟨x, -, y, -, hx, -, hy, -, offset, hoffset, hmetadata⟩ := h
    rw [Option.some.injEq] at hmetadata
    subst hmetadata
    refine ⟨offset, hoffset, ?_⟩
    by_cases hzero : offset = 0
    · rw [if_pos hzero] at hbitmap
      cases hbitmap
    · rwa [if_neg hzero] at hbitmap

/-! ## Reads -/

/-- A number that wraps is only smaller. -/
theorem u32_le {n : Int} (hn : 0 ≤ n) (h : u32 checks n = .ok v) : (v : Int) ≤ n := by
  unfold u32 at h
  split at h
  · cases h
    omega
  · split at h
    · cases h
    · cases h
      omega

theorem u32_ne_readOutside (n : Int) : u32 checks n ≠ .error .readOutside := by
  intro h
  unfold u32 at h
  split at h
  · cases h
  · split at h
    · cases h
    · cases h

theorem add_le (h : add checks a b = .ok v) : v ≤ a + b :=
  Int.ofNat_le.mp (u32_le (Int.natCast_nonneg _) h)

theorem mul_le (h : mul checks a b = .ok v) : v ≤ a * b :=
  Int.ofNat_le.mp (u32_le (Int.natCast_nonneg _) h)

theorem sub_one_lt (hn : 1 ≤ n) (h : sub checks n 1 = .ok v) : v < n := by
  have hle : (v : Int) ≤ n - 1 := u32_le (by omega) h
  omega

/-- Whole pixels in every row, and the bytes of the rows. -/
structure WholePixels (bitmap : CursorBitmap) : Prop where
  width : 1 ≤ bitmap.width
  height : 1 ≤ bitmap.height
  rows : 4 * bitmap.width ≤ bitmap.stride
  data : bitmap.pixels.length = bitmap.stride * bitmap.height

theorem WholePixels.sourceOffset_le (h : WholePixels bitmap) {x y : Nat}
    (hsrc : sourceOffset checks factors bitmap x y = .ok src) : src + 4 ≤ bitmap.pixels.length := by
  simp only [sourceOffset, bind_eq_ok] at hsrc
  obtain ⟨lastX, hlastX, lastY, hlastY, row, hrow, column, hcolumn, hsrc⟩ := hsrc
  have hX := sub_one_lt h.width hlastX
  have hY := sub_one_lt h.height hlastY
  -- a pixel of the row ends inside of the row, and the last row ends with the data
  have hcolumnLe : column + 4 ≤ bitmap.stride := by
    have hle := mul_le hcolumn
    have hrows := h.rows
    omega
  have hrowLe : row ≤ (bitmap.height - 1) * bitmap.stride :=
    Nat.le_trans (mul_le hrow) (Nat.mul_le_mul_right _ (by omega))
  calc src + 4 ≤ row + (column + 4) := by
        have hle := add_le hsrc
        omega
    _ ≤ (bitmap.height - 1) * bitmap.stride + bitmap.stride := Nat.add_le_add hrowLe hcolumnLe
    _ = (bitmap.height - 1 + 1) * bitmap.stride := (Nat.succ_mul _ _).symm
    _ = bitmap.pixels.length := by rw [Nat.sub_add_cancel h.height, h.data, Nat.mul_comm]

theorem sourceOffset_ne_readOutside (bitmap : CursorBitmap) (x y : Nat) :
    sourceOffset checks factors bitmap x y ≠ .error .readOutside := by
  simp [sourceOffset, bind_eq_error, add, mul, sub, u32_ne_readOutside]

theorem readPixel_eq_error {e : ScaleFault} :
    readPixel bitmap src = .error e ↔ bitmap.pixels.length < src + 4 ∧ e = .readOutside := by
  unfold readPixel
  split
  next pixel hpixel =>
    have hinside := (get?_eq_some.mp hpixel).1.2
    simp only [reduceCtorEq, false_iff]
    omega
  next hnone =>
    have houtside : bitmap.pixels.length < src + 4 := by
      have hcases := get?_eq_none.mp hnone
      omega
    rw [Except.error.injEq, eq_comm, and_iff_right houtside]

theorem WholePixels.copyPixel_ne (h : WholePixels bitmap) (stride : Nat) (pixels : List UInt8)
    (at' : Nat × Nat) : copyPixel checks factors bitmap stride pixels at' ≠ .error .readOutside := by
  intro hread
  rw [copyPixel, bind_eq_error] at hread
  rcases hread with hread | ⟨src, hsrc, hread⟩
  · exact sourceOffset_ne_readOutside bitmap _ _ hread
  have hinside := h.sourceOffset_le hsrc
  -- what remains is the arithmetic of the target, its check, and the read itself
  simp only [bind_eq_error, add, mul, u32_ne_readOutside, false_or] at hread
  obtain ⟨row, -, column, -, dst, -, hread⟩ := hread
  split at hread
  · cases hread
  · rcases bind_eq_error.mp hread with hpixel | ⟨pixel, -, hpure⟩
    · have houtside := (readPixel_eq_error.mp hpixel).1
      omega
    · cases hpure

/-- No choice of rows and columns reads outside. -/
theorem reads_inside (h : WholePixels bitmap) (checks : Bool) (factors : CursorFactors) :
    scaleCursorBitmap checks factors bitmap ≠ .error .readOutside := by
  unfold scaleCursorBitmap
  split
  · intro hread
    cases hread
  · simp only [ne_eq, bind_eq_error, mul, u32_ne_readOutside, false_or]
    rintro ⟨stride, -, length, -, hread | ⟨pixels, -, hread⟩⟩
    · exact foldlM_ne_error (h.copyPixel_ne stride) _ _ hread
    · cases hread

/-! ## Decoded bitmaps -/

/-- What scaling needs, and that it then reads inside only. -/
structure SafeToScale (bitmap : CursorBitmap) : Prop extends WholePixels bitmap where
  reads : ∀ (checks : Bool) (factors : CursorFactors),
    scaleCursorBitmap checks factors bitmap ≠ .error .readOutside

/-- The region gives a width and a height of at least 1 and rows of whole pixels: the fields 4, 8 and 12
bytes behind the offset of the bitmap. -/
def WholeRows (buf : List UInt8) : Prop :=
  ∃ offset width height : Nat, ∃ stride : Int, readU32 buf 24 = some offset ∧
    readU32 buf (offset + 4) = some width ∧ readU32 buf (offset + 8) = some height ∧
    readI32 buf (offset + 12) = some stride ∧ 1 ≤ width ∧ 1 ≤ height ∧ 4 * width ≤ stride

/-- The decoder leaves the sizes unchecked: a bitmap is safe to scale if and only if the producer of the
region wrote whole rows into its header. -/
theorem cursor_bitmap_safe_iff (buf : List UInt8) (metadata : CursorMetadata) (bitmap : CursorBitmap)
    (hparse : parseSpaMetaCursor buf = some metadata) (hbitmap : metadata.bitmap = some bitmap) :
    SafeToScale bitmap ↔ WholeRows buf := by
  obtain ⟨base, hoffset, hbase⟩ := parseSpaMetaCursor_bitmap hparse hbitmap
  obtain ⟨hwidth, hheight, hstride⟩ := parseBitmap_header hbase
  constructor
  · intro hsafe
    exact ⟨base, bitmap.width, bitmap.height, bitmap.stride, hoffset, hwidth, hheight, hstride,
      hsafe.width, hsafe.height, by exact_mod_cast hsafe.rows⟩
  · rintro ⟨offset, width, height, stride, hoffset', hwidth', hheight', hstride', hw, hh, hrows⟩
    -- the fields that are read are those the bitmap was made of
    obtain rfl : base = offset := Option.some.inj (hoffset.symm.trans hoffset')
    obtain rfl : bitmap.width = width := Option.some.inj (hwidth.symm.trans hwidth')
    obtain rfl : bitmap.height = height := Option.some.inj (hheight.symm.trans hheight')
    obtain rfl : (bitmap.stride : Int) = stride := Option.some.inj (hstride.symm.trans hstride')
    have hwhole : WholePixels bitmap := ⟨hw, hh, by exact_mod_cast hrows, parseBitmap_pixels hbase⟩
    exact ⟨hwhole, reads_inside hwhole⟩

/-- The region of a cursor with a shape right after its header. -/
def cursorRegion (width height stride : Nat) (pixels : List UInt8) : List UInt8 :=
  Bytes.leBytes 4 1 ++ List.replicate 20 0 ++ Bytes.leBytes 4 28 ++
    (Bytes.leBytes 4 12 ++ Bytes.leBytes 4 width ++ Bytes.leBytes 4 height ++ Bytes.leBytes 4 stride ++
      Bytes.leBytes 4 20) ++ pixels

def cursorShape (width height stride : Nat) (pixels : List UInt8) : CursorMetadata where
  position := some (0, 0)
  hotspot := (0, 0)
  bitmap := some { width, height, stride, format := 12, pixels }

theorem cursor_bitmap_safe_two_by_two :
    parseSpaMetaCursor (cursorRegion 2 2 8 (List.replicate 16 7)) =
        some (cursorShape 2 2 8 (List.replicate 16 7)) ∧
      SafeToScale ⟨2, 2, 8, 12, List.replicate 16 7⟩ := by
  have hparse : parseSpaMetaCursor (cursorRegion 2 2 8 (List.replicate 16 7)) =
      some (cursorShape 2 2 8 (List.replicate 16 7)) := by decide +kernel
  have hrows : WholeRows (cursorRegion 2 2 8 (List.replicate 16 7)) := ⟨28, 2, 2, 8, by decide +kernel⟩
  exact ⟨hparse, (cursor_bitmap_safe_iff _ _ _ hparse rfl).mpr hrows⟩

/-- Two pixels in a row of four bytes. -/
theorem cursor_bitmap_unsafe :
    ¬ ∀ (buf : List UInt8) (metadata : CursorMetadata) (bitmap : CursorBitmap),
        parseSpaMetaCursor buf = some metadata → metadata.bitmap = some bitmap → SafeToScale bitmap := by
  intro halways
  have hsafe := halways (cursorRegion 2 1 4 (List.replicate 4 7)) (cursorShape 2 1 4 (List.replicate 4 7))
    ⟨2, 1, 4, 12, List.replicate 4 7⟩ (by decide +kernel) rfl
  exact absurd hsafe.rows (by decide)

end Rustcast.Host.Cursor
