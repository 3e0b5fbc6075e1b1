import Rustcast.Core.Fill

/-!
# Conversion to NV12

`nv12.rs`: a frame in system memory becomes a packed NV12 buffer, the luma of every pixel and then, for
every block of two by two pixels, a pair of chroma bytes. `none` is a panic: an index or a slice outside
of a buffer.
-/

namespace Rustcast.Host.Nv12

open Fill Slice

/-! ## Colours -/

inductive ChannelOrder where
  | bgra
  | rgba
  deriving DecidableEq

/-- `RO`, `GO`, `BO`: where the channels of a pixel are. -/
def ChannelOrder.offsets : ChannelOrder → Nat × Nat × Nat
  | .bgra => (2, 1, 0)
  | .rgba => (0, 1, 2)

@[ext]
structure Rgb where
  r : Int
  g : Int
  b : Int
  deriving DecidableEq

/-- `clamp(0, 255) as u8` -/
def clampByte (v : Int) : UInt8 := UInt8.ofNat (max 0 (min v 255)).toNat

def bt601Luma (p : Rgb) : UInt8 := clampByte (((66 * p.r + 129 * p.g + 25 * p.b + 128) >>> (8 : Nat)) + 16)

def bt601U (p : Rgb) : UInt8 := clampByte (((-38 * p.r - 74 * p.g + 112 * p.b + 128) >>> (8 : Nat)) + 128)

def bt601V (p : Rgb) : UInt8 := clampByte (((112 * p.r - 94 * p.g - 18 * p.b + 128) >>> (8 : Nat)) + 128)

def Rgb.add (p q : Rgb) : Rgb := ⟨p.r + q.r, p.g + q.g, p.b + q.b⟩

/-- A division of `i32` by four. -/
def Rgb.quarter (p : Rgb) : Rgb := ⟨p.r.tdiv 4, p.g.tdiv 4, p.b.tdiv 4⟩

def px (order : ChannelOrder) (p : List UInt8) : Option Rgb := do
  let (ro, go, bo) := order.offsets
  let r ← p[ro]?
  let g ← p[go]?
  let b ← p[bo]?
  some ⟨r.toNat, g.toNat, b.toNat⟩

/-! ## The fused pass -/

/-- A block of two by two pixels: four luma bytes and a chroma pair. -/
def convertBlock (order : ChannelOrder) (t b yt yb uv : List UInt8) :
    Option (List UInt8 × List UInt8 × List UInt8) := do
  let p0 ← px order (← get? t 0 4)
  let p1 ← px order (← get? t 4 t.length)
  let p2 ← px order (← get? b 0 4)
  let p3 ← px order (← get? b 4 b.length)
  let yt ← splice? yt 0 [bt601Luma p0]
  let yt ← splice? yt 1 [bt601Luma p1]
  let yb ← splice? yb 0 [bt601Luma p2]
  let yb ← splice? yb 1 [bt601Luma p3]
  let average := (((p0.add p1).add p2).add p3).quarter
  let uv ← splice? uv 0 [bt601U average]
  let uv ← splice? uv 1 [bt601V average]
  some (yt, yb, uv)

/-- The five iterators over the blocks of two rows. -/
def blocks (top bottom yTop yBottom uvRow : List UInt8) :
    List ((((List UInt8 × List UInt8) × List UInt8) × List UInt8) × List UInt8) :=
  ((((chunksExact 8 top).zip (chunksExact 8 bottom)).zip (chunksExact 2 yTop)).zip
    (chunksExact 2 yBottom)).zip (chunksExact 2 uvRow)

def convertBlocks (order : ChannelOrder) (top bottom yTop yBottom uvRow : List UInt8) :
    Option (List UInt8 × List UInt8 × List UInt8) := do
  let done ← (blocks top bottom yTop yBottom uvRow).mapM fun ((((t, b), yt), yb), uv) =>
    convertBlock order t b yt yb uv
  some (writeChunks yTop (done.map fun block => block.1),
    writeChunks yBottom (done.map fun block => block.2.1),
    writeChunks uvRow (done.map fun block => block.2.2))

/-- `let (r, g, b) = px(&row[x * 4..]); y_row[x] = bt601_luma(r, g, b);` -/
def convertColumn (order : ChannelOrder) (row yRow : List UInt8) (x : Nat) : Option (List UInt8) := do
  let p ← px order (← get? row (x * 4) row.length)
  splice? yRow x [bt601Luma p]

/-- The last of an odd number of columns, in one of the two rows. -/
def convertOddColumn (order : ChannelOrder) (row yRow : List UInt8) (w : Nat) : Option (List UInt8) :=
  if w % 2 = 1 then convertColumn order row yRow (w - 1) else some yRow

/-- One round of the loop over the pairs of rows. -/
def convertRowPair (order : ChannelOrder) (data : List UInt8) (stride w : Nat)
    (planes : List UInt8 × List UInt8) (cy : Nat) : Option (List UInt8 × List UInt8) := do
  let rowBytes := w * 4
  let cw := w / 2
  let top ← get? data (2 * cy * stride) (2 * cy * stride + rowBytes)
  let bottom ← get? data ((2 * cy + 1) * stride) ((2 * cy + 1) * stride + rowBytes)
  let yRows ← get? planes.1 (2 * cy * w) (2 * cy * w + 2 * w)
  let uvRow ← get? planes.2 (cy * w) (cy * w + 2 * cw)
  let (yTop, yBottom, uvRow) ← convertBlocks order top bottom (yRows.take w) (yRows.drop w) uvRow
  let yTop ← convertOddColumn order top yTop w
  let yBottom ← convertOddColumn order bottom yBottom w
  let yPlane ← splice? planes.1 (2 * cy * w) (yTop ++ yBottom)
  let uvPlane ← splice? planes.2 (cy * w) uvRow
  some (yPlane, uvPlane)

/-- The last of an odd number of rows. -/
def convertLastRow (order : ChannelOrder) (data : List UInt8) (stride w y : Nat) (yPlane : List UInt8) :
    Option (List UInt8) := do
  let src ← get? data (y * stride) (y * stride + w * 4)
  let yRow ← get? yPlane (y * w) (y * w + w)
  let done ← ((chunksExact 4 src).zip yRow).mapM fun (p, _) => (px order p).map fun p => [bt601Luma p]
  splice? yPlane (y * w) (writeChunks yRow done)

/-- The fused pass over two rows at a time, with the tails for an odd column and an odd row. -/
def convertRgbRows (order : ChannelOrder) (data : List UInt8) (stride w h : Nat)
    (yPlane uvPlane : List UInt8) : Option (List UInt8 × List UInt8) := do
  let (yPlane, uvPlane) ← (List.range (h / 2)).foldlM (convertRowPair order data stride w) (yPlane, uvPlane)
  if h % 2 = 1 then
    let yPlane ← convertLastRow order data stride w (h - 1) yPlane
    some (yPlane, uvPlane)
  else
    some (yPlane, uvPlane)

variable (data : List UInt8)

def packedRgbToNv12 (stride w h : Nat) (order : ChannelOrder) : Option (Except String (List UInt8)) :=
  if stride < w * 4 ∨ data.length < stride * h then
    some (.error s!"RGB buffer too small: {data.length} bytes, need stride {stride} * height {h}")
  else do
    let (yPlane, uvPlane) ← convertRgbRows order data stride w h
      (List.replicate (w * h) 0) (List.replicate (w * (h / 2)) 0)
    some (.ok (yPlane ++ uvPlane))

/-! ## The two-pass definition -/

def pxAt (order : ChannelOrder) (data : List UInt8) (stride x y : Nat) : Option Rgb := do
  let base := y * stride + x * 4
  let (ro, go, bo) := order.offsets
  let r ← data[base + ro]?
  let g ← data[base + go]?
  let b ← data[base + bo]?
  some ⟨r.toNat, g.toNat, b.toNat⟩

def blockSum (order : ChannelOrder) (data : List UInt8) (stride cx cy : Nat) : Option Rgb :=
  (List.range 2).foldlM (fun sum dy =>
    (List.range 2).foldlM (fun sum dx => do
      let p ← pxAt order data stride (cx * 2 + dx) (cy * 2 + dy)
      some (sum.add p)) sum) ⟨0, 0, 0⟩

/-- Luma first and chroma in a second pass, the definition that the tests compare with. -/
def twoPassReference (stride w h : Nat) (order : ChannelOrder) :
    Option (List UInt8) := do
  let yPlane ← (List.range h).foldlM (fun yPlane y =>
    (List.range w).foldlM (fun yPlane x =>
      ((pxAt order data stride x y).map fun p => [bt601Luma p]) >>= splice? yPlane (y * w + x)) yPlane)
    (List.replicate (w * h) 0)
  let uvPlane ← (List.range (h / 2)).foldlM (fun uvPlane cy =>
    (List.range (w / 2)).foldlM (fun uvPlane cx =>
      ((blockSum order data stride cx cy).map fun sum => [bt601U sum.quarter, bt601V sum.quarter]) >>=
        splice? uvPlane (cy * w + cx * 2)) uvPlane)
    (List.replicate (w * (h / 2)) 0)
  some (yPlane ++ uvPlane)

/-! ## Formats in planes -/

/-- `out[dst + row * w..][..w].copy_from_slice(&data[src + row * stride..][..w])` for every row. -/
def copyRows (src stride dst w rows : Nat) (out : List UInt8) : Option (List UInt8) :=
  (List.range rows).foldlM (fun out row =>
    get? data (src + row * stride) (src + row * stride + w) >>= splice? out (dst + row * w)) out

def passthroughNv12 (stride w h : Nat) : Option (Except String (List UInt8)) :=
  let stride := max stride w
  if data.length < stride * h + stride * (h / 2) then
    some (.error s!"NV12 buffer too small: {data.length} bytes")
  else do
    let out ← copyRows data 0 stride 0 w h (List.replicate (w * h + w * (h / 2)) 0)
    let out ← copyRows data (stride * h) stride (w * h) w (h / 2) out
    some (.ok out)

/-- The two chroma planes, sample by sample in turns. -/
def interleaveRows (uBase vBase cStride dst w cw ch : Nat) (out : List UInt8) : Option (List UInt8) :=
  (List.range ch).foldlM (fun out row =>
    (List.range cw).foldlM (fun out col =>
      (do let u ← data[uBase + row * cStride + col]?
          let v ← data[vBase + row * cStride + col]?
          some [u, v]) >>= splice? out (dst + row * w + col * 2)) out) out

def i420ToNv12 (stride w h : Nat) : Option (Except String (List UInt8)) :=
  let stride := max stride w
  let cw := w / 2
  let ch := h / 2
  let ySize := stride * h
  let cStride := stride / 2
  let cSize := cStride * ch
  if data.length < ySize + 2 * cSize then
    some (.error s!"I420 buffer too small: {data.length} bytes")
  else do
    let out ← copyRows data 0 stride 0 w h (List.replicate (w * h + w * (h / 2)) 0)
    let out ← interleaveRows data ySize (ySize + cSize) cStride (w * h) w cw ch out
    some (.ok out)

theorem getElem?_eq_getD {data : List UInt8} {i : Nat} (h : i < data.length) :
    data[i]? = some (data.getD i 0) := by
  rw [List.getD_eq_getElem?_getD, List.getElem?_eq_getElem h, Option.getD_some]

end Rustcast.Host.Nv12
