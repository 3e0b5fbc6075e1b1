import Mathlib.Data.List.Basic
import Rustcast.Core.Fallible
import Rustcast.Core.FixedPoint
import Rustcast.Core.PairCache
import Rustcast.Core.Slice
import Rustcast.Host.Encoder

/-!
# Scaling frames down

`scale.rs`: the size that an encoder takes, and the bilinear filter that brings a packed frame to it. The
filter works row by row. Each source row is interpolated horizontally into 16-bit lanes and kept for the
next output row, and two such rows are blended vertically.
-/

namespace Rustcast.Host

/-! ## Sizes -/

/-- In both dimensions at most. -/
def Resolution.Fits (r bound : Resolution) : Prop := r.width ≤ bound.width ∧ r.height ≤ bound.height

def Resolution.Even (r : Resolution) : Prop := r.width % 2 = 0 ∧ r.height % 2 = 0

instance (r bound : Resolution) : Decidable (r.Fits bound) := inferInstanceAs (Decidable (_ ∧ _))

instance (r : Resolution) : Decidable r.Even := inferInstanceAs (Decidable (_ ∧ _))

/-- The largest even number that is not larger. -/
def evenBelow (n : Nat) : Nat := n - n % 2

/-- What `fit_within` promises about sizes. -/
structure FitPromises (src bound : Resolution) : Prop where
  fits : (fitWithin src bound).Fits bound
  shrinks : (fitWithin src bound).Fits src
  even : (fitWithin src bound).Even
  idempotent : fitWithin (fitWithin src bound) bound = fitWithin src bound
  largest : ¬ src.Fits bound →
    (fitWithin src bound).width = evenBelow bound.width ∨
      (fitWithin src bound).height = evenBelow bound.height

variable {src bound : Resolution} {y source : Nat}

theorem fitWithin_of_fits (h : src.Fits bound) : fitWithin src bound = src := by
  unfold fitWithin
  split
  · rfl
  · exact if_pos h

variable {side other maxSide maxOther : Nat}

/-- The side that limits the scale, and the other one with it. -/
theorem scaledSides (hlimits : maxSide * other ≤ maxOther * side) (hover : maxSide < side) :
    side * maxSide / side = maxSide ∧ other * maxSide / side ≤ maxOther ∧
      other * maxSide / side ≤ other := by
  refine ⟨Nat.mul_div_cancel_left _ (by omega), ?_, ?_⟩
  · apply Nat.div_le_of_le_mul
    rw [Nat.mul_comm other, Nat.mul_comm side]
    exact hlimits
  · apply Nat.div_le_of_le_mul
    rw [Nat.mul_comm side]
    exact Nat.mul_le_mul_left other (Nat.le_of_lt hover)

/-- A side that limits the scale does not fit, since one of the two does not. -/
theorem lt_of_limits (hmax : 0 < maxSide) (hlimits : maxSide * other ≤ maxOther * side)
    (hnot : side ≤ maxSide → maxOther < other) :
    maxSide < side := by
  by_contra hle
  have hother := hnot (by omega)
  have hlt : maxOther * side < maxSide * other :=
    calc maxOther * side ≤ maxOther * maxSide := Nat.mul_le_mul_left _ (by omega)
      _ = maxSide * maxOther := Nat.mul_comm _ _
      _ < maxSide * other := Nat.mul_lt_mul_of_pos_left hother hmax
  omega

/-- The size before it is made even. -/
structure Scaled (src bound : Resolution) (width height : Nat) : Prop where
  result : fitWithin src bound = ⟨max (evenBelow width) 2, max (evenBelow height) 2⟩
  width_le_max : width ≤ bound.width
  height_le_max : height ≤ bound.height
  width_le : width ≤ src.width
  height_le : height ≤ src.height
  limit : width = bound.width ∨ height = bound.height

theorem fitWithin_of_not_fits (hwidth : 1 ≤ src.width) (hheight : 1 ≤ src.height)
    (hboundWidth : 2 ≤ bound.width) (hboundHeight : 2 ≤ bound.height) (h : ¬ src.Fits bound) :
    ∃ width height, Scaled src bound width height := by
  have hnonzero : ¬ (src.width = 0 ∨ src.height = 0) := by omega
  have hnot : src.width ≤ bound.width → bound.height < src.height := by
    intro hle
    by_contra hother
    exact h ⟨hle, by omega⟩
  by_cases hlimits : bound.width * src.height ≤ bound.height * src.width
  · -- the width limits
    have hover := lt_of_limits (by omega) hlimits hnot
    obtain ⟨hside, hfits, hshrinks⟩ := scaledSides hlimits hover
    refine ⟨bound.width, src.height * bound.width / src.width, ?_, Nat.le_refl _, hfits,
      Nat.le_of_lt hover, hshrinks, .inl rfl⟩
    rw [fitWithin, if_neg hnonzero, if_neg (by exact h), if_pos hlimits]
    show (⟨max (evenBelow (src.width * bound.width / src.width)) 2, _⟩ : Resolution) = _
    rw [hside]
    rfl
  · -- the height limits
    have hover := lt_of_limits (by omega) (Nat.le_of_not_le hlimits) (fun hle => by omega)
    obtain ⟨hside, hfits, hshrinks⟩ := scaledSides (Nat.le_of_not_le hlimits) hover
    refine ⟨src.width * bound.height / src.height, bound.height, ?_, hfits, Nat.le_refl _,
      hshrinks, Nat.le_of_lt hover, .inr rfl⟩
    rw [fitWithin, if_neg hnonzero, if_neg (by exact h), if_neg hlimits]
    show (⟨_, max (evenBelow (src.height * bound.height / src.height)) 2⟩ : Resolution) = _
    rw [hside]
    rfl

/-- For a source that does not fit, only a side of a single pixel breaks a promise: it grows to two. -/
theorem Scaled.promises_iff {width height : Nat} (h : Scaled src bound width height)
    (hwidth : 1 ≤ src.width) (hheight : 1 ≤ src.height) (hboundWidth : 2 ≤ bound.width)
    (hboundHeight : 2 ≤ bound.height) : FitPromises src bound ↔ 2 ≤ src.width ∧ 2 ≤ src.height := by
  obtain ⟨hresult, hwmax, hhmax, hwsrc, hhsrc, hlimit⟩ := h
  have hfits : (fitWithin src bound).Fits bound := by
    rw [hresult]
    show max (width - width % 2) 2 ≤ bound.width ∧ max (height - height % 2) 2 ≤ bound.height
    omega
  constructor
  · -- `max(2)` is above a side of one pixel
    intro hpromises
    have hshrinks := hpromises.shrinks
    rw [hresult] at hshrinks
    have hwidths : max (evenBelow width) 2 ≤ src.width := hshrinks.1
    have hheights : max (evenBelow height) 2 ≤ src.height := hshrinks.2
    omega
  · rintro ⟨hw, hh⟩
    refine ⟨hfits, ?_, ?_, fitWithin_of_fits hfits, fun _ => ?_⟩
    · rw [hresult]
      show max (width - width % 2) 2 ≤ src.width ∧ max (height - height % 2) 2 ≤ src.height
      omega
    · rw [hresult]
      show max (width - width % 2) 2 % 2 = 0 ∧ max (height - height % 2) 2 % 2 = 0
      omega
    · rw [hresult]
      show max (width - width % 2) 2 = bound.width - bound.width % 2 ∨
        max (height - height % 2) 2 = bound.height - bound.height % 2
      omega

/-- The promises are kept for sources that fit and are even already, and for those that do not fit
and are not a single line of pixels. -/
theorem fitWithin_promises_iff (src bound : Resolution) (hwidth : 1 ≤ src.width) (hheight : 1 ≤ src.height)
    (hboundWidth : 2 ≤ bound.width) (hboundHeight : 2 ≤ bound.height) :
    FitPromises src bound ↔
      (src.Fits bound ∧ src.Even) ∨ (¬ src.Fits bound ∧ 2 ≤ src.width ∧ 2 ≤ src.height) := by
  by_cases hfits : src.Fits bound
  · have hself := fitWithin_of_fits hfits
    constructor
    · intro hpromises
      have heven := hpromises.even
      rw [hself] at heven
      exact .inl ⟨hfits, heven⟩
    · rintro (⟨-, heven⟩ | ⟨hnot, -⟩)
      · refine ⟨?_, ?_, ?_, ?_, absurd hfits⟩
        · rw [hself]
          exact hfits
        · rw [hself]
          exact ⟨Nat.le_refl _, Nat.le_refl _⟩
        · rw [hself]
          exact heven
        · rw [hself, hself]
      · exact absurd hfits hnot
  · obtain ⟨width, height, hscaled⟩ := fitWithin_of_not_fits hwidth hheight hboundWidth hboundHeight hfits
    rw [hscaled.promises_iff hwidth hheight hboundWidth hboundHeight]
    simp [hfits]

theorem fitWithin_promises_wide :
    fitWithin ⟨5120, 2160⟩ ⟨4096, 4096⟩ = ⟨4096, 1728⟩ ∧ FitPromises ⟨5120, 2160⟩ ⟨4096, 4096⟩ :=
  ⟨by decide, (fitWithin_promises_iff _ _ (by decide) (by decide) (by decide) (by decide)).mpr
    (.inr (by decide))⟩

/-- A source of odd sides that fits stays odd. -/
theorem fitWithin_breaks_promises :
    ¬ ∀ src bound : Resolution, 1 ≤ src.width → 1 ≤ src.height → 2 ≤ bound.width → 2 ≤ bound.height →
        FitPromises src bound := by
  intro halways
  have heven := (halways ⟨3, 3⟩ ⟨4, 4⟩ (by decide) (by decide) (by decide) (by decide)).even
  revert heven
  decide

/-! ## Pixels -/

/-- A frame with its bytes. -/
structure PixelFrame where
  format : PixelFormat
  resolution : Resolution
  stride : Nat
  data : List UInt8
  deriving DecidableEq

/-- The frame without the pixels themselves. -/
def PixelFrame.captured (frame : PixelFrame) : CapturedFrame :=
  { format := frame.format, resolution := frame.resolution, stride := frame.stride
    dataLength := frame.data.length }

/-- `px`: a channel of a pixel. -/
def PixelFrame.px (frame : PixelFrame) (y x c : Nat) : Nat :=
  (frame.data.getD (y * frame.stride + x * 4 + c) 0).toNat

namespace Scale

open FixedPoint

/-- The error that is returned, a `usize` that would be negative, a slice that is not inside. -/
inductive Failure where
  | rejected (reason : String)
  | underflow
  | outOfBounds
  deriving DecidableEq

def fpBits : Nat := 8

def fpOne : Nat := 256

def sub (a b : Nat) : Except Failure Nat := if b ≤ a then .ok (a - b) else .error .underflow

def slice (bytes : List UInt8) (start stop : Nat) : Except Failure (List UInt8) :=
  match Slice.get? bytes start stop with
  | some part => .ok part
  | none => .error .outOfBounds

/-- `x_ratio` and `y_ratio`, cut to 32 bits. -/
def ratio (source target : Nat) : Except Failure Nat := do
  let last ← sub source 1
  pure (last * fpOne / max target 1 % 2 ^ 32)

/-- The source index and the weight of the one after it, for the columns and for the rows. -/
def position (ratio source i : Nat) : Except Failure (Nat × Nat) := do
  let f := i * ratio
  -- evaluated for every column and row, also where the minimum is the other one
  let last ← sub source 2
  pure (min (f >>> fpBits) last, f &&& (fpOne - 1))

/-- `_mm_mullo_epi16` on a pixel pair: the first pixel in the low four lanes. -/
def mulLanes (pair : List UInt8) (wx : Nat) : List UInt16 :=
  List.zipWith (· * ·) (pair.map UInt8.toUInt16)
    (List.replicate 4 (UInt16.ofNat (fpOne - wx)) ++ List.replicate 4 (UInt16.ofNat wx))

/-- The body of `interpolate_row_sse2`: the high lanes are shifted down and added. -/
def interpolatePixel (pair : List UInt8) (wx : Nat) : List UInt16 :=
  let m := mulLanes pair wx
  (List.zipWith (· + ·) m (m.drop 4 ++ List.replicate 4 0)).take 4

/-- The body of `interpolate_row_scalar`. -/
def interpolatePixelScalar (pair : List UInt8) (wx : Nat) : List UInt16 :=
  List.zipWith (fun a b => a.toUInt16 * UInt16.ofNat (fpOne - wx) + b.toUInt16 * UInt16.ofNat wx)
    (pair.take 4) (pair.drop 4)

def interpolateRow (src : List UInt8) (xs : List (Nat × Nat)) : Except Failure (List UInt16) := do
  let pixels ← xs.mapM fun (sx, wx) => do
    let pair ← slice src (sx * 4) (sx * 4 + 8)
    pure (interpolatePixel pair wx)
  pure pixels.flatten

def blendRows (top bot : List UInt16) (wy : Nat) : List UInt8 :=
  List.zipWith (fun t b =>
    ((t.toUInt32 * UInt32.ofNat (fpOne - wy) + b.toUInt32 * UInt32.ofNat wy) >>> 16).toUInt8) top bot

/-- The loop over the output rows. A row that is kept is found by its number; `usize::MAX`, which is not
the number of a row, is `none` here. -/
def outputRows (row : Nat → Except Failure (List UInt16)) (position : Nat → Except Failure (Nat × Nat)) :
    PairCache (List UInt16) → List Nat → Except Failure (List UInt8)
  | _, [] => pure []
  | kept, dy :: rest => do
    let (sy, wy) ← position dy
    let kept ← kept.fetch row sy
    let out ← outputRows row position kept rest
    -- `top` and `bot` are as wide as the output row, so that the zips cut nothing
    pure (blendRows kept.top kept.bot wy ++ out)

/-- `src_row`, interpolated. -/
def sourceRow (frame : PixelFrame) (xs : List (Nat × Nat)) (y : Nat) : Except Failure (List UInt16) := do
  let src ← slice frame.data (y * frame.stride) (y * frame.stride + frame.resolution.width * 4)
  interpolateRow src xs

/-- The part of `downscale_frame` after its checks. -/
def scalePixels (frame : PixelFrame) (target : Resolution) : Except Failure (List UInt8) := do
  let xRatio ← ratio frame.resolution.width target.width
  let yRatio ← ratio frame.resolution.height target.height
  let xs ← (List.range target.width).mapM (position xRatio frame.resolution.width)
  let blank := List.replicate (target.width * 4) 0
  outputRows (sourceRow frame xs) (position yRatio frame.resolution.height)
    { top := blank, bot := blank } (List.range target.height)

def downscaleFrame (frame : PixelFrame) (target : Resolution) : Except Failure PixelFrame :=
  -- the checks are in the order of the source: the first that fails gives the reason
  if frame.resolution = target then .ok frame
  else if frame.format ≠ .bgra8 ∧ frame.format ≠ .rgba8 then
    .error (.rejected
      ("downscale: unsupported pixel format " ++ frame.format.text ++ " (expected BGRA/RGBA)"))
  else if frame.data.isEmpty then
    .error (.rejected "downscale: frame has no CPU pixel data (GPU-only frames unsupported)")
  else if target.width = 0 ∨ target.height = 0 ∨ frame.resolution.width < target.width ∨
      frame.resolution.height < target.height then
    .error (.rejected
      ("downscale: invalid target " ++ target.text ++ " for source " ++ frame.resolution.text))
  else if frame.data.length < frame.stride * frame.resolution.height ∨
      frame.stride < frame.resolution.width * 4 then
    .error (.rejected ("downscale: source buffer too small (" ++ toString frame.data.length ++
      " bytes for " ++ frame.resolution.text ++ " stride " ++ toString frame.stride ++ ")"))
  else do
    let data ← scalePixels frame target
    pure { format := frame.format, resolution := target, stride := target.width * 4, data }

/-! ### The reference -/

/-- The steps of the reference, with the same cut to 32 bits. -/
def referenceRatio (source target : Nat) : Nat := (source - 1) * fpOne / target % 2 ^ 32

/-- The two source indices, clamped to the image. -/
def referenceIndices (source target i : Nat) : Nat × Nat :=
  let at' := i * referenceRatio source target / fpOne
  (min at' (source - 1), min (at' + 1) (source - 1))

def referenceWeight (source target i : Nat) : Nat := i * referenceRatio source target % fpOne

/-- The interpolation of one output byte on its own. -/
def referenceByte (frame : PixelFrame) (target : Resolution) (dy dx c : Nat) : UInt8 :=
  let (y₀, y₁) := referenceIndices frame.resolution.height target.height dy
  let (x₀, x₁) := referenceIndices frame.resolution.width target.width dx
  let wx := referenceWeight frame.resolution.width target.width dx
  let top := lerp fpOne (frame.px y₀ x₀ c) (frame.px y₀ x₁ c) wx
  let bot := lerp fpOne (frame.px y₁ x₀ c) (frame.px y₁ x₁ c) wx
  let wy := referenceWeight frame.resolution.height target.height dy
  UInt8.ofNat (lerp fpOne top bot wy / 2 ^ (2 * fpBits))

/-- `reference_downscale` with clamped indices. -/
def referenceDownscale (frame : PixelFrame) (target : Resolution) : List UInt8 :=
  (List.range target.height).flatMap fun dy =>
    (List.range target.width).flatMap fun dx =>
      (List.range 4).map (referenceByte frame target dy dx)

/-- No lane of a pixel pair wraps: the products and the sums are those of the numbers. -/
structure ExactLanes (pair : List UInt8) (wx : Nat) : Prop where
  products : (mulLanes pair wx).map UInt16.toNat =
    List.zipWith (· * ·) (pair.map UInt8.toNat) (List.replicate 4 (fpOne - wx) ++ List.replicate 4 wx)
  sums : (interpolatePixel pair wx).map UInt16.toNat =
    List.zipWith (fun a b => lerp fpOne a b wx) ((pair.take 4).map UInt8.toNat)
      ((pair.drop 4).map UInt8.toNat)

/-- The call returns the frame of the reference, and computes it with exact lanes. -/
structure MatchesReference (frame : PixelFrame) (target : Resolution) : Prop where
  returns : downscaleFrame frame target = .ok
    { format := frame.format, resolution := target, stride := target.width * 4
      data := referenceDownscale frame target }
  exact : ∀ dx < target.width, ∀ pair : List UInt8, pair.length = 8 →
    ExactLanes pair (referenceWeight frame.resolution.width target.width dx)

/-! ### The kernels -/

variable {frame : PixelFrame} {target : Resolution} {pair : List UInt8} {wx : Nat}

theorem toUInt16_mul_ofNat (a : UInt8) (w : Nat) :
    a.toUInt16 * UInt16.ofNat w = UInt16.ofNat (a.toNat * w) := by
  rw [UInt16.ofNat_mul, UInt16.ofNat_uInt8ToNat]

/-- Both kernels compute the same lanes. -/
theorem interpolatePixel_eq_scalar (h : pair.length = 8) :
    interpolatePixel pair wx = interpolatePixelScalar pair wx := by
  apply List.ext_getElem
  · simp [interpolatePixel, interpolatePixelScalar, mulLanes, h]
  · intro i hi _
    have hi4 : i < 4 := by
      simp [interpolatePixel, mulLanes, h] at hi
      omega
    obtain rfl | rfl | rfl | rfl : i = 0 ∨ i = 1 ∨ i = 2 ∨ i = 3 := by omega
    all_goals simp [interpolatePixel, interpolatePixelScalar, mulLanes, h]

theorem scalarLane (a b : UInt8) (wx : Nat) :
    a.toUInt16 * UInt16.ofNat (fpOne - wx) + b.toUInt16 * UInt16.ofNat wx =
      UInt16.ofNat (lerp fpOne a.toNat b.toNat wx) := by
  rw [toUInt16_mul_ofNat, toUInt16_mul_ofNat, ← UInt16.ofNat_add]
  rfl

theorem byte_le (a : UInt8) : a.toNat ≤ 255 := Nat.le_of_lt_succ a.toNat_lt

theorem lane_le (a b : UInt8) (hw : wx ≤ fpOne) : lerp fpOne a.toNat b.toNat wx ≤ 255 * fpOne :=
  lerp_le (byte_le a) (byte_le b) hw

theorem map_toNat_mul (pair : List UInt8) (ws : List Nat) (h : ∀ w ∈ ws, w ≤ fpOne) :
    (List.zipWith (· * ·) (pair.map UInt8.toUInt16) (ws.map UInt16.ofNat)).map UInt16.toNat =
      List.zipWith (· * ·) (pair.map UInt8.toNat) ws := by
  induction pair generalizing ws with
  | nil => rfl
  | cons a pair ih =>
    cases ws with
    | nil => rfl
    | cons w ws =>
      -- the largest product of a byte and a weight has sixteen bits
      have hlane : a.toNat * w < 2 ^ 16 :=
        calc a.toNat * w ≤ 255 * 256 := Nat.mul_le_mul (byte_le a) (h w List.mem_cons_self)
          _ < 2 ^ 16 := by decide
      simp only [List.map_cons, List.zipWith_cons_cons]
      rw [ih ws fun w hw => h w (List.mem_cons_of_mem _ hw), toUInt16_mul_ofNat,
        UInt16.toNat_ofNat_of_lt' hlane]

theorem exactLanes (h : pair.length = 8) (hw : wx ≤ fpOne) : ExactLanes pair wx where
  products := by
    rw [mulLanes, ← map_toNat_mul]
    · simp
    · intro w hmem
      simp only [List.mem_append, List.mem_replicate] at hmem
      omega
  sums := by
    have hlane : ∀ a b : UInt8,
        (UInt16.ofNat (lerp fpOne a.toNat b.toNat wx)).toNat = lerp fpOne a.toNat b.toNat wx := by
      intro a b
      apply UInt16.toNat_ofNat_of_lt'
      calc lerp fpOne a.toNat b.toNat wx ≤ 255 * fpOne := lane_le a b hw
        _ < UInt16.size := by decide
    rw [interpolatePixel_eq_scalar h, interpolatePixelScalar, List.map_zipWith, List.zipWith_map]
    simp only [scalarLane, hlane]

/-! ### The horizontal pass -/

theorem slice_ok {bytes : List UInt8} {start stop : Nat} (hstart : start ≤ stop)
    (hstop : stop ≤ bytes.length) : ∃ part, slice bytes start stop = .ok part ∧
      part.length = stop - start ∧ ∀ i < stop - start, part.getD i 0 = bytes.getD (start + i) 0 := by
  have hget := Slice.get?_of_le hstart hstop
  refine ⟨_, by rw [slice, hget], Slice.length_of_get? hget, fun i hi => ?_⟩
  rw [List.getD_eq_getElem?_getD, List.getD_eq_getElem?_getD, Slice.getElem?_of_get? hget hi]

def lane (frame : PixelFrame) (y : Nat) (column : Nat × Nat) (c : Nat) : Nat :=
  lerp fpOne (frame.px y column.1 c) (frame.px y (column.1 + 1) c) column.2

theorem interpolatePixel_eq_lanes {sx : Nat} (h : pair.length = 8)
    (hbytes : ∀ i < 8, pair.getD i 0 = frame.data.getD (y * frame.stride + sx * 4 + i) 0) :
    interpolatePixel pair wx = (List.range 4).map fun c => UInt16.ofNat (lane frame y (sx, wx) c) := by
  rw [interpolatePixel_eq_scalar h]
  apply List.ext_getElem
  · simp [interpolatePixelScalar, h]
  · intro i hi _
    have hget : ∀ j (hj : j < pair.length),
        pair[j] = frame.data.getD (y * frame.stride + sx * 4 + j) 0 := by
      intro j hj
      rw [← hbytes j (by omega), List.getD_eq_getElem?_getD, List.getElem?_eq_getElem hj, Option.getD_some]
    simp only [interpolatePixelScalar, List.getElem_zipWith, List.getElem_take, List.getElem_drop,
      List.getElem_map, List.getElem_range, scalarLane, hget, lane, PixelFrame.px]
    rw [show y * frame.stride + sx * 4 + (4 + i) = y * frame.stride + (sx + 1) * 4 + i from by omega]

def rowLanes (frame : PixelFrame) (columns : List (Nat × Nat)) (y : Nat) : List UInt16 :=
  columns.flatMap fun column => (List.range 4).map fun c => UInt16.ofNat (lane frame y column c)

/-- The rows of the image are inside of its data. -/
structure Backed (frame : PixelFrame) : Prop where
  stride : frame.resolution.width * 4 ≤ frame.stride
  data : frame.stride * frame.resolution.height ≤ frame.data.length

theorem Backed.row_le (h : Backed frame) (hy : y < frame.resolution.height) :
    y * frame.stride + frame.resolution.width * 4 ≤ frame.data.length :=
  calc y * frame.stride + frame.resolution.width * 4 ≤ y * frame.stride + frame.stride :=
        Nat.add_le_add_left h.stride _
    _ = frame.stride * (y + 1) := by rw [Nat.mul_add, Nat.mul_one, Nat.mul_comm]
    _ ≤ frame.stride * frame.resolution.height := Nat.mul_le_mul_left _ hy
    _ ≤ frame.data.length := h.data

/-- The horizontal pass of a row inside the image, whose lanes are exact (`Scale.exactLanes`). -/
theorem sourceRow_ok (h : Backed frame) {columns : List (Nat × Nat)} (hy : y < frame.resolution.height)
    (hcolumns : ∀ column ∈ columns, column.1 + 2 ≤ frame.resolution.width) :
    sourceRow frame columns y = .ok (rowLanes frame columns y) := by
  obtain ⟨src, hsrc, hlength, hbytes⟩ := slice_ok (Nat.le_add_right _ _) (h.row_le hy)
  have hpixel : ∀ column ∈ columns,
      (do let pair ← slice src (column.1 * 4) (column.1 * 4 + 8)
          pure (interpolatePixel pair column.2) : Except Failure (List UInt16)) =
        .ok ((List.range 4).map fun c => UInt16.ofNat (lane frame y column c)) := by
    intro column hmem
    -- the column after this one is in the row, so both pixels of the pair are
    have hle := hcolumns column hmem
    have hinside : column.1 * 4 + 8 ≤ src.length := by omega
    obtain ⟨pair, hpair, hpairLength, hpairBytes⟩ := slice_ok (Nat.le_add_right _ _) hinside
    rw [hpair]
    refine congrArg _ (interpolatePixel_eq_lanes (by omega) fun i hi => ?_)
    rw [hpairBytes i (by omega), hbytes _ (by omega), Nat.add_assoc]
  rw [sourceRow, hsrc]
  show interpolateRow src columns = _
  rw [interpolateRow, Fallible.mapM_eq_ok hpixel]
  show Except.ok _ = _
  rw [rowLanes, List.flatMap_def]

/-! ### Positions -/

theorem ratio_ok {target : Nat} (hsource : 1 ≤ source) (htarget : 1 ≤ target) :
    ratio source target = .ok (referenceRatio source target) := by
  rw [ratio, sub, if_pos hsource]
  rw [show max target 1 = target from by omega]
  rfl

/-- A walk over the targets stops before the last source index, so that no index needs its clamp. -/
theorem referenceIndices_eq {target i : Nat} (hsource : 2 ≤ source) (hi : i < target) :
    ∃ k, i * referenceRatio source target / fpOne = k ∧ k + 2 ≤ source ∧
      referenceIndices source target i = (k, k + 1) := by
  -- the cut of the ratio to 32 bits makes the steps only smaller
  have hspan : 0 < (source - 1) * fpOne := Nat.mul_pos (by omega) (by decide)
  have hbelow : i * referenceRatio source target < (source - 1) * fpOne :=
    calc i * referenceRatio source target ≤ i * ((source - 1) * fpOne / target) :=
          Nat.mul_le_mul_left _ (Nat.mod_le _ _)
      _ < (source - 1) * fpOne := mul_div_lt hspan hi
  have hlt : i * referenceRatio source target / fpOne < source - 1 :=
    Nat.div_lt_of_lt_mul (by rwa [Nat.mul_comm (source - 1)] at hbelow)
  refine ⟨_, rfl, by omega, ?_⟩
  show (min _ _, min _ _) = _
  rw [Nat.min_eq_left (by omega), Nat.min_eq_left (by omega)]

theorem position_ok {target i : Nat} (hsource : 2 ≤ source) (hi : i < target) :
    position (referenceRatio source target) source i =
      .ok ((referenceIndices source target i).1, referenceWeight source target i) := by
  obtain ⟨k, hk, hle, hindices⟩ := referenceIndices_eq hsource hi
  have hshift : (i * referenceRatio source target) >>> fpBits = k := by
    rw [Nat.shiftRight_eq_div_pow, ← hk]
    rfl
  have hmask : i * referenceRatio source target &&& (fpOne - 1) = referenceWeight source target i :=
    Nat.and_two_pow_sub_one_eq_mod _ 8
  rw [position, sub, if_pos hsource, hindices]
  show Except.ok (min ((i * referenceRatio source target) >>> fpBits) (source - 2),
    i * referenceRatio source target &&& (fpOne - 1)) = _
  rw [hshift, hmask, Nat.min_eq_left (by omega)]

theorem referenceWeight_le (source target i : Nat) : referenceWeight source target i ≤ fpOne :=
  Nat.le_of_lt (Nat.mod_lt _ (by decide))

/-! ### The vertical pass -/

theorem blendByte {t b wy : Nat} (ht : t ≤ 255 * fpOne) (hb : b ≤ 255 * fpOne) (hw : wy ≤ fpOne) :
    (((UInt16.ofNat t).toUInt32 * UInt32.ofNat (fpOne - wy) +
        (UInt16.ofNat b).toUInt32 * UInt32.ofNat wy) >>> 16).toUInt8 =
      UInt8.ofNat (lerp fpOne t b wy / 2 ^ (2 * fpBits)) := by
  have hlane : ∀ n ≤ 255 * fpOne, (UInt16.ofNat n).toUInt32 = UInt32.ofNat n := fun n hn =>
    UInt16.toUInt32_ofNat' (Nat.lt_of_le_of_lt hn (by decide))
  have hsum : lerp fpOne t b wy < 2 ^ 32 := calc lerp fpOne t b wy ≤ 255 * fpOne * fpOne := lerp_le ht hb hw
      _ < 2 ^ 32 := by decide
  rw [hlane t ht, hlane b hb, ← UInt32.ofNat_mul, ← UInt32.ofNat_mul, ← UInt32.ofNat_add]
  have hshift : UInt32.ofNat (lerp fpOne t b wy) >>> 16 = UInt32.ofNat (lerp fpOne t b wy / 2 ^ 16) := by
    apply UInt32.toNat.inj
    have hquot : lerp fpOne t b wy / 2 ^ 16 < 2 ^ 32 := Nat.lt_of_le_of_lt (Nat.div_le_self _ _) hsum
    rw [UInt32.toNat_shiftRight, UInt32.toNat_ofNat_of_lt' hsum, UInt32.toNat_ofNat_of_lt' hquot]
    exact Nat.shiftRight_eq_div_pow _ _
  show (UInt32.ofNat (lerp fpOne t b wy) >>> 16).toUInt8 = _
  rw [hshift, UInt32.toUInt8_ofNat']
  rfl

theorem zipWith_flatMap_map {α β γ δ : Type} (f : γ → γ → δ) (g h : α → β → γ) (xs : List α)
    (ys : List β) :
    List.zipWith f (xs.flatMap fun x => ys.map (g x)) (xs.flatMap fun x => ys.map (h x)) =
      xs.flatMap fun x => ys.map fun y => f (g x y) (h x y) := by
  induction xs with
  | nil => rfl
  | cons x xs ih =>
    rw [List.flatMap_cons, List.flatMap_cons, List.flatMap_cons, List.zipWith_append (by simp), ih,
      List.zipWith_map, List.zipWith_self]

theorem blendRows_rowLanes {columns : List (Nat × Nat)} {sy wy : Nat}
    (hcolumns : ∀ column ∈ columns, column.2 ≤ fpOne) (hw : wy ≤ fpOne) :
    blendRows (rowLanes frame columns sy) (rowLanes frame columns (sy + 1)) wy =
      columns.flatMap fun column => (List.range 4).map fun c =>
        UInt8.ofNat (lerp fpOne (lane frame sy column c) (lane frame (sy + 1) column c) wy /
          2 ^ (2 * fpBits)) := by
  rw [blendRows, rowLanes, rowLanes, zipWith_flatMap_map]
  refine List.flatMap_congr fun column hmem => List.map_congr_left fun c _ => ?_
  exact blendByte (lane_le _ _ (hcolumns column hmem)) (lane_le _ _ (hcolumns column hmem)) hw

/-- Every output row is blended from its own two source rows, whatever was kept from the rows before. -/
theorem outputRows_ok {row : Nat → Except Failure (List UInt16)}
    {position : Nat → Except Failure (Nat × Nat)} {lanes : Nat → List UInt16} {place : Nat → Nat × Nat}
    {rows : List Nat} (hposition : ∀ dy ∈ rows, position dy = .ok (place dy))
    (hrow : ∀ dy ∈ rows, row (place dy).1 = .ok (lanes (place dy).1) ∧
      row ((place dy).1 + 1) = .ok (lanes ((place dy).1 + 1)))
    {kept : PairCache (List UInt16)} (hkept : kept.Holds row) :
    outputRows row position kept rows = .ok (rows.flatMap fun dy =>
      blendRows (lanes (place dy).1) (lanes ((place dy).1 + 1)) (place dy).2) := by
  -- on the rows, for any cache that holds what its keys say
  induction rows generalizing kept with
  | nil => rfl
  | cons dy rows ih =>
    have hhere := hrow dy List.mem_cons_self
    obtain ⟨kept', hfetch, hkept', htop, hbot⟩ := PairCache.fetch_ok hkept hhere.1 hhere.2
    have hrest := ih (fun y hy => hposition y (List.mem_cons_of_mem _ hy))
      (fun y hy => hrow y (List.mem_cons_of_mem _ hy)) hkept'
    rw [outputRows, hposition dy List.mem_cons_self]
    show (do let kept ← kept.fetch row (place dy).1 let out ← outputRows row position kept rows
             pure (blendRows kept.top kept.bot (place dy).2 ++ out)) = _
    rw [hfetch]
    show (do let out ← outputRows row position kept' rows
             pure (blendRows kept'.top kept'.bot (place dy).2 ++ out)) = _
    rw [hrest, htop, hbot]
    rfl

/-! ### The frame -/

def columns (source target : Nat) : List (Nat × Nat) :=
  (List.range target).map fun dx => ((referenceIndices source target dx).1, referenceWeight source target dx)

theorem mem_columns {target : Nat} (hsource : 2 ≤ source) {column : Nat × Nat}
    (h : column ∈ columns source target) : column.1 + 2 ≤ source ∧ column.2 ≤ fpOne := by
  obtain ⟨dx, hdx, rfl⟩ := List.mem_map.mp h
  obtain ⟨k, -, hle, hindices⟩ := referenceIndices_eq hsource (List.mem_range.mp hdx)
  rw [hindices]
  exact ⟨hle, referenceWeight_le _ _ _⟩

/-- One row of the reference is the blend of the rows of its two indices. -/
theorem blendRows_eq_reference (hwidth : 2 ≤ frame.resolution.width)
    (hheight : 2 ≤ frame.resolution.height) {dy : Nat} (hdy : dy < target.height) :
    blendRows
        (rowLanes frame (columns frame.resolution.width target.width)
          (referenceIndices frame.resolution.height target.height dy).1)
        (rowLanes frame (columns frame.resolution.width target.width)
          ((referenceIndices frame.resolution.height target.height dy).1 + 1))
        (referenceWeight frame.resolution.height target.height dy) =
      (List.range target.width).flatMap fun dx => (List.range 4).map (referenceByte frame target dy dx) := by
  rw [blendRows_rowLanes (fun column h => (mem_columns hwidth h).2) (referenceWeight_le _ _ _), columns,
    List.flatMap_map]
  refine List.flatMap_congr fun dx hdx => List.map_congr_left fun c _ => ?_
  obtain ⟨x, -, -, hx⟩ := referenceIndices_eq hwidth (List.mem_range.mp hdx)
  obtain ⟨y, -, -, hy⟩ := referenceIndices_eq hheight hdy
  rw [referenceByte, hx, hy]
  rfl

theorem scalePixels_ok (h : Backed frame) (hwidth : 2 ≤ frame.resolution.width)
    (hheight : 2 ≤ frame.resolution.height) (htargetWidth : 1 ≤ target.width)
    (htargetHeight : 1 ≤ target.height) :
    scalePixels frame target = .ok (referenceDownscale frame target) := by
  have hcolumns : (List.range target.width).mapM
      (position (referenceRatio frame.resolution.width target.width) frame.resolution.width) =
        .ok (columns frame.resolution.width target.width) :=
    Fallible.mapM_eq_ok fun dx hdx => position_ok hwidth (List.mem_range.mp hdx)
  rw [scalePixels, ratio_ok (by omega) htargetWidth, ratio_ok (by omega) htargetHeight]
  show (do let xs ← (List.range target.width).mapM
             (position (referenceRatio frame.resolution.width target.width) frame.resolution.width)
           outputRows (sourceRow frame xs) _ _ (List.range target.height)) = _
  rw [hcolumns]
  have hrow : ∀ y < frame.resolution.height,
      sourceRow frame (columns frame.resolution.width target.width) y =
        .ok (rowLanes frame (columns frame.resolution.width target.width) y) := fun y hy =>
    sourceRow_ok h hy fun column hc => (mem_columns hwidth hc).1
  -- every row is blended from its own two source rows, which gives the row of the reference
  refine (outputRows_ok (fun dy hdy => position_ok hheight (List.mem_range.mp hdy)) (fun dy hdy => ?_)
    (PairCache.holds_of_no_keys _ _)).trans (congrArg _ (List.flatMap_congr fun dy hdy =>
      blendRows_eq_reference hwidth hheight (List.mem_range.mp hdy)))
  obtain ⟨k, -, hle, hindices⟩ := referenceIndices_eq hheight (List.mem_range.mp hdy)
  rw [hindices]
  exact ⟨hrow k (by omega), hrow (k + 1) (by omega)⟩

/-- With a single column or a single row, the index before the last one is an underflow. -/
theorem position_underflow (hsource : source < 2) (ratio i : Nat) :
    position ratio source i = .error .underflow := by
  rw [position, sub, if_neg (by omega)]
  rfl

theorem mapM_underflow (hsource : source < 2) (ratio : Nat) {target : Nat} (htarget : 1 ≤ target) :
    (List.range target).mapM (position ratio source) = .error .underflow := by
  obtain ⟨n, rfl⟩ : ∃ n, target = n + 1 := ⟨target - 1, by omega⟩
  rw [List.range_succ_eq_map, List.mapM_cons, position_underflow hsource]
  rfl

theorem outputRows_underflow (hsource : source < 2) (ratio : Nat) {target : Nat} (htarget : 1 ≤ target)
    (row : Nat → Except Failure (List UInt16)) (kept : PairCache (List UInt16)) :
    outputRows row (position ratio source) kept (List.range target) = .error .underflow := by
  obtain ⟨n, rfl⟩ : ∃ n, target = n + 1 := ⟨target - 1, by omega⟩
  rw [List.range_succ_eq_map, outputRows, position_underflow hsource]
  rfl

theorem scalePixels_underflow (hwidth : 1 ≤ frame.resolution.width) (hheight : 1 ≤ frame.resolution.height)
    (htargetWidth : 1 ≤ target.width) (htargetHeight : 1 ≤ target.height)
    (h : frame.resolution.width < 2 ∨ frame.resolution.height < 2) :
    scalePixels frame target = .error .underflow := by
  rw [scalePixels, ratio_ok hwidth htargetWidth, ratio_ok hheight htargetHeight]
  show (do let xs ← (List.range target.width).mapM
             (position (referenceRatio frame.resolution.width target.width) frame.resolution.width)
           outputRows (sourceRow frame xs) _ _ (List.range target.height)) = _
  -- the columns come first; a single row is noticed in the first output row
  rcases Nat.lt_or_ge frame.resolution.width 2 with hcolumn | hcolumns
  · rw [mapM_underflow hcolumn _ htargetWidth]
    rfl
  · rw [Fallible.mapM_eq_ok fun dx hdx => position_ok hcolumns (List.mem_range.mp hdx)]
    exact outputRows_underflow (by omega) _ htargetHeight _ _

/-- A frame that passes the checks, for a target that is to be scaled to. -/
structure Accepted (frame : PixelFrame) (target : Resolution) : Prop where
  packed : frame.format = .bgra8 ∨ frame.format = .rgba8
  width : 1 ≤ frame.resolution.width
  height : 1 ≤ frame.resolution.height
  targetWidth : 1 ≤ target.width ∧ target.width ≤ frame.resolution.width
  targetHeight : 1 ≤ target.height ∧ target.height ≤ frame.resolution.height
  scales : frame.resolution ≠ target
  backed : Backed frame

theorem downscaleFrame_of_accepted (h : Accepted frame target) :
    downscaleFrame frame target = (do
      let data ← scalePixels frame target
      pure { format := frame.format, resolution := target, stride := target.width * 4, data }) := by
  obtain ⟨hpacked, hwidth, hheight, htargetWidth, htargetHeight, hscales, hstride, hdata⟩ := h
  -- the data cannot be empty, since the size check asks for at least four bytes
  have hnonempty : frame.data.isEmpty = false := by
    rw [List.isEmpty_eq_false_iff_exists_mem, ← List.length_pos_iff_exists_mem]
    calc 0 < frame.stride * frame.resolution.height := Nat.mul_pos (by omega) hheight
      _ ≤ frame.data.length := hdata
  have hformat : ¬ (frame.format ≠ .bgra8 ∧ frame.format ≠ .rgba8) := by
    rintro ⟨hbgra, hrgba⟩
    exact hpacked.elim hbgra hrgba
  unfold downscaleFrame
  rw [if_neg hscales, if_neg hformat, hnonempty, if_neg (by decide), if_neg (by omega), if_neg (by omega)]

/-- The filter is the reference for every image of at least two columns and two rows, and for no other. -/
theorem downscale_matches_reference_iff (frame : PixelFrame) (target : Resolution)
    (h : Accepted frame target) :
    MatchesReference frame target ↔ 2 ≤ frame.resolution.width ∧ 2 ≤ frame.resolution.height := by
  have hcall := downscaleFrame_of_accepted h
  constructor
  · intro hmatches
    by_contra hsmall
    rw [scalePixels_underflow h.width h.height h.targetWidth.1 h.targetHeight.1 (by omega)] at hcall
    rw [hmatches.returns] at hcall
    cases hcall
  · rintro ⟨hwidth, hheight⟩
    rw [scalePixels_ok h.backed hwidth hheight h.targetWidth.1 h.targetHeight.1] at hcall
    exact ⟨hcall, fun dx _ pair hpair => exactLanes hpair (referenceWeight_le _ _ _)⟩

/-- A frame of two columns and three rows, with padding between the rows. -/
def smallFrame : PixelFrame where
  format := .bgra8
  resolution := ⟨2, 3⟩
  stride := 12
  data := (List.range 36).map UInt8.ofNat

theorem downscale_matches_reference_small :
    Accepted smallFrame ⟨1, 2⟩ ∧ MatchesReference smallFrame ⟨1, 2⟩ := by
  have haccepted : Accepted smallFrame ⟨1, 2⟩ :=
    ⟨.inl rfl, by decide, by decide, by decide, by decide, by decide, by decide, by decide⟩
  exact ⟨haccepted, (downscale_matches_reference_iff _ _ haccepted).mpr (by decide)⟩

theorem downscale_underflows :
    ¬ ∀ (frame : PixelFrame) (target : Resolution), Accepted frame target →
        MatchesReference frame target := by
  intro halways
  have hmatches := halways
    { format := .bgra8, resolution := ⟨1, 2⟩, stride := 4, data := List.replicate 8 0 } ⟨1, 1⟩
    ⟨.inl rfl, by decide, by decide, by decide, by decide, by decide, by decide, by decide⟩
  have hreturns := hmatches.returns
  revert hreturns
  decide

/-! ### The frame without its pixels

`Host.downscaleFrame` has the checks only. It gives the same answer, up to the pixels. -/

theorem length_referenceDownscale (frame : PixelFrame) (target : Resolution) :
    (referenceDownscale frame target).length = target.width * 4 * target.height := by
  simp [referenceDownscale, List.length_flatMap, Nat.mul_comm]

/-- The answers that agree; a panic has no counterpart. -/
inductive SameAnswer : Except Failure PixelFrame → Except String CapturedFrame → Prop where
  | returned (out : PixelFrame) : SameAnswer (.ok out) (.ok out.captured)
  | rejected (reason : String) : SameAnswer (.error (.rejected reason)) (.error reason)
  | panicked (answer : Except String CapturedFrame) : SameAnswer (.error .underflow) answer

theorem SameAnswer.ite {p q : Prop} [Decidable p] [Decidable q] {a b : Except Failure PixelFrame}
    {a' b' : Except String CapturedFrame} (hiff : p ↔ q) (hpos : p → SameAnswer a a')
    (hneg : ¬ p → SameAnswer b b') : SameAnswer (if p then a else b) (if q then a' else b') := by
  by_cases h : p
  · rw [if_pos h, if_pos (hiff.mp h)]
    exact hpos h
  · rw [if_neg h, if_neg (fun hq => h (hiff.mpr hq))]
    exact hneg h

theorem scalePixels_sameAnswer (h : Accepted frame target) :
    SameAnswer (do
        let data ← scalePixels frame target
        pure { format := frame.format, resolution := target, stride := target.width * 4, data })
      (.ok { format := frame.format, resolution := target, stride := target.width * 4
             dataLength := target.width * 4 * target.height }) := by
  by_cases hlarge : 2 ≤ frame.resolution.width ∧ 2 ≤ frame.resolution.height
  · rw [scalePixels_ok h.backed hlarge.1 hlarge.2 h.targetWidth.1 h.targetHeight.1,
      ← length_referenceDownscale frame target]
    exact .returned _
  · rw [scalePixels_underflow h.width h.height h.targetWidth.1 h.targetHeight.1 (by omega)]
    exact .panicked _

/-- The checks agree one by one. -/
theorem downscaleFrame_sameAnswer (frame : PixelFrame) (target : Resolution) :
    SameAnswer (downscaleFrame frame target) (Host.downscaleFrame frame.captured target) := by
  have hempty : frame.data.isEmpty = true ↔ frame.captured.dataLength = 0 := by
    rw [List.isEmpty_iff]
    exact List.length_eq_zero_iff.symm
  refine .ite .rfl (fun _ => .returned frame) fun hscales => ?_
  refine .ite .rfl (fun _ => .rejected _) fun hformat => ?_
  refine .ite hempty (fun _ => .rejected _) fun _ => ?_
  refine .ite .rfl (fun _ => .rejected _) fun htarget => ?_
  refine .ite .rfl (fun _ => .rejected _) fun hbacked => ?_
  have hpacked : frame.format = .bgra8 ∨ frame.format = .rgba8 := by
    by_contra hnot
    exact hformat ⟨fun h => hnot (.inl h), fun h => hnot (.inr h)⟩
  exact scalePixels_sameAnswer ⟨hpacked, by omega, by omega, by omega, by omega, hscales,
    by omega, by omega⟩

end Scale

end Rustcast.Host
