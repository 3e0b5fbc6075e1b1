import Rustcast.Host.Resolution

/-!
# Encoder sessions

`encoder.rs`, which tries the encoder backends in turn and opens a session at a size that the backend
takes, the backoff between attempts, and the checks of `scale.rs` before a frame is scaled down.
-/

namespace Rustcast.Host

/-- In nanoseconds. -/
def encoderRetryInitial : Nat := 1000000000

def encoderRetryMax : Nat := 30 * 1000000000

structure EncoderRetry where
  retryAt : Option Nat := none
  nextDelay : Nat := encoderRetryInitial
  deriving DecidableEq

namespace EncoderRetry

variable (retry : EncoderRetry)

/-- The delay, and the state after it. -/
def onFailure (now : Nat) : Nat × EncoderRetry :=
  (retry.nextDelay,
    { retryAt := some (now + retry.nextDelay), nextDelay := min (retry.nextDelay * 2) encoderRetryMax })

def onSuccess : EncoderRetry := {}

def due (now : Nat) : Bool := (retry.retryAt.map fun at' => decide (at' ≤ now)).getD true

end EncoderRetry

/-! ## Sizes -/

/-- The largest even size with the same aspect ratio inside of `max`. -/
def fitWithin (src max : Resolution) : Resolution :=
  if src.width = 0 ∨ src.height = 0 then src
  else if src.width ≤ max.width ∧ src.height ≤ max.height then src
  else
    let (num, den) :=
      if max.width * src.height ≤ max.height * src.width then (max.width, src.width)
      else (max.height, src.height)
    let width := src.width * num / den
    let height := src.height * num / den
    ⟨Nat.max (width - width % 2) 2, Nat.max (height - height % 2) 2⟩

/-- What there is of an encoder backend. -/
structure EncoderCandidate where
  /-- `create_encoder` -/
  created : Bool
  /-- `capabilities`, unless that fails -/
  maxResolution : Option Resolution
  /-- `create_session_with_device` -/
  opens : Resolution → Bool

/-- The size of the session. -/
def createEncodeSession (c : EncoderCandidate) (resolution : Resolution) : Option Resolution :=
  if c.created then
    let fitted := match c.maxResolution with
      | some max => fitWithin resolution max
      | none => resolution
    if c.opens fitted then some fitted else none
  else none

/-- The first backend that works. -/
def buildEncodeSessionFor (candidates : List EncoderCandidate) (resolution : Resolution) :
    Option Resolution :=
  candidates.findSome? (createEncodeSession · resolution)

/-! ## Frames -/

inductive PixelFormat where
  | bgra8
  | rgba8
  | nv12
  | p010
  | i420
  deriving DecidableEq

def PixelFormat.text : PixelFormat → String
  | bgra8 => "Bgra8"
  | rgba8 => "Rgba8"
  | nv12 => "Nv12"
  | p010 => "P010"
  | i420 => "I420"

/-- A captured frame, with the number of its bytes. -/
structure CapturedFrame where
  format : PixelFormat
  resolution : Resolution
  stride : Nat
  dataLength : Nat
  deriving DecidableEq

/-- A frame of packed pixels without padding. -/
def CapturedFrame.packed (size : Resolution) : CapturedFrame :=
  ⟨.bgra8, size, size.width * 4, size.width * 4 * size.height⟩

/-- `downscale_frame` up to the pixels themselves. -/
def downscaleFrame (frame : CapturedFrame) (target : Resolution) : Except String CapturedFrame :=
  if frame.resolution = target then .ok frame
  else if frame.format ≠ .bgra8 ∧ frame.format ≠ .rgba8 then
    .error ("downscale: unsupported pixel format " ++ frame.format.text ++ " (expected BGRA/RGBA)")
  else if frame.dataLength = 0 then
    .error "downscale: frame has no CPU pixel data (GPU-only frames unsupported)"
  else if target.width = 0 ∨ target.height = 0 ∨ frame.resolution.width < target.width ∨
      frame.resolution.height < target.height then
    .error ("downscale: invalid target " ++ target.text ++ " for source " ++ frame.resolution.text)
  else if frame.dataLength < frame.stride * frame.resolution.height ∨
      frame.stride < frame.resolution.width * 4 then
    .error ("downscale: source buffer too small (" ++ toString frame.dataLength ++ " bytes for " ++
      frame.resolution.text ++ " stride " ++ toString frame.stride ++ ")")
  else
    .ok { format := frame.format, resolution := target, stride := target.width * 4
          dataLength := target.width * 4 * target.height }

end Rustcast.Host
