import Rustcast.Host.Commands

/-!
# Resolution requests and their status

`resolution.rs` of the agent: the status messages, the tracker that holds a success back until a packet
of the new size is emitted, and a mode change that waits for frames of the requested size.
-/

namespace Rustcast.Host

structure Resolution where
  width : Nat
  height : Nat
  deriving DecidableEq

/-- A rectangle of the virtual desktop. -/
structure DesktopRect where
  left : Int
  top : Int
  width : Nat
  height : Nat
  deriving DecidableEq

def Resolution.text (r : Resolution) : String := toString r.width ++ "x" ++ toString r.height

def ModeRequest.resolution (request : ModeRequest) : Resolution := ⟨request.width, request.height⟩

def modeChangeNeeded (current requested : ModeRequest) : Bool :=
  decide (current.width ≠ requested.width) || decide (current.height ≠ requested.height)

theorem modeChangeNeeded_eq_false {current requested : ModeRequest} :
    modeChangeNeeded current requested = false ↔ current = requested := by
  cases current
  cases requested
  simp [modeChangeNeeded]

/-! ## Status messages -/

inductive StatusState where
  | succeeded
  | failed
  | recovering
  deriving DecidableEq

/-- The request is over. -/
def StatusState.terminal : StatusState → Bool
  | succeeded | failed => true
  | recovering => false

structure ResolutionStatus where
  state : StatusState
  width : Nat
  height : Nat
  previousWidth : Option Nat := none
  previousHeight : Option Nat := none
  error : Option String := none
  encodeWidth : Option Nat := none
  encodeHeight : Option Nat := none
  deriving DecidableEq

def ResolutionStatus.size (status : ResolutionStatus) : Resolution := ⟨status.width, status.height⟩

/-- A terminal status that names a size. -/
def ResolutionStatus.answers (r : Resolution) (status : ResolutionStatus) : Bool :=
  status.state.terminal && decide (status.size = r)

/-! ## The tracker -/

structure ResolutionStatusTracker where
  pendingSuccess : Option (Resolution × ResolutionStatus) := none
  latestStarted : Option Resolution := none
  /-- the encoder failed at this size and has not emitted a packet since -/
  recovering : Option Resolution := none
  deriving DecidableEq

namespace ResolutionStatusTracker

variable (t : ResolutionStatusTracker)

def onTransitionStarted (r : Resolution) : ResolutionStatusTracker :=
  { t with latestStarted := some r, pendingSuccess := none }

def onTransitionApplied (status : ResolutionStatus) : ResolutionStatusTracker :=
  if t.latestStarted = some status.size then { t with pendingSuccess := some (status.size, status) }
  else t

def onTransitionFailed (r : Resolution) : ResolutionStatusTracker :=
  if t.latestStarted = some r then { t with pendingSuccess := none } else t

def onEncoderFailed (r : Resolution) (retrySeconds : Nat) : ResolutionStatusTracker × ResolutionStatus :=
  ({ t with recovering := some r },
    { state := .recovering, width := r.width, height := r.height
      error := some ("encoder failed to start at " ++ r.text ++ "; retrying in " ++
        toString retrySeconds ++ "s") })

/-- The success that is reported with the next packet. -/
def due : Option ResolutionStatus :=
  match t.pendingSuccess.filter (fun p => decide (t.latestStarted = some p.1)) with
  | some (_, status) => some status
  | none => t.recovering.map fun r => { state := .succeeded, width := r.width, height := r.height }

def onPacketEmitted (encode : Resolution) : ResolutionStatusTracker × Option ResolutionStatus :=
  match t.due with
  | some status =>
    ({ t with pendingSuccess := none, recovering := none },
      some { status with
        state := .succeeded, error := none
        encodeWidth := some encode.width, encodeHeight := some encode.height })
  | none => ({ t with pendingSuccess := none }, none)

variable {t} {status : ResolutionStatus} {r : Resolution}

/-- A change of the latest request is held back. -/
theorem onTransitionApplied_of_latest (h : t.latestStarted = some status.size) :
    t.onTransitionApplied status = { t with pendingSuccess := some (status.size, status) } := by
  rw [onTransitionApplied, if_pos h]

/-- One of an older request does not matter any more. -/
theorem onTransitionApplied_of_ne (h : t.latestStarted ≠ some status.size) :
    t.onTransitionApplied status = t := by
  rw [onTransitionApplied, if_neg h]

theorem onTransitionFailed_of_latest (h : t.latestStarted = some r) :
    t.onTransitionFailed r = { t with pendingSuccess := none } := by
  rw [onTransitionFailed, if_pos h]

theorem onTransitionFailed_of_ne (h : t.latestStarted ≠ some r) : t.onTransitionFailed r = t := by
  rw [onTransitionFailed, if_neg h]

end ResolutionStatusTracker

/-! ## A mode change under way -/

/-- In nanoseconds. -/
def modeRequestTimeout : Nat := 5 * 1000000000

structure PendingMode where
  requested : Resolution
  previous : Resolution
  deadline : Nat
  deriving DecidableEq

inductive PendingModeState where
  | waiting
  | applied
  | timedOut
  deriving DecidableEq

namespace PendingMode

def new (requested previous : Resolution) (now : Nat) : PendingMode where
  requested
  previous
  deadline := now + modeRequestTimeout

/-- A frame of the requested size wins over the deadline. -/
def state (p : PendingMode) (frame : Option Resolution) (now : Nat) : PendingModeState :=
  if frame = some p.requested then .applied
  else if p.deadline ≤ now then .timedOut
  else .waiting

end PendingMode

end Rustcast.Host
