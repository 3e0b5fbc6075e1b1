import Rustcast.Core.Lts
import Rustcast.Relay.Upstream

/-!
# The host login at the relay

`login.go` runs the login of one machine for one viewer at a time. The upstream reader handles
the login frames of the host, the goroutine of a viewer passes the gate, binds its session and
replays the last prompt, and the release of a session frees the login. All of them meet in the
critical sections of `loginMu` and of the upstream's `mu`, and every function here is one such
section together with the sends that follow it: nothing that the code reads later depends on
what has been sent.

`PromptRecord` is `lastPrompt` with its history: how many prompts have come, to whom the last
one was offered, and which prompts were answered without the viewer.
-/

namespace Rustcast.Relay

/-! ## Data -/

inductive LoginState where
  | idle
  | authenticating
  | active
  deriving DecidableEq

/-- The fields of the relay identity that the login uses. -/
structure RelayUser where
  sub : String
  name : String
  username : String
  deriving DecidableEq

/-- A session is its number in the order of arrival, so its id is that number. -/
structure LoginInfo where
  state : LoginState := .idle
  sessionID : Option Nat := none
  authSess : Option Nat := none
  osUser : String := ""
  osUID : Int := 0
  relaySub : String := ""
  relayName : String := ""
  deriving DecidableEq

inductive LoginFrameState where
  | prompt
  | ok
  | failed
  | busy
  | unknown
  deriving DecidableEq

/-- `loginFrameJSON`, the payload of a login frame. -/
structure LoginFrame where
  state : LoginFrameState
  style : String := ""
  message : String := ""
  user : String := ""
  uid : Int := 0
  reattached : Bool := false
  deriving DecidableEq

def usernamePrompt : String := "Username"

inductive LoginCommand where
  | loginResponse (response : String)
  | lock
  /-- any other command for the host -/
  | other
  deriving DecidableEq

/-- What the login tells the viewers and the audit log. -/
inductive LoginOutput where
  | forwardLogin (viewer : Nat) (frame : LoginFrame)
  | insertHostLogin (viewer : Option Nat) (osUser : String) (result : LoginFrameState)
  | setOSInfo (viewer : Nat) (osUser : String) (osUID : Int)
  | deferredStart (viewer : Nat)
  | endByID (viewer : Nat) (reason : String)
  | rejected (viewer : Nat) (reason : String)
  deriving DecidableEq

/-! ## Prompts and answers -/

structure StoredPrompt where
  /-- the number of prompts before this one -/
  id : Nat
  frame : LoginFrame
  /-- the viewers it was offered to, by the reader or by a replay -/
  offeredTo : List (Option RelayUser) := []
  deriving DecidableEq

structure PromptRecord where
  received : Nat := 0
  lastPrompt : Option StoredPrompt := none
  /-- the prompts that were answered from the identity of a viewer -/
  answered : List Nat := []
  deriving DecidableEq

/-- The answer that the relay gives in the place of a viewer. `loginPrefill` is the setting
`FLUX_LOGIN_PREFILL`, fixed when the relay starts. -/
def prefillAnswer (loginPrefill : Bool) (frame : LoginFrame) (user : Option RelayUser) : Option String :=
  if frame.message = usernamePrompt ∧ loginPrefill = true then
    match user with
    | some u => if u.username = "" then none else some u.username
    | none => none
  else none

namespace PromptRecord

def receive (r : PromptRecord) (frame : LoginFrame) : PromptRecord :=
  { r with received := r.received + 1, lastPrompt := some { id := r.received, frame } }

def offer (r : PromptRecord) (p : StoredPrompt) (user : Option RelayUser) : PromptRecord :=
  { r with lastPrompt := some { p with offeredTo := p.offeredTo ++ [user] } }

def answer (r : PromptRecord) (p : StoredPrompt) : PromptRecord :=
  { r with answered := r.answered ++ [p.id] }

end PromptRecord

/-! ## The relay side of one machine -/

/-- Where the setup of a session stands. -/
inductive SetupPc where
  | arriving
  | rejected
  /-- past `gateViewer`, with the role `auth` or `viewer` -/
  | gated (auth : Bool)
  /-- `bindSession` has replaced a session: its `releaseNow` runs -/
  | replacing (auth : Bool) (old : Nat)
  | bound (auth : Bool)
  | running
  deriving DecidableEq

/-- Where `releaseNow` of a session stands. -/
inductive ReleasePc where
  | live
  /-- `clearSession` is done -/
  | cleared
  | released
  deriving DecidableEq

structure LoginViewer where
  user : Option RelayUser
  setup : SetupPc := .arriving
  release : ReleasePc := .live
  deriving DecidableEq

structure LoginRelay where
  supportsLogin : Bool := true
  loginSpoken : Bool := false
  login : LoginInfo := {}
  record : PromptRecord := {}
  /-- the bound session -/
  session : Option Nat := none
  viewers : List LoginViewer := []
  /-- the frame that the reader has in hand -/
  reading : Option LoginFrame := none
  commandChan : List LoginCommand := []
  outputs : List LoginOutput := []
  deriving DecidableEq

namespace LoginRelay

variable (s : LoginRelay)

def output (o : LoginOutput) : LoginRelay := { s with outputs := s.outputs ++ [o] }

/-- `send` drops the command when the channel is full. -/
def hasRoom : Bool := decide (s.commandChan.length < commandCapacity)

def send (c : LoginCommand) : LoginRelay :=
  if s.hasRoom then { s with commandChan := s.commandChan ++ [c] } else s

def user (s : LoginRelay) (v : Nat) : Option RelayUser := s.viewers[v]?.bind (·.user)

/-- The empty string without an identity. -/
def sub (s : LoginRelay) (v : Nat) : String := (s.user v).elim "" (·.sub)

def name (s : LoginRelay) (v : Nat) : String := (s.user v).elim "" (·.name)

def setSetup (v : Nat) (w : LoginViewer) (setup : SetupPc) : LoginRelay :=
  { s with viewers := s.viewers.set v { w with setup } }

def setRelease (v : Nat) (w : LoginViewer) (release : ReleasePc) : LoginRelay :=
  { s with viewers := s.viewers.set v { w with release } }

/-- The login of a viewer that is to authenticate. -/
def authenticate (s : LoginRelay) (v : Nat) : LoginInfo where
  state := .authenticating
  sessionID := some v
  authSess := some v
  relaySub := s.sub v
  relayName := s.name v

/-- `gateViewer`: the role `auth` or `viewer`, or the reason of the rejection. -/
def gateViewer (v : Nat) : LoginRelay × Except String Bool :=
  if !s.supportsLogin && !s.loginSpoken then (s, .ok false)
  else
    match s.login.state with
    | .authenticating => (s, .error "login in progress")
    | .active =>
      if s.login.relaySub = "" ∨ s.sub v ≠ s.login.relaySub then
        (s, .error ("in use by " ++ s.login.osUser))
      else (s, .ok false)
    | .idle => ({ s with login := s.authenticate v }, .ok true)

variable (loginPrefill : Bool)

/-- What follows the lock in `handleLoginFrame` and in `replayPrompt`: the answer of the relay,
or the prompt for the viewer. -/
def offerPrompt (s : LoginRelay) (p : StoredPrompt) (v : Nat) : LoginRelay :=
  let offered := { s with record := s.record.offer p (s.user v) }
  match prefillAnswer loginPrefill p.frame (s.user v) with
  | some username =>
    if s.hasRoom then
      { offered.send (.loginResponse username) with record := offered.record.answer p }
    else offered
  | none => offered.output (.forwardLogin v p.frame)

/-- A viewer that attached before the first prompt, or after a lock, is promoted. -/
def promote : LoginRelay :=
  if s.login.authSess = none ∧ s.login.state = .idle then
    match s.session with
    | some cur => { s with login := s.authenticate cur }
    | none => s
  else s

def handlePrompt (s : LoginRelay) (frame : LoginFrame) : LoginRelay :=
  let p : StoredPrompt := { id := s.record.received, frame }
  let s := { s with record := s.record.receive frame }.promote
  match s.login.authSess with
  | none => s
  | some v => s.offerPrompt loginPrefill p v

def handleOk (frame : LoginFrame) : LoginRelay :=
  let authSess := s.login.authSess
  let s := { s with login := {
    state := .active
    sessionID := s.login.sessionID
    osUser := frame.user
    osUID := frame.uid
    relaySub := s.login.relaySub
    relayName := s.login.relayName } }
  match authSess with
  | none => s.output (.insertHostLogin none frame.user .ok)
  | some v =>
    (((s.output (.setOSInfo v frame.user frame.uid)).output
      (.insertHostLogin (some v) frame.user .ok)).output (.forwardLogin v frame)).output
      (.deferredStart v)

def handleFailed (frame : LoginFrame) : LoginRelay :=
  let logged := s.output (.insertHostLogin s.login.authSess frame.user .failed)
  match s.login.authSess with
  | none => logged
  | some v => logged.output (.forwardLogin v frame)

def handleBusy (s : LoginRelay) (frame : LoginFrame) : LoginRelay :=
  let logged := { s with login := {} }.output
    (.insertHostLogin s.login.authSess frame.user .busy)
  match s.login.authSess with
  | none => logged
  | some v => (logged.output (.forwardLogin v frame)).output
      (.endByID v ("host in use by " ++ frame.user))

/-- The part of `handleLoginFrame` after `loginSpoken` is set. -/
def handleLoginFrame (s : LoginRelay) (frame : LoginFrame) : LoginRelay :=
  match frame.state with
  | .prompt => s.handlePrompt loginPrefill frame
  | .ok => s.handleOk frame
  | .failed => s.handleFailed frame
  | .busy => s.handleBusy frame
  | .unknown => s

def replayPrompt (s : LoginRelay) (v : Nat) : LoginRelay :=
  match s.record.lastPrompt with
  | none => s
  | some p => s.offerPrompt loginPrefill p v

def sendLoginResponseIfAuth (v : Nat) (response : String) : LoginRelay :=
  if s.login.state = .authenticating ∧ s.login.sessionID = some v then
    s.send (.loginResponse response)
  else s

def viewerLock (v : Nat) : LoginRelay :=
  if s.login.state ≠ .active then s
  else if s.sub v = "" ∨ s.sub v ≠ s.login.relaySub then s
  else { s with login := { s.authenticate v with relayName := s.login.relayName } }.send .lock

/-- `others` is what `sessionsFor` answers: the machine has another registered session. -/
def onSessionLeft (v : Nat) (others : Bool) : LoginRelay :=
  match s.login.state with
  | .authenticating => if s.login.sessionID = some v then { s with login := {} } else s
  | .active => if others then s else { s with login := {} }.send .lock
  | .idle => s

def onUpstreamDisconnected : LoginRelay :=
  { s with
    login := {}
    record := { s.record with lastPrompt := none }
    loginSpoken := false }

end LoginRelay

/-! ## Interleavings -/

inductive LoginEvent where
  /-- a session is set up, up to `acquire` -/
  | arrive (user : Option RelayUser)
  | gate (v : Nat)
  | bind (v : Nat)
  /-- `releaseNow` of the replaced session has returned -/
  | replaced (v : Nat)
  /-- the end of the setup: `replayPrompt`, or the start of the video -/
  | start (v : Nat)
  | clear (v : Nat)
  | left (v : Nat) (others : Bool)
  | viewerLock (v : Nat)
  | response (v : Nat) (response : String)
  /-- the reader has parsed a login frame -/
  | read (frame : LoginFrame)
  /-- the reader handles the frame it has in hand -/
  | handle
  | disconnected
  /-- another command is queued for the host -/
  | command
  /-- the writer takes a command from the channel -/
  | write
  deriving DecidableEq

namespace LoginRelay

def gate (s : LoginRelay) (v : Nat) (w : LoginViewer) : LoginRelay :=
  match s.gateViewer v with
  | (s, .ok auth) => s.setSetup v w (.gated auth)
  | (s, .error reason) => (s.setSetup v w .rejected).output (.rejected v reason)

/-- `bindSession`; a session that was bound before is released first. -/
def bindSession (s : LoginRelay) (v : Nat) (w : LoginViewer) (auth : Bool) : LoginRelay :=
  { s with session := some v }.setSetup v w
    (match s.session with
    | some old => .replacing auth old
    | none => .bound auth)

def clearSession (s : LoginRelay) (v : Nat) : LoginRelay :=
  if s.session = some v then { s with session := none } else s

/-- `releaseNow` of the viewer `w` can run: the watcher of its transport is started after the
gate, and `releaseOnce` lets it run once. -/
def mayRelease (w : LoginViewer) : Bool :=
  w.release == .live && w.setup != .arriving && w.setup != .rejected

/-- A step of the goroutines of viewer `v`. -/
def viewerStep (loginPrefill : Bool) (s : LoginRelay) (v : Nat) (w : LoginViewer) :
    LoginEvent → Option LoginRelay
  | .gate _ => if w.setup = .arriving then some (s.gate v w) else none
  | .bind _ =>
    match w.setup with
    | .gated auth => some (s.bindSession v w auth)
    | _ => none
  | .replaced _ =>
    match w.setup with
    | .replacing auth old =>
      if s.viewers[old]?.any (·.release == .released) then some (s.setSetup v w (.bound auth))
      else none
    | _ => none
  | .start _ =>
    match w.setup with
    | .bound true => some ((s.replayPrompt loginPrefill v).setSetup v w .running)
    | .bound false => some (s.setSetup v w .running)
    | _ => none
  | .clear _ => if mayRelease w then some ((s.clearSession v).setRelease v w .cleared) else none
  | .left _ others =>
    if w.release = .cleared then some ((s.onSessionLeft v others).setRelease v w .released)
    else none
  | .viewerLock _ => if w.setup = .running then some (s.viewerLock v) else none
  | .response _ response =>
    if w.setup = .running then some (s.sendLoginResponseIfAuth v response) else none
  | _ => none

def step (loginPrefill : Bool) (s : LoginRelay) (e : LoginEvent) : Option LoginRelay :=
  match e with
  | .arrive user => some { s with viewers := s.viewers ++ [{ user }] }
  | .gate v | .bind v | .replaced v | .start v | .clear v | .left v _ | .viewerLock v
  | .response v _ =>
    match s.viewers[v]? with
    | some w => s.viewerStep loginPrefill v w e
    | none => none
  | .read frame =>
    match s.reading with
    | none => some { s with loginSpoken := true, reading := some frame }
    | some _ => none
  | .handle =>
    match s.reading with
    | some frame => some { s.handleLoginFrame loginPrefill frame with reading := none }
    | none => none
  | .disconnected => if s.reading = none then some s.onUpstreamDisconnected else none
  | .command => some (s.send .other)
  | .write =>
    match s.commandChan with
    | _ :: rest => some { s with commandChan := rest }
    | [] => none

/-! ## What a step does to the prompts -/

variable {loginPrefill : Bool} {s s' : LoginRelay} {e : LoginEvent} {v : Nat} {w : LoginViewer}

@[simp] theorem record_send (c : LoginCommand) : (s.send c).record = s.record := by
  unfold send
  split <;> rfl

@[simp] theorem record_promote : s.promote.record = s.record := by
  unfold promote
  split
  · split <;> rfl
  · rfl

theorem record_gateViewer (s : LoginRelay) (v : Nat) : (s.gateViewer v).1.record = s.record := by
  unfold gateViewer
  split
  · rfl
  · split
    · rfl
    · split <;> rfl
    · rfl

theorem record_gate : (s.gate v w).record = s.record := by
  have hrecord := record_gateViewer s v
  unfold gate
  split
  all_goals
    rename_i heq
    rw [heq] at hrecord
    exact hrecord

theorem record_onSessionLeft (others : Bool) : (s.onSessionLeft v others).record = s.record := by
  unfold onSessionLeft
  split
  · split <;> rfl
  · split
    · rfl
    · exact record_send _
  · rfl

theorem record_viewerLock : (s.viewerLock v).record = s.record := by
  unfold viewerLock
  split
  · rfl
  · split
    · rfl
    · exact record_send _

theorem record_sendLoginResponseIfAuth (response : String) :
    (s.sendLoginResponseIfAuth v response).record = s.record := by
  unfold sendLoginResponseIfAuth
  split
  · exact record_send _
  · rfl

theorem record_clearSession : (s.clearSession v).record = s.record := by
  unfold clearSession
  split <;> rfl

/-- A prompt has been offered to a viewer: it was answered in the viewer's place, or not. -/
inductive Offered (loginPrefill : Bool) (r : PromptRecord) (p : StoredPrompt)
    (user : Option RelayUser) : PromptRecord → Prop where
  | passedOn : Offered loginPrefill r p user (r.offer p user)
  | answered (h : (prefillAnswer loginPrefill p.frame user).isSome = true) :
      Offered loginPrefill r p user ((r.offer p user).answer p)

/-- A prompt is offered, and answered if the relay can. -/
theorem offered_offerPrompt (loginPrefill : Bool) (s : LoginRelay) (p : StoredPrompt) (v : Nat) :
    Offered loginPrefill s.record p (s.user v) (s.offerPrompt loginPrefill p v).record := by
  unfold offerPrompt
  split
  next username hanswer =>
    split
    · exact .answered (by rw [hanswer]; rfl)
    · exact .passedOn
  · exact .passedOn

/-- The viewer's next step is `replayPrompt`. -/
def replays (s : LoginRelay) (v : Nat) : Bool := s.viewers[v]?.any (·.setup == .bound true)

/-- The steps by what they do to the prompts. -/
inductive PromptMove (loginPrefill : Bool) (s : LoginRelay) : LoginEvent → PromptRecord → Prop where
  | quiet (e : LoginEvent) : PromptMove loginPrefill s e s.record
  | forget : PromptMove loginPrefill s .disconnected { s.record with lastPrompt := none }
  /-- a prompt arrives and nobody authenticates -/
  | receive (frame : LoginFrame) : PromptMove loginPrefill s .handle (s.record.receive frame)
  /-- a prompt arrives and is offered to the authenticating viewer -/
  | offer {frame : LoginFrame} {user : Option RelayUser} {r : PromptRecord}
      (h : Offered loginPrefill (s.record.receive frame) { id := s.record.received, frame } user r) :
      PromptMove loginPrefill s .handle r
  | replay {v : Nat} {p : StoredPrompt} {r : PromptRecord} (hreplays : s.replays v = true)
      (hlast : s.record.lastPrompt = some p)
      (h : Offered loginPrefill s.record p (s.user v) r) : PromptMove loginPrefill s (.start v) r

/-- A login frame of the host brings a prompt, or leaves the record. -/
theorem promptMove_handleLoginFrame (loginPrefill : Bool) (s : LoginRelay) (frame : LoginFrame) :
    PromptMove loginPrefill s .handle (s.handleLoginFrame loginPrefill frame).record := by
  unfold handleLoginFrame
  split
  · simp only [handlePrompt]
    split
    · rw [record_promote]
      exact .receive frame
    next v _ =>
      have h := offered_offerPrompt loginPrefill
        { s with record := s.record.receive frame }.promote { id := s.record.received, frame } v
      rw [record_promote] at h
      exact .offer h
  · simp only [handleOk]
    split <;> exact .quiet _
  · simp only [handleFailed]
    split <;> exact .quiet _
  · simp only [handleBusy]
    split <;> exact .quiet _
  · exact .quiet _

theorem PromptMove.of_eq (h : s'.record = s.record) : PromptMove loginPrefill s e s'.record :=
  h ▸ .quiet e

theorem promptMove_start (hw : s.viewers[v]? = some w)
    (hstep : s.viewerStep loginPrefill v w (.start v) = some s') :
    PromptMove loginPrefill s (.start v) s'.record := by
  simp only [viewerStep] at hstep
  split at hstep
  next hsetup =>
    cases hstep
    rw [replayPrompt]
    split
    · exact .quiet _
    next p hlast =>
      have hreplays : s.replays v = true := by simp [replays, hw, hsetup]
      exact .replay hreplays hlast (offered_offerPrompt loginPrefill s p v)
  · cases hstep
    exact .quiet _
  · cases hstep

theorem record_viewerStep (hstep : s.viewerStep loginPrefill v w e = some s')
    (he : ∀ v, e ≠ .start v) : s'.record = s.record := by
  cases e with
  | start v => exact absurd rfl (he v)
  | gate _ =>
    simp only [viewerStep] at hstep
    split at hstep <;> cases hstep
    exact record_gate
  | bind _ =>
    simp only [viewerStep] at hstep
    split at hstep <;> cases hstep
    rfl
  | replaced _ =>
    simp only [viewerStep] at hstep
    split at hstep
    · split at hstep <;> cases hstep
      rfl
    · cases hstep
  | clear _ =>
    simp only [viewerStep] at hstep
    split at hstep <;> cases hstep
    exact record_clearSession
  | left _ others =>
    simp only [viewerStep] at hstep
    split at hstep <;> cases hstep
    exact record_onSessionLeft others
  | viewerLock _ =>
    simp only [viewerStep] at hstep
    split at hstep <;> cases hstep
    exact record_viewerLock
  | response _ response =>
    simp only [viewerStep] at hstep
    split at hstep <;> cases hstep
    exact record_sendLoginResponseIfAuth response
  | _ => cases hstep

/-- What every step does to the prompts. -/
theorem promptMove_step (hstep : s.step loginPrefill e = some s') :
    PromptMove loginPrefill s e s'.record := by
  cases e with
  | arrive user =>
    cases hstep
    exact .quiet _
  | start v =>
    simp only [step] at hstep
    split at hstep
    next w hw =>
      exact promptMove_start hw hstep
    · cases hstep
  | gate v | bind v | replaced v | clear v | left v _ | viewerLock v | response v _ =>
    simp only [step] at hstep
    split at hstep
    · exact .of_eq (record_viewerStep hstep nofun)
    · cases hstep
  | read frame =>
    simp only [step] at hstep
    split at hstep <;> cases hstep
    exact .quiet _
  | handle =>
    simp only [step] at hstep
    split at hstep <;> cases hstep
    exact promptMove_handleLoginFrame loginPrefill s _
  | disconnected =>
    simp only [step] at hstep
    split at hstep <;> cases hstep
    exact .forget
  | command =>
    cases hstep
    exact .of_eq (record_send _)
  | write =>
    simp only [step] at hstep
    split at hstep <;> cases hstep
    exact .quiet _

end LoginRelay

end Rustcast.Relay
