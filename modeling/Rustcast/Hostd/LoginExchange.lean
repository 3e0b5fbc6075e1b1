import Rustcast.Core.Json
import Rustcast.Core.Trace
import Rustcast.Hostd.RateLimit
import Rustcast.Relay.Login

/-!
# The login loop of hostd and the relay that answers it

One connection of hostd and the relay at its other end, with the login frames under way to the
relay and the commands under way to hostd. Hostd asks for a username, refuses what
`sanitize_username` refuses with a failed frame, and asks again; the relay answers the question
from the identity of the viewer, and any other prompt with the same text too. The viewer sends nothing,
and all sessions are of viewers with the same username. What the other connections do to the session
manager is left open, and so is what PAM asks and answers.
-/

namespace Rustcast.Hostd

open Relay Trace Lts

/-! ## The check of the username -/

/-- `char::is_whitespace` -/
def isWhitespace (c : Char) : Bool :=
  let n := c.toNat
  (0x09 ≤ n && n ≤ 0x0D) || n == 0x20 || n == 0x85 || n == 0xA0 || n == 0x1680 ||
    (0x2000 ≤ n && n ≤ 0x200A) || n == 0x2028 || n == 0x2029 || n == 0x202F || n == 0x205F ||
    n == 0x3000

def trim (name : List Char) : List Char :=
  ((name.dropWhile isWhitespace).reverse.dropWhile isWhitespace).reverse

def usernameChar (c : Char) : Bool :=
  c.isAlphanum || c == '_' || c == '.' || c == '-' || c == '@' || c == '+'

def sanitizeUsername (name : String) : Option String :=
  let name := trim name.toList
  if name.isEmpty || 64 < (name.map Char.utf8Size).sum || !name.all usernameChar then none
  else some (String.ofList name)

/-- The payload that `sendLoginResponse` makes of a response. -/
def loginResponsePayload (response : String) : List UInt8 :=
  writeObject [(textBytes "response", quote (textBytes response))]

def maxLoginPayload : Nat := 16 * 1024

/-! ## One connection of hostd -/

structure HostLogin where
  manager : SessionManager := {}
  pc : LoginPc := .prompting
  /-- the prompt for the username is written -/
  asked : Bool := false
  pam : PamPhase := .idle
  /-- `drive_pam` waits for the response to a prompt of PAM -/
  awaiting : Bool := false
  deriving DecidableEq

inductive PromptStyle where
  | echoOn
  | echoOff
  | info
  | error
  deriving DecidableEq

namespace PromptStyle

def needsReply : PromptStyle → Bool
  | .echoOn | .echoOff => true
  | .info | .error => false

def toString : PromptStyle → String
  | .echoOn => "echo_on"
  | .echoOff => "echo_off"
  | .info => "info"
  | .error => "error"

end PromptStyle

def loginPrompt (style : PromptStyle) (message : String) : Relay.LoginFrame :=
  { state := .prompt, style := style.toString, message }

def loginFailed (message user : String) : Relay.LoginFrame := { state := .failed, message, user }

namespace LoginPc

/-- The user that a PAM conversation is about. -/
def attempted : LoginPc → String
  | .fresh username | .reattaching username => username
  | _ => ""

def proxying : LoginPc → Bool
  | .opened _ | .attached _ => true
  | _ => false

/-- The frame that hostd writes when it gets to `pc`. -/
def announce : LoginPc → List Relay.LoginFrame
  | .busy user => [{ state := .busy, user }]
  | .opened user => [{ state := .ok, user }]
  | .attached user => [{ state := .ok, user, reattached := true }]
  | _ => []

end LoginPc

/-! ## Both ends -/

/-- What the connection did, as far as the progress is concerned. -/
inductive HostMark where
  /-- a prompt for the username was written, by hostd or for PAM, as the prompt frame of this number -/
  | askedUsername (id : Nat)
  | startedPam
  deriving DecidableEq

structure LoginExchange where
  host : HostLogin := {}
  relay : LoginRelay := {}
  /-- the login frames under way to the relay -/
  wire : List Relay.LoginFrame := []
  /-- the number of prompt frames written -/
  prompts : Nat := 0
  trace : List HostMark := []
  deriving DecidableEq

inductive ExchangeEvent where
  /-- other connections of hostd move the session manager -/
  | environment (manager : SessionManager)
  | askUsername
  /-- the next command of the relay, for `read_response` -/
  | readResponse
  | startPam
  | pamPrompt (style : PromptStyle) (message : String)
  /-- `drive_pam` gives nothing, after a failed frame or without one -/
  | pamFail (message : Option String) (tripped : Bool)
  | pamPass
  /-- another step of the connection -/
  | host (action : LoginAction)
  /-- the session of the user does not start -/
  | startFailed (user error : String)
  /-- the next command of the relay, for the proxy -/
  | proxyCommand
  /-- a session of a viewer arrives at the relay -/
  | arrive (sub name : String)
  | relay (e : LoginEvent)
  /-- the relay reads the next login frame -/
  | deliver
  deriving DecidableEq

namespace LoginExchange

def write (x : LoginExchange) (frame : Relay.LoginFrame) : LoginExchange :=
  { x with
    wire := x.wire ++ [frame]
    prompts := if frame.state = .prompt then x.prompts + 1 else x.prompts }

/-- Hostd moves on from a prompt of its own or from a PAM conversation. -/
def hostStep (x : LoginExchange) (action : LoginAction) : Option LoginExchange :=
  match x.host.pc.step x.host.manager 0 action with
  | none => none
  | some (manager, pc) => some { x with
      host := { manager, pc }
      wire := x.wire ++ pc.announce }

/-- The response to the prompt for the username. -/
def answerUsername (x : LoginExchange) (response : String) : Option LoginExchange :=
  match sanitizeUsername response with
  | none => some { x.write (loginFailed "invalid username" "") with
      host := { x.host with asked := false } }
  | some username => x.hostStep (.username username)

/-- Hostd waits in `read_response`. -/
def readsResponse (h : HostLogin) : Bool :=
  (h.pc == .prompting && h.asked) || (h.pam == .running && h.awaiting)

/-- `read_client_command` fails at a response that is too long, and a lock command ends the stream
before a login. -/
def closes : LoginCommand → Bool
  | .loginResponse response => maxLoginPayload < (loginResponsePayload response).length
  | .lock => true
  | .other => false

/-- `read_response` drops the other commands that are not responses. -/
def takeResponse (x : LoginExchange) (command : LoginCommand) : Option LoginExchange :=
  if closes command then x.hostStep (if x.host.awaiting then .fail false else .hangup)
  else
    match command with
    | .loginResponse response =>
      if x.host.awaiting then some { x with host := { x.host with awaiting := false } }
      else x.answerUsername response
    | .lock | .other => some x

/-- The proxy ends at a lock command and passes the others on. -/
def takeCommand (x : LoginExchange) : LoginCommand → Option LoginExchange
  | .lock => x.hostStep (.proxyEnded true)
  | .loginResponse _ | .other => some x

/-- The actions that hostd takes without a command or the end of a PAM conversation. -/
def spontaneous : LoginAction → Bool
  | .hangup | .enter | .started _ | .fail _ | .proxyEnded false => true
  | .username _ | .proxyEnded true => false

/-- The events of the relay that neither the viewer nor the connection causes. -/
def setupEvent : LoginEvent → Bool
  | .gate _ | .bind _ | .replaced _ | .start _ | .clear _ | .left _ _ | .handle | .command => true
  | .arrive _ | .viewerLock _ | .response _ _ | .read _ | .disconnected | .write => false

def relayStep (x : LoginExchange) (e : LoginEvent) : Option LoginExchange :=
  match x.relay.step true e with
  | none => none
  | some relay => some { x with relay }

def step (username : String) (x : LoginExchange) : ExchangeEvent → Option LoginExchange
  | .environment manager => some { x with host := { x.host with manager } }
  | .askUsername =>
    if x.host.pc = .prompting ∧ x.host.asked = false then
      some { x.write (loginPrompt .echoOn usernamePrompt) with
        host := { x.host with asked := true }
        trace := x.trace ++ [.askedUsername x.prompts] }
    else none
  | .readResponse =>
    match x.relay.commandChan with
    | [] => none
    | command :: rest =>
      if readsResponse x.host then
        { x with relay := { x.relay with commandChan := rest } }.takeResponse command
      else none
  | .startPam =>
    if x.host.pc.authenticating && x.host.pam == .idle then
      some { x with
        host := { x.host with pam := .running }
        trace := x.trace ++ [.startedPam] }
    else none
  | .pamPrompt style message =>
    if x.host.pam = .running ∧ x.host.awaiting = false then
      some { x.write (loginPrompt style message) with
        host := { x.host with awaiting := style.needsReply }
        trace := if message = usernamePrompt then x.trace ++ [.askedUsername x.prompts] else x.trace }
    else none
  | .pamFail message tripped =>
    if x.host.pam = .running ∧ x.host.awaiting = false then
      (match message with
      | some message => x.write (loginFailed message x.host.pc.attempted)
      | none => x).hostStep (.fail !tripped)
    else none
  | .pamPass =>
    if x.host.pam = .running ∧ x.host.awaiting = false then
      some { x with host := { x.host with pam := .passed } }
    else none
  | .host action =>
    if spontaneous action && x.host.pc.allows x.host.pam action then
      -- a login that PAM has passed and that prompts again has no local account
      (if action = .fail true then x.write (loginFailed "no local account" x.host.pc.attempted)
      else x).hostStep action
    else none
  | .startFailed user error =>
    if x.host.pam = .passed ∧ x.host.pc.allows .passed (.fail false) then
      (x.write (loginFailed ("session start failed: " ++ error) user)).hostStep (.fail false)
    else none
  | .proxyCommand =>
    match x.relay.commandChan with
    | [] => none
    | command :: rest =>
      if x.host.pc.proxying then
        { x with relay := { x.relay with commandChan := rest } }.takeCommand command
      else none
  | .arrive sub name => x.relayStep (.arrive (some { sub, name, username }))
  | .relay e => if setupEvent e then x.relayStep e else none
  | .deliver =>
    match x.wire with
    | [] => none
    | frame :: rest => { x with wire := rest }.relayStep (.read frame)

end LoginExchange

/-- PAM asks in the words of hostd: the relay cannot tell the two prompts apart. -/
def ExchangeEvent.pamAsksUsername : ExchangeEvent → Bool
  | .pamPrompt _ message => message == usernamePrompt
  | _ => false

/-! ## Progress -/

namespace HostMark

def asks : HostMark → Bool
  | .askedUsername _ => true
  | .startedPam => false

/-- Asks for a username, with a prompt that the relay has answered. -/
def asksAnswered (answered : List Nat) : HostMark → Bool
  | .askedUsername id => answered.contains id
  | .startedPam => false

def starts : HostMark → Bool
  | .startedPam => true
  | .askedUsername _ => false

end HostMark

/-- Between two prompts for the username that the relay has answered, a PAM conversation was
started. -/
def Progress (x : LoginExchange) : Prop :=
  Historically (fun past mark => mark.asksAnswered x.relay.record.answered = true →
    ¬ Unanswered (HostMark.asksAnswered x.relay.record.answered) HostMark.starts past) x.trace

/-! ## The relay sends nothing but the username -/

structure SpeaksFor (username : String) (s : LoginRelay) : Prop where
  viewers : ∀ w ∈ s.viewers, ∀ u ∈ w.user, u.username = username
  responses : ∀ response, .loginResponse response ∈ s.commandChan → response = username

open LoginExchange

variable {u : RelayUser} {command : LoginCommand}

variable {c : LoginCommand} {answer : String} {rest : List LoginCommand} {manager : SessionManager}

namespace SpeaksFor

variable {username : String} {s s' : LoginRelay} {e : LoginEvent} {v : Nat} {w : LoginViewer}

section

variable (h : SpeaksFor username s)

include h

theorem of_eq (hviewers : s'.viewers = s.viewers) (hcommands : s'.commandChan = s.commandChan) :
    SpeaksFor username s' :=
  ⟨hviewers ▸ h.viewers, hcommands ▸ h.responses⟩

theorem send (hc : ∀ response, c = .loginResponse response → response = username) :
    SpeaksFor username (s.send c) := by
  unfold LoginRelay.send
  split
  · refine ⟨h.viewers, fun response hmem => ?_⟩
    rcases List.mem_append.mp hmem with hmem | hmem
    · exact h.responses response hmem
    · exact hc response (List.mem_singleton.mp hmem).symm
  · exact h

theorem send_other : SpeaksFor username (s.send .other) := h.send nofun

theorem send_lock : SpeaksFor username (s.send .lock) := h.send nofun

theorem set {w' : LoginViewer} (huser : ∀ u ∈ w'.user, u.username = username) :
    SpeaksFor username { s with viewers := s.viewers.set v w' } := by
  refine ⟨fun w₀ hmem => ?_, h.responses⟩
  rcases List.mem_or_eq_of_mem_set hmem with hmem | rfl
  · exact h.viewers w₀ hmem
  · exact huser

theorem setSetup {setup : SetupPc} (huser : ∀ u ∈ w.user, u.username = username) :
    SpeaksFor username (s.setSetup v w setup) := h.set huser

theorem user (hu : s.user v = some u) : u.username = username := by
  obtain ⟨w, hw, huser⟩ := Option.bind_eq_some_iff.mp hu
  exact h.viewers w (List.mem_of_getElem? hw) u huser

/-- An answer of the relay is the username of the viewer. -/
theorem prefillAnswer {frame : Relay.LoginFrame}
    (hanswer : Relay.prefillAnswer true frame (s.user v) = some answer) : answer = username := by
  unfold Relay.prefillAnswer at hanswer
  split at hanswer
  · split at hanswer
    next u hu =>
      split at hanswer <;> cases hanswer
      exact h.user hu
    · cases hanswer
  · cases hanswer

theorem offerPrompt (p : StoredPrompt) (v : Nat) : SpeaksFor username (s.offerPrompt true p v) := by
  unfold LoginRelay.offerPrompt
  split
  next answer hanswer =>
    split
    · have hoffered : SpeaksFor username { s with record := s.record.offer p (s.user v) } := h.of_eq rfl rfl
      have hsent := hoffered.send (c := .loginResponse answer) fun response hresponse => by
        cases hresponse
        exact h.prefillAnswer hanswer
      exact hsent.of_eq rfl rfl
    · exact h.of_eq rfl rfl
  · exact h.of_eq rfl rfl

theorem replayPrompt (v : Nat) : SpeaksFor username (s.replayPrompt true v) := by
  unfold LoginRelay.replayPrompt
  split
  · exact h
  · exact h.offerPrompt _ v

theorem handleLoginFrame (frame : Relay.LoginFrame) :
    SpeaksFor username (s.handleLoginFrame true frame) := by
  unfold LoginRelay.handleLoginFrame
  split
  · have hpromoted :
        SpeaksFor username { s with record := s.record.receive frame }.promote := by
      unfold LoginRelay.promote
      split
      · split <;> exact h.of_eq rfl rfl
      · exact h.of_eq rfl rfl
    simp only [LoginRelay.handlePrompt]
    split
    · exact hpromoted
    · exact hpromoted.offerPrompt _ _
  · simp only [LoginRelay.handleOk]
    split <;> exact h.of_eq rfl rfl
  · simp only [LoginRelay.handleFailed]
    split <;> exact h.of_eq rfl rfl
  · simp only [LoginRelay.handleBusy]
    split <;> exact h.of_eq rfl rfl
  · exact h

theorem onSessionLeft (v : Nat) (others : Bool) : SpeaksFor username (s.onSessionLeft v others) := by
  unfold LoginRelay.onSessionLeft
  split
  · split
    · exact h.of_eq rfl rfl
    · exact h
  · split
    · exact h
    · have hidle : SpeaksFor username { s with login := {} } := h.of_eq rfl rfl
      exact hidle.send_lock
  · exact h

theorem gateViewer (v : Nat) : SpeaksFor username (s.gateViewer v).1 := by
  unfold LoginRelay.gateViewer
  split
  · exact h
  · split
    · exact h
    · split <;> exact h
    · exact h.of_eq rfl rfl

theorem gate (huser : ∀ u ∈ w.user, u.username = username) : SpeaksFor username (s.gate v w) := by
  have hgated := h.gateViewer v
  unfold LoginRelay.gate
  split
  all_goals
    rename_i heq
    rw [heq] at hgated
    exact (hgated.setSetup huser).of_eq rfl rfl

theorem clearSession (v : Nat) : SpeaksFor username (s.clearSession v) := by
  unfold LoginRelay.clearSession
  split
  · exact h.of_eq rfl rfl
  · exact h

theorem viewerStep (hw : s.viewers[v]? = some w) (he : setupEvent e = true)
    (hstep : s.viewerStep true v w e = some s') : SpeaksFor username s' := by
  have huser : ∀ u ∈ w.user, u.username = username := h.viewers w (List.mem_of_getElem? hw)
  cases e with
  | gate _ =>
    simp only [LoginRelay.viewerStep] at hstep
    split at hstep <;> cases hstep
    exact h.gate huser
  | bind _ =>
    simp only [LoginRelay.viewerStep] at hstep
    split at hstep <;> cases hstep
    have hbound : SpeaksFor username { s with session := some v } := h.of_eq rfl rfl
    exact hbound.setSetup huser
  | replaced _ =>
    simp only [LoginRelay.viewerStep] at hstep
    split at hstep
    · split at hstep <;> cases hstep
      exact h.set huser
    · cases hstep
  | start _ =>
    simp only [LoginRelay.viewerStep] at hstep
    split at hstep <;> cases hstep
    · exact (h.replayPrompt v).set huser
    · exact h.set huser
  | clear _ =>
    simp only [LoginRelay.viewerStep] at hstep
    split at hstep <;> cases hstep
    exact (h.clearSession v).set huser
  | left _ others =>
    simp only [LoginRelay.viewerStep] at hstep
    split at hstep <;> cases hstep
    exact (h.onSessionLeft v others).set huser
  | handle | command => cases hstep
  | arrive _ | viewerLock _ | response _ _ | read _ | disconnected | write => cases he

theorem setupStep (he : setupEvent e = true) (hstep : s.step true e = some s') : SpeaksFor username s' := by
  cases e with
  | gate v | bind v | replaced v | start v | clear v | left v _ =>
    simp only [LoginRelay.step] at hstep
    split at hstep
    next w hw =>
      exact h.viewerStep hw he hstep
    · cases hstep
  | handle =>
    simp only [LoginRelay.step] at hstep
    split at hstep <;> cases hstep
    exact (h.handleLoginFrame _).of_eq rfl rfl
  | command =>
    cases hstep
    exact h.send_other
  | arrive _ | viewerLock _ | response _ _ | read _ | disconnected | write => cases he

theorem arrive (sub name : String) (hstep : s.step true (.arrive (some { sub, name, username })) = some s') :
    SpeaksFor username s' := by
  cases hstep
  refine ⟨fun w hmem => ?_, h.responses⟩
  rcases List.mem_append.mp hmem with hmem | hmem
  · exact h.viewers w hmem
  · cases List.mem_singleton.mp hmem
    rintro u ⟨⟩
    rfl

theorem read (frame : Relay.LoginFrame) (hstep : s.step true (.read frame) = some s') :
    SpeaksFor username s' := by
  simp only [LoginRelay.step] at hstep
  split at hstep <;> cases hstep
  exact h.of_eq rfl rfl

theorem tail (hchan : s.commandChan = c :: rest) : SpeaksFor username { s with commandChan := rest } :=
  ⟨h.viewers, fun response hmem =>
    h.responses response (hchan ▸ List.mem_cons_of_mem _ hmem)⟩

end

end SpeaksFor

/-! ## The invariant of the exchange -/

namespace LoginPc

/-- Has a username and no PAM conversation yet, or will have none. -/
def beforePam : LoginPc → Bool
  | .stateClaim _ | .stateInner _ | .claimInner _ | .claimSlot _ | .busyClaim _ | .busyInner _
  | .busy _ | .fresh _ | .reattaching _ | .returned => true
  | _ => false

variable {m m' : SessionManager} {i : Nat} {pc pc' : LoginPc} {action : LoginAction}

theorem beforePam_ofState (name : String) (answer : SessionState) :
    (ofState name answer).beforePam = true := by
  cases answer with
  | locked user =>
    simp only [ofState]
    split <;> rfl
  | free | claimed user | active user => rfl

theorem beforePam_ofBusyState (name : String) (answer : SessionState) :
    (ofBusyState name answer).beforePam = true := by cases answer <;> rfl

theorem not_beforePam_of_proxying (h : pc.proxying = true) : pc.beforePam = false := by
  cases pc with
  | opened _ | attached _ => rfl
  | _ => cases h

/-- A connection with a username does not get back to the prompt before PAM. -/
theorem beforePam_step (hpc : pc.beforePam = true) (hallows : pc.allows .idle action = true)
    (hstep : pc.step m i action = some (m', pc')) : pc'.beforePam = true := by
  cases pc with
  | stateClaim name =>
    cases action <;> simp only [step, reduceCtorEq] at hstep
    split at hstep <;> cases hstep
    · exact beforePam_ofState _ _
    · rfl
  | stateInner name =>
    cases action <;> simp only [step, reduceCtorEq] at hstep
    cases hstep
    exact beforePam_ofState _ _
  | claimInner name =>
    cases action <;> simp only [step, reduceCtorEq] at hstep
    cases hstep
    split <;> rfl
  | claimSlot name =>
    cases action <;> simp only [step, reduceCtorEq] at hstep
    split at hstep <;> cases hstep <;> rfl
  | busyClaim name =>
    cases action <;> simp only [step, reduceCtorEq] at hstep
    split at hstep <;> cases hstep
    · exact beforePam_ofBusyState _ _
    · rfl
  | busyInner name =>
    cases action <;> simp only [step, reduceCtorEq] at hstep
    cases hstep
    exact beforePam_ofBusyState _ _
  | fresh _ | reattaching _ => cases hallows
  | busy _ | returned => cases action <;> cases hstep
  | prompting | openClaim _ | openInner _ | opened _ | attached _ | dropUnused _ | dropUsed _
  | locking _ => cases hpc

end LoginPc

/-- The connection owes a PAM conversation, or its end, to the last prompt for a username. -/
def HostLogin.Owes (h : HostLogin) : Prop :=
  (h.pc = .prompting ∧ h.asked = true) ∨ (h.pc.beforePam = true ∧ h.pam = .idle)

structure ExchangeInv (username : String) (x : LoginExchange) : Prop where
  speaks : SpeaksFor username x.relay
  separated : Historically (fun past mark => mark.asks = true →
    ¬ Unanswered HostMark.asks HostMark.starts past) x.trace
  owes : Unanswered HostMark.asks HostMark.starts x.trace → x.host.Owes

namespace ExchangeInv

variable {username : String} {x x' : LoginExchange} {action : LoginAction}
  {relay : LoginRelay} {host : HostLogin} {wire : List Relay.LoginFrame} {prompts : Nat}

section

variable (h : ExchangeInv username x)

include h

theorem quiet (hspeaks : SpeaksFor username relay) (howes : x.host.Owes → host.Owes) :
    ExchangeInv username { x with host, relay, wire, prompts } :=
  ⟨hspeaks, h.separated, fun hopen => howes (h.owes hopen)⟩

/-- A step of the connection: an owing connection still owes after it. -/
theorem hostStep
    (howes : ∀ m pc, x.host.pc.step x.host.manager 0 action = some (m, pc) → x.host.Owes →
      pc.beforePam = true)
    (hstep : x.hostStep action = some x') : ExchangeInv username x' := by
  simp only [LoginExchange.hostStep] at hstep
  split at hstep <;> cases hstep
  rename_i m pc hmove
  exact h.quiet h.speaks fun hopen => .inr ⟨howes m pc hmove hopen, rfl⟩

theorem askUsername (hpc : x.host.pc = .prompting) (hasked : x.host.asked = false) :
    ExchangeInv username { x with
      host := { x.host with asked := true }
      wire
      prompts
      trace := x.trace ++ [.askedUsername x.prompts] } := by
  have hclosed : ¬ Unanswered HostMark.asks HostMark.starts x.trace := by
    intro hopen
    rcases h.owes hopen with ⟨-, hyes⟩ | ⟨hbefore, -⟩
    · rw [hasked] at hyes
      cases hyes
    · rw [hpc] at hbefore
      cases hbefore
  exact ⟨h.speaks, historically_concat.mpr ⟨h.separated, fun _ => hclosed⟩, fun _ => .inl ⟨hpc, rfl⟩⟩

theorem startPam :
    ExchangeInv username { x with
      host := { x.host with pam := .running }
      trace := x.trace ++ [.startedPam] } := by
  refine ⟨h.speaks, historically_concat.mpr ⟨h.separated, nofun⟩, fun hopen => ?_⟩
  rcases unanswered_concat.mp hopen with hasks | ⟨-, hstarts⟩
  · cases hasks
  · cases hstarts

/-- The connection ends at the prompt. -/
theorem hangup (hpc : x.host.pc = .prompting) (hstep : x.hostStep .hangup = some x') :
    ExchangeInv username x' := by
  refine h.hostStep (fun m pc hmove _ => ?_) hstep
  rw [hpc] at hmove
  cases hmove
  rfl

theorem endPam (hpam : x.host.pam ≠ .idle) {again : Bool} (hstep : x.hostStep (.fail again) = some x') :
    ExchangeInv username x' := by
  refine h.hostStep (fun m pc hmove hopen => ?_) hstep
  rcases hopen with ⟨hpc, -⟩ | ⟨-, hidle⟩
  · rw [hpc] at hmove
    cases hmove
  · exact absurd hidle hpam

end

/-- Hostd reads the response to its prompt: it is the username, and it is accepted. -/
theorem answerUsername (hsane : (sanitizeUsername username).isSome = true)
    (h : ExchangeInv username x) (hpc : x.host.pc = .prompting)
    (hstep : x.answerUsername username = some x') : ExchangeInv username x' := by
  obtain ⟨name, hname⟩ := Option.isSome_iff_exists.mp hsane
  rw [LoginExchange.answerUsername, hname] at hstep
  refine h.hostStep (fun m pc hmove _ => ?_) hstep
  rw [hpc] at hmove
  cases hmove
  rfl

theorem takeResponse (hsane : (sanitizeUsername username).isSome = true ∨
      maxLoginPayload < (loginResponsePayload username).length) (h : ExchangeInv username x)
    (hcommand : ∀ response, command = .loginResponse response → response = username)
    (hreads : readsResponse x.host = true) (hstep : x.takeResponse command = some x') :
    ExchangeInv username x' := by
  unfold LoginExchange.takeResponse at hstep
  have hprompt : ¬ x.host.awaiting = true → x.host.pc = .prompting := by
    intro hawaiting
    simp only [readsResponse, hawaiting, Bool.and_false, Bool.or_false, Bool.and_eq_true,
      beq_iff_eq] at hreads
    exact hreads.1
  split at hstep
  · split at hstep
    next hawaiting =>
      simp only [readsResponse, Bool.or_eq_true, Bool.and_eq_true, beq_iff_eq] at hreads
      rcases hreads with ⟨hpc, -⟩ | ⟨hrunning, -⟩
      · refine h.hostStep (fun m pc hmove _ => ?_) hstep
        rw [hpc] at hmove
        cases hmove
      · exact h.endPam (by simp [hrunning]) hstep
    next hawaiting => exact h.hangup (hprompt hawaiting) hstep
  next hopen =>
    cases command with
    | loginResponse response =>
      cases hcommand response rfl
      dsimp only at hstep
      split at hstep
      · cases hstep
        exact h.quiet h.speaks id
      next hawaiting =>
        have hsane := hsane.resolve_right fun hlong => hopen (decide_eq_true hlong)
        exact h.answerUsername hsane (hprompt hawaiting) hstep
    | lock | other =>
      cases hstep
      exact h

section

variable (h : ExchangeInv username x)

include h

theorem takeCommand (hproxying : x.host.pc.proxying = true) (hstep : x.takeCommand command = some x') :
    ExchangeInv username x' := by
  cases command with
  | loginResponse _ | other =>
    cases hstep
    exact h
  | lock =>
    refine h.hostStep (fun m pc _ hopen => ?_) hstep
    rcases hopen with ⟨hpc, -⟩ | ⟨hbefore, -⟩
    · rw [hpc] at hproxying
      cases hproxying
    · rw [LoginPc.not_beforePam_of_proxying hproxying] at hbefore
      cases hbefore

/-- Any other step of the connection. -/
theorem spontaneous (hspontaneous : LoginExchange.spontaneous action = true)
    (hallows : x.host.pc.allows x.host.pam action = true) (hstep : x.hostStep action = some x') :
    ExchangeInv username x' := by
  refine h.hostStep (fun m pc hmove hopen => ?_) hstep
  rcases hopen with ⟨hpc, -⟩ | ⟨hbefore, hidle⟩
  · -- from the prompt, only the end of the connection comes by itself
    rw [hpc] at hmove
    cases action with
    | username name => cases hspontaneous
    | hangup =>
      cases hmove
      rfl
    | enter | started _ | fail _ | proxyEnded _ => cases hmove
  · rw [hidle] at hallows
    exact LoginPc.beforePam_step hbefore hallows hmove

theorem relayStep {e : LoginEvent} (hspeaks : ∀ s, x.relay.step true e = some s → SpeaksFor username s)
    (hstep : x.relayStep e = some x') : ExchangeInv username x' := by
  simp only [LoginExchange.relayStep] at hstep
  split at hstep <;> cases hstep
  rename_i s hs
  exact h.quiet (hspeaks s hs) id

/-- A frame is written before the step. -/
theorem write (frame : Relay.LoginFrame) : ExchangeInv username (x.write frame) := h.quiet h.speaks id

end

end ExchangeInv

theorem ExchangeInv.tail {username : String} {x : LoginExchange} (h : ExchangeInv username x)
    (hchan : x.relay.commandChan = command :: rest) :
    ExchangeInv username { x with relay := { x.relay with commandChan := rest } } :=
  h.quiet (h.speaks.tail hchan) id

theorem exchangeInv_step {username : String} {x x' : LoginExchange} {e : ExchangeEvent}
    (hsane : (sanitizeUsername username).isSome = true ∨
      maxLoginPayload < (loginResponsePayload username).length)
    (h : ExchangeInv username x) (hwords : e.pamAsksUsername = false) (hstep : x.step username e = some x') :
    ExchangeInv username x' := by
  cases e with
  | environment manager =>
    cases hstep
    exact h.quiet h.speaks id
  | askUsername =>
    simp only [step] at hstep
    split at hstep <;> cases hstep
    rename_i hready
    exact h.askUsername hready.1 hready.2
  | readResponse =>
    simp only [step] at hstep
    split at hstep
    · cases hstep
    next command rest hchan =>
      split at hstep
      next hreads =>
        refine (h.tail hchan).takeResponse hsane (fun response hresponse => ?_) hreads hstep
        exact h.speaks.responses response (by rw [hchan, hresponse]; exact List.mem_cons_self)
      · cases hstep
  | startPam =>
    simp only [step] at hstep
    split at hstep <;> cases hstep
    exact h.startPam
  | pamPrompt style message =>
    simp only [step] at hstep
    split at hstep <;> cases hstep
    have hother : message ≠ usernamePrompt := by simpa [ExchangeEvent.pamAsksUsername] using hwords
    rw [if_neg hother]
    exact (h.write (loginPrompt style message)).quiet h.speaks id
  | pamFail message tripped =>
    simp only [step] at hstep
    split at hstep
    next hrunning =>
      have hpam : x.host.pam ≠ .idle := by rw [hrunning.1]; exact nofun
      cases message with
      | none => exact h.endPam hpam hstep
      | some message => exact (h.write _).endPam hpam hstep
    · cases hstep
  | pamPass =>
    simp only [step] at hstep
    split at hstep <;> cases hstep
    rename_i hrunning
    refine h.quiet h.speaks fun hopen => hopen.imp id fun hbefore => ?_
    rw [hrunning.1] at hbefore
    exact nomatch hbefore.2
  | host action =>
    simp only [step] at hstep
    split at hstep
    next hallowed =>
      obtain ⟨hspontaneous, hallows⟩ := Bool.and_eq_true_iff.mp hallowed
      split at hstep
      · exact (h.write _).spontaneous hspontaneous hallows hstep
      · exact h.spontaneous hspontaneous hallows hstep
    · cases hstep
  | startFailed user error =>
    simp only [step] at hstep
    split at hstep
    next hpassed =>
      have hpam : x.host.pam ≠ .idle := by rw [hpassed.1]; exact nofun
      exact (h.write _).endPam hpam hstep
    · cases hstep
  | proxyCommand =>
    simp only [step] at hstep
    split at hstep
    · cases hstep
    next command rest hchan =>
      split at hstep
      next hproxying =>
        exact (h.tail hchan).takeCommand hproxying hstep
      · cases hstep
  | arrive sub name =>
    exact h.relayStep (fun _ => h.speaks.arrive sub name) hstep
  | relay e =>
    simp only [step] at hstep
    split at hstep
    next hsetup =>
      exact h.relayStep (fun _ => h.speaks.setupStep hsetup) hstep
    · cases hstep
  | deliver =>
    simp only [step] at hstep
    split at hstep
    · cases hstep
    next frame rest hwire =>
      have hshort : ExchangeInv username { x with wire := rest } := h.quiet h.speaks id
      exact hshort.relayStep (fun _ => h.speaks.read frame) hstep

theorem HostMark.asks_of_asksAnswered {answered : List Nat} {mark : HostMark}
    (h : mark.asksAnswered answered = true) : mark.asks = true := by
  cases mark with
  | askedUsername id => rfl
  | startedPam => cases h

theorem ExchangeInv.progress {username : String} {x : LoginExchange}
    (h : ExchangeInv username x) : Progress x :=
  h.separated.mono fun _ _ hseparated hasks hopen =>
    hseparated (HostMark.asks_of_asksAnswered hasks)
      (hopen.mono fun _ => HostMark.asks_of_asksAnswered)

/-! ## Going round -/

/-- A prompt would be offered to the viewer: it authenticates, or it is bound and nobody does. -/
def PromptsGoTo (s : LoginRelay) (v : Nat) : Prop :=
  s.login.authSess = some v ∨ (s.login.authSess = none ∧ s.login.state = .idle ∧ s.session = some v)

theorem PromptsGoTo.promote {s : LoginRelay} {v : Nat} (h : PromptsGoTo s v) :
    s.promote.login.authSess = some v ∧ s.promote = { s with login := s.promote.login } := by
  unfold LoginRelay.promote
  rcases h with h | ⟨hnone, hidle, hsession⟩
  · simp [h]
  · simp [hnone, hidle, hsession, LoginRelay.authenticate]

theorem offerPrompt_of_answer {s : LoginRelay} {p : StoredPrompt} {v : Nat}
    (hanswer : prefillAnswer true p.frame (s.user v) = some answer) (hroom : s.hasRoom = true) :
    s.offerPrompt true p v = { s with
      record := (s.record.offer p (s.user v)).answer p
      commandChan := s.commandChan ++ [.loginResponse answer] } := by
  have hroom' : LoginRelay.hasRoom { s with record := s.record.offer p (s.user v) } = true := hroom
  simp [LoginRelay.offerPrompt, hanswer, hroom, LoginRelay.send, hroom']

/-- The relay answers the prompt for the username of a viewer that has one. -/
theorem handlePrompt_answers {s : LoginRelay} {v : Nat} (frame : Relay.LoginFrame) (hgo : PromptsGoTo s v)
    (huser : s.user v = some u) (hne : u.username ≠ "") (hframe : frame.message = usernamePrompt)
    (hchan : s.commandChan = []) :
    ∃ login record, s.handlePrompt true frame = { s with
        login, record, commandChan := [.loginResponse u.username] } ∧
      login.authSess = some v ∧ record.received = s.record.received + 1 ∧
      record.answered = s.record.answered ++ [s.record.received] := by
  have hgo' : PromptsGoTo { s with record := s.record.receive frame } v := hgo
  obtain ⟨hauth, hpromote⟩ := hgo'.promote
  generalize LoginRelay.login (LoginRelay.promote _) = login at hauth hpromote
  have hanswer : prefillAnswer true frame (s.user v) = some u.username := by
    simp [prefillAnswer, hframe, huser, hne]
  let p : StoredPrompt := { id := s.record.received, frame }
  refine ⟨login, ((s.record.receive frame).offer p (s.user v)).answer p, ?_, hauth, rfl, rfl⟩
  simp only [LoginRelay.handlePrompt, hpromote, hauth]
  rw [offerPrompt_of_answer hanswer (by simp [LoginRelay.hasRoom, hchan, commandCapacity]), hchan]
  rfl

/-- Hostd is at its prompt, all it has asked `k` times for is a username, and the relay has
answered each time. -/
structure Looping (username : String) (k : Nat) (x : LoginExchange) : Prop where
  host : ∃ manager, x.host = { manager }
  wire : x.wire = []
  commands : x.relay.commandChan = []
  reading : x.relay.reading = none
  goes : PromptsGoTo x.relay 0
  user : ∃ u, x.relay.user 0 = some u ∧ u.username = username
  received : x.relay.record.received = x.prompts
  answered : x.relay.record.answered = List.range k
  prompts : x.prompts = k
  trace : x.trace = (List.range k).map .askedUsername

/-- Hostd asks and the relay answers. -/
def askRound : List ExchangeEvent := [.askUsername, .deliver, .relay .handle]

/-- Hostd refuses the answer and the relay passes the refusal on. -/
def refuseRound : List ExchangeEvent := [.readResponse, .deliver, .relay .handle]

variable {username : String} {k : Nat} {x : LoginExchange}

theorem Looping.ask (h : Looping username k x) (hhost : x.host = { manager })
    (huser : x.relay.user 0 = some u) (hne : u.username ≠ "") :
    ∃ login record, run (step username) x askRound = some { x with
        host := { manager, asked := true }
        relay := { x.relay with
          loginSpoken := true, login, record, commandChan := [.loginResponse u.username] }
        prompts := k + 1
        trace := (List.range (k + 1)).map .askedUsername } ∧
      login.authSess = some 0 ∧ record.received = k + 1 ∧
      record.answered = List.range (k + 1) := by
  let ask : Relay.LoginFrame := loginPrompt .echoOn usernamePrompt
  let asked : LoginExchange := { x with
    host := { manager, asked := true }
    wire := [ask]
    prompts := k + 1
    trace := (List.range (k + 1)).map .askedUsername }
  have hask : x.step username .askUsername = some asked := by
    simp [step, write, hhost, h.wire, h.prompts, h.trace, asked, ask, loginPrompt, List.range_succ]
  -- the relay has the frame in hand
  let hand : LoginRelay := { x.relay with loginSpoken := true, reading := some ask }
  have hdeliver : asked.step username .deliver = some { asked with wire := [], relay := hand } := by
    simp [step, LoginExchange.relayStep, LoginRelay.step, asked, h.reading, hand]
  obtain ⟨login, record, hhandle, hauth, hreceived, hanswered⟩ :=
    handlePrompt_answers (s := hand) ask h.goes huser hne rfl h.commands
  have hanswer : hand.step true .handle = some { x.relay with
      loginSpoken := true, login, record, commandChan := [.loginResponse u.username] } := by
    simp only [LoginRelay.step, hand, LoginRelay.handleLoginFrame, ask, loginPrompt]
    simp only [hand, ask, loginPrompt] at hhandle
    rw [hhandle]
    simp [h.reading]
  refine ⟨login, record, ?_, hauth, ?_, ?_⟩
  · rw [askRound, run_cons, hask, Option.bind_some, run_cons, hdeliver]
    simp [run, step, LoginExchange.relayStep, setupEvent, hanswer, asked, h.wire]
  · rw [hreceived, ← h.prompts, ← h.received]
  · rw [hanswered, List.range_succ, ← h.answered]
    exact congrArg (fun n => x.relay.record.answered ++ [n]) (h.received.trans h.prompts)

theorem run_refuseRound {v : Nat} (hrefused : sanitizeUsername username = none)
    (hshort : (loginResponsePayload username).length ≤ maxLoginPayload)
    (hhost : x.host = { manager, asked := true }) (hwire : x.wire = [])
    (hchan : x.relay.commandChan = [.loginResponse username]) (hreading : x.relay.reading = none)
    (hauth : x.relay.login.authSess = some v) :
    ∃ outputs, run (step username) x refuseRound = some { x with
      host := { manager }
      relay := { x.relay with loginSpoken := true, commandChan := [], outputs } } := by
  let refusal : Relay.LoginFrame := loginFailed "invalid username" ""
  have hread : x.step username .readResponse = some { x with
      host := { manager }, wire := [refusal], relay := { x.relay with commandChan := [] } } := by
    simp [step, hchan, readsResponse, hhost, hwire, takeResponse, closes, Nat.not_lt.mpr hshort,
      LoginExchange.answerUsername, hrefused, write, refusal, loginFailed]
  refine ⟨x.relay.outputs ++ [.insertHostLogin (some v) "" .failed, .forwardLogin v refusal], ?_⟩
  rw [refuseRound, run_cons, hread, Option.bind_some]
  simp [run, step, LoginExchange.relayStep, setupEvent,
    LoginRelay.step, hreading, LoginRelay.handleLoginFrame, LoginRelay.handleFailed,
    LoginRelay.output, hauth, refusal, loginFailed, hwire]

/-- A round brings hostd and the relay back to where they were, with one more prompt asked and
answered. -/
theorem Looping.round (hne : username ≠ "") (hrefused : sanitizeUsername username = none)
    (hshort : (loginResponsePayload username).length ≤ maxLoginPayload) (h : Looping username k x) :
    ∃ x', run (step username) x (askRound ++ refuseRound) = some x' ∧ Looping username (k + 1) x' := by
  obtain ⟨manager, hhost⟩ := h.host
  obtain ⟨u, huser, hname⟩ := h.user
  obtain ⟨login, record, hask, hauth, hreceived, hanswered⟩ := h.ask hhost huser (hname ▸ hne)
  rw [hname] at hask
  obtain ⟨outputs, hrefuse⟩ := run_refuseRound (x := { x with
      host := { manager, asked := true }
      relay := { x.relay with
        loginSpoken := true, login, record, commandChan := [.loginResponse username] }
      prompts := k + 1
      trace := (List.range (k + 1)).map .askedUsername })
    hrefused hshort rfl h.wire rfl h.reading hauth
  let again : LoginExchange := { x with
    host := { manager }
    relay := { x.relay with loginSpoken := true, login, record, commandChan := [], outputs }
    prompts := k + 1
    trace := (List.range (k + 1)).map .askedUsername }
  have hrun : run (step username) x (askRound ++ refuseRound) = some again := by
    rw [run_append, hask, Option.bind_some]
    exact hrefuse
  exact ⟨again, hrun, ⟨manager, rfl⟩, h.wire, rfl, h.reading, .inl hauth, ⟨u, huser, hname⟩,
    hreceived, hanswered, rfl, rfl⟩

def rounds (n : Nat) : List ExchangeEvent := (List.replicate n (askRound ++ refuseRound)).flatten

theorem Looping.rounds (hne : username ≠ "") (hrefused : sanitizeUsername username = none)
    (hshort : (loginResponsePayload username).length ≤ maxLoginPayload) (n : Nat)
    (h : Looping username k x) :
    ∃ x', run (step username) x (rounds n) = some x' ∧ Looping username (k + n) x' := by
  induction n generalizing k x with
  | zero => exact ⟨x, rfl, h⟩
  | succ n ih =>
    obtain ⟨y, hround, hy⟩ := h.round hne hrefused hshort
    obtain ⟨z, hrest, hz⟩ := ih hy
    refine ⟨z, ?_, ?_⟩
    · rw [Hostd.rounds, List.replicate_succ, List.flatten_cons, run_append, hround]
      exact hrest
    · rwa [Nat.add_assoc, Nat.add_comm 1] at hz

/-- A session of the viewer is set up. -/
def setupRun : List ExchangeEvent :=
  [.arrive "" "", .relay (.gate 0), .relay (.bind 0), .relay (.start 0)]

variable (username : String) (supportsLogin : Bool)

theorem looping_setupRun :
    ∃ x, run (step username) { relay := { supportsLogin } } setupRun = some x ∧ Looping username 0 x := by
  cases supportsLogin with
  | true => exact ⟨_, rfl, ⟨_, rfl⟩, rfl, rfl, rfl, .inl rfl, ⟨_, rfl, rfl⟩, rfl, rfl, rfl, rfl⟩
  | false =>
    exact ⟨_, rfl, ⟨_, rfl⟩, rfl, rfl, rfl, .inr ⟨rfl, rfl, rfl⟩, ⟨_, rfl, rfl⟩, rfl, rfl, rfl, rfl⟩

/-- The livelock: for a username that hostd can read and `sanitize_username` refuses there are runs in
which hostd asks any number of times, the relay answers each time, and no PAM conversation is started. -/
theorem username_loop_livelock (n : Nat)
    (hne : username ≠ "") (hrefused : sanitizeUsername username = none)
    (hshort : (loginResponsePayload username).length ≤ maxLoginPayload) :
    ∃ x, run (step username) { relay := { supportsLogin } }
        (setupRun ++ rounds n) = some x ∧
      x.trace = (List.range n).map .askedUsername ∧ x.relay.record.answered = List.range n := by
  obtain ⟨y, hsetup, hy⟩ := looping_setupRun username supportsLogin
  obtain ⟨x, hrounds, hx⟩ := hy.rounds hne hrefused hshort n
  rw [Nat.zero_add] at hx
  refine ⟨x, ?_, hx.trace, hx.answered⟩
  rw [run_append, hsetup]
  exact hrounds

/-! ## Which usernames make progress -/

/-- Two prompts in a row, both answered, are no progress. -/
theorem not_progress_of_two (htrace : x.trace = [.askedUsername 0, .askedUsername 1])
    (hanswered : x.relay.record.answered = [0, 1]) : ¬ Progress x := by
  intro h
  rw [Progress, hanswered] at h
  exact h [.askedUsername 0] (.askedUsername 1) [] htrace rfl (.inl ⟨rfl, nofun⟩)

theorem exchangeInv_new : ExchangeInv username { relay := { supportsLogin } } :=
  ⟨⟨nofun, nofun⟩, historically_nil, nofun⟩

/-- With a PAM that does not ask in the words of hostd, a viewer with a username makes progress in every
run exactly if `sanitize_username` accepts the username, or hostd ends the connection at the answer. -/
theorem username_loop_progress_iff (hne : username ≠ "") :
    (∀ es, (∀ e ∈ es, e.pamAsksUsername = false) →
        Lts.Throughout (LoginExchange.step username) Progress { relay := { supportsLogin } } es) ↔
      (sanitizeUsername username).isSome = true ∨
        maxLoginPayload < (loginResponsePayload username).length := by
  constructor
  · intro h
    by_contra hstalls
    rw [not_or, Bool.not_eq_true, Option.isSome_eq_false_iff, Option.isNone_iff_eq_none,
      Nat.not_lt] at hstalls
    obtain ⟨x, hrun, htrace, hanswered⟩ :=
      username_loop_livelock username supportsLogin 2 hne hstalls.1 hstalls.2
    exact not_progress_of_two htrace hanswered ((h _ (by decide)).last hrun)
  · intro hsane es hpam
    have hinv : Lts.Throughout (step username) (ExchangeInv username)
        { relay := { supportsLogin } } es :=
      throughout_of_along (fun _ _ _ => exchangeInv_step hsane)
        (exchangeInv_new username supportsLogin) (along_of_forall_mem fun e he _ => hpam e he)
    exact hinv.mono fun _ h => h.progress

theorem username_loop_progress_iff_ada :
    "ada" ≠ "" ∧ ∀ es, (∀ e ∈ es, e.pamAsksUsername = false) →
      Lts.Throughout (LoginExchange.step "ada") Progress {} es :=
  ⟨by decide, (username_loop_progress_iff "ada" true (by decide)).mpr (.inl (by decide))⟩

/-- A username with a space: hostd refuses it, asks again, and the relay answers again. -/
theorem username_loop_stalls :
    ¬ ∀ (username : String) (es : List ExchangeEvent), username ≠ "" →
      Lts.Throughout (LoginExchange.step username) Progress {} es := by
  intro h
  obtain ⟨x, hrun, htrace, hanswered⟩ :=
    username_loop_livelock "ada l" true 2 (by decide) (by decide) (by decide +kernel)
  exact not_progress_of_two htrace hanswered ((h "ada l" _ (by decide)).last hrun)

end Rustcast.Hostd
