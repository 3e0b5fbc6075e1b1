import Rustcast.Core.Lts
import Rustcast.Core.Parties

/-!
# The session manager of hostd and the connections that use it

`SessionManager` of `flux-hostd/src/session.rs` keeps the claim of a login in progress and the
OS session behind two locks. Its operations take the locks one after the other, so an
interleaving is one of their critical sections: each function below is one section, and what
`handle_connection` of `main.rs` does between two sections is a program counter.

A claim carries the connection it was granted to. The code has no such field, it is what the
statements about whose claim is cleared are about.
-/

namespace Rustcast.Hostd

open Parties

inductive SessionState where
  | free
  | claimed (user : String)
  | active (user : String)
  | locked (user : String)
  deriving DecidableEq

structure ActiveSession where
  user : String
  /-- `locked_since.is_some()` -/
  locked : Bool
  deriving DecidableEq

structure Claim where
  /-- the connection that holds the guard -/
  owner : Nat
  user : String
  deriving DecidableEq

structure SessionManager where
  inner : Option ActiveSession := none
  claim : Option Claim := none
  generation : Nat := 0
  deriving DecidableEq

/-! ## The critical sections -/

namespace SessionManager

variable (m : SessionManager)

def stateClaim : Option SessionState := m.claim.map (.claimed ·.user)

def stateInner : SessionState :=
  match m.inner with
  | none => .free
  | some s => if s.locked then .locked s.user else .active s.user

/-- First section of `try_claim`: there is no session. -/
def tryClaimInner : Bool := m.inner.isNone

def tryClaimSlot (owner : Nat) (user : String) : Option SessionManager :=
  if m.claim.isSome then none else some { m with claim := some { owner, user } }

def openClaim : SessionManager := { m with claim := none }

def openInner (user : String) : SessionManager :=
  { m with inner := some { user, locked := false } }

/-- `Drop for Claim`. No code sets `done`, so the slot is cleared on every drop. -/
def dropClaim : SessionManager := { m with claim := none }

def tryAttach (user : String) : Option SessionManager :=
  match m.inner with
  | some s =>
    if s.locked && s.user == user then
      some { m with inner := some { s with locked := false }, generation := m.generation + 1 }
    else none
  | none => none

def lock : SessionManager :=
  match m.inner with
  | some s => { m with inner := some { s with locked := true }, generation := m.generation + 1 }
  | none => m

def take : SessionManager :=
  { m with inner := none, generation := m.generation + 1 }

def isActive : Bool := m.inner.any (!·.locked)

theorem lock_claim : m.lock.claim = m.claim := by
  unfold lock
  split <;> rfl

theorem lock_inner : m.lock.inner = m.inner.map fun s => { s with locked := true } := by
  unfold lock
  split <;> simp [*]

/-- `try_attach` succeeds on a locked session, and unlocks it. -/
theorem tryAttach_eq_some {m m' : SessionManager} {user : String}
    (h : m.tryAttach user = some m') :
    m'.claim = m.claim ∧ m.isActive = false ∧ m'.isActive = true ∧ m.inner ≠ none := by
  unfold tryAttach at h
  split at h
  next s hs =>
    split at h
    next hlocked =>
      simp only [Bool.and_eq_true] at hlocked
      cases h
      simp [isActive, hs, hlocked.1]
    · cases h
  · cases h

end SessionManager

/-! ## The connections -/

/-- Where a call of `handle_connection` stands. -/
inductive LoginPc where
  | prompting
  | stateClaim (username : String)
  | stateInner (username : String)
  | claimInner (username : String)
  | claimSlot (username : String)
  /-- `try_claim` gave nothing, or `try_attach` failed: `state` once more, for the answer -/
  | busyClaim (username : String)
  | busyInner (username : String)
  /-- the answer is `Busy`, and the handler returns -/
  | busy (user : String)
  /-- a fresh login runs PAM, looks the user up and starts the session, with the claim -/
  | fresh (username : String)
  | openClaim (user : String)
  | openInner (user : String)
  /-- the session is open: write the ok frame and proxy, still with the guard of the claim -/
  | opened (user : String)
  /-- a login to a locked session runs PAM -/
  | reattaching (username : String)
  /-- the session is attached: look the user up, write the ok frame and proxy -/
  | attached (username : String)
  /-- the fresh login has failed: drop the claim, then prompt again or return -/
  | dropUnused (again : Bool)
  /-- the guard of the consumed claim goes out of scope: the proxy has ended, or the ok frame
  could not be written -/
  | dropUsed (ended : Option Bool)
  | locking (again : Bool)
  | returned
  deriving DecidableEq

inductive LoginAction where
  /-- a valid username arrives -/
  | username (name : String)
  /-- the relay is gone at the prompt -/
  | hangup
  /-- the next critical section -/
  | enter
  /-- PAM, the lookup and the start of the session succeed, for this OS user -/
  | started (user : String)
  /-- some step of the phase fails: prompt again or return -/
  | fail (again : Bool)
  /-- the proxy ends: with a lock command, or with a disconnect or an error -/
  | proxyEnded (again : Bool)
  deriving DecidableEq

namespace LoginPc

/-- What `handle_connection` does with the answer of `state`. -/
def ofState (username : String) : SessionState → LoginPc
  | .free => .claimInner username
  | .claimed user => .busy user
  | .active user => .busy user
  | .locked user => if user = username then .reattaching username else .busy user

/-- The user that the `Busy` answer names after a lost race. -/
def ofBusyState (username : String) : SessionState → LoginPc
  | .free => .busy username
  | .claimed user => .busy user
  | .active user => .busy user
  | .locked user => .busy user

def loopOrReturn (again : Bool) : LoginPc := if again then .prompting else .returned

/-- One step of connection `i`. -/
def step (m : SessionManager) (i : Nat) : LoginPc → LoginAction → Option (SessionManager × LoginPc)
  | .prompting, .username name => some (m, .stateClaim name)
  | .prompting, .hangup => some (m, .returned)
  | .stateClaim name, .enter =>
    match m.stateClaim with
    | some answer => some (m, ofState name answer)
    | none => some (m, .stateInner name)
  | .stateInner name, .enter => some (m, ofState name m.stateInner)
  | .claimInner name, .enter =>
    some (m, if m.tryClaimInner then .claimSlot name else .busyClaim name)
  | .claimSlot name, .enter =>
    -- the session slot is not looked at again
    match m.tryClaimSlot i name with
    | some m' => some (m', .fresh name)
    | none => some (m, .busyClaim name)
  | .busyClaim name, .enter =>
    match m.stateClaim with
    | some answer => some (m, ofBusyState name answer)
    | none => some (m, .busyInner name)
  | .busyInner name, .enter => some (m, ofBusyState name m.stateInner)
  | .fresh _, .started user => some (m, .openClaim user)
  | .fresh _, .fail again => some (m, .dropUnused again)
  | .openClaim user, .enter => some (m.openClaim, .openInner user)
  | .openInner user, .enter => some (m.openInner user, .opened user)
  -- the ok frame cannot be written: return with the guard, and without `lock`
  | .opened _, .fail _ => some (m, .dropUsed none)
  | .opened _, .proxyEnded again => some (m, .dropUsed (some again))
  | .reattaching _, .fail again => some (m, loopOrReturn again)
  | .reattaching name, .enter =>
    match m.tryAttach name with
    | some m' => some (m', .attached name)
    | none => some (m, .busyClaim name)
  -- the lookup or the ok frame fails: return without `lock`
  | .attached _, .fail _ => some (m, .returned)
  | .attached _, .proxyEnded again => some (m, .locking again)
  | .dropUnused again, .enter => some (m.dropClaim, loopOrReturn again)
  -- the guard is dropped at the end of its arm of the match, before `lock`
  | .dropUsed (some again), .enter => some (m.dropClaim, .locking again)
  | .dropUsed none, .enter => some (m.dropClaim, .returned)
  | .locking again, .enter => some (m.lock, loopOrReturn again)
  | _, _ => none

end LoginPc

/-! ## The daemon -/

structure Daemon where
  manager : SessionManager := {}
  conns : List LoginPc := []
  deriving DecidableEq

inductive DaemonEvent where
  | accept
  /-- the idle timer or the shutdown logs the session out -/
  | take
  | conn (i : Nat) (action : LoginAction)
  deriving DecidableEq

def Daemon.step (d : Daemon) : DaemonEvent → Option Daemon
  | .accept => some { d with conns := d.conns ++ [.prompting] }
  | .take => some { d with manager := d.manager.take }
  | .conn i action =>
    match d.conns[i]? with
    | none => none
    | some pc =>
      match pc.step d.manager i action with
      | none => none
      | some (manager, pc') => some { manager, conns := d.conns.set i pc' }

/-! ## Regions of the program counter -/

namespace LoginPc

/-- Holds a claim that `open` has not consumed. -/
def unconsumed : LoginPc → Bool
  | .fresh _ | .openClaim _ | .dropUnused _ => true
  | _ => false

/-- Holds the guard of a claim that `open` has consumed. -/
def consumed : LoginPc → Bool
  | .openInner _ | .opened _ | .dropUsed _ => true
  | _ => false

/-- Between the two sections of `try_claim`. -/
def claiming : LoginPc → Bool
  | .claimSlot _ => true
  | _ => false

/-- Between the two sections of `open`. -/
def opening : LoginPc → Bool
  | .openInner _ => true
  | _ => false

/-- About to clear the claim slot as its guard goes out of scope. -/
def releasing : LoginPc → Bool
  | .dropUnused _ | .dropUsed _ => true
  | _ => false

/-- Opened or attached the session and has neither locked it nor returned since. -/
def attending : LoginPc → Bool
  | .opened _ | .attached _ | .dropUsed _ | .locking _ => true
  | _ => false

/-- Holds neither a claim nor the session, and has not seen the session slot free. -/
def outside : LoginPc → Bool
  | .prompting | .stateClaim _ | .stateInner _ | .claimInner _ | .busyClaim _ | .busyInner _
  | .busy _ | .reattaching _ | .returned => true
  | _ => false

/-- Being outside excludes every other region. -/
theorem regions_of_outside {pc : LoginPc} (h : pc.outside = true) :
    pc.unconsumed = false ∧ pc.consumed = false ∧ pc.claiming = false ∧ pc.opening = false ∧
      pc.attending = false := by
  cases pc with
  | claimSlot _ | fresh _ | openClaim _ | openInner _ | opened _ | attached _ | dropUnused _
  | dropUsed _ | locking _ => cases h
  | _ => exact ⟨rfl, rfl, rfl, rfl, rfl⟩

theorem outside_loopOrReturn (again : Bool) : (loopOrReturn again).outside = true := by
  cases again <;> rfl

theorem outside_ofState (name : String) (answer : SessionState) : (ofState name answer).outside = true := by
  cases answer with
  | locked user =>
    simp only [ofState]
    split <;> rfl
  | free | claimed user | active user => rfl

theorem outside_ofBusyState (name : String) (answer : SessionState) :
    (ofBusyState name answer).outside = true := by cases answer <;> rfl

end LoginPc

/-! ## What a connection can do -/

/-- The steps of a connection by what they do to the manager. -/
inductive LoginMove (m : SessionManager) (i : Nat) :
    LoginPc → LoginAction → SessionManager → LoginPc → Prop where
  | outside {pc pc' : LoginPc} {action : LoginAction} (hpc : pc.outside = true)
      (hpc' : pc'.outside = true) : LoginMove m i pc action m pc'
  /-- `try_claim` sees the session slot free -/
  | see (name : String) (hfree : m.inner = none) :
      LoginMove m i (.claimInner name) .enter m (.claimSlot name)
  | refuse (name : String) : LoginMove m i (.claimSlot name) .enter m (.busyClaim name)
  | grant (name : String) (hfree : m.claim = none) :
      LoginMove m i (.claimSlot name) .enter { m with claim := some { owner := i, user := name } }
        (.fresh name)
  | start (name user : String) : LoginMove m i (.fresh name) (.started user) m (.openClaim user)
  | failFresh (name : String) (again : Bool) :
      LoginMove m i (.fresh name) (.fail again) m (.dropUnused again)
  | consume (user : String) : LoginMove m i (.openClaim user) .enter m.openClaim (.openInner user)
  | install (user : String) : LoginMove m i (.openInner user) .enter (m.openInner user) (.opened user)
  | close (user : String) (action : LoginAction) (ended : Option Bool) :
      LoginMove m i (.opened user) action m (.dropUsed ended)
  | attach {name : String} {m' : SessionManager} (hattach : m.tryAttach name = some m') :
      LoginMove m i (.reattaching name) .enter m' (.attached name)
  | failAttached (name : String) (again : Bool) : LoginMove m i (.attached name) (.fail again) m .returned
  | detach (name : String) (again : Bool) :
      LoginMove m i (.attached name) (.proxyEnded again) m (.locking again)
  | dropUnused (again : Bool) : LoginMove m i (.dropUnused again) .enter m.dropClaim (.loopOrReturn again)
  | dropUsed (ended : Option Bool) :
      LoginMove m i (.dropUsed ended) .enter m.dropClaim (ended.elim .returned .locking)
  | lock (again : Bool) : LoginMove m i (.locking again) .enter m.lock (.loopOrReturn again)

variable {m m' : SessionManager} {i : Nat} {pc pc' : LoginPc} {action : LoginAction}

/-- The inversion of a step of a connection. -/
theorem LoginPc.step_move (h : pc.step m i action = some (m', pc')) : LoginMove m i pc action m' pc' := by
  cases pc <;> cases action <;> simp only [LoginPc.step, reduceCtorEq] at h
  case prompting.username | prompting.hangup =>
    cases h
    exact .outside rfl rfl
  case stateClaim.enter name =>
    split at h
    all_goals cases h
    · exact .outside rfl (outside_ofState _ _)
    · exact .outside rfl rfl
  case stateInner.enter name =>
    cases h
    exact .outside rfl (outside_ofState _ _)
  case claimInner.enter name =>
    cases h
    split
    next hnone =>
      exact .see name (Option.isNone_iff_eq_none.mp hnone)
    · exact .outside rfl rfl
  case claimSlot.enter name =>
    rw [SessionManager.tryClaimSlot] at h
    cases hclaim : m.claim with
    | none =>
      simp only [hclaim, Option.isSome_none, Bool.false_eq_true, if_false] at h
      cases h
      exact .grant name hclaim
    | some c =>
      simp only [hclaim, Option.isSome_some, if_true] at h
      cases h
      exact .refuse name
  case busyClaim.enter name =>
    split at h
    all_goals cases h
    · exact .outside rfl (outside_ofBusyState _ _)
    · exact .outside rfl rfl
  case busyInner.enter name =>
    cases h
    exact .outside rfl (outside_ofBusyState _ _)
  case reattaching.enter name =>
    split at h
    all_goals cases h
    · exact .attach ‹_›
    · exact .outside rfl rfl
  case reattaching.fail name again =>
    cases h
    exact .outside rfl (outside_loopOrReturn _)
  case dropUsed.enter ended =>
    cases ended
    all_goals
      cases h
      exact .dropUsed _
  all_goals cases h
  case fresh.started.refl name user => exact .start name user
  case fresh.fail.refl name again => exact .failFresh name again
  case opened.fail.refl user again | opened.proxyEnded.refl user again => exact .close user _ _
  case attached.fail.refl name again => exact .failAttached name again
  case attached.proxyEnded.refl name again => exact .detach name again
  all_goals constructor

theorem Daemon.step_conn_pc {d d' : Daemon} (hstep : d.step (.conn i action) = some d') :
    ∃ pc m' pc', d.conns[i]? = some pc ∧ pc.step d.manager i action = some (m', pc') ∧
      d' = { manager := m', conns := d.conns.set i pc' } := by
  simp only [Daemon.step] at hstep
  split at hstep
  · cases hstep
  next pc hpc =>
    split at hstep <;> cases hstep
    rename_i m' pc' hmove
    exact ⟨pc, m', pc', hpc, hmove, rfl⟩

theorem Daemon.step_conn {d d' : Daemon} (hstep : d.step (.conn i action) = some d') :
    ∃ pc m' pc', d.conns[i]? = some pc ∧ LoginMove d.manager i pc action m' pc' ∧
      d' = { manager := m', conns := d.conns.set i pc' } := by
  obtain ⟨pc, m', pc', hpc, hmove, rfl⟩ := Daemon.step_conn_pc hstep
  exact ⟨pc, m', pc', hpc, LoginPc.step_move hmove, rfl⟩

/-! ## Conditions on a run -/

/-- `Q` holds when a connection in the region `f` enters its next critical section. -/
def WhenEntered (f : LoginPc → Bool) (Q : Daemon → Nat → Prop) (d : Daemon) : DaemonEvent → Prop
  | .conn i .enter => Holds f d.conns i → Q d i
  | _ => True

instance (f : LoginPc → Bool) (Q : Daemon → Nat → Prop) [∀ d i, Decidable (Q d i)] (d : Daemon) (e : DaemonEvent) :
    Decidable (WhenEntered f Q d e) := by
  unfold WhenEntered
  split <;> infer_instance

/-! ## Pieces of a run -/

/-- Connection `i` asks for a login and gets between the two sections of `try_claim`. -/
def toClaimSlot (i : Nat) (name : String) : List DaemonEvent :=
  [.conn i (.username name), .conn i .enter, .conn i .enter, .conn i .enter]

/-- Connection `i` goes from there through a fresh login until its session is open. -/
def openFromClaimSlot (i : Nat) (name : String) : List DaemonEvent :=
  [.conn i .enter, .conn i (.started name), .conn i .enter, .conn i .enter]

end Rustcast.Hostd
