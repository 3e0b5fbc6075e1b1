import Rustcast.Core.OrderedMap
import Rustcast.Hostd.Session

/-!
# The login rate limit of hostd

`LoginRateLimiter` of `flux-hostd/src/rate.rs` blocks a peer for a cooldown after too many
failed logins. `handle_connection` asks it once, before the first prompt, and reports each
failed PAM conversation to it.

`LoginServer` puts the limiter, a clock and the cooldown loop in front of `Daemon`, and splits
the login of a connection at the start and the end of its PAM conversation. A connection that
is past the cooldown loop is not asked again, so a peer with several connections can trip the
limit on one and go on with another.
-/

namespace Rustcast.Hostd

open Parties LoginPc

universe u

/-! ## The limiter -/

structure PeerState where
  failures : Nat
  blockedUntil : Option Nat
  deriving DecidableEq

structure LoginRateLimiter (P : Type u) where
  maxFailures : Nat
  cooldown : Nat
  peers : OrderedMap P PeerState

open LoginRateLimiter

namespace LoginRateLimiter

variable {P : Type u} [DecidableEq P]

def isBlocked (l : LoginRateLimiter P) (now : Nat) (peer : P) : Bool :=
  match (l.peers.get? peer).bind (·.blockedUntil) with
  | some blockedUntil => decide (now < blockedUntil)
  | none => false

/-- Record a failed login; the flag says that this failure tripped the limit. -/
def recordFailure (l : LoginRateLimiter P) (now : Nat) (peer : P) : LoginRateLimiter P × Bool :=
  let state := (l.peers.get? peer).getD { failures := 0, blockedUntil := none }
  if l.maxFailures ≤ state.failures + 1 then
    let blocked : PeerState := { failures := 0, blockedUntil := some (now + l.cooldown) }
    ({ l with peers := l.peers.set peer blocked }, true)
  else
    ({ l with peers := l.peers.set peer { state with failures := state.failures + 1 } }, false)

def recordSuccess (l : LoginRateLimiter P) (peer : P) : LoginRateLimiter P :=
  match l.peers.get? peer with
  | some state => { l with peers := l.peers.set peer { state with failures := 0 } }
  | none => l

variable {l : LoginRateLimiter P} {now now' : Nat} {peer p : P}

/-- A block only wears off. -/
theorem isBlocked_mono (hle : now ≤ now') (h : l.isBlocked now p = false) : l.isBlocked now' p = false := by
  unfold isBlocked at h ⊢
  split at h
  · simp only [decide_eq_false_iff_not] at h ⊢
    omega
  · rfl

theorem isBlocked_recordSuccess : (l.recordSuccess peer).isBlocked now p = l.isBlocked now p := by
  unfold recordSuccess
  split
  next state hstate =>
    by_cases hp : p = peer
    · simp [isBlocked, OrderedMap.get?_set, hp, hstate]
    · simp [isBlocked, OrderedMap.get?_set, hp]
  · rfl

/-- A failure below the limit blocks nobody. -/
theorem isBlocked_recordFailure (h : (l.recordFailure now peer).2 = false) :
    (l.recordFailure now peer).1.isBlocked now' p = l.isBlocked now' p := by
  simp only [recordFailure] at h ⊢
  split at h
  · cases h
  next hbelow =>
    simp only [hbelow, if_false]
    by_cases hp : p = peer
    · subst hp
      cases hstate : l.peers.get? p <;> simp [isBlocked, OrderedMap.get?_set, hstate]
    · simp [isBlocked, OrderedMap.get?_set, hp]

/-- No failure blocks another peer. -/
theorem isBlocked_recordFailure_ne (hne : p ≠ peer) :
    (l.recordFailure now peer).1.isBlocked now' p = l.isBlocked now' p := by
  simp only [recordFailure]
  split <;> simp [isBlocked, OrderedMap.get?_set, hne]

end LoginRateLimiter

/-! ## The connections in front of the daemon -/

/-- The PAM conversation of a connection. -/
inductive PamPhase where
  | idle
  /-- `pam_session::start` has been called and `drive_pam` runs -/
  | running
  /-- the conversation has succeeded -/
  | passed
  deriving DecidableEq

/-- A connection in the cooldown loop, with the end of its sleep. -/
structure Waiting (P : Type u) where
  peer : P
  wake : Nat
  deriving DecidableEq

/-- A connection past the cooldown loop. -/
structure PeerConn (P : Type u) where
  peer : P
  pam : PamPhase := .idle
  deriving DecidableEq

structure LoginServer (P : Type u) where
  daemon : Daemon := {}
  limiter : LoginRateLimiter P
  clock : Nat := 0
  waiting : List (Waiting P) := []
  /-- connection `i` of the daemon is that of entry `i` -/
  conns : List (PeerConn P) := []

inductive LoginServerEvent (P : Type u) where
  | tick
  | connect (peer : P)
  /-- a connection of the cooldown loop asks `is_blocked` -/
  | check (k : Nat)
  /-- a step of the daemon other than `accept` -/
  | daemon (e : DaemonEvent)
  /-- `pam_session::start` -/
  | start (i : Nat)
  /-- `drive_pam` gives nothing, and the failure is recorded -/
  | reject (i : Nat)
  /-- `drive_pam` gives an outcome, and the success is recorded -/
  | pass (i : Nat)
  deriving DecidableEq

namespace LoginPc

/-- At or after the call of `pam_session::start`, before the session is open or attached. -/
def authenticating : LoginPc → Bool
  | .fresh _ | .reattaching _ => true
  | _ => false

/-- Can come to another PAM conversation on this connection. -/
def mayPrompt : LoginPc → Bool
  | .busyClaim _ | .busyInner _ | .busy _ | .returned => false
  | .dropUnused again | .locking again => again
  | .dropUsed ended => ended == some true
  | _ => true

/-- What a connection can do without the limiter, given its PAM conversation. -/
def allows : LoginPc → PamPhase → LoginAction → Bool
  | .fresh _, .passed, .started _ => true
  -- the lookup fails, there is no local account, or the session does not start
  | .fresh _, .passed, .fail _ => true
  -- the relay is gone during the conversation
  | .fresh _, .running, .fail again => !again
  | .fresh _, _, _ => false
  | .reattaching _, .passed, .enter => true
  | .reattaching _, .running, .fail again => !again
  | .reattaching _, _, _ => false
  | _, _, _ => true

end LoginPc

namespace LoginServer

variable {P : Type u} [DecidableEq P]

def step (s : LoginServer P) : LoginServerEvent P → Option (LoginServer P)
  | .tick => some { s with clock := s.clock + 1 }
  | .connect peer => some { s with waiting := s.waiting ++ [{ peer, wake := s.clock }] }
  | .check k =>
    match s.waiting[k]? with
    | none => none
    | some w =>
      if s.clock < w.wake then none
      else if s.limiter.isBlocked s.clock w.peer then
        some { s with waiting := s.waiting.set k { w with wake := s.clock + s.limiter.cooldown } }
      else
        match s.daemon.step .accept with
        | none => none
        | some d => some { s with
            daemon := d
            waiting := s.waiting.eraseIdx k
            conns := s.conns ++ [{ peer := w.peer }] }
  | .daemon .accept => none
  | .daemon .take =>
    match s.daemon.step .take with
    | none => none
    | some d => some { s with daemon := d }
  | .daemon (.conn i action) =>
    match s.conns[i]?, s.daemon.conns[i]? with
    | some c, some pc =>
      if pc.allows c.pam action then
        match s.daemon.step (.conn i action) with
        | none => none
        | some d => some { s with daemon := d, conns := s.conns.set i { c with pam := .idle } }
      else none
    | _, _ => none
  | .start i =>
    match s.conns[i]?, s.daemon.conns[i]? with
    | some c, some pc =>
      if pc.authenticating && c.pam == .idle then
        some { s with conns := s.conns.set i { c with pam := .running } }
      else none
    | _, _ => none
  | .reject i =>
    match s.conns[i]?, s.daemon.conns[i]? with
    | some c, some pc =>
      if pc.authenticating && c.pam == .running then
        let (limiter, tripped) := s.limiter.recordFailure s.clock c.peer
        match s.daemon.step (.conn i (.fail !tripped)) with
        | none => none
        | some d => some { s with
            daemon := d
            limiter
            conns := s.conns.set i { c with pam := .idle } }
      else none
    | _, _ => none
  | .pass i =>
    match s.conns[i]?, s.daemon.conns[i]? with
    | some c, some pc =>
      if pc.authenticating && c.pam == .running then
        some { s with
          limiter := s.limiter.recordSuccess c.peer
          conns := s.conns.set i { c with pam := .passed } }
      else none
    | _, _ => none

end LoginServer

/-! ## The condition and the property -/

section Statement

variable {P : Type u} [DecidableEq P]

/-- Connection `j` is one of the peer's. -/
def IsOf (conns : List (PeerConn P)) (peer : P) (j : Nat) : Prop :=
  Holds (fun c => decide (c.peer = peer)) conns j

instance (conns : List (PeerConn P)) (peer : P) (j : Nat) : Decidable (IsOf conns peer j) :=
  inferInstanceAs (Decidable (Holds _ _ _))

/-- A PAM conversation is started for a peer that is not blocked. -/
def StartsUnblocked (s : LoginServer P) : LoginServerEvent P → Prop
  | .start i => Holds LoginPc.authenticating s.daemon.conns i →
      ∀ c ∈ s.conns[i]?, s.limiter.isBlocked s.clock c.peer = false
  | _ => True

/-- The condition on a step: a failure trips the limit only if no other connection of the peer
can come to another PAM conversation. -/
def TripsAlone (s : LoginServer P) : LoginServerEvent P → Prop
  | .reject i => ∀ c ∈ s.conns[i]?, (s.limiter.recordFailure s.clock c.peer).2 = true →
      ∀ j < s.conns.length, j ≠ i → IsOf s.conns c.peer j → ¬ Holds LoginPc.mayPrompt s.daemon.conns j
  | _ => True

instance (s : LoginServer P) (e : LoginServerEvent P) : Decidable (StartsUnblocked s e) := by
  unfold StartsUnblocked
  split <;> infer_instance

instance (s : LoginServer P) (e : LoginServerEvent P) : Decidable (TripsAlone s e) := by
  unfold TripsAlone
  split <;> infer_instance

end Statement

/-! ## Steps -/

variable {m m' : SessionManager} {i : Nat} {pc pc' : LoginPc} {action : LoginAction}

/-- A connection that cannot come to another PAM conversation never can again. -/
theorem LoginPc.mayPrompt_of_step (hstep : pc.step m i action = some (m', pc'))
    (h : pc'.mayPrompt = true) : pc.mayPrompt = true := by
  cases pc with
  | busyClaim name =>
    cases action <;> simp only [step, reduceCtorEq] at hstep
    split at hstep
    next answer _ =>
      cases hstep
      cases answer <;> cases h
    · cases hstep
      cases h
  | busyInner name =>
    cases action <;> simp only [step, reduceCtorEq] at hstep
    cases hstep
    cases hstate : m.stateInner <;> rw [hstate] at h <;> cases h
  | dropUnused again | locking again =>
    cases again with
    | true => rfl
    | false =>
      cases action <;> simp only [step, reduceCtorEq] at hstep
      cases hstep
      cases h
  | dropUsed ended =>
    rcases ended with _ | _ | _
    case some.true => rfl
    all_goals
      cases action <;> simp only [step, reduceCtorEq] at hstep
      cases hstep
      cases h
  | busy _ | returned => cases action <;> cases hstep
  | _ => rfl

/-- A failed PAM conversation that does not prompt again ends the connection. -/
theorem LoginPc.mayPrompt_fail_false (hstep : pc.step m i (.fail false) = some (m', pc'))
    (hpc : pc.authenticating = true) : pc'.mayPrompt = false := by
  cases pc with
  | fresh _ | reattaching _ =>
    cases hstep
    rfl
  | _ => cases hpc

theorem LoginPc.authenticating_mayPrompt (h : pc.authenticating = true) : pc.mayPrompt = true := by
  cases pc with
  | fresh _ | reattaching _ => rfl
  | _ => cases h

/-! ## The invariant -/

section Invariant

variable {P : Type u} [DecidableEq P] {s s' : LoginServer P} {e : LoginServerEvent P}
  {conns : List (PeerConn P)} {c : PeerConn P} {limiter : LoginRateLimiter P} {peer : P}
  {j : Nat} {pam : PamPhase}

theorem isOf_iff (hc : conns[i]? = some c) : IsOf conns peer i ↔ c.peer = peer := by
  rw [IsOf, holds_iff hc, decide_eq_true_eq]

/-- The PAM conversation of a connection does not change whose it is. -/
theorem isOf_set (hc : conns[i]? = some c) :
    IsOf (conns.set i { c with pam }) peer j ↔ IsOf conns peer j := holds_set_same hc rfl

theorem IsOf.lt (h : IsOf conns peer j) : j < conns.length := by
  by_contra hge
  rw [IsOf, Holds, List.getElem?_eq_none (Nat.le_of_not_lt hge)] at h
  cases h

/-- A peer with a connection that can come to a PAM conversation is not blocked. -/
structure LimitInv (s : LoginServer P) : Prop where
  aligned : s.conns.length = s.daemon.conns.length
  unblocked : ∀ peer j, IsOf s.conns peer j → Holds LoginPc.mayPrompt s.daemon.conns j →
    s.limiter.isBlocked s.clock peer = false

section

variable (hinv : LimitInv s)

include hinv

/-- A step of a conversation that blocks nobody. -/
theorem LimitInv.conversation (hc : s.conns[i]? = some c)
    (hsame : ∀ peer, limiter.isBlocked s.clock peer = s.limiter.isBlocked s.clock peer) :
    LimitInv { s with limiter, conns := s.conns.set i { c with pam } } := by
  refine ⟨by simpa using hinv.aligned, fun peer j hof hmay => ?_⟩
  exact (hsame peer).trans (hinv.unblocked peer j ((isOf_set hc).mp hof) hmay)

/-- A connection moves under a limiter that blocks no peer with a connection that can come to a
PAM conversation. -/
theorem LimitInv.conn (hc : s.conns[i]? = some c) (hpc : s.daemon.conns[i]? = some pc)
    (hself : pc'.mayPrompt = true → limiter.isBlocked s.clock c.peer = false)
    (hothers : ∀ peer j, j ≠ i → IsOf s.conns peer j → Holds mayPrompt s.daemon.conns j →
      limiter.isBlocked s.clock peer = false) :
    LimitInv { s with
      daemon := { manager := m', conns := s.daemon.conns.set i pc' }
      limiter
      conns := s.conns.set i { c with pam } } := by
  refine ⟨by simpa using hinv.aligned, fun peer j hof hmay => ?_⟩
  rw [isOf_set hc] at hof
  rcases (holds_set hpc).mp hmay with ⟨rfl, hpc'⟩ | ⟨hne, hmay⟩
  · rw [← (isOf_iff hc).mp hof]
    exact hself hpc'
  · exact hothers peer j hne hof hmay

/-- A connection that is let in has just been found unblocked. -/
theorem LimitInv.accept {w : Waiting P} {waiting : List (Waiting P)}
    (hfree : s.limiter.isBlocked s.clock w.peer = false) :
    LimitInv { s with
      daemon := { s.daemon with conns := s.daemon.conns ++ [.prompting] }
      waiting
      conns := s.conns ++ [{ peer := w.peer }] } := by
  refine ⟨by simpa using hinv.aligned, fun peer j hof hmay => ?_⟩
  by_cases hlt : j < s.conns.length
  · have hlt' : j < s.daemon.conns.length := hinv.aligned ▸ hlt
    rw [IsOf, Holds, List.getElem?_append_left hlt] at hof
    rw [Holds, List.getElem?_append_left hlt'] at hmay
    exact hinv.unblocked peer j hof hmay
  · have hlast : j = s.conns.length := by
      have := hof.lt
      simp only [List.length_append, List.length_singleton] at this
      omega
    have hlook : (s.conns ++ [{ peer := w.peer }])[j]? = some { peer := w.peer } := by
      rw [hlast, List.getElem?_concat_length]
    rw [← (isOf_iff hlook).mp hof]
    exact hfree

/-- A failed conversation: the connection that trips the limit does not prompt again, and the
condition speaks of the others. -/
theorem LimitInv.reject (hok : TripsAlone s (.reject i)) (hc : s.conns[i]? = some c)
    (hpc : s.daemon.conns[i]? = some pc) (hauth : pc.authenticating = true)
    (hmove : pc.step s.daemon.manager i (.fail !(s.limiter.recordFailure s.clock c.peer).2) = some (m', pc')) :
    LimitInv { s with
      daemon := { manager := m', conns := s.daemon.conns.set i pc' }
      limiter := (s.limiter.recordFailure s.clock c.peer).1
      conns := s.conns.set i { c with pam := .idle } } := by
  have hfree : s.limiter.isBlocked s.clock c.peer = false := hinv.unblocked _ i ((isOf_iff hc).mpr rfl)
      ((holds_iff hpc).mpr (authenticating_mayPrompt hauth))
  cases htrip : (s.limiter.recordFailure s.clock c.peer).2 with
  | false =>
    refine hinv.conn hc hpc (fun _ => ?_) (fun peer j _ hof hmay => ?_)
    · rw [isBlocked_recordFailure htrip, hfree]
    · rw [isBlocked_recordFailure htrip]
      exact hinv.unblocked peer j hof hmay
  | true =>
    rw [htrip] at hmove
    refine hinv.conn hc hpc (fun hpc' => ?_) (fun peer j hne hof hmay => ?_)
    · rw [mayPrompt_fail_false hmove hauth] at hpc'
      cases hpc'
    · have hpeer : peer ≠ c.peer := fun h => hok c hc htrip j hof.lt hne (h ▸ hof) hmay
      rw [isBlocked_recordFailure_ne hpeer]
      exact hinv.unblocked peer j hof hmay

theorem limitInv_step (hok : TripsAlone s e) (hstep : s.step e = some s') : LimitInv s' := by
  cases e with
  | tick =>
    cases hstep
    exact ⟨hinv.aligned, fun peer j hof hmay =>
      isBlocked_mono (Nat.le_succ _) (hinv.unblocked peer j hof hmay)⟩
  | connect peer =>
    cases hstep
    exact ⟨hinv.aligned, hinv.unblocked⟩
  | check k =>
    simp only [LoginServer.step] at hstep
    split at hstep
    · cases hstep
    · split at hstep
      · cases hstep
      · split at hstep
        · cases hstep
          exact ⟨hinv.aligned, hinv.unblocked⟩
        next hfree =>
          cases hstep
          exact hinv.accept (Bool.eq_false_iff.mpr hfree)
  | daemon e =>
    cases e with
    | accept => cases hstep
    | take =>
      cases hstep
      exact ⟨hinv.aligned, hinv.unblocked⟩
    | conn i action =>
      simp only [LoginServer.step] at hstep
      split at hstep
      next c pc hc hpc =>
        split at hstep
        · split at hstep <;> cases hstep
          rename_i d hd
          obtain ⟨pc₀, m', pc', hpc₀, hmove, rfl⟩ := Daemon.step_conn_pc hd
          cases Option.some.inj (hpc.symm.trans hpc₀)
          refine hinv.conn hc hpc (fun hpc' => ?_) (fun peer j _ => hinv.unblocked peer j)
          exact hinv.unblocked _ i ((isOf_iff hc).mpr rfl)
            ((holds_iff hpc).mpr (mayPrompt_of_step hmove hpc'))
        · cases hstep
      · cases hstep
  | start i =>
    simp only [LoginServer.step] at hstep
    split at hstep
    next c pc hc hpc =>
      split at hstep <;> cases hstep
      exact hinv.conversation hc (fun _ => rfl)
    · cases hstep
  | reject i =>
    simp only [LoginServer.step] at hstep
    split at hstep
    next c pc hc hpc =>
      split at hstep
      next hauth =>
        split at hstep <;> cases hstep
        rename_i d hd
        obtain ⟨pc₀, m', pc', hpc₀, hmove, rfl⟩ := Daemon.step_conn_pc hd
        cases Option.some.inj (hpc.symm.trans hpc₀)
        exact hinv.reject hok hc hpc (Bool.and_eq_true_iff.mp hauth).1 hmove
      · cases hstep
    · cases hstep
  | pass i =>
    simp only [LoginServer.step] at hstep
    split at hstep
    next c pc hc hpc =>
      split at hstep <;> cases hstep
      exact hinv.conversation hc (fun _ => isBlocked_recordSuccess)
    · cases hstep

theorem LimitInv.startsUnblocked : StartsUnblocked s e := by
  cases e with
  | start i =>
    intro hauth c hc
    exact hinv.unblocked c.peer i ((isOf_iff hc).mpr rfl) (hauth.mono fun _ => authenticating_mayPrompt)
  | _ => trivial

end

end Invariant

/-! ## The limit across connections -/

/-- `Shared` of a daemon that has just started, with its limits. -/
def LoginServer.new {P : Type u} (maxFailures cooldown : Nat) : LoginServer P where
  limiter := { maxFailures, cooldown, peers := .empty }

def maxLoginFailures : Nat := 3

def loginCooldown : Nat := 10

/-- In every run in which the limit is tripped only while no other connection of the peer can
come to a PAM conversation, no conversation is started for a blocked peer. -/
theorem pam_starts_unblocked {P : Type u} [DecidableEq P] (maxFailures cooldown : Nat)
    (es : List (LoginServerEvent P))
    (hok : Lts.Along LoginServer.step TripsAlone (.new maxFailures cooldown) es) :
    Lts.Along LoginServer.step StartsUnblocked (.new maxFailures cooldown) es := by
  have hinit : LimitInv (LoginServer.new (P := P) maxFailures cooldown) := ⟨rfl, nofun⟩
  exact Lts.along_of_along (fun _ _ _ => limitInv_step)
    (fun _ _ hinv _ => hinv.startsUnblocked) hinit hok

/-! ### Runs -/

/-- Connection `i` goes from its prompt to its PAM conversation. -/
def toPam (i : Nat) (name : String) : List (LoginServerEvent Nat) :=
  (toClaimSlot i name ++ [DaemonEvent.conn i .enter]).map .daemon

/-- A login of connection `i` that PAM refuses. -/
def failedLogin (i : Nat) (name : String) : List (LoginServerEvent Nat) :=
  toPam i name ++ [.start i, .reject i, .daemon (.conn i .enter)]

/-- Three failures on one connection: the limit is tripped by the only one the peer has. A new
connection of the peer waits for the end of the cooldown. -/
def patientRun : List (LoginServerEvent Nat) :=
  [.connect 7, .check 0] ++ failedLogin 0 "u" ++ failedLogin 0 "u" ++ failedLogin 0 "u" ++
    [.connect 7, .check 0] ++ List.replicate 10 .tick ++ [.check 0] ++ toPam 1 "u" ++ [.start 1]

theorem pam_starts_unblocked_patientRun :
    Lts.Along LoginServer.step TripsAlone (.new maxLoginFailures loginCooldown) patientRun ∧
      Lts.Along LoginServer.step StartsUnblocked (.new maxLoginFailures loginCooldown)
        patientRun := by
  have hok : Lts.Along LoginServer.step TripsAlone (.new maxLoginFailures loginCooldown)
      patientRun := by decide +kernel
  exact ⟨hok, pam_starts_unblocked maxLoginFailures loginCooldown patientRun hok⟩

/-- A second connection of the peer is at its prompt when the first one trips the limit, and
starts its own conversation at once. -/
theorem pam_starts_while_blocked :
    ¬ ∀ es : List (LoginServerEvent Nat),
      Lts.Along LoginServer.step StartsUnblocked (.new maxLoginFailures loginCooldown) es := by
  intro h
  have hrun := h ([.connect 7, .check 0, .connect 7, .check 0] ++ failedLogin 0 "u" ++
    failedLogin 0 "u" ++ failedLogin 0 "u" ++ toPam 1 "u" ++ [.start 1])
  exact absurd hrun (by decide +kernel)

end Rustcast.Hostd
