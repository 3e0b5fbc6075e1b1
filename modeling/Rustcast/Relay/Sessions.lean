import Rustcast.Core.Lts
import Rustcast.Core.OrderedMap
import Rustcast.Core.Parties

/-!
# The session registry of the relay

`sessionRegistry` of `sessions.go`, and the two goroutines of a WebTransport session that write
its entry: the setup in `handleWebTransport`, which adds the entry and then polls `sessionDone`,
and `releaseNow`, which removes the entry and then closes `sessionDone`. The release may be
triggered at any moment: by the transport, by a session that takes the machine over, by the
operator, or by a failure.

When the release removes the entry before the setup has added it, only the poll can notice, and
the poll finds `sessionDone` still open until the release is through.
-/

namespace Rustcast.Relay

/-! ## The registry -/

structure SessionInfo where
  id : String
  machineID : String
  osUser : String := ""
  osUID : Int := 0
  deriving DecidableEq

structure SessionEntry where
  info : SessionInfo
  /-- the session, by its position in `SessionRelay.sessions` -/
  sess : Nat
  deriving DecidableEq

abbrev SessionRegistry := OrderedMap String SessionEntry

namespace SessionRegistry

def add (r : SessionRegistry) (info : SessionInfo) (sess : Nat) : SessionRegistry :=
  r.set info.id { info, sess }

def remove (r : SessionRegistry) (id : String) : SessionRegistry := r.delete id

def setOSInfo (r : SessionRegistry) (id osUser : String) (osUID : Int) : SessionRegistry :=
  match r.get? id with
  | some entry => r.set id { entry with info := { entry.info with osUser, osUID } }
  | none => r

variable {r : SessionRegistry} {id id' : String} {info : SessionInfo}

theorem get?_add_of_ne {sess : Nat} (hne : id' ≠ info.id) : (r.add info sess).get? id' = r.get? id' := by
  rw [add, OrderedMap.get?_set, if_neg hne]

theorem get?_remove_self : (r.remove id).get? id = none := by
  rw [remove, OrderedMap.get?_delete, if_pos rfl]

theorem get?_remove_of_ne (hne : id' ≠ id) : (r.remove id).get? id' = r.get? id' := by
  rw [remove, OrderedMap.get?_delete, if_neg hne]

/-- `setOSInfo` neither adds nor removes an entry. -/
theorem get?_setOSInfo_eq_none {osUser : String} {osUID : Int} :
    (r.setOSInfo id osUser osUID).get? id' = none ↔ r.get? id' = none := by
  unfold setOSInfo
  split
  next entry hentry =>
    rw [OrderedMap.get?_set]
    by_cases heq : id' = id
    · subst heq
      rw [if_pos rfl, hentry]
      exact iff_of_false (Option.some_ne_none _) (Option.some_ne_none _)
    · rw [if_neg heq]
  · exact .rfl

end SessionRegistry

/-! ## Setup and release of a session -/

/-- Where `handleWebTransport` stands. -/
inductive RegistrationPc where
  /-- `newID` has returned -/
  | started
  /-- `session.release` is set -/
  | hooked
  | added
  /-- `sessionDone` is polled, the registration is complete -/
  | polled
  /-- the setup has failed before `sessions.add` -/
  | returned
  deriving DecidableEq

/-- Where `releaseNow` stands. -/
inductive SessionReleasePc where
  | idle
  /-- inside `releaseOnce`, before the call of `s.release` -/
  | begun
  /-- after the call of `s.release` -/
  | left
  /-- `sessionDone` is closed -/
  | closed
  deriving DecidableEq

structure WebSession where
  id : String
  machineID : String
  setup : RegistrationPc := .started
  /-- `session.release` is not nil -/
  hook : Bool := false
  release : SessionReleasePc := .idle
  deriving DecidableEq

structure SessionRelay where
  registry : SessionRegistry := .empty
  sessions : List WebSession := []

inductive SessionEvent where
  /-- a session gets its random id -/
  | newID (id machineID : String)
  | setHook (i : Nat)
  /-- the setup fails and returns -/
  | fail (i : Nat)
  | add (i : Nat)
  | poll (i : Nat)
  /-- the first call of `releaseNow` -/
  | releaseNow (i : Nat)
  /-- `releaseNow` calls `s.release` -/
  | runHook (i : Nat)
  | close (i : Nat)
  | setOSInfo (id osUser : String) (osUID : Int)
  deriving DecidableEq

namespace SessionRelay

def setSession (s : SessionRelay) (i : Nat) (x : WebSession) : SessionRelay :=
  { s with sessions := s.sessions.set i x }

/-- A step of session `i`, which is there and at a point where it can take it. -/
def whenSession (s : SessionRelay) (i : Nat) (p : WebSession → Prop) [DecidablePred p]
    (f : WebSession → SessionRelay) : Option SessionRelay :=
  match s.sessions[i]? with
  | some x => if p x then some (f x) else none
  | none => none

def step (s : SessionRelay) : SessionEvent → Option SessionRelay
  | .newID id machineID =>
    -- 128 random bits: no id comes twice
    if id ∈ s.sessions.map (·.id) then none
    else some { s with sessions := s.sessions ++ [{ id, machineID }] }
  | .setHook i => s.whenSession i (·.setup = .started) fun x =>
      s.setSession i { x with setup := .hooked, hook := true }
  | .fail i => s.whenSession i (fun x => x.setup = .started ∨ x.setup = .hooked) fun x =>
      s.setSession i { x with setup := .returned }
  | .add i => s.whenSession i (·.setup = .hooked) fun x =>
      { s.setSession i { x with setup := .added } with
        registry := s.registry.add { id := x.id, machineID := x.machineID } i }
  -- the setup looks at `sessionDone`, which the release closes last
  | .poll i => s.whenSession i (·.setup = .added) fun x =>
      { s.setSession i { x with setup := .polled } with
        registry := if x.release = .closed then s.registry.remove x.id else s.registry }
  | .releaseNow i => s.whenSession i (·.release = .idle) fun x =>
      s.setSession i { x with release := .begun }
  -- without the hook the release has no entry to remove
  | .runHook i => s.whenSession i (·.release = .begun) fun x =>
      { s.setSession i { x with release := .left } with
        registry := if x.hook then s.registry.remove x.id else s.registry }
  | .close i => s.whenSession i (·.release = .left) fun x =>
      s.setSession i { x with release := .closed }
  | .setOSInfo id osUser osUID =>
    some { s with registry := s.registry.setOSInfo id osUser osUID }

variable {s s' : SessionRelay} {i : Nat} {p : WebSession → Prop} [DecidablePred p]
  {f : WebSession → SessionRelay}

theorem whenSession_eq_some (h : s.whenSession i p f = some s') :
    ∃ x, s.sessions[i]? = some x ∧ p x ∧ s' = f x := by
  unfold whenSession at h
  split at h
  next x hx =>
    split at h <;> cases h
    exact ⟨x, hx, ‹_›, rfl⟩
  · cases h

end SessionRelay

/-! ## The statement -/

/-- The registration steps of the setup are over. -/
def RegistrationPc.finished : RegistrationPc → Bool
  | .polled | .returned => true
  | .started | .hooked | .added => false

/-- A session whose setup and release have both finished has no entry. -/
def NoGhost (s : SessionRelay) : Prop :=
  ∀ x ∈ s.sessions, x.setup.finished = true → x.release = .closed → s.registry.get? x.id = none

/-- The condition on a step: no poll between the removal and the end of a release that finds the
entry in the registry. -/
def PollsCleared (s : SessionRelay) : SessionEvent → Prop
  | .poll i => ∀ x ∈ s.sessions[i]?, x.release = .left → s.registry.get? x.id = none
  | _ => True

instance (s : SessionRelay) : Decidable (NoGhost s) :=
  inferInstanceAs (Decidable (∀ x ∈ s.sessions, _))

instance (s : SessionRelay) (e : SessionEvent) : Decidable (PollsCleared s e) := by
  unfold PollsCleared
  split <;> infer_instance

/-! ## The invariant -/

/-- The setup has set the hook and has not failed. -/
def RegistrationPc.hasHook : RegistrationPc → Bool
  | .hooked | .added | .polled => true
  | .started | .returned => false

def RegistrationPc.hasAdded : RegistrationPc → Bool
  | .added | .polled => true
  | .started | .hooked | .returned => false

/-- The release is past the removal of the entry. -/
def SessionReleasePc.hasLeft : SessionReleasePc → Bool
  | .left | .closed => true
  | .idle | .begun => false

/-- What holds of one session: the entry is there only if it was added, and not any more if the
registration is complete and the release past its removal. -/
structure Clean (registry : SessionRegistry) (x : WebSession) : Prop where
  hook : x.setup.hasHook = true → x.hook = true
  unadded : x.setup.hasAdded = false → registry.get? x.id = none
  left : x.setup = .polled → x.release.hasLeft = true → registry.get? x.id = none

/-- Whether there is an entry for the id of the session is all that matters. -/
theorem Clean.congr {registry registry' : SessionRegistry} {x : WebSession}
    (h : Clean registry x) (hsame : registry'.get? x.id = none ↔ registry.get? x.id = none) :
    Clean registry' x :=
  ⟨h.hook, fun hsetup => hsame.mpr (h.unadded hsetup), fun hsetup hleft => hsame.mpr (h.left hsetup hleft)⟩

structure SessionsInv (s : SessionRelay) : Prop where
  clean : ∀ x ∈ s.sessions, Clean s.registry x
  ids : (s.sessions.map (·.id)).Nodup
  owned : ∀ id, s.registry.get? id ≠ none → id ∈ s.sessions.map (·.id)

section Steps

variable {s s' : SessionRelay} {e : SessionEvent} {registry : SessionRegistry} {i : Nat}
  {x x' : WebSession}

section

variable (h : SessionsInv s)

include h

theorem SessionsInv.move (hx : s.sessions[i]? = some x) (hid : x'.id = x.id)
    (hothers : ∀ id, id ≠ x.id → registry.get? id = s.registry.get? id) (hclean : Clean registry x') :
    SessionsInv { registry, sessions := s.sessions.set i x' } := by
  have hids : (s.sessions.set i x').map (·.id) = s.sessions.map (·.id) := Parties.map_set_same hx hid
  constructor
  · intro y hy
    obtain ⟨j, hj⟩ := List.mem_iff_getElem?.mp hy
    by_cases hji : j = i
    · subst hji
      rw [List.getElem?_set_self (List.getElem?_eq_some_iff.mp hx).1] at hj
      cases hj
      exact hclean
    · -- another session has another id
      rw [List.getElem?_set_ne (.symm hji)] at hj
      have hne : y.id ≠ x.id := fun heq => hji (Parties.eq_of_key_eq h.ids hj hx heq)
      refine (h.clean y (List.mem_of_getElem? hj)).congr ?_
      rw [hothers y.id hne]
  · rw [hids]
    exact h.ids
  · intro id hentry
    rw [hids]
    by_cases heq : id = x.id
    · rw [heq]
      exact List.mem_map_of_mem (List.mem_of_getElem? hx)
    · rw [hothers id heq] at hentry
      exact h.owned id hentry

theorem SessionsInv.setSession (hx : s.sessions[i]? = some x) (hid : x'.id = x.id)
    (hclean : Clean s.registry x') : SessionsInv (s.setSession i x') :=
  h.move hx hid (fun _ _ => rfl) hclean

theorem SessionsInv.newID {id machineID : String} (hfresh : id ∉ s.sessions.map (·.id)) :
    SessionsInv { s with sessions := s.sessions ++ [{ id, machineID }] } := by
  have hnone : s.registry.get? id = none := Classical.not_not.mp fun hentry => hfresh (h.owned id hentry)
  constructor
  · intro y hy
    rcases List.mem_append.mp hy with hy | hy
    · exact h.clean y hy
    · cases List.mem_singleton.mp hy
      exact ⟨nofun, fun _ => hnone, nofun⟩
  · rw [List.map_append]
    refine h.ids.append (List.nodup_singleton id) ?_
    intro id' hmem hmem'
    cases List.mem_singleton.mp hmem'
    exact hfresh hmem
  · intro id' hentry
    rw [List.map_append]
    exact List.mem_append_left _ (h.owned id' hentry)

namespace SessionsInv

variable (hx : s.sessions[i]? = some x)

include hx

theorem add (hsetup : x.setup = .hooked) :
    SessionsInv { s.setSession i { x with setup := .added } with
      registry := s.registry.add { id := x.id, machineID := x.machineID } i } := by
  have hclean := h.clean x (List.mem_of_getElem? hx)
  refine h.move hx rfl (fun id hne => SessionRegistry.get?_add_of_ne hne) ⟨fun _ => ?_, nofun, nofun⟩
  exact hclean.hook (by rw [hsetup]; rfl)

/-- The poll: if the release is through, the setup removes the entry itself. -/
theorem poll (hsetup : x.setup = .added) (hok : PollsCleared s (.poll i)) :
    SessionsInv { s.setSession i { x with setup := .polled } with
      registry := if x.release = .closed then s.registry.remove x.id else s.registry } := by
  have hclean := h.clean x (List.mem_of_getElem? hx)
  have hhook : x.hook = true := hclean.hook (by rw [hsetup]; rfl)
  refine h.move hx rfl ?_ ⟨fun _ => hhook, nofun, fun _ hleft => ?_⟩
  · intro id hne
    split
    · exact SessionRegistry.get?_remove_of_ne hne
    · rfl
  · split
    · exact SessionRegistry.get?_remove_self
    next hopen =>
      have hreleasing : x.release = .left := by
        cases hrelease : x.release with
        | idle | begun => simp [hrelease, SessionReleasePc.hasLeft] at hleft
        | left => rfl
        | closed => exact absurd hrelease hopen
      exact hok x hx hreleasing

/-- The release calls the hook, which is set for every session that has added its entry. -/
theorem runHook :
    SessionsInv { s.setSession i { x with release := .left } with
      registry := if x.hook then s.registry.remove x.id else s.registry } := by
  have hclean := h.clean x (List.mem_of_getElem? hx)
  have hnone : OrderedMap.get? (if x.hook then s.registry.remove x.id else s.registry) x.id = none ∨
      x.hook = false := by
    cases x.hook with
    | true => exact .inl SessionRegistry.get?_remove_self
    | false => exact .inr rfl
  refine h.move hx rfl ?_ ⟨hclean.hook, fun hunadded => ?_, fun hpolled _ => ?_⟩
  · intro id hne
    split
    · exact SessionRegistry.get?_remove_of_ne hne
    · rfl
  · rcases hnone with hnone | hunset
    · exact hnone
    · simp only [hunset]
      exact hclean.unadded hunadded
  · rcases hnone with hnone | hunset
    · exact hnone
    · have hset := hclean.hook (by rw [hpolled]; rfl)
      rw [hunset] at hset
      cases hset

end SessionsInv

theorem SessionsInv.setOSInfo (id osUser : String) (osUID : Int) :
    SessionsInv { s with registry := s.registry.setOSInfo id osUser osUID } :=
  ⟨fun x hx => (h.clean x hx).congr SessionRegistry.get?_setOSInfo_eq_none, h.ids,
    fun id' hentry => h.owned id' fun hnone =>
      hentry (SessionRegistry.get?_setOSInfo_eq_none.mpr hnone)⟩

theorem sessionsInv_step (hok : PollsCleared s e) (hstep : s.step e = some s') : SessionsInv s' := by
  cases e with
  | newID id machineID =>
    simp only [SessionRelay.step] at hstep
    split at hstep <;> cases hstep
    exact h.newID ‹_›
  | setOSInfo id osUser osUID =>
    cases hstep
    exact h.setOSInfo id osUser osUID
  | setHook i =>
    obtain ⟨x, hx, hsetup, rfl⟩ := SessionRelay.whenSession_eq_some hstep
    have hclean := h.clean x (List.mem_of_getElem? hx)
    have hnone : s.registry.get? x.id = none := hclean.unadded (by rw [hsetup]; rfl)
    exact h.setSession hx rfl ⟨fun _ => rfl, fun _ => hnone, nofun⟩
  | fail i =>
    obtain ⟨x, hx, hsetup, rfl⟩ := SessionRelay.whenSession_eq_some hstep
    have hclean := h.clean x (List.mem_of_getElem? hx)
    have hnone : s.registry.get? x.id = none :=
      hclean.unadded (by rcases hsetup with hsetup | hsetup <;> rw [hsetup] <;> rfl)
    exact h.setSession hx rfl ⟨nofun, fun _ => hnone, nofun⟩
  | add i =>
    obtain ⟨x, hx, hsetup, rfl⟩ := SessionRelay.whenSession_eq_some hstep
    exact h.add hx hsetup
  | poll i =>
    obtain ⟨x, hx, hsetup, rfl⟩ := SessionRelay.whenSession_eq_some hstep
    exact h.poll hx hsetup hok
  | releaseNow i =>
    obtain ⟨x, hx, -, rfl⟩ := SessionRelay.whenSession_eq_some hstep
    have hclean := h.clean x (List.mem_of_getElem? hx)
    exact h.setSession hx rfl ⟨hclean.hook, hclean.unadded, nofun⟩
  | runHook i =>
    obtain ⟨x, hx, -, rfl⟩ := SessionRelay.whenSession_eq_some hstep
    exact h.runHook hx
  | close i =>
    obtain ⟨x, hx, hleft, rfl⟩ := SessionRelay.whenSession_eq_some hstep
    have hclean := h.clean x (List.mem_of_getElem? hx)
    refine h.setSession hx rfl ⟨hclean.hook, hclean.unadded, fun hpolled _ => ?_⟩
    exact hclean.left hpolled (by rw [hleft]; rfl)

end

end Steps

/-! ## No ghosts -/

theorem SessionsInv.noGhost {s : SessionRelay} (h : SessionsInv s) : NoGhost s := by
  intro x hx hfinished hclosed
  have hclean := h.clean x hx
  cases hsetup : x.setup with
  | started | hooked | added => simp [hsetup, RegistrationPc.finished] at hfinished
  | polled => exact hclean.left hsetup (by rw [hclosed]; rfl)
  | returned => exact hclean.unadded (by rw [hsetup]; rfl)

/-- In every run in which no poll finds its entry between the removal and the end of the release,
a session whose setup and release have finished has no entry in the registry. -/
theorem no_ghost_sessions (es : List SessionEvent)
    (hok : Lts.Along SessionRelay.step PollsCleared {} es) :
    Lts.Throughout SessionRelay.step NoGhost {} es := by
  have hinit : SessionsInv {} := ⟨nofun, List.nodup_nil, fun _ => absurd rfl⟩
  have hinv : Lts.Throughout SessionRelay.step SessionsInv {} es :=
    Lts.throughout_of_along (fun _ _ _ => sessionsInv_step) hinit hok
  exact hinv.mono fun _ h => h.noGhost

/-- Two sessions: the first is released before it has added its entry, and the poll notices; the
second is released after its registration. -/
def releasedEarlyRun : List SessionEvent :=
  [.newID "a" "m", .setHook 0, .releaseNow 0, .runHook 0, .add 0, .close 0, .poll 0,
    .newID "b" "m", .setHook 1, .add 1, .poll 1, .releaseNow 1, .runHook 1, .close 1]

theorem no_ghost_sessions_releasedEarlyRun :
    Lts.Along SessionRelay.step PollsCleared {} releasedEarlyRun ∧
      Lts.Throughout SessionRelay.step NoGhost {} releasedEarlyRun := by
  have hok : Lts.Along SessionRelay.step PollsCleared {} releasedEarlyRun := by decide +kernel
  exact ⟨hok, no_ghost_sessions releasedEarlyRun hok⟩

/-- The transport closes while the session is set up: the release removes the entry before it is
added, and closes `sessionDone` after the poll. -/
theorem ghost_session : ¬ ∀ es : List SessionEvent, Lts.Throughout SessionRelay.step NoGhost {} es := by
  intro h
  have hrun := h [.newID "a" "m", .setHook 0, .releaseNow 0, .runHook 0, .add 0, .poll 0, .close 0]
  exact absurd hrun (by decide +kernel)

end Rustcast.Relay
