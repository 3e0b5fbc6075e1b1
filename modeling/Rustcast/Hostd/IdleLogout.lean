import Rustcast.Hostd.Session

/-!
# The idle logout

When a proxy ends normally, `handle_connection` calls `schedule_idle_logout` and then `lock`.
The scheduled task sleeps for the idle timeout and logs the session out if the generation of
the manager is the one it sampled and the session is locked.

`IdleDaemon` adds a clock and the scheduled tasks to `Daemon`. A task is one step per atomic
access: the load of the generation, the two sections of `state`, and `take`. The sample is
taken before `lock` and `lock` advances the generation, so the two cannot agree once the
connection has locked its session.
-/

namespace Rustcast.Hostd

open Parties SessionManager

/-! ## The timer task -/

/-- Where the task of `schedule_idle_logout` stands. -/
inductive TimerPc where
  | asleep
  /-- the generation is the sampled one -/
  | matched
  /-- the first section of `state` has found no claim -/
  | unclaimed
  /-- `state` has answered `Locked` -/
  | found
  | done (loggedOut : Bool)
  deriving DecidableEq

/-- What became of the call of `lock` that follows `schedule_idle_logout`. -/
inductive OwnLock where
  | pending
  /-- there was no session to lock -/
  | missed
  | locked
  deriving DecidableEq

structure IdleTimer where
  /-- the connection that has scheduled the task -/
  owner : Nat
  sampled : Nat
  deadline : Nat
  pc : TimerPc := .asleep
  own : OwnLock := .pending
  /-- a lock, attach or take other than the owner's `lock` has happened since -/
  disturbed : Bool := false
  deriving DecidableEq

namespace IdleTimer

/-- One step of the task. -/
def step (clock : Nat) (m : SessionManager) (t : IdleTimer) : Option (SessionManager × TimerPc) :=
  match t.pc with
  | .asleep =>
    if clock < t.deadline then none
    else some (m, if m.generation = t.sampled then .matched else .done false)
  | .matched => some (m, if m.stateClaim.isSome then .done false else .unclaimed)
  | .unclaimed =>
    match m.stateInner with
    | .locked _ => some (m, .found)
    | _ => some (m, .done false)
  | .found => some (m.take, .done m.inner.isSome)
  | .done _ => none

/-- `lock` of the connection `caller` is the one this task was scheduled with. -/
def awaits (t : IdleTimer) (caller : Option Nat) : Bool :=
  caller == some t.owner && t.own == .pending

/-- What a change of the manager means to the task, `caller` the connection that has called
`lock`, if that is what happened. -/
def observe (m m' : SessionManager) (caller : Option Nat) (t : IdleTimer) : IdleTimer :=
  if t.awaits caller then
    { t with own := if m'.generation = m.generation then .missed else .locked }
  else { t with disturbed := t.disturbed || m'.generation != m.generation }

end IdleTimer

/-! ## The daemon with its timers -/

structure IdleDaemon where
  daemon : Daemon := {}
  clock : Nat := 0
  timers : List IdleTimer := []
  deriving DecidableEq

inductive IdleEvent where
  | tick
  /-- a step of the daemon itself -/
  | daemon (e : DaemonEvent)
  /-- the connection, whose proxy has ended normally, calls `schedule_idle_logout` -/
  | schedule (i : Nat)
  | timer (k : Nat)
  deriving DecidableEq

/-- The connection that calls `lock` with this event. -/
def Daemon.lockCaller (d : Daemon) : DaemonEvent → Option Nat
  | .conn i .enter =>
    match d.conns[i]? with
    | some (.locking _) => some i
    | _ => none
  | _ => none

/-- A lock command ends the proxy without an error, so its `lock` comes after
`schedule_idle_logout`. A disconnect may be an error, and then the call is skipped. -/
def Daemon.schedulesFirst (d : Daemon) : DaemonEvent → Bool
  | .conn i .enter => d.conns[i]? == some (.locking true)
  | _ => false

namespace IdleDaemon

/-- The connection has called `schedule_idle_logout` and not yet `lock`. -/
def scheduled (s : IdleDaemon) (caller : Option Nat) : Bool := s.timers.any (·.awaits caller)

def step (timeout : Nat) (s : IdleDaemon) : IdleEvent → Option IdleDaemon
  | .tick => some { s with clock := s.clock + 1 }
  | .daemon e =>
    let caller := s.daemon.lockCaller e
    if timeout != 0 && s.daemon.schedulesFirst e && !s.scheduled caller then none
    else
      match s.daemon.step e with
      | none => none
      | some d => some { s with
          daemon := d
          timers := s.timers.map (.observe s.daemon.manager d.manager caller) }
  | .schedule i =>
    match s.daemon.conns[i]? with
    | some (.locking _) =>
      if timeout = 0 ∨ s.scheduled (some i) then none
      else some { s with timers := s.timers ++ [{
          owner := i
          sampled := s.daemon.manager.generation
          deadline := s.clock + timeout }] }
    | _ => none
  | .timer k =>
    match s.timers[k]? with
    | none => none
    | some t =>
      match t.step s.clock s.daemon.manager with
      | none => none
      | some (m, pc) => some { s with
          daemon := { s.daemon with manager := m }
          timers := (s.timers.map (.observe s.daemon.manager m none)).set k { t with pc } }

end IdleDaemon

/-- A task that nothing disturbed does not end without a logout. -/
def LogsOut (s : IdleDaemon) : Prop :=
  ∀ t ∈ s.timers, t.disturbed = false → t.pc ≠ .done false

/-- What the next step of a task needs to find: it compares the generation before its connection
has locked the session, the claim slot is empty, the session is locked. -/
def IdleTimer.Finds (clock : Nat) (m : SessionManager) (t : IdleTimer) : Prop :=
  match t.pc with
  | .asleep => t.deadline ≤ clock → t.own ≠ .locked
  | .matched => m.claim = none
  | .unclaimed => m.inner.any (·.locked) = true
  | .found | .done _ => True

/-- The condition on a step: an undisturbed task finds what it needs. -/
def FindsLocked (s : IdleDaemon) : IdleEvent → Prop
  | .timer k => ∀ t ∈ s.timers[k]?, t.disturbed = false → t.Finds s.clock s.daemon.manager
  | _ => True

instance (s : IdleDaemon) : Decidable (LogsOut s) := inferInstanceAs (Decidable (∀ _ ∈ _, _))

open IdleDaemon

/-! ## What a step does to the manager -/

variable {m m' : SessionManager} {i k : Nat} {pc pc' : LoginPc} {action : LoginAction}

theorem SessionManager.lock_generation (m : SessionManager) :
    m.generation ≤ m.lock.generation ∧ m.lock.generation ≤ m.generation + 1 := by
  unfold lock
  split <;> simp

theorem SessionManager.tryAttach_generation {user : String} (h : m.tryAttach user = some m') :
    m'.generation = m.generation + 1 := by
  unfold tryAttach at h
  split at h
  · split at h <;> cases h
    rfl
  · cases h

/-- The generation never goes back, and a connection advances it by one at most. -/
theorem LoginMove.generation (hmove : LoginMove m i pc action m' pc') :
    m.generation ≤ m'.generation ∧ m'.generation ≤ m.generation + 1 := by
  cases hmove with
  | attach hattach =>
    rw [tryAttach_generation hattach]
    omega
  | lock again => exact m.lock_generation
  | _ => exact ⟨Nat.le_refl _, Nat.le_succ _⟩

theorem LoginMove.inner_ne_none (hmove : LoginMove m i pc action m' pc') (h : m.inner ≠ none) :
    m'.inner ≠ none := by
  cases hmove with
  | install user => exact nofun
  | attach hattach =>
    obtain ⟨-, -, hactive, -⟩ := tryAttach_eq_some hattach
    rw [isActive] at hactive
    intro hnone
    rw [hnone] at hactive
    cases hactive
  | lock again =>
    rw [lock_inner]
    simpa using h
  | _ => exact h

/-- A step of the daemon moves the generation forward; if it leaves it alone or is a call of
`lock`, it keeps the session. -/
theorem Daemon.step_manager {d d' : Daemon} {e : DaemonEvent} (hstep : d.step e = some d') :
    d.manager.generation ≤ d'.manager.generation ∧
      d'.manager.generation ≤ d.manager.generation + 1 ∧
      (d'.manager.generation = d.manager.generation ∨ d.lockCaller e ≠ none →
        d.manager.inner ≠ none → d'.manager.inner ≠ none) := by
  cases e with
  | accept =>
    cases hstep
    exact ⟨Nat.le_refl _, Nat.le_succ _, fun _ h => h⟩
  | take =>
    cases hstep
    refine ⟨Nat.le_succ _, Nat.le_refl _, ?_⟩
    rintro (h | h)
    · exact absurd h (Nat.succ_ne_self _)
    · exact absurd rfl h
  | conn i action =>
    obtain ⟨pc, m', pc', -, hmove, rfl⟩ := Daemon.step_conn hstep
    exact ⟨hmove.generation.1, hmove.generation.2, fun _ => hmove.inner_ne_none⟩

theorem SessionManager.stateInner_locked_iff (m : SessionManager) :
    (∃ user, m.stateInner = .locked user) ↔ m.inner.any (·.locked) = true := by
  unfold stateInner
  cases m.inner with
  | none => simp
  | some session => cases hlocked : session.locked <;> simp [hlocked]

/-! ## The invariant -/

/-- A task that nothing disturbed has not given up. While it sleeps, the generation is the
sampled one until its connection locks the session; once `state` has answered `Locked`, there
is a session. -/
structure IdleTimer.Sound (m : SessionManager) (t : IdleTimer) : Prop where
  kept : t.pc ≠ .done false
  generation : t.pc = .asleep → m.generation = t.sampled + if t.own = .locked then 1 else 0
  session : t.pc = .found → m.inner ≠ none

def TimersSound (s : IdleDaemon) : Prop :=
  ∀ t ∈ s.timers, t.disturbed = false → t.Sound s.daemon.manager

variable {t : IdleTimer} {clock : Nat} {tpc : TimerPc}

variable {e : IdleEvent} {caller : Option Nat}

theorem IdleTimer.awaits_iff : t.awaits caller = true ↔ caller = some t.owner ∧ t.own = .pending := by
  simp [awaits]

/-- A change of the manager that does not disturb a task leaves it sound. -/
theorem IdleTimer.Sound.observe (hle : m.generation ≤ m'.generation)
    (hsucc : m'.generation ≤ m.generation + 1)
    (hkept : m'.generation = m.generation ∨ caller ≠ none → m.inner ≠ none → m'.inner ≠ none)
    (hsound : t.disturbed = false → t.Sound m) (hcalm : (t.observe m m' caller).disturbed = false) :
    (t.observe m m' caller).Sound m' := by
  unfold IdleTimer.observe at hcalm ⊢
  by_cases hawaits : t.awaits caller = true
  · obtain ⟨hcaller, hpending⟩ := IdleTimer.awaits_iff.mp hawaits
    rw [if_pos hawaits] at hcalm ⊢
    have h := hsound hcalm
    refine ⟨h.kept, fun hasleep => ?_, fun hfound => ?_⟩
    · have hgen := h.generation hasleep
      rw [hpending] at hgen
      by_cases hsame : m'.generation = m.generation
      · simpa [hsame] using hgen
      · simp only [hsame, if_false, if_true]
        simp only [reduceCtorEq, if_false] at hgen
        omega
    · exact hkept (.inr (hcaller ▸ nofun)) (h.session hfound)
  · rw [if_neg hawaits] at hcalm ⊢
    obtain ⟨hcalm, hsame⟩ := Bool.or_eq_false_iff.mp hcalm
    have hsame : m'.generation = m.generation := by simpa using hsame
    have h := hsound hcalm
    exact ⟨h.kept, hsame ▸ h.generation, fun hfound => hkept (.inl hsame) (h.session hfound)⟩

/-- A sound task gives up exactly if it does not find what it needs. -/
theorem IdleTimer.Sound.step_kept_iff (hsound : t.Sound m)
    (hstep : t.step clock m = some (m', tpc)) : tpc ≠ .done false ↔ t.Finds clock m := by
  unfold IdleTimer.step at hstep
  unfold IdleTimer.Finds
  split at hstep
  next hpc =>
    split at hstep <;> cases hstep
    rename_i hdue
    have hgen := hsound.generation hpc
    by_cases hown : t.own = .locked
    · have hne : ¬ m.generation = t.sampled := by
        rw [if_pos hown] at hgen
        omega
      rw [if_neg hne]
      exact iff_of_false (fun h => h rfl) (fun h => h (Nat.le_of_not_lt hdue) hown)
    · rw [if_neg hown, Nat.add_zero] at hgen
      rw [if_pos hgen]
      exact iff_of_true nofun (fun _ => hown)
  · cases hstep
    simp only [stateClaim, Option.isSome_map]
    cases m.claim with
    | none => exact iff_of_true nofun rfl
    | some c => exact iff_of_false (fun h => h rfl) nofun
  · simp only [← m.stateInner_locked_iff]
    split at hstep
    next user hlocked =>
      cases hstep
      exact iff_of_true nofun ⟨user, hlocked⟩
    next hother =>
      cases hstep
      exact iff_of_false (fun h => h rfl) (fun ⟨user, h⟩ => hother user h)
  next hpc =>
    cases hstep
    have hsome : m.inner.isSome = true := Option.isSome_iff_ne_none.mpr (hsound.session hpc)
    simp [hsome]
  · cases hstep

/-- A step of a task that does not give up leaves it sound: it is awake, and it has seen the
session if it says so. -/
theorem IdleTimer.step_sound (hstep : t.step clock m = some (m', tpc))
    (hkept : tpc ≠ .done false) : IdleTimer.Sound m' { t with pc := tpc } := by
  unfold IdleTimer.step at hstep
  split at hstep
  · split at hstep <;> cases hstep
    refine ⟨hkept, ?_, ?_⟩
    all_goals
      intro h
      split at h <;> cases h
  · cases hstep
    refine ⟨hkept, ?_, ?_⟩
    all_goals
      intro h
      split at h <;> cases h
  · split at hstep
    next user hlocked =>
      cases hstep
      refine ⟨nofun, nofun, fun _ hnone => ?_⟩
      rw [stateInner, hnone] at hlocked
      cases hlocked
    · cases hstep
      exact absurd rfl hkept
  · cases hstep
    exact ⟨hkept, nofun, nofun⟩
  · cases hstep

theorem IdleTimer.step_manager (hstep : t.step clock m = some (m', tpc)) : m' = m ∨ m' = m.take := by
  unfold IdleTimer.step at hstep
  split at hstep
  · split at hstep <;> cases hstep
    exact .inl rfl
  · cases hstep
    exact .inl rfl
  · split at hstep <;> cases hstep
    all_goals exact .inl rfl
  · cases hstep
    exact .inr rfl
  · cases hstep

/-! ## Steps of the whole daemon -/

variable {timeout : Nat} {s s' : IdleDaemon}

theorem IdleDaemon.step_daemon {e : DaemonEvent} (hstep : s.step timeout (.daemon e) = some s') :
    ∃ d, s.daemon.step e = some d ∧
      s' = { s with
        daemon := d
        timers := s.timers.map (.observe s.daemon.manager d.manager (s.daemon.lockCaller e)) } := by
  simp only [step] at hstep
  split at hstep
  · cases hstep
  · split at hstep <;> cases hstep
    rename_i d hd
    exact ⟨d, hd, rfl⟩

theorem IdleDaemon.step_schedule (hstep : s.step timeout (.schedule i) = some s') :
    s' = { s with timers := s.timers ++ [{
      owner := i
      sampled := s.daemon.manager.generation
      deadline := s.clock + timeout }] } := by
  simp only [step] at hstep
  split at hstep
  · split at hstep <;> cases hstep
    rfl
  · cases hstep

theorem IdleDaemon.step_timer (hstep : s.step timeout (.timer k) = some s') :
    ∃ t m pc, s.timers[k]? = some t ∧ t.step s.clock s.daemon.manager = some (m, pc) ∧
      s' = { s with
        daemon := { s.daemon with manager := m }
        timers := (s.timers.map (.observe s.daemon.manager m none)).set k { t with pc } } := by
  simp only [step] at hstep
  split at hstep
  · cases hstep
  next t ht =>
    split at hstep <;> cases hstep
    rename_i m pc hmove
    exact ⟨t, m, pc, ht, hmove, rfl⟩

/-- The tasks that only look on stay sound when another task moves: its `take` disturbs them. -/
theorem IdleTimer.Sound.observe_timer {u : IdleTimer} (hstep : u.step clock m = some (m', tpc))
    (hsound : t.disturbed = false → t.Sound m)
    (hcalm : (t.observe m m' none).disturbed = false) : (t.observe m m' none).Sound m' := by
  rcases IdleTimer.step_manager hstep with rfl | rfl
  · exact .observe (Nat.le_refl _) (Nat.le_succ _) (fun _ h => h) hsound hcalm
  · refine .observe (Nat.le_succ _) (Nat.le_refl _) ?_ hsound hcalm
    rintro (h | h)
    · exact absurd h (Nat.succ_ne_self _)
    · exact absurd rfl h

theorem timersSound_step (hinv : TimersSound s) (hok : FindsLocked s e) (hstep : s.step timeout e = some s') :
    TimersSound s' := by
  cases e with
  | tick =>
    cases hstep
    exact hinv
  | daemon e =>
    obtain ⟨d, hd, rfl⟩ := step_daemon hstep
    obtain ⟨hle, hsucc, hkept⟩ := Daemon.step_manager hd
    intro t' ht'
    obtain ⟨t, ht, rfl⟩ := List.mem_map.mp ht'
    exact .observe hle hsucc hkept (hinv t ht)
  | schedule i =>
    cases step_schedule hstep
    intro t ht hcalm
    rcases List.mem_append.mp ht with ht | ht
    · exact hinv t ht hcalm
    · cases List.mem_singleton.mp ht
      exact ⟨nofun, fun _ => rfl, nofun⟩
  | timer k =>
    obtain ⟨t, m, pc, ht, hmove, rfl⟩ := step_timer hstep
    intro t' ht' hcalm
    rcases List.mem_or_eq_of_mem_set ht' with ht' | rfl
    · obtain ⟨u, hu, rfl⟩ := List.mem_map.mp ht'
      exact .observe_timer hmove (hinv u hu) hcalm
    · have hsound : t.Sound s.daemon.manager := hinv t (List.mem_of_getElem? ht) hcalm
      exact IdleTimer.step_sound hmove ((hsound.step_kept_iff hmove).mpr (hok t ht hcalm))

theorem findsLocked_of_logsOut (hinv : TimersSound s) (hstep : s.step timeout e = some s')
    (hout : LogsOut s') : FindsLocked s e := by
  cases e with
  | tick | daemon _ | schedule _ => trivial
  | timer k =>
    obtain ⟨t, m, pc, ht, hmove, rfl⟩ := step_timer hstep
    intro u hu hcalm
    cases Option.some.inj (ht.symm.trans hu)
    have hsound : t.Sound s.daemon.manager := hinv t (List.mem_of_getElem? ht) hcalm
    have hlt : k < (s.timers.map (IdleTimer.observe s.daemon.manager m none)).length := by
      rw [List.length_map]
      exact (List.getElem?_eq_some_iff.mp ht).1
    exact (hsound.step_kept_iff hmove).mp (hout _ (List.mem_set hlt _) hcalm)

/-- A task that cannot move is asleep or done, and nothing is asked of it. -/
theorem findsLocked_of_none (hstep : s.step timeout e = none) : FindsLocked s e := by
  cases e with
  | tick | daemon _ | schedule _ => trivial
  | timer k =>
    intro t ht _
    have hstuck : t.step s.clock s.daemon.manager = none := by
      simp only [step, Option.mem_def.mp ht] at hstep
      split at hstep
      · assumption
      · cases hstep
    unfold IdleTimer.step at hstuck
    unfold IdleTimer.Finds
    split at hstuck
    · split at hstuck
      next hearly =>
        exact fun hdue => absurd hearly (Nat.not_lt.mpr hdue)
      · cases hstuck
    · cases hstuck
    · split at hstuck <;> cases hstuck
    · trivial
    · trivial

/-- In which runs the idle logout fires: exactly those in which every task that nothing disturbed
compares the generation before the `lock` it was scheduled with, and then finds no claim and a
locked session. -/
theorem idle_logout_fires_iff (timeout : Nat) (es : List IdleEvent) :
    Lts.Throughout (IdleDaemon.step timeout) LogsOut {} es ↔
      Lts.Along (IdleDaemon.step timeout) FindsLocked {} es :=
  Lts.throughout_iff_along (fun _ hinv t ht hcalm => (hinv t ht hcalm).kept)
    (fun _ _ _ => timersSound_step)
    (fun _ _ _ => findsLocked_of_logsOut)
    (fun _ _ => findsLocked_of_none)
    nofun

/-- The first connection logs in and its proxy ends with a disconnect. -/
def loginAndDisconnect : List DaemonEvent :=
  .accept :: toClaimSlot 0 "u" ++ openFromClaimSlot 0 "u" ++ [.conn 0 (.proxyEnded false), .conn 0 .enter]

/-- A login, a disconnect, and nothing else until the timeout of one tick is over: the task
wakes up to the next generation. -/
theorem idle_logout_never_fires :
    ¬ ∀ (timeout : Nat) (es : List IdleEvent), timeout ≠ 0 →
      Lts.Throughout (IdleDaemon.step timeout) LogsOut {} es := by
  intro h
  have hrun := h 1 (loginAndDisconnect.map .daemon ++
    [.schedule 0, .daemon (.conn 0 .enter), .tick, .timer 0]) (by decide)
  exact absurd hrun (by decide)

end Rustcast.Hostd
