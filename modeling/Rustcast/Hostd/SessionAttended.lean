import Rustcast.Hostd.Session

/-!
# A session is attended while it is active

`state` answers `Active` to every login until the session is locked, so a connection that has
opened or attached the session has to call `lock` before its handler returns. The handler does
so when the proxy ends, with an error as well. It does not when the ok frame cannot be written,
or when the lookup of the user fails after `try_attach`.
-/

namespace Rustcast.Hostd

open Parties Daemon

/-- An active session has a connection that attends it. -/
def Attended (d : Daemon) : Prop :=
  d.manager.isActive = true → ∃ i, Holds LoginPc.attending d.conns i

/-- The steps with which a handler that attends the session leaves without `lock`. -/
def LoginPc.abandons : LoginPc → LoginAction → Bool
  | .dropUsed none, .enter => true
  | .attached _, .fail _ => true
  | _, _ => false

/-- The condition on a step: a handler leaves without `lock` only when the session is not active
or another connection attends it. -/
def AbandonsAttended (d : Daemon) : DaemonEvent → Prop
  | .conn i action => ∀ pc ∈ d.conns[i]?, pc.abandons action = true →
      d.manager.isActive = true → ∃ j, j ≠ i ∧ Holds LoginPc.attending d.conns j
  | _ => True

/-! ## Steps -/

variable {d d' : Daemon} {m m' : SessionManager} {i : Nat} {pc pc' : LoginPc}
  {action : LoginAction}

theorem SessionManager.isActive_lock (m : SessionManager) : m.lock.isActive = false := by
  rw [isActive, lock_inner]
  cases m.inner <;> rfl

/-- An exit without `lock` is always possible. -/
theorem LoginPc.step_of_abandons (h : pc.abandons action = true) : pc.step m i action ≠ none := by
  unfold LoginPc.abandons at h
  split at h <;> simp [LoginPc.step] at h ⊢

/-- An exit without `lock` leaves the session as it is. -/
theorem LoginMove.of_abandons (hmove : LoginMove m i pc action m' pc')
    (h : pc.abandons action = true) : pc'.attending = false ∧ m'.isActive = m.isActive := by
  cases hmove with
  | failAttached name again => exact ⟨rfl, rfl⟩
  | dropUsed ended =>
    cases ended with
    | none => exact ⟨rfl, rfl⟩
    | some again => cases h
  | outside hout _ =>
    obtain ⟨-, -, -, -, haway⟩ := LoginPc.regions_of_outside hout
    cases pc <;> first | cases h | cases haway
  | _ => cases h

/-- Every other step ends with the connection attending, or with the session locked, or is one
of a connection that does not attend and leaves the session as it is. -/
theorem LoginMove.attending (hmove : LoginMove m i pc action m' pc')
    (hstays : pc.abandons action = false) :
    pc'.attending = true ∨ m'.isActive = false ∨ (pc.attending = false ∧ m'.isActive = m.isActive) := by
  cases hmove with
  | outside hout _ =>
    obtain ⟨-, -, -, -, haway⟩ := LoginPc.regions_of_outside hout
    exact .inr (.inr ⟨haway, rfl⟩)
  | see | refuse | grant | start | failFresh | consume | dropUnused =>
    exact .inr (.inr ⟨rfl, rfl⟩)
  | install | close | attach | detach => exact .inl rfl
  | failAttached name again => cases hstays
  | dropUsed ended =>
    cases ended with
    | none => cases hstays
    | some again => exact .inl rfl
  | lock again => exact .inr (.inl m.isActive_lock)

theorem attended_step {e : DaemonEvent} (h : Attended d) (hok : AbandonsAttended d e)
    (hstep : d.step e = some d') : Attended d' := by
  intro hactive
  cases e with
  | accept =>
    cases hstep
    obtain ⟨j, hj⟩ := h hactive
    exact ⟨j, (holds_append rfl).mpr hj⟩
  | take =>
    cases hstep
    cases hactive
  | conn i action =>
    obtain ⟨pc, m', pc', hpc, hmove, rfl⟩ := step_conn hstep
    cases habandons : pc.abandons action with
    | true =>
      obtain ⟨-, hsame⟩ := hmove.of_abandons habandons
      obtain ⟨j, hne, hj⟩ := hok pc hpc habandons (hsame ▸ hactive)
      exact ⟨j, (holds_set_ne hne).mpr hj⟩
    | false =>
      rcases hmove.attending habandons with hattends | hlocked | ⟨haway, hsame⟩
      · exact ⟨i, (holds_set_self hpc).mpr hattends⟩
      · rw [show m'.isActive = true from hactive] at hlocked
        cases hlocked
      · -- who attends is another connection
        obtain ⟨j, hj⟩ := h (hsame ▸ hactive)
        have hne : j ≠ i := by
          rintro rfl
          rw [holds_iff hpc, haway] at hj
          cases hj
        exact ⟨j, (holds_set_ne hne).mpr hj⟩

/-- Where the session is attended after the step, the step has not abandoned it. -/
theorem abandonsAttended_of_step {e : DaemonEvent} (hstep : d.step e = some d')
    (hattended : Attended d') : AbandonsAttended d e := by
  cases e with
  | accept | take => trivial
  | conn i action =>
    intro pc hpc habandons hactive
    obtain ⟨pc₁, m', pc', hpc₁, hmove, rfl⟩ := step_conn hstep
    rw [hpc₁] at hpc
    cases hpc
    obtain ⟨haway, hsame⟩ := hmove.of_abandons habandons
    obtain ⟨j, hj⟩ := hattended (hsame.trans hactive)
    rcases (holds_set hpc₁).mp hj with ⟨-, hattends⟩ | ⟨hne, hold⟩
    · rw [haway] at hattends
      cases hattends
    · exact ⟨j, hne, hold⟩

/-! ## Runs -/

/-- The session is attended whenever it is active if and only if handlers leave without `lock`
only when the session is not active or another connection attends it. -/
theorem session_attended_iff (events : List DaemonEvent) :
    Lts.Throughout step Attended {} events ↔ Lts.Along step AbandonsAttended {} events := by
  refine Lts.throughout_iff_along (fun _ h => h) (fun _ _ _ => attended_step)
    (fun _ _ _ _ => abandonsAttended_of_step) ?_ (fun h => nomatch h)
  -- an exit without `lock` is never disabled
  intro d e hnone
  cases e with
  | accept | take => trivial
  | conn i action =>
    intro pc hpc habandons
    cases hmove : pc.step d.manager i action with
    | none => exact absurd hmove (LoginPc.step_of_abandons habandons)
    | some next => simp only [step, show d.conns[i]? = some pc from hpc, hmove, reduceCtorEq] at hnone

/-! ## The wedge -/

/-- The session is active and every connection is outside of it. -/
def Wedged (d : Daemon) : Prop :=
  d.manager.isActive = true ∧ ∀ pc ∈ d.conns, pc.outside = true

instance (d : Daemon) : Decidable (Wedged d) := inferInstanceAs (Decidable (_ ∧ _))

/-- While the session is active, a connection outside stays outside and changes nothing. -/
theorem LoginMove.stays_outside (hmove : LoginMove m i pc action m' pc')
    (hactive : m.isActive = true) (hout : pc.outside = true) : m' = m ∧ pc'.outside = true := by
  cases hmove with
  | outside _ hout' => exact ⟨rfl, hout'⟩
  | see name hfree => simp [SessionManager.isActive, hfree] at hactive
  | attach hattach =>
    -- `try_attach` wants a locked session
    rw [(SessionManager.tryAttach_eq_some hattach).2.1] at hactive
    cases hactive
  | _ => cases hout

/-- Until the session is logged out, no login gets past the check. -/
theorem wedged_stays {events : List DaemonEvent} (h : Wedged d)
    (hkept : Lts.Along step (fun _ e => e ≠ .take) d events) :
    Lts.Throughout step Wedged d events := by
  refine Lts.throughout_of_along ?_ h hkept
  intro d e d' ⟨hactive, hout⟩ hne hstep
  cases e with
  | take => exact absurd rfl hne
  | accept =>
    cases hstep
    refine ⟨hactive, fun pc hmem => ?_⟩
    rcases List.mem_append.mp hmem with hold | hnew
    · exact hout pc hold
    · rw [List.mem_singleton.mp hnew]
      rfl
  | conn i action =>
    obtain ⟨pc, m', pc', hpc, hmove, rfl⟩ := step_conn hstep
    obtain ⟨rfl, hout'⟩ := hmove.stays_outside hactive (hout pc (List.mem_of_getElem? hpc))
    refine ⟨hactive, fun q hmem => ?_⟩
    rcases List.mem_or_eq_of_mem_set hmem with hold | rfl
    · exact hout q hold
    · exact hout'

/-- The ok frame of a fresh login cannot be written. -/
def abandonRun : List DaemonEvent :=
  [.accept] ++ toClaimSlot 0 "alice" ++ openFromClaimSlot 0 "alice" ++
    [.conn 0 (.fail false), .conn 0 .enter]

/-- The handler has returned, the session is active, and no login is let in any more. -/
theorem session_wedges :
    (¬∀ events, Lts.Throughout step Attended {} events) ∧
      ∃ d, Lts.run step {} abandonRun = some d ∧ d.conns = [.returned] ∧
        ∀ events, Lts.Along step (fun _ e => e ≠ .take) d events → Lts.Throughout step Wedged d events := by
  have hend : Lts.run step {} abandonRun = some {
      manager := { inner := some { user := "alice", locked := false } }
      conns := [.returned] } := by decide +kernel
  refine ⟨fun h => ?_, _, hend, rfl, fun events hkept => wedged_stays (by decide) hkept⟩
  obtain ⟨i, hi⟩ := (h abandonRun).last hend rfl
  obtain ⟨pc, hmem, hattending⟩ := hi.mem
  rw [List.mem_singleton.mp hmem] at hattending
  cases hattending

end Rustcast.Hostd
