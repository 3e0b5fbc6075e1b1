import Rustcast.Hostd.Session

/-!
# Exclusive login sessions

Whether the claim slot and the session slot of `SessionManager` exclude two logins at once.
Two windows let them through. `try_claim` looks at the session first and takes the claim slot
later, so a session can open between the two. `open` clears the claim slot before it installs
the session, and the guard clears the slot once more when it is dropped, long after.
-/

namespace Rustcast.Hostd

open Parties LoginPc Daemon

/-! ## Exclusion -/

def OneClaim (d : Daemon) : Prop :=
  ∀ i j, Holds unconsumed d.conns i → Holds unconsumed d.conns j → i = j

/-- No claim is granted while a session is open. -/
def GrantsVacant : Daemon → DaemonEvent → Prop :=
  WhenEntered claiming fun d _ => d.manager.claim = none → d.manager.inner = none

/-- No open session is overwritten. -/
def OpensVacant : Daemon → DaemonEvent → Prop :=
  WhenEntered opening fun d _ => d.manager.inner = none

/-- A dropped guard clears no claim but that of its own connection. -/
def DropsOwn : Daemon → DaemonEvent → Prop :=
  WhenEntered releasing fun d i => ∀ c ∈ d.manager.claim, c.owner = i

/-- The steps respect the slots. -/
def Exclusive (d : Daemon) (e : DaemonEvent) : Prop :=
  GrantsVacant d e ∧ OpensVacant d e ∧ DropsOwn d e

/-- The condition on a step: a claim is granted only while no connection holds a consumed
guard, a session is installed only while no connection is between the sections of
`try_claim`. -/
def Undisturbed (d : Daemon) (e : DaemonEvent) : Prop :=
  WhenEntered claiming
      (fun d _ => d.manager.claim = none → ∀ pc ∈ d.conns, pc.consumed = false) d e ∧
    WhenEntered opening (fun d _ => ∀ pc ∈ d.conns, pc.claiming = false) d e

instance (d : Daemon) (e : DaemonEvent) : Decidable (Undisturbed d e) :=
  inferInstanceAs (Decidable (_ ∧ _))

instance (d : Daemon) (e : DaemonEvent) : Decidable (GrantsVacant d e) :=
  inferInstanceAs (Decidable (WhenEntered _ _ d e))

instance (d : Daemon) (e : DaemonEvent) : Decidable (OpensVacant d e) :=
  inferInstanceAs (Decidable (WhenEntered _ _ d e))

instance (d : Daemon) (e : DaemonEvent) : Decidable (DropsOwn d e) :=
  inferInstanceAs (Decidable (WhenEntered _ (fun d i => ∀ c ∈ d.manager.claim, c.owner = i) d e))

/-- On the way to a session, where there must not be one yet. -/
def LoginPc.vacant (pc : LoginPc) : Bool := pc.unconsumed || pc.claiming || pc.opening

theorem LoginPc.slots_of_outside {pc : LoginPc} (hout : pc.outside = true) :
    pc.unconsumed = false ∧ pc.consumed = false ∧ pc.vacant = false := by
  obtain ⟨hu, hc, hclaiming, hopening, -⟩ := regions_of_outside hout
  exact ⟨hu, hc, by simp [vacant, hu, hclaiming, hopening]⟩

/-! ## The invariant -/

/-- The claim slot names the one login in progress, and while there is one, no guard of an
earlier claim is left and the session slot is free. -/
structure ClaimInv (d : Daemon) : Prop where
  owned : ∀ i, Holds unconsumed d.conns i → ∃ c, d.manager.claim = some c ∧ c.owner = i
  held : ∀ c, d.manager.claim = some c → Holds unconsumed d.conns c.owner
  apart : ∀ i j, Holds unconsumed d.conns i → ¬Holds consumed d.conns j
  single : ∀ i j, Holds consumed d.conns i → Holds consumed d.conns j → i = j
  vacant : ∀ i, Holds vacant d.conns i → d.manager.inner = none

variable {d d' : Daemon} {m' : SessionManager} {i : Nat} {pc pc' : LoginPc}

namespace ClaimInv

section

variable (h : ClaimInv d)

include h

theorem oneClaim : OneClaim d := by
  intro i j hi hj
  obtain ⟨c, hc, hown⟩ := h.owned i hi
  obtain ⟨c', hc', hown'⟩ := h.owned j hj
  rw [hc] at hc'
  cases hc'
  exact hown.symm.trans hown'

/-- The fields of the invariant see the connections through three regions only. -/
theorem congr (hclaim : d'.manager.claim = d.manager.claim)
    (hunconsumed : ∀ j, Holds unconsumed d'.conns j ↔ Holds unconsumed d.conns j)
    (hconsumed : ∀ j, Holds consumed d'.conns j ↔ Holds consumed d.conns j)
    (hvacant : ∀ j, Holds LoginPc.vacant d'.conns j → d'.manager.inner = none) : ClaimInv d' where
  owned j hj := hclaim ▸ h.owned j ((hunconsumed j).mp hj)
  held c hc := (hunconsumed _).mpr (h.held c (hclaim ▸ hc))
  apart j k hj hk := h.apart j k ((hunconsumed j).mp hj) ((hconsumed k).mp hk)
  single j k hj hk := h.single j k ((hconsumed j).mp hj) ((hconsumed k).mp hk)
  vacant := hvacant

theorem accept : ClaimInv { d with conns := d.conns ++ [.prompting] } :=
  h.congr rfl (fun _ => holds_append rfl) (fun _ => holds_append rfl)
    fun j hj => h.vacant j ((holds_append rfl).mp hj)

theorem take : ClaimInv { d with manager := d.manager.take } :=
  h.congr rfl (fun _ => .rfl) (fun _ => .rfl) fun _ _ => rfl

theorem quiet (hpc : d.conns[i]? = some pc) (hclaim : m'.claim = d.manager.claim)
    (hinner : d.manager.inner = none → m'.inner = none) (hunconsumed : pc'.unconsumed = pc.unconsumed)
    (hconsumed : pc'.consumed = pc.consumed)
    (hvacant : pc'.vacant = true → d.manager.inner = none ∨ pc.vacant = true) :
    ClaimInv { manager := m', conns := d.conns.set i pc' } := by
  refine h.congr hclaim (fun _ => holds_set_same hpc hunconsumed)
    (fun _ => holds_set_same hpc hconsumed) fun j hj => ?_
  rcases (holds_set hpc).mp hj with ⟨-, hnew⟩ | ⟨-, hold⟩
  · rcases hvacant hnew with hnone | hold
    · exact hinner hnone
    · exact hinner (h.vacant i ((holds_iff hpc).mpr hold))
  · exact hinner (h.vacant j hold)

/-- A step that ends outside and does not come from a claim or its guard. -/
theorem leave (hpc : d.conns[i]? = some pc) (hclaim : m'.claim = d.manager.claim)
    (hinner : d.manager.inner = none → m'.inner = none) (hunconsumed : pc.unconsumed = false)
    (hconsumed : pc.consumed = false) (hout : pc'.outside = true) :
    ClaimInv { manager := m', conns := d.conns.set i pc' } := by
  obtain ⟨hu, hc, hv⟩ := slots_of_outside hout
  exact h.quiet hpc hclaim hinner (hu.trans hunconsumed.symm) (hc.trans hconsumed.symm) (by simp [hv])

theorem grant {name : String} (hpc : d.conns[i]? = some (.claimSlot name)) (hfree : d.manager.claim = none)
    (hok : ∀ pc ∈ d.conns, pc.consumed = false) :
    ClaimInv {
      manager := { d.manager with claim := some { owner := i, user := name } }
      conns := d.conns.set i (.fresh name) } := by
  -- nobody had a claim before, and no guard of an earlier one is left
  have hnone : ∀ j, ¬Holds unconsumed d.conns j := by
    intro j hj
    obtain ⟨c, hc, -⟩ := h.owned j hj
    rw [hfree] at hc
    cases hc
  have hdone : ∀ j, ¬Holds consumed (d.conns.set i (.fresh name)) j := by
    intro j hj
    rcases (holds_set hpc).mp hj with ⟨-, hnew⟩ | ⟨-, hold⟩
    · cases hnew
    · obtain ⟨pc, hmem, hconsumed⟩ := hold.mem
      rw [hok pc hmem] at hconsumed
      cases hconsumed
  refine ⟨fun j hj => ?_, fun c hc => ?_, fun _ k _ => hdone k,
    fun j _ hj _ => absurd hj (hdone j), fun j hj => ?_⟩
  · rcases (holds_set hpc).mp hj with ⟨rfl, -⟩ | ⟨-, hold⟩
    · exact ⟨_, rfl, rfl⟩
    · exact absurd hold (hnone j)
  · cases hc
    exact (holds_set_self hpc).mpr rfl
  · rcases (holds_set hpc).mp hj with ⟨-, -⟩ | ⟨-, hold⟩
    · exact h.vacant i ((holds_iff hpc).mpr rfl)
    · exact h.vacant j hold

/-- The only login in progress gives its claim up, by `open` or by a drop. -/
theorem relinquish (hpc : d.conns[i]? = some pc)
    (hothers : ∀ j, j ≠ i → ¬Holds unconsumed d.conns j) (hunconsumed : pc'.unconsumed = false)
    (hconsumed : pc'.consumed = true → pc.unconsumed = true)
    (hvacant : pc'.vacant = true → pc.vacant = true) :
    ClaimInv { manager := { d.manager with claim := none }, conns := d.conns.set i pc' } := by
  have hnone : ∀ j, ¬Holds unconsumed (d.conns.set i pc') j := by
    intro j hj
    rcases (holds_set hpc).mp hj with ⟨-, hnew⟩ | ⟨hne, hold⟩
    · rw [hunconsumed] at hnew
      cases hnew
    · exact hothers j hne hold
  refine ⟨fun j hj => absurd hj (hnone j), fun c hc => (nomatch hc), fun j _ hj _ => hnone j hj,
    fun j k hj hk => ?_, fun j hj => ?_⟩
  · -- a guard that is consumed now was the only claim before
    rcases (holds_set hpc).mp hj with ⟨rfl, hnew⟩ | ⟨-, hold⟩
    · rcases (holds_set hpc).mp hk with ⟨rfl, -⟩ | ⟨-, hold'⟩
      · rfl
      · exact absurd hold' (h.apart _ k ((holds_iff hpc).mpr (hconsumed hnew)))
    · rcases (holds_set hpc).mp hk with ⟨rfl, hnew⟩ | ⟨-, hold'⟩
      · exact absurd hold (h.apart _ j ((holds_iff hpc).mpr (hconsumed hnew)))
      · exact h.single j k hold hold'
  · rcases (holds_set hpc).mp hj with ⟨-, hnew⟩ | ⟨-, hold⟩
    · exact h.vacant i ((holds_iff hpc).mpr (hvacant hnew))
    · exact h.vacant j hold

/-- While one connection holds a claim or the guard of one, no other holds a claim. -/
theorem others (hpc : d.conns[i]? = some pc) (hguard : pc.unconsumed = true ∨ pc.consumed = true) (j : Nat)
    (hne : j ≠ i) : ¬Holds unconsumed d.conns j := by
  intro hj
  rcases hguard with hunconsumed | hconsumed
  · exact hne (h.oneClaim j i hj ((holds_iff hpc).mpr hunconsumed))
  · exact h.apart j i hj ((holds_iff hpc).mpr hconsumed)

theorem install {user : String} (hpc : d.conns[i]? = some (.openInner user))
    (hok : ∀ pc ∈ d.conns, pc.claiming = false) :
    ClaimInv { manager := d.manager.openInner user, conns := d.conns.set i (.opened user) } := by
  have hguard : Holds consumed d.conns i := (holds_iff hpc).mpr rfl
  refine h.congr rfl (fun _ => holds_set_same hpc rfl) (fun _ => holds_set_same hpc rfl) ?_
  -- nobody is left who relies on a free session slot
  intro j hj
  rcases (holds_set hpc).mp hj with ⟨-, hnew⟩ | ⟨hne, hold⟩
  · cases hnew
  have hother : ∀ pc : LoginPc, d.conns[j]? = some pc → pc.vacant = false := by
    intro pc hpc'
    have hunconsumed : pc.unconsumed = false := Bool.eq_false_iff.mpr fun hu =>
      h.apart j i ((holds_iff hpc').mpr hu) hguard
    have hopening : pc.opening = false := Bool.eq_false_iff.mpr fun ho => by
      have hconsumed : pc.consumed = true := by
        cases pc with
        | openInner _ => rfl
        | _ => cases ho
      exact hne (h.single j i ((holds_iff hpc').mpr hconsumed) hguard)
    simp [LoginPc.vacant, hunconsumed, hopening, hok pc (List.mem_of_getElem? hpc')]
  cases hj' : d.conns[j]? with
  | none => simp [Holds, hj'] at hold
  | some pc =>
    rw [holds_iff hj', hother pc hj'] at hold
    cases hold

end

end ClaimInv

theorem claimInv_step {e : DaemonEvent} (h : ClaimInv d) (hok : Undisturbed d e)
    (hstep : d.step e = some d') : ClaimInv d' := by
  cases e with
  | accept =>
    cases hstep
    exact h.accept
  | take =>
    cases hstep
    exact h.take
  | conn i action =>
    obtain ⟨pc, m', pc', hpc, hmove, rfl⟩ := step_conn hstep
    cases hmove with
    | outside hout hout' =>
      obtain ⟨hu, hc, -⟩ := slots_of_outside hout
      exact h.leave hpc rfl id hu hc hout'
    | see name hfree => exact h.quiet hpc rfl id rfl rfl fun _ => .inl hfree
    | refuse name => exact h.leave hpc rfl id rfl rfl rfl
    | grant name hfree => exact h.grant hpc hfree (hok.1 ((holds_iff hpc).mpr rfl) hfree)
    | start name user | failFresh name again => exact h.quiet hpc rfl id rfl rfl fun _ => .inr rfl
    | consume user =>
      exact h.relinquish hpc (h.others hpc (.inl rfl)) rfl (fun _ => rfl) fun _ => rfl
    | install user => exact h.install hpc (hok.2 ((holds_iff hpc).mpr rfl))
    | close user _ ended => exact h.quiet hpc rfl id rfl rfl fun hvacant => nomatch hvacant
    | attach hattach =>
      obtain ⟨hclaim, -, -, hsome⟩ := SessionManager.tryAttach_eq_some hattach
      exact h.quiet hpc hclaim (fun hnone => absurd hnone hsome) rfl rfl fun hvacant => nomatch hvacant
    | failAttached name again => exact h.leave hpc rfl id rfl rfl rfl
    | detach name again => exact h.quiet hpc rfl id rfl rfl fun hvacant => nomatch hvacant
    | dropUnused again =>
      obtain ⟨hu, hc, hv⟩ := slots_of_outside (outside_loopOrReturn again)
      exact h.relinquish hpc (h.others hpc (.inl rfl)) hu (by simp [hc]) (by simp [hv])
    | dropUsed ended =>
      cases ended with
      | none | some again =>
        exact h.relinquish hpc (h.others hpc (.inr rfl)) rfl (fun hc => nomatch hc)
          fun hvacant => nomatch hvacant
    | lock again =>
      have hinner : d.manager.inner = none → d.manager.lock.inner = none := fun hnone => by
        rw [SessionManager.lock_inner, hnone, Option.map_none]
      exact h.leave hpc d.manager.lock_claim hinner rfl rfl (outside_loopOrReturn again)

/-- Every step from a state of the invariant respects the slots. -/
theorem ClaimInv.exclusive (h : ClaimInv d) (e : DaemonEvent) : Exclusive d e := by
  cases e with
  | accept | take => exact ⟨trivial, trivial, trivial⟩
  | conn i action =>
    cases action with
    | username _ | hangup | started _ | fail _ | proxyEnded _ => exact ⟨trivial, trivial, trivial⟩
    | enter =>
      refine ⟨fun hclaiming _ => h.vacant i (hclaiming.mono ?_),
        fun hopening => h.vacant i (hopening.mono ?_), fun hreleasing c hc => ?_⟩
      · intro pc hpc
        simp [LoginPc.vacant, hpc]
      · intro pc hpc
        simp [LoginPc.vacant, hpc]
      · -- the claim in the slot is held by a connection, and the guard leaves room for one only
        have hheld := h.held c hc
        by_cases hown : c.owner = i
        · exact hown
        cases hpc : d.conns[i]? with
        | none => simp [Holds, hpc] at hreleasing
        | some pc =>
          rw [holds_iff hpc] at hreleasing
          refine absurd hheld (h.others hpc ?_ c.owner hown)
          cases pc with
          | dropUnused _ => exact .inl rfl
          | dropUsed _ => exact .inr rfl
          | _ => cases hreleasing

theorem claimInv_new : ClaimInv {} := by
  have hnobody : ∀ (f : LoginPc → Bool) (i : Nat), ¬Holds f [] i := by
    intro f i h
    simp [Holds] at h
  constructor
  · exact fun i hi => absurd hi (hnobody _ i)
  · intro c hc
    cases hc
  · exact fun i _ hi => absurd hi (hnobody _ i)
  · exact fun i _ hi => absurd hi (hnobody _ i)
  · exact fun i hi => absurd hi (hnobody _ i)

/-! ## Runs -/

/-- In a run whose steps stay clear of the two windows, at most one connection holds an
unconsumed claim at any time, no claim is granted while a session is open, no open session is
overwritten, and no guard clears the claim of another connection. -/
theorem logins_exclusive {events : List DaemonEvent}
    (h : Lts.Along step Undisturbed {} events) :
    Lts.Throughout step OneClaim {} events ∧
      Lts.Along step GrantsVacant {} events ∧
      Lts.Along step OpensVacant {} events ∧ Lts.Along step DropsOwn {} events := by
  have hkeep : ∀ d e d', ClaimInv d → Undisturbed d e → d.step e = some d' → ClaimInv d' :=
    fun _ _ _ => claimInv_step
  have hexclusive : Lts.Along step Exclusive {} events :=
    Lts.along_of_along hkeep (fun _ e hinv _ => hinv.exclusive e) claimInv_new h
  refine ⟨?_, hexclusive.mono fun _ _ he => he.1, hexclusive.mono fun _ _ he => he.2.1,
    hexclusive.mono fun _ _ he => he.2.2⟩
  exact (Lts.throughout_of_along hkeep claimInv_new h).mono fun _ hinv => hinv.oneClaim

/-- A login, a lock command and a login to the locked session on one connection, with a second
connection that is told that the session is busy. -/
def relogRun : List DaemonEvent :=
  [.accept, .accept] ++ toClaimSlot 0 "alice" ++ openFromClaimSlot 0 "alice" ++
    [.conn 1 (.username "bob"), .conn 1 .enter, .conn 1 .enter,
      .conn 0 (.proxyEnded true), .conn 0 .enter, .conn 0 .enter,
      .conn 0 (.username "alice"), .conn 0 .enter, .conn 0 .enter, .conn 0 .enter]

theorem logins_exclusive_relogRun :
    Lts.run step {} relogRun = some {
        manager := { inner := some { user := "alice", locked := false }, generation := 2 }
        conns := [.attached "alice", .busy "alice"] } ∧
      Lts.Throughout step OneClaim {} relogRun ∧
      Lts.Along step GrantsVacant {} relogRun ∧
      Lts.Along step OpensVacant {} relogRun ∧
      Lts.Along step DropsOwn {} relogRun :=
  ⟨by decide +kernel, logins_exclusive (by decide +kernel)⟩

/-- Three logins have seen the session slot free. The first opens its session, the second then
gets the claim, and the guard of the first frees the slot again for the third. -/
def overlapRun : List DaemonEvent :=
  [.accept, .accept, .accept] ++ toClaimSlot 1 "bob" ++ toClaimSlot 2 "carol" ++
    toClaimSlot 0 "alice" ++ openFromClaimSlot 0 "alice" ++
    [.conn 1 .enter, .conn 0 (.proxyEnded false), .conn 0 .enter, .conn 2 .enter]

/-- The second then opens its session over that of the first. -/
def overwriteRun : List DaemonEvent :=
  overlapRun ++ [.conn 1 (.started "bob"), .conn 1 .enter, .conn 1 .enter]

/-- No part of the exclusion holds in every run. -/
theorem logins_overlap :
    (¬∀ events, Lts.Throughout step OneClaim {} events) ∧
      (¬∀ events, Lts.Along step GrantsVacant {} events) ∧
      (¬∀ events, Lts.Along step OpensVacant {} events) ∧
      ¬∀ events, Lts.Along step DropsOwn {} events := by
  refine ⟨fun h => ?_, fun h => ?_, fun h => ?_, fun h => ?_⟩
  · have hend : Lts.run step {} overlapRun = some {
        manager := {
          inner := some { user := "alice", locked := false }
          claim := some { owner := 2, user := "carol" } }
        conns := [.locking false, .fresh "bob", .fresh "carol"] } := by decide +kernel
    have hone := (h overlapRun).last hend 1 2 (by decide) (by decide)
    omega
  · exact absurd (h overlapRun) (by decide +kernel)
  · exact absurd (h overwriteRun) (by decide +kernel)
  · exact absurd (h overlapRun) (by decide +kernel)

end Rustcast.Hostd
