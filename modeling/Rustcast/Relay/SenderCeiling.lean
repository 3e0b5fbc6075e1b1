import Rustcast.Relay.Registry

/-!
# The sender's ceiling of a machine

A registration may carry the bitrate that the host was asked for, which is to be the ceiling of the
bitrate controller of the machine's upstream. `upsert` passes it on to an upstream that exists, and
`acquire` gives a new upstream the one of the record. But `upsert` rebuilds the record without it, so
that a new upstream has no ceiling.
-/

namespace Rustcast.Relay

namespace MachineRegistry

/-- `seedStatic`, for a registry without other machines. -/
def seedStatic (endpoint : String) : MachineRegistry where
  current := some 0
  records := [{ frameEndpoint := endpoint, online := true, static := true }]

end MachineRegistry

/-- The registry, with the latest nonzero target bitrate that was registered. -/
structure CeilingRun where
  registry : MachineRegistry
  registered : Nat := 0
  deriving DecidableEq

namespace CeilingRun

def latest (registered : Nat) : RegistryEvent → Nat
  | .upsert input _ => if input.targetBitrate = 0 then registered else input.targetBitrate
  | _ => registered

def step (s : CeilingRun) (e : RegistryEvent) : Option CeilingRun :=
  (s.registry.step e).map fun registry => { registry, registered := latest s.registered e }

/-- The upstream of the machine has the ceiling that was registered; zero is no ceiling. -/
def CeilingRegistered (s : CeilingRun) : Prop :=
  ∀ u ∈ s.registry.reference, ∀ x ∈ s.registry.upstreams[u]?, x.ceilingKbps = s.registered

instance (s : CeilingRun) : Decidable s.CeilingRegistered :=
  inferInstanceAs (Decidable (∀ u ∈ s.registry.reference, _))

/-- The machine stays registered. -/
def Stays (_ : CeilingRun) (e : RegistryEvent) : Prop := e ≠ .deregister

/-- The condition on a step: `acquire` creates no upstream after a registration with a bitrate. -/
def CreatesUnlimited (s : CeilingRun) : RegistryEvent → Prop
  | .lock i => ∀ r ∈ s.registry.calls[i]?.bind (·.record), ∀ m ∈ s.registry.records[r]?,
      m.upstream = none → s.registered = 0
  | _ => True

instance (s : CeilingRun) : (e : RegistryEvent) → Decidable (s.CreatesUnlimited e)
  | .lock i => inferInstanceAs (Decidable (∀ r ∈ s.registry.calls[i]?.bind (·.record), _))
  | .tick | .upsert .. | .deregister | .list | .acquire | .get _ | .release _ | .stop _ =>
    isTrue trivial

instance (s : CeilingRun) (e : RegistryEvent) : Decidable (s.Stays e) :=
  inferInstanceAs (Decidable (e ≠ .deregister))

end CeilingRun

/-! ## What the steps do to the upstream of the record -/

variable {e : RegistryEvent}

section quiet

variable {s s' : MachineRegistry} {r u i k : Nat} {m : MachineRecord} {x x' : MachineUpstream}

/-- A step that at most takes the upstream from the record, and changes no ceiling. -/
structure Quiet (s s' : MachineRegistry) : Prop where
  current : s'.current = s.current
  reference : ∀ u, s'.reference = some u → s.reference = some u
  ceiling : ∀ (u : Nat) (x' : MachineUpstream), s'.upstreams[u]? = some x' →
    ∃ x : MachineUpstream, s.upstreams[u]? = some x ∧ x.ceilingKbps = x'.ceilingKbps
  target : ∀ m' ∈ s'.records, ∃ m ∈ s.records, m.targetBitrate = m'.targetBitrate
  got : ∀ r, AcquirePc.got r ∈ s'.calls → AcquirePc.got r ∈ s.calls ∨ s.current = some r

theorem Quiet.trans {s'' : MachineRegistry} (h : Quiet s s') (h' : Quiet s' s'') : Quiet s s'' where
  current := h'.current.trans h.current
  reference := fun u hu => h.reference u (h'.reference u hu)
  ceiling := by
    intro u x hx
    obtain ⟨y, hy, hceiling⟩ := h'.ceiling u x hx
    obtain ⟨z, hz, hceiling'⟩ := h.ceiling u y hy
    exact ⟨z, hz, hceiling'.trans hceiling⟩
  target := by
    intro m hm
    obtain ⟨m', hm', htarget⟩ := h'.target m hm
    obtain ⟨m'', hm'', htarget'⟩ := h.target m' hm'
    exact ⟨m'', hm'', htarget'.trans htarget⟩
  got := by
    intro r hr
    rcases h'.got r hr with hr | hr
    · exact h.got r hr
    · exact .inr (h.current ▸ hr)

/-- Nothing but the clock and the list of pending stops. -/
theorem Quiet.of_eq (hcurrent : s'.current = s.current) (hrecords : s'.records = s.records)
    (hupstreams : s'.upstreams = s.upstreams) (hcalls : s'.calls = s.calls) : Quiet s s' where
  current := hcurrent
  reference := by
    intro u hu
    unfold MachineRegistry.reference at hu ⊢
    rwa [hcurrent, hrecords] at hu
  ceiling := fun u x hx => ⟨x, hupstreams ▸ hx, rfl⟩
  target := fun m hm => ⟨m, hrecords ▸ hm, rfl⟩
  got := fun r hr => .inl (hcalls ▸ hr)

theorem Quiet.setCall (pc : AcquirePc) (h : ∀ r, pc = .got r → s.current = some r) :
    Quiet s (s.setCall i pc) where
  current := rfl
  reference := fun _ hu => hu
  ceiling := fun u x hx => ⟨x, hx, rfl⟩
  target := fun m hm => ⟨m, hm, rfl⟩
  got := by
    intro r hr
    rcases List.mem_or_eq_of_mem_set hr with hr | hr
    · exact .inl hr
    · exact .inr (h r hr.symm)

theorem Quiet.setUpstream (x' : MachineUpstream) (hx : s.upstreams[u]? = some x)
    (hceiling : x'.ceilingKbps = x.ceilingKbps) : Quiet s (s.setUpstream u x') where
  current := rfl
  reference := fun _ hu => hu
  ceiling := by
    intro u' y hy
    rcases Parties.getElem?_set_cases hy with ⟨rfl, rfl⟩ | ⟨-, hy⟩
    · exact ⟨x, hx, hceiling.symm⟩
    · exact ⟨y, hy, rfl⟩
  target := fun m hm => ⟨m, hm, rfl⟩
  got := fun _ => .inl

theorem reference_of_set (s' : MachineRegistry) (m' : MachineRecord) (hm : s.records[r]? = some m)
    (hrecords : s'.records = s.records.set r m') (hcurrent : s'.current = some r) :
    s'.reference = m'.upstream := by
  apply reference_eq hcurrent
  rw [hrecords]
  exact List.getElem?_set_self (List.getElem?_eq_some_iff.1 hm).1

theorem Quiet.dropReference (m' : MachineRecord) (hcurrent : s.current = some r)
    (hm : s.records[r]? = some m) (hnone : m'.upstream = none)
    (htarget : m'.targetBitrate = m.targetBitrate) :
    Quiet s { s with records := s.records.set r m' } where
  current := rfl
  reference := by
    intro u hu
    have hnow := reference_of_set { s with records := s.records.set r m' } m' hm rfl hcurrent
    cases hnone.symm.trans (hnow.symm.trans hu)
  ceiling := fun u x hx => ⟨x, hx, rfl⟩
  target := by
    intro m₀ hm₀
    rcases List.mem_or_eq_of_mem_set hm₀ with hm₀ | rfl
    · exact ⟨m₀, hm₀, rfl⟩
    · exact ⟨m, List.mem_of_getElem? hm, htarget.symm⟩
  got := fun _ => .inl

theorem Quiet.expire (hcurrent : s.current = some r) (hm : s.records[r]? = some m) :
    Quiet s (s.expire r m) :=
  (Quiet.dropReference { m with online := false, upstream := none } hcurrent hm rfl rfl).trans
    (.of_eq rfl rfl rfl rfl)

theorem quiet_list (s : MachineRegistry) : Quiet s s.list := by
  unfold MachineRegistry.list
  split
  · exact .of_eq rfl rfl rfl rfl
  rename_i r hcurrent
  split
  · exact .of_eq rfl rfl rfl rfl
  rename_i m hm
  split
  · exact .expire hcurrent hm
  · exact .of_eq rfl rfl rfl rfl

theorem quiet_get (s : MachineRegistry) (i : Nat) : Quiet s (s.get i) := by
  unfold MachineRegistry.get
  split
  · exact .setCall _ (by simp)
  rename_i r hcurrent
  split
  · exact .setCall _ (by simp)
  rename_i m hm
  split
  · exact (Quiet.expire hcurrent hm).trans (.setCall _ (by simp))
  split
  · refine .setCall _ fun r' hr' => ?_
    cases hr'
    exact hcurrent
  · exact .setCall _ (by simp)

theorem quiet_unreference (s : MachineRegistry) (u : Nat) : Quiet s (s.unreference u) := by
  unfold MachineRegistry.unreference
  split
  · exact .of_eq rfl rfl rfl rfl
  rename_i r hcurrent
  split
  · exact .of_eq rfl rfl rfl rfl
  rename_i m hm
  split
  · exact .dropReference _ hcurrent hm rfl rfl
  · exact .of_eq rfl rfl rfl rfl

theorem quiet_release (hx : s.upstreams[u]? = some x) : Quiet s (s.release i u x) := by
  have hless : Quiet s ((s.setUpstream u x.removeViewer).setCall i .released) :=
    (Quiet.setUpstream x.removeViewer hx rfl).trans (.setCall .released (by simp))
  unfold MachineRegistry.release
  split
  · exact hless.trans ((quiet_unreference _ u).trans (.of_eq rfl rfl rfl rfl))
  · exact hless

theorem quiet_lock (hup : m.upstream = some u) : Quiet s (s.lock i r m) := by
  unfold MachineRegistry.lock
  rw [hup]
  simp only
  split
  · exact .of_eq rfl rfl rfl rfl
  rename_i x hx
  split
  · exact .setCall _ (by simp)
  · exact (Quiet.setUpstream x.addViewer hx rfl).trans (.setCall (.holding u) (by simp))

/-- What a step does to the upstream of the record. -/
inductive CeilingCase (s : MachineRegistry) : RegistryEvent → MachineRegistry → Prop
  | quiet (e : RegistryEvent) (s' : MachineRegistry) : (∀ input static, e ≠ .upsert input static) →
      Quiet s s' → CeilingCase s e s'
  | upsert (input : MachineRegistration) (static : Bool) :
      CeilingCase s (.upsert input static) (s.upsert input static)
  | create (i r : Nat) (m : MachineRecord) : s.calls[i]? = some (.got r) →
      s.records[r]? = some m → m.upstream = none →
      CeilingCase s (.lock i) { s with
        upstreams := s.upstreams ++ [m.newMachineUpstream.addViewer]
        records := s.records.set r { m with upstream := some s.upstreams.length }
        calls := s.calls.set i (.holding s.upstreams.length) }

theorem ceiling_cases (hstays : e ≠ .deregister) (h : s.step e = some s') : CeilingCase s e s' := by
  cases e with
  | deregister => exact absurd rfl hstays
  | upsert input static =>
    cases h
    exact .upsert input static
  | tick =>
    cases h
    exact .quiet _ _ (by simp) (.of_eq rfl rfl rfl rfl)
  | list =>
    cases h
    exact .quiet _ _ (by simp) (quiet_list s)
  | acquire =>
    cases h
    refine .quiet _ _ (by simp) ⟨rfl, fun _ hu => hu, fun u x hx => ⟨x, hx, rfl⟩,
      fun m hm => ⟨m, hm, rfl⟩, fun r hr => .inl ?_⟩
    rcases List.mem_append.1 hr with hr | hr
    · exact hr
    · cases List.mem_singleton.1 hr
  | get i =>
    simp only [MachineRegistry.step] at h
    split at h <;> cases h
    exact .quiet _ _ (by simp) (quiet_get s i)
  | lock i =>
    simp only [MachineRegistry.step] at h
    split at h
    next r hcall =>
      split at h <;> cases h
      rename_i m hm
      cases hup : m.upstream with
      | none =>
        have hcreate := CeilingCase.create i r m hcall hm hup
        simp only [MachineRegistry.lock, hup]
        exact hcreate
      | some u => exact .quiet _ _ (by simp) (quiet_lock hup)
    · cases h
  | release i =>
    simp only [MachineRegistry.step] at h
    split at h
    · split at h <;> cases h
      rename_i x hx
      exact .quiet _ _ (by simp) (quiet_release hx)
    · cases h
  | stop k =>
    simp only [MachineRegistry.step] at h
    split at h
    · split at h <;> cases h
      rename_i x hx
      exact .quiet _ _ (by simp) ((Quiet.setUpstream { x with stopped := true } hx rfl).trans
        (.of_eq rfl rfl rfl rfl))
    · cases h

end quiet

/-! ## Runs -/

namespace CeilingRun

/-- Records know no target bitrate, and a call of `acquire` has the record of the map. -/
structure Sound (s : CeilingRun) : Prop where
  ceiling : s.CeilingRegistered
  target : ∀ m ∈ s.registry.records, m.targetBitrate = 0
  got : ∀ r, AcquirePc.got r ∈ s.registry.calls → s.registry.current = some r

theorem Sound.quiet {s : CeilingRun} {registry : MachineRegistry} (h : s.Sound)
    (hquiet : Quiet s.registry registry) : Sound { registry, registered := s.registered } where
  ceiling := by
    intro u hu x hx
    obtain ⟨y, hy, hceiling⟩ := hquiet.ceiling u x hx
    exact hceiling.symm.trans (h.ceiling u (hquiet.reference u hu) y hy)
  target := by
    intro m hm
    obtain ⟨m', hm', htarget⟩ := hquiet.target m hm
    exact htarget.symm.trans (h.target m' hm')
  got := by
    intro r hr
    refine hquiet.current.trans ?_
    rcases hquiet.got r hr with hr | hr
    · exact h.got r hr
    · exact hr

theorem Sound.upsert {s : CeilingRun} (h : s.Sound) (input : MachineRegistration) (static : Bool) :
    Sound { registry := s.registry.upsert input static
            registered := latest s.registered (.upsert input static) } := by
  unfold MachineRegistry.upsert
  split
  next hcurrent =>
    refine ⟨?_, ?_, fun r hr => ?_⟩
    · intro u hu
      -- the new record has no upstream
      have hnone := reference_eq (s := { s.registry with
        current := some s.registry.records.length
        records := s.registry.records ++ [MachineRecord.update {} input static s.registry.clock] })
        rfl List.getElem?_concat_length
      cases hnone.symm.trans hu
    · intro m hm
      rcases List.mem_append.1 hm with hm | hm
      · exact h.target m hm
      · rw [List.mem_singleton.1 hm]
        rfl
    · cases hcurrent.symm.trans (h.got r hr)
  rename_i r hcurrent
  split
  next hnone =>
    refine ⟨?_, h.target, h.got⟩
    intro u hu
    simp [MachineRegistry.reference, hcurrent, hnone] at hu
  rename_i m hm
  have htarget : ∀ m' ∈ s.registry.records.set r (m.update input static s.registry.clock),
      m'.targetBitrate = 0 := by
    intro m' hm'
    rcases List.mem_or_eq_of_mem_set hm' with hm' | rfl
    · exact h.target m' hm'
    · rfl
  have href : ∀ upstreams : List MachineUpstream, MachineRegistry.reference { s.registry with
      records := s.registry.records.set r (m.update input static s.registry.clock), upstreams } =
        m.upstream := by
    intro upstreams
    exact reference_of_set _ (m.update input static s.registry.clock) hm rfl hcurrent
  simp only
  split
  next hup =>
    refine ⟨?_, htarget, h.got⟩
    intro u hu
    cases hup.symm.trans ((href _).symm.trans hu)
  rename_i u hup
  -- `setSenderTarget` of the upstream that the record keeps
  split
  next hnone =>
    refine ⟨?_, htarget, h.got⟩
    intro u' hu' x hx
    cases hup.symm.trans ((href _).symm.trans hu')
    cases hnone.symm.trans hx
  next x hx =>
    refine ⟨?_, htarget, h.got⟩
    intro u' hu' x' hx'
    cases hup.symm.trans ((href _).symm.trans hu')
    have hset := List.getElem?_set_self (a := x.update input) (List.getElem?_eq_some_iff.1 hx).1
    cases hset.symm.trans hx'
    have hbefore : x.ceilingKbps = s.registered := h.ceiling u ((reference_eq hcurrent hm).trans hup) x hx
    show (if _ then x.ceilingKbps else _) = if _ then s.registered else _
    rw [hbefore]

/-- The upstream that `acquire` creates has no ceiling. -/
theorem Sound.create {s : CeilingRun} (h : s.Sound) {i r : Nat} {m : MachineRecord}
    (hcall : s.registry.calls[i]? = some (.got r)) (hm : s.registry.records[r]? = some m)
    {registry : MachineRegistry} (hregistry : registry = { s.registry with
      upstreams := s.registry.upstreams ++ [m.newMachineUpstream.addViewer]
      records := s.registry.records.set r { m with upstream := some s.registry.upstreams.length }
      calls := s.registry.calls.set i (.holding s.registry.upstreams.length) }) :
    CeilingRegistered { registry, registered := s.registered } ↔ s.registered = 0 := by
  have hcurrent := h.got r (List.mem_of_getElem? hcall)
  have href : registry.reference = some s.registry.upstreams.length := by
    rw [hregistry]
    exact reference_of_set _ { m with upstream := some s.registry.upstreams.length } hm rfl hcurrent
  have hnew : registry.upstreams[s.registry.upstreams.length]? =
      some m.newMachineUpstream.addViewer := by
    rw [hregistry]
    exact List.getElem?_concat_length
  have hceiling : m.newMachineUpstream.addViewer.ceilingKbps = 0 := h.target m (List.mem_of_getElem? hm)
  constructor
  · intro hregistered
    exact (hregistered _ href _ hnew).symm.trans hceiling
  · intro hzero u hu x hx
    cases href.symm.trans hu
    cases hnew.symm.trans hx
    exact hceiling.trans hzero.symm

theorem Sound.step {s s' : CeilingRun} (h : s.Sound) (hstays : s.Stays e) (hok : s.CreatesUnlimited e)
    (hstep : s.step e = some s') : s'.Sound := by
  obtain ⟨registry, hregistry, rfl⟩ := Option.map_eq_some_iff.1 hstep
  have hcase := ceiling_cases hstays hregistry
  cases hcase with
  | quiet _ _ hother hquiet =>
    have hlatest : latest s.registered e = s.registered := by
      cases e with
      | upsert input static => exact absurd rfl (hother input static)
      | _ => rfl
    rw [hlatest]
    exact h.quiet hquiet
  | upsert input static => exact h.upsert input static
  | create i r m hcall hm hup =>
    have hzero : s.registered = 0 := hok r (by rw [hcall]; rfl) m hm hup
    refine ⟨(h.create hcall hm rfl).2 hzero, ?_, ?_⟩
    · intro m' hm'
      rcases List.mem_or_eq_of_mem_set hm' with hm' | rfl
      · exact h.target m' hm'
      · exact h.target m (List.mem_of_getElem? hm)
    · intro r' hr'
      rcases List.mem_or_eq_of_mem_set hr' with hr' | hr'
      · exact h.got r' hr'
      · cases hr'

theorem got_of_record {s : MachineRegistry} {i r : Nat}
    (h : s.calls[i]?.bind (·.record) = some r) : s.calls[i]? = some (.got r) := by
  obtain ⟨pc, hcall, hpc⟩ := Option.bind_eq_some_iff.1 h
  cases pc with
  | got r' =>
    cases hpc
    exact hcall
  | calling | failed _ | holding _ | released => cases hpc

/-- A step behind which the ceiling is the registered one meets the condition. -/
theorem Sound.createsUnlimited {s s' : CeilingRun} (h : s.Sound) (hstays : s.Stays e)
    (hstep : s.step e = some s') (hregistered : s'.CeilingRegistered) : s.CreatesUnlimited e := by
  obtain ⟨registry, hregistry, rfl⟩ := Option.map_eq_some_iff.1 hstep
  cases e with
  | lock i =>
    intro r hr m hm hup
    have hcall := got_of_record hr
    have hsame : some registry = _ := hregistry.symm
    simp only [MachineRegistry.step, hcall, Option.mem_def.1 hm, MachineRegistry.lock, hup] at hsame
    exact (h.create hcall hm (Option.some.inj hsame)).1 hregistered
  | tick | upsert | deregister | list | acquire | get | release | stop => trivial

theorem createsUnlimited_of_none {s : CeilingRun} (hstep : s.step e = none) : s.CreatesUnlimited e := by
  have hnone := Option.map_eq_none_iff.1 hstep
  cases e with
  | lock i =>
    -- the second section of `acquire` always succeeds
    intro r hr m hm hup
    simp only [MachineRegistry.step, got_of_record hr, Option.mem_def.1 hm] at hnone
    cases hnone
  | tick | upsert | deregister | list | acquire | get | release | stop => trivial

end CeilingRun

open CeilingRun in
/-- While a machine stays registered, the ceiling of its upstream is the target bitrate that was
registered last throughout exactly the runs in which no upstream is created after a registration with
a target bitrate. -/
theorem sender_ceiling_iff {start : MachineRegistry}
    (hstart : start = {} ∨ ∃ endpoint, start = .seedStatic endpoint) {es : List RegistryEvent}
    (hstays : Lts.Along step Stays { registry := start } es) :
    Lts.Throughout step CeilingRegistered { registry := start } es ↔
      Lts.Along step CreatesUnlimited { registry := start } es := by
  have hsound : Sound { registry := start } := by
    rcases hstart with rfl | ⟨endpoint, rfl⟩
    · exact ⟨by simp [CeilingRegistered, MachineRegistry.reference], by simp, by simp⟩
    · refine ⟨?_, by simp [MachineRegistry.seedStatic], by simp [MachineRegistry.seedStatic]⟩
      simp [CeilingRegistered, MachineRegistry.reference, MachineRegistry.seedStatic]
  exact Lts.throughout_iff_along_given (fun s h => h.ceiling)
    (fun s e s' h hgiven hok hstep => h.step hgiven hok hstep)
    (fun s e s' h hgiven hstep hp => h.createsUnlimited hgiven hstep hp)
    (fun s e => createsUnlimited_of_none) hsound hstays

theorem sender_ceiling_late_registration :
    Lts.Throughout CeilingRun.step CeilingRun.CeilingRegistered { registry := {} }
      [.upsert {} false, .acquire, .get 0, .lock 0, .upsert { targetBitrate := 8000 } false,
        .upsert {} false, .release 0] :=
  (sender_ceiling_iff (.inl rfl) (by decide)).2 (by decide)

/-- The host reports its bitrate, then a viewer comes: the upstream has no ceiling. -/
theorem sender_ceiling_lost :
    ¬ Lts.Throughout CeilingRun.step CeilingRun.CeilingRegistered { registry := {} }
      [.upsert { targetBitrate := 8000 } false, .acquire, .get 0, .lock 0] := by
  decide

end Rustcast.Relay
