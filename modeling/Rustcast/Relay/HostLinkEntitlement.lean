import Rustcast.Relay.HostLinks
import Rustcast.Relay.Registry

/-!
# Who may have a parked link

`registry.go` decides which machines may park a link, under a lock of its own; the links are in the hub,
under another one. Each operation of the registry holds its lock while it calls the hub, and the goroutines
of the hub move between the calls.
-/

namespace Rustcast.Relay

/-! ## The registry -/

/-- What the holder of the lock has still to do. -/
inductive RegistrySection where
  /-- `upsert`, before it removes the link, and before it writes the record -/
  | upsertRemove (id : String) (input : MachineRegistration) (dropHostLink : Bool)
  | upsertStore (id : String) (input : MachineRegistration)
  | deregisterRemove (id : String)
  | deregisterDelete (id : String)
  /-- a record has expired; `rest` are those that `list` has still to look at -/
  | expireRemove (id : String) (rest : List String)
  | listing (rest : List String)
  | park (id : String) (conn : Nat)
  deriving DecidableEq

structure LinkRegistry where
  clock : Nat := 0
  machines : OrderedMap String MachineRecord := .empty
  links : HostLinkSystem := {}
  /-- the holder of the registry's lock -/
  holder : Option RegistrySection := none

inductive LinkRegistryEvent where
  | tick
  | upsert (id : String) (input : MachineRegistration)
  | deregister (id : String)
  | get (id : String)
  /-- the order in which the map is iterated -/
  | list (order : List String)
  | parkHostLink (id : String) (conn : Nat)
  /-- the holder of the lock moves -/
  | advance
  /-- a goroutine of the hub moves, or a connection ends -/
  | hub (e : HostLinkEvent)
  deriving DecidableEq

namespace LinkRegistry

variable (s : LinkRegistry)

def record (id : String) : MachineRecord := (s.machines.get? id).getD {}

/-- The record is there while the lock is held. -/
def upsert (id : String) (input : MachineRegistration) : LinkRegistry :=
  { s with
    machines := if s.machines.get? id = none then s.machines.set id {} else s.machines
    holder := some (.upsertRemove id input ((s.record id).hostDialsOut && !input.hostDialsOut)) }

def deregister (id : String) : LinkRegistry :=
  match s.machines.get? id with
  | some m => if m.static then s else { s with holder := some (.deregisterRemove id) }
  | none => s

/-- A record that has expired goes offline, and its link is to be removed. -/
def expire (id : String) (m : MachineRecord) (rest : List String) : LinkRegistry :=
  { s with
    machines := s.machines.set id { m with online := false, upstream := none }
    holder := some (.expireRemove id rest) }

def get (id : String) : LinkRegistry :=
  match s.machines.get? id with
  | some m => if m.expired s.clock then s.expire id m [] else s
  | none => s

def parkHostLink (id : String) (conn : Nat) : LinkRegistry :=
  match s.machines.get? id with
  | some m =>
    if m.static || !m.hostDialsOut || decide (machineExpiry < s.clock - m.lastSeen) then s
    else { s with holder := some (.park id conn) }
  | none => s

/-- The lock is released after the last record. -/
def continueList (rest : List String) : LinkRegistry :=
  { s with holder := if rest.isEmpty then none else some (.listing rest) }

/-- The next step of the holder. -/
def advance : RegistrySection → LinkRegistry
  | .upsertRemove id input dropHostLink =>
    { s with
      links := if dropHostLink then s.links.remove id else s.links
      holder := some (.upsertStore id input) }
  | .upsertStore id input =>
    { s with machines := s.machines.set id ((s.record id).update input false s.clock), holder := none }
  | .deregisterRemove id => { s with links := s.links.remove id, holder := some (.deregisterDelete id) }
  | .deregisterDelete id => { s with machines := s.machines.delete id, holder := none }
  | .expireRemove id rest => { s with links := s.links.remove id }.continueList rest
  | .listing rest =>
    match rest with
    | [] => { s with holder := none }
    | id :: rest =>
      match s.machines.get? id with
      | some m => if m.expired s.clock then s.expire id m rest else s.continueList rest
      | none => s.continueList rest
  | .park id conn => { s with links := s.links.park id conn, holder := none }

/-- An operation takes the lock, and its holder then moves step by step. -/
def step : LinkRegistryEvent → Option LinkRegistry
  | .tick => some { s with clock := s.clock + 1 }
  | .upsert id input => if s.holder = none then some (s.upsert id input) else none
  | .deregister id => if s.holder = none then some (s.deregister id) else none
  | .get id => if s.holder = none then some (s.get id) else none
  | .list order =>
    if s.holder = none ∧ order.isPerm (s.machines.entries.map Prod.fst) then some (s.continueList order)
    else none
  | .parkHostLink id conn => if s.holder = none then some (s.parkHostLink id conn) else none
  | .advance => s.holder.map s.advance
  -- parking and removing need the registry's lock, and are steps of its holder
  | .hub e =>
    if e.ofRegistry then none else (s.links.step e).map fun links => { s with links }

/-- `seedStatic`, at the start. -/
def seedStatic (id endpoint : String) : LinkRegistry :=
  let m : MachineRecord := { frameEndpoint := endpoint, lastSeen := s.clock, online := true, static := true }
  { s with machines := s.machines.set id m }

end LinkRegistry

/-- A registry with machines that are configured. -/
def newMachineRegistry (seeds : List (String × String)) : LinkRegistry :=
  seeds.foldl (fun s seed => s.seedStatic seed.1 seed.2) { links := newHostLinkHub true }

/-! ## Entitlement -/

def MachineRecord.entitled (m : MachineRecord) : Bool := !m.static && m.hostDialsOut

namespace LinkRegistry

/-- The machine is registered and may have a link. -/
def EntitledMachine (machines : OrderedMap String MachineRecord) (id : String) : Prop :=
  ∃ m, machines.get? id = some m ∧ m.entitled = true

/-- Every parked link belongs to a machine that may have one. -/
def Entitled (s : LinkRegistry) : Prop :=
  ∀ id link, s.links.hub.links.get? id = some link → EntitledMachine s.machines id

/-- What the holder of the lock has established. -/
def HolderOk (s : LinkRegistry) : RegistrySection → Prop
  | .upsertRemove id input dropHostLink =>
    dropHostLink = true ∨ input.hostDialsOut = true ∨ s.links.hub.links.get? id = none
  | .upsertStore id input => input.hostDialsOut = true ∨ s.links.hub.links.get? id = none
  | .deregisterDelete id => s.links.hub.links.get? id = none
  | .park id _ => EntitledMachine s.machines id
  | .deregisterRemove _ | .expireRemove _ _ | .listing _ => True

structure EntitledInv (s : LinkRegistry) : Prop where
  entitled : Entitled s
  holder : ∀ section', s.holder = some section' → HolderOk s section'

variable {s : LinkRegistry} {id : String}

theorem Entitled.none (h : Entitled s) (hnot : ¬ EntitledMachine s.machines id) :
    s.links.hub.links.get? id = none := by
  cases hget : s.links.hub.links.get? id with
  | none => rfl
  | some link => exact absurd (h id link hget) hnot

/-! ### The hub -/

/-- Links only go away, and the holder relies on those that are gone. -/
theorem EntitledInv.setLinks {links : HostLinkSystem} (h : EntitledInv s)
    (hshrinks : s.links.hub.Shrinks links.hub) : EntitledInv { s with links } where
  entitled id link hget := h.entitled id link (hshrinks.links id link hget)
  holder section' hholder := by
    have hok := h.holder section' hholder
    cases section' with
    | upsertRemove id input dropHostLink => exact hok.imp_right (.imp_right hshrinks.none)
    | upsertStore id input => exact .imp_right hshrinks.none hok
    | deregisterRemove id => trivial
    | deregisterDelete id => exact hshrinks.none hok
    | expireRemove id rest => trivial
    | listing rest => trivial
    | park id conn => exact hok

theorem get?_remove (links : HostLinkSystem) (id : String) : (links.remove id).hub.links.get? id = none := by
  show (links.hub.remove id).links.get? id = none
  unfold HostLinkHub.remove
  split
  · exact links.hub.get?_drop_self id
  next hnone => simpa using hnone

/-! ### The lock -/

theorem EntitledInv.setHolder {holder : Option RegistrySection} (h : EntitledInv s)
    (hok : ∀ section', holder = some section' → HolderOk s section') : EntitledInv { s with holder } where
  entitled := h.entitled
  holder section' hholder := by
    have hok' := hok section' hholder
    cases section' <;> exact hok'

theorem EntitledInv.continueList (h : EntitledInv s) (rest : List String) :
    EntitledInv (s.continueList rest) := by
  refine h.setHolder fun section' hsection => ?_
  split at hsection
  · cases hsection
  · cases hsection
    trivial

/-- A record is written by the holder of the lock, which is not about to park. -/
theorem entitled_set {machines : OrderedMap String MachineRecord} {m : MachineRecord} (id' : String)
    (hentitled : EntitledMachine machines id') (hm : id' = id → m.entitled = true) :
    EntitledMachine (machines.set id m) id' := by
  obtain ⟨m', hget, hm'⟩ := hentitled
  by_cases hid : id' = id
  · exact ⟨m, by rw [OrderedMap.get?_set, if_pos hid], hm hid⟩
  · exact ⟨m', by rw [OrderedMap.get?_set, if_neg hid]; exact hget, hm'⟩

namespace EntitledInv

variable (h : EntitledInv s)

include h

theorem upsert (id : String) (input : MachineRegistration) : EntitledInv (s.upsert id input) where
  entitled id' link hget := by
    have hentitled := h.entitled id' link hget
    show EntitledMachine (if s.machines.get? id = none then s.machines.set id {} else s.machines) id'
    split
    next hnone =>
      -- the empty record is of an id without one, which has no link
      refine entitled_set id' hentitled fun hid => ?_
      obtain ⟨m, hm, -⟩ := hentitled
      rw [hid, hnone] at hm
      cases hm
    · exact hentitled
  holder section' hsection := by
    cases hsection
    show _ ∨ _ ∨ s.links.hub.links.get? id = none
    cases hdials : input.hostDialsOut with
    | true => exact .inr (.inl rfl)
    | false =>
      cases hrecord : (s.record id).hostDialsOut with
      | true => exact .inl rfl
      | false =>
        -- the record does not dial out, so that there is no link
        refine .inr (.inr (h.entitled.none ?_))
        rintro ⟨m, hm, hentitled⟩
        rw [record, hm, Option.getD_some] at hrecord
        rw [MachineRecord.entitled, hrecord, Bool.and_false] at hentitled
        cases hentitled

theorem expire {m : MachineRecord} (hm : s.machines.get? id = some m) (rest : List String) :
    EntitledInv (s.expire id m rest) where
  entitled id' link hget := by
    have hentitled := h.entitled id' link hget
    refine entitled_set id' hentitled fun hid => ?_
    obtain ⟨m', hm', hok⟩ := hentitled
    rw [hid, hm] at hm'
    cases hm'
    exact hok
  holder section' hsection := by
    cases hsection
    trivial

theorem get (id : String) : EntitledInv (s.get id) := by
  unfold LinkRegistry.get
  split
  next m hm =>
    split
    · exact h.expire hm []
    · exact h
  · exact h

theorem deregister (id : String) : EntitledInv (s.deregister id) := by
  unfold LinkRegistry.deregister
  split
  next m hm =>
    split
    · exact h
    · refine h.setHolder fun section' hsection => ?_
      cases hsection
      trivial
  · exact h

theorem parkHostLink (id : String) (conn : Nat) : EntitledInv (s.parkHostLink id conn) := by
  unfold LinkRegistry.parkHostLink
  split
  next m hm =>
    split
    · exact h
    next hchecks =>
      refine h.setHolder fun section' hsection => ?_
      cases hsection
      refine ⟨m, hm, ?_⟩
      simp only [Bool.or_eq_true, Bool.not_eq_true', not_or, Bool.not_eq_true, Bool.not_eq_false] at hchecks
      obtain ⟨⟨hstatic, hdials⟩, -⟩ := hchecks
      rw [MachineRecord.entitled, hstatic, hdials]
      rfl
  · exact h

/-! ### The holder -/

theorem store {input : MachineRegistration}
    (hok : input.hostDialsOut = true ∨ s.links.hub.links.get? id = none) :
    EntitledInv { s with
      machines := s.machines.set id ((s.record id).update input false s.clock), holder := none } where
  entitled id' link hget := by
    refine entitled_set id' (h.entitled id' link hget) fun hid => ?_
    -- registrations are dynamic, so that dialing out is all that is left to check
    rcases hok with hdials | hnone
    · exact hdials
    · rw [← hid] at hnone
      rw [show s.links.hub.links.get? id' = some link from hget] at hnone
      cases hnone
  holder section' hsection := by cases hsection

theorem delete (hnone : s.links.hub.links.get? id = none) :
    EntitledInv { s with machines := s.machines.delete id, holder := none } where
  entitled id' link hget := by
    obtain ⟨m, hm, hok⟩ := h.entitled id' link hget
    refine ⟨m, ?_, hok⟩
    rw [OrderedMap.get?_delete, if_neg ?_]
    · exact hm
    · rintro rfl
      rw [show s.links.hub.links.get? id' = some link from hget] at hnone
      cases hnone
  holder section' hsection := by cases hsection

theorem park (conn : Nat) (hok : EntitledMachine s.machines id) :
    EntitledInv { s with links := s.links.park id conn, holder := none } where
  entitled id' link hget := by
    rw [HostLinkSystem.park, HostLinkHub.park, OrderedMap.get?_set] at hget
    split at hget
    next hid =>
      rw [hid]
      exact hok
    · exact h.entitled id' link hget
  holder section' hsection := by cases hsection

theorem advance {section' : RegistrySection} (hholder : s.holder = some section') :
    EntitledInv (s.advance section') := by
  have hok := h.holder section' hholder
  have hremove : ∀ id, s.links.hub.Shrinks (s.links.remove id).hub := s.links.hub.shrinks_remove
  cases section' with
  | upsertRemove id input dropHostLink =>
    cases dropHostLink with
    | true =>
      refine (h.setLinks (hremove id)).setHolder fun section' hsection => ?_
      cases hsection
      exact .inr (get?_remove s.links id)
    | false =>
      refine h.setHolder fun section' hsection => ?_
      cases hsection
      exact hok.resolve_left Bool.false_ne_true
  | upsertStore id input => exact h.store hok
  | deregisterRemove id =>
    refine (h.setLinks (hremove id)).setHolder fun section' hsection => ?_
    cases hsection
    exact get?_remove s.links id
  | deregisterDelete id => exact h.delete hok
  | expireRemove id rest => exact (h.setLinks (hremove id)).continueList rest
  | listing rest =>
    cases rest with
    | nil => exact h.setHolder fun section' hsection => by cases hsection
    | cons id rest =>
      unfold LinkRegistry.advance
      dsimp only
      split
      next m hm =>
        split
        · exact h.expire hm rest
        · exact h.continueList rest
      · exact h.continueList rest
  | park id conn => exact h.park conn hok

/-! ## Runs -/

theorem step {s' : LinkRegistry} (e : LinkRegistryEvent) (hstep : s.step e = some s') : EntitledInv s' := by
  cases e with
  | tick =>
    cases hstep
    exact ⟨h.entitled, fun section' hholder => by
      have hok := h.holder section' hholder
      cases section' <;> exact hok⟩
  | upsert id input =>
    obtain ⟨-, hstep⟩ := Option.ite_none_right_eq_some.mp hstep
    cases hstep
    exact h.upsert id input
  | deregister id =>
    obtain ⟨-, hstep⟩ := Option.ite_none_right_eq_some.mp hstep
    cases hstep
    exact h.deregister id
  | get id =>
    obtain ⟨-, hstep⟩ := Option.ite_none_right_eq_some.mp hstep
    cases hstep
    exact h.get id
  | list order =>
    obtain ⟨-, hstep⟩ := Option.ite_none_right_eq_some.mp hstep
    cases hstep
    exact h.continueList order
  | parkHostLink id conn =>
    obtain ⟨-, hstep⟩ := Option.ite_none_right_eq_some.mp hstep
    cases hstep
    exact h.parkHostLink id conn
  | advance =>
    obtain ⟨section', hholder, rfl⟩ := Option.map_eq_some_iff.mp hstep
    exact h.advance hholder
  | hub e =>
    obtain ⟨hother, hstep⟩ := Option.ite_none_left_eq_some.mp hstep
    obtain ⟨links, hlinks, rfl⟩ := Option.map_eq_some_iff.mp hstep
    rcases HostLinkSystem.step_cases hlinks with ⟨-, hregistry⟩ | ⟨-, hregistry⟩ | hmoves
    · exact absurd hregistry hother
    · exact absurd hregistry hother
    · exact h.setLinks hmoves.shrinks

end EntitledInv

/-- Seeding changes the records only, and there are no links yet. -/
theorem entitledInv_seed (seeds : List (String × String)) (hlinks : s.links.hub.links = .empty)
    (hholder : s.holder = none) :
    EntitledInv (seeds.foldl (fun s seed => s.seedStatic seed.1 seed.2) s) := by
  induction seeds generalizing s with
  | nil =>
    refine ⟨fun id link hget => ?_, fun section' hsection => ?_⟩
    · rw [List.foldl_nil, hlinks] at hget
      cases hget
    · rw [List.foldl_nil, hholder] at hsection
      cases hsection
  | cons seed seeds ih => exact ih hlinks hholder

end LinkRegistry

/-- In every state of every interleaving, a parked link belongs to a machine that is registered, not
static, and declares that its host dials out. -/
theorem parked_links_entitled (seeds : List (String × String)) (events : List LinkRegistryEvent) :
    Lts.Throughout LinkRegistry.step
      (fun s => ∀ id link, s.links.hub.links.get? id = some link →
        ∃ m, s.machines.get? id = some m ∧ m.static = false ∧ m.hostDialsOut = true)
      (newMachineRegistry seeds) events := by
  have hstart : (newMachineRegistry seeds).EntitledInv := LinkRegistry.entitledInv_seed seeds rfl rfl
  refine (Lts.throughout_of_invariant (fun _ e _ h => h.step e) hstart).mono fun s h => ?_
  intro id link hget
  obtain ⟨m, hm, hok⟩ := h.entitled id link hget
  rw [MachineRecord.entitled, Bool.and_eq_true, Bool.not_eq_true'] at hok
  exact ⟨m, hm, hok⟩

/-- A machine registers, parks a link, and registers again without dialing out. -/
example : (Lts.run LinkRegistry.step (newMachineRegistry [("s", "")])
    [.upsert "m" { hostDialsOut := true }, .advance, .advance, .parkHostLink "m" 5, .advance,
      .upsert "m" {}, .advance]).map (fun s => (s.links.hub.links.entries, s.holder)) =
    some ([], some (.upsertStore "m" {})) := by decide

end Rustcast.Relay
