import Rustcast.Host.CommandStream

/-!
# The relay's bitrate target and the host

`abr.go` decides the bitrate of the host's encoder and sends it as a command through the channel that
all commands share. The channel refuses a command when it is full, a new connection begins by emptying
it, and a command that the pump of a connection has taken is lost with the connection. The target is
not sent again: the controller only sends it when it changes.

The commands under way are those written, the one that the pump holds and those in the channel, in this
order.
-/

namespace Rustcast.Relay

/-! ## The controller -/

def abrMinKbps : UInt32 := 1500

/-- 500 ms, in nanoseconds. -/
def abrEstimateInterval : Nat := 500000000

structure AbrState where
  /-- 0 = never adjusted -/
  targetKbps : UInt32 := 0
  ceilingKbps : UInt32 := 0
  lastEstimateUpdate : Option Nat := none
  deriving DecidableEq

/-- A change by a tenth or more is material, and so is one to a bound. The quotient of two 32-bit
numbers that is below a tenth is so by more than a rounding, so that the comparison of floating-point
numbers is the one of the integers. -/
def bitrateEstimateIsMaterial (current next ceiling : UInt32) : Bool :=
  if current = next then false
  else if next = abrMinKbps ∨ ceiling ≠ 0 ∧ next = ceiling then true
  else if current = 0 then true
  else
    let delta := if current < next then next - current else current - next
    decide (current.toNat ≤ 10 * delta.toNat)

namespace AbrState

/-- `setSenderTarget`, with the bitrate that it sends. -/
def setSenderTarget (a : AbrState) (kbps : UInt32) : AbrState × Option UInt32 :=
  let a := { a with ceilingKbps := kbps }
  if kbps = 0 ∨ a.targetKbps ≤ kbps then (a, none)
  else ({ a with targetKbps := kbps }, some kbps)

/-- An estimate within the bounds. -/
def clamped (a : AbrState) (kbps : UInt32) : UInt32 :=
  let kbps := if kbps < abrMinKbps then abrMinKbps else kbps
  if a.ceilingKbps ≠ 0 ∧ a.ceilingKbps < kbps then a.ceilingKbps else kbps

/-- `onEstimate`, with the bitrate that it sends. -/
def onEstimate (a : AbrState) (kbps : UInt32) (now : Nat) : AbrState × Option UInt32 :=
  if kbps = 0 then (a, none)
  else
    let kbps := a.clamped kbps
    if a.lastEstimateUpdate.any (fun last => decide (now < last + abrEstimateInterval)) then (a, none)
    else if a.targetKbps ≠ 0 ∧ !bitrateEstimateIsMaterial a.targetKbps kbps a.ceilingKbps then
      (a, none)
    else ({ a with targetKbps := kbps, lastEstimateUpdate := some now }, some kbps)

/-- Whatever changes the target sends it. -/
theorem setSenderTarget_target (a : AbrState) (kbps : UInt32) :
    (a.setSenderTarget kbps).1.targetKbps = (a.setSenderTarget kbps).2.getD a.targetKbps := by
  unfold setSenderTarget
  simp only
  split <;> rfl

theorem onEstimate_target (a : AbrState) (kbps : UInt32) (now : Nat) :
    (a.onEstimate kbps now).1.targetKbps = (a.onEstimate kbps now).2.getD a.targetKbps := by
  unfold onEstimate
  simp only
  split
  · rfl
  split
  · rfl
  split <;> rfl

end AbrState

/-! ## Commands under way -/

abbrev CommandBytes := List UInt8

def bitrateCommand (kbps : UInt32) : CommandBytes := u32Command cmdBitrate kbps

def isBitrate (cmd : CommandBytes) : Bool := cmd.head? == some cmdBitrate

/-- The newest bitrate command of a sequence. -/
def newestBitrate (commands : List CommandBytes) : Option CommandBytes :=
  (commands.filter isBitrate).getLast?

/-- Losing the command does not lose the newest bitrate command. -/
def Superseded (cmd : CommandBytes) (later : List CommandBytes) : Prop :=
  isBitrate cmd = true → later.any isBitrate = true

instance (cmd : CommandBytes) (later : List CommandBytes) : Decidable (Superseded cmd later) :=
  inferInstanceAs (Decidable (_ → _))

theorem newestBitrate_append (x y : List CommandBytes) :
    newestBitrate (x ++ y) = (newestBitrate y).or (newestBitrate x) := by
  rw [newestBitrate, List.filter_append, List.getLast?_append]
  rfl

variable {cmd : CommandBytes}

theorem newestBitrate_concat_other {x : List CommandBytes} (h : isBitrate cmd = false) :
    newestBitrate (x ++ [cmd]) = newestBitrate x := by
  rw [newestBitrate, List.filter_append, List.filter_singleton, h]
  simp [newestBitrate]

theorem newestBitrate_concat (x : List CommandBytes) (kbps : UInt32) :
    newestBitrate (x ++ [bitrateCommand kbps]) = some (bitrateCommand kbps) := by
  rw [newestBitrate_append]
  rfl

/-- A superseded command may be lost. -/
theorem Superseded.newestBitrate_eq {later : List CommandBytes} (h : Superseded cmd later)
    (earlier : List CommandBytes) :
    newestBitrate (earlier ++ cmd :: later) = newestBitrate (earlier ++ later) := by
  have hsplit : earlier ++ cmd :: later = (earlier ++ [cmd]) ++ later := by simp
  rw [hsplit, newestBitrate_append, newestBitrate_append earlier later]
  cases hcmd : isBitrate cmd with
  | false => rw [newestBitrate_concat_other hcmd]
  | true =>
    obtain ⟨c, hc, hbitrate⟩ := List.any_eq_true.1 (h hcmd)
    have hmem : c ∈ later.filter isBitrate := List.mem_filter.2 ⟨hc, hbitrate⟩
    have hsome : (newestBitrate later).isSome = true := List.getLast?_isSome.2 (List.ne_nil_of_mem hmem)
    rw [Option.or_of_isSome hsome, Option.or_of_isSome hsome]

/-! ## The connection and its pump -/

/-- The goroutine that writes the commands of a connection. -/
inductive CommandPump where
  | off
  | idle
  /-- it has taken a command and is about to write it -/
  | holding (cmd : CommandBytes)
  deriving DecidableEq

/-- Where the connection to the host stands. -/
inductive HostLink where
  | down
  /-- connected, in `drainCommands` -/
  | draining
  /-- about to write the hello -/
  | greeting
  | up (pump : CommandPump)
  deriving DecidableEq

namespace HostLink

def isUp : HostLink → Bool
  | .up _ => true
  | .down | .draining | .greeting => false

/-- The command that the pump of the connection holds. -/
def held : HostLink → List CommandBytes
  | .up (.holding cmd) => [cmd]
  | .up .off | .up .idle | .down | .draining | .greeting => []

def pumps : HostLink → List CommandPump
  | .up pump => [pump]
  | .down | .draining | .greeting => []

end HostLink

structure BitrateRelay where
  abr : AbrState := {}
  commandChan : List CommandBytes := []
  link : HostLink := .down
  /-- the pumps of earlier connections that have not returned yet -/
  stale : List CommandPump := []
  /-- all commands that were written to the host -/
  written : List CommandBytes := []
  deriving DecidableEq

inductive BitrateEvent where
  | estimate (kbps : UInt32) (now : Nat)
  | senderTarget (kbps : UInt32)
  /-- somebody sends another command -/
  | send (cmd : CommandBytes)
  | connected
  | drainOne
  | drained
  /-- the hello is written, or fails; then the viewer count is sent and the pump is started -/
  | hello (written : Bool) (viewerCount : UInt32)
  /-- the connection is closed -/
  | lost
  | take
  | write (succeeds : Bool)
  | takeStale (i : Nat)
  /-- a pump of a closed connection fails to write, or finds that it is done -/
  | endStale (i : Nat)
  deriving DecidableEq

namespace BitrateRelay

/-- A send that does not wait: a full channel drops the command. -/
def offer (s : BitrateRelay) (cmd : CommandBytes) : BitrateRelay :=
  if s.commandChan.length < commandCapacity then { s with commandChan := s.commandChan ++ [cmd] }
  else s

variable (s : BitrateRelay)

/-- `sendBitrateCommand`, for what the controller decides to send. -/
def sendBitrateCommand (decision : AbrState × Option UInt32) : BitrateRelay :=
  match decision with
  | (abr, none) => { s with abr }
  | (abr, some kbps) => { s with abr }.offer (bitrateCommand kbps)

def step : BitrateEvent → Option BitrateRelay
  | .estimate kbps now => some (s.sendBitrateCommand (s.abr.onEstimate kbps now))
  | .senderTarget kbps => some (s.sendBitrateCommand (s.abr.setSenderTarget kbps))
  | .send cmd => if isBitrate cmd then none else some (s.offer cmd)
  | .connected => if s.link = .down then some { s with link := .draining } else none
  | .drainOne =>
    match s.link, s.commandChan with
    | .draining, _ :: rest => some { s with commandChan := rest }
    | _, _ => none
  | .drained =>
    if s.link = .draining ∧ s.commandChan = [] then some { s with link := .greeting } else none
  | .hello written viewerCount =>
    if s.link = .greeting then
      if written then some { s.offer (u32Command cmdViewers viewerCount) with link := .up .idle }
      else some { s with link := .down }
    else none
  | .lost =>
    if s.link = .down then none
    else some { s with link := .down, stale := s.stale ++ s.link.pumps }
  | .take =>
    match s.link, s.commandChan with
    | .up .idle, cmd :: rest => some { s with commandChan := rest, link := .up (.holding cmd) }
    | _, _ => none
  | .write succeeds =>
    match s.link with
    | .up (.holding cmd) =>
      if succeeds then some { s with link := .up .idle, written := s.written ++ [cmd] }
      -- the pump returns, with the connection or, over TCP, without it
      else some { s with link := .up .off }
    | _ => none
  | .takeStale i =>
    match s.stale[i]?, s.commandChan with
    | some .idle, cmd :: rest => some { s with commandChan := rest, stale := s.stale.set i (.holding cmd) }
    | _, _ => none
  | .endStale i => if i < s.stale.length then some { s with stale := s.stale.set i .off } else none

/-- Connected, with nothing left to write. -/
def Drained (s : BitrateRelay) : Prop :=
  s.link.isUp = true ∧ s.commandChan = [] ∧ s.link.held = []

/-- The last bitrate command that the host got is the target. -/
def HostFollows : Prop :=
  s.Drained → s.abr.targetKbps ≠ 0 → newestBitrate s.written = some (bitrateCommand s.abr.targetKbps)

instance (s : BitrateRelay) : Decidable s.Drained := inferInstanceAs (Decidable (_ ∧ _))

instance (s : BitrateRelay) : Decidable s.HostFollows := inferInstanceAs (Decidable (_ → _))

/-- The condition on a step: it does not lose the newest bitrate command under way. -/
def KeepsNewest : BitrateEvent → Prop
  | .estimate kbps now =>
    (s.abr.onEstimate kbps now).2.isSome → s.commandChan.length < commandCapacity
  | .senderTarget kbps =>
    (s.abr.setSenderTarget kbps).2.isSome → s.commandChan.length < commandCapacity
  | .drainOne | .takeStale _ => ∀ cmd ∈ s.commandChan.head?, Superseded cmd s.commandChan.tail
  | .lost | .write false => ∀ cmd ∈ s.link.held, Superseded cmd s.commandChan
  | .send _ | .connected | .drained | .hello _ _ | .take | .write true | .endStale _ => True

instance (s : BitrateRelay) (e : BitrateEvent) : Decidable (s.KeepsNewest e) := by
  unfold KeepsNewest
  split <;> infer_instance

/-! ## The invariant -/

/-- The commands that were written or are still to be written. -/
def underWay (s : BitrateRelay) : List CommandBytes := s.written ++ (s.link.held ++ s.commandChan)

/-- The newest bitrate command under way is the target. -/
def TargetUnderWay : Prop :=
  s.abr.targetKbps ≠ 0 → newestBitrate s.underWay = some (bitrateCommand s.abr.targetKbps)

variable {s s' : BitrateRelay}

theorem TargetUnderWay.of_newest (h : s.TargetUnderWay)
    (htarget : s'.abr.targetKbps = s.abr.targetKbps)
    (hnewest : newestBitrate s'.underWay = newestBitrate s.underWay) : s'.TargetUnderWay := by
  unfold TargetUnderWay
  rw [htarget, hnewest]
  exact h

/-- The connection moves on and the pump's command stays where it is. -/
theorem TargetUnderWay.relink (h : s.TargetUnderWay) {link : HostLink}
    (hheld : link.held = s.link.held) : TargetUnderWay { s with link } := by
  refine h.of_newest rfl ?_
  show newestBitrate (s.written ++ (link.held ++ s.commandChan)) = newestBitrate s.underWay
  rw [hheld]
  rfl

theorem link_offer (s : BitrateRelay) (cmd : CommandBytes) : (s.offer cmd).link = s.link := by
  unfold offer
  split <;> rfl

namespace TargetUnderWay

variable (h : s.TargetUnderWay)

include h

theorem offer_other (hother : isBitrate cmd = false) : (s.offer cmd).TargetUnderWay := by
  unfold offer
  split
  · refine h.of_newest rfl ?_
    have happend : underWay { s with commandChan := s.commandChan ++ [cmd] } = s.underWay ++ [cmd] := by
      simp [underWay]
    rw [happend, newestBitrate_concat_other hother]
  · exact h

theorem sendBitrateCommand {decision : AbrState × Option UInt32}
    (htarget : decision.1.targetKbps = decision.2.getD s.abr.targetKbps)
    (hroom : decision.2.isSome → s.commandChan.length < commandCapacity) :
    (s.sendBitrateCommand decision).TargetUnderWay := by
  obtain ⟨abr, sent⟩ := decision
  cases sent with
  | none => exact h.of_newest htarget rfl
  | some kbps =>
    have hfits := hroom rfl
    have hsent : abr.targetKbps = kbps := htarget
    have happend : underWay { s with abr, commandChan := s.commandChan ++ [bitrateCommand kbps] } =
        s.underWay ++ [bitrateCommand kbps] := by
      simp [underWay]
    unfold BitrateRelay.sendBitrateCommand offer
    simp only [hfits, if_true]
    intro _
    rw [happend, newestBitrate_concat, hsent]

theorem discard {rest : List CommandBytes} (hchan : s.commandChan = cmd :: rest)
    (hlater : ∀ cmd ∈ s.commandChan.head?, Superseded cmd s.commandChan.tail) (stale : List CommandPump) :
    TargetUnderWay { s with commandChan := rest, stale } := by
  refine h.of_newest rfl ?_
  rw [hchan] at hlater
  have hlost := (hlater cmd rfl).newestBitrate_eq (s.written ++ s.link.held)
  rw [List.tail_cons] at hlost
  unfold underWay
  rw [hchan, ← List.append_assoc, ← List.append_assoc, hlost]

theorem abandon (hlater : ∀ cmd ∈ s.link.held, Superseded cmd s.commandChan) {link : HostLink}
    (hheld : link.held = []) (stale : List CommandPump) : TargetUnderWay { s with link, stale } := by
  refine h.of_newest rfl ?_
  unfold underWay
  rw [hheld]
  cases hlink : s.link.held with
  | nil => rfl
  | cons cmd rest =>
    have hone : rest = [] := by
      unfold HostLink.held at hlink
      split at hlink <;> cases hlink
      rfl
    rw [hlink] at hlater
    rw [hone]
    exact ((hlater cmd List.mem_cons_self).newestBitrate_eq s.written).symm

theorem step {e : BitrateEvent} (hok : s.KeepsNewest e) (hstep : s.step e = some s') : s'.TargetUnderWay := by
  cases e with
  | estimate kbps now =>
    cases hstep
    exact h.sendBitrateCommand (s.abr.onEstimate_target kbps now) hok
  | senderTarget kbps =>
    cases hstep
    exact h.sendBitrateCommand (s.abr.setSenderTarget_target kbps) hok
  | send cmd =>
    simp only [BitrateRelay.step] at hstep
    split at hstep <;> cases hstep
    exact h.offer_other (Bool.eq_false_of_not_eq_true ‹_›)
  | connected =>
    simp only [BitrateRelay.step] at hstep
    split at hstep <;> cases hstep
    rename_i hlink
    exact h.relink (by rw [hlink]; rfl)
  | drainOne =>
    simp only [BitrateRelay.step] at hstep
    split at hstep <;> cases hstep
    rename_i cmd rest _ hchan
    exact h.discard hchan hok s.stale
  | drained =>
    simp only [BitrateRelay.step] at hstep
    split at hstep <;> cases hstep
    rename_i hdone
    exact h.relink (by rw [hdone.1]; rfl)
  | hello written viewerCount =>
    simp only [BitrateRelay.step] at hstep
    split at hstep
    next hlink =>
      split at hstep <;> cases hstep
      · have hsent := h.offer_other (show isBitrate (u32Command cmdViewers viewerCount) = false from rfl)
        exact hsent.relink (by rw [link_offer, hlink]; rfl)
      · exact h.relink (by rw [hlink]; rfl)
    · cases hstep
  | lost =>
    simp only [BitrateRelay.step] at hstep
    split at hstep <;> cases hstep
    exact h.abandon hok rfl _
  | take =>
    -- the command moves from the channel to the pump, and keeps its place
    simp only [BitrateRelay.step] at hstep
    split at hstep <;> cases hstep
    rename_i cmd rest hlink hchan
    refine h.of_newest rfl ?_
    rw [underWay, underWay, hlink, hchan]
    rfl
  | write succeeds =>
    simp only [BitrateRelay.step] at hstep
    split at hstep
    next cmd hlink =>
      cases succeeds with
      | true =>
        cases hstep
        refine h.of_newest rfl ?_
        rw [underWay, underWay, hlink]
        simp [HostLink.held]
      | false =>
        cases hstep
        exact h.abandon hok rfl s.stale
    · cases hstep
  | takeStale i =>
    simp only [BitrateRelay.step] at hstep
    split at hstep <;> cases hstep
    rename_i cmd rest _ hchan
    exact h.discard hchan hok _
  | endStale i =>
    simp only [BitrateRelay.step] at hstep
    split at hstep <;> cases hstep
    exact h.of_newest rfl rfl

/-- With nothing left to write, what was written is all that was under way. -/
theorem hostFollows : s.HostFollows := by
  rintro ⟨-, hchan, hheld⟩ htarget
  have hunderWay : s.underWay = s.written := by
    rw [underWay, hchan, hheld, List.append_nil, List.append_nil]
  rw [← hunderWay]
  exact h htarget

end TargetUnderWay

end BitrateRelay

open BitrateRelay in
/-- The host follows the relay's target in every run in which no step loses the newest bitrate command
under way. -/
theorem host_follows_target {es : List BitrateEvent} (hok : Lts.Along step KeepsNewest {} es) :
    Lts.Throughout step HostFollows {} es := by
  have hstart : TargetUnderWay {} := fun h => absurd rfl h
  have hinv : Lts.Throughout step TargetUnderWay {} es :=
    Lts.throughout_of_along (fun s e s' h hok hstep => h.step hok hstep) hstart hok
  exact hinv.mono fun s h => h.hostFollows

/-- Estimates on a connection that is up, the second one clamped by a new ceiling. -/
theorem host_follows_target_clamped : let events : List BitrateEvent :=
      [.connected, .drained, .hello true 1, .estimate 5000 0, .take, .write true, .take, .write true,
        .estimate 9000 600000000, .senderTarget 8000, .take, .write true, .take, .write true]
    (Lts.run BitrateRelay.step {} events).bind (newestBitrate ·.written) = some (bitrateCommand 8000) ∧
      Lts.Along BitrateRelay.step BitrateRelay.KeepsNewest {} events ∧
      Lts.Throughout BitrateRelay.step BitrateRelay.HostFollows {} events := by
  intro events
  have hok : Lts.Along BitrateRelay.step BitrateRelay.KeepsNewest {} events := by decide
  exact ⟨by decide, hok, host_follows_target hok⟩

/-- The estimate of the first viewer comes before the connection and is discarded by it. -/
theorem first_estimate_discarded :
    ¬ Lts.Throughout BitrateRelay.step BitrateRelay.HostFollows {}
      [.estimate 5000 0, .connected, .drainOne, .drained, .hello true 1, .take, .write true] := by
  decide

end Rustcast.Relay
