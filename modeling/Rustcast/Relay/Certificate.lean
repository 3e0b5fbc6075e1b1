import Mathlib.Data.List.Chain
import Rustcast.Core.BinaryText
import Rustcast.Core.Lts
import Rustcast.Core.Sha256

/-!
# Rollover of the relay's certificates

Without a configured certificate the relay makes its own, valid for 13 days, and replaces it every six
days by one that was made a rotation earlier. A browser pins the hashes that the relay publishes: the
hash of the certificate in use and, from ten minutes before the rotation on, that of the next one.

The model is `certificate.go` with a clock: `runRotation` as one step per wait, per attempt of `rotate`
and per section of the lock, with any time between them. A timer does not fire early, and that is all
that is known of it.
-/

namespace Rustcast.Relay

/-! ## Certificates -/

/-- Times and durations are nanoseconds. -/
def oneMinute : Int := 60 * 1000000000

def oneDay : Int := 24 * 60 * oneMinute

def selfSignedCertificateLifetime : Int := 13 * oneDay

def selfSignedCertificateRotation : Int := 6 * oneDay

def selfSignedCertificateOverlap : Int := 10 * oneMinute

structure RelayCertificate where
  /-- the chain, as DER -/
  certificate : List (List UInt8)
  notBefore : Int
  notAfter : Int
  deriving DecidableEq

namespace RelayCertificate

/-- X.509 times are whole seconds, and both ends belong to the validity period. -/
def x509Time (t : Int) : Int := t / 1000000000

def ValidAt (c : RelayCertificate) (t : Int) : Prop :=
  x509Time c.notBefore ≤ x509Time t ∧ x509Time t ≤ x509Time c.notAfter

instance (c : RelayCertificate) (t : Int) : Decidable (c.ValidAt t) :=
  inferInstanceAs (Decidable (_ ∧ _))

/-- The reading of the clock that a self-signed certificate was made with. -/
def madeAt (c : RelayCertificate) : Int := c.notAfter - selfSignedCertificateLifetime

end RelayCertificate

/-- The key, the serial number and the signature are the library's: it returns the certificate as DER,
or an error. -/
def generateRelayCertificate (now : Int) (created : Except String (List UInt8)) :
    Except String RelayCertificate :=
  match created with
  | .error e => .error e
  | .ok der => .ok {
      certificate := [der]
      notBefore := now - oneMinute
      notAfter := now + selfSignedCertificateLifetime }

structure RelayCertificateManager where
  configured : Bool
  certificate : RelayCertificate
  next : Option RelayCertificate := none
  nextRotation : Int := 0
  deriving DecidableEq

/-- The clock is read three times: for each of the two certificates and for the first rotation. -/
structure StartReadings where
  made : Int
  madeNext : Int
  started : Int
  made_le : made ≤ madeNext
  madeNext_le : madeNext ≤ started

def newRelayCertificateManager (certFile keyFile : String) (loaded : Except String RelayCertificate)
    (readings : StartReadings) (created createdNext : Except String (List UInt8)) :
    Except String RelayCertificateManager := do
  if certFile ≠ "" ∧ keyFile ≠ "" then
    let certificate ← loaded
    .ok { configured := true, certificate }
  else
    let certificate ← generateRelayCertificate readings.made created
    let next ← generateRelayCertificate readings.madeNext createdNext
    .ok {
      configured := false
      certificate
      next := some next
      nextRotation := readings.started + selfSignedCertificateRotation }

namespace RelayCertificateManager

def getCertificate (m : RelayCertificateManager) : RelayCertificate := m.certificate

/-- `certificateHashes`, called at the time `now`. -/
def certificateHashes (sha256 : List UInt8 → List UInt8) (m : RelayCertificateManager) (now : Int) :
    List (List UInt8) :=
  if m.configured then []
  else
    match m.certificate.certificate with
    | [] => []
    | der :: _ =>
      base64Encode (sha256 der) ::
        match m.next with
        | none => []
        | some next =>
          if m.nextRotation - now ≤ selfSignedCertificateOverlap then
            match next.certificate with
            | [] => []
            | nextDer :: _ => [base64Encode (sha256 nextDer)]
          else []

end RelayCertificateManager

/-! ## The rotation loop -/

/-- Where `runRotation` stands. -/
inductive RotationPc where
  | loop
  /-- waiting until the overlap begins -/
  | waitOverlap (rotationAt : Int)
  | waitRotation (rotationAt : Int)
  /-- about to call `rotate` -/
  | rotating
  /-- `rotate` has made a certificate and not taken the lock yet -/
  | made (following : RelayCertificate)
  /-- `rotate` holds the lock and has stored the next certificate -/
  | stored (following : RelayCertificate)
  /-- waiting for a minute after a failed attempt -/
  | retry (retryAt : Int)
  | stopped
  deriving DecidableEq

structure CertificateRelay where
  manager : RelayCertificateManager
  clock : Int
  pc : RotationPc
  /-- The delays of the rotations so far. A rotation is due six days after the certificate was made
  that it puts to use, and done when the next rotation is scheduled. The start counts as the first
  rotation, due when its certificate was made. -/
  delays : List Int
  deriving DecidableEq

inductive RotationEvent where
  | tick (elapsed : Nat)
  | readRotation
  | overlapReached
  | rotationReached
  | generate (created : Except String (List UInt8))
  | store
  | schedule
  | retryReached
  | cancel

variable {s s' : CertificateRelay} {next : RelayCertificate}

variable {created : Except String (List UInt8)} {c : RelayCertificate} {es : List RotationEvent}

namespace CertificateRelay

/-- The relay behind `newRelayCertificateManager`, with `runRotation` started. -/
def start (manager : RelayCertificateManager) (readings : StartReadings) : CertificateRelay where
  manager := manager
  clock := readings.started
  pc := if manager.configured then .stopped else .loop
  delays := [readings.started - readings.made]

def step (s : CertificateRelay) : RotationEvent → Option CertificateRelay
  | .tick elapsed => some { s with clock := s.clock + elapsed }
  | .readRotation =>
    match s.pc with
    | .loop => some { s with pc := .waitOverlap s.manager.nextRotation }
    | _ => none
  | .overlapReached =>
    match s.pc with
    | .waitOverlap rotationAt =>
      if rotationAt - selfSignedCertificateOverlap ≤ s.clock then
        some { s with pc := .waitRotation rotationAt }
      else none
    | _ => none
  | .rotationReached =>
    match s.pc with
    | .waitRotation rotationAt =>
      if rotationAt ≤ s.clock then some { s with pc := .rotating } else none
    | _ => none
  | .generate created =>
    match s.pc with
    | .rotating =>
      match generateRelayCertificate s.clock created with
      | .error _ => some { s with pc := .retry (s.clock + oneMinute) }
      | .ok following => some { s with pc := .made following }
    | _ => none
  | .store =>
    match s.pc with
    | .made following =>
      match s.manager.next with
      | none => some { s with pc := .retry (s.clock + oneMinute) }
      | some next =>
        some { s with manager := { s.manager with certificate := next }, pc := .stored following }
    | _ => none
  | .schedule =>
    match s.pc with
    | .stored following =>
      some { s with
        manager := { s.manager with
          next := some following
          nextRotation := s.clock + selfSignedCertificateRotation }
        pc := .loop
        delays := s.delays ++
          [s.clock - (s.manager.certificate.madeAt + selfSignedCertificateRotation)] }
    | _ => none
  | .retryReached =>
    match s.pc with
    | .retry retryAt => if retryAt ≤ s.clock then some { s with pc := .rotating } else none
    | _ => none
  | .cancel =>
    -- the three waits end when the context is cancelled
    match s.pc with
    | .waitOverlap _ | .waitRotation _ | .retry _ => some { s with pc := .stopped }
    | _ => none

/-- `rotate` does not hold the lock, so that hashes can be read. -/
def Unlocked (s : CertificateRelay) : Prop := ∀ following, s.pc ≠ .stored following

/-- The time since the next rotation was due, at most its delay. -/
def overdue (s : CertificateRelay) : Int :=
  match s.manager.next with
  | none => 0
  | some next => s.clock - (next.madeAt + selfSignedCertificateRotation)

/-- The delays of any two consecutive rotations add up to less than a day. -/
def Punctual (s : CertificateRelay) : Prop :=
  (s.delays ++ [s.overdue]).IsChain fun a b => a + b < oneDay

instance (s : CertificateRelay) : Decidable s.Punctual := inferInstanceAs (Decidable (List.IsChain _ _))

/-! ## The invariant of the loop -/

/-- What is known of a self-signed certificate. -/
structure SelfSigned (c : RelayCertificate) (now : Int) : Prop where
  chain : c.certificate ≠ []
  notBefore : c.notBefore = c.madeAt - oneMinute
  madeAt_le : c.madeAt ≤ now

/-- What `runRotation` knows where it stands. -/
def PcSound (s : CertificateRelay) : RotationPc → Prop
  | .loop => True
  | .waitOverlap rotationAt => rotationAt = s.manager.nextRotation
  | .waitRotation rotationAt => rotationAt = s.manager.nextRotation
  | .rotating => s.manager.nextRotation ≤ s.clock
  | .made following => s.manager.nextRotation ≤ s.clock ∧ SelfSigned following s.clock
  | .stored following =>
    s.manager.nextRotation ≤ s.clock ∧ SelfSigned following s.clock ∧
      s.manager.next = some s.manager.certificate
  | .retry _ => s.manager.nextRotation ≤ s.clock
  | .stopped => True

/-- The invariant of `runRotation`. -/
structure Rotating (s : CertificateRelay) (next : RelayCertificate) : Prop where
  configured : s.manager.configured = false
  next_eq : s.manager.next = some next
  served : SelfSigned s.manager.certificate s.clock
  made : SelfSigned next s.clock
  scheduled : next.madeAt + selfSignedCertificateRotation ≤ s.manager.nextRotation
  delays : s.delays ≠ [] ∧ ∀ d ∈ s.delays, 0 ≤ d
  /-- the next certificate was made before the last rotation was done -/
  consecutive : ∀ d ∈ s.delays.getLast?,
    next.madeAt ≤ s.manager.certificate.madeAt + selfSignedCertificateRotation + d
  pc : PcSound s s.pc

theorem selfSigned_generate {now : Int} (h : generateRelayCertificate now created = .ok c) :
    c.madeAt = now ∧ SelfSigned c now := by
  unfold generateRelayCertificate at h
  split at h <;> cases h
  have hmade : now + selfSignedCertificateLifetime - selfSignedCertificateLifetime = now :=
    Int.add_sub_cancel now _
  refine ⟨hmade, by simp, ?_, ?_⟩
  · show now - oneMinute = now + selfSignedCertificateLifetime - selfSignedCertificateLifetime - _
    rw [hmade]
  · exact Int.le_of_eq hmade

theorem SelfSigned.mono {now later : Int} (h : SelfSigned c now) (hle : now ≤ later) : SelfSigned c later :=
  ⟨h.chain, h.notBefore, Int.le_trans h.madeAt_le hle⟩

/-- What a step can do. -/
inductive StepCase (s : CertificateRelay) : CertificateRelay → Prop
  | tick (elapsed : Nat) : StepCase s { s with clock := s.clock + elapsed }
  | wait (pc : RotationPc) : s.Unlocked → (∀ f, pc ≠ .stored f) →
      (PcSound s s.pc → PcSound s pc) → StepCase s { s with pc := pc }
  | store (following next : RelayCertificate) : s.pc = .made following →
      s.manager.next = some next →
      StepCase s { s with
        manager := { s.manager with certificate := next }, pc := .stored following }
  | schedule (following : RelayCertificate) : s.pc = .stored following →
      StepCase s { s with
        manager := { s.manager with
          next := some following
          nextRotation := s.clock + selfSignedCertificateRotation }
        pc := .loop
        delays := s.delays ++
          [s.clock - (s.manager.certificate.madeAt + selfSignedCertificateRotation)] }

/-- A step that only moves `runRotation` on. -/
theorem StepCase.of_pc {old pc : RotationPc} (hpc : s.pc = old) (hold : ∀ f, old ≠ .stored f)
    (hnew : ∀ f, pc ≠ .stored f) (hsound : PcSound s old → PcSound s pc) :
    StepCase s { s with pc := pc } := by
  subst hpc
  exact .wait pc hold hnew hsound

theorem step_cases {e : RotationEvent} (h : s.step e = some s') : StepCase s s' := by
  cases e with
  | tick elapsed =>
    cases h
    exact .tick elapsed
  | readRotation =>
    cases hpc : s.pc <;> simp only [step, hpc] at h <;> cases h
    exact .of_pc hpc (by simp) (by simp) fun _ => rfl
  | overlapReached =>
    cases hpc : s.pc <;> simp only [step, hpc] at h <;> try cases h
    split at h <;> cases h
    exact .of_pc hpc (by simp) (by simp) fun hat => hat
  | rotationReached =>
    cases hpc : s.pc <;> simp only [step, hpc] at h <;> try cases h
    split at h <;> cases h
    rename_i hreached
    refine .of_pc hpc (by simp) (by simp) fun hat => ?_
    exact Int.le_trans (Int.le_of_eq hat.symm) hreached
  | generate created =>
    cases hpc : s.pc <;> simp only [step, hpc] at h <;> try cases h
    split at h <;> cases h
    · exact .of_pc hpc (by simp) (by simp) fun hle => hle
    next hmade =>
      exact .of_pc hpc (by simp) (by simp) fun hle => ⟨hle, (selfSigned_generate hmade).2⟩
  | store =>
    cases hpc : s.pc <;> simp only [step, hpc] at h <;> try cases h
    split at h <;> cases h
    · exact .of_pc hpc (by simp) (by simp) fun hle => hle.1
    next hnext =>
      exact .store _ _ hpc hnext
  | schedule =>
    cases hpc : s.pc <;> simp only [step, hpc] at h <;> cases h
    exact .schedule _ hpc
  | retryReached =>
    cases hpc : s.pc <;> simp only [step, hpc] at h <;> try cases h
    split at h <;> cases h
    exact .of_pc hpc (by simp) (by simp) fun hle => hle
  | cancel =>
    cases hpc : s.pc <;> simp only [step, hpc] at h <;> cases h
    all_goals exact .of_pc hpc (by simp) (by simp) fun _ => trivial

theorem PcSound.tick {pc : RotationPc} (h : PcSound s pc) (elapsed : Nat) :
    PcSound { s with clock := s.clock + elapsed } pc := by
  have hle : s.clock ≤ s.clock + elapsed := by omega
  cases pc with
  | loop | stopped => trivial
  | waitOverlap | waitRotation => exact h
  | rotating | retry => exact Int.le_trans h hle
  | made => exact ⟨Int.le_trans h.1 hle, h.2.mono hle⟩
  | stored => exact ⟨Int.le_trans h.1 hle, h.2.1.mono hle, h.2.2⟩

/-- The invariant is kept; a rotation replaces the next certificate. -/
theorem Rotating.step (h : Rotating s next) (hcase : StepCase s s') : ∃ next', Rotating s' next' := by
  cases hcase with
  | tick elapsed =>
    have hle : s.clock ≤ s.clock + elapsed := by omega
    exact ⟨next, h.configured, h.next_eq, h.served.mono hle, h.made.mono hle, h.scheduled, h.delays,
      h.consecutive, h.pc.tick elapsed⟩
  | wait pc hfree hnew hsound =>
    have hpc : PcSound { s with pc := pc } pc := by
      have hold := hsound h.pc
      cases pc <;> exact hold
    exact ⟨next, h.configured, h.next_eq, h.served, h.made, h.scheduled, h.delays, h.consecutive, hpc⟩
  | store following next' hpc hnext =>
    -- until the next certificate is scheduled, the one in use is also the next one
    have hsame : next' = next := Option.some.inj (hnext.symm.trans h.next_eq)
    subst hsame
    have hsound := h.pc
    rw [hpc] at hsound
    refine ⟨next', h.configured, h.next_eq, h.made, h.made, h.scheduled, h.delays, ?_,
      hsound.1, hsound.2, h.next_eq⟩
    intro d hd
    have hpos := h.delays.2 d (List.mem_of_getLast? hd)
    simp only [selfSignedCertificateRotation, oneDay, oneMinute]
    omega
  | schedule following hpc =>
    have hsound := h.pc
    rw [hpc] at hsound
    obtain ⟨hreached, hfollowing, hstored⟩ := hsound
    have hsame : next = s.manager.certificate := Option.some.inj (h.next_eq.symm.trans hstored)
    have hscheduled := h.scheduled
    have hmade := hfollowing.madeAt_le
    rw [hsame] at hscheduled
    refine ⟨following, h.configured, rfl, h.served, hfollowing, ?_, ⟨by simp, ?_⟩, ?_, trivial⟩
    · show following.madeAt + _ ≤ s.clock + _
      omega
    · -- a rotation is not early, so that its delay is not negative
      intro d hd
      rcases List.mem_append.1 hd with hd | hd
      · exact h.delays.2 d hd
      · rw [List.mem_singleton.1 hd]
        omega
    · intro d hd
      rw [List.getLast?_concat] at hd
      cases hd
      show following.madeAt ≤ s.manager.certificate.madeAt + _ + (s.clock - (_ + _))
      omega

theorem rotating_start {certFile keyFile : String} {loaded : Except String RelayCertificate}
    {readings : StartReadings} {createdNext : Except String (List UInt8)}
    {manager : RelayCertificateManager}
    (hnew : newRelayCertificateManager certFile keyFile loaded readings created createdNext = .ok manager)
    (hself : manager.configured = false) :
    ∃ next, Rotating (start manager readings) next := by
  have hfirst := readings.made_le
  have hsecond := readings.madeNext_le
  unfold newRelayCertificateManager at hnew
  split at hnew
  · cases loaded with
    | error e => cases hnew
    | ok certificate =>
      cases hnew
      cases hself
  · cases hmade : generateRelayCertificate readings.made created with
    | error e =>
      rw [hmade] at hnew
      cases hnew
    | ok certificate =>
      cases hmadeNext : generateRelayCertificate readings.madeNext createdNext with
      | error e =>
        rw [hmade, hmadeNext] at hnew
        cases hnew
      | ok next =>
        rw [hmade, hmadeNext] at hnew
        cases hnew
        obtain ⟨hat, hcertificate⟩ := selfSigned_generate hmade
        obtain ⟨hatNext, hnext⟩ := selfSigned_generate hmadeNext
        refine ⟨next, rfl, rfl, hcertificate.mono (by show _ ≤ readings.started; omega),
          hnext.mono hsecond, ?_, ⟨by simp [start], ?_⟩, ?_, trivial⟩
        · show next.madeAt + _ ≤ readings.started + _
          omega
        · intro d hd
          rw [List.mem_singleton.1 hd]
          omega
        · intro d hd
          cases hd
          show next.madeAt ≤ certificate.madeAt + _ + (readings.started - readings.made)
          simp only [selfSignedCertificateRotation, oneDay, oneMinute]
          omega

theorem exists_rotating_of_run (h : ∃ next, Rotating s next) (hrun : Lts.run step s es = some s') :
    ∃ next, Rotating s' next := by
  have hinv : Lts.Throughout step (fun t => ∃ next, Rotating t next) s es := by
    refine Lts.throughout_of_invariant ?_ h
    rintro t e t' ⟨next, ht⟩ hstep
    exact ht.step (step_cases hstep)
  exact hinv.last hrun

/-! ## What is published and what is served -/

/-- What `s'` serves, seen from the earlier state `s`: the same certificate, or the next one since the
rotation that was scheduled in `s`, or more than the overlap has passed. -/
structure Follows (s s' : CertificateRelay) : Prop where
  clock : s.clock ≤ s'.clock
  served :
    (s'.manager = s.manager ∧ s'.Unlocked) ∨
    (s.manager.next = some s'.manager.certificate ∧ s.manager.nextRotation ≤ s'.clock ∧
      (s'.Unlocked → s.clock + selfSignedCertificateRotation ≤ s'.manager.nextRotation)) ∨
    s.clock + selfSignedCertificateOverlap < s'.clock

theorem Follows.step {s'' : CertificateRelay} (h : Follows s s') (hrot : Rotating s' next)
    (hcase : StepCase s' s'') : Follows s s'' := by
  have hclock := h.clock
  cases hcase with
  | tick elapsed =>
    refine ⟨by show s.clock ≤ s'.clock + elapsed; omega, ?_⟩
    rcases h.served with hsame | ⟨hnext, hreached, hlater⟩ | hpast
    · exact .inl hsame
    · exact .inr (.inl ⟨hnext, by show _ ≤ s'.clock + elapsed; omega, hlater⟩)
    · exact .inr (.inr (by show _ < s'.clock + elapsed; omega))
  | wait pc hfree hnew hsound =>
    refine ⟨hclock, ?_⟩
    rcases h.served with ⟨hsame, -⟩ | ⟨hnext, hreached, hlater⟩ | hpast
    · exact .inl ⟨hsame, hnew⟩
    · exact .inr (.inl ⟨hnext, hreached, fun _ => hlater hfree⟩)
    · exact .inr (.inr hpast)
  | store following next' hpc hnext' =>
    refine ⟨hclock, ?_⟩
    have hsound := hrot.pc
    rw [hpc] at hsound
    have hreached' : s'.manager.nextRotation ≤ s'.clock := hsound.1
    rcases h.served with ⟨hsame, -⟩ | ⟨hnext, hreached, hlater⟩ | hpast
    · rw [hsame] at hnext' hreached'
      exact .inr (.inl ⟨hnext', hreached', fun hfree => absurd rfl (hfree following)⟩)
    · -- a second rotation is six days behind the first
      have hdays := hlater (by simp [Unlocked, hpc])
      simp only [selfSignedCertificateRotation, selfSignedCertificateOverlap, oneDay, oneMinute] at *
      omega
    · exact .inr (.inr hpast)
  | schedule following hpc =>
    refine ⟨hclock, ?_⟩
    rcases h.served with ⟨-, hfree⟩ | ⟨hnext, hreached, hlater⟩ | hpast
    · exact absurd hpc (hfree following)
    · refine .inr (.inl ⟨hnext, hreached, fun _ => ?_⟩)
      show _ ≤ s'.clock + _
      omega
    · exact .inr (.inr hpast)

theorem follows_of_run (h : ∃ next, Rotating s next) (hfree : s.Unlocked)
    (hrun : Lts.run step s es = some s') : Follows s s' := by
  have hinv : Lts.Throughout step (fun t => Follows s t ∧ ∃ next, Rotating t next) s es := by
    refine Lts.throughout_of_invariant ?_ ⟨⟨Int.le_refl _, .inl ⟨rfl, hfree⟩⟩, h⟩
    rintro t e t' ⟨hfollows, next, ht⟩ hstep
    exact ⟨hfollows.step ht (step_cases hstep), ht.step (step_cases hstep)⟩
  exact (hinv.last hrun).1

/-- Within the overlap the certificate in use is one whose hash was published. -/
theorem Follows.hash_published (sha256 : List UInt8 → List UInt8) (h : Follows s s')
    (hrot : Rotating s next) (hwindow : s'.clock ≤ s.clock + selfSignedCertificateOverlap) :
    ∃ der, s'.manager.getCertificate.certificate.head? = some der ∧
      base64Encode (sha256 der) ∈ s.manager.certificateHashes sha256 s.clock := by
  obtain ⟨der, rest, hchain⟩ := List.exists_cons_of_ne_nil hrot.served.chain
  obtain ⟨nextDer, nextRest, hnextChain⟩ := List.exists_cons_of_ne_nil hrot.made.chain
  unfold RelayCertificateManager.certificateHashes RelayCertificateManager.getCertificate
  rw [hrot.configured, hrot.next_eq]
  simp only [Bool.false_eq_true, if_false, hchain, hnextChain]
  rcases h.served with ⟨hsame, -⟩ | ⟨hnext, hreached, -⟩ | hpast
  · refine ⟨der, ?_, List.mem_cons_self⟩
    rw [hsame, hchain]
    rfl
  · -- the rotation was less than the overlap away, so the next hash was published too
    have hcertificate : next = s'.manager.certificate := Option.some.inj (hrot.next_eq.symm.trans hnext)
    refine ⟨nextDer, ?_, ?_⟩
    · rw [← hcertificate, hnextChain]
      rfl
    · rw [if_pos (by omega)]
      exact List.mem_cons_of_mem _ List.mem_cons_self
  · omega

/-! ## Validity -/

/-- The certificate in use was made two rotations before it is retired, at most 12 days and their
delays. -/
theorem Rotating.validAt (h : Rotating s next) (hpunctual : s.Punctual) :
    s.manager.getCertificate.ValidAt s.clock := by
  obtain ⟨d, hd⟩ := Option.isSome_iff_exists.1 (List.getLast?_isSome.2 h.delays.1)
  have hsum : d + s.overdue < oneDay := (List.isChain_append.1 hpunctual).2.2 d hd s.overdue rfl
  have hoverdue : s.overdue = s.clock - (next.madeAt + selfSignedCertificateRotation) := by
    unfold overdue
    rw [h.next_eq]
  have hnext := h.consecutive d hd
  have hbefore := h.served.notBefore
  have hmade := h.served.madeAt_le
  have hafter : s.manager.certificate.notAfter =
      s.manager.certificate.madeAt + selfSignedCertificateLifetime := by
    unfold RelayCertificate.madeAt
    omega
  unfold RelayCertificate.ValidAt RelayCertificate.x509Time RelayCertificateManager.getCertificate
  simp only [selfSignedCertificateRotation, selfSignedCertificateLifetime, oneDay, oneMinute] at *
  omega

end CertificateRelay

open CertificateRelay in
/-- In every run of the rotation loop, what is served within ten minutes after hashes were published
has one of these hashes; and what is served is valid while the delays of any two consecutive rotations
add up to less than a day. -/
theorem certificate_rollover (sha256 : List UInt8 → List UInt8) {certFile keyFile : String}
    {loaded : Except String RelayCertificate} {readings : StartReadings}
    {created createdNext : Except String (List UInt8)} {manager : RelayCertificateManager}
    (hnew : newRelayCertificateManager certFile keyFile loaded readings created createdNext =
      .ok manager) (hself : manager.configured = false) {before : List RotationEvent}
    {s : CertificateRelay} (hrun : Lts.run step (start manager readings) before = some s) :
    (s.Unlocked → ∀ after s', Lts.run step s after = some s' →
      s'.clock ≤ s.clock + selfSignedCertificateOverlap →
      ∃ der, s'.manager.getCertificate.certificate.head? = some der ∧
        base64Encode (sha256 der) ∈ s.manager.certificateHashes sha256 s.clock) ∧
    (s.Punctual → s.manager.getCertificate.ValidAt s.clock) := by
  obtain ⟨next, hrot⟩ := exists_rotating_of_run (rotating_start hnew hself) hrun
  constructor
  · intro hfree after s' hrun' hwindow
    exact (follows_of_run ⟨next, hrot⟩ hfree hrun').hash_published sha256 hrot hwindow
  · exact hrot.validAt

/-- A rotation whose first attempt fails. Three minutes before it the next hash is published already,
and two minutes after it the next certificate is served. -/
theorem certificate_rollover_retry :
    let readings : StartReadings := ⟨0, 0, 0, by decide, by decide⟩
    let certificate (der : UInt8) (now : Int) : RelayCertificate :=
      ⟨[[der]], now - oneMinute, now + selfSignedCertificateLifetime⟩
    let manager : RelayCertificateManager :=
      ⟨false, certificate 1 0, some (certificate 2 0), 6 * oneDay⟩
    let early := 6 * oneDay - 3 * oneMinute
    let done := 6 * oneDay + oneMinute
    let s : CertificateRelay := ⟨manager, early, .waitRotation (6 * oneDay), [0]⟩
    let s' : CertificateRelay :=
      ⟨⟨false, certificate 2 0, some (certificate 3 done), done + 6 * oneDay⟩, done + 2 * oneMinute,
        .loop, [0, oneMinute]⟩
    newRelayCertificateManager "" "" (.error "") readings (.ok [1]) (.ok [2]) = .ok manager ∧
      base64Encode (sha256 [2]) ∈ s.manager.certificateHashes sha256 s.clock ∧
      s'.manager.getCertificate.ValidAt s'.clock := by
  intro readings certificate manager early done s s'
  have hnew : newRelayCertificateManager "" "" (.error "") readings (.ok [1]) (.ok [2]) = .ok manager := rfl
  have hbefore : Lts.run CertificateRelay.step (.start manager readings)
      [.readRotation, .tick 518220000000000, .overlapReached] = some s := by decide
  have hafter : Lts.run CertificateRelay.step s
      [.tick 180000000000, .rotationReached, .generate (.error "entropy"), .tick 60000000000,
        .retryReached, .generate (.ok [3]), .store, .schedule, .tick 120000000000] = some s' := by
    decide
  have hfree : s.Unlocked := by
    intro following h
    cases h
  refine ⟨hnew, ?_, ?_⟩
  · obtain ⟨der, hder, hmem⟩ :=
      (certificate_rollover sha256 hnew rfl hbefore).1 hfree _ s' hafter (by decide)
    cases hder
    exact hmem
  · exact (certificate_rollover sha256 hnew rfl (Lts.run_trans hbefore hafter)).2 (by decide)

end Rustcast.Relay
