import Rustcast.Core.Lts
import Rustcast.Core.OrderedMap

/-!
# Direct tickets

`ticketVerifier.verify` of `ticket.go` checks the signature, the fields and the expiry of a
ticket, and then takes its nonce in one critical section: it forgets the nonces that have
expired, refuses a nonce it knows, and remembers a new one. The expiry check and the pruning use
one reading of the clock, taken before the lock.

`TicketVerifier` runs any number of calls. A call that is delayed between its clock reading and
its critical section can find its nonce forgotten by a call that read the clock later.
-/

namespace Rustcast.Relay

universe u

/-! ## The ticket -/

structure DirectTicketPayload where
  version : Int := 1
  machineID : String
  sub : String
  username : String := ""
  email : String := ""
  name : String := ""
  admin : Bool := false
  clipboard : String := ""
  clipboardCapture : Bool := false
  clipboardMaxBytes : Int := 0
  path : String
  /-- in seconds -/
  expires : Int
  nonce : String
  deriving DecidableEq

/-- The `identity` that a ticket stands for. -/
structure TicketIdentity where
  sub : String
  username : String
  email : String
  name : String
  admin : Bool
  clipboardPolicy : String
  clipboardCapture : Bool
  clipboardMaxBytes : Int
  ticketPath : String
  expires : Int
  deriving DecidableEq

/-- What `verify` takes from the standard library: `base64.RawURLEncoding.DecodeString`,
`mldsa.Verify` with the signing context, and `json.Unmarshal`. -/
structure TicketCodec (K : Type u) where
  decodeString : List Char → Option (List UInt8)
  verify : K → List UInt8 → List UInt8 → Bool
  unmarshal : List UInt8 → Option DirectTicketPayload

def ticketNonceSize : Nat := 16

/-- Instants are in nanoseconds. -/
def second : Int := 1000000000

def ticketClockSkew : Int := 5 * second

def defaultClipboardMaxBytes : Int := 1048576

def ticketClipboardPolicy (mode : String) : String :=
  if mode = "both" ∨ mode = "off" ∨ mode = "host_to_client" ∨ mode = "client_to_host" then mode
  else "off"

namespace DirectTicketPayload

def expiry (p : DirectTicketPayload) : Int := p.expires * second

def identity (p : DirectTicketPayload) : TicketIdentity where
  sub := p.sub
  username := p.username
  email := p.email
  name := p.name
  admin := p.admin
  clipboardPolicy := ticketClipboardPolicy p.clipboard
  clipboardCapture := p.clipboardCapture
  clipboardMaxBytes :=
    if p.clipboardMaxBytes ≤ 0 then defaultClipboardMaxBytes else p.clipboardMaxBytes
  ticketPath := p.path
  expires := p.expiry

end DirectTicketPayload

/-- `now.After(expiry.Add(ticketClockSkew))` -/
def pastExpiry (now expiry : Int) : Bool := decide (expiry + ticketClockSkew < now)

/-! ## The two parts of `verify` -/

def orError {α : Type u} (message : String) : Option α → Except String α
  | some a => .ok a
  | none => .error message

def checkThat (ok : Bool) (message : String) : Except String Unit :=
  if ok then .ok () else .error message

/-- The two parts of a ticket, separated by the only dot. -/
def ticketParts (ticket : String) : Option (List Char × List Char) :=
  match ticket.toList.splitOn '.' with
  | [payload, signature] =>
    if payload.isEmpty || signature.isEmpty then none else some (payload, signature)
  | _ => none

/-- The first part: everything before the lock, with the reading `now` of the clock. It gives
the payload and its decoded nonce. -/
def checkTicket {K : Type u} (c : TicketCodec K) (key : K) (ticket machineID : String) (now : Int) :
    Except String (DirectTicketPayload × List UInt8) := do
  let (first, last) ← orError "malformed ticket" (ticketParts ticket)
  let payloadBytes ← orError "malformed ticket payload" (c.decodeString first)
  let signature ← orError "malformed ticket signature" (c.decodeString last)
  -- nothing of the payload is looked at before its signature
  checkThat (c.verify key payloadBytes signature) "invalid ticket signature"
  let payload ← orError "malformed ticket payload" (c.unmarshal payloadBytes)
  checkThat (payload.version == 1) "unsupported ticket version"
  checkThat (payload.path == "direct" || payload.path == "probe") "ticket is not for a direct path"
  checkThat (payload.machineID != "" && payload.machineID == machineID)
    "ticket machine does not match"
  checkThat (payload.sub != "") "ticket subject is missing"
  let nonce ← orError "invalid ticket nonce" (c.decodeString payload.nonce.toList)
  checkThat (nonce.length == ticketNonceSize) "invalid ticket nonce"
  checkThat (!pastExpiry now payload.expiry) "ticket has expired"
  return (payload, nonce)

abbrev Nonces := OrderedMap (List UInt8) Int

/-- The second part, the critical section: the nonces after it, and whether the nonce is new. -/
def takeNonce (nonces : Nonces) (now : Int) (nonce : List UInt8) (expiry : Int) : Nonces × Bool :=
  -- the reading of the clock is the one of the expiry check
  let pruned := nonces.filter fun entry => !pastExpiry now entry.2
  if (pruned.get? nonce).isSome then (pruned, false) else (pruned.set nonce expiry, true)

/-! ## Concurrent calls -/

/-- Where a call of `verify` stands. -/
inductive VerifyPc (K : Type u) where
  /-- the public key is loaded -/
  | loaded (key : K) (ticket machineID : String)
  /-- the first part is done, with this reading of the clock -/
  | checked (payload : DirectTicketPayload) (nonce : List UInt8) (now : Int)
  | returned (result : Except String TicketIdentity)

structure TicketVerifier (K : Type u) where
  clock : Int := 0
  key : K
  nonces : Nonces := .empty
  calls : List (VerifyPc K) := []
  /-- the nonces of the calls that have succeeded -/
  accepted : List (List UInt8) := []

inductive VerifyEvent (K : Type u) where
  | tick (d : Nat)
  | replacePublicKey (key : K)
  | call (ticket machineID : String)
  | check (i : Nat)
  | lock (i : Nat)

namespace TicketVerifier

variable {K : Type u}

def step (c : TicketCodec K) (v : TicketVerifier K) : VerifyEvent K → Option (TicketVerifier K)
  | .tick d => some { v with clock := v.clock + d }
  | .replacePublicKey key => some { v with key }
  | .call ticket machineID =>
    -- the key is loaded once, and may be replaced while the call runs
    some { v with calls := v.calls ++ [.loaded v.key ticket machineID] }
  | .check i =>
    match v.calls[i]? with
    | some (.loaded key ticket machineID) =>
      match checkTicket c key ticket machineID v.clock with
      | .ok (payload, nonce) =>
        some { v with calls := v.calls.set i (.checked payload nonce v.clock) }
      | .error message => some { v with calls := v.calls.set i (.returned (.error message)) }
    | _ => none
  | .lock i =>
    match v.calls[i]? with
    | some (.checked payload nonce now) =>
      match takeNonce v.nonces now nonce payload.expiry with
      | (nonces, true) => some { v with
          nonces
          calls := v.calls.set i (.returned (.ok payload.identity))
          accepted := v.accepted ++ [nonce] }
      | (nonces, false) => some { v with
          nonces
          calls := v.calls.set i (.returned (.error "ticket has already been used")) }
    | _ => none

end TicketVerifier

/-- No two calls with the same nonce have succeeded. -/
def AcceptedOnce {K : Type u} (v : TicketVerifier K) : Prop := v.accepted.Nodup

/-- The ticket of a call that is about to enter the critical section has not expired, and its
expiry is the one that goes with the nonce. -/
def VerifyPc.InTime {K : Type u} (expiryOf : List UInt8 → Int) (clock : Int) : VerifyPc K → Prop
  | .checked payload nonce _ =>
    payload.expiry = expiryOf nonce ∧ pastExpiry clock payload.expiry = false
  | .loaded .. | .returned _ => True

/-- The condition on a step: calls enter the critical section in time. -/
def EntersInTime {K : Type u} (expiryOf : List UInt8 → Int) (v : TicketVerifier K) :
    VerifyEvent K → Prop
  | .lock i => ∀ pc ∈ v.calls[i]?, pc.InTime expiryOf v.clock
  | _ => True

section Decidable

variable {K : Type u} (expiryOf : List UInt8 → Int)

instance (v : TicketVerifier K) : Decidable (AcceptedOnce v) :=
  inferInstanceAs (Decidable (List.Nodup _))

instance (clock : Int) : (pc : VerifyPc K) → Decidable (pc.InTime expiryOf clock)
  | .checked .. => inferInstanceAs (Decidable (_ ∧ _))
  | .loaded .. | .returned _ => isTrue trivial

instance (v : TicketVerifier K) (e : VerifyEvent K) : Decidable (EntersInTime expiryOf v e) := by
  unfold EntersInTime
  split <;> infer_instance

end Decidable

/-! ## The critical section -/

variable {nonces : Nonces} {now now' expiry : Int} {nonce : List UInt8}

theorem pastExpiry_mono (hle : now ≤ now') (h : pastExpiry now expiry = true) :
    pastExpiry now' expiry = true := by
  rw [pastExpiry, decide_eq_true_eq] at h ⊢
  omega

theorem mem_prune {e : List UInt8 × Int} (he : e ∈ nonces.entries)
    (hlive : pastExpiry now e.2 = false) :
    e ∈ (nonces.filter fun entry => !pastExpiry now entry.2).entries := by
  rw [OrderedMap.mem_filter, hlive]
  exact ⟨he, rfl⟩

/-- A nonce is only new if it is not remembered with an expiry that has not passed. -/
theorem not_mem_of_takeNonce (h : (takeNonce nonces now nonce expiry).2 = true) {e : Int}
    (hlive : pastExpiry now e = false) : (nonce, e) ∉ nonces.entries := by
  intro hmem
  have hseen := OrderedMap.get?_of_mem (mem_prune hmem hlive)
  rw [takeNonce, hseen] at h
  cases h

/-- The section forgets what has expired at the reading of the clock, and nothing else. -/
theorem takeNonce_keeps {e : List UInt8 × Int} (he : e ∈ nonces.entries)
    (hlive : pastExpiry now e.2 = false) : e ∈ (takeNonce nonces now nonce expiry).1.entries := by
  have hkept := mem_prune he hlive
  simp only [takeNonce]
  split
  · exact hkept
  next hunseen =>
    apply OrderedMap.mem_set_of_ne hkept
    rintro rfl
    rw [OrderedMap.get?_of_mem hkept] at hunseen
    exact hunseen rfl

theorem takeNonce_remembers (h : (takeNonce nonces now nonce expiry).2 = true) :
    (nonce, expiry) ∈ (takeNonce nonces now nonce expiry).1.entries := by
  simp only [takeNonce] at h ⊢
  split at h
  · cases h
  next hunseen =>
    rw [if_neg hunseen]
    exact OrderedMap.mem_set_self _ _ _

/-! ## The invariant -/

section Invariant

variable {K : Type u} {c : TicketCodec K} {expiryOf : List UInt8 → Int} {v v' : TicketVerifier K}
  {e : VerifyEvent K}

/-- A clock reading is not ahead of the clock. -/
def VerifyPc.ReadBy (clock : Int) : VerifyPc K → Prop
  | .checked _ _ now => now ≤ clock
  | .loaded .. | .returned _ => True

/-- Every accepted nonce is remembered until its expiry has passed. -/
structure NonceInv (expiryOf : List UInt8 → Int) (v : TicketVerifier K) : Prop where
  once : v.accepted.Nodup
  read : ∀ pc ∈ v.calls, pc.ReadBy v.clock
  remembered : ∀ nonce ∈ v.accepted, (nonce, expiryOf nonce) ∈ v.nonces.entries ∨
    pastExpiry v.clock (expiryOf nonce) = true

theorem VerifyPc.ReadBy.mono {clock clock' : Int} {pc : VerifyPc K} (hle : clock ≤ clock')
    (h : pc.ReadBy clock) : pc.ReadBy clock' := by
  cases pc with
  | checked payload nonce now => exact Int.le_trans h hle
  | loaded | returned => trivial

section

variable (h : NonceInv expiryOf v)

include h

/-- A call moves to where it has read the clock before, or not at all. -/
theorem NonceInv.setCall {i : Nat} {pc : VerifyPc K} (hpc : pc.ReadBy v.clock) :
    NonceInv expiryOf { v with calls := v.calls.set i pc } := by
  refine ⟨h.once, fun pc' hmem => ?_, h.remembered⟩
  rcases List.mem_or_eq_of_mem_set hmem with hmem | rfl
  · exact h.read pc' hmem
  · exact hpc

theorem NonceInv.takeNonce {now : Int} {nonce : List UInt8} (hread : now ≤ v.clock)
    (htime : pastExpiry v.clock (expiryOf nonce) = false) :
    (∀ n ∈ v.accepted,
      (n, expiryOf n) ∈ (Relay.takeNonce v.nonces now nonce (expiryOf nonce)).1.entries ∨
        pastExpiry v.clock (expiryOf n) = true) ∧
      ((Relay.takeNonce v.nonces now nonce (expiryOf nonce)).2 = true → nonce ∉ v.accepted) := by
  have hlive : pastExpiry now (expiryOf nonce) = false := by
    by_contra hpast
    rw [Bool.not_eq_false] at hpast
    rw [pastExpiry_mono hread hpast] at htime
    cases htime
  constructor
  · intro n hn
    rcases h.remembered n hn with hmem | hpast
    · cases hexpired : pastExpiry now (expiryOf n) with
      | false => exact .inl (takeNonce_keeps hmem hexpired)
      | true => exact .inr (pastExpiry_mono hread hexpired)
    · exact .inr hpast
  · intro hnew hmem
    rcases h.remembered nonce hmem with hmem | hpast
    · exact not_mem_of_takeNonce hnew hlive hmem
    · rw [htime] at hpast
      cases hpast

theorem nonceInv_step (hok : EntersInTime expiryOf v e) (hstep : v.step c e = some v') :
    NonceInv expiryOf v' := by
  cases e with
  | tick d =>
    cases hstep
    have hle : v.clock ≤ v.clock + d := by omega
    exact ⟨h.once, fun pc hmem => (h.read pc hmem).mono hle,
      fun n hn => (h.remembered n hn).imp_right (pastExpiry_mono hle)⟩
  | replacePublicKey key =>
    cases hstep
    exact ⟨h.once, h.read, h.remembered⟩
  | call ticket machineID =>
    cases hstep
    refine ⟨h.once, fun pc hmem => ?_, h.remembered⟩
    rcases List.mem_append.mp hmem with hmem | hmem
    · exact h.read pc hmem
    · cases List.mem_singleton.mp hmem
      trivial
  | check i =>
    simp only [TicketVerifier.step] at hstep
    split at hstep
    · split at hstep <;> cases hstep
      · exact h.setCall (Int.le_refl _)
      · exact h.setCall trivial
    · cases hstep
  | lock i =>
    simp only [TicketVerifier.step] at hstep
    split at hstep
    next payload nonce now hcall =>
      have hread : now ≤ v.clock := h.read _ (List.mem_of_getElem? hcall)
      obtain ⟨hexpiry, htime⟩ : payload.expiry = expiryOf nonce ∧
          pastExpiry v.clock payload.expiry = false := hok _ hcall
      rw [hexpiry] at hstep htime
      obtain ⟨hremembered, hnew⟩ := h.takeNonce hread htime
      split at hstep
      next nonces htake =>
        cases hstep
        rw [htake] at hremembered hnew
        have hnotin : nonce ∉ v.accepted := hnew rfl
        have hself : (nonce, expiryOf nonce) ∈ nonces.entries := by
          have hmem := takeNonce_remembers (by rw [htake])
          rw [htake] at hmem
          exact hmem
        have hset : NonceInv expiryOf
            { v with calls := v.calls.set i (.returned (.ok payload.identity)) } := h.setCall trivial
        refine ⟨List.nodup_append_comm.mpr (List.nodup_cons.mpr ⟨hnotin, h.once⟩), hset.read, ?_⟩
        intro n hn
        rcases List.mem_append.mp hn with hn | hn
        · exact hremembered n hn
        · cases List.mem_singleton.mp hn
          exact .inl hself
      next nonces htake =>
        cases hstep
        rw [htake] at hremembered
        have hset : NonceInv expiryOf { v with
            calls := v.calls.set i (.returned (.error "ticket has already been used")) } :=
          h.setCall trivial
        exact ⟨h.once, hset.read, hremembered⟩
    · cases hstep

end

end Invariant

/-! ## Nonces over whole runs -/

/-- In every run in which the calls enter the critical section before their tickets expire, and
a nonce comes with one expiry, no nonce is accepted twice. -/
theorem nonces_accepted_once {K : Type u} (c : TicketCodec K) (expiryOf : List UInt8 → Int)
    (clock : Int) (key : K) (es : List (VerifyEvent K))
    (hok : Lts.Along (TicketVerifier.step c) (EntersInTime expiryOf) { clock, key } es) :
    Lts.Throughout (TicketVerifier.step c) AcceptedOnce { clock, key } es := by
  have hinit : NonceInv expiryOf ({ clock, key } : TicketVerifier K) :=
    ⟨List.nodup_nil, nofun, nofun⟩
  have hinv : Lts.Throughout (TicketVerifier.step c) (NonceInv expiryOf) { clock, key } es :=
    Lts.throughout_of_along (fun _ _ _ => nonceInv_step) hinit hok
  exact hinv.mono fun _ h => h.once

/-! ### Runs -/

def ticketA : DirectTicketPayload :=
  { machineID := "m", sub := "s", path := "direct", expires := 100, nonce := "aaaaaaaaaaaaaaaa" }

def ticketB : DirectTicketPayload :=
  { machineID := "m", sub := "s", path := "direct", expires := 200, nonce := "bbbbbbbbbbbbbbbb" }

/-- Two tickets that verify, `a.x` and `b.x`. -/
def twoTickets : TicketCodec Unit where
  decodeString chars := some (chars.map fun ch => UInt8.ofNat ch.toNat)
  verify _ _ _ := true
  unmarshal bytes := if bytes = [97] then some ticketA else some ticketB

/-- The expiry of the two tickets by their nonces. -/
def expiryOfTwo (nonce : List UInt8) : Int :=
  if nonce.head? = some 97 then ticketA.expiry else ticketB.expiry

/-- The first ticket is used twice before it expires: the second call is refused. -/
def replayRun : List (VerifyEvent Unit) :=
  [.tick 100000000000, .call "a.x" "m", .call "a.x" "m", .check 0, .check 1, .lock 0, .lock 1]

theorem nonces_accepted_once_replayRun :
    Lts.Along (TicketVerifier.step twoTickets) (EntersInTime expiryOfTwo) { key := () } replayRun ∧
      Lts.Throughout (TicketVerifier.step twoTickets) AcceptedOnce { key := () } replayRun := by
  have hok : Lts.Along (TicketVerifier.step twoTickets) (EntersInTime expiryOfTwo) { key := () }
      replayRun := by decide +kernel
  exact ⟨hok, nonces_accepted_once twoTickets expiryOfTwo 0 () replayRun hok⟩

/-- Two calls check the first ticket at its expiry, and one of them uses it. Ten seconds later a
call with the second ticket forgets the nonce, and then the other one gets the lock. -/
theorem nonce_accepted_twice :
    ¬ ∀ (c : TicketCodec Unit) (es : List (VerifyEvent Unit)),
      Lts.Throughout (TicketVerifier.step c) AcceptedOnce { key := () } es := by
  intro h
  have hrun := h twoTickets
    [.tick 100000000000, .call "a.x" "m", .call "a.x" "m", .check 0, .check 1, .lock 0,
      .tick 10000000000, .call "b.x" "m", .check 2, .lock 2, .lock 1]
  exact absurd hrun (by decide +kernel)

end Rustcast.Relay
