import Rustcast.Core.OrderedMap

/-!
# The relay's WebTransport tickets

`issueTicket` and `consumeTicket` (flux-web/auth.go) work on one map under one lock and read the clock
while they hold it, so each call is one step, whoever makes it. A history is the list of the calls and
of the time that passed between them, the latest first.
-/

namespace Rustcast.Relay

structure WtTicket (U : Type) where
  user : U
  expires : Nat

/-- `wtTicketTTL` in nanoseconds. -/
def wtTicketTTL : Nat := 60 * 1000000000

structure TicketStore (U : Type) where
  now : Nat := 0
  tickets : OrderedMap String (WtTicket U) := .empty

inductive TicketCall (U : Type) where
  | passed (time : Nat)
  /-- `ticket` is what `randomToken` drew. -/
  | issue (user : U) (ticket : String)
  | consume (ticket : String)

variable {U : Type}

namespace TicketStore

def issueTicket (s : TicketStore U) (user : U) (ticket : String) : TicketStore U :=
  let tickets := s.tickets.filter fun x => decide (s.now ≤ x.2.expires)
  { s with tickets := tickets.set ticket ⟨user, s.now + wtTicketTTL⟩ }

def consumeTicket (s : TicketStore U) (ticket : String) : Option U × TicketStore U :=
  match s.tickets.get? ticket with
  | none => (none, s)
  | some entry =>
    (if entry.expires < s.now then none else some entry.user, { s with tickets := s.tickets.delete ticket })

/-- The store after a history, from the empty one. -/
def after : List (TicketCall U) → TicketStore U
  | [] => {}
  | .passed time :: past => { after past with now := (after past).now + time }
  | .issue user ticket :: past => (after past).issueTicket user ticket
  | .consume ticket :: past => ((after past).consumeTicket ticket).2

end TicketStore

/-- What a ticket is worth `age` nanoseconds after a history: its user, if the last call about it
issued it and that was not more than its lifetime ago. -/
def worth (ticket : String) : List (TicketCall U) → (age : Nat) → Option U
  | [], _ => none
  | .passed time :: past, age => worth ticket past (age + time)
  | .issue user issued :: past, age =>
    if issued = ticket then if age ≤ wtTicketTTL then some user else none else worth ticket past age
  | .consume consumed :: past, age => if consumed = ticket then none else worth ticket past age

namespace TicketStore

variable (s : TicketStore U)

theorem get?_issueTicket (user : U) (issued ticket : String) :
    (s.issueTicket user issued).tickets.get? ticket =
      if ticket = issued then some ⟨user, s.now + wtTicketTTL⟩
      else (s.tickets.get? ticket).filter fun entry => decide (s.now ≤ entry.expires) := by
  rw [issueTicket, OrderedMap.get?_set, OrderedMap.get?_filter]

theorem get?_consumeTicket (consumed ticket : String) :
    (s.consumeTicket consumed).2.tickets.get? ticket =
      if ticket = consumed then none else s.tickets.get? ticket := by
  unfold consumeTicket
  split
  next hnone =>
    split
    next heq => rw [heq, hnone]
    · rfl
  · exact OrderedMap.get?_delete ..

theorem now_consumeTicket (ticket : String) : (s.consumeTicket ticket).2.now = s.now := by
  unfold consumeTicket
  split <;> rfl

/-- What the store would answer `age` nanoseconds later. -/
def answer (ticket : String) (age : Nat) : Option U :=
  ((s.tickets.get? ticket).filter fun entry => decide (s.now + age ≤ entry.expires)).map WtTicket.user

theorem consumeTicket_eq_answer (ticket : String) : (s.consumeTicket ticket).1 = s.answer ticket 0 := by
  unfold consumeTicket answer
  cases s.tickets.get? ticket with
  | none => rfl
  | some entry =>
    by_cases hexpired : entry.expires < s.now
    · simp [Option.filter, hexpired, Nat.not_le.mpr hexpired]
    · simp [Option.filter, hexpired, Nat.not_lt.mp hexpired]

/-- An entry that is swept out has expired, and is not worth anything later on either. -/
theorem answer_issueTicket (user : U) (issued ticket : String) (age : Nat) :
    (s.issueTicket user issued).answer ticket age =
      if issued = ticket then if age ≤ wtTicketTTL then some user else none
      else s.answer ticket age := by
  unfold answer
  rw [get?_issueTicket]
  by_cases heq : ticket = issued
  · by_cases hage : age ≤ wtTicketTTL <;> simp [heq, hage, issueTicket]
  · rw [if_neg heq, if_neg (Ne.symm heq), Option.filter_filter]
    congr 2
    funext entry
    have himp : s.now + age ≤ entry.expires → s.now ≤ entry.expires := Nat.le_trans (Nat.le_add_right _ _)
    by_cases hage : s.now + age ≤ entry.expires <;> simp [issueTicket, hage, himp]

theorem answer_after (ticket : String) (past : List (TicketCall U)) (age : Nat) :
    (after past).answer ticket age = worth ticket past age := by
  induction past generalizing age with
  | nil => rfl
  | cons call past ih =>
    cases call with
    | passed time =>
      rw [worth, ← ih, answer, answer, after, Nat.add_assoc, Nat.add_comm time]
    | issue user issued =>
      rw [worth, ← ih]
      exact answer_issueTicket ..
    | consume consumed =>
      rw [worth, ← ih, answer, answer, after, get?_consumeTicket, now_consumeTicket]
      by_cases heq : ticket = consumed
      · simp [heq]
      · rw [if_neg heq, if_neg (Ne.symm heq)]

end TicketStore

/-- How often the ticket was issued. -/
def issues (ticket : String) : List (TicketCall U) → Nat
  | [] => 0
  | .issue _ issued :: past => issues ticket past + if issued = ticket then 1 else 0
  | .passed _ :: past | .consume _ :: past => issues ticket past

/-- How often `consumeTicket` answered with a user for the ticket. -/
def redemptions (ticket : String) : List (TicketCall U) → Nat
  | [] => 0
  | .consume consumed :: past => redemptions ticket past +
      if consumed = ticket then ((TicketStore.after past).consumeTicket ticket).1.toList.length else 0
  | .passed _ :: past | .issue _ _ :: past => redemptions ticket past

/-- A ticket that is worth something has been issued once more often than redeemed. -/
theorem redemptions_le (ticket : String) (past : List (TicketCall U)) (age : Nat) :
    redemptions ticket past + (worth ticket past age).toList.length ≤ issues ticket past := by
  induction past generalizing age with
  | nil => exact Nat.le_refl 0
  | cons call past ih =>
    cases call with
    | passed time => exact ih (age + time)
    | issue user issued =>
      rw [redemptions, issues, worth]
      split
      · have hone := ih age
        split <;> simp <;> omega
      · exact ih age
    | consume consumed =>
      rw [redemptions, issues, worth, TicketStore.consumeTicket_eq_answer, TicketStore.answer_after]
      split
      · exact ih 0
      · exact ih age

/-- After any calls, a ticket is worth what the history of issues, redemptions and time says, and it was
redeemed at most as often as it was issued. -/
theorem tickets_follow_history (past : List (TicketCall U)) (ticket : String) :
    ((TicketStore.after past).consumeTicket ticket).1 = worth ticket past 0 ∧
      redemptions ticket past ≤ issues ticket past := by
  refine ⟨?_, Nat.le_trans (Nat.le_add_right _ _) (redemptions_le ticket past 0)⟩
  rw [TicketStore.consumeTicket_eq_answer, TicketStore.answer_after]

end Rustcast.Relay
