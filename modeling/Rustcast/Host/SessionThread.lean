import Rustcast.Core.Lts

/-!
# An encoder on a thread of its own

`ThreadedSession` (flux-encode/src/session_thread.rs) owns an encoder that cannot leave its thread: the
handle sends commands through a channel and waits for the reply of those that have one. The handle is
borrowed mutably, so it makes one call at a time; the thread runs at its own pace and ends when a
function of the encoder panics.
-/

namespace Rustcast.Host.SessionThread

inductive Cmd (F : Type) where
  | encode (frame : F)
  | flush
  | requestIdr
  | setBitrate (kbps : Nat)
  | stop

/-- `ThreadEncoder`: the functions of a backend on its state, `none` where one panics. `R` is the
`Result` of a reply; an error of `set_bitrate` is logged and goes no further. -/
structure ThreadEncoder (S F R : Type) where
  encode : S → F → Option (S × R)
  flush : S → Option (S × R)
  requestIdr : S → Option S
  setBitrate : S → Nat → Option S

/-- What a call of the handle returns: the reply, `Ok` of a command without one, "encode thread is gone"
or "encode thread dropped the reply". -/
inductive Outcome (R : Type) where
  | replied (reply : R)
  | sent
  | threadGone
  | replyDropped

inductive Caller (F R : Type) where
  | idle
  | waiting (cmd : Cmd F) (reply : Option R)
  | dropped

structure Session (S F R : Type) where
  queue : List (Cmd F) := []
  /-- The state on the thread, `none` once the thread has ended. -/
  thread : Option S
  caller : Caller F R := .idle
  /-- History: the calls that returned. -/
  log : List (Cmd F × Outcome R) := []

inductive Event (F : Type) where
  /-- `lost`: the thread has ended and is about to drop the receiver, with what is still sent to it -/
  | call (cmd : Cmd F) (lost : Bool)
  | serve
  | receive
  | drop

variable {S F R : Type}

namespace Cmd

/-- The commands that carry a reply channel. -/
def replies : Cmd F → Bool
  | encode _ | flush => true
  | requestIdr | setBitrate _ | stop => false

/-- What a call returns when the channel has no receiver: `request_idr` does not look. -/
def refused : Cmd F → Outcome R
  | requestIdr => .sent
  | _ => .threadGone

/-- What a call returns when the thread ends before it has served it. -/
def unserved (cmd : Cmd F) : Outcome R := if cmd.replies then .replyDropped else .sent

end Cmd

variable (enc : ThreadEncoder S F R)

/-- One turn of the loop of `run_encode_thread`; after `stop` there is no state, as after a panic. -/
def ThreadEncoder.exec (st : S) : Cmd F → Option (S × Option R)
  | .encode frame => (enc.encode st frame).map fun r => (r.1, some r.2)
  | .flush => (enc.flush st).map fun r => (r.1, some r.2)
  | .requestIdr => (enc.requestIdr st).map fun st' => (st', none)
  | .setBitrate kbps => (enc.setBitrate st kbps).map fun st' => (st', none)
  | .stop => none

/-- The reply of a turn reaches the caller that waits for it. -/
def Caller.reply : Caller F R → Option R → Caller F R
  | .waiting cmd none, reply => .waiting cmd reply
  | caller, _ => caller

def Session.step (s : Session S F R) : Event F → Option (Session S F R)
  | .call cmd lost =>
    match s.caller, cmd, s.thread with
    | .idle, .stop, _ => none
    | .idle, cmd, none =>
      some { s with log := s.log ++ [(cmd, if lost then cmd.unserved else cmd.refused)] }
    | .idle, cmd, some _ =>
      if cmd.replies then some { s with queue := s.queue ++ [cmd], caller := .waiting cmd none }
      else some { s with queue := s.queue ++ [cmd], log := s.log ++ [(cmd, .sent)] }
    | _, _, _ => none
  | .serve =>
    match s.thread, s.queue with
    | some st, cmd :: rest =>
      match enc.exec st cmd with
      -- the receiver goes with the thread, and the commands still in the channel with it
      | none => some { s with thread := none, queue := [] }
      -- the frame of the command is dropped before the reply is sent
      | some (st', reply) => some { s with thread := some st', queue := rest, caller := s.caller.reply reply }
    | _, _ => none
  | .receive =>
    match s.caller, s.thread with
    | .waiting cmd (some reply), _ => some { s with caller := .idle, log := s.log ++ [(cmd, .replied reply)] }
    | .waiting cmd none, none => some { s with caller := .idle, log := s.log ++ [(cmd, .replyDropped)] }
    | _, _ => none
  | .drop =>
    match s.caller, s.thread with
    | .idle, none => some { s with caller := .dropped }
    | .idle, some _ => some { s with queue := s.queue ++ [.stop], caller := .dropped }
    | _, _ => none

/-! ## The calls without the thread -/

/-- A call on the encoder itself; `none` is an encoder that has panicked. -/
inductive Direct (enc : ThreadEncoder S F R) : Option S → Cmd F → Outcome R → Option S → Prop
  | replied {st st' cmd r} (h : enc.exec st cmd = some (st', some r)) :
    Direct enc (some st) cmd (.replied r) (some st')
  | sent {st st' cmd} (h : enc.exec st cmd = some (st', none)) : Direct enc (some st) cmd .sent (some st')
  | panicked {st cmd} (h : enc.exec st cmd = none) : Direct enc (some st) cmd cmd.unserved none
  | ended {cmd outcome} (h : outcome = cmd.unserved ∨ outcome = cmd.refused) :
    Direct enc none cmd outcome none

inductive DirectRun (enc : ThreadEncoder S F R) (init : S) : List (Cmd F × Outcome R) → Option S → Prop
  | start : DirectRun enc init [] (some init)
  | call {log σ cmd outcome σ'} (h : DirectRun enc init log σ) (hcall : Direct enc σ cmd outcome σ') :
    DirectRun enc init (log ++ [(cmd, outcome)]) σ'

/-- The encoder after some commands. -/
def ThreadEncoder.after (σ : Option S) (cmds : List (Cmd F)) : Option S :=
  cmds.foldl (fun σ cmd => σ.bind fun st => (enc.exec st cmd).map Prod.fst) σ

variable {enc : ThreadEncoder S F R} {st st' : S} {cmd : Cmd F} {reply : Option R}

theorem isSome_of_exec (h : enc.exec st cmd = some (st', reply)) : reply.isSome = cmd.replies := by
  cases cmd with
  | encode frame | flush | requestIdr | setBitrate kbps =>
    obtain ⟨_, _, hr⟩ := Option.map_eq_some_iff.1 h
    rw [← (Prod.mk.inj hr).2]
    rfl
  | stop => cases h

theorem eq_none_of_exec (h : enc.exec st cmd = some (st', reply)) (hquiet : cmd.replies = false) :
    reply = none := by
  rw [← isSome_of_exec h] at hquiet
  simpa using hquiet

theorem after_cons (h : enc.exec st cmd = some (st', reply)) (cmds : List (Cmd F)) :
    enc.after (some st) (cmd :: cmds) = enc.after (some st') cmds := by
  simp [ThreadEncoder.after, h]

theorem after_cons_of_none (h : enc.exec st cmd = none) (cmds : List (Cmd F)) :
    enc.after (some st) (cmd :: cmds) = none := by
  have hnone : enc.after none cmds = none := by
    induction cmds with
    | nil => rfl
    | cons cmd cmds ih => exact ih
  simpa [ThreadEncoder.after, h] using hnone

/-- A command without a reply, sent after others, is the direct call after them. -/
theorem direct_sent (hquiet : cmd.replies = false) (σ : Option S) (cmds : List (Cmd F)) :
    Direct enc (enc.after σ cmds) cmd .sent (enc.after σ (cmds ++ [cmd])) := by
  have hsplit : enc.after σ (cmds ++ [cmd]) = enc.after (enc.after σ cmds) [cmd] := List.foldl_append
  have hunserved : (.sent : Outcome R) = cmd.unserved := by simp [Cmd.unserved, hquiet]
  rw [hsplit]
  cases enc.after σ cmds with
  | none => exact .ended (.inl hunserved)
  | some st =>
    cases hexec : enc.exec st cmd with
    | none =>
      rw [after_cons_of_none hexec, hunserved]
      exact .panicked hexec
    | some next =>
      rw [after_cons hexec]
      exact .sent (eq_none_of_exec hexec hquiet ▸ hexec)

/-! ## The thread behind the calls -/

/-- The caller before the reply to `ask` is there. -/
def Caller.asking : (ask : Option (Cmd F)) → Caller F R
  | none => .idle
  | some cmd => .waiting cmd none

/-- How a session stands to the encoder on which the calls in the log were made directly. -/
inductive Sim (enc : ThreadEncoder S F R) (s : Session S F R) : Option S → Prop
  | pending (ask : Option (Cmd F)) (quiet : List (Cmd F)) {st : S}
      (hcaller : s.caller = .asking ask) (hthread : s.thread = some st)
      (hask : ∀ cmd ∈ ask, cmd.replies = true) (hquiet : ∀ cmd ∈ quiet, cmd.replies = false)
      (hqueue : s.queue = quiet ++ ask.toList) : Sim enc s (enc.after (some st) quiet)
  | ready {cmd st st' r} (hcaller : s.caller = .waiting cmd (some r)) (hthread : s.thread = some st')
      (hqueue : s.queue = []) (hexec : enc.exec st cmd = some (st', some r)) : Sim enc s (some st)
  | ended (ask : Option (Cmd F)) {σ : Option S} (hcaller : s.caller = .asking ask)
      (hthread : s.thread = none) (hask : ∀ cmd ∈ ask, cmd.replies = true)
      (hnone : ∀ st ∈ σ, ∃ cmd, ask = some cmd ∧ enc.exec st cmd = none) : Sim enc s σ
  | dropped {σ} (hcaller : s.caller = .dropped) : Sim enc s σ

variable {s s' : Session S F R} {σ : Option S} {init : S}

theorem Sim.serve (h : Sim enc s σ) (hstep : s.step enc .serve = some s') : Sim enc s' σ := by
  obtain ⟨queue, _ | st, caller, log⟩ := s
  · cases hstep
  cases queue with
  | nil => cases hstep
  | cons cmd rest =>
    simp only [Session.step] at hstep
    cases h with
    | pending ask quiet hcaller hthread hask hquiet hqueue =>
      cases hthread
      cases quiet with
      | nil =>
        -- all that is left to do is the command the caller waits for
        obtain ⟨rfl, rfl⟩ : ask = some cmd ∧ rest = [] := by cases ask <;> simp_all
        split at hstep <;> cases hstep
        next hexec =>
          refine .ended _ hcaller rfl hask fun st' hst => ⟨cmd, rfl, ?_⟩
          rwa [← Option.some.inj hst]
        next st' reply hexec =>
          obtain ⟨r, rfl⟩ := Option.isSome_iff_exists.1 ((isSome_of_exec hexec).trans (hask cmd rfl))
          exact .ready (by rw [show caller = _ from hcaller]; rfl) rfl rfl hexec
      | cons first quiet =>
        obtain ⟨rfl, rfl⟩ : cmd = first ∧ rest = quiet ++ ask.toList := by simpa using hqueue
        split at hstep <;> cases hstep
        next hexec =>
          rw [after_cons_of_none hexec]
          exact .ended _ hcaller rfl hask (by simp)
        next st' reply hexec =>
          rw [after_cons hexec, eq_none_of_exec hexec (hquiet cmd (.head _))]
          refine .pending ask quiet ?_ rfl hask (fun cmd hmem => hquiet cmd (.tail _ hmem)) rfl
          rw [show caller = _ from hcaller]
          cases ask <;> rfl
    | ready _ _ hqueue => cases hqueue
    | ended _ _ hthread => cases hthread
    | dropped hcaller =>
      cases hcaller
      split at hstep <;> cases hstep <;> exact .dropped rfl

/-- A call that returns is one more direct call. -/
theorem Sim.receive (h : Sim enc s σ) (hlog : DirectRun enc init s.log σ)
    (hstep : s.step enc .receive = some s') : ∃ σ', DirectRun enc init s'.log σ' ∧ Sim enc s' σ' := by
  obtain ⟨queue, thread, caller, log⟩ := s
  cases h with
  | @ready cmd st st' r hcaller hthread hqueue hexec =>
    cases hcaller
    cases hstep
    refine ⟨some st', hlog.call (.replied hexec), ?_⟩
    exact .pending none [] rfl hthread (by simp) (by simp) hqueue
  | ended ask hcaller hthread hask hnone =>
    cases hthread
    cases ask with
    | none =>
      cases hcaller
      cases hstep
    | some cmd =>
      cases hcaller
      cases hstep
      have hunserved : (.replyDropped : Outcome R) = cmd.unserved := by simp [Cmd.unserved, hask]
      refine ⟨none, hlog.call ?_, .ended none rfl rfl (by simp) (by simp)⟩
      rw [hunserved]
      cases σ with
      | none => exact .ended (.inl rfl)
      | some st =>
        obtain ⟨_, ⟨⟩, hexec⟩ := hnone st rfl
        exact .panicked hexec
  | pending ask _ hcaller hthread =>
    cases hcaller
    cases hthread
    cases ask <;> cases hstep
  | dropped hcaller =>
    cases hcaller
    cases hstep

theorem Sim.call (h : Sim enc s σ) (hlog : DirectRun enc init s.log σ) {lost : Bool}
    (hstep : s.step enc (.call cmd lost) = some s') : ∃ σ', DirectRun enc init s'.log σ' ∧ Sim enc s' σ' := by
  obtain ⟨queue, thread, caller, log⟩ := s
  simp only [Session.step] at hstep
  split at hstep
  · cases hstep
  · cases hstep
    cases h with
    | pending _ _ _ hthread | ready _ hthread => cases hthread
    | ended ask hcaller hthread hask hnone =>
      cases ask with
      | some cmd => cases hcaller
      | none =>
        cases σ with
        | none =>
          refine ⟨none, hlog.call (.ended ?_), .ended none hcaller rfl hask hnone⟩
          cases lost
          · exact .inr rfl
          · exact .inl rfl
        | some st =>
          obtain ⟨_, hask, _⟩ := hnone st rfl
          cases hask
    | dropped hcaller => cases hcaller
  · cases h with
    | pending ask quiet hcaller hthread hask hquiet hqueue =>
      cases ask with
      | some cmd => cases hcaller
      | none =>
        obtain rfl : queue = quiet := by simpa using hqueue
        split at hstep <;> cases hstep
        next hreplies =>
          exact ⟨_, hlog, .pending (some cmd) queue rfl hthread (by simpa using hreplies) hquiet rfl⟩
        next hsilent =>
          have hsilent : cmd.replies = false := by simpa using hsilent
          refine ⟨_, hlog.call (direct_sent hsilent _ _), .pending none _ hcaller hthread hask ?_ (by simp)⟩
          simpa [or_imp, forall_and, hsilent] using hquiet
    | ready hcaller | dropped hcaller => cases hcaller
    | ended _ _ hthread => cases hthread
  · cases hstep

theorem Sim.step (h : Sim enc s σ) (hlog : DirectRun enc init s.log σ) {e : Event F}
    (hstep : s.step enc e = some s') : ∃ σ', DirectRun enc init s'.log σ' ∧ Sim enc s' σ' := by
  cases e with
  | call cmd lost => exact h.call hlog hstep
  | receive => exact h.receive hlog hstep
  | serve =>
    have hsame : s'.log = s.log := by
      simp only [Session.step] at hstep
      split at hstep
      · split at hstep <;> cases hstep <;> rfl
      · cases hstep
    exact ⟨σ, hsame ▸ hlog, h.serve hstep⟩
  | drop =>
    simp only [Session.step] at hstep
    split at hstep <;> cases hstep <;> exact ⟨σ, hlog, .dropped rfl⟩

/-- The answer to a caller that waits is there, or the thread serves a command. -/
theorem Sim.proceeds (h : Sim enc s σ) (hwait : s.caller = .waiting cmd reply) :
    (s.step enc .receive).isSome ∨
      ∃ s', s.step enc .serve = some s' ∧ s'.queue.length < s.queue.length := by
  obtain ⟨queue, thread, caller, log⟩ := s
  cases hwait
  cases h with
  | pending ask quiet hcaller hthread _ _ hqueue =>
    cases hthread
    cases queue with
    | nil =>
      cases ask with
      | none => cases hcaller
      | some cmd => simp at hqueue
    | cons first rest =>
      right
      simp only [Session.step]
      split
      · exact ⟨_, rfl, Nat.zero_lt_succ _⟩
      · exact ⟨_, rfl, Nat.lt_succ_self _⟩
  | ready hcaller =>
    cases hcaller
    exact .inl rfl
  | ended ask hcaller hthread =>
    cases hthread
    cases ask <;> cases hcaller
    exact .inl rfl
  | dropped hcaller => cases hcaller

/-- In every run the caller sees what a direct use of the encoder would have given it, no call that waits
for a reply is left in the queue of an idle caller, and a waiting caller gets its reply or the thread goes
on to serve the queue. -/
theorem session_thread_refines (enc : ThreadEncoder S F R) (init : S) (es : List (Event F)) :
    Lts.Throughout (Session.step enc) (fun s => (∃ σ, DirectRun enc init s.log σ) ∧
      (s.caller = .idle → s.thread ≠ none → ∀ cmd ∈ s.queue, cmd.replies = false) ∧
      ∀ cmd reply, s.caller = .waiting cmd reply → (s.step enc .receive).isSome ∨
        ∃ s', s.step enc .serve = some s' ∧ s'.queue.length < s.queue.length)
      { thread := some init } es := by
  have hinit : Sim enc { thread := some init } (some init) :=
    .pending none [] rfl rfl (by simp) (by simp) rfl
  have hinv : Lts.Throughout (Session.step enc) (fun s => ∃ σ, DirectRun enc init s.log σ ∧ Sim enc s σ)
      { thread := some init } es := by
    refine Lts.throughout_of_invariant (fun s e s' hs hstep => ?_) ⟨_, .start, hinit⟩
    obtain ⟨σ, hlog, h⟩ := hs
    exact h.step hlog hstep
  refine hinv.mono fun s hs => ?_
  obtain ⟨σ, hlog, h⟩ := hs
  refine ⟨⟨σ, hlog⟩, fun hidle halive => ?_, fun _ _ => h.proceeds⟩
  cases h with
  | pending ask quiet hcaller _ _ hquiet hqueue =>
    cases ask with
    | none => simpa [hqueue] using hquiet
    | some cmd => cases hcaller.symm.trans hidle
  | ready hcaller | dropped hcaller => cases hcaller.symm.trans hidle
  | ended _ _ hthread => exact absurd hthread halive

end Rustcast.Host.SessionThread
