import Mathlib.Data.List.Nodup
import Rustcast.Relay.Login

/-!
# Automatic answers to the prompts of the host

The relay answers the `Username` prompt of the host from the identity of the viewer that logs
in. The reader does so when the prompt arrives, and `replayPrompt` when a viewer has finished
its setup, from `lastPrompt`. Nothing tells the replay that the prompt it finds has been
answered: the reader offers a prompt to a viewer that is past the gate and has not replayed
yet, and `lastPrompt` outlives the viewer it was offered to.
-/

namespace Rustcast.Relay

open LoginRelay

/-- No prompt is answered twice in the place of a viewer. -/
def AnsweredOnce (s : LoginRelay) : Prop := s.record.answered.Nodup

/-- The prompt was offered to a viewer that the relay answers for. -/
def StoredPrompt.taken (loginPrefill : Bool) (p : StoredPrompt) : Bool :=
  p.offeredTo.any fun user => (prefillAnswer loginPrefill p.frame user).isSome

/-- The condition on a step: a replay for a viewer that the relay answers for does not find a
prompt that was offered to such a viewer before. -/
def ReplaysUntaken (loginPrefill : Bool) (s : LoginRelay) : LoginEvent → Prop
  | .start v => s.replays v = true → ∀ p ∈ s.record.lastPrompt,
      (prefillAnswer loginPrefill p.frame (s.user v)).isSome = true → p.taken loginPrefill = false
  | _ => True

instance (s : LoginRelay) : Decidable (AnsweredOnce s) := inferInstanceAs (Decidable (List.Nodup _))

instance (loginPrefill : Bool) (s : LoginRelay) (e : LoginEvent) :
    Decidable (ReplaysUntaken loginPrefill s e) := by
  unfold ReplaysUntaken
  split <;> infer_instance

/-! ## The invariant -/

/-- Only received prompts are answered, each once, and the last one only if it is taken. -/
structure PromptInv (loginPrefill : Bool) (r : PromptRecord) : Prop where
  once : r.answered.Nodup
  received : ∀ id ∈ r.answered, id < r.received
  last : ∀ p ∈ r.lastPrompt, p.id < r.received ∧ (p.id ∈ r.answered → p.taken loginPrefill = true)

variable {loginPrefill : Bool} {r r' : PromptRecord} {p : StoredPrompt} {frame : LoginFrame}
  {user : Option RelayUser} {s s' : LoginRelay} {e : LoginEvent}

theorem PromptInv.forget (h : PromptInv loginPrefill r) :
    PromptInv loginPrefill { r with lastPrompt := none } := ⟨h.once, h.received, nofun⟩

theorem PromptInv.receive (h : PromptInv loginPrefill r) : PromptInv loginPrefill (r.receive frame) := by
  refine ⟨h.once, fun id hid => Nat.lt_succ_of_lt (h.received id hid), ?_⟩
  rintro p ⟨⟩
  exact ⟨Nat.lt_succ_self _, fun hid => absurd (h.received _ hid) (Nat.lt_irrefl _)⟩

theorem StoredPrompt.taken_offer (p : StoredPrompt) (user : Option RelayUser) :
    StoredPrompt.taken loginPrefill { p with offeredTo := p.offeredTo ++ [user] } =
      (p.taken loginPrefill || (prefillAnswer loginPrefill p.frame user).isSome) := by
  simp [taken]

/-- Offering the last prompt keeps the invariant, if an answer finds it untaken. -/
theorem PromptInv.offered (h : PromptInv loginPrefill r) (hlast : r.lastPrompt = some p)
    (hfresh : (prefillAnswer loginPrefill p.frame user).isSome = true → p.taken loginPrefill = false)
    (hoffered : LoginRelay.Offered loginPrefill r p user r') : PromptInv loginPrefill r' := by
  obtain ⟨hid, htaken⟩ := h.last p hlast
  cases hoffered with
  | passedOn =>
    refine ⟨h.once, h.received, ?_⟩
    rintro q ⟨⟩
    refine ⟨hid, fun hmem => ?_⟩
    rw [StoredPrompt.taken_offer, htaken hmem, Bool.true_or]
  | answered hanswer =>
    have hnew : p.id ∉ r.answered := by
      intro hmem
      rw [hfresh hanswer] at htaken
      exact absurd (htaken hmem) Bool.false_ne_true
    refine ⟨?_, ?_, ?_⟩
    · exact List.nodup_append_comm.mpr (List.nodup_cons.mpr ⟨hnew, h.once⟩)
    · intro id hmem
      rcases List.mem_append.mp hmem with hmem | hmem
      · exact h.received id hmem
      · cases List.mem_singleton.mp hmem
        exact hid
    · rintro q ⟨⟩
      refine ⟨hid, fun _ => ?_⟩
      rw [StoredPrompt.taken_offer, hanswer, Bool.or_true]

theorem promptInv_step (hinv : PromptInv loginPrefill s.record)
    (hok : ReplaysUntaken loginPrefill s e) (hstep : s.step loginPrefill e = some s') :
    PromptInv loginPrefill s'.record := by
  have hmove := promptMove_step hstep
  generalize s'.record = r' at hmove
  cases hmove with
  | quiet => exact hinv
  | forget => exact hinv.forget
  | receive frame => exact hinv.receive
  | offer h => exact hinv.receive.offered rfl (fun _ => rfl) h
  | replay hreplays hlast h => exact hinv.offered hlast (hok hreplays _ hlast) h

/-! ## Answers over whole runs -/

/-- In every run in which the replays that answer find an untaken prompt, no prompt is answered
twice. -/
theorem prompts_answered_once (loginPrefill supportsLogin : Bool) (es : List LoginEvent)
    (hok : Lts.Along (step loginPrefill) (ReplaysUntaken loginPrefill)
      { supportsLogin } es) :
    Lts.Throughout (step loginPrefill) AnsweredOnce { supportsLogin } es := by
  have hinit : PromptInv loginPrefill ({ supportsLogin } : LoginRelay).record :=
    ⟨List.nodup_nil, nofun, nofun⟩
  have hinv : Lts.Throughout (step loginPrefill)
      (fun s => PromptInv loginPrefill s.record) { supportsLogin } es :=
    Lts.throughout_of_along (fun _ _ _ => promptInv_step) hinit hok
  exact hinv.mono fun _ hinv => hinv.once

def ada : RelayUser := { sub := "sub-a", name := "Ada", username := "ada" }

/-- The `Username` prompt of hostd. -/
def usernameFrame : LoginFrame := { state := .prompt, style := "echo_on", message := "Username" }

/-- The prompt comes before any viewer, and the viewer replays it. -/
def waitingPromptRun : List LoginEvent :=
  [.read usernameFrame, .handle, .arrive (some ada), .gate 0, .bind 0, .start 0]

theorem prompts_answered_once_waitingPromptRun :
    Lts.Along (step true) (ReplaysUntaken true) {} waitingPromptRun ∧
      Lts.Throughout (step true) AnsweredOnce {} waitingPromptRun := by
  have hok : Lts.Along (step true) (ReplaysUntaken true) {} waitingPromptRun := by
    decide
  exact ⟨hok, prompts_answered_once true true waitingPromptRun hok⟩

/-- The prompt comes between the gate and the replay of the first viewer: the reader answers it
for the viewer, and the replay answers it once more. -/
theorem prompt_answered_twice :
    ¬ ∀ es : List LoginEvent, Lts.Throughout (step true) AnsweredOnce {} es := by
  intro h
  have hrun := h [.arrive (some ada), .gate 0, .read usernameFrame, .handle, .bind 0, .start 0]
  exact absurd hrun (by decide)

end Rustcast.Relay
