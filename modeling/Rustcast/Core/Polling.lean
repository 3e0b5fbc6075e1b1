import Mathlib.Tactic.Common

/-!
# A loop that polls until it has an answer

`poll round` runs `round` on one input after the other until a round answers. A round that has not come
back yet is `none`; one that came back empty-handed is `some (none, s)`, and the next one follows.
-/

namespace Rustcast.Polling

universe u v w

variable {σ : Type u} {ρ : Type v} {β : Type w}

/-- The answer of the first round that has one, within the given rounds. -/
def poll (round : σ → ρ → Option (Option β × σ)) : σ → List ρ → Option (β × σ)
  | _, [] => none
  | s, r :: rs =>
    match round s r with
    | none => none
    | some (some b, s') => some (b, s')
    | some (none, s') => poll round s' rs

/-- The first `n` of an endless supply of inputs. -/
def schedule (inputs : ℕ → ρ) (n : ℕ) : List ρ := (List.range n).map inputs

theorem mem_schedule {inputs : ℕ → ρ} {n : ℕ} {r : ρ} : r ∈ schedule inputs n ↔ ∃ i < n, inputs i = r := by
  simp only [schedule, List.mem_map, List.mem_range]

variable {round : σ → ρ → Option (Option β × σ)} {s s' : σ} {r : ρ} {rs : List ρ}

theorem poll_cons_of_answer {b : β} (h : round s r = some (some b, s')) :
    poll round s (r :: rs) = some (b, s') := by
  rw [poll, h]

theorem poll_cons_of_silent (h : round s r = some (none, s')) :
    poll round s (r :: rs) = poll round s' rs := by
  rw [poll, h]

/-- What every round preserves, the whole loop preserves. -/
theorem poll_invariant {Inv : σ → Prop}
    (hround : ∀ s r s' (answer : Option β), Inv s → round s r = some (answer, s') → Inv s')
    (hs : Inv s) {b : β} (h : poll round s rs = some (b, s')) : Inv s' := by
  induction rs generalizing s with
  | nil => cases h
  | cons r rs ih =>
    cases hr : round s r with
    | none =>
      rw [poll, hr] at h
      cases h
    | some answered =>
      obtain ⟨answer, t⟩ := answered
      have ht : Inv t := hround s r t answer hs hr
      cases answer with
      | some b' =>
        rw [poll_cons_of_answer hr] at h
        cases h
        exact ht
      | none =>
        rw [poll_cons_of_silent hr] at h
        exact ih ht h

section

variable (Inv : σ → Prop) (tells : ρ → Prop) (P : β → Prop)

/-- The loop comes back, with an answer in `P`, iff one of the rounds is told something. -/
theorem poll_answers_iff
    (hanswer : ∀ s r, Inv s → tells r → ∃ b s', round s r = some (some b, s') ∧ P b)
    (hsilent : ∀ s r, Inv s → ¬tells r → ∃ s', round s r = some (none, s') ∧ Inv s')
    (hs : Inv s) : (∃ b s', poll round s rs = some (b, s') ∧ P b) ↔ ∃ r ∈ rs, tells r := by
  induction rs generalizing s with
  | nil =>
    constructor
    · rintro ⟨b, s', hnil, -⟩
      cases hnil
    · rintro ⟨r, hr, -⟩
      cases hr
  | cons r rs ih =>
    by_cases htells : tells r
    · obtain ⟨b, t, hround, hP⟩ := hanswer s r hs htells
      exact ⟨fun _ => ⟨r, List.mem_cons_self, htells⟩, fun _ => ⟨b, t, poll_cons_of_answer hround, hP⟩⟩
    · obtain ⟨t, hround, ht⟩ := hsilent s r hs htells
      rw [poll_cons_of_silent hround, ih ht]
      simp only [List.mem_cons, exists_eq_or_imp, htells, false_or]

/-- Over an endless supply of inputs: the loop comes back after finitely many rounds iff some round is
told something. -/
theorem poll_schedule_answers_iff (inputs : ℕ → ρ)
    (hanswer : ∀ s r, Inv s → tells r → ∃ b s', round s r = some (some b, s') ∧ P b)
    (hsilent : ∀ s r, Inv s → ¬tells r → ∃ s', round s r = some (none, s') ∧ Inv s')
    (hs : Inv s) :
    (∃ n b s', poll round s (schedule inputs n) = some (b, s') ∧ P b) ↔ ∃ i, tells (inputs i) := by
  constructor
  · rintro ⟨n, hpoll⟩
    obtain ⟨r, hr, htells⟩ := (poll_answers_iff Inv tells P hanswer hsilent hs).mp hpoll
    obtain ⟨i, -, rfl⟩ := mem_schedule.mp hr
    exact ⟨i, htells⟩
  · rintro ⟨i, htells⟩
    exact ⟨i + 1, (poll_answers_iff Inv tells P hanswer hsilent hs).mpr
      ⟨inputs i, mem_schedule.mpr ⟨i, Nat.lt_succ_self i, rfl⟩, htells⟩⟩

end

end Rustcast.Polling
