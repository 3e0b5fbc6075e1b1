import Mathlib.Tactic.Common

/-!
# Runs of a partial step function

Every concurrent component of this development is a step function
`step : σ → ε → Option σ`: an event `ε` names which party moves and what the
environment answers, `none` says that the event is not enabled in that state. All
interleavings are then the event lists, and a safety property is one about
`run step s es` for every `es`.
-/

namespace Rustcast.Lts

universe u v

variable {σ : Type u} {ε : Type v}

/-- The state after the events, `none` as soon as one of them is not enabled. -/
def run (step : σ → ε → Option σ) : σ → List ε → Option σ
  | s, [] => some s
  | s, e :: es =>
    match step s e with
    | some s' => run step s' es
    | none => none

/-- Every event of the list meets `ok` in the state it is taken in. -/
def Along (step : σ → ε → Option σ) (ok : σ → ε → Prop) : σ → List ε → Prop
  | _, [] => True
  | s, e :: es => ok s e ∧ ∀ s', step s e = some s' → Along step ok s' es

/-- Every state the run passes through, the first one included, satisfies `P`. -/
def Throughout (step : σ → ε → Option σ) (P : σ → Prop) : σ → List ε → Prop
  | s, [] => P s
  | s, e :: es => P s ∧ ∀ s', step s e = some s' → Throughout step P s' es

variable {step : σ → ε → Option σ} {s s' : σ} {e : ε} {es : List ε}

variable {Q P Inv : σ → Prop} {ok ok' : σ → ε → Prop}

/-- What is required of the steps after an event, as one statement about the next state. -/
theorem forall_step_iff {t : σ} (hstep : step s e = some t) : (∀ s', step s e = some s' → Q s') ↔ Q t :=
  ⟨fun h => h t hstep, fun h _ hs => Option.some.inj (hstep.symm.trans hs) ▸ h⟩

theorem forall_step_of_none (hstep : step s e = none) :
    ∀ s', step s e = some s' → Q s' := fun _ hs => nomatch hstep.symm.trans hs

/-- Conditions along a concrete run can be evaluated. -/
instance decidableAlong {ok : σ → ε → Prop} [∀ s e, Decidable (ok s e)] :
    ∀ (s : σ) (es : List ε), Decidable (Along step ok s es)
  | _, [] => isTrue trivial
  | s, e :: es =>
    match hstep : step s e with
    | none => decidable_of_iff (ok s e) ⟨fun h => ⟨h, forall_step_of_none hstep⟩, And.left⟩
    | some t =>
      have : Decidable (Along step ok t es) := decidableAlong t es
      decidable_of_iff (ok s e ∧ Along step ok t es)
        (and_congr_right' (forall_step_iff (Q := fun s' => Along step ok s' es) hstep).symm)

instance decidableThroughout {P : σ → Prop} [∀ s, Decidable (P s)] :
    ∀ (s : σ) (es : List ε), Decidable (Throughout step P s es)
  | s, [] => inferInstanceAs (Decidable (P s))
  | s, e :: es =>
    match hstep : step s e with
    | none => decidable_of_iff (P s) ⟨fun h => ⟨h, forall_step_of_none hstep⟩, And.left⟩
    | some t =>
      have : Decidable (Throughout step P t es) := decidableThroughout t es
      decidable_of_iff (P s ∧ Throughout step P t es)
        (and_congr_right' (forall_step_iff (Q := fun s' => Throughout step P s' es) hstep).symm)

theorem run_cons : run step s (e :: es) = (step s e).bind fun s' => run step s' es := by
  cases h : step s e <;> simp [run, h]

/-- The inversion every run induction starts with. -/
theorem run_cons_eq_some (h : run step s (e :: es) = some s') :
    ∃ t, step s e = some t ∧ run step t es = some s' := by
  rw [run_cons] at h
  exact Option.bind_eq_some_iff.mp h

theorem run_append {es' : List ε} :
    run step s (es ++ es') = (run step s es).bind fun t => run step t es' := by
  induction es generalizing s with
  | nil => rfl
  | cons e es ih =>
    rw [List.cons_append, run_cons, run_cons]
    cases step s e with
    | none => rfl
    | some t => exact ih

theorem run_trans {t : σ} {es' : List ε} (h : run step s es = some t)
    (h' : run step t es' = some s') : run step s (es ++ es') = some s' := by
  rw [run_append, h]
  exact h'

theorem Throughout.head (h : Throughout step P s es) : P s := by
  cases es with
  | nil => exact h
  | cons e es => exact h.1

theorem Throughout.last (h : Throughout step P s es) (hrun : run step s es = some s') : P s' := by
  induction es generalizing s with
  | nil =>
    cases hrun
    exact h
  | cons e es ih =>
    obtain ⟨t, hstep, hrest⟩ := run_cons_eq_some hrun
    exact ih (h.2 t hstep) hrest

theorem not_throughout_of_last (h : ∃ s' ∈ run step s es, ¬P s') : ¬Throughout step P s es := by
  obtain ⟨s', hrun, hnot⟩ := h
  exact fun hthroughout => hnot (hthroughout.last hrun)

theorem Throughout.mono (hPQ : ∀ s, P s → Q s) (h : Throughout step P s es) : Throughout step Q s es := by
  induction es generalizing s with
  | nil => exact hPQ s h
  | cons e es ih => exact ⟨hPQ s h.1, fun s' hs' => ih (h.2 s' hs')⟩

theorem Along.mono (himp : ∀ s e, ok s e → ok' s e) (h : Along step ok s es) : Along step ok' s es := by
  induction es generalizing s with
  | nil => trivial
  | cons e es ih => exact ⟨himp s e h.1, fun s' hs' => ih (h.2 s' hs')⟩

theorem Along.and (h : Along step ok s es) (h' : Along step ok' s es) :
    Along step (fun s e => ok s e ∧ ok' s e) s es := by
  induction es generalizing s with
  | nil => trivial
  | cons e es ih => exact ⟨⟨h.1, h'.1⟩, fun s' hs' => ih (h.2 s' hs') (h'.2 s' hs')⟩

theorem along_of_forall_mem (h : ∀ e ∈ es, ∀ s, ok s e) : Along step ok s es := by
  induction es generalizing s with
  | nil => trivial
  | cons e es ih =>
    exact ⟨h e List.mem_cons_self s, fun s' _ => ih fun e he => h e (List.mem_cons_of_mem _ he)⟩

/-- With no condition on the steps, every run qualifies. -/
theorem along_true (s : σ) (es : List ε) : Along step (fun _ _ => True) s es :=
  along_of_forall_mem fun _ _ _ => trivial

/-- The invariant rule: what a step that meets `ok` preserves holds throughout every
run whose steps all meet `ok`. -/
theorem throughout_of_along (hstep : ∀ s e s', Inv s → ok s e → step s e = some s' → Inv s') (h0 : Inv s)
    (hok : Along step ok s es) : Throughout step Inv s es := by
  induction es generalizing s with
  | nil => exact h0
  | cons e es ih =>
    exact ⟨h0, fun s' hs' => ih (hstep s e s' h0 hok.1 hs') (hok.2 s' hs')⟩

theorem throughout_of_invariant (hstep : ∀ s e s', Inv s → step s e = some s' → Inv s') (h0 : Inv s) :
    Throughout step Inv s es :=
  throughout_of_along (fun s e s' hi _ => hstep s e s' hi) h0 (along_true s es)

/-- What the invariant and the condition say of a step holds of every step of the run. -/
theorem along_of_along (hstep : ∀ s e s', Inv s → ok s e → step s e = some s' → Inv s')
    (himp : ∀ s e, Inv s → ok s e → ok' s e) (h0 : Inv s) (hok : Along step ok s es) :
    Along step ok' s es := by
  induction es generalizing s with
  | nil => trivial
  | cons e es ih =>
    exact ⟨himp s e h0 hok.1, fun s' hs' => ih (hstep s e s' h0 hok.1 hs') (hok.2 s' hs')⟩

/-- A run that does not meet `ok` all along has a step that does not. -/
theorem exists_not_ok (hrun : run step s es = some s') (h : ¬Along step ok s es) :
    ∃ before t e after, es = before ++ e :: after ∧ run step s before = some t ∧
      run step t (e :: after) = some s' ∧ ¬ok t e := by
  induction es generalizing s with
  | nil => exact absurd trivial h
  | cons e es ih =>
    by_cases hok : ok s e
    · obtain ⟨t, hstep, hrest⟩ := run_cons_eq_some hrun
      have htail : ¬Along step ok t es := fun hall => h ⟨hok, (forall_step_iff hstep).mpr hall⟩
      obtain ⟨before, u, e', after, rfl, hbefore, hafter, hnot⟩ := ih hrest htail
      refine ⟨e :: before, u, e', after, rfl, ?_, hafter, hnot⟩
      rw [run_cons, hstep]
      exact hbefore
    · exact ⟨[], s, e, es, rfl, rfl, hrun, hok⟩

/-- The exact rule for runs whose steps all meet `given`: where such a step keeps the invariant if
it meets `ok` and breaks the property if it does not, the property holds throughout exactly the runs
whose steps all meet `ok`. -/
theorem throughout_iff_along_given {given : σ → ε → Prop} (hprop : ∀ s, Inv s → P s)
    (hkeep : ∀ s e s', Inv s → given s e → ok s e → step s e = some s' → Inv s')
    (hbreak : ∀ s e s', Inv s → given s e → step s e = some s' → P s' → ok s e)
    (hnone : ∀ s e, step s e = none → ok s e) (h0 : Inv s) (hgiven : Along step given s es) :
    Throughout step P s es ↔ Along step ok s es := by
  induction es generalizing s with
  | nil => exact ⟨fun _ => trivial, fun _ => hprop s h0⟩
  | cons e es ih =>
    cases hstep : step s e with
    | none =>
      have hok := hnone s e hstep
      exact ⟨fun _ => ⟨hok, forall_step_of_none hstep⟩, fun _ => ⟨hprop s h0, forall_step_of_none hstep⟩⟩
    | some t =>
      have htail := hgiven.2 t hstep
      constructor
      · intro h
        have hthroughout : Throughout step P t es := h.2 t hstep
        have hok : ok s e := hbreak s e t h0 hgiven.1 hstep hthroughout.head
        have hinv := hkeep s e t h0 hgiven.1 hok hstep
        exact ⟨hok, (forall_step_iff hstep).mpr ((ih hinv htail).1 hthroughout)⟩
      · intro h
        have hinv := hkeep s e t h0 hgiven.1 h.1 hstep
        exact ⟨hprop s h0, (forall_step_iff hstep).mpr ((ih hinv htail).2 (h.2 t hstep))⟩

/-- The same for a condition that is necessary as well. -/
theorem throughout_iff_along (hprop : ∀ s, Inv s → P s)
    (hkeep : ∀ s e s', Inv s → ok s e → step s e = some s' → Inv s')
    (hbreak : ∀ s e s', Inv s → step s e = some s' → P s' → ok s e)
    (hnone : ∀ s e, step s e = none → ok s e) (h0 : Inv s) : Throughout step P s es ↔ Along step ok s es :=
  throughout_iff_along_given hprop (fun s e s' hi _ => hkeep s e s' hi)
    (fun s e s' hi _ => hbreak s e s' hi) hnone h0 (along_true s es)

end Rustcast.Lts
