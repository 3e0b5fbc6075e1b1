import Mathlib.Tactic.Common

/-!
# Statements about a recorded history

A component that is to be judged by what it did keeps a log, oldest entry first, and the
claim about it is one about that log.

A step only ever appends, so each notion comes with the lemma for one more entry.
-/

namespace Rustcast.Trace

universe u

variable {α : Type u}

/-! ## Every entry against its past -/

/-- Every entry stands in relation `Q` to the entries before it. -/
def Historically (Q : List α → α → Prop) (log : List α) : Prop :=
  ∀ past entry future, log = past ++ entry :: future → Q past entry

variable {Q : List α → α → Prop} {log entries : List α}

theorem historically_nil : Historically Q [] := by
  intro past entry future h
  simp at h

theorem historically_concat {a : α} : Historically Q (log ++ [a]) ↔ Historically Q log ∧ Q log a := by
  constructor
  · intro h
    constructor
    · intro past entry future hlog
      apply h past entry (future ++ [a])
      simp [hlog]
    · exact h log a [] rfl
  · rintro ⟨hlog, ha⟩ past entry future heq
    -- the entry is the new one exactly if nothing stands behind it
    rcases List.eq_nil_or_concat future with rfl | ⟨front, b, rfl⟩
    · obtain ⟨rfl, hab⟩ := List.append_inj' heq rfl
      cases hab
      exact ha
    · have hfront : log ++ [a] = (past ++ entry :: front) ++ [b] := by simpa using heq
      obtain ⟨rfl, -⟩ := List.append_inj' hfront rfl
      exact hlog past entry front rfl

theorem Historically.mono {Q' : List α → α → Prop} (himp : ∀ past a, Q past a → Q' past a)
    (h : Historically Q log) : Historically Q' log :=
  fun past entry future hlog => himp past entry (h past entry future hlog)

/-- What holds of a log holds of its beginning. -/
theorem Historically.of_append (h : Historically Q (log ++ entries)) : Historically Q log := by
  intro past entry future hlog
  refine h past entry (future ++ entries) ?_
  rw [hlog, List.append_assoc, List.cons_append]

/-- Entries that `Q` does not object to, whatever was before them. -/
theorem Historically.append (h : Historically Q log) (hfree : ∀ a ∈ entries, ∀ past, Q past a) :
    Historically Q (log ++ entries) := by
  induction entries generalizing log with
  | nil => simpa using h
  | cons a rest ih =>
    have hone : Historically Q (log ++ [a]) := historically_concat.2 ⟨h, hfree a (by simp) log⟩
    have hrest := ih hone (fun b hb => hfree b (List.mem_cons_of_mem _ hb))
    simpa using hrest

/-- The same as a scan, for histories that are given. -/
def scan (Q : List α → α → Prop) : List α → List α → Prop
  | _, [] => True
  | past, a :: rest => Q past a ∧ scan Q (past ++ [a]) rest

theorem scan_iff {past rest : List α} (h : Historically Q past) :
    scan Q past rest ↔ Historically Q (past ++ rest) := by
  induction rest generalizing past with
  | nil => simpa [scan] using h
  | cons a rest ih =>
    have hsplit : past ++ a :: rest = past ++ [a] ++ rest := by simp
    constructor
    · rintro ⟨ha, hrest⟩
      rw [hsplit]
      exact (ih (historically_concat.2 ⟨h, ha⟩)).mp hrest
    · intro hall
      have ha : Q past a := hall past a rest rfl
      refine ⟨ha, (ih (historically_concat.2 ⟨h, ha⟩)).mpr ?_⟩
      rw [← hsplit]
      exact hall

instance decidableScan {Q : List α → α → Prop} [∀ past a, Decidable (Q past a)] :
    ∀ past rest : List α, Decidable (scan Q past rest)
  | _, [] => isTrue trivial
  | past, a :: rest =>
    have : Decidable (scan Q (past ++ [a]) rest) := decidableScan (past ++ [a]) rest
    inferInstanceAs (Decidable (Q past a ∧ _))

instance {Q : List α → α → Prop} [∀ past a, Decidable (Q past a)] (log : List α) :
    Decidable (Historically Q log) :=
  decidable_of_iff (scan Q [] log) (scan_iff historically_nil)

/-! ## What still waits for an answer -/

/-- Some `trigger` entry has had no `answer` entry since. -/
def Unanswered (trigger answer : α → Bool) : List α → Prop
  | [] => False
  | a :: rest => (trigger a = true ∧ ∀ b ∈ rest, answer b = false) ∨ Unanswered trigger answer rest

variable {trigger answer : α → Bool}

instance decidableUnanswered : ∀ log : List α, Decidable (Unanswered trigger answer log)
  | [] => isFalse id
  | _ :: rest =>
    have : Decidable (Unanswered trigger answer rest) := decidableUnanswered rest
    inferInstanceAs (Decidable ((_ ∧ _) ∨ _))

theorem unanswered_concat {a : α} :
    Unanswered trigger answer (log ++ [a]) ↔
      trigger a = true ∨ (Unanswered trigger answer log ∧ answer a = false) := by
  induction log with
  | nil => simp [Unanswered]
  | cons b rest ih =>
    simp only [List.cons_append, Unanswered, ih, List.mem_append, List.mem_singleton]
    constructor
    · rintro (⟨hb, hall⟩ | ha | ⟨hrest, ha⟩)
      · exact .inr ⟨.inl ⟨hb, fun c hc => hall c (.inl hc)⟩, hall a (.inr rfl)⟩
      · exact .inl ha
      · exact .inr ⟨.inr hrest, ha⟩
    · rintro (ha | ⟨⟨hb, hall⟩ | hrest, ha⟩)
      · exact .inr (.inl ha)
      · refine .inl ⟨hb, ?_⟩
        rintro c (hc | rfl)
        · exact hall c hc
        · exact ha
      · exact .inr (.inr ⟨hrest, ha⟩)

theorem Unanswered.mono {trigger' : α → Bool} (himp : ∀ a, trigger a = true → trigger' a = true)
    (h : Unanswered trigger answer log) : Unanswered trigger' answer log := by
  induction log with
  | nil => exact h
  | cons a rest ih => exact h.imp (.imp_left (himp a)) ih

/-- Entries that trigger nothing leave nothing new unanswered. -/
theorem Unanswered.of_append (hquiet : ∀ a ∈ entries, trigger a = false)
    (h : Unanswered trigger answer (log ++ entries)) : Unanswered trigger answer log := by
  induction entries generalizing log with
  | nil => simpa using h
  | cons a rest ih =>
    have hsplit : log ++ a :: rest = log ++ [a] ++ rest := by simp
    rw [hsplit] at h
    have hone := ih (fun b hb => hquiet b (List.mem_cons_of_mem _ hb)) h
    rcases unanswered_concat.1 hone with ha | ⟨hlog, -⟩
    · rw [hquiet a (by simp)] at ha
      cases ha
    · exact hlog

end Rustcast.Trace
