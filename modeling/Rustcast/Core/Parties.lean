import Mathlib.Tactic.Common

/-!
# Parties with a local state each

A system of any number of concurrent parties keeps a list of local states: a party is its
position in the list, it moves by `List.set`, and a new party is appended. Invariants speak of
the parties whose local state is in some region, which is `Holds f locals i`; the lemmas say
how a move of one party changes a region.
-/

namespace Rustcast.Parties

universe u

variable {α : Type u}

/-- Party `i` is in the region `f`. -/
def Holds (f : α → Bool) (locals : List α) (i : Nat) : Prop := locals[i]?.any f = true

instance (f : α → Bool) (locals : List α) (i : Nat) : Decidable (Holds f locals i) :=
  inferInstanceAs (Decidable (_ = _))

variable {f : α → Bool} {locals : List α} {a b : α} {i j : Nat}

/-- Where a party stands decides what region it is in. -/
theorem holds_iff (h : locals[i]? = some a) : Holds f locals i ↔ f a = true := by
  rw [Holds, h, Option.any_some]

theorem Holds.mono {g : α → Bool} (himp : ∀ a, f a = true → g a = true) (h : Holds f locals i) :
    Holds g locals i := by
  rw [Holds] at h ⊢
  cases hi : locals[i]? with
  | none => simp [hi] at h
  | some a =>
    rw [hi] at h
    exact himp a h

theorem Holds.mem (h : Holds f locals i) : ∃ a ∈ locals, f a = true := by
  rw [Holds] at h
  cases hi : locals[i]? with
  | none => simp [hi] at h
  | some a =>
    rw [hi] at h
    exact ⟨a, List.mem_of_getElem? hi, h⟩

/-! ## Moves -/

theorem holds_set_self (h : locals[i]? = some a) : Holds f (locals.set i b) i ↔ f b = true := by
  obtain ⟨hlt, -⟩ := List.getElem?_eq_some_iff.mp h
  exact holds_iff (List.getElem?_set_self hlt)

theorem holds_set_ne (hne : j ≠ i) : Holds f (locals.set i b) j ↔ Holds f locals j := by
  rw [Holds, Holds, List.getElem?_set_ne (.symm hne)]

/-- A region after a move of party `i`: the moving party by where it went, the others as before. -/
theorem holds_set (h : locals[i]? = some a) :
    Holds f (locals.set i b) j ↔ (j = i ∧ f b = true) ∨ (j ≠ i ∧ Holds f locals j) := by
  by_cases hji : j = i
  · subst hji
    simp [holds_set_self h]
  · simp [hji, holds_set_ne hji]

/-- A move inside or outside of a region leaves it as it is. -/
theorem holds_set_same (h : locals[i]? = some a) (hsame : f b = f a) :
    Holds f (locals.set i b) j ↔ Holds f locals j := by
  by_cases hji : j = i
  · subst hji
    rw [holds_set_self h, holds_iff h, hsame]
  · exact holds_set_ne hji

/-- A new party that is not in the region. -/
theorem holds_append (hout : f b = false) : Holds f (locals ++ [b]) j ↔ Holds f locals j := by
  rw [Holds, Holds]
  rcases Nat.lt_trichotomy j locals.length with hlt | heq | hgt
  · rw [List.getElem?_append_left hlt]
  · rw [heq]
    simp [hout]
  · rw [List.getElem?_eq_none (by simp; omega), List.getElem?_eq_none (by omega)]

/-- A party after a move is the moving one, or stands where it stood. -/
theorem getElem?_set_cases (h : (locals.set i a)[j]? = some b) :
    (j = i ∧ b = a) ∨ (j ≠ i ∧ locals[j]? = some b) := by
  by_cases heq : j = i
  · subst heq
    have hlt : j < locals.length := by
      have := (List.getElem?_eq_some_iff.mp h).1
      rwa [List.length_set] at this
    rw [List.getElem?_set_self hlt] at h
    exact .inl ⟨rfl, (Option.some.inj h).symm⟩
  · rw [List.getElem?_set_ne (.symm heq)] at h
    exact .inr ⟨heq, h⟩

/-- A party after a new one came is the new one, or was there. -/
theorem getElem?_concat_cases (h : (locals ++ [a])[j]? = some b) :
    (j = locals.length ∧ b = a) ∨ locals[j]? = some b := by
  rcases Nat.lt_or_ge j locals.length with hlt | hge
  · rw [List.getElem?_append_left hlt] at h
    exact .inr h
  · rw [List.getElem?_append_right hge] at h
    obtain ⟨hlt, hb⟩ := List.getElem?_eq_some_iff.mp h
    rw [List.length_singleton] at hlt
    exact .inl ⟨by omega, by simpa [show j - locals.length = 0 by omega] using hb.symm⟩

/-- The parties other than the moving one are still there. -/
theorem eq_or_mem_set {d : α} (h : locals[i]? = some a) (hd : d ∈ locals) : d = a ∨ d ∈ locals.set i b := by
  obtain ⟨j, hj⟩ := List.mem_iff_getElem?.mp hd
  by_cases hji : j = i
  · subst hji
    exact .inl (Option.some.inj (hj.symm.trans h))
  · right
    rw [← List.getElem?_set_ne (.symm hji)] at hj
    exact List.mem_of_getElem? hj

theorem mem_set_self (h : locals[i]? = some a) : b ∈ locals.set i b :=
  List.mem_of_getElem? (List.getElem?_set_self (List.getElem?_eq_some_iff.mp h).1)

/-- A move that keeps a key of the party keeps the list of keys. -/
theorem map_set_same {β : Type*} {key : α → β} (h : locals[i]? = some a) (hkey : key b = key a) :
    (locals.set i b).map key = locals.map key := by
  obtain ⟨hlt, rfl⟩ := List.getElem?_eq_some_iff.mp h
  have hsame : locals.set i locals[i] = locals := List.set_getElem_self hlt
  rw [List.map_set, hkey, ← List.map_set, hsame]

theorem eq_of_key_eq {β : Type*} {key : α → β} (hnodup : (locals.map key).Nodup)
    (hi : locals[i]? = some a) (hj : locals[j]? = some b) (hkey : key a = key b) : i = j := by
  have hlt : i < (locals.map key).length := by
    rw [List.length_map]
    exact (List.getElem?_eq_some_iff.mp hi).1
  refine (List.getElem?_inj hlt hnodup).mp ?_
  rw [List.getElem?_map, List.getElem?_map, hi, hj, Option.map_some, Option.map_some, hkey]

/-! ## Counting -/

/-- Whether some party is in a region does not change with a move inside or outside of it. -/
theorem any_set_same (h : locals[i]? = some a) (hsame : f b = f a) :
    (locals.set i b).any f = locals.any f := by
  obtain ⟨hlt, rfl⟩ := List.getElem?_eq_some_iff.mp h
  have hsplit : locals = locals.take i ++ locals[i] :: locals.drop (i + 1) := by
    rw [List.getElem_cons_drop, List.take_append_drop]
  rw [List.set_eq_take_append_cons_drop, if_pos hlt, List.any_append, List.any_cons, hsame,
    ← List.any_cons, ← List.any_append, ← hsplit]

/-- A move of one party changes the size of a region by its own part in it. -/
theorem countP_set (h : locals[i]? = some a) :
    (locals.set i b).countP f + (if f a = true then 1 else 0) =
      locals.countP f + (if f b = true then 1 else 0) := by
  obtain ⟨hlt, rfl⟩ := List.getElem?_eq_some_iff.mp h
  rw [List.countP_set hlt]
  by_cases hf : f locals[i] = true
  · have hpos : 0 < locals.countP f := List.countP_pos_iff.mpr ⟨_, List.getElem_mem hlt, hf⟩
    rw [if_pos hf]
    omega
  · rw [if_neg hf]
    omega

end Rustcast.Parties
