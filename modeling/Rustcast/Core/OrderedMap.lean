import Mathlib.Data.List.Nodup

/-!
# Maps that remember insertion order

The `Map` of the browser code: at most one value for each key, iteration in insertion
order, and a `set` on a present key keeps the key's place. The entry list carries the
uniqueness of its keys, so a lookup is the only entry of its key.
-/

namespace Rustcast

universe u v

/-- Entries in insertion order, no key twice. -/
structure OrderedMap (κ : Type u) (α : Type v) where
  entries : List (κ × α)
  nodup : (entries.map Prod.fst).Nodup

namespace OrderedMap

variable {κ : Type u} {α : Type v}

def empty : OrderedMap κ α := ⟨[], List.nodup_nil⟩

def size (m : OrderedMap κ α) : Nat := m.entries.length

def values (m : OrderedMap κ α) : List α := m.entries.map Prod.snd

/-- Keep the entries that satisfy `p`: a `for … of` loop that deletes the others. -/
def filter (m : OrderedMap κ α) (p : κ × α → Bool) : OrderedMap κ α where
  entries := m.entries.filter p
  nodup := m.nodup.sublist (List.filter_sublist.map _)

@[simp] theorem entries_empty : (empty : OrderedMap κ α).entries = [] := rfl

variable {m : OrderedMap κ α} {x : κ × α} {k : κ} {a : α}

theorem mem_filter {p : κ × α → Bool} :
    x ∈ (m.filter p).entries ↔ x ∈ m.entries ∧ p x = true := List.mem_filter

theorem size_eq_zero : m.size = 0 ↔ m.entries = [] :=
  List.length_eq_zero_iff

variable [DecidableEq κ]

def get? (m : OrderedMap κ α) (k : κ) : Option α :=
  (m.entries.find? fun x => decide (x.1 = k)).map Prod.snd

def delete (m : OrderedMap κ α) (k : κ) : OrderedMap κ α :=
  m.filter fun x => decide (x.1 ≠ k)

/-- The entry list of `set`: replace in place, or append. -/
def setEntries (k : κ) (a : α) : List (κ × α) → List (κ × α)
  | [] => [(k, a)]
  | x :: rest => if x.1 = k then (k, a) :: rest else x :: setEntries k a rest

theorem mem_setEntries {l : List (κ × α)} (h : x ∈ setEntries k a l) : x = (k, a) ∨ x ∈ l := by
  induction l with
  | nil => exact .inl (by simpa [setEntries] using h)
  | cons y rest ih =>
    by_cases hy : y.1 = k
    · simp only [setEntries, if_pos hy, List.mem_cons] at h
      rcases h with h | h
      · exact .inl h
      · exact .inr (List.mem_cons_of_mem _ h)
    · simp only [setEntries, if_neg hy, List.mem_cons] at h
      rcases h with h | h
      · exact .inr (h ▸ List.mem_cons_self)
      · exact (ih h).imp_right (List.mem_cons_of_mem _)

theorem nodup_setEntries {l : List (κ × α)} (h : (l.map Prod.fst).Nodup) :
    ((setEntries k a l).map Prod.fst).Nodup := by
  induction l with
  | nil => simp [setEntries]
  | cons y rest ih =>
    rw [List.map_cons, List.nodup_cons] at h
    by_cases hy : y.1 = k
    · simp only [setEntries, if_pos hy, List.map_cons, List.nodup_cons]
      exact ⟨hy ▸ h.1, h.2⟩
    · simp only [setEntries, if_neg hy, List.map_cons, List.nodup_cons]
      refine ⟨?_, ih h.2⟩
      -- the head key is neither the new key nor a later one
      intro hmem
      obtain ⟨x, hx, hxy⟩ := List.mem_map.mp hmem
      rcases mem_setEntries hx with rfl | hx
      · exact hy hxy.symm
      · exact h.1 (List.mem_map.mpr ⟨x, hx, hxy⟩)

def set (m : OrderedMap κ α) (k : κ) (a : α) : OrderedMap κ α where
  entries := setEntries k a m.entries
  nodup := nodup_setEntries m.nodup

theorem mem_set (h : x ∈ (m.set k a).entries) : x = (k, a) ∨ x ∈ m.entries := mem_setEntries h

theorem find?_setEntries (k k' : κ) (a : α) (l : List (κ × α)) :
    (setEntries k a l).find? (fun x => decide (x.1 = k')) =
      if k' = k then some (k, a) else l.find? fun x => decide (x.1 = k') := by
  induction l with
  | nil => by_cases hk : k' = k <;> simp [setEntries, hk, eq_comm]
  | cons y rest ih =>
    by_cases hy : y.1 = k
    · by_cases hk : k' = k
      · simp [setEntries, hy, hk]
      · simp [setEntries, hy, hk, Ne.symm hk]
    · by_cases hk : k' = k
      · subst hk
        simp [setEntries, hy, ih]
      · by_cases hyk : y.1 = k' <;> simp [setEntries, hy, hk, hyk, ih]

/-- The new value is under its key, and all else as before. -/
theorem get?_set (m : OrderedMap κ α) (k k' : κ) (a : α) :
    (m.set k a).get? k' = if k' = k then some a else m.get? k' := by
  rw [get?, set, find?_setEntries]
  split <;> rfl

theorem mem_delete : x ∈ (m.delete k).entries ↔ x ∈ m.entries ∧ x.1 ≠ k := by
  simp [delete, mem_filter]

theorem mem_of_get? (h : m.get? k = some a) : (k, a) ∈ m.entries := by
  simp only [get?, Option.map_eq_some_iff] at h
  obtain ⟨x, hx, rfl⟩ := h
  have hk := List.find?_some hx
  simp only [decide_eq_true_eq] at hk
  exact hk ▸ List.mem_of_find?_eq_some hx

theorem get?_eq_none (h : m.get? k = none) (hx : x ∈ m.entries) : x.1 ≠ k := by
  simp only [get?, Option.map_eq_none_iff, List.find?_eq_none, decide_eq_true_eq] at h
  exact h x hx

/-- A key has one entry only, so a lookup finds every entry. -/
theorem get?_of_mem (h : (k, a) ∈ m.entries) : m.get? k = some a := by
  cases hget : m.get? k with
  | none => exact absurd rfl (get?_eq_none hget h)
  | some b =>
    have hsame : (k, b) = (k, a) := List.inj_on_of_nodup_map m.nodup (mem_of_get? hget) h rfl
    rw [(Prod.mk.inj hsame).2]

theorem mem_set_self (m : OrderedMap κ α) (k : κ) (a : α) : (k, a) ∈ (m.set k a).entries :=
  mem_of_get? (by rw [get?_set, if_pos rfl])

theorem mem_set_of_ne (hx : x ∈ m.entries) (hne : x.1 ≠ k) : x ∈ (m.set k a).entries :=
  mem_of_get? (by rw [get?_set, if_neg hne, get?_of_mem hx])

theorem get?_eq_none_iff : m.get? k = none ↔ ∀ x ∈ m.entries, x.1 ≠ k := by
  rw [get?, Option.map_eq_none_iff, List.find?_eq_none]
  simp only [decide_eq_true_eq, ne_eq]

/-- Nothing is under the key any more. -/
theorem get?_delete (m : OrderedMap κ α) (k k' : κ) :
    (m.delete k).get? k' = if k' = k then none else m.get? k' := by
  by_cases hk : k' = k
  · subst hk
    rw [if_pos rfl, get?_eq_none_iff]
    exact fun x hx => (mem_delete.mp hx).2
  · rw [if_neg hk]
    cases hget : m.get? k' with
    | none =>
      rw [get?_eq_none_iff] at hget ⊢
      exact fun x hx => hget x (mem_delete.mp hx).1
    | some a => exact get?_of_mem (mem_delete.mpr ⟨mem_of_get? hget, hk⟩)

theorem get?_filter (m : OrderedMap κ α) (k : κ) (p : κ × α → Bool) :
    (m.filter p).get? k = (m.get? k).filter fun a => p (k, a) := by
  cases hget : m.get? k with
  | none =>
    rw [get?_eq_none_iff] at hget
    exact get?_eq_none_iff.2 fun x hx => hget x (mem_filter.1 hx).1
  | some a =>
    have hmem := mem_of_get? hget
    cases hp : p (k, a) with
    | true => simp [Option.filter, hp, get?_of_mem (mem_filter.2 ⟨hmem, hp⟩)]
    | false =>
      simp only [Option.filter, hp]
      refine get?_eq_none_iff.2 fun x hx hkey => ?_
      obtain ⟨hx, hpx⟩ := mem_filter.1 hx
      rw [List.inj_on_of_nodup_map m.nodup hx hmem hkey, hp] at hpx
      cases hpx

theorem size_delete_lt (h : (k, a) ∈ m.entries) : (m.delete k).size < m.size := by
  exact List.length_filter_lt_length_iff_exists.mpr ⟨(k, a), h, by simp⟩

theorem length_setEntries (k : κ) (a : α) (l : List (κ × α)) :
    (setEntries k a l).length = l.length + if (l.find? fun x => decide (x.1 = k)).isSome then 0 else 1 := by
  induction l with
  | nil => rfl
  | cons y rest ih =>
    by_cases hy : y.1 = k
    · simp [setEntries, hy]
    · rw [setEntries, if_neg hy, List.length_cons, List.find?_cons_of_neg (by simpa using hy),
        List.length_cons]
      omega

/-- A key that was there is not counted again. -/
theorem size_set (m : OrderedMap κ α) (k : κ) (a : α) :
    (m.set k a).size = m.size + if (m.get? k).isSome then 0 else 1 := by
  rw [get?, Option.isSome_map]
  exact length_setEntries k a m.entries

/-- The size after the `delete` of a present key, whose entry is the only one of the key. -/
theorem size_delete_of_get? (h : m.get? k = some a) : (m.delete k).size + 1 = m.size := by
  obtain ⟨front, back, hsplit⟩ := List.append_of_mem (mem_of_get? h)
  have hnodup := m.nodup
  rw [hsplit, List.map_append, List.map_cons, List.nodup_append] at hnodup
  obtain ⟨-, hback, hfront⟩ := hnodup
  rw [List.nodup_cons] at hback
  have hkeep : ∀ x ∈ front ++ back, decide (x.1 ≠ k) = true := by
    intro x hx
    rw [decide_eq_true_eq]
    rintro rfl
    rcases List.mem_append.mp hx with hx | hx
    · exact hfront x.1 (List.mem_map_of_mem hx) x.1 List.mem_cons_self rfl
    · exact hback.1 (List.mem_map.mpr ⟨x, hx, rfl⟩)
  have hentries : (m.delete k).entries = front ++ back := by
    show m.entries.filter _ = _
    rw [hsplit, List.filter_append, List.filter_cons_of_neg (by simp), ← List.filter_append,
      List.filter_eq_self.mpr hkeep]
  rw [size, size, hentries, hsplit]
  simp only [List.length_append, List.length_cons]
  omega

end OrderedMap

end Rustcast
