import Mathlib.Data.List.Chain

/-!
# Decode chains

In an IPPP video stream a delta frame decodes only on top of the frame directly before
it. `DecodeChain key follows l` says that a consumer handed the frames `l` in this order
can decode all of them: the first one is a key frame, and every other one that is not a
key frame follows its predecessor. `Linked` is the second half on its own, for a consumer
that may have been handed frames before `l`.
-/

namespace Rustcast

universe u v

variable {α : Type u} {β : Type v} {key : α → Bool} {follows : α → α → Prop} {l : List α}
  {x y : α}

/-- Every frame that is not a key frame follows the one before it in the list. -/
def Linked (key : α → Bool) (follows : α → α → Prop) (l : List α) : Prop :=
  l.IsChain fun a b => key b = false → follows a b

structure DecodeChain (key : α → Bool) (follows : α → α → Prop) (l : List α) : Prop where
  head : ∀ x ∈ l.head?, key x = true
  linked : Linked key follows l

theorem Linked.nil : Linked key follows [] := List.IsChain.nil

theorem Linked.snoc (h : Linked key follows l)
    (hx : key x = false → ∀ y ∈ l.getLast?, follows y x) : Linked key follows (l ++ [x]) := by
  refine .append h (.singleton x) ?_
  intro y hy z hz hkey
  simp only [List.head?_cons, Option.mem_def, Option.some.injEq] at hz
  subst hz
  exact hx hkey y hy

theorem Linked.imp_of_mem {follows' : α → α → Prop} (h : Linked key follows l)
    (himp : ∀ a b, a ∈ l → b ∈ l → follows a b → follows' a b) : Linked key follows' l :=
  .imp_of_mem_imp (fun a b ha hb hab hkey => himp a b ha hb (hab hkey)) h

theorem DecodeChain.nil : DecodeChain key follows [] := ⟨by simp, .nil⟩

/-- A chain grows by a key frame, or by a frame that follows its last one; a frame that is
not a key frame cannot be its first. -/
theorem DecodeChain.snoc (h : DecodeChain key follows l)
    (hx : key x = false → ∃ y ∈ l.getLast?, follows y x) : DecodeChain key follows (l ++ [x]) := by
  refine ⟨?_, h.linked.snoc ?_⟩
  · intro z hz
    cases l with
    | nil =>
      simp only [List.nil_append, List.head?_cons, Option.mem_def, Option.some.injEq] at hz
      subst hz
      cases hkey : key x with
      | true => rfl
      | false =>
        obtain ⟨y, hy, _⟩ := hx hkey
        simp at hy
    | cons a rest => exact h.head z (by simpa using hz)
  · intro hkey y hy
    obtain ⟨y', hy', hf⟩ := hx hkey
    have heq : y' = y := Option.mem_unique hy' hy
    exact heq ▸ hf

/-- Reading a chain through a projection that keeps the key flag and the links. -/
theorem DecodeChain.map {key' : β → Bool} {follows' : β → β → Prop} (f : α → β)
    (hkey : ∀ a, key' (f a) = key a) (hfollows : ∀ a b, follows a b → follows' (f a) (f b))
    (h : DecodeChain key follows l) : DecodeChain key' follows' (l.map f) := by
  refine ⟨?_, ?_⟩
  · intro z hz
    rw [List.head?_map] at hz
    obtain ⟨a, ha, rfl⟩ := Option.map_eq_some_iff.mp hz
    rw [hkey]
    exact h.head a ha
  · refine List.isChain_map_of_isChain f ?_ h.linked
    intro a b hab hb
    exact hfollows a b (hab (by rwa [hkey] at hb))

/-- A frame inside a chain that is not a key frame follows the last one before it. -/
theorem DecodeChain.follows_of_append {r : List α} (h : DecodeChain key follows (l ++ x :: r))
    (hkey : key x = false) : ∃ y ∈ l.getLast?, follows y x := by
  rcases List.eq_nil_or_concat l with rfl | ⟨front, y, rfl⟩
  · have := h.head x (by simp)
    rw [hkey] at this
    cases this
  · have hlink := (List.isChain_append.mp h.linked).2.2 y (by simp) x (by simp)
    exact ⟨y, by simp, hlink hkey⟩

end Rustcast
